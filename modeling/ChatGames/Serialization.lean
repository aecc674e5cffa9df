import ChatGames.Library.LengthPrefix

/-!
# Serialization

The server's byte level: the frames it takes off a connection's stream buffer, and the reader and
writer its messages go through. A `Fault` is a point at which the C++ has no defined behaviour left:
an assertion that does not hold, a read past the end of a buffer, or the value of an empty optional.
-/

namespace ChatGames

abbrev Bytes := List UInt8

inductive Fault where
  | assertPeekInteger
  | assertReadString
  | outOfBounds
  | assertNextPlayerId
  | assertPlayerIdx
  | assertPlayerId
  | emptyPlayerId
deriving DecidableEq, Repr

/-! ### The stream buffer -/

/-- The `width`-byte integer at the front of the buffer, after `ntoh`. -/
def peekInteger (width : Nat) (sbuf : Bytes) : Except Fault Nat :=
  if width ≤ sbuf.length then .ok (ofBigEndian (sbuf.take width)) else .error .assertPeekInteger

def readString (sbuf : Bytes) (n : Nat) : Except Fault Bytes :=
  if n ≤ sbuf.length then .ok (sbuf.take n) else .error .assertReadString

def readMessage (readBuf : Bytes) : Except Fault (Option Bytes × Bytes) :=
  if 4 ≤ readBuf.length then do
    let msgSize ← peekInteger 4 readBuf
    -- msgSize is a uint32_t, so the sum wraps before it is compared
    if (msgSize + 4) % 2 ^ 32 ≤ readBuf.length then
      let msg ← readString (readBuf.drop 4) msgSize
      .ok (some msg, (readBuf.drop 4).drop msgSize)
    else
      .ok (none, readBuf)
  else
    .ok (none, readBuf)

/-! ### BufferReader and BufferWriter -/

structure BufferReader where
  buffer : Bytes
  cursor : Nat

namespace BufferReader

def size (rbuf : BufferReader) : Nat := rbuf.buffer.length

def remaining (rbuf : BufferReader) : Nat := rbuf.size - rbuf.cursor

/-- The `n` bytes at the cursor. Nothing in the source compares the cursor with the size; what lies
past the end is not the message's, so reading it is a fault here. -/
def bytes (n : Nat) (rbuf : BufferReader) : Except Fault (Bytes × BufferReader) :=
  if rbuf.cursor + n ≤ rbuf.size then
    .ok ((rbuf.buffer.drop rbuf.cursor).take n, { rbuf with cursor := rbuf.cursor + n })
  else
    .error .outOfBounds

/-- `integer<T>()` for an unsigned `T` of `width` bytes. -/
def integer (width : Nat) (rbuf : BufferReader) : Except Fault (Nat × BufferReader) := do
  let (val, rbuf) ← rbuf.bytes width
  .ok (ofBigEndian val, rbuf)

/-- `string<SizeType>()` for a `SizeType` of `width` bytes. -/
def string (width : Nat) (rbuf : BufferReader) : Except Fault (Bytes × BufferReader) := do
  let (size, rbuf) ← rbuf.integer width
  rbuf.bytes size

end BufferReader

structure BufferWriter where
  buffer : Bytes

namespace BufferWriter

def empty : BufferWriter := ⟨[]⟩

def integer (width val : Nat) (wbuf : BufferWriter) : BufferWriter :=
  ⟨wbuf.buffer ++ toBigEndian width val⟩

def string (width : Nat) (str : Bytes) (wbuf : BufferWriter) : BufferWriter :=
  ⟨(wbuf.integer width str.length).buffer ++ str⟩

def toString (wbuf : BufferWriter) : Bytes := wbuf.buffer

end BufferWriter

/-! ### What a read takes off the buffer -/

namespace BufferReader

def rest (rbuf : BufferReader) : Bytes := rbuf.buffer.drop rbuf.cursor

def Inside (rbuf : BufferReader) : Prop := rbuf.cursor ≤ rbuf.size

variable {rbuf : BufferReader}

theorem Inside.rest_length (h : rbuf.Inside) : rbuf.cursor + rbuf.rest.length = rbuf.size := by
  rw [rest, List.length_drop]
  exact Nat.add_sub_cancel' h

theorem bytes_of_le (h : rbuf.Inside) {n : Nat} (hn : n ≤ rbuf.rest.length) :
    ∃ rbuf', rbuf.bytes n = .ok (rbuf.rest.take n, rbuf') ∧ rbuf'.Inside ∧
      rbuf'.rest = rbuf.rest.drop n := by
  have hlength := h.rest_length
  refine ⟨{ rbuf with cursor := rbuf.cursor + n }, ?_, ?_, ?_⟩
  · rw [bytes, if_pos (by omega), rest]
  · change rbuf.cursor + n ≤ rbuf.size
    omega
  · rw [rest, rest, List.drop_drop]

theorem bytes_of_lt (h : rbuf.Inside) {n : Nat} (hn : rbuf.rest.length < n) :
    rbuf.bytes n = .error .outOfBounds := by
  have hlength := h.rest_length
  rw [bytes, if_neg (by omega)]

/-- A string is read exactly when the bytes still to be read start with all of one. -/
theorem string_eq (h : rbuf.Inside) (width : Nat) :
    (LengthPrefix.next width (256 ^ width) rbuf.rest = none ∧
        rbuf.string width = .error .outOfBounds) ∨
      ∃ str rest rbuf', LengthPrefix.next width (256 ^ width) rbuf.rest = some (str, rest) ∧
        rbuf.string width = .ok (str, rbuf') ∧ rbuf'.Inside ∧ rbuf'.rest = rest := by
  by_cases hheader : width ≤ rbuf.rest.length
  · obtain ⟨rbuf₁, hread, hinside, hrest⟩ := bytes_of_le h hheader
    have hsize : LengthPrefix.announced width rbuf.rest < 256 ^ width := by
      have hlt := ofBigEndian_lt (rbuf.rest.take width)
      rwa [List.length_take, min_eq_left hheader] at hlt
    have hstring : rbuf.string width =
        rbuf₁.bytes (LengthPrefix.announced width rbuf.rest) := by
      rw [string, integer, hread]
      rfl
    have hlength : rbuf₁.rest.length = rbuf.rest.length - width := by
      rw [hrest, List.length_drop]
    by_cases hbody : LengthPrefix.announced width rbuf.rest ≤ rbuf₁.rest.length
    · obtain ⟨rbuf₂, hread₂, hinside₂, hrest₂⟩ := bytes_of_le hinside hbody
      refine Or.inr ⟨_, _, rbuf₂, ?_, by rw [hstring, hread₂], hinside₂, hrest₂⟩
      rw [LengthPrefix.next, if_pos ⟨hheader, hsize, by omega⟩, hrest, List.drop_drop]
    · refine Or.inl ⟨?_, by rw [hstring, bytes_of_lt hinside (by omega)]⟩
      rw [LengthPrefix.next, if_neg fun hcond => by omega]
  · refine Or.inl ⟨?_, ?_⟩
    · rw [LengthPrefix.next, if_neg fun hcond => hheader hcond.1]
    · rw [string, integer, bytes_of_lt h (by omega)]
      rfl

/-- A reader that stands before a string reads it. -/
theorem Inside.string_of_rest (h : rbuf.Inside) {width : Nat} {str more : Bytes}
    (hstr : str.length < 256 ^ width) (hrest : rbuf.rest = LengthPrefix.frame width str ++ more) :
    ∃ rbuf', rbuf.string width = .ok (str, rbuf') ∧ rbuf'.Inside ∧ rbuf'.rest = more := by
  have hnext : LengthPrefix.next width (256 ^ width) rbuf.rest = some (str, more) := by
    rw [hrest]
    exact LengthPrefix.next_frame hstr hstr more
  rcases string_eq h width with
    ⟨hnone, -⟩ | ⟨str', more', rbuf', hnext', hread, hinside, hrest'⟩
  · rw [hnone] at hnext
    cases hnext
  · rw [hnext', Option.some.injEq, Prod.mk.injEq] at hnext
    obtain ⟨rfl, rfl⟩ := hnext
    exact ⟨rbuf', hread, hinside, hrest'⟩

/-- A string that was read is no longer than its length field can say. -/
theorem Inside.string_length_lt (h : rbuf.Inside) {width : Nat} {str : Bytes} {rbuf' : BufferReader}
    (hread : rbuf.string width = .ok (str, rbuf')) : str.length < 256 ^ width ∧ rbuf'.Inside := by
  rcases string_eq h width with ⟨-, herror⟩ | ⟨str', more, rbuf'', hnext, hread', hinside, -⟩
  · rw [herror] at hread
    cases hread
  · rw [hread', Except.ok.injEq, Prod.mk.injEq] at hread
    obtain ⟨rfl, rfl⟩ := hread
    exact ⟨(LengthPrefix.next_eq_some_iff.mp hnext).2.2, hinside⟩

end BufferReader

end ChatGames
