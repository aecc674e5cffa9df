import ChatGames.Serialization
import ChatGames.Library.TransitionSystem

/-!
# The server's side of the byte stream

`ConnectionBase::readBuf` runs once for each chunk the socket delivers and hands the accumulated
buffer to `LobbySession::processReadBuf`, which takes one message off it. The specification is the
splitter of length-prefixed frames: after any number of chunks the messages posted should be the
frames of the bytes received, and the buffer what those frames leave over.

One message per call is not enough. `reassembled_iff` says exactly when it is: no call may find a
second complete frame behind the first, and none may find a length the 32-bit sum wraps on.
-/

namespace ChatGames

/-- The read side of a connection: the stream buffer, the messages posted to `strand_`, and whether
a read is outstanding. -/
structure Connection where
  readBuf : Bytes
  posted : List Bytes
  reading : Bool
deriving DecidableEq

inductive ReadResult where
  | error
  | received (chunk : Bytes)

namespace Connection

/-- The connection once `Server::handleConnection` has called `read`. -/
def accepted : Connection := ⟨[], [], true⟩

def processReadBuf (conn : Connection) : Except Fault Connection := do
  let (msg, readBuf) ← readMessage conn.readBuf
  match msg with
  | some msg => .ok { conn with readBuf := readBuf, posted := conn.posted ++ [msg] }
  | none => .ok { conn with readBuf := readBuf }

def onRead (conn : Connection) : ReadResult → Except Fault Connection
  | .error => .ok { conn with reading := false }
  | .received chunk => do
      let conn ← processReadBuf { conn with readBuf := conn.readBuf ++ chunk }
      .ok { conn with reading := true }

def onReads (chunks : List Bytes) : Except Fault Connection :=
  chunks.foldlM (fun conn chunk => conn.onRead (.received chunk)) accepted

/-! ### The specification -/

def frames : Splitter UInt8 := LengthPrefix.frames 4 (2 ^ 32 - 4) LengthPrefix.fourByteHeader_pos

/-- The connection a stream should lead to. -/
def assembled (stream : Bytes) : Connection := ⟨frames.tail stream, frames.items stream, true⟩

/-- After every call, what was posted and what is buffered are the frames and the tail of the bytes
received so far. -/
def Reassembled (chunks : List Bytes) : Prop :=
  ∀ received, received <+: chunks → onReads received = .ok (assembled received.flatten)

/-- A length on which `msgSize + 4` wraps. -/
def Oversize (buf : Bytes) : Prop := 4 ≤ buf.length ∧ 2 ^ 32 - 4 ≤ ofBigEndian (buf.take 4)

def AtMostOneFrame (buf : Bytes) : Prop := (frames.items buf).length ≤ 1 ∧ ¬Oversize buf

/-- The frames are what the client sent: framed messages split into these messages again. -/
theorem frames_flatMap_frame {msgs : List Bytes} (hmsgs : ∀ msg ∈ msgs, msg.length < 2 ^ 32 - 4)
    (rest : Bytes) :
    frames.items (msgs.flatMap (LengthPrefix.frame 4) ++ rest) = msgs ++ frames.items rest ∧
      frames.tail (msgs.flatMap (LengthPrefix.frame 4) ++ rest) = frames.tail rest := by
  apply LengthPrefix.items_flatMap_frame
  intro msg hmsg
  have hlt := hmsgs msg hmsg
  exact ⟨hlt, by omega⟩

/-! ### One call -/

variable {buf : Bytes}

theorem frames_next_of_oversize (h : Oversize buf) : frames.next buf = none := by
  change LengthPrefix.next 4 (2 ^ 32 - 4) buf = none
  rw [LengthPrefix.next, if_neg]
  rintro ⟨_, hbound, _⟩
  exact absurd hbound (not_lt.mpr h.2)

theorem readMessage_of_not_oversize (h : ¬Oversize buf) :
    readMessage buf = match frames.next buf with
      | none => .ok (none, buf)
      | some (msg, rest) => .ok (some msg, rest) := by
  change readMessage buf = match LengthPrefix.next 4 (2 ^ 32 - 4) buf with
    | none => .ok (none, buf)
    | some (msg, rest) => .ok (some msg, rest)
  by_cases hheader : 4 ≤ buf.length
  · have hsmall : ofBigEndian (buf.take 4) < 2 ^ 32 - 4 := by
      by_contra hlarge
      exact h ⟨hheader, not_lt.mp hlarge⟩
    have hsum : (ofBigEndian (buf.take 4) + 4) % 2 ^ 32 = ofBigEndian (buf.take 4) + 4 :=
      Nat.mod_eq_of_lt (by omega)
    rw [readMessage, if_pos hheader, peekInteger, if_pos hheader]
    change (if (ofBigEndian (buf.take 4) + 4) % 2 ^ 32 ≤ buf.length then _ else _) = _
    rw [hsum]
    by_cases hbody : ofBigEndian (buf.take 4) + 4 ≤ buf.length
    · rw [if_pos hbody, LengthPrefix.next, LengthPrefix.announced,
        if_pos ⟨hheader, hsmall, by omega⟩, readString,
        if_pos (by rw [List.length_drop]; omega), List.drop_drop]
      rfl
    · rw [if_neg hbody, LengthPrefix.next, LengthPrefix.announced,
        if_neg (fun hcond => hbody (by omega))]
  · rw [readMessage, if_neg hheader, LengthPrefix.next, if_neg (fun hcond => hheader hcond.1)]

/-- A length the sum wraps on is taken for a frame, whatever has arrived of its body. -/
theorem readMessage_of_oversize (h : Oversize buf) :
    readMessage buf = .error .assertReadString ∨
      ∃ msg rest, readMessage buf = .ok (some msg, rest) := by
  obtain ⟨hheader, hlarge⟩ := h
  have hlt : ofBigEndian (buf.take 4) < 2 ^ 32 := by
    have hbytes := ofBigEndian_lt (buf.take 4)
    rw [List.length_take, min_eq_left hheader] at hbytes
    exact hbytes
  have hwrap : (ofBigEndian (buf.take 4) + 4) % 2 ^ 32 ≤ buf.length := by omega
  rw [readMessage, if_pos hheader, peekInteger, if_pos hheader]
  change (if (ofBigEndian (buf.take 4) + 4) % 2 ^ 32 ≤ buf.length then _ else _) = _ ∨
    ∃ msg rest, (if (ofBigEndian (buf.take 4) + 4) % 2 ^ 32 ≤ buf.length then _ else _) = _
  rw [if_pos hwrap, readString]
  by_cases hbody : ofBigEndian (buf.take 4) ≤ (buf.drop 4).length
  · rw [if_pos hbody]
    exact Or.inr ⟨_, _, rfl⟩
  · rw [if_neg hbody]
    exact Or.inl rfl

/-- **One call.** From the connection the stream so far leads to, a chunk leads to the connection
the longer stream leads to exactly when the buffer holds at most one frame. -/
theorem onRead_assembled_iff (stream chunk : Bytes) :
    (assembled stream).onRead (.received chunk) = .ok (assembled (stream ++ chunk)) ↔
      AtMostOneFrame (frames.tail stream ++ chunk) := by
  set buf := frames.tail stream ++ chunk with hbuf
  have hassembled : assembled (stream ++ chunk) =
      ⟨frames.tail buf, frames.items stream ++ frames.items buf, true⟩ := by
    rw [assembled, Splitter.tail_append, Splitter.items_append]
  have hcall : (assembled stream).onRead (.received chunk) =
      (processReadBuf ⟨buf, frames.items stream, true⟩).bind
        fun conn => .ok { conn with reading := true } := rfl
  rw [hassembled, hcall, processReadBuf]
  by_cases hover : Oversize buf
  · have hitems := Splitter.items_of_next_none (frames_next_of_oversize hover)
    refine iff_of_false ?_ fun h => h.2 hover
    rcases readMessage_of_oversize hover with hread | ⟨msg, rest, hread⟩
    · rw [hread]
      intro h
      cases h
    · rw [hread, hitems]
      intro h
      have hposted := congrArg Connection.posted (Except.ok.inj h)
      simp at hposted
  · rw [readMessage_of_not_oversize hover]
    cases hnext : frames.next buf with
    | none =>
        refine iff_of_true ?_ ⟨?_, hover⟩
        · rw [Splitter.items_of_next_none hnext, Splitter.tail_of_next_none hnext, List.append_nil]
          rfl
        · simp [Splitter.items_of_next_none hnext]
    | some p =>
        obtain ⟨msg, rest⟩ := p
        rw [AtMostOneFrame, Splitter.items_length_le_one_iff hnext,
          Splitter.items_of_next_some hnext, Splitter.tail_of_next_some hnext]
        change Except.ok (⟨rest, frames.items stream ++ [msg], true⟩ : Connection) = _ ↔ _
        simp only [Except.ok.injEq, Connection.mk.injEq, List.append_cancel_left_eq,
          List.cons.injEq, true_and, and_true]
        constructor
        · rintro ⟨_, hitems⟩
          exact ⟨Splitter.items_eq_nil_iff.mp hitems.symm, hover⟩
        · rintro ⟨hnone, _⟩
          exact ⟨(Splitter.tail_of_next_none hnone).symm, (Splitter.items_of_next_none hnone).symm⟩

theorem onReads_concat (chunks : List Bytes) (chunk : Bytes) :
    onReads (chunks ++ [chunk]) =
      (onReads chunks).bind fun conn => conn.onRead (.received chunk) := by
  rw [onReads, List.foldlM_append]
  change ((onReads chunks).bind fun conn => [chunk].foldlM _ conn) = _
  simp

/-! ### All calls -/

/-- **Stream reassembly.** Every call leaves the frames and the tail of the bytes received exactly
when every call finds at most one complete frame in its buffer, behind no length the sum wraps
on. -/
theorem reassembled_iff (chunks : List Bytes) :
    Reassembled chunks ↔ ∀ received chunk, received ++ [chunk] <+: chunks →
      AtMostOneFrame (frames.tail received.flatten ++ chunk) := by
  refine forall_prefix_iff
    (P := fun received => onReads received = .ok (assembled received.flatten)) rfl ?_ chunks
  intro received chunk hreceived
  rw [onReads_concat, hreceived, List.flatten_append, List.flatten_singleton]
  exact onRead_assembled_iff received.flatten chunk

/-- Two heartbeats in one chunk: the second waits in the buffer. -/
theorem not_reassembled_two_frames :
    ¬∀ chunks : List Bytes, (∀ chunk ∈ chunks, chunk ≠ []) → Reassembled chunks := by
  intro h
  have hcall := h [[0, 0, 0, 1, 11, 0, 0, 0, 1, 11]] (by simp) _ (List.prefix_refl _)
  revert hcall
  decide

end Connection

end ChatGames
