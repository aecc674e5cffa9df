import ChatGames.Library.ByteOrder
import ChatGames.Serialization

/-!
# The buffers on a host

`BufferReader` and `BufferWriter` as `serialization.hpp` has them: integers are copied from and to
memory, where they lie in the byte order of the host, and every read ends in `seekRel`, whose
argument is an `int`. Each function is the one of `Serialization` on every host.
-/

namespace ChatGames

/-- The types that `ntoh` and `hton` are written for. -/
inductive IntType where
  | uint8
  | uint16
  | uint32
deriving DecidableEq, Repr

def IntType.sizeof : IntType → Nat
  | .uint8 => 1
  | .uint16 => 2
  | .uint32 => 4

/-- `htons` and `htonl` for the types of more than one byte. -/
def hton (host : ByteOrder) (T : IntType) (val : Nat) : Nat :=
  match T with
  | .uint8 => val
  | .uint16 => host.toNetwork 2 val
  | .uint32 => host.toNetwork 4 val

/-- `ntohs` and `ntohl` -/
def ntoh (host : ByteOrder) (T : IntType) (val : Nat) : Nat :=
  match T with
  | .uint8 => val
  | .uint16 => host.toNetwork 2 val
  | .uint32 => host.toNetwork 4 val

/-- A `size_t` as the `int` that `seekRel` takes. -/
def toInt (size : Nat) : Int := Int.bmod size (2 ^ 32)

namespace BufferReader

/-- `cursor_ += delta`, which wraps below zero. -/
def seekRel (delta : Int) (rbuf : BufferReader) : BufferReader :=
  { rbuf with
    cursor :=
      if 0 ≤ rbuf.cursor + delta then (rbuf.cursor + delta).toNat
      else (2 ^ 64 + (rbuf.cursor + delta)).toNat }

/-- What `memcpy` copies from `tellPtr()`, as far as it is there. -/
def peekBytes (n : Nat) (rbuf : BufferReader) : Except Fault Bytes :=
  if rbuf.cursor + n ≤ rbuf.size then .ok ((rbuf.buffer.drop rbuf.cursor).take n)
  else .error .outOfBounds

def hostInteger (host : ByteOrder) (T : IntType) (rbuf : BufferReader) :
    Except Fault (Nat × BufferReader) := do
  let val ← rbuf.peekBytes T.sizeof
  .ok (ntoh host T (host.load val), rbuf.seekRel (toInt T.sizeof))

/-- `string(size_t size)` -/
def hostBytes (size : Nat) (rbuf : BufferReader) : Except Fault (Bytes × BufferReader) := do
  let str ← rbuf.peekBytes size
  .ok (str, rbuf.seekRel (toInt size))

def hostString (host : ByteOrder) (SizeType : IntType) (rbuf : BufferReader) :
    Except Fault (Bytes × BufferReader) := do
  let (size, rbuf) ← rbuf.hostInteger host SizeType
  rbuf.hostBytes size

end BufferReader

namespace BufferWriter

def hostInteger (host : ByteOrder) (T : IntType) (val : Nat) (wbuf : BufferWriter) :
    BufferWriter :=
  ⟨wbuf.buffer ++ host.store T.sizeof (hton host T val)⟩

def hostString (host : ByteOrder) (SizeType : IntType) (str : Bytes) (wbuf : BufferWriter) :
    BufferWriter :=
  ⟨(wbuf.hostInteger host SizeType str.length).buffer ++ str⟩

end BufferWriter

/-! ### No host is different -/

theorem store_hton (host : ByteOrder) (T : IntType) (val : Nat) :
    host.store T.sizeof (hton host T val) = toBigEndian T.sizeof val := by
  cases T with
  | uint8 => exact host.store_one val
  | uint16 | uint32 => exact host.store_toNetwork _ val

theorem ntoh_load (host : ByteOrder) (T : IntType) {bytes : Bytes}
    (h : bytes.length = T.sizeof) : ntoh host T (host.load bytes) = ofBigEndian bytes := by
  cases T with
  | uint8 =>
      obtain ⟨byte, rfl⟩ := List.length_eq_one_iff.mp h
      exact host.load_singleton byte
  | uint16 | uint32 =>
      have hnetwork := host.toNetwork_load bytes
      rwa [h] at hnetwork

theorem toInt_of_lt {size : Nat} (h : size < 2 ^ 31) : toInt size = size := by
  apply Int.bmod_eq_of_le
  · exact le_trans (by decide) (Int.natCast_nonneg size)
  · change (size : Int) < 2147483648
    omega

theorem BufferWriter.hostInteger_eq (host : ByteOrder) (T : IntType) (val : Nat)
    (wbuf : BufferWriter) : wbuf.hostInteger host T val = wbuf.integer T.sizeof val := by
  rw [hostInteger, store_hton, integer]

theorem BufferWriter.hostString_eq (host : ByteOrder) (SizeType : IntType) (str : Bytes)
    (wbuf : BufferWriter) :
    wbuf.hostString host SizeType str = wbuf.string SizeType.sizeof str := by
  rw [hostString, hostInteger_eq, string]

namespace BufferReader

theorem seekRel_ofNat (n : Nat) (rbuf : BufferReader) :
    rbuf.seekRel n = { rbuf with cursor := rbuf.cursor + n } := by
  rw [seekRel, if_pos (by omega)]
  congr 1

/-- A string of 2 GiB or more would be seeked backwards. -/
theorem hostBytes_eq {size : Nat} (h : size < 2 ^ 31) (rbuf : BufferReader) :
    rbuf.hostBytes size = rbuf.bytes size := by
  rw [hostBytes, peekBytes, bytes, toInt_of_lt h, seekRel_ofNat]
  split <;> rfl

theorem hostInteger_eq (host : ByteOrder) (T : IntType) (rbuf : BufferReader) :
    rbuf.hostInteger host T = rbuf.integer T.sizeof := by
  have hsize : T.sizeof < 2 ^ 31 := by cases T <;> decide
  rw [hostInteger, peekBytes, integer, bytes, toInt_of_lt hsize, seekRel_ofNat]
  split
  · rename_i hinside
    have hlength : ((rbuf.buffer.drop rbuf.cursor).take T.sizeof).length = T.sizeof := by
      rw [List.length_take, List.length_drop]
      have hsize : rbuf.size = rbuf.buffer.length := rfl
      omega
    change Except.ok (ntoh host T _, _) = Except.ok _
    rw [ntoh_load host T hlength]
  · rfl

theorem integer_lt {width val : Nat} {rbuf rbuf' : BufferReader}
    (h : rbuf.integer width = .ok (val, rbuf')) : val < 256 ^ width := by
  rw [integer, bytes] at h
  split at h
  · rename_i hinside
    cases h
    have hlt := ofBigEndian_lt ((rbuf.buffer.drop rbuf.cursor).take width)
    have hsize : rbuf.size = rbuf.buffer.length := rfl
    rwa [List.length_take, List.length_drop, min_eq_left (by omega)] at hlt
  · cases h

theorem hostString_eq (host : ByteOrder) {SizeType : IntType} (hsize : SizeType ≠ .uint32)
    (rbuf : BufferReader) : rbuf.hostString host SizeType = rbuf.string SizeType.sizeof := by
  rw [hostString, hostInteger_eq, string]
  cases hread : rbuf.integer SizeType.sizeof with
  | error fault => rfl
  | ok read =>
      have hlt : read.1 < 256 ^ SizeType.sizeof := integer_lt hread
      have hbound : 256 ^ SizeType.sizeof ≤ 2 ^ 31 := by
        cases SizeType with
        | uint8 | uint16 => decide
        | uint32 => exact absurd rfl hsize
      exact hostBytes_eq (hlt.trans_le hbound) read.2

end BufferReader

end ChatGames
