import ChatGames.Library.ByteOrder
import ChatGames.NetRequests

/-!
# The writer's buffer

`BlobWriter.lua` writes into memory of its own, which `_grow` replaces when it is full. What comes
behind the written bytes is whatever lies there, and nothing but the tests before each store keeps
the stores inside.
-/

namespace ChatGames

/-- `data` are all bytes of the memory, of which the first `length` are written. No code reads
`copied`: the bytes that `_allocate` has copied so far. -/
structure BlobBuffer where
  order : ByteOrder
  data : Bytes
  length : Nat
  copied : Nat

namespace BlobBuffer

/-- `bit.band` and `bit.rshift`, of which nothing below shows whether the result has a sign. -/
def band (value mask : Nat) : Nat := value % 2 ^ 32 &&& mask

def shr (value count : Nat) : Nat := (value % 2 ^ 32) >>> count

def orderBytes : ByteOrder → Nat × Nat → Nat × Nat
  | .little, (v1, v2) => (v1, v2)
  | .big, (v1, v2) => (v2, v1)

variable (self : BlobBuffer)

def size : Nat := self.data.length

/-- `_data[i] = value`; there is no result if that is outside. -/
def store (i value : Nat) : Option BlobBuffer :=
  if i < self.size then some { self with data := self.data.set i (UInt8.ofNat value) } else none

/-- `_allocate`; there is no result if `ffi.copy` copies more than there is room for. -/
def allocate (size : Nat) : Option BlobBuffer :=
  if self.length ≤ size then
    some { self with
      data := self.data.take self.length ++ List.replicate (size - self.length) 0
      length := min size self.length
      copied := self.copied + self.length }
  else
    none

/-- `_grow`. The second number is `math.floor(math.max(1, self._size * 1.5) + .5)`. -/
def grow (minimum : Nat) : Option BlobBuffer :=
  self.allocate (max (self.size + minimum) ((max 2 (3 * self.size) + 1) / 2))

/-- The test for `count` more bytes that the methods begin with. -/
def reserve (count : Nat) : Option BlobBuffer :=
  if self.size < self.length + count then self.grow count else some self

/-- `__init` -/
def new (order : ByteOrder) (size : Nat) : Option BlobBuffer := allocate ⟨order, [], 0, 0⟩ size

def u8 (value : Nat) : Option BlobBuffer := do
  let self ← self.reserve 1
  let self ← self.store self.length value
  some { self with length := self.length + 1 }

def u16 (value : Nat) : Option BlobBuffer := do
  let len := self.length
  let self ← self.reserve 2
  let b := orderBytes self.order (band value (2 ^ 8 - 1), shr value 8)
  let self ← self.store len b.1
  let self ← self.store (len + 1) b.2
  some { self with length := self.length + 2 }

def u32 (value : Nat) : Option BlobBuffer := do
  let len := self.length
  let self ← self.reserve 4
  let w := orderBytes self.order (band value (2 ^ 16 - 1), shr value 16)
  let b := orderBytes self.order (band w.1 (2 ^ 8 - 1), shr w.1 8)
  let b' := orderBytes self.order (band w.2 (2 ^ 8 - 1), shr w.2 8)
  let self ← self.store len b.1
  let self ← self.store (len + 1) b.2
  let self ← self.store (len + 2) b'.1
  let self ← self.store (len + 3) b'.2
  some { self with length := self.length + 4 }

/-- Without memory there is no pointer to copy to; there is no result either if `ffi.copy` copies
more than there is room for. -/
def raw (value : Bytes) : Option BlobBuffer := do
  let makeRoom : Int := self.size - self.length - value.length
  let grown := if makeRoom < 0 then self.grow makeRoom.natAbs else some self
  let self ← grown
  if 0 < self.size ∧ self.length + value.length ≤ self.size then
    some { self with
      data := self.data.take self.length ++ value ++ self.data.drop (self.length + value.length)
      length := self.length + value.length }
  else
    none

def clear (size : Option Nat) : Option BlobBuffer :=
  let self := { self with length := 0 }
  match size with
  | none => some self
  | some size => allocate { self with data := [] } size

def tostring : Bytes := self.data.take self.length

end BlobBuffer

/-- A call of a method of the writer. -/
inductive BlobCall where
  | u8 (value : Nat)
  | u16 (value : Nat)
  | u32 (value : Nat)
  | raw (value : Bytes)
  | clear (size : Option Nat)
deriving DecidableEq

namespace BlobCall

def apply (self : BlobBuffer) : BlobCall → Option BlobBuffer
  | u8 value => self.u8 value
  | u16 value => self.u16 value
  | u32 value => self.u32 value
  | raw value => self.raw value
  | clear size => self.clear size

/-- What the call adds to the string. -/
def spelling (order : ByteOrder) : BlobCall → Bytes
  | u8 value => order.store 1 value
  | u16 value => order.store 2 value
  | u32 value => order.store 4 value
  | raw value => value
  | clear _ => []

end BlobCall

def BlobBuffer.run (calls : List BlobCall) (self : BlobBuffer) : Option BlobBuffer :=
  calls.foldlM BlobCall.apply self

/-- An account of the calls so far: the string they make, the longest it has been, the largest
memory that was asked for, and the bytes that were stored. -/
structure BlobTally where
  bytes : Bytes
  longest : Nat
  asked : Nat
  stored : Nat

namespace BlobTally

def new (size : Nat) : BlobTally := ⟨[], 0, size, 0⟩

def add (order : ByteOrder) (tally : BlobTally) : BlobCall → BlobTally
  | .clear size => { tally with bytes := [], asked := max tally.asked (size.getD 0) }
  | call =>
      let bytes := tally.bytes ++ call.spelling order
      { tally with
        bytes := bytes
        longest := max tally.longest bytes.length
        stored := tally.stored + (call.spelling order).length }

end BlobTally

namespace Net

/-- `encodeMessage`, with the memory of the writer. -/
def encodeInto (writer : BlobBuffer) : Request → Option BlobBuffer
  | .createLobby playerName => do
      let writer ← writer.u8 playerName.length
      writer.raw playerName
  | .joinLobby playerName lobbyId => do
      let writer ← writer.u8 playerName.length
      let writer ← writer.raw playerName
      let writer ← writer.u8 lobbyId.length
      writer.raw lobbyId
  | .sendMessage msg => do
      let writer ← writer.u16 msg.length
      writer.raw msg

/-- `sendMessage`: what is pushed to `sendQueue`, and the writer afterwards. -/
def writeFrame (writer : BlobBuffer) (request : Request) : Option (Bytes × BlobBuffer) := do
  let writer ← writer.clear none
  let writer ← writer.u8 request.msgType.val
  let writer ← encodeInto writer request
  let data := writer.tostring
  let writer ← writer.clear none
  let writer ← writer.u32 data.length
  let writer ← writer.raw data
  some (writer.tostring, writer)

/-- What is pushed for the requests in their order. -/
def writeFrames (writer : BlobBuffer) : List Request → Option (List Bytes × BlobBuffer)
  | [] => some ([], writer)
  | request :: requests => do
      let (frame, writer) ← writeFrame writer request
      let (frames, writer) ← writeFrames writer requests
      some (frame :: frames, writer)

end Net

end ChatGames
