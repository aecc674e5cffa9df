import ChatGames.BlobBuffer
import ChatGames.Library.Decoder
import ChatGames.NetMessages

/-!
# The fields of a blob

What the methods of `BlobWriter.lua` write for a value, as the calls they come down to, and what
those of `BlobReader.lua` take of the bytes from `_readPtr` on. Integers that are announced as 32
bits go in groups of seven, the lowest first; the top bit of a byte says that there is another one.
-/

namespace ChatGames

namespace Blob

open BlobBuffer

/-! ### Writing -/

/-- The loops of `vu32` and `vs32` over `i`, and what comes behind them. -/
def groups (value : Nat) (last : BlobCall) : List Nat → List BlobCall
  | [] => [last]
  | i :: is =>
      let mask := 2 ^ i - 1
      let shift := i - 7
      if value < 2 ^ i then
        [.u8 (shr (band value mask) shift)]
      else
        .u8 (shr (band value mask) shift + 0x80) :: groups value last is

def vu32 (value : Nat) : Except LuaError (List BlobCall) :=
  if value < 2 ^ 32 then
    .ok (groups value (.u8 (shr (band value 0xf0000000) 28)) [7, 14, 21, 28])
  else
    .error "Exceeded u32 value limits"

def vs32 (value : Int) : Except LuaError (List BlobCall) :=
  if value < 2 ^ 31 ∧ -2 ^ 31 ≤ value then
    let signBit := if value < 0 then 1 else 0
    let value := value.natAbs
    if value < 2 ^ 6 then
      .ok [.u8 ((band value 0x3f) <<< 1 + signBit)]
    else
      .ok (.u8 ((band value 0x3f) <<< 1 + signBit + 0x80) ::
        groups value (.u8 (shr (band value 0xf8000000) 27)) [13, 20, 27])
  else
    .error "Exceeded s32 value limits"

end Blob

/-- A value, with the method that writes it. -/
inductive BlobField where
  | u8 (value : Nat)
  | u16 (value : Nat)
  | u32 (value : Nat)
  | vu32 (value : Nat)
  | vs32 (value : Int)
  | bool (value : Bool)
  | string (value : Bytes)
  | raw (value : Bytes)
deriving DecidableEq

/-- A method of the reader. -/
inductive BlobRead where
  | u8
  | u16
  | u32
  | vu32
  | vs32
  | bool
  | string
  | raw (len : Nat)

namespace BlobField

def calls : BlobField → Except LuaError (List BlobCall)
  | u8 value => .ok [.u8 value]
  | u16 value => .ok [.u16 value]
  | u32 value => .ok [.u32 value]
  | vu32 value => Blob.vu32 value
  | vs32 value => Blob.vs32 value
  | bool value => .ok [.u8 (if value then 1 else 0)]
  | string value => do
      let length ← Blob.vu32 value.length
      .ok (length ++ [.raw value])
  | raw value => .ok [.raw value]

/-- The method that reads what was written. -/
def reading : BlobField → BlobRead
  | u8 _ => .u8
  | u16 _ => .u16
  | u32 _ => .u32
  | vu32 _ => .vu32
  | vs32 _ => .vs32
  | bool _ => .bool
  | string _ => .string
  | raw value => .raw value.length

end BlobField

namespace Blob

open BlobBuffer

def write : List BlobField → Except LuaError (List BlobCall)
  | [] => .ok []
  | field :: fields => do
      let calls ← field.calls
      let calls' ← write fields
      .ok (calls ++ calls')

/-! ### Reading -/

abbrev Reader := Decoder UInt8 LuaError "Out of data"

/-- `u8`, `u16` and `u32`, for 1, 2 and 4 bytes. -/
def unsigned (order : ByteOrder) (width : Nat) : Reader Nat := do
  let bytes ← Decoder.take width
  pure (order.load bytes)

def u8 (order : ByteOrder) : Reader Nat := unsigned order 1

/-- The tests of `vu32` and `vs32`, for each bit that says that there is another byte. -/
def moreGroups (order : ByteOrder) : List Nat → Nat → Reader Nat
  | [], result => pure result
  | i :: is, result =>
      if band result (2 ^ i) = 0 then
        pure result
      else do
        let byte ← u8 order
        moreGroups order is (band result (2 ^ i - 1) + byte * 2 ^ i)

def readVu32 (order : ByteOrder) : Reader Nat := do
  let result ← u8 order
  moreGroups order [7, 14, 21, 28] result

def readVs32 (order : ByteOrder) : Reader Int := do
  let result ← u8 order
  let sign : Int := if band result 1 = 0 then 1 else -1
  let result ← moreGroups order [6, 13, 20, 27] (shr result 1)
  pure (result * sign)

def read (order : ByteOrder) : BlobRead → Reader BlobField
  | .u8 => do pure (.u8 (← u8 order))
  | .u16 => do pure (.u16 (← unsigned order 2))
  | .u32 => do pure (.u32 (← unsigned order 4))
  | .vu32 => do pure (.vu32 (← readVu32 order))
  | .vs32 => do pure (.vs32 (← readVs32 order))
  | .bool => do pure (.bool ((← u8 order) != 0))
  | .string => do
      let len ← readVu32 order
      pure (.string (← Decoder.take len))
  | .raw len => do pure (.raw (← Decoder.take len))

def readAll (order : ByteOrder) : List BlobRead → Reader (List BlobField)
  | [] => pure []
  | reading :: readings => do
      let field ← read order reading
      let fields ← readAll order readings
      pure (field :: fields)

end Blob

end ChatGames
