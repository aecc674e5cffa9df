import ChatGames.Library.Decoder
import ChatGames.LuaValue
import Mathlib.Data.Int.Log

/-!
# msgpack

`pack` and `unpack` of `libs/msgpack.lua` with the options that `net.lua` sets: strings as `string`,
numbers that are not integers as `float`, integers as `unsigned`, arrays `without_hole`.
-/

namespace ChatGames.MsgPack

open Lua

/-! ### Packing -/

/-- `packers['unsigned']` -/
def packUnsigned (n : ℤ) : Bytes :=
  if 0 ≤ n then
    if n ≤ 0x7F then toBigEndian 1 n.toNat
    else if n ≤ 0xFF then 0xCC :: toBigEndian 1 n.toNat
    else if n ≤ 0xFFFF then 0xCD :: toBigEndian 2 n.toNat
    else if n ≤ 4294967295 then 0xCE :: toBigEndian 4 n.toNat
    else 0xCF :: 0 :: toBigEndian 7 n.toNat
  else
    if n ≥ -0x20 then toBigEndian 1 (0x100 + n).toNat
    else if n ≥ -0x80 then 0xD0 :: toBigEndian 1 (0x100 + n).toNat
    else if n ≥ -0x8000 then 0xD1 :: toBigEndian 2 (0x10000 + n).toNat
    else if n ≥ -0x80000000 then 0xD2 :: toBigEndian 4 (4294967296 + n).toNat
    else 0xD3 :: 0xFF :: toBigEndian 7 (n % 2 ^ 56).toNat

/-- `math.frexp` of a number that is not negative. -/
def frexp (q : ℚ) : ℚ × ℤ :=
  if q = 0 then (0, 0) else (q / 2 ^ (Int.log 2 q + 1), Int.log 2 q + 1)

/-- `packers['float']` -/
def packFloat : Number → Bytes
  | .nan => [0xCA, 0xFF, 0x88, 0x00, 0x00]
  | .inf false => [0xCA, 0x7F, 0x80, 0x00, 0x00]
  | .inf true => [0xCA, 0xFF, 0x80, 0x00, 0x00]
  | .finite q =>
      let sign := if q < 0 then 0x80 else 0
      let (mant, expo) := frexp |q|
      if expo > 0x80 then
        [0xCA, if q < 0 then 0xFF else 0x7F, 0x80, 0x00, 0x00]
      else if mant = 0 ∧ expo = 0 ∨ expo < -0x7E then
        [0xCA, UInt8.ofNat sign, 0x00, 0x00, 0x00]
      else
        let expo := (expo + 0x7E).toNat
        let mant := ⌊(mant * 2 - 1) * 2 ^ 23⌋₊
        [0xCA, UInt8.ofNat (sign + expo / 2), UInt8.ofNat (expo % 2 * 0x80 + mant / 0x10000),
          UInt8.ofNat (mant / 0x100), UInt8.ofNat mant]

def maxinteger : ℚ := 9007199254740991

def packNumber : Number → Bytes
  | .finite q =>
      if ⌊q⌋ = q ∧ q < maxinteger ∧ -maxinteger < q then packUnsigned ⌊q⌋ else packFloat (.finite q)
  | n => packFloat n

/-- `packers['_string']` -/
def packString (str : Bytes) : Except LuaError Bytes :=
  let n := str.length
  if n ≤ 0x1F then .ok (toBigEndian 1 (0xA0 + n) ++ str)
  else if n ≤ 0xFF then .ok (0xD9 :: toBigEndian 1 n ++ str)
  else if n ≤ 0xFFFF then .ok (0xDA :: toBigEndian 2 n ++ str)
  else if n ≤ 4294967295 then .ok (0xDB :: toBigEndian 4 n ++ str)
  else .error "overflow in pack 'string'"

/-- What `packers['map']` and `packers['array']` begin with. -/
def packHeader (fix tag16 : Nat) (text : LuaError) (n : Nat) : Except LuaError Bytes :=
  if n ≤ 0x0F then .ok (toBigEndian 1 (fix + n))
  else if n ≤ 0xFFFF then .ok (toBigEndian 1 tag16 ++ toBigEndian 2 n)
  else if n ≤ 4294967295 then .ok (toBigEndian 1 (tag16 + 1) ++ toBigEndian 4 n)
  else .error text

def mapHeader (n : Nat) : Except LuaError Bytes :=
  packHeader 0x80 0xDE "overflow in pack 'map'" n

def arrayHeader (n : Nat) : Except LuaError Bytes :=
  packHeader 0x90 0xDC "overflow in pack 'array'" n

/-- A key that is a number above 0. -/
def positive : Value → Option ℚ
  | .number (.finite q) => if 0 < q then some q else none
  | _ => none

def larger (max : ℚ) (key : Option ℚ) : ℚ := key.elim max fun k => if k > max then k else max

/-- The table goes out as an array: all keys are positive numbers, and the largest is their
number. An infinite key is larger. -/
def isArray (entries : Entries) : Bool :=
  let keys := entries.map fun entry => positive entry.1
  keys.all Option.isSome && keys.foldl larger 0 = entries.length

/-- Entries with what their keys and their values are packed as. -/
abbrev PackedEntries := List (Value × Except LuaError Bytes × Except LuaError Bytes)

/-- What `t[key]` is packed as. -/
def PackedEntries.get (packed : PackedEntries) (key : Value) : Except LuaError Bytes :=
  match packed.find? fun entry => entry.1.sameKey key with
  | some entry => entry.2.2
  | none => .ok [0xC0]

mutual

def pack : Value → Except LuaError Bytes
  | .nil => .ok [0xC0]
  | .boolean b => .ok [if b then 0xC3 else 0xC2]
  | .number n => .ok (packNumber n)
  | .string str => packString str
  | .table entries => do
      let packed := packEntries entries
      if isArray entries then
        let header ← arrayHeader entries.length
        let codes ← (List.range' 1 entries.length).mapM fun i => packed.get (.ofNat i)
        .ok (header ++ codes.flatten)
      else
        let header ← mapHeader entries.length
        let codes ← packed.mapM fun entry => do
          let key ← entry.2.1
          let val ← entry.2.2
          .ok (key ++ val)
        .ok (header ++ codes.flatten)

def packEntries : Entries → PackedEntries
  | [] => []
  | (key, val) :: entries => (key, pack key, pack val) :: packEntries entries

end

/-! ### Unpacking -/

def missingBytes : LuaError := "missing bytes"

/-- What takes a value off the bytes that a cursor has left. -/
abbrev Unpacker := Decoder UInt8 LuaError missingBytes

def unpackStr (n : Nat) : Unpacker Value := do
  let str ← Decoder.take n
  pure (.string str)

/-- `unpack_uint8` and its siblings. -/
def unpackUint (width : Nat) : Unpacker Nat := do
  let bytes ← Decoder.take width
  pure (ofBigEndian bytes)

def signed (bytes : Bytes) : ℤ :=
  if bytes.head?.any fun b1 => b1 < 0x80 then
    ofBigEndian bytes
  else
    bytes.foldl (fun n b => n * 0x100 + ((b.toNat : ℤ) - 0xFF)) 0 - 1

/-- `unpack_int8` and its siblings. -/
def unpackInt (width : Nat) : Unpacker ℤ := do
  let bytes ← Decoder.take width
  pure (signed bytes)

/-- What the fields of a binary floating-point number stand for: `bias` is that of the exponent. -/
def float (sign : Bool) (expo mant : Nat) (mantBits bias : Nat) : Number :=
  if mant = 0 ∧ expo = 0 then
    .finite 0
  else if expo = 2 * bias + 1 then
    if mant = 0 then .inf sign else .nan
  else
    .finite ((if sign then -1 else 1) * ((1 + mant / 2 ^ mantBits) * 2 ^ ((expo : ℤ) - bias)))

def unpackFloat : Unpacker Number := do
  let b1 ← Decoder.next
  let b2 ← Decoder.next
  let b3 ← Decoder.next
  let b4 ← Decoder.next
  let expo := b1.toNat % 0x80 * 0x2 + b2.toNat / 0x80
  let mant := (b2.toNat % 0x80 * 0x100 + b3.toNat) * 0x100 + b4.toNat
  pure (float (b1 > 0x7F) expo mant 23 0x7F)

def unpackDouble : Unpacker Number := do
  let b1 ← Decoder.next
  let b2 ← Decoder.next
  let bytes ← Decoder.take 6
  let expo := b1.toNat % 0x80 * 0x10 + b2.toNat / 0x10
  let mant := b2.toNat % 0x10 * 0x100 ^ 6 + ofBigEndian bytes
  pure (float (b1 > 0x7F) expo mant 52 0x3FF)

/-- `m.build_ext` returns nil. -/
def unpackExt (n : Nat) (_tag : ℤ) : Unpacker Value := do
  let _ ← Decoder.take n
  pure .nil

def unpackArray (unpackCursor : Unpacker Value) (n : Nat) : Unpacker Value := do
  let vals ← unpackCursor.many n
  pure (.table (Entries.ofPairs (Entries.array vals)))

/-- A key that is nil or nan would become `m.sentinel`, which is nil. -/
def keyed (key : Value) : Bool := !key.isNil && key.sameKey key || key.isTable

def unpackPair (unpackCursor : Unpacker Value) : Unpacker (Value × Value) := do
  let key ← unpackCursor
  let val ← unpackCursor
  pure (key, val)

def unpackMap (unpackCursor : Unpacker Value) (n : Nat) : Unpacker Value := do
  let pairs ← (unpackPair unpackCursor).many n
  pure (.table (Entries.ofPairs (pairs.filter fun pair => keyed pair.1)))

def unpackers (unpackCursor : Unpacker Value) (val : UInt8) : Unpacker Value :=
  let k := val.toNat
  if k < 0x80 then pure (.ofNat k)
  else if k < 0x90 then unpackMap unpackCursor (k % 0x10)
  else if k < 0xA0 then unpackArray unpackCursor (k % 0x10)
  else if k < 0xC0 then unpackStr (k % 0x20)
  else if k > 0xDF then pure (.ofInt (k - 0x100))
  else match k with
    | 0xC0 => pure .nil
    | 0xC2 => pure (.boolean false)
    | 0xC3 => pure (.boolean true)
    | 0xC4 => do unpackStr (← unpackUint 1)
    | 0xC5 => do unpackStr (← unpackUint 2)
    | 0xC6 => do unpackStr (← unpackUint 4)
    | 0xC7 => do unpackExt (← unpackUint 1) (← unpackInt 1)
    | 0xC8 => do unpackExt (← unpackUint 2) (← unpackInt 1)
    | 0xC9 => do unpackExt (← unpackUint 4) (← unpackInt 1)
    | 0xCA => do pure (.number (← unpackFloat))
    | 0xCB => do pure (.number (← unpackDouble))
    | 0xCC => do pure (.ofNat (← unpackUint 1))
    | 0xCD => do pure (.ofNat (← unpackUint 2))
    | 0xCE => do pure (.ofNat (← unpackUint 4))
    | 0xCF => do pure (.ofNat (← unpackUint 8))
    | 0xD0 => do pure (.ofInt (← unpackInt 1))
    | 0xD1 => do pure (.ofInt (← unpackInt 2))
    | 0xD2 => do pure (.ofInt (← unpackInt 4))
    | 0xD3 => do pure (.ofInt (← unpackInt 8))
    | 0xD4 => do unpackExt 1 (← unpackInt 1)
    | 0xD5 => do unpackExt 2 (← unpackInt 1)
    | 0xD6 => do unpackExt 4 (← unpackInt 1)
    | 0xD7 => do unpackExt 8 (← unpackInt 1)
    | 0xD8 => do unpackExt 16 (← unpackInt 1)
    | 0xD9 => do unpackStr (← unpackUint 1)
    | 0xDA => do unpackStr (← unpackUint 2)
    | 0xDB => do unpackStr (← unpackUint 4)
    | 0xDC => do unpackArray unpackCursor (← unpackUint 2)
    | 0xDD => do unpackArray unpackCursor (← unpackUint 4)
    | 0xDE => do unpackMap unpackCursor (← unpackUint 2)
    | 0xDF => do unpackMap unpackCursor (← unpackUint 4)
    | _ => Decoder.fail "unpack '0xc1' is unimplemented"

/-- `unpack_cursor`, for at most `fuel` values inside one another. -/
def unpackCursor : Nat → Unpacker Value
  | 0 => Decoder.fail missingBytes
  | fuel + 1 => do
      let val ← Decoder.next
      unpackers (unpackCursor fuel) val

/-- Every value takes a byte, so that there are no more values inside one another than bytes. -/
def unpack (s : Bytes) : Except LuaError Value :=
  (unpackCursor s.length).runAll "extra bytes" s

end ChatGames.MsgPack
