import ChatGames.Library.FisherYates
import ChatGames.Queue
import ChatGames.Serialization
import Mathlib.Data.Rat.Defs

/-!
# The utilities of the client

`parseHexColor`, `range` and `shuffle` of `util/init.lua` (`ülp`). Strings are bytes; positions in
strings and lists begin at 1, as in the source.
-/

namespace ChatGames.Ulp

/-! ### Colors -/

/-- `str:sub(i, j)` for positive positions. -/
def sub (str : Bytes) (i j : Nat) : Bytes := (str.take j).drop (i - 1)

def isSpace (byte : UInt8) : Bool := byte = 32 ∨ (9 ≤ byte ∧ byte ≤ 13)

/-- The value of a hexadecimal digit. -/
def hexValue (byte : UInt8) : Option Nat :=
  if 48 ≤ byte ∧ byte ≤ 57 then some (byte.toNat - 48)
  else if 65 ≤ byte ∧ byte ≤ 70 then some (byte.toNat - 55)
  else if 97 ≤ byte ∧ byte ≤ 102 then some (byte.toNat - 87)
  else none

/-- `tonumber(str, 16)`, which takes an unsigned numeral that spaces may surround. -/
def tonumberHex (str : Bytes) : Option Nat :=
  match ((str.dropWhile isSpace).reverse.dropWhile isSpace).reverse.mapM hexValue with
  | none | some [] => none
  | some digits => some (digits.foldl (fun n digit => n * 16 + digit) 0)

/-- `tonumber(str, 16) / 255.0` -/
def hexComponent (str : Bytes) : Except LuaError Rat :=
  match tonumberHex str with
  | some n => .ok (n / 255)
  | none => .error "attempt to perform arithmetic on a nil value"

structure Color where
  r : Rat
  g : Rat
  b : Rat
  a : Rat
deriving DecidableEq

def parseHexColor (str : Bytes) : Except LuaError Color :=
  if 6 ≤ str.length ∧ str.length ≤ 9 then do
    let i := if sub str 1 1 = [35] then 2 else 1
    let a ← if 8 ≤ str.length then hexComponent (sub str (i + 7) (i + 8)) else .ok 1
    let r ← hexComponent (sub str (i + 1) (i + 2))
    let g ← hexComponent (sub str (i + 3) (i + 4))
    let b ← hexComponent (sub str (i + 5) (i + 6))
    .ok ⟨r, g, b, a⟩
  else
    .error "assertion failed!"

/-! ### Lists -/

variable {α : Type}

/-- `list[i], list[j] = list[j], list[i]` -/
def swap (list : List α) (i j : Nat) : List α := FisherYates.exchange list (i - 1) (j - 1)

/-- `random` is what `love.math.random(i, #list)` gives in each round. -/
def shuffle (random : List Nat) (list : List α) : List α :=
  ((List.range' 1 (list.length - 1)).zip random).foldl
    (fun list round => swap list round.1 round.2) list

/-- `range(start, stop)` -/
def range (start stop : Nat) : List Nat := List.range' start (stop + 1 - start)

end ChatGames.Ulp
