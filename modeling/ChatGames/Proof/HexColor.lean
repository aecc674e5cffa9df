import ChatGames.Util
import Mathlib.Algebra.Order.Ring.Rat
import Mathlib.Tactic.NormNum
import Mathlib.Tactic.Tauto

/-!
# Colors and their spellings

`parseHexColor` begins each component one digit too late: its positions begin at 1 and its offsets
too. So the first digit is never read, and the last component has one digit only.
-/

namespace ChatGames.Ulp

/-- A color to be spelled, one byte for each component. -/
structure ColorBytes where
  r : UInt8
  g : UInt8
  b : UInt8
  a : UInt8
deriving DecidableEq

def hexDigit (upper : Bool) (n : Nat) : UInt8 :=
  if n < 10 then UInt8.ofNat (48 + n) else UInt8.ofNat ((if upper then 55 else 87) + n)

/-- `rrggbb` or, with `alpha`, `rrggbbaa`. -/
def ColorBytes.digits (alpha : Bool) (color : ColorBytes) : List Nat :=
  ([color.r, color.g, color.b] ++ if alpha then [color.a] else []).flatMap fun byte =>
    [byte.toNat / 16, byte.toNat % 16]

/-- A spelling with or without `#` and alpha. Each digit has a letter case of its own. -/
def spell (hash alpha : Bool) (upper : Nat → Bool) (color : ColorBytes) : Bytes :=
  (if hash then [35] else []) ++
    (color.digits alpha).zipIdx.map fun digit => hexDigit (upper digit.2) digit.1

def ColorBytes.toColor (alpha : Bool) (color : ColorBytes) : Color :=
  ⟨color.r.toNat / 255, color.g.toNat / 255, color.b.toNat / 255,
    if alpha then color.a.toNat / 255 else 1⟩

def RoundTrips (hash alpha : Bool) (upper : Nat → Bool) (color : ColorBytes) : Prop :=
  parseHexColor (spell hash alpha upper color) = .ok (color.toColor alpha)

/-! ### Digits -/

section Digits

variable {m n : Nat} (upper upper' : Bool)

theorem hexDigit_spec (hn : n < 16) :
    hexValue (hexDigit upper n) = some n ∧ isSpace (hexDigit upper n) = false ∧
      hexDigit upper n ≠ 35 := by
  have hall : ∀ (upper : Bool) (n : Fin 16), hexValue (hexDigit upper n) = some n.val ∧
      isSpace (hexDigit upper n) = false ∧ hexDigit upper n ≠ 35 := by decide
  exact hall upper ⟨n, hn⟩

theorem div_lt (byte : UInt8) : byte.toNat / 16 < 16 := by
  have hbyte := byte.toNat_lt
  omega

theorem hexComponent_one (hn : n < 16) :
    hexComponent [hexDigit upper n] = .ok ((n : Rat) / 255) := by
  obtain ⟨hvalue, hspace, -⟩ := hexDigit_spec upper hn
  simp [hexComponent, tonumberHex, hvalue, hspace]

theorem hexComponent_two (hm : m < 16) (hn : n < 16) :
    hexComponent [hexDigit upper m, hexDigit upper' n] =
      .ok (((m * 16 + n : Nat) : Rat) / 255) := by
  obtain ⟨hvalue, hspace, -⟩ := hexDigit_spec upper hm
  obtain ⟨hvalue', hspace', -⟩ := hexDigit_spec upper' hn
  simp [hexComponent, tonumberHex, hvalue, hspace, hvalue', hspace']

end Digits

/-- What is parsed: every component is read from its second digit on. -/
def shifted (alpha : Bool) (color : ColorBytes) : Color :=
  ⟨((color.r.toNat % 16 * 16 + color.g.toNat / 16 : Nat) : Rat) / 255,
    ((color.g.toNat % 16 * 16 + color.b.toNat / 16 : Nat) : Rat) / 255,
    if alpha then ((color.b.toNat % 16 * 16 + color.a.toNat / 16 : Nat) : Rat) / 255
    else ((color.b.toNat % 16 : Nat) : Rat) / 255,
    if alpha then ((color.a.toNat % 16 : Nat) : Rat) / 255 else 1⟩

theorem parseHexColor_spell (hash alpha : Bool) (upper : Nat → Bool) (color : ColorBytes) :
    parseHexColor (spell hash alpha upper color) = .ok (shifted alpha color) := by
  have hmod (byte : UInt8) : byte.toNat % 16 < 16 := Nat.mod_lt _ (by decide)
  have hfirst := (hexDigit_spec (upper 0) (div_lt color.r)).2.2
  -- the positions of all four layouts evaluate; `#` is no digit
  cases hash <;> cases alpha <;>
    simp [spell, ColorBytes.digits, parseHexColor, sub, hfirst, hexComponent_two, hexComponent_one,
      div_lt, hmod, shifted, bind, Except.bind]

/-! ### What is lost -/

/-- All digits but the last one are 0. -/
def OnlyLast (alpha : Bool) (color : ColorBytes) : Prop :=
  color.r = 0 ∧ color.g = 0 ∧ if alpha then color.b = 0 ∧ color.a < 16 else color.b < 16

/-- The spellings have the same digits, but for the first one. -/
def SameButFirst (alpha : Bool) (color color' : ColorBytes) : Prop :=
  color.r.toNat % 16 = color'.r.toNat % 16 ∧ color.g = color'.g ∧ color.b = color'.b ∧
    (alpha = true → color.a = color'.a)

theorem component_inj {m n : Nat} : (m : Rat) / 255 = n / 255 ↔ m = n := by
  rw [div_left_inj' (by norm_num), Nat.cast_inj]

theorem component_ne_one {n : Nat} (hn : n < 16) : (n : Rat) / 255 ≠ 1 := by
  have hone : (1 : Rat) = (255 : Nat) / 255 := by norm_num
  rw [hone, Ne, component_inj]
  omega

/-- A component read from its second digit on is only right if it is 0, as long as the first digit
of the next one is. -/
theorem carries_iff {m n : Nat} {rest : Prop} (hrest : rest → n < 16) :
    m % 16 * 16 + n / 16 = m ∧ rest ↔ m = 0 ∧ rest := by
  refine and_congr_left fun h => ?_
  have hn := hrest h
  omega

theorem shifted_eq_toColor_iff (alpha : Bool) (color : ColorBytes) :
    shifted alpha color = color.toColor alpha ↔ OnlyLast alpha color := by
  have hzero {m : Nat} (hm : m = 0) : m < 16 := by omega
  have hlast (m : Nat) : m % 16 = m ↔ m < 16 := Nat.mod_eq_iff_lt (by decide)
  rw [shifted, ColorBytes.toColor, Color.mk.injEq, component_inj, component_inj, OnlyLast]
  -- from the last component to the first
  cases alpha with
  | false =>
      simp only [Bool.false_eq_true, if_false, component_inj, and_true, ← UInt8.toNat_inj,
        UInt8.lt_iff_toNat_lt, hlast]
      change _ ↔ color.r.toNat = 0 ∧ color.g.toNat = 0 ∧ color.b.toNat < 16
      rw [carries_iff (n := color.b.toNat) id,
        carries_iff (n := color.g.toNat) fun h => hzero h.1]
  | true =>
      simp only [if_true, component_inj, ← UInt8.toNat_inj, UInt8.lt_iff_toNat_lt, hlast]
      change _ ↔ color.r.toNat = 0 ∧ color.g.toNat = 0 ∧ color.b.toNat = 0 ∧ color.a.toNat < 16
      rw [carries_iff (n := color.a.toNat) id,
        carries_iff (n := color.b.toNat) fun h => hzero h.1,
        carries_iff (n := color.g.toNat) fun h => hzero h.1]

theorem two_digits_inj {m m' : Nat} (byte byte' : UInt8) :
    m * 16 + byte.toNat / 16 = m' * 16 + byte'.toNat / 16 ↔
      m = m' ∧ byte.toNat / 16 = byte'.toNat / 16 := by
  have hhigh := div_lt byte
  have hhigh' := div_lt byte'
  omega

theorem byte_eq_iff (byte byte' : UInt8) : byte = byte' ↔
    byte.toNat / 16 = byte'.toNat / 16 ∧ byte.toNat % 16 = byte'.toNat % 16 := by
  rw [← UInt8.toNat_inj]
  omega

theorem shifted_inj (alpha : Bool) (color color' : ColorBytes) :
    shifted alpha color = shifted alpha color' ↔ SameButFirst alpha color color' := by
  rw [shifted, shifted, Color.mk.injEq, component_inj, component_inj, SameButFirst,
    two_digits_inj, two_digits_inj, byte_eq_iff, byte_eq_iff, byte_eq_iff]
  cases alpha with
  | false =>
      simp only [Bool.false_eq_true, if_false, component_inj, and_true, false_implies]
      tauto
  | true =>
      simp only [if_true, component_inj, two_digits_inj, true_implies]
      tauto

/-- With alpha the last component is below 16/255, and without it is 1. -/
theorem shifted_ne (color color' : ColorBytes) : shifted true color ≠ shifted false color' := by
  intro h
  have ha : ((color.a.toNat % 16 : Nat) : Rat) / 255 = 1 := congrArg Color.a h
  exact component_ne_one (Nat.mod_lt _ (by decide)) ha

/-- **Colors.** A spelling is parsed to its color exactly when all its digits but the last one are
0, and two spellings are parsed to one result exactly when they have the same digits but for the
first. -/
theorem parseHexColor_iff (hash alpha : Bool) (upper : Nat → Bool) (color : ColorBytes) :
    (RoundTrips hash alpha upper color ↔ OnlyLast alpha color) ∧
      ∀ (hash' alpha' : Bool) (upper' : Nat → Bool) (color' : ColorBytes),
        parseHexColor (spell hash alpha upper color) =
            parseHexColor (spell hash' alpha' upper' color') ↔
          alpha = alpha' ∧ SameButFirst alpha color color' := by
  constructor
  · rw [RoundTrips, parseHexColor_spell, Except.ok.injEq, shifted_eq_toColor_iff]
  · intro hash' alpha' upper' color'
    rw [parseHexColor_spell, parseHexColor_spell, Except.ok.injEq]
    by_cases halpha : alpha = alpha'
    · subst halpha
      rw [shifted_inj, and_iff_right rfl]
    · refine iff_of_false ?_ fun h => halpha h.1
      cases alpha <;> cases alpha'
      · exact absurd rfl halpha
      · exact (shifted_ne color' color).symm
      · exact shifted_ne color color'
      · exact absurd rfl halpha

/-- `#2f4f4f` is read as `f4`, `f4` and `f`, and `#3f4f4f` too. -/
theorem not_parseHexColor : ¬RoundTrips true false (fun _ => false) ⟨47, 79, 79, 255⟩ ∧
    parseHexColor (spell true false (fun _ => false) ⟨47, 79, 79, 255⟩) =
      parseHexColor (spell true false (fun _ => false) ⟨63, 79, 79, 255⟩) := by
  constructor
  · rw [RoundTrips, parseHexColor_spell, Except.ok.injEq, shifted_eq_toColor_iff]
    rintro ⟨hr, -⟩
    cases hr
  · rw [parseHexColor_spell, parseHexColor_spell, Except.ok.injEq, shifted_inj]
    exact ⟨rfl, rfl, rfl, fun h => by cases h⟩

end ChatGames.Ulp
