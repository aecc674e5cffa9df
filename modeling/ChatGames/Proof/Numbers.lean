import ChatGames.Library.Significand
import ChatGames.MsgPack

/-!
# Numbers in messages

An integer below `maxinteger` arrives as it was sent. Any other number is cut off after 24 binary
digits, so that what arrives would arrive unchanged.
-/

namespace ChatGames.MsgPack

open Lua

/-! ### Integers of a fixed width -/

theorem toBigEndian_succ (width n : Nat) :
    toBigEndian (width + 1) n = UInt8.ofNat (n / 256 ^ width) :: toBigEndian width n := by
  induction width generalizing n with
  | zero => simp [toBigEndian]
  | succ width ih =>
      rw [toBigEndian, ih, Nat.div_div_eq_div_mul, ← Nat.pow_succ', toBigEndian]
      rfl

theorem toBigEndian_mod (width n : Nat) :
    toBigEndian width (n % 256 ^ width) = toBigEndian width n := by
  have hbytes := toBigEndian_ofBigEndian (toBigEndian width n)
  rwa [toBigEndian_length, ofBigEndian_toBigEndian] at hbytes

theorem toBigEndian_one (n : Nat) : toBigEndian 1 n = [UInt8.ofNat n] := rfl

/-- The byte of a number below 256, and the number again. -/
theorem toNat_ofNat {n : Nat} (hn : n < 256) : (UInt8.ofNat n).toNat = n := by
  rw [UInt8.toNat_ofNat', Nat.mod_eq_of_lt hn]

theorem foldl_signed (bytes : Bytes) (n : ℤ) :
    bytes.foldl (fun n b => n * 0x100 + ((b.toNat : ℤ) - 0xFF)) n =
      (n - 1) * 256 ^ bytes.length + ofBigEndian bytes + 1 := by
  induction bytes using List.reverseRecOn with
  | nil => simp
  | append_singleton bytes byte ih =>
      rw [List.foldl_append, List.foldl_cons, List.foldl_nil, ih, ofBigEndian_concat,
        List.length_append, List.length_singleton, pow_succ]
      push_cast
      ring

theorem signed_of_neg {bytes : Bytes} (h : (bytes.head?.any fun b1 => b1 < 0x80) = false) :
    signed bytes = ofBigEndian bytes - 256 ^ bytes.length := by
  rw [signed, h, if_neg Bool.false_ne_true, foldl_signed]
  ring

/-- Two's complement: a number from the middle of the range on is one below zero. -/
theorem signed_toBigEndian {width n : Nat} (hlow : 128 * 256 ^ width ≤ n)
    (hn : n < 256 ^ (width + 1)) :
    signed (toBigEndian (width + 1) n) = (n : ℤ) - 256 ^ (width + 1) := by
  have hhead : ((toBigEndian (width + 1) n).head?.any fun b1 => b1 < 0x80) = false := by
    have hdiv : n / 256 ^ width < 256 := Nat.div_lt_of_lt_mul (by rwa [← pow_succ])
    have hle : 128 ≤ n / 256 ^ width := (Nat.le_div_iff_mul_le (Nat.pow_pos (by decide))).mpr hlow
    rw [toBigEndian_succ, List.head?_cons, Option.any_some, decide_eq_false_iff_not,
      UInt8.lt_iff_toNat_lt, toNat_ofNat hdiv]
    exact not_lt.mpr hle
  rw [signed_of_neg hhead, ofBigEndian_toBigEndian_of_lt hn, toBigEndian_length]

/-! ### The unpackers of one byte string -/

variable {u : Unpacker Value} {fuel : Nat} {code rest : Bytes} {v : Value}

/-- What stands behind the first byte is read as that byte says. -/
theorem reads_cursor {b : UInt8} (h : (unpackers (unpackCursor fuel) b).Reads code v) :
    (unpackCursor (fuel + 1)).Reads (b :: code) v :=
  Decoder.Reads.bind (Decoder.reads_next b) h

theorem reads_pure (v : Value) : (pure v : Unpacker Value).Reads [] v := fun _ => rfl

theorem reads_bytes (bytes : Bytes) :
    (Decoder.take bytes.length : Unpacker Bytes).Reads bytes bytes := Decoder.reads_take bytes

theorem reads_uint {width n : Nat} (hn : n < 256 ^ width) :
    (unpackUint width).Reads (toBigEndian width n) n := by
  have htake := reads_bytes (toBigEndian width n)
  rw [toBigEndian_length] at htake
  exact htake.map (ofBigEndian_toBigEndian_of_lt hn)

theorem reads_int {width n : Nat} (hlow : 128 * 256 ^ width ≤ n) (hn : n < 256 ^ (width + 1)) :
    (unpackInt (width + 1)).Reads (toBigEndian (width + 1) n) ((n : ℤ) - 256 ^ (width + 1)) := by
  have htake := reads_bytes (toBigEndian (width + 1) n)
  rw [toBigEndian_length] at htake
  exact htake.map (signed_toBigEndian hlow hn)

theorem unpackers_fixpos {n : Nat} (hn : n < 0x80) :
    unpackers u (UInt8.ofNat n) = pure (.ofNat n) := by
  simp only [unpackers, toNat_ofNat (by omega : n < 256)]
  rw [if_pos hn]

theorem unpackers_fixneg {n : Nat} (hn : 0xDF < n) (hlt : n < 0x100) :
    unpackers u (UInt8.ofNat n) = pure (.ofInt (n - 0x100)) := by
  simp only [unpackers, toNat_ofNat hlt]
  rw [if_neg (by omega), if_neg (by omega), if_neg (by omega), if_neg (by omega), if_pos hn]

/-- A first byte that announces a natural number of `width` bytes. -/
theorem reads_tagged_uint {b : UInt8} {width n : Nat}
    (hb : unpackers (unpackCursor fuel) b = do pure (.ofNat (← unpackUint width)))
    (hn : n < 256 ^ width) :
    (unpackCursor (fuel + 1)).Reads (b :: toBigEndian width n) (.ofNat n) :=
  reads_cursor (hb ▸ (reads_uint hn).map rfl)

theorem reads_tagged_int {b : UInt8} {width n : Nat}
    (hb : unpackers (unpackCursor fuel) b = do pure (.ofInt (← unpackInt (width + 1))))
    (hlow : 128 * 256 ^ width ≤ n) (hn : n < 256 ^ (width + 1)) :
    (unpackCursor (fuel + 1)).Reads (b :: toBigEndian (width + 1) n)
      (.ofInt ((n : ℤ) - 256 ^ (width + 1))) :=
  reads_cursor (hb ▸ (reads_int hlow hn).map rfl)

/-- What `packers['unsigned']` writes is read as the same integer, in each of its ten forms. -/
theorem reads_packUnsigned {n : ℤ} (hlow : -2 ^ 53 < n) (hhigh : n < 2 ^ 53) :
    (unpackCursor (fuel + 1)).Reads (packUnsigned n) (.ofInt n) := by
  unfold packUnsigned
  split
  · rename_i hpos
    lift n to Nat using hpos
    rw [Int.toNat_natCast]
    split
    · rw [toBigEndian_one]
      refine reads_cursor ?_
      rw [unpackers_fixpos (by omega)]
      exact reads_pure _
    split
    · exact reads_tagged_uint rfl (by omega)
    split
    · exact reads_tagged_uint rfl (by omega)
    split
    · exact reads_tagged_uint rfl (by omega)
    · -- the first of the eight bytes is always zero
      have height : (0 : UInt8) :: toBigEndian 7 n = toBigEndian 8 n := by
        rw [toBigEndian_succ 7 n, Nat.div_eq_of_lt (by omega)]
        rfl
      rw [height]
      exact reads_tagged_uint rfl (by omega)
  · rename_i hneg
    split
    · obtain ⟨m, hm⟩ : ∃ m : Nat, (m : ℤ) = 0x100 + n := ⟨_, Int.toNat_of_nonneg (by omega)⟩
      have hn : n = (m : ℤ) - 0x100 := by omega
      rw [← hm, Int.toNat_natCast, toBigEndian_one, hn]
      refine reads_cursor ?_
      rw [unpackers_fixneg (by omega) (by omega)]
      exact reads_pure _
    split
    · obtain ⟨m, hm⟩ : ∃ m : Nat, (m : ℤ) = 0x100 + n := ⟨_, Int.toNat_of_nonneg (by omega)⟩
      have hn : n = (m : ℤ) - 256 ^ (0 + 1) := by omega
      rw [← hm, Int.toNat_natCast, hn]
      exact reads_tagged_int rfl (by omega) (by omega)
    split
    · obtain ⟨m, hm⟩ : ∃ m : Nat, (m : ℤ) = 0x10000 + n := ⟨_, Int.toNat_of_nonneg (by omega)⟩
      have hn : n = (m : ℤ) - 256 ^ (1 + 1) := by omega
      rw [← hm, Int.toNat_natCast, hn]
      exact reads_tagged_int rfl (by omega) (by omega)
    split
    · obtain ⟨m, hm⟩ : ∃ m : Nat, (m : ℤ) = 4294967296 + n := ⟨_, Int.toNat_of_nonneg (by omega)⟩
      have hn : n = (m : ℤ) - 256 ^ (3 + 1) := by omega
      rw [← hm, Int.toNat_natCast, hn]
      exact reads_tagged_int rfl (by omega) (by omega)
    · -- the first of the eight bytes is always 0xFF
      obtain ⟨m, hm⟩ : ∃ m : Nat, (m : ℤ) = 2 ^ 64 + n := ⟨_, Int.toNat_of_nonneg (by omega)⟩
      have hn : n = (m : ℤ) - 256 ^ (7 + 1) := by omega
      have height : (0xFF : UInt8) :: toBigEndian 7 (n % 2 ^ 56).toNat = toBigEndian 8 m := by
        have hmod : (n % 2 ^ 56).toNat = m % 256 ^ 7 := by omega
        have htop : m / 256 ^ 7 = 0xFF := by omega
        rw [toBigEndian_succ 7 m, htop, hmod, toBigEndian_mod]
        rfl
      rw [height, hn]
      exact reads_tagged_int rfl (by omega) (by omega)

/-! ### Binary floating point -/

theorem reads_float (sign : Bool) {expo mant : Nat} (hexpo : expo < 256) (hmant : mant < 2 ^ 23) :
    unpackFloat.Reads
      [UInt8.ofNat ((if sign then 0x80 else 0) + expo / 2),
        UInt8.ofNat (expo % 2 * 0x80 + mant / 0x10000), UInt8.ofNat (mant / 0x100),
        UInt8.ofNat mant]
      (float sign expo mant 23 0x7F) := by
  intro rest
  have hb1 : (UInt8.ofNat ((if sign then 0x80 else 0) + expo / 2)).toNat =
      (if sign then 0x80 else 0) + expo / 2 := toNat_ofNat (by split <;> omega)
  have hb2 := toNat_ofNat (by omega : expo % 2 * 0x80 + mant / 0x10000 < 256)
  have hsign : decide (UInt8.ofNat ((if sign then 0x80 else 0) + expo / 2) > 0x7F) = sign := by
    rw [Bool.eq_iff_iff, decide_eq_true_iff, gt_iff_lt, UInt8.lt_iff_toNat_lt, hb1]
    change 0x7F < _ ↔ _
    cases sign <;> grind
  change Except.ok (float _ _ _ 23 0x7F, rest) = _
  rw [hsign, hb1, hb2, UInt8.toNat_ofNat', UInt8.toNat_ofNat']
  congr 3
  · split <;> omega
  · omega

theorem float_zero (sign : Bool) : float sign 0 0 23 0x7F = .finite 0 := rfl

theorem float_inf (sign : Bool) : float sign 0xFF 0 23 0x7F = .inf sign := by
  rw [float, if_neg (by decide), if_pos (by decide), if_pos rfl]

theorem float_nan : float true 0xFF 0x80000 23 0x7F = .nan := by
  rw [float, if_neg (by decide), if_pos (by decide), if_neg (by decide)]

theorem reads_tagged_float {n : Number} (h : unpackFloat.Reads code n) :
    (unpackCursor (fuel + 1)).Reads (0xCA :: code) (.number n) :=
  reads_cursor (h.map rfl)

theorem reads_zero (sign : Bool) :
    (unpackCursor (fuel + 1)).Reads
      [0xCA, UInt8.ofNat (if sign then 0x80 else 0), 0x00, 0x00, 0x00] (.number (.finite 0)) := by
  have hread := reads_float sign (by decide : 0 < 256) (by decide : 0 < 2 ^ 23)
  rw [float_zero] at hread
  exact reads_tagged_float hread

theorem reads_inf (sign : Bool) :
    (unpackCursor (fuel + 1)).Reads
      [0xCA, if sign then 0xFF else 0x7F, 0x80, 0x00, 0x00] (.number (.inf sign)) := by
  have hread := reads_float sign (by decide : 0xFF < 256) (by decide : 0 < 2 ^ 23)
  rw [float_inf] at hread
  cases sign <;> exact reads_tagged_float hread

theorem reads_nan :
    (unpackCursor (fuel + 1)).Reads [0xCA, 0xFF, 0x88, 0x00, 0x00] (.number .nan) := by
  have hread := reads_float true (by decide : 0xFF < 256) (by decide : 0x80000 < 2 ^ 23)
  rw [float_nan] at hread
  exact reads_tagged_float hread

/-- What `|q|` has to reach not to be taken for zero. -/
def minfloat : ℚ := (2 ^ 23 + 1) * 2 ^ (-150 : ℤ)

/-- What becomes of a number that is packed as a `float`. -/
def single (q : ℚ) : Number :=
  if 2 ^ 128 ≤ |q| then .inf (q < 0)
  else if |q| < minfloat then .finite 0
  else .finite (Significand.truncate 23 q)

variable {q : ℚ}

theorem frexp_eq (hq : q ≠ 0) :
    frexp |q| = (|q| / 2 ^ (Int.log 2 |q| + 1), Int.log 2 |q| + 1) := by
  rw [frexp, if_neg (abs_ne_zero.mpr hq)]

/-- The digits behind the first one, which is not written. -/
theorem floor_mant (q : ℚ) :
    ⌊(|q| / 2 ^ (Int.log 2 |q| + 1) * 2 - 1) * 2 ^ 23⌋₊ = Significand.digits 23 q - 2 ^ 23 := by
  have hquantum := Significand.pow_mul_quantum 23 q
  have hpos := Significand.quantum_pos 23 q
  have hsplit : (|q| / 2 ^ (Int.log 2 |q| + 1) * 2 - 1) * 2 ^ 23 =
      |q| / Significand.quantum 23 q - ((2 ^ 23 : ℕ) : ℚ) := by
    rw [zpow_add_one₀ two_ne_zero, ← hquantum]
    push_cast
    field_simp
    ring
  rw [hsplit, Nat.floor_sub_natCast]
  rfl

theorem log_lt_iff (hq : q ≠ 0) (e : ℤ) : Int.log 2 |q| < e ↔ |q| < 2 ^ e := by
  rw [← Int.lt_zpow_iff_log_lt (by decide) (abs_pos.mpr hq), Nat.cast_ofNat]

/-- Among the numbers that are at least `2 ^ -127` only those with no other digit in the first 24
are taken for zero. -/
theorem lt_minfloat_iff (hq : q ≠ 0) (hlog : -127 ≤ Int.log 2 |q|) :
    |q| < minfloat ↔ Significand.digits 23 q - 2 ^ 23 = 0 ∧ Int.log 2 |q| = -127 := by
  have hdigits : 2 ^ 23 ≤ Significand.digits 23 q := Significand.pow_le_digits hq
  have hsmall : minfloat < 2 ^ (-126 : ℤ) := by norm_num [minfloat]
  have hiff : Int.log 2 |q| = -127 → (|q| < minfloat ↔ Significand.digits 23 q < 2 ^ 23 + 1) := by
    intro heq
    have hquantum : Significand.quantum 23 q = 2 ^ (-150 : ℤ) := by
      rw [Significand.quantum, heq]
      norm_num
    rw [Significand.digits, hquantum, Nat.floor_lt (by positivity), div_lt_iff₀ (by positivity),
      minfloat]
    norm_num
  constructor
  · intro h
    have hlt : Int.log 2 |q| < -126 := (log_lt_iff hq (-126)).mpr (h.trans hsmall)
    have heq : Int.log 2 |q| = -127 := by omega
    have hdigits' := (hiff heq).mp h
    exact ⟨by omega, heq⟩
  · rintro ⟨hzero, heq⟩
    exact (hiff heq).mpr (by omega)

theorem float_finite (hq : q ≠ 0) (hlow : -127 ≤ Int.log 2 |q|) (hhigh : Int.log 2 |q| < 128) :
    float (q < 0) (Int.log 2 |q| + 127).toNat (Significand.digits 23 q - 2 ^ 23) 23 0x7F =
      if |q| < minfloat then .finite 0 else .finite (Significand.truncate 23 q) := by
  have hexpo : ((Int.log 2 |q| + 127).toNat : ℤ) = Int.log 2 |q| + 127 :=
    Int.toNat_of_nonneg (by omega)
  have hdigits : 2 ^ 23 ≤ Significand.digits 23 q := Significand.pow_le_digits hq
  have hzero : (Significand.digits 23 q - 2 ^ 23 = 0 ∧ (Int.log 2 |q| + 127).toNat = 0) ↔
      |q| < minfloat := by
    rw [lt_minfloat_iff hq hlow]
    constructor
    · rintro ⟨h, h'⟩
      exact ⟨h, by omega⟩
    · rintro ⟨h, h'⟩
      exact ⟨h, by omega⟩
  rw [float, if_congr hzero rfl rfl]
  split
  · rfl
  · rw [if_neg (by omega), hexpo]
    congr 1
    have hpow : (2 : ℚ) ^ Int.log 2 |q| ≠ 0 := by positivity
    have hquantum : Significand.quantum 23 q = 2 ^ Int.log 2 |q| / 2 ^ 23 := by
      rw [← Significand.pow_mul_quantum 23 q]
      field_simp
    rw [Significand.truncate, hquantum, Nat.cast_sub hdigits]
    have hshift : Int.log 2 |q| + 127 - (0x7F : ℕ) = Int.log 2 |q| := by omega
    rw [hshift]
    push_cast
    simp only [decide_eq_true_eq]
    field_simp
    ring

/-- What `packers['float']` writes for a number other than zero. -/
theorem reads_packFloat (hq : q ≠ 0) :
    (unpackCursor (fuel + 1)).Reads (packFloat (.finite q)) (.number (single q)) := by
  have hmant : |q| / 2 ^ (Int.log 2 |q| + 1) ≠ 0 :=
    div_ne_zero (abs_ne_zero.mpr hq) (by positivity)
  have hexpo : Int.log 2 |q| + 1 > 0x80 ↔ 2 ^ 128 ≤ |q| := by
    rw [← not_lt (a := |q|), ← zpow_ofNat, ← log_lt_iff hq]
    omega
  simp only [packFloat, frexp_eq hq, hmant, false_and, false_or, if_congr hexpo rfl rfl]
  have hsign : (if q < 0 then 0x80 else 0) = (if decide (q < 0) then 0x80 else 0 : Nat) := by
    simp only [decide_eq_true_eq]
  rw [single]
  split
  · have hread : (unpackCursor (fuel + 1)).Reads _ _ := reads_inf (q < 0)
    simpa only [decide_eq_true_eq] using hread
  · rename_i hlarge
    have hhigh : Int.log 2 |q| < 128 := by
      rw [log_lt_iff hq, zpow_ofNat]
      exact not_le.mp hlarge
    split
    · rename_i hsmall
      have hzero : |q| < minfloat := by
        have hlog : |q| < 2 ^ (-127 : ℤ) := (log_lt_iff hq (-127)).mp (by omega)
        exact hlog.trans (by norm_num [minfloat])
      rw [if_pos hzero, hsign]
      exact reads_zero _
    · rename_i hsmall
      have hlow : -127 ≤ Int.log 2 |q| := by omega
      rw [floor_mant, hsign, ← float_finite hq hlow hhigh]
      have hdigits : Significand.digits 23 q < 2 ^ (23 + 1) := Significand.digits_lt
      have hbiased : Int.log 2 |q| + 1 + 0x7E = Int.log 2 |q| + 127 := by ring
      rw [hbiased]
      exact reads_tagged_float (reads_float _ (by omega) (by omega))

/-! ### What arrives -/

/-- The numbers that go out as integers. -/
def IsInteger (q : ℚ) : Prop := ⌊q⌋ = q ∧ q < maxinteger ∧ -maxinteger < q

instance (q : ℚ) : Decidable (IsInteger q) := inferInstanceAs (Decidable (_ ∧ _))

/-- What is unpacked where the number was packed. -/
def received : Number → Number
  | .finite q => if IsInteger q then .finite q else single q
  | n => n

theorem received_intCast {n : ℤ} (hlow : -2 ^ 53 + 1 < n) (hhigh : n < 2 ^ 53 - 1) :
    received (.finite n) = .finite n := by
  have hinteger : IsInteger (n : ℚ) := by
    refine ⟨by rw [Int.floor_intCast], ?_, ?_⟩
    · rw [maxinteger]
      exact_mod_cast hhigh
    · rw [maxinteger]
      exact_mod_cast hlow
  rw [received, if_pos hinteger]

theorem reads_packNumber (n : Number) :
    (unpackCursor (fuel + 1)).Reads (packNumber n) (.number (received n)) := by
  cases n with
  | finite q =>
      change (unpackCursor (fuel + 1)).Reads
        (if IsInteger q then packUnsigned ⌊q⌋ else packFloat (.finite q)) _
      rw [received]
      by_cases hq : IsInteger q
      · rw [if_pos hq, if_pos hq]
        obtain ⟨hfloor, hhigh, hlow⟩ := hq
        rw [maxinteger, ← hfloor] at hlow hhigh
        norm_cast at hlow hhigh
        have hread : (unpackCursor (fuel + 1)).Reads (packUnsigned ⌊q⌋) (.ofInt ⌊q⌋) :=
          reads_packUnsigned (by omega) (by omega)
        rwa [Value.ofInt, hfloor] at hread
      · have hne : q ≠ 0 := by
          rintro rfl
          exact hq (by decide +kernel)
        rw [if_neg hq, if_neg hq]
        exact reads_packFloat hne
  | inf negative =>
      cases negative with
      | false => exact reads_inf false
      | true => exact reads_inf true
  | nan => exact reads_nan

end ChatGames.MsgPack
