import Mathlib.Algebra.Order.Field.Power
import Mathlib.Algebra.Order.Floor.Semiring
import Mathlib.Data.Int.Log
import Mathlib.Data.Rat.Floor
import Mathlib.Tactic.Linarith
import Mathlib.Tactic.Positivity
import Mathlib.Tactic.Ring

/-!
# Leading binary digits

What is left of a number when its first binary digit and the `bits` digits after it are kept and the
others are dropped: the number itself if it has no others, and in any case a number nearer to zero
by less than one part in `2 ^ bits`.
-/

namespace Significand

variable (bits : ℕ) (q : ℚ)

/-- What the last digit that is kept counts for. -/
def quantum : ℚ := 2 ^ (Int.log 2 |q| - bits)

/-- The digits that are kept, as one number. -/
def digits : ℕ := ⌊|q| / quantum bits q⌋₊

def truncate : ℚ := (if q < 0 then -1 else 1) * (digits bits q * quantum bits q)

theorem quantum_pos : 0 < quantum bits q := by
  rw [quantum]
  positivity

theorem pow_mul_quantum : 2 ^ bits * quantum bits q = 2 ^ Int.log 2 |q| := by
  rw [quantum, ← zpow_natCast, ← zpow_add₀ two_ne_zero]
  congr 1
  omega

variable {bits q}

theorem pow_le_digits (hq : q ≠ 0) : 2 ^ bits ≤ digits bits q := by
  refine Nat.le_floor ?_
  rw [Nat.cast_pow, Nat.cast_ofNat, le_div_iff₀ (quantum_pos bits q), pow_mul_quantum]
  exact Int.zpow_log_le_self (by decide) (abs_pos.mpr hq)

theorem digits_lt : digits bits q < 2 ^ (bits + 1) := by
  rw [digits, Nat.floor_lt (div_nonneg (abs_nonneg q) (quantum_pos bits q).le), Nat.cast_pow,
    Nat.cast_ofNat, div_lt_iff₀ (quantum_pos bits q), pow_succ, mul_right_comm, pow_mul_quantum,
    ← zpow_add_one₀ two_ne_zero]
  exact Int.lt_zpow_succ_log_self (by decide) |q|

end Significand
