import Mathlib.Order.Bounds.Basic
import Mathlib.Data.List.Pairwise

/-!
# The first gap in an ascending list of numbers

Walking an ascending list and its positions in step, the first position that does not hold its own
index is the least number missing from the list.
-/

def firstGap : Nat → List Nat → Nat
  | i, [] => i
  | i, n :: ns => if n ≠ i then i else firstGap (i + 1) ns

variable {ns : List Nat}

theorem le_firstGap (i : Nat) (ns : List Nat) : i ≤ firstGap i ns := by
  induction ns generalizing i with
  | nil => exact le_rfl
  | cons n ns ih =>
      rw [firstGap]
      split
      · exact le_rfl
      · exact (Nat.le_succ i).trans (ih (i + 1))

theorem firstGap_le (i : Nat) (ns : List Nat) : firstGap i ns ≤ i + ns.length := by
  induction ns generalizing i with
  | nil => exact le_rfl
  | cons n ns ih =>
      rw [firstGap, List.length_cons]
      split
      · omega
      · exact (ih (i + 1)).trans (by omega)

theorem mem_of_lt_firstGap {i m : Nat} (hi : i ≤ m) (hm : m < firstGap i ns) : m ∈ ns := by
  induction ns generalizing i with
  | nil => exact absurd hm (by rw [firstGap]; omega)
  | cons n ns ih =>
      rw [firstGap] at hm
      split at hm
      · omega
      · rename_i heq
        rw [List.mem_cons]
        rcases Nat.eq_or_lt_of_le hi with rfl | hlt
        · exact Or.inl (not_not.mp heq).symm
        · exact Or.inr (ih hlt hm)

theorem firstGap_notMem {i : Nat} (hsorted : ns.Pairwise (· < ·)) (hi : ∀ n ∈ ns, i ≤ n) :
    firstGap i ns ∉ ns := by
  induction ns generalizing i with
  | nil => exact List.not_mem_nil
  | cons n ns ih =>
      obtain ⟨hhead, htail⟩ := List.pairwise_cons.mp hsorted
      have hn := hi n List.mem_cons_self
      rw [firstGap, List.mem_cons, not_or]
      split
      · rename_i hne
        refine ⟨fun heq => hne heq.symm, fun hmem => ?_⟩
        have := hhead i hmem
        omega
      · rename_i heq
        obtain rfl : n = i := not_not.mp heq
        have hle := le_firstGap (n + 1) ns
        exact ⟨by omega, ih htail fun m hm => hhead m hm⟩

/-- **The first gap.** In an ascending list it is the least number that is missing. -/
theorem isLeast_firstGap (hsorted : ns.Pairwise (· < ·)) :
    IsLeast {n | n ∉ ns} (firstGap 0 ns) := by
  refine ⟨firstGap_notMem hsorted fun n _ => Nat.zero_le n, fun m hm => ?_⟩
  by_contra hlt
  exact hm (mem_of_lt_firstGap (Nat.zero_le m) (not_le.mp hlt))
