import Mathlib.Data.List.Infix
import Mathlib.Order.Lattice.Nat

/-!
# A server that takes at most one item a slot

A history is a list of slots. By its end `arrived` items have come in, and in each slot the server
takes one of those that wait. What it has taken is then the least, over all ways to cut the history
in two, of what had arrived at the cut and one item for each slot behind it; and so the items that
wait are those by which some end of the history outran its slots.
-/

namespace Backlog

variable {ε : Type*} {arrived taken : List ε → ℕ}

/-- In every slot of the history one more item is taken, if one is there. -/
structure OneASlot (arrived taken : List ε → ℕ) (history : List ε) : Prop where
  nil : taken [] = arrived []
  concat (past : List ε) (slot : ε) : past ++ [slot] <+: history →
    taken (past ++ [slot]) = min (taken past + 1) (arrived (past ++ [slot]))

theorem OneASlot.of_front {past history : List ε} (h : OneASlot arrived taken history)
    (hpast : past <+: history) : OneASlot arrived taken past :=
  ⟨h.nil, fun before slot hslot => h.concat before slot (hslot.trans hpast)⟩

theorem append_eq_concat_iff {before after past : List ε} {slot : ε} :
    before ++ after = past ++ [slot] ↔
      (before = past ++ [slot] ∧ after = []) ∨
        ∃ rest, after = rest ++ [slot] ∧ before ++ rest = past := by
  constructor
  · intro h
    rcases List.eq_nil_or_concat' after with rfl | ⟨rest, last, rfl⟩
    · exact Or.inl ⟨by simpa using h, rfl⟩
    · rw [← List.append_assoc] at h
      obtain ⟨hpast, hlast⟩ := List.append_inj' h rfl
      exact Or.inr ⟨rest, by rw [hlast], hpast⟩
  · rintro (⟨rfl, rfl⟩ | ⟨rest, rfl, rfl⟩)
    · exact List.append_nil _
    · exact (List.append_assoc _ _ _).symm

/-- **What has been taken.** At least `k` items have been, exactly when at every time `k` is at most
what had arrived and the slots that were left. -/
theorem OneASlot.le_taken_iff {history : List ε} (h : OneASlot arrived taken history) {k : ℕ} :
    k ≤ taken history ↔
      ∀ before after, before ++ after = history → k ≤ arrived before + after.length := by
  induction history using List.reverseRecOn generalizing k with
  | nil =>
      rw [h.nil]
      constructor
      · intro hk before after hcut
        obtain ⟨rfl, rfl⟩ := List.append_eq_nil_iff.mp hcut
        exact hk
      · exact fun hk => hk [] [] rfl
  | append_singleton past slot ih =>
      have hpast := h.of_front (List.prefix_append past [slot])
      rw [h.concat past slot (List.prefix_refl _), le_min_iff]
      constructor
      · rintro ⟨hbehind, hall⟩ before after hcut
        rcases append_eq_concat_iff.mp hcut with ⟨rfl, rfl⟩ | ⟨rest, rfl, hrest⟩
        · exact hall
        · have hkept := (@ih hpast (k - 1)).mp (by omega) before rest hrest
          rw [List.length_append, List.length_singleton]
          omega
      · intro hk
        refine ⟨?_, hk _ [] (List.append_nil _)⟩
        have hbehind : k - 1 ≤ taken past := by
          refine (ih hpast).mpr fun before rest hrest => ?_
          have hcut := hk before (rest ++ [slot]) (by rw [← hrest, List.append_assoc])
          rw [List.length_append, List.length_singleton] at hcut
          omega
        omega

/-- **What waits.** At most `b` items do, exactly when since every time there were at most `b` more
arrivals than slots. -/
theorem OneASlot.waiting_le_iff {history : List ε} (h : OneASlot arrived taken history) {b : ℕ} :
    arrived history - taken history ≤ b ↔
      ∀ before after, before ++ after = history →
        arrived history ≤ arrived before + after.length + b := by
  rw [Nat.sub_le_iff_le_add, ← Nat.sub_le_iff_le_add', h.le_taken_iff]
  refine forall₃_congr fun before after _ => ?_
  omega

end Backlog
