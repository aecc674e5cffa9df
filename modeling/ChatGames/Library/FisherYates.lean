import Mathlib.Data.List.Nodup
import Mathlib.Data.List.Perm.Basic
import Mathlib.Data.List.Permutation

/-!
# Shuffling by exchanges

One position after the other exchanges its element with the one at a position that is not before it.
An element that has been put in its place stays there, so that each permutation of a list without
duplicates comes from one sequence of choices.
-/

namespace FisherYates

variable {α : Type*}

/-- The elements at two positions change places. -/
def exchange (list : List α) (i j : Nat) : List α :=
  match list[i]?, list[j]? with
  | some x, some y => (list.set i y).set j x
  | _, _ => list

/-- The exchanges from position `i` on, each with the next of the chosen positions. -/
def shuffle : Nat → List Nat → List α → List α
  | _, [], list => list
  | i, j :: choices, list => shuffle (i + 1) choices (exchange list i j)

/-- Positions that may be chosen from position `i` on in a list of `n` elements. The last one has no
choice. -/
def Choices (n : Nat) : Nat → List Nat → Prop
  | i, [] => n ≤ i + 1
  | i, j :: choices => i + 1 < n ∧ i ≤ j ∧ j < n ∧ Choices n (i + 1) choices

theorem exchange_perm (list : List α) (i j : Nat) : (exchange list i j).Perm list := by
  unfold exchange
  split
  · rename_i x y hx hy
    obtain ⟨hi, rfl⟩ := List.getElem?_eq_some_iff.mp hx
    obtain ⟨hj, rfl⟩ := List.getElem?_eq_some_iff.mp hy
    exact List.set_set_perm hi hj
  · exact .refl _

theorem shuffle_perm (i : Nat) (choices : List Nat) (list : List α) :
    (shuffle i choices list).Perm list := by
  induction choices generalizing i list with
  | nil => exact .refl _
  | cons j choices ih => exact (ih (i + 1) (exchange list i j)).trans (exchange_perm list i j)

theorem choices_iff {n i : Nat} {choices : List Nat} :
    Choices n i choices ↔ choices.length = n - (i + 1) ∧
      ∀ k (hk : k < choices.length), i + k ≤ choices[k] ∧ choices[k] < n := by
  induction choices generalizing i with
  | nil =>
      have hnil : ([] : List Nat).length = 0 := rfl
      rw [Choices]
      constructor
      · exact fun h => ⟨by omega, fun k hk => absurd hk (Nat.not_lt_zero k)⟩
      · rintro ⟨hlength, -⟩
        omega
  | cons j choices ih =>
      have hcons : (j :: choices).length = choices.length + 1 := rfl
      rw [Choices]
      constructor
      · rintro ⟨hroom, hij, hj, hrest⟩
        obtain ⟨hlength, hbounds⟩ := ih.mp hrest
        refine ⟨by omega, fun k hk => ?_⟩
        cases k with
        | zero => exact ⟨hij, hj⟩
        | succ k =>
            obtain ⟨hlower, hupper⟩ := hbounds k (Nat.lt_of_succ_lt_succ hk)
            rw [List.getElem_cons_succ]
            exact ⟨by omega, hupper⟩
      · rintro ⟨hlength, hbounds⟩
        have hroom : i + 1 < n := by omega
        obtain ⟨hij, hj⟩ := hbounds 0 (Nat.succ_pos _)
        refine ⟨hroom, hij, hj, ih.mpr ⟨by omega, fun k hk => ?_⟩⟩
        obtain ⟨hlower, hupper⟩ := hbounds (k + 1) (Nat.succ_lt_succ hk)
        rw [List.getElem_cons_succ] at hlower hupper
        exact ⟨by omega, hupper⟩

/-! ### One exchange -/

variable (fixed : List α) {rest : List α}

theorem exchange_append {k : Nat} (hk : k < rest.length) :
    ∃ later, exchange (fixed ++ rest) fixed.length (fixed.length + k) =
      fixed ++ rest[k] :: later := by
  cases rest with
  | nil => cases hk
  | cons x rest =>
      have hfirst : (fixed ++ x :: rest)[fixed.length]? = some x := by simp
      have hchosen : (fixed ++ x :: rest)[fixed.length + k]? = some (x :: rest)[k] := by
        rw [List.getElem?_append_right (Nat.le_add_right _ _), Nat.add_sub_cancel_left,
          List.getElem?_eq_getElem hk]
      rw [exchange, hfirst, hchosen]
      change ∃ later, ((fixed ++ x :: rest).set fixed.length _).set (fixed.length + k) x = _
      rw [List.set_append_right _ _ le_rfl, List.set_append_right _ _ (Nat.le_add_right _ _),
        Nat.sub_self, Nat.add_sub_cancel_left, List.set_cons_zero]
      cases k with
      | zero => exact ⟨rest, rfl⟩
      | succ k => exact ⟨rest.set k x, rfl⟩

/-- What comes to the first position that is not fixed is the chosen one of the other elements. -/
theorem exists_exchange {j : Nat} (hij : fixed.length ≤ j) (hj : j < fixed.length + rest.length) :
    ∃ k later, ∃ hk : k < rest.length, j = fixed.length + k ∧
      exchange (fixed ++ rest) fixed.length j = (fixed ++ [rest[k]]) ++ later ∧
        (rest[k] :: later).Perm rest := by
  obtain ⟨k, rfl⟩ := Nat.exists_eq_add_of_le hij
  have hk : k < rest.length := Nat.lt_of_add_lt_add_left hj
  obtain ⟨later, hlater⟩ := exchange_append fixed hk
  refine ⟨k, later, hk, rfl, by rw [hlater, List.append_assoc, List.singleton_append], ?_⟩
  have hperm := exchange_perm (fixed ++ rest) fixed.length (fixed.length + k)
  rw [hlater] at hperm
  exact (List.perm_append_left_iff fixed).mp hperm

/-- One element more is fixed. -/
theorem length_exchanged {n : Nat} {x : α} {later : List α}
    (hn : n = fixed.length + rest.length) (hperm : (x :: later).Perm rest) :
    n = (fixed ++ [x]).length + later.length := by
  have hlength : later.length + 1 = rest.length := hperm.length_eq
  rw [List.length_append, List.length_singleton]
  omega

/-! ### All exchanges -/

/-- Choices for `n` elements that put `target` after the fixed ones. -/
def Yields (n : Nat) (fixed rest target : List α) (choices : List Nat) : Prop :=
  Choices n fixed.length choices ∧ shuffle fixed.length choices (fixed ++ rest) = fixed ++ target

/-- The fixed elements stay. -/
theorem shuffle_append {n : Nat} {choices : List Nat} (hn : n = fixed.length + rest.length)
    (h : Choices n fixed.length choices) :
    ∃ shuffled, shuffle fixed.length choices (fixed ++ rest) = fixed ++ shuffled := by
  induction choices generalizing fixed rest with
  | nil => exact ⟨rest, rfl⟩
  | cons j choices ih =>
      obtain ⟨-, hij, hj, hchoices⟩ := h
      obtain ⟨k, later, hk, -, hexchange, hperm⟩ := exists_exchange fixed hij (hn ▸ hj)
      have hfixed : (fixed ++ [rest[k]]).length = fixed.length + 1 := List.length_append
      obtain ⟨shuffled, hshuffled⟩ := ih (fixed ++ [rest[k]]) (length_exchanged fixed hn hperm)
        (hfixed ▸ hchoices)
      refine ⟨rest[k] :: shuffled, ?_⟩
      rw [shuffle, hexchange, ← hfixed, hshuffled, List.append_assoc, List.singleton_append]

section First

variable {n j k : Nat} {x : α} {choices : List Nat} {target later : List α}

/-- The element that comes first after the fixed ones says which one was chosen. -/
theorem Yields.chosen (hn : n = fixed.length + rest.length)
    (h : Yields n fixed rest (x :: target) (j :: choices)) :
    ∃ k, ∃ hk : k < rest.length, j = fixed.length + k ∧ rest[k] = x := by
  obtain ⟨⟨-, hij, hj, hchoices⟩, hshuffle⟩ := h
  obtain ⟨k, later, hk, hchosen, hexchange, hperm⟩ := exists_exchange fixed hij (hn ▸ hj)
  have hfixed : (fixed ++ [rest[k]]).length = fixed.length + 1 := List.length_append
  obtain ⟨shuffled, hshuffled⟩ := shuffle_append (fixed ++ [rest[k]])
    (length_exchanged fixed hn hperm) (hfixed ▸ hchoices)
  rw [shuffle, hexchange, ← hfixed, hshuffled, List.append_assoc] at hshuffle
  exact ⟨k, hk, hchosen, (List.cons.inj (List.append_cancel_left hshuffle)).1⟩

/-- The first choice fixes an element, and the others are choices for what is left. -/
theorem yields_cons_iff (hn : n = fixed.length + rest.length) (hroom : 1 < rest.length)
    (hk : k < rest.length)
    (hexchange : exchange (fixed ++ rest) fixed.length (fixed.length + k) =
      (fixed ++ [x]) ++ later) :
    Yields n fixed rest (x :: target) ((fixed.length + k) :: choices) ↔
      Yields n (fixed ++ [x]) later target choices := by
  have hfixed : (fixed ++ [x]).length = fixed.length + 1 := List.length_append
  have htarget : (fixed ++ [x]) ++ target = fixed ++ x :: target := List.append_assoc _ _ _
  rw [Yields, Yields, Choices, shuffle, hexchange, hfixed, htarget]
  constructor
  · rintro ⟨⟨-, -, -, hchoices⟩, hshuffle⟩
    exact ⟨hchoices, hshuffle⟩
  · rintro ⟨hchoices, hshuffle⟩
    exact ⟨⟨by omega, by omega, by omega, hchoices⟩, hshuffle⟩

end First

theorem choices_of_le {n i : Nat} (h : n ≤ i + 1) {choices : List Nat} :
    Choices n i choices ↔ choices = [] := by
  cases choices with
  | nil => exact iff_of_true h rfl
  | cons j choices =>
      refine iff_of_false (fun hchoices => ?_) (List.cons_ne_nil _ _)
      have hroom := hchoices.1
      omega

/-- There is nothing to choose when at most one element is not fixed. -/
theorem existsUnique_of_length_le_one {n : Nat} {target : List α}
    (hn : n = fixed.length + rest.length) (hone : rest.length ≤ 1) (htarget : target.Perm rest) :
    ∃! choices, Yields n fixed rest target choices := by
  have hsame : target = rest := by
    match rest, hone with
    | [], _ => exact List.perm_nil.mp htarget
    | [x], _ => exact List.perm_singleton.mp htarget
  subst hsame
  have hlast : n ≤ fixed.length + 1 := by omega
  exact ⟨[], ⟨(choices_of_le hlast).mpr rfl, rfl⟩, fun choices h => (choices_of_le hlast).mp h.1⟩

/-- **Choices.** From a list without duplicates every order of it comes from exactly one sequence of
choices. -/
theorem existsUnique_shuffle {n : Nat} {target : List α} (hn : n = fixed.length + rest.length)
    (hnodup : rest.Nodup) (htarget : target.Perm rest) :
    ∃! choices, Yields n fixed rest target choices := by
  induction target generalizing fixed rest with
  | nil =>
      have hempty : rest.length = 0 := htarget.length_eq.symm
      exact existsUnique_of_length_le_one fixed hn (by omega) htarget
  | cons x target ih =>
      by_cases hone : rest.length ≤ 1
      · exact existsUnique_of_length_le_one fixed hn hone htarget
      · have hroom : 1 < rest.length := not_le.mp hone
        obtain ⟨k, hk, rfl⟩ := List.getElem_of_mem (htarget.subset List.mem_cons_self)
        obtain ⟨k', later, hk', hchosen, hexchange, hperm⟩ := exists_exchange fixed
          (Nat.le_add_right fixed.length k) (Nat.add_lt_add_left hk _)
        obtain rfl : k = k' := Nat.add_left_cancel hchosen
        have hlater := (List.nodup_cons.mp (hperm.nodup_iff.mpr hnodup)).2
        obtain ⟨choices, hyields, hunique⟩ := ih (fixed ++ [rest[k]])
          (length_exchanged fixed hn hperm) hlater (htarget.trans hperm.symm).cons_inv
        refine ⟨(fixed.length + k) :: choices,
          (yields_cons_iff fixed hn hroom hk hexchange).mpr hyields, ?_⟩
        rintro (_ | ⟨j, choices'⟩) hyields'
        · have hnone : n ≤ fixed.length + 1 := hyields'.1
          omega
        · obtain ⟨k', hk', rfl, heq⟩ := hyields'.chosen fixed hn
          obtain rfl := hnodup.getElem_inj_iff.mp heq
          rw [hunique choices' ((yields_cons_iff fixed hn hroom hk hexchange).mp hyields')]

end FisherYates
