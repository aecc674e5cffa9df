import Mathlib.Data.List.Infix

/-!
# Splitting a stream into items

A splitter takes the first complete item off a stream. It never changes its mind when more of the
stream arrives, and that alone makes the items of a stream independent of how the stream was cut:
the items of `xs ++ ys` are those of `xs`, followed by those of what `xs` left over extended by
`ys`.
-/

structure Splitter (α : Type*) where
  next : List α → Option (List α × List α)
  next_append : ∀ {xs item rest : List α} (ys : List α),
    next xs = some (item, rest) → next (xs ++ ys) = some (item, rest ++ ys)
  length_lt : ∀ {xs item rest : List α}, next xs = some (item, rest) → rest.length < xs.length

namespace Splitter

variable {α : Type*} (sp : Splitter α)

/-- Takes items while the fuel lasts; the length of the stream is fuel enough. -/
def splitWith : Nat → List α → List (List α) × List α
  | 0, xs => ([], xs)
  | fuel + 1, xs =>
      match sp.next xs with
      | none => ([], xs)
      | some (item, rest) => (item :: (splitWith fuel rest).1, (splitWith fuel rest).2)

/-- The complete items of a stream, in order. -/
def items (xs : List α) : List (List α) := (sp.splitWith xs.length xs).1

/-- What the complete items leave over. -/
def tail (xs : List α) : List α := (sp.splitWith xs.length xs).2

variable {sp}

theorem splitWith_of_length_le {xs : List α} :
    ∀ {fuel fuel' : Nat}, xs.length ≤ fuel → xs.length ≤ fuel' →
      sp.splitWith fuel xs = sp.splitWith fuel' xs := by
  intro fuel
  induction fuel generalizing xs with
  | zero =>
      intro fuel' hfuel _
      obtain rfl : xs = [] := List.eq_nil_of_length_eq_zero (by omega)
      cases fuel' with
      | zero => rfl
      | succ fuel' =>
          cases hnext : sp.next [] with
          | none => simp [splitWith, hnext]
          | some p =>
              obtain ⟨item, rest⟩ := p
              exact absurd (sp.length_lt hnext) (by simp)
  | succ fuel ih =>
      intro fuel' hfuel hfuel'
      cases hnext : sp.next xs with
      | none => cases fuel' <;> simp [splitWith, hnext]
      | some p =>
          obtain ⟨item, rest⟩ := p
          have hlt := sp.length_lt hnext
          obtain ⟨fuel', rfl⟩ : ∃ n, fuel' = n + 1 := ⟨fuel' - 1, by omega⟩
          simp only [splitWith, hnext, @ih rest fuel' (by omega) (by omega)]

theorem items_of_next_none {xs : List α} (h : sp.next xs = none) : sp.items xs = [] := by
  cases xs <;> simp [items, splitWith, h]

theorem tail_of_next_none {xs : List α} (h : sp.next xs = none) : sp.tail xs = xs := by
  cases xs <;> simp [tail, splitWith, h]

theorem splitWith_of_next_some {xs item rest : List α} (h : sp.next xs = some (item, rest)) :
    sp.splitWith xs.length xs = (item :: sp.items rest, sp.tail rest) := by
  have hlt := sp.length_lt h
  obtain ⟨fuel, hfuel⟩ : ∃ n, xs.length = n + 1 := ⟨xs.length - 1, by omega⟩
  have hrest : sp.splitWith fuel rest = sp.splitWith rest.length rest :=
    splitWith_of_length_le (by omega) le_rfl
  rw [hfuel, splitWith, h]
  simp only [hrest, items, tail]

theorem items_of_next_some {xs item rest : List α} (h : sp.next xs = some (item, rest)) :
    sp.items xs = item :: sp.items rest := by
  rw [items, splitWith_of_next_some h]

theorem tail_of_next_some {xs item rest : List α} (h : sp.next xs = some (item, rest)) :
    sp.tail xs = sp.tail rest := by
  rw [tail, splitWith_of_next_some h]

variable (sp) in
theorem induction {P : List α → Prop} (hnone : ∀ xs, sp.next xs = none → P xs)
    (hsome : ∀ xs item rest, sp.next xs = some (item, rest) → P rest → P xs) (xs : List α) :
    P xs := by
  induction hlen : xs.length using Nat.strong_induction_on generalizing xs with
  | _ n ih =>
      cases hnext : sp.next xs with
      | none => exact hnone xs hnext
      | some p =>
          exact hsome xs p.1 p.2 hnext (ih p.2.length (hlen ▸ sp.length_lt hnext) p.2 rfl)

theorem next_tail (xs : List α) : sp.next (sp.tail xs) = none := by
  induction xs using sp.induction with
  | hnone xs h => rwa [tail_of_next_none h]
  | hsome xs item rest h ih => rwa [tail_of_next_some h]

@[simp]
theorem items_tail (xs : List α) : sp.items (sp.tail xs) = [] := items_of_next_none (next_tail xs)

@[simp]
theorem tail_tail (xs : List α) : sp.tail (sp.tail xs) = sp.tail xs :=
  tail_of_next_none (next_tail xs)

theorem items_eq_nil_iff {xs : List α} : sp.items xs = [] ↔ sp.next xs = none := by
  refine ⟨fun h => ?_, items_of_next_none⟩
  cases hnext : sp.next xs with
  | none => rfl
  | some p =>
      obtain ⟨item, rest⟩ := p
      simp [items_of_next_some hnext] at h

theorem length_tail_lt {xs item rest : List α} (h : sp.next xs = some (item, rest)) :
    (sp.tail xs).length < xs.length := by
  induction xs using sp.induction generalizing item rest with
  | hnone xs hnone => rw [hnone] at h; cases h
  | hsome xs item' rest' hsome ih =>
      have hlt := sp.length_lt hsome
      rw [tail_of_next_some hsome]
      cases hnext : sp.next rest' with
      | none => rwa [tail_of_next_none hnext]
      | some p =>
          obtain ⟨item, rest⟩ := p
          exact (ih hnext).trans hlt

theorem tail_eq_self_iff {xs : List α} : sp.tail xs = xs ↔ sp.items xs = [] := by
  rw [items_eq_nil_iff]
  refine ⟨fun h => ?_, tail_of_next_none⟩
  cases hnext : sp.next xs with
  | none => rfl
  | some p =>
      obtain ⟨item, rest⟩ := p
      have hlt := length_tail_lt hnext
      rw [h] at hlt
      exact absurd hlt (lt_irrefl _)

@[simp]
theorem items_nil : sp.items [] = [] := rfl

@[simp]
theorem tail_nil : sp.tail [] = [] := rfl

/-- **Items of a stream that grows.** They are the items so far, and those of what was left over
with the rest behind it. -/
theorem items_append (xs ys : List α) :
    sp.items (xs ++ ys) = sp.items xs ++ sp.items (sp.tail xs ++ ys) := by
  induction xs using sp.induction with
  | hnone xs h => rw [items_of_next_none h, tail_of_next_none h, List.nil_append]
  | hsome xs item rest h ih =>
      rw [items_of_next_some (sp.next_append ys h), items_of_next_some h, tail_of_next_some h, ih,
        List.cons_append]

theorem tail_append (xs ys : List α) : sp.tail (xs ++ ys) = sp.tail (sp.tail xs ++ ys) := by
  induction xs using sp.induction with
  | hnone xs h => rw [tail_of_next_none h]
  | hsome xs item rest h ih =>
      rw [tail_of_next_some (sp.next_append ys h), tail_of_next_some h, ih]

theorem items_length_le_one_iff {xs item rest : List α} (h : sp.next xs = some (item, rest)) :
    (sp.items xs).length ≤ 1 ↔ sp.next rest = none := by
  rw [items_of_next_some h, ← items_eq_nil_iff]
  simp

end Splitter
