import Mathlib.Logic.Function.Basic
import Mathlib.Data.Int.Basic
import Mathlib.Data.List.Basic

/-!
# The client's queue

`queue.lua` keeps its values in a table between two moving indices. `Spans` says what is in the
slots between them, and `Holds` which list a queue stands for; each operation that keeps to the two
ends is the list operation it is named after. `size` is not the length: the source subtracts the
indices the wrong way round, and `Spans.size_eq` says what it computes instead.
-/

namespace ChatGames

abbrev LuaError := String

structure Queue (α : Type) where
  data : Int → Option α
  front : Int
  back : Int

namespace Queue

variable {α : Type}

def new : Queue α := ⟨fun _ => none, 1, 0⟩

def push (queue : Queue α) (val : α) : Queue α :=
  { queue with
    back := queue.back + 1
    data := Function.update queue.data (queue.back + 1) (some val) }

def pushFront (queue : Queue α) (val : α) : Queue α :=
  { queue with
    front := queue.front - 1
    data := Function.update queue.data (queue.front - 1) (some val) }

def peek (queue : Queue α) (offset : Int) : Option α := queue.data (queue.front + offset)

def peekBack (queue : Queue α) (offset : Int) : Option α := queue.data (queue.back - offset)

def pop (queue : Queue α) : Except LuaError (Option α × Queue α) :=
  if queue.front > queue.back then
    .error "Queue is empty"
  else
    .ok (queue.data queue.front,
      { queue with
        data := Function.update queue.data queue.front none
        front := queue.front + 1 })

def popBack (queue : Queue α) : Except LuaError (Option α × Queue α) :=
  if queue.front > queue.back then
    .error "Queue is empty"
  else
    .ok (queue.data queue.back,
      { queue with
        data := Function.update queue.data queue.back none
        back := queue.back - 1 })

def size (queue : Queue α) : Int := queue.front - queue.back + 1

def empty (queue : Queue α) : Bool := queue.front > queue.back

def clear (_queue : Queue α) : Queue α := ⟨fun _ => none, -1, 0⟩

def toList (queue : Queue α) : List α :=
  (List.range (queue.back - queue.front + 1).toNat).filterMap fun i : Nat =>
    queue.data (queue.front + i)

/-- The table has the slots, some of which may be nil, between the two ends, and nothing outside. -/
structure Spans (queue : Queue α) (slots : List (Option α)) : Prop where
  back_eq : queue.back = queue.front + slots.length - 1
  data_eq : ∀ i : Nat, queue.data (queue.front + i) = slots[i]?.join
  below_eq : ∀ i : Int, i < queue.front → queue.data i = none

/-- The queue stands for the list `vals`, and its table has nothing else in it. -/
structure Holds (queue : Queue α) (vals : List α) : Prop where
  back_eq : queue.back = queue.front + vals.length - 1
  data_eq : ∀ i : Nat, queue.data (queue.front + i) = vals[i]?
  below_eq : ∀ i : Int, i < queue.front → queue.data i = none

theorem join_getElem?_map_some (vals : List α) (i : Nat) :
    (vals.map some)[i]?.join = vals[i]? := by
  rw [List.getElem?_map]
  cases vals[i]? <;> rfl

theorem holds_iff_spans {queue : Queue α} {vals : List α} :
    queue.Holds vals ↔ queue.Spans (vals.map some) := by
  have hlength : (vals.map some).length = vals.length := List.length_map _
  constructor
  · intro h
    refine ⟨by rw [hlength, h.back_eq], fun i => ?_, h.below_eq⟩
    rw [join_getElem?_map_some, h.data_eq]
  · intro h
    refine ⟨by rw [h.back_eq, hlength], fun i => ?_, h.below_eq⟩
    rw [h.data_eq, join_getElem?_map_some]

theorem holds_new : (new : Queue α).Holds [] :=
  ⟨rfl, fun _ => rfl, fun _ _ => rfl⟩

/-- A cleared queue is not empty: there are two slots between its indices. -/
theorem spans_clear (queue : Queue α) : queue.clear.Spans [none, none] := by
  refine ⟨rfl, fun i => ?_, fun _ _ => rfl⟩
  match i with
  | 0 | 1 | _ + 2 => rfl

theorem filterMap_range_getElem? (vals : List α) :
    ((List.range vals.length).filterMap fun i => vals[i]?) = vals := by
  induction vals with
  | nil => rfl
  | cons val vals ih =>
      simp [List.range_succ_eq_map, List.filterMap_map, ih]

/-! ### The slots after each operation -/

namespace Spans

variable {queue : Queue α} {slots : List (Option α)}

theorem push (h : queue.Spans slots) (val : α) : (queue.push val).Spans (slots ++ [some val]) := by
  have hback := h.back_eq
  refine ⟨?_, ?_, ?_⟩
  · simp only [Queue.push, List.length_append, List.length_singleton]
    omega
  · intro i
    change Function.update queue.data (queue.back + 1) (some val) (queue.front + i) = _
    by_cases hi : i = slots.length
    · subst hi
      rw [show queue.front + (slots.length : Int) = queue.back + 1 by omega, Function.update_self]
      simp
    · rw [Function.update_of_ne (by omega), h.data_eq]
      rcases Nat.lt_or_gt_of_ne hi with hlt | hgt
      · rw [List.getElem?_append_left hlt]
      · rw [List.getElem?_eq_none (by omega), List.getElem?_eq_none (by simp; omega)]
  · intro i hi
    change Function.update queue.data (queue.back + 1) (some val) i = none
    have hfront : i < queue.front := hi
    rw [Function.update_of_ne (by omega), h.below_eq i hfront]

theorem pushFront (h : queue.Spans slots) (val : α) :
    (queue.pushFront val).Spans (some val :: slots) := by
  have hback := h.back_eq
  refine ⟨?_, ?_, ?_⟩
  · simp only [Queue.pushFront, List.length_cons]
    omega
  · intro i
    change Function.update queue.data (queue.front - 1) (some val) (queue.front - 1 + i) = _
    cases i with
    | zero => simp
    | succ i =>
        rw [Function.update_of_ne (by omega), List.getElem?_cons_succ, ← h.data_eq]
        congr 1
        omega
  · intro i hi
    change Function.update queue.data (queue.front - 1) (some val) i = none
    have hfront : i < queue.front - 1 := hi
    rw [Function.update_of_ne (by omega), h.below_eq i (by omega)]

theorem peek (h : queue.Spans slots) (offset : Nat) : queue.peek offset = slots[offset]?.join :=
  h.data_eq offset

theorem peekBack (h : queue.Spans slots) (offset : Nat) :
    queue.peekBack offset = slots.reverse[offset]?.join := by
  have hback := h.back_eq
  rw [Queue.peekBack]
  by_cases hoffset : offset < slots.length
  · have hindex : queue.back - offset = queue.front + (slots.length - 1 - offset : Nat) := by omega
    rw [hindex, h.data_eq, List.getElem?_reverse hoffset]
  · rw [h.below_eq _ (by omega), List.getElem?_eq_none (by rw [List.length_reverse]; omega)]
    rfl

theorem pop_nil (h : queue.Spans []) : queue.pop = .error "Queue is empty" := by
  have hback := h.back_eq
  rw [List.length_nil] at hback
  rw [Queue.pop, if_pos (by omega)]

theorem popBack_nil (h : queue.Spans []) : queue.popBack = .error "Queue is empty" := by
  have hback := h.back_eq
  rw [List.length_nil] at hback
  rw [Queue.popBack, if_pos (by omega)]

theorem pop_cons {slot : Option α} (h : queue.Spans (slot :: slots)) :
    ∃ queue', queue.pop = .ok (slot, queue') ∧ queue'.Spans slots := by
  have hback := h.back_eq
  rw [List.length_cons] at hback
  have hfront : queue.data queue.front = slot := by
    have hfirst := h.data_eq 0
    simpa using hfirst
  refine ⟨{ queue with
    data := Function.update queue.data queue.front none, front := queue.front + 1 }, ?_, ?_, ?_, ?_⟩
  · rw [Queue.pop, if_neg (by omega), hfront]
  · change queue.back = queue.front + 1 + slots.length - 1
    omega
  · intro i
    change Function.update queue.data queue.front none (queue.front + 1 + i) = _
    rw [Function.update_of_ne (by omega), ← List.getElem?_cons_succ (a := slot), ← h.data_eq]
    congr 1
    push_cast
    omega
  · intro i hi
    change Function.update queue.data queue.front none i = none
    have hi' : i < queue.front + 1 := hi
    by_cases heq : i = queue.front
    · rw [heq, Function.update_self]
    · rw [Function.update_of_ne heq, h.below_eq i (by omega)]

theorem popBack_concat {slot : Option α} (h : queue.Spans (slots ++ [slot])) :
    ∃ queue', queue.popBack = .ok (slot, queue') ∧ queue'.Spans slots := by
  have hback := h.back_eq
  rw [List.length_append, List.length_singleton] at hback
  have hlast : queue.data queue.back = slot := by
    rw [show queue.back = queue.front + slots.length by omega, h.data_eq]
    simp
  refine ⟨{ queue with
    data := Function.update queue.data queue.back none, back := queue.back - 1 }, ?_, ?_, ?_, ?_⟩
  · rw [Queue.popBack, if_neg (by omega), hlast]
  · change queue.back - 1 = queue.front + slots.length - 1
    omega
  · intro i
    change Function.update queue.data queue.back none (queue.front + i) = _
    by_cases hi : i = slots.length
    · rw [show queue.front + (i : Int) = queue.back by omega, Function.update_self,
        List.getElem?_eq_none (by omega)]
      rfl
    · rw [Function.update_of_ne (by omega), h.data_eq]
      rcases Nat.lt_or_gt_of_ne hi with hlt | hgt
      · rw [List.getElem?_append_left hlt]
      · rw [List.getElem?_eq_none (by simp; omega), List.getElem?_eq_none (by omega)]
  · intro i hi
    change Function.update queue.data queue.back none i = none
    have hfront : i < queue.front := hi
    rw [Function.update_of_ne (by omega), h.below_eq i hfront]

theorem empty_iff (h : queue.Spans slots) : queue.empty = true ↔ slots = [] := by
  have hback := h.back_eq
  rw [Queue.empty, decide_eq_true_iff, ← List.length_eq_zero_iff]
  omega

/-- What `size` computes: two less the length. -/
theorem size_eq (h : queue.Spans slots) : queue.size = 2 - slots.length := by
  have hback := h.back_eq
  rw [Queue.size]
  omega

end Spans

namespace Holds

variable {queue : Queue α} {vals : List α}

theorem spans (h : queue.Holds vals) : queue.Spans (vals.map some) := holds_iff_spans.mp h

theorem push (h : queue.Holds vals) (val : α) : (queue.push val).Holds (vals ++ [val]) := by
  rw [holds_iff_spans, List.map_append]
  exact h.spans.push val

theorem pushFront (h : queue.Holds vals) (val : α) : (queue.pushFront val).Holds (val :: vals) :=
  holds_iff_spans.mpr (h.spans.pushFront val)

theorem peek (h : queue.Holds vals) (offset : Nat) : queue.peek offset = vals[offset]? :=
  h.data_eq offset

theorem peekBack (h : queue.Holds vals) (offset : Nat) :
    queue.peekBack offset = vals.reverse[offset]? := by
  rw [h.spans.peekBack, ← List.map_reverse, join_getElem?_map_some]

theorem peek_front {val : α} (h : queue.Holds (val :: vals)) : queue.peek 0 = some val :=
  h.data_eq 0

theorem pop_nil (h : queue.Holds []) : queue.pop = .error "Queue is empty" := h.spans.pop_nil

theorem popBack_nil (h : queue.Holds []) : queue.popBack = .error "Queue is empty" :=
  h.spans.popBack_nil

theorem pop_cons {val : α} (h : queue.Holds (val :: vals)) :
    ∃ queue', queue.pop = .ok (some val, queue') ∧ queue'.Holds vals := by
  obtain ⟨queue', hpop, hspans⟩ := h.spans.pop_cons
  exact ⟨queue', hpop, holds_iff_spans.mpr hspans⟩

theorem popBack_concat {val : α} (h : queue.Holds (vals ++ [val])) :
    ∃ queue', queue.popBack = .ok (some val, queue') ∧ queue'.Holds vals := by
  have hslots := h.spans
  rw [List.map_append] at hslots
  obtain ⟨queue', hpop, hspans⟩ := hslots.popBack_concat
  exact ⟨queue', hpop, holds_iff_spans.mpr hspans⟩

theorem empty_iff (h : queue.Holds vals) : queue.empty = true ↔ vals = [] :=
  h.spans.empty_iff.trans List.map_eq_nil_iff

theorem size_eq (h : queue.Holds vals) : queue.size = 2 - vals.length := by
  rw [h.spans.size_eq, List.length_map]

theorem toList_eq (h : queue.Holds vals) : queue.toList = vals := by
  have hback := h.back_eq
  rw [toList, show (queue.back - queue.front + 1).toNat = vals.length by omega]
  simp only [h.data_eq]
  exact filterMap_range_getElem? vals

end Holds

end Queue

end ChatGames
