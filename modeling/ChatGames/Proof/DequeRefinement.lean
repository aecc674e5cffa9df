import ChatGames.Queue
import ChatGames.Library.Deque

/-!
# The queue as a double-ended list

Until it is cleared, the queue answers like a list, but for its size. `clear` leaves two slots
between the indices with nothing in them, and they stay: a call that would take one of them is
answered by a list in another way.
-/

namespace ChatGames.Queue

variable {α : Type} {queue : Queue α} {vals : List α}

/-- A call of one of the methods. An error leaves the queue as it is. -/
def call (queue : Queue α) : DequeOp α → DequeAnswer α × Queue α
  | .push val => (.done, queue.push val)
  | .pushFront val => (.done, queue.pushFront val)
  | .pop =>
      match queue.pop with
      | .ok (val, queue) => (.popped val, queue)
      | .error _ => (.raised, queue)
  | .popBack =>
      match queue.popBack with
      | .ok (val, queue) => (.popped val, queue)
      | .error _ => (.raised, queue)
  | .clear => (.done, queue.clear)

/-- What can be seen of a queue, but for its size, is what can be seen of the list. -/
structure Shows (queue : Queue α) (vals : List α) : Prop where
  peek : ∀ k : Nat, queue.peek k = vals[k]?
  peekBack : ∀ k : Nat, queue.peekBack k = vals.reverse[k]?
  empty : queue.empty = true ↔ vals.length = 0

/-- From a new queue, the calls are answered like those of a list, and show one. -/
def RefinesButSize (ops : List (DequeOp α)) : Prop :=
  Deque.answers call new ops = Deque.answers Deque.call [] ops ∧
    (Deque.after call new ops).Shows (Deque.after Deque.call [] ops)

def Refines (ops : List (DequeOp α)) : Prop :=
  RefinesButSize ops ∧ (Deque.after call new ops).size = (Deque.after Deque.call [] ops).length

/-! ### Without `clear` -/

theorem Holds.shows (h : queue.Holds vals) : queue.Shows vals :=
  ⟨h.peek, h.peekBack, h.empty_iff.trans List.length_eq_zero_iff.symm⟩

theorem Holds.call (h : queue.Holds vals) {op : DequeOp α} (hop : op ≠ .clear) :
    (queue.call op).1 = (Deque.call vals op).1 ∧
      (queue.call op).2.Holds (Deque.call vals op).2 := by
  cases op with
  | push val => exact ⟨rfl, h.push val⟩
  | pushFront val => exact ⟨rfl, h.pushFront val⟩
  | pop =>
      cases vals with
      | nil =>
          rw [Queue.call, h.pop_nil]
          exact ⟨rfl, h⟩
      | cons val vals =>
          obtain ⟨queue', hpop, hrest⟩ := h.pop_cons
          rw [Queue.call, hpop]
          exact ⟨rfl, hrest⟩
  | popBack =>
      rcases List.eq_nil_or_concat vals with rfl | ⟨front, val, rfl⟩
      · rw [Queue.call, h.popBack_nil]
        exact ⟨rfl, h⟩
      · rw [List.concat_eq_append] at h ⊢
        obtain ⟨queue', hpop, hrest⟩ := h.popBack_concat
        rw [Queue.call, hpop, Deque.call_popBack_concat]
        exact ⟨rfl, hrest⟩
  | clear => exact absurd rfl hop

theorem holds_of_not_clear {ops : List (DequeOp α)} (h : .clear ∉ ops) :
    Deque.answers call new ops = Deque.answers Deque.call [] ops ∧
      (Deque.after call new ops).Holds (Deque.after Deque.call [] ops) :=
  Deque.answers_eq holds_new fun _ hop _ _ hholds =>
    hholds.call fun heq => h (heq ▸ hop)

/-! ### The gap that `clear` leaves -/

/-- The list is cut in two by two empty slots. -/
def HasGap (queue : Queue α) (vals : List α) : Prop :=
  ∃ left right, vals = left ++ right ∧
    queue.Spans (left.map some ++ none :: none :: right.map some)

theorem hasGap_clear (queue : Queue α) : queue.clear.HasGap [] :=
  ⟨[], [], rfl, spans_clear queue⟩

theorem HasGap.call (h : queue.HasGap vals) (op : DequeOp α)
    (hanswer : (queue.call op).1 = (Deque.call vals op).1) :
    (queue.call op).2.HasGap (Deque.call vals op).2 := by
  obtain ⟨left, right, rfl, hspans⟩ := h
  cases op with
  | push val =>
      refine ⟨left, right ++ [val], List.append_assoc _ _ _, ?_⟩
      have hpushed := hspans.push val
      rwa [List.append_assoc, List.cons_append, List.cons_append, ← List.map_singleton,
        ← List.map_append] at hpushed
  | pushFront val => exact ⟨val :: left, right, rfl, hspans.pushFront val⟩
  | pop =>
      cases left with
      | nil =>
          -- the queue gives out nil, and the list has no nil to give out
          obtain ⟨queue', hpop, -⟩ := hspans.pop_cons
          rw [Queue.call, hpop] at hanswer
          cases right <;> cases hanswer
      | cons val left =>
          obtain ⟨queue', hpop, hrest⟩ := hspans.pop_cons
          rw [Queue.call, hpop]
          exact ⟨left, right, rfl, hrest⟩
  | popBack =>
      rcases List.eq_nil_or_concat right with rfl | ⟨right, val, rfl⟩
      · have hslots : left.map some ++ [none, none] = left.map some ++ [none] ++ [none] :=
          (List.append_assoc _ [none] [none]).symm
        obtain ⟨queue', hpop, -⟩ := (hslots ▸ hspans : queue.Spans _).popBack_concat
        rw [Queue.call, hpop, List.append_nil] at hanswer
        rcases List.eq_nil_or_concat left with rfl | ⟨left, val, rfl⟩
        · cases hanswer
        · rw [List.concat_eq_append, Deque.call_popBack_concat] at hanswer
          cases hanswer
      · rw [List.concat_eq_append] at hspans hanswer ⊢
        have hslots : left.map some ++ none :: none :: (right ++ [val]).map some =
            left.map some ++ none :: none :: right.map some ++ [some val] := by simp
        obtain ⟨queue', hpop, hrest⟩ := (hslots ▸ hspans : queue.Spans _).popBack_concat
        rw [← List.append_assoc, Queue.call, hpop, Deque.call_popBack_concat]
        exact ⟨left, right, rfl, hrest⟩
  | clear => exact hasGap_clear queue

/-- The gap is seen from one of the ends. -/
theorem HasGap.not_shows (h : queue.HasGap vals) : ¬queue.Shows vals := by
  obtain ⟨left, right, rfl, hspans⟩ := h
  intro hshows
  cases right with
  | cons val right =>
      have hpeek := hshows.peek left.length
      rw [hspans.peek] at hpeek
      simp at hpeek
  | nil =>
      rcases List.eq_nil_or_concat left with rfl | ⟨left, val, rfl⟩
      · have hempty := hspans.empty_iff.mp (hshows.empty.mpr rfl)
        cases hempty
      · have hpeek := hshows.peekBack 0
        rw [hspans.peekBack] at hpeek
        simp at hpeek

/-- Without its size, the queue refines the list exactly until it is cleared. -/
theorem refinesButSize_iff (ops : List (DequeOp α)) : RefinesButSize ops ↔ .clear ∉ ops := by
  constructor
  · rintro ⟨hanswers, hshows⟩ hmem
    obtain ⟨past, more, rfl⟩ := List.append_of_mem hmem
    have hcleared := Deque.related (hasGap_clear (Deque.after call new past))
      (fun op _ _ hgap hanswer => hgap.call op hanswer)
      (List.cons.inj (Deque.answers_eq_right hanswers)).2
    rw [Deque.after_append, Deque.after_append] at hshows
    exact hcleared.not_shows hshows
  · intro h
    obtain ⟨hanswers, hholds⟩ := holds_of_not_clear h
    exact ⟨hanswers, hholds.shows⟩

/-- **The queue.** From a new queue, a sequence of calls is answered and seen as that of a list
exactly when it has no `clear` and leaves one element; but for the size, when it has no `clear`. -/
theorem refines_iff (ops : List (DequeOp α)) :
    (Refines ops ↔ .clear ∉ ops ∧ (Deque.after Deque.call [] ops).length = 1) ∧
      (RefinesButSize ops ↔ .clear ∉ ops) := by
  refine ⟨?_, refinesButSize_iff ops⟩
  rw [Refines, refinesButSize_iff]
  refine and_congr_right fun h => ?_
  rw [(holds_of_not_clear h).2.size_eq]
  omega

/-- A new queue has size 2, and a cleared one is not empty. -/
theorem not_refines : ¬Refines ([] : List (DequeOp Nat)) ∧
    ¬RefinesButSize [.push 1, DequeOp.clear] := by
  constructor
  · rintro ⟨-, hsize⟩
    cases hsize
  · rintro ⟨-, hshows⟩
    have hempty := hshows.empty.mpr rfl
    cases hempty

end ChatGames.Queue
