import Mathlib.Data.List.Basic

/-!
# Double-ended lists

What a double-ended queue is to answer: a list, and operations at both of its ends. An
implementation answers the same operations from states of its own; `answers_eq` and `related` carry
a relation between its states and the lists through a whole sequence of them.
-/

inductive DequeOp (α : Type*) where
  | push (val : α)
  | pushFront (val : α)
  | pop
  | popBack
  | clear

inductive DequeAnswer (α : Type*) where
  | done
  | popped (val : Option α)
  | raised

namespace Deque

/-! ### Sequences of operations -/

section Sequences

variable {σ τ ε ρ : Type*} (call : σ → ε → ρ × σ) (call' : τ → ε → ρ × τ)

def answers : σ → List ε → List ρ
  | _, [] => []
  | s, e :: es => (call s e).1 :: answers (call s e).2 es

def after (s : σ) (es : List ε) : σ := es.foldl (fun s e => (call s e).2) s

theorem length_answers (s : σ) (es : List ε) : (answers call s es).length = es.length := by
  induction es generalizing s with
  | nil => rfl
  | cons e es ih => exact congrArg (· + 1) (ih _)

theorem answers_append (s : σ) (es more : List ε) :
    answers call s (es ++ more) = answers call s es ++ answers call (after call s es) more := by
  induction es generalizing s with
  | nil => rfl
  | cons e es ih => exact congrArg ((call s e).1 :: ·) (ih _)

theorem after_append (s : σ) (es more : List ε) :
    after call s (es ++ more) = after call (after call s es) more := List.foldl_append

variable {call call'} {R : σ → τ → Prop} {s : σ} {t : τ} {es : List ε}

/-- Calls that agree from related states, and lead to related ones, agree all the way. -/
theorem answers_eq (h : R s t) (hcall : ∀ e ∈ es, ∀ s t, R s t →
      (call s e).1 = (call' t e).1 ∧ R (call s e).2 (call' t e).2) :
    answers call s es = answers call' t es ∧ R (after call s es) (after call' t es) := by
  induction es generalizing s t with
  | nil => exact ⟨rfl, h⟩
  | cons e es ih =>
      obtain ⟨hanswer, hnext⟩ := hcall e List.mem_cons_self s t h
      obtain ⟨hanswers, hafter⟩ := ih hnext fun e' he' => hcall e' (List.mem_cons_of_mem _ he')
      exact ⟨congrArg₂ List.cons hanswer hanswers, hafter⟩

/-- If calls lead to related states only when they agree, and they did, the states are related. -/
theorem related (h : R s t) (hcall : ∀ e s t, R s t → (call s e).1 = (call' t e).1 →
      R (call s e).2 (call' t e).2) (hanswers : answers call s es = answers call' t es) :
    R (after call s es) (after call' t es) := by
  induction es generalizing s t with
  | nil => exact h
  | cons e es ih =>
      obtain ⟨hanswer, hrest⟩ := List.cons.inj hanswers
      exact ih (hcall e s t h hanswer) hrest

/-- What agrees to the end of a sequence agrees from its middle on. -/
theorem answers_eq_right {more : List ε}
    (h : answers call s (es ++ more) = answers call' t (es ++ more)) :
    answers call (after call s es) more = answers call' (after call' t es) more := by
  rw [answers_append, answers_append] at h
  apply List.append_inj_right h
  rw [length_answers, length_answers]

end Sequences

/-! ### The operations of a list -/

variable {α : Type*}

def call (vals : List α) : DequeOp α → DequeAnswer α × List α
  | .push val => (.done, vals ++ [val])
  | .pushFront val => (.done, val :: vals)
  | .pop =>
      match vals with
      | [] => (.raised, [])
      | val :: vals => (.popped (some val), vals)
  | .popBack =>
      match vals.getLast? with
      | none => (.raised, vals)
      | some val => (.popped (some val), vals.dropLast)
  | .clear => (.done, [])

@[simp]
theorem call_popBack_nil : call ([] : List α) .popBack = (.raised, []) := rfl

@[simp]
theorem call_popBack_concat (vals : List α) (val : α) :
    call (vals ++ [val]) .popBack = (.popped (some val), vals) := by
  rw [call, List.getLast?_concat, List.dropLast_concat]

end Deque
