import Mathlib.Data.List.Forall2

/-!
# Outcomes of fallible programs

`Ends x Q E` says that a program in `Except` ends in a result with `Q` or in an error with `E`. Its
rules follow the program: `bind` for a sequence, `foldlM` for a loop and its invariant. A loop that
makes one element of each relates two lists with `List.Forall₂`, and `Pointwise` is about that.
-/

namespace Outcome

variable {ε α β : Type} {x : Except ε α} {f : α → Except ε β}

theorem bind_eq_ok {b : β} : (x >>= f) = .ok b ↔ ∃ a, x = .ok a ∧ f a = .ok b := by
  cases x <;> simp [bind, Except.bind]

def Ends (x : Except ε α) (Q : α → Prop) (E : ε → Prop) : Prop :=
  match x with
  | .ok a => Q a
  | .error error => E error

variable {Q Q' : α → Prop} {R : β → Prop} {E : ε → Prop}

theorem ends_ok {a : α} (h : Q a) : Ends (.ok a) Q E := h

theorem ends_error {error : ε} (h : E error) : Ends (.error error) Q E := h

theorem ends_true_iff :
    Ends x (fun _ => True) E ↔ ∀ error, x = .error error → E error := by
  cases x with
  | ok a => exact iff_of_true trivial fun error h => by cases h
  | error error =>
      constructor
      · intro h error' heq
        cases heq
        exact h
      · intro h
        exact h error rfl

theorem Ends.bind (hx : Ends x Q E) (hf : ∀ a, x = .ok a → Q a → Ends (f a) R E) :
    Ends (x >>= f) R E := by
  cases x with
  | ok a => exact hf a rfl hx
  | error error => exact hx

theorem Ends.imp (hx : Ends x Q E) (h : ∀ a, Q a → Q' a) : Ends x Q' E := by
  cases x with
  | ok a => exact h a hx
  | error error => exact hx

theorem ends_foldlM {step : β → α → Except ε β} (hstep : ∀ b a, R b → Ends (step b a) R E)
    (list : List α) {b : β} (hb : R b) : Ends (list.foldlM step b) R E := by
  induction list generalizing b with
  | nil => exact hb
  | cons a list ih =>
      rw [List.foldlM_cons]
      exact (hstep b a hb).bind fun b' _ hb' => ih hb'

end Outcome

namespace Pointwise

variable {α β : Type*} {R : α → β → Prop} {l : List α} {bs : List β}

theorem exists_forall₂ (h : ∀ a ∈ l, ∃ b, R a b) : ∃ bs, List.Forall₂ R l bs := by
  induction l with
  | nil => exact ⟨[], .nil⟩
  | cons a l ih =>
      obtain ⟨b, hb⟩ := h a List.mem_cons_self
      obtain ⟨bs, hbs⟩ := ih fun a ha => h a (List.mem_cons_of_mem _ ha)
      exact ⟨b :: bs, .cons hb hbs⟩

theorem exists_right (h : List.Forall₂ R l bs) {a : α} (ha : a ∈ l) : ∃ b ∈ bs, R a b := by
  induction h with
  | nil => cases ha
  | cons hfirst _ ih =>
      rcases List.mem_cons.mp ha with rfl | ha
      · exact ⟨_, List.mem_cons_self, hfirst⟩
      · obtain ⟨b, hb, hab⟩ := ih ha
        exact ⟨b, List.mem_cons_of_mem _ hb, hab⟩

theorem forall_right {S : β → Prop} (h : List.Forall₂ R l bs) (hS : ∀ a b, R a b → S b) :
    ∀ b ∈ bs, S b := by
  intro b hb
  obtain ⟨a, -, hab⟩ := exists_right h.flip hb
  exact hS a b hab

theorem mapM_eq_pure {m : Type → Type} [Monad m] [LawfulMonad m] {α β : Type} {f : α → m β}
    {l : List α} {bs : List β} (h : List.Forall₂ (fun a b => f a = pure b) l bs) :
    l.mapM f = pure bs := by
  induction h with
  | nil => rw [List.mapM_nil]
  | cons hfirst _ ih => rw [List.mapM_cons, hfirst, ih, pure_bind, pure_bind]

end Pointwise
