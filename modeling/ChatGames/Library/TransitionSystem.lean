import Mathlib.Data.List.Infix

/-!
# Runs of a guarded step function

A system is an initial state and an executable step; an event that is not enabled has no successor.
Two accounts of a run are used. `ReachableWhile` collects the states of the runs whose steps all
meet a side condition, and carries invariants. `run` replays a list of events, and
`forall_prefix_iff` turns a step that is exact about a property into a whole run that is exact
about it.
-/

structure TransitionSystem (σ ε : Type*) where
  init : σ
  step : σ → ε → Option σ

namespace TransitionSystem

variable {σ ε : Type*} (sys : TransitionSystem σ ε)

/-- The states of the runs in which every step meets `cond`. -/
inductive ReachableWhile (cond : σ → ε → Prop) : σ → Prop
  | init : ReachableWhile cond sys.init
  | step {s s' : σ} {e : ε} : ReachableWhile cond s → cond s e → sys.step s e = some s' →
      ReachableWhile cond s'

def Reachable : σ → Prop := sys.ReachableWhile fun _ _ => True

variable {sys}

theorem ReachableWhile.mono {cond cond' : σ → ε → Prop} (hcond : ∀ s e, cond s e → cond' s e)
    {s : σ} (h : sys.ReachableWhile cond s) : sys.ReachableWhile cond' s := by
  induction h with
  | init => exact .init
  | step _ hs hstep ih => exact ih.step (hcond _ _ hs) hstep

theorem ReachableWhile.reachable {cond : σ → ε → Prop} {s : σ} (h : sys.ReachableWhile cond s) :
    sys.Reachable s := h.mono fun _ _ _ => trivial

theorem ReachableWhile.invariant {cond : σ → ε → Prop} (I : σ → Prop) (hinit : I sys.init)
    (hstep : ∀ s e s', I s → cond s e → sys.step s e = some s' → I s') {s : σ}
    (h : sys.ReachableWhile cond s) : I s := by
  induction h with
  | init => exact hinit
  | step _ hcond hs ih => exact hstep _ _ _ ih hcond hs

theorem Reachable.invariant (I : σ → Prop) (hinit : I sys.init)
    (hstep : ∀ s e s', I s → sys.step s e = some s' → I s') {s : σ} (h : sys.Reachable s) : I s :=
  ReachableWhile.invariant I hinit (fun s e s' hI _ hs => hstep s e s' hI hs) h

/-! ### Replaying events -/

variable (sys)

def runFrom (s : σ) (events : List ε) : Option σ := events.foldlM sys.step s

def run (events : List ε) : Option σ := sys.runFrom sys.init events

variable {sys}

@[simp]
theorem runFrom_nil (s : σ) : sys.runFrom s [] = some s := rfl

theorem runFrom_cons (s : σ) (e : ε) (events : List ε) :
    sys.runFrom s (e :: events) = (sys.step s e).bind fun s' => sys.runFrom s' events := rfl

theorem runFrom_cons_eq_some {s s'' : σ} {e : ε} {events : List ε} :
    sys.runFrom s (e :: events) = some s'' ↔
      ∃ s', sys.step s e = some s' ∧ sys.runFrom s' events = some s'' := by
  rw [runFrom_cons, Option.bind_eq_some_iff]

theorem run_concat_eq_some {events : List ε} {e : ε} {s' : σ} :
    sys.run (events ++ [e]) = some s' ↔ ∃ s, sys.run events = some s ∧ sys.step s e = some s' := by
  rw [run, runFrom, List.foldlM_append]
  change ((sys.run events).bind fun s => [e].foldlM sys.step s) = some s' ↔ _
  simp [Option.bind_eq_some_iff]

theorem reachableWhile_of_run {cond : σ → ε → Prop} {events : List ε} {s : σ}
    (h : sys.run events = some s) (hcond : ∀ e ∈ events, ∀ s, cond s e) :
    sys.ReachableWhile cond s := by
  induction events using List.reverseRecOn generalizing s with
  | nil =>
      obtain rfl : sys.init = s := Option.some.inj h
      exact .init
  | append_singleton events e ih =>
      obtain ⟨s₀, hrun, hstep⟩ := run_concat_eq_some.mp h
      have hbefore := ih hrun fun e' he' => hcond e' (List.mem_append_left _ he')
      exact hbefore.step (hcond e (by simp) s₀) hstep

theorem reachable_of_run {events : List ε} {s : σ} (h : sys.run events = some s) :
    sys.Reachable s := reachableWhile_of_run h fun _ _ _ => trivial

/-- Replays events and stops at the first one that does not meet `cond`. -/
def runWhile (sys : TransitionSystem σ ε) (cond : σ → ε → Prop) [∀ s e, Decidable (cond s e)]
    (events : List ε) : Option σ :=
  events.foldlM (fun s e => if cond s e then sys.step s e else none) sys.init

theorem reachableWhile_of_runWhile {cond : σ → ε → Prop} [∀ s e, Decidable (cond s e)]
    {events : List ε} {s : σ} (h : sys.runWhile cond events = some s) :
    sys.ReachableWhile cond s := by
  induction events using List.reverseRecOn generalizing s with
  | nil =>
      obtain rfl : sys.init = s := Option.some.inj h
      exact .init
  | append_singleton events e ih =>
      rw [runWhile, List.foldlM_append] at h
      obtain ⟨s₀, hrun, hstep⟩ := Option.bind_eq_some_iff.mp h
      rw [List.foldlM_cons] at hstep
      obtain ⟨s₁, hguard, hs₁⟩ := Option.bind_eq_some_iff.mp hstep
      obtain rfl : s₁ = s := Option.some.inj hs₁
      split at hguard
      · rename_i hcond
        exact (ih hrun).step hcond hguard
      · cases hguard

/-- What evaluation finds of the state a replay ends in and of one more step. -/
theorem exists_step_of_any (sys : TransitionSystem σ ε) {replayed : Option σ} (e : ε)
    {P Q : σ → Prop} [DecidablePred P] [DecidablePred Q]
    (h : replayed.any (fun s => decide (P s) && (sys.step s e).any fun s' => decide (Q s')) =
      true) :
    ∃ s s', replayed = some s ∧ P s ∧ sys.step s e = some s' ∧ Q s' := by
  obtain ⟨s, hs, hstate⟩ := (Option.any_eq_true _ _).mp h
  obtain ⟨hP, hnext⟩ := (Bool.and_eq_true _ _).mp hstate
  obtain ⟨s', hstep, hQ⟩ := (Option.any_eq_true _ _).mp hnext
  exact ⟨s, s', hs, of_decide_eq_true hP, hstep, of_decide_eq_true hQ⟩

/-! ### Two systems in lockstep -/

/-- Under an invariant of the first one, two systems whose related states have related successors
under every event, or both none, have related runs. -/
theorem rel_runFrom {σ' : Type*} {sys' : TransitionSystem σ' ε} {I : σ → Prop} {R : σ → σ' → Prop}
    {events : List ε} {s : σ} {s' : σ'} (hI : I s) (hR : R s s')
    (hinv : ∀ e ∈ events, ∀ s next, I s → sys.step s e = some next → I next)
    (hstep : ∀ e ∈ events, ∀ s s', I s → R s s' → Option.Rel R (sys.step s e) (sys'.step s' e)) :
    Option.Rel R (sys.runFrom s events) (sys'.runFrom s' events) := by
  induction events generalizing s s' with
  | nil => exact .some hR
  | cons e events ih =>
      obtain ⟨hfirst, hrest⟩ := List.forall_mem_cons.mp hstep
      obtain ⟨hkept, hinv⟩ := List.forall_mem_cons.mp hinv
      have hnext := hfirst s s' hI hR
      rw [runFrom_cons, runFrom_cons]
      generalize hs : sys.step s e = next, sys'.step s' e = next' at hnext
      cases hnext with
      | none => exact .none
      | some hnext => exact ih (hkept s _ hI hs) hnext hinv hrest

/-! ### Properties of the steps of a run -/

def Throughout (sys : TransitionSystem σ ε) (P : σ → ε → Prop) : σ → List ε → Prop
  | _, [] => True
  | s, e :: events => P s e ∧ ∀ s' ∈ sys.step s e, sys.Throughout P s' events

instance decidableThroughout (sys : TransitionSystem σ ε) (P : σ → ε → Prop)
    [∀ s e, Decidable (P s e)] : ∀ s events, Decidable (sys.Throughout P s events)
  | _, [] => isTrue trivial
  | s, e :: events =>
      have : ∀ s', Decidable (sys.Throughout P s' events) := fun s' =>
        decidableThroughout sys P s' events
      inferInstanceAs (Decidable (P s e ∧ ∀ s' ∈ sys.step s e, sys.Throughout P s' events))

theorem Throughout.concat {sys : TransitionSystem σ ε} {P : σ → ε → Prop} {s : σ} {events : List ε}
    {e : ε} (h : sys.Throughout P s (events ++ [e])) :
    sys.Throughout P s events ∧ ∀ s' ∈ sys.runFrom s events, P s' e := by
  induction events generalizing s with
  | nil =>
      refine ⟨trivial, fun s' hs' => ?_⟩
      obtain rfl : s = s' := Option.some.inj hs'
      exact h.1
  | cons first events ih =>
      refine ⟨⟨h.1, fun s₁ hs₁ => (ih (h.2 s₁ hs₁)).1⟩, fun s' hs' => ?_⟩
      obtain ⟨s₁, hs₁, hrun⟩ := runFrom_cons_eq_some.mp hs'
      exact (ih (h.2 s₁ hs₁)).2 s' hrun

end TransitionSystem

/-- A property of histories that each further event keeps exactly under `cond` holds at every
prefix of a history exactly when every event of the history meets `cond`. -/
theorem forall_prefix_iff {ε : Type*} {P : List ε → Prop} {cond : List ε → ε → Prop} (hnil : P [])
    (hconcat : ∀ events e, P events → (P (events ++ [e]) ↔ cond events e)) (events : List ε) :
    (∀ past, past <+: events → P past) ↔
      ∀ past e, past ++ [e] <+: events → cond past e := by
  constructor
  · intro h past e hpast
    exact (hconcat past e (h past ((List.prefix_append past [e]).trans hpast))).mp (h _ hpast)
  · intro h past
    induction past using List.reverseRecOn with
    | nil => exact fun _ => hnil
    | append_singleton past e ih =>
        intro hpast
        have hP := ih ((List.prefix_append past [e]).trans hpast)
        exact (hconcat past e hP).mpr (h past e hpast)

namespace TransitionSystem

variable {σ ε : Type*} {sys : TransitionSystem σ ε}

/-- **Exact runs.** Under an invariant of all runs, a property that a step keeps exactly when the
step meets `cond` holds in every state of a run exactly when all steps of the run meet `cond`. -/
theorem forall_state_iff {I P : σ → Prop} {cond : σ → ε → Prop}
    (hinv : ∀ s, sys.Reachable s → I s) (hinit : P sys.init)
    (hstep : ∀ s e s', I s → P s → sys.step s e = some s' → (P s' ↔ cond s e))
    (events : List ε) :
    (∀ past, past <+: events → ∀ s, sys.run past = some s → P s) ↔
      ∀ past e, past ++ [e] <+: events → ∀ s s', sys.run past = some s → sys.step s e = some s' →
        cond s e := by
  refine forall_prefix_iff (P := fun past => ∀ s, sys.run past = some s → P s)
    ?_ ?_ events
  · intro s hs
    obtain rfl : sys.init = s := Option.some.inj hs
    exact hinit
  · intro past e hP
    constructor
    · intro hnext s s' hrun hs
      exact (hstep s e s' (hinv s (reachable_of_run hrun)) (hP s hrun) hs).mp
        (hnext s' (run_concat_eq_some.mpr ⟨s, hrun, hs⟩))
    · intro hcond s' hrun'
      obtain ⟨s, hrun, hs⟩ := run_concat_eq_some.mp hrun'
      exact (hstep s e s' (hinv s (reachable_of_run hrun)) (hP s hrun) hs).mpr
        (hcond s s' hrun hs)

end TransitionSystem
