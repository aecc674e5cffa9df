import ChatGames.MainLoop
import Mathlib.Tactic.Linarith

/-!
# Switching scenes

A frame takes the current scene once, when it begins. If one of the scene's functions enters another
scene, the frame goes on with the old one, until it has polled the events and called the tick of
every step the clock is behind. So a switch comes in time only from the tick of the last step.
-/

namespace ChatGames

/-- The function that was called belongs to the current scene. -/
def SceneCall.OfCurrent {ν : Type} (call : SceneCall ν) : Prop := call.before = call.scene

/-- The call leaves the scene the current one, or is a tick that is not behind. -/
def SceneCall.InTime {ν : Type} (call : SceneCall ν) : Prop :=
  call.after = call.scene ∨ call.isTick = true ∧ call.behind = false

def Scenes.AllTick {ν ε α : Type} (scenes : Scenes ν ε α) : Prop :=
  ∀ scene, (scenes.tick scene).isSome = true

/-- No poll of the frame has a quit event. -/
def FrameInput.NeverQuits {ε : Type} (input : FrameInput ε) : Prop :=
  ∀ i status, .quit status ∉ input.polls i

namespace World

variable {ν ε α : Type} {scenes : Scenes ν ε α} {s s' : World ν α} {scene : ν}

/-! ### What calls leave alone -/

theorem runScript_eq (scenes : Scenes ν ε α) (script : Script ν α) (s : World ν α) :
    (s.runScript scenes script).calls = s.calls ∧
      (s.runScript scenes script).realTime = s.realTime ∧
        (s.runScript scenes script).simTime = s.simTime := by
  induction script generalizing s with
  | stop app => exact ⟨rfl, rfl, rfl⟩
  | enter app entered rest ih =>
      obtain ⟨hcalls, hrealTime, hsimTime⟩ :=
        ih ((s.setApp app).enter scenes entered).app ((s.setApp app).enter scenes entered)
      exact ⟨hcalls, hrealTime, hsimTime⟩

/-- The clocks of two states agree. -/
def SameClocks (s s' : World ν α) : Prop := s'.realTime = s.realTime ∧ s'.simTime = s.simTime

theorem SameClocks.behind (h : s.SameClocks s') (scene : ν) : s'.behind scene = s.behind scene := by
  rw [World.behind, h.1, h.2, World.behind]

/-- A function that is there is called once, and one that is not there leaves everything alone. -/
theorem call_cases (scenes : Scenes ν ε α) (s : World ν α) (scene : ν) (isTick : Bool)
    (func : Option (α → Script ν α)) :
    (func = none ∧ s.call scenes scene isTick func = s) ∨
      func.isSome = true ∧ s.SameClocks (s.call scenes scene isTick func) ∧
        (s.call scenes scene isTick func).calls = s.calls ++
          [⟨scene, isTick, s.behind scene, s.current,
            (s.call scenes scene isTick func).current⟩] := by
  cases func with
  | none => exact Or.inl ⟨rfl, rfl⟩
  | some func =>
      obtain ⟨hcalls, hclocks⟩ := runScript_eq scenes (func s.app) s
      exact Or.inr ⟨rfl, hclocks, congrArg (· ++ _) hcalls⟩

/-! ### Polling -/

/-- From one state to another the functions in `new` were called, all of them for events. -/
structure Polled (scene : ν) (s s' : World ν α) (new : List (SceneCall ν)) : Prop where
  calls : s'.calls = s.calls ++ new
  clocks : s.SameClocks s'
  forward : s.current = scene → (∀ call ∈ new, call.InTime) →
    (∀ call ∈ new, call.OfCurrent) ∧ s'.current = scene
  backward : s'.current = scene → (∀ call ∈ new, call.OfCurrent) →
    s.current = scene ∧ ∀ call ∈ new, call.InTime

theorem Polled.of_eq (hcalls : s'.calls = s.calls) (hclocks : s.SameClocks s')
    (hcurrent : s'.current = s.current) : Polled scene s s' [] where
  calls := by rw [hcalls, List.append_nil]
  clocks := hclocks
  forward hscene _ := ⟨fun _ hcall => absurd hcall List.not_mem_nil, hcurrent.trans hscene⟩
  backward hscene _ :=
    ⟨hcurrent.symm.trans hscene, fun _ hcall => absurd hcall List.not_mem_nil⟩

theorem Polled.trans {s'' : World ν α} {new new' : List (SceneCall ν)} (h : Polled scene s s' new)
    (h' : Polled scene s' s'' new') : Polled scene s s'' (new ++ new') where
  calls := by rw [h'.calls, h.calls, List.append_assoc]
  clocks := ⟨h'.clocks.1.trans h.clocks.1, h'.clocks.2.trans h.clocks.2⟩
  forward hscene htime := by
    obtain ⟨hnew, hnew'⟩ := List.forall_mem_append.mp htime
    obtain ⟨hof, hscene'⟩ := h.forward hscene hnew
    obtain ⟨hof', hscene''⟩ := h'.forward hscene' hnew'
    exact ⟨List.forall_mem_append.mpr ⟨hof, hof'⟩, hscene''⟩
  backward hscene hof := by
    obtain ⟨hnew, hnew'⟩ := List.forall_mem_append.mp hof
    obtain ⟨hscene', htime'⟩ := h'.backward hscene hnew'
    obtain ⟨hscene₀, htime⟩ := h.backward hscene' hnew
    exact ⟨hscene₀, List.forall_mem_append.mpr ⟨htime, htime'⟩⟩

theorem exists_polled_call (scenes : Scenes ν ε α) (s : World ν α) (scene : ν)
    (func : Option (α → Script ν α)) :
    ∃ new, Polled scene s (s.call scenes scene false func) new := by
  rcases call_cases scenes s scene false func with ⟨-, hcall⟩ | ⟨-, hclocks, hcalls⟩
  · rw [hcall]
    exact ⟨[], .of_eq rfl ⟨rfl, rfl⟩ rfl⟩
  · refine ⟨_, hcalls, hclocks, ?_, ?_⟩
    · intro hscene htime
      rw [List.forall_mem_singleton] at htime ⊢
      rcases htime with hafter | ⟨htick, -⟩
      · exact ⟨hscene, hafter⟩
      · cases htick
    · intro hscene hof
      rw [List.forall_mem_singleton] at hof ⊢
      exact ⟨hof, Or.inl hscene⟩

theorem exists_polled (scenes : Scenes ν ε α) (scene : ν) (events : List (LoveEvent ε))
    (s : World ν α) : ∃ new, Polled scene s (pollEvents scenes scene events s).1 new := by
  induction events generalizing s with
  | nil => exact ⟨[], .of_eq rfl ⟨rfl, rfl⟩ rfl⟩
  | cons event events ih =>
      cases event with
      | quit status => exact ⟨[], .of_eq rfl ⟨rfl, rfl⟩ rfl⟩
      | input event =>
          let s₁ := s.setApp (scenes.handlers event s.app)
          have hhandled : Polled scene s s₁ [] := .of_eq rfl ⟨rfl, rfl⟩ rfl
          obtain ⟨new, hcalled⟩ := exists_polled_call scenes s₁ scene
            (scenes.input scene event)
          obtain ⟨new', hlater⟩ := ih (s₁.call scenes scene false (scenes.input scene event))
          exact ⟨_, (hhandled.trans hcalled).trans hlater⟩

theorem pollEvents_snd (scene : ν) {events : List (LoveEvent ε)}
    (h : ∀ status, .quit status ∉ events) (s : World ν α) :
    (pollEvents scenes scene events s).2 = none := by
  induction events generalizing s with
  | nil => rfl
  | cons event events ih =>
      cases event with
      | quit status => exact absurd List.mem_cons_self (h status)
      | input event =>
          exact ih (fun status hmem => h status (List.mem_cons_of_mem _ hmem)) _

/-! ### Catching up -/

/-- A tick is called, unless the scene has none. -/
theorem tick_cases (scenes : Scenes ν ε α) (s : World ν α) (scene : ν) :
    (scenes.tick scene = none ∧ s.call scenes scene true (scenes.tick scene) = s) ∨
      (scenes.tick scene).isSome = true ∧
        ∃ call, (s.call scenes scene true (scenes.tick scene)).calls = s.calls ++ [call] ∧
          (call.OfCurrent ↔ s.current = scene) ∧
          (call.InTime ↔ ((s.call scenes scene true (scenes.tick scene)).behind scene = true →
            (s.call scenes scene true (scenes.tick scene)).current = scene)) := by
  rcases call_cases scenes s scene true (scenes.tick scene) with hnone | ⟨hsome, hclocks, hcalls⟩
  · exact Or.inl hnone
  · refine Or.inr ⟨hsome, _, hcalls, Iff.rfl, ?_⟩
    rw [hclocks.behind]
    cases hbehind : s.behind scene <;> simp [SceneCall.InTime]

variable [DecidableEq ν] {polls : Nat → List (LoveEvent ε)} {status : Option Int}

/-- One round of the loop. -/
theorem tickLoop_cases (scenes : Scenes ν ε α) (polls : Nat → List (LoveEvent ε)) (fuel i : Nat)
    (s : World ν α) (scene : ν) :
    (s.behind scene = false ∧ s.tickLoop scenes scene polls (fuel + 1) i = some (s, none)) ∨
      s.behind scene = true ∧ ∃ new s', Polled scene (s.advance scene) s' new ∧
        ((∃ status, s.tickLoop scenes scene polls (fuel + 1) i = some (s', some status) ∧
            ∃ status, .quit status ∈ polls i) ∨
          s.tickLoop scenes scene polls (fuel + 1) i =
            (s'.call scenes scene true (scenes.tick scene)).tickLoop scenes scene polls fuel
              (i + 1)) := by
  rw [tickLoop]
  cases hbehind : s.behind scene with
  | false => exact Or.inl ⟨rfl, rfl⟩
  | true =>
      obtain ⟨new, hpolled⟩ := exists_polled scenes scene (polls i) (s.advance scene)
      refine Or.inr ⟨rfl, new, _, hpolled, ?_⟩
      rw [if_pos rfl]
      cases hquit : (pollEvents scenes scene (polls i) (s.advance scene)).2 with
      | none =>
          right
          rw [← Prod.mk.eta (p := pollEvents scenes scene (polls i) (s.advance scene)), hquit]
      | some status =>
          left
          refine ⟨status, ?_, ?_⟩
          · rw [← Prod.mk.eta (p := pollEvents scenes scene (polls i) (s.advance scene)), hquit]
          · by_contra hnever
            push Not at hnever
            rw [pollEvents_snd scene hnever] at hquit
            cases hquit

/-- The loop is entered in the current scene, if at all. -/
def Enters (s : World ν α) (scene : ν) : Prop := s.behind scene = true → s.current = scene

/-- The functions in `new` were called on the way through the loop. -/
structure CaughtUp (scenes : Scenes ν ε α) (polls : Nat → List (LoveEvent ε)) (scene : ν)
    (s s' : World ν α) (new : List (SceneCall ν)) : Prop where
  calls : s'.calls = s.calls ++ new
  forward : s.Enters scene → (∀ call ∈ new, call.InTime) → ∀ call ∈ new, call.OfCurrent
  backward : (scenes.tick scene).isSome = true → (∀ i status, .quit status ∉ polls i) →
    (∀ call ∈ new, call.OfCurrent) → s.Enters scene ∧ ∀ call ∈ new, call.InTime

/-- A round that polls the events and calls the tick, before the rest of the rounds. -/
theorem exists_caughtUp_tick {s₁ : World ν α} {new : List (SceneCall ν)}
    (hbehind : s.behind scene = true) (hpolled : Polled scene (s.advance scene) s₁ new)
    (hlater : ∃ new', CaughtUp scenes polls scene
      (s₁.call scenes scene true (scenes.tick scene)) s' new') :
    ∃ new, CaughtUp scenes polls scene s s' new := by
  obtain ⟨new', hcaught⟩ := hlater
  rcases tick_cases scenes s₁ scene with ⟨hnone, hcall⟩ | ⟨-, tick, hcalls, hof, htime⟩
  · rw [hcall] at hcaught
    refine ⟨new ++ new', ?_, ?_, ?_⟩
    · rw [hcaught.calls, hpolled.calls, List.append_assoc]
      rfl
    · intro henters hall
      obtain ⟨hnew, hnew'⟩ := List.forall_mem_append.mp hall
      obtain ⟨hnewOf, hcurrent⟩ := hpolled.forward (henters hbehind) hnew
      have hnewOf' := hcaught.forward (fun _ => hcurrent) hnew'
      exact List.forall_mem_append.mpr ⟨hnewOf, hnewOf'⟩
    · intro hsome
      rw [hnone] at hsome
      cases hsome
  · refine ⟨new ++ tick :: new', ?_, ?_, ?_⟩
    · rw [hcaught.calls, hcalls, hpolled.calls, List.append_assoc, List.append_assoc]
      rfl
    · intro henters hall
      obtain ⟨hnew, hrest⟩ := List.forall_mem_append.mp hall
      obtain ⟨htick, hnew'⟩ := List.forall_mem_cons.mp hrest
      obtain ⟨hnewOf, hcurrent⟩ := hpolled.forward (henters hbehind) hnew
      have hnewOf' := hcaught.forward (htime.mp htick) hnew'
      exact List.forall_mem_append.mpr
        ⟨hnewOf, List.forall_mem_cons.mpr ⟨hof.mpr hcurrent, hnewOf'⟩⟩
    · intro hsome hnever hall
      obtain ⟨hnew, hrest⟩ := List.forall_mem_append.mp hall
      obtain ⟨htick, hnew'⟩ := List.forall_mem_cons.mp hrest
      obtain ⟨hcurrent, hnewTime⟩ := hpolled.backward (hof.mp htick) hnew
      obtain ⟨henters', hnewTime'⟩ := hcaught.backward hsome hnever hnew'
      exact ⟨fun _ => hcurrent, List.forall_mem_append.mpr
        ⟨hnewTime, List.forall_mem_cons.mpr ⟨htime.mpr henters', hnewTime'⟩⟩⟩

theorem exists_caughtUp (scenes : Scenes ν ε α) (polls : Nat → List (LoveEvent ε)) (scene : ν)
    {fuel i : Nat} {s s' : World ν α} {status : Option Int}
    (h : s.tickLoop scenes scene polls fuel i = some (s', status)) :
    ∃ new, CaughtUp scenes polls scene s s' new := by
  induction fuel generalizing i s with
  | zero => cases h
  | succ fuel ih =>
      rcases tickLoop_cases scenes polls fuel i s scene with
        ⟨hbehind, hdone⟩ | ⟨hbehind, new, s₁, hpolled, hround⟩
      · rw [hdone] at h
        cases h
        refine ⟨[], (List.append_nil _).symm, ?_, ?_⟩
        · intro _ _ _ hcall
          exact absurd hcall List.not_mem_nil
        · intro _ _ _
          refine ⟨fun hbehind' => ?_, fun _ hcall => absurd hcall List.not_mem_nil⟩
          rw [hbehind] at hbehind'
          cases hbehind'
      · rcases hround with ⟨status', hquit, status'', hmem⟩ | hround
        · rw [hquit] at h
          cases h
          refine ⟨new, hpolled.calls, ?_, ?_⟩
          · intro henters htime
            exact (hpolled.forward (henters hbehind) htime).1
          · intro _ hnever
            exact absurd hmem (hnever i status'')
        · rw [hround] at h
          exact exists_caughtUp_tick hbehind hpolled (ih h)

/-! ### Returning -/

/-- Each round brings the clock of the scene forward by `fixedDt`. -/
theorem exists_tickLoop (scenes : Scenes ν ε α) (polls : Nat → List (LoveEvent ε)) (scene : ν)
    {fuel : Nat} (i : Nat) {s : World ν α}
    (h : s.realTime scene - s.simTime scene < fuel * fixedDt) :
    ∃ s' status, s.tickLoop scenes scene polls (fuel + 1) i = some (s', status) ∧
      (status = none → s.realTime scene < s'.simTime scene) ∧
        ((∀ i status, .quit status ∉ polls i) → status = none) := by
  induction fuel generalizing i s with
  | zero =>
      have hbehind : s.behind scene = false := by
        rw [World.behind, decide_eq_false_iff_not, not_le]
        push_cast at h
        linarith
      refine ⟨s, none, ?_, ?_, fun _ => rfl⟩
      · rw [tickLoop, hbehind]
        rfl
      · intro _
        rwa [World.behind, decide_eq_false_iff_not, not_le] at hbehind
  | succ fuel ih =>
      rcases tickLoop_cases scenes polls (fuel + 1) i s scene with
        ⟨hbehind, hdone⟩ | ⟨-, new, s₁, hpolled, hround⟩
      · rw [World.behind, decide_eq_false_iff_not, not_le] at hbehind
        exact ⟨s, none, hdone, fun _ => hbehind, fun _ => rfl⟩
      · rcases hround with ⟨status, hquit, status', hmem⟩ | hround
        · refine ⟨s₁, some status, hquit, ?_, ?_⟩
          · intro hnone
            cases hnone
          · intro hnever
            exact absurd hmem (hnever i status')
        · let s₂ := s₁.call scenes scene true (scenes.tick scene)
          have hclocks : (s.advance scene).SameClocks s₂ := by
            rcases call_cases scenes s₁ scene true (scenes.tick scene) with
              ⟨-, hcall⟩ | ⟨-, hclocks, -⟩
            · rw [show s₂ = s₁ from hcall]
              exact hpolled.clocks
            · exact ⟨hclocks.1.trans hpolled.clocks.1, hclocks.2.trans hpolled.clocks.2⟩
          have hreal : s₂.realTime scene = s.realTime scene := congrFun hclocks.1 scene
          have hsim : s₂.simTime scene = s.simTime scene + fixedDt :=
            (congrFun hclocks.2 scene).trans (Function.update_self ..)
          have hleft : s₂.realTime scene - s₂.simTime scene < fuel * fixedDt := by
            rw [hreal, hsim]
            push_cast at h
            linarith
          obtain ⟨s', status, hloop, hpast, hnever⟩ := ih (i + 1) hleft
          exact ⟨s', status, hround.trans hloop, fun hnone => hreal ▸ hpast hnone, hnever⟩

theorem exists_tickLoop_fuel (scenes : Scenes ν ε α) (s : World ν α) (scene : ν)
    (polls : Nat → List (LoveEvent ε)) :
    ∃ s' status, s.tickLoop scenes scene polls (s.fuel scene) 0 = some (s', status) ∧
      (status = none → s.realTime scene < s'.simTime scene) ∧
        ((∀ i status, .quit status ∉ polls i) → status = none) := by
  apply exists_tickLoop
  have hpos : (0 : ℚ) < fixedDt := by norm_num [fixedDt]
  have hfloor := Nat.lt_floor_add_one ((s.realTime scene - s.simTime scene) / fixedDt)
  rw [div_lt_iff₀ hpos] at hfloor
  push_cast
  exact hfloor

/-- The functions in `new` were called in a frame. -/
structure Framed (scenes : Scenes ν ε α) (input : FrameInput ε) (s s' : World ν α)
    (new : List (SceneCall ν)) : Prop where
  calls : s'.calls = s.calls ++ new
  forward : (∀ call ∈ new, call.InTime) → ∀ call ∈ new, call.OfCurrent
  backward : scenes.AllTick → input.NeverQuits → (∀ call ∈ new, call.OfCurrent) →
    ∀ call ∈ new, call.InTime

theorem exists_frame (scenes : Scenes ν ε α) (s : World ν α) (input : FrameInput ε) :
    ∃ s' status, s.frame scenes input = some (s', status) ∧
      (∃ new, Framed scenes input s s' new) ∧
        (status = none → s.realTime s.current < s'.simTime s.current) ∧
          (input.NeverQuits → status = none) := by
  obtain ⟨s₁, status, hloop, hpast, hnever⟩ :=
    exists_tickLoop_fuel scenes s s.current input.polls
  obtain ⟨new, hcaught⟩ := exists_caughtUp scenes input.polls s.current hloop
  have henters : s.Enters s.current := fun _ => rfl
  cases status with
  | some status =>
      refine ⟨s₁, some status, ?_, ⟨new, hcaught.calls, hcaught.forward henters, ?_⟩, hpast, hnever⟩
      · rw [frame, hloop]
      · intro htick hquits hof
        exact (hcaught.backward (htick _) hquits hof).2
  | none =>
      refine ⟨s₁.present scenes s.current input, none, ?_,
        ⟨new, hcaught.calls, hcaught.forward henters, ?_⟩, hpast, hnever⟩
      · rw [frame, hloop]
      · intro htick hquits hof
        exact (hcaught.backward (htick _) hquits hof).2

theorem exists_runFrames (scenes : Scenes ν ε α) (inputs : List (FrameInput ε)) (s : World ν α) :
    ∃ s', s.runFrames scenes inputs = some s' ∧ ∃ new, s'.calls = s.calls ++ new ∧
      ((∀ call ∈ new, call.InTime) → ∀ call ∈ new, call.OfCurrent) ∧
        (scenes.AllTick → (∀ input ∈ inputs, input.NeverQuits) →
          (∀ call ∈ new, call.OfCurrent) → ∀ call ∈ new, call.InTime) := by
  induction inputs generalizing s with
  | nil =>
      refine ⟨s, rfl, [], (List.append_nil _).symm, fun _ => ?_, fun _ _ _ => ?_⟩
      · exact fun _ hcall => absurd hcall List.not_mem_nil
      · exact fun _ hcall => absurd hcall List.not_mem_nil
  | cons input inputs ih =>
      obtain ⟨s₁, status, hframe, ⟨new, hframed⟩, -, hnever⟩ := exists_frame scenes s input
      cases status with
      | some status =>
          refine ⟨s₁, by rw [runFrames, hframe], new, hframed.calls, hframed.forward, ?_⟩
          intro _ hquits
          cases hnever (hquits input List.mem_cons_self)
      | none =>
          obtain ⟨s', hrun, new', hcalls, hforward, hbackward⟩ := ih s₁
          refine ⟨s', ?_, new ++ new', ?_, ?_, ?_⟩
          · rw [runFrames, hframe]
            exact hrun
          · rw [hcalls, hframed.calls, List.append_assoc]
          · intro htime
            obtain ⟨hnew, hnew'⟩ := List.forall_mem_append.mp htime
            exact List.forall_mem_append.mpr ⟨hframed.forward hnew, hforward hnew'⟩
          · intro htick hquits hof
            obtain ⟨hquit, hquits'⟩ := List.forall_mem_cons.mp hquits
            obtain ⟨hnew, hnew'⟩ := List.forall_mem_append.mp hof
            exact List.forall_mem_append.mpr
              ⟨hframed.backward htick hquit hnew, hbackward htick hquits' hnew'⟩

/-- Every frame that does not quit runs its scene past the time it had on entry. The functions of a
scene are called only while it is the current one, if every switch comes in time. -/
theorem switch_in_time (scenes : Scenes ν ε α) (scene : ν) (app : α)
    (inputs : List (FrameInput ε)) :
    (∀ (s : World ν α) (input : FrameInput ε), ∃ s' status,
      s.frame scenes input = some (s', status) ∧
        (status = none → s.realTime s.current < s'.simTime s.current) ∧
          (input.NeverQuits → status = none)) ∧
      ∃ s', (loaded scene app).runFrames scenes inputs = some s' ∧
        ((∀ call ∈ s'.calls, call.InTime) → ∀ call ∈ s'.calls, call.OfCurrent) ∧
          (scenes.AllTick → (∀ input ∈ inputs, input.NeverQuits) →
            (∀ call ∈ s'.calls, call.OfCurrent) → ∀ call ∈ s'.calls, call.InTime) := by
  constructor
  · intro s input
    obtain ⟨s', status, hframe, -, hpast, hnever⟩ := exists_frame scenes s input
    exact ⟨s', status, hframe, hpast, hnever⟩
  · obtain ⟨s', hrun, new, hcalls, hforward, hbackward⟩ :=
      exists_runFrames scenes inputs (loaded scene app)
    have hcalls' : s'.calls = new := hcalls
    refine ⟨s', hrun, ?_, ?_⟩
    · rw [hcalls']
      exact hforward
    · rw [hcalls']
      exact hbackward

/-! ### The scenes of the client -/

inductive ClientScene where
  | createJoinLobby
  | waitForJoin
  | lobby
deriving DecidableEq

/-- The scenes as far as they enter one another: the key `c` creates a lobby, and the first tick of
`waitForJoin` finds that the client has joined it. -/
def clientScenes : Scenes ClientScene String Unit where
  tick
    | .createJoinLobby => some .stop
    | .waitForJoin => some fun app => .enter app .lobby .stop
    | .lobby => some .stop
  input
    | .createJoinLobby, "c" => some fun app => .enter app .waitForJoin .stop
    | _, _ => none
  draw _ app := app
  enter _ := none
  exit _ := none
  handlers _ app := app

/-- A frame whose first poll finds the key, if it is pressed. -/
def keyFrame (pressed : Bool) : FrameInput String where
  polls i := if pressed && i == 0 then [.input "c"] else []
  dt := fixedDt
  dt_nonneg := by norm_num [fixedDt]
  active := true

theorem switch_in_time_waitForJoin :
    ∃ s', (loaded .waitForJoin ()).runFrames clientScenes [keyFrame false, keyFrame false] =
        some s' ∧ s'.calls.length = 2 ∧ ∀ call ∈ s'.calls, call.OfCurrent := by
  have hcalls : ((loaded .waitForJoin ()).runFrames clientScenes
      [keyFrame false, keyFrame false]).map World.calls =
        some [⟨.waitForJoin, true, false, .waitForJoin, .lobby⟩,
          ⟨.lobby, true, false, .lobby, .lobby⟩] := by decide +kernel
  obtain ⟨-, s', hrun, hforward, -⟩ :=
    switch_in_time clientScenes .waitForJoin () [keyFrame false, keyFrame false]
  rw [hrun, Option.map_some, Option.some_inj] at hcalls
  refine ⟨s', hrun, ?_, hforward ?_⟩
  · rw [hcalls]
    rfl
  · rw [hcalls]
    exact List.forall_mem_cons.mpr ⟨Or.inr ⟨rfl, rfl⟩, List.forall_mem_singleton.mpr (Or.inl rfl)⟩

/-- The tick of the old scene is called after the key has entered the new one. -/
theorem not_switch_in_time :
    ∃ s', (loaded .createJoinLobby ()).runFrames clientScenes [keyFrame true] = some s' ∧
      ∃ call ∈ s'.calls, ¬ call.OfCurrent := by
  have hcalls : ((loaded .createJoinLobby ()).runFrames clientScenes [keyFrame true]).map
      World.calls = some [⟨.createJoinLobby, false, false, .createJoinLobby, .waitForJoin⟩,
        ⟨.createJoinLobby, true, false, .waitForJoin, .waitForJoin⟩] := by decide +kernel
  obtain ⟨s', hrun, hcalls'⟩ := Option.map_eq_some_iff.mp hcalls
  refine ⟨s', hrun, ⟨.createJoinLobby, true, false, .waitForJoin, .waitForJoin⟩, ?_, ?_⟩
  · rw [hcalls']
    exact List.mem_cons_of_mem _ List.mem_cons_self
  · intro hof
    cases hof

end World

end ChatGames
