import Mathlib.Data.Rat.Floor
import Mathlib.Logic.Function.Basic

/-!
# The main loop

The function that `love.run` returns, and `scenes.enter`. A frame lets the clock of the current
scene catch up in steps of `fixedDt`, and polls all events in each of them. What the functions of a
scene do is a parameter: they change the state of the application and enter scenes as they please.
Times are exact.
-/

namespace ChatGames

/-- What a function of a scene does: it goes on from every call of `scenes.enter`. -/
inductive Script (ν α : Type) where
  | stop (app : α)
  | enter (app : α) (scene : ν) (rest : α → Script ν α)

inductive LoveEvent (ε : Type) where
  | quit (status : Option Int)
  | input (event : ε)

/-- The functions of the scenes, where they have them, and LÖVE's own event handlers. -/
structure Scenes (ν ε α : Type) where
  tick : ν → Option (α → Script ν α)
  input : ν → ε → Option (α → Script ν α)
  draw : ν → α → α
  enter : ν → Option (α → α)
  exit : ν → Option (Option ν → α → α)
  handlers : ε → α → α

/-- A call of a scene's `tick`, or of its function for an event. No code reads it: whether the clock
of the scene was still behind, and the current scene before and after. -/
structure SceneCall (ν : Type) where
  scene : ν
  isTick : Bool
  behind : Bool
  before : ν
  after : ν
deriving DecidableEq

structure World (ν α : Type) where
  current : ν
  realTime : ν → ℚ
  simTime : ν → ℚ
  frameCounter : ν → Nat
  app : α
  calls : List (SceneCall ν)

/-- What a frame finds: the events of each poll, and the time since the last frame. -/
structure FrameInput (ε : Type) where
  polls : Nat → List (LoveEvent ε)
  dt : ℚ
  dt_nonneg : 0 ≤ dt
  active : Bool

def fixedDt : ℚ := 1 / 60

/-- `ülp.call` of a function that enters no scene. -/
def callPlain {α : Type} (func : Option (α → α)) (app : α) : α :=
  match func with
  | some func => func app
  | none => app

namespace World

variable {ν ε α : Type} [DecidableEq ν] (scenes : Scenes ν ε α)

/-- After `love.load`. -/
def loaded (scene : ν) (app : α) : World ν α := ⟨scene, fun _ => 0, fun _ => 0, fun _ => 0, app, []⟩

def setApp (s : World ν α) (app : α) : World ν α := { s with app := app }

/-- `mod.enter` -/
def enter (s : World ν α) (scene : ν) : World ν α :=
  let app := callPlain ((scenes.exit s.current).map fun exit => exit (some scene)) s.app
  { s with
    current := scene
    app := callPlain (scenes.enter scene) app }

def runScript (s : World ν α) : Script ν α → World ν α
  | .stop app => s.setApp app
  | .enter app scene rest =>
      let s := (s.setApp app).enter scenes scene
      s.runScript (rest s.app)

def behind (s : World ν α) (scene : ν) : Bool := s.simTime scene ≤ s.realTime scene

/-- `ülp.call` of a function of the scene. -/
def call (s : World ν α) (scene : ν) (isTick : Bool) (func : Option (α → Script ν α)) :
    World ν α :=
  match func with
  | none => s
  | some func =>
      let s' := s.runScript scenes (func s.app)
      { s' with calls := s'.calls ++
        [⟨scene, isTick, s.behind scene, s.current, s'.current⟩] }

/-- The loop over `love.event.poll()`, and what a quit event makes the frame return. -/
def pollEvents (scene : ν) : List (LoveEvent ε) → World ν α → World ν α × Option Int
  | [], s => (s, none)
  | .quit status :: _, s =>
      (s.setApp (callPlain ((scenes.exit scene).map fun exit => exit none) s.app),
        some (status.getD 0))
  | .input event :: events, s =>
      pollEvents scene events
        ((s.setApp (scenes.handlers event s.app)).call scenes scene false
          (scenes.input scene event))

def advance (s : World ν α) (scene : ν) : World ν α :=
  { s with
    simTime := Function.update s.simTime scene (s.simTime scene + fixedDt)
    frameCounter := Function.update s.frameCounter scene (s.frameCounter scene + 1) }

/-- The `while` loop of a frame, for at most `fuel` tests of its condition. -/
def tickLoop (scene : ν) (polls : Nat → List (LoveEvent ε)) :
    Nat → Nat → World ν α → Option (World ν α × Option Int)
  | 0, _, _ => none
  | fuel + 1, i, s =>
      if s.behind scene then
        match pollEvents scenes scene (polls i) (s.advance scene) with
        | (s, some status) => some (s, some status)
        | (s, none) =>
            tickLoop scene polls fuel (i + 1) (s.call scenes scene true (scenes.tick scene))
      else
        some (s, none)

/-- Tests of the condition that are enough. -/
def fuel (s : World ν α) (scene : ν) : Nat :=
  ⌊(s.realTime scene - s.simTime scene) / fixedDt⌋₊ + 2

/-- The rest of a frame. -/
def present (s : World ν α) (scene : ν) (input : FrameInput ε) : World ν α :=
  { s with
    realTime := Function.update s.realTime scene (s.realTime scene + input.dt)
    app := if input.active then scenes.draw scene s.app else s.app }

/-- One call of the frame function, and the status it returns when it quits. -/
def frame (s : World ν α) (input : FrameInput ε) : Option (World ν α × Option Int) :=
  let scene := s.current
  match tickLoop scenes scene input.polls (s.fuel scene) 0 s with
  | none => none
  | some (s, some status) => some (s, some status)
  | some (s, none) => some (s.present scenes scene input, none)

/-- Frames until one of them quits. -/
def runFrames : List (FrameInput ε) → World ν α → Option (World ν α)
  | [], s => some s
  | input :: inputs, s =>
      match s.frame scenes input with
      | none => none
      | some (s, some _) => some s
      | some (s, none) => runFrames inputs s

end World

end ChatGames
