import ChatGames.Proof.Switching
import Mathlib.Algebra.Order.BigOperators.Group.List
import Mathlib.Algebra.Order.Floor.Semifield

/-!
# A fixed step

A scene is ticked once for each `fixedDt` of the frames that began in it, however the time was cut
into frames and whatever scene was entered in between. The time of the last frame still counts for
nothing: it is added to the clock behind the loop.
-/

namespace ChatGames.World

variable {ν ε α : Type} [DecidableEq ν]

/-- How often the scene's `tick` was called. -/
def ticks (s : World ν α) (scene : ν) : Nat :=
  s.calls.countP fun call => call.isTick && decide (call.scene = scene)

variable {scenes : Scenes ν ε α} {s s' s'' : World ν α} {scene : ν}

/-! ### What calls leave alone -/

/-- No time has passed between the states, and nothing was ticked. -/
structure SameTime (s s' : World ν α) : Prop where
  realTime : s'.realTime = s.realTime
  simTime : s'.simTime = s.simTime
  frameCounter : s'.frameCounter = s.frameCounter
  ticks : ∀ scene, s'.ticks scene = s.ticks scene

theorem SameTime.trans (h : s.SameTime s') (h' : s'.SameTime s'') : s.SameTime s'' :=
  ⟨h'.realTime.trans h.realTime, h'.simTime.trans h.simTime,
    h'.frameCounter.trans h.frameCounter, fun scene => (h'.ticks scene).trans (h.ticks scene)⟩

variable {polls : Nat → List (LoveEvent ε)}

end ChatGames.World
