import ChatGames.Library.TransitionSystem
import Mathlib.Logic.Function.Basic

/-!
# The widgets of the client

`gui.update` and the widgets of `gui.lua`. A list of widgets holds references, and a callback may
hide, disable and move any widget, so that the loop over the list goes on with what it has left. The
coordinates are numbers of any kind: nothing is used of them but that they are added and compared.
-/

namespace ChatGames

structure Button (ν : Type) where
  x : ν
  y : ν
  w : ν
  h : ν
  hidden : Bool
  hovered : Bool
  clicked : Bool
  disabled : Bool
  triggered : Bool
deriving DecidableEq

inductive Widget (ν : Type) where
  | button (button : Button ν)
  | label (hidden : Bool)
deriving DecidableEq

structure MouseState (ν : Type) where
  x : ν
  y : ν
  down : Bool
  pressed : Bool
  released : Bool

/-- What is done to a widget between two updates, or by a callback. -/
inductive WidgetChange (ν ι : Type) where
  | setHidden (i : ι) (hidden : Bool)
  | setDisabled (i : ι) (disabled : Bool)
  | place (i : ι) (x y w h : ν)

/-- What the callback of each button does, where it has one. -/
abbrev Callbacks (ν ι : Type) := ι → Option ((ι → Widget ν) → List (WidgetChange ν ι))

namespace Button

variable {ν : Type}

/-- `Button:initialize` -/
def new (x y w h : ν) : Button ν := ⟨x, y, w, h, false, false, false, false, false⟩

/-- `Button:setHidden` -/
def setHidden (button : Button ν) (hidden : Bool) : Button ν :=
  { button with
    triggered := false
    hidden := hidden }

variable [Add ν] [LT ν] [DecidableLT ν]

/-- `ülp.pointInRect` -/
def pointInRect (x y rx ry rw rh : ν) : Bool := rx < x ∧ x < rx + rw ∧ ry < y ∧ y < ry + rh

/-- The cursor is inside the button. -/
def inside (x y : ν) (button : Button ν) : Bool :=
  pointInRect x y button.x button.y button.w button.h

/-- `Button:update`, up to the test of `mouseState.down`. -/
def hover (mouse : MouseState ν) (button : Button ν) : Button ν :=
  let hovered := button.inside mouse.x mouse.y
  { button with
    hovered := hovered
    clicked := if hovered && mouse.pressed then mouse.pressed else button.clicked
    triggered := false }

end Button

namespace Widget

variable {ν : Type}

def hidden : Widget ν → Bool
  | .button self => self.hidden
  | .label hidden => hidden

def clicked : Widget ν → Bool
  | .button self => self.clicked
  | .label _ => false

def triggered : Widget ν → Bool
  | .button self => self.triggered
  | .label _ => false

def onButton (f : Button ν → Button ν) : Widget ν → Widget ν
  | .button self => .button (f self)
  | .label hidden => .label hidden

def setHidden (widget : Widget ν) (hidden : Bool) : Widget ν :=
  match widget with
  | .button self => .button (self.setHidden hidden)
  | .label _ => .label hidden

end Widget

section Update

variable {ν ι : Type} [DecidableEq ι]

def WidgetChange.apply (widgets : ι → Widget ν) : WidgetChange ν ι → ι → Widget ν
  | .setHidden i hidden => Function.update widgets i ((widgets i).setHidden hidden)
  | .setDisabled i disabled =>
      Function.update widgets i ((widgets i).onButton fun button =>
        { button with disabled := disabled })
  | .place i x y w h =>
      Function.update widgets i ((widgets i).onButton fun button =>
        { button with x := x, y := y, w := w, h := h })

/-- `self:callback()` -/
def callback (callbacks : Callbacks ν ι) (i : ι) (widgets : ι → Widget ν) : ι → Widget ν :=
  match callbacks i with
  | some changes => (changes widgets).foldl WidgetChange.apply widgets
  | none => widgets

/-- The end of `Button:update` when the mouse button is up. -/
def release (i : ι) (widgets : ι → Widget ν) : ι → Widget ν :=
  Function.update widgets i ((widgets i).onButton fun button => { button with clicked := false })

variable [Add ν] [LT ν] [DecidableLT ν] (callbacks : Callbacks ν ι)

/-- `widget:update(dt, mouseState)` -/
def updateWidget (mouse : MouseState ν) (i : ι) (widgets : ι → Widget ν) : ι → Widget ν :=
  match widgets i with
  | .label _ => widgets
  | .button button =>
      let button := button.hover mouse
      if mouse.down then
        Function.update widgets i (.button button)
      else if !button.disabled && button.clicked && button.hovered then
        release i (callback callbacks i
          (Function.update widgets i (.button { button with triggered := true })))
      else
        release i (Function.update widgets i (.button button))

/-- One round of the loop in `gui.update`. -/
def visit (mouse : MouseState ν) (widgets : ι → Widget ν) (i : ι) : ι → Widget ν :=
  if (widgets i).hidden then widgets else updateWidget callbacks mouse i widgets

def updateWidgets (mouse : MouseState ν) (ui : List ι) (widgets : ι → Widget ν) : ι → Widget ν :=
  ui.foldl (visit callbacks mouse) widgets

end Update

/-- The arguments of `gui.update`, and what `love.mouse` tells. -/
structure GuiInput (ν : Type) where
  mx : Option ν
  my : Option ν
  mouseDown : Option Bool
  isDown : Bool
  position : ν × ν

namespace GuiInput

variable {ν : Type} (input : GuiInput ν)

def x : ν := input.mx.getD input.position.1

def y : ν := input.my.getD input.position.2

def down : Bool := input.mouseDown.getD false || input.isDown

end GuiInput

/-- An update in which the mouse button went from up to down: the widgets it found, and the
cursor. -/
structure Press (ν ι : Type) where
  widgets : ι → Widget ν
  x : ν
  y : ν

structure Gui (ν ι : Type) where
  widgets : ι → Widget ν
  lastMouseDown : Bool
  /-- All presses, the latest first. No code reads them. -/
  presses : List (Press ν ι)

inductive GuiEvent (ν ι : Type) where
  | update (input : GuiInput ν) (callbacks : Callbacks ν ι)
  | change (change : WidgetChange ν ι)

namespace Gui

variable {ν ι : Type} [DecidableEq ι] [Add ν] [LT ν] [DecidableLT ν]
  (ui : List ι) (s : Gui ν ι)

/-- Buttons where there is a rectangle, and labels elsewhere. -/
def init (layout : ι → Option (ν × ν × ν × ν)) : Gui ν ι where
  widgets i :=
    match layout i with
    | some (x, y, w, h) => .button (.new x y w h)
    | none => .label false
  lastMouseDown := false
  presses := []

def pressed (input : GuiInput ν) : Bool := input.down && !s.lastMouseDown

def mouseState (input : GuiInput ν) : MouseState ν where
  x := input.x
  y := input.y
  down := input.down
  pressed := s.pressed input
  released := !input.down && s.lastMouseDown

/-- `gui.update` -/
def update (input : GuiInput ν) (callbacks : Callbacks ν ι) : Gui ν ι where
  widgets := updateWidgets callbacks (s.mouseState input) ui s.widgets
  lastMouseDown := input.down
  presses :=
    if s.pressed input then ⟨s.widgets, input.x, input.y⟩ :: s.presses else s.presses

def apply : GuiEvent ν ι → Gui ν ι
  | .update input callbacks => s.update ui input callbacks
  | .change change => { s with widgets := change.apply s.widgets }

end Gui

def guiSystem {ν ι : Type} [DecidableEq ι] [Add ν] [LT ν] [DecidableLT ν]
    (ui : List ι) (layout : ι → Option (ν × ν × ν × ν)) :
    TransitionSystem (Gui ν ι) (GuiEvent ν ι) where
  init := Gui.init layout
  step s e := some (s.apply ui e)

end ChatGames
