import ChatGames.Gui

/-!
# Clicks

A button remembers that the mouse button was pressed on it until it sees an update with the mouse
button up. It sees none while it is hidden, so that it may remember a press that is over. As long as
no press finds it so, what it remembers is the latest press.
-/

namespace ChatGames

/-! ### Changes -/

namespace Widget

variable {ν : Type}

/-- What a change may do to a widget: it presses nothing and triggers nothing. -/
structure Kept (old new : Widget ν) : Prop where
  clicked : new.clicked = old.clicked
  triggered : new.triggered = true → old.triggered = true ∧ new.hidden = old.hidden

theorem Kept.refl (widget : Widget ν) : widget.Kept widget := ⟨rfl, fun h => ⟨h, rfl⟩⟩

theorem Kept.trans {old new newer : Widget ν} (h : old.Kept new) (h' : new.Kept newer) :
    old.Kept newer where
  clicked := h'.clicked.trans h.clicked
  triggered hnewer := by
    obtain ⟨hnew, hhidden'⟩ := h'.triggered hnewer
    obtain ⟨hold, hhidden⟩ := h.triggered hnew
    exact ⟨hold, hhidden'.trans hhidden⟩

end Widget

section Changes

variable {ν ι : Type} [DecidableEq ι] (widgets : ι → Widget ν)

theorem kept_update {i : ι} {widget : Widget ν} (h : (widgets i).Kept widget) (b : ι) :
    (widgets b).Kept (Function.update widgets i widget b) := by
  by_cases hb : b = i
  · subst hb
    rwa [Function.update_self]
  · rw [Function.update_of_ne hb]
    exact .refl _

theorem kept_apply (change : WidgetChange ν ι) (b : ι) :
    (widgets b).Kept (change.apply widgets b) := by
  cases change with
  | setHidden i hidden =>
      refine kept_update widgets ?_ b
      cases widgets i with
      | button button => exact ⟨rfl, fun h => by cases h⟩
      | label => exact ⟨rfl, fun h => by cases h⟩
  | setDisabled i | place i =>
      refine kept_update widgets ?_ b
      cases widgets i with
      | button button => exact ⟨rfl, fun h => ⟨h, rfl⟩⟩
      | label => exact .refl _

theorem kept_callback (callbacks : Callbacks ν ι) (i b : ι) :
    (widgets b).Kept (callback callbacks i widgets b) := by
  rw [callback]
  cases callbacks i with
  | none => exact .refl _
  | some changes =>
      change (widgets b).Kept ((changes widgets).foldl WidgetChange.apply widgets b)
      generalize changes widgets = changes
      induction changes generalizing widgets with
      | nil => exact .refl _
      | cons change changes ih =>
          exact (kept_apply widgets change b).trans (ih (change.apply widgets))

theorem release_self (i : ι) :
    (release i widgets i).clicked = false ∧ (release i widgets i).triggered =
      (widgets i).triggered ∧ (release i widgets i).hidden = (widgets i).hidden := by
  rw [release, Function.update_self]
  cases widgets i with
  | button button => exact ⟨rfl, rfl, rfl⟩
  | label => exact ⟨rfl, rfl, rfl⟩

theorem release_of_ne {i b : ι} (hb : b ≠ i) :
    release i widgets b = widgets b := Function.update_of_ne hb _ _

end Changes

/-! ### One widget -/

variable {ν ι : Type} [Add ν] [LT ν] [DecidableLT ν]

namespace Widget

/-- The widget is a button, it is shown, and the cursor is inside it. -/
def Under (x y : ν) (widget : Widget ν) : Prop :=
  ∃ self, widget = .button self ∧ self.hidden = false ∧ self.inside x y = true

instance decidableUnder (x y : ν) : ∀ widget : Widget ν, Decidable (widget.Under x y)
  | .button self =>
      decidable_of_iff (self.hidden = false ∧ self.inside x y = true)
        ⟨fun h => ⟨self, rfl, h⟩, fun ⟨_, heq, h⟩ => by cases heq; exact h⟩
  | .label _ => isFalse fun ⟨_, heq, _⟩ => by cases heq

/-- A button that is to trigger when the mouse button is up. -/
def Clickable (x y : ν) (widget : Widget ν) : Prop :=
  ∃ self, widget = .button self ∧ self.hidden = false ∧ self.disabled = false ∧
    self.inside x y = true ∧ self.clicked = true

end Widget

section Visit

variable [DecidableEq ι] (callbacks : Callbacks ν ι) (mouse : MouseState ν) (widgets : ι → Widget ν)
  (i : ι)

/-- All that a round of the loop can do. -/
theorem visit_cases :
    (visit callbacks mouse widgets i = widgets ∧
      ((widgets i).hidden = true ∨ (widgets i).triggered = false)) ∨
    ∃ button, widgets i = .button button ∧ button.hidden = false ∧
      ((mouse.down = true ∧ visit callbacks mouse widgets i =
          Function.update widgets i (.button (button.hover mouse))) ∨
        mouse.down = false ∧ (((button.hover mouse).disabled = false ∧
            (button.hover mouse).clicked = true ∧ (button.hover mouse).hovered = true) ∧
              visit callbacks mouse widgets i = release i (callback callbacks i
                (Function.update widgets i
                  (.button { button.hover mouse with triggered := true }))) ∨
          visit callbacks mouse widgets i =
            release i (Function.update widgets i (.button (button.hover mouse))))) := by
  rw [visit]
  cases hwidget : widgets i with
  | label hidden =>
      refine Or.inl ⟨?_, Or.inr rfl⟩
      rw [updateWidget, hwidget]
      exact ite_self _
  | button button =>
      cases hhidden : button.hidden with
      | true => exact Or.inl ⟨if_pos hhidden, Or.inl hhidden⟩
      | false =>
          refine Or.inr ⟨button, rfl, hhidden, ?_⟩
          have hshown : (Widget.button button).hidden ≠ true := by
            rw [Widget.hidden, hhidden]
            exact Bool.false_ne_true
          rw [if_neg hshown, updateWidget, hwidget]
          cases hdown : mouse.down with
          | true => exact Or.inl ⟨rfl, rfl⟩
          | false =>
              refine Or.inr ⟨rfl, ?_⟩
              dsimp only
              rw [if_neg Bool.false_ne_true]
              split
              · rename_i htriggers
                rw [Bool.and_eq_true, Bool.and_eq_true, Bool.not_eq_true'] at htriggers
                exact Or.inl ⟨⟨htriggers.1.1, htriggers.1.2, htriggers.2⟩, rfl⟩
              · exact Or.inr rfl

variable {callbacks mouse widgets i} {b : ι}

/-- Other widgets are left to the callback, and there is none with the mouse button down. -/
theorem visit_of_ne (hb : b ≠ i) : (widgets b).Kept (visit callbacks mouse widgets i b) ∧
    (mouse.down = true → visit callbacks mouse widgets i b = widgets b) := by
  rcases visit_cases callbacks mouse widgets i with
    ⟨hvisit, -⟩ | ⟨button, -, -, ⟨-, hvisit⟩ | ⟨hup, ⟨-, hvisit⟩ | hvisit⟩⟩
  · rw [hvisit]
    exact ⟨.refl _, fun _ => rfl⟩
  · rw [hvisit, Function.update_of_ne hb]
    exact ⟨.refl _, fun _ => rfl⟩
  · rw [hvisit, release_of_ne _ hb, hup]
    have hkept := kept_callback (Function.update widgets i
      (.button { button.hover mouse with triggered := true })) callbacks i b
    rw [Function.update_of_ne hb] at hkept
    exact ⟨hkept, fun hdown => by cases hdown⟩
  · rw [hvisit, release_of_ne _ hb, Function.update_of_ne hb]
    exact ⟨.refl _, fun _ => rfl⟩

theorem clicked_hover {button : Button ν} (h : (button.hover mouse).clicked = true) :
    button.clicked = true ∨ mouse.pressed = true ∧ button.inside mouse.x mouse.y = true := by
  rw [Button.hover] at h
  dsimp only at h
  split at h
  · rename_i hpressed
    rw [Bool.and_eq_true] at hpressed
    exact Or.inr ⟨hpressed.2, hpressed.1⟩
  · exact Or.inl h

/-- A round presses a widget only if it is under the cursor. -/
theorem clicked_visit (h : (visit callbacks mouse widgets i b).clicked = true) :
    (widgets b).clicked = true ∨
      mouse.pressed = true ∧ (widgets b).Under mouse.x mouse.y := by
  by_cases hb : b = i
  · subst hb
    rcases visit_cases callbacks mouse widgets b with
      ⟨hvisit, -⟩ | ⟨button, hbutton, hhidden, ⟨-, hvisit⟩ | ⟨-, ⟨-, hvisit⟩ | hvisit⟩⟩
    · rw [hvisit] at h
      exact Or.inl h
    · rw [hvisit, Function.update_self] at h
      rw [hbutton]
      exact (clicked_hover h).imp_right fun hpressed =>
        ⟨hpressed.1, button, rfl, hhidden, hpressed.2⟩
    · rw [hvisit, (release_self _ _).1] at h
      cases h
    · rw [hvisit, (release_self _ _).1] at h
      cases h
  · rw [(visit_of_ne hb).1.clicked] at h
    exact Or.inl h

/-- With the mouse button down nothing is hidden or moved. -/
theorem under_visit {x y : ν} (hdown : mouse.down = true)
    (h : (visit callbacks mouse widgets i b).Under x y) : (widgets b).Under x y := by
  by_cases hb : b = i
  · subst hb
    rcases visit_cases callbacks mouse widgets b with
      ⟨hvisit, -⟩ | ⟨button, hbutton, -, ⟨-, hvisit⟩ | ⟨hup, -⟩⟩
    · rwa [hvisit] at h
    · rw [hvisit, Function.update_self] at h
      obtain ⟨hovering, heq, hhidden, hinside⟩ := h
      cases heq
      exact ⟨button, hbutton, hhidden, hinside⟩
    · rw [hdown] at hup
      cases hup
  · rwa [(visit_of_ne hb).2 hdown] at h

/-- What is triggered after a round was clickable in it, or triggered before and not updated. -/
theorem triggered_visit (hpressed : mouse.down = false → mouse.pressed = false)
    (h : (visit callbacks mouse widgets i b).triggered = true) :
    (b = i ∧ mouse.down = false ∧ (widgets b).Clickable mouse.x mouse.y ∧
        (visit callbacks mouse widgets i b).hidden = false) ∨
      (widgets b).triggered = true ∧
        (visit callbacks mouse widgets i b).hidden = (widgets b).hidden ∧
          (b = i → (widgets b).hidden = true) := by
  by_cases hb : b = i
  · subst hb
    rcases visit_cases callbacks mouse widgets b with ⟨hvisit, hskipped⟩ |
      ⟨button, hbutton, hhidden, ⟨-, hvisit⟩ | ⟨hup, ⟨htriggers, hvisit⟩ | hvisit⟩⟩
    · rw [hvisit] at h ⊢
      refine Or.inr ⟨h, rfl, fun _ => hskipped.resolve_right fun hnot => ?_⟩
      rw [hnot] at h
      cases h
    · rw [hvisit, Function.update_self] at h
      cases h
    · rw [hvisit] at h ⊢
      obtain ⟨-, htriggered, hshown⟩ := release_self (callback callbacks b
        (Function.update widgets b (.button { button.hover mouse with triggered := true }))) b
      rw [htriggered] at h
      have hkept := ((kept_callback _ callbacks b b).triggered h).2
      rw [Function.update_self] at hkept
      refine Or.inl ⟨rfl, hup, ⟨button, hbutton, hhidden, htriggers.1, htriggers.2.2, ?_⟩, ?_⟩
      · refine (clicked_hover htriggers.2.1).resolve_right fun hdown => ?_
        rw [hpressed hup] at hdown
        cases hdown.1
      · rw [hshown, hkept]
        exact hhidden
    · rw [hvisit, (release_self _ _).2.1, Function.update_self] at h
      cases h
  · have hkept := (visit_of_ne hb).1.triggered h
    exact Or.inr ⟨hkept.1, hkept.2, fun heq => absurd heq hb⟩

end Visit

/-! ### The loop -/

section Loop

variable [DecidableEq ι] {callbacks : Callbacks ν ι} {mouse : MouseState ν}
  {widgets : ι → Widget ν} {b : ι} {ui : List ι}

theorem clicked_updateWidgets (hdown : mouse.pressed = true → mouse.down = true)
    (h : (updateWidgets callbacks mouse ui widgets b).clicked = true) :
    (widgets b).clicked = true ∨
      mouse.pressed = true ∧ (widgets b).Under mouse.x mouse.y := by
  induction ui generalizing widgets with
  | nil => exact Or.inl h
  | cons i ui ih =>
      rcases ih h with hclicked | ⟨hpressed, hunder⟩
      · exact clicked_visit hclicked
      · exact Or.inr ⟨hpressed, under_visit (hdown hpressed) hunder⟩

/-- A widget that is triggered is shown. -/
def Widget.Shown (widget : Widget ν) : Prop := widget.triggered = true → widget.hidden = false

theorem shown_updateWidgets (hpressed : mouse.down = false → mouse.pressed = false)
    (h : (widgets b).Shown) : (updateWidgets callbacks mouse ui widgets b).Shown := by
  induction ui generalizing widgets with
  | nil => exact h
  | cons i ui ih =>
      refine ih fun htriggered => ?_
      rcases triggered_visit hpressed htriggered with ⟨-, -, -, hshown⟩ | ⟨hbefore, hsame, -⟩
      · exact hshown
      · exact hsame.trans (h hbefore)

/-- A button of the list that is triggered after the loop was clickable when the loop came to it. -/
theorem triggered_updateWidgets (hpressed : mouse.down = false → mouse.pressed = false)
    (hb : b ∈ ui) (hshown : (widgets b).Shown)
    (h : (updateWidgets callbacks mouse ui widgets b).triggered = true) :
    mouse.down = false ∧ ∃ before later, ui = before ++ b :: later ∧
      (updateWidgets callbacks mouse before widgets b).Clickable mouse.x mouse.y := by
  induction ui using List.reverseRecOn with
  | nil => cases hb
  | append_singleton ui i ih =>
      rw [updateWidgets, List.foldl_append] at h
      rcases triggered_visit hpressed h with ⟨rfl, hup, hclickable, -⟩ | ⟨hbefore, -, hskipped⟩
      · exact ⟨hup, ui, [], rfl, hclickable⟩
      · have hne : b ≠ i := by
          intro heq
          have hhidden : (updateWidgets callbacks mouse ui widgets b).hidden = false :=
            shown_updateWidgets hpressed hshown hbefore
          rw [updateWidgets, hskipped heq] at hhidden
          cases hhidden
        have hmem : b ∈ ui := (List.mem_append.mp hb).resolve_right fun hlast =>
          hne (List.mem_singleton.mp hlast)
        obtain ⟨hup, before, later, hui, hclickable⟩ := ih hmem hbefore
        exact ⟨hup, before, later ++ [i], by rw [hui, List.append_assoc]; rfl, hclickable⟩

end Loop

/-! ### Runs -/

namespace Gui

variable [DecidableEq ι] {s s' : Gui ν ι} {b : ι} {ui : List ι} {input : GuiInput ν}
  {callbacks : Callbacks ν ι}

/-- The latest press found the widget under the cursor. -/
def PressedOn (b : ι) (s : Gui ν ι) : Prop :=
  ∃ press ∈ s.presses.head?, (press.widgets b).Under press.x press.y

instance decidablePressedOn (b : ι) (s : Gui ν ι) : Decidable (s.PressedOn b) :=
  inferInstanceAs (Decidable (∃ press ∈ s.presses.head?, _))

/-- No press away from the button, or while it is hidden, finds that it remembers another. -/
def KeepsClicks (b : ι) (s : Gui ν ι) : GuiEvent ν ι → Prop
  | .update input _ => s.pressed input = true → (s.widgets b).clicked = true →
      (s.widgets b).Under input.x input.y
  | .change _ => True

instance decidableKeepsClicks (b : ι) (s : Gui ν ι) : ∀ e, Decidable (s.KeepsClicks b e)
  | .update _ _ => inferInstanceAs (Decidable (_ → _ → _))
  | .change _ => inferInstanceAs (Decidable True)

/-- What a run keeps whose steps keep the clicks of the button. -/
structure Remembers (b : ι) (s : Gui ν ι) : Prop where
  latest : (s.widgets b).clicked = true → s.PressedOn b
  shown : (s.widgets b).Shown

omit [Add ν] [LT ν] [DecidableLT ν] [DecidableEq ι] in
theorem down_of_pressed (h : s.pressed input = true) : input.down = true :=
  ((Bool.and_eq_true _ _).mp h).1

omit [Add ν] [LT ν] [DecidableLT ν] [DecidableEq ι] in
theorem pressed_of_up (h : input.down = false) : s.pressed input = false := by
  rw [pressed, h, Bool.false_and]

theorem presses_update (h : s.pressed input = false) :
    (s.update ui input callbacks).presses = s.presses := by
  rw [Gui.update, h]
  rfl

omit [DecidableEq ι] in
theorem remembers_init (layout : ι → Option (ν × ν × ν × ν)) (b : ι) :
    (init layout).Remembers b := by
  have hnew : ((init layout).widgets b).clicked = false ∧
      ((init layout).widgets b).triggered = false := by
    rw [init]
    dsimp only
    cases layout b <;> exact ⟨rfl, rfl⟩
  refine ⟨fun h => ?_, fun h => ?_⟩
  · rw [hnew.1] at h
    cases h
  · rw [hnew.2] at h
    cases h

theorem Remembers.update (h : s.Remembers b) (hcond : s.KeepsClicks b (.update input callbacks)) :
    (s.update ui input callbacks).Remembers b := by
  refine ⟨fun hclicked => ?_, shown_updateWidgets pressed_of_up h.shown⟩
  have hbefore := clicked_updateWidgets down_of_pressed hclicked
  cases hpressed : s.pressed input with
  | true =>
      have hunder : (s.widgets b).Under input.x input.y := hbefore.elim (hcond hpressed) And.right
      exact ⟨⟨s.widgets, input.x, input.y⟩, by rw [Gui.update, hpressed]; rfl, hunder⟩
  | false =>
      have hlatest := h.latest (hbefore.resolve_right fun hpress => by
        have hyes : s.pressed input = true := hpress.1
        rw [hpressed] at hyes
        cases hyes)
      rwa [PressedOn, presses_update hpressed]

theorem Remembers.step {e : GuiEvent ν ι} (h : s.Remembers b) (hcond : s.KeepsClicks b e) :
    (s.apply ui e).Remembers b := by
  cases e with
  | update input callbacks => exact h.update hcond
  | change change =>
      have hkept := kept_apply s.widgets change b
      refine ⟨fun hclicked => h.latest (hkept.clicked.symm.trans hclicked), fun htriggered => ?_⟩
      obtain ⟨hbefore, hsame⟩ := hkept.triggered htriggered
      exact hsame.trans (h.shown hbefore)

theorem remembers {layout : ι → Option (ν × ν × ν × ν)}
    (h : (guiSystem ui layout).ReachableWhile (KeepsClicks b) s) : s.Remembers b :=
  h.invariant (Remembers b) (remembers_init layout b) fun _ _ _ hs hcond hstep =>
    Option.some.inj hstep ▸ hs.step hcond

/-- The update is the end of a click on the button: it is shown and enabled when the loop comes to
it, the mouse button is up, the cursor is inside it, and it was so at the latest press. -/
structure CompleteClick (ui : List ι) (s : Gui ν ι) (input : GuiInput ν)
    (callbacks : Callbacks ν ι) (b : ι) : Prop where
  up : input.down = false
  released : ∃ before later, ui = before ++ b :: later ∧
    (updateWidgets callbacks (s.mouseState input) before s.widgets b).Clickable input.x input.y
  pressed : (s.update ui input callbacks).PressedOn b
  shown : ((s.update ui input callbacks).widgets b).hidden = false

/-- **Clicks.** In a run in which no press away from the button, or while it is hidden, finds that
it remembers another one, the button is triggered by complete clicks only. -/
theorem complete_click {layout : ι → Option (ν × ν × ν × ν)}
    (h : (guiSystem ui layout).ReachableWhile (KeepsClicks b) s) (hb : b ∈ ui)
    (htriggered : ((s.update ui input callbacks).widgets b).triggered = true) :
    CompleteClick ui s input callbacks b := by
  have hs := remembers h
  obtain ⟨hup, before, later, hui, hclickable⟩ :=
    triggered_updateWidgets pressed_of_up hb hs.shown htriggered
  have hup' : input.down = false := hup
  refine ⟨hup', ⟨before, later, hui, hclickable⟩, ?_, ?_⟩
  · obtain ⟨button, hbutton, -, -, -, hclicked⟩ := hclickable
    have hreached : (updateWidgets callbacks (s.mouseState input) before s.widgets b).clicked =
        true := by
      rw [hbutton]
      exact hclicked
    have hpressed : s.pressed input = false := pressed_of_up hup'
    rw [PressedOn, presses_update hpressed]
    refine hs.latest ((clicked_updateWidgets down_of_pressed hreached).resolve_right ?_)
    rintro ⟨hyes, -⟩
    exact Bool.false_ne_true (hpressed.symm.trans hyes)
  · exact shown_updateWidgets pressed_of_up hs.shown htriggered

/-- The mouse button is pressed in a button at the origin. -/
def pressInside : GuiEvent Int Unit := .update ⟨none, none, none, true, (3, 3)⟩ fun _ => none

def releaseInside : GuiInput Int := ⟨none, none, none, false, (5, 5)⟩

theorem complete_click_once : ∃ s : Gui Int Unit,
    (guiSystem [()] fun _ => some (0, 0, 10, 10)).runWhile (KeepsClicks ()) [pressInside] =
      some s ∧
    CompleteClick [()] s releaseInside (fun _ => none) () := by
  have hrun : ((guiSystem [()] fun _ => some (0, 0, 10, 10)).runWhile (KeepsClicks ())
      [pressInside]).any (fun s =>
        ((s.update [()] releaseInside fun _ => none).widgets ()).triggered) = true := by
    decide
  obtain ⟨s, hs, htriggered⟩ := (Option.any_eq_true _ _).mp hrun
  exact ⟨s, hs, complete_click (TransitionSystem.reachableWhile_of_runWhile hs)
    (List.mem_singleton_self ()) htriggered⟩

/-- The button is hidden while the mouse button is released, and shown again. The next press is
away from it. -/
def releasedWhileHidden : List (GuiEvent Int Unit) :=
  [pressInside, .change (.setHidden () true), .update releaseInside fun _ => none,
    .change (.setHidden () false), .update ⟨none, none, none, true, (50, 50)⟩ fun _ => none]

/-- The button still remembers the first press when the second one is released over it. -/
theorem not_complete_click : ∃ s : Gui Int Unit,
    (guiSystem [()] fun _ => some (0, 0, 10, 10)).run releasedWhileHidden = some s ∧
    ((s.update [()] releaseInside fun _ => none).widgets ()).triggered = true ∧
    ¬CompleteClick [()] s releaseInside (fun _ => none) () := by
  have hrun : ((guiSystem [()] fun _ => some (0, 0, 10, 10)).run releasedWhileHidden).any (fun s =>
      decide (((s.update [()] releaseInside fun _ => none).widgets ()).triggered = true ∧
        ¬(s.update [()] releaseInside fun _ => none).PressedOn ())) = true := by
    decide
  obtain ⟨s, hs, hstate⟩ := (Option.any_eq_true _ _).mp hrun
  obtain ⟨htriggered, hpressed⟩ := of_decide_eq_true hstate
  exact ⟨s, hs, htriggered, fun h => hpressed h.pressed⟩

end Gui

end ChatGames
