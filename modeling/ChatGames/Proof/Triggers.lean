import ChatGames.Proof.Clicks

/-!
# As many triggers as presses

A button may remember a press that is over, and then it is triggered by a release that has nothing
to do with it. But what it remembers it forgets when it is triggered, and it takes a press to
remember one. So in no run is a button triggered more often than the mouse button was pressed,
whatever the callbacks hide and move in the meantime.
-/

namespace ChatGames

section Loop

variable {ν ι : Type} [Add ν] [LT ν] [DecidableLT ν] [DecidableEq ι] {callbacks : Callbacks ν ι}
  {mouse : MouseState ν} {widgets : ι → Widget ν} {b : ι} {ui : List ι}

/-- A button that is looked at with the mouse button up remembers nothing afterwards. -/
theorem clicked_visit_self (hup : mouse.down = false)
    (hclickable : (widgets b).Clickable mouse.x mouse.y) :
    (visit callbacks mouse widgets b b).clicked = false := by
  obtain ⟨button, hbutton, hshown, -⟩ := hclickable
  have hvisible : (Widget.button button).hidden ≠ true := by
    rw [Widget.hidden, hshown]
    exact Bool.false_ne_true
  rw [visit, hbutton, if_neg hvisible, updateWidget, hbutton]
  dsimp only
  rw [hup, if_neg Bool.false_ne_true]
  split
  · exact (release_self _ _).1
  · exact (release_self _ _).1

/-- What is triggered was remembered before the loop, and is forgotten in it. -/
theorem clicked_of_triggered (hpressed : mouse.down = false → mouse.pressed = false) (hb : b ∈ ui)
    (hshown : (widgets b).Shown)
    (h : (updateWidgets callbacks mouse ui widgets b).triggered = true) :
    mouse.pressed = false ∧ (widgets b).clicked = true ∧
      (updateWidgets callbacks mouse ui widgets b).clicked = false := by
  obtain ⟨hup, before, later, rfl, hclickable⟩ := triggered_updateWidgets hpressed hb hshown h
  have hunpressed := hpressed hup
  have hkept (first : List ι) (old : ι → Widget ν)
      (hclicked : (updateWidgets callbacks mouse first old b).clicked = true) :
      (old b).clicked = true := by
    refine (clicked_updateWidgets (fun hyes => ?_) hclicked).resolve_right fun hpress => ?_
    · rw [hunpressed] at hyes
      cases hyes
    · rw [hunpressed] at hpress
      cases hpress.1
  refine ⟨hunpressed, ?_, ?_⟩
  · obtain ⟨button, hbutton, -, -, -, hclicked⟩ := hclickable
    refine hkept before widgets ?_
    rw [hbutton]
    exact hclicked
  · rw [← Bool.not_eq_true]
    intro hclicked
    have hsplit : updateWidgets callbacks mouse (before ++ b :: later) widgets =
        updateWidgets callbacks mouse later
          (visit callbacks mouse (updateWidgets callbacks mouse before widgets) b) := by
      rw [updateWidgets, List.foldl_append]
      rfl
    rw [hsplit] at hclicked
    have hagain := hkept later _ hclicked
    rw [clicked_visit_self hup hclickable] at hagain
    cases hagain

end Loop

namespace Gui

variable {ν ι : Type} [DecidableEq ι] [Add ν] [LT ν] [DecidableLT ν]

/-- The updates of the run from `s` that leave the widget triggered. -/
def triggers (ui : List ι) (b : ι) : Gui ν ι → List (GuiEvent ν ι) → Nat
  | _, [] => 0
  | s, .change change :: events => triggers ui b (s.apply ui (.change change)) events
  | s, .update input callbacks :: events =>
      let s := s.update ui input callbacks
      (s.widgets b).triggered.toNat + triggers ui b s events

variable {s : Gui ν ι} {b : ι} {ui : List ι}

theorem presses_length_update (s : Gui ν ι) (ui : List ι) (input : GuiInput ν)
    (callbacks : Callbacks ν ι) : (s.update ui input callbacks).presses.length =
      s.presses.length + (s.pressed input).toNat := by
  rw [Gui.update]
  cases s.pressed input with
  | false => rfl
  | true => rfl

/-- An update pays for a trigger with what the button remembers, and for that with a press. -/
theorem toNat_update (input : GuiInput ν) (callbacks : Callbacks ν ι) (hb : b ∈ ui)
    (hshown : (s.widgets b).Shown) :
    ((s.update ui input callbacks).widgets b).triggered.toNat +
        ((s.update ui input callbacks).widgets b).clicked.toNat ≤
      (s.widgets b).clicked.toNat + (s.pressed input).toNat := by
  by_cases htriggered : ((s.update ui input callbacks).widgets b).triggered = true
  · obtain ⟨-, hclicked, hforgotten⟩ := clicked_of_triggered pressed_of_up hb hshown htriggered
    have hforgotten' : ((s.update ui input callbacks).widgets b).clicked = false := hforgotten
    rw [htriggered, hforgotten', hclicked]
    exact Nat.le_add_right _ _
  · rw [Bool.not_eq_true] at htriggered
    rw [htriggered]
    by_cases hclicked : ((s.update ui input callbacks).widgets b).clicked = true
    · rw [hclicked]
      rcases clicked_updateWidgets down_of_pressed hclicked with hbefore | ⟨hpressed, -⟩
      · rw [hbefore]
        exact Nat.le_add_right _ _
      · have hpressed' : s.pressed input = true := hpressed
        rw [hpressed']
        exact Nat.le_add_left _ _
    · rw [Bool.not_eq_true] at hclicked
      rw [hclicked]
      exact Nat.zero_le _

theorem triggers_add_le {s' : Gui ν ι} {layout : ι → Option (ν × ν × ν × ν)}
    {events : List (GuiEvent ν ι)} (hb : b ∈ ui) (hshown : (s.widgets b).Shown)
    (hrun : (guiSystem ui layout).runFrom s events = some s') :
    s.triggers ui b events + s.presses.length ≤
      s'.presses.length + (s.widgets b).clicked.toNat := by
  induction events generalizing s with
  | nil =>
      obtain rfl : s = s' := Option.some.inj hrun
      rw [triggers, Nat.zero_add]
      exact Nat.le_add_right _ _
  | cons e events ih =>
      obtain ⟨s₁, hstep, hrest⟩ := TransitionSystem.runFrom_cons_eq_some.mp hrun
      obtain rfl : s.apply ui e = s₁ := Option.some.inj hstep
      cases e with
      | change change =>
          have hkept := kept_apply s.widgets change b
          have hshown' : (change.apply s.widgets b).Shown := by
            intro htriggered
            obtain ⟨hbefore, hsame⟩ := hkept.triggered htriggered
            exact hsame.trans (hshown hbefore)
          have hlater := ih hshown' hrest
          change s.triggers ui b (.change change :: events) + s.presses.length ≤ _
          rw [← hkept.clicked, triggers]
          exact hlater
      | update input callbacks =>
          have hlater := ih (shown_updateWidgets pressed_of_up hshown) hrest
          have hstep := toNat_update input callbacks hb hshown
          have hpresses := presses_length_update s ui input callbacks
          rw [triggers]
          dsimp only [Gui.apply] at hlater ⊢
          omega

/-- **Triggers.** However the mouse moves and whatever the callbacks do, no button of the list is
triggered more often than the mouse button was pressed. -/
theorem triggers_le_presses {s : Gui ν ι} {layout : ι → Option (ν × ν × ν × ν)}
    {events : List (GuiEvent ν ι)} (hb : b ∈ ui)
    (hrun : (guiSystem ui layout).run events = some s) :
    (init layout).triggers ui b events ≤ s.presses.length := by
  have hinit := remembers_init layout b
  have hclicked : ((init layout).widgets b).clicked.toNat = 0 := by
    rw [init]
    dsimp only
    cases layout b <;> rfl
  have hrun' : (guiSystem ui layout).runFrom (init layout) events = some s := hrun
  have hle := triggers_add_le hb hinit.shown hrun'
  rw [hclicked] at hle
  exact Nat.le_of_add_right_le hle

/-- The stale click of `releasedWhileHidden` is the only one. -/
theorem triggers_le_presses_stale : ∃ s : Gui Int Unit,
    (guiSystem [()] fun _ => some (0, 0, 10, 10)).run
        (releasedWhileHidden ++ [.update releaseInside fun _ => none]) = some s ∧
      (init fun _ => some (0, 0, 10, 10)).triggers [()] ()
        (releasedWhileHidden ++ [.update releaseInside fun _ => none]) ≤ 2 := by
  have hrun : ((guiSystem [()] fun _ => some (0, 0, 10, 10)).run
      (releasedWhileHidden ++ [.update releaseInside fun _ => none])).any (fun s =>
        decide (s.presses.length = 2)) = true := by
    decide
  obtain ⟨s, hs, hpresses⟩ := (Option.any_eq_true _ _).mp hrun
  refine ⟨s, hs, ?_⟩
  rw [← of_decide_eq_true hpresses]
  exact triggers_le_presses (List.mem_singleton_self ()) hs

end Gui

end ChatGames
