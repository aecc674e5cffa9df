import ChatGames.Library.LeaderTable.Model

/-!
# The base of the invariant

What one operation of a step keeps, before the leader announces anything.
-/

namespace LeaderTable

variable {ι κ α ν : Type*} {lead : κ} {s : State ι κ α ν}

theorem base_init (lead : κ) : Base lead (State.init : State ι κ α ν) where
  name_inj _ _ _ h := by cases h
  led _ h := absurd rfl h
  outsider _ _ := ⟨fun _ => rfl, fun _ => rfl, rfl⟩
  table_lead _ _ _ := rfl
  value_follows _ _ h := by cases h
  last_value _ _ _ h := by cases h
  heard _ _ _ h := by cases h
  known_view _ _ _ h := by cases h
  known_table _ _ _ h := by cases h
  known_said _ _ _ h := by cases h
  named _ _ h := by cases h

theorem Base.eq_lead (h : Base lead s) {i j : ι} {table : Table κ α ν}
    (htable : table ∈ tables (s.path i j)) : s.name i = some lead := by
  by_contra hne
  rw [h.table_lead i j hne] at htable
  cases htable

/-- Without a leader there is nobody. -/
theorem Base.alone (h : Base lead s) (hfree : ∀ j, s.name j ≠ some lead) (i : ι) :
    s.name i = none := by
  by_contra hi
  obtain ⟨m, hm⟩ := h.led i hi
  exact hfree m hm

theorem Base.fresh (h : Base lead s) {m : ι} {k : κ} (hm : s.name m = some lead)
    (hfree : ∀ j, s.name j ≠ some k) : s.view m k = none := by
  by_contra hentry
  obtain ⟨j, hj⟩ := h.named m k hm hentry
  exact hfree j hj

/-- Some messages are gone, and the leader has still heard what it has to have heard. -/
theorem Base.shorten (h : Base lead s) {path : ι → ι → List (Msg κ α ν)}
    (hpath : ∀ i j, path i j <:+ s.path i j)
    (hheard : ∀ m i k, s.name m = some lead → s.name i = some k → i ≠ m →
      values (path i m) = [] → valueAt (s.view m) k = s.said i) :
    Base lead { s with path := path } where
  name_inj := h.name_inj
  led := h.led
  outsider i hi := by
    obtain ⟨hnone, hview, hsaid⟩ := h.outsider i hi
    exact ⟨fun j => eq_nil_of_suffix (hpath i j) (hnone j), hview, hsaid⟩
  table_lead i j hi := eq_nil_of_suffix (tables_suffix (hpath i j)) (h.table_lead i j hi)
  value_follows i j hi := eq_nil_of_suffix (values_suffix (hpath i j)) (h.value_follows i j hi)
  last_value i j value hvalue :=
    h.last_value i j value (mem_getLast?_of_suffix (values_suffix (hpath i j)) hvalue)
  heard := hheard
  known_view := h.known_view
  known_table m j k hm table htable :=
    h.known_table m j k hm table ((tables_suffix (hpath m j)).subset htable)
  known_said m i k hm hi hsaid := by
    apply h.known_said m i k hm hi
    refine hsaid.imp id ?_
    rintro ⟨j, hj⟩
    exact ⟨j, fun hnil => hj (eq_nil_of_suffix (values_suffix (hpath i j)) hnil)⟩
  named := h.named

section Operations

variable [DecidableEq ι] {i j m : ι} {k l : κ}

theorem Base.relay (h : Base lead s) (i : ι) : Base lead (s.relay i) := by
  apply h.shorten (path_relay_suffix i)
  intro m i' k hm hi hne hnil
  apply h.heard m i' k hm hi hne
  have hmember : s.name m ≠ none := by simp [hm]
  rwa [path_relay_of_member hne.symm hmember] at hnil

theorem Base.advance (h : Base lead s) {msg : Msg κ α ν} {rest : List (Msg κ α ν)}
    (hj : s.name j = some l) (hfollows : l ≠ lead) (hpath : s.path i j = msg :: rest) :
    Base lead (s.advance i j rest) := by
  apply h.shorten (path_advance_suffix hpath)
  intro m i' k hm hi hne hnil
  apply h.heard m i' k hm hi hne
  rwa [path_advance_of_ne (Or.inr (ne_of_name hm hj hfollows))] at hnil

/-- A follower's copy may become any table over names that the leader has. -/
theorem Base.setView (h : Base lead s) (hj : s.name j = some l) (hfollows : l ≠ lead)
    {table : Table κ α ν}
    (hknown : ∀ m k, s.name m = some lead → table k ≠ none → s.view m k ≠ none) :
    Base lead (s.setView j table) := by
  have hsame {m : ι} (hm : s.name m = some lead) : (s.setView j table).view m = s.view m :=
    view_setView_of_ne (ne_of_name hm hj hfollows)
  constructor
  case outsider =>
    intro i hi
    have hne := ne_of_outsider hi hj
    rw [view_setView_of_ne hne]
    exact h.outsider i hi
  case heard =>
    intro m i k hm
    rw [hsame hm]
    exact h.heard m i k hm
  case known_view =>
    intro m i k hm hview
    rw [hsame hm]
    by_cases hi : i = j
    · subst hi
      rw [view_setView_self] at hview
      exact hknown m k hm hview
    · rw [view_setView_of_ne hi] at hview
      exact h.known_view m i k hm hview
  case known_table =>
    intro m j' k hm
    rw [hsame hm]
    exact h.known_table m j' k hm
  case known_said =>
    intro m i k hm
    rw [hsame hm]
    exact h.known_said m i k hm
  case named =>
    intro m k hm
    rw [hsame hm]
    exact h.named m k hm
  exacts [h.name_inj, h.led, h.table_lead, h.value_follows, h.last_value]

/-- The leader's copy keeps its entries, and the values it has heard. -/
theorem Base.setViewAtLeader (h : Base lead s) (hj : s.name j = some lead) {table : Table κ α ν}
    (hkept : ∀ k, s.view j k ≠ none → table k ≠ none)
    (hnamed : ∀ k, table k ≠ none → ∃ i, s.name i = some k)
    (hheard : ∀ i k, s.name i = some k → i ≠ j → values (s.path i j) = [] →
      valueAt table k = s.said i) : Base lead (s.setView j table) := by
  have heq {m : ι} (hm : s.name m = some lead) : m = j := h.name_inj m j lead hm hj
  constructor
  case outsider =>
    intro i hi
    have hne := ne_of_outsider hi hj
    rw [view_setView_of_ne hne]
    exact h.outsider i hi
  case heard =>
    intro m i k hm
    rw [heq hm, view_setView_self]
    exact hheard i k
  case known_view =>
    intro m i k hm hview
    rw [heq hm, view_setView_self]
    by_cases hi : i = j
    · subst hi
      rwa [view_setView_self] at hview
    · rw [view_setView_of_ne hi] at hview
      exact hkept k (h.known_view j i k hj hview)
  case known_table =>
    intro m j' k hm table' htable' hentry
    rw [heq hm] at htable' ⊢
    rw [view_setView_self]
    exact hkept k (h.known_table j j' k hj table' htable' hentry)
  case known_said =>
    intro m i k hm hi hsaid
    rw [heq hm, view_setView_self]
    exact hkept k (h.known_said j i k hj hi hsaid)
  case named =>
    intro m k hm
    rw [heq hm, view_setView_self]
    exact hnamed k
  exacts [h.name_inj, h.led, h.table_lead, h.value_follows, h.last_value]

theorem values_send_table (table : Table κ α ν) (i' j : ι) :
    values ((s.send i (.table table)).path i' j) = values (s.path i' j) := by
  rw [path_send]
  split
  · rw [values_append]
    exact List.append_nil _
  · rfl

theorem tables_send_value (value : Option ν) (i' j : ι) :
    tables ((s.send i (.value value)).path i' j) = tables (s.path i' j) := by
  rw [path_send]
  split
  · rw [tables_append]
    exact List.append_nil _
  · rfl

theorem tables_announce_self (j : ι) :
    tables ((s.announce m).path m j) = tables (s.path m j) ++ [s.view m] := by
  rw [State.announce, path_send, if_pos rfl, tables_append]
  rfl

theorem Base.announce (h : Base lead s) (hm : s.name m = some lead) :
    Base lead (s.announce m) := by
  constructor
  case outsider =>
    intro i hi
    have hne := ne_of_outsider hi hm
    obtain ⟨hpath, hrest⟩ := h.outsider i hi
    refine ⟨fun j => ?_, hrest⟩
    rw [State.announce, path_send, if_neg hne]
    exact hpath j
  case table_lead =>
    intro i j hi
    have hne : i ≠ m := by
      rintro rfl
      exact hi hm
    rw [State.announce, path_send, if_neg hne]
    exact h.table_lead i j hi
  case value_follows =>
    intro i j hi
    rw [State.announce, values_send_table]
    exact h.value_follows i j hi
  case last_value =>
    intro i j
    rw [State.announce, values_send_table]
    exact h.last_value i j
  case heard =>
    intro m' i k
    rw [State.announce, values_send_table]
    exact h.heard m' i k
  case known_table =>
    intro m' j k hm' table htable
    rw [h.name_inj m' m lead hm' hm, tables_announce_self] at htable
    rcases List.mem_append.mp htable with hold | hnew
    · exact h.known_table m' j k hm' table (h.name_inj m' m lead hm' hm ▸ hold)
    · rw [List.mem_singleton.mp hnew]
      exact h.known_view m' m k hm'
  case known_said =>
    intro m' i k hm' hi hsaid
    apply h.known_said m' i k hm' hi
    simp only [State.announce, values_send_table] at hsaid
    exact hsaid
  exacts [h.name_inj, h.led, h.known_view, h.named]

/-- A follower that has an entry says its value. -/
theorem Base.say (h : Base lead s) (hi : s.name i = some k) (hfollows : k ≠ lead)
    (hentry : s.view i k ≠ none) (value : Option ν) :
    Base lead ((s.setSaid i value).send i (.value value)) := by
  have hsaid {i' : ι} (hne : i' ≠ i) :
      ((s.setSaid i value).send i (.value value)).said i' = s.said i' :=
    said_setSaid_of_ne hne
  have hpath {i' : ι} (hne : i' ≠ i) (j : ι) :
      ((s.setSaid i value).send i (.value value)).path i' j = s.path i' j := by
    rw [path_send, if_neg hne]
    rfl
  have hvalues (j : ι) : values (((s.setSaid i value).send i (.value value)).path i j) =
      values (s.path i j) ++ [value] := by
    rw [path_send, if_pos rfl, values_append]
    rfl
  constructor
  case outsider =>
    intro i' hi'
    have hne := ne_of_outsider hi' hi
    obtain ⟨hnone, hview, hnothing⟩ := h.outsider i' hi'
    exact ⟨fun j => (hpath hne j).trans (hnone j), hview, (hsaid hne).trans hnothing⟩
  case table_lead =>
    intro i' j hi'
    rw [tables_send_value]
    exact h.table_lead i' j hi'
  case value_follows =>
    intro i' j hi'
    rw [hpath (ne_of_name hi' hi hfollows)]
    exact h.value_follows i' j hi'
  case last_value =>
    intro i' j value' hvalue'
    by_cases hne : i' = i
    · subst hne
      rw [hvalues, List.getLast?_concat] at hvalue'
      rw [← Option.some.inj hvalue']
      exact said_setSaid_self.symm
    · rw [hpath hne] at hvalue'
      rw [hsaid hne]
      exact h.last_value i' j value' hvalue'
  case heard =>
    intro m i' k' hm hi' hother hnil
    by_cases hne : i' = i
    · subst hne
      rw [hvalues] at hnil
      simp at hnil
    · rw [hpath hne] at hnil
      rw [hsaid hne]
      exact h.heard m i' k' hm hi' hother hnil
  case known_table =>
    intro m j k' hm table htable
    rw [tables_send_value] at htable
    exact h.known_table m j k' hm table htable
  case known_said =>
    intro m i' k' hm hi' hmentioned
    by_cases hne : i' = i
    · subst hne
      obtain rfl : k = k' := Option.some.inj (hi.symm.trans hi')
      exact h.known_view m i' k hm hentry
    · rw [hsaid hne] at hmentioned
      simp only [hpath hne] at hmentioned
      exact h.known_said m i' k' hm hi' hmentioned
  exacts [h.name_inj, h.led, h.known_view, h.named]

theorem Base.setSaidAtLeader (h : Base lead s) (hm : s.name m = some lead)
    (hentry : s.view m lead ≠ none) (value : Option ν) : Base lead (s.setSaid m value) := by
  have hsaid {i : ι} (hne : i ≠ m) : (s.setSaid m value).said i = s.said i :=
    said_setSaid_of_ne hne
  constructor
  case outsider =>
    intro i hi
    have hne := ne_of_outsider hi hm
    rw [hsaid hne]
    exact h.outsider i hi
  case last_value =>
    intro i j value' hvalue'
    by_cases hne : i = m
    · subst hne
      have hnil : values (s.path i j) = [] := h.value_follows i j hm
      change value' ∈ (values (s.path i j)).getLast? at hvalue'
      rw [hnil] at hvalue'
      cases hvalue'
    · rw [hsaid hne]
      exact h.last_value i j value' hvalue'
  case heard =>
    intro m' i k hm' hi hne hnil
    rw [hsaid (h.name_inj m' m lead hm' hm ▸ hne)]
    exact h.heard m' i k hm' hi hne hnil
  case known_said =>
    intro m' i k hm' hi hmentioned
    obtain rfl := h.name_inj m' m lead hm' hm
    by_cases hne : i = m'
    · subst hne
      obtain rfl : lead = k := Option.some.inj (hm.symm.trans hi)
      exact hentry
    · rw [hsaid hne] at hmentioned
      exact h.known_said m' i k hm hi hmentioned
  exacts [h.name_inj, h.led, h.table_lead, h.value_follows, h.known_view, h.known_table, h.named]

/-- A newcomer has said nothing, and nobody has an entry for it. -/
theorem Base.setName (h : Base lead s) (hnew : s.name i = none) (hfree : ∀ j, s.name j ≠ some k)
    (hfirst : (∀ j, s.name j = none) → k = lead) : Base lead (s.setName i k) := by
  obtain ⟨hpath, hview, hsaid⟩ := h.outsider i hnew
  have htables (j : ι) : tables (s.path i j) = [] := by
    rw [hpath]
    rfl
  have hvalues (j : ι) : values (s.path i j) = [] := by
    rw [hpath]
    rfl
  have hcases {j : ι} {k' : κ} (hj : (s.setName i k).name j = some k') :
      (j = i ∧ k' = k) ∨ (j ≠ i ∧ s.name j = some k') := by
    by_cases hne : j = i
    · subst hne
      rw [name_setName_self] at hj
      exact Or.inl ⟨rfl, (Option.some.inj hj).symm⟩
    · rw [name_setName_of_ne hne] at hj
      exact Or.inr ⟨hne, hj⟩
  constructor
  case name_inj =>
    intro j j' k' hj hj'
    rcases hcases hj with ⟨rfl, rfl⟩ | ⟨-, hold⟩
    · rcases hcases hj' with ⟨rfl, -⟩ | ⟨-, hold'⟩
      · rfl
      · exact absurd hold' (hfree j')
    · rcases hcases hj' with ⟨rfl, rfl⟩ | ⟨-, hold'⟩
      · exact absurd hold (hfree j)
      · exact h.name_inj j j' k' hold hold'
  case led =>
    intro j _
    by_cases hsome : ∃ j, s.name j ≠ none
    · obtain ⟨j', hj'⟩ := hsome
      obtain ⟨m, hm⟩ := h.led j' hj'
      have hne := (ne_of_outsider hnew hm).symm
      exact ⟨m, (name_setName_of_ne hne).trans hm⟩
    · push Not at hsome
      exact ⟨i, hfirst hsome ▸ name_setName_self⟩
  case outsider =>
    intro j hj
    have hne : j ≠ i := by
      rintro rfl
      rw [name_setName_self] at hj
      cases hj
    rw [name_setName_of_ne hne] at hj
    exact h.outsider j hj
  case table_lead =>
    intro i' j hi'
    by_cases hne : i' = i
    · subst hne
      exact htables j
    · rw [name_setName_of_ne hne] at hi'
      exact h.table_lead i' j hi'
  case value_follows =>
    intro i' j hi'
    rcases hcases hi' with ⟨rfl, -⟩ | ⟨-, hold⟩
    · exact hvalues j
    · exact h.value_follows i' j hold
  case heard =>
    intro m i' k' hm hi' hne hnil
    rcases hcases hm with ⟨rfl, hlead⟩ | ⟨-, hold⟩
    · rcases hcases hi' with ⟨rfl, -⟩ | ⟨-, hold'⟩
      · exact absurd rfl hne
      · rw [h.alone (hlead ▸ hfree)] at hold'
        cases hold'
    · rcases hcases hi' with ⟨rfl, rfl⟩ | ⟨-, hold'⟩
      · change valueAt (s.view m) k' = s.said i'
        rw [valueAt, h.fresh hold hfree, hsaid]
        rfl
      · exact h.heard m i' k' hold hold' hne hnil
  case known_view =>
    intro m i' k' hm hentry
    rcases hcases hm with ⟨rfl, hlead⟩ | ⟨-, hold⟩
    · exact absurd ((h.outsider i' (h.alone (hlead ▸ hfree) i')).2.1 k') hentry
    · exact h.known_view m i' k' hold hentry
  case known_table =>
    intro m j k' hm table htable hentry
    rcases hcases hm with ⟨rfl, -⟩ | ⟨-, hold⟩
    · have hnone : tables ((s.setName m k).path m j) = [] := htables j
      rw [hnone] at htable
      cases htable
    · exact h.known_table m j k' hold table htable hentry
  case known_said =>
    intro m i' k' hm hi' hmentioned
    rcases hcases hi' with ⟨rfl, rfl⟩ | ⟨hne, hold'⟩
    · exfalso
      rcases hmentioned with hsome | ⟨j, hj⟩
      · exact hsome hsaid
      · exact hj (hvalues j)
    · rcases hcases hm with ⟨rfl, hlead⟩ | ⟨-, hold⟩
      · rw [h.alone (hlead ▸ hfree)] at hold'
        cases hold'
      · exact h.known_said m i' k' hold hold' hmentioned
  case named =>
    intro m k' hm hentry
    rcases hcases hm with ⟨rfl, -⟩ | ⟨-, hold⟩
    · exact absurd (hview k') hentry
    · obtain ⟨j, hj⟩ := h.named m k' hold hentry
      have hne := (ne_of_outsider hnew hj).symm
      exact ⟨j, (name_setName_of_ne hne).trans hj⟩
  exact h.last_value

variable [DecidableEq κ]

theorem Base.hearAtLeader (h : Base lead s) {value : Option ν} {rest : List (Msg κ α ν)}
    (hi : s.name i = some k) (hj : s.name j = some lead) (hne : i ≠ j)
    (hpath : s.path i j = .value value :: rest) :
    Base lead ((s.advance i j rest).setView j (setValue (s.view j) k value)) := by
  have hother {i' : ι} {k' : κ} (hi' : s.name i' = some k') (hii : i' ≠ i) : k' ≠ k := by
    rintro rfl
    exact hii (h.name_inj i' i k' hi' hi)
  have hview : Base lead (s.setView j (setValue (s.view j) k value)) := by
    apply h.setViewAtLeader hj
    · intro k' hentry
      exact setValue_ne_none hentry
    · intro k' hentry
      by_cases hk : k' = k
      · exact ⟨i, hk ▸ hi⟩
      · rw [setValue_of_ne hk] at hentry
        exact h.named j k' hj hentry
    · intro i' k' hi' hij hnil
      by_cases hii : i' = i
      · subst hii
        rw [hpath] at hnil
        cases hnil
      · rw [valueAt, setValue_of_ne (hother hi' hii)]
        exact h.heard j i' k' hj hi' hij hnil
  apply hview.shorten (path_advance_suffix hpath)
  intro m i' k' hm hi' him hnil
  obtain rfl := h.name_inj m j lead hm hj
  rw [view_setView_self]
  by_cases hii : i' = i
  · subst hii
    obtain rfl : k = k' := Option.some.inj (hi.symm.trans hi')
    rw [path_advance_self] at hnil
    rw [valueAt_setValue]
    apply h.last_value i' m
    rw [hpath, values_cons_value, hnil]
    rfl
  · rw [path_advance_of_ne (Or.inl hii)] at hnil
    rw [valueAt, setValue_of_ne (hother hi' hii)]
    exact h.heard m i' k' hm hi' him hnil

end Operations

end LeaderTable
