import ChatGames.Library.LeaderTable.Base
import Mathlib.Logic.Relation

/-!
# Agreement

Every step keeps the invariant, and the invariant says that copies agree once nothing is under way.
-/

namespace LeaderTable

variable {ι κ α ν : Type*} {lead : κ} {s s' : State ι κ α ν}

section Operations

variable [DecidableEq ι] [DecidableEq κ] {i j m : ι} {k l : κ}

omit [DecidableEq κ] in
/-- An announcement brings a table to everybody. -/
theorem Base.inv_announce (h : Base lead s) (hm : s.name m = some lead)
    (hown : valueAt (s.view m) lead = s.said m) : Inv lead (s.announce m) where
  toBase := h.announce hm
  own m' hm' := by
    rw [h.name_inj m' m lead hm' hm]
    exact hown
  last_table m' j hm' table htable := by
    rw [h.name_inj m' m lead hm' hm, tables_announce_self, List.getLast?_concat] at htable
    rw [h.name_inj m' m lead hm' hm]
    exact (Option.some.inj htable).symm
  close m' j l k hm' _ _ := by
    left
    rw [h.name_inj m' m lead hm' hm, tables_announce_self]
    simp

omit [DecidableEq ι] [DecidableEq κ] in
/-- What is close stays so when neither copy of the entry nor the messages that matter change. -/
theorem Close.congr (h : Close s m j l k) (hname : s'.name = s.name) (hm : s'.view m = s.view m)
    (hj : s'.view j k = s.view j k) (htables : tables (s'.path m j) = tables (s.path m j))
    (hto : ∀ i, s.name i = some k → i ≠ m → values (s'.path i m) = values (s.path i m))
    (hfrom : ∀ i, s.name i = some k → i ≠ j → values (s'.path i j) = values (s.path i j)) :
    Close s' m j l k := by
  rcases h with h | h | ⟨i, hi, hne, hvalues⟩ | ⟨hassigned, hsame⟩
  · exact Or.inl (htables ▸ h)
  · exact Or.inr (Or.inl (hm ▸ h))
  · exact Or.inr (Or.inr (Or.inl ⟨i, hname ▸ hi, hne, hto i hi hne ▸ hvalues⟩))
  · refine Or.inr (Or.inr (Or.inr ⟨by rw [hm, hj, hassigned], fun i hi hheard => ?_⟩))
    rw [hname] at hi
    rw [hm, hj]
    apply hsame i hi
    by_cases hij : i = j
    · exact Or.inl hij
    · exact Or.inr (hfrom i hi hij ▸ hheard.resolve_left hij)

omit [DecidableEq κ] in
theorem Inv.setName (h : Inv lead s) (hnew : s.name i = none) (hfree : ∀ j, s.name j ≠ some k)
    (hfirst : (∀ j, s.name j = none) → k = lead) : Inv lead (s.setName i k) := by
  obtain ⟨hpath, hview, hsaid⟩ := h.outsider i hnew
  refine ⟨h.toBase.setName hnew hfree hfirst, ?_, ?_, ?_⟩
  · intro m hm
    by_cases hmi : m = i
    · subst hmi
      change valueAt (s.view m) lead = s.said m
      rw [valueAt, hview, hsaid]
      rfl
    · rw [name_setName_of_ne hmi] at hm
      exact h.own m hm
  · intro m j hm table htable
    by_cases hmi : m = i
    · subst hmi
      change table ∈ (tables (s.path m j)).getLast? at htable
      rw [hpath] at htable
      cases htable
    · rw [name_setName_of_ne hmi] at hm
      exact h.last_table m j hm table htable
  · intro m j l k' hm hj hne
    by_cases hmi : m = i
    · subst hmi
      rw [name_setName_self] at hm
      rw [name_setName_of_ne hne, h.alone (Option.some.inj hm ▸ hfree)] at hj
      cases hj
    · rw [name_setName_of_ne hmi] at hm
      have hnone := h.fresh hm hfree
      by_cases hji : j = i
      · subst hji
        rw [name_setName_self] at hj
        exact Or.inr (Or.inl (Option.some.inj hj ▸ hnone))
      · rw [name_setName_of_ne hji] at hj
        have hold {i' : ι} (hi' : s.name i' ≠ none) : (s.setName i k).name i' = s.name i' := by
          apply name_setName_of_ne
          rintro rfl
          exact hi' hnew
        rcases h.close m j l k' hm hj hne with htable | hown | ⟨i', hi', hvalue⟩ | hagrees
        · exact Or.inl htable
        · exact Or.inr (Or.inl hown)
        · exact Or.inr (Or.inr (Or.inl ⟨i', (hold (by simp [hi'])).trans hi', hvalue⟩))
        · refine Or.inr (Or.inr (Or.inr ⟨hagrees.1, fun i' hi' hheard => ?_⟩))
          by_cases hii : i' = i
          · subst hii
            rw [name_setName_self] at hi'
            obtain rfl := Option.some.inj hi'
            have hnone' : s.view j k = none := by
              by_contra hentry
              exact h.known_view m j k hm hentry hnone
            exact hnone'.trans hnone.symm
          · rw [name_setName_of_ne hii] at hi'
            exact hagrees.2 i' hi' hheard

omit [DecidableEq κ] in
theorem Inv.relay (h : Inv lead s) (i : ι) : Inv lead (s.relay i) := by
  refine ⟨h.toBase.relay i, h.own, ?_, ?_⟩
  · intro m j hm table htable
    exact h.last_table m j hm table
      (mem_getLast?_of_suffix (tables_suffix (path_relay_suffix i m j)) htable)
  · intro m j l k hm hj hne
    have hmember {j : ι} {k : κ} (hj : s.name j = some k) {i' : ι} (hi' : i' ≠ j) :
        (s.relay i).path i' j = s.path i' j :=
      path_relay_of_member hi'.symm (by simp [hj])
    refine (h.close m j l k hm hj hne).congr rfl rfl rfl ?_ ?_ ?_
    · rw [hmember hj hne.symm]
    · intro i' _ hi'
      rw [hmember hm hi']
    · intro i' _ hi'
      rw [hmember hj hi']

/-- A value that the leader has heard is the last one its member set, and so is the last one that
comes to `j`. -/
theorem Inv.agrees_of_hear (h : Inv lead s) {value : Option ν} {rest : List (Msg κ α ν)}
    (hm : s.name m = some lead) (hi : s.name i = some k) (hne : i ≠ j) (him : i ≠ m)
    (hmj : m ≠ j) (hpath : s.path i j = .value value :: rest) (hheard : values (s.path i m) = [])
    (hassigned : (s.view j k).map Entry.assigned = (s.view m k).map Entry.assigned) :
    Agrees ((s.advance i j rest).setView j (setValue (s.view j) k value)) m j k := by
  have hknown : s.view m k ≠ none := by
    apply h.known_said m i k hm hi
    exact Or.inr ⟨j, by simp [hpath]⟩
  obtain ⟨entry, hentry⟩ := Option.ne_none_iff_exists'.mp hknown
  have hvalue : entry.value = s.said i := by
    rw [← h.heard m i k hm hi him hheard, valueAt, hentry]
    rfl
  rw [hentry, Option.map_some, Option.map_eq_some_iff] at hassigned
  obtain ⟨copy, hcopy, hsame⟩ := hassigned
  have hnew : setValue (s.view j) k value k = some ⟨entry.assigned, value⟩ := by
    simp [setValue, hcopy, hsame]
  rw [Agrees, view_setView_self, view_setView_of_ne hmj]
  change (setValue (s.view j) k value k).map _ = (s.view m k).map _ ∧ _
  rw [hnew]
  refine ⟨by rw [hentry]; rfl, fun i' hi' hlast => ?_⟩
  obtain rfl := h.name_inj i' i k hi' hi
  have hnil : values rest = [] := by
    have hrest := hlast.resolve_left hne
    change values ((s.advance i' j rest).path i' j) = [] at hrest
    rwa [path_advance_self] at hrest
  have hsaid : value = s.said i' := by
    apply h.last_value i' j
    rw [hpath, values_cons_value, hnil]
    rfl
  change some _ = s.view m k
  rw [hentry, hsaid, ← hvalue]

theorem Inv.hear (h : Inv lead s) {value : Option ν} {rest : List (Msg κ α ν)}
    (hi : s.name i = some k) (hj : s.name j = some l) (hne : i ≠ j) (hfollows : l ≠ lead)
    (hpath : s.path i j = .value value :: rest) :
    Inv lead ((s.advance i j rest).setView j (setValue (s.view j) k value)) := by
  have hbase : Base lead ((s.advance i j rest).setView j (setValue (s.view j) k value)) := by
    apply (h.toBase.advance hj hfollows hpath).setView hj hfollows
    intro m k' hm hentry
    by_cases hk : k' = k
    · subst hk
      apply h.known_said m i k' hm hi
      exact Or.inr ⟨j, by simp [hpath]⟩
    · rw [setValue_of_ne hk] at hentry
      exact h.known_view m j k' hm hentry
  have hview {m : ι} (hm : s.name m = some lead) :
      ((s.advance i j rest).setView j (setValue (s.view j) k value)).view m = s.view m :=
    view_setView_of_ne (ne_of_name hm hj hfollows)
  have hleader {m : ι} (hm : s.name m = some lead) (i' : ι) :
      (s.advance i j rest).path i' m = s.path i' m :=
    path_advance_of_ne (Or.inr (ne_of_name hm hj hfollows))
  have htables (i' j' : ι) : tables ((s.advance i j rest).path i' j') = tables (s.path i' j') := by
    by_cases h : i' = i ∧ j' = j
    · obtain ⟨rfl, rfl⟩ := h
      rw [path_advance_self, hpath, tables_cons_value]
    · rw [path_advance_of_ne (not_and_or.mp h)]
  refine ⟨hbase, ?_, ?_, ?_⟩
  · intro m hm
    rw [hview hm]
    exact h.own m hm
  · intro m j' hm table htable
    change table ∈ (tables ((s.advance i j rest).path m j')).getLast? at htable
    rw [htables] at htable
    rw [hview hm]
    exact h.last_table m j' hm table htable
  · intro m j' l' k' hm hj' hjm
    have hclose := h.close m j' l' k' hm hj' hjm
    by_cases hmoved : j' = j ∧ k' = k
    · obtain ⟨rfl, rfl⟩ := hmoved
      have him : i ≠ m := by
        rintro rfl
        have hmute := h.value_follows i j' hm
        rw [hpath] at hmute
        cases hmute
      rcases hclose with htable | hown | hvalues | ⟨hassigned, -⟩
      · exact Or.inl ((htables m j').symm ▸ htable)
      · exact Or.inr (Or.inl ((hview hm).symm ▸ hown))
      · obtain ⟨i', hi', him', hvalues⟩ := hvalues
        exact Or.inr (Or.inr (Or.inl ⟨i', hi', him', (hleader hm i').symm ▸ hvalues⟩))
      · by_cases hheard : values (s.path i m) = []
        · exact Or.inr (Or.inr (Or.inr
            (h.agrees_of_hear hm hi hne him hjm.symm hpath hheard hassigned)))
        · exact Or.inr (Or.inr (Or.inl ⟨i, hi, him, (hleader hm i).symm ▸ hheard⟩))
    · have hpathj (i' : ι) (hi' : s.name i' = some k') :
          (s.advance i j rest).path i' j' = s.path i' j' := by
        apply path_advance_of_ne
        by_contra hboth
        push Not at hboth
        obtain ⟨rfl, rfl⟩ := hboth
        exact hmoved ⟨rfl, Option.some.inj (hi'.symm.trans hi)⟩
      refine hclose.congr rfl (hview hm) ?_ (htables m j') ?_ ?_
      · by_cases hjj : j' = j
        · subst hjj
          rw [view_setView_self, setValue_of_ne fun hk => hmoved ⟨rfl, hk⟩]
        · rw [view_setView_of_ne hjj]
          rfl
      · intro i' _ _
        exact congrArg values (hleader hm i')
      · intro i' hi' _
        exact congrArg values (hpathj i' hi')

omit [DecidableEq κ] in
theorem Inv.take (h : Inv lead s) {table : Table κ α ν} {rest : List (Msg κ α ν)}
    (hj : s.name j = some l) (hfollows : l ≠ lead) (hpath : s.path i j = .table table :: rest) :
    Inv lead ((s.advance i j rest).setView j table) := by
  have htable : table ∈ tables (s.path i j) := by simp [hpath]
  have hi := h.eq_lead htable
  have hbase : Base lead ((s.advance i j rest).setView j table) := by
    apply (h.toBase.advance hj hfollows hpath).setView hj hfollows
    intro m k hm hentry
    obtain rfl := h.name_inj m i lead hm hi
    exact h.known_table m j k hm table htable hentry
  have hview {m : ι} (hm : s.name m = some lead) :
      ((s.advance i j rest).setView j table).view m = s.view m :=
    view_setView_of_ne (ne_of_name hm hj hfollows)
  refine ⟨hbase, ?_, ?_, ?_⟩
  · intro m hm
    rw [hview hm]
    exact h.own m hm
  · intro m j' hm table' htable'
    rw [hview hm]
    exact h.last_table m j' hm table'
      (mem_getLast?_of_suffix (tables_suffix (path_advance_suffix hpath m j')) htable')
  · intro m j' l' k hm hj' hjm
    obtain rfl := h.name_inj m i lead hm hi
    by_cases hjj : j' = j
    · subst hjj
      by_cases hnil : tables rest = []
      · -- the last table under way is the leader's copy
        have hlast : table = s.view m := by
          apply h.last_table m j' hm
          rw [hpath, tables_cons_table, hnil]
          rfl
        have hsame : ((s.advance m j' rest).setView j' table).view j' =
            ((s.advance m j' rest).setView j' table).view m := by
          rw [view_setView_self, hview hm, hlast]
        exact Or.inr (Or.inr (Or.inr ⟨by rw [hsame], fun _ _ _ => by rw [hsame]⟩))
      · left
        change tables ((s.advance m j' rest).path m j') ≠ []
        rwa [path_advance_self]
    · have hpaths (i' : ι) {j'' : ι} (hne : j'' ≠ j) :
          ((s.advance m j rest).setView j table).path i' j'' = s.path i' j'' :=
        path_advance_of_ne (Or.inr hne)
      refine (h.close m j' l' k hm hj' hjm).congr rfl (hview hm) ?_ ?_ ?_ ?_
      · rw [view_setView_of_ne hjj]
        rfl
      · rw [hpaths m hjj]
      · intro i' _ _
        rw [hpaths i' (ne_of_name hm hj hfollows)]
      · intro i' _ _
        rw [hpaths i' hjj]

theorem Inv.say (h : Inv lead s) (hi : s.name i = some k) (hfollows : k ≠ lead)
    (hentry : s.view i k ≠ none) (value : Option ν) :
    Inv lead (((s.setView i (setValue (s.view i) k value)).setSaid i value).send i
      (.value value)) := by
  have hbase : Base lead (((s.setView i (setValue (s.view i) k value)).setSaid i value).send i
      (.value value)) := by
    refine (h.toBase.setView hi hfollows ?_).say hi hfollows ?_ value
    · intro m k' hm hentry'
      by_cases hk : k' = k
      · exact hk ▸ h.known_view m i k hm hentry
      · rw [setValue_of_ne hk] at hentry'
        exact h.known_view m i k' hm hentry'
    · rw [view_setView_self]
      exact setValue_ne_none hentry
  have hview {m : ι} (hm : s.name m = some lead) :
      (s.setView i (setValue (s.view i) k value)).view m = s.view m :=
    view_setView_of_ne (ne_of_name hm hi hfollows)
  refine ⟨hbase, ?_, ?_, ?_⟩
  · intro m hm
    change valueAt ((s.setView i (setValue (s.view i) k value)).view m) lead =
      ((s.setView i (setValue (s.view i) k value)).setSaid i value).said m
    rw [hview hm, said_setSaid_of_ne (ne_of_name hm hi hfollows)]
    exact h.own m hm
  · intro m j hm table htable
    rw [tables_send_value] at htable
    exact (h.last_table m j hm table htable).trans (hview hm).symm
  · intro m j l k' hm hj hjm
    by_cases hk : k' = k
    · subst hk
      refine Or.inr (Or.inr (Or.inl ⟨i, hi, (ne_of_name hm hi hfollows).symm, ?_⟩))
      rw [path_send, if_pos rfl]
      simp
    · have hother (i' j' : ι) (hi' : s.name i' = some k') :
          (((s.setView i (setValue (s.view i) k value)).setSaid i value).send i
            (.value value)).path i' j' = s.path i' j' := by
        rw [path_send, if_neg]
        · rfl
        · rintro rfl
          exact hk (Option.some.inj (hi'.symm.trans hi))
      refine (h.close m j l k' hm hj hjm).congr rfl (hview hm) ?_ ?_ ?_ ?_
      · by_cases hji : j = i
        · subst hji
          exact (congrFun view_setView_self k').trans (setValue_of_ne hk)
        · exact congrFun (view_setView_of_ne hji) k'
      · rw [tables_send_value]
        rfl
      · intro i' hi' _
        rw [hother i' m hi']
      · intro i' hi' _
        rw [hother i' j hi']

theorem Step.inv (hstep : Step lead s s') (h : Inv lead s) : Inv lead s' := by
  cases hstep with
  | join hnew hfree hfirst => exact h.setName hnew hfree hfirst
  | relay => exact h.relay _
  | hear hi hj hne hfollows hpath => exact h.hear hi hj hne hfollows hpath
  | @hearAtLeader i j k value rest hi hj hne hpath =>
      refine (h.toBase.hearAtLeader hi hj hne hpath).inv_announce hj ?_
      have hk : lead ≠ k := by
        rintro rfl
        exact hne (h.name_inj i j lead hi hj)
      rw [view_setView_self, valueAt, setValue_of_ne hk]
      exact h.own j hj
  | take hj hfollows hpath => exact h.take hj hfollows hpath
  | @extend j table hj hkept hfresh =>
      have hvalue {k : κ} {value : Option ν} (hvalue : valueAt (s.view j) k = value) :
          valueAt table k = value := by
        by_cases hold : s.view j k = none
        · rw [valueAt, hold] at hvalue
          by_cases hnew : table k = none
          · rwa [valueAt, hnew]
          · exact (hfresh k hnew hold).1.trans hvalue
        · rwa [valueAt, hkept k hold]
      have hbase : Base lead (s.setView j table) := by
        apply h.toBase.setViewAtLeader hj
        · intro k hentry
          rwa [hkept k hentry]
        · intro k hentry
          by_cases hold : s.view j k = none
          · exact (hfresh k hentry hold).2
          · exact h.named j k hj hold
        · intro i k hi hne hnil
          exact hvalue (h.heard j i k hj hi hne hnil)
      apply hbase.inv_announce hj
      rw [view_setView_self]
      exact hvalue (h.own j hj)
  | say hi hfollows hentry => exact h.say hi hfollows hentry _
  | @sayAtLeader i value hi hentry =>
      have hbase : Base lead (s.setView i (setValue (s.view i) lead value)) := by
        apply h.toBase.setViewAtLeader hi
        · intro k hold
          exact setValue_ne_none hold
        · intro k hold
          by_cases hk : k = lead
          · exact ⟨i, hk ▸ hi⟩
          · rw [setValue_of_ne hk] at hold
            exact h.named i k hi hold
        · intro i' k hi' hne hnil
          have hk : k ≠ lead := by
            rintro rfl
            exact hne (h.name_inj i' i k hi' hi)
          rw [valueAt, setValue_of_ne hk]
          exact h.heard i i' k hi hi' hne hnil
      refine (hbase.setSaidAtLeader hi ?_ value).inv_announce hi ?_
      · rw [view_setView_self]
        exact setValue_ne_none hentry
      · rw [said_setSaid_self]
        exact (congrArg (valueAt · lead) view_setView_self).trans valueAt_setValue

theorem Inv.steps (h : Inv lead s) (hsteps : Relation.ReflTransGen (Step lead) s s') :
    Inv lead s' := by
  induction hsteps with
  | refl => exact h
  | tail _ hstep ih => exact hstep.inv ih

omit [DecidableEq ι] [DecidableEq κ] in
theorem inv_init (lead : κ) : Inv lead (State.init : State ι κ α ν) where
  toBase := base_init lead
  own _ h := by cases h
  last_table _ _ h := by cases h
  close _ _ _ _ h := by cases h

omit [DecidableEq κ] in
/-- **Agreement.** When nothing is under way between members, a member for which the leader has an
entry has the leader's entries, with the values that were last set. -/
theorem Inv.agree (h : Inv lead s) (hm : s.name m = some lead)
    (hquiet : ∀ i j, s.name i ≠ none → s.name j ≠ none → i ≠ j → s.path i j = [])
    (hi : s.name i = some k) (hj : s.name j = some l) (hentry : s.view m l ≠ none) :
    s.view j k = s.view m k ∧ valueAt (s.view m) k = s.said i := by
  have hpath {i j : ι} {k l : κ} (hi : s.name i = some k) (hj : s.name j = some l) (hne : i ≠ j) :
      s.path i j = [] := hquiet i j (by simp [hi]) (by simp [hj]) hne
  constructor
  · by_cases hjm : j = m
    · rw [hjm]
    · rcases h.close m j l k hm hj hjm with htable | hnone | ⟨i', hi', him, hvalue⟩ | hagrees
      · rw [hpath hm hj (Ne.symm hjm)] at htable
        exact absurd rfl htable
      · exact absurd hnone hentry
      · rw [hpath hi' hm him] at hvalue
        exact absurd rfl hvalue
      · apply hagrees.2 i hi
        by_cases hij : i = j
        · exact Or.inl hij
        · exact Or.inr (congrArg values (hpath hi hj hij))
  · by_cases him : i = m
    · subst him
      obtain rfl : lead = k := Option.some.inj (hm.symm.trans hi)
      exact h.own i hm
    · exact h.heard m i k hm hi him (congrArg values (hpath hi hm him))

end Operations

end LeaderTable