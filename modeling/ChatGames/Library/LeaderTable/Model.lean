import Mathlib.Data.List.Infix
import Mathlib.Logic.Function.Basic

/-!
# A table that a leader replicates

Every member has a copy of a table with an entry for each name. One part of an entry the leader
assigns, the other is a value that the member of that name sets. A member tells all others the value
it set, and the leader, whenever its own copy changed, tells all others the whole copy, which a
follower takes over in place of its own.

Between two members messages keep their order. Messages of different senders do not, so that an old
copy may follow a newer value and undo it for a while. `Inv` is the invariant that says why this
passes: what is missing in a copy is on its way to it.
-/

namespace LeaderTable

section Definitions

structure Entry (α ν : Type*) where
  assigned : Option α
  value : Option ν

abbrev Table (κ α ν : Type*) := κ → Option (Entry α ν)

inductive Msg (κ α ν : Type*) where
  | value (value : Option ν)
  | table (table : Table κ α ν)

variable {ι κ α ν : Type*}

/-- `path i j` is what `i` has said and `j` has still to hear. For a `j` that is no member it is
what `j` would hear if it became one now. -/
@[ext]
structure State (ι κ α ν : Type*) where
  name : ι → Option κ
  view : ι → Table κ α ν
  path : ι → ι → List (Msg κ α ν)
  said : ι → Option ν

def values (msgs : List (Msg κ α ν)) : List (Option ν) :=
  msgs.filterMap fun
    | .value value => some value
    | .table _ => none

def tables (msgs : List (Msg κ α ν)) : List (Table κ α ν) :=
  msgs.filterMap fun
    | .value _ => none
    | .table table => some table

def valueAt (table : Table κ α ν) (k : κ) : Option ν := (table k).bind Entry.value

def State.init : State ι κ α ν where
  name _ := none
  view _ _ := none
  path _ _ := []
  said _ := none

/-! ### The invariant -/

/-- What holds whatever the leader has announced. -/
structure Base (lead : κ) (s : State ι κ α ν) : Prop where
  name_inj : ∀ i j k, s.name i = some k → s.name j = some k → i = j
  led : ∀ i, s.name i ≠ none → ∃ m, s.name m = some lead
  outsider : ∀ i, s.name i = none → (∀ j, s.path i j = []) ∧ (∀ k, s.view i k = none) ∧
    s.said i = none
  table_lead : ∀ i j, s.name i ≠ some lead → tables (s.path i j) = []
  value_follows : ∀ i j, s.name i = some lead → values (s.path i j) = []
  /-- The last value under way is the last one set. -/
  last_value : ∀ i j, ∀ value ∈ (values (s.path i j)).getLast?, value = s.said i
  /-- The leader has the value of every other member from which none is under way. -/
  heard : ∀ m i k, s.name m = some lead → s.name i = some k → i ≠ m →
    values (s.path i m) = [] → valueAt (s.view m) k = s.said i
  known_view : ∀ m i k, s.name m = some lead → s.view i k ≠ none → s.view m k ≠ none
  known_table : ∀ m j k, s.name m = some lead → ∀ table ∈ tables (s.path m j),
    table k ≠ none → s.view m k ≠ none
  known_said : ∀ m i k, s.name m = some lead → s.name i = some k →
    s.said i ≠ none ∨ (∃ j, values (s.path i j) ≠ []) → s.view m k ≠ none
  named : ∀ m k, s.name m = some lead → s.view m k ≠ none → ∃ i, s.name i = some k

/-- The copies of `m` and `j` agree on `k`, up to a value that is on its way from its member. -/
def Agrees (s : State ι κ α ν) (m j : ι) (k : κ) : Prop :=
  (s.view j k).map Entry.assigned = (s.view m k).map Entry.assigned ∧
    ∀ i, s.name i = some k → i = j ∨ values (s.path i j) = [] → s.view j k = s.view m k

/-- A table will come to `j`, because one is under way, because `m` has still to make the entry of
`j`, or because a value is on its way to `m`; or the copies agree. -/
def Close (s : State ι κ α ν) (m j : ι) (l k : κ) : Prop :=
  tables (s.path m j) ≠ [] ∨ s.view m l = none ∨
    (∃ i, s.name i = some k ∧ i ≠ m ∧ values (s.path i m) ≠ []) ∨ Agrees s m j k

structure Inv (lead : κ) (s : State ι κ α ν) : Prop extends Base lead s where
  own : ∀ m, s.name m = some lead → valueAt (s.view m) lead = s.said m
  /-- The last table under way is the leader's. -/
  last_table : ∀ m j, s.name m = some lead → ∀ table ∈ (tables (s.path m j)).getLast?,
    table = s.view m
  close : ∀ m j l k, s.name m = some lead → s.name j = some l → j ≠ m → Close s m j l k

/-! ### The steps -/

section Operations

variable [DecidableEq κ]

def setValue (table : Table κ α ν) (k : κ) (value : Option ν) : Table κ α ν :=
  Function.update table k (some ⟨(table k).bind Entry.assigned, value⟩)

variable [DecidableEq ι]

namespace State

variable (s : State ι κ α ν)

def setName (i : ι) (k : κ) : State ι κ α ν := { s with name := Function.update s.name i (some k) }

def setView (i : ι) (table : Table κ α ν) : State ι κ α ν :=
  { s with view := Function.update s.view i table }

def setSaid (i : ι) (value : Option ν) : State ι κ α ν :=
  { s with said := Function.update s.said i value }

/-- `i` says something to everybody. -/
def send (i : ι) (msg : Msg κ α ν) : State ι κ α ν :=
  { s with path := Function.update s.path i fun j => s.path i j ++ [msg] }

/-- `j` has heard all but `rest` of what `i` said. -/
def advance (i j : ι) (rest : List (Msg κ α ν)) : State ι κ α ν :=
  { s with path := Function.update s.path i (Function.update (s.path i) j rest) }

/-- The oldest thing `i` said is on its way to the members, and those that are none miss it. -/
def relay (i : ι) : State ι κ α ν :=
  { s with path := Function.update s.path i fun j =>
      if j ≠ i ∧ s.name j ≠ none then s.path i j else (s.path i j).tail }

def announce (i : ι) : State ι κ α ν := s.send i (.table (s.view i))

end State

/-- One step. `lead` is the name of the first member, the leader. -/
inductive Step (lead : κ) : State ι κ α ν → State ι κ α ν → Prop
  | join {s : State ι κ α ν} {i : ι} {k : κ} (hnew : s.name i = none)
      (hfree : ∀ j, s.name j ≠ some k) (hfirst : (∀ j, s.name j = none) → k = lead) :
      Step lead s (s.setName i k)
  | relay {s : State ι κ α ν} {i : ι} : Step lead s (s.relay i)
  | hear {s : State ι κ α ν} {i j : ι} {k l : κ} {value : Option ν} {rest : List (Msg κ α ν)}
      (hi : s.name i = some k) (hj : s.name j = some l) (hne : i ≠ j) (hfollows : l ≠ lead)
      (hpath : s.path i j = .value value :: rest) :
      Step lead s ((s.advance i j rest).setView j (setValue (s.view j) k value))
  | hearAtLeader {s : State ι κ α ν} {i j : ι} {k : κ} {value : Option ν}
      {rest : List (Msg κ α ν)} (hi : s.name i = some k) (hj : s.name j = some lead) (hne : i ≠ j)
      (hpath : s.path i j = .value value :: rest) :
      Step lead s (((s.advance i j rest).setView j (setValue (s.view j) k value)).announce j)
  | take {s : State ι κ α ν} {i j : ι} {l : κ} {table : Table κ α ν} {rest : List (Msg κ α ν)}
      (hj : s.name j = some l) (hfollows : l ≠ lead)
      (hpath : s.path i j = .table table :: rest) :
      Step lead s ((s.advance i j rest).setView j table)
  | extend {s : State ι κ α ν} {j : ι} {table : Table κ α ν} (hj : s.name j = some lead)
      (hkept : ∀ k, s.view j k ≠ none → table k = s.view j k)
      (hfresh : ∀ k, table k ≠ none → s.view j k = none →
        valueAt table k = none ∧ ∃ i, s.name i = some k) :
      Step lead s ((s.setView j table).announce j)
  | say {s : State ι κ α ν} {i : ι} {k : κ} {value : Option ν} (hi : s.name i = some k)
      (hfollows : k ≠ lead) (hentry : s.view i k ≠ none) :
      Step lead s (((s.setView i (setValue (s.view i) k value)).setSaid i value).send i
        (.value value))
  | sayAtLeader {s : State ι κ α ν} {i : ι} {value : Option ν} (hi : s.name i = some lead)
      (hentry : s.view i lead ≠ none) :
      Step lead s (((s.setView i (setValue (s.view i) lead value)).setSaid i value).announce i)

end Operations

end Definitions

variable {ι κ α ν : Type*}

/-! ### Messages under way -/

section Messages

variable {msgs rest : List (Msg κ α ν)}

@[simp]
theorem values_cons_value (value : Option ν) :
    values (.value value :: msgs) = value :: values msgs := rfl

@[simp]
theorem values_cons_table (table : Table κ α ν) : values (.table table :: msgs) = values msgs := rfl

@[simp]
theorem tables_cons_value (value : Option ν) : tables (.value value :: msgs) = tables msgs := rfl

@[simp]
theorem tables_cons_table (table : Table κ α ν) :
    tables (.table table :: msgs) = table :: tables msgs := rfl

@[simp]
theorem values_append : values (msgs ++ rest) = values msgs ++ values rest :=
  List.filterMap_append

@[simp]
theorem tables_append : tables (msgs ++ rest) = tables msgs ++ tables rest :=
  List.filterMap_append

theorem values_suffix (h : rest <:+ msgs) : values rest <:+ values msgs := h.filterMap _

theorem tables_suffix (h : rest <:+ msgs) : tables rest <:+ tables msgs := h.filterMap _

theorem mem_getLast?_of_suffix {β : Type*} {l l' : List β} (h : l' <:+ l) {b : β}
    (hb : b ∈ l'.getLast?) : b ∈ l.getLast? := by
  obtain ⟨before, rfl⟩ := h
  rw [List.getLast?_append, Option.mem_def.mp hb]
  rfl

theorem eq_nil_of_suffix {β : Type*} {l l' : List β} (h : l' <:+ l) (hl : l = []) : l' = [] := by
  rw [hl] at h
  exact List.suffix_nil.mp h

end Messages

section Table

variable [DecidableEq κ] {table : Table κ α ν} {k : κ} {value : Option ν}

@[simp]
theorem valueAt_setValue : valueAt (setValue table k value) k = value := by
  simp [valueAt, setValue]

theorem setValue_of_ne {k' : κ} (h : k' ≠ k) : setValue table k value k' = table k' :=
  Function.update_of_ne h _ _

theorem setValue_ne_none {k' : κ} (h : table k' ≠ none) : setValue table k value k' ≠ none := by
  by_cases hk : k' = k
  · subst hk
    simp [setValue]
  · rwa [setValue_of_ne hk]

end Table

/-! ### Single operations -/

variable {lead : κ} {s : State ι κ α ν}

theorem ne_of_name {m j : ι} {l : κ} (hm : s.name m = some lead) (hj : s.name j = some l)
    (hfollows : l ≠ lead) : m ≠ j := by
  rintro rfl
  rw [hm] at hj
  exact hfollows (Option.some.inj hj).symm

theorem ne_of_outsider {i j : ι} {l : κ} (hi : s.name i = none) (hj : s.name j = some l) :
    i ≠ j := by
  rintro rfl
  rw [hi] at hj
  cases hj

section Operations

variable [DecidableEq ι] {i j m : ι} {k l : κ}

theorem path_send (msg : Msg κ α ν) (i' j : ι) :
    (s.send i msg).path i' j = if i' = i then s.path i' j ++ [msg] else s.path i' j := by
  by_cases hi : i' = i
  · subst hi
    simp [State.send]
  · simp [State.send, hi]

theorem path_advance_of_ne {rest : List (Msg κ α ν)} {i' j' : ι} (h : i' ≠ i ∨ j' ≠ j) :
    (s.advance i j rest).path i' j' = s.path i' j' := by
  by_cases hi : i' = i
  · subst hi
    have hj : j' ≠ j := h.resolve_left (absurd rfl)
    simp [State.advance, hj]
  · simp [State.advance, hi]

theorem path_advance_self {rest : List (Msg κ α ν)} : (s.advance i j rest).path i j = rest := by
  simp [State.advance]

theorem path_advance_suffix {msg : Msg κ α ν} {rest : List (Msg κ α ν)}
    (hpath : s.path i j = msg :: rest) (i' j' : ι) :
    (s.advance i j rest).path i' j' <:+ s.path i' j' := by
  by_cases h : i' = i ∧ j' = j
  · obtain ⟨rfl, rfl⟩ := h
    rw [path_advance_self, hpath]
    exact List.suffix_cons _ _
  · rw [path_advance_of_ne (not_and_or.mp h)]

theorem path_relay_of_member {i' : ι} (hne : j ≠ i') (hj : s.name j ≠ none) :
    (s.relay i).path i' j = s.path i' j := by
  by_cases hi : i' = i
  · subst hi
    simp [State.relay, hne, hj]
  · simp [State.relay, hi]

theorem path_relay_of_ne {i' : ι} (h : i' ≠ i) : (s.relay i).path i' j = s.path i' j := by
  simp [State.relay, h]

theorem path_relay_missed (h : ¬(j ≠ i ∧ s.name j ≠ none)) :
    (s.relay i).path i j = (s.path i j).tail := by
  simp only [State.relay, Function.update_self]
  rw [if_neg h]

theorem path_relay_suffix (i i' j : ι) : (s.relay i).path i' j <:+ s.path i' j := by
  by_cases hi : i' = i
  · subst hi
    simp only [State.relay, Function.update_self]
    split
    · exact List.suffix_rfl
    · exact List.tail_suffix _
  · simp [State.relay, hi]

theorem view_setView_self {table : Table κ α ν} : (s.setView j table).view j = table :=
  Function.update_self _ _ _

theorem view_setView_of_ne {table : Table κ α ν} (h : i ≠ j) :
    (s.setView j table).view i = s.view i := Function.update_of_ne h _ _

theorem setView_eq_self : s.setView j (s.view j) = s := by
  rw [State.setView, Function.update_eq_self]

theorem setSaid_eq_self : s.setSaid j (s.said j) = s := by
  rw [State.setSaid, Function.update_eq_self]

theorem said_setSaid_self {value : Option ν} : (s.setSaid i value).said i = value :=
  Function.update_self _ _ _

theorem said_setSaid_of_ne {value : Option ν} (h : j ≠ i) :
    (s.setSaid i value).said j = s.said j := Function.update_of_ne h _ _

theorem name_setName_self : (s.setName i k).name i = some k := Function.update_self _ _ _

theorem name_setName_of_ne (h : j ≠ i) : (s.setName i k).name j = s.name j :=
  Function.update_of_ne h _ _

end Operations

end LeaderTable
