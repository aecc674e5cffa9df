import ChatGames.Queue
import ChatGames.Serialization
import Mathlib.Data.Rat.Floor

/-!
# Lua values

What a message of the scenes is made of. Finite numbers are exact. A table is the list of its
entries in the order in which `pairs` comes to them; two tables that are keys are never the same
key, as each of them is an object of its own.
-/

namespace ChatGames.Lua

inductive Number where
  | finite (q : ℚ)
  | inf (negative : Bool)
  | nan
deriving DecidableEq

inductive Value where
  | nil
  | boolean (b : Bool)
  | number (n : Number)
  | string (str : Bytes)
  | table (entries : List (Value × Value))

abbrev Entries := List (Value × Value)

namespace Value

def ofInt (n : ℤ) : Value := .number (.finite n)

def ofNat (n : Nat) : Value := ofInt n

def isNil : Value → Bool
  | nil => true
  | _ => false

def isTable : Value → Bool
  | table _ => true
  | _ => false

/-- Two keys that an access takes for the same. -/
def sameKey : Value → Value → Bool
  | boolean b, boolean b' => b = b'
  | number n, number n' => n = n' ∧ n ≠ .nan
  | string str, string str' => str = str'
  | _, _ => false

end Value

namespace Entries

/-- `t[key]` -/
def get (entries : Entries) (key : Value) : Value :=
  match entries.find? fun entry => entry.1.sameKey key with
  | some entry => entry.2
  | none => .nil

/-- `t[key] = val`, for a `key` that is neither nil nor nan. -/
def assign (entries : Entries) (key val : Value) : Entries :=
  if val.isNil then
    entries.filter fun entry => !entry.1.sameKey key
  else if entries.any fun entry => entry.1.sameKey key then
    entries.map fun entry => if entry.1.sameKey key then (entry.1, val) else entry
  else
    entries ++ [(key, val)]

/-- A new table to which the pairs are assigned one after the other. -/
def ofPairs (pairs : List (Value × Value)) : Entries :=
  pairs.foldl (fun entries pair => entries.assign pair.1 pair.2) []

/-- The fields of `{v1, v2, ..}`. -/
def array (vals : List Value) : Entries := (vals.zipIdx 1).map fun val => (.ofNat val.2, val.1)

/-- The values that `ipairs` comes to. -/
def ipairs (entries : Entries) : List Value :=
  ((List.range' 1 entries.length).map fun i => entries.get (.ofNat i)).takeWhile fun val =>
    !val.isNil

end Entries

/-! ### Tables whose keys are all different -/

theorem Value.eq_of_sameKey {key key' : Value} (h : key.sameKey key') : key = key' := by
  cases key <;> cases key' <;> simp_all [sameKey]

theorem Value.sameKey_comm (key key' : Value) : key.sameKey key' = key'.sameKey key := by
  rw [Bool.eq_iff_iff]
  constructor
  · intro h
    obtain rfl := eq_of_sameKey h
    exact h
  · intro h
    obtain rfl := eq_of_sameKey h
    exact h

theorem Value.isNil_eq_false {val : Value} (h : val ≠ nil) : val.isNil = false := by
  cases val <;> first | rfl | exact absurd rfl h

namespace Entries

/-- No two of the keys are the same, and no value is nil. -/
structure Distinct (entries : Entries) : Prop where
  keys : entries.Pairwise fun entry entry' => entry.1.sameKey entry'.1 = false
  values : ∀ entry ∈ entries, entry.2 ≠ .nil

variable {entries : Entries} {key val : Value}

theorem distinct_nil : Distinct [] := ⟨.nil, fun _ h => nomatch h⟩

theorem Distinct.of_sublist {entries' : Entries} (h : entries.Distinct)
    (hsub : List.Sublist entries' entries) : entries'.Distinct :=
  ⟨h.keys.sublist hsub, fun entry hmem => h.values entry (hsub.mem hmem)⟩

theorem assign_nil : entries.assign key .nil = entries.filter fun entry => !entry.1.sameKey key :=
  rfl

/-- The entry that an assignment replaces. -/
def replace (key val : Value) (entry : Value × Value) : Value × Value :=
  if entry.1.sameKey key then (entry.1, val) else entry

theorem assign_of_mem (hval : val ≠ .nil) (hany : entries.any fun entry => entry.1.sameKey key) :
    entries.assign key val = entries.map (replace key val) := by
  rw [assign, Value.isNil_eq_false hval, if_neg Bool.false_ne_true, if_pos hany]
  rfl

theorem replace_fst (key val : Value) (entry : Value × Value) :
    (replace key val entry).1 = entry.1 := by
  rw [replace]
  split <;> rfl

theorem assign_of_new (hnew : ∀ entry ∈ entries, entry.1.sameKey key = false) (hval : val ≠ .nil) :
    entries.assign key val = entries ++ [(key, val)] := by
  have hany : entries.any (fun entry => entry.1.sameKey key) = false := by
    rw [List.any_eq_false]
    intro entry hmem hsame
    rw [hnew entry hmem] at hsame
    cases hsame
  rw [assign, Value.isNil_eq_false hval, if_neg Bool.false_ne_true, hany, if_neg Bool.false_ne_true]

/-- A table never has a key twice, or nil for a value. -/
theorem Distinct.assign (h : entries.Distinct) (key val : Value) :
    (entries.assign key val).Distinct := by
  by_cases hval : val = .nil
  · rw [hval, assign_nil]
    exact h.of_sublist List.filter_sublist
  cases hany : entries.any fun entry => entry.1.sameKey key with
  | true =>
      rw [assign_of_mem hval hany]
      constructor
      · refine List.pairwise_map.mpr (h.keys.imp fun hother => ?_)
        rw [replace_fst, replace_fst]
        exact hother
      · refine List.forall_mem_map.mpr fun entry hmem => ?_
        rw [replace]
        split
        · exact hval
        · exact h.values entry hmem
  | false =>
      have hnew : ∀ entry ∈ entries, entry.1.sameKey key = false := fun entry hmem =>
        Bool.not_eq_true _ ▸ List.any_eq_false.mp hany entry hmem
      rw [assign_of_new hnew hval]
      constructor
      · refine List.pairwise_append.mpr ⟨h.keys, List.pairwise_singleton _ _, ?_⟩
        intro entry hmem entry' hmem'
        rw [List.mem_singleton] at hmem'
        exact hmem' ▸ hnew entry hmem
      · intro entry hmem
        rcases List.mem_append.mp hmem with hmem | hmem
        · exact h.values entry hmem
        · rw [List.mem_singleton] at hmem
          exact hmem ▸ hval

/-- An assignment changes what is read at its key, and nowhere else. -/
theorem get_assign (hkey : key.sameKey key) (val key' : Value) :
    (entries.assign key val).get key' = if key.sameKey key' then val else entries.get key' := by
  have hother : ¬key.sameKey key' → ∀ entry : Value × Value, entry.1.sameKey key' →
      entry.1.sameKey key = false := by
    intro hne entry hsame
    rw [← Bool.not_eq_true]
    intro hsame'
    exact hne (Value.eq_of_sameKey hsame' ▸ hsame)
  by_cases hval : val = .nil
  · rw [hval, assign_nil, get, List.find?_filter]
    split_ifs with hsame
    · rw [← Value.eq_of_sameKey hsame, List.find?_eq_none.mpr]
      intro entry _
      simp
    · rw [get]
      congr 1
      refine congrArg (fun p => List.find? p entries) (funext fun entry => ?_)
      cases hentry : entry.1.sameKey key' with
      | false => simp
      | true => simp [hother hsame entry hentry]
  cases hany : entries.any fun entry => entry.1.sameKey key with
  | true =>
      rw [assign_of_mem hval hany, get, List.find?_map]
      have hcomp : ((fun entry : Value × Value => entry.1.sameKey key') ∘ replace key val) =
          fun entry => entry.1.sameKey key' := funext fun entry => by
        rw [Function.comp_apply, replace_fst]
      rw [hcomp]
      split_ifs with hsame
      · obtain rfl := Value.eq_of_sameKey hsame
        obtain ⟨entry, hentry⟩ := Option.isSome_iff_exists.mp (List.find?_isSome.mpr
          (List.any_eq_true.mp hany))
        have hfound := List.find?_some hentry
        rw [hentry]
        change (replace key val entry).2 = val
        rw [replace, if_pos hfound]
      · rw [get]
        cases hentry : entries.find? fun entry => entry.1.sameKey key' with
        | none => rfl
        | some entry =>
            have hfound := List.find?_some hentry
            change (replace key val entry).2 = entry.2
            rw [replace, hother hsame entry hfound, if_neg Bool.false_ne_true]
  | false =>
      have hnew : ∀ entry ∈ entries, entry.1.sameKey key = false := fun entry hmem =>
        Bool.not_eq_true _ ▸ List.any_eq_false.mp hany entry hmem
      rw [assign_of_new hnew hval, get, List.find?_append]
      split_ifs with hsame
      · obtain rfl := Value.eq_of_sameKey hsame
        have hnone : entries.find? (fun entry => entry.1.sameKey key) = none := by
          rw [List.find?_eq_none]
          intro entry hmem
          rw [hnew entry hmem]
          exact Bool.false_ne_true
        rw [hnone, Option.none_or, List.find?_singleton, if_pos hkey]
      · rw [get, List.find?_singleton, if_neg hsame, Option.or_none]

/-- What holds of all keys and of all values goes on to hold. -/
theorem forall_assign {K V : Value → Prop} (hentries : ∀ entry ∈ entries, K entry.1 ∧ V entry.2)
    (hkey : K key) (hval : V val) : ∀ entry ∈ entries.assign key val, K entry.1 ∧ V entry.2 := by
  rw [assign]
  split
  · exact fun entry hmem => hentries entry (List.mem_of_mem_filter hmem)
  split
  · refine List.forall_mem_map.mpr fun entry hmem => ?_
    split
    · exact ⟨(hentries entry hmem).1, hval⟩
    · exact hentries entry hmem
  · intro entry hmem
    rcases List.mem_append.mp hmem with hmem | hmem
    · exact hentries entry hmem
    · rw [List.mem_singleton] at hmem
      exact hmem ▸ ⟨hkey, hval⟩

theorem forall_ofPairs {K V : Value → Prop} {pairs : List (Value × Value)}
    (h : ∀ pair ∈ pairs, K pair.1 ∧ V pair.2) : ∀ entry ∈ ofPairs pairs, K entry.1 ∧ V entry.2 := by
  have hfoldl : ∀ (pairs : List (Value × Value)) (entries : Entries),
      (∀ pair ∈ pairs, K pair.1 ∧ V pair.2) → (∀ entry ∈ entries, K entry.1 ∧ V entry.2) →
      ∀ entry ∈ pairs.foldl (fun entries pair => entries.assign pair.1 pair.2) entries,
        K entry.1 ∧ V entry.2 := by
    intro pairs
    induction pairs with
    | nil => exact fun entries _ hentries => hentries
    | cons pair pairs ih =>
        intro entries hpairs hentries
        obtain ⟨⟨hkey, hval⟩, hpairs⟩ := List.forall_mem_cons.mp hpairs
        exact ih _ hpairs (forall_assign hentries hkey hval)
  exact hfoldl pairs [] h fun _ hmem => nomatch hmem

/-- Nothing is overwritten while the table is made. -/
theorem Distinct.foldl_assign {front rest : Entries} (h : Distinct (front ++ rest)) :
    rest.foldl (fun entries pair => entries.assign pair.1 pair.2) front = front ++ rest := by
  induction rest generalizing front with
  | nil => rw [List.foldl_nil, List.append_nil]
  | cons pair rest ih =>
      have hnew : ∀ entry ∈ front, entry.1.sameKey pair.1 = false := fun entry hmem =>
        (List.pairwise_append.mp h.keys).2.2 entry hmem pair List.mem_cons_self
      have hval : pair.2 ≠ .nil :=
        h.values pair (List.mem_append_right front List.mem_cons_self)
      have hsplit : front ++ pair :: rest = front ++ [pair] ++ rest := by
        rw [List.append_assoc, List.singleton_append]
      rw [hsplit] at h ⊢
      rw [List.foldl_cons, assign_of_new hnew hval]
      exact ih h

theorem Distinct.ofPairs (h : entries.Distinct) : ofPairs entries = entries := by
  have hsplit : Distinct ([] ++ entries) := h
  exact hsplit.foldl_assign

theorem Distinct.find?_eq (h : entries.Distinct) {entry : Value × Value} (hmem : entry ∈ entries)
    (hself : entry.1.sameKey entry.1) :
    entries.find? (fun other => other.1.sameKey entry.1) = some entry := by
  induction entries with
  | nil => cases hmem
  | cons first rest ih =>
      have hrest : Distinct rest :=
        ⟨(List.pairwise_cons.mp h.keys).2, fun e he => h.values e (List.mem_cons_of_mem _ he)⟩
      rcases List.mem_cons.mp hmem with rfl | hmem
      · exact List.find?_cons_of_pos hself
      · have hother := (List.pairwise_cons.mp h.keys).1 entry hmem
        rw [List.find?_cons_of_neg (by rw [hother]; exact Bool.false_ne_true)]
        exact ih hrest hmem

theorem Distinct.get_eq (h : entries.Distinct) {entry : Value × Value} (hmem : entry ∈ entries)
    (hself : entry.1.sameKey entry.1) : entries.get entry.1 = entry.2 := by
  rw [get, h.find?_eq hmem hself]

@[simp]
theorem get_nil (key : Value) : get [] key = .nil := rfl

theorem get_of_not_mem (hkey : ∀ entry ∈ entries, entry.1 ≠ key) : entries.get key = .nil := by
  have hnone : entries.find? (fun entry => entry.1.sameKey key) = none := by
    rw [List.find?_eq_none]
    exact fun entry hmem hsame => hkey entry hmem (Value.eq_of_sameKey hsame)
  rw [get, hnone]

end Entries

/-! ### Arrays -/

namespace Value

@[simp]
theorem sameKey_ofNat (i j : Nat) : (ofNat i).sameKey (ofNat j) = decide (i = j) := by
  simp [ofNat, ofInt, sameKey]

theorem ofNat_ne_nil (n : Nat) : ofNat n ≠ nil := fun h => nomatch h

end Value

namespace Entries

variable {entries : Entries} {vals : List Value}

theorem distinct_of_keys
    (hkeys : (entries.map Prod.fst).Pairwise fun key key' => key.sameKey key' = false)
    (hvals : ∀ val ∈ entries.map Prod.snd, val ≠ .nil) : entries.Distinct :=
  ⟨List.pairwise_map.mp hkeys, fun entry hmem => hvals entry.2 (List.mem_map_of_mem hmem)⟩

theorem array_keys (vals : List Value) :
    (array vals).map Prod.fst = (List.range' 1 vals.length).map Value.ofNat := by
  rw [array, List.map_map, ← List.zipIdx_map_snd 1 vals, List.map_map]
  rfl

theorem array_vals (vals : List Value) : (array vals).map Prod.snd = vals := by
  rw [array, List.map_map]
  exact List.zipIdx_map_fst 1 vals

theorem length_array (vals : List Value) : (array vals).length = vals.length := by
  rw [array, List.length_map, List.length_zipIdx]

theorem pairwise_array_keys (vals : List Value) :
    ((array vals).map Prod.fst).Pairwise fun key key' => key.sameKey key' = false := by
  rw [array_keys]
  refine List.pairwise_map.mpr (List.Pairwise.imp ?_ (List.nodup_range' (s := 1)))
  intro i j hne
  rw [Value.sameKey_ofNat, decide_eq_false hne]

theorem distinct_array (hvals : ∀ val ∈ vals, val ≠ .nil) : (array vals).Distinct :=
  distinct_of_keys (pairwise_array_keys vals) (by rwa [array_vals])

theorem mem_array {i : Nat} (hi : i < vals.length) : (.ofNat (i + 1), vals[i]) ∈ array vals := by
  refine List.mem_map.mpr ⟨(vals[i], i + 1), ?_, rfl⟩
  rw [List.mk_mem_zipIdx_iff_le_and_getElem?_sub, Nat.add_sub_cancel, List.getElem?_eq_getElem hi]
  exact ⟨Nat.le_add_left 1 i, rfl⟩

theorem get_array (hvals : ∀ val ∈ vals, val ≠ .nil) {i : Nat} (hi : i < vals.length) :
    (array vals).get (.ofNat (i + 1)) = vals[i] :=
  (distinct_array hvals).get_eq (mem_array hi) (by simp)

/-! A field that is given nil is not there, and reads as nil. -/

theorem get_ofPairs {pairs : List (Value × Value)}
    (hkeys : (pairs.map Prod.fst).Pairwise fun key key' => key.sameKey key' = false)
    (hself : ∀ pair ∈ pairs, pair.1.sameKey pair.1) {pair : Value × Value} (hmem : pair ∈ pairs) :
    (ofPairs pairs).get pair.1 = pair.2 := by
  induction pairs using List.reverseRecOn with
  | nil => cases hmem
  | append_singleton pairs last ih =>
      rw [List.map_append, List.pairwise_append] at hkeys
      have hlast := hself last (List.mem_append_right pairs (List.mem_singleton_self last))
      have hassign : ofPairs (pairs ++ [last]) = (ofPairs pairs).assign last.1 last.2 := by
        rw [ofPairs, List.foldl_append]
        rfl
      rw [hassign, get_assign hlast]
      rcases List.mem_append.mp hmem with hmem | hmem
      · have hother := hkeys.2.2 pair.1 (List.mem_map_of_mem hmem) last.1
          (List.mem_singleton_self _)
        rw [Value.sameKey_comm, hother, if_neg Bool.false_ne_true]
        exact ih hkeys.1 (fun pair h => hself pair (List.mem_append_left _ h)) hmem
      · obtain rfl := List.mem_singleton.mp hmem
        rw [if_pos hlast]

theorem get_ofPairs_array (vals : List Value) {i : Nat} (hi : i < vals.length) :
    (ofPairs (array vals)).get (.ofNat (i + 1)) = vals[i] := by
  refine get_ofPairs (pairwise_array_keys vals) (fun pair hmem => ?_) (mem_array hi)
  obtain ⟨val, -, rfl⟩ := List.mem_map.mp hmem
  simp

end Entries

/-! ### How much a value holds -/

def Value.isNumber : Value → Bool
  | number _ => true
  | _ => false

mutual

/-- The values in it and the bytes of its strings. Keys that are numbers do not count. -/
def Value.size : Value → Nat
  | .string str => str.length + 1
  | .table entries => sizes entries + 1
  | _ => 1

def sizes : Entries → Nat
  | [] => 0
  | (key, val) :: entries => (if key.isNumber then 0 else key.size) + val.size + sizes entries

end

namespace Entries

variable {entries : Entries}

theorem distinct_ofPairs (pairs : List (Value × Value)) : (ofPairs pairs).Distinct := by
  have hfoldl : ∀ pairs : List (Value × Value), ∀ entries : Entries, entries.Distinct →
      Distinct (pairs.foldl (fun entries pair => entries.assign pair.1 pair.2) entries) := by
    intro pairs
    induction pairs with
    | nil => exact fun entries h => h
    | cons pair pairs ih => exact fun entries h => ih _ (h.assign pair.1 pair.2)
  exact hfoldl pairs [] distinct_nil

theorem length_ofPairs_le (pairs : List (Value × Value)) :
    (ofPairs pairs).length ≤ pairs.length := by
  have hassign (entries : Entries) (key val : Value) :
      (entries.assign key val).length ≤ entries.length + 1 := by
    rw [assign]
    split
    · exact (List.length_filter_le _ _).trans (Nat.le_add_right _ 1)
    split
    · rw [List.length_map]
      exact Nat.le_add_right _ 1
    · rw [List.length_append, List.length_singleton]
  have hfoldl : ∀ (pairs : List (Value × Value)) (entries : Entries),
      (pairs.foldl (fun entries pair => entries.assign pair.1 pair.2) entries).length ≤
        entries.length + pairs.length := by
    intro pairs
    induction pairs with
    | nil => exact fun entries => le_refl _
    | cons pair pairs ih =>
        intro entries
        have hstep := hassign entries pair.1 pair.2
        have hrest := ih (entries.assign pair.1 pair.2)
        rw [List.foldl_cons, List.length_cons]
        omega
  exact (hfoldl pairs []).trans_eq (Nat.zero_add _)

theorem sizes_append (entries entries' : Entries) :
    sizes (entries ++ entries') = sizes entries + sizes entries' := by
  induction entries with
  | nil => rw [List.nil_append, sizes, Nat.zero_add]
  | cons entry entries ih =>
      rw [List.cons_append, sizes, sizes, ih]
      omega

theorem sizes_le_of_sublist {entries' : Entries} (h : List.Sublist entries' entries) :
    sizes entries' ≤ sizes entries := by
  induction h with
  | slnil => exact le_refl _
  | cons entry _ ih =>
      rw [sizes]
      omega
  | cons_cons entry _ ih =>
      rw [sizes, sizes]
      omega

/-- Only one entry is replaced. -/
theorem Distinct.sizes_replace (h : entries.Distinct) (key val : Value) :
    sizes (entries.map (replace key val)) ≤ sizes entries + val.size := by
  induction entries with
  | nil => exact Nat.zero_le _
  | cons entry entries ih =>
      have hrest : Distinct entries := h.of_sublist (List.sublist_cons_self _ _)
      rw [List.map_cons, sizes, sizes, replace_fst]
      cases hsame : entry.1.sameKey key with
      | true =>
          have hothers : entries.map (replace key val) = entries := by
            refine (List.map_congr_left fun entry' hmem => ?_).trans (List.map_id entries)
            have hother := (List.pairwise_cons.mp h.keys).1 entry' hmem
            rw [replace, if_neg]
            · rfl
            · intro hsame'
              rw [Value.eq_of_sameKey hsame', hsame] at hother
              cases hother
          rw [hothers, replace, hsame, if_pos rfl]
          change _ + val.size + _ ≤ _
          omega
      | false =>
          have hle := ih hrest
          rw [replace, hsame, if_neg Bool.false_ne_true]
          omega

theorem Distinct.sizes_assign (h : entries.Distinct) (key val : Value) :
    sizes (entries.assign key val) ≤
      sizes entries + ((if key.isNumber then 0 else key.size) + val.size) := by
  by_cases hval : val = .nil
  · have hle := sizes_le_of_sublist (List.filter_sublist (l := entries)
      (p := fun entry => !entry.1.sameKey key))
    rw [hval, assign_nil]
    omega
  cases hany : entries.any fun entry => entry.1.sameKey key with
  | true =>
      have hle := h.sizes_replace key val
      rw [assign_of_mem hval hany]
      omega
  | false =>
      have hnew : ∀ entry ∈ entries, entry.1.sameKey key = false := fun entry hmem =>
        Bool.not_eq_true _ ▸ List.any_eq_false.mp hany entry hmem
      rw [assign_of_new hnew hval, sizes_append, sizes, sizes]
      omega

theorem sizes_ofPairs (pairs : List (Value × Value)) : sizes (ofPairs pairs) ≤ sizes pairs := by
  have hfoldl : ∀ pairs : List (Value × Value), ∀ entries : Entries, entries.Distinct →
      sizes (pairs.foldl (fun entries pair => entries.assign pair.1 pair.2) entries) ≤
        sizes entries + sizes pairs := by
    intro pairs
    induction pairs with
    | nil => exact fun entries h => Nat.le_add_right _ _
    | cons pair pairs ih =>
        intro entries h
        have hstep := h.sizes_assign pair.1 pair.2
        have hrest := ih _ (h.assign pair.1 pair.2)
        rw [List.foldl_cons, sizes]
        omega
  have hle := hfoldl pairs [] distinct_nil
  rwa [sizes, Nat.zero_add] at hle

end Entries

end ChatGames.Lua
