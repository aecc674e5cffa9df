import ChatGames.Proof.Packing
import Mathlib.Tactic.IntervalCases

/-!
# Whatever bytes come in

What `unpack` makes of a byte string that nobody need have packed. It goes by the bytes alone: no
beginning of a message is a message, and a value that comes out is no larger than the bytes that
came in, whatever counts they announced.
-/

namespace ChatGames.MsgPack

open Lua

/-- What the first byte can ask for: something that is not made of other values, an array or a
map. -/
inductive Body : (Unpacker Value → Unpacker Value) → Prop
  | value (d : Unpacker Value) (hyields : d.Yields fun v => v.isTable = false)
      (hcovers : d.Covers fun v => v.size - 1) : Body fun _ => d
  | array (count : Unpacker Nat) : Body fun u => count >>= unpackArray u
  | map (count : Unpacker Nat) : Body fun u => count >>= unpackMap u

/-- A value of size 1 that is no table. -/
theorem body_scalar {d : Unpacker Value} (h : d.Yields fun v => v.isTable = false ∧ v.size = 1) :
    Body fun _ => d := by
  refine .value d (fun _ _ _ hread => (h _ _ _ hread).1) fun input v rest hread => ?_
  have hlength := Decoder.length_le hread
  have hsize := (h _ _ _ hread).2
  change v.size - 1 + rest.length ≤ input.length
  omega

theorem body_str (count : Unpacker Nat) : Body fun _ => count >>= unpackStr := by
  refine .value _ (Decoder.yields_bind fun n => Decoder.yields_bind fun str =>
    Decoder.yields_pure rfl) ?_
  refine (Decoder.covers_zero count).bind fun n => Decoder.covers_take.bind fun str =>
    Decoder.covers_pure ?_
  rw [Value.size]
  omega

theorem yields_scalar {v : Value} (htable : v.isTable = false) (hsize : v.size = 1) :
    (pure v : Unpacker Value).Yields fun v => v.isTable = false ∧ v.size = 1 :=
  Decoder.yields_pure ⟨htable, hsize⟩

theorem yields_ext (n : Nat) (tag : ℤ) :
    (unpackExt n tag).Yields fun v => v.isTable = false ∧ v.size = 1 :=
  Decoder.yields_bind fun _ => yields_scalar rfl rfl

/-- Each of the first bytes asks for one of the three. -/
theorem unpackers_body (b : UInt8) : Body fun u => unpackers u b := by
  obtain ⟨k, hk, rfl⟩ : ∃ k < 256, b = UInt8.ofNat k :=
    ⟨b.toNat, b.toNat_lt, (UInt8.ofNat_toNat).symm⟩
  by_cases hfix : k < 0xC0 ∨ k > 0xDF
  · have hrun : (fun u => unpackers u (UInt8.ofNat k)) = fun u =>
        if k < 0x80 then pure (.ofNat k)
        else if k < 0x90 then unpackMap u (k % 0x10)
        else if k < 0xA0 then unpackArray u (k % 0x10)
        else if k < 0xC0 then unpackStr (k % 0x20)
        else pure (.ofInt (k - 0x100)) := by
      funext u
      simp only [unpackers, toNat_ofNat hk]
      rcases hfix with hlow | hhigh
      · rw [if_pos hlow, if_pos hlow]
      · have hnot : ¬k < 0xC0 := by omega
        rw [if_neg hnot, if_neg hnot, if_pos hhigh]
    rw [hrun]
    split_ifs
    · exact body_scalar (yields_scalar rfl rfl)
    · exact .map (pure _)
    · exact .array (pure _)
    · exact body_str (pure _)
    · exact body_scalar (yields_scalar rfl rfl)
  · have hrange : 0xC0 ≤ k ∧ k ≤ 0xDF := by omega
    obtain ⟨hlow, hhigh⟩ := hrange
    interval_cases k
    all_goals first
      | exact .array (unpackUint _)
      | exact .map (unpackUint _)
      | exact body_str (unpackUint _)
      | exact body_scalar Decoder.yields_fail
      | exact body_scalar (yields_scalar rfl rfl)
      | exact body_scalar (Decoder.yields_bind fun _ => yields_scalar rfl rfl)
      | exact body_scalar (Decoder.yields_bind fun _ => yields_ext _ _)
      | exact body_scalar (Decoder.yields_bind fun _ => Decoder.yields_bind fun _ => yields_ext _ _)

variable {F : Unpacker Value → Unpacker Value} {u u' : Unpacker Value} {n fuel : Nat} {s : Bytes}
  {v : Value}

/-! ### How deep a value can be -/

theorem Body.agree (h : Body F) (hu : Decoder.AgreeTo n u u') :
    Decoder.AgreeTo n (F u) (F u') := by
  cases h with
  | value d => exact .refl d
  | array count =>
      exact (Decoder.AgreeTo.refl count).bind fun k => (hu.many k).bind fun vals => .refl _
  | map count =>
      have hpair : Decoder.AgreeTo n (unpackPair u) (unpackPair u') :=
        hu.bind fun key => hu.bind fun val => .refl _
      exact (Decoder.AgreeTo.refl count).bind fun k => (hpair.many k).bind fun pairs => .refl _

/-- Values can be as deep as there are bytes, so that more depth makes no difference. -/
theorem unpackCursor_agree {fuel fuel' : Nat} (hfuel : n ≤ fuel) (hfuel' : n ≤ fuel') :
    Decoder.AgreeTo n (unpackCursor fuel) (unpackCursor fuel') := by
  induction n generalizing fuel fuel' with
  | zero =>
      intro input hinput
      obtain rfl := List.length_eq_zero_iff.mp (Nat.le_zero.mp hinput)
      cases fuel <;> cases fuel' <;> rfl
  | succ n ih =>
      cases fuel with
      | zero => omega
      | succ fuel =>
          cases fuel' with
          | zero => omega
          | succ fuel' =>
              exact Decoder.AgreeTo.next_bind fun b =>
                (unpackers_body b).agree (ih (by omega) (by omega))

theorem unpack_eq_runAll (hfuel : s.length ≤ fuel) :
    unpack s = (unpackCursor fuel).runAll "extra bytes" s := by
  rw [unpack, Decoder.runAll, Decoder.runAll,
    unpackCursor_agree (le_refl s.length) hfuel s (le_refl _)]

theorem reads_of_unpack (h : unpack s = .ok v) (hfuel : s.length ≤ fuel) :
    (unpackCursor fuel).Reads s v :=
  Decoder.runAll_eq_ok ((unpack_eq_runAll hfuel).symm.trans h)

/-! ### How large a value can be -/

theorem sizes_array (vals : List Value) :
    sizes (Entries.array vals) = (vals.map Value.size).sum := by
  rw [sizes_eq_sum, ← Entries.array_vals vals, List.map_map, Entries.array_vals]
  refine congrArg List.sum (List.map_congr_left fun entry hmem => ?_)
  obtain ⟨val, -, rfl⟩ := List.mem_map.mp hmem
  exact Nat.zero_add _

theorem sizes_le_sum (pairs : List (Value × Value)) :
    sizes pairs ≤ (pairs.map fun pair => pair.1.size + pair.2.size).sum := by
  induction pairs with
  | nil => exact le_refl _
  | cons pair pairs ih =>
      rw [sizes, List.map_cons, List.sum_cons]
      split <;> omega

theorem Body.covers (h : Body F) (hu : u.Covers Value.size) :
    (F u).Covers fun v => v.size - 1 := by
  cases h with
  | value d _ hcovers => exact hcovers
  | array count =>
      refine (Decoder.covers_zero count).bind fun k => (hu.many k).bind fun vals =>
        Decoder.covers_pure ?_
      have hle := Entries.sizes_ofPairs (Entries.array vals)
      rw [sizes_array] at hle
      change sizes _ + 1 - 1 - 0 - _ = 0
      omega
  | map count =>
      have hpair : (unpackPair u).Covers fun pair => pair.1.size + pair.2.size :=
        hu.bind fun key => hu.bind fun val => Decoder.covers_pure (by simp only; omega)
      refine (Decoder.covers_zero count).bind fun k => (hpair.many k).bind fun pairs =>
        Decoder.covers_pure ?_
      have hofPairs := Entries.sizes_ofPairs (pairs.filter fun pair => keyed pair.1)
      have hfilter := Entries.sizes_le_of_sublist
        (List.filter_sublist (l := pairs) (p := fun pair => keyed pair.1))
      have hsum := sizes_le_sum pairs
      change sizes _ + 1 - 1 - 0 - _ = 0
      omega

theorem unpackCursor_covers (fuel : Nat) : (unpackCursor fuel).Covers Value.size := by
  induction fuel with
  | zero => exact Decoder.covers_fail
  | succ fuel ih => exact Decoder.covers_next.bind fun b => (unpackers_body b).covers ih

/-! ### What a value is made of -/

/-- No table in it has a key twice, a key that is nil or nan, or nil for a value. -/
inductive WellFormed : Value → Prop
  | scalar {v : Value} (h : v.isTable = false) : WellFormed v
  | table {entries : Entries} (hdistinct : entries.Distinct)
      (hkeys : ∀ entry ∈ entries, keyed entry.1) (hkey : ∀ entry ∈ entries, WellFormed entry.1)
      (hval : ∀ entry ∈ entries, WellFormed entry.2) : WellFormed (.table entries)

theorem wellFormed_ofPairs {pairs : List (Value × Value)}
    (h : ∀ pair ∈ pairs, (keyed pair.1 ∧ WellFormed pair.1) ∧ WellFormed pair.2) :
    WellFormed (.table (Entries.ofPairs pairs)) := by
  have hentries := Entries.forall_ofPairs (K := fun key => keyed key ∧ WellFormed key) h
  exact .table (Entries.distinct_ofPairs pairs) (fun entry hmem => (hentries entry hmem).1.1)
    (fun entry hmem => (hentries entry hmem).1.2) fun entry hmem => (hentries entry hmem).2

theorem keyed_ofNat (k : Nat) : keyed (.ofNat k) := by
  simp [keyed, Value.ofNat, Value.ofInt, Value.isNil, Value.sameKey]

theorem Body.yields (h : Body F) (hu : u.Yields WellFormed) : (F u).Yields WellFormed := by
  cases h with
  | value d hyields => exact fun input v rest hread => .scalar (hyields input v rest hread)
  | array count =>
      refine Decoder.yields_bind fun k => (hu.many k).bind fun vals hvals =>
        Decoder.yields_pure (wellFormed_ofPairs ?_)
      refine List.forall_mem_map.mpr fun val hmem => ⟨⟨?_, .scalar rfl⟩, ?_⟩
      · exact keyed_ofNat val.2
      · exact hvals val.1 (List.fst_mem_of_mem_zipIdx hmem)
  | map count =>
      have hpair : (unpackPair u).Yields fun pair => WellFormed pair.1 ∧ WellFormed pair.2 :=
        hu.bind fun key hkey => hu.bind fun val hval => Decoder.yields_pure ⟨hkey, hval⟩
      refine Decoder.yields_bind fun k => (hpair.many k).bind fun pairs hpairs =>
        Decoder.yields_pure (wellFormed_ofPairs fun pair hmem => ?_)
      rw [List.mem_filter] at hmem
      exact ⟨⟨hmem.2, (hpairs pair hmem.1).1⟩, (hpairs pair hmem.1).2⟩

theorem unpackCursor_yields (fuel : Nat) : (unpackCursor fuel).Yields WellFormed := by
  induction fuel with
  | zero => exact Decoder.yields_fail
  | succ fuel ih => exact Decoder.yields_bind fun b => (unpackers_body b).yields ih

/-! ### What `unpack` does -/

/-- A beginning of a message is too short to be one, and a message is not the beginning of
another. -/
theorem unpack_prefix_free (h : unpack s = .ok v) :
    (∀ front, front <+: s → front ≠ s → unpack front = .error "missing bytes") ∧
      ∀ more, more ≠ [] → unpack (s ++ more) = .error "extra bytes" := by
  constructor
  · intro front hbegins hne
    rw [unpack_eq_runAll hbegins.length_le]
    exact (reads_of_unpack h (le_refl _)).runAll_of_front hbegins hne
  · intro more hmore
    have hlength : s.length ≤ (s ++ more).length := by
      rw [List.length_append]
      exact Nat.le_add_right _ _
    rw [unpack]
    exact (reads_of_unpack h hlength).runAll_append hmore

theorem unpack_prefix_free_pair :
    (∀ front, front <+: [0x92, 0x01, 0xC0] → front ≠ [0x92, 0x01, 0xC0] →
      unpack front = .error "missing bytes") ∧
      ∀ more, more ≠ [] → unpack ([0x92, 0x01, 0xC0] ++ more) = .error "extra bytes" :=
  unpack_prefix_free (v := .table [(.ofNat 1, .ofNat 1)]) rfl

/-- Nobody can send a message that grows when it is unpacked, or a table that is none. -/
theorem unpack_bounded (h : unpack s = .ok v) : v.size ≤ s.length ∧ WellFormed v := by
  have hread := Decoder.reads_iff.mp (reads_of_unpack h (le_refl _))
  exact ⟨unpackCursor_covers s.length _ _ _ hread, unpackCursor_yields s.length _ _ _ hread⟩

theorem unpack_bounded_pair : Value.size (.table [(.ofNat 1, .ofNat 1)]) ≤ 3 ∧
    WellFormed (.table [(.ofNat 1, .ofNat 1)]) :=
  unpack_bounded (s := [0x92, 0x01, 0xC0]) rfl

end ChatGames.MsgPack
