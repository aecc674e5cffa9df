import ChatGames.Library.Outcome
import ChatGames.Proof.Numbers
import Mathlib.Data.List.Perm.Subperm

/-!
# Whatever is packed is unpacked again

A value comes out of `unpack` as it went into `pack`, except that its numbers are `received`. A
table goes out as an array or as a map, whichever its keys ask for, and has the same entries when it
arrives; only their order is not kept.
-/

namespace ChatGames.MsgPack

open Lua Pointwise

/-- What a table can have for a key. -/
inductive IsKey : Value → Prop
  | boolean (b : Bool) : IsKey (.boolean b)
  | number {n : ℤ} (hlow : -2 ^ 53 + 1 < n) (hhigh : n < 2 ^ 53 - 1) : IsKey (.ofInt n)
  | string (str : Bytes) : IsKey (.string str)

/-- The values that can be packed and whose tables arrive whole. -/
inductive Packable : Value → Prop
  | nil : Packable .nil
  | boolean (b : Bool) : Packable (.boolean b)
  | number (n : Number) : Packable (.number n)
  | string {str : Bytes} (hlength : str.length ≤ 4294967295) : Packable (.string str)
  | table {entries : Entries} (hlength : entries.length ≤ 4294967295)
      (hdistinct : entries.Distinct) (hkeys : ∀ entry ∈ entries, IsKey entry.1)
      (hkey : ∀ entry ∈ entries, Packable entry.1) (hval : ∀ entry ∈ entries, Packable entry.2) :
      Packable (.table entries)

/-- The other value is what arrives where the first one was sent. -/
inductive Received : Value → Value → Prop
  | nil : Received .nil .nil
  | boolean (b : Bool) : Received (.boolean b) (.boolean b)
  | number (n : Number) : Received (.number n) (.number (received n))
  | string (str : Bytes) : Received (.string str) (.string str)
  | table {entries between entries' : Entries} (hperm : entries.Perm between)
      (hkeys : between.map Prod.fst = entries'.map Prod.fst)
      (hvals : List.Forall₂ Received (between.map Prod.snd) (entries'.map Prod.snd)) :
      Received (.table entries) (.table entries')

variable {entries : Entries} {v w : Value} {code : Bytes} {fuel : Nat}

theorem IsKey.sameKey_self {key : Value} (h : IsKey key) : key.sameKey key := by
  cases h with
  | boolean b => simp [Value.sameKey]
  | number => simp [Value.sameKey, Value.ofInt]
  | string str => simp [Value.sameKey]

theorem IsKey.eq_of_received {key : Value} (h : IsKey key) (hw : Received key w) : w = key := by
  cases h with
  | boolean => cases hw; rfl
  | number hlow hhigh =>
      cases hw
      rw [received_intCast hlow hhigh]
      rfl
  | string => cases hw; rfl

theorem IsKey.keyed {key : Value} (h : IsKey key) : keyed key := by
  rw [MsgPack.keyed, h.sameKey_self]
  cases h <;> rfl

theorem Received.ne_nil (h : Received v w) (hv : v ≠ .nil) : w ≠ .nil := by
  cases h with
  | nil => exact absurd rfl hv
  | _ => exact fun hw => nomatch hw

/-! ### What `pack` does with the entries of a table -/

theorem packEntries_eq (entries : Entries) :
    packEntries entries = entries.map fun entry => (entry.1, pack entry.1, pack entry.2) := by
  induction entries with
  | nil => rfl
  | cons entry entries ih => rw [packEntries, ih, List.map_cons]

theorem packEntries_get (entries : Entries) (key : Value) :
    (packEntries entries).get key = pack (entries.get key) := by
  rw [packEntries_eq, PackedEntries.get, List.find?_map, Entries.get]
  have hcomp : ((fun entry : Value × Except LuaError Bytes × Except LuaError Bytes =>
      entry.1.sameKey key) ∘ fun entry : Value × Value => (entry.1, pack entry.1, pack entry.2)) =
      fun entry => entry.1.sameKey key := rfl
  rw [hcomp]
  cases entries.find? fun entry => entry.1.sameKey key with
  | none => rfl
  | some entry => rfl

theorem pack_array (h : isArray entries = true) : pack (.table entries) = (do
    let header ← arrayHeader entries.length
    let codes ← (List.range' 1 entries.length).mapM fun i => pack (entries.get (.ofNat i))
    .ok (header ++ codes.flatten)) := by
  rw [pack, if_pos h]
  simp only [packEntries_get]

theorem pack_map (h : isArray entries = false) : pack (.table entries) = (do
    let header ← mapHeader entries.length
    let codes ← entries.mapM fun entry => do
      let key ← pack entry.1
      let val ← pack entry.2
      .ok (key ++ val)
    .ok (header ++ codes.flatten)) := by
  rw [pack, if_neg (by rw [h]; exact Bool.false_ne_true), packEntries_eq]
  simp only [List.mapM_map]
  rfl

/-! ### Arrays -/

theorem le_larger (max : ℚ) (key : Option ℚ) : max ≤ larger max key := by
  cases key with
  | none => exact le_refl max
  | some k =>
      rw [larger, Option.elim_some]
      split
      · rename_i hlt
        exact hlt.le
      · exact le_refl max

theorem le_larger_some (max k : ℚ) : k ≤ larger max (some k) := by
  rw [larger, Option.elim_some]
  split
  · exact le_refl k
  · rename_i hle
    exact not_lt.mp hle

theorem le_foldl_larger (keys : List (Option ℚ)) (max : ℚ) : max ≤ keys.foldl larger max := by
  induction keys generalizing max with
  | nil => exact le_refl max
  | cons key keys ih => exact (le_larger max key).trans (ih _)

theorem le_foldl_larger_of_mem {keys : List (Option ℚ)} {k : ℚ} (hk : some k ∈ keys) (max : ℚ) :
    k ≤ keys.foldl larger max := by
  induction keys generalizing max with
  | nil => cases hk
  | cons key keys ih =>
      rw [List.foldl_cons]
      rcases List.mem_cons.mp hk with rfl | hk
      · exact (le_larger_some max k).trans (le_foldl_larger keys _)
      · exact ih hk _

theorem positive_eq_some {key : Value} (h : IsKey key) (hpos : (positive key).isSome) :
    ∃ k : Nat, 0 < k ∧ key = .ofNat k ∧ positive key = some k := by
  cases h with
  | boolean b => cases hpos
  | string str => cases hpos
  | @number n hlow hhigh =>
      have hn : 0 < n := by
        by_contra hn
        rw [Value.ofInt, positive, if_neg (by exact_mod_cast hn)] at hpos
        cases hpos
      lift n to Nat using hn.le
      refine ⟨n, by exact_mod_cast hn, rfl, ?_⟩
      rw [Value.ofInt, positive, if_pos (by exact_mod_cast hn)]
      rfl

/-- What goes out as an array has the keys from 1 to the number of its entries. -/
theorem perm_of_isArray (hdistinct : entries.Distinct) (hkeys : ∀ entry ∈ entries, IsKey entry.1)
    (h : isArray entries = true) :
    entries.Perm ((List.range' 1 entries.length).map fun i =>
      (.ofNat i, entries.get (.ofNat i))) := by
  rw [isArray, Bool.and_eq_true, List.all_map, List.all_eq_true, decide_eq_true_eq] at h
  obtain ⟨hsome, hlargest⟩ := h
  have hnodup : entries.Nodup := by
    refine List.Pairwise.imp_of_mem ?_ hdistinct.keys
    rintro entry entry' hmem - hother rfl
    rw [(hkeys entry hmem).sameKey_self] at hother
    cases hother
  have hsubset : entries ⊆ (List.range' 1 entries.length).map fun i =>
      (.ofNat i, entries.get (.ofNat i)) := by
    intro entry hmem
    obtain ⟨k, hk, hkey, hpositive⟩ := positive_eq_some (hkeys entry hmem) (hsome entry hmem)
    have hle : (k : ℚ) ≤ entries.length := by
      rw [← hlargest]
      exact le_foldl_larger_of_mem (List.mem_map.mpr ⟨entry, hmem, hpositive⟩) 0
    have hget := hdistinct.get_eq hmem (hkeys entry hmem).sameKey_self
    refine List.mem_map.mpr ⟨k, ?_, ?_⟩
    · rw [List.mem_range'_1]
      exact ⟨hk, by have := Nat.cast_le.mp hle; omega⟩
    · rw [← hkey, hget]
  refine (List.subperm_of_subset hnodup hsubset).perm_of_length_le ?_
  rw [List.length_map, List.length_range']

/-! ### Byte strings of several values -/

theorem Reads.ne_nil (h : (unpackCursor fuel).Reads code v) : code ≠ [] := by
  rintro rfl
  cases fuel with
  | zero => cases h []
  | succ fuel => cases h []

theorem packNumber_ne_nil (n : Number) : packNumber n ≠ [] := by
  have hread : (unpackCursor (0 + 1)).Reads (packNumber n) _ := reads_packNumber n
  exact Reads.ne_nil hread

/-- A family of unpackers, by how deep a value may be, reads each code where it may be as deep as
the code is long. -/
def Unpacks {α : Type} (unpacker : Nat → Unpacker α) (code : Bytes) (a : α) : Prop :=
  ∀ fuel, code.length ≤ fuel → (unpacker fuel).Reads code a

theorem Unpacks.many {α : Type} {unpacker : Nat → Unpacker α} {coded : List (Bytes × α)}
    (h : ∀ c ∈ coded, Unpacks unpacker c.1 c.2) :
    Unpacks (fun fuel => (unpacker fuel).many coded.length) (coded.map Prod.fst).flatten
      (coded.map Prod.snd) := by
  intro fuel hfuel
  have hforall : List.Forall₂ (unpacker fuel).Reads (coded.map Prod.fst) (coded.map Prod.snd) := by
    rw [List.forall₂_map_left_iff, List.forall₂_map_right_iff, List.forall₂_same]
    intro c hc
    have hle : c.1.length ≤ (coded.map Prod.fst).flatten.length :=
      (List.sublist_flatten_of_mem (List.mem_map_of_mem hc)).length_le
    exact h c hc fuel (by omega)
  have hreads := Decoder.reads_many hforall
  rwa [List.length_map] at hreads

/-- The first byte says how the others are to be read. -/
theorem Unpacks.cursor {b : UInt8} {body : Unpacker Value → Unpacker Value}
    (h : Unpacks (fun fuel => body (unpackCursor fuel)) code v)
    (hb : ∀ u, unpackers u b = body u) : Unpacks unpackCursor (b :: code) v := by
  intro fuel hfuel
  rw [List.length_cons] at hfuel
  cases fuel with
  | zero => omega
  | succ fuel =>
      refine reads_cursor ?_
      rw [hb]
      exact h fuel (by omega)

/-- The first byte is followed by a count of `width` bytes. -/
theorem Unpacks.counted {b : UInt8} {width n : Nat} {body : Unpacker Value → Nat → Unpacker Value}
    (h : Unpacks (fun fuel => body (unpackCursor fuel) n) code v) (hn : n < 256 ^ width)
    (hb : ∀ u, unpackers u b = do body u (← unpackUint width)) :
    Unpacks unpackCursor (b :: toBigEndian width n ++ code) v := by
  refine Unpacks.cursor (fun fuel hfuel => ?_) hb
  rw [List.append_eq, List.length_append] at hfuel
  exact (reads_uint hn).bind (h fuel (by omega))

theorem unpackers_fixmap {u : Unpacker Value} {n : Nat} (hn : n ≤ 0x0F) :
    unpackers u (UInt8.ofNat (0x80 + n)) = unpackMap u n := by
  simp only [unpackers, toNat_ofNat (by omega : 0x80 + n < 256)]
  rw [if_neg (by omega), if_pos (by omega)]
  congr 1
  omega

theorem unpackers_fixarray {u : Unpacker Value} {n : Nat} (hn : n ≤ 0x0F) :
    unpackers u (UInt8.ofNat (0x90 + n)) = unpackArray u n := by
  simp only [unpackers, toNat_ofNat (by omega : 0x90 + n < 256)]
  rw [if_neg (by omega), if_neg (by omega), if_pos (by omega)]
  congr 1
  omega

theorem unpackers_fixstr {u : Unpacker Value} {n : Nat} (hn : n ≤ 0x1F) :
    unpackers u (UInt8.ofNat (0xA0 + n)) = unpackStr n := by
  simp only [unpackers, toNat_ofNat (by omega : 0xA0 + n < 256)]
  rw [if_neg (by omega), if_neg (by omega), if_neg (by omega), if_pos (by omega)]
  congr 1
  omega

theorem packHeader_reads (fix tag16 : Nat) (text : LuaError)
    {body : Unpacker Value → Nat → Unpacker Value} {n : Nat} (hn : n ≤ 4294967295)
    (hfix : n ≤ 0x0F → ∀ u, unpackers u (UInt8.ofNat (fix + n)) = body u n)
    (h16 : ∀ u, unpackers u (UInt8.ofNat tag16) = do body u (← unpackUint 2))
    (h32 : ∀ u, unpackers u (UInt8.ofNat (tag16 + 1)) = do body u (← unpackUint 4))
    (h : Unpacks (fun fuel => body (unpackCursor fuel) n) code v) :
    ∃ header, packHeader fix tag16 text n = .ok header ∧
      Unpacks unpackCursor (header ++ code) v := by
  unfold packHeader
  split
  · rename_i hsmall
    exact ⟨_, rfl, h.cursor (hfix hsmall)⟩
  split
  · exact ⟨_, rfl, h.counted (by omega) h16⟩
  · exact ⟨_, rfl, h.counted (by omega) h32⟩

theorem packString_reads {str : Bytes} (hlength : str.length ≤ 4294967295) :
    ∃ code, packString str = .ok code ∧ Unpacks unpackCursor code (.string str) := by
  have h : Unpacks (fun _ => unpackStr str.length) str (.string str) :=
    fun fuel hfuel => (Decoder.reads_take str).map rfl
  unfold packString
  simp only
  split
  · rename_i hsmall
    exact ⟨_, rfl, h.cursor fun u => unpackers_fixstr hsmall⟩
  split
  · exact ⟨_, rfl, h.counted (by omega) fun u => rfl⟩
  split
  · exact ⟨_, rfl, h.counted (by omega) fun u => rfl⟩
  · exact ⟨_, rfl, h.counted (by omega) fun u => rfl⟩

/-! ### Lengths -/

theorem length_packNumber_le (n : Number) : (packNumber n).length ≤ 9 := by
  have hunsigned (n : ℤ) : (packUnsigned n).length ≤ 9 := by
    unfold packUnsigned
    split_ifs <;> simp
  have hfloat (n : Number) : (packFloat n).length ≤ 9 := by
    unfold packFloat
    dsimp only
    split
    · simp
    · simp
    · simp
    · split_ifs <;> simp
  cases n with
  | finite q =>
      rw [packNumber]
      split
      · exact hunsigned _
      · exact hfloat _
  | inf negative => exact hfloat (.inf negative)
  | nan => exact hfloat .nan

theorem length_packString_le {str code : Bytes} (h : packString str = .ok code) :
    code.length ≤ str.length + 5 := by
  unfold packString at h
  dsimp only at h
  split_ifs at h <;> cases h <;> simp <;> omega

theorem length_packHeader_le {fix tag16 n : Nat} {text : LuaError} {header : Bytes}
    (h : packHeader fix tag16 text n = .ok header) : header.length ≤ 5 := by
  unfold packHeader at h
  split_ifs at h <;> cases h <;> simp

theorem sum_vals_le_sizes (entries : Entries) :
    (entries.map fun entry => entry.2.size).sum ≤ sizes entries := by
  induction entries with
  | nil => exact le_refl _
  | cons entry entries ih =>
      rw [sizes, List.map_cons, List.sum_cons]
      omega

theorem sizes_eq_sum (entries : Entries) : sizes entries = (entries.map fun entry =>
    (if entry.1.isNumber then 0 else entry.1.size) + entry.2.size).sum := by
  induction entries with
  | nil => rfl
  | cons entry entries ih => rw [sizes, List.map_cons, List.sum_cons, ih]

theorem sum_lengths_le {α β : Type} {size : α → Nat} {l : List α} {coded : List (Bytes × β)}
    (h : List.Forall₂ (fun a (c : Bytes × β) => c.1.length ≤ 18 * size a) l coded) :
    (coded.map Prod.fst).flatten.length ≤ 18 * (l.map size).sum := by
  induction h with
  | nil => exact le_refl _
  | cons hfirst _ ih =>
      rw [List.map_cons, List.flatten_cons, List.length_append, List.map_cons, List.sum_cons]
      omega

/-! ### Tables -/

/-- A value, packed, and what is unpacked from that. -/
structure Arrives (v : Value) (coded : Bytes × Value) : Prop where
  packed : pack v = .ok coded.1
  received : Received v coded.2
  unpacks : Unpacks unpackCursor coded.1 coded.2
  length_le : coded.1.length + 9 ≤ 18 * v.size

theorem array_arrives (hlength : entries.length ≤ 4294967295) (hdistinct : entries.Distinct)
    (hkeys : ∀ entry ∈ entries, IsKey entry.1)
    (hval : ∀ entry ∈ entries, ∃ coded, Arrives entry.2 coded) (h : isArray entries = true) :
    ∃ coded, Arrives (.table entries) coded := by
  have hperm := perm_of_isArray hdistinct hkeys h
  obtain ⟨coded, hcoded⟩ : ∃ coded, List.Forall₂ (fun i coded =>
      entries.get (.ofNat i) ≠ .nil ∧ Arrives (entries.get (.ofNat i)) coded)
      (List.range' 1 entries.length) coded := by
    refine exists_forall₂ fun i hi => ?_
    have hmem : (Value.ofNat i, entries.get (.ofNat i)) ∈ entries :=
      hperm.mem_iff.mpr (List.mem_map_of_mem hi)
    obtain ⟨coded, harrives⟩ := hval _ hmem
    exact ⟨coded, hdistinct.values _ hmem, harrives⟩
  have hcount : (coded.map Prod.snd).length = entries.length := by
    rw [List.length_map, ← hcoded.length_eq, List.length_range']
  have hmany := Unpacks.many (forall_right hcoded fun _ _ h => h.2.unpacks)
  have hpacked : (List.range' 1 entries.length).mapM (fun i => pack (entries.get (.ofNat i))) =
      .ok (coded.map Prod.fst) :=
    mapM_eq_pure (List.forall₂_map_right_iff.mpr (hcoded.imp fun _ _ h => h.2.packed))
  have hfilled : Entries.Distinct (Entries.array (coded.map Prod.snd)) :=
    Entries.distinct_array (List.forall_mem_map.mpr
      (forall_right hcoded fun _ _ h => h.2.received.ne_nil h.1))
  have hreads : Unpacks (fun fuel => unpackArray (unpackCursor fuel) entries.length)
      (coded.map Prod.fst).flatten (.table (Entries.array (coded.map Prod.snd))) := by
    intro fuel hfuel
    have hvals := hmany fuel hfuel
    rw [← List.length_map (f := Prod.snd), hcount] at hvals
    exact hvals.map (congrArg Value.table hfilled.ofPairs)
  obtain ⟨header, hheader, hcursor⟩ := packHeader_reads 0x90 0xDC "overflow in pack 'array'" hlength
    (fun hn u => unpackers_fixarray hn) (fun u => rfl) (fun u => rfl) hreads
  refine ⟨(header ++ (coded.map Prod.fst).flatten, .table (Entries.array (coded.map Prod.snd))),
    ?_, ?_, hcursor, ?_⟩
  · rw [pack_array h, hpacked, arrayHeader, hheader]
    rfl
  · refine .table hperm ?_ ?_
    · rw [Entries.array_keys, hcount, List.map_map]
      rfl
    · rw [Entries.array_vals, List.map_map, List.forall₂_map_left_iff, List.forall₂_map_right_iff]
      exact hcoded.imp fun _ _ h => h.2.received
  · have hsum : _ ≤ 18 * ((List.range' 1 entries.length).map fun i =>
        (entries.get (.ofNat i)).size).sum :=
      sum_lengths_le (hcoded.imp fun _ _ h => (Nat.le_add_right _ 9).trans h.2.length_le)
    have hvals := (hperm.map fun entry : Value × Value => entry.2.size).sum_eq
    rw [List.map_map] at hvals
    have hsizes := sum_vals_le_sizes entries
    have hheaderle := length_packHeader_le hheader
    rw [List.length_append, Value.size]
    change _ = ((List.range' 1 entries.length).map fun i =>
      (entries.get (.ofNat i)).size).sum at hvals
    omega

theorem map_arrives (hlength : entries.length ≤ 4294967295) (hdistinct : entries.Distinct)
    (hkeys : ∀ entry ∈ entries, IsKey entry.1)
    (hkey : ∀ entry ∈ entries, ∃ coded, Arrives entry.1 coded)
    (hval : ∀ entry ∈ entries, ∃ coded, Arrives entry.2 coded) (h : isArray entries = false) :
    ∃ coded, Arrives (.table entries) coded := by
  obtain ⟨coded, hcoded⟩ : ∃ coded : List (Bytes × Value × Value),
      List.Forall₂ (fun (entry : Value × Value) coded => (entry ∈ entries ∧ entry.1 = coded.2.1 ∧
        Received entry.2 coded.2.2) ∧ (do
          let key ← pack entry.1
          let val ← pack entry.2
          .ok (key ++ val)) = Except.ok coded.1 ∧
        Unpacks (fun fuel => unpackPair (unpackCursor fuel)) coded.1 coded.2 ∧
        coded.1.length ≤ 18 * ((if entry.1.isNumber then 0 else entry.1.size) + entry.2.size))
      entries coded := by
    refine exists_forall₂ fun entry hmem => ?_
    obtain ⟨key, hkeypack, hkeyreceived, hkeyreads, hkeyle⟩ := hkey entry hmem
    obtain ⟨val, hvalpack, hvalreceived, hvalreads, hvalle⟩ := hval entry hmem
    have hsame := (hkeys entry hmem).eq_of_received hkeyreceived
    refine ⟨(key.1 ++ val.1, key.2, val.2), ⟨hmem, hsame.symm, hvalreceived⟩, ?_, ?_, ?_⟩
    · rw [hkeypack, hvalpack]
      rfl
    · intro fuel hfuel
      rw [List.length_append] at hfuel
      exact (hkeyreads fuel (by omega)).bind ((hvalreads fuel (by omega)).map rfl)
    · rw [List.length_append]
      split
      · -- a number takes nine bytes, which its value leaves over
        rename_i hnumber
        have hone : entry.1.size = 1 := by
          cases hkeyval : entry.1 <;> rw [hkeyval] at hnumber <;> first | rfl | cases hnumber
        omega
      · omega
  have hcount : coded.length = entries.length := hcoded.length_eq.symm
  have hmany := Unpacks.many (forall_right hcoded fun _ _ h => h.2.2.1)
  have hpacked := mapM_eq_pure (List.forall₂_map_right_iff.mpr (hcoded.imp fun _ _ h => h.2.1))
  have hsamekeys : entries.map Prod.fst = (coded.map Prod.snd).map Prod.fst := by
    rw [List.map_map, ← List.forall₂_eq_eq_eq, List.forall₂_map_left_iff,
      List.forall₂_map_right_iff]
    exact hcoded.imp fun _ _ h => h.1.2.1
  have hfilled : Entries.Distinct (coded.map Prod.snd) := by
    refine Entries.distinct_of_keys ?_ ?_
    · rw [← hsamekeys]
      exact List.pairwise_map.mpr hdistinct.keys
    · rw [List.map_map]
      exact List.forall_mem_map.mpr (forall_right hcoded fun _ _ h =>
        h.1.2.2.ne_nil (hdistinct.values _ h.1.1))
  have hkept : (coded.map Prod.snd).filter (fun pair => keyed pair.1) = coded.map Prod.snd := by
    rw [List.filter_eq_self]
    exact List.forall_mem_map.mpr (forall_right hcoded fun _ _ h =>
      h.1.2.1 ▸ (hkeys _ h.1.1).keyed)
  have hreads : Unpacks (fun fuel => unpackMap (unpackCursor fuel) entries.length)
      (coded.map Prod.fst).flatten (.table (coded.map Prod.snd)) := by
    intro fuel hfuel
    have hpairs := hmany fuel hfuel
    rw [hcount] at hpairs
    refine hpairs.map ?_
    rw [hkept, hfilled.ofPairs]
  obtain ⟨header, hheader, hcursor⟩ := packHeader_reads 0x80 0xDE "overflow in pack 'map'" hlength
    (fun hn u => unpackers_fixmap hn) (fun u => rfl) (fun u => rfl) hreads
  refine ⟨(header ++ (coded.map Prod.fst).flatten, .table (coded.map Prod.snd)), ?_, ?_, hcursor,
    ?_⟩
  · rw [pack_map h, hpacked, mapHeader, hheader]
    rfl
  · refine .table (.refl entries) hsamekeys ?_
    rw [List.map_map, List.forall₂_map_left_iff, List.forall₂_map_right_iff]
    exact hcoded.imp fun _ _ h => h.1.2.2
  · have hsum := sum_lengths_le (hcoded.imp fun _ _ h => h.2.2.2)
    have hheaderle := length_packHeader_le hheader
    rw [← sizes_eq_sum] at hsum
    rw [List.length_append, Value.size]
    omega

theorem Unpacks.of_succ {v : Value} (hne : code ≠ [])
    (h : ∀ fuel, (unpackCursor (fuel + 1)).Reads code v) : Unpacks unpackCursor code v := by
  intro fuel hfuel
  cases fuel with
  | zero => exact absurd (List.length_eq_zero_iff.mp (Nat.le_zero.mp hfuel)) hne
  | succ fuel => exact h fuel

theorem packable_arrives (h : Packable v) : ∃ coded, Arrives v coded := by
  induction h with
  | nil =>
      refine ⟨([0xC0], .nil), rfl, .nil, .of_succ (List.cons_ne_nil _ _) fun fuel => ?_, by decide⟩
      exact reads_cursor fun rest => rfl
  | boolean b =>
      refine ⟨([if b then 0xC3 else 0xC2], .boolean b), rfl, .boolean b,
        .of_succ (List.cons_ne_nil _ _) fun fuel => ?_, by simp [Value.size]⟩
      cases b <;> exact reads_cursor fun rest => rfl
  | number n =>
      refine ⟨(packNumber n, .number (received n)), rfl, .number n,
        .of_succ (packNumber_ne_nil n) fun fuel => reads_packNumber n, ?_⟩
      exact Nat.add_le_add_right (length_packNumber_le n) 9
  | string hlength =>
      obtain ⟨code, hpack, hreads⟩ := packString_reads hlength
      have hle := length_packString_le hpack
      refine ⟨(code, _), hpack, .string _, hreads, ?_⟩
      change code.length + 9 ≤ 18 * Value.size (.string _)
      rw [Value.size]
      omega
  | @table entries hlength hdistinct hkeys _ _ hkey hval =>
      cases harray : isArray entries with
      | true => exact array_arrives hlength hdistinct hkeys hval harray
      | false => exact map_arrives hlength hdistinct hkeys hkey hval harray

end ChatGames.MsgPack
