import ChatGames.LobbyCodec
import ChatGames.Proof.Unpacking
import Mathlib.Algebra.Order.BigOperators.Group.List
import Mathlib.Data.List.TakeWhile

/-!
# The messages of the lobby scene arrive

A vote and a table of players are read as they were written, whatever the order in which their
entries went over the wire, and they are short enough for the two bytes that their length has.
-/

namespace ChatGames

open Lua MsgPack Pointwise

/-! ### Reading a table that was received -/

namespace MsgPack

variable {entries entries' : Entries} {v w key : Value}

/-- The entries that arrive, one for each that was sent, with the same keys. -/
theorem Received.forall₂ (h : Received (.table entries) (.table entries')) :
    ∃ between, entries.Perm between ∧
      List.Forall₂ (fun entry entry' => entry.1 = entry'.1 ∧ Received entry.2 entry'.2)
        between entries' := by
  cases h with
  | @table _ between _ hperm hkeys hvals =>
      refine ⟨between, hperm, ?_⟩
      clear hperm
      induction between generalizing entries' with
      | nil =>
          rw [List.map_nil, eq_comm, List.map_eq_nil_iff] at hkeys
          rw [hkeys]
          exact .nil
      | cons entry between ih =>
          cases entries' with
          | nil => cases hkeys
          | cons entry' entries' =>
              rw [List.map_cons, List.map_cons, List.forall₂_cons] at hvals
              rw [List.map_cons, List.map_cons, List.cons.injEq] at hkeys
              exact .cons ⟨hkeys.1, hvals.1⟩ (ih hkeys.2 hvals.2)

theorem Received.distinct (h : Received (.table entries) (.table entries'))
    (hdistinct : entries.Distinct) : entries'.Distinct := by
  obtain ⟨between, hperm, hentries⟩ := h.forall₂
  have hbetween : Entries.Distinct between :=
    ⟨(hperm.pairwise_iff fun {entry entry'} hne => by rwa [Value.sameKey_comm]).mp hdistinct.keys,
      fun entry hmem => hdistinct.values entry (hperm.mem_iff.mpr hmem)⟩
  have hkeys : between.map Prod.fst = entries'.map Prod.fst := by
    rw [← List.forall₂_eq_eq_eq, List.forall₂_map_left_iff, List.forall₂_map_right_iff]
    exact hentries.imp fun _ _ h => h.1
  refine Entries.distinct_of_keys ?_ ?_
  · rw [← hkeys]
    exact List.pairwise_map.mpr hbetween.keys
  · intro val hval
    obtain ⟨entry', hmem, rfl⟩ := List.mem_map.mp hval
    obtain ⟨entry, hentry, -, hreceived⟩ := exists_right hentries.flip hmem
    exact hreceived.ne_nil (hbetween.values entry hentry)

/-- What is read at a key is what was sent there. -/
theorem Received.get (h : Received (.table entries) (.table entries'))
    (hdistinct : entries.Distinct) (hkey : key.sameKey key) :
    Received (entries.get key) (entries'.get key) := by
  obtain ⟨between, hperm, hentries⟩ := h.forall₂
  have hdistinct' := h.distinct hdistinct
  by_cases hmem : ∃ entry ∈ entries, entry.1 = key
  · obtain ⟨entry, hentry, rfl⟩ := hmem
    obtain ⟨entry', hentry', hsame, hreceived⟩ := exists_right hentries (hperm.mem_iff.mp hentry)
    have hget' := hdistinct'.get_eq hentry' (hsame ▸ hkey)
    rw [hdistinct.get_eq hentry hkey, hsame, hget']
    exact hreceived
  · push Not at hmem
    have hnone' : ∀ entry' ∈ entries', entry'.1 ≠ key := by
      intro entry' hentry' heq
      obtain ⟨entry, hentry, hsame, -⟩ := exists_right hentries.flip hentry'
      exact hmem entry (hperm.mem_iff.mpr hentry) (hsame.trans heq)
    rw [Entries.get_of_not_mem hmem, Entries.get_of_not_mem hnone']
    exact .nil

theorem Received.length_eq (h : Received (.table entries) (.table entries')) :
    entries'.length = entries.length := by
  obtain ⟨between, hperm, hentries⟩ := h.forall₂
  rw [← hentries.length_eq, hperm.length_eq]

/-- The values of an array that arrives. -/
theorem Received.ipairs {vals : List Value} (hvals : ∀ val ∈ vals, val ≠ .nil)
    (h : Received (.table (Entries.array vals)) (.table entries')) :
    List.Forall₂ Received vals entries'.ipairs := by
  have hlength : entries'.length = vals.length := h.length_eq.trans (Entries.length_array vals)
  have hall : List.Forall₂ Received vals
      ((List.range' 1 entries'.length).map fun i => entries'.get (.ofNat i)) := by
    rw [List.forall₂_iff_get]
    refine ⟨by simp [hlength], fun i hi hi' => ?_⟩
    have hkey : (Value.ofNat (i + 1)).sameKey (.ofNat (i + 1)) := by simp
    have hget := h.get (Entries.distinct_array hvals) hkey
    rw [Entries.get_array hvals hi] at hget
    simpa [Nat.add_comm] using hget
  rw [Entries.ipairs, List.takeWhile_eq_self_iff.mpr]
  · exact hall
  · intro val hval
    obtain ⟨sent, hsent, hreceived⟩ := exists_right hall.flip hval
    rw [Value.isNil_eq_false (hreceived.ne_nil (hvals sent hsent))]
    rfl

theorem Received.exists_table {w : Value} (h : Received (.table entries) w) :
    ∃ entries', w = .table entries' := by
  cases h
  exact ⟨_, rfl⟩

/-- What is read at the key of a field, which may be nil. -/
theorem Received.get_ofPairs {pairs : List (Value × Value)}
    (hkeys : (pairs.map Prod.fst).Pairwise fun key key' => key.sameKey key' = false)
    (hself : ∀ pair ∈ pairs, pair.1.sameKey pair.1)
    (h : Received (.table (Entries.ofPairs pairs)) (.table entries')) {pair : Value × Value}
    (hmem : pair ∈ pairs) : Received pair.2 (Entries.get entries' pair.1) := by
  have hget := h.get (Entries.distinct_ofPairs pairs) (hself pair hmem)
  rwa [Entries.get_ofPairs hkeys hself hmem] at hget

theorem Received.get_array {vals : List Value}
    (h : Received (.table (Entries.ofPairs (Entries.array vals))) (.table entries')) {i : Nat}
    (hi : i < vals.length) : Received vals[i] (Entries.get entries' (.ofNat (i + 1))) := by
  have hkey : (Value.ofNat (i + 1)).sameKey (.ofNat (i + 1)) := by simp
  have hget := h.get (Entries.distinct_ofPairs _) hkey
  rwa [Entries.get_ofPairs_array vals hi] at hget

end MsgPack

/-! ### Fields -/

/-- What the fields of a message stay below: integers from `maxinteger` on are not sent as
integers. -/
def maxField : Nat := 2 ^ 53 - 1

theorem isKey_ofNat {n : Nat} (hn : n < maxField) : IsKey (.ofNat n) :=
  IsKey.number (n := n) (by omega) (by rw [maxField] at hn; omega)

theorem packable_ofNat (n : Nat) : Packable (.ofNat n) := .number _

theorem packable_optional (n : Option Nat) : Packable (optional n) := by
  cases n with
  | none => exact .nil
  | some n => exact packable_ofNat n

theorem packable_ofPairs {pairs : List (Value × Value)} (hlength : pairs.length ≤ 4294967295)
    (h : ∀ pair ∈ pairs, (IsKey pair.1 ∧ Packable pair.1) ∧ Packable pair.2) :
    Packable (.table (Entries.ofPairs pairs)) := by
  have hentries := Entries.forall_ofPairs (K := fun key => IsKey key ∧ Packable key) h
  exact .table ((Entries.length_ofPairs_le pairs).trans hlength) (Entries.distinct_ofPairs pairs)
    (fun entry hmem => (hentries entry hmem).1.1) (fun entry hmem => (hentries entry hmem).1.2)
    fun entry hmem => (hentries entry hmem).2

theorem packable_ofPairs_array {vals : List Value} (hlength : vals.length ≤ 256)
    (h : ∀ val ∈ vals, Packable val) :
    Packable (.table (Entries.ofPairs (Entries.array vals))) := by
  refine packable_ofPairs (by rw [Entries.length_array]; omega) ?_
  refine List.forall_mem_map.mpr fun ⟨val, i⟩ hmem => ?_
  have hi : i < 1 + vals.length := (List.snd_lt_of_mem_zipIdx hmem).trans_eq (Nat.add_comm _ _)
  have hkey : i < maxField := by
    rw [maxField]
    omega
  exact ⟨⟨isKey_ofNat hkey, packable_ofNat i⟩, h val (List.fst_mem_of_mem_zipIdx hmem)⟩

theorem optional_of_received {n : Option Nat} (hn : ∀ k ∈ n, k < maxField) {w : Value}
    (h : Received (optional n) w) : w = optional n := by
  cases n with
  | none =>
      cases h
      rfl
  | some n => exact (isKey_ofNat (hn n rfl)).eq_of_received h

@[simp]
theorem toNat?_ofNat (n : Nat) : toNat? (.ofNat n) = some n := by
  simp [toNat?, Value.ofNat, Value.ofInt]

@[simp]
theorem optional?_optional (n : Option Nat) : optional? (optional n) = some n := by
  cases n with
  | none => rfl
  | some n =>
      change (toNat? (.ofNat n)).map some = _
      rw [toNat?_ofNat]
      rfl

theorem size_optional (n : Option Nat) : (optional n).size = 1 := by
  cases n <;> rfl

/-! ### Rows -/

structure PlayerRow.Fits (row : PlayerRow) : Prop where
  id_lt : row.id < 256
  color_lt : ∀ color ∈ row.color, color < maxField
  vote_lt : ∀ vote ∈ row.vote, vote < maxField

namespace PlayerRow

variable {row : PlayerRow}

def fields (row : PlayerRow) : List Value :=
  [.ofNat row.id, optional row.color, optional row.vote]

theorem packable_toLua (row : PlayerRow) : Packable row.toLua := by
  change Packable (.table (Entries.ofPairs (Entries.array row.fields)))
  refine packable_ofPairs_array (by simp [fields]) fun val hval => ?_
  simp only [fields, List.mem_cons, List.not_mem_nil, or_false] at hval
  rcases hval with rfl | rfl | rfl
  · exact packable_ofNat row.id
  · exact packable_optional row.color
  · exact packable_optional row.vote

theorem size_toLua_le (row : PlayerRow) : row.toLua.size ≤ 4 := by
  have hle := Entries.sizes_ofPairs (Entries.array row.fields)
  rw [sizes_array] at hle
  have hfields : (row.fields.map Value.size).sum = 3 := by
    simp only [fields, List.map_cons, List.map_nil, size_optional]
    rfl
  change sizes (Entries.ofPairs (Entries.array row.fields)) + 1 ≤ 4
  omega

/-- A row that arrives is read as it was sent. -/
theorem ofLua_of_received (hfits : row.Fits) {w : Value} (h : Received row.toLua w) :
    ofLua w = some row := by
  obtain ⟨entries', rfl⟩ := h.exists_table
  have hlength : row.fields.length = 3 := rfl
  have hget {i : Nat} (hi : i < row.fields.length) :
      Received row.fields[i] (Entries.get entries' (.ofNat (i + 1))) :=
    Received.get_array h hi
  have hkey := isKey_ofNat (hfits.id_lt.trans (by decide))
  have hid := hkey.eq_of_received (hget (i := 0) (by omega))
  have hcolor := optional_of_received hfits.color_lt (hget (i := 1) (by omega))
  have hvote := optional_of_received hfits.vote_lt (hget (i := 2) (by omega))
  rw [ofLua, hid, hcolor, hvote, toNat?_ofNat, optional?_optional, optional?_optional]
  rfl

end PlayerRow

/-! ### Messages -/

namespace LobbyMessage

variable {msg : LobbyMessage}

/-- The messages that the scene can send: the table that the master sends has a row for each id. -/
def Fits : LobbyMessage → Prop
  | vote gameIndex => ∀ n ∈ gameIndex, n < maxField
  | updatePlayerData data => data.length ≤ 256 ∧ ∀ row ∈ data, row.Fits
  | other => False

/-- The two fields of a message. -/
def fields (msg : LobbyMessage) : List (Value × Value) :=
  match msg with
  | vote gameIndex => [(typeKey, voteType), (voteKey, optional gameIndex)]
  | updatePlayerData data => [(typeKey, updatePlayerDataType),
      (dataKey, .table (Entries.array (data.map PlayerRow.toLua)))]
  | other => []

theorem toLua_eq (msg : LobbyMessage) : msg.toLua = .table (Entries.ofPairs msg.fields) := by
  cases msg <;> rfl

theorem pairwise_fields (msg : LobbyMessage) :
    (msg.fields.map Prod.fst).Pairwise fun key key' => key.sameKey key' = false := by
  cases msg <;> simp [fields, typeKey, voteKey, dataKey, Value.sameKey]

theorem row_ne_nil {data : List PlayerRow} {val : Value} (hval : val ∈ data.map PlayerRow.toLua) :
    val ≠ .nil := by
  obtain ⟨row, -, rfl⟩ := List.mem_map.mp hval
  exact fun hnil => nomatch hnil

theorem packable_rows {data : List PlayerRow} (hlength : data.length ≤ 256) :
    Packable (.table (Entries.array (data.map PlayerRow.toLua))) := by
  rw [← (Entries.distinct_array fun val => row_ne_nil).ofPairs]
  exact packable_ofPairs_array (by rwa [List.length_map])
    (List.forall_mem_map.mpr fun row _ => row.packable_toLua)

theorem packable_toLua (hfits : msg.Fits) : Packable msg.toLua := by
  rw [toLua_eq]
  cases msg with
  | vote gameIndex =>
      refine packable_ofPairs (by simp [fields]) ?_
      exact List.forall_mem_cons.mpr ⟨⟨⟨.string _, .string (by decide)⟩, packable_ofNat 1⟩,
        List.forall_mem_singleton.mpr ⟨⟨.string _, .string (by decide)⟩,
          packable_optional gameIndex⟩⟩
  | updatePlayerData data =>
      refine packable_ofPairs (by simp [fields]) ?_
      exact List.forall_mem_cons.mpr ⟨⟨⟨.string _, .string (by decide)⟩, packable_ofNat 2⟩,
        List.forall_mem_singleton.mpr ⟨⟨.string _, .string (by decide)⟩, packable_rows hfits.1⟩⟩
  | other => cases hfits

theorem size_toLua_le (hfits : msg.Fits) : msg.toLua.size ≤ 13 + 4 * 256 := by
  have hle := Entries.sizes_ofPairs msg.fields
  rw [toLua_eq, Value.size]
  cases msg with
  | vote gameIndex =>
      have hsizes : sizes (fields (.vote gameIndex)) = 12 := by
        simp [fields, sizes, typeKey, voteKey, voteType, Value.size, Value.isNumber, size_optional,
          Value.ofNat, Value.ofInt]
      omega
  | updatePlayerData data =>
      have hsizes : sizes (fields (.updatePlayerData data)) =
          12 + sizes (Entries.array (data.map PlayerRow.toLua)) := by
        simp [fields, sizes, typeKey, dataKey, updatePlayerDataType, Value.size, Value.isNumber,
          Value.ofNat, Value.ofInt]
        omega
      have hrows : ((data.map PlayerRow.toLua).map Value.size).sum ≤ data.length * 4 := by
        have hle := List.sum_le_card_nsmul ((data.map PlayerRow.toLua).map Value.size) 4
        rw [List.map_map, List.length_map, Nat.nsmul_eq_mul] at hle
        rw [List.map_map]
        exact hle (List.forall_mem_map.mpr fun row _ => row.size_toLua_le)
      rw [sizes_array] at hsizes
      have hlength := hfits.1
      omega
  | other => cases hfits

/-- A message that arrives is read as it was sent. -/
theorem ofLua_of_received (hfits : msg.Fits) {w : Value} (h : Received msg.toLua w) :
    ofLua w = some msg := by
  rw [toLua_eq] at h
  obtain ⟨entries', rfl⟩ := h.exists_table
  have hself : ∀ pair ∈ msg.fields, pair.1.sameKey pair.1 := by
    cases msg <;> simp [fields, typeKey, voteKey, dataKey, Value.sameKey]
  have hget {pair : Value × Value} (hmem : pair ∈ msg.fields) :
      Received pair.2 (Entries.get entries' pair.1) := h.get_ofPairs msg.pairwise_fields hself hmem
  cases msg with
  | vote gameIndex =>
      have htype := (isKey_ofNat (n := 1) (by decide)).eq_of_received
        (hget (List.mem_cons_self (a := (typeKey, voteType))))
      have hmem : (voteKey, optional gameIndex) ∈ fields (.vote gameIndex) := by simp [fields]
      have hvote := optional_of_received hfits (hget hmem)
      rw [ofLua, htype, if_pos (by simp [voteType]), hvote, optional?_optional]
      rfl
  | updatePlayerData data =>
      have htype := (isKey_ofNat (n := 2) (by decide)).eq_of_received
        (hget (List.mem_cons_self (a := (typeKey, updatePlayerDataType))))
      have hmem : (dataKey, .table (Entries.array (data.map PlayerRow.toLua))) ∈
          fields (.updatePlayerData data) := by simp [fields]
      have hdata := hget hmem
      obtain ⟨rows, hrows⟩ := hdata.exists_table
      change Received _ (Entries.get entries' dataKey) at hdata
      have hipairs := (hrows ▸ hdata).ipairs fun val => row_ne_nil
      rw [List.forall₂_map_left_iff] at hipairs
      have hmapM : (Entries.ipairs rows).mapM PlayerRow.ofLua = some data :=
        mapM_eq_pure (List.Forall₂.flip (((List.forall₂_and_left _ _).mpr ⟨hfits.2, hipairs⟩).imp
          fun row w h => row.ofLua_of_received h.1 h.2))
      rw [ofLua, htype, if_neg (by simp [voteType]),
        if_pos (by simp [updatePlayerDataType])]
      change (rowsOfLua (Entries.get entries' dataKey)).map updatePlayerData = _
      rw [hrows, rowsOfLua, hmapM]
      rfl
  | other => cases hfits

/-- A message of the lobby scene arrives as it was sent, and its two bytes can hold its length. -/
theorem arrives (hfits : msg.Fits) :
    ∃ packed, msg.pack = .ok packed ∧ packed.length < 65536 ∧ unpack packed = .ok msg := by
  obtain ⟨⟨packed, w⟩, hpacked, hreceived, hunpacks, hlength⟩ :=
    packable_arrives (packable_toLua hfits)
  have hsize := size_toLua_le hfits
  have hunpack : MsgPack.unpack packed = .ok w := (hunpacks packed.length (le_refl _)).runAll
  refine ⟨packed, hpacked, ?_, ?_⟩
  · change packed.length + 9 ≤ _ at hlength
    omega
  · rw [unpack, hunpack]
    change (ofLua w).elim _ _ = _
    rw [ofLua_of_received hfits hreceived]
    rfl

end LobbyMessage

end ChatGames
