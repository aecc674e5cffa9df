import ChatGames.BlobFormat
import ChatGames.Proof.Growth

/-!
# Fields there and back

The reader gets the fields that were written, if it asks for them in their order and in the byte
order of the writer, and runs out of data on whatever else begins the blob.
-/

namespace ChatGames

namespace Blob

open BlobBuffer

/-! ### Bits -/

theorem band_mask {value : Nat} (k : Nat) (h : value < 2 ^ 32) :
    band value (2 ^ k - 1) = value % 2 ^ k := by
  rw [band, Nat.and_two_pow_sub_one_eq_mod, Nat.mod_eq_of_lt h]

theorem band_bit {value : Nat} (k : Nat) (h : value < 2 ^ 32) :
    band value (2 ^ k) = 0 ↔ value / 2 ^ k % 2 = 0 := by
  have htest : (value &&& 2 ^ k = 0) ↔ value.testBit k = false := by
    constructor
    · intro hzero
      have hbit := congrArg (Nat.testBit · k) hzero
      simpa using hbit
    · intro hbit
      refine Nat.eq_of_testBit_eq fun i => ?_
      rw [Nat.testBit_and, Nat.testBit_two_pow, Nat.zero_testBit]
      by_cases hi : k = i
      · rw [← hi, hbit]
        rfl
      · simp [hi]
  rw [band, Nat.mod_eq_of_lt h, htest, Nat.testBit_eq_decide_div_mod_eq, decide_eq_false_iff_not]
  omega

theorem shr_eq {value : Nat} (k : Nat) (h : value < 2 ^ 32) : shr value k = value / 2 ^ k := by
  rw [shr, Nat.mod_eq_of_lt h, Nat.shiftRight_eq_div_pow]

/-- The mask that is left behind the loops is all bits from `k` on. -/
theorem shr_band_high {value mask k : Nat} (width : Nat) (h : value < 2 ^ 32)
    (hmask : mask >>> k = 2 ^ width - 1) (hwidth : k + width = 32) :
    shr (band value mask) k = value / 2 ^ k := by
  have hlt : value &&& mask < 2 ^ 32 := Nat.lt_of_le_of_lt Nat.and_le_left h
  rw [band, Nat.mod_eq_of_lt h, shr, Nat.mod_eq_of_lt hlt, Nat.shiftRight_and_distrib, hmask,
    Nat.and_two_pow_sub_one_eq_mod, Nat.shiftRight_eq_div_pow, Nat.mod_eq_of_lt]
  rw [Nat.div_lt_iff_lt_mul (Nat.two_pow_pos k), ← Nat.pow_add, Nat.add_comm, hwidth]
  exact h

/-! ### Groups of seven -/

/-- `p` is seven below the first of the thresholds, which are seven apart, and no group is left out
behind the last. -/
def Groups : Nat → List Nat → Prop
  | p, [] => 24 ≤ p ∧ p < 31
  | p, i :: is => i = p + 7 ∧ Groups i is

variable {order : ByteOrder} {value p : Nat} {is : List Nat}

theorem Groups.lt (h : Groups p is) : p < 31 := by
  induction is generalizing p with
  | nil => exact h.2
  | cons i is ih =>
      have hi := ih h.2
      have heq := h.1
      omega

theorem spelling_u8 (order : ByteOrder) (value : Nat) :
    (BlobCall.u8 value).spelling order = [UInt8.ofNat value] := by
  cases order <;> rfl

theorem reads_u8 (order : ByteOrder) (byte : UInt8) : (u8 order).Reads [byte] byte.toNat := by
  refine (Decoder.reads_take [byte]).map ?_
  rw [ByteOrder.load_singleton, ofBigEndian, List.foldl_cons, List.foldl_nil]
  omega

theorem reads_u8_ofNat (order : ByteOrder) {n : Nat} (h : n < 256) :
    (u8 order).Reads [UInt8.ofNat n] n := by
  have hreads := reads_u8 order (UInt8.ofNat n)
  rwa [UInt8.toNat_ofNat', Nat.mod_eq_of_lt h] at hreads

/-- The group of `value` from `p` on. -/
theorem group_eq (hvalue : value < 2 ^ 32) :
    shr (band value (2 ^ (p + 7) - 1)) p = value / 2 ^ p % 128 := by
  rw [band_mask _ hvalue, shr_eq p (Nat.lt_of_le_of_lt (Nat.mod_le _ _) hvalue), Nat.pow_add,
    Nat.mod_mul_right_div_self]

theorem mod_add_group (value p : Nat) :
    value % 2 ^ p + value / 2 ^ p % 128 * 2 ^ p = value % 2 ^ (p + 7) := by
  rw [Nat.pow_add, Nat.mod_mul, Nat.mul_comm (2 ^ p)]

/-- The reader has the bits of `value` below `p`, and the one that says that there is more. -/
theorem moreGroups_cons (order : ByteOrder) (value : Nat) (hp : p < 31) (is : List Nat) :
    moreGroups order (p :: is) (value % 2 ^ p + 2 ^ p) =
      u8 order >>= fun byte => moreGroups order is (value % 2 ^ p + byte * 2 ^ p) := by
  have hpos := Nat.two_pow_pos p
  have hmod := Nat.mod_lt value hpos
  have hlt : value % 2 ^ p + 2 ^ p < 2 ^ 32 := by
    have hpow : 2 ^ (p + 1) ≤ 2 ^ 31 := Nat.pow_le_pow_right (by decide) hp
    rw [pow_succ] at hpow
    omega
  have hbit : band (value % 2 ^ p + 2 ^ p) (2 ^ p) ≠ 0 := by
    rw [Ne, band_bit p hlt, Nat.add_div_right _ hpos, Nat.div_eq_of_lt hmod]
    decide
  rw [moreGroups, if_neg hbit, band_mask p hlt, Nat.add_mod_right, Nat.mod_mod]

/-- The writer has still to write the bits from `p` on. -/
theorem reads_moreGroups {last : BlobCall} (h : Groups p is) (hvalue : value < 2 ^ 32)
    (hlast : last.spelling order = [UInt8.ofNat (value / 2 ^ (p + 7 * is.length))]) :
    (moreGroups order (p :: is) (value % 2 ^ p + 2 ^ p)).Reads
      ((groups value last is).flatMap (BlobCall.spelling order)) value := by
  induction is generalizing p with
  | nil =>
      have hbyte : value / 2 ^ p < 256 := by
        have hpow : 2 ^ 24 ≤ 2 ^ p := Nat.pow_le_pow_right (by decide) h.1
        rw [Nat.div_lt_iff_lt_mul (Nat.two_pow_pos p)]
        omega
      have hcode : (groups value last []).flatMap (BlobCall.spelling order) =
          [UInt8.ofNat (value / 2 ^ p)] ++ [] := by
        rw [groups, List.flatMap_singleton, hlast]
        rfl
      rw [moreGroups_cons order value h.lt, hcode]
      refine (reads_u8_ofNat order hbyte).bind fun rest => ?_
      rw [moreGroups, Nat.mod_add_div']
      rfl
  | cons i is ih =>
      obtain ⟨rfl, his⟩ := h
      have hgroup := group_eq (p := p) hvalue
      have hsum := mod_add_group value p
      have hlow : value / 2 ^ p % 128 < 128 := Nat.mod_lt _ (by decide)
      have hp : p < 31 := by
        have hnext := his.lt
        omega
      rw [moreGroups_cons order value hp, groups, Nat.add_sub_cancel, hgroup]
      by_cases hsmall : value < 2 ^ (p + 7)
      · -- The last byte that is written.
        rw [if_pos hsmall, List.flatMap_singleton, spelling_u8, ← List.append_nil [_]]
        refine (reads_u8_ofNat order (by omega)).bind fun rest => ?_
        have hbit : band value (2 ^ (p + 7)) = 0 := by
          rw [band_bit _ hvalue, Nat.div_eq_of_lt hsmall]
        rw [hsum, Nat.mod_eq_of_lt hsmall, moreGroups, if_pos hbit]
        rfl
      · rw [if_neg hsmall, List.flatMap_cons, spelling_u8]
        refine (reads_u8_ofNat order (by omega)).bind ?_
        have hflag : value % 2 ^ p + (value / 2 ^ p % 128 + 0x80) * 2 ^ p =
            value % 2 ^ (p + 7) + 2 ^ (p + 7) := by
          rw [Nat.add_mul, ← Nat.add_assoc, hsum, Nat.pow_add, Nat.mul_comm (2 ^ p)]
        rw [hflag]
        refine ih his ?_
        rw [hlast, List.length_cons]
        congr 4
        omega

/-- The result stands for itself when its top bit is not set. -/
theorem moreGroups_of_lt (order : ByteOrder) (is : List Nat) (hp : p < 31) (h : value < 2 ^ p) :
    moreGroups order (p :: is) value = pure value := by
  have hpow : 2 ^ p ≤ 2 ^ 31 := Nat.pow_le_pow_right (by decide) (Nat.le_of_lt hp)
  have hbit : band value (2 ^ p) = 0 := by
    rw [band_bit p (by omega), Nat.div_eq_of_lt h]
  rw [moreGroups, if_pos hbit]

theorem reads_vu32 (order : ByteOrder) (h : value < 2 ^ 32) :
    ∃ calls, vu32 value = .ok calls ∧
      (readVu32 order).Reads (calls.flatMap (BlobCall.spelling order)) value := by
  refine ⟨_, if_pos h, ?_⟩
  have hlow : value % 2 ^ 7 < 2 ^ 7 := Nat.mod_lt _ (by decide)
  have hbits : shr (band value (2 ^ 7 - 1)) (7 - 7) = value % 2 ^ 7 := by
    rw [band_mask 7 h, shr_eq _ (by omega)]
    exact Nat.div_one _
  rw [readVu32, groups, hbits]
  by_cases hsmall : value < 2 ^ 7
  · rw [if_pos hsmall, List.flatMap_singleton, spelling_u8, Nat.mod_eq_of_lt hsmall,
      ← List.append_nil [_]]
    refine (reads_u8_ofNat order (by omega)).bind fun rest => ?_
    rw [moreGroups_of_lt order _ (by decide) hsmall]
    rfl
  · rw [if_neg hsmall, List.flatMap_cons, spelling_u8]
    refine (reads_u8_ofNat order (by omega)).bind (reads_moreGroups ?_ h ?_)
    · exact ⟨rfl, rfl, rfl, by decide, by decide⟩
    · rw [spelling_u8, shr_band_high 4 h (by decide) rfl]
      rfl

/-- The sign is the lowest bit of the first byte. -/
theorem reads_signed (order : ByteOrder) {byte sign n : Nat} {code : Bytes} (hbyte : byte < 256)
    (hsign : sign = byte % 2)
    (hcode : (moreGroups order [6, 13, 20, 27] (byte / 2)).Reads code n) :
    (readVs32 order).Reads (UInt8.ofNat byte :: code)
      ((n : Int) * if sign = 0 then 1 else -1) := by
  have hlow : band byte 1 = 0 ↔ sign = 0 := by
    have hbit := band_bit 0 (show byte < 2 ^ 32 by omega)
    rw [pow_zero, Nat.div_one] at hbit
    rw [hbit, hsign]
  have hshift : shr byte 1 = byte / 2 := shr_eq 1 (by omega)
  rw [← List.singleton_append, readVs32]
  refine (reads_u8_ofNat order hbyte).bind ?_
  dsimp only
  rw [hshift]
  refine hcode.map ?_
  simp only [hlow]

theorem reads_vs32 (order : ByteOrder) {value : Int} (hlt : value < 2 ^ 31)
    (hge : -2 ^ 31 ≤ value) :
    ∃ calls, vs32 value = .ok calls ∧
      (readVs32 order).Reads (calls.flatMap (BlobCall.spelling order)) value := by
  obtain ⟨n, hn⟩ : ∃ n, n = value.natAbs := ⟨_, rfl⟩
  have hn32 : n < 2 ^ 32 := by omega
  obtain ⟨sign, hsign⟩ : ∃ sign : Nat, sign = if value < 0 then 1 else 0 := ⟨_, rfl⟩
  have hbits : band n 0x3f <<< 1 = n % 2 ^ 6 * 2 := by
    rw [show 0x3f = 2 ^ 6 - 1 from rfl, band_mask 6 hn32, Nat.shiftLeft_eq]
  have hle : sign ≤ 1 := by
    rw [hsign]
    split <;> omega
  have hresult : value = (n : Int) * if sign = 0 then 1 else -1 := by
    by_cases hneg : value < 0
    · rw [hsign, if_pos hneg, if_neg (by decide)]
      omega
    · rw [hsign, if_neg hneg, if_pos rfl]
      omega
  by_cases hsmall : n < 2 ^ 6
  · refine ⟨[.u8 (n % 2 ^ 6 * 2 + sign)], ?_, ?_⟩
    · rw [vs32, if_pos ⟨hlt, hge⟩]
      dsimp only
      rw [← hn, ← hsign, if_pos hsmall, hbits]
    · rw [List.flatMap_singleton, spelling_u8, hresult]
      refine reads_signed order (by omega) (by omega) ?_
      have hhalf : (n % 2 ^ 6 * 2 + sign) / 2 = n := by omega
      rw [hhalf, moreGroups_of_lt order _ (by decide) hsmall]
      exact fun rest => rfl
  · refine ⟨.u8 (n % 2 ^ 6 * 2 + sign + 0x80) ::
      groups n (.u8 (shr (band n 0xf8000000) 27)) [13, 20, 27], ?_, ?_⟩
    · rw [vs32, if_pos ⟨hlt, hge⟩]
      dsimp only
      rw [← hn, ← hsign, if_neg hsmall, hbits]
    · rw [List.flatMap_cons, spelling_u8, hresult]
      refine reads_signed order (by omega) (by omega) ?_
      have hhalf : (n % 2 ^ 6 * 2 + sign + 0x80) / 2 = n % 2 ^ 6 + 2 ^ 6 := by omega
      rw [hhalf]
      refine reads_moreGroups ⟨rfl, rfl, rfl, by decide, by decide⟩ hn32 ?_
      rw [spelling_u8, shr_band_high 5 hn32 (by decide) rfl]
      rfl

end Blob

/-! ### Fields -/

namespace BlobField

/-- The writer takes the value, and the reader finds it: of an empty blob it takes nothing, not even
an empty string. -/
def Fits : BlobField → Prop
  | vu32 value => value < 2 ^ 32
  | vs32 value => -2 ^ 31 ≤ value ∧ value < 2 ^ 31
  | string value => value.length < 2 ^ 32
  | raw value => value ≠ []
  | _ => True

/-- Integers of a fixed width lose what is above it. -/
def received : BlobField → BlobField
  | u8 value => .u8 (value % 2 ^ 8)
  | u16 value => .u16 (value % 2 ^ 16)
  | u32 value => .u32 (value % 2 ^ 32)
  | field => field

end BlobField

namespace Blob

open BlobBuffer

variable {order : ByteOrder}

theorem load_store (order : ByteOrder) (width value : Nat) :
    order.load (order.store width value) = value % 256 ^ width := by
  cases order with
  | little => rw [ByteOrder.load, ByteOrder.store, List.reverse_reverse, ofBigEndian_toBigEndian]
  | big => rw [ByteOrder.load, ByteOrder.store, ofBigEndian_toBigEndian]

theorem length_store (order : ByteOrder) (width value : Nat) :
    (order.store width value).length = width := by
  cases order with
  | little => rw [ByteOrder.store, List.length_reverse, toBigEndian_length]
  | big => rw [ByteOrder.store, toBigEndian_length]

theorem reads_unsigned (order : ByteOrder) (width value : Nat) :
    (unsigned order width).Reads (order.store width value) (value % 256 ^ width) := by
  have htake : (Decoder.take (order.store width value).length : Reader Bytes).Reads
      (order.store width value) (order.store width value) := Decoder.reads_take _
  rw [length_store] at htake
  exact htake.map (load_store order width value)

/-- What a method has written, the method that goes with it reads. -/
theorem reads_field {field : BlobField} (h : field.Fits) (order : ByteOrder) :
    ∃ calls, field.calls = .ok calls ∧
      (read order field.reading).Reads (calls.flatMap (BlobCall.spelling order))
        field.received := by
  cases field with
  | u8 value =>
      refine ⟨_, rfl, ?_⟩
      rw [List.flatMap_singleton]
      exact (reads_unsigned order 1 value).map rfl
  | u16 value =>
      refine ⟨_, rfl, ?_⟩
      rw [List.flatMap_singleton]
      exact (reads_unsigned order 2 value).map rfl
  | u32 value =>
      refine ⟨_, rfl, ?_⟩
      rw [List.flatMap_singleton]
      exact (reads_unsigned order 4 value).map rfl
  | vu32 value =>
      obtain ⟨calls, hcalls, hreads⟩ := reads_vu32 order h
      exact ⟨calls, hcalls, hreads.map rfl⟩
  | vs32 value =>
      obtain ⟨calls, hcalls, hreads⟩ := reads_vs32 order h.2 h.1
      exact ⟨calls, hcalls, hreads.map rfl⟩
  | bool value =>
      refine ⟨_, rfl, ?_⟩
      rw [List.flatMap_singleton]
      refine (reads_unsigned order 1 _).map ?_
      cases value <;> rfl
  | string value =>
      obtain ⟨calls, hcalls, hreads⟩ := reads_vu32 order h
      refine ⟨calls ++ [.raw value], ?_, ?_⟩
      · rw [BlobField.calls, hcalls]
        rfl
      · rw [List.flatMap_append, List.flatMap_singleton]
        exact hreads.bind ((Decoder.reads_take value).map rfl)
  | raw value =>
      refine ⟨_, rfl, ?_⟩
      rw [List.flatMap_singleton]
      exact (Decoder.reads_take value).map rfl

theorem reads_fields {fields : List BlobField} (h : ∀ field ∈ fields, field.Fits)
    (order : ByteOrder) :
    ∃ calls, write fields = .ok calls ∧
      (readAll order (fields.map BlobField.reading)).Reads
        (calls.flatMap (BlobCall.spelling order)) (fields.map BlobField.received) := by
  induction fields with
  | nil => exact ⟨[], rfl, fun rest => rfl⟩
  | cons field fields ih =>
      obtain ⟨hfield, hfields⟩ := List.forall_mem_cons.mp h
      obtain ⟨calls, hcalls, hreads⟩ := reads_field hfield order
      obtain ⟨calls', hcalls', hreads'⟩ := ih hfields
      refine ⟨calls ++ calls', ?_, ?_⟩
      · rw [write, hcalls]
        change (do let calls' ← write fields; Except.ok (calls ++ calls')) = _
        rw [hcalls']
        rfl
      · rw [List.flatMap_append]
        exact hreads.bind (hreads'.map rfl)

/-! ### Blobs -/

theorem not_clear_groups {value : Nat} {last : BlobCall} (hlast : ∀ size, last ≠ .clear size)
    (is : List Nat) (size : Option Nat) : .clear size ∉ groups value last is := by
  induction is with
  | nil =>
      rw [groups, List.mem_singleton]
      exact fun h => hlast size h.symm
  | cons i is ih =>
      rw [groups]
      split
      · simp
      · simpa using ih

theorem not_clear_vu32 {value : Nat} {calls : List BlobCall} (h : vu32 value = .ok calls)
    (size : Option Nat) : .clear size ∉ calls := by
  rw [vu32] at h
  split at h
  · cases h
    exact not_clear_groups (by simp) _ _
  · cases h

theorem not_clear_calls {field : BlobField} {calls : List BlobCall} (h : field.calls = .ok calls)
    (size : Option Nat) : .clear size ∉ calls := by
  cases field with
  | u8 value | u16 value | u32 value | bool value | raw value =>
      cases h
      simp
  | vu32 value => exact not_clear_vu32 h size
  | vs32 value =>
      change vs32 value = .ok calls at h
      rw [vs32] at h
      split at h
      · dsimp only at h
        split at h
        · cases h
          simp
        · cases h
          simpa using not_clear_groups (by simp) _ size
      · cases h
  | string value =>
      rw [BlobField.calls] at h
      cases hlength : vu32 value.length with
      | error err =>
          rw [hlength] at h
          cases h
      | ok length =>
          rw [hlength] at h
          cases h
          simpa using not_clear_vu32 hlength size

theorem not_clear_write {fields : List BlobField} {calls : List BlobCall}
    (h : write fields = .ok calls) (size : Option Nat) : .clear size ∉ calls := by
  induction fields generalizing calls with
  | nil =>
      cases h
      exact List.not_mem_nil
  | cons field fields ih =>
      rw [write] at h
      cases hcalls : field.calls with
      | error err =>
          rw [hcalls] at h
          cases h
      | ok calls₁ =>
          cases hcalls' : write fields with
          | error err =>
              rw [hcalls, hcalls'] at h
              cases h
          | ok calls₂ =>
              rw [hcalls, hcalls'] at h
              cases h
              exact List.not_mem_append (not_clear_calls hcalls size) (ih hcalls')

theorem bytes_foldl {calls : List BlobCall} (h : ∀ size, .clear size ∉ calls)
    (tally : BlobTally) : (calls.foldl (BlobTally.add order) tally).bytes =
      tally.bytes ++ calls.flatMap (BlobCall.spelling order) := by
  induction calls generalizing tally with
  | nil => exact (List.append_nil _).symm
  | cons call calls ih =>
      have hbytes : (tally.add order call).bytes = tally.bytes ++ call.spelling order := by
        cases call with
        | clear size => exact absurd List.mem_cons_self (h size)
        | u8 value | u16 value | u32 value | raw value => rfl
      rw [List.foldl_cons, ih (fun size hmem => h size (List.mem_cons_of_mem _ hmem)), hbytes,
        List.flatMap_cons, List.append_assoc]

/-- **Blobs.** Whatever memory the writer begins with, and in either byte order, the reader gets
the fields back from the string; a string that was cut off anywhere does not hold them. -/
theorem readAll_write (order : ByteOrder) {size : Nat} (hsize : 0 < size)
    {fields : List BlobField} (hfits : ∀ field ∈ fields, field.Fits) :
    ∃ calls buffer, write fields = .ok calls ∧ (new order size).bind (run calls) = some buffer ∧
      (readAll order (fields.map BlobField.reading)).run buffer.tostring =
        .ok (fields.map BlobField.received, []) ∧
      ∀ front, front <+: buffer.tostring → front ≠ buffer.tostring →
        (readAll order (fields.map BlobField.reading)).run front = .error "Out of data" := by
  obtain ⟨calls, hcalls, hreads⟩ := reads_fields hfits order
  have hclear := not_clear_write hcalls
  obtain ⟨buffer, hnew, hempty⟩ := tallied_new order hsize
  obtain ⟨buffer₁, hrun, htallied⟩ := hempty.run calls fun n hmem =>
    absurd hmem (hclear (some n))
  have hbytes : buffer₁.tostring = calls.flatMap (BlobCall.spelling order) :=
    htallied.tostring.trans (bytes_foldl hclear _)
  refine ⟨calls, buffer₁, hcalls, ?_, ?_, ?_⟩
  · rw [hnew, Option.bind_some, hrun]
  · rw [hbytes]
    exact Decoder.reads_iff.mp hreads
  · intro front hbegins hne
    rw [hbytes] at hbegins hne
    exact hreads.run_of_front hbegins hne

/-- A string, a negative integer, and a byte that loses what it has no room for. -/
theorem readAll_write_mixed : ∃ calls buffer,
    write [.string [104, 105], .vs32 (-300), .u8 258] = .ok calls ∧
      (new .little 1).bind (run calls) = some buffer ∧
        (readAll .little [.string, .vs32, .u8]).run buffer.tostring =
          .ok ([.string [104, 105], .vs32 (-300), .u8 2], []) := by
  have hfits : ∀ field ∈ [BlobField.string [104, 105], .vs32 (-300), .u8 258], field.Fits := by
    simp [BlobField.Fits]
  obtain ⟨calls, buffer, hcalls, hrun, hread, -⟩ := readAll_write .little Nat.zero_lt_one hfits
  exact ⟨calls, buffer, hcalls, hrun, hread⟩

end Blob

/-! ### The reader of the handlers -/

namespace BlobReader

/-- The method does to the reader what the decoder does to the bytes that are left. -/
def Follows {α : Type} (method : BlobReader → Except LuaError (α × BlobReader))
    (d : Blob.Reader α) : Prop :=
  ∀ reader rest, reader.At rest →
    (∃ a rest' reader', d.run rest = .ok (a, rest') ∧ method reader = .ok (a, reader') ∧
      reader'.At rest') ∨
    d.run rest = .error "Out of data" ∧ method reader = .error "Out of data"

theorem follows_raw (len : Nat) : Follows (raw len) (Decoder.take len) := by
  rintro reader rest hat
  have hlength : rest.length = reader.size - reader.readPtr := by
    rw [← hat.1, List.length_drop, size]
  have hle := hat.2
  by_cases hlen : len ≤ rest.length
  · have htake : (rest.take len).length = len := List.length_take_of_le hlen
    have hat' : reader.At (rest.take len ++ rest.drop len) := by
      rwa [List.take_append_drop]
    obtain ⟨reader', hraw, hrest⟩ := hat'.raw
    rw [htake] at hraw
    refine Or.inl ⟨_, _, reader', ?_, hraw, hrest⟩
    exact Decoder.run_take_eq_ok.mpr ⟨(List.take_append_drop len rest).symm, htake⟩
  · refine Or.inr ⟨if_neg hlen, ?_⟩
    rw [raw, if_pos (by omega)]

end BlobReader

end ChatGames
