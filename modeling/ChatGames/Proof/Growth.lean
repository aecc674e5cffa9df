import ChatGames.BlobBuffer

/-!
# Growing

The writer's buffer holds the string that its calls spell, and no store misses it. New memory is at
least half as large again as the old, so that what is copied to it in all is at most three times
what was stored, as often as the writer is cleared in between.
-/

namespace ChatGames

namespace BlobBuffer

variable {buffer buffer₁ buffer₂ : BlobBuffer}

/-! ### Bytes -/

theorem ofNat_band (value : Nat) : UInt8.ofNat (band value (2 ^ 8 - 1)) = UInt8.ofNat value := by
  apply UInt8.toNat_inj.mp
  rw [band, Nat.and_two_pow_sub_one_eq_mod, UInt8.toNat_ofNat', UInt8.toNat_ofNat']
  omega

theorem ofNat_shr (value : Nat) : UInt8.ofNat (shr value 8) = UInt8.ofNat (value / 256) := by
  apply UInt8.toNat_inj.mp
  rw [shr, Nat.shiftRight_eq_div_pow, UInt8.toNat_ofNat', UInt8.toNat_ofNat']
  omega

theorem ofNat_div_band (value : Nat) :
    UInt8.ofNat (band value (2 ^ 16 - 1) / 256) = UInt8.ofNat (value / 256) := by
  apply UInt8.toNat_inj.mp
  rw [band, Nat.and_two_pow_sub_one_eq_mod, UInt8.toNat_ofNat', UInt8.toNat_ofNat']
  omega

theorem ofNat_band_self (value : Nat) :
    UInt8.ofNat (band value (2 ^ 16 - 1)) = UInt8.ofNat value := by
  apply UInt8.toNat_inj.mp
  rw [band, Nat.and_two_pow_sub_one_eq_mod, UInt8.toNat_ofNat', UInt8.toNat_ofNat']
  omega

theorem ofNat_shr_sixteen (value : Nat) :
    UInt8.ofNat (shr value 16) = UInt8.ofNat (value / 256 / 256) := by
  apply UInt8.toNat_inj.mp
  rw [shr, Nat.shiftRight_eq_div_pow, UInt8.toNat_ofNat', UInt8.toNat_ofNat']
  omega

theorem ofNat_div_shr_sixteen (value : Nat) :
    UInt8.ofNat (shr value 16 / 256) = UInt8.ofNat (value / 256 / 256 / 256) := by
  apply UInt8.toNat_inj.mp
  rw [shr, Nat.shiftRight_eq_div_pow, UInt8.toNat_ofNat', UInt8.toNat_ofNat']
  omega

/-- The two bytes of `orderBytes` are the two bytes of the number, in their order. -/
theorem orderBytes_spelling (order : ByteOrder) (value : Nat) :
    [UInt8.ofNat (orderBytes order (band value (2 ^ 8 - 1), shr value 8)).1,
      UInt8.ofNat (orderBytes order (band value (2 ^ 8 - 1), shr value 8)).2] =
        order.store 2 value := by
  cases order with
  | little =>
      rw [orderBytes, ofNat_band, ofNat_shr]
      rfl
  | big =>
      rw [orderBytes, ofNat_band, ofNat_shr]
      rfl

/-! ### Memory -/

/-- From one buffer to the other, `bytes` were stored from byte `i` on. -/
structure Stored (i : Nat) (bytes : Bytes) (buffer buffer₁ : BlobBuffer) : Prop where
  order : buffer₁.order = buffer.order
  length : buffer₁.length = buffer.length
  copied : buffer₁.copied = buffer.copied
  size : buffer₁.size = buffer.size
  take : buffer₁.data.take (i + bytes.length) = buffer.data.take i ++ bytes

theorem Stored.trans {i : Nat} {bytes bytes' : Bytes} (h : Stored i bytes buffer buffer₁)
    (h' : Stored (i + bytes.length) bytes' buffer₁ buffer₂) :
    Stored i (bytes ++ bytes') buffer buffer₂ where
  order := h'.order.trans h.order
  length := h'.length.trans h.length
  copied := h'.copied.trans h.copied
  size := h'.size.trans h.size
  take := by rw [List.length_append, ← Nat.add_assoc, h'.take, h.take, List.append_assoc]

theorem exists_stored (buffer : BlobBuffer) (i value : Nat) (h : i < buffer.size) :
    ∃ buffer₁, buffer.store i value = some buffer₁ ∧
      Stored i [UInt8.ofNat value] buffer buffer₁ := by
  refine ⟨_, if_pos h, rfl, rfl, rfl, List.length_set, ?_⟩
  have hi : i < (buffer.data.set i (UInt8.ofNat value)).length := by
    rw [List.length_set]
    exact h
  rw [List.length_singleton, List.take_succ_eq_append_getElem hi, List.getElem_set_self,
    List.take_set_of_le (Nat.le_refl i)]

/-- What is written stays where it is when there is made room for `count` more bytes. -/
structure Roomy (count : Nat) (buffer buffer₁ : BlobBuffer) : Prop where
  order : buffer₁.order = buffer.order
  length : buffer₁.length = buffer.length
  tostring : buffer₁.tostring = buffer.tostring
  fits : buffer.length + count ≤ buffer₁.size
  size_le : buffer₁.size ≤ max buffer.size ((3 * (buffer.length + count) + 6) / 2)
  copied : buffer₁.copied = buffer.copied ∧ buffer₁.size = buffer.size ∨
    buffer.size < buffer.length + count ∧ buffer₁.copied = buffer.copied + buffer.length ∧
      3 * buffer.size ≤ 2 * buffer₁.size

theorem exists_allocate (buffer : BlobBuffer) (size : Nat) (h : buffer.length ≤ size)
    (hinside : buffer.length ≤ buffer.size) :
    ∃ buffer₁, buffer.allocate size = some buffer₁ ∧ buffer₁.order = buffer.order ∧
      buffer₁.length = buffer.length ∧ buffer₁.tostring = buffer.tostring ∧
        buffer₁.size = size ∧ buffer₁.copied = buffer.copied + buffer.length := by
  have htake : (buffer.data.take buffer.length).length = buffer.length :=
    List.length_take_of_le hinside
  refine ⟨_, if_pos h, rfl, Nat.min_eq_right h, ?_, ?_, rfl⟩
  · rw [tostring, tostring]
    dsimp only
    rw [Nat.min_eq_right h, List.take_left' htake]
  · rw [BlobBuffer.size, List.length_append, htake, List.length_replicate]
    omega

theorem exists_roomy (count minimum : Nat) (hinside : buffer.length ≤ buffer.size)
    (henough : buffer.length + count ≤ buffer.size + minimum)
    (hlittle : buffer.size < buffer.length + count →
      buffer.size + minimum ≤ buffer.length + count + 3) :
    ∃ buffer₁, (if buffer.size < buffer.length + count then buffer.grow minimum else some buffer) =
      some buffer₁ ∧ Roomy count buffer buffer₁ := by
  by_cases hfull : buffer.size < buffer.length + count
  · have hbound := hlittle hfull
    obtain ⟨buffer₁, hgrow, horder, hlength, htostring, hsize, hcopied⟩ :=
      exists_allocate buffer (max (buffer.size + minimum) ((max 2 (3 * buffer.size) + 1) / 2))
        (by omega) hinside
    refine ⟨buffer₁, ?_, horder, hlength, htostring, by omega, by omega,
      Or.inr ⟨hfull, hcopied, by omega⟩⟩
    rw [if_pos hfull, grow, hgrow]
  · exact ⟨buffer, if_neg hfull, rfl, rfl, rfl, by omega, le_max_left _ _, Or.inl ⟨rfl, rfl⟩⟩

theorem exists_reserve (count : Nat) (hcount : count ≤ 4) (hinside : buffer.length ≤ buffer.size) :
    ∃ buffer₁, buffer.reserve count = some buffer₁ ∧ Roomy count buffer buffer₁ :=
  exists_roomy count count hinside (by omega) (by omega)

/-! ### The methods -/

/-- From one buffer to the other, `bytes` were written. -/
structure Appended (bytes : Bytes) (buffer buffer₁ : BlobBuffer) : Prop where
  order : buffer₁.order = buffer.order
  length : buffer₁.length = buffer.length + bytes.length
  inside : buffer₁.length ≤ buffer₁.size
  tostring : buffer₁.tostring = buffer.tostring ++ bytes
  size_le : buffer₁.size ≤ max buffer.size ((3 * buffer₁.length + 6) / 2)
  copied : buffer₁.copied = buffer.copied ∧ buffer₁.size = buffer.size ∨
    buffer.size < buffer₁.length ∧ buffer₁.copied = buffer.copied + buffer.length ∧
      3 * buffer.size ≤ 2 * buffer₁.size

theorem Roomy.appended {count : Nat} {bytes : Bytes} (h : Roomy count buffer buffer₁)
    (h' : Stored buffer.length bytes buffer₁ buffer₂) (hcount : bytes.length = count) :
    Appended bytes buffer { buffer₂ with length := buffer₂.length + count } := by
  subst hcount
  refine ⟨h'.order.trans h.order, ?_, ?_, ?_, ?_, ?_⟩
  · change buffer₂.length + bytes.length = buffer.length + bytes.length
    rw [h'.length, h.length]
  · change buffer₂.length + bytes.length ≤ buffer₂.size
    rw [h'.length, h.length, h'.size]
    exact h.fits
  · have hold := h.tostring
    rw [BlobBuffer.tostring, h.length] at hold
    rw [BlobBuffer.tostring]
    dsimp only
    rw [h'.length, h.length, h'.take, hold]
  · change buffer₂.size ≤ max buffer.size ((3 * (buffer₂.length + bytes.length) + 6) / 2)
    rw [h'.size, h'.length, h.length]
    exact h.size_le
  · change buffer₂.copied = buffer.copied ∧ buffer₂.size = buffer.size ∨
      buffer.size < buffer₂.length + bytes.length ∧
        buffer₂.copied = buffer.copied + buffer.length ∧ 3 * buffer.size ≤ 2 * buffer₂.size
    rw [h'.copied, h'.size, h'.length, h.length]
    exact h.copied

theorem exists_appended_u8 (value : Nat) (hinside : buffer.length ≤ buffer.size) :
    ∃ buffer₁, buffer.u8 value = some buffer₁ ∧
      Appended (buffer.order.store 1 value) buffer buffer₁ := by
  obtain ⟨grown, hreserve, hroomy⟩ := exists_reserve 1 (by omega) hinside
  have hfits := hroomy.fits
  obtain ⟨stored, hstore, hstored⟩ := exists_stored grown buffer.length value (by omega)
  have hbytes : buffer.order.store 1 value = [UInt8.ofNat value] := by
    cases buffer.order <;> rfl
  rw [← hbytes] at hstored
  refine ⟨_, ?_, hroomy.appended hstored (by rw [hbytes]; rfl)⟩
  rw [u8, hreserve, Option.bind_eq_bind, Option.bind_some, hroomy.length, hstore]
  rfl

theorem exists_appended_u16 (value : Nat) (hinside : buffer.length ≤ buffer.size) :
    ∃ buffer₁, buffer.u16 value = some buffer₁ ∧
      Appended (buffer.order.store 2 value) buffer buffer₁ := by
  obtain ⟨grown, hreserve, hroomy⟩ := exists_reserve 2 (by omega) hinside
  have hfits := hroomy.fits
  obtain ⟨stored, hstore, hstored⟩ := exists_stored grown buffer.length
    (orderBytes buffer.order (band value (2 ^ 8 - 1), shr value 8)).1 (by omega)
  have hsize := hstored.size
  obtain ⟨stored', hstore', hstored'⟩ := exists_stored stored (buffer.length + 1)
    (orderBytes buffer.order (band value (2 ^ 8 - 1), shr value 8)).2 (by omega)
  have hall := hstored.trans hstored'
  rw [List.singleton_append, orderBytes_spelling] at hall
  refine ⟨_, ?_, hroomy.appended hall (by cases buffer.order <;> rfl)⟩
  rw [u16, hreserve, Option.bind_eq_bind, Option.bind_some, hroomy.order]
  dsimp only
  rw [hstore, Option.bind_some, hstore', Option.bind_some, hall.length]

/-- The four bytes that `u32` makes of the halves of a number. -/
theorem orderBytes_halves (order : ByteOrder) (value : Nat) {w b b' : Nat × Nat}
    (hw : w = orderBytes order (band value (2 ^ 16 - 1), shr value 16))
    (hb : b = orderBytes order (band w.1 (2 ^ 8 - 1), shr w.1 8))
    (hb' : b' = orderBytes order (band w.2 (2 ^ 8 - 1), shr w.2 8)) :
    [UInt8.ofNat b.1, UInt8.ofNat b.2, UInt8.ofNat b'.1, UInt8.ofNat b'.2] =
      order.store 4 value := by
  subst hb hb' hw
  cases order with
  | little =>
      simp only [orderBytes, ofNat_band, ofNat_shr, ofNat_band_self, ofNat_div_band,
        ofNat_shr_sixteen, ofNat_div_shr_sixteen]
      rfl
  | big =>
      simp only [orderBytes, ofNat_band, ofNat_shr, ofNat_band_self, ofNat_div_band,
        ofNat_shr_sixteen, ofNat_div_shr_sixteen]
      rfl

theorem exists_appended_u32 (value : Nat) (hinside : buffer.length ≤ buffer.size) :
    ∃ buffer₁, buffer.u32 value = some buffer₁ ∧
      Appended (buffer.order.store 4 value) buffer buffer₁ := by
  obtain ⟨grown, hreserve, hroomy⟩ := exists_reserve 4 (by omega) hinside
  obtain ⟨w, hw⟩ : ∃ w, w = orderBytes buffer.order (band value (2 ^ 16 - 1), shr value 16) :=
    ⟨_, rfl⟩
  obtain ⟨b, hb⟩ : ∃ b, b = orderBytes buffer.order (band w.1 (2 ^ 8 - 1), shr w.1 8) := ⟨_, rfl⟩
  obtain ⟨b', hb'⟩ : ∃ b', b' = orderBytes buffer.order (band w.2 (2 ^ 8 - 1), shr w.2 8) :=
    ⟨_, rfl⟩
  have hfits := hroomy.fits
  obtain ⟨stored, hstore, hstored⟩ := exists_stored grown buffer.length b.1 (by omega)
  have hsize := hstored.size
  obtain ⟨stored₁, hstore₁, hstored₁⟩ := exists_stored stored (buffer.length + 1) b.2
    (by omega)
  have hsize₁ := hstored₁.size
  obtain ⟨stored₂, hstore₂, hstored₂⟩ := exists_stored stored₁ (buffer.length + 2) b'.1
    (by omega)
  have hsize₂ := hstored₂.size
  obtain ⟨stored₃, hstore₃, hstored₃⟩ := exists_stored stored₂ (buffer.length + 3) b'.2
    (by omega)
  have hall := ((hstored.trans hstored₁).trans hstored₂).trans hstored₃
  rw [List.singleton_append, List.cons_append, List.singleton_append, List.cons_append,
    List.cons_append, List.singleton_append, orderBytes_halves buffer.order value hw hb hb'] at hall
  refine ⟨_, ?_, hroomy.appended hall (by cases buffer.order <;> rfl)⟩
  rw [u32, hreserve, Option.bind_eq_bind, Option.bind_some, hroomy.order]
  dsimp only
  rw [← hw, ← hb, ← hb', hstore, Option.bind_some, hstore₁, Option.bind_some, hstore₂,
    Option.bind_some, hstore₃, Option.bind_some, hall.length]

theorem exists_appended_raw (value : Bytes) (hinside : buffer.length ≤ buffer.size)
    (hpos : 0 < buffer.size) :
    ∃ buffer₁, buffer.raw value = some buffer₁ ∧ Appended value buffer buffer₁ := by
  obtain ⟨grown, hgrow, hroomy⟩ := exists_roomy value.length
    (buffer.length + value.length - buffer.size) hinside (by omega) (by omega)
  have hfits := hroomy.fits
  have hpos' : 0 < grown.size := by
    rcases hroomy.copied with ⟨-, hsize⟩ | ⟨hfull, -, hlarger⟩
    · omega
    · omega
  have hgrow' : (if (buffer.size - buffer.length - value.length : Int) < 0 then
      buffer.grow (buffer.size - buffer.length - value.length : Int).natAbs else some buffer) =
        some grown := by
    rw [← hgrow]
    by_cases hfull : buffer.size < buffer.length + value.length
    · rw [if_pos hfull, if_pos (by omega)]
      congr 1
      omega
    · rw [if_neg hfull, if_neg (by omega)]
  have htake : (grown.data.take grown.length).length = grown.length := by
    refine List.length_take_of_le ?_
    change grown.length ≤ grown.size
    rw [hroomy.length]
    omega
  have hstored : Stored buffer.length value grown { grown with
      data := grown.data.take grown.length ++ value ++
        grown.data.drop (grown.length + value.length) } := by
    refine ⟨rfl, rfl, rfl, ?_, ?_⟩
    · change (grown.data.take grown.length ++ value ++
        grown.data.drop (grown.length + value.length)).length = grown.data.length
      have hsize : grown.length + value.length ≤ grown.data.length := by
        rw [hroomy.length]
        exact hfits
      rw [List.length_append, List.length_append, htake, List.length_drop]
      omega
    · rw [← hroomy.length, List.take_left' (by rw [List.length_append, htake])]
  refine ⟨_, ?_, hroomy.appended hstored rfl⟩
  rw [raw]
  dsimp only
  rw [hgrow', Option.bind_eq_bind, Option.bind_some,
    if_pos ⟨hpos', by rw [hroomy.length]; exact hfits⟩]

/-! ### Runs -/

theorem exists_apply {call : BlobCall} (hcall : ∀ size, call ≠ .clear size)
    (hinside : buffer.length ≤ buffer.size) (hpos : 0 < buffer.size) :
    ∃ buffer₁, call.apply buffer = some buffer₁ ∧
      Appended (call.spelling buffer.order) buffer buffer₁ := by
  cases call with
  | u8 value => exact exists_appended_u8 value hinside
  | u16 value => exact exists_appended_u16 value hinside
  | u32 value => exact exists_appended_u32 value hinside
  | raw value => exact exists_appended_raw value hinside hpos
  | clear size => exact absurd rfl (hcall size)

/-- What a buffer is like for an account of its calls. Since the memory was last asked for,
`stored - earlier` bytes have been stored. -/
structure Tallied (order : ByteOrder) (buffer : BlobBuffer) (tally : BlobTally) : Prop where
  order : buffer.order = order
  tostring : buffer.tostring = tally.bytes
  inside : buffer.length ≤ buffer.size
  pos : 0 < buffer.size
  length_le : buffer.length ≤ tally.longest
  size_le : buffer.size ≤ max tally.asked ((3 * tally.longest + 6) / 2)
  copied_le : buffer.copied ≤ 3 * tally.stored
  earlier : ∃ earlier, earlier + buffer.length ≤ tally.stored ∧
    buffer.copied ≤ 3 * earlier + 2 * buffer.size

variable {order : ByteOrder} {tally : BlobTally}

theorem length_tostring (h : buffer.length ≤ buffer.size) :
    buffer.tostring.length = buffer.length := List.length_take_of_le h

theorem Tallied.appended {bytes : Bytes} (h : Tallied order buffer tally)
    (h' : Appended bytes buffer buffer₁) :
    Tallied order buffer₁ { tally with
      bytes := tally.bytes ++ bytes
      longest := max tally.longest (tally.bytes ++ bytes).length
      stored := tally.stored + bytes.length } := by
  have htostring : buffer₁.tostring = tally.bytes ++ bytes := by
    rw [h'.tostring, h.tostring]
  have hlength : (tally.bytes ++ bytes).length = buffer₁.length := by
    rw [← htostring, length_tostring h'.inside]
  have hlength' := h'.length
  have hcopied := h.copied_le
  obtain ⟨earlier, hstored, hphase⟩ := h.earlier
  refine ⟨h'.order.trans h.order, htostring, h'.inside, ?_, ?_, ?_, ?_, earlier, ?_, ?_⟩
  · have hpos := h.pos
    rcases h'.copied with ⟨-, hsize⟩ | ⟨-, -, hlarger⟩
    · omega
    · omega
  · rw [hlength]
    exact le_max_right _ _
  · have hsize := h'.size_le
    have hbefore := h.size_le
    dsimp only
    omega
  · dsimp only
    rcases h'.copied with ⟨hsame, -⟩ | ⟨hfull, hmore, -⟩
    · omega
    · have hinside := h.inside
      omega
  · dsimp only
    omega
  · rcases h'.copied with ⟨hsame, hsize⟩ | ⟨-, hmore, hlarger⟩
    · omega
    · have hinside := h.inside
      omega

theorem Tallied.cleared (h : Tallied order buffer tally) {size : Option Nat}
    (hsize : ∀ n ∈ size, 0 < n) :
    ∃ buffer₁, buffer.clear size = some buffer₁ ∧
      Tallied order buffer₁ (tally.add order (.clear size)) := by
  cases size with
  | none =>
      obtain ⟨earlier, hstored, hphase⟩ := h.earlier
      refine ⟨_, rfl, h.order, rfl, Nat.zero_le _, h.pos, Nat.zero_le _, ?_, h.copied_le,
        earlier, ?_, hphase⟩
      · have hbefore := h.size_le
        change buffer.size ≤ max (max tally.asked 0) ((3 * tally.longest + 6) / 2)
        omega
      · change earlier + 0 ≤ tally.stored
        omega
  | some size =>
      obtain ⟨buffer₁, hallocate, horder, hlength, htostring, hsize', hcopied⟩ :=
        exists_allocate ⟨buffer.order, [], 0, buffer.copied⟩ size (Nat.zero_le size)
          (Nat.zero_le _)
      have hbefore := h.copied_le
      have hpos := hsize size rfl
      refine ⟨buffer₁, hallocate, horder.trans h.order, htostring, ?_, ?_, ?_, ?_, ?_,
        tally.stored, ?_, ?_⟩
      · exact hlength ▸ Nat.zero_le _
      · omega
      · exact hlength ▸ Nat.zero_le _
      · change buffer₁.size ≤ max (max tally.asked size) ((3 * tally.longest + 6) / 2)
        omega
      · exact hcopied ▸ hbefore
      · exact hlength ▸ Nat.le_refl _
      · have hsame : buffer₁.copied = buffer.copied := hcopied
        omega

theorem Tallied.apply (h : Tallied order buffer tally) (call : BlobCall)
    (hcall : ∀ size, call = .clear (some size) → 0 < size) :
    ∃ buffer₁, call.apply buffer = some buffer₁ ∧ Tallied order buffer₁ (tally.add order call) := by
  have happend (hclear : ∀ size, call ≠ .clear size) : ∃ buffer₁, call.apply buffer = some buffer₁ ∧
      Appended (call.spelling order) buffer buffer₁ := by
    rw [← h.order]
    exact exists_apply hclear h.inside h.pos
  cases call with
  | clear size =>
      refine h.cleared fun n hn => hcall n ?_
      rw [Option.mem_def.mp hn]
  | u8 value | u16 value | u32 value | raw value =>
      obtain ⟨buffer₁, happly, happended⟩ := happend (by rintro size ⟨⟩)
      exact ⟨buffer₁, happly, h.appended happended⟩

theorem Tallied.run (h : Tallied order buffer tally) (calls : List BlobCall)
    (hcalls : ∀ size, .clear (some size) ∈ calls → 0 < size) :
    ∃ buffer₁, buffer.run calls = some buffer₁ ∧
      Tallied order buffer₁ (calls.foldl (BlobTally.add order) tally) := by
  induction calls generalizing buffer tally with
  | nil => exact ⟨buffer, rfl, h⟩
  | cons call calls ih =>
      obtain ⟨buffer₁, happly, h₁⟩ := h.apply call fun size hclear =>
        hcalls size (hclear ▸ List.mem_cons_self)
      obtain ⟨buffer₂, hrun, h₂⟩ := ih h₁ fun size hmem => hcalls size (List.mem_cons_of_mem _ hmem)
      refine ⟨buffer₂, ?_, h₂⟩
      rw [BlobBuffer.run, List.foldlM_cons, happly]
      exact hrun

theorem tallied_new (order : ByteOrder) {size : Nat} (hsize : 0 < size) :
    ∃ buffer, new order size = some buffer ∧ Tallied order buffer (BlobTally.new size) := by
  obtain ⟨buffer, hallocate, horder, hlength, htostring, hsize', hcopied⟩ :=
    exists_allocate ⟨order, [], 0, 0⟩ size (Nat.zero_le size) (Nat.zero_le _)
  have hlength' : buffer.length = 0 := hlength
  have hcopied' : buffer.copied = 0 := hcopied
  refine ⟨buffer, hallocate, horder, htostring, by omega, by omega, by omega, ?_, by omega, 0, ?_,
    by omega⟩
  · rw [hsize']
    exact le_max_left _ _
  · rw [hlength']
    exact Nat.zero_le _

/-- **The buffer.** Whatever is called, no store misses the memory, the string is what the calls
since the last `clear` spell, the memory is at most half as large again as the longest string (or
as large as was asked for), and at most three bytes are copied for each that is stored. -/
theorem run_spells (order : ByteOrder) {size : Nat} (hsize : 0 < size) {calls : List BlobCall}
    (hcalls : ∀ size, .clear (some size) ∈ calls → 0 < size) :
    ∃ buffer, (new order size).bind (run calls) = some buffer ∧
      let tally := calls.foldl (BlobTally.add order) (BlobTally.new size)
      buffer.tostring = tally.bytes ∧
        buffer.size ≤ max tally.asked ((3 * tally.longest + 6) / 2) ∧
          buffer.copied ≤ 3 * tally.stored := by
  obtain ⟨buffer, hnew, h⟩ := tallied_new order hsize
  obtain ⟨buffer₁, hrun, h₁⟩ := h.run calls hcalls
  refine ⟨buffer₁, ?_, h₁.tostring, h₁.size_le, h₁.copied_le⟩
  rw [hnew, Option.bind_some]
  exact hrun

/-- A buffer of two bytes takes three integers and a string, and is cleared in between. -/
theorem run_spells_twice : ∃ buffer,
    (new .big 2).bind (run [.u16 258, .u8 3, .clear none, .u32 5, .raw [1, 2, 3]]) = some buffer ∧
      buffer.tostring = [0, 0, 0, 5, 1, 2, 3] ∧ buffer.size ≤ 13 ∧ buffer.copied ≤ 30 := by
  have hcalls : ∀ size, BlobCall.clear (some size) ∉
      [BlobCall.u16 258, .u8 3, .clear none, .u32 5, .raw [1, 2, 3]] := by
    intro size
    simp
  obtain ⟨buffer, hrun, hbytes, hsize, hcopied⟩ := run_spells .big Nat.zero_lt_two
    fun size hmem => absurd hmem (hcalls size)
  exact ⟨buffer, hrun, hbytes, hsize, hcopied⟩

end BlobBuffer

namespace Net

open BlobBuffer

/-- What `encodeMessage` calls. -/
def Request.calls : Request → List BlobCall
  | .createLobby playerName => [.u8 playerName.length, .raw playerName]
  | .joinLobby playerName lobbyId =>
      [.u8 playerName.length, .raw playerName, .u8 lobbyId.length, .raw lobbyId]
  | .sendMessage msg => [.u16 msg.length, .raw msg]

theorem encodeInto_eq (writer : BlobBuffer) (request : Request) :
    encodeInto writer request = writer.run request.calls := by
  cases request <;> simp [encodeInto, Request.calls, BlobBuffer.run, BlobCall.apply]

theorem writeFrame_eq (writer : BlobBuffer) (request : Request) :
    writeFrame writer request =
      (writer.run (.clear none :: .u8 request.msgType.val :: request.calls)).bind fun writer =>
        (writer.run [.clear none, .u32 writer.tostring.length, .raw writer.tostring]).bind
          fun writer => some (writer.tostring, writer) := by
  simp [writeFrame, encodeInto_eq, BlobBuffer.run, BlobCall.apply, Option.bind_assoc]

theorem encodeMessage_data (writer : BlobWriter) (request : Request) (tally : BlobTally)
    (h : tally.bytes = writer.data) :
    (request.calls.foldl (BlobTally.add .big) tally).bytes =
      (encodeMessage writer request).data := by
  cases request <;>
    simp [Request.calls, encodeMessage, BlobTally.add, BlobCall.spelling, ByteOrder.store,
      BlobWriter.u8, BlobWriter.u16, BlobWriter.raw, h]

/-- From one account to the other the string has only grown. -/
structure Grown (tally tally' : BlobTally) : Prop where
  asked : tally'.asked = tally.asked
  longest : tally'.longest ≤ max tally.longest tally'.bytes.length
  longer : tally.bytes.length ≤ tally'.bytes.length
  stored : tally'.stored + tally.bytes.length = tally.stored + tally'.bytes.length

theorem grown_foldl (order : ByteOrder) {calls : List BlobCall}
    (hcalls : ∀ size, .clear size ∉ calls) (tally : BlobTally) :
    Grown tally (calls.foldl (BlobTally.add order) tally) := by
  induction calls generalizing tally with
  | nil => exact ⟨rfl, le_max_left _ _, Nat.le_refl _, rfl⟩
  | cons call calls ih =>
      have hlater := ih (fun size hmem => hcalls size (List.mem_cons_of_mem _ hmem))
        (tally.add order call)
      have hfirst : Grown tally (tally.add order call) := by
        have hlength : (tally.bytes ++ call.spelling order).length =
            tally.bytes.length + (call.spelling order).length := List.length_append
        cases call with
        | clear size => exact absurd List.mem_cons_self (hcalls size)
        | u8 value | u16 value | u32 value | raw value =>
            exact ⟨rfl, Nat.le_refl _, by dsimp only [BlobTally.add]; omega,
              by dsimp only [BlobTally.add]; omega⟩
      have hlonger := hfirst.longer
      have hlonger' := hlater.longer
      have hlongest := hfirst.longest
      have hlongest' := hlater.longest
      have hstored := hfirst.stored
      have hstored' := hlater.stored
      exact ⟨hlater.asked.trans hfirst.asked, by rw [List.foldl_cons]; omega,
        by rw [List.foldl_cons]; omega, by rw [List.foldl_cons]; omega⟩

/-- After `clear`, the account is of what comes next. -/
theorem grown_cleared (order : ByteOrder) {calls : List BlobCall}
    (hcalls : ∀ size, .clear size ∉ calls) (tally : BlobTally) :
    let tally' := (BlobCall.clear none :: calls).foldl (BlobTally.add order) tally
    tally'.asked = tally.asked ∧ tally'.longest ≤ max tally.longest tally'.bytes.length ∧
      tally'.stored = tally.stored + tally'.bytes.length := by
  have hgrown := grown_foldl order hcalls (tally.add order (.clear none))
  refine ⟨hgrown.asked.trans (Nat.max_zero _), hgrown.longest, ?_⟩
  exact hgrown.stored

theorem exists_writeFrame {writer : BlobBuffer} {tally : BlobTally} (w : BlobWriter)
    (h : Tallied .big writer tally) (request : Request) :
    ∃ writer' tally', writeFrame writer request = some (encodeFrame w request, writer') ∧
      Tallied .big writer' tally' ∧ tally'.asked = tally.asked ∧
        tally'.longest ≤ max tally.longest (encodeFrame w request).length ∧
          tally'.stored ≤ tally.stored + 2 * (encodeFrame w request).length := by
  have hcalls : ∀ size, BlobCall.clear size ∉ .u8 request.msgType.val :: request.calls := by
    intro size
    cases request <;> simp [Request.calls]
  have hlater (data : Bytes) : ∀ size, BlobCall.clear size ∉ [.u32 data.length, .raw data] := by
    simp
  -- The message.
  obtain ⟨writer₁, hrun₁, h₁⟩ := h.run
    (.clear none :: .u8 request.msgType.val :: request.calls) fun size hmem => by
      rcases List.mem_cons.mp hmem with hclear | hmem
      · cases hclear
      · exact absurd hmem (hcalls (some size))
  obtain ⟨hasked₁, hlongest₁, hstored₁⟩ := grown_cleared .big hcalls tally
  have hdata : writer₁.tostring =
      (encodeMessage (w.clear.u8 request.msgType.val) request).data := by
    rw [h₁.tostring]
    exact encodeMessage_data _ request _ rfl
  -- The length in front of it.
  obtain ⟨writer₂, hrun₂, h₂⟩ := h₁.run
    [.clear none, .u32 writer₁.tostring.length, .raw writer₁.tostring] (by simp)
  obtain ⟨hasked₂, hlongest₂, hstored₂⟩ := grown_cleared .big (hlater writer₁.tostring)
    ((.clear none :: .u8 request.msgType.val :: request.calls).foldl (BlobTally.add .big) tally)
  have hframe : writer₂.tostring = encodeFrame w request := by
    rw [h₂.tostring, hdata]
    rfl
  rw [← h₁.tostring] at hlongest₁ hstored₁
  rw [← h₂.tostring] at hlongest₂ hstored₂
  have hlonger : writer₁.tostring.length ≤ writer₂.tostring.length := by
    have hlength : writer₂.tostring.length = 4 + writer₁.tostring.length := by
      rw [hframe, hdata, encodeFrame]
      simp [BlobWriter.clear, BlobWriter.u32, BlobWriter.raw, BlobWriter.tostring]
    omega
  refine ⟨writer₂, _, ?_, h₂, hasked₂.trans hasked₁, ?_, ?_⟩
  · rw [writeFrame_eq, hrun₁, Option.bind_some, hrun₂, Option.bind_some, hframe]
  · rw [← hframe]
    omega
  · rw [← hframe]
    omega

/-- How long the longest frame is. -/
def longestFrame (frames : List Bytes) : Nat := (frames.map List.length).foldr max 0

theorem writeFrames_eq {writer : BlobBuffer} {tally : BlobTally} (w : BlobWriter)
    (h : Tallied .big writer tally) (requests : List Request) :
    ∃ writer' tally', writeFrames writer requests = some (requests.map (encodeFrame w), writer') ∧
      Tallied .big writer' tally' ∧ tally'.asked = tally.asked ∧
        tally'.longest ≤ max tally.longest (longestFrame (requests.map (encodeFrame w))) ∧
          tally'.stored ≤ tally.stored + 2 * (requests.flatMap (encodeFrame w)).length := by
  induction requests generalizing writer tally with
  | nil => exact ⟨writer, tally, rfl, h, rfl, le_max_left _ _, Nat.le_add_right _ _⟩
  | cons request requests ih =>
      obtain ⟨writer₁, tally₁, hwrite, h₁, hasked₁, hlongest₁, hstored₁⟩ :=
        exists_writeFrame w h request
      obtain ⟨writer₂, tally₂, hwrites, h₂, hasked₂, hlongest₂, hstored₂⟩ := ih h₁
      refine ⟨writer₂, tally₂, ?_, h₂, hasked₂.trans hasked₁, ?_, ?_⟩
      · rw [writeFrames, hwrite, Option.bind_eq_bind, Option.bind_some]
        dsimp only
        rw [hwrites]
        rfl
      · change tally₂.longest ≤ max tally.longest
          (max (encodeFrame w request).length (longestFrame (requests.map (encodeFrame w))))
        omega
      · rw [List.flatMap_cons, List.length_append]
        omega

/-- **Frames.** The one writer that `sendMessage` uses again and again gives the frame of each
request. Its memory never gets larger than half as large again as the longest frame, and what is
copied to new memory is at most six times what is sent. -/
theorem writeFrames_encode (w : BlobWriter) (requests : List Request) :
    ∃ writer, (BlobBuffer.new .big 1024).bind (writeFrames · requests) =
        some (requests.map (encodeFrame w), writer) ∧
      writer.size ≤ max 1024 ((3 * longestFrame (requests.map (encodeFrame w)) + 6) / 2) ∧
        writer.copied ≤ 6 * (requests.flatMap (encodeFrame w)).length := by
  obtain ⟨writer, hnew, h⟩ := tallied_new .big (show 0 < 1024 by decide)
  obtain ⟨writer', tally, hwrites, h', hasked, hlongest, hstored⟩ := writeFrames_eq w h requests
  have hlongest' : tally.longest ≤ max 0 (longestFrame (requests.map (encodeFrame w))) := hlongest
  have hstored' : tally.stored ≤ 0 + 2 * (requests.flatMap (encodeFrame w)).length := hstored
  have hasked' : tally.asked = 1024 := hasked
  have hsize := h'.size_le
  have hcopied := h'.copied_le
  refine ⟨writer', ?_, by omega, by omega⟩
  rw [hnew, Option.bind_some, hwrites]

end Net

end ChatGames
