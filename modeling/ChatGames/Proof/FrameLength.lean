import ChatGames.Connection

/-!
# The length of a frame

`readMessage` adds 4 to a `uint32_t` and compares the sum with the size of the buffer. The sum wraps
on the four greatest lengths, and what is left of it is never more than the four bytes that have
been checked for already. Such a length is right only by accident, when all of its body has arrived.
-/

namespace ChatGames.Connection

/-- The big-endian value of the first four bytes. -/
def frameLength (buf : Bytes) : Nat := LengthPrefix.announced 4 buf

/-- What the comparison in `readMessage` says. -/
def Guard (buf : Bytes) : Prop := (frameLength buf + 4) % 2 ^ 32 ≤ buf.length

/-- The frame is there, in unbounded integers. -/
def HoldsFrame (buf : Bytes) : Prop := 4 + frameLength buf ≤ buf.length

instance (buf : Bytes) : Decidable (Guard buf) := inferInstanceAs (Decidable (_ ≤ _))

instance (buf : Bytes) : Decidable (HoldsFrame buf) := inferInstanceAs (Decidable (_ ≤ _))

/-- The call of `readMessage` goes by the length that the buffer announces. -/
structure LengthExact (buf : Bytes) : Prop where
  result : readMessage buf =
    if 4 ≤ buf.length ∧ HoldsFrame buf then
      .ok (some ((buf.drop 4).take (frameLength buf)), buf.drop (4 + frameLength buf))
    else
      .ok (none, buf)
  guard : 4 ≤ buf.length → (Guard buf ↔ HoldsFrame buf)
  assertion : 4 ≤ buf.length → Guard buf →
    readString (buf.drop 4) (frameLength buf) = .ok ((buf.drop 4).take (frameLength buf))

variable {buf : Bytes}

theorem frameLength_lt (h : 4 ≤ buf.length) : frameLength buf < 2 ^ 32 := by
  have hlt := ofBigEndian_lt (buf.take 4)
  rwa [List.length_take, min_eq_left h] at hlt

theorem readMessage_of_length_lt (h : ¬4 ≤ buf.length) : readMessage buf = .ok (none, buf) :=
  if_neg h

theorem readMessage_of_guard (h : 4 ≤ buf.length) (hguard : Guard buf) :
    readMessage buf = (readString (buf.drop 4) (frameLength buf)).bind fun msg =>
      .ok (some msg, buf.drop (4 + frameLength buf)) := by
  rw [readMessage, if_pos h, peekInteger, if_pos h, ← List.drop_drop]
  exact if_pos hguard

theorem readMessage_of_not_guard (h : 4 ≤ buf.length) (hguard : ¬Guard buf) :
    readMessage buf = .ok (none, buf) := by
  rw [readMessage, if_pos h, peekInteger, if_pos h]
  exact if_neg hguard

theorem readString_of_holdsFrame (hframe : HoldsFrame buf) :
    readString (buf.drop 4) (frameLength buf) = .ok ((buf.drop 4).take (frameLength buf)) := by
  unfold HoldsFrame at hframe
  apply if_pos
  rw [List.length_drop]
  omega

theorem readString_of_not_holdsFrame (h : 4 ≤ buf.length) (hframe : ¬HoldsFrame buf) :
    readString (buf.drop 4) (frameLength buf) = .error .assertReadString := by
  unfold HoldsFrame at hframe
  apply if_neg
  rw [List.length_drop]
  omega

/-- The sum is below 4 when it wraps, and is what it should be when it does not. -/
theorem guard_iff (h : 4 ≤ buf.length) : Guard buf ↔ Oversize buf ∨ HoldsFrame buf := by
  have hlt := frameLength_lt h
  have hoversize : Oversize buf ↔ 2 ^ 32 - 4 ≤ frameLength buf := and_iff_right h
  rw [hoversize, Guard, HoldsFrame]
  omega

/-- **Frame lengths.** A call reads the frame its buffer announces, and asserts nothing wrong,
exactly when the length is none the sum wraps on or all of the frame has arrived. -/
theorem lengthExact_iff (buf : Bytes) :
    (LengthExact buf ↔ (Oversize buf → HoldsFrame buf)) ∧
      (4 ≤ buf.length →
        ((frameLength buf + 4) % 2 ^ 32 = frameLength buf + 4 ↔ ¬Oversize buf)) := by
  constructor
  · constructor
    · intro hexact hoversize
      exact (hexact.guard hoversize.1).mp ((guard_iff hoversize.1).mpr (Or.inl hoversize))
    · intro hcond
      have hguard (h : 4 ≤ buf.length) : Guard buf ↔ HoldsFrame buf := by
        rw [guard_iff h]
        exact or_iff_right_of_imp hcond
      refine ⟨?_, hguard, fun h hheld => readString_of_holdsFrame ((hguard h).mp hheld)⟩
      by_cases h : 4 ≤ buf.length
      · by_cases hframe : HoldsFrame buf
        · rw [if_pos ⟨h, hframe⟩, readMessage_of_guard h ((hguard h).mpr hframe),
            readString_of_holdsFrame hframe]
          rfl
        · rw [if_neg fun hcond => hframe hcond.2,
            readMessage_of_not_guard h fun hheld => hframe ((hguard h).mp hheld)]
      · rw [if_neg fun hcond => h hcond.1, readMessage_of_length_lt h]
  · intro h
    have hlt := frameLength_lt h
    have hoversize : Oversize buf ↔ 2 ^ 32 - 4 ≤ frameLength buf := and_iff_right h
    rw [hoversize]
    omega

/-- What the other lengths come to: the assertion in `readString` fails. -/
theorem readMessage_of_cut (hoversize : Oversize buf) (hframe : ¬HoldsFrame buf) :
    readMessage buf = .error .assertReadString := by
  rw [readMessage_of_guard hoversize.1 ((guard_iff hoversize.1).mpr (Or.inl hoversize)),
    readString_of_not_holdsFrame hoversize.1 hframe]
  rfl

/-- Four bytes are enough. -/
theorem not_lengthExact : ¬∀ buf : Bytes, LengthExact buf := by
  intro h
  have hguard := (h [255, 255, 255, 255]).guard (by decide)
  revert hguard
  decide

end ChatGames.Connection
