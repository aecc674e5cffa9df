import ChatGames.Library.Splitter
import Mathlib.Algebra.Order.Ring.Nat
import Mathlib.Tactic.Ring

/-!
# Big-endian numbers and length-prefixed frames

A frame is the big-endian length of its body in a fixed number of bytes, followed by the body.
Lengths from `bound` on are not frames: a stream that comes to such a length has no further item.
-/

/-- The number a byte string spells, most significant byte first. -/
def ofBigEndian (bytes : List UInt8) : Nat := bytes.foldl (fun n byte => n * 256 + byte.toNat) 0

/-- The last `width` bytes of the big-endian spelling of `n`. -/
def toBigEndian : Nat → Nat → List UInt8
  | 0, _ => []
  | width + 1, n => toBigEndian width (n / 256) ++ [UInt8.ofNat n]

@[simp]
theorem ofBigEndian_nil : ofBigEndian [] = 0 := rfl

theorem ofBigEndian_concat (bytes : List UInt8) (byte : UInt8) :
    ofBigEndian (bytes ++ [byte]) = ofBigEndian bytes * 256 + byte.toNat := by
  rw [ofBigEndian, List.foldl_append]
  rfl

@[simp]
theorem toBigEndian_length (width n : Nat) : (toBigEndian width n).length = width := by
  induction width generalizing n with
  | zero => rfl
  | succ width ih => rw [toBigEndian, List.length_append, ih, List.length_singleton]

theorem ofBigEndian_lt (bytes : List UInt8) : ofBigEndian bytes < 256 ^ bytes.length := by
  induction bytes using List.reverseRecOn with
  | nil => simp
  | append_singleton bytes byte ih =>
      have hbyte := byte.toNat_lt
      rw [ofBigEndian_concat, List.length_append, List.length_singleton, pow_succ]
      omega

theorem ofBigEndian_toBigEndian (width n : Nat) :
    ofBigEndian (toBigEndian width n) = n % 256 ^ width := by
  induction width generalizing n with
  | zero => simp [toBigEndian, Nat.mod_one]
  | succ width ih =>
      rw [toBigEndian, ofBigEndian_concat, ih, pow_succ, Nat.mul_comm (256 ^ width), Nat.mod_mul]
      simp only [UInt8.toNat_ofNat']
      omega

theorem ofBigEndian_toBigEndian_of_lt {width n : Nat} (h : n < 256 ^ width) :
    ofBigEndian (toBigEndian width n) = n := by
  rw [ofBigEndian_toBigEndian, Nat.mod_eq_of_lt h]

theorem toBigEndian_ofBigEndian (bytes : List UInt8) :
    toBigEndian bytes.length (ofBigEndian bytes) = bytes := by
  induction bytes using List.reverseRecOn with
  | nil => rfl
  | append_singleton bytes byte ih =>
      have hbyte := byte.toNat_lt
      rw [List.length_append, List.length_singleton, toBigEndian, ofBigEndian_concat]
      have hdiv : (ofBigEndian bytes * 256 + byte.toNat) / 256 = ofBigEndian bytes := by omega
      have hlast : UInt8.ofNat (ofBigEndian bytes * 256 + byte.toNat) = byte := by
        apply UInt8.toNat_inj.mp
        rw [UInt8.toNat_ofNat']
        omega
      rw [hdiv, ih, hlast]

/-! ### Frames -/

namespace LengthPrefix

def frame (width : Nat) (body : List UInt8) : List UInt8 := toBigEndian width body.length ++ body

def announced (width : Nat) (stream : List UInt8) : Nat := ofBigEndian (stream.take width)

/-- The first frame of a stream, if its length is below `bound` and all of it has arrived. -/
def next (width bound : Nat) (stream : List UInt8) : Option (List UInt8 × List UInt8) :=
  if width ≤ stream.length ∧ announced width stream < bound ∧
      width + announced width stream ≤ stream.length then
    some ((stream.drop width).take (announced width stream),
      stream.drop (width + announced width stream))
  else
    none

variable {width bound : Nat} {stream : List UInt8}

theorem announced_append (h : width ≤ stream.length) (more : List UInt8) :
    announced width (stream ++ more) = announced width stream := by
  rw [announced, announced, List.take_append_of_le_length h]

theorem next_append {body rest : List UInt8} (more : List UInt8)
    (h : next width bound stream = some (body, rest)) :
    next width bound (stream ++ more) = some (body, rest ++ more) := by
  unfold next at h
  split at h
  · rename_i hcond
    obtain ⟨hheader, hbound, hbody⟩ := hcond
    simp only [Option.some.injEq, Prod.mk.injEq] at h
    obtain ⟨rfl, rfl⟩ := h
    have hlen : (stream ++ more).length = stream.length + more.length := List.length_append
    rw [next, announced_append hheader, if_pos ⟨by omega, hbound, by omega⟩,
      List.drop_append_of_le_length hheader, List.drop_append_of_le_length hbody,
      List.take_append_of_le_length (by rw [List.length_drop]; omega)]
  · simp at h

theorem length_lt_of_next (hwidth : 0 < width) {body rest : List UInt8}
    (h : next width bound stream = some (body, rest)) : rest.length < stream.length := by
  unfold next at h
  split at h
  · rename_i hcond
    simp only [Option.some.injEq, Prod.mk.injEq] at h
    rw [← h.2, List.length_drop]
    omega
  · simp at h

def frames (width bound : Nat) (hwidth : 0 < width) : Splitter UInt8 where
  next := next width bound
  next_append := next_append
  length_lt := length_lt_of_next hwidth

theorem fourByteHeader_pos : 0 < 4 := by decide

theorem next_frame {body : List UInt8} (hbound : body.length < bound)
    (hwidth : body.length < 256 ^ width) (rest : List UInt8) :
    next width bound (frame width body ++ rest) = some (body, rest) := by
  have hhead : (frame width body ++ rest).take width = toBigEndian width body.length := by
    rw [frame, List.append_assoc, List.take_append_of_le_length (by simp),
      List.take_of_length_le (by simp)]
  have hannounced : announced width (frame width body ++ rest) = body.length := by
    rw [announced, hhead, ofBigEndian_toBigEndian_of_lt hwidth]
  have hlen : (frame width body ++ rest).length = width + body.length + rest.length := by
    simp [frame, Nat.add_assoc]
  have hbody : (frame width body ++ rest).drop width = body ++ rest := by
    rw [frame, List.append_assoc]
    exact List.drop_left' (toBigEndian_length _ _)
  have hrest : (frame width body ++ rest).drop (width + body.length) = rest := by
    rw [← List.drop_drop, hbody, List.drop_left]
  rw [next, hannounced, if_pos ⟨by omega, hbound, by omega⟩, hbody, hrest, List.take_left]

theorem next_eq_some_iff {body rest : List UInt8} :
    next width bound stream = some (body, rest) ↔
      stream = frame width body ++ rest ∧ body.length < bound ∧ body.length < 256 ^ width := by
  constructor
  · intro h
    unfold next at h
    split at h
    · rename_i hcond
      obtain ⟨hheader, hbound, hbody⟩ := hcond
      simp only [Option.some.injEq, Prod.mk.injEq] at h
      obtain ⟨hcut, hrest⟩ := h
      have hheaderLength : (stream.take width).length = width := by
        rw [List.length_take, min_eq_left hheader]
      have hlength : body.length = announced width stream := by
        rw [← hcut, List.length_take, List.length_drop]
        omega
      have hlt := ofBigEndian_lt (stream.take width)
      rw [hheaderLength] at hlt
      have hbegins : toBigEndian width body.length = stream.take width := by
        have hspelled := toBigEndian_ofBigEndian (stream.take width)
        rwa [hheaderLength, ← announced, ← hlength] at hspelled
      refine ⟨?_, by rwa [hlength], by rwa [hlength]⟩
      calc stream = stream.take width ++ stream.drop width := (List.take_append_drop _ _).symm
        _ = stream.take width ++ (body ++ rest) := by
            rw [← hcut, ← hrest, ← List.drop_drop,
              List.take_append_drop (announced width stream)]
        _ = frame width body ++ rest := by rw [frame, hbegins, List.append_assoc]
    · cases h
  · rintro ⟨rfl, hbound, hwidth⟩
    exact next_frame hbound hwidth rest

/-- **Frames round trip.** The items of a stream of frames are the bodies, and what follows the last
frame is treated as if it stood alone. -/
theorem items_flatMap_frame (hwidth : 0 < width) {bodies : List (List UInt8)}
    (hbodies : ∀ body ∈ bodies, body.length < bound ∧ body.length < 256 ^ width)
    (rest : List UInt8) :
    (frames width bound hwidth).items (bodies.flatMap (frame width) ++ rest) =
        bodies ++ (frames width bound hwidth).items rest ∧
      (frames width bound hwidth).tail (bodies.flatMap (frame width) ++ rest) =
        (frames width bound hwidth).tail rest := by
  induction bodies with
  | nil => exact ⟨rfl, rfl⟩
  | cons body bodies ih =>
      obtain ⟨hbody, hrest⟩ := List.forall_mem_cons.mp hbodies
      obtain ⟨hitems, htail⟩ := ih hrest
      have hnext : (frames width bound hwidth).next
          (frame width body ++ (bodies.flatMap (frame width) ++ rest)) =
            some (body, bodies.flatMap (frame width) ++ rest) :=
        next_frame hbody.1 hbody.2 _
      rw [List.flatMap_cons, List.append_assoc, Splitter.items_of_next_some hnext,
        Splitter.tail_of_next_some hnext, hitems, htail, List.cons_append]
      exact ⟨rfl, rfl⟩

/-- A stream is the frames of its items and what they leave over. -/
theorem flatMap_frame_items (hwidth : 0 < width) (stream : List UInt8) :
    ((frames width bound hwidth).items stream).flatMap (frame width) ++
      (frames width bound hwidth).tail stream = stream := by
  induction stream using (frames width bound hwidth).induction with
  | hnone stream hnext =>
      rw [Splitter.items_of_next_none hnext, Splitter.tail_of_next_none hnext, List.flatMap_nil,
        List.nil_append]
  | hsome stream body rest hnext ih =>
      rw [Splitter.items_of_next_some hnext, Splitter.tail_of_next_some hnext, List.flatMap_cons,
        List.append_assoc, ih]
      exact (next_eq_some_iff.mp hnext).1.symm

/-- Two streams of frames that agree are of the same bodies, as far as the first one goes. -/
theorem prefix_of_flatMap_frame (hwidth : 0 < width) {bodies more : List (List UInt8)}
    (hbodies : ∀ body ∈ bodies, body.length < bound ∧ body.length < 256 ^ width)
    (hmore : ∀ body ∈ more, body.length < bound ∧ body.length < 256 ^ width) {rest : List UInt8}
    (h : bodies.flatMap (frame width) ++ rest = more.flatMap (frame width)) :
    more = bodies ++ (frames width bound hwidth).items rest ∧
      (frames width bound hwidth).tail rest = [] := by
  obtain ⟨hitems, htail⟩ := items_flatMap_frame hwidth hbodies rest
  obtain ⟨hitems', htail'⟩ := items_flatMap_frame hwidth hmore []
  rw [List.append_nil, ← h, hitems, Splitter.items_nil, List.append_nil] at hitems'
  rw [List.append_nil, ← h, htail, Splitter.tail_nil] at htail'
  exact ⟨hitems'.symm, htail'⟩

end LengthPrefix
