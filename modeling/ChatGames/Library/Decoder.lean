import Mathlib.Algebra.Order.Ring.Nat
import Mathlib.Data.List.Basic

/-!
# Decoders

A decoder takes a value off the front of its input. It decides nothing on what stands behind the
value, and the error `short`, for an input that ends too early, is the only one that more input can
turn into something else. So no encoding is the beginning of another one.
-/

structure Decoder (β ε : Type) (short : ε) (α : Type) where
  run : List β → Except ε (α × List β)
  append : ∀ {input a rest}, run input = .ok (a, rest) → ∀ more,
    run (input ++ more) = .ok (a, rest ++ more)
  /-- The value is read from what was taken alone. -/
  taken : ∀ {input a rest}, run input = .ok (a, rest) → ∃ used, input = used ++ rest ∧
    run used = .ok (a, [])
  final : ∀ {input error}, run input = .error error → error ≠ short → ∀ more,
    run (input ++ more) = .error error

namespace Decoder

variable {β ε α γ : Type} {short : ε}

/-! ### Combinators -/

def pure (a : α) : Decoder β ε short α where
  run input := .ok (a, input)
  append h more := by
    cases h
    rfl
  taken h := by
    cases h
    exact ⟨[], rfl, rfl⟩
  final h := by cases h

def fail (error : ε) : Decoder β ε short α where
  run _ := .error error
  append h := by cases h
  taken h := by cases h
  final h _ more := by
    cases h
    rfl

def bind (d : Decoder β ε short α) (f : α → Decoder β ε short γ) : Decoder β ε short γ where
  run input :=
    match d.run input with
    | .ok (a, rest) => (f a).run rest
    | .error error => .error error
  append {input c rest} h more := by
    cases hd : d.run input with
    | error error =>
        rw [hd] at h
        cases h
    | ok read =>
        obtain ⟨a, between⟩ := read
        rw [hd] at h
        rw [d.append hd more]
        exact (f a).append h more
  taken {input c rest} h := by
    cases hd : d.run input with
    | error error =>
        rw [hd] at h
        cases h
    | ok read =>
        obtain ⟨a, between⟩ := read
        rw [hd] at h
        obtain ⟨used, rfl, hused⟩ := d.taken hd
        obtain ⟨used', rfl, hused'⟩ := (f a).taken h
        refine ⟨used ++ used', (List.append_assoc _ _ _).symm, ?_⟩
        have hboth := d.append hused used'
        rw [List.nil_append] at hboth
        rw [hboth]
        exact hused'
  final {input error} h hne more := by
    cases hd : d.run input with
    | error error' =>
        rw [hd] at h
        cases h
        rw [d.final hd hne more]
    | ok read =>
        obtain ⟨a, between⟩ := read
        rw [hd] at h
        rw [d.append hd more]
        exact (f a).final h hne more

instance : Monad (Decoder β ε short) where
  pure := Decoder.pure
  bind := Decoder.bind

/-- The next element. -/
def next : Decoder β ε short β where
  run
    | [] => .error short
    | b :: rest => .ok (b, rest)
  append {input b rest} h more := by
    cases input with
    | nil => cases h
    | cons => cases h; rfl
  taken {input b rest} h := by
    cases input with
    | nil => cases h
    | cons => cases h; exact ⟨[b], rfl, rfl⟩
  final {input error} h hne := by
    cases input with
    | nil => cases h; exact absurd rfl hne
    | cons => cases h

/-- The next `n` elements. -/
def take (n : Nat) : Decoder β ε short (List β) where
  run input := if n ≤ input.length then .ok (input.take n, input.drop n) else .error short
  append {input a rest} h more := by
    split at h
    · rename_i hn
      cases h
      have hmore : n ≤ (input ++ more).length := by
        rw [List.length_append]
        exact Nat.le_add_right_of_le hn
      rw [if_pos hmore, List.take_append_of_le_length hn, List.drop_append_of_le_length hn]
    · cases h
  taken {input a rest} h := by
    split at h
    · rename_i hn
      cases h
      have hlength : (input.take n).length = n := List.length_take_of_le hn
      refine ⟨input.take n, (List.take_append_drop n input).symm, ?_⟩
      rw [if_pos (Nat.le_of_eq hlength.symm), List.take_of_length_le (Nat.le_of_eq hlength),
        List.drop_of_length_le (Nat.le_of_eq hlength)]
    · cases h
  final {input error} h hne := by
    split at h
    · cases h
    · cases h
      exact absurd rfl hne

/-- The same thing `n` times. -/
def many (d : Decoder β ε short α) : Nat → Decoder β ε short (List α)
  | 0 => .pure []
  | n + 1 => d.bind fun a => (d.many n).bind fun as => .pure (a :: as)

/-! ### Running them -/

variable (d : Decoder β ε short α) (f : α → Decoder β ε short γ) {input rest more : List β}

@[simp]
theorem run_pure (a : α) (input : List β) :
    (Pure.pure a : Decoder β ε short α).run input = .ok (a, input) := rfl

@[simp]
theorem run_fail (error : ε) (input : List β) :
    (fail error : Decoder β ε short α).run input = .error error := rfl

@[simp]
theorem run_next_nil : (next : Decoder β ε short β).run [] = .error short := rfl

@[simp]
theorem run_next_cons (b : β) (rest : List β) :
    (next : Decoder β ε short β).run (b :: rest) = .ok (b, rest) := rfl

theorem run_bind (input : List β) : (d >>= f).run input = match d.run input with
    | .ok (a, rest) => (f a).run rest
    | .error error => .error error := rfl

theorem run_bind_of_ok {a : α} (h : d.run input = .ok (a, rest)) :
    (d >>= f).run input = (f a).run rest := by
  rw [run_bind, h]

theorem run_bind_eq_ok {c : γ} : (d >>= f).run input = .ok (c, rest) ↔
    ∃ a between, d.run input = .ok (a, between) ∧ (f a).run between = .ok (c, rest) := by
  rw [run_bind]
  cases hd : d.run input with
  | error error =>
      constructor
      · intro h
        cases h
      · rintro ⟨a, between, h, -⟩
        cases h
  | ok read =>
      constructor
      · exact fun h => ⟨read.1, read.2, rfl, h⟩
      · rintro ⟨a, between, h, hf⟩
        cases h
        exact hf

theorem run_take_append (front rest : List β) :
    (take front.length : Decoder β ε short (List β)).run (front ++ rest) = .ok (front, rest) := by
  change (if front.length ≤ (front ++ rest).length then _ else _) = _
  rw [if_pos (List.length_append ▸ Nat.le_add_right _ _), List.take_left, List.drop_left]

theorem run_take_eq_ok {n : Nat} {front : List β} :
    (take n : Decoder β ε short (List β)).run input = .ok (front, rest) ↔
      input = front ++ rest ∧ front.length = n := by
  constructor
  · intro h
    change (if n ≤ input.length then _ else _) = _ at h
    split at h
    · rename_i hn
      cases h
      exact ⟨(List.take_append_drop n input).symm, List.length_take_of_le hn⟩
    · cases h
  · rintro ⟨rfl, rfl⟩
    exact run_take_append front rest

theorem many_succ (n : Nat) :
    d.many (n + 1) = d >>= fun a => d.many n >>= fun as => Pure.pure (a :: as) := rfl

/-! ### Encodings -/

/-- The decoder reads `a` off `code`, whatever stands behind it. -/
def Reads (code : List β) (a : α) : Prop := ∀ rest, d.run (code ++ rest) = .ok (a, rest)

variable {d f} {code code' : List β} {a : α}

theorem reads_iff : d.Reads code a ↔ d.run code = .ok (a, []) := by
  constructor
  · intro h
    have hnil := h []
    rwa [List.append_nil] at hnil
  · intro h rest
    exact d.append h rest

theorem Reads.bind {c : γ} (h : d.Reads code a) (hf : (f a).Reads code' c) :
    (d >>= f).Reads (code ++ code') c := by
  intro rest
  rw [List.append_assoc, run_bind_of_ok d f (h (code' ++ rest))]
  exact hf rest

theorem Reads.map {c : γ} {g : α → γ} (h : d.Reads code a) (hg : g a = c) :
    (d >>= fun a => Pure.pure (g a)).Reads code c := by
  intro rest
  rw [run_bind_of_ok d _ (h rest), hg]
  rfl

theorem reads_next (b : β) : (next : Decoder β ε short β).Reads [b] b := fun _ => rfl

theorem reads_take (front : List β) :
    (take front.length : Decoder β ε short (List β)).Reads front front := run_take_append front

/-- A sequence is read from the encodings of its elements. -/
theorem reads_many {codes : List (List β)} {as : List α} (h : List.Forall₂ d.Reads codes as) :
    (d.many as.length).Reads codes.flatten as := by
  induction h with
  | nil => exact fun rest => rfl
  | cons hfirst _ ih =>
      rw [List.flatten_cons, List.length_cons, many_succ]
      exact hfirst.bind (ih.map rfl)

/-- What begins an encoding and is not all of it is too short. -/
theorem Reads.run_of_front (h : d.Reads code a) {front : List β} (hbegins : front <+: code)
    (hne : front ≠ code) : d.run front = .error short := by
  obtain ⟨more, rfl⟩ := hbegins
  have hcode := reads_iff.mp h
  cases hfront : d.run front with
  | ok read =>
      have hlonger := d.append hfront more
      rw [hcode, Except.ok.injEq, Prod.mk.injEq] at hlonger
      obtain ⟨-, rfl⟩ := List.append_eq_nil_iff.mp hlonger.2.symm
      exact absurd (List.append_nil front).symm hne
  | error error =>
      by_contra hother
      have hlonger := d.final hfront (fun heq => hother (heq ▸ rfl)) more
      rw [hcode] at hlonger
      cases hlonger

/-! ### Short inputs -/

theorem length_le (h : d.run input = .ok (a, rest)) : rest.length ≤ input.length := by
  obtain ⟨used, rfl, -⟩ := d.taken h
  rw [List.length_append]
  exact Nat.le_add_left _ _

/-- The decoders do the same with every input of at most `n` elements. -/
def AgreeTo (n : Nat) (d d' : Decoder β ε short α) : Prop :=
  ∀ input, input.length ≤ n → d.run input = d'.run input

variable {d' : Decoder β ε short α} {f' : α → Decoder β ε short γ} {n : Nat}

theorem AgreeTo.refl (d : Decoder β ε short α) : AgreeTo n d d := fun _ _ => rfl

theorem AgreeTo.bind (h : AgreeTo n d d') (hf : ∀ a, AgreeTo n (f a) (f' a)) :
    AgreeTo n (d >>= f) (d' >>= f') := by
  intro input hinput
  rw [run_bind, run_bind, ← h input hinput]
  cases hread : d.run input with
  | error => rfl
  | ok read => exact hf read.1 read.2 (Nat.le_trans (length_le hread) hinput)

theorem AgreeTo.many (h : AgreeTo n d d') (count : Nat) :
    AgreeTo n (d.many count) (d'.many count) := by
  induction count with
  | zero => exact .refl _
  | succ count ih => exact h.bind fun a => ih.bind fun as => .refl _

/-- What follows on one element sees one element less. -/
theorem AgreeTo.next_bind {f f' : β → Decoder β ε short α} (hf : ∀ b, AgreeTo n (f b) (f' b)) :
    AgreeTo (n + 1) (next >>= f) (next >>= f') := by
  intro input hinput
  cases input with
  | nil => rfl
  | cons b rest => exact hf b rest (Nat.le_of_succ_le_succ hinput)

/-! ### Sizes -/

/-- What is read is no larger than what was taken for it. -/
def Covers (d : Decoder β ε short α) (size : α → Nat) : Prop :=
  ∀ input a rest, d.run input = .ok (a, rest) → size a + rest.length ≤ input.length

theorem covers_pure {size : α → Nat} (h : size a = 0) :
    (Pure.pure a : Decoder β ε short α).Covers size := by
  intro input b rest hread
  rw [run_pure, Except.ok.injEq, Prod.mk.injEq] at hread
  obtain ⟨rfl, rfl⟩ := hread
  have hsize : size a + input.length = input.length := by rw [h, Nat.zero_add]
  exact Nat.le_of_eq hsize

theorem covers_zero (d : Decoder β ε short α) : d.Covers fun _ => 0 := by
  intro input a rest hread
  rw [Nat.zero_add]
  exact length_le hread

theorem covers_fail {error : ε} {size : α → Nat} :
    (fail error : Decoder β ε short α).Covers size := by
  intro input b rest hread
  cases hread

theorem covers_next : (next : Decoder β ε short β).Covers fun _ => 1 := by
  intro input b rest hread
  cases input with
  | nil => cases hread
  | cons =>
      cases hread
      exact Nat.le_of_eq (Nat.add_comm _ _)

theorem covers_take : (take n : Decoder β ε short (List β)).Covers List.length := by
  intro input front rest hread
  obtain ⟨rfl, -⟩ := run_take_eq_ok.mp hread
  exact Nat.le_of_eq List.length_append.symm

/-- What was taken for the first part pays for part of the whole. -/
theorem Covers.bind {size : α → Nat} {size' : γ → Nat} (h : d.Covers size)
    (hf : ∀ a, (f a).Covers fun c => size' c - size a) : (d >>= f).Covers size' := by
  intro input c rest hread
  obtain ⟨a, between, hfirst, hsecond⟩ := (run_bind_eq_ok d f).mp hread
  have hle := h _ _ _ hfirst
  have hle' : size' c - size a + rest.length ≤ between.length := hf a _ _ _ hsecond
  omega

theorem Covers.many {size : α → Nat} (h : d.Covers size) (count : Nat) :
    (d.many count).Covers fun as => (as.map size).sum := by
  induction count with
  | zero => exact covers_pure rfl
  | succ count ih =>
      refine h.bind fun a => ih.bind fun as => covers_pure ?_
      rw [List.map_cons, List.sum_cons]
      omega

/-! ### Results -/

/-- Whatever is read has the property. -/
def Yields (d : Decoder β ε short α) (P : α → Prop) : Prop :=
  ∀ input a rest, d.run input = .ok (a, rest) → P a

theorem yields_pure {P : α → Prop} (h : P a) : (Pure.pure a : Decoder β ε short α).Yields P := by
  intro input b rest hread
  rw [run_pure, Except.ok.injEq, Prod.mk.injEq] at hread
  exact hread.1 ▸ h

theorem yields_fail {error : ε} {P : α → Prop} :
    (fail error : Decoder β ε short α).Yields P := by
  intro input b rest hread
  cases hread

theorem Yields.bind {P : α → Prop} {Q : γ → Prop} (h : d.Yields P)
    (hf : ∀ a, P a → (f a).Yields Q) : (d >>= f).Yields Q := by
  intro input c rest hread
  obtain ⟨a, between, hfirst, hsecond⟩ := (run_bind_eq_ok d f).mp hread
  exact hf a (h _ _ _ hfirst) _ _ _ hsecond

theorem yields_bind {Q : γ → Prop} (hf : ∀ a, (f a).Yields Q) : (d >>= f).Yields Q :=
  Yields.bind (P := fun _ => True) (fun _ _ _ _ => trivial) fun a _ => hf a

theorem Yields.many {P : α → Prop} (h : d.Yields P) (count : Nat) :
    (d.many count).Yields fun as => ∀ a ∈ as, P a := by
  induction count with
  | zero => exact yields_pure fun a ha => nomatch ha
  | succ count ih =>
      refine h.bind fun a ha => ih.bind fun as has => yields_pure ?_
      rw [List.forall_mem_cons]
      exact ⟨ha, has⟩

/-! ### All of the input -/

/-- The value that all of the input encodes. -/
def runAll (d : Decoder β ε short α) (extra : ε) (input : List β) : Except ε α :=
  match d.run input with
  | .ok (a, []) => .ok a
  | .ok (_, _ :: _) => .error extra
  | .error error => .error error

variable {extra : ε}

theorem runAll_eq_ok (hinput : d.runAll extra input = .ok a) : d.Reads input a := by
  rw [runAll] at hinput
  rw [reads_iff]
  split at hinput
  · rename_i h
    cases hinput
    exact h
  · cases hinput
  · cases hinput

theorem Reads.runAll (h : d.Reads code a) : d.runAll extra code = .ok a := by
  rw [Decoder.runAll, reads_iff.mp h]

theorem Reads.runAll_of_front (h : d.Reads code a) {front : List β} (hbegins : front <+: code)
    (hne : front ≠ code) : d.runAll extra front = .error short := by
  rw [Decoder.runAll, h.run_of_front hbegins hne]

theorem Reads.runAll_append (h : d.Reads code a) (hmore : more ≠ []) :
    d.runAll extra (code ++ more) = .error extra := by
  rw [Decoder.runAll, h more]
  cases more with
  | nil => exact absurd rfl hmore
  | cons => rfl

end Decoder
