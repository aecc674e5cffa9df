import ChatGames.Room
import ChatGames.Util
import Mathlib.SetTheory.Cardinal.Finite

/-!
# Shuffled lists

The rounds of `shuffle` are the exchanges of a Fisher-Yates shuffle with positions that begin at 1.
So every order of a list without duplicates comes from exactly one sequence of random numbers.
-/

namespace ChatGames.Ulp

/-- What `love.math.random(i, n)` may give in the rounds of a shuffle of `n` elements. -/
structure Draws (n : Nat) where
  random : List Nat
  length_eq : random.length = n - 1
  bounds : ∀ k (hk : k < random.length), k + 1 ≤ random[k] ∧ random[k] ≤ n

variable {α : Type} {n : Nat}

theorem Draws.ext {draws draws' : Draws n} (h : draws.random = draws'.random) : draws = draws' := by
  cases draws
  cases draws'
  cases h
  rfl

/-! ### The loop -/

theorem foldl_swap {random : List Nat} (i : Nat) (list : List α) :
    ((List.range' (i + 1) random.length).zip random).foldl
        (fun list round => swap list round.1 round.2) list =
      FisherYates.shuffle i (random.map (· - 1)) list := by
  induction random generalizing i list with
  | nil => rfl
  | cons j random ih =>
      rw [List.length_cons, List.range'_succ, List.zip_cons_cons, List.foldl_cons, List.map_cons,
        FisherYates.shuffle]
      exact ih (i + 1) (swap list (i + 1) j)

theorem shuffle_eq (list : List α) {random : List Nat} (h : random.length = list.length - 1) :
    shuffle random list = FisherYates.shuffle 0 (random.map (· - 1)) list := by
  rw [shuffle, ← h]
  exact foldl_swap 0 list

theorem shuffle_perm (list : List α) (draws : Draws list.length) :
    (shuffle draws.random list).Perm list := by
  rw [shuffle_eq list draws.length_eq]
  exact FisherYates.shuffle_perm 0 _ list

theorem range_one (n : Nat) : range 1 n = List.range' 1 n := by
  rw [range, Nat.add_sub_cancel]

/-- What the lobby scene starts with. -/
def Draws.shuffledColors (draws : Draws (range 1 numPlayerColors).length) : ShuffledColors where
  indices := shuffle draws.random (range 1 numPlayerColors)
  perm := by
    rw [← range_one]
    exact shuffle_perm _ draws

/-! ### Random numbers and choices -/

theorem Draws.choices (draws : Draws n) :
    FisherYates.Choices n 0 (draws.random.map (· - 1)) := by
  refine FisherYates.choices_iff.mpr ⟨?_, fun k hk => ?_⟩
  · rw [List.length_map, draws.length_eq]
  rw [List.length_map] at hk
  obtain ⟨hlower, hupper⟩ := draws.bounds k hk
  rw [List.getElem_map]
  omega

theorem exists_draws {choices : List Nat} (h : FisherYates.Choices n 0 choices) :
    ∃ draws : Draws n, draws.random.map (· - 1) = choices := by
  obtain ⟨hlength, hbounds⟩ := FisherYates.choices_iff.mp h
  refine ⟨⟨choices.map (· + 1), ?_, fun k hk => ?_⟩, ?_⟩
  · rw [List.length_map, hlength]
  · rw [List.length_map] at hk
    obtain ⟨hlower, hupper⟩ := hbounds k hk
    rw [List.getElem_map]
    omega
  · rw [List.map_map]
    exact List.map_id _

theorem Draws.eq_of_map {draws draws' : Draws n}
    (h : draws.random.map (· - 1) = draws'.random.map (· - 1)) : draws = draws' := by
  apply Draws.ext
  apply List.ext_getElem (draws.length_eq.trans draws'.length_eq.symm)
  intro k hk hk'
  have hlower := (draws.bounds k hk).1
  have hlower' := (draws'.bounds k hk').1
  have hsame : draws.random[k] - 1 = draws'.random[k] - 1 := by
    have hmapped := congrArg (fun list : List Nat => list[k]?) h
    simpa [hk, hk'] using hmapped
  omega

theorem existsUnique_draws {list target : List α} (hnodup : list.Nodup)
    (htarget : target.Perm list) :
    ∃! draws : Draws list.length, shuffle draws.random list = target := by
  obtain ⟨choices, ⟨hchoices, hshuffle⟩, hunique⟩ := FisherYates.existsUnique_shuffle []
    (Nat.zero_add _).symm hnodup htarget
  obtain ⟨draws, rfl⟩ := exists_draws hchoices
  refine ⟨draws, ?_, ?_⟩
  · change shuffle draws.random list = target
    rw [shuffle_eq list draws.length_eq]
    exact hshuffle
  · intro draws' hdraws'
    rw [shuffle_eq list draws'.length_eq] at hdraws'
    exact Draws.eq_of_map (hunique _ ⟨draws'.choices, hdraws'⟩)

theorem card_perm {list : List α} (hnodup : list.Nodup) :
    Nat.card {shuffled : List α // shuffled.Perm list} = list.length.factorial := by
  classical
  have hmem (shuffled : List α) :
      shuffled ∈ list.permutations.toFinset ↔ shuffled.Perm list := by
    rw [List.mem_toFinset, List.mem_permutations]
  rw [Nat.subtype_card _ hmem, List.toFinset_card_of_nodup (List.nodup_permutations list hnodup),
    List.length_permutations]

/-- **Shuffling.** The random numbers and the orders of a list without duplicates, of which there
are `n!`, correspond one to one; and the indices of the colors come out shuffled, each once. -/
theorem shuffle_bijective (list : List α) (hnodup : list.Nodup) :
    (Function.Bijective fun draws : Draws list.length =>
      (⟨shuffle draws.random list, shuffle_perm list draws⟩ :
        {shuffled : List α // shuffled.Perm list})) ∧
    Nat.card {shuffled : List α // shuffled.Perm list} = list.length.factorial ∧
    ∀ (draws : Draws (range 1 numPlayerColors).length) (color : Nat),
      1 ≤ color ∧ color ≤ numPlayerColors →
        (shuffle draws.random (range 1 numPlayerColors)).count color = 1 := by
  refine ⟨?_, card_perm hnodup, ?_⟩
  · rw [Function.bijective_iff_existsUnique]
    rintro ⟨target, htarget⟩
    obtain ⟨draws, hdraws, hunique⟩ := existsUnique_draws hnodup htarget
    refine ⟨draws, Subtype.ext hdraws, fun draws' hdraws' => ?_⟩
    exact hunique draws' (congrArg Subtype.val hdraws')
  · intro draws color hcolor
    rw [(shuffle_perm _ draws).count_eq, range_one]
    apply List.count_eq_one_of_mem List.nodup_range'
    rw [List.mem_range'_1]
    omega

theorem shuffle_bijective_three : Function.Bijective fun draws : Draws [1, 2, 3].length =>
    (⟨shuffle draws.random [1, 2, 3], shuffle_perm _ draws⟩ :
      {shuffled : List Nat // shuffled.Perm [1, 2, 3]}) :=
  (shuffle_bijective [1, 2, 3] (by decide)).1

end ChatGames.Ulp
