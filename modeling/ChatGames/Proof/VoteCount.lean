import ChatGames.LobbyScene
import Mathlib.Data.List.Count

/-!
# Counting the votes

`voteFinished` adds up the votes for games with a `reduce` whose function takes the length of its
accumulator: the sum of one list is the list itself, that of two lists the length of the first, and
that of three an error. So the count is right for two games at most, as long as nobody relies on the
votes for the second.
-/

namespace ChatGames.Client

/-- Every listed player has one entry, and a vote that is `nil`, 0 or the index of a game. -/
structure OneEntryEach (client : Client) (games : List Game) : Prop where
  keys : client.playerData.keys.Perm (client.net.players.map Net.NetPlayer.id)
  vote_le : ∀ id entry, client.playerData.lookup id = some entry → ∀ vote,
    entry.vote = some vote → vote ≤ games.length

def EveryoneVoted (client : Client) : Prop :=
  ∀ player ∈ client.net.players, (client.playerData.entry player.id).vote ≠ none

/-- The number of votes is one the game can be played with. -/
def Playable (client : Client) (gameIndex : Nat) (game : Game) : Prop :=
  game.minPlayers ≤ (client.getPlayersByVote gameIndex).length ∧
    (client.getPlayersByVote gameIndex).length ≤ game.maxPlayers

instance (client : Client) (gameIndex : Nat) (game : Game) :
    Decidable (client.Playable gameIndex game) := inferInstanceAs (Decidable (_ ∧ _))

/-- What `voteFinished` is there to find out. -/
def VoteDecided (games : List Game) (client : Client) : Prop :=
  client.EveryoneVoted ∧ ∃ gameIndex game, 1 ≤ gameIndex ∧ games[gameIndex - 1]? = some game ∧
    (∀ i ∈ List.range' 1 games.length, client.getPlayersByVote i ≠ [] ↔ i = gameIndex) ∧
    client.Playable gameIndex game

def DecidesVote (games : List Game) (client : Client) : Prop :=
  ∃ finished, client.voteFinished games = .ok finished ∧
    (finished = true ↔ client.VoteDecided games)

/-- There are two games, not everybody watches, and it is not the second game that is decided on. -/
structure Countable (games : List Game) (client : Client) : Prop where
  two : games.length = 2
  someone : ∃ player ∈ client.net.players, (client.playerData.entry player.id).vote ≠ some 0
  first : ∀ game, games[1]? = some game → client.EveryoneVoted → client.getPlayersByVote 1 = [] →
    ¬client.Playable 2 game

variable {client : Client} {games : List Game}

/-! ### The sum -/

theorem totalVotes_two (first second : List Nat) : totalVotes [first, second] = .ok first.length :=
  rfl

theorem totalVotes_of_ne_two {votes : List (List Nat)} (h : votes.length ≠ 2) :
    ∃ text, totalVotes votes = .error (.voteFinished text) := by
  match votes, h with
  | [], _ => exact ⟨_, rfl⟩
  | [_], _ => exact ⟨_, rfl⟩
  | _ :: _ :: _ :: _, _ => exact ⟨_, rfl⟩

theorem voteFinished_of_ne_two (client : Client) (h : games.length ≠ 2) :
    ∃ text, client.voteFinished games = .error (.voteFinished text) := by
  have hlength : ((List.range' 1 games.length).map client.getPlayersByVote).length ≠ 2 := by
    rwa [List.length_map, List.length_range']
  obtain ⟨text, herror⟩ := totalVotes_of_ne_two hlength
  refine ⟨text, ?_⟩
  rw [voteFinished]
  change (totalVotes ((List.range' 1 games.length).map client.getPlayersByVote)).bind _ = _
  rw [herror]
  rfl

/-! ### Votes as numbers -/

def votes (client : Client) : List (Option Nat) :=
  client.playerData.entries.map fun entry => entry.2.vote

theorem length_getPlayersByVote (client : Client) (gameIndex : Nat) :
    (client.getPlayersByVote gameIndex).length = client.votes.count (some gameIndex) := by
  rw [getPlayersByVote, List.length_map, votes, List.count_eq_length_filter, List.filter_map,
    List.length_map]
  congr 1
  apply List.filter_congr
  intro entry _
  exact (beq_eq_decide entry.2.vote (some gameIndex)).symm

theorem getPlayersByVote_eq_nil_iff (client : Client) (gameIndex : Nat) :
    client.getPlayersByVote gameIndex = [] ↔ client.votes.count (some gameIndex) = 0 := by
  rw [← length_getPlayersByVote, List.length_eq_zero_iff]

theorem count_votes {votes : List (Option Nat)} (h : ∀ vote ∈ votes, ∀ n, vote = some n → n ≤ 2) :
    votes.length =
      votes.count none + votes.count (some 0) + votes.count (some 1) + votes.count (some 2) := by
  induction votes with
  | nil => rfl
  | cons vote votes ih =>
      have hlater := ih fun vote hvote => h vote (List.mem_cons_of_mem _ hvote)
      have hvote := h vote List.mem_cons_self
      simp only [List.length_cons, List.count_cons, beq_iff_eq]
      cases vote with
      | none => simp; omega
      | some n =>
          have hn := hvote n rfl
          obtain rfl | rfl | rfl : n = 0 ∨ n = 1 ∨ n = 2 := by omega
          all_goals simp; omega

section OneEntryEach

variable (h : client.OneEntryEach games)

include h

theorem OneEntryEach.length_votes : client.votes.length = client.net.players.length := by
  have hlength := h.keys.length_eq
  rw [List.length_map] at hlength
  rw [votes, List.length_map, ← hlength, AList.keys, List.keys, List.length_map]

theorem OneEntryEach.forall_vote_iff (P : Option Nat → Prop) :
    (∀ player ∈ client.net.players, P (client.playerData.entry player.id).vote) ↔
      ∀ vote ∈ client.votes, P vote := by
  constructor
  · intro hplayers vote hvote
    obtain ⟨⟨id, entry⟩, hentry, rfl⟩ := List.mem_map.mp hvote
    have hkey : id ∈ client.playerData.keys := List.mem_map_of_mem (f := Sigma.fst) hentry
    obtain ⟨player, hplayer, rfl⟩ := List.mem_map.mp (h.keys.mem_iff.mp hkey)
    have hP := hplayers player hplayer
    rwa [PlayerData.entry, AList.mem_lookup_iff.mpr hentry] at hP
  · intro hvotes player hplayer
    have hkey := h.keys.mem_iff.mpr (List.mem_map_of_mem hplayer)
    obtain ⟨entry, hentry⟩ := Option.isSome_iff_exists.mp (AList.lookup_isSome.mpr hkey)
    rw [PlayerData.entry, hentry]
    exact hvotes _ (List.mem_map_of_mem (AList.mem_lookup_iff.mp hentry))

theorem OneEntryEach.everyoneVoted_iff : client.EveryoneVoted ↔ client.votes.count none = 0 := by
  rw [EveryoneVoted, h.forall_vote_iff (· ≠ none), List.count_eq_zero]
  exact ⟨fun hvotes hnone => hvotes none hnone rfl, fun hnone vote hvote => by
    rintro rfl
    exact hnone hvote⟩

theorem OneEntryEach.someone_iff :
    (∃ player ∈ client.net.players, (client.playerData.entry player.id).vote ≠ some 0) ↔
      client.votes.count (some 0) ≠ client.votes.length := by
  have hall := h.forall_vote_iff (· = some 0)
  rw [ne_eq, List.count_eq_length, ← not_iff_not]
  push Not
  rw [hall]
  exact forall₂_congr fun vote _ => eq_comm

theorem OneEntryEach.length_eq (htwo : games.length = 2) : client.net.players.length =
    client.votes.count none + client.votes.count (some 0) + client.votes.count (some 1) +
      client.votes.count (some 2) := by
  rw [← h.length_votes]
  apply count_votes
  intro vote hvote n hn
  obtain ⟨⟨id, entry⟩, hentry, rfl⟩ := List.mem_map.mp hvote
  have hle := h.vote_le id entry (AList.mem_lookup_iff.mpr hentry) n hn
  rwa [htwo] at hle

end OneEntryEach

/-! ### Two games -/

/-- What is left of `voteFinished` when there are two games. -/
theorem voteFinished_two (client : Client) (first second : Game) :
    client.voteFinished [first, second] =
      if client.votes.count (some 1) + client.votes.count (some 0) < client.net.players.length then
        .ok false
      else if client.votes.count (some 1) = 0 then
        if client.votes.count (some 2) = 0 then
          .error (.voteFinished "attempt to get length of local 'votesForGame' (a nil value)")
        else
          .ok (decide (client.Playable 2 second))
      else if client.votes.count (some 2) = 0 then
        .ok (decide (client.Playable 1 first))
      else
        .ok false := by
  have hfilter : (List.range' 1 [first, second].length).filter (fun gameIndex =>
      (client.getPlayersByVote gameIndex).length > 0) =
        (if client.votes.count (some 1) = 0 then [] else [1]) ++
          if client.votes.count (some 2) = 0 then [] else [2] := by
    change [1, 2].filter _ = _
    simp only [length_getPlayersByVote, List.filter_cons, List.filter_nil, gt_iff_lt,
      Nat.pos_iff_ne_zero, decide_eq_true_eq, ne_eq, ite_not]
    split <;> split <;> rfl
  have hdecide (gameIndex : Nat) (game : Game) :
      (!(decide ((client.getPlayersByVote gameIndex).length < game.minPlayers) ||
        decide ((client.getPlayersByVote gameIndex).length > game.maxPlayers))) =
          decide (client.Playable gameIndex game) := by
    rw [Bool.eq_iff_iff, Bool.not_eq_true', Bool.or_eq_false_iff, decide_eq_false_iff_not,
      decide_eq_false_iff_not, decide_eq_true_iff, Playable, not_lt, gt_iff_lt, not_lt]
  have htotal : totalVotes ((List.range' 1 [first, second].length).map client.getPlayersByVote) =
      .ok (client.getPlayersByVote 1).length := totalVotes_two _ _
  rw [voteFinished]
  dsimp only
  rw [htotal]
  change (if (client.getPlayersByVote 1).length + (client.getPlayersByVote 0).length < _
    then _ else _) = _
  rw [length_getPlayersByVote, length_getPlayersByVote]
  split
  · rfl
  · rw [hfilter]
    by_cases hfirst : client.votes.count (some 1) = 0
    · by_cases hsecond : client.votes.count (some 2) = 0
      · rw [if_pos hfirst, if_pos hsecond, if_pos hfirst, if_pos hsecond]
        rfl
      · rw [if_pos hfirst, if_neg hsecond, if_pos hfirst, if_neg hsecond, ← hdecide]
        rfl
    · by_cases hsecond : client.votes.count (some 2) = 0
      · rw [if_neg hfirst, if_pos hsecond, if_neg hfirst, if_pos hsecond, ← hdecide]
        rfl
      · rw [if_neg hfirst, if_neg hsecond, if_neg hfirst, if_neg hsecond]
        rfl

theorem voteDecided_two (client : Client) (first second : Game) :
    client.VoteDecided [first, second] ↔ client.EveryoneVoted ∧
      (client.votes.count (some 1) ≠ 0 ∧ client.votes.count (some 2) = 0 ∧
          client.Playable 1 first ∨
        client.votes.count (some 1) = 0 ∧ client.votes.count (some 2) ≠ 0 ∧
          client.Playable 2 second) := by
  have hrange : List.range' 1 [first, second].length = [1, 2] := rfl
  apply and_congr_right
  intro _
  rw [hrange]
  simp only [List.forall_mem_cons, List.not_mem_nil, false_imp_iff, implies_true, and_true, ne_eq,
    getPlayersByVote_eq_nil_iff]
  constructor
  · rintro ⟨gameIndex, game, hpos, hgame, ⟨hone, htwo⟩, hplayable⟩
    obtain rfl | rfl : gameIndex = 1 ∨ gameIndex = 2 := by
      have hlt := (List.getElem?_eq_some_iff.mp hgame).1
      simp only [List.length_cons, List.length_nil] at hlt
      omega
    · obtain rfl : first = game := Option.some.inj hgame
      exact Or.inl ⟨hone.mpr rfl, by simpa using htwo, hplayable⟩
    · obtain rfl : second = game := Option.some.inj hgame
      exact Or.inr ⟨by simpa using hone, htwo.mpr rfl, hplayable⟩
  · rintro (⟨hone, htwo, hplayable⟩ | ⟨hone, htwo, hplayable⟩)
    · exact ⟨1, first, le_rfl, rfl, ⟨by simpa using hone, by simpa using htwo⟩, hplayable⟩
    · exact ⟨2, second, by decide, rfl, ⟨by simpa using hone, by simpa using htwo⟩, hplayable⟩

theorem decidesVote_of_eq {finished : Bool} (h : client.voteFinished games = .ok finished) :
    client.DecidesVote games ↔ (finished = true ↔ client.VoteDecided games) := by
  constructor
  · rintro ⟨finished', h', hiff⟩
    rwa [← Except.ok.inj (h'.symm.trans h)]
  · exact fun hiff => ⟨finished, h, hiff⟩

theorem not_decidesVote_of_error {error : SceneError}
    (h : client.voteFinished games = .error error) : ¬client.DecidesVote games := by
  rintro ⟨finished, hok, -⟩
  rw [h] at hok
  cases hok

/-- **The vote.** `voteFinished` finds out whether the vote is decided exactly when there are two
games, not everybody watches, and the vote is not decided for the second game. -/
theorem voteFinished_iff (h : client.OneEntryEach games) :
    client.DecidesVote games ↔ client.Countable games := by
  by_cases htwo : games.length = 2
  · obtain ⟨first, second, rfl⟩ := List.length_eq_two.mp htwo
    have hlength := h.length_eq htwo
    have hvotes := h.length_votes
    have hcount : client.Countable [first, second] ↔
        client.votes.count (some 0) ≠ client.votes.length ∧
          (client.votes.count none = 0 → client.votes.count (some 1) = 0 →
            ¬client.Playable 2 second) := by
      rw [← h.someone_iff, ← h.everyoneVoted_iff, ← getPlayersByVote_eq_nil_iff]
      constructor
      · exact fun hcountable => ⟨hcountable.someone, hcountable.first second rfl⟩
      · rintro ⟨hsomeone, hfirst⟩
        refine ⟨rfl, hsomeone, fun game hgame => ?_⟩
        rwa [← Option.some.inj hgame]
    have hdecided := voteDecided_two client first second
    rw [h.everyoneVoted_iff] at hdecided
    have hfinished := voteFinished_two client first second
    rw [hcount]
    by_cases hmissing : client.votes.count (some 1) + client.votes.count (some 0) <
        client.net.players.length
    · -- somebody has no vote or has voted for the second game
      rw [if_pos hmissing] at hfinished
      rw [decidesVote_of_eq hfinished, hdecided]
      grind
    · have hnone : client.votes.count none = 0 := by omega
      have hsecond : client.votes.count (some 2) = 0 := by omega
      rw [if_neg hmissing, if_pos hsecond, if_pos hsecond] at hfinished
      by_cases hfirst : client.votes.count (some 1) = 0
      · rw [if_pos hfirst] at hfinished
        refine iff_of_false (not_decidesVote_of_error hfinished) fun hcond => hcond.1 ?_
        omega
      · rw [if_neg hfirst] at hfinished
        rw [decidesVote_of_eq hfinished, hdecided, decide_eq_true_iff]
        refine iff_of_true ?_ ⟨by omega, fun _ hzero => absurd hzero hfirst⟩
        simp [hnone, hfirst, hsecond]
  · obtain ⟨text, herror⟩ := voteFinished_of_ne_two client htwo
    exact iff_of_false (not_decidesVote_of_error herror) fun hcountable => htwo hcountable.two

theorem oneEntryEach_of_entries
    (hkeys : client.playerData.keys.Perm (client.net.players.map Net.NetPlayer.id))
    (hvotes : ∀ entry ∈ client.playerData.entries, ∀ vote ∈ entry.2.vote, vote ≤ games.length) :
    client.OneEntryEach games :=
  ⟨hkeys, fun id entry hentry vote hvote =>
    hvotes ⟨id, entry⟩ (AList.mem_lookup_iff.mp hentry) vote hvote⟩

/-- Two players and their votes. -/
def twoPlayers (first second : Option Nat) : Client :=
  { Client.init [] with
    scene := .lobby
    net := { Net.Table.init with players := [⟨0, [97]⟩, ⟨1, [98]⟩], playerId := some 0 }
    playerData := .ofRows [⟨0, some 1, first⟩, ⟨1, some 2, second⟩] }

/-- One player votes for the first game, and the other one watches. -/
theorem voteFinished_iff_watch :
    (twoPlayers (some 1) (some 0)).DecidesVote [⟨1, 4⟩, ⟨1, 4⟩] :=
  (voteFinished_iff (oneEntryEach_of_entries (by decide) (by decide))).mpr
    ⟨rfl, ⟨⟨0, [97]⟩, by decide, by decide⟩, fun _ _ _ hnone => absurd hnone (by decide)⟩

/-- Both players vote for the second game. -/
theorem not_voteFinished : ¬∀ (client : Client) (games : List Game), games ≠ [] →
    (∀ game ∈ games, game.minPlayers ≤ game.maxPlayers) → client.net.players ≠ [] →
      client.OneEntryEach games → client.DecidesVote games := by
  intro h
  obtain ⟨finished, hfinished, hiff⟩ := h (twoPlayers (some 2) (some 2)) [⟨1, 4⟩, ⟨1, 4⟩]
    (by decide) (by decide) (by decide) (oneEntryEach_of_entries (by decide) (by decide))
  have hfalse : (twoPlayers (some 2) (some 2)).voteFinished [⟨1, 4⟩, ⟨1, 4⟩] = .ok false := by
    decide
  obtain rfl := Except.ok.inj (hfinished.symm.trans hfalse)
  have hdecided : (twoPlayers (some 2) (some 2)).VoteDecided [⟨1, 4⟩, ⟨1, 4⟩] :=
    ⟨by unfold EveryoneVoted; decide, 2, ⟨1, 4⟩, by decide, rfl, by decide, by decide⟩
  cases hiff.mpr hdecided

end ChatGames.Client
