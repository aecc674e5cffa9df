import ChatGames.Serialization
import ChatGames.Library.FirstGap
import Mathlib.Data.Finset.Card
import Mathlib.Data.List.Sort
import Mathlib.Order.Interval.Finset.Nat

/-!
# Lobbies

A lobby keeps its players sorted by id, hands out the lowest free id and takes the first player for
its master. `Valid` is the invariant its operations keep: ids ascend, and none is the last value of
`Player::Id`.
-/

namespace ChatGames

/-- An entry of a lobby. `Sid` names session objects; the entry holds a weak pointer to one. -/
structure Player (Sid : Type) where
  id : Nat
  connection : Sid
  name : Bytes
deriving DecidableEq

structure Lobby (Sid : Type) where
  name : Bytes
  players : List (Player Sid)
  locked : Bool
deriving DecidableEq

namespace Lobby

variable {Sid : Type}

def new (name : Bytes) : Lobby Sid := ⟨name, [], false⟩

/-- The greatest `Player::Id`. -/
def maxPlayers : Nat := 255

/-- The conversion of a `size_t` to `Player::Id`. -/
def toId (n : Nat) : Nat := n % 256

def ids (lobby : Lobby Sid) : List Nat := lobby.players.map Player.id

def getNextPlayerId (lobby : Lobby Sid) : Except Fault Nat :=
  if lobby.players.length < maxPlayers ∧ lobby.ids.Pairwise (· ≤ ·) then
    .ok (toId (firstGap 0 lobby.ids))
  else
    .error .assertNextPlayerId

def addPlayer (lobby : Lobby Sid) (name : Bytes) (connection : Sid) :
    Except Fault (Nat × Lobby Sid) := do
  let id ← lobby.getNextPlayerId
  let players := lobby.players ++ [{ id := id, connection := connection, name := name }]
  .ok (id, { lobby with players := players.insertionSort fun a b => a.id ≤ b.id })

def getPlayerIndexById (lobby : Lobby Sid) (id : Nat) : Option Nat :=
  lobby.players.findIdx? fun player => player.id == id

def removePlayer (lobby : Lobby Sid) (id : Nat) : Except Fault (Lobby Sid) :=
  match lobby.getPlayerIndexById id with
  | some playerIdx => .ok { lobby with players := lobby.players.eraseIdx playerIdx }
  | none => .error .assertPlayerIdx

def canJoin (lobby : Lobby Sid) : Bool := !lobby.locked && lobby.players.length < maxPlayers

def isPlayerMaster (lobby : Lobby Sid) (id : Nat) : Bool :=
  match lobby.players with
  | [] => false
  | player :: _ => player.id == id

/-! ### The invariant -/

structure Valid (lobby : Lobby Sid) : Prop where
  sorted : lobby.players.Pairwise fun a b => a.id < b.id
  id_lt : ∀ player ∈ lobby.players, player.id < maxPlayers

variable {lobby : Lobby Sid}

theorem valid_new (name : Bytes) : (new name : Lobby Sid).Valid :=
  ⟨List.Pairwise.nil, fun _ h => by cases h⟩

theorem Valid.ids_sorted (h : lobby.Valid) : lobby.ids.Pairwise (· < ·) :=
  List.pairwise_map.mpr h.sorted

theorem Valid.length_le (h : lobby.Valid) : lobby.players.length ≤ 255 := by
  have hnodup : lobby.ids.Nodup := h.ids_sorted.imp fun hlt => Nat.ne_of_lt hlt
  have hsubset : lobby.ids.toFinset ⊆ Finset.range maxPlayers := by
    intro id hid
    obtain ⟨player, hplayer, rfl⟩ := List.mem_map.mp (List.mem_toFinset.mp hid)
    exact Finset.mem_range.mpr (h.id_lt player hplayer)
  have hcard := Finset.card_le_card hsubset
  rwa [List.toFinset_card_of_nodup hnodup, Finset.card_range, ids, List.length_map] at hcard

theorem Valid.eq_of_id_eq (h : lobby.Valid) {a b : Player Sid} (ha : a ∈ lobby.players)
    (hb : b ∈ lobby.players) (hid : a.id = b.id) : a = b := by
  have hinj := List.inj_on_of_nodup_map (h.ids_sorted.imp fun hlt => Nat.ne_of_lt hlt)
  exact hinj ha hb hid

/-- A filter that only one id passes. -/
theorem Valid.filter_eq_singleton (h : lobby.Valid) {p : Player Sid → Bool} {player : Player Sid}
    (hplayer : player ∈ lobby.players) (hp : p player = true)
    (honly : ∀ other ∈ lobby.players, p other = true → other.id = player.id) :
    lobby.players.filter p = [player] := by
  have hpairwise := h.sorted.sublist (List.filter_sublist (p := p))
  have honly' : ∀ other ∈ lobby.players.filter p, other = player := by
    intro other hother
    obtain ⟨hmem, hpass⟩ := List.mem_filter.mp hother
    exact h.eq_of_id_eq hmem hplayer (honly other hmem hpass)
  have hmem : player ∈ lobby.players.filter p := List.mem_filter.mpr ⟨hplayer, hp⟩
  cases hfilter : lobby.players.filter p with
  | nil =>
      rw [hfilter] at hmem
      cases hmem
  | cons first others =>
      rw [hfilter] at hpairwise honly'
      cases others with
      | nil => rw [honly' first List.mem_cons_self]
      | cons second others =>
          have hlt := (List.pairwise_cons.mp hpairwise).1 second List.mem_cons_self
          rw [honly' first List.mem_cons_self, honly' second (by simp)] at hlt
          exact absurd hlt (lt_irrefl _)

theorem Valid.toId_eq (h : lobby.Valid) {player : Player Sid} (hplayer : player ∈ lobby.players) :
    toId player.id = player.id := by
  have hlt := h.id_lt player hplayer
  unfold maxPlayers at hlt
  exact Nat.mod_eq_of_lt (by omega)

theorem Valid.setLocked (h : lobby.Valid) (locked : Bool) :
    Valid { lobby with locked := locked } := ⟨h.sorted, h.id_lt⟩

theorem Valid.isPlayerMaster_iff (h : lobby.Valid) (id : Nat) :
    lobby.isPlayerMaster id = true ↔
      ∃ player ∈ lobby.players, player.id = id ∧ ∀ other ∈ lobby.players, id ≤ other.id := by
  rw [isPlayerMaster]
  cases hplayers : lobby.players with
  | nil => simp
  | cons first others =>
      have hfirst : ∀ other ∈ others, first.id < other.id := by
        have hsorted := h.sorted
        rw [hplayers] at hsorted
        exact (List.pairwise_cons.mp hsorted).1
      rw [beq_iff_eq]
      constructor
      · rintro rfl
        refine ⟨first, List.mem_cons_self, rfl, fun other hother => ?_⟩
        rcases List.mem_cons.mp hother with rfl | hother
        · exact le_rfl
        · exact (hfirst other hother).le
      · rintro ⟨player, hplayer, rfl, hlowest⟩
        rcases List.mem_cons.mp hplayer with rfl | hplayer
        · rfl
        · exact absurd (hlowest first List.mem_cons_self) (not_le.mpr (hfirst player hplayer))

/-! ### Adding and removing -/

/-- What `addPlayer` does when its assertion holds: one more entry, under the lowest free id. -/
structure Added (lobby : Lobby Sid) (name : Bytes) (connection : Sid) (id : Nat)
    (lobby' : Lobby Sid) : Prop where
  room : lobby.players.length < maxPlayers
  least : IsLeast {n | n ∉ lobby.ids} id
  perm : lobby'.players.Perm (⟨id, connection, name⟩ :: lobby.players)
  valid : lobby'.Valid
  name_eq : lobby'.name = lobby.name
  locked_eq : lobby'.locked = lobby.locked

theorem sortById_perm (players : List (Player Sid)) (player : Player Sid) :
    ((players ++ [player]).insertionSort fun a b => a.id ≤ b.id).Perm (player :: players) :=
  (List.perm_insertionSort _ _).trans List.perm_append_comm

/-- The sort is only weakly ascending; distinct ids make it strict. -/
theorem sortById_sorted {players : List (Player Sid)} {player : Player Sid}
    (hsorted : players.Pairwise fun a b => a.id < b.id)
    (hfree : ∀ other ∈ players, player.id ≠ other.id) :
    ((players ++ [player]).insertionSort fun a b => a.id ≤ b.id).Pairwise
      fun a b => a.id < b.id := by
  have htotal : Std.Total fun a b : Player Sid => a.id ≤ b.id := ⟨fun a b => le_total a.id b.id⟩
  have htrans : IsTrans (Player Sid) fun a b => a.id ≤ b.id := ⟨fun _ _ _ => le_trans⟩
  have hweak := List.pairwise_insertionSort (fun a b : Player Sid => a.id ≤ b.id)
    (players ++ [player])
  have hdistinct : (player :: players).Pairwise fun a b => a.id ≠ b.id :=
    List.pairwise_cons.mpr ⟨hfree, hsorted.imp Nat.ne_of_lt⟩
  have hne := (sortById_perm players player).symm.pairwise hdistinct fun hab => hab.symm
  exact hweak.imp₂ (fun _ _ hle hne => lt_of_le_of_ne hle hne) hne

theorem Valid.added {name : Bytes} {connection : Sid} {id : Nat} {lobby' : Lobby Sid}
    (h : lobby.Valid) (hadd : lobby.addPlayer name connection = .ok (id, lobby')) :
    lobby.Added name connection id lobby' := by
  rw [addPlayer, getNextPlayerId] at hadd
  split at hadd
  · rename_i hassert
    have hleast := isLeast_firstGap h.ids_sorted
    have hle := firstGap_le 0 lobby.ids
    rw [ids, List.length_map, ← ids] at hle
    have hlt : firstGap 0 lobby.ids < maxPlayers := by omega
    have hid : toId (firstGap 0 lobby.ids) = firstGap 0 lobby.ids := by
      unfold maxPlayers at hlt
      exact Nat.mod_eq_of_lt (by omega)
    obtain ⟨rfl, rfl⟩ := Prod.mk.inj (Except.ok.inj hadd)
    rw [hid]
    have hperm := sortById_perm lobby.players ⟨firstGap 0 lobby.ids, connection, name⟩
    refine ⟨hassert.1, hleast, hperm, ⟨sortById_sorted h.sorted ?_, ?_⟩, rfl, rfl⟩
    · intro other hother heq
      exact hleast.1 (List.mem_map.mpr ⟨other, hother, heq.symm⟩)
    · intro other hother
      rcases List.mem_cons.mp (hperm.mem_iff.mp hother) with rfl | hother
      · exact hlt
      · exact h.id_lt other hother
  · cases hadd

theorem Valid.exists_addPlayer (h : lobby.Valid) (hsize : lobby.players.length < maxPlayers)
    (name : Bytes) (connection : Sid) :
    ∃ id lobby', lobby.addPlayer name connection = .ok (id, lobby') := by
  have hid : lobby.getNextPlayerId = .ok (toId (firstGap 0 lobby.ids)) :=
    if_pos ⟨hsize, h.ids_sorted.imp Nat.le_of_lt⟩
  simp [addPlayer, hid, bind, Except.bind]

theorem addPlayer_eq_error {name : Bytes} {connection : Sid} {fault : Fault}
    (h : lobby.addPlayer name connection = .error fault) : fault = .assertNextPlayerId := by
  rw [addPlayer] at h
  cases hid : lobby.getNextPlayerId with
  | ok id => rw [hid] at h; cases h
  | error fault' =>
      rw [hid] at h
      obtain rfl : fault' = fault := Except.error.inj h
      rw [getNextPlayerId] at hid
      split at hid
      · cases hid
      · exact (Except.error.inj hid).symm

theorem eraseIdx_findIdx?_eq_filter {id : Nat} :
    ∀ {players : List (Player Sid)} {idx : Nat}, players.Pairwise (fun a b => a.id < b.id) →
      players.findIdx? (fun player => player.id == id) = some idx →
        players.eraseIdx idx = players.filter (·.id ≠ id)
  | [], _, _, hfind => by cases hfind
  | player :: players, idx, hsorted, hfind => by
      obtain ⟨hfirst, hrest⟩ := List.pairwise_cons.mp hsorted
      rw [List.findIdx?_cons] at hfind
      by_cases hid : player.id = id
      · subst hid
        simp only [BEq.rfl, if_true, Option.some.injEq] at hfind
        subst hfind
        rw [List.eraseIdx_cons_zero, List.filter_cons_of_neg (by simp)]
        refine (List.filter_eq_self.mpr fun other hother => ?_).symm
        have hlt := hfirst other hother
        exact decide_eq_true (by omega)
      · rw [if_neg (by simpa using hid), Option.map_eq_some_iff] at hfind
        obtain ⟨idx, hfind, rfl⟩ := hfind
        rw [List.eraseIdx_cons_succ, List.filter_cons_of_pos (by simpa using hid),
          eraseIdx_findIdx?_eq_filter hrest hfind]

/-- What `removePlayer` does when its assertion holds: the one entry of that id is gone. -/
theorem removePlayer_eq_ok {id : Nat} {lobby' : Lobby Sid} (h : lobby.Valid)
    (hremove : lobby.removePlayer id = .ok lobby') :
    lobby' = { lobby with players := lobby.players.filter (·.id ≠ id) } ∧ lobby'.Valid := by
  rw [removePlayer, getPlayerIndexById] at hremove
  cases hfind : lobby.players.findIdx? fun player => player.id == id with
  | none => rw [hfind] at hremove; cases hremove
  | some playerIdx =>
      rw [hfind] at hremove
      obtain rfl := Except.ok.inj hremove
      rw [eraseIdx_findIdx?_eq_filter h.sorted hfind]
      exact ⟨rfl, h.sorted.filter _, fun player hplayer =>
        h.id_lt player (List.mem_filter.mp hplayer).1⟩

theorem exists_removePlayer {id : Nat} (hid : ∃ player ∈ lobby.players, player.id = id) :
    ∃ lobby', lobby.removePlayer id = .ok lobby' := by
  obtain ⟨player, hplayer, rfl⟩ := hid
  rw [removePlayer, getPlayerIndexById]
  cases hfind : lobby.players.findIdx? fun other => other.id == player.id with
  | none =>
      have hnone := List.findIdx?_eq_none_iff.mp hfind player hplayer
      simp at hnone
  | some playerIdx => exact ⟨_, rfl⟩

end Lobby

end ChatGames
