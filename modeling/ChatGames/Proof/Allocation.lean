import ChatGames.Lobby
import ChatGames.Library.TransitionSystem

/-!
# Ids and the master

A lobby from its creation on, with players added while there is room and removed while they are
there. Ids stay sorted and small enough for their type whatever the order. The lowest id is the
master's and the lowest free id is given away next, so a newcomer outranks every master but the one
with id 0.
-/

namespace ChatGames

inductive LobbyEvent (Sid : Type) where
  | addPlayer (name : Bytes) (connection : Sid)
  | removePlayer (id : Nat)
  | setLocked (locked : Bool)
deriving DecidableEq

namespace Lobby

section Definitions

variable {Sid : Type}

/-- An operation, called as its callers do: there is room to add, and the id to remove is there. -/
def step (lobby : Lobby Sid) : LobbyEvent Sid → Option (Lobby Sid)
  | .addPlayer name connection =>
      if lobby.players.length < maxPlayers then
        (lobby.addPlayer name connection).toOption.map Prod.snd
      else
        none
  | .removePlayer id => if id ∈ lobby.ids then (lobby.removePlayer id).toOption else none
  | .setLocked locked => some { lobby with locked := locked }

/-- What `addPlayer` returns and leaves. -/
structure Allocates (lobby : Lobby Sid) (name : Bytes) (connection : Sid) (id : Nat)
    (lobby' : Lobby Sid) : Prop where
  result : lobby.addPlayer name connection = .ok (id, lobby')
  least : IsLeast {n | n ∉ lobby.ids} id
  added : lobby'.players.filter (·.id = id) = [⟨id, connection, name⟩]
  others : lobby'.players.filter (·.id ≠ id) = lobby.players
  restores : lobby'.removePlayer id = .ok lobby

structure Allocating (lobby : Lobby Sid) : Prop where
  sorted : lobby.players.Pairwise fun a b => a.id < b.id
  size_le : lobby.players.length ≤ 255
  id_le : ∀ player ∈ lobby.players, player.id ≤ 254
  /-- `getNextPlayerId` casts positions in `players` and its size. -/
  lossless : lobby.players.length < maxPlayers → ∀ n ≤ lobby.players.length, toId n = n
  allocates : lobby.players.length < maxPlayers → ∀ name connection,
    ∃ id lobby', lobby.Allocates name connection id lobby'
  removes : ∀ id ∈ lobby.ids,
    lobby.removePlayer id = .ok { lobby with players := lobby.players.filter (·.id ≠ id) }

end Definitions

end Lobby

def lobbySystem (Sid : Type) (name : Bytes) : TransitionSystem (Lobby Sid) (LobbyEvent Sid) where
  init := Lobby.new name
  step := Lobby.step

namespace Lobby

variable {Sid : Type} {lobby lobby' : Lobby Sid} {name : Bytes} {e : LobbyEvent Sid}

/-! ### Operations -/

theorem step_addPlayer_eq_some {connection : Sid} :
    lobby.step (.addPlayer name connection) = some lobby' ↔
      lobby.players.length < maxPlayers ∧
        ∃ id, lobby.addPlayer name connection = .ok (id, lobby') := by
  rw [step]
  split
  · rename_i hroom
    rw [and_iff_right hroom]
    cases lobby.addPlayer name connection with
    | error fault => simp [Except.toOption]
    | ok p => simp [Except.toOption, Prod.ext_iff]
  · rename_i hroom
    simp [hroom]

theorem step_removePlayer_eq_some {id : Nat} :
    lobby.step (.removePlayer id) = some lobby' ↔
      id ∈ lobby.ids ∧ lobby.removePlayer id = .ok lobby' := by
  rw [step]
  split
  · rename_i hmem
    rw [and_iff_right hmem]
    cases lobby.removePlayer id with
    | error fault => simp [Except.toOption]
    | ok lobby => simp [Except.toOption]
  · rename_i hmem
    simp [hmem]

theorem Valid.step (h : lobby.Valid) (hstep : lobby.step e = some lobby') : lobby'.Valid := by
  cases e with
  | addPlayer name connection =>
      obtain ⟨-, id, hadd⟩ := step_addPlayer_eq_some.mp hstep
      exact (h.added hadd).valid
  | removePlayer id =>
      obtain ⟨-, hremove⟩ := step_removePlayer_eq_some.mp hstep
      exact (removePlayer_eq_ok h hremove).2
  | setLocked locked => exact Option.some.inj hstep ▸ h.setLocked locked

theorem valid_of_reachable (h : (lobbySystem Sid name).Reachable lobby) : lobby.Valid :=
  h.invariant Valid (valid_new name) fun _ _ _ hvalid hstep => hvalid.step hstep

theorem Valid.removePlayer_eq (h : lobby.Valid) {id : Nat} (hid : id ∈ lobby.ids) :
    lobby.removePlayer id = .ok { lobby with players := lobby.players.filter (·.id ≠ id) } := by
  obtain ⟨lobby', hremove⟩ := exists_removePlayer (List.mem_map.mp hid)
  rw [hremove, (removePlayer_eq_ok h hremove).1]

theorem Added.others {connection : Sid} {id : Nat} (h : lobby.Added name connection id lobby')
    (hvalid : lobby.Valid) :
    lobby'.players.filter (·.id ≠ id) = lobby.players := by
  have hfree : lobby.players.filter (·.id ≠ id) = lobby.players := by
    apply List.filter_eq_self.mpr
    intro player hplayer
    apply decide_eq_true
    rintro rfl
    exact h.least.1 (List.mem_map_of_mem hplayer)
  have hperm : (lobby'.players.filter (·.id ≠ id)).Perm lobby.players := by
    have hfilter := h.perm.filter (·.id ≠ id)
    rwa [List.filter_cons_of_neg (by simp), hfree] at hfilter
  apply hperm.eq_of_pairwise _ (h.valid.sorted.filter _) hvalid.sorted
  intro a b _ _ hab hba
  exact absurd hab (lt_asymm hba)

theorem Valid.exists_allocates (h : lobby.Valid) (hroom : lobby.players.length < maxPlayers)
    (name : Bytes) (connection : Sid) : ∃ id lobby', lobby.Allocates name connection id lobby' := by
  obtain ⟨id, lobby', hadd⟩ := h.exists_addPlayer hroom name connection
  have hadded := h.added hadd
  have hnew : (⟨id, connection, name⟩ : Player Sid) ∈ lobby'.players :=
    hadded.perm.mem_iff.mpr List.mem_cons_self
  have hothers := hadded.others h
  refine ⟨id, lobby', hadd, hadded.least, ?_, hothers, ?_⟩
  · exact hadded.valid.filter_eq_singleton hnew (by simp) fun other _ hid => of_decide_eq_true hid
  · rw [hadded.valid.removePlayer_eq (List.mem_map_of_mem hnew), hothers]
    congr 1
    cases lobby
    cases lobby'
    have hname := hadded.name_eq
    have hlocked := hadded.locked_eq
    simp_all

/-- **Ids.** In every lobby ids ascend and fit their type, and the next id is the lowest free
one. -/
theorem allocation_sound (h : (lobbySystem Sid name).Reachable lobby) : lobby.Allocating := by
  have hvalid := valid_of_reachable h
  refine ⟨hvalid.sorted, hvalid.length_le, ?_, ?_, hvalid.exists_allocates,
    fun id => hvalid.removePlayer_eq⟩
  · intro player hplayer
    exact Nat.le_of_lt_succ (hvalid.id_lt player hplayer)
  · intro hroom n hn
    unfold maxPlayers at hroom
    exact Nat.mod_eq_of_lt (by omega)

/-- Two players join, the first one leaves, and its id is the next one again. -/
theorem allocation_sound_gap : ∃ lobby lobby' : Lobby (Fin 3),
    (lobbySystem (Fin 3) [120]).run [.addPlayer [97] 0, .addPlayer [98] 1, .removePlayer 0] =
      some lobby ∧ lobby.ids = [1] ∧ lobby.Allocates [99] 2 0 lobby' := by
  have hrun : ((lobbySystem (Fin 3) [120]).run
      [.addPlayer [97] 0, .addPlayer [98] 1, .removePlayer 0]).any (fun lobby =>
        decide (lobby.ids = [1] ∧ lobby.players.length < maxPlayers)) = true := by
    decide
  obtain ⟨lobby, hlobby, hstate⟩ := (Option.any_eq_true _ _).mp hrun
  obtain ⟨hids, hroom⟩ := of_decide_eq_true hstate
  have hsound := allocation_sound (TransitionSystem.reachable_of_run hlobby)
  obtain ⟨id, lobby', hallocates⟩ := hsound.allocates hroom [99] 2
  have hfree : 0 ∉ lobby.ids := by
    rw [hids]
    decide
  obtain rfl : id = 0 := Nat.le_zero.mp (hallocates.least.2 hfree)
  exact ⟨lobby, lobby', hlobby, hids, hallocates⟩

/-! ### The master -/

/-- The step leaves the master its place, unless it is the master that leaves. -/
def KeepsMaster (lobby : Lobby Sid) (e : LobbyEvent Sid) (lobby' : Lobby Sid) : Prop :=
  ∀ m, lobby.isPlayerMaster m = true → e ≠ .removePlayer m →
    lobby'.isPlayerMaster m = true ∧ ∀ id, lobby'.isPlayerMaster id = true → id = m

/-- A player that joins others finds id 0 taken. -/
def JoinsBehindZero (lobby : Lobby Sid) : LobbyEvent Sid → Prop
  | .addPlayer _ _ => lobby.players ≠ [] → 0 ∈ lobby.ids
  | .removePlayer _ | .setLocked _ => True

theorem isPlayerMaster_unique {m id : Nat} (hm : lobby.isPlayerMaster m = true)
    (hid : lobby.isPlayerMaster id = true) : id = m := by
  cases hplayers : lobby.players with
  | nil =>
      rw [isPlayerMaster, hplayers] at hm
      cases hm
  | cons first others =>
      rw [isPlayerMaster, hplayers] at hm hid
      exact (beq_iff_eq.mp hid).symm.trans (beq_iff_eq.mp hm)

theorem keepsMaster_iff : lobby.KeepsMaster e lobby' ↔
    ∀ m, lobby.isPlayerMaster m = true → e ≠ .removePlayer m →
      lobby'.isPlayerMaster m = true := by
  constructor
  · exact fun hkeeps m hm he => (hkeeps m hm he).1
  · exact fun hkeeps m hm he => ⟨hkeeps m hm he, fun id => isPlayerMaster_unique (hkeeps m hm he)⟩

theorem Valid.isPlayerMaster_zero_iff (h : lobby.Valid) :
    lobby.isPlayerMaster 0 = true ↔ 0 ∈ lobby.ids := by
  rw [h.isPlayerMaster_iff, ids, List.mem_map]
  simp

/-- Others can go without the master losing its place. -/
theorem Valid.isPlayerMaster_removePlayer (h : lobby.Valid) {m id : Nat}
    (hm : lobby.isPlayerMaster m = true) (hne : m ≠ id)
    (hremove : lobby.removePlayer id = .ok lobby') : lobby'.isPlayerMaster m = true := by
  obtain ⟨rfl, hvalid⟩ := removePlayer_eq_ok h hremove
  obtain ⟨player, hplayer, rfl, hlowest⟩ := (h.isPlayerMaster_iff m).mp hm
  apply (hvalid.isPlayerMaster_iff _).mpr
  refine ⟨player, List.mem_filter.mpr ⟨hplayer, decide_eq_true hne⟩, rfl, ?_⟩
  intro other hother
  exact hlowest other (List.mem_filter.mp hother).1

theorem Added.keepsMaster_iff {connection : Sid} {id : Nat}
    (h : lobby.Added name connection id lobby') (hvalid : lobby.Valid) :
    lobby.KeepsMaster (.addPlayer name connection) lobby' ↔
      (lobby.players ≠ [] → 0 ∈ lobby.ids) := by
  have hids : ∀ n, n ∈ lobby'.ids ↔ n = id ∨ n ∈ lobby.ids := by
    intro n
    rw [ids, (h.perm.map Player.id).mem_iff]
    exact List.mem_cons
  rw [Lobby.keepsMaster_iff]
  constructor
  · intro hkeeps hne
    by_contra hzero
    -- the newcomer gets id 0
    obtain rfl : id = 0 := Nat.le_zero.mp (h.least.2 hzero)
    obtain ⟨first, others, hplayers⟩ := List.exists_cons_of_ne_nil hne
    have hfirst : lobby.isPlayerMaster first.id = true := by
      rw [isPlayerMaster, hplayers]
      exact beq_self_eq_true first.id
    have hnew : lobby'.isPlayerMaster 0 = true :=
      h.valid.isPlayerMaster_zero_iff.mpr ((hids 0).mpr (Or.inl rfl))
    have hmaster := isPlayerMaster_unique (hkeeps first.id hfirst (by simp)) hnew
    apply hzero
    rw [hmaster, ids, hplayers]
    exact List.mem_cons_self
  · intro hzero m hm _
    have hne : lobby.players ≠ [] := by
      intro hnil
      rw [isPlayerMaster, hnil] at hm
      cases hm
    have hmaster := hvalid.isPlayerMaster_zero_iff.mpr (hzero hne)
    obtain rfl : m = 0 := isPlayerMaster_unique hmaster hm
    exact h.valid.isPlayerMaster_zero_iff.mpr ((hids 0).mpr (Or.inr (hzero hne)))

/-- **The master.** In every lobby a step other than its own leaving leaves the master its place
exactly when it is not the arrival of a player that finds others, but nobody with id 0. -/
theorem master_kept_iff (h : (lobbySystem Sid name).Reachable lobby)
    (hstep : (lobbySystem Sid name).step lobby e = some lobby') :
    lobby.KeepsMaster e lobby' ↔ lobby.JoinsBehindZero e := by
  have hvalid := valid_of_reachable h
  cases e with
  | addPlayer playerName connection =>
      obtain ⟨-, id, hadd⟩ := step_addPlayer_eq_some.mp hstep
      exact (hvalid.added hadd).keepsMaster_iff hvalid
  | removePlayer id =>
      obtain ⟨-, hremove⟩ := step_removePlayer_eq_some.mp hstep
      refine iff_of_true (keepsMaster_iff.mpr fun m hm he => ?_) trivial
      apply hvalid.isPlayerMaster_removePlayer hm _ hremove
      rintro rfl
      exact he rfl
  | setLocked locked =>
      obtain rfl : { lobby with locked := locked } = lobby' := Option.some.inj hstep
      exact iff_of_true (keepsMaster_iff.mpr fun m hm _ => hm) trivial

/-- The first of two players leaves and a third one joins: the second was the master. -/
theorem not_master_kept : ¬∀ (lobby lobby' : Lobby (Fin 3)) (name playerName : Bytes)
    (connection : Fin 3), (lobbySystem (Fin 3) name).Reachable lobby → lobby.players ≠ [] →
      lobby.canJoin = true →
      (lobbySystem (Fin 3) name).step lobby (.addPlayer playerName connection) = some lobby' →
        lobby.KeepsMaster (.addPlayer playerName connection) lobby' := by
  intro h
  have hrun : ((lobbySystem (Fin 3) [120]).run
      [.addPlayer [97] 0, .addPlayer [98] 1, .removePlayer 0]).any (fun lobby =>
        decide (lobby.players ≠ [] ∧ lobby.canJoin = true ∧ lobby.isPlayerMaster 1 = true) &&
          ((lobbySystem (Fin 3) [120]).step lobby (.addPlayer [99] 2)).any fun lobby' =>
            decide (lobby'.isPlayerMaster 0 = true)) = true := by
    decide
  obtain ⟨lobby, lobby', hlobby, ⟨hne, hjoin, hmaster⟩, hstep, hnew⟩ :=
    TransitionSystem.exists_step_of_any _ _ hrun
  have hreachable := TransitionSystem.reachable_of_run hlobby
  have hkeeps := h lobby lobby' [120] [99] 2 hreachable hne hjoin hstep
  have hzero := (hkeeps 1 hmaster (by simp)).2 0 hnew
  cases hzero

/-- While the creator is there nobody takes its place. -/
theorem master_kept_iff_creator : ∃ lobby lobby' : Lobby (Fin 2),
    (lobbySystem (Fin 2) [120]).run [.addPlayer [97] 0] = some lobby ∧
      (lobbySystem (Fin 2) [120]).step lobby (.addPlayer [98] 1) = some lobby' ∧
      lobby.KeepsMaster (.addPlayer [98] 1) lobby' := by
  have hrun : ((lobbySystem (Fin 2) [120]).run [.addPlayer [97] 0]).any (fun lobby =>
      decide (0 ∈ lobby.ids ∧
        ((lobbySystem (Fin 2) [120]).step lobby (.addPlayer [98] 1)).isSome)) = true := by
    decide
  obtain ⟨lobby, hlobby, hstate⟩ := (Option.any_eq_true _ _).mp hrun
  obtain ⟨hzero, hsome⟩ := of_decide_eq_true hstate
  obtain ⟨lobby', hstep⟩ := Option.isSome_iff_exists.mp hsome
  refine ⟨lobby, lobby', hlobby, hstep, ?_⟩
  exact (master_kept_iff (TransitionSystem.reachable_of_run hlobby) hstep).mpr fun _ => hzero

end Lobby

end ChatGames
