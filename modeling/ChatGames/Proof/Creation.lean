import ChatGames.Proof.Invariant

/-!
# Creating a lobby

A lobby can be found by name as soon as it is registered, and its creator adds itself only later and
without asking `canJoin`. If nobody is admitted in between, the creator is the first player and the
master of an open, empty lobby.
-/

namespace ChatGames.Server

section Definitions

variable {Sid : Type}

/-- What the session does next is to call `addPlayer` on the lobby. -/
def AddsPlayer (s : Server Sid) (S : Sid) (L : LobbyRef) : Prop :=
  s.Creating S L ∨ s.Joining S ∧ (s.sessions S).lobby = some L ∧ (s.lobbies L).canJoin = true

variable [DecidableEq Sid] [Fintype Sid]

structure CreatorFirst (s : Server Sid) : Prop where
  /-- Whoever is added is added to an unlocked lobby that has room. -/
  adds_open : ∀ S L, s.AddsPlayer S L →
    (s.lobbies L).locked = false ∧ (s.lobbies L).players.length < Lobby.maxPlayers
  /-- The creator is added first, under id 0, and is the master then. -/
  first : ∀ S L, s.Creating S L → (s.lobbies L).players = [] ∧
    ∃ s', (serverSystem Sid).step s (.resume S) = some s' ∧
      (s'.sessions S).playerId = some 0 ∧ (s'.lobbies L).isPlayerMaster 0 = true

/-- Nobody is admitted to a lobby whose creator is still on its way into it. -/
def WaitsForCreator (s : Server Sid) : Event Sid → Prop
  | .resume S => s.Joining S → ∀ L ∈ (s.sessions S).lobby, (s.lobbies L).canJoin = true →
      ∀ T, ¬s.Creating T L
  | .message _ _ _ | .disconnect _ => True

instance (s : Server Sid) (e : Event Sid) : Decidable (s.WaitsForCreator e) :=
  match e with
  | .resume S => inferInstanceAs <| Decidable <| s.Joining S → ∀ L ∈ (s.sessions S).lobby,
      (s.lobbies L).canJoin = true → ∀ T, ¬s.Creating T L
  | .message _ _ _ | .disconnect _ => inferInstanceAs (Decidable True)

omit [DecidableEq Sid] [Fintype Sid] in
def CreatingFresh (s : Server Sid) : Prop :=
  ∀ S L, s.Creating S L → (s.lobbies L).players = [] ∧ (s.lobbies L).locked = false

end Definitions

variable {Sid : Type} [DecidableEq Sid] [Fintype Sid] {s s' : Server Sid} {e : Event Sid}

/-! ### One step -/

theorem Step.creatingFresh (h : Step s e s') (hinv : s.Inv) (hfresh : s.CreatingFresh)
    (hcond : s.WaitsForCreator e) : s'.CreatingFresh := by
  intro T L hT
  rcases h.creating_cases hT with ⟨hold, hne⟩ | ⟨-, -, name, hnew⟩
  · obtain ⟨hplayers, hlocked⟩ := hfresh T L hold
    have hchange := h.lobbyChange L
    generalize s'.lobbies L = lobby at hchange
    cases hchange with
    | same => exact ⟨hplayers, hlocked⟩
    | created => exact ⟨rfl, rfl⟩
    | left _ _ _ _ hremove =>
        obtain ⟨rfl, -⟩ := Lobby.removePlayer_eq_ok (hinv.valid L) hremove
        exact ⟨by simp [hplayers], hlocked⟩
    | lockSet _ _ _ hmaster => simp [Lobby.isPlayerMaster, hplayers] at hmaster
    | @entered playerName id lobby hpending hlobby hsession he hadd =>
        rcases hpending with hpending | ⟨hpending, hjoin⟩
        · exact absurd (hinv.creator_unique T _ L hold ⟨hlobby, playerName, hpending⟩) hne
        · rw [he] at hcond
          exact absurd hold (hcond ⟨playerName, hpending⟩ L hlobby hjoin T)
  · rw [hnew]
    exact ⟨rfl, rfl⟩

omit [DecidableEq Sid] [Fintype Sid] in
theorem addPlayer_of_empty {lobby lobby' : Lobby Sid} {name : Bytes} {S : Sid} {id : Nat}
    (hvalid : lobby.Valid) (hplayers : lobby.players = [])
    (hadd : lobby.addPlayer name S = .ok (id, lobby')) :
    id = 0 ∧ lobby'.isPlayerMaster 0 = true := by
  have hadded := hvalid.added hadd
  have hid : id = 0 := by
    apply Nat.le_zero.mp
    apply hadded.least.2
    simp [Lobby.ids, hplayers]
  have hperm := hadded.perm
  rw [hplayers] at hperm
  subst hid
  exact ⟨rfl, by simp [Lobby.isPlayerMaster, List.perm_singleton.mp hperm]⟩

theorem CreatingFresh.creatorFirst (hfresh : s.CreatingFresh) (hinv : s.Inv) :
    s.CreatorFirst where
  adds_open S L hadds := by
    rcases hadds with hcreating | ⟨-, -, hjoin⟩
    · obtain ⟨hplayers, hlocked⟩ := hfresh S L hcreating
      rw [hplayers]
      exact ⟨hlocked, by simp [Lobby.maxPlayers]⟩
    · simpa [Lobby.canJoin] using hjoin
  first S L hcreating := by
    obtain ⟨hplayers, -⟩ := hfresh S L hcreating
    obtain ⟨hlobby, playerName, hpending⟩ := hcreating
    obtain ⟨id, lobby, hadd⟩ := (hinv.valid L).exists_addPlayer
      (by simp [hplayers, Lobby.maxPlayers]) playerName S
    obtain ⟨rfl, hmaster⟩ := addPlayer_of_empty (hinv.valid L) hplayers hadd
    refine ⟨hplayers, ?_⟩
    have hstep : s.step (.resume S) = s.enterLobby S L playerName := by
      simp [step, hpending, resumeSection, hlobby]
    change ∃ s', (s.step (.resume S)).toOption = some s' ∧ _
    rw [hstep, enterLobby, hadd]
    exact ⟨_, rfl, by simp [sendToAll], by simpa [sendToAll] using hmaster⟩

/-! ### Runs -/

omit [DecidableEq Sid] [Fintype Sid] in
theorem creatingFresh_init : (init : Server Sid).CreatingFresh := by
  intro S L hcreating
  cases hcreating.1

/-- **Creation.** In a run in which nobody is admitted to a lobby before its creator, every creator
is the first player of its lobby, and players are only added to open lobbies with room. -/
theorem creatorFirst_of_reachableWhile (h : (serverSystem Sid).ReachableWhile WaitsForCreator s) :
    s.CreatorFirst := by
  obtain ⟨hinv, hfresh⟩ := inv_and_of_reachableWhile creatingFresh_init Step.creatingFresh h
  exact hfresh.creatorFirst hinv

/-- Another session has found the lobby by its name and waits for its mutex. -/
theorem creatorFirst_race : ∃ s : Server (Fin 2), s.Creating 0 0 ∧
    (s.sessions 1).pending = some (.joinLobby [98]) ∧ s.CreatorFirst := by
  have hrun : ((serverSystem (Fin 2)).runWhile WaitsForCreator
      [.message 0 (.createLobby [97]) [[120]], .message 1 (.joinLobby [98] [120]) []]).any (fun s =>
        decide (s.Creating 0 0 ∧ (s.sessions 1).pending = some (.joinLobby [98]))) = true := by
    decide
  obtain ⟨s, hs, hstate⟩ := (Option.any_eq_true _ _).mp hrun
  obtain ⟨hcreating, hpending⟩ := of_decide_eq_true hstate
  exact ⟨s, hcreating, hpending,
    creatorFirst_of_reachableWhile (TransitionSystem.reachableWhile_of_runWhile hs)⟩

/-- The other session gets the mutex first, and id 0. -/
theorem not_creatorFirst : ¬∀ (events : List (Event (Fin 2))) (s : Server (Fin 2)),
    (serverSystem (Fin 2)).run events = some s → s.CreatorFirst := by
  intro h
  have hrun : ((serverSystem (Fin 2)).run [.message 0 (.createLobby [97]) [[120]],
      .message 1 (.joinLobby [98] [120]) [], .resume 1]).any (fun s =>
        decide (s.Creating 0 0 ∧ (s.lobbies 0).players ≠ [])) = true := by
    decide
  obtain ⟨s, hs, hstate⟩ := (Option.any_eq_true _ _).mp hrun
  obtain ⟨hcreating, hplayers⟩ := of_decide_eq_true hstate
  exact hplayers ((h _ s hs).first 0 0 hcreating).1

end ChatGames.Server
