import ChatGames.Proof.Membership
import ChatGames.Proof.Posts

/-!
# Departed connections

Only `processLeaveLobby` takes an entry out of a players list. Losing the connection drops the
session's `lobby_` and nothing else, so an entry of a destroyed session stays wherever somebody else
keeps the lobby alive. It then counts, is listed, and can stand first, where no connected player can
act for it.
-/

namespace ChatGames.Server

section Definitions

variable {Sid : Type}

/-- The entries of a lobby whose session object exists. -/
def connected (s : Server Sid) (L : LobbyRef) : Lobby Sid :=
  { s.lobbies L with
    players := (s.lobbies L).players.filter fun player => (s.sessions player.connection).alive }

/-- No live lobby has an entry of a destroyed session, and so none counts one, lists one or has one
for its master. -/
structure Departed (s : Server Sid) : Prop where
  gone : ∀ S L, (s.sessions S).alive = false → s.Live L → ¬s.Occurs S L
  counted : ∀ L, s.Live L → (s.lobbies L).players.length = (s.connected L).players.length
  listed : ∀ L, s.Live L → encodeLobbyUpdate (s.lobbies L) = encodeLobbyUpdate (s.connected L)
  master : ∀ L id, s.Live L → (s.lobbies L).isPlayerMaster id = true →
    ∃ S, (s.sessions S).alive = true ∧ s.EntryAt S L id

/-- Nobody else keeps a lobby alive in which the session that loses its connection has an entry. -/
def LeavesFirst (s : Server Sid) : Event Sid → Prop
  | .disconnect S => ∀ L, s.Occurs S L → ∀ T, T ≠ S → (s.sessions T).lobby ≠ some L
  | _ => True

/-- The first half of `Departed`. -/
def Gone (s : Server Sid) : Prop :=
  ∀ S L, (s.sessions S).alive = false → s.Live L → ¬s.Occurs S L

theorem Gone.connected_eq {s : Server Sid} (h : s.Gone) {L : LobbyRef} (hlive : s.Live L) :
    s.connected L = s.lobbies L := by
  have hall : (s.lobbies L).players.filter
      (fun player => (s.sessions player.connection).alive) = (s.lobbies L).players := by
    apply List.filter_eq_self.mpr
    intro player hplayer
    by_contra halive
    exact h player.connection L (Bool.eq_false_iff.mpr halive) hlive
      ⟨player.id, player, hplayer, rfl, rfl⟩
  rw [connected, hall]

theorem departed_iff_gone {s : Server Sid} : s.Departed ↔ s.Gone := by
  refine ⟨Departed.gone, fun hgone => ⟨hgone, ?_, ?_, ?_⟩⟩
  · intro L hlive
    rw [hgone.connected_eq hlive]
  · intro L hlive
    rw [hgone.connected_eq hlive]
  · intro L id hlive hmaster
    rw [Lobby.isPlayerMaster] at hmaster
    split at hmaster
    · cases hmaster
    · rename_i player others hplayers
      have hplayer : player ∈ (s.lobbies L).players := hplayers ▸ List.mem_cons_self
      have hentry : s.EntryAt player.connection L id :=
        ⟨player, hplayer, rfl, by simpa using hmaster⟩
      refine ⟨player.connection, ?_, hentry⟩
      by_contra halive
      exact hgone player.connection L (Bool.eq_false_iff.mpr halive) hlive ⟨id, hentry⟩

end Definitions

variable {Sid : Type} [DecidableEq Sid] [Fintype Sid] {s s' : Server Sid} {e : Event Sid}

/-! ### One step -/

theorem Step.alive_cases (h : Step s e s') (T : Sid) :
    (s'.sessions T).alive = (s.sessions T).alive ∨ e = .disconnect T := by
  by_cases hT : T = e.session
  · subst hT
    cases h with
    | disconnect => exact Or.inr rfl
    | _ => simp
  · exact Or.inl (h.others hT).2.2.2

/-- Nobody is admitted without a session object. -/
theorem Step.occurs_of_dead (h : Step s e s') (hinv : s.Inv) {T : Sid} {L : LobbyRef}
    (hdead : (s'.sessions T).alive = false) (hoccurs : s'.Occurs T L) : s.Occurs T L := by
  obtain ⟨id, player, hplayer, hT, rfl⟩ := hoccurs
  have hchange := h.lobbyChange L
  have halive := h.alive_cases T
  generalize s'.lobbies L = lobby at hchange hplayer
  cases hchange with
  | same | lockSet => exact ⟨player.id, player, hplayer, hT, rfl⟩
  | created => exact absurd hplayer List.not_mem_nil
  | left he hidle hlobby hid hremove =>
      obtain ⟨rfl, -⟩ := Lobby.removePlayer_eq_ok (hinv.valid L) hremove
      exact ⟨player.id, player, (List.mem_filter.mp hplayer).1, hT, rfl⟩
  | entered hpending hlobby hsession he hadd =>
      have hadded := (hinv.valid L).added hadd
      rcases List.mem_cons.mp (hadded.perm.mem_iff.mp hplayer) with rfl | hold
      · -- an admission resumes a handler, and a session with a handler to resume is alive
        have hbusy : (s.sessions e.session).pending ≠ none := by
          rcases hpending with hpending | ⟨hpending, -⟩ <;> simp [hpending]
        subst hT
        rcases halive with halive | hdisconnect
        · rw [halive, hinv.busy_alive _ hbusy] at hdead
          cases hdead
        · rw [he] at hdisconnect
          cases hdisconnect
      · exact ⟨player.id, player, hold, hT, rfl⟩

theorem Step.gone_iff (h : Step s e s') (hinv : s.Inv) (hgone : s.Gone) :
    s'.Gone ↔ s.LeavesFirst e := by
  constructor
  · intro hgone'
    cases h with
    | @disconnect S hidle =>
        intro L hoccurs T hT hlobby
        have hlive : (s.setSession S { s.sessions S with lobby := none, alive := false }).Live L :=
          ⟨T, by simpa [hT] using hlobby⟩
        exact hgone' S L (by simp) hlive hoccurs
    | _ => trivial
  · intro hleaves T L hdead hlive hoccurs
    have hold := h.occurs_of_dead hinv hdead hoccurs
    have hlive' : s.Live L := by
      obtain ⟨id, hentry⟩ := hold
      exact h.live_of_entryAt hinv hentry hlive
    rcases h.alive_cases T with halive | rfl
    · exact hgone T L (halive ▸ hdead) hlive' hold
    · obtain ⟨U, hU⟩ := hlive
      have hne : U ≠ T := by
        rintro rfl
        cases h
        simp at hU
      exact hleaves L hold U hne (by rwa [(h.others hne).1] at hU)

/-! ### Unlocking -/

/-- The handler of the session that has not finished, if there is one, does. -/
def Finishes (s : Server Sid) (S : Sid) (s' : Server Sid) : Prop :=
  (s.sessions S).pending = none ∧ s' = s ∨ (serverSystem Sid).step s (.resume S) = some s'

/-- The master of the lobby is connected, and a single `unlockLobby` of it, after the handler it may
be in, unlocks the lobby. -/
def Unlockable (s : Server Sid) (L : LobbyRef) : Prop :=
  ∃ S id s₁ s₂, (s.sessions S).alive = true ∧ s.EntryAt S L id ∧
    (s.lobbies L).isPlayerMaster id = true ∧ s.Finishes S s₁ ∧
    (serverSystem Sid).step s₁ (.message S .unlockLobby []) = some s₂ ∧
    (s₂.lobbies L).locked = false

theorem step_unlockLobby {S : Sid} {L : LobbyRef} {id : Nat} (hidle : s.Idle S)
    (hlobby : (s.sessions S).lobby = some L) (hid : (s.sessions S).playerId = some id)
    (hmaster : (s.lobbies L).isPlayerMaster (Lobby.toId id) = true) :
    (serverSystem Sid).step s (.message S .unlockLobby []) =
      some (s.setLobby L { s.lobbies L with locked := false }) := by
  have hprocess : s.step (.message S .unlockLobby []) = s.process S [] .unlockLobby :=
    if_pos hidle
  change (s.step _).toOption = _
  rw [hprocess, process, setLobbyLocked, hlobby, hid]
  simp [hmaster, Except.toOption]

/-- A session that has something left to do in a locked lobby where it stands, other than entering
it for the first time or leaving it, gets it done and stands there still. -/
theorem exists_idle {S : Sid} {L : LobbyRef} {id : Nat} (hinv : s.Inv)
    (halive : (s.sessions S).alive = true) (hlocked : (s.lobbies L).locked = true)
    (hlobby : (s.sessions S).lobby = some L) (hid : (s.sessions S).playerId = some id)
    (hoccurs : s.Occurs S L) :
    ∃ s', s.Finishes S s' ∧ s'.Idle S ∧ (s'.sessions S).lobby = some L ∧
      (s'.sessions S).playerId = some id ∧ s'.lobbies L = s.lobbies L := by
  cases hpending : (s.sessions S).pending with
  | none => exact ⟨s, Or.inl ⟨hpending, rfl⟩, ⟨halive, hpending⟩, hlobby, hid, rfl⟩
  | some section_ =>
      have hfinishes {s' : Server Sid} (hresume : s.resumeSection S section_ = .ok s') :
          s.Finishes S s' := by
        refine Or.inr ?_
        change (s.step _).toOption = _
        rw [step, hpending]
        simp [hresume, Except.toOption]
      cases section_ with
      | createLobby playerName =>
          exact absurd hoccurs (hinv.creator_notMem S L ⟨hlobby, playerName, hpending⟩)
      | leaveLobby =>
          rw [hinv.leaver S hpending] at hid
          cases hid
      | joinLobby playerName =>
          have hjoin : (s.lobbies L).canJoin = false := by simp [Lobby.canJoin, hlocked]
          refine ⟨s.setSession S { s.sessions S with pending := none }, hfinishes ?_, ?_, ?_, ?_,
            ?_⟩
          · simp [resumeSection, hlobby, hjoin]
          · simpa [Idle] using halive
          · simpa using hlobby
          · simpa using hid
          · simp
      | requestLobbyUpdate wbuf =>
          refine ⟨_, hfinishes rfl, ?_, ?_, ?_, ?_⟩
          · simpa [Idle] using halive
          · simpa using hlobby
          · simpa using hid
          · simp

theorem Departed.unlockable (h : s.Departed) (hinv : s.Inv) (hagrees : s.Agrees) {L : LobbyRef}
    (hlive : s.Live L) (hlocked : (s.lobbies L).locked = true)
    (hmember : ∃ T, s.Occurs T L) : s.Unlockable L := by
  obtain ⟨id, hmaster⟩ : ∃ id, (s.lobbies L).isPlayerMaster id = true := by
    obtain ⟨T, id, player, hplayer, -⟩ := hmember
    cases hplayers : (s.lobbies L).players with
    | nil => simp [hplayers] at hplayer
    | cons first others => exact ⟨first.id, by simp [Lobby.isPlayerMaster, hplayers]⟩
  obtain ⟨S, halive, hentry⟩ := h.master L id hlive hmaster
  obtain ⟨hlobby, hid⟩ := hagrees S halive L id hlive hentry
  obtain ⟨s₁, hfinishes, hidle, hlobby₁, hid₁, hsame⟩ :=
    exists_idle hinv halive hlocked hlobby hid ⟨id, hentry⟩
  have hunlock := step_unlockLobby hidle hlobby₁ hid₁ (by
    rwa [hsame, hinv.toId_eq hentry])
  exact ⟨S, id, s₁, _, halive, hentry, hmaster, hfinishes, hunlock, by simp⟩

/-! ### Runs -/

omit [DecidableEq Sid] [Fintype Sid] in
theorem gone_init : (init : Server Sid).Gone := fun _ _ hdead => by cases hdead

/-- **Departed connections.** Throughout a run no live lobby has anything of a destroyed session
exactly when every connection that is lost has left the lobbies which others keep alive. When the
steps also keep the two sides of membership in agreement, a locked lobby with members in it has a
master that can unlock it. -/
theorem departed_iff (events : List (Event Sid)) :
    ((∀ past, past <+: events → ∀ s, (serverSystem Sid).run past = some s → s.Departed) ↔
        ∀ past e, past ++ [e] <+: events → ∀ s s', (serverSystem Sid).run past = some s →
          (serverSystem Sid).step s e = some s' → s.LeavesFirst e) ∧
      ∀ s, (serverSystem Sid).ReachableWhile
          (fun s e => s.LeavesFirst e ∧ s.KeepsMembership e) s →
        ∀ L, s.Live L → (s.lobbies L).locked = true → (∃ T, s.Occurs T L) → s.Unlockable L := by
  constructor
  · simp only [departed_iff_gone]
    exact TransitionSystem.forall_state_iff (I := Inv) (fun s => inv_of_reachable) gone_init
      (fun s e s' hinv hgone hstep => (step_of_system hstep).gone_iff hinv hgone) events
  · intro s hs L hlive hlocked hmember
    have hkept : s.Inv ∧ s.Gone ∧ s.Agrees := by
      refine inv_and_of_reachableWhile (P := fun s => s.Gone ∧ s.Agrees)
        ⟨gone_init, uniqueMembership_init.agrees⟩ ?_ hs
      intro s s' e hstep hinv hold hcond
      exact ⟨(hstep.gone_iff hinv hold.1).mpr hcond.1,
        (hstep.agrees_iff_keepsMembership hinv hold.2).mpr hcond.2⟩
    exact (departed_iff_gone.mpr hkept.2.1).unlockable hkept.1 hkept.2.2 hlive hlocked hmember

/-- The master locks its lobby and loses its connection. The other player is left in a lobby whose
master is the destroyed session. -/
theorem not_departed : ¬∀ (events : List (Event (Fin 2))) (s : Server (Fin 2)),
    (serverSystem (Fin 2)).run events = some s → s.Departed := by
  intro h
  have hrun : ((serverSystem (Fin 2)).run [.message 0 (.createLobby [97]) [[120]], .resume 0,
      .message 1 (.joinLobby [98] [120]) [], .resume 1, .message 0 .lockLobby [],
      .disconnect 0]).any (fun s => decide ((s.sessions 0).alive = false ∧ s.Live 0 ∧
        s.Occurs 0 0)) = true := by
    decide
  obtain ⟨s, hs, hstate⟩ := (Option.any_eq_true _ _).mp hrun
  obtain ⟨hdead, hlive, hoccurs⟩ := of_decide_eq_true hstate
  exact (h _ s hs).gone 0 0 hdead hlive hoccurs

end ChatGames.Server
