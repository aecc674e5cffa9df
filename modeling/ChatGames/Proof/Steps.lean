import ChatGames.Server

/-!
# The steps of the server

`Step` lists what one event can do, one constructor for each way through a handler, with the guards
the handler met on that way. Every invariant is proved by cases on it.
-/

namespace ChatGames.Server

variable {Sid : Type} [DecidableEq Sid]

section Updates

variable (s : Server Sid) (S T : Sid) (session : Session) (L L' : LobbyRef) (lobby : Lobby Sid)
  (data : Bytes) (players : List (Player Sid))

@[simp]
theorem setSession_sessions_self : (s.setSession S session).sessions S = session := by
  simp [setSession]

@[simp]
theorem setSession_sessions_of_ne (h : T ≠ S) :
    (s.setSession S session).sessions T = s.sessions T := by
  simp [setSession, h]

@[simp]
theorem setSession_lobbies : (s.setSession S session).lobbies = s.lobbies := rfl

@[simp]
theorem setSession_created : (s.setSession S session).created = s.created := rfl

@[simp]
theorem setSession_registry : (s.setSession S session).registry = s.registry := rfl

omit [DecidableEq Sid] in
@[simp]
theorem setLobby_sessions : (s.setLobby L lobby).sessions = s.sessions := rfl

omit [DecidableEq Sid] in
@[simp]
theorem setLobby_lobbies_self : (s.setLobby L lobby).lobbies L = lobby := by
  simp [setLobby]

omit [DecidableEq Sid] in
@[simp]
theorem setLobby_lobbies_of_ne (h : L' ≠ L) :
    (s.setLobby L lobby).lobbies L' = s.lobbies L' := by
  simp [setLobby, h]

omit [DecidableEq Sid] in
@[simp]
theorem setLobby_created : (s.setLobby L lobby).created = s.created := rfl

omit [DecidableEq Sid] in
@[simp]
theorem setLobby_registry : (s.setLobby L lobby).registry = s.registry := rfl

omit [DecidableEq Sid] in
@[simp]
theorem createLobby_sessions (name : Bytes) : (s.createLobby name).2.sessions = s.sessions := rfl

omit [DecidableEq Sid] in
@[simp]
theorem createLobby_created (name : Bytes) : (s.createLobby name).2.created = s.created + 1 := rfl

omit [DecidableEq Sid] in
@[simp]
theorem createLobby_lobbies_self (name : Bytes) :
    (s.createLobby name).2.lobbies s.created = Lobby.new name := by
  simp [createLobby, setLobby]

omit [DecidableEq Sid] in
@[simp]
theorem createLobby_lobbies_of_ne (name : Bytes) (h : L ≠ s.created) :
    (s.createLobby name).2.lobbies L = s.lobbies L := by
  simp [createLobby, setLobby, h]

/-! Posting to a write strand changes nothing but the queues. -/

@[simp]
theorem sendMessage_lobbies : (s.sendMessage S data).lobbies = s.lobbies := rfl

@[simp]
theorem sendMessage_created : (s.sendMessage S data).created = s.created := rfl

@[simp]
theorem sendMessage_registry : (s.sendMessage S data).registry = s.registry := rfl

@[simp]
theorem sendMessage_sessions : (s.sendMessage S data).sessions T = { s.sessions T with
    sendQueue := (s.sessions T).sendQueue ++ if T = S then [packet data] else [] } := by
  by_cases h : T = S
  · subst h
    rw [sendMessage, setSession_sessions_self, if_pos rfl]
  · rw [sendMessage, setSession_sessions_of_ne _ _ _ _ h, if_neg h, List.append_nil]

def postsTo (players : List (Player Sid)) (T : Sid) (data : Bytes) : List Bytes :=
  (players.filter (·.connection = T)).map fun _ => packet data

@[simp]
theorem sendToPlayers_sessions : (s.sendToPlayers players data).sessions T = { s.sessions T with
    sendQueue := (s.sessions T).sendQueue ++
      if (s.sessions T).alive then postsTo players T data else [] } := by
  induction players generalizing s with
  | nil => simp [sendToPlayers, postsTo]
  | cons player players ih =>
      rw [sendToPlayers, List.foldl_cons, ← sendToPlayers, ih]
      by_cases hT : player.connection = T
      · subst hT
        cases halive : (s.sessions player.connection).alive
        · simp [halive]
        · simp [halive, sendMessage_sessions, postsTo]
      · have hsame : ((if (s.sessions player.connection).alive then
            s.sendMessage player.connection data else s).sessions T) = s.sessions T := by
          split
          · rw [sendMessage_sessions, if_neg (Ne.symm hT), List.append_nil]
          · rfl
        rw [hsame, postsTo, postsTo, List.filter_cons_of_neg (by simpa using hT)]

theorem sendToPlayers_lobbies_created_registry :
    (s.sendToPlayers players data).lobbies = s.lobbies ∧
      (s.sendToPlayers players data).created = s.created ∧
      (s.sendToPlayers players data).registry = s.registry := by
  induction players generalizing s with
  | nil => exact ⟨rfl, rfl, rfl⟩
  | cons player players ih =>
      rw [sendToPlayers, List.foldl_cons, ← sendToPlayers]
      split
      · exact ih (s.sendMessage player.connection data)
      · exact ih s

@[simp]
theorem sendToPlayers_lobbies : (s.sendToPlayers players data).lobbies = s.lobbies :=
  (sendToPlayers_lobbies_created_registry s data players).1

@[simp]
theorem sendToPlayers_created : (s.sendToPlayers players data).created = s.created :=
  (sendToPlayers_lobbies_created_registry s data players).2.1

@[simp]
theorem sendToPlayers_registry : (s.sendToPlayers players data).registry = s.registry :=
  (sendToPlayers_lobbies_created_registry s data players).2.2

end Updates

/-! ### The ways through the handlers -/

def Idle (s : Server Sid) (S : Sid) : Prop :=
  (s.sessions S).alive = true ∧ (s.sessions S).pending = none

variable [Fintype Sid]

inductive Step (s : Server Sid) : Event Sid → Server Sid → Prop
  | createLobby {S : Sid} {playerName name : Bytes} {draws : List Bytes} (hidle : s.Idle S)
      (hname : s.freshName draws = some name) :
      Step s (.message S (.createLobby playerName) draws)
        ((s.createLobby name).2.setSession S { s.sessions S with
          lobby := some s.created
          pending := some (.createLobby playerName) })
  | joinUnknown {S : Sid} {playerName lobbyId : Bytes} {draws : List Bytes} (hidle : s.Idle S)
      (hget : s.getLobby lobbyId = none) :
      Step s (.message S (.joinLobby playerName lobbyId) draws)
        (s.setSession S { s.sessions S with lobby := none })
  | joinLobby {S : Sid} {playerName lobbyId : Bytes} {draws : List Bytes} {L : LobbyRef}
      (hidle : s.Idle S) (hget : s.getLobby lobbyId = some L) :
      Step s (.message S (.joinLobby playerName lobbyId) draws)
        (s.setSession S { s.sessions S with
          lobby := some L
          pending := some (.joinLobby playerName) })
  | leaveLobby {S : Sid} {draws : List Bytes} {L : LobbyRef} {playerId : Nat} {lobby : Lobby Sid}
      (hidle : s.Idle S) (hlobby : (s.sessions S).lobby = some L)
      (hplayer : (s.sessions S).playerId = some playerId)
      (hremove : (s.lobbies L).removePlayer (Lobby.toId playerId) = .ok lobby) :
      Step s (.message S .leaveLobby draws)
        (((s.setLobby L lobby).setSession S { s.sessions S with
          playerId := none
          pending := some .leaveLobby }).sendToPlayers lobby.players (encodeLobbyUpdate lobby))
  | setLobbyLocked {S : Sid} {msg : ClientMessage} {draws : List Bytes} {L : LobbyRef}
      {playerId : Nat} {locked : Bool} (hidle : s.Idle S)
      (hmsg : (msg = .lockLobby ∧ locked = true) ∨ (msg = .unlockLobby ∧ locked = false))
      (hlobby : (s.sessions S).lobby = some L) (hplayer : (s.sessions S).playerId = some playerId)
      (hmaster : (s.lobbies L).isPlayerMaster (Lobby.toId playerId) = true) :
      Step s (.message S msg draws) (s.setLobby L { s.lobbies L with locked := locked })
  | sendMessage {S : Sid} {msg : Bytes} {draws : List Bytes} {L : LobbyRef} {playerId : Nat}
      (hidle : s.Idle S) (hlobby : (s.sessions S).lobby = some L)
      (hplayer : (s.sessions S).playerId = some playerId) :
      Step s (.message S (.sendMessage msg) draws)
        (s.sendToPlayers ((s.lobbies L).players.filter (·.id ≠ playerId))
          (encodeRelayMessage playerId msg))
  | requestLobbyUpdate {S : Sid} {draws : List Bytes} {L : LobbyRef} (hidle : s.Idle S)
      (hlobby : (s.sessions S).lobby = some L) :
      Step s (.message S .requestLobbyUpdate draws)
        (s.setSession S { s.sessions S with
          pending := some (.requestLobbyUpdate (encodeLobbyUpdate (s.lobbies L))) })
  | nothing {S : Sid} {msg : ClientMessage} {draws : List Bytes} (hidle : s.Idle S)
      (hmsg : (s.sessions S).lobby = none ∨ msg = .lockLobby ∨ msg = .unlockLobby) :
      Step s (.message S msg draws) s
  | enterLobby {S : Sid} {playerName : Bytes} {L : LobbyRef} {id : Nat} {lobby : Lobby Sid}
      (hpending : (s.sessions S).pending = some (.createLobby playerName) ∨
        (s.sessions S).pending = some (.joinLobby playerName) ∧ (s.lobbies L).canJoin = true)
      (hlobby : (s.sessions S).lobby = some L)
      (hadd : (s.lobbies L).addPlayer playerName S = .ok (id, lobby)) :
      Step s (.resume S)
        ((((s.setLobby L lobby).setSession S { s.sessions S with
          playerId := some id
          pending := none }).sendMessage S (encodeLobbyJoined lobby.name id)).sendToPlayers
            lobby.players (encodeLobbyUpdate lobby))
  | refuse {S : Sid} {playerName : Bytes} {L : LobbyRef}
      (hpending : (s.sessions S).pending = some (.joinLobby playerName))
      (hlobby : (s.sessions S).lobby = some L) (hjoin : (s.lobbies L).canJoin = false) :
      Step s (.resume S) (s.setSession S { s.sessions S with pending := none })
  | resetLobby {S : Sid} (hpending : (s.sessions S).pending = some .leaveLobby) :
      Step s (.resume S) (s.setSession S { s.sessions S with lobby := none, pending := none })
  | sendUpdate {S : Sid} {wbuf : Bytes}
      (hpending : (s.sessions S).pending = some (.requestLobbyUpdate wbuf)) :
      Step s (.resume S)
        ((s.setSession S { s.sessions S with pending := none }).sendMessage S wbuf)
  | disconnect {S : Sid} (hidle : s.Idle S) :
      Step s (.disconnect S) (s.setSession S { s.sessions S with lobby := none, alive := false })

variable {s s' : Server Sid} {S : Sid} {draws : List Bytes}

theorem step_of_setLobbyLocked (hidle : s.Idle S) {msg : ClientMessage} {locked : Bool}
    (hmsg : (msg = .lockLobby ∧ locked = true) ∨ (msg = .unlockLobby ∧ locked = false))
    (h : s.setLobbyLocked S locked = .ok s') : Step s (.message S msg draws) s' := by
  have hlock : msg = .lockLobby ∨ msg = .unlockLobby := hmsg.imp And.left And.left
  rw [setLobbyLocked] at h
  cases hlobby : (s.sessions S).lobby with
  | none =>
      rw [hlobby] at h
      obtain rfl := Except.ok.inj h
      exact .nothing hidle (Or.inl hlobby)
  | some L =>
      cases hplayer : (s.sessions S).playerId with
      | none => rw [hlobby, hplayer] at h; cases h
      | some playerId =>
          simp only [hlobby, hplayer] at h
          split at h
          · rename_i hmaster
            obtain rfl := Except.ok.inj h
            exact .setLobbyLocked hidle hmsg hlobby hplayer hmaster
          · obtain rfl := Except.ok.inj h
            exact .nothing hidle (Or.inr hlock)

theorem step_of_process (hidle : s.Idle S) {msg : ClientMessage}
    (h : s.process S draws msg = .ok s') : Step s (.message S msg draws) s' := by
  cases msg with
  | createLobby playerName =>
      simp only [process, processCreateLobby] at h
      cases hname : s.freshName draws with
      | none => rw [hname] at h; cases h
      | some name =>
          rw [hname] at h
          obtain rfl := Except.ok.inj h
          exact .createLobby hidle hname
  | joinLobby playerName lobbyId =>
      simp only [process, processJoinLobby] at h
      obtain rfl := Except.ok.inj h
      cases hget : s.getLobby lobbyId with
      | none => exact .joinUnknown hidle hget
      | some L => exact .joinLobby hidle hget
  | leaveLobby =>
      simp only [process, processLeaveLobby] at h
      cases hlobby : (s.sessions S).lobby with
      | none =>
          rw [hlobby] at h
          obtain rfl := Except.ok.inj h
          exact .nothing hidle (Or.inl hlobby)
      | some L =>
          cases hplayer : (s.sessions S).playerId with
          | none => rw [hlobby, hplayer] at h; cases h
          | some playerId =>
              cases hremove : (s.lobbies L).removePlayer (Lobby.toId playerId) with
              | error fault => simp only [hlobby, hplayer, hremove] at h; cases h
              | ok lobby =>
                  simp only [hlobby, hplayer, hremove] at h
                  obtain rfl := Except.ok.inj h
                  have hstep : Step s (.message S .leaveLobby draws) _ :=
                    .leaveLobby hidle hlobby hplayer hremove
                  simpa [sendToAll, hlobby] using hstep
  | lockLobby => exact step_of_setLobbyLocked hidle (Or.inl ⟨rfl, rfl⟩) h
  | unlockLobby => exact step_of_setLobbyLocked hidle (Or.inr ⟨rfl, rfl⟩) h
  | sendMessage msg =>
      simp only [process, processSendMessage] at h
      cases hlobby : (s.sessions S).lobby with
      | none =>
          rw [hlobby] at h
          obtain rfl := Except.ok.inj h
          exact .nothing hidle (Or.inl hlobby)
      | some L =>
          cases hplayer : (s.sessions S).playerId with
          | none => rw [hlobby, hplayer] at h; cases h
          | some playerId =>
              simp only [hlobby, hplayer] at h
              obtain rfl := Except.ok.inj h
              exact .sendMessage hidle hlobby hplayer
  | requestLobbyUpdate =>
      simp only [process, processRequestLobbyUpdate] at h
      obtain rfl := Except.ok.inj h
      cases hlobby : (s.sessions S).lobby with
      | none => exact .nothing hidle (Or.inl hlobby)
      | some L =>
          have hstep : Step s (.message S .requestLobbyUpdate draws) _ :=
            .requestLobbyUpdate hidle hlobby
          simpa [hlobby] using hstep

theorem step_of_enterLobby {L : LobbyRef} {playerName : Bytes}
    (hpending : (s.sessions S).pending = some (.createLobby playerName) ∨
      (s.sessions S).pending = some (.joinLobby playerName) ∧ (s.lobbies L).canJoin = true)
    (hlobby : (s.sessions S).lobby = some L) (h : s.enterLobby S L playerName = .ok s') :
    Step s (.resume S) s' := by
  rw [Server.enterLobby] at h
  cases hadd : (s.lobbies L).addPlayer playerName S with
  | error fault => rw [hadd] at h; cases h
  | ok p =>
      obtain ⟨id, lobby⟩ := p
      simp only [hadd] at h
      obtain rfl := Except.ok.inj h
      have hstep := Step.enterLobby hpending hlobby hadd
      simpa [sendToAll] using hstep

theorem step_of_resumeSection {section_ : Section}
    (hpending : (s.sessions S).pending = some section_)
    (h : s.resumeSection S section_ = .ok s') : Step s (.resume S) s' := by
  cases section_ with
  | createLobby playerName =>
      rw [resumeSection] at h
      cases hlobby : (s.sessions S).lobby with
      | none => rw [hlobby] at h; cases h
      | some L =>
          rw [hlobby] at h
          exact step_of_enterLobby (Or.inl hpending) hlobby h
  | joinLobby playerName =>
      rw [resumeSection] at h
      cases hlobby : (s.sessions S).lobby with
      | none => rw [hlobby] at h; cases h
      | some L =>
          simp only [hlobby] at h
          split at h
          · rename_i hjoin
            exact step_of_enterLobby (Or.inr ⟨hpending, hjoin⟩) hlobby h
          · rename_i hjoin
            obtain rfl := Except.ok.inj h
            have hstep := Step.refuse hpending hlobby (by simpa using hjoin)
            simpa [hlobby] using hstep
  | leaveLobby =>
      obtain rfl := Except.ok.inj h
      exact .resetLobby hpending
  | requestLobbyUpdate wbuf =>
      obtain rfl := Except.ok.inj h
      exact .sendUpdate hpending

/-- **Inversion.** A step that succeeds is one of the ways through the handlers. -/
theorem step_of_ok {e : Event Sid} (h : s.step e = .ok s') : Step s e s' := by
  cases e with
  | message S msg draws =>
      rw [step] at h
      split at h
      · rename_i hidle
        exact step_of_process hidle h
      · cases h
  | resume S =>
      rw [step] at h
      split at h
      · rename_i section_ hpending
        exact step_of_resumeSection hpending h
      · cases h
  | disconnect S =>
      rw [step] at h
      split at h
      · rename_i hidle
        obtain rfl := Except.ok.inj h
        exact .disconnect hidle
      · cases h

/-! ### What a step makes of a lobby -/

inductive LobbyChange (s : Server Sid) (e : Event Sid) (s' : Server Sid) (L : LobbyRef) :
    Lobby Sid → Prop
  | same : LobbyChange s e s' L (s.lobbies L)
  | created {name : Bytes} (hL : L = s.created) (hcreated : s'.created = s.created + 1) :
      LobbyChange s e s' L (Lobby.new name)
  | left {draws : List Bytes} {playerId : Nat} {lobby : Lobby Sid}
      (he : e = .message e.session .leaveLobby draws) (hidle : s.Idle e.session)
      (hlobby : (s.sessions e.session).lobby = some L)
      (hplayer : (s.sessions e.session).playerId = some playerId)
      (hremove : (s.lobbies L).removePlayer (Lobby.toId playerId) = .ok lobby) :
      LobbyChange s e s' L lobby
  | lockSet {playerId : Nat} {locked : Bool} (hidle : s.Idle e.session)
      (hlobby : (s.sessions e.session).lobby = some L)
      (hplayer : (s.sessions e.session).playerId = some playerId)
      (hmaster : (s.lobbies L).isPlayerMaster (Lobby.toId playerId) = true) :
      LobbyChange s e s' L { s.lobbies L with locked := locked }
  | entered {playerName : Bytes} {id : Nat} {lobby : Lobby Sid}
      (hpending : (s.sessions e.session).pending = some (.createLobby playerName) ∨
        (s.sessions e.session).pending = some (.joinLobby playerName) ∧
          (s.lobbies L).canJoin = true)
      (hlobby : (s.sessions e.session).lobby = some L)
      (hsession : (s'.sessions e.session).lobby = some L ∧
        (s'.sessions e.session).playerId = some id ∧ (s'.sessions e.session).pending = none)
      (he : e = .resume e.session)
      (hadd : (s.lobbies L).addPlayer playerName e.session = .ok (id, lobby)) :
      LobbyChange s e s' L lobby

/-- One lobby at most is changed, by the session that holds it or creates it. -/
theorem Step.lobbyChange {e : Event Sid} (h : Step s e s') (L : LobbyRef) :
    LobbyChange s e s' L (s'.lobbies L) := by
  cases h with
  | createLobby hidle hname =>
      by_cases hL : L = s.created
      · subst hL
        simpa using LobbyChange.created rfl (by simp)
      · simpa [hL] using LobbyChange.same
  | @leaveLobby S draws L' playerId lobby hidle hlobby hplayer hremove =>
      by_cases hL : L = L'
      · subst hL
        simpa using LobbyChange.left rfl hidle hlobby hplayer hremove
      · simpa [hL] using LobbyChange.same
  | @setLobbyLocked S msg draws L' playerId locked hidle hmsg hlobby hplayer hmaster =>
      by_cases hL : L = L'
      · subst hL
        simpa using LobbyChange.lockSet hidle hlobby hplayer hmaster
      · simpa [hL] using LobbyChange.same
  | @enterLobby S playerName L' id lobby hpending hlobby hadd =>
      by_cases hL : L = L'
      · subst hL
        simpa using LobbyChange.entered hpending hlobby (by simpa using hlobby) rfl hadd
      · simpa [hL] using LobbyChange.same
  | _ => simpa using LobbyChange.same

theorem Step.idle {msg : ClientMessage} (h : Step s (.message S msg draws) s') : s.Idle S := by
  cases h <;> assumption

/-! ### Faults -/

omit [Fintype Sid] in
theorem fault_of_enterLobby {L : LobbyRef} {playerName : Bytes} {fault : Fault}
    (h : s.enterLobby S L playerName = .error (.fault fault)) : fault = .assertNextPlayerId := by
  rw [Server.enterLobby] at h
  cases hadd : (s.lobbies L).addPlayer playerName S with
  | error fault' =>
      rw [hadd] at h
      obtain rfl : fault' = fault := Stop.fault.inj (Except.error.inj h)
      exact Lobby.addPlayer_eq_error hadd
  | ok p => rw [hadd] at h; cases h

theorem fault_of_process {msg : ClientMessage} {fault : Fault}
    (h : s.process S draws msg = .error (.fault fault)) :
    ∃ L, (s.sessions S).lobby = some L ∧ ∀ id, (s.sessions S).playerId = some id →
      (s.lobbies L).removePlayer (Lobby.toId id) = .error fault := by
  have hlocked {locked : Bool} (h : s.setLobbyLocked S locked = .error (.fault fault)) :
      ∃ L, (s.sessions S).lobby = some L ∧ (s.sessions S).playerId = none := by
    rw [setLobbyLocked] at h
    cases hlobby : (s.sessions S).lobby with
    | none => rw [hlobby] at h; cases h
    | some L =>
        cases hplayer : (s.sessions S).playerId with
        | none => exact ⟨L, rfl, rfl⟩
        | some playerId => simp only [hlobby, hplayer] at h; split at h <;> cases h
  have hempty (h : ∃ L, (s.sessions S).lobby = some L ∧ (s.sessions S).playerId = none) :
      ∃ L, (s.sessions S).lobby = some L ∧ ∀ id, (s.sessions S).playerId = some id →
        (s.lobbies L).removePlayer (Lobby.toId id) = .error fault := by
    obtain ⟨L, hlobby, hnone⟩ := h
    exact ⟨L, hlobby, fun id hid => by rw [hnone] at hid; cases hid⟩
  cases msg with
  | createLobby playerName =>
      rw [process, processCreateLobby] at h
      split at h <;> cases h
  | joinLobby | requestLobbyUpdate => cases h
  | lockLobby | unlockLobby => exact hempty (hlocked h)
  | sendMessage msg =>
      rw [process, processSendMessage] at h
      cases hlobby : (s.sessions S).lobby with
      | none => rw [hlobby] at h; cases h
      | some L =>
          cases hplayer : (s.sessions S).playerId with
          | none => exact ⟨L, rfl, fun _ hid => by cases hid⟩
          | some playerId => simp only [hlobby, hplayer] at h; cases h
  | leaveLobby =>
      rw [process, processLeaveLobby] at h
      cases hlobby : (s.sessions S).lobby with
      | none => rw [hlobby] at h; cases h
      | some L =>
          cases hplayer : (s.sessions S).playerId with
          | none => exact ⟨L, rfl, fun _ hid => by cases hid⟩
          | some playerId =>
              cases hremove : (s.lobbies L).removePlayer (Lobby.toId playerId) with
              | ok lobby => simp only [hlobby, hplayer, hremove] at h; cases h
              | error fault' =>
                  simp only [hlobby, hplayer, hremove] at h
                  obtain rfl : fault' = fault := Stop.fault.inj (Except.error.inj h)
                  refine ⟨L, rfl, fun id hid => ?_⟩
                  obtain rfl := Option.some.inj hid
                  exact hremove

/-- A step is at fault only where a lobby is full, or where a session between handlers has a lobby
and no usable id for it. -/
theorem fault_cases {e : Event Sid} {fault : Fault} (h : s.step e = .error (.fault fault)) :
    fault = .assertNextPlayerId ∨
      s.Idle e.session ∧ ∃ L, (s.sessions e.session).lobby = some L ∧
        ∀ id, (s.sessions e.session).playerId = some id →
          (s.lobbies L).removePlayer (Lobby.toId id) = .error fault := by
  cases e with
  | message S msg draws =>
      rw [step] at h
      split at h
      · rename_i hidle
        exact Or.inr ⟨hidle, fault_of_process h⟩
      · cases h
  | resume S =>
      rw [step] at h
      split at h
      · rename_i section_ hpending
        apply Or.inl
        cases section_ with
        | createLobby playerName =>
            rw [resumeSection] at h
            split at h
            · exact fault_of_enterLobby h
            · cases h
        | joinLobby playerName =>
            rw [resumeSection] at h
            split at h
            · split at h
              · exact fault_of_enterLobby h
              · cases h
            · cases h
        | leaveLobby | requestLobbyUpdate => cases h
      · cases h
  | disconnect S =>
      rw [step] at h
      split at h <;> cases h

/-! ### Steps of the system -/

theorem step_of_system {e : Event Sid} (h : (serverSystem Sid).step s e = some s') :
    Step s e s' := by
  change (s.step e).toOption = some s' at h
  cases hstep : s.step e with
  | error stop => rw [hstep] at h; cases h
  | ok s₁ =>
      rw [hstep] at h
      obtain rfl : s₁ = s' := Option.some.inj h
      exact step_of_ok hstep

end ChatGames.Server
