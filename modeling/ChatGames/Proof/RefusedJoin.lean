import ChatGames.Proof.Posts

/-!
# Refused joins

`processJoinLobby` stores the result of the lookup in `lobby_` before it knows whether the session
can join. When it cannot, nothing else has been touched: a refused join changes nothing exactly when
the session held what the lookup returned, and otherwise what changes is `lobby_`.
-/

namespace ChatGames.Server

section Definitions

variable {Sid : Type} [DecidableEq Sid] [Fintype Sid]

/-- All of `processJoinLobby`, with nobody coming in between. -/
def handleJoinLobby (s : Server Sid) (S : Sid) (playerName lobbyId : Bytes) :
    Except Stop (Server Sid) := do
  let s ← s.step (.message S (.joinLobby playerName lobbyId) [])
  match (s.sessions S).pending with
  | some section_ => s.resumeSection S section_
  | none => .ok s

omit [DecidableEq Sid] in
/-- The name is unknown, or its lobby is dead, locked or full. -/
def Refuses (s : Server Sid) (lobbyId : Bytes) : Prop :=
  ∀ L, s.getLobby lobbyId = some L → (s.lobbies L).canJoin = false

omit [DecidableEq Sid] [Fintype Sid] in
/-- Nothing of what a refused join may not touch is different. -/
structure Unchanged (s s' : Server Sid) (S : Sid) : Prop where
  lobby : (s'.sessions S).lobby = (s.sessions S).lobby
  playerId : (s'.sessions S).playerId = (s.sessions S).playerId
  lobbies : ∀ L, (s'.lobbies L).players = (s.lobbies L).players ∧
    (s'.lobbies L).locked = (s.lobbies L).locked
  live : ∀ L, s'.Live L ↔ s.Live L
  posted : ∀ T, (s'.sessions T).sendQueue = (s.sessions T).sendQueue

end Definitions

variable {Sid : Type} [DecidableEq Sid] [Fintype Sid] {s : Server Sid} {S : Sid}
  {playerName lobbyId : Bytes}

omit [Fintype Sid] in
theorem setSession_lobby_eq (s : Server Sid) (S : Sid) (target : Option LobbyRef)
    (hlobby : (s.sessions S).lobby = target) :
    s.setSession S { s.sessions S with lobby := target } = s := by
  subst hlobby
  simp [setSession]

/-- What a refused join comes to: `lobby_` is what the lookup returned. -/
theorem handleJoinLobby_of_refuses (hidle : s.Idle S) (hrefuses : s.Refuses lobbyId) :
    s.handleJoinLobby S playerName lobbyId =
      .ok (s.setSession S { s.sessions S with lobby := s.getLobby lobbyId }) := by
  have hstep : s.step (.message S (.joinLobby playerName lobbyId) []) =
      .ok (s.processJoinLobby S playerName lobbyId) := if_pos hidle
  rw [handleJoinLobby, hstep]
  cases hget : s.getLobby lobbyId with
  | none => simp [processJoinLobby, hget, hidle.2, bind, Except.bind]
  | some L =>
      have hjoin := hrefuses L hget
      simp [processJoinLobby, hget, resumeSection, hjoin, hidle.2, bind, Except.bind, setSession]

omit [DecidableEq Sid] [Fintype Sid] in
theorem unchanged_refl (s : Server Sid) (S : Sid) : s.Unchanged s S :=
  ⟨rfl, rfl, fun _ => ⟨rfl, rfl⟩, fun _ => Iff.rfl, fun _ => rfl⟩

/-- **Refused joins.** A refused join completes, and changes nothing exactly when the session's
`lobby_` was what the lookup returns: null for a name that leads nowhere, or else the very lobby
that refuses. -/
theorem refusedJoin_unchanged_iff (hidle : s.Idle S) (playerName : Bytes)
    (hrefuses : s.Refuses lobbyId) :
    ∃ s', s.handleJoinLobby S playerName lobbyId = .ok s' ∧
      (s.Unchanged s' S ↔ (s.sessions S).lobby = s.getLobby lobbyId) := by
  refine ⟨_, handleJoinLobby_of_refuses hidle hrefuses, fun hsame => ?_, fun hlobby => ?_⟩
  · simpa using hsame.lobby.symm
  · rw [setSession_lobby_eq s S _ hlobby]
    exact unchanged_refl s S

/-- A session that a locked lobby has refused already is refused again. -/
theorem refusedJoin_again : ∃ s s' : Server (Fin 2), s.Refuses [120] ∧
    s.handleJoinLobby 1 [98] [120] = .ok s' ∧ s.Unchanged s' 1 := by
  have hrun : ((serverSystem (Fin 2)).run [.message 0 (.createLobby [97]) [[120]], .resume 0,
      .message 0 .lockLobby [], .message 1 (.joinLobby [98] [120]) [], .resume 1]).any (fun s =>
        decide ((s.sessions 1).alive = true ∧ (s.sessions 1).pending = none ∧
          s.getLobby [120] = some 0 ∧ (s.lobbies 0).canJoin = false ∧
          (s.sessions 1).lobby = some 0)) = true := by
    decide
  obtain ⟨s, -, hstate⟩ := (Option.any_eq_true _ _).mp hrun
  obtain ⟨halive, hpending, hget, hjoin, hlobby⟩ := of_decide_eq_true hstate
  have hrefuses : s.Refuses [120] := fun L hL => by
    obtain rfl : 0 = L := Option.some.inj (hget.symm.trans hL)
    exact hjoin
  obtain ⟨s', hs', hiff⟩ :=
    refusedJoin_unchanged_iff ⟨halive, hpending⟩ [98] hrefuses
  exact ⟨s, s', hrefuses, hs', hiff.mpr (hlobby.trans hget.symm)⟩

/-- A member of one lobby is told that the name it wants to join is unknown, and is a member of none
as far as its session knows. -/
theorem not_refusedJoin_unchanged : ¬∀ (events : List (Event (Fin 2))) (s s' : Server (Fin 2))
    (S : Fin 2) (playerName lobbyId : Bytes), (serverSystem (Fin 2)).run events = some s →
      s.Idle S → s.Refuses lobbyId → s.handleJoinLobby S playerName lobbyId = .ok s' →
        s.Unchanged s' S := by
  intro h
  have hrun : ((serverSystem (Fin 2)).run [.message 0 (.createLobby [97]) [[120]],
      .resume 0]).any (fun s => decide ((s.sessions 0).alive = true ∧
        (s.sessions 0).pending = none ∧ s.getLobby [121] = none ∧
        (s.sessions 0).lobby = some 0)) = true := by
    decide
  obtain ⟨s, hs, hstate⟩ := (Option.any_eq_true _ _).mp hrun
  obtain ⟨halive, hpending, hget, hlobby⟩ := of_decide_eq_true hstate
  have hrefuses : s.Refuses [121] := fun L hL => by rw [hget] at hL; cases hL
  have hsame := h _ s _ 0 [97] [121] hs ⟨halive, hpending⟩ hrefuses
    (handleJoinLobby_of_refuses ⟨halive, hpending⟩ hrefuses)
  have hgone := hsame.lobby
  rw [hlobby, hget, setSession_sessions_self] at hgone
  cases hgone

end ChatGames.Server
