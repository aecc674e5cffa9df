import ChatGames.Proof.Posts

/-!
# Authority

Locking, leaving and sending trust the pair of `lobby_` and `playerId`. A refused join overwrites
the first and leaves the second, so a session that was a member elsewhere passes for the player of
that id in the lobby that refused it. As long as no join is refused to a session that still has a
`playerId`, what a session does to a lobby it does as the player it is there.
-/

namespace ChatGames.Server

section Definitions

variable {Sid : Type}

def MemberAs (s : Server Sid) (S : Sid) (L : LobbyRef) (id : Nat) : Prop :=
  (s.sessions S).playerId = some id ∧ s.EntryAt S L id

/-- Whatever a step does to a lobby, its session does as a member: it changes the lock as the one of
the lowest id, removes nobody but itself, and relays under its own id to others of its lobby. -/
structure Authorized (s : Server Sid) (e : Event Sid) (s' : Server Sid) : Prop where
  locked : ∀ L, (s'.lobbies L).locked ≠ (s.lobbies L).locked → ∃ id, s.MemberAs e.session L id ∧
    ∀ player ∈ (s.lobbies L).players, id ≤ player.id
  removed : ∀ L, ∀ player ∈ (s.lobbies L).players, player ∉ (s'.lobbies L).players →
    player.connection = e.session ∧ s.MemberAs e.session L player.id
  relayed : ∀ T, ∀ frame ∈ s.posted s' T, IsRelay frame → ∃ L id, s.MemberAs e.session L id ∧
    s.Occurs T L ∧ relayTag frame = some (UInt8.ofNat id)

/-- Whoever has a lobby and an id, and is not about to change them, is that player. -/
def Sound (s : Server Sid) : Prop :=
  ∀ S, s.Settled S → ∀ L id, (s.sessions S).lobby = some L → (s.sessions S).playerId = some id →
    s.EntryAt S L id

variable [DecidableEq Sid]

/-- No join is refused to a session with a `playerId`, unless it is that player of the lobby. -/
def KeepsAuthority (s : Server Sid) : Event Sid → Prop
  | .resume S => s.Joining S → ∀ L ∈ (s.sessions S).lobby, (s.lobbies L).canJoin = false →
      ∀ id ∈ (s.sessions S).playerId, s.EntryAt S L id
  | .message _ _ _ | .disconnect _ => True

instance (s : Server Sid) (e : Event Sid) : Decidable (s.KeepsAuthority e) :=
  match e with
  | .resume S => inferInstanceAs <| Decidable <| s.Joining S → ∀ L ∈ (s.sessions S).lobby,
      (s.lobbies L).canJoin = false → ∀ id ∈ (s.sessions S).playerId, s.EntryAt S L id
  | .message _ _ _ | .disconnect _ => inferInstanceAs (Decidable True)

end Definitions

variable {Sid : Type} [DecidableEq Sid] [Fintype Sid] {s s' : Server Sid} {e : Event Sid}

omit [DecidableEq Sid] [Fintype Sid] in
theorem Sound.memberAs (h : s.Sound) {S : Sid} (hidle : s.Idle S) {L : LobbyRef} {id : Nat}
    (hlobby : (s.sessions S).lobby = some L) (hplayer : (s.sessions S).playerId = some id) :
    s.MemberAs S L id :=
  ⟨hplayer, h S hidle.settled L id hlobby hplayer⟩

/-! ### What a member does -/

theorem Step.authorized (h : Step s e s') (hinv : s.Inv) (hsound : s.Sound) :
    Authorized s e s' where
  locked L hlocked := by
    have hchange := h.lobbyChange L
    generalize s'.lobbies L = lobby at hchange hlocked
    cases hchange with
    | same => exact absurd rfl hlocked
    | created hL => exact absurd (by rw [hinv.uncreated L hL.ge]; rfl) hlocked
    | left _ _ _ _ hremove =>
        obtain ⟨rfl, -⟩ := Lobby.removePlayer_eq_ok (hinv.valid L) hremove
        exact absurd rfl hlocked
    | @lockSet playerId locked hidle hlobby hplayer hmaster =>
        have hmember := hsound.memberAs hidle hlobby hplayer
        rw [hinv.toId_eq hmember.2, (hinv.valid L).isPlayerMaster_iff] at hmaster
        obtain ⟨-, -, -, hlowest⟩ := hmaster
        exact ⟨playerId, hmember, hlowest⟩
    | entered _ _ _ _ hadd =>
        exact absurd ((hinv.valid L).added hadd).locked_eq hlocked
  removed L player hplayer hgone := by
    rcases h.player_kept hinv hplayer with hkept | ⟨draws, playerId, -, hidle, hlobby, hid, htoId⟩
    · exact absurd hkept hgone
    · have hmember := hsound.memberAs hidle hlobby hid
      rw [hinv.toId_eq hmember.2] at htoId
      subst htoId
      obtain ⟨own, hown, hconnection, hownId⟩ := hmember.2
      rw [(hinv.valid L).eq_of_id_eq hplayer hown hownId.symm]
      exact ⟨hconnection, hownId ▸ hmember.1, own, hown, hconnection, rfl⟩
  relayed T frame hframe hrelay := by
    rcases h.mayPost hinv hframe with ⟨lobbyId, id, -, -, rfl⟩ | ⟨lobby, rfl⟩ |
      ⟨msg, draws, L, playerId, -, hidle, hlobby, hplayer, rfl, player, hmem, hconnection, -⟩
    · simp [IsRelay] at hrelay
    · simp [IsRelay] at hrelay
    · exact ⟨L, playerId, hsound.memberAs hidle hlobby hplayer,
        ⟨player.id, player, hmem, hconnection, rfl⟩, relayTag_encodeRelayMessage playerId msg⟩

/-! ### Staying a member -/

/-- A leaver takes away nobody's entry but its own. -/
theorem Step.entryAt_kept_of_sound (h : Step s e s') (hinv : s.Inv) (hsound : s.Sound) {T : Sid}
    {L : LobbyRef} {id : Nat} (hentry : s.EntryAt T L id) :
    s'.EntryAt T L id ∨ T = e.session ∧ ∃ draws, e = .message e.session .leaveLobby draws := by
  apply (h.entryAt_kept hinv hentry).imp_right
  rintro ⟨draws, playerId, he, hidle, hlobby, hplayer, rfl⟩
  have hmember := hsound.memberAs hidle hlobby hplayer
  rw [hinv.toId_eq hmember.2] at hentry
  exact ⟨hinv.entryAt_unique hentry hmember.2, draws, he⟩

theorem Step.sound (h : Step s e s') (hinv : s.Inv) (hsound : s.Sound)
    (hcond : s.KeepsAuthority e) : s'.Sound := by
  intro T hsettled L id hlobby hplayer
  by_cases hne : T = e.session
  · subst hne
    rcases h.settled_cases hinv hsettled hlobby with ⟨hold, hlobby', hsame, hleave⟩ |
      ⟨id', hid', hentry⟩ | ⟨playerName, he, hpending, hlobby', hjoin, hsame⟩
    · rw [hsame] at hplayer
      exact h.entryAt_of_not_leave hinv hleave (hsound _ hold L id hlobby' hplayer)
    · obtain rfl : id' = id := Option.some.inj (hid'.symm.trans hplayer)
      exact hentry
    · rw [hsame] at hplayer
      rw [he] at hcond
      have hentry := hcond ⟨playerName, hpending⟩ L hlobby' hjoin id hplayer
      exact h.entryAt_of_not_leave hinv (by rw [he]; simp) hentry
  · obtain ⟨hlobby', hplayer', hpending', -⟩ := h.others hne
    rw [hlobby'] at hlobby
    rw [hplayer'] at hplayer
    rw [Settled, hpending'] at hsettled
    rcases h.entryAt_kept_of_sound hinv hsound (hsound T hsettled L id hlobby hplayer) with
      hkept | ⟨heq, -⟩
    · exact hkept
    · exact absurd heq hne

/-! ### Runs -/

omit [DecidableEq Sid] [Fintype Sid] in
theorem sound_init : (init : Server Sid).Sound := by
  intro S _ L id hlobby
  cases hlobby

theorem inv_and_sound (h : (serverSystem Sid).ReachableWhile KeepsAuthority s) :
    s.Inv ∧ s.Sound :=
  inv_and_of_reachableWhile sound_init Step.sound h

/-- **Authority.** In a run in which no join is refused to a session that still has a `playerId`,
every step is authorized. -/
theorem authority (h : (serverSystem Sid).ReachableWhile KeepsAuthority s)
    (hstep : (serverSystem Sid).step s e = some s') : Authorized s e s' := by
  obtain ⟨hinv, hsound⟩ := inv_and_sound h
  exact (step_of_system hstep).authorized hinv hsound

/-- The creator of a lobby locks it after another session has joined. -/
theorem authority_lock : ∃ s s' : Server (Fin 2),
    (serverSystem (Fin 2)).step s (.message 0 .lockLobby []) = some s' ∧
      (s.lobbies 0).locked = false ∧ (s'.lobbies 0).locked = true ∧
      Authorized s (.message 0 .lockLobby []) s' := by
  have hrun : ((serverSystem (Fin 2)).runWhile KeepsAuthority
      [.message 0 (.createLobby [97]) [[120]], .resume 0,
        .message 1 (.joinLobby [98] [120]) [], .resume 1]).any (fun s =>
          ((serverSystem (Fin 2)).step s (.message 0 .lockLobby [])).any fun s' =>
            decide ((s.lobbies 0).locked = false ∧ (s'.lobbies 0).locked = true)) = true := by
    decide
  obtain ⟨s, hs, hnext⟩ := (Option.any_eq_true _ _).mp hrun
  obtain ⟨s', hs', hlocked⟩ := (Option.any_eq_true _ _).mp hnext
  obtain ⟨hopen, hclosed⟩ := of_decide_eq_true hlocked
  exact ⟨s, s', hs', hopen, hclosed,
    authority (TransitionSystem.reachableWhile_of_runWhile hs) hs'⟩

/-- The first session creates a lobby, the second creates one and locks it. The first is refused
there, and unlocks it. -/
theorem not_authority : ¬∀ (events : List (Event (Fin 2))) (s s' : Server (Fin 2))
    (e : Event (Fin 2)), (serverSystem (Fin 2)).run events = some s →
      (serverSystem (Fin 2)).step s e = some s' → Authorized s e s' := by
  intro h
  have hrun : ((serverSystem (Fin 2)).run [.message 0 (.createLobby [97]) [[120]], .resume 0,
      .message 1 (.createLobby [98]) [[121]], .resume 1, .message 1 .lockLobby [],
      .message 0 (.joinLobby [97] [121]) [], .resume 0]).any (fun s =>
        ((serverSystem (Fin 2)).step s (.message 0 .unlockLobby [])).any fun s' =>
          decide ((s'.lobbies 1).locked ≠ (s.lobbies 1).locked ∧
            ∀ player ∈ (s.lobbies 1).players, player.connection ≠ 0)) = true := by
    decide
  obtain ⟨s, hs, hnext⟩ := (Option.any_eq_true _ _).mp hrun
  obtain ⟨s', hs', hstate⟩ := (Option.any_eq_true _ _).mp hnext
  obtain ⟨hlocked, hnone⟩ := of_decide_eq_true hstate
  obtain ⟨id, ⟨-, player, hplayer, hconnection, -⟩, -⟩ := (h _ s s' _ hs hs').locked 1 hlocked
  exact hnone player hplayer hconnection

end ChatGames.Server
