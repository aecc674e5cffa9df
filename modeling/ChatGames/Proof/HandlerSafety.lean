import ChatGames.Proof.Invariant

/-!
# Handler safety

Between handlers a session with a lobby should have an id that occurs there: then nothing reads an
empty `playerId` and no assertion about it fails. A refused join breaks this unless the id the
session still has happens to occur in the lobby that refused it, and once two sessions stand for one
entry, the leaving of either takes it from the other. These are all the ways it breaks.
-/

namespace ChatGames.Server

section Definitions

variable {Sid : Type}

/-- Every settled session with a lobby has an id that occurs in its players list. -/
def HasId (s : Server Sid) : Prop :=
  ∀ S, s.Settled S → ∀ L, (s.sessions S).lobby = some L →
    ∃ id ∈ (s.lobbies L).ids, (s.sessions S).playerId = some id

variable [DecidableEq Sid] [Fintype Sid]

def fault? (s : Server Sid) (e : Event Sid) : Option Fault :=
  match s.step e with
  | .error (.fault fault) => some fault
  | _ => none

structure HandlerSafe (s : Server Sid) : Prop where
  hasId : s.HasId
  no_fault : ∀ e, s.fault? e ≠ some .emptyPlayerId ∧ s.fault? e ≠ some .assertPlayerId ∧
    s.fault? e ≠ some .assertPlayerIdx

omit [DecidableEq Sid] [Fintype Sid] in
/-- A leaver shares its lobby and id with no other settled session, and a refused session has an id
of the lobby that refuses it. -/
def KeepsIds (s : Server Sid) : Event Sid → Prop
  | .message S .leaveLobby _ => ∀ T, T ≠ S → s.Settled T → (s.sessions S).lobby ≠ none →
      (s.sessions T).lobby = (s.sessions S).lobby →
        (s.sessions T).playerId ≠ (s.sessions S).playerId
  | .resume S => s.Joining S → ∀ L ∈ (s.sessions S).lobby, (s.lobbies L).canJoin = false →
      ∃ id ∈ (s.lobbies L).ids, (s.sessions S).playerId = some id
  | _ => True

end Definitions

variable {Sid : Type} [DecidableEq Sid] [Fintype Sid] {s s' : Server Sid} {e : Event Sid}

/-! ### An id is enough -/

omit [DecidableEq Sid] [Fintype Sid] in
theorem mem_ids_iff {L : LobbyRef} {id : Nat} :
    id ∈ (s.lobbies L).ids ↔ ∃ S, s.EntryAt S L id := by
  constructor
  · intro hid
    obtain ⟨player, hplayer, rfl⟩ := List.mem_map.mp hid
    exact ⟨player.connection, player, hplayer, rfl, rfl⟩
  · rintro ⟨S, player, hplayer, -, rfl⟩
    exact List.mem_map_of_mem hplayer

omit [DecidableEq Sid] [Fintype Sid] in
theorem Inv.toId_of_mem_ids (h : s.Inv) {L : LobbyRef} {id : Nat} (hid : id ∈ (s.lobbies L).ids) :
    Lobby.toId id = id := by
  obtain ⟨S, hentry⟩ := mem_ids_iff.mp hid
  exact h.toId_eq hentry

theorem HasId.fault?_eq (hids : s.HasId) (hinv : s.Inv) {fault : Fault}
    (h : s.fault? e = some fault) : fault = .assertNextPlayerId := by
  rw [fault?] at h
  split at h
  · rename_i fault' hstep
    obtain rfl : fault' = fault := Option.some.inj h
    rcases fault_cases hstep with hfault | ⟨hidle, L, hlobby, hremove⟩
    · exact hfault
    · obtain ⟨id, hid, hplayer⟩ := hids _ hidle.settled L hlobby
      have herror := hremove id hplayer
      rw [hinv.toId_of_mem_ids hid] at herror
      obtain ⟨player, hmem, rfl⟩ := List.mem_map.mp hid
      obtain ⟨lobby, hok⟩ := Lobby.exists_removePlayer ⟨player, hmem, rfl⟩
      rw [hok] at herror
      cases herror
  · cases h

theorem handlerSafe_iff_hasId (hinv : s.Inv) : s.HandlerSafe ↔ s.HasId := by
  refine ⟨HandlerSafe.hasId, fun hids => ⟨hids, fun e => ⟨?_, ?_, ?_⟩⟩⟩ <;> intro h <;>
    cases hids.fault?_eq hinv h

/-! ### One step -/

/-- A step that takes no entry away can only leave its own session without an id, by refusing it. -/
theorem Step.hasId_of_not_leave (h : Step s e s') (hinv : s.Inv) (hids : s.HasId)
    (hleave : ∀ S draws, e ≠ .message S .leaveLobby draws)
    (hrefused : s.Joining e.session → ∀ L ∈ (s.sessions e.session).lobby,
      (s.lobbies L).canJoin = false →
        ∃ id ∈ (s.lobbies L).ids, (s.sessions e.session).playerId = some id) : s'.HasId := by
  have hkept {L : LobbyRef} {id : Nat} (hid : id ∈ (s.lobbies L).ids) :
      id ∈ (s'.lobbies L).ids := by
    obtain ⟨S, hentry⟩ := mem_ids_iff.mp hid
    exact mem_ids_iff.mpr ⟨S, h.entryAt_of_not_leave hinv hleave hentry⟩
  intro T hsettled L hlobby
  by_cases hne : T = e.session
  · subst hne
    rcases h.settled_cases hinv hsettled hlobby with ⟨hold, hlobby', hsame, -⟩ |
      ⟨id, hid, hentry⟩ | ⟨playerName, -, hpending, hlobby', hjoin, hsame⟩
    · obtain ⟨id, hid, hplayer⟩ := hids _ hold L hlobby'
      exact ⟨id, hkept hid, hsame.trans hplayer⟩
    · exact ⟨id, mem_ids_iff.mpr ⟨_, hentry⟩, hid⟩
    · obtain ⟨id, hid, hplayer⟩ := hrefused ⟨playerName, hpending⟩ L hlobby' hjoin
      exact ⟨id, hkept hid, hsame.trans hplayer⟩
  · obtain ⟨hlobby', hplayer', hpending', -⟩ := h.others hne
    rw [hlobby'] at hlobby
    rw [Settled, hpending'] at hsettled
    obtain ⟨id, hid, hplayer⟩ := hids T hsettled L hlobby
    exact ⟨id, hkept hid, hplayer'.trans hplayer⟩

theorem Step.hasId_of_message {S : Sid} {msg : ClientMessage} {draws : List Bytes}
    (h : Step s (.message S msg draws) s') (hidle : s.Idle S) (hinv : s.Inv) (hids : s.HasId)
    (hmsg : msg ≠ .leaveLobby) : s'.HasId := by
  refine h.hasId_of_not_leave hinv hids (fun T draws' he => ?_) ?_
  · cases he
    exact hmsg rfl
  · intro hjoining
    exact absurd hjoining (not_joining_of_pending hidle.2 (by simp))

/-- Leaving takes the id from whoever else stands for the same entry. -/
theorem hasId_leave_iff {S : Sid} {L : LobbyRef} {playerId : Nat} {draws : List Bytes}
    (h : Step s (.message S .leaveLobby draws) s') (hidle : s.Idle S) (hinv : s.Inv)
    (hids : s.HasId) (hlobby : (s.sessions S).lobby = some L)
    (hplayer : (s.sessions S).playerId = some playerId)
    (hpending : (s'.sessions S).pending = some .leaveLobby)
    (hrest : ∀ id, id ∈ (s'.lobbies L).ids ↔ id ∈ (s.lobbies L).ids ∧ id ≠ playerId) :
    s'.HasId ↔ ∀ T, T ≠ S → s.Settled T → (s.sessions T).lobby = some L →
      (s.sessions T).playerId ≠ some playerId := by
  constructor
  · intro hids' T hne hsettled hlobby' heq
    obtain ⟨hlobby'', hplayer', hpending', -⟩ := h.others hne
    obtain ⟨id, hid, hplayer''⟩ := hids' T (by rwa [Settled, hpending']) L (hlobby''.trans hlobby')
    rw [hplayer', heq] at hplayer''
    exact ((hrest id).mp hid).2 (Option.some.inj hplayer'').symm
  · intro hfree T hsettled L' hlobby'
    have hne : T ≠ S := by
      rintro rfl
      obtain ⟨wbuf, hsection⟩ := hsettled _ hpending
      cases hsection
    obtain ⟨hlobby'', hplayer', hpending', -⟩ := h.others hne
    rw [hlobby''] at hlobby'
    rw [Settled, hpending'] at hsettled
    obtain ⟨id, hid, hplayer''⟩ := hids T hsettled L' hlobby'
    refine ⟨id, ?_, hplayer'.trans hplayer''⟩
    by_cases hL : L' = L
    · subst hL
      refine (hrest id).mpr ⟨hid, ?_⟩
      rintro rfl
      exact hfree T hne hsettled hlobby' hplayer''
    · have hsame : s'.lobbies L' = s.lobbies L' := by
        apply h.lobbies (Or.inl (hinv.lobby_lt T L' hlobby'))
        intro heq
        exact hL (Option.some.inj (hlobby.symm.trans heq)).symm
      rwa [hsame]

/-- Every way through a handler: settled sessions keep their ids exactly under `KeepsIds`. -/
theorem Step.hasId_iff (h : Step s e s') (hinv : s.Inv) (hids : s.HasId) :
    s'.HasId ↔ s.KeepsIds e := by
  have hstep := h
  cases h with
  | createLobby hidle | joinUnknown hidle | joinLobby hidle | sendMessage hidle
  | requestLobbyUpdate hidle =>
      exact iff_of_true (hstep.hasId_of_message hidle hinv hids (by simp)) trivial
  | setLobbyLocked hidle hmsg =>
      rcases hmsg with ⟨rfl, -⟩ | ⟨rfl, -⟩ <;>
        exact iff_of_true (hstep.hasId_of_message hidle hinv hids (by simp)) trivial
  | @nothing S msg draws hidle hmsg =>
      apply iff_of_true hids
      cases msg with
      | leaveLobby =>
          have hnone : (s.sessions S).lobby = none := by simpa using hmsg
          exact fun T _ _ hsome => absurd hnone hsome
      | _ => trivial
  | @leaveLobby S draws L playerId lobby hidle hlobby hplayer hremove =>
      obtain ⟨id, hid, hplayer'⟩ := hids S hidle.settled L hlobby
      obtain rfl : playerId = id := Option.some.inj (hplayer.symm.trans hplayer')
      rw [hinv.toId_of_mem_ids hid] at hremove
      obtain ⟨rfl, -⟩ := Lobby.removePlayer_eq_ok (hinv.valid L) hremove
      have hrest (id : Nat) : id ∈ Lobby.ids { s.lobbies L with
          players := (s.lobbies L).players.filter (·.id ≠ playerId) } ↔
            id ∈ (s.lobbies L).ids ∧ id ≠ playerId := by
        simp only [Lobby.ids, List.mem_map, List.mem_filter]
        constructor
        · rintro ⟨player, ⟨hmem, hne⟩, rfl⟩
          exact ⟨⟨player, hmem, rfl⟩, by simpa using hne⟩
        · rintro ⟨⟨player, hmem, rfl⟩, hne⟩
          exact ⟨player, ⟨hmem, by simpa using hne⟩, rfl⟩
      rw [hasId_leave_iff hstep hidle hinv hids hlobby hplayer (by simp) (by simpa using hrest)]
      simp [KeepsIds, hlobby, hplayer]
  | @enterLobby S playerName L id lobby hpending hlobby hadd =>
      have hjoin (hjoining : s.Joining S) (L' : LobbyRef)
          (hlobby' : L' ∈ (s.sessions S).lobby) : (s.lobbies L').canJoin ≠ false := by
        obtain rfl : L = L' := Option.some.inj (hlobby.symm.trans hlobby')
        rcases hpending with hpending | ⟨-, hjoin⟩
        · exact absurd hjoining (not_joining_of_pending hpending (by simp))
        · simp [hjoin]
      refine iff_of_true (hstep.hasId_of_not_leave hinv hids (by simp) ?_) ?_ <;>
        exact fun hjoining L' hlobby' hfull => absurd hfull (hjoin hjoining L' hlobby')
  | @refuse S playerName L hpending hlobby hjoin =>
      constructor
      · intro hids' _ L' hlobby' _
        have hsettled : (s.setSession S { s.sessions S with pending := none }).Settled S := by
          simp [Settled]
        obtain ⟨id, hid, hplayer⟩ := hids' S hsettled L'
          (by simpa using (hlobby' : (s.sessions S).lobby = some L'))
        exact ⟨id, by simpa using hid, by simpa using hplayer⟩
      · exact fun hcond => hstep.hasId_of_not_leave hinv hids (by simp) hcond
  | resetLobby hpending | sendUpdate hpending =>
      have hnot : ¬s.Joining _ := not_joining_of_pending hpending (by simp)
      apply iff_of_true (hstep.hasId_of_not_leave hinv hids (by simp) (absurd · hnot))
      exact (absurd · hnot)
  | disconnect hidle =>
      have hnot : ¬s.Joining _ := not_joining_of_pending hidle.2 (by simp)
      exact iff_of_true (hstep.hasId_of_not_leave hinv hids (by simp) (absurd · hnot)) trivial

/-! ### Runs -/

omit [DecidableEq Sid] [Fintype Sid] in
theorem hasId_init : (init : Server Sid).HasId := by
  intro S _ L hlobby
  cases hlobby

/-- **Handler safety.** Throughout a run every settled session with a lobby has an id of that lobby,
and no handler can be at fault over a player id, exactly when no step of the run takes an id from
under a session or refuses one without an id of the lobby that refuses it. -/
theorem handlerSafe_iff (events : List (Event Sid)) :
    (∀ past, past <+: events → ∀ s, (serverSystem Sid).run past = some s → s.HandlerSafe) ↔
      ∀ past e, past ++ [e] <+: events → ∀ s s', (serverSystem Sid).run past = some s →
        (serverSystem Sid).step s e = some s' → s.KeepsIds e := by
  refine TransitionSystem.forall_state_iff (I := Inv) (fun s => inv_of_reachable)
    ((handlerSafe_iff_hasId inv_init).mpr hasId_init) (fun s e s' hinv hsafe hstep => ?_) events
  have hs := step_of_system hstep
  rw [handlerSafe_iff_hasId (inv_step hs hinv)]
  exact hs.hasId_iff hinv hsafe.hasId

/-- A session that never was in a lobby is refused by a locked one, and leaves. -/
theorem not_handlerSafe : ¬∀ (events : List (Event (Fin 2))) (s : Server (Fin 2)),
    (serverSystem (Fin 2)).run events = some s → s.HandlerSafe := by
  intro h
  have hrun : ((serverSystem (Fin 2)).run [.message 0 (.createLobby [97]) [[120]], .resume 0,
      .message 0 .lockLobby [], .message 1 (.joinLobby [98] [120]) [], .resume 1]).any (fun s =>
        decide (s.fault? (.message 1 .leaveLobby []) = some .emptyPlayerId)) = true := by
    decide
  obtain ⟨s, hs, hfault⟩ := (Option.any_eq_true _ _).mp hrun
  exact ((h _ s hs).no_fault (.message 1 .leaveLobby [])).1 (of_decide_eq_true hfault)

end ChatGames.Server
