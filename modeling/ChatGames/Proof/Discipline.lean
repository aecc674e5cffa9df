import ChatGames.Proof.Authority

/-!
# Disciplined sessions

A session is in a lobby from the `lobbyJoined` it is sent to the `leaveLobby` it sends next:
`playerId` is set with the one and reset by the other. If sessions create and join only while in no
lobby, and send everything else only while in one, then what a session has and what the players
lists say is the same thing at all times.
-/

namespace ChatGames.Server

section Definitions

variable {Sid : Type}

/-- What the sessions are supposed to do. -/
def Disciplined (s : Server Sid) : Event Sid → Prop
  | .message S (.createLobby _) _ | .message S (.joinLobby _ _) _ => (s.sessions S).playerId = none
  | .message S _ _ => (s.sessions S).playerId ≠ none
  | .resume _ | .disconnect _ => True

instance (s : Server Sid) (e : Event Sid) : Decidable (s.Disciplined e) :=
  match e with
  | .message S (.createLobby _) _ | .message S (.joinLobby _ _) _ =>
      inferInstanceAs (Decidable ((s.sessions S).playerId = none))
  | .message S .leaveLobby _ | .message S .lockLobby _ | .message S .unlockLobby _
  | .message S (.sendMessage _) _ | .message S .requestLobbyUpdate _ =>
      inferInstanceAs (Decidable ((s.sessions S).playerId ≠ none))
  | .resume _ | .disconnect _ => inferInstanceAs (Decidable True)

structure Orderly (s : Server Sid) : Prop where
  /-- An entry of a connected session is where the session is. -/
  agrees : ∀ S, (s.sessions S).alive = true → ∀ L id, s.EntryAt S L id →
    (s.sessions S).lobby = some L ∧ (s.sessions S).playerId = some id
  sound : s.Sound
  /-- In the middle of creating, joining or leaving a session is in no lobby. -/
  busy : ∀ S, (s.sessions S).playerId ≠ none → s.Settled S
  placed : ∀ S, (s.sessions S).alive = true → (s.sessions S).playerId ≠ none →
    (s.sessions S).lobby ≠ none

end Definitions

variable {Sid : Type} [DecidableEq Sid] [Fintype Sid] {s s' : Server Sid} {e : Event Sid}

/-! ### One step -/

omit [DecidableEq Sid] [Fintype Sid] in
theorem Orderly.playerId_eq_none (h : s.Orderly) {S : Sid} {section_ : Section}
    (hpending : (s.sessions S).pending = some section_)
    (hsection : ∀ wbuf, section_ ≠ .requestLobbyUpdate wbuf) : (s.sessions S).playerId = none := by
  by_contra hid
  obtain ⟨wbuf, hwbuf⟩ := h.busy S hid section_ hpending
  exact hsection wbuf hwbuf

/-- A session with an id that a disciplined step leaves connected keeps its place, or leaves. -/
theorem Step.keeps_place (h : Step s e s') (hord : s.Orderly)
    (hdisc : s.Disciplined e) (hid : (s.sessions e.session).playerId ≠ none)
    (halive : (s'.sessions e.session).alive = true) :
    ((s'.sessions e.session).lobby = (s.sessions e.session).lobby ∧
        (s'.sessions e.session).playerId = (s.sessions e.session).playerId) ∨
      ∃ draws, e = .message e.session .leaveLobby draws ∧
        (s'.sessions e.session).playerId = none := by
  cases h with
  | createLobby | joinUnknown | joinLobby => exact absurd hdisc hid
  | @leaveLobby S draws => exact Or.inr ⟨draws, rfl, by simp⟩
  | setLobbyLocked | sendMessage | requestLobbyUpdate | nothing | sendUpdate =>
      exact Or.inl ⟨by simp, by simp⟩
  | enterLobby hpending =>
      rcases hpending with hpending | ⟨hpending, -⟩ <;>
        exact absurd (hord.playerId_eq_none hpending (by simp)) hid
  | refuse hpending | resetLobby hpending =>
      exact absurd (hord.playerId_eq_none hpending (by simp)) hid
  | disconnect => simp at halive

theorem Step.agrees (h : Step s e s') (hinv : s.Inv) (hord : s.Orderly)
    (hdisc : s.Disciplined e) {T : Sid} (halive : (s'.sessions T).alive = true) {L : LobbyRef}
    {id : Nat} (hentry : s'.EntryAt T L id) :
    (s'.sessions T).lobby = some L ∧ (s'.sessions T).playerId = some id := by
  rcases h.entryAt_cases hinv hentry with hold | ⟨-, -, hlobby, hplayer, -⟩
  · obtain ⟨hlobby, hplayer⟩ := hord.agrees T (h.alive_of_alive halive) L id hold
    by_cases hne : T = e.session
    · subst hne
      rcases h.keeps_place hord hdisc (by simp [hplayer]) halive with ⟨hlobby', hplayer'⟩ |
        ⟨draws, he, -⟩
      · exact ⟨hlobby'.trans hlobby, hplayer'.trans hplayer⟩
      · rw [he] at h
        exact absurd hentry (h.not_entryAt_of_leave hinv hlobby hplayer hold _)
    · obtain ⟨hlobby', hplayer', -⟩ := h.others hne
      exact ⟨hlobby'.trans hlobby, hplayer'.trans hplayer⟩
  · exact ⟨hlobby, hplayer⟩

omit [DecidableEq Sid] [Fintype Sid] in
/-- A disciplined session is not refused while it has an id. -/
theorem Orderly.keepsAuthority (h : s.Orderly) (e : Event Sid) : s.KeepsAuthority e := by
  cases e with
  | message | disconnect => trivial
  | resume S =>
      rintro ⟨playerName, hpending⟩ L _ _ id hid
      rw [h.playerId_eq_none hpending (by simp)] at hid
      cases hid

theorem Step.busy (h : Step s e s') (hord : s.Orderly) (hdisc : s.Disciplined e) {T : Sid}
    (hid : (s'.sessions T).playerId ≠ none) : s'.Settled T := by
  by_cases hne : T = e.session
  · subst hne
    cases h with
    | createLobby | joinLobby => exact absurd hdisc (by simpa [Disciplined] using hid)
    | leaveLobby => simp at hid
    | joinUnknown hidle | setLobbyLocked hidle | sendMessage hidle | nothing hidle
    | disconnect hidle => simp [Settled, hidle.2]
    | requestLobbyUpdate | enterLobby | refuse | resetLobby | sendUpdate => simp [Settled]
  · obtain ⟨-, hplayer, hpending, -⟩ := h.others hne
    rw [hplayer] at hid
    rw [Settled, hpending]
    exact hord.busy T hid

theorem Step.placed (h : Step s e s') (hinv : s.Inv) (hord : s.Orderly)
    (hdisc : s.Disciplined e) {T : Sid} (halive : (s'.sessions T).alive = true)
    (hid : (s'.sessions T).playerId ≠ none) : (s'.sessions T).lobby ≠ none := by
  have halive₀ := h.alive_of_alive halive
  by_cases hne : T = e.session
  · subst hne
    cases h with
    | createLobby | joinLobby => simp
    | joinUnknown => exact absurd hdisc (by simpa [Disciplined] using hid)
    | leaveLobby => simp at hid
    | setLobbyLocked | sendMessage | requestLobbyUpdate | nothing | sendUpdate =>
        simpa using hord.placed _ halive₀ (by simpa using hid)
    | enterLobby hpending hlobby | refuse hpending hlobby => simp [hlobby]
    | resetLobby hpending => simp [hinv.leaver _ hpending] at hid
    | disconnect => simp at halive
  · obtain ⟨hlobby, hplayer, -⟩ := h.others hne
    rw [hplayer] at hid
    rw [hlobby]
    exact hord.placed T halive₀ hid

theorem Step.orderly (h : Step s e s') (hinv : s.Inv) (hord : s.Orderly)
    (hdisc : s.Disciplined e) : s'.Orderly where
  agrees _ halive _ _ := h.agrees hinv hord hdisc halive
  sound := h.sound hinv hord.sound (hord.keepsAuthority e)
  busy _ := h.busy hord hdisc
  placed _ := h.placed hinv hord hdisc

/-! ### Being in a lobby, as the session knows it -/

theorem Step.joined_posted (h : Step s e s') {T : Sid} (hnone : (s.sessions T).playerId = none)
    (hid : (s'.sessions T).playerId ≠ none) : ∃ frame ∈ s.posted s' T, IsJoined frame := by
  by_cases hne : T = e.session
  · subst hne
    cases h with
    | @enterLobby S playerName L id lobby hpending hlobby hadd =>
        refine ⟨packet (encodeLobbyJoined lobby.name id), ?_, frameType_encodeLobbyJoined _ _⟩
        rw [Event.session_resume, posted_of_eq (sendQueue_enterLobby s S S L lobby id), if_pos rfl]
        exact List.mem_append_left _ (List.mem_singleton_self _)
    | leaveLobby => simp at hid
    | _ =>
        simp at hid
        exact absurd hnone hid
  · exact absurd ((h.others hne).2.1.trans hnone) hid

/-- A session has a `playerId` once it is sent a `lobbyJoined`, and until it sends a
`leaveLobby`. -/
theorem Step.playerId_ne_none_iff (h : Step s e s') (hinv : s.Inv) (hord : s.Orderly) (T : Sid) :
    (s'.sessions T).playerId ≠ none ↔ (∃ frame ∈ s.posted s' T, IsJoined frame) ∨
      (s.sessions T).playerId ≠ none ∧ ∀ draws, e ≠ .message T .leaveLobby draws := by
  constructor
  · intro hid
    by_cases hold : (s.sessions T).playerId = none
    · exact Or.inl (h.joined_posted hold hid)
    · refine Or.inr ⟨hold, ?_⟩
      rintro draws rfl
      have hlobby := hord.placed T h.idle.1 hold
      cases h with
      | leaveLobby => simp at hid
      | setLobbyLocked hidle hmsg => simp at hmsg
      | nothing hidle hmsg => simp [hlobby] at hmsg
  · rintro (⟨frame, hframe, hjoined⟩ | ⟨hold, hstay⟩)
    · rcases h.mayPost hinv hframe with ⟨lobbyId, id, -, hid, -⟩ | ⟨lobby, rfl⟩ |
        ⟨msg, draws, L, playerId, -, -, -, -, rfl, -⟩
      · simp [hid]
      · simp [IsJoined] at hjoined
      · simp [IsJoined] at hjoined
    · by_cases hne : T = e.session
      · subst hne
        cases h with
        | leaveLobby => exact absurd rfl (hstay _)
        | enterLobby => simp
        | _ => simpa using hold
      · rwa [(h.others hne).2.1]

/-! ### Runs -/

omit [DecidableEq Sid] [Fintype Sid] in
theorem orderly_init : (init : Server Sid).Orderly where
  agrees _ _ L _ hentry := absurd (inv_init.entryAt_lt hentry) (Nat.not_lt_zero L)
  sound := sound_init
  busy _ hid := absurd rfl hid
  placed _ _ hid := absurd rfl hid

theorem inv_and_orderly (h : (serverSystem Sid).ReachableWhile Disciplined s) :
    s.Inv ∧ s.Orderly :=
  inv_and_of_reachableWhile orderly_init Step.orderly h

end ChatGames.Server
