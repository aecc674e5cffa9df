import ChatGames.Proof.Steps

/-!
# What holds in every run

No assumption on the sessions: they may send anything at any time. A lobby that a session holds has
been created, players lists are valid, a creator is not yet in its lobby and shares it with no other
creator, and a session on its way out has no player id.
-/

namespace ChatGames.Server

section Definitions

variable {Sid : Type}

/-- The session has registered a lobby and is not yet in it. -/
def Creating (s : Server Sid) (S : Sid) (L : LobbyRef) : Prop :=
  (s.sessions S).lobby = some L ∧
    ∃ playerName, (s.sessions S).pending = some (.createLobby playerName)

/-- The session has found a lobby to join and does not know yet whether it can. -/
def Joining (s : Server Sid) (S : Sid) : Prop :=
  ∃ playerName, (s.sessions S).pending = some (.joinLobby playerName)

/-- The session is in none of the handlers that change its membership. -/
def Settled (s : Server Sid) (S : Sid) : Prop :=
  ∀ section_, (s.sessions S).pending = some section_ → ∃ wbuf, section_ = .requestLobbyUpdate wbuf

/-- The lobby has an entry of the session, under this id. -/
def EntryAt (s : Server Sid) (S : Sid) (L : LobbyRef) (id : Nat) : Prop :=
  ∃ player ∈ (s.lobbies L).players, player.connection = S ∧ player.id = id

instance decidableCreating (s : Server Sid) (S : Sid) (L : LobbyRef) :
    Decidable (s.Creating S L) :=
  have : Decidable (∃ playerName, (s.sessions S).pending = some (.createLobby playerName)) :=
    match (s.sessions S).pending with
    | some (.createLobby playerName) => isTrue ⟨playerName, rfl⟩
    | none | some (.joinLobby _) | some .leaveLobby | some (.requestLobbyUpdate _) =>
        isFalse fun ⟨_, h⟩ => nomatch h
  inferInstanceAs (Decidable (_ ∧ _))

instance decidableJoining (s : Server Sid) (S : Sid) : Decidable (s.Joining S) :=
  have : Decidable (∃ playerName, (s.sessions S).pending = some (.joinLobby playerName)) :=
    match (s.sessions S).pending with
    | some (.joinLobby playerName) => isTrue ⟨playerName, rfl⟩
    | none | some (.createLobby _) | some .leaveLobby | some (.requestLobbyUpdate _) =>
        isFalse fun ⟨_, h⟩ => nomatch h
  this

instance [DecidableEq Sid] (s : Server Sid) (S : Sid) (L : LobbyRef) (id : Nat) :
    Decidable (s.EntryAt S L id) :=
  inferInstanceAs <| Decidable <|
    ∃ player ∈ (s.lobbies L).players, player.connection = S ∧ player.id = id

def Occurs (s : Server Sid) (S : Sid) (L : LobbyRef) : Prop := ∃ id, s.EntryAt S L id

instance [DecidableEq Sid] (s : Server Sid) (S : Sid) (L : LobbyRef) : Decidable (s.Occurs S L) :=
  decidable_of_iff (∃ player ∈ (s.lobbies L).players, player.connection = S)
    ⟨fun ⟨player, hplayer, hS⟩ => ⟨player.id, player, hplayer, hS, rfl⟩,
      fun ⟨_, player, hplayer, hS, _⟩ => ⟨player, hplayer, hS⟩⟩

structure Inv (s : Server Sid) : Prop where
  lobby_lt : ∀ S L, (s.sessions S).lobby = some L → L < s.created
  uncreated : ∀ L, s.created ≤ L → s.lobbies L = Lobby.new []
  valid : ∀ L, (s.lobbies L).Valid
  busy_alive : ∀ S, (s.sessions S).pending ≠ none → (s.sessions S).alive = true
  creating : ∀ S playerName, (s.sessions S).pending = some (.createLobby playerName) →
    ∃ L, s.Creating S L
  creator_notMem : ∀ S L, s.Creating S L → ¬s.Occurs S L
  creator_unique : ∀ S T L, s.Creating S L → s.Creating T L → S = T
  leaver : ∀ S, (s.sessions S).pending = some .leaveLobby → (s.sessions S).playerId = none
  update : ∀ S wbuf, (s.sessions S).pending = some (.requestLobbyUpdate wbuf) →
    ∃ lobby : Lobby Sid, wbuf = encodeLobbyUpdate lobby

end Definitions

variable {Sid : Type} [DecidableEq Sid] [Fintype Sid] {s s' : Server Sid} {e : Event Sid}

omit [DecidableEq Sid] in
theorem live_of_getLobby {name : Bytes} {L : LobbyRef} (h : s.getLobby name = some L) :
    s.Live L := by
  rw [getLobby] at h
  split at h
  · split at h
    · rename_i hlive
      exact Option.some.inj h ▸ hlive
    · cases h
  · cases h

omit [DecidableEq Sid] [Fintype Sid] in
theorem Inv.live_lt (h : s.Inv) {L : LobbyRef} (hlive : s.Live L) : L < s.created := by
  obtain ⟨T, hT⟩ := hlive
  exact h.lobby_lt T L hT

omit [DecidableEq Sid] [Fintype Sid] in
theorem Inv.entryAt_lt (h : s.Inv) {S : Sid} {L : LobbyRef} {id : Nat}
    (hentry : s.EntryAt S L id) : L < s.created := by
  by_contra hL
  obtain ⟨player, hplayer, -⟩ := hentry
  rw [h.uncreated L (not_lt.mp hL)] at hplayer
  simp [Lobby.new] at hplayer

omit [DecidableEq Sid] [Fintype Sid] in
theorem Inv.toId_eq (h : s.Inv) {S : Sid} {L : LobbyRef} {id : Nat} (hentry : s.EntryAt S L id) :
    Lobby.toId id = id := by
  obtain ⟨player, hplayer, -, rfl⟩ := hentry
  exact (h.valid L).toId_eq hplayer

omit [DecidableEq Sid] [Fintype Sid] in
theorem Inv.entryAt_unique (h : s.Inv) {S T : Sid} {L : LobbyRef} {id : Nat}
    (hS : s.EntryAt S L id) (hT : s.EntryAt T L id) : S = T := by
  obtain ⟨player, hplayer, rfl, rfl⟩ := hS
  obtain ⟨other, hother, rfl, hid⟩ := hT
  rw [(h.valid L).eq_of_id_eq hplayer hother hid.symm]

/-! ### What a step leaves alone -/

/-- A step concerns one session: nobody else's membership, handler or life changes. -/
theorem Step.others (h : Step s e s') {T : Sid} (hT : T ≠ e.session) :
    (s'.sessions T).lobby = (s.sessions T).lobby ∧
      (s'.sessions T).playerId = (s.sessions T).playerId ∧
      (s'.sessions T).pending = (s.sessions T).pending ∧
      (s'.sessions T).alive = (s.sessions T).alive := by
  cases h <;> simp_all

/-- Lobbies change only at the hands of a session that holds them, or by being created. -/
theorem Step.lobbies (h : Step s e s') {L : LobbyRef} (hL : L < s.created ∨ s'.created ≤ L)
    (hlobby : (s.sessions e.session).lobby ≠ some L) : s'.lobbies L = s.lobbies L := by
  have hchange := h.lobbyChange L
  generalize s'.lobbies L = lobby at hchange
  cases hchange with
  | same => rfl
  | created hnew hcreated =>
      rcases hL with hlt | hle
      · exact absurd hnew hlt.ne
      · rw [hcreated, ← hnew] at hle
        exact absurd hle (Nat.not_succ_le_self L)
  | left _ _ hlobby' | lockSet _ hlobby' | entered _ hlobby' => exact absurd hlobby' hlobby

theorem Step.alive_of_alive (h : Step s e s') {T : Sid}
    (halive : (s'.sessions T).alive = true) : (s.sessions T).alive = true := by
  by_cases hne : T = e.session
  · subst hne
    cases h <;> simp_all
  · exact (h.others hne).2.2.2 ▸ halive

/-! ### Entries -/

/-- A player that is in a lobby after a step was there before, or the session whose step it is has
just been admitted under that id, which was free. -/
theorem Step.player_cases (h : Step s e s') (hinv : s.Inv) {L : LobbyRef} {player : Player Sid}
    (hplayer : player ∈ (s'.lobbies L).players) :
    player ∈ (s.lobbies L).players ∨
      player.connection = e.session ∧ (s.sessions e.session).lobby = some L ∧
        (s'.sessions e.session).lobby = some L ∧
        (s'.sessions e.session).playerId = some player.id ∧
        (s'.sessions e.session).pending = none ∧ player.id ∉ (s.lobbies L).ids := by
  have hchange := h.lobbyChange L
  generalize s'.lobbies L = lobby at hchange hplayer
  cases hchange with
  | same | lockSet => exact Or.inl hplayer
  | created => exact absurd hplayer List.not_mem_nil
  | left he hidle hlobby hplayer' hremove =>
      obtain ⟨rfl, -⟩ := Lobby.removePlayer_eq_ok (hinv.valid L) hremove
      exact Or.inl (List.mem_filter.mp hplayer).1
  | entered hpending hlobby hsession he hadd =>
      have hadded := (hinv.valid L).added hadd
      rcases List.mem_cons.mp (hadded.perm.mem_iff.mp hplayer) with rfl | hplayer
      · exact Or.inr ⟨rfl, hlobby, hsession.1, hsession.2.1, hsession.2.2, hadded.least.1⟩
      · exact Or.inl hplayer

/-- The only players a step takes away are those of its session's lobby under its session's id, when
that session leaves. -/
theorem Step.player_kept (h : Step s e s') (hinv : s.Inv) {L : LobbyRef} {player : Player Sid}
    (hplayer : player ∈ (s.lobbies L).players) :
    player ∈ (s'.lobbies L).players ∨
      ∃ draws playerId, e = .message e.session .leaveLobby draws ∧ s.Idle e.session ∧
        (s.sessions e.session).lobby = some L ∧ (s.sessions e.session).playerId = some playerId ∧
        Lobby.toId playerId = player.id := by
  have hchange := h.lobbyChange L
  generalize s'.lobbies L = lobby at hchange
  cases hchange with
  | same | lockSet => exact Or.inl hplayer
  | created hL => exact absurd (hinv.entryAt_lt ⟨player, hplayer, rfl, rfl⟩) hL.not_lt
  | @left draws playerId lobby he hidle hlobby hplayer' hremove =>
      by_cases hid : player.id = Lobby.toId playerId
      · exact Or.inr ⟨draws, playerId, he, hidle, hlobby, hplayer', hid.symm⟩
      · obtain ⟨rfl, -⟩ := Lobby.removePlayer_eq_ok (hinv.valid L) hremove
        exact Or.inl (by simpa using ⟨hplayer, hid⟩)
  | entered hpending hlobby hsession he hadd =>
      have hadded := (hinv.valid L).added hadd
      exact Or.inl (hadded.perm.mem_iff.mpr (List.mem_cons_of_mem _ hplayer))

theorem Step.entryAt_cases (h : Step s e s') (hinv : s.Inv) {T : Sid} {L : LobbyRef} {id : Nat}
    (hentry : s'.EntryAt T L id) :
    s.EntryAt T L id ∨
      T = e.session ∧ (s.sessions T).lobby = some L ∧ (s'.sessions T).lobby = some L ∧
        (s'.sessions T).playerId = some id ∧ (s'.sessions T).pending = none ∧
        id ∉ (s.lobbies L).ids := by
  obtain ⟨player, hplayer, rfl, rfl⟩ := hentry
  rcases h.player_cases hinv hplayer with hold | ⟨hT, hnew⟩
  · exact Or.inl ⟨player, hold, rfl, rfl⟩
  · exact Or.inr ⟨hT, by rwa [hT]⟩

theorem Step.entryAt_kept (h : Step s e s') (hinv : s.Inv) {T : Sid} {L : LobbyRef} {id : Nat}
    (hentry : s.EntryAt T L id) :
    s'.EntryAt T L id ∨
      ∃ draws playerId, e = .message e.session .leaveLobby draws ∧ s.Idle e.session ∧
        (s.sessions e.session).lobby = some L ∧ (s.sessions e.session).playerId = some playerId ∧
        Lobby.toId playerId = id := by
  obtain ⟨player, hplayer, rfl, rfl⟩ := hentry
  exact (h.player_kept hinv hplayer).imp_left fun hkept => ⟨player, hkept, rfl, rfl⟩

theorem Step.entryAt_of_not_leave (h : Step s e s') (hinv : s.Inv)
    (he : ∀ S draws, e ≠ .message S .leaveLobby draws) {T : Sid} {L : LobbyRef} {id : Nat}
    (hentry : s.EntryAt T L id) : s'.EntryAt T L id := by
  rcases h.entryAt_kept hinv hentry with hentry | ⟨draws, -, hleave, -⟩
  · exact hentry
  · exact absurd hleave (he _ draws)

theorem Step.not_entryAt_of_leave {S : Sid} {draws : List Bytes}
    (h : Step s (.message S .leaveLobby draws) s') (hinv : s.Inv) {L : LobbyRef} {id : Nat}
    (hlobby : (s.sessions S).lobby = some L) (hid : (s.sessions S).playerId = some id)
    (hentry : s.EntryAt S L id) (T : Sid) : ¬s'.EntryAt T L id := by
  rintro ⟨player, hplayer, -, rfl⟩
  cases h with
  | @leaveLobby _ _ L' playerId lobby hidle hlobby' hplayer' hremove =>
      obtain rfl : L' = L := Option.some.inj (hlobby'.symm.trans hlobby)
      obtain rfl : playerId = player.id := Option.some.inj (hplayer'.symm.trans hid)
      rw [hinv.toId_eq hentry] at hremove
      obtain ⟨rfl, -⟩ := Lobby.removePlayer_eq_ok (hinv.valid L') hremove
      simp at hplayer
  | setLobbyLocked hidle hmsg => simp at hmsg
  | nothing hidle hmsg => simp [hlobby] at hmsg

/-! ### A session between handlers -/

omit [DecidableEq Sid] [Fintype Sid] in
theorem Idle.settled {S : Sid} (h : s.Idle S) : s.Settled S := by
  intro section_ hpending
  rw [h.2] at hpending
  cases hpending

omit [DecidableEq Sid] [Fintype Sid] in
theorem not_joining_of_pending {S : Sid} {pending : Option Section}
    (hpending : (s.sessions S).pending = pending)
    (hne : ∀ playerName, pending ≠ some (.joinLobby playerName)) : ¬s.Joining S := by
  rintro ⟨playerName, hjoining⟩
  exact hne playerName (hpending.symm.trans hjoining)

/-- A session that a step leaves settled, and with a lobby, has been settled before and keeps what
it had, or has been admitted, or has been refused. -/
theorem Step.settled_cases (h : Step s e s') (hinv : s.Inv) (hsettled : s'.Settled e.session)
    {L : LobbyRef} (hlobby : (s'.sessions e.session).lobby = some L) :
    (s.Settled e.session ∧ (s.sessions e.session).lobby = some L ∧
        (s'.sessions e.session).playerId = (s.sessions e.session).playerId ∧
        ∀ S draws, e ≠ .message S .leaveLobby draws) ∨
      (∃ id, (s'.sessions e.session).playerId = some id ∧ s'.EntryAt e.session L id) ∨
      ∃ playerName, e = .resume e.session ∧
        (s.sessions e.session).pending = some (.joinLobby playerName) ∧
        (s.sessions e.session).lobby = some L ∧ (s.lobbies L).canJoin = false ∧
        (s'.sessions e.session).playerId = (s.sessions e.session).playerId := by
  cases h with
  | createLobby | joinLobby | leaveLobby => simp [Settled] at hsettled
  | joinUnknown | resetLobby | disconnect => simp at hlobby
  | setLobbyLocked hidle hmsg =>
      refine Or.inl ⟨hidle.settled, by simpa using hlobby, by simp, fun S draws he => ?_⟩
      rcases hmsg with ⟨rfl, -⟩ | ⟨rfl, -⟩ <;> cases he
  | sendMessage hidle | requestLobbyUpdate hidle =>
      exact Or.inl ⟨hidle.settled, by simpa using hlobby, by simp, by simp⟩
  | nothing hidle hmsg =>
      refine Or.inl ⟨hidle.settled, hlobby, rfl, fun S draws he => ?_⟩
      rcases hmsg with hnone | rfl | rfl
      · simp [hnone] at hlobby
      · cases he
      · cases he
  | @enterLobby S playerName L' id lobby hpending hlobby' hadd =>
      obtain rfl : L' = L := by simpa [hlobby'] using hlobby
      have hperm := ((hinv.valid L').added hadd).perm
      exact Or.inr (Or.inl ⟨id, by simp, ⟨id, S, playerName⟩,
        by simpa using hperm.mem_iff.mpr List.mem_cons_self, rfl, rfl⟩)
  | @refuse S playerName L' hpending hlobby' hjoin =>
      obtain rfl : L' = L := by simpa [hlobby'] using hlobby
      exact Or.inr (Or.inr ⟨playerName, rfl, hpending, hlobby', hjoin, by simp⟩)
  | @sendUpdate S wbuf hpending =>
      refine Or.inl ⟨fun section_ hsection => ?_, by simpa using hlobby, by simp, by simp⟩
      exact ⟨wbuf, (Option.some.inj (hpending.symm.trans hsection)).symm⟩

/-! ### The invariant -/

/-- Who is a creator after a step was one before, or has just registered a lobby of its own. -/
theorem Step.creating_cases (h : Step s e s') {T : Sid} {L : LobbyRef} (hT : s'.Creating T L) :
    s.Creating T L ∧ T ≠ e.session ∨
      T = e.session ∧ L = s.created ∧ ∃ name, s'.lobbies L = Lobby.new name := by
  by_cases hne : T = e.session
  · obtain ⟨hlobby, playerName, hpending⟩ := hT
    subst hne
    cases h with
    | @createLobby S playerName' name draws hidle hname =>
        obtain rfl : s.created = L := by simpa using hlobby
        exact Or.inr ⟨rfl, rfl, name, by simp⟩
    | joinUnknown hidle | setLobbyLocked hidle | sendMessage hidle | nothing hidle
    | disconnect hidle => simp [hidle.2] at hpending
    | joinLobby | leaveLobby | requestLobbyUpdate | enterLobby | refuse | resetLobby | sendUpdate =>
        simp at hpending
  · obtain ⟨hlobby, -, hpending, -⟩ := h.others hne
    exact Or.inl ⟨by rwa [Creating, hlobby, hpending] at hT, hne⟩

theorem Step.created_le (h : Step s e s') : s.created ≤ s'.created := by
  cases h <;> simp

theorem Step.live_cases (h : Step s e s') {L : LobbyRef} (hL : s'.Live L) :
    s.Live L ∨ L = s.created ∧ s.created < s'.created := by
  obtain ⟨T, hT⟩ := hL
  by_cases hne : T = e.session
  · subst hne
    cases h with
    | createLobby hidle hname =>
        obtain rfl : s.created = L := by simpa using hT
        exact Or.inr ⟨rfl, Nat.lt_succ_self _⟩
    | joinLobby hidle hget =>
        obtain rfl : _ = L := by simpa using hT
        exact Or.inl (live_of_getLobby hget)
    | joinUnknown | resetLobby | disconnect => simp at hT
    | _ => exact Or.inl ⟨_, by simpa using hT⟩
  · exact Or.inl ⟨T, (h.others hne).1 ▸ hT⟩

theorem Step.lobby_lt (h : Step s e s') (hinv : s.Inv) {T : Sid} {L : LobbyRef}
    (hT : (s'.sessions T).lobby = some L) : L < s'.created := by
  rcases h.live_cases ⟨T, hT⟩ with hlive | ⟨rfl, hlt⟩
  · exact (hinv.live_lt hlive).trans_le h.created_le
  · exact hlt

theorem Step.uncreated (h : Step s e s') (hinv : s.Inv) {L : LobbyRef} (hL : s'.created ≤ L) :
    s'.lobbies L = Lobby.new [] := by
  have hold := h.created_le.trans hL
  have hlobby : (s.sessions e.session).lobby ≠ some L := fun hlobby =>
    absurd (hinv.lobby_lt _ L hlobby) hold.not_gt
  rw [h.lobbies (Or.inr hL) hlobby, hinv.uncreated L hold]

theorem Step.valid (h : Step s e s') (hinv : s.Inv) (L : LobbyRef) : (s'.lobbies L).Valid := by
  have hchange := h.lobbyChange L
  generalize s'.lobbies L = lobby at hchange
  cases hchange with
  | same => exact hinv.valid L
  | created => exact Lobby.valid_new _
  | left _ _ _ _ hremove => exact (Lobby.removePlayer_eq_ok (hinv.valid L) hremove).2
  | lockSet => exact (hinv.valid L).setLocked _
  | entered _ _ _ _ hadd => exact ((hinv.valid L).added hadd).valid

/-- The handlers that end a step in the middle of their work leave their session alive, a creator
with its lobby, a leaver without its id and a request with an encoded update. -/
theorem Step.pending_cases (h : Step s e s') {section_ : Section}
    (hpending : (s'.sessions e.session).pending = some section_) :
    (s'.sessions e.session).alive = true ∧
      match section_ with
      | .createLobby _ => (s'.sessions e.session).lobby = some s.created
      | .joinLobby _ => True
      | .leaveLobby => (s'.sessions e.session).playerId = none
      | .requestLobbyUpdate wbuf => ∃ lobby : Lobby Sid, wbuf = encodeLobbyUpdate lobby := by
  cases h with
  | createLobby hidle hname =>
      obtain rfl : _ = section_ := by simpa using hpending
      exact ⟨by simpa using hidle.1, by simp⟩
  | joinLobby hidle hget =>
      obtain rfl : _ = section_ := by simpa using hpending
      exact ⟨by simpa using hidle.1, trivial⟩
  | leaveLobby hidle hlobby hplayer hremove =>
      obtain rfl : _ = section_ := by simpa using hpending
      exact ⟨by simpa using hidle.1, by simp⟩
  | requestLobbyUpdate hidle hlobby =>
      obtain rfl : _ = section_ := by simpa using hpending
      exact ⟨by simpa using hidle.1, _, rfl⟩
  | joinUnknown hidle | setLobbyLocked hidle | sendMessage hidle | nothing hidle
  | disconnect hidle => simp [hidle.2] at hpending
  | enterLobby | refuse | resetLobby | sendUpdate => simp at hpending

theorem inv_step (h : Step s e s') (hinv : s.Inv) : s'.Inv where
  lobby_lt _ _ := h.lobby_lt hinv
  uncreated _ := h.uncreated hinv
  valid := h.valid hinv
  busy_alive T hT := by
    by_cases hne : T = e.session
    · subst hne
      obtain ⟨section_, hpending⟩ := Option.ne_none_iff_exists'.mp hT
      exact (h.pending_cases hpending).1
    · obtain ⟨-, -, hpending, halive⟩ := h.others hne
      rw [hpending] at hT
      rw [halive]
      exact hinv.busy_alive T hT
  creating T playerName hT := by
    by_cases hne : T = e.session
    · subst hne
      exact ⟨s.created, (h.pending_cases hT).2, playerName, hT⟩
    · obtain ⟨hlobby, -, hpending, -⟩ := h.others hne
      rw [hpending] at hT
      simpa [Creating, hlobby, hpending] using hinv.creating T playerName hT
  creator_notMem T L hT := by
    rintro ⟨id, hentry⟩
    rcases h.entryAt_cases hinv hentry with hentry | ⟨-, -, -, -, hpending, -⟩
    · rcases h.creating_cases hT with ⟨hold, -⟩ | ⟨-, rfl, -⟩
      · exact hinv.creator_notMem T L hold ⟨id, hentry⟩
      · exact absurd (hinv.entryAt_lt hentry) (lt_irrefl _)
    · obtain ⟨-, playerName, hbusy⟩ := hT
      rw [hpending] at hbusy
      cases hbusy
  creator_unique T U L hT hU := by
    rcases h.creating_cases hT with ⟨hT', -⟩ | ⟨rfl, rfl, -⟩
    · rcases h.creating_cases hU with ⟨hU', -⟩ | ⟨-, rfl, -⟩
      · exact hinv.creator_unique T U L hT' hU'
      · exact absurd (hinv.lobby_lt T _ hT'.1) (lt_irrefl _)
    · rcases h.creating_cases hU with ⟨hU', -⟩ | ⟨rfl, -⟩
      · exact absurd (hinv.lobby_lt U _ hU'.1) (lt_irrefl _)
      · rfl
  leaver T hT := by
    by_cases hne : T = e.session
    · subst hne
      exact (h.pending_cases hT).2
    · obtain ⟨-, hplayer, hpending, -⟩ := h.others hne
      rw [hpending] at hT
      rw [hplayer]
      exact hinv.leaver T hT
  update T wbuf hT := by
    by_cases hne : T = e.session
    · subst hne
      exact (h.pending_cases hT).2
    · obtain ⟨-, -, hpending, -⟩ := h.others hne
      rw [hpending] at hT
      exact hinv.update T wbuf hT

omit [DecidableEq Sid] [Fintype Sid] in
theorem inv_init : (init : Server Sid).Inv where
  lobby_lt _ _ h := by cases h
  uncreated _ _ := rfl
  valid _ := Lobby.valid_new _
  busy_alive _ h := absurd rfl h
  creating _ _ h := by cases h
  creator_notMem _ _ h _ := by cases h.1
  creator_unique _ _ _ h := by cases h.1
  leaver _ h := by cases h
  update _ _ h := by cases h

theorem inv_of_reachable (h : (serverSystem Sid).Reachable s) : s.Inv :=
  h.invariant Inv inv_init fun _ _ _ hinv hstep => inv_step (step_of_system hstep) hinv

/-- Runs whose steps all meet a condition keep what their steps keep, on top of the invariant. -/
theorem inv_and_of_reachableWhile {cond : Server Sid → Event Sid → Prop} {P : Server Sid → Prop}
    (hinit : P init)
    (hstep : ∀ {s s' e}, Step s e s' → s.Inv → P s → cond s e → P s')
    (h : (serverSystem Sid).ReachableWhile cond s) : s.Inv ∧ P s := by
  refine h.invariant (fun s => s.Inv ∧ P s) ⟨inv_init, hinit⟩ ?_
  rintro s e s' ⟨hinv, hP⟩ hcond hs
  have hstep' := step_of_system hs
  exact ⟨inv_step hstep' hinv, hstep hstep' hinv hP hcond⟩

end ChatGames.Server
