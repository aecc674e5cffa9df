import ChatGames.Proof.Invariant

/-!
# Unique membership

A membership is recorded twice, in the session and in the lobby's players list. Creating and joining
write the session's side without looking at what is there, so a session that is in a lobby and
creates or joins another one leaves its old entry behind. The two sides keep agreeing exactly when
no such move abandons a lobby that somebody else keeps alive, and no join adds a second entry.
-/

namespace ChatGames.Server

section Definitions

variable {Sid : Type}

def OccursAt (s : Server Sid) (S : Sid) (L : LobbyRef) (idx : Nat) : Prop :=
  s.Live L ∧ ∃ player, (s.lobbies L).players[idx]? = some player ∧ player.connection = S

/-- Every session stands at one place at most, and there the lobby and the session agree. Session
objects that are gone hold nothing, and their entries lead nowhere. -/
structure UniqueMembership (s : Server Sid) : Prop where
  once : ∀ S, (s.sessions S).alive = true → ∀ L L' idx idx', s.OccursAt S L idx →
    s.OccursAt S L' idx' → L = L' ∧ idx = idx'
  agrees : ∀ S, (s.sessions S).alive = true → ∀ L id, s.Live L → s.EntryAt S L id →
    (s.sessions S).lobby = some L ∧ (s.sessions S).playerId = some id

/-- The session can point `lobby_` to `target` and leave no entry behind: it has none where it is,
or it stays, or the lobby dies with its leaving. -/
def MayMoveTo (s : Server Sid) (S : Sid) (target : Option LobbyRef) : Prop :=
  ∀ L, (s.sessions S).lobby = some L → s.Occurs S L →
    target = some L ∨ ∀ T, (s.sessions T).lobby = some L → T = S

end Definitions

variable {Sid : Type} [DecidableEq Sid] [Fintype Sid] {s s' : Server Sid} {e : Event Sid}

/-- What an event has to meet for the two sides to go on agreeing. -/
def KeepsMembership (s : Server Sid) : Event Sid → Prop
  | .message S (.createLobby _) _ => s.MayMoveTo S none
  | .message S (.joinLobby _ lobbyId) _ => s.MayMoveTo S (s.getLobby lobbyId)
  | .resume S => s.Joining S → ∀ L ∈ (s.sessions S).lobby, (s.lobbies L).canJoin = true →
      ¬s.Occurs S L
  | _ => True

/-! ### Agreement is enough -/

/-- The second half of `UniqueMembership`. -/
def Agrees (s : Server Sid) : Prop :=
  ∀ S, (s.sessions S).alive = true → ∀ L id, s.Live L → s.EntryAt S L id →
    (s.sessions S).lobby = some L ∧ (s.sessions S).playerId = some id

omit [DecidableEq Sid] [Fintype Sid] in
theorem OccursAt.entryAt {S : Sid} {L : LobbyRef} {idx : Nat} (h : s.OccursAt S L idx) :
    ∃ player, (s.lobbies L).players[idx]? = some player ∧ s.EntryAt S L player.id := by
  obtain ⟨-, player, hidx, hconnection⟩ := h
  exact ⟨player, hidx, player, List.mem_of_getElem? hidx, hconnection, rfl⟩

omit [DecidableEq Sid] [Fintype Sid] in
/-- Two sides that agree determine the place: ids are distinct. -/
theorem uniqueMembership_iff_agrees (hinv : s.Inv) : s.UniqueMembership ↔ s.Agrees := by
  refine ⟨UniqueMembership.agrees, fun hagrees => ⟨?_, hagrees⟩⟩
  intro S halive L L' idx idx' h h'
  obtain ⟨player, hidx, hentry⟩ := h.entryAt
  obtain ⟨player', hidx', hentry'⟩ := h'.entryAt
  obtain ⟨hlobby, hid⟩ := hagrees S halive L player.id h.1 hentry
  obtain ⟨hlobby', hid'⟩ := hagrees S halive L' player'.id h'.1 hentry'
  obtain rfl : L = L' := Option.some.inj (hlobby.symm.trans hlobby')
  refine ⟨rfl, ?_⟩
  have hids : (s.lobbies L).ids[idx]? = (s.lobbies L).ids[idx']? := by
    rw [Lobby.ids, List.getElem?_map, List.getElem?_map, hidx, hidx', Option.map_some,
      Option.map_some, ← hid, ← hid']
  have hlt : idx < (s.lobbies L).ids.length := by
    rw [Lobby.ids, List.length_map]
    exact (List.getElem?_eq_some_iff.mp hidx).1
  have hnodup : (s.lobbies L).ids.Nodup :=
    (hinv.valid L).ids_sorted.imp fun hlt => Nat.ne_of_lt hlt
  exact (List.getElem?_inj hlt hnodup).mp hids

/-! ### One step -/

/-- Only the session whose step it is can come to disagree, and only over an entry it had. -/
theorem Step.agrees_iff (h : Step s e s') (hinv : s.Inv) (hagrees : s.Agrees) :
    s'.Agrees ↔ ((s'.sessions e.session).alive = true → ∀ L id, s'.Live L →
      s.EntryAt e.session L id → s'.EntryAt e.session L id →
        (s'.sessions e.session).lobby = some L ∧ (s'.sessions e.session).playerId = some id) := by
  constructor
  · intro hagrees' halive L id hlive _ hentry
    exact hagrees' _ halive L id hlive hentry
  · intro hsession T halive L id hlive hentry
    rcases h.entryAt_cases hinv hentry with hold | ⟨rfl, -, hlobby, hplayer, -⟩
    · by_cases hne : T = e.session
      · subst hne
        exact hsession halive L id hlive hold hentry
      · obtain ⟨hlobby, hplayer, -, halive'⟩ := h.others hne
        rw [hlobby, hplayer]
        rcases h.live_cases hlive with hlive | ⟨rfl, -⟩
        · exact hagrees T (halive' ▸ halive) L id hlive hold
        · exact absurd (hinv.entryAt_lt hold) (lt_irrefl _)
    · exact ⟨hlobby, hplayer⟩

theorem Step.live_of_entryAt (h : Step s e s') (hinv : s.Inv) {T : Sid} {L : LobbyRef} {id : Nat}
    (hentry : s.EntryAt T L id) (hlive : s'.Live L) : s.Live L := by
  rcases h.live_cases hlive with hlive | ⟨rfl, -⟩
  · exact hlive
  · exact absurd (hinv.entryAt_lt hentry) (lt_irrefl _)

/-- A step that points `lobby_` elsewhere and does nothing else to the session. -/
theorem Step.agrees_iff_mayMoveTo (h : Step s e s') (hinv : s.Inv) (hagrees : s.Agrees)
    {target : Option LobbyRef} (halive : (s.sessions e.session).alive = true)
    (halive' : (s'.sessions e.session).alive = true)
    (hlobby : (s'.sessions e.session).lobby = target)
    (hplayer : (s'.sessions e.session).playerId = (s.sessions e.session).playerId)
    (hkept : ∀ L id, s.EntryAt e.session L id → s'.EntryAt e.session L id) :
    s'.Agrees ↔ s.MayMoveTo e.session target := by
  rw [h.agrees_iff hinv hagrees, hlobby, hplayer]
  constructor
  · rintro hsession L hold ⟨id, hentry⟩
    apply or_iff_not_imp_right.mpr
    intro hheld
    obtain ⟨T, hT, hne⟩ : ∃ T, (s.sessions T).lobby = some L ∧ T ≠ e.session := by
      simpa only [not_forall, exists_prop] using hheld
    have hlive : s'.Live L := ⟨T, (h.others hne).1.trans hT⟩
    exact (hsession halive' L id hlive hentry (hkept L id hentry)).1
  · intro hmove _ L id hlive hentry _
    obtain ⟨hold, hid⟩ := hagrees _ halive L id (h.live_of_entryAt hinv hentry hlive) hentry
    refine ⟨?_, hid⟩
    rcases hmove L hold ⟨id, hentry⟩ with htarget | honly
    · exact htarget
    · -- the only holder left is the session itself, at its new lobby
      obtain ⟨T, hT⟩ := hlive
      have hself : T = e.session := by
        by_contra hne
        exact hne (honly T ((h.others hne).1 ▸ hT))
      rw [← hlobby, ← hself, hT]

theorem Step.agrees_of_eq (h : Step s e s') (hinv : s.Inv) (hagrees : s.Agrees)
    (halive : (s.sessions e.session).alive = true)
    (hlobby : (s'.sessions e.session).lobby = (s.sessions e.session).lobby)
    (hplayer : (s'.sessions e.session).playerId = (s.sessions e.session).playerId) :
    s'.Agrees := by
  rw [h.agrees_iff hinv hagrees, hlobby, hplayer]
  intro _ L id hlive hentry _
  exact hagrees _ halive L id (h.live_of_entryAt hinv hentry hlive) hentry

/-- Being admitted is harmless exactly when the session has no entry yet. -/
theorem Step.agrees_iff_of_admitted (h : Step s e s') (hinv : s.Inv) (hagrees : s.Agrees)
    {L : LobbyRef} {id : Nat} (halive : (s.sessions e.session).alive = true)
    (halive' : (s'.sessions e.session).alive = true)
    (hlobby : (s.sessions e.session).lobby = some L)
    (hlobby' : (s'.sessions e.session).lobby = some L)
    (hplayer : (s'.sessions e.session).playerId = some id) (hfree : id ∉ (s.lobbies L).ids)
    (hkept : ∀ L id, s.EntryAt e.session L id → s'.EntryAt e.session L id) :
    s'.Agrees ↔ ¬s.Occurs e.session L := by
  rw [h.agrees_iff hinv hagrees]
  constructor
  · rintro hsession ⟨id₀, hentry⟩
    obtain ⟨-, hid⟩ := hsession halive' L id₀ ⟨_, hlobby'⟩ hentry (hkept L id₀ hentry)
    obtain rfl : id = id₀ := Option.some.inj (hplayer.symm.trans hid)
    obtain ⟨player, hmem, -, rfl⟩ := hentry
    exact hfree (List.mem_map_of_mem hmem)
  · intro hnone _ L' id' hlive hentry _
    obtain ⟨hold, -⟩ := hagrees _ halive L' id' (h.live_of_entryAt hinv hentry hlive) hentry
    obtain rfl : L = L' := Option.some.inj (hlobby.symm.trans hold)
    exact absurd ⟨id', hentry⟩ hnone

omit [Fintype Sid] [DecidableEq Sid] in
theorem mayMoveTo_created_iff (hinv : s.Inv) (S : Sid) :
    s.MayMoveTo S (some s.created) ↔ s.MayMoveTo S none := by
  apply forall₂_congr
  intro L hL
  have hlt := hinv.lobby_lt S L hL
  simp [hlt.ne']

/-- Every way through a handler: agreement survives exactly under `KeepsMembership`. -/
theorem Step.agrees_iff_keepsMembership (h : Step s e s') (hinv : s.Inv) (hagrees : s.Agrees) :
    s'.Agrees ↔ s.KeepsMembership e := by
  have hstep := h
  cases h with
  | createLobby hidle hname =>
      rw [KeepsMembership, ← mayMoveTo_created_iff hinv]
      exact hstep.agrees_iff_mayMoveTo hinv hagrees hidle.1 (by simpa using hidle.1)
        (by simp) (by simp)
        fun L id => hstep.entryAt_of_not_leave hinv (by simp)
  | joinUnknown hidle hget =>
      rw [KeepsMembership, hget]
      exact hstep.agrees_iff_mayMoveTo hinv hagrees hidle.1 (by simpa using hidle.1)
        (by simp) (by simp)
        fun L id => hstep.entryAt_of_not_leave hinv (by simp)
  | joinLobby hidle hget =>
      rw [KeepsMembership, hget]
      exact hstep.agrees_iff_mayMoveTo hinv hagrees hidle.1 (by simpa using hidle.1)
        (by simp) (by simp)
        fun L id => hstep.entryAt_of_not_leave hinv (by simp)
  | @leaveLobby S draws L playerId lobby hidle hlobby hplayer hremove =>
      refine iff_of_true ((hstep.agrees_iff hinv hagrees).mpr ?_) trivial
      intro _ L' id hlive hentry hkept
      -- the entry the session had is the one that was removed
      obtain ⟨hold, hid⟩ := hagrees S hidle.1 L' id (hstep.live_of_entryAt hinv hentry hlive) hentry
      exact absurd hkept (hstep.not_entryAt_of_leave hinv hold hid hentry S)
  | setLobbyLocked hidle hmsg =>
      apply iff_of_true (hstep.agrees_of_eq hinv hagrees hidle.1 (by simp) (by simp))
      rcases hmsg with ⟨rfl, -⟩ | ⟨rfl, -⟩ <;> trivial
  | sendMessage hidle | requestLobbyUpdate hidle =>
      exact iff_of_true (hstep.agrees_of_eq hinv hagrees hidle.1 (by simp)
        (by simp)) trivial
  | @nothing S msg draws hidle hmsg =>
      apply iff_of_true hagrees
      rcases hmsg with hnone | rfl | rfl
      · have hstay (target : Option LobbyRef) : s.MayMoveTo S target := fun L hL => by
          rw [hnone] at hL
          cases hL
        cases msg <;> first | exact hstay _ | trivial
      · trivial
      · trivial
  | @enterLobby S playerName L id lobby hpending hlobby hadd =>
      have halive : (s.sessions S).alive = true := hinv.busy_alive S (by
        rcases hpending with hpending | ⟨hpending, -⟩ <;> simp [hpending])
      have hfree : id ∉ (s.lobbies L).ids := ((hinv.valid L).added hadd).least.1
      rw [hstep.agrees_iff_of_admitted hinv hagrees halive
        (by simpa using halive) hlobby (by simpa using hlobby)
        (by simp) hfree fun L id => hstep.entryAt_of_not_leave hinv (by simp)]
      rcases hpending with hpending | ⟨hpending, hjoin⟩
      · apply iff_of_true (hinv.creator_notMem S L ⟨hlobby, playerName, hpending⟩)
        intro hjoining
        exact absurd hjoining (not_joining_of_pending hpending (by simp))
      · constructor
        · intro hnone _ L' hlobby' _
          obtain rfl : L = L' := Option.some.inj (hlobby.symm.trans hlobby')
          exact hnone
        · exact fun hcond => hcond ⟨playerName, hpending⟩ L hlobby hjoin
  | @refuse S playerName L hpending hlobby hjoin =>
      have halive := hinv.busy_alive S (by simp [hpending])
      apply iff_of_true (hstep.agrees_of_eq hinv hagrees halive (by simp) (by simp))
      intro _ L' hlobby' hjoin'
      obtain rfl : L = L' := Option.some.inj (hlobby.symm.trans hlobby')
      rw [hjoin] at hjoin'
      cases hjoin'
  | @resetLobby S hpending =>
      have halive := hinv.busy_alive S (by simp [hpending])
      refine iff_of_true ((hstep.agrees_iff hinv hagrees).mpr ?_) ?_
      · -- a leaver has no id any more, so no entry either
        intro _ L id hlive hentry _
        have hid := (hagrees S halive L id (hstep.live_of_entryAt hinv hentry hlive) hentry).2
        rw [hinv.leaver S hpending] at hid
        cases hid
      · intro hjoining
        exact absurd hjoining (not_joining_of_pending hpending (by simp))
  | @sendUpdate S wbuf hpending =>
      have halive := hinv.busy_alive S (by simp [hpending])
      apply iff_of_true (hstep.agrees_of_eq hinv hagrees halive (by simp) (by simp))
      intro hjoining
      exact absurd hjoining (not_joining_of_pending hpending (by simp))
  | disconnect hidle =>
      refine iff_of_true ((hstep.agrees_iff hinv hagrees).mpr fun halive => ?_) trivial
      simp at halive

/-! ### Runs -/

omit [DecidableEq Sid] [Fintype Sid] in
theorem uniqueMembership_init : (init : Server Sid).UniqueMembership := by
  apply (uniqueMembership_iff_agrees inv_init).mpr
  intro S _ L id _ hentry
  exact absurd (inv_init.entryAt_lt hentry) (Nat.not_lt_zero L)

/-- **Unique membership.** Throughout a run every session stands at one place at most, where it says
it stands, exactly when no step of the run abandons an entry or adds a second one. -/
theorem uniqueMembership_iff (events : List (Event Sid)) :
    (∀ past, past <+: events → ∀ s, (serverSystem Sid).run past = some s → s.UniqueMembership) ↔
      ∀ past e, past ++ [e] <+: events → ∀ s s', (serverSystem Sid).run past = some s →
        (serverSystem Sid).step s e = some s' → s.KeepsMembership e := by
  refine TransitionSystem.forall_state_iff (I := Inv) (fun s => inv_of_reachable)
    uniqueMembership_init (fun s e s' hinv hunique hstep => ?_) events
  have hs := step_of_system hstep
  rw [uniqueMembership_iff_agrees (inv_step hs hinv)]
  exact hs.agrees_iff_keepsMembership hinv ((uniqueMembership_iff_agrees hinv).mp hunique)

/-- The first session creates a lobby, the second joins it, and the first creates another. -/
theorem not_uniqueMembership : ¬∀ (events : List (Event (Fin 2))) (s : Server (Fin 2)),
    (serverSystem (Fin 2)).run events = some s → s.UniqueMembership := by
  intro h
  have hrun : ((serverSystem (Fin 2)).run [.message 0 (.createLobby [97]) [[120]], .resume 0,
      .message 1 (.joinLobby [98] [120]) [], .resume 1,
      .message 0 (.createLobby [97]) [[121]], .resume 0]).any (fun s =>
        decide ((s.sessions 0).alive = true ∧ s.Live 0 ∧ s.EntryAt 0 0 0 ∧
          (s.sessions 0).lobby ≠ some 0)) = true := by
    decide
  obtain ⟨s, hs, hstate⟩ := (Option.any_eq_true _ _).mp hrun
  obtain ⟨halive, hlive, hentry, hlobby⟩ := of_decide_eq_true hstate
  exact hlobby ((h _ s hs).agrees 0 halive 0 0 hlive hentry).1

end ChatGames.Server
