import ChatGames.Proof.Discipline

/-!
# Freshness of the players' views

Whoever changes a players list posts the new one to all of it before it frees the lobby's mutex.
`processRequestLobbyUpdate` encodes under the mutex and posts after it, so a newer list may overtake
the one it answers with. As long as no answer is overtaken, the last update in every connected
member's queue is the lobby as it is.
-/

namespace ChatGames.Server

section Definitions

variable {Sid : Type}

def lastUpdate (queue : List Bytes) : Option Bytes :=
  (queue.filter fun frame => IsUpdate frame).getLast?

/-- The last list a connected member was sent is its lobby's. -/
def ViewsFresh (s : Server Sid) : Prop :=
  ∀ M, (s.sessions M).alive = true → ∀ L, s.Occurs M L →
    lastUpdate (s.sessions M).sendQueue = some (packet (encodeLobbyUpdate (s.lobbies L)))

/-- What a session has encoded for a `requestLobbyUpdate` and not yet sent. -/
def answer? (s : Server Sid) (S : Sid) : Option Bytes :=
  match (s.sessions S).pending with
  | some (.requestLobbyUpdate wbuf) => some wbuf
  | _ => none

/-- The answer to a `requestLobbyUpdate` is what the lobby would answer now. -/
def SendsFresh (s : Server Sid) : Event Sid → Prop
  | .resume S => ∀ wbuf ∈ s.answer? S, ∀ L ∈ (s.sessions S).lobby,
      wbuf = encodeLobbyUpdate (s.lobbies L)
  | .message _ _ _ | .disconnect _ => True

instance (s : Server Sid) (e : Event Sid) : Decidable (s.SendsFresh e) :=
  match e with
  | .resume S => inferInstanceAs <| Decidable <| ∀ wbuf ∈ s.answer? S,
      ∀ L ∈ (s.sessions S).lobby, wbuf = encodeLobbyUpdate (s.lobbies L)
  | .message _ _ _ | .disconnect _ => inferInstanceAs (Decidable True)

end Definitions

/-! ### The last update of a queue -/

variable {queue frames : List Bytes} {update : Bytes}

theorem lastUpdate_append_of_none (h : ∀ frame ∈ frames, ¬IsUpdate frame) :
    lastUpdate (queue ++ frames) = lastUpdate queue := by
  have hnone : frames.filter (fun frame => IsUpdate frame) = [] :=
    List.filter_eq_nil_iff.mpr fun frame hframe => by simpa using h frame hframe
  rw [lastUpdate, List.filter_append, hnone, List.append_nil, lastUpdate]

theorem lastUpdate_append_of_mem (hmem : update ∈ frames) (hupdate : IsUpdate update)
    (h : ∀ frame ∈ frames, IsUpdate frame → frame = update) :
    lastUpdate (queue ++ frames) = some update := by
  have hne : frames.filter (fun frame => IsUpdate frame) ≠ [] :=
    List.ne_nil_of_mem (List.mem_filter.mpr ⟨hmem, decide_eq_true hupdate⟩)
  obtain ⟨last, hlast⟩ := Option.ne_none_iff_exists'.mp (List.getLast?_eq_none_iff.not.mpr hne)
  obtain ⟨hlastMem, hlastUpdate⟩ := List.mem_filter.mp (List.mem_of_getLast? hlast)
  rw [lastUpdate, List.filter_append, List.getLast?_append, hlast,
    h last hlastMem (of_decide_eq_true hlastUpdate)]
  rfl

/-! ### One step -/

variable {Sid : Type} {s s' : Server Sid} {M : Sid} {L : LobbyRef}

theorem encodeLobbyUpdate_congr {lobby lobby' : Lobby Sid} (h : lobby'.players = lobby.players) :
    encodeLobbyUpdate lobby' = encodeLobbyUpdate lobby := by
  simp only [encodeLobbyUpdate, h]

/-- A member whose lobby keeps its players, and who is sent no update, still has the right one. -/
theorem view_of_same (frames : List Bytes) (hfresh : s.ViewsFresh)
    (halive : (s.sessions M).alive = true) (hoccurs : s'.Occurs M L)
    (hplayers : (s'.lobbies L).players = (s.lobbies L).players)
    (hqueue : (s'.sessions M).sendQueue = (s.sessions M).sendQueue ++ frames)
    (hnone : ∀ frame ∈ frames, ¬IsUpdate frame) :
    lastUpdate (s'.sessions M).sendQueue = some (packet (encodeLobbyUpdate (s'.lobbies L))) := by
  have hold : s.Occurs M L := by
    simpa only [Occurs, EntryAt, hplayers] using hoccurs
  rw [hqueue, lastUpdate_append_of_none hnone, encodeLobbyUpdate_congr hplayers]
  exact hfresh M halive L hold

variable [DecidableEq Sid]

/-- A step that gives a lobby new players and sends them to all of these. -/
theorem view_of_change (L₀ : LobbyRef) (lobby : Lobby Sid) (frames : List Bytes)
    (hord' : s'.Orderly) (hfresh : s.ViewsFresh) (halive : (s.sessions M).alive = true)
    (halive' : (s'.sessions M).alive = true) (hoccurs : s'.Occurs M L)
    (hself : s'.lobbies L₀ = lobby) (hother : L ≠ L₀ → s'.lobbies L = s.lobbies L)
    (hqueue : (s'.sessions M).sendQueue = (s.sessions M).sendQueue ++ (frames ++
      if (s.sessions M).alive then postsTo lobby.players M (encodeLobbyUpdate lobby) else []))
    (hnone : ∀ frame ∈ frames, ¬IsUpdate frame) :
    lastUpdate (s'.sessions M).sendQueue = some (packet (encodeLobbyUpdate (s'.lobbies L))) := by
  rw [if_pos halive] at hqueue
  by_cases hL : L = L₀
  · subst hL
    obtain ⟨_, player, hplayer, rfl, -⟩ := hoccurs
    rw [hself] at hplayer
    rw [hqueue, hself]
    refine lastUpdate_append_of_mem
      (List.mem_append_right _ (mem_postsTo_self hplayer (encodeLobbyUpdate lobby)))
      (frameType_encodeLobbyUpdate lobby) fun frame hframe hupdate => ?_
    rcases List.mem_append.mp hframe with hframe | hframe
    · exact absurd hupdate (hnone frame hframe)
    · exact (mem_postsTo hframe).1
  · -- a member of one lobby is not among the players of another
    apply view_of_same _ hfresh halive hoccurs (by rw [hother hL]) hqueue
    intro frame hframe
    rcases List.mem_append.mp hframe with hframe | hframe
    · exact hnone frame hframe
    · obtain ⟨-, player, hplayer, hM⟩ := mem_postsTo hframe
      obtain ⟨id, hentry⟩ := hoccurs
      obtain ⟨hlobby, -⟩ := hord'.agrees M halive' L id hentry
      obtain ⟨hlobby', -⟩ := hord'.agrees M halive' L₀ player.id ⟨player, hself ▸ hplayer, hM, rfl⟩
      exact absurd (Option.some.inj (hlobby.symm.trans hlobby')) hL

variable [Fintype Sid] {e : Event Sid}

theorem Step.viewsFresh (h : Step s e s') (hord : s.Orderly) (hord' : s'.Orderly)
    (hfresh : s.ViewsFresh) (hcond : s.SendsFresh e) : s'.ViewsFresh := by
  intro M halive' L hoccurs
  have halive := h.alive_of_alive halive'
  cases h with
  | @leaveLobby S draws L₀ playerId lobby hidle hlobby hplayer hremove =>
      exact view_of_change L₀ lobby [] hord' hfresh halive halive' hoccurs (by simp)
        (fun hL => by simp [hL]) (by rw [sendQueue_leaveLobby]; simp) (by simp)
  | @enterLobby S playerName L₀ id lobby hpending hlobby hadd =>
      refine view_of_change L₀ lobby _ hord' hfresh halive halive' hoccurs (by simp)
        (fun hL => by simp [hL]) (sendQueue_enterLobby s S M L₀ lobby id) fun frame hframe => ?_
      split at hframe
      · rw [List.mem_singleton.mp hframe]
        simp [IsUpdate]
      · exact absurd hframe List.not_mem_nil
  | @sendUpdate S wbuf hpending =>
      by_cases hM : M = S
      · subst hM
        obtain ⟨id, player, hplayer, hentry⟩ := hoccurs
        have hlobby := (hord.agrees M halive L id ⟨player, by simpa using hplayer, hentry⟩).1
        obtain rfl := hcond wbuf (by rw [answer?, hpending]; rfl) L hlobby
        rw [sendQueue_sendUpdate, if_pos rfl]
        exact lastUpdate_append_of_mem (List.mem_singleton_self _) (frameType_encodeLobbyUpdate _)
          fun frame hframe _ => List.mem_singleton.mp hframe
      · exact view_of_same [] hfresh halive hoccurs (by simp)
          (by rw [sendQueue_sendUpdate, if_neg hM]) (by simp)
  | @sendMessage S msg draws L₀ playerId hidle hlobby hplayer =>
      refine view_of_same _ hfresh halive hoccurs (by simp) (by simp; rfl) fun frame hframe => ?_
      rw [if_pos halive] at hframe
      rw [(mem_postsTo hframe).1]
      simp [IsUpdate]
  | @createLobby S playerName name draws hidle hname =>
      have hL : L ≠ s.created := by
        rintro rfl
        obtain ⟨_, player, hplayer, -⟩ := hoccurs
        simp [Lobby.new] at hplayer
      exact view_of_same [] hfresh halive hoccurs (by simp [hL])
        (by by_cases hM : M = S <;> simp [hM]) (by simp)
  | @setLobbyLocked S msg draws L₀ playerId locked hidle hmsg hlobby hplayer hmaster =>
      refine view_of_same [] hfresh halive hoccurs ?_ (by simp) (by simp)
      by_cases hL : L = L₀
      · subst hL
        simp
      · simp [hL]
  | nothing => exact hfresh M halive L hoccurs
  | @joinUnknown S | @joinLobby S | @requestLobbyUpdate S | @refuse S | @resetLobby S
  | @disconnect S =>
      exact view_of_same [] hfresh halive hoccurs (by simp)
        (by by_cases hM : M = S <;> simp [hM]) (by simp)

/-! ### Runs -/

omit [DecidableEq Sid] [Fintype Sid] in
theorem viewsFresh_init : (init : Server Sid).ViewsFresh := by
  rintro M - L ⟨id, hentry⟩
  exact absurd (inv_init.entryAt_lt hentry) (Nat.not_lt_zero L)

theorem orderly_and_viewsFresh (h : (serverSystem Sid).ReachableWhile
    (fun s e => s.Disciplined e ∧ s.SendsFresh e) s) : s.Orderly ∧ s.ViewsFresh := by
  have hall : s.Inv ∧ s.Orderly ∧ s.ViewsFresh := by
    refine inv_and_of_reachableWhile (P := fun s => s.Orderly ∧ s.ViewsFresh)
      ⟨orderly_init, viewsFresh_init⟩ ?_ h
    rintro s s' e hs hinv ⟨hord, hfresh⟩ ⟨hdisc, hcond⟩
    have hord' := hs.orderly hinv hord hdisc
    exact ⟨hord', hs.viewsFresh hord hord' hfresh hcond⟩
  exact hall.2

/-- **Freshness.** In a disciplined run in which no answer to a `requestLobbyUpdate` is overtaken,
the last players list in every connected member's queue is its lobby's. -/
theorem viewsFresh_of_reachableWhile (h : (serverSystem Sid).ReachableWhile
    (fun s e => s.Disciplined e ∧ s.SendsFresh e) s) : s.ViewsFresh := (orderly_and_viewsFresh h).2

/-- A member asks for the players after another one has joined. -/
theorem viewsFresh_request : ∃ s : Server (Fin 2),
    (s.lobbies 0).players.length = 2 ∧ s.ViewsFresh := by
  have hrun : ((serverSystem (Fin 2)).runWhile (fun s e => s.Disciplined e ∧ s.SendsFresh e)
      [.message 0 (.createLobby [97]) [[120]], .resume 0, .message 1 (.joinLobby [98] [120]) [],
        .resume 1, .message 0 .requestLobbyUpdate [], .resume 0]).any (fun s =>
          decide ((s.lobbies 0).players.length = 2)) = true := by
    decide
  obtain ⟨s, hs, hplayers⟩ := (Option.any_eq_true _ _).mp hrun
  exact ⟨s, of_decide_eq_true hplayers,
    viewsFresh_of_reachableWhile (TransitionSystem.reachableWhile_of_runWhile hs)⟩

/-- Another session joins between the encoding of the answer and its posting. -/
theorem not_viewsFresh : ¬∀ (events : List (Event (Fin 2))) (s : Server (Fin 2)),
    (serverSystem (Fin 2)).runWhile Disciplined events = some s →
      (∀ S, (s.sessions S).pending = none) → s.ViewsFresh := by
  intro h
  have hrun : ((serverSystem (Fin 2)).runWhile Disciplined
      [.message 0 (.createLobby [97]) [[120]], .resume 0, .message 0 .requestLobbyUpdate [],
        .message 1 (.joinLobby [98] [120]) [], .resume 1, .resume 0]).any (fun s =>
          decide ((∀ S, (s.sessions S).pending = none) ∧ (s.sessions 0).alive = true ∧
            s.Occurs 0 0 ∧ lastUpdate (s.sessions 0).sendQueue ≠
              some (packet (encodeLobbyUpdate (s.lobbies 0))))) = true := by
    decide
  obtain ⟨s, hs, hstate⟩ := (Option.any_eq_true _ _).mp hrun
  obtain ⟨hquiet, halive, hoccurs, hstale⟩ := of_decide_eq_true hstate
  exact hstale (h _ s hs hquiet 0 halive 0 hoccurs)

end ChatGames.Server
