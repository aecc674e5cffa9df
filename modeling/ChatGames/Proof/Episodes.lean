import ChatGames.Proof.Codec
import ChatGames.Proof.Relay

/-!
# What a session's client gets to see

The frames in a session's queue come in episodes: a `lobbyJoined` that tells the client its id,
right behind it an `updateLobby`, and then updates and relayed messages until the next
`lobbyJoined`. The client takes `net.playerId` from the first and looks it up in what the others
say, so it relies on this order, and on its id being in every list that it is sent. Disciplined
sessions get just that.
-/

namespace ChatGames.Server

section Definitions

variable {Sid : Type}

/-- The lobby lists the session under this id, and its list can be encoded. -/
structure Lists (lobby : Lobby Sid) (T : Sid) (id : Nat) : Prop where
  valid : lobby.Valid
  fits : lobby.Fits
  listed : ∃ player ∈ lobby.players, player.connection = T ∧ player.id = id

/-- A message of another player can be encoded, and `M` accepts its payload. -/
structure Relays (M : Bytes → Prop) (id playerId : Nat) (msg : Bytes) : Prop where
  other : playerId ≠ id
  playerId_lt : playerId < 256
  length_lt : msg.length < 65536
  accepted : M msg

/-- The frames are episodes; the last of them is under this id. -/
inductive Episodes (M : Bytes → Prop) (T : Sid) : Option Nat → List Bytes → Prop
  | nil : Episodes M T none []
  | welcome {last : Option Nat} {frames : List Bytes} {lobby : Lobby Sid} {id : Nat}
      (hframes : Episodes M T last frames) (hlists : Lists lobby T id) :
      Episodes M T (some id) (frames ++
        [packet (encodeLobbyJoined lobby.name id), packet (encodeLobbyUpdate lobby)])
  | update {frames : List Bytes} {lobby : Lobby Sid} {id : Nat}
      (hframes : Episodes M T (some id) frames) (hlists : Lists lobby T id) :
      Episodes M T (some id) (frames ++ [packet (encodeLobbyUpdate lobby)])
  | relay {frames : List Bytes} {id playerId : Nat} {msg : Bytes}
      (hframes : Episodes M T (some id) frames) (hrelays : Relays M id playerId msg) :
      Episodes M T (some id) (frames ++ [packet (encodeRelayMessage playerId msg)])

/-- Nobody sends a payload that `M` does not accept. -/
def SendsOnly (M : Bytes → Prop) (_s : Server Sid) : Event Sid → Prop
  | .message _ (.sendMessage msg) _ => M msg
  | _ => True

/-- What a session has been sent fits together, and so does what it has still to be sent. -/
structure Episodic (M : Bytes → Prop) (s : Server Sid) : Prop where
  queued : ∀ T, ∃ last, Episodes M T last (s.sessions T).sendQueue ∧
    ∀ id, (s.sessions T).playerId = some id → last = some id
  answer : ∀ T wbuf, (s.sessions T).pending = some (.requestLobbyUpdate wbuf) →
    ∃ lobby id, wbuf = encodeLobbyUpdate lobby ∧ (s.sessions T).playerId = some id ∧
      Lists lobby T id

end Definitions

variable {Sid : Type} [DecidableEq Sid] [Fintype Sid] {s s' : Server Sid} {e : Event Sid}
  {T : Sid} {L : LobbyRef} {id : Nat} {M : Bytes → Prop} {words : WordLists}

/-! ### What a step posts to one session -/

/-- Nothing; the beginning of an episode; or, to a session under the id it keeps, one frame more. -/
inductive Posted (M : Bytes → Prop) (s s' : Server Sid) (T : Sid) : Prop
  | nothing (hposted : s.posted s' T = [])
      (hkept : ∀ id, (s'.sessions T).playerId = some id → (s.sessions T).playerId = some id)
  | welcome {lobby : Lobby Sid} {id : Nat} (hid : (s'.sessions T).playerId = some id)
      (hlists : Lists lobby T id)
      (hposted : s.posted s' T =
        [packet (encodeLobbyJoined lobby.name id), packet (encodeLobbyUpdate lobby)])
  | update {lobby : Lobby Sid} {id : Nat} (hid : (s.sessions T).playerId = some id)
      (hid' : (s'.sessions T).playerId = some id) (hlists : Lists lobby T id)
      (hposted : s.posted s' T = [packet (encodeLobbyUpdate lobby)])
  | relay {id playerId : Nat} {msg : Bytes} (hid : (s.sessions T).playerId = some id)
      (hid' : (s'.sessions T).playerId = some id) (hrelays : Relays M id playerId msg)
      (hposted : s.posted s' T = [packet (encodeRelayMessage playerId msg)])

omit [Fintype Sid] in
/-- A lobby lists a connected session once at most, and under the id that the session has. -/
theorem Orderly.entries_cases (hord : s.Orderly) (hinv : s.Inv)
    (halive : (s.sessions T).alive = true) (L : LobbyRef) :
    (s.lobbies L).players.filter (·.connection = T) = [] ∨
      ∃ player ∈ (s.lobbies L).players, player.connection = T ∧
        (s.sessions T).playerId = some player.id ∧
          (s.lobbies L).players.filter (·.connection = T) = [player] := by
  by_cases hlists : ∃ player ∈ (s.lobbies L).players, player.connection = T
  · obtain ⟨player, hplayer, hT⟩ := hlists
    exact Or.inr ⟨player, hplayer, hT,
      (hord.agrees T halive L player.id ⟨player, hplayer, hT, rfl⟩).2,
      hord.filter_connection hinv halive hplayer hT⟩
  · refine Or.inl (List.filter_eq_nil_iff.mpr fun player hplayer hT => ?_)
    exact hlists ⟨player, hplayer, of_decide_eq_true hT⟩

omit [Fintype Sid] in
/-- What a broadcast about the lobby as it is after the step posts to a session that keeps its
id. -/
theorem posted_broadcast (hord' : s'.Orderly) (hinv' : s'.Inv) (hnamed' : s'.Named)
    {lobby : Lobby Sid}
    (hlobby : s'.lobbies L = lobby) (halive : (s'.sessions T).alive = (s.sessions T).alive)
    (hid : (s'.sessions T).playerId = (s.sessions T).playerId)
    (hposted : s.posted s' T = if (s.sessions T).alive then
      postsTo lobby.players T (encodeLobbyUpdate lobby) else []) : Posted M s s' T := by
  subst hlobby
  cases hconnected : (s.sessions T).alive with
  | false =>
      rw [hconnected] at hposted
      exact .nothing hposted fun id h => hid ▸ h
  | true =>
      rw [hconnected] at hposted halive
      rw [if_pos rfl, postsTo] at hposted
      rcases hord'.entries_cases hinv' halive L with hnone | ⟨player, hplayer, hT, hown, hone⟩
      · rw [hnone] at hposted
        exact .nothing hposted fun id h => hid ▸ h
      · rw [hone] at hposted
        exact .update (hid ▸ hown) hown
          ⟨hinv'.valid L, hnamed'.lobby L, player, hplayer, hT, rfl⟩ hposted

/-- **One step.** To each session it posts nothing, the two frames of a welcome, or one frame about
the lobby that the session is in. -/
theorem Step.posted_cases (h : Step s e s') (hinv : s.Inv) (hord : s.Orderly) (hnamed : s.Named)
    (hdisc : s.Disciplined e) (hbytes : s.FromBytes words e) (hsends : s.SendsOnly M e)
    (hepisodic : s.Episodic M) (T : Sid) : Posted M s s' T := by
  have hinv' := inv_step h hinv
  have hnamed' := h.named hinv hnamed hbytes
  have hord' := h.orderly hinv hord hdisc
  have hothers := @h.others
  have hstep := h
  cases h with
  | @leaveLobby S draws L playerId lobby hidle hlobby hplayer hremove =>
      have hposted := posted_of_eq (sendQueue_leaveLobby s S T L lobby)
      by_cases hT : T = S
      · subst hT
        rw [if_pos hidle.1, postsTo] at hposted
        rcases hord'.entries_cases hinv' (T := T) (by simpa using hidle.1) L with
          hnone | ⟨_, -, -, hown, -⟩
        · simp only [sendToPlayers_lobbies, setSession_lobbies, setLobby_lobbies_self] at hnone
          rw [hnone] at hposted
          exact .nothing hposted (by simp)
        · simp at hown
      · obtain ⟨-, hid, -, halive⟩ := hothers hT
        exact posted_broadcast hord' hinv' hnamed' (L := L) (by simp) halive hid hposted
  | @sendMessage S msg draws L playerId hidle hlobby hplayer =>
      have hposted := hstep.posted_sendMessage hlobby hplayer T
      cases hconnected : (s.sessions T).alive with
      | false =>
          rw [hconnected] at hposted
          exact .nothing hposted (by simp)
      | true =>
          rw [if_pos hconnected, postsTo, List.filter_comm] at hposted
          rcases hord.entries_cases hinv hconnected L with hnone | ⟨player, hmem, hT, hown, hone⟩
          · rw [hnone] at hposted
            exact .nothing hposted (by simp)
          · rw [hone] at hposted
            by_cases hsame : player.id = playerId
            · exact .nothing (by simpa [hsame] using hposted) (by simp)
            · obtain ⟨sender, hsender, -, rfl⟩ := hord.sound S hidle.settled L _ hlobby hplayer
              have hlt := (hinv.valid L).id_lt sender hsender
              unfold Lobby.maxPlayers at hlt
              have hrelays : Relays M player.id sender.id msg :=
                ⟨Ne.symm hsame, by omega, fits_of_processMessage hbytes.1.choose_spec, hsends⟩
              exact .relay hown (by simpa using hown) hrelays (by simpa [hsame] using hposted)
  | @enterLobby S playerName L id lobby hpending hlobby hadd =>
      have hposted := posted_of_eq (sendQueue_enterLobby s S T L lobby id)
      by_cases hT : T = S
      · subst hT
        have halive : (s.sessions T).alive = true := by
          refine hinv.busy_alive T fun hnone => ?_
          rcases hpending with hpending | ⟨hpending, -⟩
          · cases hnone.symm.trans hpending
          · cases hnone.symm.trans hpending
        have hadded := (hinv.valid L).added hadd
        have hlists : Lists lobby T id :=
          ⟨hadded.valid, by simpa using hnamed'.lobby L, ⟨id, T, playerName⟩,
            hadded.perm.mem_iff.mpr List.mem_cons_self, rfl, rfl⟩
        rw [if_pos rfl, if_pos halive, postsTo] at hposted
        rcases hord'.entries_cases hinv' (T := T) (by simpa using halive) L with
          hnone | ⟨player, -, -, -, hone⟩
        · obtain ⟨player, hplayer, hT, -⟩ := hlists.listed
          simp only [sendToPlayers_lobbies, sendMessage_lobbies, setSession_lobbies,
            setLobby_lobbies_self] at hnone
          exact absurd (decide_eq_true hT) (List.filter_eq_nil_iff.mp hnone player hplayer)
        · simp only [sendToPlayers_lobbies, sendMessage_lobbies, setSession_lobbies,
            setLobby_lobbies_self] at hone
          rw [hone] at hposted
          exact .welcome (by simp) hlists hposted
      · obtain ⟨-, hid, -, halive⟩ := hothers hT
        rw [if_neg hT, List.nil_append] at hposted
        exact posted_broadcast hord' hinv' hnamed' (L := L) (by simp) halive hid hposted
  | @sendUpdate S wbuf hpending =>
      have hposted := posted_of_eq (sendQueue_sendUpdate s S T wbuf)
      by_cases hT : T = S
      · subst hT
        rw [if_pos rfl] at hposted
        obtain ⟨lobby, id, rfl, hid, hlists⟩ := hepisodic.answer T wbuf hpending
        exact .update hid (by simpa using hid) hlists hposted
      · rw [if_neg hT] at hposted
        exact .nothing hposted (by simp [hT])
  | setLobbyLocked | nothing => 
      exact .nothing (posted_of_eq (List.append_nil _).symm) (by simp)
  | @createLobby S | @joinUnknown S | @joinLobby S | @requestLobbyUpdate S | @refuse S
  | @resetLobby S | @disconnect S =>
      refine .nothing (posted_of_eq ?_) ?_
      · by_cases hT : T = S <;> simp [hT]
      · by_cases hT : T = S <;> simp [hT]

/-! ### Runs -/

theorem Step.answer (h : Step s e s') (hinv : s.Inv) (hord : s.Orderly) (hnamed : s.Named)
    (hdisc : s.Disciplined e) (hepisodic : s.Episodic M) {wbuf : Bytes}
    (hpending : (s'.sessions T).pending = some (.requestLobbyUpdate wbuf)) :
    ∃ lobby id, wbuf = encodeLobbyUpdate lobby ∧ (s'.sessions T).playerId = some id ∧
      Lists lobby T id := by
  by_cases hT : T = e.session
  · subst hT
    cases h with
    | @requestLobbyUpdate S draws L hidle hlobby =>
        obtain rfl : encodeLobbyUpdate (s.lobbies L) = wbuf := by simpa using hpending
        obtain ⟨id, hid⟩ := Option.ne_none_iff_exists'.mp hdisc
        refine ⟨s.lobbies L, id, rfl, by simpa using hid, hinv.valid L, hnamed.lobby L, ?_⟩
        exact hord.sound S hidle.settled L id hlobby hid
    | joinUnknown hidle | setLobbyLocked hidle | sendMessage hidle | nothing hidle
    | disconnect hidle => simp [hidle.2] at hpending
    | createLobby | joinLobby | leaveLobby | enterLobby | refuse | resetLobby | sendUpdate =>
        simp at hpending
  · obtain ⟨-, hid, hsame, -⟩ := h.others hT
    rw [hsame] at hpending
    rw [hid]
    exact hepisodic.answer T wbuf hpending

theorem Step.episodic (h : Step s e s') (hinv : s.Inv) (hord : s.Orderly) (hnamed : s.Named)
    (hdisc : s.Disciplined e) (hbytes : s.FromBytes words e) (hsends : s.SendsOnly M e)
    (hepisodic : s.Episodic M) : s'.Episodic M := by
  refine ⟨fun T => ?_, fun T wbuf => h.answer hinv hord hnamed hdisc hepisodic⟩
  obtain ⟨last, hframes, hlast⟩ := hepisodic.queued T
  rw [h.sendQueue hinv T]
  cases h.posted_cases hinv hord hnamed hdisc hbytes hsends hepisodic T with
  | nothing hposted hkept =>
      rw [hposted, List.append_nil]
      exact ⟨last, hframes, fun id hid => hlast id (hkept id hid)⟩
  | @welcome lobby id hid hlists hposted =>
      rw [hposted]
      exact ⟨some id, .welcome hframes hlists, fun id' hid' => hid.symm.trans hid'⟩
  | @update lobby id hid hid' hlists hposted =>
      obtain rfl := hlast id hid
      rw [hposted]
      exact ⟨some id, .update hframes hlists, fun other hother => hid'.symm.trans hother⟩
  | @relay id playerId msg hid hid' hrelays hposted =>
      obtain rfl := hlast id hid
      rw [hposted]
      exact ⟨some id, .relay hframes hrelays, fun other hother => hid'.symm.trans hother⟩

omit [DecidableEq Sid] [Fintype Sid] in
theorem episodic_init : (init : Server Sid).Episodic M where
  queued _ := ⟨none, .nil, fun _ h => by cases h⟩
  answer _ _ h := by cases h

/-- The sessions are disciplined, what they process comes out of bytes, and their payloads are
accepted. -/
def WellBehaved (words : WordLists) (M : Bytes → Prop) (s : Server Sid) (e : Event Sid) : Prop :=
  s.Disciplined e ∧ s.FromBytes words e ∧ s.SendsOnly M e

theorem episodic_of_reachableWhile (h : (serverSystem Sid).ReachableWhile (WellBehaved words M) s) :
    s.Inv ∧ s.Orderly ∧ s.Named ∧ s.Episodic M :=
  inv_and_of_reachableWhile (P := fun s => s.Orderly ∧ s.Named ∧ s.Episodic M)
    ⟨orderly_init, named_init, episodic_init⟩
    (fun hstep hinv ⟨hord, hnamed, hepisodic⟩ ⟨hdisc, hbytes, hsends⟩ =>
      ⟨hstep.orderly hinv hord hdisc, hstep.named hinv hnamed hbytes,
        hstep.episodic hinv hord hnamed hdisc hbytes hsends hepisodic⟩) h

/-- **Episodes.** In every run of well-behaved sessions, what a session has been sent are episodes,
each with the session's own id in all its lists, and the last of them is under the id that the
session has. -/
theorem episodes_of_reachableWhile
    (h : (serverSystem Sid).ReachableWhile (WellBehaved words M) s) (T : Sid) :
    ∃ last, Episodes M T last (s.sessions T).sendQueue ∧
      ∀ id, (s.sessions T).playerId = some id → last = some id :=
  (episodic_of_reachableWhile h).2.2.2.queued T

/-- `{type = messages.vote, vote = 1}`, packed. -/
def packedVote : Bytes := [130, 164, 116, 121, 112, 101, 1, 164, 118, 111, 116, 101, 1]

/-- A session creates a lobby; another one joins it and votes. -/
def chat {Sid : Type} (S T : Sid) : List (Event Sid) :=
  let name : Bytes := [98, 111, 108, 100, 102, 111, 120]
  [.message S (.createLobby [65]) [name], .resume S, .message T (.joinLobby [66] name) [],
    .resume T, .message T (.sendMessage packedVote) []]

theorem wellBehaved_chat (hM : M packedVote) {s : Server (Fin 2)} {e : Event (Fin 2)}
    (hdisc : s.Disciplined e) (he : e ∈ chat 0 1) : s.WellBehaved Net.boldFox M e := by
  refine ⟨hdisc, ?_⟩
  simp only [chat, List.mem_cons, List.not_mem_nil, or_false] at he
  rcases he with rfl | rfl | rfl | rfl | rfl
  · refine ⟨⟨⟨[0, 1, 65], by decide⟩, fun drawn hdrawn => ?_⟩, trivial⟩
    rw [List.mem_singleton.mp hdrawn]
    exact ⟨[98, 111, 108, 100], by decide, [102, 111, 120], by decide, rfl⟩
  · exact ⟨trivial, trivial⟩
  · exact ⟨⟨⟨[2, 1, 66, 7, 98, 111, 108, 100, 102, 111, 120], by decide⟩, by simp⟩, trivial⟩
  · exact ⟨trivial, trivial⟩
  · exact ⟨⟨⟨7 :: 0 :: 13 :: packedVote, by decide⟩, by simp⟩, hM⟩

/-- The first session is sent `lobbyJoined`, two updates and the vote. -/
theorem exists_chat (hM : M packedVote) : ∃ s : Server (Fin 2),
    (serverSystem (Fin 2)).ReachableWhile (WellBehaved Net.boldFox M) s ∧
      (s.sessions 0).sendQueue.map frameType = [some 3, some 10, some 10, some 8] := by
  have hrun : ((serverSystem (Fin 2)).runWhile
      (fun s e => s.Disciplined e ∧ e ∈ chat 0 1) (chat 0 1)).any (fun s =>
        decide ((s.sessions 0).sendQueue.map frameType =
          [some 3, some 10, some 10, some 8])) = true := by
    decide +kernel
  obtain ⟨s, hs, htypes⟩ := (Option.any_eq_true _ _).mp hrun
  refine ⟨s, ?_, of_decide_eq_true htypes⟩
  exact (TransitionSystem.reachableWhile_of_runWhile hs).mono
    fun _ _ h => wellBehaved_chat hM h.1 h.2

/-- What the creator of a lobby is sent while another session joins and votes. -/
theorem episodes_chat : ∃ s : Server (Fin 2),
    (s.sessions 0).sendQueue.map frameType = [some 3, some 10, some 10, some 8] ∧
      ∃ last, Episodes (fun msg => msg = packedVote) (0 : Fin 2) last (s.sessions 0).sendQueue ∧
        ∀ id, (s.sessions 0).playerId = some id → last = some id := by
  obtain ⟨s, hs, htypes⟩ := exists_chat (M := fun msg => msg = packedVote) rfl
  exact ⟨s, htypes, episodes_of_reachableWhile hs (0 : Fin 2)⟩

end ChatGames.Server
