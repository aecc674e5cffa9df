import ChatGames.Proof.Playing

/-!
# What players hear of each other

Nobody who plays leaves, so ids are given out in the order of entering and are not given out again.
Whatever has a player's id on it in the queue of another one is then what that player has said: all
of it, where the other one was there before.
-/

namespace ChatGames

def ClientMessage.payload? : ClientMessage → Option Bytes
  | .sendMessage msg => some msg
  | .createLobby _ | .joinLobby _ _ | .leaveLobby | .lockLobby | .unlockLobby
  | .requestLobbyUpdate => none

namespace Server

section Definitions

variable {Sid : Type} [DecidableEq Sid]

/-- What a session has relayed. -/
def said (history : List (Event Sid)) (S : Sid) : List Bytes :=
  (Network.messages history S).filterMap ClientMessage.payload?

/-- What the event has a session relay. -/
def sentBy (S : Sid) : Event Sid → List Bytes
  | .message T (.sendMessage msg) _ => if T = S then [msg] else []
  | .message _ _ _ | .resume _ | .disconnect _ => []

/-- What players are sent of each other, where nobody leaves. -/
structure Audible (history : List (Event Sid)) (s : Server Sid) : Prop where
  closed : ∀ L, ∀ id ∈ (s.lobbies L).ids, ∀ m < id, m ∈ (s.lobbies L).ids
  outside : ∀ S, (s.sessions S).playerId = none →
    (s.sessions S).sendQueue = [] ∧ said history S = []
  tags : ∀ M L j, (s.sessions M).alive = true → s.EntryAt M L j →
    ∀ frame ∈ (s.sessions M).sendQueue, IsRelay frame →
      ∃ S i, s.EntryAt S L i ∧ TaggedRelay i frame
  heard : ∀ S M L i j, S ≠ M → (s.sessions M).alive = true → s.EntryAt S L i → s.EntryAt M L j →
    ∃ missed heard, said history S = missed ++ heard ∧
      (s.sessions M).sendQueue.filter (TaggedRelay i) =
        heard.map (fun msg => packet (encodeRelayMessage i msg)) ∧ (j < i → missed = [])

end Definitions

variable {Sid : Type} [DecidableEq Sid] [Fintype Sid] {s s' : Server Sid} {e : Event Sid}
  {history : List (Event Sid)} {T : Sid} {L : LobbyRef} {id : Nat}

/-- Whoever is listed after a step and was not before has come in by it, under the least free id. -/
theorem Step.newcomer (h : Step s e s') (hinv : s.Inv) (hentry : s'.EntryAt T L id)
    (hnew : ¬s.EntryAt T L id) : e = .resume T ∧ (∃ section_, (s.sessions T).pending =
        some section_ ∧ ∀ wbuf, section_ ≠ .requestLobbyUpdate wbuf) ∧
      IsLeast {n | n ∉ (s.lobbies L).ids} id ∧
        ∀ M j, s'.EntryAt M L j → s.EntryAt M L j ∨ M = T ∧ j = id := by
  obtain ⟨player, hplayer, rfl, rfl⟩ := hentry
  have hchange := h.lobbyChange L
  have hentries (M : Sid) (j : Nat) (hM : s'.EntryAt M L j) : ∃ other ∈ (s'.lobbies L).players,
      other.connection = M ∧ other.id = j := hM
  generalize hlobby : s'.lobbies L = lobby at hchange hplayer hentries
  cases hchange with
  | same | lockSet => exact absurd ⟨player, hplayer, rfl, rfl⟩ hnew
  | created => cases hplayer
  | left he hidle hlobby hid hremove =>
      obtain ⟨rfl, -⟩ := Lobby.removePlayer_eq_ok (hinv.valid L) hremove
      exact absurd ⟨player, (List.mem_filter.mp hplayer).1, rfl, rfl⟩ hnew
  | @entered playerName id lobby hpending hlobby' hsession he hadd =>
      have hadded := (hinv.valid L).added hadd
      rcases List.mem_cons.mp (hadded.perm.mem_iff.mp hplayer) with rfl | hold
      · refine ⟨he, ?_, hadded.least, fun M j hM => ?_⟩
        · rcases hpending with hpending | ⟨hpending, -⟩
          · exact ⟨_, hpending, fun wbuf hsame => by cases hsame⟩
          · exact ⟨_, hpending, fun wbuf hsame => by cases hsame⟩
        · obtain ⟨other, hother, rfl, rfl⟩ := hentries M j hM
          rcases List.mem_cons.mp (hadded.perm.mem_iff.mp hother) with rfl | hold
          · exact Or.inr ⟨rfl, rfl⟩
          · exact Or.inl ⟨other, hold, rfl, rfl⟩
      · exact absurd ⟨player, hold, rfl, rfl⟩ hnew

/-! ### What is said -/

omit [Fintype Sid] in
theorem said_concat (history : List (Event Sid)) (e : Event Sid) (S : Sid) :
    said (history ++ [e]) S = said history S ++ sentBy S e := by
  rw [said, Network.messages, List.filterMap_append, List.filterMap_append, ← Network.messages,
    ← said]
  cases e with
  | message T msg draws =>
      by_cases hT : T = S
      · cases msg <;> simp [Network.message?, sentBy, ClientMessage.payload?, hT]
      · cases msg <;> simp [Network.message?, sentBy, hT]
  | resume | disconnect => rfl

omit [Fintype Sid] in
theorem sentTo_eq {S M : Sid} (halive : (s.sessions M).alive = true) (e : Event Sid) :
    s.sentTo S M e = sentBy S e := by
  cases e with
  | message T msg draws => cases msg <;> simp [sentTo, sentBy, halive]
  | resume | disconnect => rfl

omit [Fintype Sid] in
theorem eq_of_sentBy_ne {S : Sid} (h : sentBy S e ≠ []) :
    ∃ msg draws, e = .message S (.sendMessage msg) draws := by
  cases e with
  | message T msg draws =>
      cases msg with
      | sendMessage msg =>
          rw [sentBy] at h
          split at h
          · rename_i hT
            exact ⟨msg, draws, by rw [hT]⟩
          · exact absurd rfl h
      | createLobby | joinLobby | leaveLobby | lockLobby | unlockLobby | requestLobbyUpdate =>
          exact absurd rfl h
  | resume | disconnect => exact absurd rfl h

/-! ### One step -/

variable {words : WordLists} {M : Bytes → Prop}

namespace Advances

variable (h : Advances words M history s e s')
include h

theorem kept (hentry : s.EntryAt T L id) : s'.EntryAt T L id :=
  h.step.entryAt_of_not_leave h.tame.inv.1 h.not_leave hentry

theorem mem_ids (hid : id ∈ (s.lobbies L).ids) : id ∈ (s'.lobbies L).ids := by
  obtain ⟨T, hentry⟩ := mem_ids_iff.mp hid
  exact mem_ids_iff.mpr ⟨T, h.kept hentry⟩

theorem posted_cases (T : Sid) : Posted M s s' T := by
  obtain ⟨hinv, hord, hnamed, hepisodic⟩ :=
    episodic_of_reachableWhile (h.tame.reachable.mono fun _ _ hcond => hcond.1)
  exact h.step.posted_cases hinv hord hnamed (h.tame.disciplined h.expected) h.fromBytes
    h.sendsOnly hepisodic T

/-- Whoever comes in has been sent nothing and has said nothing. -/
theorem newcomer_outside (haudible : s.Audible history) (hentry : s'.EntryAt T L id)
    (hnew : ¬s.EntryAt T L id) : (s.sessions T).sendQueue = [] ∧ said history T = [] := by
  obtain ⟨hinv, hord⟩ := h.tame.inv
  obtain ⟨-, ⟨section_, hpending, hsection⟩, -⟩ := h.step.newcomer hinv hentry hnew
  exact haudible.outside T (hord.playerId_eq_none hpending hsection)

theorem closed (haudible : s.Audible history) (hid : id ∈ (s'.lobbies L).ids) {m : Nat}
    (hm : m < id) : m ∈ (s'.lobbies L).ids := by
  apply h.mem_ids
  obtain ⟨T, hentry⟩ := mem_ids_iff.mp hid
  by_cases hold : s.EntryAt T L id
  · exact haudible.closed L id (mem_ids_iff.mpr ⟨T, hold⟩) m hm
  · obtain ⟨-, -, hleast, -⟩ := h.step.newcomer h.tame.inv.1 hentry hold
    by_contra hfree
    exact absurd (hleast.2 hfree) (Nat.not_le.mpr hm)

theorem outside (haudible : s.Audible history) (hid : (s'.sessions T).playerId = none) :
    (s'.sessions T).sendQueue = [] ∧ said (history ++ [e]) T = [] := by
  obtain ⟨hinv, hord⟩ := h.tame.inv
  have hnone : (s.sessions T).playerId = none := by
    by_contra hsome
    exact (h.step.playerId_ne_none_iff hinv hord T).mpr (Or.inr ⟨hsome, h.not_leave T⟩) hid
  obtain ⟨hqueue, hsaid⟩ := haudible.outside T hnone
  constructor
  · rw [h.step.sendQueue hinv, hqueue, List.nil_append]
    cases h.posted_cases T with
    | nothing hposted => exact hposted
    | welcome hid' => cases hid.symm.trans hid'
    | update _ hid' | relay _ hid' => cases hid.symm.trans hid'
  · rw [said_concat, hsaid, List.nil_append]
    by_contra hsent
    obtain ⟨msg, draws, rfl⟩ := eq_of_sentBy_ne hsent
    obtain ⟨frame, hframe, -⟩ : ∃ frame ∈ (s.sessions T).sendQueue, IsJoined frame := h.expected
    rw [hqueue] at hframe
    cases hframe

/-- What is relayed to a player comes from one of its lobby. -/
theorem posted_tags {M : Sid} {j : Nat} (halive : (s.sessions M).alive = true)
    (hentry : s.EntryAt M L j) {frame : Bytes} (hframe : frame ∈ s.posted s' M)
    (hrelay : IsRelay frame) : ∃ S i, s.EntryAt S L i ∧ TaggedRelay i frame := by
  obtain ⟨hinv, hord⟩ := h.tame.inv
  rcases h.step.mayPost hinv hframe with ⟨lobbyId, id, -, -, rfl⟩ | ⟨lobby, rfl⟩ |
    ⟨msg, draws, L', i, -, hidle, hlobby, hid, rfl, player, hplayer, hM, -⟩
  · simp [IsRelay] at hrelay
  · simp [IsRelay] at hrelay
  · obtain ⟨hown, -⟩ := hord.agrees M halive L j hentry
    obtain ⟨hother, -⟩ := hord.agrees M halive L' player.id ⟨player, hplayer, hM, rfl⟩
    obtain rfl : L' = L := Option.some.inj (hother.symm.trans hown)
    exact ⟨e.session, i, hord.sound _ hidle.settled L' i hlobby hid, hrelay,
      relayTag_encodeRelayMessage i msg⟩

/-- A step that lets somebody in relays nothing. -/
theorem not_relay_of_newcomer (hentry : s'.EntryAt T L id) (hnew : ¬s.EntryAt T L id) {M : Sid}
    {frame : Bytes} (hframe : frame ∈ s.posted s' M) : ¬IsRelay frame := by
  obtain ⟨he, -⟩ := h.step.newcomer h.tame.inv.1 hentry hnew
  intro hrelay
  rcases h.step.mayPost h.tame.inv.1 hframe with ⟨lobbyId, id, -, -, rfl⟩ | ⟨lobby, rfl⟩ |
    ⟨msg, draws, -, -, hmessage, -⟩
  · simp [IsRelay] at hrelay
  · simp [IsRelay] at hrelay
  · cases he.symm.trans hmessage

theorem tags (haudible : s.Audible history) {M : Sid} {j : Nat}
    (halive : (s'.sessions M).alive = true) (hentry : s'.EntryAt M L j) {frame : Bytes}
    (hframe : frame ∈ (s'.sessions M).sendQueue) (hrelay : IsRelay frame) :
    ∃ S i, s'.EntryAt S L i ∧ TaggedRelay i frame := by
  have halive₀ := h.step.alive_of_alive halive
  rw [h.step.sendQueue h.tame.inv.1] at hframe
  by_cases hold : s.EntryAt M L j
  · have hsender : ∃ S i, s.EntryAt S L i ∧ TaggedRelay i frame := by
      rcases List.mem_append.mp hframe with hframe | hframe
      · exact haudible.tags M L j halive₀ hold frame hframe hrelay
      · exact h.posted_tags halive₀ hold hframe hrelay
    obtain ⟨S, i, hS, htagged⟩ := hsender
    exact ⟨S, i, h.kept hS, htagged⟩
  · rw [(h.newcomer_outside haudible hentry hold).1, List.nil_append] at hframe
    exact absurd hrelay (h.not_relay_of_newcomer hentry hold hframe)

/-- What is heard after a step in which both were players before. -/
theorem heard_of_old (haudible : s.Audible history) {S M : Sid} {i j : Nat} (hne : S ≠ M)
    (halive : (s.sessions M).alive = true) (hS : s.EntryAt S L i) (hM : s.EntryAt M L j) :
    ∃ missed heard, said (history ++ [e]) S = missed ++ heard ∧
      (s'.sessions M).sendQueue.filter (TaggedRelay i) =
        heard.map (fun msg => packet (encodeRelayMessage i msg)) ∧ (j < i → missed = []) := by
  obtain ⟨hinv, hord⟩ := h.tame.inv
  obtain ⟨missed, heard, hsaid, hqueue, hall⟩ := haudible.heard S M L i j hne halive hS hM
  refine ⟨missed, heard ++ sentBy S e, ?_, ?_, hall⟩
  · rw [said_concat, hsaid, List.append_assoc]
  · rw [h.step.sendQueue hinv, List.filter_append, hqueue, List.map_append,
      h.step.posted_tagged hinv hord (h.tame.disciplined h.expected) ⟨hS, j, hM⟩ hne,
      sentTo_eq halive]

/-- Nothing that was relayed before carries a new id. -/
theorem untagged_of_newcomer (haudible : s.Audible history) {S M : Sid} {i j : Nat}
    (halive : (s.sessions M).alive = true) (hS : s'.EntryAt S L i) (hnew : ¬s.EntryAt S L i)
    (hM : s.EntryAt M L j) : (s'.sessions M).sendQueue.filter (TaggedRelay i) = [] := by
  obtain ⟨hinv, -⟩ := h.tame.inv
  obtain ⟨-, -, hleast, -⟩ := h.step.newcomer hinv hS hnew
  rw [h.step.sendQueue hinv, List.filter_eq_nil_iff]
  intro frame hframe htagged
  obtain ⟨hrelay, htag⟩ : TaggedRelay i frame := of_decide_eq_true htagged
  rcases List.mem_append.mp hframe with hframe | hframe
  · obtain ⟨T, k, hT, -, htag'⟩ := haudible.tags M L j halive hM frame hframe hrelay
    have hsame : UInt8.ofNat k = UInt8.ofNat i := Option.some.inj (htag'.symm.trans htag)
    obtain rfl := (inv_step h.step hinv).eq_of_tag_eq (h.kept hT) hS hsame
    exact hleast.1 (mem_ids_iff.mpr ⟨T, hT⟩)
  · exact h.not_relay_of_newcomer hS hnew hframe hrelay

theorem heard (haudible : s.Audible history) {S M : Sid} {i j : Nat} (hne : S ≠ M)
    (halive : (s'.sessions M).alive = true) (hS : s'.EntryAt S L i) (hM : s'.EntryAt M L j) :
    ∃ missed heard, said (history ++ [e]) S = missed ++ heard ∧
      (s'.sessions M).sendQueue.filter (TaggedRelay i) =
        heard.map (fun msg => packet (encodeRelayMessage i msg)) ∧ (j < i → missed = []) := by
  have halive₀ := h.step.alive_of_alive halive
  have hinv := h.tame.inv.1
  by_cases hold : s.EntryAt M L j
  · by_cases hother : s.EntryAt S L i
    · exact h.heard_of_old haudible hne halive₀ hother hold
    · -- the newcomer has said nothing yet
      obtain ⟨he, -⟩ := h.step.newcomer hinv hS hother
      refine ⟨[], [], ?_, h.untagged_of_newcomer haudible halive₀ hS hother hold, fun _ => rfl⟩
      rw [said_concat, (h.newcomer_outside haudible hS hother).2, he]
      rfl
  · -- it has missed all that was said before
    obtain ⟨-, -, hleast, hothers⟩ := h.step.newcomer hinv hM hold
    have hother : s.EntryAt S L i := by
      rcases hothers S i hS with hother | ⟨hsame, -⟩
      · exact hother
      · exact absurd hsame hne
    refine ⟨said (history ++ [e]) S, [], (List.append_nil _).symm, ?_, fun hlt => ?_⟩
    · rw [h.step.sendQueue hinv, (h.newcomer_outside haudible hM hold).1, List.nil_append,
        List.map_nil, List.filter_eq_nil_iff]
      intro frame hframe htagged
      have hrelay : IsRelay frame := (of_decide_eq_true htagged : TaggedRelay i frame).1
      exact h.not_relay_of_newcomer hM hold hframe hrelay
    · exact absurd (haudible.closed L i (mem_ids_iff.mpr ⟨S, hother⟩) j hlt) hleast.1

end Advances

end Server

/-! ### What a client is told -/

namespace Net

variable {β : Type} {unpack : Bytes → Except LuaError β} {i : Nat}

end Net

namespace Network

variable {Sid : Type} [DecidableEq Sid] [Fintype Sid] {tonumber : Bytes → Option Rat}
  {words : WordLists} {M : Bytes → Prop} {n : Network Sid} {events : List (NetworkEvent Sid)}
  {S R : Sid} {L : LobbyRef} {i j : Nat}

/-- The payloads that a client sends. -/
def said (requests : List Net.Request) : List Bytes :=
  requests.filterMap fun request => request.message.payload?

end Network

end ChatGames
