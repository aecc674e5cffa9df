import ChatGames.Proof.HandlerSafety
import ChatGames.Proof.Membership
import ChatGames.Proof.Mirror
import ChatGames.Proof.Network

/-!
# The clients of this repository

The scenes have a client ask for one lobby, with its first request, and send messages once it has
been told that it has joined. Its session is then disciplined: it has an id by the time it processes
what a client with an id has sent, and no such client leaves or asks for an update. What other
clients can bring about does not come up in the whole network, and these clients mirror the server.
-/

namespace ChatGames

namespace Server

section Definitions

variable {Sid : Type} [DecidableEq Sid]

/-- What comes from a client that asks for a lobby first, and sends messages once it has been told
that it is in one. -/
def Expected (history : List (Event Sid)) (s : Server Sid) : Event Sid → Prop
  | .message S (.createLobby _) _ | .message S (.joinLobby _ _) _ =>
      Network.messages history S = []
  | .message S (.sendMessage _) _ => ∃ frame ∈ (s.sessions S).sendQueue, IsJoined frame
  | .message _ _ _ => False
  | .resume _ | .disconnect _ => True

/-- What a server is like that has come across expected events only. -/
structure Tame (words : WordLists) (M : Bytes → Prop) [Fintype Sid] (history : List (Event Sid))
    (s : Server Sid) : Prop where
  reachable : (serverSystem Sid).ReachableWhile
    (fun s e => s.WellBehaved words M e ∧ s.SendsFresh e) s
  new : ∀ S, Network.messages history S = [] → (s.sessions S).lobby = none ∧
    (s.sessions S).playerId = none ∧ (s.sessions S).pending = none
  joined : ∀ S, ∀ frame ∈ (s.sessions S).sendQueue, IsJoined frame →
    (s.sessions S).playerId ≠ none
  answer : ∀ S wbuf, (s.sessions S).pending ≠ some (.requestLobbyUpdate wbuf)

/-- A step that was expected. -/
structure Advances (words : WordLists) (M : Bytes → Prop) [Fintype Sid]
    (history : List (Event Sid)) (s : Server Sid) (e : Event Sid) (s' : Server Sid) : Prop where
  next : (serverSystem Sid).step s e = some s'
  tame : s.Tame words M history
  expected : s.Expected history e
  fromBytes : s.FromBytes words e
  sendsOnly : s.SendsOnly M e

end Definitions

variable {Sid : Type} [DecidableEq Sid] [Fintype Sid] {s s' : Server Sid} {e : Event Sid}
  {words : WordLists} {M : Bytes → Prop} {history : List (Event Sid)}

theorem tame_init : (init : Server Sid).Tame words M [] where
  reachable := .init
  new _ _ := ⟨rfl, rfl, rfl⟩
  joined _ _ hframe := by cases hframe
  answer _ _ hpending := by cases hpending

theorem Tame.inv (h : s.Tame words M history) : s.Inv ∧ s.Orderly := by
  obtain ⟨hinv, hord, -⟩ := episodic_of_reachableWhile (h.reachable.mono fun _ _ hcond => hcond.1)
  exact ⟨hinv, hord⟩

theorem Tame.disciplined (h : s.Tame words M history) (he : s.Expected history e) :
    s.Disciplined e := by
  cases e with
  | message S msg draws =>
      cases msg with
      | createLobby | joinLobby => exact (h.new S he).2.1
      | sendMessage msg =>
          obtain ⟨frame, hframe, hjoined⟩ := he
          exact h.joined S frame hframe hjoined
      | leaveLobby | lockLobby | unlockLobby | requestLobbyUpdate => exact he.elim
  | resume | disconnect => trivial

theorem Tame.sendsFresh (h : s.Tame words M history) : s.SendsFresh e := by
  cases e with
  | resume S =>
      intro wbuf hanswer
      rw [answer?] at hanswer
      split at hanswer
      · rename_i hpending
        exact absurd hpending (h.answer S _)
      · cases hanswer
  | message | disconnect => trivial

namespace Advances

variable (h : Advances words M history s e s')
include h

theorem step : Step s e s' := step_of_system h.next

theorem not_leave (S : Sid) (draws : List Bytes) : e ≠ .message S .leaveLobby draws := by
  rintro rfl
  exact h.expected

theorem new {S : Sid} (hnone : Network.messages (history ++ [e]) S = []) :
    (s'.sessions S).lobby = none ∧ (s'.sessions S).playerId = none ∧
      (s'.sessions S).pending = none := by
  rw [Network.messages, List.filterMap_append, List.append_eq_nil_iff] at hnone
  obtain ⟨hold, hnew⟩ := hnone
  obtain ⟨hlobby, hid, hpending⟩ := h.tame.new S hold
  have hstep := h.step
  by_cases hS : S = e.session
  · subst hS
    cases hstep with
    | enterLobby hentering =>
        rcases hentering with hentering | ⟨hentering, -⟩ <;> cases hpending.symm.trans hentering
    | refuse hentering | resetLobby hentering | sendUpdate hentering =>
        cases hpending.symm.trans hentering
    | disconnect => simpa using ⟨hid, hpending⟩
    | _ => simp [Network.message?] at hnew
  · obtain ⟨hlobby', hid', hpending', -⟩ := hstep.others hS
    exact ⟨hlobby'.trans hlobby, hid'.trans hid, hpending'.trans hpending⟩

theorem joined {S : Sid} {frame : Bytes} (hframe : frame ∈ (s'.sessions S).sendQueue)
    (hjoined : IsJoined frame) : (s'.sessions S).playerId ≠ none := by
  obtain ⟨hinv, hord⟩ := h.tame.inv
  rw [h.step.sendQueue hinv] at hframe
  apply (h.step.playerId_ne_none_iff hinv hord S).mpr
  rcases List.mem_append.mp hframe with hframe | hframe
  · exact Or.inr ⟨h.tame.joined S frame hframe hjoined, h.not_leave S⟩
  · exact Or.inl ⟨frame, hframe, hjoined⟩

theorem answer (S : Sid) (wbuf : Bytes) :
    (s'.sessions S).pending ≠ some (.requestLobbyUpdate wbuf) := by
  intro hpending
  have hexpected := h.expected
  have hstep := h.step
  by_cases hS : S = e.session
  · subst hS
    cases hstep with
    | requestLobbyUpdate => exact hexpected
    | joinUnknown hidle | setLobbyLocked hidle | sendMessage hidle | nothing hidle
    | disconnect hidle => simp [hidle.2] at hpending
    | createLobby | joinLobby | leaveLobby | enterLobby | refuse | resetLobby | sendUpdate =>
        simp at hpending
  · rw [(hstep.others hS).2.2.1] at hpending
    exact h.tame.answer S wbuf hpending

/-- **One step.** It was expected, so it leaves the server as it was to be. -/
theorem tame_next : s'.Tame words M (history ++ [e]) where
  reachable := h.tame.reachable.step
    ⟨⟨h.tame.disciplined h.expected, h.fromBytes, h.sendsOnly⟩, h.tame.sendsFresh⟩ h.next
  new _ := h.new
  joined _ _ := h.joined
  answer := h.answer

end Advances

end Server

namespace Network

section Definitions

variable {Sid : Type} [DecidableEq Sid]

/-- Whoever sends a message has been told that it has joined. -/
def SendsJoined (n : Network Sid) : NetworkEvent Sid → Prop
  | .uplink S (.sendMessage (.sendMessage _)) =>
      ∃ data ∈ (n.down S).net.handled, IsJoined (packet data)
  | .uplink _ _ | .process _ _ | .resume _ | .disconnect _ | .downlink _ _ => True

instance (n : Network Sid) (e : NetworkEvent Sid) : Decidable (n.SendsJoined e) :=
  match e with
  | .uplink S (.sendMessage (.sendMessage _)) => inferInstanceAs <| Decidable <|
      ∃ data ∈ (n.down S).net.handled, frameType (packet data) = some 3
  | .uplink _ (.sendMessage (.createLobby _)) | .uplink _ (.sendMessage (.joinLobby _ _))
  | .uplink _ (.send _) | .uplink _ (.read _) | .uplink _ .readError | .process _ _ | .resume _
  | .disconnect _ | .downlink _ _ => inferInstanceAs (Decidable True)

variable [Fintype Sid]

/-- What the scenes have the clients do. -/
structure Plays (tonumber : Bytes → Option Rat) (M : Bytes → Prop)
    (events : List (NetworkEvent Sid)) : Prop where
  /-- A client asks for a lobby with its first request only. The next frame has another scene; until
  then `keypressed` would ask again, for each further key of the same frame. -/
  asks : ∀ S, ∀ request ∈ (requests events S).tail, ∃ msg, request = .sendMessage msg
  packs : ∀ S msg, .sendMessage msg ∈ requests events S → M msg
  joined : (networkSystem Sid tonumber).Throughout SendsJoined .init events

/-- Whoever has sent a message has been sent a `lobbyJoined`. -/
def Welcomed (n : Network Sid) (requests : Sid → List Net.Request) : Prop :=
  ∀ S msg, .sendMessage msg ∈ requests S →
    ∃ frame ∈ (n.server.sessions S).sendQueue, IsJoined frame

end Definitions

variable {Sid : Type} [DecidableEq Sid] [Fintype Sid] {tonumber : Bytes → Option Rat}
  {words : WordLists} {M : Bytes → Prop} {n n' : Network Sid}
  {requests : Sid → List Net.Request} {S : Sid} {events : List (NetworkEvent Sid)}

theorem Plays.of_concat {e : NetworkEvent Sid} (h : Plays tonumber M (events ++ [e])) :
    Plays tonumber M events where
  asks S request hrequest := by
    apply h.asks S request
    rw [requests_concat]
    cases hrequests : Network.requests events S with
    | nil => rw [hrequests] at hrequest; cases hrequest
    | cons first rest =>
        rw [hrequests] at hrequest
        exact List.mem_append_left _ hrequest
  packs S msg hmsg := by
    apply h.packs S msg
    rw [requests_concat]
    exact List.mem_append_left _ hmsg
  joined := h.joined.concat.1

/-- What the strand processes next was expected. -/
theorem Welcomed.expected (hwelcomed : n.Welcomed requests)
    (hinv : n.Inv tonumber words requests)
    (hasks : ∀ request ∈ (requests S).tail, ∃ msg, request = .sendMessage msg)
    {request : Net.Request} (hnext : (requests S)[n.processed S]? = some request)
    (draws : List Bytes) : n.server.Expected n.history (.message S request.message draws) := by
  have hfirst (hnot : ∀ msg, request ≠ .sendMessage msg) : Network.messages n.history S = [] := by
    rw [hinv.messages S]
    cases hprocessed : n.processed S with
    | zero => rfl
    | succ k =>
        rw [hprocessed] at hnext
        have hrest : request ∈ (requests S).tail := by
          apply List.mem_of_getElem? (i := k)
          rw [List.getElem?_tail, hnext]
        obtain ⟨msg, rfl⟩ := hasks request hrest
        exact absurd rfl (hnot msg)
  cases request with
  | createLobby | joinLobby => exact hfirst fun msg h => by cases h
  | sendMessage msg => exact hwelcomed S msg (List.mem_of_getElem? hnext)

omit [DecidableEq Sid] [Fintype Sid] in
theorem Welcomed.congr (h : n.Welcomed requests) {requests' : Sid → List Net.Request}
    (heq : ∀ T, requests' T = requests T) : n.Welcomed requests' := by
  rwa [funext heq]

theorem Welcomed.serve (hwelcomed : n.Welcomed requests) {e : Event Sid}
    (hadvances : Server.Advances words M n.history n.server e n'.server) :
    n'.Welcomed requests := by
  intro S msg hmsg
  obtain ⟨frame, hframe, hjoined⟩ := hwelcomed S msg hmsg
  refine ⟨frame, ?_, hjoined⟩
  rw [hadvances.step.sendQueue hadvances.tame.inv.1]
  exact List.mem_append_left _ hframe

/-- What a client sends it sends as one that has been welcomed. -/
theorem Welcomed.uplink (hwelcomed : n.Welcomed requests) (hinv : n.Inv tonumber words requests)
    {e : UplinkEvent} (hjoined : n.SendsJoined (.uplink S e)) (link : Uplink) :
    (n.setUp S link).Welcomed fun T => requests T ++ Network.requests [.uplink S e] T := by
  intro T msg hmsg
  rcases List.mem_append.mp hmsg with hmsg | hmsg
  · exact hwelcomed T msg hmsg
  · by_cases hT : T = S
    · subst hT
      rw [requests_uplink_self] at hmsg
      cases e with
      | sendMessage request =>
          obtain rfl := List.mem_singleton.mp hmsg
          obtain ⟨data, hdata, hframe⟩ := hjoined
          refine ⟨packet data, ?_, hframe⟩
          exact (hinv.delivers.handled T).subset (List.mem_map_of_mem hdata)
      | send | read | readError => cases hmsg
    · rw [requests_uplink_of_ne hT] at hmsg
      cases hmsg

/-- **One event.** The server stands still, or takes a step that was expected. -/
theorem Welcomed.step (hwelcomed : n.Welcomed requests)
    (htame : n.server.Tame words M n.history) (hinv : n.Inv tonumber words requests)
    {e : NetworkEvent Sid} (he : Faithful words e) (hjoined : n.SendsJoined e)
    (hasks : ∀ S, ∀ request ∈ (requests S).tail, ∃ msg, request = .sendMessage msg)
    (hpacks : ∀ S msg, .sendMessage msg ∈ requests S → M msg)
    (hstep : n.step tonumber e = some n') :
    (n'.server = n.server ∧ n'.history = n.history ∨
      ∃ event, Server.Advances words M n.history n.server event n'.server ∧
        n'.history = n.history ++ [event]) ∧
      n'.Welcomed fun T => requests T ++ Network.requests [e] T := by
  have hserved (event : Event Sid) (served : Network Sid)
      (hexpected : n.server.Expected n.history event) (hbytes : n.server.FromBytes words event)
      (hsends : n.server.SendsOnly M event) (hserve : n.serve event = some served)
      (hquiet : ∀ T, Network.requests [e] T = []) :
      (served.server = n.server ∧ served.history = n.history ∨
        ∃ event, Server.Advances words M n.history n.server event served.server ∧
          served.history = n.history ++ [event]) ∧
        served.Welcomed fun T => requests T ++ Network.requests [e] T := by
    obtain ⟨hnext, hhistory, -⟩ := step_of_serve hserve
    have hadvances : Server.Advances words M n.history n.server event served.server :=
      ⟨hnext, htame, hexpected, hbytes, hsends⟩
    refine ⟨Or.inr ⟨event, hadvances, hhistory⟩, ?_⟩
    exact (hwelcomed.serve hadvances).congr fun T => by rw [hquiet, List.append_nil]
  cases e with
  | uplink S e =>
      obtain ⟨link, hlink, rfl⟩ := Option.map_eq_some_iff.mp hstep
      exact ⟨Or.inl ⟨rfl, rfl⟩, hwelcomed.uplink hinv hjoined link⟩
  | process S draws =>
      obtain ⟨request, served, -, hnext, hfits, hserve, rfl⟩ := hinv.exists_request hstep
      have hsends : n.server.SendsOnly M (.message S request.message draws) := by
        cases request with
        | createLobby | joinLobby => trivial
        | sendMessage msg => exact hpacks S msg (List.mem_of_getElem? hnext)
      exact hserved _ served (hwelcomed.expected hinv (hasks S) hnext draws)
        ⟨⟨_, Net.processMessage_body hfits⟩, he⟩ hsends hserve fun T => rfl
  | resume S =>
      exact hserved (.resume S) n' trivial trivial trivial hstep fun T => rfl
  | disconnect S =>
      change n.disconnect S = some n' at hstep
      rw [Network.disconnect] at hstep
      split at hstep
      · exact hserved (.disconnect S) n' trivial trivial trivial hstep fun T => rfl
      · cases hstep
  | downlink S e =>
      cases e with
      | sendMessage data => cases hstep
      | runHandler | write _ _ | complete _ _ | receive _ =>
          obtain ⟨link, hlink, rfl⟩ := Option.map_eq_some_iff.mp hstep
          exact ⟨Or.inl ⟨rfl, rfl⟩, hwelcomed.congr fun T => List.append_nil _⟩

/-- What expected steps keep holds of the server in every run in which the clients play. -/
theorem invariant_of_run {P : List (Event Sid) → Server Sid → Prop} (hinit : P [] .init)
    (hnext : ∀ history s e s', Server.Advances words M history s e s' → P history s →
      P (history ++ [e]) s')
    (hevents : ∀ e ∈ events, Faithful words e) (hplays : Plays tonumber M events)
    (hrun : (networkSystem Sid tonumber).run events = some n) :
    P n.history n.server ∧ n.server.Tame words M n.history ∧
      n.Welcomed (Network.requests events) := by
  induction events using List.reverseRecOn generalizing n with
  | nil =>
      obtain rfl : init = n := Option.some.inj hrun
      exact ⟨hinit, Server.tame_init, fun S msg hmsg => by cases hmsg⟩
  | append_singleton events e ih =>
      obtain ⟨before, hbefore, hstep⟩ := TransitionSystem.run_concat_eq_some.mp hrun
      have hearlier : ∀ e ∈ events, Faithful words e := fun e he =>
        hevents e (List.mem_append_left _ he)
      have hplayed := hplays.of_concat
      obtain ⟨hP, htame, hwelcomed⟩ := ih hearlier hplayed hbefore
      obtain ⟨hserver, hwelcomed'⟩ := hwelcomed.step htame (inv_of_run hearlier hbefore)
        (hevents e (by simp)) (hplays.joined.concat.2 before hbefore) hplayed.asks hplayed.packs
        hstep
      refine and_assoc.mp ⟨?_, hwelcomed'.congr fun T => requests_concat events e T⟩
      rcases hserver with ⟨hsame, hhistory⟩ | ⟨event, hadvances, hhistory⟩
      · rw [hsame, hhistory]
        exact ⟨hP, htame⟩
      · rw [hhistory]
        exact ⟨hnext _ _ _ _ hadvances hP, hadvances.tame_next⟩

theorem tame_of_run (hevents : ∀ e ∈ events, Faithful words e) (hplays : Plays tonumber M events)
    (hrun : (networkSystem Sid tonumber).run events = some n) :
    n.server.Tame words M n.history ∧ n.Welcomed (Network.requests events) :=
  (invariant_of_run (P := fun _ _ => True) trivial (fun _ _ _ _ _ _ => trivial) hevents hplays
    hrun).2

/-! ### A visit -/

def asking {Sid : Type} (S : Sid) (request : Net.Request) (size : Nat) (draws : List Bytes) :
    List (NetworkEvent Sid) :=
  [.uplink S (.sendMessage request), .uplink S (.send [.sent size]), .uplink S (.read size),
    .process S draws]

/-- Frames of these sizes are written one after the other, and read at once. -/
def delivery {Sid : Type} (S : Sid) (sizes : List Nat) : List (NetworkEvent Sid) :=
  sizes.map (fun _ => .downlink S .runHandler) ++
    sizes.flatMap (fun size => [.downlink S (.write 0 size), .downlink S (.complete 0 false),
      .downlink S .runHandler]) ++ [.downlink S (.receive sizes.sum)]

/-- A client creates a lobby; another one joins it, is told so, and votes. -/
def visit {Sid : Type} (S T : Sid) : List (NetworkEvent Sid) :=
  asking S (.createLobby [65]) 7 [[98, 102]] ++ [.resume S] ++ delivery S [9, 9] ++
    asking T (.joinLobby [66] [98, 102]) 10 [] ++ [.resume T] ++ delivery T [9, 12] ++
      delivery S [12] ++ asking T (.sendMessage Server.packedVote) 20 [] ++ delivery S [21]

/-- The frames that a client has been sent, and those of them that it has handled. -/
theorem exists_frames (hevents : ∀ e ∈ events, Faithful words e)
    (hplays : Plays tonumber LobbyMessage.Packs events)
    (hrun : (networkSystem Sid tonumber).run events = some n) (S : Sid) :
    ∃ last frames,
      Server.Shows LobbyMessage.unpack S last (n.server.sessions S).sendQueue frames ∧
        ((n.server.sessions S).alive = true → ∀ L id, n.server.EntryAt S L id →
          (Net.Table.init.receive frames).Mirrors (n.server.lobbies L) id) ∧
        List.Forall₂ (Net.Tells LobbyMessage.unpack)
          (frames.take (n.down S).net.handled.length) ((n.down S).net.handled.map packet) := by
  obtain ⟨htame, -⟩ := tame_of_run hevents hplays hrun
  have hdelivers := (inv_of_run hevents hrun).delivers
  obtain ⟨last, frames, hshows, hmirrors⟩ :=
    Server.exists_mirrors htame.reachable (fun _ hpacks => hpacks.exists_unpack) S
  have hhandled := List.forall₂_take (n.down S).net.handled.length hshows.tells
  have hfront := List.prefix_iff_eq_take.mp (hdelivers.handled S)
  rw [List.length_map] at hfront
  rw [← hfront] at hhandled
  exact ⟨last, frames, hshows, hmirrors, hhandled⟩

end Network

end ChatGames
