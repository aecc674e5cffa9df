import ChatGames.Library.Outcome
import ChatGames.Network
import ChatGames.Proof.Downlink
import ChatGames.Proof.Sendable
import ChatGames.Proof.Uplink

/-!
# From client to client

In every run of the network, the server takes the steps of a run of its own in which the messages
of each session are the first of the requests its client made, and each client has handled the first
of the frames its session sent: what is proved about the runs of the server is so about what clients
ask for and what they see. Nothing but time is between the two: a session with nothing on its way
has processed all requests, and its client has handled all frames.
-/

namespace ChatGames

namespace Connection

variable {conn conn' : Connection}

/-- What has been posted stays posted. -/
theorem prefix_posted {result : ReadResult} (h : conn.onRead result = .ok conn') :
    conn.posted <+: conn'.posted := by
  cases result with
  | error =>
      obtain rfl := Except.ok.inj h
      exact List.prefix_refl _
  | received chunk =>
      obtain ⟨between, hprocess, hlast⟩ := Outcome.bind_eq_ok.mp h
      obtain rfl := Except.ok.inj hlast
      obtain ⟨⟨msg, rest⟩, -, hpost⟩ := Outcome.bind_eq_ok.mp hprocess
      cases msg with
      | none =>
          obtain rfl := Except.ok.inj hpost
          exact List.prefix_refl _
      | some msg =>
          obtain rfl := Except.ok.inj hpost
          exact List.prefix_append _ _

end Connection

theorem Uplink.prefix_posted {link link' : Uplink} {e : UplinkEvent}
    (hstep : link.step e = some link') : link.conn.posted <+: link'.conn.posted := by
  cases e with
  | sendMessage request =>
      obtain rfl := Option.some.inj hstep
      exact List.prefix_refl _
  | send results =>
      change link.send results = some link' at hstep
      rw [send] at hstep
      split at hstep
      · obtain rfl := Option.some.inj hstep
        exact List.prefix_refl _
      · cases hstep
  | read size =>
      change link.read size = some link' at hstep
      rw [read] at hstep
      split at hstep
      · split at hstep
        · rename_i hread
          obtain rfl := Option.some.inj hstep
          exact Connection.prefix_posted hread
        · cases hstep
      · cases hstep
  | readError =>
      change link.readError = some link' at hstep
      rw [readError] at hstep
      split at hstep
      · rename_i hread
        obtain rfl := Option.some.inj hstep
        exact Connection.prefix_posted hread
      · cases hstep

theorem Net.processMessage_body {request : Request} (h : request.message.Fits) :
    processMessage request.body = .ok (some request.message) :=
  processMessage_fields h

theorem Net.body_length_lt {request : Request} (h : request.message.Fits) :
    request.body.length < 2 ^ 32 - 4 := by
  have hfields := fields_length_lt h
  rw [Request.body, List.length_cons]
  omega

/-- Frames that can be sent are the packets of some messages. -/
theorem exists_packets {frames : List Bytes} (h : ∀ frame ∈ frames, Sendable frame) :
    ∃ bodies : List Bytes, frames = bodies.map packet ∧
      ∀ body ∈ bodies, body.length < 2 ^ 32 ∧ Net.hasHandler body = true := by
  obtain ⟨bodies, hbodies⟩ := Pointwise.exists_forall₂ h
  refine ⟨bodies, ?_, Pointwise.forall_right hbodies fun _ _ hsent => hsent.2⟩
  rw [← List.forall₂_eq_eq_eq, List.forall₂_map_right_iff]
  exact hbodies.imp fun _ _ hsent => hsent.1

/-- The writes of one step of the server. -/
theorem Downlink.Inv.sendAll {tonumber : Bytes → Option Rat} {link : Downlink}
    {bodies more : List Bytes} (h : link.Inv tonumber bodies)
    (hmore : ∀ body ∈ more, body.length < 2 ^ 32 ∧ Net.hasHandler body = true) :
    ((more.map packet).foldl Downlink.send link).Inv tonumber (bodies ++ more) := by
  induction more generalizing link bodies with
  | nil => rwa [List.append_nil]
  | cons body more ih =>
      obtain ⟨hbody, hmore⟩ := List.forall_mem_cons.mp hmore
      have hnext := ih (h.send hbody.1) hmore
      rwa [List.append_assoc] at hnext

namespace Network

section Definitions

variable {Sid : Type} [DecidableEq Sid]

def request? (S : Sid) : NetworkEvent Sid → Option Net.Request
  | .uplink T e => if T = S then Uplink.request? e else none
  | .process _ _ | .resume _ | .disconnect _ | .downlink _ _ => none

/-- The requests of a client. -/
def requests (events : List (NetworkEvent Sid)) (S : Sid) : List Net.Request :=
  events.filterMap (request? S)

def message? (S : Sid) : Event Sid → Option ClientMessage
  | .message T msg _ => if T = S then some msg else none
  | .resume _ | .disconnect _ => none

/-- The messages a session has processed. -/
def messages (history : List (Event Sid)) (S : Sid) : List ClientMessage :=
  history.filterMap (message? S)

/-- Requests have strings that fit, no timeout has taken anything, and lobbies are named out of the
word lists. -/
def Faithful (words : WordLists) : NetworkEvent Sid → Prop
  | .uplink _ (.sendMessage request) => request.message.Fits
  | .uplink _ (.send results) => ∀ part, .timeout part ∈ results → part = 0
  | .process _ draws => ∀ name ∈ draws, words.Generates name
  | .uplink _ (.read _) | .uplink _ .readError => True
  | .resume _ | .disconnect _ | .downlink _ _ => True

/-- Nothing of the session is on its way. -/
structure Settled (n : Network Sid) (S : Sid) : Prop where
  sendQueue : (n.up S).net.sendQueue.toList = []
  uplink : (n.up S).wire = []
  readBuf : (n.up S).conn.readBuf = []
  strand : n.processed S = (n.up S).conn.posted.length
  writeStrand : (n.down S).conn.strand = []
  writeQueue : (n.down S).conn.sendQueue = []
  downlink : (n.down S).wire = []
  recvQueue : (n.down S).net.recvQueue.toList = []

variable [Fintype Sid]

structure Delivers (n : Network Sid) (requests : Sid → List Net.Request) : Prop where
  run : (serverSystem Sid).run n.history = some n.server
  processed : ∀ S, messages n.history S <+: (requests S).map Net.Request.message
  handled : ∀ S, (n.down S).net.handled.map packet <+: (n.server.sessions S).sendQueue
  settled : ∀ S, n.Settled S →
    messages n.history S = (requests S).map Net.Request.message ∧
      (n.down S).net.handled.map packet = (n.server.sessions S).sendQueue

structure Inv (tonumber : Bytes → Option Rat) (words : WordLists) (n : Network Sid)
    (requests : Sid → List Net.Request) : Prop where
  server : n.server.Inv ∧ n.server.Named ∧ n.server.Readable
  run : (serverSystem Sid).run n.history = some n.server
  fits : ∀ S, ∀ request ∈ requests S, request.message.Fits
  up : ∀ S, (n.up S).Inv ((requests S).map Net.Request.body)
  processed_le : ∀ S, n.processed S ≤ (n.up S).conn.posted.length
  messages : ∀ S, messages n.history S =
    ((requests S).take (n.processed S)).map Net.Request.message
  down : ∀ S, ∃ bodies : List Bytes, (n.down S).Inv tonumber bodies ∧
    (n.server.sessions S).sendQueue = bodies.map packet ∧
      ∀ body ∈ bodies, Net.hasHandler body = true

end Definitions

variable {Sid : Type} [DecidableEq Sid] [Fintype Sid] {tonumber : Bytes → Option Rat}
  {words : WordLists} {n n' : Network Sid} {requests : Sid → List Net.Request} {S : Sid}

theorem inv_init : Inv tonumber words (init : Network Sid) fun _ => [] where
  server := ⟨Server.inv_init, Server.named_init, Server.readable_init⟩
  run := rfl
  fits _ _ h := by cases h
  up _ := Uplink.inv_init
  processed_le _ := Nat.le_refl 0
  messages _ := rfl
  down _ := ⟨[], Downlink.inv_init, rfl, fun _ h => by cases h⟩

/-- The messages posted are the first of the requests. -/
theorem Inv.prefix_posted (h : n.Inv tonumber words requests) (S : Sid) :
    (n.up S).conn.posted <+: (requests S).map Net.Request.body :=
  (h.up S).carries.order

theorem step_of_serve {e : Event Sid} (h : n.serve e = some n') :
    (serverSystem Sid).step n.server e = some n'.server ∧ n'.history = n.history ++ [e] ∧
      n'.up = n.up ∧ n'.processed = n.processed ∧
        ∀ T, n'.down T = (n.server.posted n'.server T).foldl Downlink.send (n.down T) := by
  rw [Network.serve] at h
  split at h
  · cases h
  · rename_i server hok
    obtain rfl := Option.some.inj h
    refine ⟨?_, rfl, rfl, rfl, fun T => rfl⟩
    change (n.server.step e).toOption = some server
    rw [hok]
    rfl

/-- What a step of the server changes. -/
theorem Inv.serve (h : n.Inv tonumber words requests) {e : Event Sid}
    (hbytes : n.server.FromBytes words e) (hserve : n.serve e = some n') :
    (n'.server.Inv ∧ n'.server.Named ∧ n'.server.Readable) ∧
      (serverSystem Sid).run n'.history = some n'.server ∧ n'.history = n.history ++ [e] ∧
      n'.up = n.up ∧ n'.processed = n.processed ∧
      ∀ S, ∃ bodies : List Bytes, (n'.down S).Inv tonumber bodies ∧
        (n'.server.sessions S).sendQueue = bodies.map packet ∧
          ∀ body ∈ bodies, Net.hasHandler body = true := by
  obtain ⟨hinv, hnamed, hread⟩ := h.server
  obtain ⟨hnext, hhistory, hup, hprocessed, hdown⟩ := step_of_serve hserve
  have hstep := Server.step_of_system hnext
  refine ⟨⟨Server.inv_step hstep hinv, hstep.named hinv hnamed hbytes,
    hstep.readable hinv hnamed hread hbytes⟩, ?_, hhistory, hup, hprocessed, fun S => ?_⟩
  · rw [hhistory]
    exact TransitionSystem.run_concat_eq_some.mpr ⟨n.server, h.run, hnext⟩
  · obtain ⟨bodies, hlink, hqueue, hhandlers⟩ := h.down S
    obtain ⟨more, hposted, hmore⟩ :=
      exists_packets (hstep.sendable_posted hinv hnamed hread hbytes S)
    refine ⟨bodies ++ more, ?_, ?_, fun body hbody => ?_⟩
    · rw [hdown, hposted]
      exact hlink.sendAll hmore
    · rw [hstep.sendQueue hinv S, hqueue, hposted, List.map_append]
    · rcases List.mem_append.mp hbody with hbody | hbody
      · exact hhandlers body hbody
      · exact (hmore body hbody).2

/-- A step of the server that is not a message. -/
theorem Inv.serve_quiet (h : n.Inv tonumber words requests) {e : Event Sid}
    (hbytes : n.server.FromBytes words e) (hquiet : ∀ S, message? S e = none)
    (hserve : n.serve e = some n') : n'.Inv tonumber words requests := by
  obtain ⟨hserver, hrun, hhistory, hup, hprocessed, hdown⟩ := h.serve hbytes hserve
  refine ⟨hserver, hrun, h.fits, hup ▸ h.up, ?_, fun S => ?_, hdown⟩
  · rw [hup, hprocessed]
    exact h.processed_le
  · rw [hhistory, hprocessed, Network.messages, List.filterMap_append,
      List.filterMap_cons_none (hquiet S), List.filterMap_nil, List.append_nil]
    exact h.messages S

/-- The next message is the next request. -/
theorem Inv.exists_body (h : n.Inv tonumber words requests) {bytes : Bytes}
    (hbytes : (n.up S).conn.posted[n.processed S]? = some bytes) :
    ∃ request, (requests S)[n.processed S]? = some request ∧ request.message.Fits ∧
      bytes = request.body := by
  obtain ⟨hlt, hget⟩ := List.getElem?_eq_some_iff.mp hbytes
  have hrequest : ((requests S).map Net.Request.body)[n.processed S]? = some bytes := by
    rw [← hbytes]
    exact (List.prefix_iff_getElem?.mp (h.prefix_posted S) _ hlt).trans (by rw [hget, hbytes])
  rw [List.getElem?_map, Option.map_eq_some_iff] at hrequest
  obtain ⟨request, hnext, rfl⟩ := hrequest
  exact ⟨request, hnext, h.fits S request (List.mem_of_getElem? hnext), rfl⟩

/-- It is read as what was asked for. -/
theorem Inv.exists_request (h : n.Inv tonumber words requests) {draws : List Bytes}
    (hstep : n.process S draws = some n') : ∃ request served,
      n.processed S < (n.up S).conn.posted.length ∧
        (requests S)[n.processed S]? = some request ∧ request.message.Fits ∧
          n.serve (.message S request.message draws) = some served ∧ n' = served.take S := by
  rw [Network.process] at hstep
  split at hstep
  · cases hstep
  · rename_i bytes hbytes
    obtain ⟨hlt, -⟩ := List.getElem?_eq_some_iff.mp hbytes
    obtain ⟨request, hnext, hfits, rfl⟩ := h.exists_body hbytes
    rw [Net.processMessage_body hfits] at hstep
    obtain ⟨served, hserve, rfl⟩ := Option.map_eq_some_iff.mp hstep
    exact ⟨request, served, hlt, hnext, hfits, hserve, rfl⟩

theorem Inv.process (h : n.Inv tonumber words requests) {draws : List Bytes}
    (hdraws : ∀ name ∈ draws, words.Generates name) (hstep : n.process S draws = some n') :
    n'.Inv tonumber words requests := by
  obtain ⟨request, served, hlt, hnext, hfits, hserve, rfl⟩ := h.exists_request hstep
  have hfrom : n.server.FromBytes words (.message S request.message draws) :=
    ⟨⟨_, Net.processMessage_body hfits⟩, hdraws⟩
  obtain ⟨hserver, hrun, hhistory, hup, hprocessed, hdown⟩ := h.serve hfrom hserve
  refine ⟨hserver, hrun, h.fits, hup ▸ h.up, fun T => ?_, fun T => ?_, hdown⟩
  · change Function.update served.processed S _ T ≤ (served.up T).conn.posted.length
    rw [hup, hprocessed]
    by_cases hT : T = S
    · subst hT
      rw [Function.update_self]
      omega
    · rw [Function.update_of_ne hT]
      exact h.processed_le T
  · change Network.messages served.history T =
      ((requests T).take (Function.update served.processed S _ T)).map _
    rw [hhistory, hprocessed, Network.messages, List.filterMap_append, ← Network.messages,
      h.messages T]
    by_cases hT : T = S
    · subst hT
      rw [Function.update_self, List.take_add_one, hnext, List.map_append]
      simp [message?]
    · rw [Function.update_of_ne hT]
      simp [message?, Ne.symm hT]

theorem Inv.disconnect (h : n.Inv tonumber words requests) (hstep : n.disconnect S = some n') :
    n'.Inv tonumber words requests := by
  rw [Network.disconnect] at hstep
  split at hstep
  · exact h.serve_quiet (e := .disconnect S) trivial (fun _ => rfl) hstep
  · cases hstep

theorem Inv.downlink (h : n.Inv tonumber words requests) {e : DownlinkEvent}
    (hquiet : Downlink.message? e = none) {link : Downlink}
    (hstep : (n.down S).step tonumber e = some link) :
    (n.setDown S link).Inv tonumber words requests := by
  refine ⟨h.server, h.run, h.fits, h.up, h.processed_le, h.messages, fun T => ?_⟩
  obtain ⟨bodies, hdown, hqueue, hhandlers⟩ := h.down T
  refine ⟨bodies, ?_, hqueue, hhandlers⟩
  change (Function.update n.down S link T).Inv tonumber bodies
  by_cases hT : T = S
  · subst hT
    have hnext := hdown.step (fun data hdata => by rw [hquiet] at hdata; cases hdata) hstep
    rwa [Downlink.append_messages_of_none hquiet, ← Function.update_self T link n.down] at hnext
  · rwa [Function.update_of_ne hT]

omit [Fintype Sid] in
theorem requests_concat (events : List (NetworkEvent Sid)) (e : NetworkEvent Sid) (S : Sid) :
    Network.requests (events ++ [e]) S =
      Network.requests events S ++ Network.requests [e] S := by
  rw [Network.requests, List.filterMap_append]
  rfl

omit [Fintype Sid] in
theorem requests_uplink_self (S : Sid) (e : UplinkEvent) :
    Network.requests [.uplink S e] S = [e].filterMap Uplink.request? := by
  rw [Network.requests, List.filterMap_cons, request?, if_pos rfl, List.filterMap_nil,
    List.filterMap_cons, List.filterMap_nil]

omit [Fintype Sid] in
theorem requests_uplink_of_ne {T : Sid} (hT : T ≠ S) (e : UplinkEvent) :
    Network.requests [.uplink S e] T = [] := by
  rw [Network.requests, List.filterMap_cons, request?, if_neg (Ne.symm hT), List.filterMap_nil]

/-- A client's side of its connection. -/
theorem Inv.uplink (h : n.Inv tonumber words requests) {e : UplinkEvent}
    (he : Faithful words (.uplink S e)) {link : Uplink} (hstep : (n.up S).step e = some link) :
    (n.setUp S link).Inv tonumber words fun T =>
      requests T ++ Network.requests [.uplink S e] T := by
  have hlink : Uplink.Faithful e := by
    cases e with
    | sendMessage request => exact Net.body_length_lt he
    | send results => exact he
    | read _ => trivial
    | readError => trivial
  have hposted := Uplink.prefix_posted hstep
  have hfits (T : Sid) (request : Net.Request)
      (hrequest : request ∈ Network.requests [.uplink S e] T) : request.message.Fits := by
    by_cases hT : T = S
    · subst hT
      rw [requests_uplink_self] at hrequest
      cases e with
      | sendMessage other => rwa [List.mem_singleton.mp hrequest]
      | send _ | read _ | readError => cases hrequest
    · rw [requests_uplink_of_ne hT] at hrequest
      cases hrequest
  refine ⟨h.server, h.run, fun T request hrequest => ?_, fun T => ?_, fun T => ?_, fun T => ?_,
    h.down⟩
  · rcases List.mem_append.mp hrequest with hrequest | hrequest
    · exact h.fits T request hrequest
    · exact hfits T request hrequest
  · change (Function.update n.up S link T).Inv _
    by_cases hT : T = S
    · subst hT
      rw [Function.update_self, List.map_append, requests_uplink_self]
      exact (h.up T).step hlink hstep
    · rw [Function.update_of_ne hT, requests_uplink_of_ne hT, List.append_nil]
      exact h.up T
  · change n.processed T ≤ (Function.update n.up S link T).conn.posted.length
    by_cases hT : T = S
    · subst hT
      rw [Function.update_self]
      exact (h.processed_le T).trans hposted.length_le
    · rw [Function.update_of_ne hT]
      exact h.processed_le T
  · have hle := (h.processed_le T).trans (h.prefix_posted T).length_le
    rw [List.length_map] at hle
    change Network.messages n.history T = ((requests T ++ _).take (n.processed T)).map _
    rw [List.take_append_of_le_length hle]
    exact h.messages T

theorem Inv.congr (h : n.Inv tonumber words requests) {requests' : Sid → List Net.Request}
    (heq : ∀ T, requests' T = requests T) : n.Inv tonumber words requests' := by
  rwa [funext heq]

/-- **One event.** It keeps the invariant, and a `sendMessage` of a client adds to its requests. -/
theorem Inv.step (h : n.Inv tonumber words requests) {e : NetworkEvent Sid}
    (he : Faithful words e) (hstep : n.step tonumber e = some n') :
    n'.Inv tonumber words fun T => requests T ++ Network.requests [e] T := by
  cases e with
  | uplink S e =>
      obtain ⟨link, hlink, rfl⟩ := Option.map_eq_some_iff.mp hstep
      exact h.uplink he hlink
  | process S draws => exact (h.process he hstep).congr fun T => List.append_nil _
  | resume S =>
      exact (h.serve_quiet (e := .resume S) trivial (fun _ => rfl) hstep).congr
        fun T => List.append_nil _
  | disconnect S => exact (h.disconnect hstep).congr fun T => List.append_nil _
  | downlink S e =>
      cases e with
      | sendMessage data => cases hstep
      | runHandler | write _ _ | complete _ _ | receive _ =>
          obtain ⟨link, hlink, rfl⟩ := Option.map_eq_some_iff.mp hstep
          exact (h.downlink rfl hlink).congr fun T => List.append_nil _

theorem Inv.delivers (h : n.Inv tonumber words requests) : n.Delivers requests := by
  have hdown (S : Sid) : ∃ bodies : List Bytes, (n.down S).Carries bodies ∧
      (n.server.sessions S).sendQueue = bodies.map packet ∧
        bodies.filter Net.hasHandler = bodies := by
    obtain ⟨bodies, hlink, hqueue, hhandlers⟩ := h.down S
    exact ⟨bodies, hlink.carries, hqueue, List.filter_eq_self.mpr hhandlers⟩
  refine ⟨h.run, fun S => ?_, fun S => ?_, fun S hsettled => ⟨?_, ?_⟩⟩
  · rw [h.messages S]
    exact (List.take_prefix _ _).map _
  · obtain ⟨bodies, hcarries, hqueue, hall⟩ := hdown S
    rw [hqueue, ← hall]
    exact hcarries.order.map packet
  · have hposted := (h.up S).carries.settled hsettled.uplink hsettled.sendQueue
    rw [hsettled.readBuf, Splitter.items_nil, List.append_nil] at hposted
    rw [h.messages S, hsettled.strand, ← hposted, List.length_map, List.take_length]
  · obtain ⟨bodies, hcarries, hqueue, hall⟩ := hdown S
    rw [hqueue, hcarries.settled hsettled.recvQueue hsettled.downlink hsettled.writeQueue
      hsettled.writeStrand, hall]

theorem inv_of_run {events : List (NetworkEvent Sid)} (hevents : ∀ e ∈ events, Faithful words e)
    (hrun : (networkSystem Sid tonumber).run events = some n) :
    n.Inv tonumber words (Network.requests events) := by
  induction events using List.reverseRecOn generalizing n with
  | nil =>
      obtain rfl : init = n := Option.some.inj hrun
      exact inv_init
  | append_singleton events e ih =>
      obtain ⟨before, hbefore, hstep⟩ := TransitionSystem.run_concat_eq_some.mp hrun
      have hinv := ih (fun e he => hevents e (List.mem_append_left _ he)) hbefore
      exact (hinv.step (hevents e (by simp)) hstep).congr fun T => requests_concat events e T

end Network

end ChatGames
