import ChatGames.Links
import ChatGames.Proof.Lag

/-!
# From the client to its session

As long as no timeout of a send has taken anything, the requests of a client, framed, are at every
moment what its session has posted, what waits in the session's buffer, what is on its way and what
the client still has to write, in this order. So the session posts the requests as they were made,
none twice and none that was not made; and once the client has written all and the network has
delivered it, what is not posted waits in the buffer.
-/

namespace ChatGames

namespace Net.Sender

variable {net net' : Sender} {vals : List Bytes} {results : List SendResult}

/-- What the socket has taken it keeps. -/
theorem prefix_taken (hqueue : net.sendQueue.Holds vals) (h : net.sendLoop results = .ok net') :
    net.taken <+: net'.taken := by
  induction results generalizing net vals with
  | nil =>
      obtain ⟨-, rfl⟩ := sendLoop_nil_eq_ok hqueue h
      exact List.prefix_refl _
  | cons result results ih =>
      cases vals with
      | nil =>
          rw [sendLoop_of_nil hqueue] at h
          cases h
      | cons data vals =>
          obtain ⟨sendQueue, hrest, hloop⟩ := exists_sendLoop_cons hqueue
          rw [hloop] at h
          cases result with
          | failed err => cases h
          | timeout part =>
              obtain ⟨-, h⟩ := ite_blocked_eq_ok h
              exact (List.prefix_append _ _).trans (ih (hrest.pushFront data) h)
          | sent bytesSent =>
              change (if bytesSent < data.length then _ else _) = _ at h
              split at h
              · obtain ⟨-, h⟩ := ite_blocked_eq_ok h
                obtain rfl := Except.ok.inj h
                exact List.prefix_append _ _
              · obtain ⟨-, h⟩ := ite_blocked_eq_ok h
                exact (List.prefix_append _ _).trans (ih hrest h)

end Net.Sender

namespace Connection

/-- A stream of frames comes to no length the sum wraps on. -/
theorem not_oversize_of_framed {bodies : List Bytes}
    (hbodies : ∀ body ∈ bodies, body.length < 2 ^ 32 - 4) {stream : Bytes}
    (h : stream <+: bodies.flatMap (LengthPrefix.frame 4)) : ¬Oversize (frames.tail stream) := by
  intro hover
  obtain ⟨rest, hrest⟩ := h
  obtain ⟨-, htail⟩ := frames_flatMap_frame hbodies []
  have hend := hover.tail_append rest
  rw [hrest, ← List.append_nil (bodies.flatMap _), htail] at hend
  exact absurd hend.1 (by decide)

/-- What has been posted and what is buffered are the stream. -/
theorem Behind.stream_eq {conn : Connection} {stream : Bytes} (h : conn.Behind stream) :
    conn.posted.flatMap (LengthPrefix.frame 4) ++ conn.readBuf = stream := by
  have hstream : (frames.items stream).flatMap (LengthPrefix.frame 4) ++ frames.tail stream =
      stream := LengthPrefix.flatMap_frame_items _ _
  have hbuffer : (frames.items conn.readBuf).flatMap (LengthPrefix.frame 4) ++
      frames.tail conn.readBuf = conn.readBuf := LengthPrefix.flatMap_frame_items _ _
  calc conn.posted.flatMap (LengthPrefix.frame 4) ++ conn.readBuf
      = conn.posted.flatMap (LengthPrefix.frame 4) ++
          ((frames.items conn.readBuf).flatMap (LengthPrefix.frame 4) ++
            frames.tail stream) := by rw [← h.tail, hbuffer]
    _ = (frames.items stream).flatMap (LengthPrefix.frame 4) ++ frames.tail stream := by
        rw [h.items, List.flatMap_append, List.append_assoc]
    _ = stream := hstream

end Connection

namespace Uplink

def request? : UplinkEvent → Option Net.Request
  | .sendMessage request => some request
  | .send _ | .read _ | .readError => none

/-- The requests among the events, as the messages they are framed as. -/
def bodies (events : List UplinkEvent) : List Bytes :=
  (events.filterMap request?).map Net.Request.body

/-- No timeout has taken anything, and no request has a length that is not below `2 ^ 32 - 4`. -/
def Faithful : UplinkEvent → Prop
  | .sendMessage request => request.body.length < 2 ^ 32 - 4
  | .send results => ∀ part, .timeout part ∈ results → part = 0
  | .read _ | .readError => True

/-- The link carries the messages `bodies`, and nothing else. -/
structure Carries (link : Uplink) (bodies : List Bytes) : Prop where
  bytes : link.conn.posted.flatMap (LengthPrefix.frame 4) ++ link.conn.readBuf ++ link.wire ++
    link.net.sendQueue.toList.flatten = bodies.flatMap (LengthPrefix.frame 4)
  order : link.conn.posted <+: bodies
  settled : link.wire = [] → link.net.sendQueue.toList = [] →
    bodies = link.conn.posted ++ Connection.frames.items link.conn.readBuf

structure Inv (link : Uplink) (bodies : List Bytes) : Prop where
  queue : link.net.Queued
  conserves : link.net.Conserves
  queued : link.net.queued = bodies.map (LengthPrefix.frame 4)
  short : ∀ body ∈ bodies, body.length < 2 ^ 32 - 4
  delivered_le : link.delivered ≤ link.net.taken.length
  behind : link.conn.Behind (link.net.taken.take link.delivered)

variable {link link' : Uplink} {bodies : List Bytes}

theorem inv_init : init.Inv [] where
  queue := ⟨[], Queue.holds_new⟩
  conserves := rfl
  queued := rfl
  short _ h := by cases h
  delivered_le := Nat.le_refl 0
  behind := Connection.behind_accepted

theorem Inv.stream (h : link.Inv bodies) :
    link.net.taken ++ link.net.sendQueue.toList.flatten =
      bodies.flatMap (LengthPrefix.frame 4) := by
  rw [h.conserves, h.queued]
  rfl

theorem Inv.sendMessage (h : link.Inv bodies) {request : Net.Request}
    (hshort : request.body.length < 2 ^ 32 - 4) :
    (link.sendMessage request).Inv (bodies ++ [request.body]) := by
  obtain ⟨vals, hqueue⟩ := h.queue
  have hframe : Net.encodeFrame ⟨[]⟩ request = LengthPrefix.frame 4 request.body :=
    Net.encodeFrame_eq ⟨[]⟩ request
  refine ⟨⟨_, hqueue.push _⟩, h.conserves.push hqueue _, ?_, ?_, h.delivered_le, h.behind⟩
  · change link.net.queued ++ [Net.encodeFrame ⟨[]⟩ request] = _
    rw [h.queued, hframe, List.map_append, List.map_singleton]
  · intro body hbody
    rcases List.mem_append.mp hbody with hbody | hbody
    · exact h.short body hbody
    · rwa [List.mem_singleton.mp hbody]

theorem Inv.send (h : link.Inv bodies) {results : List Net.SendResult}
    (hresults : ∀ part, .timeout part ∈ results → part = 0)
    (hstep : link.send results = some link') : link'.Inv bodies := by
  obtain ⟨vals, hqueue⟩ := h.queue
  rw [Uplink.send] at hstep
  split at hstep
  · rename_i net hsend
    obtain rfl := Option.some.inj hstep
    obtain ⟨vals', hsent⟩ := Net.Sender.exists_sent hqueue hsend
    obtain ⟨more, hmore⟩ := Net.Sender.prefix_taken hqueue hsend
    have hdelivered := h.delivered_le
    refine ⟨⟨vals', hsent.holds⟩, (h.conserves.sendLoop_iff hqueue hsend).mpr hresults,
      hsent.queued.trans h.queued, h.short, ?_, ?_⟩
    · change link.delivered ≤ net.taken.length
      rw [← hmore, List.length_append]
      omega
    · change link.conn.Behind (net.taken.take link.delivered)
      rw [← hmore, List.take_append_of_le_length hdelivered]
      exact h.behind
  · cases hstep

theorem Inv.read (h : link.Inv bodies) {size : Nat} (hstep : link.read size = some link') :
    link'.Inv bodies := by
  rw [Uplink.read] at hstep
  split at hstep
  · rename_i hcond
    obtain ⟨-, -, -, hsize⟩ := hcond
    have hreceived : link.net.taken.take link.delivered ++ link.wire.take size =
        link.net.taken.take (link.delivered + size) := by
      rw [wire, ← List.take_add]
    have hbegins : link.net.taken.take (link.delivered + size) <+:
        bodies.flatMap (LengthPrefix.frame 4) := by
      rw [← h.stream]
      exact (List.take_prefix _ _).trans (List.prefix_append _ _)
    have hover : ¬Connection.Oversize
        (Connection.frames.tail (link.net.taken.take link.delivered ++ link.wire.take size)) := by
      rw [hreceived]
      exact Connection.not_oversize_of_framed h.short hbegins
    obtain ⟨conn, hread, hbehind, -⟩ := h.behind.onRead hover
    rw [hread] at hstep
    obtain rfl := Option.some.inj hstep
    rw [wire, List.length_drop] at hsize
    have hdelivered := h.delivered_le
    refine ⟨h.queue, h.conserves, h.queued, h.short, ?_, ?_⟩
    · change link.delivered + size ≤ link.net.taken.length
      omega
    · change conn.Behind (link.net.taken.take (link.delivered + size))
      rwa [← hreceived]
  · cases hstep

theorem Inv.readError (h : link.Inv bodies) (hstep : link.readError = some link') :
    link'.Inv bodies := by
  rw [Uplink.readError] at hstep
  split at hstep
  · rename_i conn _ hread
    obtain rfl := Option.some.inj hstep
    obtain rfl := Except.ok.inj hread
    exact ⟨h.queue, h.conserves, h.queued, h.short, h.delivered_le,
      ⟨h.behind.items, h.behind.tail⟩⟩
  · cases hstep

theorem append_bodies_of_none {e : UplinkEvent} (he : request? e = none) :
    bodies ++ Uplink.bodies [e] = bodies := by
  rw [Uplink.bodies, List.filterMap_cons_none he, List.filterMap_nil, List.map_nil,
    List.append_nil]

/-- **One event.** It keeps the invariant, and a `sendMessage` adds its body to the bodies. -/
theorem Inv.step (h : link.Inv bodies) {e : UplinkEvent} (he : Faithful e)
    (hstep : link.step e = some link') : link'.Inv (bodies ++ Uplink.bodies [e]) := by
  cases e with
  | sendMessage request =>
      obtain rfl := Option.some.inj hstep
      exact h.sendMessage he
  | send results =>
      rw [append_bodies_of_none rfl]
      exact h.send he hstep
  | read size =>
      rw [append_bodies_of_none rfl]
      exact h.read hstep
  | readError =>
      rw [append_bodies_of_none rfl]
      exact h.readError hstep

/-- Requests are short enough for the client to tell where each begins. -/
theorem Inv.carries (h : link.Inv bodies) : link.Carries bodies := by
  have hbytes : link.conn.posted.flatMap (LengthPrefix.frame 4) ++ link.conn.readBuf ++
      link.wire ++ link.net.sendQueue.toList.flatten = bodies.flatMap (LengthPrefix.frame 4) := by
    rw [h.behind.stream_eq, wire, List.take_append_drop, h.stream]
  have hitems := (Connection.frames_flatMap_frame h.short []).1
  rw [List.append_nil, ← h.stream, Splitter.items_nil, List.append_nil] at hitems
  refine ⟨hbytes, ?_, ?_⟩
  · rw [← hitems]
    have hstream := List.take_append_drop link.delivered link.net.taken
    rw [← hstream, List.append_assoc, Splitter.items_append, h.behind.items, List.append_assoc]
    exact List.prefix_append _ _
  · intro hwire hqueue
    have hall : link.net.taken.take link.delivered = link.net.taken := by
      have hstream := List.take_append_drop link.delivered link.net.taken
      rwa [← wire, hwire, List.append_nil] at hstream
    rw [← hitems, hqueue, List.flatten_nil, List.append_nil, ← hall]
    exact h.behind.items

theorem inv_of_run {events : List UplinkEvent} (hevents : ∀ e ∈ events, Faithful e)
    (hrun : uplinkSystem.run events = some link) : link.Inv (Uplink.bodies events) := by
  induction events using List.reverseRecOn generalizing link with
  | nil =>
      obtain rfl : init = link := Option.some.inj hrun
      exact inv_init
  | append_singleton events e ih =>
      obtain ⟨before, hbefore, hstep⟩ := TransitionSystem.run_concat_eq_some.mp hrun
      have hinv := ih (fun e he => hevents e (List.mem_append_left _ he)) hbefore
      have hnext := hinv.step (hevents e (by simp)) hstep
      rwa [Uplink.bodies, List.filterMap_append, List.map_append]

/-- **From the client to its session.** In every run of the link the posted messages, the read
buffer, the wire and the send queue make up the stream of the requests sent. The session posts them
in their order, and all that are left are in its buffer once nothing is on its way. -/
theorem requests_carried {events : List UplinkEvent} (hevents : ∀ e ∈ events, Faithful e)
    (hrun : uplinkSystem.run events = some link) : link.Carries (Uplink.bodies events) :=
  (inv_of_run hevents hrun).carries

/-- The first attempt to send times out, the next one takes four bytes and the last one the rest;
the session reads five bytes and then two. -/
theorem requests_carried_createLobby : ∃ link, uplinkSystem.run [.sendMessage (.createLobby [65]),
    .send [.timeout 0, .sent 4], .send [.sent 3], .read 5, .read 2] = some link ∧
      link.conn.posted = [[0, 1, 65]] ∧ link.Carries [[0, 1, 65]] := by
  have hrun : (uplinkSystem.run [.sendMessage (.createLobby [65]), .send [.timeout 0, .sent 4],
      .send [.sent 3], .read 5, .read 2]).any
        (fun link => decide (link.conn.posted = [[0, 1, 65]])) = true := by
    decide
  obtain ⟨link, hlink, hposted⟩ := (Option.any_eq_true _ _).mp hrun
  refine ⟨link, hlink, of_decide_eq_true hposted, requests_carried ?_ hlink⟩
  simp [Faithful, Net.Request.body, Net.fields, LengthPrefix.frame]

end Uplink

end ChatGames
