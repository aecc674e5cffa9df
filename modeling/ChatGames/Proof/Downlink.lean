import ChatGames.Links
import ChatGames.Proof.Reception

/-!
# From a session to its client

However the strand, the socket and the client take turns, the messages given to `send` are at every
moment what the client has dispatched, what is in its queue, what is on its way and what is not
written yet, in this order. So the client handles the first of the messages its session sent, in
their order and none twice, also after a write has failed and after a chunk has ended inside a
frame; and when nothing is left on the way it has handled them all.
-/

namespace ChatGames

namespace Writer

variable {conn conn' : Writer}

/-- What the next handler of the strand does. -/
inductive Ran (conn conn' : Writer) : Prop
  | queued (msg : Bytes) (hstrand : conn.strand = .queueMessage msg :: conn'.strand)
      (hqueue : conn'.sendQueue = conn.sendQueue ++ [⟨conn.queued.length, msg⟩])
      (hqueued : conn'.queued = conn.queued ++ [msg]) (hsent : conn'.sent = conn.sent)
  | written (front : Element) (hstrand : conn.strand = .sendDone front false :: conn'.strand)
      (hqueue : conn.sendQueue = front :: conn'.sendQueue)
      (hqueued : conn'.queued = conn.queued) (hsent : conn'.sent = conn.sent)
  | failed (buffer : Element) (hstrand : conn.strand = .sendDone buffer true :: conn'.strand)
      (hqueue : conn'.sendQueue = conn.sendQueue)
      (hqueued : conn'.queued = conn.queued) (hsent : conn'.sent = conn.sent)

/-- A completion handler that has not run is about the front of the queue. -/
theorem Inv.front_of_sendDone (h : conn.Inv) {buffer : Element} {error : Bool}
    (hmem : Handler.sendDone buffer error ∈ conn.strand) :
    ∃ rest, conn.sendQueue = buffer :: rest ∧ conn.writes = [] := by
  have hcompletion : (buffer, error) ∈ conn.completions :=
    List.mem_filterMap.mpr ⟨_, hmem, rfl⟩
  rcases h.phase with ⟨-, -, hdone, -⟩ | ⟨-, -, hdone, -⟩ |
    @⟨front, rest, hqueue, hwrites, hdone⟩ | ⟨-, -, hdone, -⟩
  · rw [hdone] at hcompletion
    cases hcompletion
  · rw [hdone] at hcompletion
    cases hcompletion
  · rw [hdone, List.mem_singleton, Prod.mk.injEq] at hcompletion
    obtain ⟨rfl, -⟩ := hcompletion
    exact ⟨rest, hqueue, hwrites⟩
  · rw [hdone] at hcompletion
    cases hcompletion

/-- A write that is in flight is of the front of the queue, and no completion handler is left. -/
theorem Inv.front_of_write (h : conn.Inv) {buffer : Element} {idx : Nat}
    (hwrite : conn.writes[idx]? = some buffer) :
    ∃ rest, conn.sendQueue = buffer :: rest ∧
      ∀ buffer error, Handler.sendDone buffer error ∉ conn.strand := by
  have hmem := List.mem_of_getElem? hwrite
  rcases h.phase with ⟨-, hwrites, -, -⟩ | @⟨front, rest, hqueue, hwrites, hdone, -⟩ |
    ⟨-, hwrites, -⟩ | ⟨-, hwrites, -, -⟩
  · rw [hwrites] at hmem
    cases hmem
  · rw [hwrites, List.mem_singleton] at hmem
    subst hmem
    refine ⟨rest, hqueue, fun other error hother => ?_⟩
    have hcompletion : (other, error) ∈ conn.completions :=
      List.mem_filterMap.mpr ⟨_, hother, rfl⟩
    rw [hdone] at hcompletion
    cases hcompletion
  · rw [hwrites] at hmem
    cases hmem
  · rw [hwrites] at hmem
    cases hmem

theorem Inv.ran (h : conn.Inv) (hrun : conn.runHandler = .ok conn') : conn.Ran conn' := by
  rw [runHandler] at hrun
  split at hrun
  · cases hrun
  · rename_i msg strand hstrand
    cases hqueue : conn.sendQueue with
    | nil =>
        rw [@queueMessage_of_nil { conn with strand := strand } hqueue] at hrun
        obtain rfl := Except.ok.inj hrun
        exact .queued msg hstrand (by rw [hqueue, List.nil_append]) rfl rfl
    | cons front rest =>
        rw [@queueMessage_of_cons { conn with strand := strand } _ _ hqueue] at hrun
        obtain rfl := Except.ok.inj hrun
        exact .queued msg hstrand rfl rfl rfl
  · rename_i buffer error strand hstrand
    cases error with
    | true =>
        obtain rfl := Except.ok.inj hrun
        exact .failed buffer hstrand rfl rfl rfl
    | false =>
        have hmem : Handler.sendDone buffer false ∈ conn.strand := by
          rw [hstrand]
          exact List.mem_cons_self
        obtain ⟨rest, hqueue, -⟩ := h.front_of_sendDone hmem
        cases rest with
        | nil =>
            rw [@sendDone_of_last { conn with strand := strand } _ hqueue] at hrun
            obtain rfl := Except.ok.inj hrun
            exact .written buffer hstrand hqueue rfl rfl
        | cons next rest =>
            rw [@sendDone_of_more { conn with strand := strand } _ _ _ hqueue] at hrun
            obtain rfl := Except.ok.inj hrun
            exact .written buffer hstrand hqueue rfl rfl

theorem Ran.strand_subset (h : conn.Ran conn') : conn'.strand ⊆ conn.strand := by
  cases h with
  | queued _ hstrand => exact hstrand ▸ List.subset_cons_self _ _
  | written _ hstrand => exact hstrand ▸ List.subset_cons_self _ _
  | failed _ hstrand => exact hstrand ▸ List.subset_cons_self _ _

/-! ### Buffers and what the socket has taken of them -/

/-- What is not taken yet: what is left of the buffers, and what has not been queued. -/
def unwritten (conn : Writer) (written : Nat → Nat) : Bytes :=
  conn.sendQueue.flatMap (fun buffer => buffer.msg.drop (written buffer.address)) ++
    (conn.strand.filterMap posted).flatten

/-- The buffers of the queue are different elements, none of them still to be made; one whose write
has completed is taken whole. -/
structure Buffers (conn : Writer) (written : Nat → Nat) : Prop where
  ordered : conn.sendQueue.Pairwise fun a b => a.address < b.address
  below : ∀ buffer ∈ conn.sendQueue, buffer.address < conn.queued.length
  fresh : ∀ address, conn.queued.length ≤ address → written address = 0
  whole : ∀ buffer, .sendDone buffer false ∈ conn.strand →
    written buffer.address = buffer.msg.length

variable {written : Nat → Nat}

theorem Buffers.ran (h : conn.Buffers written) (hran : conn.Ran conn') :
    conn'.Buffers written := by
  have hwhole (buffer : Element) (hbuffer : .sendDone buffer false ∈ conn'.strand) :
      written buffer.address = buffer.msg.length := h.whole buffer (hran.strand_subset hbuffer)
  cases hran with
  | queued msg hstrand hqueue hqueued =>
      refine ⟨?_, fun buffer hbuffer => ?_, fun address haddress => ?_, hwhole⟩
      · rw [hqueue, List.pairwise_append]
        refine ⟨h.ordered, List.pairwise_singleton _ _, fun a ha b hb => ?_⟩
        rw [List.mem_singleton.mp hb]
        exact h.below a ha
      · rw [hqueued, List.length_append, List.length_singleton]
        rw [hqueue] at hbuffer
        rcases List.mem_append.mp hbuffer with hbuffer | hbuffer
        · exact Nat.lt_succ_of_lt (h.below buffer hbuffer)
        · rw [List.mem_singleton.mp hbuffer]
          exact Nat.lt_succ_self _
      · rw [hqueued, List.length_append] at haddress
        exact h.fresh address (by omega)
  | written front hstrand hqueue hqueued =>
      have hordered := h.ordered
      rw [hqueue] at hordered
      refine ⟨(List.pairwise_cons.mp hordered).2, fun buffer hbuffer => ?_,
        fun address haddress => h.fresh address (hqueued ▸ haddress), hwhole⟩
      rw [hqueued]
      exact h.below buffer (hqueue ▸ List.mem_cons_of_mem front hbuffer)
  | failed buffer hstrand hqueue hqueued =>
      refine ⟨hqueue ▸ h.ordered, fun buffer hbuffer => ?_,
        fun address haddress => h.fresh address (hqueued ▸ haddress), hwhole⟩
      rw [hqueued]
      exact h.below buffer (hqueue ▸ hbuffer)

/-- A handler moves no byte: a buffer that leaves the queue was taken whole. -/
theorem Buffers.unwritten_ran (h : conn.Buffers written) (hran : conn.Ran conn') :
    conn'.unwritten written = conn.unwritten written := by
  cases hran with
  | queued msg hstrand hqueue hqueued =>
      rw [unwritten, unwritten, hqueue, hstrand, List.flatMap_append, List.flatMap_singleton,
        h.fresh _ le_rfl, List.drop_zero, List.append_assoc]
      rfl
  | written front hstrand hqueue hqueued =>
      have hfront := h.whole front (hstrand ▸ List.mem_cons_self)
      rw [unwritten, unwritten, hqueue, hstrand, List.flatMap_cons, hfront, List.drop_length,
        List.nil_append]
      rfl
  | failed buffer hstrand hqueue hqueued =>
      rw [unwritten, unwritten, hqueue, hstrand]
      rfl

theorem Buffers.send (h : conn.Buffers written) (packet : Bytes) :
    (conn.send packet).Buffers written := by
  refine ⟨h.ordered, h.below, h.fresh, fun buffer hbuffer => ?_⟩
  rcases List.mem_append.mp hbuffer with hbuffer | hbuffer
  · exact h.whole buffer hbuffer
  · cases List.mem_singleton.mp hbuffer

theorem unwritten_send (conn : Writer) (packet : Bytes) :
    (conn.send packet).unwritten written = conn.unwritten written ++ packet := by
  have hposted : (conn.strand ++ [Handler.queueMessage packet]).filterMap posted =
      conn.strand.filterMap posted ++ [packet] := by
    rw [List.filterMap_append]
    rfl
  change _ ++ ((conn.strand ++ [Handler.queueMessage packet]).filterMap posted).flatten = _
  rw [hposted, List.flatten_append, List.flatten_singleton, ← List.append_assoc]
  rfl

/-- A write takes a piece of the front of the queue. -/
theorem Buffers.write (h : conn.Buffers written) {buffer : Element} {rest : List Element}
    (hqueue : conn.sendQueue = buffer :: rest)
    (hnone : ∀ buffer error, Handler.sendDone buffer error ∉ conn.strand) (size : Nat) :
    conn.Buffers (Function.update written buffer.address (written buffer.address + size)) ∧
      (buffer.msg.drop (written buffer.address)).take size ++
        conn.unwritten (Function.update written buffer.address (written buffer.address + size)) =
          conn.unwritten written := by
  have hordered := h.ordered
  rw [hqueue] at hordered
  have hbelow := h.below buffer (hqueue ▸ List.mem_cons_self)
  have hothers (other : Element) (hother : other ∈ rest) : other.address ≠ buffer.address :=
    Nat.ne_of_gt ((List.pairwise_cons.mp hordered).1 other hother)
  refine ⟨⟨h.ordered, h.below, fun address haddress => ?_, fun other hother => ?_⟩, ?_⟩
  · rw [Function.update_of_ne (by omega)]
    exact h.fresh address haddress
  · exact absurd hother (hnone other false)
  · have hrest : rest.flatMap (fun other => other.msg.drop
        (Function.update written buffer.address (written buffer.address + size) other.address)) =
          rest.flatMap fun other => other.msg.drop (written other.address) := by
      refine List.flatMap_congr fun other hother => ?_
      rw [Function.update_of_ne (hothers other hother)]
    rw [unwritten, unwritten, hqueue, List.flatMap_cons, List.flatMap_cons, hrest,
      Function.update_self, ← List.drop_drop, List.append_assoc, List.append_assoc,
      ← List.append_assoc ((buffer.msg.drop _).take size), List.take_append_drop]

theorem Buffers.complete (h : conn.Buffers written) {idx : Nat} {error : Bool} {buffer : Element}
    (hwrite : conn.writes[idx]? = some buffer)
    (hwritten : error = true ∨ written buffer.address = buffer.msg.length)
    (hcomplete : conn.complete idx error = .ok conn') :
    conn'.Buffers written ∧ conn'.unwritten written = conn.unwritten written := by
  rw [Writer.complete, hwrite] at hcomplete
  obtain rfl := Except.ok.inj hcomplete
  refine ⟨⟨h.ordered, h.below, h.fresh, fun other hother => ?_⟩, ?_⟩
  · rcases List.mem_append.mp hother with hother | hother
    · exact h.whole other hother
    · obtain ⟨rfl, rfl⟩ := Handler.sendDone.inj (List.mem_singleton.mp hother)
      exact hwritten.resolve_left (by simp)
  · change _ ++ ((conn.strand ++ [Handler.sendDone buffer error]).filterMap posted).flatten = _
    rw [List.filterMap_append, List.flatten_append]
    exact congrArg _ (List.append_nil _)

theorem Inv.of_ok (h : conn.Inv) {e : WriterEvent} (hstep : conn.step e = .ok conn') :
    conn'.Inv := by
  rcases h.step e with hblocked | ⟨_, hok, hfollows⟩
  · cases hblocked.symm.trans hstep
  · obtain rfl := Except.ok.inj (hok.symm.trans hstep)
    exact hfollows.inv

end Writer

namespace Downlink

def message? : DownlinkEvent → Option Bytes
  | .sendMessage data => some data
  | .runHandler | .write _ _ | .complete _ _ | .receive _ => none

/-- The messages given to `sendMessage`. -/
def messages (events : List DownlinkEvent) : List Bytes := events.filterMap message?

/-- The link carries the messages `bodies`, and nothing else. -/
structure Carries (link : Downlink) (bodies : List Bytes) : Prop where
  bytes : ∃ dispatched : List Bytes, link.net.handled = dispatched.filter Net.hasHandler ∧
    dispatched.flatMap (LengthPrefix.frame 4) ++ link.net.recvQueue.toList.flatten ++ link.wire ++
      link.conn.unwritten link.written = bodies.flatMap (LengthPrefix.frame 4)
  order : link.net.handled <+: bodies.filter Net.hasHandler
  settled : link.net.recvQueue.toList = [] → link.wire = [] → link.conn.sendQueue = [] →
    link.conn.strand = [] → link.net.handled = bodies.filter Net.hasHandler

structure Inv (tonumber : Bytes → Option Rat) (link : Downlink) (bodies : List Bytes) : Prop where
  conn : link.conn.Inv
  buffers : link.conn.Buffers link.written
  short : ∀ body ∈ bodies, body.length < 2 ^ 32
  stream : ∃ chunks, Net.receives tonumber chunks = .ok link.net ∧
    chunks.flatten ++ link.wire ++ link.conn.unwritten link.written =
      bodies.flatMap (LengthPrefix.frame 4)

variable {tonumber : Bytes → Option Rat} {link link' : Downlink} {bodies : List Bytes}

theorem inv_init : Inv tonumber init [] where
  conn := ⟨.idle rfl rfl rfl rfl, rfl, rfl⟩
  buffers := ⟨.nil, (fun _ h => by cases h), fun _ _ => rfl, (fun _ h => by cases h)⟩
  short _ h := by cases h
  stream := ⟨[], rfl, rfl⟩

/-- A step of the session's side that moves bytes to the wire at most. -/
theorem Inv.of_unwritten (h : link.Inv tonumber bodies) (hconn : link'.conn.Inv)
    (hbuffers : link'.conn.Buffers link'.written) (hnet : link'.net = link.net)
    (hbytes : link'.wire ++ link'.conn.unwritten link'.written =
      link.wire ++ link.conn.unwritten link.written) : link'.Inv tonumber bodies := by
  obtain ⟨chunks, hreceives, hstream⟩ := h.stream
  refine ⟨hconn, hbuffers, h.short, chunks, hnet ▸ hreceives, ?_⟩
  rw [List.append_assoc, hbytes, ← List.append_assoc, hstream]

theorem Inv.send (h : link.Inv tonumber bodies) {body : Bytes} (hshort : body.length < 2 ^ 32) :
    (link.send (packet body)).Inv tonumber (bodies ++ [body]) := by
  obtain ⟨chunks, hreceives, hstream⟩ := h.stream
  refine ⟨(h.conn.send _).inv, h.buffers.send _, ?_, chunks, hreceives, ?_⟩
  · intro other hother
    rcases List.mem_append.mp hother with hother | hother
    · exact h.short other hother
    · rwa [List.mem_singleton.mp hother]
  · change _ ++ (link.conn.send (packet body)).unwritten link.written = _
    rw [Writer.unwritten_send, ← List.append_assoc]
    change chunks.flatten ++ link.wire ++ _ ++ packet body = _
    rw [hstream, List.flatMap_append, List.flatMap_singleton]
    rfl

theorem Inv.runHandler (h : link.Inv tonumber bodies) (hstep : link.runHandler = some link') :
    link'.Inv tonumber bodies := by
  rw [Downlink.runHandler] at hstep
  split at hstep
  · rename_i conn hrun
    obtain rfl := Option.some.inj hstep
    have hran := h.conn.ran hrun
    exact h.of_unwritten (@Writer.Inv.of_ok _ _ h.conn .runHandler hrun) (h.buffers.ran hran) rfl
      (congrArg _ (h.buffers.unwritten_ran hran))
  · cases hstep

theorem Inv.write (h : link.Inv tonumber bodies) {idx size : Nat}
    (hstep : link.write idx size = some link') : link'.Inv tonumber bodies := by
  rw [Downlink.write] at hstep
  split at hstep
  · cases hstep
  · rename_i buffer hwrite
    split at hstep
    · obtain rfl := Option.some.inj hstep
      obtain ⟨rest, hqueue, hnone⟩ := h.conn.front_of_write hwrite
      obtain ⟨hbuffers, hbytes⟩ := h.buffers.write hqueue hnone size
      refine h.of_unwritten h.conn hbuffers rfl ?_
      rw [← hbytes, ← List.append_assoc]
    · cases hstep

theorem Inv.complete (h : link.Inv tonumber bodies) {idx : Nat} {error : Bool}
    (hstep : link.complete idx error = some link') : link'.Inv tonumber bodies := by
  rw [Downlink.complete] at hstep
  split at hstep
  · rename_i buffer conn hwrite hcomplete
    split at hstep
    · rename_i hwritten
      obtain rfl := Option.some.inj hstep
      obtain ⟨hbuffers, hbytes⟩ := h.buffers.complete hwrite hwritten hcomplete
      exact h.of_unwritten (@Writer.Inv.of_ok _ _ h.conn (.complete idx error) hcomplete) hbuffers
        rfl (congrArg _ hbytes)
    · cases hstep
  · cases hstep

theorem Inv.receive (h : link.Inv tonumber bodies) {size : Nat}
    (hstep : link.receive tonumber size = some link') : link'.Inv tonumber bodies := by
  rw [Downlink.receive] at hstep
  split at hstep
  · split at hstep
    · rename_i net hreceive
      obtain rfl := Option.some.inj hstep
      obtain ⟨chunks, hreceives, hstream⟩ := h.stream
      refine ⟨h.conn, h.buffers, h.short, chunks ++ [link.wire.take size], ?_, ?_⟩
      · rw [Net.receives_concat, hreceives]
        exact hreceive
      · rw [List.flatten_append, List.flatten_singleton, List.append_assoc chunks.flatten,
          List.take_append_drop]
        exact hstream
    · cases hstep
  · cases hstep

theorem eq_of_mem_message? {e : DownlinkEvent} {data : Bytes} (h : data ∈ message? e) :
    e = .sendMessage data := by
  cases e with
  | sendMessage other => rw [Option.some.inj h]
  | _ => cases h

theorem append_messages_of_none {e : DownlinkEvent} (he : message? e = none) :
    bodies ++ messages [e] = bodies := by
  rw [messages, List.filterMap_cons_none he, List.filterMap_nil, List.append_nil]

/-- **One event.** It keeps the invariant, and a `sendMessage` adds its data to the messages. -/
theorem Inv.step (h : link.Inv tonumber bodies) {e : DownlinkEvent}
    (he : ∀ data ∈ message? e, data.length < 2 ^ 32) (hstep : link.step tonumber e = some link') :
    link'.Inv tonumber (bodies ++ messages [e]) := by
  cases e with
  | sendMessage data =>
      obtain rfl := Option.some.inj hstep
      exact h.send (he data rfl)
  | runHandler =>
      rw [append_messages_of_none rfl]
      exact h.runHandler hstep
  | write idx size =>
      rw [append_messages_of_none rfl]
      exact h.write hstep
  | complete idx error =>
      rw [append_messages_of_none rfl]
      exact h.complete hstep
  | receive size =>
      rw [append_messages_of_none rfl]
      exact h.receive hstep

/-- What the client has dispatched and what it has queued are what it has received. -/
theorem exists_dispatched {net : Net.State (List Bytes)} {chunks : List Bytes}
    (h : Net.receives tonumber chunks = .ok net) :
    ∃ dispatched : List Bytes, net.handled = dispatched.filter Net.hasHandler ∧
      dispatched <+: Net.frames.items chunks.flatten ∧
      dispatched.flatMap (LengthPrefix.frame 4) ++ net.recvQueue.toList.flatten =
        chunks.flatten := by
  obtain ⟨net', hnet, hhandled, -, hqueue⟩ := Net.receives_heard tonumber chunks
  obtain rfl : net = net' := Except.ok.inj (h.symm.trans hnet)
  refine ⟨_, hhandled, Net.prefix_items_heard chunks, ?_⟩
  rw [hqueue, ← List.append_assoc]
  have hheard : (Net.frames.items (Net.heard chunks).flatten).flatMap (LengthPrefix.frame 4) ++
      Net.frames.tail (Net.heard chunks).flatten = (Net.heard chunks).flatten :=
    LengthPrefix.flatMap_frame_items _ _
  rw [hheard, ← List.flatten_append, Net.heard_append_unheard]

theorem Inv.carries (h : link.Inv tonumber bodies) : link.Carries bodies := by
  obtain ⟨chunks, hreceives, hstream⟩ := h.stream
  obtain ⟨dispatched, hhandled, hitems, hdispatched⟩ := exists_dispatched hreceives
  have hreceived : Net.frames.items chunks.flatten <+: bodies := by
    have hbodies := (Net.frames_flatMap_frame h.short []).1
    rw [List.append_nil, ← hstream, Splitter.items_nil, List.append_nil, List.append_assoc,
      Splitter.items_append] at hbodies
    exact ⟨_, hbodies⟩
  rw [← hdispatched] at hstream
  have hshort (body : Bytes) (hbody : body ∈ bodies) :
      body.length < 2 ^ 32 ∧ body.length < 256 ^ 4 := ⟨h.short body hbody, h.short body hbody⟩
  have hbegins := hitems.trans hreceived
  obtain ⟨hbodies, -⟩ := @LengthPrefix.prefix_of_flatMap_frame 4 (2 ^ 32) (by decide) _ _
    (fun body hbody => hshort body (hbegins.subset hbody)) hshort
    (link.net.recvQueue.toList.flatten ++ link.wire ++ link.conn.unwritten link.written)
    (by rw [← hstream]; simp only [List.append_assoc])
  refine ⟨⟨dispatched, hhandled, hstream⟩, ?_, fun hqueue hwire hsend hstrand => ?_⟩
  · rw [hhandled]
    exact hbegins.filter _
  · rw [hhandled, hbodies, hqueue, hwire, Writer.unwritten, hsend, hstrand]
    exact congrArg _ (List.append_nil _).symm

theorem inv_of_run {events : List DownlinkEvent}
    (hevents : ∀ data, .sendMessage data ∈ events → data.length < 2 ^ 32)
    (hrun : (downlinkSystem tonumber).run events = some link) :
    link.Inv tonumber (messages events) := by
  induction events using List.reverseRecOn generalizing link with
  | nil =>
      obtain rfl : init = link := Option.some.inj hrun
      exact inv_init
  | append_singleton events e ih =>
      obtain ⟨before, hbefore, hstep⟩ := TransitionSystem.run_concat_eq_some.mp hrun
      have hinv := ih (fun data hdata => hevents data (List.mem_append_left _ hdata)) hbefore
      have hshort (data : Bytes) (hdata : data ∈ message? e) : data.length < 2 ^ 32 := by
        rw [eq_of_mem_message? hdata] at hevents
        exact hevents data (by simp)
      have hnext := hinv.step hshort hstep
      rwa [messages, List.filterMap_append]

/-- **From a session to its client.** In every run of the link the messages that are dispatched, the
queued chunks, the wire and what is not yet written make up the stream of the messages sent. The
client handles those it has a handler for in their order, and all of them once nothing is on its
way. -/
theorem messages_carried {events : List DownlinkEvent}
    (hevents : ∀ data, .sendMessage data ∈ events → data.length < 2 ^ 32)
    (hrun : (downlinkSystem tonumber).run events = some link) :
    link.Carries (messages events) :=
  (inv_of_run hevents hrun).carries

/-- Two messages are written; the client reads the first and a byte of the second. -/
theorem messages_carried_cut : ∃ link, (downlinkSystem fun _ => none).run
    [.sendMessage [8, 0, 0, 0], .sendMessage [8, 1, 0, 0], .runHandler, .runHandler, .write 0 8,
      .complete 0 false, .runHandler, .write 0 5, .receive 9] = some link ∧
      link.net.handled = [[8, 0, 0, 0]] ∧ link.Carries [[8, 0, 0, 0], [8, 1, 0, 0]] := by
  have hrun : ((downlinkSystem fun _ => none).run [.sendMessage [8, 0, 0, 0],
      .sendMessage [8, 1, 0, 0], .runHandler, .runHandler, .write 0 8, .complete 0 false,
        .runHandler, .write 0 5, .receive 9]).any
          (fun link => decide (link.net.handled = [[8, 0, 0, 0]])) = true := by
    decide
  obtain ⟨link, hlink, hhandled⟩ := (Option.any_eq_true _ _).mp hrun
  refine ⟨link, hlink, of_decide_eq_true hhandled, messages_carried ?_ hlink⟩
  simp

end Downlink

end ChatGames
