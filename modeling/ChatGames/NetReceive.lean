import ChatGames.Queue
import ChatGames.Serialization
import ChatGames.Library.TransitionSystem

/-!
# The client's side of the byte stream

`receive` in `net.lua` queues each chunk it reads and dispatches the frames it can take off the
front of the queue. The loop in `concatUntil` that should join chunks runs from 1 to
`recvQueue:size() - 1`, and `Queue:size` is never more than 1 for a queue that holds something, so
the loop is never entered: a frame is dispatched only if it lies within one chunk, and a chunk that
ends inside a frame blocks the queue for good. `receive_reassembled_iff` is the exact account.
-/

namespace ChatGames

namespace Net

inductive SocketResult where
  | all (msg : Bytes)
  | timeout (part : Bytes)
  | failed (err : LuaError)

def readSocket : SocketResult → Except LuaError Bytes
  | .all msg => .ok msg
  | .timeout part => .ok part
  | .failed err => .error err

/-- The value of a local variable that is indexed next. -/
def index {α : Type} (local_ : String) : Option α → Except LuaError α
  | some val => .ok val
  | none => .error ("attempt to index local '" ++ local_ ++ "' (a nil value)")

/-- `reader:reset(data)` and `reader:u32()`. -/
def readU32 (data : Bytes) : Except LuaError Nat :=
  if data.length ≤ 3 then .error "Out of data" else .ok (ofBigEndian (data.take 4))

section ConcatUntil

-- Lua's coercion of a string operand of `+`, where the string is a numeral.
variable (tonumber : Bytes → Option Rat)

def addOperand (totalSize : Rat) : Option Bytes → Except LuaError Rat
  | none => .error "attempt to perform arithmetic on a nil value"
  | some str =>
      match tonumber str with
      | some num => .ok (totalSize + num)
      | none => .error "attempt to perform arithmetic on a string value"

def popParts : Nat → Queue Bytes → Except LuaError (List Bytes × Queue Bytes)
  | 0, recvQueue => .ok ([], recvQueue)
  | count + 1, recvQueue => do
      let (part, recvQueue) ← recvQueue.pop
      let (parts, recvQueue) ← popParts count recvQueue
      .ok (part.toList ++ parts, recvQueue)

/-- The loop over offsets, with the number of iterations it has left. -/
def concatFrom (recvQueue : Queue Bytes) (sizeToReach : Nat) :
    Nat → Nat → Rat → Except LuaError (Bool × Queue Bytes)
  | 0, _, _ => .ok (false, recvQueue)
  | count + 1, offset, totalSize => do
      -- the chunk itself is added, not its length
      let totalSize ← addOperand tonumber totalSize (recvQueue.peek offset)
      if totalSize ≥ sizeToReach then
        let (parts, recvQueue) ← popParts (offset + 1) recvQueue
        .ok (true, recvQueue.pushFront parts.flatten)
      else
        concatFrom recvQueue sizeToReach count (offset + 1) totalSize

def concatUntil (recvQueue : Queue Bytes) (sizeToReach : Nat) :
    Except LuaError (Bool × Queue Bytes) := do
  let front ← index "front" (recvQueue.peek 0)
  if front.length ≥ sizeToReach then
    .ok (true, recvQueue)
  else
    concatFrom tonumber recvQueue sizeToReach (recvQueue.size - 1).toNat 1 front.length

end ConcatUntil

/-! ### receive -/

/-- The part of the module's state that `receive` works on, beside whatever the handlers keep. -/
structure State (σ : Type) where
  recvQueue : Queue Bytes
  handled : σ

section Receive

variable {σ : Type} (tonumber : Bytes → Option Rat)
  (messageHandlers : UInt8 → Option (Bytes → σ → Except LuaError σ))

/-- Looks the handler of a message up by its first byte; a message without one is only printed. -/
def dispatch (msg : Bytes) (handled : σ) : Except LuaError σ :=
  match msg.head?.bind messageHandlers with
  | some msgHandler => msgHandler msg handled
  | none => .ok handled

/-- The `while true` loop. Every iteration that does not return takes at least four bytes off the
queue, so the number of bytes queued bounds the iterations. -/
def receiveLoop : Nat → State σ → Except LuaError (State σ)
  | 0, _ => .error "receive does not return"
  | fuel + 1, net =>
      if net.recvQueue.empty then
        .ok net
      else do
        let (enoughForSize, recvQueue) ← concatUntil tonumber net.recvQueue 4
        if !enoughForSize then
          .ok { net with recvQueue := recvQueue }
        else
          let msgSize ← readU32 ((recvQueue.peek 0).getD [])
          let (enoughForMsg, recvQueue) ← concatUntil tonumber recvQueue (msgSize + 4)
          if !enoughForMsg then
            .ok { net with recvQueue := recvQueue }
          else
            let (front, recvQueue) ← recvQueue.pop
            let front ← index "front" front
            let msg := (front.take (msgSize + 4)).drop 4
            let recvQueue := if front.length > msgSize + 4 then
              recvQueue.pushFront (front.drop (msgSize + 4)) else recvQueue
            let handled ← dispatch messageHandlers msg net.handled
            receiveLoop fuel ⟨recvQueue, handled⟩

def receive (net : State σ) (result : SocketResult) : Except LuaError (State σ) := do
  let data ← readSocket result
  let recvQueue := if data.length > 0 then net.recvQueue.push data else net.recvQueue
  receiveLoop tonumber messageHandlers (recvQueue.toList.flatten.length + 1)
    { net with recvQueue := recvQueue }

end Receive

/-! ### The specification -/

def frames : Splitter UInt8 := LengthPrefix.frames 4 (2 ^ 32) LengthPrefix.fourByteHeader_pos

/-- The message types the client has handlers for: `lobbyJoined`, `relayMessage` and
`updateLobby`. -/
def isReceived (msgType : UInt8) : Bool := msgType = 3 ∨ msgType = 8 ∨ msgType = 10

def recordHandlers (msgType : UInt8) : Option (Bytes → List Bytes → Except LuaError (List Bytes)) :=
  if isReceived msgType then some fun msg handled => .ok (handled ++ [msg]) else none

def receives (tonumber : Bytes → Option Rat) (chunks : List Bytes) :
    Except LuaError (State (List Bytes)) :=
  chunks.foldlM (fun net chunk => receive tonumber recordHandlers net (.timeout chunk)) ⟨.new, []⟩

def hasHandler (msg : Bytes) : Bool := msg.head?.any isReceived

def SentByServer (stream : Bytes) : Prop := ∀ msg ∈ frames.items stream, hasHandler msg

/-- After every `receive` the messages handled are the frames of the bytes received so far, and the
queue holds what they leave over. -/
def Reassembled (tonumber : Bytes → Option Rat) (chunks : List Bytes) : Prop :=
  ∀ received, received <+: chunks → ∃ net, receives tonumber received = .ok net ∧
    net.handled = frames.items received.flatten ∧
    net.recvQueue.toList.flatten = frames.tail received.flatten

/-- The frames are what the server sent: framed messages split into these messages again. -/
theorem frames_flatMap_frame {msgs : List Bytes} (hmsgs : ∀ msg ∈ msgs, msg.length < 2 ^ 32)
    (rest : Bytes) :
    frames.items (msgs.flatMap (LengthPrefix.frame 4) ++ rest) = msgs ++ frames.items rest ∧
      frames.tail (msgs.flatMap (LengthPrefix.frame 4) ++ rest) = frames.tail rest := by
  apply LengthPrefix.items_flatMap_frame
  intro msg hmsg
  have hlt := hmsgs msg hmsg
  exact ⟨hlt, hlt⟩

/-! ### One call -/

section OneCall

variable {σ : Type} {tonumber : Bytes → Option Rat}
  {messageHandlers : UInt8 → Option (Bytes → σ → Except LuaError σ)}
  {queue : Queue Bytes} {front : Bytes} {chunks : List Bytes}

/-- A chunk as the queue keeps it: nothing, if it is empty. -/
def pending (chunk : Bytes) : List Bytes := if chunk = [] then [] else [chunk]

@[simp]
theorem pending_flatten (chunk : Bytes) : (pending chunk).flatten = chunk := by
  rw [pending]
  split
  · rename_i hempty
    rw [hempty, List.flatten_nil]
  · rw [List.flatten_singleton]

/-- The loop over offsets is never entered. -/
theorem concatUntil_eq (hqueue : queue.Holds (front :: chunks)) (sizeToReach : Nat) :
    concatUntil tonumber queue sizeToReach = .ok (decide (sizeToReach ≤ front.length), queue) := by
  have hsize : (queue.size - 1).toNat = 0 := by
    rw [hqueue.size_eq, List.length_cons]
    omega
  rw [concatUntil, hqueue.peek_front, hsize]
  change (if sizeToReach ≤ front.length then _ else _) = _
  split
  · rename_i hreached
    rw [decide_eq_true hreached]
  · rename_i hreached
    rw [decide_eq_false hreached]
    rfl

/-- A front without a complete frame stops the loop, whatever is queued behind it. -/
theorem receiveLoop_blocked (hqueue : queue.Holds (front :: chunks))
    (hfront : frames.next front = none) (fuel : Nat) (handled : σ) :
    receiveLoop tonumber messageHandlers (fuel + 1) ⟨queue, handled⟩ = .ok ⟨queue, handled⟩ := by
  have hnonempty : ¬queue.empty = true := fun h => by simpa using hqueue.empty_iff.mp h
  rw [receiveLoop, if_neg hnonempty, concatUntil_eq hqueue]
  change (if (!decide (4 ≤ front.length)) = true then _ else _) = _
  by_cases hheader : 4 ≤ front.length
  · have hmsg : ¬ofBigEndian (front.take 4) + 4 ≤ front.length := by
      intro hbody
      have hlt := ofBigEndian_lt (front.take 4)
      rw [List.length_take, min_eq_left hheader] at hlt
      change LengthPrefix.next 4 (2 ^ 32) front = none at hfront
      rw [LengthPrefix.next, LengthPrefix.announced, if_pos ⟨hheader, hlt, by omega⟩] at hfront
      cases hfront
    rw [if_neg (by simpa using hheader), hqueue.peek_front, Option.getD_some, readU32,
      if_neg (by omega)]
    change (concatUntil tonumber queue (ofBigEndian (front.take 4) + 4)).bind _ = _
    rw [concatUntil_eq hqueue, decide_eq_false hmsg]
    rfl
  · rw [if_pos (by simpa using hheader)]

variable (tonumber messageHandlers) in
theorem receiveLoop_frame {msg rest : Bytes} (hqueue : queue.Holds (front :: chunks))
    (hfront : frames.next front = some (msg, rest)) (fuel : Nat) (handled : σ) :
    ∃ queue', queue'.Holds (pending rest ++ chunks) ∧
      receiveLoop tonumber messageHandlers (fuel + 1) ⟨queue, handled⟩ =
        (dispatch messageHandlers msg handled).bind fun handled =>
          receiveLoop tonumber messageHandlers fuel ⟨queue', handled⟩ := by
  have hnonempty : ¬queue.empty = true := fun h => by simpa using hqueue.empty_iff.mp h
  change LengthPrefix.next 4 (2 ^ 32) front = some (msg, rest) at hfront
  rw [LengthPrefix.next, LengthPrefix.announced] at hfront
  split at hfront
  · rename_i hcond
    obtain ⟨hheader, _, hbody⟩ := hcond
    simp only [Option.some.injEq, Prod.mk.injEq] at hfront
    obtain ⟨hmsg, hrest⟩ := hfront
    obtain ⟨popped, hpop, hpopped⟩ := hqueue.pop_cons
    set msgSize := ofBigEndian (front.take 4) with hmsgSize
    rw [Nat.add_comm] at hrest hbody
    have hcut : (front.take (msgSize + 4)).drop 4 = msg := by
      rw [List.drop_take, Nat.add_sub_cancel]
      exact hmsg
    refine ⟨if front.length > msgSize + 4 then popped.pushFront rest else popped, ?_, ?_⟩
    · split
      · rename_i hmore
        have hne : rest ≠ [] := by
          rw [← hrest, ← List.length_pos_iff, List.length_drop]
          omega
        rw [pending, if_neg hne]
        exact hpopped.pushFront rest
      · rename_i hmore
        have hnil : rest = [] := by
          rw [← hrest, List.drop_eq_nil_iff]
          omega
        rw [pending, if_pos hnil]
        exact hpopped
    · rw [receiveLoop, if_neg hnonempty, concatUntil_eq hqueue, decide_eq_true hheader]
      change (readU32 ((queue.peek 0).getD [])).bind _ = _
      rw [hqueue.peek_front, Option.getD_some, readU32, if_neg (by omega), ← hmsgSize]
      change (concatUntil tonumber queue (msgSize + 4)).bind _ = _
      rw [concatUntil_eq hqueue, decide_eq_true hbody]
      change queue.pop.bind _ = _
      rw [hpop, ← hrest, ← hcut]
      rfl
  · cases hfront

variable {handle : σ → Bytes → σ}

theorem receiveLoop_single
    (hhandle : ∀ msg handled, dispatch messageHandlers msg handled = .ok (handle handled msg))
    (chunk : Bytes) : ∀ {fuel : Nat} {queue : Queue Bytes} {handled : σ}, chunk.length < fuel →
      queue.Holds (pending chunk) →
      ∃ queue', queue'.Holds (pending (frames.tail chunk)) ∧
        receiveLoop tonumber messageHandlers fuel ⟨queue, handled⟩ =
          .ok ⟨queue', (frames.items chunk).foldl handle handled⟩ := by
  induction chunk using frames.induction with
  | hnone chunk hnext =>
      intro fuel queue handled hfuel hqueue
      rw [Splitter.items_of_next_none hnext, Splitter.tail_of_next_none hnext]
      refine ⟨queue, hqueue, ?_⟩
      obtain ⟨fuel, rfl⟩ : ∃ n, fuel = n + 1 := ⟨fuel - 1, by omega⟩
      by_cases hempty : chunk = []
      · rw [pending, if_pos hempty] at hqueue
        rw [receiveLoop, if_pos (hqueue.empty_iff.mpr rfl)]
        rfl
      · rw [pending, if_neg hempty] at hqueue
        exact receiveLoop_blocked hqueue hnext fuel handled
  | hsome chunk msg rest hnext ih =>
      intro fuel queue handled hfuel hqueue
      have hshorter := frames.length_lt hnext
      have hne : chunk ≠ [] := List.ne_nil_of_length_pos (by omega)
      rw [pending, if_neg hne] at hqueue
      obtain ⟨fuel, rfl⟩ : ∃ n, fuel = n + 1 := ⟨fuel - 1, by omega⟩
      obtain ⟨popped, hpopped, hstep⟩ :=
        receiveLoop_frame tonumber messageHandlers hqueue hnext fuel handled
      rw [List.append_nil] at hpopped
      obtain ⟨queue', hqueue', hloop⟩ :=
        @ih fuel popped (handle handled msg) (by omega) hpopped
      refine ⟨queue', ?_, ?_⟩
      · rwa [Splitter.tail_of_next_some hnext]
      · rw [hstep, hhandle, Splitter.items_of_next_some hnext, List.foldl_cons]
        exact hloop

/-- The chunks `receive` leaves in a queue that held `chunks`, and the frames it dispatches. -/
def afterChunk : List Bytes → Bytes → List Bytes × List Bytes
  | [], chunk => (pending (frames.tail chunk), frames.items chunk)
  | front :: chunks, chunk => (front :: chunks ++ pending chunk, [])

/-- The chunks of a queue between two calls: none is empty, and the front has no complete frame. -/
def Settled (chunks : List Bytes) : Prop :=
  (∀ chunk ∈ chunks, chunk ≠ []) ∧ ∀ front ∈ chunks.head?, frames.next front = none

theorem pending_ne_nil {chunk : Bytes} : ∀ part ∈ pending chunk, part ≠ [] := by
  intro part hpart
  rw [pending] at hpart
  split at hpart
  · cases hpart
  · rename_i hne
    rwa [List.mem_singleton.mp hpart]

theorem settled_afterChunk (hchunks : Settled chunks) (chunk : Bytes) :
    Settled (afterChunk chunks chunk).1 := by
  cases chunks with
  | nil =>
      refine ⟨pending_ne_nil, fun front hfront => ?_⟩
      simp only [afterChunk, pending] at hfront
      split at hfront
      · cases hfront
      · obtain rfl : frames.tail chunk = front := Option.some.inj hfront
        exact Splitter.next_tail chunk
  | cons front chunks =>
      refine ⟨fun part hpart => ?_, hchunks.2⟩
      rcases List.mem_append.mp hpart with hpart | hpart
      · exact hchunks.1 part hpart
      · exact pending_ne_nil part hpart

variable (tonumber) in
/-- **One call.** `receive` always returns; it dispatches the frames of the chunk if the queue was
empty, and nothing otherwise. -/
theorem receive_eq
    (hhandle : ∀ msg handled, dispatch messageHandlers msg handled = .ok (handle handled msg))
    (hchunks : Settled chunks) (hqueue : queue.Holds chunks) (handled : σ) (chunk : Bytes) :
    ∃ queue', queue'.Holds (afterChunk chunks chunk).1 ∧
      receive tonumber messageHandlers ⟨queue, handled⟩ (.timeout chunk) =
        .ok ⟨queue', (afterChunk chunks chunk).2.foldl handle handled⟩ := by
  set queue₁ := if chunk.length > 0 then queue.push chunk else queue with hqueue₁
  have hpushed : queue₁.Holds (chunks ++ pending chunk) := by
    rw [hqueue₁, pending]
    split
    · rename_i hlen
      rw [if_neg (List.ne_nil_of_length_pos hlen)]
      exact hqueue.push chunk
    · rename_i hlen
      rw [if_pos (List.eq_nil_of_length_eq_zero (by omega)), List.append_nil]
      exact hqueue
  have hcall : receive tonumber messageHandlers ⟨queue, handled⟩ (.timeout chunk) =
      receiveLoop tonumber messageHandlers (queue₁.toList.flatten.length + 1) ⟨queue₁, handled⟩ :=
    rfl
  rw [hcall]
  cases chunks with
  | nil =>
      rw [hpushed.toList_eq]
      exact receiveLoop_single hhandle chunk (by simp) hpushed
  | cons front chunks =>
      exact ⟨queue₁, hpushed, receiveLoop_blocked hpushed (hchunks.2 front rfl) _ handled⟩

/-- What a call leaves over is what the specification leaves over, unless a frame was completed by a
chunk that did not begin it. -/
theorem afterChunk_iff (hchunks : Settled chunks) {stream : Bytes}
    (hstream : chunks.flatten = frames.tail stream) (chunk : Bytes) (p : Bytes → Bool) :
    ((afterChunk chunks chunk).2.filter p = (frames.items (frames.tail stream ++ chunk)).filter p ∧
        (afterChunk chunks chunk).1.flatten = frames.tail (frames.tail stream ++ chunk)) ↔
      frames.tail stream = [] ∨ frames.items (frames.tail stream ++ chunk) = [] := by
  cases chunks with
  | nil =>
      rw [← hstream, List.flatten_nil, List.nil_append]
      simp [afterChunk]
  | cons front chunks =>
      have hne : frames.tail stream ≠ [] := by
        rw [← hstream, List.flatten_cons]
        exact List.append_ne_nil_of_left_ne_nil (hchunks.1 front (by simp)) _
      rw [or_iff_right hne, afterChunk, List.flatten_append, pending_flatten, hstream]
      constructor
      · exact fun h => Splitter.tail_eq_self_iff.mp h.2.symm
      · intro hitems
        rw [hitems]
        exact ⟨rfl, (Splitter.tail_eq_self_iff.mpr hitems).symm⟩

end OneCall

/-! ### All calls -/

variable {tonumber : Bytes → Option Rat}

def record (handled : List Bytes) (msg : Bytes) : List Bytes :=
  if hasHandler msg then handled ++ [msg] else handled

theorem dispatch_recordHandlers (msg : Bytes) (handled : List Bytes) :
    dispatch recordHandlers msg handled = .ok (record handled msg) := by
  cases msg with
  | nil => simp [dispatch, record, hasHandler]
  | cons msgType body =>
      by_cases hreceived : isReceived msgType = true <;>
        simp [dispatch, record, recordHandlers, hasHandler, hreceived]

theorem foldl_record (msgs handled : List Bytes) :
    msgs.foldl record handled = handled ++ msgs.filter hasHandler := by
  induction msgs generalizing handled with
  | nil => simp
  | cons msg msgs ih =>
      rw [List.foldl_cons, ih, record, List.filter_cons]
      split <;> simp

theorem receives_concat (received : List Bytes) (chunk : Bytes) :
    receives tonumber (received ++ [chunk]) = (receives tonumber received).bind fun net =>
      receive tonumber recordHandlers net (.timeout chunk) := by
  rw [receives, List.foldlM_append]
  change ((receives tonumber received).bind fun net => [chunk].foldlM _ net) = _
  simp

variable (tonumber) in
/-- `receive` raises no error of its own, in any run. -/
theorem receives_settled (received : List Bytes) :
    ∃ net chunks, receives tonumber received = .ok net ∧ net.recvQueue.Holds chunks ∧
      Settled chunks := by
  induction received using List.reverseRecOn with
  | nil => exact ⟨⟨.new, []⟩, [], rfl, Queue.holds_new, by simp [Settled]⟩
  | append_singleton received chunk ih =>
      obtain ⟨net, chunks, hnet, hqueue, hchunks⟩ := ih
      obtain ⟨queue', hqueue', hcall⟩ := receive_eq tonumber
        dispatch_recordHandlers hchunks hqueue net.handled chunk
      refine ⟨⟨queue', (afterChunk chunks chunk).2.foldl record net.handled⟩, _, ?_, hqueue',
        settled_afterChunk hchunks chunk⟩
      rw [receives_concat, hnet]
      exact hcall

/-- The calls so far have returned, handled the frames that have a handler, and left the tail. -/
def Kept (tonumber : Bytes → Option Rat) (received : List Bytes) : Prop :=
  ∃ net, receives tonumber received = .ok net ∧
    net.handled = (frames.items received.flatten).filter hasHandler ∧
    net.recvQueue.toList.flatten = frames.tail received.flatten

theorem kept_concat_iff {received : List Bytes} (hkept : Kept tonumber received) (chunk : Bytes) :
    Kept tonumber (received ++ [chunk]) ↔ frames.tail received.flatten = [] ∨
      frames.items (frames.tail received.flatten ++ chunk) = [] := by
  obtain ⟨net, hnet, hhandled, hrest⟩ := hkept
  obtain ⟨net', chunks, hnet', hqueue, hchunks⟩ := receives_settled tonumber received
  obtain rfl : net = net' := Except.ok.inj (hnet.symm.trans hnet')
  rw [hqueue.toList_eq] at hrest
  obtain ⟨queue', hqueue', hcall⟩ := receive_eq tonumber
    dispatch_recordHandlers hchunks hqueue net.handled chunk
  have hnext : receives tonumber (received ++ [chunk]) =
      .ok ⟨queue', (afterChunk chunks chunk).2.foldl record net.handled⟩ := by
    rw [receives_concat, hnet]
    exact hcall
  rw [← afterChunk_iff hchunks hrest chunk hasHandler]
  have hstream : (received ++ [chunk]).flatten = received.flatten ++ chunk := by simp
  rw [Kept, hstream, Splitter.items_append, Splitter.tail_append, List.filter_append]
  simp only [hnext, Except.ok.injEq, exists_eq_left', foldl_record, hhandled, hqueue'.toList_eq,
    List.append_cancel_left_eq]

theorem sentByServer_of_append {xs ys : Bytes} (h : SentByServer (xs ++ ys)) : SentByServer xs := by
  intro msg hmsg
  apply h
  rw [Splitter.items_append]
  exact List.mem_append_left _ hmsg

theorem kept_iff_of_sentByServer {received : List Bytes} (h : SentByServer received.flatten) :
    Kept tonumber received ↔ ∃ net, receives tonumber received = .ok net ∧
      net.handled = frames.items received.flatten ∧
      net.recvQueue.toList.flatten = frames.tail received.flatten := by
  rw [Kept, List.filter_eq_self.mpr h]

theorem reassembled_iff_kept {chunks : List Bytes} (hserver : SentByServer chunks.flatten) :
    Reassembled tonumber chunks ↔ ∀ received, received <+: chunks → Kept tonumber received := by
  apply forall₂_congr
  intro received hreceived
  obtain ⟨later, rfl⟩ := hreceived
  rw [List.flatten_append] at hserver
  exact (kept_iff_of_sentByServer (sentByServer_of_append hserver)).symm

/-- **Stream reassembly.** Every call leaves the frames dispatched and the tail queued exactly when
every chunk that completes a frame is received while nothing is queued. -/
theorem receive_reassembled_iff (tonumber : Bytes → Option Rat) (chunks : List Bytes)
    (hserver : SentByServer chunks.flatten) :
    Reassembled tonumber chunks ↔ ∀ received chunk, received ++ [chunk] <+: chunks →
      frames.tail received.flatten = [] ∨
        frames.items (frames.tail received.flatten ++ chunk) = [] := by
  rw [reassembled_iff_kept hserver]
  exact forall_prefix_iff (P := Kept tonumber) ⟨⟨.new, []⟩, rfl, rfl, rfl⟩
    (fun received chunk hkept => kept_concat_iff hkept chunk) chunks

/-- The first chunk has two frames, the second one another and the front of a fourth, and the third
more of that, but not all. -/
theorem reassembled_with_tail : Reassembled (fun _ => none)
    [[0, 0, 0, 3, 3, 0, 0, 0, 0, 0, 5, 8, 0, 0, 1, 7], [0, 0, 0, 3, 3, 0, 0, 0, 0], [0, 3, 3]] := by
  refine (receive_reassembled_iff _ _ (by unfold SentByServer; decide)).mpr ?_
  intro received chunk hprefix
  rcases received with _ | ⟨first, _ | ⟨second, _ | ⟨third, received⟩⟩⟩ <;>
    simp only [List.nil_append, List.cons_append, List.cons_prefix_cons] at hprefix
  · exact Or.inl rfl
  · obtain ⟨rfl, -⟩ := hprefix
    exact Or.inl (by decide)
  · obtain ⟨rfl, rfl, rfl, -⟩ := hprefix
    exact Or.inr (by decide)
  · obtain ⟨-, -, -, hnil⟩ := hprefix
    simp at hnil

/-- A `lobbyJoined` that is cut after its length is not dispatched. -/
theorem not_reassembled_cut_frame :
    ¬∀ (tonumber : Bytes → Option Rat) (chunks : List Bytes), SentByServer chunks.flatten →
      Reassembled tonumber chunks := by
  intro h
  have hserver : SentByServer [[0, 0, 0, 3], [3, 0, 0]].flatten := by
    unfold SentByServer
    decide
  have hkept := (reassembled_iff_kept hserver).mp (h (fun _ => none) _ hserver)
  have hcut := (kept_concat_iff (hkept [[0, 0, 0, 3]] (by simp)) [3, 0, 0]).mp
    (hkept _ (List.prefix_refl _))
  revert hcut
  decide

end Net

end ChatGames
