import ChatGames.NetReceive

/-!
# What the client hears

`receive_reassembled_iff` says when the client keeps up with the stream. Here is what it makes of
every other stream: the chunks up to the first one that ends inside a frame are all it ever
dispatches from, and everything behind them stays in the queue. So what it has handled is always
what it should have handled up to some point, and the bytes it has not are all still there.
-/

namespace ChatGames

namespace Net

/-- The chunks up to the first one that ends inside a frame, this one included. -/
def heard : List Bytes → List Bytes
  | [] => []
  | chunk :: chunks => if frames.tail chunk = [] then chunk :: heard chunks else [chunk]

theorem heard_cons_of_boundary {chunk : Bytes} (h : frames.tail chunk = [])
    (chunks : List Bytes) : heard (chunk :: chunks) = chunk :: heard chunks := by
  rw [heard, if_pos h]

theorem heard_cons_of_cut {chunk : Bytes} (h : frames.tail chunk ≠ []) (chunks : List Bytes) :
    heard (chunk :: chunks) = [chunk] := by
  rw [heard, if_neg h]

theorem prefix_heard (chunks : List Bytes) : heard chunks <+: chunks := by
  induction chunks with
  | nil => exact List.prefix_refl []
  | cons chunk chunks ih =>
      by_cases h : frames.tail chunk = []
      · rw [heard_cons_of_boundary h]
        exact (List.prefix_cons_inj chunk).mpr ih
      · rw [heard_cons_of_cut h]
        exact ⟨chunks, rfl⟩

/-- What is received and not heard. -/
def unheard (chunks : List Bytes) : List Bytes := chunks.drop (heard chunks).length

theorem heard_append_unheard (chunks : List Bytes) : heard chunks ++ unheard chunks = chunks :=
  (List.prefix_append_drop (prefix_heard chunks)).symm

theorem settled_nil : Settled [] := ⟨by simp, by simp⟩

section Calls

variable {σ : Type} {tonumber : Bytes → Option Rat}
  {messageHandlers : UInt8 → Option (Bytes → σ → Except LuaError σ)} {handle : σ → Bytes → σ}

def receiveAll (tonumber : Bytes → Option Rat)
    (messageHandlers : UInt8 → Option (Bytes → σ → Except LuaError σ)) (net : State σ)
    (chunks : List Bytes) : Except LuaError (State σ) :=
  chunks.foldlM (fun net chunk => receive tonumber messageHandlers net (.timeout chunk)) net

theorem receiveAll_cons {net net' : State σ} {chunk : Bytes}
    (h : receive tonumber messageHandlers net (.timeout chunk) = .ok net') (chunks : List Bytes) :
    receiveAll tonumber messageHandlers net (chunk :: chunks) =
      receiveAll tonumber messageHandlers net' chunks := by
  rw [receiveAll, List.foldlM_cons, h]
  rfl

variable (tonumber) in
/-- A queue whose front is not a complete frame takes every chunk, and nothing is dispatched. -/
theorem receiveAll_blocked
    (hhandle : ∀ msg handled, dispatch messageHandlers msg handled = .ok (handle handled msg))
    {front : Bytes} {parts : List Bytes} (hparts : Settled (front :: parts)) {queue : Queue Bytes}
    (hqueue : queue.Holds (front :: parts)) (handled : σ) (chunks : List Bytes) :
    ∃ queue', queue'.toList.flatten = (front :: parts).flatten ++ chunks.flatten ∧
      receiveAll tonumber messageHandlers ⟨queue, handled⟩ chunks = .ok ⟨queue', handled⟩ := by
  induction chunks generalizing queue parts with
  | nil =>
      refine ⟨queue, ?_, rfl⟩
      rw [hqueue.toList_eq, List.flatten_nil, List.append_nil]
  | cons chunk chunks ih =>
      obtain ⟨queue₁, hqueue₁, hcall⟩ :=
        receive_eq tonumber hhandle hparts hqueue handled chunk
      have hparts₁ := settled_afterChunk hparts chunk
      obtain ⟨queue', hqueue', hcalls⟩ := ih hparts₁ hqueue₁
      refine ⟨queue', ?_, ?_⟩
      · calc queue'.toList.flatten
            = (front :: parts ++ pending chunk).flatten ++ chunks.flatten := hqueue'
          _ = (front :: parts).flatten ++ (chunk :: chunks).flatten := by
              rw [List.flatten_append, pending_flatten, @List.flatten_cons _ chunk,
                List.append_assoc]
      · rw [receiveAll_cons hcall]
        exact hcalls

variable (tonumber) in
/-- **All calls.** From an empty queue, the frames of the chunks heard are dispatched, and all that
is left of them and of the chunks behind them is queued. -/
theorem receiveAll_eq
    (hhandle : ∀ msg handled, dispatch messageHandlers msg handled = .ok (handle handled msg))
    {queue : Queue Bytes} (hqueue : queue.Holds []) (handled : σ) (chunks : List Bytes) :
    ∃ queue', queue'.toList.flatten =
        frames.tail (heard chunks).flatten ++ (unheard chunks).flatten ∧
      receiveAll tonumber messageHandlers ⟨queue, handled⟩ chunks =
        .ok ⟨queue', (frames.items (heard chunks).flatten).foldl handle handled⟩ := by
  induction chunks generalizing queue handled with
  | nil =>
      refine ⟨queue, ?_, rfl⟩
      rw [hqueue.toList_eq]
      rfl
  | cons chunk chunks ih =>
      obtain ⟨queue₁, hqueue₁, hcall⟩ :=
        receive_eq tonumber hhandle settled_nil hqueue handled chunk
      rw [receiveAll_cons hcall]
      change queue₁.Holds (pending (frames.tail chunk)) at hqueue₁
      change ∃ queue', _ ∧ receiveAll _ _ ⟨queue₁, (frames.items chunk).foldl handle handled⟩ _ = _
      by_cases hcut : frames.tail chunk = []
      · rw [hcut, pending, if_pos rfl] at hqueue₁
        obtain ⟨queue', hrest, hcalls⟩ := ih hqueue₁ ((frames.items chunk).foldl handle handled)
        have htail : frames.tail (chunk :: heard chunks).flatten =
            frames.tail (heard chunks).flatten := by
          rw [List.flatten_cons, Splitter.tail_append, hcut, List.nil_append]
        have hitems : frames.items (chunk :: heard chunks).flatten =
            frames.items chunk ++ frames.items (heard chunks).flatten := by
          rw [List.flatten_cons, Splitter.items_append, hcut, List.nil_append]
        refine ⟨queue', ?_, ?_⟩
        · rw [unheard, heard_cons_of_boundary hcut, List.length_cons, List.drop_succ_cons, htail]
          exact hrest
        · rw [heard_cons_of_boundary hcut, hitems, List.foldl_append]
          exact hcalls
      · have hsettled : Settled [frames.tail chunk] := by
          have hpending := settled_afterChunk settled_nil chunk
          rwa [afterChunk, pending, if_neg hcut] at hpending
        rw [pending, if_neg hcut] at hqueue₁
        obtain ⟨queue', hrest, hcalls⟩ := receiveAll_blocked tonumber hhandle hsettled hqueue₁
          ((frames.items chunk).foldl handle handled) chunks
        refine ⟨queue', ?_, ?_⟩
        · rw [unheard, heard_cons_of_cut hcut, hrest]
          simp
        · rw [heard_cons_of_cut hcut, List.flatten_singleton]
          exact hcalls

end Calls

theorem prefix_items_heard (chunks : List Bytes) :
    frames.items (heard chunks).flatten <+: frames.items chunks.flatten := by
  nth_rewrite 2 [← heard_append_unheard chunks]
  rw [List.flatten_append, Splitter.items_append]
  exact List.prefix_append _ _

/-- **What the client makes of any stream.** Whatever the chunks are, `receive` returns from every
call; the messages handled are those of the chunks heard, and so the first ones of the stream, and
the queue holds the rest of the stream to the last byte. -/
theorem receives_heard (tonumber : Bytes → Option Rat) (chunks : List Bytes) :
    ∃ net, receives tonumber chunks = .ok net ∧
      net.handled = (frames.items (heard chunks).flatten).filter hasHandler ∧
      net.handled <+: (frames.items chunks.flatten).filter hasHandler ∧
      net.recvQueue.toList.flatten =
        frames.tail (heard chunks).flatten ++ (unheard chunks).flatten := by
  obtain ⟨queue', hqueue', hcalls⟩ := receiveAll_eq tonumber dispatch_recordHandlers
    Queue.holds_new [] chunks
  rw [foldl_record, List.nil_append] at hcalls
  exact ⟨_, hcalls, rfl, (prefix_items_heard chunks).filter hasHandler, hqueue'⟩

end Net

end ChatGames
