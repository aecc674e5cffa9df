import ChatGames.NetReceive

/-!
# The client's write side

`send` in `net.lua` writes the front of `sendQueue` until the queue is empty or the socket takes
less than all of it. A socket that would block returns `nil` and the error `"timeout"`, and as its
third value the number of bytes it has taken nevertheless. The source does not look at that number:
it puts all of the data back, and what was taken is sent once more. `sendStream_iff` says that
nothing else goes wrong.
-/

namespace ChatGames

namespace Net

/-- What `tcp:send(data)` returns: the number of bytes it has taken, or an error. With a timeout
comes the number of bytes taken before it. -/
inductive SendResult where
  | sent (bytesSent : Nat)
  | timeout (part : Nat)
  | failed (err : LuaError)
deriving DecidableEq

/-- The part of the module's state that is about sending. -/
structure Sender where
  sendQueue : Queue Bytes
  /-- What the socket has taken, and what `sendMessage` has queued. -/
  taken : Bytes
  queued : List Bytes

inductive SenderEvent where
  | sendMessage (data : Bytes)
  | send (results : List SendResult)
deriving DecidableEq

inductive SenderStop where
  | raised (err : LuaError)
  /-- The results are not those of one whole call on this queue. -/
  | blocked
deriving DecidableEq

namespace Sender

def init : Sender := ⟨.new, [], []⟩

/-- The last line of `sendMessage`. -/
def push (net : Sender) (data : Bytes) : Sender :=
  { net with
    sendQueue := net.sendQueue.push data
    queued := net.queued ++ [data] }

def popFront (net : Sender) : Except SenderStop (Bytes × Queue Bytes) :=
  match net.sendQueue.pop with
  | .error err => .error (.raised err)
  | .ok (none, _) => .error (.raised "attempt to index local 'data' (a nil value)")
  | .ok (some data, sendQueue) => .ok (data, sendQueue)

/-- The `while` loop, given what the calls of `tcp:send` in it return. -/
def sendLoop : List SendResult → Sender → Except SenderStop Sender
  | [], net => if net.sendQueue.empty then .ok net else .error .blocked
  | result :: results, net =>
      if net.sendQueue.empty then
        .error .blocked
      else do
        let (data, sendQueue) ← net.popFront
        match result with
        | .failed err => .error (.raised err)
        | .timeout part =>
            if part < data.length then
              sendLoop results { net with
                sendQueue := sendQueue.pushFront data
                taken := net.taken ++ data.take part }
            else
              .error .blocked
        | .sent bytesSent =>
            if bytesSent < data.length then
              -- the loop ends here, so nothing is sent after it
              if results = [] then
                .ok { net with
                  sendQueue := sendQueue.pushFront (data.drop bytesSent)
                  taken := net.taken ++ data.take bytesSent }
              else
                .error .blocked
            else if bytesSent = data.length then
              sendLoop results { net with sendQueue := sendQueue, taken := net.taken ++ data }
            else
              .error .blocked

def step (net : Sender) : SenderEvent → Except SenderStop Sender
  | .sendMessage data => .ok (net.push data)
  | .send results => net.sendLoop results

end Sender

def senderSystem : TransitionSystem Sender SenderEvent where
  init := Sender.init
  step net e := (net.step e).toOption

namespace Sender

/-- What was taken and what is still queued is what was queued. -/
def Conserves (net : Sender) : Prop :=
  net.taken ++ net.sendQueue.toList.flatten = net.queued.flatten

/-- The bytes that timeouts leave with the socket. -/
def repeated : List SendResult → Nat
  | [] => 0
  | .timeout part :: results => part + repeated results
  | .sent _ :: results | .failed _ :: results => repeated results

theorem repeated_eq_zero_iff (results : List SendResult) :
    repeated results = 0 ↔ ∀ part, .timeout part ∈ results → part = 0 := by
  induction results with
  | nil => simp [repeated]
  | cons result results ih => cases result <;> simp [repeated, ih]

/-! ### One call -/

variable {net net' : Sender} {vals : List Bytes} {results : List SendResult}

theorem popFront_of_holds {data : Bytes} (hqueue : net.sendQueue.Holds (data :: vals)) :
    ∃ sendQueue, net.popFront = .ok (data, sendQueue) ∧ sendQueue.Holds vals := by
  obtain ⟨sendQueue, hpop, hholds⟩ := hqueue.pop_cons
  exact ⟨sendQueue, by rw [popFront, hpop], hholds⟩

theorem sendLoop_nil_eq_ok (hqueue : net.sendQueue.Holds vals) (h : net.sendLoop [] = .ok net') :
    vals = [] ∧ net' = net := by
  rw [sendLoop] at h
  split at h
  · rename_i hempty
    exact ⟨hqueue.empty_iff.mp hempty, (Except.ok.inj h).symm⟩
  · cases h

theorem sendLoop_of_nil (hqueue : net.sendQueue.Holds []) (result : SendResult)
    (results : List SendResult) : net.sendLoop (result :: results) = .error .blocked := by
  rw [sendLoop, if_pos (hqueue.empty_iff.mpr rfl)]

/-- One round of the loop, with `data` at the front of the queue. -/
theorem exists_sendLoop_cons {data : Bytes} (hqueue : net.sendQueue.Holds (data :: vals)) :
    ∃ sendQueue : Queue Bytes, sendQueue.Holds vals ∧ ∀ result results,
      net.sendLoop (result :: results) =
        match result with
        | .failed err => .error (.raised err)
        | .timeout part =>
            if part < data.length then
              sendLoop results { net with
                sendQueue := sendQueue.pushFront data
                taken := net.taken ++ data.take part }
            else
              .error .blocked
        | .sent bytesSent =>
            if bytesSent < data.length then
              if results = [] then
                .ok { net with
                  sendQueue := sendQueue.pushFront (data.drop bytesSent)
                  taken := net.taken ++ data.take bytesSent }
              else
                .error .blocked
            else if bytesSent = data.length then
              sendLoop results { net with sendQueue := sendQueue, taken := net.taken ++ data }
            else
              .error .blocked := by
  obtain ⟨sendQueue, hpop, hholds⟩ := popFront_of_holds hqueue
  refine ⟨sendQueue, hholds, fun result results => ?_⟩
  have hnonempty : ¬net.sendQueue.empty = true := fun h => by cases hqueue.empty_iff.mp h
  rw [sendLoop, if_neg hnonempty, hpop]
  rfl

theorem ite_blocked_eq_raised {p : Prop} [Decidable p] {ended : Except SenderStop Sender}
    {err : LuaError} (h : (if p then ended else .error .blocked) = .error (.raised err)) :
    p ∧ ended = .error (.raised err) := by
  split at h
  · rename_i hp
    exact ⟨hp, h⟩
  · cases h

theorem ite_blocked_eq_ok {p : Prop} [Decidable p] {ended : Except SenderStop Sender}
    (h : (if p then ended else .error .blocked) = .ok net') : p ∧ ended = .ok net' := by
  split at h
  · rename_i hp
    exact ⟨hp, h⟩
  · cases h

/-- What a call does to the stream: it stays what it is, but for the bytes of timeouts, which come
in twice. -/
structure Sent (net : Sender) (vals : List Bytes) (results : List SendResult) (net' : Sender)
    (vals' : List Bytes) : Prop where
  holds : net'.sendQueue.Holds vals'
  queued : net'.queued = net.queued
  length : (net'.taken ++ vals'.flatten).length =
    (net.taken ++ vals.flatten).length + repeated results
  stream : repeated results = 0 → net'.taken ++ vals'.flatten = net.taken ++ vals.flatten

theorem exists_sent (hqueue : net.sendQueue.Holds vals) (h : net.sendLoop results = .ok net') :
    ∃ vals', net.Sent vals results net' vals' := by
  induction results generalizing net vals with
  | nil =>
      obtain ⟨rfl, rfl⟩ := sendLoop_nil_eq_ok hqueue h
      exact ⟨[], hqueue, rfl, rfl, fun _ => rfl⟩
  | cons result results ih =>
      cases vals with
      | nil =>
          rw [sendLoop_of_nil hqueue] at h
          cases h
      | cons data vals =>
          obtain ⟨sendQueue, hrest, hloop⟩ := exists_sendLoop_cons hqueue
          rw [hloop] at h
          cases result with
          | failed err => cases h
          | timeout part =>
              obtain ⟨hpart, h⟩ := ite_blocked_eq_ok h
              obtain ⟨vals', hsent⟩ := ih (hrest.pushFront data) h
              refine ⟨vals', hsent.holds, hsent.queued, ?_, ?_⟩
              · have hlength := hsent.length
                simp only [List.length_append, List.length_take] at hlength ⊢
                rw [repeated]
                omega
              · intro hzero
                obtain ⟨rfl, hlater⟩ : part = 0 ∧ repeated results = 0 := by
                  rw [repeated] at hzero
                  omega
                simpa using hsent.stream hlater
          | sent bytesSent =>
              change (if bytesSent < data.length then _ else _) = _ at h
              split at h
              · obtain ⟨rfl, h⟩ := ite_blocked_eq_ok h
                obtain rfl := Except.ok.inj h
                have hstream : net.taken ++ data.take bytesSent ++
                    (data.drop bytesSent :: vals).flatten =
                      net.taken ++ (data :: vals).flatten := by
                  rw [List.flatten_cons, List.flatten_cons, List.append_assoc,
                    ← List.append_assoc (data.take bytesSent), List.take_append_drop]
                refine ⟨data.drop bytesSent :: vals, hrest.pushFront _, rfl, ?_,
                  fun _ => hstream⟩
                rw [hstream]
                rfl
              · obtain ⟨-, h⟩ := ite_blocked_eq_ok h
                obtain ⟨vals', hsent⟩ := ih hrest h
                have hstream : net.taken ++ data ++ vals.flatten =
                    net.taken ++ (data :: vals).flatten := by
                  rw [List.flatten_cons, List.append_assoc]
                refine ⟨vals', hsent.holds, hsent.queued, ?_, fun hzero => ?_⟩
                · rw [hsent.length, ← hstream]
                  rfl
                · rw [hsent.stream hzero, ← hstream]

/-! ### All calls -/

def Queued (net : Sender) : Prop := ∃ vals, net.sendQueue.Holds vals

/-- The socket has taken no byte of the data it timed out on. -/
def NothingTaken : SenderEvent → Prop
  | .sendMessage _ => True
  | .send results => ∀ part, .timeout part ∈ results → part = 0

theorem conserves_iff (hqueue : net.sendQueue.Holds vals) :
    net.Conserves ↔ net.taken ++ vals.flatten = net.queued.flatten := by
  rw [Conserves, hqueue.toList_eq]

theorem Conserves.push (h : net.Conserves) (hqueue : net.sendQueue.Holds vals) (data : Bytes) :
    (net.push data).Conserves := by
  have hold := (conserves_iff hqueue).mp h
  rw [@conserves_iff (net.push data) _ (hqueue.push data)]
  calc net.taken ++ (vals ++ [data]).flatten
      = (net.taken ++ vals.flatten) ++ data := by simp
    _ = (net.queued ++ [data]).flatten := by rw [hold]; simp

theorem Conserves.sendLoop_iff (h : net.Conserves) (hqueue : net.sendQueue.Holds vals)
    (hsend : net.sendLoop results = .ok net') :
    net'.Conserves ↔ ∀ part, .timeout part ∈ results → part = 0 := by
  obtain ⟨vals', hsent⟩ := exists_sent hqueue hsend
  have hold := (conserves_iff hqueue).mp h
  rw [conserves_iff hsent.holds, hsent.queued, ← hold, ← repeated_eq_zero_iff]
  constructor
  · intro hstream
    have hlength := hsent.length
    rw [hstream] at hlength
    omega
  · exact hsent.stream

theorem queued_of_reachable (h : senderSystem.Reachable net) : net.Queued := by
  refine h.invariant Queued ⟨[], Queue.holds_new⟩ ?_
  rintro net e net' ⟨vals, hqueue⟩ hstep
  cases e with
  | sendMessage data =>
      obtain rfl : net.push data = net' := Option.some.inj hstep
      exact ⟨_, hqueue.push data⟩
  | send results =>
      change (net.sendLoop results).toOption = some net' at hstep
      cases hsend : net.sendLoop results with
      | error stop => rw [hsend] at hstep; cases hstep
      | ok net₁ =>
          rw [hsend] at hstep
          obtain rfl : net₁ = net' := Option.some.inj hstep
          obtain ⟨vals', hsent⟩ := exists_sent hqueue hsend
          exact ⟨vals', hsent.holds⟩

/-- **The send stream.** In every state of a run what the socket has taken and what is queued are
what was queued altogether exactly when no timeout of the run has taken anything. -/
theorem sendStream_iff (events : List SenderEvent) :
    (∀ past, past <+: events → ∀ net, senderSystem.run past = some net → net.Conserves) ↔
      ∀ past e, past ++ [e] <+: events → ∀ net net', senderSystem.run past = some net →
        senderSystem.step net e = some net' → NothingTaken e := by
  refine TransitionSystem.forall_state_iff (I := Queued) (P := Conserves)
    (fun net => queued_of_reachable) rfl ?_ events
  rintro net e net' ⟨vals, hqueue⟩ hconserves hstep
  cases e with
  | sendMessage data =>
      obtain rfl : net.push data = net' := Option.some.inj hstep
      exact iff_of_true (hconserves.push hqueue data) trivial
  | send results =>
      change (net.sendLoop results).toOption = some net' at hstep
      cases hsend : net.sendLoop results with
      | error stop => rw [hsend] at hstep; cases hstep
      | ok net₁ =>
          rw [hsend] at hstep
          obtain rfl : net₁ = net' := Option.some.inj hstep
          exact hconserves.sendLoop_iff hqueue hsend

/-- The socket takes the first of two bytes and blocks, and then takes both. -/
theorem not_conserves : ¬∀ (events : List SenderEvent) (net : Sender),
    senderSystem.run events = some net → net.Conserves := by
  intro h
  have hrun : (senderSystem.run [.sendMessage [1, 2], .send [.timeout 1, .sent 2]]).any (fun net =>
      decide (net.taken = [1, 1, 2] ∧ net.sendQueue.toList = [] ∧ net.queued = [[1, 2]])) =
        true := by
    decide
  obtain ⟨net, hnet, hstate⟩ := (Option.any_eq_true _ _).mp hrun
  obtain ⟨htaken, hqueue, hqueued⟩ := of_decide_eq_true hstate
  have hconserves := h _ net hnet
  rw [Conserves, htaken, hqueue, hqueued] at hconserves
  simp at hconserves

end Sender

end Net

end ChatGames
