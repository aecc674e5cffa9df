import ChatGames.Serialization
import ChatGames.Library.TransitionSystem

/-!
# The server's write side

Every `send` posts a handler to the connection's write strand, and every `async_write` posts one
when it completes; the strand runs them one at a time in the order they were posted. Which handler
starts the next write is decided from `sendQueue_` alone: `queueMessage` does it if the queue was
empty, `sendDone` if it is not empty yet.

`Phase` is what the strand goes through. A write that fails leaves its message at the front, so the
queue never looks idle again and nothing is written after it.
-/

namespace ChatGames

/-- An element of the deque, which stays where it is while others are added behind it and taken from
before it. A buffer is the element it was made from, with the content it had then. -/
structure Element where
  address : Nat
  msg : Bytes
deriving DecidableEq

inductive Handler where
  | queueMessage (msg : Bytes)
  /-- The completion handler of a write; `buffer` is the one that was written. -/
  | sendDone (buffer : Element) (error : Bool)
deriving DecidableEq

structure Writer where
  /-- What has been posted to `writeStrand_` and has not run. -/
  strand : List Handler
  sendQueue : List Element
  /-- The buffers of the writes that have been started and have not completed. -/
  writes : List Element
  /-- What has been given to `send`, what has been queued, and what writes have been handled. -/
  sent : List Bytes
  queued : List Bytes
  completed : List Bytes
  started : Nat
  failed : Bool
deriving DecidableEq

inductive WriterEvent where
  | send (msg : Bytes)
  | complete (idx : Nat) (error : Bool)
  | runHandler
deriving DecidableEq

inductive WriterStop where
  /-- `front` or `pop_front` of an empty deque. -/
  | emptyDeque
  | blocked
deriving DecidableEq

namespace Writer

def init : Writer := ⟨[], [], [], [], [], [], 0, false⟩

def send (conn : Writer) (msg : Bytes) : Writer :=
  { conn with
    strand := conn.strand ++ [.queueMessage msg]
    sent := conn.sent ++ [msg] }

def sendFromQueue (conn : Writer) : Except WriterStop Writer :=
  match conn.sendQueue with
  | [] => .error .emptyDeque
  | front :: _ => .ok { conn with
      writes := conn.writes ++ [front]
      started := conn.started + 1 }

def queueMessage (conn : Writer) (msg : Bytes) : Except WriterStop Writer :=
  let writeInProgress := !conn.sendQueue.isEmpty
  let conn := { conn with
    sendQueue := conn.sendQueue ++ [⟨conn.queued.length, msg⟩]
    queued := conn.queued ++ [msg] }
  if !writeInProgress then conn.sendFromQueue else .ok conn

def sendDone (conn : Writer) (buffer : Element) (error : Bool) : Except WriterStop Writer :=
  if !error then
    match conn.sendQueue with
    | [] => .error .emptyDeque
    | _ :: rest =>
        let conn := { conn with
          sendQueue := rest
          completed := conn.completed ++ [buffer.msg] }
        if !rest.isEmpty then conn.sendFromQueue else .ok conn
  else
    .ok conn

/-- Completing a write only posts its handler. -/
def complete (conn : Writer) (idx : Nat) (error : Bool) : Except WriterStop Writer :=
  match conn.writes[idx]? with
  | none => .error .blocked
  | some buffer => .ok { conn with
      writes := conn.writes.eraseIdx idx
      strand := conn.strand ++ [.sendDone buffer error]
      failed := conn.failed || error }

def runHandler (conn : Writer) : Except WriterStop Writer :=
  match conn.strand with
  | [] => .error .blocked
  | .queueMessage msg :: strand => { conn with strand := strand }.queueMessage msg
  | .sendDone buffer error :: strand => { conn with strand := strand }.sendDone buffer error

def step (conn : Writer) : WriterEvent → Except WriterStop Writer
  | .send msg => .ok (conn.send msg)
  | .complete idx error => conn.complete idx error
  | .runHandler => conn.runHandler

end Writer

def writerSystem : TransitionSystem Writer WriterEvent where
  init := Writer.init
  step conn e := (conn.step e).toOption

namespace Writer

/-! ### The specification -/

def completion : Handler → Option (Element × Bool)
  | .queueMessage _ => none
  | .sendDone buffer error => some (buffer, error)

def posted : Handler → Option Bytes
  | .queueMessage msg => some msg
  | .sendDone _ _ => none

/-- The completion handlers that have been posted and have not run. -/
def completions (conn : Writer) : List (Element × Bool) := conn.strand.filterMap completion

/-- A write is outstanding until its completion handler has run. -/
def outstanding (conn : Writer) : List Element :=
  conn.writes ++ conn.completions.map Prod.fst

structure Sound (conn : Writer) : Prop where
  one : conn.outstanding.length ≤ 1
  front : ∀ buffer ∈ conn.outstanding, conn.sendQueue.head? = some buffer
  busy : conn.failed = false → (conn.sendQueue ≠ [] ↔ conn.outstanding ≠ [])
  order : conn.completed ++ conn.sendQueue.map Element.msg = conn.queued
  pending : conn.queued ++ conn.strand.filterMap posted = conn.sent

/-! ### Phases -/

/-- What becomes of the front of the queue: there is none, it is being written, it has been written
or not and the strand does not know yet, or it could not be written. -/
inductive Phase (conn : Writer) : Prop
  | idle (hqueue : conn.sendQueue = []) (hwrites : conn.writes = [])
      (hdone : conn.completions = []) (hfailed : conn.failed = false)
  | writing {front : Element} {rest : List Element} (hqueue : conn.sendQueue = front :: rest)
      (hwrites : conn.writes = [front]) (hdone : conn.completions = [])
      (hfailed : conn.failed = false)
  | completing {front : Element} {rest : List Element} (hqueue : conn.sendQueue = front :: rest)
      (hwrites : conn.writes = []) (hdone : conn.completions = [(front, conn.failed)])
  | stuck {front : Element} {rest : List Element} (hqueue : conn.sendQueue = front :: rest)
      (hwrites : conn.writes = []) (hdone : conn.completions = []) (hfailed : conn.failed = true)

variable {conn conn' : Writer}

/-- A queue with something in it only grows. -/
theorem queueMessage_of_cons {front : Element} {rest : List Element}
    (hqueue : conn.sendQueue = front :: rest) (msg : Bytes) :
    conn.queueMessage msg = .ok { conn with
      sendQueue := conn.sendQueue ++ [⟨conn.queued.length, msg⟩]
      queued := conn.queued ++ [msg] } := by
  simp [queueMessage, hqueue]

theorem queueMessage_of_nil (hqueue : conn.sendQueue = []) (msg : Bytes) :
    conn.queueMessage msg = .ok { conn with
      sendQueue := [⟨conn.queued.length, msg⟩]
      queued := conn.queued ++ [msg]
      writes := conn.writes ++ [⟨conn.queued.length, msg⟩]
      started := conn.started + 1 } := by
  simp [queueMessage, sendFromQueue, hqueue]

theorem sendDone_of_error (buffer : Element) : conn.sendDone buffer true = .ok conn := rfl

theorem sendDone_of_last {front : Element} (hqueue : conn.sendQueue = [front]) (buffer : Element) :
    conn.sendDone buffer false = .ok { conn with
      sendQueue := []
      completed := conn.completed ++ [buffer.msg] } := by
  simp [sendDone, hqueue]

theorem sendDone_of_more {front next : Element} {rest : List Element}
    (hqueue : conn.sendQueue = front :: next :: rest) (buffer : Element) :
    conn.sendDone buffer false = .ok { conn with
      sendQueue := next :: rest
      completed := conn.completed ++ [buffer.msg]
      writes := conn.writes ++ [next]
      started := conn.started + 1 } := by
  simp [sendDone, sendFromQueue, hqueue]

/-! ### One step -/

structure Inv (conn : Writer) : Prop where
  phase : conn.Phase
  order : conn.completed ++ conn.sendQueue.map Element.msg = conn.queued
  pending : conn.queued ++ conn.strand.filterMap posted = conn.sent

/-- What a step from a state that meets the invariant comes to, if it can be taken. -/
structure Follows (conn conn' : Writer) : Prop where
  inv : conn'.Inv
  /-- Nothing is started after a failure. -/
  halted : conn.failed = true → conn'.failed = true ∧ conn'.started = conn.started

theorem Inv.send (h : conn.Inv) (msg : Bytes) : conn.Follows (conn.send msg) := by
  have hcompletions : (conn.send msg).completions = conn.completions := by
    simp [Writer.send, completions, completion]
  refine ⟨⟨?_, h.order, ?_⟩, fun hfailed => ⟨hfailed, rfl⟩⟩
  · rcases h.phase with ⟨hqueue, hwrites, hdone, hfailed⟩ | ⟨hqueue, hwrites, hdone, hfailed⟩ |
      ⟨hqueue, hwrites, hdone⟩ | ⟨hqueue, hwrites, hdone, hfailed⟩
    · exact .idle hqueue hwrites (hcompletions.trans hdone) hfailed
    · exact .writing hqueue hwrites (hcompletions.trans hdone) hfailed
    · exact .completing hqueue hwrites (hcompletions.trans hdone)
    · exact .stuck hqueue hwrites (hcompletions.trans hdone) hfailed
  · calc conn.queued ++ (conn.strand ++ [Handler.queueMessage msg]).filterMap posted
        = (conn.queued ++ conn.strand.filterMap posted) ++ [msg] := by
          simp [posted]
      _ = conn.sent ++ [msg] := by rw [h.pending]

/-- Only a write that is in flight can complete, and there is one in one phase only. -/
theorem Inv.complete (h : conn.Inv) (idx : Nat) (error : Bool) :
    conn.complete idx error = .error .blocked ∨
      ∃ conn', conn.complete idx error = .ok conn' ∧ conn.Follows conn' := by
  have hblocked (hwrites : conn.writes = []) : conn.complete idx error = .error .blocked := by
    simp [Writer.complete, hwrites]
  rcases h.phase with ⟨-, hwrites, -, -⟩ | @⟨front, rest, hqueue, hwrites, hdone, hfailed⟩ |
    ⟨-, hwrites, -⟩ | ⟨-, hwrites, -, -⟩
  · exact Or.inl (hblocked hwrites)
  · cases idx with
    | succ idx => exact Or.inl (by simp [Writer.complete, hwrites])
    | zero =>
        have hok : conn.complete 0 error = .ok { conn with
            writes := []
            strand := conn.strand ++ [.sendDone front error]
            failed := conn.failed || error } := by
          simp [Writer.complete, hwrites]
        refine Or.inr ⟨_, hok, ⟨?_, h.order, ?_⟩, ?_⟩
        · refine .completing hqueue rfl ?_
          have hnone : conn.strand.filterMap completion = [] := hdone
          simp [completions, completion, hnone, hfailed]
        · rw [List.filterMap_append, ← List.append_assoc, h.pending]
          exact List.append_nil _
        · intro hfailed'
          rw [hfailed] at hfailed'
          cases hfailed'
  · exact Or.inl (hblocked hwrites)
  · exact Or.inl (hblocked hwrites)

/-- A message is written at once when the queue is empty, and waits otherwise. -/
theorem Inv.runQueueMessage (h : conn.Inv) {msg : Bytes} {strand : List Handler}
    (hstrand : conn.strand = .queueMessage msg :: strand) :
    ∃ conn', conn.runHandler = .ok conn' ∧ conn.Follows conn' := by
  have hcompletions : strand.filterMap completion = conn.completions := by
    rw [completions, hstrand]
    rfl
  have hpending : conn.queued ++ [msg] ++ strand.filterMap posted = conn.sent := by
    rw [← h.pending, hstrand, List.append_assoc]
    rfl
  have horder : conn.completed ++
      (conn.sendQueue ++ [Element.mk conn.queued.length msg]).map Element.msg =
        conn.queued ++ [msg] := by
    rw [List.map_append, ← List.append_assoc, h.order]
    rfl
  have hgrown {front : Element} {rest : List Element} (hqueue : conn.sendQueue = front :: rest) :
      conn.sendQueue ++ [⟨conn.queued.length, msg⟩] =
        front :: (rest ++ [⟨conn.queued.length, msg⟩]) := by
    rw [hqueue, List.cons_append]
  rw [runHandler, hstrand]
  change ∃ conn', ({ conn with strand := strand } : Writer).queueMessage msg = .ok conn' ∧ _
  rcases h.phase with ⟨hqueue, hwrites, hdone, hfailed⟩ |
    @⟨front, rest, hqueue, hwrites, hdone, hfailed⟩ | @⟨front, rest, hqueue, hwrites, hdone⟩ |
    @⟨front, rest, hqueue, hwrites, hdone, hfailed⟩
  · refine ⟨_, @queueMessage_of_nil { conn with strand := strand } hqueue msg,
      ⟨?_, ?_, hpending⟩, ?_⟩
    · exact .writing rfl (by simp [hwrites]) (hcompletions.trans hdone) hfailed
    · simpa [hqueue] using horder
    · intro hfailed'
      rw [hfailed] at hfailed'
      cases hfailed'
  · refine ⟨_, @queueMessage_of_cons { conn with strand := strand } _ _ hqueue msg,
      ⟨?_, horder, hpending⟩, fun h => ⟨h, rfl⟩⟩
    exact .writing (hgrown hqueue) hwrites (hcompletions.trans hdone) hfailed
  · refine ⟨_, @queueMessage_of_cons { conn with strand := strand } _ _ hqueue msg,
      ⟨?_, horder, hpending⟩, fun h => ⟨h, rfl⟩⟩
    exact .completing (hgrown hqueue) hwrites (hcompletions.trans hdone)
  · refine ⟨_, @queueMessage_of_cons { conn with strand := strand } _ _ hqueue msg,
      ⟨?_, horder, hpending⟩, fun h => ⟨h, rfl⟩⟩
    exact .stuck (hgrown hqueue) hwrites (hcompletions.trans hdone) hfailed

/-- The one completion handler finds its buffer at the front, and starts the next write or leaves
the queue empty; after an error it leaves everything as it is. -/
theorem Inv.runSendDone (h : conn.Inv) {buffer : Element} {error : Bool} {strand : List Handler}
    (hstrand : conn.strand = .sendDone buffer error :: strand) :
    ∃ conn', conn.runHandler = .ok conn' ∧ conn.Follows conn' := by
  have hcompletions : conn.completions = (buffer, error) :: strand.filterMap completion := by
    rw [completions, hstrand]
    rfl
  have hpending : conn.queued ++ strand.filterMap posted = conn.sent := by
    rw [← h.pending, hstrand]
    rfl
  have hnot (hdone : conn.completions = []) : False := by
    rw [hcompletions] at hdone
    cases hdone
  rcases h.phase with ⟨-, -, hdone, -⟩ | ⟨-, -, hdone, -⟩ |
    @⟨front, rest, hqueue, hwrites, hdone⟩ | ⟨-, -, hdone, -⟩
  · exact (hnot hdone).elim
  · exact (hnot hdone).elim
  · rw [hcompletions, List.cons.injEq, Prod.mk.injEq] at hdone
    obtain ⟨⟨rfl, herror⟩, hnone⟩ := hdone
    rw [runHandler, hstrand]
    change ∃ conn', ({ conn with strand := strand } : Writer).sendDone buffer error = .ok conn' ∧ _
    cases error with
    | true =>
        refine ⟨_, @sendDone_of_error { conn with strand := strand } buffer,
          ⟨?_, h.order, hpending⟩, fun h => ⟨h, rfl⟩⟩
        exact .stuck hqueue hwrites hnone herror.symm
    | false =>
        have horder := h.order
        rw [hqueue, List.map_cons] at horder
        have hhalted (hfailed : conn.failed = true) : False := by
          rw [← herror] at hfailed
          cases hfailed
        cases rest with
        | nil =>
            refine ⟨_, @sendDone_of_last { conn with strand := strand } _ hqueue buffer,
              ⟨?_, ?_, hpending⟩, fun h => (hhalted h).elim⟩
            · exact .idle rfl hwrites hnone herror.symm
            · simpa using horder
        | cons next rest =>
            refine ⟨_, @sendDone_of_more { conn with strand := strand } _ _ _ hqueue buffer,
              ⟨?_, ?_, hpending⟩, fun h => (hhalted h).elim⟩
            · exact .writing rfl (by simp [hwrites]) hnone herror.symm
            · simpa using horder
  · exact (hnot hdone).elim

/-- From a state that meets the invariant an event cannot happen, or leads to one that meets it. -/
theorem Inv.step (h : conn.Inv) (e : WriterEvent) :
    conn.step e = .error .blocked ∨ ∃ conn', conn.step e = .ok conn' ∧ conn.Follows conn' := by
  cases e with
  | send msg => exact Or.inr ⟨_, rfl, h.send msg⟩
  | complete idx error => exact h.complete idx error
  | runHandler =>
      change conn.runHandler = _ ∨ ∃ conn', conn.runHandler = .ok conn' ∧ _
      cases hstrand : conn.strand with
      | nil => exact Or.inl (by simp [runHandler, hstrand])
      | cons handler strand =>
          cases handler with
          | queueMessage msg => exact Or.inr (h.runQueueMessage hstrand)
          | sendDone buffer error => exact Or.inr (h.runSendDone hstrand)

/-! ### Runs -/

theorem Inv.sound (h : conn.Inv) : conn.Sound := by
  refine ⟨?_, ?_, ?_, h.order, h.pending⟩
  all_goals
    rcases h.phase with ⟨hqueue, hwrites, hdone, hfailed⟩ | ⟨hqueue, hwrites, hdone, hfailed⟩ |
      ⟨hqueue, hwrites, hdone⟩ | ⟨hqueue, hwrites, hdone, hfailed⟩ <;>
    simp_all [outstanding]

theorem inv_of_reachable (h : writerSystem.Reachable conn) : conn.Inv := by
  refine h.invariant Inv ⟨.idle rfl rfl rfl rfl, rfl, rfl⟩ ?_
  intro conn e conn' hinv hstep
  change (conn.step e).toOption = some conn' at hstep
  rcases hinv.step e with hblocked | ⟨conn'', hok, hfollows⟩
  · rw [hblocked] at hstep
    cases hstep
  · rw [hok] at hstep
    obtain rfl : conn'' = conn' := Option.some.inj hstep
    exact hfollows.inv

/-- **The write queue.** In every state of every run one write at most is outstanding and its buffer
is the front of the queue as it is; until a write fails one is outstanding whenever something is
queued, and what has been written followed by the queue is what was queued, in the order it was
sent. No step asks an empty queue for its front, and none starts a write after one has failed. -/
theorem writeQueue_sound (h : writerSystem.Reachable conn) :
    conn.Sound ∧ ∀ e, conn.step e ≠ .error .emptyDeque ∧
      (conn.failed = true → ∀ conn', conn.step e = .ok conn' →
        conn'.failed = true ∧ conn'.started = conn.started) := by
  have hinv := inv_of_reachable h
  refine ⟨hinv.sound, fun e => ?_⟩
  rcases hinv.step e with hblocked | ⟨conn', hok, hfollows⟩
  · rw [hblocked]
    exact ⟨by simp, fun _ _ hstep => by cases hstep⟩
  · rw [hok]
    refine ⟨by simp, fun hfailed conn'' hstep => ?_⟩
    obtain rfl := Except.ok.inj hstep
    exact hfollows.halted hfailed

/-- Two messages are queued before the first is written, and the second write fails. -/
theorem writeQueue_sound_failed : ∃ conn : Writer, writerSystem.run [.send [1], .send [2],
    .runHandler, .runHandler, .complete 0 false, .send [3], .runHandler, .complete 0 true,
      .runHandler, .runHandler] = some conn ∧
    conn.completed = [[1]] ∧ conn.sendQueue.map Element.msg = [[2], [3]] ∧
      conn.queued = [[1], [2], [3]] ∧ conn.outstanding.length ≤ 1 := by
  have hrun : (writerSystem.run [.send [1], .send [2], .runHandler, .runHandler,
      .complete 0 false, .send [3], .runHandler, .complete 0 true, .runHandler,
        .runHandler]).any (fun conn => decide (conn.completed = [[1]] ∧
          conn.sendQueue.map Element.msg = [[2], [3]])) = true := by
    decide
  obtain ⟨conn, hconn, hstate⟩ := (Option.any_eq_true _ _).mp hrun
  obtain ⟨hcompleted, hqueue⟩ := of_decide_eq_true hstate
  obtain ⟨hsound, -⟩ := writeQueue_sound (TransitionSystem.reachable_of_run hconn)
  refine ⟨conn, hconn, hcompleted, hqueue, ?_, hsound.one⟩
  rw [← hsound.order, hcompleted, hqueue]
  rfl

end Writer

end ChatGames
