import ChatGames.Connection
import ChatGames.Library.Backlog

/-!
# How far the server lags behind a client

`processReadBuf` takes one message off the buffer for each chunk that is read. So a connection that
has once received two frames in one chunk is a message late until it reads a chunk that completes
none, and `lag_le_iff` is the exact account of how late it is after any chunks: the messages posted
are the first ones of the stream, and those that wait are those by which the frames of some later
part of the stream outnumbered its chunks.
-/

namespace ChatGames

namespace Connection

theorem Oversize.append {buf : Bytes} (h : Oversize buf) (more : Bytes) :
    Oversize (buf ++ more) := by
  obtain ⟨hheader, hlarge⟩ := h
  refine ⟨?_, ?_⟩
  · rw [List.length_append]
    omega
  · rwa [List.take_append_of_le_length hheader]

/-- A stream that comes to a length the sum wraps on never gets past it. -/
theorem Oversize.tail_append {stream : Bytes} (h : Oversize (frames.tail stream)) (more : Bytes) :
    Oversize (frames.tail (stream ++ more)) := by
  have hover := h.append more
  rw [Splitter.tail_append, Splitter.tail_of_next_none (frames_next_of_oversize hover)]
  exact hover

theorem not_oversize_of_front {received chunks : List Bytes} (hbegins : received <+: chunks)
    (h : ¬Oversize (frames.tail chunks.flatten)) : ¬Oversize (frames.tail received.flatten) := by
  obtain ⟨later, rfl⟩ := hbegins
  rw [List.flatten_append] at h
  exact fun hover => h (hover.tail_append _)

/-- The messages posted are the first ones of the stream, and the buffer holds the rest of it. -/
structure Behind (conn : Connection) (stream : Bytes) : Prop where
  items : frames.items stream = conn.posted ++ frames.items conn.readBuf
  tail : frames.tail conn.readBuf = frames.tail stream

theorem behind_accepted : accepted.Behind [] := ⟨rfl, rfl⟩

variable {conn : Connection} {stream : Bytes}

/-- The buffer with the chunk behind it. -/
theorem Behind.append (h : conn.Behind stream) (chunk : Bytes) :
    Behind { conn with readBuf := conn.readBuf ++ chunk } (stream ++ chunk) := by
  refine ⟨?_, ?_⟩
  · rw [Splitter.items_append, h.items, Splitter.items_append conn.readBuf, h.tail,
      List.append_assoc]
  · rw [Splitter.tail_append, h.tail, ← Splitter.tail_append]

theorem Behind.processReadBuf (h : conn.Behind stream) (hover : ¬Oversize (frames.tail stream)) :
    ∃ conn', conn.processReadBuf = .ok conn' ∧ conn'.Behind stream ∧
      conn'.posted.length = min (conn.posted.length + 1) (frames.items stream).length := by
  cases hnext : frames.next conn.readBuf with
  | none =>
      have hsmall : ¬Oversize conn.readBuf := by
        rwa [← h.tail, Splitter.tail_of_next_none hnext] at hover
      refine ⟨conn, ?_, h, ?_⟩
      · rw [Connection.processReadBuf, readMessage_of_not_oversize hsmall, hnext]
        rfl
      · rw [h.items, Splitter.items_of_next_none hnext, List.append_nil]
        omega
  | some p =>
      obtain ⟨msg, rest⟩ := p
      have hsmall : ¬Oversize conn.readBuf := by
        intro hlarge
        rw [frames_next_of_oversize hlarge] at hnext
        cases hnext
      refine ⟨{ conn with readBuf := rest, posted := conn.posted ++ [msg] }, ?_, ⟨?_, ?_⟩, ?_⟩
      · rw [Connection.processReadBuf, readMessage_of_not_oversize hsmall, hnext]
        rfl
      · rw [h.items, Splitter.items_of_next_some hnext, List.append_assoc]
        rfl
      · rw [← h.tail, Splitter.tail_of_next_some hnext]
      · rw [h.items, Splitter.items_of_next_some hnext]
        simp only [List.length_append, List.length_cons, List.length_nil]
        omega

/-- **One chunk.** One more message is posted, if the stream so far has one. -/
theorem Behind.onRead (h : conn.Behind stream) {chunk : Bytes}
    (hover : ¬Oversize (frames.tail (stream ++ chunk))) :
    ∃ conn', conn.onRead (.received chunk) = .ok conn' ∧ conn'.Behind (stream ++ chunk) ∧
      conn'.posted.length =
        min (conn.posted.length + 1) (frames.items (stream ++ chunk)).length := by
  obtain ⟨conn', hcall, hbehind, hcount⟩ := (h.append chunk).processReadBuf hover
  refine ⟨{ conn' with reading := true }, ?_, ⟨hbehind.items, hbehind.tail⟩, hcount⟩
  rw [Connection.onRead, hcall]
  rfl

/-! ### All chunks -/

theorem exists_onReads {chunks : List Bytes} (hover : ¬Oversize (frames.tail chunks.flatten)) :
    ∃ conn, onReads chunks = .ok conn ∧ conn.Behind chunks.flatten := by
  induction chunks using List.reverseRecOn with
  | nil => exact ⟨accepted, rfl, behind_accepted⟩
  | append_singleton chunks chunk ih =>
      obtain ⟨conn, hreads, hbehind⟩ :=
        ih (not_oversize_of_front (List.prefix_append chunks [chunk]) hover)
      rw [List.flatten_append, List.flatten_singleton] at hover ⊢
      obtain ⟨conn', hread, hbehind', -⟩ := hbehind.onRead hover
      refine ⟨conn', ?_, hbehind'⟩
      rw [onReads_concat, hreads]
      exact hread

def arrived (chunks : List Bytes) : ℕ := (frames.items chunks.flatten).length

def taken (chunks : List Bytes) : ℕ :=
  match onReads chunks with
  | .ok conn => conn.posted.length
  | .error _ => 0

theorem taken_eq {chunks : List Bytes} (h : onReads chunks = .ok conn) :
    taken chunks = conn.posted.length := by
  rw [taken, h]

theorem oneASlot {chunks : List Bytes} (hover : ¬Oversize (frames.tail chunks.flatten)) :
    Backlog.OneASlot arrived taken chunks := by
  refine ⟨rfl, fun past chunk hpast => ?_⟩
  have hnow := not_oversize_of_front hpast hover
  obtain ⟨conn, hreads, hbehind⟩ :=
    exists_onReads (not_oversize_of_front (List.prefix_append past [chunk]) hnow)
  rw [arrived, List.flatten_append, List.flatten_singleton] at *
  obtain ⟨conn', hread, -, hcount⟩ := hbehind.onRead hnow
  have hreads' : onReads (past ++ [chunk]) = .ok conn' := by
    rw [onReads_concat, hreads]
    exact hread
  rw [taken_eq hreads, taken_eq hreads', hcount]

/-- **The lag.** Unless the stream comes to a length the sum wraps on, the messages posted after any
chunks are the first ones of the stream, the buffer holds the rest of it, and at most `late`
complete messages wait there exactly when no later part of the chunks completed more than `late`
frames beyond one for each chunk. -/
theorem lag_le_iff (chunks : List Bytes) (hover : ¬Oversize (frames.tail chunks.flatten)) :
    ∃ conn, onReads chunks = .ok conn ∧
      frames.items chunks.flatten = conn.posted ++ frames.items conn.readBuf ∧
      frames.tail conn.readBuf = frames.tail chunks.flatten ∧
      ∀ late, (frames.items conn.readBuf).length ≤ late ↔
        ∀ received later, received ++ later = chunks →
          (frames.items chunks.flatten).length ≤
            (frames.items received.flatten).length + later.length + late := by
  obtain ⟨conn, hreads, hbehind⟩ := exists_onReads hover
  refine ⟨conn, hreads, hbehind.items, hbehind.tail, fun late => ?_⟩
  have hwaiting : (frames.items conn.readBuf).length = arrived chunks - taken chunks := by
    rw [arrived, hbehind.items, taken_eq hreads, List.length_append, Nat.add_sub_cancel_left]
  rw [hwaiting]
  exact (oneASlot hover).waiting_le_iff

/-- Two heartbeats in one chunk and a third one behind them: one of them waits. -/
theorem lag_three_heartbeats :
    ¬Oversize (frames.tail [[0, 0, 0, 1, 11, 0, 0, 0, 1, 11], [0, 0, 0, 1, 11]].flatten) ∧
      ∃ conn, onReads [[0, 0, 0, 1, 11, 0, 0, 0, 1, 11], [0, 0, 0, 1, 11]] = .ok conn ∧
        (frames.items conn.readBuf).length ≤ 1 := by
  have hover :
      ¬Oversize (frames.tail [[0, 0, 0, 1, 11, 0, 0, 0, 1, 11], [0, 0, 0, 1, 11]].flatten) := by
    unfold Oversize
    decide
  obtain ⟨conn, hreads, -, -, hlate⟩ := lag_le_iff _ hover
  refine ⟨hover, conn, hreads, ?_⟩
  obtain rfl := Except.ok.inj (hreads.symm.trans rfl)
  decide

end Connection

end ChatGames
