import ChatGames.NetSend

/-!
# Whether `send` returns

A timeout puts the data back and goes on with the loop, so the loop asks the socket again at once.
The answers of the socket are a sequence here, of which a call takes as many as it needs. The call
comes to an end with the first answers that are not timeouts and take all of the queue, or a part of
one of its elements, and not before.
-/

namespace ChatGames

namespace Net.Sender

def isTimeout : SendResult → Bool
  | .timeout _ => true
  | .sent _ | .failed _ => false

/-- What the socket answers to the first `n` attempts. -/
def firstAnswers (answers : Nat → SendResult) (n : Nat) : List SendResult :=
  (List.range n).map answers

def withoutTimeouts (results : List SendResult) : List SendResult :=
  results.filter fun result => !isTimeout result

/-- The answers are those of a socket that is offered the elements of the queue: it takes no more
than there is, and less than that before a timeout. -/
def Fits : List Bytes → List SendResult → Prop
  | data :: vals, .timeout part :: results => part < data.length ∧ Fits (data :: vals) results
  | data :: vals, .sent bytesSent :: results =>
      bytesSent ≤ data.length ∧ (bytesSent = data.length → Fits vals results)
  | _, _ => True

/-- The answers take all elements whole or some of them and a part of the next, or else take some of
them whole and end with an error. -/
def Ends : List Bytes → List SendResult → Option LuaError → Prop
  | [], [], none => True
  | data :: vals, .sent bytesSent :: results, err =>
      bytesSent = data.length ∧ Ends vals results err ∨
        bytesSent < data.length ∧ results = [] ∧ err = none
  | _ :: _, [.failed err'], some err => err' = err
  | _, _, _ => False

/-- The number of bytes that `tcp:send` says it has sent. -/
def acknowledged : List SendResult → Nat
  | [] => 0
  | .sent bytesSent :: results => bytesSent + acknowledged results
  | .timeout _ :: results | .failed _ :: results => acknowledged results

variable {net net' : Sender} {vals : List Bytes} {data : Bytes} {results : List SendResult}
  {answers : Nat → SendResult}

@[simp]
theorem withoutTimeouts_timeout (part : Nat) (results : List SendResult) :
    withoutTimeouts (.timeout part :: results) = withoutTimeouts results := rfl

@[simp]
theorem withoutTimeouts_sent (bytesSent : Nat) (results : List SendResult) :
    withoutTimeouts (.sent bytesSent :: results) =
      .sent bytesSent :: withoutTimeouts results := rfl

@[simp]
theorem withoutTimeouts_failed (err : LuaError) (results : List SendResult) :
    withoutTimeouts (.failed err :: results) = .failed err :: withoutTimeouts results := rfl

theorem take_firstAnswers {n m : Nat} (h : n ≤ m) :
    (firstAnswers answers m).take n = firstAnswers answers n := by
  rw [firstAnswers, ← List.map_take, List.take_range, min_eq_left h, firstAnswers]

/-! ### What a call that returns leaves -/

theorem ends_of_sendLoop (hqueue : net.sendQueue.Holds vals)
    (h : net.sendLoop results = .ok net') :
    Ends vals (withoutTimeouts results) none ∧ ∃ vals', net'.sendQueue.Holds vals' ∧
      vals'.flatten = vals.flatten.drop (acknowledged results) := by
  induction results generalizing net vals with
  | nil =>
      obtain ⟨rfl, rfl⟩ := sendLoop_nil_eq_ok hqueue h
      exact ⟨trivial, [], hqueue, rfl⟩
  | cons result results ih =>
      cases vals with
      | nil =>
          rw [sendLoop_of_nil hqueue] at h
          cases h
      | cons data vals =>
          obtain ⟨sendQueue, hrest, hloop⟩ := exists_sendLoop_cons hqueue
          rw [hloop] at h
          cases result with
          | failed err => cases h
          | timeout part =>
              obtain ⟨-, h⟩ := ite_blocked_eq_ok h
              exact ih (hrest.pushFront data) h
          | sent bytesSent =>
              by_cases hpart : bytesSent < data.length
              · change (if bytesSent < data.length then _ else _) = _ at h
                rw [if_pos hpart] at h
                obtain ⟨rfl, h⟩ := ite_blocked_eq_ok h
                obtain rfl := Except.ok.inj h
                refine ⟨Or.inr ⟨hpart, rfl, rfl⟩, _, hrest.pushFront _, ?_⟩
                rw [List.flatten_cons, List.flatten_cons, acknowledged, acknowledged, Nat.add_zero,
                  List.drop_append_of_le_length hpart.le]
              · change (if bytesSent < data.length then _ else _) = _ at h
                rw [if_neg hpart] at h
                obtain ⟨hwhole, hlater⟩ := ite_blocked_eq_ok h
                obtain ⟨hends, vals', hholds, hvals'⟩ := ih hrest hlater
                refine ⟨Or.inl ⟨hwhole, hends⟩, vals', hholds, ?_⟩
                rw [hvals', List.flatten_cons, acknowledged, hwhole, List.drop_length_add_append]

theorem ends_of_raised {err : LuaError} (hqueue : net.sendQueue.Holds vals)
    (h : net.sendLoop results = .error (.raised err)) :
    ∃ n, Ends vals (withoutTimeouts (results.take n)) (some err) := by
  induction results generalizing net vals with
  | nil =>
      rw [sendLoop] at h
      split at h <;> cases h
  | cons result results ih =>
      cases vals with
      | nil =>
          rw [sendLoop_of_nil hqueue] at h
          cases h
      | cons data vals =>
          obtain ⟨sendQueue, hrest, hloop⟩ := exists_sendLoop_cons hqueue
          rw [hloop] at h
          cases result with
          | failed err' =>
              cases h
              exact ⟨1, rfl⟩
          | timeout part =>
              obtain ⟨-, hlater⟩ := ite_blocked_eq_raised h
              obtain ⟨n, hends⟩ := ih (hrest.pushFront data) hlater
              exact ⟨n + 1, hends⟩
          | sent bytesSent =>
              change (if bytesSent < data.length then _ else _) = _ at h
              split at h
              · cases (ite_blocked_eq_raised h).2
              · obtain ⟨hwhole, hlater⟩ := ite_blocked_eq_raised h
                obtain ⟨n, hends⟩ := ih hrest hlater
                exact ⟨n + 1, Or.inl ⟨hwhole, hends⟩⟩

/-! ### Answers that end a call -/

/-- How a call ended: it returned, or it raised an error. -/
def EndedWith : Except SenderStop Sender → Option LuaError → Prop
  | .ok _, none => True
  | .error (.raised err'), some err => err' = err
  | _, _ => False

theorem ends_nil {err : Option LuaError} (h : Ends [] results err) : err = none := by
  cases results with
  | nil =>
      cases err with
      | none => rfl
      | some err => exact h.elim
  | cons result results => exact h.elim

theorem ends_failed {err' : LuaError} {err : Option LuaError}
    (h : Ends (data :: vals) (.failed err' :: results) err) : err = some err' := by
  cases results with
  | nil =>
      cases err with
      | none => exact h.elim
      | some err => exact congrArg some (Eq.symm h)
  | cons result results => exact h.elim

theorem exists_endedWith (hqueue : net.sendQueue.Holds vals) (hfits : Fits vals results)
    {err : Option LuaError} (h : Ends vals (withoutTimeouts results) err) :
    ∃ n ≤ results.length, EndedWith (net.sendLoop (results.take n)) err := by
  induction results generalizing net vals with
  | nil =>
      cases vals with
      | nil =>
          refine ⟨0, le_rfl, ?_⟩
          rw [List.take_nil, sendLoop, if_pos (hqueue.empty_iff.mpr rfl), ends_nil h]
          trivial
      | cons data vals => exact h.elim
  | cons result results ih =>
      cases vals with
      | nil =>
          refine ⟨0, Nat.zero_le _, ?_⟩
          rw [List.take_zero, sendLoop, if_pos (hqueue.empty_iff.mpr rfl), ends_nil h]
          trivial
      | cons data vals =>
          obtain ⟨sendQueue, hrest, hloop⟩ := exists_sendLoop_cons hqueue
          cases result with
          | failed err' =>
              refine ⟨1, Nat.succ_le_succ (Nat.zero_le _), ?_⟩
              rw [List.take_succ_cons, hloop, ends_failed h]
              rfl
          | timeout part =>
              obtain ⟨hpart, hfits⟩ := hfits
              let net₁ : Sender := { net with
                sendQueue := sendQueue.pushFront data
                taken := net.taken ++ data.take part }
              obtain ⟨n, hn, hended⟩ := @ih net₁ (data :: vals) (hrest.pushFront data) hfits h
              refine ⟨n + 1, Nat.succ_le_succ hn, ?_⟩
              rw [List.take_succ_cons, hloop]
              change EndedWith (if part < data.length then _ else _) err
              rwa [if_pos hpart]
          | sent bytesSent =>
              rcases h with ⟨hwhole, hends⟩ | ⟨hpart, -, rfl⟩
              · let net₁ : Sender := { net with
                  sendQueue := sendQueue
                  taken := net.taken ++ data }
                obtain ⟨n, hn, hended⟩ := @ih net₁ vals hrest (hfits.2 hwhole) hends
                refine ⟨n + 1, Nat.succ_le_succ hn, ?_⟩
                rw [List.take_succ_cons, hloop]
                change EndedWith (if bytesSent < data.length then _ else _) err
                rwa [if_neg hwhole.not_lt, if_pos hwhole]
              · refine ⟨1, Nat.succ_le_succ (Nat.zero_le _), ?_⟩
                rw [List.take_succ_cons, List.take_zero, hloop]
                change EndedWith (if bytesSent < data.length then _ else _) none
                rw [if_pos hpart, if_pos rfl]
                trivial

theorem endedWith_none {r : Except SenderStop Sender} (h : EndedWith r none) :
    ∃ net', r = .ok net' := by
  match r, h with
  | .ok net', _ => exact ⟨net', rfl⟩

theorem endedWith_some {r : Except SenderStop Sender} {err : LuaError}
    (h : EndedWith r (some err)) : r = .error (.raised err) := by
  match r, h with
  | .error (.raised _), rfl => rfl

/-- The call returns after `n` attempts, and the queue starts with what has not been sent. -/
def ReturnsAfter (net : Sender) (answers : Nat → SendResult) (n : Nat) : Prop :=
  ∃ net', net.sendLoop (firstAnswers answers n) = .ok net' ∧
    net'.sendQueue.toList.flatten =
      net.sendQueue.toList.flatten.drop (acknowledged (firstAnswers answers n))

theorem exists_answers_endedWith (hqueue : net.sendQueue.Holds vals)
    (hfits : ∀ n, Fits vals (firstAnswers answers n)) {err : Option LuaError} {n : Nat}
    (h : Ends vals (withoutTimeouts (firstAnswers answers n)) err) :
    ∃ n, EndedWith (net.sendLoop (firstAnswers answers n)) err := by
  obtain ⟨m, hm, hended⟩ := exists_endedWith hqueue (hfits n) h
  rw [firstAnswers, List.length_map, List.length_range] at hm
  rw [take_firstAnswers hm] at hended
  exact ⟨m, hended⟩

/-- **Spinning.** Whatever is queued and whatever the socket answers, a call returns, with what has
not been sent in front, exactly when the answers that are not timeouts come to an end of the queue
or a part of an element, and it raises an error exactly when they come to that error. -/
theorem send_returns_iff (hqueue : net.sendQueue.Holds vals)
    (hfits : ∀ n, Fits vals (firstAnswers answers n)) :
    ((∃ n, net.ReturnsAfter answers n) ↔
      ∃ n, Ends vals (withoutTimeouts (firstAnswers answers n)) none) ∧
    ∀ err, (∃ n, net.sendLoop (firstAnswers answers n) = .error (.raised err)) ↔
      ∃ n, Ends vals (withoutTimeouts (firstAnswers answers n)) (some err) := by
  refine ⟨⟨?_, ?_⟩, fun err => ⟨?_, ?_⟩⟩
  · rintro ⟨n, net', hsend, -⟩
    exact ⟨n, (ends_of_sendLoop hqueue hsend).1⟩
  · rintro ⟨n, hends⟩
    obtain ⟨m, hended⟩ := exists_answers_endedWith hqueue hfits hends
    obtain ⟨net', hsend⟩ := endedWith_none hended
    obtain ⟨-, vals', hholds, hflatten⟩ := ends_of_sendLoop hqueue hsend
    refine ⟨m, net', hsend, ?_⟩
    rw [hholds.toList_eq, hqueue.toList_eq, hflatten]
  · rintro ⟨n, hsend⟩
    obtain ⟨m, hends⟩ := ends_of_raised hqueue hsend
    refine ⟨min m n, ?_⟩
    rwa [firstAnswers, ← List.take_range, List.map_take]
  · rintro ⟨n, hends⟩
    obtain ⟨m, hended⟩ := exists_answers_endedWith hqueue hfits hends
    exact ⟨m, endedWith_some hended⟩

/-- A socket that is offered one element and takes nothing or all of it. -/
theorem fits_single (hdata : data ≠ []) (h : ∀ result ∈ results,
    result = .timeout 0 ∨ result = .sent data.length) : Fits [data] results := by
  induction results with
  | nil => trivial
  | cons result results ih =>
      have hlater := ih fun result hresult => h result (List.mem_cons_of_mem _ hresult)
      rcases h result List.mem_cons_self with rfl | rfl
      · exact ⟨List.length_pos_iff.mpr hdata, hlater⟩
      · refine ⟨le_rfl, fun _ => ?_⟩
        cases results <;> trivial

/-- Two attempts time out, and the third takes both bytes. -/
theorem send_returns_iff_third : ∃ n,
    (init.push [1, 2]).ReturnsAfter (fun i => if i < 2 then .timeout 0 else .sent 2) n := by
  have hqueue : (init.push [1, 2]).sendQueue.Holds [[1, 2]] := Queue.holds_new.push [1, 2]
  apply (send_returns_iff hqueue ?_).1.mpr
  · exact ⟨3, by simp [firstAnswers, List.range_succ, withoutTimeouts, isTimeout, Ends]⟩
  · intro n
    apply fits_single (by simp)
    intro result hresult
    obtain ⟨i, -, rfl⟩ := List.mem_map.mp hresult
    by_cases hi : i < 2
    · exact Or.inl (if_pos hi)
    · exact Or.inr (if_neg hi)

/-- One byte is queued, and every attempt times out. -/
theorem not_send_returns : ¬∀ (net : Sender) (vals : List Bytes) (answers : Nat → SendResult),
    net.sendQueue.Holds vals → (∀ n, Fits vals (firstAnswers answers n)) →
      ∃ n, net.ReturnsAfter answers n := by
  intro h
  have hqueue : (init.push [1]).sendQueue.Holds [[1]] := Queue.holds_new.push [1]
  obtain ⟨n, net', hsend, -⟩ := h _ _ (fun _ => .timeout 0) hqueue fun n =>
    fits_single (by simp) fun result hresult => by
      obtain ⟨i, -, rfl⟩ := List.mem_map.mp hresult
      exact Or.inl rfl
  have hends := (ends_of_sendLoop hqueue hsend).1
  have hnone : withoutTimeouts (firstAnswers (fun _ => .timeout 0) n) = [] := by
    apply List.filter_eq_nil_iff.mpr
    intro result hresult
    obtain ⟨i, -, rfl⟩ := List.mem_map.mp hresult
    decide
  rw [hnone] at hends
  exact hends

end Net.Sender

end ChatGames
