/-
  FieldRemap.Proofs.Moves — what a move of an exchange does.

  `Moved` has a case for each outcome of a move, and the moves that can be made are those that have
  one (`step_eq_some`). A job that has the worker to itself is answered by five moves
  (`settle_start_singleton`).
-/

import FieldRemap.Job.Exchange

namespace FieldRemap

namespace Exchange

/-! ## Calls -/

/-- The call at the place is for the request and has come so far. -/
def At (exchange : Exchange) (place : Nat) (request : JobRequest) (state : CallState) : Prop :=
  exchange.calls[place]? = some ⟨request, state⟩

section

variable {exchange next : Exchange} {place i : Nat} {request request' : JobRequest} {state state' : CallState}

theorem at_setCall_self (h : exchange.At place request state) :
    (exchange.setCall place state').At place request state' := by
  simp only [At, setCall, List.getElem?_modify_eq]
  rw [h]
  rfl

theorem at_setCall_of_ne (hne : i ≠ place) : (exchange.setCall place state).At i request state' ↔
    exchange.At i request state' := by
  simp only [At, setCall, List.getElem?_modify_ne _ _ hne.symm]

theorem callIn?_eq_some {test : CallState → Bool} {call : Call} : exchange.callIn? place test = some call ↔
    exchange.At place call.request call.state ∧ test call.state = true := by
  rw [callIn?, Option.filter_eq_some_iff]
  rfl

end

/-! ## Moves -/

inductive Moved (before : Exchange) : ExchangeMove → Exchange → Prop
  | refused {place : Nat} {request : JobRequest} : before.At place request .started →
      (before.pendingCall? request.id).isSome = true → Moved before (.register place) (before.setCall place .refused)
  | registered {place : Nat} {request : JobRequest} : before.At place request .started →
      before.pendingCall? request.id = none → Moved before (.register place)
        { before.setCall place .registered with pending := before.pending ++ [(request.id, place)] }
  | queued {place : Nat} {request : JobRequest} : before.queue.length < before.capacity →
      before.At place request .registered → Moved before (.enqueue place)
        { before.setCall place .queued with queue := before.queue ++ [⟨request.id, request.toBytes⟩] }
  | left {place : Nat} {request : JobRequest} : before.At place request .queued →
      Moved before (.leave place) (before.setCall place .left)
  | received {envelope : Envelope} {queue : List Envelope} : before.worker = .idle → before.queue = envelope :: queue →
      Moved before .receive { before with queue, worker := .holding envelope }
  | handled {id : JobId} {bytes : ByteArray} : before.worker = .holding ⟨id, bytes⟩ →
      Moved before .handle { before with worker := .replying (answerBytes id bytes) }
  | resolved {bytes : ByteArray} {response : JobResponse} : before.worker = .replying bytes →
      JobResponse.ofBytes bytes = .ok response →
      Moved before .resolve ({ before with worker := .idle }.deliver response)
  | dropped {bytes : ByteArray} {fault : JsonFault} : before.worker = .replying bytes →
      JobResponse.ofBytes bytes = .error fault → Moved before .resolve { before with worker := .idle }

section

variable {exchange next : Exchange} {place : Nat} {request : JobRequest} {state : CallState}

theorem moved_of_register (h : exchange.register place = some next) : Moved exchange (.register place) next := by
  obtain ⟨⟨request, state⟩, hcall, rfl⟩ := Option.map_eq_some_iff.mp h
  obtain ⟨hat, hstate⟩ := callIn?_eq_some.mp hcall
  cases state with
  | started =>
    dsimp only
    split
    · next hpending => exact .refused hat hpending
    · next hpending => exact .registered hat (Option.not_isSome_iff_eq_none.mp hpending)
  | _ => cases hstate

theorem moved_of_enqueue (h : exchange.enqueue place = some next) : Moved exchange (.enqueue place) next := by
  obtain ⟨hroom, h⟩ := Option.ite_none_right_eq_some.mp h
  obtain ⟨⟨request, state⟩, hcall, rfl⟩ := Option.map_eq_some_iff.mp h
  obtain ⟨hat, hstate⟩ := callIn?_eq_some.mp hcall
  cases state with
  | registered => exact .queued hroom hat
  | _ => cases hstate

theorem moved_of_leave (h : exchange.leave place = some next) : Moved exchange (.leave place) next := by
  obtain ⟨⟨request, state⟩, hcall, rfl⟩ := Option.map_eq_some_iff.mp h
  obtain ⟨hat, hstate⟩ := callIn?_eq_some.mp hcall
  cases state with
  | queued => exact .left hat
  | _ => cases hstate

theorem moved_of_receive (h : exchange.receive = some next) : Moved exchange .receive next := by
  unfold receive at h
  split at h
  · next hworker hqueue =>
    obtain rfl := Option.some.inj h
    exact .received hworker hqueue
  · cases h

theorem moved_of_handle (h : exchange.handle = some next) : Moved exchange .handle next := by
  unfold handle at h
  split at h
  · next hworker =>
    obtain rfl := Option.some.inj h
    exact .handled hworker
  · cases h

theorem moved_of_resolve (h : exchange.resolve = some next) : Moved exchange .resolve next := by
  unfold resolve at h
  split at h
  · next hworker =>
    dsimp only at h
    split at h
    · next hresponse =>
      obtain rfl := Option.some.inj h
      exact .resolved hworker hresponse
    · next hresponse =>
      obtain rfl := Option.some.inj h
      exact .dropped hworker hresponse
  · cases h

theorem callIn?_of_at {test : CallState → Bool} (h : exchange.At place request state) (hstate : test state = true) :
    exchange.callIn? place test = some ⟨request, state⟩ :=
  callIn?_eq_some.mpr ⟨h, hstate⟩

/-- The moves that can be made are those with an outcome. -/
theorem step_eq_some {move : ExchangeMove} : exchange.step move = some next ↔ Moved exchange move next := by
  constructor
  · intro h
    cases move with
    | register place => exact moved_of_register h
    | enqueue place => exact moved_of_enqueue h
    | leave place => exact moved_of_leave h
    | receive => exact moved_of_receive h
    | handle => exact moved_of_handle h
    | resolve => exact moved_of_resolve h
  · intro h
    cases h with
    | refused hat hpending =>
      show exchange.register _ = _
      rw [register, callIn?_of_at hat rfl, Option.map_some, if_pos hpending]
    | registered hat hpending =>
      show exchange.register _ = _
      rw [register, callIn?_of_at hat rfl, Option.map_some, hpending]
      rfl
    | queued hroom hat =>
      show exchange.enqueue _ = _
      rw [enqueue, if_pos hroom, callIn?_of_at hat rfl]
      rfl
    | left hat =>
      show exchange.leave _ = _
      rw [leave, callIn?_of_at hat rfl]
      rfl
    | received hworker hqueue =>
      show exchange.receive = _
      rw [receive, hworker, hqueue]
    | handled hworker =>
      show exchange.handle = _
      rw [handle, hworker]
    | resolved hworker hresponse =>
      show exchange.resolve = _
      rw [resolve, hworker]
      simp only [hresponse]
    | dropped hworker hresponse =>
      show exchange.resolve = _
      rw [resolve, hworker]
      simp only [hresponse]

/-- A move without an outcome cannot be made. -/
theorem step_eq_none {move : ExchangeMove} (h : ∀ next, ¬ Moved exchange move next) : exchange.step move = none :=
  Option.eq_none_iff_forall_ne_some.mpr fun next hnext => h next (step_eq_some.mp hnext)

end

/-! ## Deliveries -/

section

variable {exchange : Exchange} {place : Nat} {request : JobRequest} {response : JobResponse}
  (hpending : exchange.pendingCall? response.id = some place)

include hpending

/-- A call that waits for its reply gets it. -/
theorem deliver_of_queued (hat : exchange.At place request .queued) : exchange.deliver response =
    { exchange.setCall place (.answered response) with pending := exchange.pending.filter (·.1 ≠ response.id) } := by
  have hat : ({ exchange with pending := exchange.pending.filter (·.1 ≠ response.id) } : Exchange).At place request
      .queued := hat
  rw [deliver, hpending]
  dsimp only
  rw [callIn?_of_at hat rfl]
  rfl

/-- A call that has stopped waiting gets nothing, and its identity is pending no longer. -/
theorem deliver_of_left (hat : exchange.At place request .left) : exchange.deliver response =
    { exchange with pending := exchange.pending.filter (·.1 ≠ response.id) } := by
  rw [deliver, hpending]
  dsimp only
  rw [callIn?, show exchange.calls[place]? = _ from hat]
  rfl

end

/-! ## One job on its own -/

section

variable {exchange next : Exchange} {call : Call} (hcalls : exchange.calls = [call])

include hcalls

theorem moves_singleton : exchange.moves = [.register 0, .enqueue 0, .receive, .handle, .resolve] := by
  rw [moves, hcalls]
  rfl

theorem state_of_at {place : Nat} {request : JobRequest} {state : CallState} (hat : exchange.At place request state) :
    call.state = state := by
  rw [At, hcalls] at hat
  cases place with
  | zero => exact congrArg Call.state (Option.some.inj hat)
  | succ place => cases hat

theorem step_register_eq_none (hstate : call.state ≠ .started) : exchange.step (.register 0) = none := by
  refine step_eq_none fun next hmoved => ?_
  cases hmoved with
  | refused hat => exact hstate (state_of_at hcalls hat)
  | registered hat => exact hstate (state_of_at hcalls hat)

theorem step_enqueue_eq_none (hstate : call.state ≠ .registered) : exchange.step (.enqueue 0) = none := by
  refine step_eq_none fun next hmoved => ?_
  cases hmoved with
  | queued _ hat => exact hstate (state_of_at hcalls hat)

section

variable (hstarted : call.state ≠ .started) (hregistered : call.state ≠ .registered)

include hstarted hregistered

/-- Once the only call has its bytes in the queue it is the worker's move. -/
theorem findSome?_moves : exchange.moves.findSome? exchange.step =
    ([.receive, .handle, .resolve] : List ExchangeMove).findSome? exchange.step := by
  rw [moves_singleton hcalls, List.findSome?_cons, step_register_eq_none hcalls hstarted]
  dsimp only
  rw [List.findSome?_cons, step_enqueue_eq_none hcalls hregistered]

theorem findSome?_moves_idle (hworker : exchange.worker = .idle) :
    exchange.moves.findSome? exchange.step = exchange.receive := by
  rw [findSome?_moves hcalls hstarted hregistered]
  simp only [List.findSome?_cons, List.findSome?_nil, step, handle, resolve, hworker]
  cases exchange.receive <;> rfl

theorem findSome?_moves_holding {id : JobId} {bytes : ByteArray} (hworker : exchange.worker = .holding ⟨id, bytes⟩) :
    exchange.moves.findSome? exchange.step =
      some { exchange with worker := .replying (answerBytes id bytes) } := by
  rw [findSome?_moves hcalls hstarted hregistered]
  simp only [List.findSome?_cons, step, receive, handle, hworker]

theorem findSome?_moves_replying {bytes : ByteArray} {response : JobResponse}
    (hworker : exchange.worker = .replying bytes) (hresponse : JobResponse.ofBytes bytes = .ok response) :
    exchange.moves.findSome? exchange.step = some ({ exchange with worker := .idle }.deliver response) := by
  rw [findSome?_moves hcalls hstarted hregistered]
  simp only [List.findSome?_cons, step, receive, handle, resolve, hworker, hresponse]

end

end

theorem settleFrom_succ {fuel : Nat} {exchange next : Exchange}
    (h : exchange.moves.findSome? exchange.step = some next) :
    settleFrom (fuel + 1) exchange = settleFrom fuel next := by
  rw [settleFrom, h]

/-- A job on its own is registered, queued, received, handled and resolved, and nothing moves any more. -/
theorem settle_start_singleton {capacity : Nat} {request : JobRequest} {response : JobResponse}
    (hcapacity : 0 < capacity) (hid : response.id = request.id)
    (hbytes : JobResponse.ofBytes (answerBytes request.id request.toBytes) = .ok response) :
    (start capacity [request]).settle.calls = [⟨request, .answered response⟩] := by
  let registered : Exchange := { capacity, calls := [⟨request, .registered⟩], pending := [(request.id, 0)] }
  let queued : Exchange :=
    { registered with calls := [⟨request, .queued⟩], queue := [⟨request.id, request.toBytes⟩] }
  let held : Exchange := { queued with queue := [], worker := .holding ⟨request.id, request.toBytes⟩ }
  let replied : Exchange := { held with worker := .replying (answerBytes request.id request.toBytes) }
  let answered : Exchange := { capacity, calls := [⟨request, .answered response⟩] }
  have hregister : (start capacity [request]).moves.findSome? (start capacity [request]).step = some registered := rfl
  have henqueue : registered.moves.findSome? registered.step = some queued := by
    have henqueue : registered.step (.enqueue 0) = some queued := if_pos hcapacity
    rw [moves_singleton rfl, List.findSome?_cons, step_register_eq_none rfl (by simp)]
    dsimp only
    rw [List.findSome?_cons, henqueue]
  have hreceive : queued.moves.findSome? queued.step = some held := findSome?_moves_idle rfl (by simp) (by simp) rfl
  have hhandle : held.moves.findSome? held.step = some replied := findSome?_moves_holding rfl (by simp) (by simp) rfl
  have hresolve : replied.moves.findSome? replied.step = some answered := by
    have hpending : ({ replied with worker := .idle } : Exchange).pendingCall? response.id = some 0 := by
      simp [pendingCall?, replied, held, queued, registered, hid]
    have hat : ({ replied with worker := .idle } : Exchange).At 0 request .queued := rfl
    have hdelivered : ({ replied with worker := .idle } : Exchange).deliver response = answered := by
      rw [deliver_of_queued hpending hat]
      simp [replied, held, queued, registered, answered, setCall, hid]
    rw [← hdelivered]
    exact findSome?_moves_replying rfl (by simp) (by simp) rfl hbytes
  have hdone : answered.moves.findSome? answered.step = none := findSome?_moves_idle rfl (by simp) (by simp) rfl
  show (settleFrom 8 (start capacity [request])).calls = _
  rw [settleFrom_succ hregister, settleFrom_succ henqueue, settleFrom_succ hreceive, settleFrom_succ hhandle,
    settleFrom_succ hresolve, settleFrom, hdone]

end Exchange

end FieldRemap
