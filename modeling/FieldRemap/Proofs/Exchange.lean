/-
  FieldRemap.Proofs.Exchange — calls that share a worker get their own answers.

  Any number of calls, some of them under one identity, register, queue their bytes, wait and leave in
  any order among themselves and with the moves of the worker (`Run`). Two things are written down of
  a run: which calls are registered, and which responses are handed over and to whom (`History`).

  Proved of every run (`run_correlates`): no call is handed two responses, and the one it is handed is
  the answer to its own request; a call of an identity that is pending is refused and changes nothing
  for the others; the identities that are pending are those that were registered and not resolved.

  The invariant is about the jobs in flight, which are those that have been queued and not yet resolved.
  The worker has the first of them and the queue has the others, each as the bytes of its own request
  (`Holds`). A call is pending while it waits for room or its job is in flight, and at no other time
  (`Kept`).
-/

import FieldRemap.Proofs.Answering

namespace FieldRemap

namespace Exchange

structure History where
  /-- The identities that were registered, each with the place of its call. -/
  registered : List (JobId × Nat) := []
  /-- The responses that were handed over, each with the place of the call it was handed to. -/
  handed : List (Nat × JobResponse) := []

def registered? (after : Exchange) : ExchangeMove → Option (JobId × Nat)
  | .register place => (after.callIn? place (· matches .registered)).map fun call => (call.request.id, place)
  | _ => none

def handed? (before : Exchange) : ExchangeMove → Option (Nat × JobResponse)
  | .resolve =>
    match before.worker with
    | .replying bytes =>
      match JobResponse.ofBytes bytes with
      | .ok response => (before.pendingCall? response.id).map (·, response)
      | .error _ => none
    | _ => none
  | _ => none

def History.note (history : History) (before after : Exchange) (move : ExchangeMove) : History where
  registered := history.registered ++ (after.registered? move).toList
  handed := history.handed ++ (before.handed? move).toList

/-- The runs of calls with these requests, with their histories. -/
inductive Run (capacity : Nat) (requests : List JobRequest) : History → Exchange → Prop
  | start : Run capacity requests {} (start capacity requests)
  | move {history : History} {before after : Exchange} {move : ExchangeMove} : Run capacity requests history before →
      before.step move = some after → Run capacity requests (history.note before after move) after

/-! ## The states of the calls -/

def stateAt (exchange : Exchange) (place : Nat) : Option CallState :=
  exchange.calls[place]?.map (·.state)

section

variable {exchange : Exchange} {requests : List JobRequest} {place i : Nat} {request : JobRequest}
  {state old : CallState}

theorem stateAt_of_at (h : exchange.At place request state) : exchange.stateAt place = some state := by
  rw [stateAt, show exchange.calls[place]? = _ from h]
  rfl

theorem at_iff (h : exchange.calls.map (·.request) = requests) :
    exchange.At place request state ↔ requests[place]? = some request ∧ exchange.stateAt place = some state := by
  rw [← h, List.getElem?_map, stateAt, At]
  cases exchange.calls[place]? with
  | none => simp
  | some call =>
    cases call
    simp

theorem map_request_setCall (exchange : Exchange) (place : Nat) (state : CallState) :
    (exchange.setCall place state).calls.map (·.request) = exchange.calls.map (·.request) := by
  refine List.ext_getElem? fun i => ?_
  simp only [setCall, List.getElem?_map, List.getElem?_modify]
  cases exchange.calls[i]? with
  | none => rfl
  | some call => by_cases h : place = i <;> simp [h]

variable {next : Exchange} {new : CallState} (hnext : next.calls = (exchange.setCall place new).calls)

include hnext

theorem stateAt_self (hold : exchange.stateAt place = some old) : next.stateAt place = some new := by
  obtain ⟨call, hcall, -⟩ := Option.map_eq_some_iff.mp hold
  simp [stateAt, hnext, setCall, hcall]

theorem stateAt_of_ne (hne : i ≠ place) : next.stateAt i = exchange.stateAt i := by
  simp only [stateAt, hnext, setCall, List.getElem?_modify_ne _ _ hne.symm]

end

section

variable {exchange : Exchange} {place : Nat}

theorem pendingCall?_eq_none {id : JobId} :
    exchange.pendingCall? id = none ↔ id ∉ exchange.pending.map (·.1) := by
  simp only [pendingCall?, Option.map_eq_none_iff, List.find?_eq_none, List.mem_map, decide_eq_true_eq, not_exists,
    not_and]

/-- Where each identity is pending once, a pending call is found under its identity. -/
theorem pendingCall?_eq_some {id : JobId} (hids : (exchange.pending.map (·.1)).Nodup)
    (h : (id, place) ∈ exchange.pending) : exchange.pendingCall? id = some place := by
  have hfind : exchange.pending.find? (·.1 = id) = some (id, place) := find?_of_nodup_map hids h
  rw [pendingCall?, hfind]
  rfl

end

/-! ## Jobs in flight -/

def IsEnvelope (requests : List JobRequest) (envelope : Envelope) (place : Nat) : Prop :=
  ∃ request, requests[place]? = some request ∧ envelope = ⟨request.id, request.toBytes⟩

/-- The worker has the job of the first place, as its bytes or as those of its answer, and the queue has the bytes of
    the others; an idle worker has none. -/
inductive Holds (requests : List JobRequest) : WorkerState → List Envelope → List Nat → Prop
  | idle {queue : List Envelope} {places : List Nat} : List.Forall₂ (IsEnvelope requests) queue places →
      Holds requests .idle queue places
  | holding {envelope : Envelope} {queue : List Envelope} {place : Nat} {places : List Nat} :
      IsEnvelope requests envelope place → List.Forall₂ (IsEnvelope requests) queue places →
      Holds requests (.holding envelope) queue (place :: places)
  | replying {request : JobRequest} {bytes : ByteArray} {queue : List Envelope} {place : Nat} {places : List Nat} :
      requests[place]? = some request → bytes = answerBytes request.id request.toBytes →
      List.Forall₂ (IsEnvelope requests) queue places → Holds requests (.replying bytes) queue (place :: places)

namespace Holds

variable {requests : List JobRequest} {worker : WorkerState} {queue : List Envelope} {places : List Nat}

theorem enqueue {request : JobRequest} {place : Nat} (h : Holds requests worker queue places)
    (hrequest : requests[place]? = some request) :
    Holds requests worker (queue ++ [⟨request.id, request.toBytes⟩]) (places ++ [place]) := by
  have hqueue {queue : List Envelope} {places : List Nat} (h : List.Forall₂ (IsEnvelope requests) queue places) :
      List.Forall₂ (IsEnvelope requests) (queue ++ [⟨request.id, request.toBytes⟩]) (places ++ [place]) :=
    List.rel_append h (.cons ⟨request, hrequest, rfl⟩ .nil)
  cases h with
  | idle h => exact .idle (hqueue h)
  | holding hplace h => exact .holding hplace (hqueue h)
  | replying hplace hbytes h => exact .replying hplace hbytes (hqueue h)

theorem receive {envelope : Envelope} (h : Holds requests .idle (envelope :: queue) places) :
    Holds requests (.holding envelope) queue places := by
  cases h with
  | idle h =>
    cases h with
    | cons henvelope h => exact .holding henvelope h

theorem handle {id : JobId} {bytes : ByteArray} (h : Holds requests (.holding ⟨id, bytes⟩) queue places) :
    Holds requests (.replying (answerBytes id bytes)) queue places := by
  cases h with
  | holding hplace h =>
    obtain ⟨request, hrequest, heq⟩ := hplace
    obtain ⟨hid, hbytes⟩ := Envelope.mk.inj heq
    exact .replying hrequest (by rw [hid, hbytes]) h

end Holds

/-! ## The invariant -/

/-- What holds throughout a run, given the places whose jobs are in flight. -/
structure Kept (requests : List JobRequest) (history : History) (exchange : Exchange) (flight : List Nat) : Prop where
  calls : exchange.calls.map (·.request) = requests
  holds : Holds requests exchange.worker exchange.queue flight
  once : flight.Nodup
  flying : ∀ place ∈ flight, exchange.stateAt place = some .queued ∨ exchange.stateAt place = some .left
  ids : (exchange.pending.map (·.1)).Nodup
  pending : ∀ id place, (id, place) ∈ exchange.pending ↔
    (∃ request, requests[place]? = some request ∧ request.id = id) ∧
      (exchange.stateAt place = some .registered ∨ place ∈ flight)
  unresolved : exchange.pending = history.registered.filter (·.2 ∉ history.handed.map (·.1))
  handedOnce : (history.handed.map (·.1)).Nodup
  handed : ∀ place response, (place, response) ∈ history.handed → place ∉ flight ∧
    (exchange.stateAt place = some (.answered response) ∨ exchange.stateAt place = some .left) ∧
      ∃ request, requests[place]? = some request ∧ response = request.answer
  answered : ∀ place response, exchange.stateAt place = some (.answered response) → (place, response) ∈ history.handed

theorem kept_start (capacity : Nat) (requests : List JobRequest) : Kept requests {} (start capacity requests) [] := by
  have hstarted : ∀ place state, (start capacity requests).stateAt place = some state → state = .started := by
    intro place state hstate
    simp only [stateAt, start, List.getElem?_map, Option.map_map, Option.map_eq_some_iff] at hstate
    obtain ⟨_, _, rfl⟩ := hstate
    rfl
  refine ⟨by simp [start, Function.comp_def], .idle .nil, .nil, nofun, .nil, fun id place => ?_, rfl, .nil, nofun, ?_⟩
  · constructor
    · exact nofun
    · rintro ⟨-, hregistered | hflight⟩
      · cases hstarted _ _ hregistered
      · cases hflight
  · intro place response hanswered
    cases hstarted _ _ hanswered

namespace Kept

variable {requests : List JobRequest} {history : History} {exchange : Exchange} {flight : List Nat} {place : Nat}
  {request : JobRequest}

theorem request_of_at {state : CallState} (h : Kept requests history exchange flight)
    (hat : exchange.At place request state) : requests[place]? = some request :=
  ((at_iff h.calls).mp hat).1

/-- A call whose job is in flight is queued or has left. -/
theorem not_flying {state : CallState} (h : Kept requests history exchange flight)
    (hstate : exchange.stateAt place = some state) (hqueued : state ≠ .queued) (hleft : state ≠ .left) :
    place ∉ flight := by
  intro hflight
  rcases h.flying place hflight with hflying | hflying <;> rw [hstate] at hflying
  · exact hqueued (Option.some.inj hflying)
  · exact hleft (Option.some.inj hflying)

/-- A call that has been handed a response has it or has left. -/
theorem not_handed {state : CallState} (h : Kept requests history exchange flight)
    (hstate : exchange.stateAt place = some state) (hanswered : ∀ response, state ≠ .answered response)
    (hleft : state ≠ .left) : place ∉ history.handed.map (·.1) := by
  intro hhanded
  obtain ⟨⟨_, response⟩, hmem, rfl⟩ := List.mem_map.mp hhanded
  obtain ⟨-, hgot | hgot, -⟩ := h.handed _ _ hmem
  · rw [hstate] at hgot
    exact hanswered response (Option.some.inj hgot)
  · rw [hstate] at hgot
    exact hleft (Option.some.inj hgot)

/-! ## Moves of a call -/

/-- What a move of a call keeps, given what it does to the identities that are pending and the jobs in flight. -/
theorem move {next : Exchange} {registered : List (JobId × Nat)} {flight' : List Nat} {old new : CallState}
    (h : Kept requests history exchange flight) (hnext : next.calls = (exchange.setCall place new).calls)
    (hold : exchange.stateAt place = some old) (hwaits : old = .started ∨ old = .registered ∨ old = .queued)
    (hnew : ∀ response, new ≠ .answered response) (hflying : place ∈ flight' → new = .queued ∨ new = .left)
    (hflight : ∀ i ∈ flight', i ≠ place → i ∈ flight) (hholds : Holds requests next.worker next.queue flight')
    (honce : flight'.Nodup) (hids : (next.pending.map (·.1)).Nodup)
    (hpending : ∀ id i, (id, i) ∈ next.pending ↔ (∃ request, requests[i]? = some request ∧ request.id = id) ∧
      (next.stateAt i = some .registered ∨ i ∈ flight'))
    (hunresolved : next.pending = registered.filter (·.2 ∉ history.handed.map (·.1))) :
    Kept requests ⟨registered, history.handed⟩ next flight' := by
  have hself := stateAt_self hnext hold
  refine ⟨by rw [hnext, map_request_setCall, h.calls], hholds, honce, fun i hi => ?_, hids, hpending, hunresolved,
    h.handedOnce, fun i response hi => ?_, fun i response hi => ?_⟩
  · by_cases hne : i = place
    · subst hne
      rcases hflying hi with rfl | rfl
      · exact .inl hself
      · exact .inr hself
    · rw [stateAt_of_ne hnext hne]
      exact h.flying i (hflight i hi hne)
  · have hne : i ≠ place := by
      rintro rfl
      have hhanded : i ∈ history.handed.map (·.1) := List.mem_map_of_mem hi
      rcases hwaits with rfl | rfl | rfl <;> exact h.not_handed hold nofun nofun hhanded
    rw [stateAt_of_ne hnext hne]
    obtain ⟨hnot, hgot⟩ := h.handed i response hi
    exact ⟨fun hi => hnot (hflight i hi hne), hgot⟩
  · by_cases hne : i = place
    · subst hne
      exact absurd (Option.some.inj (hself.symm.trans hi)) (hnew response)
    · rw [stateAt_of_ne hnext hne] at hi
      exact h.answered i response hi

/-- A call that is refused or stops waiting. -/
theorem setCall {old new : CallState} (h : Kept requests history exchange flight)
    (hold : exchange.stateAt place = some old) (hmove : old = .started ∧ new = .refused ∨ old = .queued ∧ new = .left) :
    Kept requests history (exchange.setCall place new) flight := by
  refine h.move rfl hold ?_ ?_ ?_ (fun _ hi _ => hi) h.holds h.once h.ids (fun id i => ?_) h.unresolved
  · rcases hmove with ⟨rfl, -⟩ | ⟨rfl, -⟩ <;> simp
  · rcases hmove with ⟨-, rfl⟩ | ⟨-, rfl⟩ <;> exact nofun
  · intro hflight
    rcases hmove with ⟨rfl, -⟩ | ⟨-, rfl⟩
    · exact absurd hflight (h.not_flying hold nofun nofun)
    · exact .inr rfl
  · refine (h.pending id i).trans (and_congr_right fun _ => or_congr_left ?_)
    by_cases hne : i = place
    · subst hne
      rw [stateAt_self rfl hold, hold]
      rcases hmove with ⟨rfl, rfl⟩ | ⟨rfl, rfl⟩ <;> simp
    · rw [stateAt_of_ne rfl hne]

/-- A call that is registered waits for room, and its identity is pending. -/
theorem register {next : Exchange} (h : Kept requests history exchange flight)
    (hat : exchange.At place request .started) (hnone : exchange.pendingCall? request.id = none)
    (hnext : next.calls = (exchange.setCall place .registered).calls)
    (hpending : next.pending = exchange.pending ++ [(request.id, place)]) (hqueue : next.queue = exchange.queue)
    (hworker : next.worker = exchange.worker) :
    Kept requests ⟨history.registered ++ [(request.id, place)], history.handed⟩ next flight := by
  have hold := stateAt_of_at hat
  have hflight : place ∉ flight := h.not_flying hold nofun nofun
  have hhanded : place ∉ history.handed.map (·.1) := h.not_handed hold nofun nofun
  refine h.move hnext hold (.inl rfl) nofun (fun hi => absurd hi hflight) (fun _ hi _ => hi)
    (hworker ▸ hqueue ▸ h.holds) h.once ?_ (fun id i => ?_) ?_
  · rw [hpending, List.map_append]
    exact List.nodup_append_comm.mpr (List.nodup_cons.mpr ⟨pendingCall?_eq_none.mp hnone, h.ids⟩)
  · rw [hpending, List.mem_append, List.mem_singleton, h.pending, Prod.mk.injEq]
    by_cases hne : i = place
    · subst hne
      rw [stateAt_self hnext hold]
      constructor
      · rintro (⟨hid, -⟩ | ⟨rfl, -⟩)
        · exact ⟨hid, .inl rfl⟩
        · exact ⟨⟨request, h.request_of_at hat, rfl⟩, .inl rfl⟩
      · rintro ⟨⟨request', hrequest', rfl⟩, -⟩
        obtain rfl := Option.some.inj ((h.request_of_at hat).symm.trans hrequest')
        exact .inr ⟨rfl, rfl⟩
    · rw [stateAt_of_ne hnext hne]
      exact or_iff_left fun heq => hne heq.2
  · rw [hpending, List.filter_append, ← h.unresolved]
    simp [hhanded]

/-- A call that queues its bytes has its job in flight. -/
theorem enqueue {next : Exchange} (h : Kept requests history exchange flight)
    (hat : exchange.At place request .registered) (hnext : next.calls = (exchange.setCall place .queued).calls)
    (hpending : next.pending = exchange.pending)
    (hqueue : next.queue = exchange.queue ++ [⟨request.id, request.toBytes⟩])
    (hworker : next.worker = exchange.worker) : Kept requests history next (flight ++ [place]) := by
  have hold := stateAt_of_at hat
  have hflight : place ∉ flight := h.not_flying hold nofun nofun
  have hmem {i : Nat} (hi : i ∈ flight ++ [place]) (hne : i ≠ place) : i ∈ flight :=
    (List.mem_append.mp hi).resolve_right fun hi => hne (List.mem_singleton.mp hi)
  refine h.move hnext hold (.inr (.inl rfl)) nofun (fun _ => .inl rfl) (fun _ => hmem)
    (hworker ▸ hqueue ▸ h.holds.enqueue (h.request_of_at hat))
    (List.nodup_append_comm.mpr (List.nodup_cons.mpr ⟨hflight, h.once⟩)) (hpending ▸ h.ids) (fun id i => ?_)
    (hpending ▸ h.unresolved)
  rw [hpending, h.pending]
  refine and_congr_right fun _ => ?_
  by_cases hne : i = place
  · subst hne
    exact iff_of_true (.inl hold) (.inr (List.mem_append_right _ List.mem_cons_self))
  · rw [stateAt_of_ne hnext hne]
    exact or_congr_right ⟨List.mem_append_left _, fun hi => hmem hi hne⟩

/-! ## The worker's reply -/

/-- The job in front is answered, and is in flight no longer. -/
theorem resolve {next : Exchange} (h : Kept requests history exchange (place :: flight))
    (hrequest : requests[place]? = some request) (hcalls : next.calls.map (·.request) = requests)
    (hself : next.stateAt place = some (.answered request.answer) ∨ next.stateAt place = some .left)
    (hother : ∀ i, i ≠ place → next.stateAt i = exchange.stateAt i)
    (hpending : next.pending = exchange.pending.filter (·.1 ≠ request.id))
    (hholds : Holds requests next.worker next.queue flight) :
    Kept requests ⟨history.registered, history.handed ++ [(place, request.answer)]⟩ next flight := by
  have hflight : place ∉ flight := (List.nodup_cons.mp h.once).1
  have hhanded : place ∉ history.handed.map (·.1) := by
    intro hmem
    obtain ⟨⟨_, response⟩, hhanded, rfl⟩ := List.mem_map.mp hmem
    exact (h.handed _ _ hhanded).1 List.mem_cons_self
  have hplace : (request.id, place) ∈ exchange.pending :=
    (h.pending _ _).mpr ⟨⟨request, hrequest, rfl⟩, .inr List.mem_cons_self⟩
  -- the identity of the answer is pending for this call only
  have hunique : ∀ x ∈ exchange.pending, x.1 = request.id ↔ x.2 = place := by
    rintro ⟨id, i⟩ hx
    constructor
    · intro heq
      exact congrArg Prod.snd (List.inj_on_of_nodup_map h.ids hx hplace heq)
    · rintro rfl
      obtain ⟨⟨request', hrequest', rfl⟩, -⟩ := (h.pending _ _).mp hx
      obtain rfl := Option.some.inj (hrequest.symm.trans hrequest')
      rfl
  refine ⟨hcalls, hholds, h.once.of_cons, fun i hi => ?_, ?_, fun id i => ?_, ?_, ?_, fun i response hi => ?_,
    fun i response hi => ?_⟩
  · have hne : i ≠ place := fun heq => hflight (heq ▸ hi)
    rw [hother i hne]
    exact h.flying i (List.mem_cons_of_mem _ hi)
  · rw [hpending]
    exact h.ids.sublist (List.filter_sublist.map _)
  · rw [hpending, List.mem_filter, decide_eq_true_eq]
    by_cases hne : i = place
    · subst hne
      refine iff_of_false (fun hx => hx.2 ((hunique _ hx.1).mpr rfl)) ?_
      rintro ⟨-, hregistered | hi⟩
      · rcases hself with hself | hself <;> cases hself.symm.trans hregistered
      · exact hflight hi
    · rw [and_iff_left_of_imp fun hx heq => hne ((hunique _ hx).mp heq), h.pending, hother i hne, List.mem_cons,
        or_iff_right hne]
  · rw [hpending, h.unresolved, List.filter_filter]
    refine List.filter_congr fun x hx => ?_
    by_cases hmem : x.2 ∈ history.handed.map (·.1)
    · simp [hmem]
    · have hx : x ∈ exchange.pending := by
        rw [h.unresolved]
        exact List.mem_filter.mpr ⟨hx, decide_eq_true hmem⟩
      simp [hmem, hunique x hx]
  · rw [List.map_append]
    exact List.nodup_append_comm.mpr (List.nodup_cons.mpr ⟨hhanded, h.handedOnce⟩)
  · rcases List.mem_append.mp hi with hi | hi
    · obtain ⟨hnot, hgot⟩ := h.handed i response hi
      have hne : i ≠ place := fun heq => hnot (heq ▸ List.mem_cons_self)
      rw [hother i hne]
      exact ⟨fun hi => hnot (List.mem_cons_of_mem _ hi), hgot⟩
    · obtain ⟨rfl, rfl⟩ := Prod.mk.inj (List.mem_singleton.mp hi)
      exact ⟨hflight, hself, request, hrequest, rfl⟩
  · by_cases hne : i = place
    · subst hne
      rcases hself with hself | hself
      · obtain rfl : request.answer = response := by simpa using hself.symm.trans hi
        exact List.mem_append_right _ List.mem_cons_self
      · cases hself.symm.trans hi
    · rw [hother i hne] at hi
      exact List.mem_append_left _ (h.answered i response hi)

end Kept

/-! ## Runs -/

section

variable {history : History} {before after : Exchange} {move : ExchangeMove} {place : Nat} {request : JobRequest}

theorem History.note_eq_self (hregistered : after.registered? move = none) (hhanded : before.handed? move = none) :
    history.note before after move = history := by
  simp [note, hregistered, hhanded]

theorem registered?_of_registered (h : after.At place request .registered) :
    after.registered? (.register place) = some (request.id, place) := by
  rw [registered?, callIn?_of_at h rfl]
  rfl

theorem registered?_of_refused (h : after.At place request .refused) : after.registered? (.register place) = none := by
  rw [registered?, callIn?, show after.calls[place]? = _ from h]
  rfl

end

namespace Kept

variable {requests : List JobRequest} {history : History} {exchange next : Exchange} {flight : List Nat}
  {move : ExchangeMove}

/-- The worker's reply is the answer to the job in front, which the call gets that waits for it. -/
theorem reply {bytes : ByteArray} {response : JobResponse} (hrequests : ∀ request ∈ requests, request.IsSendable)
    (h : Kept requests history exchange flight) (hworker : exchange.worker = .replying bytes)
    (hresponse : JobResponse.ofBytes bytes = .ok response) : ∃ flight', Kept requests
      (history.note exchange ({ exchange with worker := .idle }.deliver response) .resolve)
      ({ exchange with worker := .idle }.deliver response) flight' := by
  have hholds := h.holds
  rw [hworker] at hholds
  cases hholds with
  | @replying request _ _ place flight hrequest hbytes hqueue =>
    have hsendable := hrequests request (List.mem_of_getElem? hrequest)
    rw [hbytes] at hresponse
    obtain rfl : request.answer = response := Except.ok.inj (hsendable.ofBytes_answerBytes.symm.trans hresponse)
    have hplace : (request.id, place) ∈ exchange.pending :=
      (h.pending _ _).mpr ⟨⟨request, hrequest, rfl⟩, .inr List.mem_cons_self⟩
    have hpending : ({ exchange with worker := .idle } : Exchange).pendingCall? request.answer.id = some place :=
      pendingCall?_eq_some h.ids hplace
    have hnote (after : Exchange) : history.note exchange after .resolve =
        ⟨history.registered, history.handed ++ [(place, request.answer)]⟩ := by
      have hhanded : exchange.handed? .resolve = some (place, request.answer) := by
        simp only [handed?, hworker, hbytes, hresponse]
        rw [show exchange.pendingCall? request.answer.id = some place from hpending]
        rfl
      simp [History.note, hhanded, registered?]
    refine ⟨flight, ?_⟩
    rw [hnote]
    rcases h.flying place List.mem_cons_self with hstate | hstate
    · have hat : ({ exchange with worker := .idle } : Exchange).At place request .queued :=
        (at_iff h.calls).mpr ⟨hrequest, hstate⟩
      rw [deliver_of_queued hpending hat]
      exact h.resolve hrequest ((map_request_setCall ..).trans h.calls) (.inl (stateAt_self rfl hstate))
        (fun _ hne => stateAt_of_ne rfl hne) rfl (.idle hqueue)
    · have hat : ({ exchange with worker := .idle } : Exchange).At place request .left :=
        (at_iff h.calls).mpr ⟨hrequest, hstate⟩
      rw [deliver_of_left hpending hat]
      exact h.resolve hrequest h.calls (.inr hstate) (fun _ _ => rfl) rfl (.idle hqueue)

/-- Every move keeps the invariant, with the jobs then in flight. -/
theorem step (hrequests : ∀ request ∈ requests, request.IsSendable) (h : Kept requests history exchange flight)
    (hmove : exchange.step move = some next) :
    ∃ flight', Kept requests (history.note exchange next move) next flight' := by
  cases step_eq_some.mp hmove with
  | refused hat hpending =>
    rw [History.note_eq_self (registered?_of_refused (at_setCall_self hat)) rfl]
    exact ⟨flight, h.setCall (stateAt_of_at hat) (.inl ⟨rfl, rfl⟩)⟩
  | @registered place request hat hnone =>
    have hnote : history.note exchange { exchange.setCall place .registered with
        pending := exchange.pending ++ [(request.id, place)] } (.register place) =
          ⟨history.registered ++ [(request.id, place)], history.handed⟩ := by
      have hat : ({ exchange.setCall place .registered with
        pending := exchange.pending ++ [(request.id, place)] } : Exchange).At place request .registered :=
          at_setCall_self hat
      simp [History.note, registered?_of_registered hat, handed?]
    rw [hnote]
    exact ⟨flight, h.register hat hnone rfl rfl rfl rfl⟩
  | queued hroom hat =>
    rw [History.note_eq_self rfl rfl]
    exact ⟨_, h.enqueue hat rfl rfl rfl rfl⟩
  | left hat =>
    rw [History.note_eq_self rfl rfl]
    exact ⟨flight, h.setCall (stateAt_of_at hat) (.inr ⟨rfl, rfl⟩)⟩
  | received hworker hqueue =>
    rw [History.note_eq_self rfl rfl]
    have hholds := h.holds
    rw [hworker, hqueue] at hholds
    exact ⟨flight, { h with holds := hholds.receive }⟩
  | handled hworker =>
    rw [History.note_eq_self rfl rfl]
    have hholds := h.holds
    rw [hworker] at hholds
    exact ⟨flight, { h with holds := hholds.handle }⟩
  | resolved hworker hresponse => exact reply hrequests h hworker hresponse
  | dropped hworker hfault =>
    have hholds := h.holds
    rw [hworker] at hholds
    cases hholds with
    | replying hrequest hbytes =>
      -- the bytes of an answer are always read
      have hsendable := hrequests _ (List.mem_of_getElem? hrequest)
      rw [hbytes] at hfault
      cases hsendable.ofBytes_answerBytes.symm.trans hfault

end Kept

/-- Every run keeps the invariant. -/
theorem Run.exists_kept {capacity : Nat} {requests : List JobRequest} {history : History} {exchange : Exchange}
    (hrequests : ∀ request ∈ requests, request.IsSendable) (hrun : Run capacity requests history exchange) :
    ∃ flight, Kept requests history exchange flight := by
  induction hrun with
  | start => exact ⟨[], kept_start capacity requests⟩
  | move _ hmove ih =>
    obtain ⟨flight, h⟩ := ih
    exact h.step hrequests hmove

/-- In every run of jobs that can be sent, whatever moves are made and in whatever order: a call is handed one
    response at most, which is the answer to its own request, and a call that is answered was handed that response.
    A call of an identity that is pending is refused, and the move changes nothing for any other call. The identities
    that are pending are those registered and not resolved, each of them once; none is left when the queue is empty,
    the worker is idle and no call waits for room. -/
theorem run_correlates {capacity : Nat} {requests : List JobRequest} {history : History} {exchange : Exchange}
    (hrequests : ∀ request ∈ requests, request.IsSendable) (hrun : Run capacity requests history exchange) :
    (history.handed.map (·.1)).Nodup ∧
    (∀ place response, (place, response) ∈ history.handed → ∃ request, requests[place]? = some request ∧
      response.id = request.id ∧ response = request.answer ∧
        (exchange.At place request (.answered response) ∨ exchange.At place request .left)) ∧
    (∀ place request response, exchange.At place request (.answered response) → (place, response) ∈ history.handed) ∧
    (∀ place request i, exchange.At place request .started → (request.id, i) ∈ exchange.pending → i ≠ place ∧
      ∃ next, exchange.step (.register place) = some next ∧
        next.calls[place]?.map outcome = some (.error (.duplicateJob request.id)) ∧
        (∀ j, j ≠ place → next.calls[j]? = exchange.calls[j]?) ∧
        next.pending = exchange.pending ∧ next.queue = exchange.queue ∧ next.worker = exchange.worker) ∧
    exchange.pending = history.registered.filter (·.2 ∉ history.handed.map (·.1)) ∧
    (exchange.pending.map (·.1)).Nodup ∧
    (exchange.queue = [] → exchange.worker = .idle → (∀ call ∈ exchange.calls, call.state ≠ .registered) →
      exchange.pending = []) := by
  obtain ⟨flight, h⟩ := hrun.exists_kept hrequests
  refine ⟨h.handedOnce, ?_, ?_, ?_, h.unresolved, h.ids, ?_⟩
  · intro place response hmem
    obtain ⟨-, hgot, request, hrequest, rfl⟩ := h.handed place response hmem
    refine ⟨request, hrequest, rfl, rfl, ?_⟩
    exact hgot.imp (fun hgot => (at_iff h.calls).mpr ⟨hrequest, hgot⟩) fun hgot => (at_iff h.calls).mpr ⟨hrequest, hgot⟩
  · intro place request response hat
    exact h.answered place response (stateAt_of_at hat)
  · intro place request i hat hmem
    have hne : i ≠ place := by
      rintro rfl
      obtain ⟨-, hregistered | hflight⟩ := (h.pending _ _).mp hmem
      · cases (stateAt_of_at hat).symm.trans hregistered
      · exact h.not_flying (stateAt_of_at hat) nofun nofun hflight
    have hpending : (exchange.pendingCall? request.id).isSome = true := by
      rw [pendingCall?_eq_some h.ids hmem]
      rfl
    have hstep := step_eq_some.mpr (.refused hat hpending)
    refine ⟨hne, exchange.setCall place .refused, hstep, ?_, fun j hj => ?_, rfl, rfl, rfl⟩
    · have hrefused : (exchange.setCall place .refused).calls[place]? = some ⟨request, .refused⟩ := at_setCall_self hat
      rw [hrefused]
      rfl
    · exact List.getElem?_modify_ne _ _ hj.symm
  · intro hqueue hworker hregistered
    have hflight : flight = [] := by
      have hholds := h.holds
      rw [hqueue, hworker] at hholds
      cases hholds with
      | idle hqueue =>
        cases hqueue
        rfl
    refine List.eq_nil_iff_forall_not_mem.mpr fun ⟨id, i⟩ hmem => ?_
    obtain ⟨-, hstate | hi⟩ := (h.pending id i).mp hmem
    · obtain ⟨call, hcall, hstate⟩ := Option.map_eq_some_iff.mp hstate
      exact hregistered call (List.mem_of_getElem? hcall) hstate
    · rw [hflight] at hi
      cases hi

/-- Two calls of one identity: the second is refused while the first waits, and the first is answered. -/
theorem run_correlates_duplicate :
    let first : JobRequest := ⟨.ofNat 7, .tokenization ⟨"[]", .empty, [], false⟩⟩
    let second : JobRequest := ⟨.ofNat 7, .tokenization ⟨"", .empty, [], false⟩⟩
    (∀ request ∈ [first, second], request.IsSendable) ∧ ∃ history exchange, Run 1 [first, second] history exchange ∧
      exchange.At 1 second .refused ∧ (0, first.answer) ∈ history.handed ∧ exchange.pending = [] := by
  intro first second
  have hsend : ∀ request ∈ [first, second], request.IsSendable := by
    intro request hrequest
    rcases List.mem_cons.mp hrequest with rfl | hrequest
    · exact ⟨fun _ hentry => absurd hentry List.not_mem_nil, by rw [JobRequest.size_toBytes]; decide +kernel⟩
    · rw [List.mem_singleton.mp hrequest]
      exact ⟨fun _ hentry => absurd hentry List.not_mem_nil, by rw [JobRequest.size_toBytes]; decide +kernel⟩
  have hanswered : ∀ history before, Run 1 [first, second] history before →
      before.worker = .replying (answerBytes first.id first.toBytes) → before.pending = [(first.id, 0)] →
      before.At 0 first .queued → before.At 1 second .refused → ∃ history exchange,
        Run 1 [first, second] history exchange ∧ exchange.At 1 second .refused ∧ (0, first.answer) ∈ history.handed ∧
          exchange.pending = [] := by
    intro history before hrun hworker hpending hqueued hrefused
    have hanswer := (hsend first List.mem_cons_self).ofBytes_answerBytes
    have hnext := hrun.move (step_eq_some.mpr (.resolved hworker hanswer))
    have hcall : ({ before with worker := .idle } : Exchange).pendingCall? first.answer.id = some 0 := by
      refine pendingCall?_eq_some ?_ ?_ <;> simp [hpending, JobRequest.answer]
    have hat : ({ before with worker := .idle } : Exchange).At 0 first .queued := hqueued
    rw [deliver_of_queued hcall hat] at hnext
    have hhanded := (run_correlates hsend hnext).2.2.1
    refine ⟨_, _, hnext, (at_setCall_of_ne (by decide)).mpr hrefused, hhanded 0 first _ (at_setCall_self hat), ?_⟩
    simp [hpending, JobRequest.answer]
  have hregister := Run.start.move (step_eq_some.mpr (@Moved.registered (start 1 [first, second]) 0 first rfl rfl))
  have hrefuse := hregister.move (step_eq_some.mpr (@Moved.refused _ 1 second rfl rfl))
  have henqueue := hrefuse.move (step_eq_some.mpr (@Moved.queued _ 0 first (by decide) rfl))
  have hreceive := henqueue.move (step_eq_some.mpr (.received rfl rfl))
  have hhandle := hreceive.move (step_eq_some.mpr (.handled rfl))
  exact ⟨hsend, hanswered _ _ hhandle rfl rfl rfl rfl⟩

end Exchange

end FieldRemap
