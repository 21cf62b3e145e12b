/-
  FieldRemap.Job.Exchange — jobs answered by one worker, fed through a queue.

  Actors. Each call registers its identity, which is refused while a job of that identity is
  pending; waits for room in the queue and puts the bytes of its request there; then waits
  for its reply, and may stop waiting. The worker takes the first bytes from the queue,
  answers them in bytes, and hands the reply to the call that is registered under the
  identity in it; the identity is pending no longer. A reply that nobody is registered for,
  or that cannot be read, is dropped.

  `step` is one move of one actor, in any order; `settle` lets every call move as far as it
  can before the worker does.
-/

import FieldRemap.Job.Transport

namespace FieldRemap

structure WorkerConfig where
  queueCapacity : Nat := 32
  threadName : String := "vizmap-worker"
  deriving DecidableEq, Repr

/-- A queue holds at least one request. -/
def WorkerConfig.effectiveCapacity (config : WorkerConfig) : Nat :=
  max config.queueCapacity 1

structure Envelope where
  id : JobId
  bytes : ByteArray

inductive CallState where
  | started
  /-- Its identity is pending; it waits for room in the queue. -/
  | registered
  /-- Its bytes are queued; it waits for its reply. -/
  | queued
  /-- It has stopped waiting. -/
  | left
  /-- A job of its identity was pending already. -/
  | refused
  | answered (response : JobResponse)

structure Call where
  request : JobRequest
  state : CallState := .started

inductive WorkerState where
  | idle
  | holding (envelope : Envelope)
  | replying (bytes : ByteArray)

/-- Calls, and the worker they share. -/
structure Exchange where
  capacity : Nat
  calls : List Call
  /-- The pending identities, each with the place of its call. -/
  pending : List (JobId × Nat) := []
  queue : List Envelope := []
  worker : WorkerState := .idle

/-- A move of a call, given by its place, or of the worker. -/
inductive ExchangeMove where
  | register (call : Nat)
  | enqueue (call : Nat)
  | leave (call : Nat)
  | receive
  | handle
  | resolve
  deriving DecidableEq, Repr

namespace Exchange

/-- The call at a place, when it has come this far. -/
def callIn? (exchange : Exchange) (place : Nat) (test : CallState → Bool) : Option Call :=
  exchange.calls[place]?.filter (fun call => test call.state)

def setCall (exchange : Exchange) (place : Nat) (state : CallState) : Exchange :=
  { exchange with calls := exchange.calls.modify place (fun call => { call with state }) }

def pendingCall? (exchange : Exchange) (id : JobId) : Option Nat :=
  (exchange.pending.find? (·.1 = id)).map (·.2)

def register (exchange : Exchange) (place : Nat) : Option Exchange :=
  (exchange.callIn? place (· matches .started)).map fun call =>
    if (exchange.pendingCall? call.request.id).isSome then exchange.setCall place .refused
    else
      { exchange.setCall place .registered with
        pending := exchange.pending ++ [(call.request.id, place)] }

def enqueue (exchange : Exchange) (place : Nat) : Option Exchange :=
  if exchange.queue.length < exchange.capacity then
    (exchange.callIn? place (· matches .registered)).map fun call =>
      { exchange.setCall place .queued with
        queue := exchange.queue ++ [⟨call.request.id, call.request.toBytes⟩] }
  else none

def leave (exchange : Exchange) (place : Nat) : Option Exchange :=
  (exchange.callIn? place (· matches .queued)).map fun _ => exchange.setCall place .left

def receive (exchange : Exchange) : Option Exchange :=
  match exchange.worker, exchange.queue with
  | .idle, envelope :: queue => some { exchange with queue, worker := .holding envelope }
  | _, _ => none

def handle (exchange : Exchange) : Option Exchange :=
  match exchange.worker with
  | .holding envelope =>
    some { exchange with worker := .replying (answerBytes envelope.id envelope.bytes) }
  | _ => none

def deliver (exchange : Exchange) (response : JobResponse) : Exchange :=
  match exchange.pendingCall? response.id with
  | none => exchange
  | some place =>
    let exchange := { exchange with pending := exchange.pending.filter (·.1 ≠ response.id) }
    match exchange.callIn? place (· matches .queued) with
    | some _ => exchange.setCall place (.answered response)
    | none => exchange

def resolve (exchange : Exchange) : Option Exchange :=
  match exchange.worker with
  | .replying bytes =>
    let exchange := { exchange with worker := .idle }
    match JobResponse.ofBytes bytes with
    | .ok response => some (exchange.deliver response)
    | .error _ => some exchange
  | _ => none

def step (exchange : Exchange) : ExchangeMove → Option Exchange
  | .register place => exchange.register place
  | .enqueue place => exchange.enqueue place
  | .leave place => exchange.leave place
  | .receive => exchange.receive
  | .handle => exchange.handle
  | .resolve => exchange.resolve

def start (capacity : Nat) (requests : List JobRequest) : Exchange where
  capacity := capacity
  calls := requests.map (⟨·, .started⟩)

/-- The moves in the order they are tried: calls first, by place, and then the worker. -/
def moves (exchange : Exchange) : List ExchangeMove :=
  let places := List.range exchange.calls.length
  places.map .register ++ places.map .enqueue ++ [.receive, .handle, .resolve]

/-- Makes the first move that can be made, `fuel` times at most. -/
def settleFrom : (fuel : Nat) → Exchange → Exchange
  | 0, exchange => exchange
  | fuel + 1, exchange =>
    match exchange.moves.findSome? exchange.step with
    | some next => settleFrom fuel next
    | none => exchange

/-- Moves until nothing moves: a call moves twice and its bytes move the worker three times. -/
def settle (exchange : Exchange) : Exchange :=
  settleFrom (5 * exchange.calls.length + 3) exchange

def outcome (call : Call) : Except TransportError JobResponse :=
  match call.state with
  | .answered response => .ok response
  | .refused => .error (.duplicateJob call.request.id)
  | _ => .error (.workerGone call.request.id)

def outcomes (exchange : Exchange) : List (Except TransportError JobResponse) :=
  exchange.calls.map outcome

end Exchange

def Transport.worker (config : WorkerConfig) : Transport :=
  fun request =>
    match (Exchange.start config.effectiveCapacity [request]).settle.outcomes with
    | outcome :: _ => outcome
    | [] => .error (.workerGone request.id)

inductive WorkerMode where
  /-- In the course of the remap itself. -/
  | inline
  /-- Each job by itself, while the remap waits. -/
  | blocking
  /-- All jobs by one worker with a queue. -/
  | thread
  deriving DecidableEq, Repr

namespace WorkerMode

def all : List WorkerMode := [.inline, .blocking, .thread]

def name : WorkerMode → String
  | .inline => "inline"
  | .blocking => "blocking"
  | .thread => "thread"

def transport (config : WorkerConfig) : WorkerMode → Transport
  | .inline | .blocking => .inline
  | .thread => .worker config

end WorkerMode

end FieldRemap
