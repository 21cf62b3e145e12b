/-
  FieldRemap.Workflow.Run — a remap from start to end.

  A run tokenizes the text, replaces the tokens, tracks the result and hands it to the
  editor. Each of the three jobs is sent when the one before it has been answered, under the
  right identity and in the right kind. A run that fails at any stage is given up; a
  completed one has to be acknowledged before the next can start.
-/

import FieldRemap.Fingerprint
import FieldRemap.Job.Transport
import FieldRemap.Remap
import FieldRemap.Workflow.State

namespace FieldRemap

structure RemapInput where
  specText : String
  knownFields : List DatasetField := []
  trackedFields : Registry := .empty
  remapFields : List Slot := []
  hasDrilldown : Bool := false
  deriving DecidableEq

structure RemapOutcome where
  specText : String
  trackedFields : Registry
  trackedDrilldown : TrackedDrilldown
  completeness : RemapCompleteness
  fingerprint : SpecFingerprint
  deriving DecidableEq

/-- An answer that does not belong to its question. -/
inductive Misfit where
  | reply (id : JobId)
  | kind (kind : JobKind)
  deriving DecidableEq

def Misfit.text : Misfit → String
  | .reply id => s!"reply for job {id.text}"
  | .kind actual => actual.name

inductive WorkflowError where
  | invalidTransition (source target : RemapState)
  | transport (error : TransportError)
  | unexpectedResponse (id : JobId) (expected : JobKind) (actual : Misfit)
  | jobFailed (kind : JobKind) (message : String)
  | editor (reason : String)
  deriving DecidableEq

def WorkflowError.message : WorkflowError → String
  | .invalidTransition source target =>
    s!"invalid remap transition from {source.name} to {target.name}"
  | .transport error => error.message
  | .unexpectedResponse id expected actual =>
    s!"expected a {expected.name} response for job {id.text}, got {actual.text}"
  | .jobFailed kind message => s!"{kind.name} job failed: {message}"
  | .editor _ => "failed to update the editor"

inductive WorkflowEvent where
  | state (state : RemapState)
  | sent (request : JobRequest)
  | received (request : JobRequest)
  deriving DecidableEq

/-- What a remap does that is seen from outside: it tells of an event, or hands a text to the editor. -/
inductive WorkflowStep where
  | tell (event : WorkflowEvent)
  | edit (text : String)
  deriving DecidableEq

namespace WorkflowStep

def event? : WorkflowStep → Option WorkflowEvent
  | .tell event => some event
  | .edit _ => none

def edit? : WorkflowStep → Option String
  | .edit text => some text
  | .tell _ => none

end WorkflowStep

/-- A remap workflow: where it stands, and every stage it has entered. -/
structure Workflow where
  state : RemapState := .none
  history : List RemapState := []
  deriving DecidableEq, Repr

namespace Workflow

def enter (workflow : Workflow) (state : RemapState) : Workflow :=
  ⟨state, workflow.history ++ [state]⟩

def acknowledge (workflow : Workflow) : Except WorkflowError Workflow :=
  if workflow.state = .complete then .ok (workflow.enter .none)
  else .error (.invalidTransition workflow.state .none)

/-- Gives up a remap; there is nothing to give up before one is started. -/
def abandon (workflow : Workflow) : Workflow :=
  if workflow.state = .none then workflow else workflow.enter .none

end Workflow

structure Progress where
  workflow : Workflow
  steps : List WorkflowStep := []
  deriving DecidableEq

/-- A stage of a run: it may fail, and what happened before stays. -/
abbrev Stage := ExceptT WorkflowError (StateM Progress)

namespace Stage

def take (step : WorkflowStep) : Stage Unit :=
  modify fun progress => { progress with steps := progress.steps ++ [step] }

def note (event : WorkflowEvent) : Stage Unit :=
  take (.tell event)

def enter (state : RemapState) : Stage Unit := do
  let progress ← get
  if progress.workflow.state.canMove state then
    set { progress with workflow := progress.workflow.enter state }
    note (.state state)
  else throw (.invalidTransition progress.workflow.state state)

def send (transport : Transport) (request : JobRequest) : Stage JobResult := do
  note (.sent request)
  match transport request with
  | .error error => throw (.transport error)
  | .ok response =>
    if response.id = request.id then
      note (.received request)
      return response.result
    else throw (.unexpectedResponse request.id request.kind (.reply response.id))

def reject {α : Type} (request : JobRequest) (result : JobResult) : Stage α :=
  match result with
  | .failed message => throw (.jobFailed request.kind message)
  | .tracking _ => throw (.unexpectedResponse request.id request.kind (.kind .tracking))
  | .tokenization _ => throw (.unexpectedResponse request.id request.kind (.kind .tokenization))
  | .remapping _ => throw (.unexpectedResponse request.id request.kind (.kind .remapping))

def tokenize (transport : Transport) (id : JobId) (request : TokenizationRequest) : Stage String := do
  enter .tokenizing
  let request := ⟨id, .tokenization request⟩
  match ← send transport request with
  | .tokenization text => return text
  | result => reject request result

def remap (transport : Transport) (id : JobId) (request : RemappingRequest) : Stage String := do
  enter .replacing
  let request := ⟨id, .remapping request⟩
  match ← send transport request with
  | .remapping text => return text
  | result => reject request result

def track (transport : Transport) (id : JobId) (request : TrackingRequest) : Stage TrackingResponse := do
  enter .tracking
  let request := ⟨id, .tracking request⟩
  match ← send transport request with
  | .tracking response => return response
  | result => reject request result

/-- Hands a text to the editor, which may refuse it. -/
def edit (editor : String → Except String Unit) (text : String) : Stage Unit := do
  enter .updatingEditor
  take (.edit text)
  match editor text with
  | .ok () => return ()
  | .error reason => throw (.editor reason)

def all (transport : Transport) (editor : String → Except String Unit) (ids : JobKind → JobId)
    (input : RemapInput) : Stage RemapOutcome := do
  let tokenized ← tokenize transport (ids .tokenization)
    { specText := input.specText, trackedFields := input.trackedFields, isRemap := true }
  let remapped ← remap transport (ids .remapping)
    { tokenizedSpecText := tokenized
      remapFields := input.remapFields
      trackedFields := input.trackedFields }
  let response ← track transport (ids .tracking)
    { specText := remapped
      knownFields := input.knownFields
      previousTrackedFields := input.trackedFields
      hasDrilldown := input.hasDrilldown }
  edit editor remapped
  enter .complete
  return {
    specText := remapped
    trackedFields := response.trackedFields
    trackedDrilldown := response.trackedDrilldown
    completeness := .evaluate input.remapFields response.trackedDrilldown
    fingerprint := .compute input.specText input.knownFields }

end Stage

structure WorkflowRun where
  workflow : Workflow
  result : Except WorkflowError RemapOutcome
  steps : List WorkflowStep := []

namespace WorkflowRun

def events (run : WorkflowRun) : List WorkflowEvent :=
  run.steps.filterMap WorkflowStep.event?

def edited (run : WorkflowRun) : Option String :=
  (run.steps.filterMap WorkflowStep.edit?).getLast?

end WorkflowRun

/-- Runs a remap. A workflow that is not at its start refuses; a run that fails is given up. -/
def Workflow.run (workflow : Workflow) (transport : Transport) (editor : String → Except String Unit)
    (ids : JobKind → JobId) (input : RemapInput) : WorkflowRun :=
  if workflow.state = .none then
    match (Stage.all transport editor ids input).run { workflow } with
    | (.ok outcome, progress) =>
      { workflow := progress.workflow
        result := .ok outcome
        steps := progress.steps }
    | (.error error, progress) =>
      { workflow := progress.workflow.abandon
        result := .error error
        steps := progress.steps ++ [.tell (.state .none)] }
  else { workflow, result := .error (.invalidTransition workflow.state .tokenizing) }

end FieldRemap
