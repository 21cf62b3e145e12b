/-
  FieldRemap.Log.Progress — what passes, jobs and remaps leave in the log.

  Each pass tells how much it found or replaced. A job is a span; what is logged by a job
  that is not run in the course of the remap itself is outside it.
-/

import FieldRemap.Assignment.Proposal
import FieldRemap.Export
import FieldRemap.Job.Exchange
import FieldRemap.Log.Record
import FieldRemap.Workflow.Run

namespace FieldRemap

def TrackingRequest.log (request : TrackingRequest) : List LogEntry :=
  let pass := Track.pass request
  if pass.isEmpty then
    [.note {
      level := .debug
      source := .tracker
      message := "nothing to track"
      fields := [("reset", .flag request.reset)] }]
  else
    (pass.displaced.map fun (fieldKey, token) =>
      .note {
        level := .debug
        source := .tracker
        message := "previous placeholder collides, reallocating"
        fields := [("field", .plain fieldKey), ("token", .plain token.text)] }) ++
    [.note {
      level := .debug
      source := .tracker
      message := "tracked field usage"
      fields := [
        ("fields", .count pass.response.trackedFields.size),
        ("matches", .count pass.matchCount),
        ("reset", .flag request.reset),
        ("drilldown", .flag pass.response.trackedDrilldown.isCurrent)] }]

def TokenizationRequest.log (request : TokenizationRequest) : List LogEntry :=
  if request.specText.isEmpty then []
  else
    [.note {
      level := .debug
      source := .tokenizer
      message := "tokenized specification"
      fields := [
        ("replaced", .count (Tokenize.edits request).length),
        ("fields", .count request.trackedFields.size),
        ("is_remap", .flag request.isRemap)] }]

def RemappingRequest.log (request : RemappingRequest) : List LogEntry :=
  if request.tokenizedSpecText.isEmpty then []
  else
    [.note {
      level := .debug
      source := .remapper
      message := "remapped specification"
      fields := [
        ("replaced", .count (Remap.edits request).length),
        ("unassigned", .count (request.remapFields.filter (·.suppliedName.isNone)).length)] }]

def exportLog (specText : String) (fields : List DatasetField) : List LogEntry :=
  let request := exportTracking specText fields
  request.log ++
    TokenizationRequest.log
      { specText, trackedFields := (track request).trackedFields, isRemap := true }

def AssignmentResult.log (result : AssignmentResult) (least : Single) : List LogEntry :=
  [.note {
    level := .debug
    source := .suggestions
    message := "suggested slot assignments"
    fields := [
      ("suggested", .count result.suggestions.length),
      ("unassigned", .count result.unassignedSlots.length),
      ("min_confidence", .single least)] }]

def JobPayload.log : JobPayload → List LogEntry
  | .tracking request => request.log
  | .tokenization request => request.log
  | .remapping request => request.log

namespace JobRequest

def logFields (request : JobRequest) : List LogField :=
  [("job_id", .plain request.id.text), ("kind", .quoted request.kind.name)]

def span (request : JobRequest) : LogSpan where
  level := .debug
  source := .workflow
  name := "remap_job"
  fields := request.logFields

def log (request : JobRequest) : List LogEntry :=
  request.payload.log ++
    [.note {
      level := .debug
      source := .handler
      message := "handled job"
      fields := request.logFields }]

def logIn (mode : WorkerMode) (request : JobRequest) : List LogEntry :=
  (match mode with
    | .inline => request.log.map (.within request.span)
    | .blocking | .thread => request.log) ++ [.ended request.span]

end JobRequest

namespace RemapState

def logMove (source target : RemapState) : LogEntry :=
  .note {
    level := .debug
    source := .workflow
    message := "remap state"
    fields := [("from", .plain source.name), ("to", .plain target.name)] }

def logAbandoned (source : RemapState) : LogEntry :=
  .note {
    level := .warn
    source := .workflow
    message := "abandoning remap"
    fields := [("from", .plain source.name)] }

end RemapState

namespace WorkflowEvent

/-- What the events of a run log, the run being at a stage before them. A run goes back to
    its start only when it is given up. -/
def log (mode : WorkerMode) : RemapState → List WorkflowEvent → List LogEntry
  | _, [] => []
  | source, .state target :: rest =>
    (if target = .none then source.logAbandoned else source.logMove target) :: log mode target rest
  | source, .sent request :: rest => request.logIn mode ++ log mode source rest
  | source, .received _ :: rest => log mode source rest

end WorkflowEvent

def RemapOutcome.log (outcome : RemapOutcome) : List LogEntry :=
  [.note {
    level := .info
    source := .workflow
    message := "remap finished"
    fields := [
      ("fields", .count outcome.trackedFields.size),
      ("complete", .flag outcome.completeness.isComplete)] }]

namespace WorkerConfig

def logStarted (config : WorkerConfig) : LogEntry :=
  .note {
    level := .debug
    source := .dispatcher
    message := "started worker"
    fields := [
      ("thread", .plain config.threadName),
      ("capacity", .count config.effectiveCapacity)] }

def logClosed : LogEntry :=
  .note { level := .debug, source := .dispatcher, message := "worker queue closed" }

end WorkerConfig

end FieldRemap
