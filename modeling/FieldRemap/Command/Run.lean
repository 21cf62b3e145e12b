/-
  FieldRemap.Command.Run — what the commands do.

  A command reads its files, makes one of the passes or a whole remap, writes what it is
  asked to write, and ends with a status: zero if nothing is left to do, one if something
  is or if it failed, two if the command line is not understood.
-/

import FieldRemap.Command.Arguments
import FieldRemap.Command.Session
import FieldRemap.Log.Progress
import FieldRemap.Report.Overview
import FieldRemap.Report.Redaction
import FieldRemap.Wire.Request

namespace FieldRemap

inductive ExitStatus where
  | done
  | incomplete
  | misused
  deriving DecidableEq, Repr

namespace ExitStatus

def code : ExitStatus → UInt32
  | .done => 0
  | .incomplete => 1
  | .misused => 2

def ofComplete (isComplete : Bool) : ExitStatus :=
  if isComplete then .done else .incomplete

end ExitStatus

namespace Session

variable {m : Type → Type} [Monad m]

def noteSpec (session : Session m) (message specText : String) : m Unit :=
  session.note .trace message [("spec", .plain (specExcerpt session.logData specText))]

def readFields (session : Session m) (path : String) : CommandM m (List DatasetField) :=
  session.readJson (Draft.decodeList DatasetField.decode) path

def track (session : Session m) (options : TrackOptions) : CommandM m ExitStatus := do
  let specText ← session.readText options.spec
  let knownFields ← session.readFields options.fields
  let previousTrackedFields ← session.readJsonOr Registry.decode .empty options.previous
  session.noteSpec "tracking" specText
  let request : TrackingRequest := {
    specText
    knownFields
    previousTrackedFields
    hasDrilldown := options.hasDrilldown
    reset := options.reset }
  session.emitAll request.log
  let response := FieldRemap.track request
  let drilldown := response.trackedDrilldown
  session.note .info "tracked specification" [
    ("fields", .count response.trackedFields.size),
    ("drilldown", .flag drilldown.isCurrent)]
  if options.asJson then session.printLine response.toJson.pretty
  else
    session.printTable (Table.ofRegistry response.trackedFields).lines
    if drilldown.isCurrent then
      session.printLine s!"drilldown referenced, mapping required: {drilldown.isMappingRequired}"
  return .done

def tokenize (session : Session m) (options : TokenizeOptions) : CommandM m ExitStatus := do
  let id ← session.host.freshId
  let specText ← session.readText options.spec
  let fields ← session.readFields options.fields
  session.noteSpec "tokenizing" specText
  session.emitAll (exportLog specText fields)
  let template := exportTemplate specText fields {
    name := options.name
    description := options.description
    author := options.author
    uuid := some id.text }
  match options.output with
  | some path => session.writeText path template.specText
  | none => session.printLine template.specText
  session.writeJson template.usermeta.toJson options.usermeta
  session.writeJson template.trackedFields.toJson options.tracked
  let slots := template.usermeta.dataset
  session.note .info "exported template" [("slots", .count slots.length)]
  if options.output.isSome then session.printTable (Table.ofSlots slots).lines
  return .done

def suggest (session : Session m) (options : SuggestOptions) : CommandM m ExitStatus := do
  let usermeta ← session.readJson TemplateUsermeta.decode options.usermeta
  let fields ← session.readFields options.fields
  let least := options.minConfidence.getD session.settings.minConfidence
  let result := suggestAssignments usermeta.dataset fields least
  session.emitAll (result.log least)
  let (applied, dataset) := result.apply usermeta.dataset
  session.writeJson { usermeta with dataset }.toJson options.output
  session.note .info "suggested assignments" [
    ("applied", .count applied),
    ("unassigned", .count result.unassignedSlots.length)]
  session.printTable (Table.ofSuggestions result).lines
  return .ofComplete result.unassignedSlots.isEmpty

/-- Hands a text to the file that takes it, or prints it. -/
def edit (session : Session m) (output : Option String) (text : String) : m (Except String Unit) := do
  match output with
  | some path => return (← session.host.writeText path text).mapError FileError.message
  | none =>
    session.printLine text
    return .ok ()

def runWorkflow (session : Session m) (mode : WorkerMode) (output : Option String)
    (input : RemapInput) : m WorkflowRun := do
  let tokenizing ← session.host.freshId
  let remapping ← session.host.freshId
  let tracking ← session.host.freshId
  let ids : JobKind → JobId
    | .tokenization => tokenizing
    | .remapping => remapping
    | .tracking => tracking
  let runWith (answer : Except String Unit) : WorkflowRun :=
    Workflow.run {} (mode.transport session.settings.worker) (fun _ => answer) ids input
  let expected := runWith (.ok ())
  let before := WorkflowEvent.log mode .none (expected.events.takeWhile (· != .state .complete))
  session.emitAll before
  let run ←
    match expected.edited with
    | none => pure expected
    | some text =>
      match ← session.edit output text with
      | .ok () => pure expected
      | .error reason => pure (runWith (.error reason))
  session.emitAll ((WorkflowEvent.log mode .none run.events).drop before.length)
  return run

def remap (session : Session m) (options : RemapOptions) : CommandM m ExitStatus := do
  let specText ← session.readText options.spec
  let usermeta ← session.readJson TemplateUsermeta.decode options.assignments
  let knownFields ← session.readFields options.fields
  let trackedFields ← session.readJsonOr Registry.decode .empty options.tracked
  let unassigned := unassignedKeys usermeta.dataset
  if !unassigned.isEmpty then
    session.note .warn "remapping with unassigned slots" [("slots", .texts unassigned)]
  if options.mode = .thread then session.emit session.settings.worker.logStarted
  let run ← session.runWorkflow options.mode options.output {
    specText
    knownFields
    trackedFields
    remapFields := usermeta.dataset
    hasDrilldown := options.hasDrilldown }
  let result : Except WorkflowError RemapOutcome := do
    let outcome ← run.result
    let _ ← run.workflow.acknowledge
    return outcome
  match result with
  | .ok outcome => session.emitAll (outcome.log ++ [RemapState.logMove run.workflow.state .none])
  | .error _ => pure ()
  if options.mode = .thread then session.emit WorkerConfig.logClosed
  match result with
  | .error error => throw (.remap error)
  | .ok outcome =>
    session.note .info "remapped specification" [
      ("complete", .flag outcome.completeness.isComplete),
      ("fingerprint", .plain outcome.fingerprint.text)]
    session.host.report (outcome.completeness.line outcome.trackedDrilldown ++ "\n")
    return .ofComplete outcome.completeness.isComplete

def runCommand (session : Session m) : Command → CommandM m ExitStatus
  | .track options => session.track options
  | .tokenize options => session.tokenize options
  | .suggest options => session.suggest options
  | .remap options => session.remap options

end Session

inductive SettingsFailure where
  | unreadable (path : String) (error : FileError)
  | refused (path : String) (error : SettingsError)
  deriving DecidableEq, Repr

def SettingsFailure.message : SettingsFailure → String
  | .unreadable path error => s!"read config {path}: {error.message}"
  | .refused path error => s!"parse config {path}: {error.message}"

namespace GlobalOptions

/-- How much is logged: as the options say, or else as the surroundings say, if that can be
    made sense of. -/
def logFilter (options : GlobalOptions) (directives : Option String) : LogFilter :=
  let threshold := match options.logLevel with
    | some level => .upTo level
    | none => .adjusted options.verbose options.quiet
  let asked := options.logLevel.isSome || 0 < options.verbose || 0 < options.quiet
  if asked then .uniform threshold
  else (directives.bind LogFilter.parse?).getD (.uniform threshold)

def logStyle (options : GlobalOptions) (reportsToTerminal : Bool) : LogStyle where
  layout := options.logLayout
  isColored := match options.color with
    | .always => true
    | .never => false
    | .auto => options.logFile.isNone && reportsToTerminal

end GlobalOptions

namespace Host

variable {m : Type → Type} [Monad m]

def loadSettings (host : Host m) : Option String → m (Except SettingsFailure Settings)
  | none => return .ok {}
  | some path => do
    match ← host.readText path with
    | .error error => return .error (.unreadable path error)
    | .ok text => return (Settings.parse text).mapError (.refused path)

/-- Opens a session; the file that takes the log is there from then on. -/
def openSession (host : Host m) (options : GlobalOptions) (settings : Settings) :
    m (Except FileError (Session m)) := do
  let session : Session m := {
    host
    settings
    filter := options.logFilter host.logDirectives
    style := options.logStyle host.reportsToTerminal
    logFile := options.logFile
    logData := options.logData || settings.logData }
  match options.logFile with
  | none => return .ok session
  | some path => return (← host.appendText path "").map (fun _ => session)

def fail (host : Host m) (message : String) (status : ExitStatus := .incomplete) : m ExitStatus := do
  host.report s!"error: {message}\n"
  return status

def runCommand (host : Host m) (options : GlobalOptions) (command : Command) : m ExitStatus := do
  match ← host.loadSettings options.settings with
  | .error failure => host.fail failure.message
  | .ok settings =>
    match ← host.openSession options settings with
    | .error error => host.fail s!"failed to initialize logging: {error.message}"
    | .ok session =>
      match ← session.runCommand command with
      | .ok status => return status
      | .error error =>
        session.emit (.note { level := .error, source := .program, message := error.message })
        host.fail error.message

def versionText : String := "vizmap 0.1.0\n"

def helpText : String :=
  "Track, tokenize and remap field references in visualization specs\n\n" ++
    "Usage: vizmap [OPTIONS] <COMMAND>\n\n" ++
    "Commands: track, tokenize, suggest, remap, help\n"

def run (host : Host m) (arguments : List String) : m ExitStatus := do
  match Invocation.parse arguments with
  | .error error => host.fail error.message .misused
  | .ok .version =>
    host.print versionText
    return .done
  | .ok .help =>
    host.print helpText
    return .done
  | .ok (.run options command) => host.runCommand options command

end Host

end FieldRemap
