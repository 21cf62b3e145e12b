/-
  FieldRemap.Command.Session — what commands have in common.

  A session is a host together with where and how much is logged. What it reads and writes
  may fail; the failure names the file.
-/

import FieldRemap.Command.Host
import FieldRemap.Json.Document
import FieldRemap.Log.Filter
import FieldRemap.Log.Layout
import FieldRemap.Settings
import FieldRemap.Workflow.Run

namespace FieldRemap

def JsonFault.message : JsonFault → String
  | .malformed => "not JSON"
  | .truncated => "JSON that ends too early"
  | .mismatch => "JSON of another form"

inductive CommandError where
  | unreadable (path : String) (error : FileError)
  | undecodable (path : String) (fault : JsonFault)
  | unwritable (path : String) (error : FileError)
  | remap (error : WorkflowError)
  deriving DecidableEq

/-- What is said of a failed remap, with what the editor says when it is the editor's failure. -/
def WorkflowError.fullMessage (error : WorkflowError) : String :=
  match error with
  | .editor reason => s!"{error.message}: {reason}"
  | _ => error.message

def CommandError.message : CommandError → String
  | .unreadable path error => s!"read {path}: {error.message}"
  | .undecodable path fault => s!"parse {path}: {fault.message}"
  | .unwritable path error => s!"write {path}: {error.message}"
  | .remap error => s!"remap workflow failed: {error.fullMessage}"

structure Session (m : Type → Type) where
  host : Host m
  settings : Settings := {}
  filter : LogFilter
  style : LogStyle := {}
  logFile : Option String := none
  logData : Bool := false

abbrev CommandM (m : Type → Type) := ExceptT CommandError m

namespace Session

variable {m : Type → Type} [Monad m]

/-- Logs an entry, if it is to be logged and has a line. -/
def emit (session : Session m) (entry : LogEntry) : m Unit :=
  match (session.filter.apply entry).bind (·.line? session.style) with
  | none => pure ()
  | some line =>
    match session.logFile with
    | none => session.host.report (line ++ "\n")
    | some path => do
      let _ ← session.host.appendText path (line ++ "\n")

def emitAll (session : Session m) (entries : List LogEntry) : m Unit :=
  entries.forM session.emit

def note (session : Session m) (level : LogLevel) (message : String) (fields : List LogField := []) :
    m Unit :=
  session.emit (.note { level, source := .commands, message, fields })

def printLine (session : Session m) (line : String) : m Unit :=
  session.host.print (line ++ "\n")

def printTable (session : Session m) (table : List String) : m Unit :=
  session.printLine ("\n".intercalate table)

def readText (session : Session m) (path : String) : CommandM m String := do
  match ← session.host.readText path with
  | .ok text => return text
  | .error error => throw (.unreadable path error)

def readJson {α : Type} (session : Session m) (decode : Draft → Except JsonFault α) (path : String) :
    CommandM m α := do
  match (Document.ofText (← session.readText path)).decode decode with
  | .ok value => return value
  | .error fault => throw (.undecodable path fault)

/-- The value a file holds as JSON, or the default when there is no file. -/
def readJsonOr {α : Type} (session : Session m) (decode : Draft → Except JsonFault α) (default : α) :
    Option String → CommandM m α
  | some path => session.readJson decode path
  | none => return default

def writeText (session : Session m) (path text : String) : CommandM m Unit := do
  match ← session.host.writeText path text with
  | .ok () => return ()
  | .error error => throw (.unwritable path error)

def writeJson (session : Session m) (value : Json) : Option String → CommandM m Unit
  | some path => session.writeText path value.pretty
  | none => return ()

end Session

end FieldRemap
