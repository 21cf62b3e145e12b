/-
  FieldRemap.Log.Record — what is logged.

  A record has a message and values under names. It may be written inside a span, a stretch
  of work with values of its own; that a span has ended is logged too.
-/

import FieldRemap.Log.Level
import FieldRemap.Number.Single

namespace FieldRemap

inductive LogSource where
  | program
  | commands
  | tracker
  | tokenizer
  | remapper
  | suggestions
  | handler
  | workflow
  | dispatcher
  deriving DecidableEq, Repr

def LogSource.path : LogSource → String
  | .program => "vizmap"
  | .commands => "vizmap_cli::commands"
  | .tracker => "vizmap_engine::tracker"
  | .tokenizer => "vizmap_engine::tokenizer"
  | .remapper => "vizmap_engine::remapper"
  | .suggestions => "vizmap_engine::suggest"
  | .handler => "vizmap_worker::handler"
  | .workflow => "vizmap_worker::workflow"
  | .dispatcher => "vizmap_worker::dispatcher"

inductive LogValue where
  /-- A text that is shown as it is. -/
  | plain (text : String)
  /-- A text that is shown between quotes. -/
  | quoted (text : String)
  | texts (items : List String)
  | count (n : Nat)
  | flag (value : Bool)
  | single (x : Single)
  deriving DecidableEq, Repr

abbrev LogField := String × LogValue

structure LogSpan where
  level : LogLevel
  source : LogSource
  name : String
  fields : List LogField
  deriving DecidableEq, Repr

structure LogRecord where
  level : LogLevel
  source : LogSource
  message : String
  fields : List LogField := []
  span : Option LogSpan := none
  deriving DecidableEq, Repr

/-- The name under which the message of a record is looked for. -/
def LogRecord.messageName : String := "message"

/-- The names of a record's fields, its message being one. -/
def LogRecord.fieldNames (record : LogRecord) : List String :=
  messageName :: record.fields.map (·.1)

inductive LogEntry where
  | note (record : LogRecord)
  | ended (span : LogSpan)
  deriving DecidableEq, Repr

def LogEntry.within (span : LogSpan) : LogEntry → LogEntry
  | .note record => .note { record with span := some span }
  | .ended span => .ended span

end FieldRemap
