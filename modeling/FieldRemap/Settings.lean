/-
  FieldRemap.Settings — settings read from a TOML document.

  Settings stand in the tables `worker`, `suggest` and `logging`. Each of them, and each
  setting, may be missing; a setting that is there has to be of its type. A table may also
  be given as an array of its settings in order.
-/

import FieldRemap.Assignment.Proposal
import FieldRemap.Job.Exchange
import FieldRemap.Number.Binary
import FieldRemap.Toml.Document

namespace FieldRemap

structure Settings where
  worker : WorkerConfig := {}
  minConfidence : Single := defaultConfidence
  logData : Bool := false
  deriving DecidableEq, Repr

inductive SettingsError where
  /-- The text is not TOML, or a setting is not of its type. -/
  | malformed
  /-- The least confidence of suggestions is not between 0 and 1. -/
  | outOfRange (minConfidence : Single)
  deriving DecidableEq, Repr

def SettingsError.message : SettingsError → String
  | .malformed => "invalid TOML"
  | .outOfRange minConfidence =>
    s!"suggest.min_confidence must be within 0.0..=1.0, got {minConfidence.text}"

namespace Toml

def toText? : Toml → Option String
  | .string value => some value
  | _ => none

def toBool? : Toml → Option Bool
  | .bool value => some value
  | _ => none

def toCount? : Toml → Option Nat
  | .integer n => if 0 ≤ n && n < wordLimit then some n.toNat else none
  | _ => none

/-- A number of 32 bits; a whole number of 64 bits will do. -/
def toSingle? : Toml → Option Single
  | .float bits => some (.ofDouble bits)
  | .integer n =>
    if -signedWordLimit ≤ n && n < wordLimit then
      let format := BinaryFormat.single
      some (.ofBits (format.signed (n < 0) (format.nearest n.natAbs 1)))
    else none
  | _ => none

/-- The settings of a table by name, `names` being their order in an array. -/
def settings? (names : List String) : Toml → Option (List (String × Toml))
  | .table _ members => some members
  | .moment => some []
  | .array items => some (names.zip items)
  | .tables latestFirst => some (names.zip latestFirst.reverse)
  | _ => none

def setting? {α : Type} (members : List (String × Toml)) (name : String) (read? : Toml → Option α)
    (default : α) : Option α :=
  match members.find? (·.1 == name) with
  | some (_, value) => read? value
  | none => some default

def toWorkerConfig? (value : Toml) : Option WorkerConfig := do
  let members ← value.settings? ["queue_capacity", "thread_name"]
  let config : WorkerConfig := {}
  let queueCapacity ← setting? members "queue_capacity" toCount? config.queueCapacity
  let threadName ← setting? members "thread_name" toText? config.threadName
  return { queueCapacity, threadName }

def toMinConfidence? (value : Toml) : Option Single := do
  setting? (← value.settings? ["min_confidence"]) "min_confidence" toSingle? defaultConfidence

def toLogData? (value : Toml) : Option Bool := do
  setting? (← value.settings? ["log_data"]) "log_data" toBool? false

end Toml

namespace Settings

def ofTable? (table : TomlTable) : Option Settings := do
  let worker ← Toml.setting? table.members "worker" Toml.toWorkerConfig? {}
  let minConfidence ← Toml.setting? table.members "suggest" Toml.toMinConfidence? defaultConfidence
  let logData ← Toml.setting? table.members "logging" Toml.toLogData? false
  return { worker, minConfidence, logData }

def parse (text : String) : Except SettingsError Settings :=
  match (Toml.parse? text).bind ofTable? with
  | none => .error .malformed
  | some settings =>
    if Single.zero.le settings.minConfidence && settings.minConfidence.le .one then .ok settings
    else .error (.outOfRange settings.minConfidence)

end Settings

end FieldRemap
