/-
  FieldRemap.Log.Level — how serious a log record is, and how much of them is logged.
-/

import FieldRemap.Text.Number

namespace FieldRemap

inductive LogLevel where
  | error
  | warn
  | info
  | debug
  | trace
  deriving DecidableEq, Repr

namespace LogLevel

def all : List LogLevel := [.error, .warn, .info, .debug, .trace]

def rank : LogLevel → Nat
  | .error => 1
  | .warn => 2
  | .info => 3
  | .debug => 4
  | .trace => 5

def name : LogLevel → String
  | .error => "error"
  | .warn => "warn"
  | .info => "info"
  | .debug => "debug"
  | .trace => "trace"

end LogLevel

/-- How much is logged: the levels up to a rank, none if it is zero. -/
structure LogThreshold where
  rank : Nat
  deriving DecidableEq, Repr

namespace LogThreshold

def upTo (level : LogLevel) : LogThreshold := ⟨level.rank⟩

/-- Warnings are logged, and what is more serious, unless more or less is asked for. -/
def usual : LogThreshold := .upTo .warn

def adjusted (more fewer : Nat) : LogThreshold := ⟨usual.rank + more - fewer⟩

def admits (threshold : LogThreshold) (level : LogLevel) : Bool :=
  level.rank ≤ threshold.rank

/-- Reads a threshold: a level's name in any case, `off`, or a rank. -/
def parse? (text : String) : Option LogThreshold :=
  let word := text.toLower
  if word == "off" then some ⟨0⟩
  else
    match LogLevel.all.find? (·.name == word) with
    | some level => some (.upTo level)
    | none => (parseBelow? (LogLevel.trace.rank + 1) text).map LogThreshold.mk

end LogThreshold

end FieldRemap
