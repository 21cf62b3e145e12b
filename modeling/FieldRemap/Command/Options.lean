/-
  FieldRemap.Command.Options — what a command line asks for.
-/

import FieldRemap.Job.Exchange
import FieldRemap.Log.Layout
import FieldRemap.Number.Single

namespace FieldRemap

inductive ColorMode where
  | auto
  | always
  | never
  deriving DecidableEq, Repr

namespace ColorMode

def all : List ColorMode := [.auto, .always, .never]

def name : ColorMode → String
  | .auto => "auto"
  | .always => "always"
  | .never => "never"

end ColorMode

structure GlobalOptions where
  /-- How many levels more are logged than usual. -/
  verbose : Nat := 0
  /-- How many levels fewer. -/
  quiet : Nat := 0
  logLevel : Option LogLevel := none
  logLayout : LogLayout := .pretty
  logFile : Option String := none
  logData : Bool := false
  settings : Option String := none
  color : ColorMode := .auto
  deriving DecidableEq, Repr

structure TrackOptions where
  spec : String
  fields : String
  previous : Option String := none
  reset : Bool := false
  hasDrilldown : Bool := false
  asJson : Bool := false
  deriving DecidableEq, Repr

structure TokenizeOptions where
  spec : String
  fields : String
  /-- The files that take the text, what the template says about itself, and the registry. -/
  output : Option String := none
  usermeta : Option String := none
  tracked : Option String := none
  name : String := "Untitled template"
  description : String := ""
  author : String := ""
  deriving DecidableEq, Repr

structure SuggestOptions where
  usermeta : String
  fields : String
  output : Option String := none
  minConfidence : Option Single := none
  deriving DecidableEq, Repr

structure RemapOptions where
  spec : String
  assignments : String
  fields : String
  /-- The registry that a text without tokens was tracked with. -/
  tracked : Option String := none
  output : Option String := none
  hasDrilldown : Bool := false
  mode : WorkerMode := .inline
  deriving DecidableEq, Repr

inductive Command where
  | track (options : TrackOptions)
  | tokenize (options : TokenizeOptions)
  | suggest (options : SuggestOptions)
  | remap (options : RemapOptions)
  deriving DecidableEq, Repr

inductive Invocation where
  | version
  | help
  | run (options : GlobalOptions) (command : Command)
  deriving DecidableEq, Repr

end FieldRemap
