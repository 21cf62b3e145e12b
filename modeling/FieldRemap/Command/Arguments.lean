/-
  FieldRemap.Command.Arguments — reading a command line.

  Options may stand before and after the name of the command; those of the command only
  after it. An option behind the command's name overrides the same option before it. A value
  stands in the next argument, which may not look like an option, or behind an equals sign.
  Options that do not take a value may be given by a letter, and letters may be joined.
-/

import FieldRemap.Command.Options

namespace FieldRemap

inductive OptionKind where
  | flag
  | counter
  | value (admits : String → Bool)
  /-- The rest of the command line is not read. -/
  | final (invocation : Invocation)

structure OptionRule where
  name : String
  kind : OptionKind
  otherName : Option String := none
  letter : Option Char := none

inductive UsageError where
  | unknown (argument : String)
  | unexpected (argument : String)
  | missingValue (option : String)
  | unwantedValue (option : String)
  | refusedValue (option value : String)
  | repeated (option : String)
  | conflict (first second : String)
  | missingOption (option : String)
  | missingCommand
  deriving DecidableEq, Repr

def UsageError.message : UsageError → String
  | .unknown argument => s!"unknown argument {quoteText argument}"
  | .unexpected argument => s!"unexpected argument {quoteText argument}"
  | .missingValue option => s!"--{option} needs a value"
  | .unwantedValue option => s!"--{option} takes no value"
  | .refusedValue option value => s!"--{option} does not take {quoteText value}"
  | .repeated option => s!"--{option} may be given once"
  | .conflict first second => s!"--{first} and --{second} exclude each other"
  | .missingOption option => s!"--{option} is required"
  | .missingCommand => "a command is required"

abbrev GivenOptions := List (String × String)

namespace GivenOptions

def value? (given : GivenOptions) (name : String) : Option String :=
  (given.find? (·.1 == name)).map (·.2)

def has (given : GivenOptions) (name : String) : Bool :=
  given.any (·.1 == name)

def count (given : GivenOptions) (name : String) : Nat :=
  (given.filter (·.1 == name)).length

def required (given : GivenOptions) (name : String) : Except UsageError String :=
  match given.value? name with
  | some value => .ok value
  | none => .error (.missingOption name)

def item? {α : Type} (given : GivenOptions) (name : String) (itemName : α → String)
    (items : List α) : Option α :=
  (given.value? name).bind (fun value => items.find? (itemName · == value))

/-- Adds an option; only counters may be repeated. -/
def add (given : GivenOptions) (rule : OptionRule) (value : String) : Except UsageError GivenOptions :=
  if !(rule.kind matches .counter) && given.has rule.name then .error (.repeated rule.name)
  else .ok (given ++ [(rule.name, value)])

/-- These options, and those of `outer` that are not among them. -/
def overriding (given outer : GivenOptions) : GivenOptions :=
  given ++ outer.filter (fun option => !given.has option.1)

end GivenOptions

inductive ArgumentStop where
  | finished
  | word (word : String) (rest : List String)
  | final (invocation : Invocation)

namespace OptionRule

def isNamed (rule : OptionRule) (name : String) : Bool :=
  rule.name == name || rule.otherName == some name

/-- Whether an argument cannot be a value in an argument of its own. -/
def looksLikeOption (argument : String) : Bool :=
  match argument.toList with
  | '-' :: _ :: _ => true
  | _ => false

def check (rule : OptionRule) (admits : String → Bool) (value : String) : Except UsageError String :=
  if admits value then .ok value else .error (.refusedValue rule.name value)

def readLetters (rules : List OptionRule) (argument : String) :
    List Char → GivenOptions → Except UsageError (GivenOptions × Option Invocation)
  | [], given => .ok (given, none)
  | letter :: rest, given =>
    match rules.find? (·.letter == some letter) with
    | none => .error (.unknown argument)
    | some rule =>
      match rule.kind with
      | .final invocation => .ok (given, some invocation)
      | .value _ => .error (.missingValue rule.name)
      | .flag | .counter => do readLetters rules argument rest (← given.add rule "")

def read (rules : List OptionRule) :
    List String → GivenOptions → Except UsageError (GivenOptions × ArgumentStop)
  | [], given => .ok (given, .finished)
  | argument :: rest, given =>
    match argument.toList with
    | ['-', '-'] =>
      match rest with
      | [] => .ok (given, .finished)
      | next :: _ => .error (.unexpected next)
    | '-' :: '-' :: chars =>
      let name := String.ofList (chars.takeWhile (· != '='))
      let value :=
        match chars.dropWhile (· != '=') with
        | [] => none
        | _ :: value => some (String.ofList value)
      match rules.find? (·.isNamed name) with
      | none => .error (.unknown argument)
      | some rule =>
        match rule.kind, value, rest with
        | .final invocation, none, _ => .ok (given, .final invocation)
        | .flag, none, rest | .counter, none, rest => do read rules rest (← given.add rule "")
        | .value admits, some value, rest => do
          read rules rest (← given.add rule (← rule.check admits value))
        | .value admits, none, value :: rest =>
          if looksLikeOption value then .error (.missingValue rule.name)
          else do read rules rest (← given.add rule (← rule.check admits value))
        | .value _, none, [] => .error (.missingValue rule.name)
        | _, some _, _ => .error (.unwantedValue rule.name)
    | '-' :: letter :: letters =>
      match readLetters rules argument (letter :: letters) given with
      | .error error => .error error
      | .ok (given, some invocation) => .ok (given, .final invocation)
      | .ok (given, none) => read rules rest given
    | _ => .ok (given, .word argument rest)

/-! ## The options there are -/

def flag (name : String) : OptionRule := { name, kind := .flag }

def text (name : String) : OptionRule := { name, kind := .value (fun _ => true) }

def path (name : String) : OptionRule := { name, kind := .value (!·.isEmpty) }

def word (name : String) (words : List String) : OptionRule :=
  { name, kind := .value words.contains }

def help : OptionRule := { name := "help", letter := some 'h', kind := .final .help }

def version : OptionRule := { name := "version", letter := some 'V', kind := .final .version }

def globals : List OptionRule := [
  { name := "verbose", letter := some 'v', kind := .counter },
  { name := "quiet", letter := some 'q', kind := .counter },
  word "color" (ColorMode.all.map (·.name)),
  word "log-level" (LogLevel.all.map (·.name)),
  word "log-format" ([LogLayout.pretty, .compact, .json].map (·.name)),
  path "log-file",
  flag "log-data",
  path "config",
  help]

end OptionRule

/-- A command by name: its options, and how it is made from those given. -/
structure CommandRule where
  name : String
  options : List OptionRule
  make : GivenOptions → Except UsageError Command

namespace CommandRule

open OptionRule (flag text path word)

def track : CommandRule where
  name := "track"
  options := [path "spec", path "fields", path "previous", flag "reset", flag "drilldown", flag "json"]
  make given := do
    return .track {
      spec := ← given.required "spec"
      fields := ← given.required "fields"
      previous := given.value? "previous"
      reset := given.has "reset"
      hasDrilldown := given.has "drilldown"
      asJson := given.has "json" }

def tokenize : CommandRule where
  name := "tokenize"
  options := [path "spec", path "fields", path "output", path "usermeta", path "tracked", text "name",
    text "description", text "author"]
  make given := do
    let options : TokenizeOptions := {
      spec := ← given.required "spec"
      fields := ← given.required "fields"
      output := given.value? "output"
      usermeta := given.value? "usermeta"
      tracked := given.value? "tracked" }
    return .tokenize {
      options with
      name := (given.value? "name").getD options.name
      description := (given.value? "description").getD options.description
      author := (given.value? "author").getD options.author }

def suggest : CommandRule where
  name := "suggest"
  options := [path "usermeta", path "fields", path "output",
    { name := "min-confidence", kind := .value (fun value => (Single.parse? value).isSome) }]
  make given := do
    return .suggest {
      usermeta := ← given.required "usermeta"
      fields := ← given.required "fields"
      output := given.value? "output"
      minConfidence := (given.value? "min-confidence").bind Single.parse? }

def remap : CommandRule where
  name := "remap"
  options := [path "spec", { path "assignments" with otherName := some "usermeta" }, path "fields",
    path "tracked", path "output", flag "drilldown", word "worker" (WorkerMode.all.map (·.name))]
  make given := do
    return .remap {
      spec := ← given.required "spec"
      assignments := ← given.required "assignments"
      fields := ← given.required "fields"
      tracked := given.value? "tracked"
      output := given.value? "output"
      hasDrilldown := given.has "drilldown"
      mode := (given.item? "worker" WorkerMode.name WorkerMode.all).getD .inline }

def all : List CommandRule := [track, tokenize, suggest, remap]

end CommandRule

namespace GlobalOptions

def ofGiven (given : GivenOptions) : GlobalOptions where
  verbose := given.count "verbose"
  quiet := given.count "quiet"
  logLevel := given.item? "log-level" LogLevel.name LogLevel.all
  logLayout := (given.item? "log-format" LogLayout.name [.pretty, .compact, .json]).getD .pretty
  logFile := given.value? "log-file"
  logData := given.has "log-data"
  settings := given.value? "config"
  color := (given.item? "color" ColorMode.name ColorMode.all).getD .auto

end GlobalOptions

namespace Invocation

/-- Options that stand on one side of the command's name may not ask for more and for less. -/
def checkVerbosity (given : GivenOptions) : Except UsageError Unit :=
  if given.has "verbose" && given.has "quiet" then .error (.conflict "verbose" "quiet") else .ok ()

def helpWord : String := "help"

def readCommand (outer : GivenOptions) (rule : CommandRule) (arguments : List String) :
    Except UsageError Invocation := do
  match ← OptionRule.read (OptionRule.globals ++ rule.options) arguments [] with
  | (_, .final invocation) => return invocation
  | (_, .word argument _) => throw (.unexpected argument)
  | (given, .finished) =>
    checkVerbosity given
    let command ← rule.make given
    checkVerbosity outer
    return .run (.ofGiven (given.overriding outer)) command

def parse (arguments : List String) : Except UsageError Invocation := do
  match ← OptionRule.read (OptionRule.version :: OptionRule.globals) arguments [] with
  | (_, .final invocation) => return invocation
  | (_, .finished) => throw .missingCommand
  | (given, .word name rest) =>
    match CommandRule.all.find? (·.name == name) with
    | some rule => readCommand given rule rest
    | none =>
      if name != helpWord then throw (.unknown name)
      match rest with
      | [] => return .help
      | [topic] =>
        if (helpWord :: CommandRule.all.map (·.name)).contains topic then return .help
        else throw (.unknown topic)
      | _ :: argument :: _ => throw (.unexpected argument)

end Invocation

end FieldRemap
