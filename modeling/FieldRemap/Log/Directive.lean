/-
  FieldRemap.Log.Directive — what is said of how much to log.

  A directive names a threshold, or a path that sources start with, or both around an equals
  sign. Between brackets behind the path it may say which spans it is about: those of a name,
  and, between braces, those with a field, whose value may have to match a pattern.
-/

import FieldRemap.Log.Record
import FieldRemap.Pattern.Syntax
import FieldRemap.Text.Letter
import FieldRemap.Text.Number
import FieldRemap.Text.Word

namespace FieldRemap

structure LogValuePattern where
  text : List Char
  /-- The pattern the text is, unless it is a truth value or a number: no text is one. -/
  pattern : Option TextPattern
  deriving DecidableEq, Repr

namespace LogValuePattern

def parse? (text : List Char) : Option LogValuePattern :=
  let word := String.ofList text
  if word = "true" || word = "false" || (Single.parse? word).isSome then some ⟨text, none⟩
  else (TextPattern.parse? text).map fun pattern => ⟨text, some pattern⟩

/-- Whether a value is as it has to be. Fields of spans are texts. -/
def holds (expected : LogValuePattern) : LogValue → Bool
  | .plain text | .quoted text => expected.pattern.any (·.isMatch text.toList)
  | _ => false

end LogValuePattern

/-- A field that there has to be, and its value, if it matters. -/
structure LogCondition where
  name : List Char
  value : Option LogValuePattern
  deriving DecidableEq, Repr

namespace LogCondition

/-- Reads a condition: a name, or a name and a value around an equals sign. What follows a
    second equals sign does not count. -/
def parse? (text : List Char) : Option LogCondition :=
  let name := text.takeWhile (· != '=')
  match text.drop name.length with
  | [] => some ⟨name, none⟩
  | _ :: rest => (LogValuePattern.parse? (rest.takeWhile (· != '='))).map (⟨name, some ·⟩)

def isNamed (condition : LogCondition) (names : List String) : Bool :=
  names.any (·.toList == condition.name)

def holds (condition : LogCondition) (fields : List LogField) : Bool :=
  match condition.value with
  | none => condition.isNamed (fields.map (·.1))
  | some value =>
    fields.any fun (name, actual) => name.toList == condition.name && value.holds actual

end LogCondition

structure LogDirective where
  path : List Char := []
  span : Option (List Char) := none
  condition : Option LogCondition := none
  threshold : LogThreshold
  deriving DecidableEq, Repr

namespace LogDirective

def everything : LogThreshold := .upTo .trace

def isAboutSpans (directive : LogDirective) : Bool :=
  directive.span.isSome || directive.condition.isSome

/-- Whether a directive is about what is logged wherever it is written. A field without a
    value may be one of a span or of a record. -/
def isAboutRecords (directive : LogDirective) : Bool :=
  directive.span.isNone && directive.condition.all (·.value.isNone)

def covers (directive : LogDirective) (source : LogSource) : Bool :=
  directive.path.isPrefixOf source.path.toList

def isAbout (directive : LogDirective) (span : LogSpan) : Bool :=
  directive.covers span.source && directive.span.all (· == span.name.toList) &&
    directive.condition.all (·.isNamed (span.fields.map (·.1)))

def holdsInside (directive : LogDirective) (span : LogSpan) : Bool :=
  directive.isAbout span && directive.condition.all (·.holds span.fields)

def isRepeatedBy (directive other : LogDirective) : Bool :=
  directive.path == other.path && directive.span == other.span &&
    directive.condition == other.condition

/-- Whether a directive comes before another one when both are about a record: the longer
    path comes first, then the one with a field, and then the greater name. -/
def precedes (directive other : LogDirective) : Bool :=
  let name (directive : LogDirective) : String :=
    String.ofList ((directive.condition.map (·.name)).getD [])
  if directive.path.length ≠ other.path.length then other.path.length < directive.path.length
  else if directive.condition.isSome ≠ other.condition.isSome then directive.condition.isSome
  else decide (name other < name directive)

end LogDirective

/-- What part of a directive is being read. A part that is cut out later has the place where
    it starts. -/
inductive DirectivePart where
  | start
  | word
  | span (start : Nat)
  | condition (start : Nat)
  | conditionEnd
  | spanEnd
  | threshold (start : Nat)
  deriving DecidableEq, Repr

structure DirectiveReading where
  part : DirectivePart := .start
  directive : LogDirective := { threshold := LogDirective.everything }
  deriving DecidableEq, Repr

namespace DirectiveReading

def startsWith (c : Char) : Bool :=
  c == '-' || c == ':' || c == '_' || isAlphabetic c || isNumeric c

/-- A character read on, `i` being its place. `cut` gives what stands from a place up to it. -/
def push? (cut : Nat → List Char) (i : Nat) (c : Char) (reading : DirectiveReading) :
    Option DirectiveReading :=
  let directive := reading.directive
  match reading.part with
  | .start =>
    if c = '[' then some ⟨.span (i + 1), directive⟩
    else if startsWith c then some ⟨.word, directive⟩
    else none
  | .word =>
    if c = '=' then some ⟨.threshold (i + 1), { directive with path := cut 0 }⟩
    else if c = '[' then some ⟨.span (i + 1), { directive with path := cut 0 }⟩
    else some reading
  | .span start =>
    if c = ']' then some ⟨.spanEnd, { directive with span := some (cut start) }⟩
    else if c = '\x7b' then
      some ⟨.condition (i + 1),
        { directive with span := if (cut start).isEmpty then none else some (cut start) }⟩
    else some reading
  | .condition start =>
    if c = '\x7d' then
      if (cut start).isEmpty then none
      else
        (LogCondition.parse? (cut start)).map fun condition =>
          ⟨.conditionEnd, { directive with condition := some condition }⟩
    else some reading
  | .conditionEnd => if c = ']' then some ⟨.spanEnd, directive⟩ else none
  | .spanEnd => if c = '=' then some ⟨.threshold (i + 1), directive⟩ else none
  | .threshold _ => some reading

def finish? (text : List Char) (reading : DirectiveReading) : Option LogDirective :=
  let directive := reading.directive
  match reading.part with
  | .word =>
    match LogThreshold.parse? (String.ofList text) with
    | some threshold => some { directive with threshold }
    | none => some { directive with path := text }
  | .threshold start =>
    if (text.drop start).isEmpty then some directive
    else
      (LogThreshold.parse? (String.ofList (text.drop start))).map fun threshold =>
        { directive with threshold }
  | .spanEnd => some directive
  | _ => none

end DirectiveReading

/-- Reads a directive. Its places are those in the text without the blanks around it, its
    pieces those of the text with them, so a blank in front makes a path that no source has. -/
def LogDirective.parse? (text : List Char) : Option LogDirective :=
  ((trimSpace text).zipIdx.foldlM (fun (reading : DirectiveReading) (c, i) =>
    reading.push? (fun start => (text.drop start).take (i - start)) i c) {}).bind (·.finish? text)

end FieldRemap
