/-
  FieldRemap.Log.Filter — which records are logged.

  A filter is a list of directives. What a record is logged by is the most specific of the
  directives about records, wherever it is written; directives about spans add to it what is
  written inside these spans.
-/

import FieldRemap.Log.Directive

namespace FieldRemap

structure LogFilter where
  directives : List LogDirective
  deriving DecidableEq, Repr

namespace LogFilter

def uniform (threshold : LogThreshold) : LogFilter := ⟨[{ threshold }]⟩

def splitCommas (chars : List Char) : List (List Char) :=
  chars.foldr (fun c pieces =>
    match pieces with
    | piece :: rest => if c == ',' then [] :: piece :: rest else (c :: piece) :: rest
    | [] => []) [[]]

/-- Reads directives between commas. Without any, errors are logged. -/
def parse? (text : String) : Option LogFilter :=
  match (splitCommas text.toList).filter (!·.isEmpty) with
  | [] => some (.uniform (.upTo .error))
  | pieces => (pieces.mapM LogDirective.parse?).map LogFilter.mk

/-- The directive that counts for a source: of those about records, the one that comes
    before all others, the later of two alike. `names` are the fields of a record; a span has
    not got to have any. -/
def directive? (filter : LogFilter) (source : LogSource) (names : Option (List String)) :
    Option LogDirective :=
  let isFor (directive : LogDirective) : Bool :=
    directive.isAboutRecords && directive.covers source &&
      directive.condition.all fun condition => names.all condition.isNamed
  (filter.directives.filter isFor).foldl
    (fun best directive =>
      match best with
      | some best => if best.precedes directive then some best else some directive
      | none => some directive) none

def admits (filter : LogFilter) (source : LogSource) (names : Option (List String))
    (level : LogLevel) : Bool :=
  (filter.directive? source names).any (·.threshold.admits level)

/-- The directives about spans that no later one repeats. -/
def spanDirectives (filter : LogFilter) : List LogDirective :=
  let rec latest : List LogDirective → List LogDirective
    | [] => []
    | directive :: rest =>
      if rest.any directive.isRepeatedBy then latest rest else directive :: latest rest
  latest (filter.directives.filter (·.isAboutSpans))

/-- Whether anything of a level can be logged. A filter that looks at values has to look at
    every span. -/
def reaches (filter : LogFilter) (level : LogLevel) : Bool :=
  filter.directives.any fun directive =>
    directive.threshold.admits level || directive.condition.any (·.value.isSome)

def admitsSpan (filter : LogFilter) (span : LogSpan) : Bool :=
  filter.reaches span.level &&
    (filter.spanDirectives.any (·.isAbout span) || filter.admits span.source none span.level)

def admitsRecord (filter : LogFilter) (record : LogRecord) : Bool :=
  filter.admits record.source (some (record.fieldNames)) record.level ||
    record.span.any fun span =>
      filter.admitsSpan span &&
        filter.spanDirectives.any fun directive =>
          directive.holdsInside span && directive.threshold.admits record.level

def apply (filter : LogFilter) : LogEntry → Option LogEntry
  | .note record =>
    if filter.admitsRecord record then
      some (.note { record with span := record.span.filter filter.admitsSpan })
    else none
  | .ended span => if filter.admitsSpan span then some (.ended span) else none

end LogFilter

end FieldRemap
