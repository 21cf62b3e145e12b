/-
  FieldRemap.Report.Redaction — what one line says of a specification and its remap.

  Unless the text of specifications may be logged, a fixed word stands in its place. Even
  then a log shows only its first characters. What the remap leaves open may always be told.
-/

import FieldRemap.Remap

namespace FieldRemap

def redactedValue : String := "[REDACTED]"

def excerptLength : Nat := 120

def redactValue (logData : Bool) (text : String) : String :=
  if logData then text else redactedValue

/-- The start of a text, if it may be logged; an ellipsis stands for the rest. -/
def specExcerpt (logData : Bool) (text : String) : String :=
  if logData then
    let chars := text.toList
    String.ofList (chars.take excerptLength ++ if excerptLength < chars.length then ['…'] else [])
  else redactedValue

def yesOrNo (value : Bool) : String :=
  if value then "yes" else "no"

def RemapCompleteness.line (completeness : RemapCompleteness) (drilldown : TrackedDrilldown) : String :=
  let drill :=
    if !drilldown.isCurrent then "not used"
    else if completeness.remapDrilldownAssigned then "bound"
    else "missing"
  s!"fields assigned: {yesOrNo completeness.remapAllFieldsAssigned}, drilldown: {drill}, " ++
    s!"complete: {yesOrNo completeness.remapAllDependenciesAssigned}"

end FieldRemap
