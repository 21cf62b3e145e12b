/-
  FieldRemap.Remap — tokens replaced by the fields supplied for them.

  Every reference to the token of an assigned slot is turned into the supplied name; names
  derived from the token follow it. Slots that nothing is supplied for keep their token, and
  the remap is incomplete.
-/

import FieldRemap.Template
import FieldRemap.Tokenize

namespace FieldRemap

structure RemappingRequest where
  tokenizedSpecText : String
  remapFields : List Slot
  trackedFields : Registry := .empty
  supplementaryReplacers : List Convention := Convention.defaults
  deriving DecidableEq

namespace Remap

/-- The token a slot has in the text: that of the tracked field its key names, or else the
    key itself. -/
def token (trackedFields : Registry) (slot : Slot) : String :=
  match (trackedFields.get? slot.key).bind (·.placeholder) with
  | some placeholder => placeholder.text
  | none => slot.key

def edits (request : RemappingRequest) : List (Span × List Char) :=
  let text := request.tokenizedSpecText.toList
  let quotes := QuoteMap.lex text
  let suffixes := request.supplementaryReplacers.filterMap (·.suffix?)
  Retarget.edits (request.remapFields.flatMap fun slot =>
    match slot.suppliedName with
    | none => []
    | some supplied =>
      Retarget.candidates quotes text suffixes (token request.trackedFields slot) supplied)

end Remap

def remap (request : RemappingRequest) : String :=
  String.ofList (splice request.tokenizedSpecText.toList (Remap.edits request))

/-! ## What is left open -/

structure RemapCompleteness where
  /-- Every slot has a supplied field. -/
  remapAllFieldsAssigned : Bool
  /-- No drill hierarchy has to be asked for. -/
  remapDrilldownAssigned : Bool
  /-- Both of these. -/
  remapAllDependenciesAssigned : Bool
  deriving DecidableEq, Repr

namespace RemapCompleteness

def evaluate (slots : List Slot) (drilldown : TrackedDrilldown) : RemapCompleteness :=
  let fields := slots.all (·.isAssigned)
  let drill := !drilldown.isMappingRequired
  ⟨fields, drill, fields && drill⟩

def isComplete (completeness : RemapCompleteness) : Bool :=
  completeness.remapAllDependenciesAssigned

end RemapCompleteness

end FieldRemap
