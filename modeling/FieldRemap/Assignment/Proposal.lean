/-
  FieldRemap.Assignment.Proposal — proposing fields for the open slots of a template.

  A slot takes fields of its own data type. Pairs that are alike enough are taken by
  descending confidence, those of one confidence by slot and then by field, as long as
  neither the slot nor the field is taken.
-/

import FieldRemap.Assignment.Similarity
import FieldRemap.Number.Single
import FieldRemap.Template

namespace FieldRemap

structure Suggestion where
  slotKey : String
  objectKey : String
  objectName : String
  confidence : Single
  deriving DecidableEq, Repr

structure AssignmentResult where
  suggestions : List Suggestion
  unassignedSlots : List String
  deriving DecidableEq, Repr

def defaultConfidence : Single := ⟨0x3F400000⟩

namespace Proposal

/-- What a confidence is multiplied by when a field is of the other role. -/
def roleFactor : Float := 0.85

def confidence (slot : Slot) (field : DatasetField) : Single :=
  let similarity := nameSimilarity slot.name.toList field.name.toList
  .ofFloat (if slot.role = field.role then similarity else similarity * roleFactor)

def admits (slot : Slot) (field : DatasetField) : Bool :=
  !field.isHighlightComponent && field.dataType == slot.dataType

/-- The pairs that are alike enough, by slot and then by field. -/
def candidates (score : Slot → DatasetField → Single) (least : Single) (slots : List Slot)
    (fields : List DatasetField) : List Suggestion :=
  (slots.filter (!·.isAssigned)).flatMap fun slot =>
    (fields.filter (admits slot)).filterMap fun field =>
      let confidence := score slot field
      if least.le confidence then some ⟨slot.key, field.key, field.name, confidence⟩ else none

def rank (candidates : List Suggestion) : List Suggestion :=
  candidates.mergeSort (fun a b => b.confidence.le a.confidence)

/-- Takes each pair whose slot and field are both still free. -/
def choose (slots fields : List String) : List Suggestion → List Suggestion
  | [] => []
  | candidate :: rest =>
    if slots.contains candidate.slotKey || fields.contains candidate.objectKey then
      choose slots fields rest
    else candidate :: choose (candidate.slotKey :: slots) (candidate.objectKey :: fields) rest

def propose (score : Slot → DatasetField → Single) (least : Single) (slots : List Slot)
    (fields : List DatasetField) : AssignmentResult :=
  let suggestions :=
    choose [] (slots.filterMap (·.suppliedKey)) (rank (candidates score least slots fields))
  { suggestions
    unassignedSlots := (slots.filter fun slot =>
      !slot.isAssigned && !suggestions.any (·.slotKey == slot.key)).map (·.key) }

end Proposal

def suggestAssignments (slots : List Slot) (fields : List DatasetField) (least : Single) :
    AssignmentResult :=
  Proposal.propose Proposal.confidence least slots fields

namespace AssignmentResult

/-- Writes suggestions into the first open slot of their key; gives their number too. -/
def applyAll : List Suggestion → List Slot → Nat × List Slot
  | [], slots => (0, slots)
  | suggestion :: rest, slots =>
    match TemplateUsermeta.updateFirst (fun slot => slot.key == suggestion.slotKey && !slot.isAssigned)
        (·.assign suggestion.objectKey suggestion.objectName) slots with
    | some (_, slots) =>
      let (count, slots) := applyAll rest slots
      (count + 1, slots)
    | none => applyAll rest slots

def apply (result : AssignmentResult) (slots : List Slot) : Nat × List Slot :=
  applyAll result.suggestions slots

def leastConfidence? (result : AssignmentResult) : Option Single :=
  match result.suggestions.map (·.confidence) with
  | [] => none
  | first :: rest => some (rest.foldl (fun least x => if least.le x then least else x) first)

end AssignmentResult

end FieldRemap
