/-
  FieldRemap.Export — a specification made into a template.

  The text is tracked and tokenized from scratch; each token becomes a slot. Supplying every
  slot with the field its token was given for is how a template is restored.
-/

import FieldRemap.Remap

namespace FieldRemap

structure TemplateExport where
  specText : String
  usermeta : TemplateUsermeta
  trackedFields : Registry

/-- The slots of a registry's tokens, in order. A field that is not known makes a text column. -/
def buildSlots (tracked : Registry) (fields : List DatasetField) : List Slot :=
  tracked.byPlaceholder.map fun (token, entry) =>
    match fields.find? (·.key == entry.fieldKey) with
    | some field => Slot.new token.text entry.name field.dataType field.role
    | none => Slot.new token.text entry.name .text .column

/-- The slots with the field that owns its token supplied for each. -/
def assignFromTracked (slots : List Slot) (tracked : Registry) : List Slot :=
  slots.map fun slot =>
    match tracked.findByPlaceholder? slot.key with
    | some entry => slot.assign entry.fieldKey entry.name
    | none => slot

def exportTracking (specText : String) (fields : List DatasetField) : TrackingRequest :=
  { specText, knownFields := fields, reset := true }

def exportTemplate (specText : String) (fields : List DatasetField)
    (information : TemplateInformation) : TemplateExport :=
  let tracked := (track (exportTracking specText fields)).trackedFields
  { specText := tokenize { specText, trackedFields := tracked, isRemap := true }
    usermeta := { information, dataset := buildSlots tracked fields }
    trackedFields := tracked }

end FieldRemap
