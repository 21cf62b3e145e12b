/-
  FieldRemap.Wire.Suggestion — the JSON form of suggestions, and of confidences.

  A confidence is written with the fewest digits that identify it, and read by way of 64 bits.
-/

import FieldRemap.Assignment.Proposal
import FieldRemap.Json.Numeral
import FieldRemap.Wire.Template

namespace FieldRemap

namespace Single

/-- A number with a fraction; an exponent, with its sign, from the fourteenth place on and
    behind the sixth zero. -/
def jsonNotation : DecimalNotation := ⟨fun place => -5 ≤ place && place ≤ 13, true, true, true⟩

/-- A number; what is not finite is null. -/
def toJson (x : Single) : Json :=
  match x.value with
  | .finite .. => .number (.numeral (jsonNotation.write .single x.value))
  | _ => .null

def ofJsonNumber : JsonNumber → Single
  | .natural n => ofBits (BinaryFormat.single.nearest n 1)
  | .negative n => ofBits (BinaryFormat.single.signed true (BinaryFormat.single.nearest n 1))
  | .numeral text =>
    match Numeral.read (text.map some) with
    | .ok (numeral, _) => ofDouble (numeral.toDouble?.getD 0)
    | .error _ => zero

def decode : Draft → Except JsonFault Single
  | .number n => .ok (ofJsonNumber n)
  | .ordinal n => .ok (ofJsonNumber (.natural n))
  | draft => .error draft.refusal

end Single

namespace Suggestion

def toJson (suggestion : Suggestion) : Json :=
  .object [
    ("slotKey", .text suggestion.slotKey),
    ("objectKey", .text suggestion.objectKey),
    ("objectName", .text suggestion.objectName),
    ("confidence", suggestion.confidence.toJson)]

def shape : Record Suggestion :=
  Record.pure Suggestion.mk
    |>.required "slotKey" Draft.decodeText
    |>.required "objectKey" Draft.decodeText
    |>.required "objectName" Draft.decodeText
    |>.required "confidence" Single.decode

def decode : Draft → Except JsonFault Suggestion := shape.decode

end Suggestion

namespace AssignmentResult

def toJson (result : AssignmentResult) : Json :=
  .object [
    ("suggestions", .array (result.suggestions.map Suggestion.toJson)),
    ("unassignedSlots", .array (result.unassignedSlots.map .text))]

def shape : Record AssignmentResult :=
  Record.pure AssignmentResult.mk
    |>.required "suggestions" (Draft.decodeList Suggestion.decode)
    |>.required "unassignedSlots" (Draft.decodeList Draft.decodeText)

def decode : Draft → Except JsonFault AssignmentResult := shape.decode

end AssignmentResult

end FieldRemap
