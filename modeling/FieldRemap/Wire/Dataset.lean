/-
  FieldRemap.Wire.Dataset — the JSON form of dataset fields.
-/

import FieldRemap.Dataset
import FieldRemap.Json.Record

namespace FieldRemap

def Json.count (n : Nat) : Json := .number (.natural n)

/-- Members with those left out that have no value. -/
def Json.present (members : List (String × Option Json)) : Json :=
  .object (members.filterMap (fun (key, value) => value.map (key, ·)))

namespace DataType

def toJson (type : DataType) : Json := .text type.name

def decode : Draft → Except JsonFault DataType :=
  Draft.decodeWord (all.map (fun type => (type.name, type)))

end DataType

namespace FieldRole

def toJson (role : FieldRole) : Json := .text role.name

def decode : Draft → Except JsonFault FieldRole :=
  Draft.decodeWord (all.map (fun role => (role.name, role)))

end FieldRole

namespace DatasetField

def toJson (field : DatasetField) : Json :=
  .object [
    ("key", .text field.key),
    ("name", .text field.name),
    ("dataType", field.dataType.toJson),
    ("role", field.role.toJson),
    ("isHighlightComponent", .bool field.isHighlightComponent)]

def shape : Record DatasetField :=
  Record.pure DatasetField.mk
    |>.required "key" Draft.decodeText
    |>.required "name" Draft.decodeText
    |>.required "dataType" DataType.decode
    |>.required "role" FieldRole.decode
    |>.defaulted "isHighlightComponent" Draft.decodeBool false

def decode : Draft → Except JsonFault DatasetField := shape.decode

end DatasetField

end FieldRemap
