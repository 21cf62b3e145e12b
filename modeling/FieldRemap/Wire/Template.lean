/-
  FieldRemap.Wire.Template — the JSON form of what a template says about itself.
-/

import FieldRemap.Template
import FieldRemap.Wire.Dataset

namespace FieldRemap

namespace Slot

def toJson (slot : Slot) : Json :=
  .present [
    ("key", some (.text slot.key)),
    ("name", some (.text slot.name)),
    ("namePlaceholder", some (.text slot.namePlaceholder)),
    ("description", some (.text slot.description)),
    ("type", some slot.dataType.toJson),
    ("kind", some slot.role.toJson),
    ("suppliedObjectKey", slot.suppliedKey.map .text),
    ("suppliedObjectName", slot.suppliedName.map .text)]

def shape : Record Slot :=
  Record.pure Slot.mk
    |>.required "key" Draft.decodeText
    |>.required "name" Draft.decodeText
    |>.defaulted "namePlaceholder" Draft.decodeText ""
    |>.defaulted "description" Draft.decodeText ""
    |>.required "type" DataType.decode
    |>.required "kind" FieldRole.decode
    |>.optional "suppliedObjectKey" Draft.decodeText
    |>.optional "suppliedObjectName" Draft.decodeText

def decode : Draft → Except JsonFault Slot := shape.decode

end Slot

namespace TemplateInformation

def toJson (information : TemplateInformation) : Json :=
  .present [
    ("name", some (.text information.name)),
    ("description", some (.text information.description)),
    ("author", some (.text information.author)),
    ("uuid", information.uuid.map .text)]

def shape : Record TemplateInformation :=
  Record.pure TemplateInformation.mk
    |>.required "name" Draft.decodeText
    |>.defaulted "description" Draft.decodeText ""
    |>.defaulted "author" Draft.decodeText ""
    |>.optional "uuid" Draft.decodeText

def decode : Draft → Except JsonFault TemplateInformation := shape.decode

end TemplateInformation

namespace TemplateUsermeta

def toJson (usermeta : TemplateUsermeta) : Json :=
  .object [
    ("information", usermeta.information.toJson),
    ("dataset", .array (usermeta.dataset.map Slot.toJson))]

def shape : Record TemplateUsermeta :=
  Record.pure TemplateUsermeta.mk
    |>.required "information" TemplateInformation.decode
    |>.defaulted "dataset" (Draft.decodeList Slot.decode) []

def decode : Draft → Except JsonFault TemplateUsermeta := shape.decode

end TemplateUsermeta

end FieldRemap
