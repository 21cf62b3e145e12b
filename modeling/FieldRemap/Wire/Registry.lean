/-
  FieldRemap.Wire.Registry — the JSON form of tracked fields.

  A registry is written as an object of its entries under their keys. When it is read the
  entries alone count: they are taken by ascending member key and go where their own keys
  put them.
-/

import FieldRemap.Json.Canonical
import FieldRemap.Registry
import FieldRemap.Wire.Dataset

namespace FieldRemap

namespace Placeholder

def toJson (token : Placeholder) : Json := .text token.text

def decode (draft : Draft) : Except JsonFault Placeholder :=
  (Draft.decodeText draft).bind fun text =>
    match parse? text with
    | some token => .ok token
    | none => .error .mismatch

end Placeholder

namespace UsageKind

def words : List (String × UsageKind) := all.map (fun kind => (kind.name, kind))

def decode : Draft → Except JsonFault UsageKind := Draft.decodeWord words

end UsageKind

namespace Usages

def toJson (usages : Usages) : Json :=
  .object (usages.toList.map (fun (kind, count) => (kind.name, .count count)))

def decode (draft : Draft) : Except JsonFault Usages :=
  (draft.decodeEntries (Draft.lookUpWord UsageKind.words) Draft.decodeCount).map
    (·.foldl (fun usages (kind, count) => usages.set kind count) {})

end Usages

namespace TrackedEntry

def toJson (entry : TrackedEntry) : Json :=
  .present [
    ("fieldKey", some (.text entry.fieldKey)),
    ("name", some (.text entry.name)),
    ("placeholder", entry.placeholder.map Placeholder.toJson),
    ("matchCount", some (.count entry.matchCount)),
    ("usages", some entry.usages.toJson)]

def shape : Record TrackedEntry :=
  Record.pure TrackedEntry.mk
    |>.required "fieldKey" Draft.decodeText
    |>.required "name" Draft.decodeText
    |>.optional "placeholder" Placeholder.decode
    |>.required "matchCount" Draft.decodeCount
    |>.defaulted "usages" Usages.decode {}

def decode : Draft → Except JsonFault TrackedEntry := shape.decode

end TrackedEntry

namespace Registry

def toJson (registry : Registry) : Json :=
  .object (registry.entries.map (fun entry => (entry.fieldKey, entry.toJson)))

def decode (draft : Draft) : Except JsonFault Registry :=
  (draft.decodeEntries Except.ok TrackedEntry.decode).map
    (fun members => .ofEntries ((latestByKey members).map (·.2)))

end Registry

namespace TrackedDrilldown

def toJson (drilldown : TrackedDrilldown) : Json :=
  .object [
    ("isCurrent", .bool drilldown.isCurrent),
    ("isMappingRequired", .bool drilldown.isMappingRequired)]

def shape : Record TrackedDrilldown :=
  Record.pure TrackedDrilldown.mk
    |>.required "isCurrent" Draft.decodeBool
    |>.required "isMappingRequired" Draft.decodeBool

def decode : Draft → Except JsonFault TrackedDrilldown := shape.decode

end TrackedDrilldown

end FieldRemap
