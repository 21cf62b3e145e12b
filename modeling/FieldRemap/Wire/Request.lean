/-
  FieldRemap.Wire.Request — the JSON form of what passes are asked and what they answer.
-/

import FieldRemap.Remap
import FieldRemap.Wire.Convention
import FieldRemap.Wire.Registry
import FieldRemap.Wire.Template

namespace FieldRemap

namespace TrackingRequest

def toJson (request : TrackingRequest) : Json :=
  .object [
    ("specText", .text request.specText),
    ("knownFields", .array (request.knownFields.map DatasetField.toJson)),
    ("previousTrackedFields", request.previousTrackedFields.toJson),
    ("hasDrilldown", .bool request.hasDrilldown),
    ("supplementaryPatterns", .array (request.supplementaryPatterns.map Convention.toJson)),
    ("reset", .bool request.reset)]

def shape : Record TrackingRequest :=
  Record.pure TrackingRequest.mk
    |>.required "specText" Draft.decodeText
    |>.required "knownFields" (Draft.decodeList DatasetField.decode)
    |>.defaulted "previousTrackedFields" Registry.decode .empty
    |>.defaulted "hasDrilldown" Draft.decodeBool false
    |>.defaulted "supplementaryPatterns" (Draft.decodeList Convention.decode) Convention.defaults
    |>.defaulted "reset" Draft.decodeBool false

def decode : Draft → Except JsonFault TrackingRequest := shape.decode

end TrackingRequest

namespace TrackingResponse

def toJson (response : TrackingResponse) : Json :=
  .object [
    ("trackedFields", response.trackedFields.toJson),
    ("trackedDrilldown", response.trackedDrilldown.toJson)]

def shape : Record TrackingResponse :=
  Record.pure TrackingResponse.mk
    |>.required "trackedFields" Registry.decode
    |>.required "trackedDrilldown" TrackedDrilldown.decode

def decode : Draft → Except JsonFault TrackingResponse := shape.decode

end TrackingResponse

namespace TokenizationRequest

def toJson (request : TokenizationRequest) : Json :=
  .object [
    ("specText", .text request.specText),
    ("trackedFields", request.trackedFields.toJson),
    ("supplementaryReplacers", .array (request.supplementaryReplacers.map Convention.toJson)),
    ("isRemap", .bool request.isRemap)]

def shape : Record TokenizationRequest :=
  Record.pure TokenizationRequest.mk
    |>.required "specText" Draft.decodeText
    |>.required "trackedFields" Registry.decode
    |>.defaulted "supplementaryReplacers" (Draft.decodeList Convention.decode) Convention.defaults
    |>.defaulted "isRemap" Draft.decodeBool false

def decode : Draft → Except JsonFault TokenizationRequest := shape.decode

end TokenizationRequest

namespace RemappingRequest

def toJson (request : RemappingRequest) : Json :=
  .object [
    ("tokenizedSpecText", .text request.tokenizedSpecText),
    ("remapFields", .array (request.remapFields.map Slot.toJson)),
    ("trackedFields", request.trackedFields.toJson),
    ("supplementaryReplacers", .array (request.supplementaryReplacers.map Convention.toJson))]

def shape : Record RemappingRequest :=
  Record.pure RemappingRequest.mk
    |>.required "tokenizedSpecText" Draft.decodeText
    |>.required "remapFields" (Draft.decodeList Slot.decode)
    |>.defaulted "trackedFields" Registry.decode .empty
    |>.defaulted "supplementaryReplacers" (Draft.decodeList Convention.decode) Convention.defaults

def decode : Draft → Except JsonFault RemappingRequest := shape.decode

end RemappingRequest

namespace RemapCompleteness

def toJson (completeness : RemapCompleteness) : Json :=
  .object [
    ("remapAllFieldsAssigned", .bool completeness.remapAllFieldsAssigned),
    ("remapDrilldownAssigned", .bool completeness.remapDrilldownAssigned),
    ("remapAllDependenciesAssigned", .bool completeness.remapAllDependenciesAssigned)]

def shape : Record RemapCompleteness :=
  Record.pure RemapCompleteness.mk
    |>.required "remapAllFieldsAssigned" Draft.decodeBool
    |>.required "remapDrilldownAssigned" Draft.decodeBool
    |>.required "remapAllDependenciesAssigned" Draft.decodeBool

def decode : Draft → Except JsonFault RemapCompleteness := shape.decode

end RemapCompleteness

end FieldRemap
