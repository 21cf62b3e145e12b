/-
  FieldRemap.Wire.Workflow — the JSON form of workers' settings, stages and fingerprints.
-/

import FieldRemap.Fingerprint
import FieldRemap.Job.Exchange
import FieldRemap.Workflow.State

namespace FieldRemap

namespace WorkerConfig

def toJson (config : WorkerConfig) : Json :=
  .object [
    ("queue_capacity", .count config.queueCapacity),
    ("thread_name", .text config.threadName)]

def shape : Record WorkerConfig :=
  Record.pure WorkerConfig.mk
    |>.defaulted "queue_capacity" Draft.decodeCount ({} : WorkerConfig).queueCapacity
    |>.defaulted "thread_name" Draft.decodeText ({} : WorkerConfig).threadName

def decode : Draft → Except JsonFault WorkerConfig := shape.decode

end WorkerConfig

namespace RemapState

def toJson (state : RemapState) : Json := .text state.name

def decode : Draft → Except JsonFault RemapState :=
  Draft.decodeWord (order.map (fun state => (state.name, state)))

end RemapState

namespace SpecFingerprint

def toJson (fingerprint : SpecFingerprint) : Json := .text fingerprint.text

def decode (draft : Draft) : Except JsonFault SpecFingerprint :=
  (Draft.decodeText draft).map SpecFingerprint.mk

end SpecFingerprint

end FieldRemap
