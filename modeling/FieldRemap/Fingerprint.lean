/-
  FieldRemap.Fingerprint — what an answer was computed from.

  A specification and the fields it was read with have a fingerprint, by which an answer
  that comes after either has changed is recognised. The order of the fields does not
  matter.
-/

import FieldRemap.Dataset
import FieldRemap.Digest.Sha256
import FieldRemap.Text.Number

namespace FieldRemap

structure SpecFingerprint where
  text : String
  deriving DecidableEq, Repr

namespace SpecFingerprint

def pairLe (a b : String × String) : Bool :=
  a.1 < b.1 || (a.1 == b.1 && a.2 ≤ b.2)

def pairs (fields : List DatasetField) : List (String × String) :=
  (fields.map (fun field => (field.key, field.name))).mergeSort pairLe

def bytes (text : String) : List UInt8 :=
  text.toUTF8.toList

/-- The bytes that are digested: the text, and for each field a zero byte, its key, a unit
    separator and its name. -/
def preimage (specText : String) (fields : List DatasetField) : List UInt8 :=
  bytes specText ++
    (pairs fields).flatMap (fun (key, name) => 0 :: bytes key ++ 0x1f :: bytes name)

def compute (specText : String) (fields : List DatasetField) : SpecFingerprint :=
  ⟨String.ofList (hexText (Sha256.digest (preimage specText fields)))⟩

def isOf (fingerprint : SpecFingerprint) (specText : String) (fields : List DatasetField) : Bool :=
  fingerprint == compute specText fields

end SpecFingerprint

end FieldRemap
