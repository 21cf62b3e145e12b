/-
  FieldRemap.Wire.Convention — the JSON form of naming conventions.

  The member `form` says whether a convention reserves a name or derives names by a suffix.
  It may stand anywhere among the members, so they are read as a whole before the rest of
  the convention is made of them.
-/

import FieldRemap.Convention
import FieldRemap.Wire.Dataset

namespace FieldRemap

namespace SyntheticKind

def toJson (kind : SyntheticKind) : Json := .text kind.name

def decode : Draft → Except JsonFault SyntheticKind :=
  Draft.decodeWord (all.map (fun kind => (kind.name, kind)))

end SyntheticKind

inductive ConventionForm where
  | reserved
  | suffix
  deriving DecidableEq, Repr

namespace ConventionForm

def name : ConventionForm → String
  | .reserved => "reserved"
  | .suffix => "suffix"

def all : List ConventionForm := [.reserved, .suffix]

/-- Decodes the tag. It has to be a text, unless the convention has been read as a whole: then
    the tag may be given by its place as well. -/
def decode : Draft → Except JsonFault ConventionForm
  | .ordinal n =>
    match all[n]? with
    | some form => .ok form
    | none => .error .mismatch
  | draft => (Draft.decodeText draft).bind (Draft.lookUpWord (all.map (fun form => (form.name, form))))

def content : ConventionForm → Record Convention
  | .reserved =>
    Record.pure Convention.reserved
      |>.required "name" Draft.decodeText
      |>.required "kind" SyntheticKind.decode
  | .suffix =>
    Record.pure Convention.derived
      |>.required "suffix" Draft.decodeText
      |>.required "kind" SyntheticKind.decode

end ConventionForm

namespace Convention

def toJson : Convention → Json
  | .reserved name kind =>
    .object [("form", .text ConventionForm.reserved.name), ("name", .text name), ("kind", kind.toJson)]
  | .derived suffix kind =>
    .object [("form", .text ConventionForm.suffix.name), ("suffix", .text suffix), ("kind", kind.toJson)]

/-- Finds the tag among the members, the others being read as they are. -/
def gather (unclosed : Option JsonFault) (form : Option ConventionForm) (content : List (String × Json)) :
    List (Option (Except JsonFault String) × Draft) →
    Except JsonFault (Option ConventionForm × List (String × Json))
  | [] =>
    match unclosed with
    | some fault => .error fault
    | none => .ok (form, content.reverse)
  | (none, value) :: _ => .error value.keyRefusal
  | (some (.error fault), _) :: _ => .error fault
  | (some (.ok key), value) :: rest =>
    if key = "form" then
      if form.isSome then .error .mismatch
      else (ConventionForm.decode value).bind fun form => gather unclosed (some form) content rest
    else value.toJson.bind fun value => gather unclosed form ((key, value) :: content) rest

def decode : Draft → Except JsonFault Convention
  | .object members unclosed =>
    (gather unclosed none [] members).bind fun (form, content) =>
      match form with
      | some form => decodeWhole form.content.decode (.object content)
      | none => .error .mismatch
  | .array items unclosed =>
    match items with
    | [] => .error (unclosed.getD .mismatch)
    | tag :: content =>
      (ConventionForm.decode tag).bind fun form =>
        (Draft.array content unclosed).toJson.bind (decodeWhole form.content.decode)
  | draft => .error draft.openFault

end Convention

end FieldRemap
