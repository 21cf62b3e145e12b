/-
  FieldRemap.Json.Tagged — decoding a value that names its kind.

  One member holds the kind and another the content, in either order. A content that comes
  first is read as a whole and looked at once the kind is known. Other members are passed
  over.
-/

import FieldRemap.Json.Record

namespace FieldRemap

/-- How values of `α` are read from a kind and a content. -/
structure Tagged (κ α : Type) where
  tagName : String
  contentName : String
  tag : Draft → Except JsonFault κ
  content : κ → Draft → Except JsonFault α

namespace Tagged

inductive State (κ α : Type) where
  | empty
  | tag (kind : κ)
  | content (value : Json)
  | complete (value : α)

variable {κ α : Type}

def read (tagged : Tagged κ α) (state : State κ α) (key : String) (value : Draft) :
    Except JsonFault (State κ α) :=
  if key = tagged.tagName then
    match state with
    | .empty => (tagged.tag value).map .tag
    | .content content =>
      (tagged.tag value).bind fun kind =>
        (decodeWhole (tagged.content kind) content).map .complete
    | .tag _ | .complete _ => .error .mismatch
  else if key = tagged.contentName then
    match state with
    | .empty => value.toJson.map .content
    | .tag kind => (tagged.content kind value).map .complete
    | .content _ | .complete _ => .error .mismatch
  else
    match value.passedFault? with
    | some fault => .error fault
    | none => .ok state

def readMembers (tagged : Tagged κ α) (unclosed : Option JsonFault) (state : State κ α) :
    List (Option (Except JsonFault String) × Draft) → Except JsonFault α
  | [] =>
    match unclosed, state with
    | some fault, _ => .error fault
    | none, .complete value => .ok value
    | none, _ => .error .mismatch
  | (none, value) :: _ => .error value.keyRefusal
  | (some (.error fault), _) :: _ => .error fault
  | (some (.ok key), value) :: rest =>
    match tagged.read state key value with
    | .error fault => .error fault
    | .ok state => tagged.readMembers unclosed state rest

def decode (tagged : Tagged κ α) : Draft → Except JsonFault α
  | .object members unclosed => tagged.readMembers unclosed .empty members
  | .array [] unclosed => .error (unclosed.getD .mismatch)
  | .array [kind] unclosed => (tagged.tag kind).bind fun _ => .error (unclosed.getD .mismatch)
  | .array (kind :: content :: rest) unclosed =>
    (tagged.tag kind).bind fun kind =>
      (tagged.content kind content).bind fun value =>
        match rest, unclosed with
        | _ :: _, _ => .error .malformed
        | [], some fault => .error fault
        | [], none => .ok value
  | draft => .error draft.openFault

end Tagged

end FieldRemap
