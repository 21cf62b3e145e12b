/-
  FieldRemap.Json.Record — decoding values of known shape.

  A record has named fields. It is written as an object and may also be read from an array
  of its fields in order. Reading takes the members as they come: a field given twice is a
  mismatch at its second key, a member of no field is passed over, and fields that are
  missing are looked at last.

  A record that carries a tag is read from a value that has been read as a whole; what its
  content does not satisfy is then always a mismatch.
-/

import FieldRemap.Json.Draft

namespace FieldRemap

namespace Draft

def decodeText : Draft → Except JsonFault String
  | .text value => .ok value
  | draft => .error draft.refusal

def decodeBool : Draft → Except JsonFault Bool
  | .bool value => .ok value
  | draft => .error draft.refusal

def decodeCount : Draft → Except JsonFault Nat
  | .number (.natural n) | .ordinal n => .ok n
  | draft => .error draft.refusal

def decodeOption {α : Type} (decode : Draft → Except JsonFault α) : Draft → Except JsonFault (Option α)
  | .null => .ok none
  | draft => (decode draft).map some

def openFault : Draft → JsonFault
  | .deep _ => .malformed
  | draft => draft.refusal

def decodeList {α : Type} (decode : Draft → Except JsonFault α) : Draft → Except JsonFault (List α)
  | .array items unclosed =>
    match items.mapM decode, unclosed with
    | .error fault, _ => .error fault
    | .ok _, some fault => .error fault
    | .ok values, none => .ok values
  | draft => .error draft.openFault

def decodeMembers {α : Type} (decodeKey : String → Except JsonFault α) {β : Type}
    (decode : Draft → Except JsonFault β) (unclosed : Option JsonFault) :
    List (Option (Except JsonFault String) × Draft) → Except JsonFault (List (α × β))
  | [] => match unclosed with
    | some fault => .error fault
    | none => .ok []
  | (none, value) :: _ => .error value.keyRefusal
  | (some (.error fault), _) :: _ => .error fault
  | (some (.ok key), value) :: rest =>
    match decodeKey key with
    | .error fault => .error fault
    | .ok key =>
      match decode value with
      | .error fault => .error fault
      | .ok value => (decodeMembers decodeKey decode unclosed rest).map ((key, value) :: ·)

def decodeEntries {α β : Type} (decodeKey : String → Except JsonFault α)
    (decode : Draft → Except JsonFault β) : Draft → Except JsonFault (List (α × β))
  | .object members unclosed => decodeMembers decodeKey decode unclosed members
  | .hollow => .ok []
  | draft => .error draft.openFault

def lookUpWord {α : Type} (words : List (String × α)) (word : String) : Except JsonFault α :=
  match words.find? (·.1 == word) with
  | some (_, value) => .ok value
  | none => .error .mismatch

/-- Decodes one of several words. A word alone and an object of one member, the word with the
    value null or with nothing, mean the same. -/
def decodeWord {α : Type} (words : List (String × α)) : Draft → Except JsonFault α
  | .text word => lookUpWord words word
  | .broken true read _ => .error read
  | .object [] unclosed => .error (unclosed.getD .malformed)
  | .object ((none, key) :: _) _ =>
    -- what stands in place of the word is taken for one
    .error key.refusal
  | .object ((some (.error fault), _) :: _) _ => .error fault
  | .object ((some (.ok word), value) :: rest) unclosed =>
    match lookUpWord words word with
    | .error fault => .error fault
    | .ok result =>
      match value with
      | .null | .hollow =>
        match rest, unclosed with
        | [], none => .ok result
        | [], some fault => .error fault
        | _ :: _, _ => .error .malformed
      | value => .error value.refusal
  | .absent => .error .truncated
  | _ => .error .malformed

end Draft

/-- A record that reads to a value of `α`, field by field. -/
structure Record (α : Type) where
  State : Type
  start : State
  names : List String
  /-- Reads the value of a field, `none` when there is no field of that name. -/
  read : State → String → Draft → Option (Except JsonFault State)
  finish : State → Except JsonFault α

namespace Record

variable {α β : Type}

def pure (value : α) : Record α where
  State := Unit
  start := ()
  names := []
  read _ _ _ := none
  finish _ := .ok value

def field (name : String) (decode : Draft → Except JsonFault α) (default : Option α := none) :
    Record α where
  State := Option α
  start := none
  names := [name]
  read state key value :=
    if key = name then
      some (match state with
        | some _ => .error .mismatch
        | none => (decode value).map some)
    else none
  finish state :=
    match state, default with
    | some value, _ => .ok value
    | none, some value => .ok value
    | none, none => .error .mismatch

def app (function : Record (α → β)) (argument : Record α) : Record β where
  State := function.State × argument.State
  start := (function.start, argument.start)
  names := function.names ++ argument.names
  read state key value :=
    match function.read state.1 key value with
    | some result => some (result.map (·, state.2))
    | none => (argument.read state.2 key value).map (·.map (state.1, ·))
  finish state :=
    match function.finish state.1, argument.finish state.2 with
    | .error fault, _ => .error fault
    | .ok _, .error fault => .error fault
    | .ok f, .ok x => .ok (f x)

def required (function : Record (α → β)) (name : String) (decode : Draft → Except JsonFault α) :
    Record β :=
  function.app (field name decode)

def defaulted (function : Record (α → β)) (name : String) (decode : Draft → Except JsonFault α)
    (default : α) : Record β :=
  function.app (field name decode (some default))

def optional (function : Record (Option α → β)) (name : String)
    (decode : Draft → Except JsonFault α) : Record β :=
  function.app (field name (Draft.decodeOption decode) (some none))

def readItems (record : Record α) (state : record.State) : List (String × Draft) → Except JsonFault record.State
  | [] => .ok state
  | (name, value) :: rest =>
    match record.read state name value with
    | some (.error fault) => .error fault
    | some (.ok state) => record.readItems state rest
    | none => record.readItems state rest

def readMembers (record : Record α) (unclosed : Option JsonFault) (state : record.State) :
    List (Option (Except JsonFault String) × Draft) → Except JsonFault record.State
  | [] =>
    match unclosed with
    | some fault => .error fault
    | none => .ok state
  | (none, value) :: _ => .error value.keyRefusal
  | (some (.error fault), _) :: _ => .error fault
  | (some (.ok key), value) :: rest =>
    match record.read state key value with
    | some (.error fault) => .error fault
    | some (.ok state) => record.readMembers unclosed state rest
    | none =>
      match value.passedFault? with
      | some fault => .error fault
      | none => record.readMembers unclosed state rest

def decodeObject (record : Record α) : Draft → Except JsonFault α
  | .object members unclosed => (record.readMembers unclosed record.start members).bind record.finish
  | .hollow => record.finish record.start
  | draft => .error draft.openFault

/-- Decodes an array of the fields; fields at the end that have defaults may be left out. -/
def decodeArray (record : Record α) (items : List Draft) (unclosed : Option JsonFault) :
    Except JsonFault α :=
  match record.readItems record.start (record.names.zip items) with
  | .error fault => .error fault
  | .ok state =>
    if record.names.length < items.length then .error .malformed
    else
      match unclosed with
      | some fault => .error fault
      | none => record.finish state

def decode (record : Record α) : Draft → Except JsonFault α
  | .array items unclosed => record.decodeArray items unclosed
  | draft => record.decodeObject draft

end Record

/-- Decodes a value that has been read as a whole; every fault is a mismatch. -/
def decodeWhole {α : Type} (decode : Draft → Except JsonFault α) (value : Json) : Except JsonFault α :=
  match decode (.ofWhole value) with
  | .ok result => .ok result
  | .error _ => .error .mismatch

end FieldRemap
