/-
  FieldRemap.Json.Draft — a JSON document read as far as it goes.

  Reading a document for a purpose stops at the first fault in the order of the text, and
  whether something is a fault depends on the purpose: a value nobody asked for is passed
  over without looking into its strings. A draft is a document read without a purpose. It
  keeps every value in its place and, where reading cannot go on, what kind of fault stands
  there; the decoders then meet the faults in order.
-/

import FieldRemap.Json.Value

namespace FieldRemap

inductive JsonFault where
  | malformed
  | truncated
  | mismatch
  deriving DecidableEq, Repr

/-- A JSON value, or what stands in its place. -/
inductive Draft where
  | absent
  | stray
  /-- A word, number or string that breaks off, with the fault it is when it is read and the
      one it is when it is passed over. -/
  | broken (isText : Bool) (read passed : JsonFault)
  /-- A number too large or a string that spells no characters: a fault only when read. -/
  | unreadable
  | null
  | bool (value : Bool)
  | number (value : JsonNumber)
  | text (value : String)
  /-- The items up to a fault in one, or up to where the closing bracket is missing. -/
  | array (items : List Draft) (unclosed : Option JsonFault)
  /-- The members, in the same way. A member whose key is not a string has no key; one whose
      key cannot be read has the fault instead. -/
  | object (members : List (Option (Except JsonFault String) × Draft)) (unclosed : Option JsonFault)
  /-- An object without members in a value that has been read as a whole. It may stand for
      nothing as well. -/
  | hollow
  /-- A natural number in a value that has been read as a whole. It may stand for the tag at
      that place among several as well. -/
  | ordinal (n : Nat)
  /-- An array or object below the deepest level that is read. -/
  | deep (inner : Draft)

namespace Draft

instance : Inhabited Draft := ⟨.absent⟩

def refusal : Draft → JsonFault
  | .absent => .truncated
  | .stray | .unreadable => .malformed
  | .broken _ read _ => read
  | _ => .mismatch

def keyRefusal : Draft → JsonFault
  | .absent => .truncated
  | _ => .malformed

mutual

def passedFault? : Draft → Option JsonFault
  | .absent => some .truncated
  | .stray => some .malformed
  | .broken _ _ passed => some passed
  | .array items unclosed => passedItemsFault? unclosed items
  | .object members unclosed => passedMembersFault? unclosed members
  | .deep inner => passedFault? inner
  | .unreadable | .null | .bool _ | .number _ | .text _ | .hollow | .ordinal _ => none

def passedItemsFault? (unclosed : Option JsonFault) : List Draft → Option JsonFault
  | [] => unclosed
  | item :: rest =>
    match passedFault? item with
    | some fault => some fault
    | none => passedItemsFault? unclosed rest

def passedMembersFault? (unclosed : Option JsonFault) :
    List (Option (Except JsonFault String) × Draft) → Option JsonFault
  | [] => unclosed
  | (none, value) :: _ => some value.keyRefusal
  | (some _, value) :: rest =>
    match passedFault? value with
    | some fault => some fault
    | none => passedMembersFault? unclosed rest

end

mutual

/-- The value, when it is read as it is, or the first fault in it. -/
def toJson : Draft → Except JsonFault Json
  | .null => .ok .null
  | .bool value => .ok (.bool value)
  | .number value => .ok (.number value)
  | .text value => .ok (.text value)
  | .array items unclosed =>
    match itemsToJson items, unclosed with
    | .error fault, _ => .error fault
    | .ok _, some fault => .error fault
    | .ok items, none => .ok (.array items)
  | .object members unclosed =>
    match membersToJson members, unclosed with
    | .error fault, _ => .error fault
    | .ok _, some fault => .error fault
    | .ok members, none => .ok (.object members)
  | .hollow => .ok (.object [])
  | .ordinal n => .ok (.number (.natural n))
  | .absent => .error .truncated
  | .stray | .unreadable | .deep _ => .error .malformed
  | .broken _ read _ => .error read

def itemsToJson : List Draft → Except JsonFault (List Json)
  | [] => .ok []
  | item :: rest =>
    match toJson item with
    | .error fault => .error fault
    | .ok item => (itemsToJson rest).map (item :: ·)

def membersToJson :
    List (Option (Except JsonFault String) × Draft) → Except JsonFault (List (String × Json))
  | [] => .ok []
  | (none, value) :: _ => .error value.keyRefusal
  | (some (.error fault), _) :: _ => .error fault
  | (some (.ok key), value) :: rest =>
    match toJson value with
    | .error fault => .error fault
    | .ok value => (membersToJson rest).map ((key, value) :: ·)

end

mutual

def ofJson : Json → Draft
  | .null => .null
  | .bool value => .bool value
  | .number value => .number value
  | .text value => .text value
  | .array items => .array (ofItems items) none
  | .object members => .object (ofMembers members) none

def ofItems : List Json → List Draft
  | [] => []
  | item :: rest => ofJson item :: ofItems rest

def ofMembers : List (String × Json) → List (Option (Except JsonFault String) × Draft)
  | [] => []
  | (key, value) :: rest => (some (.ok key), ofJson value) :: ofMembers rest

end

mutual

def ofWhole : Json → Draft
  | .number (.natural n) => .ordinal n
  | .array items => .array (ofWholeItems items) none
  | .object [] => .hollow
  | .object members => .object (ofWholeMembers members) none
  | value => ofJson value

def ofWholeItems : List Json → List Draft
  | [] => []
  | item :: rest => ofWhole item :: ofWholeItems rest

def ofWholeMembers : List (String × Json) → List (Option (Except JsonFault String) × Draft)
  | [] => []
  | (key, value) :: rest => (some (.ok key), ofWhole value) :: ofWholeMembers rest

end

end Draft

end FieldRemap
