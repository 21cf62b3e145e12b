/-
  FieldRemap.Json.Canonical — the form of a value that does not depend on member order.

  Members are sorted by key, and of members with one key the last counts.
-/

import FieldRemap.Json.Value

namespace FieldRemap

/-- The members of which no later one has the same key. -/
def latest {α : Type} : List (String × α) → List (String × α)
  | [] => []
  | member :: rest => if rest.any (·.1 == member.1) then latest rest else member :: latest rest

def latestByKey {α : Type} (members : List (String × α)) : List (String × α) :=
  (latest members).mergeSort (fun a b => a.1 ≤ b.1)

namespace Json

mutual

/-- A value with the members of every object sorted, each key once. -/
def canonical : Json → Json
  | .array items => .array (canonicalItems items)
  | .object members => .object (latestByKey (canonicalMembers members))
  | value => value

def canonicalItems : List Json → List Json
  | [] => []
  | item :: rest => canonical item :: canonicalItems rest

def canonicalMembers : List (String × Json) → List (String × Json)
  | [] => []
  | (key, value) :: rest => (key, canonical value) :: canonicalMembers rest

end

end Json

end FieldRemap
