/-
  FieldRemap.Registry — the fields a specification refers to.

  An entry holds a field's key and name, its placeholder if it has one, and how often it is
  referred to. A registry holds at most one entry for a key, in ascending key order, and no
  entry without a match: these two facts are part of the type.
-/

import FieldRemap.Placeholder
import FieldRemap.Usage

namespace FieldRemap

structure TrackedEntry where
  fieldKey : String
  name : String
  /-- The token of the field in a template; a reserved field has none. -/
  placeholder : Option Placeholder := none
  matchCount : Nat := 0
  usages : Usages := {}
  deriving DecidableEq

namespace TrackedEntry

def record (entry : TrackedEntry) (kind : UsageKind) : TrackedEntry :=
  { entry with usages := entry.usages.record kind, matchCount := entry.matchCount + 1 }

def usageKind? (entry : TrackedEntry) : Option UsageKind :=
  entry.usages.primary?

def isTokenizable (entry : TrackedEntry) : Bool :=
  entry.placeholder.isSome

end TrackedEntry

def insertByKey (entry : TrackedEntry) : List TrackedEntry → List TrackedEntry
  | [] => [entry]
  | other :: rest =>
    if entry.fieldKey < other.fieldKey then entry :: other :: rest
    else if entry.fieldKey = other.fieldKey then entry :: rest
    else other :: insertByKey entry rest

theorem mem_insertByKey {entry x : TrackedEntry} {entries : List TrackedEntry}
    (h : x ∈ insertByKey entry entries) : x = entry ∨ x ∈ entries := by
  induction entries with
  | nil => simpa [insertByKey] using h
  | cons other rest ih =>
    unfold insertByKey at h
    split at h
    · simpa using h
    · split at h
      · rcases List.mem_cons.1 h with h | h
        · exact .inl h
        · exact .inr (List.mem_cons_of_mem _ h)
      · rcases List.mem_cons.1 h with h | h
        · exact .inr (h ▸ List.mem_cons_self)
        · exact (ih h).imp id (List.mem_cons_of_mem _)

/-- Two keys that are neither equal nor ascending descend. -/
theorem key_lt_of_not_lt_of_ne {a b : String} (h : ¬ a < b) (hne : a ≠ b) : b < a := by
  rcases String.le_total a b with hab | hba
  · exact absurd (String.le_antisymm hab (String.not_lt.1 h)) hne
  · exact String.not_le.1 (fun hab => hne (String.le_antisymm hab hba))

theorem pairwise_insertByKey (entry : TrackedEntry) {entries : List TrackedEntry}
    (h : entries.Pairwise (fun a b => a.fieldKey < b.fieldKey)) :
    (insertByKey entry entries).Pairwise (fun a b => a.fieldKey < b.fieldKey) := by
  induction entries with
  | nil => simp [insertByKey]
  | cons other rest ih =>
    obtain ⟨hother, hrest⟩ := List.pairwise_cons.1 h
    unfold insertByKey
    split
    · next hlt =>
      refine List.pairwise_cons.2 ⟨fun x hx => ?_, h⟩
      rcases List.mem_cons.1 hx with rfl | hx
      · exact hlt
      · exact String.lt_trans hlt (hother x hx)
    · split
      · next heq =>
        exact List.pairwise_cons.2 ⟨fun x hx => heq ▸ hother x hx, hrest⟩
      · next hlt heq =>
        refine List.pairwise_cons.2 ⟨fun x hx => ?_, ih hrest⟩
        rcases mem_insertByKey hx with rfl | hx
        · exact key_lt_of_not_lt_of_ne hlt heq
        · exact hother x hx

/-- The entries of a specification, by ascending key. -/
structure Registry where
  entries : List TrackedEntry
  ascending : entries.Pairwise (fun a b => a.fieldKey < b.fieldKey)
  matched : ∀ entry ∈ entries, 0 < entry.matchCount
  deriving DecidableEq

namespace Registry

def empty : Registry := ⟨[], .nil, by simp⟩

instance : Inhabited Registry := ⟨empty⟩

/-- The registry with an entry added in place of an older one of its key, or `none` when the
    entry has no match. -/
def insert? (registry : Registry) (entry : TrackedEntry) : Option Registry :=
  if h : 0 < entry.matchCount then
    some {
      entries := insertByKey entry registry.entries
      ascending := pairwise_insertByKey entry registry.ascending
      matched := fun x hx => (mem_insertByKey hx).elim (fun e => e ▸ h) (registry.matched x) }
  else none

def insert (registry : Registry) (entry : TrackedEntry) : Registry :=
  (registry.insert? entry).getD registry

/-- The registry of a list of entries: of two with one key the later stays. -/
def ofEntries (entries : List TrackedEntry) : Registry :=
  entries.foldl insert empty

def get? (registry : Registry) (key : String) : Option TrackedEntry :=
  registry.entries.find? (·.fieldKey == key)

def contains (registry : Registry) (key : String) : Bool :=
  (registry.get? key).isSome

def size (registry : Registry) : Nat := registry.entries.length

def keys (registry : Registry) : List String := registry.entries.map (·.fieldKey)

def placeholders (registry : Registry) : List Placeholder :=
  Placeholder.sortDistinct (registry.entries.filterMap (·.placeholder))

/-- The first entry, by key, whose token is written `token`. -/
def findByPlaceholder? (registry : Registry) (token : String) : Option TrackedEntry :=
  registry.entries.find? (fun entry => entry.placeholder.any (·.text == token))

/-- The entries that have a token, with it, by token; entries of one token by key. -/
def byPlaceholder (registry : Registry) : List (Placeholder × TrackedEntry) :=
  (registry.entries.filterMap (fun entry => entry.placeholder.map (·, entry))).mergeSort
    (fun a b => a.1.le b.1)

end Registry

/-- Whether a specification uses a drill field, and whether a hierarchy has to be asked for. -/
structure TrackedDrilldown where
  isCurrent : Bool := false
  isMappingRequired : Bool := false
  deriving DecidableEq, Repr

/-- A drill field in use asks for a hierarchy when none is bound. -/
def TrackedDrilldown.evaluate (isCurrent hasDrilldown : Bool) : TrackedDrilldown :=
  ⟨isCurrent, isCurrent && !hasDrilldown⟩

end FieldRemap
