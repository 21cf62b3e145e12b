/-
  FieldRemap.Report.Overview — what is shown of registries, slots and suggestions.
-/

import FieldRemap.Assignment.Proposal
import FieldRemap.Number.Binary
import FieldRemap.Registry
import FieldRemap.Report.Table

namespace FieldRemap

namespace Table

def countCell (count : Nat) : String :=
  if 0 < count then toString count else "-"

/-- The cells of an entry: its token, or that it is reserved, and its counts. -/
def entryRow (entry : TrackedEntry) : List String :=
  row <| (match entry.placeholder with
    | some token => token.text
    | none => "reserved") ::
  entry.name :: entry.fieldKey :: toString entry.matchCount ::
  UsageKind.all.map (fun kind => countCell (entry.usages.count kind))

/-- The matches of all entries, in a counter of 64 bits. -/
def totalMatches (registry : Registry) : Nat :=
  registry.entries.foldl (fun total entry => (total + entry.matchCount) % wordLimit) 0

/-- The entries of a registry by token, those without one behind, and their totals. -/
def ofRegistry (registry : Registry) : Table where
  columns := ["Placeholder", "Field", "Key"].map (⟨·, .left⟩) ++
    ("Matches" :: UsageKind.all.map (·.name)).map (⟨·, .right⟩)
  rows :=
    (registry.byPlaceholder.map (fun (_, entry) => entryRow entry)) ++
    ((registry.entries.filter (·.placeholder.isNone)).map entryRow) ++
    [["TOTAL", s!"{registry.size} fields", "-", toString (totalMatches registry)] ++
      UsageKind.all.map (fun _ => "-")]

def ofSlots (slots : List Slot) : Table where
  columns := ["Slot", "Name", "Type", "Kind", "Assigned"].map (⟨·, .left⟩)
  rows := slots.map fun slot => row
    [slot.key, slot.name, slot.dataType.name, slot.role.name, slot.suppliedName.getD "unassigned"]

def ofSuggestions (result : AssignmentResult) : Table where
  columns := ["Slot", "Field", "Key"].map (⟨·, .left⟩) ++ [⟨"Confidence", .right⟩]
  rows :=
    (result.suggestions.map fun suggestion => row
      [suggestion.slotKey, suggestion.objectName, suggestion.objectKey,
        suggestion.confidence.fixedText 2]) ++
    (result.unassignedSlots.map fun slot => row [slot, "no match", "-", "-"])

end Table

end FieldRemap
