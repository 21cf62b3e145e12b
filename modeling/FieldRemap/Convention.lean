/-
  FieldRemap.Convention — names that a host derives or reserves.

  Next to the dataset's fields a host offers synthetic ones: some under reserved names, some
  under the name of a measure with a suffix. A convention describes one of either.
-/

import FieldRemap.Reference.Search
import FieldRemap.Usage

namespace FieldRemap

inductive SyntheticKind where
  | highlightValue
  | highlightComparator
  | highlightStatus
  | selectionStatus
  | rowIdentifier
  | drilldown
  | drilldownFlat
  deriving DecidableEq, Repr

namespace SyntheticKind

def all : List SyntheticKind :=
  [.highlightValue, .highlightComparator, .highlightStatus, .selectionStatus, .rowIdentifier,
    .drilldown, .drilldownFlat]

def name : SyntheticKind → String
  | .highlightValue => "highlightValue"
  | .highlightComparator => "highlightComparator"
  | .highlightStatus => "highlightStatus"
  | .selectionStatus => "selectionStatus"
  | .rowIdentifier => "rowIdentifier"
  | .drilldown => "drilldown"
  | .drilldownFlat => "drilldownFlat"

/-- The use it is for a tracked field; drill fields are reported apart from the fields. -/
def usageKind? : SyntheticKind → Option UsageKind
  | .highlightValue => some .crossHighlightValue
  | .highlightComparator => some .crossHighlightComparator
  | .highlightStatus => some .crossHighlightStatus
  | .selectionStatus => some .selectionStatus
  | .rowIdentifier => some .rowIdentifier
  | .drilldown | .drilldownFlat => none

def isDrilldown : SyntheticKind → Bool
  | .drilldown | .drilldownFlat => true
  | _ => false

end SyntheticKind

/-- A reserved name, or a suffix that derives a name from that of a field. -/
inductive Convention where
  | reserved (name : String) (kind : SyntheticKind)
  | derived (suffix : String) (kind : SyntheticKind)
  deriving DecidableEq, Repr

namespace Convention

def kind : Convention → SyntheticKind
  | .reserved _ kind | .derived _ kind => kind

def suffix? : Convention → Option String
  | .reserved .. => none
  | .derived suffix _ => some suffix

def label : Convention → String
  | .reserved name _ => name
  | .derived suffix _ => suffix

def deriveName? (convention : Convention) (base : String) : Option String :=
  convention.suffix?.map (base ++ ·)

def pattern : Convention → NamePattern
  | .reserved name _ => .literal name.toList
  | .derived suffix _ => .derived suffix.toList

/-- The conventions of the host: its reserved names and the suffixes of cross-highlighting. -/
def defaults : List Convention :=
  [.reserved "__identity__" .rowIdentifier,
    .reserved "__selected__" .selectionStatus,
    .reserved "__drilldown__" .drilldown,
    .reserved "__drilldown_flat__" .drilldownFlat,
    .derived "__highlight" .highlightValue,
    .derived "__highlightComparator" .highlightComparator,
    .derived "__highlightStatus" .highlightStatus]

/-- The kind the first convention that reserves `name` gives it. -/
def reservedKind? (conventions : List Convention) (name : String) : Option SyntheticKind :=
  conventions.findSome? fun
    | .reserved taken kind => if taken = name then some kind else none
    | .derived .. => none

def syntheticNames (conventions : List Convention) (base : String) : List (SyntheticKind × String) :=
  conventions.filterMap (fun convention => (convention.deriveName? base).map (convention.kind, ·))

end Convention

end FieldRemap
