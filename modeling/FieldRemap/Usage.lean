/-
  FieldRemap.Usage — how often a field is used, by kind of use.

  Kinds are ordered with direct use first; the first kind present is a field's primary use.
-/

namespace FieldRemap

inductive UsageKind where
  /-- By the field's own name. -/
  | direct
  | crossHighlightValue
  | crossHighlightComparator
  | crossHighlightStatus
  | selectionStatus
  | rowIdentifier
  deriving DecidableEq, Repr

namespace UsageKind

def all : List UsageKind :=
  [.direct, .crossHighlightValue, .crossHighlightComparator, .crossHighlightStatus,
    .selectionStatus, .rowIdentifier]

def name : UsageKind → String
  | .direct => "direct"
  | .crossHighlightValue => "crossHighlightValue"
  | .crossHighlightComparator => "crossHighlightComparator"
  | .crossHighlightStatus => "crossHighlightStatus"
  | .selectionStatus => "selectionStatus"
  | .rowIdentifier => "rowIdentifier"

/-- Any use that is not by the field's own name. -/
def isSynthetic (kind : UsageKind) : Bool := kind != .direct

/-- The use of a reserved field, which stays as it is written in a template. -/
def isReserved : UsageKind → Bool
  | .selectionStatus | .rowIdentifier => true
  | _ => false

end UsageKind

structure Usages where
  direct : Option Nat := none
  crossHighlightValue : Option Nat := none
  crossHighlightComparator : Option Nat := none
  crossHighlightStatus : Option Nat := none
  selectionStatus : Option Nat := none
  rowIdentifier : Option Nat := none
  deriving DecidableEq, Repr

namespace Usages

def get? (usages : Usages) : UsageKind → Option Nat
  | .direct => usages.direct
  | .crossHighlightValue => usages.crossHighlightValue
  | .crossHighlightComparator => usages.crossHighlightComparator
  | .crossHighlightStatus => usages.crossHighlightStatus
  | .selectionStatus => usages.selectionStatus
  | .rowIdentifier => usages.rowIdentifier

def set (usages : Usages) (kind : UsageKind) (count : Nat) : Usages :=
  match kind with
  | .direct => { usages with direct := some count }
  | .crossHighlightValue => { usages with crossHighlightValue := some count }
  | .crossHighlightComparator => { usages with crossHighlightComparator := some count }
  | .crossHighlightStatus => { usages with crossHighlightStatus := some count }
  | .selectionStatus => { usages with selectionStatus := some count }
  | .rowIdentifier => { usages with rowIdentifier := some count }

def count (usages : Usages) (kind : UsageKind) : Nat :=
  (usages.get? kind).getD 0

def record (usages : Usages) (kind : UsageKind) : Usages :=
  usages.set kind (usages.count kind + 1)

def primary? (usages : Usages) : Option UsageKind :=
  UsageKind.all.find? (fun kind => (usages.get? kind).isSome)

def toList (usages : Usages) : List (UsageKind × Nat) :=
  UsageKind.all.filterMap (fun kind => (usages.get? kind).map (kind, ·))

end Usages

end FieldRemap
