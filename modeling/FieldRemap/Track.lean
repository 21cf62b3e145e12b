/-
  FieldRemap.Track — which fields a specification refers to.

  Every field's name is searched for, and so are the names derived from it. Overlapping
  finds are settled in one place, so a stretch of text counts for one field. A registry
  from an earlier pass only decides which tokens are kept; counts come from the text alone.
-/

import FieldRemap.Allocation
import FieldRemap.Convention
import FieldRemap.Dataset
import FieldRemap.Edit
import FieldRemap.Registry

namespace FieldRemap

structure TrackingRequest where
  specText : String
  knownFields : List DatasetField
  previousTrackedFields : Registry := .empty
  hasDrilldown : Bool := false
  supplementaryPatterns : List Convention := Convention.defaults
  /-- Ignore the previous registry. -/
  reset : Bool := false
  deriving DecidableEq

structure TrackingResponse where
  trackedFields : Registry := .empty
  trackedDrilldown : TrackedDrilldown := {}
  deriving DecidableEq

/-- A use of one of the known fields, given by its place among them. -/
structure Hit where
  field : Nat
  usage : UsageKind
  deriving DecidableEq, Repr

structure TrackingPass where
  response : TrackingResponse
  /-- Nothing was searched for. -/
  isEmpty : Bool
  matchCount : Nat
  /-- The fields, by key, whose earlier token could not be kept. -/
  displaced : List (String × Placeholder)

namespace Track

/-- The pattern of each field's own name, by the key of the field. A highlight component has
    none: the uses of its name count for the measure it belongs to. -/
def literalPatterns (fields : List DatasetField) : List (String × NamePattern) :=
  (fields.filter fun field => !field.isHighlightComponent && !field.name.isEmpty).map fun field =>
    (field.key, .literal field.name.toList)

/-- Own names win over derived ones of the same span. -/
def literalPriority : Nat := 0

def derivedPriority : Nat := 1

def candidatesFor {α : Type} (quotes : QuoteMap) (text : List Char) (name : String) (priority : Nat)
    (value : Reference → α) : List (Candidate α) :=
  (findReferences name.toList quotes text).map
    (fun reference => ⟨reference.span, priority, value reference⟩)

/-- The kind of use that a field's own name stands for, `none` for a field that is not
    tracked: a highlight component or a drill field. -/
def ownUsage? (conventions : List Convention) (field : DatasetField) : Option UsageKind :=
  if field.isHighlightComponent then none
  else
    match Convention.reservedKind? conventions field.name with
    | none => some .direct
    | some kind => kind.usageKind?

/-- The finds for one field: its own name, and the names derived from it unless it is reserved. -/
def fieldCandidates (conventions : List Convention) (quotes : QuoteMap) (text : List Char)
    (field : DatasetField) (index : Nat) : List (Candidate Hit) :=
  match ownUsage? conventions field with
  | none => []
  | some usage =>
    let own := candidatesFor quotes text field.name literalPriority (fun _ => Hit.mk index usage)
    let derived := conventions.flatMap fun convention =>
      match convention.deriveName? field.name, convention.kind.usageKind? with
      | some name, some usage =>
        candidatesFor quotes text name derivedPriority (fun _ => Hit.mk index usage)
      | _, _ => []
    if usage = .direct then own ++ derived else own

def hits (conventions : List Convention) (text : List Char) (fields : List DatasetField) : List Hit :=
  let quotes := QuoteMap.lex text
  let candidates := fields.zipIdx.flatMap
    (fun (field, index) => fieldCandidates conventions quotes text field index)
  (Candidate.arbitrate candidates).map (·.value)

def entries (hits : List Hit) (fields : List DatasetField) : List TrackedEntry :=
  fields.zipIdx.filterMap fun (field, index) =>
    let uses := hits.filter (·.field == index)
    if uses.isEmpty then none
    else some (uses.foldl (fun entry hit => entry.record hit.usage)
      { fieldKey := field.key, name := field.name })

/-- Whether an entry gets a token: reserved fields stay as they are written. -/
def needsPlaceholder (entry : TrackedEntry) : Bool :=
  !entry.usageKind?.any (·.isReserved)

/-- The token an entry had before, if it still needs one. -/
def earlierToken? (previous : Registry) (entry : TrackedEntry) : Option Placeholder :=
  if needsPlaceholder entry then (previous.get? entry.fieldKey).bind (·.placeholder) else none

/-- Claims the earlier tokens in order: the entries with those that can be kept, the tokens
    that cannot, and the allocator left. -/
def keepTokens (previous : Registry) (allocator : Allocator) :
    List TrackedEntry → List TrackedEntry × List (String × Placeholder) × Allocator
  | [] => ([], [], allocator)
  | entry :: rest =>
    match earlierToken? previous entry with
    | none =>
      let (entries, displaced, allocator) := keepTokens previous allocator rest
      (entry :: entries, displaced, allocator)
    | some token =>
      match allocator.reserve? token with
      | some allocator =>
        let (entries, displaced, allocator) := keepTokens previous allocator rest
        ({ entry with placeholder := some token } :: entries, displaced, allocator)
      | none =>
        let (entries, displaced, allocator) := keepTokens previous allocator rest
        (entry :: entries, (entry.fieldKey, token) :: displaced, allocator)

def allocateTokens (allocator : Allocator) : List TrackedEntry → List TrackedEntry
  | [] => []
  | entry :: rest =>
    if entry.placeholder.isNone && needsPlaceholder entry then
      let (token, allocator) := allocator.allocate
      { entry with placeholder := some token } :: allocateTokens allocator rest
    else entry :: allocateTokens allocator rest

def referencesDrilldown (conventions : List Convention) (text : List Char) : Bool :=
  let quotes := QuoteMap.lex text
  (conventions.filter (·.kind.isDrilldown)).any
    (fun convention => !(convention.pattern.search quotes text).isEmpty)

def pass (request : TrackingRequest) : TrackingPass :=
  let text := request.specText.toList
  let drilldown := TrackedDrilldown.evaluate
    (referencesDrilldown request.supplementaryPatterns text) request.hasDrilldown
  if text.all isSpace || request.knownFields.isEmpty then
    { response := ⟨.empty, drilldown⟩, isEmpty := true, matchCount := 0, displaced := [] }
  else
    let hits := hits request.supplementaryPatterns text request.knownFields
    let previous := if request.reset then .empty else request.previousTrackedFields
    let (entries, displaced, allocator) := keepTokens previous
      { text, names := request.knownFields.map (·.name) } (entries hits request.knownFields)
    { response := ⟨.ofEntries (allocateTokens allocator entries), drilldown⟩
      isEmpty := false
      matchCount := hits.length
      displaced }

end Track

def track (request : TrackingRequest) : TrackingResponse :=
  (Track.pass request).response

end FieldRemap
