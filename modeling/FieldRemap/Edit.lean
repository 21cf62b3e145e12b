/-
  FieldRemap.Edit — choosing among overlapping finds, and replacing spans of a text.

  Candidates are gathered from many searches and settled in one place. The earliest start
  wins, then the longest span, then the lowest priority, then the order of collection; a
  candidate that starts inside an accepted one is dropped. So the edits made of the winners
  ascend and do not overlap, which is all that `splice` asks of them.
-/

import FieldRemap.Text.Span

namespace FieldRemap

/-- A span found, with what it was found for. -/
structure Candidate (α : Type) where
  span : Span
  /-- The lower wins between two candidates of one span. -/
  priority : Nat
  value : α
  deriving DecidableEq, Repr

namespace Candidate

variable {α : Type}

def le (a b : Candidate α) : Bool :=
  a.span.start < b.span.start ||
    (a.span.start == b.span.start &&
      (b.span.stop < a.span.stop || (a.span.stop == b.span.stop && a.priority ≤ b.priority)))

/-- Takes each candidate that does not start before `covered`, the end of the last one taken. -/
def accept (covered : Nat) : List (Candidate α) → List (Candidate α)
  | [] => []
  | candidate :: rest =>
    if candidate.span.start < covered then accept covered rest
    else candidate :: accept candidate.span.stop rest

/-- The candidates that win, by ascending span. -/
def arbitrate (candidates : List (Candidate α)) : List (Candidate α) :=
  accept 0 (candidates.mergeSort le)

end Candidate

/-- Replaces spans in a text of which the first `cursor` bytes are gone; the spans ascend and
    do not overlap. -/
def spliceFrom (cursor : Nat) (text : List Char) : List (Span × List Char) → List Char
  | [] => text
  | (span, replacement) :: edits =>
    let (kept, rest) := splitBytes (span.start - cursor) text
    let (_, rest) := splitBytes (span.stop - span.start) rest
    kept ++ replacement ++ spliceFrom span.stop rest edits

/-- The text with each span replaced; the spans ascend and do not overlap. -/
def splice (text : List Char) (edits : List (Span × List Char)) : List Char :=
  spliceFrom 0 text edits

end FieldRemap
