/-
  FieldRemap.Workflow.State — the stages of a remap.

  A remap goes through its stages in order and can be given up at any of them.
-/

namespace FieldRemap

inductive RemapState where
  | none
  | tokenizing
  | replacing
  | tracking
  | updatingEditor
  | complete
  deriving DecidableEq, Repr

namespace RemapState

def order : List RemapState :=
  [.none, .tokenizing, .replacing, .tracking, .updatingEditor, .complete]

def name : RemapState → String
  | .none => "none"
  | .tokenizing => "tokenizing"
  | .replacing => "replacing"
  | .tracking => "tracking"
  | .updatingEditor => "updatingEditor"
  | .complete => "complete"

def index : RemapState → Nat
  | .none => 0
  | .tokenizing => 1
  | .replacing => 2
  | .tracking => 3
  | .updatingEditor => 4
  | .complete => 5

def hasPassed (state stage : RemapState) : Bool :=
  stage.index < state.index

def isRunning : RemapState → Bool
  | .none | .complete => false
  | _ => true

def next? (state : RemapState) : Option RemapState :=
  order[state.index + 1]?

/-- A remap goes on to the next stage or is given up. -/
def canMove (state target : RemapState) : Bool :=
  target == .none || state.next? == some target

end RemapState

end FieldRemap
