/-
  FieldRemap.Job.Basic — passes as jobs.

  A job is a request under an identity and is answered by one response under the same
  identity. A job that cannot be run is answered too, with a failure.
-/

import FieldRemap.Job.Identity
import FieldRemap.Remap

namespace FieldRemap

inductive JobKind where
  | tracking
  | tokenization
  | remapping
  deriving DecidableEq, Repr

namespace JobKind

def all : List JobKind := [.tracking, .tokenization, .remapping]

def name : JobKind → String
  | .tracking => "tracking"
  | .tokenization => "tokenization"
  | .remapping => "remapping"

end JobKind

inductive JobPayload where
  | tracking (request : TrackingRequest)
  | tokenization (request : TokenizationRequest)
  | remapping (request : RemappingRequest)
  deriving DecidableEq

inductive JobResult where
  | tracking (response : TrackingResponse)
  | tokenization (specText : String)
  | remapping (specText : String)
  /-- The job could not be run. -/
  | failed (message : String)
  deriving DecidableEq

structure JobRequest where
  id : JobId
  payload : JobPayload
  deriving DecidableEq

structure JobResponse where
  id : JobId
  result : JobResult
  deriving DecidableEq

namespace JobPayload

def kind : JobPayload → JobKind
  | .tracking _ => .tracking
  | .tokenization _ => .tokenization
  | .remapping _ => .remapping

def run : JobPayload → JobResult
  | .tracking request => .tracking (track request)
  | .tokenization request => .tokenization (tokenize request)
  | .remapping request => .remapping (remap request)

end JobPayload

namespace JobResult

/-- The kind of job a result answers; a failure answers none. -/
def kind? : JobResult → Option JobKind
  | .tracking _ => some .tracking
  | .tokenization _ => some .tokenization
  | .remapping _ => some .remapping
  | .failed _ => none

end JobResult

namespace JobRequest

def kind (request : JobRequest) : JobKind := request.payload.kind

def answer (request : JobRequest) : JobResponse :=
  ⟨request.id, request.payload.run⟩

end JobRequest

end FieldRemap
