/-
  FieldRemap.Job.Transport — carrying a job to where it is run.

  A transport takes a request and comes back with a response, or with the reason why there
  is none. It need not be honest: the response may be to another job.
-/

import FieldRemap.Wire.Job

namespace FieldRemap

inductive TransportError where
  /-- What came back is not the message of a request. -/
  | undecodable (fault : JsonFault)
  | duplicateJob (id : JobId)
  /-- The worker ended first. -/
  | workerGone (id : JobId)
  | spawn (reason : String)
  | join (reason : String)
  deriving DecidableEq

def TransportError.message : TransportError → String
  | .undecodable _ => JobRequest.undecodable
  | .duplicateJob id => s!"job {id.text} is already pending"
  | .workerGone id => s!"worker stopped before answering job {id.text}"
  | .spawn _ => "failed to start worker thread"
  | .join reason => s!"blocking job task failed: {reason}"

abbrev Transport := JobRequest → Except TransportError JobResponse

def Transport.inline : Transport :=
  fun request => .ok request.answer

end FieldRemap
