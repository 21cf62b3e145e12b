/-
  FieldRemap.Wire.Job — the JSON form of jobs, and messages of bytes.

  A job travels as the bytes of its compact JSON text. Whoever is handed the bytes of a job
  answers it, whatever they hold: bytes that are no request, or one under another identity,
  are answered with a failure.
-/

import FieldRemap.Job.Basic
import FieldRemap.Json.Document
import FieldRemap.Json.Tagged
import FieldRemap.Wire.Request

namespace FieldRemap

namespace JobId

def toJson (id : JobId) : Json := .text id.text

def decode (draft : Draft) : Except JsonFault JobId :=
  (Draft.decodeText draft).bind fun text =>
    match parse? text with
    | some id => .ok id
    | none => .error .mismatch

end JobId

def Json.tagged (kind contentName : String) (content : Json) : Json :=
  .object [("kind", .text kind), (contentName, content)]

namespace JobPayload

def toJson (payload : JobPayload) : Json :=
  .tagged payload.kind.name "request" <|
    match payload with
    | .tracking request => request.toJson
    | .tokenization request => request.toJson
    | .remapping request => request.toJson

def shape : Tagged JobKind JobPayload where
  tagName := "kind"
  contentName := "request"
  tag := Draft.decodeWord (JobKind.all.map (fun kind => (kind.name, kind)))
  content
    | .tracking, draft => (TrackingRequest.decode draft).map .tracking
    | .tokenization, draft => (TokenizationRequest.decode draft).map .tokenization
    | .remapping, draft => (RemappingRequest.decode draft).map .remapping

def decode : Draft → Except JsonFault JobPayload := shape.decode

end JobPayload

namespace JobResult

/-- The word that stands for a failure in place of a kind. -/
def failedName : String := "failed"

/-- The content of the result of a job that edits a text. -/
def editedText : Record String :=
  (Record.pure id).required "rewrittenSpecText" Draft.decodeText

def failure : Record String :=
  (Record.pure id).required "message" Draft.decodeText

def toJson : JobResult → Json
  | .tracking response => .tagged JobKind.tracking.name "result" response.toJson
  | .tokenization text =>
    .tagged JobKind.tokenization.name "result" (.object [("rewrittenSpecText", .text text)])
  | .remapping text =>
    .tagged JobKind.remapping.name "result" (.object [("rewrittenSpecText", .text text)])
  | .failed message => .tagged failedName "result" (.object [("message", .text message)])

def shape : Tagged (Option JobKind) JobResult where
  tagName := "kind"
  contentName := "result"
  tag := Draft.decodeWord
    (JobKind.all.map (fun kind => (kind.name, some kind)) ++ [(failedName, none)])
  content
    | some .tracking, draft => (TrackingResponse.decode draft).map .tracking
    | some .tokenization, draft => (editedText.decodeObject draft).map .tokenization
    | some .remapping, draft => (editedText.decodeObject draft).map .remapping
    | none, draft => (failure.decodeObject draft).map .failed

def decode : Draft → Except JsonFault JobResult := shape.decode

end JobResult

namespace JobRequest

def toJson (request : JobRequest) : Json :=
  .object [("jobId", request.id.toJson), ("payload", request.payload.toJson)]

def shape : Record JobRequest :=
  Record.pure JobRequest.mk
    |>.required "jobId" JobId.decode
    |>.required "payload" JobPayload.decode

def decode : Draft → Except JsonFault JobRequest := shape.decode

def toBytes (request : JobRequest) : ByteArray :=
  request.toJson.compact.toUTF8

def ofBytes (bytes : ByteArray) : Except JsonFault JobRequest :=
  (Document.ofBytes bytes).decode decode

def undecodable : String := "failed to decode job request"

end JobRequest

namespace JobResponse

def toJson (response : JobResponse) : Json :=
  .object [("jobId", response.id.toJson), ("result", response.result.toJson)]

def shape : Record JobResponse :=
  Record.pure JobResponse.mk
    |>.required "jobId" JobId.decode
    |>.required "result" JobResult.decode

def decode : Draft → Except JsonFault JobResponse := shape.decode

def toBytes (response : JobResponse) : ByteArray :=
  response.toJson.compact.toUTF8

def ofBytes (bytes : ByteArray) : Except JsonFault JobResponse :=
  (Document.ofBytes bytes).decode decode

def undecodable : String := "failed to decode job response"

end JobResponse

def answerMessage (id : JobId) (bytes : ByteArray) : JobResponse :=
  match JobRequest.ofBytes bytes with
  | .ok request =>
    if request.id = id then request.answer
    else ⟨id, .failed "job id does not match its envelope"⟩
  | .error _ => ⟨id, .failed JobRequest.undecodable⟩

def answerBytes (id : JobId) (bytes : ByteArray) : ByteArray :=
  (answerMessage id bytes).toBytes

end FieldRemap
