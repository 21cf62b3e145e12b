/-
  FieldRemap.Proofs.Answering — every message of a job is answered.

  Bytes that are handed to a worker come back as bytes that are read as a response under the identity
  they were handed over with (`answerBytes_answers`). It is the answer to the job if the bytes are one
  of that identity, and a failure if they are not; so a job that is sent through a queue is answered as
  it is on the spot.

  The response is read back because its numbers have 64 bits, whatever the bytes are: a text has no
  more hits than bytes, and a token is either one the job came with or of an index below the fields
  and the bytes together (`JobPayload.Admitted.inRange_run`).
-/

import FieldRemap.Proofs.Continuity
import FieldRemap.Proofs.Intake
import FieldRemap.Proofs.Message
import FieldRemap.Proofs.Moves
import FieldRemap.Proofs.Whole

namespace FieldRemap

/-! ## The hits of a text -/

/-- No more spans follow each other than there is room for. -/
theorem Candidate.length_le {α : Type} {candidates : List (Candidate α)} {covered stop : Nat}
    (h : candidates.Pairwise fun a b => a.span.stop ≤ b.span.start)
    (hspans : ∀ x ∈ candidates, covered ≤ x.span.start ∧ x.span.start < x.span.stop ∧ x.span.stop ≤ stop) :
    candidates.length ≤ stop - covered := by
  induction candidates generalizing covered with
  | nil => exact Nat.zero_le _
  | cons x rest ih =>
    obtain ⟨hbehind, hrest⟩ := List.pairwise_cons.mp h
    obtain ⟨hx, hspans⟩ := List.forall_mem_cons.mp hspans
    have hlength := ih hrest fun y hy => ⟨hbehind y hy, (hspans y hy).2⟩
    rw [List.length_cons]
    omega

theorem length_le_byteLength (text : List Char) : text.length ≤ byteLength text := by
  induction text with
  | nil => exact Nat.le_refl 0
  | cons c text ih =>
    have := c.utf8Size_pos
    rw [List.length_cons, byteLength_cons]
    omega

namespace Track

/-- A text has no more hits than bytes. -/
theorem length_hits_le (conventions : List Convention) (text : List Char) (fields : List DatasetField) :
    (hits conventions text fields).length ≤ byteLength text := by
  have hspans : ∀ x ∈ allCandidates conventions text fields,
      x.span.start < x.span.stop ∧ x.span.stop ≤ byteLength text := by
    intro x hx
    obtain ⟨_, _, hx⟩ := mem_allCandidates.mp hx
    obtain ⟨_, _, _, _, _, _, r, hr, rfl⟩ := mem_fieldCandidates.mp hx
    exact bounds_of_mem_findReferences hr
  have hwinners : ∀ x ∈ Candidate.arbitrate (allCandidates conventions text fields),
      0 ≤ x.span.start ∧ x.span.start < x.span.stop ∧ x.span.stop ≤ byteLength text :=
    fun x hx => ⟨Nat.zero_le _, hspans x (Candidate.mem_of_mem_arbitrate hx)⟩
  rw [hits_eq, List.length_map]
  exact Candidate.length_le (Candidate.pairwise_arbitrate fun x hx => (hspans x hx).1) hwinners

/-! ## The numbers of a pass -/

variable {request : TrackingRequest} {entry : TrackedEntry} {limit : Nat}

theorem counts_le (hentry : entry ∈ passEntries request) :
    entry.matchCount ≤ byteLength request.specText.toList ∧
      ∀ kind, entry.usages.count kind ≤ byteLength request.specText.toList := by
  have hhits := length_hits_le request.supplementaryPatterns request.specText.toList request.knownFields
  have hbare : entry.bare ∈ (passEntries request).map TrackedEntry.bare := List.mem_map_of_mem hentry
  rw [map_bare_passEntries] at hbare
  generalize hits request.supplementaryPatterns request.specText.toList request.knownFields = hits at hhits hbare
  obtain ⟨x, -, -, heq⟩ := mem_entries.mp hbare
  obtain ⟨-, -, -, hmatch, husages⟩ :=
    recordAll_spec (hits.filter (·.field == x.2)) { fieldKey := x.1.key, name := x.1.name }
  rw [← heq] at hmatch husages
  have huses := List.length_filter_le (·.field == x.2) hits
  constructor
  · have hmatch : entry.matchCount = 0 + (hits.filter (·.field == x.2)).length := hmatch
    omega
  · intro kind
    have hcount : entry.usages.count kind = ({} : Usages).count kind + _ := (husages kind).1
    have hnone : ({} : Usages).count kind = 0 := by cases kind <;> rfl
    have := List.countP_le_length (p := (·.usage == kind)) (l := hits.filter (·.field == x.2))
    omega

/-- A token of a pass is one that the pass was given, or of an index that the fields and the text bound. -/
theorem index_le (hentry : entry ∈ passEntries request) {token : Placeholder} (htoken : token ∈ entry.placeholder) :
    (∃ earlier ∈ request.previousTrackedFields.entries, token ∈ earlier.placeholder) ∨
      token.index ≤ 2 * request.knownFields.length + byteLength request.specText.toList := by
  have hnone : ∀ entry ∈ entries (hits request.supplementaryPatterns request.specText.toList request.knownFields)
      request.knownFields, entry.placeholder = none := fun _ h => (counts_of_mem_entries h).1
  have hneeds : needsPlaceholder entry = true := (isSome_passEntries hentry).symm.trans (htoken ▸ rfl)
  by_cases hkeeps : Keeps (if request.reset then .empty else request.previousTrackedFields) entry
  · left
    obtain ⟨token', hearlier, htoken'⟩ := hkeeps
    obtain rfl : token' = token := Option.some.inj (htoken'.symm.trans htoken)
    rw [earlierToken?, if_pos hneeds] at hearlier
    obtain ⟨earlier, hget, hearlier⟩ := Option.bind_eq_some_iff.mp hearlier
    have hmem := List.mem_of_find?_eq_some hget
    by_cases hreset : request.reset = true
    · rw [if_pos hreset] at hmem
      exact absurd hmem List.not_mem_nil
    · rw [if_neg hreset] at hmem
      exact ⟨earlier, hmem, hearlier⟩
  · right
    obtain ⟨before, after, hsplit⟩ := List.append_of_mem hentry
    obtain ⟨index, htoken', hleast⟩ := isLeast_open hnone hsplit hneeds hkeeps
    obtain rfl : .ofIndex index = token := Option.some.inj (htoken'.symm.trans htoken)
    have hsub : before ⊆ passEntries request := hsplit ▸ List.subset_append_left _ _
    have hle := le_of_isLeast_open hsub hleast
    have hlength := length_passEntries_le request
    have htext := length_le_byteLength request.specText.toList
    rw [List.length_map] at hle
    rw [Placeholder.index_ofIndex]
    dsimp only at hle
    omega

/-- The numbers of a pass have 64 bits if those of the request do and its text and fields fit in memory. -/
theorem inRange_trackedFields (h : request.Admitted limit) (hlimit : limit < signedWordLimit) :
    (track request).trackedFields.InRange := by
  obtain ⟨htext, hfields, htokens⟩ := h
  have hwords : 2 * signedWordLimit = wordLimit := rfl
  intro entry hentry
  rw [trackedFields_eq_ofEntries] at hentry
  have hentry := Registry.mem_of_mem_ofEntries hentry
  obtain ⟨hmatch, husages⟩ := counts_le hentry
  refine ⟨by omega, fun kind => ?_, fun token htoken => ?_⟩
  · have := husages kind
    omega
  · rcases index_le hentry htoken with ⟨earlier, hearlier, htoken⟩ | hle
    · exact htokens earlier hearlier token htoken
    · show token.index < wordLimit
      omega

end Track

/-! ## Answers -/

/-- Whatever a job of so many bytes asks, the numbers of its result have 64 bits. -/
theorem JobPayload.Admitted.inRange_run {payload : JobPayload} {limit : Nat} (h : payload.Admitted limit)
    (hlimit : limit < signedWordLimit) : ∀ registry ∈ payload.run.registry?, registry.InRange := by
  intro registry hregistry
  cases payload with
  | tracking request =>
    cases hregistry
    exact Track.inRange_trackedFields h hlimit
  | tokenization request => cases hregistry
  | remapping request => cases hregistry

variable {id : JobId} {bytes : ByteArray}

theorem inRange_answerMessage (hbytes : bytes.size < signedWordLimit) : (answerMessage id bytes).InRange := by
  unfold answerMessage
  split
  · next request hrequest =>
    split
    · exact (JobRequest.admitted_of_ofBytes hrequest).inRange_run hbytes
    · exact nofun
  · exact nofun

/-- The bytes of an answer are read as that answer. -/
theorem ofBytes_answerBytes (hbytes : bytes.size < signedWordLimit) :
    JobResponse.ofBytes (answerBytes id bytes) = .ok (answerMessage id bytes) := by
  have hcarried : Carried JobResponse.decode (121 + 6) (answerMessage id bytes).toJson (answerMessage id bytes) :=
    JobResponse.carried (inRange_answerMessage hbytes)
  exact hcarried.ofBytes_compact

/-- A job that can be sent: its numbers have 64 bits, and its message fits in memory, which holds no byte string
    of more than `signedWordLimit - 1` bytes. -/
structure JobRequest.IsSendable (request : JobRequest) : Prop where
  inRange : request.InRange
  size_lt : request.toBytes.size < signedWordLimit

theorem JobRequest.size_toBytes (request : JobRequest) : request.toBytes.size = byteLength request.toJson.print := by
  show request.toJson.compact.toByteArray.size = _
  rw [size_toByteArray, Json.compact, String.toList_ofList]

namespace JobRequest.IsSendable

variable {request : JobRequest}

theorem ofBytes_toBytes (h : request.IsSendable) : JobRequest.ofBytes request.toBytes = .ok request := by
  have hcarried : Carried JobRequest.decode (121 + 6) request.toJson request := JobRequest.carried h.inRange
  exact hcarried.ofBytes_compact

/-- The worker's bytes for a job are read as the answer to the job. -/
theorem ofBytes_answerBytes (h : request.IsSendable) :
    JobResponse.ofBytes (answerBytes request.id request.toBytes) = .ok request.answer := by
  have hanswer : answerMessage request.id request.toBytes = request.answer := by
    rw [answerMessage, h.ofBytes_toBytes]
    exact if_pos rfl
  rw [FieldRemap.ofBytes_answerBytes h.size_lt, hanswer]

end JobRequest.IsSendable

/-- A job that has the worker to itself comes back as it is answered on the spot. -/
theorem Transport.worker_eq_inline (config : WorkerConfig) {request : JobRequest} (h : request.IsSendable) :
    worker config request = inline request := by
  have hcapacity : 0 < config.effectiveCapacity := Nat.lt_of_lt_of_le Nat.zero_lt_one (Nat.le_max_right _ _)
  have hcalls := Exchange.settle_start_singleton hcapacity rfl h.ofBytes_answerBytes
  rw [worker, Exchange.outcomes, hcalls]
  rfl

/-! ## Every message -/

/-- Bytes that are handed to the worker under an identity come back as a response under it, which is the answer to
    the job if they are one of that identity and a failure otherwise. A job that is sent comes back as it is
    answered on the spot. -/
theorem answerBytes_answers :
    (∀ (id : JobId) (bytes : ByteArray), bytes.size < signedWordLimit →
      ∃ response, JobResponse.ofBytes (answerBytes id bytes) = .ok response ∧ response.id = id ∧
        (∀ request, JobRequest.ofBytes bytes = .ok request → request.id = id → response = request.answer) ∧
        ((∀ request, JobRequest.ofBytes bytes = .ok request → request.id ≠ id) →
          ∃ message, response.result = .failed message)) ∧
    ∀ request : JobRequest, request.IsSendable →
      JobResponse.ofBytes (answerBytes request.id request.toBytes) = .ok request.answer ∧
        ∀ config, Transport.worker config request = Transport.inline request := by
  constructor
  · intro id bytes hbytes
    refine ⟨answerMessage id bytes, ofBytes_answerBytes hbytes, ?_⟩
    unfold answerMessage
    cases hrequest : JobRequest.ofBytes bytes with
    | error fault => exact ⟨rfl, nofun, fun _ => ⟨_, rfl⟩⟩
    | ok request =>
      dsimp only
      by_cases hid : request.id = id
      · rw [if_pos hid]
        refine ⟨hid, fun request' heq _ => ?_, fun hother => absurd hid (hother request rfl)⟩
        obtain rfl := Except.ok.inj heq
        rfl
      · rw [if_neg hid]
        refine ⟨rfl, fun request' heq hid' => ?_, fun _ => ⟨_, rfl⟩⟩
        obtain rfl := Except.ok.inj heq
        exact absurd hid' hid
  · intro request h
    exact ⟨h.ofBytes_answerBytes, fun config => Transport.worker_eq_inline config h⟩

/-- A job whose answer has an entry with a token, and its bytes under an identity that is not its own. -/
theorem answerBytes_answers_sales :
    let request : JobRequest := ⟨.ofNat 7, .tracking
      { specText := "[\"Umsatz €\"]", knownFields := [⟨"sales", "Umsatz €", .numeric, .measure, false⟩],
        supplementaryPatterns := [] }⟩
    request.IsSendable ∧ JobResponse.ofBytes (answerBytes request.id request.toBytes) = .ok request.answer ∧
      ∃ response, JobResponse.ofBytes (answerBytes (.ofNat 8) request.toBytes) = .ok response ∧
        response.id = .ofNat 8 ∧ ∃ message, response.result = .failed message := by
  intro request
  have hsize : request.toBytes.size < signedWordLimit := by
    rw [JobRequest.size_toBytes]
    decide +kernel
  have hrequest : request.IsSendable := ⟨fun _ hentry => absurd hentry List.not_mem_nil, hsize⟩
  obtain ⟨hmessages, hjobs⟩ := answerBytes_answers
  obtain ⟨response, hresponse, hid, -, hfailed⟩ := hmessages (.ofNat 8) request.toBytes hsize
  refine ⟨hrequest, (hjobs request hrequest).1, response, hresponse, hid, hfailed fun request' h => ?_⟩
  obtain rfl : request = request' := Except.ok.inj (hrequest.ofBytes_toBytes.symm.trans h)
  decide

end FieldRemap
