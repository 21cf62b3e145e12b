/-
  FieldRemap.Proofs.Message — the messages of jobs are read back.

  A job's bytes are decoded to the very job, and those of its answer to the very answer
  (`message_roundTrip`), whatever texts, fields, conventions, slots and registries they hold.
  The only thing that is asked of them is that their numbers have 64 bits, as the numbers of a
  registry do (`Registry.InRange`).
-/

import FieldRemap.Proofs.Wire
import FieldRemap.Wire.Job

namespace FieldRemap

variable {room : Nat}

/-! ## Identities -/

namespace JobId

/-- Groups are told apart again by their lengths. -/
theorem ungroup?_hyphenate {lengths : List Nat} {chars : List Char} (h : chars.length = lengths.foldr (· + ·) 0) :
    ungroup? lengths (hyphenate lengths chars) = some chars := by
  induction lengths generalizing chars with
  | nil =>
    obtain rfl : chars = [] := List.length_eq_zero_iff.mp h
    rfl
  | cons length rest ih =>
    rw [List.foldr_cons] at h
    cases rest with
    | nil =>
      rw [List.foldr_nil, Nat.add_zero] at h
      simp [hyphenate, ungroup?, ← h]
    | cons next rest =>
      have htake : (chars.take length).length = length := by rw [List.length_take]; omega
      have hrest := @ih (chars.drop length) (by rw [List.length_drop]; omega)
      rw [hyphenate, ungroup?, List.drop_left' htake, List.take_left' htake]
      · simp [hrest]
      · simp
      · simp

theorem digit?_hexDigit (digit : Fin 16) : digit? (hexDigit digit.val) = some digit := by
  revert digit
  decide

theorem ofDigits?_map (id : JobId) : ofDigits? (id.digits.map fun digit => hexDigit digit.val) = some id := by
  obtain ⟨digits, hlength⟩ := id
  have hdigits : (digits.map fun digit : Fin 16 => hexDigit digit.val).mapM digit? = some digits := by
    clear hlength
    induction digits with
    | nil => rfl
    | cons digit digits ih => simp [List.mapM_cons, digit?_hexDigit, ih]
  rw [ofDigits?, hdigits]
  simp [hlength]

/-- Nothing surrounds what starts with a digit. -/
theorem bare_cons_hexDigit (digit : Fin 16) (others : List Char) :
    bare (hexDigit digit.val :: others) = hexDigit digit.val :: others := by
  have hbrace : ∀ digit : Fin 16, hexDigit digit.val ≠ '\x7b' := by decide
  have hu : ∀ digit : Fin 16, (hexDigit digit.val).toLower ≠ 'u' := by decide
  unfold bare
  split
  · next heq => exact absurd (List.cons.inj heq).1 (hbrace digit)
  · refine if_neg ?_
    rw [List.take_succ_cons, List.map_cons]
    intro heq
    exact hu digit (List.cons.inj heq).1

/-- An identity is read from its text. -/
theorem parse?_text (id : JobId) : parse? id.text = some id := by
  have hlength : (id.digits.map fun digit => hexDigit digit.val).length = groups.foldr (· + ·) 0 := by
    rw [List.length_map, id.length_eq]
    rfl
  have hbare : bare id.text.toList = id.text.toList := by
    obtain ⟨digits, hdigits⟩ := id
    obtain ⟨digit, digits, rfl⟩ := List.exists_cons_of_ne_nil (List.ne_nil_of_length_pos (by rw [hdigits]; decide))
    rw [text, String.toList_ofList]
    exact bare_cons_hexDigit digit _
  rw [parse?, hbare, text, String.toList_ofList, ungroup?_hyphenate hlength]
  exact ofDigits?_map id

theorem carried (id : JobId) : Carried decode room id.toJson id := by
  refine ⟨rfl, ?_⟩
  simp only [toJson, Draft.ofJson, decode, Draft.decodeText, Except.bind, parse?_text]

end JobId

/-! ## Payloads and results -/

theorem JobKind.mem_all (kind : JobKind) : kind ∈ all := by
  cases kind <;> decide

namespace JobPayload

def registry : JobPayload → Registry
  | .tracking request => request.previousTrackedFields
  | .tokenization request => request.trackedFields
  | .remapping request => request.trackedFields

theorem carried {payload : JobPayload} (h : payload.registry.InRange) :
    Carried decode (room + 5) payload.toJson payload := by
  have htag : Carried shape.tag (room + 4) (.text payload.kind.name) payload.kind :=
    .word (by decide) (List.mem_map.mpr ⟨payload.kind, JobKind.mem_all _, rfl⟩)
  cases payload with
  | tracking request =>
    have hcontent : Carried (shape.content .tracking) (room + 4) request.toJson (.tracking request) :=
      (TrackingRequest.carried h).map JobPayload.tracking
    exact Tagged.carried htag hcontent (by decide)
  | tokenization request =>
    have hcontent : Carried (shape.content .tokenization) (room + 4) request.toJson (.tokenization request) :=
      (TokenizationRequest.carried h).map JobPayload.tokenization
    exact Tagged.carried htag hcontent (by decide)
  | remapping request =>
    have hcontent : Carried (shape.content .remapping) (room + 4) request.toJson (.remapping request) :=
      (RemappingRequest.carried h).map JobPayload.remapping
    exact Tagged.carried htag hcontent (by decide)

end JobPayload

namespace JobResult

def registry? : JobResult → Option Registry
  | .tracking response => some response.trackedFields
  | .tokenization _ | .remapping _ | .failed _ => none

theorem carried_editedText (text : String) :
    Carried editedText.decodeObject (room + 1) (.object [("rewrittenSpecText", .text text)]) text :=
  Record.yields_pure id |>.required (.text text) (by decide) |>.carriedObject

theorem carried_failure (message : String) :
    Carried failure.decodeObject (room + 1) (.object [("message", .text message)]) message :=
  Record.yields_pure id |>.required (.text message) (by decide) |>.carriedObject

/-- A result is carried when its content is, under the word for it. -/
theorem carried_tagged {kind : Option JobKind} {name : String} {json : Json} {result : JobResult}
    (hname : (name, kind) ∈ JobKind.all.map (fun kind => (kind.name, some kind)) ++ [(failedName, none)])
    (hcontent : Carried (shape.content kind) room json result) :
    Carried decode (room + 1) (.tagged name "result" json) result := by
  have htag : Carried shape.tag room (.text name) kind := .word (by decide) hname
  exact Tagged.carried htag hcontent (by decide)

theorem carried {result : JobResult} (h : ∀ registry ∈ result.registry?, registry.InRange) :
    Carried decode (room + 5) result.toJson result := by
  cases result with
  | tracking response =>
    exact carried_tagged (by decide : (_, some JobKind.tracking) ∈ _)
      ((TrackingResponse.carried (h _ rfl)).map tracking)
  | tokenization text =>
    exact carried_tagged (by decide : (_, some JobKind.tokenization) ∈ _) ((carried_editedText text).map tokenization)
  | remapping text =>
    exact carried_tagged (by decide : (_, some JobKind.remapping) ∈ _) ((carried_editedText text).map remapping)
  | failed message => exact carried_tagged (by decide : (_, none) ∈ _) ((carried_failure message).map failed)

end JobResult

/-! ## Messages -/

/-- The numbers of a job are numbers of 64 bits. -/
def JobRequest.InRange (request : JobRequest) : Prop :=
  request.payload.registry.InRange

def JobResponse.InRange (response : JobResponse) : Prop :=
  ∀ registry ∈ response.result.registry?, registry.InRange

theorem JobRequest.carried {request : JobRequest} (h : request.InRange) :
    Carried decode (room + 6) request.toJson request :=
  Record.yields_pure JobRequest.mk
    |>.required request.id.carried (by decide)
    |>.required (JobPayload.carried h) (by decide)
    |>.carried

theorem JobResponse.carried {response : JobResponse} (h : response.InRange) :
    Carried decode (room + 6) response.toJson response :=
  Record.yields_pure JobResponse.mk
    |>.required response.id.carried (by decide)
    |>.required (JobResult.carried h) (by decide)
    |>.carried

/-- A job and an answer are read from their messages as they were sent. -/
theorem message_roundTrip (request : JobRequest) (response : JobResponse) (hrequest : request.InRange)
    (hresponse : response.InRange) :
    JobRequest.ofBytes request.toBytes = .ok request ∧ JobResponse.ofBytes response.toBytes = .ok response := by
  have hjob : Carried JobRequest.decode (121 + 6) request.toJson request := JobRequest.carried hrequest
  have hanswer : Carried JobResponse.decode (121 + 6) response.toJson response := JobResponse.carried hresponse
  constructor
  · exact hjob.ofBytes_compact
  · exact hanswer.ofBytes_compact

/-- Counts up to the greatest number of 64 bits, a reserved field without a token, and texts beyond ASCII. -/
theorem message_roundTrip_sales :
    let tracked : Registry := ⟨
      [⟨"__identity__", "__identity__", none, 1, { rowIdentifier := some 1 }⟩,
        ⟨"sales", "Umsatz €", some (.ofIndex 18446744073709551615), 18446744073709551615,
          { direct := some 18446744073709551615, crossHighlightValue := some 0 }⟩], by decide, by decide⟩
    let request : JobRequest := ⟨.ofNat 7, .remapping
      ⟨"\x7b\"title\": \"売上 📈\"\x7d", [⟨"__0__", "Sales", "", "", .numeric, .measure, some "sales", none⟩], tracked,
        [.reserved "__identity__" .rowIdentifier, .derived "__highlight" .highlightValue]⟩⟩
    let response : JobResponse := ⟨.ofNat 7, .tracking ⟨tracked, ⟨true, false⟩⟩⟩
    JobRequest.ofBytes request.toBytes = .ok request ∧ JobResponse.ofBytes response.toBytes = .ok response := by
  intro tracked request response
  have hrange : tracked.InRange := by
    intro entry hentry
    rcases List.mem_cons.mp hentry with rfl | hentry
    · exact ⟨by decide, fun kind => by cases kind <;> decide, nofun⟩
    · rw [List.mem_singleton.mp hentry]
      exact ⟨by decide, fun kind => by cases kind <;> decide, fun token htoken => by cases htoken; decide⟩
  refine message_roundTrip request response hrange fun registry hregistry => ?_
  cases hregistry
  exact hrange

end FieldRemap
