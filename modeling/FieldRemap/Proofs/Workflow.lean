/-
  FieldRemap.Proofs.Workflow — what a remap workflow does, whatever it meets.

  A run asks three jobs in turn and then hands a text to the editor. Any job can go wrong (no
  response, the response to another job, a failure, a result of another kind) and so can the
  editor; wherever it happens the run is given up. `Standing` is what holds between two stages
  of a run and `Stopped` what holds where one has failed: each stage leads from the one to the
  next or to the other (`ensures_ask`, `ensures_edit`).

  Proved of every run (`ensures_all`): the jobs are asked in order and each only when those
  before it have been answered rightly; the editor is handed one text at most, that of the
  remapping answer, when all three have been answered (`Orderly`).

  Proved of every sequence of runs, acknowledgements and abandonments (`rests_after`): between
  them the workflow stands at its start or at its end, and its history is made of runs, each
  closed but for one that is complete (`Workflow.Rests`).
-/

import FieldRemap.Workflow.Run

namespace FieldRemap

/-! ## Stages as steps -/

namespace RemapState

def stages : List RemapState :=
  [.tokenizing, .replacing, .tracking, .updatingEditor, .complete]

def path (state : RemapState) : List RemapState :=
  stages.take state.index

theorem path_next {state next : RemapState} (h : state.next? = some next) : next.path = state.path ++ [next] := by
  revert h
  cases state <;> cases next <;> decide

theorem canMove_next {state next : RemapState} (h : state.next? = some next) : state.canMove next = true := by
  simp [canMove, h]

theorem ne_none_of_next {state next : RemapState} (h : state.next? = some next) : next ≠ .none := by
  revert h
  cases state <;> cases next <;> decide

theorem path_ne_nil {state : RemapState} (h : state ≠ .none) : state.path ≠ [] := by
  cases state <;> first | exact absurd rfl h | decide

end RemapState

namespace Stage

variable {α β : Type} {progress : Progress} {fails : Progress → Prop}

/-- From `progress` on, the stage comes to what `post` says, or fails where `fails` holds. -/
def Ensures (stage : Stage α) (progress : Progress) (fails : Progress → Prop) (post : α → Progress → Prop) : Prop :=
  match stage.run progress with
  | (.ok value, progress) => post value progress
  | (.error _, progress) => fails progress

theorem ensures_pure {value : α} {post : α → Progress → Prop} (h : post value progress) :
    (pure value : Stage α).Ensures progress fails post := h

theorem ensures_throw {error : WorkflowError} {post : α → Progress → Prop} (h : fails progress) :
    (throw error : Stage α).Ensures progress fails post := h

/-- A stage goes on where the one before it has come to, unless that one fails. -/
theorem run_bind (stage : Stage α) (next : α → Stage β) (progress : Progress) :
    (stage >>= next).run progress = match stage.run progress with
      | (.ok value, progress) => (next value).run progress
      | (.error error, progress) => (.error error, progress) := by
  unfold ExceptT.run
  simp only [bind, ExceptT.bind, ExceptT.mk, StateT.bind, ExceptT.bindCont]
  rcases stage progress with ⟨result, progress⟩
  cases result <;> rfl

theorem ensures_bind {stage : Stage α} {next : α → Stage β} {post : β → Progress → Prop}
    (h : stage.Ensures progress fails fun value progress => (next value).Ensures progress fails post) :
    (stage >>= next).Ensures progress fails post := by
  unfold Ensures at h ⊢
  rw [run_bind]
  generalize stage.run progress = outcome at h ⊢
  obtain ⟨result, progress⟩ := outcome
  cases result <;> exact h

theorem Ensures.imp {stage : Stage α} {post post' : α → Progress → Prop} (h : stage.Ensures progress fails post)
    (himp : ∀ value progress, post value progress → post' value progress) : stage.Ensures progress fails post' := by
  unfold Ensures at h ⊢
  generalize stage.run progress = outcome at h ⊢
  obtain ⟨result, progress⟩ := outcome
  cases result with
  | ok value => exact himp value progress h
  | error => exact h

theorem ensures_take {step : WorkflowStep} {post : Unit → Progress → Prop}
    (h : post () { progress with steps := progress.steps ++ [step] }) : (take step).Ensures progress fails post := h

theorem ensures_enter {state : RemapState} {post : Unit → Progress → Prop}
    (hmove : progress.workflow.state.canMove state = true)
    (h : post () ⟨progress.workflow.enter state, progress.steps ++ [.tell (.state state)]⟩) :
    (enter state).Ensures progress fails post := by
  unfold enter
  apply ensures_bind
  show Ensures (if progress.workflow.state.canMove state then _ else _) progress fails post
  rw [if_pos hmove]
  exact h

end Stage

/-! ## What may be done when -/

open WorkflowStep

def sent (steps : List WorkflowStep) : List JobRequest :=
  steps.filterMap fun
    | .tell (.sent request) => some request
    | _ => none

def edits (steps : List WorkflowStep) : List String :=
  steps.filterMap edit?

def jobOrder : List JobKind := [.tokenization, .remapping, .tracking]

def Answered (transport : Transport) (request : JobRequest) : Prop :=
  ∃ result, transport request = .ok ⟨request.id, result⟩ ∧ result.kind? = some request.kind

def AllAnswered (transport : Transport) (steps : List WorkflowStep) : Prop :=
  ∀ request ∈ sent steps, Answered transport request ∧ .tell (.received request) ∈ steps

/-- The steps are taken in order: the jobs one after another, each when those before it have been answered, and the
    editor once, when all have been, with the text that the remapping job was answered with. -/
structure Orderly (transport : Transport) (steps : List WorkflowStep) : Prop where
  kinds : (sent steps).map (·.kind) <+: jobOrder
  asked : ∀ before request after, steps = before ++ .tell (.sent request) :: after → AllAnswered transport before
  once : (edits steps).length ≤ 1
  edited : ∀ before text after, steps = before ++ .edit text :: after → AllAnswered transport before ∧
    (sent before).map (·.kind) = jobOrder ∧
    ∃ request ∈ sent before, transport request = .ok ⟨request.id, .remapping text⟩

section

variable {transport : Transport} {steps : List WorkflowStep}

theorem sent_append (steps steps' : List WorkflowStep) : sent (steps ++ steps') = sent steps ++ sent steps' :=
  List.filterMap_append

theorem edits_append (steps steps' : List WorkflowStep) : edits (steps ++ steps') = edits steps ++ edits steps' :=
  List.filterMap_append

/-- A member of a list with one element more is that element or was a member before. -/
theorem split_concat {α : Type} {xs before after : List α} {x y : α} (h : xs ++ [y] = before ++ x :: after) :
    before = xs ∧ x = y ∨ ∃ after', xs = before ++ x :: after' := by
  rcases List.eq_nil_or_concat after with rfl | ⟨after', z, rfl⟩
  · obtain ⟨rfl, hy⟩ := List.append_inj' h rfl
    exact .inl ⟨rfl, by simpa using hy.symm⟩
  · have h : xs ++ [y] = (before ++ x :: after') ++ [z] := by simpa using h
    exact .inr ⟨after', (List.append_inj' h rfl).1⟩

theorem orderly_nil (transport : Transport) : Orderly transport [] := by
  refine ⟨List.nil_prefix, ?_, Nat.zero_le 1, ?_⟩ <;> simp

namespace Orderly

/-- Anything but a job asked may be told at any time. -/
theorem tell (h : Orderly transport steps) {event : WorkflowEvent} (hnot : ∀ request, event ≠ .sent request) :
    Orderly transport (steps ++ [.tell event]) := by
  have hsent : sent (steps ++ [.tell event]) = sent steps := by
    rw [sent_append]
    cases event with
    | sent request => exact absurd rfl (hnot request)
    | state | received => exact List.append_nil _
  have hedits : edits (steps ++ [.tell event]) = edits steps := by
    rw [edits_append]
    exact List.append_nil _
  refine ⟨hsent ▸ h.kinds, ?_, hedits ▸ h.once, ?_⟩
  · intro before request after hsplit
    rcases split_concat hsplit with ⟨-, heq⟩ | ⟨after', hsplit⟩
    · injection heq with heq
      exact absurd heq.symm (hnot request)
    · exact h.asked before request after' hsplit
  · intro before text after hsplit
    rcases split_concat hsplit with ⟨-, heq⟩ | ⟨after', hsplit⟩
    · cases heq
    · exact h.edited before text after' hsplit

/-- The next job may be asked when those before it have been answered. -/
theorem send (h : Orderly transport steps) {request : JobRequest}
    (hkinds : (sent steps ++ [request]).map (·.kind) <+: jobOrder) (hanswered : AllAnswered transport steps) :
    Orderly transport (steps ++ [.tell (.sent request)]) := by
  refine ⟨?_, ?_, ?_, ?_⟩
  · rw [sent_append]
    exact hkinds
  · intro before request' after hsplit
    rcases split_concat hsplit with ⟨rfl, -⟩ | ⟨after', hsplit⟩
    · exact hanswered
    · exact h.asked before request' after' hsplit
  · rw [edits_append]
    exact (List.append_nil (edits steps)).symm ▸ h.once
  · intro before text after hsplit
    rcases split_concat hsplit with ⟨-, heq⟩ | ⟨after', hsplit⟩
    · cases heq
    · exact h.edited before text after' hsplit

/-- The editor may be handed the text of the remapping answer when all jobs have been answered. -/
theorem edit (h : Orderly transport steps) {request : JobRequest} {text : String} (hnone : edits steps = [])
    (hanswered : AllAnswered transport steps) (hkinds : (sent steps).map (·.kind) = jobOrder)
    (hrequest : request ∈ sent steps) (htext : transport request = .ok ⟨request.id, .remapping text⟩) :
    Orderly transport (steps ++ [.edit text]) := by
  refine ⟨?_, ?_, ?_, ?_⟩
  · rw [sent_append]
    exact (List.append_nil (sent steps)).symm ▸ h.kinds
  · intro before request' after hsplit
    rcases split_concat hsplit with ⟨-, heq⟩ | ⟨after', hsplit⟩
    · cases heq
    · exact h.asked before request' after' hsplit
  · rw [edits_append, hnone]
    exact Nat.le_refl 1
  · intro before text' after hsplit
    rcases split_concat hsplit with ⟨rfl, heq⟩ | ⟨after', hsplit⟩
    · obtain rfl : text' = text := by injection heq
      exact ⟨hanswered, hkinds, request, hrequest, htext⟩
    · exact h.edited before text' after' hsplit

end Orderly

end

/-! ## From stage to stage -/

/-- What holds between two stages of a run: it stands behind the stages up to this one, the jobs asked have been
    answered, and the editor has not been called. -/
structure Standing (transport : Transport) (start : Workflow) (stage : RemapState) (requests : List JobRequest)
    (progress : Progress) : Prop where
  workflow : progress.workflow = ⟨stage, start.history ++ stage.path⟩
  orderly : Orderly transport progress.steps
  sent : sent progress.steps = requests
  answered : AllAnswered transport progress.steps
  unedited : edits progress.steps = []

structure Stopped (transport : Transport) (start : Workflow) (progress : Progress) : Prop where
  workflow : ∃ stage, stage ≠ .none ∧ progress.workflow = ⟨stage, start.history ++ stage.path⟩
  orderly : Orderly transport progress.steps

section

variable {transport : Transport} {start : Workflow} {stage next : RemapState} {requests : List JobRequest}
  {request : JobRequest} {progress : Progress}

theorem standing_start (transport : Transport) {start : Workflow} (h : start.state = .none) :
    Standing transport start .none [] ⟨start, []⟩ := by
  refine ⟨?_, orderly_nil transport, rfl, ?_, rfl⟩
  · rw [show RemapState.none.path = [] from rfl, List.append_nil, ← h]
  · intro request hrequest
    cases hrequest

namespace Standing

/-- The next stage is entered. -/
theorem enter (h : Standing transport start stage requests progress) (hnext : stage.next? = some next) :
    Standing transport start next requests
      ⟨progress.workflow.enter next, progress.steps ++ [.tell (.state next)]⟩ := by
  refine ⟨?_, h.orderly.tell nofun, ?_, ?_, ?_⟩
  · rw [h.workflow, RemapState.path_next hnext, ← List.append_assoc]
    rfl
  · rw [sent_append, h.sent]
    exact List.append_nil requests
  · intro request hrequest
    rw [sent_append] at hrequest
    obtain ⟨hanswered, hreceived⟩ := h.answered request (by simpa [FieldRemap.sent] using hrequest)
    exact ⟨hanswered, List.mem_append_left _ hreceived⟩
  · rw [edits_append, h.unedited]
    rfl

theorem stopped (h : Standing transport start stage requests progress) (hstage : stage ≠ .none) :
    Stopped transport start progress :=
  ⟨⟨stage, hstage, h.workflow⟩, h.orderly⟩

/-- A job asked and answered rightly leaves the run standing. -/
theorem ask (h : Standing transport start stage requests progress)
    (hkinds : (requests ++ [request]).map (·.kind) <+: jobOrder) (hanswered : Answered transport request) :
    Standing transport start stage (requests ++ [request])
      { progress with steps := progress.steps ++ [.tell (.sent request)] ++ [.tell (.received request)] } := by
  have hsent : FieldRemap.sent (progress.steps ++ [.tell (.sent request)] ++ [.tell (.received request)]) =
      requests ++ [request] := by
    rw [sent_append, sent_append, h.sent]
    exact List.append_nil _
  refine ⟨h.workflow, ?_, hsent, ?_, ?_⟩
  · exact (h.orderly.send (by rw [h.sent]; exact hkinds) h.answered).tell nofun
  · intro earlier hearlier
    rw [hsent] at hearlier
    rcases List.mem_append.mp hearlier with hearlier | hearlier
    · obtain ⟨hanswered, hreceived⟩ := h.answered earlier (h.sent.symm ▸ hearlier)
      exact ⟨hanswered, by simp [hreceived]⟩
    · obtain rfl : earlier = request := List.mem_singleton.mp hearlier
      exact ⟨hanswered, by simp⟩
  · rw [edits_append, edits_append, h.unedited]
    rfl

end Standing

namespace Stopped

theorem tell (h : Stopped transport start progress) {event : WorkflowEvent}
    (hnot : ∀ request, event ≠ .sent request) :
    Stopped transport start { progress with steps := progress.steps ++ [.tell event] } :=
  ⟨h.workflow, h.orderly.tell hnot⟩

end Stopped

namespace Stage

/-- A stage that asks a job: the next stage is entered, the request is sent, and what comes back is either a value
    of the kind asked for or stops the run. -/
theorem ensures_ask {α : Type} {answer : JobResult → Stage α} (wrap : α → JobResult)
    (h : Standing transport start stage requests progress) (hnext : stage.next? = some next)
    (hkinds : (requests ++ [request]).map (·.kind) <+: jobOrder)
    (hwrap : ∀ value, (wrap value).kind? = some request.kind)
    (hanswer : ∀ result progress, Stopped transport start progress →
      (answer result).Ensures progress (Stopped transport start) fun value after =>
        after = progress ∧ result = wrap value) :
    (enter next >>= fun _ => send transport request >>= answer).Ensures progress (Stopped transport start)
      fun value after => Standing transport start next (requests ++ [request]) after ∧
        transport request = .ok ⟨request.id, wrap value⟩ := by
  have hentered := h.enter hnext
  apply ensures_bind
  apply ensures_enter
  · rw [h.workflow]
    exact RemapState.canMove_next hnext
  have hsent : Stopped transport start
      ⟨progress.workflow.enter next, progress.steps ++ [.tell (.state next)] ++ [.tell (.sent request)]⟩ :=
    ⟨(hentered.stopped (RemapState.ne_none_of_next hnext)).workflow,
      hentered.orderly.send (by rw [hentered.sent]; exact hkinds) hentered.answered⟩
  apply ensures_bind
  unfold send
  apply ensures_bind
  apply ensures_take
  cases hresponse : transport request with
  | error error => exact ensures_throw hsent
  | ok response =>
    show Ensures (if response.id = request.id then _ else _) _ _ _
    by_cases hid : response.id = request.id
    · rw [if_pos hid]
      apply ensures_bind
      apply ensures_take
      apply ensures_pure
      have hreceived := hsent.tell (show ∀ other, WorkflowEvent.received request ≠ .sent other from nofun)
      refine (hanswer response.result _ hreceived).imp ?_
      rintro value after ⟨rfl, hresult⟩
      have hok : transport request = .ok ⟨request.id, wrap value⟩ := by
        rw [hresponse, ← hid, ← hresult]
      exact ⟨hentered.ask hkinds ⟨wrap value, hok, hwrap value⟩, hresponse.symm.trans hok⟩
    · rw [if_neg hid]
      exact ensures_throw hsent

/-- A result that is not of the kind asked for stops the run. -/
theorem ensures_reject {α : Type} {post : α → Progress → Prop} (h : Stopped transport start progress)
    (request : JobRequest) (result : JobResult) :
    (reject request result : Stage α).Ensures progress (Stopped transport start) post := by
  cases result <;> exact ensures_throw h

theorem ensures_tokenize (h : Standing transport start .none [] progress) (id : JobId)
    (request : TokenizationRequest) :
    (tokenize transport id request).Ensures progress (Stopped transport start) fun _ after =>
      Standing transport start .tokenizing [⟨id, .tokenization request⟩] after := by
  refine (ensures_ask .tokenization h rfl ?_ (fun _ => rfl) ?_).imp fun value after hafter => hafter.1
  · exact ⟨[.remapping, .tracking], rfl⟩
  · intro result progress hstopped
    cases result with
    | tokenization text => exact ensures_pure ⟨rfl, rfl⟩
    | tracking | remapping | failed => exact ensures_reject hstopped _ _

theorem ensures_remap {first : JobRequest} (hfirst : first.kind = .tokenization)
    (h : Standing transport start .tokenizing [first] progress) (id : JobId) (request : RemappingRequest) :
    (remap transport id request).Ensures progress (Stopped transport start) fun text after =>
      Standing transport start .replacing [first, ⟨id, .remapping request⟩] after ∧
        transport ⟨id, .remapping request⟩ = .ok ⟨id, .remapping text⟩ := by
  refine ensures_ask .remapping h rfl ?_ (fun _ => rfl) ?_
  · exact ⟨[.tracking], by simp [hfirst]; rfl⟩
  · intro result progress hstopped
    cases result with
    | remapping text => exact ensures_pure ⟨rfl, rfl⟩
    | tracking | tokenization | failed => exact ensures_reject hstopped _ _

theorem ensures_track {first second : JobRequest} (hfirst : first.kind = .tokenization)
    (hsecond : second.kind = .remapping) (h : Standing transport start .replacing [first, second] progress)
    (id : JobId) (request : TrackingRequest) :
    (track transport id request).Ensures progress (Stopped transport start) fun _ after =>
      Standing transport start .tracking [first, second, ⟨id, .tracking request⟩] after := by
  refine (ensures_ask .tracking h rfl ?_ (fun _ => rfl) ?_).imp fun value after hafter => hafter.1
  · exact ⟨[], by simp [hfirst, hsecond]; rfl⟩
  · intro result progress hstopped
    cases result with
    | tracking response => exact ensures_pure ⟨rfl, rfl⟩
    | tokenization | remapping | failed => exact ensures_reject hstopped _ _

/-- The editor is handed the text of the remapping answer when all three jobs have been answered. -/
theorem ensures_edit (editor : String → Except String Unit) {text : String}
    (h : Standing transport start .tracking requests progress) (hkinds : requests.map (·.kind) = jobOrder)
    (hrequest : request ∈ requests) (htext : transport request = .ok ⟨request.id, .remapping text⟩) :
    (edit editor text).Ensures progress (Stopped transport start) fun _ after =>
      after.workflow = ⟨.updatingEditor, start.history ++ RemapState.updatingEditor.path⟩ ∧
        Orderly transport after.steps := by
  have hentered := h.enter (show RemapState.tracking.next? = some .updatingEditor from rfl)
  have hedited : Orderly transport (progress.steps ++ [.tell (.state .updatingEditor)] ++ [.edit text]) := by
    refine hentered.orderly.edit hentered.unedited hentered.answered ?_ ?_ htext
    · rw [hentered.sent]
      exact hkinds
    · rw [hentered.sent]
      exact hrequest
  unfold edit
  apply ensures_bind
  apply ensures_enter
  · rw [h.workflow]
    rfl
  apply ensures_bind
  apply ensures_take
  cases editor text with
  | ok => exact ensures_pure ⟨hentered.workflow, hedited⟩
  | error reason => exact ensures_throw ⟨⟨.updatingEditor, nofun, hentered.workflow⟩, hedited⟩

/-- A run from the start goes through all stages, or stops at one of them; its steps are in order either way. -/
theorem ensures_all (transport : Transport) (editor : String → Except String Unit) (ids : JobKind → JobId)
    (input : RemapInput) (hstart : start.state = .none) :
    (all transport editor ids input).Ensures ⟨start, []⟩ (Stopped transport start) fun _ after =>
      after.workflow = ⟨.complete, start.history ++ RemapState.stages⟩ ∧ Orderly transport after.steps := by
  unfold all
  apply ensures_bind
  refine (ensures_tokenize (standing_start transport hstart) _ _).imp ?_
  intro tokenized progress htokenized
  apply ensures_bind
  refine (ensures_remap rfl htokenized _ _).imp ?_
  intro remapped progress hremapped
  apply ensures_bind
  refine (ensures_track rfl rfl hremapped.1 _ _).imp ?_
  intro response progress htracked
  apply ensures_bind
  refine (ensures_edit editor htracked rfl (by simp) hremapped.2).imp ?_
  rintro ⟨⟩ progress ⟨hworkflow, horderly⟩
  apply ensures_bind
  apply ensures_enter
  · rw [hworkflow]
    rfl
  apply ensures_pure
  refine ⟨?_, horderly.tell nofun⟩
  rw [hworkflow]
  simp [Workflow.enter, RemapState.path, RemapState.stages, RemapState.index]

end Stage

end

/-! ## Runs and other calls -/

/-- A call on a workflow; a run meets any transport and any editor. -/
inductive WorkflowCall where
  | run (transport : Transport) (editor : String → Except String Unit) (ids : JobKind → JobId) (input : RemapInput)
  | acknowledge
  | abandon

namespace Workflow

/-- The workflow after a call; a refused acknowledgement leaves it as it is. -/
def after (workflow : Workflow) : WorkflowCall → Workflow
  | .run transport editor ids input => (workflow.run transport editor ids input).workflow
  | .acknowledge =>
    match workflow.acknowledge with
    | .ok workflow => workflow
    | .error _ => workflow
  | .abandon => workflow.abandon

variable {workflow : Workflow}

/-- A run from the start takes its steps in order, and either completes or is given up behind some stage. -/
theorem run_from_start (h : workflow.state = .none) (transport : Transport)
    (editor : String → Except String Unit) (ids : JobKind → JobId) (input : RemapInput) :
    let run := workflow.run transport editor ids input
    Orderly transport run.steps ∧
      ((∃ outcome, run.result = .ok outcome ∧ run.workflow = ⟨.complete, workflow.history ++ RemapState.stages⟩) ∨
        ∃ (error : WorkflowError) (stage : RemapState), run.result = .error error ∧ stage ≠ .none ∧
          run.workflow = ⟨.none, workflow.history ++ (stage.path ++ [.none])⟩ ∧
          run.events.getLast? = some (.state .none)) := by
  have hall := Stage.ensures_all transport editor ids input h
  unfold Stage.Ensures at hall
  simp only [run, h, if_true]
  generalize (Stage.all transport editor ids input).run ⟨workflow, []⟩ = outcome at hall ⊢
  obtain ⟨result, progress⟩ := outcome
  cases result with
  | ok outcome => exact ⟨hall.2, .inl ⟨outcome, rfl, hall.1⟩⟩
  | error error =>
    obtain ⟨⟨stage, hstage, hworkflow⟩, horderly⟩ := hall
    refine ⟨horderly.tell nofun, .inr ⟨error, stage, rfl, hstage, ?_, ?_⟩⟩
    · simp only [hworkflow, abandon, hstage, if_false, enter, List.append_assoc]
    · simp [WorkflowRun.events, WorkflowStep.event?]

/-- A run that is not at the start is refused and does nothing. -/
theorem run_refused (h : workflow.state ≠ .none) (transport : Transport)
    (editor : String → Except String Unit) (ids : JobKind → JobId) (input : RemapInput) :
    workflow.run transport editor ids input =
      ⟨workflow, .error (.invalidTransition workflow.state .tokenizing), []⟩ := by
  rw [run, if_neg h]

/-- A workflow between two calls: its history is made of runs, each closed by its return to the start, but for one
    at the end that is complete. -/
structure Rests (workflow : Workflow) : Prop where
  state : workflow.state = .none ∨ workflow.state = .complete
  last : workflow.state = workflow.history.getLast?.getD .none
  runs : ∃ closed : List (List RemapState), (∀ stages ∈ closed, stages ≠ [] ∧ stages <+: RemapState.stages) ∧
    workflow.history = closed.flatMap (· ++ [.none]) ++
      if workflow.state = .complete then RemapState.stages else []

theorem rests_new : Rests {} :=
  ⟨.inl rfl, rfl, [], nofun, rfl⟩

/-- A run that is given up closes. -/
theorem Rests.close (h : workflow.Rests) (hstate : workflow.state = .none) {stages : List RemapState}
    (hne : stages ≠ []) (hbegins : stages <+: RemapState.stages) :
    Rests ⟨.none, workflow.history ++ (stages ++ [.none])⟩ := by
  obtain ⟨closed, hclosed, hhistory⟩ := h.runs
  refine ⟨.inl rfl, ?_, closed ++ [stages], ?_, ?_⟩
  · simp
  · intro other hother
    rcases List.mem_append.mp hother with hother | hother
    · exact hclosed other hother
    · rw [List.mem_singleton.mp hother]
      exact ⟨hne, hbegins⟩
  · simp [hhistory, hstate]

/-- A run that completes stays open. -/
theorem Rests.complete (h : workflow.Rests) (hstate : workflow.state = .none) :
    Rests ⟨.complete, workflow.history ++ RemapState.stages⟩ := by
  obtain ⟨closed, hclosed, hhistory⟩ := h.runs
  refine ⟨.inr rfl, ?_, closed, hclosed, ?_⟩
  · simp [RemapState.stages]
  · simp [hhistory, hstate]

/-- A complete run closes when it is acknowledged or abandoned. -/
theorem Rests.enter_none (h : workflow.Rests) (hstate : workflow.state = .complete) :
    Rests (workflow.enter .none) := by
  obtain ⟨closed, hclosed, hhistory⟩ := h.runs
  refine ⟨.inl rfl, ?_, closed ++ [RemapState.stages], ?_, ?_⟩
  · simp [Workflow.enter]
  · intro other hother
    rcases List.mem_append.mp hother with hother | hother
    · exact hclosed other hother
    · rw [List.mem_singleton.mp hother]
      exact ⟨by decide, List.prefix_refl _⟩
  · simp [Workflow.enter, hhistory, hstate]

/-- Each call leaves the workflow at rest. -/
theorem rests_after (h : workflow.Rests) (call : WorkflowCall) : (workflow.after call).Rests := by
  cases call with
  | run transport editor ids input =>
    show (workflow.run transport editor ids input).workflow.Rests
    by_cases hstate : workflow.state = .none
    · obtain ⟨-, ⟨-, -, hrun⟩ | ⟨-, stage, -, hstage, hrun, -⟩⟩ :=
        run_from_start hstate transport editor ids input
      · rw [hrun]
        exact h.complete hstate
      · rw [hrun]
        exact h.close hstate (RemapState.path_ne_nil hstage) (List.take_prefix _ _)
    · rw [run_refused hstate]
      exact h
  | acknowledge =>
    by_cases hstate : workflow.state = .complete
    · simp only [after, acknowledge, if_pos hstate]
      exact h.enter_none hstate
    · simp only [after, acknowledge, if_neg hstate]
      exact h
  | abandon =>
    show workflow.abandon.Rests
    unfold abandon
    split
    · exact h
    · next hstate => exact h.enter_none (h.state.resolve_left hstate)

def reached (calls : List WorkflowCall) : Workflow :=
  calls.foldl after {}

theorem rests_reached (calls : List WorkflowCall) : (reached calls).Rests := by
  suffices hfold : ∀ workflow : Workflow, workflow.Rests → (calls.foldl after workflow).Rests from hfold {} rests_new
  induction calls with
  | nil => exact fun workflow h => h
  | cons call rest ih => exact fun workflow h => ih (workflow.after call) (rests_after h call)

/-- After any calls the workflow is at rest, and what is called next is safe: a run takes its steps in order and is
    given up when it fails, and what is refused does nothing. -/
theorem workflow_safe (calls : List WorkflowCall) :
    let workflow := reached calls
    workflow.Rests ∧
    (∀ (transport : Transport) (editor : String → Except String Unit) (ids : JobKind → JobId) (input : RemapInput),
      let run := workflow.run transport editor ids input
      Orderly transport run.steps ∧
      (workflow.state = .none → ∀ error, run.result = .error error →
        run.workflow.state = .none ∧ run.events.getLast? = some (.state .none)) ∧
      (workflow.state ≠ .none → run.workflow = workflow ∧
        run.result = .error (.invalidTransition workflow.state .tokenizing) ∧ run.steps = [])) ∧
    (workflow.state ≠ .complete → workflow.acknowledge = .error (.invalidTransition workflow.state .none) ∧
      workflow.after .acknowledge = workflow) := by
  intro workflow
  refine ⟨rests_reached calls, ?_, ?_⟩
  · intro transport editor ids input run
    by_cases hstate : workflow.state = .none
    · obtain ⟨horderly, hend⟩ := run_from_start hstate transport editor ids input
      refine ⟨horderly, ?_, fun hnot => absurd hstate hnot⟩
      intro _ error herror
      rcases hend with ⟨outcome, hok, -⟩ | ⟨_, stage, -, -, hworkflow, hlast⟩
      · rw [show run.result = .ok outcome from hok] at herror
        cases herror
      · exact ⟨congrArg Workflow.state hworkflow, hlast⟩
    · have hrun : run = ⟨workflow, .error (.invalidTransition workflow.state .tokenizing), []⟩ :=
        run_refused hstate transport editor ids input
      rw [hrun]
      exact ⟨orderly_nil transport, fun h => absurd h hstate, fun _ => ⟨rfl, rfl, rfl⟩⟩
  · intro hstate
    simp only [after, acknowledge, if_neg hstate, and_self]

/-- Where every answer is a text, the tracking job is answered in the wrong kind, and the editor is not called. -/
example :
    let transport : Transport := fun request => .ok ⟨request.id, match request.kind with
      | .tokenization => .tokenization "[]"
      | _ => .remapping "[]"⟩
    let run := Workflow.run {} transport (fun _ => .ok ()) (fun _ => .ofNat 0) { specText := "[]" }
    run.workflow = ⟨.none, [.tokenizing, .replacing, .tracking, .none]⟩ ∧
      (sent run.steps).map (·.kind) = jobOrder ∧ run.edited = none := by
  decide +kernel

end Workflow

end FieldRemap
