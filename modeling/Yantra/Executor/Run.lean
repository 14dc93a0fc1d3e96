import Yantra.Executor.Handlers
import Yantra.Protocol.Semantic
import Yantra.Lib.Machine

/-!
# The plan executor

`Executor`: the cursor over the plan's steps, the confirmation checkpoint before a flagged
step, retries, branch jumps, loops with their nested bodies, and the checkpoint after a
completed step. One machine step runs the source from one `await` on the outside world to the
next, so a run can be cut between any two of them; what the outside answers is the input.

## Main definitions

* `RunState`, `Control` — a run and the point it has reached.
* `executor` — the machine; `Plan.flagged` — the steps that need consent.

## Main results

* `settle_trace`, `settle_captures` — settling a result dispatches nothing and
  stores nothing.
* `callHandler_trace` — a dispatch leaves one dispatch mark under its store marks.
-/

namespace Yantra

open Option

/-! ## Runs -/

def maxTotalStepExecutions : Nat := 1000

inductive RunOutcome where
  | completed (outputKeys : List String)
  | failed (failureClass : FailureClass)
  | handoff
  deriving DecidableEq, Repr, Inhabited

/-- A loop being run. -/
structure LoopFrame where
  loopIdx : Nat
  as : String
  bodyStepIds : List String
  /-- The items of the iterations not yet begun. -/
  items : List Value
  /-- The body steps of the current iteration not yet dispatched. -/
  todo : List String

/-- The point a run has reached. `total` is the source's `totalExecutions`. -/
inductive Control where
  /-- Before the scope check and the opening of the page. -/
  | starting
  /-- At the head of the cursor loop. -/
  | cursor (i total : Nat)
  /-- Waiting for the gateway's answer to the request of step `i`. -/
  | gate (i total : Nat) (request : ConfirmationRequest)
  /-- About to call the handler of step `i` from the cursor loop. -/
  | dispatch (i total attempt : Nat)
  /-- Inside the handler of loop step `i`, innermost loop first. -/
  | inLoop (i total attempt : Nat) (frames : List LoopFrame)
  /-- Step `i` has completed and its checkpoint is not yet on disk. -/
  | saving (i total : Nat)
  | finished (outcome : RunOutcome)
  | threw (message : String)

/-- What a run does, in the order it does it. -/
inductive Mark where
  /-- The cursor came to step `i`. -/
  | visit (i : Nat)
  | answered (request : ConfirmationRequest) (reply : GatewayReply)
  /-- The handler of step `i` was called. -/
  | dispatched (i : Nat)
  /-- The handler of step `i` stored a capture. -/
  | stored (i : Nat) (key : String) (value : Value)

/-- A completed step, with where the cursor goes next and the stores it leaves. -/
structure Completion where
  idx : Nat
  next : Nat
  captures : CaptureStore
  budgets : RetryBudget

/-- The mutable state of a run. The last three fields record what the run has done, newest
first. -/
structure RunState where
  control : Control
  captures : CaptureStore
  budgets : RetryBudget
  page : Bool
  currentStepIdx : Nat := 0
  completedStepIds : List String := []
  checkpoints : CheckpointStore
  confirmations : List ConfirmationEntry
  events : List TaskEvent := []
  trace : List Mark := []
  completions : List Completion := []
  /-- The steps whose checkpoint was written. -/
  saved : List Nat := []

namespace RunState

@[simps] def mark (s : RunState) (m : Mark) : RunState := { s with trace := m :: s.trace }

@[simps] def publish (s : RunState) (e : TaskEvent) : RunState := { s with events := s.events ++ [e] }

/-- Move to another point. -/
@[simps] def goto (s : RunState) (c : Control) : RunState := { s with control := c }

def handlerCtx (s : RunState) : HandlerCtx := ⟨s.captures, s.budgets, s.page⟩

/-- Store a capture on behalf of step `i`. -/
@[simps] def store (s : RunState) (i : Nat) (key : String) (v : Value) : RunState :=
  { s with captures := s.captures.set key v, trace := .stored i key v :: s.trace }

/-- `emitFailure` and the return of a failed outcome. -/
def fail (s : RunState) (failureClass : FailureClass) : RunState :=
  (s.publish (.taskFailed failureClass)).goto (.finished (.failed failureClass))

/-- Call step `i` completed. -/
def complete (s : RunState) (i : Nat) (step : Step) (captureKeys : List String) (next : Nat) :
    RunState :=
  { s with
      completedStepIds := s.completedStepIds ++ [step.id]
      completions := ⟨i, next, s.captures, s.budgets⟩ :: s.completions }.publish
    (.stepCompleted step.id captureKeys)

end RunState

/-! ## Handlers -/

/-- The marks of the captures a handler stored: the keys its result names, with the values the
store holds under them. -/
def storeMarks (i : Nat) (captures : CaptureStore) : StepResult → List Mark
  | .completed keys => keys.filterMap fun key => (captures.get? key).map (.stored i key)
  | _ => []

/-- How a call of a handler comes back: an exception, a result, or, from `handleLoop`, with the
loop's iterations still to run. -/
inductive Reply where
  | threw (message : String)
  | returned (result : StepResult)
  | entered (frame : LoopFrame)

/-- `STEP_DISPATCH.get(step.type)` applied to step `j`. -/
def callHandler (env : RunEnv) (w : World) (s : RunState) (j : Nat) (step : Step) :
    RunState × Reply :=
  let s := s.mark (.dispatched j)
  match handleStep env s.handlerCtx w step with
  | some (.error message) => (s, .threw message)
  | some (.ok h) =>
      ({ s with
          captures := h.captures
          events := s.events ++ h.events
          trace := storeMarks j h.captures h.result ++ s.trace }, .returned h.result)
  | none =>
    match step.body with
    | .loop l =>
      match startLoop env.plan s.captures step.id l with
      | .error message => (s, .threw message)
      | .ok (.inl result) => (s, .returned result)
      | .ok (.inr (items, cap)) => (s, .entered ⟨j, l.as, l.bodyStepIds, items.take cap, []⟩)
    | _ => (s, .returned (.failed .unexpected
        ("No handler registered for step type \"" ++ step.verb.name ++ "\".")))

/-- What the cursor loop does with the result of step `i`. -/
def settle (env : RunEnv) (s : RunState) (i total attempt : Nat) (step : Step) :
    StepResult → RunState
  | .retried reason =>
    if s.budgets.canRetry .step then
      ({ s with budgets := (s.budgets.consume .step).getD s.budgets }.publish
        (.stepRetry step.id (attempt + 1) reason)).goto (.dispatch i total (attempt + 1))
    else s.fail .budgetExhausted
  | .completed keys => (s.complete i step keys (i + 1)).goto (.saving i total)
  | .jump toStepId =>
    match env.plan.stepIdx? toStepId with
    | none =>
      ({ s with completedStepIds := s.completedStepIds ++ [step.id] }.publish
        (.stepCompleted step.id [])).fail .unexpected
    | some j => (s.complete i step [] j).goto (.cursor j total)
  | .ethicsRefused _ _ _ =>
    (s.publish (.scopeViolation (step.scope.getD env.plan.defaultScope) step.verb step.id)).fail
      .ethicsRefused
  | .handoffRequested reason =>
    (s.publish (.humanHandoffRequested step.id reason)).goto (.finished .handoff)
  | .failed failureClass _ => s.fail failureClass

lemma callHandler_trace (env : RunEnv) (w : World) (s : RunState) (j : Nat) (step : Step) :
    ∃ stores, (∀ m ∈ stores, ∃ key v, m = Mark.stored j key v) ∧
      (callHandler env w s j step).1.trace = stores ++ .dispatched j :: s.trace := by
  have hnone : ∀ m ∈ ([] : List Mark), ∃ key v, m = Mark.stored j key v := by simp
  unfold callHandler
  simp only
  split
  · exact ⟨[], hnone, rfl⟩
  · rename_i h _
    refine ⟨storeMarks j h.captures h.result, fun m hm => ?_, rfl⟩
    unfold storeMarks at hm
    split at hm
    · simp only [List.mem_filterMap, map_eq_some_iff] at hm
      obtain ⟨key, _, v, _, rfl⟩ := hm
      exact ⟨key, v, rfl⟩
    · simp at hm
  · split
    · split <;> exact ⟨[], hnone, rfl⟩
    · exact ⟨[], hnone, rfl⟩

variable {s : RunState}

variable {env : RunEnv} {w : World} {j : Nat}

lemma callHandler_entered {step : Step} {s' : RunState} {frame : LoopFrame}
    (h : callHandler env w s j step = (s', .entered frame)) :
    ∃ l, step.body = .loop l := by
  unfold callHandler at h
  simp only at h
  split at h
  · simp at h
  · simp at h
  · rename_i hnone
    exact handleStep_eq_none_iff.1 hnone

@[simp] lemma settle_trace (env : RunEnv) (s : RunState) (i total attempt : Nat) (step : Step)
    (r : StepResult) : (settle env s i total attempt step r).trace = s.trace := by
  unfold settle
  repeat' split
  all_goals rfl

@[simp] lemma settle_captures (env : RunEnv) (s : RunState) (i total attempt : Nat) (step : Step)
    (r : StepResult) :
    (settle env s i total attempt step r).captures = s.captures := by
  unfold settle
  repeat' split
  all_goals rfl

/-- Where the cursor loop goes after a result of step `i`: a retry of it, its checkpoint,
another step, or the end. -/
lemma settle_control (env : RunEnv) (s : RunState) (i total attempt : Nat) (step : Step)
    (r : StepResult) :
    (settle env s i total attempt step r).control = .dispatch i total (attempt + 1) ∨
      (settle env s i total attempt step r).control = .saving i total ∨
      (∃ j, (settle env s i total attempt step r).control = .cursor j total) ∨
      ∃ o, (settle env s i total attempt step r).control = .finished o := by
  unfold settle
  split
  · split
    · exact .inl rfl
    · exact .inr (.inr (.inr ⟨_, rfl⟩))
  · exact .inr (.inl rfl)
  · split
    · exact .inr (.inr (.inr ⟨_, rfl⟩))
    · exact .inr (.inr (.inl ⟨_, rfl⟩))
  · exact .inr (.inr (.inr ⟨_, rfl⟩))
  · exact .inr (.inr (.inr ⟨_, rfl⟩))
  · exact .inr (.inr (.inr ⟨_, rfl⟩))

/-! ## The cursor loop -/

/-- `resolveHostForStep`. -/
def resolveHostForStep (env : RunEnv) (w : World) (step : Step) : String :=
  let pageHost := w.pageUrl.elim "unknown" fun u => (env.urlHost u).getD u
  match step.body with
  | .navigate _ (.literal (.str url)) => (env.urlHost url).getD url
  | _ => pageHost

/-- The confirmation annotations of a step; a step that cannot carry any has none. -/
def Step.annotations (step : Step) : ConfirmationAnnotations :=
  match step.body with
  | .navigate a _ | .click a _ _ | .fill a _ _ _ | .fillElement a _ _ _ _ => a
  | _ => {}

/-- The request `runConfirmationCheckpoint` builds for a step. -/
def confirmationRequest (env : RunEnv) (w : World) (s : RunState) (step : Step) :
    ConfirmationRequest where
  confirmationId := s.confirmations.length
  runId := env.runId
  stepId := step.id
  actionKind := step.verb
  host := resolveHostForStep env w step
  description := step.annotations.confirmationDescription.getD
    ("Execute " ++ step.verb.name ++ " on " ++ resolveHostForStep env w step)
  expectedCost := step.annotations.expectedCost
  consequence := step.annotations.consequence.getD .unknown

def resolveOutputKeys (p : Plan) (captures : CaptureStore) : List String :=
  (p.outputs.filter fun o => captures.has o.source.stepId).map OutputBinding.name

/-- One turn of the cursor loop, up to the call of the handler or of the gateway. -/
def startStep (env : RunEnv) (w : World) (s : RunState) (i total : Nat) : RunState :=
  match env.plan.steps[i]? with
  | none =>
    let outputKeys := resolveOutputKeys env.plan s.captures
    (s.publish (.taskCompleted outputKeys)).goto (.finished (.completed outputKeys))
  | some step =>
    if maxTotalStepExecutions < total + 1 then s.fail .budgetExhausted
    else
      let s := ({ s with currentStepIdx := i }.publish (.stepStarted step.id step.verb)).mark
        (.visit i)
      if step.requiresConfirmation then
        if env.gateway then
          let request := confirmationRequest env w s step
          ({ s with confirmations := s.confirmations ++ [ConfirmationEntry.request request] }.publish
            (.confirmationRequested request)).goto (.gate i (total + 1) request)
        else s.goto (.finished .handoff)
      else s.goto (.dispatch i (total + 1) 0)

/-- The rest of `runConfirmationCheckpoint`, once there is a decision. -/
def applyDecision (s : RunState) (i total : Nat) (stepId : String)
    (decision : ConfirmationDecision) : RunState :=
  let s := { s with confirmations := s.confirmations ++ [ConfirmationEntry.decision decision] }.publish
    (.confirmationResolved decision.confirmationId decision.decision decision.decidedBy)
  if decision.decision = .granted then s.goto (.dispatch i total 0)
  else (s.publish (.humanHandoffRequested stepId .other)).goto (.finished .handoff)

/-- The gateway answers: a decision is appended and applied, an exception counts as a denial,
and a parked request is left without a decision. -/
def answerGate (w : World) (s : RunState) (i total : Nat) (request : ConfirmationRequest) :
    RunState :=
  let s := s.mark (.answered request w.gateway)
  match w.gateway with
  | .decided decision decidedBy =>
      applyDecision s i total request.stepId ⟨request.confirmationId, decision, decidedBy⟩
  | .threw => applyDecision s i total request.stepId ⟨request.confirmationId, .denied, .timeout⟩
  | .parked =>
      (s.publish (.humanHandoffRequested request.stepId .other)).goto (.finished .handoff)

/-- Call the handler of step `i` from the cursor loop. -/
def dispatchStep (env : RunEnv) (w : World) (s : RunState) (i total attempt : Nat) : RunState :=
  match env.plan.steps[i]? with
  | none => s
  | some step =>
    match callHandler env w s i step with
    | (s, .threw message) => s.goto (.threw message)
    | (s, .returned result) => settle env s i total attempt step result
    | (s, .entered frame) => s.goto (.inLoop i total attempt [frame])

def bodyStep? (p : Plan) (id : String) : Option (Nat × Step) :=
  (p.stepIdx? id).bind fun j => (p.steps[j]?).map fun step => (j, step)

lemma bodyStep?_spec {p : Plan} {id : String} {body : Step} (h : bodyStep? p id = some (j, body)) :
    p.steps[j]? = some body := by
  simp only [bodyStep?, bind_eq_some_iff, map_eq_some_iff, Prod.mk.injEq] at h
  obtain ⟨_, _, _, hj, rfl, rfl⟩ := h
  exact hj

/-- One move of `handleLoop` for loop step `i`: dispatch the next body step of the innermost
loop, begin its next iteration, or leave it. A body step is called directly; a result other
than `completed` leaves every loop at once. -/
def loopStep (env : RunEnv) (w : World) (s : RunState) (i total attempt : Nat) (step : Step) :
    List LoopFrame → RunState
  | [] => settle env s i total attempt step (.completed [])
  | f :: outer =>
    match f.todo with
    | id :: todo =>
      let frames := { f with todo := todo } :: outer
      match bodyStep? env.plan id with
      | none => s.goto (.inLoop i total attempt frames)
      | some (j, body) =>
        match callHandler env w s j body with
        | (s, .threw message) => s.goto (.threw message)
        | (s, .returned (.completed _)) => s.goto (.inLoop i total attempt frames)
        | (s, .returned result) => settle env s i total attempt step result
        | (s, .entered g) => s.goto (.inLoop i total attempt (g :: frames))
    | [] =>
      match f.items with
      | v :: items => (s.store f.loopIdx f.as v).goto
          (.inLoop i total attempt ({ f with items := items, todo := f.bodyStepIds } :: outer))
      | [] => s.goto (.inLoop i total attempt outer)

/-- Write the checkpoint of step `i` and move on to the next step. -/
def saveCheckpoint (env : RunEnv) (w : World) (s : RunState) (i total : Nat) : RunState :=
  match env.plan.steps[i]? with
  | none => s
  | some step =>
    if w.checkpointSaved then
      ({ s with
          checkpoints := s.checkpoints.save
            ⟨step.id, i, s.captures.snapshot, s.budgets.snapshot⟩
          saved := i :: s.saved }.publish (.checkpointSaved step.id)).goto (.cursor (i + 1) total)
    else s.goto (.threw "The checkpoint could not be written.")

def checkScopeViolations (p : Plan) : Option Step :=
  p.steps.find? fun step => !allowedVerbsByScope (step.scope.getD p.defaultScope) step.verb

/-- The head of `Executor.run`: the scope check and `ensureExecutionBrowser`. -/
def startRun (env : RunEnv) (w : World) (s : RunState) : RunState :=
  match checkScopeViolations env.plan with
  | some step =>
      (s.publish (.scopeViolation (step.scope.getD env.plan.defaultScope) step.verb step.id)).fail
        .scopeViolation
  | none =>
    match !s.page && env.browser, w.action with
    | true, .threw message => s.goto (.threw message)
    | opened, _ => ({ s with page := s.page || opened }.publish .taskStarted).goto (.cursor 0 0)

def executorStep (env : RunEnv) (s : RunState) (w : World) : RunState :=
  match s.control with
  | .starting => startRun env w s
  | .cursor i total => startStep env w s i total
  | .gate i total request => answerGate w s i total request
  | .dispatch i total attempt => dispatchStep env w s i total attempt
  | .inLoop i total attempt frames =>
    match env.plan.steps[i]? with
    | none => s
    | some step => loopStep env w s i total attempt step frames
  | .saving i total => saveCheckpoint env w s i total
  | .finished _ => s
  | .threw _ => s

/-! ## What touches the files -/

/-- The files of a run: its checkpoints, with the record of the steps they were written for, and
its confirmation log. -/
def RunState.files (s : RunState) : CheckpointStore × List Nat × List ConfirmationEntry :=
  (s.checkpoints, s.saved, s.confirmations)

lemma callHandler_files (env : RunEnv) (w : World) (s : RunState) (j : Nat) (step : Step) :
    (callHandler env w s j step).1.files = s.files := by
  unfold callHandler
  simp only
  split
  · rfl
  · rfl
  · split
    · split <;> rfl
    · rfl

lemma settle_files (env : RunEnv) (s : RunState) (i total attempt : Nat) (step : Step)
    (r : StepResult) : (settle env s i total attempt step r).files = s.files := by
  unfold settle
  repeat' split
  all_goals rfl

lemma dispatchStep_files (env : RunEnv) (w : World) (s : RunState) (i total attempt : Nat) :
    (dispatchStep env w s i total attempt).files = s.files := by
  unfold dispatchStep
  split
  · rfl
  · rename_i step _
    have hfiles := callHandler_files env w s i step
    rcases hcall : callHandler env w s i step with ⟨s', reply⟩
    rw [hcall] at hfiles
    cases reply with
    | threw message => exact hfiles
    | entered g => exact hfiles
    | returned result => exact (settle_files ..).trans hfiles

lemma loopStep_files (env : RunEnv) (w : World) (s : RunState) (i total attempt : Nat) (step : Step)
    (frames : List LoopFrame) :
    (loopStep env w s i total attempt step frames).files = s.files := by
  cases frames with
  | nil => exact settle_files ..
  | cons f outer =>
    cases htodo : f.todo with
    | nil => cases hitems : f.items <;> simp only [loopStep, htodo, hitems] <;> rfl
    | cons id todo =>
      cases hbody : bodyStep? env.plan id with
      | none =>
        simp only [loopStep, htodo, hbody]
        rfl
      | some jb =>
        have hfiles := callHandler_files env w s jb.1 jb.2
        rcases hcall : callHandler env w s jb.1 jb.2 with ⟨s', reply⟩
        rw [hcall] at hfiles
        simp only [loopStep, htodo, hbody, hcall]
        cases reply with
        | threw message => exact hfiles
        | entered g => exact hfiles
        | returned result =>
          cases result with
          | completed keys => exact hfiles
          | _ => exact (settle_files ..).trans hfiles

lemma executorStep_checkpoints (env : RunEnv) (w : World)
    (hs : ∀ i total, s.control ≠ .saving i total) :
    (executorStep env s w).checkpoints = s.checkpoints ∧
      (executorStep env s w).saved = s.saved := by
  have hof : ∀ {s' : RunState}, s'.files = s.files →
      s'.checkpoints = s.checkpoints ∧ s'.saved = s.saved :=
    fun h => ⟨congrArg Prod.fst h, congrArg (fun f => f.2.1) h⟩
  unfold executorStep
  cases hc : s.control with
  | starting =>
    simp only [startRun]
    split
    · exact ⟨rfl, rfl⟩
    · split <;> exact ⟨rfl, rfl⟩
  | cursor i total =>
    simp only [startStep]
    split
    · exact ⟨rfl, rfl⟩
    · split_ifs <;> exact ⟨rfl, rfl⟩
  | gate i total request =>
    simp only [answerGate, applyDecision]
    split
    · split_ifs <;> exact ⟨rfl, rfl⟩
    · split_ifs <;> exact ⟨rfl, rfl⟩
    · exact ⟨rfl, rfl⟩
  | dispatch i total attempt => exact hof (dispatchStep_files ..)
  | inLoop i total attempt frames =>
    simp only
    split
    · exact ⟨rfl, rfl⟩
    · exact hof (loopStep_files ..)
  | saving i total => exact absurd hc (hs i total)
  | finished o => exact ⟨rfl, rfl⟩
  | threw message => exact ⟨rfl, rfl⟩

/-- The point is no gate, and no first call of a flagged step. -/
def Control.unasked (env : RunEnv) : Control → Prop
  | .gate _ _ _ => False
  | .dispatch i _ attempt =>
      attempt = 0 → ∀ step, env.plan.steps[i]? = some step → step.requiresConfirmation = false
  | _ => True

lemma settle_unasked (env : RunEnv) (s : RunState) (i total attempt : Nat) (step : Step)
    (r : StepResult) : (settle env s i total attempt step r).control.unasked env := by
  rcases settle_control env s i total attempt step r with h | h | ⟨j, h⟩ | ⟨o, h⟩
  · rw [h]
    exact fun hzero => absurd hzero (Nat.succ_ne_zero attempt)
  · rw [h]
    trivial
  · rw [h]
    trivial
  · rw [h]
    trivial

lemma dispatchStep_unasked {i total attempt : Nat} (hs : s.control = .dispatch i total attempt) :
    (dispatchStep env w s i total attempt).control.unasked env := by
  unfold dispatchStep
  cases hi : env.plan.steps[i]? with
  | none =>
    simp only [hs]
    intro _ step hstep
    rw [hi] at hstep
    cases hstep
  | some step =>
    simp only
    rcases callHandler env w s i step with ⟨s', reply⟩
    cases reply with
    | threw message => trivial
    | entered g => trivial
    | returned result => exact settle_unasked ..

lemma loopStep_unasked (env : RunEnv) (w : World) (s : RunState) (i total attempt : Nat)
    (step : Step) (frames : List LoopFrame) :
    (loopStep env w s i total attempt step frames).control.unasked env := by
  cases frames with
  | nil => exact settle_unasked ..
  | cons f outer =>
    cases htodo : f.todo with
    | nil => cases hitems : f.items <;> simp only [loopStep, htodo, hitems] <;> trivial
    | cons id todo =>
      cases hbody : bodyStep? env.plan id with
      | none =>
        simp only [loopStep, htodo, hbody]
        trivial
      | some jb =>
        rcases hcall : callHandler env w s jb.1 jb.2 with ⟨s', reply⟩
        simp only [loopStep, htodo, hbody, hcall]
        cases reply with
        | threw message => trivial
        | entered g => trivial
        | returned result =>
          cases result with
          | completed keys => trivial
          | _ => exact settle_unasked ..

/-- **What a step does about consent.** It asks for a flagged step at the cursor, it takes the
answer at the gate, and anywhere else it leaves the log alone and comes to no gate and to no first
call of a flagged step. -/
inductive ConsentStep (env : RunEnv) (s : RunState) (w : World) (s' : RunState) : Prop
  | asked (i total : Nat) (step : Step) (request : ConfirmationRequest)
      (hstep : env.plan.steps[i]? = some step) (hid : request.stepId = step.id)
      (hrun : request.runId = env.runId)
      (hfresh : request.confirmationId = s.confirmations.length)
      (hcursor : ∃ turns, s.control = .cursor i turns)
      (hlog : s'.confirmations = s.confirmations ++ [.request request])
      (hcontrol : s'.control = .gate i total request)
  | decided (i total : Nat) (request : ConfirmationRequest) (d : ConfirmationDecision)
      (hgate : s.control = .gate i total request) (hw : w.gateway ≠ .parked)
      (hid : d.confirmationId = request.confirmationId)
      (hlog : s'.confirmations = s.confirmations ++ [.decision d])
      (hcontrol : s'.control = .dispatch i total 0 ∧ d.decision = .granted ∧
          (∃ decidedBy, w.gateway = .decided .granted decidedBy) ∨
        s'.control = .finished .handoff)
  | parked (i total : Nat) (request : ConfirmationRequest)
      (hgate : s.control = .gate i total request) (hw : w.gateway = .parked)
      (hlog : s'.confirmations = s.confirmations)
      (hcontrol : s'.control = .finished .handoff)
  | other (hold : ∀ i total q, s.control ≠ .gate i total q)
      (hlog : s'.confirmations = s.confirmations) (hcontrol : s'.control.unasked env)

lemma executorStep_consent (env : RunEnv) (s : RunState) (w : World) :
    ConsentStep env s w (executorStep env s w) := by
  have hlogof : ∀ {s' : RunState}, s'.files = s.files → s'.confirmations = s.confirmations :=
    fun h => congrArg (fun f => f.2.2) h
  cases hc : s.control with
  | starting =>
    refine .other (by simp [hc]) ?_ ?_
    · simp only [executorStep, hc, startRun]
      split
      · rfl
      · split <;> rfl
    · simp only [executorStep, hc, startRun]
      split
      · trivial
      · split <;> trivial
  | cursor i total =>
    cases hi : env.plan.steps[i]? with
    | none =>
      refine .other (by simp [hc]) ?_ ?_
      · simp only [executorStep, hc, startStep, hi]
        rfl
      · simp only [executorStep, hc, startStep, hi]
        trivial
    | some step =>
      by_cases hmax : maxTotalStepExecutions < total + 1
      · refine .other (by simp [hc]) ?_ ?_
        · simp only [executorStep, hc, startStep, hi, if_pos hmax]
          rfl
        · simp only [executorStep, hc, startStep, hi, if_pos hmax]
          trivial
      · by_cases hf : step.requiresConfirmation
        · by_cases hgw : env.gateway
          · refine .asked i (total + 1) step
              (confirmationRequest env w (({ s with currentStepIdx := i }.publish
                (.stepStarted step.id step.verb)).mark (.visit i)) step)
              hi rfl rfl rfl ⟨total, hc⟩ ?_ ?_
            · simp only [executorStep, hc, startStep, hi, if_neg hmax, if_pos hf, if_pos hgw]
              rfl
            · simp only [executorStep, hc, startStep, hi, if_neg hmax, if_pos hf, if_pos hgw]
              rfl
          · refine .other (by simp [hc]) ?_ ?_
            · simp only [executorStep, hc, startStep, hi, if_neg hmax, if_pos hf, if_neg hgw]
              rfl
            · simp only [executorStep, hc, startStep, hi, if_neg hmax, if_pos hf, if_neg hgw]
              trivial
        · refine .other (by simp [hc]) ?_ ?_
          · simp only [executorStep, hc, startStep, hi, if_neg hmax, if_neg hf]
            rfl
          · simp only [executorStep, hc, startStep, hi, if_neg hmax, if_neg hf]
            intro _ t ht
            obtain rfl := some.inj (hi.symm.trans ht)
            simpa using hf
  | gate i total request =>
    cases hw : w.gateway with
    | parked =>
      refine .parked i total request hc hw ?_ ?_
      · simp only [executorStep, hc, answerGate, hw]
        rfl
      · simp only [executorStep, hc, answerGate, hw]
        rfl
    | threw =>
      refine .decided i total request ⟨request.confirmationId, .denied, .timeout⟩ hc
        (by simp [hw]) rfl ?_ (.inr ?_)
      · simp only [executorStep, hc, answerGate, hw]
        rfl
      · simp only [executorStep, hc, answerGate, hw]
        rfl
    | decided decision decidedBy =>
      refine .decided i total request ⟨request.confirmationId, decision, decidedBy⟩ hc
        (by simp [hw]) rfl ?_ ?_
      · simp only [executorStep, hc, answerGate, hw, applyDecision]
        split_ifs <;> rfl
      · cases decision with
        | granted =>
          refine .inl ⟨?_, rfl, decidedBy, hw⟩
          simp only [executorStep, hc, answerGate, hw, applyDecision, if_true]
          rfl
        | denied =>
          refine .inr ?_
          simp only [executorStep, hc, answerGate, hw]
          rfl
        | timedOut =>
          refine .inr ?_
          simp only [executorStep, hc, answerGate, hw]
          rfl
  | dispatch i total attempt =>
    refine .other (by simp [hc]) ?_ ?_
    · simp only [executorStep, hc]
      exact hlogof (dispatchStep_files ..)
    · simp only [executorStep, hc]
      exact dispatchStep_unasked hc
  | inLoop i total attempt frames =>
    refine .other (by simp [hc]) ?_ ?_
    · simp only [executorStep, hc]
      split
      · rfl
      · exact hlogof (loopStep_files ..)
    · simp only [executorStep, hc]
      split
      · rw [hc]
        trivial
      · exact loopStep_unasked ..
  | saving i total =>
    refine .other (by simp [hc]) ?_ ?_
    · simp only [executorStep, hc, saveCheckpoint]
      split
      · rfl
      · split_ifs <;> rfl
    · simp only [executorStep, hc, saveCheckpoint]
      split
      · rw [hc]
        trivial
      · split_ifs <;> trivial
  | finished o =>
    refine .other (by simp [hc]) ?_ ?_
    · simp only [executorStep, hc]
    · simp only [executorStep, hc]
      trivial
  | threw message =>
    refine .other (by simp [hc]) ?_ ?_
    · simp only [executorStep, hc]
    · simp only [executorStep, hc]
      trivial

/-! ## Entering the executor -/

/-- `createExecutionContext`: the state a fresh context starts in, with the checkpoint files and
the confirmation log its run directory already holds. A context has no page of its own. -/
def createExecutionContext (checkpoints : CheckpointStore)
    (confirmations : List ConfirmationEntry) : RunState where
  control := .starting
  captures := OrderedMap.empty
  budgets := {}
  page := false
  checkpoints := checkpoints
  confirmations := confirmations

/-- `Executor.run` on a fresh run directory. -/
def executor (env : RunEnv) : Machine RunState World where
  init := createExecutionContext OrderedMap.empty []
  step := executorStep env

/-- `Executor.resumeFrom`: straight to the step after the checkpointed one. -/
def resumeFrom (c : Checkpoint) (s : RunState) : RunState :=
  s.goto (.cursor (c.afterStepIdx + 1) 0)

end Yantra
