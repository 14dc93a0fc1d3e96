import Yantra.Executor.ConsentGate
import Yantra.Executor.Termination

/-!
# The event log of a run

What a run publishes is all a reader of `events.jsonl` sees of it. `LogReader` is that reader: where
the run stands after the events so far, what it has completed, the retries it has left, and which
event may come next. The executor is held against it over whole runs, begun or resumed.

## Main definitions

* `LogState.next`, `LogReader.read` — the protocol of the log.
* `LogState.Agrees` — the log tells the point a run has reached.

## Main results

* `read_events` — the log of every run keeps the protocol and tells where the run is.
* `dispatched_in_scope` — no run dispatches a step its scope forbids.
-/

namespace Yantra

open List

/-! ## The protocol -/

/-- The verbs after which the cursor can go on without a checkpoint. -/
def StepVerb.jumps (verb : StepVerb) : Bool := [StepVerb.branch, .loop].contains verb

/-- Where a run stands, for a reader of its log. -/
inductive LogState where
  | unopened
  /-- A violation was published, and the run must fail with this class. -/
  | refused (failureClass : FailureClass)
  /-- No step is under way. -/
  | idle
  /-- A step is under way, after so many retries, and consent was asked for or not. -/
  | running (stepId : String) (verb : StepVerb) (retries : Nat) (asked : Bool)
  | asking (stepId : String) (verb : StepVerb) (confirmationId : Nat)
  /-- The answer was no grant. -/
  | declined (stepId : String)
  /-- A step has completed, and its checkpoint is not yet in the log. -/
  | done (stepId : String) (verb : StepVerb)
  | closed
  deriving DecidableEq, Repr, Inhabited

/-- What may come next. -/
def LogState.next : LogState → TaskEvent → Option LogState
  | .unopened, .taskStarted => some .idle
  | .unopened, .scopeViolation _ _ _ => some (.refused .scopeViolation)
  | .refused c, .taskFailed c' => if c' = c then some .closed else none
  | .idle, .stepStarted id verb => some (.running id verb 0 false)
  | .idle, .taskCompleted _ => some .closed
  | .idle, .taskFailed _ => some .closed
  | .running id verb retries asked, .confirmationRequested q =>
      if q.stepId = id ∧ retries = 0 ∧ asked = false then some (.asking id verb q.confirmationId)
      else none
  | .asking id verb c, .confirmationResolved c' decision _ =>
      if c' ≠ c then none
      else if decision = .granted then some (.running id verb 0 true) else some (.declined id)
  | .asking id _ _, .humanHandoffRequested id' _ => if id' = id then some .closed else none
  | .declined id, .humanHandoffRequested id' _ => if id' = id then some .closed else none
  | .running id verb retries asked, .stepRetry id' attempt _ =>
      if id' = id ∧ attempt = retries + 1 then some (.running id verb attempt asked) else none
  | .running id verb retries asked, .llmStepSkipped _ _ _ => some (.running id verb retries asked)
  | .running id verb _ _, .stepCompleted id' _ => if id' = id then some (.done id verb) else none
  | .running id _ _ _, .scopeViolation _ _ id' =>
      if id' = id then some (.refused .ethicsRefused) else none
  | .running id _ _ _, .humanHandoffRequested id' _ => if id' = id then some .closed else none
  | .running _ _ _ _, .taskFailed _ => some .closed
  | .done id _, .checkpointSaved id' => if id' = id then some .idle else none
  | .done _ verb, .stepStarted id verb' =>
      if verb.jumps then some (.running id verb' 0 false) else none
  | .done _ verb, .taskFailed _ => if verb.jumps then some .closed else none
  | _, _ => none

/-- A reader of the log: the steps completed and the step retries left come with the state. -/
structure LogReader where
  state : LogState
  completed : List String
  retriesLeft : Nat
  deriving DecidableEq, Repr, Inhabited

namespace LogReader

@[simp] def next (r : LogReader) (e : TaskEvent) : Option LogReader :=
  (r.state.next e).bind fun state =>
    match e with
    | .stepCompleted id _ => some { r with state := state, completed := r.completed ++ [id] }
    | .stepRetry _ _ _ =>
        if r.retriesLeft = 0 then none
        else some { r with state := state, retriesLeft := r.retriesLeft - 1 }
    | _ => some { r with state := state }

/-- The reader after some more events; `none` where they break the protocol. -/
def read : LogReader → List TaskEvent → Option LogReader
  | r, [] => some r
  | r, e :: es => (r.next e).bind fun r' => r'.read es

lemma read_append {r r' : LogReader} {es : List TaskEvent} (h : r.read es = some r')
    (es' : List TaskEvent) : r.read (es ++ es') = r'.read es' := by
  induction es generalizing r with
  | nil => rw [Option.some.inj h, nil_append]
  | cons e es ih =>
    obtain ⟨r₁, hnext, hread⟩ := Option.bind_eq_some_iff.1 h
    simp only [cons_append, read, hnext, Option.bind_some, ih hread]

end LogReader

/-- What a reader in state `ℓ` should know of the run. -/
@[simp] def RunState.reader (s : RunState) (ℓ : LogState) : LogReader :=
  ⟨ℓ, s.completedStepIds, s.budgets.remaining.stepAttempts⟩

/-- The log tells where the run is. A run that no gateway can ask for stops in silence. -/
def LogState.Agrees (env : RunEnv) (ℓ : LogState) : Control → Prop
  | .starting => ℓ = .unopened
  | .cursor i _ => ℓ = .idle ∨
      i < env.plan.steps.length ∧ ∃ id verb, verb.jumps ∧ ℓ = .done id verb
  | .gate i _ q => ∃ step, env.plan.steps[i]? = some step ∧ q.stepId = step.id ∧
      ℓ = .asking step.id step.verb q.confirmationId
  | .dispatch i _ attempt => ∃ step asked, env.plan.steps[i]? = some step ∧
      ℓ = .running step.id step.verb attempt asked
  | .inLoop i _ attempt _ => ∃ step asked, env.plan.steps[i]? = some step ∧ step.verb = .loop ∧
      ℓ = .running step.id step.verb attempt asked
  | .saving i _ => ∃ step, env.plan.steps[i]? = some step ∧ ℓ = .done step.id step.verb
  | .finished .handoff =>
      ℓ = .closed ∨ env.gateway = false ∧ ∃ id verb, ℓ = .running id verb 0 false
  | .finished _ => ℓ = .closed
  | .threw _ => True

/-! ## What a step publishes -/

/-- From `s` to `s'` the run publishes what the protocol allows, and the log tells where it is. -/
def Emits (env : RunEnv) (ℓ : LogState) (s s' : RunState) : Prop :=
  ∃ es ℓ', s'.events = s.events ++ es ∧ (s.reader ℓ).read es = some (s'.reader ℓ') ∧
    ℓ'.Agrees env s'.control

variable {env : RunEnv} {w : World} {ℓ ℓ' : LogState} {s s' s'' : RunState}

lemma Emits.trans {es : List TaskEvent} (hes : s'.events = s.events ++ es)
    (hread : (s.reader ℓ).read es = some (s'.reader ℓ')) (h : Emits env ℓ' s' s'') :
    Emits env ℓ s s'' := by
  obtain ⟨es', ℓ'', hes', hread', hagrees⟩ := h
  refine ⟨es ++ es', ℓ'', ?_, ?_, hagrees⟩
  · rw [hes', hes, append_assoc]
  · rwa [LogReader.read_append hread]

lemma Emits.publish {e : TaskEvent} (ℓ' : LogState) (hes : s'.events = s.events ++ [e])
    (hnext : (s.reader ℓ).next e = some (s'.reader ℓ')) (h : Emits env ℓ' s' s'') :
    Emits env ℓ s s'' :=
  h.trans hes (by rw [LogReader.read, hnext]; rfl)

/-- A move that publishes nothing. -/
lemma Emits.silent (hes : s'.events = s.events) (hreader : s'.reader ℓ = s.reader ℓ)
    (h : ℓ.Agrees env s'.control) : Emits env ℓ s s' :=
  ⟨[], ℓ, by rw [hes, append_nil], by rw [hreader]; rfl, h⟩

def StepResult.jumps : StepResult → Bool
  | .jump _ => true
  | _ => false

variable {i total attempt : Nat} {step : Step}

@[simp] lemma jumps_locatorMiss (ctx : HandlerCtx) (reason : String) :
    (locatorMiss ctx reason).jumps = false := by
  unfold locatorMiss
  split <;> rfl

@[simp] lemma jumps_afterAction (reply : ActionReply) : (afterAction reply).jumps = false := by
  cases reply <;> rfl

@[simp] lemma jumps_driveFillElement (env : RunEnv) (ctx : HandlerCtx) (w : World)
    (value : ValueRef) : (driveFillElement env ctx w value).jumps = false := by
  unfold driveFillElement
  repeat' split
  all_goals rfl

/-- Only a branch jumps, and only a skipped summary publishes. -/
lemma handleStep_spec {ctx : HandlerCtx} {h : Handled}
    (hs : handleStep env ctx w step = some (.ok h)) :
    (h.result.jumps → step.verb = .branch) ∧
      (h.events = [] ∨ ∃ id key reason, h.events = [.llmStepSkipped id key reason]) := by
  cases hb : step.body with
  | branch condition thenStepId elseStepId =>
    simp only [handleStep, hb, Option.some.injEq, Except.ok.injEq] at hs
    subst hs
    exact ⟨fun _ => by simp [Step.verb, hb, StepBody.verb], .inl rfl⟩
  | loop l => simp [handleStep, hb] at hs
  | assert locator condition =>
    simp only [handleStep, hb, Option.some.injEq] at hs
    cases hr : handleAssert env ctx w locator condition with
    | error message => simp [hr, Except.map] at hs
    | ok r =>
      simp only [hr, Except.map, Except.ok.injEq] at hs
      subst hs
      refine ⟨fun hj => absurd hj ?_, .inl rfl⟩
      unfold handleAssert at hr
      repeat' split at hr
      all_goals cases hr
      all_goals first
        | exact Bool.false_ne_true
        | (split <;> exact Bool.false_ne_true)
  | llmSummarize input prompt outputAs =>
    simp only [handleStep, hb, Option.some.injEq, Except.ok.injEq] at hs
    subst hs
    unfold handleLlmSummarize
    repeat' split
    all_goals simp [StepResult.jumps]
  | _ =>
    simp only [handleStep, hb, Option.some.injEq, Except.ok.injEq] at hs
    subst hs
    refine ⟨fun hj => absurd hj ?_, .inl rfl⟩
    simp only [handleNavigate, handleClick, handleFill, handleFillElement, handleExtract,
      handleWaitFor, handleCallWorkflow]
    repeat' split
    all_goals first
      | exact Bool.false_ne_true
      | simp

lemma callHandler_emits (env : RunEnv) (w : World) (s : RunState) (j : Nat) (step : Step)
    (id : String) (verb : StepVerb) (retries : Nat) (asked : Bool) :
    ∃ es, (callHandler env w s j step).1.events = s.events ++ es ∧
      (s.reader (.running id verb retries asked)).read es =
        some ((callHandler env w s j step).1.reader (.running id verb retries asked)) := by
  unfold callHandler
  simp only
  split
  · exact ⟨[], (append_nil _).symm, rfl⟩
  · rename_i h hs
    rcases (handleStep_spec hs).2 with hes | ⟨_, _, _, hes⟩
    · exact ⟨[], by rw [hes]; rfl, rfl⟩
    · exact ⟨h.events, rfl, by rw [hes]; rfl⟩
  · split
    · split <;> exact ⟨[], (append_nil _).symm, rfl⟩
    · exact ⟨[], (append_nil _).symm, rfl⟩

lemma callHandler_jumps {r : StepResult} (h : callHandler env w s i step = (s', .returned r))
    (hr : r.jumps) : step.verb.jumps := by
  unfold callHandler at h
  simp only at h
  split at h
  · simp at h
  · rename_i hs
    obtain ⟨-, rfl⟩ : _ ∧ _ = r := by simpa using h
    rw [(handleStep_spec hs).1 hr]
    rfl
  · rename_i hnone
    obtain ⟨l, hl⟩ := handleStep_eq_none_iff.1 hnone
    simp [Step.verb, hl, StepBody.verb, StepVerb.jumps]

/-- **Settling a result.** The step is retried, waits for its checkpoint, has jumped, or the run
has ended. -/
lemma settle_emits (hi : env.plan.steps[i]? = some step) (asked : Bool) {r : StepResult}
    (hr : r.jumps → step.verb.jumps) :
    Emits env (.running step.id step.verb attempt asked) s
      (settle env s i total attempt step r) := by
  unfold settle
  split
  · split
    · rename_i hretry
      refine .publish (.running step.id step.verb (attempt + 1) asked) rfl ?_
        (.silent rfl rfl ⟨step, asked, hi, rfl⟩)
      have hleft : s.budgets.remaining.stepAttempts ≠ 0 :=
        Nat.ne_of_gt (of_decide_eq_true hretry)
      simp [LogState.next, RetryBudget.consume,
        RetryBudgetLevels.at, hleft]
    · exact .publish _ rfl rfl (.silent rfl rfl rfl)
  · refine .publish (.done step.id step.verb) rfl ?_ (.silent rfl rfl ⟨step, hi, rfl⟩)
    simp [LogState.next, RunState.complete]
  · rename_i toStepId
    have hverb : step.verb.jumps := hr rfl
    cases hj : env.plan.stepIdx? toStepId with
    | none =>
      refine .publish (.done step.id step.verb) rfl ?_
        (.publish .closed rfl ?_ (.silent rfl rfl rfl))
      · simp [LogState.next]
      · simp [LogState.next, hverb, RunState.fail]
    | some j =>
      obtain ⟨target, htarget, -⟩ := Plan.stepIdx?_spec hj
      have hlt : j < env.plan.steps.length := (List.getElem?_eq_some_iff.1 htarget).1
      refine .publish (.done step.id step.verb) rfl ?_
        (.silent rfl rfl (.inr ⟨hlt, _, _, hverb, rfl⟩))
      simp [LogState.next, RunState.complete]
  · refine .publish (.refused .ethicsRefused) rfl ?_ (.publish _ rfl rfl (.silent rfl rfl rfl))
    simp [LogState.next]
  · refine .publish .closed rfl ?_ (.silent rfl rfl (.inl rfl))
    simp [LogState.next]
  · exact .publish _ rfl rfl (.silent rfl rfl rfl)

lemma dispatchStep_emits (hi : env.plan.steps[i]? = some step) (asked : Bool) :
    Emits env (.running step.id step.verb attempt asked) s
      (dispatchStep env w s i total attempt) := by
  obtain ⟨es, hes, hread⟩ := callHandler_emits env w s i step step.id step.verb attempt asked
  rcases hcall : callHandler env w s i step with ⟨s', reply⟩
  rw [hcall] at hes hread
  simp only [dispatchStep, hi, hcall]
  cases reply with
  | threw message => exact .trans hes hread (.silent rfl rfl trivial)
  | returned r => exact .trans hes hread (settle_emits hi asked (callHandler_jumps hcall))
  | entered g =>
    obtain ⟨l, hl⟩ := callHandler_entered hcall
    have hverb : step.verb = .loop := by simp [Step.verb, hl, StepBody.verb]
    exact .trans hes hread (.silent rfl rfl ⟨step, asked, hi, hverb, rfl⟩)

lemma loopStep_emits (hi : env.plan.steps[i]? = some step) (hverb : step.verb = .loop) (asked : Bool)
    (frames : List LoopFrame) :
    Emits env (.running step.id step.verb attempt asked) s
      (loopStep env w s i total attempt step frames) := by
  have hjumps : step.verb.jumps := by rw [hverb]; rfl
  have hstay : ∀ {t : RunState} {frames : List LoopFrame},
      LogState.Agrees env (.running step.id step.verb attempt asked)
        (t.goto (.inLoop i total attempt frames)).control := ⟨step, asked, hi, hverb, rfl⟩
  cases frames with
  | nil => exact settle_emits hi asked fun _ => hjumps
  | cons f outer =>
    cases htodo : f.todo with
    | nil =>
      cases hitems : f.items <;> simp only [loopStep, htodo, hitems] <;>
        exact .silent rfl rfl hstay
    | cons id todo =>
      cases hbody : bodyStep? env.plan id with
      | none =>
        simp only [loopStep, htodo, hbody]
        exact .silent rfl rfl hstay
      | some called =>
        obtain ⟨j, body⟩ := called
        obtain ⟨es, hes, hread⟩ :=
          callHandler_emits env w s j body step.id step.verb attempt asked
        rcases hcall : callHandler env w s j body with ⟨s', reply⟩
        rw [hcall] at hes hread
        simp only [loopStep, htodo, hbody, hcall]
        cases reply with
        | threw message => exact .trans hes hread (.silent rfl rfl trivial)
        | entered g => exact .trans hes hread (.silent rfl rfl hstay)
        | returned r =>
          cases r with
          | completed keys => exact .trans hes hread (.silent rfl rfl hstay)
          | _ => exact .trans hes hread (settle_emits hi asked fun _ => hjumps)

/-- **One move of the executor keeps the protocol**, and the log tells where it is. -/
lemma executorStep_emits (w : World) (h : ℓ.Agrees env s.control) :
    Emits env ℓ s (executorStep env s w) := by
  cases hc : s.control with
  | starting =>
    rw [hc] at h
    obtain rfl : ℓ = .unopened := h
    simp only [executorStep, hc, startRun]
    split
    · exact .publish _ rfl rfl (.publish _ rfl rfl (.silent rfl rfl rfl))
    · split
      · exact .silent rfl rfl trivial
      · exact .publish _ rfl rfl (.silent rfl rfl (.inl rfl))
  | cursor i total =>
    rw [hc] at h
    simp only [executorStep, hc, startStep]
    cases hi : env.plan.steps[i]? with
    | none =>
      rcases h with rfl | ⟨hlt, -⟩
      · exact .publish _ rfl rfl (.silent rfl rfl rfl)
      · rw [List.getElem?_eq_getElem hlt] at hi
        cases hi
    | some step =>
      have hfail : ∀ c, ℓ.next (.taskFailed c) = some .closed := by
        rcases h with rfl | ⟨-, id, verb, hverb, rfl⟩
        · exact fun _ => rfl
        · simp [LogState.next, hverb]
      have hstart : ℓ.next (.stepStarted step.id step.verb) =
          some (.running step.id step.verb 0 false) := by
        rcases h with rfl | ⟨-, id, verb, hverb, rfl⟩
        · rfl
        · simp [LogState.next, hverb]
      simp only
      split_ifs with hmax hflag hgateway
      · refine .publish .closed rfl ?_ (.silent rfl rfl rfl)
        simp [hfail, RunState.fail]
      · refine .publish (.running step.id step.verb 0 false) rfl ?_
          (.publish (.asking step.id step.verb s.confirmations.length) rfl ?_
            (.silent rfl rfl ⟨step, hi, rfl, rfl⟩))
        · simp [hstart]
        · simp [LogState.next, confirmationRequest]
      · refine .publish (.running step.id step.verb 0 false) rfl ?_
          (.silent rfl rfl (.inr ⟨by simpa using hgateway, _, _, rfl⟩))
        simp [hstart]
      · refine .publish (.running step.id step.verb 0 false) rfl ?_
          (.silent rfl rfl ⟨step, false, hi, rfl⟩)
        simp [hstart]
  | gate i total q =>
    rw [hc] at h
    obtain ⟨step, hi, hid, rfl⟩ := h
    have hdecided : ∀ d : ConfirmationDecision, d.confirmationId = q.confirmationId →
        Emits env (.asking step.id step.verb q.confirmationId) s
          (applyDecision (s.mark (.answered q w.gateway)) i total q.stepId d) := by
      intro d hd
      unfold applyDecision
      split_ifs with hgranted
      · refine .publish (.running step.id step.verb 0 true) rfl ?_
          (.silent rfl rfl ⟨step, true, hi, rfl⟩)
        simp [LogState.next, hd, hgranted]
      · refine .publish (.declined step.id) rfl ?_
          (.publish .closed rfl ?_ (.silent rfl rfl (.inl rfl)))
        · simp [LogState.next, hd, hgranted]
        · simp [LogState.next, hid]
    simp only [executorStep, hc, answerGate]
    split
    · exact hdecided _ rfl
    · exact hdecided _ rfl
    · refine .publish .closed rfl ?_ (.silent rfl rfl (.inl rfl))
      simp [LogState.next, hid]
  | dispatch i total attempt =>
    rw [hc] at h
    obtain ⟨step, asked, hi, rfl⟩ := h
    simp only [executorStep, hc]
    exact dispatchStep_emits hi asked
  | inLoop i total attempt frames =>
    rw [hc] at h
    obtain ⟨step, asked, hi, hverb, rfl⟩ := h
    simp only [executorStep, hc, hi]
    exact loopStep_emits hi hverb asked frames
  | saving i total =>
    rw [hc] at h
    obtain ⟨step, hi, rfl⟩ := h
    simp only [executorStep, hc, saveCheckpoint, hi]
    split_ifs
    · exact .publish .idle rfl (by simp [LogState.next]) (.silent rfl rfl (.inl rfl))
    · exact .silent rfl rfl trivial
  | finished o =>
    simp only [executorStep, hc]
    exact .silent rfl rfl (hc ▸ h)
  | threw message =>
    simp only [executorStep, hc]
    exact .silent rfl rfl (hc ▸ h)

/-! ## Whole runs -/

/-- Where the reader of a run starts: a resumed run has been opened. -/
def LogState.entry : Control → LogState
  | .starting => .unopened
  | _ => .idle

/-- **The event log.** Begun afresh or resumed at any step, and cut anywhere, a run has published
what the protocol allows, and its log tells where it is, which steps it has completed and how many
retries it has left.

**Proof sketch.** `Emits` composes, and every move of the executor keeps the protocol. -/
theorem read_events (env : RunEnv) (ws : List World) (hs : s.Entry) (hlog : s.events = []) :
    ∃ ℓ, (s.reader (.entry s.control)).read ((executor env).runFrom s ws).events =
        some (((executor env).runFrom s ws).reader ℓ) ∧
      ℓ.Agrees env ((executor env).runFrom s ws).control := by
  have hrun : ∀ (ws : List World) (t : RunState) (ℓ : LogState), ℓ.Agrees env t.control →
      Emits env ℓ t ((executor env).runFrom t ws) := by
    intro ws
    induction ws with
    | nil => exact fun t ℓ h => .silent rfl rfl h
    | cons w ws ih =>
      intro t ℓ h
      obtain ⟨es, ℓ', hes, hread, hagrees⟩ := executorStep_emits w h
      exact .trans hes hread (ih _ _ hagrees)
  have hentry : (LogState.entry s.control).Agrees env s.control := by
    rcases hs.2 with hc | ⟨i, hc⟩
    · rw [hc]
      rfl
    · rw [hc]
      exact .inl rfl
  obtain ⟨es, ℓ, hes, hread, hagrees⟩ := hrun ws s _ hentry
  rw [hlog, nil_append] at hes
  exact ⟨ℓ, by rw [hes, hread], hagrees⟩

/-- The run of a plan whose loop calls a flagged click, cut after five moves. -/
theorem read_events_flaggedBody :
    let s := (executor flaggedBodyEnv).init
    ∃ ℓ, (s.reader (.entry s.control)).read
        ((executor flaggedBodyEnv).runFrom s (replicate 5 {})).events =
          some (((executor flaggedBodyEnv).runFrom s (replicate 5 {})).reader ℓ) ∧
      ℓ.Agrees flaggedBodyEnv ((executor flaggedBodyEnv).runFrom s (replicate 5 {})).control :=
  read_events flaggedBodyEnv (replicate 5 {}) ⟨rfl, .inl rfl⟩ rfl

/-! ## Scopes -/

lemma mem_callHandler_trace {j k : Nat}
    (h : Mark.dispatched k ∈ (callHandler env w s j step).1.trace) :
    Mark.dispatched k ∈ s.trace ∨ k = j := by
  obtain ⟨stores, hstores, htrace⟩ := callHandler_trace env w s j step
  rw [htrace, mem_append, mem_cons] at h
  rcases h with h | h | h
  · obtain ⟨key, v, hv⟩ := hstores _ h
    cases hv
  · exact .inr (Mark.dispatched.inj h)
  · exact .inl h

/-- A move dispatches what it is about to call. -/
lemma executorStep_called {k : Nat} (h : Mark.dispatched k ∈ (executorStep env s w).trace) :
    Mark.dispatched k ∈ s.trace ∨ ∃ step, nextCall env s = some (k, step) := by
  cases hc : s.control with
  | starting =>
    simp only [executorStep, hc, startRun] at h
    split at h
    · exact .inl h
    · split at h <;> exact .inl h
  | cursor i total =>
    simp only [executorStep, hc, startStep] at h
    split at h
    · exact .inl h
    · split_ifs at h
      · exact .inl h
      all_goals exact .inl (by simpa using h)
  | gate i total q =>
    simp only [executorStep, hc, answerGate, applyDecision] at h
    refine .inl ?_
    split at h
    · split_ifs at h <;> simpa using h
    · split_ifs at h <;> simpa using h
    · simpa using h
  | dispatch i total attempt =>
    simp only [executorStep, hc, dispatchStep] at h
    cases hi : env.plan.steps[i]? with
    | none => exact .inl (by simpa only [hi] using h)
    | some step =>
      simp only [hi] at h
      have hcalled := @mem_callHandler_trace env w s step i k
      rcases hcall : callHandler env w s i step with ⟨s', reply⟩
      rw [hcall] at h hcalled
      have htrace : Mark.dispatched k ∈ s'.trace := by
        cases reply <;> simpa using h
      exact (hcalled htrace).imp_right fun hk => ⟨step, by simp [nextCall, hc, hi, hk]⟩
  | inLoop i total attempt frames =>
    simp only [executorStep, hc] at h
    cases hi : env.plan.steps[i]? with
    | none => exact .inl (by simpa only [hi] using h)
    | some step =>
      simp only [hi] at h
      cases frames with
      | nil => exact .inl (by simpa [loopStep] using h)
      | cons f outer =>
        cases htodo : f.todo with
        | nil =>
          cases hitems : f.items <;> simp only [loopStep, htodo, hitems] at h <;>
            exact .inl (by simpa using h)
        | cons id todo =>
          cases hbody : bodyStep? env.plan id with
          | none => exact .inl (by simpa [loopStep, htodo, hbody] using h)
          | some called =>
            obtain ⟨j, body⟩ := called
            simp only [loopStep, htodo, hbody] at h
            have hcalled := @mem_callHandler_trace env w s body j k
            rcases hcall : callHandler env w s j body with ⟨s', reply⟩
            rw [hcall] at h hcalled
            have htrace : Mark.dispatched k ∈ s'.trace := by
              cases reply with
              | returned r => cases r <;> simpa using h
              | _ => simpa using h
            refine (hcalled htrace).imp_right fun hk => ⟨body, ?_⟩
            rw [nextCall_inLoop hc htodo, hbody, hk]
  | saving i total =>
    simp only [executorStep, hc, saveCheckpoint] at h
    split at h
    · exact .inl h
    · split_ifs at h <;> exact .inl h
  | finished o => simp only [executorStep, hc] at h; exact .inl h
  | threw message => simp only [executorStep, hc] at h; exact .inl h

lemma nextCall_spec {k : Nat} (h : nextCall env s = some (k, step)) :
    env.plan.steps[k]? = some step ∧ s.control ≠ .starting ∧ s.control.stopped = false := by
  cases hc : s.control with
  | dispatch i total attempt =>
    simp only [nextCall, hc, Option.map_eq_some_iff, Prod.mk.injEq] at h
    obtain ⟨_, hi, rfl, rfl⟩ := h
    exact ⟨hi, by rintro ⟨⟩, rfl⟩
  | inLoop i total attempt frames =>
    cases frames with
    | nil => simp [nextCall, hc] at h
    | cons f outer =>
      simp only [nextCall, hc] at h
      obtain ⟨id, -, hid⟩ := Option.bind_eq_some_iff.1 h
      exact ⟨bodyStep?_spec hid, by rintro ⟨⟩, rfl⟩
  | _ => simp [nextCall, hc] at h

/-- **The plan bounds what is dispatched.** -/
lemma mem_plan_of_dispatched (ws : List World) {k : Nat}
    (h : Mark.dispatched k ∈ ((executor env).run ws).trace) :
    ∃ step, env.plan.steps[k]? = some step := by
  have hstep : ∀ (s : RunState) (w : World),
      (∀ k, Mark.dispatched k ∈ s.trace → ∃ step, env.plan.steps[k]? = some step) →
      ∀ k, Mark.dispatched k ∈ ((executor env).step s w).trace →
        ∃ step, env.plan.steps[k]? = some step := by
    intro s w hs k hk
    rcases executorStep_called hk with hold | ⟨step, hcall⟩
    · exact hs k hold
    · exact ⟨step, (nextCall_spec hcall).1⟩
  have hinit : ∀ k, Mark.dispatched k ∈ (executor env).init.trace →
      ∃ step, env.plan.steps[k]? = some step :=
    fun _ h => absurd h not_mem_nil
  exact Machine.invariant_runFrom' hstep hinit ws k h

/-- A plan that violates a scope is refused before its first step. -/
lemma refused_of_violation (hviolation : checkScopeViolations env.plan ≠ none) (ws : List World) :
    (((executor env).run ws).control = .starting ∨ ((executor env).run ws).control.stopped) ∧
      ∀ k, Mark.dispatched k ∉ ((executor env).run ws).trace := by
  obtain ⟨step, hstep⟩ := Option.ne_none_iff_exists'.1 hviolation
  have hmove : ∀ (s : RunState) (w : World),
      (s.control = .starting ∨ s.control.stopped) ∧ (∀ k, Mark.dispatched k ∉ s.trace) →
      (((executor env).step s w).control = .starting ∨ ((executor env).step s w).control.stopped) ∧
        ∀ k, Mark.dispatched k ∉ ((executor env).step s w).trace := by
    rintro s w ⟨hcontrol, htrace⟩
    refine ⟨?_, fun k hk => ?_⟩
    · rcases hcontrol with hc | hstop
      · simp only [executor, executorStep, hc, startRun, hstep]
        exact .inr rfl
      · have hsame : (executor env).step s w = s := executorStep_stopped w hstop
        rw [hsame]
        exact .inr hstop
    · rcases executorStep_called hk with hold | ⟨step, hcall⟩
      · exact htrace k hold
      · obtain ⟨-, hstart, hrun⟩ := nextCall_spec hcall
        rcases hcontrol with hc | hstop
        · exact hstart hc
        · rw [hrun] at hstop
          cases hstop
  have hinit : ((executor env).init.control = .starting ∨ (executor env).init.control.stopped) ∧
      ∀ k, Mark.dispatched k ∉ (executor env).init.trace :=
    ⟨.inl rfl, fun _ => not_mem_nil⟩
  exact Machine.invariant_runFrom' hmove hinit ws

/-- **Scopes.** Whatever a run dispatches, in a loop or after a jump, is a step of the plan whose
verb its scope allows.

**Proof sketch.** A move dispatches only what it is about to call, which is a step of the plan, and
nothing is called before every step's scope has been checked. -/
theorem dispatched_in_scope (env : RunEnv) (ws : List World) {k : Nat}
    (h : Mark.dispatched k ∈ ((executor env).run ws).trace) :
    ∃ step, env.plan.steps[k]? = some step ∧
      allowedVerbsByScope (step.scope.getD env.plan.defaultScope) step.verb := by
  obtain ⟨step, hstep⟩ := mem_plan_of_dispatched ws h
  refine ⟨step, hstep, ?_⟩
  by_cases hviolation : checkScopeViolations env.plan = none
  · have hall := find?_eq_none.1 hviolation step (mem_of_getElem? hstep)
    simpa using hall
  · exact absurd h ((refused_of_violation hviolation ws).2 k)

/-- The first step of a plan over the rows of a page extracts them. -/
theorem dispatched_in_scope_rows :
    ∃ step, (rowsEnv ["s3"]).plan.steps[0]? = some step ∧ allowedVerbsByScope
      (step.scope.getD (rowsEnv ["s3"]).plan.defaultScope) step.verb :=
  dispatched_in_scope (rowsEnv ["s3"]) (replicate 3 {}) (mem_of_getElem? (i := 1) rfl)

end Yantra
