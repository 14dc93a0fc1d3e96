import Yantra.Lib.Machine

/-!
# Tool calls

The middleware pipeline of an agentic run. Every call is checked at the head of the pipeline, may
then be suspended in its policy hook and in its confirmation, and only after both starts its domain
operation. `result_publish` is one of the tools: its operation checks the action phase, evaluates
and writes the publication, and closes the phase. Calls run concurrently, interleaved at every
await with each other, with aborts, and with timeouts.

## Main definitions

* `ToolSpec`, `ToolCall`, `ToolRun` — a tool, a call, and a run.
* `toolRun` — the run as a machine.

## Main results

* `toolStep` — what an event can do, once for every event.
-/

namespace Yantra

/-! ## Results -/

inductive ToolStatus where
  | ok | error | denied | aborted
  deriving DecidableEq, Repr, Inhabited

structure ToolResult where
  status : ToolStatus
  errorCode : Option String := none
  retryable : Bool := false
  deriving DecidableEq, Repr, Inhabited

def failure (errorCode : String) (retryable : Bool) : ToolResult :=
  ⟨.error, some errorCode, retryable⟩

/-- The result of a call without consent. -/
def deniedResult (errorCode : String) : ToolResult := ⟨.denied, some errorCode, false⟩

def abortedResult : ToolResult := ⟨.aborted, some "AGENT_ABORTED", false⟩

def timeoutResult : ToolResult := failure "TOOL_TIMEOUT" true

/-- The result of an unexpected exception. -/
def executionFailed : ToolResult := failure "TOOL_EXECUTION_FAILED" true

/-! ## Tools and calls -/

inductive ToolOperation where
  | other
  /-- `runPublish`; `template` tells that the run has a report template, `composes` that the
  content of the call composes to a Brief. -/
  | publish (template composes : Bool)
  deriving DecidableEq, Repr, Inhabited

/-- What the pipeline reads of a tool, for the parameters of one call. -/
structure ToolSpec where
  name : String
  operation : ToolOperation := .other
  /-- Rejected after the action phase closes. -/
  mutating : Bool := false
  contractGated : Bool := false
  evidenceGathering : Bool := false
  hasPolicy : Bool := false
  requiresConfirmation : Bool := false
  buildsConfirmation : Bool := false
  deriving DecidableEq, Repr, Inhabited

inductive GatewayAnswer where
  | granted | denied | timedOut
  deriving DecidableEq, Repr, Inhabited

inductive CallPhase where
  /-- Awaits its policy hook. -/
  | policy
  /-- Awaits `appendRequest`. -/
  | storingRequest
  /-- Awaits the gateway. -/
  | gateway
  /-- Awaits `appendDecision`. -/
  | storingDecision
  /-- Its operation, other than a publication, is in flight. -/
  | operating
  /-- Publication: awaits `evaluatePublication`. -/
  | evaluating
  /-- Publication: awaits the writing of the artifacts. -/
  | writing
  /-- Publication: the artifacts are written, the publisher has yet to return. -/
  | wrote
  | settled
  deriving DecidableEq, Repr, Inhabited

/-- The phases between the head of the pipeline and the domain operation. -/
def CallPhase.suspended : CallPhase → Bool
  | .policy | .storingRequest | .gateway | .storingDecision => true
  | _ => false

/-- The phases of a publication past its latch check. -/
def CallPhase.publishing : CallPhase → Bool
  | .evaluating | .writing | .wrote => true
  | _ => false

structure ToolCall where
  spec : ToolSpec
  phase : CallPhase
  /-- The call's own signal has fired. -/
  signalled : Bool := false
  /-- What the gateway decided. -/
  decision : Option GatewayAnswer := none
  /-- No signal had fired when the operation started, so a later one ends the wait for it. -/
  guarded : Bool := false
  /-- What the call returned, once it has. -/
  result : Option ToolResult := none
  /-- History: the run was aborted, the signal fired, or the action phase closed on this mutating
  call, while it was suspended. -/
  interrupted : Bool := false
  /-- History: another publication was reported ok while this one was past its latch check. -/
  overtaken : Bool := false
  deriving DecidableEq, Repr, Inhabited

/-- The call ends; what it returned before stands. -/
def ToolCall.finish (c : ToolCall) (r : ToolResult) : ToolCall :=
  { c with phase := .settled, result := some (c.result.getD r) }

/-- A signal fires: a suspended call goes on regardless, a guarded operation is abandoned. -/
def ToolCall.abort (c : ToolCall) : ToolCall :=
  if c.phase.suspended then { c with interrupted := true }
  else if c.guarded && decide (c.phase ≠ .settled) then
    { c with result := some (c.result.getD abortedResult) }
  else c

/-- Another call closes the action phase; `ok` tells that its publication is reported ok. -/
def ToolCall.afterClose (ok : Bool) (c : ToolCall) : ToolCall :=
  { c with
      interrupted := c.interrupted || (c.phase.suspended && c.spec.mutating)
      overtaken := c.overtaken || (c.phase.publishing && ok) }

/-- A domain operation that started, and what held when it did. -/
structure OperationStart where
  id : Nat
  mutating : Bool
  /-- The run's or the call's signal had fired. -/
  aborted : Bool
  /-- The action phase was closed. -/
  closed : Bool
  deriving DecidableEq, Repr, Inhabited

structure ToolRun where
  aborted : Bool := false
  /-- The action phase is closed. -/
  closed : Bool := false
  evidenceFrozen : Bool := false
  contractRequired : Bool := false
  contractDeclared : Bool := false
  /-- A confirmation gateway is wired. -/
  confirms : Bool := true
  calls : Nat → Option ToolCall := fun _ => none
  /-- Every domain operation started so far. -/
  started : List OperationStart := []

/-! ## Events -/

/-- How a policy hook settles. -/
inductive PolicyAnswer where
  | passes | refuses (errorCode : String) (retryable : Bool) | throws
  deriving DecidableEq, Repr, Inhabited

/-- How an awaited step of the publisher settles. -/
inductive PublishAnswer where
  | passes | fails | throws
  deriving DecidableEq, Repr, Inhabited

inductive ToolEvent where
  /-- A call comes in; `refusedBy` is the limit that refuses its reservation, if one does. -/
  | call (id : Nat) (spec : ToolSpec) (signalled valid : Bool) (refusedBy : Option String)
  | policySettles (id : Nat) (answer : PolicyAnswer)
  | requestStored (id : Nat) (ok : Bool)
  /-- The gateway answers; `none` is a parked surface. -/
  | gatewayAnswers (id : Nat) (answer : Option GatewayAnswer)
  | gatewayThrows (id : Nat)
  | decisionStored (id : Nat) (ok : Bool)
  | operationSettles (id : Nat) (result : ToolResult)
  /-- The evaluation settles, and the document is validated. -/
  | evaluated (id : Nat) (answer : PublishAnswer)
  | artifactsWritten (id : Nat) (answer : PublishAnswer)
  /-- The publisher returns, and the action phase closes. -/
  | publishReturns (id : Nat)
  | timesOut (id : Nat)
  | abortRun
  | abortCall (id : Nat)
  | declareContract
  | freezeEvidence
  deriving DecidableEq, Repr, Inhabited

namespace ToolRun

/-! ## The pipeline -/

/-- Set the state of a call. -/
def withCall (s : ToolRun) (id : Nat) (c : ToolCall) : ToolRun :=
  { s with calls := Function.update s.calls id (some c) }

/-- A page-changing or publishing call waits for the contract. -/
def contractMissing (s : ToolRun) : Bool := s.contractRequired && !s.contractDeclared

/-- The domain operation starts: `runGuarded` calls it whatever the signals say, and `runPublish`
runs to its first await. -/
def startOperation (s : ToolRun) (id : Nat) (c : ToolCall) : ToolRun :=
  let aborted := s.aborted || c.signalled
  let start : OperationStart := ⟨id, c.spec.mutating, aborted, s.closed⟩
  let s' := { s with started := s.started ++ [start] }
  let c' := { c with guarded := !aborted }
  match c.spec.operation with
  | .other => s'.withCall id { c' with phase := .operating }
  | .publish template composes =>
    if s.closed then s'.withCall id (c'.finish (failure "ALREADY_PUBLISHED" false))
    else if s.contractMissing then s'.withCall id (c'.finish (failure "CONTRACT_REQUIRED" true))
    else if template || composes then s'.withCall id { c' with phase := .evaluating }
    else s'.withCall id (c'.finish (failure "BRIEF_INVALID" true))

/-- The confirmation gateway, behind the policy hook. -/
def confirm (s : ToolRun) (id : Nat) (c : ToolCall) : ToolRun :=
  if c.spec.requiresConfirmation then
    if s.confirms && c.spec.buildsConfirmation then
      s.withCall id { c with phase := .storingRequest }
    else s.withCall id (c.finish (deniedResult "CONFIRMATION_UNAVAILABLE"))
  else s.startOperation id c

/-- Why the head of the pipeline turns a call away: the checks of `runStages`, in order. -/
def refusal (s : ToolRun) (spec : ToolSpec) (signalled valid : Bool)
    (refusedBy : Option String) : Option ToolResult :=
  if !valid then some (failure "INVALID_INPUT" true)
  else if s.aborted || signalled then some abortedResult
  else if refusedBy.isSome then some (failure "BUDGET_EXHAUSTED" false)
  else if spec.mutating && s.closed then some (failure "ACTION_PHASE_CLOSED" false)
  else if spec.contractGated && s.contractMissing then some (failure "CONTRACT_REQUIRED" true)
  else if spec.evidenceGathering && s.evidenceFrozen then some (failure "EVIDENCE_FROZEN" false)
  else none

/-- `runStages` up to its first await. -/
def head (s : ToolRun) (id : Nat) (spec : ToolSpec) (signalled valid : Bool)
    (refusedBy : Option String) : ToolRun :=
  let c : ToolCall := { spec := spec, phase := .policy, signalled := signalled }
  match s.refusal spec signalled valid refusedBy with
  | some r => s.withCall id (c.finish r)
  | none => if spec.hasPolicy then s.withCall id c else s.confirm id c

/-- Go on with a call that awaits in `phase`. -/
def resume (s : ToolRun) (id : Nat) (phase : CallPhase) (next : ToolCall → ToolRun) : ToolRun :=
  match s.calls id with
  | some c => if c.phase = phase then next c else s
  | none => s

def policySettles (s : ToolRun) (id : Nat) (answer : PolicyAnswer) : ToolRun :=
  s.resume id .policy fun c =>
    match answer with
    | .passes => s.confirm id c
    | .refuses errorCode retryable => s.withCall id (c.finish (failure errorCode retryable))
    | .throws => s.withCall id (c.finish executionFailed)

def requestStored (s : ToolRun) (id : Nat) (ok : Bool) : ToolRun :=
  s.resume id .storingRequest fun c =>
    if ok then s.withCall id { c with phase := .gateway }
    else s.withCall id (c.finish executionFailed)

/-- The gateway answers. A parked surface cannot authorize itself. -/
def gatewayAnswers (s : ToolRun) (id : Nat) (answer : Option GatewayAnswer) : ToolRun :=
  s.resume id .gateway fun c =>
    match answer with
    | some a => s.withCall id { c with phase := .storingDecision, decision := some a }
    | none => s.withCall id (c.finish (deniedResult "CONFIRMATION_TIMEOUT"))

def decisionStored (s : ToolRun) (id : Nat) (ok : Bool) : ToolRun :=
  s.resume id .storingDecision fun c =>
    if ok then
      match c.decision with
      | some .granted => s.startOperation id c
      | some .timedOut => s.withCall id (c.finish (deniedResult "CONFIRMATION_TIMEOUT"))
      | _ => s.withCall id (c.finish (deniedResult "CONFIRMATION_DENIED"))
    else s.withCall id (c.finish executionFailed)

/-- Whether a publication goes through the report template. -/
def usesTemplate (c : ToolCall) : Bool :=
  match c.spec.operation with
  | .publish template _ => template
  | .other => false

/-- The code of a publication that does not validate. -/
def invalidCode (c : ToolCall) : String :=
  if usesTemplate c then "REPORT_INVALID" else "BRIEF_INVALID"

/-- The publication is evaluated, and `publish` validates the document and starts to write. -/
def evaluated (s : ToolRun) (id : Nat) (answer : PublishAnswer) : ToolRun :=
  s.resume id .evaluating fun c =>
    match answer with
    | .passes => s.withCall id { c with phase := .writing }
    | .fails => s.withCall id (c.finish (failure (invalidCode c) true))
    | .throws => s.withCall id (c.finish executionFailed)

/-- The artifacts are written; a failure is reported as an invalid document. -/
def artifactsWritten (s : ToolRun) (id : Nat) (answer : PublishAnswer) : ToolRun :=
  s.resume id .writing fun c =>
    match answer with
    | .passes => s.withCall id { c with phase := .wrote }
    | .fails => s.withCall id (c.finish (failure (invalidCode c) true))
    | .throws => s.withCall id (c.finish executionFailed)

/-- `services.actionPhase.close()`, and the publication is reported. -/
def publishReturns (s : ToolRun) (id : Nat) : ToolRun :=
  s.resume id .wrote fun c =>
    { s with
        closed := true
        calls := Function.update (fun i => (s.calls i).map (ToolCall.afterClose c.result.isNone)) id
          (some (c.finish { status := .ok })) }

/-- The per-tool timeout: the operation is abandoned, not awaited. -/
def timesOut (s : ToolRun) (id : Nat) : ToolRun :=
  match s.calls id with
  | some c =>
    if c.phase.suspended || decide (c.phase = .settled) then s
    else s.withCall id { c with result := some (c.result.getD timeoutResult) }
  | none => s

def abortCall (s : ToolRun) (id : Nat) : ToolRun :=
  match s.calls id with
  | some c => s.withCall id { c.abort with signalled := true }
  | none => s

end ToolRun

/-- A run of tool calls; `required` tells that its result is judged against its contract. -/
def toolRun (required : Bool) : Machine ToolRun ToolEvent where
  init := { contractRequired := required }
  step s
    | .call id spec signalled valid refusedBy =>
      match s.calls id with
      | none => s.head id spec signalled valid refusedBy
      | some _ => s
    | .policySettles id answer => s.policySettles id answer
    | .requestStored id ok => s.requestStored id ok
    | .gatewayAnswers id answer => s.gatewayAnswers id answer
    | .gatewayThrows id =>
        s.resume id .gateway fun c => s.withCall id (c.finish executionFailed)
    | .decisionStored id ok => s.decisionStored id ok
    | .operationSettles id result =>
        s.resume id .operating fun c => s.withCall id (c.finish result)
    | .evaluated id answer => s.evaluated id answer
    | .artifactsWritten id answer => s.artifactsWritten id answer
    | .publishReturns id => s.publishReturns id
    | .timesOut id => s.timesOut id
    | .abortRun =>
        { s with aborted := true, calls := fun i => (s.calls i).map ToolCall.abort }
    | .abortCall id => s.abortCall id
    | .declareContract => { s with contractDeclared := true }
    | .freezeEvidence => { s with evidenceFrozen := true }

namespace ToolRun

@[simp] lemma aborted_withCall (s : ToolRun) (id : Nat) (c : ToolCall) :
    (s.withCall id c).aborted = s.aborted := rfl

@[simp] lemma closed_withCall (s : ToolRun) (id : Nat) (c : ToolCall) :
    (s.withCall id c).closed = s.closed := rfl

lemma calls_withCall (s : ToolRun) (id i : Nat) (c : ToolCall) :
    (s.withCall id c).calls i = if i = id then some c else s.calls i := by
  simp only [withCall, Function.update_apply]

end ToolRun

/-! ## What an event can do -/

def ToolCall.isPublish (c : ToolCall) : Bool :=
  match c.spec.operation with
  | .publish _ _ => true
  | .other => false

def ToolCall.reportedOk (c : ToolCall) : Bool :=
  match c.result with
  | some r => decide (r.status = .ok)
  | none => false

/-- An event lets a suspended call through the last gate in front of its operation. -/
def ToolRun.Passes (s : ToolRun) (e : ToolEvent) (id : Nat) (c : ToolCall) : Prop :=
  s.calls id = some c ∧
    (e = .policySettles id .passes ∧ c.phase = .policy ∧ c.spec.requiresConfirmation = false ∨
      e = .decisionStored id true ∧ c.phase = .storingDecision ∧ c.decision = some .granted)

/-- A call that has just come in and was not turned away. -/
structure Admitted (s : ToolRun) (id : Nat) (c : ToolCall) : Prop where
  new : s.calls id = none
  aborted : s.aborted = false
  signalled : c.signalled = false
  mutating : c.spec.mutating = true → s.closed = false
  result : c.result = none
  interrupted : c.interrupted = false
  overtaken : c.overtaken = false

/-- One call goes on, short of starting its operation and of closing the phase. -/
structure Moves (c c' : ToolCall) : Prop where
  spec : c'.spec = c.spec
  signalled : c'.signalled = c.signalled
  interrupted : c'.interrupted = c.interrupted
  overtaken : c'.overtaken = c.overtaken
  suspended : c'.phase.suspended = true → c.phase.suspended = true ∧ c'.result = c.result
  publishing : c'.phase.publishing = true → c.phase.publishing = true
  operating : c'.phase = .operating → c.phase = .operating
  settled : c.phase = .settled → c'.phase = .settled
  kept : c.reportedOk = true → c'.reportedOk = true
  reportedOk : c'.reportedOk = true → c.reportedOk = true ∨ c.phase = .operating

inductive ToolStep (s : ToolRun) : ToolEvent → ToolRun → Prop where
  /-- The event cannot happen, or changes nothing the calls share but the contract and the
  evidence phase. -/
  | frame {e : ToolEvent} {s' : ToolRun} (he : ∀ i d, ¬ s.Passes e i d)
      (haborted : s'.aborted = s.aborted) (hclosed : s'.closed = s.closed)
      (hcalls : s'.calls = s.calls) (hstarted : s'.started = s.started) : ToolStep s e s'
  /-- A call is turned away at once. -/
  | rejected {e : ToolEvent} {id : Nat} {c : ToolCall} (he : ∀ i d, ¬ s.Passes e i d)
      (hnew : s.calls id = none) (hphase : c.phase = .settled) (hok : c.reportedOk = false) :
      ToolStep s e (s.withCall id c)
  /-- A call is suspended before its operation. -/
  | enters {e : ToolEvent} {id : Nat} {c : ToolCall} (he : ∀ i d, ¬ s.Passes e i d)
      (h : Admitted s id c) (hphase : c.phase.suspended = true) : ToolStep s e (s.withCall id c)
  | startsAtOnce {e : ToolEvent} {id : Nat} {c : ToolCall} (he : ∀ i d, ¬ s.Passes e i d)
      (h : Admitted s id c) : ToolStep s e (s.startOperation id c)
  /-- A suspended call starts its operation. -/
  | starts {e : ToolEvent} {id : Nat} {c : ToolCall} (h : s.Passes e id c) :
      ToolStep s e (s.startOperation id c)
  /-- A call goes on or ends. -/
  | moves {e : ToolEvent} {id : Nat} {c c' : ToolCall} (he : ∀ i d, ¬ s.Passes e i d)
      (hc : s.calls id = some c) (h : Moves c c') : ToolStep s e (s.withCall id c')
  | closes {id : Nat} {c : ToolCall} (hc : s.calls id = some c) (hphase : c.phase = .wrote) :
      ToolStep s (.publishReturns id) (s.publishReturns id)
  | abortRun : ToolStep s .abortRun
      { s with aborted := true, calls := fun i => (s.calls i).map ToolCall.abort }
  | abortCall {id : Nat} {c : ToolCall} (hc : s.calls id = some c) :
      ToolStep s (.abortCall id) (s.withCall id { c.abort with signalled := true })

structure Started (s : ToolRun) (c c' : ToolCall) : Prop where
  spec : c'.spec = c.spec
  overtaken : c'.overtaken = c.overtaken
  suspended : c'.phase.suspended = false
  publishing : c'.phase.publishing = true → c.isPublish = true ∧ s.closed = false
  operating : c'.phase = .operating → c.isPublish = false
  reportedOk : c'.reportedOk = true → c.reportedOk = true

open ToolCall ToolRun

lemma startOperation_eq (s : ToolRun) (id : Nat) (c : ToolCall) :
    ∃ c', Started s c c' ∧ s.startOperation id c =
      { s with
          started := s.started ++ [⟨id, c.spec.mutating, s.aborted || c.signalled, s.closed⟩]
          calls := Function.update s.calls id (some c') } := by
  have hends : ∀ (g : Bool) (r : ToolResult), r.status ≠ .ok →
      Started s c (({ c with guarded := g } : ToolCall).finish r) := by
    intro g r hr
    refine ⟨rfl, rfl, rfl, fun h => (by cases h), fun h => (by cases h), fun h => ?_⟩
    cases hc : c.result with
    | none => simp [reportedOk, finish, hc, hr] at h
    | some q => simpa [reportedOk, finish, hc] using h
  unfold startOperation
  cases hop : c.spec.operation with
  | other =>
    exact ⟨{ c with guarded := !(s.aborted || c.signalled), phase := .operating },
      ⟨rfl, rfl, rfl, fun h => (by cases h), fun _ => by simp [isPublish, hop],
        fun h => h⟩, rfl⟩
  | publish template composes =>
    simp only
    by_cases hclosed : s.closed
    · rw [if_pos hclosed]
      exact ⟨_, hends _ _ (by simp [failure]), rfl⟩
    · rw [if_neg hclosed]
      split_ifs
      · exact ⟨_, hends _ _ (by simp [failure]), rfl⟩
      · exact ⟨{ c with guarded := !(s.aborted || c.signalled), phase := .evaluating },
          ⟨rfl, rfl, rfl, fun _ => ⟨by simp [isPublish, hop], by simpa using hclosed⟩,
            fun h => (by cases h), fun h => h⟩, rfl⟩
      · exact ⟨_, hends _ _ (by simp [failure]), rfl⟩

/-! ### The steps, one by one -/

variable {c : ToolCall}

lemma Moves.finish (r : ToolResult) (h : r.status ≠ .ok ∨ c.phase = .operating) :
    Moves c (c.finish r) where
  spec := rfl
  signalled := rfl
  interrupted := rfl
  overtaken := rfl
  suspended h' := by cases h'
  publishing h' := by cases h'
  operating h' := by cases h'
  settled _ := rfl
  kept h' := by
    cases hc : c.result with
    | none => simp [ToolCall.reportedOk, hc] at h'
    | some q => simpa [ToolCall.reportedOk, ToolCall.finish, hc] using h'
  reportedOk h' := by
    rcases h with hr | hr
    · refine .inl ?_
      cases hc : c.result with
      | none => simp [ToolCall.reportedOk, ToolCall.finish, hc, hr] at h'
      | some q => simpa [ToolCall.reportedOk, ToolCall.finish, hc] using h'
    · exact .inr hr

lemma Moves.phase {phase : CallPhase} {decision : Option GatewayAnswer}
    (hsuspended : phase.suspended → c.phase.suspended)
    (hpublishing : phase.publishing → c.phase.publishing) (hoperating : phase ≠ .operating)
    (hsettled : c.phase ≠ .settled) :
    Moves c { c with phase := phase, decision := decision } where
  spec := rfl
  signalled := rfl
  interrupted := rfl
  overtaken := rfl
  suspended h := ⟨hsuspended h, rfl⟩
  publishing := hpublishing
  operating h := absurd h hoperating
  settled h := absurd h hsettled
  kept h := h
  reportedOk h := .inl h

variable {s : ToolRun} {e : ToolEvent}

lemma ToolStep.ignored (he : ∀ i d, ¬ s.Passes e i d) :
    ToolStep s e s := .frame he rfl rfl rfl rfl

variable {id : Nat}

lemma toolStep_resume {phase : CallPhase} {next : ToolCall → ToolRun}
    (helse : (∀ c, s.calls id = some c → c.phase ≠ phase) → ∀ i d, ¬ s.Passes e i d)
    (hnext : ∀ c, s.calls id = some c → c.phase = phase → ToolStep s e (next c)) :
    ToolStep s e (s.resume id phase next) := by
  unfold ToolRun.resume
  split
  · rename_i c hc
    split_ifs with hphase
    · exact hnext c hc hphase
    · refine .ignored (helse fun d hd => ?_)
      rw [hc, Option.some.injEq] at hd
      exact hd ▸ hphase
  · rename_i hc
    refine .ignored (helse fun d hd => ?_)
    rw [hc] at hd
    cases hd

/-- The two events that can let a call through. -/
def ToolEvent.opensGate : ToolEvent → Bool
  | .policySettles _ .passes => true
  | .decisionStored _ true => true
  | _ => false

lemma not_passes (h : e.opensGate = false) (i : Nat) (d : ToolCall) : ¬ s.Passes e i d := by
  rintro ⟨-, ⟨rfl, -⟩ | ⟨rfl, -⟩⟩ <;> cases h

lemma toolStep_confirm
    (hdenied : c.spec.requiresConfirmation →
      ToolStep s e (s.withCall id (c.finish (deniedResult "CONFIRMATION_UNAVAILABLE"))))
    (hasks : c.spec.requiresConfirmation →
      ToolStep s e (s.withCall id { c with phase := .storingRequest }))
    (hstarts : c.spec.requiresConfirmation = false → ToolStep s e (s.startOperation id c)) :
    ToolStep s e (s.confirm id c) := by
  unfold ToolRun.confirm
  split_ifs with hconfirm hgateway
  · exact hasks hconfirm
  · exact hdenied hconfirm
  · exact hstarts (by simpa using hconfirm)

variable {refusedBy : Option String} {signalled valid : Bool} {spec : ToolSpec}

lemma admitted_of_refusal (hnew : s.calls id = none)
    (h : s.refusal spec signalled valid refusedBy = none) (phase : CallPhase) :
    Admitted s id { spec := spec, phase := phase, signalled := signalled } := by
  unfold refusal at h
  split_ifs at h with hvalid habort hbudget hclosed
  simp only [Bool.or_eq_true, not_or, Bool.not_eq_true] at habort
  refine ⟨hnew, habort.1, habort.2, fun hmutating => ?_, rfl, rfl, rfl⟩
  simpa [show spec.mutating = true from hmutating] using hclosed

lemma refusal_status {r : ToolResult} (h : s.refusal spec signalled valid refusedBy = some r) :
    r.status ≠ .ok := by
  unfold refusal at h
  split_ifs at h <;> (obtain rfl := Option.some.inj h; decide)

lemma toolStep_head (hnew : s.calls id = none) :
    ToolStep s (.call id spec signalled valid refusedBy)
      (s.head id spec signalled valid refusedBy) := by
  have he : ∀ i d, ¬ s.Passes (.call id spec signalled valid refusedBy) i d :=
    not_passes rfl
  unfold ToolRun.head
  split
  · rename_i r hr
    exact .rejected he hnew rfl (by simp [reportedOk, finish, refusal_status hr])
  · rename_i hr
    split_ifs with hpolicy
    · exact .enters he (admitted_of_refusal hnew hr _) rfl
    · refine toolStep_confirm (fun _ => ?_) (fun _ => ?_) fun _ => ?_
      · exact .rejected he hnew rfl rfl
      · exact .enters he (admitted_of_refusal hnew hr _) rfl
      · exact .startsAtOnce he (admitted_of_refusal hnew hr _)

/-- **Every event is one of the steps.** -/
theorem toolStep (required : Bool) (s : ToolRun) (e : ToolEvent) :
    ToolStep s e ((toolRun required).step s e) := by
  cases e with
  | call id spec signalled valid refusedBy =>
    simp only [toolRun]
    split
    · exact toolStep_head (by assumption)
    · exact .ignored (not_passes rfl)
  | policySettles id answer =>
    refine toolStep_resume ?_ fun c hc hphase => ?_
    · rintro hno i d ⟨hd, ⟨he, hphase, -⟩ | ⟨he, -⟩⟩
      · obtain ⟨rfl, -⟩ := ToolEvent.policySettles.inj he
        exact hno d hd hphase
      · cases he
    · cases answer with
      | passes =>
        have hstays (hconfirm : c.spec.requiresConfirmation) :
            ∀ i d, ¬ s.Passes (.policySettles id .passes) i d := by
          rintro i d ⟨hd, ⟨he, -, hno⟩ | ⟨he, -⟩⟩
          · obtain ⟨rfl, -⟩ := ToolEvent.policySettles.inj he
            rw [hc, Option.some.injEq] at hd
            subst hd
            rw [hconfirm] at hno
            cases hno
          · cases he
        refine toolStep_confirm (fun hconfirm => ?_) (fun hconfirm => ?_) fun hconfirm => ?_
        · exact .moves (hstays hconfirm) hc (.finish _ (.inl (by decide)))
        · exact .moves (hstays hconfirm) hc (.phase (fun _ => by rw [hphase]; rfl)
            (fun h => (by cases h)) (by simp) (by simp [hphase]))
        · exact .starts ⟨hc, .inl ⟨rfl, hphase, hconfirm⟩⟩
      | refuses errorCode retryable =>
        exact .moves (not_passes rfl) hc (.finish _ (.inl (by simp [failure])))
      | throws => exact .moves (not_passes rfl) hc (.finish _ (.inl (by decide)))
  | requestStored id ok =>
    have he : ∀ i d, ¬ s.Passes (.requestStored id ok) i d :=
      not_passes rfl
    refine toolStep_resume (fun _ => he) fun c hc hphase => ?_
    split_ifs
    · exact .moves he hc (.phase (fun _ => by rw [hphase]; rfl) (fun h => (by cases h))
        (by simp) (by simp [hphase]))
    · exact .moves he hc (.finish _ (.inl (by decide)))
  | gatewayAnswers id answer =>
    have he : ∀ i d, ¬ s.Passes (.gatewayAnswers id answer) i d :=
      not_passes rfl
    refine toolStep_resume (fun _ => he) fun c hc hphase => ?_
    cases answer with
    | none => exact .moves he hc (.finish _ (.inl (by decide)))
    | some a =>
      exact .moves he hc (.phase (fun _ => by rw [hphase]; rfl) (fun h => (by cases h))
        (by simp) (by simp [hphase]))
  | gatewayThrows id =>
    have he : ∀ i d, ¬ s.Passes (.gatewayThrows id) i d :=
      not_passes rfl
    exact toolStep_resume (fun _ => he) fun c hc _ => .moves he hc (.finish _ (.inl (by decide)))
  | decisionStored id ok =>
    refine toolStep_resume ?_ fun c hc hphase => ?_
    · rintro hno i d ⟨hd, ⟨he, -⟩ | ⟨he, hphase, -⟩⟩
      · cases he
      · obtain ⟨rfl, -⟩ := ToolEvent.decisionStored.inj he
        exact hno d hd hphase
    · have hends : ∀ r : ToolResult, r.status ≠ .ok → (ok → c.decision ≠ some .granted) →
          ToolStep s (.decisionStored id ok) (s.withCall id (c.finish r)) := by
        intro r hr hno
        refine .moves ?_ hc (.finish r (.inl hr))
        rintro i d ⟨hd, ⟨he, -⟩ | ⟨he, -, hgranted⟩⟩
        · cases he
        · obtain ⟨rfl, hok⟩ := ToolEvent.decisionStored.inj he
          rw [hc, Option.some.injEq] at hd
          subst hd
          exact hno hok hgranted
      cases ok with
      | false => exact hends _ (by decide) fun h => (by cases h)
      | true =>
        simp only [if_true]
        split
        · exact .starts ⟨hc, .inr ⟨rfl, hphase, by assumption⟩⟩
        · rename_i htimeout
          exact hends _ (by decide) fun _ => by rw [htimeout]; simp
        · rename_i hgranted _
          exact hends _ (by decide) fun _ => hgranted
  | operationSettles id result =>
    have he : ∀ i d, ¬ s.Passes (.operationSettles id result) i d :=
      not_passes rfl
    exact toolStep_resume (fun _ => he) fun c hc hphase => .moves he hc (.finish _ (.inr hphase))
  | evaluated id answer =>
    have he : ∀ i d, ¬ s.Passes (.evaluated id answer) i d :=
      not_passes rfl
    refine toolStep_resume (fun _ => he) fun c hc hphase => ?_
    cases answer with
    | passes =>
      exact .moves he hc (.phase (fun h => (by cases h)) (fun _ => by rw [hphase]; rfl) (by simp)
        (by simp [hphase]))
    | fails => exact .moves he hc (.finish _ (.inl (by simp [failure])))
    | throws => exact .moves he hc (.finish _ (.inl (by decide)))
  | artifactsWritten id answer =>
    have he : ∀ i d, ¬ s.Passes (.artifactsWritten id answer) i d :=
      not_passes rfl
    refine toolStep_resume (fun _ => he) fun c hc hphase => ?_
    cases answer with
    | passes =>
      exact .moves he hc (.phase (fun h => (by cases h)) (fun _ => by rw [hphase]; rfl) (by simp)
        (by simp [hphase]))
    | fails => exact .moves he hc (.finish _ (.inl (by simp [failure])))
    | throws => exact .moves he hc (.finish _ (.inl (by decide)))
  | publishReturns id =>
    by_cases h : ∃ c, s.calls id = some c ∧ c.phase = .wrote
    · obtain ⟨c, hc, hphase⟩ := h
      exact .closes hc hphase
    · refine toolStep_resume (fun _ => not_passes rfl)
        fun c hc hphase => absurd ⟨c, hc, hphase⟩ h
  | timesOut id =>
    have he : ∀ i d, ¬ s.Passes (.timesOut id) i d :=
      not_passes rfl
    simp only [toolRun, ToolRun.timesOut]
    split
    · rename_i c hc
      split_ifs with hphase
      · exact .ignored he
      · simp only [Bool.or_eq_true, decide_eq_true_eq, not_or, Bool.not_eq_true] at hphase
        refine .moves he hc ⟨rfl, rfl, rfl, rfl, fun h => ?_, fun h => h, fun h => h,
          fun h => h, fun h => ?_, fun h => .inl ?_⟩
        · rw [show c.phase.suspended = true from h] at hphase
          cases hphase.1
        · cases hr : c.result with
          | none => simp [reportedOk, hr] at h
          | some r => simpa [reportedOk, hr] using h
        · cases hr : c.result with
          | none => simp [reportedOk, hr, timeoutResult, failure] at h
          | some r => simpa [reportedOk, hr] using h
    · exact .ignored he
  | abortRun => exact .abortRun
  | abortCall id =>
    simp only [toolRun, ToolRun.abortCall]
    split
    · exact .abortCall (by assumption)
    · exact .ignored (not_passes rfl)
  | declareContract => exact .frame (not_passes rfl) rfl rfl rfl rfl
  | freezeEvidence => exact .frame (not_passes rfl) rfl rfl rfl rfl

end Yantra
