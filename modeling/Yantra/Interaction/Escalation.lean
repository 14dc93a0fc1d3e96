import Mathlib.Algebra.Order.Ring.Rat
import Yantra.Lib.Machine
import Yantra.Lib.OrderedMap

/-!
# Escalation plans

The one runner of recovery plans, with its ledger. A plan is a list of rungs; the body of a rung
may call its port, charge actions of its own and run nested plans on the same run. What bodies,
entries, clean-ups, ports and the re-acquisition policy do is up to the environment: each of their
answers is an event, and events of different bodies come in any order.

## Main definitions

* `PlanExecution`, `Escalation` — the executions of plans, and all of it together.
* `EscalationEvent`, `runEscalationPlan` — what can happen, as a machine.
-/

namespace Yantra

/-! ## Failures -/

inductive AttemptDisposition where
  | transient | terminal
  deriving DecidableEq

/-- The `observed` of a failure: a text, a disclosed read, or another value. -/
inductive ObservedRead where
  | text (text : String)
  | disclosed (text : Option String)
  | withheld
  deriving DecidableEq

/-- The details of a failure that are read, where they are texts. -/
structure FailureDetails where
  reason : Option String := none
  kind : Option String := none
  deriving DecidableEq

/-- What a failed rung hands over: a value that is no object, or an object. -/
inductive FailureValue where
  | primitive (text : String)
  | object (errorCode cause message : Option String) (observed : ObservedRead)
      (details : FailureDetails)
  deriving DecidableEq

def TRANSIENT_CODES : List String :=
  ["WIDGET_ELEMENT_REPLACED", "STALE_ELEMENT_REF", "ELEMENT_HIDDEN", "WIDGET_DID_NOT_OPEN",
    "WIDGET_NOT_COMMITTED"]

def TERMINAL_CODES : List String :=
  ["WIDGET_AMBIGUOUS_CHOICE", "WIDGET_MAPPING_UNSAFE", "WIDGET_RANGE_INCOMPLETE",
    "WIDGET_TARGET_UNREACHABLE", "WIDGET_NOT_RECOGNIZED", "WIDGET_DISMISS_FAILED",
    "FILL_VALUE_INVALID", "SECRET_HOST_MISMATCH", "SECRET_RESOLVER_UNAVAILABLE",
    "ELEMENT_DISABLED", "OPTION_NOT_FOUND", "FORM_FIELD_NOT_FOUND", "FORM_FIELD_AMBIGUOUS",
    "BROWSER_UNAVAILABLE", "BROWSER_NOT_STARTED", "URL_NOT_FROM_EVIDENCE", "BUDGET_EXHAUSTED",
    "ELEMENT_OBSTRUCTED"]

def classifyFailure (errorCode : String) (details : FailureDetails) : AttemptDisposition :=
  if details.reason = some "budget" ∨ details.reason = some "disabled" then .terminal
  else if errorCode = "ELEMENT_OBSTRUCTED" then
    if details.kind = some "busy-indicator" then .transient else .terminal
  else if TERMINAL_CODES.contains errorCode then .terminal
  else if TRANSIENT_CODES.contains errorCode then .transient
  else .terminal

def disclosedObserved : ObservedRead → Option String
  | .text text => some text
  | .disclosed text => text
  | .withheld => none

/-- What `describeFailure` returns. -/
structure DescribedFailure where
  errorCode : String
  cause : Option String
  detail : Option String
  details : FailureDetails
  deriving DecidableEq

def describeFailure : FailureValue → DescribedFailure
  | .primitive text => ⟨"UNKNOWN_FAILURE", none, some text, {}⟩
  | .object errorCode cause message observed details =>
    { errorCode := errorCode.getD "UNKNOWN_FAILURE"
      cause
      detail :=
        match disclosedObserved observed with
        | some text =>
          some (if text = "" then "field stayed empty" else "observed \"" ++ text ++ "\"")
        | none => message
      details }

/-! ## Plans -/

inductive InteractionAxis where
  | where_ | what | how
  deriving DecidableEq

inductive InteractionFamily where
  | text | combobox | date | option | field | click
  deriving DecidableEq

structure RungCost where
  maxActions : ℚ
  maxElapsedMs : Option ℚ := none
  deriving DecidableEq

/-- `Rung`, without its callbacks: `accessed` lists the evidence its entry reads, and `cleanup`
tells whether it has a clean-up. -/
structure EscalationRung where
  id : String
  axis : InteractionAxis
  costCap : RungCost
  accessed : List String := []
  produces : List String := []
  cleanup : Bool := false
  backoffMs : Option ℚ := none
  terminalOn : List String := []
  deriving DecidableEq

/-- A widget port: a wrapper of this run, or another object, which may pass calls on to wrappers of
this run. The wrapper of another run is such an object. -/
inductive WidgetPort where
  | wrapper (id : ℕ)
  | plain (inner : List ℕ)
  deriving DecidableEq

/-- `PlanBudget`, as far as the runner reads it. -/
structure PlanBudget where
  deadlineMs : ℚ
  maxActions : ℚ
  maxReacquisitions : ℚ
  deriving DecidableEq

/-- `EscalationPlan`, without its callbacks: a port that is no widget port is `none`. -/
structure EscalationPlan where
  family : InteractionFamily
  operation : String
  rungs : List EscalationRung
  budget : PlanBudget
  port : Option WidgetPort
  reacquire : Bool := false
  classify : Bool := false
  enforceBudgetCaps : Option Bool := none
  deriving DecidableEq

/-- Budget caps are enforced unless the plan switches them off. -/
def EscalationPlan.enforcesCaps (plan : EscalationPlan) : Bool :=
  plan.enforceBudgetCaps != some false

/-- The loop of `assertPlanShape`, over the rungs with the ids seen and the evidence produced. -/
def assertRungShapes (operation : String) :
    List EscalationRung → List String → List String → Except String Unit
  | [], _, _ => .ok ()
  | rung :: rungs, ids, produced =>
    if ids.contains rung.id then .error s!"Duplicate escalation rung id \"{rung.id}\"."
    else if rung.costCap.maxActions < 0 then
      .error s!"Escalation rung \"{rung.id}\" has an invalid action cap."
    else if rung.costCap.maxElapsedMs.any (· < 0) then
      .error s!"Escalation rung \"{rung.id}\" has an invalid elapsed-time cap."
    else
      let undeclared := rung.accessed.filter fun key => !produced.contains key
      if undeclared ≠ [] then
        .error (s!"Escalation rung \"{rung.id}\" reads evidence not produced earlier: " ++
          ", ".intercalate undeclared ++ ".")
      else assertRungShapes operation rungs (rung.id :: ids) (produced ++ rung.produces)

def assertPlanShape (plan : EscalationPlan) : Except String Unit :=
  if plan.rungs = [] then .error s!"Escalation plan \"{plan.operation}\" has no rungs."
  else assertRungShapes plan.operation plan.rungs [] []

/-! ## The run -/

inductive EntryDecision where
  | enter (evidence : List String)
  | decline (unmet : String)
  deriving DecidableEq

structure BudgetState where
  deadlineMs : ℚ
  remainingActions : ℕ
  remainingMs : ℚ
  chargedActions : ℕ
  chargedReads : ℕ
  reacquisitions : ℕ
  deriving DecidableEq

variable {V : Type}

inductive RungOutcome (V : Type) where
  | succeeded (value : V) (evidence : Option (List (String × V)))
  | failed (failure : FailureValue) (evidence : Option (List (String × V)))
  deriving DecidableEq

def RungOutcome.evidence : RungOutcome V → Option (List (String × V))
  | .succeeded _ evidence | .failed _ evidence => evidence

structure RungFigures (V : Type) where
  entryEvidence : List String
  chargedActions : ℤ
  remainingActions : ℕ
  elapsedMs : ℚ
  evidence : List (String × V)
  deriving DecidableEq

inductive VerdictKind (V : Type) where
  | succeeded (figures : RungFigures V)
  | failed (figures : RungFigures V) (errorCode : String) (cause detail : Option String)
  | skipped (unmet : String)
  deriving DecidableEq

structure RungVerdict (V : Type) where
  ordinal : ℕ
  rungId : String
  axis : InteractionAxis
  kind : VerdictKind V
  deriving DecidableEq

def RungVerdict.claims (verdict : RungVerdict V) : ℤ :=
  match verdict.kind with
  | .succeeded figures => figures.chargedActions
  | .failed figures .. => figures.chargedActions
  | .skipped _ => 0

/-- `MutableRunState`; `reacquire` tells whose policy is installed. -/
structure MutableRunState (V : Type) where
  startedAt : ℚ
  deadlineMs : ℚ
  maxActions : ℕ
  maxReacquisitions : ℕ
  verdicts : List (RungVerdict V) := []
  values : OrderedMap String V := .empty
  chargedActions : ℕ := 0
  chargedReads : ℕ := 0
  reacquisitions : ℕ := 0
  reacquire : Option ℕ := none
  lastOutcome : Option (RungOutcome V) := none
  lastFailure : Option FailureValue := none
  lastNow : ℚ

def createRunState (budget : PlanBudget) (now : ℚ) : MutableRunState V where
  startedAt := now
  deadlineMs := budget.deadlineMs
  maxActions := budget.maxActions.floor.toNat
  maxReacquisitions := budget.maxReacquisitions.floor.toNat
  lastNow := now

structure EscalationLedger (V : Type) where
  operation : String
  family : InteractionFamily
  verdicts : List (RungVerdict V)
  chargedActions : ℕ
  elapsedMs : ℚ
  remainingActions : ℕ

structure EscalationRun (V : Type) where
  outcome : Option (RungOutcome V)
  ledger : EscalationLedger V

def claimed (verdicts : List (RungVerdict V)) : ℤ := (verdicts.map RungVerdict.claims).sum

namespace MutableRunState

variable (run : MutableRunState V)

/-- The actions left under the ceiling. -/
def remainingActions : ℕ := run.maxActions - run.chargedActions

def escalationLedgerOf (operation : String) (family : InteractionFamily) : EscalationLedger V where
  operation
  family
  verdicts := run.verdicts
  chargedActions := run.chargedActions
  elapsedMs := run.lastNow - run.startedAt
  remainingActions := run.remainingActions

def chargesSince (start : ℕ) : ℤ := claimed (run.verdicts.drop start)

def budgetOf (now : ℚ) : BudgetState where
  deadlineMs := run.deadlineMs
  remainingActions := run.remainingActions
  remainingMs := max 0 (run.deadlineMs - now)
  chargedActions := run.chargedActions
  chargedReads := run.chargedReads
  reacquisitions := run.reacquisitions

/-- `state.verdicts.push`, with the next ordinal. -/
def push (rung : EscalationRung) (kind : VerdictKind V) : MutableRunState V :=
  { run with verdicts := run.verdicts ++ [⟨run.verdicts.length + 1, rung.id, rung.axis, kind⟩] }

def charge (actions : ℕ) : MutableRunState V :=
  { run with chargedActions := run.chargedActions + actions }

end MutableRunState

def budgetDecision (cost : RungCost) (budget : BudgetState) (enforceCaps : Bool) : Option String :=
  if budget.remainingMs ≤ 0 then some "deadline-expired"
  else if !enforceCaps then none
  else if cost.maxElapsedMs.any (budget.remainingMs < ·) then some "insufficient-remaining-budget"
  else if (budget.remainingActions : ℚ) < cost.maxActions then some "insufficient-remaining-budget"
  else none

/-! ## Calls of ports -/

inductive PortMethod where
  | observe | click | fill | clear | type | evaluateOn | evaluate | press | scrollContainer
  deriving DecidableEq

/-- The methods that a wrapper counts as mutations; the others it counts as reads. -/
def PortMethod.isMutation : PortMethod → Bool
  | .click | .fill | .clear | .type | .press | .scrollContainer => true
  | .observe | .evaluateOn | .evaluate => false

/-- The methods that go through `onRef`. -/
def PortMethod.onRef : PortMethod → Bool
  | .click | .fill | .clear | .type | .evaluateOn => true
  | .observe | .evaluate | .press | .scrollContainer => false

/-- A wrapper that `runStatePort` made for this run: the port it wraps, and `owned`. -/
structure PortWrapper where
  port : WidgetPort
  owned : OrderedMap String String := .empty

/-- Where a call of a wrapper has got to: at the port under it, awaiting `state.reacquire`, at the
port again, or over. -/
inductive PortCallStage where
  | underway (current : Option String)
  | reacquiring (current : String)
  | again (next : String)
  | over
  deriving DecidableEq

/-- A call that is at the port under its wrapper, with its reference there. -/
def PortCallStage.atPort : PortCallStage → Option (Option String)
  | .underway current => some current
  | .again next => some (some next)
  | _ => none

/-- A call that awaits the re-acquisition of its reference. -/
def PortCallStage.isReacquiring : PortCallStage → Bool
  | .reacquiring _ => true
  | _ => false

/-- A call of a wrapper. Its origin is the call that somebody made of a wrapper of this run; a call
that such a call passes on has the origin of that one. -/
structure PortCall where
  wrapper : ℕ
  method : PortMethod
  ref : Option String
  origin : ℕ
  stage : PortCallStage
  deriving DecidableEq

/-! ## Executions -/

/-- The locals of a rung whose body runs. -/
structure RungBody where
  rung : EscalationRung
  entryEvidence : List String
  startedAt : ℚ
  actionsBefore : ℕ
  readsBefore : ℕ
  nestedVerdictsBefore : ℕ
  port : Option WidgetPort

inductive AfterCleanup where
  | proceed | stop | rethrow
  deriving DecidableEq

inductive PlanPhase (V : Type) where
  | next
  | deciding (rung : EscalationRung) (budget : BudgetState) (checkedAt : ℚ)
  | pausing (rung : EscalationRung) (entryEvidence : List String) (checkedAt : ℚ)
  | running (body : RungBody)
  | cleaning (after : AfterCleanup)
  | returned (result : EscalationRun V)
  | rejected

/-- The execution of a plan, with the rungs still to come. -/
structure PlanExecution (V : Type) where
  plan : EscalationPlan
  rungs : List EscalationRung
  verdictsAtEntry : ℕ
  outcome : Option (RungOutcome V)
  phase : PlanPhase V

/-- One run, with all the plans executed on it: the first of them is the root. -/
structure Escalation (V : Type) where
  run : MutableRunState V
  executions : List (PlanExecution V)
  wrappers : List PortWrapper := []
  calls : List PortCall := []

/-- What can happen. An answer `none` of an entry, and an answer `false`, is an exception;
`classified` is what `plan.classify` returns, with an exception as `none`. -/
inductive EscalationEvent (V : Type) where
  | runSubplan (plan : EscalationPlan)
  | checked (id : ℕ) (now : ℚ)
  | decided (id : ℕ) (decision : Option EntryDecision) (now : ℚ)
  | slept (id : ℕ) (ok : Bool)
  | bodyReturns (id : ℕ) (outcome : RungOutcome V) (endedAt : ℚ)
      (classified : Option (Option AttemptDisposition))
  | bodyThrows (id : ℕ)
  | cleanupEnds (id : ℕ) (ok : Bool)
  | charged (actions : ℚ)
  | portCalled (wrapper : ℕ) (method : PortMethod) (ref : String)
  | passedOn (call wrapper : ℕ)
  | wentStale (call : ℕ)
  | callEnds (call : ℕ)
  | reacquired (call : ℕ) (next : Option String)
  | reacquireThrows (call : ℕ)

def PlanExecution.start (plan : EscalationPlan) (verdictsAtEntry : ℕ) : PlanExecution V where
  plan
  rungs := plan.rungs
  verdictsAtEntry
  outcome := none
  phase := match assertPlanShape plan with
    | .ok _ => .next
    | .error _ => .rejected

namespace Escalation

variable (s : Escalation V)

/-- The start of a root plan, which owns the state it creates. -/
def start (plan : EscalationPlan) (now : ℚ) : Escalation V where
  run := createRunState plan.budget now
  executions := [.start plan 0]

def result (e : PlanExecution V) : EscalationRun V where
  outcome := e.outcome
  ledger :=
    { s.run.escalationLedgerOf e.plan.operation e.plan.family with
      verdicts := s.run.verdicts.drop e.verdictsAtEntry }

/-- The execution `id` becomes `e`. -/
def withExecution (id : ℕ) (e : PlanExecution V) : Escalation V :=
  { s with executions := s.executions.set id e }

/-- The next turn of the loop, or the return where there is none. -/
def proceed (id : ℕ) (e : PlanExecution V) : Escalation V :=
  s.withExecution id { e with phase := if e.rungs = [] then .returned (s.result e) else .next }

def afterCleanup (id : ℕ) (e : PlanExecution V) : AfterCleanup → Escalation V
  | .proceed => s.proceed id e
  | .stop => s.withExecution id { e with phase := .returned (s.result e) }
  | .rethrow => s.withExecution id { e with phase := .rejected }

/-- The `finally` of a rung. -/
def leaveRung (id : ℕ) (e : PlanExecution V) (rung : EscalationRung) (after : AfterCleanup) :
    Escalation V :=
  if rung.cleanup then s.withExecution id { e with phase := .cleaning after }
  else s.afterCleanup id e after

def skip (id : ℕ) (e : PlanExecution V) (rung : EscalationRung) (unmet : String) : Escalation V :=
  { s with run := s.run.push rung (.skipped unmet) }.proceed id e

/-- `runStatePort`: a wrapper of this run is returned as it is. -/
def runStatePort : WidgetPort → WidgetPort × Escalation V
  | .wrapper w => (.wrapper w, s)
  | .plain inner =>
    (.wrapper s.wrappers.length, { s with wrappers := s.wrappers ++ [{ port := .plain inner }] })

def wrapPort (id : ℕ) (plan : EscalationPlan) : Option WidgetPort × Escalation V :=
  match plan.port with
  | none => (none, s)
  | some port =>
    let reacquire := s.run.reacquire.or (if plan.reacquire then some id else none)
    let (wrapped, s) := { s with run := { s.run with reacquire } }.runStatePort port
    (some wrapped, s)

def startBody (id : ℕ) (e : PlanExecution V) (rung : EscalationRung) (entryEvidence : List String)
    (checkedAt : ℚ) : Escalation V :=
  let (port, s') := s.wrapPort id e.plan
  let body : RungBody :=
    { rung, entryEvidence, startedAt := checkedAt, actionsBefore := s.run.chargedActions,
      readsBefore := s.run.chargedReads, nestedVerdictsBefore := s.run.verdicts.length, port }
  s'.withExecution id { e with phase := .running body }

/-- The loop checks its next rung, up to the call of its entry. -/
def check (id : ℕ) (e : PlanExecution V) (now : ℚ) : Escalation V :=
  match e.rungs with
  | [] => s
  | rung :: rungs =>
    { s with run := { s.run with lastNow := now } }.withExecution id
      { e with rungs, phase := .deciding rung (s.run.budgetOf now) now }

def decideEntry (id : ℕ) (e : PlanExecution V) (rung : EscalationRung) (budget : BudgetState)
    (checkedAt now : ℚ) : Option EntryDecision → Escalation V
  | none => s.withExecution id { e with phase := .rejected }
  | some (.decline unmet) => s.skip id e rung unmet
  | some (.enter evidence) =>
    match budgetDecision rung.costCap budget e.plan.enforcesCaps with
    | some unmet => s.skip id e rung unmet
    | none =>
      let pause := max 0 (rung.backoffMs.getD 0)
      if 0 < pause then
        if s.run.deadlineMs ≤ now + pause then s.skip id e rung "deadline-expired"
        else s.withExecution id { e with phase := .pausing rung evidence checkedAt }
      else s.startBody id e rung evidence checkedAt

def figures (body : RungBody) (outcome : RungOutcome V) (endedAt : ℚ) : RungFigures V where
  entryEvidence := body.entryEvidence
  chargedActions := (s.run.chargedActions : ℤ) - body.actionsBefore -
    s.run.chargesSince body.nestedVerdictsBefore
  remainingActions := s.run.remainingActions
  elapsedMs := endedAt - body.startedAt
  evidence := outcome.evidence.getD []

def remember (outcome : RungOutcome V) (endedAt : ℚ) : MutableRunState V :=
  { s.run with
    lastOutcome := some outcome
    lastNow := endedAt
    values := (outcome.evidence.getD []).foldl (fun values kv => values.set kv.1 kv.2) s.run.values
    lastFailure := match outcome with
      | .succeeded .. => none
      | .failed failure _ => some failure }

def afterFailure (plan : EscalationPlan) (rung : EscalationRung) (failure : FailureValue)
    (endedAt : ℚ) (classified : Option (Option AttemptDisposition)) : AfterCleanup :=
  let described := describeFailure failure
  match if plan.classify then classified else some none with
  | none => .rethrow
  | some known =>
    let disposition := known.getD (classifyFailure described.errorCode described.details)
    if rung.terminalOn.contains described.errorCode ∨ disposition = .terminal then .stop
    else if s.run.deadlineMs ≤ endedAt then .stop
    else .proceed

def bodyReturns (id : ℕ) (e : PlanExecution V) (body : RungBody) (outcome : RungOutcome V)
    (endedAt : ℚ) (classified : Option (Option AttemptDisposition)) : Escalation V :=
  let figures := s.figures body outcome endedAt
  let e := { e with outcome := some outcome }
  let run := s.remember outcome endedAt
  match outcome with
  | .succeeded .. =>
    { s with run := run.push body.rung (.succeeded figures) }.leaveRung id e body.rung .proceed
  | .failed failure _ =>
    let described := describeFailure failure
    let kind := .failed figures described.errorCode described.cause described.detail
    { s with run := run.push body.rung kind }.leaveRung id e body.rung
      (s.afterFailure e.plan body.rung failure endedAt classified)

/-- A method of a wrapper is called, in the name of `origin`: it is counted, and goes to the port
under the wrapper with the reference that the wrapper knows for `ref`. -/
def callWrapper (w : ℕ) (wrapper : PortWrapper) (method : PortMethod) (ref : String) (origin : ℕ) :
    Escalation V :=
  let ref := if method.onRef then some ref else none
  { s with
    run := { s.run with
      chargedActions := s.run.chargedActions + if method.isMutation then 1 else 0
      chargedReads := s.run.chargedReads + if method.isMutation then 0 else 1 }
    calls := s.calls ++
      [⟨w, method, ref, origin, .underway (ref.map fun r => (wrapper.owned.get? r).getD r)⟩] }

def withStage (id : ℕ) (call : PortCall) (stage : PortCallStage) : Escalation V :=
  { s with calls := s.calls.set id { call with stage } }

/-- The port under a wrapper rejects a call with a stale reference. -/
def wentStale (id : ℕ) (call : PortCall) : Escalation V :=
  match call.stage with
  | .underway (some current) =>
    if s.run.reacquire = none ∨ s.run.maxReacquisitions ≤ s.run.reacquisitions then
      s.withStage id call .over
    else s.withStage id call (.reacquiring current)
  | _ => s.withStage id call .over

/-- `state.reacquire` resolves. -/
def reacquired (id : ℕ) (call : PortCall) : Option String → Escalation V
  | none => s.withStage id call .over
  | some next =>
    { s with
      run := { s.run with reacquisitions := s.run.reacquisitions + 1 }
      wrappers := s.wrappers.modify call.wrapper fun wrapper =>
        { wrapper with owned := wrapper.owned.set (call.ref.getD "") next } }.withStage id call
      (.again next)

def executionAt (id : ℕ) : Option (PlanExecution V × PlanPhase V) :=
  s.executions[id]?.map fun e => (e, e.phase)

/-- The object under the wrapper of a call may pass it on to the wrapper `w`. -/
def passesTo (call : PortCall) (w : ℕ) : Bool :=
  match s.wrappers[call.wrapper]? with
  | some ⟨.plain inner, _⟩ => inner.contains w
  | some ⟨.wrapper w', _⟩ => w' == w
  | none => false

def rootSettled : Bool :=
  match s.executionAt 0 with
  | some (_, .returned _) | some (_, .rejected) | none => true
  | _ => false

def happen : EscalationEvent V → Escalation V
  | .runSubplan plan =>
    { s with executions := s.executions ++ [.start plan s.run.verdicts.length] }
  | .checked id now =>
    match s.executionAt id with
    | some (e, .next) => s.check id e now
    | _ => s
  | .decided id decision now =>
    match s.executionAt id with
    | some (e, .deciding rung budget checkedAt) =>
      s.decideEntry id e rung budget checkedAt now decision
    | _ => s
  | .slept id ok =>
    match s.executionAt id with
    | some (e, .pausing rung evidence checkedAt) =>
      if ok then s.startBody id e rung evidence checkedAt
      else s.withExecution id { e with phase := .rejected }
    | _ => s
  | .bodyReturns id outcome endedAt classified =>
    match s.executionAt id with
    | some (e, .running body) => s.bodyReturns id e body outcome endedAt classified
    | _ => s
  | .bodyThrows id =>
    match s.executionAt id with
    | some (e, .running body) => s.leaveRung id e body.rung .rethrow
    | _ => s
  | .cleanupEnds id ok =>
    match s.executionAt id with
    | some (e, .cleaning after) => s.afterCleanup id e (if ok then after else .rethrow)
    | _ => s
  | .charged actions => { s with run := s.run.charge actions.floor.toNat }
  | .portCalled w method ref =>
    match s.wrappers[w]? with
    | some wrapper => s.callWrapper w wrapper method ref s.calls.length
    | none => s
  | .passedOn id w =>
    match s.calls[id]?, s.wrappers[w]? with
    | some call, some wrapper =>
      match call.stage.atPort with
      | some ref =>
        if s.passesTo call w then
          s.callWrapper w wrapper call.method (ref.getD "") call.origin
        else s
      | none => s
    | _, _ => s
  | .wentStale id =>
    match s.calls[id]? with
    | some call => if call.stage.atPort.isSome then s.wentStale id call else s
    | none => s
  | .callEnds id =>
    match s.calls[id]? with
    | some call => if call.stage.atPort.isSome then s.withStage id call .over else s
    | none => s
  | .reacquired id next =>
    match s.calls[id]? with
    | some call => if call.stage.isReacquiring then s.reacquired id call next else s
    | none => s
  | .reacquireThrows id =>
    match s.calls[id]? with
    | some call => if call.stage.isReacquiring then s.withStage id call .over else s
    | none => s

/-- The run is followed until the root plan settles. -/
def step (event : EscalationEvent V) : Escalation V :=
  if s.rootSettled then s else s.happen event

end Escalation

/-- `runEscalationPlan` for a root plan, as a machine driven by what happens. -/
def runEscalationPlan (plan : EscalationPlan) (now : ℚ) :
    Machine (Escalation V) (EscalationEvent V) where
  init := .start plan now
  step := Escalation.step

end Yantra
