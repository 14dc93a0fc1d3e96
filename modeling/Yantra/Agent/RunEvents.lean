import Yantra.Lib.JsText
import Yantra.Lib.OrderedMap
import Yantra.Lib.Regex
import Yantra.Agent.ToolCalls

/-!
# The events of an agentic run

`createExecutionState`: the handler that watches a run and latches what decides how it ends — a
publication, an interrupt with its reason, a user abort, a provider error, a handoff, the rungs of
the recovery ladder, and the breaker that stops a tool failing the same way over and over. What the
handler reads of the budget tracker and of the progress ledger comes with the event that makes it
read.

## Main definitions

* `ExecutionState`, `RunEvent`, `execution` — the latches and the machine.
* `trackFailureStreak`, `fireRecovery` — the breaker and the ladder.

## Main results

* `breaker_step` — only the end of a tool call touches the breaker.
* `later_runFrom` — what is latched stays latched.
* `explained_run` — whatever stops a run has interrupted it.
-/

namespace Yantra

/-! ## Tool outputs -/

/-- What the handler reads of a tool's output, texts of another type left out. -/
structure ToolOutput where
  status : Option String := none
  errorCode : Option String := none
  budgetLimit : Option String := none
  /-- `details.handoff === true` -/
  handoff : Bool := false
  deriving DecidableEq, Repr, Inhabited

/-- `stringValue` on a text: the empty one counts as none. -/
def stringValue (value : Option String) : Option String := value.filter fun s => !s.isEmpty

def ToolStatus.name : ToolStatus → String
  | .ok => "ok"
  | .error => "error"
  | .denied => "denied"
  | .aborted => "aborted"

/-- What `toolMetadata` returns. -/
structure ToolMetadata where
  status : ToolStatus
  errorCode : Option String
  summary : String
  handoff : Bool
  budgetLimit : Option String
  deriving DecidableEq, Repr, Inhabited

def toolMetadata (output : ToolOutput) (isError : Bool) : ToolMetadata :=
  let status : ToolStatus :=
    if output.status = some "denied" then .denied
    else if output.status = some "aborted" then .aborted
    else if output.status = some "error" then .error
    else if isError then .error
    else .ok
  let errorCode := stringValue output.errorCode
  { status := status
    errorCode := errorCode
    summary := match errorCode with
      | some code => status.name ++ ": " ++ code
      | none => status.name
    handoff := output.handoff || decide (errorCode = some "CONFIRMATION_DENIED") ||
      decide (errorCode = some "CONFIRMATION_TIMEOUT") ||
      decide (errorCode = some "CONFIRMATION_UNAVAILABLE")
    budgetLimit := stringValue output.budgetLimit }

def isRunFatalBudget (limit : Option String) : Bool :=
  limit.all fun l => l = "wall-clock"

/-- The key under which failures of a tool count as the same. -/
def ToolMetadata.failureKey (m : ToolMetadata) (tool : String) : String :=
  tool ++ ":" ++ m.errorCode.getD m.summary

/-! ## What the handler latches -/

/-- Why a run is interrupted, the user's abort apart. -/
inductive BudgetReason where
  | wallClock | providerTokens | toolBudget | stalled | turnTimeout | repeatedToolFailure
  deriving DecidableEq, Repr, Inhabited

def BudgetReason.name : BudgetReason → String
  | .wallClock => "wall-clock"
  | .providerTokens => "provider-tokens"
  | .toolBudget => "tool-budget"
  | .stalled => "stalled"
  | .turnTimeout => "turn-timeout"
  | .repeatedToolFailure => "repeated-tool-failure"

structure AgentError where
  code : String
  message : String
  deriving DecidableEq, Repr, Inhabited

/-- What the user has to do. -/
structure Handoff where
  blocker : String
  safestNextAction : String
  deriving DecidableEq, Repr, Inhabited

inductive RecoveryTrigger where
  | stalled (calls ms : Nat)
  | turnTimeout (thinkingMs : Nat)
  deriving DecidableEq, Repr, Inhabited

def secondsText (ms : Nat) : String :=
  if ms % 1000 = 0 then toString (ms / 1000)
  else toString (ms / 1000) ++ "." ++
    JsText.stripEnd (· == '0') (String.ofList ((toString (1000 + ms % 1000)).toList.drop 1))

/-- The interrupt a trigger leads to. -/
def RecoveryTrigger.reason : RecoveryTrigger → BudgetReason
  | .stalled _ _ => .stalled
  | .turnTimeout _ => .turnTimeout

/-- A tool's current run of identical failures. -/
structure FailureStreak where
  key : String
  count : Nat
  deriving DecidableEq, Repr, Inhabited

/-- What the breaker tripped on. -/
structure RepeatedFailure where
  tool : String
  errorCode : String
  deriving DecidableEq, Repr, Inhabited

/-- `ExecutionState`, with the recovery runner's place on its ladder. -/
structure ExecutionState where
  published : Bool := false
  budgetReason : Option BudgetReason := none
  userAborted : Bool := false
  lastError : Option AgentError := none
  handoff : Option Handoff := none
  stalled : Option (Nat × Nat) := none
  turnTimeout : Option Nat := none
  recoveryReason : Option BudgetReason := none
  failureStreaks : OrderedMap String FailureStreak := .empty
  repeatedFailure : Option RepeatedFailure := none
  lastResponseText : String := ""
  providerTokens : Nat := 0
  turnTimer : Bool := false
  /-- Progress is enforced: its measurement has not failed. -/
  enforcing : Bool := true
  /-- Rungs of the recovery ladder already taken. -/
  rungs : Nat := 0
  deriving Inhabited

/-- The run has been interrupted; its abort signal fires with the first interrupt. -/
def ExecutionState.interrupted (s : ExecutionState) : Bool :=
  s.budgetReason.isSome || s.userAborted

/-- `interrupt`: the first reason stands. -/
def ExecutionState.interrupt (s : ExecutionState) (reason : BudgetReason) : ExecutionState :=
  { s with budgetReason := s.budgetReason.or (some reason) }

structure ExecutionConfig where
  toolRetries : Nat := 3
  maxProviderTokens : Nat
  turnTimeoutMs : Nat
  /-- Whether the calls of a tool count, as opposed to bookkeeping. -/
  counted : String → Bool := fun _ => true

/-! ## The stuck-loop breaker -/

def ExecutionState.nextCount (s : ExecutionState) (tool key : String) : Nat :=
  match s.failureStreaks.get? tool with
  | some previous => if previous.key = key then previous.count + 1 else 1
  | none => 1

/-- `trackFailureStreak`; `soft` tells whether the soft wall clock is exhausted. -/
def trackFailureStreak (cfg : ExecutionConfig) (tool : String) (metadata : ToolMetadata)
    (soft : Bool) (s : ExecutionState) : ExecutionState :=
  match metadata.status with
  | .ok => { s with failureStreaks := s.failureStreaks.erase tool }
  | .error =>
    let key := metadata.failureKey tool
    let count := s.nextCount tool key
    let s := { s with failureStreaks := s.failureStreaks.set tool ⟨key, count⟩ }
    if cfg.toolRetries + 1 ≤ count ∧ s.repeatedFailure = none then
      -- the soft deadline wins: the next exploration call is refused and the session can publish
      if metadata.errorCode = some "TOOL_TIMEOUT" ∧ soft then s
      else
        { s with
            repeatedFailure := some ⟨tool, metadata.errorCode.getD "TOOL_FAILED"⟩ }.interrupt
          .repeatedToolFailure
    else s
  | .denied | .aborted => s

/-! ## The recovery ladder -/

inductive RecoveryRung where
  | steer | freeze | stop
  deriving DecidableEq, Repr, Inhabited

/-- `RECOVERY_LADDER` -/
def recoveryLadder : List RecoveryRung := [.steer, .freeze, .stop]

def refusalsAfterFreeze : Nat := 2

/-- `STALL_POLICY` and `isStalled` -/
def isStalled (noProgressCalls msSinceProgress : Nat) (softReached : Bool) : Bool :=
  !softReached && (decide (6 ≤ noProgressCalls) ||
    (decide (2 ≤ noProgressCalls) && decide (120000 ≤ msSinceProgress)))

/-- Where the code of a recovery can throw. -/
inductive RecoveryFault where
  | checkpoint | building | emitting
  deriving DecidableEq, Repr, Inhabited

def ExecutionState.disableProgress (s : ExecutionState) : ExecutionState :=
  { s with enforcing := false, turnTimer := false }

/-- The freeze closes exploration, for the reason of its trigger. -/
def noteRung (rung : RecoveryRung) (trigger : RecoveryTrigger) (s : ExecutionState) :
    ExecutionState :=
  match rung with
  | .freeze => { s with recoveryReason := some trigger.reason }
  | .steer | .stop => s

def stopAtRung (rung : RecoveryRung) (trigger : RecoveryTrigger) (s : ExecutionState) :
    ExecutionState :=
  match rung, trigger with
  | .stop, .stalled calls ms => { s with stalled := some (calls, ms) }.interrupt .stalled
  | .stop, .turnTimeout ms => { s with turnTimeout := some ms }.interrupt .turnTimeout
  | .steer, _ | .freeze, _ => s

/-- `fireRecovery`, and `disableProgress` where it throws. -/
def fireRecovery (rung : RecoveryRung) (trigger : RecoveryTrigger) (fault : Option RecoveryFault)
    (s : ExecutionState) : ExecutionState :=
  match fault with
  | some .building => s.disableProgress
  | some .emitting => (noteRung rung trigger s).disableProgress
  | _ => stopAtRung rung trigger (noteRung rung trigger s)

/-- `onTrigger`, with what is then fired. -/
def onTrigger (trigger : RecoveryTrigger) (fault : Option RecoveryFault) (s : ExecutionState) :
    ExecutionState :=
  match recoveryLadder[s.rungs]? with
  | some rung => fireRecovery rung trigger fault { s with rungs := s.rungs + 1 }
  | none => s

/-! ## Events -/

/-- A tool call that ended, with what the handler reads besides: the soft wall clock, at the
breaker and at the stall check, the checkpoint of the progress ledger, and the refusals since the
freeze. -/
structure ToolFinished where
  tool : String
  output : ToolOutput := {}
  isError : Bool := false
  softAtBreaker : Bool := false
  softAtStall : Bool := false
  noProgressCalls : Nat := 0
  msSinceProgress : Nat := 0
  refusedAfterFreeze : Nat := 0
  fault : Option RecoveryFault := none
  deriving DecidableEq, Repr, Inhabited

/-- The metadata of an ended call. -/
def ToolFinished.metadata (e : ToolFinished) : ToolMetadata := toolMetadata e.output e.isError

inductive RunEvent where
  | promptSent
  | turnStarted
  | outputStarted
  | assistantText (text : String)
  | toolFinished (e : ToolFinished)
  | turnFinished (tokens : Nat)
  | failed (error : AgentError)
  /-- The user's abort signal fires. -/
  | userAbort
  /-- The hard wall clock fires. -/
  | wallClock
  | turnTimer (fault : Option RecoveryFault)
  /-- A steer, or the abort of a turn, fails. -/
  | progressFault
  deriving DecidableEq, Repr, Inhabited

/-- A letter of a case-insensitive pattern. -/
def symI (c : Char) : Regex Char := .sym fun d => (JsText.asciiLower d.toString) == c.toString

/-- A word of a case-insensitive pattern. -/
def textI (word : String) : Regex Char := .seqs (word.toList.map symI)

/-- `/\b(captcha|bot[- ]wall|mfa)\b/i` -/
def humanVerification : Regex Char :=
  let word := Regex.boundary fun c => c.isAlphanum || c == '_'
  .seqs [word, .alts [textI "captcha",
    .seqs [textI "bot", .sym fun c => c == '-' || c == ' ', textI "wall"], textI "mfa"], word]

/-- The handoff of a text that mentions human verification. -/
def verificationHandoff : Handoff where
  blocker := "The site requires human verification or authentication."
  safestNextAction := "Complete the verification manually, then start a fresh run."

/-- The handoff of a call whose output asks for one. -/
def restrictionHandoff (m : ToolMetadata) : Handoff where
  blocker := m.summary
  safestNextAction := "Resolve the site restriction manually, then retry only if policy permits."

/-- A publication through the tool. -/
def latchPublished (e : ToolFinished) (s : ExecutionState) : ExecutionState :=
  if e.tool = "result_publish" ∧ e.metadata.status = .ok then { s with published := true } else s

def latchBudget (e : ToolFinished) (s : ExecutionState) : ExecutionState :=
  if e.metadata.errorCode = some "BUDGET_EXHAUSTED" ∧ isRunFatalBudget e.metadata.budgetLimit then
    s.interrupt .toolBudget
  else s

/-- A call that hands off. -/
def latchHandoff (e : ToolFinished) (s : ExecutionState) : ExecutionState :=
  if e.metadata.handoff then { s with handoff := some (restrictionHandoff e.metadata) } else s

/-- What an ended call latches before the breaker looks at it. -/
def latchTool (e : ToolFinished) (s : ExecutionState) : ExecutionState :=
  latchHandoff e (latchBudget e (latchPublished e s))

/-- What the progress checkpoint of an ended call leads to. -/
def recoverAfter (cfg : ExecutionConfig) (e : ToolFinished) (s : ExecutionState) :
    ExecutionState :=
  if e.fault = some .checkpoint then s.disableProgress
  else if s.enforcing ∧ s.repeatedFailure = none ∧ s.interrupted = false then
    let trigger := RecoveryTrigger.stalled e.noProgressCalls e.msSinceProgress
    if e.metadata.budgetLimit = some "stalled" ∧ recoveryLadder[s.rungs]? = some .stop ∧
        refusalsAfterFreeze ≤ e.refusedAfterFreeze then
      onTrigger trigger e.fault s
    else if cfg.counted e.tool ∧ isStalled e.noProgressCalls e.msSinceProgress e.softAtStall then
      onTrigger trigger e.fault s
    else s
  else s

/-- `onEvent`, and the timers and signals beside it. -/
def executionStep (cfg : ExecutionConfig) (s : ExecutionState) : RunEvent → ExecutionState
  | .promptSent => { s with lastResponseText := "" }
  | .turnStarted => { s with turnTimer := s.enforcing && !s.interrupted }
  | .outputStarted => { s with turnTimer := false }
  | .assistantText text =>
    let s := { s with lastResponseText := s.lastResponseText ++ text }
    if humanVerification.test text.toList then
      { s with handoff := s.handoff.or (some verificationHandoff) }
    else s
  | .toolFinished e =>
    recoverAfter cfg e
      (trackFailureStreak cfg e.tool e.metadata e.softAtBreaker (latchTool e s))
  | .turnFinished tokens =>
    let s := { s with turnTimer := false, providerTokens := s.providerTokens + tokens }
    if cfg.maxProviderTokens ≤ s.providerTokens then s.interrupt .providerTokens else s
  | .failed error => { s with lastError := some error }
  | .userAbort => { s with userAborted := true }
  | .wallClock => s.interrupt .wallClock
  | .turnTimer fault =>
    if s.turnTimer then
      onTrigger (.turnTimeout cfg.turnTimeoutMs) fault { s with turnTimer := false }
    else s
  | .progressFault => s.disableProgress

def execution (cfg : ExecutionConfig) : Machine ExecutionState RunEvent where
  init := {}
  step := executionStep cfg

/-! ## What a step leaves alone -/

def ExecutionState.breaker (s : ExecutionState) :
    OrderedMap String FailureStreak × Option RepeatedFailure :=
  (s.failureStreaks, s.repeatedFailure)

@[simp] lemma breaker_interrupt (s : ExecutionState) (reason : BudgetReason) :
    (s.interrupt reason).breaker = s.breaker := rfl

@[simp] lemma breaker_disableProgress (s : ExecutionState) :
    s.disableProgress.breaker = s.breaker := rfl

variable (rung : RecoveryRung)

@[simp] lemma breaker_noteRung (trigger : RecoveryTrigger) (s : ExecutionState) :
    (noteRung rung trigger s).breaker = s.breaker := by
  cases rung <;> rfl

@[simp] lemma breaker_stopAtRung (trigger : RecoveryTrigger) (s : ExecutionState) :
    (stopAtRung rung trigger s).breaker = s.breaker := by
  cases rung <;> cases trigger <;> rfl

@[simp] lemma breaker_onTrigger (trigger : RecoveryTrigger) (fault : Option RecoveryFault)
    (s : ExecutionState) : (onTrigger trigger fault s).breaker = s.breaker := by
  unfold onTrigger fireRecovery
  split
  · split <;> simp <;> rfl
  · rfl

@[simp] lemma breaker_latchTool (e : ToolFinished) (s : ExecutionState) :
    (latchTool e s).breaker = s.breaker := by
  simp only [latchTool, latchHandoff, latchBudget, latchPublished]
  split_ifs <;> rfl

variable (cfg : ExecutionConfig)

@[simp] lemma breaker_recoverAfter (e : ToolFinished) (s : ExecutionState) :
    (recoverAfter cfg e s).breaker = s.breaker := by
  simp only [recoverAfter]
  split_ifs <;> simp

lemma breaker_step (s : ExecutionState) (e : RunEvent) (he : ∀ call, e ≠ .toolFinished call) :
    (executionStep cfg s e).breaker = s.breaker := by
  cases e with
  | toolFinished call => exact absurd rfl (he call)
  | assistantText text => simp only [executionStep]; split_ifs <;> rfl
  | turnFinished tokens => simp only [executionStep]; split_ifs <;> rfl
  | turnTimer fault =>
    simp only [executionStep]
    split_ifs
    · exact breaker_onTrigger _ _ _
    · rfl
  | _ => rfl

/-! ## Latches stay -/

/-- Every latch of `s` that decides how a run ends is one of `t`. -/
structure Later (s t : ExecutionState) : Prop where
  published : s.published → t.published
  userAborted : s.userAborted → t.userAborted
  budgetReason : ∀ reason, s.budgetReason = some reason → t.budgetReason = some reason
  lastError : s.lastError.isSome → t.lastError.isSome
  handoff : s.handoff.isSome → t.handoff.isSome

lemma Later.refl (s : ExecutionState) : Later s s := ⟨id, id, fun _ => id, id, id⟩

lemma Later.trans {s t u : ExecutionState} (h : Later s t) (h' : Later t u) : Later s u where
  published hs := h'.published (h.published hs)
  userAborted hs := h'.userAborted (h.userAborted hs)
  budgetReason reason hs := h'.budgetReason reason (h.budgetReason reason hs)
  lastError hs := h'.lastError (h.lastError hs)
  handoff hs := h'.handoff (h.handoff hs)

lemma later_interrupt (s : ExecutionState) (reason : BudgetReason) :
    Later s (s.interrupt reason) := by
  refine ⟨id, id, fun first hfirst => ?_, id, id⟩
  simp [ExecutionState.interrupt, hfirst]

lemma later_disableProgress (s : ExecutionState) : Later s s.disableProgress :=
  ⟨id, id, fun _ => id, id, id⟩

lemma later_noteRung (trigger : RecoveryTrigger) (s : ExecutionState) :
    Later s (noteRung rung trigger s) := by
  cases rung <;> exact ⟨id, id, fun _ => id, id, id⟩

lemma later_stopAtRung (trigger : RecoveryTrigger) (s : ExecutionState) :
    Later s (stopAtRung rung trigger s) := by
  cases rung with
  | steer => exact Later.refl s
  | freeze => exact Later.refl s
  | stop =>
    cases trigger with
    | stalled calls ms =>
      have hstalled : Later s { s with stalled := some (calls, ms) } :=
        ⟨id, id, fun _ => id, id, id⟩
      exact hstalled.trans (later_interrupt _ _)
    | turnTimeout ms =>
      have htimeout : Later s { s with turnTimeout := some ms } :=
        ⟨id, id, fun _ => id, id, id⟩
      exact htimeout.trans (later_interrupt _ _)

lemma later_onTrigger (trigger : RecoveryTrigger) (fault : Option RecoveryFault)
    (s : ExecutionState) : Later s (onTrigger trigger fault s) := by
  unfold onTrigger fireRecovery
  split
  · have htaken : Later s { s with rungs := s.rungs + 1 } := ⟨id, id, fun _ => id, id, id⟩
    split
    · exact htaken.trans (later_disableProgress _)
    · exact (htaken.trans (later_noteRung _ _ _)).trans (later_disableProgress _)
    · exact (htaken.trans (later_noteRung _ _ _)).trans (later_stopAtRung _ _ _)
  · exact Later.refl s

lemma later_latchTool (e : ToolFinished) (s : ExecutionState) : Later s (latchTool e s) := by
  have hpublished : Later s (latchPublished e s) := by
    unfold latchPublished
    split_ifs
    · exact ⟨fun _ => rfl, id, fun _ => id, id, id⟩
    · exact Later.refl s
  have hbudget : ∀ t, Later t (latchBudget e t) := by
    intro t
    unfold latchBudget
    split_ifs
    · exact later_interrupt t _
    · exact Later.refl t
  have hhandoff : ∀ t, Later t (latchHandoff e t) := by
    intro t
    unfold latchHandoff
    split_ifs
    · exact ⟨id, id, fun _ => id, id, fun _ => rfl⟩
    · exact Later.refl t
  exact (hpublished.trans (hbudget _)).trans (hhandoff _)

lemma later_trackFailureStreak (tool : String) (metadata : ToolMetadata) (soft : Bool)
    (s : ExecutionState) :
    Later s (trackFailureStreak cfg tool metadata soft s) := by
  have hsame : ∀ streaks failure, Later s
      { s with failureStreaks := streaks, repeatedFailure := failure } :=
    fun _ _ => ⟨id, id, fun _ => id, id, id⟩
  unfold trackFailureStreak
  split
  · exact hsame _ _
  · simp only
    split_ifs
    · exact hsame _ _
    · exact (hsame _ _).trans (later_interrupt _ _)
    · exact hsame _ _
  · exact Later.refl s
  · exact Later.refl s

lemma later_recoverAfter (e : ToolFinished) (s : ExecutionState) :
    Later s (recoverAfter cfg e s) := by
  simp only [recoverAfter]
  split_ifs
  · exact ⟨id, id, fun _ => id, id, id⟩
  · exact later_onTrigger _ _ _
  · exact later_onTrigger _ _ _
  · exact Later.refl s
  · exact Later.refl s

lemma later_step (s : ExecutionState) (e : RunEvent) :
    Later s (executionStep cfg s e) := by
  cases e with
  | promptSent => exact ⟨id, id, fun _ => id, id, id⟩
  | turnStarted => exact ⟨id, id, fun _ => id, id, id⟩
  | outputStarted => exact ⟨id, id, fun _ => id, id, id⟩
  | assistantText text =>
    simp only [executionStep]
    split_ifs
    · refine ⟨id, id, fun _ => id, id, fun hs => ?_⟩
      obtain ⟨handoff, hhandoff⟩ := Option.isSome_iff_exists.1 hs
      simp [hhandoff]
    · exact ⟨id, id, fun _ => id, id, id⟩
  | toolFinished e =>
    exact ((later_latchTool e s).trans (later_trackFailureStreak cfg _ _ _ _)).trans
      (later_recoverAfter cfg e _)
  | turnFinished tokens =>
    have hsame : Later s
        { s with turnTimer := false, providerTokens := s.providerTokens + tokens } :=
      ⟨id, id, fun _ => id, id, id⟩
    simp only [executionStep]
    split_ifs
    · exact hsame.trans (later_interrupt _ _)
    · exact hsame
  | failed error => exact ⟨id, id, fun _ => id, fun _ => rfl, id⟩
  | userAbort => exact ⟨id, fun _ => rfl, fun _ => id, id, id⟩
  | wallClock => exact later_interrupt s .wallClock
  | turnTimer fault =>
    have hsame : Later s { s with turnTimer := false } := ⟨id, id, fun _ => id, id, id⟩
    simp only [executionStep]
    split_ifs
    · exact hsame.trans (later_onTrigger _ _ _)
    · exact Later.refl s
  | progressFault => exact ⟨id, id, fun _ => id, id, id⟩

/-- What is latched stays latched. -/
lemma later_runFrom (s : ExecutionState) (es : List RunEvent) :
    Later s ((execution cfg).runFrom s es) := by
  have hstep : ∀ t e, Later s t → Later s ((execution cfg).step t e) :=
    fun t e ht => ht.trans (later_step cfg t e)
  exact Machine.invariant_runFrom' hstep (Later.refl s) es

/-! ## Every stop is an interrupt -/

/-- Whatever stops a run has interrupted it. -/
structure Explained (s : ExecutionState) : Prop where
  repeatedFailure : s.repeatedFailure.isSome → s.budgetReason.isSome
  stalled : s.stalled.isSome → s.budgetReason.isSome
  turnTimeout : s.turnTimeout.isSome → s.budgetReason.isSome

lemma explained_interrupt (s : ExecutionState) (reason : BudgetReason) :
    Explained (s.interrupt reason) := by
  have hsome : (s.interrupt reason).budgetReason.isSome := by simp [ExecutionState.interrupt]
  exact ⟨fun _ => hsome, fun _ => hsome, fun _ => hsome⟩

variable {s : ExecutionState}

lemma explained_noteRung (hs : Explained s) (rung : RecoveryRung) (trigger : RecoveryTrigger) :
    Explained (noteRung rung trigger s) := by
  cases rung <;> exact ⟨hs.1, hs.2, hs.3⟩

lemma explained_stopAtRung (hs : Explained s) (rung : RecoveryRung) (trigger : RecoveryTrigger) :
    Explained (stopAtRung rung trigger s) := by
  cases rung with
  | steer => exact hs
  | freeze => exact hs
  | stop => cases trigger <;> exact explained_interrupt _ _

lemma explained_onTrigger (hs : Explained s) (trigger : RecoveryTrigger)
    (fault : Option RecoveryFault) : Explained (onTrigger trigger fault s) := by
  unfold onTrigger fireRecovery
  split
  · have htaken : Explained { s with rungs := s.rungs + 1 } := ⟨hs.1, hs.2, hs.3⟩
    split
    · exact ⟨hs.1, hs.2, hs.3⟩
    · have hnoted := explained_noteRung htaken ‹RecoveryRung› trigger
      exact ⟨hnoted.1, hnoted.2, hnoted.3⟩
    · exact explained_stopAtRung (explained_noteRung htaken _ trigger) _ trigger
  · exact hs

lemma explained_latchTool (hs : Explained s) (e : ToolFinished) :
    Explained (latchTool e s) := by
  have hpublished : Explained (latchPublished e s) := by
    unfold latchPublished
    split_ifs
    · exact ⟨hs.1, hs.2, hs.3⟩
    · exact hs
  have hbudget : Explained (latchBudget e (latchPublished e s)) := by
    unfold latchBudget
    split_ifs
    · exact explained_interrupt _ _
    · exact hpublished
  unfold latchTool latchHandoff
  split_ifs
  · exact ⟨hbudget.1, hbudget.2, hbudget.3⟩
  · exact hbudget

lemma explained_trackFailureStreak (hs : Explained s) (cfg : ExecutionConfig) (tool : String)
    (metadata : ToolMetadata) (soft : Bool) :
    Explained (trackFailureStreak cfg tool metadata soft s) := by
  unfold trackFailureStreak
  split
  · exact ⟨hs.1, hs.2, hs.3⟩
  · simp only
    split_ifs
    · exact ⟨hs.1, hs.2, hs.3⟩
    · exact explained_interrupt _ _
    · exact ⟨hs.1, hs.2, hs.3⟩
  · exact hs
  · exact hs

lemma explained_step (hs : Explained s) (e : RunEvent) : Explained (executionStep cfg s e) := by
  cases e with
  | toolFinished e =>
    have hbreaker := explained_trackFailureStreak (explained_latchTool hs e) cfg e.tool
      e.metadata e.softAtBreaker
    simp only [executionStep, recoverAfter]
    split_ifs
    · exact ⟨hbreaker.1, hbreaker.2, hbreaker.3⟩
    · exact explained_onTrigger hbreaker _ _
    · exact explained_onTrigger hbreaker _ _
    · exact hbreaker
    · exact hbreaker
  | turnFinished tokens =>
    simp only [executionStep]
    split_ifs
    · exact explained_interrupt _ _
    · exact ⟨hs.1, hs.2, hs.3⟩
  | wallClock => exact explained_interrupt s _
  | turnTimer fault =>
    have hcleared : Explained { s with turnTimer := false } := ⟨hs.1, hs.2, hs.3⟩
    simp only [executionStep]
    split_ifs
    · exact explained_onTrigger hcleared _ _
    · exact hs
  | assistantText text =>
    simp only [executionStep]
    split_ifs <;> exact ⟨hs.1, hs.2, hs.3⟩
  | _ => exact ⟨hs.1, hs.2, hs.3⟩

/-- In every run, whatever stopped it has interrupted it. -/
lemma explained_run (es : List RunEvent) :
    Explained ((execution cfg).run es) := by
  have hinit : Explained (execution cfg).init := by
    refine ⟨?_, ?_, ?_⟩ <;> intro h <;> cases h
  have hstep : ∀ s e, Explained s → Explained ((execution cfg).step s e) :=
    fun _ e hs => explained_step cfg hs e
  exact Machine.invariant_runFrom' hstep hinit es

end Yantra
