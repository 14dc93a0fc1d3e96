import Yantra.Executor.ValueResolver

/-!
# Step handlers

The handlers `STEP_DISPATCH` routes to, all but the loop's body execution, which dispatches
further steps and is part of `Executor.Run`. What the browser, the model client and the
keychain answer during one handler call is an input, `World`; everything the handler decides
itself is computed.

## Main definitions

* `World` — what the outside answers during one step.
* `startLoop` — what `handleLoop` does before its first body step.

## Main results

* `handleStep_captures` — a handler stores at most one value, under its step's name.
-/

namespace Yantra

open Option

/-! ## Locators -/

/-- One candidate of a locator chain, as the locator engine reads it. -/
inductive EngineLocatorCandidate where
  | role (role : RoleEnum) (name : Option NameMatch)
  | testid (value : String)
  | label (text : String)
  | placeholder (text : String)
  | css (selector : String)
  | xpath (expression : String)
  deriving DecidableEq, Repr, Inhabited

structure EngineLocatorChain where
  name : String
  candidates : List EngineLocatorCandidate
  strict : Bool
  deriving DecidableEq, Repr, Inhabited

abbrev LocatorTable := OrderedMap String EngineLocatorChain

/-! ## Contexts, inputs and results -/

/-- The part of an execution context that is fixed for a run. -/
structure RunEnv where
  runId : String
  plan : Plan
  params : Params
  /-- `none` when the context was built without named locators. -/
  workflowLocators : Option LocatorTable
  /-- Whether a browser session was supplied. -/
  browser : Bool
  /-- Whether a confirmation gateway is wired. -/
  gateway : Bool
  /-- Whether both a sanitizer and a model client are wired. -/
  llm : Bool
  /-- The host of a URL; `none` when the text is not a URL. -/
  urlHost : String → Option String

/-- Why a run is handed to a human. -/
inductive HandoffReason where
  | captcha | mfa | unexpectedState | other
  deriving DecidableEq, Repr, Inhabited

inductive StepResult where
  | completed (captureKeys : List String)
  | retried (reason : String)
  | failed (failureClass : FailureClass) (message : String)
  | handoffRequested (reason : HandoffReason)
  | ethicsRefused (host rule reason : String)
  | jump (toStepId : String)
  deriving DecidableEq, Repr, Inhabited

inductive TaskEvent where
  | taskStarted
  | stepStarted (stepId : String) (stepType : StepVerb)
  | stepRetry (stepId : String) (attempt : Nat) (reason : String)
  | stepCompleted (stepId : String) (captureKeys : List String)
  | checkpointSaved (afterStepId : String)
  | confirmationRequested (request : ConfirmationRequest)
  | confirmationResolved (confirmationId : Nat) (decision : Decision) (decidedBy : DecidedBy)
  | humanHandoffRequested (stepId : String) (reason : HandoffReason)
  | scopeViolation (scope : SecurityScope) (attemptedVerb : StepVerb) (stepId : String)
  | llmStepSkipped (stepId outputAs reason : String)
  | taskResumed (resumeStepId : String)
  | taskFailed (failureClass : FailureClass)
  | taskCompleted (outputKeys : List String)
  deriving DecidableEq, Repr, Inhabited

inductive EthicsReply where
  | permitted
  | refused (host rule reason : String)
  | error (message : String)
  deriving DecidableEq, Repr, Inhabited

/-- How `page.goto` ends. -/
inductive GotoReply where
  | loaded
  /-- HTTP 403, 429 or 451, with the parsed `retry-after` in milliseconds. -/
  | refused (status : Nat) (retryAfterMs : Option Nat)
  | timeout
  | error (message : String)
  deriving DecidableEq, Repr, Inhabited

/-- How the engine's search for a chain's element ends. -/
inductive LocatorReply where
  | found
  | notFound
  | error (message : String)
  deriving DecidableEq, Repr, Inhabited

/-- How acting on a found element ends. -/
inductive ActionReply where
  | done
  | threw (message : String)
  deriving DecidableEq, Repr, Inhabited

/-- How the field search of `fill_element` ends. -/
inductive FieldReply where
  | observed
  | ambiguous
  | unnamed
  | absent
  deriving DecidableEq, Repr, Inhabited

/-- How the fill engine ends. -/
inductive FillReply where
  | ok
  | failure (errorCode message : String) (retryable : Bool)
  deriving DecidableEq, Repr, Inhabited

/-- What a confirmation gateway's `request` resolves to, or that it rejects. -/
inductive GatewayReply where
  | decided (decision : Decision) (decidedBy : DecidedBy)
  | parked
  | threw
  deriving DecidableEq, Repr, Inhabited

/-- What the world outside the executor answers during one step. -/
structure World where
  ethics : EthicsReply := .permitted
  goto : GotoReply := .loaded
  locator : LocatorReply := .found
  action : ActionReply := .done
  field : FieldReply := .observed
  fill : FillReply := .ok
  /-- What the page holds where an extract reads. -/
  raw : Value := .null
  /-- Whether the text of an asserted element matches the step's pattern. -/
  textMatches : Bool := true
  /-- The plaintext of a secret, when the keychain gives one. -/
  secret : Option String := none
  /-- The model's summary, or its error. -/
  summary : Except String String := .ok ""
  gateway : GatewayReply := .threw
  pageUrl : Option String := none
  /-- Whether the checkpoint file is written and renamed into place. -/
  checkpointSaved : Bool := true
  deriving Inhabited

/-- The mutable part of an execution context a handler reads. -/
structure HandlerCtx where
  captures : CaptureStore
  budgets : RetryBudget
  /-- Whether a page with a locator host is attached. -/
  page : Bool

/-- What a handler call yields: its result, the captures after it, and what it published. -/
structure Handled where
  result : StepResult
  captures : CaptureStore
  events : List TaskEvent := []

/-! ## Leaf handlers -/

/-- `buildEngineChain`: the candidates a locator reference stands for, `none` when the
reference cannot be compiled. -/
def buildEngineChain (env : RunEnv) : LocatorChain → Option EngineLocatorChain
  | .intent role nameMatch _ => some ⟨"", [.role role nameMatch], true⟩
  | .workflow name => env.workflowLocators.bind fun table => table.get? name
  | .recorded _ => none

/-- `resolveLocatorChain`: a chain that cannot be built or has no candidate is not found;
otherwise the engine searches the page. -/
def resolveLocatorChain (env : RunEnv) (w : World) (locator : LocatorChain) : LocatorReply :=
  match buildEngineChain env locator with
  | none => .notFound
  | some chain => if chain.candidates.isEmpty then .notFound else w.locator

/-- A located element is retried while a step retry is left, and fails the step otherwise. -/
def locatorMiss (ctx : HandlerCtx) (reason : String) : StepResult :=
  if ctx.budgets.canRetry .step then .retried reason
  else .failed .locatorNotFound "Locator chain exhausted."

/-- The result of a handler that found its element and acted on it. -/
def afterAction : ActionReply → StepResult
  | .done => .completed []
  | .threw message => .failed .unexpected message

/-- `handleNavigate`. Its resolver is built with no params. -/
def handleNavigate (ctx : HandlerCtx) (w : World) (url : ValueRef) : StepResult :=
  match ValueResolver.resolveToString ⟨ctx.captures, OrderedMap.empty⟩ url with
  | .error message => .failed .unexpected message
  | .ok _ =>
    match w.ethics with
    | .refused host rule reason => .ethicsRefused host rule reason
    | .error message => .failed .ethicsRefused message
    | .permitted =>
      if ctx.page then
        match w.goto with
        | .loaded => .completed []
        | .refused status (some ms) =>
            if status = 429 then
              .retried ("HTTP 429 Retry-After: " ++ toString ms ++ "ms")
            else .failed .rateLimited ("Remote refused with HTTP " ++ toString status ++ ".")
        | .refused status none =>
            .failed .rateLimited ("Remote refused with HTTP " ++ toString status ++ ".")
        | .timeout => .failed .networkError "Navigation timed out."
        | .error message => .failed .unexpected message
      else .failed .unexpected "No active page in ExecutionContext."

/-- `handleClick`. -/
def handleClick (env : RunEnv) (ctx : HandlerCtx) (w : World) (locator : LocatorChain) :
    StepResult :=
  if ctx.page then
    match resolveLocatorChain env w locator with
    | .notFound => locatorMiss ctx "Locator chain exhausted — DOM may have re-rendered"
    | .error message => .failed .unexpected message
    | .found => afterAction w.action
  else .failed .unexpected
    "Click step requires a browser session with an InjectedScriptHost."

/-- The text a fill types: a secret's plaintext, or the resolved value. -/
def fillText (env : RunEnv) (ctx : HandlerCtx) (w : World) : ValueRef → Except String String
  | .secret _ => w.secret.elim (.error "Secret could not be resolved.") .ok
  | value => ValueResolver.resolveToString ⟨ctx.captures, env.params⟩ value

/-- `handleFill`. -/
def handleFill (env : RunEnv) (ctx : HandlerCtx) (w : World) (locator : LocatorChain)
    (value : ValueRef) : StepResult :=
  if ctx.page then
    match resolveLocatorChain env w locator with
    | .notFound => locatorMiss ctx "Locator chain exhausted — DOM may have re-rendered"
    | .error message => .failed .unexpected message
    | .found =>
      match fillText env ctx w value with
      | .error message => .failed .unexpected message
      | .ok _ => afterAction w.action
  else .failed .unexpected
    "Fill step requires a browser session with an InjectedScriptHost."

/-- `driveFillElement`: commit the value through the fill engine. -/
def driveFillElement (env : RunEnv) (ctx : HandlerCtx) (w : World) (value : ValueRef) :
    StepResult :=
  match fillText env ctx w value with
  | .error message => .failed .validationError message
  | .ok _ =>
    match w.fill with
    | .ok => .completed []
    | .failure errorCode message retryable =>
      if errorCode ≠ "FILL_VALUE_INVALID" ∧ retryable ∧ ctx.budgets.canRetry .step then
        .retried errorCode
      else .failed
        (if errorCode = "WIDGET_TARGET_UNREACHABLE" then .locatorNotFound else .validationError)
        message

/-- `handleFillElement`. -/
def handleFillElement (env : RunEnv) (ctx : HandlerCtx) (w : World) (fieldName : String)
    (locator : LocatorChain) (value : ValueRef) : StepResult :=
  if ctx.page then
    match w.action with
    | .threw message => .failed .unexpected message
    | .done =>
      match w.field with
      | .observed => driveFillElement env ctx w value
      | .ambiguous =>
          if ctx.budgets.canRetry .step then .retried "WIDGET_AMBIGUOUS_CHOICE"
          else .failed .validationError
            ("Several fields match \"" ++ fieldName ++ "\" at the same rank.")
      | .unnamed => .failed .locatorNotFound
          ("The field \"" ++ fieldName ++ "\" has no matching accessible name. " ++
            "Set field_label_origin to address an inferred label.")
      | .absent =>
        match resolveLocatorChain env w locator with
        | .notFound =>
            if ctx.budgets.canRetry .step then .retried "locator_not_found"
            else .failed .locatorNotFound
              ("The field \"" ++ fieldName ++ "\" and its fallback locator were not found.")
        | .error message => .failed .unexpected message
        | .found => driveFillElement env ctx w value
  else .failed .unexpected "fill_element requires a Puppeteer-backed page."

/-- The rows an extract captures: the items of an array schema, each `null` replaced by an
error row, or the one value of any other schema. -/
def envelopeRows (raw : Value) : ExtractionSchema → List Value
  | .array _ =>
      (match raw with
        | .arr items => items
        | v => [v]).map fun (item : Value) =>
          match item with
          | .null => .obj [("__error", .str "Null or undefined row"), ("__raw", .null)]
          | v => v
  | _ => [raw]

/-- Whether a row counts as an error row: an object with an `__error` property. -/
def isErrorRow : Value → Bool
  | .obj fields => (Value.property? "__error" (.obj fields)).isSome
  | _ => false

/-- `buildEnvelope`: what an extract step stores. -/
def buildEnvelope (raw : Value) (schema : ExtractionSchema) : Value :=
  let rows := envelopeRows raw schema
  let validRows := rows.filter fun r => !isErrorRow r
  .obj [("rows", .arr rows),
    ("metadata", .obj [("total_rows", .num (toString rows.length)),
      ("valid_rows", .num (toString validRows.length)),
      ("error_count", .num (toString (rows.length - validRows.length)))])]

/-- `handleExtract`. The envelope is stored under the step's alias. -/
def handleExtract (env : RunEnv) (ctx : HandlerCtx) (w : World) (locator : LocatorChain)
    (schema : ExtractionSchema) (captureAs : String) : StepResult × CaptureStore :=
  if ctx.page then
    match resolveLocatorChain env w locator with
    | .notFound =>
        (locatorMiss ctx "Locator chain exhausted during extraction", ctx.captures)
    | .error message => (.failed .unexpected message, ctx.captures)
    | .found =>
      match w.action with
      | .threw message => (.failed .unexpected message, ctx.captures)
      | .done => (.completed [captureAs], ctx.captures.set captureAs (buildEnvelope w.raw schema))
  else (.failed .unexpected
    "Extract step requires a browser session with an InjectedScriptHost.", ctx.captures)

/-- `handleWaitFor`. For `hidden` and `detached`, `LocatorReply.found` means the element was
still there at the deadline. -/
def handleWaitFor (env : RunEnv) (ctx : HandlerCtx) (w : World) (locator : LocatorChain)
    (state : WaitState) : StepResult :=
  if ctx.page then
    match state, resolveLocatorChain env w locator with
    | .visible, .found | .attached, .found => .completed []
    | .visible, .notFound | .attached, .notFound =>
        .failed .locatorNotFound "Locator chain exhausted."
    | .visible, .error message | .attached, .error message => .failed .unexpected message
    | _, .notFound => .completed []
    | _, .error _ => .completed []
    | _, .found => .failed .unexpected "Element did not leave within the timeout."
  else .failed .unexpected
    "WaitFor step requires a browser session with an InjectedScriptHost."

/-- `assertFail`. -/
def assertFail (conditionKind detail : String) : StepResult :=
  .failed .unexpected ("Assert step failed (" ++ conditionKind ++ "): " ++ detail)

/-- `handleAssert`. A count is read as 1 when the element is found and 0 otherwise. Reading the
text of an element can throw, which the handler does not catch. -/
def handleAssert (env : RunEnv) (ctx : HandlerCtx) (w : World) (locator : LocatorChain)
    (condition : AssertCondition) : Except String StepResult :=
  if ctx.page then
    match condition, resolveLocatorChain env w locator with
    | .visible, .found => .ok (.completed [])
    | .visible, .notFound => .ok (assertFail "visible" "Element was not found / not visible.")
    | .visible, .error message => .ok (.failed .unexpected message)
    | .hidden, .found => .ok (assertFail "hidden" "Element is visible but expected hidden.")
    | .hidden, _ => .ok (.completed [])
    | .textMatches _ _, .found =>
        match w.action with
        | .threw message => .error message
        | .done => .ok (if w.textMatches then .completed []
            else assertFail "text_matches" "Text did not match pattern.")
    | .textMatches _ _, _ =>
        .ok (assertFail "text_matches" "Element not found for text assertion.")
    | .countEquals count, reply =>
        let actualCount := if reply = .found then 1 else 0
        .ok (if actualCount = count then .completed []
          else assertFail "count_equals" ("Expected " ++ toString count ++
            " element(s), found ~" ++ toString actualCount ++ "."))
  else .ok (.failed .unexpected
    "Assert step requires a browser session with an InjectedScriptHost.")

/-- `isCaptureFieldPresent`. -/
def isCaptureFieldPresent (capture : Option Value) (field : String) : Bool :=
  match capture with
  | some v => v.isObject && (v.property? field).isSome
  | none => false

def branchTaken (captures : CaptureStore) : BranchCondition → Bool
  | .always => true
  | .captureExists ref =>
      captures.has ref.stepId &&
        match ref.field with
        | none => true
        | some field => isCaptureFieldPresent (captures.get? ref.stepId) field

/-- `handleBranch`. -/
def handleBranch (captures : CaptureStore) (condition : BranchCondition) (thenStepId : String)
    (elseStepId : Option String) : StepResult :=
  if branchTaken captures condition then .jump thenStepId
  else
    match elseStepId with
    | some e => .jump e
    | none => .completed []

/-- `handleLlmSummarize`. The whole capture is read: the field of `input` is not looked at. -/
def handleLlmSummarize (env : RunEnv) (ctx : HandlerCtx) (w : World) (stepId : String)
    (input : CaptureRef) (outputAs : String) : Handled :=
  match ctx.captures.get? input.stepId with
  | none => ⟨.failed .unexpected ("llm_summarize step \"" ++ stepId ++ "\": capture \"" ++
      input.stepId ++ "\" not found."), ctx.captures, []⟩
  | some capture =>
    if env.llm then
      match w.summary with
      | .error message => ⟨.failed .unexpected message, ctx.captures, []⟩
      | .ok text => ⟨.completed [outputAs], ctx.captures.set outputAs (.str text), []⟩
    else ⟨.completed [outputAs], ctx.captures.set outputAs capture,
      [.llmStepSkipped stepId outputAs "no model client is configured for this run"]⟩

/-- `handleCallWorkflow`, a stub that always fails. -/
def handleCallWorkflow (stepId workflowName : String) : StepResult :=
  .failed .unexpected ("call_workflow step \"" ++ stepId ++ "\" (workflow: \"" ++ workflowName ++
    "\") requires FEAT-010. " ++
    "Wire a WorkflowStore into ExecutionContext to enable cross-workflow calls.")

/-- The handler of every verb but `loop`; `none` on a loop. An `error` is an exception the
handler lets through. -/
def handleStep (env : RunEnv) (ctx : HandlerCtx) (w : World) (s : Step) :
    Option (Except String Handled) :=
  match s.body with
  | .navigate _ url => some (.ok ⟨handleNavigate ctx w url, ctx.captures, []⟩)
  | .click _ locator _ => some (.ok ⟨handleClick env ctx w locator, ctx.captures, []⟩)
  | .fill _ locator value _ => some (.ok ⟨handleFill env ctx w locator value, ctx.captures, []⟩)
  | .fillElement _ fieldName _ locator value =>
      some (.ok ⟨handleFillElement env ctx w fieldName locator value, ctx.captures, []⟩)
  | .extract locator schema captureAs =>
      let (result, captures) := handleExtract env ctx w locator schema captureAs
      some (.ok ⟨result, captures, []⟩)
  | .waitFor locator state _ => some (.ok ⟨handleWaitFor env ctx w locator state, ctx.captures, []⟩)
  | .assert locator condition =>
      some ((handleAssert env ctx w locator condition).map fun r => ⟨r, ctx.captures, []⟩)
  | .branch condition thenStepId elseStepId =>
      some (.ok ⟨handleBranch ctx.captures condition thenStepId elseStepId, ctx.captures, []⟩)
  | .loop _ => none
  | .callWorkflow workflowName _ _ =>
      some (.ok ⟨handleCallWorkflow s.id workflowName, ctx.captures, []⟩)
  | .llmSummarize input _ outputAs =>
      some (.ok (handleLlmSummarize env ctx w s.id input outputAs))

variable {ctx : HandlerCtx} {env : RunEnv} {w : World}

variable {s : Step}

lemma handleStep_eq_none_iff :
    handleStep env ctx w s = none ↔ ∃ l, s.body = .loop l := by
  cases hb : s.body <;> simp [handleStep, hb]

/-! ## What a handler stores -/

/-- The name a step stores what it produces under: the alias of an extract, the output name of a
summary, the variable of a loop. -/
def Step.storeKey (s : Step) : Option String :=
  match s.body with
  | .extract _ _ captureAs => some captureAs
  | .llmSummarize _ _ outputAs => some outputAs
  | .loop l => some l.as
  | _ => none

def StepResult.storesNothing : StepResult → Bool
  | .completed keys => keys.isEmpty
  | _ => true

lemma locatorMiss_storesNothing (ctx : HandlerCtx) (reason : String) :
    (locatorMiss ctx reason).storesNothing := by
  unfold locatorMiss
  split <;> rfl

lemma afterAction_storesNothing (reply : ActionReply) : (afterAction reply).storesNothing := by
  cases reply <;> rfl

lemma handleNavigate_storesNothing (ctx : HandlerCtx) (w : World) (url : ValueRef) :
    (handleNavigate ctx w url).storesNothing := by
  unfold handleNavigate
  repeat' split
  all_goals rfl

lemma handleClick_storesNothing (env : RunEnv) (ctx : HandlerCtx) (w : World)
    (locator : LocatorChain) : (handleClick env ctx w locator).storesNothing := by
  unfold handleClick
  repeat' split
  all_goals first
    | rfl
    | exact locatorMiss_storesNothing ..
    | exact afterAction_storesNothing ..

lemma handleFill_storesNothing (env : RunEnv) (ctx : HandlerCtx) (w : World)
    (locator : LocatorChain) (value : ValueRef) :
    (handleFill env ctx w locator value).storesNothing := by
  unfold handleFill
  repeat' split
  all_goals first
    | rfl
    | exact locatorMiss_storesNothing ..
    | exact afterAction_storesNothing ..

lemma driveFillElement_storesNothing (env : RunEnv) (ctx : HandlerCtx) (w : World)
    (value : ValueRef) : (driveFillElement env ctx w value).storesNothing := by
  unfold driveFillElement
  repeat' split
  all_goals rfl

lemma handleFillElement_storesNothing (env : RunEnv) (ctx : HandlerCtx) (w : World)
    (fieldName : String) (locator : LocatorChain) (value : ValueRef) :
    (handleFillElement env ctx w fieldName locator value).storesNothing := by
  unfold handleFillElement
  repeat' split
  all_goals first
    | rfl
    | exact driveFillElement_storesNothing ..

lemma handleWaitFor_storesNothing (env : RunEnv) (ctx : HandlerCtx) (w : World)
    (locator : LocatorChain) (state : WaitState) :
    (handleWaitFor env ctx w locator state).storesNothing := by
  unfold handleWaitFor
  repeat' split
  all_goals rfl

lemma handleAssert_storesNothing {locator : LocatorChain} {condition : AssertCondition}
    {r : StepResult} (h : handleAssert env ctx w locator condition = .ok r) : r.storesNothing := by
  unfold handleAssert at h
  repeat' split at h
  all_goals first
    | (cases h; rfl)
    | (cases h; split <;> rfl)
    | cases h

lemma handleBranch_storesNothing (captures : CaptureStore) (condition : BranchCondition)
    (thenStepId : String) (elseStepId : Option String) :
    (handleBranch captures condition thenStepId elseStepId).storesNothing := by
  unfold handleBranch
  repeat' split
  all_goals rfl

/-- **What a handler stores.** A handler leaves the captures alone and reports no stored capture,
or it stores one value under its step's name and reports that name. -/
lemma handleStep_captures {h : Handled} (hs : handleStep env ctx w s = some (.ok h)) :
    (h.captures = ctx.captures ∧ h.result.storesNothing) ∨
      ∃ key v, s.storeKey = some key ∧ h.captures = ctx.captures.set key v ∧
        h.result = .completed [key] := by
  cases hb : s.body with
  | navigate a url =>
    simp only [handleStep, hb, some.injEq, Except.ok.injEq] at hs
    subst hs
    exact .inl ⟨rfl, handleNavigate_storesNothing ..⟩
  | click a locator modifiers =>
    simp only [handleStep, hb, some.injEq, Except.ok.injEq] at hs
    subst hs
    exact .inl ⟨rfl, handleClick_storesNothing ..⟩
  | fill a locator value submit =>
    simp only [handleStep, hb, some.injEq, Except.ok.injEq] at hs
    subst hs
    exact .inl ⟨rfl, handleFill_storesNothing ..⟩
  | fillElement a fieldName origin locator value =>
    simp only [handleStep, hb, some.injEq, Except.ok.injEq] at hs
    subst hs
    exact .inl ⟨rfl, handleFillElement_storesNothing ..⟩
  | extract locator schema captureAs =>
    simp only [handleStep, hb, some.injEq, Except.ok.injEq] at hs
    subst hs
    unfold handleExtract
    split
    · split
      · exact .inl ⟨rfl, locatorMiss_storesNothing ..⟩
      · exact .inl ⟨rfl, rfl⟩
      · split
        · exact .inl ⟨rfl, rfl⟩
        · exact .inr ⟨captureAs, _, by simp [Step.storeKey, hb], rfl, rfl⟩
    · exact .inl ⟨rfl, rfl⟩
  | waitFor locator state timeoutMs =>
    simp only [handleStep, hb, some.injEq, Except.ok.injEq] at hs
    subst hs
    exact .inl ⟨rfl, handleWaitFor_storesNothing ..⟩
  | assert locator condition =>
    simp only [handleStep, hb, some.injEq] at hs
    cases hr : handleAssert env ctx w locator condition with
    | error message => simp [hr, Except.map] at hs
    | ok r =>
      simp only [hr, Except.map, Except.ok.injEq] at hs
      subst hs
      exact .inl ⟨rfl, handleAssert_storesNothing hr⟩
  | branch condition thenStepId elseStepId =>
    simp only [handleStep, hb, some.injEq, Except.ok.injEq] at hs
    subst hs
    exact .inl ⟨rfl, handleBranch_storesNothing ..⟩
  | loop l => simp [handleStep, hb] at hs
  | callWorkflow workflowName params captureAs =>
    simp only [handleStep, hb, some.injEq, Except.ok.injEq] at hs
    subst hs
    exact .inl ⟨rfl, rfl⟩
  | llmSummarize input prompt outputAs =>
    simp only [handleStep, hb, some.injEq, Except.ok.injEq] at hs
    subst hs
    have hkey : s.storeKey = some outputAs := by simp [Step.storeKey, hb]
    unfold handleLlmSummarize
    split
    · exact .inl ⟨rfl, rfl⟩
    · split
      · split
        · exact .inl ⟨rfl, rfl⟩
        · exact .inr ⟨outputAs, _, hkey, rfl, rfl⟩
      · exact .inr ⟨outputAs, _, hkey, rfl, rfl⟩

/-! ## Entering a loop -/

def protocolMaxLoopIterations : Nat := 1000

/-- `resolveCollection`: the collection a loop runs over. `none` stands for `undefined`. A
loop over a param gets the empty list. -/
def resolveCollection (captures : CaptureStore) : CollectionRef → Except String (Option Value)
  | .capture ref =>
    match captures.get? ref.stepId with
    | none => .error ("Loop: capture step \"" ++ ref.stepId ++ "\" not found.")
    | some raw =>
      match ref.field with
      | none => .ok (some raw)
      | some field =>
        if raw.isObject then .ok (raw.property? field)
        else .error ("Loop: capture \"" ++ ref.stepId ++ "\" is not an object.")
  | .param _ => .ok (some (.arr []))

/-- `typeof` of a resolved collection. -/
def typeofCollection : Option Value → String
  | none => "undefined"
  | some (.bool _) => "boolean"
  | some (.num _) => "number"
  | some (.str _) => "string"
  | some (.builtin _) => "function"
  | some _ => "object"

/-- What `handleLoop` decides before its first iteration: the items and how many of them to
run over, or its result. An exception is an `error`. -/
def startLoop (p : Plan) (captures : CaptureStore) (stepId : String) (l : LoopBody) :
    Except String (StepResult ⊕ (List Value × Nat)) :=
  match resolveCollection captures l.over with
  | .error message => .error message
  | .ok (some (.arr items)) =>
    if protocolMaxLoopIterations < items.length then
      .ok (.inl (.failed .budgetExhausted ("Loop step \"" ++ stepId ++ "\": collection length " ++
        toString items.length ++ " exceeds PROTOCOL_MAX_LOOP_ITERATIONS (" ++
        toString protocolMaxLoopIterations ++ ").")))
    else
      match l.bodyStepIds.find? fun b => (p.stepIdx? b).isNone with
      | some b => .ok (.inl (.failed .validationError ("Loop step \"" ++ stepId ++
          "\": body step ID \"" ++ b ++ "\" not found in plan.")))
      | none => .ok (.inr (items,
          min (min items.length l.maxIterations) protocolMaxLoopIterations))
  | .ok other => .ok (.inl (.failed .unexpected ("Loop step \"" ++ stepId ++
      "\": \"over\" resolved to a non-array value (" ++ typeofCollection other ++ ").")))

end Yantra
