import Yantra.Protocol.Refs
import Mathlib.Data.List.Nodup

/-!
# Plans and their steps

The plan the executor consumes: a finite list of steps, each with a common header and one of
eleven verbs, and what the plan schema accepts.

## Main definitions

* `Step`, `StepBody`, `StepVerb` — a step.
* `Plan.stepIdx?` — the executor's index of step ids.

## Main results

* `Plan.schemaValid_flagged` — in an accepted plan only a navigate, click, fill or
  fill_element step requires confirmation.
-/

namespace Yantra

open List Bool

/-! ## Steps -/

inductive StepVerb where
  | navigate | click | fill | fillElement | extract | waitFor | assert | branch | loop
  | callWorkflow | llmSummarize
  deriving DecidableEq, Repr, Inhabited

/-- Step types that may carry `requires_confirmation`. -/
def confirmableStepTypes : List StepVerb := [.navigate, .click, .fill, .fillElement]

/-- How hard an action is to undo. -/
inductive ConsequenceLevel where
  | reversible | hardToReverse | irreversible | unknown
  deriving DecidableEq, Repr, Inhabited

/-- A best-effort cost estimate. -/
structure ExpectedCost where
  /-- The amount, by the text `String(n)` gives it. -/
  amount : String
  currency : String
  deriving DecidableEq, Repr, Inhabited

/-- The hints that enrich the consent card of a confirmable step. -/
structure ConfirmationAnnotations where
  confirmationDescription : Option String := none
  expectedCost : Option ExpectedCost := none
  consequence : Option ConsequenceLevel := none
  deriving DecidableEq, Repr, Inhabited

inductive FieldLabelOrigin where
  | explicit | structural | placeholder | title
  deriving DecidableEq, Repr, Inhabited

inductive PrimitiveExtractionKind where
  | string | number | boolean | date | money | readable
  deriving DecidableEq, Repr, Inhabited

/-- The declared shape of extracted data. -/
inductive ExtractionSchema where
  | primitive (kind : PrimitiveExtractionKind)
  | array (items : ExtractionSchema)
  | object (fields : List (String × ExtractionSchema))
  deriving Repr, Inhabited

inductive AssertCondition where
  | visible
  | hidden
  | textMatches (pattern flags : String)
  | countEquals (count : Nat)
  deriving DecidableEq, Repr, Inhabited

inductive BranchCondition where
  | always
  | captureExists (capture : CaptureRef)
  deriving DecidableEq, Repr, Inhabited

structure ClickModifiers where
  alt : Bool := false
  shift : Bool := false
  ctrl : Bool := false
  «meta» : Bool := false
  deriving DecidableEq, Repr, Inhabited

/-- The state a `wait_for` step waits for. -/
inductive WaitState where
  | visible | hidden | attached | detached
  deriving DecidableEq, Repr, Inhabited

/-- A loop's own data. -/
structure LoopBody where
  «over» : CollectionRef
  as : String
  bodyStepIds : List String
  maxIterations : Nat
  deriving DecidableEq, Repr, Inhabited

inductive StepBody where
  | navigate (annotations : ConfirmationAnnotations) (url : ValueRef)
  | click (annotations : ConfirmationAnnotations) (locator : LocatorChain)
      (modifiers : Option ClickModifiers)
  | fill (annotations : ConfirmationAnnotations) (locator : LocatorChain) (value : ValueRef)
      (submit : Bool)
  | fillElement (annotations : ConfirmationAnnotations) (fieldName : String)
      (fieldLabelOrigin : Option FieldLabelOrigin) (locator : LocatorChain) (value : ValueRef)
  | extract (locator : LocatorChain) (extractionSchema : ExtractionSchema) (captureAs : String)
  | waitFor (locator : LocatorChain) (state : WaitState) (timeoutMs : Option Nat)
  | assert (locator : LocatorChain) (condition : AssertCondition)
  | branch (condition : BranchCondition) (thenStepId : String) (elseStepId : Option String)
  | loop (loop : LoopBody)
  | callWorkflow (workflowName : String) (params : List (String × ValueRef))
      (captureAs : Option String)
  | llmSummarize (input : CaptureRef) (prompt : String) (outputAs : String)
  deriving Repr, Inhabited

/-- One executable unit of a plan. -/
structure Step where
  id : String
  /-- `none` inherits the plan's default scope. -/
  scope : Option SecurityScope := none
  requiresConfirmation : Bool := false
  body : StepBody
  deriving Repr, Inhabited

/-- The verb of a step: its `type`. -/
def StepBody.verb : StepBody → StepVerb
  | .navigate .. => .navigate
  | .click .. => .click
  | .fill .. => .fill
  | .fillElement .. => .fillElement
  | .extract .. => .extract
  | .waitFor .. => .waitFor
  | .assert .. => .assert
  | .branch .. => .branch
  | .loop .. => .loop
  | .callWorkflow .. => .callWorkflow
  | .llmSummarize .. => .llmSummarize

def Step.verb (s : Step) : StepVerb := s.body.verb

/-! ## What the step schema accepts -/

def ConfirmationAnnotations.schemaValid (a : ConfirmationAnnotations) : Bool :=
  (a.confirmationDescription.all fun d => decide (1 ≤ d.length)) &&
    a.expectedCost.all fun c => decide (1 ≤ c.currency.length)

def StepBody.schemaValid : StepBody → Bool
  | .navigate a url => a.schemaValid && url.schemaValid
  | .click a locator _ => a.schemaValid && locator.schemaValid
  | .fill a locator value _ => a.schemaValid && locator.schemaValid && value.schemaValid
  | .fillElement a fieldName _ locator value =>
      a.schemaValid && decide (1 ≤ fieldName.length) && locator.schemaValid && value.schemaValid
  | .extract locator _ captureAs => locator.schemaValid && matchesCaptureAliasPattern captureAs
  | .waitFor locator _ timeoutMs => locator.schemaValid && timeoutMs.all fun t => decide (0 < t)
  | .assert locator _ => locator.schemaValid
  | .branch condition thenStepId elseStepId =>
      (match condition with
        | .always => true
        | .captureExists capture => capture.schemaValid) &&
      matchesStepIdPattern thenStepId && elseStepId.all matchesStepIdPattern
  | .loop l =>
      l.over.schemaValid && matchesCaptureAliasPattern l.as && !l.bodyStepIds.isEmpty &&
        l.bodyStepIds.all matchesStepIdPattern && decide (0 < l.maxIterations)
  | .callWorkflow workflowName params captureAs =>
      decide (1 ≤ workflowName.length) && ValueRef.bindingsSchemaValid params &&
        captureAs.all matchesCaptureAliasPattern
  | .llmSummarize input prompt outputAs =>
      input.schemaValid && decide (1 ≤ prompt.length) && matchesCaptureAliasPattern outputAs

/-- What the schema checks of a step, the refinement on `requires_confirmation` included. -/
def Step.schemaValid (s : Step) : Bool :=
  matchesStepIdPattern s.id && s.body.schemaValid &&
    (!s.requiresConfirmation || confirmableStepTypes.contains s.verb)

/-! ## Plans -/

structure OutputBinding where
  name : String
  source : CaptureRef
  deriving DecidableEq, Repr, Inhabited

structure Plan where
  taskId : String
  planId : String
  defaultScope : SecurityScope
  steps : List Step
  outputs : List OutputBinding := []
  deriving Repr, Inhabited

/-- What the plan schema accepts: between 1 and 64 accepted steps, and named outputs. -/
def Plan.schemaValid (p : Plan) : Bool :=
  decide (1 ≤ p.steps.length) && decide (p.steps.length ≤ 64) &&
    p.steps.all Step.schemaValid &&
    p.outputs.all fun o => decide (1 ≤ o.name.length) && o.source.schemaValid

/-- The last index at which the list holds a step with this id: later entries of the
executor's id map overwrite earlier ones. -/
def lastIdxOf (id : String) : List Step → Option Nat
  | [] => none
  | s :: ss =>
    match lastIdxOf id ss with
    | some i => some (i + 1)
    | none => if s.id = id then some 0 else none

/-- The executor's `Map` from step id to index, read at `id`. -/
def Plan.stepIdx? (p : Plan) (id : String) : Option Nat := lastIdxOf id p.steps

variable {id : String} {i : Nat}

lemma lastIdxOf_spec {ss : List Step} (h : lastIdxOf id ss = some i) :
    ∃ s, ss[i]? = some s ∧ s.id = id := by
  induction ss generalizing i with
  | nil => simp [lastIdxOf] at h
  | cons s ss ih =>
    simp only [lastIdxOf] at h
    cases hrec : lastIdxOf id ss with
    | some j =>
      rw [hrec] at h
      obtain ⟨t, ht, hid⟩ := ih hrec
      cases h
      exact ⟨t, by simpa using ht, hid⟩
    | none =>
      rw [hrec] at h
      by_cases hs : s.id = id
      · simp only [if_pos hs, Option.some.injEq] at h
        subst h
        exact ⟨s, rfl, hs⟩
      · simp [hs] at h

variable {p : Plan}

lemma Plan.stepIdx?_spec (h : p.stepIdx? id = some i) :
    ∃ s, p.steps[i]? = some s ∧ s.id = id := lastIdxOf_spec h

lemma Plan.idx_eq_of_id_eq (hids : (p.steps.map Step.id).Nodup) {i j : Nat} {si sj : Step}
    (hi : p.steps[i]? = some si) (hj : p.steps[j]? = some sj) (h : si.id = sj.id) : i = j := by
  have hi' : (p.steps.map Step.id)[i]? = some si.id := by simp [hi]
  have hj' : (p.steps.map Step.id)[j]? = some si.id := by simp [hj, h]
  have hlt : i < (p.steps.map Step.id).length := by
    by_contra hge
    simp [getElem?_eq_none (Nat.le_of_not_lt hge)] at hi'
  exact (getElem?_inj hlt hids).1 (hi'.trans hj'.symm)

variable {s : Step}

lemma Plan.schemaValid_flagged (h : p.schemaValid) (hs : s ∈ p.steps) (hc : s.requiresConfirmation)
    : s.verb ∈ confirmableStepTypes := by
  simp only [Plan.schemaValid, and_eq_true, all_eq_true] at h
  have hstep := h.1.2 s hs
  simp only [Step.schemaValid, and_eq_true, or_eq_true, not_eq_true',
    contains_iff_mem] at hstep
  rcases hstep.2 with hno | hyes
  · rw [hc] at hno
    cases hno
  · exact hyes

lemma Plan.schemaValid_loop_unflagged (h : p.schemaValid) (hs : s ∈ p.steps) {l : LoopBody}
    (hl : s.body = .loop l) :
    s.requiresConfirmation = false := by
  by_contra hc
  have hmem := Plan.schemaValid_flagged h hs (by simpa using hc)
  simp [Step.verb, StepBody.verb, hl, confirmableStepTypes] at hmem

end Yantra
