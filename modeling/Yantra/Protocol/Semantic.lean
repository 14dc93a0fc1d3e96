import Yantra.Protocol.Steps

/-!
# Semantic validation of a plan

`validateSemantics`: the checks on a plan that the schema cannot state — unique step ids,
verbs allowed by scope, and references that lead somewhere.

## Main definitions

* `ValidationError` — a path, a code and a message.
* `validateSemantics` — the plan, or every error found.

## Main results

* `validateSemantics_ok_iff` — a plan is accepted exactly when no check reports.
* `nodup_ids_of_accepted` — an accepted plan has distinct step ids.
-/

namespace Yantra

open List

/-- One reported problem. -/
structure ValidationError where
  path : String
  code : String
  message : String
  deriving DecidableEq, Repr, Inhabited

/-- What the caller knows about the workflow: its declared secrets and locators, if any. -/
structure SemanticValidationContext where
  workflowSecrets : Option (List String) := none
  workflowLocators : Option (List String) := none

def StepVerb.name : StepVerb → String
  | .navigate => "navigate"
  | .click => "click"
  | .fill => "fill"
  | .fillElement => "fill_element"
  | .extract => "extract"
  | .waitFor => "wait_for"
  | .assert => "assert"
  | .branch => "branch"
  | .loop => "loop"
  | .callWorkflow => "call_workflow"
  | .llmSummarize => "llm_summarize"

def allowedVerbsByScope : SecurityScope → StepVerb → Bool
  | .public, _ => true
  | .authenticated, _ => true
  | .readOnlyData, v => [StepVerb.extract, .waitFor, .llmSummarize].contains v

/-! ## Collecting references -/

mutual

/-- A value reference and, for a template, everything its bindings refer to. -/
def collectValueRefs (basePath : String) : ValueRef → List (ValueRef × String)
  | .template t bindings =>
      (.template t bindings, basePath) :: collectBindingRefs basePath bindings
  | ref => [(ref, basePath)]

/-- The references of a template's bindings. -/
def collectBindingRefs (basePath : String) :
    List (String × ValueRef) → List (ValueRef × String)
  | [] => []
  | (key, nested) :: bindings =>
      collectValueRefs (basePath ++ "/bindings/" ++ key) nested ++
        collectBindingRefs basePath bindings

end

def collectLocatorChains (basePath : String) : LocatorChain → List (LocatorChain × String)
  | .intent role nameMatch (some near) =>
      (.intent role nameMatch (some near), basePath) ::
        collectLocatorChains (basePath ++ "/near") near
  | locator => [(locator, basePath)]

/-- The field names an extract step's object schema declares; none for any other step. -/
def extractionFieldKeysForStep (s : Step) : List String :=
  match s.body with
  | .extract _ (.object fields) _ => fields.map Prod.fst
  | _ => []

/-- The base path of step `index`. -/
def stepPath (index : Nat) : String := "/steps/" ++ toString index

/-- The value references `validateSemantics` checks in a step. A loop over a param and the
reference inside a secret are not among them. -/
def stepValueRefs (index : Nat) (s : Step) : List (ValueRef × String) :=
  match s.body with
  | .navigate _ url => collectValueRefs (stepPath index ++ "/url") url
  | .fill _ _ value _ => collectValueRefs (stepPath index ++ "/value") value
  | .fillElement _ _ _ _ value => collectValueRefs (stepPath index ++ "/value") value
  | .callWorkflow _ params _ =>
      params.flatMap fun kv => collectValueRefs (stepPath index ++ "/params/" ++ kv.1) kv.2
  | .loop l =>
      match l.over with
      | .capture ref => [(.capture ref, stepPath index ++ "/over")]
      | .param _ => []
  | .llmSummarize input _ _ => [(.capture input, stepPath index ++ "/input")]
  | .branch (.captureExists capture) _ _ =>
      [(.capture capture, stepPath index ++ "/condition/capture")]
  | _ => []

/-- The locator chains `validateSemantics` checks in a step. -/
def stepLocatorRefs (index : Nat) (s : Step) : List (LocatorChain × String) :=
  match s.body with
  | .click _ locator _ | .fill _ locator _ _ | .fillElement _ _ _ locator _
  | .extract locator _ _ | .waitFor locator _ _ | .assert locator _ =>
      collectLocatorChains (stepPath index ++ "/locator") locator
  | _ => []

/-! ## The checks -/

/-- A reference that leads nowhere. -/
def createMissingRefError (path code value domain : String) : ValidationError :=
  ⟨path, code, domain ++ " reference not found: " ++ value⟩

def firstIdxOf (id : String) (steps : List Step) : Option Nat :=
  steps.findIdx? fun s => decide (s.id = id)

/-- The id and scope checks of the step at `index`. -/
def checkHeader (p : Plan) (index : Nat) (s : Step) : List ValidationError :=
  (if firstIdxOf s.id p.steps = some index then []
    else [⟨stepPath index ++ "/id", "duplicate_step_id", "Duplicate step id " ++ s.id ++ "."⟩]) ++
  (if allowedVerbsByScope (s.scope.getD p.defaultScope) s.verb then []
    else [⟨stepPath index ++ "/type", "scope_violation",
      "Step type " ++ s.verb.name ++ " is not allowed in read-only-data scope."⟩])

/-- The branch-target and loop-body checks of the step at `index`. -/
def checkTargets (p : Plan) (index : Nat) (s : Step) : List ValidationError :=
  let known := fun id => (p.steps.map Step.id).contains id
  match s.body with
  | .branch _ thenStepId elseStepId =>
      (if known thenStepId then []
        else [createMissingRefError (stepPath index ++ "/then_step_id") "unknown_then_step"
          thenStepId "Branch target step"]) ++
      (match elseStepId with
        | none => []
        | some e => if known e then []
            else [createMissingRefError (stepPath index ++ "/else_step_id") "unknown_else_step" e
              "Branch else step"])
  | .loop l =>
      (l.bodyStepIds.zipIdx).flatMap fun (bodyStepId, bodyIndex) =>
        if known bodyStepId then []
        else [createMissingRefError
          (stepPath index ++ "/body_step_ids/" ++ toString bodyIndex) "unknown_loop_body_step"
          bodyStepId "Loop body step"]
  | _ => []

/-- The checks of one capture reference made by the step at `index`: it leads to an earlier
extract step, and its field is declared there. -/
def checkCaptureRef (p : Plan) (index : Nat) (ref : CaptureRef) (path : String) :
    List ValidationError :=
  match firstIdxOf ref.stepId p.steps with
  | none => [createMissingRefError path "unknown_capture_step" ref.stepId "Capture step"]
  | some referencedIndex =>
    if index ≤ referencedIndex then
      [⟨path ++ "/step_id", "capture_must_reference_prior_step",
        "Capture reference " ++ ref.stepId ++ " must point to a prior step."⟩]
    else
      match p.steps[referencedIndex]? with
      | some producer =>
        if producer.verb = .extract then
          match ref.field with
          | none => []
          | some field =>
            if (extractionFieldKeysForStep producer).contains field then []
            else [⟨path ++ "/field", "capture_field_missing",
              "Capture field " ++ field ++ " is not defined by extract schema of " ++
                ref.stepId ++ "."⟩]
        else
          [⟨path ++ "/step_id", "capture_step_not_extract",
            "Referenced step " ++ ref.stepId ++ " is not an extract step."⟩]
      | none => []

/-- The checks of one value reference made by the step at `index`. -/
def checkValueRef (p : Plan) (ctx : SemanticValidationContext) (index : Nat) :
    ValueRef × String → List ValidationError
  | (.capture ref, path) => checkCaptureRef p index ref path
  | (.secret ref, path) =>
      match ctx.workflowSecrets with
      | some declared => if declared.contains ref.key then []
          else [createMissingRefError path "undeclared_secret" ref.key "Secret"]
      | none => []
  | _ => []

def checkLocatorRef (ctx : SemanticValidationContext) :
    LocatorChain × String → List ValidationError
  | (.workflow name, path) =>
      match ctx.workflowLocators with
      | some declared => if declared.contains name then []
          else [createMissingRefError path "unknown_locator" name "Workflow locator"]
      | none => []
  | _ => []

/-- The reference checks of the step at `index`. -/
def checkReferences (p : Plan) (ctx : SemanticValidationContext) (index : Nat) (s : Step) :
    List ValidationError :=
  checkTargets p index s ++ (stepValueRefs index s).flatMap (checkValueRef p ctx index) ++
    (stepLocatorRefs index s).flatMap (checkLocatorRef ctx)

/-- Every error of a plan, in the order the checks report them. -/
def semanticErrors (p : Plan) (ctx : SemanticValidationContext) : List ValidationError :=
  p.steps.zipIdx.flatMap (fun (s, index) => checkHeader p index s) ++
    p.steps.zipIdx.flatMap (fun (s, index) => checkReferences p ctx index s)

def validateSemantics (p : Plan) (ctx : SemanticValidationContext := {}) :
    Except (List ValidationError) Plan :=
  if (semanticErrors p ctx).isEmpty then .ok p else .error (semanticErrors p ctx)

/-! ## What acceptance gives -/

variable {ctx : SemanticValidationContext}

/-- A plan is accepted exactly when no check reports. -/
lemma validateSemantics_ok_iff {p q : Plan} :
    validateSemantics p ctx = .ok q ↔ semanticErrors p ctx = [] ∧ q = p := by
  unfold validateSemantics
  by_cases h : semanticErrors p ctx = []
  · simp [h, eq_comm]
  · simp [h, List.isEmpty_iff]

variable {p : Plan}

variable {index : Nat} {s : Step}

lemma checks_of_accepted (h : semanticErrors p ctx = []) (hs : p.steps[index]? = some s) :
    checkHeader p index s = [] ∧ checkReferences p ctx index s = [] := by
  have hmem : (s, index) ∈ p.steps.zipIdx := mem_zipIdx_iff_getElem?.2 hs
  simp only [semanticErrors, append_eq_nil_iff, flatMap_eq_nil_iff] at h
  exact ⟨h.1 _ hmem, h.2 _ hmem⟩

/-- In an accepted plan the first step with the id of step `index` is step `index`. -/
lemma firstIdxOf_of_accepted (h : semanticErrors p ctx = []) (hs : p.steps[index]? = some s) :
    firstIdxOf s.id p.steps = some index := by
  have hh := (checks_of_accepted h hs).1
  simp only [checkHeader, append_eq_nil_iff] at hh
  by_contra hne
  simp [hne] at hh

lemma nodup_ids_of_accepted (h : semanticErrors p ctx = []) : (p.steps.map Step.id).Nodup := by
  rw [nodup_iff_injective_get]
  rintro ⟨i, hi⟩ ⟨j, hj⟩ heq
  simp only [length_map] at hi hj
  have hI := firstIdxOf_of_accepted h (getElem?_eq_getElem hi)
  have hJ := firstIdxOf_of_accepted h (getElem?_eq_getElem hj)
  have hid : p.steps[i].id = p.steps[j].id := by simpa using heq
  rw [hid, hJ] at hI
  simpa using hI.symm

end Yantra
