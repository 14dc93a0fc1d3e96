import Mathlib.Data.List.Basic
import Mathlib.Logic.Relation

/-!
# The no-submit check of saved workflows

Before a saved workflow runs under a contract that forbids submitting, `workflowMaySubmit` loads it
and the workflows it calls. Calls may form cycles, so a workflow is loaded once, and at most sixteen
are.

## Main definitions

* `workflowMaySubmit` — the check.
* `SubmitCheckSound` — what is claimed of the check.

## Main results

* `submitCheckSound` — the check is sound.
-/

namespace Yantra

open List

/-! ## The check -/

structure WorkflowStepShape where
  verb : String
  workflowName : Option String := none
  submit : Option Bool := none
  deriving DecidableEq, Repr, Inhabited

/-- `MAX_WORKFLOWS_CHECKED` -/
def maxWorkflowsChecked : ℕ := 16

/-- `loadSteps`: the steps of a workflow, nothing where it cannot be loaded, or an error where the
promise rejects. -/
abbrev LoadSteps := String → Except String (Option (List WorkflowStepShape))

/-- The loop over the steps of one workflow: nothing where the check returns `true`, else the
workflows that are called. -/
def calledWorkflows : List WorkflowStepShape → Option (List String)
  | [] => some []
  | step :: steps =>
    if step.verb = "click" then none
    else if step.verb = "fill" ∧ step.submit = some true then none
    else if step.verb = "call_workflow" then
      match step.workflowName with
      | none => none
      | some callee =>
        if callee.length = 0 then none else (calledWorkflows steps).map (callee :: ·)
    else calledWorkflows steps

/-- The loop of `workflowMaySubmit` over the queue. It ends: a workflow that was seen leaves the
queue, and at most one more than the maximum is ever seen. -/
def checkQueue (loadSteps : LoadSteps) (seen queue : List String) : Except String Bool :=
  match queue with
  | [] => .ok false
  | next :: queue =>
    if seen.contains next then checkQueue loadSteps seen queue
    else if maxWorkflowsChecked < (seen ++ [next]).length then .ok true
    else match loadSteps next with
      | .error e => .error e
      | .ok none => .ok true
      | .ok (some steps) =>
        match calledWorkflows steps with
        | none => .ok true
        | some callees => checkQueue loadSteps (seen ++ [next]) (queue ++ callees)
termination_by (maxWorkflowsChecked + 1 - seen.length, queue.length)
decreasing_by
  · exact .right _ (Nat.lt_succ_self _)
  · have hmax := ‹¬ maxWorkflowsChecked < (seen ++ [next]).length›
    rw [List.length_append, List.length_singleton, Nat.not_lt] at hmax
    refine .left _ _ ?_
    rw [List.length_append, List.length_singleton]
    omega

def workflowMaySubmit (name : String) (loadSteps : Option LoadSteps) : Except String Bool :=
  match loadSteps with
  | none => .ok true
  | some loadSteps => checkQueue loadSteps [] [name]

/-! ## Executions -/

/-- A step that can submit a form: a click, or a fill that presses Enter. -/
def WorkflowStepShape.Submits (step : WorkflowStepShape) : Prop :=
  step.verb = "click" ∨ (step.verb = "fill" ∧ step.submit = some true)

/-- A workflow that is being executed, and the index of the step it is at. -/
structure WorkflowFrame where
  workflow : String
  index : ℕ
  deriving DecidableEq, Repr, Inhabited

/-- A step of an execution, with the workflow that runs first and its callers behind it. Branches and
loops name steps of the same list, so wherever control goes in a workflow is a move within its
frame. -/
inductive ExecStep (loadSteps : LoadSteps) : List WorkflowFrame → List WorkflowFrame → Prop where
  | move (workflow : String) (i j : ℕ) (callers : List WorkflowFrame) :
      ExecStep loadSteps (⟨workflow, i⟩ :: callers) (⟨workflow, j⟩ :: callers)
  | call {workflow callee : String} {i : ℕ} {callers : List WorkflowFrame}
      {steps : List WorkflowStepShape} {step : WorkflowStepShape}
      (hload : loadSteps workflow = .ok (some steps)) (hstep : steps[i]? = some step)
      (hverb : step.verb = "call_workflow") (hcallee : step.workflowName = some callee) :
      ExecStep loadSteps (⟨workflow, i⟩ :: callers) (⟨callee, 0⟩ :: ⟨workflow, i⟩ :: callers)
  | finish (frame : WorkflowFrame) (callers : List WorkflowFrame) :
      ExecStep loadSteps (frame :: callers) callers

/-- A workflow that was looked through: it is loaded, none of its steps can submit, and every call
names its callee. -/
def Analysed (loadSteps : LoadSteps) (workflow : String) : Prop :=
  ∃ steps, loadSteps workflow = .ok (some steps) ∧ ∀ step ∈ steps, ¬ step.Submits ∧
    (step.verb = "call_workflow" → ∃ callee, step.workflowName = some callee ∧ callee ≠ "")

structure SubmitCheckSound (name : String) (loadSteps : Option LoadSteps) : Prop where
  /-- It ends after reading at most sixteen workflows: what it returns depends on no other. -/
  terminates : ∀ loader, loadSteps = some loader → ∃ read : List String,
    read.length ≤ maxWorkflowsChecked ∧ ∀ loader' : LoadSteps,
      (∀ workflow ∈ read, loader' workflow = loader workflow) →
        workflowMaySubmit name (some loader') = workflowMaySubmit name (some loader)
  /-- Where it returns `false`, an execution only ever is in workflows that were looked through. -/
  sound : workflowMaySubmit name loadSteps = .ok false → ∃ loader, loadSteps = some loader ∧
    ∀ frames, Relation.ReflTransGen (ExecStep loader) [⟨name, 0⟩] frames →
      ∀ frame ∈ frames, Analysed loader frame.workflow
  /-- In particular it never comes to a step that can submit. -/
  noSubmit : workflowMaySubmit name loadSteps = .ok false → ∀ loader, loadSteps = some loader →
    ∀ frame callers, Relation.ReflTransGen (ExecStep loader) [⟨name, 0⟩] (frame :: callers) →
      ∀ steps, loader frame.workflow = .ok (some steps) →
        ∀ step, steps[frame.index]? = some step → ¬ step.Submits

/-! ## What the check reads -/

/-- The check reads at most as many workflows as may still be seen.

**Proof sketch.** Induction along the loop: a workflow that is loaded is one that was not seen. -/
theorem checkQueue_reads (loadSteps : LoadSteps) (seen queue : List String)
    (hseen : seen.length ≤ maxWorkflowsChecked) :
    ∃ read : List String, read.length + seen.length ≤ maxWorkflowsChecked ∧
      ∀ loader : LoadSteps, (∀ workflow ∈ read, loader workflow = loadSteps workflow) →
        checkQueue loader seen queue = checkQueue loadSteps seen queue := by
  fun_induction checkQueue loadSteps seen queue with
  | case1 seen => exact ⟨[], by simpa using hseen, fun loader _ => by rw [checkQueue]⟩
  | case2 seen next queue hnext ih =>
    obtain ⟨read, hread, hsame⟩ := ih hseen
    refine ⟨read, hread, fun loader hloader => ?_⟩
    rw [checkQueue, if_pos hnext, hsame loader hloader]
  | case3 seen next queue hnext hmax =>
    refine ⟨[], by simpa using hseen, fun loader _ => ?_⟩
    rw [checkQueue, if_neg hnext, if_pos hmax]
  | case4 seen next queue hnext hmax e hload =>
    refine ⟨[next], ?_, fun loader hloader => ?_⟩
    · simp only [length_append, length_singleton] at hmax ⊢
      omega
    · rw [checkQueue, if_neg hnext, if_neg hmax, hloader next (by simp), hload]
  | case5 seen next queue hnext hmax hload =>
    refine ⟨[next], ?_, fun loader hloader => ?_⟩
    · simp only [length_append, length_singleton] at hmax ⊢
      omega
    · rw [checkQueue, if_neg hnext, if_neg hmax, hloader next (by simp), hload]
  | case6 seen next queue hnext hmax steps hload hcalled =>
    refine ⟨[next], ?_, fun loader hloader => ?_⟩
    · simp only [length_append, length_singleton] at hmax ⊢
      omega
    · rw [checkQueue, if_neg hnext, if_neg hmax, hloader next (by simp), hload]
      simp only [hcalled]
  | case7 seen next queue hnext hmax steps hload callees hcalled ih =>
    obtain ⟨read, hread, hsame⟩ := ih (Nat.not_lt.1 hmax)
    refine ⟨next :: read, ?_, fun loader hloader => ?_⟩
    · simp only [length_append, length_cons] at hread ⊢
      omega
    · rw [checkQueue, if_neg hnext, if_neg hmax, hloader next mem_cons_self, hload]
      simp only [hcalled]
      exact hsame loader fun workflow hmem => hloader workflow (mem_cons_of_mem _ hmem)

/-! ## What the check has seen -/

lemma calledWorkflows_spec {steps : List WorkflowStepShape} {callees : List String}
    (h : calledWorkflows steps = some callees) :
    ∀ step ∈ steps, ¬ step.Submits ∧ (step.verb = "call_workflow" →
      ∃ callee ∈ callees, step.workflowName = some callee ∧ callee ≠ "") := by
  induction steps generalizing callees with
  | nil => exact fun step hstep => nomatch hstep
  | cons first steps ih =>
    rw [calledWorkflows] at h
    split_ifs at h with hclick hfill hcall
    · have hsubmits : ¬ first.Submits := fun hsub => hsub.elim hclick hfill
      cases hname : first.workflowName with
      | none =>
        rw [hname] at h
        cases h
      | some callee =>
        rw [hname] at h
        simp only at h
        split_ifs at h with hempty
        obtain ⟨rest, hrest, rfl⟩ := Option.map_eq_some_iff.1 h
        intro step hstep
        rcases mem_cons.1 hstep with rfl | hstep
        · refine ⟨hsubmits, fun _ => ⟨callee, mem_cons_self, hname, ?_⟩⟩
          rintro rfl
          exact hempty rfl
        · refine ⟨(ih hrest step hstep).1, fun hverb => ?_⟩
          obtain ⟨callee', hmem, hcallee'⟩ := (ih hrest step hstep).2 hverb
          exact ⟨callee', mem_cons_of_mem _ hmem, hcallee'⟩
    · intro step hstep
      rcases mem_cons.1 hstep with rfl | hstep
      · exact ⟨fun hsub => hsub.elim hclick hfill, fun hverb => absurd hverb hcall⟩
      · exact ih h step hstep

def LooksThrough (loadSteps : LoadSteps) (S : Set String) (workflow : String) : Prop :=
  ∃ steps callees, loadSteps workflow = .ok (some steps) ∧
    calledWorkflows steps = some callees ∧ ∀ callee ∈ callees, callee ∈ S

/-- **What a check that rules a submission out has seen** is closed under calls.

**Proof sketch.** Induction along the loop: the workflows seen at its end are the set. What was
looked through before need not be again. -/
theorem exists_closed_of_checkQueue {loadSteps : LoadSteps} {seen queue : List String}
    (h : checkQueue loadSteps seen queue = .ok false) :
    ∃ S : Set String, (∀ workflow ∈ seen, workflow ∈ S) ∧ (∀ workflow ∈ queue, workflow ∈ S) ∧
      ∀ workflow ∈ S, workflow ∉ seen → LooksThrough loadSteps S workflow := by
  fun_induction checkQueue loadSteps seen queue with
  | case1 seen =>
    exact ⟨{workflow | workflow ∈ seen}, fun _ hmem => hmem, fun _ hmem => (nomatch hmem),
      fun workflow hmem hnot => absurd hmem hnot⟩
  | case2 seen next queue hnext ih =>
    obtain ⟨S, hseen, hqueue, hclosed⟩ := ih h
    refine ⟨S, hseen, fun workflow hmem => ?_, hclosed⟩
    rcases mem_cons.1 hmem with rfl | hmem
    · exact hseen workflow (contains_iff_mem.1 hnext)
    · exact hqueue workflow hmem
  | case3 | case4 | case5 | case6 => cases h
  | case7 seen next queue hnext hmax steps hload callees hcalled ih =>
    obtain ⟨S, hseen, hqueue, hclosed⟩ := ih h
    refine ⟨S, fun workflow hmem => hseen workflow (mem_append_left _ hmem),
      fun workflow hmem => ?_, fun workflow hmem hnot => ?_⟩
    · rcases mem_cons.1 hmem with rfl | hmem
      · exact hseen workflow (by simp)
      · exact hqueue workflow (mem_append_left _ hmem)
    · by_cases heq : workflow = next
      · subst heq
        exact ⟨steps, callees, hload, hcalled,
          fun callee hcallee => hqueue callee (mem_append_right _ hcallee)⟩
      · exact hclosed workflow hmem (by simp [hnot, heq])

/-! ## Soundness -/

/-- An execution does not leave a set that is closed under calls.

**Proof sketch.** Induction on the execution. A call is a step of a workflow of the set, and its
callee is one that the loop over these steps has found. -/
lemma mem_of_execution {loadSteps : LoadSteps} {S : Set String}
    (hclosed : ∀ workflow ∈ S, LooksThrough loadSteps S workflow) {frames frames' :
      List WorkflowFrame} (h : Relation.ReflTransGen (ExecStep loadSteps) frames frames')
    (hframes : ∀ frame ∈ frames, frame.workflow ∈ S) :
    ∀ frame ∈ frames', frame.workflow ∈ S := by
  induction h with
  | refl => exact hframes
  | tail _ hstep ih =>
    cases hstep with
    | move workflow i j callers =>
      exact forall_mem_cons.2 ⟨ih ⟨workflow, i⟩ mem_cons_self,
        fun frame hmem => ih frame (mem_cons_of_mem _ hmem)⟩
    | @call workflow callee i callers steps step hload hat hverb hcallee =>
      refine forall_mem_cons.2 ⟨?_, ih⟩
      obtain ⟨steps', callees, hload', hcalled, hin⟩ :=
        hclosed workflow (ih ⟨workflow, i⟩ mem_cons_self)
      rw [hload, Except.ok.injEq, Option.some.injEq] at hload'
      subst hload'
      obtain ⟨callee', hmem, hname, -⟩ :=
        (calledWorkflows_spec hcalled step (mem_of_getElem? hat)).2 hverb
      rw [hcallee, Option.some.injEq] at hname
      exact hname ▸ hin callee' hmem
    | finish frame callers => exact fun other hmem => ih other (mem_cons_of_mem _ hmem)

lemma LooksThrough.analysed {loadSteps : LoadSteps} {S : Set String} {workflow : String}
    (h : LooksThrough loadSteps S workflow) : Analysed loadSteps workflow := by
  obtain ⟨steps, callees, hload, hcalled, -⟩ := h
  refine ⟨steps, hload, fun step hstep => ?_⟩
  obtain ⟨hsubmits, hcall⟩ := calledWorkflows_spec hcalled step hstep
  refine ⟨hsubmits, fun hverb => ?_⟩
  obtain ⟨callee, -, hcallee⟩ := hcall hverb
  exact ⟨callee, hcallee⟩

/-- **The no-submit check is sound**, for every store. -/
theorem submitCheckSound (name : String) (loadSteps : Option LoadSteps) :
    SubmitCheckSound name loadSteps := by
  have hsound : workflowMaySubmit name loadSteps = .ok false → ∃ loader,
      loadSteps = some loader ∧ ∀ frames,
        Relation.ReflTransGen (ExecStep loader) [⟨name, 0⟩] frames →
          ∀ frame ∈ frames, Analysed loader frame.workflow := by
    intro hfalse
    cases loadSteps with
    | none => cases hfalse
    | some loader =>
      obtain ⟨S, -, hqueue, hclosed⟩ := exists_closed_of_checkQueue hfalse
      have hclosed : ∀ workflow ∈ S, LooksThrough loader S workflow :=
        fun workflow hmem => hclosed workflow hmem List.not_mem_nil
      refine ⟨loader, rfl, fun frames hrun frame hframe => ?_⟩
      have hstart : ∀ start ∈ [(⟨name, 0⟩ : WorkflowFrame)], start.workflow ∈ S := by
        intro start hstart
        rw [List.mem_singleton.1 hstart]
        exact hqueue name List.mem_cons_self
      exact (hclosed _ (mem_of_execution hclosed hrun hstart frame hframe)).analysed
  refine ⟨fun loader _ => ?_, hsound, fun hfalse loader hloader frame callers hrun steps hload
    step hstep => ?_⟩
  · obtain ⟨read, hread, hsame⟩ := checkQueue_reads loader [] [name] (Nat.zero_le _)
    exact ⟨read, hread, hsame⟩
  · obtain ⟨loader', hloader', hanalysed⟩ := hsound hfalse
    rw [hloader, Option.some.injEq] at hloader'
    subst hloader'
    obtain ⟨steps', hload', hsteps⟩ := hanalysed _ hrun frame List.mem_cons_self
    rw [hload, Except.ok.injEq, Option.some.injEq] at hload'
    subst hload'
    exact (hsteps step (List.mem_of_getElem? hstep)).1

/-- Two workflows that call each other, and one that calls into the cycle and clicks. -/
example :
    let store : LoadSteps := fun name => .ok (
      if name = "a" then some [⟨"navigate", none, none⟩, ⟨"call_workflow", some "b", none⟩]
      else if name = "b" then some [⟨"call_workflow", some "a", none⟩]
      else if name = "c" then some [⟨"call_workflow", some "a", none⟩, ⟨"click", none, none⟩]
      else none)
    workflowMaySubmit "a" (some store) = .ok false ∧
      workflowMaySubmit "c" (some store) = .ok true := by
  simp [workflowMaySubmit, checkQueue, calledWorkflows, maxWorkflowsChecked]

end Yantra
