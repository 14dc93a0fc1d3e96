import Yantra.Executor.Run

/-!
# Resuming a run

`RunOrchestrator.resume`: the resume point is read off the run directory, a fresh execution
context is built on it, and the executor continues after the checkpoint with the highest step
index. What a run leaves behind for it is its manifest, with the params written as JSON, and its
checkpoint files.

## Main definitions

* `loadResumePoint`, `resume` — the resume.
* `Resumable` — the state of a run a resume does not lose anything of.

## Main results

* `resumesFaithfully_iff` — a resume is faithful exactly when there was nothing to lose
  and the highest-indexed saved step is the one to continue after.
* `resume_skips_after_backward_jump` — after a backward jump a resume skips steps.
-/

namespace Yantra

open List

/-! ## The run directory -/

inductive RunStatus where
  | running | completed | failed | paused
  deriving DecidableEq, Repr, Inhabited

/-- The browser profile a run used. -/
inductive ProfileKind where
  | ephemeral | workflow
  deriving DecidableEq, Repr, Inhabited

/-- What a resume reads of `manifest.json`. -/
structure RunManifest where
  status : RunStatus
  profileKind : ProfileKind
  params : Params

/-- One param as `redactParamsForManifest` writes it. -/
def redactParam (declaredSecretKeys : List String) (key : String) (v : Value) : Value :=
  if declaredSecretKeys.contains key then .obj [("kind", .str "secret"), ("key", .str key)]
  else v

/-- The params a manifest gives back: redacted, written as JSON and parsed. -/
def manifestParams (declaredSecretKeys : List String) (params : Params) : Params :=
  params.mapVal fun key v => (redactParam declaredSecretKeys key v).jsonRoundTrip

inductive ResumeError where
  | notResumable (status : RunStatus)
  | ephemeralProfile
  deriving DecidableEq, Repr, Inhabited

/-- `RESUMABLE_STATUSES` -/
def resumableStatuses : List RunStatus := [.failed, .paused]

/-- `loadResumePoint`: the checkpoint to continue after, if any. -/
def loadResumePoint (m : RunManifest) (files : CheckpointStore) :
    Except ResumeError (Option Checkpoint) :=
  if resumableStatuses.contains m.status then
    match m.profileKind with
    | .ephemeral => .error .ephemeralProfile
    | .workflow => .ok files.loadLast
  else .error (.notResumable m.status)

/-- The context of a resumed run: its params come from the manifest, and it is given no named
locators. -/
def resumeEnv (env : RunEnv) (m : RunManifest) : RunEnv :=
  { env with params := m.params, workflowLocators := none, browser := true }

/-- `RunOrchestrator.resume`, up to the executor's first step. -/
def resume (env : RunEnv) (m : RunManifest) (files : CheckpointStore)
    (confirmations : List ConfirmationEntry) : Except ResumeError (RunEnv × RunState) :=
  match loadResumePoint m files with
  | .error e => .error e
  | .ok point =>
    let s := createExecutionContext files confirmations
    .ok (resumeEnv env m, match point with
      | some c => resumeFrom c s
      | none => s)

/-! ## What resuming should give -/

/-- The step a run continues at after the step completed last. -/
def RunState.nextStep (s : RunState) : Nat := (s.completions.head?.map Completion.next).getD 0

def RunState.capturesAtCompletion (s : RunState) : CaptureStore :=
  (s.completions.head?.map Completion.captures).getD OrderedMap.empty

def RunState.budgetsAtCompletion (s : RunState) : RetryBudget :=
  (s.completions.head?.map Completion.budgets).getD {}

/-- The step the executor comes to first. -/
def RunState.entryStep (s : RunState) : Option Nat :=
  match s.control with
  | .starting => some 0
  | .cursor i _ => some i
  | _ => none

def RunEnv.locator? (env : RunEnv) (name : String) : Option EngineLocatorChain :=
  env.workflowLocators.bind fun table => table.get? name

/-- The resume goes ahead and continues at the step after the one completed last, with the
captures, retry budgets, params and named locators of that point. -/
def ResumesFaithfully (env : RunEnv) (s : RunState) (m : RunManifest) : Prop :=
  ∃ env' s', resume env m s.checkpoints s.confirmations = .ok (env', s') ∧
    s'.entryStep = some s.nextStep ∧ s'.captures = s.capturesAtCompletion ∧
    s'.budgets = s.budgetsAtCompletion ∧
    (∀ key, env'.params.get? key = env.params.get? key) ∧
    ∀ name, env'.locator? name = env.locator? name

/-! ## The checkpoint files of a run -/

/-- The step after the highest of the given ones, or the first. -/
def stepAfterHighest (saved : List Nat) : Nat := (saved.max?.map (· + 1)).getD 0

structure FilesInv (p : Plan) (files : CheckpointStore) (saved : List Nat) : Prop where
  named : ∀ k c, files.get? k = some c → c.afterStepId = k ∧ c.afterStepIdx ∈ saved
  written : ∀ i ∈ saved, ∃ step c, p.steps[i]? = some step ∧ files.get? step.id = some c ∧
    c.afterStepIdx = i

variable {files : CheckpointStore} {saved : List Nat} {p : Plan}

lemma FilesInv.save (hids : (p.steps.map Step.id).Nodup) (h : FilesInv p files saved)
    {c : Checkpoint} {step : Step} (hi : p.steps[c.afterStepIdx]? = some step)
    (hid : c.afterStepId = step.id) :
    FilesInv p (files.save c) (c.afterStepIdx :: saved) := by
  constructor
  · refine OrderedMap.forall_get?_set ⟨rfl, mem_cons_self ..⟩ fun k c' hget => ?_
    obtain ⟨hkey, hmem⟩ := h.named k c' hget
    exact ⟨hkey, mem_cons_of_mem _ hmem⟩
  · intro i hmem
    by_cases hic : i = c.afterStepIdx
    · subst hic
      refine ⟨step, c, hi, ?_, rfl⟩
      rw [CheckpointStore.save, OrderedMap.get?_set, if_pos hid]
    · rcases mem_cons.1 hmem with heq | hold
      · exact absurd heq hic
      · obtain ⟨t, c', ht, hget, hidx⟩ := h.written i hold
        refine ⟨t, c', ht, ?_, hidx⟩
        have hne : c.afterStepId ≠ t.id := by
          rw [hid]
          exact fun heq => hic (Plan.idx_eq_of_id_eq hids ht hi heq.symm)
        rw [CheckpointStore.save, OrderedMap.get?_set, if_neg hne]
        exact hget

variable {env : RunEnv}

lemma filesInv_step (hids : (env.plan.steps.map Step.id).Nodup) (s : RunState) (w : World)
    (h : FilesInv env.plan s.checkpoints s.saved) :
    FilesInv env.plan (executorStep env s w).checkpoints (executorStep env s w).saved := by
  by_cases hs : ∃ i total, s.control = .saving i total
  · obtain ⟨i, total, hs⟩ := hs
    simp only [executorStep, hs, saveCheckpoint]
    cases hi : env.plan.steps[i]? with
    | none => exact h
    | some step =>
      cases hw : w.checkpointSaved with
      | false => exact h
      | true => exact h.save hids hi rfl
  · have hfiles := executorStep_checkpoints env w fun i total hc => hs ⟨i, total, hc⟩
    rw [hfiles.1, hfiles.2]
    exact h

lemma filesInv_run (hids : (env.plan.steps.map Step.id).Nodup) (ws : List World) :
    FilesInv env.plan ((executor env).run ws).checkpoints ((executor env).run ws).saved := by
  have hinit : FilesInv env.plan (executor env).init.checkpoints (executor env).init.saved :=
    ⟨fun k c hget => (by cases hget), fun i hi => (by cases hi)⟩
  exact Machine.invariant_runFrom' (M := executor env) (filesInv_step hids) hinit ws

lemma stepAfterHighest_eq (h : FilesInv p files saved) :
    (files.loadLast.map fun c => c.afterStepIdx + 1).getD 0 = stepAfterHighest saved := by
  rcases CheckpointStore.loadLast_spec fun k c hget => (h.named k c hget).1 with
    ⟨hload, hnone⟩ | ⟨c, hload, hget, hmax⟩
  · have hsaved : saved = [] := by
      refine eq_nil_iff_forall_not_mem.2 fun i hi => ?_
      obtain ⟨step, c, -, hget, -⟩ := h.written i hi
      rw [hnone] at hget
      cases hget
    simp [hload, hsaved, stepAfterHighest]
  · have hhighest : saved.max? = some c.afterStepIdx := by
      refine max?_eq_some_iff.2 ⟨(h.named _ c hget).2, fun i hi => ?_⟩
      obtain ⟨step, c', -, hget', rfl⟩ := h.written i hi
      exact hmax _ c' hget'
    simp [hload, stepAfterHighest, hhighest]

/-- **Where a resume continues.** A resume of a run continues after the highest-indexed step
whose checkpoint was written, whichever was written last, with empty captures and a fresh
budget. -/
lemma resume_entry (hids : (env.plan.steps.map Step.id).Nodup) (ws : List World) {m : RunManifest}
    (hstatus : m.status ∈ resumableStatuses) (hprofile : m.profileKind = .workflow) :
    ∃ s', resume env m ((executor env).run ws).checkpoints ((executor env).run ws).confirmations =
        .ok (resumeEnv env m, s') ∧
      s'.entryStep = some (stepAfterHighest ((executor env).run ws).saved) ∧
      s'.captures = OrderedMap.empty ∧ s'.budgets = {} := by
  rw [← stepAfterHighest_eq (filesInv_run hids ws)]
  simp only [resume, loadResumePoint, contains_iff_mem.2 hstatus, if_true, hprofile]
  refine ⟨_, rfl, ?_, ?_, ?_⟩
  all_goals cases ((executor env).run ws).checkpoints.loadLast <;> rfl

/-! ## When a resume is faithful -/

/-- There is nothing a resume of the run would lose, and the highest-indexed saved step is the
one to continue after. -/
structure NothingToLose (env : RunEnv) (declaredSecretKeys : List String) (s : RunState) :
    Prop where
  next : s.nextStep = stepAfterHighest s.saved
  captures : s.capturesAtCompletion = OrderedMap.empty
  budgets : s.budgetsAtCompletion = {}
  params : ∀ key v, env.params.get? key = some v →
    (redactParam declaredSecretKeys key v).jsonRoundTrip = v
  locators : ∀ name, env.locator? name = none

def interruptedManifest (env : RunEnv) (declaredSecretKeys : List String) (status : RunStatus) :
    RunManifest where
  status := status
  profileKind := .workflow
  params := manifestParams declaredSecretKeys env.params

lemma manifestParams_eq_iff (declaredSecretKeys : List String) (params : Params) :
    (∀ key, (manifestParams declaredSecretKeys params).get? key = params.get? key) ↔
      ∀ key v, params.get? key = some v →
        (redactParam declaredSecretKeys key v).jsonRoundTrip = v := by
  simp only [manifestParams, OrderedMap.get?_mapVal]
  constructor
  · intro h key v hv
    have hkey := h key
    rw [hv] at hkey
    simpa using hkey
  · intro h key
    cases hv : params.get? key with
    | none => rfl
    | some v => simpa using h key v hv

/-- **When resuming is the same as not having stopped.** Whatever the plan (with distinct step
ids, which the execution context insists on), the answers of the world and the point of the
interruption, a resume is faithful exactly when there was nothing to lose: no capture, no spent
retry, no named locator and no param that JSON or redaction changes, and the highest-indexed
checkpoint is that of the step to continue after.

**Proof sketch.** The checkpoint files of a run are those of its saved steps, so the resume
enters after the highest of them; its captures and budgets are always fresh, its params are the
manifest's and its named locators are gone. -/
theorem resumesFaithfully_iff {env : RunEnv} (hids : (env.plan.steps.map Step.id).Nodup)
    (ws : List World) (declaredSecretKeys : List String) {status : RunStatus}
    (hstatus : status ∈ resumableStatuses) :
    ResumesFaithfully env ((executor env).run ws)
        (interruptedManifest env declaredSecretKeys status) ↔
      NothingToLose env declaredSecretKeys ((executor env).run ws) := by
  obtain ⟨s', hresume, hentry, hcaptures, hbudgets⟩ :=
    resume_entry hids ws (m := interruptedManifest env declaredSecretKeys status) hstatus rfl
  constructor
  · rintro ⟨env', s'', heq, hnext, hcap, hbud, hparams, hloc⟩
    obtain ⟨rfl, rfl⟩ : resumeEnv env _ = env' ∧ s' = s'' := by simpa [hresume] using heq
    refine ⟨?_, ?_, ?_, (manifestParams_eq_iff _ _).1 hparams, fun name => (hloc name).symm⟩
    · simpa [hentry, eq_comm] using hnext
    · rw [← hcap, hcaptures]
    · rw [← hbud, hbudgets]
  · rintro ⟨hnext, hcap, hbud, hparams, hloc⟩
    refine ⟨_, s', hresume, ?_, ?_, ?_, (manifestParams_eq_iff _ _).2 hparams, fun name => ?_⟩
    · rw [hentry, hnext]
    · rw [hcaptures, hcap]
    · rw [hbudgets, hbud]
    · exact (hloc name).symm

def backwardJumpPlan : Plan where
  taskId := "t1"
  planId := "p1"
  defaultScope := .authenticated
  steps := [
    { id := "s1"
      body := .extract (.intent .table none none) (.array (.primitive .string)) "rows" },
    { id := "s2", body := .click {} (.intent .button none none) none },
    { id := "s3", body := .branch .always "s1" none }]

def backwardJumpEnv : RunEnv where
  runId := "r1"
  plan := backwardJumpPlan
  params := OrderedMap.empty
  workflowLocators := some OrderedMap.empty
  browser := true
  gateway := false
  llm := false
  urlHost := fun _ => none

/-- The three steps complete, the first completes again, and the second fails on its second
visit. -/
def backwardJumpWorlds : List World :=
  List.replicate 13 ({} : World) ++ [{ locator := .error "detached" }]

/-- The characterisation on the start of that run. -/
theorem resumesFaithfully_iff_backwardJump :
    ResumesFaithfully backwardJumpEnv ((executor backwardJumpEnv).run [])
        (interruptedManifest backwardJumpEnv [] .failed) ↔
      NothingToLose backwardJumpEnv [] ((executor backwardJumpEnv).run []) :=
  have hids : (backwardJumpEnv.plan.steps.map Step.id).Nodup := by decide
  resumesFaithfully_iff hids [] [] (by decide)

/-- The run fails at its second step, which follows the step completed last. The resume
continues at the third, after the checkpoint of the older visit of the second. -/
theorem resume_skips_after_backward_jump :
    backwardJumpPlan.schemaValid ∧ validateSemantics backwardJumpPlan = .ok backwardJumpPlan ∧
      ((executor backwardJumpEnv).run backwardJumpWorlds).nextStep = 1 ∧
      ¬ ResumesFaithfully backwardJumpEnv ((executor backwardJumpEnv).run backwardJumpWorlds)
        (interruptedManifest backwardJumpEnv [] .failed) := by
  have hnext : ((executor backwardJumpEnv).run backwardJumpWorlds).nextStep = 1 := rfl
  have hsaved : ((executor backwardJumpEnv).run backwardJumpWorlds).saved = [0, 1, 0] := rfl
  refine ⟨by decide, validateSemantics_ok_iff.2 ⟨by decide, rfl⟩, hnext, ?_⟩
  rintro ⟨env', s'', heq, hentry, -⟩
  have hids : (backwardJumpEnv.plan.steps.map Step.id).Nodup := by decide
  obtain ⟨s', hresume, hentry', -⟩ := resume_entry hids backwardJumpWorlds
    (m := interruptedManifest backwardJumpEnv [] .failed) (by decide) rfl
  obtain ⟨rfl, rfl⟩ : resumeEnv backwardJumpEnv _ = env' ∧ s' = s'' := by
    simpa [hresume] using heq
  rw [hentry', hsaved, hnext] at hentry
  revert hentry
  decide

end Yantra
