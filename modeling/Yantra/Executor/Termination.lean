import Mathlib.Data.List.Perm.Subperm
import Yantra.Executor.Run

/-!
# How long a run is

The cursor loop counts its own turns against a budget; the bodies of a loop step run outside it.
What bounds a run is a potential: the turns and the retries that are left, each worth a whole nest
of loops, and over them what is left of the loops being run. A nest is as deep as the plan is long,
unless a loop calls a loop that is being run, and that is all that keeps a run from ending.

## Main definitions

* `RunState.dispatches` — how often a run called a handler.
* `levelCost`, `RunState.potential` — what is left of a run.

## Main results

* `executor_terminates` — a run that re-enters no loop and meets no exception calls a
  bounded number of handlers and ends with an outcome.
* `self_loop_never_ends` — an accepted plan whose loop lists itself.
-/

namespace Yantra

open List Option Nat RunState LoopFrame Plan

/-! ## What a run counts and what it must not do -/

/-- The mark of a handler's call. -/
def Mark.isDispatched : Mark → Bool
  | .dispatched _ => true
  | _ => false

/-- How often a run has called a handler. -/
def RunState.dispatches (s : RunState) : Nat := s.trace.countP Mark.isDispatched

/-- The call a run makes next: of the step at the cursor, or of the next body step of the innermost
loop. -/
def nextCall (env : RunEnv) (s : RunState) : Option (Nat × Step) :=
  match s.control with
  | .dispatch i _ _ => (env.plan.steps[i]?).map fun step => (i, step)
  | .inLoop _ _ _ (f :: _) => f.todo.head?.bind (bodyStep? env.plan)
  | _ => none

/-- The loops being run. -/
def Control.running : Control → List Nat
  | .inLoop _ _ _ frames => frames.map LoopFrame.loopIdx
  | _ => []

/-- A loop is about to call a loop that is being run. -/
def reenters (env : RunEnv) (s : RunState) : Bool :=
  (nextCall env s).any fun called => s.control.running.contains called.1

/-- What the run is about to call throws: the browser's launch, the checkpoint's write, or a
handler. -/
def throws (env : RunEnv) (s : RunState) (w : World) : Bool :=
  match s.control with
  | .starting => (checkScopeViolations env.plan).isNone && !s.page && env.browser &&
      match w.action with
      | .threw _ => true
      | _ => false
  | .saving _ _ => !w.checkpointSaved
  | _ => (nextCall env s).any fun called =>
      match (callHandler env w s called.1 called.2).2 with
      | .threw _ => true
      | _ => false

/-- The run is over. -/
def Control.stopped : Control → Bool
  | .finished _ | .threw _ => true
  | _ => false

/-! ## The potential -/

/-- The number of body steps of a step; a step that is no loop has none. -/
def Step.bodyLength (step : Step) : Nat :=
  match step.body with
  | .loop l => l.bodyStepIds.length
  | _ => 0

def Plan.bodyLength (p : Plan) : Nat := (p.steps.map Step.bodyLength).foldr max 0

variable {j : Nat} {p : Plan}

variable {step : Step} {env : RunEnv} {w : World} {s s' : RunState}

lemma bodyLength_le (h : p.steps[j]? = some step) : step.bodyLength ≤ p.bodyLength := by
  have hmem : step ∈ p.steps := mem_of_getElem? h
  unfold bodyLength
  generalize p.steps = steps at hmem
  induction steps with
  | nil => cases hmem
  | cons first rest ih =>
    rw [map_cons, foldr_cons]
    rcases mem_cons.1 hmem with heq | htail
    · exact heq ▸ le_max_left _ _
    · exact (ih htail).trans (le_max_right _ _)

variable {l : LoopBody}

lemma bodyStepIds_length_le (h : p.steps[j]? = some step) (hl : step.body = .loop l) :
    l.bodyStepIds.length ≤ p.bodyLength := by
  have hle := bodyLength_le h
  simpa only [Step.bodyLength, hl] using hle

/-- The moves of a loop with `m` body steps, itself and `d` levels of loops inside it. -/
def levelCost (m : Nat) : Nat → Nat
  | 0 => 0
  | d + 1 => protocolMaxLoopIterations * (m * (1 + levelCost m d) + 1) + 1

/-- The moves left in a loop being run, with `d` levels of loops inside it. -/
def LoopFrame.cost (m d : Nat) (f : LoopFrame) : Nat :=
  f.items.length * (m * (1 + levelCost m d) + 1) + f.todo.length * (1 + levelCost m d) + 1

/-- The moves left in the loops being run, in a plan of `n` steps. -/
def framesCost (n m : Nat) : List LoopFrame → Nat
  | [] => 0
  | f :: outer => f.cost m (n - (outer.length + 1)) + framesCost n m outer

namespace Plan

/-- The moves of one turn of the cursor loop: a nest of loops as deep as the plan is long, and the
moves around it. -/
def turnCost (p : Plan) : Nat := levelCost p.bodyLength p.steps.length + 5

/-- The moves of the turns and the retries that are left. -/
def turnsCost (p : Plan) (total attempts : Nat) : Nat :=
  (maxTotalStepExecutions - total + attempts) * p.turnCost

end Plan

def RunState.potential (env : RunEnv) (s : RunState) : Nat :=
  let left := fun total => env.plan.turnsCost total s.budgets.remaining.stepAttempts
  match s.control with
  | .starting => left 0 + 2
  | .cursor _ total => left total + 1
  | .gate _ total _ => left total + env.plan.turnCost
  | .dispatch _ total _ => left total + env.plan.turnCost - 1
  | .inLoop _ total _ frames =>
      left total + framesCost env.plan.steps.length env.plan.bodyLength frames + 3
  | .saving _ total => left total + 2
  | .finished _ | .threw _ => 0

/-- The moves of a whole run: the plan and the retry budget alone determine it. -/
def runBound (env : RunEnv) : Nat :=
  env.plan.turnsCost 0 defaultBudgets.stepAttempts + 2

/-- The steps a run names are steps of the plan, and no loop is being run twice. -/
def Control.Fits (p : Plan) : Control → Prop
  | .gate i _ _ | .dispatch i _ _ | .saving i _ => i < p.steps.length
  | .inLoop i _ _ frames => i < p.steps.length ∧
      (∀ f ∈ frames, f.loopIdx < p.steps.length ∧ f.bodyStepIds.length ≤ p.bodyLength) ∧
      (frames.map LoopFrame.loopIdx).Nodup
  | _ => True

lemma turnsCost_succ (p : Plan) {total : Nat} (attempts : Nat)
    (h : total + 1 ≤ maxTotalStepExecutions) :
    p.turnsCost (total + 1) attempts + p.turnCost = p.turnsCost total attempts := by
  have hleft : maxTotalStepExecutions - total + attempts =
      (maxTotalStepExecutions - (total + 1) + attempts) + 1 := by omega
  rw [turnsCost, turnsCost, hleft, succ_mul]

lemma turnsCost_retry (p : Plan) (total : Nat) {attempts : Nat} (h : 0 < attempts) :
    p.turnsCost total (attempts - 1) + p.turnCost = p.turnsCost total attempts := by
  have hleft : maxTotalStepExecutions - total + attempts =
      (maxTotalStepExecutions - total + (attempts - 1)) + 1 := by omega
  rw [turnsCost, turnsCost, hleft, succ_mul]

variable {frames : List LoopFrame}

lemma frames_length_le (hlt : ∀ f ∈ frames, f.loopIdx < p.steps.length)
    (hnodup : (frames.map loopIdx).Nodup) : frames.length ≤ p.steps.length := by
  have hsub : frames.map loopIdx ⊆ range p.steps.length := by
    intro j hj
    obtain ⟨f, hf, rfl⟩ := List.mem_map.1 hj
    exact mem_range.2 (hlt f hf)
  have hle := (subperm_of_subset hnodup hsub).length_le
  rwa [length_map, length_range] at hle

variable {f : LoopFrame}

variable {m d : Nat}

lemma cost_entered (hitems : f.items.length ≤ protocolMaxLoopIterations) (htodo : f.todo = []) :
    f.cost m d ≤ levelCost m (d + 1) := by
  rw [cost, levelCost, htodo, length_nil, Nat.zero_mul, Nat.add_zero]
  exact succ_le_succ (Nat.mul_le_mul_right _ hitems)

variable {todo : List String} {id : String}

lemma cost_todo (h : f.todo = id :: todo) :
    ({ f with todo := todo }).cost m d + (1 + levelCost m d) = f.cost m d := by
  simp only [cost, h, length_cons, succ_mul]
  omega

variable {items : List Value}

lemma cost_items {v : Value} (htodo : f.todo = []) (hitems : f.items = v :: items)
    (hbody : f.bodyStepIds.length ≤ m) :
    ({ f with items := items, todo := f.bodyStepIds }).cost m d < f.cost m d := by
  have hle : f.bodyStepIds.length * (1 + levelCost m d) ≤ m * (1 + levelCost m d) :=
    Nat.mul_le_mul_right _ hbody
  simp only [cost, htodo, hitems, length_cons, length_nil, succ_mul]
  omega

/-! ## What one call does -/

lemma callHandler_budgets (env : RunEnv) (w : World) (s : RunState) (j : Nat) (step : Step) :
    (callHandler env w s j step).1.budgets = s.budgets := by
  unfold callHandler
  simp only
  split
  · rfl
  · rfl
  · split
    · split <;> rfl
    · rfl

lemma callHandler_dispatches (env : RunEnv) (w : World) (s : RunState) (j : Nat) (step : Step) :
    (callHandler env w s j step).1.dispatches = s.dispatches + 1 := by
  obtain ⟨stores, hstores, htrace⟩ := callHandler_trace env w s j step
  have hnone : stores.countP Mark.isDispatched = 0 := by
    refine countP_eq_zero.2 fun m hm => ?_
    obtain ⟨key, v, rfl⟩ := hstores m hm
    exact Bool.false_ne_true
  rw [dispatches, htrace, countP_append, hnone, Nat.zero_add,
    countP_cons_of_pos rfl, dispatches]

lemma settle_dispatches (env : RunEnv) (s : RunState) (i total attempt : Nat) (step : Step)
    (r : StepResult) : (settle env s i total attempt step r).dispatches = s.dispatches := by
  rw [dispatches, settle_trace, dispatches]

variable {stepId : String}

/-- What `handleLoop` has checked once it comes to its first iteration. -/
lemma startLoop_spec {captures : CaptureStore} {cap : Nat}
    (h : startLoop p captures stepId l = .ok (.inr (items, cap))) :
    resolveCollection captures l.over = .ok (some (.arr items)) ∧
      items.length ≤ protocolMaxLoopIterations ∧
      (∀ id ∈ l.bodyStepIds, (p.stepIdx? id).isSome) ∧ cap = min items.length l.maxIterations := by
  unfold startLoop at h
  split at h
  · cases h
  · rename_i hcollection
    split at h
    · cases h
    · rename_i hlen
      split at h
      · cases h
      · rename_i hfind
        cases h
        refine ⟨hcollection, Nat.le_of_not_lt hlen, fun id hid => ?_, ?_⟩
        · have hid := find?_eq_none.1 hfind id hid
          rwa [isNone_iff_eq_none, ← ne_eq, ← isSome_iff_ne_none] at hid
        · exact min_eq_left ((min_le_left _ _).trans (Nat.le_of_not_lt hlen))
  · cases h

variable {g : LoopFrame}

/-- A loop that is entered, with what was checked: its frame holds the first items of the
collection, and nothing of an iteration. -/
lemma callHandler_entered_spec (h : callHandler env w s j step = (s', .entered g)) :
    ∃ l items, step.body = .loop l ∧
      resolveCollection s.captures l.over = .ok (some (.arr items)) ∧
      items.length ≤ protocolMaxLoopIterations ∧
      (∀ id ∈ l.bodyStepIds, (env.plan.stepIdx? id).isSome) ∧
      g = ⟨j, l.as, l.bodyStepIds, items.take (min items.length l.maxIterations), []⟩ ∧
      s' = s.mark (.dispatched j) := by
  obtain ⟨l, hl⟩ := callHandler_entered h
  unfold callHandler at h
  simp only [handleStep_eq_none_iff.2 ⟨l, hl⟩, hl] at h
  split at h
  · cases h
  · cases h
  · rename_i items cap hstart
    obtain ⟨hitems, hlen, hids, rfl⟩ := startLoop_spec hstart
    cases h
    exact ⟨l, items, hl, hitems, hlen, hids, rfl, rfl⟩

/-- A loop is entered under the called step's index, before its first iteration, with no more
items than the protocol allows. -/
lemma callHandler_frame (h : callHandler env w s j step = (s', .entered g)) :
    g.loopIdx = j ∧ g.todo = [] ∧ g.items.length ≤ protocolMaxLoopIterations ∧
      ∃ l, step.body = .loop l ∧ g.bodyStepIds = l.bodyStepIds := by
  obtain ⟨l, items, hl, -, hlen, -, rfl, -⟩ := callHandler_entered_spec h
  exact ⟨rfl, rfl, (length_take_le' _ _).trans hlen, l, hl, rfl⟩

/-! ## What one step does to the potential -/

section Lowers

variable {env : RunEnv} {w : World} {s : RunState} {i total attempt : Nat} {step : Step}

lemma settle_lowers (hi : i < env.plan.steps.length) (r : StepResult) :
    (settle env s i total attempt step r).control.Fits env.plan ∧
      (settle env s i total attempt step r).potential env ≤
        env.plan.turnsCost total s.budgets.remaining.stepAttempts + 2 := by
  cases r with
  | retried reason =>
    by_cases hcan : s.budgets.canRetry .step
    · have hpos : 0 < s.budgets.remaining.stepAttempts := of_decide_eq_true hcan
      have hconsume : s.budgets.consume .step = some ⟨s.budgets.initial,
          { s.budgets.remaining with stepAttempts := s.budgets.remaining.stepAttempts - 1 }⟩ :=
        if_neg hpos.ne'
      have hturn := turnsCost_retry env.plan total hpos
      simp only [settle, if_pos hcan, hconsume, getD_some]
      refine ⟨hi, ?_⟩
      simp only [potential, goto, publish]
      omega
    · simp only [settle, if_neg hcan]
      exact ⟨trivial, Nat.zero_le _⟩
  | completed keys => exact ⟨hi, le_rfl⟩
  | jump toStepId =>
    simp only [settle]
    split
    · exact ⟨trivial, Nat.zero_le _⟩
    · exact ⟨trivial, le_succ _⟩
  | ethicsRefused host rule reason => exact ⟨trivial, Nat.zero_le _⟩
  | handoffRequested reason => exact ⟨trivial, Nat.zero_le _⟩
  | failed failureClass error => exact ⟨trivial, Nat.zero_le _⟩

lemma dispatchStep_lowers (hi : env.plan.steps[i]? = some step) :
    (dispatchStep env w s i total attempt).control.Fits env.plan ∧
      (dispatchStep env w s i total attempt).potential env <
        env.plan.turnsCost total s.budgets.remaining.stepAttempts + env.plan.turnCost - 1 := by
  have hlt : i < env.plan.steps.length := (List.getElem?_eq_some_iff.1 hi).1
  have hcost : env.plan.turnCost = levelCost env.plan.bodyLength env.plan.steps.length + 5 := rfl
  have hbudgets := callHandler_budgets env w s i step
  rcases hcall : callHandler env w s i step with ⟨s', reply⟩
  replace hbudgets : s'.budgets = s.budgets := by rwa [hcall] at hbudgets
  simp only [dispatchStep, hi, hcall]
  cases reply with
  | threw message =>
    refine ⟨trivial, ?_⟩
    change 0 < _
    omega
  | returned result =>
    change (settle env s' i total attempt step result).control.Fits env.plan ∧
      (settle env s' i total attempt step result).potential env < _
    refine ⟨(settle_lowers hlt result).1, (settle_lowers hlt result).2.trans_lt ?_⟩
    rw [hbudgets]
    omega
  | entered g =>
    obtain ⟨hidx, htodo, hitems, l, hl, hbody⟩ := callHandler_frame hcall
    have hbound : g.bodyStepIds.length ≤ env.plan.bodyLength :=
      hbody ▸ bodyStepIds_length_le hi hl
    refine ⟨⟨hlt, ?_, ?_⟩, ?_⟩
    · intro f hf
      rw [mem_singleton.1 hf, hidx]
      exact ⟨hlt, hbound⟩
    · exact nodup_singleton _
    · have hlevel := cost_entered (m := env.plan.bodyLength) (d := env.plan.steps.length - 1)
        hitems htodo
      rw [Nat.sub_add_cancel (one_le_of_lt hlt)] at hlevel
      simp only [potential, goto, framesCost, length_nil, Nat.zero_add,
        Nat.add_zero, hbudgets]
      omega

lemma applyDecision_lowers {request : ConfirmationRequest}
    (hs : s.control = .gate i total request) (hbudgets : s'.budgets = s.budgets)
    (hi : i < env.plan.steps.length) (d : ConfirmationDecision) :
    (applyDecision s' i total stepId d).control.Fits env.plan ∧
      (applyDecision s' i total stepId d).potential env < s.potential env := by
  have hpos : 0 < env.plan.turnCost := succ_pos _
  simp only [applyDecision]
  split
  · refine ⟨hi, ?_⟩
    simp only [potential, goto, publish, hs, hbudgets]
    omega
  · refine ⟨trivial, ?_⟩
    simp only [potential, goto, hs]
    omega

lemma inLoop_lowers {frames frames' : List LoopFrame}
    (hs : s.control = .inLoop i total attempt frames) (hbudgets : s'.budgets = s.budgets)
    (hlt : framesCost env.plan.steps.length env.plan.bodyLength frames' <
      framesCost env.plan.steps.length env.plan.bodyLength frames) :
    (s'.goto (.inLoop i total attempt frames')).potential env < s.potential env := by
  simp only [potential, hs, goto, hbudgets]
  omega

lemma settle_inLoop_lowers (hs : s.control = .inLoop i total attempt frames)
    (hbudgets : s'.budgets = s.budgets) (hi : i < env.plan.steps.length) (r : StepResult) :
    (settle env s' i total attempt step r).control.Fits env.plan ∧
      (settle env s' i total attempt step r).potential env < s.potential env := by
  refine ⟨(settle_lowers hi r).1, (settle_lowers hi r).2.trans_lt ?_⟩
  simp only [potential, hs, hbudgets]
  omega

lemma nextCall_inLoop {outer : List LoopFrame}
    (hs : s.control = .inLoop i total attempt (f :: outer)) (htodo : f.todo = id :: todo) :
    nextCall env s = bodyStep? env.plan id := by
  simp only [nextCall, hs, htodo, head?_cons, bind_some]

/-- A move of a loop that enters no loop being run lowers the potential.

**Proof sketch.** An iteration begun, a body step called and a loop left each use up what they were
counted for. A loop entered is one level deeper, and as no loop is being run twice there are levels
left for it, so it costs no more than the place of its call. -/
lemma loopStep_lowers {frames : List LoopFrame} (hs : s.control = .inLoop i total attempt frames)
    (hfits : s.control.Fits env.plan) (hre : reenters env s = false) :
    (loopStep env w s i total attempt step frames).control.Fits env.plan ∧
      (loopStep env w s i total attempt step frames).potential env < s.potential env := by
  rw [hs] at hfits
  obtain ⟨hi, hframes, hnodup⟩ := hfits
  cases frames with
  | nil => exact settle_inLoop_lowers hs rfl hi _
  | cons f outer =>
    obtain ⟨hf, houter⟩ := forall_mem_cons.1 hframes
    cases htodo : f.todo with
    | nil =>
      cases hitems : f.items with
      | nil =>
        simp only [loopStep, htodo, hitems]
        refine ⟨⟨hi, houter, (nodup_cons.1 hnodup).2⟩, inLoop_lowers hs rfl ?_⟩
        simp only [framesCost, cost]
        omega
      | cons v items =>
        simp only [loopStep, htodo, hitems]
        refine ⟨⟨hi, forall_mem_cons.2 ⟨hf, houter⟩, hnodup⟩, inLoop_lowers hs rfl ?_⟩
        exact Nat.add_lt_add_right (cost_items htodo hitems hf.2) _
    | cons id todo =>
      -- the frames once the call is taken from the body steps to do
      have hmoved : Control.Fits env.plan
          (.inLoop i total attempt ({ f with todo := todo } :: outer)) :=
        ⟨hi, forall_mem_cons.2 ⟨hf, houter⟩, hnodup⟩
      have hcost := cost_todo (m := env.plan.bodyLength)
        (d := env.plan.steps.length - (outer.length + 1)) htodo
      have hless : framesCost env.plan.steps.length env.plan.bodyLength
            ({ f with todo := todo } :: outer) <
          framesCost env.plan.steps.length env.plan.bodyLength (f :: outer) := by
        simp only [framesCost]
        omega
      have hcall : nextCall env s = bodyStep? env.plan id := nextCall_inLoop hs htodo
      cases hbody : bodyStep? env.plan id with
      | none =>
        simp only [loopStep, htodo, hbody]
        exact ⟨hmoved, inLoop_lowers hs rfl hless⟩
      | some called =>
        obtain ⟨j, body⟩ := called
        have hbudgets := callHandler_budgets env w s j body
        rcases hreply : callHandler env w s j body with ⟨s', reply⟩
        replace hbudgets : s'.budgets = s.budgets := by rwa [hreply] at hbudgets
        simp only [loopStep, htodo, hbody, hreply]
        cases reply with
        | threw message =>
          refine ⟨trivial, ?_⟩
          simp only [potential, goto, hs]
          omega
        | returned result =>
          cases result with
          | completed keys => exact ⟨hmoved, inLoop_lowers hs hbudgets hless⟩
          | _ => exact settle_inLoop_lowers hs hbudgets hi _
        | entered g =>
          obtain ⟨hidx, hgtodo, hgitems, l, hl, hgbody⟩ := callHandler_frame hreply
          have hj := bodyStep?_spec hbody
          have hjlt : j < env.plan.steps.length := (List.getElem?_eq_some_iff.1 hj).1
          have hbound : g.bodyStepIds.length ≤ env.plan.bodyLength :=
            hgbody ▸ bodyStepIds_length_le hj hl
          have hfresh : j ∉ (f :: outer).map loopIdx := by
            intro hmem
            simp only [reenters, hcall, hbody, any_some, Control.running, hs,
              contains_eq_mem, decide_eq_false_iff_not] at hre
            exact hre hmem
          have hentered : Control.Fits env.plan
              (.inLoop i total attempt (g :: { f with todo := todo } :: outer)) := by
            refine ⟨hi, forall_mem_cons.2 ⟨⟨hidx ▸ hjlt, hbound⟩, hmoved.2.1⟩, ?_⟩
            exact nodup_cons.2 ⟨hidx ▸ hfresh, hnodup⟩
          refine ⟨hentered, inLoop_lowers hs hbudgets ?_⟩
          have hdepth := frames_length_le (fun h hh => (hentered.2.1 h hh).1) hentered.2.2
          simp only [length_cons] at hdepth
          have hlevel := cost_entered (m := env.plan.bodyLength)
            (d := env.plan.steps.length - (outer.length + 1 + 1)) hgitems hgtodo
          rw [show env.plan.steps.length - (outer.length + 1 + 1) + 1 =
            env.plan.steps.length - (outer.length + 1) by omega] at hlevel
          simp only [framesCost, length_cons]
          omega

end Lowers

/-- **The step lemma of the potential.** Every step of a run that is not over, and that re-enters no
loop, lowers the potential and keeps the steps it names within the plan.

**Proof sketch.** By the point the run has reached. -/
lemma executorStep_lowers {env : RunEnv} {s : RunState} (w : World)
    (hfits : s.control.Fits env.plan) (hre : reenters env s = false)
    (hstop : s.control.stopped = false) :
    (executorStep env s w).control.Fits env.plan ∧
      (executorStep env s w).potential env < s.potential env := by
  unfold executorStep
  cases hc : s.control with
  | starting =>
    simp only [startRun]
    split
    · refine ⟨trivial, ?_⟩
      simp only [potential, fail, goto, hc]
      omega
    · split
      · refine ⟨trivial, ?_⟩
        simp only [potential, goto, hc]
        omega
      · refine ⟨trivial, ?_⟩
        simp only [potential, goto, publish, hc]
        omega
  | cursor i total =>
    simp only [startStep]
    have hzero : 0 < s.potential env := by
      simp only [potential, hc]
      omega
    cases hi : env.plan.steps[i]? with
    | none => exact ⟨trivial, hzero⟩
    | some step =>
      have hlt : i < env.plan.steps.length := (List.getElem?_eq_some_iff.1 hi).1
      by_cases hmax : maxTotalStepExecutions < total + 1
      · simp only [if_pos hmax]
        exact ⟨trivial, hzero⟩
      · have hturn := turnsCost_succ env.plan s.budgets.remaining.stepAttempts
          (Nat.le_of_not_lt hmax)
        simp only [if_neg hmax]
        split
        · split
          · refine ⟨hlt, ?_⟩
            simp only [potential, goto, publish, RunState.mark, hc]
            omega
          · exact ⟨trivial, hzero⟩
        · refine ⟨hlt, ?_⟩
          simp only [potential, goto, publish, RunState.mark, hc]
          omega
  | gate i total request =>
    rw [hc] at hfits
    cases hw : w.gateway with
    | decided decision decidedBy =>
      simp only [answerGate, hw]
      refine applyDecision_lowers hc ?_ hfits _
      rfl
    | threw =>
      simp only [answerGate, hw]
      refine applyDecision_lowers hc ?_ hfits _
      rfl
    | parked =>
      simp only [answerGate, hw]
      refine ⟨trivial, ?_⟩
      change 0 < s.potential env
      simp only [potential, hc]
      exact succ_pos _
  | dispatch i total attempt =>
    rw [hc] at hfits
    obtain ⟨step, hi⟩ : ∃ step, env.plan.steps[i]? = some step :=
      ⟨_, getElem?_eq_getElem hfits⟩
    refine ⟨(dispatchStep_lowers hi).1, (dispatchStep_lowers hi).2.trans_le ?_⟩
    simp only [potential, hc, le_refl]
  | inLoop i total attempt frames =>
    have hi : i < env.plan.steps.length := by
      rw [hc] at hfits
      exact hfits.1
    simp only [getElem?_eq_getElem hi]
    exact loopStep_lowers hc hfits hre
  | saving i total =>
    rw [hc] at hfits
    simp only [saveCheckpoint, getElem?_eq_getElem hfits]
    split
    · refine ⟨trivial, ?_⟩
      simp only [potential, goto, publish, hc]
      omega
    · refine ⟨trivial, ?_⟩
      simp only [potential, goto, hc]
      omega
  | finished o => simp [hc, Control.stopped] at hstop
  | threw message => simp [hc, Control.stopped] at hstop

/-! ## What one step calls -/

lemma dispatchStep_dispatches (env : RunEnv) (w : World) (s : RunState) (i total attempt : Nat) :
    (dispatchStep env w s i total attempt).dispatches ≤ s.dispatches + 1 := by
  unfold dispatchStep
  split
  · exact le_succ _
  · rename_i step _
    have hcount := callHandler_dispatches env w s i step
    rcases hcall : callHandler env w s i step with ⟨s', reply⟩
    rw [hcall] at hcount
    cases reply with
    | threw message => exact hcount.le
    | returned result => exact (settle_dispatches ..).trans_le hcount.le
    | entered g => exact hcount.le

lemma loopStep_dispatches (env : RunEnv) (w : World) (s : RunState) (i total attempt : Nat)
    (step : Step) (frames : List LoopFrame) :
    (loopStep env w s i total attempt step frames).dispatches ≤ s.dispatches + 1 := by
  cases frames with
  | nil => exact (settle_dispatches ..).trans_le (le_succ _)
  | cons f outer =>
    cases htodo : f.todo with
    | nil =>
      cases hitems : f.items with
      | nil =>
        simp only [loopStep, htodo, hitems]
        exact le_succ _
      | cons v items =>
        simp only [loopStep, htodo, hitems]
        exact le_succ _
    | cons id todo =>
      cases hbody : bodyStep? env.plan id with
      | none =>
        simp only [loopStep, htodo, hbody]
        exact le_succ _
      | some called =>
        have hcount := callHandler_dispatches env w s called.1 called.2
        rcases hreply : callHandler env w s called.1 called.2 with ⟨s', reply⟩
        rw [hreply] at hcount
        simp only [loopStep, htodo, hbody, hreply]
        cases reply with
        | threw message => exact hcount.le
        | entered g => exact hcount.le
        | returned result =>
          cases result with
          | completed keys => exact hcount.le
          | _ => exact (settle_dispatches ..).trans_le hcount.le

lemma executorStep_dispatches (env : RunEnv) (s : RunState) (w : World) :
    (executorStep env s w).dispatches ≤ s.dispatches + 1 := by
  unfold executorStep
  cases s.control with
  | starting =>
    simp only [startRun]
    split
    · exact le_succ _
    · split <;> exact le_succ _
  | cursor i total =>
    simp only [startStep]
    split
    · exact le_succ _
    · split_ifs <;> exact le_succ _
  | gate i total request =>
    simp only [answerGate, applyDecision]
    split
    · split_ifs <;> exact le_succ _
    · split_ifs <;> exact le_succ _
    · exact le_succ _
  | dispatch i total attempt => exact dispatchStep_dispatches ..
  | inLoop i total attempt frames =>
    simp only
    split
    · exact le_succ _
    · exact loopStep_dispatches ..
  | saving i total =>
    simp only [saveCheckpoint]
    split
    · exact le_succ _
    · split_ifs <;> exact le_succ _
  | finished o => exact le_succ _
  | threw message => exact le_succ _

/-! ## Exceptions -/

/-- The run has ended with an exception. -/
def Control.raised : Control → Bool
  | .threw _ => true
  | _ => false

lemma settle_raised (env : RunEnv) (s : RunState) (i total attempt : Nat) (step : Step)
    (r : StepResult) : (settle env s i total attempt step r).control.raised = false := by
  rcases settle_control env s i total attempt step r with h | h | ⟨j, h⟩ | ⟨o, h⟩ <;> rw [h] <;> rfl

lemma executorStep_raised (hs : s.control.raised = false)
    (h : throws env s w = false) : (executorStep env s w).control.raised = false := by
  unfold executorStep
  cases hc : s.control with
  | starting =>
    simp only [throws, hc] at h
    simp only [startRun]
    split
    · rfl
    · rename_i hscope
      split
      · rename_i message hopen haction
        simp [hscope, hopen, haction] at h
      · rfl
  | cursor i total =>
    simp only [startStep]
    split
    · rfl
    · split_ifs <;> rfl
  | gate i total request =>
    simp only [answerGate, applyDecision]
    split
    · split_ifs <;> rfl
    · split_ifs <;> rfl
    · rfl
  | dispatch i total attempt =>
    simp only [dispatchStep]
    cases hi : env.plan.steps[i]? with
    | none =>
      rw [hc]
      rfl
    | some step =>
      simp only [throws, nextCall, hc, hi, map_some, any_some] at h
      rcases hcall : callHandler env w s i step with ⟨s', reply⟩
      rw [hcall] at h
      simp only [hcall]
      cases reply with
      | threw message => cases h
      | returned result => exact settle_raised ..
      | entered g => rfl
  | inLoop i total attempt frames =>
    simp only
    split
    · rw [hc]
      rfl
    · cases frames with
      | nil => exact settle_raised ..
      | cons f outer =>
        cases htodo : f.todo with
        | nil => cases hitems : f.items <;> simp only [loopStep, htodo, hitems] <;> rfl
        | cons id todo =>
          cases hbody : bodyStep? env.plan id with
          | none =>
            simp only [loopStep, htodo, hbody]
            rfl
          | some called =>
            simp only [throws, nextCall, hc, htodo, head?_cons, bind_some, hbody,
              any_some] at h
            rcases hreply : callHandler env w s called.1 called.2 with ⟨s', reply⟩
            rw [hreply] at h
            simp only [loopStep, htodo, hbody, hreply]
            cases reply with
            | threw message => cases h
            | entered g => rfl
            | returned result =>
              cases result with
              | completed keys => rfl
              | _ => exact settle_raised ..
  | saving i total =>
    simp only [throws, hc, Bool.not_eq_false'] at h
    simp only [saveCheckpoint, h, if_true]
    split
    · rw [hc]
      rfl
    · rfl
  | finished o =>
    rw [hc]
    rfl
  | threw message =>
    rw [hc] at hs
    cases hs

/-! ## Whole runs -/

lemma executorStep_stopped (w : World) (h : s.control.stopped) : executorStep env s w = s := by
  unfold executorStep
  cases hc : s.control with
  | finished o => rfl
  | threw message => rfl
  | _ =>
    rw [hc] at h
    cases h

lemma executorStep_pays (w : World) (hfits : s.control.Fits env.plan)
    (hre : reenters env s = false) :
    (executorStep env s w).dispatches + (executorStep env s w).potential env ≤
      s.dispatches + s.potential env := by
  cases hstop : s.control.stopped with
  | true => rw [executorStep_stopped w hstop]
  | false =>
    have hcalls := executorStep_dispatches env s w
    have hlt := (executorStep_lowers w hfits hre hstop).2
    omega

lemma executorStep_fits (w : World) (hfits : s.control.Fits env.plan)
    (hre : reenters env s = false) :
    (executorStep env s w).control.Fits env.plan := by
  cases hstop : s.control.stopped with
  | true => rwa [executorStep_stopped w hstop]
  | false => exact (executorStep_lowers w hfits hre hstop).1

/-- Each loop lists only loops of a lower rank: no loop lists itself, directly or through others. -/
def Plan.Ranked (p : Plan) (rank : Nat → Nat) : Prop :=
  ∀ i step l id j body l', p.steps[i]? = some step → step.body = .loop l → id ∈ l.bodyStepIds →
    bodyStep? p id = some (j, body) → body.body = .loop l' → rank j < rank i

/-- A loop being run is a loop step of the plan, with body steps of its own to do. -/
def LoopFrame.Of (p : Plan) (f : LoopFrame) : Prop :=
  ∃ step l, p.steps[f.loopIdx]? = some step ∧ step.body = .loop l ∧
    f.bodyStepIds = l.bodyStepIds ∧ f.todo ⊆ l.bodyStepIds

/-- The loops being run are of the plan, and each has a lower rank than those around it. -/
def Control.Ordered (p : Plan) (rank : Nat → Nat) : Control → Prop
  | .inLoop _ _ _ frames => (∀ f ∈ frames, f.Of p) ∧
      (frames.map LoopFrame.loopIdx).Pairwise fun j outer => rank j < rank outer
  | _ => True

section Ranked

variable {env : RunEnv} {rank : Nat → Nat} {w : World} {s s' : RunState} {i total attempt : Nat}
  {step : Step}

lemma of_callHandler (hj : env.plan.steps[j]? = some step)
    (h : callHandler env w s j step = (s', .entered g)) : g.Of env.plan := by
  obtain ⟨hidx, htodo, -, l, hl, hbody⟩ := callHandler_frame h
  refine ⟨step, l, hidx ▸ hj, hl, hbody, ?_⟩
  rw [htodo]
  exact nil_subset _

lemma rank_lt_of_ordered (hrank : env.plan.Ranked rank) {outer : List LoopFrame} {body : Step}
    (h : Control.Ordered env.plan rank (.inLoop i total attempt (f :: outer)))
    (htodo : f.todo = id :: todo) (hbody : bodyStep? env.plan id = some (j, body))
    (hl : body.body = .loop l) : ∀ g ∈ f :: outer, rank j < rank g.loopIdx := by
  obtain ⟨hof, hsorted⟩ := h
  obtain ⟨loopStep, loop, hstep, hloop, -, hsub⟩ := hof f mem_cons_self
  have hid : id ∈ loop.bodyStepIds := hsub (htodo ▸ mem_cons_self)
  have hlt : rank j < rank f.loopIdx := hrank _ _ _ _ _ _ _ hstep hloop hid hbody hl
  refine forall_mem_cons.2 ⟨hlt, fun g hg => ?_⟩
  exact hlt.trans ((pairwise_cons.1 hsorted).1 _ (List.mem_map_of_mem hg))

lemma settle_ordered (r : StepResult) :
    (settle env s i total attempt step r).control.Ordered env.plan rank := by
  rcases settle_control env s i total attempt step r with h | h | ⟨j, h⟩ | ⟨o, h⟩ <;> rw [h] <;>
    trivial

lemma loopStep_ordered (hrank : env.plan.Ranked rank)
    (h : Control.Ordered env.plan rank (.inLoop i total attempt frames)) :
    (loopStep env w s i total attempt step frames).control.Ordered env.plan rank := by
  cases frames with
  | nil => exact settle_ordered _
  | cons f outer =>
    obtain ⟨hof, hsorted⟩ := id h
    obtain ⟨hf, houter⟩ := forall_mem_cons.1 hof
    obtain ⟨loopStep', l, hstep, hl, hbody, hsub⟩ := hf
    cases htodo : f.todo with
    | nil =>
      cases hitems : f.items with
      | nil =>
        simp only [loopStep, htodo, hitems]
        exact ⟨houter, (pairwise_cons.1 hsorted).2⟩
      | cons v items =>
        simp only [loopStep, htodo, hitems]
        refine ⟨forall_mem_cons.2 ⟨⟨loopStep', l, hstep, hl, hbody, ?_⟩, houter⟩, hsorted⟩
        exact hbody ▸ List.Subset.refl _
    | cons id todo =>
      have hmoved : Control.Ordered env.plan rank
          (.inLoop i total attempt ({ f with todo := todo } :: outer)) := by
        refine ⟨forall_mem_cons.2 ⟨⟨loopStep', l, hstep, hl, hbody, ?_⟩, houter⟩, hsorted⟩
        exact fun b hb => hsub (htodo ▸ mem_cons_of_mem _ hb)
      cases hcalled : bodyStep? env.plan id with
      | none =>
        simp only [loopStep, htodo, hcalled]
        exact hmoved
      | some called =>
        obtain ⟨j, body⟩ := called
        rcases hreply : callHandler env w s j body with ⟨s', reply⟩
        simp only [loopStep, htodo, hcalled, hreply]
        cases reply with
        | threw message => trivial
        | returned result =>
          cases result with
          | completed keys => exact hmoved
          | _ => exact settle_ordered _
        | entered g =>
          obtain ⟨hidx, -, -, l', hl', -⟩ := callHandler_frame hreply
          have hlt := rank_lt_of_ordered hrank h htodo hcalled hl'
          have hg := of_callHandler (bodyStep?_spec hcalled) hreply
          refine ⟨forall_mem_cons.2 ⟨hg, hmoved.1⟩, pairwise_cons.2 ⟨?_, hmoved.2⟩⟩
          intro outerIdx hmem
          obtain ⟨f', hf', rfl⟩ := List.mem_map.1 hmem
          rw [hidx]
          rcases mem_cons.1 hf' with rfl | hf'
          · exact hlt f mem_cons_self
          · exact hlt f' (mem_cons_of_mem _ hf')

lemma executorStep_ordered (hrank : env.plan.Ranked rank) (s : RunState) (w : World)
    (h : s.control.Ordered env.plan rank) :
    (executorStep env s w).control.Ordered env.plan rank := by
  unfold executorStep
  cases hc : s.control with
  | starting =>
    simp only [startRun]
    split
    · trivial
    · split <;> trivial
  | cursor i total =>
    simp only [startStep]
    split
    · trivial
    · split_ifs <;> trivial
  | gate i total request =>
    simp only [answerGate, applyDecision]
    split
    · split_ifs <;> trivial
    · split_ifs <;> trivial
    · trivial
  | dispatch i total attempt =>
    simp only [dispatchStep]
    cases hi : env.plan.steps[i]? with
    | none =>
      rw [hc]
      trivial
    | some step =>
      rcases hcall : callHandler env w s i step with ⟨s', reply⟩
      simp only [hcall]
      cases reply with
      | threw message => trivial
      | returned result => exact settle_ordered _
      | entered g =>
        exact ⟨forall_mem_singleton.2 (of_callHandler hi hcall), pairwise_singleton _ _⟩
  | inLoop i total attempt frames =>
    rw [hc] at h
    simp only
    split
    · rw [hc]
      exact h
    · exact loopStep_ordered hrank h
  | saving i total =>
    simp only [saveCheckpoint]
    split
    · rw [hc]
      trivial
    · split_ifs <;> trivial
  | finished o =>
    rw [hc]
    trivial
  | threw message =>
    rw [hc]
    trivial

lemma not_reenters_of_ordered (hrank : env.plan.Ranked rank) (h : s.control.Ordered env.plan rank) :
    reenters env s = false := by
  rw [reenters, Option.any_eq_false]
  rintro ⟨j, body⟩ hcall
  rw [contains_eq_mem, decide_eq_false_iff_not]
  intro hmem
  cases hc : s.control with
  | inLoop i total attempt frames =>
    rw [hc] at h hmem
    obtain ⟨f', hf', hidx⟩ := List.mem_map.1 hmem
    cases frames with
    | nil => cases hf'
    | cons f outer =>
      cases htodo : f.todo with
      | nil => simp [nextCall, hc, htodo] at hcall
      | cons id todo =>
        rw [nextCall_inLoop hc htodo] at hcall
        -- the step called is the loop step of a frame, so it is a loop
        obtain ⟨loopStep, l, hstep, hl, -⟩ := h.1 f' hf'
        rw [hidx, bodyStep?_spec hcall] at hstep
        obtain rfl := some.inj hstep
        have hlt := rank_lt_of_ordered hrank h htodo hcall hl f' hf'
        rw [hidx] at hlt
        exact lt_irrefl _ hlt
  | _ =>
    rw [hc] at hmem
    cases hmem

/-- **A plan with ranked loops re-enters none**, on whatever the outside answers.

**Proof sketch.** The loops being run are in the order of their ranks, and a loop called from the
innermost ranks below it. -/
theorem not_reenters_of_ranked (hrank : env.plan.Ranked rank) (ws : List World) :
    (executor env).Along (fun s _ => reenters env s = false) (executor env).init ws := by
  rw [Machine.along_iff_forall_split]
  intro before w after _
  have hinit : (executor env).init.control.Ordered env.plan rank := trivial
  have hinv : ∀ (s : RunState) (w : World), s.control.Ordered env.plan rank →
      ((executor env).step s w).control.Ordered env.plan rank := executorStep_ordered hrank
  exact not_reenters_of_ordered hrank (Machine.invariant_runFrom' hinv hinit before)

/-- **Plans with ranked loops end.** Whatever the outside answers, the run calls no more handlers than
the plan allows, and given that many moves it has stopped.

**Proof sketch.** No loop is re-entered, so every move lowers the potential and pays for its call. -/
theorem ranked_plan_terminates (hrank : env.plan.Ranked rank) (ws : List World) :
    ((executor env).run ws).dispatches ≤ runBound env ∧
      (runBound env < ws.length → ((executor env).run ws).control.stopped) := by
  have hre := not_reenters_of_ranked hrank ws
  have hinv : ∀ (s : RunState) (w : World), s.control.Fits env.plan → reenters env s = false →
      ((executor env).step s w).control.Fits env.plan := fun s w => executorStep_fits w
  have hinit : (executor env).init.control.Fits env.plan := trivial
  constructor
  · have hpay : ∀ (s : RunState) (w : World), s.control.Fits env.plan → reenters env s = false →
        ((executor env).step s w).dispatches + ((executor env).step s w).potential env ≤
          s.dispatches + s.potential env := fun s w => executorStep_pays w
    have hpaid := Machine.cost_le_of_potential (RunState.potential env) RunState.dispatches hinv
      hpay hinit hre
    exact hpaid.trans_eq (Nat.zero_add _)
  · intro hlen
    have hlt : ∀ (s : RunState) (w : World), s.control.Fits env.plan → reenters env s = false →
        ¬ s.control.stopped = true → ((executor env).step s w).potential env < s.potential env :=
      fun s w hfits hstep hrun => (executorStep_lowers w hfits hstep (by simpa using hrun)).2
    have hstay : ∀ (s : RunState) (w : World), s.control.stopped = true →
        ((executor env).step s w).control.stopped = true :=
      fun s w hstop => (congrArg (·.control.stopped) (executorStep_stopped w hstop)).trans hstop
    exact Machine.stopped_of_potential (RunState.potential env) hinv hlt hstay hinit hre hlen

end Ranked

/-! ## A loop over the rows of a page -/

def rowsPlan (bodyStepIds : List String) : Plan where
  taskId := "t1"
  planId := "p1"
  defaultScope := .authenticated
  steps := [
    { id := "s1"
      body := .extract (.intent .table none none)
        (.object [("rows", .array (.primitive .string))]) "s1" },
    { id := "s2"
      body := .loop ⟨.capture ⟨"s1", some "rows"⟩, "row", bodyStepIds, 10⟩ },
    { id := "s3", body := .click {} (.intent .button none none) none }]

def rowsEnv (bodyStepIds : List String) : RunEnv where
  runId := "r1"
  plan := rowsPlan bodyStepIds
  params := OrderedMap.empty
  workflowLocators := none
  browser := true
  gateway := false
  llm := false
  urlHost := fun _ => none

/-- The loop over the rows calls no loop. -/
theorem ranked_plan_terminates_rows :
    let ws : List World := List.replicate (1 + runBound (rowsEnv ["s3"])) {}
    ((executor (rowsEnv ["s3"])).run ws).dispatches ≤ runBound (rowsEnv ["s3"]) ∧
      (runBound (rowsEnv ["s3"]) < ws.length →
        ((executor (rowsEnv ["s3"])).run ws).control.stopped) := by
  intro ws
  refine @ranked_plan_terminates (rowsEnv ["s3"]) id ?_ ws
  intro i step l id j body l' hi hl hid hbody hl'
  match i, hi with
  | 0, hi | 2, hi =>
    cases hi
    cases hl
  | 1, hi =>
    cases hi
    cases hl
    obtain rfl := mem_singleton.1 hid
    cases hbody
    cases hl'
  | i + 3, hi => cases hi

lemma along_of_stopped {C : RunState → World → Prop}
    (hs : s.control.stopped) (hC : ∀ w, C s w) (ws : List World) :
    (executor env).Along C s ws := by
  induction ws with
  | nil => trivial
  | cons w ws ih =>
    have hstep : (executor env).step s w = s := executorStep_stopped w hs
    refine ⟨hC w, ?_⟩
    rwa [hstep]

/-- What the extract stored. -/
def rowsCapture : Value := buildEnvelope .null (.object [("rows", .array (.primitive .string))])

def selfLoopStep : Step where
  id := "s2"
  body := .loop ⟨.capture ⟨"s1", some "rows"⟩, "row", ["s2"], 10⟩

lemma callHandler_selfLoop (h : s.captures.get? "s1" = some rowsCapture) (w : World)
    : ∃ v, callHandler (rowsEnv ["s2"]) w s 1 selfLoopStep =
      (s.mark (.dispatched 1), .entered ⟨1, "row", ["s2"], [v], []⟩) := by
  have hstart : ∃ v, startLoop (rowsPlan ["s2"]) s.captures "s2"
      ⟨.capture ⟨"s1", some "rows"⟩, "row", ["s2"], 10⟩ = .ok (.inr ([v], 1)) := by
    simp only [startLoop, resolveCollection, h]
    exact ⟨_, rfl⟩
  obtain ⟨v, hv⟩ := hstart
  refine ⟨v, ?_⟩
  have hplan : (rowsEnv ["s2"]).plan = rowsPlan ["s2"] := rfl
  simp only [callHandler, handleStep, selfLoopStep, mark_captures, hplan, hv]
  rfl

section SelfLoop

variable {s : RunState} {v : Value} {outer : List LoopFrame}

lemma selfLoop_begin (w : World)
    (hs : s.control = .inLoop 1 2 0 (⟨1, "row", ["s2"], [v], []⟩ :: outer)) :
    executorStep (rowsEnv ["s2"]) s w = (s.store 1 "row" v).goto
      (.inLoop 1 2 0 (⟨1, "row", ["s2"], [], ["s2"]⟩ :: outer)) := by
  simp only [executorStep, hs]
  rfl

lemma nextCall_selfLoop (hs : s.control = .inLoop 1 2 0 (⟨1, "row", ["s2"], [], ["s2"]⟩ :: outer)) :
    nextCall (rowsEnv ["s2"]) s = some (1, selfLoopStep) := by
  simp only [nextCall, hs]
  rfl

lemma selfLoop_call (w : World)
    (hs : s.control = .inLoop 1 2 0 (⟨1, "row", ["s2"], [], ["s2"]⟩ :: outer))
    (h : s.captures.get? "s1" = some rowsCapture) :
    ∃ v, executorStep (rowsEnv ["s2"]) s w = (s.mark (.dispatched 1)).goto
      (.inLoop 1 2 0 (⟨1, "row", ["s2"], [v], []⟩ :: ⟨1, "row", ["s2"], [], []⟩ :: outer)) := by
  obtain ⟨v, hcall⟩ := callHandler_selfLoop h w
  have hstep : (rowsEnv ["s2"]).plan.steps[1]? = some selfLoopStep := rfl
  have hbody : bodyStep? (rowsEnv ["s2"]).plan "s2" = some (1, selfLoopStep) := rfl
  refine ⟨v, ?_⟩
  simp only [executorStep, hs, hstep, loopStep, hbody, hcall]

/-- The loop has just been entered, in whatever loops it was called from. -/
def SelfEntered (s : RunState) : Prop :=
  s.captures.get? "s1" = some rowsCapture ∧
    ∃ v outer, s.control = .inLoop 1 2 0 (⟨1, "row", ["s2"], [v], []⟩ :: outer)

lemma selfEntered_step (h : SelfEntered s) (w w' : World) :
    SelfEntered ((executor (rowsEnv ["s2"])).runFrom s [w, w']) ∧
      ((executor (rowsEnv ["s2"])).runFrom s [w, w']).dispatches = s.dispatches + 1 ∧
      (executor (rowsEnv ["s2"])).Along (fun s w => throws (rowsEnv ["s2"]) s w = false) s [w, w']
    := by
  obtain ⟨hrows, v, outer, hs⟩ := h
  have hrows' : (s.captures.set "row" v).get? "s1" = some rowsCapture := by
    rw [s.captures.get?_set_of_ne v (by decide), hrows]
  have hbegin := selfLoop_begin w hs
  generalize hmid : executorStep (rowsEnv ["s2"]) s w = mid at hbegin
  have hcontrol : mid.control = .inLoop 1 2 0 (⟨1, "row", ["s2"], [], ["s2"]⟩ :: outer) := by
    rw [hbegin, goto_control]
  have hcaptures : mid.captures.get? "s1" = some rowsCapture := by
    rw [hbegin]
    exact hrows'
  obtain ⟨v', hcall⟩ := selfLoop_call w' hcontrol hcaptures
  have hrun : (executor (rowsEnv ["s2"])).runFrom s [w, w'] =
      (mid.mark (.dispatched 1)).goto (.inLoop 1 2 0
        (⟨1, "row", ["s2"], [v'], []⟩ :: ⟨1, "row", ["s2"], [], []⟩ :: outer)) := by
    rw [← hcall, ← hmid]
    rfl
  rw [hrun]
  refine ⟨⟨hcaptures, v', _, rfl⟩, ?_, ?_, ?_, trivial⟩
  · rw [hbegin]
    simp [dispatches, countP_cons, Mark.isDispatched]
  · simp [throws, hs, nextCall]
  · change throws _ (executorStep (rowsEnv ["s2"]) s w) w' = false
    obtain ⟨v'', hreply⟩ := callHandler_selfLoop hcaptures w'
    simp only [hmid, throws, hcontrol, nextCall_selfLoop hcontrol, any_some, hreply]

end SelfLoop

end Yantra
