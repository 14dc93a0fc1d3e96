import Yantra.Executor.Termination

/-!
# What a loop runs

A loop runs its body steps, in the order of their list, once for each of its first items, with its
variable bound to the item; a body step that is a loop does the same inside the iteration it was
called in. This is said without the executor's frames, of captures and marks alone, and the moves
of the executor carry it out.

## Main definitions

* `LoopTask`, `Does` — what a call, the iterations of a loop and its body steps leave
  behind, when every step completes.
* `proceeds` — every call made in the loop completes, and none re-enters a loop.

## Main results

* `loop_does_iterate` — a loop the cursor comes to runs its iterations and is left.
* `body_called_after_loop` — how often a body step is called in a whole run.
-/

namespace Yantra

open List Option Bool

/-! ## The meaning of a loop -/

/-- What a run can be doing in a loop. -/
inductive LoopTask where
  | call (j : Nat)
  /-- Iterate loop `j` over the items, its variable and its body steps given. -/
  | iterate (j : Nat) (as : String) (bodyStepIds : List String) (items : List Value)
  /-- Call the body steps of one iteration. -/
  | body (ids : List String)

/-- What a task that completes makes of the captures, and the marks it leaves, oldest first. -/
inductive Does (env : RunEnv) : LoopTask → CaptureStore → List Mark → CaptureStore → Prop
  | leaf {j : Nat} {step : Step} {ctx : HandlerCtx} {w : World} {h : Handled} {keys : List String}
      (hstep : env.plan.steps[j]? = some step)
      (hcall : handleStep env ctx w step = some (.ok h)) (hresult : h.result = .completed keys) :
      Does env (.call j) ctx.captures
        (.dispatched j :: (storeMarks j h.captures h.result).reverse) h.captures
  | loop {j : Nat} {step : Step} {l : LoopBody} {items : List Value} {c c' : CaptureStore}
      {marks : List Mark} (hstep : env.plan.steps[j]? = some step) (hl : step.body = .loop l)
      (hitems : resolveCollection c l.over = .ok (some (.arr items)))
      (hiterate : Does env (.iterate j l.as l.bodyStepIds
        (items.take (min items.length l.maxIterations))) c marks c') :
      Does env (.call j) c (.dispatched j :: marks) c'
  | noItem {j : Nat} {as : String} {bodyStepIds : List String} {c : CaptureStore} :
      Does env (.iterate j as bodyStepIds []) c [] c
  | item {j : Nat} {as : String} {bodyStepIds : List String} {v : Value} {items : List Value}
      {c c' c'' : CaptureStore} {marks marks' : List Mark}
      (hbody : Does env (.body bodyStepIds) (c.set as v) marks c')
      (hrest : Does env (.iterate j as bodyStepIds items) c' marks' c'') :
      Does env (.iterate j as bodyStepIds (v :: items)) c (.stored j as v :: (marks ++ marks')) c''
  | noStep {c : CaptureStore} : Does env (.body []) c [] c
  | step {id : String} {ids : List String} {j : Nat} {body : Step} {c c' c'' : CaptureStore}
      {marks marks' : List Mark} (hid : bodyStep? env.plan id = some (j, body))
      (hcall : Does env (.call j) c marks c') (hrest : Does env (.body ids) c' marks' c'') :
      Does env (.body (id :: ids)) c (marks ++ marks') c''

/-- What is left of the loops being run, innermost first, when every step completes. -/
inductive Finishes (env : RunEnv) : List LoopFrame → CaptureStore → List Mark → CaptureStore → Prop
  | nil {c : CaptureStore} : Finishes env [] c [] c
  | cons {f : LoopFrame} {outer : List LoopFrame} {c c₁ c₂ c₃ : CaptureStore}
      {marks₁ marks₂ marks₃ : List Mark} (htodo : Does env (.body f.todo) c marks₁ c₁)
      (hitems : Does env (.iterate f.loopIdx f.as f.bodyStepIds f.items) c₁ marks₂ c₂)
      (houter : Finishes env outer c₂ marks₃ c₃) :
      Finishes env (f :: outer) c (marks₁ ++ (marks₂ ++ marks₃)) c₃

/-! ## How often a body step is called -/

/-- The mark of a call of step `j`. -/
def Mark.isCallOf (j : Nat) : Mark → Bool
  | .dispatched k => k == j
  | _ => false

lemma countP_storeMarks (j k : Nat) (captures : CaptureStore) (r : StepResult) :
    (storeMarks k captures r).countP (Mark.isCallOf j) = 0 := by
  refine countP_eq_zero.2 fun m hm => ?_
  unfold storeMarks at hm
  split at hm
  · obtain ⟨key, -, hkey⟩ := mem_filterMap.1 hm
    obtain ⟨v, -, rfl⟩ := map_eq_some_iff.1 hkey
    exact Bool.false_ne_true
  · cases hm

def NoLoop (p : Plan) (ids : List String) : Prop :=
  ∀ id ∈ ids, ∀ j step l, bodyStep? p id = some (j, step) → step.body ≠ .loop l

/-- The calls of step `j` in a list of body steps. -/
def listed (p : Plan) (j : Nat) (ids : List String) : Nat :=
  ids.countP fun id => p.stepIdx? id == some j

variable {p : Plan}

variable {id : String}

variable {j : Nat}

lemma stepIdx?_of_bodyStep? {body : Step} (h : bodyStep? p id = some (j, body)) :
    p.stepIdx? id = some j := by
  simp only [bodyStep?, bind_eq_some_iff, map_eq_some_iff, Prod.mk.injEq] at h
  obtain ⟨k, hk, _, -, rfl, -⟩ := h
  exact hk

variable {c c' : CaptureStore} {marks : List Mark}

variable {env : RunEnv} {step : Step} {i : Nat} {s : RunState}

lemma countP_of_call {k : Nat} (hstep : env.plan.steps[k]? = some step)
    (hleaf : ∀ l, step.body ≠ .loop l) (h : Does env (.call k) c marks c') (j : Nat) :
    marks.countP (Mark.isCallOf j) = if k = j then 1 else 0 := by
  cases h with
  | leaf hstep' hcall hresult =>
    rw [countP_cons, countP_reverse, countP_storeMarks, Nat.zero_add]
    simp only [Mark.isCallOf, beq_iff_eq]
  | loop hstep' hl hitems hiterate =>
    rw [hstep] at hstep'
    obtain rfl := some.inj hstep'
    exact absurd hl (hleaf _)

variable {ids : List String}

lemma countP_of_body (hids : NoLoop env.plan ids) (h : Does env (.body ids) c marks c') (j : Nat) :
    marks.countP (Mark.isCallOf j) = listed env.plan j ids := by
  induction ids generalizing c marks with
  | nil =>
    cases h
    rfl
  | cons id ids ih =>
    cases h with
    | step hid hcall hrest =>
      have hcount := countP_of_call (bodyStep?_spec hid)
        (fun l => hids id mem_cons_self _ _ l hid) hcall j
      rw [countP_append, hcount, ih (fun id' h' => hids id' (mem_cons_of_mem _ h')) hrest,
        listed, listed, countP_cons, stepIdx?_of_bodyStep? hid, Nat.add_comm]
      simp

variable {items : List Value}

/-- **How often a body step is called**: once for each time it is listed, in each iteration. -/
theorem countP_of_iterate {as : String} (hids : NoLoop env.plan ids)
    (h : Does env (.iterate i as ids items) c marks c') (j : Nat) :
    marks.countP (Mark.isCallOf j) = items.length * listed env.plan j ids := by
  induction items generalizing c marks with
  | nil =>
    cases h
    exact (Nat.zero_mul _).symm
  | cons v items ih =>
    cases h with
    | item hbody hrest =>
      rw [countP_cons_of_neg (by exact Bool.false_ne_true), countP_append,
        countP_of_body hids hbody, ih hrest, length_cons, Nat.succ_mul, Nat.add_comm]

/-! ## The moves of the executor -/

/-- The call has completed, or its loop has been entered. -/
def Reply.proceeds : Reply → Bool
  | .returned (.completed _) | .entered _ => true
  | _ => false

/-- Whatever is called while this call of loop `i` is being run completes, and no loop being run is
called. -/
def proceeds (env : RunEnv) (i total attempt : Nat) (s : RunState) (w : World) : Bool :=
  match s.control with
  | .inLoop i' total' attempt' _ => (i', total', attempt') != (i, total, attempt) ||
      (!reenters env s &&
        (nextCall env s).all fun called => (callHandler env w s called.1 called.2).2.proceeds)
  | _ => true

lemma proceeds_inLoop {total attempt : Nat} {w : World}
    {frames : List LoopFrame} (hs : s.control = .inLoop i total attempt frames)
    (h : proceeds env i total attempt s w) : reenters env s = false ∧
      ∀ j step, nextCall env s = some (j, step) →
        (callHandler env w s j step).2.proceeds := by
  simp only [proceeds, hs, bne_self_eq_false, Bool.false_or, and_eq_true,
    not_eq_true'] at h
  refine ⟨h.1, fun j step hcall => ?_⟩
  have hall := h.2
  rwa [hcall] at hall

/-- The body steps of the loops being run are steps of the plan. -/
def Runnable (p : Plan) (frames : List LoopFrame) : Prop :=
  ∀ f ∈ frames, (∀ id ∈ f.todo, (bodyStep? p id).isSome) ∧
    ∀ id ∈ f.bodyStepIds, (bodyStep? p id).isSome

lemma bodyStep?_isSome (h : (p.stepIdx? id).isSome) :
    (bodyStep? p id).isSome := by
  obtain ⟨j, hj⟩ := isSome_iff_exists.1 h
  obtain ⟨step, hstep, -⟩ := Plan.stepIdx?_spec hj
  simp [bodyStep?, hj, hstep]

variable {l : LoopBody}

variable {captures : CaptureStore} {stepId : String}

lemma startLoop_failed {result : StepResult} (h : startLoop p captures stepId l = .ok (.inl result))
    :
    ∃ failureClass error, result = .failed failureClass error := by
  unfold startLoop at h
  split at h
  · cases h
  · split at h
    · cases h
      exact ⟨_, _, rfl⟩
    · split at h
      · cases h
        exact ⟨_, _, rfl⟩
      · cases h
  · cases h
    exact ⟨_, _, rfl⟩

lemma does_of_completed {w : World} {s' : RunState}
    {keys : List String} (hstep : env.plan.steps[j]? = some step)
    (h : callHandler env w s j step = (s', .returned (.completed keys))) :
    ∃ marks, Does env (.call j) s.captures marks s'.captures ∧
      s'.trace = marks.reverse ++ s.trace := by
  unfold callHandler at h
  simp only at h
  split at h
  · cases h
  · rename_i handled hcall
    obtain ⟨rfl, hresult⟩ := Prod.mk.inj h
    have hresult : handled.result = .completed keys := by simpa using hresult
    have hdoes : Does env (.call j) s.captures
        (.dispatched j :: (storeMarks j handled.captures handled.result).reverse)
        handled.captures := .leaf hstep hcall hresult
    refine ⟨_, hdoes, ?_⟩
    simp
  · split at h
    · split at h
      · cases h
      · rename_i hstart
        obtain ⟨failureClass, error, rfl⟩ := startLoop_failed hstart
        cases h
      · cases h
    · cases h

section Move

variable {env : RunEnv} {w : World} {s : RunState} {i total attempt : Nat} {step : Step}
  {frames : List LoopFrame}

/-- **A move in a loop does a part of what is left**: whatever finishes the loops from where it
leads finishes them, after the marks of the move, from where it starts.

**Proof sketch.** Four kinds of moves: a body step that completes, a loop entered, an iteration
begun, a loop left. Each is a rule of `Does` read from its conclusion. -/
lemma loopStep_does {f : LoopFrame} {outer : List LoopFrame}
    (hs : s.control = .inLoop i total attempt (f :: outer))
    (hrunnable : Runnable env.plan (f :: outer))
    (hproceeds : ∀ j body, nextCall env s = some (j, body) →
      (callHandler env w s j body).2.proceeds = true) :
    ∃ frames marks, (loopStep env w s i total attempt step (f :: outer)).control =
        .inLoop i total attempt frames ∧ Runnable env.plan frames ∧
      (loopStep env w s i total attempt step (f :: outer)).trace = marks.reverse ++ s.trace ∧
      ∀ later c', Finishes env frames
          (loopStep env w s i total attempt step (f :: outer)).captures later c' →
        Finishes env (f :: outer) s.captures (marks ++ later) c' := by
  obtain ⟨hf, houter⟩ := forall_mem_cons.1 hrunnable
  cases htodo : f.todo with
  | nil =>
    have hnoStep : Does env (.body f.todo) s.captures [] s.captures := by
      rw [htodo]
      exact .noStep
    cases hitems : f.items with
    | nil =>
      simp only [loopStep, htodo, hitems]
      refine ⟨outer, [], rfl, houter, rfl, fun later c' hlater => ?_⟩
      have hnoItem : Does env (.iterate f.loopIdx f.as f.bodyStepIds f.items) s.captures []
          s.captures := by
        rw [hitems]
        exact .noItem
      exact .cons hnoStep hnoItem hlater
    | cons v items =>
      simp only [loopStep, htodo, hitems]
      refine ⟨_, [.stored f.loopIdx f.as v], rfl, forall_mem_cons.2 ⟨⟨hf.2, hf.2⟩, houter⟩,
        rfl, fun later c' hlater => ?_⟩
      cases hlater with
      | cons hbody hrest hlast =>
        rename_i c₁ c₂ marks₁ marks₂ marks₃
        have hitem : Does env (.iterate f.loopIdx f.as f.bodyStepIds f.items) s.captures
            (.stored f.loopIdx f.as v :: (marks₁ ++ marks₂)) c₂ := by
          rw [hitems]
          exact .item hbody hrest
        have hfinishes := Finishes.cons hnoStep hitem hlast
        simpa using hfinishes
  | cons id todo =>
    have htodo' : ∀ b ∈ todo, (bodyStep? env.plan b).isSome :=
      fun b hb => hf.1 b (htodo ▸ mem_cons_of_mem _ hb)
    obtain ⟨⟨j, body⟩, hbody⟩ := isSome_iff_exists.1 (hf.1 id (htodo ▸ mem_cons_self))
    have hreply := hproceeds j body ((nextCall_inLoop hs htodo).trans hbody)
    have hmoved : Runnable env.plan ({ f with todo := todo } :: outer) :=
      forall_mem_cons.2 ⟨⟨htodo', hf.2⟩, houter⟩
    rcases hcall : callHandler env w s j body with ⟨s', reply⟩
    rw [hcall] at hreply
    simp only [loopStep, htodo, hbody, hcall]
    cases reply with
    | threw message => cases hreply
    | returned result =>
      cases result with
      | completed keys =>
        obtain ⟨marks, hdoes, htrace⟩ := does_of_completed (bodyStep?_spec hbody) hcall
        refine ⟨_, marks, rfl, hmoved, htrace, fun later c' hlater => ?_⟩
        cases hlater with
        | cons hrest hitems hlast =>
          rename_i c₁ c₂ marks₁ marks₂ marks₃
          have hstep : Does env (.body f.todo) s.captures (marks ++ marks₁) c₁ := by
            rw [htodo]
            exact .step hbody hdoes hrest
          have hfinishes := Finishes.cons hstep hitems hlast
          rwa [append_assoc] at hfinishes
      | _ => cases hreply
    | entered g =>
      obtain ⟨l, items, hl, hitems, hlen, hids, rfl, rfl⟩ := callHandler_entered_spec hcall
      have hg : ∀ b ∈ l.bodyStepIds, (bodyStep? env.plan b).isSome :=
        fun b hb => bodyStep?_isSome (hids b hb)
      have hg' : ∀ b ∈ ([] : List String), (bodyStep? env.plan b).isSome :=
        fun b hb => absurd hb not_mem_nil
      refine ⟨_, [.dispatched j], rfl, forall_mem_cons.2 ⟨⟨hg', hg⟩, hmoved⟩, rfl,
        fun later c' hlater => ?_⟩
      cases hlater with
      | cons hnone hiterate hlast =>
        cases hnone with
        | noStep =>
          cases hlast with
          | cons hrest hitems' hlast =>
            rename_i c₁ marks₁ c₂ c₃ marks₂ marks₃ marks₄
            have hdoes : Does env (.call j) s.captures (.dispatched j :: marks₁) c₁ :=
              .loop (bodyStep?_spec hbody) hl hitems hiterate
            have hstep : Does env (.body f.todo) s.captures
                ((.dispatched j :: marks₁) ++ marks₂) c₂ := by
              rw [htodo]
              exact .step hbody hdoes hrest
            have hfinishes := Finishes.cons hstep hitems' hlast
            simpa using hfinishes

/-- **The loops being run are finished**, given enough moves in which everything called completes.

**Proof sketch.** Induction on the moves: each does a part of what is left, and as each lowers the
potential, nothing is left before they run out. -/
lemma finishes_of_proceeds (hstep : env.plan.steps[i]? = some step) {ws : List World}
    (hs : s.control = .inLoop i total attempt frames) (hfits : s.control.Fits env.plan)
    (hrunnable : Runnable env.plan frames)
    (hws : (executor env).Along (fun s w => proceeds env i total attempt s w = true) s ws)
    (hlong : s.potential env < ws.length) :
    ∃ ws₁ w ws₂ marks, ws = ws₁ ++ w :: ws₂ ∧
      ((executor env).runFrom s ws₁).control = .inLoop i total attempt [] ∧
      ((executor env).runFrom s ws₁).trace = marks.reverse ++ s.trace ∧
      Finishes env frames s.captures marks ((executor env).runFrom s ws₁).captures := by
  induction ws generalizing s frames with
  | nil => exact absurd hlong (Nat.not_lt_zero _)
  | cons w ws ih =>
    cases frames with
    | nil => exact ⟨[], w, ws, [], rfl, hs, rfl, .nil⟩
    | cons f outer =>
      obtain ⟨hre, hproceeds⟩ := proceeds_inLoop hs hws.1
      have hmove : executorStep env s w = loopStep env w s i total attempt step (f :: outer) := by
        simp only [executorStep, hs, hstep]
      obtain ⟨frames, marks, hcontrol, hrunnable', htrace, hdoes⟩ :=
        loopStep_does hs hrunnable hproceeds
      obtain ⟨hfits', hlt⟩ := executorStep_lowers w hfits hre (by rw [hs]; rfl)
      rw [← hmove] at hcontrol htrace hdoes
      obtain ⟨ws₁, w', ws₂, later, rfl, hleft, htrace', hfinishes⟩ := ih hcontrol hfits' hrunnable'
        hws.2 (hlt.trans_le (Nat.le_of_lt_succ hlong))
      refine ⟨w :: ws₁, w', ws₂, marks ++ later, rfl, hleft, ?_, hdoes _ _ hfinishes⟩
      rw [Machine.runFrom_cons]
      refine htrace'.trans ?_
      rw [reverse_append, append_assoc]
      exact congrArg _ htrace

end Move

/-! ## Entering a loop -/

lemma lastIdxOf_isSome {steps : List Step} (h : id ∈ steps.map Step.id) :
    (lastIdxOf id steps).isSome := by
  induction steps with
  | nil => cases h
  | cons first rest ih =>
    unfold lastIdxOf
    rcases mem_cons.1 h with rfl | htail
    · cases lastIdxOf first.id rest <;> simp
    · obtain ⟨j, hj⟩ := isSome_iff_exists.1 (ih htail)
      rw [hj]
      rfl

lemma stepIdx?_of_accepted {ctx : SemanticValidationContext}
    (hplan : validateSemantics p ctx = .ok p)
    (hstep : p.steps[i]? = some step) (hl : step.body = .loop l) :
    ∀ id ∈ l.bodyStepIds, (p.stepIdx? id).isSome := by
  intro id hid
  have hchecks := (checks_of_accepted (validateSemantics_ok_iff.1 hplan).1 hstep).2
  simp only [checkReferences, append_eq_nil_iff, checkTargets, hl,
    flatMap_eq_nil_iff] at hchecks
  obtain ⟨n, hn⟩ := getElem?_of_mem hid
  have hknown := hchecks.1.1 (id, n) (mem_zipIdx_iff_getElem?.2 hn)
  refine lastIdxOf_isSome ?_
  by_contra hunknown
  simp [hunknown] at hknown

lemma startLoop_of_le (hitems : resolveCollection captures l.over = .ok (some (.arr items)))
    (hlen : items.length ≤ protocolMaxLoopIterations)
    (hids : ∀ id ∈ l.bodyStepIds, (p.stepIdx? id).isSome) :
    startLoop p captures stepId l = .ok (.inr (items, min items.length l.maxIterations)) := by
  have hfind : l.bodyStepIds.find? (fun b => (p.stepIdx? b).isNone) = none := by
    refine find?_eq_none.2 fun id hid => ?_
    simpa [isSome_iff_ne_none] using hids id hid
  simp only [startLoop, hitems, if_neg (Nat.not_lt.2 hlen), hfind]
  rw [min_eq_left ((min_le_left _ _).trans hlen)]

lemma startLoop_of_lt (hitems : resolveCollection captures l.over = .ok (some (.arr items)))
    (hlen : protocolMaxLoopIterations < items.length) :
    ∃ error, startLoop p captures stepId l = .ok (.inl (.failed .budgetExhausted error)) := by
  simp only [startLoop, hitems, if_pos hlen]
  exact ⟨_, rfl⟩

lemma dispatch_of_lt {total attempt : Nat}
    (hs : s.control = .dispatch i total attempt) (hstep : env.plan.steps[i]? = some step)
    (hl : step.body = .loop l)
    (hitems : resolveCollection s.captures l.over = .ok (some (.arr items)))
    (hlen : protocolMaxLoopIterations < items.length) (w : World) :
    (executorStep env s w).control = .finished (.failed .budgetExhausted) ∧
      (executorStep env s w).trace = .dispatched i :: s.trace := by
  have hleaf : handleStep env (s.mark (.dispatched i)).handlerCtx w step = none :=
    handleStep_eq_none_iff.2 ⟨l, hl⟩
  obtain ⟨error, hstart⟩ : ∃ error, startLoop env.plan s.captures step.id l =
      .ok (.inl (.failed .budgetExhausted error)) := startLoop_of_lt hitems hlen
  simp only [executorStep, hs, dispatchStep, hstep, callHandler, hleaf, hl,
    RunState.mark_captures, hstart, settle]
  exact ⟨rfl, rfl⟩

/-- **What a loop runs.** In an accepted plan, when the cursor comes to a loop step over a list of
`n` items, `n` within the protocol's limit, and everything called while the loop is being run
completes and re-enters no loop, then the loop is left as completed, and what was done is its
iterations over the first `min n maxIterations` items: for each in order its variable bound to it,
then each body step in the order of the list. A longer list fails the step before its first
iteration.

**Proof sketch.** The call enters the loop, its moves finish it, and its result is settled. -/
theorem loop_does_iterate {env : RunEnv} {ctx : SemanticValidationContext}
    (hplan : validateSemantics env.plan ctx = .ok env.plan) {s : RunState} {i total attempt : Nat}
    {step : Step} {l : LoopBody} {items : List Value} (hs : s.control = .dispatch i total attempt)
    (hstep : env.plan.steps[i]? = some step) (hl : step.body = .loop l)
    (hitems : resolveCollection s.captures l.over = .ok (some (.arr items))) (ws : List World)
    (hws : (executor env).Along (fun s w => proceeds env i total attempt s w = true) s ws)
    (hlong : s.potential env < ws.length) :
    (items.length ≤ protocolMaxLoopIterations →
      ∃ ws₁ ws₂ marks, ws = ws₁ ++ ws₂ ∧
        ((executor env).runFrom s ws₁).control = .saving i total ∧
        ((executor env).runFrom s ws₁).trace = marks.reverse ++ .dispatched i :: s.trace ∧
        Does env (.iterate i l.as l.bodyStepIds (items.take (min items.length l.maxIterations)))
          s.captures marks ((executor env).runFrom s ws₁).captures ∧
        (NoLoop env.plan l.bodyStepIds → ∀ j, marks.countP (Mark.isCallOf j) =
          min items.length l.maxIterations * listed env.plan j l.bodyStepIds)) ∧
    (protocolMaxLoopIterations < items.length → ∀ w,
      (executorStep env s w).control = .finished (.failed .budgetExhausted) ∧
      (executorStep env s w).trace = .dispatched i :: s.trace) := by
  have hids := stepIdx?_of_accepted hplan hstep hl
  have hi : i < env.plan.steps.length := (List.getElem?_eq_some_iff.1 hstep).1
  constructor
  · intro hlen
    cases ws with
    | nil => exact absurd hlong (Nat.not_lt_zero _)
    | cons w ws =>
      have hstart : startLoop env.plan s.captures step.id l =
          .ok (.inr (items, min items.length l.maxIterations)) := startLoop_of_le hitems hlen hids
      have hleaf : handleStep env (s.mark (.dispatched i)).handlerCtx w step = none :=
        handleStep_eq_none_iff.2 ⟨l, hl⟩
      have hmove : executorStep env s w = (s.mark (.dispatched i)).goto (.inLoop i total attempt
          [⟨i, l.as, l.bodyStepIds, items.take (min items.length l.maxIterations), []⟩]) := by
        simp only [executorStep, hs, dispatchStep, hstep, callHandler, hleaf, hl,
          RunState.mark_captures, hstart]
      have hfits : s.control.Fits env.plan := by
        rw [hs]
        exact hi
      have hre : reenters env s = false := by simp [reenters, Control.running, hs]
      obtain ⟨hfits', hlt⟩ := executorStep_lowers w hfits hre (by rw [hs]; rfl)
      have hrunnable : Runnable env.plan
          [⟨i, l.as, l.bodyStepIds, items.take (min items.length l.maxIterations), []⟩] :=
        List.forall_mem_singleton.2 ⟨fun b hb => absurd hb List.not_mem_nil,
          fun b hb => bodyStep?_isSome (hids b hb)⟩
      obtain ⟨ws₁, w', ws₂, marks, rfl, hleft, htrace, hfinishes⟩ := finishes_of_proceeds hstep
        (by rw [hmove]; rfl) hfits' hrunnable hws.2 (hlt.trans_le (Nat.le_of_lt_succ hlong))
      generalize htdef : (executor env).runFrom (executorStep env s w) ws₁ = t
        at hleft htrace hfinishes
      have hrun : (executor env).runFrom s (w :: ws₁ ++ [w']) =
          settle env t i total attempt step (.completed []) := by
        have hlast : executorStep env t w' = settle env t i total attempt step (.completed []) := by
          simp only [executorStep, hleft, hstep, loopStep]
        rw [List.cons_append, Machine.runFrom_cons, Machine.runFrom_concat, ← hlast, ← htdef]
        rfl
      have hiterate : Does env (.iterate i l.as l.bodyStepIds
          (items.take (min items.length l.maxIterations))) s.captures marks t.captures := by
        rw [hmove] at hfinishes
        cases hfinishes with
        | cons hnone hiterate houter =>
          cases hnone with
          | noStep =>
            cases houter with
            | nil => simpa using hiterate
      refine ⟨w :: ws₁ ++ [w'], ws₂, marks, by simp, ?_, ?_, ?_, fun hleaves j => ?_⟩
      · rw [hrun]
        rfl
      · rw [hrun, settle_trace, htrace, hmove]
        rfl
      · rw [hrun, settle_captures]
        exact hiterate
      · rw [countP_of_iterate hleaves hiterate, List.length_take,
          min_eq_left (min_le_left items.length l.maxIterations)]
  · exact fun hlen => dispatch_of_lt hs hstep hl hitems hlen

/-! ## A loop over the rows of a page -/

/-- An accepted plan: the rows of a page are extracted to the name of the step the loop refers to,
and the loop clicks once for each. -/
def listPlan : Plan where
  taskId := "t1"
  planId := "p1"
  defaultScope := .authenticated
  steps := [
    { id := "s1"
      body := .extract (.intent .table none none)
        (.object [("rows", .array (.primitive .string))]) "s1" },
    { id := "s2"
      body := .extract (.intent .table none none) (.array (.primitive .string)) "s1" },
    { id := "s3"
      body := .loop ⟨.capture ⟨"s1", some "rows"⟩, "row", ["s4"], 10⟩ },
    { id := "s4", body := .click {} (.intent .button none none) none }]

def listEnv : RunEnv where
  runId := "r1"
  plan := listPlan
  params := OrderedMap.empty
  workflowLocators := none
  browser := true
  gateway := false
  llm := false
  urlHost := fun _ => none

/-- A page with `n` rows. -/
def rowsWorld (n : Nat) : World := { raw := .arr (List.replicate n (.str "row")) }

lemma listEnv_at_loop (n : Nat) :
    ((executor listEnv).run (replicate 8 (rowsWorld n))).control = .dispatch 2 3 0 ∧
      resolveCollection ((executor listEnv).run (replicate 8 (rowsWorld n))).captures
          (.capture ⟨"s1", some "rows"⟩) =
        .ok (some (.arr (replicate n (.str "row")))) := by
  refine ⟨rfl, ?_⟩
  have hrows : resolveCollection ((executor listEnv).run (replicate 8 (rowsWorld n))).captures
      (.capture ⟨"s1", some "rows"⟩) =
      .ok (some (.arr (envelopeRows (rowsWorld n).raw (.array (.primitive .string))))) := rfl
  rw [hrows]
  simp [envelopeRows, rowsWorld]

lemma listEnv_fails {n : Nat} (h : protocolMaxLoopIterations < n) :
    ((executor listEnv).run (replicate 9 (rowsWorld n))).control =
      .finished (.failed .budgetExhausted) := by
  obtain ⟨hs, hitems⟩ := listEnv_at_loop n
  rw [replicate_succ', Machine.run, Machine.runFrom_concat]
  refine (dispatch_of_lt hs rfl rfl hitems ?_ (rowsWorld n)).1
  rwa [length_replicate]

theorem loop_does_iterate_rows :
    let s := (executor listEnv).run (List.replicate 8 (rowsWorld 2))
    ∃ ws marks, ((executor listEnv).runFrom s ws).control = .saving 2 3 ∧
      ((executor listEnv).runFrom s ws).trace = marks.reverse ++ .dispatched 2 :: s.trace ∧
      Does listEnv (.iterate 2 "row" ["s4"] [.str "row", .str "row"]) s.captures marks
        ((executor listEnv).runFrom s ws).captures ∧
      marks.countP (Mark.isCallOf 3) = 2 := by
  intro s
  have hplan : validateSemantics listEnv.plan = .ok listEnv.plan :=
    validateSemantics_ok_iff.2 ⟨by decide, rfl⟩
  have hws : (executor listEnv).Along (fun s w => proceeds listEnv 2 3 0 s w = true) s
      (List.replicate (12 + s.potential listEnv) (rowsWorld 2)) := by
    rw [List.replicate_add]
    refine (Machine.along_append _ _ _).2 ⟨by decide, ?_⟩
    exact along_of_stopped rfl (fun _ => rfl) _
  obtain ⟨hruns, -⟩ := loop_does_iterate hplan (listEnv_at_loop 2).1 rfl rfl (listEnv_at_loop 2).2 _
    hws (by
      rw [List.length_replicate]
      exact Nat.lt_add_of_pos_left (by decide))
  obtain ⟨ws, -, marks, -, hleft, htrace, hdoes, hcount⟩ := hruns (by decide)
  refine ⟨ws, marks, hleft, htrace, hdoes, hcount ?_ 3⟩
  intro id hid j step l hbody hl
  obtain rfl := List.mem_singleton.1 hid
  cases hbody
  cases hl

/-- The validators accept the plan. Over two rows its loop calls the click twice, and the cursor
once more after the loop; over more than a thousand the loop fails before it calls anything. -/
theorem body_called_after_loop :
    listPlan.schemaValid ∧ validateSemantics listPlan = .ok listPlan ∧
      ((executor listEnv).run (List.replicate 20 (rowsWorld 2))).control =
        .finished (.completed []) ∧
      ((executor listEnv).run (List.replicate 20 (rowsWorld 2))).trace.countP (Mark.isCallOf 3)
    ≠ min 2 10 ∧
      ((executor listEnv).run (List.replicate 9 (rowsWorld 1001))).control =
        .finished (.failed .budgetExhausted) ∧
      ((executor listEnv).run (List.replicate 9 (rowsWorld 1001))).trace.countP (Mark.isCallOf 3)
    ≠ min 1001 10 := by
  refine ⟨by decide, validateSemantics_ok_iff.2 ⟨by decide, rfl⟩, rfl, by decide, ?_,
    by decide +kernel⟩
  exact listEnv_fails (by decide)

end Yantra
