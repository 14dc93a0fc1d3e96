import Yantra.Executor.Run

/-!
# The consent gate of the executor

The confirmation checkpoint stands in the cursor loop only. Calls from the cursor loop are
gated by it in every run; a loop calls its body steps directly, and this is the one way round
the gate.

## Main definitions

* `ConsentGated` — every call of a flagged step's handler came after a grant for that
  step in that visit.
* `GateInv` — what the gate keeps at every point of a run.

## Main results

* `consentGated_iff_no_bypass` — a run is consent-gated exactly when no loop of it comes
  to call a flagged step.
* `flagged_body_step_bypasses_gate` — a loop calls a flagged click with no gateway wired.
-/

namespace Yantra

open List

/-! ## Consent -/

def GatewayReply.grants : GatewayReply → Bool
  | .decided .granted _ => true
  | _ => false

/-- The step the cursor visits. -/
def currentVisit : List Mark → Option Nat
  | [] => none
  | .visit i :: _ => some i
  | .answered _ _ :: older => currentVisit older
  | .dispatched _ :: older => currentVisit older
  | .stored _ _ _ :: older => currentVisit older

def currentAnswer : List Mark → Option (ConfirmationRequest × GatewayReply)
  | [] => none
  | .visit _ :: _ => none
  | .answered request reply :: _ => some (request, reply)
  | .dispatched _ :: older => currentAnswer older
  | .stored _ _ _ :: older => currentAnswer older

def GrantsOnly (trace : List Mark) : Prop :=
  ∀ request reply, Mark.answered request reply ∈ trace → reply.grants

/-- Step `i` is the one visited, a gateway is wired, it granted the request of that step in this
visit, and no answer so far was anything but a grant. -/
def Consented (env : RunEnv) (i : Nat) (step : Step) (trace : List Mark) : Prop :=
  currentVisit trace = some i ∧ env.gateway ∧
    (∃ request reply, currentAnswer trace = some (request, reply) ∧ request.stepId = step.id ∧
      reply.grants) ∧
    GrantsOnly trace

/-- Every call of a flagged step's handler came after consent. -/
def ConsentGated (env : RunEnv) : List Mark → Prop
  | [] => True
  | .dispatched i :: older =>
      (∀ step, env.plan.steps[i]? = some step → step.requiresConfirmation →
        Consented env i step older) ∧ ConsentGated env older
  | .visit _ :: older => ConsentGated env older
  | .answered _ _ :: older => ConsentGated env older
  | .stored _ _ _ :: older => ConsentGated env older

/-- A loop of the run is about to call the handler of a flagged step. -/
def bypassesGate (env : RunEnv) (s : RunState) : Bool :=
  match s.control with
  | .inLoop _ _ _ (f :: _) =>
    match f.todo with
    | id :: _ => (bodyStep? env.plan id).any fun jb => jb.2.requiresConfirmation
    | [] => false
  | _ => false

/-! ## Marks that change nothing about consent -/

/-- A mark other than a visit or an answer. -/
def Mark.quiet : Mark → Bool
  | .dispatched _ => true
  | .stored _ _ _ => true
  | _ => false

lemma currentVisit_append {ms : List Mark} (h : ∀ m ∈ ms, m.quiet) (trace : List Mark) :
    currentVisit (ms ++ trace) = currentVisit trace := by
  induction ms with
  | nil => rfl
  | cons m ms ih =>
    have hm := h m (mem_cons_self ..)
    have hms := ih fun x hx => h x (mem_cons_of_mem _ hx)
    cases m with
    | visit i => cases hm
    | answered request reply => cases hm
    | dispatched i => exact hms
    | stored i key v => exact hms

lemma currentAnswer_append {ms : List Mark} (h : ∀ m ∈ ms, m.quiet) (trace : List Mark) :
    currentAnswer (ms ++ trace) = currentAnswer trace := by
  induction ms with
  | nil => rfl
  | cons m ms ih =>
    have hm := h m (mem_cons_self ..)
    have hms := ih fun x hx => h x (mem_cons_of_mem _ hx)
    cases m with
    | visit i => cases hm
    | answered request reply => cases hm
    | dispatched i => exact hms
    | stored i key v => exact hms

variable {ms trace : List Mark}

lemma grantsOnly_append (h : ∀ m ∈ ms, m.quiet) (ht : GrantsOnly trace) :
    GrantsOnly (ms ++ trace) := by
  intro request reply hmem
  rcases mem_append.1 hmem with hms | ht'
  · have := h _ hms
    simp [Mark.quiet] at this
  · exact ht request reply ht'

variable {env : RunEnv} {step : Step}

lemma consented_append {i : Nat} (h : ∀ m ∈ ms, m.quiet) (ht : Consented env i step trace) :
    Consented env i step (ms ++ trace) := by
  obtain ⟨hv, hg, ha, ho⟩ := ht
  refine ⟨(currentVisit_append h trace).trans hv, hg, ?_, grantsOnly_append h ho⟩
  rw [currentAnswer_append h trace]
  exact ha

lemma consentGated_stores {j : Nat} {stores : List Mark}
    (h : ∀ m ∈ stores, ∃ key v, m = Mark.stored j key v) (trace : List Mark) :
    ConsentGated env (stores ++ trace) ↔ ConsentGated env trace := by
  induction stores with
  | nil => rfl
  | cons m ms ih =>
    obtain ⟨key, v, rfl⟩ := h m (mem_cons_self ..)
    exact ih fun x hx => h x (mem_cons_of_mem _ hx)

lemma callHandler_quiet (env : RunEnv) (w : World) (s : RunState) (j : Nat) (step : Step) :
    ∃ ms, (∀ m ∈ ms, Mark.quiet m) ∧ (callHandler env w s j step).1.trace = ms ++ s.trace := by
  obtain ⟨stores, hstores, htrace⟩ := callHandler_trace env w s j step
  refine ⟨stores ++ [.dispatched j], fun m hm => ?_, by simp [htrace]⟩
  rcases mem_append.1 hm with hs | hd
  · obtain ⟨key, v, rfl⟩ := hstores m hs
    rfl
  · rw [mem_singleton] at hd
    subst hd
    rfl

/-- What a call of step `j` adds to the question whether a run is gated. -/
lemma consentGated_callHandler (env : RunEnv) (w : World) (s : RunState) (j : Nat) (step : Step)
    (hj : env.plan.steps[j]? = some step) :
    ConsentGated env (callHandler env w s j step).1.trace ↔
      (step.requiresConfirmation → Consented env j step s.trace) ∧ ConsentGated env s.trace := by
  obtain ⟨stores, hstores, htrace⟩ := callHandler_trace env w s j step
  rw [htrace, consentGated_stores hstores]
  constructor
  · rintro ⟨hc, hg⟩
    exact ⟨hc step hj, hg⟩
  · rintro ⟨hc, hg⟩
    refine ⟨fun t ht hf => ?_, hg⟩
    obtain rfl : step = t := by simpa [hj] using ht
    exact hc hf

/-! ## The invariant -/

def GateInv (env : RunEnv) (trace : List Mark) : Control → Prop
  | .starting | .cursor _ _ | .saving _ _ => GrantsOnly trace
  | .gate i _ request =>
      GrantsOnly trace ∧ env.gateway ∧ currentVisit trace = some i ∧
        ∃ step, env.plan.steps[i]? = some step ∧ request.stepId = step.id ∧
          step.requiresConfirmation
  | .dispatch i _ _ =>
      GrantsOnly trace ∧ ∃ step, env.plan.steps[i]? = some step ∧
        if step.requiresConfirmation then Consented env i step trace
        else currentAnswer trace = none
  | .inLoop i _ _ _ =>
      GrantsOnly trace ∧ currentAnswer trace = none ∧
        ∃ step, env.plan.steps[i]? = some step ∧ step.requiresConfirmation = false
  | .finished _ | .threw _ => True

variable {s : RunState} {i total attempt : Nat}

/-- Settling a result keeps the invariant: a retry stays in its visit, and anything else leaves
it. -/
lemma gateInv_settle (r : StepResult) (hg : GrantsOnly s.trace)
    (hi : env.plan.steps[i]? = some step)
    (hc : if step.requiresConfirmation then Consented env i step s.trace
      else currentAnswer s.trace = none) :
    GateInv env (settle env s i total attempt step r).trace
      (settle env s i total attempt step r).control := by
  rw [settle_trace]
  rcases settle_control env s i total attempt step r with h | h | ⟨j, h⟩ | ⟨o, h⟩
  · rw [h]
    exact ⟨hg, step, hi, hc⟩
  · rw [h]
    exact hg
  · rw [h]
    exact hg
  · rw [h]
    trivial

variable {w : World}

lemma gateInv_startStep {i total : Nat} (hg : GrantsOnly s.trace) :
    GateInv env (startStep env w s i total).trace (startStep env w s i total).control := by
  have hvisit : GrantsOnly (.visit i :: s.trace) := fun request reply hm => by
    rcases mem_cons.1 hm with h | h
    · cases h
    · exact hg request reply h
  unfold startStep
  cases hstep : env.plan.steps[i]? with
  | none => trivial
  | some step =>
    by_cases hmax : maxTotalStepExecutions < total + 1
    · simp only [if_pos hmax]
      trivial
    · simp only [if_neg hmax]
      by_cases hf : step.requiresConfirmation
      · by_cases hgw : env.gateway
        · simp only [if_pos hf, if_pos hgw]
          exact ⟨hvisit, hgw, rfl, step, hstep, rfl, hf⟩
        · simp only [if_pos hf, if_neg hgw]
          trivial
      · simp only [if_neg hf]
        refine ⟨hvisit, step, hstep, ?_⟩
        rw [if_neg hf]
        rfl

lemma gateInv_answerGate {i total : Nat} {request : ConfirmationRequest}
    (h : GateInv env s.trace (.gate i total request)) :
    GateInv env (answerGate w s i total request).trace
      (answerGate w s i total request).control := by
  obtain ⟨hg, hgw, hv, step, hi, hid, hf⟩ := h
  unfold answerGate
  cases hreply : w.gateway with
  | parked => trivial
  | threw => trivial
  | decided decision decidedBy =>
    cases decision with
    | denied => trivial
    | timedOut => trivial
    | granted =>
      have hgrants : GrantsOnly (.answered request (.decided .granted decidedBy) :: s.trace) := by
        intro request' reply hm
        rcases mem_cons.1 hm with heq | hold
        · cases heq
          rfl
        · exact hg request' reply hold
      refine ⟨hgrants, step, hi, ?_⟩
      rw [if_pos hf]
      exact ⟨hv, hgw, ⟨request, _, rfl, hid, rfl⟩, hgrants⟩

lemma gateInv_dispatchStep (hp : env.plan.schemaValid)
    (h : GateInv env s.trace (.dispatch i total attempt)) :
    GateInv env (dispatchStep env w s i total attempt).trace
      (dispatchStep env w s i total attempt).control := by
  obtain ⟨hg, step, hi, hc⟩ := h
  obtain ⟨ms, hms, htrace⟩ := callHandler_quiet env w s i step
  have hg' : GrantsOnly (callHandler env w s i step).1.trace := by
    rw [htrace]
    exact grantsOnly_append hms hg
  have hc' : if step.requiresConfirmation then
      Consented env i step (callHandler env w s i step).1.trace
      else currentAnswer (callHandler env w s i step).1.trace = none := by
    rw [htrace, currentAnswer_append hms]
    split_ifs with hf
    · exact consented_append hms (by simpa [hf] using hc)
    · simpa [hf] using hc
  unfold dispatchStep
  rcases hcall : callHandler env w s i step with ⟨s', reply⟩
  rw [hcall] at hg' hc'
  simp only [hi, hcall]
  cases reply with
  | threw message => trivial
  | returned result => exact gateInv_settle result hg' hi hc'
  | entered frame =>
    obtain ⟨l, hl⟩ := callHandler_entered hcall
    have hf := Plan.schemaValid_loop_unflagged hp (mem_of_getElem? hi) hl
    exact ⟨hg', by simpa [hf] using hc', step, hi, hf⟩

lemma gateInv_loopStep (hg : GrantsOnly s.trace) (ha : currentAnswer s.trace = none)
    (hi : env.plan.steps[i]? = some step) (hf : step.requiresConfirmation = false)
    (frames : List LoopFrame) :
    GateInv env (loopStep env w s i total attempt step frames).trace
      (loopStep env w s i total attempt step frames).control := by
  cases frames with
  | nil => exact gateInv_settle _ hg hi (by simpa [hf] using ha)
  | cons f outer =>
    cases htodo : f.todo with
    | nil =>
      cases hitems : f.items with
      | nil =>
        simp only [loopStep, htodo, hitems]
        exact ⟨hg, ha, step, hi, hf⟩
      | cons v items =>
        simp only [loopStep, htodo, hitems]
        have hquiet : ∀ m ∈ [Mark.stored f.loopIdx f.as v], m.quiet := by simp [Mark.quiet]
        exact ⟨grantsOnly_append hquiet hg, ha, step, hi, hf⟩
    | cons id todo =>
      cases hbody : bodyStep? env.plan id with
      | none =>
        simp only [loopStep, htodo, hbody]
        exact ⟨hg, ha, step, hi, hf⟩
      | some jb =>
        obtain ⟨j, body⟩ := jb
        obtain ⟨ms, hms, htrace⟩ := callHandler_quiet env w s j body
        have hg' : GrantsOnly (callHandler env w s j body).1.trace := by
          rw [htrace]
          exact grantsOnly_append hms hg
        have ha' : currentAnswer (callHandler env w s j body).1.trace = none := by
          rw [htrace, currentAnswer_append hms, ha]
        rcases hcall : callHandler env w s j body with ⟨s', reply⟩
        rw [hcall] at hg' ha'
        simp only [loopStep, htodo, hbody, hcall]
        cases reply with
        | threw message => trivial
        | entered g => exact ⟨hg', ha', step, hi, hf⟩
        | returned result =>
          cases result with
          | completed keys => exact ⟨hg', ha', step, hi, hf⟩
          | _ => exact gateInv_settle _ hg' hi (by simpa [hf] using ha')

/-- **The step lemma of the gate.** Every step of the executor keeps the invariant. -/
lemma gateInv_step (hp : env.plan.schemaValid) (s : RunState) (w : World)
    (h : GateInv env s.trace s.control) :
    GateInv env (executorStep env s w).trace (executorStep env s w).control := by
  unfold executorStep
  cases hc : s.control with
  | starting =>
    rw [hc] at h
    simp only [startRun]
    split
    · trivial
    · split
      · trivial
      · exact h
  | cursor i total =>
    rw [hc] at h
    exact gateInv_startStep h
  | gate i total request =>
    rw [hc] at h
    exact gateInv_answerGate h
  | dispatch i total attempt =>
    rw [hc] at h
    exact gateInv_dispatchStep hp h
  | inLoop i total attempt frames =>
    rw [hc] at h
    obtain ⟨hg, ha, step, hi, hf⟩ := h
    simp only [hi]
    exact gateInv_loopStep hg ha hi hf frames
  | saving i total =>
    rw [hc] at h
    simp only [saveCheckpoint]
    split
    · rw [hc]
      exact h
    · split_ifs
      · exact h
      · trivial
  | finished o =>
    simp only [hc]
    trivial
  | threw message =>
    simp only [hc]
    trivial

/-! ## When a run is gated -/

/-- A move of a loop whose visit has no answer stays gated exactly when it calls no flagged
step. -/
lemma consentGated_loopStep {frames : List LoopFrame}
    (hs : s.control = .inLoop i total attempt frames) (ha : currentAnswer s.trace = none) :
    ConsentGated env (loopStep env w s i total attempt step frames).trace ↔
      ConsentGated env s.trace ∧ bypassesGate env s = false := by
  cases frames with
  | nil =>
    have hb : bypassesGate env s = false := by simp [bypassesGate, hs]
    simp [loopStep, hb]
  | cons f outer =>
    cases htodo : f.todo with
    | nil =>
      have hb : bypassesGate env s = false := by simp [bypassesGate, hs, htodo]
      cases hitems : f.items with
      | nil => simp [loopStep, htodo, hitems, hb]
      | cons v items => simp [loopStep, htodo, hitems, hb, ConsentGated]
    | cons id todo =>
      cases hbody : bodyStep? env.plan id with
      | none =>
        have hb : bypassesGate env s = false := by simp [bypassesGate, hs, htodo, hbody]
        simp [loopStep, htodo, hbody, hb]
      | some jb =>
        obtain ⟨j, body⟩ := jb
        have hb : bypassesGate env s = body.requiresConfirmation := by
          simp [bypassesGate, hs, htodo, hbody]
        have hcall := consentGated_callHandler env w s j body (bodyStep?_spec hbody)
        have hno : ¬ Consented env j body s.trace := by
          rintro ⟨-, -, ⟨request, reply, hans, -⟩, -⟩
          rw [ha] at hans
          cases hans
        have key : ConsentGated env (callHandler env w s j body).1.trace ↔
            ConsentGated env s.trace ∧ bypassesGate env s = false := by
          rw [hcall, hb]
          cases body.requiresConfirmation <;> simp [hno]
        rcases hreply : callHandler env w s j body with ⟨s', reply⟩
        rw [hreply] at key
        simp only [loopStep, htodo, hbody, hreply]
        cases reply with
        | threw message => exact key
        | entered g => exact key
        | returned result =>
          cases result with
          | completed keys => exact key
          | _ => simpa using key

lemma consentGated_dispatchStep (h : GateInv env s.trace (.dispatch i total attempt)) :
    ConsentGated env (dispatchStep env w s i total attempt).trace ↔
      ConsentGated env s.trace := by
  obtain ⟨-, step, hi, hc⟩ := h
  have hcall := consentGated_callHandler env w s i step hi
  have key : ConsentGated env (callHandler env w s i step).1.trace ↔
      ConsentGated env s.trace := by
    rw [hcall]
    refine ⟨And.right, fun hg => ⟨fun hf => ?_, hg⟩⟩
    simpa [hf] using hc
  unfold dispatchStep
  rcases hreply : callHandler env w s i step with ⟨s', reply⟩
  rw [hreply] at key
  simp only [hi, hreply]
  cases reply with
  | threw message => exact key
  | entered g => exact key
  | returned result => simpa using key

lemma consentGated_step (s : RunState) (w : World) (h : GateInv env s.trace s.control) :
    ConsentGated env (executorStep env s w).trace ↔
      ConsentGated env s.trace ∧ bypassesGate env s = false := by
  unfold executorStep
  cases hc : s.control with
  | starting =>
    simp only [startRun, bypassesGate, hc, and_true]
    split
    · rfl
    · split <;> rfl
  | cursor i total =>
    simp only [startStep, bypassesGate, hc, and_true]
    split
    · rfl
    · split_ifs <;> rfl
  | gate i total request =>
    simp only [answerGate, applyDecision, bypassesGate, hc, and_true]
    split
    · split_ifs <;> rfl
    · split_ifs <;> rfl
    · rfl
  | dispatch i total attempt =>
    rw [hc] at h
    have hb : bypassesGate env s = false := by simp [bypassesGate, hc]
    simpa [hb] using consentGated_dispatchStep h
  | inLoop i total attempt frames =>
    rw [hc] at h
    obtain ⟨-, ha, step, hi, -⟩ := h
    simp only [hi]
    exact consentGated_loopStep hc ha
  | saving i total =>
    simp only [saveCheckpoint, bypassesGate, hc, and_true]
    split
    · rfl
    · split_ifs <;> rfl
  | finished o => simp [bypassesGate, hc]
  | threw message => simp [bypassesGate, hc]

/-- A state the executor is entered in: by `run`, or by `resumeFrom` at any step, with whatever
captures, budgets, page and files there are. -/
def RunState.Entry (s : RunState) : Prop :=
  s.trace = [] ∧ (s.control = .starting ∨ ∃ i, s.control = .cursor i 0)

lemma RunState.Entry.gateInv (h : s.Entry) (env : RunEnv) :
    GateInv env s.trace s.control := by
  obtain ⟨ht, hc⟩ := h
  have hg : GrantsOnly s.trace := by simp [ht, GrantsOnly]
  rcases hc with hc | ⟨i, hc⟩
  · rw [hc]
    exact hg
  · rw [hc]
    exact hg

/-- From a point that keeps the invariant, a run is gated exactly when it was and no loop of it
comes to call a flagged step. -/
lemma consentGated_runFrom (hp : env.plan.schemaValid) (ws : List World) :
    ∀ s : RunState, GateInv env s.trace s.control →
      (ConsentGated env ((executor env).runFrom s ws).trace ↔
        ConsentGated env s.trace ∧
          (executor env).Along (fun s _ => bypassesGate env s = false) s ws) := by
  induction ws with
  | nil => simp
  | cons w ws ih =>
    intro s hs
    rw [Machine.runFrom_cons, Machine.along_cons]
    have hstep : (executor env).step s w = executorStep env s w := rfl
    rw [hstep, ih _ (gateInv_step hp s w hs), consentGated_step s w hs, and_assoc]

/-- **The gate and the way round it.** For a plan the schema accepts, whatever the gateway and
the rest of the world answer, a run is consent-gated exactly when no loop of it comes to call a
flagged step.

**Proof sketch.** The cursor loop keeps `GateInv`: a flagged step is dispatched, and retried,
only with the grant of its own visit still the last answer. A loop step is never flagged, so the
visit of a loop has no answer, and a flagged body step it calls has no consent. -/
theorem consentGated_iff_no_bypass {env : RunEnv} (hp : env.plan.schemaValid) {s : RunState}
    (hs : s.Entry) (ws : List World) :
    ConsentGated env ((executor env).runFrom s ws).trace ↔
      (executor env).Along (fun s _ => bypassesGate env s = false) s ws := by
  rw [consentGated_runFrom hp ws s (hs.gateInv env), hs.1]
  simp [ConsentGated]

def flaggedBodyPlan : Plan where
  taskId := "t1"
  planId := "p1"
  defaultScope := .authenticated
  steps := [
    { id := "s1"
      body := .extract (.intent .table none none)
        (.object [("rows", .array (.primitive .string))]) "s1" },
    { id := "s2"
      body := .loop ⟨.capture ⟨"s1", some "rows"⟩, "row", ["s3"], 10⟩ },
    { id := "s3"
      requiresConfirmation := true
      body := .click {} (.intent .button none none) none }]

def flaggedBodyEnv : RunEnv where
  runId := "r1"
  plan := flaggedBodyPlan
  params := OrderedMap.empty
  workflowLocators := none
  browser := true
  gateway := false
  llm := false
  urlHost := fun _ => none

/-- The run rule applied to the steps before the loop is entered. -/
theorem consentGated_iff_no_bypass_flaggedBody :
    flaggedBodyPlan.schemaValid ∧ (executor flaggedBodyEnv).init.Entry ∧
      (ConsentGated flaggedBodyEnv
          ((executor flaggedBodyEnv).runFrom (executor flaggedBodyEnv).init
            (List.replicate 5 {})).trace ↔
        (executor flaggedBodyEnv).Along (fun s _ => bypassesGate flaggedBodyEnv s = false)
          (executor flaggedBodyEnv).init (List.replicate 5 {})) :=
  have hp : flaggedBodyEnv.plan.schemaValid := by decide
  ⟨hp, ⟨rfl, .inl rfl⟩, consentGated_iff_no_bypass hp ⟨rfl, .inl rfl⟩ _⟩

/-- The validators accept the plan, no gateway is wired, and the eighth move of its run is the
loop's call of the flagged click. -/
theorem flagged_body_step_bypasses_gate :
    flaggedBodyPlan.schemaValid ∧
      validateSemantics flaggedBodyPlan = .ok flaggedBodyPlan ∧
      ¬ ConsentGated flaggedBodyEnv
        ((executor flaggedBodyEnv).runFrom (executor flaggedBodyEnv).init
          (List.replicate 8 {})).trace := by
  refine ⟨by decide, validateSemantics_ok_iff.2 ⟨by decide, rfl⟩, fun h => ?_⟩
  have hconsent : Consented flaggedBodyEnv 2 _ _ := h.1 _ rfl rfl
  have hwired : flaggedBodyEnv.gateway = true := hconsent.2.1
  cases hwired

end Yantra
