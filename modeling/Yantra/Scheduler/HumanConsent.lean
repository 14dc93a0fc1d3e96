import Yantra.Executor.ConsentGate
import Yantra.Scheduler.ParkedRuns

/-!
# A human's grant and the resumes that replay it

A grant is meant for one step and one execution of it. The gateway of a resumed run looks neither
at the step of the request it grants nor at whether the grant was replayed before, and the poll
takes a decision the gateway itself made for a human's. A grant stays bound where each replay
stands on a human's own, latest, decision for the very step.

## Main definitions

* `RunDir.grantedStep` — the step a human's decision, the latest of the log, granted.
* `ConsentInv` — the invariant.

## Main results

* `consentBound_of_replaysOwnGrant` — a run whose steps all meet the condition is bound.
* `replayed_grant_is_not_bound` — a grant executes another step, and one grant executes a
  step twice.
-/

namespace Yantra

open List Option Execution OrderedMap RunDir UnattendedGateway

/-! ## The property -/

/-- For no step of a run has the gateway of a resume granted, or a resumed run executed, more
often than a human granted requests of that step. -/
def SchedulerState.ConsentBound (s : SchedulerState) : Prop :=
  ∀ runId stepId, s.executed.count (runId, stepId) ≤ s.granted.count (runId, stepId) ∧
    s.replayed.count (runId, stepId) ≤ s.granted.count (runId, stepId)

/-- The step whose request the latest decision in the log grants, when a human made it. -/
def RunDir.grantedStep (dir : RunDir) (runId : String) : Option String :=
  if dir.humanDecided then
    match latestDecision dir.confirmations runId with
    | some d =>
      if d.decision = .granted then
        ((requestsOf dir.confirmations).find? fun q =>
          decide (q.confirmationId = d.confirmationId)).map ConfirmationRequest.stepId
      else none
    | none => none
  else none

/-- What a step must meet: an executor whose gateway is about to grant stands at the step the
run's latest decision, a human's, grants; and no loop of a resumed run is about to call a flagged
step. -/
def ReplaysOwnGrant (s : SchedulerState) : SchedulerAction → Prop
  | .execute j _ => ∀ e ∈ s.executions[j]?, ∀ dir ∈ s.runs.get? e.runId,
      (∀ id ∈ e.replays, dir.grantedStep e.runId = some id) ∧
        (e.resumed → bypassesGate e.env e.state = false)
  | _ => True

instance (s : SchedulerState) (a : SchedulerAction) : Decidable (ReplaysOwnGrant s a) := by
  unfold ReplaysOwnGrant
  cases a <;> infer_instance

/-! ## The invariant -/

/-- The flagged step of a resumed run that has been granted and is not yet executed. -/
def Execution.awaits (e : Execution) : Option (String × String) :=
  if e.resumed then
    match e.state.control with
    | .dispatch i _ 0 =>
        ((e.env.plan.steps[i]?).filter Step.requiresConfirmation).map fun step => (e.runId, step.id)
    | _ => none
  else none

/-- An executor is at work on a run there is, and a request it waits for is in the log, for the
step it has come to. -/
def Execution.InRun (runs : OrderedMap String RunDir) (e : Execution) : Prop :=
  e.env.runId = e.runId ∧ ∃ dir, runs.get? e.runId = some dir ∧
    ∀ i total q, e.state.control = .gate i total q →
      q ∈ requestsOf dir.confirmations ∧ ∃ step, e.env.plan.steps[i]? = some step ∧
        q.stepId = step.id

/-- Replays never outnumber a human's grants, and are fewer while a grant stands unused; what was
executed and what is about to be never outnumbers the replays. -/
structure ConsentInv (s : SchedulerState) : Prop where
  dirs : ∀ id dir, s.runs.get? id = some dir → dir.env.runId = id ∧ ConfirmationLogInv id dir.confirmations
  inRun : ∀ e ∈ s.executions, e.InRun s.runs
  replayed_le : ∀ p, s.replayed.count p ≤ s.granted.count p
  unused : ∀ id dir stepId, s.runs.get? id = some dir → dir.grantedStep id = some stepId →
    s.replayed.count (id, stepId) < s.granted.count (id, stepId)
  executed_le : ∀ p, s.executed.count p + s.executions.countP (fun e => decide (e.awaits = some p)) ≤
    s.replayed.count p

variable {s : SchedulerState}

lemma ConsentInv.bound (h : ConsentInv s) : s.ConsentBound := by
  intro runId stepId
  have hreplayed := h.replayed_le (runId, stepId)
  have hexecuted := h.executed_le (runId, stepId)
  exact ⟨by omega, hreplayed⟩

/-! ## Logs -/

variable {dir dir' : RunDir} {id : String}

variable {q : ConfirmationRequest}

lemma grantedStep_request (hlog : ConfirmationLogInv id dir.confirmations) (hrun : q.runId = id)
    (hfresh : q.confirmationId = dir.confirmations.length)
    (hconf : dir'.confirmations = dir.confirmations ++ [.request q])
    (hhuman : dir'.humanDecided = dir.humanDecided) :
    dir'.grantedStep id = dir.grantedStep id := by
  have hlog' := hlog.request hrun hfresh
  unfold grantedStep
  rw [hconf, hhuman, hlog'.latestDecision_eq, hlog.latestDecision_eq, decisionsOf_append_request,
    requestsOf_append_request]
  split_ifs
  · cases hlast : (decisionsOf dir.confirmations).getLast? with
    | none => rfl
    | some d =>
      obtain ⟨r, hr, hid⟩ := hlog.decided d (mem_of_getLast? hlast)
      have hfound : ((requestsOf dir.confirmations).find? fun q =>
          decide (q.confirmationId = d.confirmationId)).isSome :=
        find?_isSome.2 ⟨r, hr, decide_eq_true hid⟩
      simp only
      split_ifs
      · rw [find?_append, or_of_isSome hfound]
      · rfl
  · rfl

lemma grantedStep_decision (hlog : ConfirmationLogInv id dir.confirmations)
    (hq : q ∈ requestsOf dir.confirmations) {d : ConfirmationDecision}
    (hid : d.confirmationId = q.confirmationId)
    (hconf : dir'.confirmations = dir.confirmations ++ [.decision d]) {stepId : String}
    (h : dir'.grantedStep id = some stepId) : d.decision = .granted ∧ stepId = q.stepId := by
  have hlog' := hlog.decision hq hid
  unfold grantedStep at h
  rw [hconf, hlog'.latestDecision_eq, decisionsOf_append_decision, getLast?_append,
    requestsOf_append_decision] at h
  simp only [getLast?_singleton, some_or] at h
  split_ifs at h with hhuman hgranted
  obtain ⟨r, hr, rfl⟩ := map_eq_some_iff.1 h
  have hrid : r.confirmationId = d.confirmationId := by
    simpa using find?_some hr
  have hrq : r = q := inj_on_of_nodup_map hlog.nodup (mem_of_find?_eq_some hr) hq
    (hrid.trans hid)
  exact ⟨hgranted, by rw [hrq]⟩

/-! ## Steps that leave consent alone -/

def RunDir.consent (dir : RunDir) : String × List ConfirmationEntry × Bool :=
  (dir.env.runId, dir.confirmations, dir.humanDecided)

lemma grantedStep_congr (h : dir'.consent = dir.consent) (id : String) :
    dir'.grantedStep id = dir.grantedStep id := by
  simp only [consent, Prod.mk.injEq] at h
  simp only [grantedStep, h.2.1, h.2.2]

/-- The run directories are the same up to what consent does not read. -/
def SameConsent (runs runs' : OrderedMap String RunDir) : Prop :=
  ∀ id, (runs'.get? id).map RunDir.consent = (runs.get? id).map RunDir.consent

lemma sameConsent_set {runs : OrderedMap String RunDir} (hdir : runs.get? id = some dir)
    (h : dir'.consent = dir.consent) :
    SameConsent runs (runs.set id dir') := by
  intro key
  rw [get?_set]
  split_ifs with hkey
  · subst hkey
    rw [hdir, map_some, map_some, h]
  · rfl

variable {e : Execution}

lemma Execution.InRun.congr {runs runs' : OrderedMap String RunDir} (h : SameConsent runs runs')
    (he : e.InRun runs) : e.InRun runs' := by
  obtain ⟨hid, dir, hdir, hgate⟩ := he
  have hkey := h e.runId
  rw [hdir, map_some] at hkey
  obtain ⟨dir', hdir', hconsent⟩ := map_eq_some_iff.1 hkey
  simp only [consent, Prod.mk.injEq] at hconsent
  exact ⟨hid, dir', hdir', by rw [hconsent.2.1]; exact hgate⟩

/-- A step that leaves consent alone and begins at most executions that have asked for nothing
keeps the invariant. -/
lemma ConsentInv.frame {s s' : SchedulerState} (h : ConsentInv s)
    (hruns : SameConsent s.runs s'.runs) (hgranted : s'.granted = s.granted)
    (hreplayed : s'.replayed = s.replayed) (hexecuted : s'.executed = s.executed)
    (hinRun : ∀ e ∈ s'.executions, e ∈ s.executions ∨ e.InRun s'.runs)
    (hcount : ∀ p, s'.executions.countP (fun e => decide (e.awaits = some p)) ≤
      s.executions.countP fun e => decide (e.awaits = some p)) : ConsentInv s' := by
  have hback : ∀ id dir', s'.runs.get? id = some dir' →
      ∃ dir, s.runs.get? id = some dir ∧ dir'.consent = dir.consent := by
    intro id dir' hdir'
    have hkey := hruns id
    rw [hdir', map_some] at hkey
    obtain ⟨dir, hdir, hconsent⟩ := map_eq_some_iff.1 hkey.symm
    exact ⟨dir, hdir, hconsent.symm⟩
  refine ⟨?_, ?_, ?_, ?_, ?_⟩
  · intro id dir' hdir'
    obtain ⟨dir, hdir, hconsent⟩ := hback id dir' hdir'
    simp only [consent, Prod.mk.injEq] at hconsent
    rw [hconsent.1, hconsent.2.1]
    exact h.dirs id dir hdir
  · intro e he
    rcases hinRun e he with he | he
    · exact (h.inRun e he).congr hruns
    · exact he
  · rw [hreplayed, hgranted]
    exact h.replayed_le
  · intro id dir' stepId hdir' hstep
    obtain ⟨dir, hdir, hconsent⟩ := hback id dir' hdir'
    rw [grantedStep_congr hconsent] at hstep
    rw [hreplayed, hgranted]
    exact h.unused id dir stepId hdir hstep
  · intro p
    rw [hexecuted, hreplayed]
    exact Nat.le_trans (Nat.add_le_add_left (hcount p) _) (h.executed_le p)

/-! ## Executors -/

lemma count_toList {α : Type} [BEq α] [LawfulBEq α] [DecidableEq α] (o : Option α) (a : α) :
    o.toList.count a = if decide (o = some a) then 1 else 0 := by
  cases o with
  | none => simp
  | some b => simp [count_singleton]

lemma awaits_eq_none (h : e.state.control.unasked e.env) : e.awaits = none := by
  unfold awaits
  split_ifs
  · split
    · rename_i i total hc
      rw [hc] at h
      cases hi : e.env.plan.steps[i]? with
      | none => rfl
      | some step => simp [h rfl step hi]
    · rfl
  · rfl

lemma replays_eq_none_of_request (h : e.request? = none) : e.replays = none := by
  unfold replays
  split
  · rw [h]
    rfl
  · rfl

lemma awaits_of_executes (hloop : e.resumed → bypassesGate e.env e.state = false)
    (h : e.executes = some id) : e.awaits = some (e.runId, id) := by
  unfold executes at h
  split_ifs at h with hresumed
  obtain ⟨step, hstep, rfl⟩ := map_eq_some_iff.1 h
  rw [filter_eq_some_iff] at hstep
  obtain ⟨hcalls, hflagged⟩ := hstep
  unfold calls at hcalls
  split at hcalls
  · rename_i i total hc
    simp [awaits, hresumed, hc, hcalls, hflagged]
  · rename_i i total attempt f frames hc
    split at hcalls
    · rename_i body todo htodo
      obtain ⟨jb, hbody, rfl⟩ := map_eq_some_iff.1 hcalls
      have hbypass := hloop hresumed
      simp [bypassesGate, hc, htodo, hbody, hflagged] at hbypass
    · cases hcalls
  · cases hcalls

variable {j : Nat}

/-- **The update rule.** An executor's step on its run keeps the invariant when what it replays is
the granted step, no granted step is left after a replay, and what it executes or comes to await
is covered by what it replays or awaited. -/
lemma ConsentInv.update (h : ConsentInv s) {e e' : Execution} (hj : s.executions[j]? = some e)
    (hdir : s.runs.get? e.runId = some dir) (hrun : e'.runId = e.runId) (henv : e'.env = e.env)
    (hdirEnv : dir'.env = dir.env) (hlog : ConfirmationLogInv e.runId dir'.confirmations)
    (hrequests : requestsOf dir.confirmations ⊆ requestsOf dir'.confirmations)
    (hgate : ∀ i total q, e'.state.control = .gate i total q →
      q ∈ requestsOf dir'.confirmations ∧ ∃ step, e.env.plan.steps[i]? = some step ∧
        q.stepId = step.id)
    (hreplays : ∀ id, e.replays = some id → dir.grantedStep e.runId = some id)
    (hunused : ∀ id, dir'.grantedStep e.runId = some id →
      dir.grantedStep e.runId = some id ∧ e.replays = none)
    (hcount : ∀ p, (e.executes.map fun id => (e.runId, id)).toList.count p +
        e'.awaits.toList.count p ≤
      (e.replays.map fun id => (e.runId, id)).toList.count p + e.awaits.toList.count p) :
    ConsentInv { s with
      runs := s.runs.set e.runId dir'
      executions := s.executions.set j e'
      replayed := (e.replays.map fun id => (e.runId, id)).toList ++ s.replayed
      executed := (e.executes.map fun id => (e.runId, id)).toList ++ s.executed } := by
  have he : e ∈ s.executions := mem_of_getElem? hj
  refine ⟨?_, ?_, ?_, ?_, ?_⟩
  · refine forall_get?_set ⟨?_, hlog⟩ h.dirs
    rw [hdirEnv]
    exact (h.dirs e.runId dir hdir).1
  · intro f hf
    rcases mem_or_eq_of_mem_set hf with hf | rfl
    · obtain ⟨hid, d, hd, hfgate⟩ := h.inRun f hf
      by_cases hkey : e.runId = f.runId
      · rw [← hkey, hdir] at hd
        obtain rfl := some.inj hd
        refine ⟨hid, dir', by rw [get?_set, if_pos hkey], fun i total q hq => ?_⟩
        exact ⟨hrequests (hfgate i total q hq).1, (hfgate i total q hq).2⟩
      · exact ⟨hid, d, by rw [get?_set, if_neg hkey]; exact hd, hfgate⟩
    · refine ⟨by rw [hrun, henv]; exact (h.inRun e he).1, dir', ?_, by rw [henv]; exact hgate⟩
      rw [hrun, get?_set_self]
  · intro p
    have hle := h.replayed_le p
    rw [count_append]
    cases hrep : e.replays with
    | none => simpa using hle
    | some id =>
      have hlt := h.unused e.runId dir id hdir (hreplays id hrep)
      by_cases hp : (e.runId, id) = p
      · subst hp
        simp only [map_some, toList_some, count_singleton_self]
        omega
      · simpa [count_singleton, hp] using hle
  · intro id d stepId hd hstep
    rw [get?_set] at hd
    split_ifs at hd with hid
    · obtain rfl := some.inj hd
      subst hid
      obtain ⟨hstep, hnone⟩ := hunused stepId hstep
      simpa [hnone] using h.unused e.runId dir stepId hdir hstep
    · have hlt := h.unused id d stepId hd hstep
      have hother : (e.replays.map fun id => (e.runId, id)).toList.count (id, stepId) = 0 := by
        rw [count_eq_zero, mem_toList]
        intro hmem
        obtain ⟨x, -, hx⟩ := map_eq_some_iff.1 hmem
        exact hid (Prod.mk.inj hx).1
      simp only [count_append, hother]
      omega
  · intro p
    have hle := h.executed_le p
    have hset := Places.countP_set_add (fun e => decide (e.awaits = some p)) e' hj
    have hp := hcount p
    simp only [count_append]
    rw [count_toList e'.awaits, count_toList e.awaits] at hp
    omega

lemma ConsentInv.execute (h : ConsentInv s) {w : World} (hc : ReplaysOwnGrant s (.execute j w)) :
    ConsentInv (execute s j w) := by
  unfold Yantra.execute
  cases hj : s.executions[j]? with
  | none => exact h
  | some e =>
    cases hdir : s.runs.get? e.runId with
    | none =>
      simp only [hdir]
      exact h
    | some dir =>
      simp only [hdir]
      obtain ⟨hreplays, hloop⟩ := hc e hj dir hdir
      obtain ⟨hid, d, hd, hgate⟩ := h.inRun e (mem_of_getElem? hj)
      obtain rfl := some.inj (hdir.symm.trans hd)
      have hlog := (h.dirs e.runId dir hdir).2
      have hrunId : e.env.runId = e.runId := hid
      have hconsent := executorStep_consent e.env (e.onDisk dir)
        { w with gateway := e.gateway.request.1 }
      rw [← step_state] at hconsent
      cases hconsent with
      | asked i total step q hi hqid hqrun hfresh hcursor hclog hcontrol =>
        obtain ⟨turns, hturns⟩ : ∃ turns, e.state.control = .cursor i turns := hcursor
        have hrequest : e.request? = none := by simp [request?, hturns]
        have hrep := replays_eq_none_of_request hrequest
        have hexe : e.executes = none := by simp [executes, calls, hturns]
        have hawaits : (e.step dir w).1.awaits = none := by simp [awaits, hcontrol]
        have hconf : (e.step dir w).2.confirmations = dir.confirmations ++ [.request q] := hclog
        have hhuman : (e.step dir w).2.humanDecided = dir.humanDecided := by
          simp [step_humanDecided, hrequest]
        have hqrunId : q.runId = e.runId := hqrun.trans hrunId
        refine h.update hj hdir rfl rfl rfl ?_ ?_ ?_ hreplays ?_ ?_
        · rw [hconf]
          exact hlog.request hqrunId hfresh
        · rw [hconf, requestsOf_append_request]
          exact subset_append_left _ _
        · intro i' total' q' hgate'
          obtain ⟨rfl, -, rfl⟩ := Control.gate.inj (hcontrol.symm.trans hgate')
          rw [hconf, requestsOf_append_request]
          exact ⟨mem_append_right _ (mem_singleton.2 rfl), step, hi, hqid⟩
        · intro id hstep
          rw [grantedStep_request hlog hqrunId hfresh hconf hhuman] at hstep
          exact ⟨hstep, hrep⟩
        · intro p
          simp [hexe, hawaits]
      | decided i total q d hgateNow hw hdid hclog hcontrol =>
        have hatGate : e.state.control = .gate i total q := hgateNow
        have hrequest : e.request? = some q := by simp [request?, hatGate]
        obtain ⟨hq, step, hi, hqid⟩ := hgate i total q hatGate
        have hexe : e.executes = none := by simp [executes, calls, hatGate]
        have hconf : (e.step dir w).2.confirmations = dir.confirmations ++ [.decision d] := hclog
        -- the daemon's gateway parks, so this is the gateway of a resumed run
        obtain ⟨consumed, hgateway⟩ : ∃ consumed, e.gateway = .preGranted consumed := by
          cases hgateway : e.gateway with
          | daemon parked => simp [hgateway, request] at hw
          | preGranted consumed => exact ⟨consumed, rfl⟩
        have hresumed : e.resumed = true := by simp [Execution.resumed, hgateway]
        have hhuman : (e.step dir w).2.humanDecided = false := by
          simp [step_humanDecided, hresumed, hrequest]
        refine h.update hj hdir rfl rfl rfl ?_ ?_ ?_ hreplays ?_ ?_
        · rw [hconf]
          exact hlog.decision hq hdid
        · rw [hconf, requestsOf_append_decision]
          exact List.Subset.refl _
        · intro i' total' q' hgate'
          rcases hcontrol with ⟨hcontrol, -⟩ | hcontrol
          · rw [hcontrol] at hgate'
            cases hgate'
          · rw [hcontrol] at hgate'
            cases hgate'
        · intro id hstep
          simp [grantedStep, hhuman] at hstep
        · intro p
          rcases hcontrol with ⟨hcontrol, -, decidedBy, hgrants⟩ | hcontrol
          · -- it grants, so the gateway was not consumed, and the step awaited is the one replayed
            have hfirst : consumed = false := by
              cases consumed with
              | false => rfl
              | true => simp [hgateway, request] at hgrants
            have hrep : e.replays = some q.stepId := by
              simp [replays, hgateway, hfirst, hrequest]
            have hawaits : (e.step dir w).1.awaits.toList.count p ≤
                (some (e.runId, q.stepId)).toList.count p := by
              unfold awaits
              split_ifs
              · simp only [hcontrol, step_env, hi, step_runId, hqid]
                cases hf : step.requiresConfirmation <;> simp [Option.filter, hf]
              · simp
            simp only [hexe, hrep, map_none, map_some, toList_none,
              count_nil]
            omega
          · have hawaits : (e.step dir w).1.awaits = none := by simp [awaits, hcontrol]
            simp [hexe, hawaits]
      | parked i total q hgateNow hw hclog hcontrol =>
        have hatGate : e.state.control = .gate i total q := hgateNow
        have hexe : e.executes = none := by simp [executes, calls, hatGate]
        have hawaits : (e.step dir w).1.awaits = none := by simp [awaits, hcontrol]
        have hconf : (e.step dir w).2.confirmations = dir.confirmations := hclog
        -- only the daemon's gateway parks
        obtain ⟨parked, hgateway⟩ : ∃ parked, e.gateway = .daemon parked := by
          cases hgateway : e.gateway with
          | daemon parked => exact ⟨parked, rfl⟩
          | preGranted consumed =>
            cases consumed <;> simp [hgateway, request] at hw
        have hrep : e.replays = none := by simp [replays, hgateway]
        have hsame : (e.step dir w).2.consent = dir.consent := by
          simp [consent, hconf, step_humanDecided, Execution.resumed, hgateway]
        refine h.update hj hdir rfl rfl rfl ?_ ?_ ?_ hreplays ?_ ?_
        · rw [hconf]
          exact hlog
        · rw [hconf]
          exact List.Subset.refl _
        · intro i' total' q' hgate'
          rw [hcontrol] at hgate'
          cases hgate'
        · intro id hstep
          rw [grantedStep_congr hsame] at hstep
          exact ⟨hstep, hrep⟩
        · intro p
          simp [hexe, hawaits]
      | other hold hclog hcontrol =>
        have hrequest : e.request? = none := by
          unfold request?
          split
          · rename_i i total q hc
            exact absurd hc (hold i total q)
          · rfl
        have hrep := replays_eq_none_of_request hrequest
        have hawaits : (e.step dir w).1.awaits = none := awaits_eq_none hcontrol
        have hconf : (e.step dir w).2.confirmations = dir.confirmations := hclog
        have hsame : (e.step dir w).2.consent = dir.consent := by
          simp [consent, hconf, step_humanDecided, hrequest]
        refine h.update hj hdir rfl rfl rfl ?_ ?_ ?_ hreplays ?_ ?_
        · rw [hconf]
          exact hlog
        · rw [hconf]
          exact List.Subset.refl _
        · intro i' total' q' hgate'
          rw [hgate'] at hcontrol
          exact hcontrol.elim
        · intro id hstep
          rw [grantedStep_congr hsame] at hstep
          exact ⟨hstep, hrep⟩
        · intro p
          cases hexe : e.executes with
          | none => simp [hawaits]
          | some id => simp [hawaits, hrep, awaits_of_executes hloop hexe]

/-! ## The other steps -/

lemma ConsentInv.settleTask (h : ConsentInv s) (cfg : DaemonConfig) (k : Nat) (outcome : Settlement)
    : ConsentInv (s.settleTask cfg k outcome) :=
  h.frame (fun _ => rfl) rfl rfl rfl (fun _ he => .inl he) fun _ => Nat.le_refl _

lemma ConsentInv.createRun (h : ConsentInv s) (t : DaemonTask) (runId : String) (env : RunEnv)
    (profileKind : ProfileKind) (keys : List String) :
    ConsentInv (createRun s t runId env profileKind keys) := by
  unfold Yantra.createRun
  split_ifs with hsome
  · exact h
  · have hnone : s.runs.get? runId = none := by simpa using hsome
    refine ⟨?_, ?_, h.replayed_le, ?_, ?_⟩
    · exact forall_get?_set ⟨rfl, ConfirmationLogInv.nil runId⟩ h.dirs
    · intro e he
      rcases mem_append.1 he with he | he
      · obtain ⟨hid, dir, hdir, hgate⟩ := h.inRun e he
        refine ⟨hid, dir, get?_set_of_get? hdir ?_, hgate⟩
        rintro rfl
        rw [hnone] at hdir
        cases hdir
      · obtain rfl := mem_singleton.1 he
        refine ⟨rfl, _, get?_set_self _ _ _, fun i total q hq => ?_⟩
        cases hq
    · intro id dir stepId hdir hstep
      rw [get?_set] at hdir
      split_ifs at hdir with hid
      · obtain rfl := some.inj hdir
        cases hstep
      · exact h.unused id dir stepId hdir hstep
    · intro p
      have hle := h.executed_le p
      rw [countP_append]
      simpa [awaits, resumed] using hle

lemma resume_enters {env env' : RunEnv} {m : RunManifest} {files : CheckpointStore}
    {log : List ConfirmationEntry} {state : RunState}
    (h : resume env m files log = .ok (env', state)) :
    env'.runId = env.runId ∧ (state.control = .starting ∨ ∃ i, state.control = .cursor i 0) := by
  unfold resume at h
  split at h
  · cases h
  · rename_i point _
    obtain ⟨rfl, rfl⟩ := Prod.mk.inj (Except.ok.inj h)
    cases point with
    | none => exact ⟨rfl, .inl rfl⟩
    | some c => exact ⟨rfl, .inr ⟨_, rfl⟩⟩

lemma ConsentInv.startResume (h : ConsentInv s) (cfg : DaemonConfig) (k : Nat) (t : DaemonTask)
    (runId : String) (start : ResumeStart) :
    ConsentInv (startResume cfg s k t runId start) := by
  unfold Yantra.startResume
  cases hdir : s.runs.get? runId with
  | none => exact h.settleTask cfg k .threw
  | some dir =>
    have hsame : SameConsent s.runs (s.runs.set runId
        { dir with manifest := { dir.manifest with status := .running } }) :=
      sameConsent_set hdir rfl
    simp only
    cases hresume : resume dir.env dir.manifest dir.checkpoints dir.confirmations with
    | error e => exact h.settleTask cfg k .threw
    | ok entry =>
      obtain ⟨env, state⟩ := entry
      obtain ⟨henv, hcontrol⟩ := resume_enters hresume
      cases start with
      | notWritten => exact h.settleTask cfg k .threw
      | notOpened =>
        exact h.frame hsame rfl rfl rfl (fun e he => .inl he) fun p => Nat.le_refl _
      | opened =>
        refine h.frame hsame rfl rfl rfl (fun e he => ?_) fun p => ?_
        · rcases mem_append.1 he with he | he
          · exact .inl he
          · obtain rfl := mem_singleton.1 he
            refine .inr ⟨henv.trans (h.dirs runId dir hdir).1, _, get?_set_self _ _ _,
              fun i total q hq => ?_⟩
            rcases hcontrol with hcontrol | ⟨n, hcontrol⟩
            · rw [hcontrol] at hq
              cases hq
            · rw [hcontrol] at hq
              cases hq
        · rw [countP_append]
          rcases hcontrol with hcontrol | ⟨n, hcontrol⟩
          · simp [awaits, hcontrol]
          · simp [awaits, hcontrol]

lemma ConsentInv.resolve (h : ConsentInv s) (cfg : DaemonConfig) (k : Nat) (t : DaemonTask)
    (start : ResumeStart) : ConsentInv (resolve cfg s k t start) := by
  unfold Yantra.resolve
  split
  · exact h.settleTask cfg k _
  · exact h.settleTask cfg k _
  · exact h.startResume cfg k t _ start

lemma ConsentInv.report (h : ConsentInv s) (cfg : DaemonConfig) (j : Nat) (e : Execution)
    (outcome : Option RunOutcome) : ConsentInv (report cfg s j e outcome) := by
  refine h.frame ?_ rfl rfl rfl (fun f hf => .inl (mem_of_mem_eraseIdx hf))
    fun p => (eraseIdx_sublist _ _).countP_le
  simp only [Yantra.report, SchedulerState.settleTask]
  split
  · rename_i dir o hdir
    exact sameConsent_set hdir rfl
  · exact fun _ => rfl

lemma ConsentInv.confirm (h : ConsentInv s) (runId : String) (grant : Bool) :
    ConsentInv (confirm s runId grant) := by
  unfold Yantra.confirm
  cases hdir : s.runs.get? runId with
  | none => exact h
  | some dir =>
    simp only
    cases hpending : findPending dir.confirmations runId with
    | none => exact h
    | some q =>
      by_cases hdecided : hasDecision dir.confirmations q.confirmationId
      · simp only [hdecided, if_true]
        exact h
      simp only [hdecided, if_false, Bool.false_eq_true]
      have hlog := (h.dirs runId dir hdir).2
      have hq := mem_of_findPending hpending
      have hmono : ∀ p, s.granted.count p ≤
          (if grant then (runId, q.stepId) :: s.granted else s.granted).count p := by
        intro p
        split_ifs
        · exact count_le_count_cons
        · exact Nat.le_refl _
      refine ⟨?_, ?_, fun p => Nat.le_trans (h.replayed_le p) (hmono p), ?_, h.executed_le⟩
      · exact forall_get?_set ⟨(h.dirs runId dir hdir).1, hlog.decision hq rfl⟩ h.dirs
      · intro e he
        obtain ⟨hid, d, hd, hgate⟩ := h.inRun e he
        by_cases hkey : runId = e.runId
        · rw [← hkey, hdir] at hd
          obtain rfl := some.inj hd
          refine ⟨hid, _, by rw [get?_set, if_pos hkey], ?_⟩
          rw [requestsOf_append_decision]
          exact hgate
        · exact ⟨hid, d, by rw [get?_set, if_neg hkey]; exact hd, hgate⟩
      · intro id d stepId hd hstep
        by_cases hid : runId = id
        · subst hid
          rw [get?_set_self] at hd
          obtain rfl := some.inj hd
          obtain ⟨hgranted, rfl⟩ := grantedStep_decision hlog hq rfl rfl hstep
          cases grant with
          | false => cases hgranted
          | true =>
            simp only [if_true, count_cons_self]
            exact Nat.lt_succ_of_le (h.replayed_le _)
        · rw [get?_set, if_neg hid] at hd
          exact Nat.lt_of_lt_of_le (h.unused id d stepId hd hstep) (hmono _)

/-! ## Runs -/

/-- **A step that meets the condition keeps the invariant.** -/
lemma ConsentInv.step {cfg : DaemonConfig} (h : ConsentInv s) {a : SchedulerAction}
    (ha : ReplaysOwnGrant s a) : ConsentInv (schedulerStep cfg s a) := by
  cases a with
  | daemon a =>
    have hkeep : ∀ d, ConsentInv { s with daemon := d } := fun d =>
      h.frame (fun _ => rfl) rfl rfl rfl (fun _ he => .inl he) fun _ => Nat.le_refl _
    cases a with
    | settle k outcome => exact h
    | exit =>
      refine h.frame (fun _ => rfl) rfl rfl rfl (fun e he => ?_) fun p => Nat.zero_le _
      cases he
    | _ => exact hkeep _
  | createRun k runId env profileKind keys =>
    simp only [schedulerStep]
    repeat' split
    · exact h.createRun _ runId env profileKind keys
    · exact h
    · exact h
  | fireThrows k =>
    simp only [schedulerStep]
    repeat' split
    · exact h.settleTask cfg k _
    · exact h
    · exact h
  | resolve k start =>
    simp only [schedulerStep]
    repeat' split
    · exact h
    · exact h.resolve cfg k _ start
    · exact h
  | execute j w => exact h.execute ha
  | settle j written =>
    simp only [schedulerStep]
    cases s.executions[j]? with
    | none => exact h
    | some e =>
      simp only
      split
      · exact h.report cfg j e _
      · exact h.report cfg j e none
      · exact h
  | confirm runId grant => exact h.confirm runId grant

/-- **A human's grant is bound to its step and to one execution.** In every run of the scheduler,
over any store, with any plans, worlds, polls, decisions and ends of the process, no step is
granted by a resume's gateway or executed by a resumed run more often than a human granted it,
where each replay stands on a human's own and latest decision for that step and no loop of a
resumed run calls a flagged step.

**Proof sketch.** A human's grant is one more grant than replays; a replay that stands on it uses
it up, since the gateway's decision is then the latest one. A flagged step is executed after its
replay only. -/
theorem consentBound_of_replaysOwnGrant (cfg : DaemonConfig) (now : Nat) (rows : List Schedule)
    (acts : List SchedulerAction)
    (hacts : (scheduler cfg now rows).Along ReplaysOwnGrant (scheduler cfg now rows).init acts) :
    ((scheduler cfg now rows).run acts).ConsentBound := by
  have hinit : ConsentInv (scheduler cfg now rows).init :=
    ⟨by simp [scheduler], by simp [scheduler], by simp [scheduler], by simp [scheduler],
      by simp [scheduler]⟩
  have hrun : ConsentInv ((scheduler cfg now rows).run acts) :=
    Machine.invariant_runFrom (fun _ _ hs ha => hs.step ha) hinit hacts
  exact hrun.bound

/-! ## Runs of two workflows -/

/-- A workflow of one flagged click. -/
def paymentPlan : Plan where
  taskId := "t1"
  planId := "p1"
  defaultScope := .authenticated
  steps := [
    { id := "s1"
      requiresConfirmation := true
      body := .click {} (.intent .button none none) none }]

/-- A workflow that reads offers and then clicks on one of two flagged buttons: `s4` when offers
were read, and `s3` otherwise. -/
def offersPlan : Plan where
  taskId := "t1"
  planId := "p1"
  defaultScope := .authenticated
  steps := [
    { id := "s1"
      body := .extract (.intent .table none none) (.array (.primitive .string)) "s1" },
    { id := "s2", body := .branch (.captureExists ⟨"s1", none⟩) "s4" (some "s3") },
    { id := "s3"
      requiresConfirmation := true
      body := .click {} (.intent .button none none) none },
    { id := "s4"
      requiresConfirmation := true
      body := .click {} (.intent .button none none) none }]

/-- What the executions of a plan are given. -/
def planEnv (p : Plan) : RunEnv where
  runId := "run-1"
  plan := p
  params := OrderedMap.empty
  workflowLocators := none
  browser := true
  gateway := true
  llm := false
  urlHost := fun _ => none

/-- The first occurrence is due, and its fire creates a run of the plan. -/
def fireDue (p : Plan) : List SchedulerAction :=
  [.daemon (.start true), .daemon (.scan .ok), .daemon (.scan .ok), .daemon (.advance 5),
    .daemon (.poll true), .daemon (.resumePoll 0), .createRun 0 "run-1" (planEnv p) .workflow []]

/-- The execution reports, and its task ends with the outcome recorded or not. -/
def settleAndRecord (record : WriteOutcome) : List SchedulerAction :=
  [.settle 0 true, .daemon (.write 0 record), .daemon (.finish 0)]

/-- The fire takes `steps` steps to its first request, and the human grants it. -/
def parkAndGrant (p : Plan) (steps : Nat) : List SchedulerAction :=
  fireDue p ++ List.replicate steps (SchedulerAction.execute 0 {}) ++ settleAndRecord .ok ++
    [SchedulerAction.confirm "run-1" true]

def startPickUp : List SchedulerAction :=
  [.daemon (.poll true), .daemon (.resumePoll 0), .resolve 0 .opened]

/-- The next poll picks the parked run up and resumes it to its end. -/
def pickUp (ws : List World) (record : WriteOutcome) : List SchedulerAction :=
  startPickUp ++ ws.map (SchedulerAction.execute 0) ++ settleAndRecord record

def paidOnce : List SchedulerAction :=
  parkAndGrant paymentPlan 3 ++ pickUp (List.replicate 6 {}) .ok

/-- The human grants `s4`; the resumed run has no captures and comes to `s3` instead. -/
def otherOffer : List SchedulerAction :=
  parkAndGrant offersPlan 8 ++ pickUp (List.replicate 6 {}) .ok

def failedClick : List World := [{}, {}, {}, { action := .threw "timeout" }]

/-- The payment fails after its grant was replayed, the outcome of the resume cannot be recorded,
and the next poll picks the run up again. -/
def paidTwice : List SchedulerAction :=
  parkAndGrant paymentPlan 3 ++ pickUp failedClick .err ++ pickUp (List.replicate 6 {}) .ok

/-- A run that meets the condition executes the flagged click once. -/
theorem consentBound_of_replaysOwnGrant_payment :
    ((scheduler everyFive 0 [digestSchedule]).run paidOnce).executed = [("run-1", "s1")] ∧
      ((scheduler everyFive 0 [digestSchedule]).run paidOnce).ConsentBound :=
  ⟨by decide +kernel,
    consentBound_of_replaysOwnGrant everyFive 0 [digestSchedule] paidOnce (by decide +kernel)⟩

/-- A grant executes another step than the one granted, and one grant executes a step twice. -/
theorem replayed_grant_is_not_bound :
    (offersPlan.schemaValid ∧ validateSemantics offersPlan = .ok offersPlan ∧
      ¬ ((scheduler everyFive 0 [digestSchedule]).run otherOffer).ConsentBound) ∧
    paymentPlan.schemaValid ∧ validateSemantics paymentPlan = .ok paymentPlan ∧
      ¬ ((scheduler everyFive 0 [digestSchedule]).run paidTwice).ConsentBound := by
  refine ⟨⟨by decide, validateSemantics_ok_iff.2 ⟨by decide, rfl⟩, fun h => ?_⟩, by decide,
    validateSemantics_ok_iff.2 ⟨by decide, rfl⟩, fun h => ?_⟩
  · have hbound := (h "run-1" "s3").1
    revert hbound
    decide +kernel
  · have hbound := (h "run-1" "s1").1
    revert hbound
    decide +kernel

end Yantra
