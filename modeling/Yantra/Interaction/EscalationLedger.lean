import Yantra.Interaction.Escalation

/-!
# The ledger of an escalation

Charges are told apart by subtraction: a rung claims what was charged since its body began, less
what verdicts pushed meanwhile have claimed. A body that began with nothing unclaimed covers what
is charged while it runs, whatever happens in it; what is charged with no such body running stays
unclaimed.

## Main definitions

* `Escalation.covers` — a body that began with nothing unclaimed.
* `LedgerHolds` — what the ledger promises of a run.

## Main results

* `ledgerHolds_run` — the promise holds of every run whose steps meet them.
-/

namespace Yantra

open List Option Bool Escalation MutableRunState

variable {V : Type}

/-! ## What no verdict claims -/

namespace MutableRunState

variable (run : MutableRunState V)

def unclaimed : ℤ := run.chargedActions - claimed run.verdicts

def unclaimedAt (body : RungBody) : ℤ :=
  body.actionsBefore - claimed (run.verdicts.take body.nestedVerdictsBefore)

end MutableRunState

namespace Escalation

variable (s : Escalation V)

/-- The body that runs in an execution began with nothing unclaimed. -/
def covers (id : ℕ) : Bool :=
  match s.executionAt id with
  | some (_, .running body) => s.run.unclaimedAt body == 0
  | _ => false

/-- Another body than that of the execution `id` covers. -/
def coveredBeside (id : ℕ) : Bool :=
  (List.range s.executions.length).any fun other => other != id && s.covers other

/-- Some body covers. -/
def covered : Bool := (List.range s.executions.length).any s.covers

/-- The calls that await the re-acquisition of their reference. -/
def reacquiring : ℕ := s.calls.countP fun call => call.stage.isReacquiring

def rootResult : Option (EscalationRun V) :=
  match s.executionAt 0 with
  | some (_, .returned result) => some result
  | _ => none

end Escalation

/-- The rung of an execution that has been checked, and whose body has not begun. -/
def PlanPhase.awaited : PlanPhase V → Option EscalationRung
  | .deciding rung .. => some rung
  | .pausing rung .. => some rung
  | _ => none

/-- The port of a plan is no object that passes calls on to a wrapper of the run, unless it is one
itself. -/
def EscalationPlan.portFits (plan : EscalationPlan) : Bool :=
  match plan.port with
  | some (.plain inner) => inner.isEmpty
  | _ => true

namespace EscalationEvent

/-- The actions that an event charges, apart from those of a call passed on. -/
def charges : EscalationEvent V → ℕ
  | .charged actions => actions.floor.toNat
  | .portCalled _ method _ => if method.isMutation then 1 else 0
  | _ => 0

def returning : EscalationEvent V → Option ℕ
  | .bodyReturns id .. => some id
  | _ => none

def throwing : EscalationEvent V → Option ℕ
  | .bodyThrows id => some id
  | _ => none

def nested : EscalationEvent V → Option EscalationPlan
  | .runSubplan plan => some plan
  | _ => none

end EscalationEvent

/-! ## What is promised -/

structure Escalation.Meets (s : Escalation V) (event : EscalationEvent V) : Prop where
  /-- Actions are charged only while some body covers. -/
  charges : 0 < event.charges → s.covered = true
  /-- Charges leave the cap of a rung that has been checked within what remains, if it was and
  caps are enforced. -/
  caps : ∀ e ∈ s.executions, e.plan.enforcesCaps = true → ∀ rung ∈ e.phase.awaited,
    rung.costCap.maxActions ≤ s.run.remainingActions →
      rung.costCap.maxActions ≤ (s.run.charge event.charges).remainingActions
  /-- A body that does not cover returns only while another one covers. -/
  returns : ∀ id ∈ event.returning, s.covers id = true ∨ s.coveredBeside id = true
  /-- A body throws only with nothing unclaimed or while another one covers, the root's apart. -/
  throws : ∀ id ∈ event.throwing, id = 0 ∨ s.run.unclaimed = 0 ∨ s.coveredBeside id = true
  /-- The root plan returns only when no body covers. -/
  alone : (s.step event).rootResult.isSome = true → (s.step event).covered = false
  /-- A call asks for a reference only where those given and those asked for are below the
  maximum. -/
  asks : s.reacquiring < (s.step event).reacquiring →
    s.run.reacquisitions + s.reacquiring < s.run.maxReacquisitions
  /-- The port of a nested plan passes no call on to a wrapper of the run. -/
  ports : ∀ plan ∈ event.nested, plan.portFits = true

instance (s : Escalation V) (event : EscalationEvent V) : Decidable (s.Meets event) :=
  decidable_of_iff
    ((0 < event.charges → s.covered = true) ∧
      (∀ e ∈ s.executions, e.plan.enforcesCaps = true → ∀ rung ∈ e.phase.awaited,
        rung.costCap.maxActions ≤ s.run.remainingActions →
          rung.costCap.maxActions ≤ (s.run.charge event.charges).remainingActions) ∧
      (∀ id ∈ event.returning, s.covers id = true ∨ s.coveredBeside id = true) ∧
      (∀ id ∈ event.throwing, id = 0 ∨ s.run.unclaimed = 0 ∨ s.coveredBeside id = true) ∧
      ((s.step event).rootResult.isSome = true → (s.step event).covered = false) ∧
      (s.reacquiring < (s.step event).reacquiring →
        s.run.reacquisitions + s.reacquiring < s.run.maxReacquisitions) ∧
      ∀ plan ∈ event.nested, plan.portFits = true)
    ⟨fun ⟨hcharges, hcaps, hreturns, hthrows, halone, hasks, hports⟩ =>
        ⟨hcharges, hcaps, hreturns, hthrows, halone, hasks, hports⟩,
      fun h => ⟨h.charges, h.caps, h.returns, h.throws, h.alone, h.asks, h.ports⟩⟩

structure LedgerHolds (s : Escalation V) : Prop where
  /-- What the root plan returns has all verdicts of the run, and they claim what was charged. -/
  partitions : ∀ result, s.rootResult = some result →
    result.ledger.verdicts = s.run.verdicts ∧
      result.ledger.chargedActions = s.run.chargedActions ∧
      claimed result.ledger.verdicts = result.ledger.chargedActions
  /-- The ordinals are the numbers from one. -/
  ordinals : s.run.verdicts.map RungVerdict.ordinal = List.range' 1 s.run.verdicts.length
  /-- A call of a wrapper is counted once, -/
  counted : ∀ (w : ℕ) (method : PortMethod) (ref : String), s.rootSettled = false →
    w < s.wrappers.length →
      (s.step (.portCalled w method ref)).run.chargedActions =
        s.run.chargedActions + if method.isMutation then 1 else 0
  /-- and is not passed on to another one. -/
  once : ∀ call w, s.step (.passedOn call w) = s
  /-- No rung was entered with a cap above what remained, where caps are enforced. -/
  caps : ∀ e ∈ s.executions, ∀ body, e.phase = .running body → e.plan.enforcesCaps = true →
    body.rung.costCap.maxActions ≤ (s.run.maxActions - body.actionsBefore : ℕ)
  /-- No more re-acquisitions than the maximum. -/
  reacquisitions : s.run.reacquisitions ≤ s.run.maxReacquisitions

/-! ## Subtraction -/

lemma claimed_append (xs ys : List (RungVerdict V)) :
    claimed (xs ++ ys) = claimed xs + claimed ys := by
  unfold claimed
  rw [map_append, sum_append]

lemma chargedActions_figures (s : Escalation V) (body : RungBody) (outcome : RungOutcome V)
    (endedAt : ℚ) : (s.figures body outcome endedAt).chargedActions =
      s.run.unclaimed - s.run.unclaimedAt body := by
  have hsplit : claimed s.run.verdicts = claimed (s.run.verdicts.take body.nestedVerdictsBefore) +
      s.run.chargesSince body.nestedVerdictsBefore := by
    unfold chargesSince
    rw [← claimed_append, take_append_drop]
  unfold figures unclaimed unclaimedAt
  dsimp only
  omega

/-- A later state of the run has more verdicts, and the same counts. -/
structure RunExtends (run run' : MutableRunState V) (added : List (RungVerdict V)) : Prop where
  verdicts : run'.verdicts = run.verdicts ++ added
  ordinals : added.map RungVerdict.ordinal = List.range' (run.verdicts.length + 1) added.length
  maxActions : run'.maxActions = run.maxActions
  chargedActions : run'.chargedActions = run.chargedActions
  reacquisitions : run'.reacquisitions = run.reacquisitions
  maxReacquisitions : run'.maxReacquisitions = run.maxReacquisitions

namespace RunExtends

variable {run run' : MutableRunState V} {added : List (RungVerdict V)}

lemma same (hverdicts : run'.verdicts = run.verdicts) (hmax : run'.maxActions = run.maxActions)
    (hcharged : run'.chargedActions = run.chargedActions)
    (hreacquisitions : run'.reacquisitions = run.reacquisitions)
    (hmaximum : run'.maxReacquisitions = run.maxReacquisitions) : RunExtends run run' [] :=
  ⟨by rw [hverdicts, append_nil], rfl, hmax, hcharged, hreacquisitions, hmaximum⟩

lemma refl (run : MutableRunState V) : RunExtends run run [] := same rfl rfl rfl rfl rfl

lemma push (h : RunExtends run run' []) (rung : EscalationRung) (kind : VerdictKind V) :
    RunExtends run (run'.push rung kind)
      [⟨run.verdicts.length + 1, rung.id, rung.axis, kind⟩] where
  verdicts := by
    have hverdicts := h.verdicts
    rw [append_nil] at hverdicts
    rw [MutableRunState.push, hverdicts]
  ordinals := rfl
  maxActions := h.maxActions
  chargedActions := h.chargedActions
  reacquisitions := h.reacquisitions
  maxReacquisitions := h.maxReacquisitions

lemma remainingActions (h : RunExtends run run' added) :
    run'.remainingActions = run.remainingActions := by
  rw [MutableRunState.remainingActions, h.maxActions, h.chargedActions]
  rfl

lemma unclaimed (h : RunExtends run run' added) :
    run'.unclaimed = run.unclaimed - claimed added := by
  unfold MutableRunState.unclaimed
  rw [h.verdicts, h.chargedActions, claimed_append]
  omega

lemma unclaimedAt (h : RunExtends run run' added) {body : RungBody}
    (hbody : body.nestedVerdictsBefore ≤ run.verdicts.length) :
    run'.unclaimedAt body = run.unclaimedAt body := by
  unfold MutableRunState.unclaimedAt
  rw [h.verdicts, take_append_of_le_length hbody]

end RunExtends

/-! ## The invariant -/

structure ExecutionOk (run : MutableRunState V) (e : PlanExecution V) : Prop where
  port : e.plan.portFits = true
  begun : ∀ body, e.phase = .running body → body.nestedVerdictsBefore ≤ run.verdicts.length
  fits : ∀ body, e.phase = .running body → e.plan.enforcesCaps = true →
    body.rung.costCap.maxActions ≤ (run.maxActions - body.actionsBefore : ℕ)
  checked : ∀ rung budget checkedAt, e.phase = .deciding rung budget checkedAt →
    e.plan.enforcesCaps = true → rung.costCap.maxActions ≤ budget.remainingActions →
      rung.costCap.maxActions ≤ run.remainingActions
  waits : ∀ rung evidence checkedAt, e.phase = .pausing rung evidence checkedAt →
    e.plan.enforcesCaps = true → rung.costCap.maxActions ≤ run.remainingActions

/-- The execution is bound to be rejected. -/
def PlanPhase.fails : PlanPhase V → Bool
  | .cleaning .rethrow | .rejected => true
  | _ => false

/-- The root plan is bound to be rejected. -/
def Escalation.rootFails (s : Escalation V) : Bool :=
  match s.executionAt 0 with
  | some (_, phase) => phase.fails
  | none => false

structure LedgerInv (s : Escalation V) : Prop where
  executions : ∀ (id : ℕ) e, s.executions[id]? = some e → ExecutionOk s.run e
  root : ∃ e, s.executions[0]? = some e ∧ e.verdictsAtEntry = 0
  ordinals : s.run.verdicts.map RungVerdict.ordinal = List.range' 1 s.run.verdicts.length
  covered : s.run.unclaimed = 0 ∨ (∃ id, s.covers id = true) ∨ s.rootFails = true
  wrappers : ∀ wrapper ∈ s.wrappers, wrapper.port = .plain []
  reacquisitions : s.run.reacquisitions + s.reacquiring ≤ s.run.maxReacquisitions
  returned : ∀ result, s.rootResult = some result →
    result.ledger.verdicts = s.run.verdicts ∧
      result.ledger.chargedActions = s.run.chargedActions ∧ s.run.unclaimed = 0

variable {s t : Escalation V} {id : ℕ} {e e' : PlanExecution V} {added : List (RungVerdict V)}

lemma ExecutionOk.extend {run run' : MutableRunState V} (h : ExecutionOk run e)
    (hrun : RunExtends run run' added) : ExecutionOk run' e where
  port := h.port
  begun := by
    intro body hbody
    have hbegun := h.begun body hbody
    rw [hrun.verdicts, length_append]
    omega
  fits := by
    intro body hbody hcaps
    rw [hrun.maxActions]
    exact h.fits body hbody hcaps
  checked := by
    intro rung budget checkedAt hphase hcaps hfit
    rw [hrun.remainingActions]
    exact h.checked rung budget checkedAt hphase hcaps hfit
  waits := by
    intro rung evidence checkedAt hphase hcaps
    rw [hrun.remainingActions]
    exact h.waits rung evidence checkedAt hphase hcaps

def PlanPhase.Idle (phase : PlanPhase V) : Prop :=
  phase.awaited = none ∧ ∀ body, phase ≠ .running body

lemma ExecutionOk.idle {run : MutableRunState V} (hport : e.plan.portFits) (hidle : e.phase.Idle) :
    ExecutionOk run e where
  port := hport
  begun := fun body hbody => absurd hbody (hidle.2 body)
  fits := fun body hbody => absurd hbody (hidle.2 body)
  checked := by
    intro rung budget checkedAt hphase
    have hnone := hidle.1
    rw [hphase] at hnone
    cases hnone
  waits := by
    intro rung evidence checkedAt hphase
    have hnone := hidle.1
    rw [hphase] at hnone
    cases hnone

/-! ## One execution moves -/

lemma covers_iff (s : Escalation V) (id : ℕ) : s.covers id ↔
    ∃ e body, s.executions[id]? = some e ∧ e.phase = .running body ∧
      s.run.unclaimedAt body = 0 := by
  unfold covers executionAt
  cases he : s.executions[id]? with
  | none => simp
  | some e => cases hphase : e.phase <;> simp [hphase]

lemma coveredBeside_iff (s : Escalation V) (id : ℕ) :
    s.coveredBeside id ↔ ∃ other, other ≠ id ∧ s.covers other := by
  unfold coveredBeside
  rw [List.any_eq_true]
  constructor
  · rintro ⟨other, -, hother⟩
    rw [and_eq_true, bne_iff_ne] at hother
    exact ⟨other, hother⟩
  · rintro ⟨other, hne, hcovers⟩
    obtain ⟨e, body, he, -, -⟩ := (covers_iff s other).1 hcovers
    refine ⟨other, mem_range.2 (List.getElem?_eq_some_iff.1 he).1, ?_⟩
    rw [and_eq_true, bne_iff_ne]
    exact ⟨hne, hcovers⟩

lemma covered_iff (s : Escalation V) : s.covered ↔ ∃ id, s.covers id := by
  unfold covered
  rw [List.any_eq_true]
  constructor
  · rintro ⟨id, -, hcovers⟩
    exact ⟨id, hcovers⟩
  · rintro ⟨id, hcovers⟩
    obtain ⟨e, body, he, -, -⟩ := (covers_iff s id).1 hcovers
    exact ⟨id, mem_range.2 (List.getElem?_eq_some_iff.1 he).1, hcovers⟩

lemma getElem?_set_other {executions : List (PlanExecution V)} {other : ℕ} (hne : other ≠ id) :
    (executions.set id e')[other]? = executions[other]? :=
  getElem?_set_ne (Ne.symm hne)

lemma LedgerInv.covers_other (h : LedgerInv s) (hexec : t.executions = s.executions.set id e')
    (hrun : RunExtends s.run t.run added) {other : ℕ} (hne : other ≠ id) (hcovers : s.covers other)
    : t.covers other := by
  obtain ⟨e, body, he, hphase, hunclaimed⟩ := (covers_iff s other).1 hcovers
  refine (covers_iff t other).2 ⟨e, body, ?_, hphase, ?_⟩
  · rw [hexec, getElem?_set_other hne, he]
  · rw [hrun.unclaimedAt ((h.executions other e he).begun body hphase), hunclaimed]

lemma rootFails_set (he : s.executions[id]? = some e)
    (hexec : t.executions = s.executions.set id e') (hfails : e.phase.fails → e'.phase.fails)
    (hroot : s.rootFails) :
    t.rootFails := by
  unfold rootFails executionAt at hroot ⊢
  by_cases hid : id = 0
  · subst hid
    rw [he] at hroot
    rw [hexec, getElem?_set_self (List.getElem?_eq_some_iff.1 he).1]
    exact hfails hroot
  · rw [hexec, getElem?_set_other (Ne.symm hid)]
    exact hroot

lemma LedgerInv.covered_set (h : LedgerInv s) (he : s.executions[id]? = some e)
    (hexec : t.executions = s.executions.set id e') (hrun : RunExtends s.run t.run added)
    (hidle : ∀ body, e.phase ≠ .running body) (hfails : e.phase.fails → e'.phase.fails)
    (hadded : claimed added = 0) :
    t.run.unclaimed = 0 ∨ (∃ id, t.covers id) ∨ t.rootFails := by
  rcases h.covered with hzero | ⟨other, hcovers⟩ | hroot
  · exact .inl (by rw [hrun.unclaimed, hzero, hadded, sub_zero])
  · have hne : other ≠ id := by
      rintro rfl
      obtain ⟨e', body, he', hphase, -⟩ := (covers_iff s other).1 hcovers
      rw [he] at he'
      cases he'
      exact hidle body hphase
    exact .inr (.inl ⟨other, h.covers_other hexec hrun hne hcovers⟩)
  · exact .inr (.inr (rootFails_set he hexec hfails hroot))

lemma rootResult_eq_some_iff {result : EscalationRun V} : s.rootResult = some result ↔
    ∃ e, s.executions[0]? = some e ∧ e.phase = .returned result := by
  unfold rootResult executionAt
  cases he : s.executions[0]? with
  | none => simp
  | some e => cases hphase : e.phase <;> simp [hphase]

lemma rootFails_of_rootResult {result : EscalationRun V} (h : s.rootResult = some result) :
    s.rootFails = false := by
  obtain ⟨e, he, hphase⟩ := rootResult_eq_some_iff.1 h
  unfold rootFails executionAt
  rw [he, map_some, hphase]
  rfl

/-- **One execution moves.** The invariant is kept where the execution is as it should be, what is
charged stays covered, and the root returns only with nothing covered. -/
lemma LedgerInv.moves (h : LedgerInv s) (hopen : s.rootResult = none)
    (he : s.executions[id]? = some e) (hexec : t.executions = s.executions.set id e')
    (hrun : RunExtends s.run t.run added)
    (hwrappers : ∀ wrapper ∈ t.wrappers, wrapper.port = .plain []) (hcalls : t.calls = s.calls)
    (hentry : e'.verdictsAtEntry = e.verdictsAtEntry) (hok : ExecutionOk t.run e')
    (hcovered : t.run.unclaimed = 0 ∨ (∃ id, t.covers id) ∨ t.rootFails)
    (hresult : ∀ result, e'.phase = .returned result → result = t.result e')
    (halone : t.rootResult.isSome → t.covered = false) : LedgerInv t where
  executions := by
    intro other e'' he''
    by_cases hne : other = id
    · subst hne
      rw [hexec, getElem?_set_self (List.getElem?_eq_some_iff.1 he).1] at he''
      cases he''
      exact hok
    · rw [hexec, getElem?_set_other hne] at he''
      exact (h.executions other e'' he'').extend hrun
  root := by
    obtain ⟨r, hr, hzero⟩ := h.root
    by_cases hid : id = 0
    · subst hid
      rw [he] at hr
      cases hr
      exact ⟨e', by rw [hexec, getElem?_set_self (List.getElem?_eq_some_iff.1 he).1],
        hentry.trans hzero⟩
    · exact ⟨r, by rw [hexec, getElem?_set_other (Ne.symm hid), hr], hzero⟩
  ordinals := by
    rw [hrun.verdicts, map_append, h.ordinals, hrun.ordinals, length_append,
      ← range'_append_1]
    congr 2
    omega
  covered := hcovered
  wrappers := hwrappers
  reacquisitions := by
    have hkept := h.reacquisitions
    unfold reacquiring at hkept ⊢
    rwa [hrun.reacquisitions, hrun.maxReacquisitions, hcalls]
  returned := by
    intro result hroot
    obtain ⟨e'', he'', hphase⟩ := rootResult_eq_some_iff.1 hroot
    have hid : id = 0 := by
      by_contra hid
      rw [hexec, getElem?_set_other (Ne.symm hid)] at he''
      have hearlier := rootResult_eq_some_iff.2 ⟨e'', he'', hphase⟩
      rw [hopen] at hearlier
      cases hearlier
    subst hid
    rw [hexec, getElem?_set_self (List.getElem?_eq_some_iff.1 he).1] at he''
    cases he''
    obtain ⟨r, hr, hzero⟩ := h.root
    rw [he] at hr
    cases hr
    rw [hresult result hphase]
    refine ⟨?_, rfl, ?_⟩
    · unfold Escalation.result
      dsimp only
      rw [hentry, hzero, drop_zero]
    · have hnone := halone (by rw [hroot]; rfl)
      rcases hcovered with hunclaimed | hsome | hfails
      · exact hunclaimed
      · rw [(covered_iff t).2 hsome] at hnone
        cases hnone
      · rw [rootFails_of_rootResult hroot] at hfails
        cases hfails

/-! ## The moves of an execution -/

/-- An execution gets to a phase with no body running, and to a return only with its result. -/
def LeavesTo (s : Escalation V) (id : ℕ) (e : PlanExecution V) (t : Escalation V) : Prop :=
  ∃ phase : PlanPhase V, t = s.withExecution id { e with phase } ∧ phase.Idle ∧
    ∀ result, phase = .returned result → result = s.result e

lemma leavesTo_proceed (s : Escalation V) (id : ℕ) (e : PlanExecution V) :
    LeavesTo s id e (s.proceed id e) := by
  unfold proceed
  by_cases hrungs : e.rungs = []
  · rw [if_pos hrungs]
    exact ⟨_, rfl, ⟨rfl, by simp⟩, fun result hresult => (PlanPhase.returned.inj hresult).symm⟩
  · rw [if_neg hrungs]
    exact ⟨_, rfl, ⟨rfl, by simp⟩, by simp⟩

lemma leavesTo_afterCleanup (s : Escalation V) (id : ℕ) (e : PlanExecution V) (after : AfterCleanup)
    : LeavesTo s id e (s.afterCleanup id e after) := by
  cases after with
  | proceed => exact leavesTo_proceed s id e
  | stop =>
    exact ⟨_, rfl, ⟨rfl, by simp⟩, fun result hresult => (PlanPhase.returned.inj hresult).symm⟩
  | rethrow => exact ⟨_, rfl, ⟨rfl, by simp⟩, by simp⟩

lemma leavesTo_leaveRung (s : Escalation V) (id : ℕ) (e : PlanExecution V) (rung : EscalationRung)
    (after : AfterCleanup) :
    LeavesTo s id e (s.leaveRung id e rung after) := by
  unfold leaveRung
  split
  · exact ⟨_, rfl, ⟨rfl, by simp⟩, by simp⟩
  · exact leavesTo_afterCleanup s id e after

lemma rootFails_withExecution (he : s.executions[0]? = some e) (e' : PlanExecution V) :
    (s.withExecution 0 e').rootFails = e'.phase.fails := by
  have hset : (s.withExecution 0 e').executions[0]? = some e' :=
    getElem?_set_self (List.getElem?_eq_some_iff.1 he).1
  unfold rootFails executionAt
  rw [hset]
  rfl

variable {outcome : Option (RungOutcome V)}

lemma rootFails_leaveRung (he : s.executions[0]? = some e) (rung : EscalationRung) :
    (s.leaveRung 0 { e with outcome } rung .rethrow).rootFails := by
  unfold leaveRung
  split
  · exact rootFails_withExecution he _
  · exact rootFails_withExecution he _

lemma LedgerInv.leaves (h : LedgerInv s) (hopen : s.rootResult = none)
    (he : s.executions[id]? = some e) {run : MutableRunState V} (hrun : RunExtends s.run run added)
    (hleaves : LeavesTo { s with run } id { e with outcome } t)
    (hcovered : t.run.unclaimed = 0 ∨ (∃ id, t.covers id) ∨ t.rootFails)
    (halone : t.rootResult.isSome → t.covered = false) : LedgerInv t := by
  obtain ⟨phase, rfl, hidle, hresult⟩ := hleaves
  exact h.moves hopen he rfl hrun h.wrappers rfl rfl
    (.idle (h.executions id e he).port hidle) hcovered hresult halone

lemma LedgerInv.check (h : LedgerInv s) (hopen : s.rootResult = none)
    (he : s.executions[id]? = some e) (hphase : e.phase = .next) (now : ℚ)
    (halone : (s.check id e now).rootResult.isSome → (s.check id e now).covered = false) :
    LedgerInv (s.check id e now) := by
  unfold Escalation.check at halone ⊢
  cases hrungs : e.rungs with
  | nil => exact h
  | cons rung rungs =>
    rw [hrungs] at halone
    have hrun : RunExtends s.run { s.run with lastNow := now } [] := .same rfl rfl rfl rfl rfl
    have hidle : ∀ body, e.phase ≠ .running body := by simp [hphase]
    refine h.moves hopen he rfl hrun h.wrappers rfl rfl ?_
      (h.covered_set he rfl hrun hidle (by simp [hphase, PlanPhase.fails]) rfl) (by simp) halone
    refine ⟨(h.executions id e he).port, by simp, by simp, ?_, by simp⟩
    intro rung' budget checkedAt hdeciding hcaps hfits
    obtain ⟨rfl, rfl, rfl⟩ := PlanPhase.deciding.inj hdeciding
    exact hfits

lemma LedgerInv.skip (h : LedgerInv s) (hopen : s.rootResult = none)
    (he : s.executions[id]? = some e) (hidle : ∀ body, e.phase ≠ .running body)
    (hgoes : e.phase.fails = false) (rung : EscalationRung) (unmet : String)
    (halone : (s.skip id e rung unmet).rootResult.isSome →
      (s.skip id e rung unmet).covered = false) : LedgerInv (s.skip id e rung unmet) := by
  have hrun : RunExtends s.run (s.run.push rung (.skipped unmet)) _ :=
    (RunExtends.refl s.run).push rung (.skipped unmet)
  obtain ⟨phase, hskip, hphase⟩ :=
    leavesTo_proceed { s with run := s.run.push rung (.skipped unmet) } id e
  rw [Escalation.skip, hskip] at halone ⊢
  refine h.leaves hopen he hrun ⟨phase, rfl, hphase⟩ ?_ halone
  exact h.covered_set he rfl hrun hidle (by simp [hgoes]) rfl

variable {plan : EscalationPlan}

lemma wrapPort_spec (hwrappers : ∀ wrapper ∈ s.wrappers, wrapper.port = .plain []) (id : ℕ)
    (hport : plan.portFits) :
    RunExtends s.run (s.wrapPort id plan).2.run [] ∧
      (s.wrapPort id plan).2.executions = s.executions ∧
      (s.wrapPort id plan).2.calls = s.calls ∧
      ∀ wrapper ∈ (s.wrapPort id plan).2.wrappers, wrapper.port = .plain [] := by
  unfold wrapPort
  unfold EscalationPlan.portFits at hport
  cases hplan : plan.port with
  | none => exact ⟨.refl s.run, rfl, rfl, hwrappers⟩
  | some port =>
    have hrun : RunExtends s.run
        { s.run with reacquire := s.run.reacquire.or (if plan.reacquire then some id else none) }
        [] := .same rfl rfl rfl rfl rfl
    cases port with
    | wrapper w => exact ⟨hrun, rfl, rfl, hwrappers⟩
    | plain inner =>
      refine ⟨hrun, rfl, rfl, fun wrapper hwrapper => ?_⟩
      rw [hplan] at hport
      rcases mem_append.1 hwrapper with hold | hnew
      · exact hwrappers wrapper hold
      · obtain rfl := mem_singleton.1 hnew
        rw [List.isEmpty_iff.1 hport]

lemma LedgerInv.startBody (h : LedgerInv s) (hopen : s.rootResult = none)
    (he : s.executions[id]? = some e) (hidle : ∀ body, e.phase ≠ .running body)
    (hgoes : e.phase.fails = false) (rung : EscalationRung) (evidence : List String)
    (checkedAt : ℚ) (hfits : e.plan.enforcesCaps →
      rung.costCap.maxActions ≤ s.run.remainingActions)
    (halone : (s.startBody id e rung evidence checkedAt).rootResult.isSome →
      (s.startBody id e rung evidence checkedAt).covered = false) :
    LedgerInv (s.startBody id e rung evidence checkedAt) := by
  obtain ⟨hrun, hexec, hcalls, hwrappers⟩ :=
    wrapPort_spec h.wrappers id (h.executions id e he).port
  have hset : (s.startBody id e rung evidence checkedAt).executions = s.executions.set id
      (PlanExecution.mk e.plan e.rungs e.verdictsAtEntry e.outcome
        (.running ⟨rung, evidence, checkedAt, s.run.chargedActions, s.run.chargedReads,
          s.run.verdicts.length, (s.wrapPort id e.plan).1⟩)) := by
    rw [← hexec]
    rfl
  refine h.moves hopen he hset hrun hwrappers hcalls rfl ?_
    (h.covered_set he hset hrun hidle (by simp [hgoes]) rfl) (by simp) halone
  refine ⟨(h.executions id e he).port, ?_, ?_, by simp, by simp⟩
  · intro body hbody
    cases hbody
    have hverdicts := hrun.verdicts
    rw [append_nil] at hverdicts
    exact (congrArg List.length hverdicts).ge
  · intro body hbody hcaps
    cases hbody
    have hmax := hrun.maxActions
    exact hmax ▸ hfits hcaps

lemma le_of_budgetDecision {cost : RungCost} {budget : BudgetState}
    (h : budgetDecision cost budget true = none) : cost.maxActions ≤ budget.remainingActions := by
  unfold budgetDecision at h
  by_contra hlt
  rw [not_le] at hlt
  split_ifs at h
  all_goals simp_all

lemma LedgerInv.reject (h : LedgerInv s) (hopen : s.rootResult = none)
    (he : s.executions[id]? = some e) (hidle : ∀ body, e.phase ≠ .running body)
    (halone : (s.withExecution id { e with phase := .rejected }).rootResult.isSome →
      (s.withExecution id { e with phase := .rejected }).covered = false) :
    LedgerInv (s.withExecution id { e with phase := .rejected }) :=
  h.moves hopen he rfl (.refl s.run) h.wrappers rfl rfl
    (.idle (h.executions id e he).port ⟨rfl, by simp⟩)
    (h.covered_set he rfl (.refl s.run) hidle (fun _ => rfl) rfl) (by simp) halone

lemma LedgerInv.decideEntry (h : LedgerInv s) (hopen : s.rootResult = none)
    (he : s.executions[id]? = some e) {rung : EscalationRung} {budget : BudgetState} {checkedAt : ℚ}
    (hphase : e.phase = .deciding rung budget checkedAt) (now : ℚ) (decision : Option EntryDecision)
    (halone : (s.decideEntry id e rung budget checkedAt now decision).rootResult.isSome →
      (s.decideEntry id e rung budget checkedAt now decision).covered = false) :
    LedgerInv (s.decideEntry id e rung budget checkedAt now decision) := by
  have hidle : ∀ body, e.phase ≠ .running body := by simp [hphase]
  have hgoes : e.phase.fails = false := by rw [hphase]; rfl
  unfold Escalation.decideEntry at halone ⊢
  cases decision with
  | none => exact h.reject hopen he hidle halone
  | some decision =>
    cases decision with
    | decline unmet => exact h.skip hopen he hidle hgoes rung unmet halone
    | enter evidence =>
      dsimp only at halone ⊢
      cases hadmits : budgetDecision rung.costCap budget e.plan.enforcesCaps with
      | some unmet =>
        rw [hadmits] at halone
        exact h.skip hopen he hidle hgoes rung unmet halone
      | none =>
        rw [hadmits] at halone
        dsimp only at halone ⊢
        have hfits : e.plan.enforcesCaps →
            rung.costCap.maxActions ≤ s.run.remainingActions := by
          intro hcaps
          rw [hcaps] at hadmits
          exact (h.executions id e he).checked rung budget checkedAt hphase hcaps
            (le_of_budgetDecision hadmits)
        split_ifs at halone ⊢
        · exact h.skip hopen he hidle hgoes rung "deadline-expired" halone
        · refine h.moves hopen he rfl (.refl s.run) h.wrappers rfl rfl ?_
            (h.covered_set he rfl (.refl s.run) hidle (by simp [hgoes]) rfl) (by simp) halone
          refine ⟨(h.executions id e he).port, by simp, by simp, by simp, ?_⟩
          intro rung' evidence' checkedAt' hpausing hcaps
          obtain ⟨rfl, rfl, rfl⟩ := PlanPhase.pausing.inj hpausing
          exact hfits hcaps
        · exact h.startBody hopen he hidle hgoes rung evidence checkedAt hfits halone

lemma LedgerInv.slept (h : LedgerInv s) (hopen : s.rootResult = none)
    (he : s.executions[id]? = some e) {rung : EscalationRung} {evidence : List String}
    {checkedAt : ℚ} (hphase : e.phase = .pausing rung evidence checkedAt)
    (halone : (s.startBody id e rung evidence checkedAt).rootResult.isSome →
      (s.startBody id e rung evidence checkedAt).covered = false) :
    LedgerInv (s.startBody id e rung evidence checkedAt) :=
  h.startBody hopen he (by simp [hphase]) (by rw [hphase]; rfl) rung evidence checkedAt
    ((h.executions id e he).waits rung evidence checkedAt hphase) halone

/-- **The body of a rung returns.** Where it covered, nothing is unclaimed once its verdict is
pushed; where another body covers, that one goes on to. -/
lemma LedgerInv.claim (h : LedgerInv s) (hopen : s.rootResult = none)
    (he : s.executions[id]? = some e) {body : RungBody} (hphase : e.phase = .running body)
    (hcond : s.covers id ∨ s.coveredBeside id) {run : MutableRunState V}
    (hrun : RunExtends s.run run added)
    (hadded : claimed added = s.run.unclaimed - s.run.unclaimedAt body)
    (hleaves : LeavesTo { s with run } id { e with outcome } t)
    (halone : t.rootResult.isSome → t.covered = false) : LedgerInv t := by
  refine h.leaves hopen he hrun hleaves ?_ halone
  obtain ⟨phase, rfl, -, -⟩ := hleaves
  rcases hcond with hcovers | hbeside
  · obtain ⟨e', body', he', hphase', hzero⟩ := (covers_iff s id).1 hcovers
    rw [he] at he'
    cases he'
    rw [hphase] at hphase'
    cases hphase'
    have hunclaimed := hrun.unclaimed
    left
    change run.unclaimed = 0
    omega
  · obtain ⟨other, hne, hother⟩ := (coveredBeside_iff s id).1 hbeside
    exact .inr (.inl ⟨other, h.covers_other rfl hrun hne hother⟩)

lemma extends_remember (s : Escalation V) (outcome : RungOutcome V) (endedAt : ℚ) :
    RunExtends s.run (s.remember outcome endedAt) [] := .same rfl rfl rfl rfl rfl

lemma LedgerInv.bodyReturns (h : LedgerInv s) (hopen : s.rootResult = none)
    (he : s.executions[id]? = some e) {body : RungBody} (hphase : e.phase = .running body)
    (outcome : RungOutcome V) (endedAt : ℚ) (classified : Option (Option AttemptDisposition))
    (hcond : s.covers id ∨ s.coveredBeside id)
    (halone : (s.bodyReturns id e body outcome endedAt classified).rootResult.isSome →
      (s.bodyReturns id e body outcome endedAt classified).covered = false) :
    LedgerInv (s.bodyReturns id e body outcome endedAt classified) := by
  have hfigures := chargedActions_figures s body outcome endedAt
  have hremember := extends_remember s outcome endedAt
  unfold Escalation.bodyReturns at halone ⊢
  cases outcome with
  | succeeded value evidence =>
    refine h.claim hopen he hphase hcond (hremember.push body.rung _) ?_
      (leavesTo_leaveRung _ id _ body.rung _) halone
    simpa [claimed, RungVerdict.claims] using hfigures
  | failed failure evidence =>
    refine h.claim hopen he hphase hcond (hremember.push body.rung _) ?_
      (leavesTo_leaveRung _ id _ body.rung _) halone
    simpa [claimed, RungVerdict.claims] using hfigures

lemma LedgerInv.bodyThrows (h : LedgerInv s) (hopen : s.rootResult = none)
    (he : s.executions[id]? = some e) (rung : EscalationRung)
    (hcond : id = 0 ∨ s.run.unclaimed = 0 ∨ s.coveredBeside id)
    (halone : (s.leaveRung id e rung .rethrow).rootResult.isSome →
      (s.leaveRung id e rung .rethrow).covered = false) :
    LedgerInv (s.leaveRung id e rung .rethrow) := by
  have hleaves := leavesTo_leaveRung s id e rung .rethrow
  refine h.leaves hopen he (.refl s.run) hleaves ?_ halone
  obtain ⟨phase, heq, -, -⟩ := hleaves
  rcases hcond with rfl | hzero | hbeside
  · exact .inr (.inr (rootFails_leaveRung he rung))
  · rw [heq]
    exact .inl hzero
  · obtain ⟨other, hne, hother⟩ := (coveredBeside_iff s id).1 hbeside
    have hcovers := @LedgerInv.covers_other V s (s.withExecution id { e with phase }) id
      { e with phase } [] h rfl (.refl s.run) other hne hother
    rw [heq]
    exact .inr (.inl ⟨other, hcovers⟩)

lemma LedgerInv.cleanupEnds (h : LedgerInv s) (hopen : s.rootResult = none)
    (he : s.executions[id]? = some e) {after : AfterCleanup} (hphase : e.phase = .cleaning after)
    (ok : Bool)
    (halone : (s.afterCleanup id e (if ok then after else .rethrow)).rootResult.isSome = true →
      (s.afterCleanup id e (if ok then after else .rethrow)).covered = false) :
    LedgerInv (s.afterCleanup id e (if ok then after else .rethrow)) := by
  have hidle : ∀ body, e.phase ≠ .running body := by simp [hphase]
  have hrejects : ∀ after', after' = .rethrow → s.afterCleanup id e after' =
      s.withExecution id { e with phase := .rejected } := by
    rintro after' rfl
    rfl
  by_cases hthrows : (if ok then after else AfterCleanup.rethrow) = .rethrow
  · rw [hrejects _ hthrows] at halone ⊢
    exact h.reject hopen he hidle halone
  · have hgoes : e.phase.fails = false := by
      rw [hphase]
      cases after with
      | rethrow => exact absurd (by split <;> rfl) hthrows
      | proceed | stop => rfl
    have hleaves := leavesTo_afterCleanup s id e (if ok then after else .rethrow)
    refine h.leaves hopen he (.refl s.run) hleaves ?_ halone
    obtain ⟨phase, heq, -, -⟩ := hleaves
    rw [heq]
    exact h.covered_set he rfl (.refl s.run) hidle (by simp [hgoes]) rfl

/-! ## Calls and charges -/

/-- **Charges.** Where the executions stay, and actions are charged under a body that covers, the
invariant is kept. -/
lemma LedgerInv.spends (h : LedgerInv s) (hopen : s.rootResult = none) {n : ℕ}
    (hexec : t.executions = s.executions) (hverdicts : t.run.verdicts = s.run.verdicts)
    (hmax : t.run.maxActions = s.run.maxActions)
    (hcharged : t.run.chargedActions = s.run.chargedActions + n) (hcovered : 0 < n → s.covered)
    (hcaps : ∀ e ∈ s.executions, e.plan.enforcesCaps → ∀ rung ∈ e.phase.awaited,
      rung.costCap.maxActions ≤ s.run.remainingActions →
        rung.costCap.maxActions ≤ t.run.remainingActions)
    (hwrappers : ∀ wrapper ∈ t.wrappers, wrapper.port = .plain [])
    (hreacquisitions : t.run.reacquisitions + t.reacquiring ≤ t.run.maxReacquisitions) :
    LedgerInv t where
  executions := by
    intro id e he
    rw [hexec] at he
    have hok := h.executions id e he
    have hmem : e ∈ s.executions := mem_of_getElem? he
    refine ⟨hok.port, ?_, ?_, ?_, ?_⟩
    · rw [hverdicts]
      exact hok.begun
    · rw [hmax]
      exact hok.fits
    · intro rung budget checkedAt hphase henforces hfit
      have hawaited : rung ∈ e.phase.awaited := by rw [hphase]; rfl
      exact hcaps e hmem henforces rung hawaited
        (hok.checked rung budget checkedAt hphase henforces hfit)
    · intro rung evidence checkedAt hphase henforces
      have hawaited : rung ∈ e.phase.awaited := by rw [hphase]; rfl
      exact hcaps e hmem henforces rung hawaited
        (hok.waits rung evidence checkedAt hphase henforces)
  root := by rw [hexec]; exact h.root
  ordinals := by rw [hverdicts]; exact h.ordinals
  covered := by
    have hkeeps : ∀ id, t.covers id = s.covers id := by
      intro id
      unfold covers executionAt unclaimedAt
      rw [hexec, hverdicts]
    have hfails : t.rootFails = s.rootFails := by
      unfold rootFails executionAt
      rw [hexec]
    simp only [hkeeps, hfails]
    rcases Nat.eq_zero_or_pos n with hzero | hpos
    · have hunclaimed : t.run.unclaimed = s.run.unclaimed := by
        unfold unclaimed
        rw [hcharged, hverdicts, hzero, Nat.add_zero]
      rw [hunclaimed]
      exact h.covered
    · exact .inr (.inl ((covered_iff s).1 (hcovered hpos)))
  wrappers := hwrappers
  reacquisitions := hreacquisitions
  returned := by
    intro result hresult
    have hsame : t.rootResult = s.rootResult := by
      unfold rootResult executionAt
      rw [hexec]
    rw [hsame, hopen] at hresult
    cases hresult

lemma LedgerInv.calls (h : LedgerInv s) (hopen : s.rootResult = none)
    (hexec : t.executions = s.executions) (hrun : RunExtends s.run { t.run with
      reacquisitions := s.run.reacquisitions } [])
    (hwrappers : ∀ wrapper ∈ t.wrappers, wrapper.port = .plain [])
    (hreacquisitions : t.run.reacquisitions + t.reacquiring ≤ t.run.maxReacquisitions) :
    LedgerInv t := by
  have hverdicts := hrun.verdicts
  rw [append_nil] at hverdicts
  refine h.spends hopen hexec hverdicts hrun.maxActions (n := 0) hrun.chargedActions (by simp) ?_
    hwrappers hreacquisitions
  intro e _ _ rung _ hfit
  have hremaining := hrun.remainingActions
  rw [← hremaining] at hfit
  exact hfit

variable {call : PortCall} {c : ℕ}

lemma reacquiring_withStage (hcall : s.calls[c]? = some call) (stage : PortCallStage) :
    (s.withStage c call stage).reacquiring +
      (if call.stage.isReacquiring then 1 else 0) =
        s.reacquiring + if stage.isReacquiring then 1 else 0 := by
  obtain ⟨hlt, hget⟩ := List.getElem?_eq_some_iff.1 hcall
  have hle : (if call.stage.isReacquiring then 1 else 0) ≤
      s.calls.countP fun call => call.stage.isReacquiring := by
    split
    · rename_i hstage
      exact countP_pos_iff.2 ⟨call, mem_of_getElem? hcall, hstage⟩
    · exact Nat.zero_le _
  unfold reacquiring withStage
  dsimp only
  rw [countP_set hlt, hget]
  dsimp only
  omega

lemma LedgerInv.withStage (h : LedgerInv s) (hopen : s.rootResult = none)
    (hcall : s.calls[c]? = some call) {stage : PortCallStage} (hstage : stage.isReacquiring = false)
    : LedgerInv (s.withStage c call stage) := by
  have hcount := reacquiring_withStage hcall stage
  rw [hstage] at hcount
  have hkept := h.reacquisitions
  refine h.calls hopen rfl (.refl s.run) h.wrappers ?_
  change s.run.reacquisitions + _ ≤ s.run.maxReacquisitions
  simp only [false_eq_true, if_false] at hcount
  omega

lemma LedgerInv.wentStale (h : LedgerInv s) (hopen : s.rootResult = none)
    (hcall : s.calls[c]? = some call)
    (hcond : s.reacquiring < (s.wentStale c call).reacquiring →
      s.run.reacquisitions + s.reacquiring < s.run.maxReacquisitions) :
    LedgerInv (s.wentStale c call) := by
  unfold Escalation.wentStale at hcond ⊢
  rcases hstage : call.stage with (_ | current) | current | next | _
  case underway.some =>
    rw [hstage] at hcond
    dsimp only at hcond ⊢
    by_cases hrefuses : s.run.reacquire = none ∨ s.run.maxReacquisitions ≤ s.run.reacquisitions
    · rw [if_pos hrefuses]
      exact h.withStage hopen hcall rfl
    · rw [if_neg hrefuses] at hcond ⊢
      have hcount := reacquiring_withStage hcall (.reacquiring current)
      rw [hstage] at hcount
      simp only [PortCallStage.isReacquiring, if_true, false_eq_true, if_false,
        Nat.add_zero] at hcount
      have hbound := hcond (by omega)
      refine h.calls hopen rfl (.refl s.run) h.wrappers ?_
      change s.run.reacquisitions + _ ≤ s.run.maxReacquisitions
      omega
  all_goals exact h.withStage hopen hcall rfl

lemma port_of_mem_modify {wrappers : List PortWrapper} {w : ℕ} {f : PortWrapper → PortWrapper}
    (hf : ∀ wrapper, (f wrapper).port = wrapper.port)
    (hwrappers : ∀ wrapper ∈ wrappers, wrapper.port = .plain []) :
    ∀ wrapper ∈ wrappers.modify w f, wrapper.port = .plain [] := by
  intro wrapper hmem
  obtain ⟨i, hi⟩ := mem_iff_getElem?.1 hmem
  rw [getElem?_modify] at hi
  obtain ⟨old, hold, heq⟩ := map_eq_some_iff.1 hi
  have hport := hwrappers old (mem_of_getElem? hold)
  split at heq
  · rw [← heq, hf, hport]
  · rw [← heq, hport]

/-- `state.reacquire` resolves. -/
lemma LedgerInv.reacquired (h : LedgerInv s) (hopen : s.rootResult = none)
    (hcall : s.calls[c]? = some call) (hstage : call.stage.isReacquiring) (next : Option String) :
    LedgerInv (s.reacquired c call next) := by
  cases next with
  | none => exact h.withStage hopen hcall rfl
  | some next =>
    have hcount := reacquiring_withStage hcall (.again next)
    rw [hstage] at hcount
    simp only [PortCallStage.isReacquiring, if_true, false_eq_true, if_false,
      Nat.add_zero] at hcount
    have hkept := h.reacquisitions
    refine h.calls hopen rfl (.same rfl rfl rfl rfl rfl)
      (port_of_mem_modify (fun _ => rfl) h.wrappers) ?_
    change s.run.reacquisitions + 1 + (s.withStage c call (.again next)).reacquiring ≤
      s.run.maxReacquisitions
    omega

lemma LedgerInv.passesTo (h : LedgerInv s) (call : PortCall) (w : ℕ) :
    s.passesTo call w = false := by
  unfold Escalation.passesTo
  cases hwrapper : s.wrappers[call.wrapper]? with
  | none => rfl
  | some wrapper =>
    obtain ⟨port, owned⟩ := wrapper
    obtain rfl : port = .plain [] := h.wrappers _ (mem_of_getElem? hwrapper)
    rfl

lemma LedgerInv.passedOn (h : LedgerInv s) (call w : ℕ) : s.happen (.passedOn call w) = s := by
  unfold happen
  dsimp only
  split
  · split
    · rw [h.passesTo]
      rfl
    · rfl
  · rfl

lemma LedgerInv.callWrapper (h : LedgerInv s) (hopen : s.rootResult = none) (w : ℕ)
    (wrapper : PortWrapper) (method : PortMethod) (ref : String) (origin : ℕ)
    (hcovered : 0 < (if method.isMutation then 1 else 0) → s.covered = true)
    (hcaps : ∀ e ∈ s.executions, e.plan.enforcesCaps → ∀ rung ∈ e.phase.awaited,
      rung.costCap.maxActions ≤ s.run.remainingActions → rung.costCap.maxActions ≤
        (s.run.charge (if method.isMutation then 1 else 0)).remainingActions) :
    LedgerInv (s.callWrapper w wrapper method ref origin) := by
  refine h.spends hopen rfl rfl rfl rfl hcovered hcaps h.wrappers ?_
  have hkept := h.reacquisitions
  have hcount : (s.callWrapper w wrapper method ref origin).reacquiring = s.reacquiring := by
    unfold Escalation.reacquiring Escalation.callWrapper
    simp [PortCallStage.isReacquiring]
  rw [hcount]
  exact hkept

lemma LedgerInv.runSubplan (h : LedgerInv s) (hopen : s.rootResult = none) (hport : plan.portFits) :
    LedgerInv (s.happen (.runSubplan plan)) := by
  obtain ⟨r, hr, hzero⟩ := h.root
  have hlt : 0 < s.executions.length := (List.getElem?_eq_some_iff.1 hr).1
  have hold : ∀ (id : ℕ) e, s.executions[id]? = some e →
      (s.happen (.runSubplan plan)).executions[id]? = some e := by
    intro id e he
    exact getElem?_append_left (List.getElem?_eq_some_iff.1 he).1 ▸ he
  have hfirst : (s.happen (.runSubplan plan)).executions[0]? = s.executions[0]? :=
    getElem?_append_left hlt
  have hidle : (@PlanExecution.start V plan s.run.verdicts.length).phase.Idle := by
    unfold PlanExecution.start
    dsimp only
    split
    · exact ⟨rfl, by simp⟩
    · exact ⟨rfl, by simp⟩
  refine ⟨?_, ⟨r, (hfirst.trans hr), hzero⟩, h.ordinals, ?_, h.wrappers, h.reacquisitions, ?_⟩
  · intro id e he
    rcases mem_append.1 (mem_of_getElem? he) with hmem | hmem
    · obtain ⟨i, hi⟩ := mem_iff_getElem?.1 hmem
      exact h.executions i e hi
    · obtain rfl := mem_singleton.1 hmem
      exact .idle hport hidle
  · rcases h.covered with hunclaimed | ⟨id, hcovers⟩ | hfails
    · exact .inl hunclaimed
    · obtain ⟨e, body, he, hphase, hunclaimed⟩ := (covers_iff s id).1 hcovers
      exact .inr (.inl ⟨id, (covers_iff _ id).2 ⟨e, body, hold id e he, hphase, hunclaimed⟩⟩)
    · refine .inr (.inr ?_)
      unfold rootFails executionAt at hfails ⊢
      rw [hfirst]
      exact hfails
  · intro result hresult
    unfold rootResult executionAt at hresult hopen
    rw [hfirst, hopen] at hresult
    cases hresult

/-! ## Steps and runs -/

lemma rootResult_of_rootSettled (hopen : s.rootSettled = false) : s.rootResult = none := by
  unfold rootSettled at hopen
  unfold rootResult
  split at hopen
  · cases hopen
  · cases hopen
  · cases hopen
  · rename_i hreturned _ _
    split
    · rename_i e result heq
      exact absurd heq (hreturned e result)
    · rfl

/-- **The step rule.** A step that meets the conditions keeps the invariant.

**Proof sketch.** By cases on what happens: an execution moves, or a call does, or actions are
charged. -/
theorem LedgerInv.step (h : LedgerInv s) (event : EscalationEvent V) (hmeets : s.Meets event) :
    LedgerInv (s.step event) := by
  cases hsettled : s.rootSettled with
  | true =>
    rw [Escalation.step, if_pos hsettled]
    exact h
  | false =>
    have hstep : s.step event = s.happen event := by
      rw [Escalation.step, if_neg (by simp [hsettled])]
    have hopen := rootResult_of_rootSettled hsettled
    obtain ⟨hcharges, hcaps, hreturns, hthrows, halone, hasks, hports⟩ := hmeets
    rw [hstep] at halone hasks ⊢
    have hat : ∀ {id : ℕ} {e : PlanExecution V} {phase : PlanPhase V},
        s.executionAt id = some (e, phase) → s.executions[id]? = some e ∧ e.phase = phase := by
      intro id e phase hat
      obtain ⟨e', he', heq⟩ := Option.map_eq_some_iff.1 hat
      cases heq
      exact ⟨he', rfl⟩
    cases event with
    | runSubplan plan => exact h.runSubplan hopen (hports plan rfl)
    | checked id now =>
      unfold Escalation.happen at halone ⊢
      dsimp only at halone ⊢
      split at halone
      · rename_i e heq
        obtain ⟨he, hphase⟩ := hat heq
        exact h.check hopen he hphase now halone
      · exact h
    | decided id decision now =>
      unfold Escalation.happen at halone ⊢
      dsimp only at halone ⊢
      split at halone
      · rename_i e rung budget checkedAt heq
        obtain ⟨he, hphase⟩ := hat heq
        exact h.decideEntry hopen he hphase now decision halone
      · exact h
    | slept id ok =>
      unfold Escalation.happen at halone ⊢
      dsimp only at halone ⊢
      split at halone
      · rename_i e rung evidence checkedAt heq
        obtain ⟨he, hphase⟩ := hat heq
        cases ok with
        | true => exact h.slept hopen he hphase halone
        | false => exact h.reject hopen he (by simp [hphase]) halone
      · exact h
    | bodyReturns id outcome endedAt classified =>
      unfold Escalation.happen at halone ⊢
      dsimp only at halone ⊢
      split at halone
      · rename_i e body heq
        obtain ⟨he, hphase⟩ := hat heq
        exact h.bodyReturns hopen he hphase outcome endedAt classified (hreturns id rfl) halone
      · exact h
    | bodyThrows id =>
      unfold Escalation.happen at halone ⊢
      dsimp only at halone ⊢
      split at halone
      · rename_i e body heq
        exact h.bodyThrows hopen (hat heq).1 body.rung (hthrows id rfl) halone
      · exact h
    | cleanupEnds id ok =>
      unfold Escalation.happen at halone ⊢
      dsimp only at halone ⊢
      split at halone
      · rename_i e after heq
        obtain ⟨he, hphase⟩ := hat heq
        exact h.cleanupEnds hopen he hphase ok halone
      · exact h
    | charged actions =>
      exact h.spends hopen rfl rfl rfl rfl hcharges hcaps h.wrappers h.reacquisitions
    | portCalled w method ref =>
      unfold Escalation.happen
      dsimp only
      split
      · exact h.callWrapper hopen w _ method ref _ hcharges hcaps
      · exact h
    | passedOn call w =>
      rw [h.passedOn]
      exact h
    | wentStale c =>
      unfold Escalation.happen at hasks ⊢
      dsimp only at hasks ⊢
      split at hasks
      · rename_i call hcall
        by_cases hport : call.stage.atPort.isSome = true
        · rw [if_pos hport] at hasks ⊢
          exact h.wentStale hopen hcall hasks
        · rw [if_neg hport]
          exact h
      · exact h
    | callEnds c =>
      unfold Escalation.happen
      dsimp only
      split
      · rename_i call hcall
        split
        · exact h.withStage hopen hcall rfl
        · exact h
      · exact h
    | reacquired c next =>
      unfold Escalation.happen
      dsimp only
      split
      · rename_i call hcall
        split
        · rename_i hstage
          exact h.reacquired hopen hcall hstage next
        · exact h
      · exact h
    | reacquireThrows c =>
      unfold Escalation.happen
      dsimp only
      split
      · rename_i call hcall
        split
        · exact h.withStage hopen hcall rfl
        · exact h
      · exact h

lemma ledgerInv_start (hport : plan.portFits) (now : ℚ) :
    LedgerInv (@Escalation.start V plan now) := by
  have hidle : (@PlanExecution.start V plan 0).phase.Idle ∧
      ∀ result, (@PlanExecution.start V plan 0).phase ≠ .returned result := by
    unfold PlanExecution.start
    dsimp only
    split
    · exact ⟨⟨rfl, by simp⟩, by simp⟩
    · exact ⟨⟨rfl, by simp⟩, by simp⟩
  refine ⟨?_, ⟨_, rfl, rfl⟩, rfl, .inl rfl, by simp [start], Nat.zero_le _, ?_⟩
  · intro id e he
    obtain rfl := mem_singleton.1 (mem_of_getElem? he)
    exact .idle hport hidle.1
  · intro result hresult
    obtain ⟨e, he, hphase⟩ := rootResult_eq_some_iff.1 hresult
    cases he
    exact absurd hphase (hidle.2 result)

lemma LedgerInv.holds (h : LedgerInv s) : LedgerHolds s where
  partitions := by
    intro result hresult
    obtain ⟨hverdicts, hcharged, hzero⟩ := h.returned result hresult
    refine ⟨hverdicts, hcharged, ?_⟩
    unfold MutableRunState.unclaimed at hzero
    rw [hverdicts, hcharged]
    omega
  ordinals := h.ordinals
  counted := by
    intro w method ref hsettled hlt
    rw [Escalation.step, if_neg (by simp [hsettled])]
    unfold Escalation.happen
    dsimp only
    rw [getElem?_eq_getElem hlt]
    rfl
  once := by
    intro call w
    unfold Escalation.step
    rw [h.passedOn, ite_self]
  caps := by
    intro e hmem body hphase hcaps
    obtain ⟨id, he⟩ := mem_iff_getElem?.1 hmem
    exact (h.executions id e he).fits body hphase hcaps
  reacquisitions := le_trans (Nat.le_add_right _ _) h.reacquisitions

/-- **The ledger.** The promise holds of every run of a root plan whose steps meet the
conditions. -/
theorem ledgerHolds_run (plan : EscalationPlan) (now : ℚ) (events : List (EscalationEvent V))
    (hport : plan.portFits = true)
    (hmeets : (runEscalationPlan plan now).Along Escalation.Meets (.start plan now) events) :
    LedgerHolds ((runEscalationPlan plan now).run events) :=
  (Machine.invariant_runFrom (fun _ event h => h.step event) (ledgerInv_start hport now)
    hmeets).holds

/-- A rung that may click once, and cleans up. -/
def openRung : EscalationRung where
  id := "open"
  axis := .how
  costCap := { maxActions := 1 }
  cleanup := true

def openPlan : EscalationPlan where
  family := .field
  operation := "commit"
  rungs := [openRung]
  budget := ⟨1000, 8, 4⟩
  port := some (.plain [])

/-- The body of the rung clicks, and runs a nested plan on its own port; the body of that one fills,
and throws; the parent catches it, and succeeds. -/
def nestedEvents : List (EscalationEvent Unit) :=
  [.checked 0 0, .decided 0 (some (.enter [])) 0, .portCalled 0 .click "e1", .callEnds 0,
    .runSubplan { openPlan with port := some (.wrapper 0) }, .checked 1 1,
    .decided 1 (some (.enter [])) 1, .portCalled 0 .fill "e2", .callEnds 1, .bodyThrows 1,
    .cleanupEnds 1 true, .bodyReturns 0 (.succeeded () none) 2 (some none), .cleanupEnds 0 true]

theorem ledgerHolds_run_nested : LedgerHolds ((runEscalationPlan openPlan 0).run nestedEvents) :=
  ledgerHolds_run openPlan 0 nestedEvents rfl (by decide +kernel)

/-- The clean-up of a root rung clicks: no verdict claims the click. -/
def cleanupEvents : List (EscalationEvent Unit) :=
  [.checked 0 0, .decided 0 (some (.enter [])) 0,
    .bodyReturns 0 (.succeeded () none) 1 (some none), .portCalled 0 .click "e1", .callEnds 0,
    .cleanupEnds 0 true]

theorem ledger_unclaimed_cleanup :
    ¬ LedgerHolds ((runEscalationPlan openPlan 0).run cleanupEvents) := by
  intro h
  have hreturns : ((runEscalationPlan openPlan 0).run cleanupEvents).rootResult.map
      (fun result => (claimed result.ledger.verdicts, result.ledger.chargedActions)) =
      some (0, 1) := by decide +kernel
  obtain ⟨result, hresult, hcounts⟩ := Option.map_eq_some_iff.1 hreturns
  have hsum := (h.partitions result hresult).2.2
  rw [Prod.mk.injEq] at hcounts
  rw [hcounts.1, hcounts.2] at hsum
  exact absurd hsum (by decide)

end Yantra
