import Yantra.Agent.Fulfillment
import Yantra.Agent.RunEvents

/-!
# How a run is settled

When the prompts of a run are over, the run may publish a Brief assembled from the model's draft;
otherwise its outcome is resolved from the latches. The termination reason is derived afterwards,
from the same latches, by another function with another precedence, and events go on arriving while
the Brief is assembled and while files are read and written.

## Main definitions

* `Ending` — what settling a run depends on besides the latches.
* `Consistent`, `SettledCleanly` — kind and reason agree, and when they do.

## Main results

* `settled_consistently` — a cleanly settled run has a kind and a reason that agree.
* `settled_inconsistently` — how a run fails to be settled so.
-/

namespace Yantra

open Option

/-! ## Outcomes -/

inductive PromptOutcome where
  | completed | failed | aborted
  deriving DecidableEq, Repr, Inhabited

inductive TerminationReason where
  | modelFinished | wallClockSoft | wallClockHard | providerTokens | toolBudget
  | repeatedToolFailure | handoff | userAbort | providerFailed | stalled | turnTimeout
  deriving DecidableEq, Repr, Inhabited

inductive OutcomeKind where
  | published | handoff | failed | budgetExhausted | aborted
  deriving DecidableEq, Repr, Inhabited

inductive OutcomeDraft where
  | published
  | handoff (h : Handoff)
  | failed (error : AgentError)
  | budgetExhausted (error : AgentError)
  | aborted (error : AgentError)
  deriving DecidableEq, Repr, Inhabited

def OutcomeDraft.kind : OutcomeDraft → OutcomeKind
  | .published => .published
  | .handoff _ => .handoff
  | .failed _ => .failed
  | .budgetExhausted _ => .budgetExhausted
  | .aborted _ => .aborted

/-! ## Settling -/

/-- What settling a run depends on besides the latches. -/
structure Ending where
  /-- What the last prompt returned; none when the run was interrupted. -/
  result : Option PromptOutcome := some .completed
  /-- The model's answer before the completion nudge. -/
  draft : String := ""
  templated : Bool := false
  evidenceEmpty : Bool := false
  /-- The assembled content composes to a Brief. -/
  composes : Bool := false
  /-- The assembled Brief is published. -/
  publishes : Bool := false
  /-- The assembled Brief is read back. -/
  assembledReadable : Bool := true
  /-- What happens while the Brief is assembled. -/
  assembling : List RunEvent := []
  /-- The Brief published through the tool is read back. -/
  briefReadable : Bool := true
  /-- What happens while it is read. -/
  reading : List RunEvent := []
  savesResponse : Bool := true
  /-- What happens while it is saved. -/
  saving : List RunEvent := []
  softWindDown : Bool := false
  /-- `renderProgressLine(liveItems())` -/
  progressLine : String := ""
  deriving DecidableEq, Repr, Inhabited

/-- The guards of `maybeAssembleUnpublishedResult`. -/
def Ending.attempts (e : Ending) (s : ExecutionState) : Bool :=
  !e.templated && !s.interrupted && !s.published && decide (e.result = some .completed) &&
    !e.draft.isEmpty && !e.evidenceEmpty

/-- `maybeAssembleUnpublishedResult` publishes. -/
def Ending.publishesDraft (e : Ending) (s : ExecutionState) : Bool :=
  e.attempts s && e.composes && e.publishes

/-- `maybeAssembleUnpublishedResult` returns an outcome. -/
def Ending.assembled (e : Ending) (s : ExecutionState) : Bool :=
  e.publishesDraft s && e.assembledReadable

def excerptText (text : String) (maxChars : Nat) : Option String :=
  let collapsed := JsText.trim (JsText.collapseRuns JsText.isSpace text)
  if collapsed.isEmpty then none
  else if JsText.utf16Length collapsed ≤ maxChars then some collapsed
  else some (JsText.utf16Take maxChars collapsed ++ "...")

def interruptedRun : OutcomeDraft := .aborted ⟨"AGENT_ABORTED", "The agentic run was interrupted."⟩

def repeatedlyFailed (f : RepeatedFailure) : OutcomeDraft :=
  .failed ⟨"AGENT_TOOL_FAILED", "The run was stopped after the agent repeatedly failed the same " ++
    "action (" ++ f.tool ++ ": " ++ f.errorCode ++ ") without making progress. Re-run once the " ++
    "underlying cause is resolved."⟩

def completionMissing (s : ExecutionState) (saved : Bool) : OutcomeDraft :=
  .failed ⟨"AGENT_COMPLETION_MISSING",
    "The session ended without a successful result publication after one completion nudge." ++
      (if saved && !(JsText.trim s.lastResponseText).isEmpty then
        " The full unvalidated response was saved to result.md." else "") ++
      match excerptText s.lastResponseText 400 with
      | some message => " Final agent message: " ++ message
      | none => ""⟩

/-- `resolveTerminalOutcome` past the published Brief, with the state in which it returns. -/
def resolveUnpublished (cfg : ExecutionConfig) (s : ExecutionState) (e : Ending) :
    OutcomeDraft × ExecutionState :=
  match s.repeatedFailure, s.stalled, s.turnTimeout, s.budgetReason with
  | some f, _, _, _ => (repeatedlyFailed f, s)
  | none, some _, _, _ =>
    (.failed ⟨"AGENT_STALLED", "Stopped: no task progress after one recovery message (" ++
      (if e.progressLine.isEmpty then "requirements unmet" else e.progressLine) ++
      "). Nothing was published."⟩, s)
  | none, none, some ms, _ =>
    (.failed ⟨"AGENT_TURN_TIMEOUT", "Stopped: provider turns kept exceeding the " ++
      secondsText ms ++ "s thinking limit. Raise --turn-timeout or lower --thinking."⟩, s)
  | none, none, none, some reason =>
    (.budgetExhausted ⟨"AGENT_BUDGET_EXHAUSTED",
      "Agent budget exhausted (" ++ reason.name ++ ")."⟩, s)
  | none, none, none, none =>
    if e.result = some .aborted then (interruptedRun, s)
    else if e.result = some .failed ∨ s.lastError.isSome then
      (.failed (s.lastError.getD ⟨"AGENT_TOOL_FAILED", "The provider run failed."⟩), s)
    else
      match s.handoff with
      | some h => (.handoff h, s)
      | none =>
        (completionMissing s e.savesResponse,
          if (JsText.trim s.lastResponseText).isEmpty then s
          else (execution cfg).runFrom s e.saving)

/-- `resolveTerminalOutcome`, with the state in which it returns. -/
def resolveTerminalOutcome (cfg : ExecutionConfig) (s : ExecutionState) (e : Ending) :
    OutcomeDraft × ExecutionState :=
  -- a user abort always wins, then a validated Brief
  if s.userAborted then (interruptedRun, s)
  else if s.published then
    let read := (execution cfg).runFrom s e.reading
    if e.briefReadable then (.published, read) else resolveUnpublished cfg read e
  else resolveUnpublished cfg s e

/-- `INTERRUPT_TERMINATIONS` -/
def interruptTermination : BudgetReason → TerminationReason
  | .wallClock => .wallClockHard
  | .providerTokens => .providerTokens
  | .toolBudget => .toolBudget
  | .stalled => .stalled
  | .turnTimeout => .turnTimeout
  | .repeatedToolFailure => .repeatedToolFailure

/-- The reason of a run that ended by itself. -/
def finishedReason (s : ExecutionState) (softWindDown : Bool) : TerminationReason :=
  match s.recoveryReason with
  | some reason => interruptTermination reason
  | none => if softWindDown then .wallClockSoft else .modelFinished

def terminationReasonFor (s : ExecutionState) (result : Option PromptOutcome)
    (softWindDown : Bool) : TerminationReason :=
  if s.userAborted then .userAbort
  else
    match s.budgetReason with
    | some reason => interruptTermination reason
    | none =>
      if !s.published && s.handoff.isSome then .handoff
      else if !s.published && (decide (result = some .failed) || s.lastError.isSome) then
        .providerFailed
      else finishedReason s softWindDown

/-- The state in which the outcome is resolved: past the assembly, where one is attempted. -/
def Ending.resolving (cfg : ExecutionConfig) (e : Ending) (s : ExecutionState) : ExecutionState :=
  if e.attempts s then (execution cfg).runFrom s e.assembling else s

/-- The draft, with the state in which the reason is derived. -/
def Ending.drafted (cfg : ExecutionConfig) (e : Ending) (s : ExecutionState) :
    OutcomeDraft × ExecutionState :=
  if e.assembled s then (.published, e.resolving cfg s)
  else resolveTerminalOutcome cfg (e.resolving cfg s) e

structure AgenticTaskOutcome where
  draft : OutcomeDraft
  /-- Whether a published task was done. -/
  taskOutcome : Option TaskOutcome
  terminationReason : TerminationReason
  deriving DecidableEq, Repr, Inhabited

def settleRun (cfg : ExecutionConfig) (command : AgenticCommand)
    (evaluation : Option FulfillmentEvaluation) (s : ExecutionState) (e : Ending) :
    AgenticTaskOutcome where
  draft := (e.drafted cfg s).1
  taskOutcome :=
    if (e.drafted cfg s).1 = .published then some (settleOutcome command evaluation) else none
  terminationReason := terminationReasonFor (e.drafted cfg s).2 e.result e.softWindDown

/-! ## Agreement -/

/-- The run published, through the tool or by assembly. -/
def RunPublished (cfg : ExecutionConfig) (s : ExecutionState) (e : Ending) : Prop :=
  (e.drafted cfg s).2.published ∨ e.publishesDraft s

/-- A reason that no run which published has. -/
def TerminationReason.Unpublished (r : TerminationReason) : Prop :=
  r = .handoff ∨ r = .userAbort ∨ r = .providerFailed

/-- Kind and reason agree, and a published run is not reported as handed off, aborted or failed by
its provider. -/
structure Consistent (cfg : ExecutionConfig) (s : ExecutionState) (e : Ending)
    (o : AgenticTaskOutcome) : Prop where
  handoff : o.draft.kind = .handoff ↔ o.terminationReason = .handoff
  aborted : o.draft.kind = .aborted ↔ o.terminationReason = .userAbort
  published : RunPublished cfg s e → o.draft.kind ≠ .handoff ∧ o.draft.kind ≠ .aborted ∧
    ¬ o.terminationReason.Unpublished

/-- Kind and reason agree, and a published run is reported as aborted only where the user aborted
it, and never as handed off or failed by its provider. -/
structure ConsistentUnlessAborted (cfg : ExecutionConfig) (s : ExecutionState) (e : Ending)
    (o : AgenticTaskOutcome) : Prop where
  handoff : o.draft.kind = .handoff ↔ o.terminationReason = .handoff
  aborted : o.draft.kind = .aborted ↔ o.terminationReason = .userAbort
  published : RunPublished cfg s e →
    o.draft.kind = .aborted ∧ o.terminationReason = .userAbort ∧
        (e.resolving cfg s).userAborted ∨
      o.draft.kind ≠ .handoff ∧ o.draft.kind ≠ .aborted ∧ ¬ o.terminationReason.Unpublished

/-- What a clean settlement is: the latches of an assembled publication tell of no other end, no
provider aborts a prompt on its own or fails one that handed off, what was published can be read
back, and neither a user abort nor a handoff arrives once the outcome is decided. -/
structure SettledCleanly (cfg : ExecutionConfig) (s : ExecutionState) (e : Ending) : Prop where
  assembled : e.assembled s →
    (e.resolving cfg s).userAborted = false ∧
      ((e.resolving cfg s).budgetReason = none →
        (e.resolving cfg s).handoff = none ∧ (e.resolving cfg s).lastError = none)
  readable : (e.resolving cfg s).userAborted = false →
    ((e.resolving cfg s).published → e.briefReadable) ∧
      (e.publishesDraft s → e.assembledReadable)
  provider : (e.resolving cfg s).published = false → (e.resolving cfg s).interrupted = false →
    e.result ≠ some .aborted ∧
      ((e.resolving cfg s).handoff.isSome →
        e.result ≠ some .failed ∧ (e.resolving cfg s).lastError = none)
  late : ((e.drafted cfg s).2.userAborted → (e.resolving cfg s).userAborted) ∧
    ((e.drafted cfg s).2.published = false → (e.drafted cfg s).2.budgetReason = none →
      (e.drafted cfg s).2.handoff.isSome → (e.resolving cfg s).handoff.isSome)

/-! ## The reasons -/

lemma not_unpublished_interruptTermination (r : BudgetReason) :
    ¬ (interruptTermination r).Unpublished := by
  cases r <;> simp [interruptTermination, TerminationReason.Unpublished]

lemma not_unpublished_finishedReason (s : ExecutionState) (softWindDown : Bool) :
    ¬ (finishedReason s softWindDown).Unpublished := by
  unfold finishedReason
  split
  · exact not_unpublished_interruptTermination _
  · split_ifs <;> simp [TerminationReason.Unpublished]

lemma terminationReasonFor_of_not_aborted {s : ExecutionState} (hs : s.userAborted = false)
    (result : Option PromptOutcome) (softWindDown : Bool) :
    (∃ reason, s.budgetReason = some reason ∧
        terminationReasonFor s result softWindDown = interruptTermination reason) ∨
      s.budgetReason = none ∧
        ((s.published = false ∧ s.handoff.isSome ∧
            terminationReasonFor s result softWindDown = .handoff) ∨
          (s.published = false ∧ s.handoff = none ∧ (result = some .failed ∨ s.lastError.isSome) ∧
            terminationReasonFor s result softWindDown = .providerFailed) ∨
          ((s.published ∨ s.handoff = none ∧ result ≠ some .failed ∧ s.lastError = none) ∧
            terminationReasonFor s result softWindDown = finishedReason s softWindDown)) := by
  unfold terminationReasonFor
  rw [if_neg (by simp [hs])]
  cases hbudget : s.budgetReason with
  | some reason => exact Or.inl ⟨reason, rfl, rfl⟩
  | none =>
    refine Or.inr ⟨rfl, ?_⟩
    cases hpublished : s.published with
    | true => simp
    | false =>
      cases hhandoff : s.handoff with
      | some h => simp
      | none =>
        by_cases hfailed : result = some .failed ∨ s.lastError.isSome
        · have hguard : (decide (result = some .failed) || s.lastError.isSome) = true := by
            simpa using hfailed
          simp [hguard, hfailed]
        · have hclean : result ≠ some .failed ∧ s.lastError = none := by simpa using hfailed
          simp [hclean]

lemma terminationReasonFor_eq_userAbort (s : ExecutionState) (result : Option PromptOutcome)
    (softWindDown : Bool) :
    terminationReasonFor s result softWindDown = .userAbort ↔ s.userAborted := by
  cases hs : s.userAborted with
  | true => simp [terminationReasonFor, hs]
  | false =>
    refine iff_of_false (fun hreason => ?_) Bool.false_ne_true
    obtain ⟨reason, -, h⟩ | ⟨-, ⟨-, -, h⟩ | ⟨-, -, -, h⟩ | ⟨-, h⟩⟩ :=
      terminationReasonFor_of_not_aborted hs result softWindDown
    · exact not_unpublished_interruptTermination reason (Or.inr (Or.inl (h ▸ hreason)))
    · cases h.symm.trans hreason
    · cases h.symm.trans hreason
    · exact not_unpublished_finishedReason s softWindDown (Or.inr (Or.inl (h ▸ hreason)))

variable {result : Option PromptOutcome}

/-- A run whose publication is latched, or none of whose latches tells of another end, has a reason
that does not exclude a publication. -/
lemma not_unpublished_terminationReasonFor {s : ExecutionState} (hs : s.userAborted = false)
    (h : s.budgetReason = none →
      s.published ∨ s.handoff = none ∧ result ≠ some .failed ∧ s.lastError = none)
    (softWindDown : Bool) : ¬ (terminationReasonFor s result softWindDown).Unpublished := by
  obtain ⟨reason, -, hreason⟩ | ⟨hbudget, ⟨hpublished, hhandoff, -⟩ |
      ⟨hpublished, -, hfailed, -⟩ | ⟨-, hreason⟩⟩ :=
    terminationReasonFor_of_not_aborted hs result softWindDown
  · rw [hreason]
    exact not_unpublished_interruptTermination reason
  · rcases h hbudget with h | ⟨h, -, -⟩
    · rw [hpublished] at h; cases h
    · rw [h] at hhandoff; cases hhandoff
  · rcases h hbudget with h | ⟨-, hresult, hlast⟩
    · rw [hpublished] at h; cases h
    · rw [hlast] at hfailed
      rcases hfailed with hfailed | hfailed
      · exact absurd hfailed hresult
      · cases hfailed
  · rw [hreason]
    exact not_unpublished_finishedReason s softWindDown

/-! ## A clean settlement -/

variable {cfg : ExecutionConfig} {command : AgenticCommand}
  {evaluation : Option FulfillmentEvaluation} {s : ExecutionState} {e : Ending}

open OutcomeDraft

lemma consistent_of_published (hdraft : (e.drafted cfg s).1 = .published)
    (hreason : ¬ (terminationReasonFor (e.drafted cfg s).2 e.result
      e.softWindDown).Unpublished) :
    ConsistentUnlessAborted cfg s e (settleRun cfg command evaluation s e) where
  handoff := by
    refine iff_of_false ?_ fun h => hreason (Or.inl h)
    simp [settleRun, hdraft, kind]
  aborted := by
    refine iff_of_false ?_ fun h => hreason (Or.inr (Or.inl h))
    simp [settleRun, hdraft, kind]
  published _ := by
    refine Or.inr ⟨?_, ?_, hreason⟩ <;> simp [settleRun, hdraft, kind]

lemma resolveUnpublished_cases (cfg : ExecutionConfig) {t : ExecutionState} (ht : Explained t)
    (e : Ending) :
    (∃ reason, t.budgetReason = some reason ∧ (resolveUnpublished cfg t e).2 = t ∧
        ((resolveUnpublished cfg t e).1.kind = .failed ∨
          (resolveUnpublished cfg t e).1.kind = .budgetExhausted)) ∨
      t.budgetReason = none ∧
        (e.result = some .aborted ∨
          ((e.result = some .failed ∨ t.lastError.isSome) ∧
            (resolveUnpublished cfg t e).2 = t ∧
            (resolveUnpublished cfg t e).1.kind = .failed) ∨
          (e.result ≠ some .failed ∧ t.lastError = none ∧
            ((t.handoff.isSome ∧ (resolveUnpublished cfg t e).2 = t ∧
                (resolveUnpublished cfg t e).1.kind = .handoff) ∨
              (t.handoff = none ∧ Later t (resolveUnpublished cfg t e).2 ∧
                (resolveUnpublished cfg t e).1.kind = .failed)))) := by
  cases hbudget : t.budgetReason with
  | some reason =>
    refine Or.inl ⟨reason, rfl, ?_⟩
    unfold resolveUnpublished
    split <;> simp [repeatedlyFailed, kind]
    next hnone => rw [hbudget] at hnone; cases hnone
  | none =>
    have hrepeated : t.repeatedFailure = none := by
      by_contra h
      simpa [hbudget] using ht.repeatedFailure (isSome_iff_ne_none.2 h)
    have hstalled : t.stalled = none := by
      by_contra h
      simpa [hbudget] using ht.stalled (isSome_iff_ne_none.2 h)
    have htimeout : t.turnTimeout = none := by
      by_contra h
      simpa [hbudget] using ht.turnTimeout (isSome_iff_ne_none.2 h)
    refine Or.inr ⟨rfl, ?_⟩
    simp only [resolveUnpublished, hrepeated, hstalled, htimeout, hbudget]
    by_cases haborted : e.result = some .aborted
    · exact Or.inl haborted
    · rw [if_neg haborted]
      by_cases hfailed : e.result = some .failed ∨ t.lastError.isSome
      · rw [if_pos hfailed]
        exact Or.inr (Or.inl ⟨hfailed, rfl, rfl⟩)
      · rw [if_neg hfailed]
        have hclean : e.result ≠ some .failed ∧ t.lastError = none := by simpa using hfailed
        refine Or.inr (Or.inr ⟨hclean.1, hclean.2, ?_⟩)
        cases t.handoff with
        | some h => exact Or.inl ⟨rfl, rfl, rfl⟩
        | none =>
          refine Or.inr ⟨rfl, ?_, rfl⟩
          simp only
          split_ifs
          · exact Later.refl t
          · exact later_runFrom cfg t e.saving

lemma resolving_run (cfg : ExecutionConfig) (es : List RunEvent) (e : Ending) :
    ∃ es', e.resolving cfg ((execution cfg).run es) = (execution cfg).run es' := by
  unfold Ending.resolving
  split_ifs
  · exact ⟨es ++ e.assembling, (Machine.runFrom_append _ _ _ _).symm⟩
  · exact ⟨es, rfl⟩

/-- The reason is a handoff only where one is latched, nothing was published, and nothing
interrupted the run. -/
lemma handoff_of_terminationReasonFor {s : ExecutionState} {softWindDown : Bool}
    (h : terminationReasonFor s result softWindDown = .handoff) :
    s.published = false ∧ s.budgetReason = none ∧ s.handoff.isSome := by
  have hs : s.userAborted = false := by
    by_contra hne
    have habort := (terminationReasonFor_eq_userAbort s result softWindDown).2 (by simpa using hne)
    rw [habort] at h
    cases h
  obtain ⟨reason, -, hreason⟩ | ⟨hbudget, ⟨hpublished, hhandoff, -⟩ | ⟨-, -, -, hreason⟩ |
      ⟨-, hreason⟩⟩ := terminationReasonFor_of_not_aborted hs result softWindDown
  · exact absurd (Or.inl (hreason ▸ h)) (not_unpublished_interruptTermination reason)
  · exact ⟨hpublished, hbudget, hhandoff⟩
  · cases hreason.symm.trans h
  · exact absurd (Or.inl (hreason ▸ h)) (not_unpublished_finishedReason s softWindDown)

lemma consistent_of_unpublished (hs : SettledCleanly cfg s e)
    (hexplained : Explained (e.resolving cfg s))
    (hdrafted : e.drafted cfg s = resolveUnpublished cfg (e.resolving cfg s) e)
    (hpublished : (e.resolving cfg s).published = false) (hdraft : e.publishesDraft s = false)
    (haborted : (e.resolving cfg s).userAborted = false) :
    ConsistentUnlessAborted cfg s e (settleRun cfg command evaluation s e) := by
  set t := e.resolving cfg s
  set final := (e.drafted cfg s).2 with hfinal
  -- a user abort that is not latched when the outcome is decided is not latched any more
  have hlive : final.userAborted = false := by
    by_contra hne
    have hlate := hs.late.1 (by simpa using hne)
    rw [haborted] at hlate
    cases hlate
  have haway : terminationReasonFor final e.result e.softWindDown ≠ .userAbort := by
    rw [Ne, terminationReasonFor_eq_userAbort, hlive]
    exact Bool.false_ne_true
  have hrunPublished : RunPublished cfg s e → final.published := by
    rintro (h | h)
    · exact h
    · rw [hdraft] at h; cases h
  -- the three parts, from the kind and what is known of the reason
  have assemble : ∀ kind, (e.drafted cfg s).1.kind = kind → kind ≠ .aborted →
      (kind = .handoff ↔ terminationReasonFor final e.result e.softWindDown = .handoff) →
      (final.published → kind ≠ .handoff ∧
        ¬ (terminationReasonFor final e.result e.softWindDown).Unpublished) →
      ConsistentUnlessAborted cfg s e (settleRun cfg command evaluation s e) := by
    rintro kind rfl hkind hhandoff hpublish
    exact ⟨hhandoff, iff_of_false hkind haway, fun h =>
      Or.inr ⟨(hpublish (hrunPublished h)).1, hkind, (hpublish (hrunPublished h)).2⟩⟩
  obtain ⟨reason, hbudget, hsame, hkind⟩ | ⟨hbudget, hcases⟩ :=
    resolveUnpublished_cases cfg hexplained e
  · have hstate : final = t := by rw [hfinal, hdrafted]; exact hsame
    have hreason : terminationReasonFor final e.result e.softWindDown =
        interruptTermination reason := by
      rw [hstate]
      simp [terminationReasonFor, haborted, hbudget]
    have hnot := not_unpublished_interruptTermination reason
    rw [← hdrafted] at hkind
    rcases hkind with hkind | hkind
    all_goals
      refine assemble _ hkind (by decide) ?_ fun _ => ⟨by decide, hreason ▸ hnot⟩
      exact iff_of_false (by decide) fun h => hnot (Or.inl (hreason ▸ h))
  · have hinterrupted : t.interrupted = false := by
      simp [ExecutionState.interrupted, hbudget, haborted]
    obtain ⟨hresult, hhandoff⟩ := hs.provider hpublished hinterrupted
    rcases hcases with h | ⟨hfailed, hsame, hkind⟩ |
      ⟨-, -, ⟨hsome, hsame, hkind⟩ | ⟨hnone, -, hkind⟩⟩
    · exact absurd h hresult
    · -- the provider failed, so nothing handed off
      have hstate : final = t := by rw [hfinal, hdrafted]; exact hsame
      have hno : t.handoff.isSome = false := by
        by_contra hne
        obtain ⟨hnotFailed, hlast⟩ := hhandoff ((Bool.not_eq_false _).mp hne)
        rw [hlast] at hfailed
        rcases hfailed with hfailed | hfailed
        · exact hnotFailed hfailed
        · cases hfailed
      refine assemble _ (hdrafted ▸ hkind) (by decide) (iff_of_false (by decide) fun h => ?_)
        fun h => ?_
      · have hsome := (handoff_of_terminationReasonFor h).2.2
        rw [hstate, hno] at hsome
        cases hsome
      · rw [hstate, hpublished] at h
        cases h
    · -- a handoff
      have hstate : final = t := by rw [hfinal, hdrafted]; exact hsame
      have hreason : terminationReasonFor final e.result e.softWindDown = .handoff := by
        rw [hstate]
        simp [terminationReasonFor, haborted, hbudget, hpublished, hsome]
      refine assemble _ (hdrafted ▸ hkind) (by decide) (iff_of_true rfl hreason) fun h => ?_
      rw [hstate, hpublished] at h
      cases h
    · -- no completion: a handoff has not arrived since
      refine assemble _ (hdrafted ▸ hkind) (by decide) (iff_of_false (by decide) fun h => ?_)
        fun h => ⟨by decide, not_unpublished_terminationReasonFor hlive (fun _ => Or.inl h) _⟩
      obtain ⟨hlive, hbudget, hhandoff⟩ := handoff_of_terminationReasonFor h
      have hsome := hs.late.2 hlive hbudget hhandoff
      rw [hnone] at hsome
      cases hsome

/-- **A cleanly settled run is reported consistently.** For every sequence of events and every
ending, where the run is settled cleanly: the kind is a handoff exactly when the reason is, the kind
is aborted exactly when the reason is the user's abort, and a run that published is reported as
aborted where the user aborted it, and else never as handed off, aborted or failed by its
provider. -/
theorem settled_consistently (cfg : ExecutionConfig) (command : AgenticCommand)
    (evaluation : Option FulfillmentEvaluation) (es : List RunEvent) (e : Ending)
    (hclean : SettledCleanly cfg ((execution cfg).run es) e) :
    ConsistentUnlessAborted cfg ((execution cfg).run es) e
      (settleRun cfg command evaluation ((execution cfg).run es) e) := by
  set s := (execution cfg).run es with hs
  have hexplained : Explained (e.resolving cfg s) := by
    obtain ⟨es', hes'⟩ := resolving_run cfg es e
    rw [hes']
    exact explained_run cfg es'
  by_cases hassembled : e.assembled s
  · -- assembled: no latch tells of another end
    have hdrafted : e.drafted cfg s = (.published, e.resolving cfg s) := if_pos hassembled
    obtain ⟨haborted, hlatches⟩ := hclean.assembled hassembled
    have hresult : e.result ≠ some .failed := by
      have hcompleted : e.result = some .completed := by
        simp only [Ending.assembled, Ending.publishesDraft, Ending.attempts, Bool.and_eq_true,
          decide_eq_true_eq] at hassembled
        exact hassembled.1.1.1.1.1.2
      rw [hcompleted]
      decide
    refine consistent_of_published (by rw [hdrafted]) ?_
    rw [hdrafted]
    refine not_unpublished_terminationReasonFor haborted (fun hbudget => Or.inr ?_) _
    exact ⟨(hlatches hbudget).1, hresult, (hlatches hbudget).2⟩
  · have hdrafted : e.drafted cfg s = resolveTerminalOutcome cfg (e.resolving cfg s) e :=
      if_neg hassembled
    cases haborted : (e.resolving cfg s).userAborted with
    | true =>
      -- the user's abort wins
      have hinterrupted : e.drafted cfg s = (interruptedRun, e.resolving cfg s) := by
        rw [hdrafted, resolveTerminalOutcome, if_pos haborted]
      have hreason : (settleRun cfg command evaluation s e).terminationReason = .userAbort := by
        simp [settleRun, hinterrupted, terminationReasonFor, haborted]
      have hkind : (settleRun cfg command evaluation s e).draft.kind = .aborted := by
        simp [settleRun, hinterrupted, interruptedRun, OutcomeDraft.kind]
      refine ⟨?_, iff_of_true hkind hreason, fun _ => Or.inl ⟨hkind, hreason, haborted⟩⟩
      rw [hkind, hreason]
      decide
    | false =>
      obtain ⟨hreadable, hreadBack⟩ := hclean.readable haborted
      cases hpublished : (e.resolving cfg s).published with
      | true =>
        -- published through the tool, and read back
        have hread : e.drafted cfg s =
            (.published, (execution cfg).runFrom (e.resolving cfg s) e.reading) := by
          rw [hdrafted, resolveTerminalOutcome, haborted, hpublished]
          simp [hreadable hpublished]
        have hlive : (e.drafted cfg s).2.userAborted = false := by
          by_contra hne
          have hlate := hclean.late.1 (by simpa using hne)
          rw [haborted] at hlate
          cases hlate
        refine consistent_of_published (by rw [hread])
          (not_unpublished_terminationReasonFor hlive (fun _ => Or.inl ?_) _)
        rw [hread]
        exact (later_runFrom cfg _ _).published hpublished
      | false =>
        have hdraft : e.publishesDraft s = false := by
          by_contra hne
          have hdraft : e.publishesDraft s = true := by simpa using hne
          exact hassembled (by simp [Ending.assembled, hdraft, hreadBack hdraft])
        refine consistent_of_unpublished hclean hexplained ?_ hpublished hdraft haborted
        rw [hdrafted, resolveTerminalOutcome, haborted, hpublished]
        rfl

def sampleConfig : ExecutionConfig where
  maxProviderTokens := 1000000
  turnTimeoutMs := 180000

/-- A publication through the tool. -/
def publishing : RunEvent := .toolFinished { tool := "result_publish" }

def handingOff : RunEvent :=
  .toolFinished { tool := "browser_click", output := { status := some "error", handoff := true } }

theorem settled_consistently_published :
    ConsistentUnlessAborted sampleConfig ((execution sampleConfig).run [publishing]) {}
      (settleRun sampleConfig .ask none ((execution sampleConfig).run [publishing]) {}) := by
  refine settled_consistently sampleConfig .ask none [publishing] {} ⟨?_, ?_, ?_, ?_⟩ <;> decide

/-- An ending in which a Brief is assembled from the model's draft. -/
def assembledEnding : Ending where
  draft := "The price is 12 euros."
  composes := true
  publishes := true

/-- **Not every run is settled consistently.** A user abort wins over a publication; beyond that, an
assembled publication is reported with the reason of a handoff latched before, a handoff with a
provider failure is of another kind than its reason, a provider's own abort has no reason of its
own, and a user abort that arrives while the published Brief is read is the reason of a run reported
as published. -/
theorem settled_inconsistently :
    let settled := fun es e =>
      settleRun sampleConfig .ask none ((execution sampleConfig).run es) e
    let consistent := fun es e =>
      Consistent sampleConfig ((execution sampleConfig).run es) e (settled es e)
    ¬ consistent [publishing, .userAbort] {} ∧
      ¬ consistent [handingOff] assembledEnding ∧
      ¬ consistent [handingOff] { result := some .failed } ∧
      ¬ consistent [] { result := some .aborted } ∧
      ¬ consistent [publishing] { reading := [.userAbort] } := by
  refine ⟨fun h => ?_, fun h => ?_, fun h => ?_, fun h => ?_, fun h => ?_⟩
  · exact (h.published (Or.inl (by decide))).2.1 (by decide)
  · exact absurd (h.handoff.2 (by decide)) (by decide)
  · exact absurd (h.handoff.2 (by decide)) (by decide)
  · exact absurd (h.aborted.1 (by decide)) (by decide)
  · exact absurd (h.aborted.2 (by decide)) (by decide)

end Yantra
