import Yantra.Agent.ToolCalls

/-!
# The guards of a domain operation

The abort check and the action-phase latch stand at the head of the pipeline, in front of the two
awaits of a call. A signal that fires, or a phase that closes, while the call is suspended there is
not looked at again before the operation starts.

## Main definitions

* `OpsGuarded` — no operation started after a signal or, for a mutating tool, after the
  action phase closed.
* `LetsThroughUninterrupted` — no call is let through that was interrupted meanwhile.

## Main results

* `opsGuarded_iff` — the first holds of a run exactly when its steps all meet the second.
* `click_starts_after_publication` — a click that was waiting for its confirmation starts
  after the publication.
-/

namespace Yantra

open List Option ToolRun ToolCall

/-- No domain operation started after the run's or the call's signal fired, and none of a mutating
tool after the action phase closed. -/
def OpsGuarded (s : ToolRun) : Prop :=
  ∀ o ∈ s.started, o.aborted = false ∧ (o.mutating = true → o.closed = false)

/-- An event that lets a call through its last gate finds that no signal fired, and for a mutating
tool the action phase did not close, while the call was suspended. -/
def LetsThroughUninterrupted (s : ToolRun) (e : ToolEvent) : Prop :=
  ∀ id c, s.Passes e id c → c.interrupted = false

/-- The history of a suspended call tells what its guards would say now. -/
def GuardInv (s : ToolRun) : Prop :=
  ∀ id c, s.calls id = some c → c.phase.suspended = true →
    (c.interrupted = true ↔
      (s.aborted || c.signalled || (c.spec.mutating && s.closed)) = true)

lemma guardInv_step (required : Bool) (s : ToolRun) (e : ToolEvent) (h : GuardInv s) :
    GuardInv ((toolRun required).step s e) := by
  have hstep := toolStep required s e
  generalize (toolRun required).step s e = s' at hstep ⊢
  have hstarts : ∀ id c, GuardInv (s.startOperation id c) := by
    intro id c
    obtain ⟨c', hc', heq⟩ := startOperation_eq s id c
    rw [heq]
    intro i d hd hsuspended
    simp only [Function.update_apply] at hd
    split_ifs at hd with hi
    · obtain rfl := some.inj hd
      rw [hc'.suspended] at hsuspended
      cases hsuspended
    · exact h i d hd hsuspended
  cases hstep with
  | frame _ haborted hclosed hcalls =>
    intro id c hc hsuspended
    rw [hcalls] at hc
    rw [haborted, hclosed]
    exact h id c hc hsuspended
  | rejected _ hnew hphase =>
    intro i d hd hsuspended
    rw [calls_withCall] at hd
    split_ifs at hd
    · obtain rfl := some.inj hd
      rw [hphase] at hsuspended
      cases hsuspended
    · exact h i d hd hsuspended
  | @enters _ id c _ hc =>
    intro i d hd hsuspended
    rw [calls_withCall] at hd
    split_ifs at hd
    · obtain rfl := some.inj hd
      cases hmutating : c.spec.mutating with
      | false => simp [hc.interrupted, hc.aborted, hc.signalled]
      | true => simp [hc.interrupted, hc.aborted, hc.signalled, hc.mutating hmutating]
    · exact h i d hd hsuspended
  | startsAtOnce => exact hstarts _ _
  | starts => exact hstarts _ _
  | moves _ hc hmoves =>
    intro i d hd hsuspended
    rw [calls_withCall] at hd
    split_ifs at hd
    · obtain rfl := some.inj hd
      rw [aborted_withCall, closed_withCall, hmoves.interrupted, hmoves.signalled,
        hmoves.spec]
      exact h _ _ hc (hmoves.suspended hsuspended).1
    · exact h i d hd hsuspended
  | @closes id c hc hphase =>
    intro i d hd hsuspended
    simp only [publishReturns, ToolRun.resume, hc, hphase, if_true,
      Function.update_apply] at hd ⊢
    split_ifs at hd with hi
    · obtain rfl := some.inj hd
      cases hsuspended
    · obtain ⟨b, hb, rfl⟩ := map_eq_some_iff.1 hd
      have hb' := h i b hb hsuspended
      have hs : b.phase.suspended := hsuspended
      simp only [ToolCall.afterClose, hs, Bool.true_and, Bool.or_eq_true, hb', Bool.and_true,
        Bool.and_eq_true]
      tauto
  | abortRun =>
    intro i d hd hsuspended
    obtain ⟨b, hb, rfl⟩ := map_eq_some_iff.1 hd
    have hs : b.phase.suspended := by
      unfold abort at hsuspended
      split_ifs at hsuspended with h1 <;> first | exact h1 | exact hsuspended
    simp [abort, hs]
  | @abortCall id c hc =>
    intro i d hd hsuspended
    rw [calls_withCall] at hd
    split_ifs at hd
    · obtain rfl := some.inj hd
      have hs : c.phase.suspended := by
        unfold abort at hsuspended
        split_ifs at hsuspended with h1 <;> first | exact h1 | exact hsuspended
      simp [abort, hs]
    · exact h i d hd hsuspended

lemma opsGuarded_startOperation (s : ToolRun) (id : Nat) (c : ToolCall) :
    OpsGuarded (s.startOperation id c) ↔ OpsGuarded s ∧
      (s.aborted || c.signalled || (c.spec.mutating && s.closed)) = false := by
  obtain ⟨c', -, heq⟩ := startOperation_eq s id c
  rw [heq]
  simp only [OpsGuarded, forall_mem_append, forall_mem_singleton, Bool.or_eq_false_iff,
    Bool.and_eq_false_iff]
  refine and_congr_right fun _ => and_congr_right fun _ => ?_
  cases c.spec.mutating <;> simp

lemma opsGuarded_step_iff (required : Bool) (s : ToolRun) (e : ToolEvent) (h : GuardInv s) :
    OpsGuarded ((toolRun required).step s e) ↔ OpsGuarded s ∧ LetsThroughUninterrupted s e := by
  have hstep := toolStep required s e
  generalize (toolRun required).step s e = s' at hstep ⊢
  have hnone : (∀ i d, ¬ s.Passes e i d) → s'.started = s.started →
      (OpsGuarded s' ↔ OpsGuarded s ∧ LetsThroughUninterrupted s e) := by
    intro he hstarted
    have hiff : OpsGuarded s' ↔ OpsGuarded s := by rw [OpsGuarded, OpsGuarded, hstarted]
    rw [hiff]
    exact (and_iff_left fun i d hd => absurd hd (he i d)).symm
  cases hstep with
  | frame he _ _ _ hstarted => exact hnone he hstarted
  | rejected he => exact hnone he rfl
  | enters he => exact hnone he rfl
  | moves he => exact hnone he rfl
  | closes hc hphase =>
    refine hnone (not_passes rfl) ?_
    simp [publishReturns, ToolRun.resume, hc, hphase]
  | abortRun => exact hnone (not_passes rfl) rfl
  | abortCall => exact hnone (not_passes rfl) rfl
  | @startsAtOnce _ id c he hc =>
    rw [opsGuarded_startOperation]
    refine and_congr_right fun _ => iff_of_true ?_ fun i d hd => absurd hd (he i d)
    cases hmutating : c.spec.mutating with
    | false => simp [hc.aborted, hc.signalled]
    | true => simp [hc.aborted, hc.signalled, hc.mutating hmutating]
  | @starts _ id c hpasses =>
    rw [opsGuarded_startOperation]
    refine and_congr_right fun _ => ?_
    have hsuspended : c.phase.suspended := by
      rcases hpasses.2 with ⟨-, hphase, -⟩ | ⟨-, hphase, -⟩ <;> rw [hphase] <;> rfl
    have hinv := h id c hpasses.1 hsuspended
    rw [← Bool.not_eq_true, ← hinv, Bool.not_eq_true]
    constructor
    · intro hc i d hd
      -- the event names the call it lets through
      have hid : i = id := by
        rcases hpasses.2 with ⟨rfl, -⟩ | ⟨rfl, -⟩ <;> rcases hd.2 with ⟨he, -⟩ | ⟨he, -⟩
        · exact (ToolEvent.policySettles.inj he).1.symm
        · cases he
        · cases he
        · exact (ToolEvent.decisionStored.inj he).1.symm
      subst hid
      have hcd := hd.1
      rw [hpasses.1, some.injEq] at hcd
      exact hcd ▸ hc
    · exact fun hall => hall id c hpasses

/-- **Operations are guarded exactly when no interrupted call is let through.**

**Proof sketch.** Along every run the history of a suspended call tells what the checks of the
head would say now, and the head starts no operation they refuse; so a step starts an unguarded
operation exactly when it lets an interrupted call through. -/
theorem opsGuarded_iff (required : Bool) (events : List ToolEvent) :
    OpsGuarded ((toolRun required).run events) ↔
      (toolRun required).Along LetsThroughUninterrupted (toolRun required).init events := by
  have hall : ∀ s, GuardInv s → (OpsGuarded ((toolRun required).runFrom s events) ↔
      OpsGuarded s ∧ (toolRun required).Along LetsThroughUninterrupted s events) := by
    induction events with
    | nil => exact fun s _ => (and_iff_left trivial).symm
    | cons e events ih =>
      intro s hs
      rw [Machine.runFrom_cons, ih _ (guardInv_step required s e hs),
        opsGuarded_step_iff required s e hs, Machine.along_cons, and_assoc]
  have hinit : OpsGuarded (toolRun required).init := fun o ho => (by cases ho)
  exact (hall _ fun id c hc => (by cases hc)).trans (and_iff_right hinit)

/-! ## A click after the publication -/

def browserClick : ToolSpec :=
  { name := "browser_click", mutating := true, contractGated := true, hasPolicy := true,
    requiresConfirmation := true, buildsConfirmation := true }

/-- The publication tool, for content that composes. -/
def resultPublish : ToolSpec := { name := "result_publish", operation := .publish false true }

/-- A click waits for its confirmation while the result is published; then it is granted. -/
def lateClick : List ToolEvent :=
  [.declareContract, .call 1 browserClick false true none, .policySettles 1 .passes,
    .requestStored 1 true, .call 2 resultPublish false true none, .evaluated 2 .passes,
    .artifactsWritten 2 .passes, .publishReturns 2, .gatewayAnswers 1 (some .granted),
    .decisionStored 1 true]

/-- The click is performed after the action phase closed. -/
theorem click_starts_after_publication :
    ((toolRun true).run lateClick).started =
        [⟨2, false, false, false⟩, ⟨1, true, false, true⟩] ∧
      ¬ OpsGuarded ((toolRun true).run lateClick) := by
  have hstarted : ((toolRun true).run lateClick).started =
      [⟨2, false, false, false⟩, ⟨1, true, false, true⟩] := by decide
  refine ⟨hstarted, fun h => ?_⟩
  have hclosed := (h ⟨1, true, false, true⟩ (by rw [hstarted]; simp)).2 rfl
  cases hclosed

/-- The click tool, on an element that needs no confirmation. -/
def plainClick : ToolSpec := { name := "browser_click", mutating := true, hasPolicy := true }

/-- A call whose policy hook passes after the run was aborted starts its operation all the same. -/
example : ((toolRun false).run [.call 1 plainClick false true none, .abortRun,
    .policySettles 1 .passes]).started = [⟨1, true, true, false⟩] := by decide

end Yantra
