import Yantra.Agent.Fulfillment

/-!
# When a screenshot is met

The verdict on a requested screenshot narrows one list of captures step by step. What the steps
come to is one condition on one capture, stated by sequence numbers alone.

## Main definitions

* `IsLastCommitted` — the committed fill or click with the greatest sequence number.
* `CaptureMeets` — the same of one entry, by the source's last committed action.

## Main results

* `artifactStatus_sound` — the verdict is that condition, and it is kept by entries that are
  no committed action.
-/

namespace Yantra

open List Option ActionLedgerEntry

/-! ## The condition -/

def InSequence (ledger : List ActionLedgerEntry) : Prop :=
  ledger.Pairwise fun e e' => e.stamp.seq < e'.stamp.seq

/-- The committed fill or click with the greatest sequence number. -/
def IsLastCommitted (ledger : List ActionLedgerEntry) (last : ActionLedgerEntry) : Prop :=
  last ∈ ledger ∧ last.isCommitted = true ∧
    ∀ e ∈ ledger, e.isCommitted = true → e.stamp.seq ≤ last.stamp.seq

/-- A capture of a scope that satisfies the requested one, taken by the capture tool after the last
committed action, on its document, and for a full page a complete one. -/
def ArtifactMet (scope : ArtifactScope) (ledger : List ActionLedgerEntry) : Prop :=
  ∃ stamp captured complete,
    ActionLedgerEntry.capture stamp captured "browser_capture" complete ∈ ledger ∧
      satisfies scope captured = true ∧
      (∀ last, IsLastCommitted ledger last →
        last.stamp.seq < stamp.seq ∧ stamp.epoch = last.stamp.epoch) ∧
      (scope = .fullPage → complete ≠ some false)

/-! ## The steps -/

/-- A capture that meets a screenshot of a scope: of that scope, complete where the whole page is
asked for, and after the last committed action, on its document. -/
def CaptureMeets (scope : ArtifactScope) (ledger : List ActionLedgerEntry)
    (e : ActionLedgerEntry) : Prop :=
  e.capturesScope scope ∧ (scope = .fullPage → e.isIncomplete = false) ∧
    ∀ last, lastCommitted ledger = some last →
      last.stamp.seq < e.stamp.seq ∧ e.stamp.epoch = last.stamp.epoch

variable (scope : ArtifactScope)

lemma timelyStatus_met_iff (timely : List ActionLedgerEntry) (htimely : timely ≠ []) :
    (timelyStatus scope timely).1 = .met ↔
      ∃ e ∈ timely, scope = .fullPage → e.isIncomplete = false := by
  unfold timelyStatus
  obtain ⟨first, hfirst⟩ := exists_mem_of_ne_nil timely htimely
  by_cases hscope : scope = .fullPage
  · split_ifs with hcut
    · refine iff_of_false (by decide) ?_
      rintro ⟨e, he, hwhole⟩
      rw [List.all_eq_true.1 hcut.2 e he] at hwhole
      cases hwhole hscope
    · refine iff_of_true rfl ?_
      simpa [hscope] using hcut
  · rw [if_neg fun h => hscope h.1]
    exact iff_of_true rfl ⟨first, hfirst, fun h => absurd h hscope⟩

/-- **The verdict without the steps**: a screenshot is met when a capture meets it. -/
lemma artifactStatus_met_iff (input : FulfillmentInput) :
    (artifactStatus scope input).1 = .met ↔
      ∃ e ∈ input.ledger, CaptureMeets scope input.ledger e := by
  simp only [artifactStatus, CaptureMeets]
  cases hlast : lastCommitted input.ledger with
  | none =>
    simp only [reduceCtorEq, false_implies, implies_true, and_true]
    split_ifs with hnone
    · refine iff_of_false (by decide) ?_
      rintro ⟨e, he, hscope, -⟩
      rw [List.isEmpty_iff, filter_eq_nil_iff] at hnone
      exact hnone e he hscope
    · rw [timelyStatus_met_iff _ _ (by simpa using hnone)]
      simp only [mem_filter, and_assoc]
  | some last =>
    simp only [some.injEq, forall_eq']
    split_ifs with hnone hbefore haway
    · refine iff_of_false (by decide) ?_
      rintro ⟨e, he, hscope, -⟩
      rw [List.isEmpty_iff, filter_eq_nil_iff] at hnone
      exact hnone e he hscope
    · refine iff_of_false (by decide) ?_
      rintro ⟨e, he, hscope, -, hseq, -⟩
      rw [List.isEmpty_iff, filter_eq_nil_iff] at hbefore
      exact hbefore e (mem_filter.2 ⟨he, hscope⟩) (by simpa using hseq)
    · refine iff_of_false (by decide) ?_
      rintro ⟨e, he, hscope, -, hseq, hepoch⟩
      rw [List.isEmpty_iff, filter_eq_nil_iff] at haway
      exact haway e (mem_filter.2 ⟨mem_filter.2 ⟨he, hscope⟩, by simpa using hseq⟩)
        (by simpa using hepoch)
    · rw [timelyStatus_met_iff _ _ (by simpa using haway)]
      simp only [mem_filter, decide_eq_true_eq, and_assoc]
      refine exists_congr fun e => and_congr_right fun _ => and_congr_right fun _ => ?_
      tauto

/-! ## The last committed action -/

/-- In a ledger in sequence order the source's last committed action is the one with the greatest
sequence number. -/
lemma isLastCommitted_iff {ledger : List ActionLedgerEntry} (hordered : InSequence ledger)
    (last : ActionLedgerEntry) :
    lastCommitted ledger = some last ↔ IsLastCommitted ledger last := by
  induction ledger using reverseRecOn with
  | nil => simp [lastCommitted, IsLastCommitted]
  | append_singleton ledger e ih =>
    obtain ⟨hrest, -, hbelow⟩ := pairwise_append.1 hordered
    have hlt : ∀ e' ∈ ledger, e'.stamp.seq < e.stamp.seq :=
      fun e' he' => hbelow e' he' e (mem_singleton_self e)
    unfold lastCommitted IsLastCommitted
    rw [reverse_append, reverse_singleton, singleton_append]
    cases hcommitted : e.isCommitted with
    | true =>
      rw [find?_cons_of_pos hcommitted, some.injEq]
      constructor
      · rintro rfl
        refine ⟨mem_append_right _ (mem_singleton_self e), hcommitted, ?_⟩
        intro e' he' _
        rcases mem_append.1 he' with he' | he'
        · exact Nat.le_of_lt (hlt e' he')
        · exact Nat.le_of_eq (by rw [mem_singleton.1 he'])
      · rintro ⟨hmem, -, hgreatest⟩
        rcases mem_append.1 hmem with hmem | hmem
        · have hle := hgreatest e (mem_append_right _ (mem_singleton_self e)) hcommitted
          exact absurd (hlt last hmem) (Nat.not_lt.2 hle)
        · exact (mem_singleton.1 hmem).symm
    | false =>
      rw [find?_cons_of_neg (by simp [hcommitted])]
      refine (ih hrest).trans ⟨?_, ?_⟩
      · rintro ⟨hmem, hlast, hgreatest⟩
        refine ⟨mem_append_left _ hmem, hlast, fun e' he' he'c => ?_⟩
        rcases mem_append.1 he' with he' | he'
        · exact hgreatest e' he' he'c
        · rw [mem_singleton.1 he', hcommitted] at he'c
          cases he'c
      · rintro ⟨hmem, hlast, hgreatest⟩
        refine ⟨?_, hlast, fun e' he' => hgreatest e' (mem_append_left _ he')⟩
        rcases mem_append.1 hmem with hmem | hmem
        · exact hmem
        · rw [mem_singleton.1 hmem, hcommitted] at hlast
          cases hlast

lemma lastCommitted_append (before new : List ActionLedgerEntry) :
    lastCommitted (before ++ new) = (lastCommitted new).or (lastCommitted before) := by
  simp [lastCommitted, reverse_append, find?_append]

lemma capturesScope_iff (e : ActionLedgerEntry) :
    e.capturesScope scope ↔ ∃ stamp captured complete,
      e = .capture stamp captured "browser_capture" complete ∧ satisfies scope captured := by
  cases e with
  | capture stamp captured producer complete =>
    simp only [capturesScope, Bool.and_eq_true, decide_eq_true_eq]
    constructor
    · rintro ⟨rfl, hscope⟩
      exact ⟨stamp, captured, complete, rfl, hscope⟩
    · rintro ⟨stamp', captured', complete', heq, hscope⟩
      cases heq
      exact ⟨rfl, hscope⟩
  | fillCommitted stamp ref field groupKey coveredRefs => simp [capturesScope]
  | clickExecuted stamp submitClass => simp [capturesScope]
  | submitRefused stamp => simp [capturesScope]

/-- **A screenshot is met exactly when a capture of it stands**, and no entry that is not a
committed action changes that.

**Proof sketch.** The verdict asks for one capture in time. In a ledger in sequence order the last
committed action is the one with the greatest number, and an entry that is none leaves it. -/
theorem artifactStatus_sound (scope : ArtifactScope) (input : FulfillmentInput)
    (hordered : InSequence input.ledger) :
    ((artifactStatus scope input).1 = .met ↔ ArtifactMet scope input.ledger) ∧
      ∀ e : ActionLedgerEntry, e.isCommitted = false → (artifactStatus scope input).1 = .met →
        (artifactStatus scope { input with ledger := input.ledger ++ [e] }).1 = .met := by
  constructor
  · rw [artifactStatus_met_iff]
    constructor
    · rintro ⟨e, hmem, hscope, hwhole, hintime⟩
      obtain ⟨stamp, captured, complete, rfl, hsatisfies⟩ := (capturesScope_iff scope e).1 hscope
      refine ⟨stamp, captured, complete, hmem, hsatisfies, fun last hlast => ?_, ?_⟩
      · exact hintime last ((isLastCommitted_iff hordered last).2 hlast)
      · rintro hfull rfl
        cases hwhole hfull
    · rintro ⟨stamp, captured, complete, hmem, hsatisfies, hintime, hcomplete⟩
      refine ⟨_, hmem, (capturesScope_iff scope _).2 ⟨_, _, _, rfl, hsatisfies⟩, fun hfull => ?_,
        fun last hlast => hintime last ((isLastCommitted_iff hordered last).1 hlast)⟩
      have hwhole := hcomplete hfull
      cases complete with
      | none => rfl
      | some complete =>
        cases complete with
        | true => rfl
        | false => exact absurd rfl hwhole
  · intro e he hmet
    rw [artifactStatus_met_iff] at hmet ⊢
    obtain ⟨capture, hmem, hscope, hwhole, hintime⟩ := hmet
    have hsame : lastCommitted (input.ledger ++ [e]) = lastCommitted input.ledger := by
      rw [lastCommitted_append]
      simp [lastCommitted, he]
    exact ⟨capture, List.mem_append_left _ hmem, hscope, hwhole,
      fun last hlast => hintime last (hsame ▸ hlast)⟩

def filledThenCaptured : FulfillmentInput where
  contract := none
  terms := noActionTerms
  deliverableGaps := []
  constraints := []
  ledger := [.fillCommitted ⟨1, some 1, "example.com"⟩ "e1" "Name" none [],
    .capture ⟨2, some 1, "example.com"⟩ .fullPage "browser_capture" none]
  claimedMet := none
  captureGap := fun _ => none
  evaluateFill := unavailableFill

theorem artifactStatus_sound_fullPage :
    ((artifactStatus .fullPage filledThenCaptured).1 = .met ↔
        ArtifactMet .fullPage filledThenCaptured.ledger) ∧
      ∀ e : ActionLedgerEntry, e.isCommitted = false →
        (artifactStatus .fullPage filledThenCaptured).1 = .met →
        (artifactStatus .fullPage
          { filledThenCaptured with ledger := filledThenCaptured.ledger ++ [e] }).1 = .met := by
  refine artifactStatus_sound .fullPage filledThenCaptured ?_
  unfold InSequence
  simp [filledThenCaptured, ActionLedgerEntry.stamp]

end Yantra
