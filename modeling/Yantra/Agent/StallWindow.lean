import Yantra.Agent.Captures
import Yantra.Agent.FillUnits
import Yantra.Agent.Progress

/-!
# The stall window

A checkpoint between which and the last one only covered work was repeated should signal nothing, so
that no cycle of repeated actions keeps the stall window from widening. Coverage keeps to that; but
`item_advanced` compares the live items with the last snapshot, and an item may have gone down in
between: a repeated click makes a screenshot stale, and a repeated capture makes it fresh again.

## Main definitions

* `RecordedEntry.Repeats`, `RepeatsCoveredWork` — nothing but covered work was
  repeated.
* `NothingRegained` — no requirement is met again.

## Main results

* `stall_window_iff` — when a checkpoint after repeated work signals nothing.
* `repeated_capture_resets_window` — a repeated click and a repeated capture that do not.
-/

namespace Yantra

open List RecordedEntry

/-! ## Repeated work -/

def FieldCommitted (before : List RecordedEntry) (epoch : Option Nat) (field : String) : Prop :=
  ∃ x ∈ before, ∃ stamp ref name groupKey coveredRefs,
    x.entry = .fillCommitted stamp ref name groupKey coveredRefs ∧ stamp.epoch = epoch ∧
      (ref = field ∨ field ∈ coveredRefs)

def GroupCommitted (before : List RecordedEntry) (epoch : Option Nat) (group : String) : Prop :=
  ∃ x ∈ before, ∃ stamp ref name coveredRefs,
    x.entry = .fillCommitted stamp ref name (some group) coveredRefs ∧ stamp.epoch = epoch

/-- An action that repeats covered work: a fill of a field or group already committed on its epoch,
a click on a control already clicked on its epoch, or a capture with a scope and hash already seen.
A refused submission does no work. -/
def RecordedEntry.Repeats (before : List RecordedEntry) (e : RecordedEntry) : Prop :=
  match e.entry with
  | .submitRefused _ => True
  | .fillCommitted stamp ref _ groupKey coveredRefs =>
      (FieldCommitted before stamp.epoch ref ∨
        ∃ group, groupKey = some group ∧ GroupCommitted before stamp.epoch group) ∧
      ∀ r ∈ coveredRefs, FieldCommitted before stamp.epoch r
  | .clickExecuted stamp _ =>
      ∃ x ∈ before, ∃ stamp' submitClass, x.entry = .clickExecuted stamp' submitClass ∧
        stamp'.epoch = stamp.epoch ∧ x.ref = e.ref
  | .capture _ scope _ _ =>
      ∃ x ∈ before, ∃ stamp' producer complete, x.entry = .capture stamp' scope producer complete ∧
        x.sha256 = e.sha256

/-- Since the last counted checkpoint no document was added, the page is one already seen, neither
the terms nor the census changed, and every new entry repeats covered work. -/
structure RepeatsCoveredWork (canonical : String → String) (r : ProgressRun) : Prop where
  documents : r.sources.documentCount = r.atCounted.documentCount
  page : ∀ url, pageKey canonical r.sources.page = some url → url ∈ r.progress.urls
  terms : r.atSnapshot.terms = r.atCounted.terms ∧ r.sources.terms = r.atCounted.terms
  census : r.atSnapshot.census = r.atCounted.census ∧ r.sources.census = r.atCounted.census
  entries : ∀ (i : Nat) (e : RecordedEntry), r.sources.ledger[i]? = some e →
    r.atCounted.ledger.length ≤ i → e.Repeats (r.sources.ledger.take i)

/-! ## What is regained -/

def ProgressRun.sinceSnapshot (r : ProgressRun) : List ActionLedgerEntry :=
  (r.sources.ledger.drop r.atSnapshot.ledger.length).map RecordedEntry.entry

/-- Nothing of a fill is regained: no listed name is filled for the first time, no unit of the
census is, and a filled form that was left is not returned to. -/
def FillHeld (pf : Platform) (census : Option FillCensus) (fill : FillTerm)
    (before after : List ActionLedgerEntry) : Prop :=
  match fill.coverage with
  | .listed => ∀ field ∈ fill.fields,
      normalizeDeliveryName pf field ∈ filledNames pf after →
        normalizeDeliveryName pf field ∈ filledNames pf before
  | .allEligible => ∀ c, census = some c →
      (∀ unit ∈ c.units, unit.covered c after → unit.covered c before) ∧
      (c.complete → c.units ≠ [] → (∀ unit ∈ c.units, unit.covered c before) →
        formLeft c before → formLeft c after)

/-- No requirement is met again:

* no control is refilled under another key than it was committed under,
* no new capture is of a scope that had none, nor meets a screenshot that was not met,
* no new fill counts towards the fill for the first time or returns to a form that was left,
* no revision of the contract asks for actions that are met while they were not before. -/
structure NothingRegained (pf : Platform) (r : ProgressRun) : Prop where
  keys : ∀ (i : Nat) (e : RecordedEntry), r.sources.ledger[i]? = some e →
    r.atCounted.ledger.length ≤ i → e.entry.isFill → ∀ key ∈ e.coverageKeys,
      ∃ x ∈ r.sources.ledger.take i, key ∈ x.coverageKeys
  screenshots : ∀ a ∈ r.sources.terms.artifacts, ∀ e ∈ r.sinceSnapshot,
    (e.capturesScope a.scope → ∃ x ∈ r.atSnapshot.entries, x.capturesScope a.scope) ∧
      (CaptureMeets a.scope r.sources.entries e →
        screenshotStatus pf a.scope r.atSnapshot.entries = .met)
  fill : ∀ fill, r.sources.terms.fill = some fill →
    FillHeld pf r.sources.census fill r.atSnapshot.entries r.sources.entries
  deliverable : ∀ c, askedActions r.sources.contract = some c →
    (actionsStatus pf r.sources.entries c).1 = .met →
      ∃ c', askedActions r.atSnapshot.contract = some c' ∧
        (actionsStatus pf r.atSnapshot.entries c').1 = .met

/-! ## The rank of an item -/

lemma rank_liveState_le_iff (status status' : ItemStatus) (related related' : Bool) :
    (liveState status' related').rank ≤ (liveState status related).rank ↔
      (status' = .met → status = .met) ∧ (related' → status = .met ∨ related) := by
  unfold liveState
  by_cases hmet : status = .met <;> by_cases hmet' : status' = .met <;>
    cases related <;> cases related' <;> simp [hmet, hmet', LiveState.rank]

lemma not_advances_some_iff (item previous : LiveItem) :
    item.advances (some previous) = false ↔
      item.state.rank ≤ previous.state.rank ∧ item.done.getD 0 ≤ previous.done.getD 0 := by
  simp [LiveItem.advances]

variable {α : Type}

/-- Of two predicates of which one implies the other, the stronger holds as often only where they
agree. -/
lemma length_filter_le_iff {p q : α → Bool} {l : List α} (h : ∀ a ∈ l, p a → q a) :
    (l.filter q).length ≤ (l.filter p).length ↔ ∀ a ∈ l, q a → p a := by
  constructor
  · induction l with
    | nil => simp
    | cons a l ih =>
      have htail := ih fun b hb => h b (mem_cons_of_mem a hb)
      have hle : (l.filter p).length ≤ (l.filter q).length := by
        rw [← countP_eq_length_filter, ← countP_eq_length_filter]
        exact countP_mono_left fun b hb => h b (mem_cons_of_mem a hb)
      have hhead := h a mem_cons_self
      intro hlength
      cases hp : p a with
      | true =>
        rw [filter_cons_of_pos hp, filter_cons_of_pos (hhead hp)] at hlength
        exact forall_mem_cons.2 ⟨fun _ => hp, htail (Nat.le_of_succ_le_succ hlength)⟩
      | false =>
        cases hq : q a with
        | true =>
          rw [filter_cons_of_pos hq, filter_cons_of_neg (by simp [hp]),
            length_cons] at hlength
          omega
        | false =>
          rw [filter_cons_of_neg (by simp [hq]), filter_cons_of_neg (by simp [hp])]
            at hlength
          exact forall_mem_cons.2 ⟨fun hq' => by simp [hq] at hq', htail hlength⟩
  · intro hback
    rw [← countP_eq_length_filter, ← countP_eq_length_filter]
    exact countP_mono_left hback

/-! ## The fill -/

lemma fillLive_not_advances (pf : Platform) (census : Option FillCensus) (fill : FillTerm)
    (before after : List ActionLedgerEntry) :
    (fillLive pf census fill after).advances (some (fillLive pf census fill before)) = false ↔
      ((censusFillEvaluator pf census fill after).status = .met →
        (censusFillEvaluator pf census fill before).status = .met) ∧
      ((fillProgress pf census fill after).map Prod.fst).getD 0 ≤
        ((fillProgress pf census fill before).map Prod.fst).getD 0 := by
  rw [not_advances_some_iff]
  simp only [fillLive, liveItem, rank_liveState_le_iff]
  constructor
  · rintro ⟨⟨hmet, -⟩, hdone⟩
    exact ⟨hmet, hdone⟩
  · rintro ⟨hmet, hdone⟩
    refine ⟨⟨hmet, fun hrelated => Or.inr ?_⟩, hdone⟩
    -- work on the fill shows in its count
    cases hafter : fillProgress pf census fill after with
    | none => simp [hafter] at hrelated
    | some c =>
      cases hbefore : fillProgress pf census fill before with
      | none =>
        simp only [hafter, hbefore, Option.any_some, decide_eq_true_eq, Option.map_some,
          Option.map_none, Option.getD_some, Option.getD_none] at hrelated hdone
        omega
      | some c' =>
        simp only [hafter, hbefore, Option.any_some, decide_eq_true_eq, Option.map_some,
          Option.getD_some] at hrelated hdone ⊢
        omega

lemma listedFill_met_iff (pf : Platform) (fields : List String) (ledger : List ActionLedgerEntry) :
    (listedFill pf fields ledger).status = .met ↔
      (fields.filter fun field =>
        !(filledNames pf ledger).contains (normalizeDeliveryName pf field)) = [] := by
  simp only [listedFill, List.isEmpty_iff]
  split_ifs with hmissing
  · exact iff_of_true rfl hmissing
  · exact iff_of_false (by decide) hmissing

variable {before after : List ActionLedgerEntry}

lemma fillLive_listed (pf : Platform) (census : Option FillCensus) (fill : FillTerm)
    (hlisted : fill.coverage = .listed)
    (hsub : ∀ name ∈ filledNames pf before, name ∈ filledNames pf after) :
    (fillLive pf census fill after).advances (some (fillLive pf census fill before)) = false ↔
      FillHeld pf census fill before after := by
  set missing : List ActionLedgerEntry → List String := fun ledger =>
    fill.fields.filter fun field =>
      !(filledNames pf ledger).contains (normalizeDeliveryName pf field) with hmissing
  have hle : ∀ ledger, (missing ledger).length ≤ fill.fields.length :=
    fun ledger => length_filter_le _ _
  have hheld : FillHeld pf census fill before after ↔
      (missing before).length ≤ (missing after).length := by
    rw [length_filter_le_iff]
    · simp only [FillHeld, hlisted, Bool.not_eq_true', contains_eq_mem,
        decide_eq_false_iff_not]
      exact forall₂_congr fun field _ => not_imp_not.symm
    · intro field _ hfield
      simp only [Bool.not_eq_true', contains_eq_mem, decide_eq_false_iff_not] at hfield ⊢
      exact fun hname => hfield (hsub _ hname)
  have hprogress : ∀ ledger, fillProgress pf census fill ledger =
      some (fill.fields.length - (missing ledger).length, fill.fields.length) := by
    intro ledger
    simp only [fillProgress, hlisted, listedFillCoverage, hmissing]
  have hmet : ∀ ledger, (censusFillEvaluator pf census fill ledger).status = .met ↔
      (missing ledger).length = 0 := by
    intro ledger
    simp only [censusFillEvaluator, hlisted, listedFill_met_iff, length_eq_zero_iff, hmissing]
  rw [fillLive_not_advances, hheld, hmet, hmet, hprogress, hprogress]
  simp only [Option.map_some, Option.getD_some]
  have hbefore := hle before
  have hafter := hle after
  omega

/-- A fill of all eligible fields regains nothing exactly when no unit is covered for the first time
and a filled form that was left is not returned to. -/
lemma fillLive_allEligible (pf : Platform) (census : Option FillCensus) (fill : FillTerm)
    (hall : fill.coverage = .allEligible)
    (hsub : ∀ c, census = some c → ∀ unit ∈ c.units, unit.covered c before →
      unit.covered c after) :
    (fillLive pf census fill after).advances (some (fillLive pf census fill before)) = false ↔
      FillHeld pf census fill before after := by
  rw [fillLive_not_advances]
  cases census with
  | none => simp [fillProgress, hall, censusFillEvaluator, unavailableFill, FillHeld]
  | some c =>
    set missing : List ActionLedgerEntry → List FillUnit := fun ledger =>
      c.units.filter fun unit => !unit.covered c ledger with hmissing
    have hle : ∀ ledger, (missing ledger).length ≤ c.units.length :=
      fun ledger => length_filter_le _ _
    have hcovered : (missing before).length ≤ (missing after).length ↔
        ∀ unit ∈ c.units, unit.covered c after → unit.covered c before := by
      rw [length_filter_le_iff]
      · simp only [Bool.not_eq_true', ← Bool.not_eq_true]
        exact forall₂_congr fun unit _ => not_imp_not
      · intro unit hunit hafter
        simp only [Bool.not_eq_true', ← Bool.not_eq_true] at hafter ⊢
        exact fun hbefore => hafter (hsub c rfl unit hunit hbefore)
    have hdone : ∀ ledger, ((fillProgress pf (some c) fill ledger).map Prod.fst).getD 0 =
        c.units.length - (missing ledger).length := by
      intro ledger
      simp only [fillProgress, hall, Option.map_some, Option.getD_some, (fillCoverage_eq c ledger).2,
        hmissing]
    have hempty : ∀ ledger, missing ledger = [] ↔ ∀ unit ∈ c.units, unit.covered c ledger := by
      intro ledger
      simp [hmissing, filter_eq_nil_iff]
    simp only [FillHeld, hall, Option.some.injEq, forall_eq', censusFill_met_iff pf c fill hall,
      hdone]
    rw [show (c.units.length - (missing after).length ≤ c.units.length - (missing before).length) ↔
        (missing before).length ≤ (missing after).length by
      have hbefore := hle before
      have hafter := hle after
      omega, hcovered, and_comm]
    refine and_congr_right fun hback => ?_
    have hbefore := hempty before
    have hafter := hempty after
    simp only [hmissing] at hbefore hafter
    rw [hbefore, hafter]
    constructor
    · intro hmet hcomplete hunits hall' hleft
      by_contra hnot
      have hagain := hmet ⟨hcomplete, by simpa using hnot, hunits,
        fun unit hunit => hsub c rfl unit hunit (hall' unit hunit)⟩
      rw [hagain.2.1] at hleft
      cases hleft
    · rintro hreturn ⟨hcomplete, hnotLeft, hunits, hall'⟩
      have hall'' := fun unit hunit => hback unit hunit (hall' unit hunit)
      refine ⟨hcomplete, ?_, hunits, hall''⟩
      by_contra hleft
      rw [hreturn hcomplete hunits hall'' (by simpa using hleft)] at hnotLeft
      cases hnotLeft

/-! ## Screenshots -/

lemma screenshotStatus_met_iff (pf : Platform) (scope : ArtifactScope)
    (ledger : List ActionLedgerEntry) :
    screenshotStatus pf scope ledger = .met ↔ ∃ e ∈ ledger, CaptureMeets scope ledger e :=
  artifactStatus_met_iff scope (ledgerInput pf ledger)

lemma captureMeets_of_append {scope : ArtifactScope} {before new : List ActionLedgerEntry}
    {e : ActionLedgerEntry} (hnew : ∀ x ∈ new, e.stamp.seq < x.stamp.seq)
    (h : CaptureMeets scope (before ++ new) e) : CaptureMeets scope before e := by
  obtain ⟨hscope, hwhole, hlast⟩ := h
  refine ⟨hscope, hwhole, fun last hbefore => ?_⟩
  rw [lastCommitted_append] at hlast
  cases hcommitted : lastCommitted new with
  | none => exact hlast last (by simp [hcommitted, hbefore])
  | some x =>
    have hx : x ∈ new := by
      have := mem_of_find?_eq_some hcommitted
      simpa using this
    have hseq := (hlast x (by simp [hcommitted])).1
    have := hnew x hx
    omega

/-- A screenshot regains nothing exactly when no new capture is of a scope that had none, and none
meets it where it was not met. -/
lemma artifactLive_held (pf : Platform) (scope : ArtifactScope)
    {before new : List ActionLedgerEntry}
    (hseq : ∀ e ∈ before, ∀ x ∈ new, e.stamp.seq < x.stamp.seq) :
    (artifactLive pf scope (before ++ new)).advances (some (artifactLive pf scope before)) =
        false ↔
      ∀ e ∈ new, (e.capturesScope scope → ∃ x ∈ before, x.capturesScope scope) ∧
        (CaptureMeets scope (before ++ new) e → screenshotStatus pf scope before = .met) := by
  have hcapture : screenshotStatus pf scope before = .met →
      ∃ x ∈ before, x.capturesScope scope := by
    intro hmet
    obtain ⟨e, he, hscope, -⟩ := (screenshotStatus_met_iff pf scope before).1 hmet
    exact ⟨e, he, hscope⟩
  rw [not_advances_some_iff]
  simp only [artifactLive, liveItem, rank_liveState_le_iff, Option.getD_none, Nat.le_refl,
    and_true, any_append, any_eq_true, Bool.or_eq_true]
  constructor
  · rintro ⟨hmet, hrelated⟩ e he
    refine ⟨fun hscope => ?_, fun hmeets => ?_⟩
    · rcases hrelated (Or.inr ⟨e, he, hscope⟩) with hbefore | hbefore
      · exact hcapture hbefore
      · exact hbefore
    · exact hmet ((screenshotStatus_met_iff _ _ _).2 ⟨e, mem_append_right _ he, hmeets⟩)
  · intro hnew
    refine ⟨fun hmet => ?_, fun hrelated => Or.inr ?_⟩
    · obtain ⟨e, he, hmeets⟩ := (screenshotStatus_met_iff _ _ _).1 hmet
      rcases mem_append.1 he with he | he
      · exact (screenshotStatus_met_iff _ _ _).2 ⟨e, he, captureMeets_of_append (hseq e he) hmeets⟩
      · exact (hnew e he).2 hmeets
    · rcases hrelated with hbefore | ⟨e, he, hscope⟩
      · exact hbefore
      · exact (hnew e he).1 hscope

/-! ## Submissions and actions -/

lemma submitStatus_met_iff (ledger : List ActionLedgerEntry) :
    (submitStatus ledger).1 = .met ↔ ∀ e ∈ ledger, e.isSubmit = false := by
  simp only [submitStatus, length_pos_iff_ne_nil]
  by_cases hexecuted : ledger.filter ActionLedgerEntry.isSubmit = []
  · rw [if_neg (not_not.2 hexecuted)]
    refine iff_of_true rfl fun e he => ?_
    simpa using filter_eq_nil_iff.1 hexecuted e he
  · rw [if_pos hexecuted]
    refine iff_of_false (by simp) fun h => hexecuted ?_
    exact filter_eq_nil_iff.2 fun e he => by simp [h e he]

lemma submitLive_held (before new : List ActionLedgerEntry) :
    (submitLive (before ++ new)).advances (some (submitLive before)) = false := by
  rw [not_advances_some_iff]
  simp only [submitLive, liveItem, rank_liveState_le_iff, Option.getD_none, Nat.le_refl, and_true,
    submitStatus_met_iff]
  refine ⟨fun h e he => h e (mem_append_left _ he), fun _ => ?_⟩
  by_contra hnot
  obtain ⟨hexecuted, hrelated⟩ := not_or.1 hnot
  simp only [not_forall, Bool.not_eq_false] at hexecuted
  obtain ⟨e, he, hsubmit⟩ := hexecuted
  exact hrelated (any_eq_true.2 ⟨e, he, by simp [hsubmit]⟩)

/-- A deliverable of actions regains nothing exactly when it is not met anew, where actions were
there before. -/
lemma deliverableLive_held (pf : Platform) (c c' : TaskContractBody)
    (hcommitted : ∀ e ∈ after, e.isCommitted → ∃ x ∈ before, x.isCommitted) :
    (deliverableLive pf c after).advances (some (deliverableLive pf c' before)) = false ↔
      ((actionsStatus pf after c).1 = .met → (actionsStatus pf before c').1 = .met) := by
  rw [not_advances_some_iff]
  simp only [deliverableLive, liveItem, rank_liveState_le_iff, Option.getD_none, Nat.le_refl,
    and_true, and_iff_left_iff_imp]
  intro _ hrelated
  obtain ⟨e, he, hcommit⟩ := any_eq_true.1 hrelated
  exact Or.inr (any_eq_true.2 (hcommitted e he hcommit))

/-! ## The snapshot -/

lemma find?_eq_some_of_unique {p : α → Bool} {l : List α} {a : α} (ha : a ∈ l) (hp : p a)
    (hunique : ∀ b ∈ l, p b → b = a) : l.find? p = some a := by
  cases hfind : l.find? p with
  | none => exact absurd hp (by simpa using find?_eq_none.1 hfind a ha)
  | some b =>
    rw [hunique b (mem_of_find?_eq_some hfind) (find?_some hfind)]

lemma mem_liveItems (pf : Platform) (s : ProgressSources) (item : LiveItem) :
    item ∈ liveItems pf s ↔
      (∃ fill, s.terms.fill = some fill ∧ item = fillLive pf s.census fill s.entries) ∨
      (∃ a ∈ s.terms.artifacts, item = artifactLive pf a.scope s.entries) ∨
      ((∃ n, s.terms.submit = .forbidden n) ∧ item = submitLive s.entries) ∨
      (∃ c, askedActions s.contract = some c ∧ item = deliverableLive pf c s.entries) := by
  simp only [liveItems, mem_append, Option.mem_toList, Option.map_eq_some_iff, mem_map,
    or_assoc, eq_comm (b := item)]
  refine or_congr_right (or_congr_right (or_congr_left ?_))
  cases s.terms.submit <;> simp

lemma artifactRequirementId_ne (scope : ArtifactScope) :
    artifactRequirementId scope ≠ "fill" ∧ artifactRequirementId scope ≠ "effects.submit" ∧
      artifactRequirementId scope ≠ "deliverable" := by
  cases scope <;> decide

lemma artifactRequirementId_inj {scope scope' : ArtifactScope}
    (h : artifactRequirementId scope = artifactRequirementId scope') : scope = scope' := by
  revert h
  cases scope <;> cases scope' <;> decide

lemma liveItems_unique (pf : Platform) (s : ProgressSources) {a b : LiveItem}
    (ha : a ∈ liveItems pf s) (hb : b ∈ liveItems pf s) (hid : b.id = a.id) : b = a := by
  rw [mem_liveItems] at ha hb
  obtain ⟨fill, hfill, rfl⟩ | ⟨x, -, rfl⟩ | ⟨-, rfl⟩ | ⟨c, hc, rfl⟩ := ha <;>
    obtain ⟨fill', hfill', rfl⟩ | ⟨y, -, rfl⟩ | ⟨-, rfl⟩ | ⟨c', hc', rfl⟩ := hb <;>
    simp only [fillLive, artifactLive, submitLive, deliverableLive, liveItem] at hid
  · rw [Option.some.inj (hfill'.symm.trans hfill)]
  · exact absurd hid (artifactRequirementId_ne y.scope).1
  · exact absurd hid (by decide)
  · exact absurd hid (by decide)
  · exact absurd hid.symm (artifactRequirementId_ne x.scope).1
  · rw [artifactRequirementId_inj hid]
  · exact absurd hid.symm (artifactRequirementId_ne x.scope).2.1
  · exact absurd hid.symm (artifactRequirementId_ne x.scope).2.2
  · exact absurd hid (by decide)
  · exact absurd hid (artifactRequirementId_ne y.scope).2.1
  · rfl
  · exact absurd hid (by decide)
  · exact absurd hid (by decide)
  · exact absurd hid (artifactRequirementId_ne y.scope).2.2
  · exact absurd hid (by decide)
  · rw [Option.some.inj (hc'.symm.trans hc)]

lemma previousItem_of_mem (pf : Platform) (s : ProgressSources) {a : LiveItem}
    (ha : a ∈ liveItems pf s) (item : LiveItem) (hid : a.id = item.id) :
    previousItem (liveItems pf s) item = some a := by
  refine find?_eq_some_of_unique ha (by simpa using hid) fun b hb hsame => ?_
  exact liveItems_unique pf s ha hb ((by simpa using hsame : b.id = item.id).trans hid.symm)

lemma previousItem_deliverable_none (pf : Platform) (s : ProgressSources) {item : LiveItem}
    (hid : item.id = "deliverable") (hnone : askedActions s.contract = none) :
    previousItem (liveItems pf s) item = none := by
  refine find?_eq_none.2 fun b hb hsame => ?_
  have hsame : b.id = "deliverable" := by simpa [hid] using hsame
  rw [mem_liveItems] at hb
  obtain ⟨fill, -, rfl⟩ | ⟨y, -, rfl⟩ | ⟨-, rfl⟩ | ⟨c, hc, rfl⟩ := hb
  · simp [fillLive, liveItem] at hsame
  · exact absurd hsame (artifactRequirementId_ne y.scope).2.2
  · simp [submitLive, liveItem] at hsame
  · rw [hnone] at hc
    cases hc

/-! ## A run -/

section Run

variable {pf : Platform} {canonical : String → String} {r : ProgressRun}

lemma ProgressInv.ledger_split (hr : ProgressInv pf r) :
    r.sources.ledger = r.atSnapshot.ledger ++
      r.sources.ledger.drop r.atSnapshot.ledger.length := by
  obtain ⟨new, hnew⟩ := hr.snapshot
  rw [← hnew, drop_left]

lemma ProgressInv.entries_split (hr : ProgressInv pf r) :
    r.sources.entries = r.atSnapshot.entries ++ r.sinceSnapshot := by
  have hsplit := congrArg (List.map entry) hr.ledger_split
  rwa [map_append] at hsplit

lemma ProgressInv.seq_lt (hr : ProgressInv pf r) {e x : ActionLedgerEntry}
    (he : e ∈ r.atSnapshot.entries) (hx : x ∈ r.sinceSnapshot) : e.stamp.seq < x.stamp.seq := by
  obtain ⟨e, hold, rfl⟩ := mem_map.1 he
  obtain ⟨x, hnew, rfl⟩ := mem_map.1 hx
  obtain ⟨i, hi⟩ := mem_iff_getElem?.1 hold
  obtain ⟨j, hj⟩ := mem_iff_getElem?.1 hnew
  have hplace := (List.getElem?_eq_some_iff.1 hi).1
  have hi' : r.sources.ledger[i]? = some e := by
    rw [hr.ledger_split, getElem?_append_left hplace, hi]
  rw [getElem?_drop] at hj
  rw [hr.stamped i e hi', hr.stamped _ x hj]
  omega

/-- **The live items.** With the terms and the census of the snapshot, and no committed action
without one before, no live item is further than at the snapshot exactly when nothing is regained of
a screenshot, of the fill, or of the deliverable. -/
lemma liveItems_hold_iff (hr : ProgressInv pf r) (hterms : r.atSnapshot.terms = r.sources.terms)
    (hcensus : r.atSnapshot.census = r.sources.census)
    (hcommitted : ∀ e ∈ r.sources.entries, e.isCommitted →
      ∃ x ∈ r.atSnapshot.entries, x.isCommitted) :
    (∀ item ∈ liveItems pf r.sources,
        item.advances (previousItem r.progress.items item) = false) ↔
      (∀ a ∈ r.sources.terms.artifacts, ∀ e ∈ r.sinceSnapshot,
        (e.capturesScope a.scope → ∃ x ∈ r.atSnapshot.entries, x.capturesScope a.scope) ∧
          (CaptureMeets a.scope r.sources.entries e →
            screenshotStatus pf a.scope r.atSnapshot.entries = .met)) ∧
      (∀ fill, r.sources.terms.fill = some fill →
        FillHeld pf r.sources.census fill r.atSnapshot.entries r.sources.entries) ∧
      ∀ c, askedActions r.sources.contract = some c →
        (actionsStatus pf r.sources.entries c).1 = .met →
          ∃ c', askedActions r.atSnapshot.contract = some c' ∧
            (actionsStatus pf r.atSnapshot.entries c').1 = .met := by
  have hsplit := hr.entries_split
  have hsub : ∀ e ∈ r.atSnapshot.entries, e ∈ r.sources.entries := by
    intro e he
    rw [hsplit]
    exact mem_append_left _ he
  -- each kind of item against the item of the snapshot
  have hartifact : ∀ a ∈ r.sources.terms.artifacts,
      ((artifactLive pf a.scope r.sources.entries).advances (previousItem r.progress.items
          (artifactLive pf a.scope r.sources.entries)) = false ↔
        ∀ e ∈ r.sinceSnapshot,
          (e.capturesScope a.scope → ∃ x ∈ r.atSnapshot.entries, x.capturesScope a.scope) ∧
            (CaptureMeets a.scope r.sources.entries e →
              screenshotStatus pf a.scope r.atSnapshot.entries = .met)) := by
    intro a ha
    have hmem : artifactLive pf a.scope r.atSnapshot.entries ∈ liveItems pf r.atSnapshot :=
      (mem_liveItems _ _ _).2 (Or.inr (Or.inl ⟨a, hterms ▸ ha, rfl⟩))
    rw [hr.items, previousItem_of_mem pf r.atSnapshot hmem
      (artifactLive pf a.scope r.sources.entries) rfl, hsplit]
    exact artifactLive_held pf a.scope fun e he x hx => hr.seq_lt he hx
  have hfill : ∀ fill, r.sources.terms.fill = some fill →
      ((fillLive pf r.sources.census fill r.sources.entries).advances (previousItem
          r.progress.items (fillLive pf r.sources.census fill r.sources.entries)) = false ↔
        FillHeld pf r.sources.census fill r.atSnapshot.entries r.sources.entries) := by
    intro fill hfill
    have hmem : fillLive pf r.sources.census fill r.atSnapshot.entries ∈
        liveItems pf r.atSnapshot :=
      (mem_liveItems _ _ _).2 (Or.inl ⟨fill, hterms ▸ hfill, by rw [hcensus]⟩)
    rw [hr.items, previousItem_of_mem pf r.atSnapshot hmem
      (fillLive pf r.sources.census fill r.sources.entries) rfl]
    cases hcoverage : fill.coverage with
    | listed =>
      refine fillLive_listed pf _ fill hcoverage fun name hname => ?_
      obtain ⟨e, he, hnamed⟩ := mem_filterMap.1 hname
      exact mem_filterMap.2 ⟨e, hsub e he, hnamed⟩
    | allEligible =>
      refine fillLive_allEligible pf _ fill hcoverage fun c _ unit _ hcovered => ?_
      obtain ⟨e, he, hcovers⟩ := any_eq_true.1 hcovered
      exact any_eq_true.2 ⟨e, hsub e he, hcovers⟩
  have hsubmit : (∃ n, r.sources.terms.submit = .forbidden n) →
      (submitLive r.sources.entries).advances (previousItem r.progress.items
        (submitLive r.sources.entries)) = false := by
    intro hforbidden
    have hmem : submitLive r.atSnapshot.entries ∈ liveItems pf r.atSnapshot :=
      (mem_liveItems _ _ _).2 (Or.inr (Or.inr (Or.inl ⟨hterms ▸ hforbidden, rfl⟩)))
    rw [hr.items, previousItem_of_mem pf r.atSnapshot hmem
      (submitLive r.sources.entries) rfl, hsplit]
    exact submitLive_held _ _
  have hdeliverable : ∀ c, askedActions r.sources.contract = some c →
      ((deliverableLive pf c r.sources.entries).advances (previousItem r.progress.items
          (deliverableLive pf c r.sources.entries)) = false ↔
        ((actionsStatus pf r.sources.entries c).1 = .met →
          ∃ c', askedActions r.atSnapshot.contract = some c' ∧
            (actionsStatus pf r.atSnapshot.entries c').1 = .met)) := by
    intro c _
    rw [hr.items]
    cases hbefore : askedActions r.atSnapshot.contract with
    | none =>
      rw [previousItem_deliverable_none pf r.atSnapshot rfl hbefore]
      simp [deliverableLive, liveItem, LiveItem.advances, liveState, ite_eq_iff]
    | some c' =>
      have hmem : deliverableLive pf c' r.atSnapshot.entries ∈ liveItems pf r.atSnapshot :=
        (mem_liveItems _ _ _).2 (Or.inr (Or.inr (Or.inr ⟨c', hbefore, rfl⟩)))
      rw [previousItem_of_mem pf r.atSnapshot hmem
      (deliverableLive pf c r.sources.entries) rfl,
        deliverableLive_held pf c c' hcommitted]
      simp
  constructor
  · intro hitems
    refine ⟨fun a ha => (hartifact a ha).1 (hitems _ ?_), fun fill hf =>
      (hfill fill hf).1 (hitems _ ?_), fun c hc => (hdeliverable c hc).1 (hitems _ ?_)⟩
    · exact (mem_liveItems _ _ _).2 (Or.inr (Or.inl ⟨a, ha, rfl⟩))
    · exact (mem_liveItems _ _ _).2 (Or.inl ⟨fill, hf, rfl⟩)
    · exact (mem_liveItems _ _ _).2 (Or.inr (Or.inr (Or.inr ⟨c, hc, rfl⟩)))
  · rintro ⟨hartifacts, hfills, hdeliverables⟩ item hitem
    obtain ⟨fill, hf, rfl⟩ | ⟨a, ha, rfl⟩ | ⟨hforbidden, rfl⟩ | ⟨c, hc, rfl⟩ :=
      (mem_liveItems _ _ _).1 hitem
    · exact (hfill fill hf).2 (hfills fill hf)
    · exact (hartifact a ha).2 (hartifacts a ha)
    · exact hsubmit hforbidden
    · exact (hdeliverable c hc).2 (hdeliverables c hc)

/-- **Back to the last counted checkpoint.** What every new entry has of an entry before it, some
entry of the last counted checkpoint has.

**Proof sketch.** Strong induction on the place of the entry. -/
lemma ProgressInv.exists_counted (hr : ProgressInv pf r) {P : RecordedEntry → Prop}
    (hstep : ∀ (i : Nat) (e : RecordedEntry), r.sources.ledger[i]? = some e →
      r.atCounted.ledger.length ≤ i → P e → ∃ x ∈ r.sources.ledger.take i, P x)
    {e : RecordedEntry} (he : e ∈ r.sources.ledger) (hP : P e) :
    ∃ x ∈ r.atCounted.ledger, P x := by
  obtain ⟨i, hi⟩ := mem_iff_getElem?.1 he
  clear he
  induction i using Nat.strongRecOn generalizing e with
  | _ i ih =>
    rcases Nat.lt_or_ge i r.atCounted.ledger.length with hold | hnew
    · have hmem := hr.mem_counted (mem_of_getElem? hi) (by rw [hr.stamped i e hi]; omega)
      exact ⟨e, hmem, hP⟩
    · obtain ⟨x, hx, hPx⟩ := hstep i e hi hnew hP
      obtain ⟨j, hj⟩ := mem_iff_getElem?.1 hx
      have hji : j < i := by
        have hlength := (List.getElem?_eq_some_iff.1 hj).1
        rw [length_take] at hlength
        omega
      rw [getElem?_take_of_lt hji] at hj
      exact ih j hji hPx hj

variable {e : RecordedEntry}

lemma RecordedEntry.Repeats.key {before : List RecordedEntry} (h : e.Repeats before)
    (hfill : e.entry.isFill = false) {key : String} (hkey : key ∈ e.coverageKeys) :
    ∃ x ∈ before, key ∈ x.coverageKeys := by
  unfold RecordedEntry.Repeats at h
  cases hentry : e.entry with
  | fillCommitted stamp ref name groupKey coveredRefs =>
    rw [hentry] at hfill
    cases hfill
  | submitRefused stamp => simp [coverageKeys, hentry] at hkey
  | clickExecuted stamp submitClass =>
    simp only [hentry] at h
    obtain ⟨x, hx, stamp', submitClass', hclick, hepoch, href⟩ := h
    refine ⟨x, hx, ?_⟩
    simpa [coverageKeys, hentry, hclick, hepoch, href] using hkey
  | capture stamp scope producer complete =>
    simp only [hentry] at h
    obtain ⟨x, hx, stamp', producer', complete', hcapture, hhash⟩ := h
    refine ⟨x, hx, ?_⟩
    simpa [coverageKeys, hentry, hcapture, hhash] using hkey

lemma RecordedEntry.Repeats.committed {before : List RecordedEntry} (h : e.Repeats before)
    (hcommitted : e.entry.isCommitted) :
    ∃ x ∈ before, x.entry.isCommitted := by
  have hfield : ∀ epoch field, FieldCommitted before epoch field →
      ∃ x ∈ before, x.entry.isCommitted := by
    rintro epoch field ⟨x, hx, stamp, ref, name, groupKey, coveredRefs, hentry, -⟩
    exact ⟨x, hx, by rw [hentry]; rfl⟩
  unfold RecordedEntry.Repeats at h
  cases hentry : e.entry with
  | fillCommitted stamp ref name groupKey coveredRefs =>
    simp only [hentry] at h
    rcases h.1 with hcommit | ⟨group, -, x, hx, stamp', ref', name', refs', hgroup, -⟩
    · exact hfield _ _ hcommit
    · exact ⟨x, hx, by rw [hgroup]; rfl⟩
  | clickExecuted stamp submitClass =>
    simp only [hentry] at h
    obtain ⟨x, hx, stamp', submitClass', hclick, -⟩ := h
    exact ⟨x, hx, by rw [hclick]; rfl⟩
  | submitRefused stamp => rw [hentry] at hcommitted; cases hcommitted
  | capture stamp scope producer complete => rw [hentry] at hcommitted; cases hcommitted

lemma fresh_eq_nil_iff (hr : ProgressInv pf r) (h : RepeatsCoveredWork canonical r) :
    (claimAll r.progress.coverage (r.progress.unseen r.sources.ledger)).2 = [] ↔
      ∀ (i : Nat) (e : RecordedEntry), r.sources.ledger[i]? = some e →
        r.atCounted.ledger.length ≤ i → e.entry.isFill → ∀ key ∈ e.coverageKeys,
          ∃ x ∈ r.sources.ledger.take i, key ∈ x.coverageKeys := by
  rw [claimAll_stale]
  constructor
  · intro hstale i e hi hnew _ key hkey
    have hunseen : e ∈ r.progress.unseen r.sources.ledger :=
      hr.mem_unseen.2 ⟨mem_of_getElem? hi, not_refused_of_mem_coverageKeys hkey,
        by rw [hr.stamped i e hi]; omega⟩
    obtain ⟨x, hx, hkeyx⟩ := (hr.coverage key).1 (hstale e hunseen key hkey)
    have hpre := prefix_iff_eq_take.1 (hr.counted.trans hr.snapshot)
    refine ⟨x, ?_, hkeyx⟩
    rw [hpre] at hx
    exact (take_subset_take_left _ hnew) hx
  · intro hkeys e he key hkey
    refine (hr.coverage key).2 (hr.exists_counted (P := fun x => key ∈ x.coverageKeys) ?_
      (hr.mem_unseen.1 he).1 hkey)
    intro i x hi hnew hkeyx
    cases hfill : x.entry.isFill with
    | true => exact hkeys i x hi hnew hfill key hkeyx
    | false => exact (h.entries i x hi hnew).key hfill hkeyx

lemma progressSignals_eq_nil_iff (pf : Platform) (canonical : String → String) (s : ProgressSources)
    (p : ProgressLedger) :
    progressSignals pf canonical s p = [] ↔
      s.documentCount ≤ p.documents ∧
        (∀ url, pageKey canonical s.page = some url → url ∈ p.urls) ∧
        (claimAll p.coverage (p.unseen s.ledger)).2 = [] ∧
        ∀ item ∈ liveItems pf s, item.advances (previousItem p.items item) = false := by
  have hpage : (pageKey canonical s.page).any (fun url => !p.urls.contains url) = false ↔
      ∀ url, pageKey canonical s.page = some url → url ∈ p.urls := by
    cases pageKey canonical s.page <;> simp
  rw [← hpage]
  simp only [progressSignals, append_eq_nil_iff, ite_eq_right_iff, ite_eq_left_iff,
    cons_ne_nil, imp_false, Nat.not_lt, Bool.not_eq_true, any_eq_false,
    Decidable.not_not, List.isEmpty_iff]
  constructor
  · rintro ⟨⟨⟨⟨hdocuments, hurl⟩, hfresh⟩, -⟩, hitems⟩
    exact ⟨hdocuments, hurl, hfresh, hitems⟩
  · rintro ⟨hdocuments, hurl, hfresh, hitems⟩
    refine ⟨⟨⟨⟨hdocuments, hurl⟩, hfresh⟩, ?_⟩, hitems⟩
    simp [hfresh]

end Run

/-- **When repeated work leaves the stall window open.** In every run: at a counted checkpoint since
the last of which only covered work was repeated, the checkpoint reports no signal, and the calls
without progress grow by one, exactly when no requirement is met again. -/
theorem stall_window_iff (pf : Platform) (canonical : String → String) (es : List ProgressEvent)
    (now : Nat) (h : RepeatsCoveredWork canonical ((progressRun pf canonical).run es)) :
    let r := (progressRun pf canonical).run es
    let result := checkpoint pf canonical true r.sources now r.progress
    (result.2.signals = [] ∧ result.1.noProgressCalls = r.progress.noProgressCalls + 1) ↔
      NothingRegained pf r := by
  intro r result
  have hr : ProgressInv pf r := progressInv_run pf canonical es
  have hcommitted : ∀ e ∈ r.sources.entries, e.isCommitted →
      ∃ x ∈ r.atSnapshot.entries, x.isCommitted := by
    intro e he hcommit
    obtain ⟨e, hold, rfl⟩ := List.mem_map.1 he
    obtain ⟨x, hx, hxcommit⟩ := hr.exists_counted (P := fun x => x.entry.isCommitted)
      (fun i y hi hnew hy => (h.entries i y hi hnew).committed hy) hold hcommit
    exact ⟨x.entry, List.mem_map_of_mem (hr.counted.subset hx), hxcommit⟩
  have hsignals : result.2.signals = progressSignals pf canonical r.sources r.progress := rfl
  have hcalls : result.1.noProgressCalls = if result.2.signals.isEmpty then
    r.progress.noProgressCalls + 1 else 0 := rfl
  have hnothing : (result.2.signals = [] ∧
      result.1.noProgressCalls = r.progress.noProgressCalls + 1) ↔ result.2.signals = [] := by
    refine and_iff_left_of_imp fun hnil => ?_
    rw [hcalls, hnil]
    rfl
  rw [hnothing, hsignals, progressSignals_eq_nil_iff, fresh_eq_nil_iff hr h,
    liveItems_hold_iff hr (h.terms.1.trans h.terms.2.symm) (h.census.1.trans h.census.2.symm)
      hcommitted]
  have hdocuments : r.sources.documentCount ≤ r.progress.documents :=
    Nat.le_of_eq (h.documents.trans hr.documents.symm)
  constructor
  · rintro ⟨-, -, hkeys, hscreens, hfills, hdeliverable⟩
    exact ⟨hkeys, hscreens, hfills, hdeliverable⟩
  · rintro ⟨hkeys, hscreens, hfills, hdeliverable⟩
    exact ⟨hdocuments, h.page, hkeys, hscreens, hfills, hdeliverable⟩

/-! ## A repeated capture -/

def clickOn (ref : String) : RecordedEntry where
  entry := .clickExecuted ⟨0, some 1, "shop.example"⟩ none
  ref := ref

def viewportCapture (sha256 : String) : RecordedEntry where
  entry := .capture ⟨0, some 1, "shop.example"⟩ .viewport "browser_capture" none
  sha256 := sha256

def screenshotTerms : EffectiveActionTerms :=
  { noActionTerms with artifacts := [⟨.screenshot, .viewport, 1⟩] }

def staleScreenshot : List ProgressEvent :=
  [.setTerms screenshotTerms, .record (clickOn "next"), .record (viewportCapture "a1"),
    .checkpoint true 1, .record (clickOn "next")]

/-- After the repeated click, the same capture again. -/
def freshScreenshot : List ProgressEvent :=
  staleScreenshot ++ [.checkpoint true 2, .record (viewportCapture "a1")]

lemma repeatsCoveredWork_stale :
    RepeatsCoveredWork id ((progressRun asciiPlatform id).run staleScreenshot) where
  documents := rfl
  page url hurl := by cases hurl
  terms := ⟨rfl, rfl⟩
  census := ⟨rfl, rfl⟩
  entries i e hi hnew := by
    have hlength : ((progressRun asciiPlatform id).run staleScreenshot).sources.ledger.length = 3 :=
      rfl
    obtain rfl : i = 2 := by
      have := (List.getElem?_eq_some_iff.1 hi).1
      have hcounted : ((progressRun asciiPlatform id).run
        staleScreenshot).atCounted.ledger.length = 2 := rfl
      omega
    obtain rfl := Option.some.inj hi
    exact ⟨_, mem_cons_self, _, _, rfl, rfl, rfl⟩

lemma repeatsCoveredWork_fresh :
    RepeatsCoveredWork id ((progressRun asciiPlatform id).run freshScreenshot) where
  documents := rfl
  page url hurl := by cases hurl
  terms := ⟨rfl, rfl⟩
  census := ⟨rfl, rfl⟩
  entries i e hi hnew := by
    have hlength : ((progressRun asciiPlatform id).run freshScreenshot).sources.ledger.length = 4 :=
      rfl
    obtain rfl : i = 3 := by
      have := (List.getElem?_eq_some_iff.1 hi).1
      have hcounted : ((progressRun asciiPlatform id).run
        freshScreenshot).atCounted.ledger.length = 3 := rfl
      omega
    obtain rfl := Option.some.inj hi
    exact ⟨_, mem_cons_of_mem _ mem_cons_self, _, _, _, rfl, rfl⟩

theorem nothingRegained_stale :
    NothingRegained asciiPlatform ((progressRun asciiPlatform id).run staleScreenshot) :=
  (stall_window_iff asciiPlatform id staleScreenshot 2 repeatsCoveredWork_stale).1
    (by decide +kernel)

/-- The repeated capture closes the stall window: the screenshot that the repeated click made stale
is met again. -/
theorem repeated_capture_resets_window :
    let r := (progressRun asciiPlatform id).run freshScreenshot
    let result := checkpoint asciiPlatform id true r.sources 3 r.progress
    RepeatsCoveredWork id r ∧ result.2.signals = [.itemAdvanced] ∧
      r.progress.noProgressCalls = 1 ∧ result.1.noProgressCalls = 0 :=
  ⟨repeatsCoveredWork_fresh, by decide +kernel⟩

end Yantra
