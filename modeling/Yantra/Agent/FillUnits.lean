import Mathlib.Data.Finset.Card
import Yantra.Agent.Ledger

/-!
# The units of a form census

What is counted is a group of controls, or a control that has none. The count, the remaining units
and the verdict agree on them. The list of exemptions is made in a pass of its own, which does not
look for eligible controls of the same group.

## Main definitions

* `FillCensus.eligibleUnits`, `FillCensus.Filled` — the eligible units, and those
  that a committed fill covers.
* `CoverageSound` — what is claimed of the coverage of a census.

## Main results

* `coverageSound_iff` — the claim holds exactly of the censuses in which no group with an
  eligible control is listed as exempt.
-/

namespace Yantra

open List Option

/-! ## Units -/

/-- What the census counts: a control without a group, or a group. -/
inductive FillUnitId where
  | control (ref : String)
  | group (key : String)
  deriving DecidableEq, Repr, Inhabited

def FillUnitId.key : FillUnitId → String
  | .control ref => "ref:" ++ ref
  | .group key => "group:" ++ key

def FillCensusControl.unitId (c : FillCensusControl) : FillUnitId :=
  match c.groupKey with
  | none => .control c.ref
  | some g => .group g

/-- A control that the engine does not leave out. -/
def FillCensusControl.isEligible (c : FillCensusControl) : Bool := c.exemption.isNone

def FillUnit.id (unit : FillUnit) : FillUnitId :=
  match unit.groupKey with
  | none => .control unit.ref
  | some g => .group g

def FillCensus.units (census : FillCensus) : List FillUnit :=
  (census.controls.foldl addControl OrderedMap.empty).values

def FillUnit.covered (unit : FillUnit) (census : FillCensus)
    (ledger : List ActionLedgerEntry) : Bool :=
  ledger.any fun e => e.isFill && decide (e.stamp.epoch = census.epoch) && e.covers unit

/-- The last fill is on another document than the census. -/
def formLeft (census : FillCensus) (ledger : List ActionLedgerEntry) : Bool :=
  (ledger.reverse.find? ActionLedgerEntry.isFill).any fun last =>
    decide (last.stamp.epoch ≠ census.epoch)

namespace FillCensus

variable (census : FillCensus)

def controlsOf (id : FillUnitId) : List FillCensusControl :=
  census.controls.filter fun c => c.isEligible && decide (c.unitId = id)

def eligibleUnits : Finset FillUnitId :=
  ((census.controls.filter FillCensusControl.isEligible).map FillCensusControl.unitId).toFinset

/-- A committed fill on the document of the census names or covers a control of the unit, or has its
group key. -/
def Filled (ledger : List ActionLedgerEntry) (id : FillUnitId) : Prop :=
  ∃ stamp ref field groupKey coveredRefs,
    ActionLedgerEntry.fillCommitted stamp ref field groupKey coveredRefs ∈ ledger ∧
      stamp.epoch = census.epoch ∧
      ((∃ c ∈ census.controlsOf id, c.ref = ref ∨ c.ref ∈ coveredRefs) ∨
        ∃ g, id = .group g ∧ groupKey = some g)

open Classical in
/-- The eligible units that are filled. -/
noncomputable def filledUnits (ledger : List ActionLedgerEntry) : Finset FillUnitId :=
  census.eligibleUnits.filter (census.Filled ledger)

end FillCensus

def FillCensusControl.exemptionKey (c : FillCensusControl) : String :=
  c.groupKey.getD ("ref:" ++ c.ref)

def reportedExempt : List String → List FillCensusControl → List FillCensusControl
  | _, [] => []
  | seen, c :: cs =>
    if c.isEligible || seen.contains c.exemptionKey then reportedExempt seen cs
    else c :: reportedExempt (c.exemptionKey :: seen) cs

def remainingUnit (entry : String × String × Option String) : FillUnitId :=
  match entry.2.2 with
  | none => .control entry.1
  | some g => .group g

structure CoverageSound (pf : Platform) (census : FillCensus) : Prop where
  /-- Every eligible unit counts once. -/
  eligible : ∀ ledger, (fillCoverage census ledger).eligible = census.eligibleUnits.card
  /-- What is filled and what remains are all. -/
  total : ∀ ledger, (fillCoverage census ledger).filled +
    (fillCoverage census ledger).remaining.length = (fillCoverage census ledger).eligible
  /-- The units counted as filled are those that a committed fill covers, -/
  filled : ∀ ledger, (fillCoverage census ledger).filled = (census.filledUnits ledger).card
  /-- and those listed as remaining are the others. -/
  remaining : ∀ ledger, ((fillCoverage census ledger).remaining.map remainingUnit).Nodup ∧
    ∀ id, id ∈ (fillCoverage census ledger).remaining.map remainingUnit ↔
      id ∈ census.eligibleUnits ∧ ¬ census.Filled ledger id
  /-- More entries fill more. -/
  monotone : ∀ ledger ledger', ledger ⊆ ledger' →
    census.filledUnits ledger ⊆ census.filledUnits ledger' ∧
      (fillCoverage census ledger).filled ≤ (fillCoverage census ledger').filled
  /-- A fill of all eligible fields is met when all are filled, in a complete census of the document
  of the last fill. -/
  met : ∀ (fill : FillTerm) ledger, fill.coverage = .allEligible →
    ((censusFillEvaluator pf (some census) fill ledger).status = .met ↔
      census.complete = true ∧ census.eligibleUnits.Nonempty ∧
        (∃ last, ledger.reverse.find? ActionLedgerEntry.isFill = some last ∧
          last.stamp.epoch = census.epoch) ∧
        ∀ id ∈ census.eligibleUnits, census.Filled ledger id)
  /-- No group is both eligible and exempt. -/
  apart : ∀ c ∈ reportedExempt [] census.controls, ∀ g, c.groupKey = some g →
    FillUnitId.group g ∉ census.eligibleUnits

/-! ## The coverage and the verdict, in terms of the stored units -/

@[simp] lemma status_withExemptions (census : FillCensus) (status : ItemStatus) (reason : String) :
    (withExemptions census status reason).status = status := rfl

lemma fillCoverage_eq (census : FillCensus) (ledger : List ActionLedgerEntry) :
    (fillCoverage census ledger).eligible = census.units.length ∧
      (fillCoverage census ledger).filled = census.units.length -
        (census.units.filter fun unit => !unit.covered census ledger).length := by
  refine ⟨rfl, ?_⟩
  simp only [fillCoverage, FillCensus.units, FillUnit.covered]
  congr 3
  funext unit
  rw [List.any_filter]

open ActionLedgerEntry

/-- A fill of all eligible fields is met when the census is complete, its form was not left, and all
its units, of which there are some, are covered. -/
lemma censusFill_met_iff (pf : Platform) (census : FillCensus) (fill : FillTerm)
    (hall : fill.coverage = .allEligible) (ledger : List ActionLedgerEntry) :
    (censusFillEvaluator pf (some census) fill ledger).status = .met ↔
      census.complete ∧ formLeft census ledger = false ∧ census.units ≠ [] ∧
        (census.units.filter fun unit => !unit.covered census ledger) = [] := by
  obtain ⟨heligible, hfilled⟩ := fillCoverage_eq census ledger
  have hle : (census.units.filter fun unit => !unit.covered census ledger).length ≤
      census.units.length := length_filter_le _ _
  simp only [censusFillEvaluator, hall, ← length_pos_iff_ne_nil, ← length_eq_zero_iff]
  have hleft : formLeft census ledger =
    (ledger.reverse.find? isFill).any fun last =>
      decide (last.stamp.epoch ≠ census.epoch) := rfl
  rw [← hleft, heligible, hfilled]
  cases census.complete with
  | false => simp
  | true =>
    cases formLeft census ledger with
    | true => simp
    | false =>
      by_cases hnone : census.units.length = 0
      · simp [hnone]
      · simp only [Bool.not_true, Bool.false_eq_true, if_false, if_neg hnone,
          status_withExemptions, true_and]
        split_ifs with hall
        · exact iff_of_true rfl (by omega)
        · refine iff_of_false (by decide) ?_
          omega

open FillUnitId

/-! ## How the units are stored -/

lemma FillUnitId.key_injective : Function.Injective key := by
  rintro (a | a) (b | b) h
  · exact congrArg _ (String.append_right_inj _ |>.mp h)
  · have hchars := congrArg String.toList h
    simp [key] at hchars
  · have hchars := congrArg String.toList h
    simp [key] at hchars
  · exact congrArg _ (String.append_right_inj _ |>.mp h)

lemma FillCensusControl.key_unitId (c : FillCensusControl) : c.unitId.key = c.unitKey := by
  unfold unitId unitKey
  cases c.groupKey <;> rfl

/-- The stored unit of the controls `own`, all of one unit. -/
def storedUnit (own : List FillCensusControl) : Option FillUnit :=
  own.head?.map fun c => ⟨c.ref, c.label, c.groupKey, own.map FillCensusControl.ref⟩

variable {c : FillCensusControl}

open FillCensusControl

lemma addControl_of_exempt (units : OrderedMap String FillUnit) (h : c.isEligible = false) :
    addControl units c = units := by
  unfold addControl
  cases hexempt : c.exemption with
  | some reason => rfl
  | none =>
    rw [isEligible, hexempt] at h
    cases h

lemma addControl_of_eligible (units : OrderedMap String FillUnit) (h : c.isEligible) :
    addControl units c =
      units.set c.unitId.key
        { (units.get? c.unitId.key).getD ⟨c.ref, c.label, c.groupKey, []⟩ with
          refs := ((units.get? c.unitId.key).getD ⟨c.ref, c.label, c.groupKey, []⟩).refs ++
            [c.ref] } := by
  rw [c.key_unitId]
  unfold addControl
  cases hexempt : c.exemption with
  | some reason =>
    rw [isEligible, hexempt] at h
    cases h
  | none => rfl

/-- **The units, as the source collects them.** A unit is stored with the reference, the label and
the group of its first eligible control, and the references of all.

**Proof sketch.** Induction on the controls, the last one split off. -/
lemma get?_units (controls : List FillCensusControl) (id : FillUnitId) :
    (controls.foldl addControl OrderedMap.empty).get? id.key =
      storedUnit (controls.filter fun c => c.isEligible && decide (c.unitId = id)) := by
  induction controls using reverseRecOn with
  | nil => rfl
  | append_singleton controls c ih =>
    rw [foldl_concat, filter_append, filter_singleton]
    cases heligible : c.isEligible with
    | false =>
      rw [addControl_of_exempt _ heligible, Bool.false_and, ih]
      simp
    | true =>
      rw [addControl_of_eligible _ heligible, Bool.true_and]
      by_cases hid : c.unitId = id
      · subst hid
        rw [OrderedMap.get?_set_self, ih, decide_eq_true rfl]
        cases controls.filter fun other => other.isEligible && decide (other.unitId = c.unitId) with
        | nil => rfl
        | cons first rest => simp [storedUnit]
      · rw [OrderedMap.get?_set_of_ne _ _ fun hkey => hid (key_injective hkey), ih,
          decide_eq_false hid]
        simp

open OrderedMap

lemma exists_of_mem_keys (controls : List FillCensusControl) {k : String}
    (hk : k ∈ (controls.foldl addControl OrderedMap.empty).keys) :
    ∃ c ∈ controls, c.isEligible ∧ c.unitId.key = k := by
  induction controls using reverseRecOn with
  | nil => cases hk
  | append_singleton controls c ih =>
    rw [foldl_concat] at hk
    cases heligible : c.isEligible with
    | false =>
      rw [addControl_of_exempt _ heligible] at hk
      obtain ⟨other, hother, hkey⟩ := ih hk
      exact ⟨other, mem_append_left _ hother, hkey⟩
    | true =>
      rw [addControl_of_eligible _ heligible, ← has_iff_mem_keys] at hk
      by_cases hkey : c.unitId.key = k
      · exact ⟨c, mem_append_right _ (mem_singleton_self c), heligible, hkey⟩
      · rw [has, get?_set_of_ne _ _ hkey] at hk
        obtain ⟨other, hother, hkey'⟩ := ih ((has_iff_mem_keys _ _).1 hk)
        exact ⟨other, mem_append_left _ hother, hkey'⟩

namespace FillCensus

variable (census : FillCensus)

variable {id : FillUnitId}

lemma mem_controlsOf :
    c ∈ census.controlsOf id ↔ c ∈ census.controls ∧ c.isEligible ∧ c.unitId = id := by
  rw [controlsOf, mem_filter, Bool.and_eq_true, decide_eq_true_eq]

lemma mem_eligibleUnits :
    id ∈ census.eligibleUnits ↔ ∃ c ∈ census.controls, c.isEligible ∧ c.unitId = id := by
  simp only [eligibleUnits, List.mem_toFinset, List.mem_map, mem_filter, and_assoc]

lemma mem_filledUnits {ledger : List ActionLedgerEntry} :
    id ∈ census.filledUnits ledger ↔ id ∈ census.eligibleUnits ∧ census.Filled ledger id := by
  classical
  exact Finset.mem_filter

variable {unit : FillUnit}

lemma exists_of_mem_units (h : unit ∈ census.units) :
    unit.id ∈ census.eligibleUnits ∧
      unit.refs = (census.controlsOf unit.id).map ref := by
  obtain ⟨k, hget⟩ := exists_get?_of_mem_values h
  have hk : k ∈ (census.controls.foldl addControl OrderedMap.empty).keys := by
    rw [← has_iff_mem_keys, has, hget]
    rfl
  obtain ⟨c, hc, heligible, rfl⟩ := exists_of_mem_keys _ hk
  rw [get?_units] at hget
  obtain ⟨first, hfirst, rfl⟩ := map_eq_some_iff.1 hget
  obtain ⟨hmem, -, hid⟩ := census.mem_controlsOf.1 (mem_of_head? hfirst)
  have hunit : (⟨first.ref, first.label, first.groupKey,
      (census.controlsOf c.unitId).map ref⟩ : FillUnit).id = c.unitId := by
    rw [← hid]
    rfl
  refine ⟨?_, ?_⟩
  · exact census.mem_eligibleUnits.2 ⟨c, hc, heligible, hunit.symm⟩
  · exact congrArg (fun id => (census.controlsOf id).map ref) hunit.symm

lemma exists_mem_units (h : id ∈ census.eligibleUnits) :
    ∃ unit ∈ census.units, unit.id = id := by
  obtain ⟨c, hc, heligible, rfl⟩ := census.mem_eligibleUnits.1 h
  have hget := get?_units census.controls c.unitId
  have hmem : c ∈ census.controlsOf c.unitId := census.mem_controlsOf.2 ⟨hc, heligible, rfl⟩
  obtain ⟨first, rest, hown⟩ := exists_cons_of_ne_nil (ne_nil_of_mem hmem)
  have hfirst : first.unitId = c.unitId :=
    (census.mem_controlsOf.1 (hown ▸ mem_cons_self)).2.2
  rw [show census.controls.filter (fun other => other.isEligible &&
    decide (other.unitId = c.unitId)) = first :: rest from hown] at hget
  exact ⟨_, mem_values_of_get? hget, hfirst⟩

lemma nodup_units : (census.units.map FillUnit.id).Nodup := by
  have hkey : census.units.map (fun unit => unit.id.key) =
      (census.controls.foldl addControl OrderedMap.empty).keys := by
    unfold units values OrderedMap.keys
    rw [List.map_map]
    refine map_congr_left fun entry hentry => ?_
    obtain ⟨k, unit⟩ := entry
    have hget := (get?_eq_some_iff _ k unit).2 hentry
    have hk : k ∈ (census.controls.foldl addControl OrderedMap.empty).keys :=
      List.mem_map.2 ⟨_, hentry, rfl⟩
    obtain ⟨c, -, -, rfl⟩ := exists_of_mem_keys _ hk
    rw [get?_units] at hget
    obtain ⟨first, hfirst, rfl⟩ := map_eq_some_iff.1 hget
    obtain ⟨-, -, hid⟩ := census.mem_controlsOf.1 (mem_of_head? hfirst)
    exact congrArg key hid
  have hnodup : (census.units.map fun unit => unit.id.key).Nodup := by
    rw [hkey]
    exact OrderedMap.nodup _
  rw [show (fun unit : FillUnit => unit.id.key) = key ∘ FillUnit.id from rfl,
    ← List.map_map] at hnodup
  exact hnodup.of_map _

lemma toFinset_units : (census.units.map FillUnit.id).toFinset = census.eligibleUnits := by
  ext id
  rw [List.mem_toFinset, List.mem_map]
  constructor
  · rintro ⟨unit, hunit, rfl⟩
    exact (census.exists_of_mem_units hunit).1
  · intro h
    obtain ⟨unit, hunit, hid⟩ := census.exists_mem_units h
    exact ⟨unit, hunit, hid⟩

lemma covered_iff (ledger : List ActionLedgerEntry) (h : unit ∈ census.units) :
    unit.covered census ledger ↔ census.Filled ledger unit.id := by
  have hrefs := (census.exists_of_mem_units h).2
  have hin : ∀ ref, ref ∈ unit.refs ↔ ∃ c ∈ census.controlsOf unit.id, c.ref = ref := by
    intro ref
    rw [hrefs, List.mem_map]
  have hgroup : ∀ groupKey, (unit.groupKey.isSome && decide (groupKey = unit.groupKey)) = true ↔
      ∃ g, unit.id = .group g ∧ groupKey = some g := by
    intro groupKey
    unfold FillUnit.id
    cases unit.groupKey with
    | none => simp
    | some g => simp
  rw [FillUnit.covered, List.any_eq_true]
  constructor
  · rintro ⟨entry, hmem, hentry⟩
    rw [Bool.and_eq_true, Bool.and_eq_true, decide_eq_true_eq] at hentry
    obtain ⟨⟨hfill, hepoch⟩, hcovers⟩ := hentry
    cases entry with
    | fillCommitted stamp ref field groupKey coveredRefs =>
      refine ⟨stamp, ref, field, groupKey, coveredRefs, hmem, hepoch, ?_⟩
      simp only [covers, Bool.or_eq_true, contains_iff_mem, List.any_eq_true,
        hin, hgroup] at hcovers
      rcases hcovers with (⟨c, hc, hcref⟩ | ⟨covered, hcovered, c, hc, hcref⟩) | hkey
      · exact .inl ⟨c, hc, .inl hcref⟩
      · exact .inl ⟨c, hc, .inr (hcref ▸ hcovered)⟩
      · exact .inr hkey
    | clickExecuted stamp submitClass => cases hfill
    | submitRefused stamp => cases hfill
    | capture stamp scope producer complete => cases hfill
  · rintro ⟨stamp, ref, field, groupKey, coveredRefs, hmem, hepoch, hfills⟩
    refine ⟨_, hmem, ?_⟩
    rw [Bool.and_eq_true, Bool.and_eq_true, decide_eq_true_eq]
    refine ⟨⟨rfl, hepoch⟩, ?_⟩
    simp only [covers, Bool.or_eq_true, contains_iff_mem, List.any_eq_true,
      hin, hgroup]
    rcases hfills with ⟨c, hc, hcref | hcovered⟩ | hkey
    · exact .inl (.inl ⟨c, hc, hcref⟩)
    · exact .inl (.inr ⟨c.ref, hcovered, c, hc, rfl⟩)
    · exact .inr hkey

/-! ## The coverage -/

/-- The units without a commit. -/
def uncovered (ledger : List ActionLedgerEntry) : List FillUnit :=
  census.units.filter fun unit => !unit.covered census ledger

lemma remaining_fillCoverage (ledger : List ActionLedgerEntry) :
    (fillCoverage census ledger).remaining =
      (census.uncovered ledger).map fun unit => (unit.ref, unit.label, unit.groupKey) := by
  simp only [fillCoverage, uncovered, units, FillUnit.covered, List.any_filter]

lemma map_remaining (ledger : List ActionLedgerEntry) :
    (fillCoverage census ledger).remaining.map remainingUnit =
      (census.uncovered ledger).map FillUnit.id := by
  rw [census.remaining_fillCoverage, List.map_map]
  rfl

lemma mem_uncovered (ledger : List ActionLedgerEntry) :
    unit ∈ census.uncovered ledger ↔ unit ∈ census.units ∧ ¬ census.Filled ledger unit.id := by
  rw [uncovered, mem_filter]
  refine and_congr_right fun hunit => ?_
  rw [Bool.not_eq_true', ← Bool.not_eq_true, census.covered_iff ledger hunit]

lemma length_units : census.units.length = census.eligibleUnits.card := by
  rw [← census.toFinset_units, toFinset_card_of_nodup census.nodup_units, length_map]

lemma nodup_uncovered (ledger : List ActionLedgerEntry) :
    ((census.uncovered ledger).map FillUnit.id).Nodup :=
  census.nodup_units.sublist (filter_sublist.map FillUnit.id)

lemma mem_map_uncovered (ledger : List ActionLedgerEntry) :
    id ∈ (census.uncovered ledger).map FillUnit.id ↔
      id ∈ census.eligibleUnits ∧ ¬ census.Filled ledger id := by
  rw [List.mem_map]
  constructor
  · rintro ⟨unit, hunit, rfl⟩
    obtain ⟨hstored, hopen⟩ := (census.mem_uncovered ledger).1 hunit
    exact ⟨(census.exists_of_mem_units hstored).1, hopen⟩
  · rintro ⟨hid, hopen⟩
    obtain ⟨unit, hunit, rfl⟩ := census.exists_mem_units hid
    exact ⟨unit, (census.mem_uncovered ledger).2 ⟨hunit, hopen⟩, rfl⟩

lemma card_filledUnits (ledger : List ActionLedgerEntry) :
    (census.filledUnits ledger).card + (census.uncovered ledger).length =
      census.eligibleUnits.card := by
  classical
  have hopen : (census.eligibleUnits.filter fun id => ¬ census.Filled ledger id) =
      ((census.uncovered ledger).map FillUnit.id).toFinset := by
    ext id
    rw [Finset.mem_filter, List.mem_toFinset, census.mem_map_uncovered]
  have hcard : (census.eligibleUnits.filter fun id => ¬ census.Filled ledger id).card =
      (census.uncovered ledger).length := by
    rw [hopen, toFinset_card_of_nodup (census.nodup_uncovered ledger), length_map]
  have hsplit := Finset.card_filter_add_card_filter_not (s := census.eligibleUnits)
    (census.Filled ledger)
  rw [hcard] at hsplit
  unfold filledUnits
  convert hsplit using 2

lemma filled_fillCoverage (ledger : List ActionLedgerEntry) :
    (fillCoverage census ledger).filled = (census.filledUnits ledger).card := by
  have hsum := census.card_filledUnits ledger
  rw [(fillCoverage_eq census ledger).2, census.length_units]
  unfold uncovered at hsum
  omega

variable {ledger ledger' : List ActionLedgerEntry}

lemma filled_mono (h : ledger ⊆ ledger') (hfilled : census.Filled ledger id) :
    census.Filled ledger' id := by
  obtain ⟨stamp, ref, field, groupKey, coveredRefs, hmem, hrest⟩ := hfilled
  exact ⟨stamp, ref, field, groupKey, coveredRefs, h hmem, hrest⟩

lemma filledUnits_mono (h : ledger ⊆ ledger') :
    census.filledUnits ledger ⊆ census.filledUnits ledger' := by
  intro id hid
  rw [mem_filledUnits] at hid ⊢
  exact ⟨hid.1, census.filled_mono h hid.2⟩

end FillCensus

/-! ## The verdict -/

/-- **When a fill of all eligible fields is met.**

**Proof sketch.** With units to fill and all of them filled there is a commit, so asking for the
document of the last one adds nothing to what the source asks. -/
theorem censusFillEvaluator_met_iff (pf : Platform) (census : FillCensus) {fill : FillTerm}
    (ledger : List ActionLedgerEntry) (hall : fill.coverage = .allEligible) :
    (censusFillEvaluator pf (some census) fill ledger).status = .met ↔
      census.complete = true ∧ census.eligibleUnits.Nonempty ∧
        (∃ last, ledger.reverse.find? isFill = some last ∧
          last.stamp.epoch = census.epoch) ∧
        ∀ id ∈ census.eligibleUnits, census.Filled ledger id := by
  have hunits : census.units ≠ [] ↔ census.eligibleUnits.Nonempty := by
    rw [← length_pos_iff_ne_nil, census.length_units, Finset.card_pos]
  have hopen : census.uncovered ledger = [] ↔
      ∀ id ∈ census.eligibleUnits, census.Filled ledger id := by
    rw [← map_eq_nil_iff (f := FillUnit.id), eq_nil_iff_forall_not_mem]
    refine forall_congr' fun id => ?_
    rw [census.mem_map_uncovered, not_and_not_right]
  rw [censusFill_met_iff pf census fill hall, hunits]
  change _ ∧ _ ∧ _ ∧ census.uncovered ledger = [] ↔ _
  rw [hopen]
  refine and_congr_right fun _ => ?_
  rw [and_left_comm]
  refine and_congr_right fun hsome => and_congr_left fun hfilled => ?_
  -- some unit is filled, so there is a last commit
  obtain ⟨id, hid⟩ := hsome
  obtain ⟨stamp, ref, field, groupKey, coveredRefs, hmem, -⟩ := hfilled id hid
  cases hfind : ledger.reverse.find? isFill with
  | none => exact absurd rfl (find?_eq_none.1 hfind _ (mem_reverse.2 hmem))
  | some last => simp [formLeft, hfind]

/-! ## The exemptions -/

lemma mem_reportedExempt_iff (seen : List String) (controls : List FillCensusControl) :
    c ∈ reportedExempt seen controls ↔ c.exemptionKey ∉ seen ∧
      controls.find? (fun other => !other.isEligible &&
        decide (other.exemptionKey = c.exemptionKey)) = some c := by
  induction controls generalizing seen with
  | nil => simp [reportedExempt]
  | cons d controls ih =>
    unfold reportedExempt
    cases heligible : d.isEligible with
    | true =>
      rw [Bool.true_or, if_pos rfl, ih, find?_cons_of_neg (by simp [heligible])]
    | false =>
      rw [Bool.false_or]
      by_cases hkey : d.exemptionKey = c.exemptionKey
      · rw [find?_cons_of_pos (by simp [heligible, hkey]), some.injEq]
        by_cases hseen : c.exemptionKey ∈ seen
        · rw [if_pos (by simpa [hkey] using hseen), ih]
          simp [hseen]
        · rw [if_neg (by simpa [hkey] using hseen), mem_cons, ih]
          simp [hkey, hseen, eq_comm]
      · rw [find?_cons_of_neg (by simp [hkey])]
        split
        · exact ih seen
        · rw [mem_cons, ih, mem_cons]
          have hne : c ≠ d := fun heq => hkey (by rw [heq])
          simp [hne, Ne.symm hkey]

/-- **The coverage of a census is sound** exactly when the first exempt control listed under the key
of a group with eligible controls, if there is one, is no control of that group.

**Proof sketch.** The count, what remains and the verdict are the same units. A control is listed as
exempt when it is the first one of its key, whatever other controls of its group are. -/
theorem coverageSound_iff (pf : Platform) (census : FillCensus) :
    CoverageSound pf census ↔
      ∀ g, (∃ c ∈ census.controls, c.isEligible = true ∧ c.groupKey = some g) →
        ∀ c, census.controls.find? (fun other => !other.isEligible &&
            decide (other.exemptionKey = g)) = some c → c.groupKey ≠ some g := by
  have hgroup : ∀ g, FillUnitId.group g ∈ census.eligibleUnits ↔
      ∃ c ∈ census.controls, c.isEligible = true ∧ c.groupKey = some g := by
    intro g
    rw [census.mem_eligibleUnits]
    refine exists_congr fun c => and_congr_right fun _ => and_congr_right fun _ => ?_
    unfold FillCensusControl.unitId
    cases c.groupKey <;> simp
  have hkey : ∀ {c : FillCensusControl} {g}, c.groupKey = some g → c.exemptionKey = g := by
    intro c g hg
    rw [FillCensusControl.exemptionKey, hg, Option.getD_some]
  constructor
  · intro h g hg c hfind hcg
    have hreported : c ∈ reportedExempt [] census.controls := by
      rw [mem_reportedExempt_iff, hkey hcg]
      exact ⟨List.not_mem_nil, hfind⟩
    exact h.apart c hreported g hcg ((hgroup g).2 hg)
  · intro h
    refine ⟨fun _ => census.length_units, fun ledger => ?_, census.filled_fillCoverage,
      fun ledger => ?_, fun ledger ledger' hsub => ?_,
      fun fill ledger hall => censusFillEvaluator_met_iff pf census ledger hall, ?_⟩
    · have hsum := census.card_filledUnits ledger
      have hlength : (fillCoverage census ledger).remaining.length =
          (census.uncovered ledger).length := by
        rw [census.remaining_fillCoverage, List.length_map]
      rw [census.filled_fillCoverage, hlength, hsum]
      exact census.length_units.symm
    · rw [census.map_remaining]
      exact ⟨census.nodup_uncovered ledger, fun id => census.mem_map_uncovered ledger⟩
    · refine ⟨census.filledUnits_mono hsub, ?_⟩
      rw [census.filled_fillCoverage, census.filled_fillCoverage]
      exact Finset.card_le_card (census.filledUnits_mono hsub)
    · intro c hreported g hcg hmem
      rw [mem_reportedExempt_iff, hkey hcg] at hreported
      exact h g ((hgroup g).1 hmem) c hreported.2 hcg

def mixedGroupCensus : FillCensus where
  epoch := some 1
  complete := true
  controls := [⟨"e1", some "radio:plan", "Basic", none⟩,
    ⟨"e2", some "radio:plan", "Pro", some .disabled⟩]

/-- The group is counted as eligible, and its disabled option is listed as exempt. -/
theorem mixedGroup_counted_and_exempt : ¬ CoverageSound ⟨id, fun _ => none⟩ mixedGroupCensus := by
  intro h
  have hreported : (⟨"e2", some "radio:plan", "Pro", some .disabled⟩ : FillCensusControl) ∈
      reportedExempt [] mixedGroupCensus.controls := by decide +kernel
  exact h.apart _ hreported "radio:plan" rfl (by decide +kernel)

end Yantra
