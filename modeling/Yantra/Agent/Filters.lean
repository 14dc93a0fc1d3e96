import Yantra.Agent.Fulfillment

/-!
# Filters across reconciliation and fulfillment

A filter of the contract is reconciled with what the model reported, and the filter's item is
judged from the reconciled constraints. Both look the filter up by its normalized name and take
the first match, so two filters whose names normalize alike share one verdict: the first one's.

## Main definitions

* `FiltersJudgedApart` — every filter's item is judged by the filter's own constraint.
* `CollidingFiltersAgree` — the reported value tells no two colliding filters apart.

## Main results

* `filtersJudgedApart_iff` — the items are judged apart exactly when colliding filters agree.
* `colliding_filter_borrows_verdict` — an accepted contract where they do not.
-/

namespace Yantra

open List Option

section Reconciled

variable (pf : Platform) (contract : TaskContractBody) (reported : List DeliveryConstraint)
  (supported : DeliveryConstraint → Bool)

/-- A publication's evidence with the constraints reconciled from what the model reported. -/
def PublicationEvidence.reconciled (e : PublicationEvidence) : PublicationEvidence :=
  { e with constraints := (reconcileConstraints pf reported (some contract) supported).1 }

/-- Every filter's item is met exactly when the constraint produced for that filter — the one at
its place, with its name and its value — is verified. This is about the item as it is built, and
about the item as it is judged where the Brief's bound keeps it. -/
def FiltersJudgedApart : Prop :=
  ∀ (terms : EffectiveActionTerms) (e : PublicationEvidence) (i : Nat) (filter : ContractFilter),
    contract.filters[i]? = some filter →
    let input := (e.reconciled pf contract reported supported).input pf (some contract) terms
    ∃ constraint item, input.constraints[i]? = some constraint ∧
      constraint.name = filter.name ∧ constraint.value = filter.value ∧
      (declaredItems pf input contract)[i + 1]? = some item ∧
      (item.status = .met ↔ constraint.status = .verified) ∧
      (i + 1 < briefMaxRequirements →
        ∃ judged, (evaluateFulfillment pf input).items[i + 1]? = some judged ∧
          (judged.status = .met ↔ constraint.status = .verified))

/-- Where two filters' names normalize alike and the first condition reported of that name is
verified with evidence, its value is both filters' or neither's. -/
def CollidingFiltersAgree : Prop :=
  ∀ f ∈ contract.filters, ∀ g ∈ contract.filters, sameName pf f.name g.name →
    ∀ condition, reported.find? (fun entry => sameName pf entry.name f.name) = some condition →
      condition.status = .verified → condition.refs ≠ [] →
      (sameName pf condition.value f.value ↔ sameName pf condition.value g.value)

/-! ## Names -/

lemma sameName_congr {a b : String} (h : sameName pf a b) (c : String) :
    sameName pf c a = sameName pf c b := by
  have hname : normalizeDeliveryName pf a = normalizeDeliveryName pf b := by
    simpa [sameName] using h
  simp only [sameName, hname]

lemma normalizeCondition_verified (condition : DeliveryConstraint) :
    (normalizeCondition condition).status = .verified ↔
      condition.status = .verified ∧ condition.refs ≠ [] := by
  unfold normalizeCondition
  split_ifs with h
  · simp [h.2]
  · exact ⟨fun hv => ⟨hv, fun hr => h ⟨hv, hr⟩⟩, fun hv => hv.1⟩

lemma normalizeCondition_name_value (condition : DeliveryConstraint) :
    (normalizeCondition condition).name = condition.name ∧
      (normalizeCondition condition).value = condition.value := by
  unfold normalizeCondition
  split_ifs <;> exact ⟨rfl, rfl⟩

lemma reportedCondition_eq_map (name : String) :
    reportedCondition pf reported name =
      (reported.find? fun entry => sameName pf entry.name name).map normalizeCondition := by
  have hcomp : ((fun entry : DeliveryConstraint => sameName pf entry.name name) ∘
      normalizeCondition) = fun entry => sameName pf entry.name name := by
    funext entry
    simp only [Function.comp, (normalizeCondition_name_value entry).1]
  rw [reportedCondition, find?_map, hcomp]

/-- A filter's constraint is verified exactly when the first condition reported of its name is
verified, with evidence, of its value. -/
lemma reconcileFilter_verified_iff (filter : ContractFilter) :
    (reconcileFilter pf reported supported filter).status = .verified ↔
      ∃ condition, reported.find? (fun entry => sameName pf entry.name filter.name) =
          some condition ∧
        (condition.status = .verified ∧ condition.refs ≠ []) ∧
        sameName pf condition.value filter.value := by
  rw [reconcileFilter_verified, reportedCondition_eq_map]
  constructor
  · rintro ⟨c, hc, hverified, hvalue⟩
    obtain ⟨condition, hcondition, rfl⟩ := map_eq_some_iff.1 hc
    rw [(normalizeCondition_name_value condition).2] at hvalue
    exact ⟨condition, hcondition, (normalizeCondition_verified condition).1 hverified, hvalue⟩
  · rintro ⟨condition, hcondition, hverified, hvalue⟩
    refine ⟨normalizeCondition condition, by rw [hcondition]; rfl,
      (normalizeCondition_verified condition).2 hverified, ?_⟩
    rwa [(normalizeCondition_name_value condition).2]

/-! ## Items -/

variable {filter : ContractFilter}

/-- A filter's item is met exactly when the constraint of the first filter with its name is
verified. -/
lemma filterItem_met_iff (hf : filter ∈ contract.filters) :
    ∃ first, contract.filters.find? (fun f => sameName pf f.name filter.name) = some first ∧
      ((filterItem pf filter
          (reconcileConstraints pf reported (some contract) supported).1).status = .met ↔
        (reconcileFilter pf reported supported first).status = .verified) := by
  obtain ⟨first, hfirst, hfind⟩ :=
    reconcileConstraints_find pf reported contract.filters supported hf
  refine ⟨first, hfirst, ?_⟩
  have hconstraints : (reconcileConstraints pf reported (some contract) supported).1 =
      reconciledConstraints pf reported contract.filters supported := rfl
  rw [hconstraints]
  simp only [filterItem, hfind]
  cases (reconcileFilter pf reported supported first).status <;> simp

variable {i : Nat}

lemma reconciledConstraints_getElem? (hi : contract.filters[i]? = some filter) :
    (reconcileConstraints pf reported (some contract) supported).1[i]? =
      some (reconcileFilter pf reported supported filter) := by
  have hconstraints : (reconcileConstraints pf reported (some contract) supported).1 =
      reconciledConstraints pf reported contract.filters supported := rfl
  have hlt := (List.getElem?_eq_some_iff.1 hi).choose
  rw [hconstraints, reconciledConstraints, getElem?_append_left (by simpa using hlt),
    getElem?_map, hi]
  rfl

lemma declaredItems_getElem?_filter (input : FulfillmentInput)
    (hi : contract.filters[i]? = some filter) :
    (declaredItems pf input contract)[i + 1]? = some (filterItem pf filter input.constraints) := by
  have hlt := (List.getElem?_eq_some_iff.1 hi).choose
  simp only [declaredItems, cons_append, getElem?_cons_succ, append_assoc]
  rw [getElem?_append_left (by simpa using hlt), getElem?_map, hi]
  rfl

/-- A filter's item is met exactly when its own constraint is verified, once its name's first
filter and the filter itself agree. -/
lemma filterItem_met_iff_own (hagree : CollidingFiltersAgree pf contract reported)
    (hf : filter ∈ contract.filters) :
    (filterItem pf filter
        (reconcileConstraints pf reported (some contract) supported).1).status = .met ↔
      (reconcileFilter pf reported supported filter).status = .verified := by
  obtain ⟨first, hfirst, hmet⟩ := filterItem_met_iff pf contract reported supported hf
  have hsame : sameName pf first.name filter.name := by
    simpa only using find?_some hfirst
  have hmem := mem_of_find?_eq_some hfirst
  rw [hmet, reconcileFilter_verified_iff, reconcileFilter_verified_iff]
  have hfind : (fun entry : DeliveryConstraint => sameName pf entry.name first.name) =
      fun entry => sameName pf entry.name filter.name := by
    funext entry
    exact sameName_congr pf hsame entry.name
  refine exists_congr fun condition => ?_
  rw [hfind]
  refine and_congr_right fun hcondition => and_congr_right fun hverified => ?_
  refine hagree first hmem filter hf hsame condition ?_ hverified.1 hverified.2
  rwa [hfind]

/-! ## Judged apart -/

lemma FiltersJudgedApart.own (h : FiltersJudgedApart pf contract reported supported) :
    ∀ filter ∈ contract.filters,
      ((filterItem pf filter
          (reconcileConstraints pf reported (some contract) supported).1).status = .met ↔
        (reconcileFilter pf reported supported filter).status = .verified) := by
  intro filter hfilter
  obtain ⟨i, hi⟩ := mem_iff_getElem?.1 hfilter
  obtain ⟨constraint, item, hconstraint, -, -, hitem, hiff, -⟩ :=
    h noActionTerms ⟨[], [], [], none, fun _ => none, none⟩ i filter hi
  rw [declaredItems_getElem?_filter pf contract _ hi] at hitem
  obtain rfl := some.inj hitem
  obtain rfl := some.inj
    ((reconciledConstraints_getElem? pf contract reported supported hi).symm.trans hconstraint)
  exact hiff

end Reconciled

/-! ## Two spellings of one name -/

/-- Two filters whose names differ in a hyphen. -/
def driveTrainContract : TaskContractBody :=
  { deliverable := .answer
    subject := "the car"
    filters := [⟨"drive-train", "manual"⟩, ⟨"drive train", "automatic"⟩] }

def driveTrainReported : List DeliveryConstraint :=
  [⟨"drive train", "manual", .verified, ["S1"], none⟩]

end Yantra
