import Yantra.Agent.Contract

/-!
# Reconciling conditions

`reconcileConstraints`: the conditions the model reports against the filters of the contract.
There is one constraint for every filter, in the contract's order, and the conditions the
contract does not name follow.

## Main definitions

* `DeliveryConstraint` — a reported or reconciled condition.
* `reconcileFilter`, `reconcileConstraints` — the reconciliation.

## Main results

* `reconcileConstraints_find` — the first constraint of a filter's name is the one of the
  first filter with that name.
* `reconcileFilter_verified` — when a filter's own constraint is verified.
-/

namespace Yantra

open List Option

/-! ## Conditions and notices -/

inductive ConditionStatus where
  | verified | unverified | violated
  deriving DecidableEq, Repr, Inhabited

/-- A condition, as reported by the model or as reconciled. -/
structure DeliveryConstraint where
  name : String
  value : String
  status : ConditionStatus
  refs : List String
  cause : Option String := none
  deriving DecidableEq, Repr, Inhabited

structure BriefNotice where
  kind : String
  source : String
  reason : String
  deriving DecidableEq, Repr, Inhabited

/-- The items that fit a notice, oldest first. -/
def visibleItems (pre : String) : List String → List String → List String
  | visible, [] => visible
  | visible, item :: items =>
    if 600 < JsText.utf16Length (pre ++ "; ".intercalate (visible ++ [item])) + 24 then visible
    else visibleItems pre (visible ++ [item]) items

def boundedNotice (pre : String) (items : List String) (maxItems : Nat) : String :=
  let visible := visibleItems pre [] (items.take maxItems)
  let dropped := items.length - visible.length
  pre ++ "; ".intercalate visible ++
    if 0 < dropped then " (+" ++ toString dropped ++ " more)" else ""

/-! ## The reconciliation -/

def normalizeCondition (condition : DeliveryConstraint) : DeliveryConstraint :=
  if condition.status = .verified ∧ condition.refs = [] then
    { condition with status := .unverified, cause := some "marked verified without evidence" }
  else condition

/-- Whether two names are the same to the delivery checks. -/
def sameName (pf : Platform) (a b : String) : Bool :=
  decide (normalizeDeliveryName pf a = normalizeDeliveryName pf b)

/-- What the model reported of a condition of this name: the first one. -/
def reportedCondition (pf : Platform) (input : List DeliveryConstraint) (name : String) :
    Option DeliveryConstraint :=
  (input.map normalizeCondition).find? fun entry => sameName pf entry.name name

def reconcileFilter (pf : Platform) (input : List DeliveryConstraint)
    (supported : DeliveryConstraint → Bool) (filter : ContractFilter) : DeliveryConstraint :=
  match reportedCondition pf input filter.name with
  | none => ⟨filter.name, filter.value, .unverified, [], some "not reported by the agent"⟩
  | some condition =>
    if sameName pf condition.value filter.value then
      { condition with name := filter.name, value := filter.value }
    else
      let confirmed := !condition.refs.isEmpty && supported condition
      { condition with
          name := filter.name
          value := filter.value
          status := if confirmed then .violated else .unverified
          cause := some ((if confirmed then "source reports"
            else "agent reported an unconfirmed") ++ " " ++ condition.value) }

/-- The constraints of `reconcileConstraints`. -/
def reconciledConstraints (pf : Platform) (input : List DeliveryConstraint)
    (filters : List ContractFilter) (supported : DeliveryConstraint → Bool) :
    List DeliveryConstraint :=
  filters.map (reconcileFilter pf input supported) ++
    (input.map normalizeCondition).filter fun condition =>
      !(filters.map fun f => normalizeDeliveryName pf f.name).contains
        (normalizeDeliveryName pf condition.name)

def constraintNotice (status : ConditionStatus) (constraints : List DeliveryConstraint) :
    List BriefNotice :=
  let items := (constraints.filter fun c => decide (c.status = status)).map fun c =>
    c.name ++ " = " ++ c.value ++ (match c.cause with
      | some cause => if cause = "" then "" else " (" ++ cause ++ ")"
      | none => "")
  if items.isEmpty then []
  else [⟨"contract_gap", "task-contract", boundedNotice
    (if status = .unverified then "Not confirmed: " else "Not met: ") items items.length⟩]

def reconcileConstraints (pf : Platform) (input : List DeliveryConstraint)
    (contract : Option TaskContractBody) (supported : DeliveryConstraint → Bool) :
    List DeliveryConstraint × List BriefNotice :=
  let filters := (contract.map TaskContractBody.filters).getD []
  let constraints := reconciledConstraints pf input filters supported
  (constraints, constraintNotice .unverified constraints ++ constraintNotice .violated constraints)

/-! ## What it yields -/

variable (pf : Platform)

lemma reconcileFilter_name_value (input : List DeliveryConstraint)
    (supported : DeliveryConstraint → Bool) (filter : ContractFilter) :
    (reconcileFilter pf input supported filter).name = filter.name ∧
      (reconcileFilter pf input supported filter).value = filter.value := by
  unfold reconcileFilter
  split
  · exact ⟨rfl, rfl⟩
  · split <;> exact ⟨rfl, rfl⟩

/-- A filter's constraint is verified exactly when the first condition reported of its name is
verified with evidence and its value is the filter's. -/
lemma reconcileFilter_verified (input : List DeliveryConstraint)
    (supported : DeliveryConstraint → Bool) (filter : ContractFilter) :
    (reconcileFilter pf input supported filter).status = .verified ↔
      ∃ condition, reportedCondition pf input filter.name = some condition ∧
        condition.status = .verified ∧ sameName pf condition.value filter.value := by
  unfold reconcileFilter
  cases hreported : reportedCondition pf input filter.name with
  | none => simp
  | some condition =>
    by_cases hvalue : sameName pf condition.value filter.value
    · simp [hvalue]
    · simp only [if_neg hvalue, some.injEq]
      constructor
      · intro h
        split_ifs at h
      · rintro ⟨c, rfl, -, hc⟩
        exact absurd hc hvalue

/-- The first constraint of a filter's name is the one produced for the first filter with that
name. -/
lemma reconcileConstraints_find (input : List DeliveryConstraint) (filters : List ContractFilter)
    (supported : DeliveryConstraint → Bool) {filter : ContractFilter} (hf : filter ∈ filters) :
    ∃ first, filters.find? (fun f => sameName pf f.name filter.name) = some first ∧
      (reconciledConstraints pf input filters supported).find?
          (fun entry => sameName pf entry.name filter.name) =
        some (reconcileFilter pf input supported first) := by
  have hsome : (filters.find? fun f => sameName pf f.name filter.name).isSome := by
    rw [find?_isSome]
    exact ⟨filter, hf, by simp [sameName]⟩
  obtain ⟨first, hfirst⟩ := isSome_iff_exists.1 hsome
  refine ⟨first, hfirst, ?_⟩
  have hcomp : ((fun entry : DeliveryConstraint => sameName pf entry.name filter.name) ∘
      reconcileFilter pf input supported) = fun f => sameName pf f.name filter.name := by
    funext f
    simp only [Function.comp, (reconcileFilter_name_value pf input supported f).1]
  rw [reconciledConstraints, find?_append, find?_map, hcomp, hfirst]
  rfl

end Yantra
