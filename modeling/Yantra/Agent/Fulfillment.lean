import Yantra.Agent.Delivery
import Yantra.Agent.Ledger

/-!
# Fulfillment

`evaluateFulfillment`: every item a contract declares is judged from evidence, and a published
`do` run is settled as fulfilled when every judged item is met. The list of items is cut to the
bound of the Brief before it is counted.

## Main definitions

* `declaredItems` — every declared item with its own evaluator's verdict.
* `JudgesEveryItem` — no declared item is lost between the two.

## Main results

* `judgesEveryItem_iff` — no item is lost exactly when those past the sixteenth are met.
* `eighteen_items_settle_fulfilled` — an accepted contract of eighteen items settled as
  fulfilled with two of them unmet.
-/

namespace Yantra

open List Option

/-! ## Items -/

/-- Why a capture is impossible in a run. -/
inductive CaptureGapReason where
  | suppressedByFlag | noBrowser | noInteractionTools
  deriving DecidableEq, Repr, Inhabited

def captureGapPhrase : CaptureGapReason → String
  | .suppressedByFlag => "screenshots are off for this run (--no-screenshots)"
  | .noBrowser => "no browser was available"
  | .noInteractionTools => "this command cannot act on pages"

/-- One declared requirement and what the evidence showed. -/
structure RequirementStatus where
  id : String
  label : String
  status : ItemStatus
  reason : Option String
  declaredIn : Option Nat
  exemptions : Option (List (String × FillExemption)) := none
  exemptOverflow : Option Nat := none
  deriving DecidableEq, Repr, Inhabited

/-- Everything one evaluation reads. -/
structure FulfillmentInput where
  contract : Option TaskContractBody
  terms : EffectiveActionTerms
  deliverableGaps : List String
  constraints : List DeliveryConstraint
  ledger : List ActionLedgerEntry
  claimedMet : Option Bool
  captureGap : ArtifactScope → Option CaptureGapReason
  evaluateFill : FillEvaluator

/-- `host.startsWith('www.') ? host.slice(4) : host` -/
def stripWww (host : String) : String :=
  match host.toList with
  | 'w' :: 'w' :: 'w' :: '.' :: rest => String.ofList rest
  | _ => host

def dropTrailingDot (s : String) : String :=
  match s.toList.reverse with
  | '.' :: rest => String.ofList rest.reverse
  | _ => s

def hostSatisfiesRequiredSource (pf : Platform) (url : String) (contract : TaskContractBody) :
    Bool :=
  match pf.hostname url with
  | none => false
  | some hostname =>
    let host := stripWww (dropTrailingDot (pf.toLowerCase hostname))
    contract.requiredSources.any fun source =>
      decide (host = source) || ("." ++ source).toList.isSuffixOf host.toList

def actionsStatus (pf : Platform) (ledger : List ActionLedgerEntry)
    (contract : TaskContractBody) : ItemStatus × Option String :=
  let committed := ledger.filter ActionLedgerEntry.isCommitted
  if committed.isEmpty then (.unmet, some "no page action was recorded")
  else if contract.requiredSources.isEmpty then (.met, none)
  else
    let offHost := ((committed.filter fun e =>
      !hostSatisfiesRequiredSource pf ("https://" ++ e.stamp.host ++ "/") contract).map fun e =>
        if e.stamp.host.isEmpty then "an unknown page" else e.stamp.host).eraseDups
    if offHost.isEmpty then (.met, none)
    else (.unmet, some ("actions happened on " ++ ", ".intercalate offHost ++ ", not " ++
      ", ".intercalate contract.requiredSources))

def Deliverable.name : Deliverable → String
  | .table => "table"
  | .answer => "answer"
  | .report => "report"
  | .actions => "actions"

def gapsStatus (gaps : List String) : ItemStatus × Option String :=
  if gaps.isEmpty then (.met, none) else (.unmet, some ("; ".intercalate gaps))

def deliverableItem (pf : Platform) (input : FulfillmentInput) (contract : TaskContractBody) :
    RequirementStatus :=
  let (status, reason) := match contract.deliverable with
    | .table => gapsStatus input.deliverableGaps
    | .answer | .report => gapsStatus (input.deliverableGaps.filter fun gap =>
        "nothing in the answer is cited from".toList.isPrefixOf gap.toList)
    | .actions => actionsStatus pf input.ledger contract
  { id := "deliverable"
    label := contract.deliverable.name ++ " of " ++ contract.subject
    status := status
    reason := reason
    declaredIn := none }

/-- `filterItem`: the first constraint with the filter's name decides. -/
def filterItem (pf : Platform) (filter : ContractFilter)
    (constraints : List DeliveryConstraint) : RequirementStatus :=
  let name := normalizeDeliveryName pf filter.name
  let condition := constraints.find? fun entry => sameName pf entry.name filter.name
  let (status, reason) : ItemStatus × Option String := match condition with
    | some c =>
      match c.status with
      | .verified => (.met, none)
      | .violated => (.unmet, some ("not met: " ++ c.cause.getD c.value))
      | .unverified => (.unmet, some ("not confirmed" ++ match c.cause with
          | some cause => " (" ++ cause ++ ")"
          | none => ""))
    | none => (.unmet, some "not confirmed")
  { id := JsText.utf16Take 67
      ("filter:" ++ if name.isEmpty then JsText.trim filter.name else name)
    label := filter.name ++ " = " ++ filter.value
    status := status
    reason := reason
    declaredIn := none }

def satisfies (requested captured : ArtifactScope) : Bool :=
  match requested with
  | .viewport => decide (captured = .viewport) || decide (captured = .fullPage)
  | _ => decide (captured = requested)

def ActionLedgerEntry.capturesScope (scope : ArtifactScope) : ActionLedgerEntry → Bool
  | .capture _ captured producer _ =>
      decide (producer = "browser_capture") && satisfies scope captured
  | _ => false

/-- Whether an entry is a capture that was clipped or cut short. -/
def ActionLedgerEntry.isIncomplete : ActionLedgerEntry → Bool
  | .capture _ _ _ (some false) => true
  | _ => false

def timelyStatus (scope : ArtifactScope) (timely : List ActionLedgerEntry) :
    ItemStatus × Option String :=
  if scope = .fullPage ∧ timely.all ActionLedgerEntry.isIncomplete then
    (.unmet, some "capture_incomplete")
  else (.met, none)

def artifactStatus (scope : ArtifactScope) (input : FulfillmentInput) :
    ItemStatus × Option String :=
  let captures := input.ledger.filter (ActionLedgerEntry.capturesScope scope)
  if captures.isEmpty then
    (.unmet, some (match input.captureGap scope with
      | none => "not captured"
      | some gap => "not captured (" ++ captureGapPhrase gap ++ ")"))
  else
    match lastCommitted input.ledger with
    | none => timelyStatus scope captures
    | some last =>
      let after := captures.filter fun e => decide (last.stamp.seq < e.stamp.seq)
      if after.isEmpty then (.unmet, some "captured before the last page action")
      else
        let timely := after.filter fun e => decide (e.stamp.epoch = last.stamp.epoch)
        if timely.isEmpty then
          (.unmet, some "captured on a different page than the last action")
        else timelyStatus scope timely

def ActionLedgerEntry.isSubmit : ActionLedgerEntry → Bool
  | .clickExecuted _ (some _) => true
  | _ => false

def ActionLedgerEntry.isRefused : ActionLedgerEntry → Bool
  | .submitRefused _ => true
  | _ => false

def submitStatus (ledger : List ActionLedgerEntry) : ItemStatus × Option String :=
  let executed := (ledger.filter ActionLedgerEntry.isSubmit).length
  let refused := (ledger.filter ActionLedgerEntry.isRefused).length
  if 0 < executed then
    (.unmet, some (toString executed ++ " submit-class click" ++
      (if executed = 1 then " was" else "s were") ++ " executed"))
  else (.met, if refused = 0 then none
    else some (toString refused ++ " submit attempt" ++ (if refused = 1 then "" else "s") ++
      " refused"))

/-- The phrase of `renderActionPhrase` for a fill alone. -/
def renderFillPhrase (fill : FillTerm) : String :=
  match fill.coverage with
  | .allEligible => "fill all eligible fields"
  | .listed => "fill " ++ toString fill.fields.length ++ " listed field" ++
      if fill.fields.length = 1 then "" else "s"

def fillItem (input : FulfillmentInput) (fill : FillTerm) : RequirementStatus :=
  let verdict := input.evaluateFill fill input.ledger
  { id := "fill"
    label := renderFillPhrase fill
    status := verdict.status
    reason := verdict.reason
    declaredIn := some fill.declaredIn
    exemptions := verdict.exemptions
    exemptOverflow := verdict.exemptOverflow }

def artifactItem (input : FulfillmentInput) (artifact : ArtifactTerm) : RequirementStatus :=
  { id := artifactRequirementId artifact.scope
    label := artifactLabel artifact.scope
    status := (artifactStatus artifact.scope input).1
    reason := (artifactStatus artifact.scope input).2
    declaredIn := some artifact.declaredIn }

def submitItem (input : FulfillmentInput) (declaredIn : Nat) : RequirementStatus :=
  { id := "effects.submit"
    label := "do not submit"
    status := (submitStatus input.ledger).1
    reason := (submitStatus input.ledger).2
    declaredIn := some declaredIn }

/-- Every declared item, judged by its own evaluator: the deliverable, each filter, the fill,
each artifact, and the ban on submitting. -/
def declaredItems (pf : Platform) (input : FulfillmentInput) (contract : TaskContractBody) :
    List RequirementStatus :=
  deliverableItem pf input contract ::
    (contract.filters.map fun filter => filterItem pf filter input.constraints) ++
    (input.terms.fill.map (fillItem input)).toList ++
    input.terms.artifacts.map (artifactItem input) ++
    match input.terms.submit with
    | .forbidden declaredIn => [submitItem input declaredIn]
    | .allowed => []

/-! ## The evaluation -/

def briefMaxRequirements : Nat := 16

/-- The first free id: the item's own, or the item's with the least free suffix from `n` on.
There are more tries than ids seen, so one is free. -/
def freshId (seen : List String) (own : String) : Nat → Nat → String → String
  | 0, _, id => id
  | tries + 1, n, id =>
    if seen.contains id then
      freshId seen own tries (n + 1) (JsText.utf16Take 64 own ++ " " ++ toString n)
    else id

/-- `uniqueIds`, given the ids seen so far. -/
def uniqueIds : List String → List RequirementStatus → List RequirementStatus
  | _, [] => []
  | seen, item :: items =>
    let id := freshId seen item.id (seen.length + 2) 2 item.id
    { item with id := id } :: uniqueIds (id :: seen) items

def boundItem (item : RequirementStatus) : RequirementStatus :=
  { item with
      label := bound item.label maxLabel
      reason := item.reason.map fun r => bound r maxReason }

def unmetPhrase (item : RequirementStatus) : String :=
  let reason := item.reason.getD "not met"
  if item.id = "fill" then reason
  else if "artifact:".toList.isPrefixOf item.id.toList then item.label ++ " " ++ reason
  else item.label ++ ": " ++ reason

def disagreementNotice (claimedMet : Option Bool) (items : List RequirementStatus) :
    Option BriefNotice :=
  let unmet := items.filter fun item => decide (item.status = .unmet)
  if claimedMet = some true ∧ !unmet.isEmpty then
    some ⟨"contract_gap", "fulfillment",
      boundedNotice "The agent reported every requirement met; evidence shows: "
        (unmet.map unmetPhrase) 5⟩
  else none

/-- The whole evaluation of one publication. -/
structure FulfillmentEvaluation where
  items : List RequirementStatus
  met : Nat
  total : Nat
  contractDeclared : Bool
  disagreement : Option BriefNotice
  deriving DecidableEq, Repr, Inhabited

def evaluateFulfillment (pf : Platform) (input : FulfillmentInput) : FulfillmentEvaluation :=
  match input.contract with
  | none => ⟨[], 0, 0, false, none⟩
  | some contract =>
    let bounded := ((uniqueIds [] (declaredItems pf input contract)).take
      briefMaxRequirements).map boundItem
    let judged := bounded.filter fun item => decide (item.status ≠ .notApplicable)
    { items := bounded
      met := (judged.filter fun item => decide (item.status = .met)).length
      total := judged.length
      contractDeclared := true
      disagreement := disagreementNotice input.claimedMet bounded }

/-- How a published run is settled. -/
inductive TaskOutcome where
  | fulfilled | partly
  deriving DecidableEq, Repr, Inhabited

/-- `settleOutcome` on a published draft. -/
def settleOutcome (command : AgenticCommand) (evaluation : Option FulfillmentEvaluation) :
    TaskOutcome :=
  match command with
  | .do =>
    match evaluation with
    | some e => if e.contractDeclared ∧ e.met = e.total then .fulfilled else .partly
    | none => .partly
  | _ => .fulfilled

/-! ## At a publication -/

/-- What a publication's evaluation reads besides the contract of the run. -/
structure PublicationEvidence where
  deliverableGaps : List String
  constraints : List DeliveryConstraint
  ledger : List ActionLedgerEntry
  claimedMet : Option Bool
  captureGap : ArtifactScope → Option CaptureGapReason
  /-- The census read at the publication, `none` where the run cannot take one. -/
  census : Option FillCensus

/-- The input of the evaluation, the fill judged against the census. -/
def PublicationEvidence.input (pf : Platform) (e : PublicationEvidence)
    (contract : Option TaskContractBody) (terms : EffectiveActionTerms) : FulfillmentInput where
  contract := contract
  terms := terms
  deliverableGaps := e.deliverableGaps
  constraints := e.constraints
  ledger := e.ledger
  claimedMet := e.claimedMet
  captureGap := e.captureGap
  evaluateFill := censusFillEvaluator pf e.census

def TaskContractStore.current (s : TaskContractStore) : Option TaskContractBody :=
  s.revisions.getLast?.map Revision.contract

def evaluatePublication (pf : Platform) (s : TaskContractStore) (e : PublicationEvidence) :
    Option FulfillmentEvaluation :=
  if s.command = .do then
    some (evaluateFulfillment pf (e.input pf s.current s.effectiveActionTerms))
  else none

/-- No declared item is lost between its own evaluator and the outcome: the counts agree, and the
run is settled as fulfilled, only if every declared item is met, and a declared item that is unmet
stands unmet in the judged list, in its own place. -/
def JudgesEveryItem (pf : Platform) (contract : TaskContractBody) (terms : EffectiveActionTerms)
    (e : PublicationEvidence) : Prop :=
  let declared := declaredItems pf (e.input pf (some contract) terms) contract
  let evaluation := evaluateFulfillment pf (e.input pf (some contract) terms)
  (evaluation.met = evaluation.total → ∀ item ∈ declared, item.status = .met) ∧
    (settleOutcome .do (some evaluation) = .fulfilled → ∀ item ∈ declared, item.status = .met) ∧
    ∀ (i : Nat) (item : RequirementStatus), declared[i]? = some item → item.status = .unmet →
      ∃ judged, evaluation.items[i]? = some judged ∧ judged.status = .unmet ∧
        judged.label = bound item.label maxLabel

/-! ## The judged items -/

lemma map_uniqueIds {α : Type} (f : RequirementStatus → α)
    (hf : ∀ item id, f { item with id := id } = f item) (seen : List String)
    (items : List RequirementStatus) : (uniqueIds seen items).map f = items.map f := by
  induction items generalizing seen with
  | nil => rfl
  | cons item items ih =>
    rw [uniqueIds, map_cons, map_cons, hf, ih]

/-- What the bound of the Brief leaves of an item: its status, and its label bounded. -/
def RequirementStatus.verdict (item : RequirementStatus) : ItemStatus × String :=
  (item.status, bound item.label maxLabel)

variable {contract : TaskContractBody} {input : FulfillmentInput}

variable (pf : Platform)

/-- The judged items, as the source computes them. -/
lemma items_evaluateFulfillment (hc : input.contract = some contract) :
    (evaluateFulfillment pf input).items =
      ((uniqueIds [] (declaredItems pf input contract)).take briefMaxRequirements).map
        boundItem := by
  simp only [evaluateFulfillment, hc]

open RequirementStatus

lemma status_evaluateFulfillment (hc : input.contract = some contract) :
    (evaluateFulfillment pf input).items.map (fun item => (item.status, item.label)) =
      ((declaredItems pf input contract).take briefMaxRequirements).map
        verdict := by
  have hbound : (fun item : RequirementStatus => (item.status, item.label)) ∘ boundItem =
      verdict := by
    funext item
    simp only [Function.comp, boundItem, verdict]
  have hunique : (uniqueIds [] (declaredItems pf input contract)).map verdict =
      (declaredItems pf input contract).map verdict :=
    map_uniqueIds verdict (fun _ _ => rfl) [] _
  rw [items_evaluateFulfillment pf hc, List.map_map, hbound, map_take, hunique,
    ← map_take]

lemma getElem?_evaluateFulfillment (hc : input.contract = some contract) {i : Nat}
    {item : RequirementStatus} (hi : i < briefMaxRequirements)
    (hitem : (declaredItems pf input contract)[i]? = some item) :
    ∃ judged, (evaluateFulfillment pf input).items[i]? = some judged ∧
      judged.status = item.status ∧ judged.label = bound item.label maxLabel := by
  have hstatus := congrArg (·[i]?) (status_evaluateFulfillment pf hc)
  simp only [getElem?_map, getElem?_take, if_pos hi, hitem, map_some,
    map_eq_some_iff, verdict, Prod.mk.injEq] at hstatus
  exact hstatus

lemma length_evaluateFulfillment_le (input : FulfillmentInput) :
    (evaluateFulfillment pf input).items.length ≤ briefMaxRequirements := by
  unfold evaluateFulfillment
  split
  · exact Nat.zero_le _
  · simp only [length_map, length_take]
    exact Nat.min_le_left _ _

lemma met_eq_total_iff (hc : input.contract = some contract) :
    (evaluateFulfillment pf input).met = (evaluateFulfillment pf input).total ↔
      ∀ item ∈ (evaluateFulfillment pf input).items,
        item.status ≠ .notApplicable → item.status = .met := by
  simp only [evaluateFulfillment, hc, length_filter_eq_length_iff, mem_filter,
    decide_eq_true_eq, and_imp]

/-! ## The evaluators always judge -/

lemma gapsStatus_applicable (gaps : List String) : (gapsStatus gaps).1 ≠ .notApplicable := by
  unfold gapsStatus
  split_ifs <;> simp

lemma actionsStatus_applicable (ledger : List ActionLedgerEntry) (contract : TaskContractBody) :
    (actionsStatus pf ledger contract).1 ≠ .notApplicable := by
  simp only [actionsStatus]
  split_ifs <;> simp

lemma deliverableItem_applicable (input : FulfillmentInput) (contract : TaskContractBody) :
    (deliverableItem pf input contract).status ≠ .notApplicable := by
  simp only [deliverableItem]
  cases contract.deliverable with
  | table => exact gapsStatus_applicable _
  | answer => exact gapsStatus_applicable _
  | report => exact gapsStatus_applicable _
  | actions => exact actionsStatus_applicable pf _ contract

lemma filterItem_applicable (filter : ContractFilter) (constraints : List DeliveryConstraint) :
    (filterItem pf filter constraints).status ≠ .notApplicable := by
  simp only [filterItem]
  cases constraints.find? fun entry => sameName pf entry.name filter.name with
  | none => simp
  | some c => cases hc : c.status <;> simp [hc]

lemma artifactStatus_applicable (scope : ArtifactScope) (input : FulfillmentInput) :
    (artifactStatus scope input).1 ≠ .notApplicable := by
  have htimely : ∀ timely, (timelyStatus scope timely).1 ≠ .notApplicable := by
    intro timely
    unfold timelyStatus
    split_ifs <;> simp
  simp only [artifactStatus]
  split_ifs
  · simp
  · cases lastCommitted input.ledger with
    | none => exact htimely _
    | some last =>
      simp only
      split_ifs
      · simp
      · simp
      · exact htimely _

lemma submitStatus_applicable (ledger : List ActionLedgerEntry) :
    (submitStatus ledger).1 ≠ .notApplicable := by
  simp only [submitStatus]
  split_ifs <;> simp

lemma declaredItems_applicable (contract : TaskContractBody) (terms : EffectiveActionTerms)
    (e : PublicationEvidence) :
    ∀ item ∈ declaredItems pf (e.input pf (some contract) terms) contract,
      item.status ≠ .notApplicable := by
  intro item hitem
  simp only [declaredItems, cons_append, mem_cons, mem_append, List.mem_map,
    mem_toList, map_eq_some_iff] at hitem
  rcases hitem with rfl | ((⟨filter, -, rfl⟩ | ⟨fill, -, rfl⟩) | ⟨artifact, -, rfl⟩) | hsubmit
  · exact deliverableItem_applicable pf _ contract
  · exact filterItem_applicable pf filter _
  · exact censusFillEvaluator_applicable pf e.census fill e.ledger
  · exact artifactStatus_applicable artifact.scope _
  · split at hsubmit
    · obtain rfl := mem_singleton.1 hsubmit
      exact submitStatus_applicable _
    · simp at hsubmit

/-! ## Items past the sixteenth -/

lemma met_eq_total_iff_take (contract : TaskContractBody) (terms : EffectiveActionTerms)
    (e : PublicationEvidence) :
    let input := e.input pf (some contract) terms
    (evaluateFulfillment pf input).met = (evaluateFulfillment pf input).total ↔
      ∀ item ∈ (declaredItems pf input contract).take briefMaxRequirements,
        item.status = .met := by
  intro input
  have happlicable := declaredItems_applicable pf contract terms e
  rw [met_eq_total_iff pf (rfl : input.contract = some contract)]
  have hstatus : (evaluateFulfillment pf input).items.map RequirementStatus.status =
      ((declaredItems pf input contract).take briefMaxRequirements).map
        RequirementStatus.status := by
    have h := congrArg (List.map Prod.fst)
      (status_evaluateFulfillment pf (rfl : input.contract = some contract))
    rw [List.map_map, List.map_map] at h
    exact h
  have hiff : ∀ P : ItemStatus → Prop,
      (∀ item ∈ (evaluateFulfillment pf input).items, P item.status) ↔
        ∀ item ∈ (declaredItems pf input contract).take briefMaxRequirements, P item.status := by
    intro P
    rw [← List.forall_mem_map (P := P), hstatus, List.forall_mem_map]
  rw [hiff fun status => status ≠ .notApplicable → status = .met]
  exact forall₂_congr fun item hitem =>
    ⟨fun h => h (happlicable item (mem_of_mem_take hitem)), fun h _ => h⟩

lemma settleOutcome_eq_fulfilled_iff (contract : TaskContractBody) (terms : EffectiveActionTerms)
    (e : PublicationEvidence) :
    let evaluation := evaluateFulfillment pf (e.input pf (some contract) terms)
    settleOutcome .do (some evaluation) = .fulfilled ↔ evaluation.met = evaluation.total := by
  intro evaluation
  have hdeclared : evaluation.contractDeclared = true := rfl
  simp [settleOutcome, hdeclared]

/-- **No declared item is lost exactly when those past the sixteenth are met.**

**Proof sketch.** The judged items have the statuses of the first sixteen declared, and no
evaluator withholds a verdict, so the counts agree exactly when these sixteen are met. An unmet
item past them would have to stand in a list of sixteen items. -/
theorem judgesEveryItem_iff (pf : Platform) (contract : TaskContractBody)
    (terms : EffectiveActionTerms) (e : PublicationEvidence) :
    JudgesEveryItem pf contract terms e ↔
      ∀ item ∈ (declaredItems pf (e.input pf (some contract) terms) contract).drop
        briefMaxRequirements, item.status = .met := by
  have hmet := met_eq_total_iff_take pf contract terms e
  have hsettle := settleOutcome_eq_fulfilled_iff pf contract terms e
  constructor
  · rintro ⟨-, -, hunmet⟩ item hitem
    obtain ⟨i, hi⟩ := List.mem_iff_getElem?.1 hitem
    rw [List.getElem?_drop] at hi
    by_contra hne
    have happ := declaredItems_applicable pf contract terms e item
      (List.mem_of_mem_drop hitem)
    have hstatus : item.status = .unmet := by
      cases h : item.status with
      | met => exact absurd h hne
      | unmet => rfl
      | notApplicable => exact absurd h happ
    obtain ⟨judged, hjudged, -⟩ := hunmet _ item hi hstatus
    have hlt := (List.getElem?_eq_some_iff.1 hjudged).choose
    have hle := length_evaluateFulfillment_le pf (e.input pf (some contract) terms)
    omega
  · intro hrest
    have hall : (∀ item ∈ (declaredItems pf (e.input pf (some contract) terms) contract).take
        briefMaxRequirements, item.status = .met) →
        ∀ item ∈ declaredItems pf (e.input pf (some contract) terms) contract,
          item.status = .met := by
      intro hfirst item hitem
      rw [← List.take_append_drop briefMaxRequirements
        (declaredItems pf (e.input pf (some contract) terms) contract)] at hitem
      rcases List.mem_append.1 hitem with h | h
      · exact hfirst item h
      · exact hrest item h
    refine ⟨fun h => hall (hmet.1 h), fun h => hall (hmet.1 (hsettle.1 h)), ?_⟩
    intro i item hitem hstatus
    have hi : i < briefMaxRequirements := by
      by_contra hge
      have hmem : item ∈ (declaredItems pf (e.input pf (some contract) terms) contract).drop
          briefMaxRequirements := by
        refine List.mem_iff_getElem?.2 ⟨i - briefMaxRequirements, ?_⟩
        rw [List.getElem?_drop, Nat.add_sub_cancel' (Nat.le_of_not_lt hge), hitem]
      rw [hrest item hmem] at hstatus
      cases hstatus
    obtain ⟨judged, hjudged, hsame, hlabel⟩ :=
      getElem?_evaluateFulfillment pf
        (show (e.input pf (some contract) terms).contract = some contract from rfl) hi hitem
    exact ⟨judged, hjudged, hsame.trans hstatus, hlabel⟩

/-! ## Eighteen items -/

/-- The platform on texts whose only cased characters are ASCII letters, without URLs. -/
def asciiPlatform : Platform := ⟨JsText.asciiLower, fun _ => none⟩

/-- Twelve filters, a listed fill, all three screenshots and a ban on submitting. -/
def eighteenItemContract : TaskContractBody :=
  { deliverable := .actions
    subject := "the booking form"
    filters := ["a", "b", "c", "d", "e", "f", "g", "h", "i", "j", "k", "l"].map fun name =>
      ⟨name, "yes"⟩
    fill := some ⟨.listed, some ["name"]⟩
    artifacts := [{ scope := .viewport }, { scope := .fullPage }, { scope := .element }]
    submit := .forbidden }

def eighteenItemStore : TaskContractStore :=
  (contractStore .do).run [⟨eighteenItemContract, "2026-01-01T00:00:00Z", true⟩]

/-- Every filter is verified and the field filled; then the form is submitted and the whole page
captured, the element never. -/
def submittedEvidence : PublicationEvidence where
  deliverableGaps := []
  constraints := eighteenItemContract.filters.map fun filter =>
    ⟨filter.name, filter.value, .verified, ["S1"], none⟩
  ledger :=
    [.fillCommitted ⟨1, some 0, "example.com"⟩ "e1" "name" none [],
      .clickExecuted ⟨2, some 0, "example.com"⟩ (some "submit"),
      .capture ⟨3, some 0, "example.com"⟩ .fullPage "browser_capture" (some true)]
  claimedMet := some true
  captureGap := fun _ => none
  census := none

/-- The schema accepts the contract, and the run is settled as fulfilled although it submitted the
form and never captured the element: the two items are the seventeenth and the eighteenth. -/
theorem eighteen_items_settle_fulfilled :
    eighteenItemContract.schemaValid asciiPlatform ∧
      eighteenItemStore.current = some eighteenItemContract ∧
      settleOutcome .do (evaluatePublication asciiPlatform eighteenItemStore submittedEvidence) =
        .fulfilled ∧
      ¬ JudgesEveryItem asciiPlatform eighteenItemContract eighteenItemStore.effectiveActionTerms
        submittedEvidence := by
  refine ⟨by decide, rfl, by decide, ?_⟩
  rintro ⟨hmet, -, -⟩
  revert hmet
  decide

end Yantra
