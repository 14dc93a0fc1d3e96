import Yantra.Agent.ActionTerms

/-!
# The action ledger and the form census

What fulfillment is judged from: the verified actions of a run, and the count of the fillable
controls of a form.

## Main definitions

* `ActionLedgerEntry`, `lastCommitted` — the ledger.
* `FillCensus`, `fillCoverage`, `censusFillEvaluator` — the census, and the
  fill judged against it.
-/

namespace Yantra

open JsText

/-! ## The ledger -/

structure LedgerStamp where
  seq : Nat
  epoch : Option Nat
  host : String
  deriving DecidableEq, Repr, Inhabited

inductive ActionLedgerEntry where
  | fillCommitted (stamp : LedgerStamp) (ref field : String) (groupKey : Option String)
      (coveredRefs : List String)
  | clickExecuted (stamp : LedgerStamp) (submitClass : Option String)
  | submitRefused (stamp : LedgerStamp)
  | capture (stamp : LedgerStamp) (scope : ArtifactScope) (producer : String)
      (complete : Option Bool)
  deriving DecidableEq, Repr, Inhabited

def ActionLedgerEntry.stamp : ActionLedgerEntry → LedgerStamp
  | .fillCommitted stamp _ _ _ _ => stamp
  | .clickExecuted stamp _ => stamp
  | .submitRefused stamp => stamp
  | .capture stamp _ _ _ => stamp

def ActionLedgerEntry.isCommitted : ActionLedgerEntry → Bool
  | .fillCommitted .. => true
  | .clickExecuted .. => true
  | _ => false

def ActionLedgerEntry.isFill : ActionLedgerEntry → Bool
  | .fillCommitted .. => true
  | _ => false

/-- The latest committed fill or click. -/
def lastCommitted (ledger : List ActionLedgerEntry) : Option ActionLedgerEntry :=
  ledger.reverse.find? ActionLedgerEntry.isCommitted

/-! ## The census -/

/-- Why the engine leaves a control out. -/
inductive FillExemption where
  | disabled | readOnly | hidden | fileInput | humanVerification
  deriving DecidableEq, Repr, Inhabited

structure FillCensusControl where
  ref : String
  groupKey : Option String
  label : String
  exemption : Option FillExemption
  deriving DecidableEq, Repr, Inhabited

/-- A census of the current document's fillable controls. -/
structure FillCensus where
  epoch : Option Nat
  complete : Bool
  controls : List FillCensusControl
  deriving DecidableEq, Repr, Inhabited

/-- A unit of the census: a control, or a group of controls. -/
structure FillUnit where
  ref : String
  label : String
  groupKey : Option String
  refs : List String
  deriving DecidableEq, Repr, Inhabited

def FillCensusControl.unitKey (c : FillCensusControl) : String :=
  match c.groupKey with
  | none => "ref:" ++ c.ref
  | some g => "group:" ++ g

def addControl (units : OrderedMap String FillUnit) (c : FillCensusControl) :
    OrderedMap String FillUnit :=
  match c.exemption with
  | some _ => units
  | none =>
    let unit := (units.get? c.unitKey).getD ⟨c.ref, c.label, c.groupKey, []⟩
    units.set c.unitKey { unit with refs := unit.refs ++ [c.ref] }

def ActionLedgerEntry.covers (unit : FillUnit) : ActionLedgerEntry → Bool
  | .fillCommitted _ ref _ groupKey coveredRefs =>
      unit.refs.contains ref || coveredRefs.any unit.refs.contains ||
        (unit.groupKey.isSome && decide (groupKey = unit.groupKey))
  | _ => false

/-- Eligible units, and those without a verified commit. -/
structure FillCoverage where
  eligible : Nat
  filled : Nat
  remaining : List (String × String × Option String)
  complete : Bool
  deriving DecidableEq, Repr, Inhabited

def fillCoverage (census : FillCensus) (ledger : List ActionLedgerEntry) : FillCoverage :=
  let units := (census.controls.foldl addControl OrderedMap.empty).values
  let commits := ledger.filter fun e => e.isFill && decide (e.stamp.epoch = census.epoch)
  let remaining := units.filter fun unit => !commits.any fun e => e.covers unit
  { eligible := units.length
    filled := units.length - remaining.length
    remaining := remaining.map fun unit => (unit.ref, unit.label, unit.groupKey)
    complete := census.complete }

/-! ## Judging a fill -/

inductive ItemStatus where
  | met | unmet | notApplicable
  deriving DecidableEq, Repr, Inhabited

/-- Longest requirement label. -/
def maxLabel : Nat := 120

/-- Longest requirement reason. -/
def maxReason : Nat := 200

/-- `bound`: white space collapsed, and cut to length. -/
def bound (text : String) (max : Nat) : String :=
  let collapsed := JsText.trim (JsText.collapseRuns JsText.isSpace text)
  if JsText.utf16Length collapsed ≤ max then collapsed
  else JsText.utf16Take (max - 1) collapsed ++ "…"

variable {text : String} {max : Nat}

lemma utf16Length_bound_le (hmax : 0 < max) :
    utf16Length (bound text max) ≤ max := by
  unfold bound
  dsimp only
  split_ifs with hle
  · exact hle
  · rw [utf16Length_append]
    have htake := utf16Length_take_le (max - 1)
      (JsText.trim (collapseRuns isSpace text))
    have hellipsis : utf16Length "…" = 1 := rfl
    omega

lemma boundedText_bound (hmax : 0 < max) :
    boundedText max (bound text max) = visible text := by
  have hnil := trim_collapseRuns_eq_nil (s := text)
  rw [← utf16Length_eq_zero_iff] at hnil
  rw [boundedText, decide_eq_true (utf16Length_bound_le hmax), Bool.and_true, Bool.eq_iff_iff,
    decide_eq_true_eq, ← Bool.not_eq_false, ← hnil, Nat.one_le_iff_ne_zero]
  unfold bound
  dsimp only
  split_ifs with hle
  · rfl
  · rw [utf16Length_append]
    have hellipsis : utf16Length "…" = 1 := rfl
    omega

/-- How a fill is judged. -/
structure FillVerdict where
  status : ItemStatus
  reason : Option String
  exemptions : Option (List (String × FillExemption)) := none
  exemptOverflow : Option Nat := none
  deriving DecidableEq, Repr, Inhabited

/-- How the fill item is judged. -/
abbrev FillEvaluator := FillTerm → List ActionLedgerEntry → FillVerdict

/-- `UNAVAILABLE_FILL` -/
def unavailableFill : FillEvaluator := fun _ _ =>
  { status := .unmet, reason := some "fields not counted (inventory_unavailable)" }

/-- The names a committed fill resolved to, as the delivery checks compare them. -/
def filledNames (pf : Platform) (ledger : List ActionLedgerEntry) : List String :=
  ledger.filterMap fun
    | .fillCommitted _ _ field _ _ => some (normalizeDeliveryName pf field)
    | _ => none

def listedFill (pf : Platform) (fields : List String) (ledger : List ActionLedgerEntry) :
    FillVerdict :=
  let missing := fields.filter fun field =>
    !(filledNames pf ledger).contains (normalizeDeliveryName pf field)
  let counts := "fields " ++ toString (fields.length - missing.length) ++ " of " ++
    toString fields.length ++ " filled"
  if missing.isEmpty then { status := .met, reason := some counts }
  else { status := .unmet, reason := some (counts ++ "; not filled: " ++ ", ".intercalate missing) }

/-- Most exemptions an item lists. -/
def maxExemptions : Nat := 20

def exemptControls : List String → List FillCensusControl → List (String × FillExemption)
  | _, [] => []
  | seen, c :: cs =>
    match c.exemption with
    | none => exemptControls seen cs
    | some reason =>
      let key := c.groupKey.getD ("ref:" ++ c.ref)
      if seen.contains key then exemptControls seen cs
      else (bound (if c.label.isEmpty then c.ref else c.label) maxLabel, reason) ::
        exemptControls (key :: seen) cs

def withExemptions (census : FillCensus) (status : ItemStatus) (reason : String) : FillVerdict :=
  let exempt := exemptControls [] census.controls
  { status := status
    reason := some reason
    exemptions := if exempt.isEmpty then none else some (exempt.take maxExemptions)
    exemptOverflow :=
      if maxExemptions < exempt.length then some (exempt.length - maxExemptions) else none }

def censusFillEvaluator (pf : Platform) (census : Option FillCensus) : FillEvaluator :=
  fun fill ledger =>
    match fill.coverage with
    | .listed => listedFill pf fill.fields ledger
    | .allEligible =>
      match census with
      | none => unavailableFill fill ledger
      | some census =>
        if !census.complete then
          withExemptions census .unmet "fields not counted (inventory_incomplete)"
        else if (ledger.reverse.find? ActionLedgerEntry.isFill).any fun last =>
            decide (last.stamp.epoch ≠ census.epoch) then
          withExemptions census .unmet "fields not counted (form_document_left)"
        else
          let coverage := fillCoverage census ledger
          if coverage.eligible = 0 then
            withExemptions census .unmet "no eligible fields were found"
          else withExemptions census
            (if coverage.filled = coverage.eligible then .met else .unmet)
            ("fields " ++ toString coverage.filled ++ " of " ++ toString coverage.eligible ++
              " filled")

lemma censusFillEvaluator_applicable (pf : Platform) (census : Option FillCensus) (fill : FillTerm)
    (ledger : List ActionLedgerEntry) :
    (censusFillEvaluator pf census fill ledger).status ≠ .notApplicable := by
  unfold censusFillEvaluator
  split
  · unfold listedFill
    simp only
    split_ifs <;> simp
  · split
    · simp [unavailableFill]
    · simp only
      repeat' split
      all_goals simp [withExemptions]

end Yantra
