import Yantra.Agent.Delivery

/-!
# Checking a delivery against the contract

`checkContractDelivery`: the rows and findings of a publication are partitioned by whether they
cite a required source, empty cells of required fields are filled in, and what is missing is
reported, to the model as an issue or in the Brief as a gap.

## Main definitions

* `PublishCell`, `DeliveryRow`, `DeliveryFinding` — published content.
* `checkContractDelivery` — the check.

## Main results

* `checkContractDelivery_findings_perm` and `checkContractDelivery_rows_perm` — the
  partition loses and repeats nothing.
-/

namespace Yantra

open List

/-! ## Published content -/

inductive PublishCell where
  | str (s : String)
  | num (text : String)
  | bool (b : Bool)
  | null
  deriving DecidableEq, Repr, Inhabited

structure DeliveryRow where
  cells : List PublishCell
  refs : List String
  pointer : String
  deriving DecidableEq, Repr, Inhabited

/-- A published finding with the references it resolved. -/
structure DeliveryFinding where
  text : String
  refs : List String
  pointer : String
  deriving DecidableEq, Repr, Inhabited

/-- An item the model reports as not delivered. -/
structure UnmetItem where
  item : String
  reason : String
  deriving DecidableEq, Repr, Inhabited

inductive ComposeCause where
  | referenceActionUnknown | rowActionOnly | referenceUnknown | referenceAnchorUnknown
  | referenceNumeric | rowUncited | rowWidth | rowSourcesLength | contractTableMissing
  | contractFieldMissing
  deriving DecidableEq, Repr, Inhabited

/-- Whether the name of a cause starts with `reference-`. -/
def ComposeCause.isReference : ComposeCause → Bool
  | .referenceActionUnknown | .referenceUnknown | .referenceAnchorUnknown
  | .referenceNumeric => true
  | _ => false

/-- What a publication is refused for, and where. -/
structure ComposeIssue where
  cause : ComposeCause
  pointer : String
  values : List (String × String)
  deriving DecidableEq, Repr, Inhabited

/-- Whether the model published through the tool, or the runtime assembled its answer. -/
inductive ComposeMode where
  | tool | assembled
  deriving DecidableEq, Repr, Inhabited

/-! ## Fields and columns -/

def NOT_SHOWN_ON_SOURCE : String := "not shown on source"

/-- `text.includes(part)` -/
def textIncludes (text part : String) : Bool :=
  text.toList.tails.any fun tail => part.toList.isPrefixOf tail

/-- `columnMatchesField`: every word of the field is a word of the column. -/
def columnMatchesField (pf : Platform) (column field : String) : Bool :=
  let columnTokens := (normalizeDeliveryName pf column).toList.splitOn ' '
  ((normalizeDeliveryName pf field).toList.splitOn ' ').all columnTokens.contains

/-- What `checkContractDelivery` is given. -/
structure DeliveryInput where
  rows : List DeliveryRow
  findings : List DeliveryFinding
  columns : List String
  tablePresent : Bool
  unmet : List UnmetItem
  contract : Option TaskContractBody
  mode : ComposeMode
  onContract : List String → Bool

/-- Whether the model reported a part of this name as not delivered. -/
def DeliveryInput.exempt (input : DeliveryInput) (pf : Platform) (name : String) : Bool :=
  input.unmet.any fun item =>
    textIncludes (normalizeDeliveryName pf item.item) (normalizeDeliveryName pf name)

def DeliveryRow.lacks (column : ℕ) (row : DeliveryRow) : Bool :=
  match row.cells[column]? with
  | some .null => true
  | some (.str s) => s = "" || s = NOT_SHOWN_ON_SOURCE
  | _ => false

/-- A row with an empty cell of a required column filled in. -/
def DeliveryRow.fillIn (column : ℕ) (row : DeliveryRow) : DeliveryRow :=
  if row.lacks column then
    { row with cells := row.cells.set column (.str NOT_SHOWN_ON_SOURCE) }
  else row

structure DeliveryCheck where
  rows : List DeliveryRow
  issues : List ComposeIssue := []
  runtimeGaps : List String := []
  deliverableGaps : List String := []
  deriving Inhabited

/-- A gap in the content: reported to the model unless it said so itself, or in the Brief where
the runtime assembled the answer. -/
def DeliveryCheck.missing (s : DeliveryCheck) (input : DeliveryInput) (exempt : Bool)
    (gap : String) (issue : ComposeIssue) : DeliveryCheck :=
  let s := { s with deliverableGaps := s.deliverableGaps ++ [gap] }
  if exempt then s
  else if input.mode = .assembled then { s with runtimeGaps := s.runtimeGaps ++ [gap] }
  else { s with issues := s.issues ++ [issue] }

/-- A gap that is reported in the Brief in any case. -/
def DeliveryCheck.gap (s : DeliveryCheck) (gap : String) : DeliveryCheck :=
  { s with runtimeGaps := s.runtimeGaps ++ [gap], deliverableGaps := s.deliverableGaps ++ [gap] }

def checkField (pf : Platform) (input : DeliveryInput) (s : DeliveryCheck) (field : String) :
    DeliveryCheck :=
  match input.columns.findIdx? fun name => columnMatchesField pf name field with
  | none =>
    s.missing input (input.exempt pf field) (field ++ ": no column was published")
      ⟨.contractFieldMissing, "table/columns", [("field", field)]⟩
  | some column =>
    let missing := (s.rows.filter (·.lacks column)).length
    let s := { s with rows := s.rows.map (·.fillIn column) }
    if 0 < missing then
      s.gap (field ++ ": not shown for " ++ toString missing ++ " of " ++
        toString s.rows.length ++ " rows")
    else s

def checkTable (pf : Platform) (input : DeliveryInput) : DeliveryCheck :=
  match input.contract with
  | none => { rows := input.rows }
  | some contract =>
    if contract.deliverable = .table then
      if input.tablePresent then
        contract.requiredFields.foldl (checkField pf input) { rows := input.rows }
      else
        DeliveryCheck.missing { rows := input.rows } input (input.exempt pf "table")
          "table: no table was published" ⟨.contractTableMissing, "table", []⟩
    else { rows := input.rows }

/-! ## The check -/

/-- What `checkContractDelivery` returns. -/
structure DeliveryResult where
  rows : List DeliveryRow
  findings : List DeliveryFinding
  alternativesRows : List DeliveryRow
  alternativesFindings : List DeliveryFinding
  gaps : List String
  deliverableGaps : List String
  issues : List ComposeIssue
  notices : List BriefNotice
  deriving Inhabited

def DeliveryInput.partition (input : DeliveryInput) : Bool :=
  input.contract.any fun contract => !contract.requiredSources.isEmpty

/-- Whether a row is delivered as asked, not as an alternative. -/
def DeliveryInput.mainRow (input : DeliveryInput) (row : DeliveryRow) : Bool :=
  !input.partition || input.onContract row.refs

/-- Whether a finding is delivered as asked, not as an alternative. -/
def DeliveryInput.mainFinding (input : DeliveryInput) (finding : DeliveryFinding) : Bool :=
  !input.partition || finding.refs.isEmpty || input.onContract finding.refs

/-- The gaps of a partition in which nothing comes from a required source. -/
def checkSources (input : DeliveryInput) (hosts : String) (s : DeliveryCheck) : DeliveryCheck :=
  let mainRows := s.rows.filter input.mainRow
  let findings := input.findings.filter input.mainFinding
  let s :=
    if input.partition && !(mainRows.any fun row => input.onContract row.refs) &&
        !(findings.any fun f => !f.refs.isEmpty && input.onContract f.refs) then
      s.gap ("nothing in the answer is cited from " ++ hosts)
    else s
  if !s.rows.isEmpty && mainRows.isEmpty && input.partition then
    s.gap ("no row came from " ++ hosts)
  else s

def checkContractDelivery (pf : Platform) (input : DeliveryInput) : DeliveryResult :=
  let hosts := ", ".intercalate ((input.contract.map (·.requiredSources)).getD [])
  let s := checkSources input hosts (checkTable pf input)
  let gaps := input.unmet.map (fun item => item.item ++ " (" ++ item.reason ++ ")") ++
    s.runtimeGaps.filter fun gap => !input.unmet.any fun item =>
      textIncludes (normalizeDeliveryName pf gap) (normalizeDeliveryName pf item.item)
  { rows := s.rows.filter input.mainRow
    findings := input.findings.filter input.mainFinding
    alternativesRows := s.rows.filter fun row => !input.mainRow row
    alternativesFindings := input.findings.filter fun finding => !input.mainFinding finding
    gaps := gaps
    deliverableGaps := s.deliverableGaps
    issues := s.issues
    notices := if gaps.isEmpty then []
      else [⟨"contract_gap", "task-contract", boundedNotice "Not delivered: " gaps gaps.length⟩] }

/-! ## The partition -/

variable (pf : Platform)

theorem checkContractDelivery_findings_perm (input : DeliveryInput) :
    ((checkContractDelivery pf input).findings ++
      (checkContractDelivery pf input).alternativesFindings).Perm input.findings :=
  filter_append_perm input.mainFinding input.findings

lemma DeliveryRow.fillIn_refs (column : ℕ) (row : DeliveryRow) :
    (row.fillIn column).refs = row.refs ∧ (row.fillIn column).pointer = row.pointer := by
  unfold DeliveryRow.fillIn
  split_ifs <;> exact ⟨rfl, rfl⟩

lemma DeliveryCheck.missing_rows (s : DeliveryCheck) (input : DeliveryInput) (exempt : Bool)
    (gap : String) (issue : ComposeIssue) : (s.missing input exempt gap issue).rows = s.rows := by
  unfold DeliveryCheck.missing
  split_ifs <;> rfl

def rowOrigins (rows : List DeliveryRow) : List (List String × String) :=
  rows.map fun row => (row.refs, row.pointer)

lemma checkField_origins (input : DeliveryInput) (s : DeliveryCheck) (field : String) :
    rowOrigins (checkField pf input s field).rows = rowOrigins s.rows := by
  unfold checkField
  split
  · rw [DeliveryCheck.missing_rows]
  · rename_i column _
    have hfill : rowOrigins (s.rows.map (·.fillIn column)) = rowOrigins s.rows := by
      simp only [rowOrigins, map_map]
      refine map_congr_left fun row _ => ?_
      simp only [Function.comp, row.fillIn_refs column]
    simp only
    split_ifs <;> exact hfill

/-- Checking the table keeps every row's references and place.

**Proof sketch.** Induction over the required fields with `checkField_origins`. -/
lemma checkTable_origins (pf : Platform) (input : DeliveryInput) :
    rowOrigins (checkTable pf input).rows = rowOrigins input.rows := by
  have hfold (fields : List String) (s : DeliveryCheck) :
      rowOrigins (fields.foldl (checkField pf input) s).rows = rowOrigins s.rows := by
    induction fields generalizing s with
    | nil => rfl
    | cons field fields ih => rw [List.foldl_cons, ih, checkField_origins]
  unfold checkTable
  split
  · rfl
  · split_ifs
    · exact hfold _ _
    · rw [DeliveryCheck.missing_rows]
    · rfl

lemma checkSources_rows (input : DeliveryInput) (hosts : String) (s : DeliveryCheck) :
    (checkSources input hosts s).rows = s.rows := by
  simp only [checkSources]
  split_ifs <;> rfl

/-- **No row is lost.** The rows of a delivery and those set apart as alternatives are the published
rows, each with its references and place, and none of them twice. -/
theorem checkContractDelivery_rows_perm (input : DeliveryInput) :
    (rowOrigins ((checkContractDelivery pf input).rows ++
      (checkContractDelivery pf input).alternativesRows)).Perm (rowOrigins input.rows) := by
  rw [← checkTable_origins pf input]
  simp only [checkContractDelivery, checkSources_rows]
  exact (filter_append_perm input.mainRow _).map _

end Yantra
