import Yantra.Lib.JsText

/-!
# Task contracts

The contract an agentic run declares: its deliverable, fields, filters and sources, and the
action terms — which fields to fill, which screenshots to take, and whether submitting is
forbidden.

## Main definitions

* `Platform` — the two functions of the language the contract code leans on.
* `matchesRequirementIdPattern` — the ids of the items a contract declares.
-/

namespace Yantra

/-- What the runtime supplies: Unicode lowercasing, and the hostname of a URL. -/
structure Platform where
  toLowerCase : String → String
  /-- `new URL(url).hostname`, `none` where it throws. -/
  hostname : String → Option String

/-- The names the delivery checks compare: lowercase ASCII letters and digits, with one space for
every run of anything else. -/
def normalizeDeliveryName (pf : Platform) (text : String) : String :=
  JsText.trim (JsText.collapseRuns
    (fun c => !(('a' ≤ c && c ≤ 'z') || ('0' ≤ c && c ≤ '9'))) (pf.toLowerCase text))

/-! ## The contract -/

inductive Deliverable where
  | table | answer | report | actions
  deriving DecidableEq, Repr, Inhabited

/-- What a screenshot covers. -/
inductive ArtifactScope where
  | viewport | fullPage | element
  deriving DecidableEq, Repr, Inhabited

inductive FillCoverageKind where
  | allEligible | listed
  deriving DecidableEq, Repr, Inhabited

structure ContractFill where
  coverage : FillCoverageKind
  fields : Option (List String) := none
  deriving DecidableEq, Repr, Inhabited

inductive ArtifactKind where
  | screenshot
  deriving DecidableEq, Repr, Inhabited

structure ContractArtifact where
  kind : ArtifactKind := .screenshot
  scope : ArtifactScope
  deriving DecidableEq, Repr, Inhabited

inductive SubmitEffect where
  | forbidden | allowed
  deriving DecidableEq, Repr, Inhabited

/-- One condition the goal states. -/
structure ContractFilter where
  name : String
  value : String
  deriving DecidableEq, Repr, Inhabited

/-- How results are ordered. -/
structure ContractRanking where
  field : String
  ascending : Bool
  deriving DecidableEq, Repr, Inhabited

structure TaskContractBody where
  deliverable : Deliverable
  subject : String
  requiredFields : List String := []
  filters : List ContractFilter := []
  requiredSources : List String := []
  ranking : Option ContractRanking := none
  limit : Option Nat := none
  notes : Option String := none
  fill : Option ContractFill := none
  artifacts : List ContractArtifact := []
  submit : SubmitEffect := .allowed
  deriving DecidableEq, Repr, Inhabited

/-! ## What the schema accepts -/

def contractFillMaxFields : Nat := 40

def contractMaxArtifacts : Nat := 3

/-- A text of between 1 and `max` code units. -/
def boundedText (max : Nat) (s : String) : Bool :=
  decide (1 ≤ JsText.utf16Length s) && decide (JsText.utf16Length s ≤ max)

def hasCaseInsensitiveDuplicate (pf : Platform) (values : List String) : Bool :=
  !decide (values.map pf.toLowerCase).Nodup

/-- `/^[a-z0-9-]+(\.[a-z0-9-]+)+$/` -/
def matchesSourceHostPattern (s : String) : Bool :=
  let labels := s.splitOn "."
  decide (2 ≤ labels.length) && labels.all fun label =>
    !label.isEmpty && label.toList.all fun c =>
      ('a' ≤ c && c ≤ 'z') || ('0' ≤ c && c ≤ '9') || c == '-'

def ContractFill.schemaValid (pf : Platform) (f : ContractFill) : Bool :=
  (f.fields.getD []).all (boundedText 60) &&
    decide ((f.fields.getD []).length ≤ contractFillMaxFields) &&
    (match f.coverage with
      | .listed => !(f.fields.getD []).isEmpty
      | .allEligible => f.fields.isNone) &&
    !hasCaseInsensitiveDuplicate pf (f.fields.getD [])

def TaskContractBody.schemaValid (pf : Platform) (b : TaskContractBody) : Bool :=
  boundedText 200 b.subject &&
    b.requiredFields.all (boundedText 60) && decide (b.requiredFields.length ≤ 12) &&
    b.filters.all (fun f => boundedText 60 f.name && boundedText 120 f.value) &&
    decide (b.filters.length ≤ 12) &&
    b.requiredSources.all (fun s => matchesSourceHostPattern s &&
      decide (JsText.utf16Length s ≤ 253)) &&
    decide (b.requiredSources.length ≤ 5) &&
    b.ranking.all (fun r => boundedText 60 r.field) &&
    b.limit.all (fun n => decide (1 ≤ n) && decide (n ≤ 50)) &&
    b.notes.all (fun n => decide (JsText.utf16Length n ≤ 500)) &&
    b.fill.all (ContractFill.schemaValid pf) &&
    decide (b.artifacts.length ≤ contractMaxArtifacts) && decide b.artifacts.Nodup &&
    !hasCaseInsensitiveDuplicate pf b.requiredFields &&
    !hasCaseInsensitiveDuplicate pf (b.filters.map ContractFilter.name) &&
    decide b.requiredSources.Nodup &&
    !(decide (b.deliverable = .table) && b.requiredFields.isEmpty) &&
    !(decide (b.deliverable = .table) && b.ranking.any fun r =>
      !b.requiredFields.any fun f => pf.toLowerCase f == pf.toLowerCase r.field)

lemma TaskContractBody.schemaValid_filters {pf : Platform} {b : TaskContractBody}
    (h : b.schemaValid pf) : b.filters.length ≤ 12 := by
  simp only [TaskContractBody.schemaValid, Bool.and_eq_true, decide_eq_true_eq] at h
  omega

/-! ## Words for artifacts -/

def artifactLabel : ArtifactScope → String
  | .viewport => "viewport screenshot"
  | .fullPage => "full-page screenshot"
  | .element => "element screenshot"

def ArtifactScope.name : ArtifactScope → String
  | .viewport => "viewport"
  | .fullPage => "full_page"
  | .element => "element"

def artifactRequirementId (scope : ArtifactScope) : String := "artifact:screenshot:" ++ scope.name

/-- A character `.` does not match. -/
def isDotExcluded (c : Char) : Bool :=
  decide (c = '\n') || decide (c = '\r') || decide (c.toNat = 0x2028) || decide (c.toNat = 0x2029)

/-- `/^(?:deliverable|fill|effects\.submit|artifact:screenshot:(?:…)|filter:\S(?:.{0,58}\S)?)$/` -/
def matchesRequirementIdPattern (id : String) : Bool :=
  ["deliverable", "fill", "effects.submit", "artifact:screenshot:viewport",
    "artifact:screenshot:full_page", "artifact:screenshot:element"].contains id ||
  ("filter:".toList.isPrefixOf id.toList &&
    let name := id.toList.drop 7
    name.head?.any (fun c => !JsText.isSpace c) && name.getLast?.any (fun c => !JsText.isSpace c) &&
      name.all (fun c => !isDotExcluded c) &&
      decide (JsText.utf16Length (String.ofList name) ≤ 60))

end Yantra
