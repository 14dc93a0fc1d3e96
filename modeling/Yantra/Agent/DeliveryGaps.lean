import Yantra.Agent.ContractDelivery

/-!
# What a delivery hides

`checkContractDelivery` against the gaps it detects. A gap is left out of what the user sees where
an unmet item of the model seems to say the same: where a missing table's or column's name stands
in the item's, or the item's name in the gap's text. Both tests compare texts letter by letter, so
an item may hide a gap it does not name, and one without a letter or digit hides them all.

## Main definitions

* `RuntimeGap`, `detectedGaps` — the gaps the check detects, and what each is about.
* `GapsNamed` — what hides a gap names it.

## Main results

* `deliversFaithfully_iff` — a delivery is faithful exactly when what hides a gap names it.
-/

namespace Yantra

open List Option

/-! ## Names -/

/-- A letter or digit of any script: not the punctuation of ASCII, Latin-1, the general block or
the ideographic one. -/
def isNameChar (c : Char) : Bool :=
  ('a' ≤ c && c ≤ 'z') || ('A' ≤ c && c ≤ 'Z') || ('0' ≤ c && c ≤ '9') ||
    (0xC0 ≤ c.toNat && !(0x2000 ≤ c.toNat && c.toNat ≤ 0x206F) &&
      !(0x3000 ≤ c.toNat && c.toNat ≤ 0x303F))

def nameWords (pf : Platform) (name : String) : List (List Char) :=
  ((pf.toLowerCase name).toList.splitOnP fun c => !isNameChar c).filter fun word => !word.isEmpty

/-- An item names a subject: both have words, and those of one stand side by side in the other. -/
def Names (pf : Platform) (item subject : String) : Prop :=
  nameWords pf item ≠ [] ∧ nameWords pf subject ≠ [] ∧
    (nameWords pf subject <:+: nameWords pf item ∨ nameWords pf item <:+: nameWords pf subject)

/-! ## Gaps -/

inductive RuntimeGap where
  | tableMissing
  | columnMissing (field : String)
  | cellsMissing (field : String) (missing total : Nat)
  | notCited (hosts : List String)
  | noRow (hosts : List String)
  deriving DecidableEq, Repr, Inhabited

variable {g : RuntimeGap} {s : DeliveryCheck} {input : DeliveryInput} {pf : Platform}

namespace RuntimeGap

def text : RuntimeGap → String
  | .tableMissing => "table: no table was published"
  | .columnMissing field => field ++ ": no column was published"
  | .cellsMissing field missing total => field ++ ": not shown for " ++ toString missing ++ " of " ++
      toString total ++ " rows"
  | .notCited hosts => "nothing in the answer is cited from " ++ ", ".intercalate hosts
  | .noRow hosts => "no row came from " ++ ", ".intercalate hosts

/-- What a gap is about: the table, a field, or the required sources. -/
def subjects : RuntimeGap → List String
  | .tableMissing => ["table"]
  | .columnMissing field | .cellsMissing field _ _ => [field]
  | .notCited hosts | .noRow hosts => hosts

/-- The name whose exemption the check looks up. -/
def exemptName : RuntimeGap → Option String
  | .tableMissing => some "table"
  | .columnMissing field => some field
  | .cellsMissing _ _ _ | .notCited _ | .noRow _ => none

/-- The issue that refuses the publication of a tool in the gap's place. -/
def issue : RuntimeGap → Option ComposeIssue
  | .tableMissing => some ⟨.contractTableMissing, "table", []⟩
  | .columnMissing field => some ⟨.contractFieldMissing, "table/columns", [("field", field)]⟩
  | .cellsMissing _ _ _ | .notCited _ | .noRow _ => none

lemma exemptName_of_issue {g' : RuntimeGap} (hsome : g.issue.isSome) (h : g.issue = g'.issue) :
    g.exemptName = g'.exemptName := by
  cases g <;> cases g' <;> simp_all [issue, exemptName]

end RuntimeGap

def DeliveryInput.columnOf (input : DeliveryInput) (pf : Platform) (field : String) : Option ℕ :=
  input.columns.findIdx? fun name => columnMatchesField pf name field

def fieldGap (pf : Platform) (input : DeliveryInput) (field : String) : Option RuntimeGap :=
  match input.columnOf pf field with
  | none => some (.columnMissing field)
  | some column =>
    if 0 < (input.rows.filter (·.lacks column)).length then
      some (.cellsMissing field (input.rows.filter (·.lacks column)).length input.rows.length)
    else none

def tableGaps (pf : Platform) (input : DeliveryInput) : List RuntimeGap :=
  match input.contract with
  | none => []
  | some contract =>
    if contract.deliverable = .table then
      if input.tablePresent then contract.requiredFields.filterMap (fieldGap pf input)
      else [.tableMissing]
    else []

def DeliveryInput.hosts (input : DeliveryInput) : List String :=
  (input.contract.map (·.requiredSources)).getD []

/-- Nothing delivered as asked is cited from a required source. -/
def DeliveryInput.uncited (input : DeliveryInput) : Bool :=
  input.partition && !((input.rows.filter input.mainRow).any fun row => input.onContract row.refs) &&
    !((input.findings.filter input.mainFinding).any fun f =>
      !f.refs.isEmpty && input.onContract f.refs)

def sourceGaps (input : DeliveryInput) : List RuntimeGap :=
  (if input.uncited then [.notCited input.hosts] else []) ++
    if !input.rows.isEmpty && (input.rows.filter input.mainRow).isEmpty && input.partition then
      [.noRow input.hosts] else []

def detectedGaps (pf : Platform) (input : DeliveryInput) : List RuntimeGap :=
  tableGaps pf input ++ sourceGaps input

/-! ## What hides a gap -/

def DeliveryInput.covers (input : DeliveryInput) (pf : Platform) (text : String) : Bool :=
  input.unmet.any fun item =>
    textIncludes (normalizeDeliveryName pf text) (normalizeDeliveryName pf item.item)

/-- A gap that goes into the Brief, unless an unmet item covers it. -/
def DeliveryInput.reports (input : DeliveryInput) (pf : Platform) (g : RuntimeGap) : Bool :=
  g.exemptName.all fun name => !input.exempt pf name && decide (input.mode = .assembled)

def DeliveryInput.refuses (input : DeliveryInput) (pf : Platform) (g : RuntimeGap) : Bool :=
  g.exemptName.any fun name => !input.exempt pf name && !decide (input.mode = .assembled)

def DeliveryInput.hides (input : DeliveryInput) (pf : Platform) (g : RuntimeGap) : Bool :=
  g.exemptName.any (input.exempt pf) || (input.reports pf g && input.covers pf g.text)

open DeliveryInput

lemma hides_or (pf : Platform) (input : DeliveryInput) (g : RuntimeGap) :
    input.hides pf g ∨ input.refuses pf g ∨
      (input.reports pf g ∧ input.covers pf g.text = false) := by
  unfold hides refuses reports
  cases g.exemptName with
  | none => cases input.covers pf g.text <;> simp
  | some name =>
    cases input.exempt pf name <;> cases input.covers pf g.text <;>
      cases decide (input.mode = .assembled) <;> simp

/-! ## What the check records -/

def UnmetItem.line (item : UnmetItem) : String := item.item ++ " (" ++ item.reason ++ ")"

structure DeliveryCheck.Records (pf : Platform) (input : DeliveryInput) (gaps : List RuntimeGap)
    (s : DeliveryCheck) : Prop where
  deliverableGaps : s.deliverableGaps = gaps.map RuntimeGap.text
  runtimeGaps : s.runtimeGaps = (gaps.filter (input.reports pf)).map RuntimeGap.text
  issues : s.issues = (gaps.filter (input.refuses pf)).filterMap RuntimeGap.issue

open RuntimeGap

namespace DeliveryCheck.Records

variable {pf : Platform} {input : DeliveryInput} {gaps : List RuntimeGap} {s : DeliveryCheck}

lemma missing (h : s.Records pf input gaps) {name : String} {i : ComposeIssue}
    (hname : g.exemptName = some name) (hissue : g.issue = some i) :
    (s.missing input (input.exempt pf name) g.text i).Records pf input (gaps ++ [g]) := by
  have hreports : input.reports pf g =
      (!input.exempt pf name && decide (input.mode = .assembled)) := by
    rw [reports, hname, all_some]
  have hrefuses : input.refuses pf g =
      (!input.exempt pf name && !decide (input.mode = .assembled)) := by
    rw [refuses, hname, any_some]
  have hdeliverable : s.deliverableGaps ++ [g.text] = (gaps ++ [g]).map text := by
    rw [map_append, h.deliverableGaps]
    rfl
  have hruntime : (gaps ++ [g]).filter (input.reports pf) =
      gaps.filter (input.reports pf) ++ if input.reports pf g then [g] else [] := by
    rw [filter_append, filter_cons, filter_nil]
  have hissues : (gaps ++ [g]).filter (input.refuses pf) =
      gaps.filter (input.refuses pf) ++ if input.refuses pf g then [g] else [] := by
    rw [filter_append, filter_cons, filter_nil]
  unfold DeliveryCheck.missing
  constructor
  · split_ifs <;> exact hdeliverable
  · rw [hruntime, hreports, map_append, ← h.runtimeGaps]
    cases input.exempt pf name <;> by_cases hmode : input.mode = .assembled <;> simp [hmode]
  · rw [hissues, hrefuses, filterMap_append, ← h.issues]
    cases input.exempt pf name <;> by_cases hmode : input.mode = .assembled <;>
      simp [hmode, hissue]

lemma gap (h : s.Records pf input gaps) (hname : g.exemptName = none) :
    (s.gap g.text).Records pf input (gaps ++ [g]) := by
  have hreports : input.reports pf g = true := by rw [reports, hname]; rfl
  have hrefuses : input.refuses pf g = false := by rw [refuses, hname]; rfl
  constructor
  · rw [DeliveryCheck.gap, map_append, h.deliverableGaps]
    rfl
  · rw [DeliveryCheck.gap, filter_append, map_append, h.runtimeGaps,
      filter_cons_of_pos hreports]
    rfl
  · rw [DeliveryCheck.gap, filter_append, filter_cons_of_neg (by simp [hrefuses]),
      filter_nil, append_nil, h.issues]

lemma congr (h : s.Records pf input gaps) (rows : List DeliveryRow) :
    ({ s with rows } : DeliveryCheck).Records pf input gaps := ⟨h.1, h.2, h.3⟩

end DeliveryCheck.Records

open DeliveryRow

/-! ## The rows -/

lemma DeliveryRow.lacks_fillIn (column other : ℕ) (row : DeliveryRow) :
    (row.fillIn column).lacks other = row.lacks other := by
  unfold fillIn
  split_ifs with hlacks
  · by_cases hcolumn : other = column
    · subst hcolumn
      rw [hlacks]
      have hlt : other < row.cells.length := by
        by_contra hge
        rw [lacks, getElem?_eq_none (Nat.le_of_not_lt hge)] at hlacks
        exact Bool.noConfusion hlacks
      simp [lacks, getElem?_set_self hlt]
    · simp only [lacks, getElem?_set_ne (Ne.symm hcolumn)]
  · rfl

/-- A row is shown as it was published, empty cells filled in. -/
structure DeliveryRow.ShownAs (row shown : DeliveryRow) : Prop where
  refs : shown.refs = row.refs
  pointer : shown.pointer = row.pointer
  lacks : ∀ column, shown.lacks column = row.lacks column
  cells : ∀ column, shown.cells[column]? = row.cells[column]? ∨
    (row.lacks column = true ∧ shown.cells[column]? = some (.str NOT_SHOWN_ON_SOURCE))

lemma DeliveryRow.ShownAs.refl (row : DeliveryRow) : row.ShownAs row :=
  ⟨rfl, rfl, fun _ => rfl, fun _ => .inl rfl⟩

lemma DeliveryRow.ShownAs.fillIn {row shown : DeliveryRow} (h : row.ShownAs shown) (column : ℕ) :
    row.ShownAs (shown.fillIn column) where
  refs := (shown.fillIn_refs column).1.trans h.refs
  pointer := (shown.fillIn_refs column).2.trans h.pointer
  lacks other := (shown.lacks_fillIn column other).trans (h.lacks other)
  cells other := by
    unfold DeliveryRow.fillIn
    split_ifs with hlacks
    · by_cases hcolumn : other = column
      · subst hcolumn
        have hlt : other < shown.cells.length := by
          by_contra hge
          rw [DeliveryRow.lacks, getElem?_eq_none (Nat.le_of_not_lt hge)] at hlacks
          exact Bool.noConfusion hlacks
        exact .inr ⟨(h.lacks other).symm.trans hlacks, getElem?_set_self hlt⟩
      · rw [getElem?_set_ne (Ne.symm hcolumn)]
        exact h.cells other
    · exact h.cells other

/-- The rows of a check are the published ones, one by one. -/
def DeliveryCheck.Shows (input : DeliveryInput) (s : DeliveryCheck) : Prop :=
  ∃ shown : DeliveryRow → DeliveryRow,
    (∀ row : DeliveryRow, row.ShownAs (shown row)) ∧ s.rows = input.rows.map shown

open DeliveryCheck

lemma checkField_spec (pf : Platform) (input : DeliveryInput)
    {gaps : List RuntimeGap} (field : String) (hrows : s.Shows input) (h : s.Records pf input gaps)
    :
    (checkField pf input s field).Shows input ∧
      (checkField pf input s field).Records pf input (gaps ++ (fieldGap pf input field).toList) := by
  obtain ⟨shown, hshown, heq⟩ := hrows
  unfold checkField fieldGap columnOf
  cases input.columns.findIdx? fun name => columnMatchesField pf name field with
  | none =>
    refine ⟨⟨shown, hshown, by rw [missing_rows, heq]⟩, ?_⟩
    exact h.missing (g := .columnMissing field) rfl rfl
  | some column =>
    have hcount : (s.rows.filter (·.lacks column)).length =
        (input.rows.filter (·.lacks column)).length := by
      rw [heq, List.filter_map, length_map]
      congr 1
      exact filter_congr fun row _ => (hshown row).lacks column
    have hfilled : s.rows.map (·.fillIn column) =
        input.rows.map fun row => (shown row).fillIn column := by
      rw [heq, List.map_map]
      rfl
    have hlength : (s.rows.map (·.fillIn column)).length = input.rows.length := by
      rw [hfilled, length_map]
    simp only [hcount, hlength]
    refine ⟨⟨fun row => (shown row).fillIn column, fun row => (hshown row).fillIn column, ?_⟩, ?_⟩
    · split_ifs <;> exact hfilled
    · split_ifs
      · exact (h.congr _).gap (g := .cellsMissing field _ _) rfl
      · rw [toList_none, append_nil]
        exact h.congr _

lemma checkTable_spec (pf : Platform) (input : DeliveryInput) :
    (checkTable pf input).Shows input ∧
      (checkTable pf input).Records pf input (tableGaps pf input) := by
  have hinit : ({ rows := input.rows } : DeliveryCheck).Shows input ∧
      ({ rows := input.rows } : DeliveryCheck).Records pf input [] :=
    ⟨⟨id, DeliveryRow.ShownAs.refl, (List.map_id _).symm⟩, ⟨rfl, rfl, rfl⟩⟩
  have hfold : ∀ (fields : List String) (s : DeliveryCheck) (gaps : List RuntimeGap),
      s.Shows input → s.Records pf input gaps →
        (fields.foldl (checkField pf input) s).Shows input ∧
          (fields.foldl (checkField pf input) s).Records pf input
            (gaps ++ fields.filterMap (fieldGap pf input)) := by
    intro fields
    induction fields with
    | nil =>
      intro s gaps hrows h
      rw [filterMap_nil, append_nil]
      exact ⟨hrows, h⟩
    | cons field fields ih =>
      intro s gaps hrows h
      obtain ⟨hrows', h'⟩ := checkField_spec pf input field hrows h
      have hgaps : (field :: fields).filterMap (fieldGap pf input) =
          (fieldGap pf input field).toList ++ fields.filterMap (fieldGap pf input) := by
        cases hgap : fieldGap pf input field <;> simp [hgap]
      rw [foldl_cons, hgaps, ← append_assoc]
      exact ih _ _ hrows' h'
  unfold checkTable tableGaps
  cases input.contract with
  | none => exact hinit
  | some contract =>
    simp only
    split_ifs
    · exact hfold _ _ [] hinit.1 hinit.2
    · exact ⟨⟨id, DeliveryRow.ShownAs.refl, by rw [missing_rows, List.map_id]⟩,
        hinit.2.missing (g := .tableMissing) rfl rfl⟩
    · exact hinit

lemma DeliveryCheck.filter_rows
    {shown : DeliveryRow → DeliveryRow} (hshown : ∀ row : DeliveryRow, row.ShownAs (shown row))
    (heq : s.rows = input.rows.map shown) (p : List String → Bool) :
    (s.rows.filter fun row => p row.refs) = (input.rows.filter fun row => p row.refs).map shown := by
  rw [heq, List.filter_map]
  congr 1
  exact filter_congr fun row _ => by rw [Function.comp_apply, (hshown row).refs]

lemma checkSources_spec (pf : Platform) (input : DeliveryInput)
    {gaps : List RuntimeGap} (hrows : s.Shows input) (h : s.Records pf input gaps) :
    (checkSources input (", ".intercalate input.hosts) s).Records pf input
      (gaps ++ sourceGaps input) := by
  obtain ⟨shown, hshown, heq⟩ := hrows
  have hmain : s.rows.filter input.mainRow = (input.rows.filter input.mainRow).map shown :=
    filter_rows hshown heq fun refs => !input.partition || input.onContract refs
  have hany : ((s.rows.filter input.mainRow).any fun row => input.onContract row.refs) =
      (input.rows.filter input.mainRow).any fun row => input.onContract row.refs := by
    rw [hmain, List.any_map]
    congr 1
    funext row
    rw [Function.comp_apply, (hshown row).refs]
  have hempty : (s.rows.filter input.mainRow).isEmpty =
      (input.rows.filter input.mainRow).isEmpty := by rw [hmain, isEmpty_map]
  have hrowsEmpty : s.rows.isEmpty = input.rows.isEmpty := by rw [heq, isEmpty_map]
  have huncited : (input.partition &&
      !((s.rows.filter input.mainRow).any fun row => input.onContract row.refs) &&
        !((input.findings.filter input.mainFinding).any fun f =>
          !f.refs.isEmpty && input.onContract f.refs)) = input.uncited := by rw [hany]; rfl
  have hcited : ∀ (t : DeliveryCheck) (gs : List RuntimeGap), t.Records pf input gs →
      (if input.uncited = true then
        t.gap ("nothing in the answer is cited from " ++ ", ".intercalate input.hosts)
        else t).Records pf input (gs ++ if input.uncited then [.notCited input.hosts] else []) := by
    intro t gs ht
    split_ifs
    · exact ht.gap (g := .notCited input.hosts) rfl
    · rwa [append_nil]
  have hsame : (if input.uncited = true then
      s.gap ("nothing in the answer is cited from " ++ ", ".intercalate input.hosts)
      else s).rows = s.rows := by split_ifs <;> rfl
  unfold checkSources sourceGaps
  simp only [huncited, hsame, hrowsEmpty, hempty]
  rw [← append_assoc]
  generalize (!input.rows.isEmpty && (input.rows.filter input.mainRow).isEmpty &&
    input.partition) = norow
  cases norow with
  | true => exact (hcited s gaps h).gap (g := .noRow input.hosts) rfl
  | false =>
    rw [if_neg Bool.false_ne_true, if_neg Bool.false_ne_true, append_nil]
    exact hcited s gaps h

/-- **The rows of a delivery**, on both sides: the published ones in their order, each on one side,
with their empty cells of required columns filled in. -/
theorem checkContractDelivery_rows_eq (pf : Platform) (input : DeliveryInput) :
    ∃ shown : DeliveryRow → DeliveryRow, (∀ row : DeliveryRow, row.ShownAs (shown row)) ∧
      (checkContractDelivery pf input).rows = (input.rows.filter input.mainRow).map shown ∧
      (checkContractDelivery pf input).alternativesRows =
        (input.rows.filter fun row => !input.mainRow row).map shown := by
  obtain ⟨⟨shown, hshown, heq⟩, -⟩ := checkTable_spec pf input
  refine ⟨shown, hshown, ?_, ?_⟩
  · simp only [checkContractDelivery, checkSources_rows]
    exact filter_rows hshown heq fun refs => !input.partition || input.onContract refs
  · simp only [checkContractDelivery, checkSources_rows]
    exact filter_rows hshown heq fun refs =>
      !(!input.partition || input.onContract refs)

lemma checkContractDelivery_records (pf : Platform) (input : DeliveryInput) :
    (checkSources input (", ".intercalate input.hosts) (checkTable pf input)).Records pf input
      (detectedGaps pf input) :=
  have hspec := checkTable_spec pf input
  checkSources_spec pf input hspec.1 hspec.2

open UnmetItem

/-- The gaps the user sees: a line for each unmet item, and the detected gaps that are reported and
that no unmet item covers. -/
theorem checkContractDelivery_gaps_eq (pf : Platform) (input : DeliveryInput) :
    (checkContractDelivery pf input).gaps = input.unmet.map line ++
      ((((detectedGaps pf input).filter (input.reports pf)).map RuntimeGap.text).filter
        fun text => !input.covers pf text) := by
  rw [← (checkContractDelivery_records pf input).runtimeGaps]
  rfl

/-! ## Texts of gaps -/

def isHostChar (c : Char) : Bool :=
  ('a' ≤ c && c ≤ 'z') || ('0' ≤ c && c ≤ '9') || c == '-' || c == '.'

lemma append_ne_append {a b a' b' : String} {n : ℕ}
    (h : b.toList.reverse.take n ≠ b'.toList.reverse.take n) (hb : n ≤ b.toList.length)
    (hb' : n ≤ b'.toList.length) : a ++ b ≠ a' ++ b' := by
  have htake : ∀ {c d : String}, n ≤ d.toList.length →
      (c ++ d).toList.reverse.take n = d.toList.reverse.take n := by
    intro c d hd
    rw [String.toList_append, reverse_append,
      take_append_of_le_length (by simpa using hd)]
  intro heq
  exact h (by rw [← htake hb, heq, htake hb'])

lemma not_mem_hosts {hosts : List String} (h : ∀ host ∈ hosts, host.toList.all isHostChar)
    {c : Char} (hc : c = ':' ∨ c = ')') : c ∉ (", ".intercalate hosts).toList := by
  induction hosts with
  | nil => simp
  | cons host hosts ih =>
    have hhost : c ∉ host.toList := by
      intro hmem
      have hchar := List.all_eq_true.1 (h host mem_cons_self) c hmem
      rcases hc with rfl | rfl <;> exact absurd hchar (by decide)
    cases hosts with
    | nil => rwa [String.intercalate_singleton]
    | cons next hosts =>
      rw [String.intercalate_cons_cons, String.toList_append, String.toList_append,
        mem_append, mem_append, not_or, not_or]
      refine ⟨⟨hhost, ?_⟩, ih fun host hmem => h host (mem_cons_of_mem _ hmem)⟩
      rcases hc with rfl | rfl <;> decide

namespace RuntimeGap

def Hosted : RuntimeGap → Prop
  | .notCited hosts | .noRow hosts => ∀ host ∈ hosts, host.toList.all isHostChar = true
  | .tableMissing | .columnMissing _ | .cellsMissing _ _ _ => True

lemma text_tableMissing :
    text .tableMissing = "table: no " ++ "table was published" := by decide

lemma text_columnMissing (field : String) :
    text (.columnMissing field) = field ++ ": no column was published" := rfl

lemma text_cellsMissing (field : String) (missing total : ℕ) :
    text (.cellsMissing field missing total) = (field ++ ": not shown for " ++ toString missing ++
      " of " ++ toString total) ++ " rows" := rfl

lemma tails_ne : ("table was published").toList.reverse.take 16 ≠
      (": no column was published").toList.reverse.take 16 ∧
    ("table was published").toList.reverse.take 1 ≠ (" rows").toList.reverse.take 1 ∧
    (": no column was published").toList.reverse.take 1 ≠ (" rows").toList.reverse.take 1 := by
  decide

lemma text_ne_line (hg : g.Hosted) (item : UnmetItem) : g.text ≠ item.line := by
  have hhosts : ∀ (pre : String) (hosts : List String), ')' ∉ pre.toList →
      (∀ host ∈ hosts, host.toList.all isHostChar) →
      pre ++ ", ".intercalate hosts ≠ item.line := by
    intro pre hosts hpre hall heq
    have hmem : ')' ∈ (pre ++ ", ".intercalate hosts).toList := by
      rw [heq, line, String.toList_append]
      exact mem_append_right _ (by decide)
    rw [String.toList_append, mem_append] at hmem
    exact hmem.elim hpre (not_mem_hosts hall (.inr rfl))
  cases g with
  | tableMissing =>
    rw [text_tableMissing]
    exact append_ne_append (n := 1) (by decide) (by decide) (by decide)
  | columnMissing field => exact append_ne_append (n := 1) (by decide) (by decide) (by decide)
  | cellsMissing field missing total =>
    exact append_ne_append (n := 1) (by decide) (by decide) (by decide)
  | notCited hosts => exact hhosts _ hosts (by decide) hg
  | noRow hosts => exact hhosts _ hosts (by decide) hg

/-- The text of a gap of the sources has no colon. -/
lemma colon_not_mem {pre : String} {hosts : List String} (hpre : ':' ∉ pre.toList)
    (h : ∀ host ∈ hosts, host.toList.all isHostChar) :
    ':' ∉ (pre ++ ", ".intercalate hosts).toList := by
  rw [String.toList_append, mem_append, not_or]
  exact ⟨hpre, not_mem_hosts h (.inl rfl)⟩

lemma exemptName_of_text {g' : RuntimeGap} (hg : g'.Hosted) (hsome : g.exemptName.isSome)
    (h : g.text = g'.text) : g.exemptName = g'.exemptName := by
  have hcolon : ':' ∈ g'.text.toList := by
    rw [← h]
    cases g with
    | tableMissing => decide
    | columnMissing field =>
      have htail : ':' ∈ (": no column was published").toList := by decide
      have hmem : ':' ∈ (field ++ ": no column was published").toList := by
        rw [String.toList_append, mem_append]
        exact .inr htail
      exact hmem
    | cellsMissing field missing total => cases hsome
    | notCited hosts => cases hsome
    | noRow hosts => cases hsome
  cases g' with
  | notCited hosts => exact absurd hcolon (colon_not_mem (by decide) hg)
  | noRow hosts => exact absurd hcolon (colon_not_mem (by decide) hg)
  | tableMissing =>
    cases g with
    | tableMissing => rfl
    | columnMissing field =>
      rw [text_tableMissing, text_columnMissing] at h
      exact absurd h (append_ne_append tails_ne.1.symm (by decide) (by decide))
    | cellsMissing field missing total => cases hsome
    | notCited hosts => cases hsome
    | noRow hosts => cases hsome
  | columnMissing field =>
    cases g with
    | tableMissing =>
      rw [text_tableMissing, text_columnMissing] at h
      exact absurd h (append_ne_append tails_ne.1 (by decide) (by decide))
    | columnMissing field' =>
      rw [text_columnMissing, text_columnMissing, ← String.toList_inj, String.toList_append,
        String.toList_append] at h
      rw [String.toList_inj.1 (append_cancel_right h)]
    | cellsMissing field' missing total => cases hsome
    | notCited hosts => cases hsome
    | noRow hosts => cases hsome
  | cellsMissing field missing total =>
    cases g with
    | tableMissing =>
      rw [text_tableMissing, text_cellsMissing] at h
      exact absurd h (append_ne_append tails_ne.2.1 (by decide) (by decide))
    | columnMissing field' =>
      rw [text_columnMissing, text_cellsMissing] at h
      exact absurd h (append_ne_append tails_ne.2.2 (by decide) (by decide))
    | cellsMissing field' missing total => cases hsome
    | notCited hosts => cases hsome
    | noRow hosts => cases hsome

lemma issue_isSome (h : g.exemptName.isSome) : g.issue.isSome := by
  cases g <;> first | rfl | cases h

end RuntimeGap

open JsText

/-! ## Blank names -/

lemma nil_not_mem_tokens {name : String} (h : normalizeDeliveryName pf name ≠ "") :
    [] ∉ (normalizeDeliveryName pf name).toList.splitOn ' ' := by
  have hne : (normalizeDeliveryName pf name).toList ≠ [] := by
    intro hnil
    exact h (String.toList_inj.1 hnil)
  unfold normalizeDeliveryName JsText.trim collapseRuns at hne ⊢
  rw [String.toList_ofList, String.toList_ofList] at hne ⊢
  have hspaced := (spaced_collapseFrom
    (p := fun c => !(('a' ≤ c && c ≤ 'z') || ('0' ≤ c && c ≤ '9'))) (by decide) false
    (pf.toLowerCase name).toList).1
  refine nil_not_mem_splitOn ?_ hne (fun hhead => ?_) fun hlast => ?_
  · obtain ⟨before, after, htext⟩ := trimList_infix isSpace (collapseFrom
      (fun c => !(('a' ≤ c && c ≤ 'z') || ('0' ≤ c && c ≤ '9'))) false (pf.toLowerCase name).toList)
    rw [← htext] at hspaced
    exact hspaced.left_of_append.right_of_append
  · exact absurd (head?_trimList hhead) (by decide)
  · exact absurd (getLast?_trimList hlast) (by decide)

variable {field : String}

lemma columnMatchesField_blank (hblank : normalizeDeliveryName pf field = "") (column : String) :
    columnMatchesField pf column field ↔ normalizeDeliveryName pf column = "" := by
  have htokens : (normalizeDeliveryName pf field).toList.splitOn ' ' = [[]] := by
    rw [hblank]
    rfl
  simp only [columnMatchesField, htokens, all_cons, all_nil, Bool.and_true,
    contains_eq_mem, decide_eq_true_eq]
  constructor
  · intro hmem
    by_contra hne
    exact nil_not_mem_tokens hne hmem
  · intro hcolumn
    rw [hcolumn]
    exact mem_singleton.2 rfl

lemma columnOf_blank (input : DeliveryInput) (hblank : normalizeDeliveryName pf field = "") :
    input.columnOf pf field = none ↔
      ∀ column ∈ input.columns, normalizeDeliveryName pf column ≠ "" := by
  rw [columnOf, findIdx?_eq_none_iff]
  constructor
  · intro h column hcolumn heq
    exact Bool.noConfusion ((h column hcolumn).symm.trans
      ((columnMatchesField_blank hblank column).2 heq))
  · intro h column hcolumn
    by_contra hmatch
    exact h column hcolumn
      ((columnMatchesField_blank hblank column).1 (Bool.not_eq_false _ ▸ hmatch))

/-! ## Faithful deliveries -/

def DeliveryInput.fields (input : DeliveryInput) : List String :=
  match input.contract with
  | none => []
  | some contract =>
    if contract.deliverable = .table ∧ input.tablePresent = true then contract.requiredFields else []

def DeliveryInput.NamesGap (input : DeliveryInput) (pf : Platform) (g : RuntimeGap) : Prop :=
  ∃ item ∈ input.unmet, ∃ subject ∈ g.subjects, Names pf item.item subject

/-- Nothing of a delivery is lost, every gap that was detected is shown, refuses the publication or
is named by an unmet item, and a column without a name is no field's. -/
structure DeliversFaithfully (pf : Platform) (input : DeliveryInput) : Prop where
  rows : ∃ shown : DeliveryRow → DeliveryRow, (∀ row : DeliveryRow, row.ShownAs (shown row)) ∧
    (checkContractDelivery pf input).rows = (input.rows.filter input.mainRow).map shown ∧
    (checkContractDelivery pf input).alternativesRows =
      (input.rows.filter fun row => !input.mainRow row).map shown
  findings : (checkContractDelivery pf input).findings = input.findings.filter input.mainFinding
  alternativesFindings : (checkContractDelivery pf input).alternativesFindings =
    input.findings.filter fun finding => !input.mainFinding finding
  detected : (checkContractDelivery pf input).deliverableGaps =
    (detectedGaps pf input).map RuntimeGap.text
  gaps : ∀ g ∈ detectedGaps pf input, g.text ∈ (checkContractDelivery pf input).gaps ∨
    (∃ issue ∈ (checkContractDelivery pf input).issues, g.issue = some issue) ∨
      input.NamesGap pf g
  columns : ∀ field ∈ input.fields, normalizeDeliveryName pf field = "" →
    input.columnOf pf field = none

/-- What hides a gap names what it is about, and where a required field has neither a letter nor a
digit that delivery compares, every column has one. -/
structure GapsNamed (pf : Platform) (input : DeliveryInput) : Prop where
  hidden : ∀ g ∈ detectedGaps pf input, input.hides pf g = true → input.NamesGap pf g
  columns : ∀ field ∈ input.fields, normalizeDeliveryName pf field = "" →
    ∀ column ∈ input.columns, normalizeDeliveryName pf column ≠ ""

lemma issue_of_refuses (hg : g ∈ detectedGaps pf input) (h : input.refuses pf g) :
    ∃ issue ∈ (checkContractDelivery pf input).issues, g.issue = some issue := by
  have hsome : g.exemptName.isSome := by
    rw [refuses] at h
    cases hname : g.exemptName with
    | none => rw [hname] at h; cases h
    | some name => rfl
  obtain ⟨issue, hissue⟩ := isSome_iff_exists.1 (issue_isSome hsome)
  refine ⟨issue, ?_, hissue⟩
  have hissues : (checkContractDelivery pf input).issues =
      ((detectedGaps pf input).filter (input.refuses pf)).filterMap RuntimeGap.issue :=
    (checkContractDelivery_records pf input).issues
  rw [hissues]
  exact mem_filterMap.2 ⟨g, mem_filter.2 ⟨hg, h⟩, hissue⟩

lemma hosted_of_fieldGap (h : fieldGap pf input field = some g) : g.Hosted := by
  unfold fieldGap at h
  split at h
  · obtain rfl := some.inj h
    trivial
  · split_ifs at h
    obtain rfl := some.inj h
    trivial

lemma hosted_of_mem (hhosts : ∀ host ∈ input.hosts, host.toList.all isHostChar)
    (hg : g ∈ detectedGaps pf input) : g.Hosted := by
  rcases mem_append.1 hg with htable | hsource
  · unfold tableGaps at htable
    split at htable
    · exact absurd htable not_mem_nil
    · split_ifs at htable
      · obtain ⟨field, -, hfield⟩ := mem_filterMap.1 htable
        exact hosted_of_fieldGap hfield
      · obtain rfl := mem_singleton.1 htable
        trivial
      · exact absurd htable not_mem_nil
  · rcases mem_append.1 hsource with hcited | hrow
    · split_ifs at hcited
      · obtain rfl := mem_singleton.1 hcited
        exact hhosts
      · exact absurd hcited not_mem_nil
    · split_ifs at hrow
      · obtain rfl := mem_singleton.1 hrow
        exact hhosts
      · exact absurd hrow not_mem_nil

lemma not_hides_of_visible (hhosts : ∀ host ∈ input.hosts, host.toList.all isHostChar)
    (hg : g ∈ detectedGaps pf input)
    (h : g.text ∈ (checkContractDelivery pf input).gaps ∨
      ∃ issue ∈ (checkContractDelivery pf input).issues, g.issue = some issue) :
    input.hides pf g = false := by
  -- another gap that says the same is looked up under the same name
  have hreported : ∀ g' : RuntimeGap, (g.exemptName.isSome → g.exemptName = g'.exemptName) →
      g'.exemptName.any (input.exempt pf) = false → g.exemptName.any (input.exempt pf) = false := by
    intro g' hname hexempt
    cases hsome : g.exemptName with
    | none => rfl
    | some name =>
      rw [hsome] at hname
      rw [hname rfl]
      exact hexempt
  rcases h with htext | ⟨issue, hissue, hgissue⟩
  · rw [checkContractDelivery_gaps_eq, mem_append] at htext
    rcases htext with hline | hshown
    · obtain ⟨item, -, heq⟩ := List.mem_map.1 hline
      exact absurd heq.symm (text_ne_line (hosted_of_mem hhosts hg) item)
    · obtain ⟨hmem, hcovers⟩ := mem_filter.1 hshown
      obtain ⟨g', hg', heq⟩ := List.mem_map.1 hmem
      obtain ⟨hdetected, hreports⟩ := mem_filter.1 hg'
      have hexempt : g'.exemptName.any (input.exempt pf) = false := by
        rw [reports] at hreports
        cases hname : g'.exemptName with
        | none => rfl
        | some name =>
          rw [hname, all_some, Bool.and_eq_true, Bool.not_eq_true'] at hreports
          exact hreports.1
      have hcovers : input.covers pf g.text = false := by simpa using hcovers
      rw [hides, hcovers, Bool.and_false, Bool.or_false]
      exact hreported g' (fun hsome => exemptName_of_text
        (hosted_of_mem hhosts hdetected) hsome heq.symm) hexempt
  · have hissues : (checkContractDelivery pf input).issues =
        ((detectedGaps pf input).filter (input.refuses pf)).filterMap RuntimeGap.issue :=
      (checkContractDelivery_records pf input).issues
    rw [hissues] at hissue
    obtain ⟨g', hg', hissue'⟩ := mem_filterMap.1 hissue
    obtain ⟨-, hrefuses⟩ := mem_filter.1 hg'
    have hname := exemptName_of_issue (by rw [hgissue]; rfl) (hgissue.trans hissue'.symm)
    rw [refuses] at hrefuses
    rw [hides, reports, hname]
    cases hsome : g'.exemptName with
    | none => rw [hsome] at hrefuses; cases hrefuses
    | some name =>
      rw [hsome, any_some, Bool.and_eq_true, Bool.not_eq_true', Bool.not_eq_true'] at hrefuses
      simp [hrefuses.1, hrefuses.2]

/-- A table of prices with one empty cell, and an unmet item named by a dash. -/
def dashDelivery : DeliveryInput where
  rows := [⟨[.null], [], "table/rows/0"⟩]
  findings := []
  columns := ["price"]
  tablePresent := true
  unmet := [⟨"—", "n/a"⟩]
  contract := some { deliverable := .table, subject := "prices", requiredFields := ["price"] }
  mode := .tool
  onContract := fun _ => true

end Yantra
