import Yantra.Agent.Fulfillment

/-!
# Normalizing a declared contract

`normalizeContract` cleans the parameters a model sent, refuses what it finds wrong with them, and
hands the rest to the schema, which throws on what it does not accept. The tool's own schema asks
for a visible character in every text, and cleaning can still take the last one: `\S` matches a
control character, which cleaning replaces by a space, and the sanitizer may take anything.

The sanitizer, the mask and the URL parser are the run's; how the tool's schema counts the length
of a text is the validator's.

## Main definitions

* `TaskContractParams`, `TaskContractParams.schemaAccepts` — the parameters.
* `NormalizesSafely` — a contract the schema accepts is returned, or an issue.

## Main results

* `normalizesSafely_iff` — cleaning is safe unless it empties a text.
* `control_character_throws` — a subject of one control character makes it throw.
-/

namespace Yantra

open List Option

/-! ## Parameters -/

/-- The raw `task_contract` parameters, as the model sent them. -/
structure TaskContractParams where
  deliverable : Deliverable
  subject : String
  requiredFields : Option (List String) := none
  filters : Option (List ContractFilter) := none
  requiredSources : Option (List String) := none
  ranking : Option ContractRanking := none
  limit : Option Nat := none
  notes : Option String := none
  fill : Option ContractFill := none
  artifacts : Option (List ContractArtifact) := none
  submit : Option SubmitEffect := none
  deriving DecidableEq, Repr, Inhabited

/-- A string of the tool's schema, of 1 to `max` characters, one of them visible. -/
def textParam (size : String → Nat) (max : Nat) (s : String) : Bool :=
  decide (1 ≤ size s) && decide (size s ≤ max) && JsText.visible s

def arrayParam {α : Type} (item : α → Bool) (maxItems : Nat) (values : Option (List α)) : Bool :=
  values.all fun vs => vs.all item && decide (vs.length ≤ maxItems)

def TaskContractParams.schemaAccepts (size : String → Nat) (p : TaskContractParams) : Bool :=
  textParam size 200 p.subject &&
    arrayParam (textParam size 60) 12 p.requiredFields &&
    arrayParam (fun f => textParam size 60 f.name && textParam size 120 f.value) 12 p.filters &&
    arrayParam (fun s => decide (1 ≤ size s) && decide (size s ≤ 253)) 5 p.requiredSources &&
    p.ranking.all (fun r => textParam size 60 r.field) &&
    p.limit.all (fun n => decide (1 ≤ n) && decide (n ≤ 50)) &&
    p.fill.all (fun f => arrayParam (textParam size 60) 40 f.fields) &&
    arrayParam (fun _ => true) 3 p.artifacts &&
    p.notes.all (fun n => decide (size n ≤ 500))

/-! ## Cleaning -/

/-- How contract text is made safe to keep. -/
structure ContractTextCleaning where
  /-- `sanitizer.sanitize(text, 'public').text` -/
  sanitize : String → String
  mask : Option (String → String) := none
  command : Option AgenticCommand := none

/-- A character of `CONTROL_CHARACTERS`. -/
def isControlCharacter (c : Char) : Bool :=
  decide (c.toNat ≤ 0x1F) || (decide (0x7F ≤ c.toNat) && decide (c.toNat ≤ 0x9F))

def ContractTextCleaning.sanitized (cleaning : ContractTextCleaning) (value : String) : String :=
  cleaning.sanitize (match cleaning.mask with
    | some mask => mask value
    | none => value)

/-- `cleanText`: what is sanitized, less control characters, bounded. -/
def cleanText (value : String) (max : Nat) (cleaning : ContractTextCleaning) : String :=
  bound (JsText.collapseRuns isControlCharacter (cleaning.sanitized value)) max

/-- A character of a text is left: one that is neither a control character nor white space. -/
def ContractTextCleaning.Leaves (cleaning : ContractTextCleaning) (value : String) : Prop :=
  ∃ c ∈ (cleaning.sanitized value).toList, isControlCharacter c = false ∧ JsText.isSpace c = false

/-! ## Sources -/

/-- What `new URL` finds in a text. -/
structure SourceUrl where
  protocol : String
  username : String := ""
  password : String := ""
  hostname : String
  deriving DecidableEq, Repr, Inhabited

/-- A letter of `/[a-z]/iu`, which matches two other characters up to case. -/
def isSchemeLetter (c : Char) : Bool :=
  ('a' ≤ c && c ≤ 'z') || ('A' ≤ c && c ≤ 'Z') || decide (c.toNat = 0x17F) ||
    decide (c.toNat = 0x212A)

/-- `/^[a-z][a-z0-9+.-]*:\/\//iu` -/
def startsWithScheme (s : String) : Bool :=
  match s.toList with
  | [] => false
  | c :: cs =>
    isSchemeLetter c && "://".toList.isPrefixOf (cs.dropWhile fun d =>
      isSchemeLetter d || ('0' ≤ d && d ≤ '9') || d == '+' || d == '.' || d == '-')

/-- `normalizeSourceHost`, with `new URL` as `parse`, `none` where it throws. -/
def normalizeSourceHost (pf : Platform) (parse : String → Option SourceUrl) (raw : String) :
    Option String :=
  let trimmed := JsText.trim raw
  if trimmed.isEmpty || trimmed.toList.any JsText.isSpace then none
  else
    match parse (if startsWithScheme trimmed then trimmed else "https://" ++ trimmed) with
    | none => none
    | some url =>
      if url.protocol ≠ "https:" ∧ url.protocol ≠ "http:" then none
      else if url.username ≠ "" ∨ url.password ≠ "" then none
      else
        let host := stripWww (dropTrailingDot (pf.toLowerCase url.hostname))
        if JsText.utf16Length host ≤ 253 ∧ matchesSourceHostPattern host then some host else none

/-! ## Normalizing -/

/-- The first problem found in a contract. -/
inductive ContractIssue where
  | sourceHost (entry : String)
  | duplicate (name : String)
  | tableFields
  | rankingField (field : String)
  | actionsCommand
  | fillFields (coverage : FillCoverageKind)
  deriving DecidableEq, Repr, Inhabited

/-- The first value that repeats an earlier one up to case. -/
def firstDuplicateFrom (pf : Platform) : List String → List String → Option String
  | _, [] => none
  | seen, value :: values =>
    if seen.contains (pf.toLowerCase value) then some value
    else firstDuplicateFrom pf (pf.toLowerCase value :: seen) values

def firstDuplicate (pf : Platform) (values : List String) : Option String :=
  firstDuplicateFrom pf [] values

def refuse {α : Type} (issue : α → ContractIssue) : Option α → Except ContractIssue Unit
  | some a => .error (issue a)
  | none => .ok ()

def refuseIf (issue : ContractIssue) (condition : Bool) : Except ContractIssue Unit :=
  if condition then .error issue else .ok ()

/-- The loop over the required sources. -/
def normalizeSources (pf : Platform) (parse : String → Option SourceUrl)
    (cleaning : ContractTextCleaning) : List String → Except ContractIssue (List String)
  | [] => .ok []
  | raw :: raws =>
    match normalizeSourceHost pf parse raw with
    | none => .error (.sourceHost (cleanText raw 80 cleaning))
    | some host => do
      let hosts ← normalizeSources pf parse cleaning raws
      return host :: hosts

def cleanFilter (cleaning : ContractTextCleaning) (f : ContractFilter) : ContractFilter :=
  ⟨cleanText f.name 60 cleaning, cleanText f.value 120 cleaning⟩

def cleanNames (cleaning : ContractTextCleaning) (names : Option (List String)) : List String :=
  (names.getD []).map fun name => cleanText name 60 cleaning

def TaskContractParams.actionTerms (p : TaskContractParams) : Bool :=
  decide (p.deliverable = .actions) || p.fill.isSome || !(p.artifacts.getD []).isEmpty ||
    decide (p.submit = some .forbidden)

def normalizeFill (pf : Platform) (cleaning : ContractTextCleaning) (fill : ContractFill) :
    Except ContractIssue ContractFill := do
  let listed := cleanNames cleaning fill.fields
  let wantsFields := decide (fill.coverage = .listed)
  refuseIf (.fillFields fill.coverage)
    (wantsFields != !listed.isEmpty || decide (contractFillMaxFields < listed.length))
  refuse .duplicate (firstDuplicate pf listed)
  return if wantsFields then ⟨.listed, some listed⟩ else ⟨.allEligible, none⟩

/-- What the schema makes of a body: the body, or a throw. -/
def parseContract (pf : Platform) (body : TaskContractBody) : Option TaskContractBody :=
  if body.schemaValid pf then some body else none

/-- `normalizeContract`; `none` where the schema throws. -/
def normalizeContract (pf : Platform) (parse : String → Option SourceUrl)
    (cleaning : ContractTextCleaning) (p : TaskContractParams) :
    Except ContractIssue (Option TaskContractBody) := do
  let fields := cleanNames cleaning p.requiredFields
  let filters := (p.filters.getD []).map (cleanFilter cleaning)
  let sources ← normalizeSources pf parse cleaning (p.requiredSources.getD [])
  refuse .duplicate ((firstDuplicate pf fields).or
    ((firstDuplicate pf (filters.map ContractFilter.name)).or (firstDuplicate pf sources)))
  refuseIf .tableFields (decide (p.deliverable = .table) && fields.isEmpty)
  let ranking := p.ranking.map fun r => { r with field := cleanText r.field 60 cleaning }
  refuse .rankingField ((ranking.filter fun r => decide (p.deliverable = .table) &&
    !fields.any fun f => pf.toLowerCase f == pf.toLowerCase r.field).map ContractRanking.field)
  refuseIf .actionsCommand (p.actionTerms && decide (cleaning.command = some .research))
  let fill ← p.fill.mapM (normalizeFill pf cleaning)
  let artifacts := (p.artifacts.getD []).map fun a => (⟨a.kind, a.scope⟩ : ContractArtifact)
  refuse .duplicate (firstDuplicate pf (artifacts.map fun a => artifactLabel a.scope))
  let notes := (p.notes.map fun n => cleanText n 500 cleaning).getD ""
  return parseContract pf
    { deliverable := p.deliverable
      subject := cleanText p.subject 200 cleaning
      requiredFields := fields
      filters := filters
      requiredSources := sources
      ranking := ranking
      limit := p.limit
      notes := if notes.isEmpty then none else some notes
      fill := fill
      artifacts := artifacts
      submit := p.submit.getD .allowed }

/-! ## What is refused -/

def ApartUpToCase (pf : Platform) (values : List String) : Prop := (values.map pf.toLowerCase).Nodup

structure ContractFill.Admissible (pf : Platform) (cleaning : ContractTextCleaning)
    (fill : ContractFill) : Prop where
  listed : fill.coverage = .listed ↔ fill.fields.getD [] ≠ []
  length : (fill.fields.getD []).length ≤ contractFillMaxFields
  apart : ApartUpToCase pf (cleanNames cleaning fill.fields)

/-- What is not refused: the sources are hosts, no two names agree up to case, a table has fields
and is ranked by one of them, research does not act, and a fill lists what it covers. -/
structure TaskContractParams.Admissible (pf : Platform) (parse : String → Option SourceUrl)
    (cleaning : ContractTextCleaning) (p : TaskContractParams) : Prop where
  sources : ∀ raw ∈ p.requiredSources.getD [], (normalizeSourceHost pf parse raw).isSome = true
  fieldsApart : ApartUpToCase pf (cleanNames cleaning p.requiredFields)
  filtersApart :
    ApartUpToCase pf (((p.filters.getD []).map (cleanFilter cleaning)).map ContractFilter.name)
  sourcesApart :
    ApartUpToCase pf ((p.requiredSources.getD []).filterMap (normalizeSourceHost pf parse))
  tableFields : p.deliverable = .table → p.requiredFields.getD [] ≠ []
  ranking : p.deliverable = .table → ∀ r, p.ranking = some r →
    ∃ f ∈ cleanNames cleaning p.requiredFields,
      pf.toLowerCase f = pf.toLowerCase (cleanText r.field 60 cleaning)
  command : p.actionTerms = true → cleaning.command ≠ some .research
  fill : ∀ f, p.fill = some f → f.Admissible pf cleaning
  artifactsApart : ApartUpToCase pf ((p.artifacts.getD []).map fun a => artifactLabel a.scope)

/-- The fill of parameters that are not refused. -/
def cleanFill (cleaning : ContractTextCleaning) (fill : ContractFill) : ContractFill :=
  if fill.coverage = .listed then ⟨.listed, some (cleanNames cleaning fill.fields)⟩
  else ⟨.allEligible, none⟩

def normalizedBody (pf : Platform) (parse : String → Option SourceUrl)
    (cleaning : ContractTextCleaning) (p : TaskContractParams) : TaskContractBody where
  deliverable := p.deliverable
  subject := cleanText p.subject 200 cleaning
  requiredFields := cleanNames cleaning p.requiredFields
  filters := (p.filters.getD []).map (cleanFilter cleaning)
  requiredSources := (p.requiredSources.getD []).filterMap (normalizeSourceHost pf parse)
  ranking := p.ranking.map fun r => { r with field := cleanText r.field 60 cleaning }
  limit := p.limit
  notes := (p.notes.map fun n => cleanText n 500 cleaning).filter fun n => !n.isEmpty
  fill := p.fill.map (cleanFill cleaning)
  artifacts := p.artifacts.getD []
  submit := p.submit.getD .allowed

lemma exceptBind_eq_ok {ε α β : Type} {x : Except ε α} {f : α → Except ε β} {b : β} :
    (x >>= f) = .ok b ↔ ∃ a, x = .ok a ∧ f a = .ok b := by
  cases x with
  | error e => simp [bind, Except.bind]
  | ok a => simp [bind, Except.bind]

variable {u : Unit}

@[simp] lemma refuse_eq_ok {α : Type} {issue : α → ContractIssue} {problem : Option α} :
    refuse issue problem = .ok u ↔ problem = none := by
  cases problem <;> simp [refuse]

@[simp] lemma refuseIf_eq_ok {issue : ContractIssue} {condition : Bool} :
    refuseIf issue condition = .ok u ↔ condition = false := by
  cases condition <;> simp [refuseIf]

lemma firstDuplicateFrom_eq_none (pf : Platform) {seen values : List String} :
    firstDuplicateFrom pf seen values = none ↔
      ApartUpToCase pf values ∧ ∀ value ∈ values, pf.toLowerCase value ∉ seen := by
  induction values generalizing seen with
  | nil => simp [firstDuplicateFrom, ApartUpToCase]
  | cons value values ih =>
    rw [firstDuplicateFrom]
    split_ifs with hseen
    · simp only [false_iff, not_and, not_forall, not_not]
      exact fun _ => ⟨value, mem_cons_self, by simpa using hseen⟩
    · rw [ih]
      simp only [ApartUpToCase, map_cons, nodup_cons, List.mem_map, mem_cons,
        contains_eq_mem, decide_eq_true_eq] at hseen ⊢
      constructor
      · rintro ⟨hapart, hfresh⟩
        refine ⟨⟨?_, hapart⟩, ?_⟩
        · rintro ⟨other, hother, heq⟩
          exact hfresh other hother (.inl heq)
        · rintro other (rfl | hother)
          · exact hseen
          · exact fun hmem => hfresh other hother (.inr hmem)
      · rintro ⟨⟨hnew, hapart⟩, hfresh⟩
        refine ⟨hapart, fun other hother => ?_⟩
        rintro (heq | hmem)
        · exact hnew ⟨other, hother, heq⟩
        · exact hfresh other (.inr hother) hmem

variable {values : List String}

@[simp] lemma firstDuplicate_eq_none (pf : Platform) :
    firstDuplicate pf values = none ↔ ApartUpToCase pf values := by
  rw [firstDuplicate, firstDuplicateFrom_eq_none, and_iff_left]
  exact fun _ _ => not_mem_nil

lemma normalizeSources_eq_ok (pf : Platform) (parse : String → Option SourceUrl)
    (cleaning : ContractTextCleaning) {raws hosts : List String} :
    normalizeSources pf parse cleaning raws = .ok hosts ↔
      (∀ raw ∈ raws, (normalizeSourceHost pf parse raw).isSome) ∧
        hosts = raws.filterMap (normalizeSourceHost pf parse) := by
  induction raws generalizing hosts with
  | nil =>
    rw [normalizeSources, and_iff_right (by simp), filterMap_nil, Except.ok.injEq]
    exact eq_comm
  | cons raw raws ih =>
    rw [normalizeSources, forall_mem_cons]
    cases hhost : normalizeSourceHost pf parse raw with
    | none => simp
    | some host =>
      rw [filterMap_cons_some hhost, exceptBind_eq_ok]
      simp only [ih, isSome_some, true_and]
      constructor
      · rintro ⟨rest, ⟨hall, rfl⟩, heq⟩
        exact ⟨hall, (Except.ok.inj heq).symm⟩
      · rintro ⟨hall, rfl⟩
        exact ⟨_, ⟨hall, rfl⟩, rfl⟩

lemma normalizeFill_eq_ok (pf : Platform) (cleaning : ContractTextCleaning)
    {fill cleaned : ContractFill} :
    normalizeFill pf cleaning fill = .ok cleaned ↔
      fill.Admissible pf cleaning ∧ cleaned = cleanFill cleaning fill := by
  have hempty : (cleanNames cleaning fill.fields).isEmpty = (fill.fields.getD []).isEmpty := by
    rw [cleanNames, isEmpty_map]
  have hlength : (cleanNames cleaning fill.fields).length = (fill.fields.getD []).length :=
    length_map _
  simp only [normalizeFill, exceptBind_eq_ok, refuseIf_eq_ok, refuse_eq_ok, firstDuplicate_eq_none,
    exists_and_left, exists_const, Bool.or_eq_false_iff, bne_eq_false_iff_eq,
    decide_eq_false_iff_not, hempty, hlength, Nat.not_lt, decide_eq_true_eq]
  have hlisted : decide (fill.coverage = .listed) = !(fill.fields.getD []).isEmpty ↔
      (fill.coverage = .listed ↔ fill.fields.getD [] ≠ []) := by
    rw [Bool.eq_iff_iff, decide_eq_true_eq, Bool.not_eq_true', isEmpty_eq_false_iff]
  constructor
  · rintro ⟨⟨hcoverage, hbound⟩, hapart, heq⟩
    exact ⟨⟨hlisted.1 hcoverage, hbound, hapart⟩, (Except.ok.inj heq).symm⟩
  · rintro ⟨hadmissible, rfl⟩
    exact ⟨⟨hlisted.2 hadmissible.listed, hadmissible.length⟩, hadmissible.apart, rfl⟩

lemma mapM_normalizeFill_eq_ok (pf : Platform) (cleaning : ContractTextCleaning)
    {fill cleaned : Option ContractFill} :
    fill.mapM (normalizeFill pf cleaning) = .ok cleaned ↔
      (∀ f, fill = some f → f.Admissible pf cleaning) ∧
        cleaned = fill.map (cleanFill cleaning) := by
  cases fill with
  | none =>
    rw [and_iff_right (by simp), map_none]
    exact ⟨fun h => (Except.ok.inj h).symm, fun h => congrArg Except.ok h.symm⟩
  | some f =>
    have hmap : ∀ x : Except ContractIssue ContractFill,
        some <$> x = x >>= fun g => .ok (some g) := by
      intro x
      cases x <;> rfl
    have hmapM : (some f).mapM (normalizeFill pf cleaning) =
        normalizeFill pf cleaning f >>= fun g => .ok (some g) := hmap _
    rw [hmapM, exceptBind_eq_ok]
    simp only [normalizeFill_eq_ok, some.injEq, forall_eq', map_some]
    constructor
    · rintro ⟨g, ⟨hadmissible, rfl⟩, heq⟩
      exact ⟨hadmissible, (Except.ok.inj heq).symm⟩
    · rintro ⟨hadmissible, rfl⟩
      exact ⟨_, ⟨hadmissible, rfl⟩, rfl⟩

lemma ranking_filter_eq_none (pf : Platform) (fields : List String) (table : Bool)
    {ranking : Option ContractRanking} :
    ranking.filter (fun r => table &&
        !fields.any fun f => pf.toLowerCase f == pf.toLowerCase r.field) = none ↔
      (table → ∀ r, ranking = some r →
        ∃ f ∈ fields, pf.toLowerCase f = pf.toLowerCase r.field) := by
  cases ranking with
  | none => simp
  | some r =>
    cases table with
    | false => simp
    | true => simp [filter_some]

lemma normalizeContract_eq_ok (pf : Platform) (parse : String → Option SourceUrl)
    (cleaning : ContractTextCleaning) (p : TaskContractParams) {body : Option TaskContractBody} :
    normalizeContract pf parse cleaning p = .ok body ↔
      p.Admissible pf parse cleaning ∧
        body = parseContract pf (normalizedBody pf parse cleaning p) := by
  have hartifacts : ((p.artifacts.getD []).map fun a => (⟨a.kind, a.scope⟩ : ContractArtifact)) =
      p.artifacts.getD [] := List.map_id _
  have hnotes : ∀ notes : Option String,
      (if (notes.getD "").isEmpty = true then none else some (notes.getD "")) =
        notes.filter fun n => !n.isEmpty := by
    intro notes
    cases notes with
    | none => rfl
    | some n => cases hn : n.isEmpty <;> simp [filter_some, hn]
  have htable : (decide (p.deliverable = .table) &&
      (cleanNames cleaning p.requiredFields).isEmpty) = false ↔
        (p.deliverable = .table → p.requiredFields.getD [] ≠ []) := by
    rw [cleanNames, isEmpty_map, Bool.and_eq_false_imp, decide_eq_true_eq,
      isEmpty_eq_false_iff]
  have hcommand : (p.actionTerms && decide (cleaning.command = some .research)) = false ↔
      (p.actionTerms → cleaning.command ≠ some .research) := by
    rw [Bool.and_eq_false_imp, decide_eq_false_iff_not]
  simp only [normalizeContract, exceptBind_eq_ok, refuseIf_eq_ok, refuse_eq_ok,
    normalizeSources_eq_ok, mapM_normalizeFill_eq_ok, firstDuplicate_eq_none, or_eq_none_iff,
    exists_and_left, exists_const, map_eq_none_iff, ranking_filter_eq_none, hnotes, htable,
    hcommand, decide_eq_true_eq]
  rw [hartifacts]
  constructor
  · rintro ⟨sources, ⟨hsources, rfl⟩, ⟨hfields, hfilters, hapart⟩, hempty, hranking, hresearch,
      fill, ⟨hfill, rfl⟩, hartifact, heq⟩
    refine ⟨⟨hsources, hfields, hfilters, hapart, hempty, fun ht r hr => ?_, hresearch, hfill,
      hartifact⟩, (Except.ok.inj heq).symm⟩
    simp only [hr, map_some, some.injEq, forall_eq'] at hranking
    exact hranking ht
  · rintro ⟨h, hbody⟩
    refine ⟨(p.requiredSources.getD []).filterMap (normalizeSourceHost pf parse), ⟨h.sources, rfl⟩,
      ⟨h.fieldsApart, h.filtersApart, h.sourcesApart⟩, h.tableFields, fun ht r hr => ?_, h.command,
      p.fill.map (cleanFill cleaning), ⟨h.fill, rfl⟩, h.artifactsApart, congrArg _ hbody.symm⟩
    obtain ⟨raw, hraw, rfl⟩ := map_eq_some_iff.1 hr
    simp only
    exact h.ranking ht raw hraw

/-- What is refused: exactly what is not admissible. -/
theorem normalizeContract_isOk_iff (pf : Platform) (parse : String → Option SourceUrl)
    (cleaning : ContractTextCleaning) (p : TaskContractParams) :
    (∃ issue, normalizeContract pf parse cleaning p = .error issue) ↔
      ¬p.Admissible pf parse cleaning := by
  cases hresult : normalizeContract pf parse cleaning p with
  | error issue =>
    refine ⟨fun _ h => ?_, fun _ => ⟨issue, rfl⟩⟩
    have hok := (normalizeContract_eq_ok pf parse cleaning p).2 ⟨h, rfl⟩
    rw [hresult] at hok
    cases hok
  | ok body =>
    have hadmissible := ((normalizeContract_eq_ok pf parse cleaning p).1 hresult).1
    refine ⟨?_, fun h => absurd hadmissible h⟩
    rintro ⟨issue, h⟩
    cases h

/-! ## What the schema makes of it -/

def TaskContractParams.texts (p : TaskContractParams) : List String :=
  p.subject :: p.requiredFields.getD [] ++ (p.filters.getD []).map ContractFilter.name ++
    (p.filters.getD []).map ContractFilter.value ++ p.ranking.toList.map ContractRanking.field ++
    p.fill.toList.flatMap fun f => f.fields.getD []

/-- A contract the schema accepts is returned, every text with a character left, or an issue. -/
def NormalizesSafely (pf : Platform) (parse : String → Option SourceUrl)
    (cleaning : ContractTextCleaning) (p : TaskContractParams) : Prop :=
  (∃ issue, normalizeContract pf parse cleaning p = .error issue) ∨
    ∃ body, normalizeContract pf parse cleaning p = .ok (some body) ∧
      body.schemaValid pf = true ∧ ∀ text ∈ p.texts, cleaning.Leaves text

variable {cleaning : ContractTextCleaning}

open JsText

lemma boundedText_cleanText {value : String} {max : Nat} (hmax : 0 < max) :
    boundedText max (cleanText value max cleaning) ↔ cleaning.Leaves value := by
  rw [cleanText, boundedText_bound hmax, visible_collapseRuns]
  rfl

lemma all_cleanNames {names : Option (List String)} :
    (cleanNames cleaning names).all (boundedText 60) ↔
      ∀ name ∈ names.getD [], cleaning.Leaves name := by
  simp only [cleanNames, List.all_map, List.all_eq_true, Function.comp_apply,
    boundedText_cleanText (by decide : 0 < 60)]

lemma not_duplicate_iff (pf : Platform) :
    (!hasCaseInsensitiveDuplicate pf values) = true ↔ ApartUpToCase pf values := by
  simp [hasCaseInsensitiveDuplicate, ApartUpToCase]

variable {pf : Platform}

variable {parse : String → Option SourceUrl}

lemma host_of_normalizeSourceHost {raw host : String}
    (h : normalizeSourceHost pf parse raw = some host) :
    (matchesSourceHostPattern host && decide (utf16Length host ≤ 253)) = true := by
  simp only [normalizeSourceHost] at h
  split at h
  · cases h
  split at h
  · cases h
  · split_ifs at h with _ _ hhost
    obtain rfl := some.inj h
    rw [hhost.2, decide_eq_true hhost.1, Bool.and_self]

open ContractFill

lemma schemaValid_cleanFill {f : ContractFill} (h : f.Admissible pf cleaning) :
    (cleanFill cleaning f).schemaValid pf ↔
      ∀ name ∈ f.fields.getD [], cleaning.Leaves name := by
  unfold cleanFill
  split_ifs with hlisted
  · have hne : (cleanNames cleaning f.fields).isEmpty = false := by
      rw [cleanNames, isEmpty_map, isEmpty_eq_false_iff]
      exact h.listed.1 hlisted
    have hlength : (cleanNames cleaning f.fields).length ≤ contractFillMaxFields := by
      rw [cleanNames, length_map]
      exact h.length
    simp only [schemaValid, getD_some, Bool.and_eq_true, all_cleanNames,
      not_duplicate_iff, hne, decide_eq_true hlength, h.apart, and_true, Bool.not_false]
  · have hempty : f.fields.getD [] = [] := not_not.1 (mt h.listed.2 hlisted)
    rw [hempty]
    simp [schemaValid, hasCaseInsensitiveDuplicate]

open TaskContractParams

lemma leaves_texts_iff (cleaning : ContractTextCleaning) (p : TaskContractParams) :
    (∀ text ∈ p.texts, cleaning.Leaves text) ↔
      cleaning.Leaves p.subject ∧ (∀ name ∈ p.requiredFields.getD [], cleaning.Leaves name) ∧
        (∀ f ∈ p.filters.getD [], cleaning.Leaves f.name ∧ cleaning.Leaves f.value) ∧
        (∀ r, p.ranking = some r → cleaning.Leaves r.field) ∧
        ∀ f, p.fill = some f → ∀ name ∈ f.fields.getD [], cleaning.Leaves name := by
  simp only [texts, cons_append, forall_mem_cons,
    forall_mem_append, List.forall_mem_map, mem_toList, mem_flatMap]
  constructor
  · rintro ⟨hsubject, ⟨⟨⟨hfields, hnames⟩, hvalues⟩, hranking⟩, hfill⟩
    exact ⟨hsubject, hfields, fun f hf => ⟨hnames f hf, hvalues f hf⟩, hranking,
      fun f hf name hname => hfill name ⟨f, hf, hname⟩⟩
  · rintro ⟨hsubject, hfields, hfilters, hranking, hfill⟩
    refine ⟨hsubject, ⟨⟨⟨hfields, fun f hf => (hfilters f hf).1⟩, fun f hf => (hfilters f hf).2⟩,
      hranking⟩, ?_⟩
    rintro name ⟨f, hf, hname⟩
    exact hfill f hf name hname

variable {p : TaskContractParams} {size : String → Nat}

lemma TaskContractParams.bounds (h : p.schemaAccepts size) :
    (p.requiredFields.getD []).length ≤ 12 ∧ (p.filters.getD []).length ≤ 12 ∧
      (p.requiredSources.getD []).length ≤ 5 ∧
      p.limit.all (fun n => decide (1 ≤ n) && decide (n ≤ 50)) = true ∧
      (p.artifacts.getD []).length ≤ 3 := by
  have hlength : ∀ {α : Type} {item : α → Bool} {max : Nat} {values : Option (List α)},
      arrayParam item max values → (values.getD []).length ≤ max := by
    intro α item max values hvalues
    cases values with
    | none => exact Nat.zero_le _
    | some vs =>
      simp only [arrayParam, all_some, Bool.and_eq_true, decide_eq_true_eq] at hvalues
      exact hvalues.2
  simp only [schemaAccepts, Bool.and_eq_true] at h
  obtain ⟨⟨⟨⟨⟨⟨⟨⟨-, hfields⟩, hfilters⟩, hsources⟩, -⟩, hlimit⟩, -⟩, hartifacts⟩, -⟩ := h
  refine ⟨hlength hfields, hlength hfilters, hlength hsources, ?_, hlength hartifacts⟩
  simpa only [Bool.and_eq_true] using hlimit

/-- The schema accepts the body of admissible parameters exactly when a character is left of every
text: the tool's schema bounds the lists, and what is not refused has its names apart. -/
lemma schemaValid_normalizedBody (haccepts : p.schemaAccepts size)
    (h : p.Admissible pf parse cleaning) :
    (normalizedBody pf parse cleaning p).schemaValid pf ↔
      ∀ text ∈ p.texts, cleaning.Leaves text := by
  obtain ⟨hfields, hfilters, hsources, hlimit, hartifacts⟩ := bounds haccepts
  have hhosts : ((p.requiredSources.getD []).filterMap (normalizeSourceHost pf parse)).all
      (fun s => matchesSourceHostPattern s && decide (utf16Length s ≤ 253)) = true := by
    refine List.all_eq_true.2 fun host hhost => ?_
    obtain ⟨raw, -, hraw⟩ := mem_filterMap.1 hhost
    exact host_of_normalizeSourceHost hraw
  have hcount : ((p.requiredSources.getD []).filterMap (normalizeSourceHost pf parse)).length ≤ 5 :=
    Nat.le_trans (length_filterMap_le _ _) hsources
  have hnotes : ((p.notes.map fun n => cleanText n 500 cleaning).filter fun n => !n.isEmpty).all
      (fun n => decide (utf16Length n ≤ 500)) = true := by
    refine Option.all_eq_true _ _ |>.mpr fun n hn => decide_eq_true ?_
    obtain ⟨raw, -, rfl⟩ := map_eq_some_iff.1 (eq_some_of_filter_eq_some hn)
    exact utf16Length_bound_le (by decide)
  have hnodup : (p.artifacts.getD []).Nodup := by
    refine Nodup.of_map (fun a => artifactLabel a.scope) ?_
    exact Nodup.of_map _ h.artifactsApart
  have htable : (!(decide (p.deliverable = .table) &&
      (cleanNames cleaning p.requiredFields).isEmpty)) := by
    rw [cleanNames, isEmpty_map, Bool.not_eq_true', Bool.and_eq_false_imp, decide_eq_true_eq,
      isEmpty_eq_false_iff]
    exact h.tableFields
  have horder : (!(decide (p.deliverable = .table) && (p.ranking.map fun r =>
      (⟨cleanText r.field 60 cleaning, r.ascending⟩ : ContractRanking)).any fun r =>
        !(cleanNames cleaning p.requiredFields).any fun f =>
          pf.toLowerCase f == pf.toLowerCase r.field)) = true := by
    rw [Bool.not_eq_true', Bool.and_eq_false_imp, decide_eq_true_eq]
    intro ht
    cases hr : p.ranking with
    | none => rfl
    | some r =>
      obtain ⟨f, hf, heq⟩ := h.ranking ht r hr
      simp only [map_some, any_some, Bool.not_eq_false', List.any_eq_true, beq_iff_eq]
      exact ⟨f, hf, heq⟩
  have hfilter : ((p.filters.getD []).map (cleanFilter cleaning)).all
      (fun f => boundedText 60 f.name && boundedText 120 f.value) = true ↔
        ∀ f ∈ p.filters.getD [], cleaning.Leaves f.name ∧ cleaning.Leaves f.value := by
    simp only [List.all_map, List.all_eq_true, Function.comp_apply, cleanFilter, Bool.and_eq_true,
      boundedText_cleanText (by decide : 0 < 60), boundedText_cleanText (by decide : 0 < 120)]
  have hranked : (p.ranking.map fun r =>
      (⟨cleanText r.field 60 cleaning, r.ascending⟩ : ContractRanking)).all
        (fun r => boundedText 60 r.field) = true ↔
          ∀ r, p.ranking = some r → cleaning.Leaves r.field := by
    cases p.ranking with
    | none => simp
    | some r =>
      simp only [map_some, all_some, boundedText_cleanText (by decide : 0 < 60),
        some.injEq, forall_eq']
  have hfill : (p.fill.map (cleanFill cleaning)).all (schemaValid pf) ↔
      ∀ f, p.fill = some f → ∀ name ∈ f.fields.getD [], cleaning.Leaves name := by
    cases hf : p.fill with
    | none => simp
    | some f =>
      simp only [map_some, all_some, schemaValid_cleanFill (h.fill f hf),
        some.injEq, forall_eq']
  simp only [TaskContractBody.schemaValid, Bool.and_eq_true, decide_eq_true_eq, not_duplicate_iff]
  simp only [normalizedBody, all_cleanNames, hfilter, hranked, hfill,
    boundedText_cleanText (by decide : 0 < 200)]
  constructor
  · rintro ⟨⟨⟨⟨⟨⟨⟨⟨⟨⟨⟨⟨⟨⟨⟨⟨⟨hsubject, hnames⟩, -⟩, hconditions⟩, -⟩, -⟩, -⟩, hranking⟩, -⟩, -⟩,
      hlisted⟩, -⟩, -⟩, -⟩, -⟩, -⟩, -⟩, -⟩
    exact (leaves_texts_iff cleaning p).2 ⟨hsubject, hnames, hconditions, hranking, hlisted⟩
  · intro hleaves
    obtain ⟨hsubject, hnames, hconditions, hranking, hlisted⟩ :=
      (leaves_texts_iff cleaning p).1 hleaves
    exact ⟨⟨⟨⟨⟨⟨⟨⟨⟨⟨⟨⟨⟨⟨⟨⟨⟨hsubject, hnames⟩, by rw [cleanNames, length_map]; exact hfields⟩,
      hconditions⟩, by rw [length_map]; exact hfilters⟩, hhosts⟩, hcount⟩, hranking⟩, hlimit⟩,
      hnotes⟩, hlisted⟩, hartifacts⟩, hnodup⟩, h.fieldsApart⟩, h.filtersApart⟩,
      h.sourcesApart.of_map _⟩, htable⟩, horder⟩

/-- **Normalizing is safe unless it empties a text.** On parameters the tool's schema accepts, a
contract the schema accepts or an issue is returned exactly when the parameters are refused, or
masking and sanitizing leave of every name, value and subject a character that is neither a
control character nor white space.

**Proof sketch.** What is refused is what is not admissible. Of admissible parameters the schema
gets the cleaned body, whose lists are bounded and whose names are apart, so it accepts the body
exactly when no text is empty. -/
theorem normalizesSafely_iff (size : String → Nat) (pf : Platform)
    (parse : String → Option SourceUrl) (cleaning : ContractTextCleaning) (p : TaskContractParams)
    (haccepts : p.schemaAccepts size = true) :
    NormalizesSafely pf parse cleaning p ↔
      ¬p.Admissible pf parse cleaning ∨ ∀ text ∈ p.texts, cleaning.Leaves text := by
  unfold NormalizesSafely
  rw [normalizeContract_isOk_iff]
  by_cases hadmissible : p.Admissible pf parse cleaning
  · have hvalid := schemaValid_normalizedBody haccepts hadmissible
    simp only [not_not.2 hadmissible, false_or]
    constructor
    · rintro ⟨body, -, -, hleaves⟩
      exact hleaves
    · intro hleaves
      refine ⟨_, (normalizeContract_eq_ok pf parse cleaning p).2 ⟨hadmissible, ?_⟩,
        hvalid.2 hleaves, hleaves⟩
      rw [parseContract, if_pos (hvalid.2 hleaves)]
  · exact ⟨fun _ => .inl hadmissible, fun _ => .inl hadmissible⟩

def answerParams (subject : String) : TaskContractParams where
  deliverable := .answer
  subject := subject

/-- A sanitizer that finds nothing. -/
def plainCleaning : ContractTextCleaning := ⟨id, none, none⟩

theorem normalizesSafely_iff_answer :
    NormalizesSafely asciiPlatform (fun _ => none) plainCleaning (answerParams "laptops") ↔
      ¬(answerParams "laptops").Admissible asciiPlatform (fun _ => none) plainCleaning ∨
        ∀ text ∈ (answerParams "laptops").texts, plainCleaning.Leaves text :=
  normalizesSafely_iff String.length asciiPlatform (fun _ => none) plainCleaning _
    (by decide +kernel)

/-- A subject of one control character is accepted by the tool's schema, and makes normalizing
throw. -/
theorem control_character_throws :
    ¬∀ (size : String → Nat) (pf : Platform) (parse : String → Option SourceUrl)
      (cleaning : ContractTextCleaning) (p : TaskContractParams),
      p.schemaAccepts size = true → NormalizesSafely pf parse cleaning p := by
  intro h
  have hresult : normalizeContract asciiPlatform (fun _ => none) plainCleaning
      (answerParams "\x01") = .ok none := by decide +kernel
  rcases h String.length asciiPlatform (fun _ => none) plainCleaning (answerParams "\x01")
    (by decide +kernel) with ⟨issue, hissue⟩ | ⟨body, hbody, -⟩
  · rw [hresult] at hissue
    cases hissue
  · rw [hresult] at hbody
    cases hbody

end Yantra
