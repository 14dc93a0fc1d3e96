import Yantra.Agent.ContractDelivery
import Yantra.Agent.EvidenceRefs
import Yantra.Agent.Fulfillment
import Yantra.Lib.Threaded

/-!
# Composing a Brief

`composeAgentBrief`: the content an agent publishes is resolved against the evidence and the
actions of its run, checked against the contract, and written with numbered sources.

The composer is modelled up to the content and the conditions it returns. Whether the evidence of
a condition bears out its value is `ComposeContext.supported`, and whether the document store
resolves an anchor is `ComposeContext.resolveAnchor`; what is proved holds whatever they answer.
A callback that throws makes the composition throw, which is `none`.

## Main definitions

* `ComposeContext`, `ComposeState`, `ComposeContext.resolve` — references and
  what they resolve to.
* `BriefContent`, `composeAgentBrief` — the content written from it.
-/

namespace Yantra

/-! ## Reading published content -/

/-- `CONTROLS` -/
def isControl (c : Char) : Bool :=
  c.toNat ≤ 9 || (0xb ≤ c.toNat && c.toNat ≤ 0x1f) || (0x7f ≤ c.toNat && c.toNat ≤ 0x9f)

def publishText (value : Option Value) (max : ℕ) (multiline : Bool) : String :=
  let text := match value with
    | some (.str s) => s
    | _ => ""
  let clean := (text.toList.filter fun c => !isControl c).map fun c =>
    if c == '\r' || (!multiline && c == '\n') then ' ' else c
  JsText.utf16Take max (JsText.trim (String.ofList clean))

def asPublishRecord : Option Value → List (String × Value)
  | some (.obj fields) => fields
  | _ => []

def publishArray : Option Value → List Value
  | some (.arr items) => items
  | _ => []

def refsFrom (value : Option Value) : List String :=
  ((publishArray value).take 8).filterMap fun
    | .str ref => some ref
    | _ => none

mutual

/-- `String(value)`, nothing where it throws: an object with a `toString` of its own. -/
def coerceString : Value → Option String
  | .str s => some s
  | .num text => some text
  | .bool b => some (if b then "true" else "false")
  | .null => some "null"
  | .date iso => some iso
  | .builtin name => some name
  | .arr items => (coerceItems items).map (",".intercalate ·)
  | .obj fields => if (Value.field? "toString" fields).isSome then none else some "[object Object]"

/-- The items of an array as `join` writes them. -/
def coerceItems : List Value → Option (List String)
  | [] => some []
  | .null :: items => (coerceItems items).map ("" :: ·)
  | item :: items => do
    let head ← coerceString item
    let tail ← coerceItems items
    return head :: tail

end

def publishCell : Value → PublishCell
  | .null => .null
  | .bool b => .bool b
  | .num text => if Value.nonFinite text then .str text else .num text
  | value =>
    let rendered := (coerceString value).getD (match value with
      | .arr _ => "[object Array]"
      | _ => "[object Object]")
    .str (publishText (some (.str rendered)) 300 false)

/-! ## The context and the state of a composition -/

structure EvidenceEntry where
  url : String
  finalUrl : Option String
  title : Option String
  excerpt : Option String
  fetchedAt : String
  publishedAt : Option String
  /-- The run-wide evidence ID, an `S` and a number. -/
  sourceId : Option String
  deriving DecidableEq, Repr, Inhabited

structure ComposeContext where
  actions : Option (List ActionLedgerEntry)
  ledger : List EvidenceEntry
  /-- Whether the document store resolves an anchored reference. -/
  resolveAnchor : String → Bool
  contract : Option TaskContractBody
  mode : ComposeMode
  /-- Whether the evidence of a condition bears out its value. -/
  supported : DeliveryConstraint → Bool

/-- The runtime's dates besides its text and URLs. -/
structure BriefPlatform extends Platform where
  /-- `new Date(text).toISOString()`, nothing where the date does not parse. -/
  isoDate : String → Option String

def distinctSources : List String → List EvidenceEntry → List EvidenceEntry
  | _, [] => []
  | seen, entry :: entries =>
    match entry.sourceId with
    | none => entry :: distinctSources seen entries
    | some id =>
      if seen.contains id then distinctSources seen entries
      else entry :: distinctSources (id :: seen) entries

namespace ComposeContext

variable (ctx : ComposeContext)

def evidence : List EvidenceEntry := distinctSources [] ctx.ledger

def byId : OrderedMap String ℕ :=
  .ofList (ctx.evidence.zipIdx.filterMap fun (entry, i) => entry.sourceId.map (·, i))

end ComposeContext

def idOf (entry : ActionLedgerEntry) : String := "A" ++ toString entry.stamp.seq

/-- The actions of the run by their IDs. -/
def ComposeContext.byAction (ctx : ComposeContext) : OrderedMap String ActionLedgerEntry :=
  .ofList ((ctx.actions.getD []).map fun entry => (idOf entry, entry))

structure ResolvedRef where
  ref : String
  sourceId : String
  anchor : Option ℕ
  entryIndex : ℕ
  deriving DecidableEq, Repr, Inhabited

inductive RefTarget where
  | action (entry : ActionLedgerEntry)
  | page (ref : ResolvedRef)
  deriving DecidableEq, Repr, Inhabited

/-! ## References -/

/-- Runs of consecutive numbers, the current one from `first` to `last`. -/
def sourceRanges : ℕ → ℕ → List ℕ → List String
  | first, last, [] => [rangeText first last]
  | first, last, n :: ns =>
    if n = last + 1 then sourceRanges first n ns else rangeText first last :: sourceRanges n n ns
where
  /-- A range as it is shown. -/
  rangeText (first last : ℕ) : String :=
    if first = last then "S" ++ toString first
    else "S" ++ toString first ++ "–S" ++ toString last

def knownSources (ids : List String) : String :=
  let values := (ids.map fun id => Nat.ofDigitChars 10 (id.toList.drop 1) 0).mergeSort
  match values with
  | [] => "(none)"
  | n :: ns => JsText.utf16Take 120 (", ".intercalate (sourceRanges n n ns))

/-- The actions of the run as they are shown. -/
def knownActions (ids : List String) : String :=
  match ids.head?, ids.getLast? with
  | some first, some last => if ids.length = 1 then first else first ++ "-" ++ last
  | _, _ => "(none)"

def ComposeContext.target (ctx : ComposeContext) (ref pointer : String) :
    Except ComposeIssue RefTarget :=
  if ctx.actions.isSome ∧ (parseActionRef ref).isSome then
    match ctx.byAction.get? ref with
    | none => .error ⟨.referenceActionUnknown, pointer, [("ref", ref), ("pointer", pointer),
        ("known", knownActions ctx.byAction.keys)]⟩
    | some entry => .ok (.action entry)
  else
    match parseEvidenceRef ref with
    | none => .error ⟨.referenceUnknown, pointer, [("ref", ref), ("pointer", pointer),
        ("known", knownSources ctx.byId.keys)]⟩
    | some parsed =>
      match ctx.byId.get? parsed.sourceId with
      | none => .error ⟨.referenceUnknown, pointer, [("ref", ref), ("pointer", pointer),
          ("known", knownSources ctx.byId.keys)]⟩
      | some entryIndex =>
        if parsed.anchor.isSome ∧ !ctx.resolveAnchor ref then
          .error ⟨.referenceAnchorUnknown, pointer, [("ref", ref), ("pointer", pointer),
            ("source", parsed.sourceId)]⟩
        else .ok (.page ⟨ref, parsed.sourceId, parsed.anchor, entryIndex⟩)

def ComposeContext.resolves (ctx : ComposeContext) (ref : String) : Bool :=
  match ctx.target ref "" with
  | .ok _ => true
  | .error _ => false

/-- Whether a reference resolves to a page or a record of one. -/
def ComposeContext.resolvesPage (ctx : ComposeContext) (ref : String) : Bool :=
  match ctx.target ref "" with
  | .ok (.page _) => true
  | _ => false

/-- What a composition has found so far. -/
structure ComposeState where
  issues : List ComposeIssue := []
  resolved : OrderedMap String ResolvedRef := .empty
  resolvedActions : OrderedMap String ActionLedgerEntry := .empty

def ComposeState.report (s : ComposeState) (issue : ComposeIssue) : ComposeState :=
  { s with issues := s.issues ++ [issue] }

def ComposeState.reportIf (s : ComposeState) (cause : Bool) (issue : ComposeIssue) :
    ComposeState :=
  if cause then s.report issue else s

def ComposeContext.resolve (ctx : ComposeContext) (ref pointer : String) (s : ComposeState) :
    Bool × ComposeState :=
  match ctx.target ref pointer with
  | .error issue => (false, s.report issue)
  | .ok (.action entry) => (true, { s with resolvedActions := s.resolvedActions.set ref entry })
  | .ok (.page r) => (true, { s with resolved := s.resolved.set ref r })

def resolveAll (ctx : ComposeContext) (pointer : ℕ → String) (refs : List String)
    (s : ComposeState) : List String × ComposeState :=
  let (kept, s) := Threaded.filterState
    (fun (ri : String × ℕ) s => ctx.resolve ri.1 (pointer ri.2) s) refs.zipIdx s
  (kept.map Prod.fst, s)

/-- `/\[\d+\]/gu` -/
def NUMERIC_REF : Regex Char :=
  .seqs [.sym (· == '['), .plus (.sym isAsciiDigit), .sym (· == ']')]

/-- Resolve the inline references of one kind, keeping the markers of those that resolve. -/
def inlineRefs (ctx : ComposeContext) (pattern : Regex Char) (pointer : String) (text : List Char)
    (refs : List String) (s : ComposeState) : List Char × List String × ComposeState :=
  Regex.spliceState text (fun m (refs, s) =>
    let ref := String.ofList ((m.group 1).getD [])
    let (known, s) := ctx.resolve ref pointer s
    if known then (m.text, refs ++ [ref], s)
    else (if ctx.mode = .assembled then [] else m.text, refs, s))
    0 (Regex.matchAll pattern text) (refs, s)

def textRefs (ctx : ComposeContext) (text : String) (explicit : List String) (pointer : String)
    (s : ComposeState) : DeliveryFinding × ComposeState :=
  let (refs, s) := resolveAll ctx (fun i => pointer ++ "/sources/" ++ toString i) explicit s
  let (cleaned, s) := Regex.spliceState text.toList (fun m s =>
    (if ctx.mode = .assembled then [] else m.text,
      s.reportIf (ctx.mode = .tool) ⟨.referenceNumeric, pointer, [("pointer", pointer)]⟩))
    0 (Regex.matchAll NUMERIC_REF text.toList) s
  let (cleaned, refs, s) := inlineRefs ctx INLINE_EVIDENCE_REF pointer cleaned refs s
  let (cleaned, refs, s) :=
    if ctx.actions.isSome then inlineRefs ctx INLINE_ACTION_REF pointer cleaned refs s
    else (cleaned, refs, s)
  (⟨String.ofList cleaned, refs.eraseDups, pointer⟩, s)

/-! ## The parts of a publication -/

def gatherFinding (ctx : ComposeContext) (vi : Value × ℕ) (s : ComposeState) :
    DeliveryFinding × ComposeState :=
  let finding := asPublishRecord (some vi.1)
  let text := match vi.1 with
    | .str _ => some vi.1
    | _ => Value.field? "text" finding
  textRefs ctx (publishText text 4000 false) (refsFrom (Value.field? "sources" finding))
    ("key_findings/" ++ toString vi.2) s

/-- A section with its references resolved. -/
structure CitedSection where
  heading : String
  bodyMd : String
  refs : List String
  pointer : String
  deriving DecidableEq, Repr, Inhabited

def gatherSection (ctx : ComposeContext) (vi : Value × ℕ) (s : ComposeState) :
    CitedSection × ComposeState :=
  let fields := asPublishRecord (some vi.1)
  let (body, s) := textRefs ctx (publishText (Value.field? "body_md" fields) 4000 true)
    (refsFrom (Value.field? "sources" fields)) ("sections/" ++ toString vi.2) s
  (⟨publishText (Value.field? "heading" fields) 120 false, body.text, body.refs, body.pointer⟩, s)

/-- A row of a table whose header has `width` columns. -/
def gatherRow (ctx : ComposeContext) (width : ℕ) (rowSources : List Value) (vi : Value × ℕ)
    (s : ComposeState) : DeliveryRow × ComposeState :=
  let row := toString vi.2
  let cells := (publishArray (some vi.1)).map publishCell
  let pointer := "table/rows/" ++ row
  let refs := refsFrom rowSources[vi.2]?
  let s := s.reportIf (cells.length ≠ width) ⟨.rowWidth, pointer,
    [("row", row), ("width", toString cells.length), ("columns", toString width)]⟩
  let s := s.reportIf (ctx.contract.any (·.deliverable = .table) && !refs.isEmpty &&
      refs.all (fun ref => (parseActionRef ref).isSome) && ctx.actions.isSome)
    ⟨.rowActionOnly, pointer, [("row", row)]⟩
  let s := s.reportIf refs.isEmpty ⟨.rowUncited, "table/row_sources/" ++ row, [("row", row)]⟩
  let (refs, s) :=
    resolveAll ctx (fun j => "table/row_sources/" ++ row ++ "/" ++ toString j) refs s
  (⟨cells, refs, pointer⟩, s)

def reportedStatus : Option Value → ConditionStatus
  | some (.str s) => if s = "verified" then .verified else if s = "violated" then .violated
      else .unverified
  | _ => .unverified

def gatherCondition (ctx : ComposeContext) (vi : Value × ℕ) (s : ComposeState) :
    DeliveryConstraint × ComposeState :=
  let condition := asPublishRecord (some vi.1)
  let (refs, s) := resolveAll ctx
    (fun i => "constraints/" ++ toString vi.2 ++ "/sources/" ++ toString i)
    (refsFrom (Value.field? "sources" condition)) s
  ({ name := publishText (Value.field? "name" condition) 60 false
     value := publishText (Value.field? "value" condition) 120 false
     status := reportedStatus (Value.field? "status" condition)
     refs := refs }, s)

/-- An item reported as not delivered. -/
def gatherUnmet (value : Value) : UnmetItem :=
  let item := asPublishRecord (some value)
  ⟨publishText (Value.field? "item" item) 80 false,
    publishText (Value.field? "reason" item) 200 false⟩

/-- A publication with its references resolved and the contract checked. -/
structure Gathered where
  overview : DeliveryFinding
  sections : List CitedSection
  tablePresent : Bool
  columns : List String
  delivery : DeliveryResult
  constraints : List DeliveryConstraint
  state : ComposeState

/-- The evidence a reference resolved to comes from a required source. -/
def ComposeContext.onContract (ctx : ComposeContext) (pf : Platform) (s : ComposeState)
    (refs : List String) : Bool :=
  refs.any fun ref =>
    match (s.resolved.get? ref).bind fun r => ctx.evidence[r.entryIndex]? with
    | none => false
    | some entry => ctx.contract.any fun contract =>
        hostSatisfiesRequiredSource pf (entry.finalUrl.getD entry.url) contract

structure GatheredTexts where
  overview : DeliveryFinding
  findings : List DeliveryFinding
  sections : List CitedSection

def gatherTexts (ctx : ComposeContext) (raw : List (String × Value)) (s : ComposeState) :
    GatheredTexts × ComposeState :=
  let (overview, s) :=
    textRefs ctx (publishText (Value.field? "overview" raw) 20000 true) [] "overview" s
  let (findings, s) := Threaded.mapState (gatherFinding ctx)
    ((publishArray (Value.field? "key_findings" raw)).take 20).zipIdx s
  let (sections, s) := Threaded.mapState (gatherSection ctx)
    ((publishArray (Value.field? "sections" raw)).take 8).zipIdx s
  (⟨overview, findings.filter fun finding => finding.text ≠ "", sections⟩, s)

structure GatheredTable where
  present : Bool
  columns : List String
  rows : List DeliveryRow

def gatherTable (ctx : ComposeContext) (raw : List (String × Value)) (s : ComposeState) :
    GatheredTable × ComposeState :=
  let table := (Value.field? "table" raw).map fun table => asPublishRecord (some table)
  let columns := ((publishArray (table.bind (Value.field? "columns"))).take 12).map fun column =>
    publishText (some column) 60 false
  let rowSources := publishArray (table.bind (Value.field? "row_sources"))
  let rawRows := (publishArray (table.bind (Value.field? "rows"))).take 50
  let s := s.reportIf (table.isSome && rowSources.length ≠ rawRows.length)
    ⟨.rowSourcesLength, "table/row_sources",
      [("row_sources", toString rowSources.length), ("rows", toString rawRows.length)]⟩
  let (rows, s) := Threaded.mapState (gatherRow ctx columns.length rowSources) rawRows.zipIdx s
  (⟨table.isSome, columns, rows⟩, s)

def gatherDelivery (pf : Platform) (ctx : ComposeContext) (raw : List (String × Value))
    (texts : GatheredTexts) (table : GatheredTable) (s : ComposeState) : DeliveryResult :=
  checkContractDelivery pf
    { rows := table.rows
      findings := texts.findings
      columns := table.columns
      tablePresent := table.present
      unmet := ((publishArray (Value.field? "unmet"
        (asPublishRecord (Value.field? "fulfillment" raw)))).take 12).map gatherUnmet
      contract := ctx.contract
      mode := ctx.mode
      onContract := ctx.onContract pf s }

def gatherConditions (ctx : ComposeContext) (raw : List (String × Value)) (s : ComposeState) :
    List DeliveryConstraint × ComposeState :=
  Threaded.mapState (gatherCondition ctx)
    ((publishArray (Value.field? "constraints" raw)).take 12).zipIdx s

/-- The publication resolved part by part: texts, table and, after the contract was checked,
conditions. -/
def gather (pf : Platform) (ctx : ComposeContext) (raw : List (String × Value)) : Gathered :=
  let (texts, s) := gatherTexts ctx raw {}
  let (table, s) := gatherTable ctx raw s
  let delivery := gatherDelivery pf ctx raw texts table s
  let s := { s with issues := s.issues ++ delivery.issues }
  let (conditions, s) := gatherConditions ctx raw s
  { overview := texts.overview
    sections := texts.sections
    tablePresent := table.present
    columns := table.columns
    delivery := delivery
    constraints := (reconcileConstraints pf conditions ctx.contract ctx.supported).1
    state := s }

/-! ## Numbering -/

namespace Gathered

variable (g : Gathered) (ctx : ComposeContext)

/-- The sources that references cite. -/
def sourceIds (refs : List String) : List String :=
  refs.filterMap fun ref => (g.state.resolved.get? ref).map ResolvedRef.sourceId

def alternativeRefs : List String :=
  ((g.delivery.alternativesRows.map DeliveryRow.refs ++
    g.delivery.alternativesFindings.map DeliveryFinding.refs).flatten).eraseDups

/-- The references of every part of the content, in the order in which they number sources. -/
def citingRefs : List (List String) :=
  g.overview.refs :: g.delivery.findings.map DeliveryFinding.refs ++
    g.sections.map CitedSection.refs ++ [g.alternativeRefs] ++
    g.delivery.rows.map DeliveryRow.refs ++ g.constraints.map DeliveryConstraint.refs

/-- The cited sources, in the order of their first citation. -/
def citedIds : List String := (g.citingRefs.flatMap g.sourceIds).eraseDups

def isCited (entry : EvidenceEntry) : Bool := g.citedIds.contains (entry.sourceId.getD "")

/-- The evidence as it is numbered: cited entries first. -/
def order : List ℕ :=
  g.citedIds.map (fun id => (ctx.byId.get? id).getD 0) ++
    (List.range ctx.evidence.length).filter fun i => !g.isCited (ctx.evidence.getD i default)

def numbers : OrderedMap ℕ ℕ := .ofList ((g.order ctx).zipIdx.map fun (entry, i) => (entry, i + 1))

def citations (refs : List String) : List ℕ :=
  (g.sourceIds refs).eraseDups.map fun id =>
    ((g.numbers ctx).get? ((ctx.byId.get? id).getD 0)).getD 0

/-- The cited actions, in the order of their first citation. -/
def actionOrder : List String := g.state.resolvedActions.keys

/-- The actions that references cite among those listed. -/
def actionRefs (refs : List String) : Option (List String) :=
  let ids := (refs.filter (g.actionOrder.take 40).contains).take 8
  if ids.isEmpty then none else some ids

/-! ## Texts -/

/-- The number written for a reference. -/
def marker (n : ℕ) : List Char := ('[' :: (toString n).toList) ++ [']']

/-- A text with its references replaced by numbers; a reference that never resolved throws. -/
def rewrite (text : String) : Option String :=
  let markers := Regex.matchAll INLINE_EVIDENCE_REF text.toList
  let refOf (m : Regex.Match Char) := String.ofList ((m.group 1).getD [])
  if markers.all fun m => g.state.resolved.has (refOf m) then
    some (String.ofList (Regex.splice text.toList (fun m =>
      marker (((g.state.resolved.get? (refOf m)).bind fun r =>
        (g.numbers ctx).get? r.entryIndex).getD 0)) 0 markers))
  else none

/-- The body of a section, with the numbers of the sources it does not cite inline at its end. -/
def sectionBody (section_ : CitedSection) : Option String := do
  let body ← g.rewrite ctx section_.bodyMd
  let inlineNumbers := g.citations ctx ((Regex.matchAll INLINE_EVIDENCE_REF
    section_.bodyMd.toList).map fun m => String.ofList ((m.group 1).getD []))
  let missing := (g.citations ctx section_.refs).filter fun n => !inlineNumbers.contains n
  return body ++
    if missing.isEmpty then "" else "\n\n" ++ String.ofList (missing.flatMap marker)

def alternativesCell (cell : PublishCell) : String :=
  let text := match cell with
    | .null => ""
    | .bool b => if b then "✓" else "✗"
    | .str s => s
    | .num text => text
  String.ofList (lineBreaks (text.toList.flatMap fun c => if c = '|' then ['\\', '|'] else [c]))
where
  /-- `/\r?\n/gu` replaced by a space. -/
  lineBreaks : List Char → List Char
    | [] => []
    | '\r' :: '\n' :: cs => ' ' :: lineBreaks cs
    | '\n' :: cs => ' ' :: lineBreaks cs
    | c :: cs => c :: lineBreaks cs

def alternativesBody : Option String := do
  let markers (refs : List String) := String.ofList ((g.citations ctx refs).flatMap marker)
  let line (cells : List String) := "| " ++ " | ".intercalate cells ++ " |"
  let header := g.columns ++ ["Sources"]
  let rows := g.delivery.alternativesRows
  let table := if rows.isEmpty then [] else
    ["\n".intercalate (line (header.map fun name => alternativesCell (.str name)) ::
      line (header.map fun _ => "---") ::
      rows.map fun row => line (row.cells.map alternativesCell ++ [markers row.refs]))]
  let bullets ← g.delivery.alternativesFindings.mapM fun finding => do
    let text ← g.rewrite ctx finding.text
    return "- " ++ text ++ " " ++ markers finding.refs
  let bullets := if bullets.isEmpty then [] else ["\n".intercalate bullets]
  return "\n\n".intercalate (table ++ bullets)

end Gathered

/-! ## The content -/

structure BriefAction where
  id : String
  epoch : Option ℕ
  host : Option String
  kind : String
  deriving DecidableEq, Repr, Inhabited

def ActionLedgerEntry.briefKind : ActionLedgerEntry → String
  | .fillCommitted .. => "fill"
  | .clickExecuted .. => "click"
  | .submitRefused .. => "submit_refused"
  | .capture .. => "capture"

def briefActionOf (entry : ActionLedgerEntry) : BriefAction :=
  { id := idOf entry
    epoch := entry.stamp.epoch
    host := if entry.stamp.host.isEmpty then none else some entry.stamp.host
    kind := entry.briefKind }

structure KeyFinding where
  text : String
  citations : List ℕ
  actions : Option (List String)
  editorial : Bool
  deriving DecidableEq, Repr, Inhabited

/-- A section of the content; `alternatives` marks the one the runtime owns. -/
structure BriefSection where
  heading : String
  alternatives : Bool := false
  bodyMd : String
  citations : List ℕ
  actions : Option (List String) := none
  deriving DecidableEq, Repr, Inhabited

/-- The table of the content. -/
structure BriefComparison where
  columns : List String
  rows : List (List PublishCell)
  rowCitations : List (List ℕ)
  rowActions : Option (List (List String))
  deriving DecidableEq, Repr, Inhabited

structure SourceRecord where
  url : String
  finalUrl : Option String
  title : Option String
  excerpt : Option String
  fetchedAt : Option String
  publishedAt : Option String
  cited : Bool
  deriving DecidableEq, Repr, Inhabited

/-- A source of the content: one of the run, or, in a run without evidence, what the model
published as one. -/
inductive ContentSource where
  | consulted (record : SourceRecord)
  | published (value : Value)
  deriving Repr, Inhabited

/-- Whether a source is marked as cited, where it says so. -/
def ContentSource.cited : ContentSource → Option Bool
  | .consulted record => some record.cited
  | .published value =>
    match Value.field? "cited" (asPublishRecord (some value)) with
    | some (.bool b) => some b
    | _ => none

structure BriefConstraint where
  name : String
  value : String
  status : ConditionStatus
  citations : List ℕ
  deriving DecidableEq, Repr, Inhabited

structure BriefContent where
  actions : Option (List BriefAction)
  title : String
  overview : String
  keyFindings : List KeyFinding
  sections : List BriefSection
  facets : Option BriefComparison
  sources : List ContentSource
  constraints : Option (List BriefConstraint)
  deriving Repr, Inhabited

namespace Gathered

variable (g : Gathered) (ctx : ComposeContext)

def listedActions : Option (List BriefAction) :=
  if ctx.actions.isSome ∧ g.actionOrder ≠ [] then
    some ((g.actionOrder.take 40).filterMap fun id =>
      (g.state.resolvedActions.get? id).map briefActionOf)
  else none

def keyFinding (finding : DeliveryFinding) : Option KeyFinding := do
  let text ← g.rewrite ctx finding.text
  return { text := text
           citations := g.citations ctx finding.refs
           actions := g.actionRefs finding.refs
           editorial := (g.citations ctx finding.refs).isEmpty &&
             (g.actionRefs finding.refs).isNone }

def briefSection (section_ : CitedSection) : Option BriefSection := do
  let body ← g.sectionBody ctx section_
  return { heading := section_.heading
           bodyMd := body
           citations := g.citations ctx section_.refs
           actions := g.actionRefs section_.refs }

def alternativesSection : Option (List BriefSection) :=
  if g.delivery.alternativesRows.isEmpty && g.delivery.alternativesFindings.isEmpty then some []
  else do
    let body ← g.alternativesBody ctx
    let hosts := ", ".intercalate ((ctx.contract.map (·.requiredSources)).getD [])
    return [{ heading := "Alternatives (not from " ++ hosts ++ ")"
              alternatives := true
              bodyMd := body
              citations := g.citations ctx g.alternativeRefs }]

def comparison : Option BriefComparison :=
  if !g.tablePresent || g.delivery.rows.isEmpty then none
  else some
    { columns := g.columns
      rows := g.delivery.rows.map DeliveryRow.cells
      rowCitations := g.delivery.rows.map fun row => g.citations ctx row.refs
      rowActions :=
        if ctx.actions.isSome && g.delivery.rows.any fun row => (g.actionRefs row.refs).isSome then
          some (g.delivery.rows.map fun row => (g.actionRefs row.refs).getD [])
        else none }

def sourceRecord (rt : BriefPlatform) (entry : EvidenceEntry) : SourceRecord :=
  { url := entry.url
    finalUrl := entry.finalUrl.filter fun url => (rt.hostname url).isSome
    title := entry.title
    excerpt := entry.excerpt
    fetchedAt := rt.isoDate entry.fetchedAt
    publishedAt := entry.publishedAt.bind rt.isoDate
    cited := g.isCited entry }

def sources (rt : BriefPlatform) (raw : List (String × Value)) : List ContentSource :=
  if ctx.evidence.isEmpty then
    (publishArray (Value.field? "sources" raw)).map ContentSource.published
  else (g.order ctx).map fun i => .consulted (g.sourceRecord rt (ctx.evidence.getD i default))

def briefConstraint (condition : DeliveryConstraint) : BriefConstraint :=
  { name := condition.name
    value := condition.value
    status := condition.status
    citations := g.citations ctx condition.refs }

def content (rt : BriefPlatform) (raw : List (String × Value)) : Option BriefContent := do
  let overview ← g.rewrite ctx g.overview.text
  let keyFindings ← g.delivery.findings.mapM (g.keyFinding ctx)
  let sections ← g.sections.mapM (g.briefSection ctx)
  let alternatives ← g.alternativesSection ctx
  return { actions := g.listedActions ctx
           title := publishText (Value.field? "title" raw) 200 false
           overview := overview
           keyFindings := keyFindings
           sections := sections ++ alternatives
           facets := g.comparison ctx
           sources := g.sources ctx rt raw
           constraints := if g.constraints.isEmpty then none
             else some (g.constraints.map (g.briefConstraint ctx)) }

/-- The issues a publication is refused for: an assembled answer keeps what only a reference is
wrong with. -/
def blocking : List ComposeIssue :=
  if ctx.mode = .assembled then g.state.issues.filter fun issue => !issue.cause.isReference
  else g.state.issues

end Gathered

/-- What a composition returns: the content, and the evidence fulfillment is judged from. -/
structure ComposedBrief where
  content : BriefContent
  deliverableGaps : List String
  constraints : List DeliveryConstraint
  claimedMet : Option Bool
  deriving Repr, Inhabited

/-- The model's own claim to have met the task. -/
def claimedMet (raw : List (String × Value)) : Option Bool :=
  match Value.field? "met" (asPublishRecord (Value.field? "fulfillment" raw)) with
  | some (.bool b) => some b
  | _ => none

/-- `composeAgentBrief`; nothing where it throws. -/
def composeAgentBrief (rt : BriefPlatform) (ctx : ComposeContext) (input : Value) :
    Option (Except (List ComposeIssue) ComposedBrief) :=
  let raw := asPublishRecord (some input)
  let g := gather rt.toPlatform ctx raw
  if g.blocking ctx ≠ [] then some (.error (g.blocking ctx))
  else (g.content ctx rt raw).map fun content =>
    .ok { content := content
          deliverableGaps := g.delivery.deliverableGaps
          constraints := g.constraints
          claimedMet := claimedMet raw }

end Yantra
