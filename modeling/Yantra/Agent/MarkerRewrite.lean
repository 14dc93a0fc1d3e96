import Yantra.Agent.EvidenceMarkers

/-!
# The markers of a composed answer

Where the runtime assembles an answer from the model's draft, markers that name no source are
deleted and the others become numbers. A deletion can bring the characters of another marker
together; that one was never resolved, and rewriting it throws. Headings, and the cells of a table
of alternatives, are not cleaned at all.

## Main definitions

* `DraftText.cleaned` — a text of the draft after the deletions.
* `MarkersResolve` — what the draft must be like for it.

## Main results

* `markersRewritten_iff` — the one holds exactly where the other does.
-/

namespace Yantra

open List

/-! ## The draft -/

structure DraftText where
  text : String
  sources : List String

def overviewText (raw : List (String × Value)) : DraftText :=
  ⟨publishText (Value.field? "overview" raw) 20000 true, []⟩

def findingText (value : Value) : DraftText :=
  let finding := asPublishRecord (some value)
  let text := match value with
    | .str _ => some value
    | _ => Value.field? "text" finding
  ⟨publishText text 4000 false, refsFrom (Value.field? "sources" finding)⟩

def sectionText (value : Value) : DraftText :=
  let fields := asPublishRecord (some value)
  ⟨publishText (Value.field? "body_md" fields) 4000 true, refsFrom (Value.field? "sources" fields)⟩

def readFindings (raw : List (String × Value)) : List Value :=
  (publishArray (Value.field? "key_findings" raw)).take 20

def readSections (raw : List (String × Value)) : List Value :=
  (publishArray (Value.field? "sections" raw)).take 8

/-- The texts of a draft in which references are resolved. -/
def draftTexts (raw : List (String × Value)) : List DraftText :=
  overviewText raw :: (readFindings raw).map findingText ++ (readSections raw).map sectionText

/-! ## Cleaning -/

def withoutNumeric (text : List Char) : List Char := Regex.replace NUMERIC_REF (fun _ => []) text

/-- A text without the markers of one kind that do not resolve. -/
def withoutUnknown (ctx : ComposeContext) (pattern : Regex Char) (text : List Char) : List Char :=
  Regex.replace pattern (fun m => if ctx.resolves (markerRef m) then m.text else []) text

namespace DraftText

variable (ctx : ComposeContext) (t : DraftText)

def pagesCleaned : List Char :=
  withoutUnknown ctx INLINE_EVIDENCE_REF (withoutNumeric t.text.toList)

/-- The text after the deletions. -/
def cleaned : List Char :=
  if ctx.actions.isSome then withoutUnknown ctx INLINE_ACTION_REF (t.pagesCleaned ctx)
  else t.pagesCleaned ctx

/-- The references that are read from a text: its sources, the markers of pages before their
deletion, and then those of actions. -/
def cited : List String :=
  t.sources ++ (markerRefs INLINE_EVIDENCE_REF (withoutNumeric t.text.toList) ++
    if ctx.actions.isSome then markerRefs INLINE_ACTION_REF (t.pagesCleaned ctx) else [])

/-- The text with the references that resolve. -/
def finding (pointer : String) : DeliveryFinding :=
  ⟨String.ofList (t.cleaned ctx), ((t.cited ctx).filter ctx.resolves).eraseDups, pointer⟩

end DraftText

/-! ## The table and the conditions -/

def draftTable (raw : List (String × Value)) : Option (List (String × Value)) :=
  (Value.field? "table" raw).map fun table => asPublishRecord (some table)

def draftColumns (raw : List (String × Value)) : List String :=
  ((publishArray ((draftTable raw).bind (Value.field? "columns"))).take 12).map fun column =>
    publishText (some column) 60 false

def draftRowSources (raw : List (String × Value)) : List Value :=
  publishArray ((draftTable raw).bind (Value.field? "row_sources"))

def readRows (raw : List (String × Value)) : List Value :=
  (publishArray ((draftTable raw).bind (Value.field? "rows"))).take 50

def rowRefs (raw : List (String × Value)) (row : ℕ) : List String :=
  refsFrom (draftRowSources raw)[row]?

def conditionRefs (raw : List (String × Value)) : List String :=
  ((publishArray (Value.field? "constraints" raw)).take 12).flatMap fun value =>
    refsFrom (Value.field? "sources" (asPublishRecord (some value)))

/-- The references that are read from the texts and the table. -/
def citedBefore (ctx : ComposeContext) (raw : List (String × Value)) : List String :=
  (draftTexts raw).flatMap (·.cited ctx) ++
    (readRows raw).zipIdx.flatMap fun vi => rowRefs raw vi.2

/-- The references that are read from a draft. -/
def citedRefs (ctx : ComposeContext) (raw : List (String × Value)) : List String :=
  citedBefore ctx raw ++ conditionRefs raw

def faultIf (cause : Bool) (issue : ComposeIssue) : List ComposeIssue :=
  if cause then [issue] else []

def rowFaults (ctx : ComposeContext) (raw : List (String × Value)) (vi : Value × ℕ) :
    List ComposeIssue :=
  let row := toString vi.2
  let width := (draftColumns raw).length
  let cells := (publishArray (some vi.1)).map publishCell
  let pointer := "table/rows/" ++ row
  let refs := rowRefs raw vi.2
  faultIf (cells.length ≠ width) ⟨.rowWidth, pointer,
      [("row", row), ("width", toString cells.length), ("columns", toString width)]⟩ ++
    (faultIf (ctx.contract.any (·.deliverable = .table) && !refs.isEmpty &&
        refs.all (fun ref => (parseActionRef ref).isSome) && ctx.actions.isSome)
      ⟨.rowActionOnly, pointer, [("row", row)]⟩ ++
    faultIf refs.isEmpty ⟨.rowUncited, "table/row_sources/" ++ row, [("row", row)]⟩)

/-- What a draft is refused for, references apart: faults of its table. -/
def draftFaults (ctx : ComposeContext) (raw : List (String × Value)) : List ComposeIssue :=
  faultIf ((draftTable raw).isSome && (draftRowSources raw).length ≠ (readRows raw).length)
      ⟨.rowSourcesLength, "table/row_sources",
        [("row_sources", toString (draftRowSources raw).length),
          ("rows", toString (readRows raw).length)]⟩ ++
    (readRows raw).zipIdx.flatMap (rowFaults ctx raw)

/-! ## The draft as it is delivered -/

def draftFindings (ctx : ComposeContext) (raw : List (String × Value)) : List DeliveryFinding :=
  ((readFindings raw).zipIdx.map fun vi =>
    (findingText vi.1).finding ctx ("key_findings/" ++ toString vi.2)).filter (·.text ≠ "")

def draftSection (ctx : ComposeContext) (vi : Value × ℕ) : CitedSection :=
  let body := (sectionText vi.1).finding ctx ("sections/" ++ toString vi.2)
  ⟨publishText (Value.field? "heading" (asPublishRecord (some vi.1))) 120 false, body.text,
    body.refs, body.pointer⟩

def draftRows (ctx : ComposeContext) (raw : List (String × Value)) : List DeliveryRow :=
  (readRows raw).zipIdx.map fun vi =>
    ⟨(publishArray (some vi.1)).map publishCell, (rowRefs raw vi.2).filter ctx.resolves,
      "table/rows/" ++ toString vi.2⟩

/-- Whether one of the references names a page of a required source. -/
def ComposeContext.citesContract (ctx : ComposeContext) (pf : Platform) (refs : List String) :
    Bool :=
  refs.any fun ref =>
    match ctx.target ref "" with
    | .ok (.page r) => ctx.evidence[r.entryIndex]?.any fun entry =>
        ctx.contract.any fun contract =>
          hostSatisfiesRequiredSource pf (entry.finalUrl.getD entry.url) contract
    | _ => false

def draftDelivery (pf : Platform) (ctx : ComposeContext) (raw : List (String × Value)) :
    DeliveryInput :=
  { rows := draftRows ctx raw
    findings := draftFindings ctx raw
    columns := draftColumns raw
    tablePresent := (draftTable raw).isSome
    unmet := ((publishArray (Value.field? "unmet"
      (asPublishRecord (Value.field? "fulfillment" raw)))).take 12).map gatherUnmet
    contract := ctx.contract
    mode := ctx.mode
    onContract := ctx.citesContract pf }

/-! ## What is promised -/

/-- The composition returns, and no marker is left in the overview, the findings and the sections
that it returns. -/
def MarkersRewritten (rt : BriefPlatform) (ctx : ComposeContext) (input : Value) : Prop :=
  ∃ result, composeAgentBrief rt ctx input = some result ∧ ∀ brief, result = .ok brief →
    MarkerFree brief.content.overview.toList ∧
    (∀ finding ∈ brief.content.keyFindings, MarkerFree finding.text.toList) ∧
    ∀ part ∈ brief.content.sections,
      MarkerFree part.heading.toList ∧ MarkerFree part.bodyMd.toList

def alternativesHeading (ctx : ComposeContext) : String :=
  "Alternatives (not from " ++
    ", ".intercalate ((ctx.contract.map (·.requiredSources)).getD []) ++ ")"

/-- What a draft must be like: a marker that stands in a text after the deletions names a page, and
is read somewhere in the draft; and what is not cleaned has no markers. -/
structure MarkersResolve (pf : Platform) (ctx : ComposeContext) (raw : List (String × Value)) :
    Prop where
  cited : ∀ t ∈ draftTexts raw, ∀ ref ∈ markerRefs INLINE_EVIDENCE_REF (t.cleaned ctx),
    ref ∈ citedRefs ctx raw ∧ ctx.resolvesPage ref = true
  headings : ∀ value ∈ readSections raw, MarkerFree
    (publishText (Value.field? "heading" (asPublishRecord (some value))) 120 false).toList
  alternatives :
    (checkContractDelivery pf (draftDelivery pf ctx raw)).alternativesRows ≠ [] ∨
      (checkContractDelivery pf (draftDelivery pf ctx raw)).alternativesFindings ≠ [] →
    MarkerFree (alternativesHeading ctx).toList
  cells : (checkContractDelivery pf (draftDelivery pf ctx raw)).alternativesRows ≠ [] →
    (∀ name ∈ draftColumns raw, MarkerFree (Gathered.alternativesCell (.str name)).toList) ∧
    ∀ row ∈ (checkContractDelivery pf (draftDelivery pf ctx raw)).alternativesRows,
      ∀ cell ∈ row.cells, MarkerFree (Gathered.alternativesCell cell).toList

/-! ## What a composition reads -/

def ComposeState.faults (s : ComposeState) : List ComposeIssue :=
  s.issues.filter fun issue => !issue.cause.isReference

/-- A composition read references on its way from one state to another, and reported faults. -/
structure Reads (ctx : ComposeContext) (refs : List String) (faults : List ComposeIssue)
    (s t : ComposeState) : Prop where
  resolved : ∀ ref, t.resolved.has ref = true ↔
    s.resolved.has ref = true ∨ ref ∈ refs ∧ ctx.resolvesPage ref = true
  faults : t.faults = s.faults ++ faults

variable {ctx : ComposeContext}

variable (s : ComposeState)

lemma Reads.refl : Reads ctx [] [] s s :=
  ⟨fun ref => by simp, (append_nil _).symm⟩

lemma Reads.trans {refs refs' : List String} {faults faults' : List ComposeIssue}
    {s t u : ComposeState} (h : Reads ctx refs faults s t) (h' : Reads ctx refs' faults' t u) :
    Reads ctx (refs ++ refs') (faults ++ faults') s u where
  resolved := by
    intro ref
    rw [h'.resolved, h.resolved, mem_append, or_assoc, or_and_right]
  faults := by rw [h'.faults, h.faults, append_assoc]

lemma Reads.congr {refs refs' : List String} {faults faults' : List ComposeIssue}
    {s t : ComposeState} (h : Reads ctx refs faults s t) (hrefs : refs = refs')
    (hfaults : faults = faults') : Reads ctx refs' faults' s t :=
  hrefs ▸ hfaults ▸ h

open ComposeContext

lemma isReference_of_target {ref pointer : String} {issue : ComposeIssue}
    (h : ctx.target ref pointer = .error issue) : issue.cause.isReference := by
  unfold target at h
  split_ifs at h
  · split at h
    · cases h
      rfl
    · cases h
  · split at h
    · cases h
      rfl
    · split at h
      · cases h
        rfl
      · split_ifs at h
        · cases h
          rfl

open ComposeState

lemma reads_report {issue : ComposeIssue} (h : issue.cause.isReference) :
    Reads ctx [] [] s (s.report issue) := by
  refine ⟨fun ref => by simp [ComposeState.report], ?_⟩
  simp [faults, ComposeState.report, h]

lemma reads_reportIf (cause : Bool) {issue : ComposeIssue} (h : issue.cause.isReference = false) :
    Reads ctx [] (faultIf cause issue) s (s.reportIf cause issue) := by
  cases cause with
  | false => exact Reads.refl s
  | true =>
    refine ⟨fun ref => by simp [reportIf, ComposeState.report], ?_⟩
    simp [faults, reportIf, ComposeState.report, faultIf, h]

open OrderedMap

lemma reads_resolve (ref pointer : String) (s : ComposeState) :
    Reads ctx [ref] [] s (ctx.resolve ref pointer s).2 := by
  have hpage : ∀ t, ctx.target ref pointer = .ok t →
      ctx.resolvesPage ref = match t with | .page _ => true | .action _ => false := by
    intro t ht
    rw [resolvesPage, target_eq_ok "" ht]
    cases t <;> rfl
  unfold ComposeContext.resolve
  cases htarget : ctx.target ref pointer with
  | error issue =>
    have hnone : ctx.resolvesPage ref = false := by
      rw [resolvesPage]
      split
      · rename_i r hother
        rw [target_eq_ok pointer hother] at htarget
        cases htarget
      · rfl
    obtain ⟨hresolved, hfaults⟩ := @reads_report ctx s _ (isReference_of_target htarget)
    refine ⟨fun other => ?_, hfaults⟩
    rw [hresolved]
    simp only [not_mem_nil, false_and, mem_singleton]
    refine or_congr_right (iff_of_false id ?_)
    rintro ⟨rfl, hyes⟩
    rw [hnone] at hyes
    cases hyes
  | ok t =>
    cases t with
    | action entry =>
      refine ⟨fun other => ?_, (append_nil _).symm⟩
      simp only [mem_singleton]
      refine ⟨.inl, ?_⟩
      rintro (h | ⟨rfl, h⟩)
      · exact h
      · rw [hpage _ htarget] at h
        cases h
    | page r =>
      refine ⟨fun other => ?_, (append_nil _).symm⟩
      simp only [mem_singleton, has, get?_set]
      split
      case isTrue heq => simp [← heq, hpage _ htarget]
      case isFalse hne =>
        refine ⟨.inl, ?_⟩
        rintro (h | ⟨rfl, -⟩)
        · exact h
        · exact absurd rfl hne

open Threaded

lemma reads_resolveAll (pointer : ℕ → String) (refs : List String) (s : ComposeState) :
    Reads ctx refs [] s (resolveAll ctx pointer refs s).2 := by
  have hfilter : ∀ (ris : List (String × ℕ)) (s : ComposeState),
      Reads ctx (ris.map Prod.fst) [] s
        (filterState (fun ri s => ctx.resolve ri.1 (pointer ri.2) s) ris s).2 := by
    intro ris
    induction ris with
    | nil => exact Reads.refl
    | cons ri ris ih => exact fun s => (reads_resolve ri.1 (pointer ri.2) s).trans (ih _)
  have hall := hfilter refs.zipIdx s
  rw [zipIdx_map_fst] at hall
  exact hall

lemma reads_mapState {β : Type} {f : Value × ℕ → ComposeState → β × ComposeState}
    {refs : Value × ℕ → List String} {faults : Value × ℕ → List ComposeIssue}
    (hf : ∀ vi s, Reads ctx (refs vi) (faults vi) s (f vi s).2) (vis : List (Value × ℕ))
    (s : ComposeState) :
    Reads ctx (vis.flatMap refs) (vis.flatMap faults) s (mapState f vis s).2 := by
  induction vis generalizing s with
  | nil => exact Reads.refl s
  | cons vi vis ih => exact (hf vi s).trans (ih _)

variable {α β : Type}

lemma flatMap_zipIdx (f : α → List β) (as : List α) :
    as.zipIdx.flatMap (fun ai => f ai.1) = as.flatMap f := by
  conv_rhs => rw [← zipIdx_map_fst 0 as, flatMap_map]

lemma flatMap_nil (as : List α) : as.flatMap (fun _ => ([] : List β)) = [] :=
  flatMap_eq_nil_iff.2 fun _ _ => rfl

open Regex DraftText

section Assembled

variable (hmode : ctx.mode = .assembled)
include hmode

lemma inlineRefs_spec (pattern : Regex Char) (pointer : String) (text : List Char)
    (refs : List String) (s : ComposeState) :
    (inlineRefs ctx pattern pointer text refs s).1 = withoutUnknown ctx pattern text ∧
      (inlineRefs ctx pattern pointer text refs s).2.1 =
        refs ++ (markerRefs pattern text).filter ctx.resolves ∧
      Reads ctx (markerRefs pattern text) [] s
        (inlineRefs ctx pattern pointer text refs s).2.2 := by
  refine ⟨spliceState_fst (fun m rs => ?_) 0 _ (refs, s), ?_⟩
  · simp only [resolve_fst, hmode, if_true]
    by_cases hknown : ctx.resolves (markerRef m)
    · rw [if_pos hknown, show ctx.resolves (String.ofList ((m.group 1).getD [])) = true from hknown]
      rfl
    · rw [if_neg hknown]
      rw [Bool.not_eq_true] at hknown
      rw [show ctx.resolves (String.ofList ((m.group 1).getD [])) = false from hknown]
      rfl
  unfold inlineRefs markerRefs
  generalize matchAll pattern text = ms
  generalize 0 = cursor
  induction ms generalizing cursor refs s with
  | nil => exact ⟨(append_nil _).symm, Reads.refl s⟩
  | cons m ms ih =>
    have hhead := @reads_resolve ctx (markerRef m) pointer s
    have hresolves : (ctx.resolve (markerRef m) pointer s).1 = ctx.resolves (markerRef m) :=
      resolve_fst _ _ s
    rw [map_cons, filter_cons]
    simp only [spliceState]
    rw [show String.ofList ((m.group 1).getD []) = markerRef m from rfl, hresolves]
    cases ctx.resolves (markerRef m) with
    | true =>
      obtain ⟨hrefs, hreads⟩ := ih (refs ++ [markerRef m])
        (ctx.resolve (markerRef m) pointer s).2 m.stop
      refine ⟨?_, hhead.trans hreads⟩
      rw [if_pos rfl, if_pos rfl, hrefs, append_assoc]
      rfl
    | false =>
      obtain ⟨hrefs, hreads⟩ := ih refs (ctx.resolve (markerRef m) pointer s).2 m.stop
      exact ⟨hrefs, hhead.trans hreads⟩

lemma numeric_spec (issue : ComposeIssue) (text : List Char) (s : ComposeState) :
    spliceState text (fun m s => (if ctx.mode = .assembled then [] else m.text,
        s.reportIf (ctx.mode = .tool) issue)) 0 (matchAll NUMERIC_REF text) s =
      (withoutNumeric text, s) := by
  refine Prod.ext (spliceState_fst (fun m s => if_pos hmode) 0 _ s) ?_
  have hquiet : ∀ s : ComposeState, s = s.reportIf (ctx.mode = .tool) issue := by
    intro s
    simp [reportIf, hmode]
  exact (spliceState_rel (R := fun s t : ComposeState => s = t) (fun _ => rfl)
    (fun _ _ _ => .trans) (fun _ s => hquiet s) 0 _ s).symm

lemma textRefs_spec (t : DraftText) (pointer : String) (s : ComposeState) :
    (textRefs ctx t.text t.sources pointer s).1 = t.finding ctx pointer ∧
      Reads ctx (t.cited ctx) [] s (textRefs ctx t.text t.sources pointer s).2 := by
  have hsources := @reads_resolveAll ctx
    (fun i => pointer ++ "/sources/" ++ toString i) t.sources s
  unfold textRefs
  simp only [numeric_spec hmode, resolveAll_fst]
  generalize (resolveAll ctx (fun i => pointer ++ "/sources/" ++ toString i) t.sources s).2 = s'
    at hsources ⊢
  obtain ⟨htext, hrefs, hpages⟩ := inlineRefs_spec hmode INLINE_EVIDENCE_REF pointer
    (withoutNumeric t.text.toList) (t.sources.filter ctx.resolves) s'
  by_cases hactions : ctx.actions.isSome
  · simp only [hactions, if_true]
    obtain ⟨htext', hrefs', hreads'⟩ := inlineRefs_spec hmode INLINE_ACTION_REF pointer
      (inlineRefs ctx INLINE_EVIDENCE_REF pointer (withoutNumeric t.text.toList)
        (t.sources.filter ctx.resolves) s').1
      (inlineRefs ctx INLINE_EVIDENCE_REF pointer (withoutNumeric t.text.toList)
        (t.sources.filter ctx.resolves) s').2.1
      (inlineRefs ctx INLINE_EVIDENCE_REF pointer (withoutNumeric t.text.toList)
        (t.sources.filter ctx.resolves) s').2.2
    rw [htext', hrefs', hrefs, htext]
    refine ⟨?_, ?_⟩
    · simp only [finding, cleaned, cited, hactions, if_true,
        filter_append, append_assoc]
      rfl
    · have hboth := hsources.trans (hpages.trans hreads')
      rw [htext, hrefs] at hboth
      simp only [cited, hactions, if_true]
      exact hboth
  · simp only [hactions, if_false, Bool.false_eq_true]
    rw [htext, hrefs]
    refine ⟨?_, ?_⟩
    · simp only [finding, cleaned, cited, hactions, if_false,
        filter_append, append_nil, Bool.false_eq_true]
      rfl
    · simp only [cited, hactions, if_false, append_nil, Bool.false_eq_true]
      exact hsources.trans hpages

lemma gatherSection_spec (vi : Value × ℕ) (s : ComposeState) :
    (gatherSection ctx vi s).1 = draftSection ctx vi ∧
      Reads ctx ((sectionText vi.1).cited ctx) [] s (gatherSection ctx vi s).2 := by
  obtain ⟨hbody, hreads⟩ :=
    textRefs_spec hmode (sectionText vi.1) ("sections/" ++ toString vi.2) s
  simp only [sectionText] at hbody hreads
  simp only [gatherSection, draftSection, sectionText, hbody]
  exact ⟨trivial, hreads⟩

lemma gatherFindings_spec (raw : List (String × Value)) (s : ComposeState) :
    (mapState (gatherFinding ctx) (readFindings raw).zipIdx s).1 =
        ((readFindings raw).zipIdx.map fun vi =>
          (findingText vi.1).finding ctx ("key_findings/" ++ toString vi.2)) ∧
      Reads ctx (((readFindings raw).map findingText).flatMap (·.cited ctx)) [] s
        (mapState (gatherFinding ctx) (readFindings raw).zipIdx s).2 := by
  have hone (vi : Value × ℕ) (s : ComposeState) : (gatherFinding ctx vi s).1 =
      (findingText vi.1).finding ctx ("key_findings/" ++ toString vi.2) ∧
      Reads ctx ((findingText vi.1).cited ctx) [] s (gatherFinding ctx vi s).2 :=
    textRefs_spec hmode (findingText vi.1) ("key_findings/" ++ toString vi.2) s
  refine ⟨mapState_fst (fun vi s => (hone vi s).1) _ s, ?_⟩
  have hall := reads_mapState (fun vi s => (hone vi s).2) (readFindings raw).zipIdx s
  rw [flatMap_zipIdx fun value => (findingText value).cited ctx, flatMap_nil] at hall
  rw [flatMap_map]
  exact hall

lemma gatherSections_spec (raw : List (String × Value)) (s : ComposeState) :
    (mapState (gatherSection ctx) (readSections raw).zipIdx s).1 =
        (readSections raw).zipIdx.map (draftSection ctx) ∧
      Reads ctx (((readSections raw).map sectionText).flatMap (·.cited ctx)) [] s
        (mapState (gatherSection ctx) (readSections raw).zipIdx s).2 := by
  refine ⟨mapState_fst (fun vi s => (gatherSection_spec hmode vi s).1) _ s, ?_⟩
  have hall := reads_mapState (fun vi s => (gatherSection_spec hmode vi s).2)
    (readSections raw).zipIdx s
  rw [flatMap_zipIdx fun value => (sectionText value).cited ctx, flatMap_nil] at hall
  rw [flatMap_map]
  exact hall

lemma gatherTexts_spec (raw : List (String × Value)) (s : ComposeState) :
    (gatherTexts ctx raw s).1 = ⟨(overviewText raw).finding ctx "overview", draftFindings ctx raw,
        (readSections raw).zipIdx.map (draftSection ctx)⟩ ∧
      Reads ctx ((draftTexts raw).flatMap (·.cited ctx)) [] s (gatherTexts ctx raw s).2 := by
  obtain ⟨hoverview, hreads⟩ := textRefs_spec hmode (overviewText raw) "overview" s
  obtain ⟨hfindings, hreads'⟩ := gatherFindings_spec hmode raw
    (textRefs ctx (overviewText raw).text (overviewText raw).sources "overview" s).2
  obtain ⟨hsections, hreads''⟩ := gatherSections_spec hmode raw
    (mapState (gatherFinding ctx) (readFindings raw).zipIdx
      (textRefs ctx (overviewText raw).text (overviewText raw).sources "overview" s).2).2
  have hall := (hreads.trans hreads').trans hreads''
  simp only [overviewText, readFindings, readSections] at hoverview hfindings hsections hall
  simp only [gatherTexts, draftFindings, draftTexts, overviewText, readFindings, readSections,
    hoverview, hfindings, hsections, flatMap_append, flatMap_cons]
  exact ⟨trivial, hall⟩

end Assembled

lemma gatherRow_spec (raw : List (String × Value)) (vi : Value × ℕ) (s : ComposeState) :
    (gatherRow ctx (draftColumns raw).length (draftRowSources raw) vi s).1 =
        ⟨(publishArray (some vi.1)).map publishCell, (rowRefs raw vi.2).filter ctx.resolves,
          "table/rows/" ++ toString vi.2⟩ ∧
      Reads ctx (rowRefs raw vi.2) (rowFaults ctx raw vi) s
        (gatherRow ctx (draftColumns raw).length (draftRowSources raw) vi s).2 := by
  refine ⟨?_, ?_⟩
  · simp only [gatherRow, resolveAll_fst]
    rfl
  · simp only [gatherRow]
    refine ((reads_reportIf s _ rfl).trans ((reads_reportIf _ _ rfl).trans
      ((reads_reportIf _ _ rfl).trans (reads_resolveAll _ _ _)))).congr rfl ?_
    simp only [rowFaults, append_nil]
    rfl

lemma gatherTable_spec (raw : List (String × Value)) (s : ComposeState) :
    (gatherTable ctx raw s).1 = ⟨(draftTable raw).isSome, draftColumns raw, draftRows ctx raw⟩ ∧
      Reads ctx ((readRows raw).zipIdx.flatMap fun vi => rowRefs raw vi.2) (draftFaults ctx raw) s
        (gatherTable ctx raw s).2 := by
  have hrow (vi : Value × ℕ) (s : ComposeState) := @gatherRow_spec ctx raw vi s
  have hrows (s : ComposeState) : (mapState (gatherRow ctx (draftColumns raw).length
      (draftRowSources raw)) (readRows raw).zipIdx s).1 = draftRows ctx raw :=
    mapState_fst (fun vi s => (hrow vi s).1) _ s
  have hreads := reads_mapState (fun vi s => (hrow vi s).2) (readRows raw).zipIdx
  refine ⟨?_, ?_⟩
  · rw [← hrows]
    rfl
  · exact (reads_reportIf s _ rfl).trans (hreads _)

open Value

lemma reads_gatherConditions (raw : List (String × Value)) (s : ComposeState) :
    Reads ctx (conditionRefs raw) [] s (gatherConditions ctx raw s).2 := by
  have hone (vi : Value × ℕ) (s : ComposeState) : Reads ctx
      (refsFrom (field? "sources" (asPublishRecord (some vi.1)))) [] s
      (gatherCondition ctx vi s).2 := by
    simp only [gatherCondition]
    exact reads_resolveAll _ _ s
  have hall := reads_mapState hone
    ((publishArray (field? "constraints" raw)).take 12).zipIdx s
  rw [flatMap_zipIdx fun value => refsFrom (field? "sources" (asPublishRecord (some value))),
    flatMap_nil] at hall
  exact hall

variable (pf : Platform)

lemma issues_checkContractDelivery {input : DeliveryInput} (hmode : input.mode = .assembled) :
    (checkContractDelivery pf input).issues = [] := by
  have hmissing : ∀ (s : DeliveryCheck) (exempt : Bool) (gap : String) (issue : ComposeIssue),
      (s.missing input exempt gap issue).issues = s.issues := by
    intro s exempt gap issue
    simp only [DeliveryCheck.missing, hmode, if_true]
    split <;> rfl
  have hfield : ∀ (s : DeliveryCheck) (field : String),
      (checkField pf input s field).issues = s.issues := by
    intro s field
    unfold checkField
    split
    · exact hmissing _ _ _ _
    · dsimp only
      split <;> rfl
  have hfields : ∀ (fields : List String) (s : DeliveryCheck),
      (fields.foldl (checkField pf input) s).issues = s.issues := by
    intro fields
    induction fields with
    | nil => exact fun _ => rfl
    | cons field fields ih => exact fun s => (ih _).trans (hfield s field)
  have htable : (checkTable pf input).issues = [] := by
    unfold checkTable
    split
    · rfl
    · split
      · split
        · exact hfields _ _
        · exact hmissing _ _ _ _
      · rfl
  simp only [checkContractDelivery, checkSources]
  split <;> split <;> exact htable

open DeliveryInput

/-! ## The delivery of a draft -/

lemma checkContractDelivery_congr (input : DeliveryInput) (onContract : List String → Bool)
    (hrows : ∀ row ∈ input.rows, input.onContract row.refs = onContract row.refs)
    (hfindings : ∀ f ∈ input.findings, input.onContract f.refs = onContract f.refs) :
    (checkContractDelivery pf input).findings =
        (checkContractDelivery pf { input with onContract }).findings ∧
      (checkContractDelivery pf input).alternativesFindings =
        (checkContractDelivery pf { input with onContract }).alternativesFindings ∧
      (checkContractDelivery pf input).alternativesRows =
        (checkContractDelivery pf { input with onContract }).alternativesRows := by
  have hmain : ∀ f ∈ input.findings,
      input.mainFinding f = mainFinding { input with onContract } f := by
    intro f hf
    simp only [mainFinding, hfindings f hf, DeliveryInput.partition]
  have htable : checkTable pf { input with onContract } = checkTable pf input := rfl
  have hrow : ∀ row ∈ (checkTable pf input).rows,
      input.mainRow row = mainRow { input with onContract } row := by
    intro row hrow
    have horigin : (row.refs, row.pointer) ∈ rowOrigins (checkTable pf input).rows :=
      mem_map.2 ⟨row, hrow, rfl⟩
    rw [checkTable_origins] at horigin
    obtain ⟨before, hbefore, heq⟩ := mem_map.1 horigin
    obtain ⟨hrefs, -⟩ := Prod.mk.inj heq
    simp only [mainRow, ← hrefs, hrows before hbefore, DeliveryInput.partition]
  refine ⟨filter_congr hmain, filter_congr fun f hf => by rw [hmain f hf], ?_⟩
  simp only [checkContractDelivery, checkSources_rows, htable]
  exact filter_congr fun row hmem => by rw [hrow row hmem]

lemma get?_of_reads {s : ComposeState} (hg : Grounded ctx s) {read : List String}
    {faults : List ComposeIssue} (hreads : Reads ctx read faults {} s) {ref : String}
    (href : ref ∈ read) : s.resolved.get? ref =
      match ctx.target ref "" with
      | .ok (.page r) => some r
      | _ => none := by
  cases hget : s.resolved.get? ref with
  | some r => rw [hg.pages ref r hget]
  | none =>
    have hnot : ¬ ctx.resolvesPage ref := by
      intro hpage
      have hhas := (hreads.resolved ref).2 (.inr ⟨href, hpage⟩)
      rw [has, hget] at hhas
      cases hhas
    unfold resolvesPage at hnot
    rcases htarget : ctx.target ref "" with issue | entry | r
    · rfl
    · rfl
    · rw [htarget] at hnot
      exact absurd rfl hnot

/-- Whether references cite a required source is told from what they resolve to, once they have
been read. -/
lemma onContract_eq {s : ComposeState} (hg : Grounded ctx s) {read : List String}
    {faults : List ComposeIssue} (hreads : Reads ctx read faults {} s) {refs : List String}
    (hrefs : ∀ ref ∈ refs, ref ∈ read) : ctx.onContract pf s refs = ctx.citesContract pf refs := by
  unfold ComposeContext.onContract citesContract
  rw [Bool.eq_iff_iff, any_eq_true, any_eq_true]
  refine exists_congr fun ref => and_congr_right fun href => ?_
  rw [get?_of_reads hg hreads (hrefs ref href)]
  cases ctx.target ref "" with
  | error issue => rfl
  | ok t =>
    cases t with
    | action entry => rfl
    | page r =>
      simp only [Option.bind_some]
      cases ctx.evidence[r.entryIndex]? <;> rfl

structure GatheredDraft (pf : Platform) (ctx : ComposeContext) (raw : List (String × Value))
    (g : Gathered) : Prop where
  reads : Reads ctx (citedRefs ctx raw) (draftFaults ctx raw) {} g.state
  overview : g.overview = (overviewText raw).finding ctx "overview"
  sections : g.sections = (readSections raw).zipIdx.map (draftSection ctx)
  columns : g.columns = draftColumns raw
  findings : g.delivery.findings =
    (checkContractDelivery pf (draftDelivery pf ctx raw)).findings
  alternativesFindings : g.delivery.alternativesFindings =
    (checkContractDelivery pf (draftDelivery pf ctx raw)).alternativesFindings
  alternativesRows : g.delivery.alternativesRows =
    (checkContractDelivery pf (draftDelivery pf ctx raw)).alternativesRows

lemma mem_citedBefore_of_finding {raw : List (String × Value)} {f : DeliveryFinding}
    (hf : f ∈ draftFindings ctx raw) {ref : String} (href : ref ∈ f.refs) :
    ref ∈ citedBefore ctx raw := by
  obtain ⟨vi, hvi, rfl⟩ := mem_map.1 (mem_of_mem_filter hf)
  rw [finding, mem_eraseDups] at href
  refine mem_append_left _ (mem_flatMap.2 ⟨findingText vi.1, ?_,
    mem_of_mem_filter href⟩)
  refine mem_append_left _ (mem_cons_of_mem _ (mem_map.2 ⟨vi.1, ?_, rfl⟩))
  rw [← zipIdx_map_fst 0 (readFindings raw)]
  exact mem_map.2 ⟨vi, hvi, rfl⟩

lemma mem_citedBefore_of_row {raw : List (String × Value)} {row : DeliveryRow}
    (hrow : row ∈ draftRows ctx raw) {ref : String} (href : ref ∈ row.refs) :
    ref ∈ citedBefore ctx raw := by
  obtain ⟨vi, hvi, rfl⟩ := mem_map.1 hrow
  exact mem_append_right _ (mem_flatMap.2 ⟨vi, hvi, mem_of_mem_filter href⟩)

lemma gatheredDraft (hmode : ctx.mode = .assembled) (raw : List (String × Value)) :
    GatheredDraft pf ctx raw (gather pf ctx raw) := by
  obtain ⟨htexts, hreads⟩ := gatherTexts_spec hmode raw {}
  obtain ⟨htable, hreads'⟩ := @gatherTable_spec ctx raw (gatherTexts ctx raw {}).2
  have hbefore := hreads.trans hreads'
  have hempty : Grounded ctx {} :=
    ⟨fun _ _ h => absurd h (by simp), fun _ _ h => absurd h (by simp)⟩
  have hgrounded : Grounded ctx (gatherTable ctx raw (gatherTexts ctx raw {}).2).2 :=
    (extends_gatherTable raw _).grounded ((extends_gatherTexts raw _).grounded hempty)
  have hdelivery : (gather pf ctx raw).delivery = checkContractDelivery pf
      { draftDelivery pf ctx raw with
        onContract := ctx.onContract pf (gatherTable ctx raw (gatherTexts ctx raw {}).2).2 } := by
    simp only [gather, gatherDelivery, htexts, htable]
    rfl
  obtain ⟨hfindings, halternatives, hrows⟩ := checkContractDelivery_congr pf
    { draftDelivery pf ctx raw with
      onContract := ctx.onContract pf (gatherTable ctx raw (gatherTexts ctx raw {}).2).2 }
    (ctx.citesContract pf)
    (fun row hrow => onContract_eq pf hgrounded hbefore fun ref href =>
      mem_citedBefore_of_row hrow href)
    (fun f hf => onContract_eq pf hgrounded hbefore fun ref href =>
      mem_citedBefore_of_finding hf href)
  have hquiet : (gather pf ctx raw).delivery.issues = [] := by
    rw [hdelivery]
    exact issues_checkContractDelivery pf hmode
  have hstate : (gather pf ctx raw).state =
      (gatherConditions ctx raw (gatherTable ctx raw (gatherTexts ctx raw {}).2).2).2 := by
    simp only [gather] at hquiet ⊢
    rw [hquiet, append_nil]
  refine ⟨?_, ?_, ?_, ?_, ?_, ?_, ?_⟩
  · rw [hstate]
    refine (hbefore.trans (reads_gatherConditions raw _)).congr rfl ?_
    rw [nil_append, append_nil]
  · simp only [gather, htexts]
  · simp only [gather, htexts]
  · simp only [gather, htable]
  · rw [hdelivery, hfindings]
    rfl
  · rw [hdelivery, halternatives]
    rfl
  · rw [hdelivery, hrows]
    rfl

open Gathered

/-! ## What is returned -/

section Returned

variable {g : Gathered} {rt : BriefPlatform} {raw : List (String × Value)} {c : BriefContent}

lemma isSome_bind_some (x : Option α) (f : α → β) :
    (x >>= fun a => some (f a)).isSome = true ↔ x.isSome = true := by
  cases x <;> simp

lemma isSome_mapM_iff {f : α → Option β} {as : List α} :
    (as.mapM f).isSome ↔ ∀ a ∈ as, (f a).isSome := by
  induction as with
  | nil => simp
  | cons a as ih =>
    rw [mapM_cons, forall_mem_cons, ← ih]
    cases f a with
    | none => simp
    | some b => cases as.mapM f <;> simp

lemma exists_mem_of_mapM {f : α → Option β} {as : List α} {bs : List β} (h : as.mapM f = some bs)
    {a : α} (ha : a ∈ as) : ∃ b ∈ bs, f a = some b := by
  induction as generalizing bs with
  | nil => cases ha
  | cons first as ih =>
    rw [mapM_cons] at h
    obtain ⟨b, hb, h⟩ := Option.bind_eq_some_iff.1 h
    obtain ⟨bs', hbs', h⟩ := Option.bind_eq_some_iff.1 h
    cases h
    rcases mem_cons.1 ha with rfl | ha
    · exact ⟨b, mem_cons_self, hb⟩
    · obtain ⟨b', hb', hfa⟩ := ih hbs' ha
      exact ⟨b', mem_cons_of_mem b hb', hfa⟩

def Gathered.rewritten (g : Gathered) : List String :=
  g.overview.text :: g.delivery.findings.map DeliveryFinding.text ++
    g.sections.map CitedSection.bodyMd ++
    g.delivery.alternativesFindings.map DeliveryFinding.text

lemma content_isSome_iff : (g.content ctx rt raw).isSome ↔
    ∀ text ∈ g.rewritten, (g.rewrite ctx text).isSome := by
  have hfinding : ∀ f : DeliveryFinding, (g.keyFinding ctx f).isSome ↔
      (g.rewrite ctx f.text).isSome := by
    intro f
    unfold keyFinding
    cases g.rewrite ctx f.text <;> simp
  have hsection : ∀ part : CitedSection, (g.briefSection ctx part).isSome ↔
      (g.rewrite ctx part.bodyMd).isSome := by
    intro part
    unfold briefSection sectionBody
    cases g.rewrite ctx part.bodyMd <;> simp
  have halternatives : (g.alternativesSection ctx).isSome ↔
      ∀ f ∈ g.delivery.alternativesFindings, (g.rewrite ctx f.text).isSome := by
    have hbody : (g.alternativesBody ctx).isSome ↔
        ∀ f ∈ g.delivery.alternativesFindings, (g.rewrite ctx f.text).isSome := by
      unfold alternativesBody
      refine (isSome_bind_some _ _).trans (isSome_mapM_iff.trans ?_)
      exact forall₂_congr fun f _ => isSome_bind_some _ _
    unfold alternativesSection
    split
    case isTrue hempty =>
      rw [Bool.and_eq_true, List.isEmpty_iff, List.isEmpty_iff] at hempty
      simp [hempty.2]
    case isFalse => exact (isSome_bind_some _ _).trans hbody
  have hparts : (g.content ctx rt raw).isSome ↔
      (g.rewrite ctx g.overview.text).isSome ∧
        (g.delivery.findings.mapM (g.keyFinding ctx)).isSome ∧
        (g.sections.mapM (g.briefSection ctx)).isSome ∧
        (g.alternativesSection ctx).isSome := by
    unfold content
    cases g.rewrite ctx g.overview.text with
    | none => simp
    | some overview =>
      cases g.delivery.findings.mapM (g.keyFinding ctx) with
      | none => simp
      | some findings =>
        cases g.sections.mapM (g.briefSection ctx) with
        | none => simp
        | some sections => cases g.alternativesSection ctx <;> simp
  simp only [hparts, isSome_mapM_iff, hfinding, hsection, halternatives, rewritten,
    forall_mem_append, forall_mem_cons, forall_mem_map, and_assoc]

lemma markerFree_briefSection {part : CitedSection} {published : BriefSection}
    (h : g.briefSection ctx part = some published) :
    published.heading = part.heading ∧ MarkerFree published.bodyMd.toList := by
  obtain ⟨body, hbody, h⟩ := Option.bind_eq_some_iff.1 h
  obtain ⟨written, hwritten, hbody⟩ := Option.bind_eq_some_iff.1 hbody
  cases h
  cases hbody
  refine ⟨rfl, ?_⟩
  have hfree := markerFree_rewrite hwritten
  rw [String.toList_append]
  split
  · simpa using hfree
  · rw [String.toList_append, ← append_assoc, markerFree_append_iff (by decide) (by decide),
      String.toList_ofList]
    exact ⟨hfree, markerFree_markers (x := []) (markerFree_of_open (by simp)) _⟩

/-- The section of the alternatives has markers where its heading, or the names and cells of its
table, have some. -/
lemma markerFree_alternativesSection {parts : List BriefSection}
    (h : g.alternativesSection ctx = some parts) :
    (∀ part ∈ parts, MarkerFree part.heading.toList ∧ MarkerFree part.bodyMd.toList) ↔
      (g.delivery.alternativesRows ≠ [] ∨ g.delivery.alternativesFindings ≠ [] →
        MarkerFree (alternativesHeading ctx).toList) ∧
      (g.delivery.alternativesRows ≠ [] →
        (∀ name ∈ g.columns, MarkerFree (alternativesCell (.str name)).toList) ∧
        ∀ row ∈ g.delivery.alternativesRows, ∀ cell ∈ row.cells,
          MarkerFree (alternativesCell cell).toList) := by
  unfold alternativesSection at h
  split at h
  case isTrue hempty =>
    cases h
    rw [Bool.and_eq_true, List.isEmpty_iff, List.isEmpty_iff] at hempty
    simp [hempty.1, hempty.2]
  case isFalse hsome =>
    obtain ⟨body, hbody, h⟩ := Option.bind_eq_some_iff.1 h
    cases h
    have hpresent : g.delivery.alternativesRows ≠ [] ∨ g.delivery.alternativesFindings ≠ [] := by
      rw [Bool.and_eq_true, List.isEmpty_iff, List.isEmpty_iff, not_and_or] at hsome
      exact hsome
    rw [forall_mem_singleton, forall_prop_of_true hpresent,
      ← markerFree_alternativesBody hbody]
    rfl

/-- What is returned has markers only where nothing is rewritten: in the headings, and in the names
and cells of the alternatives. -/
lemma markerFree_content_iff (h : g.content ctx rt raw = some c) :
    (MarkerFree c.overview.toList ∧ (∀ finding ∈ c.keyFindings, MarkerFree finding.text.toList) ∧
      ∀ part ∈ c.sections, MarkerFree part.heading.toList ∧ MarkerFree part.bodyMd.toList) ↔
    (∀ part ∈ g.sections, MarkerFree part.heading.toList) ∧
      (g.delivery.alternativesRows ≠ [] ∨ g.delivery.alternativesFindings ≠ [] →
        MarkerFree (alternativesHeading ctx).toList) ∧
      (g.delivery.alternativesRows ≠ [] →
        (∀ name ∈ g.columns, MarkerFree (alternativesCell (.str name)).toList) ∧
        ∀ row ∈ g.delivery.alternativesRows, ∀ cell ∈ row.cells,
          MarkerFree (alternativesCell cell).toList) := by
  unfold content at h
  obtain ⟨overview, hoverview, h⟩ := Option.bind_eq_some_iff.1 h
  obtain ⟨findings, hfindings, h⟩ := Option.bind_eq_some_iff.1 h
  obtain ⟨sections, hsections, h⟩ := Option.bind_eq_some_iff.1 h
  obtain ⟨alternatives, halternatives, h⟩ := Option.bind_eq_some_iff.1 h
  cases h
  have hfinding : ∀ finding ∈ findings, MarkerFree finding.text.toList := by
    intro finding hmem
    obtain ⟨f, -, hwritten⟩ := exists_of_mem_mapM hfindings hmem
    obtain ⟨text, htext, hwritten⟩ := Option.bind_eq_some_iff.1 hwritten
    cases hwritten
    exact markerFree_rewrite htext
  have hsection : (∀ part ∈ sections, MarkerFree part.heading.toList ∧
      MarkerFree part.bodyMd.toList) ↔ ∀ part ∈ g.sections, MarkerFree part.heading.toList := by
    constructor
    · intro hall part hpart
      obtain ⟨published, hmem, hpublished⟩ := exists_mem_of_mapM hsections hpart
      rw [← (markerFree_briefSection hpublished).1]
      exact (hall published hmem).1
    · intro hall published hmem
      obtain ⟨part, hpart, hpublished⟩ := exists_of_mem_mapM hsections hmem
      obtain ⟨hheading, hbody⟩ := markerFree_briefSection hpublished
      exact ⟨by rw [hheading]; exact hall part hpart, hbody⟩
  rw [and_iff_right (markerFree_rewrite hoverview), and_iff_right hfinding,
    forall_mem_append, hsection, markerFree_alternativesSection halternatives]

end Returned

/-! ## When no marker is left -/

lemma forall_zipIdx_iff {α : Type} {P : α → Prop} (as : List α) :
    (∀ ai ∈ as.zipIdx, P ai.1) ↔ ∀ a ∈ as, P a := by
  conv_rhs => rw [← zipIdx_map_fst 0 as, forall_mem_map]

lemma forall_findings_iff {pf : Platform} {raw : List (String × Value)} {g : Gathered}
    (hg : GatheredDraft pf ctx raw g) {P : String → Prop} (hempty : P "") :
    (∀ f ∈ g.delivery.findings, P f.text) ∧ (∀ f ∈ g.delivery.alternativesFindings, P f.text) ↔
      ∀ value ∈ readFindings raw, P (String.ofList ((findingText value).cleaned ctx)) := by
  have hperm := checkContractDelivery_findings_perm pf (draftDelivery pf ctx raw)
  rw [hg.findings, hg.alternativesFindings, ← forall_mem_append,
    ← forall_zipIdx_iff (P := fun value => P (String.ofList ((findingText value).cleaned ctx)))]
  constructor
  · intro hall vi hvi
    by_cases htext : String.ofList ((findingText vi.1).cleaned ctx) = ""
    · rw [htext]
      exact hempty
    · refine hall ((findingText vi.1).finding ctx ("key_findings/" ++ toString vi.2))
        (hperm.mem_iff.2 (mem_filter.2 ⟨mem_map.2 ⟨vi, hvi, rfl⟩, ?_⟩))
      simpa [finding] using htext
  · intro hall f hf
    obtain ⟨vi, hvi, rfl⟩ := mem_map.1 (mem_of_mem_filter (hperm.mem_iff.1 hf))
    exact hall vi hvi

lemma forall_rewritten_iff {pf : Platform} {raw : List (String × Value)} {g : Gathered}
    (hg : GatheredDraft pf ctx raw g) {P : String → Prop} (hempty : P "") :
    (∀ text ∈ g.rewritten, P text) ↔
      ∀ t ∈ draftTexts raw, P (String.ofList (t.cleaned ctx)) := by
  have hsections : (∀ part ∈ g.sections, P part.bodyMd) ↔
      ∀ value ∈ readSections raw, P (String.ofList ((sectionText value).cleaned ctx)) := by
    rw [hg.sections, forall_mem_map,
      ← forall_zipIdx_iff (P := fun value => P (String.ofList ((sectionText value).cleaned ctx)))]
    rfl
  have hfindings := forall_findings_iff hg hempty
  simp only [rewritten, draftTexts, forall_mem_append, forall_mem_cons,
    forall_mem_map, hg.overview, hsections, ← hfindings]
  simp only [finding]
  tauto

lemma forall_headings_iff {pf : Platform} {raw : List (String × Value)} {g : Gathered}
    (hg : GatheredDraft pf ctx raw g) :
    (∀ part ∈ g.sections, MarkerFree part.heading.toList) ↔
      ∀ value ∈ readSections raw, MarkerFree
        (publishText (field? "heading" (asPublishRecord (some value))) 120 false).toList := by
  rw [hg.sections, forall_mem_map, ← forall_zipIdx_iff (P := fun value => MarkerFree
    (publishText (field? "heading" (asPublishRecord (some value))) 120 false).toList)]
  simp only [draftSection]

/-- **When no marker is left.** In assembled mode the composition returns, and returns no markers,
exactly where the draft's table is refused or every marker that the deletions leave names a page and
is read from the draft, and headings and alternatives have no markers.

**Proof sketch.** What is resolved in the end is what was read, wherever it stood; so a text is
rewritten where its markers were read. -/
theorem markersRewritten_iff (rt : BriefPlatform) (ctx : ComposeContext) (input : Value)
    (hmode : ctx.mode = .assembled) : MarkersRewritten rt ctx input ↔
      draftFaults ctx (asPublishRecord (some input)) ≠ [] ∨
        MarkersResolve rt.toPlatform ctx (asPublishRecord (some input)) := by
  generalize hraw : asPublishRecord (some input) = raw
  have hg := gatheredDraft rt.toPlatform hmode raw
  have hcompose : composeAgentBrief rt ctx input =
      if (gather rt.toPlatform ctx raw).blocking ctx ≠ [] then
        some (.error ((gather rt.toPlatform ctx raw).blocking ctx))
      else ((gather rt.toPlatform ctx raw).content ctx rt raw).map fun content =>
        .ok ⟨content, (gather rt.toPlatform ctx raw).delivery.deliverableGaps,
          (gather rt.toPlatform ctx raw).constraints, claimedMet raw⟩ := by
    rw [← hraw]
    rfl
  generalize gather rt.toPlatform ctx raw = g at hg hcompose
  have hblocking : g.blocking ctx = draftFaults ctx raw := by
    have hfaults := hg.reads.faults
    rw [Gathered.blocking, if_pos hmode]
    exact hfaults
  have hcited : (g.content ctx rt raw).isSome = true ↔
      ∀ t ∈ draftTexts raw, ∀ ref ∈ markerRefs INLINE_EVIDENCE_REF (t.cleaned ctx),
        ref ∈ citedRefs ctx raw ∧ ctx.resolvesPage ref = true := by
    have hresolved : ∀ ref, g.state.resolved.has ref = true ↔
        ref ∈ citedRefs ctx raw ∧ ctx.resolvesPage ref = true := by
      intro ref
      rw [hg.reads.resolved]
      exact or_iff_right (by simp)
    rw [content_isSome_iff,
      forall_rewritten_iff hg (P := fun text => (g.rewrite ctx text).isSome = true)]
    · simp only [rewrite_isSome_iff, String.toList_ofList, hresolved]
    · have hnone : markerRefs INLINE_EVIDENCE_REF "".toList = [] := by decide +kernel
      rw [rewrite_isSome_iff, hnone]
      exact fun ref href => absurd href (by simp)
  unfold MarkersRewritten
  rw [hcompose, hblocking]
  by_cases hfaults : draftFaults ctx raw = []
  · rw [if_neg (not_not_intro hfaults)]
    cases hcontent : g.content ctx rt raw with
    | none =>
      refine iff_of_false ?_ ?_
      · rintro ⟨result, hresult, -⟩
        cases hresult
      rintro (hsome | hresolve)
      · exact hsome hfaults
      · have hsome := hcited.2 hresolve.cited
        rw [hcontent] at hsome
        cases hsome
    | some c =>
      have hfree := markerFree_content_iff hcontent
      rw [forall_headings_iff hg, hg.alternativesRows, hg.alternativesFindings, hg.columns] at hfree
      rw [hcontent] at hcited
      constructor
      · rintro ⟨result, hresult, hmarkers⟩
        obtain rfl := Option.some.inj hresult
        have hreturned := hmarkers _ rfl
        obtain ⟨hheadings, halternatives, hcells⟩ := hfree.1 hreturned
        exact .inr ⟨hcited.1 rfl, hheadings, halternatives, hcells⟩
      · rintro (hsome | hresolve)
        · exact absurd hfaults hsome
        · refine ⟨_, rfl, fun brief hbrief => ?_⟩
          cases hbrief
          exact hfree.2 ⟨hresolve.headings, hresolve.alternatives, hresolve.cells⟩
  · rw [if_pos hfaults]
    exact iff_of_true ⟨_, rfl, fun brief h => by cases h⟩ (.inl hfaults)

/-! ## A marker inside another -/

/-- A run that read one page, whose answer the runtime assembles. -/
def onePageAssembled : ComposeContext where
  actions := none
  ledger := [⟨"https://shop.example/", none, some "Shop", none, "2026-01-01", none, some "S1"⟩]
  resolveAnchor := fun _ => false
  contract := none
  mode := .assembled
  supported := fun _ => true

def draftSaying (overview : String) : Value :=
  .obj [("title", .str "Shoes"), ("overview", .str overview)]

/-- The condition of a draft that cites the page, and of one that does not exist besides. -/
theorem markersRewritten_iff_cited :
    MarkersRewritten plainPlatform onePageAssembled (draftSaying "Red [S1] and blue [S9].") ↔
      draftFaults onePageAssembled
          (asPublishRecord (some (draftSaying "Red [S1] and blue [S9]."))) ≠ [] ∨
        MarkersResolve plainPlatform.toPlatform onePageAssembled
          (asPublishRecord (some (draftSaying "Red [S1] and blue [S9]."))) :=
  markersRewritten_iff plainPlatform onePageAssembled _ rfl

/-- Where the marker of an unknown page stands inside what becomes the marker of a known one, the
composition throws. -/
theorem markers_nested :
    ¬ MarkersRewritten plainPlatform onePageAssembled (draftSaying "[S[S9]1]") := by
  have hthrows : (composeAgentBrief plainPlatform onePageAssembled
      (draftSaying "[S[S9]1]")).isNone = true := by decide +kernel
  rintro ⟨result, hresult, -⟩
  rw [hresult] at hthrows
  cases hthrows

end Yantra
