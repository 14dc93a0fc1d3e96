import Yantra.Synthesis.Anchoring
import Yantra.Synthesis.ClusterOrder

/-!
# The citation validator

`validateCitations` checks a synthesized brief against the documents it was made of: inline markers
must name declared sources, and a finding of the LLM strategy is stripped when one of its numbers is
in no text matched to its citations, and flagged when its words are not. A source is matched to the
documents with its URL, and to those with its host.

## Main definitions

* `Synthesis.Brief` — a brief that passed its schema.
* `Synthesis.SupportedFromCited` — when it is.

## Main results

* `Synthesis.citationsHold_iff` — the result is as it should be exactly when no kept finding
  has a number only from another document of a cited host, or from where two texts meet.
-/

namespace Yantra.Synthesis

open Utf16 List

/-! ## Briefs -/

structure ChildFinding where
  text : JsString
  citations : List ℕ

/-- `KeyFinding`, as far as it is read. -/
structure KeyFinding where
  text : JsString
  citations : List ℕ
  editorial : Bool := false
  children : List ChildFinding := []

/-- `Section`, as far as it is read. -/
structure BriefSection where
  bodyMd : JsString
  citations : List ℕ

/-- `BriefNotice['kind']` -/
inductive BriefNoticeKind where
  | fetchFailed
  | extractFailed
  | blocked
  | sourceExcluded
  | uncitedClaimStripped
  | uncitedClaimFlagged
  | budgetExhausted
  | limitedEvidence
  | searchFailed
  | contractGap
  | other
  deriving DecidableEq, Repr

def BriefNoticeKind.text : BriefNoticeKind → JsString
  | .fetchFailed => units "fetch_failed"
  | .extractFailed => units "extract_failed"
  | .blocked => units "blocked"
  | .sourceExcluded => units "source_excluded"
  | .uncitedClaimStripped => units "uncited_claim_stripped"
  | .uncitedClaimFlagged => units "uncited_claim_flagged"
  | .budgetExhausted => units "budget_exhausted"
  | .limitedEvidence => units "limited_evidence"
  | .searchFailed => units "search_failed"
  | .contractGap => units "contract_gap"
  | .other => units "other"

structure BriefNotice where
  source : JsString
  reason : JsString
  kind : BriefNoticeKind

/-- `Brief`, with the given sources, as far as it is read. The schema has seen to it that every
citation resolves to a source. -/
structure Brief (sources : List BriefSource) where
  overview : JsString
  sections : List BriefSection
  keyFindings : List KeyFinding
  notices : List BriefNotice
  resolves : ∀ finding ∈ keyFindings, ∀ c ∈ finding.citations, c ∈ sources.map BriefSource.n

/-! ## The validator -/

/-- `ValidateCitationsOptions['strategy']` -/
inductive SynthesisStrategy where
  | deterministic
  | llm
  deriving DecidableEq, Repr

structure CitationVerdict where
  claimsChecked : ℕ := 0
  flagged : ℕ := 0
  stripped : ℕ := 0

/-- The variables of the pass. `structuralFlags` has the locations in the order they came up. -/
structure ValidatorState where
  verdict : CitationVerdict := {}
  notices : List BriefNotice := []
  structuralFlags : List (JsString × List ℕ) := []
  keptFindings : List KeyFinding := []

def INLINE_CITATION : Regex CodeUnit :=
  .seqs [word "[", .group 1 (.plus (.sym isDigit)), word "]"]

def inlineMarkers (text : JsString) : List ℕ :=
  (INLINE_CITATION.matchAll text).map fun m =>
    ((m.group 1).getD []).foldl (fun n c => 10 * n + Decimal.digitValue c) 0

/-- `values.add(n); structuralFlags.set(where, values)` -/
def addFlag (flags : List (JsString × List ℕ)) (location : JsString) (n : ℕ) :
    List (JsString × List ℕ) :=
  if flags.any fun flag => flag.1 == location then
    flags.map fun flag =>
      if flag.1 == location ∧ n ∉ flag.2 then (flag.1, flag.2 ++ [n]) else flag
  else flags ++ [(location, [n])]

/-- The body of the loop of `structuralFlag`. -/
def flagMarker (declared : List ℕ) (location : JsString) (st : ValidatorState) (n : ℕ) :
    ValidatorState :=
  if n ∈ declared then
    { st with verdict := { st.verdict with claimsChecked := st.verdict.claimsChecked + 1 } }
  else
    { st with
      verdict := { st.verdict with
        claimsChecked := st.verdict.claimsChecked + 1
        flagged := st.verdict.flagged + 1 }
      structuralFlags := addFlag st.structuralFlags location n }

def structuralFlag (declared : List ℕ) (text location : JsString) (st : ValidatorState) :
    ValidatorState :=
  (inlineMarkers text).foldl (flagMarker declared location) st

section Validator

variable {n : ℕ} (docs : Fin n → SynthesisDoc)

/-- Whether a document is matched to a source: `normalized` is the URL of the source. -/
def matchesSource (source : BriefSource) (doc : SynthesisDoc) : Bool :=
  normalizedUrl doc == source.finalUrl.getD source.url || doc.host == source.host

/-- The texts of the documents matched to a source, one line after the other. -/
def sourceText (source : BriefSource) : JsString :=
  List.intercalate [10]
    (((List.ofFn docs).filter (matchesSource source)).map fun doc => units doc.text)

def buildSourceTextMap (sources : List BriefSource) : ℕ → Option JsString :=
  sources.foldl (fun map source => Function.update map source.n (some (sourceText docs source)))
    fun _ => none

/-- `truncate` -/
def truncateNotice (text : JsString) : JsString :=
  if 80 < text.length then text.take 77 ++ units "..." else text

/-- `finding.text.replace(/\[\d+\]/g, ' ')` -/
def claimBody (finding : KeyFinding) : JsString :=
  INLINE_CITATION.replace (fun _ => [32]) finding.text

variable (forms : TextForms) (sources : List BriefSource)

def citedText (finding : KeyFinding) : JsString :=
  forms.toLowerCase (List.intercalate [10]
    (finding.citations.map fun c => (buildSourceTextMap docs sources c).getD []))

def numericMismatch (finding : KeyFinding) : Bool :=
  numbersMissing forms (claimBody finding) (citedText docs forms sources finding) != []

def checkFinding (strategy : SynthesisStrategy) (st : ValidatorState) (finding : KeyFinding) :
    ValidatorState :=
  let declared := sources.map BriefSource.n
  let st := structuralFlag declared finding.text (units "finding") st
  let st := finding.children.foldl
    (fun st child => structuralFlag declared child.text (units "finding") st) st
  if strategy ≠ .llm ∨ finding.editorial = true then
    { st with keptFindings := st.keptFindings ++ [finding] }
  else if numericMismatch docs forms sources finding then
    { st with
      verdict := { st.verdict with
        claimsChecked := st.verdict.claimsChecked + 1
        stripped := st.verdict.stripped + 1 }
      notices := st.notices ++ [⟨units "synthesis",
        units "numeric claim not supported by its cited source(s): \"" ++
          truncateNotice finding.text ++ units "\"", .uncitedClaimStripped⟩] }
  else if isAnchored forms (claimBody finding) (citedText docs forms sources finding) then
    { st with
      verdict := { st.verdict with claimsChecked := st.verdict.claimsChecked + 1 }
      keptFindings := st.keptFindings ++ [finding] }
  else
    { st with
      verdict := { st.verdict with
        claimsChecked := st.verdict.claimsChecked + 1
        flagged := st.verdict.flagged + 1 }
      notices := st.notices ++ [⟨units "synthesis",
        units "claim weakly anchored to its cited source(s): \"" ++
          truncateNotice finding.text ++ units "\"", .uncitedClaimFlagged⟩]
      keptFindings := st.keptFindings ++ [finding] }

def flagNotice (flag : JsString × List ℕ) : BriefNotice :=
  let markers := flag.2.insertionSort (· ≤ ·)
  let visible := List.intercalate (units ", ")
    ((markers.take 3).map fun n => units ("[" ++ toString n ++ "]"))
  let overflow := markers.length - 3
  ⟨flag.1,
    units "inline citations " ++ visible ++
      (if 0 < overflow then units (" (+" ++ toString overflow ++ " more)") else []) ++
      units " do not resolve to a declared source",
    .uncitedClaimFlagged⟩

/-- The key of a notice in `dedupeNotices`. -/
def noticeKey (notice : BriefNotice) : JsString :=
  notice.kind.text ++ 0 :: (notice.source ++ 0 :: notice.reason)

def dedupeNotices (notices : List BriefNotice) : List BriefNotice :=
  notices.foldl
    (fun kept notice =>
      if kept.any fun seen => noticeKey seen == noticeKey notice then kept else kept ++ [notice])
    []

/-- The state before the findings. -/
def structuralPass (brief : Brief sources) : ValidatorState :=
  let declared := sources.map BriefSource.n
  brief.sections.zipIdx.foldl
    (fun st s =>
      structuralFlag declared s.1.bodyMd (units ("section:" ++ toString s.2)) st)
    (structuralFlag declared brief.overview (units "overview") {})

/-- `CitationValidationResult`, as far as it differs from the brief. -/
structure CitationValidationResult where
  keyFindings : List KeyFinding
  notices : List BriefNotice
  verdict : CitationVerdict

def validateCitations (brief : Brief sources) (strategy : SynthesisStrategy) :
    CitationValidationResult :=
  let st := brief.keyFindings.foldl (checkFinding docs forms sources strategy)
    (structuralPass sources brief)
  { keyFindings := st.keptFindings
    notices := dedupeNotices (brief.notices ++ (st.notices ++ st.structuralFlags.map flagNotice))
    verdict := st.verdict }

end Validator

/-! ## What the passes count -/

def findingMarkers (finding : KeyFinding) : List ℕ :=
  inlineMarkers finding.text ++ finding.children.flatMap fun child => inlineMarkers child.text

/-- The state after so many more markers, some of which do not resolve: nothing is kept or
stripped. -/
structure Counted (declared markers : List ℕ) (st st' : ValidatorState) : Prop where
  claimsChecked : st'.verdict.claimsChecked = st.verdict.claimsChecked + markers.length
  flagged : st'.verdict.flagged = st.verdict.flagged + (markers.filter (· ∉ declared)).length
  stripped : st'.verdict.stripped = st.verdict.stripped
  keptFindings : st'.keptFindings = st.keptFindings

variable (declared : List ℕ)

lemma Counted.refl (st : ValidatorState) : Counted declared [] st st :=
  ⟨rfl, rfl, rfl, rfl⟩

variable {st st' st'' : ValidatorState}

lemma Counted.trans {declared markers markers' : List ℕ} (h : Counted declared markers st st')
    (h' : Counted declared markers' st' st'') :
    Counted declared (markers ++ markers') st st'' where
  claimsChecked := by
    rw [h'.claimsChecked, h.claimsChecked, length_append, Nat.add_assoc]
  flagged := by
    rw [h'.flagged, h.flagged, filter_append, length_append, Nat.add_assoc]
  stripped := h'.stripped.trans h.stripped
  keptFindings := h'.keptFindings.trans h.keptFindings

lemma counted_flagMarker (location : JsString) (st : ValidatorState) (n : ℕ) :
    Counted declared [n] st (flagMarker declared location st n) := by
  rw [flagMarker]
  split_ifs with h
  · exact ⟨rfl, by simp [h], rfl, rfl⟩
  · exact ⟨rfl, by simp [h], rfl, rfl⟩

lemma counted_structuralFlag (text location : JsString) (st : ValidatorState) :
    Counted declared (inlineMarkers text) st (structuralFlag declared text location st) := by
  rw [structuralFlag]
  induction inlineMarkers text generalizing st with
  | nil => exact .refl declared st
  | cons n markers ih => exact (counted_flagMarker declared location st n).trans (ih _)

lemma counted_foldl {α : Type} (declared : List ℕ) (text location : α → JsString) (l : List α)
    (st : ValidatorState) :
    Counted declared (l.flatMap fun a => inlineMarkers (text a)) st
      (l.foldl (fun st a => structuralFlag declared (text a) (location a) st) st) := by
  induction l generalizing st with
  | nil => exact .refl declared st
  | cons a l ih =>
    rw [flatMap_cons]
    exact (counted_structuralFlag declared (text a) (location a) st).trans (ih _)

section Validator

variable {n : ℕ} (docs : Fin n → SynthesisDoc) (forms : TextForms) (sources : List BriefSource)

def briefMarkers (brief : Brief sources) : List ℕ :=
  inlineMarkers brief.overview ++ brief.sections.zipIdx.flatMap fun s => inlineMarkers s.1.bodyMd

variable (brief : Brief sources)

lemma counted_structuralPass :
    Counted (sources.map BriefSource.n) (briefMarkers sources brief) {}
      (structuralPass sources brief) :=
  (counted_structuralFlag _ _ _ _).trans (counted_foldl _ _ _ _ _)

/-- A finding of the LLM strategy whose numbers are all in the matched texts. -/
def passes (finding : KeyFinding) : Bool :=
  finding.editorial || !numericMismatch docs forms sources finding

/-- A finding that is kept, although its words are not in the matched texts. -/
def isWeak (finding : KeyFinding) : Bool :=
  !finding.editorial && !numericMismatch docs forms sources finding &&
    !isAnchored forms (claimBody finding) (citedText docs forms sources finding)

/-- What the pass over the findings keeps and counts. -/
structure Examined (findings : List KeyFinding) (st st' : ValidatorState) : Prop where
  claimsChecked : st'.verdict.claimsChecked = st.verdict.claimsChecked +
    (findings.flatMap findingMarkers).length + (findings.filter fun f => !f.editorial).length
  flagged : st'.verdict.flagged = st.verdict.flagged +
    ((findings.flatMap findingMarkers).filter (· ∉ sources.map BriefSource.n)).length +
      (findings.filter (isWeak docs forms sources)).length
  stripped : st'.verdict.stripped = st.verdict.stripped +
    (findings.filter fun f => !passes docs forms sources f).length
  keptFindings : st'.keptFindings = st.keptFindings ++ findings.filter (passes docs forms sources)

lemma Examined.nil (st : ValidatorState) : Examined docs forms sources [] st st where
  claimsChecked := rfl
  flagged := rfl
  stripped := rfl
  keptFindings := (append_nil _).symm

variable {docs forms sources}

lemma Examined.trans {findings findings' : List KeyFinding}
    (h : Examined docs forms sources findings st st')
    (h' : Examined docs forms sources findings' st' st'') :
    Examined docs forms sources (findings ++ findings') st st'' where
  claimsChecked := by
    rw [h'.claimsChecked, h.claimsChecked, flatMap_append, length_append,
      filter_append, length_append]
    omega
  flagged := by
    rw [h'.flagged, h.flagged, flatMap_append, filter_append, length_append,
      filter_append, length_append]
    omega
  stripped := by
    rw [h'.stripped, h.stripped, filter_append, length_append, Nat.add_assoc]
  keptFindings := by
    rw [h'.keptFindings, h.keptFindings, filter_append, append_assoc]

lemma examined_checkFinding (st : ValidatorState) (finding : KeyFinding) :
    Examined docs forms sources [finding] st
      (checkFinding docs forms sources .llm st finding) := by
  have hcounted : Counted (sources.map BriefSource.n) (findingMarkers finding) st _ :=
    (counted_structuralFlag _ finding.text (units "finding") st).trans
      (counted_foldl _ (fun child : ChildFinding => child.text) (fun _ => units "finding")
        finding.children _)
  rw [checkFinding]
  dsimp only
  revert hcounted
  generalize finding.children.foldl _ _ = st'
  intro hcounted
  obtain ⟨hchecked, hflagged, hstripped, hkept⟩ := hcounted
  by_cases heditorial : finding.editorial
  · rw [if_pos (.inr heditorial)]
    constructor <;> simp [hchecked, hflagged, hstripped, hkept, passes, isWeak, heditorial]
  · rw [if_neg (by simp [heditorial])]
    by_cases hmismatch : numericMismatch docs forms sources finding
    · rw [if_pos hmismatch]
      constructor <;>
        simp [hchecked, hflagged, hstripped, hkept, passes, isWeak, heditorial, hmismatch]
    · rw [if_neg hmismatch]
      split_ifs with hanchored
      · constructor <;>
          simp [hchecked, hflagged, hstripped, hkept, passes, isWeak, heditorial, hmismatch,
            hanchored]
      · constructor <;>
          simp [hchecked, hflagged, hstripped, hkept, passes, isWeak, heditorial, hmismatch,
            hanchored]

/-- **What the pass over the findings keeps and counts**, by induction on the findings. -/
theorem run_findings (findings : List KeyFinding) (st : ValidatorState) :
    Examined docs forms sources findings st
      (findings.foldl (checkFinding docs forms sources .llm) st) := by
  induction findings generalizing st with
  | nil => exact .nil docs forms sources st
  | cons finding findings ih => exact (examined_checkFinding st finding).trans (ih _)

lemma keyFindings_validateCitations :
    (validateCitations docs forms sources brief .llm).keyFindings =
      brief.keyFindings.filter (passes docs forms sources) := by
  have hrun : Examined docs forms sources brief.keyFindings (structuralPass sources brief) _ :=
    run_findings brief.keyFindings (structuralPass sources brief)
  have hkept := hrun.keptFindings
  rw [(counted_structuralPass sources brief).keptFindings] at hkept
  exact hkept

lemma verdict_validateCitations :
    (validateCitations docs forms sources brief .llm).verdict =
      { claimsChecked :=
          (briefMarkers sources brief ++ brief.keyFindings.flatMap findingMarkers).length +
            (brief.keyFindings.filter fun f => !f.editorial).length
        flagged :=
          ((briefMarkers sources brief ++ brief.keyFindings.flatMap findingMarkers).filter
            (· ∉ sources.map BriefSource.n)).length +
              (brief.keyFindings.filter (isWeak docs forms sources)).length
        stripped := (brief.keyFindings.filter fun f => !passes docs forms sources f).length } := by
  have hrun : Examined docs forms sources brief.keyFindings (structuralPass sources brief) _ :=
    run_findings brief.keyFindings (structuralPass sources brief)
  have hcounted := counted_structuralPass sources brief
  have hchecked := hrun.claimsChecked
  have hflagged := hrun.flagged
  have hstripped := hrun.stripped
  rw [hcounted.claimsChecked, Nat.zero_add, ← length_append] at hchecked
  rw [hcounted.flagged, Nat.zero_add, ← length_append, ← filter_append] at hflagged
  rw [hcounted.stripped, Nat.zero_add] at hstripped
  rw [← hchecked, ← hflagged, ← hstripped]
  rfl

end Validator

/-! ## What the result should be -/

section Holds

variable {n : ℕ} (order : LocaleOrder) (similarity : Similarity) (docs : Fin n → SynthesisDoc)
  (forms : TextForms)

abbrev sourcesOf : List BriefSource := (clusterSources order similarity docs).sources

def claimNumbers (finding : KeyFinding) : List JsString :=
  numberTokens (normalizeEvidence forms (claimBody finding))

def HasNumber (doc : SynthesisDoc) (raw : JsString) : Prop :=
  ∃ raw' ∈ numberTokens (normalizeEvidence forms (units doc.text)), SameNumber raw raw'

def IsCited (finding : KeyFinding) (i : Fin n) : Prop :=
  (clusterSources order similarity docs).clusterNumberByDoc i ∈ finding.citations

/-- What the result of the LLM strategy should be: a kept finding that is no commentary cites
declared sources, and each of its numbers is in a document of a cited cluster; and the verdict adds
up. -/
structure CitationsHold (brief : Brief (sourcesOf order similarity docs))
    (result : CitationValidationResult) : Prop where
  cites : ∀ finding ∈ result.keyFindings, finding.editorial = false →
    ∀ c ∈ finding.citations, ∃ source ∈ sourcesOf order similarity docs, source.n = c
  supported : ∀ finding ∈ result.keyFindings, finding.editorial = false →
    ∀ raw ∈ claimNumbers forms finding, ∃ i, IsCited order similarity docs finding i ∧
      HasNumber forms (docs i) raw
  checked : result.verdict.claimsChecked =
    (briefMarkers _ brief ++ brief.keyFindings.flatMap findingMarkers).length +
      (brief.keyFindings.filter fun f => !f.editorial).length
  adds_up : result.verdict.stripped + (result.keyFindings.filter fun f => !f.editorial).length =
    (brief.keyFindings.filter fun f => !f.editorial).length
  flagged : result.verdict.flagged =
    ((briefMarkers _ brief ++ brief.keyFindings.flatMap findingMarkers).filter
      (· ∉ (sourcesOf order similarity docs).map BriefSource.n)).length +
        (result.keyFindings.filter fun f => !f.editorial &&
          !isAnchored forms (claimBody f) (citedText docs forms (sourcesOf order similarity docs) f)).length

/-- A number of a finding comes from outside: a document of another cluster, but of the host of a
cited source, has it, or it is only where the texts of two documents meet. -/
def FromOutside (finding : KeyFinding) (raw : JsString) : Prop :=
  (∃ i, ¬ IsCited order similarity docs finding i ∧ HasNumber forms (docs i) raw ∧
    ∃ source ∈ sourcesOf order similarity docs, source.n ∈ finding.citations ∧
      source.host = (docs i).host) ∨
  (∃ raw' ∈ numberTokens (normalizeEvidence forms
      (citedText docs forms (sourcesOf order similarity docs) finding)), SameNumber raw raw') ∧
    ∀ source ∈ sourcesOf order similarity docs, source.n ∈ finding.citations →
      ∀ i, matchesSource source (docs i) = true → ¬ HasNumber forms (docs i) raw

/-- A number that comes from outside also comes from a cited cluster, in every finding that is no
commentary and whose numbers are all in the matched texts. -/
def SupportedFromCited (brief : Brief (sourcesOf order similarity docs)) : Prop :=
  ∀ finding ∈ brief.keyFindings, finding.editorial = false →
    numericMismatch docs forms (sourcesOf order similarity docs) finding = false →
      ∀ raw ∈ claimNumbers forms finding, FromOutside order similarity docs forms finding raw →
        ∃ i, IsCited order similarity docs finding i ∧ HasNumber forms (docs i) raw

variable {order similarity docs forms}

variable {source : BriefSource}

lemma exists_cluster_of_source (hsource : source ∈ sourcesOf order similarity docs) :
    ∃ k cluster, (clusterSources order similarity docs).clusters[k]? = some cluster ∧
      source = sourceOf docs cluster k := by
  have hn : n ≠ 0 := by
    rintro rfl
    exact absurd hsource not_mem_nil
  rw [sourcesOf, clusterSources_of_ne_zero _ _ _ hn] at hsource
  obtain ⟨⟨cluster, k⟩, hmem, rfl⟩ := mem_map.1 hsource
  refine ⟨k, cluster, ?_, rfl⟩
  rw [clusterSources_of_ne_zero _ _ _ hn]
  exact mem_zipIdx_iff_getElem?.1 hmem

lemma clusterNumber_of_url (hsource : source ∈ sourcesOf order similarity docs) {i : Fin n}
    (h : normalizedUrl (docs i) = source.finalUrl.getD source.url) :
    (clusterSources order similarity docs).clusterNumberByDoc i = source.n := by
  have hwell := clusterSources_wellFormed order similarity docs
  obtain ⟨k, cluster, hk, rfl⟩ := exists_cluster_of_source hsource
  have hrep := hwell.representative_mem cluster (mem_of_getElem? hk)
  obtain ⟨cluster', hcluster', hi, hrep'⟩ := hwell.together_of_url i cluster.representative h
  obtain ⟨k', hk'⟩ := mem_iff_getElem?.1 hcluster'
  rw [hwell.numbered k' cluster' hk' i hi, ← hwell.numbered k' cluster' hk' _ hrep',
    hwell.numbered k cluster hk _ hrep]
  rfl

lemma passes_iff {sources : List BriefSource} {finding : KeyFinding}
    (heditorial : finding.editorial = false) :
    passes docs forms sources finding ↔
      numericMismatch docs forms sources finding = false := by
  rw [passes, heditorial, Bool.false_or, Bool.not_eq_true']

lemma filter_not_passes (sources : List BriefSource) (findings : List KeyFinding) :
    (findings.filter fun f => !passes docs forms sources f) =
      (findings.filter fun f => !f.editorial).filter fun f => !passes docs forms sources f := by
  rw [filter_filter]
  refine filter_congr fun f _ => ?_
  rw [passes]
  generalize numericMismatch docs forms sources f = mismatch
  cases f.editorial <;> cases mismatch <;> rfl

lemma filter_isWeak (sources : List BriefSource) (findings : List KeyFinding) :
    findings.filter (isWeak docs forms sources) =
      (findings.filter (passes docs forms sources)).filter fun f => !f.editorial &&
        !isAnchored forms (claimBody f) (citedText docs forms sources f) := by
  rw [filter_filter]
  refine filter_congr fun f _ => ?_
  rw [isWeak, passes]
  generalize isAnchored forms (claimBody f) (citedText docs forms sources f) = anchored
  generalize numericMismatch docs forms sources f = mismatch
  cases f.editorial <;> cases mismatch <;> cases anchored <;> rfl

lemma filter_editorial (sources : List BriefSource) (findings : List KeyFinding) :
    ((findings.filter (passes docs forms sources)).filter fun f => !f.editorial) =
      (findings.filter fun f => !f.editorial).filter (passes docs forms sources) := by
  rw [filter_filter, filter_filter]
  exact filter_congr fun f _ => Bool.and_comm _ _

/-- **The result is as it should be exactly when no kept finding has a number only from outside.**

**Proof sketch.** The matched texts have every number of a kept finding. A number is in the text of
a matched document, or only where two texts meet. A document with the URL of a cited source is of
its cluster; another one was matched by its host. -/
theorem citationsHold_iff {n : ℕ} (order : LocaleOrder) (similarity : Similarity)
    (docs : Fin n → SynthesisDoc) (forms : TextForms)
    (brief : Brief (sourcesOf order similarity docs)) :
    CitationsHold order similarity docs forms brief
        (validateCitations docs forms (sourcesOf order similarity docs) brief .llm) ↔
      SupportedFromCited order similarity docs forms brief := by
  have hkept : (validateCitations docs forms _ brief .llm).keyFindings = _ :=
    keyFindings_validateCitations brief
  have hverdict : (validateCitations docs forms _ brief .llm).verdict = _ :=
    verdict_validateCitations brief
  constructor
  · intro hholds finding hmem heditorial hmismatch raw hraw _
    refine hholds.supported finding ?_ heditorial raw hraw
    rw [hkept]
    exact List.mem_filter.2 ⟨hmem, (passes_iff heditorial).2 hmismatch⟩
  · intro hsupported
    constructor
    · intro finding hfinding _ c hc
      rw [hkept] at hfinding
      exact List.mem_map.1 (brief.resolves finding (List.mem_filter.1 hfinding).1 c hc)
    · intro finding hfinding heditorial raw hraw
      rw [hkept] at hfinding
      obtain ⟨hmem, hpasses⟩ := List.mem_filter.1 hfinding
      have hmismatch := (passes_iff heditorial).1 hpasses
      have hmissing : numbersMissing forms (claimBody finding)
          (citedText docs forms (sourcesOf order similarity docs) finding) = [] := by
        simpa [numericMismatch] using hmismatch
      have hjoined := (numbersMissing_eq_nil_iff forms _ _).1 hmissing raw hraw
      have houtside := hsupported finding hmem heditorial hmismatch raw hraw
      by_cases hmatched : ∃ source ∈ sourcesOf order similarity docs,
          source.n ∈ finding.citations ∧
            ∃ i, matchesSource source (docs i) = true ∧ HasNumber forms (docs i) raw
      · obtain ⟨source, hsource, hcited, i, hmatches, hnumber⟩ := hmatched
        by_cases hi : IsCited order similarity docs finding i
        · exact ⟨i, hi, hnumber⟩
        · rw [matchesSource, Bool.or_eq_true, beq_iff_eq, beq_iff_eq] at hmatches
          rcases hmatches with hurl | hhost
          · rw [IsCited, clusterNumber_of_url hsource hurl] at hi
            exact absurd hcited hi
          · exact houtside (.inl ⟨i, hi, hnumber, source, hsource, hcited, hhost.symm⟩)
      · refine houtside (.inr ⟨hjoined, fun source hsource hcited i hmatches hnumber => ?_⟩)
        exact hmatched ⟨source, hsource, hcited, i, hmatches, hnumber⟩
    · rw [hverdict]
    · rw [hverdict, hkept, filter_editorial]
      have hlength := (brief.keyFindings.filter fun f => !f.editorial).length_eq_length_filter_add
        (passes docs forms (sourcesOf order similarity docs))
      rw [hlength, Nat.add_comm, ← filter_not_passes]
    · rw [hverdict, hkept, filter_isWeak]

end Holds

/-! ## A number of another page of the host -/

def asciiForms : TextForms where
  nfkc text := text
  toLowerCase text := text.map toLower
  isWordPoint c := c < 128 && isAlnum c.toUInt16

def neverSimilar : Similarity where
  between _ _ _ := 0
  symm _ _ _ := rfl
  perm _ _ _ := rfl

def shopPages : Fin 2 → SynthesisDoc :=
  ![{ docOf "https://shop.example/a" "Lamp in stock" with host := "shop.example" },
    { docOf "https://shop.example/b" "Chair for 42" with host := "shop.example" }]

/-- A finding that cites the first page, with a number of the second. -/
def lampBrief : Brief (sourcesOf codeOrder neverSimilar shopPages) where
  overview := []
  sections := []
  keyFindings := [⟨units "Lamp for 42", [1], false, []⟩]
  notices := []
  resolves := by decide +kernel

theorem uncited_page_supports :
    ¬ CitationsHold codeOrder neverSimilar shopPages asciiForms lampBrief
      (validateCitations shopPages asciiForms (sourcesOf codeOrder neverSimilar shopPages) lampBrief
        .llm) := by
  intro hholds
  have hpasses : passes shopPages asciiForms (sourcesOf codeOrder neverSimilar shopPages)
      ⟨units "Lamp for 42", [1], false, []⟩ = true := by
    decide +kernel
  have hkept : ⟨units "Lamp for 42", [1], false, []⟩ ∈ (validateCitations shopPages asciiForms
      (sourcesOf codeOrder neverSimilar shopPages) lampBrief .llm).keyFindings := by
    rw [keyFindings_validateCitations]
    exact List.mem_filter.2 ⟨List.mem_cons_self, hpasses⟩
  have hraw : units "42" ∈ claimNumbers asciiForms ⟨units "Lamp for 42", [1], false, []⟩ := by
    decide +kernel
  obtain ⟨i, hi, raw, hnumber, -⟩ := hholds.supported _ hkept rfl _ hraw
  obtain rfl | rfl : i = 0 ∨ i = 1 := by omega
  · have hnone : numberTokens (normalizeEvidence asciiForms (units (shopPages 0).text)) = [] := by
      decide +kernel
    rw [hnone] at hnumber
    exact absurd hnumber List.not_mem_nil
  · revert hi
    unfold IsCited
    decide +kernel

end Yantra.Synthesis
