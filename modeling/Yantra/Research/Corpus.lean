import Mathlib.Data.List.Sort
import Mathlib.Tactic.Positivity
import Yantra.Extraction.DocumentStore

/-!
# The budgets, the corpus and the coverage of a research run

`BudgetTracker` counts what a research run spends and says which cap is reached. `SourcePool`
keeps the documents: one for a page, none that copies another, at most three of a host, at most
`maxSources` in all. `CoverageTracker` tells which subtopics two pooled documents speak of.
The URL parser, the tokenizer, the similarity of texts and the order of labels are parameters.

## Main definitions

* `Research.SourcePool` — the corpus, with its size bound; `add` admits a candidate.
* `Research.CoverageTracker` — the subtopics, their score and the gaps.

## Main results

* `Research.BudgetTracker.checkpoint_eq_some` — what an exhausted budget says of the counts.
* `Research.SourcePool.add_spec` — a kept candidate adds one document, less the one it
  outranks.
-/

namespace Yantra.Research

open List

/-! ## Budgets -/

structure ResearchBudget where
  maxHops : ℕ
  maxSources : ℕ
  maxWallClockMs : ℕ
  maxLlmCalls : ℕ

/-- `TerminationReason`; all but `coverage_met` and `no_novel_queries` are budget dimensions. -/
inductive TerminationReason where
  | coverage_met | max_hops | no_novel_queries | wall_clock | max_sources | max_llm_calls
  deriving DecidableEq

structure BudgetExhausted where
  dimension : TerminationReason
  message : String
  deriving DecidableEq

structure BudgetTracker where
  budget : ResearchBudget
  startedAtMs : ℤ
  hopsUsed : ℕ := 0
  sourcesUsed : ℕ := 0
  llmCallsUsed : ℕ := 0

namespace BudgetTracker

def recordHop (b : BudgetTracker) : BudgetTracker := { b with hopsUsed := b.hopsUsed + 1 }

def recordSources (b : BudgetTracker) (count : ℕ) : BudgetTracker :=
  { b with sourcesUsed := b.sourcesUsed + count }

def recordLlmCall (b : BudgetTracker) : BudgetTracker :=
  { b with llmCallsUsed := b.llmCallsUsed + 1 }

def canStartHop (b : BudgetTracker) : Bool := b.hopsUsed < b.budget.maxHops

def sourcesExhausted (b : BudgetTracker) : Bool := b.budget.maxSources ≤ b.sourcesUsed

def llmCallsExhausted (b : BudgetTracker) : Bool := b.budget.maxLlmCalls ≤ b.llmCallsUsed

/-- `elapsedMs`, at a reading of the clock. -/
def elapsedMs (b : BudgetTracker) (now : ℤ) : ℤ := max 0 (now - b.startedAtMs)

/-- `checkpoint`, at a reading of the clock; `none` is its `ok`. -/
def checkpoint (b : BudgetTracker) (now : ℤ) : Option BudgetExhausted :=
  if b.budget.maxWallClockMs ≤ b.elapsedMs now then
    some ⟨.wall_clock, "wall-clock budget exhausted"⟩
  else if b.sourcesExhausted then some ⟨.max_sources, "source budget exhausted"⟩
  else if b.llmCallsExhausted then some ⟨.max_llm_calls, "LLM-call budget exhausted"⟩
  else none

/-- The count behind a budget dimension has reached its cap, the clock at `now`. -/
def Reached (b : BudgetTracker) (now : ℤ) : TerminationReason → Prop
  | .wall_clock => b.budget.maxWallClockMs ≤ b.elapsedMs now
  | .max_sources => b.budget.maxSources ≤ b.sourcesUsed
  | .max_llm_calls => b.budget.maxLlmCalls ≤ b.llmCallsUsed
  | .max_hops => b.budget.maxHops ≤ b.hopsUsed
  | .coverage_met | .no_novel_queries => False

variable {b : BudgetTracker} {now : ℤ}

lemma checkpoint_eq_some {e : BudgetExhausted} (h : b.checkpoint now = some e) :
    b.Reached now e.dimension := by
  unfold checkpoint at h
  split at h
  next hclock =>
    cases h
    exact hclock
  next =>
    split at h
    next hsources =>
      cases h
      have h : b.budget.maxSources ≤ b.sourcesUsed := of_decide_eq_true hsources
      exact h
    next =>
      split at h
      next hcalls =>
        cases h
        have h : b.budget.maxLlmCalls ≤ b.llmCallsUsed := of_decide_eq_true hcalls
        exact h
      next => cases h

lemma checkpoint_eq_none (h : b.checkpoint now = none) :
    b.sourcesUsed < b.budget.maxSources ∧ b.llmCallsUsed < b.budget.maxLlmCalls := by
  unfold checkpoint at h
  split at h
  next => cases h
  next =>
    split at h
    next => cases h
    next hsources =>
      split at h
      next => cases h
      next hcalls => simpa [sourcesExhausted, llmCallsExhausted] using And.intro hsources hcalls

end BudgetTracker

/-! ## The source pool -/

/-- A retrieved document, as far as the corpus reads it. -/
structure SynthesisDoc where
  url : String
  finalUrl : Option String
  host : String
  text : String
  deriving DecidableEq

/-- What the platform and the similarity functions supply. -/
structure ResearchPlatform extends UrlPlatform where
  /-- `tokenize` of `synthesis/similarity.ts` -/
  tokenize : String → List String
  /-- Whether a text reaches the similarity threshold with one of the kept texts. -/
  similarToKept : String → List String → Bool
  /-- `topEntities`: the named entities of the texts with their document counts. -/
  topEntities : List String → List (String × ℕ)
  /-- `a.localeCompare(b) <= 0` -/
  localeLe : String → String → Bool
  /-- The strings of a JSON array, or `none` when the text is not one. -/
  jsonStrings : String → Option (List String)

/-- `normalizeUrl(doc.finalUrl ?? doc.url)` -/
def SynthesisDoc.identity (pf : ResearchPlatform) (doc : SynthesisDoc) : String :=
  canonicalUrl pf.toUrlPlatform (doc.finalUrl.getD doc.url)

structure PoolEntry where
  doc : SynthesisDoc
  rank : ℕ
  deriving DecidableEq

inductive PoolRejection where
  | duplicate_url | near_duplicate | host_cap | max_sources
  deriving DecidableEq

structure PoolAddResult where
  kept : Bool
  rejection : Option PoolRejection
  deriving DecidableEq

def DEFAULT_PER_HOST_CAP : ℕ := 3

/-- `SourcePool`: the documents kept, never more than `maxSources`. -/
structure SourcePool where
  maxSources : ℕ
  perHostCap : ℕ
  entries : List PoolEntry
  normalizedUrls : List String
  size_le : entries.length ≤ maxSources

def worstRanked : List PoolEntry → Option PoolEntry
  | [] => none
  | e :: es => some (es.foldl (fun a b => if b.rank ≤ a.rank then a else b) e)

/-- The worst ranked entry is one of the entries.

**Proof sketch.** Induction on the entries after the first, the best guess so far generalized. -/
lemma mem_of_worstRanked {es : List PoolEntry} {w : PoolEntry} (h : worstRanked es = some w) :
    w ∈ es := by
  cases es with
  | nil => cases h
  | cons e es =>
    obtain rfl := Option.some.inj h
    clear h
    induction es generalizing e with
    | nil => simp
    | cons e' es ih =>
      rw [foldl_cons]
      split
      next => exact cons_subset_cons e (subset_cons_self e' es) (ih e)
      next => exact mem_cons_of_mem e (ih e')

namespace SourcePool

def new (maxSources : ℕ) : SourcePool where
  maxSources := max 1 maxSources
  perHostCap := max 1 DEFAULT_PER_HOST_CAP
  entries := []
  normalizedUrls := []
  size_le := Nat.zero_le _

def size (pool : SourcePool) : ℕ := pool.entries.length

def isFull (pool : SourcePool) : Bool := pool.maxSources ≤ pool.entries.length

/-- `docs`: best rank first, and the older first among equals. -/
def docs (pool : SourcePool) : List SynthesisDoc :=
  (pool.entries.insertionSort fun a b => a.rank ≤ b.rank).map PoolEntry.doc

def isNearDuplicate (pf : ResearchPlatform) (pool : SourcePool) (text : String) : Bool :=
  !pool.entries.isEmpty && pf.similarToKept text (pool.entries.map (·.doc.text))

def hostEntries (pool : SourcePool) (host : String) : List PoolEntry :=
  pool.entries.filter (·.doc.host = host)

/-- The worst peer of a host that holds its cap of documents. -/
def worstPeer (pool : SourcePool) (host : String) : Option PoolEntry :=
  if pool.perHostCap ≤ (pool.hostEntries host).length then worstRanked (pool.hostEntries host)
  else none

variable {pool : SourcePool}

lemma mem_of_worstPeer {host : String} {w : PoolEntry} (h : pool.worstPeer host = some w) :
    w ∈ pool.entries := by
  unfold worstPeer at h
  split at h
  next => exact mem_of_mem_filter (mem_of_worstRanked h)
  next => cases h

/-- `insert`, into a pool with room. -/
def insert (pool : SourcePool) (doc : SynthesisDoc) (rank : ℕ) (identity : String)
    (h : pool.entries.length < pool.maxSources) : SourcePool :=
  { pool with
    entries := pool.entries ++ [⟨doc, rank⟩]
    normalizedUrls := pool.normalizedUrls ++ [identity]
    size_le := by rw [List.length_append]; exact h }

def evict (pf : ResearchPlatform) (pool : SourcePool) (entry : PoolEntry) : SourcePool :=
  { pool with
    entries := pool.entries.erase entry
    normalizedUrls := pool.normalizedUrls.filter (· ≠ entry.doc.identity pf)
    size_le := List.length_erase_le.trans pool.size_le }

variable (pf : ResearchPlatform)

lemma length_evict_lt {entry : PoolEntry} (h : entry ∈ pool.entries) :
    (pool.evict pf entry).entries.length < pool.maxSources := by
  have hlen := length_erase_of_mem h
  have hpos := length_pos_of_mem h
  have hle := pool.size_le
  change (pool.entries.erase entry).length < pool.maxSources
  omega

/-- The part of `add` after the duplicates: against the worst peer of a full host, or into room. -/
def addBeside (pf : ResearchPlatform) (pool : SourcePool) (doc : SynthesisDoc) (rank : ℕ) :
    (peer : Option PoolEntry) → (∀ w, peer = some w → w ∈ pool.entries) →
    SourcePool × PoolAddResult
  | some worst, h =>
    if worst.rank ≤ rank then (pool, ⟨false, some .host_cap⟩)
    else
      ((pool.evict pf worst).insert doc rank (doc.identity pf) (length_evict_lt pf (h worst rfl)),
        ⟨true, none⟩)
  | none, _ =>
    if hroom : pool.entries.length < pool.maxSources then
      (pool.insert doc rank (doc.identity pf) hroom, ⟨true, none⟩)
    else (pool, ⟨false, some .max_sources⟩)

def add (pf : ResearchPlatform) (pool : SourcePool) (doc : SynthesisDoc) (rank : ℕ) :
    SourcePool × PoolAddResult :=
  if pool.normalizedUrls.contains (doc.identity pf) then (pool, ⟨false, some .duplicate_url⟩)
  else if pool.isNearDuplicate pf doc.text then (pool, ⟨false, some .near_duplicate⟩)
  else pool.addBeside pf doc rank (pool.worstPeer doc.host) fun _ h => mem_of_worstPeer h

/-- The entry that `add` would evict for the candidate. -/
def outranked (pf : ResearchPlatform) (pool : SourcePool) (doc : SynthesisDoc) (rank : ℕ) :
    Option PoolEntry :=
  if pool.normalizedUrls.contains (doc.identity pf) || pool.isNearDuplicate pf doc.text then none
  else (pool.worstPeer doc.host).filter fun worst => rank < worst.rank

/-- What `add` does beside a peer: to the cap nothing, to the size as told. -/
lemma addBeside_spec (pool : SourcePool) (doc : SynthesisDoc) (rank : ℕ) (peer : Option PoolEntry)
    (h : ∀ w, peer = some w → w ∈ pool.entries) :
    let added := pool.addBeside pf doc rank peer h
    added.1.maxSources = pool.maxSources ∧
      added.1.size + (if (peer.filter fun w => rank < w.rank).isSome then 1 else 0) =
        pool.size + (if added.2.kept then 1 else 0) ∧
      ((peer.filter fun w => rank < w.rank).isSome → added.2.kept) := by
  cases peer with
  | none =>
    by_cases hroom : pool.entries.length < pool.maxSources
    · simp [addBeside, hroom, insert, size]
    · simp [addBeside, hroom]
  | some worst =>
    have hmem := h worst rfl
    have hlen := length_erase_of_mem hmem
    have hpos := length_pos_of_mem hmem
    by_cases hrank : worst.rank ≤ rank
    · simp [addBeside, hrank, Option.filter]
    · refine ⟨by simp [addBeside, hrank, insert, evict], ?_, by simp [addBeside, hrank]⟩
      simp only [addBeside, hrank, if_false, insert, evict, size, length_append,
        length_singleton, Option.filter, not_le.1 hrank, decide_true, if_true,
        Option.isSome_some]
      omega

/-- A candidate changes nothing of the cap, and a kept one adds one document, less the one it
outranks; one that outranks another is kept. -/
lemma add_spec (pool : SourcePool) (doc : SynthesisDoc) (rank : ℕ) :
    (pool.add pf doc rank).1.maxSources = pool.maxSources ∧
      (pool.add pf doc rank).1.size + (if (pool.outranked pf doc rank).isSome then 1 else 0) =
        pool.size + (if (pool.add pf doc rank).2.kept then 1 else 0) ∧
      ((pool.outranked pf doc rank).isSome → (pool.add pf doc rank).2.kept) := by
  unfold add outranked
  cases pool.normalizedUrls.contains (doc.identity pf) with
  | true => exact ⟨rfl, rfl, fun h => (nomatch h)⟩
  | false =>
    cases pool.isNearDuplicate pf doc.text with
    | true => exact ⟨rfl, rfl, fun h => (nomatch h)⟩
    | false => exact addBeside_spec pf pool doc rank _ _

end SourcePool

/-! ## Coverage -/

def MIN_EVIDENCE_DOCS : ℕ := 2

structure Subtopic where
  label : String
  tokens : List String
  weight : ℕ
  covered : Bool := false
  evidenceDocIdx : List ℕ := []

/-- `CoverageTracker`; `seenLabels` are the lowercased labels of the subtopics. -/
structure CoverageTracker where
  subtopics : List Subtopic := []
  seenLabels : List String := []
  seeded : Bool := false

/-- What the loop reads of an interim Brief: headings with their numbers of citations. -/
structure InterimBrief where
  sections : List (String × ℕ)

/-- `evidences`: all informative tokens of the subtopic are in the document. -/
def evidences (subtopicTokens docTokens : List String) : Bool :=
  !subtopicTokens.isEmpty && subtopicTokens.length ≤ subtopicTokens.countP (docTokens.contains ·)

def collapsedLabel (rawLabel : String) : String :=
  JsText.trim (JsText.collapseRuns JsText.isSpace rawLabel)

namespace CoverageTracker

def addSubtopic (pf : ResearchPlatform) (c : CoverageTracker) (rawLabel : String) (weight : ℕ) :
    CoverageTracker :=
  let label := collapsedLabel rawLabel
  let tokens := pf.tokenize label
  if label.isEmpty || tokens.isEmpty then c
  else
    let key := pf.toLowerCase label
    if c.seenLabels.contains key then
      match c.subtopics.findIdx? fun t => pf.toLowerCase t.label = key with
      | some i =>
        { c with subtopics := c.subtopics.modify i fun t => { t with weight := t.weight + weight } }
      | none => c
    else
      { c with
        subtopics := c.subtopics ++ [{ label := label, tokens := tokens, weight := weight }]
        seenLabels := c.seenLabels ++ [key] }

def update (pf : ResearchPlatform) (c : CoverageTracker) (docs : List SynthesisDoc) :
    CoverageTracker :=
  let docTokens := docs.map fun doc => pf.tokenize doc.text
  { c with
    subtopics := c.subtopics.map fun t =>
      let evidence := docTokens.findIdxs fun tokens => evidences t.tokens tokens
      { t with evidenceDocIdx := evidence, covered := MIN_EVIDENCE_DOCS ≤ evidence.length } }

def seed (pf : ResearchPlatform) (c : CoverageTracker) (brief : InterimBrief)
    (docs : List SynthesisDoc) : CoverageTracker :=
  let c := brief.sections.foldl (fun c s => c.addSubtopic pf s.1 (max 1 s.2)) c
  let c := (pf.topEntities (docs.map SynthesisDoc.text)).foldl (fun c e => c.addSubtopic pf e.1 e.2) c
  { c with seeded := true }.update pf docs

/-- The weights summed, of all subtopics or of the covered ones. -/
def weightOf (subtopics : List Subtopic) : ℕ := (subtopics.map Subtopic.weight).sum

/-- `score`, the quotient exact. -/
def score (c : CoverageTracker) : ℚ :=
  let total := weightOf c.subtopics
  if total = 0 then 0 else (weightOf (c.subtopics.filter Subtopic.covered) : ℚ) / total

/-- `gaps`: the uncovered labels, the heaviest first. -/
def gaps (pf : ResearchPlatform) (c : CoverageTracker) : List String :=
  let before (a b : Subtopic) : Bool :=
    if a.weight = b.weight then pf.localeLe a.label b.label else decide (b.weight < a.weight)
  ((c.subtopics.filter fun t => !t.covered).insertionSort fun a b => before a b).map Subtopic.label

end CoverageTracker

end Yantra.Research
