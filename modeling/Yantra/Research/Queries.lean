import Yantra.Research.Corpus

/-!
# Follow-up queries

Between two hops `FollowUpQueryGenerator` turns the gaps into queries: from the reply of a language
model, or, where there is none or nothing in it is a valid query, from templates over the gaps. Both
ways a query is valid and not close to one issued before. The prompt, which says nothing to the
loop, is left out.

## Main definitions

* `Research.filterNovel` — the candidates close to no issued or kept query.
* `Research.generate` — the queries of the next hop, and whether the model supplied them.

## Main results

* `Research.generate_spec` — at most three queries, valid, and novel to the issued ones.
-/

namespace Yantra.Research

open List Option

def MAX_QUERIES_PER_HOP : ℕ := 3

def MIN_QUERY_CHARS : ℕ := 3

def MAX_QUERY_CHARS : ℕ := 120

def NOVELTY_JACCARD_THRESHOLD : ℚ := 8 / 10

def COMPARATIVE_CUES : List String :=
  ["vs", "versus", "compare", "comparison", "best", "cheapest", "price", "alternative",
    "alternatives"]

/-! ## The texts of queries -/

def normalizeQueryText (text : String) : String :=
  JsText.trim (JsText.collapseRuns JsText.isSpace text)

/-- A character of `CONTROL_CHARS`. -/
def isControlChar (c : Char) : Bool := c.toNat ≤ 0x1F || c.toNat = 0x7F

def isValidQuery (pf : ResearchPlatform) (query : String) : Bool :=
  decide (MIN_QUERY_CHARS ≤ JsText.utf16Length query) &&
    decide (JsText.utf16Length query ≤ MAX_QUERY_CHARS) &&
    !query.toList.any isControlChar && !(pf.tokenize query).isEmpty

/-- `jaccard`, over the sets of two token lists. -/
def jaccard (a b : List String) : ℚ :=
  let intersection := a.dedup.countP (b.contains ·)
  let union := a.dedup.length + b.dedup.length - intersection
  if union = 0 then 0 else (intersection : ℚ) / union

/-- Two queries are treated as duplicates. -/
def nearDuplicates (pf : ResearchPlatform) (q q' : String) : Bool :=
  NOVELTY_JACCARD_THRESHOLD ≤ jaccard (pf.tokenize q) (pf.tokenize q')

/-- The loop of `filterNovel`, with the queries kept so far. -/
def novelFrom (pf : ResearchPlatform) (issued : List String) :
    List String → List String → List String
  | kept, [] => kept
  | kept, candidate :: candidates =>
    if issued.any (nearDuplicates pf candidate) || kept.any (nearDuplicates pf candidate) then
      novelFrom pf issued kept candidates
    else novelFrom pf issued (kept ++ [candidate]) candidates

def filterNovel (pf : ResearchPlatform) (candidates issued : List String) : List String :=
  novelFrom pf issued [] candidates

/-- The loop of `dedupeQueries`, with the keys seen. -/
def dedupeFrom (pf : ResearchPlatform) : List String → List String → List String
  | _, [] => []
  | seen, query :: queries =>
    if seen.contains (pf.toLowerCase query) then dedupeFrom pf seen queries
    else query :: dedupeFrom pf (pf.toLowerCase query :: seen) queries

def dedupeQueries (pf : ResearchPlatform) (queries : List String) : List String :=
  dedupeFrom pf [] queries

def isComparative (pf : ResearchPlatform) (topic : String) : Bool :=
  COMPARATIVE_CUES.any fun cue => (pf.tokenize topic).contains cue

/-! ## Reading a reply -/

/-- `text.split(/\r?\n/u)`, with the characters of the line so far. -/
def splitLinesFrom : List Char → List Char → List (List Char)
  | line, [] => [line]
  | line, '\r' :: '\n' :: cs => line :: splitLinesFrom [] cs
  | line, '\n' :: cs => line :: splitLinesFrom [] cs
  | line, c :: cs => splitLinesFrom (line ++ [c]) cs

/-- `line.replace(/^\s*(?:[-*]|\d+[.)])\s*/u, '')` -/
def stripListMarker (line : List Char) : List Char :=
  match line.dropWhile JsText.isSpace with
  | '-' :: rest | '*' :: rest => rest.dropWhile JsText.isSpace
  | marked =>
    match marked.takeWhile Char.isDigit, marked.dropWhile Char.isDigit with
    | _ :: _, '.' :: rest | _ :: _, ')' :: rest => rest.dropWhile JsText.isSpace
    | _, _ => line

/-- `line.replace(/^["']|["']$/gu, '')` -/
def stripQuotes (line : List Char) : List Char :=
  let isQuote (c : Char) : Bool := c = '"' || c = '\''
  let opened := if line.head?.any isQuote then line.tail else line
  if opened.getLast?.any isQuote then opened.dropLast else opened

/-- The part of a text from its first `[` to its last `]`. -/
def bracketed (text : String) : Option String :=
  let start := text.toList.dropWhile (· ≠ '[')
  let slice := (start.reverse.dropWhile (· ≠ ']')).reverse
  if slice.isEmpty then none else some (String.ofList slice)

def parseQueries (pf : ResearchPlatform) (responseText : String) : List String :=
  let trimmed := JsText.trim responseText
  match (bracketed trimmed).bind pf.jsonStrings with
  | some queries => queries
  | none =>
    let lines := (splitLinesFrom [] trimmed.toList).map fun line =>
      JsText.trim (String.ofList (stripQuotes (stripListMarker line)))
    lines.filter fun line => !line.isEmpty

def validQueries (pf : ResearchPlatform) (responseText : String) : List String :=
  ((parseQueries pf responseText).map normalizeQueryText).filter (isValidQuery pf)

/-! ## Generation -/

/-- What a send is answered: a text, an error, or a thrown exception. -/
inductive LlmReply where
  | text (responseText : String)
  | failed (message : String)
  | threw (message : String)
  deriving DecidableEq

structure QueryGenResult where
  queries : List String
  usedLlm : Bool
  deriving DecidableEq

def templateQueries (topic : String) (comparative : Bool) (gap : String) : List String :=
  let subtopic := normalizeQueryText gap
  if subtopic.isEmpty then []
  else
    [topic ++ " " ++ subtopic, subtopic ++ " explained"] ++
      if comparative then [subtopic ++ " comparison"] else []

/-- `deterministic` -/
def deterministicQueries (pf : ResearchPlatform) (topic : String) (gaps issued : List String) :
    List String :=
  let generated := gaps.flatMap (templateQueries topic (isComparative pf topic))
  let valid := (generated.map normalizeQueryText).filter (isValidQuery pf)
  (filterNovel pf (dedupeQueries pf valid) issued).take MAX_QUERIES_PER_HOP

/-- `generateWithLlm`, on the reply to its send. -/
def generateWithLlm (pf : ResearchPlatform) (issued : List String) : LlmReply → Option (List String)
  | .text responseText =>
    match validQueries pf responseText with
    | [] => none
    | valid => some ((filterNovel pf valid issued).take MAX_QUERIES_PER_HOP)
  | .failed _ | .threw _ => none

/-- `generate`; the reply is `none` where no model is wired. -/
def generate (pf : ResearchPlatform) (topic : String) (gaps issued : List String)
    (reply : Option LlmReply) : QueryGenResult :=
  match reply.bind (generateWithLlm pf issued) with
  | some queries => ⟨queries, true⟩
  | none => ⟨deterministicQueries pf topic gaps issued, false⟩

/-! ## What is generated -/

/-- The queries kept are kept before, or candidates that no issued query duplicates.

**Proof sketch.** Induction on the candidates, the kept queries generalized. -/
lemma mem_novelFrom {pf : ResearchPlatform} {issued kept candidates : List String} {q : String}
    (h : q ∈ novelFrom pf issued kept candidates) :
    q ∈ kept ∨ q ∈ candidates ∧ issued.any (nearDuplicates pf q) = false := by
  induction candidates generalizing kept with
  | nil => exact .inl h
  | cons candidate candidates ih =>
    rw [novelFrom] at h
    split at h
    next =>
      rcases ih h with hkept | ⟨hmem, hnovel⟩
      · exact .inl hkept
      · exact .inr ⟨mem_cons_of_mem _ hmem, hnovel⟩
    next hnew =>
      simp only [Bool.or_eq_true, not_or, Bool.not_eq_true] at hnew
      rcases ih h with hkept | ⟨hmem, hnovel⟩
      · rcases mem_append.1 hkept with hkept | hq
        · exact .inl hkept
        · rw [mem_singleton] at hq
          exact .inr ⟨hq ▸ mem_cons_self, hq ▸ hnew.1⟩
      · exact .inr ⟨mem_cons_of_mem _ hmem, hnovel⟩

/-- A query without duplicates is one of the queries.

**Proof sketch.** Induction on the queries, the keys seen generalized. -/
lemma mem_dedupeFrom {pf : ResearchPlatform} {seen queries : List String} {q : String}
    (h : q ∈ dedupeFrom pf seen queries) : q ∈ queries := by
  induction queries generalizing seen with
  | nil => exact h
  | cons query queries ih =>
    rw [dedupeFrom] at h
    split at h
    next => exact mem_cons_of_mem _ (ih h)
    next =>
      rcases mem_cons.1 h with rfl | h
      · exact mem_cons_self
      · exact mem_cons_of_mem _ (ih h)

variable {pf : ResearchPlatform}

lemma novel_spec {candidates issued : List String} (hvalid : ∀ q ∈ candidates, isValidQuery pf q)
    {q : String} (h : q ∈ (filterNovel pf candidates issued).take MAX_QUERIES_PER_HOP) :
    isValidQuery pf q ∧ issued.any (nearDuplicates pf q) = false := by
  rcases mem_novelFrom (mem_of_mem_take h) with hnil | ⟨hmem, hnovel⟩
  · cases hnil
  · exact ⟨hvalid q hmem, hnovel⟩

lemma eq_of_generateWithLlm {issued queries : List String} {reply : LlmReply}
    (h : generateWithLlm pf issued reply = some queries) :
    ∃ valid : List String, (∀ q ∈ valid, isValidQuery pf q) ∧
      queries = (filterNovel pf valid issued).take MAX_QUERIES_PER_HOP := by
  cases reply with
  | text responseText =>
    refine ⟨validQueries pf responseText, fun q hq => (mem_filter.1 hq).2, ?_⟩
    rw [generateWithLlm] at h
    cases hvalid : validQueries pf responseText with
    | nil =>
      rw [hvalid] at h
      cases h
    | cons q qs =>
      rw [hvalid] at h
      exact (some.inj h).symm
  | failed message => cases h
  | threw message => cases h

/-- At most three queries are generated, valid ones, and none duplicates an issued one. -/
theorem generate_spec (pf : ResearchPlatform) (topic : String) (gaps issued : List String)
    (reply : Option LlmReply) :
    (generate pf topic gaps issued reply).queries.length ≤ MAX_QUERIES_PER_HOP ∧
      ∀ q ∈ (generate pf topic gaps issued reply).queries,
        isValidQuery pf q ∧ issued.any (nearDuplicates pf q) = false := by
  unfold generate
  split
  next queries hreply =>
    obtain ⟨reply, -, hreply⟩ := bind_eq_some_iff.1 hreply
    obtain ⟨valid, hvalid, rfl⟩ := eq_of_generateWithLlm hreply
    exact ⟨length_take_le _ _, fun q hq => novel_spec hvalid hq⟩
  next =>
    refine ⟨length_take_le _ _, fun q hq => novel_spec (fun q' hq' => ?_) hq⟩
    exact (mem_filter.1 (mem_dedupeFrom hq')).2

/-- The call of a model counts as used exactly when its reply holds a valid query. -/
theorem usedLlm_generate (pf : ResearchPlatform) (topic : String) (gaps issued : List String)
    (responseText : String) :
    (generate pf topic gaps issued (some (.text responseText))).usedLlm ↔
      validQueries pf responseText ≠ [] := by
  rw [generate, bind_some, generateWithLlm]
  cases hvalid : validQueries pf responseText with
  | nil => simp
  | cons q qs => simp

end Yantra.Research
