import Mathlib.Tactic.DeriveFintype
import Yantra.Research.Queries

/-!
# The research loop

`ResearchLoop.run` as a machine driven by what it waits for: the clock at a checkpoint, a search,
a page, the interim synthesis, a reply to a send of the query generator or of the synthesizer. The
send is counted where its reply comes in, as it is made right before. The interim synthesizer is
the deterministic one, the default, which sends nothing. How a draft is judged is a parameter.

## Main definitions

* `Research.ResearchRun`, `Research.researchLoop` — a run and its machine.
* `Research.ChargedSends`, `Research.Replaces` — a step that charges its send, and
  one by which a document takes the place of another.

## Main results

* `Research.research_within_budget` — the bounds and the truth of the reason.
* `Research.research_over_budget` — a run over its calls, and one with a reason untrue.
-/

namespace Yantra.Research

open Nat Prod Machine

/-! ## The run -/

/-- `SearchResult`, as far as the loop reads it. -/
structure SearchResult where
  url : String
  rank : ℕ
  deriving DecidableEq

/-- What one search comes to; an error under an aborted signal ends the searches of the hop. -/
inductive SearchReply where
  | results (results : List SearchResult)
  | failed (message : String)
  | aborted
  deriving DecidableEq

/-- `SourceFailure`, its stage as a text. -/
structure SourceFailure where
  url : String
  host : String
  stage : String
  reason : String
  deriving DecidableEq

/-- `ProcessedSource`: a document or a failure. -/
inductive ProcessedSource where
  | doc (doc : SynthesisDoc)
  | failure (failure : SourceFailure)
  deriving DecidableEq

structure BriefNotice where
  source : String
  reason : String
  kind : String
  deriving DecidableEq

structure HopOutcome where
  resultsCount : ℕ
  docsFetched : ℕ := 0
  docsKept : ℕ := 0
  budgetStop : Option BudgetExhausted := none
  deriving DecidableEq

structure ResearchHop where
  index : ℕ
  queries : List String
  resultsCount : ℕ
  docsFetched : ℕ
  docsKept : ℕ
  gapsIdentified : List String
  coverage : ℚ

/-- What becomes of a draft of the model: published, asked for again, or given up. -/
inductive DraftVerdict where
  | accepted | invalid | spoiled
  deriving DecidableEq

/-- The options and the injected stages of a run. -/
structure ResearchDeps where
  platform : ResearchPlatform
  topic : String
  budget : ResearchBudget
  coverageTarget : ℚ
  /-- The query generator has a model and a prompt. -/
  queryLlm : Bool
  /-- `maxReprompts` of the synthesizer, or `none` for the deterministic one. -/
  maxReprompts : Option ℕ
  /-- `parseDraft`, `validateBrief` and the citation pass on a reply. -/
  judgeDraft : List SynthesisDoc → String → DraftVerdict

/-- Where a run stands: what it waits for next. -/
inductive ResearchPhase where
  /-- At the head of the loop, before its checkpoint. -/
  | head
  /-- A query and those after it; the identities seen and the hits so far. -/
  | searching (query : String) (queries seen : List String) (combined : List SearchResult)
  /-- A result and those after it, before its checkpoint. -/
  | fetching (result : SearchResult) (pending : List SearchResult) (tally : HopOutcome)
  /-- The interim synthesis after a hop. -/
  | mapping (tally : HopOutcome)
  /-- The query generator's send. -/
  | generating
  /-- The synthesizer's send, after so many others. -/
  | drafting (attempt : ℕ)
  /-- The deterministic synthesizer, chosen or fallen back to. -/
  | composing
  | finished
  | failed
  deriving DecidableEq

structure ResearchRun where
  budget : BudgetTracker
  pool : SourcePool
  coverage : CoverageTracker := {}
  failures : List SourceFailure := []
  extraNotices : List BriefNotice := []
  hops : List ResearchHop := []
  issuedQueries : List String := []
  hopQueries : List String := []
  nextQueries : List String
  terminationReason : TerminationReason := .max_hops
  budgetStop : Option BudgetExhausted := none
  phase : ResearchPhase := .head
  /-- The clock at the last checkpoint. -/
  lastReading : ℤ
  /-- How often `llm.send` was called. -/
  sends : ℕ := 0

inductive ResearchAnswer where
  | checked (now : ℤ)
  | searched (reply : SearchReply)
  | fetched (now : ℤ) (processed : ProcessedSource)
  | mapped (interim : Option InterimBrief)
  | generated (reply : LlmReply)
  | drafted (reply : LlmReply)
  | composed (success : Bool)
  /-- An unexpected error, such as a failed write. -/
  | crashed

/-! ## Its steps -/

/-- The head of `finalize`: the synthesizer is at work. -/
def startSynthesis (deps : ResearchDeps) (run : ResearchRun) : ResearchRun :=
  { run with phase := if deps.maxReprompts.isSome then .drafting 0 else .composing }

/-- `finalize` for a reason. -/
def stopFor (deps : ResearchDeps) (run : ResearchRun) (reason : TerminationReason) : ResearchRun :=
  startSynthesis deps { run with terminationReason := reason }

/-- `finalize` after an exhausted budget. -/
def stopOn (deps : ResearchDeps) (run : ResearchRun) (stop : BudgetExhausted) : ResearchRun :=
  stopFor deps { run with budgetStop := some stop } stop.dimension

def loopHead (deps : ResearchDeps) (run : ResearchRun) (now : ℤ) : ResearchRun :=
  let run := { run with lastReading := now }
  match run.budget.checkpoint now with
  | some stop => stopOn deps run stop
  | none =>
    if !run.budget.canStartHop then stopFor deps run .max_hops
    else
      match run.nextQueries with
      | [] => stopFor deps run .no_novel_queries
      | query :: queries =>
        { run with
          budget := run.budget.recordHop
          hopQueries := run.nextQueries
          issuedQueries := run.issuedQueries ++ run.nextQueries
          phase := .searching query queries [] [] }

/-- To the next result of the hop, or on to the interim synthesis. -/
def toNextResult (run : ResearchRun) (results : List SearchResult) (tally : HopOutcome) :
    ResearchRun :=
  match results with
  | [] => { run with phase := .mapping tally }
  | result :: pending =>
    { run with
      phase := if run.pool.isFull then .mapping tally else .fetching result pending tally }

/-- The next search of the hop, or the first of its results. -/
def toNextSearch (run : ResearchRun) (queries seen : List String) (combined : List SearchResult) :
    ResearchRun :=
  match queries with
  | [] => toNextResult run combined { resultsCount := combined.length }
  | query :: queries => { run with phase := .searching query queries seen combined }

/-- The results whose page was not seen, added to those before them. -/
def combineResults (pf : ResearchPlatform) :
    List SearchResult → List String × List SearchResult → List String × List SearchResult
  | [], found => found
  | result :: results, (seen, combined) =>
    let identity := canonicalUrl pf.toUrlPlatform result.url
    if seen.contains identity then combineResults pf results (seen, combined)
    else combineResults pf results (seen ++ [identity], combined ++ [result])

/-- One round of the loop in `search`. -/
def searchReplied (deps : ResearchDeps) (run : ResearchRun) (query : String)
    (queries seen : List String) (combined : List SearchResult) : SearchReply → ResearchRun
  | .aborted => toNextResult run combined { resultsCount := combined.length }
  | .failed message =>
    toNextSearch
      { run with extraNotices := run.extraNotices ++
          [⟨"search", "query \"" ++ query ++ "\" failed: " ++ message, "other"⟩] }
      queries seen combined
  | .results results =>
    let found := combineResults deps.platform results (seen, combined)
    toNextSearch run queries found.1 found.2

def poolDocument (deps : ResearchDeps) (run : ResearchRun) (tally : HopOutcome)
    (doc : SynthesisDoc) (rank : ℕ) : ResearchRun × HopOutcome :=
  let added := run.pool.add deps.platform doc rank
  let run := { run with pool := added.1 }
  if added.2.kept then
    ({ run with budget := run.budget.recordSources 1 },
      { tally with docsFetched := tally.docsFetched + 1, docsKept := tally.docsKept + 1 })
  else (run, { tally with docsFetched := tally.docsFetched + 1 })

/-- One round of the loop in `runHop`. -/
def resultFetched (deps : ResearchDeps) (run : ResearchRun) (result : SearchResult)
    (pending : List SearchResult) (tally : HopOutcome) (now : ℤ) (processed : ProcessedSource) :
    ResearchRun :=
  let run := { run with lastReading := now }
  match run.budget.checkpoint now with
  | some stop => { run with phase := .mapping { tally with budgetStop := some stop } }
  | none =>
    match processed with
    | .doc doc =>
      let pooled := poolDocument deps run tally doc result.rank
      toNextResult pooled.1 pending pooled.2
    | .failure failure =>
      toNextResult { run with failures := run.failures ++ [failure] } pending tally

/-- The coverage after a hop: seeded by the first interim Brief, else updated. -/
def mapCoverage (pf : ResearchPlatform) (coverage : CoverageTracker) (interim : Option InterimBrief)
    (docs : List SynthesisDoc) : CoverageTracker :=
  match interim with
  | some brief =>
    if coverage.seeded then coverage.update pf docs else coverage.seed pf brief docs
  | none => coverage.update pf docs

/-- The follow-up queries are generated; `reply` is `none` where no model is wired. -/
def queriesGenerated (deps : ResearchDeps) (run : ResearchRun) (reply : Option LlmReply) :
    ResearchRun :=
  let generated := generate deps.platform deps.topic (run.coverage.gaps deps.platform)
    run.issuedQueries reply
  { run with
    budget := if generated.usedLlm then run.budget.recordLlmCall else run.budget
    nextQueries := generated.queries
    phase := .head }

def recordHop (deps : ResearchDeps) (run : ResearchRun) (tally : HopOutcome)
    (interim : Option InterimBrief) : ResearchRun :=
  let coverage := mapCoverage deps.platform run.coverage interim run.pool.docs
  { run with
    coverage := coverage
    hops := run.hops ++
      [⟨run.budget.hopsUsed, run.hopQueries, tally.resultsCount, tally.docsFetched, tally.docsKept,
        coverage.gaps deps.platform, coverage.score⟩] }

/-- The end of a round of the loop. -/
def hopMapped (deps : ResearchDeps) (run : ResearchRun) (tally : HopOutcome)
    (interim : Option InterimBrief) : ResearchRun :=
  let run := recordHop deps run tally interim
  match tally.budgetStop with
  | some stop => stopOn deps run stop
  | none =>
    if deps.coverageTarget ≤ run.coverage.score then stopFor deps run .coverage_met
    else if !run.budget.canStartHop then stopFor deps run .max_hops
    else if deps.queryLlm then { run with phase := .generating }
    else queriesGenerated deps run none

def generatorReplied (deps : ResearchDeps) (run : ResearchRun) (reply : LlmReply) : ResearchRun :=
  let run := { run with sends := run.sends + 1 }
  match reply with
  | .threw _ => { run with phase := .failed }
  | reply => queriesGenerated deps run (some reply)

/-- One round of the loop in `LlmSynthesizer.synthesize`. -/
def draftReplied (deps : ResearchDeps) (run : ResearchRun) (attempt : ℕ) (reply : LlmReply) :
    ResearchRun :=
  let run := { run with sends := run.sends + 1 }
  match reply with
  | .threw _ => { run with phase := .failed }
  | .failed _ => { run with phase := .composing }
  | .text responseText =>
    match deps.judgeDraft run.pool.docs responseText with
    | .accepted => { run with phase := .finished }
    | .spoiled => { run with phase := .composing }
    | .invalid =>
      { run with
        phase := if attempt < deps.maxReprompts.getD 0 then .drafting (attempt + 1)
          else .composing }

/-- One step of the run; an answer to another question changes nothing. -/
def researchStep (deps : ResearchDeps) (run : ResearchRun) (answer : ResearchAnswer) :
    ResearchRun :=
  match run.phase, answer with
  | .finished, _ | .failed, _ => run
  | _, .crashed => { run with phase := .failed }
  | .head, .checked now => loopHead deps run now
  | .searching query queries seen combined, .searched reply =>
    searchReplied deps run query queries seen combined reply
  | .fetching result pending tally, .fetched now processed =>
    resultFetched deps run result pending tally now processed
  | .mapping tally, .mapped interim => hopMapped deps run tally interim
  | .generating, .generated reply => generatorReplied deps run reply
  | .drafting attempt, .drafted reply => draftReplied deps run attempt reply
  | .composing, .composed success => { run with phase := if success then .finished else .failed }
  | _, _ => run

/-- `options.topic.trim() || options.topic` -/
def firstQuery (topic : String) : String :=
  if (JsText.trim topic).isEmpty then topic else JsText.trim topic

/-- The machine of a run begun at `now`. -/
def researchLoop (deps : ResearchDeps) (now : ℤ) : Machine ResearchRun ResearchAnswer where
  init :=
    { budget := { budget := deps.budget, startedAtMs := now }
      pool := SourcePool.new deps.budget.maxSources
      nextQueries := [firstQuery deps.topic]
      lastReading := now }
  step := researchStep deps

/-! ## What a run is waited for, and when it is over -/

/-- The answer is to the question that the run waits on; an error can come at any time. -/
def Fits (run : ResearchRun) (answer : ResearchAnswer) : Prop :=
  match run.phase, answer with
  | _, .crashed => True
  | .head, .checked _ | .searching .., .searched _ | .fetching .., .fetched .. => True
  | .mapping _, .mapped _ | .generating, .generated _ => True
  | .drafting _, .drafted _ | .composing, .composed _ => True
  | _, _ => False

/-- The run has come to its end. -/
def Over (run : ResearchRun) : Prop := run.phase = .finished ∨ run.phase = .failed

/-- The place of a phase in the order of a round, with a count of what is left of it. -/
def phaseRank (deps : ResearchDeps) : ResearchPhase → ℕ × ℕ
  | .finished | .failed => (0, 0)
  | .composing => (1, 0)
  | .drafting attempt => (2, deps.maxReprompts.getD 0 - attempt)
  | .head => (3, 0)
  | .generating => (4, 0)
  | .mapping _ => (5, 0)
  | .fetching _ pending _ => (6, pending.length)
  | .searching _ queries _ _ => (7, queries.length)

/-- How far a run is from its end: the hops left, then the place within the round. -/
def runRank (deps : ResearchDeps) (run : ResearchRun) : ℕ × ℕ × ℕ :=
  (run.budget.budget.maxHops - run.budget.hopsUsed, phaseRank deps run.phase)

def RankLt : ℕ × ℕ × ℕ → ℕ × ℕ × ℕ → Prop :=
  Prod.Lex (· < ·) (Prod.Lex (· < ·) (· < ·))

lemma wellFounded_rankLt : WellFounded RankLt :=
  WellFounded.prod_lex wellFounded_lt (WellFounded.prod_lex wellFounded_lt wellFounded_lt)

variable {deps : ResearchDeps}

variable {run run' : ResearchRun}

lemma rankLt_of_phase (hbudget : run'.budget.budget = run.budget.budget)
    (hhops : run'.budget.hopsUsed = run.budget.hopsUsed)
    (hphase : Prod.Lex (· < ·) (· < ·) (phaseRank deps run'.phase) (phaseRank deps run.phase)) :
    RankLt (runRank deps run') (runRank deps run) := by
  unfold runRank
  rw [hbudget, hhops]
  exact Prod.Lex.right _ hphase

/-! ## One lemma for each handler: what it changes -/

structure SameCounts (run run' : ResearchRun) : Prop where
  budget : run'.budget = run.budget
  pool : run'.pool = run.pool
  coverage : run'.coverage = run.coverage
  hops : run'.hops = run.hops
  nextQueries : run'.nextQueries = run.nextQueries
  lastReading : run'.lastReading = run.lastReading
  sends : run'.sends = run.sends

def MidHop : ResearchPhase → Prop
  | .searching .. => True
  | .fetching _ _ tally | .mapping tally => tally.budgetStop = none
  | _ => False

/-- The round has gone on since there were `n` things left to do at the place `k`. -/
def Advanced (deps : ResearchDeps) (phase : ResearchPhase) (k n : ℕ) : Prop :=
  Prod.Lex (· < ·) (· < ·) (phaseRank deps phase) (k, n)

lemma Advanced.of_lt {phase : ResearchPhase} {k k' n n' : ℕ} (h : Advanced deps phase k n)
    (hk : k < k') : Advanced deps phase k' n' := by
  rw [Advanced, lex_def] at h
  refine lex_def.2 (.inl ?_)
  rcases h with h | ⟨h, -⟩ <;> exact lt_of_le_of_lt (by omega) hk

lemma toNextResult_spec (deps : ResearchDeps) (run : ResearchRun) (results : List SearchResult)
    (tally : HopOutcome) :
    SameCounts run (toNextResult run results tally) ∧
      Advanced deps (toNextResult run results tally).phase 6 results.length := by
  cases results with
  | nil => exact ⟨⟨rfl, rfl, rfl, rfl, rfl, rfl, rfl⟩, .left _ _ (by decide)⟩
  | cons result pending =>
    refine ⟨⟨rfl, rfl, rfl, rfl, rfl, rfl, rfl⟩, ?_⟩
    simp only [toNextResult]
    split
    next => exact .left _ _ (by decide)
    next => exact .right _ (lt_succ_self _)

variable {tally : HopOutcome}

lemma midHop_toNextResult (run : ResearchRun) (results : List SearchResult)
    (htally : tally.budgetStop = none) : MidHop (toNextResult run results tally).phase := by
  cases results with
  | nil => exact htally
  | cons result pending =>
    simp only [toNextResult]
    split
    next => exact htally
    next => exact htally

lemma toNextSearch_spec (deps : ResearchDeps) (run : ResearchRun) (queries seen : List String)
    (combined : List SearchResult) :
    SameCounts run (toNextSearch run queries seen combined) ∧
      MidHop (toNextSearch run queries seen combined).phase ∧
      Advanced deps (toNextSearch run queries seen combined).phase 7 queries.length := by
  cases queries with
  | nil =>
    obtain ⟨hsame, hadv⟩ := toNextResult_spec deps run combined
      { resultsCount := combined.length }
    exact ⟨hsame, midHop_toNextResult run combined rfl, hadv.of_lt (by decide)⟩
  | cons query queries =>
    exact ⟨⟨rfl, rfl, rfl, rfl, rfl, rfl, rfl⟩, trivial, .right _ (lt_succ_self _)⟩

lemma searchReplied_spec (deps : ResearchDeps) (run : ResearchRun) (query : String)
    (queries seen : List String) (combined : List SearchResult) (reply : SearchReply) :
    let run' := searchReplied deps run query queries seen combined reply
    SameCounts run run' ∧ MidHop run'.phase ∧ Advanced deps run'.phase 7 queries.length := by
  cases reply with
  | results results => exact toNextSearch_spec deps run queries _ _
  | failed message =>
    -- the notice is no part of the counts
    obtain ⟨hsame, hrest⟩ := toNextSearch_spec deps { run with extraNotices := _ } queries seen
      combined
    exact ⟨⟨hsame.budget, hsame.pool, hsame.coverage, hsame.hops, hsame.nextQueries,
      hsame.lastReading, hsame.sends⟩, hrest⟩
  | aborted =>
    obtain ⟨hsame, hadv⟩ := toNextResult_spec deps run combined
      { resultsCount := combined.length }
    exact ⟨hsame, midHop_toNextResult run combined rfl, hadv.of_lt (by decide)⟩

/-! ## The invariant -/

/-- The tracker, the coverage or the queries bear a reason out. -/
def Founded (deps : ResearchDeps) (run : ResearchRun) : TerminationReason → Prop
  | .coverage_met => deps.coverageTarget ≤ run.coverage.score
  | .no_novel_queries => run.nextQueries = []
  | reason => run.budget.Reached run.lastReading reason

/-- What holds of the counts at any time. -/
structure CountsInv (deps : ResearchDeps) (run : ResearchRun) : Prop where
  budget : run.budget.budget = deps.budget
  hopsUsed_le : run.budget.hopsUsed ≤ deps.budget.maxHops
  hops_le : run.hops.length ≤ run.budget.hopsUsed
  sources_le : run.budget.sourcesUsed ≤ deps.budget.maxSources
  pool_le : run.pool.size ≤ run.budget.sourcesUsed
  calls_le : run.budget.llmCallsUsed ≤ deps.budget.maxLlmCalls
  calls_le_sends : run.budget.llmCallsUsed ≤ run.sends

/-- A hop is counted that is not recorded yet, and calls are left. -/
def InHop (deps : ResearchDeps) (run : ResearchRun) : Prop :=
  run.hops.length + 1 = run.budget.hopsUsed ∧ run.budget.llmCallsUsed < deps.budget.maxLlmCalls

def Standing (deps : ResearchDeps) (run : ResearchRun) : ResearchPhase → Prop
  | .head => run.hops.length = run.budget.hopsUsed
  | .searching .. => InHop deps run
  | .fetching _ _ tally => InHop deps run ∧ tally.budgetStop = none
  | .mapping tally => InHop deps run ∧
    ∀ stop, tally.budgetStop = some stop → run.budget.Reached run.lastReading stop.dimension
  | .generating => run.hops.length = run.budget.hopsUsed ∧
    run.budget.llmCallsUsed < deps.budget.maxLlmCalls
  | .drafting _ | .composing | .finished =>
    run.hops.length = run.budget.hopsUsed ∧ Founded deps run run.terminationReason
  | .failed => True

def ResearchInv (deps : ResearchDeps) (run : ResearchRun) : Prop :=
  CountsInv deps run ∧ Standing deps run run.phase

variable {run : ResearchRun} {reason : TerminationReason}

lemma founded_of_reached (h : run.budget.Reached run.lastReading reason) :
    Founded deps run reason := by
  cases reason with
  | coverage_met => exact h.elim
  | no_novel_queries => exact h.elim
  | max_hops => exact h
  | wall_clock => exact h
  | max_sources => exact h
  | max_llm_calls => exact h

lemma Founded.of_eq (h : Founded deps run reason)
    (hbudget : run'.budget = run.budget) (hcoverage : run'.coverage = run.coverage)
    (hqueries : run'.nextQueries = run.nextQueries) (hreading : run'.lastReading = run.lastReading)
    : Founded deps run' reason := by
  unfold Founded at h ⊢
  rw [hcoverage, hqueries, hbudget, hreading]
  exact h

lemma CountsInv.of_same (h : CountsInv deps run)
    (hsame : SameCounts run run') : CountsInv deps run' where
  budget := by rw [hsame.budget]; exact h.budget
  hopsUsed_le := by rw [hsame.budget]; exact h.hopsUsed_le
  hops_le := by rw [hsame.hops, hsame.budget]; exact h.hops_le
  sources_le := by rw [hsame.budget]; exact h.sources_le
  pool_le := by rw [hsame.pool, hsame.budget]; exact h.pool_le
  calls_le := by rw [hsame.budget]; exact h.calls_le
  calls_le_sends := by rw [hsame.budget, hsame.sends]; exact h.calls_le_sends

lemma inv_of_midHop (h : CountsInv deps run) (hhop : InHop deps run)
    (hsame : SameCounts run run') (hmid : MidHop run'.phase) :
    ResearchInv deps run' := by
  have hhop' : InHop deps run' := by
    unfold InHop
    rw [hsame.hops, hsame.budget]
    exact hhop
  refine ⟨h.of_same hsame, ?_⟩
  cases hphase : run'.phase with
  | searching query queries seen combined => exact hhop'
  | fetching result pending tally =>
    rw [hphase] at hmid
    exact ⟨hhop', hmid⟩
  | mapping tally =>
    rw [hphase] at hmid
    exact ⟨hhop', fun stop hstop => (nomatch hmid.symm.trans hstop)⟩
  | head => exact absurd hmid (by rw [hphase]; exact id)
  | generating => exact absurd hmid (by rw [hphase]; exact id)
  | drafting attempt => exact absurd hmid (by rw [hphase]; exact id)
  | composing => exact absurd hmid (by rw [hphase]; exact id)
  | finished => exact absurd hmid (by rw [hphase]; exact id)
  | failed => exact absurd hmid (by rw [hphase]; exact id)

lemma inv_stopFor (h : CountsInv deps run) (hhops : run.hops.length = run.budget.hopsUsed)
    (hreason : Founded deps run reason) : ResearchInv deps (stopFor deps run reason) := by
  have hsame : SameCounts run (stopFor deps run reason) := ⟨rfl, rfl, rfl, rfl, rfl, rfl, rfl⟩
  have hfounded : Founded deps (stopFor deps run reason) reason :=
    hreason.of_eq rfl rfl rfl rfl
  refine ⟨h.of_same hsame, ?_⟩
  have hphase : (stopFor deps run reason).phase =
      if deps.maxReprompts.isSome then .drafting 0 else .composing := rfl
  rw [hphase]
  split
  next => exact ⟨hhops, hfounded⟩
  next => exact ⟨hhops, hfounded⟩

lemma CountsInv.read (h : CountsInv deps run) (now : ℤ) (stop : Option BudgetExhausted) :
    CountsInv deps { run with lastReading := now, budgetStop := stop } :=
  ⟨h.budget, h.hopsUsed_le, h.hops_le, h.sources_le, h.pool_le, h.calls_le, h.calls_le_sends⟩

/-! ## One lemma for each handler: it keeps the invariant -/

lemma inv_loopHead (h : CountsInv deps run) (hhops : run.hops.length = run.budget.hopsUsed)
    (now : ℤ) :
    ResearchInv deps (loopHead deps run now) := by
  unfold loopHead
  dsimp only
  split
  next stop hstop =>
    exact inv_stopFor (h.read now (some stop)) hhops
      (founded_of_reached (BudgetTracker.checkpoint_eq_some hstop))
  next hnone =>
    split
    next hfull =>
      have hreached : run.budget.budget.maxHops ≤ run.budget.hopsUsed := by
        simpa [BudgetTracker.canStartHop] using hfull
      exact inv_stopFor (h.read now run.budgetStop) hhops hreached
    next hroom =>
      have hlt : run.budget.hopsUsed < deps.budget.maxHops := by
        rw [← h.budget]
        simpa [BudgetTracker.canStartHop] using hroom
      split
      next hqueries => exact inv_stopFor (h.read now run.budgetStop) hhops hqueries
      next query queries hqueries =>
        have hcalls := (BudgetTracker.checkpoint_eq_none hnone).2
        rw [h.budget] at hcalls
        exact ⟨⟨h.budget, hlt, h.hops_le.trans (le_succ _), h.sources_le, h.pool_le,
          h.calls_le, h.calls_le_sends⟩, congrArg (· + 1) hhops, hcalls⟩

lemma poolDocument_spec (h : CountsInv deps run)
    (hsources : run.budget.sourcesUsed < deps.budget.maxSources) (tally : HopOutcome)
    (doc : SynthesisDoc) (rank : ℕ) :
    let pooled := poolDocument deps run tally doc rank
    CountsInv deps pooled.1 ∧ pooled.1.hops = run.hops ∧
      pooled.1.budget.hopsUsed = run.budget.hopsUsed ∧
      pooled.1.budget.llmCallsUsed = run.budget.llmCallsUsed ∧
      pooled.2.budgetStop = tally.budgetStop := by
  have hadd := (SourcePool.add_spec deps.platform run.pool doc rank).2.1
  unfold poolDocument
  dsimp only
  split
  next hkept =>
    rw [if_pos hkept] at hadd
    refine ⟨⟨h.budget, h.hopsUsed_le, h.hops_le, hsources, ?_, h.calls_le, h.calls_le_sends⟩,
      rfl, rfl, rfl, rfl⟩
    have hpool := h.pool_le
    change (run.pool.add deps.platform doc rank).1.size ≤ run.budget.sourcesUsed + 1
    omega
  next hkept =>
    rw [if_neg hkept] at hadd
    refine ⟨⟨h.budget, h.hopsUsed_le, h.hops_le, h.sources_le, ?_, h.calls_le, h.calls_le_sends⟩,
      rfl, rfl, rfl, rfl⟩
    have hpool := h.pool_le
    change (run.pool.add deps.platform doc rank).1.size ≤ run.budget.sourcesUsed
    omega

lemma inv_resultFetched (h : CountsInv deps run) (hhop : InHop deps run) (result : SearchResult)
    (pending : List SearchResult) (htally : tally.budgetStop = none) (now : ℤ)
    (processed : ProcessedSource) :
    ResearchInv deps (resultFetched deps run result pending tally now processed) := by
  have hread := h.read now run.budgetStop
  unfold resultFetched
  dsimp only
  split
  next stop hstop =>
    refine ⟨⟨h.budget, h.hopsUsed_le, h.hops_le, h.sources_le, h.pool_le, h.calls_le,
      h.calls_le_sends⟩, hhop, fun stop' hstop' => ?_⟩
    obtain rfl := Option.some.inj hstop'
    exact BudgetTracker.checkpoint_eq_some hstop
  next hnone =>
    have hsources := (BudgetTracker.checkpoint_eq_none hnone).1
    rw [h.budget] at hsources
    cases processed with
    | doc doc =>
      obtain ⟨hcounts, hhops, hused, hcalls, hstop⟩ :=
        poolDocument_spec hread hsources tally doc result.rank
      refine inv_of_midHop hcounts ?_ (toNextResult_spec deps _ pending _).1
        (midHop_toNextResult _ pending (hstop.trans htally))
      unfold InHop
      rw [hhops, hused, hcalls]
      exact hhop
    | failure failure =>
      obtain ⟨hsame, -⟩ := toNextResult_spec deps
        { run with lastReading := now, failures := run.failures ++ [failure] } pending tally
      -- the failure is no part of the counts
      have hsame' : SameCounts { run with lastReading := now } (toNextResult
          { run with lastReading := now, failures := run.failures ++ [failure] } pending tally) :=
        ⟨hsame.budget, hsame.pool, hsame.coverage, hsame.hops, hsame.nextQueries,
          hsame.lastReading, hsame.sends⟩
      exact inv_of_midHop hread hhop hsame' (midHop_toNextResult _ pending htally)

lemma inv_queriesGenerated (h : CountsInv deps run) (hhops : run.hops.length = run.budget.hopsUsed)
    (reply : Option LlmReply)
    (hcalls : reply.isSome → run.budget.llmCallsUsed < deps.budget.maxLlmCalls ∧
      run.budget.llmCallsUsed < run.sends) :
    ResearchInv deps (queriesGenerated deps run reply) := by
  unfold queriesGenerated
  dsimp only
  split
  next hused =>
    have hreply : reply.isSome := by
      cases reply with
      | none => cases hused
      | some reply => rfl
    exact ⟨⟨h.budget, h.hopsUsed_le, h.hops_le, h.sources_le, h.pool_le, (hcalls hreply).1,
      (hcalls hreply).2⟩, hhops⟩
  next => exact ⟨⟨h.budget, h.hopsUsed_le, h.hops_le, h.sources_le, h.pool_le, h.calls_le,
      h.calls_le_sends⟩, hhops⟩

lemma inv_hopMapped (h : CountsInv deps run) (hstanding : Standing deps run (.mapping tally))
    (interim : Option InterimBrief) : ResearchInv deps (hopMapped deps run tally interim) := by
  obtain ⟨⟨hhops, hcalls⟩, hstop⟩ := hstanding
  have hlen : (recordHop deps run tally interim).hops.length = run.budget.hopsUsed := by
    simpa [recordHop] using hhops
  have hcounts : CountsInv deps (recordHop deps run tally interim) :=
    ⟨h.budget, h.hopsUsed_le, hlen.le, h.sources_le, h.pool_le, h.calls_le, h.calls_le_sends⟩
  unfold hopMapped
  dsimp only
  split
  next stop htally =>
    exact inv_stopFor (hcounts.read run.lastReading (some stop)) hlen
      (founded_of_reached (hstop stop htally))
  next =>
    split
    next hcoverage => exact inv_stopFor hcounts hlen hcoverage
    next =>
      split
      next hfull =>
        have hfull : run.budget.canStartHop = false := by simpa [recordHop] using hfull
        have hreached : run.budget.budget.maxHops ≤ run.budget.hopsUsed :=
          not_lt.1 (of_decide_eq_false hfull)
        exact inv_stopFor hcounts hlen hreached
      next =>
        split
        next =>
          exact ⟨⟨h.budget, h.hopsUsed_le, hlen.le, h.sources_le, h.pool_le, h.calls_le,
            h.calls_le_sends⟩, hlen, hcalls⟩
        next => exact inv_queriesGenerated hcounts hlen none fun hsome => (nomatch hsome)

lemma CountsInv.send (h : CountsInv deps run) :
    CountsInv deps { run with sends := run.sends + 1 } :=
  ⟨h.budget, h.hopsUsed_le, h.hops_le, h.sources_le, h.pool_le, h.calls_le,
    h.calls_le_sends.trans (le_succ _)⟩

lemma inv_generatorReplied (h : CountsInv deps run) (hstanding : Standing deps run .generating)
    (reply : LlmReply) :
    ResearchInv deps (generatorReplied deps run reply) := by
  have hcalls : run.budget.llmCallsUsed < deps.budget.maxLlmCalls ∧
      run.budget.llmCallsUsed < run.sends + 1 :=
    ⟨hstanding.2, lt_succ_of_le h.calls_le_sends⟩
  cases reply with
  | text responseText => exact inv_queriesGenerated h.send hstanding.1 _ fun _ => hcalls
  | failed message => exact inv_queriesGenerated h.send hstanding.1 _ fun _ => hcalls
  | threw message =>
    exact ⟨⟨h.budget, h.hopsUsed_le, h.hops_le, h.sources_le, h.pool_le, h.calls_le,
      h.calls_le_sends.trans (le_succ _)⟩, trivial⟩

lemma draftReplied_spec (deps : ResearchDeps) (run : ResearchRun) (attempt : ℕ) (reply : LlmReply) :
    ∃ phase : ResearchPhase,
      draftReplied deps run attempt reply = { run with sends := run.sends + 1, phase := phase } ∧
      (phase = .finished ∨ phase = .failed ∨ phase = .composing ∨
        phase = .drafting (attempt + 1) ∧ attempt < deps.maxReprompts.getD 0) := by
  cases reply with
  | threw message => exact ⟨_, rfl, .inr (.inl rfl)⟩
  | failed message => exact ⟨_, rfl, .inr (.inr (.inl rfl))⟩
  | text responseText =>
    simp only [draftReplied]
    split
    next => exact ⟨_, rfl, .inl rfl⟩
    next => exact ⟨_, rfl, .inr (.inr (.inl rfl))⟩
    next =>
      by_cases hmore : attempt < deps.maxReprompts.getD 0
      · rw [if_pos hmore]
        exact ⟨_, rfl, .inr (.inr (.inr ⟨rfl, hmore⟩))⟩
      · rw [if_neg hmore]
        exact ⟨_, rfl, .inr (.inr (.inl rfl))⟩

lemma inv_draftReplied (h : CountsInv deps run) (attempt : ℕ)
    (hstanding : Standing deps run (.drafting attempt)) (reply : LlmReply) :
    ResearchInv deps (draftReplied deps run attempt reply) := by
  obtain ⟨phase, heq, hphase⟩ := draftReplied_spec deps run attempt reply
  rw [heq]
  have hcounts : CountsInv deps { run with sends := run.sends + 1, phase := phase } :=
    ⟨h.budget, h.hopsUsed_le, h.hops_le, h.sources_le, h.pool_le, h.calls_le,
      h.calls_le_sends.trans (le_succ _)⟩
  have hfounded : Founded deps { run with sends := run.sends + 1, phase := phase }
      run.terminationReason := hstanding.2.of_eq rfl rfl rfl rfl
  rcases hphase with rfl | rfl | rfl | ⟨rfl, -⟩
  · exact ⟨hcounts, hstanding.1, hfounded⟩
  · exact ⟨hcounts, trivial⟩
  · exact ⟨hcounts, hstanding.1, hfounded⟩
  · exact ⟨hcounts, hstanding.1, hfounded⟩

/-! ## Runs -/

inductive StepOf (deps : ResearchDeps) (run : ResearchRun) : ResearchAnswer → ResearchRun → Prop
  | idle {answer : ResearchAnswer} (h : Over run ∨ ¬ Fits run answer) : StepOf deps run answer run
  | crash (h : ¬ Over run) : StepOf deps run .crashed { run with phase := .failed }
  | head (now : ℤ) (h : run.phase = .head) : StepOf deps run (.checked now) (loopHead deps run now)
  | search {query : String} {queries seen : List String} {combined : List SearchResult}
      (reply : SearchReply) (h : run.phase = .searching query queries seen combined) :
      StepOf deps run (.searched reply) (searchReplied deps run query queries seen combined reply)
  | fetch {result : SearchResult} {pending : List SearchResult} {tally : HopOutcome} (now : ℤ)
      (processed : ProcessedSource) (h : run.phase = .fetching result pending tally) :
      StepOf deps run (.fetched now processed)
        (resultFetched deps run result pending tally now processed)
  | map {tally : HopOutcome} (interim : Option InterimBrief) (h : run.phase = .mapping tally) :
      StepOf deps run (.mapped interim) (hopMapped deps run tally interim)
  | generate (reply : LlmReply) (h : run.phase = .generating) :
      StepOf deps run (.generated reply) (generatorReplied deps run reply)
  | draft {attempt : ℕ} (reply : LlmReply) (h : run.phase = .drafting attempt) :
      StepOf deps run (.drafted reply) (draftReplied deps run attempt reply)
  | compose (success : Bool) (h : run.phase = .composing) :
      StepOf deps run (.composed success)
        { run with phase := if success then .finished else .failed }

lemma stepOf_researchStep (deps : ResearchDeps) (run : ResearchRun) (answer : ResearchAnswer) :
    StepOf deps run answer (researchStep deps run answer) := by
  cases hphase : run.phase <;> cases answer <;> simp only [researchStep, hphase]
  all_goals
    first
    | exact .crash (by simp [Over, hphase])
    | exact .head _ hphase
    | exact .search _ hphase
    | exact .fetch _ _ hphase
    | exact .map _ hphase
    | exact .generate _ hphase
    | exact .draft _ hphase
    | exact .compose _ hphase
    | exact .idle (by simp [Over, Fits, hphase])

variable {answer : ResearchAnswer}

lemma ResearchInv.step (h : ResearchInv deps run)
    (hstep : StepOf deps run answer run') : ResearchInv deps run' := by
  have hinv : ResearchInv deps run := h
  obtain ⟨hcounts, hstanding⟩ := h
  have hfail : ResearchInv deps { run with phase := .failed } :=
    ⟨hcounts.of_same ⟨rfl, rfl, rfl, rfl, rfl, rfl, rfl⟩, trivial⟩
  cases hstep with
  | idle => exact hinv
  | crash => exact hfail
  | head now hphase =>
    rw [hphase] at hstanding
    exact inv_loopHead hcounts hstanding now
  | @search query queries seen combined reply hphase =>
    rw [hphase] at hstanding
    obtain ⟨hsame, hmid, -⟩ := searchReplied_spec deps run query queries seen combined reply
    exact inv_of_midHop hcounts hstanding hsame hmid
  | @fetch result pending tally now processed hphase =>
    rw [hphase] at hstanding
    exact inv_resultFetched hcounts hstanding.1 result pending hstanding.2 now processed
  | map interim hphase =>
    rw [hphase] at hstanding
    exact inv_hopMapped hcounts hstanding interim
  | generate reply hphase =>
    rw [hphase] at hstanding
    exact inv_generatorReplied hcounts hstanding reply
  | @draft attempt reply hphase =>
    rw [hphase] at hstanding
    exact inv_draftReplied hcounts attempt hstanding reply
  | compose success hphase =>
    rw [hphase] at hstanding
    cases success with
    | true =>
      exact ⟨hcounts.of_same ⟨rfl, rfl, rfl, rfl, rfl, rfl, rfl⟩, hstanding.1,
        hstanding.2.of_eq rfl rfl rfl rfl⟩
    | false => exact hfail

lemma researchInv_run (deps : ResearchDeps) (now : ℤ) (answers : List ResearchAnswer) :
    ResearchInv deps ((researchLoop deps now).run answers) := by
  have hinit : ResearchInv deps (researchLoop deps now).init :=
    ⟨⟨rfl, Nat.zero_le _, le_rfl, Nat.zero_le _, le_rfl, Nat.zero_le _, le_rfl⟩, rfl⟩
  have hstep : ∀ run answer, ResearchInv deps run →
      ResearchInv deps ((researchLoop deps now).step run answer) :=
    fun run answer h => h.step (stepOf_researchStep deps run answer)
  exact invariant_runFrom' hstep hinit answers

/-! ## The end of a run -/

lemma rankLt_stopFor {run₀ : ResearchRun} (hbudget : run₀.budget = run.budget)
    (hphase : 2 < (phaseRank deps run.phase).1) :
    RankLt (runRank deps (stopFor deps run₀ reason)) (runRank deps run) := by
  refine rankLt_of_phase (by simp [stopFor, startSynthesis, hbudget])
    (by simp [stopFor, startSynthesis, hbudget]) (lex_def.2 (.inl ?_))
  simp only [stopFor, startSynthesis]
  split
  next => exact hphase
  next => exact lt_trans Nat.one_lt_two hphase

lemma rankLt_of_advanced (hbudget : run'.budget.budget = run.budget.budget)
    (hhops : run'.budget.hopsUsed = run.budget.hopsUsed) {k n : ℕ}
    (hadv : Advanced deps run'.phase k n) (hphase : phaseRank deps run.phase = (k, n)) :
    RankLt (runRank deps run') (runRank deps run) :=
  rankLt_of_phase hbudget hhops (hphase ▸ hadv)

variable {reply : Option LlmReply}

lemma rankLt_queriesGenerated {run₀ : ResearchRun} (hbudget : run₀.budget = run.budget)
    (hphase : 3 < (phaseRank deps run.phase).1) :
    RankLt (runRank deps (queriesGenerated deps run₀ reply)) (runRank deps run) := by
  refine rankLt_of_phase ?_ ?_ (lex_def.2 (.inl hphase))
  · unfold queriesGenerated
    dsimp only
    split <;> simp [hbudget, BudgetTracker.recordLlmCall]
  · unfold queriesGenerated
    dsimp only
    split <;> simp [hbudget, BudgetTracker.recordLlmCall]

lemma resultFetched_advanced (deps : ResearchDeps) (run : ResearchRun) (result : SearchResult)
    (pending : List SearchResult) (tally : HopOutcome) (now : ℤ) (processed : ProcessedSource) :
    let run' := resultFetched deps run result pending tally now processed
    run'.budget.budget = run.budget.budget ∧ run'.budget.hopsUsed = run.budget.hopsUsed ∧
      Advanced deps run'.phase 6 pending.length := by
  unfold resultFetched
  dsimp only
  split
  next => exact ⟨rfl, rfl, .left _ _ (by decide)⟩
  next =>
    cases processed with
    | doc doc =>
      obtain ⟨hsame, hadv⟩ := toNextResult_spec deps
        (poolDocument deps { run with lastReading := now } tally doc result.rank).1 pending
        (poolDocument deps { run with lastReading := now } tally doc result.rank).2
      refine ⟨?_, ?_, hadv⟩
      · rw [hsame.budget]
        unfold poolDocument
        dsimp only
        split <;> rfl
      · rw [hsame.budget]
        unfold poolDocument
        dsimp only
        split <;> rfl
    | failure failure =>
      obtain ⟨hsame, hadv⟩ := toNextResult_spec deps
        { run with lastReading := now, failures := run.failures ++ [failure] } pending tally
      exact ⟨by rw [hsame.budget], by rw [hsame.budget], hadv⟩

lemma rankLt_step (hstep : StepOf deps run answer run')
    (hover : ¬ Over run) (hfits : Fits run answer) :
    RankLt (runRank deps run') (runRank deps run) := by
  cases hstep with
  | idle h => exact absurd h (by simp [hover, hfits])
  | crash =>
    refine rankLt_of_phase rfl rfl (lex_def.2 (.inl ?_))
    cases hphase : run.phase with
    | finished => exact absurd (.inl hphase) hover
    | failed => exact absurd (.inr hphase) hover
    | _ => simp [phaseRank]
  | head now hphase =>
    have hrank : phaseRank deps run.phase = (3, 0) := by rw [hphase, phaseRank]
    unfold loopHead
    dsimp only
    split
    next => exact rankLt_stopFor rfl (by rw [hrank]; decide)
    next =>
      split
      next => exact rankLt_stopFor rfl (by rw [hrank]; decide)
      next hroom =>
        split
        next => exact rankLt_stopFor rfl (by rw [hrank]; decide)
        next =>
          -- a hop is taken, whatever comes in it
          have hlt : run.budget.hopsUsed < run.budget.budget.maxHops := by
            simpa [BudgetTracker.canStartHop] using hroom
          exact .left _ _ (sub_succ_lt_self _ _ hlt)
  | @search query queries seen combined reply hphase =>
    obtain ⟨hsame, -, hadv⟩ := searchReplied_spec deps run query queries seen combined reply
    exact rankLt_of_advanced (by rw [hsame.budget]) (by rw [hsame.budget]) hadv
      (by rw [hphase, phaseRank])
  | @fetch result pending tally now processed hphase =>
    obtain ⟨hbudget, hhops, hadv⟩ := resultFetched_advanced deps run result pending tally now
      processed
    exact rankLt_of_advanced hbudget hhops hadv (by rw [hphase, phaseRank])
  | @map tally interim hphase =>
    have hrank : phaseRank deps run.phase = (5, 0) := by rw [hphase, phaseRank]
    unfold hopMapped
    dsimp only
    split
    next => exact rankLt_stopFor rfl (by rw [hrank]; decide)
    next =>
      split
      next => exact rankLt_stopFor rfl (by rw [hrank]; decide)
      next =>
        split
        next => exact rankLt_stopFor rfl (by rw [hrank]; decide)
        next =>
          split
          next => exact rankLt_of_phase rfl rfl (by rw [hrank]; exact .left _ _ (by decide))
          next => exact rankLt_queriesGenerated rfl (by rw [hrank]; decide)
  | generate reply hphase =>
    have hrank : phaseRank deps run.phase = (4, 0) := by rw [hphase, phaseRank]
    cases reply with
    | text responseText => exact rankLt_queriesGenerated rfl (by rw [hrank]; decide)
    | failed message => exact rankLt_queriesGenerated rfl (by rw [hrank]; decide)
    | threw message =>
      exact rankLt_of_phase rfl rfl (by rw [hrank]; exact .left _ _ (by decide))
  | @draft attempt reply hphase =>
    obtain ⟨phase, heq, hnext⟩ := draftReplied_spec deps run attempt reply
    rw [heq]
    refine rankLt_of_phase rfl rfl ?_
    rw [hphase]
    rcases hnext with rfl | rfl | rfl | ⟨rfl, hmore⟩
    · exact .left _ _ (by decide)
    · exact .left _ _ (by decide)
    · exact .left _ _ (by decide)
    · exact .right _ (by omega)
  | compose success hphase =>
    refine rankLt_of_phase rfl rfl ?_
    rw [hphase]
    cases success <;> exact .left _ _ (by decide)

/-- A run that goes on being answered comes to its end. -/
theorem research_stops (deps : ResearchDeps) (now : ℤ) (answers : ℕ → ResearchAnswer)
    (hfits : ∀ n, Fits ((researchLoop deps now).run (firstInputs answers n)) (answers n)) :
    ∃ n, Over ((researchLoop deps now).run (firstInputs answers n)) :=
  exists_stopped (M := researchLoop deps now) wellFounded_rankLt (runRank deps)
    (fun run answer => rankLt_step (stepOf_researchStep deps run answer)) _ answers hfits

/-! ## The sends -/

/-- The step charges its send, or has a call left for it: a reply to the query generator holds a
valid query, and a draft is asked for while calls are left beside the drafts before it. -/
def ChargedSends (deps : ResearchDeps) (run : ResearchRun) (answer : ResearchAnswer) : Bool :=
  match run.phase, answer with
  | .generating, .generated (.text responseText) =>
    !(validQueries deps.platform responseText).isEmpty
  | .generating, .generated (.failed _) => false
  | .drafting attempt, .drafted _ =>
    decide (run.budget.llmCallsUsed + attempt < deps.budget.maxLlmCalls)
  | _, _ => true

def Charged (deps : ResearchDeps) (run : ResearchRun) : ResearchPhase → Prop
  | .drafting attempt => run.sends = run.budget.llmCallsUsed + attempt ∧
    run.sends ≤ deps.budget.maxLlmCalls
  | .composing | .finished | .failed => run.sends ≤ deps.budget.maxLlmCalls
  | _ => run.sends = run.budget.llmCallsUsed

lemma Charged.sends_le (hcounts : CountsInv deps run) (h : Charged deps run run.phase) :
    run.sends ≤ deps.budget.maxLlmCalls := by
  cases hphase : run.phase <;> rw [hphase] at h
  case drafting => exact h.2
  case composing | finished | failed => exact h
  all_goals
    have hsends : run.sends = run.budget.llmCallsUsed := h
    exact hsends.trans_le hcounts.calls_le

lemma charged_stopFor (hcounts : CountsInv deps run) (h : run.sends = run.budget.llmCallsUsed) :
    Charged deps (stopFor deps run reason) (stopFor deps run reason).phase := by
  have hle : run.sends ≤ deps.budget.maxLlmCalls := h.trans_le hcounts.calls_le
  have hphase : (stopFor deps run reason).phase =
      if deps.maxReprompts.isSome then .drafting 0 else .composing := rfl
  rw [hphase]
  split
  next => exact ⟨h, hle⟩
  next => exact hle

lemma charged_of_midHop (h : run.sends = run.budget.llmCallsUsed)
    (hsends : run'.sends = run.sends) (hcalls : run'.budget.llmCallsUsed = run.budget.llmCallsUsed)
    (hmid : MidHop run'.phase) :
    Charged deps run' run'.phase := by
  have h' : run'.sends = run'.budget.llmCallsUsed := by rw [hsends, hcalls, h]
  cases hphase : run'.phase <;> rw [hphase] at hmid
  case searching | fetching | mapping => exact h'
  all_goals exact hmid.elim

lemma charged_resultFetched (h : run.sends = run.budget.llmCallsUsed) (result : SearchResult)
    (pending : List SearchResult) (htally : tally.budgetStop = none) (now : ℤ)
    (processed : ProcessedSource) :
    let run' := resultFetched deps run result pending tally now processed
    Charged deps run' run'.phase := by
  unfold resultFetched
  dsimp only
  split
  next => exact h
  next =>
    cases processed with
    | doc doc =>
      set pooled := poolDocument deps { run with lastReading := now } tally doc result.rank
        with hpooled
      have hspec : pooled.1.sends = run.sends ∧
          pooled.1.budget.llmCallsUsed = run.budget.llmCallsUsed ∧
          pooled.2.budgetStop = none := by
        rw [hpooled, poolDocument]
        dsimp only
        split <;> exact ⟨rfl, rfl, htally⟩
      obtain ⟨hsends, hcalls, hstop⟩ := hspec
      have hsame := (toNextResult_spec deps pooled.1 pending pooled.2).1
      have hpooled' : pooled.1.sends = pooled.1.budget.llmCallsUsed := by rw [hsends, hcalls, h]
      exact charged_of_midHop hpooled' hsame.sends (by rw [hsame.budget])
        (midHop_toNextResult pooled.1 pending hstop)
    | failure failure =>
      obtain ⟨hsame, -⟩ := toNextResult_spec deps
        { run with lastReading := now, failures := run.failures ++ [failure] } pending tally
      exact charged_of_midHop h hsame.sends (by rw [hsame.budget])
        (midHop_toNextResult _ pending htally)

lemma charged_queriesGenerated
    (h : run.sends = run.budget.llmCallsUsed +
      if (generate deps.platform deps.topic (run.coverage.gaps deps.platform) run.issuedQueries
        reply).usedLlm then 1 else 0) :
    (queriesGenerated deps run reply).sends =
      (queriesGenerated deps run reply).budget.llmCallsUsed := by
  unfold queriesGenerated
  dsimp only
  split
  next hused =>
    rw [if_pos hused] at h
    exact h
  next hused =>
    rw [if_neg hused] at h
    exact h

lemma Charged.step (hinv : ResearchInv deps run)
    (h : Charged deps run run.phase) (hcharged : ChargedSends deps run answer)
    (hstep : StepOf deps run answer run') :
    Charged deps run' run'.phase := by
  have hsame := h
  obtain ⟨hcounts, hstanding⟩ := hinv
  cases hstep with
  | idle => exact hsame
  | crash =>
    have hle : run.sends ≤ deps.budget.maxLlmCalls := h.sends_le hcounts
    exact hle
  | head now hphase =>
    rw [hphase] at h
    unfold loopHead
    dsimp only
    split
    next stop _ => exact charged_stopFor (hcounts.read now (some stop)) h
    next =>
      split
      next => exact charged_stopFor (hcounts.read now run.budgetStop) h
      next =>
        split
        next => exact charged_stopFor (hcounts.read now run.budgetStop) h
        next => exact h
  | @search query queries seen combined reply hphase =>
    rw [hphase] at h
    obtain ⟨hsame, hmid, -⟩ := searchReplied_spec deps run query queries seen combined reply
    exact charged_of_midHop h hsame.sends (by rw [hsame.budget]) hmid
  | @fetch result pending tally now processed hphase =>
    rw [hphase] at h hstanding
    exact charged_resultFetched h result pending hstanding.2 now processed
  | @map tally interim hphase =>
    rw [hphase] at h hstanding
    have hcounts' : CountsInv deps (recordHop deps run tally interim) :=
      ⟨hcounts.budget, hcounts.hopsUsed_le, by simpa [recordHop] using hstanding.1.1.le,
        hcounts.sources_le, hcounts.pool_le, hcounts.calls_le, hcounts.calls_le_sends⟩
    unfold hopMapped
    dsimp only
    split
    next stop _ => exact charged_stopFor (hcounts'.read run.lastReading (some stop)) h
    next =>
      split
      next => exact charged_stopFor hcounts' h
      next =>
        split
        next => exact charged_stopFor hcounts' h
        next =>
          split
          next => exact h
          next =>
            have hrecorded : (recordHop deps run tally interim).sends =
                (recordHop deps run tally interim).budget.llmCallsUsed := h
            exact charged_queriesGenerated hrecorded
  | generate reply hphase =>
    rw [hphase] at h hstanding
    have hsends : run.sends = run.budget.llmCallsUsed := h
    cases reply with
    | text responseText =>
      have hvalid : validQueries deps.platform responseText ≠ [] := by
        simpa [ChargedSends, hphase] using hcharged
      have hsent : ({ run with sends := run.sends + 1 } : ResearchRun).sends =
          run.budget.llmCallsUsed + if (generate deps.platform deps.topic
            (run.coverage.gaps deps.platform) run.issuedQueries
            (some (.text responseText))).usedLlm then 1 else 0 := by
        rw [if_pos ((usedLlm_generate _ _ _ _ responseText).2 hvalid)]
        exact congrArg (· + 1) hsends
      exact charged_queriesGenerated hsent
    | failed message =>
      simp only [ChargedSends, hphase, Bool.false_eq_true] at hcharged
    | threw message =>
      have hle : run.sends + 1 ≤ deps.budget.maxLlmCalls := hsends ▸ hstanding.2
      exact hle
  | @draft attempt reply hphase =>
    rw [hphase] at h
    have hleft : run.budget.llmCallsUsed + attempt < deps.budget.maxLlmCalls := by
      simpa [ChargedSends, hphase] using hcharged
    obtain ⟨hsends, -⟩ := h
    have hle : run.sends + 1 ≤ deps.budget.maxLlmCalls := hsends ▸ hleft
    obtain ⟨phase, heq, hnext⟩ := draftReplied_spec deps run attempt reply
    rw [heq]
    rcases hnext with rfl | rfl | rfl | ⟨rfl, -⟩
    · exact hle
    · exact hle
    · exact hle
    · exact ⟨congrArg (· + 1) hsends, hle⟩
  | compose success hphase =>
    rw [hphase] at h
    cases success <;> exact h

lemma sends_le_run (deps : ResearchDeps) (now : ℤ) {answers : List ResearchAnswer}
    (h : (researchLoop deps now).Along (fun run answer => ChargedSends deps run answer)
        (researchLoop deps now).init answers) :
    ((researchLoop deps now).run answers).sends ≤ deps.budget.maxLlmCalls := by
  have hinv : ResearchInv deps ((researchLoop deps now).run answers) ∧
      Charged deps ((researchLoop deps now).run answers)
        ((researchLoop deps now).run answers).phase := by
    have hinit : ResearchInv deps (researchLoop deps now).init ∧
        Charged deps (researchLoop deps now).init (researchLoop deps now).init.phase :=
      ⟨researchInv_run deps now [], rfl⟩
    have hkeep : ∀ run answer, ResearchInv deps run ∧ Charged deps run run.phase →
        ChargedSends deps run answer →
        ResearchInv deps ((researchLoop deps now).step run answer) ∧
          Charged deps ((researchLoop deps now).step run answer)
            ((researchLoop deps now).step run answer).phase := by
      intro run answer hrun hcharged
      have hstep := stepOf_researchStep deps run answer
      exact ⟨hrun.1.step hstep, hrun.2.step hrun.1 hcharged hstep⟩
    exact invariant_runFrom hkeep hinit h
  exact hinv.2.sends_le hinv.1.1

/-! ## The sources -/

/-- By the step a retrieved document takes the place of a worse ranked one of its host. -/
def Replaces (deps : ResearchDeps) (run : ResearchRun) (answer : ResearchAnswer) : Bool :=
  match run.phase, answer with
  | .fetching result _ _, .fetched now (.doc doc) =>
    (run.budget.checkpoint now).isNone &&
      (run.pool.outranked deps.platform doc result.rank).isSome
  | _, _ => false

/-- A step counts as many sources more as the pool has documents more, and one for a document that
takes the place of another. -/
def Balanced (deps : ResearchDeps) (run : ResearchRun) (answer : ResearchAnswer)
    (run' : ResearchRun) : Prop :=
  (Replaces deps run answer →
    run'.pool.size + run.budget.sourcesUsed + 1 = run.pool.size + run'.budget.sourcesUsed) ∧
  (¬ Replaces deps run answer →
    run'.pool.size + run.budget.sourcesUsed = run.pool.size + run'.budget.sourcesUsed)

lemma balanced_of_eq (hnot : ¬ Replaces deps run answer)
    (hpool : run'.pool = run.pool) (hused : run'.budget.sourcesUsed = run.budget.sourcesUsed) :
    Balanced deps run answer run' :=
  ⟨fun h => absurd h hnot, fun _ => by rw [hpool, hused]⟩

lemma balanced_resultFetched {result : SearchResult} {pending : List SearchResult}
    (hphase : run.phase = .fetching result pending tally) (now : ℤ) (processed : ProcessedSource) :
    Balanced deps run (.fetched now processed)
      (resultFetched deps run result pending tally now processed) := by
  unfold resultFetched
  dsimp only
  split
  next stop hstop =>
    refine balanced_of_eq ?_ rfl rfl
    cases processed with
    | doc doc => simp [Replaces, hphase, hstop]
    | failure failure => simp [Replaces, hphase]
  next hnone =>
    cases processed with
    | failure failure =>
      obtain ⟨hsame, -⟩ := toNextResult_spec deps
        { run with lastReading := now, failures := run.failures ++ [failure] } pending tally
      exact balanced_of_eq (by simp [Replaces, hphase]) hsame.pool
        (by rw [hsame.budget])
    | doc doc =>
      have hiff : Replaces deps run (.fetched now (.doc doc)) ↔
          (run.pool.outranked deps.platform doc result.rank).isSome := by
        simp [Replaces, hphase, hnone]
      obtain ⟨-, hsize, hkept⟩ := SourcePool.add_spec deps.platform run.pool doc result.rank
      set pooled := poolDocument deps { run with lastReading := now } tally doc result.rank
        with hpooled
      have hspec : pooled.1.pool = (run.pool.add deps.platform doc result.rank).1 ∧
          pooled.1.budget.sourcesUsed = run.budget.sourcesUsed +
            if (run.pool.add deps.platform doc result.rank).2.kept then 1 else 0 := by
        rw [hpooled, poolDocument]
        dsimp only
        split <;> exact ⟨rfl, rfl⟩
      have hsame := (toNextResult_spec deps pooled.1 pending pooled.2).1
      unfold Balanced
      rw [hsame.pool, hsame.budget, hspec.1, hspec.2, hiff]
      constructor
      · intro hout
        rw [if_pos hout, if_pos (hkept hout)] at hsize
        rw [if_pos (hkept hout)]
        omega
      · intro hout
        rw [if_neg hout] at hsize
        omega

lemma pool_loopHead (deps : ResearchDeps) (run : ResearchRun) (now : ℤ) :
    (loopHead deps run now).pool = run.pool ∧
      (loopHead deps run now).budget.sourcesUsed = run.budget.sourcesUsed := by
  unfold loopHead
  dsimp only
  split
  next => exact ⟨rfl, rfl⟩
  next =>
    split
    next => exact ⟨rfl, rfl⟩
    next => split <;> exact ⟨rfl, rfl⟩

lemma pool_queriesGenerated (deps : ResearchDeps) (run : ResearchRun) (reply : Option LlmReply) :
    (queriesGenerated deps run reply).pool = run.pool ∧
      (queriesGenerated deps run reply).budget.sourcesUsed = run.budget.sourcesUsed := by
  unfold queriesGenerated
  dsimp only
  split <;> exact ⟨rfl, rfl⟩

lemma pool_generatorReplied (deps : ResearchDeps) (run : ResearchRun) (reply : LlmReply) :
    (generatorReplied deps run reply).pool = run.pool ∧
      (generatorReplied deps run reply).budget.sourcesUsed = run.budget.sourcesUsed := by
  obtain ⟨hpool, hused⟩ :=
    pool_queriesGenerated deps { run with sends := run.sends + 1 } (some reply)
  unfold generatorReplied
  dsimp only
  split
  next => exact ⟨rfl, rfl⟩
  next => exact ⟨hpool, hused⟩

lemma pool_hopMapped (deps : ResearchDeps) (run : ResearchRun) (tally : HopOutcome)
    (interim : Option InterimBrief) :
    (hopMapped deps run tally interim).pool = run.pool ∧
      (hopMapped deps run tally interim).budget.sourcesUsed = run.budget.sourcesUsed := by
  unfold hopMapped
  dsimp only
  split
  next => exact ⟨rfl, rfl⟩
  next =>
    split
    next => exact ⟨rfl, rfl⟩
    next =>
      split
      next => exact ⟨rfl, rfl⟩
      next =>
        split
        next => exact ⟨rfl, rfl⟩
        next => exact pool_queriesGenerated deps (recordHop deps run tally interim) none

lemma balanced_step {run run' : ResearchRun} (hstep : StepOf deps run answer run') :
    Balanced deps run answer run' := by
  cases hstep with
  | @fetch result pending tally now processed hphase =>
    exact balanced_resultFetched hphase now processed
  | @idle answer h =>
    refine balanced_of_eq (fun hrep => ?_) rfl rfl
    rcases h with (hphase | hphase) | hfits
    · simp [Replaces, hphase] at hrep
    · simp [Replaces, hphase] at hrep
    · revert hrep hfits
      unfold Replaces Fits
      cases run.phase <;> cases answer <;> simp
  | crash => exact balanced_of_eq (by simp [Replaces]) rfl rfl
  | head now hphase =>
    obtain ⟨hpool, hused⟩ := pool_loopHead deps run now
    exact balanced_of_eq (by simp [Replaces, hphase]) hpool hused
  | @search query queries seen combined reply hphase =>
    have hsame := (searchReplied_spec deps run query queries seen combined reply).1
    exact balanced_of_eq (by simp [Replaces, hphase]) hsame.pool (by rw [hsame.budget])
  | map interim hphase =>
    obtain ⟨hpool, hused⟩ := pool_hopMapped deps run _ interim
    exact balanced_of_eq (by simp [Replaces, hphase]) hpool hused
  | generate reply hphase =>
    obtain ⟨hpool, hused⟩ := pool_generatorReplied deps run reply
    exact balanced_of_eq (by simp [Replaces, hphase]) hpool hused
  | @draft attempt reply hphase =>
    obtain ⟨phase, heq, -⟩ := draftReplied_spec deps run attempt reply
    rw [heq]
    exact balanced_of_eq (by simp [Replaces, hphase]) rfl rfl
  | compose success hphase => exact balanced_of_eq (by simp [Replaces, hphase]) rfl rfl

/-- The counted sources and the documents agree exactly as long as no document takes the place of
another.

**Proof sketch.** Induction on the answers. A step that is no replacement keeps the difference; one
that is leaves more sources counted than documents held, and that difference never closes. -/
lemma pool_runFrom (deps : ResearchDeps) (now : ℤ) (run : ResearchRun)
    (answers : List ResearchAnswer) (hle : run.pool.size ≤ run.budget.sourcesUsed) :
    ((researchLoop deps now).runFrom run answers).pool.size =
        ((researchLoop deps now).runFrom run answers).budget.sourcesUsed ↔
      run.pool.size = run.budget.sourcesUsed ∧
        (researchLoop deps now).Along (fun run answer => ¬ Replaces deps run answer) run answers := by
  induction answers generalizing run with
  | nil => simp
  | cons answer answers ih =>
    obtain ⟨hrep, hnot⟩ := balanced_step (stepOf_researchStep deps run answer)
    have hstep : (researchLoop deps now).step run answer = researchStep deps run answer := rfl
    rw [runFrom_cons, along_cons, hstep]
    by_cases hr : Replaces deps run answer
    · have hgap := hrep hr
      rw [ih _ (by omega)]
      refine iff_of_false (fun h => ?_) (fun h => h.2.1 hr)
      omega
    · have hkeep := hnot hr
      rw [ih _ (by omega), and_iff_right hr]
      exact and_congr_left' (by omega)

/-! ## The bounds and the reason -/

def ResearchRun.Justified (deps : ResearchDeps) (run : ResearchRun) : Prop :=
  match run.terminationReason with
  | .coverage_met => deps.coverageTarget ≤ run.coverage.score
  | .max_hops => deps.budget.maxHops ≤ run.hops.length
  | .no_novel_queries => run.nextQueries = []
  | .wall_clock => deps.budget.maxWallClockMs ≤ run.budget.elapsedMs run.lastReading
  | .max_sources => deps.budget.maxSources ≤ run.pool.size
  | .max_llm_calls => deps.budget.maxLlmCalls ≤ run.sends

/-- The reason of a finished run is justified, unless it is `max_sources` and a document took the
place of another. -/
lemma justified_iff (h : ResearchInv deps run) (hphase : run.phase = .finished) :
    run.Justified deps ↔
      (run.terminationReason = .max_sources → run.pool.size = run.budget.sourcesUsed) := by
  obtain ⟨hcounts, hstanding⟩ := h
  rw [hphase] at hstanding
  obtain ⟨hhops, hfounded⟩ := hstanding
  have hcap := hcounts.sources_le
  have hpool := hcounts.pool_le
  unfold ResearchRun.Justified
  cases hreason : run.terminationReason <;> rw [hreason] at hfounded
  case max_sources =>
    have hreached : run.budget.budget.maxSources ≤ run.budget.sourcesUsed := hfounded
    rw [hcounts.budget] at hreached
    simp only [forall_const]
    omega
  case coverage_met => exact iff_of_true hfounded (by simp)
  case no_novel_queries => exact iff_of_true hfounded (by simp)
  case max_hops =>
    have hreached : run.budget.budget.maxHops ≤ run.budget.hopsUsed := hfounded
    rw [hcounts.budget, ← hhops] at hreached
    exact iff_of_true hreached (by simp)
  case wall_clock =>
    have hreached : run.budget.budget.maxWallClockMs ≤ run.budget.elapsedMs run.lastReading :=
      hfounded
    rw [hcounts.budget] at hreached
    exact iff_of_true hreached (by simp)
  case max_llm_calls =>
    have hreached : run.budget.budget.maxLlmCalls ≤ run.budget.llmCallsUsed := hfounded
    rw [hcounts.budget] at hreached
    exact iff_of_true (hreached.trans hcounts.calls_le_sends) (by simp)

/-- A research run comes to its end, within its hops and its sources. Its sends are within its calls
if every send is charged or has a call left, and the reason it reports names a limit reached exactly
if it is not `max_sources` or no document took the place of another. -/
theorem research_within_budget (deps : ResearchDeps) (now : ℤ) :
    (∀ answers : ℕ → ResearchAnswer,
      (∀ n, Fits ((researchLoop deps now).run (Machine.firstInputs answers n)) (answers n)) →
      ∃ n, Over ((researchLoop deps now).run (Machine.firstInputs answers n))) ∧
    ∀ answers : List ResearchAnswer,
      let run := (researchLoop deps now).run answers
      (run.hops.length ≤ deps.budget.maxHops ∧ run.budget.hopsUsed ≤ deps.budget.maxHops) ∧
      (run.pool.size ≤ deps.budget.maxSources ∧
        run.budget.sourcesUsed ≤ deps.budget.maxSources) ∧
      ((researchLoop deps now).Along (fun run answer => ChargedSends deps run answer)
        (researchLoop deps now).init answers →
        run.sends ≤ deps.budget.maxLlmCalls) ∧
      (run.phase = .finished →
        (run.Justified deps ↔ (run.terminationReason = .max_sources →
          (researchLoop deps now).Along (fun run answer => ¬ Replaces deps run answer)
            (researchLoop deps now).init answers))) := by
  refine ⟨research_stops deps now, fun answers => ?_⟩
  have hinv := researchInv_run deps now answers
  have hcounts := hinv.1
  have hpool := pool_runFrom deps now (researchLoop deps now).init answers le_rfl
  refine ⟨⟨hcounts.hops_le.trans hcounts.hopsUsed_le, hcounts.hopsUsed_le⟩,
    ⟨hcounts.pool_le.trans hcounts.sources_le, hcounts.sources_le⟩, sends_le_run deps now,
    fun hphase => ?_⟩
  rw [justified_iff hinv hphase]
  exact imp_congr_right fun _ => hpool.trans (and_iff_right rfl)

/-! ## Runs on fixed answers -/

/-- A platform for plain words: no URL is parsed, and no text resembles another. -/
def plainResearch : ResearchPlatform where
  toLowerCase := JsText.asciiLower
  newUrl _ := none
  setPathname _ path := path
  queryText _ := ""
  tokenize text := if 1 < text.length then [text] else []
  similarToKept _ _ := false
  topEntities _ := []
  localeLe a b := decide (a ≤ b)
  jsonStrings _ := none

/-- A run on the topic `"solar panels"`, whose drafts are never valid. -/
def solarDeps (budget : ResearchBudget) (queryLlm : Bool) (maxReprompts : Option ℕ) :
    ResearchDeps where
  platform := plainResearch
  topic := "solar panels"
  budget := budget
  coverageTarget := 9 / 10
  queryLlm := queryLlm
  maxReprompts := maxReprompts
  judgeDraft _ _ := .invalid

/-- A document of one host, for a hit of its own. -/
def hostDoc (url : String) : ProcessedSource :=
  .doc { url := url, finalUrl := none, host := "shop.example", text := url }

/-- An interim Brief whose one section nothing bears out. -/
def storageBrief : InterimBrief := ⟨[("storage", 1)]⟩

/-- Three drafts within three calls, after a hop whose one query found nothing. -/
theorem research_within_budget_hop :
    let deps := solarDeps ⟨1, 4, 1000, 3⟩ true (some 2)
    let run := (researchLoop deps 0).run
      [.checked 0, .searched (.results []), .mapped none, .drafted (.text ""),
        .drafted (.text ""), .drafted (.text ""), .composed true]
    run.sends ≤ 3 ∧ run.Justified deps := by
  intro deps run
  have h := (research_within_budget deps 0).2
    [.checked 0, .searched (.results []), .mapped none, .drafted (.text ""), .drafted (.text ""),
      .drafted (.text ""), .composed true]
  exact ⟨h.2.2.1 (by decide +kernel),
    (h.2.2.2 (by decide +kernel)).2 fun _ => by decide +kernel⟩

/-- With one call allowed, a failed query generation and three drafts are four sends. With four
sources allowed, a document that takes the place of another stops the run on three. -/
theorem research_over_budget :
    let uncharged := (researchLoop (solarDeps ⟨2, 9, 1000, 1⟩ true (some 2)) 0).run
      [.checked 0, .searched (.results []), .mapped (some storageBrief),
        .generated (.failed "overloaded"), .checked 0, .searched (.results []),
        .searched (.results []), .mapped none, .drafted (.text ""), .drafted (.text ""),
        .drafted (.text ""), .composed true]
    let replaced := (researchLoop (solarDeps ⟨3, 4, 1000, 1⟩ false none) 0).run
      [.checked 0, .searched (.results [⟨"a", 1⟩, ⟨"b", 2⟩, ⟨"c", 3⟩]), .fetched 0 (hostDoc "a"),
        .fetched 0 (hostDoc "b"), .fetched 0 (hostDoc "c"), .mapped (some storageBrief),
        .checked 0, .searched (.results [⟨"d", 1⟩]), .searched (.results []),
        .fetched 0 (hostDoc "d"), .mapped none, .checked 0, .composed true]
    (uncharged.phase = .finished ∧ uncharged.budget.budget.maxLlmCalls = 1 ∧
      uncharged.sends = 4) ∧
    replaced.phase = .finished ∧ replaced.terminationReason = .max_sources ∧
      replaced.budget.budget.maxSources = 4 ∧ replaced.pool.size = 3 := by
  decide +kernel

end Yantra.Research
