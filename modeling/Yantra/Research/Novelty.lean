import Yantra.Research.Loop

/-!
# The queries of a research run

Each hop of a run issues what the generator gave it, and a query that comes close to one issued
before is never issued, whatever the model, the search and the pages answer.

## Main definitions

* `Novel` — no query comes close to one before it.

## Main results

* `queries_novel` — the queries of every run are novel, valid, and few.
-/

namespace Yantra.Research

open List

/-- No query comes close to one before it, and all but the first are valid. -/
def Novel (pf : ResearchPlatform) (queries : List String) : Prop :=
  queries.Pairwise (fun q q' => nearDuplicates pf q' q = false) ∧
    ∀ q ∈ queries.tail, isValidQuery pf q

section Generate

variable {pf : ResearchPlatform} {issued kept candidates : List String}

/-- What is kept is novel to what was issued and kept before it.

**Proof sketch.** Induction on the candidates, the kept queries generalized. -/
lemma pairwise_novelFrom
    (h : (issued ++ kept).Pairwise fun q q' => nearDuplicates pf q' q = false) :
    (issued ++ novelFrom pf issued kept candidates).Pairwise
      fun q q' => nearDuplicates pf q' q = false := by
  induction candidates generalizing kept with
  | nil => exact h
  | cons candidate candidates ih =>
    rw [novelFrom]
    split
    · exact ih h
    · rename_i hnew
      refine ih ?_
      rw [← append_assoc]
      refine pairwise_append.2 ⟨h, pairwise_singleton _ _, fun q hq q' hq' => ?_⟩
      obtain rfl := mem_singleton.1 hq'
      simp only [Bool.or_eq_true, not_or, any_eq_true, not_exists, not_and, Bool.not_eq_true] at hnew
      exact (mem_append.1 hq).elim (hnew.1 q) (hnew.2 q)

lemma pairwise_filterNovel (h : Novel pf issued) (n : ℕ) :
    (issued ++ (filterNovel pf candidates issued).take n).Pairwise
      fun q q' => nearDuplicates pf q' q = false := by
  have hall : (issued ++ filterNovel pf candidates issued).Pairwise
      fun q q' => nearDuplicates pf q' q = false := by
    refine pairwise_novelFrom ?_
    rw [append_nil]
    exact h.1
  exact hall.sublist ((Sublist.refl issued).append (take_sublist n _))

lemma novel_generate (h : Novel pf issued) (topic : String) (gaps : List String)
    (reply : Option LlmReply) :
    Novel pf (issued ++ (generate pf topic gaps issued reply).queries) := by
  refine ⟨?_, fun q hq => ?_⟩
  · unfold generate
    split
    · rename_i queries hreply
      obtain ⟨reply, -, hreply⟩ := Option.bind_eq_some_iff.1 hreply
      obtain ⟨valid, -, rfl⟩ := eq_of_generateWithLlm hreply
      exact pairwise_filterNovel h _
    · exact pairwise_filterNovel h _
  · have hmem : q ∈ issued.tail ∨ q ∈ (generate pf topic gaps issued reply).queries := by
      cases issued with
      | nil => exact .inr (mem_of_mem_tail hq)
      | cons first issued => exact mem_append.1 hq
    exact hmem.elim (h.2 q) fun hnew => ((generate_spec pf topic gaps issued reply).2 q hnew).1

end Generate

variable {deps : ResearchDeps} {run run' : ResearchRun}

structure NovelInv (deps : ResearchDeps) (run : ResearchRun) : Prop where
  issued : Novel deps.platform run.issuedQueries
  count : run.issuedQueries.length ≤ MAX_QUERIES_PER_HOP * run.budget.hopsUsed
  /-- At the head of the loop the next queries are as good as issued. -/
  next : run.phase = .head → Novel deps.platform (run.issuedQueries ++ run.nextQueries) ∧
    run.nextQueries.length ≤ MAX_QUERIES_PER_HOP

/-- What the invariant reads, away from the head. -/
def ResearchRun.spent (run : ResearchRun) : List String × ℕ :=
  (run.issuedQueries, run.budget.hopsUsed)

lemma NovelInv.of_spent (h : NovelInv deps run) (hspent : run'.spent = run.spent)
    (hphase : run'.phase ≠ .head) : NovelInv deps run' := by
  obtain ⟨hissued, hhops⟩ := Prod.mk.inj hspent
  exact ⟨hissued ▸ h.issued, by rw [hissued, hhops]; exact h.count, fun hc => absurd hc hphase⟩

lemma stopFor_phase (reason : TerminationReason) : (stopFor deps run reason).phase ≠ .head := by
  simp only [stopFor, startSynthesis]
  split_ifs <;> rintro ⟨⟩

lemma novelInv_queriesGenerated (run : ResearchRun) (h : Novel deps.platform run.issuedQueries)
    (hcount : run.issuedQueries.length ≤ MAX_QUERIES_PER_HOP * run.budget.hopsUsed)
    (reply : Option LlmReply) : NovelInv deps (queriesGenerated deps run reply) where
  issued := h
  count := by
    simp only [queriesGenerated]
    split_ifs <;> exact hcount
  next _ := ⟨novel_generate h _ _ reply, (generate_spec ..).1⟩

lemma toNextResult_spent (run : ResearchRun) (results : List SearchResult) (tally : HopOutcome) :
    (toNextResult run results tally).spent = run.spent ∧
      (toNextResult run results tally).phase ≠ .head := by
  cases results with
  | nil => exact ⟨rfl, by rintro ⟨⟩⟩
  | cons result pending =>
    simp only [toNextResult]
    split_ifs <;> exact ⟨rfl, by rintro ⟨⟩⟩

lemma toNextSearch_spent (run : ResearchRun) (queries seen : List String)
    (combined : List SearchResult) :
    (toNextSearch run queries seen combined).spent = run.spent ∧
      (toNextSearch run queries seen combined).phase ≠ .head := by
  cases queries with
  | nil => exact toNextResult_spent _ _ _
  | cons query queries => exact ⟨rfl, by rintro ⟨⟩⟩

lemma novelInv_loopHead (h : NovelInv deps run) (hphase : run.phase = .head) (now : ℤ) :
    NovelInv deps (loopHead deps run now) := by
  unfold loopHead
  simp only
  split
  · exact h.of_spent rfl (stopFor_phase _)
  · split_ifs
    · exact h.of_spent rfl (stopFor_phase _)
    · split
      · exact h.of_spent rfl (stopFor_phase _)
      · rename_i query queries hnext
        obtain ⟨hnovel, hlen⟩ := h.next hphase
        refine ⟨hnovel, ?_, by rintro ⟨⟩⟩
        simp only [length_append, BudgetTracker.recordHop, Nat.mul_add, Nat.mul_one]
        exact Nat.add_le_add h.count hlen

lemma novelInv_hopMapped (h : NovelInv deps run) (tally : HopOutcome)
    (interim : Option InterimBrief) : NovelInv deps (hopMapped deps run tally interim) := by
  unfold hopMapped
  simp only
  split
  · exact h.of_spent rfl (stopFor_phase _)
  · split_ifs
    · exact h.of_spent rfl (stopFor_phase _)
    · exact h.of_spent rfl (stopFor_phase _)
    · exact h.of_spent rfl (by rintro ⟨⟩)
    · exact novelInv_queriesGenerated (recordHop deps run tally interim) h.issued h.count none

lemma NovelInv.step {answer : ResearchAnswer} (h : NovelInv deps run)
    (hstep : StepOf deps run answer run') : NovelInv deps run' := by
  cases hstep with
  | idle => exact h
  | crash => exact h.of_spent rfl (by rintro ⟨⟩)
  | head now hphase => exact novelInv_loopHead h hphase now
  | search reply hphase =>
    cases reply with
    | results results =>
      obtain ⟨hspent, hhead⟩ := toNextSearch_spent run _ _ _
      exact h.of_spent hspent hhead
    | failed message =>
      obtain ⟨hspent, hhead⟩ := toNextSearch_spent { run with extraNotices := _ } _ _ _
      exact h.of_spent hspent hhead
    | aborted =>
      obtain ⟨hspent, hhead⟩ := toNextResult_spent run _ _
      exact h.of_spent hspent hhead
  | fetch now processed hphase =>
    unfold resultFetched
    simp only
    split
    · exact h.of_spent rfl (by rintro ⟨⟩)
    · split
      · obtain ⟨hspent, hhead⟩ := toNextResult_spent (poolDocument ..).1 _ _
        refine h.of_spent (hspent.trans ?_) hhead
        simp only [poolDocument]
        split_ifs <;> rfl
      · rename_i failure
        obtain ⟨hspent, hhead⟩ := toNextResult_spent
          { run with lastReading := now, failures := run.failures ++ [failure] } _ _
        exact h.of_spent hspent hhead
  | map interim hphase => exact novelInv_hopMapped h _ interim
  | generate reply hphase =>
    cases reply with
    | threw message => exact h.of_spent rfl (by rintro ⟨⟩)
    | _ =>
      exact novelInv_queriesGenerated { run with sends := run.sends + 1 } h.issued h.count _
  | @draft attempt reply hphase =>
    obtain ⟨phase, heq, hphase⟩ := draftReplied_spec deps run attempt reply
    rw [heq]
    refine h.of_spent rfl ?_
    rcases hphase with rfl | rfl | rfl | ⟨rfl, -⟩ <;> rintro ⟨⟩
  | compose success hphase => exact h.of_spent rfl (by cases success <;> rintro ⟨⟩)

/-- **Novel queries.** In every run, whatever is answered, no query issued comes close to one issued
before it, all but the topic itself are valid, and there are at most three for each of the hops that
the budget allows.

**Proof sketch.** What the generator gives is novel to what was issued, and only the head of the
loop issues it. -/
theorem queries_novel (deps : ResearchDeps) (now : ℤ) (answers : List ResearchAnswer) :
    let run := (researchLoop deps now).run answers
    Novel deps.platform run.issuedQueries ∧
      run.issuedQueries.length ≤ MAX_QUERIES_PER_HOP * deps.budget.maxHops := by
  have hstep : ∀ run answer, NovelInv deps run →
      NovelInv deps ((researchLoop deps now).step run answer) :=
    fun run answer h => h.step (stepOf_researchStep deps run answer)
  have hinit : NovelInv deps (researchLoop deps now).init :=
    ⟨⟨.nil, nofun⟩, Nat.zero_le _,
      fun _ => ⟨⟨pairwise_singleton _ _, nofun⟩, Nat.le_add_left 1 2⟩⟩
  have hinv := Machine.invariant_runFrom' hstep hinit answers
  have hcounts := (researchInv_run deps now answers).1
  exact ⟨hinv.issued, hinv.count.trans (Nat.mul_le_mul_left _ hcounts.hopsUsed_le)⟩

end Yantra.Research
