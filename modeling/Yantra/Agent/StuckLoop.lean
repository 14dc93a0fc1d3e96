import Yantra.Agent.RunEvents

/-!
# The stuck-loop breaker

The breaker stops a run when a tool fails `toolRetries + 1` times in a row with the same failure
key. It judges each tool on its own history: the results of the other tools, of calls that were
denied or aborted, and every other event of the run make no difference.

## Main definitions

* `OwnResult`, `ownHistory` — what a tool's own results say to the breaker.
* `StoppedAsStuck` — the run is stopped by the breaker.

## Main results

* `stuck_loop_own_history` — when a run is stopped as stuck.
-/

namespace Yantra

open List Option Prod ExecutionState RunEvent

/-! ## Own histories -/

/-- What one result of a tool says to the breaker. -/
inductive OwnResult where
  | success
  /-- A failure with its key; `excepted` tells that it is a timeout past the soft wall clock. -/
  | failure (key : String) (excepted : Bool)
  deriving DecidableEq, Repr, Inhabited

/-- The result of an ended call; denied and aborted calls have none. -/
def ToolFinished.ownResult (e : ToolFinished) : Option OwnResult :=
  match e.metadata.status with
  | .ok => some .success
  | .error => some (.failure (e.metadata.failureKey e.tool)
      (decide (e.metadata.errorCode = some "TOOL_TIMEOUT") && e.softAtBreaker))
  | .denied | .aborted => none

/-- The result of `tool` that an event reports, if any. -/
def RunEvent.resultOf (tool : String) : RunEvent → Option OwnResult
  | .toolFinished e => if e.tool = tool then e.ownResult else none
  | _ => none

def ownHistory (tool : String) (es : List RunEvent) : List OwnResult :=
  es.filterMap (RunEvent.resultOf tool)

def OwnResult.FailsWith (key : String) (r : OwnResult) : Prop := ∃ x, r = .failure key x

/-- The history ends in `n` failures with the same key. -/
def FailsLast (n : Nat) (key : String) (h : List OwnResult) : Prop :=
  ∃ pre run, h = pre ++ run ∧ run.length = n ∧ ∀ r ∈ run, r.FailsWith key

/-- The history ends in `n` failures with the same key, the last of them not excepted. -/
def EndsStuck (n : Nat) (h : List OwnResult) : Prop :=
  ∃ key, FailsLast n key h ∧ h.getLast? = some (.failure key false)

/-- The history has `n` consecutive failures with the same key, the last of them not excepted. -/
def ContainsStuck (n : Nat) (h : List OwnResult) : Prop := ∃ h', h' <+: h ∧ EndsStuck n h'

/-- The run is stopped by the breaker. -/
def StoppedAsStuck (s : ExecutionState) : Prop := s.repeatedFailure.isSome ∧ s.interrupted

/-! ## The streak of a history -/

def countFor (key : String) : Option FailureStreak → Nat
  | some streak => if streak.key = key then streak.count else 0
  | none => 0

def nextStreak (streak : Option FailureStreak) : OwnResult → Option FailureStreak
  | .success => none
  | .failure key _ => some ⟨key, countFor key streak + 1⟩

/-- The streak at the end of a history. -/
def streakOf (h : List OwnResult) : Option FailureStreak := h.foldl nextStreak none

lemma streakOf_concat (h : List OwnResult) (r : OwnResult) :
    streakOf (h ++ [r]) = nextStreak (streakOf h) r := by
  simp [streakOf]

lemma nextCount_eq (s : ExecutionState) (tool key : String) :
    s.nextCount tool key = countFor key (s.failureStreaks.get? tool) + 1 := by
  unfold nextCount countFor
  cases s.failureStreaks.get? tool with
  | none => rfl
  | some previous => by_cases hkey : previous.key = key <;> simp [hkey]

lemma failsLast_zero (key : String) (h : List OwnResult) : FailsLast 0 key h :=
  ⟨h, [], by simp⟩

variable (n : Nat)

lemma failsLast_concat (key : String) (h : List OwnResult) (r : OwnResult) :
    FailsLast (n + 1) key (h ++ [r]) ↔ r.FailsWith key ∧ FailsLast n key h := by
  constructor
  · rintro ⟨pre, run, hsplit, hlength, hrun⟩
    obtain rfl | ⟨front, last, rfl⟩ := run.eq_nil_or_concat
    · cases hlength
    · rw [concat_eq_append, ← append_assoc] at hsplit
      obtain ⟨rfl, hlast⟩ := append_inj' hsplit rfl
      obtain rfl : r = last := by simpa using hlast
      simp only [concat_eq_append, length_append, length_singleton] at hlength
      simp only [concat_eq_append, mem_append, mem_singleton] at hrun
      exact ⟨hrun r (Or.inr rfl), pre, front, rfl, by omega, fun x hx => hrun x (Or.inl hx)⟩
  · rintro ⟨hr, pre, run, rfl, rfl, hrun⟩
    refine ⟨pre, run ++ [r], by simp, by simp, fun x hx => ?_⟩
    rcases mem_append.1 hx with hx | hx
    · exact hrun x hx
    · exact mem_singleton.1 hx ▸ hr

lemma not_failsLast_nil (key : String) : ¬ FailsLast (n + 1) key [] := by
  rintro ⟨pre, run, hsplit, hlength, -⟩
  obtain ⟨rfl, rfl⟩ := append_eq_nil_iff.1 hsplit.symm
  cases hlength

/-- **The streak counts.** A history ends in `n` failures with a key exactly when its streak counts
as many of that key.

**Proof sketch.** Induction on the history from its end: a failure with another key, and a success,
leave no failure with the key in the streak. -/
lemma failsLast_iff_count (h : List OwnResult) (n : Nat) (key : String) :
    FailsLast n key h ↔ n ≤ countFor key (streakOf h) := by
  cases n with
  | zero => simp [failsLast_zero]
  | succ n =>
    induction h using reverseRecOn generalizing n with
    | nil => simpa [streakOf, countFor] using not_failsLast_nil n key
    | append_singleton h r ih =>
      rw [failsLast_concat, streakOf_concat]
      cases r with
      | success => simp [OwnResult.FailsWith, nextStreak, countFor]
      | failure key' x =>
        by_cases hkey : key' = key
        · subst hkey
          have hfails : (OwnResult.failure key' x).FailsWith key' := ⟨x, rfl⟩
          simp only [hfails, true_and, nextStreak, countFor, if_true]
          cases n with
          | zero => simp [failsLast_zero]
          | succ n => rw [ih n]; exact Nat.succ_le_succ_iff.symm
        · have hfails : ¬ (OwnResult.failure key' x).FailsWith key := by
            rintro ⟨y, hy⟩
            cases hy
            exact hkey rfl
          simp [hfails, nextStreak, countFor, hkey]

lemma endsStuck_concat_failure (h : List OwnResult) (key : String) (x : Bool) :
    EndsStuck (n + 1) (h ++ [.failure key x]) ↔
      n + 1 ≤ countFor key (streakOf h) + 1 ∧ x = false := by
  constructor
  · rintro ⟨key', hfails, hlast⟩
    rw [getLast?_concat, some.injEq, OwnResult.failure.injEq] at hlast
    obtain ⟨rfl, rfl⟩ := hlast
    have hcount := (failsLast_iff_count _ _ _).1 ((failsLast_concat n key h _).1 hfails).2
    exact ⟨by omega, rfl⟩
  · rintro ⟨hcount, rfl⟩
    have hfails : FailsLast n key h := (failsLast_iff_count _ _ _).2 (by omega)
    exact ⟨key, (failsLast_concat n key h _).2 ⟨⟨false, rfl⟩, hfails⟩, by simp⟩

lemma not_endsStuck_concat_success (h : List OwnResult) :
    ¬ EndsStuck n (h ++ [.success]) := by
  rintro ⟨key, -, hlast⟩
  simp at hlast

lemma not_containsStuck_nil : ¬ ContainsStuck n [] := by
  rintro ⟨h, hpre, key, -, hlast⟩
  rw [prefix_nil.1 hpre] at hlast
  simp at hlast

lemma containsStuck_concat (h : List OwnResult) (r : OwnResult) :
    ContainsStuck n (h ++ [r]) ↔ ContainsStuck n h ∨ EndsStuck n (h ++ [r]) := by
  constructor
  · rintro ⟨h', hpre, hstuck⟩
    rcases prefix_concat_iff.1 hpre with rfl | hpre
    · exact Or.inr (by simpa using hstuck)
    · exact Or.inl ⟨h', hpre, hstuck⟩
  · rintro (⟨h', hpre, hstuck⟩ | hstuck)
    · exact ⟨h', hpre.trans (prefix_append _ _), hstuck⟩
    · exact ⟨_, prefix_rfl, hstuck⟩

/-! ## The run keeps the streak of each history -/

lemma ownHistory_concat (tool : String) (es : List RunEvent) (e : RunEvent) :
    ownHistory tool (es ++ [e]) = ownHistory tool es ++ (e.resultOf tool).toList := by
  unfold ownHistory
  rw [filterMap_append]
  cases he : e.resultOf tool <;> simp [he]

/-- What the breaker does with a result: the streaks and the latch after it. -/
def judged (cfg : ExecutionConfig) (call : ToolFinished) (r : OwnResult)
    (streaks : OrderedMap String FailureStreak) (latch : Option RepeatedFailure) :
    OrderedMap String FailureStreak × Option RepeatedFailure :=
  match r with
  | .success => (streaks.erase call.tool, latch)
  | .failure key excepted =>
    let count := countFor key (streaks.get? call.tool) + 1
    (streaks.set call.tool ⟨key, count⟩,
      if cfg.toolRetries + 1 ≤ count ∧ latch = none ∧ excepted = false then
        some ⟨call.tool, call.metadata.errorCode.getD "TOOL_FAILED"⟩
      else latch)

variable (cfg : ExecutionConfig)

lemma breaker_toolFinished (s : ExecutionState) (call : ToolFinished) :
    (executionStep cfg s (.toolFinished call)).breaker =
      match call.ownResult with
      | some r => judged cfg call r s.failureStreaks s.repeatedFailure
      | none => s.breaker := by
  have hlatch := breaker_latchTool call s
  simp only [breaker, Prod.mk.injEq] at hlatch
  obtain ⟨hstreaks, hfailure⟩ := hlatch
  rw [executionStep, breaker_recoverAfter]
  unfold trackFailureStreak ToolFinished.ownResult
  cases call.metadata.status with
  | ok => simp [judged, breaker, hstreaks, hfailure]
  | denied => simp
  | aborted => simp
  | error =>
    simp only [nextCount_eq, hstreaks, hfailure, judged]
    by_cases hcount : cfg.toolRetries + 1 ≤
        countFor (call.metadata.failureKey call.tool) (s.failureStreaks.get? call.tool) + 1 ∧
          s.repeatedFailure = none
    · by_cases hsoft : call.metadata.errorCode = some "TOOL_TIMEOUT" ∧ call.softAtBreaker
      · simp [breaker, hcount, hsoft]
      · have hexcepted : (decide (call.metadata.errorCode = some "TOOL_TIMEOUT") &&
            call.softAtBreaker) = false := by
          simpa [Bool.and_eq_false_iff, imp_iff_not_or] using hsoft
        rw [if_pos hcount, if_neg hsoft, if_pos ⟨hcount.1, hcount.2, hexcepted⟩]
        rfl
    · have hnot : ¬ (cfg.toolRetries + 1 ≤
          countFor (call.metadata.failureKey call.tool) (s.failureStreaks.get? call.tool) + 1 ∧
            s.repeatedFailure = none ∧ (decide (call.metadata.errorCode = some "TOOL_TIMEOUT") &&
              call.softAtBreaker) = false) := fun h => hcount ⟨h.1, h.2.1⟩
      rw [if_neg hcount, if_neg hnot]
      simp [breaker]

variable {e : RunEvent}

lemma resultOf_eq_none (he : ∀ call, e ≠ .toolFinished call) (tool : String) :
    e.resultOf tool = none := by
  cases e with
  | toolFinished call => exact absurd rfl (he call)
  | _ => rfl

lemma get?_failureStreaks_step (s : ExecutionState) (e : RunEvent) (tool : String) :
    (executionStep cfg s e).failureStreaks.get? tool =
      match e.resultOf tool with
      | some r => nextStreak (s.failureStreaks.get? tool) r
      | none => s.failureStreaks.get? tool := by
  by_cases hcall : ∃ call, e = .toolFinished call
  · obtain ⟨call, rfl⟩ := hcall
    have hstreaks : (executionStep cfg s (.toolFinished call)).failureStreaks = _ :=
      congrArg fst (breaker_toolFinished cfg s call)
    rw [hstreaks, resultOf]
    cases call.ownResult with
    | none => simp [breaker]
    | some r =>
      by_cases htool : call.tool = tool
      · subst htool
        cases r <;> simp [judged, nextStreak]
      · cases r <;> simp [judged, htool]
  · have hother : ∀ call, e ≠ .toolFinished call := fun call h => hcall ⟨call, h⟩
    have hstreaks : (executionStep cfg s e).failureStreaks = s.failureStreaks :=
      congrArg fst (breaker_step cfg s e hother)
    rw [hstreaks, resultOf_eq_none hother]

/-- **One streak, one history.** The streak kept for a tool is that of its own history. -/
lemma streak_ownHistory (es : List RunEvent) (tool : String) :
    ((execution cfg).run es).failureStreaks.get? tool = streakOf (ownHistory tool es) := by
  induction es using reverseRecOn with
  | nil => rfl
  | append_singleton es e ih =>
    have hrun : (execution cfg).run (es ++ [e]) =
        executionStep cfg ((execution cfg).run es) e := Machine.runFrom_concat _ _ _ _
    rw [hrun, get?_failureStreaks_step, ownHistory_concat, ih]
    cases e.resultOf tool with
    | none => simp
    | some r => simp [streakOf_concat]

/-! ## When the breaker trips -/

lemma run_concat (es : List RunEvent) (e : RunEvent) :
    (execution cfg).run (es ++ [e]) = executionStep cfg ((execution cfg).run es) e :=
  Machine.runFrom_concat _ _ _ _

/-- What the latest event of a run does to the latch: it trips, unless it has tripped before, when
the tool whose result the event is ends stuck. -/
lemma repeatedFailure_concat (es : List RunEvent) (e : RunEvent) :
    ((execution cfg).run (es ++ [e])).repeatedFailure.isSome ↔
      ((execution cfg).run es).repeatedFailure.isSome ∨
        ∃ tool r, e.resultOf tool = some r ∧
          EndsStuck (cfg.toolRetries + 1) (ownHistory tool es ++ [r]) := by
  rw [run_concat]
  by_cases hcall : ∃ call, e = .toolFinished call
  · obtain ⟨call, rfl⟩ := hcall
    have hresult : ∀ tool r, resultOf tool (.toolFinished call) = some r ↔
        call.tool = tool ∧ call.ownResult = some r := by
      intro tool r
      simp [resultOf]
    have hlatch : (executionStep cfg ((execution cfg).run es)
        (.toolFinished call)).repeatedFailure = _ :=
      congrArg snd (breaker_toolFinished cfg _ call)
    simp only [hresult, hlatch]
    cases hown : call.ownResult with
    | none => simp [breaker]
    | some r =>
      cases r with
      | success => simp [judged, not_endsStuck_concat_success]
      | failure key x =>
        simp only [judged, streak_ownHistory, some.injEq, exists_eq_left', and_assoc,
          exists_and_left, endsStuck_concat_failure]
        cases hrepeated : ((execution cfg).run es).repeatedFailure with
        | some f => simp
        | none =>
          split_ifs with hjudged
          · exact iff_of_true rfl (Or.inr ⟨hjudged.1, hjudged.2.2⟩)
          · refine iff_of_false Bool.false_ne_true ?_
            rintro (hnone | ⟨hcount, hx⟩)
            · cases hnone
            · exact hjudged ⟨hcount, rfl, hx⟩
  · have hother : ∀ call, e ≠ .toolFinished call := fun call h => hcall ⟨call, h⟩
    have hlatch : (executionStep cfg ((execution cfg).run es) e).repeatedFailure =
        ((execution cfg).run es).repeatedFailure :=
      congrArg snd (breaker_step cfg _ e hother)
    simp [hlatch, resultOf_eq_none hother]

lemma stoppedAsStuck_iff (es : List RunEvent) :
    StoppedAsStuck ((execution cfg).run es) ↔
      ((execution cfg).run es).repeatedFailure.isSome := by
  refine ⟨And.left, fun hstuck => ⟨hstuck, ?_⟩⟩
  have hreason := (explained_run cfg es).repeatedFailure hstuck
  simp [interrupted, hreason]

/-- The breaker has tripped exactly when the own history of some tool has got stuck.

**Proof sketch.** Induction on the run from its end: the last event adds a result to the history of
at most one tool, and trips the breaker when that history then ends stuck. -/
lemma repeatedFailure_iff (cfg : ExecutionConfig) (es : List RunEvent) :
    ((execution cfg).run es).repeatedFailure.isSome ↔
      ∃ tool, ContainsStuck (cfg.toolRetries + 1) (ownHistory tool es) := by
  induction es using reverseRecOn with
  | nil =>
    refine iff_of_false Bool.false_ne_true ?_
    rintro ⟨tool, hstuck⟩
    exact not_containsStuck_nil _ hstuck
  | append_singleton es e ih =>
    rw [repeatedFailure_concat, ih, ← exists_or]
    refine exists_congr fun tool => ?_
    rw [ownHistory_concat]
    cases hresult : e.resultOf tool with
    | none => simp
    | some r => simp [containsStuck_concat]

def isResultOf (tool : String) (e : RunEvent) : Bool := (e.resultOf tool).isSome

lemma ownHistory_filter_self (tool : String) (es : List RunEvent) :
    ownHistory tool (es.filter (isResultOf tool)) = ownHistory tool es := by
  unfold ownHistory
  rw [filterMap_filter]
  refine filterMap_congr fun e _ => ?_
  cases hresult : e.resultOf tool <;> simp [isResultOf, hresult]

variable {tool other : String}

lemma resultOf_of_isResultOf (hother : other ≠ tool) (he : isResultOf tool e) :
    e.resultOf other = none := by
  cases e with
  | toolFinished call =>
    by_cases htool : call.tool = tool
    · have hne : call.tool ≠ other := fun h => hother (h.symm.trans htool)
      simp [resultOf, hne]
    · simp [isResultOf, resultOf, htool] at he
  | _ => rfl

lemma ownHistory_filter_of_ne (hother : other ≠ tool) (es : List RunEvent) :
    ownHistory other (es.filter (isResultOf tool)) = [] := by
  refine filterMap_eq_nil_iff.2 fun e he => ?_
  exact resultOf_of_isResultOf hother (mem_filter.1 he).2

lemma stoppedAsStuck_alone (es : List RunEvent) (tool : String) :
    StoppedAsStuck ((execution cfg).run (es.filter (isResultOf tool))) ↔
      ContainsStuck (cfg.toolRetries + 1) (ownHistory tool es) := by
  rw [stoppedAsStuck_iff, repeatedFailure_iff]
  constructor
  · rintro ⟨other, hstuck⟩
    by_cases hother : other = tool
    · rwa [hother, ownHistory_filter_self] at hstuck
    · rw [ownHistory_filter_of_ne hother] at hstuck
      exact absurd hstuck (not_containsStuck_nil _)
  · intro hstuck
    exact ⟨tool, by rwa [ownHistory_filter_self]⟩

/-- **Each tool is judged on its own history.** After any run, with the results of all tools in any
order:

1. the run is stopped as stuck exactly when the results of some tool contain `toolRetries + 1`
   consecutive failures with the same key, the last of them not a timeout past the soft clock;
2. an event stops a run that was not stopped before exactly when it is a result of a tool whose own
   history ends in such failures with it;
3. each tool that got stuck stops the run of its own results alone, and a run is stopped only where
   one of its tools does. -/
theorem stuck_loop_own_history (cfg : ExecutionConfig) (es : List RunEvent) :
    (StoppedAsStuck ((execution cfg).run es) ↔
      ∃ tool, ContainsStuck (cfg.toolRetries + 1) (ownHistory tool es)) ∧
    (∀ e : RunEvent,
      (¬ StoppedAsStuck ((execution cfg).run es) ∧
          StoppedAsStuck ((execution cfg).run (es ++ [e]))) ↔
        (∀ tool, ¬ ContainsStuck (cfg.toolRetries + 1) (ownHistory tool es)) ∧
          ∃ tool r, e.resultOf tool = some r ∧
            EndsStuck (cfg.toolRetries + 1) (ownHistory tool es ++ [r])) ∧
    (StoppedAsStuck ((execution cfg).run es) ↔
      ∃ tool, StoppedAsStuck ((execution cfg).run (es.filter (isResultOf tool)))) := by
  refine ⟨?_, fun e => ?_, ?_⟩
  · rw [stoppedAsStuck_iff, repeatedFailure_iff]
  · rw [stoppedAsStuck_iff, stoppedAsStuck_iff, repeatedFailure_concat, repeatedFailure_iff,
      not_exists]
    refine and_congr_right fun hnone => ?_
    rw [or_iff_right (not_exists.2 hnone)]
  · simp only [stoppedAsStuck_alone]
    rw [stoppedAsStuck_iff, repeatedFailure_iff]

end Yantra
