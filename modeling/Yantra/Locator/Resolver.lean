import Yantra.Lib.Machine

/-!
# The locator resolver

A chain of candidates is tried one after the other. For each, one message asks the page to resolve
it, and where it matched, a second one fetches the element from a slot of the page. A message whose
time runs out is given up, but the page may still work on it at any later time, and write the slot.

## Main definitions

* `Walk`, `ResolverState`, `ResolverAction`, `resolver` — a walk along a
  chain, with what else can happen to the page.
* `KeepsSlot` — what a step must meet for that.

## Main results

* `resolver_resolvedAsMatched` — so does a run.
* `resolver_lateWrite` — two runs that do not.
-/

namespace Yantra

open List Nat

universe u

variable {E : Type u}

/-! ## The page -/

def preferVisible (visible : E → Bool) (elements : List E) : List E :=
  if elements.length < 2 then elements
  else if 0 < (elements.filter visible).length then elements.filter visible
  else elements

/-- `resolveCandidate`, of the elements it works with: their number, and what the slot holds
then. -/
def resolveCandidate (strict : Bool) (elements : List E) : ℕ × Option E :=
  if elements.length = 0 then (0, none)
  else if strict ∧ 1 < elements.length then (elements.length, none)
  else (elements.length, elements.head?)

/-- A message that asks the page to resolve a candidate. -/
structure ResolveMessage where
  strict : Bool
  ran : Bool
  deriving DecidableEq

/-! ## The walk -/

/-- `EngineLocatorChain`, by the number of its candidates. -/
structure ResolverChain where
  candidates : ℕ
  strict : Bool

inductive AttemptOutcome where
  | matched | noMatch | ambiguous | error
  deriving DecidableEq

structure CandidateAttempt where
  index : ℕ
  matchCount : ℕ
  outcome : AttemptOutcome
  deriving DecidableEq

inductive ResolveFailure where
  | notFound | ambiguous | frameDetached
  deriving DecidableEq

inductive ResolveResult (E : Type u) where
  | success (elementHandle : E) (usedCandidateIndex : ℕ) (candidatesTried : List CandidateAttempt)
  | failure (reason : ResolveFailure) (candidatesTried : List CandidateAttempt)
  deriving DecidableEq

inductive Walk (E : Type u) where
  /-- It waits for the answer to its message, with the elements the page has worked with. -/
  | awaiting (index message : ℕ) (answer : Option (List E))
  /-- It waits for the element in the slot. -/
  | retrieving (index matchCount : ℕ)
  | ended (result : ResolveResult E)
  deriving DecidableEq

/-- A walk and its page: the slot, the messages sent to the page by this walk and by others, and
the answers that the walk has got, each with its candidate. -/
structure ResolverState (E : Type u) where
  slot : Option E
  sent : List ResolveMessage
  walk : Walk E
  candidatesTried : List CandidateAttempt
  reported : List (ℕ × List E)
  deriving DecidableEq

/-- Whether the walk takes a candidate with so many matches. -/
def ResolverChain.takes (chain : ResolverChain) (matchCount : ℕ) : Bool :=
  matchCount == 1 || decide (1 < matchCount) && !chain.strict

def exhaustedReason (attempts : List CandidateAttempt) : ResolveFailure :=
  if attempts.any (·.outcome == .ambiguous) then .ambiguous else .notFound

namespace ResolverState

def tryNext (chain : ResolverChain) (s : ResolverState E) (index : ℕ) : ResolverState E :=
  if index < chain.candidates then
    { s with
      sent := s.sent ++ [⟨chain.strict, false⟩]
      walk := .awaiting index s.sent.length none }
  else
    { s with walk := .ended (.failure (exhaustedReason s.candidatesTried) s.candidatesTried) }

/-- An attempt is written down. -/
def tried (s : ResolverState E) (attempt : CandidateAttempt) : ResolverState E :=
  { s with candidatesTried := s.candidatesTried ++ [attempt] }

def detach (s : ResolverState E) (index : ℕ) : ResolverState E :=
  let s := s.tried ⟨index, 0, .error⟩
  { s with walk := .ended (.failure .frameDetached s.candidatesTried) }

/-- The page works on a message. -/
def runMessage (s : ResolverState E) (k : ℕ) (m : ResolveMessage) (elements : List E) :
    ResolverState E :=
  { s with
    slot := (resolveCandidate m.strict elements).2
    sent := s.sent.set k { m with ran := true }
    walk := match s.walk with
      | .awaiting index message none =>
        if message = k then .awaiting index message (some elements) else s.walk
      | walk => walk }

def answered (chain : ResolverChain) (s : ResolverState E) (index : ℕ) (elements : List E) :
    ResolverState E :=
  let s := { s with reported := s.reported ++ [(index, elements)] }
  let matchCount := elements.length
  if chain.takes matchCount then
    { s.tried ⟨index, matchCount, .matched⟩ with walk := .retrieving index matchCount }
  else
    (s.tried ⟨index, matchCount,
      if 1 < matchCount ∧ chain.strict then .ambiguous else .noMatch⟩).tryNext chain (index + 1)

def retrieved (chain : ResolverChain) (s : ResolverState E) (index : ℕ) : ResolverState E :=
  match s.slot with
  | some e => { s with walk := .ended (.success e index s.candidatesTried) }
  | none =>
    let s := { s with candidatesTried := s.candidatesTried.dropLast }
    (s.tried ⟨index, 0, .noMatch⟩).tryNext chain (index + 1)

end ResolverState

/-- What can happen. -/
inductive ResolverAction (E : Type u) where
  /-- Another walk sends a message to the page. -/
  | foreign (strict : Bool)
  /-- The page works on a message, which finds these elements. -/
  | run (message : ℕ) (found : List E) (visible : E → Bool)
  /-- The answer comes. -/
  | answer
  /-- The time of the candidate runs out. -/
  | timeout
  /-- The message fails. -/
  | callFails (detached : Bool)
  /-- The page hands over what is in the slot. -/
  | retrieve
  | retrieveFails (detached : Bool)

def ResolverState.step (chain : ResolverChain) (s : ResolverState E) :
    ResolverAction E → ResolverState E
  | .foreign strict => { s with sent := s.sent ++ [⟨strict, false⟩] }
  | .run k found visible => match s.sent[k]? with
    | some m => if m.ran then s else s.runMessage k m (preferVisible visible found)
    | none => s
  | .answer => match s.walk with
    | .awaiting index _ (some elements) => s.answered chain index elements
    | _ => s
  | .timeout => match s.walk with
    | .awaiting index _ _ => (s.tried ⟨index, 0, .error⟩).tryNext chain (index + 1)
    | _ => s
  | .callFails detached => match s.walk with
    | .awaiting index _ _ =>
      if detached then s.detach index
      else (s.tried ⟨index, 0, .error⟩).tryNext chain (index + 1)
    | _ => s
  | .retrieve => match s.walk with
    | .retrieving index _ => s.retrieved chain index
    | _ => s
  | .retrieveFails detached => match s.walk with
    | .retrieving index matchCount =>
      if detached then s.detach index
      else (s.tried ⟨index, matchCount, .error⟩).tryNext chain (index + 1)
    | _ => s

/-- `resolve`, from its first candidate on, in a page with messages that were given up before. -/
def resolver (chain : ResolverChain) (slot : Option E) (sent : List ResolveMessage) :
    Machine (ResolverState E) (ResolverAction E) where
  init := (⟨slot, sent, .retrieving 0 0, [], []⟩ : ResolverState E).tryNext chain 0
  step := ResolverState.step chain

/-! ## What a result says -/

/-- The result is what the candidates matched. -/
structure ResolvedAsMatched (strict : Bool) (s : ResolverState E) : Prop where
  success : ∀ e i attempts, s.walk = .ended (.success e i attempts) →
    (∃ elements, (i, elements) ∈ s.reported) ∧
      (∀ elements, (i, elements) ∈ s.reported →
        e ∈ elements ∧ (strict = true → elements = [e])) ∧
      ∀ attempt ∈ attempts, attempt.index < i → attempt.outcome ≠ .matched
  failure : ∀ reason attempts, s.walk = .ended (.failure reason attempts) →
    (reason = .ambiguous ↔ ∃ answer ∈ s.reported, 1 < answer.2.length)

lemma ResolvedAsMatched.congr {strict : Bool} {s s' : ResolverState E}
    (h : ResolvedAsMatched strict s) (hwalk : s'.walk = s.walk)
    (hreported : s'.reported = s.reported) : ResolvedAsMatched strict s' where
  success e i attempts hend := by
    rw [hreported]
    exact h.success e i attempts (hwalk.symm.trans hend)
  failure reason attempts hend := by
    rw [hreported]
    exact h.failure reason attempts (hwalk.symm.trans hend)

/-- The walk is about to fetch the element of a candidate that it takes. -/
def ResolverState.holdsMatch (chain : ResolverChain) (s : ResolverState E) : Prop :=
  match s.walk with
  | .awaiting _ _ (some elements) => chain.takes elements.length = true
  | .retrieving _ _ => True
  | _ => False

/-- No message is run that changes the slot while the walk is about to fetch what is in it; fetching
does not fail; and the frame is not detached where a candidate had several matches. -/
def KeepsSlot (chain : ResolverChain) (s : ResolverState E) : ResolverAction E → Prop
  | .run k found visible => s.holdsMatch chain → ∀ m, s.sent[k]? = some m → m.ran = false →
      (resolveCandidate m.strict (preferVisible visible found)).2 = s.slot
  | .callFails detached => detached = true → ∀ answer ∈ s.reported, answer.2.length ≤ 1
  | .retrieveFails detached => detached = true ∧ ∀ answer ∈ s.reported, answer.2.length ≤ 1
  | _ => True

/-! ## The walk and the slot -/

/-- What the walk knows where it tries a candidate: none before was taken, and several matches were
written down. -/
structure NoneTaken (s : ResolverState E) (index : ℕ) : Prop where
  attempts : ∀ attempt ∈ s.candidatesTried, attempt.index < index ∧ attempt.outcome ≠ .matched
  answers : ∀ answer ∈ s.reported, answer.1 < index
  ambiguous_iff : (∃ attempt ∈ s.candidatesTried, attempt.outcome = .ambiguous) ↔
    ∃ answer ∈ s.reported, 1 < answer.2.length

def WalkInv (chain : ResolverChain) (s : ResolverState E) : Prop :=
  match s.walk with
  | .awaiting index message answer => NoneTaken s index ∧
      (∃ m, s.sent[message]? = some m ∧ m.strict = chain.strict ∧ m.ran = answer.isSome) ∧
      ∀ elements, answer = some elements → chain.takes elements.length = true →
        s.slot = elements.head?
  | .retrieving index matchCount => ∃ before elements,
      NoneTaken { s with candidatesTried := before, reported := s.reported.dropLast } index ∧
      s.candidatesTried = before ++ [⟨index, matchCount, .matched⟩] ∧
      s.reported = s.reported.dropLast ++ [(index, elements)] ∧
      chain.takes elements.length = true ∧ s.slot = elements.head?
  | .ended _ => ResolvedAsMatched chain.strict s

variable {elements : List E}

open ResolverChain

lemma takes_spec {chain : ResolverChain} (h : chain.takes elements.length) :
    ∃ e, elements.head? = some e ∧ e ∈ elements ∧ (chain.strict → elements = [e]) := by
  cases elements with
  | nil => exact absurd h (by simp [takes])
  | cons e rest =>
    refine ⟨e, rfl, mem_cons_self, fun hstrict => ?_⟩
    have hnone : rest.length = 0 := by
      simp [takes, hstrict] at h
      simp [h]
    rw [length_eq_zero_iff.1 hnone]

lemma slot_of_takes {chain : ResolverChain} (h : chain.takes elements.length) :
    (resolveCandidate chain.strict elements).2 = elements.head? := by
  obtain ⟨e, hhead, hmem, hone⟩ := takes_spec h
  have hne : elements.length ≠ 0 := by
    rw [Ne, length_eq_zero_iff]
    rintro rfl
    exact absurd hmem (by simp)
  unfold resolveCandidate
  rw [if_neg hne, if_neg]
  rintro ⟨hstrict, hlt⟩
  rw [hone hstrict] at hlt
  exact absurd hlt (by simp)

open ResolverState

section
variable {chain : ResolverChain} {s : ResolverState E}

variable {index : ℕ}

lemma NoneTaken.tryNext (h : NoneTaken s index) : WalkInv chain (s.tryNext chain index) := by
  unfold ResolverState.tryNext
  split_ifs with hlt
  · exact ⟨⟨h.attempts, h.answers, h.ambiguous_iff⟩, ⟨⟨chain.strict, false⟩, by simp, rfl, rfl⟩,
      fun _ hnone => absurd hnone (by simp)⟩
  · refine ⟨fun _ _ _ hwalk => absurd hwalk (by simp), fun reason attempts hwalk => ?_⟩
    simp only [Walk.ended.injEq, ResolveResult.failure.injEq] at hwalk
    rw [← hwalk.1]
    refine Iff.trans ?_ h.ambiguous_iff
    unfold exhaustedReason
    split_ifs with hany
    · simpa using hany
    · simpa using hany

lemma NoneTaken.tried {index matchCount : ℕ} {outcome : AttemptOutcome} (h : NoneTaken s index)
    (hmatched : outcome ≠ .matched) (hambiguous : outcome ≠ .ambiguous) :
    NoneTaken (s.tried ⟨index, matchCount, outcome⟩) (index + 1) where
  attempts attempt hmem := by
    rcases mem_append.1 hmem with hmem | hmem
    · exact ⟨lt_succ_of_lt (h.attempts attempt hmem).1, (h.attempts attempt hmem).2⟩
    · rw [mem_singleton.1 hmem]
      exact ⟨lt_succ_self index, hmatched⟩
  answers answer hmem := lt_succ_of_lt (h.answers answer hmem)
  ambiguous_iff := by
    rw [show (s.tried ⟨index, matchCount, outcome⟩).reported = s.reported from rfl,
      ← h.ambiguous_iff]
    simp [ResolverState.tried, hambiguous]

lemma NoneTaken.answered (h : NoneTaken s index) (elements : List E)
    (hnot : chain.takes elements.length = false) :
    NoneTaken ({ s with reported := s.reported ++ [(index, elements)] }.tried
      ⟨index, elements.length,
        if 1 < elements.length ∧ chain.strict then .ambiguous else .noMatch⟩) (index + 1) where
  attempts attempt hmem := by
    rcases mem_append.1 hmem with hmem | hmem
    · exact ⟨lt_succ_of_lt (h.attempts attempt hmem).1, (h.attempts attempt hmem).2⟩
    · rw [mem_singleton.1 hmem]
      refine ⟨lt_succ_self index, ?_⟩
      dsimp only
      split_ifs <;> simp
  answers answer hmem := by
    rcases mem_append.1 hmem with hmem | hmem
    · exact lt_succ_of_lt (h.answers answer hmem)
    · rw [mem_singleton.1 hmem]
      exact lt_succ_self index
  ambiguous_iff := by
    have hold := h.ambiguous_iff
    by_cases hseveral : 1 < elements.length
    · -- What is several and not taken is of a strict chain.
      have hstrict : chain.strict := by
        simp [ResolverChain.takes, hseveral] at hnot
        exact hnot.2
      simp [ResolverState.tried, hseveral, hstrict, or_and_right, exists_or]
    · simp only [ResolverState.tried, if_neg fun h : 1 < elements.length ∧ chain.strict =>
        hseveral h.1, mem_append, mem_singleton, or_and_right, exists_or,
        exists_eq_left, hold]
      simp [hseveral]

lemma walkInv_detach (h : ∀ answer ∈ s.reported, answer.2.length ≤ 1) :
    WalkInv chain (s.detach index) := by
  refine ⟨fun _ _ _ hwalk => absurd hwalk (by simp [detach]),
    fun reason attempts hwalk => ?_⟩
  simp only [detach, Walk.ended.injEq, ResolveResult.failure.injEq] at hwalk
  rw [← hwalk.1]
  refine iff_of_false (by simp) ?_
  rintro ⟨answer, hanswer, hlt⟩
  exact absurd (h answer hanswer) (by omega)

lemma walkInv_runMessage {k : ℕ} {m : ResolveMessage} (h : WalkInv chain s)
    (hm : s.sent[k]? = some m) (hran : m.ran = false)
    (hkeeps : s.holdsMatch chain → (resolveCandidate m.strict elements).2 = s.slot) :
    WalkInv chain (s.runMessage k m elements) := by
  have hlt : k < s.sent.length := (List.getElem?_eq_some_iff.1 hm).1
  cases hwalk : s.walk with
  | awaiting index message answer =>
    rw [WalkInv, hwalk] at h
    obtain ⟨hnone, ⟨m', hm', hstrict, hran'⟩, hslot⟩ := h
    cases answer with
    | none =>
      by_cases hown : message = k
      · -- The walk's own message.
        subst hown
        rw [hm] at hm'
        cases hm'
        have hnew : (s.runMessage message m elements).walk =
            .awaiting index message (some elements) := by
          simp [runMessage, hwalk]
        rw [WalkInv, hnew]
        refine ⟨⟨hnone.attempts, hnone.answers, hnone.ambiguous_iff⟩,
          ⟨{ m with ran := true }, getElem?_set_self hlt, hstrict, rfl⟩, ?_⟩
        intro found hfound htakes
        cases hfound
        show (resolveCandidate m.strict elements).2 = _
        rw [hstrict]
        exact slot_of_takes htakes
      · have hnew : (s.runMessage k m elements).walk = .awaiting index message none := by
          simp [runMessage, hwalk, hown]
        rw [WalkInv, hnew]
        refine ⟨⟨hnone.attempts, hnone.answers, hnone.ambiguous_iff⟩, ⟨m', ?_, hstrict, hran'⟩,
          fun _ hnone => absurd hnone (by simp)⟩
        show (s.sent.set k _)[message]? = _
        rw [getElem?_set_ne (Ne.symm hown), hm']
    | some found =>
      have hne : k ≠ message := by
        rintro rfl
        rw [hm] at hm'
        cases hm'
        rw [hran] at hran'
        exact absurd hran' (by simp)
      have hnew : (s.runMessage k m elements).walk = .awaiting index message (some found) := by
        simp [runMessage, hwalk]
      rw [WalkInv, hnew]
      refine ⟨⟨hnone.attempts, hnone.answers, hnone.ambiguous_iff⟩, ⟨m', ?_, hstrict, hran'⟩, ?_⟩
      · show (s.sent.set k _)[message]? = _
        rw [getElem?_set_ne hne, hm']
      · intro found' hfound htakes
        cases hfound
        show (resolveCandidate m.strict elements).2 = _
        rw [hkeeps (by simpa [holdsMatch, hwalk] using htakes)]
        exact hslot found rfl htakes
  | retrieving index matchCount =>
    rw [WalkInv, hwalk] at h
    obtain ⟨before, found, hnone, htried, hreported, htakes, hslot⟩ := h
    have hnew : (s.runMessage k m elements).walk = .retrieving index matchCount := by
      simp [runMessage, hwalk]
    rw [WalkInv, hnew]
    refine ⟨before, found, ⟨hnone.attempts, hnone.answers, hnone.ambiguous_iff⟩, htried, hreported,
      htakes, ?_⟩
    show (resolveCandidate m.strict elements).2 = _
    rw [hkeeps (by simp [holdsMatch, hwalk])]
    exact hslot
  | ended result =>
    rw [WalkInv, hwalk] at h
    have hnew : (s.runMessage k m elements).walk = .ended result := by
      simp [runMessage, hwalk]
    rw [WalkInv, hnew]
    exact h.congr (hnew.trans hwalk.symm) rfl

lemma walkInv_answered {index message : ℕ} (h : WalkInv chain s)
    (hwalk : s.walk = .awaiting index message (some elements)) :
    WalkInv chain (s.answered chain index elements) := by
  rw [WalkInv, hwalk] at h
  obtain ⟨hnone, -, hslot⟩ := h
  unfold ResolverState.answered
  dsimp only
  cases htakes : chain.takes elements.length with
  | true =>
    rw [if_pos rfl]
    refine ⟨s.candidatesTried, elements, ⟨hnone.attempts, ?_, ?_⟩, rfl, ?_, htakes,
      hslot elements rfl htakes⟩
    · simpa [tried] using hnone.answers
    · simpa [tried] using hnone.ambiguous_iff
    · simp [tried]
  | false =>
    rw [if_neg (by simp)]
    exact (hnone.answered elements htakes).tryNext

lemma walkInv_retrieved {index matchCount : ℕ} (h : WalkInv chain s)
    (hwalk : s.walk = .retrieving index matchCount) : WalkInv chain (s.retrieved chain index) := by
  rw [WalkInv, hwalk] at h
  obtain ⟨before, elements, hnone, htried, hreported, htakes, hslot⟩ := h
  obtain ⟨e, hhead, hmem, hone⟩ := takes_spec htakes
  unfold retrieved
  rw [hslot, hhead]
  refine ⟨fun e' i attempts hend => ?_, fun _ _ hend => absurd hend (by simp)⟩
  simp only [Walk.ended.injEq, ResolveResult.success.injEq] at hend
  obtain ⟨rfl, rfl, rfl⟩ := hend
  refine ⟨⟨elements, ?_⟩, fun found hfound => ?_, fun attempt hattempt hlt => ?_⟩
  · show (index, elements) ∈ s.reported
    rw [hreported]
    simp
  · have hfound' : (index, found) ∈ s.reported := hfound
    rw [hreported, mem_append, mem_singleton] at hfound'
    rcases hfound' with hold | hnew
    · exact absurd (hnone.answers _ hold) (Nat.lt_irrefl index)
    · cases hnew
      exact ⟨hmem, hone⟩
  · rw [htried, mem_append, mem_singleton] at hattempt
    rcases hattempt with hold | rfl
    · exact (hnone.attempts attempt hold).2
    · exact absurd hlt (Nat.lt_irrefl index)

/-- **A step that meets the condition keeps the slot to the candidate.** -/
theorem WalkInv.step (h : WalkInv chain s) (a : ResolverAction E) (ha : KeepsSlot chain s a) :
    WalkInv chain (s.step chain a) := by
  have hmissed : ∀ {index message answer}, s.walk = .awaiting index message answer →
      WalkInv chain ((s.tried ⟨index, 0, .error⟩).tryNext chain (index + 1)) := by
    intro index message answer hwalk
    rw [WalkInv, hwalk] at h
    exact (h.1.tried (by simp) (by simp)).tryNext
  cases a with
  | foreign strict =>
    show WalkInv chain { s with sent := s.sent ++ [⟨strict, false⟩] }
    cases hwalk : s.walk with
    | awaiting index message answer =>
      rw [WalkInv, hwalk] at h
      obtain ⟨hnone, ⟨m, hm, hrest⟩, hslot⟩ := h
      refine ⟨⟨hnone.attempts, hnone.answers, hnone.ambiguous_iff⟩, ⟨m, ?_, hrest⟩, hslot⟩
      show (s.sent ++ _)[message]? = _
      rw [getElem?_append_left (List.getElem?_eq_some_iff.1 hm).1, hm]
    | retrieving index matchCount =>
      rw [WalkInv, hwalk] at h
      obtain ⟨before, found, hnone, hrest⟩ := h
      exact ⟨before, found, ⟨hnone.attempts, hnone.answers, hnone.ambiguous_iff⟩, hrest⟩
    | ended result =>
      rw [WalkInv, hwalk] at h
      exact h.congr hwalk.symm rfl
  | run k found visible =>
    simp only [ResolverState.step]
    split
    next m hm =>
      split_ifs with hran
      · exact h
      · have hnot : m.ran = false := by simpa using hran
        exact walkInv_runMessage h hm hnot fun hholds => ha hholds m hm hnot
    next => exact h
  | answer =>
    simp only [ResolverState.step]
    split
    next index message elements hwalk => exact walkInv_answered h hwalk
    next => exact h
  | timeout =>
    simp only [ResolverState.step]
    split
    next index message answer hwalk => exact hmissed hwalk
    next => exact h
  | callFails detached =>
    simp only [ResolverState.step]
    split
    next index message answer hwalk =>
      split_ifs with hdetached
      · exact walkInv_detach (ha hdetached)
      · exact hmissed hwalk
    next => exact h
  | retrieve =>
    simp only [ResolverState.step]
    split
    next index matchCount hwalk => exact walkInv_retrieved h hwalk
    next => exact h
  | retrieveFails detached =>
    obtain ⟨rfl, hfew⟩ := ha
    simp only [ResolverState.step]
    split
    next index matchCount hwalk => exact walkInv_detach hfew
    next => exact h

end

/-! ## Runs -/

lemma WalkInv.resolvedAsMatched {chain : ResolverChain} {s : ResolverState E} (h : WalkInv chain s)
    : ResolvedAsMatched chain.strict s := by
  cases hwalk : s.walk with
  | ended result =>
    rw [WalkInv, hwalk] at h
    exact h
  | awaiting index message answer =>
    exact ⟨fun _ _ _ hend => absurd (hwalk.symm.trans hend) (by simp),
      fun _ _ hend => absurd (hwalk.symm.trans hend) (by simp)⟩
  | retrieving index matchCount =>
    exact ⟨fun _ _ _ hend => absurd (hwalk.symm.trans hend) (by simp),
      fun _ _ hend => absurd (hwalk.symm.trans hend) (by simp)⟩

/-- **In every run whose steps all meet the condition, the result is what the candidates matched.**
The element is one of the candidate that is named, its only one where the chain is strict; no
candidate before it was taken; and several matches are the reason of a failure exactly where some
candidate had them. -/
theorem resolver_resolvedAsMatched (chain : ResolverChain) (slot : Option E)
    (sent : List ResolveMessage) (actions : List (ResolverAction E))
    (h : (resolver chain slot sent).Along (KeepsSlot chain) (resolver chain slot sent).init
      actions) :
    ResolvedAsMatched chain.strict ((resolver chain slot sent).run actions) := by
  refine @WalkInv.resolvedAsMatched _ chain _ ?_
  refine @Machine.invariant_runFrom _ _ (resolver chain slot sent) (KeepsSlot chain)
    (WalkInv chain) (fun s a hs ha => hs.step a ha) _ actions ?_ h
  exact NoneTaken.tryNext ⟨by simp, by simp, by simp⟩

/-- A chain whose first candidate runs out of time, and whose second one resolves. -/
theorem resolver_resolvedAsMatched_example :
    let actions : List (ResolverAction ℕ) :=
      [.timeout, .run 1 [7] fun _ => true, .answer, .retrieve]
    let s := (resolver ⟨2, true⟩ none []).run actions
    s.walk = .ended (.success 7 1 [⟨0, 0, .error⟩, ⟨1, 1, .matched⟩]) ∧
      ResolvedAsMatched true s := by
  refine ⟨by decide, resolver_resolvedAsMatched ⟨2, true⟩ none [] _ ?_⟩
  refine ⟨trivial, fun hholds => ?_, trivial, trivial, trivial⟩
  exact absurd hholds (by simp [ResolverState.holdsMatch, ResolverState.step,
    ResolverState.tryNext, ResolverState.tried, resolver])

/-- **Two runs whose result is not what the candidates matched.** In the first one the message of
the first candidate, given up before, is run between the resolution of the second candidate and the
fetching of its element. In the second one the first candidate is written down as taken, its element
cannot be fetched, and the walk goes on. -/
theorem resolver_lateWrite :
    ¬ ResolvedAsMatched true ((resolver ⟨2, true⟩ (none : Option ℕ) []).run
        [.timeout, .run 1 [7] fun _ => true, .answer, .run 0 [3] fun _ => true, .retrieve]) ∧
      ¬ ResolvedAsMatched true ((resolver ⟨2, true⟩ (none : Option ℕ) []).run
        [.run 0 [3] fun _ => true, .answer, .retrieveFails false, .run 1 [7] fun _ => true, .answer,
          .retrieve]) := by
  refine ⟨fun h => ?_, fun h => ?_⟩
  · have hmatched := (h.success 3 1 [⟨0, 0, .error⟩, ⟨1, 1, .matched⟩] (by decide)).2.1 [7]
      (by decide)
    exact absurd hmatched.1 (by decide)
  · have hbefore := (h.success 7 1
      [⟨0, 1, .matched⟩, ⟨0, 1, .error⟩, ⟨1, 1, .matched⟩] (by decide)).2.2
    exact hbefore ⟨0, 1, .matched⟩ (by decide) (by decide) rfl

end Yantra
