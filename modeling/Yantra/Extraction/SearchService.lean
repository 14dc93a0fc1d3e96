import Yantra.Lib.Machine
import Yantra.Lib.Places
import Mathlib.Data.Int.Notation

/-!
# The search service

One provider, asked by any number of searches. A search waits for a slot, waits until enough time
has passed since the last provider call, and asks the provider, unless the breaker has opened in the
meantime. Every `await` is a point at which other searches, aborts and the clock go on, so each
stretch of code between two of them is one step here.

Time passes by itself. The clock shows it, but it may be set back at any point.

## Main definitions

* `SearchPhase` — where a search stands.
* `SearchService`, `SearchAction`, `searchService` — the object, and what can
  happen to it.

## Main results

* `SlotInv`, `SlotInv.step` — slots and waiters are in order at every point.
-/

namespace Yantra

open List Option

/-! ## The provider -/

structure SearchPoliteness where
  maxConcurrent : ℕ
  minIntervalMs : ℕ

inductive SearchProviderKind where
  | scrape | api
  deriving DecidableEq

def SEARCH_POLITENESS : SearchProviderKind → SearchPoliteness
  | .scrape => ⟨1, 2000⟩
  | .api => ⟨2, 0⟩

inductive BreakerCause where
  | anomalyChallenge | rateLimited
  deriving DecidableEq

inductive ProviderOutcome where
  | results
  | scrapeSearchError (code : Option String)
  | rateLimitError
  | otherError
  deriving DecidableEq

def breakerCause : ProviderOutcome → Option BreakerCause
  | .scrapeSearchError code =>
    if code = some "anomaly-challenge" then some .anomalyChallenge else none
  | .rateLimitError => some .rateLimited
  | _ => none

/-! ## Searches -/

inductive SearchEnd where
  /-- Refused by the open breaker. -/
  | skipped
  /-- Aborted, and the provider was never asked. -/
  | aborted
  /-- With what the provider call ended in. -/
  | settled (outcome : ProviderOutcome)
  deriving DecidableEq

inductive SearchPhase where
  /-- Among the waiters. -/
  | queued
  /-- It has a slot, and goes on from `acquire`. -/
  | granted
  /-- It sleeps until that much time has passed. -/
  | pacing (deadline : ℕ)
  /-- It has slept, and goes on. -/
  | paced
  /-- Its sleep was aborted, and it goes on from there. -/
  | unpaced
  /-- The provider works on it. -/
  | inFlight
  | ended (how : SearchEnd)
  deriving DecidableEq

def SearchPhase.holdsSlot : SearchPhase → Bool
  | .queued | .ended _ => false
  | _ => true

/-- A search that has asked the provider. -/
def SearchPhase.reached : SearchPhase → Bool
  | .inFlight | .ended (.settled _) => true
  | _ => false

/-- A search that the breaker refused. -/
def SearchPhase.isSkipped : SearchPhase → Bool
  | .ended .skipped => true
  | _ => false

/-- A search that was aborted before the provider was asked. -/
def SearchPhase.isAborted : SearchPhase → Bool
  | .ended .aborted => true
  | _ => false

/-- A search that the provider works on. -/
def SearchPhase.isInFlight : SearchPhase → Bool
  | .inFlight => true
  | _ => false

def SearchPhase.isEnded : SearchPhase → Bool
  | .ended _ => true
  | _ => false

/-- A search whose provider call ended in a challenge or a rate limit. -/
def SearchPhase.challenged : SearchPhase → Bool
  | .ended (.settled outcome) => (breakerCause outcome).isSome
  | _ => false

structure SearchCall where
  phase : SearchPhase
  aborted : Bool
  deriving DecidableEq

/-! ## The service -/

structure SearchBreaker where
  isOpen : Bool := false
  openedBy : Option BreakerCause := none
  openedAt : Option ℤ := none
  skipped : ℕ := 0

/-- The service, with the searches asked of it, named by their place, and its surroundings: the
time that has passed, what the clock shows, and when provider calls have started, the last first. -/
structure SearchService where
  breaker : SearchBreaker := {}
  waiters : List ℕ := []
  active : ℕ := 0
  lastStart : Option ℤ := none
  calls : ℕ := 0
  providerCalls : ℕ := 0
  challenges : ℕ := 0
  peak : ℕ := 0
  asked : List SearchCall := []
  elapsed : ℕ := 0
  clock : ℤ
  starts : List ℕ := []

namespace SearchService

def phases (s : SearchService) : List SearchPhase := s.asked.map (·.phase)

/-- The searches that stand in some way. -/
def count (s : SearchService) (q : SearchPhase → Bool) : ℕ := s.phases.countP q

/-- A search goes on to stand elsewhere. -/
def put (s : SearchService) (i : ℕ) (phase : SearchPhase) : SearchService :=
  { s with asked := s.asked.modify i ({ · with phase }) }

/-- The test of `refuseIfOpen`. -/
def refuses (s : SearchService) : Bool := s.breaker.isOpen && s.breaker.openedBy.isSome

def skip (s : SearchService) : SearchService :=
  { s with breaker := { s.breaker with skipped := s.breaker.skipped + 1 } }

def trip (s : SearchService) (cause : BreakerCause) : SearchService :=
  { s with
    challenges := s.challenges + 1
    breaker := if s.breaker.isOpen then s.breaker
      else { s.breaker with isOpen := true, openedBy := some cause, openedAt := some s.clock } }

def take (s : SearchService) : SearchService :=
  { s with active := s.active + 1, peak := max s.peak (s.active + 1) }

def release (s : SearchService) : SearchService :=
  let s := { s with active := s.active - 1 }
  match s.waiters with
  | [] => s
  | next :: rest => { s with waiters := rest }.take.put next .granted

/-- `gatedSearch`, up to its first `await`. -/
def gatedSearch (p : SearchPoliteness) (s : SearchService) (aborted : Bool) : SearchService :=
  let s := { s with calls := s.calls + 1 }
  if s.refuses then { s.skip with asked := s.asked ++ [⟨.ended .skipped, aborted⟩] }
  else if aborted then { s with asked := s.asked ++ [⟨.ended .aborted, aborted⟩] }
  else if s.active < p.maxConcurrent ∧ s.waiters = [] then
    { s.take with asked := s.asked ++ [⟨.granted, aborted⟩] }
  else
    { s with
      asked := s.asked ++ [⟨.queued, aborted⟩], waiters := s.waiters ++ [s.asked.length] }

/-- `gatedSearch`, where the search has waited its turn. -/
def startCall (s : SearchService) (i : ℕ) : SearchService :=
  if s.refuses then (s.skip.put i (.ended .skipped)).release
  else
    { s with
      lastStart := some s.clock
      providerCalls := s.providerCalls + 1
      starts := s.elapsed :: s.starts }.put i .inFlight

/-- `gatedSearch`, from `acquire` to the next `await`; an aborted signal ends the sleep at once. -/
def proceed (p : SearchPoliteness) (s : SearchService) (i : ℕ) (aborted : Bool) : SearchService :=
  match s.lastStart with
  | none => s.startCall i
  | some lastStart =>
    let wait := lastStart + p.minIntervalMs - s.clock
    if 0 < p.minIntervalMs ∧ 0 < wait then
      s.put i (if aborted then .unpaced else .pacing (s.elapsed + wait.toNat))
    else s.startCall i

/-- `gatedSearch`, from the end of the provider call on. -/
def settle (s : SearchService) (i : ℕ) (outcome : ProviderOutcome) : SearchService :=
  let s := match breakerCause outcome with
    | some cause => s.trip cause
    | none => s
  (s.put i (.ended (.settled outcome))).release

def flag (s : SearchService) (i : ℕ) : SearchService :=
  { s with asked := s.asked.modify i ({ · with aborted := true }) }

/-- What an abort does to a search: the waiter is removed, the sleep ends. -/
def abort (s : SearchService) (i : ℕ) (phase : SearchPhase) : SearchService :=
  match phase with
  | .queued => { s.flag i with waiters := s.waiters.erase i }.put i (.ended .aborted)
  | .pacing _ => (s.flag i).put i .unpaced
  | _ => s.flag i

end SearchService

/-- What can happen. -/
inductive SearchAction where
  /-- A search is asked, with a signal that may be aborted already. -/
  | search (aborted : Bool)
  /-- The signal of a search is aborted. -/
  | abort (i : ℕ)
  /-- A search goes on from `acquire`. -/
  | proceed (i : ℕ)
  /-- The timer of a sleep runs out. -/
  | timer (i : ℕ)
  /-- A search goes on from its sleep. -/
  | resume (i : ℕ)
  /-- A provider call ends. -/
  | outcome (i : ℕ) (outcome : ProviderOutcome)
  /-- Time passes. -/
  | tick (d : ℕ)
  | setBack (d : ℕ)

/-- A step; what is not under way does nothing. -/
def SearchService.step (p : SearchPoliteness) (s : SearchService) : SearchAction → SearchService
  | .search aborted => s.gatedSearch p aborted
  | .tick d => { s with elapsed := s.elapsed + d, clock := s.clock + d }
  | .setBack d => { s with clock := s.clock - d }
  | .abort i => match s.asked[i]? with
    | some call => s.abort i call.phase
    | none => s
  | .proceed i => match s.asked[i]? with
    | some ⟨.granted, aborted⟩ => s.proceed p i aborted
    | _ => s
  | .timer i => match s.asked[i]? with
    | some ⟨.pacing deadline, _⟩ => if deadline ≤ s.elapsed then s.put i .paced else s
    | _ => s
  | .resume i => match s.asked[i]? with
    | some ⟨.paced, _⟩ => s.startCall i
    | some ⟨.unpaced, _⟩ => (s.put i (.ended .aborted)).release
    | _ => s
  | .outcome i outcome => match s.asked[i]? with
    | some ⟨.inFlight, _⟩ => s.settle i outcome
    | _ => s

/-- The service of a run, from its construction on. -/
def searchService (p : SearchPoliteness) (clock : ℤ) : Machine SearchService SearchAction where
  init := { clock }
  step := SearchService.step p

/-! ## Counting searches -/

namespace SearchService

variable {s : SearchService} {i : ℕ} {phase phase' : SearchPhase}

@[simp] lemma phases_put (s : SearchService) (i : ℕ) (phase : SearchPhase) :
    (s.put i phase).phases = s.phases.set i phase := by
  refine ext_getElem? fun j => ?_
  simp only [phases, put, getElem?_map, getElem?_modify, getElem?_set,
    length_map]
  by_cases hij : i = j
  · subst hij
    by_cases hlt : i < s.asked.length
    · simp [hlt]
    · simp [hlt]
  · simp [hij]

lemma phases_put_cases {j : ℕ} (h : (s.put i phase).phases[j]? = some phase') :
    i = j ∧ phase' = phase ∨ i ≠ j ∧ s.phases[j]? = some phase' := by
  rw [phases_put, getElem?_set] at h
  split_ifs at h with hij hlt
  · exact .inl ⟨hij, (some.inj h).symm⟩
  · exact .inr ⟨hij, h⟩

@[simp] lemma phases_flag (s : SearchService) (i : ℕ) : (s.flag i).phases = s.phases := by
  refine ext_getElem? fun j => ?_
  simp only [phases, flag, getElem?_map, getElem?_modify]
  cases s.asked[j]? with
  | none => rfl
  | some call =>
    simp only [Option.map_eq_map, map_some]
    split <;> rfl

lemma count_put {q : SearchPhase → Bool} {a b : ℕ} (h : s.phases[i]? = some phase)
    (ha : (q phase).toNat = a) (hb : (q phase').toNat = b) :
    (s.put i phase').count q + a = s.count q + b := by
  have hset := Places.countP_set_add q phase' h
  subst ha hb
  unfold count
  rw [phases_put]
  cases hq : q phase <;> cases hq' : q phase' <;> simpa [hq, hq'] using hset

end SearchService

/-! ## Slots -/

structure SlotInv (p : SearchPoliteness) (handed : ℕ) (s : SearchService) : Prop where
  mem_waiters : ∀ i, i ∈ s.waiters ↔ s.phases[i]? = some .queued
  nodup : s.waiters.Nodup
  active_eq : s.active = s.count SearchPhase.holdsSlot + handed
  active_le : s.active ≤ p.maxConcurrent
  full : s.waiters ≠ [] → s.active = p.maxConcurrent
  peak_le : s.peak ≤ p.maxConcurrent

open SearchService SearchPhase

namespace SlotInv

variable {p : SearchPoliteness} {s : SearchService} {i : ℕ} {phase phase' : SearchPhase}

variable {s' : SearchService}

lemma congr {handed : ℕ} (h : SlotInv p handed s) (hwaiters : s'.waiters = s.waiters)
    (hphases : s'.phases = s.phases) (hactive : s'.active = s.active) (hpeak : s'.peak = s.peak) :
    SlotInv p handed s' where
  mem_waiters j := by rw [hwaiters, hphases, h.mem_waiters]
  nodup := hwaiters ▸ h.nodup
  active_eq := by rw [hactive, h.active_eq, SearchService.count, SearchService.count, hphases]
  active_le := hactive ▸ h.active_le
  full hne := by rw [hactive, h.full (hwaiters ▸ hne)]
  peak_le := hpeak ▸ h.peak_le

lemma put {handed handed' : ℕ} (h : SlotInv p handed s) (hphase : s.phases[i]? = some phase)
    (hslot : phase.holdsSlot) (hto : phase' ≠ .queued)
    (hslots : handed' + phase'.holdsSlot.toNat = handed + 1) :
    SlotInv p handed' (s.put i phase') where
  mem_waiters j := by
    have hfrom : phase ≠ .queued := by
      rintro rfl
      exact nomatch hslot
    show j ∈ s.waiters ↔ _
    rw [h.mem_waiters, phases_put]
    by_cases hij : i = j
    · subst hij
      rw [getElem?_set_self (List.getElem?_eq_some_iff.1 hphase).1, hphase]
      simp [hfrom, hto]
    · rw [getElem?_set_ne hij]
  nodup := h.nodup
  active_eq := by
    have hcount := @SearchService.count_put s i phase phase' holdsSlot 1 _ hphase
      (by simp [hslot]) rfl
    have hactive := h.active_eq
    show s.active = _
    omega
  active_le := h.active_le
  full := h.full
  peak_le := h.peak_le

lemma release (h : SlotInv p 1 s) : SlotInv p 0 s.release := by
  have hactive := h.active_eq
  have hle := h.active_le
  have hpeak := h.peak_le
  unfold SearchService.release
  dsimp only
  split
  next hnone =>
    exact {
      mem_waiters := h.mem_waiters
      nodup := h.nodup
      active_eq := by
        show s.active - 1 = s.count holdsSlot + 0
        omega
      active_le := by
        show s.active - 1 ≤ p.maxConcurrent
        omega
      full := fun hne => absurd hnone hne
      peak_le := hpeak }
  next next rest hwaiters =>
    have hfull := h.full (by simp [hwaiters])
    have hnodup := h.nodup
    rw [hwaiters, nodup_cons] at hnodup
    have hmem : ∀ j, j ∈ s.waiters ↔ j = next ∨ j ∈ rest := by simp [hwaiters]
    have hqueued := (h.mem_waiters next).1 ((hmem next).2 (.inl rfl))
    refine {
      mem_waiters := fun j => ?_
      nodup := hnodup.2
      active_eq := ?_
      active_le := ?_
      full := fun _ => ?_
      peak_le := ?_ }
    · show j ∈ rest ↔ (s.put next .granted).phases[j]? = some .queued
      rw [phases_put]
      by_cases hj : next = j
      · subst hj
        rw [getElem?_set_self (List.getElem?_eq_some_iff.1 hqueued).1]
        simp [hnodup.1]
      · rw [getElem?_set_ne hj, ← h.mem_waiters, hmem]
        simp [Ne.symm hj]
    · have hcount := @SearchService.count_put s next _ .granted holdsSlot 0 1 hqueued
        rfl rfl
      show s.active - 1 + 1 = (s.put next .granted).count holdsSlot + 0
      omega
    · show s.active - 1 + 1 ≤ p.maxConcurrent
      omega
    · show s.active - 1 + 1 = p.maxConcurrent
      omega
    · show max s.peak (s.active - 1 + 1) ≤ p.maxConcurrent
      omega

lemma leave (h : SlotInv p 0 s) (hphase : s.phases[i]? = some phase) (hslot : phase.holdsSlot)
    (how : SearchEnd) :
    SlotInv p 0 (s.put i (.ended how)).release :=
  release (h.put hphase hslot (by simp) rfl)

lemma startCall (h : SlotInv p 0 s) (hphase : s.phases[i]? = some phase) (hslot : phase.holdsSlot) :
    SlotInv p 0 (s.startCall i) := by
  unfold SearchService.startCall
  split_ifs
  · have hskip : SlotInv p 0 s.skip := h.congr rfl rfl rfl rfl
    exact hskip.leave hphase hslot _
  · exact put (h.congr rfl rfl rfl rfl) hphase hslot (by simp) rfl

/-- A search that goes on from `acquire` sleeps, or has waited its turn. -/
lemma proceed (h : SlotInv p 0 s) (hphase : s.phases[i]? = some .granted) (aborted : Bool) :
    SlotInv p 0 (s.proceed p i aborted) := by
  have hstart : SlotInv p 0 (s.startCall i) := h.startCall hphase rfl
  unfold SearchService.proceed
  dsimp only
  split
  · exact hstart
  · split_ifs with hwait habort
    · exact h.put hphase rfl (by simp) rfl
    · exact h.put hphase rfl (by simp) rfl
    · exact hstart

lemma ask (h : SlotInv p 0 s) (hwaiters : s'.waiters = s.waiters)
    (hphases : s'.phases = s.phases ++ [phase]) (hnot : phase ≠ .queued)
    (hactive : s'.active = s.active + phase.holdsSlot.toNat) (hle : s'.active ≤ p.maxConcurrent)
    (hfull : s.waiters ≠ [] → s'.active = s.active) (hpeak : s'.peak ≤ p.maxConcurrent) :
    SlotInv p 0 s' where
  mem_waiters j := by
    rw [hwaiters, h.mem_waiters, hphases]
    rcases Nat.lt_trichotomy j s.phases.length with hj | rfl | hj
    · rw [getElem?_append_left hj]
    · simp [hnot]
    · rw [getElem?_eq_none (by omega), getElem?_eq_none (by simp; omega)]
  nodup := hwaiters ▸ h.nodup
  active_eq := by
    have hold := h.active_eq
    have hone : [phase].countP holdsSlot = phase.holdsSlot.toNat := by
      cases hslot : phase.holdsSlot <;> simp [hslot]
    unfold SearchService.count at hold ⊢
    rw [hactive, hphases, countP_append, hone]
    omega
  active_le := hle
  full hne := by
    rw [hwaiters] at hne
    rw [hfull hne, h.full hne]
  peak_le := hpeak

lemma enqueue (h : SlotInv p 0 s) (hfree : ¬(s.active < p.maxConcurrent ∧ s.waiters = []))
    (hwaiters : s'.waiters = s.waiters ++ [s.phases.length])
    (hphases : s'.phases = s.phases ++ [.queued]) (hactive : s'.active = s.active)
    (hpeak : s'.peak = s.peak) : SlotInv p 0 s' := by
  have hfull : s.active = p.maxConcurrent := by
    by_cases hnone : s.waiters = []
    · have hle := h.active_le
      by_contra hne
      exact hfree ⟨by omega, hnone⟩
    · exact h.full hnone
  refine {
    mem_waiters := fun j => ?_
    nodup := ?_
    active_eq := ?_
    active_le := hactive ▸ h.active_le
    full := fun _ => hactive.trans hfull
    peak_le := hpeak ▸ h.peak_le }
  · rw [hwaiters, mem_append, h.mem_waiters, mem_singleton, hphases]
    rcases Nat.lt_trichotomy j s.phases.length with hj | rfl | hj
    · rw [getElem?_append_left hj]
      simp [Nat.ne_of_lt hj]
    · simp
    · rw [getElem?_eq_none (by omega), getElem?_eq_none (by simp; omega)]
      simp [Nat.ne_of_gt hj]
  · have hfresh : s.phases.length ∉ s.waiters := by
      rw [h.mem_waiters]
      simp
    rw [hwaiters, ← concat_eq_append]
    exact h.nodup.concat hfresh
  · have hold := h.active_eq
    have hone : [queued].countP holdsSlot = 0 := rfl
    unfold SearchService.count at hold ⊢
    rw [hactive, hphases, countP_append, hone]
    omega

lemma abort (h : SlotInv p 0 s) (hphase : s.phases[i]? = some phase) :
    SlotInv p 0 (s.abort i phase) := by
  have hflag : SlotInv p 0 (s.flag i) :=
    h.congr rfl (phases_flag s i) rfl rfl
  have hphase' : (s.flag i).phases[i]? = some phase := by
    rw [phases_flag, hphase]
  cases phase with
  | queued =>
    refine {
      mem_waiters := fun j => ?_
      nodup := h.nodup.erase i
      active_eq := ?_
      active_le := h.active_le
      full := fun hne => h.full fun hnil => hne (by show s.waiters.erase i = []; simp [hnil])
      peak_le := h.peak_le }
    · show j ∈ s.waiters.erase i ↔ ((s.flag i).put i (.ended .aborted)).phases[j]? = _
      rw [h.nodup.mem_erase_iff, phases_put, phases_flag]
      by_cases hij : i = j
      · subst hij
        rw [getElem?_set_self (List.getElem?_eq_some_iff.1 hphase).1]
        simp
      · rw [getElem?_set_ne hij, h.mem_waiters]
        simp [Ne.symm hij]
    · have hcount := @SearchService.count_put (s.flag i) i _ (.ended .aborted)
        holdsSlot 0 0 hphase' rfl rfl
      have hactive := hflag.active_eq
      show s.active = ((s.flag i).put i (.ended .aborted)).count holdsSlot + 0
      rw [show (s.flag i).active = s.active from rfl] at hactive
      omega
  | pacing deadline => exact hflag.put hphase' rfl (by simp) rfl
  | granted => exact hflag
  | paced => exact hflag
  | unpaced => exact hflag
  | inFlight => exact hflag
  | ended how => exact hflag

/-- **Slots and waiters are in order after every step.** -/
theorem step (h : SlotInv p 0 s) (a : SearchAction) : SlotInv p 0 (s.step p a) := by
  have hat : ∀ {i : ℕ} {call : SearchCall}, s.asked[i]? = some call →
      s.phases[i]? = some call.phase := fun hcall => by simp [phases, hcall]
  cases a with
  | search aborted =>
    have hphases : ∀ phase, (s.asked ++ ([⟨phase, aborted⟩] : List SearchCall)).map
        SearchCall.phase = s.phases ++ [phase] := fun phase => by simp [phases]
    simp only [SearchService.step, gatedSearch]
    split_ifs with hrefuses habort hfree
    · exact h.ask rfl (hphases _) (by simp) rfl h.active_le (fun _ => rfl) h.peak_le
    · exact h.ask rfl (hphases _) (by simp) rfl h.active_le (fun _ => rfl) h.peak_le
    · have hlt : s.active < p.maxConcurrent := hfree.1
      have hpeak := h.peak_le
      refine h.ask rfl (hphases _) (by simp) rfl ?_ (fun hne => absurd hfree.2 hne) ?_
      · show s.active + 1 ≤ p.maxConcurrent
        omega
      · show max s.peak (s.active + 1) ≤ p.maxConcurrent
        omega
    · exact h.enqueue hfree (by simp [phases]) (hphases _) rfl rfl
  | tick d => exact h.congr rfl rfl rfl rfl
  | setBack d => exact h.congr rfl rfl rfl rfl
  | abort i =>
    simp only [SearchService.step]
    split
    next call hcall => exact h.abort (hat hcall)
    next => exact h
  | proceed i =>
    simp only [SearchService.step]
    split
    next aborted hcall => exact h.proceed (hat hcall) aborted
    next => exact h
  | timer i =>
    simp only [SearchService.step]
    split
    next deadline _ hcall =>
      split_ifs
      · exact h.put (hat hcall) rfl (by simp) rfl
      · exact h
    next => exact h
  | resume i =>
    simp only [SearchService.step]
    split
    next _ hcall => exact h.startCall (hat hcall) rfl
    next _ hcall => exact h.leave (hat hcall) rfl _
    next => exact h
  | outcome i outcome =>
    simp only [SearchService.step]
    split
    next _ hcall =>
      unfold SearchService.settle
      dsimp only
      split
      next cause hcause =>
        have htrip : SlotInv p 0 (s.trip cause) := h.congr rfl rfl rfl rfl
        exact htrip.leave (hat hcall) rfl _
      next => exact h.leave (hat hcall) rfl _
    next => exact h

end SlotInv

end Yantra
