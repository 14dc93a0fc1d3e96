import Yantra.Extraction.SearchService
import Mathlib.Data.List.Chain

/-!
# Runs of the search service

What the counters and the breaker say, how far apart provider calls start, and what stays as it is:
each is kept by every step. Together with the order of slots and waiters they make the service
polite, whatever searches, aborts and provider calls do.

## Main results

* `searchService_safe` — the service is polite in every run.
-/

namespace Yantra

open List SearchService SearchPhase

/-! ## Books -/

/-- The counters and the breaker say how the searches stand. -/
structure BookInv (s : SearchService) : Prop where
  calls_eq : s.calls = s.phases.length
  providerCalls_eq : s.providerCalls = s.count SearchPhase.reached
  skipped_eq : s.breaker.skipped = s.count SearchPhase.isSkipped
  starts_length : s.starts.length = s.providerCalls
  challenges_eq : s.challenges = s.count SearchPhase.challenged
  isOpen_iff : s.breaker.isOpen = true ↔ 0 < s.challenges
  openedBy_isSome : s.breaker.openedBy.isSome = s.breaker.isOpen

namespace BookInv

variable {p : SearchPoliteness} {s : SearchService} {i : ℕ} {phase phase' : SearchPhase}

variable {s' : SearchService}

lemma congr (h : BookInv s) (hphases : s'.phases = s.phases) (hcalls : s'.calls = s.calls)
    (hprovider : s'.providerCalls = s.providerCalls) (hbreaker : s'.breaker = s.breaker)
    (hstarts : s'.starts = s.starts) (hchallenges : s'.challenges = s.challenges) : BookInv s' where
  calls_eq := by rw [hcalls, hphases, h.calls_eq]
  providerCalls_eq := by
    rw [hprovider, h.providerCalls_eq, SearchService.count, SearchService.count, hphases]
  skipped_eq := by
    rw [hbreaker, h.skipped_eq, SearchService.count, SearchService.count, hphases]
  starts_length := by rw [hstarts, hprovider, h.starts_length]
  challenges_eq := by
    rw [hchallenges, h.challenges_eq, SearchService.count, SearchService.count, hphases]
  isOpen_iff := by rw [hbreaker, hchallenges, h.isOpen_iff]
  openedBy_isSome := by rw [hbreaker, h.openedBy_isSome]

lemma put {a b c : ℕ} (h : BookInv s) (hphase : s.phases[i]? = some phase)
    (hphases : s'.phases = s.phases.set i phase') (hcalls : s'.calls = s.calls)
    (hreached : phase'.reached.toNat = phase.reached.toNat + a)
    (hskipped : phase'.isSkipped.toNat = phase.isSkipped.toNat + b)
    (hchallenged : phase'.challenged.toNat = phase.challenged.toNat + c)
    (hprovider : s'.providerCalls = s.providerCalls + a)
    (hbreaker : s'.breaker.skipped = s.breaker.skipped + b)
    (hchallenges : s'.challenges = s.challenges + c)
    (hstarts : s'.starts.length = s.starts.length + a)
    (hopen : s'.breaker.isOpen ↔ s.breaker.isOpen ∨ 0 < c)
    (hopenedBy : s'.breaker.openedBy.isSome = s'.breaker.isOpen) : BookInv s' := by
  have hcount : ∀ q, s'.count q = (s.put i phase').count q := fun q => by
    rw [SearchService.count, SearchService.count, hphases, phases_put]
  have h₁ := @SearchService.count_put s i _ phase' reached _ _ hphase rfl hreached
  have h₂ := @SearchService.count_put s i _ phase' isSkipped _ _ hphase rfl hskipped
  have h₃ := @SearchService.count_put s i _ phase' challenged _ _ hphase rfl
    hchallenged
  have hold₁ := h.providerCalls_eq
  have hold₂ := h.skipped_eq
  have hold₃ := h.challenges_eq
  have hold₄ := h.starts_length
  exact {
    calls_eq := by rw [hcalls, h.calls_eq, hphases, length_set]
    providerCalls_eq := by
      rw [hcount]
      omega
    skipped_eq := by
      rw [hcount]
      omega
    starts_length := by omega
    challenges_eq := by
      rw [hcount]
      omega
    isOpen_iff := by
      rw [hopen, h.isOpen_iff]
      omega
    openedBy_isSome := hopenedBy }

lemma put_same (h : BookInv s) (hphase : s.phases[i]? = some phase)
    (hreached : phase'.reached = phase.reached) (hskipped : phase'.isSkipped = phase.isSkipped)
    (hchallenged : phase'.challenged = phase.challenged) : BookInv (s.put i phase') :=
  put (a := 0) (b := 0) (c := 0) h hphase (phases_put _ _ _) rfl (by rw [hreached, Nat.add_zero])
    (by rw [hskipped, Nat.add_zero]) (by rw [hchallenged, Nat.add_zero]) rfl rfl rfl rfl
    (by simp [SearchService.put]) h.openedBy_isSome

lemma release (h : BookInv s) (hslots : SlotInv p 1 s) : BookInv s.release := by
  unfold SearchService.release
  dsimp only
  split
  next => exact h.congr rfl rfl rfl rfl rfl rfl
  next next rest hwaiters =>
    have hqueued := (hslots.mem_waiters next).1 (by simp [hwaiters])
    have htake : BookInv { s with active := s.active - 1, waiters := rest }.take :=
      h.congr rfl rfl rfl rfl rfl rfl
    exact htake.put_same hqueued rfl rfl rfl

lemma startCall (h : BookInv s) (hslots : SlotInv p 0 s) (hphase : s.phases[i]? = some phase)
    (hturn : phase = .granted ∨ phase = .paced) : BookInv (s.startCall i) := by
  have hslot : phase.holdsSlot = true := by rcases hturn with rfl | rfl <;> rfl
  have hreached : phase.reached = false := by rcases hturn with rfl | rfl <;> rfl
  have hskipped : phase.isSkipped = false := by rcases hturn with rfl | rfl <;> rfl
  have hchallenged : phase.challenged = false := by rcases hturn with rfl | rfl <;> rfl
  unfold SearchService.startCall
  split_ifs
  · have hskip : SlotInv p 1 (s.skip.put i (.ended .skipped)) :=
      (SlotInv.congr hslots rfl rfl rfl rfl : SlotInv p 0 s.skip).put hphase hslot (by simp) rfl
    refine release (p := p) ?_ hskip
    exact put (a := 0) (b := 1) (c := 0) h hphase (phases_put _ _ _) rfl
      (by rw [hreached]; rfl) (by rw [hskipped]; rfl) (by rw [hchallenged]; rfl) rfl rfl rfl rfl
      (by simp [SearchService.put, skip]) h.openedBy_isSome
  · exact put (a := 1) (b := 0) (c := 0) h hphase (phases_put _ _ _) rfl
      (by rw [hreached]; rfl) (by rw [hskipped]; rfl) (by rw [hchallenged]; rfl) rfl rfl rfl rfl
      (by simp [SearchService.put]) h.openedBy_isSome

/-- A search that goes on from `acquire` sleeps, or has waited its turn. -/
lemma proceed (h : BookInv s) (hslots : SlotInv p 0 s) (hphase : s.phases[i]? = some .granted)
    (aborted : Bool) : BookInv (s.proceed p i aborted) := by
  have hstart : BookInv (s.startCall i) := h.startCall hslots hphase (.inl rfl)
  unfold SearchService.proceed
  dsimp only
  split
  · exact hstart
  · split_ifs with hwait habort
    · exact h.put_same hphase rfl rfl rfl
    · exact h.put_same hphase rfl rfl rfl
    · exact hstart

lemma settle (h : BookInv s) (hslots : SlotInv p 0 s) (hphase : s.phases[i]? = some .inFlight)
    (outcome : ProviderOutcome) : BookInv (s.settle i outcome) := by
  unfold SearchService.settle
  dsimp only
  split
  next cause hcause =>
    have htrip : SlotInv p 1 ((s.trip cause).put i (.ended (.settled outcome))) :=
      (SlotInv.congr hslots rfl rfl rfl rfl : SlotInv p 0 (s.trip cause)).put hphase rfl (by simp)
        rfl
    have hchallenged : (ended (.settled outcome)).challenged := by
      simp [challenged, hcause]
    refine release (p := p) ?_ htrip
    refine put (a := 0) (b := 0) (c := 1) h hphase (phases_put _ _ _) rfl rfl rfl
      (by rw [hchallenged]; rfl) rfl ?_ rfl rfl ?_ ?_
    · simp only [SearchService.put, trip]
      split_ifs <;> rfl
    · simp only [SearchService.put, trip]
      split_ifs <;> simp_all
    · simp only [SearchService.put, trip]
      split_ifs with hopen
      · exact h.openedBy_isSome
      · rfl
  next hcause =>
    have hslots' : SlotInv p 1 (s.put i (.ended (.settled outcome))) :=
      hslots.put hphase rfl (by simp) rfl
    have hchallenged : (ended (.settled outcome)).challenged = false := by
      simp [challenged, hcause]
    exact release (h.put_same hphase rfl rfl hchallenged) hslots'

lemma ask {b : ℕ} (h : BookInv s) (hphases : s'.phases = s.phases ++ [phase])
    (hcalls : s'.calls = s.calls + 1) (hreached : phase.reached = false)
    (hchallenged : phase.challenged = false) (hskipped : phase.isSkipped.toNat = b)
    (hbreaker : s'.breaker = { s.breaker with skipped := s.breaker.skipped + b })
    (hprovider : s'.providerCalls = s.providerCalls) (hstarts : s'.starts = s.starts)
    (hchallenges : s'.challenges = s.challenges) : BookInv s' where
  calls_eq := by rw [hcalls, hphases, h.calls_eq, length_append, length_singleton]
  providerCalls_eq := by
    rw [hprovider, h.providerCalls_eq, SearchService.count, SearchService.count, hphases]
    simp [countP_append, hreached]
  skipped_eq := by
    have hone : [phase].countP isSkipped = b := by
      rw [← hskipped]
      cases hsk : phase.isSkipped <;> simp [hsk]
    rw [hbreaker, SearchService.count, hphases, countP_append, hone, ← SearchService.count,
      ← h.skipped_eq]
  starts_length := by rw [hstarts, hprovider, h.starts_length]
  challenges_eq := by
    rw [hchallenges, h.challenges_eq, SearchService.count, SearchService.count, hphases]
    simp [countP_append, hchallenged]
  isOpen_iff := by rw [hbreaker, hchallenges, ← h.isOpen_iff]
  openedBy_isSome := by rw [hbreaker]; exact h.openedBy_isSome

lemma abort (h : BookInv s) (hphase : s.phases[i]? = some phase) : BookInv (s.abort i phase) := by
  have hflag : BookInv (s.flag i) :=
    h.congr (phases_flag s i) rfl rfl rfl rfl rfl
  have hphase' : (s.flag i).phases[i]? = some phase := by
    rw [phases_flag, hphase]
  cases phase with
  | queued =>
    have hwaiters : BookInv { s.flag i with waiters := s.waiters.erase i } :=
      hflag.congr rfl rfl rfl rfl rfl rfl
    exact hwaiters.put_same hphase' rfl rfl rfl
  | pacing deadline => exact hflag.put_same hphase' rfl rfl rfl
  | granted => exact hflag
  | paced => exact hflag
  | unpaced => exact hflag
  | inFlight => exact hflag
  | ended how => exact hflag

/-- **The counters and the breaker are right after every step.** -/
theorem step (h : BookInv s) (hslots : SlotInv p 0 s) (a : SearchAction) :
    BookInv (s.step p a) := by
  have hat : ∀ {i : ℕ} {call : SearchCall}, s.asked[i]? = some call →
      s.phases[i]? = some call.phase := fun hcall => by simp [phases, hcall]
  cases a with
  | search aborted =>
    have hphases : ∀ phase, (s.asked ++ ([⟨phase, aborted⟩] : List SearchCall)).map
        SearchCall.phase = s.phases ++ [phase] := fun phase => by simp [phases]
    simp only [SearchService.step, gatedSearch]
    split_ifs with hrefuses habort hfree
    · exact ask (b := 1) h (hphases _) rfl rfl rfl rfl rfl rfl rfl rfl
    · exact ask (b := 0) h (hphases _) rfl rfl rfl rfl rfl rfl rfl rfl
    · exact ask (b := 0) h (hphases _) rfl rfl rfl rfl rfl rfl rfl rfl
    · exact ask (b := 0) h (hphases _) rfl rfl rfl rfl rfl rfl rfl rfl
  | tick d => exact h.congr rfl rfl rfl rfl rfl rfl
  | setBack d => exact h.congr rfl rfl rfl rfl rfl rfl
  | abort i =>
    simp only [SearchService.step]
    split
    next call hcall => exact h.abort (hat hcall)
    next => exact h
  | proceed i =>
    simp only [SearchService.step]
    split
    next aborted hcall => exact h.proceed hslots (hat hcall) aborted
    next => exact h
  | timer i =>
    simp only [SearchService.step]
    split
    next deadline _ hcall =>
      split_ifs
      · exact h.put_same (hat hcall) rfl rfl rfl
      · exact h
    next => exact h
  | resume i =>
    simp only [SearchService.step]
    split
    next _ hcall => exact h.startCall hslots (hat hcall) (.inr rfl)
    next _ hcall =>
      have hslots' : SlotInv p 1 (s.put i (.ended .aborted)) :=
        hslots.put (hat hcall) rfl (by simp) rfl
      exact release (h.put_same (hat hcall) rfl rfl rfl) hslots'
    next => exact h
  | outcome i outcome =>
    simp only [SearchService.step]
    split
    next _ hcall => exact h.settle hslots (hat hcall) outcome
    next => exact h

end BookInv

/-! ## Pacing -/

lemma SlotInv.eq_of_holdsSlot {p : SearchPoliteness} {s : SearchService} {i j : ℕ}
    {phase phase' : SearchPhase} (h : SlotInv p 0 s) (hone : p.maxConcurrent = 1)
    (hi : s.phases[i]? = some phase) (hj : s.phases[j]? = some phase') (hslot : phase.holdsSlot)
    (hslot' : phase'.holdsSlot) : i = j := by
  by_contra hne
  have hcount := @SearchService.count_put s i _ (.ended .aborted) holdsSlot 1 0 hi
    (by rw [hslot]; rfl) rfl
  have hj' : (s.put i (.ended .aborted)).phases[j]? = some phase' := by
    rw [phases_put, getElem?_set_ne hne, hj]
  have hpos : 0 < (s.put i (.ended .aborted)).count holdsSlot :=
    countP_pos_iff.2 ⟨phase', mem_of_getElem? hj', hslot'⟩
  have hactive := h.active_eq
  have hle := h.active_le
  omega

/-- Provider calls have kept their distance, and sleeps are long enough for the next one. -/
structure PaceInv (p : SearchPoliteness) (s : SearchService) : Prop where
  chain : s.starts.IsChain fun later earlier => earlier + p.minIntervalMs ≤ later
  last : ∀ t ∈ s.starts.head?, t ≤ s.elapsed ∧
    ∃ a, s.lastStart = some a ∧ s.clock - a ≤ (s.elapsed : ℤ) - t
  pacing : ∀ (i d : ℕ), s.phases[i]? = some (.pacing d) → 0 < p.minIntervalMs ∧
    ∀ t ∈ s.starts.head?, t + p.minIntervalMs ≤ d
  paced : ∀ i : ℕ, s.phases[i]? = some .paced → 0 < p.minIntervalMs ∧
    ∀ t ∈ s.starts.head?, t + p.minIntervalMs ≤ s.elapsed

namespace PaceInv

variable {p : SearchPoliteness} {s : SearchService} {i : ℕ} {phase phase' : SearchPhase}

lemma mono {s' : SearchService} (h : PaceInv p s) (hstarts : s'.starts = s.starts)
    (hlast : s'.lastStart = s.lastStart) (helapsed : s.elapsed ≤ s'.elapsed)
    (hclock : s'.clock - s.clock ≤ (s'.elapsed : ℤ) - s.elapsed)
    (hpacing : ∀ j d : ℕ, s'.phases[j]? = some (.pacing d) → s.phases[j]? = some (.pacing d))
    (hpaced : ∀ j : ℕ, s'.phases[j]? = some .paced → s.phases[j]? = some .paced) : PaceInv p s' where
  chain := hstarts ▸ h.chain
  last t ht := by
    rw [hstarts] at ht
    obtain ⟨hle, a, ha, hdiff⟩ := h.last t ht
    exact ⟨hle.trans helapsed, a, hlast.trans ha, by omega⟩
  pacing j d hj := by
    rw [hstarts]
    exact h.pacing j d (hpacing j d hj)
  paced j hj := by
    rw [hstarts]
    obtain ⟨hpos, hle⟩ := h.paced j (hpaced j hj)
    exact ⟨hpos, fun t ht => (hle t ht).trans helapsed⟩

lemma put (h : PaceInv p s) (hpacing : ∀ d, phase' ≠ .pacing d) (hpaced : phase' ≠ .paced) :
    PaceInv p (s.put i phase') := by
  have hset : ∀ (j : ℕ) (q : SearchPhase), q ≠ phase' → (s.put i phase').phases[j]? = some q →
      s.phases[j]? = some q := by
    intro j q hq hj
    rcases phases_put_cases hj with ⟨-, hnew⟩ | ⟨-, hold⟩
    · exact absurd hnew hq
    · exact hold
  refine h.mono rfl rfl le_rfl (by simp [SearchService.put]) (fun j d => ?_) (fun j => ?_)
  · exact hset j _ (hpacing d).symm
  · exact hset j _ hpaced.symm

lemma release (h : PaceInv p s) : PaceInv p s.release := by
  unfold SearchService.release
  dsimp only
  split
  · exact h.mono rfl rfl le_rfl (by simp) (fun _ _ hj => hj) (fun _ hj => hj)
  next next rest hwaiters =>
    have htake : PaceInv p { s with active := s.active - 1, waiters := rest }.take :=
      h.mono rfl rfl le_rfl (by simp [SearchService.take]) (fun _ _ hj => hj) (fun _ hj => hj)
    exact htake.put (by simp) (by simp)

/-- **A search that has waited its turn keeps the distance.** No other search waits for its turn
now, as there is one slot. -/
lemma startCall (h : PaceInv p s) (hslots : SlotInv p 0 s)
    (hp : p.maxConcurrent = 1 ∨ p.minIntervalMs = 0) (hphase : s.phases[i]? = some phase)
    (hslot : phase.holdsSlot) (hturn : ∀ t ∈ s.starts.head?, t + p.minIntervalMs ≤ s.elapsed) :
    PaceInv p (s.startCall i) := by
  unfold SearchService.startCall
  split_ifs
  · have hskip : PaceInv p s.skip :=
      h.mono rfl rfl le_rfl (by simp [SearchService.skip]) (fun _ _ hj => hj) (fun _ hj => hj)
    exact (hskip.put (by simp) (by simp)).release
  · have halone : ∀ (j : ℕ) (q : SearchPhase), (s.put i .inFlight).phases[j]? = some q →
        q.holdsSlot → 0 < p.minIntervalMs → q = .inFlight := by
      intro j q hj hq hpos
      rcases SearchService.phases_put_cases hj with ⟨-, hnew⟩ | ⟨hij, hold⟩
      · exact hnew
      · have hone := hp.resolve_right (by omega)
        exact absurd (hslots.eq_of_holdsSlot hone hphase hold hslot hq) hij
    have hold : ∀ (j : ℕ) (q : SearchPhase), q ≠ .inFlight →
        (s.put i .inFlight).phases[j]? = some q → s.phases[j]? = some q := by
      intro j q hq hj
      rcases SearchService.phases_put_cases hj with ⟨-, hnew⟩ | ⟨-, hold⟩
      · exact absurd hnew hq
      · exact hold
    exact {
      chain := by
        show (s.elapsed :: s.starts).IsChain _
        rw [isChain_cons]
        exact ⟨hturn, h.chain⟩
      last := by
        rintro t ht
        cases ht
        exact ⟨le_rfl, s.clock, rfl, by simp [SearchService.put]⟩
      pacing := fun j d hj => by
        have hpos := (h.pacing j d (hold j _ (by simp) hj)).1
        exact absurd (halone j _ hj rfl hpos) (by simp)
      paced := fun j hj => by
        have hpos := (h.paced j (hold j _ (by simp) hj)).1
        exact absurd (halone j _ hj rfl hpos) (by simp) }

/-- A search that goes on from `acquire` sleeps long enough, or enough time has passed. -/
lemma proceed (h : PaceInv p s) (hslots : SlotInv p 0 s)
    (hp : p.maxConcurrent = 1 ∨ p.minIntervalMs = 0) (hphase : s.phases[i]? = some .granted)
    (aborted : Bool) : PaceInv p (s.proceed p i aborted) := by
  unfold SearchService.proceed
  dsimp only
  split
  next hnone =>
    refine h.startCall hslots hp hphase rfl fun t ht => ?_
    obtain ⟨-, a, ha, -⟩ := h.last t ht
    rw [hnone] at ha
    exact absurd ha (by simp)
  next lastStart hlastStart =>
    have hdistance : ∀ t ∈ s.starts.head?, t ≤ s.elapsed ∧
        s.clock - lastStart ≤ (s.elapsed : ℤ) - t := by
      intro t ht
      obtain ⟨hle, a, ha, hdiff⟩ := h.last t ht
      rw [hlastStart] at ha
      cases ha
      exact ⟨hle, hdiff⟩
    split_ifs with hwait habort
    · exact h.put (by simp) (by simp)
    · exact {
        chain := h.chain
        last := h.last
        pacing := fun j d hj => by
          rcases phases_put_cases hj with ⟨-, hnew⟩ | ⟨-, hold⟩
          · cases hnew
            refine ⟨hwait.1, fun t ht => ?_⟩
            obtain ⟨hle, hdiff⟩ := hdistance t ht
            omega
          · exact h.pacing j d hold
        paced := fun j hj => by
          rcases phases_put_cases hj with ⟨-, hnew⟩ | ⟨-, hold⟩
          · exact absurd hnew (by simp)
          · exact h.paced j hold }
    · refine h.startCall hslots hp hphase rfl fun t ht => ?_
      obtain ⟨hle, hdiff⟩ := hdistance t ht
      by_cases hpos : 0 < p.minIntervalMs
      · have hshort : ¬ 0 < lastStart + p.minIntervalMs - s.clock := fun h => hwait ⟨hpos, h⟩
        omega
      · omega

/-- **Provider calls keep their distance in every step.** -/
theorem step (h : PaceInv p s) (hslots : SlotInv p 0 s)
    (hp : p.maxConcurrent = 1 ∨ p.minIntervalMs = 0) (a : SearchAction) :
    PaceInv p (s.step p a) := by
  have hat : ∀ {i : ℕ} {call : SearchCall}, s.asked[i]? = some call →
      s.phases[i]? = some call.phase := fun hcall => by simp [phases, hcall]
  cases a with
  | search aborted =>
    -- A new search does not wait for its turn yet.
    have hask : ∀ {s' : SearchService} {phase : SearchPhase}, s'.starts = s.starts →
        s'.lastStart = s.lastStart → s'.elapsed = s.elapsed → s'.clock = s.clock →
        s'.asked = s.asked ++ [⟨phase, aborted⟩] → (∀ d, phase ≠ .pacing d) → phase ≠ .paced →
        PaceInv p s' := by
      intro s' phase hstarts hlast helapsed hclock hasked hpacing hpaced
      have hold : ∀ (j : ℕ) (q : SearchPhase), q ≠ phase → s'.phases[j]? = some q →
          s.phases[j]? = some q := by
        intro j q hq hj
        have hphases : s'.phases = s.phases ++ [phase] := by simp [phases, hasked]
        rw [hphases] at hj
        rcases Nat.lt_trichotomy j s.phases.length with hlt | rfl | hgt
        · rwa [getElem?_append_left hlt] at hj
        · rw [getElem?_concat_length] at hj
          exact absurd (Option.some.inj hj).symm hq
        · rw [getElem?_eq_none (by simp; omega)] at hj
          exact absurd hj (by simp)
      refine h.mono hstarts hlast helapsed.ge (by rw [hclock, helapsed]; simp) (fun j d => ?_)
        (fun j => ?_)
      · exact hold j _ (hpacing d).symm
      · exact hold j _ hpaced.symm
    simp only [SearchService.step, gatedSearch]
    split_ifs with hrefuses habort hfree
    · exact hask rfl rfl rfl rfl rfl (by simp) (by simp)
    · exact hask rfl rfl rfl rfl rfl (by simp) (by simp)
    · exact hask rfl rfl rfl rfl rfl (by simp) (by simp)
    · exact hask rfl rfl rfl rfl rfl (by simp) (by simp)
  | tick d =>
    refine h.mono rfl rfl (Nat.le_add_right _ d) ?_ (fun _ _ hj => hj) (fun _ hj => hj)
    show s.clock + d - s.clock ≤ ((s.elapsed + d : ℕ) : ℤ) - s.elapsed
    omega
  | setBack d =>
    refine h.mono rfl rfl le_rfl ?_ (fun _ _ hj => hj) (fun _ hj => hj)
    show s.clock - d - s.clock ≤ (s.elapsed : ℤ) - s.elapsed
    omega
  | abort i =>
    simp only [SearchService.step]
    split
    next call hcall =>
      have hflag : PaceInv p (s.flag i) :=
        h.mono rfl rfl le_rfl (by simp [flag])
          (fun j d hj => by rwa [phases_flag] at hj)
          (fun j hj => by rwa [phases_flag] at hj)
      unfold SearchService.abort
      split
      · have hwaiters : PaceInv p { s.flag i with waiters := s.waiters.erase i } :=
          hflag.mono rfl rfl le_rfl (by simp) (fun _ _ hj => hj) (fun _ hj => hj)
        exact hwaiters.put (by simp) (by simp)
      · exact hflag.put (by simp) (by simp)
      · exact hflag
    next => exact h
  | proceed i =>
    simp only [SearchService.step]
    split
    next aborted hcall => exact h.proceed hslots hp (hat hcall) aborted
    next => exact h
  | timer i =>
    simp only [SearchService.step]
    split
    next deadline _ hcall =>
      split_ifs with hover
      · have hpacing := h.pacing i deadline (hat hcall)
        exact {
          chain := h.chain
          last := h.last
          pacing := fun j d hj => by
            rcases phases_put_cases hj with ⟨-, hnew⟩ | ⟨-, hold⟩
            · exact absurd hnew (by simp)
            · exact h.pacing j d hold
          paced := fun j _ => ⟨hpacing.1, fun t ht => (hpacing.2 t ht).trans hover⟩ }
      · exact h
    next => exact h
  | resume i =>
    simp only [SearchService.step]
    split
    next _ hcall =>
      exact h.startCall hslots hp (hat hcall) rfl (h.paced i (hat hcall)).2
    next _ hcall => exact (h.put (by simp) (by simp)).release
    next => exact h
  | outcome i outcome =>
    simp only [SearchService.step]
    split
    next _ hcall =>
      unfold SearchService.settle
      dsimp only
      split
      next cause hcause =>
        have htrip : PaceInv p (s.trip cause) :=
          h.mono rfl rfl le_rfl (by simp [trip]) (fun _ _ hj => hj)
            (fun _ hj => hj)
        exact (htrip.put (by simp) (by simp)).release
      next => exact (h.put (by simp) (by simp)).release
    next => exact h

end PaceInv

/-! ## What stays -/

namespace SearchService

variable {p : SearchPoliteness} {s : SearchService} {i : ℕ}

lemma release_eq (s : SearchService) :
    s.release.breaker = s.breaker ∧ s.release.starts = s.starts := by
  unfold release
  dsimp only
  split <;> exact ⟨rfl, rfl⟩

lemma startCall_refused (h : s.refuses) :
    (s.startCall i).refuses ∧ (s.startCall i).starts = s.starts := by
  obtain ⟨hbreaker, hstarts⟩ := release_eq (s.skip.put i (.ended .skipped))
  rw [startCall, if_pos h, refuses, hbreaker, hstarts]
  exact ⟨h, rfl⟩

/-- **The breaker stays open, and no provider call starts.** -/
lemma step_refuses (h : s.refuses) (a : SearchAction) :
    (s.step p a).refuses ∧ (s.step p a).starts = s.starts := by
  have hgiven : ∀ s' : SearchService, s'.refuses → s'.starts = s.starts →
      s'.release.refuses ∧ s'.release.starts = s.starts := by
    intro s' hrefuses hstarts
    obtain ⟨hbreaker, hsame⟩ := release_eq s'
    rw [refuses, hbreaker, hsame]
    exact ⟨hrefuses, hstarts⟩
  cases a with
  | search aborted =>
    have hcalls : ({ s with calls := s.calls + 1 } : SearchService).refuses := h
    simp only [step, gatedSearch]
    rw [if_pos hcalls]
    exact ⟨h, rfl⟩
  | tick d => exact ⟨h, rfl⟩
  | setBack d => exact ⟨h, rfl⟩
  | abort i =>
    simp only [step]
    split
    · unfold abort
      split <;> exact ⟨h, rfl⟩
    · exact ⟨h, rfl⟩
  | proceed i =>
    simp only [step]
    split
    · unfold proceed
      dsimp only
      split
      · exact startCall_refused h
      · split
        · exact ⟨h, rfl⟩
        · exact startCall_refused h
    · exact ⟨h, rfl⟩
  | timer i =>
    simp only [step]
    split
    · split <;> exact ⟨h, rfl⟩
    · exact ⟨h, rfl⟩
  | resume i =>
    simp only [step]
    split
    · exact startCall_refused h
    · exact hgiven _ h rfl
    · exact ⟨h, rfl⟩
  | outcome i outcome =>
    simp only [step]
    split
    · unfold settle
      dsimp only
      split
      next cause _ =>
        have hopen : s.breaker.isOpen := by
          rw [refuses, Bool.and_eq_true] at h
          exact h.1
        have htrip : (s.trip cause).breaker = s.breaker := if_pos hopen
        refine hgiven _ ?_ rfl
        show ((s.trip cause).breaker.isOpen && (s.trip cause).breaker.openedBy.isSome) = true
        rw [htrip]
        exact h
      next => exact hgiven _ h rfl
    · exact ⟨h, rfl⟩

variable {how : SearchEnd}

lemma release_ended {handed : ℕ} (hslots : SlotInv p handed s)
    (h : s.phases[i]? = some (.ended how)) : s.release.phases[i]? = some (.ended how) := by
  unfold release
  dsimp only
  split
  · exact h
  next next rest hwaiters =>
    have hqueued := (hslots.mem_waiters next).1 (by simp [hwaiters])
    have hne : next ≠ i := by
      rintro rfl
      rw [h] at hqueued
      exact absurd hqueued (by simp)
    rw [phases_put, getElem?_set_ne hne]
    exact h

/-- **What has ended has ended.** -/
lemma step_ended (hslots : SlotInv p 0 s) (h : s.phases[i]? = some (.ended how)) (a : SearchAction)
    :
    (s.step p a).phases[i]? = some (.ended how) := by
  -- Another search goes on, and may hand its slot on.
  have hput : ∀ {j : ℕ} {phase : SearchPhase} (s' : SearchService) (phase' : SearchPhase),
      s'.phases = s.phases → s.phases[j]? = some phase → phase.isEnded = false →
      (s'.put j phase').phases[i]? = some (.ended how) := by
    intro j phase s' phase' hphases hj hphase
    have hne : j ≠ i := by
      rintro rfl
      rw [h] at hj
      cases hj
      exact absurd hphase (by simp [isEnded])
    rw [phases_put, getElem?_set_ne hne, hphases, h]
  have hstart : ∀ {j : ℕ} {phase : SearchPhase}, s.phases[j]? = some phase →
      phase.holdsSlot → phase.isEnded = false →
      (s.startCall j).phases[i]? = some (.ended how) := by
    intro j phase hj hslot hphase
    unfold startCall
    split
    · have hskip : SlotInv p 1 (s.skip.put j (.ended .skipped)) :=
        (SlotInv.congr hslots rfl rfl rfl rfl : SlotInv p 0 s.skip).put hj hslot (by simp) rfl
      exact release_ended hskip (hput s.skip _ rfl hj hphase)
    · exact hput _ _ rfl hj hphase
  have hat : ∀ {i : ℕ} {call : SearchCall}, s.asked[i]? = some call →
      s.phases[i]? = some call.phase := fun hcall => by simp [phases, hcall]
  cases a with
  | search aborted =>
    have hlt : i < s.phases.length := (List.getElem?_eq_some_iff.1 h).1
    have hask : ∀ (s' : SearchService) (phase : SearchPhase),
        s'.asked = s.asked ++ [⟨phase, aborted⟩] → s'.phases[i]? = some (.ended how) := by
      intro s' phase hasked
      have hphases : s'.phases = s.phases ++ [phase] := by simp [phases, hasked]
      rw [hphases, getElem?_append_left hlt, h]
    simp only [step, gatedSearch]
    split_ifs
    · exact hask _ _ rfl
    · exact hask _ _ rfl
    · exact hask _ _ rfl
    · exact hask _ _ rfl
  | tick d => exact h
  | setBack d => exact h
  | abort j =>
    simp only [step]
    split
    next call hcall =>
      have hflag : (s.flag j).phases = s.phases := phases_flag s j
      have hj := hat hcall
      unfold abort
      split
      next hqueued => exact hput _ _ hflag (hqueued ▸ hj) rfl
      next deadline hpacing => exact hput _ _ hflag (hpacing ▸ hj) rfl
      next => rw [hflag, h]
    next => exact h
  | proceed j =>
    simp only [step]
    split
    next aborted hcall =>
      unfold proceed
      dsimp only
      split
      · exact hstart (hat hcall) rfl rfl
      · split
        · exact hput s _ rfl (hat hcall) rfl
        · exact hstart (hat hcall) rfl rfl
    next => exact h
  | timer j =>
    simp only [step]
    split
    next deadline _ hcall =>
      split
      · exact hput s _ rfl (hat hcall) rfl
      · exact h
    next => exact h
  | resume j =>
    simp only [step]
    split
    next _ hcall => exact hstart (hat hcall) rfl rfl
    next _ hcall =>
      exact release_ended (p := p) (hslots.put (hat hcall) rfl (by simp) rfl : SlotInv p 1 _)
        (hput s _ rfl (hat hcall) rfl)
    next => exact h
  | outcome j outcome =>
    simp only [step]
    split
    next _ hcall =>
      unfold settle
      dsimp only
      split
      next cause _ =>
        have htrip : SlotInv p 1 ((s.trip cause).put j (.ended (.settled outcome))) :=
          (SlotInv.congr hslots rfl rfl rfl rfl : SlotInv p 0 (s.trip cause)).put (hat hcall) rfl
            (by simp) rfl
        exact release_ended htrip (hput _ _ rfl (hat hcall) rfl)
      next =>
        exact release_ended (p := p) (hslots.put (hat hcall) rfl (by simp) rfl : SlotInv p 1 _)
          (hput s _ rfl (hat hcall) rfl)
    next => exact h

lemma count_eq_length (hended : ∀ phase ∈ s.phases, phase.isEnded) :
    s.count reached + s.count isSkipped +
      s.count isAborted = s.phases.length ∧ s.count holdsSlot = 0 := by
  unfold count
  generalize s.phases = phases at hended ⊢
  induction phases with
  | nil => exact ⟨rfl, rfl⟩
  | cons phase phases ih =>
    obtain ⟨hphase, hphases⟩ := forall_mem_cons.1 hended
    obtain ⟨hsum, hnone⟩ := ih hphases
    have hone : phase.reached.toNat + phase.isSkipped.toNat + phase.isAborted.toNat = 1 ∧
        phase.holdsSlot = false := by
      cases phase with
      | ended how => cases how <;> exact ⟨rfl, rfl⟩
      | _ => exact absurd hphase (by simp [isEnded])
    have hcons : ∀ q : SearchPhase → Bool,
        (phase :: phases).countP q = phases.countP q + (q phase).toNat := by
      intro q
      cases hq : q phase <;> simp [hq]
    rw [hcons, hcons, hcons, hcons, hone.2, length_cons]
    refine ⟨by omega, ?_⟩
    rw [hnone]
    rfl

end SearchService

/-! ## Runs -/

lemma politeness_spec (kind : SearchProviderKind) :
    (SEARCH_POLITENESS kind).maxConcurrent = 1 ∨ (SEARCH_POLITENESS kind).minIntervalMs = 0 := by
  cases kind
  · exact .inl rfl
  · exact .inr rfl

lemma searchService_inv (kind : SearchProviderKind) (clock : ℤ) (actions : List SearchAction) :
    let s := (searchService (SEARCH_POLITENESS kind) clock).run actions
    SlotInv (SEARCH_POLITENESS kind) 0 s ∧ BookInv s ∧ PaceInv (SEARCH_POLITENESS kind) s := by
  refine @Machine.invariant_runFrom' _ _ (searchService (SEARCH_POLITENESS kind) clock)
    (fun s => SlotInv (SEARCH_POLITENESS kind) 0 s ∧ BookInv s ∧
      PaceInv (SEARCH_POLITENESS kind) s) (fun s a h => ?_) _ ⟨?_, ?_, ?_⟩ actions
  · obtain ⟨hslots, hbooks, hpace⟩ := h
    exact ⟨hslots.step a, hbooks.step hslots a, hpace.step hslots (politeness_spec kind) a⟩
  · exact ⟨by simp [searchService, phases], nodup_nil, rfl, Nat.zero_le _,
      fun h => absurd rfl h, Nat.zero_le _⟩
  · exact ⟨rfl, rfl, rfl, rfl, rfl, by simp [searchService], rfl⟩
  · exact ⟨List.IsChain.nil, by simp [searchService], by simp [searchService, phases],
      by simp [searchService, phases]⟩

/-- **The service is polite in every run.** No more provider calls are in flight than the provider
may be asked at once; they keep their distance; none starts once one has ended in a challenge or a
rate limit; a search that is aborted among the waiters ends there, without a provider call, and
leaves the slots as they are; every slot is a search's, and searches wait only where there is no
slot; and where every search has ended, the counters tell how. -/
theorem searchService_safe (kind : SearchProviderKind) (clock : ℤ) (actions : List SearchAction) :
    let p := SEARCH_POLITENESS kind
    let M := searchService p clock
    let s := M.run actions
    s.count SearchPhase.isInFlight ≤ p.maxConcurrent ∧
      (s.starts.length = s.providerCalls ∧
        s.starts.IsChain fun later earlier => earlier + p.minIntervalMs ≤ later) ∧
      (0 < s.count SearchPhase.challenged →
        ∀ later, (M.runFrom s later).starts = s.starts) ∧
      (∀ i : ℕ, s.phases[i]? = some .queued →
        (M.step s (.abort i)).active = s.active ∧ (M.step s (.abort i)).starts = s.starts ∧
          ∀ later, (M.runFrom s (.abort i :: later)).phases[i]? = some (.ended .aborted)) ∧
      (s.active = s.count SearchPhase.holdsSlot ∧
        (s.waiters ≠ [] → s.active = p.maxConcurrent)) ∧
      ((∀ phase ∈ s.phases, phase.isEnded = true) →
        s.active = 0 ∧ s.waiters = [] ∧
          s.calls = s.providerCalls + s.breaker.skipped + s.count SearchPhase.isAborted) := by
  intro p M s
  obtain ⟨hslots, hbooks, hpace⟩ : SlotInv p 0 s ∧ BookInv s ∧ PaceInv p s :=
    searchService_inv kind clock actions
  refine ⟨?_, ⟨hbooks.starts_length, hpace.chain⟩, ?_, ?_, ⟨hslots.active_eq, hslots.full⟩, ?_⟩
  · -- Whatever is in flight has a slot.
    have hle : s.count SearchPhase.isInFlight ≤ s.count SearchPhase.holdsSlot :=
      List.countP_mono_left fun phase _ hphase => by
        cases phase <;> first | rfl | exact absurd hphase (by simp [SearchPhase.isInFlight])
    have hactive := hslots.active_eq
    have hmax := hslots.active_le
    omega
  · intro hchallenged later
    have hopen : s.breaker.isOpen = true := by
      rw [hbooks.isOpen_iff, hbooks.challenges_eq]
      exact hchallenged
    have hrefuses : s.refuses = true := by
      rw [SearchService.refuses, hbooks.openedBy_isSome, hopen]
      rfl
    have hrun := @Machine.invariant_runFrom' _ _ M
      (fun s' => s'.refuses = true ∧ s'.starts = s.starts)
      (fun s' a h => by
        obtain ⟨hr, hs⟩ := SearchService.step_refuses (p := p) h.1 a
        exact ⟨hr, hs.trans h.2⟩) s ⟨hrefuses, rfl⟩ later
    exact hrun.2
  · intro i hqueued
    have hlt : i < s.asked.length := by
      have hlen := (List.getElem?_eq_some_iff.1 hqueued).1
      simpa [SearchService.phases] using hlen
    have hcall : s.asked[i]? = some s.asked[i] := List.getElem?_eq_getElem hlt
    have hphase : s.asked[i].phase = .queued := by
      have hat : s.phases[i]? = some s.asked[i].phase := by simp [SearchService.phases, hcall]
      rw [hqueued] at hat
      exact (Option.some.inj hat).symm
    have hstep : M.step s (.abort i) = s.abort i .queued := by
      show s.step p (.abort i) = _
      simp only [SearchService.step, hcall, hphase]
    have hended : (M.step s (.abort i)).phases[i]? = some (.ended .aborted) := by
      rw [hstep]
      show (({ s.flag i with waiters := s.waiters.erase i } : SearchService).put i
        (.ended .aborted)).phases[i]? = _
      have hflag : ({ s.flag i with waiters := s.waiters.erase i } : SearchService).phases =
          s.phases := SearchService.phases_flag s i
      rw [SearchService.phases_put, hflag,
        List.getElem?_set_self (List.getElem?_eq_some_iff.1 hqueued).1]
    refine ⟨by rw [hstep]; rfl, by rw [hstep]; rfl, fun later => ?_⟩
    have hrun := @Machine.invariant_runFrom' _ _ M
      (fun s' => SlotInv p 0 s' ∧ s'.phases[i]? = some (.ended .aborted))
      (fun s' a h => ⟨h.1.step a, SearchService.step_ended h.1 h.2 a⟩)
      (M.step s (.abort i)) ⟨hslots.step (.abort i), hended⟩ later
    exact hrun.2
  · intro hended
    obtain ⟨hsum, hnone⟩ := SearchService.count_eq_length hended
    have hactive := hslots.active_eq
    have hprovider := hbooks.providerCalls_eq
    have hskipped := hbooks.skipped_eq
    have hcalls := hbooks.calls_eq
    refine ⟨by omega, ?_, by omega⟩
    refine List.eq_nil_iff_forall_not_mem.2 fun i hi => ?_
    have hqueued := (hslots.mem_waiters i).1 hi
    exact absurd (hended _ (List.mem_of_getElem? hqueued)) (by decide)

end Yantra
