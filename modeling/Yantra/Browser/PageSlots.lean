import Mathlib.Data.List.Count
import Yantra.Browser.PagePool
import Yantra.Lib.Fifo

/-!
# The slots of the page pool

A slot is taken where fewer than the bound are held, or handed on by a use that returns its own, so
the bound holds whatever happens. A use that waits is in the queue, and the queue is in the order in
which slots were asked for. None of this depends on the browser.

## Main definitions

* `PageUse.Fits` — what a use took and returned fits where it has got to.
* `PoolSlotInv` — the invariant of the slots.

## Main results

* `PoolSlotInv.step` — every step keeps it.
-/

namespace Yantra

open List Option Bool PagePool PageUseStage PageUse

namespace PagePool

variable (s : PagePool)

def waits (u : ℕ) : Bool := s.uses[u]?.any fun use => decide (use.stage = .waiting)

/-- A use has got a slot. -/
def served (u : ℕ) : Bool := s.uses[u]?.any fun use => decide (use.taken ≠ 0)

end PagePool

/-- What a use took and returned fits where it has got to, and a cancelled use neither waits nor is
on its way into its callback nor in it. -/
structure PageUse.Fits (use : PageUse) : Prop where
  early : use.stage = .starting ∨ use.stage = .waiting → use.taken = 0 ∧ use.returned = 0
  holds : use.stage.holds = true → use.taken = 1 ∧ use.returned = 0
  ended : use.stage = .ended → use.returned = use.taken ∧ use.taken ≤ 1
  cancelled : use.cancelled = true →
    use.stage ≠ .waiting ∧ use.stage ≠ .acquired ∧ use.stage ≠ .inCallback

structure PoolSlotInv (s : PagePool) : Prop where
  active : s.active = s.uses.countP fun use => use.stage.holds
  bound : s.active ≤ s.maxConcurrentPages
  fits : ∀ use ∈ s.uses, use.Fits
  fifo : Fifo s.arrivals s.waiters s.waits s.served
  arrived : ∀ u ∈ s.arrivals, ∃ use, s.uses[u]? = some use ∧ use.stage ≠ .starting

/-! ## A use changes -/

/-- The use `u` changes from `use` to `use'`. -/
structure UseSet (s s' : PagePool) (u : ℕ) (use use' : PageUse) : Prop where
  before : s.uses[u]? = some use
  after : s'.uses = s.uses.set u use'
  maxPages : s'.maxConcurrentPages = s.maxConcurrentPages

namespace UseSet

variable {s s' : PagePool} {u : ℕ} {use use' : PageUse} (h : UseSet s s' u use use')
include h

lemma getElem_self : s'.uses[u]? = some use' := by
  obtain ⟨hu, -⟩ := List.getElem?_eq_some_iff.1 h.before
  rw [h.after, getElem?_set_self hu]

variable {v : ℕ}

lemma getElem_ne (hv : v ≠ u) : s'.uses[v]? = s.uses[v]? := by
  rw [h.after, getElem?_set_ne hv.symm]

lemma waits_self : s'.waits u = decide (use'.stage = .waiting) := by
  rw [waits, h.getElem_self, any_some]

lemma waits_ne (hv : v ≠ u) : s'.waits v = s.waits v := by
  rw [waits, h.getElem_ne hv, waits]

lemma served_self : s'.served u = decide (use'.taken ≠ 0) := by
  rw [served, h.getElem_self, any_some]

lemma served_ne (hv : v ≠ u) : s'.served v = s.served v := by
  rw [served, h.getElem_ne hv, served]

lemma waits_before : s.waits u = decide (use.stage = .waiting) := by
  rw [waits, h.before, any_some]

lemma served_before : s.served u = decide (use.taken ≠ 0) := by
  rw [served, h.before, any_some]

lemma waits_of_not_waiting (hwaits : use.stage ≠ .waiting) (hwaits' : use'.stage ≠ .waiting) :
    s'.waits v = s.waits v := by
  by_cases hvu : v = u
  · simp [hvu, h.waits_self, h.waits_before, hwaits, hwaits']
  · exact h.waits_ne hvu

lemma served_of_taken (htaken : use'.taken = use.taken) : s'.served v = s.served v := by
  by_cases hvu : v = u
  · simp [hvu, h.served_self, h.served_before, htaken]
  · exact h.served_ne hvu

lemma mem : use ∈ s.uses := mem_of_getElem? h.before

lemma countP (b b' : Bool) (hb : use.stage.holds = b) (hb' : use'.stage.holds = b') :
    s'.uses.countP (fun use => use.stage.holds) + b.toNat =
      s.uses.countP (fun use => use.stage.holds) + b'.toNat := by
  obtain ⟨hu, hget⟩ := List.getElem?_eq_some_iff.1 h.before
  have hpos : b = true → 0 < s.uses.countP fun use => use.stage.holds := fun hholds =>
    countP_pos_iff.2 ⟨use, h.mem, hb.trans hholds⟩
  rw [h.after, countP_set hu, hget, hb, hb']
  cases b with
  | false => cases b' <;> rfl
  | true =>
    have hpos := hpos rfl
    cases b'
    · simp only [if_true, toNat_true, toNat_false, false_eq_true, if_false]
      omega
    · simp only [if_true, toNat_true]
      omega

lemma fits (hfits : ∀ use ∈ s.uses, use.Fits) (hnew : use'.Fits) : ∀ use ∈ s'.uses, use.Fits := by
  intro other hother
  rw [h.after] at hother
  rcases mem_or_eq_of_mem_set hother with hother | rfl
  · exact hfits other hother
  · exact hnew

lemma arrived (harrived : ∀ v ∈ s.arrivals, ∃ use, s.uses[v]? = some use ∧ use.stage ≠ .starting)
    (hstage : use'.stage ≠ .starting) :
    ∀ v ∈ s.arrivals, ∃ use, s'.uses[v]? = some use ∧ use.stage ≠ .starting := by
  intro v hv
  by_cases hvu : v = u
  · exact ⟨use', hvu ▸ h.getElem_self, hstage⟩
  · rw [h.getElem_ne hvu]
    exact harrived v hv

end UseSet

namespace PoolSlotInv

variable {s s' : PagePool}

lemma congr (h : PoolSlotInv s) (hmax : s'.maxConcurrentPages = s.maxConcurrentPages)
    (hactive : s'.active = s.active) (hwaiters : s'.waiters = s.waiters) (huses : s'.uses = s.uses)
    (harrivals : s'.arrivals = s.arrivals) : PoolSlotInv s' where
  active := by rw [hactive, huses, h.active]
  bound := by rw [hactive, hmax]; exact h.bound
  fits := by rw [huses]; exact h.fits
  fifo := by
    unfold waits served
    rw [huses, hwaiters, harrivals]
    exact h.fifo
  arrived := by rw [harrivals, huses]; exact h.arrived

variable {u : ℕ} {use use' : PageUse}

lemma move (h : PoolSlotInv s) (hset : UseSet s s' u use use') (hactive : s'.active = s.active)
    (hwaiters : s'.waiters = s.waiters) (harrivals : s'.arrivals = s.arrivals)
    (hholds : use'.stage.holds = use.stage.holds) (hfits : use'.Fits)
    (hwaits : use.stage ≠ .waiting) (hwaits' : use'.stage ≠ .waiting)
    (hstarts : use'.stage = .starting → use.stage = .starting) (htaken : use'.taken = use.taken) :
    PoolSlotInv s' where
  active := by
    have hcount := hset.countP _ _ rfl hholds
    rw [hactive, h.active]
    omega
  bound := by rw [hactive, hset.maxPages]; exact h.bound
  fits := hset.fits h.fits hfits
  fifo := by
    rw [hwaiters, harrivals]
    exact h.fifo.congr (fun _ _ => hset.waits_of_not_waiting hwaits hwaits')
      fun _ _ => hset.served_of_taken htaken
  arrived := by
    rw [harrivals]
    intro v hv
    by_cases hvu : v = u
    · obtain ⟨other, hother, hstage⟩ := h.arrived v hv
      rw [hvu, hset.before, some.injEq] at hother
      subst hother
      exact ⟨use', hvu ▸ hset.getElem_self, fun hs => hstage (hstarts hs)⟩
    · rw [hset.getElem_ne hvu]
      exact h.arrived v hv

lemma leave (h : PoolSlotInv s) (hset : UseSet s s' u use use') (hactive : s'.active = s.active)
    (hwaiters : s'.waiters = s.waiters.erase u) (harrivals : s'.arrivals = s.arrivals)
    (hstage : use.stage = .waiting) (hstage' : use'.stage = .ended)
    (htaken : use'.taken = use.taken) (hreturned : use'.returned = use.returned) :
    PoolSlotInv s' where
  active := by
    have hcount := hset.countP false false (hstage ▸ rfl) (hstage' ▸ rfl)
    rw [hactive, h.active]
    exact hcount.symm
  bound := by rw [hactive, hset.maxPages]; exact h.bound
  fits := by
    obtain ⟨hnone, hnone'⟩ := (h.fits use hset.mem).early (Or.inr hstage)
    exact hset.fits h.fits
      ⟨by simp [hstage'], by simp [hstage', holds],
        fun _ => by rw [hreturned, htaken, hnone, hnone']; simp, by simp [hstage']⟩
  fifo := by
    rw [hwaiters, harrivals]
    refine h.fifo.leave u (fun v => ?_) fun _ => hset.served_of_taken htaken
    by_cases hvu : v = u
    · rw [hvu, hset.waits_self, hstage']
      simp
    · simp [hset.waits_ne hvu, hvu]
  arrived := by
    rw [harrivals]
    exact hset.arrived h.arrived (by simp [hstage'])

lemma release (h : PoolSlotInv s) (hset : UseSet s s' u use use')
    (hactive : s'.active = s.active - 1) (hwaiters : s'.waiters = s.waiters)
    (harrivals : s'.arrivals = s.arrivals) (hholds : use.stage.holds) (hstage : use'.stage = .ended)
    (htaken : use'.taken = use.taken) (hreturned : use'.returned = use.returned + 1) :
    PoolSlotInv s' ∧ s'.active < s'.maxConcurrentPages := by
  have hcount := hset.countP true false hholds (hstage ▸ rfl)
  rw [toNat_true, toNat_false] at hcount
  have hactive' := h.active
  have hbound := h.bound
  have hwaits : use.stage ≠ .waiting := fun hw => by simp [hw, holds] at hholds
  obtain ⟨hone, hnone⟩ := (h.fits use hset.mem).holds hholds
  refine ⟨⟨by omega, by rw [hset.maxPages]; omega, ?_, ?_, ?_⟩, by rw [hset.maxPages]; omega⟩
  · exact hset.fits h.fits
      ⟨by simp [hstage], by simp [hstage, holds],
        fun _ => by rw [hreturned, htaken, hone, hnone]; simp, by simp [hstage]⟩
  · rw [hwaiters, harrivals]
    exact h.fifo.congr (fun _ _ => hset.waits_of_not_waiting hwaits (by simp [hstage]))
      fun _ _ => hset.served_of_taken htaken
  · rw [harrivals]
    exact hset.arrived h.arrived (by simp [hstage])

lemma grant (h : PoolSlotInv s) (hset : UseSet s s' u use use') (hactive : s'.active = s.active + 1)
    (hwaiters : s.waiters = u :: s'.waiters) (harrivals : s'.arrivals = s.arrivals)
    (hroom : s.active < s.maxConcurrentPages) (hstage' : use'.stage = .granted)
    (htaken : use'.taken = use.taken + 1) (hreturned : use'.returned = use.returned) :
    PoolSlotInv s' := by
  have hstage : use.stage = .waiting := by
    have hmem := (h.fifo.mem_waiters.1 (hwaiters ▸ mem_cons_self)).2
    rw [hset.waits_before] at hmem
    exact of_decide_eq_true hmem
  have hcount := hset.countP false true (hstage ▸ rfl) (hstage' ▸ rfl)
  rw [toNat_true, toNat_false] at hcount
  obtain ⟨hnone, hnone'⟩ := (h.fits use hset.mem).early (Or.inr hstage)
  refine ⟨by rw [hactive, h.active]; omega, by rw [hset.maxPages]; omega, ?_, ?_, ?_⟩
  · exact hset.fits h.fits
      ⟨by simp [hstage'], fun _ => ⟨by omega, by omega⟩, by simp [hstage'], by simp [hstage']⟩
  · have hfifo := h.fifo
    rw [hwaiters] at hfifo
    rw [harrivals]
    refine hfifo.serve (fun v => ?_) fun v hvu => hset.served_ne hvu
    by_cases hvu : v = u
    · rw [hvu, hset.waits_self, hstage']
      simp
    · simp [hset.waits_ne hvu, hvu]
  · rw [harrivals]
    exact hset.arrived h.arrived (by simp [hstage'])

lemma notMem_arrivals (h : PoolSlotInv s) (hu : s.uses[u]? = some use)
    (hstage : use.stage = .starting) : u ∉ s.arrivals := by
  intro hmem
  obtain ⟨other, hother, hother'⟩ := h.arrived u hmem
  rw [hu, some.injEq] at hother
  exact hother' (hother ▸ hstage)

lemma others (hset : UseSet s s' u use use') (hu : u ∉ s.arrivals) :
    (∀ v ∈ s.arrivals, s'.waits v = s.waits v) ∧ ∀ v ∈ s.arrivals, s'.served v = s.served v :=
  ⟨fun _ hv => hset.waits_ne fun hvu => hu (hvu ▸ hv),
    fun _ hv => hset.served_ne fun hvu => hu (hvu ▸ hv)⟩

lemma arrived_concat (h : PoolSlotInv s) (hset : UseSet s s' u use use')
    (harrivals : s'.arrivals = s.arrivals ++ [u]) (hstage : use'.stage ≠ .starting) :
    ∀ v ∈ s'.arrivals, ∃ use, s'.uses[v]? = some use ∧ use.stage ≠ .starting := by
  intro v hv
  rw [harrivals, mem_append, mem_singleton] at hv
  rcases hv with hv | rfl
  · exact hset.arrived h.arrived hstage v hv
  · exact ⟨use', hset.getElem_self, hstage⟩

lemma arrive (h : PoolSlotInv s) (hset : UseSet s s' u use use')
    (hactive : s'.active = s.active + 1) (hwaiters : s.waiters = []) (hwaiters' : s'.waiters = [])
    (harrivals : s'.arrivals = s.arrivals ++ [u]) (hroom : s.active < s.maxConcurrentPages)
    (hstage : use.stage = .starting) (hstage' : use'.stage = .granted)
    (htaken : use'.taken = use.taken + 1) (hreturned : use'.returned = use.returned) :
    PoolSlotInv s' := by
  have hcount := hset.countP false true (hstage ▸ rfl) (hstage' ▸ rfl)
  rw [toNat_true, toNat_false] at hcount
  obtain ⟨hnone, hnone'⟩ := (h.fits use hset.mem).early (Or.inl hstage)
  have hu := h.notMem_arrivals hset.before hstage
  refine ⟨by rw [hactive, h.active]; omega, by rw [hset.maxPages]; omega, ?_, ?_,
    h.arrived_concat hset harrivals (by simp [hstage'])⟩
  · exact hset.fits h.fits
      ⟨by simp [hstage'], fun _ => ⟨by omega, by omega⟩, by simp [hstage'], by simp [hstage']⟩
  · have hfifo := h.fifo
    rw [hwaiters] at hfifo
    rw [hwaiters', harrivals]
    exact hfifo.pass hu (others hset hu).1 (others hset hu).2
      (by rw [hset.waits_self, hstage']; rfl)

lemma enqueue (h : PoolSlotInv s) (hset : UseSet s s' u use use') (hactive : s'.active = s.active)
    (hwaiters : s'.waiters = s.waiters ++ [u]) (harrivals : s'.arrivals = s.arrivals ++ [u])
    (hstage : use.stage = .starting) (hstage' : use'.stage = .waiting)
    (htaken : use'.taken = use.taken) (hreturned : use'.returned = use.returned)
    (hcancelled : use'.cancelled = false) : PoolSlotInv s' := by
  have hcount := hset.countP false false (hstage ▸ rfl) (hstage' ▸ rfl)
  obtain ⟨hnone, hnone'⟩ := (h.fits use hset.mem).early (Or.inl hstage)
  have hu := h.notMem_arrivals hset.before hstage
  refine ⟨by rw [hactive, h.active]; omega, by rw [hactive, hset.maxPages]; exact h.bound, ?_, ?_,
    h.arrived_concat hset harrivals (by simp [hstage'])⟩
  · exact hset.fits h.fits
      ⟨fun _ => ⟨by omega, by omega⟩, by simp [hstage', holds], by simp [hstage'],
        by simp [hcancelled]⟩
  · rw [hwaiters, harrivals]
    exact h.fifo.queue_up hu (others hset hu).1 (others hset hu).2
      (by rw [hset.waits_self, hstage']; rfl)
      (by rw [hset.served_self, htaken, hnone]; rfl)

/-! ## What happens to the slots -/

structure SameSlot (use use' : PageUse) : Prop where
  stage : use'.stage = use.stage
  taken : use'.taken = use.taken
  returned : use'.returned = use.returned

lemma SameSlot.rfl : SameSlot use use := ⟨.refl _, .refl _, .refl _⟩

lemma SameSlot.expire : SameSlot use use.expire := ⟨.refl _, .refl _, .refl _⟩

lemma SameSlot.trans {use'' : PageUse} (h : SameSlot use use') (h' : SameSlot use' use'') :
    SameSlot use use'' :=
  ⟨h'.stage.trans h.stage, h'.taken.trans h.taken, h'.returned.trans h.returned⟩

lemma recordTimeout (h : PoolSlotInv s) : PoolSlotInv (s.recordTimeout use) :=
  h.congr rfl rfl rfl rfl rfl

variable (h : PoolSlotInv s) (hu : s.uses[u]? = some use) (hsame : SameSlot use use')
include h hu hsame

lemma endUse (hstage : use.stage = .starting) : PoolSlotInv (s.endUse u use') := by
  obtain ⟨hnone, hnone'⟩ := (h.fits use (mem_of_getElem? hu)).early (Or.inl hstage)
  refine h.move ⟨hu, rfl, rfl⟩ rfl rfl rfl (by rw [hstage]; rfl)
    ⟨by simp, by simp [holds], fun _ => ?_, by simp⟩ (by simp [hstage]) (by simp)
    (by simp) hsame.taken
  exact ⟨by rw [hsame.returned, hsame.taken, hnone, hnone'], by rw [hsame.taken, hnone]; simp⟩

lemma keep (stage : PageUseStage) (hholds : use.stage.holds) (hstage : stage.holds)
    (hruns : use'.cancelled → stage ≠ .acquired ∧ stage ≠ .inCallback) :
    PoolSlotInv (s.withUse u { use' with stage }) := by
  have hone := (h.fits use (mem_of_getElem? hu)).holds hholds
  have hnot : ∀ other : PageUseStage, other.holds = false → stage ≠ other := by
    rintro other hother rfl
    simp [hother] at hstage
  refine h.move ⟨hu, rfl, rfl⟩ rfl rfl rfl (by rw [hholds, ← hstage])
    ⟨?_, fun _ => ?_, ?_, fun hc => ⟨hnot _ rfl, hruns hc⟩⟩ ?_ (hnot _ rfl) ?_ hsame.taken
  · rintro (hs | hs)
    · exact absurd hs (hnot _ rfl)
    · exact absurd hs (hnot _ rfl)
  · rw [hsame.taken, hsame.returned]
    exact hone
  · exact fun hs => absurd hs (hnot _ rfl)
  · intro hs
    rw [hs] at hholds
    cases hholds
  · exact fun hs => absurd hs (hnot _ rfl)

/-- The slot of a use goes to the first of the queue, or becomes free.

**Proof sketch.** The use returns its slot, which leaves room for one; the first of the queue
waits, so it takes none but this one. -/
lemma releaseSlot (hholds : use.stage.holds = true) : PoolSlotInv (s.releaseSlot u use') := by
  unfold PagePool.releaseSlot
  dsimp only
  set s₁ := { s with active := s.active - 1 }.withUse u
    { use' with stage := .ended, returned := use'.returned + 1 } with hs₁
  have hfree : PoolSlotInv s₁ ∧ s₁.active < s₁.maxConcurrentPages :=
    h.release ⟨hu, rfl, rfl⟩ rfl rfl rfl hholds rfl hsame.taken (by rw [hsame.returned])
  cases hwaiters : s₁.waiters with
  | nil => exact hfree.1
  | cons next rest =>
    have hnext : next ∈ s₁.arrivals :=
      (hfree.1.fifo.mem_waiters.1 (hwaiters ▸ List.mem_cons_self)).1
    obtain ⟨waiter, hwaiter, -⟩ := hfree.1.arrived next hnext
    simp only [hwaiter]
    exact hfree.1.grant ⟨hwaiter, rfl, rfl⟩ rfl hwaiters rfl hfree.2 rfl rfl rfl

lemma acquireSlot (hstage : use.stage = .starting) (hcancelled : use'.cancelled = false) :
    PoolSlotInv (s.acquireSlot u use') := by
  unfold PagePool.acquireSlot
  split
  · exact h.endUse hu hsame hstage
  · split
    · next hroom =>
      exact h.arrive ⟨hu, rfl, rfl⟩ rfl hroom.2 hroom.2 rfl hroom.1 hstage rfl
        (congrArg (· + 1) hsame.taken) hsame.returned
    · exact h.enqueue ⟨hu, rfl, rfl⟩ rfl rfl rfl hstage rfl hsame.taken hsame.returned hcancelled

lemma cancel : PoolSlotInv (s.cancel u use') := by
  have hfits := h.fits use (mem_of_getElem? hu)
  have hcancel : SameSlot use' { use' with cancelled := true } := ⟨.refl _, .refl _, .refl _⟩
  unfold PagePool.cancel
  split
  · next hstage =>
    rw [hsame.stage] at hstage
    exact h.leave ⟨hu, rfl, rfl⟩ rfl rfl rfl hstage rfl hsame.taken hsame.returned
  · next hstage =>
    rw [hsame.stage] at hstage
    exact h.keep hu (hsame.trans hcancel) .closingPage (by rw [hstage]; rfl) rfl (by simp)
  · next hstage =>
    rw [hsame.stage] at hstage
    exact h.keep hu (hsame.trans hcancel) .closingPage (by rw [hstage]; rfl) rfl (by simp)
  · next hwaits hacquired hruns =>
    rw [hsame.stage] at hwaits hacquired hruns
    have hcancelled : ({ use' with cancelled := true } : PageUse).Fits :=
      ⟨by rw [hsame.stage, hsame.taken, hsame.returned]; exact hfits.early,
        by rw [hsame.stage, hsame.taken, hsame.returned]; exact hfits.holds,
        by rw [hsame.stage, hsame.taken, hsame.returned]; exact hfits.ended,
        by rw [hsame.stage]; exact fun _ => ⟨hwaits, hacquired, hruns⟩⟩
    exact h.move ⟨hu, rfl, rfl⟩ rfl rfl rfl (by rw [hsame.stage]) hcancelled hwaits
      (by rw [hsame.stage]; exact hwaits) (by rw [hsame.stage]; exact id) hsame.taken

lemma runPage (late : Bool) (stage : PageUseStage) (hholds : use.stage.holds) (hstage : stage.holds)
    : PoolSlotInv (s.runPage u use' late stage) := by
  unfold PagePool.runPage
  split
  · exact h.keep hu hsame .closingPage hholds rfl (by simp)
  · next hactive =>
    split
    · exact h.recordTimeout.keep hu (hsame.trans .expire) .closingPage hholds rfl (by simp)
    · exact h.keep hu hsame stage hholds hstage fun hc => absurd hc hactive

lemma ensureSession (hstage : use.stage = .granted) : PoolSlotInv (s.ensureSession u use') := by
  have hholds : use.stage.holds = true := hstage ▸ rfl
  unfold PagePool.ensureSession
  split
  · exact h.keep hu hsame _ hholds rfl (by simp)
  · exact h.keep hu hsame _ hholds rfl (by simp)
  · have hstart : PoolSlotInv s.startSession ∧ s.startSession.uses = s.uses := by
      unfold startSession
      split
      · exact ⟨h.congr rfl rfl rfl rfl rfl, rfl⟩
      · exact ⟨h.congr rfl rfl rfl rfl rfl, rfl⟩
    exact hstart.1.keep (hstart.2 ▸ hu) hsame _ hholds rfl (by simp)

omit hu hsame

lemma rejectWaiters :
    PoolSlotInv { s with waiters := [], uses := s.uses.map rejectWaiting } := by
  have hholds : ∀ use : PageUse, use.rejectWaiting.stage.holds = use.stage.holds := by
    intro use
    unfold rejectWaiting
    split
    · next hstage => rw [hstage]; rfl
    · rfl
  have hwaits : ∀ use : PageUse, use.rejectWaiting.stage ≠ .waiting := by
    intro use
    unfold rejectWaiting
    split
    · simp
    · next hstage => exact hstage
  refine ⟨?_, h.bound, ?_, h.fifo.clear fun v => ?_, ?_⟩
  · show s.active = _
    rw [countP_map, h.active]
    exact countP_congr fun use _ => by simp [hholds use]
  · intro other hother
    obtain ⟨use, huse, rfl⟩ := List.mem_map.1 hother
    have hfits := h.fits use huse
    unfold rejectWaiting
    split
    · next hstage =>
      obtain ⟨hnone, hnone'⟩ := hfits.early (Or.inr hstage)
      exact ⟨by simp, by simp [holds], fun _ => by simp [hnone, hnone'], by simp⟩
    · exact hfits
  · unfold waits
    rw [getElem?_map]
    cases s.uses[v]? with
    | none => rfl
    | some use => exact decide_eq_false (hwaits use)
  · intro u hu
    obtain ⟨use, huse, hstage⟩ := h.arrived u hu
    refine ⟨use.rejectWaiting, by rw [getElem?_map, huse]; rfl, ?_⟩
    unfold rejectWaiting
    split
    · simp
    · exact hstage

lemma closeWith (launched : Option ℕ) : PoolSlotInv (s.closeWith launched) := by
  unfold PagePool.closeWith
  split <;> exact h.congr rfl rfl rfl rfl rfl

lemma close : PoolSlotInv s.close := by
  unfold PagePool.close
  split
  · exact h
  · dsimp only
    split
    · exact h.rejectWaiters.congr rfl rfl rfl rfl rfl
    · exact h.rejectWaiters.closeWith none

lemma called : PoolSlotInv { s with uses := s.uses ++ [{}] } where
  active := by
    rw [countP_append, ← h.active]
    rfl
  bound := h.bound
  fits := by
    intro use huse
    rw [mem_append, mem_singleton] at huse
    rcases huse with huse | rfl
    · exact h.fits use huse
    · exact ⟨by simp, by simp [holds], by simp, by simp⟩
  fifo := by
    have hin : ∀ v ∈ s.arrivals, (s.uses ++ [({} : PageUse)])[v]? = s.uses[v]? := by
      intro v hv
      obtain ⟨use, huse, -⟩ := h.arrived v hv
      exact getElem?_append_left (List.getElem?_eq_some_iff.1 huse).1
    refine h.fifo.congr (fun v hv => ?_) fun v hv => ?_
    · rw [waits, hin v hv, waits]
    · rw [served, hin v hv, served]
  arrived := by
    intro v hv
    obtain ⟨use, huse, hstage⟩ := h.arrived v hv
    refine ⟨use, ?_, hstage⟩
    rw [getElem?_append_left (List.getElem?_eq_some_iff.1 huse).1, huse]

/-- **Every step keeps the invariant of the slots.**

**Proof sketch.** One case for each stretch of code; those of the browser change nothing of it. -/
theorem step (event : PagePoolEvent) : PoolSlotInv (s.step event) := by
  cases event with
  | withPage aborted =>
    dsimp only [PagePool.step]
    split
    · exact h
    · exact h.called
  | starts u late =>
    dsimp only [PagePool.step]
    split
    · next use hu =>
      split
      · next hstage =>
        split
        · exact h.endUse hu .rfl hstage
        · next hactive =>
          split
          · exact h.recordTimeout.endUse hu .expire hstage
          · exact h.acquireSlot hu .rfl hstage (by simpa using hactive)
      · exact h
    · exact h
  | resumes u late =>
    dsimp only [PagePool.step]
    split
    · next use hu =>
      split
      · next hstage =>
        have hholds : use.stage.holds = true := hstage ▸ rfl
        split
        · exact h.releaseSlot hu .rfl hholds
        · split
          · exact h.recordTimeout.releaseSlot hu .expire hholds
          · exact h.ensureSession hu .rfl hstage
      · exact h
    · exact h
  | sessionArrives u late =>
    dsimp only [PagePool.step]
    split
    · next use hu =>
      split
      · next promise hstage =>
        have hholds : use.stage.holds = true := hstage ▸ rfl
        split
        · exact h
        · exact h.releaseSlot hu .rfl hholds
        · split
          · exact h.releaseSlot hu .rfl hholds
          · split
            · exact h.recordTimeout.releaseSlot hu .expire hholds
            · exact h.keep hu .rfl _ hholds rfl (by simp)
      · exact h
    · exact h
  | pageOpens u ok late =>
    dsimp only [PagePool.step]
    split
    · next use hu =>
      split
      · next session hstage =>
        have hholds : use.stage.holds = true := hstage ▸ rfl
        split
        · exact h.releaseSlot hu .rfl hholds
        · have hopened : PoolSlotInv { s with contexts := s.contexts + 1 } :=
            h.congr rfl rfl rfl rfl rfl
          exact hopened.runPage hu .rfl late _ hholds rfl
      · exact h
    · exact h
  | callbackStarts u late =>
    dsimp only [PagePool.step]
    split
    · next use hu =>
      split
      · next hstage => exact h.runPage hu .rfl late _ (hstage ▸ rfl) rfl
      · exact h
    · exact h
  | callbackEnds u ok =>
    dsimp only [PagePool.step]
    split
    · next use hu =>
      split
      · next hstage =>
        have hsame : SameSlot use { use with completed := ok } := ⟨rfl, rfl, rfl⟩
        exact h.keep hu hsame _ (hstage ▸ rfl) rfl (by simp)
      · exact h
    · exact h
  | pageCloses u late =>
    dsimp only [PagePool.step]
    split
    · next use hu =>
      split
      · next hstage =>
        have hholds : use.stage.holds = true := hstage ▸ rfl
        split
        · exact h.recordTimeout.releaseSlot hu .expire hholds
        · exact h.releaseSlot hu .rfl hholds
      · exact h
    · exact h
  | aborts u =>
    dsimp only [PagePool.step]
    split
    · next use hu =>
      split
      · exact h
      · exact h.cancel hu .rfl
    · exact h
  | timesOut u =>
    dsimp only [PagePool.step]
    split
    · next use hu =>
      split
      · exact h
      · exact h.recordTimeout.cancel hu .expire
    · exact h
  | deadCloses id ok =>
    dsimp only [PagePool.step]
    split
    · exact h.congr rfl rfl rfl rfl rfl
    · exact h
  | launchSettles id ok =>
    dsimp only [PagePool.step]
    split
    · split
      · exact h.congr rfl rfl rfl rfl rfl
      · split
        · exact h.congr rfl rfl rfl rfl rfl
        · exact h.congr rfl rfl rfl rfl rfl
    · exact h
  | discardCloses id ok =>
    dsimp only [PagePool.step]
    split
    · exact h.congr rfl rfl rfl rfl rfl
    · exact h
  | launchClears id =>
    dsimp only [PagePool.step]
    split
    · exact h.congr rfl rfl rfl rfl rfl
    · exact h
  | closeCalled => exact h.close
  | closeSeesLaunch =>
    dsimp only [PagePool.step]
    split
    · split
      · exact h.closeWith _
      · exact h
    · exact h
  | closeSettles ok =>
    dsimp only [PagePool.step]
    split
    · exact h.congr rfl rfl rfl rfl rfl
    · exact h
  | exits session => exact h.congr rfl rfl rfl rfl rfl
  | markDead session =>
    dsimp only [PagePool.step]
    split
    · exact h.congr rfl rfl rfl rfl rfl
    · exact h

end PoolSlotInv

end Yantra
