import Yantra.Browser.PageLaunches

/-!
# The safety of the page pool

The slots are safe whatever happens, and so is the order of the queue. What the closing cannot see
is a launch that begins after it: a use that had its slot, but no session, when the pool was closed
asks for one without looking whether the pool still is open.

## Main definitions

* `PagePool.Meets` — what a step must meet for the browsers to be gone.
* `PoolSafe` — what is claimed of a pool.

## Main results

* `poolSafe_run` — the claim holds of every run whose steps meet them.
-/

namespace Yantra

open PagePool PageUseStage

namespace PagePool

variable (s : PagePool)

/-- A use that has its slot asks for a session, and there is neither one nor a launch to share. -/
def beginsLaunch : PagePoolEvent → Bool
  | .resumes u late =>
    s.uses[u]?.any (fun use => decide (use.stage = .granted) && !use.cancelled) && !late &&
      s.liveSession.isNone && s.launching.isNone
  | _ => false

/-- The closing of a session fails whose browser runs, and the pool goes on. -/
def losesBrowser : PagePoolEvent → Bool
  | .deadCloses id false =>
    match s.attempts[id]? with
    | some (.releasing dead) => s.runs dead
    | _ => false
  | .discardCloses id false =>
    match s.attempts[id]? with
    | some (.discarding session) => s.runs session
    | _ => false
  | _ => false

/-- What a step must meet. -/
structure Meets (event : PagePoolEvent) : Prop where
  /-- Once the pool is being closed, a launch begins only where no relaunches are left. -/
  launches : s.closing.isSome = true → s.beginsLaunch event = true → s.mayLaunch = false
  /-- No browser is left running as its closing fails. -/
  closes : s.losesBrowser event = false

instance (event : PagePoolEvent) : Decidable (s.Meets event) :=
  decidable_of_iff
    ((s.closing.isSome = true → s.beginsLaunch event = true → s.mayLaunch = false) ∧
      s.losesBrowser event = false)
    ⟨fun ⟨hlaunches, hcloses⟩ => ⟨hlaunches, hcloses⟩, fun h => ⟨h.launches, h.closes⟩⟩

end PagePool

structure PoolSafe (options : PagePoolOptions) (s : PagePool) : Prop where
  /-- No more uses hold a slot than the pool has pages. -/
  slots : (s.uses.countP fun use => use.stage.holds) ≤
    (PagePool.create options).maxConcurrentPages
  /-- A use takes at most one slot, and has returned it unless it holds it. -/
  returned : ∀ use ∈ s.uses, use.taken = use.returned + use.stage.holds.toNat ∧ use.taken ≤ 1
  /-- While a use waits for a slot, none that asked later has got one. -/
  fifo : s.arrivals.Pairwise fun u v => s.waits u = true → s.served v = false
  /-- At most one launch is in flight. -/
  launch : ∀ id id' : ℕ, s.attempts[id]? = some LaunchStage.launching →
    s.attempts[id']? = some LaunchStage.launching → id = id'
  /-- No more launches succeed than the relaunches and one. -/
  launched : s.browsers.length ≤ 1 + (PagePool.create options).maxRelaunches
  callbacks : ∀ use ∈ s.uses, use.cancelled = true → use.stage ≠ .inCallback
  /-- Once the closing has resolved, no browser is being launched and none runs. -/
  closed : s.closing = some .resolved →
    (∀ stage ∈ s.attempts, stage ≠ .launching) ∧ ∀ running ∈ s.browsers, running = false

/-! ## What a step does to the launches -/

namespace LaunchInv

variable {s : PagePool}

lemma ensureSession (h : LaunchInv s) {u : ℕ} (use : PageUse)
    (hclosed : s.closing.isSome → s.liveSession = none → s.launching = none →
      s.mayLaunch = false) : LaunchInv (s.ensureSession u use) := by
  unfold PagePool.ensureSession
  split
  · exact h.congr (.withUse s u _)
  · exact h.congr (.withUse s u _)
  · next hlive hnone =>
    exact (h.startSession hnone fun hclosing => hclosed hclosing hlive hnone).congr
      (.withUse _ u _)

/-- **A step that meets the conditions keeps the invariant of the launches.**

**Proof sketch.** The uses change nothing of it, except for the one that asks for a session. The
closing and the launch have a lemma for each stretch of their code. -/
theorem step (h : LaunchInv s) (event : PagePoolEvent) (hmeets : s.Meets event) :
    LaunchInv (s.step event) := by
  have hclosed := hmeets.launches
  have hcloses := hmeets.closes
  cases event with
  | withPage aborted =>
    dsimp only [PagePool.step]
    split
    · exact h
    · exact h.congr ⟨rfl, rfl, rfl, rfl, rfl, rfl, rfl⟩
  | starts u late =>
    dsimp only [PagePool.step]
    split
    · next use hu =>
      split
      · split
        · exact h.congr (.withUse s u _)
        · split
          · exact h.congr ((SameLaunch.recordTimeout s use).trans (.withUse _ u _))
          · exact h.congr (.acquireSlot s u use)
      · exact h
    · exact h
  | resumes u late =>
    dsimp only [PagePool.step]
    split
    · next use hu =>
      split
      · next hstage =>
        split
        · exact h.congr (.releaseSlot s u use)
        · next hactive =>
          split
          · exact h.congr ((SameLaunch.recordTimeout s use).trans (.releaseSlot _ u _))
          · next hlate =>
            refine h.ensureSession use fun hclosing hlive hnone => hclosed hclosing ?_
            simp [beginsLaunch, hu, hstage, hactive, hlate, hlive, hnone]
      · exact h
    · exact h
  | sessionArrives u late =>
    dsimp only [PagePool.step]
    split
    · next use hu =>
      split
      · split
        · exact h
        · exact h.congr (.releaseSlot s u use)
        · split
          · exact h.congr (.releaseSlot s u use)
          · split
            · exact h.congr ((SameLaunch.recordTimeout s use).trans (.releaseSlot _ u _))
            · exact h.congr (.withUse s u _)
      · exact h
    · exact h
  | pageOpens u ok late =>
    dsimp only [PagePool.step]
    split
    · next use hu =>
      split
      · split
        · exact h.congr (.releaseSlot s u use)
        · have hopened : SameLaunch s { s with contexts := s.contexts + 1 } :=
            ⟨rfl, rfl, rfl, rfl, rfl, rfl, rfl⟩
          exact h.congr (hopened.trans (.runPage _ u use late _))
      · exact h
    · exact h
  | callbackStarts u late =>
    dsimp only [PagePool.step]
    split
    · next use hu =>
      split
      · exact h.congr (.runPage s u use late _)
      · exact h
    · exact h
  | callbackEnds u ok =>
    dsimp only [PagePool.step]
    split
    · next use hu =>
      split
      · exact h.congr (.withUse s u _)
      · exact h
    · exact h
  | pageCloses u late =>
    dsimp only [PagePool.step]
    split
    · next use hu =>
      split
      · split
        · exact h.congr ((SameLaunch.recordTimeout s use).trans (.releaseSlot _ u _))
        · exact h.congr (.releaseSlot s u use)
      · exact h
    · exact h
  | aborts u =>
    dsimp only [PagePool.step]
    split
    · next use hu =>
      split
      · exact h
      · exact h.congr (.cancel s u use)
    · exact h
  | timesOut u =>
    dsimp only [PagePool.step]
    split
    · next use hu =>
      split
      · exact h
      · exact h.congr ((SameLaunch.recordTimeout s use).trans (.cancel _ u _))
    · exact h
  | deadCloses id ok =>
    dsimp only [PagePool.step]
    split
    · next dead hget =>
      have hid : s.launching = some id := h.attempts.cleared id _ hget rfl
      obtain ⟨hsession, hphase⟩ := h.phase id _ hid hget
      refine h.advance dead ok hget rfl (by split <;> rfl) (by split <;> rfl) ?_ ?_
      · intro b hb
        refine ⟨(Option.some.inj hb).symm, ?_⟩
        cases ok with
        | true => exact Or.inl rfl
        | false =>
          simp only [losesBrowser, hget] at hcloses
          exact Or.inr (Option.some.inj hb ▸ hcloses)
      · split
        · next hmay =>
          refine ⟨hsession, hmay, hphase.resolve_right fun hlast => ?_⟩
          cases hmay.symm.trans hlast.1
        · exact Or.inl hsession
    · exact h
  | launchSettles id ok =>
    dsimp only [PagePool.step]
    split
    · next hget =>
      have hid : s.launching = some id := h.attempts.cleared id _ hget rfl
      have hsession : s.session = none := (h.phase id _ hid hget).1
      split
      · exact h.advance 0 false hget rfl rfl rfl
          (fun b hb => by cases hb) (Or.inl hsession)
      · split
        · next hclosing => exact h.discard hget hclosing
        · next hclosing => exact h.launched hget (by simpa using hclosing)
    · exact h
  | discardCloses id ok =>
    dsimp only [PagePool.step]
    split
    · next session hget =>
      have hid : s.launching = some id := h.attempts.cleared id _ hget rfl
      refine h.advance session ok hget rfl rfl rfl ?_ (Or.inl (h.phase id _ hid hget).1)
      intro b hb
      refine ⟨(Option.some.inj hb).symm, ?_⟩
      cases ok with
      | true => exact Or.inl rfl
      | false =>
        simp only [losesBrowser, hget] at hcloses
        exact Or.inr (Option.some.inj hb ▸ hcloses)
    · exact h
  | launchClears id =>
    dsimp only [PagePool.step]
    split
    · next result hget => exact h.clears hget
    · exact h
  | closeCalled => exact h.close
  | closeSeesLaunch =>
    dsimp only [PagePool.step]
    split
    · next a hclosing =>
      split
      · next result hget => exact h.closeSees hclosing hget
      · exact h
    · exact h
  | closeSettles ok =>
    dsimp only [PagePool.step]
    split
    · next session hclosing => exact h.closeSettles ok hclosing
    · exact h
  | exits session => exact h.exits session
  | markDead session =>
    dsimp only [PagePool.step]
    split
    · exact h.congr ⟨rfl, rfl, rfl, rfl, rfl, rfl, rfl⟩
    · exact h

end LaunchInv

/-! ## What a run keeps -/

structure SameBounds (s s' : PagePool) : Prop where
  maxConcurrentPages : s'.maxConcurrentPages = s.maxConcurrentPages
  maxRelaunches : s'.maxRelaunches = s.maxRelaunches

namespace PoolSafe

variable {options : PagePoolOptions} {s : PagePool}

lemma of_inv (hslots : PoolSlotInv s) (hlaunches : LaunchInv s)
    (hbounds : SameBounds (.create options) s) : PoolSafe options s where
  slots := by
    rw [← hbounds.maxConcurrentPages, ← hslots.active]
    exact hslots.bound
  returned use huse := by
    have hfits := hslots.fits use huse
    cases hstage : use.stage with
    | starting =>
      obtain ⟨htaken, hreturned⟩ := hfits.early (Or.inl hstage)
      simp [holds, htaken, hreturned]
    | waiting =>
      obtain ⟨htaken, hreturned⟩ := hfits.early (Or.inr hstage)
      simp [holds, htaken, hreturned]
    | ended =>
      obtain ⟨hreturned, hone⟩ := hfits.ended hstage
      exact ⟨hreturned.symm, hone⟩
    | _ =>
      obtain ⟨htaken, hreturned⟩ := hfits.holds (by rw [hstage]; rfl)
      simp [holds, htaken, hreturned]
  fifo := hslots.fifo.fair
  launch id id' hget hget' := by
    have hid := hlaunches.attempts.cleared id _ hget rfl
    exact Option.some.inj (hid.symm.trans (hlaunches.attempts.cleared id' _ hget' rfl))
  launched := by
    rw [← hbounds.maxRelaunches]
    exact hlaunches.bound
  callbacks use huse hcancelled := ((hslots.fits use huse).cancelled hcancelled).2.2
  closed hresolved := by
    refine ⟨fun stage hstage hlaunching => ?_, fun running hrunning => ?_⟩
    · subst hlaunching
      obtain ⟨id, hget⟩ := List.mem_iff_getElem?.1 hstage
      obtain ⟨-, -, -, hclosing | hclosing⟩ :=
        hlaunches.phase id _ (hlaunches.attempts.cleared id _ hget rfl) hget
      · cases hresolved.symm.trans hclosing
      · cases hresolved.symm.trans hclosing
    · obtain ⟨b, hget⟩ := List.mem_iff_getElem?.1 hrunning
      have hruns := hlaunches.resolved hresolved b
      rwa [runs, hget] at hruns

end PoolSafe

namespace SameBounds

variable {s s' s'' : PagePool}

lemma trans (h : SameBounds s s') (h' : SameBounds s' s'') : SameBounds s s'' :=
  ⟨h'.maxConcurrentPages.trans h.maxConcurrentPages, h'.maxRelaunches.trans h.maxRelaunches⟩

/-- No stretch of code assigns the bounds. -/
lemma step (s : PagePool) (event : PagePoolEvent) : SameBounds s (s.step event) := by
  cases event <;>
    simp only [PagePool.step, releaseSlot, acquireSlot, ensureSession,
      startSession, PagePool.take, cancel, runPage, close,
      closeWith] <;>
    (repeat' split) <;>
    exact ⟨rfl, rfl⟩

end SameBounds

/-- The slots, the launches and the bounds of a pool made with some options. -/
structure PoolInv (options : PagePoolOptions) (s : PagePool) : Prop where
  slots : PoolSlotInv s
  launches : LaunchInv s
  bounds : SameBounds (.create options) s

lemma poolInv_create (options : PagePoolOptions) : PoolInv options (.create options) where
  slots :=
    { active := rfl
      bound := Nat.zero_le _
      fits := by
        intro use huse
        cases huse
      fifo := .nil _ _
      arrived := by
        intro u hu
        cases hu }
  launches :=
    { attempts :=
        { current := by
            intro id hid
            cases hid
          cleared := by
            intro id stage hget
            cases hget }
      phase := by
        intro id stage hid
        cases hid
      awaits := by
        intro a ha
        cases ha
      shut := Or.inl rfl
      counted := fun _ => rfl
      bound := Nat.zero_le _
      owned := by
        intro session hruns
        cases hruns
      resolved := fun _ _ => rfl }
  bounds := ⟨rfl, rfl⟩

/-- **The page pool is safe** in every run whose steps meet the conditions: the slots and the order
of the queue, the number of launches, the callbacks, and the browsers once the closing has resolved.

**Proof sketch.** Induction along the run. The slots need no condition. A launch that begins after
the closing gets nowhere, as no relaunches are left; so the closing sees every launch that may still
come to a session, and whatever runs is the session, or is being closed. -/
theorem poolSafe_run (options : PagePoolOptions) (events : List PagePoolEvent)
    (hmeets : (pagePool options).Along PagePool.Meets (PagePool.create options) events) :
    PoolSafe options ((pagePool options).run events) := by
  have hstep : ∀ s event, PoolInv options s → s.Meets event →
      PoolInv options ((pagePool options).step s event) := by
    intro s event hinv hmeets
    exact ⟨hinv.slots.step event, hinv.launches.step event hmeets,
      hinv.bounds.trans (.step s event)⟩
  have hinv : PoolInv options ((pagePool options).runFrom (PagePool.create options) events) :=
    Machine.invariant_runFrom hstep (poolInv_create options) hmeets
  exact .of_inv hinv.slots hinv.launches hinv.bounds

/-- A use gets a page and runs its callback, another one waits and is cancelled, and the pool is
closed once its browser has crashed and was launched again. -/
theorem poolSafe_run_relaunched :
    PoolSafe { maxConcurrentPages := some 1 } ((pagePool { maxConcurrentPages := some 1 }).run
      [.withPage false, .withPage false, .starts 0 false, .starts 1 false, .resumes 0 false,
        .launchSettles 0 true, .launchClears 0, .sessionArrives 0 false, .pageOpens 0 true false,
        .callbackStarts 0 false, .exits 0, .markDead 0, .callbackEnds 0 false, .pageCloses 0 false,
        .resumes 1 false, .deadCloses 1 true, .launchSettles 1 true, .aborts 1, .launchClears 1,
        .sessionArrives 1 false, .closeCalled, .closeSettles true]) :=
  poolSafe_run _ _ (by decide)

/-- A use that has its slot, but no session, when the pool is closed launches a browser after the
closing has resolved. -/
theorem launch_after_close :
    ¬ PoolSafe {} ((pagePool {}).run
      [.withPage false, .starts 0 false, .closeCalled, .resumes 0 false]) := by
  intro h
  have hclosed : ((pagePool {}).run
      [.withPage false, .starts 0 false, .closeCalled, .resumes 0 false]).closing =
      some .resolved := by decide
  have hlaunching : LaunchStage.launching ∈ ((pagePool {}).run
      [.withPage false, .starts 0 false, .closeCalled, .resumes 0 false]).attempts := by
    decide
  exact (h.closed hclosed).1 _ hlaunching rfl

end Yantra
