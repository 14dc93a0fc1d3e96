import Mathlib.Data.List.Infix
import Mathlib.Data.Rat.Init
import Yantra.Locator.Resolver

/-!
# Waiting for an element

The locator is resolved again and again until the element it resolves to can be acted on: twice in a
row its rectangle is the same. The rectangle read last is kept from one poll to the next. A transient
error drops it; a poll that finds nothing, or an element that is detached or hidden, does not.

## Main definitions

* `WaitRun`, `resolveActionable` — the wait, with what its polls have seen.
* `Poll.KeepsSight` — the element of the reading that is kept stays in sight.

## Main results

* `resolveActionable_waitsForStable` — a run of such polls keeps the promise.
-/

namespace Yantra

open List Option

universe u

variable {E : Type u}

/-! ## The page -/

structure ActionableState where
  visible : Bool
  enabled : Bool
  stable : Bool
  receivesEvents : Bool
  attached : Bool
  deriving DecidableEq

structure BoundingRect where
  top : ℚ
  left : ℚ
  width : ℚ
  height : ℚ
  deriving DecidableEq

/-- Nothing is known to be there. -/
def ActionableState.absent : ActionableState := ⟨false, false, false, false, false⟩

/-- The page at one moment: its slot, and what it says of an element. -/
structure PageMoment (E : Type u) where
  slot : Option E
  state : E → ActionableState
  rect : E → BoundingRect

/-- `checkActionableState`, of what is in the slot. -/
def PageMoment.checkActionableState (page : PageMoment E) : ActionableState :=
  (page.slot.map page.state).getD .absent

/-- `getBoundingRect`, of what is in the slot. -/
def PageMoment.getBoundingRect (page : PageMoment E) : BoundingRect :=
  (page.slot.map page.rect).getD ⟨0, 0, 0, 0⟩

/-- What a call throws: an error with its message, or something else. -/
inductive Thrown where
  | error (message : String)
  | other
  deriving DecidableEq

def transientMessages : List String :=
  ["execution context was destroyed", "execution context is not available", "cannot find context",
    "most likely because of a navigation"]

def isTransientNavigationError (toLowerCase : String → String) : Thrown → Bool
  | .error message =>
    transientMessages.any fun part => decide (part.toList <:+: (toLowerCase message).toList)
  | .other => false

/-- A poll: what its three calls meet, how long they take, and how much longer than asked its two
pauses take. -/
structure Poll (E : Type u) where
  resolved : Except Thrown (ResolveResult E)
  checked : Except Thrown (PageMoment E)
  measured : Except Thrown (PageMoment E)
  resolveMs : ℕ := 0
  checkMs : ℕ := 0
  measureMs : ℕ := 0
  replyMs : ℕ := 0
  oversleepMs : ℕ := 0
  overstayMs : ℕ := 0

/-! ## The wait -/

inductive ActionableRequirement where
  | actionable | visible | attached
  deriving DecidableEq

structure WaitConfig where
  chainName : String := ""
  timeoutMs : Option ℕ := none
  requirement : Option ActionableRequirement := none
  frameId : Option String := none
  startedAt : ℕ := 0
  toLowerCase : String → String := id

def DEFAULT_TIMEOUT_MS : ℕ := 30000

def STABILITY_WINDOW_MS : ℕ := 100

def BACKOFF_SEQUENCE : List ℕ := [0, 20, 50, 100, 100, 500, 500, 500]

def getNextDelay (index : ℕ) : ℕ := BACKOFF_SEQUENCE[index]?.getD 500

/-- `options.timeoutMs ?? DEFAULT_TIMEOUT_MS` -/
def WaitConfig.totalDeadlineMs (cfg : WaitConfig) : ℕ := cfg.timeoutMs.getD DEFAULT_TIMEOUT_MS

def WaitConfig.deadline (cfg : WaitConfig) : ℕ := cfg.startedAt + cfg.totalDeadlineMs

/-- `options.requirement ?? 'actionable'` -/
def WaitConfig.required (cfg : WaitConfig) : ActionableRequirement :=
  cfg.requirement.getD .actionable

/-- A reading of a rectangle: the element that the poll found, what was in the slot when its state
and when its rectangle were read, and the time. -/
structure Measurement (E : Type u) where
  found : E
  checkedSlot : Option E
  state : ActionableState
  slot : Option E
  rect : BoundingRect
  readAt : ℕ
  deriving DecidableEq

/-- What a poll has seen. -/
inductive Sighting (E : Type u) where
  /-- No element, or several. -/
  | missing
  /-- A transient error. -/
  | interrupted
  /-- An element whose rectangle was not read. -/
  | checked (found : E) (slot : Option E) (state : ActionableState)
  | measured (reading : Measurement E)
  deriving DecidableEq

inductive WaitOutcome (E : Type u) where
  | returned (elementHandle : E) (usedCandidateIndex : ℕ) (candidatesTried : List CandidateAttempt)
  | ambiguous (chainName : String) (candidateIndex matchCount : ℕ)
      (candidatesTried : List CandidateAttempt)
  | notActionable (chainName : String) (lastActionableState : ActionableState) (deadlineMs : ℕ)
  | frameDetached (chainName frameId : String)
  | rethrown (err : Thrown)
  deriving DecidableEq

/-- The variables of the loop, the clock, what the polls have seen (the last one first), and how the
wait ended. -/
structure WaitRun (E : Type u) where
  now : ℕ
  lastState : Option ActionableState := none
  lastAmbiguity : Option (List CandidateAttempt) := none
  prevRect : Option BoundingRect := none
  backoffIndex : ℕ := 0
  seen : List (Sighting E) := []
  outcome : Option (WaitOutcome E) := none

namespace WaitRun

/-- The errors after the loop. -/
def giveUp (cfg : WaitConfig) (s : WaitRun E) : WaitRun E :=
  { s with outcome := some <|
      match s.lastAmbiguity with
      | some tried =>
        let ambiguous := tried.find? (·.outcome = .ambiguous)
        .ambiguous cfg.chainName ((ambiguous.map (·.index)).getD 0)
          ((ambiguous.map (·.matchCount)).getD 2) tried
      | none =>
        .notActionable cfg.chainName (s.lastState.getD .absent) cfg.totalDeadlineMs }

def caught (cfg : WaitConfig) (s : WaitRun E) (err : Thrown) : WaitRun E :=
  if isTransientNavigationError cfg.toLowerCase err then
    { s with lastState := none, prevRect := none, seen := .interrupted :: s.seen }
  else { s with outcome := some (.rethrown err) }

def unresolved (cfg : WaitConfig) (s : WaitRun E) (tried : List CandidateAttempt) :
    ResolveFailure → WaitRun E
  | .ambiguous =>
    { s with lastAmbiguity := some tried, lastState := none, seen := .missing :: s.seen }
  | .frameDetached =>
    { s with outcome := some (.frameDetached cfg.chainName (cfg.frameId.getD "main")) }
  | .notFound => { s with lastAmbiguity := none, lastState := none, seen := .missing :: s.seen }

/-- The rectangle is read, and compared with the one that is kept. -/
def measure (cfg : WaitConfig) (s : WaitRun E) (p : Poll E) (e : E) (i : ℕ)
    (tried : List CandidateAttempt) (checkedSlot : Option E) (state : ActionableState) :
    WaitRun E :=
  match p.measured with
  | .error err => s.caught cfg err
  | .ok page =>
    let rect := page.getBoundingRect
    let readAt := s.now + p.measureMs
    let seen := .measured ⟨e, checkedSlot, state, page.slot, rect, readAt⟩ :: s.seen
    if s.prevRect = some rect ∧ (cfg.required = .visible ∨ state.receivesEvents) then
      { s with seen := seen, outcome := some (.returned e i tried) }
    else
      let now := readAt + p.replyMs
      { s with
        prevRect := some rect
        seen := seen
        now := now + min STABILITY_WINDOW_MS (cfg.deadline - now) + p.overstayMs }

/-- The element that was found is checked. -/
def check (cfg : WaitConfig) (s : WaitRun E) (p : Poll E) (e : E) (i : ℕ)
    (tried : List CandidateAttempt) : WaitRun E :=
  match p.checked with
  | .error err => s.caught cfg err
  | .ok page =>
    let state := page.checkActionableState
    let s := { s with now := s.now + p.checkMs, lastState := some state }
    if !state.attached then { s with seen := .checked e page.slot state :: s.seen }
    else if cfg.required = .attached then { s with outcome := some (.returned e i tried) }
    else if !state.visible || !state.enabled then
      { s with seen := .checked e page.slot state :: s.seen }
    else s.measure cfg p e i tried page.slot state

def look (cfg : WaitConfig) (s : WaitRun E) (p : Poll E) : WaitRun E :=
  match p.resolved with
  | .error err => s.caught cfg err
  | .ok (.failure reason tried) => s.unresolved cfg tried reason
  | .ok (.success e i tried) => s.check cfg p e i tried

def pause (cfg : WaitConfig) (s : WaitRun E) (p : Poll E) : WaitRun E :=
  let delay := getNextDelay s.backoffIndex
  { s with
    backoffIndex := s.backoffIndex + 1
    now := if 0 < delay then s.now + min delay (cfg.deadline - s.now) + p.oversleepMs else s.now }

/-- One turn of the loop. -/
def poll (cfg : WaitConfig) (s : WaitRun E) (p : Poll E) : WaitRun E :=
  if s.outcome.isSome then s
  else if cfg.deadline ≤ s.now then s.giveUp cfg
  else
    let s := s.pause cfg p
    if cfg.deadline ≤ s.now then s.giveUp cfg
    else { s with now := s.now + p.resolveMs }.look cfg p

end WaitRun

def resolveActionable (E : Type u) (cfg : WaitConfig) : Machine (WaitRun E) (Poll E) where
  init := { now := cfg.startedAt }
  step := WaitRun.poll cfg

/-! ## What is promised -/

/-- The last reading since the last transient error, and what was seen after it. -/
def lastRect : List (Sighting E) → Option (Measurement E × List (Sighting E))
  | [] => none
  | .interrupted :: _ => none
  | .measured m :: _ => some (m, [])
  | .missing :: seen => (lastRect seen).map fun r => (r.1, .missing :: r.2)
  | .checked e slot state :: seen =>
    (lastRect seen).map fun r => (r.1, .checked e slot state :: r.2)

def Sighting.Shows (e : E) : Sighting E → Prop
  | .checked _ slot state => slot = some e ∧ state.attached = true ∧ state.visible = true
  | _ => False

/-- **The promise.** -/
structure WaitsForStable (cfg : WaitConfig) (s : WaitRun E) : Prop where
  /-- An element that is returned can be acted on, and an earlier reading of it, with nothing else
  seen in between, had the same rectangle. -/
  returned : cfg.required = .actionable → ∀ e i tried, s.outcome = some (.returned e i tried) →
    ∃ m earlier between before, s.seen = .measured m :: before ∧
      lastRect before = some (earlier, between) ∧
      m.checkedSlot = some e ∧ m.state.attached = true ∧ m.state.visible = true ∧
      m.state.enabled = true ∧ m.state.receivesEvents = true ∧
      m.slot = some e ∧ earlier.slot = some e ∧ earlier.rect = m.rect ∧
      earlier.readAt + STABILITY_WINDOW_MS ≤ m.readAt ∧
      ∀ sighting ∈ between, sighting.Shows e
  /-- Two readings that are compared are of one element, and every resolution in between found
  one. -/
  compared : ∀ m before earlier between, .measured m :: before <:+ s.seen →
    lastRect before = some (earlier, between) →
      earlier.slot = m.slot ∧ Sighting.missing ∉ between
  /-- The rectangle that is kept is that of the last reading. -/
  prevRect : s.outcome = none → s.prevRect = (lastRect s.seen).map fun r => r.1.rect

/-- A poll that comes to look at an element finds this one, attached and visible. -/
def Poll.Shows (e : E) (p : Poll E) : Prop :=
  match p.resolved with
  | .error _ => True
  | .ok (.failure reason _) => reason = .frameDetached
  | .ok (.success e' _ _) => e' = e ∧ ∀ page, p.checked = .ok page →
      page.checkActionableState.attached = true ∧ page.checkActionableState.visible = true

/-- The slot still holds the element that the poll found when it is read; and while a rectangle is
kept, its element is found, attached and visible. -/
structure Poll.KeepsSight (s : WaitRun E) (p : Poll E) : Prop where
  slot : ∀ e i tried page, p.resolved = .ok (.success e i tried) →
    p.checked = .ok page ∨ p.measured = .ok page → page.slot = some e
  shows : ∀ m between, lastRect s.seen = some (m, between) → p.Shows m.found

/-! ## The invariant -/

/-- The promise holds; and the reading that is kept is of the element that was found, which was seen
ever since, and is a stability window old. -/
structure WaitInv (cfg : WaitConfig) (s : WaitRun E) : Prop where
  holds : WaitsForStable cfg s
  kept : s.outcome = none → ∀ m between, lastRect s.seen = some (m, between) →
    m.slot = some m.found ∧ (∀ sighting ∈ between, sighting.Shows m.found) ∧
      (m.readAt + STABILITY_WINDOW_MS ≤ s.now ∨ cfg.deadline ≤ s.now)

section

variable {cfg : WaitConfig} {s s' : WaitRun E} {p : Poll E}

lemma WaitInv.congr (h : WaitInv cfg s) (hnow : s.now ≤ s'.now) (hprev : s'.prevRect = s.prevRect)
    (hseen : s'.seen = s.seen) (houtcome : s'.outcome = s.outcome) : WaitInv cfg s' where
  holds := by
    refine ⟨?_, ?_, ?_⟩
    · rw [hseen, houtcome]
      exact h.holds.returned
    · rw [hseen]
      exact h.holds.compared
    · rw [hprev, hseen, houtcome]
      exact h.holds.prevRect
  kept hnone m between hlast := by
    rw [hseen] at hlast
    obtain ⟨hslot, hshows, htime⟩ := h.kept (houtcome ▸ hnone) m between hlast
    exact ⟨hslot, hshows, htime.imp (Nat.le_trans · hnow) (Nat.le_trans · hnow)⟩

lemma WaitInv.ended (h : WaitInv cfg s) {outcome : WaitOutcome E}
    (hreturned : cfg.required = .actionable → ∀ e i tried, outcome ≠ .returned e i tried) :
    WaitInv cfg { s with outcome := some outcome } where
  holds :=
    { returned := fun hreq e i tried houtcome =>
        absurd (some.inj houtcome) (hreturned hreq e i tried)
      compared := h.holds.compared
      prevRect := fun hnone => by cases hnone }
  kept hnone := by cases hnone

lemma WaitInv.giveUp (h : WaitInv cfg s) : WaitInv cfg (s.giveUp cfg) :=
  h.ended fun _ _ _ _ heq => by
    split at heq <;> cases heq

lemma WaitInv.see (h : WaitInv cfg s) (hopen : s.outcome = none) (sighting : Sighting E)
    (hreading : ∀ m, sighting ≠ .measured m)
    (hprev : s'.prevRect = (lastRect (sighting :: s.seen)).map fun r => r.1.rect)
    (hkept : ∀ m between, lastRect (sighting :: s.seen) = some (m, between) →
      ∃ before, lastRect s.seen = some (m, before) ∧ ∀ other ∈ between,
        other ∈ before ∨ other.Shows m.found)
    (hnow : s.now ≤ s'.now) (hseen : s'.seen = sighting :: s.seen) (hnone : s'.outcome = none) :
    WaitInv cfg s' where
  holds :=
    { returned := fun _ e i tried houtcome => by
        rw [hnone] at houtcome
        cases houtcome
      compared := fun m before earlier between hsuffix hlast => by
        rw [hseen] at hsuffix
        rcases suffix_cons_iff.1 hsuffix with heq | hsuffix
        · exact absurd (List.cons.inj heq).1.symm (hreading m)
        · exact h.holds.compared m before earlier between hsuffix hlast
      prevRect := fun _ => by rw [hprev, hseen] }
  kept _ m between hlast := by
    rw [hseen] at hlast
    obtain ⟨before, hbefore, hshows⟩ := hkept m between hlast
    obtain ⟨hslot, hold, htime⟩ := h.kept hopen m before hbefore
    refine ⟨hslot, fun other hmem => ?_, htime.imp (Nat.le_trans · hnow) (Nat.le_trans · hnow)⟩
    exact (hshows other hmem).elim (hold other) id

lemma WaitInv.caught (h : WaitInv cfg s) (hopen : s.outcome = none) (err : Thrown) :
    WaitInv cfg (s.caught cfg err) := by
  unfold WaitRun.caught
  split_ifs
  · exact h.see hopen .interrupted (fun _ heq => by cases heq) rfl
      (fun _ _ hlast => by cases hlast) (Nat.le_refl _) rfl hopen
  · exact h.ended fun _ _ _ _ heq => by cases heq

lemma WaitInv.unresolved (h : WaitInv cfg s) (hopen : s.outcome = none) {reason : ResolveFailure}
    (hkept : ∀ m between, lastRect s.seen = some (m, between) → reason = .frameDetached)
    (tried : List CandidateAttempt) : WaitInv cfg (s.unresolved cfg tried reason) := by
  have hmissing (s' : WaitRun E) (hreason : reason ≠ .frameDetached) (hnow : s.now ≤ s'.now)
      (hprev : s'.prevRect = s.prevRect) (hseen : s'.seen = .missing :: s.seen)
      (hnone : s'.outcome = none) : WaitInv cfg s' := by
    have hlast : lastRect s.seen = none :=
      eq_none_iff_forall_ne_some.2 fun r hr => hreason (hkept r.1 r.2 hr)
    refine h.see hopen .missing (fun _ heq => by cases heq) ?_ (fun m between hsome => ?_) hnow
      hseen hnone
    · rw [hprev, h.holds.prevRect hopen, lastRect, hlast]
      rfl
    · rw [lastRect, hlast] at hsome
      cases hsome
  cases reason with
  | ambiguous => exact hmissing _ (fun heq => by cases heq) (Nat.le_refl _) rfl rfl hopen
  | notFound => exact hmissing _ (fun heq => by cases heq) (Nat.le_refl _) rfl rfl hopen
  | frameDetached => exact h.ended fun _ _ _ _ heq => by cases heq

variable {e : E}

lemma WaitInv.checked (h : WaitInv cfg s) (hopen : s.outcome = none) {page : PageMoment E}
    (hslot : page.slot = some e)
    (hkept : ∀ m between, lastRect s.seen = some (m, between) → e = m.found ∧
      page.checkActionableState.attached ∧ page.checkActionableState.visible) :
    WaitInv cfg { s with seen := .checked e page.slot page.checkActionableState :: s.seen } := by
  refine h.see hopen (.checked e page.slot page.checkActionableState) (fun _ heq => by cases heq)
    ?_ (fun m between hlast => ?_) (Nat.le_refl _) rfl hopen
  · rw [lastRect, Option.map_map, h.holds.prevRect hopen]
    rfl
  · rw [lastRect, map_eq_some_iff] at hlast
    obtain ⟨⟨m', before⟩, hbefore, heq⟩ := hlast
    obtain ⟨rfl, rfl⟩ := Prod.mk.inj heq
    obtain ⟨rfl, hattached, hvisible⟩ := hkept m' before hbefore
    refine ⟨before, hbefore, fun other hmem => ?_⟩
    rcases mem_cons.1 hmem with rfl | hmem
    · exact .inr ⟨hslot, hattached, hvisible⟩
    · exact .inl hmem

lemma WaitInv.measure (h : WaitInv cfg s) (hopen : s.outcome = none) (hripe : ∀ m between,
      lastRect s.seen = some (m, between) → m.readAt + STABILITY_WINDOW_MS ≤ s.now) {state : ActionableState} (hattached : state.attached)
    (hvisible : state.visible) (henabled : state.enabled)
    (hslot : ∀ page, p.measured = .ok page → page.slot = some e)
    (hkept : ∀ m between, lastRect s.seen = some (m, between) → e = m.found) (i : ℕ)
    (tried : List CandidateAttempt) :
    WaitInv cfg (s.measure cfg p e i tried (some e) state) := by
  unfold WaitRun.measure
  cases hmeasured : p.measured with
  | error err => exact h.caught hopen err
  | ok page =>
    have hpage := hslot page hmeasured
    have hcompared : ∀ m before earlier between,
        .measured m :: before <:+ .measured ⟨e, some e, state, page.slot, page.getBoundingRect,
          s.now + p.measureMs⟩ :: s.seen → lastRect before = some (earlier, between) →
        earlier.slot = m.slot ∧ Sighting.missing ∉ between := by
      intro m before earlier between hsuffix hlast
      rcases suffix_cons_iff.1 hsuffix with heq | hsuffix
      · obtain ⟨hfirst, rfl⟩ := List.cons.inj heq
        obtain rfl := Sighting.measured.inj hfirst
        obtain ⟨hearlier, hshows, -⟩ := h.kept hopen earlier between hlast
        refine ⟨?_, fun hmem => hshows _ hmem⟩
        rw [hpage, hearlier, hkept earlier between hlast]
      · exact h.holds.compared m before earlier between hsuffix hlast
    dsimp only
    split_ifs with hstable
    · refine ⟨⟨fun hreq e' i' tried' houtcome => ?_, hcompared, fun hnone => by cases hnone⟩,
        fun hnone => by cases hnone⟩
      obtain ⟨rfl, rfl, rfl⟩ := WaitOutcome.returned.inj (some.inj houtcome)
      obtain ⟨hsame, hreceives⟩ := hstable
      rw [h.holds.prevRect hopen, map_eq_some_iff] at hsame
      obtain ⟨⟨earlier, between⟩, hlast, hrect⟩ := hsame
      obtain ⟨hearlier, hshows, -⟩ := h.kept hopen earlier between hlast
      obtain rfl := hkept earlier between hlast
      have hreceives : state.receivesEvents :=
        hreceives.resolve_left fun hread => by rw [hreq] at hread; cases hread
      have hold := hripe earlier between hlast
      exact ⟨_, earlier, between, s.seen, rfl, hlast, rfl, hattached, hvisible, henabled, hreceives,
        hpage, hearlier, hrect, Nat.le_trans hold (Nat.le_add_right _ _), hshows⟩
    · refine ⟨⟨fun _ e' i' tried' houtcome => absurd (hopen.symm.trans houtcome) (by simp),
        hcompared, fun _ => rfl⟩, fun _ m between hlast => ?_⟩
      obtain ⟨rfl, rfl⟩ := Prod.mk.inj (some.inj hlast)
      refine ⟨hpage, fun _ hmem => absurd hmem not_mem_nil, ?_⟩
      dsimp only
      omega

lemma now_le_pause (cfg : WaitConfig) (s : WaitRun E) (p : Poll E) :
    s.now ≤ (s.pause cfg p).now := by
  unfold WaitRun.pause
  dsimp only
  split_ifs <;> omega

/-- **One poll**: where the element of a kept reading stays in sight, the invariant is kept. -/
theorem WaitInv.step (h : WaitInv cfg s) (hsight : p.KeepsSight s) :
    WaitInv cfg (s.poll cfg p) := by
  unfold WaitRun.poll
  dsimp only
  split_ifs with hended hlate
  · exact h
  · exact h.giveUp
  · exact WaitInv.giveUp (h.congr (now_le_pause cfg s p) rfl rfl rfl)
  · have hopen : s.outcome = none := by simpa using hended
    -- a poll that starts before the deadline starts a stability window after the reading
    have hripe : ∀ m between, lastRect s.seen = some (m, between) →
        m.readAt + STABILITY_WINDOW_MS ≤ (s.pause cfg p).now + p.resolveMs := fun m between hlast =>
      Nat.le_trans (((h.kept hopen m between hlast).2.2).resolve_right hlate)
        (Nat.le_trans (now_le_pause cfg s p) (Nat.le_add_right _ _))
    have hlook : WaitInv cfg { s.pause cfg p with now := (s.pause cfg p).now + p.resolveMs } :=
      h.congr (Nat.le_trans (now_le_pause cfg s p) (Nat.le_add_right _ _)) rfl rfl rfl
    unfold WaitRun.look
    cases hresolved : p.resolved with
    | error err => exact hlook.caught hopen err
    | ok result =>
      cases result with
      | failure reason tried =>
        refine hlook.unresolved hopen (fun m between hlast => ?_) tried
        have hshows := hsight.shows m between hlast
        rwa [Poll.Shows, hresolved] at hshows
      | success e i tried =>
        have hshows : ∀ m between, lastRect s.seen = some (m, between) → e = m.found ∧
            ∀ page, p.checked = .ok page → page.checkActionableState.attached ∧
              page.checkActionableState.visible = true := fun m between hlast => by
          have hshows := hsight.shows m between hlast
          rwa [Poll.Shows, hresolved] at hshows
        dsimp only
        unfold WaitRun.check
        cases hchecked : p.checked with
        | error err => exact hlook.caught hopen err
        | ok page =>
          have hslot : page.slot = some e := hsight.slot e i tried page hresolved (.inl hchecked)
          have hcheck : WaitInv cfg { s.pause cfg p with
              now := (s.pause cfg p).now + p.resolveMs + p.checkMs
              lastState := some page.checkActionableState } :=
            hlook.congr (Nat.le_add_right _ _) rfl rfl rfl
          have hkept : ∀ m between, lastRect s.seen = some (m, between) → e = m.found ∧
              page.checkActionableState.attached ∧
              page.checkActionableState.visible = true := fun m between hlast =>
            ⟨(hshows m between hlast).1, (hshows m between hlast).2 page hchecked⟩
          dsimp only
          split_ifs with hattached hrequired hvisible
          · exact hcheck.checked hopen hslot hkept
          · exact hcheck.ended fun hreq => by rw [hreq] at hrequired; cases hrequired
          · exact hcheck.checked hopen hslot hkept
          · simp only [Bool.not_eq_true', Bool.not_eq_false] at hattached
            simp only [Bool.or_eq_true, Bool.not_eq_true', not_or, Bool.not_eq_false] at hvisible
            rw [hslot]
            exact hcheck.measure hopen
              (fun m between hlast => Nat.le_trans (hripe m between hlast) (Nat.le_add_right _ _))
              hattached hvisible.1 hvisible.2
              (fun page' hmeasured => hsight.slot e i tried page' hresolved (.inr hmeasured))
              (fun m between hlast => (hshows m between hlast).1) i tried

end

/-! ## Runs -/

/-- **In every run whose polls keep the element of a kept reading in sight, the promise holds.** What
is returned can be acted on, and its rectangle was the same in two readings of it a stability window
apart, between which it was always there; and no two readings are compared that are of different
elements, or that a failed resolution lies between. -/
theorem resolveActionable_waitsForStable (cfg : WaitConfig) (polls : List (Poll E))
    (h : (resolveActionable E cfg).Along (fun s p => p.KeepsSight s)
      (resolveActionable E cfg).init polls) :
    WaitsForStable cfg ((resolveActionable E cfg).run polls) := by
  refine (Machine.invariant_runFrom (fun s p hs hp => hs.step hp) ?_ h : WaitInv cfg _).holds
  refine ⟨⟨fun _ _ _ _ hnone => ?_, fun m before earlier between hsuffix => ?_, fun _ => rfl⟩,
    fun _ _ _ hnone => ?_⟩
  · cases hnone
  · exact absurd (List.suffix_nil.1 hsuffix) (List.cons_ne_nil _ _)
  · cases hnone

/-- A poll that finds an element that can be acted on, at this rectangle. -/
def Poll.finds (e : E) (rect : BoundingRect) : Poll E where
  resolved := .ok (.success e 0 [])
  checked := .ok ⟨some e, fun _ => ⟨true, true, true, true, true⟩, fun _ => rect⟩
  measured := .ok ⟨some e, fun _ => ⟨true, true, true, true, true⟩, fun _ => rect⟩

/-- An element that is found twice. -/
theorem resolveActionable_waitsForStable_example :
    let polls : List (Poll ℕ) := [.finds 7 ⟨10, 10, 100, 40⟩, .finds 7 ⟨10, 10, 100, 40⟩]
    let s := (resolveActionable ℕ {}).run polls
    s.outcome = some (.returned 7 0 []) ∧ WaitsForStable {} s := by
  refine ⟨by decide +kernel, resolveActionable_waitsForStable {} _ ⟨⟨?_, ?_⟩, ⟨?_, ?_⟩, trivial⟩⟩
  · rintro _ _ _ _ ⟨⟩ (⟨⟨⟩⟩ | ⟨⟨⟩⟩) <;> rfl
  · rintro _ _ ⟨⟩
  · rintro _ _ _ _ ⟨⟩ (⟨⟨⟩⟩ | ⟨⟨⟩⟩) <;> rfl
  · rintro _ _ ⟨⟩
    exact ⟨rfl, by rintro _ ⟨⟩; exact ⟨rfl, rfl⟩⟩

/-- **Two waits that return too early.** The first one compares the rectangles of two elements, with
a resolution in between that found none; in the second one the element was hidden in between. -/
theorem resolveActionable_returnsEarly :
    let rect : BoundingRect := ⟨10, 10, 100, 40⟩
    let missing : Poll ℕ :=
      { Poll.finds 0 rect with resolved := .ok (.failure .notFound []) }
    let hidden : Poll ℕ := { Poll.finds 7 rect with
      checked := .ok ⟨some 7, fun _ => ⟨false, true, true, true, true⟩, fun _ => rect⟩ }
    let first := (resolveActionable ℕ {}).run [.finds 3 rect, missing, .finds 7 rect]
    let second := (resolveActionable ℕ {}).run [.finds 7 rect, hidden, .finds 7 rect]
    (first.outcome = some (.returned 7 0 []) ∧ ¬ WaitsForStable {} first) ∧
      second.outcome = some (.returned 7 0 []) ∧ ¬ WaitsForStable {} second := by
  refine ⟨⟨by decide +kernel, fun h => ?_⟩, by decide +kernel, fun h => ?_⟩
  · obtain ⟨m, earlier, between, before, hseen, hlast, -, -, -, -, -, hslot, hearlier, -⟩ :=
      h.returned rfl 7 0 [] (by decide +kernel)
    have hcompared := h.compared m before earlier between (hseen ▸ List.suffix_refl _) hlast
    obtain ⟨-, rfl⟩ := List.cons.inj hseen
    obtain ⟨-, rfl⟩ := Prod.mk.inj (Option.some.inj hlast)
    exact hcompared.2 (by decide +kernel)
  · obtain ⟨m, earlier, between, before, hseen, hlast, -, -, -, -, -, -, -, -, -, hshows⟩ :=
      h.returned rfl 7 0 [] (by decide +kernel)
    obtain ⟨-, rfl⟩ := List.cons.inj hseen
    obtain ⟨-, rfl⟩ := Prod.mk.inj (Option.some.inj hlast)
    have hhidden := hshows _ (List.mem_singleton.2 rfl)
    exact absurd hhidden.2.2 (by decide +kernel)

end Yantra
