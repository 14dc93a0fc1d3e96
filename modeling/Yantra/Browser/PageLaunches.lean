import Yantra.Browser.PageSlots

/-!
# The launches of the page pool

The pool shares one launch: while it is not settled nobody begins another one, and the closing
awaits the one it sees. Every browser that runs is the session, or is being closed by a launch or by
the closing, as long as no launch with relaunches left begins after the closing.

## Main definitions

* `Attempts` — at most one launch is in flight.
* `LaunchInv` — the invariant of the launches.

## Main results

* `LaunchInv.startSession`, `LaunchInv.advance`, `LaunchInv.discard`,
  `LaunchInv.launched`, `LaunchInv.clears` — what a launch does keeps it.
* `LaunchInv.close`, `LaunchInv.closeSees`, `LaunchInv.closeSettles` — what the
  closing does keeps it.
-/

namespace Yantra

open List Option Bool PagePool

def PagePool.runs (s : PagePool) (session : ℕ) : Bool := s.browsers[session]?.getD false

/-! ## The attempts -/

/-- A launch is resolved for those that await it. -/
def LaunchStage.isCleared : LaunchStage → Bool
  | .cleared _ => true
  | _ => false

def LaunchStage.closes : LaunchStage → Option ℕ
  | .releasing session | .discarding session => some session
  | _ => none

/-- The attempt that `launching` names is the only one not cleared. -/
structure Attempts (launching : Option ℕ) (attempts : List LaunchStage) : Prop where
  current : ∀ id, launching = some id →
    ∃ stage, attempts[id]? = some stage ∧ stage.isCleared = false
  cleared : ∀ id stage, attempts[id]? = some stage → stage.isCleared = false →
    launching = some id

namespace Attempts

variable {launching : Option ℕ} {attempts : List LaunchStage} {id : ℕ} {stage : LaunchStage}

lemma getElem_set (h : Attempts launching attempts) (hid : launching = some id) (id' : ℕ) :
    (attempts.set id stage)[id']? = if id' = id then some stage else attempts[id']? := by
  obtain ⟨old, hold, -⟩ := h.current id hid
  obtain ⟨hlt, -⟩ := List.getElem?_eq_some_iff.1 hold
  split
  · next heq => rw [heq, getElem?_set_self hlt]
  · next hne => rw [getElem?_set_ne fun heq => hne heq.symm]

lemma advance (h : Attempts launching attempts) (hid : launching = some id)
    (hstage : stage.isCleared = false) : Attempts launching (attempts.set id stage) where
  current id' hid' := by
    rw [hid, some.injEq] at hid'
    exact ⟨stage, by rw [h.getElem_set hid, if_pos hid'.symm], hstage⟩
  cleared id' stage' hget huncleared := by
    rw [h.getElem_set hid] at hget
    split at hget
    · next heq => rw [hid, heq]
    · exact h.cleared id' stage' hget huncleared

lemma clear (h : Attempts launching attempts) (hid : launching = some id) (hstage : stage.isCleared)
    : Attempts none (attempts.set id stage) where
  current id' hid' := by cases hid'
  cleared id' stage' hget huncleared := by
    rw [h.getElem_set hid] at hget
    split at hget
    · rw [some.injEq] at hget
      rw [← hget, hstage] at huncleared
      cases huncleared
    · next hne =>
      have hcurrent := h.cleared id' stage' hget huncleared
      rw [hid, some.injEq] at hcurrent
      exact absurd hcurrent.symm hne

lemma begin (h : Attempts none attempts) (hstage : stage.isCleared = false) :
    Attempts (some attempts.length) (attempts ++ [stage]) where
  current id' hid' := by
    rw [some.injEq] at hid'
    exact ⟨stage, by rw [← hid', getElem?_concat_length], hstage⟩
  cleared id' stage' hget huncleared := by
    rw [getElem?_append] at hget
    split at hget
    · cases h.cleared id' stage' hget huncleared
    · next hlt =>
      have hzero : id' - attempts.length = 0 := by
        obtain ⟨hlt', -⟩ := List.getElem?_eq_some_iff.1 hget
        simpa using hlt'
      rw [show id' = attempts.length by omega]

end Attempts

/-! ## The invariant of the launches -/

namespace PagePool

variable (s : PagePool)

/-- A launch that began before the pool was closed, so that the closing awaits it. -/
def First (id : ℕ) : Prop :=
  s.browsers.length = s.launches ∧ (s.closing = none ∨ s.closing = some (.awaitingLaunch id))

def Seen (session : ℕ) : Prop :=
  ∃ a, s.closing = some (.awaitingLaunch a) ∧ s.attempts[a]? = some (.cleared (some session))

/-- The closing closes the session, has failed, or finds its browser gone. -/
def Closes (session : ℕ) : Prop :=
  s.Seen session ∨ s.closing = some (.closingSession session) ∨ s.closing = some .failed ∨
    s.runs session = false

/-- Something still has the session, so that it will be closed. -/
def Owned (session : ℕ) : Prop :=
  s.session = some session ∨
    (∃ (id : ℕ) (stage : LaunchStage), s.attempts[id]? = some stage ∧
      stage.closes = some session) ∨
    s.Seen session ∨ s.closing = some (.closingSession session) ∨ s.closing = some .failed

/-- What holds of the pool while its current launch is in a stage. -/
def Phase (id : ℕ) : LaunchStage → Prop
  | .releasing dead =>
    s.session = none ∧ (s.First id ∨ (s.mayLaunch = false ∧ s.Closes dead))
  | .launching => s.session = none ∧ s.mayLaunch = true ∧ s.First id
  | .discarding _ => s.session = none ∧ s.closing = some (.awaitingLaunch id)
  | .settled result => s.session = none ∨ s.session = result
  | .cleared _ => False

end PagePool

structure LaunchInv (s : PagePool) : Prop where
  attempts : Attempts s.launching s.attempts
  phase : ∀ id stage, s.launching = some id → s.attempts[id]? = some stage → s.Phase id stage
  awaits : ∀ a, s.closing = some (.awaitingLaunch a) → ∃ stage, s.attempts[a]? = some stage ∧
    ∀ result, stage = .cleared result → s.session = none ∨ s.session = result
  shut : s.closing = none ∨ (∃ a, s.closing = some (.awaitingLaunch a)) ∨ s.session = none
  counted : s.closing = none → s.browsers.length = s.launches
  bound : s.browsers.length ≤ 1 + s.maxRelaunches
  owned : ∀ session, s.runs session = true → s.Owned session
  resolved : s.closing = some .resolved → ∀ session, s.runs session = false

structure SameLaunch (s s' : PagePool) : Prop where
  maxRelaunches : s'.maxRelaunches = s.maxRelaunches
  session : s'.session = s.session
  launching : s'.launching = s.launching
  closing : s'.closing = s.closing
  launches : s'.launches = s.launches
  attempts : s'.attempts = s.attempts
  browsers : s'.browsers = s.browsers

namespace SameLaunch

variable {s s' s'' : PagePool}

lemma trans (h : SameLaunch s s') (h' : SameLaunch s' s'') : SameLaunch s s'' :=
  ⟨h'.maxRelaunches.trans h.maxRelaunches, h'.session.trans h.session,
    h'.launching.trans h.launching, h'.closing.trans h.closing, h'.launches.trans h.launches,
    h'.attempts.trans h.attempts, h'.browsers.trans h.browsers⟩

variable (s) (u : ℕ) (use use' : PageUse)

lemma withUse : SameLaunch s (s.withUse u use) :=
  ⟨.refl _, .refl _, .refl _, .refl _, .refl _, .refl _, .refl _⟩

lemma recordTimeout : SameLaunch s (s.recordTimeout use) :=
  ⟨.refl _, .refl _, .refl _, .refl _, .refl _, .refl _, .refl _⟩

lemma releaseSlot : SameLaunch s (s.releaseSlot u use) := by
  unfold PagePool.releaseSlot
  dsimp only
  split
  · exact ⟨.refl _, .refl _, .refl _, .refl _, .refl _, .refl _, .refl _⟩
  · split <;> exact ⟨.refl _, .refl _, .refl _, .refl _, .refl _, .refl _, .refl _⟩

lemma acquireSlot : SameLaunch s (s.acquireSlot u use) := by
  unfold PagePool.acquireSlot
  split
  · exact withUse s u _
  · split <;> exact ⟨.refl _, .refl _, .refl _, .refl _, .refl _, .refl _, .refl _⟩

lemma cancel : SameLaunch s (s.cancel u use) := by
  unfold PagePool.cancel
  split <;> exact ⟨.refl _, .refl _, .refl _, .refl _, .refl _, .refl _, .refl _⟩

lemma runPage (late : Bool) (stage : PageUseStage) : SameLaunch s (s.runPage u use late stage) := by
  unfold PagePool.runPage
  split
  · exact withUse s u _
  · split <;> exact ⟨.refl _, .refl _, .refl _, .refl _, .refl _, .refl _, .refl _⟩

end SameLaunch

variable {stage : LaunchStage} {id session b : ℕ}

namespace LaunchInv

variable {s s' : PagePool}

lemma congr (h : LaunchInv s) (hsame : SameLaunch s s') : LaunchInv s' := by
  obtain ⟨hmax, hsession, hlaunching, hclosing, hlaunches, hattempts, hbrowsers⟩ := hsame
  have hphase : ∀ id stage, s'.Phase id stage ↔ s.Phase id stage := by
    intro id stage
    cases stage <;>
      simp only [PagePool.Phase, PagePool.First, PagePool.Closes, PagePool.Seen, runs,
        mayLaunch, hmax, hsession, hclosing, hlaunches, hattempts, hbrowsers]
  have howned : ∀ session, s'.Owned session ↔ s.Owned session := by
    intro session
    simp only [PagePool.Owned, PagePool.Seen, hsession, hclosing, hattempts]
  have hruns : ∀ session, s'.runs session = s.runs session := by
    intro session
    simp only [runs, hbrowsers]
  refine ⟨?_, ?_, ?_, ?_, ?_, ?_, ?_, ?_⟩
  · rw [hlaunching, hattempts]
    exact h.attempts
  · rw [hlaunching, hattempts]
    exact fun id stage hid hget => (hphase id stage).2 (h.phase id stage hid hget)
  · rw [hclosing, hattempts, hsession]
    exact h.awaits
  · rw [hclosing, hsession]
    exact h.shut
  · rw [hclosing, hbrowsers, hlaunches]
    exact h.counted
  · rw [hbrowsers, hmax]
    exact h.bound
  · exact fun session hrun => (howned session).2 (h.owned session (hruns session ▸ hrun))
  · rw [hclosing]
    exact fun hresolved session => (hruns session).trans (h.resolved hresolved session)

variable {session : ℕ}

lemma isCleared_of_closes (h : stage.closes = some session) : stage.isCleared = false := by
  cases stage with
  | cleared result => cases h
  | releasing dead => rfl
  | launching => rfl
  | discarding other => rfl
  | settled result => rfl

lemma current_of_closes (h : LaunchInv s)
    (hget : s.attempts[id]? = some stage) (hcloses : stage.closes = some session) :
    s.launching = some id :=
  h.attempts.cleared id stage hget (isCleared_of_closes hcloses)

lemma releasing_or_discarding (h : stage.closes = some session) :
    stage = .releasing session ∨ stage = .discarding session := by
  cases stage with
  | releasing dead => exact Or.inl (congrArg _ (some.inj h))
  | discarding other => exact Or.inr (congrArg _ (some.inj h))
  | launching => cases h
  | settled result => cases h
  | cleared result => cases h

/-! ## What the provider does -/

lemma runs_stop (s : PagePool) (session : ℕ) (ok : Bool) (b : ℕ) :
    (s.stop session ok).runs b = (s.runs b && !(ok && decide (b = session))) := by
  unfold stop runs
  cases ok with
  | false => simp
  | true =>
    simp only [if_true]
    by_cases hb : b = session
    · subst hb
      by_cases hlt : b < s.browsers.length
      · simp [getElem?_set_self hlt]
      · have hle := Nat.le_of_not_lt hlt
        simp [set_eq_of_length_le hle, getElem?_eq_none hle]
    · rw [getElem?_set_ne (Ne.symm hb)]
      simp [hb]

lemma length_stop (s : PagePool) (session : ℕ) (ok : Bool) :
    (s.stop session ok).browsers.length = s.browsers.length := by
  unfold stop
  cases ok
  · rfl
  · exact length_set

variable {ok : Bool}

lemma runs_of_stop (h : (s.stop session ok).runs b) : s.runs b ∧ ¬ (ok ∧ b = session) := by
  rw [runs_stop, and_eq_true, not_eq_true', and_eq_false_iff] at h
  refine ⟨h.1, fun ⟨hok, hb⟩ => ?_⟩
  rcases h.2 with hok' | hb'
  · rw [hok] at hok'
    cases hok'
  · exact of_decide_eq_false hb' hb

lemma stop_of_runs (h : s.runs b = false) : (s.stop session ok).runs b = false := by
  rw [runs_stop, h, Bool.false_and]

lemma none_runs (h : LaunchInv s) (hget : s.attempts[id]? = some .launching) (b : ℕ) :
    s.runs b = false := by
  have hid : s.launching = some id := h.attempts.cleared id _ hget rfl
  obtain ⟨hsession, -, -, hclosing⟩ := h.phase id _ hid hget
  rw [← not_eq_true]
  intro hrun
  rcases h.owned b hrun with
    howned | ⟨id', stage, hget', hcloses⟩ | ⟨a, ha, hseen⟩ | howned | howned
  · rw [hsession] at howned
    cases howned
  · have hid' := h.current_of_closes hget' hcloses
    rw [hid, some.injEq] at hid'
    rw [← hid', hget, some.injEq] at hget'
    rw [← hget'] at hcloses
    cases hcloses
  · rcases hclosing with hclosing | hclosing
    · rw [hclosing] at ha
      cases ha
    · rw [hclosing, some.injEq, CloseStage.awaitingLaunch.injEq] at ha
      rw [← ha, hget] at hseen
      cases hseen
  · rcases hclosing with hclosing | hclosing <;> rw [hclosing] at howned <;> cases howned
  · rcases hclosing with hclosing | hclosing <;> rw [hclosing] at howned <;> cases howned

lemma only_runs (h : LaunchInv s) (hget : s.attempts[id]? = some .launching)
    (hb : (s.browsers ++ [true])[b]?.getD false) : b = s.browsers.length := by
  rw [getElem?_append] at hb
  split at hb
  · exact absurd (hb.symm.trans (h.none_runs hget b)) (by simp)
  · next hlt =>
    by_contra hne
    have hbeyond : [true].length ≤ b - s.browsers.length := by
      rw [length_singleton]
      omega
    rw [getElem?_eq_none hbeyond] at hb
    cases hb

/-- A launch begins, where the pool is not being closed or no relaunches are left.

**Proof sketch.** Nothing was in flight, so a closing that awaits a launch has yet to see one that
is cleared: the dead session that is released now is the one it will find there. -/
lemma startSession (h : LaunchInv s) (hnone : s.launching = none)
    (hclosed : s.closing.isSome = true → s.mayLaunch = false) : LaunchInv s.startSession := by
  have hcleared : ∀ (id : ℕ) (stage : LaunchStage), s.attempts[id]? = some stage →
      stage.isCleared = true := by
    intro id stage hget
    rw [← not_eq_false]
    intro huncleared
    rw [h.attempts.cleared id stage hget huncleared] at hnone
    cases hnone
  have hkeep : ∀ {id : ℕ} {stage new : LaunchStage}, s.attempts[id]? = some stage →
      (s.attempts ++ [new])[id]? = some stage := by
    intro id stage new hget
    rw [getElem?_append_left (List.getElem?_eq_some_iff.1 hget).1, hget]
  have hbegin : ∀ {new : LaunchStage}, new.isCleared = false →
      Attempts (some s.attempts.length) (s.attempts ++ [new]) := by
    intro new hnew
    have hattempts := h.attempts
    rw [hnone] at hattempts
    exact hattempts.begin hnew
  have hlast : ∀ {id : ℕ} {stage new : LaunchStage}, some s.attempts.length = some id →
      (s.attempts ++ [new])[id]? = some stage → id = s.attempts.length ∧ stage = new := by
    intro id stage new hid hget
    rw [Option.some.injEq] at hid
    rw [← hid, getElem?_concat_length, Option.some.injEq] at hget
    exact ⟨hid.symm, hget.symm⟩
  have hfirst : s.closing = none ∨ ∃ c, s.closing = some c ∧ s.mayLaunch = false := by
    cases hclosing : s.closing with
    | none => exact Or.inl rfl
    | some c => exact Or.inr ⟨c, rfl, hclosed (by rw [hclosing]; rfl)⟩
  unfold PagePool.startSession
  dsimp only
  split
  · next dead hdead =>
    have hseen : s.closing = none ∨ s.Seen dead := by
      rcases h.shut with hclosing | ⟨a, ha⟩ | hsession
      · exact Or.inl hclosing
      · obtain ⟨stage, hget, hresult⟩ := h.awaits a ha
        cases hstage : stage with
        | cleared result =>
          rcases hresult result hstage with hsession | hsession
          · rw [hdead] at hsession
            cases hsession
          · exact Or.inr ⟨a, ha, by rw [hget, hstage, ← hsession, hdead]⟩
        | _ => simpa [hstage, LaunchStage.isCleared] using hcleared a stage hget
      · rw [hdead] at hsession
        cases hsession
    refine ⟨hbegin rfl, ?_, ?_, Or.inr (Or.inr rfl), h.counted, h.bound, ?_, h.resolved⟩
    · intro id stage hid hget
      obtain ⟨rfl, rfl⟩ := hlast hid hget
      refine ⟨rfl, ?_⟩
      rcases hfirst with hclosing | ⟨c, hc, hmay⟩
      · exact Or.inl ⟨h.counted hclosing, Or.inl hclosing⟩
      · rcases hseen with hclosing | ⟨a, ha, hget'⟩
        · rw [hclosing] at hc
          cases hc
        · exact Or.inr ⟨hmay, Or.inl ⟨a, ha, hkeep hget'⟩⟩
    · intro a ha
      obtain ⟨stage, hget, -⟩ := h.awaits a ha
      exact ⟨stage, hkeep hget, fun _ _ => Or.inl rfl⟩
    · intro b hb
      rcases h.owned b hb with howned | ⟨id, stage, hget, hcloses⟩ | ⟨a, ha, hget⟩ | howned
      · rw [hdead, Option.some.injEq] at howned
        exact Or.inr (Or.inl ⟨_, .releasing dead, getElem?_concat_length,
          congrArg some howned⟩)
      · exact Or.inr (Or.inl ⟨id, stage, hkeep hget, hcloses⟩)
      · exact Or.inr (Or.inr (Or.inl ⟨a, ha, hkeep hget⟩))
      · exact Or.inr (Or.inr (Or.inr howned))
  · next hsession =>
    refine ⟨hbegin (by split <;> rfl), ?_, ?_, h.shut, h.counted, h.bound, ?_, h.resolved⟩
    · intro id stage hid hget
      obtain ⟨rfl, rfl⟩ := hlast hid hget
      split
      · next hmay =>
        rcases hfirst with hclosing | ⟨c, hc, hmay'⟩
        · exact ⟨hsession, hmay, h.counted hclosing, Or.inl hclosing⟩
        · rw [hmay] at hmay'
          cases hmay'
      · exact Or.inl hsession
    · intro a ha
      obtain ⟨stage, hget, hresult⟩ := h.awaits a ha
      exact ⟨stage, hkeep hget, hresult⟩
    · intro b hb
      rcases h.owned b hb with howned | ⟨id, stage, hget, hcloses⟩ | ⟨a, ha, hget⟩ | howned
      · exact Or.inl howned
      · exact Or.inr (Or.inl ⟨id, stage, hkeep hget, hcloses⟩)
      · exact Or.inr (Or.inr (Or.inl ⟨a, ha, hkeep hget⟩))
      · exact Or.inr (Or.inr (Or.inr howned))

/-- The current launch gets on to a stage in which it closes nothing, a browser that it had to close
having ended.

**Proof sketch.** Nobody else is in flight, and what the closing awaits is either this launch, still
not cleared, or another one, which stays as it is. -/
lemma advance (h : LaunchInv s) (session : ℕ) (ok : Bool) {id : ℕ} {stage new : LaunchStage}
    (hget : s.attempts[id]? = some stage) (huncleared : stage.isCleared = false)
    (hnew : new.isCleared = false) (hnew' : new.closes = none)
    (hends : ∀ b, stage.closes = some b → b = session ∧ (ok = true ∨ s.runs b = false))
    (hphase : s.Phase id new) :
    LaunchInv ((s.stop session ok).withAttempt id new) := by
  have hid : s.launching = some id := h.attempts.cleared id stage hget huncleared
  have hset : ∀ id' : ℕ, (s.attempts.set id new)[id']? =
      if id' = id then some new else s.attempts[id']? :=
    h.attempts.getElem_set hid
  have hkeep : ∀ {a : ℕ} {result : Option ℕ}, s.attempts[a]? = some (.cleared result) →
      (s.attempts.set id new)[a]? = some (.cleared result) := by
    intro a result hresult
    rw [hset, if_neg, hresult]
    rintro rfl
    rw [hget, Option.some.injEq] at hresult
    rw [hresult] at huncleared
    cases huncleared
  refine ⟨h.attempts.advance hid hnew, ?_, ?_, h.shut, ?_, ?_, ?_, ?_⟩
  · intro id' stage' hid' hget'
    rw [show ((s.stop session ok).withAttempt id new).launching = s.launching from rfl, hid,
      Option.some.injEq] at hid'
    subst hid'
    rw [show ((s.stop session ok).withAttempt id new).attempts = s.attempts.set id new from rfl,
      hset, if_pos rfl, Option.some.injEq] at hget'
    subst hget'
    have hfirst : s.First id → ((s.stop session ok).withAttempt id new).First id :=
      fun hfirst => ⟨(length_stop s session ok).trans hfirst.1, hfirst.2⟩
    cases new with
    | releasing dead => cases hnew'
    | launching => exact ⟨hphase.1, hphase.2.1, hfirst hphase.2.2⟩
    | discarding other => cases hnew'
    | settled result => exact hphase
    | cleared result => cases hnew
  · intro a ha
    obtain ⟨stage', hget', hresult⟩ := h.awaits a ha
    by_cases haid : a = id
    · refine ⟨new, by rw [haid]; exact (hset id).trans (if_pos rfl), fun result hcleared => ?_⟩
      rw [hcleared] at hnew
      cases hnew
    · exact ⟨stage', ((hset a).trans (if_neg haid)).trans hget', hresult⟩
  · exact fun hclosing => (length_stop s session ok).trans (h.counted hclosing)
  · exact (length_stop s session ok).symm ▸ h.bound
  · intro b hb
    obtain ⟨hrun, hne⟩ := runs_of_stop hb
    rcases h.owned b hrun with howned | ⟨id', stage', hget', hcloses⟩ | ⟨a, ha, hseen⟩ | howned
    · exact Or.inl howned
    · have hid' := h.current_of_closes hget' hcloses
      rw [hid, Option.some.injEq] at hid'
      rw [← hid', hget, Option.some.injEq] at hget'
      obtain ⟨hb', hends'⟩ := hends b (hget' ▸ hcloses)
      rcases hends' with hok | hruns
      · exact absurd ⟨hok, hb'⟩ hne
      · rw [hrun] at hruns
        cases hruns
    · exact Or.inr (Or.inr (Or.inl ⟨a, ha, hkeep hseen⟩))
    · exact Or.inr (Or.inr (Or.inr howned))
  · exact fun hresolved b => stop_of_runs (h.resolved hresolved b)

lemma discard (h : LaunchInv s) (hget : s.attempts[id]? = some .launching)
    (hclosing : s.closing.isSome) :
    LaunchInv ({ s with browsers := s.browsers ++ [true] }.withAttempt id
      (.discarding s.browsers.length)) := by
  have hid : s.launching = some id := h.attempts.cleared id _ hget rfl
  obtain ⟨hsession, hmay, hcount, hfirst⟩ := h.phase id _ hid hget
  have hawaits : s.closing = some (.awaitingLaunch id) := by
    refine hfirst.resolve_left fun hnone => ?_
    rw [hnone] at hclosing
    cases hclosing
  have hset : ∀ id' : ℕ, (s.attempts.set id (.discarding s.browsers.length))[id']? =
      if id' = id then some (.discarding s.browsers.length) else s.attempts[id']? :=
    h.attempts.getElem_set hid
  refine ⟨h.attempts.advance hid rfl, ?_, ?_, Or.inr (Or.inr hsession), ?_, ?_, ?_, ?_⟩
  · intro id' stage hid' hget'
    have heq : id = id' := some.inj (hid.symm.trans hid')
    subst heq
    have hstage := some.inj (((hset id).trans (if_pos rfl)).symm.trans hget')
    subst hstage
    exact ⟨hsession, hawaits⟩
  · intro a ha
    have heq : id = a := CloseStage.awaitingLaunch.inj (some.inj (hawaits.symm.trans ha))
    exact ⟨.discarding s.browsers.length, (hset a).trans (if_pos heq.symm),
      fun result hcleared => by cases hcleared⟩
  · intro hnone
    cases hawaits.symm.trans hnone
  · have hlt : s.launches < 1 + s.maxRelaunches := of_decide_eq_true hmay
    show (s.browsers ++ [true]).length ≤ 1 + s.maxRelaunches
    rw [length_append, length_singleton]
    omega
  · intro b hb
    have heq : b = s.browsers.length := h.only_runs hget hb
    exact Or.inr (Or.inl ⟨id, _, (hset id).trans (if_pos rfl), congrArg some heq.symm⟩)
  · intro hresolved
    cases hawaits.symm.trans hresolved

lemma launched (h : LaunchInv s) (hget : s.attempts[id]? = some .launching)
    (hclosing : s.closing = none) :
    LaunchInv ({ s with
      browsers := s.browsers ++ [true]
      launches := s.launches + 1
      session := some s.browsers.length
      sessionDead := false }.withAttempt id (.settled (some s.browsers.length))) := by
  have hid : s.launching = some id := h.attempts.cleared id _ hget rfl
  obtain ⟨hsession, hmay, hcount, -⟩ := h.phase id _ hid hget
  have hset : ∀ id' : ℕ, (s.attempts.set id (.settled (some s.browsers.length)))[id']? =
      if id' = id then some (.settled (some s.browsers.length)) else s.attempts[id']? :=
    h.attempts.getElem_set hid
  refine ⟨h.attempts.advance hid rfl, ?_, ?_, Or.inl hclosing, ?_, ?_, ?_, ?_⟩
  · intro id' stage hid' hget'
    have heq : id = id' := some.inj (hid.symm.trans hid')
    subst heq
    have hstage := some.inj (((hset id).trans (if_pos rfl)).symm.trans hget')
    subst hstage
    exact Or.inr rfl
  · intro a ha
    cases hclosing.symm.trans ha
  · intro _
    show (s.browsers ++ [true]).length = s.launches + 1
    rw [length_append, length_singleton, hcount]
  · have hlt : s.launches < 1 + s.maxRelaunches := of_decide_eq_true hmay
    show (s.browsers ++ [true]).length ≤ 1 + s.maxRelaunches
    rw [length_append, length_singleton]
    omega
  · intro b hb
    exact Or.inl (congrArg some (h.only_runs hget hb).symm)
  · intro hresolved
    cases hclosing.symm.trans hresolved

lemma clears (h : LaunchInv s) {result : Option ℕ}
    (hget : s.attempts[id]? = some (.settled result)) :
    LaunchInv ({ s with launching := none }.withAttempt id (.cleared result)) := by
  have hid : s.launching = some id := h.attempts.cleared id _ hget rfl
  have hsettled : s.session = none ∨ s.session = result := h.phase id _ hid hget
  have hset : ∀ id' : ℕ, (s.attempts.set id (.cleared result))[id']? =
      if id' = id then some (.cleared result) else s.attempts[id']? :=
    h.attempts.getElem_set hid
  refine ⟨h.attempts.clear hid rfl, ?_, ?_, h.shut, h.counted, h.bound, ?_, h.resolved⟩
  · intro id' stage hid'
    cases hid'
  · intro a ha
    obtain ⟨stage, hget', hresult⟩ := h.awaits a ha
    by_cases haid : a = id
    · refine ⟨.cleared result, (hset a).trans (if_pos haid), fun result' hcleared => ?_⟩
      rw [← LaunchStage.cleared.inj hcleared]
      exact hsettled
    · exact ⟨stage, ((hset a).trans (if_neg haid)).trans hget', hresult⟩
  · intro b hb
    rcases h.owned b hb with howned | ⟨id', stage, hget', hcloses⟩ | ⟨a, ha, hseen⟩ | howned
    · exact Or.inl howned
    · have heq : id = id' := some.inj (hid.symm.trans (h.current_of_closes hget' hcloses))
      rw [← heq, hget, some.injEq] at hget'
      rw [← hget'] at hcloses
      cases hcloses
    · refine Or.inr (Or.inr (Or.inl ⟨a, ha, (hset a).trans ?_⟩))
      rw [if_neg, hseen]
      rintro rfl
      cases hget.symm.trans hseen
    · exact Or.inr (Or.inr (Or.inr howned))

lemma exits (h : LaunchInv s) (session : ℕ) : LaunchInv (s.stop session true) := by
  have hlength := length_stop s session true
  refine ⟨h.attempts, ?_, h.awaits, h.shut, fun hclosing => hlength.trans (h.counted hclosing),
    hlength.symm ▸ h.bound, ?_, fun hresolved b => stop_of_runs (h.resolved hresolved b)⟩
  · intro id stage hid hget
    have hphase := h.phase id stage hid hget
    have hfirst : s.First id → (s.stop session true).First id :=
      fun hfirst => ⟨hlength.trans hfirst.1, hfirst.2⟩
    cases stage with
    | releasing dead =>
      refine ⟨hphase.1, ?_⟩
      rcases hphase.2 with hphase | ⟨hmay, hseen | hcloses | hcloses | hruns⟩
      · exact Or.inl (hfirst hphase)
      · exact Or.inr ⟨hmay, Or.inl hseen⟩
      · exact Or.inr ⟨hmay, Or.inr (Or.inl hcloses)⟩
      · exact Or.inr ⟨hmay, Or.inr (Or.inr (Or.inl hcloses))⟩
      · exact Or.inr ⟨hmay, Or.inr (Or.inr (Or.inr (stop_of_runs hruns)))⟩
    | launching => exact ⟨hphase.1, hphase.2.1, hfirst hphase.2.2⟩
    | discarding other => exact hphase
    | settled result => exact hphase
    | cleared result => exact hphase
  · exact fun b hb => h.owned b (runs_of_stop hb).1

/-! ## The closing -/

lemma closeAwaits (h : LaunchInv s) (hclosing : s.closing = none) (hid : s.launching = some id) :
    LaunchInv { s with closing := some (.awaitingLaunch id) } := by
  have hnever : ∀ c, s.closing ≠ some c := by simp [hclosing]
  refine ⟨h.attempts, ?_, ?_, Or.inr (Or.inl ⟨id, rfl⟩), ?_, h.bound, ?_, ?_⟩
  · intro id' stage hid' hget
    have heq : id = id' := some.inj (hid.symm.trans hid')
    subst heq
    have hphase := h.phase id stage hid hget
    cases stage with
    | releasing dead =>
      refine ⟨hphase.1, ?_⟩
      rcases hphase.2 with hfirst | ⟨hmay, ⟨a, ha, -⟩ | hcloses | hcloses | hruns⟩
      · exact Or.inl ⟨hfirst.1, Or.inr rfl⟩
      · exact absurd ha (hnever _)
      · exact absurd hcloses (hnever _)
      · exact absurd hcloses (hnever _)
      · exact Or.inr ⟨hmay, Or.inr (Or.inr (Or.inr hruns))⟩
    | launching => exact ⟨hphase.1, hphase.2.1, hphase.2.2.1, Or.inr rfl⟩
    | discarding other => exact absurd hphase.2 (hnever _)
    | settled result => exact hphase
    | cleared result => exact hphase
  · intro a ha
    have heq : id = a := CloseStage.awaitingLaunch.inj (some.inj ha)
    subst heq
    obtain ⟨stage, hget, huncleared⟩ := h.attempts.current id hid
    refine ⟨stage, hget, fun result hcleared => ?_⟩
    rw [hcleared] at huncleared
    cases huncleared
  · intro hnone
    cases hnone
  · intro b hb
    rcases h.owned b hb with howned | howned | ⟨a, ha, -⟩ | howned | howned
    · exact Or.inl howned
    · exact Or.inr (Or.inl howned)
    · exact absurd ha (hnever _)
    · exact absurd howned (hnever _)
    · exact absurd howned (hnever _)
  · intro hresolved
    cases hresolved

lemma closeWith_none (h : LaunchInv s) (hclosing : s.closing = none) (hnone : s.launching = none) :
    LaunchInv (s.closeWith none) := by
  have hnever : ∀ c, s.closing ≠ some c := by simp [hclosing]
  have howner : ∀ b, s.runs b → s.session = some b := by
    intro b hb
    rcases h.owned b hb with howned | ⟨id, stage, hget, hcloses⟩ | ⟨a, ha, -⟩ | howned | howned
    · exact howned
    · cases hnone.symm.trans (h.current_of_closes hget hcloses)
    · exact absurd ha (hnever _)
    · exact absurd howned (hnever _)
    · exact absurd howned (hnever _)
  unfold closeWith
  rw [or_none]
  split
  · next hsession =>
    refine ⟨h.attempts, ?_, ?_, Or.inr (Or.inr hsession), ?_, h.bound, ?_, ?_⟩
    · intro id stage hid
      cases hnone.symm.trans hid
    · intro a ha
      cases ha
    · intro hopen
      cases hopen
    · intro b hb
      cases hsession.symm.trans (howner b hb)
    · intro _ b
      rw [← not_eq_true]
      intro hb
      cases hsession.symm.trans (howner b hb)
  · next session hsession =>
    refine ⟨h.attempts, ?_, ?_, Or.inr (Or.inr rfl), ?_, h.bound, ?_, ?_⟩
    · intro id stage hid
      cases hnone.symm.trans hid
    · intro a ha
      cases ha
    · intro hopen
      cases hopen
    · intro b hb
      have heq : session = b := some.inj (hsession.symm.trans (howner b hb))
      exact Or.inr (Or.inr (Or.inr (Or.inl (by rw [heq]))))
    · intro hresolved
      cases hresolved

lemma close (h : LaunchInv s) : LaunchInv s.close := by
  unfold PagePool.close
  split
  · exact h
  · next hclosing =>
    dsimp only
    have hrejected : LaunchInv { s with waiters := [], uses := s.uses.map PageUse.rejectWaiting } :=
      h.congr ⟨rfl, rfl, rfl, rfl, rfl, rfl, rfl⟩
    split
    · next id hid => exact hrejected.closeAwaits hclosing hid
    · next hnone => exact hrejected.closeWith_none hclosing hnone

/-- The closing goes on with the launch it awaited.

**Proof sketch.** The session is what that launch came to, or has been taken since; what is being
released by then is the session of that launch, or has ended. -/
lemma closeSees (h : LaunchInv s) {a : ℕ} {result : Option ℕ}
    (hclosing : s.closing = some (.awaitingLaunch a))
    (hget : s.attempts[a]? = some (.cleared result)) : LaunchInv (s.closeWith result) := by
  have hother : ∀ c, s.closing = some c → c = .awaitingLaunch a :=
    fun c hc => Option.some.inj (hc.symm.trans hclosing)
  have hsession : s.session = none ∨ s.session = result := by
    obtain ⟨stage, hget', hresult⟩ := h.awaits a hclosing
    exact hresult result (Option.some.inj (hget'.symm.trans hget))
  have hseen : ∀ b, s.Seen b → result = some b := by
    rintro b ⟨a', ha', hget'⟩
    have heq : a' = a := CloseStage.awaitingLaunch.inj (hother _ ha')
    rw [heq] at hget'
    exact LaunchStage.cleared.inj (Option.some.inj (hget.symm.trans hget'))
  -- a launch in flight now is not the one that was awaited
  have hfirst : ∀ id, s.launching = some id → ¬ s.First id := by
    rintro id hid ⟨-, hnone | hawaits⟩
    · cases hnone.symm.trans hclosing
    · obtain ⟨stage, hget', huncleared⟩ := h.attempts.current id hid
      have heq : id = a := CloseStage.awaitingLaunch.inj (hother _ hawaits)
      rw [heq] at hget'
      rw [← Option.some.inj (hget.symm.trans hget')] at huncleared
      cases huncleared
  have hdiscarding : ∀ id b, s.launching = some id → s.attempts[id]? ≠ some (.discarding b) := by
    intro id b hid hget'
    have hawaits : s.closing = some (.awaitingLaunch id) := (h.phase id _ hid hget').2
    have heq : id = a := CloseStage.awaitingLaunch.inj (hother _ hawaits)
    rw [heq] at hget'
    cases hget.symm.trans hget'
  have hcloses : ∀ b, s.Closes b → result = some b ∨ s.runs b = false := by
    rintro b (hb | hb | hb | hb)
    · exact Or.inl (hseen b hb)
    · cases hother _ hb
    · cases hother _ hb
    · exact Or.inr hb
  have howner : ∀ b, s.runs b = true → s.session = some b ∨ result = some b := by
    intro b hb
    rcases h.owned b hb with howned | ⟨id, stage, hget', hcl⟩ | howned | howned | howned
    · exact Or.inl howned
    · have hid := h.current_of_closes hget' hcl
      rcases releasing_or_discarding hcl with rfl | rfl
      · rcases (h.phase id _ hid hget').2 with hfirst' | ⟨-, hcl'⟩
        · exact absurd hfirst' (hfirst id hid)
        · rcases hcloses b hcl' with hb' | hb'
          · exact Or.inr hb'
          · cases hb.symm.trans hb'
      · exact absurd hget' (hdiscarding id b hid)
    · exact Or.inr (hseen b howned)
    · cases hother _ howned
    · cases hother _ howned
  unfold closeWith
  split
  · next hor =>
    obtain ⟨hnone, rfl⟩ := or_eq_none_iff.1 hor
    have hgone : ∀ b, s.runs b = false := by
      intro b
      rw [← not_eq_true]
      intro hb
      rcases howner b hb with hb' | hb'
      · cases hnone.symm.trans hb'
      · cases hb'
    refine ⟨h.attempts, ?_, ?_, Or.inr (Or.inr hnone), ?_, h.bound, ?_, fun _ => hgone⟩
    · intro id stage hid hget'
      have hphase := h.phase id stage hid hget'
      cases stage with
      | releasing dead =>
        refine ⟨hphase.1, Or.inr ⟨?_, Or.inr (Or.inr (Or.inr (hgone dead)))⟩⟩
        exact (hphase.2.resolve_left (hfirst id hid)).1
      | launching => exact absurd hphase.2.2 (hfirst id hid)
      | discarding other => exact absurd hget' (hdiscarding id other hid)
      | settled result => exact hphase
      | cleared result => exact hphase
    · intro a' ha'
      cases ha'
    · intro hopen
      cases hopen
    · intro b hb
      exact absurd (hb.symm.trans (hgone b)) (by simp)
  · next session hor =>
    have hresult : result = some session := by
      rcases hsession with hnone | hsame
      · rwa [hnone, none_or] at hor
      · rw [hsame, Option.or_self] at hor
        exact hor
    refine ⟨h.attempts, ?_, ?_, Or.inr (Or.inr rfl), ?_, h.bound, ?_, ?_⟩
    · intro id stage hid hget'
      have hphase := h.phase id stage hid hget'
      cases stage with
      | releasing dead =>
        obtain ⟨hmay, hcl⟩ := hphase.2.resolve_left (hfirst id hid)
        refine ⟨rfl, Or.inr ⟨hmay, ?_⟩⟩
        rcases hcloses dead hcl with hdead | hruns
        · have heq : session = dead := Option.some.inj (hresult.symm.trans hdead)
          exact Or.inr (Or.inl (by rw [heq]))
        · exact Or.inr (Or.inr (Or.inr hruns))
      | launching => exact absurd hphase.2.2 (hfirst id hid)
      | discarding other => exact absurd hget' (hdiscarding id other hid)
      | settled result => exact Or.inl rfl
      | cleared result => exact hphase
    · intro a' ha'
      cases ha'
    · intro hopen
      cases hopen
    · intro b hb
      have heq : session = b := by
        rcases howner b hb with hb' | hb'
        · exact Option.some.inj (hresult.symm.trans
            ((hsession.resolve_left (by simp [hb'])).symm.trans hb'))
        · exact Option.some.inj (hresult.symm.trans hb')
      exact Or.inr (Or.inr (Or.inr (Or.inl (by rw [heq]))))
    · intro hresolved
      cases hresolved

lemma closeSettles (h : LaunchInv s) (ok : Bool)
    (hclosing : s.closing = some (.closingSession session)) :
    LaunchInv { s.stop session ok with closing := some (if ok then .resolved else .failed) } := by
  have hother : ∀ c, s.closing = some c → c = .closingSession session :=
    fun c hc => some.inj (hc.symm.trans hclosing)
  have hsession : s.session = none := by
    rcases h.shut with hnone | ⟨a, ha⟩ | hsession
    · cases hnone.symm.trans hclosing
    · cases hother _ ha
    · exact hsession
  have hfirst : ∀ id, ¬ s.First id := by
    rintro id ⟨-, hnone | hawaits⟩
    · cases hnone.symm.trans hclosing
    · cases hother _ hawaits
  have hcloses : ∀ b, s.Closes b → b = session ∨ s.runs b = false := by
    rintro b (⟨a, ha, -⟩ | hb | hb | hb)
    · cases hother _ ha
    · exact Or.inl (CloseStage.closingSession.inj (hother _ hb))
    · cases hother _ hb
    · exact Or.inr hb
  have howner : ∀ b, s.runs b → b = session := by
    intro b hb
    rcases h.owned b hb with howned | ⟨id, stage, hget, hcl⟩ | ⟨a, ha, -⟩ | howned | howned
    · cases hsession.symm.trans howned
    · have hid := h.current_of_closes hget hcl
      rcases releasing_or_discarding hcl with rfl | rfl
      · obtain ⟨-, hcl'⟩ := (h.phase id _ hid hget).2.resolve_left (hfirst id)
        exact (hcloses b hcl').resolve_right (by simp [hb])
      · cases hother _ (h.phase id _ hid hget).2
    · cases hother _ ha
    · exact CloseStage.closingSession.inj (hother _ howned)
    · cases hother _ howned
  have hlength := length_stop s session ok
  refine ⟨h.attempts, ?_, ?_, Or.inr (Or.inr hsession), ?_, hlength.symm ▸ h.bound, ?_, ?_⟩
  · intro id stage hid hget
    have hphase := h.phase id stage hid hget
    cases stage with
    | releasing dead =>
      obtain ⟨hmay, hcl⟩ := hphase.2.resolve_left (hfirst id)
      refine ⟨hphase.1, Or.inr ⟨hmay, ?_⟩⟩
      rcases hcloses dead hcl with rfl | hruns
      · cases ok with
        | false => exact Or.inr (Or.inr (Or.inl rfl))
        | true => exact Or.inr (Or.inr (Or.inr ((runs_stop s dead true dead).trans (by simp))))
      · exact Or.inr (Or.inr (Or.inr (stop_of_runs hruns)))
    | launching => exact absurd hphase.2.2 (hfirst id)
    | discarding other => cases hother _ hphase.2
    | settled result => exact hphase
    | cleared result => exact hphase
  · intro a ha
    cases ok <;> cases ha
  · intro hopen
    cases hopen
  · intro b hb
    obtain ⟨hrun, hne⟩ := runs_of_stop hb
    cases ok with
    | false => exact Or.inr (Or.inr (Or.inr (Or.inr rfl)))
    | true => exact absurd ⟨rfl, howner b hrun⟩ hne
  · intro hresolved b
    cases ok with
    | false => cases hresolved
    | true =>
      rw [← not_eq_true]
      intro hb
      have hb' : (s.stop session true).runs b := hb
      obtain ⟨hrun, hne⟩ := runs_of_stop hb'
      exact hne ⟨rfl, howner b hrun⟩

end LaunchInv

end Yantra
