import Yantra.Agent.RunEvents

/-!
# The recovery of a stalled run

`RecoveryRunner` and the code that applies its rungs: a tool call that made no progress, a refused
call after the freeze and an overlong turn each take the next rung of the ladder. A steer goes to
the session, the freeze closes exploration, the stop interrupts the run. A message the session
cannot take, and the one of an overlong turn, is kept and sent as a prompt of its own when the
running one ends. Whatever throws on the way fails open: progress is no longer enforced, and the
freeze is lifted.

What the latches of a run do is `ExecutionState`'s; a run with its recovery holds one. The text of
a rung's message comes with the event that makes it read.

## Main definitions

* `RecoveryRun`, `RecoveryEvent`, `recovery` — the state and the machine.
* `RecoveryRun.takeRung` — a trigger, and the rung it takes.

## Main results

* `state_handled` — on the latches, the machine does what `executionStep` does.
* `recoveryInv_run` — the invariant of the ladder, the freeze and the messages.
* `recoveryLadder_climbed` — the rungs in order, the freeze, and the prompts recovery sends.
-/

namespace Yantra

open List Option Nat Prod

/-! ## A run and its recovery -/

/-- `RunHealth.progress.recovery` -/
structure RecoveryHistory where
  rungs : List RecoveryRung := []
  triggers : List BudgetReason := []
  refusedAfterFreeze : Nat := 0
  steerIdle : Nat := 0
  deriving DecidableEq, Repr, Inhabited

/-- A run, its recovery, and what the two share with the session and the budgets. -/
structure RecoveryRun where
  state : ExecutionState := {}
  history : RecoveryHistory := {}
  /-- `budgetTracker.isFrozen()` -/
  frozen : Bool := false
  pendingRecovery : Option String := none
  /-- The steers of `steeringTail` that have not settled. -/
  steering : List String := []
  turnLimitAborts : Nat := 0
  turnAbortPending : Bool := false
  /-- How often progress failed open. -/
  failOpens : Nat := 0
  /-- The prompts that recovery sent. -/
  reprompts : List String := []
  deriving Inhabited

def RecoveryRun.disableProgress (s : RecoveryRun) : RecoveryRun :=
  { s with
      state := s.state.disableProgress
      frozen := false
      failOpens := s.failOpens + 1 }

/-- `onTrigger`, where the ladder has `rung` next. -/
def RecoveryRun.noteTaken (rung : RecoveryRung) (trigger : RecoveryTrigger) (s : RecoveryRun) :
    RecoveryRun :=
  { s with
      state := { s.state with rungs := s.state.rungs + 1 }
      history := { s.history with
        rungs := s.history.rungs ++ [rung]
        triggers := s.history.triggers ++ [trigger.reason] } }

/-- What `fireRecovery` does at the freeze. -/
def RecoveryRun.noteFired (rung : RecoveryRung) (trigger : RecoveryTrigger) (s : RecoveryRun) :
    RecoveryRun :=
  { s with
      state := noteRung rung trigger s.state
      frozen := s.frozen || decide (rung = .freeze) }

/-- A trigger takes the next rung and fires it, and whether there is a message to deliver: none is
left where the ladder is exhausted, where the code throws, and where the rung stops the run. -/
def RecoveryRun.takeRung (trigger : RecoveryTrigger) (fault : Option RecoveryFault)
    (s : RecoveryRun) : RecoveryRun × Bool :=
  match recoveryLadder[s.state.rungs]? with
  | none => (s, false)
  | some rung =>
    match fault with
    -- `rebase` or the building of the message throws, before the freeze
    | some .building => ((s.noteTaken rung trigger).disableProgress, false)
    | some .emitting => (((s.noteTaken rung trigger).noteFired rung trigger).disableProgress, false)
    | _ =>
      let fired := (s.noteTaken rung trigger).noteFired rung trigger
      ({ fired with state := stopAtRung rung trigger fired.state }, decide (rung ≠ .stop))

/-- A message the session did not take. -/
def RecoveryRun.deferMessage (message : String) (s : RecoveryRun) : RecoveryRun :=
  { s with
      history := { s.history with steerIdle := s.history.steerIdle + 1 }
      pendingRecovery := some message }

/-- `steer`; `throws` tells whether `session.steer` does at once. -/
def RecoveryRun.steer (message : String) (throws : Bool) (s : RecoveryRun) : RecoveryRun :=
  if throws then s.disableProgress.deferMessage message
  else { s with steering := s.steering ++ [message] }

def turnLimitMessage (turnTimeoutMs : Nat) (message : String) : String :=
  "Your last turn exceeded the " ++ secondsText turnTimeoutMs ++
    "s thinking limit and was stopped.\n" ++ message

/-! ## Events -/

/-- How `session.steer` settles. -/
inductive SteerOutcome where
  | queued | idle | rejected
  deriving DecidableEq, Repr, Inhabited

inductive RecoveryEvent where
  /-- An event of the run, with the message a rung it takes builds, and whether steering throws. -/
  | handled (e : RunEvent) (message : String) (steerThrows : Bool)
  /-- The first steer that has not settled does. -/
  | steerSettles (outcome : SteerOutcome)
  /-- `noteProgressFailure`: the middleware fails to measure progress. -/
  | measurementFails
  /-- The session ends the running prompt, or the run is interrupted under it. -/
  | promptEnds
  deriving Inhabited

/-- `onRefusalAfterFreeze` notes the count even where it takes no rung. -/
def RecoveryRun.noteRefusals (e : ToolFinished) (s : RecoveryRun) : RecoveryRun :=
  if e.metadata.budgetLimit = some "stalled" then
    { s with history := { s.history with refusedAfterFreeze := e.refusedAfterFreeze } }
  else s

def RecoveryRun.recoverCall (cfg : ExecutionConfig) (e : ToolFinished) (message : String)
    (steerThrows : Bool) (s : RecoveryRun) : RecoveryRun :=
  let taken := s.takeRung (.stalled e.noProgressCalls e.msSinceProgress) e.fault
  if e.metadata.budgetLimit = some "stalled" ∧ recoveryLadder[s.state.rungs]? = some .stop ∧
      refusalsAfterFreeze ≤ e.refusedAfterFreeze then
    taken.1
  else if cfg.counted e.tool ∧ isStalled e.noProgressCalls e.msSinceProgress e.softAtStall then
    if taken.2 then taken.1.steer message steerThrows else taken.1
  else s

/-- What the progress checkpoint of an ended call leads to. -/
def RecoveryRun.afterCheckpoint (cfg : ExecutionConfig) (e : ToolFinished) (message : String)
    (steerThrows : Bool) (s : RecoveryRun) : RecoveryRun :=
  if e.fault = some .checkpoint then s.disableProgress
  else if s.state.enforcing ∧ s.state.repeatedFailure = none ∧ s.state.interrupted = false then
    (s.noteRefusals e).recoverCall cfg e message steerThrows
  else s

def RecoveryRun.turnExpires (cfg : ExecutionConfig) (fault : Option RecoveryFault)
    (message : String) (s : RecoveryRun) : RecoveryRun :=
  if s.state.turnTimer then
    let taken := { s with state := { s.state with turnTimer := false } }.takeRung
      (.turnTimeout cfg.turnTimeoutMs) fault
    if taken.2 then
      { taken.1 with
          turnLimitAborts := taken.1.turnLimitAborts + 1
          pendingRecovery := some (turnLimitMessage cfg.turnTimeoutMs message)
          turnAbortPending := true }
    else taken.1
  else s

def RecoveryRun.settleSteer (outcome : SteerOutcome) (s : RecoveryRun) : RecoveryRun :=
  match s.steering, outcome with
  | [], _ => s
  | _ :: rest, .queued => { s with steering := rest }
  | message :: rest, .idle => { s with steering := rest }.deferMessage message
  | message :: rest, .rejected =>
    { s with steering := rest }.disableProgress.deferMessage message

/-- The end of `runPrompt`: a kept message is sent as a prompt of its own. -/
def RecoveryRun.endPrompt (cfg : ExecutionConfig) (s : RecoveryRun) : RecoveryRun :=
  let ended := { s with state := { s.state with turnTimer := false }, turnAbortPending := false }
  match s.pendingRecovery with
  | none => ended
  | some message =>
    if s.state.interrupted = false ∧ s.state.published = false then
      { ended with
          state := executionStep cfg ended.state .promptSent
          pendingRecovery := none
          reprompts := s.reprompts ++ [message] }
    else ended

def recoveryStep (cfg : ExecutionConfig) (s : RecoveryRun) : RecoveryEvent → RecoveryRun
  | .handled (.toolFinished e) message steerThrows =>
    { s with
        state := trackFailureStreak cfg e.tool e.metadata e.softAtBreaker
          (latchTool e s.state) }.afterCheckpoint cfg e message steerThrows
  | .handled (.turnTimer fault) message _ => s.turnExpires cfg fault message
  | .handled .progressFault _ _ => s.disableProgress
  | .handled e _ _ => { s with state := executionStep cfg s.state e }
  | .steerSettles outcome => s.settleSteer outcome
  | .measurementFails =>
    { s with
        state := { s.state with enforcing := false }
        frozen := false
        failOpens := s.failOpens + 1 }
  | .promptEnds => s.endPrompt cfg

def recovery (cfg : ExecutionConfig) : Machine RecoveryRun RecoveryEvent where
  init := {}
  step := recoveryStep cfg

open RecoveryRun

/-! ## The latches -/

@[simp] lemma state_takeRung (trigger : RecoveryTrigger) (fault : Option RecoveryFault)
    (s : RecoveryRun) : (s.takeRung trigger fault).1.state = onTrigger trigger fault s.state := by
  unfold takeRung onTrigger
  cases recoveryLadder[s.state.rungs]? with
  | none => rfl
  | some rung =>
    cases fault with
    | none => rfl
    | some fault => cases fault <;> rfl

@[simp] lemma state_noteRefusals (e : ToolFinished) (s : RecoveryRun) :
    (s.noteRefusals e).state = s.state := by
  unfold noteRefusals
  split_ifs <;> rfl

variable (cfg : ExecutionConfig)

lemma state_afterCheckpoint (e : ToolFinished) (message : String) (s : RecoveryRun) :
    (s.afterCheckpoint cfg e message false).state = recoverAfter cfg e s.state := by
  have hsteer : ∀ t : RecoveryRun, (t.steer message false).state = t.state := fun _ => rfl
  simp only [afterCheckpoint, recoverCall, recoverAfter,
    apply_ite state, hsteer, ite_self, state_takeRung, state_noteRefusals]
  rfl

/-- On the latches the machine does what `executionStep` does, where steering does not throw. -/
theorem state_handled (s : RecoveryRun) (e : RunEvent) (message : String) :
    (recoveryStep cfg s (.handled e message false)).state = executionStep cfg s.state e := by
  cases e with
  | toolFinished e => exact state_afterCheckpoint cfg e message _
  | turnTimer fault =>
    simp only [recoveryStep, turnExpires, executionStep]
    by_cases htimer : s.state.turnTimer
    · rw [if_pos htimer, if_pos htimer, apply_ite state, ite_self, state_takeRung]
    · rw [if_neg htimer, if_neg htimer]
  | _ => rfl

/-- What the ladder reads of the latches. -/
def ExecutionState.ladder (s : ExecutionState) : Nat × Bool := (s.rungs, s.enforcing)

@[simp] lemma ladder_interrupt (s : ExecutionState) (reason : BudgetReason) :
    (s.interrupt reason).ladder = s.ladder := rfl

variable (rung : RecoveryRung)

@[simp] lemma ladder_noteRung (trigger : RecoveryTrigger) (s : ExecutionState) :
    (noteRung rung trigger s).ladder = s.ladder := by
  cases rung <;> rfl

@[simp] lemma ladder_stopAtRung (trigger : RecoveryTrigger) (s : ExecutionState) :
    (stopAtRung rung trigger s).ladder = s.ladder := by
  cases rung <;> cases trigger <;> rfl

@[simp] lemma ladder_latchTool (e : ToolFinished) (s : ExecutionState) :
    (latchTool e s).ladder = s.ladder := by
  simp only [latchTool, latchHandoff, latchBudget, latchPublished]
  split_ifs <;> rfl

@[simp] lemma ladder_trackFailureStreak (tool : String) (metadata : ToolMetadata) (soft : Bool)
    (s : ExecutionState) :
    (trackFailureStreak cfg tool metadata soft s).ladder = s.ladder := by
  simp only [trackFailureStreak]
  split
  · rfl
  · split_ifs <;> rfl
  · rfl
  · rfl

/-! ## What a step can do -/

/-- What no step undoes: rungs are only added, and the freeze is lifted by failing open alone. -/
structure RecoveryRun.Advances (s t : RecoveryRun) : Prop where
  rungs : s.history.rungs <+: t.history.rungs
  frozen : s.frozen = true → t.frozen = true ∨ s.failOpens < t.failOpens
  failOpens : s.failOpens ≤ t.failOpens

lemma advances_of_eq {s t : RecoveryRun} (hrungs : t.history.rungs = s.history.rungs)
    (hfrozen : t.frozen = s.frozen) (hopens : t.failOpens = s.failOpens) : s.Advances t where
  rungs := hrungs.symm ▸ prefix_refl _
  frozen hs := .inl (by rw [hfrozen, hs])
  failOpens := Nat.le_of_eq hopens.symm

lemma RecoveryRun.Advances.refl (s : RecoveryRun) : s.Advances s := advances_of_eq rfl rfl rfl

lemma RecoveryRun.Advances.trans {s t u : RecoveryRun} (h : s.Advances t) (h' : t.Advances u) :
    s.Advances u where
  rungs := h.rungs.trans h'.rungs
  frozen hs := by
    rcases h.frozen hs with ht | ht
    · exact (h'.frozen ht).imp_right (Nat.lt_of_le_of_lt h.failOpens)
    · exact .inr (Nat.lt_of_lt_of_le ht h'.failOpens)
  failOpens := Nat.le_trans h.failOpens h'.failOpens

lemma advances_disableProgress (s : RecoveryRun) : s.Advances s.disableProgress where
  rungs := prefix_refl _
  frozen _ := .inr (lt_succ_self _)
  failOpens := le_succ _

lemma advances_noteTaken (trigger : RecoveryTrigger) (s : RecoveryRun) :
    s.Advances (s.noteTaken rung trigger) where
  rungs := prefix_append _ _
  frozen := .inl
  failOpens := Nat.le_refl _

lemma advances_noteFired (trigger : RecoveryTrigger) (s : RecoveryRun) :
    s.Advances (s.noteFired rung trigger) where
  rungs := prefix_refl _
  frozen hs := .inl (by rw [noteFired, hs, Bool.true_or])
  failOpens := Nat.le_refl _

lemma advances_takeRung (trigger : RecoveryTrigger) (fault : Option RecoveryFault) (s : RecoveryRun)
    : s.Advances (s.takeRung trigger fault).1 := by
  unfold takeRung
  split
  · exact .refl s
  · rename_i rung _
    have htaken := advances_noteTaken rung trigger s
    have hfired := htaken.trans (advances_noteFired rung trigger _)
    split
    · exact htaken.trans (advances_disableProgress _)
    · exact hfired.trans (advances_disableProgress _)
    · exact hfired.trans (advances_of_eq rfl rfl rfl)

lemma advances_steer (message : String) (throws : Bool) (s : RecoveryRun) :
    s.Advances (s.steer message throws) := by
  unfold steer
  split_ifs
  · exact (advances_disableProgress s).trans (advances_of_eq rfl rfl rfl)
  · exact advances_of_eq rfl rfl rfl

lemma advances_afterCheckpoint (e : ToolFinished) (message : String) (steerThrows : Bool)
    (s : RecoveryRun) :
    s.Advances (s.afterCheckpoint cfg e message steerThrows) := by
  have hnoted : s.Advances (s.noteRefusals e) := by
    unfold noteRefusals
    split_ifs <;> exact advances_of_eq rfl rfl rfl
  simp only [afterCheckpoint, recoverCall]
  split_ifs
  · exact advances_disableProgress s
  · exact hnoted.trans (advances_takeRung _ _ _)
  · exact (hnoted.trans (advances_takeRung _ _ _)).trans (advances_steer _ _ _)
  · exact hnoted.trans (advances_takeRung _ _ _)
  · exact hnoted
  · exact .refl s

lemma advances_settleSteer (outcome : SteerOutcome) (s : RecoveryRun) :
    s.Advances (s.settleSteer outcome) := by
  unfold settleSteer
  split
  · exact .refl s
  · exact advances_of_eq rfl rfl rfl
  · exact advances_of_eq rfl rfl rfl
  · rename_i message rest _
    have hsettled : s.Advances { s with steering := rest } := advances_of_eq rfl rfl rfl
    exact (hsettled.trans (advances_disableProgress _)).trans (advances_of_eq rfl rfl rfl)

lemma advances_recoveryStep (s : RecoveryRun) (e : RecoveryEvent) :
    s.Advances (recoveryStep cfg s e) := by
  cases e with
  | handled e message throws =>
    cases e with
    | toolFinished e =>
      have hlatched : ∀ state, s.Advances { s with state } := fun _ => advances_of_eq rfl rfl rfl
      exact (hlatched _).trans (advances_afterCheckpoint cfg e message throws _)
    | turnTimer fault =>
      have hcleared : s.Advances { s with state := { s.state with turnTimer := false } } :=
        advances_of_eq rfl rfl rfl
      simp only [recoveryStep, turnExpires]
      split_ifs
      · exact (hcleared.trans (advances_takeRung _ _ _)).trans (advances_of_eq rfl rfl rfl)
      · exact hcleared.trans (advances_takeRung _ _ _)
      · exact .refl s
    | progressFault => exact advances_disableProgress s
    | _ => exact advances_of_eq rfl rfl rfl
  | steerSettles outcome => exact advances_settleSteer outcome s
  | measurementFails =>
    exact ⟨prefix_refl _, fun _ => .inr (lt_succ_self _), le_succ _⟩
  | promptEnds =>
    simp only [recoveryStep, endPrompt]
    split
    · exact advances_of_eq rfl rfl rfl
    · split_ifs <;> exact advances_of_eq rfl rfl rfl

/-! ## The invariant -/

/-- The messages that recovery sent, or still has to deliver. -/
def RecoveryRun.messages (s : RecoveryRun) : Nat :=
  s.reprompts.length + s.steering.length + s.pendingRecovery.toList.length

/-- The rungs taken that have a message. -/
def RecoveryRun.spoken (s : RecoveryRun) : Nat :=
  s.history.rungs.countP fun rung => decide (rung ≠ .stop)

/-- The invariant of a run and its recovery, where `owed` more messages are to be delivered: the
rungs taken are the first of the ladder, the freeze holds unless progress failed open, and every
message is of a rung of its own. -/
structure RecoveryInv (owed : Nat) (s : RecoveryRun) : Prop where
  rungs : s.history.rungs = recoveryLadder.take s.state.rungs
  within : s.state.rungs ≤ recoveryLadder.length
  triggers : s.history.triggers.length = s.history.rungs.length
  freeze : .freeze ∈ s.history.rungs → s.frozen = true ∨ 0 < s.failOpens
  failedOpen : 0 < s.failOpens → s.state.enforcing = false
  messages : s.messages + owed ≤ s.spoken

/-- What the invariant reads, the messages apart. -/
def RecoveryRun.core (s : RecoveryRun) :
    List RecoveryRung × List BudgetReason × (Nat × Bool) × Bool × Nat :=
  (s.history.rungs, s.history.triggers, s.state.ladder, s.frozen, s.failOpens)

namespace RecoveryInv

variable {owed : Nat} {s t : RecoveryRun}

lemma congr {owed' : Nat} (h : RecoveryInv owed s) (hcore : t.core = s.core)
    (hmessages : t.messages + owed' ≤ s.messages + owed) : RecoveryInv owed' t := by
  simp only [core, ExecutionState.ladder, Prod.mk.injEq] at hcore
  obtain ⟨hrungs, htriggers, ⟨hstate, henforcing⟩, hfrozen, hopens⟩ := hcore
  refine ⟨?_, ?_, ?_, ?_, ?_, ?_⟩
  · rw [hrungs, hstate, h.rungs]
  · rw [hstate]; exact h.within
  · rw [htriggers, hrungs, h.triggers]
  · rw [hrungs, hfrozen, hopens]; exact h.freeze
  · rw [hopens, henforcing]; exact h.failedOpen
  · rw [spoken, hrungs]
    exact Nat.le_trans hmessages h.messages

lemma failOpen (h : RecoveryInv owed s) (hrungs : t.history = s.history)
    (hstate : t.state.rungs = s.state.rungs) (hopens : 0 < t.failOpens)
    (henforcing : t.state.enforcing = false) (hmessages : t.messages = s.messages) :
    RecoveryInv owed t where
  rungs := by rw [hrungs, hstate, h.rungs]
  within := by rw [hstate]; exact h.within
  triggers := by rw [hrungs, h.triggers]
  freeze _ := .inr hopens
  failedOpen _ := henforcing
  messages := by
    rw [hmessages, spoken, hrungs]
    exact h.messages

lemma disableProgress (h : RecoveryInv owed s) : RecoveryInv owed s.disableProgress :=
  h.failOpen rfl rfl (succ_pos _) rfl rfl

lemma take {rung : RecoveryRung} {trigger : RecoveryTrigger} (h : RecoveryInv 0 s)
    (hnext : recoveryLadder[s.state.rungs]? = some rung)
    (hhistory : t.history = (s.noteTaken rung trigger).history)
    (hstate : t.state.rungs = s.state.rungs + 1)
    (hfreeze : s.frozen ∨ 0 < s.failOpens ∨ rung = .freeze →
      t.frozen ∨ 0 < t.failOpens)
    (hfailed : 0 < t.failOpens → t.state.enforcing = false) (hmessages : t.messages = s.messages) :
    RecoveryInv (decide (rung ≠ .stop)).toNat t where
  rungs := by
    rw [hhistory, hstate, take_add_one, hnext, ← h.rungs]
    rfl
  within := by
    rw [hstate]
    exact (List.getElem?_eq_some_iff.1 hnext).1
  triggers := by
    rw [hhistory, noteTaken, length_append, length_append, h.triggers]
    rfl
  freeze hmem := by
    rw [hhistory, noteTaken] at hmem
    rcases mem_append.1 hmem with hmem | hmem
    · exact hfreeze (or_assoc.1 (.inl (h.freeze hmem)))
    · exact hfreeze (.inr (.inr (mem_singleton.1 hmem).symm))
  failedOpen := hfailed
  messages := by
    have hspoken : t.spoken = s.spoken + (decide (rung ≠ .stop)).toNat := by
      rw [spoken, hhistory, noteTaken, countP_append]
      cases rung <;> rfl
    rw [hmessages, hspoken]
    exact Nat.add_le_add_right h.messages _

/-- A trigger keeps the invariant, and owes the message it leaves to deliver. -/
lemma takeRung (h : RecoveryInv 0 s) (trigger : RecoveryTrigger) (fault : Option RecoveryFault) :
    RecoveryInv (s.takeRung trigger fault).2.toNat (s.takeRung trigger fault).1 := by
  unfold RecoveryRun.takeRung
  split
  · exact h
  · rename_i rung hnext
    split
    · have htaken : RecoveryInv _ (s.noteTaken rung trigger).disableProgress :=
        h.take hnext rfl rfl (fun _ => .inr (succ_pos _)) (fun _ => rfl) rfl
      exact htaken.congr rfl (Nat.le_add_right _ _)
    · have hnote := congrArg fst
        (ladder_noteRung rung trigger { s.state with rungs := s.state.rungs + 1 })
      have htaken : RecoveryInv _
          ((s.noteTaken rung trigger).noteFired rung trigger).disableProgress :=
        h.take hnext rfl hnote (fun _ => .inr (succ_pos _)) (fun _ => rfl) rfl
      exact htaken.congr rfl (Nat.le_add_right _ _)
    · have hladder : ∀ u : ExecutionState,
          (stopAtRung rung trigger (noteRung rung trigger u)).ladder = u.ladder := fun u => by simp
      refine h.take hnext rfl (congrArg fst (hladder _)) ?_ ?_ rfl
      · rintro (hfrozen | hopens | rfl)
        · exact .inl (by simp [noteFired, noteTaken, hfrozen])
        · exact .inr hopens
        · exact .inl (Bool.or_true _)
      · exact fun hopens => (congrArg snd (hladder _)).trans (h.failedOpen hopens)

lemma steer (h : RecoveryInv 1 s) (message : String) (throws : Bool) :
    RecoveryInv 0 (s.steer message throws) := by
  unfold RecoveryRun.steer
  split_ifs
  · refine h.disableProgress.congr rfl ?_
    exact Nat.add_le_add_left (Nat.le_add_left 1 s.pendingRecovery.toList.length) _
  · refine h.congr rfl ?_
    simp only [RecoveryRun.messages, length_append, length_singleton]
    omega

lemma noteRefusals (h : RecoveryInv owed s) (e : ToolFinished) :
    RecoveryInv owed (s.noteRefusals e) := by
  unfold RecoveryRun.noteRefusals
  split_ifs
  · exact h.congr rfl (Nat.le_refl _)
  · exact h

lemma afterCheckpoint (h : RecoveryInv 0 s) (cfg : ExecutionConfig) (e : ToolFinished)
    (message : String) (steerThrows : Bool) :
    RecoveryInv 0 (s.afterCheckpoint cfg e message steerThrows) := by
  have htaken := (h.noteRefusals e).takeRung (.stalled e.noProgressCalls e.msSinceProgress) e.fault
  simp only [RecoveryRun.afterCheckpoint, recoverCall]
  split_ifs with _ _ _ _ hdelivers
  · exact h.disableProgress
  · exact htaken.congr rfl (Nat.le_add_right _ _)
  · rw [hdelivers] at htaken
    exact htaken.steer message steerThrows
  · exact htaken.congr rfl (Nat.le_add_right _ _)
  · exact h.noteRefusals e
  · exact h

lemma turnExpires (h : RecoveryInv 0 s) (cfg : ExecutionConfig) (fault : Option RecoveryFault)
    (message : String) : RecoveryInv 0 (s.turnExpires cfg fault message) := by
  have hcleared : RecoveryInv 0 { s with state := { s.state with turnTimer := false } } :=
    h.congr rfl (Nat.le_refl _)
  have htaken := hcleared.takeRung (.turnTimeout cfg.turnTimeoutMs) fault
  simp only [RecoveryRun.turnExpires]
  split_ifs with _ hdelivers
  · rw [hdelivers] at htaken
    exact htaken.congr rfl (Nat.add_le_add_left (Nat.le_add_left 1 _) _)
  · exact htaken.congr rfl (Nat.le_add_right _ _)
  · exact h

lemma settleSteer (h : RecoveryInv 0 s) (outcome : SteerOutcome) :
    RecoveryInv 0 (s.settleSteer outcome) := by
  unfold RecoveryRun.settleSteer
  split
  · exact h
  · rename_i message rest hsteering
    refine h.congr rfl ?_
    simp only [RecoveryRun.messages, hsteering, length_cons]
    omega
  · rename_i message rest hsteering
    refine h.congr rfl ?_
    simp only [RecoveryRun.messages, RecoveryRun.deferMessage, hsteering, length_cons,
      toList_some, length_nil]
    omega
  · rename_i message rest hsteering
    refine h.disableProgress.congr rfl ?_
    simp only [RecoveryRun.messages, RecoveryRun.deferMessage, RecoveryRun.disableProgress,
      hsteering, length_cons, toList_some, length_nil]
    omega

lemma endPrompt (h : RecoveryInv 0 s) (cfg : ExecutionConfig) :
    RecoveryInv 0 (s.endPrompt cfg) := by
  simp only [RecoveryRun.endPrompt]
  split
  · exact h.congr rfl (Nat.le_refl _)
  · rename_i message hpending
    split_ifs
    · refine h.congr rfl ?_
      simp only [RecoveryRun.messages, hpending, length_append, length_singleton,
        toList_some, toList_none, length_nil]
      omega
    · exact h.congr rfl (Nat.le_refl _)

lemma step (h : RecoveryInv 0 s) (cfg : ExecutionConfig) (e : RecoveryEvent) :
    RecoveryInv 0 (recoveryStep cfg s e) := by
  cases e with
  | handled e message throws =>
    cases e with
    | toolFinished e =>
      have hlatched : ∀ state : ExecutionState, state.ladder = s.state.ladder →
          RecoveryInv 0 { s with state } := by
        intro state hstate
        exact h.congr (by simp only [core, hstate]) (Nat.le_refl _)
      exact (hlatched _ (by simp)).afterCheckpoint cfg e message throws
    | turnTimer fault => exact h.turnExpires cfg fault message
    | progressFault => exact h.disableProgress
    | assistantText text =>
      refine h.congr ?_ (Nat.le_refl _)
      simp only [recoveryStep, executionStep, core]
      split_ifs <;> rfl
    | turnFinished tokens =>
      refine h.congr ?_ (Nat.le_refl _)
      simp only [recoveryStep, executionStep, core]
      split_ifs <;> rfl
    | _ => exact h.congr rfl (Nat.le_refl _)
  | steerSettles outcome => exact h.settleSteer outcome
  | measurementFails => exact h.failOpen rfl rfl (succ_pos _) rfl rfl
  | promptEnds => exact h.endPrompt cfg

end RecoveryInv

theorem recoveryInv_run (es : List RecoveryEvent) :
    RecoveryInv 0 ((recovery cfg).run es) := by
  have hinit : RecoveryInv 0 (recovery cfg).init :=
    ⟨rfl, Nat.zero_le _, rfl, (fun h => nomatch h), fun h => absurd h (Nat.lt_irrefl _),
      Nat.le_refl _⟩
  exact Machine.invariant_runFrom' (fun _ e hs => hs.step cfg e) hinit es

lemma advances_runFrom (s : RecoveryRun) (es : List RecoveryEvent) :
    s.Advances ((recovery cfg).runFrom s es) := by
  have hstep : ∀ t e, s.Advances t → s.Advances ((recovery cfg).step t e) :=
    fun t e ht => ht.trans (advances_recoveryStep cfg t e)
  exact Machine.invariant_runFrom' hstep (.refl s) es

/-! ## Refinement -/

/-- The events of the run that come with an event of its recovery. -/
def RecoveryEvent.runEvents : RecoveryEvent → List RunEvent
  | .handled e _ _ => [e]
  | _ => []

/-- Where a measurement fails, no turn is being timed. -/
def MeasuresUntimed (s : RecoveryRun) (e : RecoveryEvent) : Prop :=
  match e with
  | .measurementFails => s.state.turnTimer = false
  | _ => True

lemma state_afterCheckpoint_throws (e : ToolFinished) (message : String) (s : RecoveryRun) :
    (s.afterCheckpoint cfg e message true).state = recoverAfter cfg e s.state ∨
      (s.afterCheckpoint cfg e message true).state =
        (recoverAfter cfg e s.state).disableProgress := by
  have hsteer : ∀ t : RecoveryRun, (t.steer message true).state = t.state.disableProgress :=
    fun _ => rfl
  simp only [RecoveryRun.afterCheckpoint, RecoveryRun.recoverCall, recoverAfter,
    state_noteRefusals]
  split_ifs
  all_goals simp [hsteer, RecoveryRun.disableProgress]

lemma exists_execution_step (s : RecoveryRun) (e : RecoveryEvent) (h : MeasuresUntimed s e) :
    ∃ es, e.runEvents.Sublist es ∧
      (recoveryStep cfg s e).state = (execution cfg).runFrom s.state es := by
  cases e with
  | handled e message throws =>
    cases throws with
    | false => exact ⟨[e], .refl _, state_handled cfg s e message⟩
    | true =>
      cases e with
      | toolFinished e =>
        rcases state_afterCheckpoint_throws cfg e message
          { s with
              state := trackFailureStreak cfg e.tool e.metadata e.softAtBreaker
                (latchTool e s.state) } with hstate | hstate
        · exact ⟨[.toolFinished e], .refl _, hstate⟩
        · exact ⟨[.toolFinished e, .progressFault], by simp [RecoveryEvent.runEvents], hstate⟩
      | turnTimer fault =>
        exact ⟨[.turnTimer fault], .refl _, state_handled cfg s (.turnTimer fault) message⟩
      | _ => exact ⟨[_], .refl _, rfl⟩
  | steerSettles outcome =>
    simp only [recoveryStep, RecoveryRun.settleSteer]
    split
    · exact ⟨[], .slnil, rfl⟩
    · exact ⟨[], .slnil, rfl⟩
    · exact ⟨[], .slnil, rfl⟩
    · exact ⟨[.progressFault], nil_sublist _, rfl⟩
  | measurementFails =>
    refine ⟨[.progressFault], nil_sublist _, ?_⟩
    rw [Machine.runFrom_cons, Machine.runFrom_nil]
    change s.state.turnTimer = false at h
    simp [recoveryStep, execution, executionStep, ExecutionState.disableProgress, ← h]
  | promptEnds =>
    simp only [recoveryStep, RecoveryRun.endPrompt]
    split
    · exact ⟨[.outputStarted], nil_sublist _, rfl⟩
    · split_ifs
      · exact ⟨[.outputStarted, .promptSent], nil_sublist _, rfl⟩
      · exact ⟨[.outputStarted], nil_sublist _, rfl⟩

/-- **Recovery refines the run.** Whatever recovery steers, defers and sends, the latches of the run
are those of a run without it, with the same events in the same order and, between them, at most
ended outputs, prompts and faults; so what holds of the latches of every run holds here.

**Proof sketch.** Each step is matched by a few events of the run, and steps matched by runs make
runs matched by runs. -/
theorem recovery_refines_execution (es : List RecoveryEvent)
    (h : (recovery cfg).Along MeasuresUntimed (recovery cfg).init es) :
    ∃ es', (es.flatMap RecoveryEvent.runEvents).Sublist es' ∧
      ((recovery cfg).run es).state = (execution cfg).run es' :=
  Machine.refines_runFrom RecoveryRun.state RecoveryEvent.runEvents (exists_execution_step cfg) h

/-- A measurement that fails between two turns. -/
theorem recovery_refines_execution_between_turns :
    let es := [RecoveryEvent.handled .turnStarted "" false, .handled (.turnFinished 10) "" false,
      .measurementFails, .handled .turnStarted "" false]
    ∃ es', (es.flatMap RecoveryEvent.runEvents).Sublist es' ∧
      ((recovery { maxProviderTokens := 1000, turnTimeoutMs := 1500 }).run es).state =
        (execution { maxProviderTokens := 1000, turnTimeoutMs := 1500 }).run es' :=
  recovery_refines_execution _ _ ⟨trivial, trivial, rfl, trivial, trivial⟩

/-! ## The ladder -/

/-- **The recovery ladder.** In every run the rungs taken are the first of steer, freeze and stop,
and stay so whatever follows; once the freeze is taken it holds unless progress failed open, and a
step that lifts it fails open; and the prompts that recovery sends are at most as many as the rungs
taken that have a message, of which the ladder has two.

**Proof sketch.** The invariant holds after every run. What a step adds is a step lemma of its own,
and the rest of the run adds to it. -/
theorem recoveryLadder_climbed (cfg : ExecutionConfig) (es : List RecoveryEvent) :
    ((recovery cfg).run es).history.rungs <+: [.steer, .freeze, .stop] ∧
    (∀ es', ((recovery cfg).run es).history.rungs <+:
      ((recovery cfg).run (es ++ es')).history.rungs) ∧
    (.freeze ∈ ((recovery cfg).run es).history.rungs →
      ((recovery cfg).run es).frozen = true ∨ 0 < ((recovery cfg).run es).failOpens) ∧
    (∀ e, ((recovery cfg).run es).frozen = true → ((recovery cfg).run (es ++ [e])).frozen = true ∨
      ((recovery cfg).run es).failOpens < ((recovery cfg).run (es ++ [e])).failOpens) ∧
    (0 < ((recovery cfg).run es).failOpens →
      ((recovery cfg).run es).state.enforcing = false) ∧
    ((recovery cfg).run es).reprompts.length ≤
      (((recovery cfg).run es).history.rungs.filter fun rung => decide (rung ≠ .stop)).length ∧
    ((recovery cfg).run es).reprompts.length ≤ 2 := by
  have hinv := recoveryInv_run cfg es
  have hgrows : ∀ es', ((recovery cfg).run es).Advances ((recovery cfg).run (es ++ es')) := by
    intro es'
    rw [Machine.run, Machine.run, Machine.runFrom_append]
    exact advances_runFrom cfg _ es'
  have hladder : ((recovery cfg).run es).history.rungs <+: recoveryLadder := by
    rw [hinv.rungs]
    exact List.take_prefix _ _
  have hsent : ((recovery cfg).run es).reprompts.length ≤ ((recovery cfg).run es).spoken := by
    have hmessages := hinv.messages
    rw [RecoveryRun.messages] at hmessages
    omega
  have htwo : ((recovery cfg).run es).spoken ≤ 2 := hladder.sublist.countP_le
  refine ⟨hladder, fun es' => (hgrows es').rungs, hinv.freeze, fun e => (hgrows [e]).frozen,
    hinv.failedOpen, ?_, Nat.le_trans hsent htwo⟩
  rw [← List.countP_eq_length_filter]
  exact hsent

/-- Two overlong turns, each answered by a prompt of recovery, and a third that stops the run. -/
example :
    let overlong := [RecoveryEvent.handled .turnStarted "" false,
      .handled (.turnTimer none) "Act." false, .promptEnds]
    let s := (recovery { maxProviderTokens := 1000, turnTimeoutMs := 1500 }).run
      (overlong ++ overlong ++ overlong)
    s.history.rungs = [.steer, .freeze, .stop] ∧ s.frozen = true ∧
      s.reprompts = List.replicate 2
        "Your last turn exceeded the 1.5s thinking limit and was stopped.\nAct." := by
  decide +kernel

end Yantra
