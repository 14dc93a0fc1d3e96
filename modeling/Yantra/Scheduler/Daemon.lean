import Yantra.Lib.Machine
import Yantra.Lib.Places
import Yantra.Lib.Recurrence

/-!
# The scheduler daemon

The daemon polls the schedule store and fires what is due. A poll reads the enabled rows and
continues later with what it read; a fire and the resume of a parked run are tasks in the
background, each ending in a write to the store and, last, in its id leaving the set in flight.
Every step at which other work can come between is a step of the machine, and every store
operation may fail.

## Main definitions

* `Schedule` — a row of the store.
* `DaemonState.started`, `DaemonState.gaps` — the history kept beside the state.

## Main results

* `launch_rows`, `launch_frame` — what launching a row leaves alone.
* `inFlight_runFrom` — the set in flight is the set of tasks, and no schedule has two.
-/

namespace Yantra

open List Option

/-! ## The store -/

inductive LastFireStatus where
  | succeeded | failed | handoff | pendingConfirmation | missed
  deriving DecidableEq, Repr, Inhabited

/-- A row of the store. Instants are in milliseconds. -/
structure Schedule where
  id : String
  workflowName : String
  cronExpr : String
  enabled : Bool := true
  createdAt : Nat
  lastFireAt : Option Nat := none
  nextFireAt : Option Nat := none
  lastRunId : Option String := none
  lastStatus : Option LastFireStatus := none
  deriving DecidableEq, Repr, Inhabited

/-- What `markFire` writes. -/
structure MarkFireInput where
  lastFireAt : Nat
  lastRunId : Option String
  lastStatus : LastFireStatus
  nextFireAt : Option Nat
  deriving DecidableEq, Repr, Inhabited

/-- The instant after which a schedule's next occurrence is looked for. -/
def Schedule.lowerBound (r : Schedule) : Nat := r.lastFireAt.getD r.createdAt

/-- A row with a fire's outcome written. -/
def Schedule.marked (patch : MarkFireInput) (r : Schedule) : Schedule :=
  { r with
      lastFireAt := some patch.lastFireAt
      lastRunId := patch.lastRunId
      lastStatus := some patch.lastStatus
      nextFireAt := patch.nextFireAt }

def markFire (id : String) (patch : MarkFireInput) (rows : List Schedule) : List Schedule :=
  rows.map fun r => if r.id = id then r.marked patch else r

def setEnabled (id : String) (enabled : Bool) (rows : List Schedule) : List Schedule :=
  rows.map fun r => if r.id = id then { r with enabled := enabled } else r

def listEnabled (rows : List Schedule) : List Schedule := rows.filter Schedule.enabled

/-! ## Tasks -/

structure FireResult where
  runId : Option String
  status : LastFireStatus
  deriving DecidableEq, Repr, Inhabited

inductive TaskKind where
  /-- The fire of an occurrence. -/
  | fire (firedAt : Nat)
  /-- The resume of a parked run. -/
  | resume
  deriving DecidableEq, Repr, Inhabited

def TaskKind.isFire : TaskKind → Bool
  | .fire _ => true
  | .resume => false

inductive TaskPhase where
  | running
  /-- It is writing its outcome; `inCatch` tells that an error was caught before. -/
  | recording (patch : MarkFireInput) (inCatch : Bool)
  | settled
  deriving DecidableEq, Repr, Inhabited

/-- A background task, with the row it was launched from. -/
structure DaemonTask where
  schedule : Schedule
  kind : TaskKind
  phase : TaskPhase := .running
  deriving DecidableEq, Repr, Inhabited

def DaemonTask.id (t : DaemonTask) : String := t.schedule.id

/-- How the promise a task waits for settles. -/
inductive Settlement where
  | result (r : FireResult)
  /-- A parked run without a decision. -/
  | stillParked
  | threw
  deriving DecidableEq, Repr, Inhabited

inductive WriteOutcome where
  | ok
  /-- The store reports an error. -/
  | err
  /-- The store throws. -/
  | threw
  deriving DecidableEq, Repr, Inhabited

/-! ## The daemon -/

structure DaemonConfig where
  /-- The occurrences of a cron expression, with `nextFire`. -/
  cron : String → Recurrence Nat
  /-- Whether a resumer for parked runs is injected. -/
  resumesParked : Bool := true

inductive DaemonMode where
  | down
  /-- The scan for missed fires, begun at an instant, with the rows left to scan. -/
  | scanning (since : Nat) (rest : List Schedule)
  | polling
  | stopping
  deriving DecidableEq, Repr, Inhabited

/-- A stretch of time during which a schedule could not be fired. -/
structure Gap where
  id : String
  since : Nat
  upTo : Nat
  deriving DecidableEq, Repr, Inhabited

structure DaemonState where
  now : Nat
  rows : List Schedule
  mode : DaemonMode := .down
  /-- Polls that have read the store and not yet continued, with what they read. -/
  polls : List (List Schedule) := []
  tasks : List DaemonTask := []
  inFlight : List String := []
  /-- Every occurrence a fire was started for, with its schedule. -/
  started : List (String × Nat) := []
  /-- Every stretch of time a schedule spent in flight, parked or disabled. -/
  gaps : List Gap := []
  deriving DecidableEq, Repr, Inhabited

/-- What can happen. Polls and tasks are named by their place. -/
inductive DaemonAction where
  | advance (duration : Nat)
  | setEnabled (id : String) (enabled : Bool)
  /-- The process starts and reads the store for the scan. -/
  | start (readOk : Bool)
  /-- The scan goes on to its next row. -/
  | scan (outcome : WriteOutcome)
  | poll (readOk : Bool)
  /-- A poll continues with what it read. -/
  | resumePoll (k : Nat)
  /-- The promise of a task settles. -/
  | settle (k : Nat) (outcome : Settlement)
  /-- The write of a task ends. -/
  | write (k : Nat) (outcome : WriteOutcome)
  /-- The task leaves the set in flight. -/
  | finish (k : Nat)
  | stop
  /-- The process ends, whatever it was doing. -/
  | exit
  deriving DecidableEq, Repr, Inhabited

/-- A row that cannot be fired now: in flight, parked or disabled. -/
def DaemonState.blocked (s : DaemonState) (r : Schedule) : Bool :=
  s.inFlight.contains r.id || decide (r.lastStatus = some .pendingConfirmation) || !r.enabled

/-! ## Launching -/

def dueTime (cfg : DaemonConfig) (s : DaemonState) (r : Schedule) (now : Nat) : Option Nat :=
  if s.inFlight.contains r.id then none
  else
    match (cfg.cron r.cronExpr).next r.lowerBound with
    | none => none
    | some due => if now < due then none else some due

def DaemonState.launched (s : DaemonState) (r : Schedule) (kind : TaskKind) : DaemonState :=
  { s with
      inFlight := r.id :: s.inFlight
      tasks := s.tasks ++ [{ schedule := r, kind := kind }] }

/-- `resumeIfGranted`, up to the resumer it waits for. -/
def resumeIfGranted (cfg : DaemonConfig) (s : DaemonState) (r : Schedule) : DaemonState :=
  if !cfg.resumesParked || s.inFlight.contains r.id then s else s.launched r .resume

/-- `dispatch`, up to the fire it waits for. -/
def dispatch (s : DaemonState) (r : Schedule) (firedAt : Nat) : DaemonState :=
  if s.inFlight.contains r.id then s
  else { s.launched r (.fire firedAt) with started := s.started ++ [(r.id, firedAt)] }

/-- What a poll does with one of the rows it read. -/
def launch (cfg : DaemonConfig) (s : DaemonState) (r : Schedule) : DaemonState :=
  if r.lastStatus = some .pendingConfirmation then resumeIfGranted cfg s r
  else
    match dueTime cfg s r s.now with
    | some firedAt => dispatch s r firedAt
    | none => s

/-! ## Recording -/

/-- The patch of `recordFire`. -/
def firePatch (cfg : DaemonConfig) (r : Schedule) (firedAt : Nat) (status : LastFireStatus)
    (runId : Option String) : MarkFireInput where
  lastFireAt := firedAt
  lastRunId := runId
  lastStatus := status
  nextFireAt := (cfg.cron r.cronExpr).next firedAt

/-- The patch of `resumeIfGranted`: the cadence is kept. -/
def resumePatch (cfg : DaemonConfig) (r : Schedule) (now : Nat) (result : FireResult) :
    MarkFireInput where
  lastFireAt := r.lastFireAt.getD now
  lastRunId := result.runId
  lastStatus := result.status
  nextFireAt := (cfg.cron r.cronExpr).next (r.lastFireAt.getD now)

/-- A task whose promise settles: its outcome is to be recorded, or there is none. -/
def settleTask (cfg : DaemonConfig) (now : Nat) (t : DaemonTask) (outcome : Settlement) :
    DaemonTask :=
  match t.phase, t.kind, outcome with
  | .running, .fire firedAt, .result r =>
      { t with phase := .recording (firePatch cfg t.schedule firedAt r.status r.runId) false }
  | .running, .fire firedAt, .threw =>
      { t with phase := .recording (firePatch cfg t.schedule firedAt .failed none) true }
  | .running, .resume, .result r =>
      { t with phase := .recording (resumePatch cfg t.schedule now r) false }
  | .running, .resume, _ => { t with phase := .settled }
  | _, _, _ => t

/-- A task whose write ends: an error that is thrown is caught once, and the fire recorded as
failed. -/
def writeTask (cfg : DaemonConfig) (t : DaemonTask) (outcome : WriteOutcome)
    (rows : List Schedule) : List Schedule × DaemonTask :=
  match t.phase, outcome with
  | .recording patch _, .ok => (markFire t.id patch rows, { t with phase := .settled })
  | .recording _ inCatch, .threw =>
    match t.kind, inCatch with
    | .fire firedAt, false =>
        (rows, { t with phase := .recording (firePatch cfg t.schedule firedAt .failed none) true })
    | _, _ => (rows, { t with phase := .settled })
  | .recording _ _, .err => (rows, { t with phase := .settled })
  | _, _ => (rows, t)

/-! ## The machine -/

def scanRow (cfg : DaemonConfig) (s : DaemonState) (since : Nat) (r : Schedule)
    (rest : List Schedule) (outcome : WriteOutcome) : DaemonState :=
  match dueTime cfg s r since with
  | none => { s with mode := .scanning since rest }
  | some _ =>
    match outcome with
    | .ok => { s with
        rows := markFire r.id (firePatch cfg r since .missed none) s.rows
        mode := .scanning since rest }
    | .err => { s with mode := .scanning since rest }
    -- the start fails, and no poll loop is armed
    | .threw => { s with mode := .down }

/-- The clock moves on; what is blocked stays blocked meanwhile. -/
def DaemonState.advanced (s : DaemonState) (duration : Nat) : DaemonState :=
  { s with
      now := s.now + duration
      gaps := s.gaps ++ (s.rows.filter s.blocked).map fun r => ⟨r.id, s.now, s.now + duration⟩ }

def daemonStep (cfg : DaemonConfig) (s : DaemonState) : DaemonAction → DaemonState
  | .advance duration => s.advanced duration
  | .setEnabled id enabled => { s with rows := setEnabled id enabled s.rows }
  | .start readOk =>
    match s.mode with
    | .down =>
      { s with mode := if readOk then .scanning s.now (listEnabled s.rows) else .polling }
    | _ => s
  | .scan outcome =>
    match s.mode with
    | .scanning _ [] => { s with mode := .polling }
    | .scanning since (r :: rest) => scanRow cfg s since r rest outcome
    | _ => s
  | .poll readOk =>
    match s.mode with
    | .polling => if readOk then { s with polls := s.polls ++ [listEnabled s.rows] } else s
    | _ => s
  | .resumePoll k =>
    match s.polls[k]? with
    | some read => read.foldl (launch cfg) { s with polls := s.polls.eraseIdx k }
    | none => s
  | .settle k outcome =>
    match s.tasks[k]? with
    | some t => { s with tasks := s.tasks.set k (settleTask cfg s.now t outcome) }
    | none => s
  | .write k outcome =>
    match s.tasks[k]? with
    | some t =>
      { s with
          rows := (writeTask cfg t outcome s.rows).1
          tasks := s.tasks.set k (writeTask cfg t outcome s.rows).2 }
    | none => s
  | .finish k =>
    match s.tasks[k]? with
    | some t =>
      match t.phase with
      | .settled => { s with
          tasks := s.tasks.eraseIdx k
          inFlight := s.inFlight.filter fun id => id ≠ t.id }
      | _ => s
    | none => s
  | .stop =>
    match s.mode with
    | .polling => { s with mode := .stopping }
    | _ => s
  | .exit => { s with mode := .down, polls := [], tasks := [], inFlight := [] }

/-- The daemon over a store, before the process starts. -/
def daemon (cfg : DaemonConfig) (now : Nat) (rows : List Schedule) :
    Machine DaemonState DaemonAction where
  init := { now := now, rows := rows }
  step := daemonStep cfg

/-! ## An instance -/

def everyFive : DaemonConfig where
  cron _ := Recurrence.every 5 (by decide)

/-- A schedule that has never fired. -/
def digestSchedule : Schedule where
  id := "sch-digest"
  workflowName := "digest"
  cronExpr := "*/5 * * * *"
  createdAt := 0

/-! ## What a launch does -/

/-- What a poll launches for a row it read. -/
def launches (cfg : DaemonConfig) (s : DaemonState) (r : Schedule) : Option TaskKind :=
  if s.inFlight.contains r.id then none
  else if r.lastStatus = some .pendingConfirmation then
    if cfg.resumesParked then some .resume else none
  else
    match (cfg.cron r.cronExpr).next r.lowerBound with
    | none => none
    | some due => if s.now < due then none else some (.fire due)

/-- A launch puts what it launches in flight, and is in the history when it is a fire. -/
def DaemonState.withLaunch (s : DaemonState) (r : Schedule) : TaskKind → DaemonState
  | .resume => s.launched r .resume
  | .fire firedAt =>
      { s.launched r (.fire firedAt) with started := s.started ++ [(r.id, firedAt)] }

lemma launch_eq (cfg : DaemonConfig) (s : DaemonState) (r : Schedule) :
    launch cfg s r = ((launches cfg s r).map (s.withLaunch r)).getD s := by
  unfold launch launches resumeIfGranted dueTime dispatch
  cases hin : s.inFlight.contains r.id with
  | true =>
    simp only [if_true, Bool.or_true, ite_self]
    rfl
  | false =>
    simp only [Bool.false_eq_true, if_false, Bool.or_false]
    by_cases hpark : r.lastStatus = some .pendingConfirmation
    · cases cfg.resumesParked <;> simp [hpark, DaemonState.withLaunch]
    · simp only [hpark, if_false]
      cases (cfg.cron r.cronExpr).next r.lowerBound with
      | none => rfl
      | some due =>
        by_cases hdue : s.now < due <;> simp [hdue, DaemonState.withLaunch]

variable {cfg : DaemonConfig} {s : DaemonState}

variable {r : Schedule}

variable {kind : TaskKind}

lemma not_mem_inFlight_of_launches (h : launches cfg s r = some kind) : r.id ∉ s.inFlight := by
  intro hmem
  simp [launches, hmem] at h

lemma fire_of_launches {due : Nat} (h : launches cfg s r = some (.fire due)) :
    (cfg.cron r.cronExpr).next r.lowerBound = some due ∧ due ≤ s.now := by
  unfold launches at h
  split_ifs at h
  · cases h
  · split at h
    · cases h
    · rename_i d hnext
      split_ifs at h with hd
      simp only [some.injEq, TaskKind.fire.injEq] at h
      subst h
      exact ⟨hnext, Nat.le_of_not_lt hd⟩

lemma withLaunch_frame (s : DaemonState) (r : Schedule) (kind : TaskKind) :
    (s.withLaunch r kind).rows = s.rows ∧ (s.withLaunch r kind).now = s.now ∧
      (s.withLaunch r kind).mode = s.mode ∧ (s.withLaunch r kind).polls = s.polls ∧
      (s.withLaunch r kind).gaps = s.gaps := by
  cases kind <;> exact ⟨rfl, rfl, rfl, rfl, rfl⟩

lemma withLaunch_tasks (s : DaemonState) (r : Schedule) (kind : TaskKind) :
    (s.withLaunch r kind).tasks = s.tasks ++ [{ schedule := r, kind := kind }] ∧
      (s.withLaunch r kind).inFlight = r.id :: s.inFlight := by
  cases kind <;> exact ⟨rfl, rfl⟩

lemma launches_of_withLaunch {r r' : Schedule} {kind kind' : TaskKind}
    (h : launches cfg (s.withLaunch r' kind') r = some kind) :
    launches cfg s r = some kind := by
  have hnot := not_mem_inFlight_of_launches h
  rw [(withLaunch_tasks s r' kind').2, mem_cons, not_or] at hnot
  unfold launches at h ⊢
  rw [(withLaunch_frame s r' kind').2.1, (withLaunch_tasks s r' kind').2] at h
  simpa [hnot.1, hnot.2] using h

/-- **The poll rule.** What every launch keeps, a poll keeps: `Cond` is what the rows it read
meet where they are launched, and no launch changes it. -/
lemma foldl_launch (Inv : DaemonState → Prop) (Cond : DaemonState → Schedule → TaskKind → Prop)
    (hstep : ∀ s r kind, Inv s → launches cfg s r = some kind → Cond s r kind →
      Inv (s.withLaunch r kind))
    (hcond : ∀ s r kind r' kind', Cond s r' kind' → Cond (s.withLaunch r kind) r' kind')
    (hs : Inv s) {read : List Schedule}
    (hread : ∀ r ∈ read, ∀ kind, launches cfg s r = some kind → Cond s r kind) :
    Inv (read.foldl (launch cfg) s) := by
  induction read generalizing s with
  | nil => exact hs
  | cons r read ih =>
    rw [foldl_cons, launch_eq]
    cases hl : launches cfg s r with
    | none =>
      exact ih hs fun r' hr' => hread r' (mem_cons_of_mem _ hr')
    | some kind =>
      refine ih (hstep s r kind hs hl (hread r mem_cons_self kind hl)) ?_
      intro r' hr' kind' hl'
      exact hcond s r kind r' kind'
        (hread r' (mem_cons_of_mem _ hr') kind' (launches_of_withLaunch hl'))

lemma foldl_launch' (Inv : DaemonState → Prop)
    (hstep : ∀ s r kind, Inv s → launches cfg s r = some kind → Inv (s.withLaunch r kind))
    (hs : Inv s) (read : List Schedule) : Inv (read.foldl (launch cfg) s) :=
  foldl_launch Inv (fun _ _ _ => True) (fun s r kind hs hl _ => hstep s r kind hs hl)
    (fun _ _ _ _ _ _ => trivial) hs fun _ _ _ _ => trivial

/-! ## Tasks in flight -/

/-- The set in flight is the set of tasks, and no schedule has two of them. -/
structure InFlightInv (s : DaemonState) : Prop where
  mem_iff : ∀ id, id ∈ s.inFlight ↔ id ∈ s.tasks.map DaemonTask.id
  nodup : (s.tasks.map DaemonTask.id).Nodup

lemma settleTask_frame (cfg : DaemonConfig) (now : Nat) (t : DaemonTask) (o : Settlement) :
    (settleTask cfg now t o).schedule = t.schedule ∧ (settleTask cfg now t o).kind = t.kind := by
  unfold settleTask
  split <;> exact ⟨rfl, rfl⟩

lemma writeTask_frame (cfg : DaemonConfig) (t : DaemonTask) (o : WriteOutcome)
    (rows : List Schedule) :
    (writeTask cfg t o rows).2.schedule = t.schedule ∧
      (writeTask cfg t o rows).2.kind = t.kind := by
  unfold writeTask
  repeat' split
  all_goals exact ⟨rfl, rfl⟩

lemma InFlightInv.withLaunch (h : InFlightInv s) (hl : launches cfg s r = some kind) :
    InFlightInv (s.withLaunch r kind) := by
  obtain ⟨htasks, hids⟩ := withLaunch_tasks s r kind
  have hnot := not_mem_inFlight_of_launches hl
  refine ⟨fun id => ?_, ?_⟩
  · rw [htasks, hids, mem_cons, h.mem_iff, map_append, mem_append,
      map_singleton, mem_singleton, or_comm]
    rfl
  · rw [htasks, map_append, nodup_append]
    refine ⟨h.nodup, by simp, ?_⟩
    rintro a ha b hb rfl
    obtain rfl := mem_singleton.1 hb
    exact hnot ((h.mem_iff _).2 ha)

variable {k : Nat}

lemma InFlightInv.set {s s' : DaemonState} (h : InFlightInv s) {t t' : DaemonTask}
    (hk : s.tasks[k]? = some t) (hid : t'.id = t.id) (htasks : s'.tasks = s.tasks.set k t')
    (hinFlight : s'.inFlight = s.inFlight) : InFlightInv s' := by
  have hmap : s'.tasks.map DaemonTask.id = s.tasks.map DaemonTask.id := by
    rw [htasks, Places.map_set_of_eq hk hid]
  refine ⟨fun id => ?_, ?_⟩
  · rw [hinFlight, hmap]
    exact h.mem_iff id
  · rw [hmap]
    exact h.nodup

lemma InFlightInv.eraseIdx {s s' : DaemonState} (h : InFlightInv s) {t : DaemonTask}
    (hk : s.tasks[k]? = some t) (htasks : s'.tasks = s.tasks.eraseIdx k)
    (hinFlight : s'.inFlight = s.inFlight.filter fun id => id ≠ t.id) : InFlightInv s' := by
  have hmap : s'.tasks.map DaemonTask.id = (s.tasks.map DaemonTask.id).eraseIdx k := by
    simp only [htasks, eraseIdx_eq_take_drop_succ, map_append, map_take,
      map_drop]
  have hid : (s.tasks.map DaemonTask.id)[k]? = some t.id := by simp [hk]
  refine ⟨fun id => ?_, ?_⟩
  · rw [hinFlight, hmap, mem_filter, h.mem_iff, mem_eraseIdx_iff_getElem?]
    simp only [ne_eq, decide_not, Bool.not_eq_true', decide_eq_false_iff_not]
    constructor
    · rintro ⟨hmem, hne⟩
      obtain ⟨i, hi⟩ := mem_iff_getElem?.1 hmem
      refine ⟨i, ?_, hi⟩
      rintro rfl
      exact hne (some.inj (hi.symm.trans hid))
    · rintro ⟨i, hne, hi⟩
      refine ⟨mem_of_getElem? hi, ?_⟩
      rintro rfl
      have hlt := (List.getElem?_eq_some_iff.1 hi).choose
      exact hne ((getElem?_inj hlt h.nodup).1 (hi.trans hid.symm))
  · rw [hmap]
    exact h.nodup.sublist (eraseIdx_sublist _ _)

lemma InFlightInv.step (h : InFlightInv s) (a : DaemonAction) :
    InFlightInv (daemonStep cfg s a) := by
  cases a with
  | advance | setEnabled => exact ⟨h.mem_iff, h.nodup⟩
  | start | poll | stop =>
    simp only [daemonStep]
    repeat' split
    all_goals exact ⟨h.mem_iff, h.nodup⟩
  | scan outcome =>
    simp only [daemonStep, scanRow]
    repeat' split
    all_goals exact ⟨h.mem_iff, h.nodup⟩
  | resumePoll k =>
    simp only [daemonStep]
    cases s.polls[k]? with
    | none => exact h
    | some read =>
      have hs : InFlightInv { s with polls := s.polls.eraseIdx k } := ⟨h.mem_iff, h.nodup⟩
      exact foldl_launch' InFlightInv (fun _ _ _ hs hl => hs.withLaunch hl) hs read
  | settle k o =>
    simp only [daemonStep]
    cases hk : s.tasks[k]? with
    | none => exact h
    | some t =>
      exact h.set hk (congrArg Schedule.id (settleTask_frame cfg s.now t o).1) rfl rfl
  | write k o =>
    simp only [daemonStep]
    cases hk : s.tasks[k]? with
    | none => exact h
    | some t =>
      exact h.set hk (congrArg Schedule.id (writeTask_frame cfg t o s.rows).1) rfl rfl
  | finish k =>
    simp only [daemonStep]
    cases hk : s.tasks[k]? with
    | none => exact h
    | some t =>
      simp only
      split
      · exact h.eraseIdx hk rfl rfl
      · exact h
  | exit => exact ⟨by simp [daemonStep], by simp [daemonStep]⟩

lemma inFlight_runFrom (cfg : DaemonConfig) (now : Nat) (rows : List Schedule)
    (acts : List DaemonAction) : InFlightInv ((daemon cfg now rows).run acts) :=
  Machine.invariant_runFrom' (M := daemon cfg now rows) (fun _ a hs => hs.step a)
    ⟨by simp [daemon], by simp [daemon]⟩ acts

end Yantra
