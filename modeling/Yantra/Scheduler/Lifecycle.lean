import Yantra.Scheduler.Daemon

/-!
# Starting and stopping the daemon

`start()` takes the lock, scans for missed fires and arms the poll loop; `stop()` disarms it, waits
for what is in flight and releases the lock. Both go on after what they wait for, and so does a
tick, whatever was called in between: every point at which other work can come between is a step
here. What a tick launches, and what becomes of it, is the daemon's.

## Main definitions

* `LifecycleState`, `LifecycleAction`, `lifecycle` — the object and its calls.
* `StopsInTime` — what a step must meet for that.

## Main results

* `stays_stopped` — once stopped, a run whose steps all meet the condition stays stopped.
* `lifecycle_outlives_stop` — four runs that do not.
-/

namespace Yantra

open List Option

/-! ## Calls under way -/

/-- What a call of `start()` waits for. -/
inductive StartPhase where
  /-- For the lock. -/
  | acquiring
  /-- For the schedules to scan. -/
  | listing
  /-- For the record of a missed fire, with the instant of the scan and the rows left to scan. -/
  | scanning (since : Nat) (rest : List Schedule)
  deriving DecidableEq, Repr, Inhabited

/-- A call that has taken the lock. -/
def StartPhase.hasLock : StartPhase → Bool
  | .acquiring => false
  | _ => true

/-- A call that has scanned every row. -/
def StartPhase.hasScanned : StartPhase → Bool
  | .scanning _ [] => true
  | _ => false

/-- What the call of `stop()` that stops the daemon waits for. -/
inductive StopPhase where
  /-- For the set in flight to empty. -/
  | draining
  /-- For the lock taken under a lease to be released. -/
  | releasing (lease : Nat)
  deriving DecidableEq, Repr, Inhabited

/-! ## The object -/

/-- A `SchedulerDaemon`, the lock and the timers. -/
structure LifecycleState where
  /-- The store, the clock, the ticks that wait for the schedule list, and what is in flight. -/
  work : DaemonState
  /-- The lease under which the daemon holds the lock. -/
  held : Option Nat := none
  /-- How often the lock was taken. -/
  leases : Nat := 0
  /-- `release`: the lease it would release. -/
  release : Option Nat := none
  /-- The intervals that are armed. -/
  intervals : List Nat := []
  /-- How often an interval was armed. -/
  armed : Nat := 0
  handle : Option Nat := none
  stopping : Bool := false
  /-- The calls of `start()` under way. -/
  starts : List StartPhase := []
  /-- The call of `stop()` under way that stops the daemon. -/
  stop : Option StopPhase := none
  /-- History: a call of `stop()` has resolved. -/
  resolved : Bool := false
  /-- History: what was launched after a call of `stop()` had resolved. -/
  late : List DaemonTask := []
  deriving DecidableEq, Repr, Inhabited

/-- What can happen. Calls, ticks and tasks are named by their place. -/
inductive LifecycleAction where
  | advance (duration : Nat)
  | setEnabled (id : String) (enabled : Bool)
  /-- `start()` is called. -/
  | start
  /-- The attempt to take the lock ends. -/
  | acquired (k : Nat) (taken : Bool)
  /-- The schedules to scan are read. -/
  | listed (k : Nat) (outcome : WriteOutcome)
  /-- The scan goes on to its next row, or ends. -/
  | scan (k : Nat) (outcome : WriteOutcome)
  /-- `tick()` is called, by an interval or by hand, and reads the store. -/
  | tick (readOk : Bool)
  /-- A tick continues with what it read. -/
  | resumeTick (k : Nat)
  /-- The promise of a task settles. -/
  | settle (k : Nat) (outcome : Settlement)
  /-- The write of a task ends. -/
  | write (k : Nat) (outcome : WriteOutcome)
  /-- The task leaves the set in flight. -/
  | finish (k : Nat)
  /-- `stop()` is called. -/
  | stop
  /-- `drain` looks at the set in flight. -/
  | drain
  /-- The release of the lock ends. -/
  | released (ok : Bool)
  deriving DecidableEq, Repr, Inhabited

/-! ## Starting -/

/-- The lock is taken, unless it is held; else the call fails. -/
def LifecycleState.acquired (s : LifecycleState) (k : Nat) (taken : Bool) : LifecycleState :=
  match s.starts[k]? with
  | some .acquiring =>
    if taken && s.held.isNone then
      { s with
          held := some s.leases
          leases := s.leases + 1
          release := some s.leases
          starts := s.starts.set k .listing }
    else { s with starts := s.starts.eraseIdx k }
  | _ => s

/-- `markMissedFiresOnStart`, up to its first row. -/
def LifecycleState.listed (s : LifecycleState) (k : Nat) (outcome : WriteOutcome) :
    LifecycleState :=
  match s.starts[k]? with
  | some .listing =>
    match outcome with
    | .ok => { s with starts := s.starts.set k (.scanning s.work.now (listEnabled s.work.rows)) }
    | .err => { s with starts := s.starts.set k (.scanning s.work.now []) }
    | .threw => { s with starts := s.starts.eraseIdx k }
  | _ => s

def LifecycleState.arm (s : LifecycleState) (k : Nat) : LifecycleState :=
  { s with
      intervals := s.intervals ++ [s.armed]
      armed := s.armed + 1
      handle := some s.armed
      starts := s.starts.eraseIdx k }

/-- `markMissedFiresOnStart`, one row. After the last one the poll loop is armed. -/
def LifecycleState.scan (cfg : DaemonConfig) (s : LifecycleState) (k : Nat)
    (outcome : WriteOutcome) : LifecycleState :=
  match s.starts[k]? with
  | some (.scanning _ []) => s.arm k
  | some (.scanning since (r :: rest)) =>
    match dueTime cfg s.work r since, outcome with
    | none, _ | some _, .err => { s with starts := s.starts.set k (.scanning since rest) }
    | some _, .ok =>
      { s with
          work := { s.work with
            rows := markFire r.id (firePatch cfg r since .missed none) s.work.rows }
          starts := s.starts.set k (.scanning since rest) }
    | some _, .threw => { s with starts := s.starts.eraseIdx k }
  | _ => s

/-! ## Ticks -/

/-- `tick`, up to the schedule list it waits for. -/
def LifecycleState.tick (s : LifecycleState) (readOk : Bool) : LifecycleState :=
  if s.stopping || !readOk then s
  else
    { s with work := { s.work with polls := s.work.polls ++ [listEnabled s.work.rows] } }

/-- `tick`, from the schedule list on. -/
def LifecycleState.resumeTick (cfg : DaemonConfig) (s : LifecycleState) (k : Nat) :
    LifecycleState :=
  let work := daemonStep cfg s.work (.resumePoll k)
  { s with
      work := work
      late := if s.resolved then s.late ++ work.tasks.drop s.work.tasks.length else s.late }

/-! ## Stopping -/

/-- `stop`, up to the drain. -/
def LifecycleState.stopCalled (s : LifecycleState) : LifecycleState :=
  if s.stopping then { s with resolved := true }
  else
    { s with
        stopping := true
        intervals := s.intervals.filter fun i => some i ≠ s.handle
        handle := none
        stop := some .draining }

/-- `stop`, from the drain on. -/
def LifecycleState.drained (s : LifecycleState) : LifecycleState :=
  match s.stop with
  | some .draining =>
    if s.work.inFlight.isEmpty then
      match s.release with
      | some lease => { s with stop := some (.releasing lease) }
      | none => { s with stop := none, resolved := true }
    else s
  | _ => s

/-- `stop`, from the release on: a release that fails is passed over. -/
def LifecycleState.released (s : LifecycleState) (ok : Bool) : LifecycleState :=
  match s.stop with
  | some (.releasing lease) =>
    { s with
        held := if ok && decide (s.held = some lease) then none else s.held
        release := none
        stop := none
        resolved := true }
  | _ => s

/-! ## The machine -/

def LifecycleState.works (cfg : DaemonConfig) (s : LifecycleState) (a : DaemonAction) :
    LifecycleState :=
  { s with work := daemonStep cfg s.work a }

def lifecycleStep (cfg : DaemonConfig) (s : LifecycleState) : LifecycleAction → LifecycleState
  | .advance duration => s.works cfg (.advance duration)
  | .setEnabled id enabled => s.works cfg (.setEnabled id enabled)
  | .start => { s with starts := s.starts ++ [.acquiring] }
  | .acquired k taken => s.acquired k taken
  | .listed k outcome => s.listed k outcome
  | .scan k outcome => s.scan cfg k outcome
  | .tick readOk => s.tick readOk
  | .resumeTick k => s.resumeTick cfg k
  | .settle k outcome => s.works cfg (.settle k outcome)
  | .write k outcome => s.works cfg (.write k outcome)
  | .finish k => s.works cfg (.finish k)
  | .stop => s.stopCalled
  | .drain => s.drained
  | .released ok => s.released ok

/-- One daemon over a store. -/
def lifecycle (cfg : DaemonConfig) (now : Nat) (rows : List Schedule) :
    Machine LifecycleState LifecycleAction where
  init := { work := { now := now, rows := rows } }
  step := lifecycleStep cfg

/-! ## Staying stopped -/

/-- Once a call of `stop()` has resolved, the lock is released, no interval is armed, and nothing
was launched since. -/
def LifecycleState.StaysStopped (s : LifecycleState) : Prop :=
  s.resolved → s.held = none ∧ s.intervals = [] ∧ s.late = []

/-- What a step must meet: once a call of `stop()` has resolved, no call of `start()` takes the lock
and no tick continues with a row to launch; once `stop()` is called, no call of `start()` comes to
the end of its scan; a second call of `stop()` comes when the first has resolved or the lock is not
held; and the release of the lock succeeds. -/
def StopsInTime (cfg : DaemonConfig) (s : LifecycleState) : LifecycleAction → Prop
  | .acquired k taken => s.starts[k]? = some .acquiring → taken → s.resolved = false
  | .scan k _ => ∀ phase ∈ s.starts[k]?, phase.hasScanned → s.stopping = false
  | .resumeTick k =>
      s.resolved → ∀ read ∈ s.work.polls[k]?, ∀ r ∈ read, launches cfg s.work r = none
  | .stop => s.stopping → s.resolved ∨ s.held = none
  | .released ok => ok
  | _ => True

instance (s : LifecycleState) : Decidable s.StaysStopped := by
  unfold LifecycleState.StaysStopped
  infer_instance

instance (cfg : DaemonConfig) (s : LifecycleState) (a : LifecycleAction) :
    Decidable (StopsInTime cfg s a) := by
  unfold StopsInTime
  cases a <;> infer_instance

/-! ## The invariant -/

/-- The calls of `start()` that have taken the lock. -/
def LifecycleState.starting (s : LifecycleState) : Nat := s.starts.countP StartPhase.hasLock

/-- What a run that stops in time keeps: the daemon knows the lease it holds; until it stops, either
one call of `start()` has the lock or one interval is armed; and from then on none is. -/
structure LifecycleInv (s : LifecycleState) : Prop where
  release : s.release = s.held
  releasing : ∀ lease, s.stop = some (.releasing lease) → s.held = some lease
  live : s.stopping = false →
    s.intervals = s.handle.toList ∧ s.intervals.length + s.starting ≤ s.held.toList.length
  stopped : s.stopping → s.intervals = []
  stop : s.stop ≠ none → s.stopping
  quiet : s.resolved → s.stopping ∧ s.held = none
  late : s.late = []

variable {cfg : DaemonConfig}

lemma foldl_launch_none {s : DaemonState} {read : List Schedule}
    (h : ∀ r ∈ read, launches cfg s r = none) : read.foldl (launch cfg) s = s := by
  induction read with
  | nil => rfl
  | cons r read ih =>
    rw [foldl_cons, launch_eq, h r mem_cons_self]
    exact ih fun r' hr' => h r' (mem_cons_of_mem _ hr')

variable {k : Nat}

lemma tasks_resumePoll {s : DaemonState}
    (h : ∀ read ∈ s.polls[k]?, ∀ r ∈ read, launches cfg s r = none) :
    (daemonStep cfg s (.resumePoll k)).tasks = s.tasks := by
  simp only [daemonStep]
  cases hk : s.polls[k]? with
  | none => rfl
  | some read =>
    have hnone : ∀ r ∈ read, launches cfg { s with polls := s.polls.eraseIdx k } r = none :=
      fun r hr => h read hk r hr
    simp only [foldl_launch_none hnone]

/-! ## What a step keeps -/

variable {s : LifecycleState}

open Places StartPhase LifecycleState

/-- A call of `start()` that goes on with the lock keeps the invariant. -/
lemma LifecycleInv.set (h : LifecycleInv s) {a b : StartPhase} (hk : s.starts[k]? = some a)
    (ha : a.hasLock) (hb : b.hasLock) (work : DaemonState) :
    LifecycleInv { s with work := work, starts := s.starts.set k b } where
  release := h.release
  releasing := h.releasing
  live hlive := by
    have hcount := countP_set_add hasLock b hk
    rw [ha, hb] at hcount
    refine ⟨(h.live hlive).1, ?_⟩
    have hbound := (h.live hlive).2
    simp only [starting] at hbound ⊢
    omega
  stopped := h.stopped
  stop := h.stop
  quiet := h.quiet
  late := h.late

/-- A call of `start()` that fails keeps the invariant. -/
lemma LifecycleInv.eraseIdx (h : LifecycleInv s) (k : Nat) :
    LifecycleInv { s with starts := s.starts.eraseIdx k } where
  release := h.release
  releasing := h.releasing
  live hlive := by
    have hcount := (eraseIdx_sublist s.starts k).countP_le (p := hasLock)
    refine ⟨(h.live hlive).1, ?_⟩
    have hbound := (h.live hlive).2
    simp only [starting] at hbound ⊢
    omega
  stopped := h.stopped
  stop := h.stop
  quiet := h.quiet
  late := h.late

lemma LifecycleInv.works (h : LifecycleInv s) (work : DaemonState) :
    LifecycleInv { s with work := work } :=
  ⟨h.release, h.releasing, h.live, h.stopped, h.stop, h.quiet, h.late⟩

lemma LifecycleInv.acquired (h : LifecycleInv s) {taken : Bool}
    (hintime : s.starts[k]? = some .acquiring → taken → s.resolved = false) :
    LifecycleInv (s.acquired k taken) := by
  unfold LifecycleState.acquired
  split
  · rename_i hk
    split_ifs with htaken
    · obtain ⟨htaken, hfree⟩ := Bool.and_eq_true_iff.1 htaken
      have hheld : s.held = none := isNone_iff_eq_none.1 hfree
      have hresolved := hintime hk htaken
      refine ⟨rfl, fun lease hstop => ?_, fun hlive => ?_, h.stopped, h.stop, fun hquiet => ?_,
        h.late⟩
      · cases hheld.symm.trans (h.releasing lease hstop)
      · obtain ⟨hhandle, hbound⟩ := h.live hlive
        have hcount := Places.countP_set_add StartPhase.hasLock .listing hk
        rw [hheld] at hbound
        simp only [LifecycleState.starting, StartPhase.hasLock, toList_none, length_nil,
          Bool.false_eq_true, if_false, if_true] at hbound hcount ⊢
        exact ⟨hhandle, by simp only [toList_some, length_singleton]; omega⟩
      · exact absurd hquiet (by simp [hresolved])
    · exact h.eraseIdx k
  · exact h

lemma LifecycleInv.listed (h : LifecycleInv s) (k : Nat) (outcome : WriteOutcome) :
    LifecycleInv (s.listed k outcome) := by
  unfold LifecycleState.listed
  split
  · rename_i hk
    cases outcome with
    | ok => exact h.set hk rfl rfl s.work
    | err => exact h.set hk rfl rfl s.work
    | threw => exact h.eraseIdx k
  · exact h

lemma LifecycleInv.arm (h : LifecycleInv s) {since : Nat}
    (hk : s.starts[k]? = some (.scanning since [])) (hlive : s.stopping = false) :
    LifecycleInv (s.arm k) where
  release := h.release
  releasing := h.releasing
  live _ := by
    obtain ⟨hhandle, hbound⟩ := h.live hlive
    have hcount := Places.countP_eraseIdx_add StartPhase.hasLock hk
    have hheld : s.held.toList.length ≤ 1 := by cases s.held <;> simp
    simp only [LifecycleState.starting, StartPhase.hasLock, if_true] at hbound hcount
    have hnone : s.intervals = [] := length_eq_zero_iff.1 (by omega)
    simp only [LifecycleState.arm, LifecycleState.starting, hnone, nil_append,
      toList_some, length_singleton, true_and]
    omega
  stopped hstopping := absurd (hlive.symm.trans hstopping) Bool.false_ne_true
  stop := h.stop
  quiet := h.quiet
  late := h.late

lemma LifecycleInv.scan (h : LifecycleInv s) (outcome : WriteOutcome)
    (hintime : ∀ phase ∈ s.starts[k]?, phase.hasScanned → s.stopping = false) :
    LifecycleInv (s.scan cfg k outcome) := by
  unfold LifecycleState.scan
  split
  · rename_i hk
    exact h.arm hk (hintime _ hk rfl)
  · rename_i hk
    split
    · exact h.set hk rfl rfl s.work
    · exact h.set hk rfl rfl s.work
    · exact h.set hk rfl rfl _
    · exact h.eraseIdx k
  · exact h

lemma LifecycleInv.resumeTick (h : LifecycleInv s)
    (hintime : s.resolved → ∀ read ∈ s.work.polls[k]?, ∀ r ∈ read, launches cfg s.work r = none) :
    LifecycleInv (s.resumeTick cfg k) where
  release := h.release
  releasing := h.releasing
  live := h.live
  stopped := h.stopped
  stop := h.stop
  quiet := h.quiet
  late := by
    unfold LifecycleState.resumeTick
    cases hresolved : s.resolved with
    | true => simp [h.late, tasks_resumePoll (hintime hresolved)]
    | false => exact h.late

/-- `stop()` is called for the first time, or in time. -/
lemma LifecycleInv.stopCalled (h : LifecycleInv s)
    (hintime : s.stopping → s.resolved ∨ s.held = none) : LifecycleInv s.stopCalled := by
  unfold LifecycleState.stopCalled
  split_ifs with hstopping
  · refine ⟨h.release, h.releasing, h.live, h.stopped, h.stop, fun _ => ⟨hstopping, ?_⟩, h.late⟩
    rcases hintime hstopping with hresolved | hheld
    · exact (h.quiet hresolved).2
    · exact hheld
  · have hlive : s.stopping = false := Bool.eq_false_iff.2 hstopping
    refine ⟨h.release, fun lease hstop => ?_, fun hlive' => ?_, fun _ => ?_, fun _ => rfl,
      fun hresolved => ?_, h.late⟩
    · cases hstop
    · cases hlive'
    · rw [(h.live hlive).1]
      cases s.handle <;> simp
    · exact absurd (h.quiet hresolved).1 hstopping

lemma LifecycleInv.drained (h : LifecycleInv s) :
    LifecycleInv s.drained := by
  unfold LifecycleState.drained
  split
  · rename_i hstop
    have hstopping : s.stopping := h.stop (by simp [hstop])
    split_ifs
    · split
      · rename_i lease hrelease
        refine ⟨h.release, fun lease' hstop' => ?_, h.live, h.stopped, fun _ => hstopping, h.quiet,
          h.late⟩
        obtain rfl : lease = lease' := by simpa using hstop'
        exact h.release.symm.trans hrelease
      · rename_i hrelease
        exact ⟨h.release, fun _ hstop' => (nomatch hstop'), h.live, h.stopped, fun _ => hstopping,
          fun _ => ⟨hstopping, h.release.symm.trans hrelease⟩, h.late⟩
    · exact h
  · exact h

lemma LifecycleInv.released (h : LifecycleInv s) :
    LifecycleInv (s.released true) := by
  unfold LifecycleState.released
  split
  · rename_i lease hstop
    have hstopping : s.stopping := h.stop (by simp [hstop])
    have hheld := h.releasing lease hstop
    refine ⟨by simp [hheld], fun _ hstop' => (nomatch hstop'), fun hlive => ?_, h.stopped,
      fun _ => hstopping, fun _ => ⟨hstopping, by simp [hheld]⟩, h.late⟩
    exact absurd (hlive.symm.trans hstopping) Bool.false_ne_true
  · exact h

/-- A step that meets the condition keeps the invariant. -/
lemma LifecycleInv.step (h : LifecycleInv s) (a : LifecycleAction) (ha : StopsInTime cfg s a) :
    LifecycleInv (lifecycleStep cfg s a) := by
  cases a with
  | advance | setEnabled | settle | write | finish => exact h.works _
  | start =>
    refine ⟨h.release, h.releasing, fun hlive => ?_, h.stopped, h.stop, h.quiet, h.late⟩
    obtain ⟨hhandle, hbound⟩ := h.live hlive
    exact ⟨hhandle, by simpa [starting, lifecycleStep, hasLock] using
      hbound⟩
  | acquired k taken => exact h.acquired ha
  | listed k outcome => exact h.listed k outcome
  | scan k outcome => exact h.scan outcome ha
  | tick readOk =>
    simp only [lifecycleStep, LifecycleState.tick]
    split_ifs
    · exact h
    · exact h.works _
  | resumeTick k => exact h.resumeTick ha
  | stop => exact h.stopCalled ha
  | drain => exact h.drained
  | released ok =>
    obtain rfl : ok = true := ha
    exact h.released

/-- **Stopped for good.** In every run whose steps all meet the condition, once a call of `stop()`
has resolved the lock is released, no interval is armed, and nothing was launched since. -/
theorem stays_stopped (cfg : DaemonConfig) (now : Nat) (rows : List Schedule)
    (acts : List LifecycleAction)
    (h : (lifecycle cfg now rows).Along (StopsInTime cfg) (lifecycle cfg now rows).init acts) :
    ((lifecycle cfg now rows).run acts).StaysStopped := by
  have hinit : LifecycleInv (lifecycle cfg now rows).init :=
    ⟨rfl, fun _ hstop => (nomatch hstop), fun _ => ⟨rfl, Nat.le_refl _⟩, fun _ => rfl,
      fun hstop => absurd rfl hstop, fun hresolved => (nomatch hresolved), rfl⟩
  have hinv : LifecycleInv ((lifecycle cfg now rows).run acts) :=
    Machine.invariant_runFrom (M := lifecycle cfg now rows) (fun _ a hs ha => hs.step a ha) hinit h
  intro hresolved
  obtain ⟨hstopping, hheld⟩ := hinv.quiet hresolved
  exact ⟨hheld, hinv.stopped hstopping, hinv.late⟩

/-- A daemon that has started, with an occurrence of its schedule since. -/
def startedRun : List LifecycleAction :=
  [.start, .acquired 0 true, .listed 0 .ok, .scan 0 .ok, .scan 0 .ok, .advance 6]

/-- A daemon that is stopped while a fire is in flight. -/
theorem stays_stopped_after_fire :
    ((lifecycle everyFive 0 [digestSchedule]).run (startedRun ++ [.tick true, .resumeTick 0, .stop,
      .settle 0 (.result ⟨some "run-1", .succeeded⟩), .write 0 .ok, .finish 0, .drain,
      .released true, .tick true])).StaysStopped :=
  stays_stopped everyFive 0 [digestSchedule] _ (by decide)

/-- Once `stop()` has resolved, a tick that waited for the schedule list fires; a `start()` that
waited for the lock takes it; a `start()` that was scanning arms the interval; and a second call
resolves while the first still waits for a fire, the lock held. -/
theorem lifecycle_outlives_stop :
    let run := fun acts => (lifecycle everyFive 0 [digestSchedule]).run acts
    let fires := run (startedRun ++ [.tick true, .stop, .drain, .released true, .resumeTick 0])
    let locks := run [.start, .stop, .drain, .acquired 0 true]
    let arms := run [.start, .acquired 0 true, .stop, .drain, .released true, .listed 0 .ok,
      .scan 0 .ok, .scan 0 .ok]
    let waits := run (startedRun ++ [.tick true, .resumeTick 0, .stop, .stop])
    (fires.resolved ∧ fires.late ≠ []) ∧ (locks.resolved ∧ locks.held ≠ none) ∧
      (arms.resolved ∧ arms.intervals ≠ []) ∧ waits.resolved ∧ waits.held ≠ none := by
  decide

end Yantra
