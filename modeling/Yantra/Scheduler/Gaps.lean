import Yantra.Scheduler.Overlap

/-!
# Occurrences that pass in a gap

A schedule that is in flight, parked or disabled cannot be fired. The policy is that an occurrence
whose instant passes meanwhile is skipped for good. What the daemon asks instead is only whether
the first occurrence after the row's last fire has come, so the policy rests on that occurrence
never being one that passed in a gap.

## Main definitions

* `DaemonState.SkipsGaps` — no fire was started for an occurrence that passed in a gap.
* `HistoryInv` — what the history and the polls meet in every run.

## Main results

* `skipsGaps_iff` — a run skips what passed in its gaps exactly where every poll meets the
  condition.
* `catch_up_after_long_fire` — the fires that follow a long one.
-/

namespace Yantra

open List

/-! ## The policy -/

def Gap.Passed (g : Gap) (o : Nat) : Prop := g.since < o ∧ o ≤ g.upTo

/-- No occurrence that passed in a gap of its schedule has been fired. -/
def DaemonState.SkipsGaps (s : DaemonState) : Prop :=
  ∀ id o, (id, o) ∈ s.started → ∀ g ∈ s.gaps, g.id = id → ¬ g.Passed o

/-- What a poll must meet: of every row it reads that is not parked and not in flight, the first
occurrence after its last fire did not pass in a gap of the schedule. -/
def FirstDueOutsideGaps (cfg : DaemonConfig) (s : DaemonState) : DaemonAction → Prop
  | .resumePoll k => ∀ read ∈ s.polls[k]?, ∀ r ∈ read,
      r.id ∉ s.inFlight → r.lastStatus ≠ some .pendingConfirmation →
        ∀ due, IsLeast {o | r.lowerBound < o ∧ (cfg.cron r.cronExpr).occurs o} due →
          ∀ g ∈ s.gaps, g.id = r.id → ¬ g.Passed due
  | _ => True

instance (g : Gap) (o : Nat) : Decidable (g.Passed o) := by
  unfold Gap.Passed
  infer_instance

instance (cfg : DaemonConfig) (s : DaemonState) (a : DaemonAction) :
    Decidable (FirstDueOutsideGaps cfg s a) :=
  match a with
  | .resumePoll k =>
    decidable_of_iff (∀ read ∈ s.polls[k]?, ∀ r ∈ read,
        r.id ∉ s.inFlight → r.lastStatus ≠ some .pendingConfirmation →
          ∀ due ∈ (cfg.cron r.cronExpr).next r.lowerBound,
            ∀ g ∈ s.gaps, g.id = r.id → ¬ g.Passed due) (by
      simp only [FirstDueOutsideGaps, Option.mem_def, Recurrence.next_eq_some_iff])
  | .advance _ | .setEnabled _ _ | .start _ | .scan _ | .poll _ | .settle _ _ | .write _ _
  | .finish _ | .stop | .exit => .isTrue trivial

/-! ## The history -/

/-- The rows and what polls read of them have different ids; nothing in the history lies ahead of
the clock. -/
structure HistoryInv (s : DaemonState) : Prop where
  rowIds : (s.rows.map Schedule.id).Nodup
  pollIds : ∀ read ∈ s.polls, (read.map Schedule.id).Nodup
  started_le : ∀ p ∈ s.started, p.2 ≤ s.now
  gap_le : ∀ g ∈ s.gaps, g.upTo ≤ s.now

lemma started_withLaunch (s : DaemonState) (r : Schedule) (kind : TaskKind) :
    (s.withLaunch r kind).started =
      s.started ++ (match kind with
        | .resume => []
        | .fire firedAt => [(r.id, firedAt)]) := by
  cases kind with
  | resume => exact (append_nil _).symm
  | fire => rfl

variable {cfg : DaemonConfig} {s : DaemonState} {r : Schedule}

lemma HistoryInv.withLaunch (h : HistoryInv s) {kind : TaskKind} (hl : launches cfg s r = some kind)
    :
    HistoryInv (s.withLaunch r kind) := by
  obtain ⟨hrows, hnow, -, hpolls, hgaps⟩ := withLaunch_frame s r kind
  refine ⟨by rw [hrows]; exact h.rowIds, by rw [hpolls]; exact h.pollIds, ?_,
    by rw [hgaps, hnow]; exact h.gap_le⟩
  intro p hp
  rw [started_withLaunch, mem_append] at hp
  rw [hnow]
  rcases hp with hp | hp
  · exact h.started_le p hp
  · cases kind with
    | resume => cases hp
    | fire firedAt =>
      obtain rfl := mem_singleton.1 hp
      exact (fire_of_launches hl).2

lemma HistoryInv.scanRow (h : HistoryInv s) (since : Nat) (r : Schedule) (rest : List Schedule)
    (outcome : WriteOutcome) :
    HistoryInv (scanRow cfg s since r rest outcome) := by
  unfold Yantra.scanRow
  cases dueTime cfg s r since with
  | none => exact ⟨h.rowIds, h.pollIds, h.started_le, h.gap_le⟩
  | some due =>
    cases outcome with
    | ok =>
      exact ⟨by simpa only [map_id_markFire] using h.rowIds, h.pollIds, h.started_le, h.gap_le⟩
    | err | threw => exact ⟨h.rowIds, h.pollIds, h.started_le, h.gap_le⟩

lemma map_id_writeTask (cfg : DaemonConfig) (t : DaemonTask) (o : WriteOutcome)
    (rows : List Schedule) :
    (writeTask cfg t o rows).1.map Schedule.id = rows.map Schedule.id := by
  unfold writeTask
  repeat' split
  all_goals first | exact map_id_markFire _ _ _ | rfl

lemma HistoryInv.step (h : HistoryInv s) (a : DaemonAction) : HistoryInv (daemonStep cfg s a) := by
  cases a with
  | advance duration =>
    refine ⟨h.rowIds, h.pollIds, fun p hp => ?_, fun g hg => ?_⟩
    · exact Nat.le_trans (h.started_le p hp) (Nat.le_add_right _ _)
    · rcases mem_append.1 hg with hg | hg
      · exact Nat.le_trans (h.gap_le g hg) (Nat.le_add_right _ _)
      · obtain ⟨r, -, rfl⟩ := mem_map.1 hg
        exact Nat.le_refl _
  | setEnabled id enabled =>
    exact ⟨by simpa only [daemonStep, map_id_setEnabled] using h.rowIds, h.pollIds, h.started_le,
      h.gap_le⟩
  | start | stop =>
    simp only [daemonStep]
    split
    all_goals exact ⟨h.rowIds, h.pollIds, h.started_le, h.gap_le⟩
  | scan outcome =>
    simp only [daemonStep]
    split
    · exact ⟨h.rowIds, h.pollIds, h.started_le, h.gap_le⟩
    · exact h.scanRow _ _ _ outcome
    · exact h
  | poll readOk =>
    simp only [daemonStep]
    split
    · split
      · refine ⟨h.rowIds, fun read hread => ?_, h.started_le, h.gap_le⟩
        rcases mem_append.1 hread with hread | hread
        · exact h.pollIds read hread
        · obtain rfl := mem_singleton.1 hread
          exact h.rowIds.sublist (Sublist.map _ filter_sublist)
      · exact h
    · exact h
  | resumePoll k =>
    simp only [daemonStep]
    cases s.polls[k]? with
    | none => exact h
    | some read =>
      have hs : HistoryInv { s with polls := s.polls.eraseIdx k } :=
        ⟨h.rowIds, fun read hread => h.pollIds read (mem_of_mem_eraseIdx hread),
          h.started_le, h.gap_le⟩
      exact foldl_launch' HistoryInv (fun _ _ _ hs hl => hs.withLaunch hl) hs read
  | settle k o =>
    simp only [daemonStep]
    cases s.tasks[k]? with
    | none => exact h
    | some t => exact ⟨h.rowIds, h.pollIds, h.started_le, h.gap_le⟩
  | write k o =>
    simp only [daemonStep]
    cases s.tasks[k]? with
    | none => exact h
    | some t =>
      exact ⟨by simpa only [map_id_writeTask] using h.rowIds, h.pollIds, h.started_le, h.gap_le⟩
  | finish k =>
    simp only [daemonStep]
    repeat' split
    all_goals exact ⟨h.rowIds, h.pollIds, h.started_le, h.gap_le⟩
  | exit => exact ⟨h.rowIds, by simp [daemonStep], h.started_le, h.gap_le⟩

variable {rows : List Schedule}

lemma HistoryInv.run (cfg : DaemonConfig) (now : Nat) (hrows : (rows.map Schedule.id).Nodup)
    (acts : List DaemonAction) :
    HistoryInv ((daemon cfg now rows).run acts) :=
  Machine.invariant_runFrom' (M := daemon cfg now rows) (fun _ a hs => hs.step a)
    ⟨hrows, by simp [daemon], by simp [daemon], by simp [daemon]⟩ acts

/-- The rows of a poll, launched one after the other, leave the gaps alone and keep the fires
started. -/
lemma started_foldl (cfg : DaemonConfig) (read : List Schedule) (s : DaemonState) :
    s.started ⊆ (read.foldl (launch cfg) s).started ∧
      (read.foldl (launch cfg) s).gaps = s.gaps := by
  induction read generalizing s with
  | nil => exact ⟨List.Subset.refl _, rfl⟩
  | cons r read ih =>
    rw [foldl_cons, launch_eq]
    cases launches cfg s r with
    | none => exact ih s
    | some kind =>
      obtain ⟨hstarted, hgaps⟩ := ih (s.withLaunch r kind)
      refine ⟨fun p hp => hstarted ?_, hgaps.trans (withLaunch_frame s r kind).2.2.2.2⟩
      rw [started_withLaunch]
      exact mem_append_left _ hp

lemma history_mono (cfg : DaemonConfig) (s : DaemonState) (a : DaemonAction) :
    s.started ⊆ (daemonStep cfg s a).started ∧ s.gaps ⊆ (daemonStep cfg s a).gaps := by
  have hsame : s.started ⊆ s.started ∧ s.gaps ⊆ s.gaps :=
    ⟨List.Subset.refl _, List.Subset.refl _⟩
  cases a with
  | advance => exact ⟨List.Subset.refl _, subset_append_left _ _⟩
  | setEnabled | exit => exact hsame
  | start | poll | settle | write | finish | stop =>
    simp only [daemonStep]
    repeat' split
    all_goals exact hsame
  | scan =>
    simp only [daemonStep, scanRow]
    repeat' split
    all_goals exact hsame
  | resumePoll k =>
    simp only [daemonStep]
    cases s.polls[k]? with
    | none => exact hsame
    | some read =>
      obtain ⟨hstarted, hgaps⟩ := started_foldl cfg read { s with polls := s.polls.eraseIdx k }
      exact ⟨hstarted, fun g hg => hgaps.symm ▸ hg⟩

lemma DaemonState.SkipsGaps.of_runFrom {now : Nat} (acts : List DaemonAction)
    (h : ((daemon cfg now rows).runFrom s acts).SkipsGaps) : s.SkipsGaps := by
  induction acts generalizing s with
  | nil => exact h
  | cons a acts ih =>
    obtain ⟨hstarted, hgaps⟩ := history_mono cfg s a
    exact fun id o ho g hg => ih h id o (hstarted ho) g (hgaps hg)

/-! ## What a poll fires -/

lemma launches_withLaunch {r r' : Schedule} (kind : TaskKind) (hne : r.id ≠ r'.id) :
    launches cfg (s.withLaunch r' kind) r = launches cfg s r := by
  unfold launches
  rw [(withLaunch_frame s r' kind).2.1, (withLaunch_tasks s r' kind).2]
  simp [hne]

variable {due : Nat}

/-- A poll fires every row it finds due. -/
lemma mem_started_foldl {read : List Schedule} (hread : (read.map Schedule.id).Nodup)
    (hr : r ∈ read) (hl : launches cfg s r = some (.fire due)) :
    (r.id, due) ∈ (read.foldl (launch cfg) s).started := by
  induction read generalizing s with
  | nil => cases hr
  | cons r' read ih =>
    rw [map_cons, nodup_cons] at hread
    rw [foldl_cons, launch_eq]
    rcases mem_cons.1 hr with rfl | hr
    · rw [hl]
      refine (started_foldl cfg read _).1 ?_
      exact mem_append_right _ (mem_singleton.2 rfl)
    · have hne : r.id ≠ r'.id := by
        intro heq
        exact hread.1 (heq ▸ mem_map_of_mem hr)
      refine ih hread.2 hr ?_
      cases launches cfg s r' with
      | none => exact hl
      | some kind => exact (launches_withLaunch kind hne).trans hl

/-- A row that is neither parked nor in flight is fired for the first occurrence after its last
fire, once that has come. -/
lemma launches_fire_of_isLeast (hidle : r.id ∉ s.inFlight)
    (hpark : r.lastStatus ≠ some .pendingConfirmation)
    (hdue : IsLeast {o | r.lowerBound < o ∧ (cfg.cron r.cronExpr).occurs o} due)
    (hnow : due ≤ s.now) : launches cfg s r = some (.fire due) := by
  have hnext := ((cfg.cron r.cronExpr).next_eq_some_iff r.lowerBound due).2 hdue
  simp [launches, hidle, hpark, hnext, Nat.not_lt.2 hnow]

lemma isLeast_of_launches (h : launches cfg s r = some (.fire due)) :
    r.id ∉ s.inFlight ∧ r.lastStatus ≠ some .pendingConfirmation ∧
      IsLeast {o | r.lowerBound < o ∧ (cfg.cron r.cronExpr).occurs o} due := by
  refine ⟨not_mem_inFlight_of_launches h, fun hpark => ?_,
    ((cfg.cron r.cronExpr).next_eq_some_iff r.lowerBound due).1 (fire_of_launches h).1⟩
  unfold launches at h
  split_ifs at h
  all_goals cases h

/-! ## The runs -/

variable {a : DaemonAction}

lemma DaemonState.SkipsGaps.step (hinv : HistoryInv s) (h : s.SkipsGaps)
    (ha : FirstDueOutsideGaps cfg s a) :
    (daemonStep cfg s a).SkipsGaps := by
  cases a with
  | advance duration =>
    intro id o ho g hg hid
    rcases mem_append.1 hg with hg | hg
    · exact h id o ho g hg hid
    · -- what was started was due before the gap
      obtain ⟨r, -, rfl⟩ := mem_map.1 hg
      rintro ⟨hlt, -⟩
      exact absurd (hinv.started_le (id, o) ho) (Nat.not_le.2 hlt)
  | setEnabled | exit => exact h
  | start | poll | settle | write | finish | stop =>
    simp only [daemonStep]
    repeat' split
    all_goals exact h
  | scan =>
    simp only [daemonStep, scanRow]
    repeat' split
    all_goals exact h
  | resumePoll k =>
    simp only [daemonStep]
    cases hk : s.polls[k]? with
    | none => exact h
    | some read =>
      have hs : DaemonState.SkipsGaps { s with polls := s.polls.eraseIdx k } := h
      refine foldl_launch DaemonState.SkipsGaps
        (fun s r kind => ∀ due, kind = .fire due → ∀ g ∈ s.gaps, g.id = r.id → ¬ g.Passed due)
        ?_ ?_ hs ?_
      · intro s r kind hs _ hkind id o ho g hg hid
        rw [(withLaunch_frame s r kind).2.2.2.2] at hg
        rw [started_withLaunch, mem_append] at ho
        rcases ho with ho | ho
        · exact hs id o ho g hg hid
        · cases kind with
          | resume => cases ho
          | fire firedAt =>
            obtain ⟨rfl, rfl⟩ := Prod.mk.inj (mem_singleton.1 ho)
            exact hkind o rfl g hg hid
      · intro s r kind r' kind' hkind
        rw [(withLaunch_frame s r kind).2.2.2.2]
        exact hkind
      · rintro r hr kind hl due rfl
        obtain ⟨hidle, hpark, hleast⟩ := isLeast_of_launches hl
        exact ha read hk r hr hidle hpark due hleast

lemma firstDueOutsideGaps_of_skipsGaps (hinv : HistoryInv s) (h : (daemonStep cfg s a).SkipsGaps) :
    FirstDueOutsideGaps cfg s a := by
  cases a with
  | resumePoll k =>
    intro read hk r hr hidle hpark due hleast g hg hid hpassed
    have hnow : due ≤ s.now := Nat.le_trans hpassed.2 (hinv.gap_le g hg)
    have hfired : (r.id, due) ∈ (daemonStep cfg s (.resumePoll k)).started := by
      simp only [daemonStep, Option.mem_def.1 hk]
      exact mem_started_foldl (hinv.pollIds read (mem_of_getElem? hk)) hr
        (launches_fire_of_isLeast hidle hpark hleast hnow)
    exact h r.id due hfired g ((history_mono cfg s (.resumePoll k)).2 hg) hid hpassed
  | _ => trivial

/-- **What passes in a gap is skipped, exactly where every poll meets the condition.** Over a store
whose ids differ, a run fires no occurrence that passed while its schedule was in flight, parked
or disabled if and only if, at every poll, the first occurrence after the last fire of each row
that can be fired did not pass in a gap; and no occurrence is fired twice where every fire is
recorded and read.

**Proof sketch.** A poll fires exactly the rows whose first occurrence has come. What it fires is
due before any later gap, so only the gaps of the past matter, and these are the condition. The
other way, a poll that does not meet the condition fires an occurrence that passed in a gap, and
nothing leaves the history. -/
theorem skipsGaps_iff (cfg : DaemonConfig) (now : Nat) (rows : List Schedule)
    (hrows : (rows.map Schedule.id).Nodup) (acts : List DaemonAction) :
    (((daemon cfg now rows).run acts).SkipsGaps ↔
        (daemon cfg now rows).Along (FirstDueOutsideGaps cfg) (daemon cfg now rows).init acts) ∧
      ((daemon cfg now rows).Along (FiresRecorded cfg) (daemon cfg now rows).init acts →
        ((daemon cfg now rows).run acts).FiredOnce) := by
  refine ⟨⟨fun h => ?_, fun h => ?_⟩, fun hacts => (FireRecord.run hrows hacts).once⟩
  · rw [Machine.along_iff_forall_split]
    rintro pre a post rfl
    have hinv : HistoryInv ((daemon cfg now rows).runFrom (daemon cfg now rows).init pre) :=
      HistoryInv.run cfg now hrows pre
    rw [Machine.run, Machine.runFrom_append, Machine.runFrom_cons] at h
    exact firstDueOutsideGaps_of_skipsGaps hinv (DaemonState.SkipsGaps.of_runFrom post h)
  · have hinit : HistoryInv (daemon cfg now rows).init ∧ (daemon cfg now rows).init.SkipsGaps :=
      ⟨⟨hrows, by simp [daemon], by simp [daemon], by simp [daemon]⟩,
        fun id o ho => by simp [daemon] at ho⟩
    have hstep : ∀ s a, HistoryInv s ∧ s.SkipsGaps → FirstDueOutsideGaps cfg s a →
        HistoryInv (daemonStep cfg s a) ∧ (daemonStep cfg s a).SkipsGaps :=
      fun s a hs ha => ⟨hs.1.step a, hs.2.step hs.1 ha⟩
    have hrun := Machine.invariant_runFrom (M := daemon cfg now rows) hstep hinit h
    exact hrun.2

/-- A schedule is disabled while an occurrence passes, with the process down; the process starts
and polls when the next occurrence is due. -/
def disabledWhileDown : List DaemonAction :=
  [.setEnabled "sch-digest" false, .advance 7, .setEnabled "sch-digest" true, .start true,
    .scan .ok, .scan .ok, .advance 4, .poll true, .resumePoll 0]

/-- The scan for missed fires moves its last fire past the gap. -/
theorem skipsGaps_iff_digest :
    ((daemon everyFive 0 [digestSchedule]).run disabledWhileDown).started = [("sch-digest", 10)] ∧
      ((daemon everyFive 0 [digestSchedule]).run disabledWhileDown).SkipsGaps :=
  ⟨by decide,
    (skipsGaps_iff everyFive 0 [digestSchedule] (by decide) disabledWhileDown).1.2
      (by decide)⟩

/-- A fire takes from 5 to 17, and polls follow it and each of the next fires. -/
def longFire : List DaemonAction :=
  firstDue ++ .poll true :: .resumePoll 0 :: .advance 12 ::
    .settle 0 (.result ⟨some "run-1", .succeeded⟩) :: .write 0 .ok :: .finish 0 ::
    .poll true :: oneFire .ok ++ .poll true :: oneFire .ok

/-- The long fire is followed by fires for 10 and 15, one a poll: both instants passed while it
was in flight. -/
theorem catch_up_after_long_fire :
    ((daemon everyFive 0 [digestSchedule]).run longFire).started =
        [("sch-digest", 5), ("sch-digest", 10), ("sch-digest", 15)] ∧
      ¬ ((daemon everyFive 0 [digestSchedule]).run longFire).SkipsGaps := by
  refine ⟨by decide, fun h => ?_⟩
  have hgap : Gap.mk "sch-digest" 5 17 ∈
      ((daemon everyFive 0 [digestSchedule]).run longFire).gaps := by decide
  exact h "sch-digest" 10 (by decide) _ hgap rfl ⟨by decide, by decide⟩

end Yantra
