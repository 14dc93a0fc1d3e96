import Yantra.Scheduler.Daemon

/-!
# Overlap and repeated fires

No two executions of a schedule overlap: the set in flight sees to it whatever else happens. That
an occurrence starts one fire at most rests on the store instead. It needs every fire to be
recorded before its task ends, and every row a poll launches to be read after the last of these
writes.

## Main definitions

* `FiresRecorded` — the two conditions, at one step.
* `FireRecord` — the invariant: every started fire is on the row or still in flight.

## Main results

* `fires_apart_and_once` — no overlap in any run, and one fire at most for an occurrence
  in every run whose steps all meet the conditions.
* `occurrence_fires_twice` — it fires twice when the record of a fire fails, and when a
  poll continues with a row read before the record.
-/

namespace Yantra

open List Option Function

/-! ## The conditions -/

/-- No two executions of one schedule are in flight. -/
def DaemonState.OverlapFree (s : DaemonState) : Prop := (s.tasks.map DaemonTask.id).Nodup

def DaemonState.FiredOnce (s : DaemonState) : Prop := s.started.Nodup

def DaemonState.RowFresh (s : DaemonState) (r : Schedule) : Prop :=
  ∃ row ∈ s.rows, row.id = r.id ∧ row.lastFireAt = r.lastFireAt

/-- The write of a fire's outcome succeeds, or fails in a way that is caught and tried again. -/
def DaemonTask.FireRecorded (t : DaemonTask) (outcome : WriteOutcome) : Prop :=
  match t.kind, t.phase with
  | .fire _, .recording _ inCatch => outcome = .ok ∨ (outcome = .threw ∧ inCatch = false)
  | _, _ => True

/-- What a step must meet: a poll launches only rows whose last fire is still the one it read; the
write of a fire's outcome records it; and the process does not end with a fire unrecorded. -/
def FiresRecorded (cfg : DaemonConfig) (s : DaemonState) : DaemonAction → Prop
  | .resumePoll k => ∀ read ∈ s.polls[k]?, ∀ r ∈ read, launches cfg s r ≠ none → s.RowFresh r
  | .write k outcome => ∀ t ∈ s.tasks[k]?, t.FireRecorded outcome
  | .exit => ∀ t ∈ s.tasks, t.kind.isFire → t.phase = .settled
  | _ => True

instance (s : DaemonState) (r : Schedule) : Decidable (s.RowFresh r) := by
  unfold DaemonState.RowFresh
  infer_instance

instance (t : DaemonTask) (outcome : WriteOutcome) : Decidable (t.FireRecorded outcome) := by
  unfold DaemonTask.FireRecorded
  split <;> infer_instance

instance (cfg : DaemonConfig) (s : DaemonState) (a : DaemonAction) :
    Decidable (FiresRecorded cfg s a) := by
  unfold FiresRecorded
  cases a <;> infer_instance

/-! ## The invariant -/

/-- The last fire a task writes: a fire's own occurrence, and for a resume the one on the row. -/
def DaemonTask.PatchFits (t : DaemonTask) (patch : MarkFireInput) : Prop :=
  match t.kind with
  | .fire firedAt => patch.lastFireAt = firedAt
  | .resume => ∀ l, t.schedule.lastFireAt = some l → patch.lastFireAt = l

/-- An occurrence is on the row: the row's last fire is not before it. -/
def DaemonState.OnRow (s : DaemonState) (id : String) (o : Nat) : Prop :=
  ∀ row ∈ s.rows, row.id = id → ∃ l, row.lastFireAt = some l ∧ o ≤ l

/-- The fire of an occurrence is in flight and has not been recorded. -/
def DaemonState.Unrecorded (s : DaemonState) (id : String) (o : Nat) : Prop :=
  ∃ t ∈ s.tasks, t.id = id ∧ t.kind = .fire o ∧ t.phase ≠ .settled

/-- Every started fire is on its row or unrecorded in flight; and what a task in flight will write
does not take the row back. -/
structure FireRecord (s : DaemonState) : Prop where
  rowIds : (s.rows.map Schedule.id).Nodup
  inFlight : InFlightInv s
  task_row : ∀ t ∈ s.tasks, t.phase ≠ .settled → ∀ row ∈ s.rows, row.id = t.id →
    row.lastFireAt = t.schedule.lastFireAt
  task_due : ∀ t ∈ s.tasks, ∀ firedAt, t.kind = .fire firedAt → t.schedule.lowerBound < firedAt
  task_patch : ∀ t ∈ s.tasks, ∀ patch inCatch, t.phase = .recording patch inCatch →
    t.PatchFits patch
  recorded : ∀ id o, (id, o) ∈ s.started → s.Unrecorded id o ∨ s.OnRow id o
  once : s.started.Nodup
  idle : s.mode ≠ .polling → s.mode ≠ .stopping → s.tasks = [] ∧ s.polls = []
  scan_row : ∀ since rest, s.mode = .scanning since rest → (rest.map Schedule.id).Nodup ∧
    ∀ r ∈ rest, ∀ row ∈ s.rows, row.id = r.id → row.lastFireAt = r.lastFireAt

/-! ## Writes to the store -/

lemma map_id_markFire (id : String) (patch : MarkFireInput) (rows : List Schedule) :
    (markFire id patch rows).map Schedule.id = rows.map Schedule.id := by
  rw [markFire, List.map_map]
  refine map_congr_left fun r _ => ?_
  simp only [comp]
  split_ifs <;> rfl

variable {rows : List Schedule}

variable {patch : MarkFireInput} {row : Schedule} {id : String}

lemma mem_markFire (h : row ∈ markFire id patch rows) :
    (row.id = id ∧ row.lastFireAt = some patch.lastFireAt ∧ ∃ r ∈ rows, r.id = id) ∨
      (row.id ≠ id ∧ row ∈ rows) := by
  obtain ⟨r, hr, rfl⟩ := List.mem_map.1 h
  split_ifs with hid
  · exact Or.inl ⟨hid, rfl, r, hr, hid⟩
  · exact Or.inr ⟨hid, hr⟩

/-- A row after an edit of `enabled` is a row before it, up to that field. -/
lemma mem_setEnabled {enabled : Bool} (h : row ∈ setEnabled id enabled rows) :
    ∃ r ∈ rows, row.id = r.id ∧ row.lastFireAt = r.lastFireAt := by
  obtain ⟨r, hr, rfl⟩ := List.mem_map.1 h
  refine ⟨r, hr, ?_⟩
  split_ifs <;> exact ⟨rfl, rfl⟩

/-- An edit of `enabled` changes no id. -/
lemma map_id_setEnabled (id : String) (enabled : Bool) (rows : List Schedule) :
    (setEnabled id enabled rows).map Schedule.id = rows.map Schedule.id := by
  rw [setEnabled, List.map_map]
  refine map_congr_left fun r _ => ?_
  simp only [comp]
  split_ifs <;> rfl

/-! ## The steps -/

variable {s : DaemonState}

lemma InFlightInv.eq_of_id_eq (h : InFlightInv s) {t t' : DaemonTask} (ht : t ∈ s.tasks)
    (ht' : t' ∈ s.tasks) (hid : t.id = t'.id) : t = t' :=
  inj_on_of_nodup_map h.nodup ht ht' hid

variable {r : Schedule}

lemma FireRecord.lastFireAt_of_fresh (h : FireRecord s) (hfresh : s.RowFresh r) :
    ∀ row ∈ s.rows, row.id = r.id → row.lastFireAt = r.lastFireAt := by
  obtain ⟨cur, hcur, hid, hlast⟩ := hfresh
  intro row hrow hrowid
  rw [inj_on_of_nodup_map h.rowIds hrow hcur (hrowid.trans hid.symm), hlast]

/-- An occurrence after a fresh row's last fire has not been started, where nothing of the
schedule is in flight. -/
lemma FireRecord.not_started (h : FireRecord s) (hfresh : s.RowFresh r) (hidle : r.id ∉ s.inFlight)
    {due : Nat} (hdue : r.lowerBound < due) :
    (r.id, due) ∉ s.started := by
  intro hmem
  obtain ⟨cur, hcur, hid, hlast⟩ := hfresh
  rcases h.recorded r.id due hmem with ⟨t, ht, htid, -, -⟩ | hon
  · exact hidle ((h.inFlight.mem_iff r.id).2 (htid ▸ List.mem_map_of_mem ht))
  · obtain ⟨l, hl, hle⟩ := hon cur hcur hid
    have hlower : r.lowerBound = l := by
      simp only [Schedule.lowerBound, ← hlast, hl, getD_some]
    omega

variable {cfg : DaemonConfig}

lemma FireRecord.withLaunch (h : FireRecord s) (hmode : s.mode = .polling ∨ s.mode = .stopping)
    {kind : TaskKind} (hl : launches cfg s r = some kind) (hfresh : s.RowFresh r) :
    FireRecord (s.withLaunch r kind) := by
  obtain ⟨hrows, -, hm, hpolls, -⟩ := withLaunch_frame s r kind
  obtain ⟨htasks, -⟩ := withLaunch_tasks s r kind
  have hidle := not_mem_inFlight_of_launches hl
  have hmem : ∀ {t}, t ∈ (s.withLaunch r kind).tasks →
      t ∈ s.tasks ∨ t = { schedule := r, kind := kind } := by
    intro t ht
    rw [htasks, mem_append, mem_singleton] at ht
    exact ht
  have hdue : ∀ firedAt, kind = .fire firedAt → r.lowerBound < firedAt := by
    rintro firedAt rfl
    exact (cfg.cron r.cronExpr).lt_of_next (fire_of_launches hl).1
  have hstarted : ∀ id o, (id, o) ∈ (s.withLaunch r kind).started →
      (id, o) ∈ s.started ∨ id = r.id ∧ kind = .fire o := by
    intro id o ho
    cases kind with
    | resume => exact Or.inl ho
    | fire firedAt =>
      simp only [DaemonState.withLaunch, mem_append, mem_singleton,
        Prod.mk.injEq] at ho
      rcases ho with ho | ⟨rfl, rfl⟩
      · exact Or.inl ho
      · exact Or.inr ⟨rfl, rfl⟩
  refine ⟨by rw [hrows]; exact h.rowIds, h.inFlight.withLaunch hl, ?_, ?_, ?_, ?_, ?_, ?_, ?_⟩
  · intro t ht hphase row hrow hid
    rw [hrows] at hrow
    rcases hmem ht with ht | rfl
    · exact h.task_row t ht hphase row hrow hid
    · exact h.lastFireAt_of_fresh hfresh row hrow hid
  · intro t ht firedAt hkind
    rcases hmem ht with ht | rfl
    · exact h.task_due t ht firedAt hkind
    · exact hdue firedAt hkind
  · intro t ht patch inCatch hphase
    rcases hmem ht with ht | rfl
    · exact h.task_patch t ht patch inCatch hphase
    · cases hphase
  · intro id o ho
    rcases hstarted id o ho with ho | ⟨rfl, rfl⟩
    · rcases h.recorded id o ho with ⟨t, ht, hrest⟩ | hon
      · exact Or.inl ⟨t, by rw [htasks]; exact mem_append_left _ ht, hrest⟩
      · refine Or.inr fun row hrow => hon row ?_
        rwa [hrows] at hrow
    · refine Or.inl ⟨{ schedule := r, kind := .fire o }, ?_, rfl, rfl, by simp⟩
      rw [htasks]
      exact mem_append_right _ (mem_singleton.2 rfl)
  · cases kind with
    | resume => exact h.once
    | fire firedAt =>
      refine nodup_append.2 ⟨h.once, by simp, ?_⟩
      rintro ⟨id, o⟩ ha b hb rfl
      obtain ⟨rfl, rfl⟩ := Prod.mk.inj (mem_singleton.1 hb)
      exact h.not_started hfresh hidle (hdue o rfl) ha
  · intro hp hs
    rw [hm] at hp hs
    rcases hmode with hmode | hmode
    · exact absurd hmode hp
    · exact absurd hmode hs
  · intro since rest hscan
    rw [hm] at hscan
    rcases hmode with hmode | hmode <;> rw [hmode] at hscan <;> cases hscan

variable {k : Nat}

lemma FireRecord.mode_of_poll (h : FireRecord s) {read : List Schedule}
    (hk : s.polls[k]? = some read) :
    s.mode = .polling ∨ s.mode = .stopping := by
  by_contra hnot
  rw [not_or] at hnot
  have hnil := (h.idle hnot.1 hnot.2).2
  simp [hnil] at hk

variable {t : DaemonTask}

lemma FireRecord.mode_of_task (h : FireRecord s) (hk : s.tasks[k]? = some t) :
    s.mode = .polling ∨ s.mode = .stopping := by
  by_contra hnot
  rw [not_or] at hnot
  have hnil := (h.idle hnot.1 hnot.2).1
  simp [hnil] at hk

/-- Replacing a task by one of the same row and kind, the store as it was: the new task must not
stop being unrecorded, and what it is to write must fit. -/
lemma FireRecord.setTask (h : FireRecord s) {t t' : DaemonTask} (hk : s.tasks[k]? = some t)
    (hrow : t'.schedule = t.schedule) (hkind : t'.kind = t.kind)
    (hphase : t'.phase ≠ .settled → t.phase ≠ .settled)
    (hfire : ∀ firedAt, t.kind = .fire firedAt → t.phase ≠ .settled → t'.phase ≠ .settled)
    (hpatch : ∀ patch inCatch, t'.phase = .recording patch inCatch → t'.PatchFits patch) :
    FireRecord { s with tasks := s.tasks.set k t' } := by
  have ht : t ∈ s.tasks := mem_of_getElem? hk
  have hid : t'.id = t.id := congrArg Schedule.id hrow
  have hlt := (List.getElem?_eq_some_iff.1 hk).choose
  refine ⟨h.rowIds, h.inFlight.set hk hid rfl rfl, ?_, ?_, ?_, ?_, h.once, ?_, h.scan_row⟩
  · intro u hu hu' row hrowmem hrowid
    rcases mem_or_eq_of_mem_set hu with hu | rfl
    · exact h.task_row u hu hu' row hrowmem hrowid
    · rw [hrow]
      exact h.task_row t ht (hphase hu') row hrowmem (hrowid.trans hid)
  · intro u hu firedAt hufire
    rcases mem_or_eq_of_mem_set hu with hu | rfl
    · exact h.task_due u hu firedAt hufire
    · rw [hrow]
      exact h.task_due t ht firedAt (hkind ▸ hufire)
  · intro u hu patch inCatch huphase
    rcases mem_or_eq_of_mem_set hu with hu | rfl
    · exact h.task_patch u hu patch inCatch huphase
    · exact hpatch patch inCatch huphase
  · intro id o ho
    rcases h.recorded id o ho with ⟨u, hu, huid, hufire, huphase⟩ | hon
    · by_cases hut : u = t
      · subst hut
        exact Or.inl ⟨t', mem_set hlt t', hid.trans huid, hkind.trans hufire,
          hfire o hufire huphase⟩
      · refine Or.inl ⟨u, ?_, huid, hufire, huphase⟩
        obtain ⟨i, hi⟩ := mem_iff_getElem?.1 hu
        refine mem_of_getElem? (i := i) ?_
        rw [getElem?_set_ne, hi]
        rintro rfl
        exact hut (some.inj (hi.symm.trans hk))
    · exact Or.inr hon
  · intro hp hs
    rcases h.mode_of_task hk with hmode | hmode
    · exact absurd hmode hp
    · exact absurd hmode hs

/-- A task that has recorded its outcome: its row has the last fire it wrote, which is not before
any that was started. -/
lemma FireRecord.recordTask (h : FireRecord s) (hk : s.tasks[k]? = some t) {inCatch : Bool}
    (hphase : t.phase = .recording patch inCatch) :
    FireRecord { s with
      rows := markFire t.id patch s.rows
      tasks := s.tasks.set k { t with phase := .settled } } := by
  have ht : t ∈ s.tasks := mem_of_getElem? hk
  have hlt := (List.getElem?_eq_some_iff.1 hk).choose
  have hopen : t.phase ≠ .settled := by simp [hphase]
  have hfits := h.task_patch t ht patch inCatch hphase
  have hinFlight : InFlightInv { s with
      rows := markFire t.id patch s.rows
      tasks := s.tasks.set k { t with phase := .settled } } :=
    h.inFlight.set hk (show DaemonTask.id { t with phase := .settled } = t.id from rfl) rfl rfl
  have hnew : { t with phase := .settled } ∈ s.tasks.set k { t with phase := .settled } :=
    mem_set hlt _
  -- what was started of the schedule is this fire, or was on the row before
  have hpast : ∀ o, (t.id, o) ∈ s.started → ∀ r ∈ s.rows, r.id = t.id → o ≤ patch.lastFireAt := by
    intro o ho r hr hrid
    have hlast := h.task_row t ht hopen r hr hrid
    rcases h.recorded t.id o ho with ⟨u, hu, hid, hfire, -⟩ | hon
    · obtain rfl := h.inFlight.eq_of_id_eq hu ht hid
      simp only [DaemonTask.PatchFits, hfire] at hfits
      exact Nat.le_of_eq hfits.symm
    · obtain ⟨l, hl, hle⟩ := hon r hr hrid
      have hrow : t.schedule.lastFireAt = some l := hlast.symm.trans hl
      cases hkind : t.kind with
      | resume =>
        simp only [DaemonTask.PatchFits, hkind] at hfits
        rw [hfits l hrow]
        exact hle
      | fire firedAt =>
        simp only [DaemonTask.PatchFits, hkind] at hfits
        have hdue := h.task_due t ht firedAt hkind
        simp only [Schedule.lowerBound, hrow, getD_some] at hdue
        omega
  refine ⟨by rw [map_id_markFire]; exact h.rowIds, hinFlight, ?_, ?_, ?_, ?_, h.once, ?_, ?_⟩
  · intro u hu hu' row hrow hrowid
    rcases mem_markFire hrow with ⟨hid, -⟩ | ⟨hne, hrow⟩
    · obtain rfl := hinFlight.eq_of_id_eq hu hnew (hrowid.symm.trans hid)
      exact absurd rfl hu'
    · rcases mem_or_eq_of_mem_set hu with hu | rfl
      · exact h.task_row u hu hu' row hrow hrowid
      · exact absurd rfl hu'
  · intro u hu firedAt hufire
    rcases mem_or_eq_of_mem_set hu with hu | rfl
    · exact h.task_due u hu firedAt hufire
    · exact h.task_due t ht firedAt hufire
  · intro u hu patch' inCatch' huphase
    rcases mem_or_eq_of_mem_set hu with hu | rfl
    · exact h.task_patch u hu patch' inCatch' huphase
    · cases huphase
  · intro id o ho
    by_cases hid : id = t.id
    · subst hid
      refine Or.inr fun row hrow hrowid => ?_
      rcases mem_markFire hrow with ⟨-, hlast, r, hr, hrid⟩ | ⟨hne, -⟩
      · exact ⟨patch.lastFireAt, hlast, hpast o ho r hr hrid⟩
      · exact absurd hrowid hne
    · rcases h.recorded id o ho with ⟨u, hu, huid, hufire, huphase⟩ | hon
      · refine Or.inl ⟨u, ?_, huid, hufire, huphase⟩
        obtain ⟨i, hi⟩ := mem_iff_getElem?.1 hu
        refine mem_of_getElem? (i := i) ?_
        rw [getElem?_set_ne, hi]
        rintro rfl
        exact hid (huid.symm.trans (congrArg DaemonTask.id (some.inj (hi.symm.trans hk))))
      · refine Or.inr fun row hrow hrowid => ?_
        rcases mem_markFire hrow with ⟨hrow, -⟩ | ⟨-, hrow⟩
        · exact absurd (hrowid.symm.trans hrow) hid
        · exact hon row hrow hrowid
  · intro hp hs
    rcases h.mode_of_task hk with hmode | hmode
    · exact absurd hmode hp
    · exact absurd hmode hs
  · intro since rest hscan
    rcases h.mode_of_task hk with hmode | hmode <;> rw [hmode] at hscan <;> cases hscan

lemma FireRecord.frame {s s' : DaemonState} (h : FireRecord s)
    (hrows : ∀ row ∈ s'.rows, ∃ r ∈ s.rows, row.id = r.id ∧ row.lastFireAt = r.lastFireAt)
    (hids : s'.rows.map Schedule.id = s.rows.map Schedule.id) (htasks : s'.tasks = s.tasks)
    (hinFlight : s'.inFlight = s.inFlight) (hstarted : s'.started = s.started)
    (hidle : s'.mode ≠ .polling → s'.mode ≠ .stopping → s'.tasks = [] ∧ s'.polls = [])
    (hscan : ∀ since rest, s'.mode = .scanning since rest → (rest.map Schedule.id).Nodup ∧
      ∀ r ∈ rest, ∀ row ∈ s'.rows, row.id = r.id → row.lastFireAt = r.lastFireAt) :
    FireRecord s' := by
  refine ⟨by rw [hids]; exact h.rowIds, ⟨?_, ?_⟩, ?_, ?_, ?_, ?_, ?_, hidle, hscan⟩
  · rw [hinFlight, htasks]
    exact h.inFlight.mem_iff
  · rw [htasks]
    exact h.inFlight.nodup
  · intro t ht hphase row hrow hid
    rw [htasks] at ht
    obtain ⟨r, hr, hrid, hlast⟩ := hrows row hrow
    rw [hlast]
    exact h.task_row t ht hphase r hr (hrid.symm.trans hid)
  · rw [htasks]
    exact h.task_due
  · rw [htasks]
    exact h.task_patch
  · intro id o ho
    rw [hstarted] at ho
    rcases h.recorded id o ho with hopen | hon
    · refine Or.inl ?_
      rw [DaemonState.Unrecorded, htasks]
      exact hopen
    · refine Or.inr fun row hrow hid => ?_
      obtain ⟨r, hr, hrid, hlast⟩ := hrows row hrow
      rw [hlast]
      exact hon r hr (hrid.symm.trans hid)
  · rw [hstarted]
    exact h.once

lemma FireRecord.scanRow (h : FireRecord s) {since : Nat} {rest : List Schedule}
    (hmode : s.mode = .scanning since (r :: rest)) (outcome : WriteOutcome) :
    FireRecord (scanRow cfg s since r rest outcome) := by
  obtain ⟨hnodup, hsame⟩ := h.scan_row since (r :: rest) hmode
  obtain ⟨htasks, hpolls⟩ := h.idle (by simp [hmode]) (by simp [hmode])
  rw [map_cons, nodup_cons] at hnodup
  have hkeep : FireRecord { s with mode := .scanning since rest } := by
    refine h.frame (fun row hrow => ⟨row, hrow, rfl, rfl⟩) rfl rfl rfl rfl
      (fun _ _ => ⟨htasks, hpolls⟩) ?_
    intro since' rest' hscan
    obtain ⟨rfl, rfl⟩ := DaemonMode.scanning.inj hscan
    exact ⟨hnodup.2, fun r' hr' => hsame r' (mem_cons_of_mem _ hr')⟩
  unfold Yantra.scanRow
  cases hdue : dueTime cfg s r since with
  | none => exact hkeep
  | some due =>
    cases outcome with
    | err => exact hkeep
    | threw =>
      refine h.frame (fun row hrow => ⟨row, hrow, rfl, rfl⟩) rfl rfl rfl rfl
        (fun _ _ => ⟨htasks, hpolls⟩) ?_
      intro since' rest' hscan
      cases hscan
    | ok =>
      -- nothing is in flight, so what was started of the schedule is on its row, before `since`
      have hlower : r.lowerBound < since := by
        unfold dueTime at hdue
        split_ifs at hdue
        split at hdue
        · cases hdue
        · rename_i d hnext
          split_ifs at hdue with hlt
          have := (cfg.cron r.cronExpr).lt_of_next hnext
          omega
      refine ⟨by simpa only [map_id_markFire] using h.rowIds,
        ⟨h.inFlight.mem_iff, h.inFlight.nodup⟩, ?_, ?_, ?_, ?_, h.once,
        fun _ _ => ⟨htasks, hpolls⟩, ?_⟩
      · intro t ht
        simp [htasks] at ht
      · intro t ht
        simp [htasks] at ht
      · intro t ht
        simp [htasks] at ht
      · intro id o ho
        rcases h.recorded id o ho with ⟨t, ht, -⟩ | hon
        · simp [htasks] at ht
        · refine Or.inr fun row hrow hrowid => ?_
          rcases mem_markFire hrow with ⟨hid, hlast, r', hr', hrid⟩ | ⟨-, hrow⟩
          · refine ⟨since, hlast, ?_⟩
            obtain ⟨l, hl, hle⟩ := hon r' hr' (hrid.trans (hid.symm.trans hrowid))
            have hrlast := (hsame r mem_cons_self r' hr' hrid).symm.trans hl
            simp only [Schedule.lowerBound, hrlast, getD_some] at hlower
            omega
          · exact hon row hrow hrowid
      · intro since' rest' hscan
        obtain ⟨rfl, rfl⟩ := DaemonMode.scanning.inj hscan
        refine ⟨hnodup.2, fun r' hr' row hrow hrowid => ?_⟩
        rcases mem_markFire hrow with ⟨hid, -⟩ | ⟨-, hrow⟩
        · have hmem : r.id ∈ rest.map Schedule.id :=
            List.mem_map.2 ⟨r', hr', hrowid.symm.trans hid⟩
          exact absurd hmem hnodup.1
        · exact hsame r' (mem_cons_of_mem _ hr') row hrow hrowid

lemma settleTask_spec (cfg : DaemonConfig) (now : Nat) (t : DaemonTask) (o : Settlement) :
    ((settleTask cfg now t o).phase ≠ .settled → t.phase ≠ .settled) ∧
      (∀ firedAt, t.kind = .fire firedAt → t.phase ≠ .settled →
        (settleTask cfg now t o).phase ≠ .settled) ∧
      ∀ patch inCatch, (settleTask cfg now t o).phase = .recording patch inCatch →
        (settleTask cfg now t o).PatchFits patch ∨ t.phase = .recording patch inCatch := by
  obtain ⟨r, kind, phase⟩ := t
  cases phase with
  | running =>
    refine ⟨by simp, ?_, ?_⟩
    · intro firedAt hkind
      obtain rfl : kind = .fire firedAt := hkind
      cases o <;> simp [settleTask]
    · cases kind <;> cases o <;>
        simp +contextual [settleTask, DaemonTask.PatchFits, firePatch, resumePatch]
  | recording patch inCatch => exact ⟨by simp, by simp [settleTask], by simp [settleTask]⟩
  | settled => exact ⟨by simp [settleTask], by simp, by simp [settleTask]⟩

lemma FireRecord.writeTask (h : FireRecord s) (hk : s.tasks[k]? = some t) {o : WriteOutcome}
    (ho : t.FireRecorded o) :
    FireRecord { s with
      rows := (writeTask cfg t o s.rows).1
      tasks := s.tasks.set k (writeTask cfg t o s.rows).2 } := by
  have ht : t ∈ s.tasks := mem_of_getElem? hk
  have hkeep : FireRecord { s with tasks := s.tasks.set k t } :=
    h.setTask hk rfl rfl id (fun _ _ => id) (h.task_patch t ht)
  cases hphase : t.phase with
  | running => simpa only [Yantra.writeTask, hphase] using hkeep
  | settled => simpa only [Yantra.writeTask, hphase] using hkeep
  | recording patch inCatch =>
    have hopen : t.phase ≠ .settled := by simp [hphase]
    cases hkind : t.kind with
    | resume =>
      have hsettle : FireRecord { s with tasks := s.tasks.set k { t with phase := .settled } } :=
        h.setTask hk rfl rfl (fun hne => absurd rfl hne)
          (fun _ hfire => by rw [hkind] at hfire; cases hfire) (fun _ _ hp => by cases hp)
      cases o with
      | ok => simpa only [Yantra.writeTask, hphase] using h.recordTask hk hphase
      | err => simpa only [Yantra.writeTask, hphase] using hsettle
      | threw => simpa only [Yantra.writeTask, hphase, hkind] using hsettle
    | fire firedAt =>
      simp only [DaemonTask.FireRecorded, hkind, hphase] at ho
      rcases ho with rfl | ⟨rfl, rfl⟩
      · simpa only [Yantra.writeTask, hphase] using h.recordTask hk hphase
      · -- the fire is to be recorded as failed
        simp only [Yantra.writeTask, hphase, hkind]
        refine h.setTask hk rfl hkind.symm (fun _ => hopen) (fun _ _ _ => by simp) ?_
        intro patch' inCatch' hp
        obtain ⟨rfl, -⟩ := TaskPhase.recording.inj hp
        simp only [DaemonTask.PatchFits, firePatch]

lemma FireRecord.eraseTask (h : FireRecord s) (hk : s.tasks[k]? = some t)
    (hphase : t.phase = .settled) :
    FireRecord { s with
      tasks := s.tasks.eraseIdx k
      inFlight := s.inFlight.filter fun id => id ≠ t.id } := by
  have hmem : ∀ {u}, u ∈ s.tasks.eraseIdx k → u ∈ s.tasks := mem_of_mem_eraseIdx
  refine ⟨h.rowIds, h.inFlight.eraseIdx hk rfl rfl, fun u hu => h.task_row u (hmem hu),
    fun u hu => h.task_due u (hmem hu), fun u hu => h.task_patch u (hmem hu), ?_, h.once, ?_,
    h.scan_row⟩
  · intro id o ho
    rcases h.recorded id o ho with ⟨u, hu, huid, hufire, huphase⟩ | hon
    · -- the task that leaves is settled, so it is not the one unrecorded
      refine Or.inl ⟨u, ?_, huid, hufire, huphase⟩
      obtain ⟨i, hi⟩ := mem_iff_getElem?.1 hu
      refine mem_eraseIdx_iff_getElem?.2 ⟨i, ?_, hi⟩
      rintro rfl
      obtain rfl := some.inj (hi.symm.trans hk)
      exact huphase hphase
    · exact Or.inr hon
  · intro hp hs
    rcases h.mode_of_task hk with hmode | hmode
    · exact absurd hmode hp
    · exact absurd hmode hs

lemma FireRecord.exit (h : FireRecord s)
    (hfires : ∀ t ∈ s.tasks, t.kind.isFire → t.phase = .settled) :
    FireRecord { s with mode := .down, polls := [], tasks := [], inFlight := [] } := by
  refine ⟨h.rowIds, ⟨by simp, by simp⟩, by simp, by simp, by simp, ?_, h.once,
    fun _ _ => ⟨rfl, rfl⟩, ?_⟩
  · intro id o ho
    rcases h.recorded id o ho with ⟨t, ht, -, hkind, hopen⟩ | hon
    · exact absurd (hfires t ht (by rw [hkind]; rfl)) hopen
    · exact Or.inr hon
  · intro since rest hscan
    cases hscan

/-- **A step that meets the conditions keeps the invariant.** -/
lemma FireRecord.step (h : FireRecord s) {a : DaemonAction} (ha : FiresRecorded cfg s a) :
    FireRecord (daemonStep cfg s a) := by
  have hsame : ∀ row ∈ s.rows, ∃ r ∈ s.rows, row.id = r.id ∧ row.lastFireAt = r.lastFireAt :=
    fun row hrow => ⟨row, hrow, rfl, rfl⟩
  cases a with
  | advance => exact h.frame hsame rfl rfl rfl rfl h.idle h.scan_row
  | setEnabled id enabled =>
    refine h.frame (fun row hrow => mem_setEnabled hrow) (map_id_setEnabled id enabled s.rows)
      rfl rfl rfl h.idle ?_
    intro since rest hscan
    obtain ⟨hnodup, hrest⟩ := h.scan_row since rest hscan
    refine ⟨hnodup, fun r hr row hrow hid => ?_⟩
    obtain ⟨row', hrow', hid', hlast⟩ := mem_setEnabled hrow
    rw [hlast]
    exact hrest r hr row' hrow' (hid'.symm.trans hid)
  | start readOk =>
    simp only [daemonStep]
    split
    · rename_i hmode
      have hnil := h.idle (by simp [hmode]) (by simp [hmode])
      refine h.frame hsame rfl rfl rfl rfl (fun _ _ => hnil) ?_
      intro since rest hscan
      cases readOk with
      | false => cases hscan
      | true =>
        obtain ⟨rfl, rfl⟩ := DaemonMode.scanning.inj hscan
        refine ⟨h.rowIds.sublist (Sublist.map _ filter_sublist), ?_⟩
        intro r hr row hrow hid
        rw [inj_on_of_nodup_map h.rowIds hrow (mem_of_mem_filter hr) hid]
    · exact h
  | scan outcome =>
    simp only [daemonStep]
    split
    · refine h.frame hsame rfl rfl rfl rfl (fun hp => absurd rfl hp) ?_
      intro since rest hscan
      cases hscan
    · rename_i since r rest hmode
      exact h.scanRow hmode outcome
    · exact h
  | poll readOk =>
    simp only [daemonStep]
    split
    · rename_i hmode
      split
      · refine h.frame hsame rfl rfl rfl rfl (fun hp => absurd hmode hp) ?_
        intro since rest hscan
        rw [show s.mode = .scanning since rest from hscan] at hmode
        cases hmode
      · exact h
    · exact h
  | resumePoll k =>
    simp only [daemonStep]
    cases hk : s.polls[k]? with
    | none => exact h
    | some read =>
      have hmode := h.mode_of_poll hk
      have hs : FireRecord { s with polls := s.polls.eraseIdx k } := by
        refine h.frame hsame rfl rfl rfl rfl (fun hp hs => ?_) h.scan_row
        rcases hmode with hmode | hmode
        · exact absurd hmode hp
        · exact absurd hmode hs
      refine (foldl_launch (fun s => FireRecord s ∧ (s.mode = .polling ∨ s.mode = .stopping))
        (fun s r _ => s.RowFresh r) ?_ ?_ ⟨hs, hmode⟩ ?_).1
      · rintro s r kind ⟨hs, hm⟩ hl hfresh
        refine ⟨hs.withLaunch hm hl hfresh, ?_⟩
        rwa [(withLaunch_frame s r kind).2.2.1]
      · intro s r kind r' _ hfresh
        rw [DaemonState.RowFresh, (withLaunch_frame s r kind).1]
        exact hfresh
      · intro r hr kind hl
        exact ha read hk r hr (by rw [show launches cfg s r = some kind from hl]; simp)
  | settle k o =>
    simp only [daemonStep]
    cases hk : s.tasks[k]? with
    | none => exact h
    | some t =>
      obtain ⟨hrow, hkind⟩ := settleTask_frame cfg s.now t o
      obtain ⟨hphase, hfire, hpatch⟩ := settleTask_spec cfg s.now t o
      refine h.setTask hk hrow hkind hphase hfire fun patch inCatch hp => ?_
      rcases hpatch patch inCatch hp with hfits | hsame
      · exact hfits
      · have hfits := h.task_patch t (mem_of_getElem? hk) patch inCatch hsame
        simpa only [DaemonTask.PatchFits, hrow, hkind] using hfits
  | write k o =>
    simp only [daemonStep]
    cases hk : s.tasks[k]? with
    | none => exact h
    | some t =>
      exact h.writeTask hk (ha t hk)
  | finish k =>
    simp only [daemonStep]
    cases hk : s.tasks[k]? with
    | none => exact h
    | some t =>
      simp only
      split
      · rename_i hphase
        exact h.eraseTask hk hphase
      · exact h
  | stop =>
    simp only [daemonStep]
    split
    · refine h.frame hsame rfl rfl rfl rfl (fun _ hs => absurd rfl hs) ?_
      intro since rest hscan
      cases hscan
    · exact h
  | exit => exact h.exit ha

/-! ## The runs -/

lemma FireRecord.init (now : Nat) (hrows : (rows.map Schedule.id).Nodup) :
    FireRecord { now := now, rows := rows } :=
  ⟨hrows, ⟨by simp, by simp⟩, by simp, by simp, by simp, by simp, by simp, by simp, by simp⟩

lemma FireRecord.run {now : Nat} (hrows : (rows.map Schedule.id).Nodup) {acts : List DaemonAction}
    (hacts : (daemon cfg now rows).Along (FiresRecorded cfg) (daemon cfg now rows).init acts) :
    FireRecord ((daemon cfg now rows).run acts) :=
  Machine.invariant_runFrom (fun _ _ hs ha => hs.step ha) (FireRecord.init now hrows) hacts

/-- **No overlap, and one fire for an occurrence.** Over a store whose ids differ, no run of the
daemon has two executions of a schedule in flight; and where every fire is recorded, and every
row a poll launches is as fresh as the store, no occurrence starts two fires. -/
theorem fires_apart_and_once (cfg : DaemonConfig) (now : Nat) (rows : List Schedule)
    (hrows : (rows.map Schedule.id).Nodup) (acts : List DaemonAction) :
    ((daemon cfg now rows).run acts).OverlapFree ∧
      ((daemon cfg now rows).Along (FiresRecorded cfg) (daemon cfg now rows).init acts →
        ((daemon cfg now rows).run acts).FiredOnce) :=
  ⟨(inFlight_runFrom cfg now rows acts).nodup, fun hacts => (FireRecord.run hrows hacts).once⟩

/-! ## Two fires of one occurrence -/

/-- A process that starts, finds nothing missed, and polls when the first occurrence is due. -/
def firstDue : List DaemonAction := [.start true, .scan .ok, .scan .ok, .advance 5]

/-- The fire of an occurrence that succeeds, up to its record. -/
def oneFire (record : WriteOutcome) : List DaemonAction :=
  [.resumePoll 0, .settle 0 (.result ⟨some "run-1", .succeeded⟩), .write 0 record, .finish 0]

/-- The occurrences at 5 and at 10 are fired, the first of them recorded. -/
def twoOccurrences : List DaemonAction :=
  firstDue ++ .poll true :: oneFire .ok ++ [.advance 5, .poll true, .resumePoll 0]

/-- The store reports an error for the record of the fire. -/
def unrecordedFire : List DaemonAction :=
  firstDue ++ .poll true :: oneFire .err ++ [.poll true, .resumePoll 0]

/-- A second poll has read the row before the record and continues after it. -/
def stalePoll : List DaemonAction :=
  firstDue ++ .poll true :: .poll true :: oneFire .ok ++ [.resumePoll 0]

/-- A run in which the record succeeds meets the conditions, and fires two occurrences once. -/
theorem fires_apart_and_once_digest :
    ((daemon everyFive 0 [digestSchedule]).run twoOccurrences).started =
        [("sch-digest", 5), ("sch-digest", 10)] ∧
      ((daemon everyFive 0 [digestSchedule]).run twoOccurrences).FiredOnce :=
  ⟨by decide,
    (fires_apart_and_once everyFive 0 [digestSchedule] (by decide) twoOccurrences).2
      (by decide)⟩

/-- The occurrence at 5 fires twice: when the record of its fire fails, and when a poll continues
with a row read before the record. -/
theorem occurrence_fires_twice :
    ¬ ((daemon everyFive 0 [digestSchedule]).run unrecordedFire).FiredOnce ∧
      ¬ ((daemon everyFive 0 [digestSchedule]).run stalePoll).FiredOnce := by
  have hfailed : ((daemon everyFive 0 [digestSchedule]).run unrecordedFire).started =
      [("sch-digest", 5), ("sch-digest", 5)] := by decide
  have hstale : ((daemon everyFive 0 [digestSchedule]).run stalePoll).started =
      [("sch-digest", 5), ("sch-digest", 5)] := by decide
  constructor
  · rw [DaemonState.FiredOnce, hfailed]
    decide
  · rw [DaemonState.FiredOnce, hstale]
    decide

end Yantra
