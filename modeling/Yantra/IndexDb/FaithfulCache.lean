import Yantra.IndexDb.History
import Mathlib.Data.List.Dedup
import Mathlib.Data.List.Perm.Lattice
import Mathlib.Algebra.Order.BigOperators.Group.List
import Mathlib.Algebra.Order.Group.Nat

/-!
# The history index as a cache of the run tree

A rebuild deletes what it has not scanned. It keeps a recorded run where its scan is of the
manifest that was recorded, and its rows do not depend on the order of the scan where no two
directories have manifests of one run.

## Main definitions

* `HistoryIndex.includes` — a scan under way has, or will have, the manifest as it is.
* `FaithfulCache` — what is promised of a state.

## Main results

* `faithfulCache_run` — the promise holds of every run whose steps meet them.
-/

namespace Yantra

open List Option Bool Prod

variable (getTime : String → Option ℤ)

/-! ## What is promised -/

/-- The entry of a directory, read with nothing written meanwhile. -/
def RunTree.entryOf (tree : RunTree) (dir : String) : Option HistoryEntry :=
  (ManifestReading.step getTime tree true (ManifestReading.step getTime tree true
    (ManifestReading.step getTime tree true { dir }))).entry

/-- The reads of some directories. -/
def undisturbedReads (id : ℕ) (dirs : List String) : List HistoryEvent :=
  dirs.flatMap fun dir => List.replicate 3 (.fileRead id dir true)

/-- A rebuild with nothing else happening. -/
def undisturbedRebuild (id : ℕ) (dirs : List String) : List HistoryEvent :=
  .rebuildCalled :: .listed id (some dirs) :: undisturbedReads id dirs ++ [.settles id .committed]

/-- A recording with nothing else happening. -/
def undisturbedRecord (id : ℕ) (dir : String) : List HistoryEvent :=
  .recordCalled dir :: undisturbedReads id [dir] ++ [.settles id .committed]

/-- Recordings of some directories, one after another. -/
def undisturbedRecords : ℕ → List String → List HistoryEvent
  | _, [] => []
  | id, dir :: dirs => undisturbedRecord id dir ++ undisturbedRecords (id + 1) dirs

/-- No two directories have manifests of one run. -/
def RunTree.DistinctRunIds (tree : RunTree) : Prop :=
  ((tree.keys.filterMap (RunTree.entryOf getTime tree)).map HistoryEntry.runId).Nodup

instance (tree : RunTree) : Decidable (tree.DistinctRunIds getTime) :=
  inferInstanceAs (Decidable (List.Nodup _))

/-- The events of a store, from any state. -/
def HistoryIndex.runFrom (s : HistoryIndex) (events : List HistoryEvent) : HistoryIndex :=
  events.foldl (HistoryIndex.step getTime) s

/-- A rebuild gives the rows of recordings of every directory into an empty table, and counts
them. -/
def RebuildAgrees (s : HistoryIndex) : Prop :=
  ∀ listing order : List String, listing.Perm s.tree.keys → order.Perm s.tree.keys →
    let rebuilt := s.runFrom getTime (undisturbedRebuild s.calls.length listing)
    let recorded := HistoryIndex.runFrom getTime { s with table := .empty }
      (undisturbedRecords s.calls.length order)
    (∀ runId, rebuilt.table.get? runId = recorded.table.get? runId) ∧
      rebuilt.calls.getLast? = some (.rebuilt (.ok rebuilt.table.entries.length))

namespace HistoryIndex

variable (s : HistoryIndex)

/-- The stamp of the manifest of a directory. -/
def stampAt (dir : String) : Option ℕ := (s.tree.get? dir).map RunFiles.stamp

def isCurrent (r : ManifestReading) : Bool := r.stamp.isSome && r.stamp == s.stampAt r.dir

/-- The manifest of a directory has been recorded as it is, with success. -/
def recorded (dir : String) : Bool :=
  s.calls.any fun
    | .record r (some (.ok true)) => r.dir == dir && s.isCurrent r
    | _ => false

end HistoryIndex

def ManifestReading.isFresh (r : ManifestReading) : Bool :=
  match r.stage with
  | .manifest => true
  | _ => false

/-- A scan has, or will have, the manifest of a directory as it is. -/
def HistoryIndex.includes (s : HistoryIndex) (readings : List ManifestReading) (dir : String) :
    Bool :=
  readings.any fun r => r.dir == dir && (r.isFresh || s.isCurrent r)

/-- The scan of a rebuild that has listed the tree, and not written. -/
def HistoryCall.scan : HistoryCall → Option (List ManifestReading)
  | .rebuildReading readings => some readings
  | _ => none

namespace HistoryIndex

variable (s : HistoryIndex)

def reports : HistoryEvent → Option ManifestReading
  | .settles id .committed =>
    match s.calls[id]? with
    | some (.record r none) => if r.entry.isSome then some r else none
    | _ => none
  | _ => none

def missesTree : HistoryEvent → Bool
  | .listed id none =>
    match s.calls[id]? with
    | some .rebuildListing => true
    | _ => false
  | _ => false

/-- The directory of which a rebuild fails to read the manifest. -/
def missesManifest : HistoryEvent → Option String
  | .fileRead id dir false =>
    match s.calls[id]? with
    | some (.rebuildReading readings) =>
      if readings.any fun r => r.dir == dir && r.isFresh then some dir else none
    | _ => none
  | _ => none

def leavesOpen : HistoryEvent → Bool
  | .settles id (.failed (_ + 1) false) =>
    match s.calls[id]? with
    | some (.rebuildReading _) => true
    | _ => false
  | _ => false

end HistoryIndex

structure HistoryMeets (s : HistoryIndex) (event : HistoryEvent) : Prop where
  /-- No two directories have manifests of one run. -/
  distinct : (s.step getTime event).tree.DistinctRunIds getTime
  /-- A recording of the manifest on disk is reported only where each scan under way has, or will
  have, that manifest. -/
  reports : ∀ r ∈ s.reports event, s.isCurrent r = true →
    ∀ call ∈ s.calls, ∀ readings ∈ call.scan, s.includes readings r.dir = true
  /-- A rebuild fails to list the tree only where no manifest on disk has been recorded. -/
  lists : s.missesTree event = true → ∀ dir ∈ s.tree.keys, s.recorded dir = false
  /-- A rebuild fails to read a manifest only where it has not been recorded as it is. -/
  reads : ∀ dir ∈ s.missesManifest event, s.recorded dir = false
  /-- A rebuild that fails is rolled back. -/
  rollsBack : s.leavesOpen event = false

instance (s : HistoryIndex) (event : HistoryEvent) : Decidable (HistoryMeets getTime s event) :=
  decidable_of_iff
    ((s.step getTime event).tree.DistinctRunIds getTime ∧
      (∀ r ∈ s.reports event, s.isCurrent r = true →
        ∀ call ∈ s.calls, ∀ readings ∈ call.scan, s.includes readings r.dir = true) ∧
      (s.missesTree event = true → ∀ dir ∈ s.tree.keys, s.recorded dir = false) ∧
      (∀ dir ∈ s.missesManifest event, s.recorded dir = false) ∧ s.leavesOpen event = false)
    ⟨fun h => ⟨h.1, h.2.1, h.2.2.1, h.2.2.2.1, h.2.2.2.2⟩,
      fun h => ⟨h.distinct, h.reports, h.lists, h.reads, h.rollsBack⟩⟩

structure FaithfulCache (s : HistoryIndex) : Prop where
  /-- A recorded run whose manifest is on disk is in the table. -/
  present : ∀ dir entry, s.recorded dir = true → s.tree.entryOf getTime dir = some entry →
    s.table.has entry.runId = true
  /-- A rebuild that fails leaves the table as it was. -/
  kept : ∀ id readings statement, s.calls[id]? = some (.rebuildReading readings) →
    (s.step getTime (.settles id (.failed statement true))).table = s.table
  agrees : RebuildAgrees getTime s

/-! ## Tables -/

variable (entries : List HistoryEntry)

open HistoryTable

lemma insertAll_eq : insertAll entries =
    OrderedMap.ofList (entries.map fun entry => (entry.runId, entry)) := by
  unfold OrderedMap.ofList insertAll
  rw [foldl_map]
  rfl

lemma map_fst_runIds :
    (entries.map fun entry => (entry.runId, entry)).map fst =
      entries.map HistoryEntry.runId := by
  rw [List.map_map]
  rfl

variable {entry : HistoryEntry}

open OrderedMap

lemma has_insertAll_of_mem {entries : List HistoryEntry} (h : entry ∈ entries) :
    (insertAll entries).has entry.runId := by
  rw [insertAll_eq]
  have hkey : entry.runId ∈ (entries.map fun entry => (entry.runId, entry)).map fst := by
    rw [map_fst_runIds]
    exact List.mem_map_of_mem h
  obtain ⟨row, hrow⟩ := exists_get?_ofList hkey
  rw [has, hrow]
  rfl

lemma mem_keys_insertAll (runId : String) :
    runId ∈ (insertAll entries).keys ↔ runId ∈ entries.map HistoryEntry.runId := by
  rw [← has_iff_mem_keys]
  constructor
  · intro hhas
    obtain ⟨row, hrow⟩ := isSome_iff_exists.1 hhas
    rw [insertAll_eq] at hrow
    obtain ⟨entry, hentry, heq⟩ := List.mem_map.1 (mem_of_get?_ofList hrow)
    cases heq
    exact List.mem_map_of_mem hentry
  · intro hmem
    obtain ⟨entry, hentry, rfl⟩ := List.mem_map.1 hmem
    exact has_insertAll_of_mem hentry

lemma length_insertAll_iff :
    (insertAll entries).entries.length = entries.length ↔
      (entries.map HistoryEntry.runId).Nodup := by
  have hkeys : (insertAll entries).keys.Perm
      (entries.map HistoryEntry.runId).dedup := by
    refine (perm_ext_iff_of_nodup (insertAll entries).nodup
      (nodup_dedup _)).2 fun runId => ?_
    rw [mem_dedup]
    exact mem_keys_insertAll entries runId
  have hlength : (insertAll entries).entries.length =
      (entries.map HistoryEntry.runId).dedup.length := by
    rw [← hkeys.length_eq, OrderedMap.keys, length_map]
  have hall : entries.length = (entries.map HistoryEntry.runId).length := by rw [length_map]
  rw [hlength, hall, ← dedup_eq_self]
  constructor
  · exact fun h => (dedup_sublist _).eq_of_length h
  · exact fun h => congrArg List.length h

lemma get?_insertAll_perm {entries entries' : List HistoryEntry} (hperm : entries.Perm entries')
    (hdistinct : (entries.map HistoryEntry.runId).Nodup) (runId : String) :
    (insertAll entries).get? runId = (insertAll entries').get? runId := by
  have hrow : ∀ {es : List HistoryEntry}, (es.map HistoryEntry.runId).Nodup → ∀ row,
      (insertAll es).get? runId = some row ↔ row ∈ es ∧ row.runId = runId := by
    intro es hes row
    rw [insertAll_eq]
    constructor
    · intro hget
      obtain ⟨entry, hentry, heq⟩ := List.mem_map.1 (mem_of_get?_ofList hget)
      cases heq
      exact ⟨hentry, rfl⟩
    · rintro ⟨hmem, rfl⟩
      exact get?_ofList_of_mem (by rw [map_fst_runIds]; exact hes)
        (List.mem_map_of_mem hmem)
  refine ext fun row => ?_
  rw [hrow hdistinct, hrow ((hperm.map _).nodup_iff.1 hdistinct), hperm.mem_iff]

/-! ## Entries -/

variable {getTime : String → Option ℤ}

variable {dir : String} {raw : Value}

lemma runId_deriveHistoryEntry {found : Option BriefMeta}
    (h : deriveHistoryEntry getTime dir raw found = .ok (some entry)) (found' : Option BriefMeta) :
    ∃ entry', deriveHistoryEntry getTime dir raw found' = .ok (some entry') ∧
      entry'.runId = entry.runId := by
  unfold deriveHistoryEntry at h ⊢
  split at h
  · cases h
  · split at h
    · unfold deriveAskEntry at h ⊢
      cases hstarted : asString (raw.fieldAt "started_at") with
      | none => simp [hstarted] at h
      | some startedAt =>
        simp only [hstarted, bind_eq_bind, bind_some, Except.ok.injEq,
          some.injEq] at h ⊢
        subst h
        exact ⟨_, rfl, rfl⟩
    · split at h
      · unfold deriveRunEntry at h ⊢
        cases hstarted : asString (raw.fieldAt "startedAt") with
        | none => simp [hstarted] at h
        | some startedAt =>
          cases hstatus : mapRunStatus (asString (raw.fieldAt "status")) with
          | none => simp [hstarted, hstatus] at h
          | some status =>
            simp only [hstarted, hstatus, bind_eq_bind, bind_some, Except.ok.injEq,
              some.injEq] at h ⊢
            subst h
            exact ⟨_, rfl, rfl⟩
      · cases h

open RunTree

/-! ## Calls with nothing else happening -/

namespace HistoryIndex

variable {s : HistoryIndex} {id : ℕ}

/-- Three reads of a directory. -/
def readThrice (getTime : String → Option ℤ) (s : HistoryIndex) (r : ManifestReading)
    (dir : String) : ManifestReading :=
  s.readOne getTime dir true (s.readOne getTime dir true (s.readOne getTime dir true r))

lemma getElem?_withCall {call : HistoryCall} (hcall : s.calls[id]? = some call)
    (call' : HistoryCall) : (s.withCall id call').calls[id]? = some call' :=
  getElem?_set_self (List.getElem?_eq_some_iff.1 hcall).1

lemma withCall_withCall (call call' : HistoryCall) :
    (s.withCall id call).withCall id call' = s.withCall id call' := by
  unfold withCall
  dsimp only
  rw [set_set]

lemma step_fileRead_rebuild (getTime : String → Option ℤ) {readings : List ManifestReading}
    (hcall : s.calls[id]? = some (.rebuildReading readings)) (dir : String) :
    s.step getTime (.fileRead id dir true) =
      s.withCall id (.rebuildReading (readings.map (s.readOne getTime dir true))) := by
  unfold step
  dsimp only
  rw [hcall]

lemma step_fileRead_record (getTime : String → Option ℤ) {r : ManifestReading}
    (hcall : s.calls[id]? = some (.record r none)) (dir : String) :
    s.step getTime (.fileRead id dir true) =
      s.withCall id (.record (s.readOne getTime dir true r) none) := by
  unfold step
  dsimp only
  rw [hcall]

lemma runFrom_undisturbedReads (getTime : String → Option ℤ) {readings : List ManifestReading}
    (hcall : s.calls[id]? = some (.rebuildReading readings)) (dirs : List String) :
    s.runFrom getTime (undisturbedReads id dirs) =
      s.withCall id (.rebuildReading
        (readings.map fun r => dirs.foldl (s.readThrice getTime) r)) := by
  induction dirs generalizing s readings with
  | nil =>
    obtain ⟨hlt, hget⟩ := List.getElem?_eq_some_iff.1 hcall
    unfold withCall
    simp only [foldl_nil, List.map_id']
    rw [← hget, set_getElem_self]
    rfl
  | cons dir dirs ih =>
    have hthree : s.runFrom getTime (replicate 3 (.fileRead id dir true)) =
        s.withCall id (.rebuildReading (readings.map fun r => s.readThrice getTime r dir)) := by
      have hone := step_fileRead_rebuild getTime hcall dir
      have htwo := step_fileRead_rebuild getTime (getElem?_withCall hcall
        (.rebuildReading (readings.map (s.readOne getTime dir true)))) dir
      have hlast := step_fileRead_rebuild getTime (getElem?_withCall hcall
        (.rebuildReading ((readings.map (s.readOne getTime dir true)).map
          (s.readOne getTime dir true)))) dir
      simp only [runFrom, replicate_succ, replicate_zero, foldl_cons,
        foldl_nil]
      rw [hone, htwo, withCall_withCall]
      refine Eq.trans hlast ?_
      rw [withCall_withCall, List.map_map, List.map_map]
      rfl
    have hsplit : undisturbedReads id (dir :: dirs) =
        replicate 3 (.fileRead id dir true) ++ undisturbedReads id dirs := rfl
    rw [hsplit, runFrom, foldl_append]
    change runFrom getTime (runFrom getTime s _) _ = _
    rw [hthree, ih (getElem?_withCall hcall _), withCall_withCall, List.map_map]
    rfl

lemma step_of_result {tree : RunTree} {ok : Bool} {r : ManifestReading} (h : r.result.isSome) :
    r.step getTime tree ok = r := by
  unfold ManifestReading.result at h
  unfold ManifestReading.step
  cases hstage : r.stage with
  | manifest | brief | document => simp [hstage] at h
  | done result => rfl

lemma result_step_thrice (getTime : String → Option ℤ) (tree : RunTree) (r : ManifestReading) :
    (ManifestReading.step getTime tree true (ManifestReading.step getTime tree true
      (ManifestReading.step getTime tree true r))).result.isSome := by
  have hdocument : ∀ r : ManifestReading, (∀ raw, r.stage ≠ .brief raw) → r.stage ≠ .manifest →
      (r.step getTime tree true).result.isSome := by
    intro r hbrief hmanifest
    unfold ManifestReading.step ManifestReading.result
    cases hstage : r.stage with
    | manifest => exact absurd hstage hmanifest
    | brief raw => exact absurd hstage (hbrief raw)
    | document | done => simp [hstage]
  have hbrief : ∀ r : ManifestReading, r.stage ≠ .manifest →
      (∀ raw, (r.step getTime tree true).stage ≠ .brief raw) ∧
        (r.step getTime tree true).stage ≠ .manifest := by
    intro r hmanifest
    unfold ManifestReading.step
    cases hstage : r.stage with
    | manifest => exact absurd hstage hmanifest
    | brief raw => dsimp only; split <;> simp
    | document | done => simp [hstage]
  have hmanifest : (r.step getTime tree true).stage ≠ .manifest := by
    unfold ManifestReading.step
    cases hstage : r.stage with
    | manifest => dsimp only; split <;> simp
    | brief raw => dsimp only; split <;> simp
    | document | done => simp [hstage]
  obtain ⟨hnot, hmanifest'⟩ := hbrief _ hmanifest
  exact hdocument _ hnot hmanifest'

lemma dir_step (tree : RunTree) (ok : Bool) (r : ManifestReading) :
    (r.step getTime tree ok).dir = r.dir := by
  unfold ManifestReading.step
  dsimp only
  split
  · split <;> rfl
  · split <;> rfl
  · rfl
  · rfl

lemma foldl_readThrice (getTime : String → Option ℤ) (s : HistoryIndex) (dirs : List String)
    (r : ManifestReading) :
    dirs.foldl (s.readThrice getTime) r =
      if r.dir ∈ dirs then ManifestReading.step getTime s.tree true
        (ManifestReading.step getTime s.tree true (ManifestReading.step getTime s.tree true r))
      else r := by
  have hthrice : ∀ r : ManifestReading, s.readThrice getTime r r.dir =
      ManifestReading.step getTime s.tree true (ManifestReading.step getTime s.tree true
        (ManifestReading.step getTime s.tree true r)) := by
    intro r
    simp only [readThrice, readOne, dir_step, if_true]
  have hother : ∀ (r : ManifestReading) dir, r.dir ≠ dir → s.readThrice getTime r dir = r := by
    intro r dir hne
    simp only [readThrice, readOne, if_neg hne]
  induction dirs generalizing r with
  | nil => rfl
  | cons dir dirs ih =>
    rw [foldl_cons]
    by_cases hdir : r.dir = dir
    · subst hdir
      have hover := result_step_thrice getTime s.tree r
      rw [if_pos mem_cons_self, hthrice, ih, step_of_result hover, step_of_result hover,
        step_of_result hover, ite_self]
    · rw [hother r dir hdir, ih]
      simp [hdir]

/-- A rebuild with nothing else happening writes the entries of the directories, in the order in
which they are listed. -/
lemma runFrom_undisturbedRebuild (getTime : String → Option ℤ) (s : HistoryIndex)
    (hsaved : s.saved = none) {dirs : List String} (hdirs : dirs.Perm s.tree.keys) :
    s.runFrom getTime (undisturbedRebuild s.calls.length dirs) =
      { s with
        table := .insertAll (dirs.filterMap (entryOf getTime s.tree))
        calls := s.calls ++
          [.rebuilt (.ok (dirs.filterMap (entryOf getTime s.tree)).length)] } := by
  have hcall (call : HistoryCall) :
      ({ s with calls := s.calls ++ [call] } : HistoryIndex).calls[s.calls.length]? =
        some call := getElem?_concat_length ..
  have hlisted : HistoryIndex.step getTime { s with calls := s.calls ++ [.rebuildListing] }
      (.listed s.calls.length (some dirs)) =
      { s with calls := s.calls ++ [.rebuildReading (dirs.map fun dir => { dir })] } := by
    unfold step
    dsimp only
    rw [getElem?_concat_length]
    dsimp only
    rw [list, if_pos hdirs]
    simp [withCall]
  have hreads := runFrom_undisturbedReads getTime
    (hcall (.rebuildReading (dirs.map fun dir => { dir }))) dirs
  have hread : (dirs.map fun dir => ({ dir } : ManifestReading)).map
      (fun r => dirs.foldl (readThrice getTime s) r) =
      dirs.map fun dir => ManifestReading.step getTime s.tree true
        (ManifestReading.step getTime s.tree true
          (ManifestReading.step getTime s.tree true { dir })) := by
    rw [List.map_map]
    refine map_congr_left fun dir hdir => ?_
    rw [Function.comp_apply, foldl_readThrice, if_pos hdir]
  have hover : (dirs.map fun dir => ManifestReading.step getTime s.tree true
      (ManifestReading.step getTime s.tree true
        (ManifestReading.step getTime s.tree true { dir }))).all (fun r => r.result.isSome) =
      true := by
    rw [List.all_map, List.all_eq_true]
    exact fun dir _ => result_step_thrice getTime s.tree { dir }
  have hentries : (dirs.map fun dir => ManifestReading.step getTime s.tree true
      (ManifestReading.step getTime s.tree true
        (ManifestReading.step getTime s.tree true { dir }))).filterMap ManifestReading.entry =
      dirs.filterMap (entryOf getTime s.tree) := by
    rw [filterMap_map]
    rfl
  calc s.runFrom getTime (undisturbedRebuild s.calls.length dirs)
      = HistoryIndex.step getTime (HistoryIndex.runFrom getTime (HistoryIndex.step getTime
          { s with calls := s.calls ++ [.rebuildListing] } (.listed s.calls.length (some dirs)))
          (undisturbedReads s.calls.length dirs)) (.settles s.calls.length .committed) := by
        unfold runFrom undisturbedRebuild
        rw [cons_append, cons_append, foldl_cons, foldl_cons,
          foldl_append]
        rfl
    _ = HistoryIndex.step getTime { s with calls := s.calls ++ [.rebuildReading
          ((dirs.map fun dir => ({ dir } : ManifestReading)).map
            (fun r => dirs.foldl (readThrice getTime s) r))] }
          (.settles s.calls.length .committed) := by
        rw [hlisted, hreads]
        simp only [withCall, set_append_right, le_refl, Nat.sub_self, set_cons_zero]
        rfl
    _ = _ := by
        rw [hread]
        unfold step
        dsimp only
        rw [getElem?_concat_length]
        dsimp only
        rw [if_pos hover, hentries, settleRebuild]
        · simp only [hsaved, withCall, set_append_right, le_refl, Nat.sub_self,
            set_cons_zero]
        · exact hsaved

lemma runFrom_undisturbedRecord (getTime : String → Option ℤ) (s : HistoryIndex) (dir : String) :
    ∃ call, s.runFrom getTime (undisturbedRecord s.calls.length dir) =
      { s with
        table := match entryOf getTime s.tree dir with
          | some entry => s.table.insert entry
          | none => s.table
        calls := s.calls ++ [call] } := by
  have hreads : HistoryIndex.runFrom getTime { s with calls := s.calls ++ [.record { dir } none] }
      (undisturbedReads s.calls.length [dir]) =
      { s with calls := s.calls ++ [.record (s.readThrice getTime { dir } dir) none] } := by
    have hcall (r : ManifestReading) : ({ s with calls := s.calls ++ [.record r none] } :
        HistoryIndex).calls[s.calls.length]? = some (.record r none) :=
      getElem?_concat_length ..
    have hread (r : ManifestReading) : HistoryIndex.step getTime
        { s with calls := s.calls ++ [.record r none] } (.fileRead s.calls.length dir true) =
        { s with calls := s.calls ++ [.record (s.readOne getTime dir true r) none] } := by
      rw [step_fileRead_record getTime (hcall r)]
      simp only [withCall, set_append_right, le_refl, Nat.sub_self, set_cons_zero]
      rfl
    have hthree : undisturbedReads s.calls.length [dir] =
        [.fileRead s.calls.length dir true, .fileRead s.calls.length dir true,
          .fileRead s.calls.length dir true] := rfl
    rw [hthree]
    simp only [runFrom, foldl_cons, foldl_nil, hread]
    rfl
  have hthrice : s.readThrice getTime { dir } dir = ManifestReading.step getTime s.tree true
      (ManifestReading.step getTime s.tree true
        (ManifestReading.step getTime s.tree true { dir })) := by
    have hfold := foldl_readThrice getTime s [dir] { dir }
    rwa [foldl_cons, foldl_nil, if_pos mem_cons_self] at hfold
  have hover := result_step_thrice getTime s.tree { dir }
  have hentry : entryOf getTime s.tree dir = (s.readThrice getTime { dir } dir).entry := by
    rw [hthrice]
    rfl
  rw [← hthrice] at hover
  have hsplit : s.runFrom getTime (undisturbedRecord s.calls.length dir) =
      HistoryIndex.step getTime { s with
        calls := s.calls ++ [.record (s.readThrice getTime { dir } dir) none] }
        (.settles s.calls.length .committed) := by
    rw [← hreads]
    unfold runFrom undisturbedRecord
    rw [cons_append, foldl_cons, foldl_append]
    rfl
  rw [hsplit, hentry]
  generalize s.readThrice getTime { dir } dir = r at hover
  unfold step
  dsimp only
  rw [getElem?_concat_length]
  dsimp only
  unfold ManifestReading.result at hover
  unfold settleRecord ManifestReading.result ManifestReading.entry
  cases hstage : r.stage with
  | manifest | brief | document => simp [hstage] at hover
  | done result =>
    rcases result with failure | _ | entry
    · exact ⟨.record r (some .failed), by simp [withCall]⟩
    · exact ⟨.record r (some (.ok false)), by simp [withCall]⟩
    · exact ⟨.record r (some (.ok true)), by simp [withCall]⟩

lemma runFrom_undisturbedRecords (getTime : String → Option ℤ) (s : HistoryIndex)
    (dirs : List String) : (s.runFrom getTime (undisturbedRecords s.calls.length dirs)).table =
      (dirs.filterMap (entryOf getTime s.tree)).foldl insert s.table := by
  induction dirs generalizing s with
  | nil => rfl
  | cons dir dirs ih =>
    obtain ⟨call, hrecord⟩ := runFrom_undisturbedRecord getTime s dir
    have hsplit : s.runFrom getTime (undisturbedRecords s.calls.length (dir :: dirs)) =
        (s.runFrom getTime (undisturbedRecord s.calls.length dir)).runFrom getTime
          (undisturbedRecords (s.calls.length + 1) dirs) := by
      have happend : undisturbedRecords s.calls.length (dir :: dirs) =
          undisturbedRecord s.calls.length dir ++
            undisturbedRecords (s.calls.length + 1) dirs := rfl
      unfold runFrom
      rw [happend, foldl_append]
    have hlength : (s.calls ++ [call]).length = s.calls.length + 1 := length_append
    rw [hsplit, hrecord, ← hlength, ih]
    cases hentry : entryOf getTime s.tree dir with
    | none => simp [hentry]
    | some entry => simp [hentry]

end HistoryIndex

/-- **A rebuild and recordings.** With no transaction open, a rebuild gives the rows of recordings
of every directory and counts them, in whatever order, exactly where no two directories have
manifests of one run. -/
theorem rebuildAgrees_iff (getTime : String → Option ℤ) (s : HistoryIndex) (hsaved : s.saved = none)
    : RebuildAgrees getTime s ↔ s.tree.DistinctRunIds getTime := by
  have hrecorded (order : List String) :
      (HistoryIndex.runFrom getTime { s with table := .empty }
        (undisturbedRecords s.calls.length order)).table =
      .insertAll (order.filterMap (entryOf getTime s.tree)) :=
    HistoryIndex.runFrom_undisturbedRecords getTime { s with table := .empty } order
  constructor
  · intro h
    obtain ⟨-, hcount⟩ := h s.tree.keys s.tree.keys (.refl _) (.refl _)
    rw [HistoryIndex.runFrom_undisturbedRebuild getTime s hsaved (.refl _)] at hcount
    simp only [getLast?_append, getLast?_singleton, some_or, some.injEq,
      HistoryCall.rebuilt.injEq, RebuildReport.ok.injEq] at hcount
    exact (length_insertAll_iff _).1 hcount.symm
  · intro hdistinct listing order hlisting horder
    have hperm : (listing.filterMap (entryOf getTime s.tree)).Perm
        (order.filterMap (entryOf getTime s.tree)) :=
      (hlisting.trans horder.symm).filterMap _
    have hnodup : ((listing.filterMap (entryOf getTime s.tree)).map
        HistoryEntry.runId).Nodup :=
      ((hlisting.filterMap _).map _).nodup_iff.2 hdistinct
    rw [HistoryIndex.runFrom_undisturbedRebuild getTime s hsaved hlisting]
    refine ⟨fun runId => ?_, ?_⟩
    · rw [hrecorded]
      exact get?_insertAll_perm hperm hnodup runId
    · simp only [getLast?_append, getLast?_singleton, some_or, some.injEq,
        HistoryCall.rebuilt.injEq, RebuildReport.ok.injEq]
      exact ((length_insertAll_iff _).2 hnodup).symm

/-! ## The invariant -/

/-- A reading has read `raw` from its manifest. -/
def ManifestReading.HasRead (getTime : String → Option ℤ) (r : ManifestReading) (raw : Value) :
    Prop :=
  r.stage = .brief raw ∨ r.stage = .document raw ∨
    ∃ found, r.stage = .done (deriveHistoryEntry getTime r.dir raw found)

def HistoryCall.readings : HistoryCall → List ManifestReading
  | .record r _ => [r]
  | .rebuildReading readings => readings
  | _ => []

structure ReadingOk (getTime : String → Option ℤ) (s : HistoryIndex) (r : ManifestReading) :
    Prop where
  fresh : r.isFresh = true → r.stamp = none
  bound : ∀ stamp ∈ r.stamp, stamp ≤ s.clock
  hasRead : ∀ files, s.tree.get? r.dir = some files → r.stamp = some files.stamp →
    ∃ raw, files.manifest = some raw ∧ r.HasRead getTime raw

/-- The invariant of the history store. -/
structure HistoryIndexInv (getTime : String → Option ℤ) (s : HistoryIndex) : Prop where
  saved : s.saved = none
  distinct : s.tree.DistinctRunIds getTime
  stamps : ∀ dir files, s.tree.get? dir = some files → files.stamp ≤ s.clock
  readings : ∀ call ∈ s.calls, ∀ r ∈ call.readings, ReadingOk getTime s r
  recorded : ∀ r, .record r (some (.ok true)) ∈ s.calls → ∃ entry,
    r.stage = .done (.ok (some entry)) ∧
      (s.isCurrent r = true → s.table.has entry.runId = true)
  scans : ∀ call ∈ s.calls, ∀ readings ∈ call.scan, ∀ dir, s.recorded dir = true →
    s.includes readings dir = true

variable {s t : HistoryIndex} {id : ℕ}

lemma isCurrent_iff (r : ManifestReading) : s.isCurrent r ↔
    ∃ files, s.tree.get? r.dir = some files ∧ r.stamp = some files.stamp := by
  unfold HistoryIndex.isCurrent HistoryIndex.stampAt
  cases hfiles : s.tree.get? r.dir with
  | none => cases hstamp : r.stamp <;> simp
  | some files => cases hstamp : r.stamp <;> simp

lemma recorded_iff (dir : String) : s.recorded dir ↔
    ∃ r, .record r (some (.ok true)) ∈ s.calls ∧ r.dir = dir ∧ s.isCurrent r := by
  unfold HistoryIndex.recorded
  rw [List.any_eq_true]
  constructor
  · rintro ⟨call, hmem, hcall⟩
    split at hcall
    · rename_i r
      rw [and_eq_true, beq_iff_eq] at hcall
      exact ⟨r, hmem, hcall⟩
    · cases hcall
  · rintro ⟨r, hmem, hdir, hcurrent⟩
    refine ⟨_, hmem, ?_⟩
    dsimp only
    rw [and_eq_true, beq_iff_eq]
    exact ⟨hdir, hcurrent⟩

lemma includes_iff (readings : List ManifestReading) (dir : String) :
    s.includes readings dir ↔
      ∃ r ∈ readings, r.dir = dir ∧ (r.isFresh ∨ s.isCurrent r) := by
  unfold HistoryIndex.includes
  rw [List.any_eq_true]
  simp only [and_eq_true, beq_iff_eq, or_eq_true]

/-! ## Files change -/

structure TreeChanges (s t : HistoryIndex) : Prop where
  clock : s.clock ≤ t.clock
  bound : ∀ dir files, t.tree.get? dir = some files → files.stamp ≤ t.clock
  keeps : ∀ dir files, t.tree.get? dir = some files → files.stamp ≤ s.clock →
    ∃ before, s.tree.get? dir = some before ∧ before.stamp = files.stamp ∧
      before.manifest = files.manifest

lemma TreeChanges.isCurrent (h : TreeChanges s t) {r : ManifestReading} (hr : ReadingOk getTime s r)
    (hcurrent : t.isCurrent r) : s.isCurrent r := by
  obtain ⟨files, hfiles, hstamp⟩ := (isCurrent_iff r).1 hcurrent
  obtain ⟨before, hbefore, heq, -⟩ := h.keeps r.dir files hfiles (hr.bound files.stamp hstamp)
  exact (isCurrent_iff r).2 ⟨before, hbefore, by rw [hstamp, heq]⟩

lemma HistoryIndexInv.treeChanges (h : HistoryIndexInv getTime s) (hchanges : TreeChanges s t)
    (hdistinct : t.tree.DistinctRunIds getTime) (hsaved : t.saved = s.saved)
    (htable : t.table = s.table) (hcalls : t.calls = s.calls) : HistoryIndexInv getTime t := by
  have hrecord : ∀ r, .record r (some (.ok true)) ∈ s.calls → ReadingOk getTime s r :=
    fun r hmem => h.readings _ hmem r (mem_singleton_self r)
  refine ⟨hsaved.trans h.saved, hdistinct, hchanges.bound, ?_, ?_, ?_⟩
  · rw [hcalls]
    intro call hcall r hr
    have hok := h.readings call hcall r hr
    refine ⟨hok.fresh, fun stamp hstamp => (hok.bound stamp hstamp).trans hchanges.clock, ?_⟩
    intro files hfiles hstamp
    obtain ⟨before, hbefore, heq, hmanifest⟩ :=
      hchanges.keeps r.dir files hfiles (hok.bound files.stamp hstamp)
    rw [← hmanifest]
    exact hok.hasRead before hbefore (by rw [hstamp, heq])
  · rw [hcalls, htable]
    intro r hmem
    obtain ⟨entry, hstage, hrow⟩ := h.recorded r hmem
    exact ⟨entry, hstage, fun hcurrent => hrow (hchanges.isCurrent (hrecord r hmem) hcurrent)⟩
  · rw [hcalls]
    intro call hcall readings hscan dir hrecorded
    obtain ⟨r, hmem, hdir, hcurrent⟩ := (recorded_iff dir).1 hrecorded
    rw [hcalls] at hmem
    have hbefore := hchanges.isCurrent (hrecord r hmem) hcurrent
    obtain ⟨q, hq, hqdir, hfresh | hqcurrent⟩ := (includes_iff readings dir).1
      (h.scans call hcall readings hscan dir ((recorded_iff dir).2 ⟨r, hmem, hdir, hbefore⟩))
    · exact (includes_iff readings dir).2 ⟨q, hq, hqdir, .inl hfresh⟩
    · refine (includes_iff readings dir).2 ⟨q, hq, hqdir, .inr ?_⟩
      -- both readings are of the manifest before the change, so they have one stamp
      obtain ⟨files, hfiles, hstamp⟩ := (isCurrent_iff r).1 hcurrent
      obtain ⟨before, hget, hrstamp⟩ := (isCurrent_iff r).1 hbefore
      obtain ⟨before', hget', hqstamp⟩ := (isCurrent_iff q).1 hqcurrent
      rw [hqdir, ← hdir, hget] at hget'
      cases hget'
      refine (isCurrent_iff q).2 ⟨files, by rw [hqdir, ← hdir, hfiles], ?_⟩
      rw [hqstamp, ← hrstamp, hstamp]

variable {files : RunFiles}

lemma treeChanges_withFiles (h : HistoryIndexInv getTime s)
    (hfiles : files.stamp = s.clock + 1 ∨
      ∃ before, s.tree.get? dir = some before ∧ before.stamp = files.stamp ∧
        before.manifest = files.manifest) : TreeChanges s (s.withFiles dir files) where
  clock := Nat.le_succ _
  bound := by
    intro other files' hget
    change (s.tree.set dir files).get? other = some files' at hget
    change files'.stamp ≤ s.clock + 1
    rw [get?_set] at hget
    split at hget
    · cases hget
      rcases hfiles with hnew | ⟨before, hbefore, hstamp, -⟩
      · omega
      · have hbound := h.stamps dir before hbefore
        omega
    · have hbound := h.stamps other files' hget
      omega
  keeps := by
    intro other files' hget hle
    change (s.tree.set dir files).get? other = some files' at hget
    rw [get?_set] at hget
    split at hget
    · rename_i heq
      subst heq
      cases hget
      rcases hfiles with hnew | hbefore
      · omega
      · exact hbefore
    · exact ⟨files', hget, rfl, rfl⟩

lemma treeChanges_erase (h : HistoryIndexInv getTime s) (dir : String) :
    TreeChanges s { s with tree := s.tree.erase dir } := by
  have hget : ∀ other files, (s.tree.erase dir).get? other = some files →
      s.tree.get? other = some files := by
    intro other files hget
    rw [get?_erase] at hget
    split at hget
    · cases hget
    · exact hget
  exact ⟨le_rfl, fun other files hfiles => h.stamps other files (hget other files hfiles),
    fun other files hfiles _ => ⟨files, hget other files hfiles, rfl, rfl⟩⟩

/-! ## A call moves -/

variable {call' : HistoryCall}

variable {calls : List HistoryCall}

lemma mem_calls_set {call : HistoryCall} (h : call ∈ calls.set id call') :
    call = call' ∨ call ∈ calls := by
  rcases mem_or_eq_of_mem_set h with hmem | heq
  · exact .inr hmem
  · exact .inl heq

/-- **One call moves.** The invariant is kept where the call is as it should be, the rows of
recorded runs stay, and what is newly recorded is in every scan. -/
lemma HistoryIndexInv.moves (h : HistoryIndexInv getTime s)
    (hcalls : ∀ call ∈ calls, call = call' ∨ call ∈ s.calls) {table : HistoryTable}
    (hrows : ∀ r entry, .record r (some (.ok true)) ∈ s.calls → s.isCurrent r →
      r.stage = .done (.ok (some entry)) → s.table.has entry.runId →
        table.has entry.runId)
    (hreadings : ∀ r ∈ call'.readings, ReadingOk getTime s r)
    (hrecorded : ∀ r, call' = .record r (some (.ok true)) →
      (∃ entry, r.stage = .done (.ok (some entry)) ∧ table.has entry.runId) ∧
        (s.isCurrent r → ∀ call ∈ s.calls, ∀ readings ∈ call.scan,
          s.includes readings r.dir))
    (hscan : ∀ readings ∈ call'.scan, ∀ dir, s.recorded dir →
      s.includes readings dir) :
    HistoryIndexInv getTime { s with calls, table } := by
  refine ⟨h.saved, h.distinct, h.stamps, ?_, ?_, ?_⟩
  · intro call hcall r hr
    rcases hcalls call hcall with rfl | hmem
    · exact ⟨(hreadings r hr).fresh, (hreadings r hr).bound, (hreadings r hr).hasRead⟩
    · have hok := h.readings call hmem r hr
      exact ⟨hok.fresh, hok.bound, hok.hasRead⟩
  · intro r hcall
    rcases hcalls _ hcall with heq | hmem
    · obtain ⟨⟨entry, hstage, hrow⟩, -⟩ := hrecorded r heq.symm
      exact ⟨entry, hstage, fun _ => hrow⟩
    · obtain ⟨entry, hstage, hrow⟩ := h.recorded r hmem
      exact ⟨entry, hstage,
        fun hcurrent => hrows r entry hmem hcurrent hstage (hrow hcurrent)⟩
  · intro call hcall readings hreads dir hdir
    change s.includes readings dir
    obtain ⟨r, hr, hrdir, hcurrent⟩ := (recorded_iff dir).1 hdir
    change s.isCurrent r = true at hcurrent
    rcases hcalls _ hr with heq | hold
    · rcases hcalls call hcall with rfl | hmem
      · rw [← heq] at hreads
        cases hreads
      · rw [← hrdir]
        exact (hrecorded r heq.symm).2 hcurrent call hmem readings hreads
    · have hbefore := (recorded_iff dir).2 ⟨r, hold, hrdir, hcurrent⟩
      rcases hcalls call hcall with rfl | hmem
      · exact hscan readings hreads dir hbefore
      · exact h.scans call hmem readings hreads dir hbefore

lemma HistoryIndexInv.withCall (h : HistoryIndexInv getTime s)
    (hreadings : ∀ r ∈ call'.readings, ReadingOk getTime s r)
    (hrecorded : ∀ r, call' ≠ .record r (some (.ok true)))
    (hscan : ∀ readings ∈ call'.scan, ∀ dir, s.recorded dir →
      s.includes readings dir) : HistoryIndexInv getTime (s.withCall id call') :=
  h.moves (fun _ => mem_calls_set) (fun _ _ _ _ _ hrow => hrow) hreadings
    (fun r heq => absurd heq (hrecorded r)) hscan

lemma HistoryIndexInv.called (h : HistoryIndexInv getTime s)
    (hreadings : ∀ r ∈ call'.readings, ReadingOk getTime s r)
    (hrecorded : ∀ r, call' ≠ .record r (some (.ok true))) (hscan : call'.scan = none) :
    HistoryIndexInv getTime { s with calls := s.calls ++ [call'] } := by
  have hcalls : ∀ call ∈ s.calls ++ [call'], call = call' ∨ call ∈ s.calls := by
    intro call hcall
    rcases mem_append.1 hcall with hmem | hmem
    · exact .inr hmem
    · exact .inl (mem_singleton.1 hmem)
  refine h.moves hcalls (fun _ _ _ _ _ hrow => hrow) hreadings
    (fun r heq => absurd heq (hrecorded r)) fun readings hreadings => ?_
  rw [hscan] at hreadings
  cases hreadings

lemma readingOk_fresh (dir : String) : ReadingOk getTime s { dir } :=
  ⟨fun _ => rfl, fun _ hstamp => absurd hstamp (by simp), fun _ _ hstamp => absurd hstamp (by simp)⟩

lemma HistoryIndexInv.list (h : HistoryIndexInv getTime s) {dirs : Option (List String)}
    (hcond : dirs = none → ∀ dir ∈ s.tree.keys, s.recorded dir = false) :
    HistoryIndexInv getTime (s.list id dirs) := by
  have hkey : ∀ dir, s.recorded dir → dir ∈ s.tree.keys := by
    intro dir hrecorded
    obtain ⟨r, -, hdir, hcurrent⟩ := (recorded_iff dir).1 hrecorded
    obtain ⟨files, hfiles, -⟩ := (isCurrent_iff r).1 hcurrent
    rw [← has_iff_mem_keys, ← hdir, has, hfiles]
    rfl
  unfold HistoryIndex.list
  cases dirs with
  | none =>
    refine h.withCall (by simp [HistoryCall.readings]) (by simp) ?_
    intro readings _ dir hrecorded
    rw [hcond rfl dir (hkey dir hrecorded)] at hrecorded
    cases hrecorded
  | some dirs =>
    dsimp only
    split
    · rename_i hperm
      refine h.withCall ?_ (by simp) ?_
      · intro r hr
        obtain ⟨dir, -, rfl⟩ := List.mem_map.1 hr
        exact readingOk_fresh dir
      · intro readings hreadings dir hrecorded
        cases hreadings
        refine (includes_iff _ dir).2 ⟨{ dir }, ?_, rfl, .inl rfl⟩
        exact List.mem_map_of_mem (hperm.mem_iff.2 (hkey dir hrecorded))
    · exact h

open ManifestReading

lemma isFresh_step (tree : RunTree) (ok : Bool) (r : ManifestReading) :
    (r.step getTime tree ok).isFresh = false := by
  unfold step
  cases hstage : r.stage with
  | manifest | brief => dsimp only; split <;> rfl
  | document => rfl
  | done result => rw [isFresh, hstage]

lemma step_of_isFresh (getTime : String → Option ℤ) (tree : RunTree) (ok : Bool)
    {r : ManifestReading} (h : r.isFresh) :
    (r.step getTime tree ok).stamp = r.stamp ∨
      ∃ files raw, tree.get? r.dir = some files ∧ files.manifest = some raw ∧
        (r.step getTime tree ok).stamp = some files.stamp ∧
        (r.step getTime tree ok).HasRead getTime raw := by
  have hstage : r.stage = .manifest := by
    unfold isFresh at h
    split at h
    · assumption
    · cases h
  unfold step
  rw [hstage]
  cases hfiles : if ok then tree.get? r.dir else none with
  | none => exact .inl rfl
  | some files =>
    have hget : tree.get? r.dir = some files := by
      split at hfiles
      · exact hfiles
      · cases hfiles
    cases hmanifest : files.manifest with
    | none => simp [hmanifest]
    | some raw =>
      refine .inr ⟨files, raw, hget, hmanifest, ?_⟩
      simp only [getD_some, hmanifest]
      exact ⟨trivial, .inl rfl⟩

lemma stamp_step (getTime : String → Option ℤ) (tree : RunTree) (ok : Bool) {r : ManifestReading}
    (h : r.isFresh = false) :
    (r.step getTime tree ok).stamp = r.stamp := by
  unfold step
  unfold isFresh at h
  cases hstage : r.stage with
  | manifest => simp [hstage] at h
  | brief raw => dsimp only; split <;> rfl
  | document | done => rfl

lemma hasRead_step (tree : RunTree) (ok : Bool) {r : ManifestReading} (h : r.HasRead getTime raw) :
    (r.step getTime tree ok).HasRead getTime raw := by
  unfold step
  rcases h with hstage | hstage | ⟨found, hstage⟩
  · rw [hstage]
    dsimp only
    split
    · exact .inr (.inl rfl)
    · exact .inr (.inr ⟨_, rfl⟩)
  · rw [hstage]
    exact .inr (.inr ⟨_, rfl⟩)
  · rw [hstage]
    exact .inr (.inr ⟨found, hstage⟩)

lemma ManifestReading.HasRead.derived {r : ManifestReading} (h : r.HasRead getTime raw)
    {result : Except Unit (Option HistoryEntry)} (hstage : r.stage = .done result) :
    ∃ found, deriveHistoryEntry getTime r.dir raw found = result := by
  unfold ManifestReading.HasRead at h
  rw [hstage] at h
  rcases h with heq | heq | ⟨found, heq⟩
  · cases heq
  · cases heq
  · exact ⟨found, (ReadingStage.done.inj heq).symm⟩

lemma derived_entryOf {tree : RunTree} (hfiles : tree.get? dir = some files)
    (hmanifest : files.manifest = some raw) (hentry : tree.entryOf getTime dir = some entry) :
    ∃ found, deriveHistoryEntry getTime dir raw found = .ok (some entry) := by
  have hfirst : (step getTime tree true { dir }).HasRead getTime raw := by
    unfold step
    simp only [if_true, hfiles, getD_some, hmanifest]
    exact .inl rfl
  have hlast := hasRead_step tree true (hasRead_step tree true hfirst)
  unfold entryOf ManifestReading.entry at hentry
  split at hentry
  · rename_i result heq
    obtain ⟨found, hfound⟩ := hlast.derived heq
    simp only [HistoryIndex.dir_step] at hfound
    exact ⟨found, by rw [hfound, hentry]⟩
  · cases hentry

lemma readingOk_step (h : HistoryIndexInv getTime s) {r : ManifestReading}
    (hr : ReadingOk getTime s r) (ok : Bool) : ReadingOk getTime s (r.step getTime s.tree ok) := by
  have hpast : ∀ hfresh : (r.step getTime s.tree ok).isFresh,
      (r.step getTime s.tree ok).stamp = none := by
    rw [isFresh_step]
    intro hfresh
    cases hfresh
  cases hfresh : r.isFresh with
  | false =>
    have hstamp := stamp_step getTime s.tree ok hfresh
    refine ⟨hpast, by rw [hstamp]; exact hr.bound, fun files hfiles hcurrent => ?_⟩
    rw [HistoryIndex.dir_step] at hfiles
    rw [hstamp] at hcurrent
    obtain ⟨raw, hmanifest, hread⟩ := hr.hasRead files hfiles hcurrent
    exact ⟨raw, hmanifest, hasRead_step s.tree ok hread⟩
  | true =>
    rcases step_of_isFresh getTime s.tree ok hfresh with
      hsame | ⟨files, raw, hfiles, hmanifest, hstamp, hread⟩
    · rw [hr.fresh hfresh] at hsame
      exact ⟨hpast, by simp [hsame], by simp [hsame]⟩
    · refine ⟨hpast, fun stamp heq => ?_, fun files' hfiles' _ => ?_⟩
      · rw [hstamp] at heq
        cases heq
        exact h.stamps r.dir files hfiles
      · rw [HistoryIndex.dir_step, hfiles] at hfiles'
        cases hfiles'
        exact ⟨raw, hmanifest, hread⟩

/-- A scan that has, or will have, a recorded manifest still has it after a read, unless the read of
that manifest fails. -/
lemma includes_readOne (h : HistoryIndexInv getTime s) {readings : List ManifestReading}
    {ok : Bool} (hcond : ok = false → ∀ r ∈ readings, r.dir = dir → r.isFresh →
      s.recorded dir = false) {other : String} (hrecorded : s.recorded other)
    (hincludes : s.includes readings other) :
    s.includes (readings.map (s.readOne getTime dir ok)) other := by
  obtain ⟨r, hr, hdir, hhas⟩ := (includes_iff readings other).1 hincludes
  refine (includes_iff _ other).2 ⟨_, List.mem_map_of_mem hr, ?_⟩
  unfold HistoryIndex.readOne
  by_cases hread : r.dir = dir
  · rw [if_pos hread, HistoryIndex.dir_step]
    refine ⟨hdir, ?_⟩
    subst hread hdir
    unfold step
    cases hstage : r.stage with
    | manifest =>
      have hfresh : r.isFresh = true := by rw [isFresh, hstage]
      cases ok with
      | false =>
        rw [hcond rfl r hr rfl hfresh] at hrecorded
        cases hrecorded
      | true =>
        obtain ⟨q, hq, hqdir, hcurrent⟩ := (recorded_iff r.dir).1 hrecorded
        obtain ⟨files, hfiles, hstamp⟩ := (isCurrent_iff q).1 hcurrent
        obtain ⟨raw, hmanifest, -⟩ :=
          (h.readings _ hq q (mem_singleton_self q)).hasRead files hfiles hstamp
        rw [hqdir] at hfiles
        simp only [if_true, hfiles, getD_some, hmanifest]
        exact .inr ((isCurrent_iff _).2 ⟨files, hfiles, rfl⟩)
    | brief raw =>
      have hcurrent := hhas.resolve_left (by simp [isFresh, hstage])
      obtain ⟨files, hfiles, hstamp⟩ := (isCurrent_iff r).1 hcurrent
      right
      dsimp only
      split
      · exact (isCurrent_iff _).2 ⟨files, hfiles, hstamp⟩
      · exact (isCurrent_iff _).2 ⟨files, hfiles, hstamp⟩
    | document raw =>
      have hcurrent := hhas.resolve_left (by simp [isFresh, hstage])
      obtain ⟨files, hfiles, hstamp⟩ := (isCurrent_iff r).1 hcurrent
      exact .inr ((isCurrent_iff _).2 ⟨files, hfiles, hstamp⟩)
    | done result => exact hhas
  · rw [if_neg hread]
    exact ⟨hdir, hhas⟩

lemma readingOk_readOne (h : HistoryIndexInv getTime s) {r : ManifestReading}
    (hr : ReadingOk getTime s r) (dir : String) (ok : Bool) :
    ReadingOk getTime s (s.readOne getTime dir ok r) := by
  unfold HistoryIndex.readOne
  split
  · exact readingOk_step h hr ok
  · exact hr

lemma HistoryIndexInv.settleRecord (h : HistoryIndexInv getTime s) {r : ManifestReading}
    (hcall : s.calls[id]? = some (.record r none)) (outcome : TableWrites)
    (hcond : outcome = .committed → r.entry.isSome → s.isCurrent r →
      ∀ call ∈ s.calls, ∀ readings ∈ call.scan, s.includes readings r.dir) :
    HistoryIndexInv getTime (s.settleRecord id r outcome) := by
  have hreading : ∀ report, ∀ r' ∈ (HistoryCall.record r report).readings,
      ReadingOk getTime s r' := by
    intro report r' hr'
    rw [mem_singleton.1 hr']
    exact h.readings _ (mem_of_getElem? hcall) r (mem_singleton_self r)
  have hscan : ∀ report, ∀ readings ∈ (HistoryCall.record r report).scan, ∀ dir,
      s.recorded dir → s.includes readings dir := by
    intro report readings hreadings
    cases hreadings
  unfold HistoryIndex.settleRecord
  split
  · exact h
  · exact h.withCall (hreading _) (by simp) (hscan _)
  · exact h.withCall (hreading _) (by simp) (hscan _)
  · rename_i entry hresult
    have hstage : r.stage = .done (.ok (some entry)) := by
      unfold ManifestReading.result at hresult
      split at hresult
      · rename_i result heq
        rw [heq, some.inj hresult]
      · cases hresult
    cases outcome with
    | failed statement rolledBack => exact h.withCall (hreading _) (by simp) (hscan _)
    | committed =>
      have hkept : ∀ runId, s.table.has runId →
          (s.table.insert entry).has runId :=
        fun runId => OrderedMap.has_set_of_has entry
      have hnew : (s.table.insert entry).has entry.runId := by
        rw [OrderedMap.has, HistoryTable.insert, OrderedMap.get?_set_self]
        rfl
      refine h.moves (fun _ => mem_calls_set) (fun _ _ _ _ _ => hkept _) (hreading _) ?_ (hscan _)
      intro r' heq
      cases heq
      refine ⟨⟨entry, hstage, hnew⟩, hcond rfl ?_⟩
      rw [ManifestReading.entry, hstage]
      rfl

lemma HistoryIndexInv.scanned (h : HistoryIndexInv getTime s) {readings : List ManifestReading}
    (hcall : .rebuildReading readings ∈ s.calls) (hover : ∀ r ∈ readings, r.result.isSome)
    {r : ManifestReading} (hr : .record r (some (.ok true)) ∈ s.calls) (hcurrent : s.isCurrent r)
    (hstage : r.stage = .done (.ok (some entry))) :
    (insertAll (readings.filterMap ManifestReading.entry)).has entry.runId := by
  obtain ⟨q, hq, hdir, hhas⟩ := (includes_iff readings r.dir).1
    (h.scans _ hcall readings rfl r.dir ((recorded_iff r.dir).2 ⟨r, hr, rfl, hcurrent⟩))
  have hqcurrent : s.isCurrent q := by
    refine hhas.resolve_left fun hfresh => ?_
    have hdone := hover q hq
    unfold result at hdone
    unfold isFresh at hfresh
    split at hdone
    · rename_i heq
      rw [heq] at hfresh
      cases hfresh
    · cases hdone
  obtain ⟨files, hfiles, hstamp⟩ := (isCurrent_iff r).1 hcurrent
  obtain ⟨files', hfiles', hqstamp⟩ := (isCurrent_iff q).1 hqcurrent
  obtain rfl : files = files' := by
    rw [hdir, hfiles] at hfiles'
    exact some.inj hfiles'
  obtain ⟨raw, hmanifest, hread⟩ :=
    (h.readings _ hr r (mem_singleton_self r)).hasRead files hfiles hstamp
  obtain ⟨raw', hmanifest', hqread⟩ := (h.readings _ hcall q hq).hasRead files hfiles' hqstamp
  obtain rfl : raw = raw' := by
    rw [hmanifest] at hmanifest'
    exact some.inj hmanifest'
  obtain ⟨found, hderived⟩ := hread.derived hstage
  have hqdone : ∃ found', q.stage = .done (deriveHistoryEntry getTime q.dir raw found') := by
    have hdone := hover q hq
    unfold result at hdone
    rcases hqread with heq | heq | hfound
    · simp [heq] at hdone
    · simp [heq] at hdone
    · exact hfound
  obtain ⟨found', hqstage⟩ := hqdone
  obtain ⟨entry', hentry', hrunId⟩ := runId_deriveHistoryEntry hderived found'
  rw [hdir, hentry'] at hqstage
  have hmem : entry' ∈ readings.filterMap ManifestReading.entry :=
    mem_filterMap.2 ⟨q, hq, by rw [ManifestReading.entry, hqstage]⟩
  rw [← hrunId]
  exact has_insertAll_of_mem hmem

lemma HistoryIndexInv.settleRebuild (h : HistoryIndexInv getTime s) {readings : List ManifestReading}
    (hcall : s.calls[id]? = some (.rebuildReading readings))
    (hover : ∀ r ∈ readings, r.result.isSome) (outcome : TableWrites)
    (hcond : ∀ n, outcome ≠ .failed (n + 1) false) :
    HistoryIndexInv getTime
      (s.settleRebuild id (readings.filterMap ManifestReading.entry) outcome) := by
  have hfailed : HistoryIndexInv getTime (s.withCall id (.rebuilt .failed)) :=
    h.withCall (by simp [HistoryCall.readings]) (by simp) fun _ hscan => by cases hscan
  have hundone : ∀ table, s.rollback true table (some s.table) = s := by
    intro table
    unfold HistoryIndex.rollback
    simp only [if_true, ← h.saved]
  have hsaved := h.saved
  rcases outcome with _ | ⟨_ | _ | n, rolledBack⟩
  · rw [HistoryIndex.settleRebuild]
    · refine h.moves (fun _ => mem_calls_set) ?_ (by simp [HistoryCall.readings]) (by simp) ?_
      · intro r entry hr hcurrent hstage _
        exact h.scanned (mem_of_getElem? hcall) hover hr hcurrent hstage
      · intro _ hscan
        cases hscan
    · exact hsaved
  · rw [HistoryIndex.settleRebuild]
    · exact hfailed
    · exact hsaved
  · cases rolledBack with
    | false => exact absurd rfl (hcond 0)
    | true =>
      rw [HistoryIndex.settleRebuild, hundone]
      · exact hfailed
      · exact hsaved
  · cases rolledBack with
    | false => exact absurd rfl (hcond (n + 1))
    | true =>
      rw [HistoryIndex.settleRebuild, hundone]
      · exact hfailed
      · exact hsaved

/-! ## Steps and runs -/

/-- **The step rule.** A step that meets the conditions keeps the invariant.

**Proof sketch.** By cases on what happens: files change, or a call moves. -/
theorem HistoryIndexInv.step (h : HistoryIndexInv getTime s) (event : HistoryEvent)
    (hmeets : HistoryMeets getTime s event) : HistoryIndexInv getTime (s.step getTime event) := by
  obtain ⟨hdistinct, hreports, hlists, hreads, hrollsBack⟩ := hmeets
  cases event with
  | manifestWritten dir content =>
    exact h.treeChanges (treeChanges_withFiles h (.inl rfl)) hdistinct rfl rfl rfl
  | briefWritten dir content =>
    refine h.treeChanges (treeChanges_withFiles h ?_) hdistinct rfl rfl rfl
    unfold HistoryIndex.filesAt
    cases hfiles : s.tree.get? dir with
    | none => exact .inl rfl
    | some files => exact .inr ⟨files, rfl, rfl, rfl⟩
  | documentWritten dir content =>
    refine h.treeChanges (treeChanges_withFiles h ?_) hdistinct rfl rfl rfl
    unfold HistoryIndex.filesAt
    cases hfiles : s.tree.get? dir with
    | none => exact .inl rfl
    | some files => exact .inr ⟨files, rfl, rfl, rfl⟩
  | removed dir => exact h.treeChanges (treeChanges_erase h dir) hdistinct rfl rfl rfl
  | recordCalled dir =>
    refine h.called ?_ (by simp) rfl
    intro r hr
    rw [mem_singleton.1 hr]
    exact readingOk_fresh dir
  | rebuildCalled => exact h.called (by simp [HistoryCall.readings]) (by simp) rfl
  | listed id dirs =>
    unfold HistoryIndex.step
    dsimp only
    cases hcall : s.calls[id]? with
    | none => exact h
    | some call =>
      cases call with
      | rebuildListing =>
        refine h.list fun hnone dir => ?_
        subst hnone
        refine hlists ?_ dir
        simp [HistoryIndex.missesTree, hcall]
      | record | rebuildReading | rebuilt => exact h
  | fileRead id dir ok =>
    unfold HistoryIndex.step
    dsimp only
    cases hcall : s.calls[id]? with
    | none => exact h
    | some call =>
      have hmem := mem_of_getElem? hcall
      cases call with
      | record r report =>
        cases report with
        | some report => exact h
        | none =>
          refine h.withCall ?_ (by simp) fun _ hscan => by cases hscan
          intro r' hr'
          rw [mem_singleton.1 hr']
          exact readingOk_readOne h (h.readings _ hmem r (mem_singleton_self r)) dir ok
      | rebuildReading readings =>
        refine h.withCall ?_ (by simp) ?_
        · intro r' hr'
          obtain ⟨r, hr, rfl⟩ := List.mem_map.1 hr'
          exact readingOk_readOne h (h.readings _ hmem r hr) dir ok
        · intro _ hscan other hrecorded
          cases hscan
          refine includes_readOne h ?_ hrecorded
            (h.scans _ hmem readings rfl other hrecorded)
          intro hfails r hr hdir hfresh
          subst hfails
          have hany : (readings.any fun r => r.dir == dir && r.isFresh) = true := by
            rw [List.any_eq_true]
            exact ⟨r, hr, by rw [and_eq_true, beq_iff_eq]; exact ⟨hdir, hfresh⟩⟩
          refine hreads dir ?_
          simp only [HistoryIndex.missesManifest, hcall, hany, if_true, mem_some]
      | rebuildListing | rebuilt => exact h
  | settles id outcome =>
    unfold HistoryIndex.step
    dsimp only
    cases hcall : s.calls[id]? with
    | none => exact h
    | some call =>
      cases call with
      | record r report =>
        cases report with
        | some report => exact h
        | none =>
          refine h.settleRecord hcall outcome fun hcommitted hentry => ?_
          subst hcommitted
          refine hreports r ?_
          simp only [HistoryIndex.reports, hcall, hentry, if_true, mem_some]
      | rebuildReading readings =>
        dsimp only
        split
        · rename_i hover
          refine h.settleRebuild hcall (List.all_eq_true.1 hover) outcome ?_
          rintro n rfl
          simp [HistoryIndex.leavesOpen, hcall] at hrollsBack
        · exact h
      | rebuildListing | rebuilt => exact h

/-- The invariant holds at the start, over any tree without two manifests of one run, and any
table. -/
lemma historyIndexInv_opened {tree : RunTree} (hdistinct : tree.DistinctRunIds getTime)
    (table : HistoryTable) : HistoryIndexInv getTime (.opened tree table) := by
  refine ⟨rfl, hdistinct, ?_, ?_, ?_, ?_⟩
  · intro dir files hfiles
    have hmem := List.mem_map_of_mem (f := RunFiles.stamp) (mem_values_of_get? hfiles)
    exact single_le_sum (fun _ _ => Nat.zero_le _) _ hmem
  · intro call hcall
    cases hcall
  · intro r hr
    cases hr
  · intro call hcall
    cases hcall

lemma HistoryIndexInv.faithful (h : HistoryIndexInv getTime s) : FaithfulCache getTime s where
  present := by
    intro dir entry hrecorded hentry
    obtain ⟨r, hr, hdir, hcurrent⟩ := (recorded_iff dir).1 hrecorded
    obtain ⟨entry', hstage, hrow⟩ := h.recorded r hr
    obtain ⟨files, hfiles, hstamp⟩ := (isCurrent_iff r).1 hcurrent
    obtain ⟨raw, hmanifest, hread⟩ :=
      (h.readings _ hr r (mem_singleton_self r)).hasRead files hfiles hstamp
    have hderived := hread.derived hstage
    rw [hdir] at hfiles hderived
    obtain ⟨found, hfound⟩ := derived_entryOf hfiles hmanifest hentry
    obtain ⟨entry'', hagain, hrunId⟩ := runId_deriveHistoryEntry hderived.choose_spec found
    rw [hfound] at hagain
    cases hagain
    rw [hrunId]
    exact hrow hcurrent
  kept := by
    intro id readings statement hcall
    unfold HistoryIndex.step
    dsimp only
    rw [hcall]
    dsimp only
    split
    · have hsaved := h.saved
      rcases statement with _ | _ | n
      all_goals
        rw [HistoryIndex.settleRebuild]
        · rfl
        · exact hsaved
    · rfl
  agrees := (rebuildAgrees_iff getTime s h.saved).2 h.distinct

/-- **The history index.** The promise holds of every run whose steps meet the conditions. -/
theorem faithfulCache_run (getTime : String → Option ℤ) (tree : RunTree) (table : HistoryTable)
    (events : List HistoryEvent) (hdistinct : tree.DistinctRunIds getTime)
    (hmeets : (historyStore getTime tree table).Along (HistoryMeets getTime) (.opened tree table)
      events) : FaithfulCache getTime ((historyStore getTime tree table).run events) :=
  (Machine.invariant_runFrom (fun _ event h => h.step event) (historyIndexInv_opened hdistinct table)
    hmeets).faithful

def askManifest : Value :=
  .obj [("type", .str "ask"), ("query", .str "tea"), ("status", .str "ok"),
    ("started_at", .str "2026-01-01T00:00:00.000Z")]

/-- A run finishes and is recorded; a rebuild, called before, lists the tree after that. -/
def listedAfterRecording : List HistoryEvent :=
  [.rebuildCalled, .manifestWritten "r1" (some askManifest), .recordCalled "r1",
    .fileRead 1 "r1" true, .fileRead 1 "r1" true, .fileRead 1 "r1" true, .settles 1 .committed,
    .listed 0 (some ["r1"]), .fileRead 0 "r1" true, .fileRead 0 "r1" true, .fileRead 0 "r1" true,
    .settles 0 .committed]

theorem faithfulCache_run_listed : FaithfulCache (fun _ => none)
    ((historyStore (fun _ => none) .empty .empty).run listedAfterRecording) :=
  faithfulCache_run (fun _ => none) .empty .empty listedAfterRecording (by decide)
    (by decide)

/-- A run finishes and is recorded between the listing of a rebuild and its write. -/
def listedBeforeRecording : List HistoryEvent :=
  [.rebuildCalled, .listed 0 (some []), .manifestWritten "r1" (some askManifest),
    .recordCalled "r1", .fileRead 1 "r1" true, .fileRead 1 "r1" true, .fileRead 1 "r1" true,
    .settles 1 .committed, .settles 0 .committed]

theorem rebuild_deletes_recorded : ¬ FaithfulCache (fun _ => none)
    ((historyStore (fun _ => none) .empty .empty).run listedBeforeRecording) := by
  intro h
  have hfacts : ((historyStore (fun _ => none) .empty .empty).run listedBeforeRecording).recorded
        "r1" = true ∧
      ((((historyStore (fun _ => none) .empty .empty).run listedBeforeRecording).tree.entryOf
        (fun _ => none) "r1").map HistoryEntry.runId) = some "r1" ∧
      ((historyStore (fun _ => none) .empty .empty).run listedBeforeRecording).table.has "r1" =
        false := by decide
  obtain ⟨hrecorded, hentry, hrow⟩ := hfacts
  obtain ⟨entry, hentry, hrunId⟩ := Option.map_eq_some_iff.1 hentry
  have hpresent := h.present "r1" entry hrecorded hentry
  rw [hrunId, hrow] at hpresent
  cases hpresent

end Yantra
