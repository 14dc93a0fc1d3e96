import Mathlib.Data.List.Sort
import Yantra.Lib.Json
import Yantra.Lib.OrderedMap

/-!
# Preferences

A table with one row for each key, written by the user and by what was learned, and its merge with
the values of `profile.yaml`. Every write takes the row of its key over, whoever wrote it before;
which of the three tiers counts is only told when they are merged.

## Main definitions

* `PreferenceTable` — the table, with what the calls of the store do.
* `LearnedOverUser` — a learned value has taken over the row of a value of the user.

## Main results

* `effective_eq_expected_iff` — when the merge has the value of the highest tier.
-/

namespace Yantra

open Json Utf16 List Option Prod

/-! ## The table -/

/-- `PreferenceSourceKind` -/
inductive PreferenceSource where
  | user | learned
  deriving DecidableEq

/-- A row of the `preferences` table, without its key. -/
structure PreferenceRow where
  value : JsString
  source : PreferenceSource
  approved : Bool
  updatedAt : String
  deriving DecidableEq

structure PreferenceRecord where
  key : String
  value : Value
  source : PreferenceSource
  approved : Bool
  updatedAt : String

structure SetPreferenceOptions where
  source : Option PreferenceSource := none
  approved : Option Bool := none
  deriving DecidableEq

/-- `opts.source ?? 'user'` -/
def SetPreferenceOptions.writer (opts : SetPreferenceOptions) : PreferenceSource :=
  opts.source.getD .user

/-- `opts.approved ?? source === 'user'` -/
def SetPreferenceOptions.approves (opts : SetPreferenceOptions) : Bool :=
  opts.approved.getD (opts.writer = .user)

structure IndexDbError where
  message : String
  op : String
  deriving DecidableEq

/-- The `preferences` table: its key is the primary key. -/
abbrev PreferenceTable := OrderedMap String PreferenceRow

/-- A call that writes the table. A value that has no JSON text is none. -/
inductive PreferenceCall where
  | set (key : String) (value : Option Value) (opts : SetPreferenceOptions)
  | approve (key : String)
  | forget (key : String)

/-- A call, with the clock, and whether the database fails. -/
structure PreferenceEvent where
  call : PreferenceCall
  now : String := ""
  dbFails : Bool := false

/-- A call writes the table, unless the database fails or a value has no JSON text. -/
def PreferenceEvent.takesEffect (event : PreferenceEvent) : Bool :=
  !event.dbFails &&
    match event.call with
    | .set _ value _ => value.isSome
    | _ => true

def decodeJson (numberOf : JsString → Number) (raw : JsString) : Value :=
  (parse numberOf raw).getD (.string raw)

def rowToRecord (numberOf : JsString → Number) (key : String) (row : PreferenceRow) :
    PreferenceRecord where
  key := key
  value := decodeJson numberOf row.value
  source := row.source
  approved := row.approved
  updatedAt := row.updatedAt

namespace PreferenceTable

/-- `set`: the row of the key is overwritten. -/
def setPreference (table : PreferenceTable) (event : PreferenceEvent) (key : String)
    (value : Option Value) (opts : SetPreferenceOptions) :
    Except IndexDbError Unit × PreferenceTable :=
  match value with
  | some v =>
    if event.dbFails then (.error ⟨"failed to set preference", "preferences.set"⟩, table)
    else (.ok (), table.set key ⟨stringify v, opts.writer, opts.approves, event.now⟩)
  | none => (.error ⟨"failed to set preference", "preferences.set"⟩, table)

/-- `forget`: the row of the key is deleted. -/
def forget (table : PreferenceTable) (event : PreferenceEvent) (key : String) :
    Except IndexDbError Bool × PreferenceTable :=
  if event.dbFails then (.error ⟨"failed to forget preference", "preferences.forget"⟩, table)
  else (.ok (table.has key), table.erase key)

/-- `approve`: the row of the key is approved, if there is one. -/
def approve (table : PreferenceTable) (event : PreferenceEvent) (key : String) :
    Except IndexDbError Bool × PreferenceTable :=
  if event.dbFails then (.error ⟨"failed to approve preference", "preferences.approve"⟩, table)
  else
    match table.get? key with
    | some row => (.ok true, table.set key { row with approved := true, updatedAt := event.now })
    | none => (.ok false, table)

def step (table : PreferenceTable) (event : PreferenceEvent) : PreferenceTable :=
  match event.call with
  | .set key value opts => (table.setPreference event key value opts).2
  | .approve key => (table.approve event key).2
  | .forget key => (table.forget event key).2

def run (history : List PreferenceEvent) : PreferenceTable := history.foldl step .empty

/-- `list`: the records in the order of their keys. -/
def list (numberOf : JsString → Number) (table : PreferenceTable) : List PreferenceRecord :=
  (table.entries.insertionSort fun e e' => e.1 ≤ e'.1).map fun e => rowToRecord numberOf e.1 e.2

def get (numberOf : JsString → Number) (table : PreferenceTable) (key : String) :
    Option PreferenceRecord :=
  (table.get? key).map (rowToRecord numberOf key)

end PreferenceTable

/-! ## The merge -/

inductive PreferenceProvenance where
  | profileYaml | indexDb
  deriving DecidableEq

structure EffectivePreference where
  key : String
  value : Value
  source : PreferenceSource
  approved : Bool
  provenance : PreferenceProvenance

/-- A record in the merged view. -/
def PreferenceRecord.toEffective (record : PreferenceRecord) : EffectivePreference :=
  ⟨record.key, record.value, record.source, record.approved, .indexDb⟩

/-- The records of a source are written into the merged view. -/
def mergeRecords (source : PreferenceSource) (records : List PreferenceRecord)
    (merged : OrderedMap String EffectivePreference) : OrderedMap String EffectivePreference :=
  records.foldl (fun merged record =>
    if record.source = source then merged.set record.key record.toEffective else merged) merged

/-- The values of `profile.yaml` are written into the merged view. -/
def mergeYaml (yamlLayer : OrderedMap String Value)
    (merged : OrderedMap String EffectivePreference) : OrderedMap String EffectivePreference :=
  yamlLayer.entries.foldl (fun merged e =>
    merged.set e.1 ⟨e.1, e.2, .user, true, .profileYaml⟩) merged

/-- `effective`: learned rows, then `profile.yaml`, then the rows of the user. -/
def PreferenceTable.effective (numberOf : JsString → Number) (table : PreferenceTable)
    (yamlLayer : OrderedMap String Value) : OrderedMap String EffectivePreference :=
  let records := table.list numberOf
  mergeRecords .user records (mergeYaml yamlLayer (mergeRecords .learned records .empty))

/-! ## The three tiers -/

def lastFirst (history : List PreferenceEvent) : List PreferenceCall :=
  ((history.filter PreferenceEvent.takesEffect).map PreferenceEvent.call).reverse

/-- The last write of a key since it was forgotten last, as far as `counts` tells, and whether it
was approved with the write or after it. -/
def lastWrite (key : String) (counts : SetPreferenceOptions → Bool) (approved : Bool) :
    List PreferenceCall → Option (Value × PreferenceSource × Bool)
  | [] => none
  | .set key' value opts :: calls =>
    match value with
    | some v =>
      if key' = key ∧ counts opts then some (v, opts.writer, approved || opts.approves)
      else lastWrite key counts approved calls
    | none => lastWrite key counts approved calls
  | .approve key' :: calls =>
    lastWrite key counts (approved || key' = key) calls
  | .forget key' :: calls => if key' = key then none else lastWrite key counts approved calls

/-- The last value of a source for a key since it was forgotten last. -/
def lastSet (key : String) (source : PreferenceSource) (history : List PreferenceEvent) :
    Option (Value × PreferenceSource × Bool) :=
  lastWrite key (fun opts => opts.writer = source) false (lastFirst history)

/-- The last value of anyone for a key since it was forgotten last. -/
def lastSetByAnyone (key : String) (history : List PreferenceEvent) :
    Option (Value × PreferenceSource × Bool) :=
  lastWrite key (fun _ => true) false (lastFirst history)

def setPreferenceView (numberOf : JsString → Number) (key : String)
    (written : Value × PreferenceSource × Bool) : EffectivePreference :=
  ⟨key, decodeJson numberOf (stringify written.1), written.2.1, written.2.2, .indexDb⟩

/-- What the merged view should have for a key: the last value that the user set since it was last
forgotten, else that of `profile.yaml`, else the last learned one. -/
def expectedPreference (numberOf : JsString → Number) (history : List PreferenceEvent)
    (yamlLayer : OrderedMap String Value) (key : String) : Option EffectivePreference :=
  match lastSet key .user history with
  | some written => some (setPreferenceView numberOf key written)
  | none =>
    match yamlLayer.get? key with
    | some value => some ⟨key, value, .user, true, .profileYaml⟩
    | none => (lastSet key .learned history).map (setPreferenceView numberOf key)

/-- Since a key was last forgotten, the user has set it, and the last write of it is a learned
one. -/
def LearnedOverUser (key : String) (history : List PreferenceEvent) : Prop :=
  (lastSet key .user history).isSome ∧
    (lastSetByAnyone key history).any fun written => written.2.1 = .learned

instance (key : String) (history : List PreferenceEvent) :
    Decidable (LearnedOverUser key history) :=
  inferInstanceAs (Decidable (_ ∧ _))

open PreferenceRow OrderedMap PreferenceTable

/-! ## The last write of a key -/

section

variable {key : String} {counts : SetPreferenceOptions → Bool} {calls : List PreferenceCall}
  {history : List PreferenceEvent}

lemma lastWrite_true (key : String) (counts : SetPreferenceOptions → Bool)
    (calls : List PreferenceCall) :
    lastWrite key counts true calls =
      (lastWrite key counts false calls).map fun w => (w.1, w.2.1, true) := by
  induction calls with
  | nil => rfl
  | cons call calls ih =>
    cases call with
    | set key' value opts =>
      cases value with
      | none => exact ih
      | some v =>
        rw [lastWrite, lastWrite]
        split_ifs
        · simp
        · exact ih
    | approve key' =>
      rw [lastWrite, lastWrite, Bool.true_or, Bool.false_or, ih]
      by_cases hkey : key' = key
      · simp only [hkey, decide_true, ih, Option.map_map]
        rfl
      · simp only [hkey, decide_false]
    | forget key' =>
      rw [lastWrite, lastWrite]
      split_ifs
      · rfl
      · exact ih

lemma lastWrite_of_anyone (key : String) (source : PreferenceSource) (approved : Bool)
    (calls : List PreferenceCall) :
    (lastWrite key (fun _ => true) approved calls = none →
      lastWrite key (fun opts => opts.writer = source) approved calls = none) ∧
    ∀ w, lastWrite key (fun _ => true) approved calls = some w → w.2.1 = source →
      lastWrite key (fun opts => opts.writer = source) approved calls = some w := by
  induction calls generalizing approved with
  | nil => exact ⟨fun _ => rfl, fun _ h => by cases h⟩
  | cons call calls ih =>
    cases call with
    | set key' value opts =>
      cases value with
      | none => exact ih approved
      | some v =>
        by_cases hkey : key' = key
        · simp only [lastWrite, hkey, true_and, if_true, some.injEq, reduceCtorEq,
            false_implies]
          rintro _ rfl hsource
          simp only at hsource
          simp [hsource]
        · simp only [lastWrite, hkey, false_and, if_false]
          exact ih approved
    | approve key' => exact ih _
    | forget key' =>
      simp only [lastWrite]
      split_ifs
      · exact ⟨fun _ => rfl, fun _ h => by cases h⟩
      · exact ih approved

lemma source_of_lastWrite {source : PreferenceSource} {approved : Bool}
    {w : Value × PreferenceSource × Bool}
    (h : lastWrite key (fun opts => opts.writer = source) approved calls = some w) :
    w.2.1 = source := by
  induction calls generalizing approved with
  | nil => cases h
  | cons call calls ih =>
    cases call with
    | set key' value opts =>
      cases value with
      | none => exact ih h
      | some v =>
        simp only [lastWrite] at h
        split_ifs at h with hcounts
        · obtain rfl := some.inj h
          exact of_decide_eq_true hcounts.2
        · exact ih h
    | approve key' => exact ih h
    | forget key' =>
      simp only [lastWrite] at h
      split_ifs at h
      exact ih h

lemma lastFirst_concat (history : List PreferenceEvent) (event : PreferenceEvent) :
    lastFirst (history ++ [event]) =
      (if event.takesEffect then [event.call] else []) ++ lastFirst history := by
  rw [lastFirst, lastFirst, filter_append, map_append, reverse_append,
    filter_singleton]
  cases event.takesEffect <;> rfl

def PreferenceRow.written (row : PreferenceRow) : JsString × PreferenceSource × Bool :=
  (row.value, row.source, row.approved)

/-- A row as a write of its key. -/
def writtenRow (w : Value × PreferenceSource × Bool) : JsString × PreferenceSource × Bool :=
  (stringify w.1, w.2.1, w.2.2)

/-- **One call**: the row of a key stays the last write of it. -/
lemma get?_step {table : PreferenceTable} {event : PreferenceEvent}
    (h : (table.get? key).map written =
      (lastWrite key (fun _ => true) false calls).map writtenRow) :
    ((table.step event).get? key).map written =
      (lastWrite key (fun _ => true) false
        ((if event.takesEffect then [event.call] else []) ++ calls)).map writtenRow := by
  obtain ⟨call, now, dbFails⟩ := event
  cases dbFails with
  | true =>
    cases call with
    | set key' value opts => cases value <;> exact h
    | approve key' => exact h
    | forget key' => exact h
  | false =>
    cases call with
    | set key' value opts =>
      cases value with
      | none => exact h
      | some v =>
        change ((table.set key' ⟨stringify v, opts.writer, opts.approves, now⟩).get? key).map
          written = (lastWrite key (fun _ => true) false
            (.set key' (some v) opts :: calls)).map writtenRow
        rw [get?_set, lastWrite]
        by_cases hkey : key' = key
        · simp [hkey, written, writtenRow]
        · simp [hkey, h]
    | approve key' =>
      change ((table.approve ⟨.approve key', now, false⟩ key').2.get? key).map
        written = (lastWrite key (fun _ => true) false
          (.approve key' :: calls)).map writtenRow
      rw [PreferenceTable.approve, lastWrite, if_neg Bool.false_ne_true, Bool.false_or]
      by_cases hkey : key' = key
      · subst hkey
        rw [decide_eq_true rfl, lastWrite_true, Option.map_map]
        cases hrow : table.get? key' with
        | none =>
          rw [hrow, map_none, eq_comm, map_eq_none_iff] at h
          simp [h, hrow]
        | some row =>
          rw [hrow, map_some, eq_comm, map_eq_some_iff] at h
          obtain ⟨w, hw, heq⟩ := h
          rw [writtenRow, written, Prod.mk.injEq, Prod.mk.injEq] at heq
          simp [hw, written, writtenRow, heq.1, heq.2.1]
      · rw [decide_eq_false hkey, ← h]
        cases table.get? key' with
        | none => rfl
        | some row => rw [get?_set_of_ne _ _ hkey]
    | forget key' =>
      change ((table.erase key').get? key).map written =
        (lastWrite key (fun _ => true) false (.forget key' :: calls)).map writtenRow
      rw [get?_erase, lastWrite]
      by_cases hkey : key' = key
      · simp [hkey]
      · simp [hkey, h]

/-- **The row of a key is the last write of it.** -/
theorem get?_run (key : String) (history : List PreferenceEvent) :
    ((run history).get? key).map written =
      (lastSetByAnyone key history).map writtenRow := by
  induction history using reverseRecOn with
  | nil => rfl
  | append_singleton history event ih =>
    have hrun : run (history ++ [event]) =
        (run history).step event := by
      rw [run, foldl_append]
      rfl
    rw [hrun, lastSetByAnyone, lastFirst_concat]
    exact get?_step ih

end

/-! ## The merged view -/

section

variable {numberOf : JsString → Number} {table : PreferenceTable} {key : String}

lemma get?_foldl_setIf {ρ β : Type} (counts : ρ → Bool) (f : ρ → β) (merged : OrderedMap String β)
    {keyOf : ρ → String} {records : List ρ} (hnodup : (records.map keyOf).Nodup) (key : String) :
    (∀ record ∈ records, keyOf record = key →
      (records.foldl (fun m r => if counts r then m.set (keyOf r) (f r) else m) merged).get? key =
        if counts record then some (f record) else merged.get? key) ∧
    (key ∉ records.map keyOf →
      (records.foldl (fun m r => if counts r then m.set (keyOf r) (f r) else m) merged).get? key =
        merged.get? key) := by
  induction records generalizing merged with
  | nil => exact ⟨fun _ h => absurd h not_mem_nil, fun _ => rfl⟩
  | cons first records ih =>
    rw [map_cons, nodup_cons] at hnodup
    refine ⟨fun record hrecord hkey => ?_, fun hkey => ?_⟩
    · rw [foldl_cons]
      rcases mem_cons.1 hrecord with rfl | hrecord
      · rw [(ih _ hnodup.2).2 (hkey ▸ hnodup.1)]
        split_ifs
        · rw [hkey, get?_set_self]
        · rfl
      · rw [(ih _ hnodup.2).1 record hrecord hkey]
        have hne : keyOf first ≠ key := fun heq =>
          hnodup.1 (heq.trans hkey.symm ▸ List.mem_map_of_mem hrecord)
        split_ifs
        · rfl
        · rw [get?_set_of_ne _ _ hne]
        · rfl
    · rw [map_cons, mem_cons, not_or] at hkey
      rw [foldl_cons, (ih _ hnodup.2).2 hkey.2]
      split_ifs
      · rw [get?_set_of_ne _ _ (Ne.symm hkey.1)]
      · rfl

def effectiveRow (numberOf : JsString → Number) (key : String) (row : PreferenceRow) :
    EffectivePreference :=
  (rowToRecord numberOf key row).toEffective

lemma get?_mergeRecords (source : PreferenceSource) (merged : OrderedMap String EffectivePreference)
    :
    (mergeRecords source (table.list numberOf) merged).get? key =
      (((table.get? key).filter fun row => row.source = source).map
        (effectiveRow numberOf key)).or (merged.get? key) := by
  have hperm : (table.entries.insertionSort fun e e' => e.1 ≤ e'.1).Perm table.entries :=
    perm_insertionSort _ _
  have hkeys : (table.list numberOf).map PreferenceRecord.key =
      (table.entries.insertionSort fun e e' => e.1 ≤ e'.1).map fst := by
    rw [list, List.map_map]
    rfl
  have hnodup : ((table.list numberOf).map PreferenceRecord.key).Nodup := by
    rw [hkeys]
    exact ((hperm.map fst).nodup_iff).2 table.nodup
  have hmerge := get?_foldl_setIf (fun record : PreferenceRecord => decide (record.source = source))
    PreferenceRecord.toEffective merged hnodup key
  simp only [decide_eq_true_eq] at hmerge
  cases hrow : table.get? key with
  | some row =>
    have hmem : (key, row) ∈ table.entries := (table.get?_eq_some_iff key row).1 hrow
    rw [mergeRecords, hmerge.1 (rowToRecord numberOf key row)
      (List.mem_map.2 ⟨(key, row), hperm.mem_iff.2 hmem, rfl⟩) rfl]
    by_cases hsource : row.source = source
    · simp [filter_some, rowToRecord, hsource, effectiveRow]
    · simp [filter_some, rowToRecord, hsource]
  | none =>
    rw [mergeRecords, hmerge.2]
    · simp
    · rw [hkeys, (hperm.map fst).mem_iff]
      intro hmem
      have hhas := (table.has_iff_mem_keys key).2 hmem
      rw [has, hrow] at hhas
      cases hhas

/-- The values of `profile.yaml`, merged. -/
lemma get?_mergeYaml (yamlLayer : OrderedMap String Value)
    (merged : OrderedMap String EffectivePreference) :
    (mergeYaml yamlLayer merged).get? key =
      ((yamlLayer.get? key).map fun value =>
        (⟨key, value, .user, true, .profileYaml⟩ : EffectivePreference)).or (merged.get? key) := by
  have hmerge := get?_foldl_setIf (fun _ => true)
    (fun e : String × Value => (⟨e.1, e.2, .user, true, .profileYaml⟩ : EffectivePreference))
    merged yamlLayer.nodup key
  simp only [if_true] at hmerge
  cases hvalue : yamlLayer.get? key with
  | some value =>
    rw [mergeYaml, hmerge.1 (key, value) ((yamlLayer.get?_eq_some_iff key value).1 hvalue) rfl]
    rfl
  | none =>
    rw [mergeYaml, hmerge.2]
    · simp
    · intro hmem
      have hhas := (yamlLayer.has_iff_mem_keys key).2 hmem
      rw [has, hvalue] at hhas
      cases hhas

/-- **The merged view of a key**: its row, if it is of the user, else its value in
`profile.yaml`, else its row. -/
theorem get?_effective (yamlLayer : OrderedMap String Value) :
    (table.effective numberOf yamlLayer).get? key =
      (((table.get? key).filter fun row => row.source = .user).map
        (effectiveRow numberOf key)).or
      (((yamlLayer.get? key).map fun value =>
        (⟨key, value, .user, true, .profileYaml⟩ : EffectivePreference)).or
      (((table.get? key).filter fun row => row.source = .learned).map
        (effectiveRow numberOf key))) := by
  rw [effective, get?_mergeRecords, get?_mergeYaml, get?_mergeRecords,
    get?_empty, or_none]

/-- **When the highest tier counts**: for every history of calls, every `profile.yaml` and every
key, the merged view has the last value that the user set since the key was last forgotten, else
that of `profile.yaml`, else the last learned one, if and only if the last write of the key is not
a learned one over a value of the user. -/
theorem effective_eq_expected_iff (numberOf : JsString → Number) (history : List PreferenceEvent)
    (yamlLayer : OrderedMap String Value) (key : String) :
    ((PreferenceTable.run history).effective numberOf yamlLayer).get? key =
        expectedPreference numberOf history yamlLayer key ↔ ¬ LearnedOverUser key history := by
  have hrow := get?_run key history
  have hanyone := fun source : PreferenceSource =>
    lastWrite_of_anyone key source false (lastFirst history)
  rw [get?_effective, expectedPreference, LearnedOverUser]
  cases hlast : lastSetByAnyone key history with
  | none =>
    rw [hlast, Option.map_none, Option.map_eq_none_iff] at hrow
    have huser : lastSet key .user history = none := (hanyone .user).1 hlast
    have hlearned : lastSet key .learned history = none := (hanyone .learned).1 hlast
    rw [hrow, huser, hlearned]
    cases yamlLayer.get? key <;> simp
  | some w =>
    rw [hlast, Option.map_some, Option.map_eq_some_iff] at hrow
    obtain ⟨row, hget, hwritten⟩ := hrow
    obtain ⟨v, source, approved⟩ := w
    obtain ⟨value, source', approved', updatedAt⟩ := row
    rw [PreferenceRow.written, writtenRow, Prod.mk.injEq, Prod.mk.injEq] at hwritten
    obtain ⟨hvalue, hsource, happroved⟩ := hwritten
    simp only at hvalue hsource happroved
    subst hvalue hsource happroved
    have hview : effectiveRow numberOf key ⟨stringify v, source', approved', updatedAt⟩ =
        setPreferenceView numberOf key (v, source', approved') := rfl
    rw [hget, Option.filter_some, Option.filter_some]
    cases source' with
    | user =>
      have huser : lastSet key .user history = some (v, .user, approved') :=
        (hanyone .user).2 _ hlast rfl
      simp [huser, hview]
    | learned =>
      have hlearned : lastSet key .learned history = some (v, .learned, approved') :=
        (hanyone .learned).2 _ hlast rfl
      cases huser : lastSet key .user history with
      | none =>
        rw [hlearned]
        cases yamlLayer.get? key <;> simp [hview]
      | some w =>
        -- what is read is not of the user, or not of the table
        have hsource : w.2.1 = .user := source_of_lastWrite huser
        cases yamlLayer.get? key <;> simp [hview, setPreferenceView, hsource]

/-- A learned value takes the place of the value that the user set before it. -/
theorem effective_learned_over_user :
    ∃ history : List PreferenceEvent,
      (((PreferenceTable.run history).effective (fun _ => .infinite false) .empty).get? "ads").map
          (fun e => (e.source, e.approved)) = some (.learned, false) ∧
        (expectedPreference (fun _ => .infinite false) history .empty "ads").map
          (fun e => (e.source, e.approved)) = some (.user, true) :=
  ⟨[{ call := .set "ads" (some (.bool false)) {} },
    { call := .set "ads" (some (.bool true)) { source := some .learned } }], by decide⟩

end

end Yantra
