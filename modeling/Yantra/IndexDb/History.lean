import Yantra.Lib.Machine
import Yantra.Lib.OrderedMap
import Yantra.Protocol.Value

/-!
# The history index

The table of past runs, which caches what the run directories say. A recording reads the files of
one directory, a rebuild lists the tree and reads the files of every directory; each read is a
step of its own, and files are written between any two steps. A table is written in one step.

## Main definitions

* `HistoryCall`, `HistoryIndex` — the calls, and all of it together.
* `HistoryEvent`, `historyStore` — what can happen, as a machine.
-/

namespace Yantra

/-! ## Entries -/

/-- `TaskType` -/
inductive HistoryTaskType where
  | ask | research | run | do_
  deriving DecidableEq

inductive HistoryStatus where
  | succeeded | failed | handoff | aborted
  deriving DecidableEq

/-- The words of `TaskOutcome`. -/
inductive HistoryOutcome where
  | fulfilled | partly | handoff | failed | aborted
  deriving DecidableEq

/-- `HistoryEntry`; numbers are kept by their texts. -/
structure HistoryEntry where
  runId : String
  taskType : HistoryTaskType
  intentText : String
  briefId : Option String
  status : HistoryStatus
  startedAt : String
  finishedAt : Option String
  durationMs : Option String
  costUsd : Option String
  provider : Option String
  taskOutcome : Option HistoryOutcome
  deriving DecidableEq

structure BriefMeta where
  briefId : Option String
  costUsd : Option String
  title : Option String
  deriving DecidableEq

/-- The field of a value that was parsed from a file, where it is an object. -/
def Value.fieldAt (key : String) : Value → Option Value
  | .obj fields => field? key fields
  | _ => none

def asString : Option Value → Option String
  | some (.str text) => some text
  | _ => none

def asNumber : Option Value → Option String
  | some (.num text) => if Value.nonFinite text then none else some text
  | _ => none

/-- `ASK_TASK_TYPES` -/
def askTaskType : String → Option HistoryTaskType
  | "ask" => some .ask
  | "research" => some .research
  | "do" => some .do_
  | _ => none

def taskOutcomeOf : Option Value → Option HistoryOutcome
  | some (.str "fulfilled") => some .fulfilled
  | some (.str "partial") => some .partly
  | some (.str "handoff") => some .handoff
  | some (.str "failed") => some .failed
  | some (.str "aborted") => some .aborted
  | _ => none

def mapAskStatus (status : Option String) : HistoryStatus :=
  if status = some "failed" then .failed else .succeeded

def mapRunStatus : Option String → Option HistoryStatus
  | some "completed" => some .succeeded
  | some "failed" => some .failed
  | some "aborted" => some .aborted
  | some "paused" => some .handoff
  | _ => none

/-- `durationBetween`, on the times that `new Date` reads. -/
def durationBetween (getTime : String → Option ℤ) (startedAt : String)
    (finishedAt : Option String) : Option String := do
  let finished ← getTime (← finishedAt)
  let started ← getTime startedAt
  if 0 ≤ finished - started then some (toString (finished - started)) else none

/-- The first branch of `deriveHistoryEntry`: the manifest of an ask, a research or a do. -/
def deriveAskEntry (getTime : String → Option ℤ) (dirName : String) (raw : Value)
    (briefMeta : Option BriefMeta) (taskType : HistoryTaskType) : Option HistoryEntry := do
  let startedAt ← asString (raw.fieldAt "started_at")
  let finishedAt := asString (raw.fieldAt "finished_at")
  some
    { runId := dirName
      taskType
      intentText := (asString (raw.fieldAt "query")).getD ""
      briefId := briefMeta.bind BriefMeta.briefId
      status := mapAskStatus (asString (raw.fieldAt "status"))
      startedAt
      finishedAt
      durationMs := durationBetween getTime startedAt finishedAt
      costUsd := briefMeta.bind BriefMeta.costUsd
      provider := asString (raw.fieldAt "search_provider")
      taskOutcome := none }

/-- The second branch of `deriveHistoryEntry`: the manifest of a workflow run. -/
def deriveRunEntry (getTime : String → Option ℤ) (dirName : String) (raw : Value)
    (briefMeta : Option BriefMeta) (workflowName : String) : Option HistoryEntry := do
  let startedAt ← asString (raw.fieldAt "startedAt")
  let status ← mapRunStatus (asString (raw.fieldAt "status"))
  let finishedAt := asString (raw.fieldAt "endedAt")
  let agenticTaskType :=
    if asString (raw.fieldAt "runKind") = some "agentic" then askTaskType workflowName else none
  some
    { runId := (asString (raw.fieldAt "runId")).getD dirName
      taskType := agenticTaskType.getD .run
      intentText := match agenticTaskType with
        | none => workflowName
        | some _ => (briefMeta.bind BriefMeta.title).getD workflowName
      briefId := briefMeta.bind BriefMeta.briefId
      status
      startedAt
      finishedAt
      durationMs := (asNumber (raw.fieldAt "durationMs")).or
        (durationBetween getTime startedAt finishedAt)
      costUsd := briefMeta.bind BriefMeta.costUsd
      provider := match agenticTaskType with
        | none => none
        | some _ => asString ((raw.fieldAt "agent").bind (Value.fieldAt "provider"))
      taskOutcome := taskOutcomeOf (raw.fieldAt "taskOutcome") }

/-- `deriveHistoryEntry`: a manifest that is `null` throws. -/
def deriveHistoryEntry (getTime : String → Option ℤ) (dirName : String) (raw : Value)
    (briefMeta : Option BriefMeta) : Except Unit (Option HistoryEntry) :=
  match raw with
  | .null => .error ()
  | raw =>
    match (asString (raw.fieldAt "type")).bind askTaskType with
    | some taskType => .ok (deriveAskEntry getTime dirName raw briefMeta taskType)
    | none =>
      match asString (raw.fieldAt "workflowName") with
      | some workflowName => .ok (deriveRunEntry getTime dirName raw briefMeta workflowName)
      | none => .ok none

/-! ## Reading a run directory -/

/-- The files of a run directory; one that is missing, or does not parse, is `none`. The stamp tells
one writing of the manifest from another. -/
structure RunFiles where
  manifest : Option Value := none
  brief : Option Value := none
  document : Option Value := none
  stamp : ℕ := 0

/-- The body of the loop of `readBriefMeta`, on what a file holds: `null` throws. -/
def briefMetaOf : Value → Option BriefMeta
  | .null => none
  | document =>
    let id := match document.fieldAt "brief_id" with
      | none | some .null => document.fieldAt "report_id"
      | id => id
    let cost := ((document.fieldAt "metadata").bind (Value.fieldAt "usage")).bind
      (Value.fieldAt "cost_usd")
    some
      { briefId := asString id
        costUsd := match cost with
          | some (.num text) => some text
          | _ => none
        title := asString (document.fieldAt "title") }

/-- Where `readRunManifest` has got to: it reads the manifest, then the brief, then the document. -/
inductive ReadingStage where
  | manifest
  | brief (raw : Value)
  | document (raw : Value)
  | done (result : Except Unit (Option HistoryEntry))

/-- A call of `readRunManifest`, with the stamp of the manifest it has read. -/
structure ManifestReading where
  dir : String
  stage : ReadingStage := .manifest
  stamp : Option ℕ := none

abbrev RunTree := OrderedMap String RunFiles

/-- The next file is read, where `ok` is false without success. -/
def ManifestReading.step (getTime : String → Option ℤ) (tree : RunTree) (ok : Bool)
    (r : ManifestReading) : ManifestReading :=
  let files := (if ok then tree.get? r.dir else none).getD {}
  match r.stage with
  | .manifest =>
    match files.manifest with
    | none => { r with stage := .done (.ok none) }
    | some raw => { r with stage := .brief raw, stamp := some files.stamp }
  | .brief raw =>
    match files.brief.bind briefMetaOf with
    | none => { r with stage := .document raw }
    | some found => { r with stage := .done (deriveHistoryEntry getTime r.dir raw (some found)) }
  | .document raw =>
    let found := files.document.bind briefMetaOf
    { r with stage := .done (deriveHistoryEntry getTime r.dir raw found) }
  | .done _ => r

def ManifestReading.result (r : ManifestReading) : Option (Except Unit (Option HistoryEntry)) :=
  match r.stage with
  | .done result => some result
  | _ => none

/-- The entry of a reading, with an exception caught as no entry. -/
def ManifestReading.entry (r : ManifestReading) : Option HistoryEntry :=
  match r.stage with
  | .done (.ok entry) => entry
  | _ => none

/-! ## The store -/

/-- The rows of the table, by their run ids. -/
abbrev HistoryTable := OrderedMap String HistoryEntry

/-- `insert`: an upsert. -/
def HistoryTable.insert (table : HistoryTable) (entry : HistoryEntry) : HistoryTable :=
  OrderedMap.set table entry.runId entry

/-- The inserts of a rebuild, one after another. -/
def HistoryTable.insertAll (entries : List HistoryEntry) : HistoryTable :=
  entries.foldl HistoryTable.insert .empty

/-- What `recordFromRunDir` resolves to: `failed` is an error of the index. -/
inductive RecordReport where
  | ok (recorded : Bool)
  | failed
  deriving DecidableEq

/-- What `rebuildFromRuns` resolves to. -/
inductive RebuildReport where
  | ok (rowCount : ℕ)
  | failed
  deriving DecidableEq

inductive HistoryCall where
  | record (reading : ManifestReading) (report : Option RecordReport)
  | rebuildListing
  | rebuildReading (readings : List ManifestReading)
  | rebuilt (report : RebuildReport)

/-- How the writes of a call go: all succeed, or a statement fails. The statements of a rebuild are
`BEGIN`, `DELETE`, one insert for each entry, and `COMMIT`, numbered from zero; `rolledBack` tells
whether its transaction is undone then. -/
inductive TableWrites where
  | committed
  | failed (statement : ℕ) (rolledBack : Bool)
  deriving DecidableEq

/-- The tree, the table, and the calls. `saved` is the table before a transaction that is still
open. -/
structure HistoryIndex where
  tree : RunTree
  clock : ℕ
  table : HistoryTable
  saved : Option HistoryTable := none
  calls : List HistoryCall := []

/-- What can happen: files are written and directories removed; calls are made; the tree is listed,
which fails with `none`; the next file of a directory is read; a call writes and reports. -/
inductive HistoryEvent where
  | manifestWritten (dir : String) (content : Option Value)
  | briefWritten (dir : String) (content : Option Value)
  | documentWritten (dir : String) (content : Option Value)
  | removed (dir : String)
  | recordCalled (dir : String)
  | rebuildCalled
  | listed (id : ℕ) (dirs : Option (List String))
  | fileRead (id : ℕ) (dir : String) (ok : Bool)
  | settles (id : ℕ) (outcome : TableWrites)

namespace HistoryIndex

variable (getTime : String → Option ℤ) (s : HistoryIndex)

/-- The files of a directory, none where it is missing. -/
def filesAt (dir : String) : RunFiles := (s.tree.get? dir).getD { stamp := s.clock + 1 }

/-- A file of a directory changes. -/
def withFiles (dir : String) (files : RunFiles) : HistoryIndex :=
  { s with tree := s.tree.set dir files, clock := s.clock + 1 }

/-- A call gets to where it is next. -/
def withCall (id : ℕ) (call : HistoryCall) : HistoryIndex :=
  { s with calls := s.calls.set id call }

/-- `scanRuns` has the names of the directories; a tree that cannot be listed has none. -/
def list (id : ℕ) (dirs : Option (List String)) : HistoryIndex :=
  match dirs with
  | none => s.withCall id (.rebuildReading [])
  | some dirs =>
    if dirs.Perm s.tree.keys then
      s.withCall id (.rebuildReading (dirs.map fun dir => { dir }))
    else s

/-- The readings of a directory go on. -/
def readOne (dir : String) (ok : Bool) (r : ManifestReading) : ManifestReading :=
  if r.dir = dir then r.step getTime s.tree ok else r

/-- The rest of `recordFromRunDir`, once the directory has been read. -/
def settleRecord (id : ℕ) (reading : ManifestReading) (outcome : TableWrites) : HistoryIndex :=
  match reading.result with
  | none => s
  | some (.error _) => s.withCall id (.record reading (some .failed))
  | some (.ok none) => s.withCall id (.record reading (some (.ok false)))
  | some (.ok (some entry)) =>
    match outcome with
    | .committed =>
      { s with table := s.table.insert entry }.withCall id (.record reading (some (.ok true)))
    | .failed .. => s.withCall id (.record reading (some .failed))

/-- The `ROLLBACK` of a rebuild whose transaction left `table`: it undoes the open transaction, if
there is one. -/
def rollback (rolledBack : Bool) (table : HistoryTable) (saved : Option HistoryTable) :
    HistoryIndex :=
  match saved with
  | none => { s with table }
  | some before =>
    if rolledBack then { s with table := before, saved := none } else { s with table, saved }

/-- The rest of `rebuildFromRuns`, once the tree has been scanned. A `BEGIN` within an open
transaction fails. -/
def settleRebuild (id : ℕ) (entries : List HistoryEntry) (outcome : TableWrites) : HistoryIndex :=
  match s.saved, outcome with
  | none, .committed =>
    { s with table := .insertAll entries }.withCall id (.rebuilt (.ok entries.length))
  | none, .failed 0 _ => s.withCall id (.rebuilt .failed)
  | none, .failed 1 rolledBack =>
    (s.rollback rolledBack s.table (some s.table)).withCall id (.rebuilt .failed)
  | none, .failed (n + 2) rolledBack =>
    (s.rollback rolledBack (.insertAll (entries.take n)) (some s.table)).withCall id
      (.rebuilt .failed)
  | some saved, .committed =>
    (s.rollback true s.table (some saved)).withCall id (.rebuilt .failed)
  | some saved, .failed _ rolledBack =>
    (s.rollback rolledBack s.table (some saved)).withCall id (.rebuilt .failed)

/-- What happens. -/
def step : HistoryEvent → HistoryIndex
  | .manifestWritten dir content =>
    s.withFiles dir { s.filesAt dir with manifest := content, stamp := s.clock + 1 }
  | .briefWritten dir content => s.withFiles dir { s.filesAt dir with brief := content }
  | .documentWritten dir content => s.withFiles dir { s.filesAt dir with document := content }
  | .removed dir => { s with tree := s.tree.erase dir }
  | .recordCalled dir => { s with calls := s.calls ++ [.record { dir } none] }
  | .rebuildCalled => { s with calls := s.calls ++ [.rebuildListing] }
  | .listed id dirs =>
    match s.calls[id]? with
    | some .rebuildListing => s.list id dirs
    | _ => s
  | .fileRead id dir ok =>
    match s.calls[id]? with
    | some (.record reading none) =>
      s.withCall id (.record (s.readOne getTime dir ok reading) none)
    | some (.rebuildReading readings) =>
      s.withCall id (.rebuildReading (readings.map (s.readOne getTime dir ok)))
    | _ => s
  | .settles id outcome =>
    match s.calls[id]? with
    | some (.record reading none) => s.settleRecord id reading outcome
    | some (.rebuildReading readings) =>
      if readings.all fun r => r.result.isSome then
        s.settleRebuild id (readings.filterMap ManifestReading.entry) outcome
      else s
    | _ => s

end HistoryIndex

def HistoryIndex.opened (tree : RunTree) (table : HistoryTable) : HistoryIndex where
  tree
  clock := (tree.values.map RunFiles.stamp).sum
  table

/-- The history store over a tree and a table, as a machine driven by what happens. -/
def historyStore (getTime : String → Option ℤ) (tree : RunTree) (table : HistoryTable) :
    Machine HistoryIndex HistoryEvent where
  init := .opened tree table
  step := HistoryIndex.step getTime

end Yantra
