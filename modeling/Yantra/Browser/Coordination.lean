import Yantra.Lib.Machine

/-!
# Coordination of the managed installation

Processes that use the one managed installation, and processes that replace it, see each other
through files: one record for every use reservation and one for the mutation lease. Records are
read and written under a file mutex, apart from the release of a lease. A process may die between
any two steps, also with a record truncated and not yet written.

## Main definitions

* `Coordination` — the files, the mutex, the calls and the handles of all processes.
* `CoordinationAction`, `managedCoordinator` — what can happen, as a machine.
-/

namespace Yantra

/-! ## Records -/

inductive LivenessVerdict where
  | alive | dead | unknown
  deriving DecidableEq

inductive ManagedUsePhase where
  | starting | running | stopping
  deriving DecidableEq

/-- `ReservationRecord`, with a number for each process and for each reservation. -/
structure ReservationRecord where
  id : ℕ
  parent : ℕ
  child : Option ℕ
  phase : ManagedUsePhase
  deriving DecidableEq

/-- `CHILD_CACHE_PATTERN` -/
def childCachePattern (text : String) : Bool :=
  text.toList.take 13 == "installation-".toList &&
    match text.toList.drop 13 with
    | [] => false
    | first :: rest =>
      first.isAlphanum && rest.all fun c => c.isAlphanum || c == '.' || c == '_' || c == '-'

structure CandidateRoot where
  text : String
  legal : childCachePattern text = true
  deriving DecidableEq

def candidateRoot? (text : String) : Option CandidateRoot :=
  if legal : childCachePattern text = true then some ⟨text, legal⟩ else none

structure OperationRecord where
  operationId : ℕ
  candidateRootRelative : CandidateRoot
  owner : ℕ
  deriving DecidableEq

/-- A file for a record: there is none, or it does not parse, or it holds one. -/
inductive RecordFile (α : Type) where
  | absent
  | corrupt
  | ok (record : α)
  deriving DecidableEq

def RecordFile.read {α : Type} : RecordFile α → Option α
  | .ok record => some record
  | _ => none

@[simp] lemma RecordFile.read_eq_some {α : Type} {file : RecordFile α} {record : α} :
    file.read = some record ↔ file = .ok record := by
  cases file <;> simp [RecordFile.read]

/-! ## Calls and handles -/

/-- A call to the coordinator or to a handle that it gave out. -/
inductive CoordinatorCall where
  | reserveUse
  | attachChild (id child : ℕ)
  | markNeverSpawned (id : ℕ)
  | releaseAfterExit (id : ℕ)
  | claimMutation (candidateRootRelative : String)
  | release (operationId : ℕ)
  deriving DecidableEq

inductive WrittenRecord where
  | reservation (record : ReservationRecord)
  | operation (record : OperationRecord)
  deriving DecidableEq

/-- How far a call has come. -/
inductive CallStage where
  /-- It waits for the mutex, or for the exit of the probes of its lease. -/
  | waiting
  /-- It has decided what to write, and has truncated no file yet. -/
  | writing (record : WrittenRecord)
  | truncated (record : WrittenRecord)
  /-- It is about to read back whose claim it clears. -/
  | reading
  | removing
  | done
  deriving DecidableEq

structure PendingCall where
  proc : ℕ
  call : CoordinatorCall
  stage : CallStage
  deriving DecidableEq

/-- `FileManagedUseReservation`, with the browsers that were spawned under it. -/
structure UseReservation where
  record : ReservationRecord
  released : Bool
  spawned : List ℕ
  deriving DecidableEq

/-- `FileManagedMutationLease` -/
structure MutationLease where
  record : OperationRecord
  released : Bool
  deriving DecidableEq

/-- All processes and their files. Calls are numbered in their order; a reservation and an
operation have the number of the call that made them. -/
structure Coordination where
  dead : ℕ → Bool
  mutex : Option ℕ
  calls : List PendingCall
  reservations : ℕ → RecordFile ReservationRecord
  operation : RecordFile OperationRecord
  uses : ℕ → Option UseReservation
  leases : ℕ → Option MutationLease

namespace Coordination

/-! ## Reading -/

/-- `ProcessLivenessProbe.check`, of a probe that never tells a live process dead. -/
def check (s : Coordination) (told : ℕ → LivenessVerdict) (p : ℕ) : LivenessVerdict :=
  if s.dead p = false ∧ told p = .dead then .alive else told p

def readReservations (s : Coordination) : List ReservationRecord :=
  (List.range s.calls.length).filterMap fun id => (s.reservations id).read

def busy (s : Coordination) (told : ℕ → LivenessVerdict) (record : ReservationRecord) : Bool :=
  match record.child with
  | some child => s.check told child != .dead
  | none => s.check told record.parent != .dead || record.phase == .starting

def findActiveReservation (s : Coordination) (told : ℕ → LivenessVerdict) :
    Option ReservationRecord :=
  s.readReservations.find? (s.busy told)

/-- Whether the browser of a reservation has exited, or was told not to exist. -/
def exited (s : Coordination) (told : ℕ → LivenessVerdict) (record : ReservationRecord) : Bool :=
  match record.child with
  | some child => s.check told child == .dead
  | none => record.phase == .stopping

def operationInProgress (s : Coordination) (told : ℕ → LivenessVerdict) : Bool :=
  match s.operation.read with
  | some record => s.check told record.owner != .dead
  | none => false

/-- Whether the mutex can be taken: nobody has it, or a process that is dead. -/
def mutexFree (s : Coordination) : Bool :=
  match s.mutex with
  | none => true
  | some k =>
    match s.calls[k]? with
    | some c => s.dead c.proc
    | none => true

def assertOwned (s : Coordination) (lease : MutationLease) : Bool :=
  !lease.released &&
    match s.operation.read with
    | some current =>
      current.operationId == lease.record.operationId && current.owner == lease.record.owner
    | none => false

/-! ## Changing -/

def setStage (s : Coordination) (k : ℕ) (c : PendingCall) (stage : CallStage) : Coordination :=
  { s with calls := s.calls.set k { c with stage := stage } }

/-- The handle of a reservation changes. -/
def setUse (s : Coordination) (id : ℕ) (use : UseReservation) : Coordination :=
  { s with uses := Function.update s.uses id (some use) }

/-- The handle of a lease changes. -/
def setLease (s : Coordination) (id : ℕ) (lease : MutationLease) : Coordination :=
  { s with leases := Function.update s.leases id (some lease) }

def setReservation (s : Coordination) (id : ℕ) (file : RecordFile ReservationRecord) :
    Coordination :=
  { s with reservations := Function.update s.reservations id file }

def truncate (s : Coordination) : WrittenRecord → Coordination
  | .reservation record => s.setReservation record.id .corrupt
  | .operation _ => { s with operation := .corrupt }

def store (s : Coordination) : WrittenRecord → Coordination
  | .reservation record => s.setReservation record.id (.ok record)
  | .operation record => { s with operation := .ok record }

/-- A call takes the mutex, and goes on to write a record. -/
def write (s : Coordination) (k : ℕ) (c : PendingCall) (record : WrittenRecord) : Coordination :=
  { s.setStage k c (.writing record) with mutex := some k }

/-- The handle's own copy of the record changes, and its file is written. -/
def rewrite (s : Coordination) (k : ℕ) (c : PendingCall) (id : ℕ) (use : UseReservation)
    (record : ReservationRecord) : Coordination :=
  (s.setUse id { use with record := record }).write k c (.reservation record)

/-- `releaseAfterExit`, under the mutex. -/
def releaseAfterExit (s : Coordination) (k : ℕ) (c : PendingCall) (id : ℕ) (use : UseReservation)
    (told : ℕ → LivenessVerdict) : Coordination :=
  if use.released || !s.exited told use.record then s.setStage k c .done
  else { (s.setUse id { use with released := true }).setStage k c .removing with mutex := some k }

/-- A call gets the mutex, reads, and decides. `stillReady` tells whether the installation that
a reservation was asked for is the one that is ready. -/
def entered (s : Coordination) (k : ℕ) (c : PendingCall) (told : ℕ → LivenessVerdict)
    (stillReady : Bool) : Coordination :=
  match c.call with
  | .reserveUse =>
    if !stillReady || s.operationInProgress told then s.setStage k c .done
    else s.write k c (.reservation ⟨k, c.proc, none, .starting⟩)
  | .claimMutation candidate =>
    match candidateRoot? candidate with
    | none => s.setStage k c .done
    | some root =>
      if (s.findActiveReservation told).isSome || s.operationInProgress told then
        s.setStage k c .done
      else s.write k c (.operation ⟨k, root, c.proc⟩)
  | .attachChild id child =>
    match s.uses id with
    | some use =>
      s.rewrite k c id use { use.record with child := some child, phase := .running }
    | none => s
  | .markNeverSpawned id =>
    match s.uses id with
    | some use => s.rewrite k c id use { use.record with child := none, phase := .stopping }
    | none => s
  | .releaseAfterExit id =>
    match s.uses id with
    | some use => s.releaseAfterExit k c id use told
    | none => s
  | .release _ => s

/-- A record is written, and its call returns; `markNeverSpawned` goes on to release. -/
def written (s : Coordination) (k : ℕ) (c : PendingCall) (record : WrittenRecord) :
    Coordination :=
  let t := { s.store record with mutex := none }
  match c.call, record with
  | .reserveUse, .reservation record => (t.setUse k ⟨record, false, []⟩).setStage k c .done
  | .claimMutation _, .operation record => (t.setLease k ⟨record, false⟩).setStage k c .done
  | .markNeverSpawned id, _ => t.setStage k { c with call := .releaseAfterExit id } .waiting
  | _, _ => t.setStage k c .done

/-- `clearOperation`, after the operation was read. -/
def readBack (s : Coordination) (k : ℕ) (c : PendingCall) (operationId : ℕ) : Coordination :=
  match s.operation.read with
  | some existing =>
    s.setStage k c (if existing.operationId = operationId then .removing else .done)
  | none => s.setStage k c .done

/-- The next step of a call that does not wait. -/
def advance (s : Coordination) (k : ℕ) (c : PendingCall) : Coordination :=
  match c.stage, c.call with
  | .writing record, _ => (s.truncate record).setStage k c (.truncated record)
  | .truncated record, _ => s.written k c record
  | .reading, .release id => s.readBack k c id
  | .removing, .release _ => { s.setStage k c .done with operation := .absent }
  | .removing, .releaseAfterExit id =>
    { (s.setReservation id .absent).setStage k c .done with mutex := none }
  | _, _ => s

/-- The stage at which a call of a process starts, where the process has the handle. -/
def opening (s : Coordination) (p : ℕ) : CoordinatorCall → Option CallStage
  | .reserveUse | .claimMutation _ => some .waiting
  | .attachChild id _ | .markNeverSpawned id | .releaseAfterExit id =>
    match s.uses id with
    | some use =>
      if use.record.parent = p then some (if use.released then .done else .waiting) else none
    | none => none
  | .release id =>
    match s.leases id with
    | some lease =>
      if lease.record.owner = p then some (if lease.released then .done else .waiting) else none
    | none => none

end Coordination

/-! ## Steps -/

inductive CoordinationAction where
  /-- A process calls. -/
  | call (p : ℕ) (call : CoordinatorCall)
  /-- A call gets the mutex, with the verdicts of the probe. -/
  | enter (k : ℕ) (told : ℕ → LivenessVerdict) (stillReady : Bool)
  /-- The probes that a lease waits for have exited. -/
  | exits (k : ℕ)
  | next (k : ℕ)
  /-- A browser is spawned under a reservation. -/
  | spawn (id browser : ℕ)
  | die (p : ℕ)

/-- One step. Only live processes take steps of their own. -/
def Coordination.step (s : Coordination) : CoordinationAction → Coordination
  | .call p call =>
    if s.dead p then s
    else
      match s.opening p call with
      | some stage => { s with calls := s.calls ++ [⟨p, call, stage⟩] }
      | none => s
  | .enter k told stillReady =>
    match s.calls[k]? with
    | some c =>
      if s.dead c.proc ∨ c.stage ≠ .waiting ∨ ¬ s.mutexFree then s
      else s.entered k c told stillReady
    | none => s
  | .exits k =>
    match s.calls[k]? with
    | some c =>
      match c.call with
      | .release id =>
        match s.leases id with
        | some lease =>
          if s.dead c.proc ∨ c.stage ≠ .waiting then s
          else (s.setLease id { lease with released := true }).setStage k c .reading
        | none => s
      | _ => s
    | none => s
  | .next k =>
    match s.calls[k]? with
    | some c => if s.dead c.proc then s else s.advance k c
    | none => s
  | .spawn id browser =>
    match s.uses id with
    | some use =>
      if s.dead use.record.parent then s
      else s.setUse id { use with spawned := browser :: use.spawned }
    | none => s
  | .die p => { s with dead := Function.update s.dead p true }

/-- No process has called yet. -/
def Coordination.fresh : Coordination :=
  ⟨fun _ => false, none, [], fun _ => .absent, .absent, fun _ => none, fun _ => none⟩

/-- `LocalManagedCoordinator`, of all processes together. -/
def managedCoordinator : Machine Coordination CoordinationAction where
  init := .fresh
  step := Coordination.step

end Yantra
