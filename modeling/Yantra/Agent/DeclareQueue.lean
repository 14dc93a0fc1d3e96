import Yantra.Agent.Fulfillment

/-!
# Concurrent declarations

`TaskContractStore.declare` queues its calls on the tail of a promise, so that one `append` runs at
a time: it validates the record, writes `contract.json.tmp`, renames it, and only then commits the
revisions to memory. Calls may be made at any time, and every write and rename may fail.

## Main definitions

* `declareQueue` — the queue as a machine: calls, starts, and settling file operations.
* `withoutDeclaration` — the events of a run without one declaration.

## Main results

* `declarations_serialize` — both, for every interleaving.
-/

namespace Yantra

open List Option

/-! ## The record -/

/-- An action requirement in force and the revision that declared it. -/
structure ContractRequirementOrigin where
  id : String
  declaredIn : Nat
  deriving DecidableEq, Repr, Inhabited

def requirementOrigins (terms : EffectiveActionTerms) : List ContractRequirementOrigin :=
  (terms.fill.map fun f => ⟨"fill", f.declaredIn⟩).toList ++
    (terms.artifacts.map fun a => ⟨artifactRequirementId a.scope, a.declaredIn⟩) ++
    match terms.submit with
    | .forbidden declaredIn => [⟨"effects.submit", declaredIn⟩]
    | .allowed => []

/-- What `contract.json` holds. -/
structure TaskContractRecord where
  schemaVersion : Nat := 1
  runId : String
  command : AgenticCommand
  revisions : List Revision
  /-- Absent when there is none. -/
  requirements : Option (List ContractRequirementOrigin)
  deriving DecidableEq, Repr, Inhabited

/-- Most action requirements a record lists: one fill, three artifacts, one effect. -/
def maxRecordedRequirements : Nat := 1 + contractMaxArtifacts + 1

/-- What the store of a run is made with. -/
structure DeclareConfig where
  pf : Platform
  /-- What `z.string().datetime()` accepts. -/
  isDatetime : String → Bool
  runId : String
  command : AgenticCommand

/-- Whether a revision is accepted at a position. -/
def Revision.schemaValid (cfg : DeclareConfig) (index : Nat) (r : Revision) : Bool :=
  decide (1 ≤ r.revision) && cfg.isDatetime r.declaredAt && r.contract.schemaValid cfg.pf &&
    decide (r.revision = index + 1)

/-- What the schema of the file accepts. -/
def TaskContractRecord.schemaValid (cfg : DeclareConfig) (record : TaskContractRecord) : Bool :=
  decide (record.schemaVersion = 1) && decide (1 ≤ JsText.utf16Length record.runId) &&
    decide (record.command ≠ .ask) &&
    decide (1 ≤ record.revisions.length) &&
    decide (record.revisions.length ≤ taskContractMaxRevisions) &&
    (record.revisions.zipIdx.all fun (r, index) => r.schemaValid cfg index) &&
    (record.requirements.getD []).all (fun o =>
      matchesRequirementIdPattern o.id && decide (1 ≤ o.declaredIn) &&
        decide (o.declaredIn ≤ record.revisions.length)) &&
    decide ((record.requirements.getD []).length ≤ maxRecordedRequirements) &&
    decide ((record.requirements.getD []).map ContractRequirementOrigin.id).Nodup

/-! ## The queue -/

/-- A call of `declare`. -/
structure DeclareCall where
  id : Nat
  body : TaskContractBody
  declaredAt : String
  deriving DecidableEq, Repr, Inhabited

inductive DeclareFailure where
  | revisionLimit
  | commandCannotDeclare (command : AgenticCommand)
  | schema
  | write
  | rename
  deriving DecidableEq, Repr, Inhabited

/-- What the running `append` awaits. -/
inductive AppendPhase where
  | writing | renaming
  deriving DecidableEq, Repr, Inhabited

/-- An `append` that is suspended. -/
structure RunningAppend where
  call : DeclareCall
  record : TaskContractRecord
  revision : Nat
  phase : AppendPhase
  deriving DecidableEq, Repr, Inhabited

/-- The store, its files, and the promises of its calls. -/
structure DeclareState where
  revisions : List Revision := []
  /-- `contract.json`, as last renamed into place. -/
  file : Option TaskContractRecord := none
  /-- `contract.json.tmp`, `none` when it is absent or cut short. -/
  tmp : Option TaskContractRecord := none
  /-- The calls behind the tail of the queue, oldest first. -/
  waiting : List DeclareCall := []
  running : Option RunningAppend := none
  /-- How the calls settled, oldest first. -/
  settled : List (DeclareCall × Except DeclareFailure Nat) := []

/-- What happens to the store. -/
inductive DeclareEvent where
  | declare (call : DeclareCall)
  /-- The tail of the queue resolves, and the next `append` runs to its first await. -/
  | start (id : Nat)
  /-- `writeFile` settles. -/
  | written (id : Nat) (ok : Bool)
  /-- `rename` settles. -/
  | renamed (id : Nat) (ok : Bool)
  deriving DecidableEq, Repr, Inhabited

def DeclareEvent.id : DeclareEvent → Nat
  | .declare call => call.id
  | .start id => id
  | .written id _ => id
  | .renamed id _ => id

def recordOf (cfg : DeclareConfig) (revisions : List Revision) : TaskContractRecord :=
  let requirements := requirementOrigins (effectiveActionTermsOf revisions)
  { runId := cfg.runId
    command := cfg.command
    revisions := revisions
    requirements := if requirements.isEmpty then none else some requirements }

/-- `append` up to its first await: the record to write, and the number of the revision. -/
def appendRecord (cfg : DeclareConfig) (current : List Revision) (call : DeclareCall) :
    Except DeclareFailure (TaskContractRecord × Nat) :=
  if taskContractMaxRevisions ≤ current.length then .error .revisionLimit
  else if cfg.command = .ask then .error (.commandCannotDeclare cfg.command)
  else
    let revision := current.length + 1
    let record := recordOf cfg (current ++ [⟨revision, call.declaredAt, call.body⟩])
    if record.schemaValid cfg then .ok (record, revision) else .error .schema

namespace DeclareState

/-- The head of the queue starts. -/
def start (cfg : DeclareConfig) (s : DeclareState) (id : Nat) : DeclareState :=
  match s.running, s.waiting with
  | none, call :: waiting =>
    if call.id = id then
      match appendRecord cfg s.revisions call with
      | .error failure =>
          { s with waiting := waiting, settled := s.settled ++ [(call, .error failure)] }
      | .ok (record, revision) =>
          { s with waiting := waiting, running := some ⟨call, record, revision, .writing⟩ }
    else s
  | _, _ => s

/-- The running `append` rejects; `.catch(() => undefined)` lets the queue go on. -/
def reject (s : DeclareState) (a : RunningAppend) (failure : DeclareFailure) : DeclareState :=
  { s with running := none, settled := s.settled ++ [(a.call, .error failure)] }

/-- `writeFile(tmp, …)` settles. A failed write leaves no whole record behind. -/
def written (s : DeclareState) (id : Nat) (ok : Bool) : DeclareState :=
  match s.running with
  | some a =>
    if a.call.id = id ∧ a.phase = .writing then
      if ok then { s with tmp := some a.record, running := some { a with phase := .renaming } }
      else { s.reject a .write with tmp := none }
    else s
  | none => s

/-- `rename(tmp, path)` settles; on success the revisions take effect. -/
def renamed (s : DeclareState) (id : Nat) (ok : Bool) : DeclareState :=
  match s.running with
  | some a =>
    if a.call.id = id ∧ a.phase = .renaming then
      if ok then
        { s with
            file := s.tmp
            tmp := none
            revisions := a.record.revisions
            running := none
            settled := s.settled ++ [(a.call, .ok a.revision)] }
      else s.reject a .rename
    else s
  | none => s

/-- The calls made so far, in the order waiting, running, settled. -/
def calls (s : DeclareState) : List Nat :=
  s.waiting.map DeclareCall.id ++ (s.running.map fun a => a.call.id).toList ++
    s.settled.map fun c => c.1.id

/-- Whether an event can happen: a call is new, an `append` starts when the one before it has
settled, and only what is awaited settles. -/
def Enabled (s : DeclareState) : DeclareEvent → Prop
  | .declare call => call.id ∉ s.calls
  | .start id => s.running = none ∧ (s.waiting.head?.map DeclareCall.id) = some id
  | .written id _ => s.running.map (fun a => (a.call.id, a.phase)) = some (id, .writing)
  | .renamed id _ => s.running.map (fun a => (a.call.id, a.phase)) = some (id, .renaming)

instance (s : DeclareState) (e : DeclareEvent) : Decidable (s.Enabled e) := by
  cases e <;> unfold Enabled <;> infer_instance

end DeclareState

def declareQueue (cfg : DeclareConfig) : Machine DeclareState DeclareEvent where
  init := {}
  step s
    | .declare call => { s with waiting := s.waiting ++ [call] }
    | .start id => s.start cfg id
    | .written id ok => s.written id ok
    | .renamed id ok => s.renamed id ok

/-- The store as the rest of the run sees it. -/
def DeclareState.store (cfg : DeclareConfig) (s : DeclareState) : TaskContractStore :=
  ⟨cfg.command, s.revisions⟩

/-- The revisions of the last `contract.json` renamed into place. -/
def DeclareState.fileRevisions (s : DeclareState) : List Revision :=
  (s.file.map TaskContractRecord.revisions).getD []

/-- The revisions that took effect, from what the calls resolved to. -/
def acceptedRevisions (settled : List (DeclareCall × Except DeclareFailure Nat)) :
    List Revision :=
  settled.filterMap fun (call, outcome) =>
    match outcome with
    | .ok revision => some ⟨revision, call.declaredAt, call.body⟩
    | .error _ => none

/-- The events of a run without those of one declaration. -/
def withoutDeclaration (id : Nat) (events : List DeclareEvent) : List DeclareEvent :=
  events.filter fun e => decide (e.id ≠ id)

/-! ## What a step does -/

variable {call : DeclareCall}

/-- What `append` hands to its file operations. -/
lemma appendRecord_ok {cfg : DeclareConfig} {current : List Revision} {record : TaskContractRecord}
    {revision : Nat} (h : appendRecord cfg current call = .ok (record, revision)) :
    revision = current.length + 1 ∧ current.length < taskContractMaxRevisions ∧
      record.revisions = current ++ [⟨revision, call.declaredAt, call.body⟩] := by
  unfold appendRecord at h
  simp only at h
  split_ifs at h with hlimit hask hvalid
  simp only [Except.ok.injEq, Prod.mk.injEq] at h
  obtain ⟨rfl, rfl⟩ := h
  exact ⟨rfl, Nat.lt_of_not_le hlimit, rfl⟩

inductive DeclareStep (cfg : DeclareConfig) (s : DeclareState) :
    DeclareEvent → DeclareState → Prop where
  /-- An event that cannot happen. -/
  | idle {e : DeclareEvent} (he : ¬ s.Enabled e) : DeclareStep cfg s e s
  | declare (call : DeclareCall) :
      DeclareStep cfg s (.declare call) { s with waiting := s.waiting ++ [call] }
  | refused {call : DeclareCall} {waiting : List DeclareCall} {failure : DeclareFailure}
      (hrunning : s.running = none) (hwaiting : s.waiting = call :: waiting)
      (hrecord : appendRecord cfg s.revisions call = .error failure) :
      DeclareStep cfg s (.start call.id)
        { s with waiting := waiting, settled := s.settled ++ [(call, .error failure)] }
  | started {call : DeclareCall} {waiting : List DeclareCall} {record : TaskContractRecord}
      {revision : Nat} (hrunning : s.running = none) (hwaiting : s.waiting = call :: waiting)
      (hrecord : appendRecord cfg s.revisions call = .ok (record, revision)) :
      DeclareStep cfg s (.start call.id)
        { s with waiting := waiting, running := some ⟨call, record, revision, .writing⟩ }
  | written {a : RunningAppend} (hrunning : s.running = some a) (hphase : a.phase = .writing) :
      DeclareStep cfg s (.written a.call.id true)
        { s with tmp := some a.record, running := some { a with phase := .renaming } }
  | writeFailed {a : RunningAppend} (hrunning : s.running = some a)
      (hphase : a.phase = .writing) :
      DeclareStep cfg s (.written a.call.id false) { s.reject a .write with tmp := none }
  | renamed {a : RunningAppend} (hrunning : s.running = some a) (hphase : a.phase = .renaming) :
      DeclareStep cfg s (.renamed a.call.id true)
        { s with
            file := s.tmp
            tmp := none
            revisions := a.record.revisions
            running := none
            settled := s.settled ++ [(a.call, .ok a.revision)] }
  | renameFailed {a : RunningAppend} (hrunning : s.running = some a)
      (hphase : a.phase = .renaming) :
      DeclareStep cfg s (.renamed a.call.id false) (s.reject a .rename)

variable (cfg : DeclareConfig)

lemma declareStep (s : DeclareState) (e : DeclareEvent) :
    DeclareStep cfg s e ((declareQueue cfg).step s e) := by
  cases e with
  | declare call => exact .declare call
  | start id =>
    change DeclareStep cfg s (.start id) (s.start cfg id)
    unfold DeclareState.start
    split
    · rename_i call waiting hrunning hwaiting
      by_cases hid : call.id = id
      · subst hid
        rw [if_pos rfl]
        split
        · exact .refused hrunning hwaiting (by assumption)
        · exact .started hrunning hwaiting (by assumption)
      · rw [if_neg hid]
        exact .idle (by simp [DeclareState.Enabled, hwaiting, hid])
    · rename_i hnone
      refine .idle ?_
      rintro ⟨hrunning, hhead⟩
      cases hwaiting : s.waiting with
      | nil => simp [hwaiting] at hhead
      | cons call waiting => exact hnone call waiting hrunning hwaiting
  | written id ok =>
    change DeclareStep cfg s (.written id ok) (s.written id ok)
    unfold DeclareState.written
    cases hrunning : s.running with
    | none => exact .idle (by simp [DeclareState.Enabled, hrunning])
    | some a =>
      simp only
      by_cases ha : a.call.id = id ∧ a.phase = .writing
      · rw [if_pos ha]
        obtain ⟨rfl, hphase⟩ := ha
        cases ok with
        | true => exact .written hrunning hphase
        | false => exact .writeFailed hrunning hphase
      · rw [if_neg ha]
        exact .idle (by simpa [DeclareState.Enabled, hrunning] using ha)
  | renamed id ok =>
    change DeclareStep cfg s (.renamed id ok) (s.renamed id ok)
    unfold DeclareState.renamed
    cases hrunning : s.running with
    | none => exact .idle (by simp [DeclareState.Enabled, hrunning])
    | some a =>
      simp only
      by_cases ha : a.call.id = id ∧ a.phase = .renaming
      · rw [if_pos ha]
        obtain ⟨rfl, hphase⟩ := ha
        cases ok with
        | true => exact .renamed hrunning hphase
        | false => exact .renameFailed hrunning hphase
      · rw [if_neg ha]
        exact .idle (by simpa [DeclareState.Enabled, hrunning] using ha)

/-! ## Memory and file -/

/-- The invariant of the queue: the file, the settled calls and memory hold the same revisions,
numbered from 1 and within the limit, and the running `append` is about to add the next. -/
structure DeclareInv (s : DeclareState) : Prop where
  file : s.fileRevisions = s.revisions
  accepted : acceptedRevisions s.settled = s.revisions
  numbered : s.revisions.map Revision.revision = List.range' 1 s.revisions.length
  bounded : s.revisions.length ≤ taskContractMaxRevisions
  next : ∀ a, s.running = some a → a.revision = s.revisions.length + 1 ∧
    s.revisions.length < taskContractMaxRevisions ∧
    a.record.revisions = s.revisions ++ [⟨a.revision, a.call.declaredAt, a.call.body⟩]
  tmp : ∀ a, s.running = some a → a.phase = .renaming → s.tmp = some a.record

lemma acceptedRevisions_error (settled : List (DeclareCall × Except DeclareFailure Nat))
    (call : DeclareCall) (failure : DeclareFailure) :
    acceptedRevisions (settled ++ [(call, .error failure)]) = acceptedRevisions settled := by
  simp [acceptedRevisions]

lemma acceptedRevisions_ok (settled : List (DeclareCall × Except DeclareFailure Nat))
    (call : DeclareCall) (revision : Nat) :
    acceptedRevisions (settled ++ [(call, .ok revision)]) =
      acceptedRevisions settled ++ [⟨revision, call.declaredAt, call.body⟩] := by
  simp [acceptedRevisions]

variable {failure : DeclareFailure}

open DeclareState

lemma DeclareInv.rejected {s s' : DeclareState} (h : DeclareInv s)
    (hrevisions : s'.revisions = s.revisions) (hfile : s'.file = s.file)
    (hsettled : s'.settled = s.settled ++ [(call, .error failure)]) (hrunning : s'.running = none) :
    DeclareInv s' where
  file := by
    rw [fileRevisions, hfile, hrevisions]
    exact h.file
  accepted := by rw [hsettled, acceptedRevisions_error, hrevisions, h.accepted]
  numbered := by rw [hrevisions, h.numbered]
  bounded := by rw [hrevisions]; exact h.bounded
  next a ha := by rw [hrunning] at ha; cases ha
  tmp a ha := by rw [hrunning] at ha; cases ha

lemma declareInv_step (s : DeclareState) (e : DeclareEvent) (h : DeclareInv s) :
    DeclareInv ((declareQueue cfg).step s e) := by
  have hstep := declareStep cfg s e
  generalize (declareQueue cfg).step s e = s' at hstep ⊢
  cases hstep with
  | idle => exact h
  | declare call => exact ⟨h.file, h.accepted, h.numbered, h.bounded, h.next, h.tmp⟩
  | refused hrunning => exact h.rejected rfl rfl rfl hrunning
  | started hrunning hwaiting hrecord =>
    obtain ⟨hrevision, hlt, hrevisions⟩ := appendRecord_ok hrecord
    refine ⟨h.file, h.accepted, h.numbered, h.bounded, ?_, ?_⟩
    · rintro a ⟨rfl⟩
      exact ⟨hrevision, hlt, hrevisions⟩
    · rintro a ⟨rfl⟩ hphase
      cases hphase
  | @written a hrunning hphase =>
    refine ⟨h.file, h.accepted, h.numbered, h.bounded, ?_, ?_⟩
    · rintro b ⟨rfl⟩
      exact h.next a hrunning
    · rintro b ⟨rfl⟩ -
      rfl
  | writeFailed hrunning => exact h.rejected rfl rfl rfl rfl
  | @renamed a hrunning hphase =>
    obtain ⟨hrevision, hlt, hrevisions⟩ := h.next a hrunning
    refine ⟨?_, ?_, ?_, ?_, fun a ha => (by cases ha), fun a ha => (by cases ha)⟩
    · simp [fileRevisions, h.tmp a hrunning hphase]
    · change acceptedRevisions (s.settled ++ _) = _
      rw [acceptedRevisions_ok, h.accepted, hrevisions]
    · change a.record.revisions.map _ = range' 1 a.record.revisions.length
      rw [hrevisions, map_append, h.numbered, length_append, length_singleton,
        range'_concat, map_singleton, hrevision, Nat.one_mul, Nat.add_comm]
    · change a.record.revisions.length ≤ _
      rw [hrevisions, length_append, length_singleton]
      exact hlt
  | renameFailed hrunning => exact h.rejected rfl rfl rfl rfl

open Machine

/-- The invariant holds in every reachable state. -/
lemma declareInv_run (events : List DeclareEvent) :
    DeclareInv ((declareQueue cfg).run events) :=
  invariant_runFrom' (M := declareQueue cfg) (declareInv_step cfg)
    ⟨rfl, rfl, rfl, Nat.zero_le _, fun a ha => (by cases ha), fun a ha => (by cases ha)⟩ events

/-! ## Taking a rejected declaration out -/

variable {s : DeclareState} {id : Nat}

lemma DeclareState.Enabled.head (h : s.Enabled (.start id)) :
    s.running = none ∧ ∃ call waiting, s.waiting = call :: waiting ∧ call.id = id := by
  obtain ⟨hrunning, hhead⟩ := h
  cases hwaiting : s.waiting with
  | nil => simp [hwaiting] at hhead
  | cons call waiting =>
    rw [hwaiting, head?_cons, map_some, some.injEq] at hhead
    exact ⟨hrunning, call, waiting, rfl, hhead⟩

/-- Only what the running `append` awaits can settle. -/
lemma DeclareState.exists_running {phase : AppendPhase}
    (h : s.running.map (fun a => (a.call.id, a.phase)) = some (id, phase)) :
    ∃ a, s.running = some a ∧ a.call.id = id ∧ a.phase = phase := by
  obtain ⟨a, ha, hpair⟩ := map_eq_some_iff.1 h
  rw [Prod.mk.injEq] at hpair
  exact ⟨a, ha, hpair⟩

/-- A state of the run without a declaration, beside the state of the run with it, as long as the
declaration has not resolved. -/
structure WithoutCall (id : Nat) (s t : DeclareState) : Prop where
  revisions : t.revisions = s.revisions
  file : t.file = s.file
  waiting : t.waiting = s.waiting.filter fun call => decide (call.id ≠ id)
  running : t.running = s.running.filter fun a => decide (a.call.id ≠ id)
  settled : t.settled = s.settled.filter fun c => decide (c.1.id ≠ id)
  tmp : ∀ a, t.running = some a → a.phase = .renaming →
    s.tmp = some a.record ∧ t.tmp = some a.record

lemma WithoutCall.calls_subset {s t : DeclareState} (h : WithoutCall id s t) :
    t.calls ⊆ s.calls := by
  intro i hi
  simp only [calls, h.waiting, h.running, h.settled, mem_append, List.mem_map,
    mem_filter, mem_toList, map_eq_some_iff, filter_eq_some_iff] at hi ⊢
  rcases hi with (⟨c, ⟨hc, -⟩, rfl⟩ | ⟨a, ⟨ha, -⟩, rfl⟩) | ⟨c, ⟨hc, -⟩, rfl⟩
  · exact .inl (.inl ⟨c, hc, rfl⟩)
  · exact .inl (.inr ⟨a, ha, rfl⟩)
  · exact .inr ⟨c, hc, rfl⟩

variable {e : DeclareEvent}

lemma withoutCall_keep {s t : DeclareState} (h : WithoutCall id s t) (he : s.Enabled e)
    (hid : e.id ≠ id) :
    t.Enabled e ∧
      WithoutCall id ((declareQueue cfg).step s e) ((declareQueue cfg).step t e) := by
  cases e with
  | declare call =>
    refine ⟨fun hmem => he (h.calls_subset hmem), h.revisions, h.file, ?_, h.running, h.settled,
      h.tmp⟩
    have hcall : call.id ≠ id := hid
    simp [declareQueue, h.waiting, hcall]
  | start i =>
    obtain ⟨hrunning, call, waiting, hwaiting, rfl⟩ := he.head
    have hcall : call.id ≠ id := hid
    have htrunning : t.running = none := by rw [h.running, hrunning]; rfl
    have htwaiting : t.waiting = call :: waiting.filter fun c => decide (c.id ≠ id) := by
      rw [h.waiting, hwaiting, filter_cons_of_pos (by simpa using hcall)]
    refine ⟨⟨htrunning, by rw [htwaiting]; rfl⟩, ?_⟩
    simp only [declareQueue, DeclareState.start, hrunning, htrunning, hwaiting, htwaiting, if_true,
      h.revisions]
    cases appendRecord cfg s.revisions call with
    | error failure =>
      refine ⟨rfl, h.file, rfl, rfl, ?_, fun a ha => (by cases ha)⟩
      simp [h.settled, hcall]
    | ok r =>
      refine ⟨rfl, h.file, rfl, ?_, h.settled, ?_⟩
      · simp [Option.filter, hcall]
      · rintro a ⟨rfl⟩ hphase
        cases hphase
  | written i ok =>
    obtain ⟨a, hrunning, rfl, hphase⟩ := exists_running he
    have hcall : a.call.id ≠ id := hid
    have htrunning : t.running = some a := by simp [h.running, hrunning, Option.filter, hcall]
    refine ⟨by simp [DeclareState.Enabled, htrunning, hphase], ?_⟩
    simp only [declareQueue, DeclareState.written, hrunning, htrunning, hphase, and_self, if_true]
    cases ok with
    | true =>
      refine ⟨h.revisions, h.file, h.waiting, ?_, h.settled, ?_⟩
      · simp [Option.filter, hcall]
      · rintro b ⟨rfl⟩ -
        exact ⟨rfl, rfl⟩
    | false =>
      refine ⟨h.revisions, h.file, h.waiting, rfl, ?_, fun b hb => (by cases hb)⟩
      simp [reject, h.settled, hcall]
  | renamed i ok =>
    obtain ⟨a, hrunning, rfl, hphase⟩ := exists_running he
    have hcall : a.call.id ≠ id := hid
    have htrunning : t.running = some a := by simp [h.running, hrunning, Option.filter, hcall]
    obtain ⟨htmp, httmp⟩ := h.tmp a htrunning hphase
    refine ⟨by simp [DeclareState.Enabled, htrunning, hphase], ?_⟩
    simp only [declareQueue, DeclareState.renamed, hrunning, htrunning, hphase, and_self, if_true]
    cases ok with
    | true =>
      refine ⟨rfl, httmp.trans htmp.symm, h.waiting, rfl, ?_, fun b hb => (by cases hb)⟩
      simp [h.settled, hcall]
    | false =>
      refine ⟨h.revisions, h.file, h.waiting, rfl, ?_, fun b hb => (by cases hb)⟩
      simp [reject, h.settled, hcall]

lemma withoutCall_drop {s t : DeclareState} (h : WithoutCall id s t) (he : s.Enabled e)
    (hcommit : e ≠ .renamed id true) (hid : e.id = id) :
    WithoutCall id ((declareQueue cfg).step s e) t := by
  subst hid
  cases e with
  | declare call =>
    refine ⟨h.revisions, h.file, ?_, h.running, h.settled, h.tmp⟩
    simp [declareQueue, DeclareEvent.id, h.waiting]
  | start i =>
    obtain ⟨hrunning, call, waiting, hwaiting, rfl⟩ := he.head
    have htrunning : t.running = none := by rw [h.running, hrunning]; rfl
    have htwaiting : t.waiting = waiting.filter fun c => decide (c.id ≠ call.id) := by
      rw [h.waiting, hwaiting]
      exact filter_cons_of_neg (by simp [DeclareEvent.id])
    simp only [declareQueue, DeclareState.start, hrunning, hwaiting, if_true]
    cases appendRecord cfg s.revisions call with
    | error failure =>
      refine ⟨h.revisions, h.file, htwaiting, htrunning, ?_, fun a ha => ?_⟩
      · simp [h.settled, DeclareEvent.id]
      · rw [htrunning] at ha
        cases ha
    | ok r =>
      refine ⟨h.revisions, h.file, htwaiting, ?_, h.settled, fun a ha => ?_⟩
      · simp [htrunning, Option.filter, DeclareEvent.id]
      · rw [htrunning] at ha
        cases ha
  | written i ok =>
    obtain ⟨a, hrunning, rfl, hphase⟩ := exists_running he
    have htrunning : t.running = none := by
      simp [h.running, hrunning, Option.filter, DeclareEvent.id]
    have htmp : ∀ {p : Prop} (b : RunningAppend), t.running = some b → p := fun b hb => by
      rw [htrunning] at hb
      cases hb
    simp only [declareQueue, DeclareState.written, hrunning, hphase, and_self, if_true]
    cases ok with
    | true =>
      refine ⟨h.revisions, h.file, h.waiting, ?_, h.settled, fun b hb => htmp b hb⟩
      simp [htrunning, Option.filter, DeclareEvent.id]
    | false =>
      refine ⟨h.revisions, h.file, h.waiting, htrunning, ?_, fun b hb => htmp b hb⟩
      simp [reject, h.settled, DeclareEvent.id]
  | renamed i ok =>
    obtain ⟨a, hrunning, rfl, hphase⟩ := exists_running he
    have htrunning : t.running = none := by
      simp [h.running, hrunning, Option.filter, DeclareEvent.id]
    simp only [declareQueue, DeclareState.renamed, hrunning, hphase, and_self, if_true]
    cases ok with
    | true => exact absurd rfl hcommit
    | false =>
      refine ⟨h.revisions, h.file, h.waiting, htrunning, ?_, fun b hb => ?_⟩
      · simp [reject, h.settled, DeclareEvent.id]
      · rw [htrunning] at hb
        cases hb

/-! ## Every call settles once -/

variable {a : RunningAppend}

lemma calls_settle {s s' : DeclareState} (hrunning : s.running = some a)
    (hwaiting : s'.waiting = s.waiting) (hnone : s'.running = none)
    {outcome : Except DeclareFailure Nat} (hsettled : s'.settled = s.settled ++ [(a.call, outcome)])
    : s'.calls.Perm s.calls := by
  simp only [calls, hrunning, hwaiting, hnone, hsettled, map_none,
    map_some, toList_none, toList_some, append_nil, map_append,
    map_cons, map_nil, append_assoc, cons_append, nil_append]
  exact perm_append_comm.append_left _

lemma calls_step (s : DeclareState) (e : DeclareEvent) :
    ((declareQueue cfg).step s e).calls.Perm s.calls ∨
      ∃ call, e = .declare call ∧
        ((declareQueue cfg).step s e).calls.Perm (call.id :: s.calls) := by
  have hstep := declareStep cfg s e
  generalize (declareQueue cfg).step s e = s' at hstep ⊢
  cases hstep with
  | idle => exact .inl (.refl _)
  | declare call =>
    refine .inr ⟨call, rfl, ?_⟩
    simp only [calls, map_append, map_cons, map_nil, append_assoc,
      singleton_append]
    exact perm_middle
  | refused hrunning hwaiting =>
    refine .inl ?_
    simp only [calls, hrunning, hwaiting, map_none, toList_none,
      append_nil, map_append, map_cons, map_nil]
    rw [← append_assoc]
    exact perm_append_singleton _ _
  | started hrunning hwaiting =>
    refine .inl ?_
    simp only [calls, hrunning, hwaiting, map_none, map_some,
      toList_none, toList_some, append_nil, map_cons, append_assoc,
      cons_append, nil_append]
    exact perm_middle
  | written hrunning =>
    refine .inl ?_
    simp only [calls, hrunning, map_some]
    exact .refl _
  | writeFailed hrunning => exact .inl (calls_settle hrunning rfl rfl rfl)
  | renamed hrunning => exact .inl (calls_settle hrunning rfl rfl rfl)
  | renameFailed hrunning => exact .inl (calls_settle hrunning rfl rfl rfl)

variable {events : List DeclareEvent}

lemma calls_nodup (hs : s.calls.Nodup) (h : (declareQueue cfg).Along DeclareState.Enabled s events)
    :
    ((declareQueue cfg).runFrom s events).calls.Nodup := by
  have hstep (s : DeclareState) (e : DeclareEvent) (hnodup : s.calls.Nodup) (he : s.Enabled e) :
      ((declareQueue cfg).step s e).calls.Nodup := by
    rcases calls_step cfg s e with hperm | ⟨call, rfl, hperm⟩
    · exact hperm.nodup_iff.2 hnodup
    · exact hperm.nodup_iff.2 (nodup_cons.2 ⟨he, hnodup⟩)
  exact invariant_runFrom hstep hs h

lemma settled_prefix_runFrom (s : DeclareState) (events : List DeclareEvent) :
    s.settled <+: ((declareQueue cfg).runFrom s events).settled := by
  induction events generalizing s with
  | nil => exact prefix_refl _
  | cons e events ih =>
    refine IsPrefix.trans ?_ (ih ((declareQueue cfg).step s e))
    have hstep := declareStep cfg s e
    generalize (declareQueue cfg).step s e = s' at hstep ⊢
    cases hstep with
    | idle => exact prefix_refl _
    | declare => exact prefix_refl _
    | refused => exact prefix_append _ _
    | started => exact prefix_refl _
    | written => exact prefix_refl _
    | writeFailed => exact prefix_append _ _
    | renamed => exact prefix_append _ _
    | renameFailed => exact prefix_append _ _

lemma settled_unique (hs : s.calls.Nodup) {c d : DeclareCall × Except DeclareFailure Nat}
    (hc : c ∈ s.settled) (hd : d ∈ s.settled) (hid : c.1.id = d.1.id) : c = d := by
  have hnodup : (s.settled.map fun c => c.1.id).Nodup := (nodup_append.1 hs).2.1
  exact inj_on_of_nodup_map hnodup hc hd hid

lemma mem_settled_renamed (hrunning : s.running = some a) (hphase : a.phase = .renaming) :
    (a.call, .ok a.revision) ∈ (s.renamed a.call.id true).settled := by
  simp [renamed, hrunning, hphase]

lemma not_renamed_of_rejected (hs : s.calls.Nodup)
    (h : (declareQueue cfg).Along DeclareState.Enabled s events)
    (hrejected : (call, .error failure) ∈ ((declareQueue cfg).runFrom s events).settled) :
    (declareQueue cfg).Along (fun s e => s.Enabled e ∧ e ≠ .renamed call.id true) s events := by
  rw [along_iff_forall_split] at h ⊢
  intro pre e post hsplit
  refine ⟨h pre e post hsplit, ?_⟩
  rintro rfl
  obtain ⟨a, hrunning, hid, hphase⟩ := exists_running (h pre _ post hsplit)
  -- the commit is among the settled calls from then on, beside the rejection
  have hok : (a.call, .ok a.revision) ∈ ((declareQueue cfg).runFrom s events).settled := by
    rw [hsplit, runFrom_append, runFrom_cons]
    refine (settled_prefix_runFrom cfg _ post).subset ?_
    rw [← hid]
    exact mem_settled_renamed hrunning hphase
  have hnodup := calls_nodup cfg hs ((along_iff_forall_split s events).2 h)
  have heq := settled_unique hnodup hok hrejected hid
  simp at heq

/-- **A rejected declaration can be taken out of a run.**

**Proof sketch.** Its events up to the rejection change nothing but its own place in the queue, so
the run without them goes beside the run with them. -/
theorem erased_withoutDeclaration (cfg : DeclareConfig) {events : List DeclareEvent}
    (h : (declareQueue cfg).Along DeclareState.Enabled (declareQueue cfg).init events)
    {call : DeclareCall} {failure : DeclareFailure}
    (hrejected : (call, .error failure) ∈ ((declareQueue cfg).run events).settled) :
    (declareQueue cfg).Along DeclareState.Enabled (declareQueue cfg).init
        (withoutDeclaration call.id events) ∧
      WithoutCall call.id ((declareQueue cfg).run events)
        ((declareQueue cfg).run (withoutDeclaration call.id events)) := by
  have halong := not_renamed_of_rejected cfg (s := (declareQueue cfg).init) nodup_nil h
    hrejected
  refine simulates_filter (R := WithoutCall call.id) _ ?_ ?_ ?_ halong
  · intro s t e hR he hkeep
    exact withoutCall_keep cfg hR he.1 (by simpa using hkeep)
  · intro s t e hR he hdrop
    exact withoutCall_drop cfg hR he.1 he.2 (by simpa using hdrop)
  · exact ⟨rfl, rfl, rfl, rfl, rfl, fun a ha => (by cases ha)⟩

/-- **Declarations serialize.** In every run of the queue memory holds the revisions of the last
`contract.json` renamed into place, which are those of the calls that resolved, numbered from 1 in
the order they did and within the limit; and a call that rejects leaves the store, the file and
every other call as the same run without it does. -/
theorem declarations_serialize (cfg : DeclareConfig) (events : List DeclareEvent)
    (h : (declareQueue cfg).Along DeclareState.Enabled (declareQueue cfg).init events) :
    let s := (declareQueue cfg).run events
    s.revisions = s.fileRevisions ∧
      s.revisions = acceptedRevisions s.settled ∧
      s.revisions.map Revision.revision = List.range' 1 s.revisions.length ∧
      s.revisions.length ≤ taskContractMaxRevisions ∧
      ∀ (call : DeclareCall) (failure : DeclareFailure), (call, .error failure) ∈ s.settled →
        let t := (declareQueue cfg).run (withoutDeclaration call.id events)
        (declareQueue cfg).Along DeclareState.Enabled (declareQueue cfg).init
            (withoutDeclaration call.id events) ∧
          t.revisions = s.revisions ∧ t.file = s.file ∧
          (t.store cfg).current = (s.store cfg).current ∧
          (t.store cfg).effectiveActionTerms = (s.store cfg).effectiveActionTerms ∧
          (∀ c, c.1.id ≠ call.id → (c ∈ t.settled ↔ c ∈ s.settled)) ∧
          (∀ c, c.id ≠ call.id → (c ∈ t.waiting ↔ c ∈ s.waiting)) ∧
          ∀ a, a.call.id ≠ call.id → (t.running = some a ↔ s.running = some a) := by
  intro s
  have hinv := declareInv_run cfg events
  refine ⟨hinv.file.symm, hinv.accepted.symm, hinv.numbered, hinv.bounded, ?_⟩
  intro call failure hrejected t
  obtain ⟨halong, hR⟩ := erased_withoutDeclaration cfg h hrejected
  have hstore : t.store cfg = s.store cfg := by
    simp only [DeclareState.store]
    rw [show t.revisions = s.revisions from hR.revisions]
  refine ⟨halong, hR.revisions, hR.file, by rw [hstore], by rw [hstore], ?_, ?_, ?_⟩
  · intro c hc
    rw [show t.settled = _ from hR.settled, List.mem_filter]
    simp [hc, s]
  · intro c hc
    rw [show t.waiting = _ from hR.waiting, List.mem_filter]
    simp [hc, s]
  · intro a ha
    rw [show t.running = _ from hR.running, Option.filter_eq_some_iff]
    simp [ha, s]

/-! ## A failed write between two declarations -/

/-- A `do` run's store. -/
def doConfig : DeclareConfig := ⟨asciiPlatform, fun _ => true, "run-1", .do⟩

def tableCall (id : Nat) (field : String) : DeclareCall :=
  ⟨id, { deliverable := .table, subject := "prices", requiredFields := [field] },
    "2026-01-01T00:00:00Z"⟩

/-- Three declarations at once; the write of the second fails. -/
def failedWriteEvents : List DeclareEvent :=
  [.declare (tableCall 1 "price"), .declare (tableCall 2 "seller"), .start 1, .written 1 true,
    .declare (tableCall 3 "stock"), .renamed 1 true, .start 2, .written 2 false, .start 3,
    .written 3 true, .renamed 3 true]

/-- The third declaration becomes revision 2, with the second and without it. -/
theorem declarations_serialize_failedWrite :
    ((declareQueue doConfig).run failedWriteEvents).revisions.map Revision.revision = [1, 2] ∧
      ((declareQueue doConfig).run (withoutDeclaration 2 failedWriteEvents)).revisions =
        ((declareQueue doConfig).run failedWriteEvents).revisions := by
  have h := declarations_serialize doConfig failedWriteEvents (by decide +kernel)
  have hrejected := h.2.2.2.2 (tableCall 2 "seller") .write (by decide +kernel)
  exact ⟨by decide +kernel, hrejected.2.1⟩

end Yantra
