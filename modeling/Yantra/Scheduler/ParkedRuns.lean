import Yantra.Scheduler.Daemon
import Yantra.Workflow.Resume

/-!
# Scheduled runs, parked and resumed

What the daemon's tasks do. A fire creates a run directory and drives the executor with a gateway
that parks every request; a human decides a parked request from another process; a poll that finds
the decision resumes the run with a gateway that replays the grant. The executor's steps, the
human's decisions, the polls and the end of the process interleave in any order.

## Main definitions

* `SchedulerState`, `SchedulerAction`, `scheduler` — the whole.
* `SchedulerState.granted`, `SchedulerState.replayed`,
  `SchedulerState.executed` — the history kept beside the state.
-/

namespace Yantra

/-! ## Gateways -/

/-- The gateways of unattended runs, each with what it remembers. -/
inductive UnattendedGateway where
  | daemon (parked : Bool)
  /-- `PreGrantedConfirmationGateway` -/
  | preGranted (consumed : Bool)
  deriving DecidableEq, Repr, Inhabited

/-- `request`. Neither gateway looks at what is requested. -/
def UnattendedGateway.request : UnattendedGateway → GatewayReply × UnattendedGateway
  | .daemon _ => (.parked, .daemon true)
  | .preGranted false => (.decided .granted .userCliConfirm, .preGranted true)
  | .preGranted true => (.decided .denied .userCliConfirm, .preGranted true)

/-- Whether a request has parked the run. -/
def UnattendedGateway.parked : UnattendedGateway → Bool
  | .daemon parked => parked
  | .preGranted _ => false

/-! ## Runs -/

structure RunDir where
  /-- `plan.json`, with what every execution of the run is given. -/
  env : RunEnv
  manifest : RunManifest
  checkpoints : CheckpointStore := OrderedMap.empty
  confirmations : List ConfirmationEntry := []
  /-- Whether the last decision in the log was appended by `yantra confirm`. -/
  humanDecided : Bool := false

/-- An executor at work on a run, on behalf of a schedule's task. -/
structure Execution where
  scheduleId : String
  runId : String
  gateway : UnattendedGateway
  env : RunEnv
  state : RunState

namespace Execution

def resumed (e : Execution) : Bool :=
  match e.gateway with
  | .daemon _ => false
  | .preGranted _ => true

/-- The request it waits for an answer to. -/
def request? (e : Execution) : Option ConfirmationRequest :=
  match e.state.control with
  | .gate _ _ request => some request
  | _ => none

/-- The step whose request its gateway is about to grant. -/
def replays (e : Execution) : Option String :=
  match e.gateway with
  | .preGranted false => e.request?.map ConfirmationRequest.stepId
  | _ => none

/-- The step whose handler it is about to call, retries apart. -/
def calls (e : Execution) : Option Step :=
  match e.state.control with
  | .dispatch i _ 0 => e.env.plan.steps[i]?
  | .inLoop _ _ _ (f :: _) =>
    match f.todo with
    | id :: _ => (bodyStep? e.env.plan id).map Prod.snd
    | [] => none
  | _ => none

/-- The flagged step it is about to execute in a resumed run. -/
def executes (e : Execution) : Option String :=
  if e.resumed then (e.calls.filter Step.requiresConfirmation).map Step.id else none

/-- Its state on the files of the run directory as they are now. -/
def onDisk (e : Execution) (dir : RunDir) : RunState :=
  { e.state with checkpoints := dir.checkpoints, confirmations := dir.confirmations }

def step (e : Execution) (dir : RunDir) (w : World) : Execution × RunDir :=
  let (reply, gateway) := e.gateway.request
  let after := executorStep e.env (e.onDisk dir) { w with gateway := reply }
  ({ e with
      gateway := if e.request?.isSome then gateway else e.gateway
      state := after },
    { dir with
      checkpoints := after.checkpoints
      confirmations := after.confirmations
      humanDecided := dir.humanDecided && !(e.resumed && e.request?.isSome) })

variable (e : Execution)

@[simp] lemma step_runId (dir : RunDir) (w : World) :
    (e.step dir w).1.runId = e.runId := rfl

@[simp] lemma step_env (dir : RunDir) (w : World) :
    (e.step dir w).1.env = e.env := rfl

@[simp] lemma step_dir_env (dir : RunDir) (w : World) : (e.step dir w).2.env = dir.env := rfl

lemma step_state (dir : RunDir) (w : World) :
    (e.step dir w).1.state =
      executorStep e.env (e.onDisk dir) { w with gateway := e.gateway.request.1 } := rfl

lemma step_humanDecided (dir : RunDir) (w : World) :
    (e.step dir w).2.humanDecided =
      (dir.humanDecided && !(e.resumed && e.request?.isSome)) := rfl

end Execution

def classify (outcome : RunOutcome) (parked : Bool) : LastFireStatus :=
  match outcome with
  | .completed _ => .succeeded
  | .handoff => if parked then .pendingConfirmation else .handoff
  | .failed _ => .failed

def mapResumeStatus : RunOutcome → LastFireStatus
  | .completed _ => .succeeded
  | .handoff => .handoff
  | .failed _ => .failed

def finalStatus : RunOutcome → RunStatus
  | .completed _ => .completed
  | _ => .failed

/-- What the task of an execution that has ended reports: the fire runner turns an exception into
a failed fire without a run, the resume driver lets it through. -/
def Execution.settlement (e : Execution) : Option RunOutcome → Settlement
  | some outcome =>
    if e.resumed then .result ⟨some e.runId, mapResumeStatus outcome⟩
    else .result ⟨some e.runId, classify outcome e.gateway.parked⟩
  | none => if e.resumed then .threw else .result ⟨none, .failed⟩

/-! ## The whole -/

/-- The daemon, the run directories and the executors at work. -/
structure SchedulerState where
  daemon : DaemonState
  runs : OrderedMap String RunDir := OrderedMap.empty
  executions : List Execution := []
  /-- The requests a human granted, by run and step. -/
  granted : List (String × String) := []
  /-- The requests a resumed run's gateway granted. -/
  replayed : List (String × String) := []
  /-- The flagged steps resumed runs executed. -/
  executed : List (String × String) := []

inductive ResumeStart where
  /-- The manifest cannot be written. -/
  | notWritten
  /-- The manifest is written, and the browser does not open. -/
  | notOpened
  | opened
  deriving DecidableEq, Repr, Inhabited

/-- What can happen. Tasks and executions are named by their place. -/
inductive SchedulerAction where
  /-- Anything the daemon does but the settling of a task's promise. -/
  | daemon (a : DaemonAction)
  /-- The fire of a task creates its run. -/
  | createRun (k : Nat) (runId : String) (env : RunEnv) (profileKind : ProfileKind)
      (declaredSecretKeys : List String)
  /-- The fire of a task throws before it has a run. -/
  | fireThrows (k : Nat)
  /-- The resume of a task looks at the decision and starts. -/
  | resolve (k : Nat) (start : ResumeStart)
  /-- An executor takes a step. -/
  | execute (j : Nat) (w : World)
  /-- An executor that has ended reports, with its manifest written or not. -/
  | settle (j : Nat) (written : Bool)
  /-- `yantra confirm` -/
  | confirm (runId : String) (grant : Bool)

/-- The running task at a place, when nothing is at work for it yet. -/
def SchedulerState.idleTask (s : SchedulerState) (k : Nat) : Option DaemonTask :=
  (s.daemon.tasks[k]?).filter fun t =>
    decide (t.phase = .running) && s.executions.all fun e => decide (e.scheduleId ≠ t.id)

def SchedulerState.settleTask (cfg : DaemonConfig) (s : SchedulerState) (k : Nat)
    (outcome : Settlement) : SchedulerState :=
  { s with daemon := daemonStep cfg s.daemon (.settle k outcome) }

/-- What every execution of a scheduled run is given. -/
def fireEnv (env : RunEnv) (runId : String) : RunEnv :=
  { env with runId := runId, browser := true, gateway := true }

def createRun (s : SchedulerState) (t : DaemonTask) (runId : String) (env : RunEnv)
    (profileKind : ProfileKind) (declaredSecretKeys : List String) : SchedulerState :=
  if (s.runs.get? runId).isSome then s
  else { s with
    runs := s.runs.set runId
      { env := fireEnv env runId
        manifest := ⟨.running, profileKind, manifestParams declaredSecretKeys env.params⟩ }
    executions := s.executions ++
      [⟨t.id, runId, .daemon false, fireEnv env runId,
        createExecutionContext OrderedMap.empty []⟩] }

/-- What `resolveParkedRun` finds. -/
inductive ParkedResolution where
  | stillParked
  | granted (runId : String)
  | denied (runId : String)
  deriving DecidableEq, Repr, Inhabited

/-- The confirmation log of a run; a file that is not there has no lines. -/
def confirmationsOf (runs : OrderedMap String RunDir) (runId : String) : List ConfirmationEntry :=
  ((runs.get? runId).map RunDir.confirmations).getD []

/-- `resolveParkedRun`, up to the resume. -/
def resolveParkedRun (runs : OrderedMap String RunDir) : Option String → ParkedResolution
  | none => .stillParked
  | some runId =>
    if runId = "" then .stillParked
    else
      match latestDecision (confirmationsOf runs runId) runId with
      | none => .stillParked
      | some d => if d.decision = .granted then .granted runId else .denied runId

/-- The resume driver, up to the executor's first step. -/
def startResume (cfg : DaemonConfig) (s : SchedulerState) (k : Nat) (t : DaemonTask)
    (runId : String) (start : ResumeStart) : SchedulerState :=
  match s.runs.get? runId with
  | none => s.settleTask cfg k .threw
  | some dir =>
    match resume dir.env dir.manifest dir.checkpoints dir.confirmations with
    | .error _ => s.settleTask cfg k .threw
    | .ok (env, state) =>
      let opened := { s with
        runs := s.runs.set runId { dir with manifest := { dir.manifest with status := .running } } }
      match start with
      | .notWritten => s.settleTask cfg k .threw
      | .notOpened => opened.settleTask cfg k .threw
      | .opened => { opened with
          executions := s.executions ++ [⟨t.id, runId, .preGranted false, env, state⟩] }

def resolve (cfg : DaemonConfig) (s : SchedulerState) (k : Nat) (t : DaemonTask)
    (start : ResumeStart) : SchedulerState :=
  match resolveParkedRun s.runs t.schedule.lastRunId with
  | .stillParked => s.settleTask cfg k .stillParked
  | .denied runId => s.settleTask cfg k (.result ⟨some runId, .handoff⟩)
  | .granted runId => startResume cfg s k t runId start

def execute (s : SchedulerState) (j : Nat) (w : World) : SchedulerState :=
  match s.executions[j]? with
  | none => s
  | some e =>
    match s.runs.get? e.runId with
    | none => s
    | some dir => { s with
        runs := s.runs.set e.runId (e.step dir w).2
        executions := s.executions.set j (e.step dir w).1
        replayed := (e.replays.map fun id => (e.runId, id)).toList ++ s.replayed
        executed := (e.executes.map fun id => (e.runId, id)).toList ++ s.executed }

/-- An executor reports: with `none` an exception, and its manifest stays as it is. -/
def report (cfg : DaemonConfig) (s : SchedulerState) (j : Nat) (e : Execution)
    (outcome : Option RunOutcome) : SchedulerState :=
  let runs :=
    match s.runs.get? e.runId, outcome with
    | some dir, some o =>
        s.runs.set e.runId
          { dir with manifest := { dir.manifest with status := finalStatus o } }
    | _, _ => s.runs
  SchedulerState.settleTask cfg { s with runs := runs, executions := s.executions.eraseIdx j }
    (s.daemon.tasks.findIdx fun t => decide (t.id = e.scheduleId)) (e.settlement outcome)

/-- `yantra confirm` -/
def confirm (s : SchedulerState) (runId : String) (grant : Bool) : SchedulerState :=
  match s.runs.get? runId with
  | none => s
  | some dir =>
    match findPending dir.confirmations runId with
    | none => s
    | some pending =>
      if hasDecision dir.confirmations pending.confirmationId then s
      else { s with
        runs := s.runs.set runId { dir with
          confirmations := dir.confirmations ++
            [.decision ⟨pending.confirmationId, if grant then .granted else .denied,
              .userCliConfirm⟩]
          humanDecided := true }
        granted := if grant then (runId, pending.stepId) :: s.granted else s.granted }

def schedulerStep (cfg : DaemonConfig) (s : SchedulerState) : SchedulerAction → SchedulerState
  | .daemon (.settle _ _) => s
  | .daemon .exit => { s with daemon := daemonStep cfg s.daemon .exit, executions := [] }
  | .daemon a => { s with daemon := daemonStep cfg s.daemon a }
  | .createRun k runId env profileKind declaredSecretKeys =>
    match s.idleTask k with
    | some t =>
      match t.kind with
      | .fire _ => createRun s t runId env profileKind declaredSecretKeys
      | .resume => s
    | none => s
  | .fireThrows k =>
    match s.idleTask k with
    | some t =>
      match t.kind with
      | .fire _ => s.settleTask cfg k (.result ⟨none, .failed⟩)
      | .resume => s
    | none => s
  | .resolve k start =>
    match s.idleTask k with
    | some t =>
      match t.kind with
      | .fire _ => s
      | .resume => resolve cfg s k t start
    | none => s
  | .execute j w => execute s j w
  | .settle j written =>
    match s.executions[j]? with
    | some e =>
      match e.state.control with
      | .finished outcome => report cfg s j e (if written then some outcome else none)
      | .threw _ => report cfg s j e none
      | _ => s
    | none => s
  | .confirm runId grant => confirm s runId grant

/-- The scheduler over a store, before the process starts and without any run. -/
def scheduler (cfg : DaemonConfig) (now : Nat) (rows : List Schedule) :
    Machine SchedulerState SchedulerAction where
  init := { daemon := (daemon cfg now rows).init }
  step := schedulerStep cfg

end Yantra
