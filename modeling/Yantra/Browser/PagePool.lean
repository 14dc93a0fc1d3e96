import Mathlib.Algebra.Order.Ring.Rat
import Yantra.Lib.Machine

/-!
# The page pool

One browser for the background page work of a run. A use takes a slot, gets the session, opens a
page and runs its callback on it; the pool launches the browser, launches it again after a crash,
and closes it. Every stretch of code between two awaits is one step, and steps of different uses,
of the launch and of the closing come in any order.

## Main definitions

* `PagePool` — the pool, with all uses, launches and browsers.
* `PagePoolEvent`, `pagePool` — what can happen, as a machine.
-/

namespace Yantra

/-- What `ensureSession` returns: a session that is there, or a launch. -/
inductive SessionPromise where
  | live (session : ℕ)
  | launch (id : ℕ)
  deriving DecidableEq

inductive PageUseStage where
  /-- The work of `withPageDeadline` has not begun. -/
  | starting
  /-- In the queue for a slot. -/
  | waiting
  /-- `acquireSlot` has resolved. -/
  | granted
  /-- Awaiting `ensureSession`. -/
  | awaitingSession (promise : SessionPromise)
  /-- Awaiting `newIsolatedPage`. -/
  | opening (session : ℕ)
  /-- In `useAcquiredPage`, before the callback. -/
  | acquired
  /-- The callback runs. -/
  | inCallback
  | closingPage
  | ended
  deriving DecidableEq

def PageUseStage.holds : PageUseStage → Bool
  | .granted | .awaitingSession _ | .opening _ | .acquired | .inCallback | .closingPage => true
  | .starting | .waiting | .ended => false

/-- A call of `withPage`. It is cancelled once its own signal is aborted, and completed once its
callback has returned. How often it took a slot and returned one is counted. -/
structure PageUse where
  stage : PageUseStage := .starting
  cancelled : Bool := false
  timedOut : Bool := false
  completed : Bool := false
  taken : ℕ := 0
  returned : ℕ := 0
  deriving DecidableEq

/-- The signal of a use is aborted as its deadline has passed. -/
def PageUse.expire (use : PageUse) : PageUse := { use with cancelled := true, timedOut := true }

def PageUse.rejectWaiting (use : PageUse) : PageUse :=
  if use.stage = .waiting then { use with stage := .ended } else use

/-- Where a launch, a call of `startSession`, has got to. -/
inductive LaunchStage where
  /-- Awaiting the closing of the dead session. -/
  | releasing (dead : ℕ)
  /-- Awaiting `provider.launch`. -/
  | launching
  /-- Awaiting the closing of a session launched while the pool closes. -/
  | discarding (session : ℕ)
  /-- Settled, with `this.launching` not yet cleared. -/
  | settled (result : Option ℕ)
  /-- Resolved for those that await it. -/
  | cleared (result : Option ℕ)
  deriving DecidableEq

/-- Where `runClose` has got to. -/
inductive CloseStage where
  | awaitingLaunch (id : ℕ)
  | closingSession (session : ℕ)
  | resolved
  | failed
  deriving DecidableEq

structure PagePoolOptions where
  maxConcurrentPages : Option ℚ := none
  maxRelaunches : Option ℚ := none

/-- The pool. Sessions are numbered in the order in which browsers are launched, with whether the
browser runs; `arrivals` lists the uses in the order in which they asked for a slot. -/
structure PagePool where
  maxConcurrentPages : ℕ
  maxRelaunches : ℕ
  session : Option ℕ := none
  sessionDead : Bool := false
  launching : Option ℕ := none
  closing : Option CloseStage := none
  waiters : List ℕ := []
  active : ℕ := 0
  launches : ℕ := 0
  contexts : ℕ := 0
  peak : ℕ := 0
  timeouts : ℕ := 0
  uses : List PageUse := []
  attempts : List LaunchStage := []
  browsers : List Bool := []
  arrivals : List ℕ := []

/-- What can happen. `late` tells whether the deadline of a use has passed when it is looked at, and
`ok` whether what was awaited succeeded. -/
inductive PagePoolEvent where
  | withPage (aborted : Bool)
  | starts (use : ℕ) (late : Bool)
  | resumes (use : ℕ) (late : Bool)
  | sessionArrives (use : ℕ) (late : Bool)
  | pageOpens (use : ℕ) (ok late : Bool)
  | callbackStarts (use : ℕ) (late : Bool)
  | callbackEnds (use : ℕ) (ok : Bool)
  | pageCloses (use : ℕ) (late : Bool)
  | aborts (use : ℕ)
  | timesOut (use : ℕ)
  | deadCloses (launch : ℕ) (ok : Bool)
  | launchSettles (launch : ℕ) (ok : Bool)
  | discardCloses (launch : ℕ) (ok : Bool)
  | launchClears (launch : ℕ)
  | closeCalled
  | closeSeesLaunch
  | closeSettles (ok : Bool)
  | exits (session : ℕ)
  | markDead (session : ℕ)
  deriving DecidableEq

namespace PagePool

/-- The constructor. -/
def create (options : PagePoolOptions) : PagePool where
  maxConcurrentPages := max 1 (options.maxConcurrentPages.getD 2).floor.toNat
  maxRelaunches := (options.maxRelaunches.getD 1).floor.toNat

variable (s : PagePool)

def withUse (u : ℕ) (use : PageUse) : PagePool := { s with uses := s.uses.set u use }

/-- `take`, for a use. -/
def take (u : ℕ) (use : PageUse) : PagePool :=
  { s with active := s.active + 1, peak := max s.peak (s.active + 1) }.withUse u
    { use with stage := .granted, taken := use.taken + 1 }

def endUse (u : ℕ) (use : PageUse) : PagePool := s.withUse u { use with stage := .ended }

/-- `releaseSlot`, at the end of a use: the first waiter gets the slot. -/
def releaseSlot (u : ℕ) (use : PageUse) : PagePool :=
  let s := { s with active := s.active - 1 }.withUse u
    { use with stage := .ended, returned := use.returned + 1 }
  match s.waiters with
  | [] => s
  | next :: waiters =>
    match s.uses[next]? with
    | some waiter => { s with waiters }.take next waiter
    | none => { s with waiters }

/-- `onTimeout`, unless it has been called for this use. -/
def recordTimeout (use : PageUse) : PagePool :=
  { s with timeouts := if use.timedOut then s.timeouts else s.timeouts + 1 }

def acquireSlot (u : ℕ) (use : PageUse) : PagePool :=
  if s.closing.isSome then s.endUse u use
  else if s.active < s.maxConcurrentPages ∧ s.waiters = [] then
    { s with arrivals := s.arrivals ++ [u] }.take u use
  else
    { s with arrivals := s.arrivals ++ [u], waiters := s.waiters ++ [u] }.withUse u
      { use with stage := .waiting }

def liveSession : Option ℕ := if s.sessionDead then none else s.session

/-- Whether `startSession` gets to the launch: relaunches are left. -/
def mayLaunch : Bool := s.launches < 1 + s.maxRelaunches

/-- `startSession`, up to its first await. -/
def startSession : PagePool :=
  let id := s.attempts.length
  match s.session with
  | some dead =>
    { s with session := none, launching := some id, attempts := s.attempts ++ [.releasing dead] }
  | none =>
    { s with
      launching := some id
      attempts := s.attempts ++ [if s.mayLaunch then .launching else .settled none] }

/-- `ensureSession`, for a use. -/
def ensureSession (u : ℕ) (use : PageUse) : PagePool :=
  match s.liveSession, s.launching with
  | some session, _ => s.withUse u { use with stage := .awaitingSession (.live session) }
  | none, some id => s.withUse u { use with stage := .awaitingSession (.launch id) }
  | none, none =>
    s.startSession.withUse u { use with stage := .awaitingSession (.launch s.attempts.length) }

/-- What a promise of a session has come to, once it has: a session, or a rejection. -/
def outcome : SessionPromise → Option (Option ℕ)
  | .live session => some (some session)
  | .launch id =>
    match s.attempts[id]? with
    | some (.cleared result) => some result
    | _ => none

/-- A use is cancelled: it leaves the queue, or closes its page, or sees it when it resumes. -/
def cancel (u : ℕ) (use : PageUse) : PagePool :=
  match use.stage with
  | .waiting =>
    { s with waiters := s.waiters.erase u }.withUse u
      { use with cancelled := true, stage := .ended }
  | .acquired | .inCallback => s.withUse u { use with cancelled := true, stage := .closingPage }
  | _ => s.withUse u { use with cancelled := true }

/-- `useAcquiredPage`, where it looks at the signal and the deadline: it goes on to `stage`, or
closes the page. -/
def runPage (u : ℕ) (use : PageUse) (late : Bool) (stage : PageUseStage) : PagePool :=
  if use.cancelled then s.withUse u { use with stage := .closingPage }
  else if late then (s.recordTimeout use).withUse u { use.expire with stage := .closingPage }
  else s.withUse u { use with stage }

def withAttempt (id : ℕ) (stage : LaunchStage) : PagePool :=
  { s with attempts := s.attempts.set id stage }

/-- The browser of a session runs no more, where its closing succeeded. -/
def stop (session : ℕ) (ok : Bool) : PagePool :=
  { s with browsers := if ok then s.browsers.set session false else s.browsers }

/-- `runClose`, once the launch it saw has come to `launched`. -/
def closeWith (launched : Option ℕ) : PagePool :=
  match s.session.or launched with
  | none => { s with closing := some .resolved }
  | some session => { s with session := none, closing := some (.closingSession session) }

/-- `close`, up to its first await. -/
def close : PagePool :=
  match s.closing with
  | some _ => s
  | none =>
    let s := { s with waiters := [], uses := s.uses.map PageUse.rejectWaiting }
    match s.launching with
    | some id => { s with closing := some (.awaitingLaunch id) }
    | none => s.closeWith none

/-- What happens. -/
def step : PagePoolEvent → PagePool
  | .withPage aborted =>
    if s.closing.isSome ∨ aborted then s else { s with uses := s.uses ++ [{}] }
  | .starts u late =>
    match s.uses[u]? with
    | some use =>
      if use.stage = .starting then
        if use.cancelled then s.endUse u use
        else if late then (s.recordTimeout use).endUse u use.expire
        else s.acquireSlot u use
      else s
    | none => s
  | .resumes u late =>
    match s.uses[u]? with
    | some use =>
      if use.stage = .granted then
        if use.cancelled then s.releaseSlot u use
        else if late then (s.recordTimeout use).releaseSlot u use.expire
        else s.ensureSession u use
      else s
    | none => s
  | .sessionArrives u late =>
    match s.uses[u]? with
    | some use =>
      match use.stage with
      | .awaitingSession promise =>
        match s.outcome promise with
        | none => s
        | some none => s.releaseSlot u use
        | some (some session) =>
          if use.cancelled then s.releaseSlot u use
          else if late then (s.recordTimeout use).releaseSlot u use.expire
          else s.withUse u { use with stage := .opening session }
      | _ => s
    | none => s
  | .pageOpens u ok late =>
    match s.uses[u]? with
    | some use =>
      match use.stage with
      | .opening _ =>
        if !ok then s.releaseSlot u use
        else { s with contexts := s.contexts + 1 }.runPage u use late .acquired
      | _ => s
    | none => s
  | .callbackStarts u late =>
    match s.uses[u]? with
    | some use => if use.stage = .acquired then s.runPage u use late .inCallback else s
    | none => s
  | .callbackEnds u ok =>
    match s.uses[u]? with
    | some use =>
      if use.stage = .inCallback then
        s.withUse u { use with stage := .closingPage, completed := ok }
      else s
    | none => s
  | .pageCloses u late =>
    match s.uses[u]? with
    | some use =>
      if use.stage = .closingPage then
        if use.completed ∧ !use.cancelled ∧ late then
          (s.recordTimeout use).releaseSlot u use.expire
        else s.releaseSlot u use
      else s
    | none => s
  | .aborts u =>
    match s.uses[u]? with
    | some use => if use.stage = .ended ∨ use.cancelled then s else s.cancel u use
    | none => s
  | .timesOut u =>
    match s.uses[u]? with
    | some use =>
      if use.stage = .ended ∨ use.cancelled then s
      else (s.recordTimeout use).cancel u use.expire
    | none => s
  | .deadCloses id ok =>
    match s.attempts[id]? with
    | some (.releasing dead) =>
      (s.stop dead ok).withAttempt id (if s.mayLaunch then .launching else .settled none)
    | _ => s
  | .launchSettles id ok =>
    match s.attempts[id]? with
    | some .launching =>
      if !ok then s.withAttempt id (.settled none)
      else
        let session := s.browsers.length
        let s := { s with browsers := s.browsers ++ [true] }
        if s.closing.isSome then s.withAttempt id (.discarding session)
        else
          { s with
            launches := s.launches + 1
            session := some session
            sessionDead := false }.withAttempt id (.settled (some session))
    | _ => s
  | .discardCloses id ok =>
    match s.attempts[id]? with
    | some (.discarding session) => (s.stop session ok).withAttempt id (.settled none)
    | _ => s
  | .launchClears id =>
    match s.attempts[id]? with
    | some (.settled result) => { s with launching := none }.withAttempt id (.cleared result)
    | _ => s
  | .closeCalled => s.close
  | .closeSeesLaunch =>
    match s.closing with
    | some (.awaitingLaunch id) =>
      match s.attempts[id]? with
      | some (.cleared result) => s.closeWith result
      | _ => s
    | _ => s
  | .closeSettles ok =>
    match s.closing with
    | some (.closingSession session) =>
      { s.stop session ok with closing := some (if ok then .resolved else .failed) }
    | _ => s
  | .exits session => s.stop session true
  | .markDead session => if s.session = some session then { s with sessionDead := true } else s

end PagePool

def pagePool (options : PagePoolOptions) : Machine PagePool PagePoolEvent where
  init := .create options
  step := PagePool.step

end Yantra
