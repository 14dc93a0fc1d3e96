import Yantra.Lib.Machine

/-!
# The event bus

`JsonlEventBus` buffers the events that are published and appends them to a file in drains: one
when the timer fires, one for each `flush` and `close`. A drain takes the whole buffer, waits
until the file is open, and appends; a drain that fails puts its events back at the front of the
buffer. Drains overlap: nothing makes one wait for another.

A step is one input: a call, the timer, or the end of a file operation. What runs between two
such inputs without waiting for either is one step.

## Main definitions

* `EventBus`, `BusInput` — the bus, with the drains in flight, and its inputs.
* `EventBus.Orderly` — the inputs under which that is so.

## Main results

* `eventBus_durable` — the bus is durable in every run of orderly inputs.
* `EventBus.stuck_run` — a bus whose open failed never writes again.
-/

universe u

namespace Yantra

open List Option

/-! ## The bus -/

/-- A call of `flush` or `close` that waits for its drain. -/
structure BusCall (ε : Type u) where
  /-- What was published before the call. -/
  before : List ε
  /-- Whether the call is `close`. -/
  closes : Bool
  deriving DecidableEq, Repr

structure BusResult (ε : Type u) where
  /-- What was published before the call. -/
  before : List ε
  /-- Whether the drain of the call failed. -/
  failed : Bool
  /-- What the file held. -/
  written : List ε
  deriving DecidableEq, Repr

/-- What a drain waits for: `ensureOpen`, or `appendFile`. -/
inductive DrainPhase where
  | opening
  | appending
  deriving DecidableEq, Repr

structure Drain (ε : Type u) where
  lines : List ε
  phase : DrainPhase
  call : Option (BusCall ε)
  deriving DecidableEq, Repr

/-- The promise `opening`, while it is pending and once it is rejected. -/
inductive OpenPromise where
  | pending
  | rejected
  deriving DecidableEq, Repr

/-- The event bus, with its file and the drains in flight, the oldest first. -/
structure EventBus (ε : Type u) where
  buffer : List ε := []
  flushTimer : Bool := false
  fileHandle : Bool := false
  opening : Option OpenPromise := none
  closed : Bool := false
  drains : List (Drain ε) := []
  /-- Whether a `close` is about to close the file handle. -/
  closing : Bool := false
  file : List ε := []
  /-- The events that were published before the bus was closed. -/
  published : List ε := []
  resolved : List (BusResult ε) := []
  deriving DecidableEq, Repr

inductive BusInput (ε : Type u) where
  | publish (event : ε)
  /-- The timer fires. -/
  | timer
  | flush
  | close
  /-- Opening the file ends. -/
  | opened (ok : Bool)
  /-- The append of the drain at the index ends; a failed one may have written some events. -/
  | appended (index : ℕ) (ok : Bool) (written : ℕ)
  | handleClosed
  deriving DecidableEq, Repr

namespace EventBus

variable {ε : Type u}

/-! ## Drains -/

def resolve (s : EventBus ε) (call : Option (BusCall ε)) (failed : Bool) : EventBus ε :=
  match call with
  | none => s
  | some c => { s with
      resolved := s.resolved ++ [⟨c.before, failed, s.file⟩]
      closing := s.closing || c.closes }

section Resolve

variable (s : EventBus ε) (call : Option (BusCall ε)) (failed : Bool)

@[simp] lemma resolve_file : (s.resolve call failed).file = s.file := by cases call <;> rfl

@[simp] lemma resolve_buffer : (s.resolve call failed).buffer = s.buffer := by cases call <;> rfl

@[simp] lemma resolve_drains : (s.resolve call failed).drains = s.drains := by cases call <;> rfl

@[simp] lemma resolve_opening : (s.resolve call failed).opening = s.opening := by
  cases call <;> rfl

@[simp] lemma resolve_fileHandle : (s.resolve call failed).fileHandle = s.fileHandle := by
  cases call <;> rfl

@[simp] lemma resolve_published : (s.resolve call failed).published = s.published := by
  cases call <;> rfl

end Resolve

/-- `drainBuffer` up to its first wait. Where the promise `opening` is rejected, waiting for it
throws, and the events are put back. -/
def drainBuffer (s : EventBus ε) (call : Option (BusCall ε)) : EventBus ε :=
  match s.buffer with
  | [] => s.resolve call false
  | event :: events =>
    if s.fileHandle then
      { s with buffer := [], drains := s.drains ++ [⟨event :: events, .appending, call⟩] }
    else
      match s.opening with
      | some .rejected => s.resolve call true
      | _ => { s with
          buffer := []
          opening := some .pending
          drains := s.drains ++ [⟨event :: events, .opening, call⟩] }

/-- A drain fails: its events go to the front of the buffer. -/
def requeue (s : EventBus ε) (d : Drain ε) : EventBus ε :=
  { s with buffer := d.lines ++ s.buffer }.resolve d.call true

/-- The drains that wait for `ensureOpen`. -/
def waiting (s : EventBus ε) : List (Drain ε) := s.drains.filter fun d => d.phase = .opening

/-- `opening` is settled: the drains that wait for it go on, or fail one after the other. -/
def settleOpen (s : EventBus ε) (ok : Bool) : EventBus ε :=
  if s.opening ≠ some .pending then s
  else if ok then { s with
    fileHandle := true
    opening := none
    drains := s.drains.map fun d => { d with phase := .appending } }
  else s.waiting.foldl requeue { s with
    opening := some .rejected
    drains := s.drains.filter fun d => d.phase ≠ .opening }

/-- `appendFile` ends for the drain at the index. -/
def endAppend (s : EventBus ε) (index : ℕ) (ok : Bool) (written : ℕ) : EventBus ε :=
  match s.drains[index]? with
  | some ⟨lines, .appending, call⟩ =>
    if ok then
      { s with file := s.file ++ lines, drains := s.drains.eraseIdx index }.resolve call false
    else
      { s with
        file := s.file ++ lines.take written
        drains := s.drains.eraseIdx index }.requeue ⟨lines, .appending, call⟩
  | _ => s

/-! ## The machine -/

def publish (s : EventBus ε) (event : ε) : EventBus ε :=
  if s.closed then s
  else { s with
    buffer := s.buffer ++ [event]
    flushTimer := true
    published := s.published ++ [event] }

/-- `flush`, for a call of it or of `close` -/
def flush (s : EventBus ε) (closes : Bool) : EventBus ε :=
  { s with flushTimer := false }.drainBuffer (some ⟨s.published, closes⟩)

/-- `close`; a bus that is closed already resolves the call at once. -/
def close (s : EventBus ε) : EventBus ε :=
  if s.closed then s.resolve (some ⟨s.published, false⟩) false
  else { s with closed := true }.flush true

def step (s : EventBus ε) : BusInput ε → EventBus ε
  | .publish event => s.publish event
  | .timer => if s.flushTimer then { s with flushTimer := false }.drainBuffer none else s
  | .flush => s.flush false
  | .close => s.close
  | .opened ok => s.settleOpen ok
  | .appended index ok written => s.endAppend index ok written
  | .handleClosed => if s.closing then { s with fileHandle := false, closing := false } else s

end EventBus

def busMachine (ε : Type u) : Machine (EventBus ε) (BusInput ε) where
  init := {}
  step := EventBus.step

variable {s : EventBus ε}

namespace EventBus

variable {ε : Type u}

/-! ## What the bus promises -/

/-- A file operation does not fail. -/
def Succeeds : BusInput ε → Prop
  | .opened ok => ok = true
  | .appended _ ok _ => ok = true
  | .publish _ => False
  | _ => True

/-- **What the bus promises.** -/
structure Durable (s : EventBus ε) : Prop where
  /-- The file holds the first of the published events, in their order. -/
  ordered : s.file <+: s.published
  /-- A call whose drain did not fail resolves when what was published before it is in the
  file. -/
  complete : ∀ r ∈ s.resolved, r.failed = false → r.before <+: r.written
  /-- Later drains can succeed: where no further file operation fails, everything gets written. -/
  recoverable : ∃ is : List (BusInput ε), (∀ i ∈ is, Succeeds i) ∧
    ((busMachine ε).runFrom s is).file = s.published

/-- The inputs under which the bus keeps its promises: no open fails; an append succeeds when it
is that of the oldest drain, and fails when it is that of the newest and wrote nothing; and no call
finds the buffer empty while a drain is in flight. -/
def Orderly (s : EventBus ε) : BusInput ε → Prop
  | .opened ok => ok = true
  | .appended index true _ => index = 0
  | .appended index false written => index + 1 = s.drains.length ∧ written = 0
  | .flush => s.buffer = [] → s.drains = []
  | .close => (s.closed = true → s.buffer = []) ∧ (s.buffer = [] → s.drains = [])
  | _ => True

/-! ## The invariant -/

def inFlight (ds : List (Drain ε)) : List ε := ds.flatMap Drain.lines

/-- What was published before the call of a drain is in the file once the drain and those before
it are. -/
def CallsCovered : List ε → List (Drain ε) → Prop
  | _, [] => True
  | file, d :: ds => (∀ c, d.call = some c → c.before <+: file ++ d.lines) ∧
      CallsCovered (file ++ d.lines) ds

variable {file : List ε}

lemma callsCovered_append {ds es : List (Drain ε)} :
    CallsCovered file (ds ++ es) ↔
      CallsCovered file ds ∧ CallsCovered (file ++ inFlight ds) es := by
  induction ds generalizing file with
  | nil => simp [CallsCovered, inFlight]
  | cons d ds ih =>
    rw [cons_append, CallsCovered, CallsCovered, ih, and_assoc]
    simp [inFlight]

variable {ds : List (Drain ε)}

lemma callsCovered_map (f : Drain ε → DrainPhase) :
    CallsCovered file (ds.map fun d => { d with phase := f d }) ↔ CallsCovered file ds := by
  induction ds generalizing file with
  | nil => exact Iff.rfl
  | cons d ds ih => exact and_congr Iff.rfl ih

lemma inFlight_map (ds : List (Drain ε)) (f : Drain ε → DrainPhase) :
    inFlight (ds.map fun d => { d with phase := f d }) = inFlight ds := by
  rw [inFlight, flatMap_map]
  rfl

/-- **The invariant.** Every published event is in the file, in a drain or in the buffer, in
this order. -/
structure Inv (s : EventBus ε) : Prop where
  split : s.file ++ (inFlight s.drains ++ s.buffer) = s.published
  calls : CallsCovered s.file s.drains
  complete : ∀ r ∈ s.resolved, r.failed = false → r.before <+: r.written
  waits : ∀ d ∈ s.drains, d.phase = .opening → s.opening = some .pending
  notRejected : s.opening ≠ some .rejected

lemma inv_init : Inv (busMachine ε).init where
  split := rfl
  calls := trivial
  complete r hr := absurd hr not_mem_nil
  waits d hd := absurd hd not_mem_nil
  notRejected h := by cases h

lemma Inv.resolve {s : EventBus ε} (h : Inv s) (call : Option (BusCall ε)) (failed : Bool)
    (hcall : failed = false → ∀ c, call = some c → c.before <+: s.file) :
    Inv (s.resolve call failed) := by
  cases call with
  | none => exact h
  | some c =>
    refine ⟨h.split, h.calls, ?_, h.waits, h.notRejected⟩
    intro r hr hfailed
    rcases mem_append.1 hr with hr | hr
    · exact h.complete r hr hfailed
    · obtain rfl := mem_singleton.1 hr
      exact hcall hfailed c rfl

lemma Inv.drainBuffer {s : EventBus ε} (h : Inv s) (call : Option (BusCall ε))
    (hempty : s.buffer = [] → ∀ c, call = some c → c.before <+: s.file)
    (hcall : ∀ c, call = some c → c.before = s.published) : Inv (s.drainBuffer call) := by
  have hsplit : s.file ++ (inFlight s.drains ++ s.buffer) = s.published := h.split
  cases hbuffer : s.buffer with
  | nil =>
    rw [EventBus.drainBuffer, hbuffer]
    exact h.resolve call false fun _ => hempty hbuffer
  | cons event events =>
    rw [hbuffer] at hsplit
    -- with the buffer taken, the drain is the newest one in flight
    have hnew : ∀ phase, s.file ++ (inFlight (s.drains ++ [⟨event :: events, phase, call⟩]) ++ []) =
        s.published := by
      intro phase
      simpa [inFlight] using hsplit
    have hcalls : ∀ phase, CallsCovered s.file (s.drains ++ [⟨event :: events, phase, call⟩]) := by
      intro phase
      refine callsCovered_append.2 ⟨h.calls, fun c hc => ?_, trivial⟩
      exact ⟨[], by rw [append_nil, hcall c hc, ← hsplit, append_assoc]⟩
    rw [EventBus.drainBuffer, hbuffer]
    dsimp only
    split_ifs with hhandle
    · refine ⟨hnew _, hcalls _, h.complete, ?_, h.notRejected⟩
      intro d hd hphase
      rcases mem_append.1 hd with hd | hd
      · exact h.waits d hd hphase
      · obtain rfl := mem_singleton.1 hd
        cases hphase
    · split
      · exact absurd ‹_› h.notRejected
      · exact ⟨hnew _, hcalls _, h.complete, fun _ _ _ => rfl, fun hreject => by cases hreject⟩

lemma Inv.requeue {s : EventBus ε} {d : Drain ε} (h : Inv s) (hdrains : s.drains = ds ++ [d]) :
    Inv ({ s with drains := ds }.requeue d) := by
  have hsplit := h.split
  have hcalls := h.calls
  rw [hdrains] at hsplit hcalls
  have hds : Inv { s with drains := ds, buffer := d.lines ++ s.buffer } := by
    refine ⟨?_, (callsCovered_append.1 hcalls).1, h.complete, ?_, h.notRejected⟩
    · rw [← hsplit]
      simp [inFlight]
    · intro d' hd'
      exact h.waits d' (by rw [hdrains]; exact mem_append_left _ hd')
  exact hds.resolve d.call true (fun hfalse => by cases hfalse)

lemma Inv.endAppend (h : Inv s) {index : ℕ} {ok : Bool} {written : ℕ}
    (hok : ok → index = 0) (hfail : ok = false → index + 1 = s.drains.length ∧ written = 0) :
    Inv (s.endAppend index ok written) := by
  unfold EventBus.endAppend
  split
  · rename_i lines call hget
    split_ifs with hcase
    · obtain rfl := hok hcase
      cases hdrains : s.drains with
      | nil =>
        rw [hdrains] at hget
        cases hget
      | cons d ds =>
        have hd : d = ⟨lines, .appending, call⟩ := by
          rw [hdrains] at hget
          exact some.inj hget
        have hsplit := h.split
        have hcalls := h.calls
        rw [hdrains, hd] at hsplit hcalls
        have hnext : Inv { s with file := s.file ++ lines, drains := ds } := by
          refine ⟨?_, hcalls.2, h.complete, ?_, h.notRejected⟩
          · rw [← hsplit]
            simp [inFlight]
          · intro d' hd'
            exact h.waits d' (by rw [hdrains]; exact mem_cons_of_mem _ hd')
        exact hnext.resolve call false fun _ => hcalls.1
    · obtain ⟨hlast, rfl⟩ := hfail (Bool.eq_false_iff.2 hcase)
      have hdrains : s.drains = s.drains.eraseIdx index ++ [⟨lines, .appending, call⟩] := by
        obtain ⟨hlt, hval⟩ := List.getElem?_eq_some_iff.1 hget
        have hne : s.drains ≠ [] := ne_nil_of_length_pos (by omega)
        have hindex : index = s.drains.length - 1 := by omega
        have hgetLast : s.drains.getLast hne = ⟨lines, .appending, call⟩ := by
          rw [getLast_eq_getElem, ← hval]
          congr 1
          omega
        rw [hindex, eraseIdx_length_sub_one, ← hgetLast]
        exact (dropLast_append_getLast hne).symm
      rw [take_zero, append_nil]
      exact h.requeue hdrains
  · exact h

lemma Inv.settleOpen (h : Inv s) : Inv (s.settleOpen true) := by
  unfold EventBus.settleOpen
  split_ifs with hpending
  · exact h
  · have hmap := inFlight_map s.drains fun _ => DrainPhase.appending
    refine ⟨?_, (callsCovered_map fun _ => DrainPhase.appending).2 h.calls, h.complete, ?_, ?_⟩
    · dsimp only
      rw [hmap]
      exact h.split
    · intro d hd hphase
      obtain ⟨d', -, rfl⟩ := List.mem_map.1 hd
      cases hphase
    · intro hreject
      cases hreject
  · exact absurd rfl ‹¬ true = true›

lemma Inv.flush (h : Inv s) (closes : Bool)
    (hempty : s.buffer = [] → s.drains = []) : Inv (s.flush closes) := by
  have htimer : Inv { s with flushTimer := false } :=
    ⟨h.split, h.calls, h.complete, h.waits, h.notRejected⟩
  refine htimer.drainBuffer _ ?_ ?_
  · intro hbuffer c hc
    obtain rfl := some.inj hc
    have hsplit := h.split
    rw [hempty hbuffer, hbuffer] at hsplit
    have hfile : s.file = s.published := by simpa [inFlight] using hsplit
    exact ⟨[], by rw [append_nil, hfile]⟩
  · intro c hc
    rw [← some.inj hc]

/-- **What an orderly input preserves.**

**Proof sketch.** A publication goes to the end of the buffer, and a drain takes the buffer behind
the drains in flight; the oldest drain leaves for the end of the file, and the newest for the
front of the buffer. So the order of the events is kept. -/
theorem Inv.step {s : EventBus ε} {i : BusInput ε} (h : Inv s) (hi : Orderly s i) :
    Inv (s.step i) := by
  cases i with
  | publish event =>
    rw [EventBus.step, EventBus.publish]
    split_ifs
    · exact h
    · refine ⟨?_, h.calls, h.complete, h.waits, h.notRejected⟩
      dsimp only
      rw [← h.split]
      simp
  | timer =>
    rw [EventBus.step]
    split_ifs
    · have htimer : Inv { s with flushTimer := false } :=
        ⟨h.split, h.calls, h.complete, h.waits, h.notRejected⟩
      exact htimer.drainBuffer none (fun _ c hc => by cases hc) (fun c hc => by cases hc)
    · exact h
  | flush => exact h.flush false hi
  | close =>
    rw [EventBus.step, EventBus.close]
    split_ifs with hclosed
    · refine h.resolve _ _ fun _ c hc => ?_
      obtain rfl := Option.some.inj hc
      have hsplit := h.split
      rw [hi.2 (hi.1 hclosed), hi.1 hclosed] at hsplit
      have hfile : s.file = s.published := by simpa [inFlight] using hsplit
      exact ⟨[], by rw [append_nil, hfile]⟩
    · have hclose : Inv { s with closed := true } :=
        ⟨h.split, h.calls, h.complete, h.waits, h.notRejected⟩
      exact hclose.flush true hi.2
  | opened ok =>
    obtain rfl : ok = true := hi
    exact h.settleOpen
  | appended index ok written =>
    refine h.endAppend ?_ ?_
    · rintro rfl
      exact hi
    · rintro rfl
      exact hi
  | handleClosed =>
    rw [EventBus.step]
    split_ifs
    · exact ⟨h.split, h.calls, h.complete, h.waits, h.notRejected⟩
    · exact h

/-! ## Later drains -/

structure AppendsDone (s t : EventBus ε) : Prop where
  file : t.file = s.file ++ inFlight s.drains
  drains : t.drains = []
  buffer : t.buffer = s.buffer
  opening : t.opening = s.opening
  published : t.published = s.published

/-- The appends in flight end one after the other.

**Proof sketch.** By induction on the drains: the oldest ends first. -/
lemma run_appends {s : EventBus ε} (hphase : ∀ d ∈ s.drains, d.phase = .appending) :
    AppendsDone s ((busMachine ε).runFrom s
      (replicate s.drains.length (.appended 0 true 0))) := by
  generalize hdrains : s.drains = ds at hphase
  induction ds generalizing s with
  | nil => exact ⟨by simp [inFlight, hdrains], hdrains, rfl, rfl, rfl⟩
  | cons d ds ih =>
    obtain ⟨lines, phase, call⟩ := d
    obtain rfl : phase = .appending := hphase _ mem_cons_self
    have hstep : (busMachine ε).step s (.appended 0 true 0) =
        { s with file := s.file ++ lines, drains := ds }.resolve call false := by
      simp [busMachine, step, endAppend, hdrains]
    have hnext : ((busMachine ε).step s (.appended 0 true 0)).drains = ds := by
      rw [hstep, resolve_drains]
    have hrest := ih hnext fun d hd => hphase d (mem_cons_of_mem _ hd)
    rw [length_cons, replicate_succ, Machine.runFrom_cons]
    refine ⟨?_, hrest.drains, ?_, ?_, ?_⟩
    · rw [hrest.file, hnext, hstep, resolve_file, hdrains]
      simp [inFlight]
    · rw [hrest.buffer, hstep, resolve_buffer]
    · rw [hrest.opening, hstep, resolve_opening]
    · rw [hrest.published, hstep, resolve_published]

/-- With nothing in flight and no promise to wait for, a flush that succeeds writes the
buffer. -/
lemma run_flush {s : EventBus ε} (hdrains : s.drains = []) (hopening : s.opening = none) :
    ((busMachine ε).runFrom s [.flush, .opened true, .appended 0 true 0]).file =
      s.file ++ s.buffer := by
  cases hbuffer : s.buffer with
  | nil =>
    simp [busMachine, step, flush, drainBuffer, settleOpen, endAppend, hbuffer, hdrains, hopening]
  | cons event events =>
    cases hhandle : s.fileHandle with
    | true =>
      simp [busMachine, step, flush, drainBuffer, settleOpen, endAppend, hbuffer, hdrains,
        hopening, hhandle]
    | false =>
      simp [busMachine, step, flush, drainBuffer, settleOpen, endAppend, hbuffer, hdrains,
        hopening, hhandle]

lemma phases_settleOpen (h : Inv s) : (∀ d ∈ (s.settleOpen true).drains, d.phase = .appending) ∧
      (s.settleOpen true).opening = none := by
  unfold settleOpen
  split_ifs with hpending
  · refine ⟨fun d hd => ?_, ?_⟩
    · cases hphase : d.phase with
      | opening => exact absurd (h.waits d hd hphase) hpending
      | appending => rfl
    · cases hopening : s.opening with
      | none => rfl
      | some promise =>
        cases promise with
        | pending => exact absurd hopening hpending
        | rejected => exact absurd hopening h.notRejected
  · refine ⟨fun d hd => ?_, rfl⟩
    obtain ⟨d', -, rfl⟩ := List.mem_map.1 hd
    rfl
  · exact absurd rfl ‹¬ true = true›

/-- **Later drains can succeed**: the open in progress, the appends in flight and one more flush
write everything. -/
theorem Inv.recoverable {s : EventBus ε} (h : Inv s) :
    ∃ is : List (BusInput ε), (∀ i ∈ is, Succeeds i) ∧
      ((busMachine ε).runFrom s is).file = s.published := by
  have hopen : Inv (s.settleOpen true) := h.settleOpen
  obtain ⟨hphase, hopening⟩ := phases_settleOpen h
  have hdone := run_appends hphase
  refine ⟨.opened true :: (replicate (s.settleOpen true).drains.length (.appended 0 true 0) ++
    [.flush, .opened true, .appended 0 true 0]), ?_, ?_⟩
  · intro i hi
    simp only [mem_cons, mem_append, mem_replicate, not_mem_nil,
      or_false] at hi
    rcases hi with rfl | ⟨-, rfl⟩ | rfl | rfl | rfl <;> first | exact rfl | exact trivial
  · have hpublished : (s.settleOpen true).published = s.published := by
      unfold EventBus.settleOpen
      split_ifs with hpending htrue
      · rfl
      · rfl
      · exact absurd rfl htrue
    rw [Machine.runFrom_cons, Machine.runFrom_append]
    rw [show (busMachine ε).step s (.opened true) = s.settleOpen true from rfl]
    rw [run_flush hdone.drains (hdone.opening.trans hopening), hdone.file, hdone.buffer,
      append_assoc, hopen.split, hpublished]

end EventBus

/-! ## Runs -/

/-- **The bus keeps its promises in every run of orderly inputs.** -/
theorem eventBus_durable {ε : Type u} (is : List (BusInput ε))
    (h : (busMachine ε).Along EventBus.Orderly (busMachine ε).init is) :
    ((busMachine ε).run is).Durable := by
  have hinv : ((busMachine ε).run is).Inv :=
    Machine.invariant_runFrom (fun s i hs hi => hs.step hi) EventBus.inv_init h
  exact ⟨⟨_, hinv.split⟩, hinv.complete, hinv.recoverable⟩

/-- A publication, a drain whose append fails and a flush are orderly, so the bus keeps its
promises. -/
theorem eventBus_durable_flush :
    ((busMachine ℕ).run [.publish 1, .timer, .opened true, .publish 2, .appended 0 false 0,
      .flush, .appended 0 true 0]).Durable := by
  refine eventBus_durable _ ⟨trivial, trivial, rfl, trivial, ?_⟩
  refine ⟨⟨rfl, rfl⟩, ?_⟩
  refine ⟨?_, rfl, trivial⟩
  intro hbuffer
  exact absurd hbuffer (by decide)

/-- Two drains by the timer, the append of the second ending first: the file holds the second event
only. -/
theorem appends_overtake :
    ¬ ((busMachine ℕ).run [.publish 1, .timer, .opened true, .publish 2, .timer,
      .appended 1 true 0]).Durable := by
  intro h
  exact absurd h.ordered (by decide)

namespace EventBus

variable {ε : Type u}

structure Stuck (s : EventBus ε) : Prop where
  opening : s.opening = some .rejected
  fileHandle : s.fileHandle = false
  drains : s.drains = []

lemma Stuck.drainBuffer {s : EventBus ε} (h : Stuck s) (call : Option (BusCall ε)) :
    Stuck (s.drainBuffer call) ∧ (s.drainBuffer call).file = s.file := by
  have hresolve : ∀ failed, Stuck (s.resolve call failed) ∧ (s.resolve call failed).file = s.file :=
    fun failed => ⟨⟨by rw [resolve_opening, h.opening], by rw [resolve_fileHandle, h.fileHandle],
      by rw [resolve_drains, h.drains]⟩, by rw [resolve_file]⟩
  unfold EventBus.drainBuffer
  split
  · exact hresolve false
  · rw [if_neg (by rw [h.fileHandle]; exact Bool.false_ne_true), h.opening]
    exact hresolve true

lemma Stuck.step {s : EventBus ε} (h : Stuck s) (i : BusInput ε) :
    Stuck (s.step i) ∧ (s.step i).file = s.file := by
  have htimer : Stuck { s with flushTimer := false } := ⟨h.opening, h.fileHandle, h.drains⟩
  cases i with
  | publish event =>
    rw [EventBus.step, EventBus.publish]
    split_ifs
    · exact ⟨h, rfl⟩
    · exact ⟨⟨h.opening, h.fileHandle, h.drains⟩, rfl⟩
  | timer =>
    rw [EventBus.step]
    split_ifs
    · exact htimer.drainBuffer none
    · exact ⟨h, rfl⟩
  | flush => exact htimer.drainBuffer _
  | close =>
    rw [EventBus.step, EventBus.close]
    split_ifs
    · exact ⟨⟨h.opening, h.fileHandle, h.drains⟩, rfl⟩
    · have hclose : Stuck { s with closed := true, flushTimer := false } :=
        ⟨h.opening, h.fileHandle, h.drains⟩
      exact hclose.drainBuffer _
  | opened ok =>
    rw [EventBus.step, EventBus.settleOpen, if_pos (by rw [h.opening]; decide)]
    exact ⟨h, rfl⟩
  | appended index ok written =>
    rw [EventBus.step, EventBus.endAppend, h.drains]
    exact ⟨h, rfl⟩
  | handleClosed =>
    rw [EventBus.step]
    split_ifs
    · exact ⟨⟨h.opening, rfl, h.drains⟩, rfl⟩
    · exact ⟨h, rfl⟩

/-- **A bus whose open failed never writes again**, whatever happens after. -/
theorem stuck_run {s : EventBus ε} (h : Stuck s) (is : List (BusInput ε)) :
    Stuck ((busMachine ε).runFrom s is) ∧ ((busMachine ε).runFrom s is).file = s.file := by
  induction is generalizing s with
  | nil => exact ⟨h, rfl⟩
  | cons i is ih =>
    obtain ⟨hstep, hfile⟩ := h.step i
    obtain ⟨hrun, hrest⟩ := ih hstep
    exact ⟨hrun, hrest.trans hfile⟩

end EventBus

end Yantra
