import Yantra.Interaction.Escalation
import Yantra.Interaction.TypedText
import Yantra.Lib.CodePoints
import Yantra.Lib.Utf8

/-!
# The typing ladder

A text is typed into a control by one mechanism after the other, until a readback says that the
control holds it. The ladder is a plan of four rungs: whether one is entered is told from the
evidence that the rungs before it left on the run, which another operation may have begun. A secret
is typed by the first mechanism alone, and nothing is read.

## Main definitions

* `TypingRung`, `TypingRung.entry`, `TypingRung.body` — the rungs.
* `KeepsToReadback`, `CommitsBlind` — what is promised of it.

## Main results

* `commitText_safe` — both promises, for every page, every run that is joined and every
  budget.
-/

namespace Yantra

open List Option

open CodePoints (ofString)
open Utf16 (JsString units unitsOfPoint)

/-! ## Reading a control -/

inductive WithheldReason where
  | password | autocomplete | secretMarker
  deriving DecidableEq

inductive CommitMatch where
  | empty | exact | reformatted | truncated | different
  deriving DecidableEq

inductive CommittedValue where
  | disclosed (text : String)
  | withheld (reason : WithheldReason) (present : Bool) (matched : Option CommitMatch)
  deriving DecidableEq

def verifiedMatch (matched : Option CommitMatch) : Option CommitMatch :=
  matched.filter fun m => m = .exact ∨ m = .reformatted

/-- `isSubsequence`: the characters of the whole against the code units of the part. -/
def isSubsequence (part : JsString) (whole : PageText) : Bool :=
  whole.foldl (fun cursor c =>
    if unitsOfPoint c = (part[cursor]?).toList then cursor + 1 else cursor) 0 == part.length

def isTruncationOf (pf : TextPlatform) (committed requested : String) : Bool :=
  let actual := (normalizeText pf (ofString committed)).flatMap unitsOfPoint
  let wanted := normalizeText pf (ofString requested)
  let wantedLength := (wanted.flatMap unitsOfPoint).length
  if wantedLength = 0 then false
  else if actual.length = 0 then true
  else if wantedLength ≤ actual.length then false
  else isSubsequence actual wanted

def holdsRequested (pf : TextPlatform) (value : CommittedValue) (requested : String) : Bool :=
  match value with
  | .disclosed text => isFormattingEquivalent pf (ofString text) (ofString requested)
  | .withheld _ _ matched => (verifiedMatch matched).isSome

def lostCharacters (pf : TextPlatform) (value : CommittedValue) (requested : String) : Bool :=
  match value with
  | .disclosed text => isTruncationOf pf text requested
  | .withheld _ _ matched => matched = some .truncated ∨ matched = some .empty

/-! ## Outcomes -/

inductive TypingStrategy where
  | overtype | clearThenType | nativeSetter
  deriving DecidableEq

def TypingStrategy.name : TypingStrategy → String
  | .overtype => "overtype"
  | .clearThenType => "clear-then-type"
  | .nativeSetter => "native-setter"

/-- `WidgetTarget` -/
structure TypingTarget where
  ref : String
  role : String := ""
  name : String := ""
  group : Option String := none
  value : Option String := none
  deriving DecidableEq

inductive EditeeEvidence where
  | valueAppearedElsewhere | focusMoved | none
  deriving DecidableEq

inductive EditeeResolution where
  | same
  | delegated (target : TypingTarget) (evidence : EditeeEvidence)
  | inert (evidence : EditeeEvidence)
  deriving DecidableEq

/-- `TypedText`, without its verdicts. -/
structure TypedText where
  strategy : TypingStrategy
  committed : Option CommittedValue
  reformatted : Bool
  deriving DecidableEq

/-- `TypingFailure`, without its verdicts. -/
structure TypingFailure where
  errorCode : String
  message : String
  observed : CommittedValue
  reason : Option String := none
  editee : Option TypingTarget := none
  editeeEvidence : Option EditeeEvidence := none
  deriving DecidableEq

/-- What a rung leaves. -/
inductive TypingOutcome where
  | typed (text : TypedText)
  | failed (failure : TypingFailure)
  deriving DecidableEq

/-- The values of the evidence on a run; other operations may have left others. -/
inductive TypingValue where
  | bool (value : Bool)
  | strategy (name : Option String)
  | committed (value : CommittedValue)
  | editee (evidence : EditeeEvidence)
  | typed (text : TypedText)
  | other
  deriving DecidableEq

def NOTHING_READ : CommittedValue := .disclosed ""

def withheldMessage (target : TypingTarget) (matched : Option CommitMatch) : String :=
  let found := match matched with
    | some .truncated => "kept fewer characters than were typed"
    | some .different => "holds a different value"
    | none => "could not be compared with what was typed"
    | some .empty => "is still empty"
    | some .exact | some .reformatted => "holds the value"
  s!"The \"{target.name}\" control withholds its contents; a check inside the page found it " ++
    s!"{found}."

/-- `failed` -/
def typingFailed (pf : TextPlatform) (target : TypingTarget) (committed : CommittedValue)
    (requested : String) : TypingFailure where
  errorCode := "WIDGET_NOT_COMMITTED"
  message := match committed with
    | .withheld _ _ matched => withheldMessage target matched
    | .disclosed text =>
      if text = "" then s!"The \"{target.name}\" control is still empty after the value was typed."
      else if isTruncationOf pf text requested then
        s!"The \"{target.name}\" control kept only \"{text}\" of the value that was typed."
      else
        s!"The \"{target.name}\" control changed the typed value to unrelated text \"{text}\"."
  observed := committed

def TypingFailure.toFailureValue (failure : TypingFailure) : FailureValue :=
  .object (some failure.errorCode) none (some failure.message)
    (match failure.observed with
      | .disclosed text => .disclosed (some text)
      | .withheld .. => .withheld) {}

/-- An outcome as the runner keeps it. -/
def TypingOutcome.toRungOutcome (evidence : Option (List (String × TypingValue))) :
    TypingOutcome → RungOutcome TypingValue
  | .typed text => .succeeded (.typed text) evidence
  | .failed failure => .failed failure.toFailureValue evidence

/-! ## Mechanisms -/

/-- A call of the port, or of the caller's probe. -/
inductive TypingCall where
  | fill (text : JsString)
  | clear
  | type (text : JsString)
  | setNativeValue (text : JsString)
  | readTypedValue
  | targetHasFocus
  | observe
  deriving DecidableEq

/-- The calls that change the control. -/
def TypingCall.touches : TypingCall → Bool
  | .fill _ | .clear | .type _ | .setNativeValue _ => true
  | .readTypedValue | .targetHasFocus | .observe => false

def TypingCall.actions : TypingCall → ℕ
  | .fill _ | .clear | .type _ => 1
  | .setNativeValue _ | .readTypedValue | .targetHasFocus | .observe => 0

/-- The reads that the port charges for a call. The probe is the caller's own. -/
def TypingCall.reads : TypingCall → ℕ
  | .setNativeValue _ | .readTypedValue | .targetHasFocus => 1
  | .fill _ | .clear | .type _ | .observe => 0

/-- What a run did: its calls, what the control was read to hold after a mechanism, and that the
page had routed the text to another control. -/
inductive TypingEvent where
  | call (call : TypingCall)
  | readback (value : CommittedValue)
  | routed (editee : TypingTarget)
  deriving DecidableEq

/-- What the page answers to a rung: which calls of its mechanism or its probe throw, what is read
inside the last mechanism, what the readback is or throws, what `locateEditee` makes of the two observations, and the clock before and
after. -/
structure RungAnswers where
  checkedAt : ℚ := 0
  endedAt : ℚ := 0
  throws : TypingCall → Option String := fun _ => none
  innerRead : CommittedValue := NOTHING_READ
  readThrows : Option String := none
  readback : CommittedValue := NOTHING_READ
  located : EditeeResolution := .same

def RungAnswers.make (answers : RungAnswers) : List TypingCall → List TypingCall × Option String
  | [] => ([], none)
  | call :: calls =>
    match answers.throws call with
    | some err => ([call], some err)
    | none => (call :: (answers.make calls).1, (answers.make calls).2)

/-- The calls of `applyStrategy`, as far as nothing throws. -/
def mechanismCalls (pf : TextPlatform) (text : String) (innerRead : CommittedValue) :
    TypingStrategy → List TypingCall
  | .overtype => [.fill (units text)]
  | .clearThenType => [.clear, .type (units text)]
  | .nativeSetter =>
    let head := (units text).dropLast
    let tail := (units text).getLast?.toList
    [.clear] ++ (if 0 < head.length then [.setNativeValue head] else []) ++
      if 0 < tail.length then
        [.type tail, .readTypedValue] ++
          if lostCharacters pf innerRead text then [.setNativeValue (units text)] else []
      else []

/-! ## The rungs -/

inductive TypingRung where
  | mechanism (strategy : TypingStrategy)
  | locateEditee
  deriving DecidableEq

def TypingRung.shape : TypingRung → EscalationRung
  | .mechanism strategy =>
    { id := strategy.name
      axis := .how
      costCap := { maxActions := match strategy with
        | .overtype => 1
        | .clearThenType => 2
        | .nativeSetter => 3 }
      accessed := match strategy with
        | .overtype => []
        | .clearThenType => ["committed-successfully", "editee-located"]
        | .nativeSetter => ["committed-successfully", "editee-located", "last-strategy-failure"]
      produces := ["committed", "committed-successfully", "last-strategy-failure"] }
  | .locateEditee =>
    { id := "locate-editee"
      axis := .where_
      costCap := { maxActions := 0 }
      accessed := ["committed-successfully", "last-strategy-failure"]
      produces := ["editee-located", "editee-evidence"] }

def holdsSomething : Option TypingValue → Bool
  | some (.committed (.disclosed text)) => text ≠ ""
  | some (.committed (.withheld _ present _)) => present
  | _ => false

/-- The entries; `probes` tells that there is a probe, and so a baseline. -/
def TypingRung.entry (probes : Bool) (values : OrderedMap String TypingValue) :
    TypingRung → EntryDecision
  | .mechanism .overtype => .enter []
  | .locateEditee =>
    if values.get? "committed-successfully" = some (.bool true) then .decline "already-committed"
    else if values.get? "last-strategy-failure" ≠ some (.strategy (some "overtype")) then
      .decline "no-replacement-signal"
    else if holdsSomething (values.get? "committed") then .decline "control-not-empty"
    else if !probes then .decline "no-baseline-observation"
    else .enter ["control-empty", "baseline-observation"]
  | .mechanism .clearThenType =>
    if values.get? "committed-successfully" = some (.bool true) then .decline "already-committed"
    else if values.get? "editee-located" = some (.bool true) then .decline "editee-located"
    else .enter ["previous-mechanism-failed"]
  | .mechanism .nativeSetter =>
    if values.get? "committed-successfully" = some (.bool true) then .decline "already-committed"
    else if values.get? "editee-located" = some (.bool true) then .decline "editee-located"
    else if values.get? "last-strategy-failure" ≠ some (.strategy (some "clear-then-type")) then
      .decline "previous-mechanism-not-failed"
    else .enter ["previous-mechanism-failed"]

/-- What is asked for: `CommitTextOptions` and the arguments; `editee` is the probe, and tells
whether it comes with a baseline. -/
structure TypingInput where
  pf : TextPlatform
  target : TypingTarget
  text : String
  deadlineMs : ℚ
  maxActions : ℚ
  run : Option (MutableRunState TypingValue) := none
  allowEscalation : Option Bool := none
  editee : Option Bool := none

/-- `options.allowEscalation ?? true` -/
def TypingInput.escalates (input : TypingInput) : Bool := input.allowEscalation.getD true

/-- What a body did, and how it ended. -/
structure RungBodyRun where
  events : List TypingEvent
  result : Except String (TypingOutcome × Option (List (String × TypingValue)))
  lastRead : CommittedValue

/-- The body of a rung that applies a mechanism and reads the control back. -/
def strategyBody (input : TypingInput) (answers : RungAnswers) (lastRead : CommittedValue)
    (strategy : TypingStrategy) : RungBodyRun :=
  let (calls, thrown) := answers.make (mechanismCalls input.pf input.text answers.innerRead strategy)
  match thrown with
  | some err => ⟨calls.map .call, .error err, lastRead⟩
  | none =>
    if !input.escalates then
      ⟨calls.map .call, .ok (.typed ⟨strategy, none, false⟩, none), lastRead⟩
    else
      match answers.readThrows with
      | some err => ⟨calls.map .call ++ [.call .readTypedValue], .error err, lastRead⟩
      | none =>
        let committed := answers.readback
        let events := calls.map .call ++ [.call .readTypedValue, .readback committed]
        if holdsRequested input.pf committed input.text then
          let reformatted := match committed with
            | .disclosed text => decide (text ≠ input.text)
            | .withheld _ _ matched => decide (matched = some .reformatted)
          ⟨events, .ok (.typed ⟨strategy, some committed, reformatted⟩,
            some [("committed", .committed committed), ("committed-successfully", .bool true),
              ("last-strategy-failure", .strategy none)]), committed⟩
        else
          ⟨events, .ok (.failed (typingFailed input.pf input.target committed input.text),
            some [("committed", .committed committed), ("committed-successfully", .bool false),
              ("last-strategy-failure", .strategy (some strategy.name))]), committed⟩

def locateBody (input : TypingInput) (answers : RungAnswers) (lastRead : CommittedValue) :
    RungBodyRun :=
  let (calls, thrown) := answers.make [.observe, .targetHasFocus]
  match thrown with
  | some err => ⟨calls.map .call, .error err, lastRead⟩
  | none =>
    let failure := typingFailed input.pf input.target lastRead input.text
    match answers.located with
    | .delegated target evidence =>
      ⟨calls.map .call ++ [.routed target],
        .ok (.failed
          { errorCode := "WIDGET_NOT_COMMITTED"
            message := s!"The \"{input.target.name}\" control is still empty because the page " ++
              s!"routed the typed value to \"{target.name}\" instead."
            observed := lastRead
            editee := some target
            editeeEvidence := some evidence },
          some [("editee-located", .bool true), ("editee-evidence", .editee evidence)]), lastRead⟩
    | .same =>
      ⟨calls.map .call, .ok (.failed failure,
        some [("editee-located", .bool false), ("editee-evidence", .editee .none)]), lastRead⟩
    | .inert evidence =>
      ⟨calls.map .call, .ok (.failed failure,
        some [("editee-located", .bool false), ("editee-evidence", .editee evidence)]), lastRead⟩

def TypingRung.body (input : TypingInput) (answers : RungAnswers) (lastRead : CommittedValue) :
    TypingRung → RungBodyRun
  | .mechanism strategy => strategyBody input answers lastRead strategy
  | .locateEditee => locateBody input answers lastRead

/-- `buildTypingPlan` -/
def typingRungs (input : TypingInput) : List TypingRung :=
  if input.escalates then
    [.mechanism .overtype, .locateEditee, .mechanism .clearThenType, .mechanism .nativeSetter]
  else [.mechanism .overtype]

/-- `buildTypingPlan`, as the runner checks it. -/
def typingPlan (input : TypingInput) : EscalationPlan where
  family := .text
  operation := "commit-text"
  rungs := (typingRungs input).map TypingRung.shape
  budget := ⟨input.deadlineMs, input.maxActions, 4⟩
  port := some (.plain [])
  classify := true

/-! ## The run -/

/-- Where the plan stands. -/
inductive TypingStatus where
  | climbing | stopped
  | rejected (err : String)
  deriving DecidableEq

/-- The plan as it is run: the run that it joined or began, what it did, its last outcome, and the
latest read. -/
structure TypingRun where
  run : MutableRunState TypingValue
  trace : List TypingEvent := []
  outcome : Option TypingOutcome := none
  lastRead : CommittedValue := NOTHING_READ
  status : TypingStatus := .climbing

def callsOf (events : List TypingEvent) : List TypingCall :=
  events.filterMap fun
    | .call call => some call
    | _ => none

def chargeCalls (run : MutableRunState TypingValue) (calls : List TypingCall) :
    MutableRunState TypingValue :=
  { run with
    chargedActions := run.chargedActions + (calls.map TypingCall.actions).sum
    chargedReads := run.chargedReads + (calls.map TypingCall.reads).sum }

namespace TypingRun

/-- A body has returned: the runner remembers its outcome and writes the verdict. -/
def settle (s : TypingRun) (rung : TypingRung) (entryEvidence : List String) (answers : RungAnswers)
    (before : MutableRunState TypingValue) (outcome : TypingOutcome)
    (evidence : Option (List (String × TypingValue))) : TypingRun :=
  let kept := outcome.toRungOutcome evidence
  let escalation : Escalation TypingValue := { run := s.run, executions := [] }
  let run := escalation.remember kept answers.endedAt
  let figures := escalation.figures ⟨rung.shape, entryEvidence, answers.checkedAt,
    before.chargedActions, before.chargedReads, before.verdicts.length, none⟩ kept answers.endedAt
  match outcome with
  | .typed _ =>
    { s with run := run.push rung.shape (.succeeded figures), outcome := some outcome }
  | .failed failure =>
    let described := describeFailure failure.toFailureValue
    { s with
      run := run.push rung.shape
        (.failed figures described.errorCode described.cause described.detail)
      outcome := some outcome
      status := if s.run.deadlineMs ≤ answers.endedAt then .stopped else .climbing }

def turn (input : TypingInput) (page : TypingRung → RungAnswers) (s : TypingRun)
    (rung : TypingRung) : TypingRun :=
  if s.status ≠ .climbing then s
  else
    let answers := page rung
    let run := { s.run with lastNow := answers.checkedAt }
    match rung.entry input.editee.isSome run.values,
      budgetDecision rung.shape.costCap (run.budgetOf answers.checkedAt) true with
    | .decline unmet, _ => { s with run := run.push rung.shape (.skipped unmet) }
    | .enter _, some unmet => { s with run := run.push rung.shape (.skipped unmet) }
    | .enter entryEvidence, none =>
      let body := rung.body input answers s.lastRead
      let s := { s with
        run := chargeCalls run (callsOf body.events)
        trace := s.trace ++ body.events
        lastRead := body.lastRead }
      match body.result with
      | .error err => { s with status := .rejected err }
      | .ok (outcome, evidence) => s.settle rung entryEvidence answers run outcome evidence

end TypingRun

/-- What the page answers to the whole operation: the clock at its start and where the run begins,
whether the baseline observation throws, and the answers to the rungs. -/
structure TypingPage where
  calledAt : ℚ := 0
  begunAt : ℚ := 0
  baselineThrows : Option String := none
  rungs : TypingRung → RungAnswers := fun _ => {}

/-- What the operation returns: a text or a failure, each with the verdicts it contributed, or an
exception; and what it did. -/
structure CommitTextRun where
  trace : List TypingEvent
  settled : Except String (TypingOutcome × List (RungVerdict TypingValue))

def typingBudgetFailure : TypingFailure where
  errorCode := "WIDGET_TARGET_UNREACHABLE"
  message := "The fill action budget was exhausted before the value could be typed."
  observed := NOTHING_READ
  reason := some "budget"

def TypingInput.begin (input : TypingInput) (page : TypingPage) : MutableRunState TypingValue :=
  input.run.getD (createRunState (typingPlan input).budget page.begunAt)

/-- The plan is run, after the calls that were made before it. -/
def climb (input : TypingInput) (page : TypingPage) (trace : List TypingEvent) : CommitTextRun :=
  let start := input.begin page
  let s := (typingRungs input).foldl (TypingRun.turn input page.rungs)
    { run := start, trace := trace }
  let attempted := s.run.verdicts.drop start.verdicts.length
  { trace := s.trace
    settled := match s.status, s.outcome with
      | .rejected err, _ => .error err
      | _, some outcome => .ok (outcome, attempted)
      | _, none => .ok (.failed typingBudgetFailure, attempted) }

def commitText (input : TypingInput) (page : TypingPage) : CommitTextRun :=
  if input.deadlineMs < page.calledAt ∨ input.maxActions < 1 then
    ⟨[], .ok (.failed typingBudgetFailure, [])⟩
  else if input.editee = some false then
    match page.baselineThrows with
    | some err => ⟨[.call .observe], .error err⟩
    | none => climb input page [.call .observe]
  else climb input page []

/-! ## What is promised -/

/-- **The promise of the ladder.** -/
structure KeepsToReadback (input : TypingInput) (r : CommitTextRun) : Prop where
  /-- Where it is said that the text is committed, the last that was done is a readback, of a
  control that holds it. -/
  ok : ∀ text attempted, r.settled = .ok (.typed text, attempted) →
    ∃ before value, r.trace = before ++ [.readback value] ∧
      holdsRequested input.pf value input.text = true
  /-- Nothing is done after such a readback. -/
  held : ∀ before value after, r.trace = before ++ .readback value :: after →
    holdsRequested input.pf value input.text = true → after = []
  /-- Nothing is done after the text was found to have gone to another control. -/
  routed : ∀ before editee after, r.trace = before ++ .routed editee :: after → after = []

def TypingInput.Admits (input : TypingInput) (page : TypingPage) : Prop :=
  page.calledAt ≤ input.deadlineMs ∧ 1 ≤ input.maxActions ∧
    (input.editee = some false → page.baselineThrows = none) ∧
    budgetDecision { maxActions := 1 }
      ((input.begin page).budgetOf (page.rungs (.mechanism .overtype)).checkedAt) true = none

/-- **The promise of the secret path.** -/
structure CommitsBlind (input : TypingInput) (page : TypingPage) (r : CommitTextRun) : Prop where
  /-- One mechanism is applied, once, if the budget admits it. -/
  admitted : input.Admits page → (callsOf r.trace).filter TypingCall.touches =
    [.fill (units input.text)]
  /-- Else none is. -/
  refused : ¬ input.Admits page → (callsOf r.trace).filter TypingCall.touches = []
  /-- The control is not read, and the page only for a baseline that was asked for. -/
  reads : ∀ event ∈ r.trace, event = .call (.fill (units input.text)) ∨
    event = .call .observe ∧ input.editee = some false
  /-- What is returned has no value of the control. -/
  settled : ∀ outcome attempted, r.settled = .ok (outcome, attempted) →
    (outcome = .typed ⟨.overtype, none, false⟩ ∨ outcome = .failed typingBudgetFailure) ∧
      ∀ verdict ∈ attempted, (∃ unmet, verdict.kind = .skipped unmet) ∨
        ∃ figures, verdict.kind = .succeeded figures ∧ figures.entryEvidence = [] ∧
          figures.evidence = []

open TypingEvent

/-! ## What a rung does -/

section

variable {input : TypingInput} {answers : RungAnswers} {lastRead : CommittedValue}

/-- Nothing more is to be done after an event: the control holds the text, or another one got it. -/
def TypingEvent.IsFinal (input : TypingInput) : TypingEvent → Prop
  | .call _ => False
  | .readback value => holdsRequested input.pf value input.text = true
  | .routed _ => True

/-- The evidence that is left of an event. -/
def TypingEvent.Flagged (values : OrderedMap String TypingValue) : TypingEvent → Prop
  | .call _ => True
  | .readback _ => values.get? "committed-successfully" = some (.bool true)
  | .routed _ => values.get? "editee-located" = some (.bool true)

def NoFinal (input : TypingInput) (events : List TypingEvent) : Prop :=
  ∀ event ∈ events, ¬ event.IsFinal input

lemma noFinal_calls (calls : List TypingCall) : NoFinal input (calls.map .call) := by
  rintro event hmem hfinal
  obtain ⟨_, _, rfl⟩ := List.mem_map.1 hmem
  exact hfinal

variable {events others : List TypingEvent}

lemma NoFinal.append (h : NoFinal input events) (hothers : NoFinal input others) :
    NoFinal input (events ++ others) := fun event hmem =>
  (mem_append.1 hmem).elim (h event) (hothers event)

/-- Only the last event may be final, and the evidence tells of it. -/
def FinalLast (input : TypingInput) (values : OrderedMap String TypingValue)
    (events : List TypingEvent) : Prop :=
  NoFinal input events ∨ ∃ before last, events = before ++ [last] ∧ NoFinal input before ∧
    last.IsFinal input ∧ last.Flagged values

def EndsHeld (input : TypingInput) (events : List TypingEvent) : Prop :=
  ∃ before value, events = before ++ [.readback value] ∧
    holdsRequested input.pf value input.text = true

variable {values : OrderedMap String TypingValue}

lemma FinalLast.append (h : NoFinal input events) (hothers : FinalLast input values others) :
    FinalLast input values (events ++ others) := by
  obtain hothers | ⟨before, last, rfl, hbefore, hlast⟩ := hothers
  · exact .inl (h.append hothers)
  · exact .inr ⟨events ++ before, last, (append_assoc _ _ _).symm, h.append hbefore, hlast⟩

lemma FinalLast.eq_nil {before after : List TypingEvent} {event : TypingEvent}
    (h : FinalLast input values (before ++ event :: after)) (hfinal : event.IsFinal input) :
    after = [] := by
  obtain hnone | ⟨others, last, heq, hothers, -⟩ := h
  · exact absurd hfinal (hnone event (by simp))
  · rcases eq_nil_or_concat after with rfl | ⟨rest, e, rfl⟩
    · rfl
    · rw [concat_eq_append, ← cons_append, ← append_assoc] at heq
      obtain ⟨rfl, -⟩ := append_inj' heq rfl
      exact absurd hfinal (hothers event (by simp))

def withEvidence (values : OrderedMap String TypingValue)
    (evidence : Option (List (String × TypingValue))) : OrderedMap String TypingValue :=
  (evidence.getD []).foldl (fun values kv => values.set kv.1 kv.2) values

/-- **What a body does**: an exception comes before anything final, and an outcome with the evidence
of what was; a text is typed only where the control was read to hold it. -/
structure BodySound (input : TypingInput) (body : RungBodyRun) : Prop where
  error : ∀ err, body.result = .error err → NoFinal input body.events
  final : ∀ outcome evidence, body.result = .ok (outcome, evidence) →
    ∀ values, FinalLast input (withEvidence values evidence) body.events
  typed : ∀ text evidence, body.result = .ok (.typed text, evidence) → EndsHeld input body.events

lemma BodySound.of_error {events : List TypingEvent} (h : NoFinal input events) (err : String) :
    BodySound input ⟨events, .error err, lastRead⟩ where
  error _ _ := h
  final _ _ hok := by cases hok
  typed _ _ hok := by cases hok

lemma BodySound.of_ok {events : List TypingEvent} {outcome : TypingOutcome}
    {evidence : Option (List (String × TypingValue))}
    (hfinal : ∀ values, FinalLast input (withEvidence values evidence) events)
    (htyped : ∀ text, outcome = .typed text → EndsHeld input events) :
    BodySound input ⟨events, .ok (outcome, evidence), lastRead⟩ where
  error _ herror := by cases herror
  final _ _ hok values := by
    obtain ⟨rfl, rfl⟩ := Prod.mk.inj (Except.ok.inj hok)
    exact hfinal values
  typed text _ hok := htyped text (Prod.mk.inj (Except.ok.inj hok)).1

lemma bodySound_strategyBody (hescalates : input.escalates) (strategy : TypingStrategy) :
    BodySound input (strategyBody input answers lastRead strategy) := by
  unfold strategyBody
  set calls := (answers.make (mechanismCalls input.pf input.text answers.innerRead strategy)).1
  have hcalls : NoFinal input (calls.map .call ++ [.call .readTypedValue]) :=
    (noFinal_calls calls).append (noFinal_calls [.readTypedValue])
  dsimp only
  split
  · exact .of_error (noFinal_calls calls) _
  rw [hescalates]
  simp only [Bool.not_true, Bool.false_eq_true, if_false]
  split
  · exact .of_error hcalls _
  have hevents : calls.map call ++
      [.call .readTypedValue, .readback answers.readback] =
      (calls.map .call ++ [.call .readTypedValue]) ++ [.readback answers.readback] := by
    simp
  split_ifs with hholds
  · refine .of_ok (fun values => .inr ?_) fun _ _ => ⟨_, _, hevents, hholds⟩
    exact ⟨_, _, hevents, hcalls, hholds, by
      simp [TypingEvent.Flagged, withEvidence]⟩
  · refine .of_ok (fun values => .inl ?_) fun _ heq => by cases heq
    rw [hevents]
    refine hcalls.append fun event hmem => ?_
    rw [mem_singleton.1 hmem]
    exact hholds

lemma bodySound_locateBody : BodySound input (locateBody input answers lastRead) := by
  unfold locateBody
  set calls := (answers.make [.observe, .targetHasFocus]).1
  have hcalls : NoFinal input (calls.map call) := noFinal_calls calls
  have hnone : ∀ failure evidence, BodySound input
      ⟨calls.map .call, .ok (.failed failure, evidence), lastRead⟩ := fun _ _ =>
    .of_ok (fun _ => .inl hcalls) fun _ heq => by cases heq
  dsimp only
  split
  · exact .of_error hcalls _
  split
  · refine .of_ok (fun values => .inr ?_) fun _ heq => by cases heq
    exact ⟨_, _, rfl, hcalls, trivial, by
      simp [TypingEvent.Flagged, withEvidence]⟩
  · exact hnone _ _
  · exact hnone _ _

/-- **The body of every rung.** -/
lemma TypingRung.bodySound (hescalates : input.escalates) (rung : TypingRung) :
    BodySound input (rung.body input answers lastRead) := by
  cases rung with
  | mechanism strategy => exact bodySound_strategyBody hescalates strategy
  | locateEditee => exact bodySound_locateBody

end

open TypingRung TypingRun TypingCall

/-! ## The ladder -/

section

variable {input : TypingInput} {page : TypingRung → RungAnswers} {s : TypingRun} {rung : TypingRung}

/-- Only the last thing done may be final, and a typed text is one that the control held last. -/
structure LadderInv (input : TypingInput) (s : TypingRun) : Prop where
  final : FinalLast input s.run.values s.trace
  typed : ∀ text, s.outcome = some (.typed text) → EndsHeld input s.trace

lemma EndsHeld.not_noFinal {events : List TypingEvent} (h : EndsHeld input events) :
    ¬ NoFinal input events := by
  obtain ⟨before, value, rfl, hholds⟩ := h
  exact fun hnone => hnone (.readback value) (by simp) hholds

/-- A rung that is entered finds nothing final, if the first one does, and the second one finds no
other control. -/
lemma noFinal_of_entry (h : LadderInv input s) {probes : Bool} {evidence : List String}
    (hentry : rung.entry probes s.run.values = .enter evidence)
    (hfirst : rung = .mechanism .overtype → NoFinal input s.trace)
    (hsecond : rung = .locateEditee → ∀ editee, .routed editee ∉ s.trace) :
    NoFinal input s.trace := by
  obtain hnone | ⟨before, last, htrace, hbefore, hfinal, hflag⟩ := h.final
  · exact hnone
  cases last with
  | call call => exact hfinal.elim
  | readback value =>
    rw [TypingEvent.Flagged] at hflag
    cases rung with
    | mechanism strategy =>
      cases strategy with
      | overtype => exact hfirst rfl
      | clearThenType => simp [entry, hflag] at hentry
      | nativeSetter => simp [entry, hflag] at hentry
    | locateEditee => simp [entry, hflag] at hentry
  | routed editee =>
    rw [TypingEvent.Flagged] at hflag
    cases rung with
    | mechanism strategy =>
      cases strategy with
      | overtype => exact hfirst rfl
      | clearThenType =>
        simp only [entry, hflag, if_true] at hentry
        split_ifs at hentry
      | nativeSetter =>
        simp only [entry, hflag, if_true] at hentry
        split_ifs at hentry
    | locateEditee => exact absurd (by simp [htrace]) (hsecond rfl editee)

lemma TypingRun.settle_spec (s : TypingRun) (rung : TypingRung) (entryEvidence : List String)
    (answers : RungAnswers) (before : MutableRunState TypingValue) (outcome : TypingOutcome)
    (evidence : Option (List (String × TypingValue))) :
    (s.settle rung entryEvidence answers before outcome evidence).trace = s.trace ∧
      (s.settle rung entryEvidence answers before outcome evidence).outcome = some outcome ∧
      (s.settle rung entryEvidence answers before outcome evidence).run.values =
        withEvidence s.run.values evidence := by
  cases outcome <;> exact ⟨rfl, rfl, rfl⟩

/-- **One rung.** -/
theorem LadderInv.turn (h : LadderInv input s) (hescalates : input.escalates)
    (hfirst : rung = .mechanism .overtype → NoFinal input s.trace)
    (hsecond : rung = .locateEditee → ∀ editee, .routed editee ∉ s.trace) :
    LadderInv input (s.turn input page rung) := by
  unfold TypingRun.turn
  split_ifs with hclimbing
  · exact h
  dsimp only
  split
  · exact ⟨h.final, h.typed⟩
  · exact ⟨h.final, h.typed⟩
  · rename_i entryEvidence hentry _
    have hnone := noFinal_of_entry h hentry hfirst hsecond
    have hbody : BodySound input (rung.body input (page rung) s.lastRead) :=
      rung.bodySound hescalates
    split
    · rename_i err hresult
      have htrace := hnone.append (hbody.error err hresult)
      exact ⟨.inl htrace, fun text htyped => absurd hnone (h.typed text htyped).not_noFinal⟩
    · rename_i outcome evidence hresult
      obtain ⟨htrace, houtcome, hvalues⟩ := TypingRun.settle_spec
        { s with
          run := chargeCalls { s.run with lastNow := (page rung).checkedAt }
            (callsOf (rung.body input (page rung) s.lastRead).events)
          trace := s.trace ++ (rung.body input (page rung) s.lastRead).events
          lastRead := (rung.body input (page rung) s.lastRead).lastRead }
        rung entryEvidence (page rung) { s.run with lastNow := (page rung).checkedAt } outcome
        evidence
      refine ⟨?_, fun text htyped => ?_⟩
      · rw [htrace, hvalues]
        exact FinalLast.append hnone (hbody.final outcome evidence hresult _)
      · rw [houtcome] at htyped
        obtain rfl := some.inj htyped
        obtain ⟨before, value, hevents, hholds⟩ := hbody.typed text evidence hresult
        rw [htrace]
        exact ⟨s.trace ++ before, value, by rw [hevents, append_assoc], hholds⟩

lemma TypingRun.trace_turn (input : TypingInput) (page : TypingRung → RungAnswers) (s : TypingRun)
    (rung : TypingRung) : (s.turn input page rung).trace = s.trace ∨
      (s.turn input page rung).trace =
        s.trace ++ (rung.body input (page rung) s.lastRead).events := by
  unfold turn
  split_ifs
  · exact .inl rfl
  dsimp only
  split
  · exact .inl rfl
  · exact .inl rfl
  · refine .inr ?_
    split
    · rfl
    · exact (settle_spec _ _ _ _ _ _ _).1

lemma routed_not_mem_strategyBody {answers : RungAnswers} {lastRead : CommittedValue}
    (strategy : TypingStrategy) (editee : TypingTarget) :
    routed editee ∉ (strategyBody input answers lastRead strategy).events := by
  unfold strategyBody
  dsimp only
  repeat' split
  all_goals simp

variable {trace : List TypingEvent}

lemma KeepsToReadback.of_noFinal (h : NoFinal input trace)
    {settled : Except String (TypingOutcome × List (RungVerdict TypingValue))}
    (hsettled : ∀ text attempted, settled ≠ .ok (.typed text, attempted)) :
    KeepsToReadback input ⟨trace, settled⟩ where
  ok text attempted hok := absurd hok (hsettled text attempted)
  held before value after htrace hholds := by
    refine absurd hholds (h (.readback value) ?_)
    rw [show trace = _ from htrace]
    simp
  routed before editee after htrace := by
    refine absurd trivial (h (.routed editee) ?_)
    rw [show trace = _ from htrace]
    simp

/-- **The ladder**: whatever it is begun with, its promise is kept. -/
lemma keepsToReadback_climb {page : TypingPage} (hescalates : input.escalates)
    (h : NoFinal input trace) :
    KeepsToReadback input (climb input page trace) := by
  have hstart : LadderInv input { run := input.begin page, trace := trace } :=
    ⟨.inl h, fun _ hnone => by cases hnone⟩
  have hrungs : LadderInv input ((typingRungs input).foldl (turn input page.rungs)
      { run := input.begin page, trace := trace }) := by
    rw [typingRungs, hescalates]
    simp only [if_true, foldl_cons, foldl_nil]
    have hovertype : LadderInv input (turn input page.rungs
        { run := input.begin page, trace := trace } (.mechanism .overtype)) :=
      hstart.turn hescalates (fun _ => h) fun heq => by cases heq
    refine LadderInv.turn (LadderInv.turn (hovertype.turn hescalates ?_ ?_) hescalates ?_ ?_)
      hescalates ?_ ?_
    · exact fun heq => by cases heq
    · intro _ editee hmem
      rcases trace_turn input page.rungs { run := input.begin page, trace := trace }
        (.mechanism .overtype) with htrace | htrace
      · rw [htrace] at hmem
        exact h _ hmem trivial
      · rw [htrace] at hmem
        exact (mem_append.1 hmem).elim (fun hmem => h _ hmem trivial)
          (routed_not_mem_strategyBody _ editee)
    all_goals exact fun heq => by cases heq
  have hfinal : FinalLast input _ (climb input page trace).trace := hrungs.final
  refine ⟨fun text attempted hsettled => ?_, fun before value after htrace hholds => ?_,
    fun before editee after htrace => ?_⟩
  · rw [climb] at hsettled
    dsimp only at hsettled
    split at hsettled
    · cases hsettled
    · rename_i houtcome _
      obtain ⟨rfl, -⟩ := Prod.mk.inj (Except.ok.inj hsettled)
      exact hrungs.typed text houtcome
    · cases hsettled
  · rw [htrace] at hfinal
    have hlast : TypingEvent.IsFinal input (.readback value) := hholds
    exact hfinal.eq_nil hlast
  · rw [htrace] at hfinal
    have hlast : TypingEvent.IsFinal input (.routed editee) := trivial
    exact hfinal.eq_nil hlast

/-! ## The secret path -/

/-- What the first rung does where nothing is read. -/
inductive BlindTurn (input : TypingInput) (page : TypingRung → RungAnswers) (s : TypingRun) :
    TypingRun → Prop
  /-- The budget refuses it. -/
  | refused (s' : TypingRun) (unmet : String)
      (hbudget : budgetDecision { maxActions := 1 }
        (s.run.budgetOf (page (.mechanism .overtype)).checkedAt) true = some unmet)
      (htrace : s'.trace = s.trace) (houtcome : s'.outcome = s.outcome)
      (hstatus : s'.status = .climbing)
      (hverdicts : ∃ verdict, s'.run.verdicts = s.run.verdicts ++ [verdict] ∧
        verdict.kind = .skipped unmet) : BlindTurn input page s s'
  /-- The call throws. -/
  | rejected (s' : TypingRun) (err : String)
      (hbudget : budgetDecision { maxActions := 1 }
        (s.run.budgetOf (page (.mechanism .overtype)).checkedAt) true = none)
      (htrace : s'.trace = s.trace ++ [.call (.fill (units input.text))])
      (hstatus : s'.status = .rejected err) : BlindTurn input page s s'
  /-- The text is typed. -/
  | typed (s' : TypingRun)
      (hbudget : budgetDecision { maxActions := 1 }
        (s.run.budgetOf (page (.mechanism .overtype)).checkedAt) true = none)
      (htrace : s'.trace = s.trace ++ [.call (.fill (units input.text))])
      (houtcome : s'.outcome = some (.typed ⟨.overtype, none, false⟩))
      (hstatus : s'.status = .climbing)
      (hverdicts : ∃ verdict figures, s'.run.verdicts = s.run.verdicts ++ [verdict] ∧
        verdict.kind = .succeeded figures ∧ figures.entryEvidence = [] ∧ figures.evidence = []) :
      BlindTurn input page s s'

lemma blindTurn (hescalates : input.escalates = false) (hclimbing : s.status = .climbing) :
    BlindTurn input page s (s.turn input page (.mechanism .overtype)) := by
  have hshape : (mechanism .overtype).shape.costCap = { maxActions := 1 } := rfl
  have hbudgetOf : ({ s.run with
      lastNow := (page (.mechanism .overtype)).checkedAt }).budgetOf
        (page (.mechanism .overtype)).checkedAt =
      s.run.budgetOf (page (.mechanism .overtype)).checkedAt := rfl
  unfold turn
  rw [if_neg (not_not_intro hclimbing)]
  simp only [entry, hshape, hbudgetOf]
  cases hbudget : budgetDecision { maxActions := 1 }
      (s.run.budgetOf (page (.mechanism .overtype)).checkedAt) true with
  | some unmet => exact .refused _ unmet hbudget rfl rfl hclimbing ⟨_, rfl, rfl⟩
  | none =>
    simp only [body, strategyBody, mechanismCalls, RungAnswers.make, hescalates]
    cases hthrows : (page (.mechanism .overtype)).throws (.fill (units input.text)) with
    | some err => exact .rejected _ err hbudget rfl rfl
    | none => exact .typed _ hbudget rfl rfl hclimbing ⟨_, _, rfl, rfl, rfl, rfl⟩

/-- **A secret is typed blindly.** -/
lemma commitsBlind_climb {page : TypingPage} (hescalates : input.escalates = false)
    (htrace : ∀ event ∈ trace, event = .call .observe ∧ input.editee = some false)
    (hcalled : page.calledAt ≤ input.deadlineMs) (hactions : 1 ≤ input.maxActions)
    (hbaseline : input.editee = some false → page.baselineThrows = none) :
    CommitsBlind input page (climb input page trace) := by
  have hturn := @blindTurn input page.rungs { run := input.begin page, trace := trace } hescalates
    rfl
  have huntouched : (callsOf trace).filter touches = [] := by
    rw [filter_eq_nil_iff]
    intro call hmem
    obtain ⟨event, hevent, hcall⟩ := mem_filterMap.1 hmem
    rw [(htrace event hevent).1] at hcall
    obtain rfl := some.inj hcall
    exact Bool.false_ne_true
  have htouched : (callsOf (trace ++ [.call (.fill (units input.text))])).filter
      touches = [.fill (units input.text)] := by
    rw [callsOf, filterMap_append, filter_append]
    exact (congrArg (· ++ [fill (units input.text)]) huntouched)
  have hadmits : input.Admits page ↔ budgetDecision { maxActions := 1 }
      ((input.begin page).budgetOf (page.rungs (.mechanism .overtype)).checkedAt) true = none :=
    ⟨fun h => h.2.2.2, fun h => ⟨hcalled, hactions, hbaseline, h⟩⟩
  have hreads : ∀ event ∈ trace ++ [.call (.fill (units input.text))],
      event = .call (.fill (units input.text)) ∨
        event = .call .observe ∧ input.editee = some false := fun event hmem =>
    (mem_append.1 hmem).elim (fun hmem => .inr (htrace event hmem))
      fun hmem => .inl (mem_singleton.1 hmem)
  rw [climb, typingRungs, hescalates]
  simp only [Bool.false_eq_true, if_false, foldl_cons, foldl_nil]
  generalize turn input page.rungs { run := input.begin page, trace := trace }
    (.mechanism .overtype) = s' at hturn
  cases hturn with
  | refused unmet hbudget htrace' houtcome hstatus hverdicts =>
    obtain ⟨verdict, hpushed, hkind⟩ := hverdicts
    have hrefused : ¬ input.Admits page := fun h => by
      rw [hadmits.1 h] at hbudget
      cases hbudget
    refine ⟨fun h => absurd h hrefused, fun _ => htrace' ▸ huntouched,
      fun event hmem => .inr (htrace event ?_), fun outcome attempted hsettled => ?_⟩
    · exact (congrArg (event ∈ ·) htrace').mp hmem
    simp only [hstatus, houtcome, hpushed, drop_left, Except.ok.injEq, Prod.mk.injEq]
      at hsettled
    obtain ⟨rfl, rfl⟩ := hsettled
    refine ⟨.inr rfl, fun v hv => .inl ⟨unmet, ?_⟩⟩
    rw [mem_singleton.1 hv, hkind]
  | rejected err hbudget htrace' hstatus =>
    refine ⟨fun _ => htrace' ▸ htouched, fun h => absurd (hadmits.2 hbudget) h,
      fun event hmem => hreads event (htrace' ▸ hmem), fun outcome attempted hsettled => ?_⟩
    simp only [hstatus, reduceCtorEq] at hsettled
  | typed hbudget htrace' houtcome hstatus hverdicts =>
    obtain ⟨verdict, figures, hpushed, hkind, hentry, hevidence⟩ := hverdicts
    refine ⟨fun _ => htrace' ▸ htouched, fun h => absurd (hadmits.2 hbudget) h,
      fun event hmem => hreads event (htrace' ▸ hmem), fun outcome attempted hsettled => ?_⟩
    simp only [hstatus, houtcome, hpushed, drop_left, Except.ok.injEq, Prod.mk.injEq]
      at hsettled
    obtain ⟨rfl, rfl⟩ := hsettled
    refine ⟨.inl rfl, fun v hv => .inr ⟨figures, ?_, hentry, hevidence⟩⟩
    rw [mem_singleton.1 hv, hkind]

/-- **Typing into a control, for every page, every run that is joined and every budget.** With
escalation, the text is said to be committed only where the last that was done is a readback that
holds it, and nothing is done after such a readback, or after the text was found to have gone to
another control. Without it, one mechanism is applied, if the budget admits it, and nothing of the
control is read or returned. -/
theorem commitText_safe (input : TypingInput) (page : TypingPage) :
    (input.escalates = true → KeepsToReadback input (commitText input page)) ∧
      (input.escalates = false → CommitsBlind input page (commitText input page)) := by
  have hobserved : NoFinal input [.call .observe] := noFinal_calls [.observe]
  have hnothing : NoFinal input [] := noFinal_calls []
  unfold commitText
  split_ifs with hbudget hprobe
  · refine ⟨fun _ => .of_noFinal hnothing ?_, fun _ => ⟨fun h => ?_, fun _ => rfl,
      fun _ hmem => absurd hmem List.not_mem_nil, fun outcome attempted hok => ?_⟩⟩
    · exact fun _ _ heq => by cases heq
    · rcases hbudget with hlate | hnone
      · exact absurd h.1 (not_le.2 hlate)
      · exact absurd h.2.1 (not_le.2 hnone)
    · obtain ⟨rfl, rfl⟩ := Prod.mk.inj (Except.ok.inj hok)
      exact ⟨.inr rfl, fun _ hmem => absurd hmem List.not_mem_nil⟩
  · rw [not_or, not_lt, not_lt] at hbudget
    cases hthrows : page.baselineThrows with
    | some err =>
      refine ⟨fun _ => .of_noFinal hobserved ?_, fun _ => ⟨fun h => ?_, fun _ => rfl,
        fun event hmem => ?_, fun _ _ hok => by cases hok⟩⟩
      · exact fun _ _ heq => by cases heq
      · rw [h.2.2.1 hprobe] at hthrows
        cases hthrows
      · exact .inr ⟨List.mem_singleton.1 hmem, hprobe⟩
    | none =>
      refine ⟨fun hescalates => keepsToReadback_climb hescalates hobserved, fun hescalates => ?_⟩
      exact commitsBlind_climb hescalates
        (fun event hmem => ⟨List.mem_singleton.1 hmem, hprobe⟩) hbudget.1 hbudget.2
        fun _ => hthrows
  · rw [not_or, not_lt, not_lt] at hbudget
    refine ⟨fun hescalates => keepsToReadback_climb hescalates hnothing, fun hescalates => ?_⟩
    exact commitsBlind_climb hescalates (fun _ hmem => absurd hmem List.not_mem_nil) hbudget.1
      hbudget.2 fun h => absurd h hprobe

/-- A secret is not typed at all where no action is left; and the page is observed for a caller that
asks for the probe without a baseline. -/
theorem commitText_secret_exceptions :
    ∃ (input : TypingInput) (page : TypingPage), input.escalates = false ∧
      (commitText { input with maxActions := 0 } page).trace = [] ∧
      (commitText { input with editee := some false } page).trace =
        [.call .observe, .call (.fill (units input.text))] :=
  ⟨{  pf := ⟨id, fun _ => true, fun _ => false, fun _ => false, fun _ => false⟩
      target := { ref := "e1" }
      text := "pw"
      deadlineMs := 1
      maxActions := 1
      allowEscalation := some false }, {}, by decide +kernel⟩

end

end Yantra
