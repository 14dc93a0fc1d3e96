import Mathlib.Data.Rat.Floor
import Mathlib.Data.Finset.Card
import Yantra.Lib.JsText
import Yantra.Lib.Machine
import Yantra.Lib.OrderedMap

/-!
# The run's budgets

`BudgetTracker` accounts the resources of an agentic run: tool calls, agent-visible bytes, browser
navigations and hosts, and two kinds of screenshots. The machine takes one operation of the tracker
at a time, with the clock's readings as the outside world gives them. Times and limits are
rationals, a limit possibly infinite; the rounding of the double product at the soft boundary is
not modelled.

## Main definitions

* `BudgetTracker`, `BudgetLimits` — the tracker and its configuration.
* `BudgetLaw` — what the tracker promises of one state.

## Main results

* `budgetLaw_run` — the promise holds after every run.
* `withinLimits_run` — whole limits are never exceeded.
* `fractional_limit_is_passed` — a count limit of two and a half admits three.
-/

namespace Yantra

open Nat Except Finset

/-! ## Limits and decisions -/

/-- A limit: a number, or `Number.POSITIVE_INFINITY`. -/
abbrev Limit := WithTop ℚ

/-- What a limit reads as in a message. A whole limit, as every default is, reads as its digits; for
the digits of another its quotient stands in. -/
def Limit.text : Limit → String
  | ⊤ => "Infinity"
  | (q : ℚ) => if q.den = 1 then toString q.num else toString q.num ++ "/" ++ toString q.den

/-- `BudgetLimits`, less the timeout and the size of a single result, which the tracker only hands
out. -/
structure BudgetLimits where
  wallClockMs : Limit
  softWallClockFraction : ℚ
  maxBytesPerRun : Limit
  maxNavigations : Limit
  maxHosts : Limit
  maxCaptures : Limit
  maxCapturePixels : Limit
  maxCaptureBytes : Limit
  maxDeliverableCaptures : Limit
  maxDeliverablePartsPerCall : Limit
  maxDeliverableTileWidth : Limit
  maxDeliverableTileHeight : Limit
  maxDeliverableFileBytes : Limit
  maxDeliverableBytesPerRun : Limit

def DEFAULT_BUDGET_LIMITS : BudgetLimits where
  wallClockMs := ((15 * 60 * 1000 : ℚ) : Limit)
  softWallClockFraction := 8 / 10
  maxBytesPerRun := ((512 * 1024 : ℚ) : Limit)
  maxNavigations := ((30 : ℚ) : Limit)
  maxHosts := ((20 : ℚ) : Limit)
  maxCaptures := ((3 : ℚ) : Limit)
  maxCapturePixels := ((1600 * 1200 : ℚ) : Limit)
  maxCaptureBytes := ((5 * 1024 * 1024 : ℚ) : Limit)
  maxDeliverableCaptures := ((4 : ℚ) : Limit)
  maxDeliverablePartsPerCall := ((6 : ℚ) : Limit)
  maxDeliverableTileWidth := ((1920 : ℚ) : Limit)
  maxDeliverableTileHeight := ((4096 : ℚ) : Limit)
  maxDeliverableFileBytes := ((8 * 1024 * 1024 : ℚ) : Limit)
  maxDeliverableBytesPerRun := ((40 * 1024 * 1024 : ℚ) : Limit)

/-- `BudgetLimit`: which limit an exhausted budget hit. -/
inductive BudgetLimit where
  | wallClock
  | wallClockSoft
  | stalled
  | cumulativeBytes
  | navigations
  | hosts
  | captureCount
  | capturePixels
  | captureBytes
  | captureMime
  | deliverableCaptureCount
  | deliverableCaptureBytes
  | deliverableCapturePixels
  deriving DecidableEq, Repr

/-- A character of `\w`. -/
def isWordChar (c : Char) : Bool := c.isAlphanum || c == '_'

/-- Whether the word stands at the head of the text, with its end at a word boundary. -/
def wordAtHead (word text : List Char) : Bool :=
  word.isPrefixOf text && !((text.drop word.length).head?.any isWordChar)

/-- Whether the word occurs in the text between word boundaries; `before` is the character in
front. -/
def hasWord (word : List Char) : Option Char → List Char → Bool
  | _, [] => false
  | before, c :: cs =>
    (!before.any isWordChar && wordAtHead word (c :: cs)) || hasWord word (some c) cs

/-- `PUBLISH_REMEDY_RE.test(message)` -/
def tellsToPublish (message : String) : Bool :=
  hasWord "publish".toList none (JsText.asciiLower message).toList

/-- `BudgetDecision`, less its constant code. -/
structure BudgetDecision where
  limit : BudgetLimit
  message : String
  carriesPublishRemedy : Bool
  deriving DecidableEq, Repr

/-- `decide` -/
def budgetDecide (limit : BudgetLimit) (message : String) : BudgetDecision :=
  ⟨limit, message, limit == .stalled || tellsToPublish message⟩

structure BudgetCallOptions where
  terminal : Bool := false
  windDownExempt : Bool := false

/-- A measurement as it comes in: a finite number, or anything else. -/
abbrev Measured := Option ℚ

/-- `CaptureMeasurement`; the type is a text or anything else. -/
structure CaptureMeasurement where
  mimeType : Option String
  width : Measured
  height : Measured
  bytes : Measured

structure DeliverableFileMeasurement where
  width : Measured
  height : Measured
  bytes : Measured

/-- `Number.isSafeInteger(value) && value >= 0` -/
def validNonnegativeInteger : Measured → Option ℕ
  | some q => if q.den = 1 ∧ 0 ≤ q.num ∧ q.num ≤ 9007199254740991 then some q.num.toNat else none
  | none => none

/-! ## The tracker -/

/-- The state of a `BudgetTracker`. -/
structure BudgetTracker where
  startedAt : ℚ
  perToolCounts : OrderedMap String ℕ := OrderedMap.empty
  seenHosts : Finset String := ∅
  totalCalls : ℕ := 0
  cumulativeBytes : ℕ := 0
  navigations : ℕ := 0
  captureCount : ℕ := 0
  capturePixels : ℕ := 0
  captureBytes : ℕ := 0
  deliverableCaptureCount : ℕ := 0
  deliverableCaptureBytes : ℕ := 0
  softWindDown : Bool := false
  frozen : Bool := false
  frozenRefusals : ℕ := 0

/-- `BudgetSnapshot`; its fields but the first are the consumption counters. -/
structure BudgetSnapshot where
  elapsedMs : ℚ
  totalCalls : ℕ
  perToolCalls : OrderedMap String ℕ
  cumulativeBytes : ℕ
  navigations : ℕ
  hosts : ℕ
  captureCount : ℕ
  capturePixels : ℕ
  captureBytes : ℕ
  deliverableCaptureCount : ℕ
  deliverableCaptureBytes : ℕ

/-- What an operation returns, and the tracker after it. -/
abbrev BudgetReply (α : Type) := Except BudgetDecision α × BudgetTracker

namespace BudgetTracker

variable (limits : BudgetLimits) (s : BudgetTracker)

/-- `snapshot`, the clock reading `now`. -/
def snapshot (now : ℚ) : BudgetSnapshot where
  elapsedMs := now - s.startedAt
  totalCalls := s.totalCalls
  perToolCalls := s.perToolCounts
  cumulativeBytes := s.cumulativeBytes
  navigations := s.navigations
  hosts := s.seenHosts.card
  captureCount := s.captureCount
  capturePixels := s.capturePixels
  captureBytes := s.captureBytes
  deliverableCaptureCount := s.deliverableCaptureCount
  deliverableCaptureBytes := s.deliverableCaptureBytes

def isWallClockExhausted (now : ℚ) : Bool := limits.wallClockMs ≤ ((now - s.startedAt : ℚ) : Limit)

/-- `isSoftWallClockExhausted`. An infinite wall clock has an infinite boundary, the fraction being
positive; zero times infinity compares false, and a negative fraction true. -/
def isSoftWallClockExhausted (now : ℚ) : Bool :=
  match limits.wallClockMs with
  | ⊤ => limits.softWallClockFraction < 0
  | (w : ℚ) => w * limits.softWallClockFraction ≤ now - s.startedAt

def freezeExploration : BudgetTracker := { s with frozen := true }

def clearProgressFreeze : BudgetTracker := { s with frozen := false }

/-- `reserveCall`; the hard check reads the clock first, the soft check reads it again. -/
def reserveCall (tool : String) (options : BudgetCallOptions) (hardNow softNow : ℚ) :
    BudgetReply Unit :=
  if s.isWallClockExhausted limits hardNow then
    (.error (budgetDecide .wallClock
      ("Run wall-clock budget of " ++ limits.wallClockMs.text ++ "ms is exhausted.")), s)
  else if s.frozen && !options.terminal && !options.windDownExempt then
    (.error (budgetDecide .stalled
      ("No task progress after the recovery message. Exploration is closed for this run: call " ++
        "result_publish now, and list each unmet requirement with its reason.")),
      { s with frozenRefusals := s.frozenRefusals + 1 })
  else
    let pastSoftBoundary := s.isSoftWallClockExhausted limits softNow
    let s := { s with softWindDown := s.softWindDown || pastSoftBoundary }
    if !options.terminal && !options.windDownExempt && pastSoftBoundary then
      (.error (budgetDecide .wallClockSoft
        ("The run is out of exploration time. Publish now using the evidence already " ++
          "gathered.")), s)
    else if !options.terminal && limits.maxBytesPerRun ≤ (s.cumulativeBytes : Limit) then
      (.error (budgetDecide .cumulativeBytes
        ("Cumulative agent-visible byte budget of " ++ limits.maxBytesPerRun.text ++
          " bytes is exhausted.")), s)
    else
      let used := (s.perToolCounts.get? tool).getD 0
      (.ok (), { s with
        totalCalls := s.totalCalls + 1, perToolCounts := s.perToolCounts.set tool (used + 1) })

def accountResultBytes (bytes : ℤ) (options : BudgetCallOptions) : BudgetReply Unit :=
  let s := { s with cumulativeBytes := s.cumulativeBytes + bytes.toNat }
  if !options.terminal && limits.maxBytesPerRun < (s.cumulativeBytes : Limit) then
    (.error (budgetDecide .cumulativeBytes
      ("Cumulative agent-visible byte budget of " ++ limits.maxBytesPerRun.text ++
        " bytes is exhausted.")), s)
  else (.ok (), s)

def reserveNavigation (host : String) : BudgetReply Unit :=
  if limits.maxNavigations ≤ (s.navigations : Limit) then
    (.error (budgetDecide .navigations
      ("Navigation budget of " ++ limits.maxNavigations.text ++ " navigations is exhausted.")), s)
  else if host ∉ s.seenHosts ∧ limits.maxHosts ≤ (s.seenHosts.card : Limit) then
    (.error (budgetDecide .hosts
      ("Distinct-host budget of " ++ limits.maxHosts.text ++ " hosts is exhausted.")), s)
  else
    (.ok (), { s with navigations := s.navigations + 1, seenHosts := insert host s.seenHosts })

def reserveCapture : BudgetReply Unit :=
  if limits.maxCaptures ≤ (s.captureCount : Limit) then
    (.error (budgetDecide .captureCount
      ("Capture count budget of " ++ limits.maxCaptures.text ++ " screenshots is exhausted.")), s)
  else (.ok (), { s with captureCount := s.captureCount + 1 })

/-- The checks of `accountCaptureBytes`: the pixels and the bytes of a capture that passes. -/
def checkCapture (m : CaptureMeasurement) : Except BudgetDecision (ℕ × ℕ) :=
  if m.mimeType ≠ some "image/png" then
    .error (budgetDecide .captureMime "Capture encoding must be image/png.")
  else
    match validNonnegativeInteger m.width, validNonnegativeInteger m.height with
    | some width, some height =>
      if width = 0 ∨ height = 0 then
        .error (budgetDecide .capturePixels "Capture dimensions must be positive.")
      else
        let pixels := width * height
        if 1600 < width ∨ 1200 < height ∨ 9007199254740991 < pixels ∨
            limits.maxCapturePixels < (pixels : Limit) then
          .error (budgetDecide .capturePixels
            ("Capture pixel budget of " ++ limits.maxCapturePixels.text ++
              " pixels was exceeded."))
        else
          match validNonnegativeInteger m.bytes with
          | some bytes =>
            if limits.maxCaptureBytes < (bytes : Limit) then
              .error (budgetDecide .captureBytes
                ("Capture byte budget of " ++ limits.maxCaptureBytes.text ++
                  " bytes was exceeded."))
            else .ok (pixels, bytes)
          | none =>
            .error (budgetDecide .captureBytes "Capture byte count is missing or invalid.")
    | _, _ =>
      .error (budgetDecide .capturePixels "Capture dimensions are missing or invalid.")

def accountCaptureBytes (m : CaptureMeasurement) : BudgetReply Unit :=
  match checkCapture limits m with
  | .error d => (.error d, s)
  | .ok (pixels, bytes) =>
    (.ok (), { s with
      capturePixels := s.capturePixels + pixels, captureBytes := s.captureBytes + bytes })

/-- `reserveDeliverableCapture`: the ordinal that names the call's files. -/
def reserveDeliverableCapture : BudgetReply ℕ :=
  if limits.maxDeliverableCaptures ≤ (s.deliverableCaptureCount : Limit) then
    (.error (budgetDecide .deliverableCaptureCount
      ("The saved-screenshot budget of " ++ limits.maxDeliverableCaptures.text ++
        " captures for this run is spent. Publish with the captures already saved.")), s)
  else
    (.ok (s.deliverableCaptureCount + 1),
      { s with deliverableCaptureCount := s.deliverableCaptureCount + 1 })

def checkFile (file : DeliverableFileMeasurement) : Except BudgetDecision ℕ :=
  let tooLarge := budgetDecide .deliverableCapturePixels
    ("A saved capture file exceeded the " ++ limits.maxDeliverableTileWidth.text ++ " by " ++
      limits.maxDeliverableTileHeight.text ++ " pixel limit.")
  match validNonnegativeInteger file.width, validNonnegativeInteger file.height with
  | some width, some height =>
    if width = 0 ∨ height = 0 ∨ limits.maxDeliverableTileWidth < (width : Limit) ∨
        limits.maxDeliverableTileHeight < (height : Limit) then
      .error tooLarge
    else
      match validNonnegativeInteger file.bytes with
      | some bytes =>
        if limits.maxDeliverableFileBytes < (bytes : Limit) then
          .error (budgetDecide .deliverableCaptureBytes
            ("A saved capture file exceeded the " ++ limits.maxDeliverableFileBytes.text ++
              " byte limit."))
        else .ok bytes
      | none =>
        .error (budgetDecide .deliverableCaptureBytes
          ("A saved capture file exceeded the " ++ limits.maxDeliverableFileBytes.text ++
            " byte limit."))
  | _, _ => .error tooLarge

/-- The loop over the files of a call; `total` is what the files before add up to. -/
def checkFiles (total : ℕ) : List DeliverableFileMeasurement → Except BudgetDecision ℕ
  | [] => .ok total
  | file :: files =>
    match checkFile limits file with
    | .error d => .error d
    | .ok bytes => checkFiles (total + bytes) files

def accountDeliverableBytes (files : List DeliverableFileMeasurement) : BudgetReply Unit :=
  if files.length = 0 ∨ limits.maxDeliverablePartsPerCall < (files.length : Limit) then
    (.error (budgetDecide .deliverableCapturePixels
      ("A saved capture holds 1 to " ++ limits.maxDeliverablePartsPerCall.text ++
        " files; this one had " ++ toString files.length ++ ".")), s)
  else
    match checkFiles limits 0 files with
    | .error d => (.error d, s)
    | .ok total =>
      if limits.maxDeliverableBytesPerRun < ((s.deliverableCaptureBytes + total : ℕ) : Limit) then
        (.error (budgetDecide .deliverableCaptureBytes
          ("Saved captures would exceed the run's " ++ limits.maxDeliverableBytesPerRun.text ++
            " byte limit. Publish with the captures already saved.")), s)
      else
        (.ok (), { s with deliverableCaptureBytes := s.deliverableCaptureBytes + total })

end BudgetTracker

/-! ## The machine -/

/-- An operation on the tracker, with the readings of the clock it takes. -/
inductive BudgetOp where
  | reserveCall (tool : String) (options : BudgetCallOptions) (hardNow softNow : ℚ)
  | accountResultBytes (bytes : ℤ) (options : BudgetCallOptions)
  | reserveNavigation (host : String)
  | reserveCapture
  | accountCaptureBytes (measurement : CaptureMeasurement)
  | reserveDeliverableCapture
  | accountDeliverableBytes (files : List DeliverableFileMeasurement)
  | freezeExploration
  | clearProgressFreeze

/-- What the operation does, the ordinal of a deliverable capture left out. -/
def BudgetTracker.perform (limits : BudgetLimits) (s : BudgetTracker) :
    BudgetOp → BudgetReply Unit
  | .reserveCall tool options hardNow softNow => s.reserveCall limits tool options hardNow softNow
  | .accountResultBytes bytes options => s.accountResultBytes limits bytes options
  | .reserveNavigation host => s.reserveNavigation limits host
  | .reserveCapture => s.reserveCapture limits
  | .accountCaptureBytes measurement => s.accountCaptureBytes limits measurement
  | .reserveDeliverableCapture =>
    ((s.reserveDeliverableCapture limits).1.map fun _ => (),
      (s.reserveDeliverableCapture limits).2)
  | .accountDeliverableBytes files => s.accountDeliverableBytes limits files
  | .freezeExploration => (.ok (), s.freezeExploration)
  | .clearProgressFreeze => (.ok (), s.clearProgressFreeze)

/-- Whether a refusal of the operation promises to consume nothing: every reservation, and the
accounting of screenshots. The bytes of a result are on record either way. -/
def BudgetOp.atomic : BudgetOp → Bool
  | .accountResultBytes _ _ => false
  | _ => true

/-- A run of one tracker: its constructor reads the clock, then the operations come. -/
def budgetTracker (limits : BudgetLimits) (startedAt : ℚ) : Machine BudgetTracker BudgetOp where
  init := { startedAt }
  step s op := (s.perform limits op).2

/-! ## What the tracker promises -/

/-- A whole count within a limit, a fractional limit counting as the next whole number and a
negative one as zero. -/
def Limit.admits (limit : Limit) (n : ℕ) : Prop := ∀ q : ℚ, limit = (q : Limit) → n ≤ ⌈q⌉₊

/-- The capped counters are within their limits, rounded up. -/
structure WithinCaps (limits : BudgetLimits) (b : BudgetSnapshot) : Prop where
  navigations : limits.maxNavigations.admits b.navigations
  hosts : limits.maxHosts.admits b.hosts
  captureCount : limits.maxCaptures.admits b.captureCount
  deliverableCaptureCount : limits.maxDeliverableCaptures.admits b.deliverableCaptureCount
  deliverableCaptureBytes : limits.maxDeliverableBytesPerRun.admits b.deliverableCaptureBytes

/-- The capped counters are within their limits, compared as the numbers they are. -/
structure WithinLimits (limits : BudgetLimits) (b : BudgetSnapshot) : Prop where
  navigations : (b.navigations : Limit) ≤ limits.maxNavigations
  hosts : (b.hosts : Limit) ≤ limits.maxHosts
  captureCount : (b.captureCount : Limit) ≤ limits.maxCaptures
  deliverableCaptureCount : (b.deliverableCaptureCount : Limit) ≤ limits.maxDeliverableCaptures
  deliverableCaptureBytes : (b.deliverableCaptureBytes : Limit) ≤ limits.maxDeliverableBytesPerRun

/-- The capped counters' limits are whole numbers, or infinite. -/
def BudgetLimits.Whole (limits : BudgetLimits) : Prop :=
  ∀ limit ∈ [limits.maxNavigations, limits.maxHosts, limits.maxCaptures,
    limits.maxDeliverableCaptures, limits.maxDeliverableBytesPerRun],
    limit = ⊤ ∨ ∃ m : ℕ, limit = (m : Limit)

/-- Who is let through `reserveCall` in a state. -/
structure CallsGuarded (limits : BudgetLimits) (s : BudgetTracker) : Prop where
  /-- A terminal call is refused exactly when the hard wall clock is spent. -/
  terminal : ∀ tool options hardNow softNow, options.terminal = true →
    ((s.reserveCall limits tool options hardNow softNow).1.isOk = false ↔
      s.isWallClockExhausted limits hardNow = true)
  /-- Another call that succeeds met no wind-down, no freeze and no spent byte budget. -/
  exploring : ∀ tool options hardNow softNow, options.terminal = false →
    (s.reserveCall limits tool options hardNow softNow).1.isOk = true →
      (s.isSoftWallClockExhausted limits softNow = true → options.windDownExempt = true) ∧
      (s.frozen = true → options.windDownExempt = true) ∧
      (s.cumulativeBytes : Limit) < limits.maxBytesPerRun

/-- What the tracker promises of a state and of the next operation there. -/
structure BudgetLaw (limits : BudgetLimits) (s : BudgetTracker) : Prop where
  caps : ∀ now, WithinCaps limits (s.snapshot now)
  callsAddUp : ∀ now, (s.snapshot now).totalCalls = (s.snapshot now).perToolCalls.values.sum
  refusalsFree : ∀ op d s' now, op.atomic = true → s.perform limits op = (.error d, s') →
    s'.snapshot now = s.snapshot now
  callsGuarded : CallsGuarded limits s

/-! ## One operation -/

/-- What one operation can do to the counters, with the guard it passed. -/
inductive Spends (limits : BudgetLimits) (b : BudgetSnapshot) : BudgetSnapshot → Prop
  | nothing : Spends limits b b
  | call (tool : String) :
      Spends limits b { b with
        totalCalls := b.totalCalls + 1
        perToolCalls := b.perToolCalls.set tool ((b.perToolCalls.get? tool).getD 0 + 1) }
  | resultBytes (n : ℕ) : Spends limits b { b with cumulativeBytes := b.cumulativeBytes + n }
  | navigation (hosts : ℕ) (hnavigations : ¬ limits.maxNavigations ≤ (b.navigations : Limit))
      (hhosts : hosts = b.hosts ∨
        (hosts = b.hosts + 1 ∧ ¬ limits.maxHosts ≤ (b.hosts : Limit))) :
      Spends limits b { b with navigations := b.navigations + 1, hosts := hosts }
  | capture (hcount : ¬ limits.maxCaptures ≤ (b.captureCount : Limit)) :
      Spends limits b { b with captureCount := b.captureCount + 1 }
  | captureBytes (pixels bytes : ℕ) :
      Spends limits b { b with
        capturePixels := b.capturePixels + pixels, captureBytes := b.captureBytes + bytes }
  | deliverable
      (hcount : ¬ limits.maxDeliverableCaptures ≤ (b.deliverableCaptureCount : Limit)) :
      Spends limits b { b with deliverableCaptureCount := b.deliverableCaptureCount + 1 }
  | deliverableBytes (total : ℕ)
      (hbytes : ¬ limits.maxDeliverableBytesPerRun <
        ((b.deliverableCaptureBytes + total : ℕ) : Limit)) :
      Spends limits b { b with deliverableCaptureBytes := b.deliverableCaptureBytes + total }

variable {limits : BudgetLimits} {s : BudgetTracker}

variable {limit : Limit} {n : ℕ}

lemma Limit.admits_succ (h : ¬ limit ≤ (n : Limit)) :
    limit.admits (n + 1) := by
  rintro q rfl
  have hlt : (n : ℚ) < q := by
    rw [not_le] at h
    exact_mod_cast h
  exact lt_ceil.2 hlt

lemma Limit.admits_of_not_lt (h : ¬ limit < (n : Limit)) :
    limit.admits n := by
  rintro q rfl
  have hle : (n : ℚ) ≤ q := by
    rw [not_lt] at h
    exact_mod_cast h
  exact cast_le.1 (hle.trans (le_ceil q))

lemma Limit.admits_zero (limit : Limit) : limit.admits 0 := fun _ _ => Nat.zero_le _

lemma Limit.le_of_admits (h : limit.admits n) (hwhole : limit = ⊤ ∨ ∃ m : ℕ, limit = (m : Limit)) :
    (n : Limit) ≤ limit := by
  rcases hwhole with rfl | ⟨m, rfl⟩
  · exact le_top
  · have hle : n ≤ ⌈(m : ℚ)⌉₊ := h (m : ℚ) rfl
    rw [ceil_natCast] at hle
    exact_mod_cast hle

/-- The reply of an atomic operation: a refusal leaves the counters alone, and what a success
spends is on the list. -/
def Accounted (limits : BudgetLimits) (s : BudgetTracker) {α : Type} (r : BudgetReply α) : Prop :=
  ∀ now, (r.1.isOk = false → r.2.snapshot now = s.snapshot now) ∧
    Spends limits (s.snapshot now) (r.2.snapshot now)

variable {s' : BudgetTracker}

variable {α : Type}

lemma accounted_error (d : BudgetDecision) (h : ∀ now, s'.snapshot now = s.snapshot now) :
    Accounted limits s ((.error d, s') : BudgetReply α) := by
  intro now
  rw [h now]
  exact ⟨fun _ => rfl, .nothing⟩

lemma accounted_ok (a : α) (h : ∀ now, Spends limits (s.snapshot now) (s'.snapshot now)) :
    Accounted limits s ((.ok a, s') : BudgetReply α) :=
  fun now => ⟨fun hfalse => (nomatch hfalse), h now⟩

/-- `reserveCall` is accounted for. -/
lemma accounted_reserveCall (tool : String) (options : BudgetCallOptions) (hardNow softNow : ℚ) :
    Accounted limits s (s.reserveCall limits tool options hardNow softNow) := by
  unfold BudgetTracker.reserveCall
  split_ifs
  · exact accounted_error _ fun _ => rfl
  · exact accounted_error _ fun _ => rfl
  · dsimp only
    split_ifs
    · exact accounted_error _ fun _ => rfl
    · exact accounted_error _ fun _ => rfl
    · exact accounted_ok _ fun _ => .call tool

/-- `reserveNavigation` is accounted for. -/
lemma accounted_reserveNavigation (host : String) :
    Accounted limits s (s.reserveNavigation limits host) := by
  unfold BudgetTracker.reserveNavigation
  split_ifs with hnavigations hhosts
  · exact accounted_error _ fun _ => rfl
  · exact accounted_error _ fun _ => rfl
  · refine accounted_ok _ fun _ => .navigation _ hnavigations ?_
    by_cases hseen : host ∈ s.seenHosts
    · exact .inl (congrArg card (insert_eq_of_mem hseen))
    · exact .inr ⟨card_insert_of_notMem hseen, fun h => hhosts ⟨hseen, h⟩⟩

/-- `reserveCapture` is accounted for. -/
lemma accounted_reserveCapture : Accounted limits s (s.reserveCapture limits) := by
  unfold BudgetTracker.reserveCapture
  split_ifs with hcount
  · exact accounted_error _ fun _ => rfl
  · exact accounted_ok _ fun _ => .capture hcount

/-- `accountCaptureBytes` is accounted for. -/
lemma accounted_accountCaptureBytes (m : CaptureMeasurement) :
    Accounted limits s (s.accountCaptureBytes limits m) := by
  unfold BudgetTracker.accountCaptureBytes
  split
  · exact accounted_error _ fun _ => rfl
  · exact accounted_ok _ fun _ => .captureBytes _ _

/-- `reserveDeliverableCapture` is accounted for. -/
lemma accounted_reserveDeliverableCapture :
    Accounted limits s (s.reserveDeliverableCapture limits) := by
  unfold BudgetTracker.reserveDeliverableCapture
  split_ifs with hcount
  · exact accounted_error _ fun _ => rfl
  · exact accounted_ok _ fun _ => .deliverable hcount

/-- `accountDeliverableBytes` is accounted for. -/
lemma accounted_accountDeliverableBytes (files : List DeliverableFileMeasurement) :
    Accounted limits s (s.accountDeliverableBytes limits files) := by
  unfold BudgetTracker.accountDeliverableBytes
  split_ifs
  · exact accounted_error _ fun _ => rfl
  · split
    · exact accounted_error _ fun _ => rfl
    · split_ifs with hbytes
      · exact accounted_error _ fun _ => rfl
      · exact accounted_ok _ fun _ => .deliverableBytes _ hbytes

lemma accounted_perform (op : BudgetOp) (hatomic : op.atomic) :
    Accounted limits s (s.perform limits op) := by
  cases op with
  | reserveCall tool options hardNow softNow =>
    exact accounted_reserveCall tool options hardNow softNow
  | accountResultBytes bytes options => cases hatomic
  | reserveNavigation host => exact accounted_reserveNavigation host
  | reserveCapture => exact accounted_reserveCapture
  | accountCaptureBytes m => exact accounted_accountCaptureBytes m
  | reserveDeliverableCapture =>
    intro now
    refine ⟨fun h => (accounted_reserveDeliverableCapture now).1 ?_,
      (accounted_reserveDeliverableCapture now).2⟩
    cases hr : (s.reserveDeliverableCapture limits).1 with
    | error d => rfl
    | ok n => simp [BudgetTracker.perform, hr, Except.map, isOk, Except.toBool] at h
  | accountDeliverableBytes files => exact accounted_accountDeliverableBytes files
  | freezeExploration => exact accounted_ok _ fun _ => .nothing
  | clearProgressFreeze => exact accounted_ok _ fun _ => .nothing

lemma spends_perform (op : BudgetOp) (now : ℚ) :
    Spends limits (s.snapshot now) ((s.perform limits op).2.snapshot now) := by
  cases hatomic : op.atomic with
  | true => exact (accounted_perform op hatomic now).2
  | false =>
    cases op with
    | accountResultBytes bytes options =>
      simp only [BudgetTracker.perform, BudgetTracker.accountResultBytes]
      split_ifs
      · exact .resultBytes bytes.toNat
      · exact .resultBytes bytes.toNat
    | _ => cases hatomic

/-- When a call is let through: before the hard deadline, and if it is not terminal, not frozen and
not past the soft boundary unless exempt, with bytes left. -/
lemma reserveCall_isOk_iff (tool : String) (options : BudgetCallOptions) (hardNow softNow : ℚ) :
    (s.reserveCall limits tool options hardNow softNow).1.isOk ↔
      s.isWallClockExhausted limits hardNow = false ∧
        (options.terminal ∨
          ((s.frozen → options.windDownExempt) ∧
            (s.isSoftWallClockExhausted limits softNow → options.windDownExempt) ∧
            (s.cumulativeBytes : Limit) < limits.maxBytesPerRun)) := by
  unfold BudgetTracker.reserveCall
  by_cases hhard : s.isWallClockExhausted limits hardNow
  · simp [hhard, isOk, Except.toBool]
  · have hopen : s.isWallClockExhausted limits hardNow = false := by simpa using hhard
    cases hterminal : options.terminal with
    | true => simp [hopen, isOk, Except.toBool]
    | false =>
      cases hexempt : options.windDownExempt with
      | true =>
        by_cases hbytes : limits.maxBytesPerRun ≤ (s.cumulativeBytes : Limit)
        · simp [hopen, hbytes, hbytes.not_gt, isOk, Except.toBool]
        · simp [hopen, hbytes, not_le.1 hbytes, isOk, Except.toBool]
      | false =>
        cases hfrozen : s.frozen with
        | true => simp [hopen, isOk, Except.toBool]
        | false =>
          cases hsoft : s.isSoftWallClockExhausted limits softNow with
          | true => simp [hopen, isOk, Except.toBool]
          | false =>
            by_cases hbytes : limits.maxBytesPerRun ≤ (s.cumulativeBytes : Limit)
            · simp [hopen, hbytes, hbytes.not_gt, isOk, Except.toBool]
            · simp [hopen, hbytes, not_le.1 hbytes, isOk, Except.toBool]

/-- A refusal of an atomic operation consumes nothing. -/
theorem perform_refused {op : BudgetOp} {d : BudgetDecision} (hatomic : op.atomic)
    (h : s.perform limits op = (.error d, s')) (now : ℚ) :
    s'.snapshot now = s.snapshot now := by
  have haccounted : Accounted limits s (s.perform limits op) := accounted_perform op hatomic
  rw [h] at haccounted
  exact (haccounted now).1 rfl

variable {b b' : BudgetSnapshot}

open Limit

lemma WithinCaps.spends (h : WithinCaps limits b) (hspends : Spends limits b b') :
    WithinCaps limits b' := by
  cases hspends with
  | nothing => exact h
  | call tool => exact { h with }
  | resultBytes n => exact { h with }
  | navigation hosts hnavigations hhosts =>
    refine { h with navigations := admits_succ hnavigations, hosts := ?_ }
    rcases hhosts with rfl | ⟨rfl, hfree⟩
    · exact h.hosts
    · exact admits_succ hfree
  | capture hcount => exact { h with captureCount := admits_succ hcount }
  | captureBytes pixels bytes => exact { h with }
  | deliverable hcount => exact { h with deliverableCaptureCount := admits_succ hcount }
  | deliverableBytes total hbytes =>
    exact { h with deliverableCaptureBytes := admits_of_not_lt hbytes }

lemma callsAddUp_spends (h : b.totalCalls = b.perToolCalls.values.sum)
    (hspends : Spends limits b b') :
    b'.totalCalls = b'.perToolCalls.values.sum := by
  cases hspends with
  | call tool =>
    show b.totalCalls + 1 = _
    rw [OrderedMap.sum_values_set, h]
  | _ => exact h

/-! ## Every run -/

lemma callsGuarded (limits : BudgetLimits) (s : BudgetTracker) : CallsGuarded limits s where
  terminal tool options hardNow softNow hterminal := by
    rw [← Bool.not_eq_true, reserveCall_isOk_iff]
    simp [hterminal]
  exploring tool options hardNow softNow hterminal hok := by
    obtain ⟨-, hcase⟩ := (reserveCall_isOk_iff tool options hardNow softNow).1 hok
    rcases hcase with hcase | ⟨hfrozen, hsoft, hbytes⟩
    · rw [hterminal] at hcase
      cases hcase
    · exact ⟨hsoft, hfrozen, hbytes⟩

/-- The counters of every reachable state are within their limits, and the calls add up.

**Proof sketch.** Both hold of the empty counters and survive every spending on the list. -/
lemma counters_run (limits : BudgetLimits) (startedAt : ℚ) (ops : List BudgetOp) (now : ℚ) :
    WithinCaps limits (((budgetTracker limits startedAt).run ops).snapshot now) ∧
      (((budgetTracker limits startedAt).run ops).snapshot now).totalCalls =
        (((budgetTracker limits startedAt).run ops).snapshot now).perToolCalls.values.sum := by
  have hstep : ∀ (s : BudgetTracker) (op : BudgetOp),
      (WithinCaps limits (s.snapshot now) ∧
        (s.snapshot now).totalCalls = (s.snapshot now).perToolCalls.values.sum) →
      (WithinCaps limits ((s.perform limits op).2.snapshot now) ∧
        ((s.perform limits op).2.snapshot now).totalCalls =
          ((s.perform limits op).2.snapshot now).perToolCalls.values.sum) :=
    fun s op h => ⟨h.1.spends (spends_perform op now),
      callsAddUp_spends h.2 (spends_perform op now)⟩
  have hinit : WithinCaps limits ((budgetTracker limits startedAt).init.snapshot now) :=
    { navigations := admits_zero _
      hosts := admits_zero _
      captureCount := admits_zero _
      deliverableCaptureCount := admits_zero _
      deliverableCaptureBytes := admits_zero _ }
  exact Machine.invariant_runFrom' (M := budgetTracker limits startedAt) hstep ⟨hinit, rfl⟩ ops

/-- The tracker keeps its promise after every run: caps rounded up, calls that add up, refusals
that consume nothing, and calls let through exactly as their exemptions allow. -/
theorem budgetLaw_run (limits : BudgetLimits) (startedAt : ℚ) (ops : List BudgetOp) :
    BudgetLaw limits ((budgetTracker limits startedAt).run ops) where
  caps now := (counters_run limits startedAt ops now).1
  callsAddUp now := (counters_run limits startedAt ops now).2
  refusalsFree _ _ _ now hatomic h := perform_refused hatomic h now
  callsGuarded := callsGuarded limits _

/-- With whole limits, as all the defaults are, the counters never exceed them. -/
theorem withinLimits_run (limits : BudgetLimits) (hwhole : limits.Whole) (startedAt : ℚ)
    (ops : List BudgetOp) (now : ℚ) :
    WithinLimits limits (((budgetTracker limits startedAt).run ops).snapshot now) := by
  have hcaps := (counters_run limits startedAt ops now).1
  exact
    { navigations := le_of_admits hcaps.navigations (hwhole _ (by simp))
      hosts := le_of_admits hcaps.hosts (hwhole _ (by simp))
      captureCount := le_of_admits hcaps.captureCount (hwhole _ (by simp))
      deliverableCaptureCount :=
        le_of_admits hcaps.deliverableCaptureCount (hwhole _ (by simp))
      deliverableCaptureBytes :=
        le_of_admits hcaps.deliverableCaptureBytes (hwhole _ (by simp)) }

/-- A limit that is no whole number is passed: two and a half navigations admit three. -/
theorem fractional_limit_is_passed :
    ¬ WithinLimits { DEFAULT_BUDGET_LIMITS with maxNavigations := ((5 / 2 : ℚ) : Limit) }
      (((budgetTracker { DEFAULT_BUDGET_LIMITS with maxNavigations := ((5 / 2 : ℚ) : Limit) }
        0).run [.reserveNavigation "a.example", .reserveNavigation "a.example",
          .reserveNavigation "a.example"]).snapshot 0) := by
  intro h
  have hthree : (((budgetTracker { DEFAULT_BUDGET_LIMITS with
      maxNavigations := ((5 / 2 : ℚ) : Limit) } 0).run [.reserveNavigation "a.example",
        .reserveNavigation "a.example", .reserveNavigation "a.example"]).snapshot 0).navigations
      = 3 := by decide +kernel
  have hle := h.navigations
  rw [hthree] at hle
  exact absurd hle (by decide +kernel)

end Yantra
