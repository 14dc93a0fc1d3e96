import Yantra.Interaction.Choice
import Yantra.Lib.Machine
import Yantra.Widgets.RenderedDates

/-!
# Finding a date in a calendar

The loop that reads the grid of an open calendar, clicks the cell of a date, or pages towards its
month and reads again. What the page answers in one round is an input: its grids, its controls, and
whether a call throws, may be anything in every round.

## Main definitions

* `CalendarCell`, `CalendarGridRead`, `readWithFallback` — grids.
* `CalendarRun`, `findAndClickDate` — the loop, as a machine.
-/

namespace Yantra

open Regex CodePoints

/-! ## Grids -/

/-- `CalendarCell`, as far as the loop reads it. -/
structure CalendarCell where
  monthLabel : PageText
  derivedDate : PageText
  weekdayFromColumn : Option ℤ
  weekdayFromDate : ℤ
  disabled : Bool
  selected : Bool
  name : PageText
  group : Option PageText
  path : List ℤ
  mapsUnsafely : Bool
  deriving DecidableEq

structure CalendarScan where
  cells : List CalendarCell
  containerResolved : Bool
  monthsParsed : List PageText
  elementsScanned : ℕ

structure CalendarGridRead where
  cells : List CalendarCell
  containerResolved : Bool
  cellsSeen : ℕ
  monthsParsed : List PageText
  elementsScanned : ℕ
  deriving DecidableEq

/-- `date.slice(0, 7)` -/
def monthPart (date : PageText) : PageText := date.take 7

/-- `[...new Set(texts)].sort()` -/
def sortedSet (texts : List PageText) : List PageText := texts.dedup.insertionSort (· ≤ ·)

def CalendarGridRead.displayedMonths (grid : CalendarGridRead) : List PageText :=
  sortedSet (grid.cells.map fun cell => monthPart cell.derivedDate)

def readCalendarGrid (scan : CalendarScan) : CalendarGridRead where
  cells := scan.cells
  containerResolved := scan.containerResolved
  cellsSeen := scan.cells.length
  monthsParsed := sortedSet scan.monthsParsed
  elementsScanned := scan.elementsScanned

def emptyRead : CalendarGridRead := ⟨[], false, 0, [], 0⟩

/-- `readWithFallback`: the whole page is read where the container has no cell. A scan that throws
is none. -/
def readWithFallback (scopedScan wideScan : Option CalendarScan) : Option CalendarGridRead := do
  let inside := readCalendarGrid (← scopedScan)
  if 0 < inside.cells.length then return inside
  let wide := readCalendarGrid (← wideScan)
  return { wide with
    containerResolved := inside.containerResolved
    elementsScanned := inside.elementsScanned + wide.elementsScanned
    monthsParsed := sortedSet (inside.monthsParsed ++ wide.monthsParsed) }

/-! ## Paging -/

/-- Which way to page. -/
inductive PagingDirection where
  | next | previous
  deriving DecidableEq

/-- How a direction is called. -/
def PagingDirection.name : PagingDirection → PageText
  | .next => ofString "next"
  | .previous => ofString "previous"

def directionFor (targetMonth : PageText) (displayedMonths : List PageText) :
    Option PagingDirection :=
  match displayedMonths.head?, displayedMonths.getLast? with
  | some first, some last =>
    if targetMonth < first then some .previous
    else if last < targetMonth then some .next
    else none
  | _, _ => none

def advancedToward (before after : List PageText) (direction : PagingDirection) : Bool :=
  match direction with
  | .next =>
    match before.getLast?, after.getLast? with
    | some b, some a => b < a
    | _, _ => false
  | .previous =>
    match before.head?, after.head? with
    | some b, some a => a < b
    | _, _ => false

/-- An interactable, as far as paging reads it. -/
structure PagingEntry where
  ref : PageText
  name : PageText
  disabled : Bool
  deriving DecidableEq

/-- `/^next(?:\s+(?:month|year))?$/i`, and the same for `previous`. -/
def pagingPattern (direction : PagingDirection) : Regex CodePoint :=
  .seqs [.atStart, wordI direction.name,
    .opt (.seqs [.plus (.sym CodePoints.isSpace),
      .alts [wordI (ofString "month"), wordI (ofString "year")]]), .atEnd]

/-- `entry.name.trim()` -/
def trimPoints (text : PageText) : PageText :=
  ((text.dropWhile CodePoints.isSpace).reverse.dropWhile CodePoints.isSpace).reverse

/-- `pagingControl`: the one control that is called so. -/
def pagingControl (interactables : List PagingEntry) (direction : PagingDirection) :
    Option PagingEntry :=
  match interactables.filter fun entry => test (pagingPattern direction) (trimPoints entry.name) with
  | [entry] => some entry
  | _ => none

/-! ## Failures -/

inductive CalendarFailureDetails where
  | reason (reason : PageText) (date : Option PageText)
  | mapping (derived : ℤ) (column : Option ℤ) (date : PageText)
  | offered (labels : List PageText)
  deriving DecidableEq

/-- A failure of the loop, with the read it comes with. -/
structure CalendarFailure where
  errorCode : String
  cause : String
  message : PageText
  details : CalendarFailureDetails
  displayedMonths : List PageText
  read : CalendarGridRead
  deriving DecidableEq

def unreachable (date : PageText) (displayed : List PageText) (reason : PageText)
    (read : CalendarGridRead) : CalendarFailure where
  errorCode := "WIDGET_TARGET_UNREACHABLE"
  cause := "date-not-reachable"
  message := ofString "The calendar could not reach " ++ date ++ ofString ": " ++ reason ++
    ofString "."
  details := .reason reason none
  displayedMonths := displayed
  read

/-! ## The loop -/

/-- A date as it is requested: its month is seven characters, and a hyphen follows. -/
structure RequestedDate where
  text : PageText
  hyphen : text[7]? = some 45

/-- `WidgetBudget`, less its deadline. -/
structure CalendarBudget where
  maxPagingSteps : ℤ
  maxActions : ℤ
  deriving DecidableEq

/-- What the page answers in one round of the loop. A call that throws answers nothing. -/
structure CalendarRound where
  /-- `port.now() > budget.deadlineMs` -/
  expired : Bool := false
  /-- The first read of the round: of the container, and of the whole page. -/
  scopedScan : Option CalendarScan
  wideScan : Option CalendarScan := none
  /-- Whether `clickCandidate` returns. -/
  dayClicked : Bool := true
  /-- The controls of the page. -/
  interactables : Option (List PagingEntry) := some []
  /-- Whether the click on a control returns. -/
  pageClicked : Bool := true
  /-- The container that `resolveContainer` finds, if it does. -/
  resolved : Option (Option (List ℤ)) := some none
  /-- The second read of the round. -/
  scopedScanAfter : Option CalendarScan := none
  wideScanAfter : Option CalendarScan := none

/-- A click on a paging control, with the months read before it, and those read after it if that
did not throw. -/
structure PagingClick where
  direction : PagingDirection
  ref : PageText
  before : List PageText
  after : Option (List PageText)
  deriving DecidableEq

inductive CalendarClick where
  | day (cell : CalendarCell)
  | page (click : PagingClick)
  deriving DecidableEq

/-- `ClickDateResult`, or an error that is thrown. -/
inductive ClickDateResult where
  | clicked (actions : ℤ) (read : CalendarGridRead) (substitution : Option ChoiceSubstitution)
  | failed (failure : CalendarFailure)
  | thrown
  deriving DecidableEq

/-- The variables of the loop, its clicks so far, and its result. -/
structure CalendarRun where
  container : List ℤ
  actions : ℤ
  pagingSteps : ℕ := 0
  lastRead : CalendarGridRead := emptyRead
  displayed : List PageText
  clicks : List CalendarClick := []
  result : Option ClickDateResult := none

def addMonths (displayed months : List PageText) : List PageText :=
  months.foldl (fun seen month => if seen.contains month then seen else seen ++ [month]) displayed

/-- `${cell.monthLabel}: ${cell.name}` -/
def cellLabel (cell : CalendarCell) : PageText := cell.monthLabel ++ ofString ": " ++ cell.name

def cellChoice (cell : CalendarCell) : StructuralChoice CalendarCell where
  candidate := cell
  path := cell.path
  disabled := cell.disabled
  hidden := false
  selected := cell.selected

def choiceResolution (pf : TextPlatform) (date : RequestedDate) (container : List ℤ)
    (grid : CalendarGridRead) : ChoiceOutcome CalendarCell :=
  resolveIndistinguishableChoice (fun choice => cellLabel choice.candidate) (normalizeText pf)
    (some container) ((grid.cells.filter fun cell => cell.derivedDate = date.text).map cellChoice)

/-- The first cell of the target month that maps unsafely. -/
def unsafeCell (date : RequestedDate) (grid : CalendarGridRead) : Option CalendarCell :=
  (grid.cells.filter fun cell => (monthPart date.text ++ [45]).isPrefixOf cell.derivedDate).find?
    fun cell => cell.mapsUnsafely

namespace CalendarRun

/-- The loop returns a failure. -/
def fail (run : CalendarRun) (failure : CalendarFailure) : CalendarRun :=
  { run with result := some (.failed failure) }

def throw (run : CalendarRun) : CalendarRun := { run with result := some .thrown }

/-- A cell of the date is found: it is clicked, unless it is disabled. -/
def clickDay (run : CalendarRun) (date : RequestedDate) (round : CalendarRound)
    (grid : CalendarGridRead) (cell : CalendarCell) (substitution : Option ChoiceSubstitution) :
    CalendarRun :=
  if cell.disabled then
    run.fail
      { errorCode := "WIDGET_TARGET_UNREACHABLE"
        cause := "date-not-reachable"
        message := ofString "The requested date " ++ date.text ++ ofString " is disabled."
        details := .reason (ofString "disabled") (some date.text)
        displayedMonths := run.displayed
        read := grid }
  else
    let run := { run with clicks := run.clicks ++ [CalendarClick.day cell] }
    if round.dayClicked then
      { run with result := some (.clicked (run.actions + 1) grid substitution) }
    else run.throw

/-- What follows the click on a paging control that returned. -/
def afterPaging (run : CalendarRun) (date : RequestedDate) (round : CalendarRound)
    (direction : PagingDirection) (entry : PagingEntry) (before : List PageText) : CalendarRun :=
  let clicked := fun after => run.clicks ++ [.page ⟨direction, entry.ref, before, after⟩]
  let run := { run with actions := run.actions + 1, pagingSteps := run.pagingSteps + 1 }
  match round.resolved, readWithFallback round.scopedScanAfter round.wideScanAfter with
  | some resolved, some after =>
    let run := { run with
      container := resolved.getD run.container
      lastRead := after
      displayed := addMonths run.displayed after.displayedMonths
      clicks := clicked (some after.displayedMonths) }
    if advancedToward before after.displayedMonths direction then run
    else run.fail (unreachable date.text run.displayed
      (ofString "paging did not advance the displayed month") after)
  | _, _ => { run with clicks := clicked none }.throw

def pageToward (run : CalendarRun) (date : RequestedDate) (budget : CalendarBudget)
    (round : CalendarRound) (grid : CalendarGridRead) : CalendarRun :=
  if budget.maxPagingSteps ≤ run.pagingSteps then
    run.fail (unreachable date.text run.displayed (ofString "paging bound reached") grid)
  else
    match directionFor (monthPart date.text) grid.displayedMonths with
    | none =>
      run.fail (unreachable date.text run.displayed
        (ofString "target month is not represented safely") grid)
    | some direction =>
      match round.interactables with
      | none => run.throw
      | some interactables =>
        match pagingControl interactables direction with
        | none =>
          run.fail (unreachable date.text run.displayed
            (direction.name ++ ofString " control unavailable") grid)
        | some entry =>
          if entry.disabled then
            run.fail (unreachable date.text run.displayed
              (direction.name ++ ofString " control unavailable") grid)
          else if round.pageClicked then
            run.afterPaging date round direction entry grid.displayedMonths
          else
            { run with
              clicks := run.clicks ++
                [CalendarClick.page ⟨direction, entry.ref, grid.displayedMonths, none⟩] }.throw

def withGrid (run : CalendarRun) (pf : TextPlatform) (date : RequestedDate)
    (budget : CalendarBudget) (round : CalendarRound) (grid : CalendarGridRead) : CalendarRun :=
  let run := { run with displayed := addMonths run.displayed grid.displayedMonths }
  if grid.cells.length = 0 then
    run.fail
      { errorCode := "WIDGET_TARGET_UNREACHABLE"
        cause := "driver-not-recognized"
        message := ofString "The calendar container is open, " ++
          ofString (toString grid.elementsScanned) ++
          ofString " elements were scanned, and 0 day cells were recognized."
        details := .reason (ofString "empty_calendar") none
        displayedMonths := run.displayed
        read := grid }
  else
    match unsafeCell date grid with
    | some cell =>
      run.fail
        { errorCode := "WIDGET_MAPPING_UNSAFE"
          cause := "mapping-unsafe"
          message := ofString "The " ++ cell.monthLabel ++
            ofString " calendar disagrees with its weekday headers, so no date was clicked."
          details := .mapping cell.weekdayFromDate cell.weekdayFromColumn cell.derivedDate
          displayedMonths := run.displayed
          read := grid }
    | none =>
      match choiceResolution pf date run.container grid with
      | .ambiguous survivors =>
        run.fail
          { errorCode := "WIDGET_AMBIGUOUS_CHOICE"
            cause := "several-matched-equally"
            message := ofString "The calendar exposes " ++
              ofString (toString (grid.cells.filter fun cell => cell.derivedDate = date.text).length)
                ++ ofString " cells for " ++ date.text ++ ofString "."
            details := .offered ((survivors.take 10).map fun choice => cellLabel choice.candidate)
            displayedMonths := run.displayed
            read := grid }
      | .unique choice _ => run.clickDay date round grid choice.candidate none
      | .substituted choice substitution =>
        run.clickDay date round grid choice.candidate (some substitution)
      | .none => run.pageToward date budget round grid

def step (pf : TextPlatform) (date : RequestedDate) (budget : CalendarBudget) (run : CalendarRun)
    (round : CalendarRound) : CalendarRun :=
  if run.result.isSome then run
  else if round.expired || budget.maxActions ≤ run.actions then
    run.fail
      { errorCode := "WIDGET_TARGET_UNREACHABLE"
        cause := "budget"
        message := ofString "The calendar action budget was exhausted."
        details := .reason (ofString "budget") none
        displayedMonths := run.displayed
        read := run.lastRead }
  else
    match readWithFallback round.scopedScan round.wideScan with
    | none => run.throw
    | some grid => run.withGrid pf date budget round grid

end CalendarRun

/-- `findAndClickDate`, as a machine: every round is an input. -/
def findAndClickDate (pf : TextPlatform) (container : List ℤ) (date : RequestedDate)
    (budget : CalendarBudget) (displayed : List PageText) (initialActions : ℤ) :
    Machine CalendarRun CalendarRound where
  init := { container, actions := initialActions, displayed }
  step := CalendarRun.step pf date budget

end Yantra
