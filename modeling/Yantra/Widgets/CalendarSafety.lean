import Yantra.Widgets.Calendar

/-!
# What the calendar loop clicks

Whatever the page answers, the loop ends within its bound on paging, clicks one cell at most, which
is a cell of the date that can be clicked, and pages towards the month of the date. The months move
on from one click to the next where the page shows the same months when it is read again.

## Main definitions

* `MovesOn` — every click moves the months on that the next click starts from.
* `ReadsAgain`, `StopsShort` — rounds that read the same months again, and rounds that
  do not page past the month.

## Main results

* `findAndClickDate_safe` — every run is safe, and when the months move on.
-/

namespace Yantra

open CodePoints List Option CalendarRun

/-! ## Clicks -/

def clickedDays (clicks : List CalendarClick) : List CalendarCell :=
  clicks.filterMap fun
    | .day cell => some cell
    | .page _ => none

def pagingClicks (clicks : List CalendarClick) : List PagingClick :=
  clicks.filterMap fun
    | .day _ => none
    | .page click => some click

structure IsClickable (date : RequestedDate) (cell : CalendarCell) : Prop where
  derived : cell.derivedDate = date.text
  enabled : cell.disabled = false
  safe : cell.mapsUnsafely = false

/-- The month of the date is further in the direction of a click than all months displayed. -/
def TowardTarget (date : RequestedDate) (click : PagingClick) : Prop :=
  click.before ≠ [] ∧ ∀ month ∈ click.before,
    match click.direction with
    | .next => month < monthPart date.text
    | .previous => monthPart date.text < month

/-- The months read after a click are further in its direction than those before it. -/
def Advanced (click : PagingClick) : Prop :=
  ∃ after, click.after = some after ∧ advancedToward click.before after click.direction = true

structure SafeRun (date : RequestedDate) (budget : CalendarBudget) (initialActions : ℤ)
    (run : CalendarRun) : Prop where
  /-- One cell is clicked at most, -/
  once : (clickedDays run.clicks).length ≤ 1
  day : ∀ cell ∈ clickedDays run.clicks, IsClickable date cell
  /-- Every click on a control goes towards the month of the date. -/
  toward : ∀ click ∈ pagingClicks run.clicks, TowardTarget date click
  /-- The months advance with every click after which the loop goes on. -/
  advanced : ∀ click ∈ (pagingClicks run.clicks).dropLast, Advanced click
  running : run.result = none → ∀ click ∈ pagingClicks run.clicks, Advanced click
  /-- There are as many clicks on controls as the bound allows at most, -/
  paging : (pagingClicks run.clicks).length ≤ budget.maxPagingSteps.toNat
  /-- and as many clicks as actions remain. -/
  actions : run.clicks.length ≤ (budget.maxActions - initialActions).toNat
  /-- The result is a cell of the grid that was clicked last, and the actions are all counted. -/
  success : ∀ count grid substitution,
    run.result = some (.clicked count grid substitution) →
      count = initialActions + run.clicks.length ∧
        ∃ cell ∈ grid.cells, run.clicks.getLast? = some (.day cell)
  failure : ∀ failure, run.result = some (.failed failure) → clickedDays run.clicks = []

/-- Every click moves the months on, in its direction, from which the next click starts. -/
def MovesOn (clicks : List PagingClick) : Prop :=
  clicks.IsChain fun click next => advancedToward click.before next.before click.direction = true

instance (clicks : List PagingClick) : Decidable (MovesOn clicks) :=
  inferInstanceAs (Decidable (List.IsChain _ _))

def pagedOver (click : PagingClick) : Option PageText :=
  match click.direction with
  | .next => click.before.getLast?
  | .previous => click.before.head?

def ReadsAgain (run : CalendarRun) (round : CalendarRound) : Prop :=
  ∀ click after grid, run.clicks.getLast? = some (.page click) → click.after = some after →
    readWithFallback round.scopedScan round.wideScan = some grid → grid.displayedMonths = after

def PagingDirection.opposite : PagingDirection → PagingDirection
  | .next => .previous
  | .previous => .next

/-- A round does not page past the month of the date: it need not be paged back after it. -/
def StopsShort (date : RequestedDate) (round : CalendarRound) : Prop :=
  ∀ grid after direction, readWithFallback round.scopedScan round.wideScan = some grid →
    readWithFallback round.scopedScanAfter round.wideScanAfter = some after →
    directionFor (monthPart date.text) grid.displayedMonths = some direction →
    directionFor (monthPart date.text) after.displayedMonths ≠ some direction.opposite

/-! ## Directions -/

lemma pairwise_sortedSet (texts : List PageText) : (sortedSet texts).Pairwise (· ≤ ·) :=
  pairwise_insertionSort (· ≤ ·) _

variable {months : List PageText}

lemma first_le (hsorted : months.Pairwise (· ≤ ·)) {first month : PageText}
    (hfirst : months.head? = some first) (hmonth : month ∈ months) : first ≤ month := by
  obtain ⟨rest, rfl⟩ := head?_eq_some_iff.1 hfirst
  rcases mem_cons.1 hmonth with rfl | hmonth
  · exact le_rfl
  · exact rel_of_pairwise_cons hsorted hmonth

lemma le_last (hsorted : months.Pairwise (· ≤ ·)) {last month : PageText}
    (hlast : months.getLast? = some last) (hmonth : month ∈ months) : month ≤ last := by
  obtain ⟨start, rfl⟩ := getLast?_eq_some_iff.1 hlast
  rcases mem_append.1 hmonth with hmonth | hmonth
  · exact (pairwise_append.1 hsorted).2.2 month hmonth last (mem_singleton_self last)
  · exact (mem_singleton.1 hmonth).le

lemma directionFor_eq_some {target : PageText} {direction : PagingDirection}
    (h : directionFor target months = some direction) :
    ∃ first last, months.head? = some first ∧ months.getLast? = some last ∧
      (direction = .previous ∧ target < first ∨ direction = .next ∧ last < target) := by
  rw [directionFor] at h
  split at h
  next first last hfirst hlast =>
    refine ⟨first, last, hfirst, hlast, ?_⟩
    split_ifs at h with hbelow habove
    · exact .inl ⟨(some.inj h).symm, hbelow⟩
    · exact .inr ⟨(some.inj h).symm, habove⟩
  next => cases h

variable {click : PagingClick}

variable {date : RequestedDate} {grid : CalendarGridRead}

lemma towardTarget_of_directionFor (hbefore : click.before = grid.displayedMonths)
    (h : directionFor (monthPart date.text) grid.displayedMonths = some click.direction) :
    TowardTarget date click := by
  have hsorted : click.before.Pairwise (· ≤ ·) := hbefore ▸ pairwise_sortedSet _
  rw [← hbefore] at h
  obtain ⟨first, last, hfirst, hlast, hdirection⟩ := directionFor_eq_some h
  refine ⟨fun hnil => by simp [hnil] at hfirst, fun month hmonth => ?_⟩
  rcases hdirection with ⟨hdirection, hbelow⟩ | ⟨hdirection, habove⟩
  · rw [hdirection]
    exact lt_of_lt_of_le hbelow (first_le hsorted hfirst hmonth)
  · rw [hdirection]
    exact lt_of_le_of_lt (le_last hsorted hlast hmonth) habove

/-! ## What one round can do -/

/-- What a round does to the run, as far as clicks and results go. -/
inductive RoundDone (date : RequestedDate) (budget : CalendarBudget) (run : CalendarRun)
    (round : CalendarRound) (run' : CalendarRun) : Prop where
  | stopped (hclicks : run'.clicks = run.clicks)
      (hresult : (∃ failure, run'.result = some (.failed failure)) ∨ run'.result = some .thrown)
  | day (cell : CalendarCell) (grid : CalendarGridRead) (hcell : IsClickable date cell)
      (hmem : cell ∈ grid.cells) (hactions : run.actions < budget.maxActions)
      (hclicks : run'.clicks = run.clicks ++ [.day cell])
      (hresult : (∃ substitution, run'.result =
        some (.clicked (run.actions + 1) grid substitution)) ∨ run'.result = some .thrown)
  | page (click : PagingClick) (grid : CalendarGridRead)
      (hread : readWithFallback round.scopedScan round.wideScan = some grid)
      (hbefore : click.before = grid.displayedMonths)
      (hdirection : directionFor (monthPart date.text) grid.displayedMonths = some click.direction)
      (hactions : run.actions < budget.maxActions)
      (hpaging : (run.pagingSteps : ℤ) < budget.maxPagingSteps)
      (hclicks : run'.clicks = run.clicks ++ [.page click])
      (hresult : (run'.result = none ∧ run'.actions = run.actions + 1 ∧
          run'.pagingSteps = run.pagingSteps + 1 ∧ Advanced click ∧
          ∃ after, readWithFallback round.scopedScanAfter round.wideScanAfter = some after ∧
            click.after = some after.displayedMonths) ∨
        (∃ failure, run'.result = some (.failed failure)) ∨ run'.result = some .thrown)

lemma mem_of_resolved {τ : Type} {label : StructuralChoice τ → PageText}
    {normalize : PageText → PageText} {containerPath : Option (List ℤ)}
    {choices : List (StructuralChoice τ)} {choice : StructuralChoice τ}
    (h : (∃ used, resolveIndistinguishableChoice label normalize containerPath choices =
        .unique choice used) ∨ ∃ substitution,
      resolveIndistinguishableChoice label normalize containerPath choices =
        .substituted choice substitution) : choice ∈ choices := by
  have hsub := Ladder.climb_sublist (choiceRungs τ containerPath) (choices, [])
  rcases eq_or_ne choices [] with rfl | hne
  · have hnil := sublist_nil.1 hsub
    rw [resolveIndistinguishableChoice] at h
    simp [hnil] at h
  · cases hclimb : Ladder.climb (choiceRungs τ containerPath) (choices, []) with
    | mk pool used =>
      rw [hclimb] at hsub
      rcases resolveIndistinguishableChoice_spec hne hclimb with ⟨chosen, hpool, heq⟩ | ⟨-, chosen, hchosen, -, -, heq⟩ | ⟨-, -, heq⟩
      · rw [heq] at h
        obtain ⟨_, h⟩ | ⟨_, h⟩ := h
        · cases h
          exact hsub.mem (by simp [hpool])
        · cases h
      · rw [heq] at h
        obtain ⟨_, h⟩ | ⟨_, h⟩ := h
        · cases h
        · cases h
          exact hsub.mem hchosen
      · rw [heq] at h
        obtain ⟨_, h⟩ | ⟨_, h⟩ := h <;> cases h

lemma chosen_cell {pf : TextPlatform} {container : List ℤ} {choice : StructuralChoice CalendarCell}
    (h : (∃ used, choiceResolution pf date container grid = .unique choice used) ∨
      ∃ substitution, choiceResolution pf date container grid = .substituted choice substitution) :
    choice.candidate ∈ grid.cells ∧ choice.candidate.derivedDate = date.text := by
  obtain ⟨cell, hcell, rfl⟩ := List.mem_map.1 (mem_of_resolved h)
  obtain ⟨hmem, hderived⟩ := mem_filter.1 hcell
  exact ⟨hmem, of_decide_eq_true hderived⟩

variable {cell : CalendarCell}

lemma safe_of_unsafeCell (h : unsafeCell date grid = none) (hmem : cell ∈ grid.cells)
    (hderived : cell.derivedDate = date.text) : cell.mapsUnsafely = false := by
  have hmonth : (monthPart date.text ++ [45]).isPrefixOf cell.derivedDate := by
    have hget := date.hyphen
    rw [hderived, isPrefixOf_iff_prefix, monthPart]
    have htake : date.text.take 8 = date.text.take 7 ++ [45] := by
      rw [take_add_one, hget]
      rfl
    exact htake ▸ take_prefix 8 _
  have hno := find?_eq_none.1 h cell (mem_filter.2 ⟨hmem, hmonth⟩)
  simpa using hno

namespace CalendarRun

section

variable {pf : TextPlatform} {date : RequestedDate} {budget : CalendarBudget} {run : CalendarRun}
  {round : CalendarRound} {grid : CalendarGridRead}

variable {start : CalendarRun}

lemma clickDay_done (hactions : start.actions < budget.maxActions)
    (hsame : run.clicks = start.clicks ∧ run.actions = start.actions) (hmem : cell ∈ grid.cells)
    (hderived : cell.derivedDate = date.text) (hsafe : cell.mapsUnsafely = false)
    (substitution : Option ChoiceSubstitution) :
    RoundDone date budget start round (run.clickDay date round grid cell substitution) := by
  rw [clickDay]
  split_ifs with hdisabled hclicked
  · exact .stopped hsame.1 (.inl ⟨_, rfl⟩)
  · refine .day cell grid ⟨hderived, Bool.eq_false_iff.2 hdisabled, hsafe⟩ hmem hactions ?_
      (.inl ⟨substitution, ?_⟩)
    · exact congrArg (· ++ _) hsame.1
    · exact congrArg (fun n => some (ClickDateResult.clicked (n + 1) grid substitution)) hsame.2
  · exact .day cell grid ⟨hderived, Bool.eq_false_iff.2 hdisabled, hsafe⟩ hmem hactions
      (congrArg (· ++ _) hsame.1) (.inr rfl)

lemma afterPaging_done (run : CalendarRun) (date : RequestedDate) (round : CalendarRound)
    (direction : PagingDirection) (entry : PagingEntry) (before : List PageText) :
    ∃ after, (run.afterPaging date round direction entry before).clicks =
        run.clicks ++ [.page ⟨direction, entry.ref, before, after⟩] ∧
      (((run.afterPaging date round direction entry before).result = run.result ∧
          (run.afterPaging date round direction entry before).actions = run.actions + 1 ∧
          (run.afterPaging date round direction entry before).pagingSteps = run.pagingSteps + 1 ∧
          Advanced ⟨direction, entry.ref, before, after⟩ ∧
          ∃ grid, readWithFallback round.scopedScanAfter round.wideScanAfter = some grid ∧
            after = some grid.displayedMonths) ∨
        (∃ failure,
          (run.afterPaging date round direction entry before).result = some (.failed failure)) ∨
        (run.afterPaging date round direction entry before).result = some .thrown) := by
  rw [afterPaging]
  dsimp only
  split
  next resolved grid hresolved hread =>
    refine ⟨some grid.displayedMonths, ?_⟩
    split_ifs with hadvanced
    · exact ⟨rfl, .inl ⟨rfl, rfl, rfl, ⟨_, rfl, hadvanced⟩, grid, hread, rfl⟩⟩
    · exact ⟨rfl, .inr (.inl ⟨_, rfl⟩)⟩
  next => exact ⟨none, rfl, .inr (.inr rfl)⟩

lemma pageToward_done (hstart : start.result = none) (hactions : start.actions < budget.maxActions)
    (hread : readWithFallback round.scopedScan round.wideScan = some grid)
    (hsame : run = { start with displayed := run.displayed }) :
    RoundDone date budget start round (run.pageToward date budget round grid) := by
  have hclicks : run.clicks = start.clicks := by rw [hsame]
  rw [pageToward]
  split
  next => exact .stopped hclicks (.inl ⟨_, rfl⟩)
  next hbound =>
    have hpaging : (start.pagingSteps : ℤ) < budget.maxPagingSteps := by
      rw [hsame] at hbound
      exact not_le.1 hbound
    split
    next => exact .stopped hclicks (.inl ⟨_, rfl⟩)
    next direction hdirection =>
      split
      next => exact .stopped hclicks (.inr rfl)
      next interactables hinteractables =>
        split
        next => exact .stopped hclicks (.inl ⟨_, rfl⟩)
        next entry hentry =>
          split_ifs
          · exact .stopped hclicks (.inl ⟨_, rfl⟩)
          · obtain ⟨after, hafter, hresult⟩ :=
              run.afterPaging_done date round direction entry grid.displayedMonths
            refine .page ⟨direction, entry.ref, grid.displayedMonths, after⟩ grid hread rfl
              hdirection hactions hpaging (hclicks ▸ hafter) ?_
            rcases hresult with ⟨hresult, hcount, hsteps, hadvanced, hgrid⟩ | hfailed
            · refine .inl ⟨?_, ?_, ?_, hadvanced, hgrid⟩
              · rw [hresult, hsame, hstart]
              · rw [hcount, hsame]
              · rw [hsteps, hsame]
            · exact .inr hfailed
          · exact .page ⟨direction, entry.ref, grid.displayedMonths, none⟩ grid hread rfl
              hdirection hactions hpaging (congrArg (· ++ _) hclicks) (.inr (.inr rfl))

/-- **What one round can do**: it stops the loop, clicks a cell of the date, or clicks on a control
towards its month. -/
theorem step_cases (hrun : run.result = none) (round : CalendarRound) :
    RoundDone date budget run round (run.step pf date budget round) := by
  rw [step, if_neg (by simp [hrun])]
  split_ifs with hbudget
  · exact .stopped rfl (.inl ⟨_, rfl⟩)
  simp only [Bool.or_eq_true, decide_eq_true_eq, not_or, not_le] at hbudget
  split
  next => exact .stopped rfl (.inr rfl)
  next grid hread =>
    rw [withGrid]
    dsimp only
    split_ifs with hempty
    · exact .stopped rfl (.inl ⟨_, rfl⟩)
    split
    next => exact .stopped rfl (.inl ⟨_, rfl⟩)
    next hunsafe =>
      split
      next => exact .stopped rfl (.inl ⟨_, rfl⟩)
      next choice used hchoice =>
        obtain ⟨hmem, hderived⟩ := chosen_cell (.inl ⟨used, hchoice⟩)
        refine clickDay_done hbudget.2 ?_ hmem hderived
          (safe_of_unsafeCell hunsafe hmem hderived) none
        exact ⟨rfl, rfl⟩
      next choice substitution hchoice =>
        obtain ⟨hmem, hderived⟩ := chosen_cell (.inr ⟨substitution, hchoice⟩)
        refine clickDay_done hbudget.2 ?_ hmem hderived
          (safe_of_unsafeCell hunsafe hmem hderived) (some substitution)
        exact ⟨rfl, rfl⟩
      next =>
        refine pageToward_done hrun hbudget.2 hread ?_
        rfl

lemma step_of_done (h : run.result ≠ none) (round : CalendarRound) :
    run.step pf date budget round = run :=
  if_pos (isSome_iff_ne_none.2 h)

end

end CalendarRun

/-! ## Every run -/

section

variable {pf : TextPlatform} {date : RequestedDate} {budget : CalendarBudget} {initialActions : ℤ}
  {run run' : CalendarRun} {round : CalendarRound}

lemma clickedDays_append (clicks others : List CalendarClick) :
    clickedDays (clicks ++ others) = clickedDays clicks ++ clickedDays others :=
  filterMap_append

lemma pagingClicks_append (clicks others : List CalendarClick) :
    pagingClicks (clicks ++ others) = pagingClicks clicks ++ pagingClicks others :=
  filterMap_append

/-- A loop that has not ended has clicked on controls alone, and counted the clicks. -/
structure Paging (date : RequestedDate) (budget : CalendarBudget) (initialActions : ℤ)
    (run : CalendarRun) : Prop where
  days : clickedDays run.clicks = []
  pages : (pagingClicks run.clicks).length = run.clicks.length
  toward : ∀ click ∈ pagingClicks run.clicks, TowardTarget date click
  advanced : ∀ click ∈ pagingClicks run.clicks, Advanced click
  steps : run.pagingSteps = run.clicks.length
  actions : run.actions = initialActions + run.clicks.length
  bound : run.clicks.length ≤ budget.maxPagingSteps.toNat
  remaining : run.clicks.length ≤ (budget.maxActions - initialActions).toNat

lemma Paging.safe_stopped (h : Paging date budget initialActions run)
    (hclicks : run'.clicks = run.clicks)
    (hresult : (∃ failure, run'.result = some (.failed failure)) ∨ run'.result = some .thrown) :
    SafeRun date budget initialActions run' where
  once := by simp [hclicks, h.days]
  day := by simp [hclicks, h.days]
  toward := hclicks ▸ h.toward
  advanced click hclick := h.advanced click (hclicks ▸ dropLast_subset _ hclick)
  running hnone := by
    rcases hresult with ⟨_, hresult⟩ | hresult <;> simp [hresult] at hnone
  paging := by rw [hclicks, h.pages]; exact h.bound
  actions := hclicks ▸ h.remaining
  success _ _ _ hclicked := by
    rcases hresult with ⟨_, hresult⟩ | hresult <;> simp [hresult] at hclicked
  failure _ _ := by rw [hclicks, h.days]

lemma Paging.safe_day (h : Paging date budget initialActions run)
    (hcell : IsClickable date cell) (hmem : cell ∈ grid.cells)
    (hactions : run.actions < budget.maxActions) (hclicks : run'.clicks = run.clicks ++ [.day cell])
    (hresult : (∃ substitution, run'.result =
      some (.clicked (run.actions + 1) grid substitution)) ∨ run'.result = some .thrown) :
    SafeRun date budget initialActions run' := by
  have hdays : clickedDays run'.clicks = [cell] := by
    rw [hclicks, clickedDays_append, h.days]
    rfl
  have hpages : pagingClicks run'.clicks = pagingClicks run.clicks := by
    rw [hclicks, pagingClicks_append]
    exact append_nil _
  have hlength : run'.clicks.length = run.clicks.length + 1 := by simp [hclicks]
  have hcount := h.actions
  exact
    { once := by simp [hdays]
      day := fun other hother => by
        rw [hdays] at hother
        exact mem_singleton.1 hother ▸ hcell
      toward := hpages ▸ h.toward
      advanced := fun click hclick => h.advanced click (hpages ▸ dropLast_subset _ hclick)
      running := fun hnone => by
        rcases hresult with ⟨_, hresult⟩ | hresult <;> simp [hresult] at hnone
      paging := by
        rw [hpages, h.pages]
        exact h.bound
      actions := by
        rw [hlength]
        omega
      success := fun count read substitution hclicked => by
        rcases hresult with ⟨_, hresult⟩ | hresult
        · rw [hresult] at hclicked
          cases hclicked
          refine ⟨?_, cell, hmem, by simp [hclicks]⟩
          rw [hcount, hlength]
          omega
        · simp [hresult] at hclicked
      failure := fun _ hfailed => by
        rcases hresult with ⟨_, hresult⟩ | hresult <;> simp [hresult] at hfailed }

lemma Paging.safe_page (h : Paging date budget initialActions run)
    (htoward : TowardTarget date click) (hactions : run.actions < budget.maxActions)
    (hpaging : (run.pagingSteps : ℤ) < budget.maxPagingSteps)
    (hclicks : run'.clicks = run.clicks ++ [.page click])
    (hresult : (run'.result = none ∧ run'.actions = run.actions + 1 ∧
        run'.pagingSteps = run.pagingSteps + 1 ∧ Advanced click) ∨
      (∃ failure, run'.result = some (.failed failure)) ∨ run'.result = some .thrown) :
    SafeRun date budget initialActions run' ∧
      (run'.result = none → Paging date budget initialActions run') := by
  have hdays : clickedDays run'.clicks = [] := by
    rw [hclicks, clickedDays_append, h.days]
    rfl
  have hpages : pagingClicks run'.clicks = pagingClicks run.clicks ++ [click] := by
    rw [hclicks, pagingClicks_append]
    rfl
  have hlength : run'.clicks.length = run.clicks.length + 1 := by simp [hclicks]
  have hpageslength : (pagingClicks run'.clicks).length = run'.clicks.length := by
    rw [hpages, length_append, h.pages, hlength]
    rfl
  have hcount := h.actions
  have hsteps := h.steps
  have hbound : run'.clicks.length ≤ budget.maxPagingSteps.toNat := by omega
  have hremaining : run'.clicks.length ≤ (budget.maxActions - initialActions).toNat := by omega
  have htowards : ∀ other ∈ pagingClicks run'.clicks, TowardTarget date other := by
    intro other hother
    rw [hpages, mem_append, mem_singleton] at hother
    rcases hother with hother | rfl
    · exact h.toward other hother
    · exact htoward
  have hadvances : run'.result = none → ∀ other ∈ pagingClicks run'.clicks, Advanced other := by
    intro hnone other hother
    rw [hpages, mem_append, mem_singleton] at hother
    rcases hother with hother | rfl
    · exact h.advanced other hother
    · rcases hresult with ⟨-, -, -, hadvanced⟩ | ⟨_, hresult⟩ | hresult
      · exact hadvanced
      · simp [hresult] at hnone
      · simp [hresult] at hnone
  refine ⟨⟨?_, ?_, htowards, ?_, hadvances, ?_, hremaining, ?_, fun _ _ => hdays⟩, fun hnone => ?_⟩
  · simp [hdays]
  · simp [hdays]
  · rw [hpages, dropLast_concat]
    exact h.advanced
  · rw [hpageslength]
    exact hbound
  · intro _ _ _ hclicked
    rcases hresult with ⟨hresult, -⟩ | ⟨_, hresult⟩ | hresult <;> simp [hresult] at hclicked
  · rcases hresult with ⟨-, hactions', hsteps', -⟩ | ⟨_, hresult⟩ | hresult
    · exact ⟨hdays, hpageslength, htowards, hadvances hnone, by omega, by omega, hbound, hremaining⟩
    · simp [hresult] at hnone
    · simp [hresult] at hnone

/-- A run is safe, and has clicked on controls alone as long as it goes on. -/
def SafeSoFar (date : RequestedDate) (budget : CalendarBudget) (initialActions : ℤ)
    (run : CalendarRun) : Prop :=
  SafeRun date budget initialActions run ∧
    (run.result = none → Paging date budget initialActions run)

/-- **One round** keeps a run safe. -/
lemma safe_step (h : SafeSoFar date budget initialActions run) (round : CalendarRound) :
    SafeSoFar date budget initialActions (run.step pf date budget round) := by
  by_cases hrun : run.result = none
  · have hpaging := h.2 hrun
    cases @CalendarRun.step_cases pf date budget _ hrun round with
    | stopped hclicks hresult =>
      refine ⟨hpaging.safe_stopped hclicks hresult, fun hnone => ?_⟩
      rcases hresult with ⟨_, hresult⟩ | hresult <;> simp [hresult] at hnone
    | day cell grid hcell hmem hactions hclicks hresult =>
      refine ⟨hpaging.safe_day hcell hmem hactions hclicks hresult, fun hnone => ?_⟩
      rcases hresult with ⟨_, hresult⟩ | hresult <;> simp [hresult] at hnone
    | page click grid hread hbefore hdirection hactions hsteps hclicks hresult =>
      refine hpaging.safe_page (towardTarget_of_directionFor hbefore hdirection) hactions hsteps
        hclicks ?_
      exact hresult.imp_left fun ⟨hnone, hcount, hsteps', hadvanced, _⟩ =>
        ⟨hnone, hcount, hsteps', hadvanced⟩
  · rw [step_of_done hrun]
    exact h

/-- **Every run** is safe. -/
theorem safe_run (pf : TextPlatform) (container : List ℤ) (date : RequestedDate)
    (budget : CalendarBudget) (displayed : List PageText) (initialActions : ℤ)
    (rounds : List CalendarRound) :
    let M := findAndClickDate pf container date budget displayed initialActions
    SafeSoFar date budget initialActions (M.run rounds) := by
  intro M
  have hstart : Paging date budget initialActions M.init :=
    ⟨rfl, rfl, by simp [M, findAndClickDate, pagingClicks], by simp [M, findAndClickDate, pagingClicks],
      rfl, by simp [M, findAndClickDate], Nat.zero_le _, Nat.zero_le _⟩
  have hsafe : SafeRun date budget initialActions M.init :=
    { once := by simp [hstart.days]
      day := by simp [hstart.days]
      toward := hstart.toward
      advanced := fun click hclick => hstart.advanced click (dropLast_subset _ hclick)
      running := fun _ => hstart.advanced
      paging := by rw [hstart.pages]; exact hstart.bound
      actions := hstart.remaining
      success := fun _ _ _ hclicked => by simp [M, findAndClickDate] at hclicked
      failure := fun _ _ => hstart.days }
  have hstep : ∀ run round, SafeSoFar date budget initialActions run →
      SafeSoFar date budget initialActions (M.step run round) := fun _ round h => safe_step h round
  exact M.invariant_runFrom' hstep ⟨hsafe, fun _ => hstart⟩ rounds

lemma length_clicks (pf : TextPlatform) (container : List ℤ) (date : RequestedDate)
    (budget : CalendarBudget) (displayed : List PageText) (initialActions : ℤ)
    (rounds : List CalendarRound) :
    let M := findAndClickDate pf container date budget displayed initialActions
    (M.run rounds).result = none → (M.run rounds).clicks.length = rounds.length := by
  intro M
  induction rounds using reverseRecOn with
  | nil => exact fun _ => rfl
  | append_singleton rounds round ih =>
    intro hnone
    have hstep : M.run (rounds ++ [round]) = (M.run rounds).step pf date budget round :=
      M.runFrom_concat M.init rounds round
    rw [hstep] at hnone ⊢
    by_cases hrun : (M.run rounds).result = none
    · cases @CalendarRun.step_cases pf date budget _ hrun round with
      | stopped _ hresult => rcases hresult with ⟨_, hresult⟩ | hresult <;> simp [hresult] at hnone
      | day _ _ _ _ _ _ hresult =>
        rcases hresult with ⟨_, hresult⟩ | hresult <;> simp [hresult] at hnone
      | page click grid _ _ _ _ _ hclicks _ =>
        rw [hclicks, length_append, length_append, ih hrun]
        rfl
    · rw [step_of_done hrun] at hnone
      exact absurd hnone hrun

end

/-! ## When the months move on -/

section

variable {pf : TextPlatform} {date : RequestedDate} {budget : CalendarBudget} {initialActions : ℤ}
  {run : CalendarRun} {round : CalendarRound}

/-- One click is further in the direction of another one. -/
def Onward (click next : PagingClick) : Prop :=
  next.direction = click.direction ∧
    advancedToward click.before next.before click.direction = true

variable {before after : List PageText}

lemma advancedToward_next :
    advancedToward before after .next ↔
      ∃ b a, before.getLast? = some b ∧ after.getLast? = some a ∧ b < a := by
  rw [advancedToward]
  cases before.getLast? <;> cases after.getLast? <;> simp

lemma advancedToward_previous :
    advancedToward before after .previous ↔
      ∃ b a, before.head? = some b ∧ after.head? = some a ∧ a < b := by
  rw [advancedToward]
  cases before.head? <;> cases after.head? <;> simp

instance : IsTrans PagingClick Onward where
  trans p q r hpq hqr := by
    refine ⟨hqr.1.trans hpq.1, ?_⟩
    have hpq' := hpq.2
    have hqr' := hqr.2
    rw [hpq.1] at hqr'
    cases hdirection : p.direction with
    | next =>
      rw [hdirection, advancedToward_next] at hpq' hqr'
      obtain ⟨b, c, hb, hc, hlt⟩ := hpq'
      obtain ⟨c', a, hc', ha, hlt'⟩ := hqr'
      obtain rfl := Option.some.inj (hc.symm.trans hc')
      exact advancedToward_next.2 ⟨b, a, hb, ha, hlt.trans hlt'⟩
    | previous =>
      rw [hdirection, advancedToward_previous] at hpq' hqr'
      obtain ⟨b, c, hb, hc, hlt⟩ := hpq'
      obtain ⟨c', a, hc', ha, hlt'⟩ := hqr'
      obtain rfl := Option.some.inj (hc.symm.trans hc')
      exact advancedToward_previous.2 ⟨b, a, hb, ha, hlt'.trans hlt⟩

lemma Onward.pagedOver_ne {p q : PagingClick} (h : Onward p q) : pagedOver p ≠ pagedOver q := by
  obtain ⟨hdirection, hadvanced⟩ := h
  rw [pagedOver, pagedOver, hdirection]
  cases hp : p.direction with
  | next =>
    rw [hp, advancedToward_next] at hadvanced
    obtain ⟨b, a, hb, ha, hlt⟩ := hadvanced
    rw [hb, ha]
    exact fun heq => hlt.ne (some.inj heq)
  | previous =>
    rw [hp, advancedToward_previous] at hadvanced
    obtain ⟨b, a, hb, ha, hlt⟩ := hadvanced
    rw [hb, ha]
    exact fun heq => hlt.ne' (some.inj heq)

variable {clicks : List PagingClick}

/-- **No month is paged over twice** by clicks each of which is further than the one before. -/
lemma nodup_pagedOver (h : clicks.IsChain Onward) :
    (clicks.map pagedOver).Nodup ∧
      ∀ p ∈ clicks, ∀ q ∈ clicks, p.direction = q.direction := by
  have hpairwise : clicks.Pairwise Onward := isChain_iff_pairwise.1 h
  refine ⟨pairwise_map.2 (hpairwise.imp Onward.pagedOver_ne), ?_⟩
  exact fun p hp q hq => List.Pairwise.forall_of_forall_of_flip
    (R := fun p q : PagingClick => p.direction = q.direction) (fun _ _ => rfl)
    (hpairwise.imp fun hpq => hpq.1.symm) (hpairwise.imp fun hpq => hpq.1) hp hq

lemma Paging.getLast?_clicks (h : Paging date budget initialActions run)
    (hlast : (pagingClicks run.clicks).getLast? = some click) :
    run.clicks.getLast? = some (.page click) := by
  rcases eq_nil_or_concat run.clicks with hnil | ⟨clicks, last, hconcat⟩
  · rw [hnil] at hlast
    cases hlast
  · rw [concat_eq_append] at hconcat
    cases last with
    | day cell =>
      have hdays := h.days
      rw [hconcat, clickedDays_append] at hdays
      simp [clickedDays] at hdays
    | page last =>
      rw [hconcat, pagingClicks_append, show pagingClicks [.page last] = [last] from rfl,
        getLast?_concat] at hlast
      rw [hconcat, getLast?_concat, some.inj hlast]

lemma isChain_concat {R : PagingClick → PagingClick → Prop} (h : clicks.IsChain R)
    (hlast : ∀ last, clicks.getLast? = some last → R last click) :
    (clicks ++ [click]).IsChain R :=
  isChain_append.2 ⟨h, isChain_singleton click, fun last hmem next hnext => by
    rw [head?_cons, mem_def, some.injEq] at hnext
    exact hnext ▸ hlast last hmem⟩

lemma movesOn_step (hsafe : SafeSoFar date budget initialActions run)
    (hmoves : MovesOn (pagingClicks run.clicks)) (hread : ReadsAgain run round) :
    MovesOn (pagingClicks (run.step pf date budget round).clicks) := by
  by_cases hrun : run.result = none
  · cases @CalendarRun.step_cases pf date budget _ hrun round with
    | stopped hclicks => rwa [hclicks]
    | day cell _ _ _ _ hclicks =>
      rw [hclicks, pagingClicks_append]
      exact (append_nil _).symm ▸ hmoves
    | page click grid hgrid hbefore _ _ _ hclicks =>
      rw [hclicks, pagingClicks_append]
      refine isChain_concat hmoves fun last hlast => ?_
      have hpaging := hsafe.2 hrun
      obtain ⟨after, hafter, hadvanced⟩ := hpaging.advanced last (mem_of_getLast? hlast)
      rw [hbefore, hread last after grid (hpaging.getLast?_clicks hlast) hafter hgrid]
      exact hadvanced
  · rwa [step_of_done hrun]

/-- The loop goes on after a click only in the same direction, or it is at the month. -/
def KeepsDirection (date : RequestedDate) (run : CalendarRun) : Prop :=
  run.result = none → ∀ click after, run.clicks.getLast? = some (.page click) →
    click.after = some after →
    directionFor (monthPart date.text) after ≠ some click.direction.opposite

lemma eq_of_ne_opposite {direction other : PagingDirection} (h : direction ≠ other.opposite) :
    direction = other := by
  cases direction <;> cases other <;> simp_all [PagingDirection.opposite]

/-- The clicks of a round that reads the months again and does not page past the month: they go on
in the same direction. -/
lemma onward_step (hsafe : SafeSoFar date budget initialActions run)
    (honward : (pagingClicks run.clicks).IsChain Onward) (hkeeps : KeepsDirection date run)
    (hread : ReadsAgain run round) (hshort : StopsShort date round) :
    (pagingClicks (run.step pf date budget round).clicks).IsChain Onward ∧
      KeepsDirection date (run.step pf date budget round) := by
  by_cases hrun : run.result = none
  · cases @CalendarRun.step_cases pf date budget _ hrun round with
    | stopped hclicks hresult =>
      refine ⟨by rwa [hclicks], fun hnone => ?_⟩
      rcases hresult with ⟨_, hresult⟩ | hresult <;> simp [hresult] at hnone
    | day cell _ _ _ _ hclicks hresult =>
      refine ⟨?_, fun hnone => ?_⟩
      · rw [hclicks, pagingClicks_append]
        exact (append_nil _).symm ▸ honward
      · rcases hresult with ⟨_, hresult⟩ | hresult <;> simp [hresult] at hnone
    | page click grid hgrid hbefore hdirection _ _ hclicks hresult =>
      refine ⟨?_, fun hnone other after hother hafter => ?_⟩
      · rw [hclicks, pagingClicks_append]
        refine isChain_concat honward fun last hlast => ?_
        have hpaging := hsafe.2 hrun
        have hlast' := hpaging.getLast?_clicks hlast
        obtain ⟨after, hafter, hadvanced⟩ := hpaging.advanced last (mem_of_getLast? hlast)
        have hsame : grid.displayedMonths = after := hread last after grid hlast' hafter hgrid
        have hno := hkeeps hrun last after hlast' hafter
        rw [← hsame, hdirection] at hno
        refine ⟨eq_of_ne_opposite fun heq => hno (congrArg some heq), ?_⟩
        rw [hbefore, hsame]
        exact hadvanced
      · rw [hclicks, getLast?_concat] at hother
        obtain rfl : click = other := by simpa using hother
        rcases hresult with ⟨-, -, -, -, grid', hgrid', hafter'⟩ | ⟨_, hresult⟩ | hresult
        · obtain rfl := some.inj (hafter.symm.trans hafter')
          exact hshort grid grid' click.direction hgrid hgrid' hdirection
        · simp [hresult] at hnone
        · simp [hresult] at hnone
  · rw [step_of_done hrun]
    exact ⟨honward, hkeeps⟩

end

/-! ## The loop -/

/-- **What the loop clicks**: on every page, it ends after as many rounds as its bound on paging
allows, and one, and what it clicks is safe. Where each round reads the months again that the round
before read last, every click moves the months on for the next one; and
where moreover no round pages past the month of the date, all clicks go in one direction, and no
month is paged over twice. -/
theorem findAndClickDate_safe (pf : TextPlatform) (container : List ℤ) (date : RequestedDate)
    (budget : CalendarBudget) (displayed : List PageText) (initialActions : ℤ) :
    let M := findAndClickDate pf container date budget displayed initialActions
    (∀ rounds : ℕ → CalendarRound,
      (M.run (Machine.firstInputs rounds (budget.maxPagingSteps.toNat + 1))).result ≠ none) ∧
    ∀ rounds : List CalendarRound,
      SafeRun date budget initialActions (M.run rounds) ∧
      (M.Along ReadsAgain M.init rounds → MovesOn (pagingClicks (M.run rounds).clicks)) ∧
      (M.Along (fun run round => ReadsAgain run round ∧ StopsShort date round) M.init rounds →
        ((pagingClicks (M.run rounds).clicks).map pagedOver).Nodup ∧
          ∀ p ∈ pagingClicks (M.run rounds).clicks, ∀ q ∈ pagingClicks (M.run rounds).clicks,
            p.direction = q.direction) := by
  intro M
  have hsafe := safe_run pf container date budget displayed initialActions
  have hstep : ∀ run round, SafeSoFar date budget initialActions run →
      SafeSoFar date budget initialActions (M.step run round) := fun _ round h => safe_step h round
  refine ⟨fun rounds hnone => ?_, fun rounds => ⟨(hsafe rounds).1, fun halong => ?_, fun halong => ?_⟩⟩
  · have hlength := length_clicks pf container date budget displayed initialActions _ hnone
    have hbound := ((hsafe _).2 hnone).bound
    rw [hlength, Machine.firstInputs, List.length_map, List.length_range] at hbound
    omega
  · have hinv : ∀ run round, SafeSoFar date budget initialActions run ∧
        MovesOn (pagingClicks run.clicks) → ReadsAgain run round →
        SafeSoFar date budget initialActions (M.step run round) ∧
          MovesOn (pagingClicks (M.step run round).clicks) :=
      fun run round h hread => ⟨hstep run round h.1, movesOn_step h.1 h.2 hread⟩
    exact (Machine.invariant_runFrom hinv ⟨hsafe [], List.isChain_nil⟩ halong).2
  · have hinv : ∀ run round, SafeSoFar date budget initialActions run ∧
        (pagingClicks run.clicks).IsChain Onward ∧ KeepsDirection date run →
        ReadsAgain run round ∧ StopsShort date round →
        SafeSoFar date budget initialActions (M.step run round) ∧
          (pagingClicks (M.step run round).clicks).IsChain Onward ∧
            KeepsDirection date (M.step run round) :=
      fun run round h hround => ⟨hstep run round h.1, onward_step h.1 h.2.1 h.2.2 hround.1 hround.2⟩
    have hstart : KeepsDirection date M.init := fun _ _ _ hno => by cases hno
    exact nodup_pagedOver
      (Machine.invariant_runFrom hinv ⟨hsafe [], List.isChain_nil, hstart⟩ halong).2.1

/-! ## Examples -/

def oneDay (date : String) : CalendarScan where
  cells := [{ monthLabel := (ofString date).take 7, derivedDate := ofString date,
              weekdayFromColumn := none, weekdayFromDate := 0, disabled := false, selected := false,
              name := ofString "15", group := none, path := [0], mapsUnsafely := false }]
  containerResolved := true
  monthsParsed := []
  elementsScanned := 1

/-- A page that is paged by months or years, before and after a click. -/
def pagedRound (step before after : String) : CalendarRound where
  scopedScan := some (oneDay before)
  interactables := some [⟨ofString "e1", ofString ("Previous " ++ step), false⟩,
    ⟨ofString "e2", ofString ("Next " ++ step), false⟩]
  scopedScanAfter := some (oneDay after)

def tenthOfMarch : RequestedDate := ⟨ofString "2026-03-10", rfl⟩

/-- A page that shows January again after the click into February. -/
def flappingRun : CalendarRun :=
  (findAndClickDate examplePages [] tenthOfMarch ⟨12, 24⟩ [] 0).run
    [pagedRound "month" "2026-01-15" "2026-02-15", pagedRound "month" "2026-01-15" "2026-02-15"]

/-- A page that is paged by years, into the next January and back. -/
def yearlyRun : CalendarRun :=
  (findAndClickDate examplePages [] tenthOfMarch ⟨12, 24⟩ [] 0).run
    [pagedRound "year" "2026-01-15" "2027-01-15", pagedRound "year" "2027-01-15" "2026-01-15",
      pagedRound "year" "2026-01-15" "2027-01-15"]

/-- January is paged over twice where the page shows it again, and where it is paged by years. -/
theorem january_paged_over_twice :
    (flappingRun.result = none ∧ ¬ MovesOn (pagingClicks flappingRun.clicks) ∧
      ¬ ((pagingClicks flappingRun.clicks).map pagedOver).Nodup) ∧
    yearlyRun.result = none ∧
      (pagingClicks yearlyRun.clicks).map PagingClick.direction = [.next, .previous, .next] ∧
      ¬ ((pagingClicks yearlyRun.clicks).map pagedOver).Nodup := by
  decide +kernel

end Yantra
