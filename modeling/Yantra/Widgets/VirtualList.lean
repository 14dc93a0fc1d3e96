import Mathlib.Data.Rat.Init
import Yantra.Interaction.Choice

/-!
# Scanning a list that mounts a window at a time

`scanVirtualOptions` ranks the options a page has mounted, scrolls, waits for the next window and
ranks that. Whether a window offers anything new is judged by the identities seen so far, of which
only the first 500 are remembered: a list that mounts again what comes after them is scrolled on.
What the page mounts, how it scrolls and what time it is are inputs.

## Main definitions

* `scanVirtualOptions` — the scan.
* `ScanLaw`, `RemembersRecycled` — what it promises, and when it keeps it.

## Main results

* `scanLaw_iff` — the scan keeps its promise exactly then.
-/

namespace Yantra

open List

/-! ## A read that is stable -/

section

variable {τ φ : Type} [DecidableEq φ] (fingerprint : τ → φ) (quietPolls : ℕ) (pollMs deadlineMs : ℤ)
  (now : ℕ → ℤ) (read : ℕ → τ)

/-- The loop of `readWhenStable` after `n + 1` reads, as many rounds as there is fuel. -/
def stableFrom : ℕ → ℕ → ℕ → τ
  | 0, n, _ => read n
  | fuel + 1, n, repeats =>
    if quietPolls ≤ repeats then read n
    else if now n + pollMs > deadlineMs then read n
    else
      stableFrom fuel (n + 1)
        (if fingerprint (read (n + 1)) = fingerprint (read n) then repeats + 1 else 1)

/-- It ends by itself: with a read before which as many were alike as ought to be, or with one after
which the time is up. -/
lemma stableFrom_ends {fuel n repeats : ℕ} (htime : now (n + fuel) + pollMs > deadlineMs)
    (hn : repeats ≤ n + 1)
    (halike : ∀ i, n < i + repeats → i ≤ n → fingerprint (read i) = fingerprint (read n)) :
    ∃ m, stableFrom fingerprint quietPolls pollMs deadlineMs now read (fuel + 1) n repeats = read m ∧
      (now m + pollMs > deadlineMs ∨
        ∀ i, m < i + quietPolls → i ≤ m → fingerprint (read i) = fingerprint (read m)) := by
  induction fuel generalizing n repeats with
  | zero =>
    rw [Nat.add_zero] at htime
    refine ⟨n, ?_, .inl htime⟩
    rw [stableFrom, if_pos htime, ite_self]
  | succ fuel ih =>
    have htime' : now (n + 1 + fuel) + pollMs > deadlineMs := by
      rwa [Nat.add_right_comm, Nat.add_assoc]
    rw [stableFrom]
    split_ifs with hquiet hlate hsame
    · exact ⟨n, rfl, .inr fun i hi hle => halike i (by omega) hle⟩
    · exact ⟨n, rfl, .inl hlate⟩
    · refine ih htime' (by omega) fun i hi hle => ?_
      obtain rfl | hlt := Nat.eq_or_lt_of_le hle
      · rfl
      · exact (halike i (by omega) (by omega)).trans hsame.symm
    · refine ih htime' (by omega) fun i hi hle => ?_
      obtain rfl : i = n + 1 := by omega
      rfl

end

/-! ## The page and the scan -/

/-- `WidgetCandidate` -/
structure WidgetCandidate where
  name : PageText
  role : PageText
  disabled : Bool
  path : List ℤ
  group : Option PageText := none
  selected : Bool := false
  deriving DecidableEq

def WidgetCandidate.rankable (c : WidgetCandidate) : RankableOption where
  name := c.name
  disabled := c.disabled
  selected := c.selected
  path := some c.path

structure ScrollFrame where
  scrollTop : ℚ
  scrollHeight : ℚ
  clientHeight : ℚ
  moved : Bool
  atEnd : Bool

/-- What the page answers: the options mounted at first, and after each scroll the reads of the
options and of the clock, the latter first asked before the scroll. -/
structure ScrolledPage where
  mounted : List WidgetCandidate
  scroll : ℕ → Option ScrollFrame
  reads : ℕ → ℕ → List WidgetCandidate
  clock : ℕ → ℕ → ℤ
  /-- Time passes. -/
  passes : ∀ step (t : ℤ), ∃ k, t < clock step (k + 1)

/-- `WidgetBudget`, as far as the scan reads it. -/
structure ScanBudget where
  deadlineMs : ℤ
  maxActions : ℕ
  maxScrollSteps : ℕ

structure ScanCall where
  containerPath : List ℤ
  requested : PageText
  budget : ScanBudget
  /-- `spent` -/
  actions : ℕ := 0
  firstWindow : Option (List WidgetCandidate) := none

inductive VirtualListStop where
  | matched | notScrollable | reachedEnd | noNewOptions | scrollPositionUnchanged | stepCap | budget
  deriving DecidableEq

structure VirtualListCursor where
  windows : ℕ := 0
  scrolls : ℕ := 0
  seen : List PageText := []
  offered : List PageText := []
  scrollTop : ℚ := 0
  scrollHeight : ℚ := 0
  clientHeight : ℚ := 0
  atEnd : Bool := false
  stoppedBecause : VirtualListStop := .matched

inductive VirtualListScan where
  | found (candidate : WidgetCandidate) (substitution : Option ChoiceSubstitution)
  | ambiguous (offered : List PageText)
  | none

/-- The end of a scan, with the windows that were ranked and the scrolls asked of the page. -/
structure ScanRun where
  scan : VirtualListScan
  cursor : VirtualListCursor
  examined : List (List WidgetCandidate)
  scrollCalls : ℕ

def MAX_TRACKED_OPTION_IDENTITIES : ℕ := 500

section

variable (pf : TextPlatform)

def optionIdentity (candidate : WidgetCandidate) : PageText :=
  normalizeText pf candidate.name ++ 0 :: candidate.role

/-- The cursor with a fresh identity remembered and its label offered, while there is room. -/
def VirtualListCursor.track (s : VirtualListCursor) (identity name : PageText) :
    VirtualListCursor :=
  { s with
    seen := if s.seen.length < MAX_TRACKED_OPTION_IDENTITIES then s.seen ++ [identity] else s.seen
    offered := if s.offered.length < MAX_RANKED_OFFERED then s.offered ++ [name] else s.offered }

/-- The turn of the loop over a window on one candidate, with the count of fresh identities. -/
def trackOption (s : VirtualListCursor × ℕ) (candidate : WidgetCandidate) :
    VirtualListCursor × ℕ :=
  if candidate.disabled then s
  else if optionIdentity pf candidate ∈ s.1.seen then s
  else (s.1.track (optionIdentity pf candidate) candidate.name, s.2 + 1)

variable (page : ScrolledPage) (call : ScanCall)

/-- What `readWhenStable` makes of the window that a scroll mounts. -/
def settledWindow (step : ℕ) : List WidgetCandidate :=
  stableFrom (fun candidates : List WidgetCandidate => candidates.map (·.name)) 2 30
    call.budget.deadlineMs (fun k => page.clock step (k + 1)) (page.reads step)
    (Nat.find (page.passes step call.budget.deadlineMs) + 1) 0 1

/-- A turn of the loop: the end of the scan, or the cursor and the window of the next turn. -/
def scanStep (s : VirtualListCursor) (examined : List (List WidgetCandidate))
    (window : List WidgetCandidate) : ScanRun ⊕ VirtualListCursor × List WidgetCandidate :=
  let s := { s with windows := s.windows + 1 }
  let stop (scan : VirtualListScan) (s : VirtualListCursor) (calls : ℕ) (why : VirtualListStop) :=
    Sum.inl ⟨scan, { s with stoppedBecause := why }, examined ++ [window], calls⟩
  match rankAgainstRequested pf WidgetCandidate.rankable window call.requested
      (some call.containerPath) with
  | .found candidate substitution => stop (.found candidate substitution) s s.scrolls .matched
  | .ambiguous offered => stop (.ambiguous offered) s s.scrolls .matched
  | .none _ =>
    let tracked := window.foldl (trackOption pf) (s, 0)
    let s := tracked.1
    if 1 < s.windows ∧ tracked.2 = 0 then stop .none s s.scrolls .noNewOptions
    else if call.budget.maxScrollSteps ≤ s.scrolls then stop .none s s.scrolls .stepCap
    else if page.clock s.scrolls 0 > call.budget.deadlineMs ∨
        call.actions + s.scrolls + 1 > call.budget.maxActions then stop .none s s.scrolls .budget
    else
      match page.scroll s.scrolls with
      | none => stop .none s (s.scrolls + 1) .notScrollable
      | some frame =>
        let next := { s with
          scrolls := s.scrolls + 1
          scrollTop := frame.scrollTop
          scrollHeight := frame.scrollHeight
          clientHeight := frame.clientHeight
          atEnd := frame.atEnd }
        if !frame.moved then stop .none next next.scrolls .scrollPositionUnchanged
        else .inr (next, settledWindow page call s.scrolls)

/-- The loop, as many turns as there is fuel; it never runs out of it. -/
def scanLoop : ℕ → VirtualListCursor → List (List WidgetCandidate) → List WidgetCandidate → ScanRun
  | 0, s, examined, _ => ⟨.none, s, examined, s.scrolls⟩
  | fuel + 1, s, examined, window =>
    match scanStep pf page call s examined window with
    | .inl run => run
    | .inr (s, next) => scanLoop fuel s (examined ++ [window]) next

def scanVirtualOptions : ScanRun :=
  scanLoop pf page call (call.budget.maxScrollSteps + 1) {} []
    (call.firstWindow.getD page.mounted)

lemma settledWindow_ends (page : ScrolledPage) (call : ScanCall) (step : ℕ) :
    ∃ m, settledWindow page call step = page.reads step m ∧
      (page.clock step (m + 1) + 30 > call.budget.deadlineMs ∨ ∀ i, m < i + 2 → i ≤ m →
        (page.reads step i).map (·.name) = (page.reads step m).map (·.name)) := by
  have htime := Nat.find_spec (page.passes step call.budget.deadlineMs)
  refine stableFrom_ends _ _ _ _ _ _ ?_ le_rfl fun i hi hle => ?_
  · rw [Nat.zero_add]
    omega
  · obtain rfl := Nat.le_zero.1 hle
    rfl

/-! ## What a scan promises -/

def windowAt : ℕ → List WidgetCandidate
  | 0 => call.firstWindow.getD page.mounted
  | n + 1 => settledWindow page call n

def offeredIdentities (window : List WidgetCandidate) : List PageText :=
  (window.filter fun c => !c.disabled).map (optionIdentity pf)

/-- A list of distinct identities with one more, unless it is there. -/
def noteIdentity (all : List PageText) (identity : PageText) : List PageText :=
  if identity ∈ all then all else all ++ [identity]

/-- The distinct identities of the windows before a turn, as they were first seen. -/
def identitiesBefore : ℕ → List PageText
  | 0 => []
  | n + 1 => (offeredIdentities pf (windowAt page call n)).foldl noteIdentity (identitiesBefore n)

/-- No option of the window answers the request, and no tie between options does. -/
def Unanswered (n : ℕ) : Prop :=
  ∃ offered, rankAgainstRequested pf WidgetCandidate.rankable (windowAt page call n) call.requested
    (some call.containerPath) = .none offered

/-- The window offers no identity that an earlier one had not. -/
def Stale (n : ℕ) : Prop :=
  ∀ identity ∈ offeredIdentities pf (windowAt page call n),
    ∃ m < n, identity ∈ offeredIdentities pf (windowAt page call m)

/-- Every identity the window offers is among the first 500. -/
def Recalled (n : ℕ) : Prop :=
  ∀ identity ∈ offeredIdentities pf (windowAt page call n),
    identity ∈ (identitiesBefore pf page call n).take MAX_TRACKED_OPTION_IDENTITIES

def scrollsLeft : ℕ :=
  min call.budget.maxScrollSteps (call.budget.maxActions - call.actions)

def GoesOn (n : ℕ) : Prop :=
  Unanswered pf page call n ∧ (1 ≤ n → ¬ Recalled pf page call n) ∧ n < scrollsLeft call ∧
    page.clock n 0 ≤ call.budget.deadlineMs ∧ ∃ frame, page.scroll n = some frame ∧ frame.moved

structure ScanLaw : Prop where
  bounded : (scanVirtualOptions pf page call).scrollCalls ≤ scrollsLeft call
  charged : (scanVirtualOptions pf page call).cursor.scrolls ≤
    (scanVirtualOptions pf page call).scrollCalls
  /-- Each window is ranked once. -/
  once : (scanVirtualOptions pf page call).examined =
    (List.range (scanVirtualOptions pf page call).cursor.windows).map (windowAt page call)
  candidate : ∀ c substitution, (scanVirtualOptions pf page call).scan = .found c substitution →
    ∃ window, (scanVirtualOptions pf page call).examined.getLast? = some window ∧ c ∈ window
  /-- It stops at the first window that offers nothing new. -/
  stops : ∀ n, 1 ≤ n → n < (scanVirtualOptions pf page call).cursor.windows →
    Stale pf page call n → (scanVirtualOptions pf page call).cursor.windows = n + 1 ∧
      (Unanswered pf page call n → (scanVirtualOptions pf page call).scan = .none ∧
        (scanVirtualOptions pf page call).cursor.stoppedBecause = .noNewOptions)

/-- What recycles at a turn that the scan comes to is among the first 500 identities. -/
def RemembersRecycled : Prop :=
  ∀ n, 1 ≤ n → (∀ m < n, GoesOn pf page call m) → Unanswered pf page call n →
    Stale pf page call n → Recalled pf page call n

end

/-! ## What the scan remembers -/

section

variable {pf : TextPlatform} {page : ScrolledPage} {call : ScanCall}

lemma foldl_noteIdentity_of_nodup {identities all : List PageText} (h : (all ++ identities).Nodup) :
    identities.foldl noteIdentity all = all ++ identities := by
  induction identities generalizing all with
  | nil => simp
  | cons identity identities ih =>
    have hnew : identity ∉ all := fun hmem =>
      disjoint_of_nodup_append h hmem mem_cons_self
    rw [foldl_cons, noteIdentity, if_neg hnew, ih (by simpa using h), append_assoc,
      singleton_append]

/-- Of the distinct identities the first 500 are remembered. -/
lemma take_noteIdentity (all : List PageText) (identity : PageText) :
    (noteIdentity all identity).take MAX_TRACKED_OPTION_IDENTITIES =
      if identity ∈ all.take MAX_TRACKED_OPTION_IDENTITIES then
        all.take MAX_TRACKED_OPTION_IDENTITIES
      else if (all.take MAX_TRACKED_OPTION_IDENTITIES).length < MAX_TRACKED_OPTION_IDENTITIES then
        all.take MAX_TRACKED_OPTION_IDENTITIES ++ [identity]
      else all.take MAX_TRACKED_OPTION_IDENTITIES := by
  have hmem : identity ∈ all.take MAX_TRACKED_OPTION_IDENTITIES → identity ∈ all :=
    mem_of_mem_take
  rcases Nat.lt_or_ge all.length MAX_TRACKED_OPTION_IDENTITIES with hlt | hge
  · have hall : all.take MAX_TRACKED_OPTION_IDENTITIES = all := take_of_length_le hlt.le
    rw [hall, if_pos hlt, noteIdentity]
    split_ifs with h
    · exact hall
    · exact take_of_length_le (by rw [length_append]; exact hlt)
  · have hfull : ¬ (all.take MAX_TRACKED_OPTION_IDENTITIES).length <
        MAX_TRACKED_OPTION_IDENTITIES := by
      rw [length_take]
      omega
    rw [if_neg hfull, ite_self, noteIdentity]
    split_ifs with h
    · rfl
    · exact take_append_of_le_length hge

lemma foldl_trackOption (window : List WidgetCandidate) (s : VirtualListCursor) (fresh : ℕ) :
    (window.foldl (trackOption pf) (s, fresh)).1.windows = s.windows ∧
    (window.foldl (trackOption pf) (s, fresh)).1.scrolls = s.scrolls ∧
    (∀ all : List PageText, s.seen = all.take MAX_TRACKED_OPTION_IDENTITIES →
      (window.foldl (trackOption pf) (s, fresh)).1.seen =
        ((offeredIdentities pf window).foldl noteIdentity all).take
          MAX_TRACKED_OPTION_IDENTITIES) ∧
    fresh ≤ (window.foldl (trackOption pf) (s, fresh)).2 ∧
    ((window.foldl (trackOption pf) (s, fresh)).2 = fresh ↔
      ∀ identity ∈ offeredIdentities pf window, identity ∈ s.seen) := by
  induction window generalizing s fresh with
  | nil => simp [offeredIdentities]
  | cons c window ih =>
    rw [foldl_cons]
    by_cases hdisabled : c.disabled
    · have hsame : offeredIdentities pf (c :: window) = offeredIdentities pf window := by
        simp [offeredIdentities, hdisabled]
      rw [hsame, trackOption, if_pos hdisabled]
      exact ih s fresh
    have hids : offeredIdentities pf (c :: window) =
        optionIdentity pf c :: offeredIdentities pf window := by
      simp [offeredIdentities, hdisabled]
    rw [hids, trackOption, if_neg hdisabled]
    by_cases hseen : optionIdentity pf c ∈ s.seen
    · rw [if_pos hseen, forall_mem_cons]
      obtain ⟨hw, hs, hall, hle, hfresh⟩ := ih s fresh
      refine ⟨hw, hs, fun all htake => hall _ ?_, hle, ?_⟩
      · rw [take_noteIdentity, ← htake, if_pos hseen]
      · rw [and_iff_right hseen]
        exact hfresh
    · rw [if_neg hseen, forall_mem_cons]
      obtain ⟨hw, hs, hall, hle, -⟩ := ih (s.track (optionIdentity pf c) c.name) (fresh + 1)
      dsimp only
      refine ⟨hw, hs, fun all htake => hall _ ?_, by omega, by omega, fun h => absurd h.1 hseen⟩
      rw [take_noteIdentity, ← htake, if_neg hseen]
      rfl

/-! ## A turn -/

structure InTurn (pf : TextPlatform) (page : ScrolledPage) (call : ScanCall) (n : ℕ)
    (s : VirtualListCursor) : Prop where
  windows : s.windows = n
  scrolls : s.scrolls = n
  left : n ≤ scrollsLeft call
  seen : s.seen = (identitiesBefore pf page call n).take MAX_TRACKED_OPTION_IDENTITIES

structure EndedAt (pf : TextPlatform) (page : ScrolledPage) (call : ScanCall) (n : ℕ)
    (run : ScanRun) : Prop where
  stuck : ¬ GoesOn pf page call n
  windows : run.cursor.windows = n + 1
  bounded : run.scrollCalls ≤ scrollsLeft call
  charged : run.cursor.scrolls ≤ run.scrollCalls
  candidate : ∀ c substitution, run.scan = .found c substitution → c ∈ windowAt page call n
  reason : Unanswered pf page call n → (1 ≤ n ∧ Recalled pf page call n ↔
    run.scan = .none ∧ run.cursor.stoppedBecause = .noNewOptions)

variable {s : VirtualListCursor}

/-- **A turn** ends the scan, or the page goes on. -/
lemma scanStep_spec {n : ℕ} (hs : InTurn pf page call n s) (examined : List (List WidgetCandidate))
    :
    (∃ run, scanStep pf page call s examined (windowAt page call n) = .inl run ∧
      run.examined = examined ++ [windowAt page call n] ∧ EndedAt pf page call n run) ∨
    ∃ next, scanStep pf page call s examined (windowAt page call n) =
      .inr (next, windowAt page call (n + 1)) ∧ GoesOn pf page call n ∧
      InTurn pf page call (n + 1) next := by
  have hleft := hs.left
  unfold scanStep
  cases hrank : rankAgainstRequested pf WidgetCandidate.rankable (windowAt page call n)
      call.requested (some call.containerPath) with
  | found c substitution =>
    have hanswered : ¬ Unanswered pf page call n := fun ⟨_, h⟩ => by cases hrank.symm.trans h
    obtain ⟨-, -, tier, choice, -, hmem, -⟩ := rankAgainstRequested_match hrank
    refine .inl ⟨_, rfl, rfl, fun h => hanswered h.1, by simp [hs.windows], ?_, le_rfl,
      fun c' _ h => ?_, fun h => absurd h hanswered⟩
    · exact hs.scrolls.trans_le hleft
    · cases h
      exact mem_of_mem_filter (mem_of_mem_filter hmem)
  | ambiguous offered =>
    have hanswered : ¬ Unanswered pf page call n := fun ⟨_, h⟩ => by cases hrank.symm.trans h
    exact .inl ⟨_, rfl, rfl, fun h => hanswered h.1, by simp [hs.windows],
      hs.scrolls.trans_le hleft, le_rfl, fun _ _ h => (nomatch h), fun h => absurd h hanswered⟩
  | none offered =>
    have hunanswered : Unanswered pf page call n := ⟨offered, hrank⟩
    obtain ⟨hwindows, hscrolls, hseen, -, hfresh⟩ := @foldl_trackOption pf
      (windowAt page call n) { s with windows := s.windows + 1 } 0
    dsimp only at hwindows hscrolls hseen hfresh ⊢
    set tracked := (windowAt page call n).foldl (trackOption pf)
      ({ s with windows := s.windows + 1 }, 0)
    rw [hs.windows] at hwindows
    rw [hs.scrolls] at hscrolls
    have hseen' := hseen _ hs.seen
    have hrecalled : tracked.2 = 0 ↔ Recalled pf page call n := by
      rw [hfresh, hs.seen]
      rfl
    rw [hwindows, hscrolls]
    split_ifs with hstale hcap hbudget
    · have hrec := hrecalled.1 hstale.2
      exact .inl ⟨_, rfl, rfl, fun h => h.2.1 (by omega) hrec, rfl, hleft, le_rfl,
        fun _ _ h => (nomatch h), fun _ => ⟨fun _ => ⟨rfl, rfl⟩, fun _ => ⟨by omega, hrec⟩⟩⟩
    all_goals
      have hfresh' : 1 ≤ n → ¬ Recalled pf page call n := fun hn hrec =>
        hstale ⟨by omega, hrecalled.2 hrec⟩
    · refine .inl ⟨_, rfl, rfl, fun h => ?_, rfl, hleft, le_rfl, fun _ _ h => (nomatch h),
        fun _ => ⟨fun h => absurd h.2 (hfresh' h.1), fun h => (nomatch h.2)⟩⟩
      have hlt := h.2.2.1
      simp only [scrollsLeft] at hlt
      omega
    · refine .inl ⟨_, rfl, rfl, fun h => ?_, rfl, hleft, le_rfl, fun _ _ h => (nomatch h),
        fun _ => ⟨fun h => absurd h.2 (hfresh' h.1), fun h => (nomatch h.2)⟩⟩
      have hlt := h.2.2.1
      have hnow := h.2.2.2.1
      simp only [scrollsLeft] at hlt
      omega
    · have hlt : n < scrollsLeft call := by
        simp only [scrollsLeft]
        omega
      have hnow : page.clock n 0 ≤ call.budget.deadlineMs := by omega
      cases hframe : page.scroll n with
      | none =>
        refine .inl ⟨_, rfl, rfl, fun h => ?_, rfl, hlt, Nat.le_succ n, fun _ _ h => (nomatch h),
          fun _ => ⟨fun h => absurd h.2 (hfresh' h.1), fun h => (nomatch h.2)⟩⟩
        obtain ⟨-, -, -, -, frame, hsome, -⟩ := h
        cases hframe.symm.trans hsome
      | some frame =>
        dsimp only
        by_cases hmoved : frame.moved
        · rw [if_neg (by simp [hmoved])]
          exact .inr ⟨_, rfl, ⟨hunanswered, hfresh', hlt, hnow, frame, hframe, hmoved⟩, rfl, rfl, hlt,
            hseen'⟩
        · rw [if_pos (by simp [hmoved])]
          refine .inl ⟨_, rfl, rfl, fun h => ?_, rfl, hlt, le_rfl, fun _ _ h => (nomatch h),
            fun _ => ⟨fun h => absurd h.2 (hfresh' h.1), fun h => (nomatch h.2)⟩⟩
          obtain ⟨-, -, -, -, frame', hsome, hmoved'⟩ := h
          cases hframe.symm.trans hsome
          exact hmoved hmoved'

/-- **The loop ends** at the first turn after which the page does not go on. -/
lemma scanLoop_spec (fuel n : ℕ) (hs : InTurn pf page call n s)
    (hon : ∀ m < n, GoesOn pf page call m) (hfuel : n + fuel = call.budget.maxScrollSteps + 1) :
    ∃ k, (∀ m < k, GoesOn pf page call m) ∧
      (scanLoop pf page call fuel s ((range n).map (windowAt page call))
        (windowAt page call n)).examined = (range (k + 1)).map (windowAt page call) ∧
      EndedAt pf page call k (scanLoop pf page call fuel s
        ((range n).map (windowAt page call)) (windowAt page call n)) := by
  induction fuel generalizing n s with
  | zero =>
    have hleft := hs.left
    simp only [scrollsLeft] at hleft
    omega
  | succ fuel ih =>
    have hexamined : (range n).map (windowAt page call) ++ [windowAt page call n] =
        (range (n + 1)).map (windowAt page call) := by
      rw [range_succ, map_append, map_singleton]
    rcases scanStep_spec hs ((range n).map (windowAt page call)) with
      ⟨run, hstep, hran, hended⟩ | ⟨next, hstep, hgoes, hnext⟩
    · rw [scanLoop, hstep]
      exact ⟨n, hon, hran.trans hexamined, hended⟩
    · rw [scanLoop, hstep, hexamined]
      refine ih (n + 1) hnext (fun m hm => ?_) (by omega)
      obtain hlt | rfl := Nat.lt_succ_iff_lt_or_eq.1 hm
      · exact hon m hlt
      · exact hgoes

lemma scanVirtualOptions_ends : ∃ k, (∀ m < k, GoesOn pf page call m) ∧
    (scanVirtualOptions pf page call).examined = (range (k + 1)).map (windowAt page call) ∧
    EndedAt pf page call k (scanVirtualOptions pf page call) :=
  scanLoop_spec (call.budget.maxScrollSteps + 1) 0 ⟨rfl, rfl, Nat.zero_le _, rfl⟩
    (fun _ h => absurd h (Nat.not_lt_zero _)) (Nat.zero_add _)

lemma remembersRecycled_of_scanLaw (h : ScanLaw pf page call) : RemembersRecycled pf page call := by
  obtain ⟨k, hon, -, hended⟩ := @scanVirtualOptions_ends pf page call
  intro n hn hbefore hunanswered hstale
  have hnk : n ≤ k := not_lt.1 fun hlt => hended.stuck (hbefore k hlt)
  obtain ⟨hwindows, hstop⟩ := h.stops n hn (by rw [hended.windows]; omega) hstale
  obtain rfl : k = n := by
    rw [hended.windows] at hwindows
    omega
  exact ((hended.reason hunanswered).2 (hstop hunanswered)).2

/-- **The scan keeps its promise exactly when what recycles is remembered**: every window after the
first that the scan comes to, that does not answer the request and offers identities of earlier
windows only, offers only identities among the first 500.

**Proof sketch.** The loop ends at the first turn `k` after which the page does not go on. At a
turn before `k` something was not recalled, so by the condition the window was not stale; at `k` a
stale window is recalled, which is what the code stops at. -/
theorem scanLaw_iff (pf : TextPlatform) (page : ScrolledPage) (call : ScanCall) :
    ScanLaw pf page call ↔ RemembersRecycled pf page call := by
  refine ⟨remembersRecycled_of_scanLaw, fun hremembers => ?_⟩
  obtain ⟨k, hon, hexamined, hended⟩ :=
    @scanVirtualOptions_ends pf page call
  refine ⟨hended.bounded, hended.charged, hexamined.trans (by rw [hended.windows]),
    fun c substitution hfound => ⟨windowAt page call k, ?_, hended.candidate c _ hfound⟩,
    fun n hn hlt hstale => ?_⟩
  · rw [hexamined, List.range_succ, List.map_append, List.map_singleton, List.getLast?_concat]
  · rw [hended.windows] at hlt ⊢
    obtain hlt' | rfl := Nat.lt_succ_iff_lt_or_eq.1 hlt
    · have hgoes := hon n hlt'
      exact absurd (hremembers n hn (fun m hm => hon m (hm.trans hlt')) hgoes.1 hstale)
        (hgoes.2.1 hn)
    · exact ⟨rfl, fun hunanswered => (hended.reason hunanswered).1
        ⟨hn, hremembers n hn hon hunanswered hstale⟩⟩

end

/-! ## A list that recycles its last row -/

/-- Unicode on the ideographs, which are letters without case. -/
def ideographPages : TextPlatform :=
  { examplePages with isLetter c := decide (0x4E00 ≤ c ∧ c ≤ 0x9FFF) }

def rowOption (row : ℕ) : WidgetCandidate where
  name := [0x4E00 + row]
  role := pageText "option"
  disabled := false
  path := [1, 0, row]

def rowIdentity (row : ℕ) : PageText := (0x4E00 + row) :: 0 :: pageText "option"

/-- 501 rows, and after every scroll the last of them again. -/
def recyclingPage : ScrolledPage where
  mounted := (List.range 501).map rowOption
  scroll _ := some ⟨0, 0, 0, true, false⟩
  reads _ _ := [rowOption 500]
  clock _ k := k
  passes _ t := ⟨t.toNat, by omega⟩

/-- A row that is not there is asked for, with the budget a widget has. -/
def recyclingCall : ScanCall where
  containerPath := [1, 0]
  requested := [0x9000]
  budget := ⟨25000, 32, 8⟩

theorem scan_overlooks_recycling : ¬ ScanLaw ideographPages recyclingPage recyclingCall := by
  intro h
  have hsecond : windowAt recyclingPage recyclingCall 1 = [rowOption 500] := by
    obtain ⟨m, hread, -⟩ := settledWindow_ends recyclingPage recyclingCall 0
    exact hread
  have hoffered : offeredIdentities ideographPages (windowAt recyclingPage recyclingCall 0) =
      (List.range 501).map rowIdentity := by
    decide +kernel
  have hunanswered : ∀ window ∈ [recyclingPage.mounted, [rowOption 500]],
      rankAgainstRequested ideographPages WidgetCandidate.rankable window [0x9000] (some [1, 0]) =
        .none (reported WidgetCandidate.rankable
          (usableOffers ideographPages WidgetCandidate.rankable window)) := by
    decide +kernel
  have hgoes : GoesOn ideographPages recyclingPage recyclingCall 0 :=
    ⟨⟨_, hunanswered _ List.mem_cons_self⟩, fun h => absurd h (by decide), by decide,
      by simp [recyclingPage, recyclingCall], _, rfl, rfl⟩
  have hstale : Stale ideographPages recyclingPage recyclingCall 1 := by
    intro identity hidentity
    rw [hsecond] at hidentity
    refine ⟨0, Nat.one_pos, ?_⟩
    obtain rfl := List.mem_singleton.1 hidentity
    have hlast : optionIdentity ideographPages (rowOption 500) = rowIdentity 500 := by
      decide +kernel
    rw [hoffered, hlast]
    exact List.mem_map_of_mem (List.mem_range.2 (by decide))
  have hrecalled := remembersRecycled_of_scanLaw h 1 le_rfl
    (fun m hm => Nat.lt_one_iff.1 hm ▸ hgoes)
    ⟨_, hsecond ▸ hunanswered _ (List.mem_cons_of_mem _ List.mem_cons_self)⟩ hstale
  have hinjective : Function.Injective rowIdentity := fun _ _ heq =>
    Nat.add_left_cancel (List.cons.inj heq).1
  have hbefore : identitiesBefore ideographPages recyclingPage recyclingCall 1 =
      (List.range 501).map rowIdentity := by
    have hnodup := List.nodup_range (n := 501) |>.map hinjective
    rw [identitiesBefore, hoffered, identitiesBefore, foldl_noteIdentity_of_nodup,
      List.nil_append]
    rwa [List.nil_append]
  have hlast := hrecalled (rowIdentity 500) (by rw [hsecond]; decide +kernel)
  rw [hbefore, ← List.map_take, List.take_range, List.mem_map_of_injective hinjective,
    List.mem_range] at hlast
  exact absurd hlast (by decide)

end Yantra
