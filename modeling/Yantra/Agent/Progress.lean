import Yantra.Agent.Fulfillment
import Yantra.Extraction.DocumentStore

/-!
# Semantic progress

`ProgressLedger`: at every counted call the run's progress is measured. A checkpoint compares the
documents read, the pages seen, the verified actions and the state of each live requirement with the
last snapshot; a checkpoint that signals nothing widens the stall window, any other closes it.

## Main definitions

* `RecordedEntry`, `ProgressSources` — what progress is measured against.
* `ProgressRun`, `progressRun` — a run of the sources and of the ledger together.

## Main results

* `progressInv_run` — what a run's ledger of progress remembers.
-/

namespace Yantra

open List

/-! ## Sources -/

/-- An entry of the action ledger, with what only progress reads of it. -/
structure RecordedEntry where
  entry : ActionLedgerEntry
  /-- The control of a click. -/
  ref : String := ""
  /-- The hash of a capture. -/
  sha256 : String := ""
  deriving DecidableEq, Repr, Inhabited

/-- Everything a progress ledger is measured against. -/
structure ProgressSources where
  documentCount : Nat := 0
  page : Option String := none
  ledger : List RecordedEntry := []
  census : Option FillCensus := none
  terms : EffectiveActionTerms := noActionTerms
  contract : Option TaskContractBody := none
  deriving DecidableEq, Repr, Inhabited

/-- The entries, as fulfillment reads them. -/
def ProgressSources.entries (s : ProgressSources) : List ActionLedgerEntry :=
  s.ledger.map RecordedEntry.entry

/-! ## Live items -/

inductive LiveKind where
  | fill | artifact | effects | deliverable
  deriving DecidableEq, Repr, Inhabited

/-- How far a live item is. -/
inductive LiveState where
  | pending | advancing | met
  deriving DecidableEq, Repr, Inhabited

def LiveState.rank : LiveState → Nat
  | .pending => 0
  | .advancing => 1
  | .met => 2

structure LiveItem where
  id : String
  kind : LiveKind
  label : String
  state : LiveState
  done : Option Nat := none
  total : Option Nat := none
  deriving DecidableEq, Repr, Inhabited

/-- The state of an item with a verdict and with related work. -/
def liveState (status : ItemStatus) (related : Bool) : LiveState :=
  if status = .met then .met else if related then .advancing else .pending

/-- `add` -/
def liveItem (id : String) (kind : LiveKind) (label : String) (status : ItemStatus)
    (related : Bool) (done total : Option Nat) : LiveItem where
  id := id
  kind := kind
  label := JsText.utf16Take 60 label
  state := liveState status related
  done := done
  total := total

/-- `listedFillCoverage`: how many of the listed fields are filled, and how many there are. -/
def listedFillCoverage (pf : Platform) (fields : List String)
    (ledger : List ActionLedgerEntry) : Nat × Nat :=
  let missing := fields.filter fun field =>
    !(filledNames pf ledger).contains (normalizeDeliveryName pf field)
  (fields.length - missing.length, fields.length)

def fillProgress (pf : Platform) (census : Option FillCensus) (fill : FillTerm)
    (ledger : List ActionLedgerEntry) : Option (Nat × Nat) :=
  match fill.coverage with
  | .listed => some (listedFillCoverage pf fill.fields ledger)
  | .allEligible => census.map fun c =>
      ((fillCoverage c ledger).filled, (fillCoverage c ledger).eligible)

def fillLive (pf : Platform) (census : Option FillCensus) (fill : FillTerm)
    (ledger : List ActionLedgerEntry) : LiveItem :=
  let coverage := fillProgress pf census fill ledger
  liveItem "fill" .fill "fields" (censusFillEvaluator pf census fill ledger).status
    (coverage.any fun c => decide (0 < c.1)) (coverage.map Prod.fst) (coverage.map Prod.snd)

/-- What `artifactStatus` reads of a ledger alone. -/
def ledgerInput (pf : Platform) (ledger : List ActionLedgerEntry) : FulfillmentInput where
  contract := none
  terms := noActionTerms
  deliverableGaps := []
  constraints := []
  ledger := ledger
  claimedMet := none
  captureGap := fun _ => none
  evaluateFill := censusFillEvaluator pf none

def screenshotStatus (pf : Platform) (scope : ArtifactScope) (ledger : List ActionLedgerEntry) :
    ItemStatus :=
  (artifactStatus scope (ledgerInput pf ledger)).1

def artifactLive (pf : Platform) (scope : ArtifactScope) (ledger : List ActionLedgerEntry) :
    LiveItem :=
  liveItem (artifactRequirementId scope) .artifact (artifactLabel scope)
    (screenshotStatus pf scope ledger) (ledger.any (ActionLedgerEntry.capturesScope scope)) none none

def submitLive (ledger : List ActionLedgerEntry) : LiveItem :=
  liveItem "effects.submit" .effects "do not submit" (submitStatus ledger).1
    (ledger.any fun e => e.isRefused || e.isSubmit) none none

def deliverableLive (pf : Platform) (contract : TaskContractBody)
    (ledger : List ActionLedgerEntry) : LiveItem :=
  liveItem "deliverable" .deliverable "actions" (actionsStatus pf ledger contract).1
    (ledger.any ActionLedgerEntry.isCommitted) none none

def askedActions (contract : Option TaskContractBody) : Option TaskContractBody :=
  contract.filter fun c => c.deliverable = .actions

def liveItems (pf : Platform) (s : ProgressSources) : List LiveItem :=
  (s.terms.fill.map fun fill => fillLive pf s.census fill s.entries).toList ++
    (s.terms.artifacts.map fun a => artifactLive pf a.scope s.entries) ++
    (match s.terms.submit with
      | .forbidden _ => [submitLive s.entries]
      | .allowed => []) ++
    ((askedActions s.contract).map fun c => deliverableLive pf c s.entries).toList

/-! ## Coverage -/

def epochText (epoch : Option Nat) : String :=
  match epoch with
  | some n => toString n
  | none => "null"

/-- The keys of what a verified action reached. -/
def RecordedEntry.coverageKeys (e : RecordedEntry) : List String :=
  match e.entry with
  | .submitRefused _ => []
  | .fillCommitted stamp ref _ groupKey coveredRefs =>
      ("fill|" ++ epochText stamp.epoch ++ "|" ++ groupKey.getD ("ref:" ++ ref)) ::
        coveredRefs.map fun r => "fill|" ++ epochText stamp.epoch ++ "|ref:" ++ r
  | .clickExecuted stamp _ => ["click|" ++ epochText stamp.epoch ++ "|" ++ e.ref]
  | .capture _ scope _ _ => ["capture|" ++ scope.name ++ "|" ++ e.sha256]

/-- `claimCoverage`: the coverage with what an action reached, and whether any of it is new. -/
def claimCoverage (coverage : List String) (e : RecordedEntry) : List String × Bool :=
  let fresh := e.coverageKeys.filter fun key => !coverage.contains key
  (coverage ++ fresh, !fresh.isEmpty)

/-- The actions that reach something new, and the coverage after all of them. -/
def claimAll (coverage : List String) : List RecordedEntry → List String × List RecordedEntry
  | [] => (coverage, [])
  | e :: es =>
    let claimed := claimCoverage coverage e
    let rest := claimAll claimed.1 es
    (rest.1, if claimed.2 then e :: rest.2 else rest.2)

/-! ## The ledger -/

inductive ProgressSignal where
  | newDocument | newPage | actionVerified | artifactSaved | itemAdvanced
  deriving DecidableEq, Repr, Inhabited

structure ProgressLedger where
  documents : Nat := 0
  urls : List String := []
  verifiedSeq : Nat := 0
  items : List LiveItem := []
  lastProgressAt : Nat := 0
  countedCalls : Nat := 0
  noProgressCalls : Nat := 0
  longestMs : Nat := 0
  coverage : List String := []
  /-- Every signal so far. -/
  signals : List ProgressSignal := []
  deriving DecidableEq, Repr, Inhabited

structure ProgressCheckpoint where
  advanced : Bool
  signals : List ProgressSignal
  changedItems : List LiveItem
  noProgressCalls : Nat
  msSinceProgress : Nat
  deriving DecidableEq, Repr, Inhabited

def previousItem (items : List LiveItem) (item : LiveItem) : Option LiveItem :=
  items.find? fun p => p.id = item.id

def changedItems (previous items : List LiveItem) : List LiveItem :=
  items.filter fun item =>
    match previousItem previous item with
    | none => true
    | some p => decide (p.state ≠ item.state) || decide (p.done ≠ item.done) ||
        decide (p.total ≠ item.total)

/-- Whether an item is further than at the last snapshot. -/
def LiveItem.advances (item : LiveItem) : Option LiveItem → Bool
  | some p => decide (p.state.rank < item.state.rank) || decide (p.done.getD 0 < item.done.getD 0)
  | none => decide (0 < item.done.getD 0) ||
      (decide (item.state = .met) && decide (item.kind ≠ .effects))

def pageKey (canonical : String → String) (page : Option String) : Option String :=
  (page.filter fun url => !url.isEmpty).map canonical

/-- The verified actions since the last counted checkpoint. -/
def ProgressLedger.unseen (p : ProgressLedger) (ledger : List RecordedEntry) :
    List RecordedEntry :=
  ledger.filter fun e => !e.entry.isRefused && decide (p.verifiedSeq < e.entry.stamp.seq)

def RecordedEntry.isCapture (e : RecordedEntry) : Bool :=
  match e.entry with
  | .capture .. => true
  | _ => false

def progressSignals (pf : Platform) (canonical : String → String) (s : ProgressSources)
    (p : ProgressLedger) : List ProgressSignal :=
  let fresh := (claimAll p.coverage (p.unseen s.ledger)).2
  (if p.documents < s.documentCount then [.newDocument] else []) ++
    (if (pageKey canonical s.page).any fun url => !p.urls.contains url then [.newPage] else []) ++
    (if fresh.isEmpty then [] else [.actionVerified]) ++
    (if fresh.any RecordedEntry.isCapture then [.artifactSaved] else []) ++
    (if (liveItems pf s).any fun item => item.advances (previousItem p.items item) then
      [.itemAdvanced] else [])

def countedCheckpoint (pf : Platform) (canonical : String → String) (s : ProgressSources)
    (now : Nat) (p : ProgressLedger) : ProgressLedger × ProgressCheckpoint :=
  let signals := progressSignals pf canonical s p
  let noProgressCalls := if signals.isEmpty then p.noProgressCalls + 1 else 0
  let lastProgressAt := if signals.isEmpty then p.lastProgressAt else now
  ({ documents := s.documentCount
     urls := p.urls ++ ((pageKey canonical s.page).filter fun url => !p.urls.contains url).toList
     verifiedSeq := ((p.unseen s.ledger).map fun e => e.entry.stamp.seq).foldl max p.verifiedSeq
     items := liveItems pf s
     lastProgressAt := lastProgressAt
     countedCalls := p.countedCalls + 1
     noProgressCalls := noProgressCalls
     longestMs := max p.longestMs (now - p.lastProgressAt)
     coverage := (claimAll p.coverage (p.unseen s.ledger)).1
     signals := p.signals ++ signals },
   { advanced := !signals.isEmpty
     signals := signals
     changedItems := changedItems p.items (liveItems pf s)
     noProgressCalls := noProgressCalls
     msSinceProgress := now - lastProgressAt })

def bookkeepingCheckpoint (pf : Platform) (s : ProgressSources) (now : Nat)
    (p : ProgressLedger) : ProgressLedger × ProgressCheckpoint :=
  ({ p with items := liveItems pf s },
   { advanced := false
     signals := []
     changedItems := changedItems p.items (liveItems pf s)
     noProgressCalls := p.noProgressCalls
     msSinceProgress := now - p.lastProgressAt })

def checkpoint (pf : Platform) (canonical : String → String) (counted : Bool)
    (s : ProgressSources) (now : Nat) (p : ProgressLedger) : ProgressLedger × ProgressCheckpoint :=
  if counted then countedCheckpoint pf canonical s now p else bookkeepingCheckpoint pf s now p

def ProgressLedger.rebase (now : Nat) (p : ProgressLedger) : ProgressLedger :=
  { p with noProgressCalls := 0, lastProgressAt := now }

/-! ## Runs -/

def ActionLedgerEntry.restamped (stamp : LedgerStamp) : ActionLedgerEntry → ActionLedgerEntry
  | .fillCommitted _ ref field groupKey coveredRefs =>
      .fillCommitted stamp ref field groupKey coveredRefs
  | .clickExecuted _ submitClass => .clickExecuted stamp submitClass
  | .submitRefused _ => .submitRefused stamp
  | .capture _ scope producer complete => .capture stamp scope producer complete

/-- An entry with its sequence number. -/
def RecordedEntry.stamped (e : RecordedEntry) (seq : Nat) : RecordedEntry :=
  let stamp : LedgerStamp := { e.entry.stamp with seq := seq }
  { e with entry := e.entry.restamped stamp }

/-- `ActionLedger.record`: the next sequence number is stamped on the entry. -/
def recordEntry (ledger : List RecordedEntry) (e : RecordedEntry) : List RecordedEntry :=
  ledger ++ [e.stamped (ledger.length + 1)]

/-- What happens to a run, as far as progress goes. -/
inductive ProgressEvent where
  | addDocument
  | visit (page : Option String)
  | record (e : RecordedEntry)
  | setCensus (census : Option FillCensus)
  | setTerms (terms : EffectiveActionTerms)
  | setContract (contract : Option TaskContractBody)
  | rebase (now : Nat)
  | checkpoint (counted : Bool) (now : Nat)
  deriving DecidableEq, Repr, Inhabited

structure ProgressRun where
  sources : ProgressSources := {}
  progress : ProgressLedger := {}
  /-- History: the sources at the last counted checkpoint, or at the start. -/
  atCounted : ProgressSources := {}
  /-- History: the sources at the last checkpoint of either role, or at the start. -/
  atSnapshot : ProgressSources := {}
  deriving DecidableEq, Repr, Inhabited

def progressStep (pf : Platform) (canonical : String → String) (r : ProgressRun) :
    ProgressEvent → ProgressRun
  | .addDocument =>
      { r with sources := { r.sources with documentCount := r.sources.documentCount + 1 } }
  | .visit page => { r with sources := { r.sources with page := page } }
  | .record e =>
      { r with sources := { r.sources with ledger := recordEntry r.sources.ledger e } }
  | .setCensus census => { r with sources := { r.sources with census := census } }
  | .setTerms terms => { r with sources := { r.sources with terms := terms } }
  | .setContract contract => { r with sources := { r.sources with contract := contract } }
  | .rebase now => { r with progress := r.progress.rebase now }
  | .checkpoint counted now =>
      { r with
          progress := (checkpoint pf canonical counted r.sources now r.progress).1
          atCounted := if counted then r.sources else r.atCounted
          atSnapshot := r.sources }

def progressRun (pf : Platform) (canonical : String → String) :
    Machine ProgressRun ProgressEvent where
  init := {}
  step := progressStep pf canonical

/-! ## What is claimed -/

variable (coverage : List String)

lemma mem_claimCoverage (e : RecordedEntry) (key : String) :
    key ∈ (claimCoverage coverage e).1 ↔ key ∈ coverage ∨ key ∈ e.coverageKeys := by
  simp only [claimCoverage, mem_append, mem_filter, Bool.not_eq_true',
    contains_eq_mem, decide_eq_false_iff_not]
  tauto

lemma claimCoverage_stale (e : RecordedEntry) :
    (claimCoverage coverage e).2 = false ↔ ∀ key ∈ e.coverageKeys, key ∈ coverage := by
  simp [claimCoverage, filter_eq_nil_iff]

lemma mem_claimAll (es : List RecordedEntry) (key : String) :
    key ∈ (claimAll coverage es).1 ↔ key ∈ coverage ∨ ∃ e ∈ es, key ∈ e.coverageKeys := by
  induction es generalizing coverage with
  | nil => simp [claimAll]
  | cons e es ih =>
    rw [claimAll, ih, mem_claimCoverage]
    simp [or_assoc]

lemma claimAll_stale (es : List RecordedEntry) :
    (claimAll coverage es).2 = [] ↔ ∀ e ∈ es, ∀ key ∈ e.coverageKeys, key ∈ coverage := by
  induction es generalizing coverage with
  | nil => simp [claimAll]
  | cons e es ih =>
    rw [claimAll, forall_mem_cons, ← claimCoverage_stale]
    cases hstale : (claimCoverage coverage e).2 with
    | true => simp
    | false =>
      have hcovered := (claimCoverage_stale coverage e).1 hstale
      simp only [Bool.false_eq_true, if_false, true_and, ih, mem_claimCoverage]
      refine forall₂_congr fun e' _ => forall₂_congr fun key _ => ?_
      exact or_iff_left_of_imp (hcovered key)

variable {e : RecordedEntry}

lemma not_refused_of_mem_coverageKeys {key : String} (h : key ∈ e.coverageKeys) :
    e.entry.isRefused = false := by
  unfold RecordedEntry.coverageKeys at h
  cases hentry : e.entry <;> simp_all [ActionLedgerEntry.isRefused]

/-! ## What the ledger remembers -/

lemma foldl_max_le_iff (n a : Nat) (l : List Nat) :
    l.foldl max a ≤ n ↔ a ≤ n ∧ ∀ x ∈ l, x ≤ n := by
  induction l generalizing a with
  | nil => simp
  | cons x l ih => rw [foldl_cons, ih, Nat.max_le, forall_mem_cons, and_assoc]

structure ProgressInv (pf : Platform) (r : ProgressRun) : Prop where
  stamped : ∀ (i : Nat) (e : RecordedEntry), r.sources.ledger[i]? = some e →
    e.entry.stamp.seq = i + 1
  snapshot : r.atSnapshot.ledger <+: r.sources.ledger
  counted : r.atCounted.ledger <+: r.atSnapshot.ledger
  verified : r.progress.verifiedSeq ≤ r.atCounted.ledger.length
  seen : ∀ e ∈ r.atCounted.ledger, e.entry.isRefused = false →
    e.entry.stamp.seq ≤ r.progress.verifiedSeq
  coverage : ∀ key, key ∈ r.progress.coverage ↔
    ∃ e ∈ r.atCounted.ledger, key ∈ e.coverageKeys
  documents : r.progress.documents = r.atCounted.documentCount
  items : r.progress.items = liveItems pf r.atSnapshot

@[simp] lemma seq_stamped (e : RecordedEntry) (seq : Nat) :
    (e.stamped seq).entry.stamp.seq = seq := by
  cases e with
  | mk entry ref sha256 => cases entry <;> rfl

variable {r : ProgressRun} {pf : Platform}

lemma ProgressInv.mem_counted (hr : ProgressInv pf r) (he : e ∈ r.sources.ledger)
    (hseq : e.entry.stamp.seq ≤ r.atCounted.ledger.length) : e ∈ r.atCounted.ledger := by
  obtain ⟨i, hi⟩ := mem_iff_getElem?.1 he
  have hplace : i < r.atCounted.ledger.length := by
    have := hr.stamped i e hi
    omega
  obtain ⟨rest, hrest⟩ := hr.counted.trans hr.snapshot
  rw [← hrest, getElem?_append_left hplace] at hi
  exact mem_of_getElem? hi

lemma ProgressInv.mem_unseen (hr : ProgressInv pf r) :
    e ∈ r.progress.unseen r.sources.ledger ↔ e ∈ r.sources.ledger ∧ e.entry.isRefused = false ∧
      r.atCounted.ledger.length < e.entry.stamp.seq := by
  simp only [ProgressLedger.unseen, mem_filter, Bool.and_eq_true, Bool.not_eq_true',
    decide_eq_true_eq]
  refine and_congr_right fun he => and_congr_right fun hrefused => ?_
  constructor
  · intro hseq
    by_contra hnot
    have := hr.seen e (hr.mem_counted he (by omega)) hrefused
    omega
  · intro hseq
    have := hr.verified
    omega

lemma ProgressInv.mem_claimed (hr : ProgressInv pf r) (key : String) :
    key ∈ (claimAll r.progress.coverage (r.progress.unseen r.sources.ledger)).1 ↔
      ∃ e ∈ r.sources.ledger, key ∈ e.coverageKeys := by
  rw [mem_claimAll, hr.coverage]
  constructor
  · rintro (⟨e, he, hkey⟩ | ⟨e, he, hkey⟩)
    · exact ⟨e, (hr.counted.trans hr.snapshot).subset he, hkey⟩
    · exact ⟨e, (hr.mem_unseen.1 he).1, hkey⟩
  · rintro ⟨e, he, hkey⟩
    by_cases hseq : e.entry.stamp.seq ≤ r.atCounted.ledger.length
    · exact Or.inl ⟨e, hr.mem_counted he hseq, hkey⟩
    · exact Or.inr ⟨e, hr.mem_unseen.2
        ⟨he, not_refused_of_mem_coverageKeys hkey, by omega⟩, hkey⟩

variable {canonical : String → String}

lemma ProgressInv.countedCheckpoint (hr : ProgressInv pf r) (now : Nat) :
    ProgressInv pf (progressStep pf canonical r (.checkpoint true now)) where
  stamped := hr.stamped
  snapshot := prefix_rfl
  counted := prefix_rfl
  verified := by
    refine (foldl_max_le_iff _ _ _).2 ⟨?_, ?_⟩
    · exact Nat.le_trans hr.verified (hr.counted.trans hr.snapshot).length_le
    · intro seq hseq
      obtain ⟨e, he, rfl⟩ := mem_map.1 hseq
      obtain ⟨i, hi⟩ := mem_iff_getElem?.1 (hr.mem_unseen.1 he).1
      rw [hr.stamped i e hi]
      exact (List.getElem?_eq_some_iff.1 hi).1
  seen e he hrefused := by
    obtain ⟨hold, hnew⟩ := (foldl_max_le_iff _ r.progress.verifiedSeq
      ((r.progress.unseen r.sources.ledger).map fun e => e.entry.stamp.seq)).1 (Nat.le_refl _)
    by_cases hseq : e.entry.stamp.seq ≤ r.atCounted.ledger.length
    · exact Nat.le_trans (hr.seen e (hr.mem_counted he hseq) hrefused) hold
    · exact hnew _ (mem_map_of_mem (hr.mem_unseen.2 ⟨he, hrefused, by omega⟩))
  coverage := hr.mem_claimed
  documents := rfl
  items := rfl

lemma ProgressInv.record (hr : ProgressInv pf r) (e : RecordedEntry) :
    ProgressInv pf (progressStep pf canonical r (.record e)) where
  stamped i x hx := by
    simp only [progressStep, recordEntry] at hx
    rcases Nat.lt_or_ge i r.sources.ledger.length with hi | hi
    · rw [getElem?_append_left hi] at hx
      exact hr.stamped i x hx
    · rw [getElem?_append_right hi] at hx
      obtain ⟨hlast, hsame⟩ := List.getElem?_eq_some_iff.1 hx
      simp only [length_singleton] at hlast
      obtain rfl : e.stamped (r.sources.ledger.length + 1) = x := by
        simpa [show i - r.sources.ledger.length = 0 by omega] using hsame
      rw [seq_stamped]
      omega
  snapshot := hr.snapshot.trans (prefix_append _ _)
  counted := hr.counted
  verified := hr.verified
  seen := hr.seen
  coverage := hr.coverage
  documents := hr.documents
  items := hr.items

lemma ProgressInv.step (hr : ProgressInv pf r) (event : ProgressEvent) :
    ProgressInv pf (progressStep pf canonical r event) := by
  obtain ⟨hstamped, hsnapshot, hcounted, hverified, hseen, hcoverage, hdocuments, hitems⟩ := hr
  cases event with
  | record e =>
    exact ProgressInv.record
      ⟨hstamped, hsnapshot, hcounted, hverified, hseen, hcoverage, hdocuments, hitems⟩ e
  | checkpoint counted now =>
    cases counted with
    | true =>
      exact ProgressInv.countedCheckpoint
        ⟨hstamped, hsnapshot, hcounted, hverified, hseen, hcoverage, hdocuments, hitems⟩ now
    | false =>
      exact ⟨hstamped, prefix_rfl, hcounted.trans hsnapshot, hverified, hseen, hcoverage,
        hdocuments, rfl⟩
  | _ => exact ⟨hstamped, hsnapshot, hcounted, hverified, hseen, hcoverage, hdocuments, hitems⟩

lemma progressInv_run (pf : Platform) (canonical : String → String) (es : List ProgressEvent) :
    ProgressInv pf ((progressRun pf canonical).run es) := by
  have hinit : ProgressInv pf (progressRun pf canonical).init :=
    ⟨by simp [progressRun], prefix_rfl, prefix_rfl, Nat.zero_le _, by simp [progressRun],
      by simp [progressRun], rfl, rfl⟩
  have hstep : ∀ run e, ProgressInv pf run → ProgressInv pf ((progressRun pf canonical).step run e) :=
    fun _ e hr => hr.step e
  exact Machine.invariant_runFrom' hstep hinit es

end Yantra
