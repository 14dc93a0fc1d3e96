import Yantra.Lib.OrderedMap
import Yantra.Protocol.Steps
import Mathlib.Data.List.Sort

/-!
# The executor's stores

The state a run keeps beside its cursor: the captures, the retry budget, the checkpoint files
and the append-only confirmation log.

## Main definitions

* `ConfirmationEntry`, `findPending`, `latestDecision` — the confirmation
  log.
* `ConfirmationLogInv` — what the confirmation log of a run meets.

## Main results

* `CheckpointStore.loadLast_spec` — the checkpoint loaded on resume has the highest step
  index of all.
* `ConfirmationLogInv.latestDecision_eq` — the latest decision on a run is the last one in its log.
-/

namespace Yantra

open List

/-! ## Captures -/

abbrev CaptureStore := OrderedMap String Value

/-- A snapshot of the captures: values by name, with the names of those replaced by stubs. -/
structure CaptureSnapshot where
  entries : OrderedMap String Value
  sidecars : OrderedMap String String

def defaultInlineLimitBytes : Nat := 64 * 1024

/-- Whether a value is too large to inline in a snapshot. -/
def exceedsInlineLimit (limit : Nat) (v : Value) : Bool :=
  decide (limit < v.stringify.utf8ByteSize)

/-- The stub a snapshot keeps in place of a large capture. -/
def refStub (key : String) : Value := .obj [("$ref", .str key)]

/-- Whether a restored value is taken for a stub: an object whose `$ref` is a string. -/
def isRefStub : Value → Bool
  | .obj fields =>
      match Value.field? "$ref" fields with
      | some (.str _) => true
      | _ => false
  | _ => false

namespace CaptureStore

def snapshot (c : CaptureStore) (limit : Nat := defaultInlineLimitBytes) : CaptureSnapshot :=
  c.entries.foldl (fun snap kv =>
      if exceedsInlineLimit limit kv.2 then
        ⟨snap.entries.set kv.1 (refStub kv.1), snap.sidecars.set kv.1 kv.1⟩
      else ⟨snap.entries.set kv.1 kv.2, snap.sidecars⟩)
    ⟨OrderedMap.empty, OrderedMap.empty⟩

def restore (snap : CaptureSnapshot) : CaptureStore :=
  snap.entries.entries.foldl (fun c kv => if isRefStub kv.2 then c else c.set kv.1 kv.2)
    OrderedMap.empty

end CaptureStore

/-! ## Retry budget -/

/-- The three retry counters. -/
structure RetryBudgetLevels where
  locatorAttempts : Nat
  stepAttempts : Nat
  workflowAttempts : Nat
  deriving DecidableEq, Repr, Inhabited

/-- The budgets a run starts with. -/
def defaultBudgets : RetryBudgetLevels := ⟨3, 3, 1⟩

inductive RetryLevel where
  | locator | step | workflow
  deriving DecidableEq, Repr, Inhabited

def RetryBudgetLevels.at (b : RetryBudgetLevels) : RetryLevel → Nat
  | .locator => b.locatorAttempts
  | .step => b.stepAttempts
  | .workflow => b.workflowAttempts

structure RetryBudget where
  initial : RetryBudgetLevels := defaultBudgets
  remaining : RetryBudgetLevels := initial
  deriving DecidableEq, Repr, Inhabited

namespace RetryBudget

def canRetry (b : RetryBudget) (level : RetryLevel) : Bool := decide (0 < b.remaining.at level)

/-- Spend one retry; `none` when none is left (the source throws). -/
def consume (b : RetryBudget) (level : RetryLevel) : Option RetryBudget :=
  if b.remaining.at level = 0 then none
  else some { b with remaining :=
    match level with
    | .locator => { b.remaining with locatorAttempts := b.remaining.locatorAttempts - 1 }
    | .step => { b.remaining with stepAttempts := b.remaining.stepAttempts - 1 }
    | .workflow => { b.remaining with workflowAttempts := b.remaining.workflowAttempts - 1 } }

/-- The counters as a checkpoint records them. -/
def snapshot (b : RetryBudget) : RetryBudgetLevels := b.remaining

end RetryBudget

/-! ## Checkpoints -/

/-- What a checkpoint file records of the run after a completed step. -/
structure Checkpoint where
  afterStepId : String
  afterStepIdx : Nat
  captures : CaptureSnapshot
  budgets : RetryBudgetLevels

/-- The checkpoint directory: one file per step id. -/
abbrev CheckpointStore := OrderedMap String Checkpoint

namespace CheckpointStore

/-- Write the checkpoint file of its step, over an older one of the same step. -/
def save (files : CheckpointStore) (c : Checkpoint) : CheckpointStore := files.set c.afterStepId c

def list (files : CheckpointStore) : List Checkpoint :=
  files.values.mergeSort fun a b => decide (a.afterStepIdx ≤ b.afterStepIdx)

/-- The checkpoint a resume starts from: the last of `list`, reloaded by its step id. -/
def loadLast (files : CheckpointStore) : Option Checkpoint :=
  match files.list.getLast? with
  | some summary => files.get? summary.afterStepId
  | none => none

/-- **The checkpoint a resume starts from.** With every file named after the step it was written
for, there is none exactly when there are no files, and otherwise it has the highest step index
of all.

**Proof sketch.** The list is a sorted permutation of the files, so its last element bounds all
of them; reloading it by its step id finds the same file. -/
lemma loadLast_spec {files : CheckpointStore}
    (hkey : ∀ k c, files.get? k = some c → c.afterStepId = k) :
    (files.loadLast = none ∧ ∀ k, files.get? k = none) ∨
      ∃ c, files.loadLast = some c ∧ files.get? c.afterStepId = some c ∧
        ∀ k c', files.get? k = some c' → c'.afterStepIdx ≤ c.afterStepIdx := by
  have hperm : (list files).Perm files.values := mergeSort_perm _ _
  have hsorted : (list files).Pairwise
      fun a b => decide (a.afterStepIdx ≤ b.afterStepIdx) = true := by
    refine pairwise_mergeSort (fun a b c hab hbc => ?_) (fun a b => ?_) _
    · simp only [decide_eq_true_eq] at hab hbc ⊢
      exact hab.trans hbc
    · simp only [Bool.or_eq_true, decide_eq_true_eq]
      exact Nat.le_total _ _
  rcases eq_nil_or_concat (list files) with hnil | ⟨l, c, hlist⟩
  · left
    refine ⟨by simp [loadLast, hnil], fun k => ?_⟩
    by_contra hk
    obtain ⟨c, hc⟩ := Option.ne_none_iff_exists'.1 hk
    have hmem : c ∈ list files := hperm.mem_iff.2 (OrderedMap.mem_values_of_get? hc)
    rw [hnil] at hmem
    cases hmem
  · right
    have hlast : (list files).getLast? = some c := by rw [hlist]; simp
    have hmem : c ∈ files.values := hperm.mem_iff.1 (mem_of_getLast? hlast)
    obtain ⟨k, hk⟩ := OrderedMap.exists_get?_of_mem_values hmem
    have hload : files.get? c.afterStepId = some c := by rw [hkey k c hk]; exact hk
    refine ⟨c, by simp only [loadLast, hlast, hload], hload, fun k' c' hc' => ?_⟩
    have hmem' : c' ∈ list files := hperm.mem_iff.2 (OrderedMap.mem_values_of_get? hc')
    rw [hlist, concat_eq_append] at hmem' hsorted
    rcases mem_append.1 hmem' with hl | hc
    · have := (pairwise_append.1 hsorted).2.2 c' hl c (mem_singleton_self c)
      simpa using this
    · rw [mem_singleton.1 hc]

end CheckpointStore

/-! ## Confirmations -/

structure ConfirmationRequest where
  confirmationId : Nat
  runId : String
  stepId : String
  actionKind : StepVerb
  host : String
  description : String
  expectedCost : Option ExpectedCost
  consequence : ConsequenceLevel
  deriving DecidableEq, Repr, Inhabited

inductive Decision where
  | granted | denied | timedOut
  deriving DecidableEq, Repr, Inhabited

inductive DecidedBy where
  | userInteractive | userCliConfirm | timeout
  deriving DecidableEq, Repr, Inhabited

/-- A terminal decision on a request. -/
structure ConfirmationDecision where
  confirmationId : Nat
  decision : Decision
  decidedBy : DecidedBy
  deriving DecidableEq, Repr, Inhabited

/-- One line of `confirmations.jsonl`. -/
inductive ConfirmationEntry where
  | request (data : ConfirmationRequest)
  | decision (data : ConfirmationDecision)
  deriving DecidableEq, Repr, Inhabited

def requestsOf (log : List ConfirmationEntry) : List ConfirmationRequest :=
  log.filterMap fun
    | .request r => some r
    | .decision _ => none

def decisionsOf (log : List ConfirmationEntry) : List ConfirmationDecision :=
  log.filterMap fun
    | .request _ => none
    | .decision d => some d

def findPending (log : List ConfirmationEntry) (runId : String) : Option ConfirmationRequest :=
  (requestsOf log).reverse.find? fun r =>
    decide (r.runId = runId) &&
      !((decisionsOf log).map ConfirmationDecision.confirmationId).contains r.confirmationId

/-- Whether a request already has a decision. -/
def hasDecision (log : List ConfirmationEntry) (confirmationId : Nat) : Bool :=
  (decisionsOf log).any fun d => decide (d.confirmationId = confirmationId)

def latestDecision (log : List ConfirmationEntry) (runId : String) :
    Option ConfirmationDecision :=
  let requestIds := ((requestsOf log).filter fun r => decide (r.runId = runId)).map
    ConfirmationRequest.confirmationId
  (decisionsOf log).reverse.find? fun d => requestIds.contains d.confirmationId

@[simp] lemma requestsOf_append_request (log : List ConfirmationEntry) (q : ConfirmationRequest) :
    requestsOf (log ++ [.request q]) = requestsOf log ++ [q] := by
  simp [requestsOf]

@[simp] lemma requestsOf_append_decision (log : List ConfirmationEntry) (d : ConfirmationDecision) :
    requestsOf (log ++ [.decision d]) = requestsOf log := by
  simp [requestsOf]

@[simp] lemma decisionsOf_append_request (log : List ConfirmationEntry) (q : ConfirmationRequest) :
    decisionsOf (log ++ [.request q]) = decisionsOf log := by
  simp [decisionsOf]

@[simp] lemma decisionsOf_append_decision (log : List ConfirmationEntry) (d : ConfirmationDecision)
    : decisionsOf (log ++ [.decision d]) = decisionsOf log ++ [d] := by
  simp [decisionsOf]

variable {log : List ConfirmationEntry} {runId : String}

variable {q : ConfirmationRequest}

lemma mem_of_findPending (h : findPending log runId = some q) : q ∈ requestsOf log :=
  mem_reverse.1 (mem_of_find?_eq_some h)

/-- What a confirmation log of a run meets: its requests are the run's, with ids of their own, and
every decision is on one of them. -/
structure ConfirmationLogInv (runId : String) (log : List ConfirmationEntry) : Prop where
  own : ∀ q ∈ requestsOf log, q.runId = runId
  ids_lt : ∀ q ∈ requestsOf log, q.confirmationId < log.length
  nodup : ((requestsOf log).map ConfirmationRequest.confirmationId).Nodup
  decided : ∀ d ∈ decisionsOf log, ∃ q ∈ requestsOf log, q.confirmationId = d.confirmationId

lemma ConfirmationLogInv.nil (runId : String) : ConfirmationLogInv runId [] :=
  ⟨by simp [requestsOf], by simp [requestsOf], by simp [requestsOf], by simp [decisionsOf]⟩

lemma ConfirmationLogInv.request (h : ConfirmationLogInv runId log) (hrun : q.runId = runId)
    (hid : q.confirmationId = log.length) :
    ConfirmationLogInv runId (log ++ [.request q]) := by
  refine ⟨?_, ?_, ?_, ?_⟩
  · intro r hr
    rw [requestsOf_append_request, mem_append, mem_singleton] at hr
    rcases hr with hr | rfl
    · exact h.own r hr
    · exact hrun
  · intro r hr
    rw [requestsOf_append_request, mem_append, mem_singleton] at hr
    rw [length_append, length_singleton]
    rcases hr with hr | rfl
    · exact Nat.lt_succ_of_lt (h.ids_lt r hr)
    · omega
  · rw [requestsOf_append_request, map_append, nodup_append]
    refine ⟨h.nodup, by simp, ?_⟩
    rintro a ha b hb rfl
    obtain ⟨r, hr, rfl⟩ := mem_map.1 ha
    have hlt := h.ids_lt r hr
    rw [map_singleton, mem_singleton] at hb
    omega
  · intro d hd
    rw [decisionsOf_append_request] at hd
    obtain ⟨r, hr, hrid⟩ := h.decided d hd
    refine ⟨r, ?_, hrid⟩
    rw [requestsOf_append_request]
    exact mem_append_left _ hr

lemma ConfirmationLogInv.decision (h : ConfirmationLogInv runId log) (hq : q ∈ requestsOf log)
    {d : ConfirmationDecision} (hid : d.confirmationId = q.confirmationId) :
    ConfirmationLogInv runId (log ++ [.decision d]) := by
  refine ⟨?_, ?_, ?_, ?_⟩
  · rw [requestsOf_append_decision]
    exact h.own
  · intro r hr
    rw [requestsOf_append_decision] at hr
    rw [length_append]
    exact Nat.lt_of_lt_of_le (h.ids_lt r hr) (Nat.le_add_right _ _)
  · rw [requestsOf_append_decision]
    exact h.nodup
  · intro d' hd'
    rw [decisionsOf_append_decision, mem_append, mem_singleton] at hd'
    rw [requestsOf_append_decision]
    rcases hd' with hd' | rfl
    · exact h.decided d' hd'
    · exact ⟨q, hq, hid.symm⟩

lemma ConfirmationLogInv.latestDecision_eq (h : ConfirmationLogInv runId log) :
    latestDecision log runId = (decisionsOf log).getLast? := by
  have hids : ((requestsOf log).filter fun r => decide (r.runId = runId)) = requestsOf log :=
    filter_eq_self.2 fun r hr => decide_eq_true (h.own r hr)
  have hall : ∀ d ∈ (decisionsOf log).reverse,
      ((requestsOf log).map ConfirmationRequest.confirmationId).contains d.confirmationId := by
    intro d hd
    obtain ⟨q, hq, hid⟩ := h.decided d (mem_reverse.1 hd)
    rw [contains_iff_mem, ← hid]
    exact mem_map_of_mem hq
  rw [latestDecision, hids, getLast?_eq_head?_reverse]
  cases hrev : (decisionsOf log).reverse with
  | nil => rfl
  | cons d ds =>
    rw [hrev] at hall
    exact find?_cons_of_pos (hall d mem_cons_self)

end Yantra
