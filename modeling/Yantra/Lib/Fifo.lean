import Mathlib.Data.List.Nodup

/-!
# First come, first served

Those that ask for something stand in a queue until they are served or leave. The order in which
they asked is kept beside the queue, also for those that have left it, so that the order of service
can be stated of a state rather than of a history.

## Main definitions

* `Fifo` — the queue is those that still wait, in order, and nobody was served before one that
  asked earlier and still waits.

## Main results

* `Fifo.pass`, `Fifo.queue_up`, `Fifo.serve`, `Fifo.leave`, `Fifo.clear` — what keeps it.
-/

universe u

variable {α : Type u}

/-- The queue `waiters` is those of `arrivals` that wait, and of two that asked, the later one is
not served while the earlier one waits. -/
structure Fifo (arrivals waiters : List α) (waits served : α → Bool) : Prop where
  queue : waiters = arrivals.filter waits
  nodup : arrivals.Nodup
  fair : arrivals.Pairwise fun a b => waits a = true → served b = false

namespace Fifo

open List

variable {arrivals waiters : List α} {waits waits' served served' : α → Bool}

lemma nil (waits served : α → Bool) : Fifo [] [] waits served := ⟨rfl, .nil, .nil⟩

lemma congr (h : Fifo arrivals waiters waits served) (hwaits : ∀ a ∈ arrivals, waits' a = waits a)
    (hserved : ∀ a ∈ arrivals, served' a = served a) : Fifo arrivals waiters waits' served' where
  queue := by rw [h.queue, filter_congr hwaits]
  nodup := h.nodup
  fair := by
    refine h.fair.imp_of_mem fun {a b} ha hb hab hwait => ?_
    rw [hserved b hb]
    exact hab (by rw [← hwaits a ha, hwait])

variable {a : α}

lemma mem_waiters (h : Fifo arrivals waiters waits served) :
    a ∈ waiters ↔ a ∈ arrivals ∧ waits a := by
  rw [h.queue, mem_filter]

lemma pass (h : Fifo arrivals [] waits served) (ha : a ∉ arrivals)
    (hwaits : ∀ b ∈ arrivals, waits' b = waits b) (hserved : ∀ b ∈ arrivals, served' b = served b)
    (hgoes : waits' a = false) :
    Fifo (arrivals ++ [a]) [] waits' served' := by
  have h' := h.congr hwaits hserved
  have hnone : ∀ b ∈ arrivals, waits' b ≠ true := filter_eq_nil_iff.1 h'.queue.symm
  refine ⟨?_, h.nodup.append (nodup_singleton a) (by simpa using ha), ?_⟩
  · rw [filter_append, ← h'.queue, filter_singleton, hgoes]
    rfl
  · rw [pairwise_append]
    refine ⟨h'.fair, pairwise_singleton _ _, fun b hb c _ hwait => ?_⟩
    exact absurd hwait (hnone b hb)

/-- One that asks goes to the end of the queue. -/
lemma queue_up (h : Fifo arrivals waiters waits served) (ha : a ∉ arrivals)
    (hwaits : ∀ b ∈ arrivals, waits' b = waits b) (hserved : ∀ b ∈ arrivals, served' b = served b)
    (hgoes : waits' a) (hyet : served' a = false) :
    Fifo (arrivals ++ [a]) (waiters ++ [a]) waits' served' := by
  have h' := h.congr hwaits hserved
  refine ⟨?_, h.nodup.append (nodup_singleton a) (by simpa using ha), ?_⟩
  · rw [filter_append, ← h'.queue, filter_singleton, hgoes]
    rfl
  · rw [pairwise_append]
    refine ⟨h'.fair, pairwise_singleton _ _, fun b _ c hc _ => ?_⟩
    rw [mem_singleton.1 hc, hyet]

/-- The first of the queue is served.

**Proof sketch.** What asked before the first that waits does not wait, so the first that waits may
be served; whatever is behind it was not served while it waited. -/
lemma serve [DecidableEq α] {a : α} {rest : List α} (h : Fifo arrivals (a :: rest) waits served)
    (hwaits : ∀ b, waits' b = (waits b && decide (b ≠ a)))
    (hserved : ∀ b, b ≠ a → served' b = served b) : Fifo arrivals rest waits' served' := by
  obtain ⟨before, behind, rfl, hbefore, hwait, hrest⟩ := filter_eq_cons_iff.1 h.queue.symm
  have hnodup := h.nodup
  have ha : a ∉ before ∧ a ∉ behind := by
    rw [nodup_middle, nodup_cons, mem_append, not_or] at hnodup
    exact hnodup.1
  have hfilter : (before ++ a :: behind).filter waits' = rest := by
    have hgone : waits' a = false := by simp [hwaits]
    have hno : before.filter waits' = [] := by
      refine filter_eq_nil_iff.2 fun b hb => ?_
      rw [hwaits, Bool.and_eq_true, not_and]
      exact fun hw => absurd hw (hbefore b hb)
    have hsame : behind.filter waits' = rest := by
      rw [← hrest]
      refine filter_congr fun b hb => ?_
      have hba : b ≠ a := fun hba => ha.2 (hba ▸ hb)
      rw [hwaits, decide_eq_true hba, Bool.and_true]
    rw [filter_append, filter_cons, hno, hgone, hsame]
    rfl
  refine ⟨hfilter.symm, hnodup, ?_⟩
  have hfair := h.fair
  rw [pairwise_append, pairwise_cons] at hfair ⊢
  obtain ⟨hb, ⟨hab, hr⟩, hcross⟩ := hfair
  refine ⟨?_, ⟨?_, ?_⟩, ?_⟩
  · refine hb.imp_of_mem fun {b c} hbm hcm _ hw => ?_
    rw [hwaits, Bool.and_eq_true] at hw
    exact absurd hw.1 (hbefore b hbm)
  · intro c _ hw
    simp [hwaits] at hw
  · refine hr.imp_of_mem fun {b c} _ hcm hbc hw => ?_
    rw [hwaits, Bool.and_eq_true] at hw
    rw [hserved c fun hca => ha.2 (hca ▸ hcm)]
    exact hbc hw.1
  · intro b hbm c _ hw
    rw [hwaits, Bool.and_eq_true] at hw
    exact absurd hw.1 (hbefore b hbm)

lemma leave [DecidableEq α] (h : Fifo arrivals waiters waits served) (a : α)
    (hwaits : ∀ b, waits' b = (waits b && decide (b ≠ a))) (hserved : ∀ b, served' b = served b) :
    Fifo arrivals (waiters.erase a) waits' served' where
  queue := by
    rw [h.queue, (h.nodup.filter _).erase_eq_filter, filter_filter]
    refine filter_congr fun b _ => ?_
    rw [hwaits, bne, Bool.beq_eq_decide_eq, ← decide_not, Bool.and_comm]
  nodup := h.nodup
  fair := by
    refine h.fair.imp fun {b c} hbc hw => ?_
    rw [hwaits, Bool.and_eq_true] at hw
    rw [hserved]
    exact hbc hw.1

lemma clear (h : Fifo arrivals waiters waits served) (hwaits : ∀ b, waits' b = false) :
    Fifo arrivals [] waits' served' where
  queue := (filter_eq_nil_iff.2 fun b _ => by simp [hwaits]).symm
  nodup := h.nodup
  fair := pairwise_of_forall fun b c hw => by simp [hwaits] at hw

end Fifo
