import Mathlib.Data.List.Perm.Basic

/-!
# Tie-break ladders

A pool of candidates is narrowed by rungs one after another. A rung keeps what it accepts, and is
skipped where that would leave nothing or everything; a pool of one is left alone. What survives
does not depend on the order of the pool.

## Main definitions

* `Ladder.Rung`, `Ladder.climb` — a named rung, and narrowing a pool by several.

## Main results

* `Ladder.climb_ne_nil`, `Ladder.climb_sublist` — what survives.
* `Ladder.climb_perm` — the order of the pool does not matter.
-/

namespace Ladder

open List

universe u v

variable {ρ : Type u} {α : Type v}

structure Rung (ρ : Type u) (α : Type v) where
  name : ρ
  keep : α → Bool

/-- Apply a rung to a pool, with the rungs that narrowed it so far. -/
def Rung.apply (rung : Rung ρ α) (state : List α × List ρ) : List α × List ρ :=
  let next := state.1.filter rung.keep
  if next.length = 0 ∨ next.length = state.1.length then state
  else (next, state.2 ++ [rung.name])

/-- Apply rungs one after another, until one candidate is left. -/
def climb : List (Rung ρ α) → List α × List ρ → List α × List ρ
  | [], state => state
  | rung :: rungs, state =>
    if state.1.length = 1 then state else climb rungs (rung.apply state)

variable (rung : Rung ρ α)

lemma apply_sublist (state : List α × List ρ) :
    (rung.apply state).1.Sublist state.1 := by
  unfold Rung.apply
  dsimp only
  split
  next => exact Sublist.refl _
  next => exact filter_sublist

lemma apply_ne_nil {state : List α × List ρ} (h : state.1 ≠ []) :
    (rung.apply state).1 ≠ [] := by
  unfold Rung.apply
  dsimp only
  split
  next => exact h
  next hnext =>
    rw [not_or] at hnext
    exact ne_nil_of_length_pos (Nat.pos_of_ne_zero hnext.1)

lemma apply_perm {pool pool' : List α} (h : pool.Perm pool') (used : List ρ) :
    (rung.apply (pool, used)).1.Perm (rung.apply (pool', used)).1 ∧
      (rung.apply (pool, used)).2 = (rung.apply (pool', used)).2 := by
  have hfilter := h.filter rung.keep
  unfold Rung.apply
  dsimp only
  rw [hfilter.length_eq, h.length_eq]
  split
  next => exact ⟨h, rfl⟩
  next => exact ⟨hfilter, rfl⟩

/-- The survivors are some of the pool, in its order. -/
theorem climb_sublist (rungs : List (Rung ρ α)) (state : List α × List ρ) :
    (climb rungs state).1.Sublist state.1 := by
  induction rungs generalizing state with
  | nil => exact Sublist.refl _
  | cons rung rungs ih =>
    rw [climb]
    split
    next => exact Sublist.refl _
    next => exact (ih _).trans (apply_sublist rung state)

/-- Something survives. -/
theorem climb_ne_nil (rungs : List (Rung ρ α)) {state : List α × List ρ} (h : state.1 ≠ []) :
    (climb rungs state).1 ≠ [] := by
  induction rungs generalizing state with
  | nil => exact h
  | cons rung rungs ih =>
    rw [climb]
    split
    next => exact h
    next => exact ih (apply_ne_nil rung h)

/-- **The order of the pool does not matter**: the same candidates survive, by the same rungs.

**Proof sketch.** Induction on the rungs, the pool generalized. -/
theorem climb_perm (rungs : List (Rung ρ α)) {pool pool' : List α} (h : pool.Perm pool')
    (used : List ρ) :
    (climb rungs (pool, used)).1.Perm (climb rungs (pool', used)).1 ∧
      (climb rungs (pool, used)).2 = (climb rungs (pool', used)).2 := by
  induction rungs generalizing pool pool' used with
  | nil => exact ⟨h, rfl⟩
  | cons rung rungs ih =>
    rw [climb, climb]
    dsimp only
    rw [h.length_eq]
    split
    next => exact ⟨h, rfl⟩
    next =>
      obtain ⟨hpool, hused⟩ := apply_perm rung h used
      have hrest := ih hpool (rung.apply (pool, used)).2
      have hpair : ((rung.apply (pool', used)).1, (rung.apply (pool, used)).2) =
          rung.apply (pool', used) := Prod.ext rfl hused
      rw [hpair] at hrest
      exact hrest

end Ladder
