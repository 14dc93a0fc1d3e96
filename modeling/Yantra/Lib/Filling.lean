import Mathlib.Algebra.Order.Field.Basic
import Mathlib.Tactic.Linarith
import Mathlib.Tactic.Ring

/-!
# Vessels that fill

A vessel fills at a rate up to a ceiling, and units are taken from it. What was taken in a stretch
of time is bounded by the ceiling and by what flowed in: what was taken so far, with what is in the
vessel, never grows faster than the inflow.

## Main definitions

* `Filling.Vessel`, `Filling.level` — a vessel, and what is in it at an instant.

## Main results

* `Filling.level_add_le` — how fast a vessel fills.
* `Filling.level_settled_le` — settling a vessel under a slower and lower filling adds nothing.
* `Filling.level_taken` — what is left after a unit is taken.
-/

universe u

namespace Filling

structure Vessel (K : Type u) where
  content : K
  since : K

variable {K : Type u} [Field K] [LinearOrder K]

/-- What is in a vessel that fills at a rate up to a ceiling. -/
def level (rate ceiling : K) (v : Vessel K) (now : K) : K :=
  min ceiling (v.content + rate * (now - v.since))

lemma level_le_ceiling (rate ceiling : K) (v : Vessel K) (now : K) :
    level rate ceiling v now ≤ ceiling :=
  min_le_left _ _

variable [IsStrictOrderedRing K]

variable {rate ceiling : K} {v : Vessel K} {now : K}

lemma level_nonneg (hrate : 0 ≤ rate) (hceiling : 0 ≤ ceiling) (hcontent : 0 ≤ v.content)
    (hsince : v.since ≤ now) :
    0 ≤ level rate ceiling v now :=
  le_min hceiling (add_nonneg hcontent (mul_nonneg hrate (sub_nonneg.2 hsince)))

lemma level_add_le {rate : K} (hrate : 0 ≤ rate) (ceiling : K) (v : Vessel K) (now : K) {d : K}
    (hd : 0 ≤ d) : level rate ceiling v (now + d) ≤ level rate ceiling v now + rate * d := by
  have hflow : 0 ≤ rate * d := mul_nonneg hrate hd
  unfold level
  rw [← min_add_add_right]
  refine min_le_min (by linarith) (le_of_eq ?_)
  ring

/-- Settling a vessel under a filling that is neither faster nor higher adds nothing to it. -/
lemma level_settled_le {rate rate' ceiling ceiling' : K} (hrate : rate' ≤ rate)
    (hceiling : ceiling' ≤ ceiling) (hsince : v.since ≤ now) :
    level rate ceiling ⟨level rate' ceiling' v now, now⟩ now ≤ level rate ceiling v now := by
  have hflow : rate' * (now - v.since) ≤ rate * (now - v.since) :=
    mul_le_mul_of_nonneg_right hrate (sub_nonneg.2 hsince)
  have hsettled : level rate' ceiling' v now ≤ level rate ceiling v now :=
    min_le_min hceiling (by linarith)
  refine (min_le_right _ _).trans ?_
  simpa using hsettled

lemma level_mono {content content' since now : K} (h : content' ≤ content) :
    level rate ceiling ⟨content', since⟩ now ≤ level rate ceiling ⟨content, since⟩ now :=
  min_le_min le_rfl (by simpa using h)

lemma level_taken {rate ceiling content : K} (h : content ≤ ceiling) {unit : K} (hunit : 0 ≤ unit)
    (now : K) :
    level rate ceiling ⟨content - unit, now⟩ now + unit = level rate ceiling ⟨content, now⟩ now := by
  simp only [level, sub_self, mul_zero, add_zero]
  rw [min_eq_right h, min_eq_right (by linarith)]
  ring

end Filling
