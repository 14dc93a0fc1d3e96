import Mathlib.Order.Bounds.Basic
import Mathlib.Tactic.Common

/-!
# Recurrences

A set of instants together with the function that gives the least of them strictly after a given
instant, over any linear order.

## Main definitions

* `Recurrence` — the instants, and the next one.
* `Recurrence.every` — the multiples of a period.

## Main results

* `Recurrence.lt_of_next` — the next instant is later.
-/

universe u

structure Recurrence (T : Type u) [LinearOrder T] where
  /-- The instants. -/
  occurs : T → Prop
  /-- The next instant, if there is one. -/
  next : T → Option T
  /-- It is the least strictly after. -/
  next_eq_some_iff : ∀ t u, next t = some u ↔ IsLeast {v | t < v ∧ occurs v} u

namespace Recurrence

variable {T : Type u} [LinearOrder T] (R : Recurrence T)

lemma lt_of_next {t u : T} (h : R.next t = some u) : t < u :=
  ((R.next_eq_some_iff t u).1 h).1.1

/-- The multiples of a positive period. -/
def every (period : Nat) (hpos : 0 < period) : Recurrence Nat where
  occurs n := period ∣ n
  next t := some (period * (t / period + 1))
  next_eq_some_iff t u := by
    have hleast : IsLeast {v | t < v ∧ period ∣ v} (period * (t / period + 1)) := by
      refine ⟨⟨Nat.lt_mul_div_succ t hpos, Nat.dvd_mul_right _ _⟩, ?_⟩
      rintro _ ⟨htv, v, rfl⟩
      exact Nat.mul_le_mul_left _ (Nat.div_lt_of_lt_mul htv)
    rw [Option.some.injEq]
    exact ⟨fun h => h ▸ hleast, fun h => hleast.unique h⟩

end Recurrence
