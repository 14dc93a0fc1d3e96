import Mathlib.Tactic.Common

/-!
# Lists traversed with a state

A program that maps or filters a list with a callback that has effects threads a state through the
list, first item first.

## Main definitions

* `Threaded.mapState`, `Threaded.filterState` — the traversals.

## Main results

* `Threaded.mapState_spec` — what every step establishes and every later step keeps holds of all
  results in the end; `Threaded.mapState_forall₂` pairs them with their items.
* `Threaded.mapState_fst`, `Threaded.filterState_fst` — a callback whose value does not depend on
  the state acts as if there were none.
-/

universe u

namespace Threaded

open List

variable {α β σ : Type u}

/-- `as.map(f)` where `f` reads and writes a state. -/
def mapState (f : α → σ → β × σ) : List α → σ → List β × σ
  | [], s => ([], s)
  | a :: as, s =>
    let (b, s) := f a s
    let (bs, s) := mapState f as s
    (b :: bs, s)

/-- `as.filter(p)` where `p` reads and writes a state. -/
def filterState (p : α → σ → Bool × σ) : List α → σ → List α × σ
  | [], s => ([], s)
  | a :: as, s =>
    let (keep, s) := p a s
    let (kept, s) := filterState p as s
    (if keep then a :: kept else kept, s)

variable {R : σ → σ → Prop}

/-- What every step establishes and every later step keeps holds of all results in the end. -/
theorem mapState_spec {P : β → σ → Prop} (hrefl : ∀ s, R s s)
    (htrans : ∀ s t u, R s t → R t u → R s u) (hkeep : ∀ b s t, P b s → R s t → P b t)
    (f : α → σ → β × σ) (hf : ∀ a s, R s (f a s).2 ∧ P (f a s).1 (f a s).2) (as : List α) (s : σ) :
    R s (mapState f as s).2 ∧ ∀ b ∈ (mapState f as s).1, P b (mapState f as s).2 := by
  induction as generalizing s with
  | nil => exact ⟨hrefl s, fun b hb => nomatch hb⟩
  | cons a as ih =>
    obtain ⟨hstep, hhead⟩ := hf a s
    obtain ⟨hrest, htail⟩ := ih (f a s).2
    refine ⟨htrans _ _ _ hstep hrest, fun b hb => ?_⟩
    rcases mem_cons.1 hb with rfl | hb
    · exact hkeep _ _ _ hhead hrest
    · exact htail b hb

variable {f : α → σ → β × σ}

/-- What every step establishes of its item and result, and every later step keeps, holds of all
items and results in the end, where every step keeps an invariant. -/
theorem mapState_forall₂ {I : σ → Prop} {P : α → β → σ → Prop} (hrefl : ∀ s, R s s)
    (htrans : ∀ s t u, R s t → R t u → R s u) (hkeep : ∀ a b s t, P a b s → R s t → P a b t)
    (hf : ∀ a s, I s → I (f a s).2 ∧ R s (f a s).2 ∧ P a (f a s).1 (f a s).2) (as : List α) (s : σ)
    (hs : I s) : I (mapState f as s).2 ∧ R s (mapState f as s).2 ∧
      Forall₂ (fun a b => P a b (mapState f as s).2) as (mapState f as s).1 := by
  induction as generalizing s with
  | nil => exact ⟨hs, hrefl s, .nil⟩
  | cons a as ih =>
    obtain ⟨hI, hR, hP⟩ := hf a s hs
    obtain ⟨hI', hR', hP'⟩ := ih (f a s).2 hI
    exact ⟨hI', htrans _ _ _ hR hR', .cons (hkeep _ _ _ _ hP hR') hP'⟩

/-- What every step that keeps its item establishes, and every later step keeps, holds of all kept
items in the end. -/
theorem filterState_spec {P : α → σ → Prop} (hrefl : ∀ s, R s s)
    (htrans : ∀ s t u, R s t → R t u → R s u) (hkeep : ∀ a s t, P a s → R s t → P a t)
    (p : α → σ → Bool × σ) (hp : ∀ a s, R s (p a s).2 ∧ ((p a s).1 → P a (p a s).2)) (as : List α)
    (s : σ) :
    R s (filterState p as s).2 ∧ ∀ a ∈ (filterState p as s).1, P a (filterState p as s).2 := by
  induction as generalizing s with
  | nil => exact ⟨hrefl s, fun a ha => nomatch ha⟩
  | cons a as ih =>
    obtain ⟨hstep, hhead⟩ := hp a s
    obtain ⟨hrest, htail⟩ := ih (p a s).2
    refine ⟨htrans _ _ _ hstep hrest, fun b hb => ?_⟩
    simp only [filterState] at hb
    split_ifs at hb with hkept
    · rcases mem_cons.1 hb with rfl | hb
      · exact hkeep _ _ _ (hhead hkept) hrest
      · exact htail b hb
    · exact htail b hb

/-- A callback whose value does not depend on the state maps as if there were none. -/
theorem mapState_fst {g : α → β} (hf : ∀ a s, (f a s).1 = g a) (as : List α) (s : σ) :
    (mapState f as s).1 = as.map g := by
  induction as generalizing s with
  | nil => rfl
  | cons a as ih =>
    rw [map_cons, ← ih (f a s).2, ← hf a s]
    rfl

/-- A test whose outcome does not depend on the state filters as if there were none. -/
theorem filterState_fst {p : α → σ → Bool × σ} {q : α → Bool} (hp : ∀ a s, (p a s).1 = q a)
    (as : List α) (s : σ) : (filterState p as s).1 = as.filter q := by
  induction as generalizing s with
  | nil => rfl
  | cons a as ih =>
    rw [filter_cons, ← ih (p a s).2, ← hp a s]
    rfl

end Threaded
