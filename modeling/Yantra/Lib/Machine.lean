import Mathlib.Data.List.Basic

/-!
# Input-driven machines and their runs

A machine is a total step function on states, driven by a list of inputs: what the outside
world answers at each step. A run is the fold of the step function over the inputs, so a
statement about every run is a statement about every input list.

## Main definitions

* `Machine.runFrom`, `Machine.run` — the state after a list of inputs.
* `Machine.Along` — a condition on (state, input) met by every step of a run.

## Main results

* `Machine.invariant_runFrom` — an invariant kept by every step that meets a condition holds
  after every run whose steps all meet it.
* `Machine.along_iff_forall_split` — `Along` read pointwise.
* `Machine.refines_runFrom` — steps matched by runs of another machine make runs matched by runs.
* `Machine.simulates_filter` — a run with some of its inputs erased simulates the run.
* `Machine.exists_stopped` — a rank that every proper step lowers ends every endless run.
* `Machine.stopped_of_potential`, `Machine.cost_le_of_potential` — a natural number that every
  proper step lowers bounds the length of a run and what it costs.
-/

universe u v

structure Machine (σ : Type u) (ι : Type v) where
  /-- The start state. -/
  init : σ
  /-- One step on one input. -/
  step : σ → ι → σ

namespace Machine

variable {σ : Type u} {ι : Type v} (M : Machine σ ι)

/-- The state reached from `s` on the inputs `is`. -/
def runFrom (s : σ) (is : List ι) : σ := is.foldl M.step s

/-- The state reached from the start state. -/
def run (is : List ι) : σ := M.runFrom M.init is

/-- Every step of the run from `s` on `is` meets `C`. -/
def Along (C : σ → ι → Prop) : σ → List ι → Prop
  | _, [] => True
  | s, i :: is => C s i ∧ Along C (M.step s i) is

variable (s : σ)

@[simp] lemma runFrom_nil : M.runFrom s [] = s := rfl

@[simp] lemma runFrom_cons (i : ι) (is : List ι) :
    M.runFrom s (i :: is) = M.runFrom (M.step s i) is := rfl

lemma runFrom_append (is js : List ι) :
    M.runFrom s (is ++ js) = M.runFrom (M.runFrom s is) js := by
  simp [runFrom, List.foldl_append]

lemma runFrom_concat (is : List ι) (i : ι) :
    M.runFrom s (is ++ [i]) = M.step (M.runFrom s is) i := by
  rw [runFrom_append, runFrom_cons, runFrom_nil]

variable {M}

@[simp] lemma along_nil {C : σ → ι → Prop} (s : σ) : M.Along C s [] := trivial

@[simp] lemma along_cons {C : σ → ι → Prop} (s : σ) (i : ι) (is : List ι) :
    M.Along C s (i :: is) ↔ C s i ∧ M.Along C (M.step s i) is := Iff.rfl

/-- A condition that can be decided at a step can be decided along a run. -/
instance decidableAlong {C : σ → ι → Prop} [∀ s i, Decidable (C s i)] :
    ∀ (s : σ) (is : List ι), Decidable (M.Along C s is)
  | _, [] => isTrue trivial
  | s, i :: is =>
    have : Decidable (M.Along C (M.step s i) is) := decidableAlong (M.step s i) is
    inferInstanceAs (Decidable (C s i ∧ M.Along C (M.step s i) is))

lemma along_append {C : σ → ι → Prop} (s : σ) (is js : List ι) :
    M.Along C s (is ++ js) ↔ M.Along C s is ∧ M.Along C (M.runFrom s is) js := by
  induction is generalizing s with
  | nil => simp
  | cons i is ih => simp [ih, and_assoc]

lemma along_of_forall {C : σ → ι → Prop} (h : ∀ s i, C s i) (s : σ) (is : List ι) :
    M.Along C s is := by
  induction is generalizing s with
  | nil => trivial
  | cons i is ih => exact ⟨h s i, ih _⟩

/-- `Along` weakens in its condition. -/
lemma Along.mono {C D : σ → ι → Prop} (hCD : ∀ s i, C s i → D s i) {s : σ} {is : List ι}
    (h : M.Along C s is) : M.Along D s is := by
  induction is generalizing s with
  | nil => trivial
  | cons i is ih => exact ⟨hCD _ _ h.1, ih h.2⟩

/-- `Along` pointwise: every step of the run, split out of it, meets the condition. -/
lemma along_iff_forall_split {C : σ → ι → Prop} (s : σ) (is : List ι) :
    M.Along C s is ↔ ∀ pre i post, is = pre ++ i :: post → C (M.runFrom s pre) i := by
  constructor
  · rintro h pre i post rfl
    rw [along_append] at h
    exact h.2.1
  · intro h
    induction is generalizing s with
    | nil => trivial
    | cons i is ih =>
      refine ⟨h [] i is rfl, ih _ fun pre j post hsplit => ?_⟩
      exact h (i :: pre) j post (by rw [hsplit]; rfl)

/-- **The run rule.** An invariant of the start state that every step meeting `C` preserves
holds after every run whose steps all meet `C`.

**Proof sketch.** Induction on the inputs, the state generalized. -/
theorem invariant_runFrom {C : σ → ι → Prop} {Inv : σ → Prop}
    (hstep : ∀ s i, Inv s → C s i → Inv (M.step s i)) {s : σ} {is : List ι} (hs : Inv s)
    (h : M.Along C s is) : Inv (M.runFrom s is) := by
  induction is generalizing s with
  | nil => exact hs
  | cons i is ih => exact ih (hstep s i hs h.1) h.2

theorem invariant_runFrom' {Inv : σ → Prop} (hstep : ∀ s i, Inv s → Inv (M.step s i)) {s : σ}
    (hs : Inv s) (is : List ι) : Inv (M.runFrom s is) :=
  invariant_runFrom (C := fun _ _ => True) (fun s i h _ => hstep s i h) hs
    (along_of_forall (fun _ _ => trivial) s is)

/-- **The refinement rule.** If every step is matched, on what `f` shows of the state, by a run of `N`
that has the inputs `g` among its own, so is every run.

**Proof sketch.** Induction on the inputs, the state generalized. -/
theorem refines_runFrom {τ κ : Type*} {N : Machine τ κ} {C : σ → ι → Prop} (f : σ → τ) (g : ι → List κ)
    (hstep : ∀ s i, C s i → ∃ js, List.Sublist (g i) js ∧ f (M.step s i) = N.runFrom (f s) js)
    {s : σ} {is : List ι} (h : M.Along C s is) :
    ∃ js, List.Sublist (is.flatMap g) js ∧ f (M.runFrom s is) = N.runFrom (f s) js := by
  induction is generalizing s with
  | nil => exact ⟨[], .slnil, rfl⟩
  | cons i is ih =>
    obtain ⟨js, hsub, hjs⟩ := hstep s i h.1
    obtain ⟨ks, hsub', hks⟩ := ih h.2
    refine ⟨js ++ ks, hsub.append hsub', ?_⟩
    rw [runFrom_cons, hks, hjs, runFrom_append]

/-- **The erasure rule.** If a kept input preserves the relation in lockstep, and an erased input
preserves it when only the first run takes it, then the run related to the erased one ends related
to it, and the erased run meets its own condition.

**Proof sketch.** Induction on the inputs, both states generalized. -/
theorem simulates_filter {C D : σ → ι → Prop} {R : σ → σ → Prop} (keep : ι → Bool)
    (hkeep : ∀ s t i, R s t → C s i → keep i = true → D t i ∧ R (M.step s i) (M.step t i))
    (hdrop : ∀ s t i, R s t → C s i → keep i = false → R (M.step s i) t) {s t : σ} {is : List ι}
    (hR : R s t) (h : M.Along C s is) :
    M.Along D t (is.filter keep) ∧ R (M.runFrom s is) (M.runFrom t (is.filter keep)) := by
  induction is generalizing s t with
  | nil => exact ⟨trivial, hR⟩
  | cons i is ih =>
    cases hi : keep i with
    | true =>
      obtain ⟨hD, hR'⟩ := hkeep s t i hR h.1 hi
      rw [List.filter_cons_of_pos hi]
      exact ⟨⟨hD, (ih hR' h.2).1⟩, (ih hR' h.2).2⟩
    | false =>
      rw [List.filter_cons_of_neg (by simp [hi])]
      exact ih (hdrop s t i hR h.1 hi) h.2

/-- The first `n` inputs of a stream. -/
def firstInputs (is : ℕ → ι) (n : ℕ) : List ι := (List.range n).map is

lemma firstInputs_succ (is : ℕ → ι) (n : ℕ) :
    firstInputs is (n + 1) = is 0 :: firstInputs (fun k => is (k + 1)) n := by
  simp [firstInputs, List.range_succ_eq_map, Function.comp_def]

/-- **The termination rule.** Where every step that fits a state not yet stopped lowers a rank in
a well-founded order, a run on a stream of fitting inputs reaches a stopped state.

**Proof sketch.** Well-founded induction on the rank of the start state: if it is not stopped, the
first input leads to a state of lower rank, from which the rest of the stream stops. -/
theorem exists_stopped {ρ : Type*} {lt : ρ → ρ → Prop} (hwf : WellFounded lt) (rank : σ → ρ)
    {Stopped : σ → Prop} {Fits : σ → ι → Prop}
    (hlt : ∀ s i, ¬ Stopped s → Fits s i → lt (rank (M.step s i)) (rank s)) (s : σ) (is : ℕ → ι)
    (hfits : ∀ n, Fits (M.runFrom s (firstInputs is n)) (is n)) :
    ∃ n, Stopped (M.runFrom s (firstInputs is n)) := by
  induction hr : rank s using hwf.induction generalizing s is with
  | _ r ih =>
    subst hr
    by_cases hs : Stopped s
    · exact ⟨0, hs⟩
    have hfit : Fits s (is 0) := hfits 0
    have hrest : ∀ n, Fits (M.runFrom (M.step s (is 0)) (firstInputs (fun k => is (k + 1)) n))
        (is (n + 1)) := by
      intro n
      have h := hfits (n + 1)
      rwa [firstInputs_succ] at h
    obtain ⟨n, hn⟩ := ih _ (hlt s (is 0) hs hfit) (M.step s (is 0)) (fun k => is (k + 1)) hrest rfl
    exact ⟨n + 1, by rw [firstInputs_succ]; exact hn⟩

section Potential

variable {C : σ → ι → Prop} {Inv Stopped : σ → Prop} (potential : σ → ℕ)

/-- **The potential rule.** Where every step from a state not yet stopped lowers a natural number,
a run of more steps than that number has stopped.

**Proof sketch.** Induction on the inputs, the state generalized: a stopped state stays stopped, and
any other leads to one from which fewer steps are enough. -/
theorem stopped_of_potential (hinv : ∀ s i, Inv s → C s i → Inv (M.step s i))
    (hlt : ∀ s i, Inv s → C s i → ¬ Stopped s → potential (M.step s i) < potential s)
    (hstop : ∀ s i, Stopped s → Stopped (M.step s i)) {s : σ} {is : List ι} (hs : Inv s)
    (h : M.Along C s is) (hlen : potential s < is.length) : Stopped (M.runFrom s is) := by
  induction is generalizing s with
  | nil => exact absurd hlen (Nat.not_lt_zero _)
  | cons i is ih =>
    by_cases hstopped : Stopped s
    · exact invariant_runFrom' hstop (hstop s i hstopped) is
    · have hnext := hlt s i hs h.1 hstopped
      rw [List.length_cons] at hlen
      exact ih (hinv s i hs h.1) h.2 (by omega)

/-- Where every step pays for what it costs out of the potential, a run costs no more than the
potential of its start. -/
theorem cost_le_of_potential (cost : σ → ℕ) (hinv : ∀ s i, Inv s → C s i → Inv (M.step s i))
    (hpay : ∀ s i, Inv s → C s i →
      cost (M.step s i) + potential (M.step s i) ≤ cost s + potential s) {s : σ} {is : List ι}
    (hs : Inv s) (h : M.Along C s is) : cost (M.runFrom s is) ≤ cost s + potential s := by
  have hkeep : ∀ t i, Inv t ∧ cost t + potential t ≤ cost s + potential s → C t i →
      Inv (M.step t i) ∧
        cost (M.step t i) + potential (M.step t i) ≤ cost s + potential s :=
    fun t i ht hC => ⟨hinv t i ht.1 hC, Nat.le_trans (hpay t i ht.1 hC) ht.2⟩
  have hrun := invariant_runFrom hkeep ⟨hs, Nat.le_refl _⟩ h
  exact Nat.le_trans (Nat.le_add_right _ _) hrun.2

end Potential

end Machine
