import Mathlib.Data.List.Basic

/-!
# Reading words

A text of encoded words with one separator between is read symbol by symbol. Where reading an
encoded word between two others comes down to that word, reading the text comes down to the words.

## Main results

* `Words.read_rest`, `Words.read_intercalate` — reading what is joined gives the words back.
* `Words.read_le` — reading gains no more than the words weigh.
-/

namespace Words

open List Option

universe u v w

variable {σ : Type u} {α : Type v} {τ : Type w}

/-- Reading an encoded word between two others comes down to the word. -/
def ReadsWord (step : σ → α → Option σ) (finish : σ → Option (List τ)) (gap : List τ → σ) (sep : α)
    (code : List α) (t : τ) : Prop :=
  ∀ ts, ∃ s, code.foldlM step (gap ts) = some s ∧ step s sep = some (gap (ts ++ [t])) ∧
    finish s = some (ts ++ [t])

/-- **Reading goes on with the words behind.**

**Proof sketch.** Induction on the words; what was read before is in the state. -/
theorem read_rest {ι : Type w} {step : σ → α → Option σ} {finish : σ → Option (List τ)}
    {gap : List τ → σ} {sep : α} {encode : ι → List α} {value : ι → τ} {is : List ι}
    (hread : ∀ i ∈ is, ReadsWord step finish gap sep (encode i) (value i)) {s : σ} {us : List τ}
    (hsep : step s sep = some (gap us)) (hfinish : finish s = some us) :
    ((is.flatMap fun i => sep :: encode i).foldlM step s).bind finish =
      some (us ++ is.map value) := by
  induction is generalizing s us with
  | nil => simpa using hfinish
  | cons i is ih =>
    obtain ⟨hi, his⟩ := forall_mem_cons.1 hread
    obtain ⟨s', hrun, hsep', hfinish'⟩ := hi us
    rw [flatMap_cons, cons_append, foldlM_cons, hsep, bind_eq_bind,
      bind_some, foldlM_append, hrun, bind_eq_bind, bind_some,
      ih his hsep' hfinish', append_assoc, map_cons, singleton_append]

lemma intercalate_cons_eq_append_flatMap (sep : α) (c : List α) (cs : List (List α)) :
    [sep].intercalate (c :: cs) = c ++ cs.flatMap (sep :: ·) := by
  induction cs generalizing c with
  | nil => simp
  | cons d cs ih =>
    rw [intercalate_cons_cons, ih, flatMap_cons, append_assoc, singleton_append,
      cons_append]

/-- **Reading what is joined gives the words back.** -/
theorem read_intercalate {step : σ → α → Option σ} {finish : σ → Option (List τ)} {gap : List τ → σ}
    {sep : α} {encode : τ → List α} {ts : List τ}
    (hread : ∀ t ∈ ts, ReadsWord step finish gap sep (encode t) t)
    (hgap : ∀ us, finish (gap us) = some us) (us : List τ) :
    (([sep].intercalate (ts.map encode)).foldlM step (gap us)).bind finish = some (us ++ ts) := by
  cases ts with
  | nil => simp [hgap]
  | cons t ts =>
    obtain ⟨ht, hts⟩ := forall_mem_cons.1 hread
    obtain ⟨s, hrun, hsep, hfinish⟩ := ht us
    have hrest := @read_rest σ α τ τ step finish gap sep encode id ts hts s _ hsep hfinish
    rw [map_cons, intercalate_cons_eq_append_flatMap, flatMap_map, foldlM_append,
      hrun, bind_eq_bind, bind_some, hrest, List.map_id, append_assoc,
      singleton_append]

/-- Reading an encoded word between two others gains at most so much, where it comes to an end. -/
def GainsAtMost (step : σ → α → Option σ) (finish : σ → Option (List τ)) (gap : List τ → σ)
    (sep : α) (μ : List τ → ℕ) (code : List α) (n : ℕ) : Prop :=
  ∀ us s, code.foldlM step (gap us) = some s → ∃ vs, step s sep = some (gap vs) ∧
    finish s = some vs ∧ μ vs ≤ μ us + n

/-- **Reading gains no more than the words weigh.**

**Proof sketch.** Induction on the words; each is read from where the one before it has ended. -/
theorem read_le {step : σ → α → Option σ} {finish : σ → Option (List τ)} {gap : List τ → σ}
    {sep : α} {μ : List τ → ℕ} {encode : τ → List α} {ω : τ → ℕ} {ts us vs : List τ} {s : σ}
    (hgain : ∀ t ∈ ts, GainsAtMost step finish gap sep μ (encode t) (ω t))
    (hsep : step s sep = some (gap us)) (hfinish : finish s = some us)
    (hread : ((ts.flatMap fun t => sep :: encode t).foldlM step s).bind finish = some vs) :
    μ vs ≤ μ us + ts.foldr (fun t n => ω t + n) 0 := by
  induction ts generalizing us s with
  | nil =>
    rw [List.flatMap_nil, foldlM_nil, Option.pure_def, bind_some, hfinish] at hread
    cases hread
    simp
  | cons t ts ih =>
    obtain ⟨ht, hts⟩ := forall_mem_cons.1 hgain
    rw [flatMap_cons, cons_append, foldlM_cons, hsep, bind_eq_bind,
      bind_some, foldlM_append] at hread
    cases hrun : (encode t).foldlM step (gap us) with
    | none => simp [hrun] at hread
    | some s' =>
      obtain ⟨us', hsep', hfinish', hle⟩ := ht us s' hrun
      rw [hrun, bind_eq_bind, bind_some] at hread
      have hrest := ih hts hsep' hfinish' hread
      rw [foldr_cons]
      omega

end Words
