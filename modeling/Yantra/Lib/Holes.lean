import Mathlib.Data.List.Basic
import Mathlib.Data.List.Pairwise

/-!
# Texts with holes

A text made of fixed words and of holes, each of which is written as some word. Its source is the
text with the holes as written; filling it puts another word in the place of each hole. Replacing
the holes in the source one by one, the last one first, is filling it: what is put in for a hole
lies behind the holes still to come and is not looked at again.

## Main definitions

* `TextPart`, `Parts.source`, `Parts.fill` — a part of such a text, the source, and the filled text.
* `Parts.holes` — the holes with their offsets in the source.

## Main results

* `Parts.foldr_holes` — replacing from the last hole to the first fills the text.
* `Parts.offsets_increasing` — the offsets of holes that are not written as nothing increase.
-/

universe u v

/-- A fixed word, or a hole with the word it is written as. -/
inductive TextPart (α : Type u) (κ : Type v) where
  | text (w : List α)
  | hole (k : κ) (w : List α)

namespace TextPart

variable {α : Type u} {κ : Type v}

def source : TextPart α κ → List α
  | .text w => w
  | .hole _ w => w

def fill (f : κ → List α) : TextPart α κ → List α
  | .text w => w
  | .hole k _ => f k

end TextPart

namespace Parts

variable {α : Type u} {κ : Type v}

def source (ps : List (TextPart α κ)) : List α := ps.flatMap TextPart.source

def fill (f : κ → List α) (ps : List (TextPart α κ)) : List α := ps.flatMap (TextPart.fill f)

/-- The holes with their offsets, where the text begins at `start`. -/
def holes : ℕ → List (TextPart α κ) → List (κ × ℕ)
  | _, [] => []
  | start, .text w :: ps => holes (start + w.length) ps
  | start, .hole k w :: ps => (k, start) :: holes (start + w.length) ps

@[simp] lemma source_nil : source ([] : List (TextPart α κ)) = [] := rfl

@[simp] lemma source_cons (p : TextPart α κ) (ps : List (TextPart α κ)) :
    source (p :: ps) = p.source ++ source ps := rfl

@[simp] lemma source_append (ps qs : List (TextPart α κ)) :
    source (ps ++ qs) = source ps ++ source qs := List.flatMap_append

@[simp] lemma fill_cons (f : κ → List α) (p : TextPart α κ) (ps : List (TextPart α κ)) :
    fill f (p :: ps) = p.fill f ++ fill f ps := rfl

/-- The holes of the second of two texts lie behind the first.

**Proof sketch.** Induction on the first text, its start generalized. -/
lemma holes_append (start : ℕ) (ps qs : List (TextPart α κ)) :
    holes start (ps ++ qs) = holes start ps ++ holes (start + (source ps).length) qs := by
  induction ps generalizing start with
  | nil => simp [holes]
  | cons p ps ih =>
    cases p with
    | text w => simp [holes, ih, TextPart.source, Nat.add_assoc]
    | hole k w => simp [holes, ih, TextPart.source, Nat.add_assoc]

/-- A hole lies at the start or behind it.

**Proof sketch.** Induction on the text, its start generalized. -/
lemma le_of_mem_holes {start : ℕ} {ps : List (TextPart α κ)} {h : κ × ℕ} (hmem : h ∈ holes start ps) :
    start ≤ h.2 := by
  induction ps generalizing start with
  | nil => cases hmem
  | cons p ps ih =>
    cases p with
    | text w => exact Nat.le_trans (Nat.le_add_right _ _) (ih hmem)
    | hole k w =>
      rcases List.mem_cons.1 hmem with rfl | hmem
      · exact Nat.le_refl _
      · exact Nat.le_trans (Nat.le_add_right _ _) (ih hmem)

/-- The offsets of holes that are not written as nothing increase.

**Proof sketch.** Induction on the text: the holes after one begin behind it. -/
lemma offsets_increasing (start : ℕ) {ps : List (TextPart α κ)}
    (hne : ∀ k w, TextPart.hole k w ∈ ps → w ≠ []) :
    (holes start ps).Pairwise fun h h' => h.2 < h'.2 := by
  induction ps generalizing start with
  | nil => exact List.Pairwise.nil
  | cons p ps ih =>
    have hrest := fun start => ih start fun k w hmem => hne k w (List.mem_cons_of_mem p hmem)
    cases p with
    | text w => exact hrest _
    | hole k w =>
      refine List.pairwise_cons.2 ⟨fun h hmem => ?_, hrest _⟩
      have hpos := List.length_pos_of_ne_nil (hne k w List.mem_cons_self)
      exact Nat.lt_of_lt_of_le (Nat.lt_add_of_pos_right hpos) (le_of_mem_holes hmem)

/-- **Replacing from the last hole to the first fills the text.** It is enough that one replacement
puts in its word between any text before the hole and any text behind it.

**Proof sketch.** Induction on the text, what lies before it generalized: by the induction
hypothesis everything behind a hole is filled when its turn comes. -/
theorem foldr_holes {step : κ × ℕ → List α → List α} {f : κ → List α} {IsHole : κ → List α → Prop}
    (hstep : ∀ k before w after, IsHole k w →
      step (k, before.length) (before ++ w ++ after) = before ++ f k ++ after)
    {ps : List (TextPart α κ)} (hps : ∀ k w, TextPart.hole k w ∈ ps → IsHole k w) (before : List α) :
    (holes before.length ps).foldr step (before ++ source ps) = before ++ fill f ps := by
  induction ps generalizing before with
  | nil => rfl
  | cons p ps ih =>
    have hrest := ih fun k w hmem => hps k w (List.mem_cons_of_mem p hmem)
    cases p with
    | text w =>
      have htail := hrest (before ++ w)
      rw [List.length_append, List.append_assoc, List.append_assoc] at htail
      exact htail
    | hole k w =>
      have htail := hrest (before ++ w)
      rw [List.length_append, List.append_assoc] at htail
      rw [holes, List.foldr_cons, source_cons, TextPart.source, htail,
        hstep k before w (fill f ps) (hps k w List.mem_cons_self), fill_cons, TextPart.fill,
        List.append_assoc]

end Parts
