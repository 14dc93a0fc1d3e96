import Yantra.Lib.Regex

/-!
# Texts with tokens

A language of tokens that never overlap is recognized and substituted unambiguously: wherever
tokens are spliced between pieces that contain none, exactly these tokens are found again.

## Main definitions

* `Tokens.Piece`, `Tokens.pieces` — a text cut at the matches of a pattern.
* `Tokens.Resolves` — pieces, and what they stand for.

## Main results

* `Tokens.overlapFree_bracketed` — tokens in doubled brackets do not overlap.
* `Tokens.replace_eq_of_substitutes` — replacing a plain pattern computes the substitution.
* `Tokens.substitutes_of_resolves` — spliced tokens are found again, and nothing else.
* `Tokens.resolves_pieces` — a text cut at its tokens is such a splicing.
* `Tokens.Resolves.refine` — pieces may be cut further.
-/

universe u

namespace Tokens

open List Nat Regex

variable {α : Type u}

/-! ## Tokens that do not overlap -/

/-- Where two words of `L` occur in a text and the second starts within the first, they are the
same occurrence. -/
def OverlapFree (L : List α → Prop) : Prop :=
  ∀ u v p s t, L u → L v → u ++ s = p ++ v ++ t → p.length < u.length → p = [] ∧ u = v

/-- No word of `L` occurs in a text. -/
def TokenFree (L : List α → Prop) (text : List α) : Prop := ∀ w, L w → ¬ w <:+: text

lemma TokenFree.mono {L : List α → Prop} {s t : List α} (h : TokenFree L t) (hs : s <:+: t) :
    TokenFree L s := fun w hw hin => h w hw (hin.trans hs)

lemma OverlapFree.mono {L L' : List α → Prop} (h : OverlapFree L') (hsub : ∀ w, L w → L' w) :
    OverlapFree L :=
  fun u v p s t hu hv => h u v p s t (hsub u hu) (hsub v hv)

lemma OverlapFree.eq_of_starts {L : List α → Prop} (h : OverlapFree L) {u v text : List α}
    (hu : L u) (hv : L v) (hne : u ≠ []) (hpu : u <+: text) (hpv : v <+: text) : u = v := by
  obtain ⟨s, rfl⟩ := hpu
  obtain ⟨t, ht⟩ := hpv
  exact (h u v [] s t hu hv ht.symm (length_pos_iff.2 hne)).2

/-- Words in doubled brackets `a a … b b`, without brackets inside. -/
def Bracketed (a b : α) (w : List α) : Prop :=
  ∃ m, m ≠ [] ∧ a ∉ m ∧ b ∉ m ∧ w = a :: a :: (m ++ [b, b])

/-- A word is cut uniquely before the first `b`. -/
lemma eq_of_append_cons {b : α} {m n s t : List α} (hm : b ∉ m) (hn : b ∉ n)
    (h : m ++ b :: s = n ++ b :: t) : m = n := by
  induction m generalizing n with
  | nil =>
    cases n with
    | nil => rfl
    | cons c n =>
      rw [nil_append, cons_append, List.cons.injEq] at h
      exact absurd (h.1 ▸ mem_cons_self) hn
  | cons c m ih =>
    cases n with
    | nil =>
      rw [nil_append, cons_append, List.cons.injEq] at h
      exact absurd (h.1 ▸ mem_cons_self) hm
    | cons d n =>
      rw [cons_append, cons_append, List.cons.injEq] at h
      rw [h.1, ih (fun hmem => hm (mem_cons_of_mem c hmem))
        (fun hmem => hn (mem_cons_of_mem d hmem)) h.2]

/-- **Tokens in doubled brackets do not overlap.**

**Proof sketch.** A token starts with two `a`s, and a token has `a`s only at its first two places;
so a second one that starts within the first starts with it, and both end at the first `b`. -/
theorem overlapFree_bracketed {a b : α} (hab : a ≠ b) : OverlapFree (Bracketed a b) := by
  rintro u v p s t ⟨m, hm, ham, hbm, rfl⟩ ⟨n, hn, han, hbn, rfl⟩ h hp
  cases p with
  | nil =>
    refine ⟨rfl, ?_⟩
    simp only [cons_append, append_assoc, nil_append, List.cons.injEq,
      true_and] at h
    rw [eq_of_append_cons hbm hbn h]
  | cons c p =>
    exfalso
    cases p with
    | nil =>
      obtain ⟨d, m, rfl⟩ := exists_cons_of_ne_nil hm
      simp only [cons_append, nil_append, List.cons.injEq] at h
      exact ham (h.2.2.1 ▸ mem_cons_self)
    | cons d p =>
      simp only [cons_append, append_assoc, nil_append, List.cons.injEq] at h
      simp only [length_cons, length_append, length_nil] at hp
      have hlt : p.length < (m ++ [b, b]).length := by
        rw [length_append]
        simp only [length_cons, length_nil]
        omega
      have hget : (m ++ [b, b] ++ s)[p.length]? = some a := by
        have heq : m ++ [b, b] ++ s = p ++ a :: (a :: (n ++ b :: b :: t)) := by
          simpa using h.2.2
        rw [heq, getElem?_append_right (Nat.le_refl _), Nat.sub_self]
        rfl
      rw [getElem?_append_left hlt] at hget
      have hmem : a ∈ m ++ [b, b] := mem_of_getElem? hget
      simp only [mem_append, mem_cons, not_mem_nil, or_false, or_self] at hmem
      exact hmem.elim ham hab

/-! ## Substitution -/

/-- The second text is the first with every token `w` replaced by `f w`. -/
inductive Substitutes (L : List α → Prop) (f : List α → List α) : List α → List α → Prop where
  | nil : Substitutes L f [] []
  | skip {a : α} {s t : List α} (hnone : ∀ w, L w → ¬ w <+: a :: s) (h : Substitutes L f s t) :
      Substitutes L f (a :: s) (a :: t)
  | token {w s t : List α} (hw : L w) (h : Substitutes L f s t) :
      Substitutes L f (w ++ s) (f w ++ t)

/-- A pattern that recognizes the tokens of a language which do not overlap. -/
structure Recognizes (r : Regex α) (L : List α → Prop) : Prop where
  plain : r.Plain
  denotes : ∀ w, r.Denotes w ↔ L w
  overlapFree : OverlapFree L
  nonempty : ∀ w, L w → w ≠ []

section Pattern

variable {r : Regex α} {L : List α → Prop}

variable {text : List α} {i : ℕ}

variable {m : Regex.Match α}

lemma Recognizes.of_matchAt (h : Recognizes r L) (hm : r.matchAt text i = some m) :
    m.index = i ∧ L m.text ∧ m.text <+: text.drop i := by
  obtain ⟨q, hq, hindex, -, hmoves⟩ := matchAt_eq_some hm
  obtain ⟨w, hw, hmoves'⟩ := denotes_of_mem_run h.plain _ q hq
  have heq : m.text = w := hmoves.upTo_eq.symm.trans hmoves'.upTo_eq
  exact ⟨hindex, heq ▸ (h.denotes w).1 hw, ⟨q.after, hmoves.after.symm⟩⟩

lemma Recognizes.matchAt_eq_none (h : Recognizes r L) (hnone : ∀ w, L w → ¬ w <+: text.drop i) :
    r.matchAt text i = none := by
  cases hm : r.matchAt text i with
  | none => rfl
  | some m =>
    obtain ⟨-, hw, hpre⟩ := h.of_matchAt hm
    exact absurd hpre (hnone _ hw)

lemma Recognizes.matchAt_of_token (h : Recognizes r L) {text w : List α} (hw : L w)
    (hpre : w <+: text.drop i) : ∃ m, r.matchAt text i = some m ∧ m.index = i ∧ m.text = w := by
  obtain ⟨rest, hrest⟩ := hpre
  cases hm : r.matchAt text i with
  | none =>
    obtain ⟨q, hq, -⟩ := exists_mem_run (posAt text i) w rest
      ((h.denotes w).2 hw) hrest.symm
    rw [Regex.matchAt_eq_none_iff.1 hm] at hq
    cases hq
  | some m =>
    obtain ⟨hindex, hm', hpre'⟩ := h.of_matchAt hm
    exact ⟨m, rfl, hindex,
      h.overlapFree.eq_of_starts hm' hw (h.nonempty _ hm') hpre' ⟨rest, hrest⟩⟩

lemma exec_of_matchAt (hi : i ≤ text.length) (hm : r.matchAt text i = some m) :
    r.exec text i = some m := by
  rw [exec, Nat.sub_add_comm hi, searchFrom, hm]

lemma exec_of_matchAt_none (hi : i ≤ text.length) (hm : r.matchAt text i = none) :
    r.exec text i = r.exec text (i + 1) := by
  rw [exec, Nat.sub_add_comm hi, searchFrom, hm, exec, Nat.add_sub_add_right]

lemma splice_succ (text : List α) (f : Regex.Match α → List α) {i j : ℕ} (hij : i ≤ j)
    {ms : List (Regex.Match α)} (hms : Regex.Ordered text j ms) :
    splice text f i ms = Regex.slice text i j ++ splice text f j ms := by
  cases ms with
  | nil => exact (slice_append_drop text hij).symm
  | cons m ms =>
    rw [splice, splice, ← slice_append_slice text hij hms.1]
    simp only [append_assoc]

/-- Replacing tokens from the end of `pre` on.

**Proof sketch.** Induction on the substitution: where no token starts the search goes on, and a
token is its first match. -/
lemma splice_of_substitutes (h : Recognizes r L) {f : List α → List α} {s t : List α}
    (hsub : Substitutes L f s t) (pre : List α) (fuel : ℕ) (hfuel : s.length < fuel) :
    splice (pre ++ s) (fun m => f m.text) pre.length
      (r.execAll (pre ++ s) fuel pre.length) = t := by
  induction hsub generalizing pre fuel with
  | nil =>
    have hnone : r.exec (pre ++ []) pre.length = none := by
      rw [exec_eq_none_iff]
      intro j hj hle
      refine h.matchAt_eq_none fun w hw hpre => h.nonempty w hw ?_
      rw [append_nil, drop_eq_nil_of_le hj] at hpre
      exact prefix_nil.1 hpre
    obtain ⟨fuel, rfl⟩ := exists_eq_succ_of_ne_zero (Nat.ne_of_gt (zero_lt_of_lt hfuel))
    rw [execAll, hnone, splice, append_nil, drop_length]
  | @skip a s t hnone _ ih =>
    obtain ⟨fuel, rfl⟩ := exists_eq_succ_of_ne_zero (Nat.ne_of_gt (zero_lt_of_lt hfuel))
    have hle : pre.length ≤ (pre ++ a :: s).length := by simp
    have hat : r.matchAt (pre ++ a :: s) pre.length = none :=
      h.matchAt_eq_none (by rwa [drop_left])
    have hexec : r.execAll (pre ++ a :: s) (fuel + 1) pre.length =
        r.execAll (pre ++ a :: s) (fuel + 1) (pre.length + 1) := by
      rw [execAll, exec_of_matchAt_none hle hat, execAll]
    have hslice : Regex.slice (pre ++ a :: s) pre.length (pre.length + 1) = [a] := by
      rw [Regex.slice, take_append, drop_append]
      simp
    have hrest := ih (pre ++ [a]) (fuel + 1) (lt_of_succ_lt hfuel)
    rw [append_assoc, singleton_append, length_append, length_singleton]
      at hrest
    rw [hexec, splice_succ _ _ (le_succ _) (ordered_execAll r _ _ _), hslice, hrest]
    rfl
  | @token w s t hw _ ih =>
    obtain ⟨fuel, rfl⟩ := exists_eq_succ_of_ne_zero (Nat.ne_of_gt (zero_lt_of_lt hfuel))
    have hle : pre.length ≤ (pre ++ (w ++ s)).length := by simp
    have hpre : w <+: (pre ++ (w ++ s)).drop pre.length := by
      rw [drop_left]
      exact prefix_append w s
    obtain ⟨m, hm, hindex, htext⟩ := h.matchAt_of_token hw hpre
    have hwpos : 0 < w.length := length_pos_iff.2 (h.nonempty w hw)
    have hstop : m.stop = (pre ++ w).length := by
      rw [Regex.Match.stop, hindex, htext, length_append]
    have hslice : Regex.slice (pre ++ (w ++ s)) pre.length pre.length = [] := by
      rw [Regex.slice, drop_take_self]
    have hempty : m.text.isEmpty = false := by
      rw [htext, isEmpty_eq_false_iff]
      exact h.nonempty w hw
    have hrest := ih (pre ++ w) fuel (by rw [length_append] at hfuel; omega)
    rw [append_assoc] at hrest
    rw [execAll, exec_of_matchAt hle hm]
    simp only [hempty, Bool.false_eq_true, if_false]
    rw [splice, hindex, hslice, htext, hstop, hrest, nil_append]

/-- **Replacing a plain pattern computes the substitution.** -/
theorem replace_eq_of_substitutes (h : Recognizes r L) {f : List α → List α} {s t : List α}
    (hsub : Substitutes L f s t) : r.replace (fun m => f m.text) s = t :=
  splice_of_substitutes h hsub [] (s.length + 1) (lt_succ_self _)

end Pattern

/-! ## Pieces -/

structure Piece (α : Type u) where
  text : List α
  isProtected : Bool
  deriving DecidableEq, Repr

def flat (ps : List (Piece α)) : List α := ps.flatMap Piece.text

/-- No pieces at all, or a token first. -/
def HeadProtected (ps : List (Piece α)) : Prop := ∀ p ∈ ps.head?, p.isProtected = true

lemma headProtected_nil : HeadProtected ([] : List (Piece α)) := by
  intro p hp
  cases hp

lemma headProtected_token (w : List α) (ps : List (Piece α)) :
    HeadProtected (⟨w, true⟩ :: ps) := by
  intro p hp
  cases hp
  rfl

/-- Pieces without tokens alternate with tokens, and together they stand for a text: the pieces for
themselves, a token `w` for `f w`. -/
inductive Resolves (L : List α → Prop) (f : List α → List α) : List (Piece α) → List α → Prop where
  | nil : Resolves L f [] []
  | gap {g t : List α} {ps : List (Piece α)} (hfree : TokenFree L g) (hhead : HeadProtected ps)
      (h : Resolves L f ps t) : Resolves L f (⟨g, false⟩ :: ps) (g ++ t)
  | token {w t : List α} {ps : List (Piece α)} (hw : L w) (h : Resolves L f ps t) :
      Resolves L f (⟨w, true⟩ :: ps) (f w ++ t)

section Resolving

variable {r : Regex α} {L : List α → Prop} {f : List α → List α}

lemma not_prefix_of_gap (hL : OverlapFree L) {a : α} {g rest : List α}
    (hfree : TokenFree L (a :: g)) (hrest : rest = [] ∨ ∃ w t, L w ∧ rest = w ++ t) {v : List α}
    (hv : L v) : ¬ v <+: a :: (g ++ rest) := by
  rintro ⟨t, ht⟩
  rw [← cons_append] at ht
  rcases Nat.lt_or_ge (a :: g).length v.length with hlong | hshort
  · rcases hrest with rfl | ⟨w, t', hw, rfl⟩
    · rw [append_nil] at ht
      have hlen := congrArg List.length ht
      rw [length_append] at hlen
      omega
    · have hnil := (hL v w (a :: g) t t' hv hw (by rw [ht, append_assoc]) hlong).1
      cases hnil
  · have hpre : v <+: a :: g :=
      prefix_of_prefix_length_le ⟨t, ht⟩ (prefix_append _ _) hshort
    exact hfree v hv hpre.isInfix

lemma substitutes_gap (hL : OverlapFree L) {g rest t : List α} (hfree : TokenFree L g)
    (hrest : rest = [] ∨ ∃ w t, L w ∧ rest = w ++ t) (h : Substitutes L f rest t) :
    Substitutes L f (g ++ rest) (g ++ t) := by
  induction g with
  | nil => exact h
  | cons a g ih =>
    exact .skip (fun v hv => not_prefix_of_gap hL hfree hrest hv)
      (ih (hfree.mono (suffix_cons a g).isInfix))

variable {ps : List (Piece α)} {t : List α}

/-- **Spliced tokens are found again, and nothing else.** -/
theorem substitutes_of_resolves (hL : OverlapFree L) (h : Resolves L f ps t) :
    Substitutes L f (flat ps) t := by
  induction h with
  | nil => exact .nil
  | @gap g t ps hfree hhead hps ih =>
    refine substitutes_gap hL hfree ?_ ih
    cases hps with
    | nil => exact .inl rfl
    | gap => exact absurd (hhead _ rfl) Bool.false_ne_true
    | @token w t ps hw hps => exact .inr ⟨w, flat ps, hw, rfl⟩
  | token hw _ ih => exact .token hw ih

/-- A text with its tokens replaced is what its pieces stand for. -/
theorem replace_flat (h : Recognizes r L) (hps : Resolves L f ps t) :
    r.replace (fun m => f m.text) (flat ps) = t :=
  replace_eq_of_substitutes h (substitutes_of_resolves h.overlapFree hps)

/-- Pieces refined one by one stand for the same text: every piece without tokens becomes pieces
that stand for it, whatever follows. -/
theorem Resolves.refine {step : Piece α → List (Piece α)}
    (htoken : ∀ w, step ⟨w, true⟩ = [⟨w, true⟩])
    (hgap : ∀ g ps t, TokenFree L g → HeadProtected ps → Resolves L f ps t →
      Resolves L f (step ⟨g, false⟩ ++ ps) (g ++ t))
    (h : Resolves L f ps t) :
    Resolves L f (ps.flatMap step) t := by
  induction h with
  | nil => exact .nil
  | @gap g t ps hfree hhead hps ih =>
    rw [flatMap_cons]
    refine hgap g _ t hfree ?_ ih
    cases hps with
    | nil => exact headProtected_nil
    | gap => exact absurd (hhead _ rfl) Bool.false_ne_true
    | @token w t ps hw hps =>
      rw [flatMap_cons, htoken]
      exact headProtected_token w _
  | @token w t ps hw hps ih =>
    rw [flatMap_cons, htoken]
    exact .token hw ih

/-! ## Cutting a text at its tokens -/

/-- The pieces of a text from `cursor` on: its matches, and what is between them. -/
def piecesFrom (text : List α) : ℕ → List (Regex.Match α) → List (Piece α)
  | cursor, [] => if cursor < text.length then [⟨text.drop cursor, false⟩] else []
  | cursor, m :: ms =>
    (if cursor < m.index then [⟨Regex.slice text cursor m.index, false⟩] else []) ++
      ⟨m.text, true⟩ :: piecesFrom text m.stop ms

def pieces (r : Regex α) (text : List α) : List (Piece α) :=
  match piecesFrom text 0 (r.matchAll text) with
  | [] => [⟨text, false⟩]
  | ps => ps

variable {text : List α}

/-- Where a search finds nothing there is no token before what it found. -/
lemma tokenFree_slice (h : Recognizes r L) {i k : ℕ} (hk : k ≤ text.length)
    (hnone : ∀ j, i ≤ j → j < k → r.matchAt text j = none) :
    TokenFree L (Regex.slice text i k) := by
  rintro w hw ⟨x, y, hxy⟩
  have hpos : 0 < w.length := length_pos_iff.2 (h.nonempty w hw)
  have hlen := congrArg List.length hxy
  simp only [Regex.slice, length_append, length_drop, length_take] at hlen
  have hpre : w <+: text.drop (i + x.length) := by
    have hdrop : (Regex.slice text i k).drop x.length <+: text.drop (i + x.length) := by
      rw [Regex.slice, drop_drop, drop_take]
      exact take_prefix _ _
    refine IsPrefix.trans ⟨y, ?_⟩ hdrop
    rw [← hxy, append_assoc, drop_left]
  obtain ⟨m, hm, -⟩ := h.matchAt_of_token hw hpre
  rw [hnone _ (Nat.le_add_right _ _) (by omega)] at hm
  cases hm

/-- A search finds nothing exactly in the texts without tokens. -/
theorem Recognizes.exec_eq_none_iff (h : Recognizes r L) :
    r.exec text 0 = none ↔ TokenFree L text := by
  rw [Regex.exec_eq_none_iff]
  constructor
  · intro hnone
    have hslice := tokenFree_slice h (Nat.le_refl text.length) fun j hj hlt =>
      hnone j hj (Nat.le_of_lt hlt)
    rwa [Regex.slice, take_length] at hslice
  · intro hfree j _ _
    exact h.matchAt_eq_none fun w hw hpre =>
      hfree w hw (hpre.isInfix.trans (drop_suffix j text).isInfix)

lemma exists_resolves_piecesFrom (h : Recognizes r L) (text : List α) (fuel cursor : ℕ)
    (hfuel : text.length < cursor + fuel) (hcursor : cursor ≤ text.length) :
    (∃ t, Resolves L f (piecesFrom text cursor (r.execAll text fuel cursor)) t) ∧
      flat (piecesFrom text cursor (r.execAll text fuel cursor)) = text.drop cursor := by
  induction fuel generalizing cursor with
  | zero => omega
  | succ fuel ih =>
    rw [execAll]
    cases hexec : r.exec text cursor with
    | none =>
      simp only [piecesFrom]
      split_ifs with hlt
      · have hfree : TokenFree L (text.drop cursor) := by
          have hslice := tokenFree_slice h (Nat.le_refl text.length) fun j hj hlt =>
            Regex.exec_eq_none_iff.1 hexec j hj (Nat.le_of_lt hlt)
          rwa [Regex.slice, take_length] at hslice
        exact ⟨⟨_, .gap hfree headProtected_nil .nil⟩, flatMap_singleton _ _⟩
      · exact ⟨⟨_, .nil⟩, (drop_eq_nil_of_le (Nat.le_of_not_lt hlt)).symm⟩
    | some m =>
      obtain ⟨hle, hin, hat, hbefore⟩ := exec_spec hexec
      obtain ⟨-, hw, -⟩ := h.of_matchAt hat
      have hempty : m.text.isEmpty = false := isEmpty_eq_false_iff.2 (h.nonempty _ hw)
      have hpos : 0 < m.text.length := length_pos_iff.2 (h.nonempty _ hw)
      have hstop : m.index + m.text.length = m.stop := rfl
      obtain ⟨⟨t, ht⟩, hflat⟩ := ih m.stop (by omega) hin.stop_le
      simp only [hempty, Bool.false_eq_true, if_false, piecesFrom]
      have htail := Resolves.token (f := f) hw ht
      have hrest : flat (⟨m.text, true⟩ :: piecesFrom text m.stop (r.execAll text fuel m.stop)) =
          text.drop m.index := by
        rw [hin.drop_eq, ← hflat]
        rfl
      have hindex : m.index ≤ text.length := by have := hin.stop_le; omega
      split_ifs with hlt
      · have hfree := tokenFree_slice h hindex hbefore
        refine ⟨⟨_, .gap hfree (headProtected_token _ _) htail⟩, ?_⟩
        rw [← slice_append_drop text hle, ← hrest]
        rfl
      · obtain rfl : cursor = m.index := by omega
        exact ⟨⟨_, htail⟩, hrest⟩

lemma exists_resolves_pieces (h : Recognizes r L) (f : List α → List α) (text : List α) :
    (∃ t, Resolves L f (pieces r text) t) ∧ flat (pieces r text) = text := by
  obtain ⟨⟨t, ht⟩, hflat⟩ := exists_resolves_piecesFrom (f := f) h text (text.length + 1) 0
    (by omega) (Nat.zero_le _)
  unfold pieces matchAll
  split
  · rename_i hnil
    rw [hnil] at hflat
    have hempty : text = [] := hflat.symm
    subst hempty
    refine ⟨⟨_, .gap (fun w hw hin => ?_) headProtected_nil .nil⟩, rfl⟩
    exact h.nonempty w hw (infix_nil.1 hin)
  · exact ⟨⟨t, ht⟩, hflat⟩

/-- **A text cut at its tokens** stands for what replacing them gives. -/
theorem resolves_pieces (h : Recognizes r L) (text : List α) :
    Resolves L f (pieces r text) (r.replace (fun m => f m.text) text) := by
  obtain ⟨⟨t, ht⟩, hflat⟩ := exists_resolves_pieces h f text
  have hreplace := replace_flat h ht
  rw [hflat] at hreplace
  rwa [hreplace]

variable {ms : List (Regex.Match α)} {p : Piece α}

/-- No empty pieces are cut off. -/
lemma ne_nil_of_mem_piecesFrom {cursor : ℕ} (hms : Regex.Ordered text cursor ms)
    (hp : p ∈ piecesFrom text cursor ms) (hopen : p.isProtected = false) : p.text ≠ [] := by
  induction ms generalizing cursor with
  | nil =>
    rw [piecesFrom] at hp
    split_ifs at hp with hlt
    · obtain rfl := mem_singleton.1 hp
      exact fun hnil => absurd (drop_eq_nil_iff.1 hnil) (Nat.not_le.2 hlt)
    · cases hp
  | cons m ms ih =>
    rw [piecesFrom] at hp
    rcases mem_append.1 hp with hp | hp
    · split_ifs at hp with hlt
      · obtain rfl := mem_singleton.1 hp
        intro hnil
        have hstop := hms.2.1.stop_le
        rw [Regex.Match.stop] at hstop
        rw [Regex.slice, drop_eq_nil_iff, length_take] at hnil
        omega
      · cases hp
    · rcases mem_cons.1 hp with rfl | hp
      · cases hopen
      · exact ih hms.2.2 hp

lemma ne_nil_of_mem_pieces (htext : text ≠ []) (hp : p ∈ pieces r text)
    (hopen : p.isProtected = false) : p.text ≠ [] := by
  unfold pieces at hp
  split at hp
  · obtain rfl := mem_singleton.1 hp
    exact htext
  · exact ne_nil_of_mem_piecesFrom (ordered_matchAll r text) hp hopen

variable {before g rest : List α}

lemma exec_gap (h : Recognizes r L) (hfree : TokenFree L g)
    (hrest : rest = [] ∨ ∃ w t, L w ∧ rest = w ++ t) :
    r.exec (before ++ (g ++ rest)) before.length =
      r.exec (before ++ (g ++ rest)) (before ++ g).length := by
  induction g generalizing before with
  | nil => rw [append_nil]
  | cons a g ih =>
    have hat : r.matchAt (before ++ (a :: g ++ rest)) before.length = none := by
      refine h.matchAt_eq_none fun w hw => ?_
      rw [drop_left]
      exact not_prefix_of_gap h.overlapFree hfree hrest hw
    have hnext := @ih (before ++ [a]) (hfree.mono (suffix_cons a g).isInfix)
    rw [append_assoc, append_assoc, singleton_append, length_append,
      length_singleton] at hnext
    rw [exec_of_matchAt_none (by simp) hat]
    exact hnext

/-- A piece before a token, or at the end, is cut off as a whole. -/
lemma piecesFrom_gap (hg : g ≠ [])
    (hms : Regex.Ordered (before ++ (g ++ rest)) (before ++ g).length ms)
    (hhead : HeadProtected (piecesFrom (before ++ (g ++ rest)) (before ++ g).length ms)) :
    piecesFrom (before ++ (g ++ rest)) before.length ms =
      ⟨g, false⟩ :: piecesFrom (before ++ (g ++ rest)) (before ++ g).length ms := by
  have hgpos : 0 < g.length := length_pos_iff.2 hg
  cases ms with
  | nil =>
    rw [piecesFrom] at hhead
    split_ifs at hhead with hlt
    · exact absurd (hhead _ rfl) Bool.false_ne_true
    · simp only [length_append] at hlt
      have hrest : rest = [] := length_eq_zero_iff.1 (by omega)
      subst hrest
      rw [piecesFrom, if_pos (by simpa using hgpos), piecesFrom, if_neg (by simp), drop_left,
        append_nil]
  | cons m ms =>
    have hle := hms.1
    rw [piecesFrom] at hhead
    split_ifs at hhead with hlt
    · exact absurd (hhead _ rfl) Bool.false_ne_true
    · have hindex : m.index = (before ++ g).length := by omega
      have hslice : Regex.slice (before ++ (g ++ rest)) before.length m.index = g := by
        rw [Regex.slice, hindex, ← append_assoc, take_left, drop_left]
      rw [piecesFrom, if_pos (by rw [hindex, length_append]; omega), hslice, piecesFrom,
        if_neg hlt]
      rfl

/-- The pieces from the end of `before` on are found again.

**Proof sketch.** Induction on the pieces: a search goes over a piece without tokens, and a token
is its first match. -/
lemma piecesFrom_flat (h : Recognizes r L) {ps : List (Piece α)} {t : List α}
    (hps : Resolves L f ps t) (hne : ∀ p ∈ ps, p.isProtected = false → p.text ≠ [])
    (before : List α) (fuel : ℕ) (hfuel : (flat ps).length < fuel) :
    piecesFrom (before ++ flat ps) before.length
      (r.execAll (before ++ flat ps) fuel before.length) = ps := by
  induction hps generalizing before fuel with
  | nil =>
    obtain ⟨fuel, rfl⟩ := exists_eq_succ_of_ne_zero (Nat.ne_of_gt (zero_lt_of_lt hfuel))
    have hnone : r.exec (before ++ []) before.length = none := by
      rw [exec_eq_none_iff]
      intro j hj _
      refine h.matchAt_eq_none fun w hw hpre => h.nonempty w hw ?_
      rw [append_nil, drop_eq_nil_of_le hj] at hpre
      exact prefix_nil.1 hpre
    change piecesFrom (before ++ []) before.length (r.execAll (before ++ []) _ before.length) = []
    rw [execAll, hnone, piecesFrom, append_nil, if_neg (Nat.lt_irrefl _)]
  | @token w t ps hw hps ih =>
    obtain ⟨fuel, rfl⟩ := exists_eq_succ_of_ne_zero (Nat.ne_of_gt (zero_lt_of_lt hfuel))
    change (w ++ flat ps).length < fuel + 1 at hfuel
    change piecesFrom (before ++ (w ++ flat ps)) before.length
      (r.execAll (before ++ (w ++ flat ps)) (fuel + 1) before.length) = ⟨w, true⟩ :: ps
    have hpre : w <+: (before ++ (w ++ flat ps)).drop before.length := by
      rw [drop_left]
      exact prefix_append w _
    obtain ⟨m, hm, hindex, htext⟩ := h.matchAt_of_token hw hpre
    have hwpos : 0 < w.length := length_pos_iff.2 (h.nonempty w hw)
    have hempty : m.text.isEmpty = false := by
      rw [htext, isEmpty_eq_false_iff]
      exact h.nonempty w hw
    have hstop : m.stop = (before ++ w).length := by
      rw [Regex.Match.stop, hindex, htext, length_append]
    have hrest := ih (fun p hp => hne p (mem_cons_of_mem _ hp)) (before ++ w) fuel
      (by rw [length_append] at hfuel; omega)
    rw [append_assoc] at hrest
    rw [execAll, exec_of_matchAt (by simp) hm]
    simp only [hempty, Bool.false_eq_true, if_false]
    rw [piecesFrom, hindex, if_neg (Nat.lt_irrefl _), nil_append, htext, hstop, hrest]
  | @gap g t ps hfree hhead hps ih =>
    obtain ⟨fuel, rfl⟩ := exists_eq_succ_of_ne_zero (Nat.ne_of_gt (zero_lt_of_lt hfuel))
    change (g ++ flat ps).length < fuel + 1 at hfuel
    change piecesFrom (before ++ (g ++ flat ps)) before.length
      (r.execAll (before ++ (g ++ flat ps)) (fuel + 1) before.length) = ⟨g, false⟩ :: ps
    have hg : g ≠ [] := hne _ mem_cons_self rfl
    have hgpos : 0 < g.length := length_pos_iff.2 hg
    have hrest : flat ps = [] ∨ ∃ w u, L w ∧ flat ps = w ++ u := by
      cases hps with
      | nil => exact .inl rfl
      | gap => exact absurd (hhead _ rfl) Bool.false_ne_true
      | @token w u ps hw hps => exact .inr ⟨w, flat ps, hw, rfl⟩
    have hbehind := ih (fun p hp => hne p (mem_cons_of_mem _ hp)) (before ++ g) (fuel + 1)
      (by rw [length_append] at hfuel; omega)
    rw [append_assoc] at hbehind
    have hexec : r.execAll (before ++ (g ++ flat ps)) (fuel + 1) before.length =
        r.execAll (before ++ (g ++ flat ps)) (fuel + 1) (before ++ g).length := by
      rw [execAll, exec_gap h hfree hrest, execAll]
    rw [hexec, piecesFrom_gap hg (ordered_execAll r _ _ _) (hbehind.symm ▸ hhead), hbehind]

/-- **Pieces are found again**, where no empty ones are among them. -/
theorem pieces_flat (h : Recognizes r L) (hps : Resolves L f ps t)
    (hne : ∀ p ∈ ps, p.isProtected = false → p.text ≠ []) (hsome : ps ≠ []) :
    pieces r (flat ps) = ps := by
  have hfound := piecesFrom_flat h hps hne [] ((flat ps).length + 1) (lt_succ_self _)
  rw [nil_append, length_nil] at hfound
  unfold pieces matchAll
  split
  · rename_i hnil
    rw [hnil] at hfound
    exact absurd hfound.symm hsome
  · exact hfound

end Resolving

end Tokens
