import Mathlib.Data.List.TakeDrop
import Yantra.Executor.ValueResolver

/-!
# Substituting into a template

What the two text operations of a template do: `replaceAll` with a mark that occurs once, and
the cleanup that drops what looks like a mark.

## Main definitions

* `mark` — a name between double braces.
* `HasPlaceholder` — a text with something between double braces.

## Main results

* `infix_mark_hole` — two marks do not overlap.
* `replaceAllFrom_mark` — a mark that occurs once is replaced there.
* `stripPlaceholdersFrom_eq_self_iff` — what the cleanup leaves alone.
-/

namespace Yantra

open List Nat

/-! ## Marks -/

/-- `{{body}}` -/
def mark (body : List Char) : List Char := '{' :: '{' :: (body ++ ['}', '}'])

/-- A name that can stand between double braces: nonempty, without braces. -/
structure IsMarkName (body : List Char) : Prop where
  ne_nil : body ≠ []
  open_notMem : '{' ∉ body
  close_notMem : '}' ∉ body

lemma suffix_mark_cases {body t : List Char} (hbody : IsMarkName body)
    (h : '{' :: t <:+ mark body) : '{' :: t = mark body ∨ t = body ++ ['}', '}'] := by
  have htail : '{' ∉ body ++ ['}', '}'] := by
    simpa using hbody.open_notMem
  rw [mark, suffix_cons_iff] at h
  rcases h with h | h
  · exact Or.inl h
  rw [suffix_cons_iff] at h
  rcases h with h | h
  · exact Or.inr (List.cons.inj h).2
  · exact absurd (h.subset mem_cons_self) htail

/-- A tail of a mark that another mark starts with, or that starts another mark, is the mark.

**Proof sketch.** Otherwise the tail is one brace and the name, which has no second brace. -/
lemma suffix_mark_eq {b d v w : List Char} (hb : IsMarkName b) (hv : v ≠ [])
    (hsuffix : v <:+ mark b) (h : v <+: mark d ++ w ∨ mark d <+: v ++ w) : v = mark b := by
  obtain ⟨c, v, rfl⟩ := exists_cons_of_ne_nil hv
  have hc : c = '{' := by
    rcases h with h | h
    · exact (cons_prefix_cons.1 h).1
    · exact (cons_prefix_cons.1 h).1.symm
  subst hc
  rcases suffix_mark_cases hb hsuffix with hwhole | rfl
  · exact hwhole
  obtain ⟨x, b, rfl⟩ := exists_cons_of_ne_nil hb.ne_nil
  have hx : x = '{' := by
    rcases h with h | h
    · exact (cons_prefix_cons.1 (cons_prefix_cons.1 h).2).1
    · exact (cons_prefix_cons.1 (cons_prefix_cons.1 h).2).1.symm
  exact absurd (hx ▸ mem_cons_self) hb.open_notMem

variable {b d u w : List Char}

lemma prefix_mark_hole (hb : IsMarkName b) (hu : u ≠ []) (h : mark b <+: u ++ (mark d ++ w)) :
    mark b <+: u := by
  obtain ⟨t, ht⟩ := h
  rcases append_eq_append_iff.1 ht with ⟨v, hv, -⟩ | ⟨v, hv, hrest⟩
  · exact ⟨v, hv.symm⟩
  by_cases hnil : v = []
  · exact ⟨[], by rw [hv, hnil]; simp⟩
  have hwhole : v = mark b :=
    suffix_mark_eq hb hnil ⟨u, hv.symm⟩ (Or.inl ⟨t, hrest.symm⟩)
  have hlength := congrArg List.length hv
  rw [hwhole, length_append] at hlength
  exact absurd (length_eq_zero_iff.1 (by omega)) hu

lemma eq_of_mark_isPrefix {b d w : List Char} (hb : IsMarkName b) (hd : IsMarkName d)
    (h : mark b <+: mark d ++ w) : b = d := by
  have hspan : ∀ {n rest : List Char}, IsMarkName n →
      (n ++ '}' :: rest).takeWhile (· ≠ '}') = n := by
    intro n rest hn
    have hkeep : ∀ c ∈ n, decide (c ≠ '}') = true := by
      intro c hc
      exact decide_eq_true fun heq => hn.close_notMem (heq ▸ hc)
    rw [takeWhile_append_of_pos hkeep]
    simp
  obtain ⟨t, ht⟩ := h
  have htail : b ++ '}' :: ('}' :: t) = d ++ '}' :: ('}' :: w) := by
    simpa [mark] using ht
  calc b = (b ++ '}' :: ('}' :: t)).takeWhile (· ≠ '}') := (hspan hb).symm
    _ = (d ++ '}' :: ('}' :: w)).takeWhile (· ≠ '}') := by rw [htail]
    _ = d := hspan hd

/-- **Two marks do not overlap**: a mark inside a text that holds another one lies before it,
lies after it, or is that one. -/
lemma infix_mark_hole (hb : IsMarkName b) (hd : IsMarkName d) (h : mark b <:+: u ++ (mark d ++ w)) :
    mark b <:+: u ∨ mark b <:+: w ∨ b = d := by
  induction u with
  | cons c u ih =>
    rw [cons_append, infix_cons_iff] at h
    rcases h with h | h
    · exact Or.inl (prefix_mark_hole hb (cons_ne_nil c u) h).isInfix
    · exact (ih h).imp_left infix_cons
  | nil =>
    rw [nil_append] at h
    refine Or.inr ?_
    rcases infix_append_iff_ne_nil.1 h with ⟨s, t, hs⟩ | h | ⟨v, t, hv, -, heq, hvd, -⟩
    · have hstart : mark b <+: mark b ++ t ++ [] := ⟨t, by rw [append_nil]⟩
      have hwhole : mark b ++ t = mark d :=
        suffix_mark_eq hd (cons_ne_nil _ _) ⟨s, by rw [← append_assoc, hs]⟩
          (Or.inr hstart)
      exact Or.inr (eq_of_mark_isPrefix hb hd ⟨t, hwhole.trans (append_nil _).symm⟩)
    · exact Or.inl h
    · have hwhole : v = mark d :=
        suffix_mark_eq hd hv hvd (Or.inr ⟨[], by rw [append_nil, heq]⟩)
      have hdb : d = b := eq_of_mark_isPrefix hd hb ⟨t, by rw [heq, hwhole, append_nil]⟩
      exact Or.inr hdb.symm

/-! ## Replacing a mark -/

/-- The replacement text holds one of `$$`, `$&`, `` $` `` and `$'`. -/
def hasReplacementPattern : List Char → Bool
  | '$' :: '$' :: _ => true
  | '$' :: '&' :: _ => true
  | '$' :: '`' :: _ => true
  | '$' :: '\'' :: _ => true
  | _ :: rep => hasReplacementPattern rep
  | [] => false

lemma expandReplacement_eq_self (matched before after : List Char) {rep : List Char}
    (h : hasReplacementPattern rep = false) :
    expandReplacement matched before after rep = rep := by
  fun_induction expandReplacement matched before after rep with
  | case1 => simp [hasReplacementPattern] at h
  | case2 => simp [hasReplacementPattern] at h
  | case3 => simp [hasReplacementPattern] at h
  | case4 => simp [hasReplacementPattern] at h
  | case5 c rep h1 h2 h3 h4 ih =>
    have hrep : hasReplacementPattern rep = false := by
      rw [hasReplacementPattern] at h
      · exact h
      all_goals assumption
    rw [ih hrep]
  | case6 => rfl

lemma replaceAllFrom_eq_self {pat rep text : List Char} (before : List Char) (h : ¬ pat <:+: text) :
    replaceAllFrom pat rep 0 before text = text := by
  induction text generalizing before with
  | nil => rfl
  | cons c text ih =>
    have hhead : ¬ pat.isPrefixOf (c :: text) := by
      rw [ isPrefixOf_iff_prefix]
      exact fun hp => h hp.isInfix
    rw [replaceAllFrom, if_neg hhead, ih (c :: before) fun hi => h (infix_cons hi)]

lemma replaceAllFrom_skip (pat rep before u w : List Char) :
    replaceAllFrom pat rep u.length before (u ++ w) =
      replaceAllFrom pat rep 0 (u.reverse ++ before) w := by
  induction u generalizing before with
  | nil => rfl
  | cons c u ih =>
    rw [length_cons, cons_append, replaceAllFrom, ih]
    simp

/-- **A mark that occurs once is replaced there**, by a text without replacement patterns.

**Proof sketch.** By induction on what comes before the mark: no occurrence starts there
(`prefix_mark_hole`); past the mark, nothing is left to replace. -/
theorem replaceAllFrom_mark {body rep u w : List Char} (before : List Char)
    (hbody : IsMarkName body) (hrep : hasReplacementPattern rep = false) (hu : ¬ mark body <:+: u)
    (hw : ¬ mark body <:+: w) :
    replaceAllFrom (mark body) rep 0 before (u ++ (mark body ++ w)) = u ++ (rep ++ w) := by
  induction u generalizing before with
  | cons c u ih =>
    have hhead : ¬ (mark body).isPrefixOf (c :: (u ++ (mark body ++ w))) = true := by
      rw [ isPrefixOf_iff_prefix]
      exact fun hp => hu (prefix_mark_hole hbody (cons_ne_nil c u) hp).isInfix
    rw [cons_append, replaceAllFrom, if_neg hhead,
      ih (c :: before) fun hi => hu (infix_cons hi), cons_append]
  | nil =>
    have hhead : (mark body).isPrefixOf (mark body ++ w) = true :=
      isPrefixOf_iff_prefix.2 (prefix_append _ _)
    have hskip := replaceAllFrom_skip (mark body) rep ('{' :: before)
      ('{' :: (body ++ ['}', '}'])) w
    rw [nil_append, nil_append]
    rw [show mark body ++ w = '{' :: ('{' :: (body ++ ['}', '}']) ++ w) from rfl] at hhead ⊢
    rw [replaceAllFrom, if_pos hhead, expandReplacement_eq_self _ _ _ hrep]
    rw [show (mark body).length - 1 = ('{' :: (body ++ ['}', '}'])).length from rfl, hskip,
      replaceAllFrom_eq_self _ hw]

/-! ## The cleanup -/

/-- The text has something between double braces: two opening braces, one or more characters
other than a closing one, and two closing braces. -/
def HasPlaceholder (text : List Char) : Prop :=
  ∃ inner : List Char, inner ≠ [] ∧ '}' ∉ inner ∧ mark inner <:+: text

lemma span_close {inner rest : List Char} (h : '}' ∉ inner) :
    (inner ++ '}' :: rest).span (· ≠ '}') = (inner, '}' :: rest) := by
  have hkeep : ∀ c ∈ inner, decide (c ≠ '}') = true := by
    intro c hc
    exact decide_eq_true fun heq => h (heq ▸ hc)
  rw [span_eq_takeWhile_dropWhile, takeWhile_append_of_pos hkeep,
    dropWhile_append_of_pos hkeep]
  simp

lemma exists_mark_of_placeholderLength {text : List Char} {n : Nat}
    (h : placeholderLength text = some n) :
    ∃ inner : List Char, inner ≠ [] ∧ '}' ∉ inner ∧ mark inner <+: text := by
  unfold placeholderLength at h
  split at h
  · rename_i cs
    split at h
    · rename_i x inner rest hspan
      rw [span_eq_takeWhile_dropWhile] at hspan
      obtain ⟨htake, hdrop⟩ := Prod.mk.inj hspan
      refine ⟨x :: inner, cons_ne_nil _ _, ?_, rest, ?_⟩
      · intro hmem
        rw [← htake] at hmem
        simpa using mem_takeWhile_imp hmem
      · rw [← takeWhile_append_dropWhile (p := (· ≠ '}')) (l := cs), htake, hdrop]
        simp [mark]
    · cases h
  · cases h

lemma placeholderLength_mark {inner rest : List Char} (hne : inner ≠ []) (h : '}' ∉ inner) :
    placeholderLength (mark inner ++ rest) = some (mark inner).length := by
  obtain ⟨x, inner, rfl⟩ := exists_cons_of_ne_nil hne
  have hspan : (x :: inner ++ '}' :: '}' :: rest).span (· ≠ '}') =
      (x :: inner, '}' :: '}' :: rest) := span_close h
  have htext : mark (x :: inner) ++ rest = '{' :: '{' :: (x :: inner ++ '}' :: '}' :: rest) := by
    simp [mark]
  rw [htext, placeholderLength, hspan]
  simp [mark]

lemma stripPlaceholdersFrom_length_le (skip : Nat) (text : List Char) :
    (stripPlaceholdersFrom skip text).length ≤ text.length := by
  induction text generalizing skip with
  | nil => exact Nat.le_refl 0
  | cons c text ih =>
    cases skip with
    | succ skip => exact le_succ_of_le (ih skip)
    | zero =>
      rw [stripPlaceholdersFrom]
      split
      · exact le_succ_of_le (ih _)
      · exact succ_le_succ (ih 0)

/-- **What the cleanup leaves alone**: the texts without a placeholder.

**Proof sketch.** By induction on the text. A placeholder at the head is dropped, and what
follows it does not get longer. -/
theorem stripPlaceholdersFrom_eq_self_iff (text : List Char) :
    stripPlaceholdersFrom 0 text = text ↔ ¬ HasPlaceholder text := by
  induction text with
  | nil =>
    refine iff_of_true rfl ?_
    rintro ⟨inner, -, -, hinner⟩
    exact cons_ne_nil _ _ (infix_nil.1 hinner)
  | cons c text ih =>
    rw [stripPlaceholdersFrom]
    cases hhead : placeholderLength (c :: text) with
    | some n =>
      refine iff_of_false ?_ ?_
      · intro heq
        have hle := stripPlaceholdersFrom_length_le (n - 1) text
        have hlength : (stripPlaceholdersFrom (n - 1) text).length = text.length + 1 :=
          congrArg List.length heq
        omega
      · obtain ⟨inner, hne, hclose, hmark⟩ := exists_mark_of_placeholderLength hhead
        exact not_not_intro ⟨inner, hne, hclose, hmark.isInfix⟩
    | none =>
      have hiff : HasPlaceholder (c :: text) ↔ HasPlaceholder text := by
        constructor
        · rintro ⟨inner, hne, hclose, hinner⟩
          refine ⟨inner, hne, hclose, ?_⟩
          refine (infix_cons_iff.1 hinner).resolve_left ?_
          rintro ⟨rest, hrest⟩
          rw [← hrest, placeholderLength_mark hne hclose] at hhead
          cases hhead
        · rintro ⟨inner, hne, hclose, hinner⟩
          exact ⟨inner, hne, hclose, infix_cons hinner⟩
      rw [cons_eq_cons, hiff, ← ih]
      exact and_iff_right rfl

end Yantra
