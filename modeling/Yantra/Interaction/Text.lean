import Mathlib.Data.List.Infix
import Mathlib.Data.List.TakeWhile

/-!
# Texts on a page

A text is a list of code points, lone surrogates included. What a request and a label have in
common is told from their normalized texts: in lower case, every run of other code points than
letters and numbers a space. Unicode is the platform's: which code points are letters, numbers,
marks and spaces, and what lower case is.

## Main definitions

* `TextPlatform`, `TextPlatform.Unicode` — the classes of code points, and what is
  relied on about them.
* `NameTier`, `holdsAt` — how strongly a name matches.

## Main results

* `mem_of_holdsAt` — a name that matches a request holds all of its code points.
-/

namespace Yantra

open List Bool

abbrev CodePoint := ℕ

abbrev PageText := List CodePoint

structure TextPlatform where
  toLocaleLowerCase : PageText → PageText
  /-- `\p{L}` -/
  isLetter : CodePoint → Bool
  /-- `\p{N}` -/
  isNumber : CodePoint → Bool
  /-- `\p{M}` -/
  isMark : CodePoint → Bool
  /-- `\s` -/
  isSpace : CodePoint → Bool

def TextPlatform.isWordChar (pf : TextPlatform) (c : CodePoint) : Bool :=
  pf.isLetter c || pf.isNumber c

/-- What is relied on about Unicode. -/
structure TextPlatform.Unicode (pf : TextPlatform) : Prop where
  lower_fixed : ∀ text word : PageText, (∀ c ∈ word, c ∈ pf.toLocaleLowerCase text ∨ c = 32) →
    pf.toLocaleLowerCase word = word
  lower_a : pf.toLocaleLowerCase [97] = [97]
  letter_a : pf.isLetter 97
  space : pf.isSpace 32
  word_space : ∀ c, pf.isWordChar c → pf.isSpace c = false
  mark_word : ∀ c, pf.isMark c → pf.isWordChar c = false
  mark_space : ∀ c, pf.isMark c → pf.isSpace c = false

/-! ## Normalizing -/

/-- Every run of code points of a class becomes one space; `inRun` tells that the one before is of
the class. -/
def squeeze (drop : CodePoint → Bool) : Bool → PageText → PageText
  | _, [] => []
  | inRun, c :: cs =>
    if drop c then
      if inRun then squeeze drop true cs else 32 :: squeeze drop true cs
    else c :: squeeze drop false cs

/-- `text.trim()` -/
def trimText (pf : TextPlatform) (text : PageText) : PageText :=
  ((text.dropWhile pf.isSpace).reverse.dropWhile pf.isSpace).reverse

/-- A text squeezed twice and trimmed, where the first class is dropped. -/
def squeezed (pf : TextPlatform) (drop : CodePoint → Bool) (text : PageText) : PageText :=
  trimText pf (squeeze pf.isSpace false (squeeze drop false text))

def normalizeText (pf : TextPlatform) (value : PageText) : PageText :=
  squeezed pf (fun c => !pf.isWordChar c) (pf.toLocaleLowerCase value)

/-- The normalized text with the marks kept: what is the same up to case, punctuation and
spacing. -/
def spokenText (pf : TextPlatform) (value : PageText) : PageText :=
  squeezed pf (fun c => !(pf.isWordChar c || pf.isMark c)) (pf.toLocaleLowerCase value)

def tokensFrom : PageText → PageText → List PageText
  | word, [] => if word.isEmpty then [] else [word]
  | word, c :: cs =>
    if c = 32 then
      if word.isEmpty then tokensFrom [] cs else word :: tokensFrom [] cs
    else tokensFrom (word ++ [c]) cs

/-- `text.split(' ').filter(Boolean)` -/
def tokensOf (text : PageText) : List PageText := tokensFrom [] text

/-! ## Tiers -/

/-- How a name matches; a `MatchTier` other than `ref`. -/
inductive NameTier where
  | exact | leading | allTokens | substring
  deriving DecidableEq

def MATCH_TIERS : List NameTier := [.exact, .leading, .allTokens, .substring]

/-- Whether a normalized name matches a normalized request at a tier. -/
def holdsAt (actual wanted : PageText) (wantedTokens : List PageText) : NameTier → Bool
  | .exact => actual = wanted
  | .leading => wanted.isPrefixOf actual
  | .allTokens =>
    if wantedTokens.isEmpty then false
    else
      let tokens := tokensOf actual
      wantedTokens.all fun token => tokens.contains token
  | .substring => wanted <:+: actual

/-- `matchesTier`, and `matchesAtTier`, which is the same. -/
def matchesTier (pf : TextPlatform) (name wanted : PageText) (wantedTokens : List PageText)
    (tier : NameTier) : Bool :=
  holdsAt (normalizeText pf name) wanted wantedTokens tier

/-! ## What normalizing keeps -/

variable {inRun : Bool}

variable {drop : CodePoint → Bool} {text : PageText} {c : CodePoint}

lemma mem_squeeze (h : c ∈ squeeze drop inRun text) : c = 32 ∨ c ∈ text ∧ drop c = false := by
  induction text generalizing inRun with
  | nil => cases h
  | cons d text ih =>
    rw [squeeze] at h
    split_ifs at h with hdrop hrun
    · exact (ih h).imp_right fun h => ⟨mem_cons_of_mem d h.1, h.2⟩
    · rcases mem_cons.1 h with rfl | h
      · exact .inl rfl
      · exact (ih h).imp_right fun h => ⟨mem_cons_of_mem d h.1, h.2⟩
    · rcases mem_cons.1 h with rfl | h
      · exact .inr ⟨mem_cons_self, eq_false_iff.2 hdrop⟩
      · exact (ih h).imp_right fun h => ⟨mem_cons_of_mem d h.1, h.2⟩

lemma mem_squeeze_of_mem (h : c ∈ text) (hc : drop c = false) : c ∈ squeeze drop inRun text := by
  induction text generalizing inRun with
  | nil => cases h
  | cons d text ih =>
    rw [squeeze]
    rcases mem_cons.1 h with rfl | h
    · simp [hc]
    · split_ifs
      · exact ih h
      · exact mem_cons_of_mem _ (ih h)
      · exact mem_cons_of_mem _ (ih h)

lemma squeeze_map {f : CodePoint → CodePoint}
    (hdrop : ∀ c, drop (f c) = drop c) (hkeep : ∀ c, drop c = false → f c = c) (inRun : Bool)
    (text : PageText) : squeeze drop inRun (text.map f) = squeeze drop inRun text := by
  induction text generalizing inRun with
  | nil => rfl
  | cons c text ih =>
    rw [map_cons, squeeze, squeeze, hdrop, ih, ih]
    split
    next => rfl
    next hc => rw [hkeep c (eq_false_iff.2 hc)]

lemma mem_dropWhile_of_mem (h : c ∈ text) (hc : drop c = false) : c ∈ text.dropWhile drop := by
  rw [← takeWhile_append_dropWhile (p := drop) (l := text), mem_append] at h
  rcases h with h | h
  · rw [mem_takeWhile_imp h] at hc
    cases hc
  · exact h

section

variable {pf : TextPlatform} {text : PageText} {c : CodePoint}

lemma mem_of_mem_trimText (h : c ∈ trimText pf text) : c ∈ text := by
  rw [trimText, mem_reverse] at h
  exact (dropWhile_sublist _).mem (mem_reverse.1 ((dropWhile_sublist _).mem h))

lemma mem_trimText_of_mem (h : c ∈ text) (hc : pf.isSpace c = false) : c ∈ trimText pf text := by
  rw [trimText, mem_reverse]
  exact mem_dropWhile_of_mem (mem_reverse.2 (mem_dropWhile_of_mem h hc)) hc

variable {drop : CodePoint → Bool}

lemma mem_squeezed (h : c ∈ squeezed pf drop text) : c = 32 ∨ c ∈ text ∧ drop c = false := by
  rcases mem_squeeze (mem_of_mem_trimText h) with rfl | ⟨h, -⟩
  · exact .inl rfl
  · exact mem_squeeze h

lemma mem_squeezed_of_mem (h : c ∈ text) (hdrop : drop c = false) (hspace : pf.isSpace c = false) :
    c ∈ squeezed pf drop text :=
  mem_trimText_of_mem (mem_squeeze_of_mem (mem_squeeze_of_mem h hdrop) hspace) hspace

end

/-! ## What a match says -/

lemma mem_of_mem_tokensFrom {word token : PageText}
    (h : token ∈ tokensFrom word text) (hc : c ∈ token) : c ∈ word ∨ c ∈ text := by
  induction text generalizing word with
  | nil =>
    rw [tokensFrom] at h
    split_ifs at h
    · cases h
    · rw [mem_singleton.1 h] at hc
      exact .inl hc
  | cons d text ih =>
    rw [tokensFrom] at h
    split_ifs at h
    · rcases ih h with hno | h
      · cases hno
      · exact .inr (mem_cons_of_mem d h)
    · rcases mem_cons.1 h with rfl | h
      · exact .inl hc
      · rcases ih h with hno | h
        · cases hno
        · exact .inr (mem_cons_of_mem d h)
    · rcases ih h with h | h
      · rcases mem_append.1 h with h | h
        · exact .inl h
        · rw [mem_singleton.1 h]
          exact .inr mem_cons_self
      · exact .inr (mem_cons_of_mem d h)

lemma exists_token {word : PageText} (h : c ∈ word ∨ c ∈ text) (hc : c ≠ 32) :
    ∃ token ∈ tokensFrom word text, c ∈ token := by
  induction text generalizing word with
  | nil =>
    have hword : c ∈ word := h.resolve_right (not_mem_nil)
    rw [tokensFrom, if_neg (by simpa using ne_nil_of_mem hword)]
    exact ⟨word, mem_singleton_self word, hword⟩
  | cons d text ih =>
    rw [tokensFrom]
    split_ifs with hd hword
    · subst hd
      rw [List.isEmpty_iff.1 hword] at h
      exact ih (.inr ((mem_cons.1 (h.resolve_left not_mem_nil)).resolve_left hc))
    · subst hd
      rcases h with h | h
      · exact ⟨word, mem_cons_self, h⟩
      · obtain ⟨token, hmem, hin⟩ := @ih [] (.inr ((mem_cons.1 h).resolve_left hc))
        exact ⟨token, mem_cons_of_mem _ hmem, hin⟩
    · refine ih ?_
      rcases h with h | h
      · exact .inl (mem_append_left _ h)
      · rcases mem_cons.1 h with rfl | h
        · exact .inl (mem_append_right _ (mem_singleton_self c))
        · exact .inr h

/-- **A name that matches a request holds every code point of it**, but for the spaces. -/
theorem mem_of_holdsAt {actual wanted : PageText} {tier : NameTier}
    (h : holdsAt actual wanted (tokensOf wanted) tier) (hmem : c ∈ wanted) (hc : c ≠ 32) :
    c ∈ actual := by
  cases tier with
  | exact =>
    rw [of_decide_eq_true h]
    exact hmem
  | leading => exact ( isPrefixOf_iff_prefix.1 h).subset hmem
  | substring => exact (of_decide_eq_true h).subset hmem
  | allTokens =>
    obtain ⟨token, htoken, hin⟩ := exists_token (.inr hmem) hc
    rw [holdsAt] at h
    split at h
    next => cases h
    next =>
      have hcontains := all_eq_true.1 h token htoken
      rcases mem_of_mem_tokensFrom (contains_iff_mem.1 hcontains) hin with hno | hactual
      · cases hno
      · exact hactual

end Yantra
