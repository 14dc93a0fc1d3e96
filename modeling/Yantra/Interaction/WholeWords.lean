import Mathlib.Data.List.Chain
import Mathlib.Data.List.DropRight
import Yantra.Interaction.Text
import Yantra.Lib.Words

/-!
# Whole words

A normalized text is its words with one space between two of them. It holds another one as a run
of whole words where the other one stands in it between spaces or the ends of the text.

## Main definitions

* `Spaced` — words with one space between two of them.
* `WholeIn` — a text stands in another one between spaces or ends.

## Main results

* `wholeIn_iff` — it does so where it is a run of whole words of the other.
* `sameOrContains_iff` — one text equals or contains the other, by where it stands.
-/

namespace Yantra

open List

/-! ## Letters and words -/

def lettersOf (pf : TextPlatform) (value : PageText) : PageText :=
  (pf.toLocaleLowerCase value).filter fun c => pf.isWordChar c || pf.isMark c

def wordsOf (pf : TextPlatform) (value : PageText) : List PageText := tokensOf (spokenText pf value)

/-- One text equals the other, or contains it as a run of whole words, up to letter case,
punctuation and spacing. -/
def SameOrContains (pf : TextPlatform) (text other : PageText) : Prop :=
  lettersOf pf text = lettersOf pf other ∨
    (wordsOf pf other ≠ [] ∧ wordsOf pf other <:+: wordsOf pf text) ∨
    (wordsOf pf text ≠ [] ∧ wordsOf pf text <:+: wordsOf pf other)

instance (pf : TextPlatform) (text other : PageText) : Decidable (SameOrContains pf text other) :=
  inferInstanceAs (Decidable (_ ∨ _ ∨ _))

/-- Words with one space between two of them. -/
structure Spaced (text : PageText) : Prop where
  once : text.IsChain fun c d => ¬ (c = 32 ∧ d = 32)
  head : text.head? ≠ some 32
  last : text.getLast? ≠ some 32

/-- A text stands in another one, from a space or its start on to a space or its end. -/
def WholeIn (text other : PageText) : Prop :=
  text ≠ [] ∧ ∃ before after, other = before ++ text ++ after ∧
    (∀ c ∈ before.getLast?, c = 32) ∧ ∀ c ∈ after.head?, c = 32

/-! ## Words and the texts they make -/

/-- `words.join(' ')` -/
def joinWords (words : List PageText) : PageText := List.intercalate [32] words

lemma joinWords_cons (word : PageText) (words : List PageText) :
    joinWords (word :: words) = word ++ words.flatMap (32 :: ·) :=
  Words.intercalate_cons_eq_append_flatMap 32 word words

lemma joinWords_append {words : List PageText} (h : words ≠ []) (others : List PageText) :
    joinWords (words ++ others) = joinWords words ++ others.flatMap (32 :: ·) := by
  obtain ⟨word, words, rfl⟩ := exists_cons_of_ne_nil h
  rw [cons_append, joinWords_cons, joinWords_cons, flatMap_append, append_assoc]

lemma tokensFrom_append_space (word text rest : PageText) :
    tokensFrom word (text ++ 32 :: rest) = tokensFrom word text ++ tokensOf rest := by
  induction text generalizing word with
  | nil =>
    simp only [nil_append, tokensFrom, tokensOf, if_true]
    split_ifs <;> rfl
  | cons c text ih =>
    rw [cons_append, tokensFrom, tokensFrom]
    split_ifs
    · exact ih []
    · rw [ih [], cons_append]
    · exact ih (word ++ [c])

lemma tokensOf_space (text : PageText) : tokensOf (32 :: text) = tokensOf text :=
  tokensFrom_append_space [] [] text

lemma tokensOf_concat_space (text : PageText) : tokensOf (text ++ [32]) = tokensOf text :=
  (tokensFrom_append_space [] text []).trans (append_nil _)

variable {text other : PageText} {pf : TextPlatform}

/-- **The words of a text make the text.** -/
lemma joinWords_tokensFrom {word : PageText}
    (honce : text.IsChain fun c d => ¬ (c = 32 ∧ d = 32)) (hlast : text.getLast? ≠ some 32)
    (hhead : word = [] → text.head? ≠ some 32) : joinWords (tokensFrom word text) = word ++ text := by
  induction text generalizing word with
  | nil =>
    rw [tokensFrom]
    split_ifs with hword
    · rw [List.isEmpty_iff.1 hword]
      rfl
    · rw [joinWords_cons]
      rfl
  | cons c text ih =>
    rw [isChain_cons] at honce
    obtain ⟨hnext, honce⟩ := honce
    have hlast' : text ≠ [] → text.getLast? ≠ some 32 := fun hne => by
      rwa [getLast?_cons_of_ne_nil hne] at hlast
    rw [tokensFrom]
    split_ifs with hc hword
    · exact absurd (by rw [hc]; rfl) (hhead (List.isEmpty_iff.1 hword))
    · -- a word ends: another one follows the space
      have hne : text ≠ [] := by
        rintro rfl
        exact hlast (by rw [hc]; rfl)
      have hrest : joinWords (tokensFrom [] text) = [] ++ text :=
        ih honce (hlast' hne) fun _ hsome => hnext 32 hsome ⟨hc, rfl⟩
      rw [nil_append] at hrest
      obtain ⟨next, others, hothers⟩ : ∃ next others, tokensFrom [] text = next :: others := by
        refine exists_cons_of_ne_nil fun hnil => hne ?_
        rw [← hrest, hnil]
        rfl
      rw [hothers, joinWords_cons, flatMap_cons, cons_append, ← joinWords_cons, ← hothers,
        hrest, hc]
    · rcases eq_or_ne text [] with rfl | hne
      · rw [tokensFrom, if_neg (by simp), joinWords_cons]
        simp
      · rw [ih honce (hlast' hne) (by simp), append_assoc, singleton_append]

lemma Spaced.joinWords_tokensOf (h : Spaced text) : joinWords (tokensOf text) = text :=
  joinWords_tokensFrom h.once h.last fun _ => h.head

lemma Spaced.tokensOf_ne_nil (h : Spaced text) (hne : text ≠ []) : tokensOf text ≠ [] := by
  intro hnil
  refine hne ?_
  rw [← h.joinWords_tokensOf, hnil]
  rfl

lemma tokensOf_append {before after : PageText} (hbefore : ∀ c ∈ before.getLast?, c = 32)
    (hafter : ∀ c ∈ after.head?, c = 32) :
    tokensOf (before ++ text ++ after) = tokensOf before ++ tokensOf text ++ tokensOf after := by
  have hend : tokensOf (text ++ after) = tokensOf text ++ tokensOf after := by
    cases after with
    | nil => rw [append_nil, show tokensOf [] = [] from rfl, append_nil]
    | cons c after =>
      obtain rfl : c = 32 := hafter c rfl
      rw [tokensOf_space]
      exact tokensFrom_append_space [] text after
  rw [append_assoc, append_assoc, ← hend]
  rcases eq_nil_or_concat before with rfl | ⟨start, c, rfl⟩
  · rfl
  · obtain rfl : c = 32 := hbefore c (by simp)
    rw [concat_eq_append, tokensOf_concat_space, append_assoc]
    exact tokensFrom_append_space [] start _

/-- **Whole words**: a text stands in another one between spaces or ends where its words are a run
of the words of the other. -/
theorem wholeIn_iff (htext : Spaced text) (hother : Spaced other) :
    WholeIn text other ↔ tokensOf text ≠ [] ∧ tokensOf text <:+: tokensOf other := by
  constructor
  · rintro ⟨hne, before, after, rfl, hbefore, hafter⟩
    exact ⟨htext.tokensOf_ne_nil hne, tokensOf before, tokensOf after,
      (tokensOf_append hbefore hafter).symm⟩
  · rintro ⟨hne, before, after, hwords⟩
    have hother' := hother.joinWords_tokensOf
    rw [← hwords, joinWords_append (by simp [hne])] at hother'
    have htext' := htext.joinWords_tokensOf
    refine ⟨?_, ?_⟩
    · rintro rfl
      exact hne rfl
    have hafter : ∀ c ∈ (after.flatMap (32 :: ·)).head?, c = 32 := by
      cases after with
      | nil => simp
      | cons word after => simp
    rcases eq_or_ne before [] with rfl | hbefore
    · refine ⟨[], after.flatMap (32 :: ·), ?_, by simp, hafter⟩
      rw [← hother', nil_append, nil_append, htext']
    · obtain ⟨word, words, hcons⟩ := exists_cons_of_ne_nil hne
      refine ⟨joinWords before ++ [32], after.flatMap (32 :: ·), ?_, by simp, hafter⟩
      have hwords' : (tokensOf text).flatMap (32 :: ·) = 32 :: text := by
        rw [hcons, flatMap_cons, cons_append, ← joinWords_cons, ← hcons, htext']
      rw [← hother', joinWords_append hbefore, hwords']
      simp

/-! ## Normalized texts -/

section

variable {pf : TextPlatform} {drop : CodePoint → Bool} {text : PageText}

lemma trimText_isInfix (pf : TextPlatform) (text : PageText) : trimText pf text <:+: text :=
  ( rdropWhile_prefix pf.isSpace (text.dropWhile pf.isSpace)).isInfix.trans
    (dropWhile_suffix _).isInfix

variable {c : CodePoint}

lemma head?_trimText (h : (trimText pf text).head? = some c) :
    pf.isSpace c = false := by
  obtain ⟨rest, hrest⟩ : trimText pf text <+: text.dropWhile pf.isSpace :=
    rdropWhile_prefix _ _
  have hhead := head?_dropWhile_not pf.isSpace text
  rw [← hrest, head?_append, h] at hhead
  exact hhead

lemma getLast?_trimText (h : (trimText pf text).getLast? = some c) :
    pf.isSpace c = false := by
  rw [trimText, getLast?_reverse] at h
  have hhead := head?_dropWhile_not pf.isSpace (text.dropWhile pf.isSpace).reverse
  rw [h] at hhead
  exact hhead

lemma squeeze_once (hdrop : drop 32) (inRun : Bool) (text : PageText) :
    (squeeze drop inRun text).IsChain (fun c d => ¬ (c = 32 ∧ d = 32)) ∧
      (inRun → (squeeze drop inRun text).head? ≠ some 32) := by
  induction text generalizing inRun with
  | nil => exact ⟨isChain_nil, fun _ => by simp [squeeze]⟩
  | cons c text ih =>
    rw [squeeze]
    split_ifs with hc hrun
    · exact ⟨(ih true).1, fun _ => (ih true).2 rfl⟩
    · refine ⟨isChain_cons.2 ⟨fun d hd => ?_, (ih true).1⟩, fun hno => absurd hno hrun⟩
      rintro ⟨-, rfl⟩
      exact (ih true).2 rfl hd
    · have hne : c ≠ 32 := by
        rintro rfl
        exact hc hdrop
      exact ⟨isChain_cons.2 ⟨fun d _ h => hne h.1, (ih false).1⟩, fun _ => by simpa using hne⟩

/-- **A normalized text is spaced.** -/
lemma spaced_squeezed (hspace : pf.isSpace 32) (drop : CodePoint → Bool) (text : PageText) :
    Spaced (squeezed pf drop text) where
  once := by
    obtain ⟨before, after, htext⟩ :=
      trimText_isInfix pf (squeeze pf.isSpace false (squeeze drop false text))
    have honce := (squeeze_once hspace false (squeeze drop false text)).1
    rw [← htext] at honce
    exact honce.left_of_append.right_of_append
  head h := by
    rw [head?_trimText h] at hspace
    cases hspace
  last h := by
    rw [getLast?_trimText h] at hspace
    cases hspace

variable {keep : CodePoint → Bool}

lemma filter_squeeze (hkeep : ∀ c, keep c → drop c = false) (hspace : keep 32 = false)
    (inRun : Bool) (text : PageText) :
    (squeeze drop inRun text).filter keep = text.filter keep := by
  induction text generalizing inRun with
  | nil => rfl
  | cons c text ih =>
    rw [squeeze]
    split_ifs with hc hrun
    · have hno : ¬ keep c = true := fun h => by simp [hkeep c h] at hc
      rw [ih, filter_cons_of_neg hno]
    · have hno : ¬ keep c = true := fun h => by simp [hkeep c h] at hc
      rw [filter_cons_of_neg (by simp [hspace]), ih, filter_cons_of_neg hno]
    · rw [filter_cons, filter_cons, ih]

lemma filter_trimText (hkeep : ∀ c, pf.isSpace c → keep c = false) (text : PageText) :
    (trimText pf text).filter keep = text.filter keep := by
  have hdropped : ∀ cs : PageText, (cs.dropWhile pf.isSpace).filter keep = cs.filter keep := by
    intro cs
    have htaken : (cs.takeWhile pf.isSpace).filter keep = [] :=
      filter_eq_nil_iff.2 fun c hc => by simp [hkeep c (mem_takeWhile_imp hc)]
    calc (cs.dropWhile pf.isSpace).filter keep
        = (cs.takeWhile pf.isSpace ++ cs.dropWhile pf.isSpace).filter keep := by
          rw [filter_append, htaken, nil_append]
      _ = cs.filter keep := by rw [takeWhile_append_dropWhile]
  rw [trimText, filter_reverse, hdropped, filter_reverse, reverse_reverse, hdropped]

/-- **Normalizing keeps what is kept.** -/
lemma filter_squeezed (hspace : pf.isSpace 32)
    (hkeep : ∀ c, keep c → drop c = false ∧ pf.isSpace c = false) (text : PageText) :
    (squeezed pf drop text).filter keep = text.filter keep := by
  have hspaces : ∀ c, pf.isSpace c = true → keep c = false := fun c hc =>
    Bool.eq_false_iff.2 fun h => by simp [(hkeep c h).2] at hc
  rw [squeezed, filter_trimText hspaces, filter_squeeze (fun c hc => (hkeep c hc).2) (hspaces 32 hspace),
    filter_squeeze (fun c hc => (hkeep c hc).1) (hspaces 32 hspace)]

end

/-! ## Texts without marks -/

section

variable {pf : TextPlatform} {text other : PageText}

lemma squeeze_congr {drop drop' : CodePoint → Bool}
    (h : ∀ c ∈ text, drop c = drop' c) (inRun : Bool) :
    squeeze drop inRun text = squeeze drop' inRun text := by
  induction text generalizing inRun with
  | nil => rfl
  | cons c text ih =>
    have htext := ih fun d hd => h d (mem_cons_of_mem c hd)
    simp only [squeeze, h c mem_cons_self, htext]

lemma spokenText_eq_normalizeText (h : ∀ c ∈ pf.toLocaleLowerCase text, pf.isMark c = false) :
    spokenText pf text = normalizeText pf text := by
  have hdrop : squeeze (fun c => !(pf.isWordChar c || pf.isMark c)) false
      (pf.toLocaleLowerCase text) =
      squeeze (fun c => !pf.isWordChar c) false (pf.toLocaleLowerCase text) :=
    squeeze_congr (fun c hc => by rw [h c hc, Bool.or_false]) false
  rw [spokenText, normalizeText, squeezed, squeezed, hdrop]

lemma lettersOf_eq_filter (hpf : pf.Unicode)
    (h : ∀ c ∈ pf.toLocaleLowerCase text, pf.isMark c = false) :
    lettersOf pf text = (normalizeText pf text).filter pf.isWordChar := by
  rw [normalizeText, filter_squeezed hpf.space fun c hc => ⟨by simp [hc], hpf.word_space c hc⟩]
  exact filter_congr fun c hc => by rw [h c hc, Bool.or_false]

lemma normalizeText_eq_of_isInfix (hpf : pf.Unicode)
    (hinner : normalizeText pf other <:+: normalizeText pf text)
    (hletters : (normalizeText pf text).filter pf.isWordChar =
      (normalizeText pf other).filter pf.isWordChar) :
    normalizeText pf other = normalizeText pf text := by
  obtain ⟨before, after, htext⟩ := hinner
  have hspaced : Spaced (normalizeText pf text) := spaced_squeezed hpf.space _ _
  have hlen := congrArg List.length hletters
  rw [← htext, filter_append, filter_append, length_append, length_append]
    at hlen
  -- what is around the other text has no letter, so it is spaces
  have hspaces : ∀ c ∈ before ++ after, c = 32 := by
    intro c hc
    have hmem : c ∈ normalizeText pf text := by
      rw [← htext]
      simp only [mem_append] at hc ⊢
      tauto
    rcases mem_squeezed hmem with rfl | ⟨-, hword⟩
    · rfl
    · have hnil : (before ++ after).filter pf.isWordChar = [] := by
        rw [← length_eq_zero_iff, filter_append, length_append]
        omega
      have hno := filter_eq_nil_iff.1 hnil c hc
      simp at hword
      exact absurd hword hno
  have hbefore : before = [] := by
    cases before with
    | nil => rfl
    | cons c before =>
      refine absurd ?_ hspaced.head
      rw [← htext, hspaces c (by simp)]
      rfl
  have hafter : after = [] := by
    rcases eq_nil_or_concat after with rfl | ⟨rest, c, rfl⟩
    · rfl
    · refine absurd ?_ hspaced.last
      rw [← htext, hspaces c (by simp)]
      simp
  rw [← htext, hbefore, hafter, nil_append, append_nil]

lemma WholeIn.isInfix (h : WholeIn text other) : text <:+: other := by
  obtain ⟨-, before, after, rfl, -⟩ := h
  exact ⟨before, after, rfl⟩

lemma WholeIn.refl (h : text ≠ []) : WholeIn text text :=
  ⟨h, [], [], by simp, by simp, by simp⟩

end

/-! ## Equal or contained -/

/-- **One text equals or contains another one** where their letters are the same, or the one stands
in the other one. -/
theorem sameOrContains_iff (hpf : pf.Unicode) (text other : PageText) :
    SameOrContains pf text other ↔ lettersOf pf text = lettersOf pf other ∨
      WholeIn (spokenText pf other) (spokenText pf text) ∨
      WholeIn (spokenText pf text) (spokenText pf other) := by
  have hspaced := fun value => spaced_squeezed hpf.space
    (fun c => !(pf.isWordChar c || pf.isMark c)) (pf.toLocaleLowerCase value)
  rw [spokenText, spokenText, wholeIn_iff (hspaced other) (hspaced text),
    wholeIn_iff (hspaced text) (hspaced other)]
  rfl

lemma sameOrContains_of_isInfix (hpf : pf.Unicode)
    (htext : ∀ c ∈ pf.toLocaleLowerCase text, pf.isMark c = false)
    (hother : ∀ c ∈ pf.toLocaleLowerCase other, pf.isMark c = false)
    (hinner : normalizeText pf other <:+: normalizeText pf text) :
    SameOrContains pf text other ↔ normalizeText pf text = [] ∨
      WholeIn (normalizeText pf other) (normalizeText pf text) := by
  rw [sameOrContains_iff hpf, spokenText_eq_normalizeText htext, spokenText_eq_normalizeText hother,
    lettersOf_eq_filter hpf htext, lettersOf_eq_filter hpf hother]
  constructor
  · rintro (hletters | hwhole | hwhole)
    · have heq := normalizeText_eq_of_isInfix hpf hinner hletters
      rcases eq_or_ne (normalizeText pf text) [] with hnil | hne
      · exact .inl hnil
      · exact .inr (by rw [heq]; exact WholeIn.refl hne)
    · exact .inr hwhole
    · have heq := hinner.eq_of_length_le hwhole.isInfix.length_le
      exact .inr (by rw [heq]; exact WholeIn.refl hwhole.1)
  · rintro (hnil | hwhole)
    · have hnil' : normalizeText pf other = [] := infix_nil.1 (hnil ▸ hinner)
      exact .inl (by rw [hnil, hnil'])
    · exact .inr (.inl hwhole)

lemma sameOrContains_comm : SameOrContains pf text other ↔ SameOrContains pf other text := by
  rw [SameOrContains, SameOrContains, eq_comm, or_comm (a := _ ∧ _)]

end Yantra
