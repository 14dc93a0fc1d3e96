import Mathlib.Algebra.Order.Field.Basic
import Mathlib.Tactic.Linarith
import Mathlib.Tactic.Ring
import Yantra.Interaction.WholeWords

/-!
# Text that is typed

Typed text is kept by a control when what the control holds has the same letters and numbers:
everything else is deleted from both before they are compared. With it go the sign and the decimal
point of a number.

## Main definitions

* `Numeral`, `Denotes` — numbers in decimal notation, and texts that denote one.
* `TextPlatform.Numerals` — what is relied on about their characters.

## Main results

* `formattingKey_of_denotes` — what is compared of a number is its digits.
* `Numeral.value_eq_iff` — when numbers with the same digits are equal.
-/

namespace Yantra

open List

/-! ## The comparison -/

def formattingKey (pf : TextPlatform) (value : PageText) : PageText :=
  (pf.toLocaleLowerCase value).filter pf.isWordChar

/-- True for the same letters/numbers with only case, punctuation, or spacing changed. -/
def isFormattingEquivalent (pf : TextPlatform) (committed requested : PageText) : Bool :=
  let actual := formattingKey pf committed
  let wanted := formattingKey pf requested
  0 < wanted.length && actual = wanted

variable {committed requested : PageText}

lemma isFormattingEquivalent_iff {pf : TextPlatform} :
    isFormattingEquivalent pf committed requested ↔
      formattingKey pf requested ≠ [] ∧ formattingKey pf committed = formattingKey pf requested := by
  simp [isFormattingEquivalent, length_pos_iff]

/-! ## Numbers -/

inductive NumeralSign where
  | none | plus | minus
  deriving DecidableEq

/-- How a sign is written. -/
def NumeralSign.text : NumeralSign → PageText
  | .none => []
  | .plus => [43]
  | .minus => [45]

/-- A number in decimal notation: a sign, digits, and digits behind the point. -/
structure Numeral where
  sign : NumeralSign
  whole : List (Fin 10)
  decimals : List (Fin 10)
  deriving DecidableEq

/-- How a digit is written. -/
def digitPoint (d : Fin 10) : CodePoint := 48 + d

namespace Numeral

/-- How a number is written. -/
def text (n : Numeral) : PageText :=
  n.sign.text ++ n.whole.map digitPoint ++
    if n.decimals.isEmpty then [] else 46 :: n.decimals.map digitPoint

def digits (n : Numeral) : List (Fin 10) := n.whole ++ n.decimals

/-- The number its digits make. -/
def magnitude (n : Numeral) : ℕ := n.digits.foldl (fun m d => 10 * m + d) 0

/-- The number that is denoted. -/
def value (n : Numeral) : ℚ :=
  (if n.sign = .minus then -1 else 1) * n.magnitude / 10 ^ n.decimals.length

/-- **Numbers with the same digits** are equal where they are zero, or have the same sign and the
same number of decimals. -/
lemma value_eq_iff {n m : Numeral} (h : n.digits = m.digits) :
    n.value = m.value ↔ n.magnitude = 0 ∨
      ((n.sign = .minus ↔ m.sign = .minus) ∧ n.decimals.length = m.decimals.length) := by
  have hmagnitude : m.magnitude = n.magnitude := by rw [magnitude, magnitude, h]
  rw [value, value, hmagnitude]
  rcases Nat.eq_zero_or_pos n.magnitude with hzero | hpos
  · simp [hzero]
  have hscaled : ∀ k : ℕ, (0 : ℚ) < n.magnitude / 10 ^ k := fun k =>
    div_pos (by exact_mod_cast hpos) (by positivity)
  have hscale : ∀ k j : ℕ, (n.magnitude : ℚ) / 10 ^ k = n.magnitude / 10 ^ j ↔ k = j := by
    intro k j
    have hne : (n.magnitude : ℚ) ≠ 0 := by exact_mod_cast hpos.ne'
    rw [div_eq_mul_inv, div_eq_mul_inv, mul_right_inj' hne, inv_inj]
    exact pow_right_inj₀ (by norm_num) (by norm_num)
  have hn := hscaled n.decimals.length
  have hm := hscaled m.decimals.length
  have hneg : ∀ k : ℕ, (-1 : ℚ) * n.magnitude / 10 ^ k = -(n.magnitude / 10 ^ k) := fun k => by ring
  simp only [hpos.ne', false_or]
  split_ifs with hs ht ht
  · simp only [hs, ht, true_and, hneg, neg_inj, hscale]
  · simp only [hs, ht, iff_false, not_true, false_and, iff_false, hneg, one_mul]
    intro heq
    linarith
  · simp only [hs, ht, false_iff, not_true, false_and, iff_false, hneg, one_mul]
    intro heq
    linarith
  · simp only [hs, ht, true_and, one_mul, hscale]

end Numeral

def Denotes (pf : TextPlatform) (text : PageText) (n : Numeral) : Prop := trimText pf text = n.text

structure TextPlatform.Numerals (pf : TextPlatform) : Prop where
  digit_number : ∀ d : Fin 10, pf.isNumber (digitPoint d)
  /-- The signs and the point are neither letters nor numbers. -/
  sign_word : ∀ c ∈ [43, 45, 46], pf.isWordChar c = false
  /-- Signs, points, digits and spaces have no case. -/
  lower_numeral : ∀ text : PageText,
    (∀ c ∈ text, c ∈ [43, 45, 46] ∨ (∃ d, c = digitPoint d) ∨ pf.isSpace c) →
      pf.toLocaleLowerCase text = text

open NumeralSign

section

variable {pf : TextPlatform}

variable {n : Numeral}

lemma mem_numeral_text {c : CodePoint} (h : c ∈ n.text) :
    c ∈ [43, 45, 46] ∨ ∃ d, c = digitPoint d := by
  rw [Numeral.text, mem_append, mem_append] at h
  rcases h with (h | h) | h
  · left
    cases hsign : n.sign with
    | none => simp [hsign, text] at h
    | plus => simp_all [text]
    | minus => simp_all [text]
  · obtain ⟨d, -, rfl⟩ := mem_map.1 h
    exact .inr ⟨d, rfl⟩
  · split_ifs at h
    · cases h
    · rcases mem_cons.1 h with rfl | h
      · exact .inl (by simp)
      · obtain ⟨d, -, rfl⟩ := mem_map.1 h
        exact .inr ⟨d, rfl⟩

lemma filter_numeral_text (hnum : pf.Numerals) (n : Numeral) :
    n.text.filter pf.isWordChar = n.digits.map digitPoint := by
  have hdigits : ∀ ds : List (Fin 10),
      (ds.map digitPoint).filter pf.isWordChar = ds.map digitPoint := fun ds =>
    filter_eq_self.2 fun c hc => by
      obtain ⟨d, -, rfl⟩ := mem_map.1 hc
      rw [TextPlatform.isWordChar, hnum.digit_number, Bool.or_true]
  have hsign : n.sign.text.filter pf.isWordChar = [] := by
    cases n.sign with
    | none => rfl
    | plus => simp [text, hnum.sign_word 43 (by simp)]
    | minus => simp [text, hnum.sign_word 45 (by simp)]
  have hdecimals : (if n.decimals.isEmpty then [] else 46 :: n.decimals.map digitPoint).filter
      pf.isWordChar = n.decimals.map digitPoint := by
    split_ifs with hempty
    · rw [List.isEmpty_iff.1 hempty]
      rfl
    · rw [filter_cons_of_neg (by simp [hnum.sign_word 46 (by simp)]), hdigits]
  rw [Numeral.text, filter_append, filter_append, hsign, hdigits, hdecimals,
    nil_append, Numeral.digits, map_append]

/-- **What is compared of a number is its digits.** -/
lemma formattingKey_of_denotes (hpf : pf.Unicode) (hnum : pf.Numerals) {text : PageText}
    (h : Denotes pf text n) : formattingKey pf text = n.digits.map digitPoint := by
  have hlower : pf.toLocaleLowerCase text = text := by
    refine hnum.lower_numeral text fun c hc => ?_
    by_cases hspace : pf.isSpace c
    · exact .inr (.inr hspace)
    · have hmem := mem_trimText_of_mem hc (Bool.eq_false_iff.2 hspace)
      rw [h] at hmem
      exact (mem_numeral_text hmem).imp_right .inl
  have hspaces : ∀ c, pf.isSpace c = true → pf.isWordChar c = false := fun c hc =>
    Bool.eq_false_iff.2 fun hword => by simp [hpf.word_space c hword] at hc
  rw [formattingKey, hlower, ← filter_trimText hspaces, h, filter_numeral_text hnum]

lemma digitPoint_injective : Function.Injective digitPoint := fun _ _ h =>
  Fin.ext (Nat.add_left_cancel h)

lemma isFormattingEquivalent_denotes (hpf : pf.Unicode) (hnum : pf.Numerals) {n m : Numeral}
    (hn : Denotes pf committed n) (hm : Denotes pf requested m) :
    isFormattingEquivalent pf committed requested ↔ m.digits ≠ [] ∧ n.digits = m.digits := by
  rw [isFormattingEquivalent_iff, formattingKey_of_denotes hpf hnum hn,
    formattingKey_of_denotes hpf hnum hm, Function.Injective.eq_iff
      (map_injective_iff.2 digitPoint_injective), ne_eq, map_eq_nil_iff]

end

end Yantra
