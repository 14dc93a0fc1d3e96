import Yantra.Interaction.TypedText
import Yantra.Widgets.Verify

/-!
# Verifying a committed text or choice

A filled text or choice is verified by comparing what the control shows with what was asked for,
or with the label of the option that was chosen: one normalized text must contain the other,
wherever in it. A typed text is taken for reformatted where its letters and numbers are the same.

## Main definitions

* `FillIntent`, `matchesFillIntent`, `matchesCommitment` — the comparisons.
* `StandsWhole`, `SameNumber` — where it is.

## Main results

* `verifiedByItself_iff` — the exact condition.
-/

namespace Yantra

open CodePoints List

/-! ## The comparisons -/

/-- `FillIntent`, as far as it can be verified. -/
inductive FillIntent where
  | text (text : PageText)
  | option (value : PageText)
  | toggle (checked : Bool)
  | date (date : PageText)
  | dateRange (start stop : PageText)
  | secret

/-- Compare a committed value with the option the widget was actually made to choose. -/
def matchesCommitment (pf : TextPlatform) (committed chosenLabel : PageText) : Bool :=
  let actual := normalizeText pf committed
  let chosen := normalizeText pf chosenLabel
  if actual.length = 0 || chosen.length = 0 then false
  else chosen <:+: actual || actual <:+: chosen

/-- Compare a committed page value with a semantic fill intent. -/
def matchesFillIntent (pf : DatePlatform) (committed : PageText) : FillIntent → Bool
  | .text text =>
    let actual := normalizeText pf.toTextPlatform committed
    actual = normalizeText pf.toTextPlatform text ||
      normalizeText pf.toTextPlatform text <:+: actual
  | .option value =>
    let actual := normalizeText pf.toTextPlatform committed
    0 < actual.length && 0 < (normalizeText pf.toTextPlatform value).length &&
      (normalizeText pf.toTextPlatform value <:+: actual ||
        actual <:+: normalizeText pf.toTextPlatform value)
  | .toggle checked =>
    normalizeText pf.toTextPlatform committed = ofString (if checked then "checked" else "unchecked")
  | .date date => matchesIntent pf committed (.date date)
  | .dateRange start stop => matchesIntent pf committed (.dateRange start stop)
  | .secret => true

/-! ## What a verified text or choice should be -/

/-- A committed text is verified by a text or choice that is the same or contained, in every
comparison; and a number is taken for another one reformatted where they are equal. -/
structure VerifiedByItself (pf : DatePlatform) (committed requested : PageText) : Prop where
  text : matchesFillIntent pf committed (.text requested) = true →
    SameOrContains pf.toTextPlatform committed requested
  option : matchesFillIntent pf committed (.option requested) = true →
    SameOrContains pf.toTextPlatform committed requested
  intent : matchesIntent pf committed (.option requested) = true →
    SameOrContains pf.toTextPlatform committed requested
  commitment : matchesCommitment pf.toTextPlatform committed requested = true →
    SameOrContains pf.toTextPlatform committed requested
  reformatted : isFormattingEquivalent pf.toTextPlatform committed requested = true →
    SameOrContains pf.toTextPlatform committed requested
  number : isFormattingEquivalent pf.toTextPlatform committed requested = true →
    ∀ n m, Denotes pf.toTextPlatform committed n → Denotes pf.toTextPlatform requested m →
      n.value = m.value

/-- Two texts have the same letters, numbers and marks, or the one stands in the other between
spaces or ends. -/
def StandsWhole (pf : TextPlatform) (committed requested : PageText) : Prop :=
  lettersOf pf committed = lettersOf pf requested ∨
    WholeIn (spokenText pf requested) (spokenText pf committed) ∨
    WholeIn (spokenText pf committed) (spokenText pf requested)

/-- Numbers with the same digits are zero, or have the same sign and the point at the same
place. -/
def SameNumber (pf : TextPlatform) (committed requested : PageText) : Prop :=
  ∀ n m, Denotes pf committed n → Denotes pf requested m → m.digits ≠ [] → n.digits = m.digits →
    n.magnitude = 0 ∨
      ((n.sign = .minus ↔ m.sign = .minus) ∧ n.decimals.length = m.decimals.length)

/-! ## When the comparisons hold -/

section

variable {pf : DatePlatform} {committed requested : PageText}

lemma matchesFillIntent_text : matchesFillIntent pf committed (.text requested) ↔
    normalizeText pf.toTextPlatform requested <:+: normalizeText pf.toTextPlatform committed := by
  simp only [matchesFillIntent, Bool.or_eq_true, decide_eq_true_eq]
  exact or_iff_right_of_imp fun h => by rw [h]

lemma matchesFillIntent_option : matchesFillIntent pf committed (.option requested) ↔
    normalizeText pf.toTextPlatform committed ≠ [] ∧
      normalizeText pf.toTextPlatform requested ≠ [] ∧
      (normalizeText pf.toTextPlatform requested <:+: normalizeText pf.toTextPlatform committed ∨
        normalizeText pf.toTextPlatform committed <:+:
          normalizeText pf.toTextPlatform requested) := by
  simp only [matchesFillIntent, Bool.and_eq_true, Bool.or_eq_true, decide_eq_true_eq,
    length_pos_iff, and_assoc]

lemma matchesIntent_option : matchesIntent pf committed (.option requested) =
    matchesFillIntent pf committed (.option requested) := by
  rw [Bool.eq_iff_iff, matchesFillIntent_option]
  simp only [matchesIntent, Bool.and_eq_true, Bool.or_eq_true, decide_eq_true_eq,
    Bool.not_eq_true', isEmpty_eq_false_iff, and_assoc]

lemma matchesCommitment_eq : matchesCommitment pf.toTextPlatform committed requested =
    matchesFillIntent pf committed (.option requested) := by
  rw [Bool.eq_iff_iff, matchesFillIntent_option]
  simp only [matchesCommitment, length_eq_zero_iff]
  split_ifs with hnil
  · simp only [Bool.or_eq_true, decide_eq_true_eq] at hnil
    tauto
  · simp only [Bool.or_eq_true, decide_eq_true_eq] at hnil ⊢
    tauto

lemma verifiedByItself_iff_comparisons (pf : DatePlatform) (committed requested : PageText) :
    VerifiedByItself pf committed requested ↔
      ((normalizeText pf.toTextPlatform requested <:+: normalizeText pf.toTextPlatform committed →
        SameOrContains pf.toTextPlatform committed requested) ∧
      (normalizeText pf.toTextPlatform committed ≠ [] →
        normalizeText pf.toTextPlatform committed <:+: normalizeText pf.toTextPlatform requested →
        SameOrContains pf.toTextPlatform committed requested) ∧
      (isFormattingEquivalent pf.toTextPlatform committed requested →
        SameOrContains pf.toTextPlatform committed requested)) ∧
      (isFormattingEquivalent pf.toTextPlatform committed requested →
        ∀ n m, Denotes pf.toTextPlatform committed n → Denotes pf.toTextPlatform requested m →
          n.value = m.value) := by
  constructor
  · rintro ⟨htext, hoption, -, -, hreformatted, hnumber⟩
    refine ⟨⟨fun h => htext (matchesFillIntent_text.2 h), fun hne h => ?_, hreformatted⟩, hnumber⟩
    exact hoption (matchesFillIntent_option.2
      ⟨hne, fun hnil => hne (infix_nil.1 (hnil ▸ h)), .inr h⟩)
  · rintro ⟨⟨htext, hoption, hreformatted⟩, hnumber⟩
    have hoption' : matchesFillIntent pf committed (.option requested) →
        SameOrContains pf.toTextPlatform committed requested := by
      intro h
      obtain ⟨hne, -, h | h⟩ := matchesFillIntent_option.1 h
      · exact htext h
      · exact hoption hne h
    exact
      { text := fun h => htext (matchesFillIntent_text.1 h)
        option := hoption'
        intent := fun h => hoption' (matchesIntent_option ▸ h)
        commitment := fun h => hoption' (matchesCommitment_eq ▸ h)
        reformatted := hreformatted
        number := hnumber }

/-- **Numbers are reformatted** where those with the same digits are equal. -/
lemma equal_numbers_iff (hpf : pf.Unicode) (hnum : pf.Numerals) :
    (isFormattingEquivalent pf.toTextPlatform committed requested →
      ∀ n m, Denotes pf.toTextPlatform committed n → Denotes pf.toTextPlatform requested m →
        n.value = m.value) ↔ SameNumber pf.toTextPlatform committed requested := by
  constructor
  · intro h n m hn hm hne hdigits
    have heq := h ((isFormattingEquivalent_denotes hpf hnum hn hm).2 ⟨hne, hdigits⟩) n m hn hm
    exact (Numeral.value_eq_iff hdigits).1 heq
  · intro h hequivalent n m hn hm
    obtain ⟨hne, hdigits⟩ := (isFormattingEquivalent_denotes hpf hnum hn hm).1 hequivalent
    exact (Numeral.value_eq_iff hdigits).2 (h n m hn hm hne hdigits)

lemma sameOrContains_of_isFormattingEquivalent {pf : TextPlatform}
    (hcommitted : ∀ c ∈ pf.toLocaleLowerCase committed, pf.isMark c = false)
    (hrequested : ∀ c ∈ pf.toLocaleLowerCase requested, pf.isMark c = false)
    (h : isFormattingEquivalent pf committed requested) :
    SameOrContains pf committed requested := by
  have hkey : ∀ value, (∀ c ∈ pf.toLocaleLowerCase value, pf.isMark c = false) →
      lettersOf pf value = formattingKey pf value := fun value hmarks =>
    filter_congr fun c hc => by rw [hmarks c hc, Bool.or_false]
  left
  rw [hkey committed hcommitted, hkey requested hrequested]
  exact (isFormattingEquivalent_iff.1 h).2

end

/-! ## Examples -/

lemma lowerAscii_of_numeral {c : ℕ} (h : c ∈ [43, 45, 46] ∨ (∃ d : Fin 10, c = 48 + d) ∨
    (9 ≤ c ∧ c ≤ 13 ∨ c = 32)) : lowerAscii c = c := by
  refine if_neg ?_
  rcases h with hsign | ⟨d, rfl⟩ | hspace
  · simp only [mem_cons, not_mem_nil, or_false] at hsign
    omega
  · omega
  · omega

lemma examplePages_numerals : examplePages.Numerals where
  digit_number d := by
    simp only [examplePages, digitPoint, decide_eq_true_eq]
    omega
  sign_word c h := by
    simp only [mem_cons, not_mem_nil, or_false] at h
    rcases h with rfl | rfl | rfl <;> rfl
  lower_numeral text h := by
    refine (map_congr_left fun c hc => lowerAscii_of_numeral ?_).trans (map_id _)
    rcases h c hc with hsign | ⟨d, rfl⟩ | hspace
    · exact .inl hsign
    · exact .inr (.inl ⟨d, rfl⟩)
    · exact .inr (.inr (of_decide_eq_true hspace))

end Yantra
