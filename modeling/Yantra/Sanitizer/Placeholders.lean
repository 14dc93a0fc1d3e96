import Yantra.Sanitizer.UserInput

/-!
# The tokens of the vault

The placeholders `\x7b\x7buser:tag:N\x7d\x7d` are a language whose words never overlap, each names
one tag and one number, and no text the marker parser accepts contains one.

## Main definitions

* `IsPlaceholder` — the reserved tokens.
* `Collapsed` — a text with some `@@` written as `@`.

## Main results

* `recognizes_placeholder` — the reserved pattern recognizes the tokens.
* `placeholder_inj` — a placeholder tells its tag and its number.
* `tokenFree_of_collapsed` — writing `@@` as `@` makes no tokens.
-/

namespace Yantra

open Utf16 Tokens List Regex JsText

/-- A reserved token. -/
def IsPlaceholder (w : JsString) : Prop :=
  ∃ tag digits : JsString, (tag ≠ [] ∧ ∀ c ∈ tag, isTagChar c = true) ∧
    (digits ≠ [] ∧ ∀ c ∈ digits, isDigit c = true) ∧
    w = units "\x7b\x7buser:" ++ (tag ++ (units ":" ++ (digits ++ units "\x7d\x7d")))

/-! ## Recognizing tokens -/

lemma denotes_placeholderPattern (w : JsString) :
    placeholderPattern.Denotes w ↔ IsPlaceholder w := by
  have hword (s : String) (x : JsString) : (word s).Denotes x ↔ x = units s := denotes_lit
  have hend (x : JsString) : (seqs [word "\x7d\x7d"]).Denotes x ↔ x = units "\x7d\x7d" :=
    hword _ x
  have hplus (p : CodeUnit → Bool) (n : ℕ) (x : JsString) :
      (group n (.plus (.sym p))).Denotes x ↔ x ≠ [] ∧ ∀ c ∈ x, p c :=
    denotes_plus_sym
  constructor
  · rintro ⟨u, x, hu, ⟨tag, y, htag, ⟨colon, z, hcolon, ⟨digits, e, hdigits, he, rfl⟩, rfl⟩, rfl⟩,
      rfl⟩
    rw [hword] at hu hcolon
    rw [hend] at he
    rw [hplus] at htag hdigits
    exact ⟨tag, digits, htag, hdigits, by rw [hu, hcolon, he]⟩
  · rintro ⟨tag, digits, htag, hdigits, rfl⟩
    exact ⟨_, _, (hword _ _).2 rfl, ⟨_, _, (hplus _ 1 _).2 htag,
      ⟨_, _, (hword _ _).2 rfl, ⟨_, _, (hplus _ 2 _).2 hdigits, (hend _).2 rfl, rfl⟩,
        rfl⟩, rfl⟩, rfl⟩

variable {c : CodeUnit}

lemma IsPlaceholder.notMem {w : JsString} (h : IsPlaceholder w) (htag : isTagChar c = false)
    (hdigit : isDigit c = false)
    (hword : c ∉ units "\x7b\x7buser:" ++ units ":" ++ units "\x7d\x7d") : c ∉ w := by
  obtain ⟨tag, digits, ⟨-, htags⟩, ⟨-, hdigits⟩, rfl⟩ := h
  simp only [mem_append, not_or] at hword ⊢
  refine ⟨hword.1.1, fun hmem => ?_, hword.1.2, fun hmem => ?_, hword.2⟩
  · rw [htags c hmem] at htag
    cases htag
  · rw [hdigits c hmem] at hdigit
    cases hdigit

lemma IsPlaceholder.bracketed {w : JsString} (h : IsPlaceholder w) :
    Bracketed openBrace closeBrace w := by
  obtain ⟨tag, digits, ⟨-, htag⟩, ⟨-, hdigits⟩, rfl⟩ := h
  have hnot (c : CodeUnit) (ht : isTagChar c = false) (hd : isDigit c = false)
      (hw : c ∉ units "user:" ++ units ":") :
      c ∉ units "user:" ++ (tag ++ (units ":" ++ digits)) := by
    simp only [mem_append, not_or] at hw ⊢
    refine ⟨hw.1, fun hmem => ?_, hw.2, fun hmem => ?_⟩
    · rw [htag c hmem] at ht
      cases ht
    · rw [hdigits c hmem] at hd
      cases hd
  refine ⟨units "user:" ++ (tag ++ (units ":" ++ digits)), ?_,
    hnot _ (by decide) (by decide) (by decide), hnot _ (by decide) (by decide) (by decide), ?_⟩
  · exact append_ne_nil_of_left_ne_nil (by decide) _
  · have hopen : units "\x7b\x7buser:" = openBrace :: openBrace :: units "user:" := by decide
    have hclose : units "\x7d\x7d" = [closeBrace, closeBrace] := by decide
    rw [hopen, hclose]
    simp only [cons_append, append_assoc]

theorem recognizes_placeholder : Recognizes placeholderPattern IsPlaceholder where
  plain :=
    have hplus (p : CodeUnit → Bool) : (plus (.sym p)).Plain :=
      ⟨fun n hn => (nomatch hn), trivial⟩
    ⟨plain_lit _, hplus _, plain_lit _, hplus _, plain_lit _⟩
  denotes := denotes_placeholderPattern
  overlapFree := (overlapFree_bracketed (by decide)).mono fun _ hw => hw.bracketed
  nonempty := by
    rintro w ⟨tag, digits, -, -, rfl⟩
    exact append_ne_nil_of_left_ne_nil (by decide) _

/-! ## Placeholders of values -/

lemma isDigit_of_mem_units {n : ℕ} (hc : c ∈ units (toString n)) :
    isDigit c := by
  obtain ⟨d, hd, hc⟩ := mem_flatMap.1 hc
  obtain ⟨hlo, hhi⟩ := isDigit_of_mem_toString hd
  have hlt : d.toNat < 0x10000 := by omega
  rw [unitsOfChar_of_lt hlt, mem_singleton] at hc
  have hnat : c.toNat = d.toNat := by rw [hc, toNat_toUInt16 hlt]
  rw [isDigit, Bool.and_eq_true, decide_eq_true_eq, decide_eq_true_eq, UInt16.le_iff_toNat_le,
    UInt16.le_iff_toNat_le, hnat]
  exact ⟨hlo, hhi⟩

lemma toNat_lt_of_mem_toString (n : ℕ) : ∀ c ∈ (toString n).toList, c.toNat < 0x10000 := by
  intro c hc
  have hdigit := isDigit_of_mem_toString hc
  omega

variable {m n : ℕ}

lemma units_toString_inj (h : units (toString m) = units (toString n)) : m = n :=
  toString_toList_inj
    (flatMap_unitsOfChar_inj (toNat_lt_of_mem_toString m) (toNat_lt_of_mem_toString n) h)

variable (tag : UserInputValueTag)

lemma isTagChar_of_mem_name :
    units tag.name ≠ [] ∧ ∀ c ∈ units tag.name, isTagChar c := by
  have hall : (units tag.name).all isTagChar = true := by cases tag <;> decide
  exact ⟨by cases tag <;> decide, all_eq_true.1 hall⟩

lemma markerTag_name :
    markerTag (units tag.name) = if tag = .auth_param then none else some tag := by
  cases tag <;> decide

variable {a b : UserInputValueTag}

lemma units_name_inj (h : units a.name = units b.name) : a = b := by
  have hmarker := markerTag_name a
  rw [h, markerTag_name] at hmarker
  split_ifs at hmarker with hb ha ha
  · rw [ha, hb]
  · exact (Option.some.inj hmarker).symm

lemma isPlaceholder_placeholder (n : ℕ) :
    IsPlaceholder (placeholder tag n) := by
  refine ⟨units tag.name, units (toString n), isTagChar_of_mem_name tag,
    ⟨?_, fun c => isDigit_of_mem_units⟩, ?_⟩
  · intro hnil
    exact toString_toList_ne_nil n
      (flatMap_unitsOfChar_inj (toNat_lt_of_mem_toString n) (fun d hd => nomatch hd) hnil)
  · simp only [placeholder, append_assoc]

theorem placeholder_inj (h : placeholder a m = placeholder b n) : a = b ∧ m = n := by
  have hcolon : units ":" = [58] := by decide
  have hnot (tag : UserInputValueTag) : (58 : CodeUnit) ∉ units tag.name := fun hmem =>
    absurd ((isTagChar_of_mem_name tag).2 58 hmem) (by decide)
  simp only [placeholder, hcolon, append_assoc, append_cancel_left_eq,
    singleton_append] at h
  have hnames := eq_of_append_cons (hnot a) (hnot b) h
  rw [hnames, append_cancel_left_eq, cons_append, cons_append,
    List.cons.injEq] at h
  exact ⟨units_name_inj hnames, units_toString_inj (append_cancel_right h.2)⟩

/-! ## Texts without tokens -/

/-- A text with some of its `@@` written as `@`. -/
inductive Collapsed : JsString → JsString → Prop where
  | nil : Collapsed [] []
  | keep (c : CodeUnit) {raw text : JsString} (h : Collapsed raw text) :
      Collapsed (c :: raw) (c :: text)
  | doubled {raw text : JsString} (h : Collapsed raw text) :
      Collapsed (atSign :: atSign :: raw) (atSign :: text)

lemma Collapsed.append {raw text raw' text' : JsString} (h : Collapsed raw text)
    (h' : Collapsed raw' text') : Collapsed (raw ++ raw') (text ++ text') := by
  induction h with
  | nil => exact h'
  | keep c _ ih => exact .keep c ih
  | doubled _ ih => exact .doubled ih

variable {raw text w : JsString}

/-- What starts a collapsed text and has no `@` starts the text. -/
lemma Collapsed.starts_of_starts (h : Collapsed raw text) (hw : atSign ∉ w) (hpre : w <+: text) :
    w <+: raw := by
  induction h generalizing w with
  | nil => exact hpre
  | @keep c raw text _ ih =>
    cases w with
    | nil => exact nil_prefix
    | cons d w =>
      rw [cons_prefix_cons] at hpre ⊢
      exact ⟨hpre.1, ih (fun hmem => hw (mem_cons_of_mem d hmem)) hpre.2⟩
  | doubled _ ih =>
    cases w with
    | nil => exact nil_prefix
    | cons d w =>
      rw [cons_prefix_cons] at hpre
      exact absurd (hpre.1 ▸ mem_cons_self) hw

/-- What occurs in a collapsed text and has no `@` occurs in the text. -/
lemma Collapsed.occurs_of_occurs (h : Collapsed raw text) (hw : atSign ∉ w) (hin : w <:+: text) :
    w <:+: raw := by
  induction h with
  | nil => exact hin
  | @keep c raw text h ih =>
    rcases infix_cons_iff.1 hin with hpre | hin
    · exact ((h.keep c).starts_of_starts hw hpre).isInfix
    · exact (ih hin).trans (suffix_cons c raw).isInfix
  | @doubled raw text h ih =>
    rcases infix_cons_iff.1 hin with hpre | hin
    · exact (h.doubled.starts_of_starts hw hpre).isInfix
    · exact (ih hin).trans ((suffix_cons _ raw).trans (suffix_cons _ _)).isInfix

/-- What starts a text and has no `@` starts the collapsed text. -/
lemma Collapsed.starts_collapsed (h : Collapsed raw text) (hw : atSign ∉ w) (hpre : w <+: raw) :
    w <+: text := by
  induction h generalizing w with
  | nil => exact hpre
  | @keep c raw text _ ih =>
    cases w with
    | nil => exact nil_prefix
    | cons d w =>
      rw [cons_prefix_cons] at hpre ⊢
      exact ⟨hpre.1, ih (fun hmem => hw (mem_cons_of_mem d hmem)) hpre.2⟩
  | doubled _ ih =>
    cases w with
    | nil => exact nil_prefix
    | cons d w =>
      rw [cons_prefix_cons] at hpre
      exact absurd (hpre.1 ▸ mem_cons_self) hw

/-- What has no `@` occurs in a text exactly when it occurs in the collapsed text. -/
lemma Collapsed.occurs_iff (h : Collapsed raw text) (hw : atSign ∉ w) :
    w <:+: raw ↔ w <:+: text := by
  refine ⟨fun hin => ?_, h.occurs_of_occurs hw⟩
  induction h with
  | nil => exact hin
  | @keep c raw text h ih =>
    rcases infix_cons_iff.1 hin with hpre | hin
    · exact ((h.keep c).starts_collapsed hw hpre).isInfix
    · exact (ih hin).trans (suffix_cons c text).isInfix
  | @doubled raw text h ih =>
    rcases infix_cons_iff.1 hin with hpre | hin
    · exact (h.doubled.starts_collapsed hw hpre).isInfix
    · rcases infix_cons_iff.1 hin with hpre | hin
      · exact ((h.keep atSign).starts_collapsed hw hpre).isInfix
      · exact (ih hin).trans (suffix_cons _ text).isInfix

/-- Writing `@@` as `@` makes no tokens: no token has an `@`. -/
theorem tokenFree_of_collapsed {raw text : JsString} (h : Collapsed raw text)
    (hraw : TokenFree IsPlaceholder raw) : TokenFree IsPlaceholder text := fun w hw hin =>
  hraw w hw (h.occurs_of_occurs (hw.notMem (by decide) (by decide) (by decide)) hin)

lemma tokenFree_of_parse {text : JsString} {segments : List InputSegment}
    (h : parseUserInputMarkers text = .ok segments) : TokenFree IsPlaceholder text := by
  unfold parseUserInputMarkers at h
  split at h
  · cases h
  · exact recognizes_placeholder.exec_eq_none_iff.1 ‹_›

end Yantra
