import Yantra.Lib.Decimal
import Yantra.Lib.Utf8

/-!
# Evidence anchoring

The numbers of a text in canonical form, and the words of a claim that a source has. Unicode is a
parameter: normalization, lower case, and which code points are letters or numbers.

## Main definitions

* `Synthesis.numberTokens`, `Synthesis.canonicalNumber` — the numbers of a text.
* `Synthesis.SameNumber` — two numbers of equal decimal value.

## Main results

* `Synthesis.canonicalNumber_eq_iff` — the canonical form is that of the value.
* `Synthesis.numbersMissing_eq_nil_iff` — nothing is missing exactly when every number of the
  claim has an equal one in the evidence.
-/

namespace Yantra.Synthesis

open Utf16 Decimal List Bool Nat

/-! ## Normalized text -/

/-- What depends on Unicode. -/
structure TextForms where
  /-- `text.normalize('NFKC')` -/
  nfkc : JsString → JsString
  toLowerCase : JsString → JsString
  /-- `[\p{L}\p{N}]` -/
  isWordPoint : ℕ → Bool

variable (forms : TextForms)

def normalizeEvidence (text : JsString) : JsString :=
  trim (collapseSpace false (forms.toLowerCase (forms.nfkc text)))

/-! ## Numbers -/

def NUMBER_GROUP : Regex CodeUnit :=
  .seq (.opt (.sym (oneOf "+-")))
    (.alt
      (.seq (.sym isDigit)
        (.opt (.seq (.star (.sym fun c => isDigit c || oneOf ".," c)) (.sym isDigit))))
      (.seq (word ".") (.plus (.sym isDigit))))

/-- `/([+-])\s*[$€£]\s*(?=[.\d])/gu` -/
def SIGNED_CURRENCY : Regex CodeUnit :=
  .seqs [.group 1 (.sym (oneOf "+-")), .star (.sym isSpace), .sym (oneOf "$€£"),
    .star (.sym isSpace), .ahead (.sym fun c => isDigit c || c == 46)]

/-- The numbers of a normalized text, as they stand there. -/
def numberTokens (text : JsString) : List JsString :=
  (NUMBER_GROUP.matchAll (SIGNED_CURRENCY.replace (fun m => (m.group 1).getD []) text)).map
    Regex.Match.text

/-- A number without its sign. -/
def unsigned : JsString → JsString
  | [] => []
  | c :: s => if oneOf "+-" c then s else c :: s

/-- `(?:,\d{3})*` -/
def isThrees : JsString → Bool
  | [] => true
  | c :: x :: y :: z :: s => c == 44 && isDigit x && isDigit y && isDigit z && isThrees s
  | _ => false

/-- `\d+|\d{1,3}(?:,\d{3})+` -/
def isInteger (s : JsString) : Bool :=
  (s != [] && s.all isDigit) ||
    (1 ≤ (s.takeWhile isDigit).length && (s.takeWhile isDigit).length ≤ 3 &&
      s.dropWhile isDigit != [] && isThrees (s.dropWhile isDigit))

/-- `/^[+-]?(?:(?:\d+|\d{1,3}(?:,\d{3})+)(?:\.\d+)?|\.\d+)$/u`, tested. -/
def isPlainNumber (raw : JsString) : Bool :=
  let whole := (unsigned raw).takeWhile (· != 46)
  let rest := (unsigned raw).dropWhile (· != 46)
  if rest = [] then isInteger whole
  else (isInteger whole || whole == []) && rest.tail != [] && rest.tail.all isDigit

/-- The digits before the point: `whole`. -/
def wholeDigits (raw : JsString) : JsString :=
  (unsigned (raw.filter (· != 44))).takeWhile (· != 46)

/-- The digits after the point: `fraction`. -/
def fractionDigits (raw : JsString) : JsString :=
  ((unsigned (raw.filter (· != 44))).dropWhile (· != 46)).tail.takeWhile (· != 46)

def numberText (negative : Bool) (integer decimals : JsString) : JsString :=
  (if negative then [45] else []) ++ (integer ++ if decimals = [] then [] else 46 :: decimals)

/-- The canonical form of a number, the callback of `normalizedNumbers`. -/
def canonicalNumber (raw : JsString) : JsString :=
  if isPlainNumber raw then
    let integer := stripLeading (wholeDigits raw)
    let decimals := stripTrailing (fractionDigits raw)
    numberText (raw.head? == some 45 && (integer != [48] || decimals != [])) integer decimals
  else units "ambiguous:" ++ raw

def normalizedNumbers (text : JsString) : List JsString :=
  ((numberTokens text).map canonicalNumber).eraseDups

def digitGroups (text : JsString) : List JsString := normalizedNumbers (normalizeEvidence forms text)

def numbersMissing (claim evidence : JsString) : List JsString :=
  (digitGroups forms claim).filter fun number => !(digitGroups forms evidence).contains number

/-! ## Words -/

def STOPWORDS : List String :=
  ["a", "about", "after", "all", "also", "an", "and", "any", "are", "as", "at", "be", "been", "but",
    "by", "can", "could", "did", "do", "does", "for", "from", "had", "has", "have", "he", "her",
    "his", "how", "i", "if", "in", "into", "is", "it", "its", "just", "more", "most", "no", "not",
    "of", "on", "one", "or", "our", "she", "so", "some", "than", "that", "the", "their", "them",
    "then", "there", "these", "they", "this", "to", "up", "was", "we", "were", "what", "when",
    "which", "who", "will", "with", "would", "you", "your"]

def tokenize (text : JsString) : List JsString :=
  let points := Utf16.codePoints (forms.toLowerCase text)
  ((points.splitOnP fun c => !forms.isWordPoint c).map fun word =>
    word.flatMap unitsOfPoint).filter fun token =>
      1 < token.length && !STOPWORDS.any fun w => units w == token

/-- `isAnchored`: `ANCHOR_OVERLAP_THRESHOLD` is a half. -/
def isAnchored (claim evidence : JsString) : Bool :=
  let words := (tokenize forms (normalizeEvidence forms claim)).eraseDups
  let source := tokenize forms (normalizeEvidence forms evidence)
  words.isEmpty || words.length ≤ 2 * (words.filter source.contains).length

/-! ## The value of a number -/

def decimalValue (raw : JsString) : ℚ :=
  (if raw.head? = some 45 then -1 else 1) *
    (wholeValue (wholeDigits raw) + fractionValue (fractionDigits raw))

/-- Two numbers of equal decimal value, or where the separators do not tell the value, the same. -/
def SameNumber (raw raw' : JsString) : Prop :=
  if isPlainNumber raw ∧ isPlainNumber raw' then decimalValue raw = decimalValue raw'
  else raw = raw'

lemma digits_of_isThrees (s : JsString) (h : isThrees s) :
    ∀ c ∈ s, isDigit c ∨ c = 44 := by
  induction s using isThrees.induct with
  | case1 => exact fun _ hc => absurd hc not_mem_nil
  | case2 c x y z s ih =>
    simp only [isThrees, and_eq_true, beq_iff_eq] at h
    obtain ⟨⟨⟨⟨hcomma, hx⟩, hy⟩, hz⟩, hs⟩ := h
    simp only [forall_mem_cons]
    exact ⟨.inr hcomma, .inl hx, .inl hy, .inl hz, ih hs⟩
  | case3 s hnil hcons =>
    rw [isThrees.eq_3 s hnil hcons] at h
    cases h

variable {s : JsString}

lemma digits_of_isInteger (h : isInteger s) :
    ∀ c ∈ s, isDigit c ∨ c = 44 := by
  simp only [isInteger, or_eq_true, and_eq_true] at h
  rcases h with ⟨-, hall⟩ | ⟨-, hthrees⟩
  · exact fun c hc => .inl (all_eq_true.1 hall c hc)
  · intro c hc
    rw [← takeWhile_append_dropWhile (p := isDigit) (l := s), mem_append] at hc
    rcases hc with hc | hc
    · exact .inl (mem_takeWhile_imp hc)
    · exact digits_of_isThrees _ hthrees c hc

variable {raw : JsString}

lemma digits_of_isPlainNumber (h : isPlainNumber raw) :
    ∀ c ∈ unsigned raw, isDigit c ∨ c = 44 ∨ c = 46 := by
  intro c hc
  have hsplit := takeWhile_append_dropWhile (p := (· != 46)) (l := unsigned raw)
  rw [← hsplit, mem_append] at hc
  simp only [isPlainNumber] at h
  split_ifs at h with hrest
  · rw [hrest] at hc
    rcases hc with hc | hc
    · exact (digits_of_isInteger h c hc).imp_right .inl
    · exact absurd hc not_mem_nil
  · simp only [and_eq_true, or_eq_true, beq_iff_eq] at h
    obtain ⟨⟨hwhole, -⟩, hfraction⟩ := h
    rcases hc with hc | hc
    · rcases hwhole with hwhole | hwhole
      · exact (digits_of_isInteger hwhole c hc).imp_right .inl
      · rw [hwhole] at hc
        exact absurd hc not_mem_nil
    · have hhead := head_dropWhile_not (· != 46) hrest
      rw [← cons_head_tail hrest, mem_cons] at hc
      rcases hc with rfl | hc
      · exact .inr (.inr (by simpa using hhead))
      · exact .inl (all_eq_true.1 hfraction c hc)

lemma mem_unsigned_filter {c : CodeUnit} (h : c ∈ unsigned (raw.filter (· != 44))) :
    c ∈ unsigned raw ∧ c ≠ 44 := by
  have hcomma : ∀ {s : JsString}, c ∈ s.filter (· != 44) → c ∈ s ∧ c ≠ 44 := by
    intro s hc
    obtain ⟨hmem, hne⟩ := mem_filter.1 hc
    exact ⟨hmem, by simpa using hne⟩
  have hsub : ∀ {s : JsString}, c ∈ unsigned s → c ∈ s := by
    intro s hc
    cases s with
    | nil => exact hc
    | cons d s =>
      rw [unsigned] at hc
      split_ifs at hc
      · exact mem_cons_of_mem d hc
      · exact hc
  cases raw with
  | nil => exact absurd h not_mem_nil
  | cons d s =>
    rw [filter_cons] at h
    split_ifs at h with hd
    · rw [unsigned] at h ⊢
      split_ifs at h ⊢ with hsign
      · exact hcomma h
      · rcases mem_cons.1 h with rfl | h
        · exact ⟨mem_cons_self, by simpa using hd⟩
        · exact ⟨mem_cons_of_mem d (hcomma h).1, (hcomma h).2⟩
    · obtain rfl : d = 44 := by simpa using hd
      have hplain : unsigned (44 :: s) = 44 :: s := rfl
      rw [hplain]
      exact ⟨mem_cons_of_mem _ (hcomma (hsub h)).1, (hcomma (hsub h)).2⟩

lemma isDigit_parts (h : isPlainNumber raw) :
    (∀ c ∈ wholeDigits raw, isDigit c) ∧ ∀ c ∈ fractionDigits raw, isDigit c := by
  have hdigit : ∀ c ∈ unsigned (raw.filter (· != 44)), c ≠ 46 → isDigit c = true := by
    intro c hc hpoint
    obtain ⟨hmem, hcomma⟩ := mem_unsigned_filter hc
    rcases digits_of_isPlainNumber h c hmem with hd | rfl | rfl
    · exact hd
    · exact absurd rfl hcomma
    · exact absurd rfl hpoint
  constructor
  · intro c hc
    have hpoint : (c != 46) = true := mem_takeWhile_imp (p := (· != 46)) hc
    exact hdigit c (takeWhile_subset _ hc) (by simpa using hpoint)
  · intro c hc
    have hpoint : (c != 46) = true := mem_takeWhile_imp (p := (· != 46)) hc
    exact hdigit c (dropWhile_subset _ (tail_subset _ (takeWhile_subset _ hc)))
      (by simpa using hpoint)

/-! ## Canonical forms -/

lemma takeWhile_isDigit {s t : JsString} (hs : ∀ c ∈ s, isDigit c) :
    (s ++ if t = [] then [] else 46 :: t).takeWhile isDigit = s := by
  rw [takeWhile_append_of_pos hs]
  split_ifs
  · rw [takeWhile_nil, append_nil]
  · rw [takeWhile_cons_of_neg (by decide), append_nil]

lemma numberText_inj {n n' : Bool} {s s' t t' : JsString} (hs : ∀ c ∈ s, isDigit c)
    (hs' : ∀ c ∈ s', isDigit c) (hne : s ≠ []) (hne' : s' ≠ []) :
    numberText n s t = numberText n' s' t' ↔ n = n' ∧ s = s' ∧ t = t' := by
  have hhead : ∀ {u v : JsString}, (∀ c ∈ u, isDigit c) → u ≠ [] →
      ∀ w, u ++ v ≠ 45 :: w := by
    intro u v hu hnil w heq
    cases u with
    | nil => exact hnil rfl
    | cons c u =>
      have hc := hu c mem_cons_self
      rw [(List.cons.inj heq).1] at hc
      exact absurd hc (by decide)
  have hbody : (s ++ if t = [] then [] else 46 :: t) = (s' ++ if t' = [] then [] else 46 :: t') ↔
      s = s' ∧ t = t' := by
    constructor
    · intro heq
      have hwhole : s = s' := by
        rw [← takeWhile_isDigit (t := t) hs, heq, takeWhile_isDigit hs']
      subst hwhole
      have htail := append_cancel_left heq
      refine ⟨rfl, ?_⟩
      by_cases hnil : t = [] <;> by_cases hnil' : t' = []
      · rw [hnil, hnil']
      · rw [if_pos hnil, if_neg hnil'] at htail
        cases htail
      · rw [if_neg hnil, if_pos hnil'] at htail
        cases htail
      · rw [if_neg hnil, if_neg hnil'] at htail
        exact (List.cons.inj htail).2
    · rintro ⟨rfl, rfl⟩
      rfl
  cases n <;> cases n'
  · exact hbody.trans ⟨fun h => ⟨rfl, h⟩, fun h => h.2⟩
  · exact ⟨fun heq => absurd heq (hhead hs hne _), fun h => absurd h.1 (by decide)⟩
  · exact ⟨fun heq => absurd heq.symm (hhead hs' hne' _), fun h => absurd h.1 (by decide)⟩
  · refine ⟨fun heq => ⟨rfl, hbody.1 (List.cons.inj heq).2⟩, fun h => ?_⟩
    rw [numberText, numberText, hbody.2 h.2]

def magnitude (raw : JsString) : ℚ :=
  wholeValue (wholeDigits raw) + fractionValue (fractionDigits raw)

lemma magnitude_nonneg (raw : JsString) : 0 ≤ magnitude raw :=
  add_nonneg (cast_nonneg _) (fractionValue_nonneg _)

lemma isDigit_zero : ∀ c ∈ ([48] : JsString), isDigit c :=
  forall_mem_singleton.2 rfl

lemma magnitude_eq_zero_iff (h : isPlainNumber raw) :
    magnitude raw = 0 ↔
      stripLeading (wholeDigits raw) = [48] ∧ stripTrailing (fractionDigits raw) = [] := by
  obtain ⟨hwhole, hfraction⟩ := isDigit_parts h
  have hzero : stripLeading (wholeDigits raw) = [48] ↔ wholeValue (wholeDigits raw) = 0 :=
    stripLeading_eq_iff (t := [48]) hwhole isDigit_zero
  rw [hzero, stripTrailing_eq_nil_iff hfraction, magnitude,
    add_eq_zero_iff_of_nonneg (cast_nonneg _) (fractionValue_nonneg _), cast_eq_zero]

/-- Whether a number is written with a minus sign. -/
def isNegative (raw : JsString) : Bool := raw.head? == some 45

lemma stripLeading_digits (hs : ∀ c ∈ s, isDigit c) :
    (∀ c ∈ stripLeading s, isDigit c) ∧ stripLeading s ≠ [] := by
  rw [stripLeading]
  split_ifs with hnil
  · exact ⟨isDigit_zero, cons_ne_nil _ _⟩
  · exact ⟨fun c hc => hs c (dropWhile_subset _ hc), hnil⟩

/-- Two plain numbers have one canonical form when they agree in sign and magnitude; the sign of
zero does not count. -/
lemma canonicalNumber_eq_iff_sign {raw raw' : JsString} (h : isPlainNumber raw)
    (h' : isPlainNumber raw') :
    canonicalNumber raw = canonicalNumber raw' ↔
      ((isNegative raw ∧ magnitude raw ≠ 0) ↔
        (isNegative raw' ∧ magnitude raw' ≠ 0)) ∧ magnitude raw = magnitude raw' := by
  obtain ⟨hwhole, hfraction⟩ := isDigit_parts h
  obtain ⟨hwhole', hfraction'⟩ := isDigit_parts h'
  have hsign : ∀ {r : JsString}, isPlainNumber r →
      ((r.head? == some 45 && (stripLeading (wholeDigits r) != [48] ||
        stripTrailing (fractionDigits r) != [])) = true ↔
          isNegative r ∧ magnitude r ≠ 0) := by
    intro r hr
    have hne := (not_congr (magnitude_eq_zero_iff hr)).trans not_and_or
    rw [and_eq_true, or_eq_true, bne_iff_ne, bne_iff_ne, isNegative]
    exact and_congr_right fun _ => hne.symm
  rw [canonicalNumber, if_pos h, canonicalNumber, if_pos h',
    numberText_inj (stripLeading_digits hwhole).1 (stripLeading_digits hwhole').1
      (stripLeading_digits hwhole).2 (stripLeading_digits hwhole').2, Bool.eq_iff_iff, hsign h,
    hsign h', stripLeading_eq_iff hwhole hwhole', stripTrailing_eq_iff hfraction hfraction',
    magnitude, magnitude, add_eq_iff (fractionValue_nonneg _) (fractionValue_lt hfraction)
      (fractionValue_nonneg _) (fractionValue_lt hfraction')]

/-- **The canonical form of a plain number is that of its value.** -/
theorem canonicalNumber_eq_iff {raw raw' : JsString} (h : isPlainNumber raw)
    (h' : isPlainNumber raw') :
    canonicalNumber raw = canonicalNumber raw' ↔ decimalValue raw = decimalValue raw' := by
  have hvalue : ∀ r : JsString, decimalValue r =
      if isNegative r = true then -magnitude r else magnitude r := by
    intro r
    by_cases hn : r.head? = some 45
    · have hneg : isNegative r := beq_iff_eq.2 hn
      rw [decimalValue, if_pos hn, if_pos hneg, neg_one_mul, magnitude]
    · have hneg : ¬ isNegative r = true := fun h => hn (beq_iff_eq.1 h)
      rw [decimalValue, if_neg hn, if_neg hneg, one_mul, magnitude]
  rw [canonicalNumber_eq_iff_sign h h', hvalue, hvalue]
  have hpos := magnitude_nonneg raw
  have hpos' := magnitude_nonneg raw'
  generalize magnitude raw = x at hpos ⊢
  generalize magnitude raw' = y at hpos' ⊢
  by_cases hn : isNegative raw = true <;> by_cases hn' : isNegative raw'
  · rw [if_pos hn, if_pos hn', neg_inj]
    exact ⟨fun h => h.2, fun heq => ⟨by rw [heq]; simp [hn, hn'], heq⟩⟩
  · rw [if_pos hn, if_neg hn']
    constructor
    · rintro ⟨hsign, rfl⟩
      have hzero : x = 0 := by
        by_contra hx
        exact hn' (hsign.1 ⟨hn, hx⟩).1
      rw [hzero, neg_zero]
    · intro heq
      have hx : x = 0 := by linarith
      have hy : y = 0 := by linarith
      exact ⟨⟨fun h => absurd hx h.2, fun h => absurd h.1 hn'⟩, hx.trans hy.symm⟩
  · rw [if_neg hn, if_pos hn']
    constructor
    · rintro ⟨hsign, rfl⟩
      have hzero : x = 0 := by
        by_contra hx
        exact hn (hsign.2 ⟨hn', hx⟩).1
      rw [hzero, neg_zero]
    · intro heq
      have hx : x = 0 := by linarith
      have hy : y = 0 := by linarith
      exact ⟨⟨fun h => absurd h.1 hn, fun h => absurd hy h.2⟩, hx.trans hy.symm⟩
  · rw [if_neg hn, if_neg hn']
    exact ⟨fun h => h.2, fun heq => ⟨by simp [hn, hn'], heq⟩⟩

lemma canonicalNumber_of_not (h : ¬ isPlainNumber raw) :
    canonicalNumber raw = units "ambiguous:" ++ raw := if_neg h

lemma numberText_ne_cons (hs : ∀ c ∈ s, isDigit c) (hne : s ≠ []) (n : Bool) (t u : JsString) :
    numberText n s t ≠ 97 :: u := by
  cases s with
  | nil => exact absurd rfl hne
  | cons c s =>
    cases n with
    | true => exact fun heq => absurd (List.cons.inj heq).1 (by decide)
    | false =>
      intro heq
      have hc := hs c mem_cons_self
      rw [(List.cons.inj heq).1] at hc
      exact absurd hc (by decide)

lemma canonicalNumber_ne_ambiguous (h : isPlainNumber raw) (s : JsString) :
    canonicalNumber raw ≠ units "ambiguous:" ++ s := by
  obtain ⟨hdigits, hne⟩ := stripLeading_digits (isDigit_parts h).1
  rw [canonicalNumber, if_pos h]
  exact numberText_ne_cons hdigits hne _ _ _

/-- **Numbers have one canonical form exactly when they are the same.** -/
theorem canonicalNumber_eq_iff_same (raw raw' : JsString) :
    canonicalNumber raw = canonicalNumber raw' ↔ SameNumber raw raw' := by
  by_cases h : isPlainNumber raw = true <;> by_cases h' : isPlainNumber raw'
  · rw [SameNumber, if_pos ⟨h, h'⟩, canonicalNumber_eq_iff h h']
  · rw [SameNumber, if_neg fun hboth => h' hboth.2, canonicalNumber_of_not h']
    exact ⟨fun heq => absurd heq (canonicalNumber_ne_ambiguous h _),
      fun heq => absurd (heq ▸ h) h'⟩
  · rw [SameNumber, if_neg fun hboth => h hboth.1, canonicalNumber_of_not h]
    exact ⟨fun heq => absurd heq.symm (canonicalNumber_ne_ambiguous h' _),
      fun heq => absurd (heq ▸ h') h⟩
  · rw [SameNumber, if_neg fun hboth => h hboth.1, canonicalNumber_of_not h,
      canonicalNumber_of_not h', append_right_inj]

/-- **Nothing is missing exactly when every number of the claim has an equal one.** -/
theorem numbersMissing_eq_nil_iff (claim evidence : JsString) :
    numbersMissing forms claim evidence = [] ↔
      ∀ raw ∈ numberTokens (normalizeEvidence forms claim),
        ∃ raw' ∈ numberTokens (normalizeEvidence forms evidence), SameNumber raw raw' := by
  have hmem : ∀ (number text : JsString), number ∈ digitGroups forms text ↔
      ∃ raw ∈ numberTokens (normalizeEvidence forms text), canonicalNumber raw = number := by
    intro number text
    rw [digitGroups, normalizedNumbers, mem_eraseDups, mem_map]
  rw [numbersMissing, filter_eq_nil_iff]
  simp only [not_eq_true', not_eq_false, contains_iff_mem, hmem]
  constructor
  · intro h raw hraw
    obtain ⟨raw', hraw', heq⟩ := h _ ⟨raw, hraw, rfl⟩
    exact ⟨raw', hraw', (canonicalNumber_eq_iff_same raw raw').1 heq.symm⟩
  · rintro h number ⟨raw, hraw, rfl⟩
    obtain ⟨raw', hraw', hsame⟩ := h raw hraw
    exact ⟨raw', hraw', ((canonicalNumber_eq_iff_same raw raw').2 hsame).symm⟩

end Yantra.Synthesis
