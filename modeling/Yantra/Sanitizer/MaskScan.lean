import Yantra.Sanitizer.UserInput

/-!
# Masking one value in one part

The loop of `maskValueInPart` goes from one occurrence of a value to the next. An occurrence that is
not masked is skipped as a whole, with what starts inside of it.

## Main definitions

* `Scan` — the loop, over what is behind, what is kept and what is ahead.
* `Blocked` — why an occurrence is not masked.

## Main results

* `scan_maskFrom` — the loop follows the relation.
* `Scan.cutOff` — what is left between masked occurrences, and why its occurrences are.
-/

namespace Yantra

open Utf16 List Option

/-! ## Occurrences that are masked -/

/-- Nothing around an occurrence glues it into a longer token. -/
def Standalone (before after : JsString) : Prop :=
  (∀ c ∈ before.getLast?, isTokenChar c = false) ∧ ∀ c ∈ after.head?, isTokenChar c = false

/-- An occurrence that is masked: of a long value, or on its own. -/
def Maskable (v before after : JsString) : Prop := 8 ≤ v.length ∨ Standalone before after

lemma isStandalonePosition_iff (before v after : JsString) :
    isStandalonePosition (before ++ (v ++ after)) before.length v.length ↔
      Standalone before after := by
  have hafter : Regex.slice (before ++ (v ++ after)) (before.length + v.length)
      (before.length + v.length + 1) = after.head?.toList := by
    rw [Regex.slice, ← append_assoc, ← length_append, drop_take, drop_left,
      Nat.add_sub_cancel_left]
    cases after <;> rfl
  have hbefore : Regex.slice (before ++ (v ++ after)) (before.length - 1) before.length =
      before.getLast?.toList := by
    rw [Regex.slice, take_left]
    rcases eq_nil_or_concat before with rfl | ⟨init, c, rfl⟩
    · rfl
    · simp
  rw [isStandalonePosition, hbefore, hafter, Standalone, Bool.and_eq_true, Bool.not_eq_true',
    Bool.not_eq_true', List.any_eq_false, List.any_eq_false]
  simp

lemma Standalone.of_extend {x before after y : JsString} (h : Standalone (x ++ before) (after ++ y))
    : Standalone before after := by
  refine ⟨fun c hc => h.1 c ?_, fun c hc => h.2 c ?_⟩
  · rw [getLast?_append, mem_def.1 hc]
    rfl
  · rw [head?_append, mem_def.1 hc]
    rfl

/-! ## Searching -/

/-- No occurrence starts before the end of `a`, with the value and `rest` behind it. -/
def FirstAt (v a rest : JsString) : Prop :=
  ∀ x y, a = x ++ y → y ≠ [] → ¬ v <+: y ++ (v ++ rest)

lemma indexOf_eq_none_iff {v : JsString} (hv : v ≠ []) (text : JsString) :
    indexOf text v 0 = none ↔ ¬ v <:+: text := by
  induction text with
  | nil =>
    have hnone : indexOf [] v 0 = none := by
      obtain ⟨c, v, rfl⟩ := exists_cons_of_ne_nil hv
      rfl
    simp [hnone, hv]
  | cons c cs ih =>
    rw [indexOf_cons, infix_cons_iff, not_or, ← ih, ← isPrefixOf_iff_prefix]
    cases v.isPrefixOf (c :: cs) <;> simp

variable {text : JsString}

lemma exists_of_indexOf {v : JsString} {i : ℕ} (h : indexOf text v 0 = some i) :
    ∃ a rest, text = a ++ (v ++ rest) ∧ i = a.length ∧ FirstAt v a rest := by
  induction text generalizing i with
  | nil =>
    obtain ⟨-, hi, hpre⟩ := indexOf_spec h
    obtain rfl : i = 0 := Nat.le_zero.1 hi
    obtain rfl := prefix_nil.1 hpre
    exact ⟨[], [], rfl, rfl, fun x y hxy hy => absurd (append_eq_nil_iff.1 hxy.symm).2 hy⟩
  | cons c cs ih =>
    rw [indexOf_cons] at h
    split_ifs at h with hpre
    · cases h
      obtain ⟨rest, hrest⟩ := isPrefixOf_iff_prefix.1 hpre
      exact ⟨[], rest, hrest.symm, rfl,
        fun x y hxy hy => absurd (append_eq_nil_iff.1 hxy.symm).2 hy⟩
    · obtain ⟨j, hj, rfl⟩ := map_eq_some_iff.1 h
      obtain ⟨a, rest, rfl, rfl, hfirst⟩ := ih hj
      refine ⟨c :: a, rest, rfl, Nat.add_comm 1 _, fun x y hxy hy hpre' => ?_⟩
      cases x with
      | nil =>
        rw [nil_append] at hxy
        subst hxy
        exact hpre ( isPrefixOf_iff_prefix.2 hpre')
      | cons d x =>
        rw [cons_append, List.cons.injEq] at hxy
        exact hfirst x y hxy.2 hy hpre'

/-! ## The loop -/

def keptPart (g : JsString) : List MaskPart := if g.isEmpty then [] else [⟨g, false⟩]

/-- The loop over the occurrences of `v`: `before` is what the parts so far stand for, `kept` what
was looked at since, and the last text what is ahead. -/
inductive Scan (v token : JsString) : JsString → JsString → JsString → List MaskPart → Prop where
  | done {before kept rest : JsString} (hnone : ¬ v <:+: rest) :
      Scan v token before kept rest (keptPart (kept ++ rest))
  | mask {before kept a rest : JsString} {parts : List MaskPart} (hfirst : FirstAt v a rest)
      (hmask : Maskable v (before ++ kept ++ a) rest)
      (h : Scan v token (before ++ kept ++ a ++ v) [] rest parts) :
      Scan v token before kept (a ++ (v ++ rest)) (keptPart (kept ++ a) ++ ⟨token, true⟩ :: parts)
  | skip {before kept a rest : JsString} {parts : List MaskPart} (hfirst : FirstAt v a rest)
      (hmask : ¬ Maskable v (before ++ kept ++ a) rest)
      (h : Scan v token before (kept ++ a ++ v) rest parts) :
      Scan v token before kept (a ++ (v ++ rest)) parts

/-- The loop follows the relation.

**Proof sketch.** Induction on the fuel, which the length of what is ahead bounds. -/
theorem scan_maskFrom {v : JsString} (hv : v ≠ []) (token before kept rest : JsString) (fuel : ℕ)
    (hfuel : rest.length < fuel) :
    Scan v token before kept rest
      (maskFrom (before ++ kept ++ rest) v token fuel (before ++ kept).length before.length) := by
  induction fuel generalizing before kept rest with
  | zero => exact absurd hfuel (Nat.not_lt_zero _)
  | succ fuel ih =>
    have hvpos : 0 < v.length := length_pos_iff.2 hv
    rw [maskFrom, indexOf_append]
    cases hfound : indexOf rest v 0 with
    | none =>
      have hkept : (if before.length < (before ++ kept ++ rest).length then
          [(⟨(before ++ kept ++ rest).drop before.length, false⟩ : MaskPart)] else []) =
          keptPart (kept ++ rest) := by
        rw [keptPart, append_assoc, drop_left, length_append]
        cases kept ++ rest <;> simp
      simp only [map_none]
      rw [hkept]
      exact .done ((indexOf_eq_none_iff hv rest).1 hfound)
    | some i =>
      obtain ⟨a, rest, rfl, rfl, hfirst⟩ := exists_of_indexOf hfound
      have hlt : rest.length < fuel := by
        simp only [length_append] at hfuel
        omega
      have hmask : (decide (8 ≤ v.length) || isStandalonePosition
          (before ++ kept ++ (a ++ (v ++ rest))) ((before ++ kept).length + a.length) v.length) =
            true ↔ Maskable v (before ++ kept ++ a) rest := by
        rw [Bool.or_eq_true, decide_eq_true_eq, ← append_assoc, ← length_append,
          isStandalonePosition_iff, Maskable]
      simp only [map_some]
      by_cases h : Maskable v (before ++ kept ++ a) rest
      · have hnext := ih (before ++ kept ++ a ++ v) [] rest hlt
        have hkept : (if before.length < (before ++ kept).length + a.length then
            [(⟨Regex.slice (before ++ kept ++ (a ++ (v ++ rest))) before.length
              ((before ++ kept).length + a.length), false⟩ : MaskPart)] else []) =
            keptPart (kept ++ a) := by
          have hslice : Regex.slice (before ++ kept ++ (a ++ (v ++ rest))) before.length
              ((before ++ kept).length + a.length) = kept ++ a := by
            rw [Regex.slice, ← append_assoc, ← length_append, take_left,
              append_assoc, drop_left]
          have hlt : before.length < (before ++ kept).length + a.length ↔
              ¬ (kept ++ a).isEmpty := by
            rw [isEmpty_iff_length_eq_zero, length_append, length_append]
            omega
          rw [hslice, keptPart]
          split_ifs with hlen hempty hempty
          · exact absurd hempty (hlt.1 hlen)
          · rfl
          · rfl
          · exact absurd (hlt.2 hempty) hlen
        rw [if_pos (hmask.2 h), hkept]
        refine .mask hfirst h ?_
        simpa only [append_nil, append_assoc, length_append, Nat.add_assoc]
          using hnext
      · have hnext := ih before (kept ++ a ++ v) rest hlt
        rw [if_neg (mt hmask.1 h)]
        refine .skip hfirst h ?_
        simpa only [append_assoc, length_append, Nat.add_assoc] using hnext

/-! ## What is left -/

/-- Why an occurrence of `v` is not masked: it is not to be, or an earlier one that is not reaches
over its start. -/
def Blocked (v whole before after : JsString) : Prop :=
  ¬ Maskable v before after ∨ ∃ before₀ after₀, whole = before₀ ++ (v ++ after₀) ∧
    ¬ Maskable v before₀ after₀ ∧ before₀.length < before.length ∧
      before.length < before₀.length + v.length

/-- A part `p` that is left, `x` before it and `y` after it: it borders on masked occurrences or the
ends, and its own occurrences are blocked. -/
structure CutOff (v whole x p y : JsString) : Prop where
  eq : whole = x ++ (p ++ y)
  left : x = [] ∨ ∃ x', x = x' ++ v ∧ Maskable v x' (p ++ y)
  right : y = [] ∨ ∃ y', y = v ++ y' ∧ Maskable v (x ++ p) y'
  blocked : ∀ a b, p = a ++ (v ++ b) → Blocked v whole (x ++ a) (b ++ y)

/-- An occurrence of `v` in what is looked at starts where the first one does, or later.  -/
lemma FirstAt.length_le {v a rest before s t : JsString} (h : FirstAt v a rest)
    (heq : before ++ (a ++ (v ++ rest)) = s ++ (v ++ t)) (hle : before.length ≤ s.length) :
    (before ++ a).length ≤ s.length := by
  by_contra hlt
  rw [length_append, Nat.not_le] at hlt
  obtain ⟨s, rfl⟩ : ∃ s', s = before ++ s' := by
    have hpre : before <+: s := prefix_of_prefix_length_le ⟨_, heq⟩ ⟨_, rfl⟩ hle
    exact ⟨_, hpre.choose_spec.symm⟩
  rw [length_append] at hlt
  rw [append_assoc, append_cancel_left_eq] at heq
  have hpre : s <+: a := prefix_of_prefix_length_le ⟨_, heq.symm⟩ ⟨_, rfl⟩ (by omega)
  obtain ⟨y, rfl⟩ := hpre
  rw [append_assoc, append_cancel_left_eq] at heq
  refine h s y rfl ?_ ⟨t, heq.symm⟩
  rintro rfl
  simp at hlt

/-- What is left by the loop.

**Proof sketch.** Induction on the loop. An occurrence that starts behind what was looked at starts
at the first one or behind it; where that one is skipped, it is the skipped one, starts inside of
it, or is left to the rest of the loop. -/
theorem Scan.cutOff_from {v token before kept rest : JsString} {parts : List MaskPart}
    (h : Scan v token before kept rest parts) (hv : v ≠ []) {part : MaskPart} (hpart : part ∈ parts)
    (hopen : part.isProtected = false) :
    ∃ x y, before ++ (kept ++ rest) = x ++ (part.text ++ y) ∧ before.length ≤ x.length ∧
      (x = before ∨ ∃ x', x = x' ++ v ∧ Maskable v x' (part.text ++ y)) ∧
      (y = [] ∨ ∃ y', y = v ++ y' ∧ Maskable v (x ++ part.text) y') ∧
      ∀ a b, part.text = a ++ (v ++ b) → (before ++ kept).length ≤ (x ++ a).length →
        Blocked v (before ++ (kept ++ rest)) (x ++ a) (b ++ y) := by
  have hvpos : 0 < v.length := length_pos_iff.2 hv
  induction h with
  | @done before kept rest hnone =>
    unfold keptPart at hpart
    split_ifs at hpart
    · cases hpart
    · obtain rfl := mem_singleton.1 hpart
      refine ⟨before, [], by simp, Nat.le_refl _, .inl rfl, .inl rfl, fun a b hab hle => ?_⟩
      exfalso
      simp only [length_append, Nat.add_le_add_iff_left] at hle
      obtain ⟨a, rfl⟩ : ∃ a', a = kept ++ a' := by
        have hpre : kept <+: a := prefix_of_prefix_length_le ⟨_, hab⟩ ⟨_, rfl⟩ hle
        exact ⟨_, hpre.choose_spec.symm⟩
      simp only [append_assoc, append_cancel_left_eq] at hab
      exact hnone ⟨a, b, by rw [hab, append_assoc]⟩
  | @mask before kept a rest parts hfirst hmask _ ih =>
    rcases mem_append.1 hpart with hpart | hpart
    · unfold keptPart at hpart
      split_ifs at hpart
      · cases hpart
      · obtain rfl := mem_singleton.1 hpart
        refine ⟨before, v ++ rest, by simp, Nat.le_refl _, .inl rfl,
          .inr ⟨rest, rfl, by simpa using hmask⟩, fun a' b hab hle => ?_⟩
        exfalso
        have htext : before ++ kept ++ (a ++ (v ++ rest)) =
            before ++ a' ++ (v ++ (b ++ (v ++ rest))) := by
          have hpiece : kept ++ a = a' ++ (v ++ b) := hab
          rw [append_assoc, ← append_assoc kept, hpiece]
          simp
        have hfrom := hfirst.length_le htext hle
        have hlen := congrArg List.length hab
        simp only [length_append] at hlen hfrom
        omega
    · rcases mem_cons.1 hpart with rfl | hpart
      · cases hopen
      · obtain ⟨x, y, heq, hpre, hleft, hright, hblocked⟩ := ih hpart
        refine ⟨x, y, by simpa using heq, ?_, ?_, hright, fun a' b hab _ => ?_⟩
        · simp only [length_append] at hpre
          omega
        · rcases hleft with rfl | hleft
          · refine .inr ⟨before ++ kept ++ a, rfl, ?_⟩
            have hrest : rest = part.text ++ y := by simpa using heq
            rwa [hrest] at hmask
          · exact .inr hleft
        · have hresult := hblocked a' b hab (by
            rw [append_nil, @List.length_append _ x]
            exact Nat.le_add_right_of_le hpre)
          simpa using hresult
  | @skip before kept a rest parts hfirst hmask _ ih =>
    obtain ⟨x, y, heq, hpre, hleft, hright, hblocked⟩ := ih hpart
    refine ⟨x, y, by simpa using heq, hpre, hleft, hright, fun a' b hab hle => ?_⟩
    have htext : before ++ kept ++ (a ++ (v ++ rest)) = x ++ a' ++ (v ++ (b ++ y)) := by
      rw [hab] at heq
      simpa using heq
    have hfrom := hfirst.length_le htext hle
    rcases Nat.lt_or_ge (before ++ kept ++ a).length (x ++ a').length with hlt | hge
    · rcases Nat.lt_or_ge (x ++ a').length ((before ++ kept ++ a).length + v.length) with
        hinside | hbehind
      · exact .inr ⟨before ++ kept ++ a, rest, by simp, hmask, hlt, hinside⟩
      · have hresult := hblocked a' b hab (by
          simp only [length_append] at hbehind ⊢
          omega)
        simpa using hresult
    · have hsplit : before ++ kept ++ a ++ (v ++ rest) = x ++ a' ++ (v ++ (b ++ y)) := by
        simpa using htext
      obtain ⟨hfront, hback⟩ := append_inj hsplit (Nat.le_antisymm hfrom hge)
      rw [append_cancel_left_eq] at hback
      rw [hfront, hback] at hmask
      exact .inl hmask

theorem cutOff_of_mem {v token text : JsString} (hv : v ≠ []) {part : MaskPart}
    (hpart : part ∈ maskValueInPart text v token) (hopen : part.isProtected = false) :
    ∃ x y, CutOff v text x part.text y := by
  have hscan : Scan v token [] [] text (maskFrom text v token (text.length + 1) 0 0) :=
    scan_maskFrom hv token [] [] text _ (Nat.lt_succ_self _)
  unfold maskValueInPart at hpart
  split_ifs at hpart with hnone
  · obtain rfl := mem_singleton.1 hpart
    have hfree : ¬ v <:+: text := by
      rw [Bool.or_eq_true, List.isEmpty_iff, isNone_iff_eq_none,
        indexOf_eq_none_iff hv] at hnone
      exact hnone.resolve_left hv
    exact ⟨[], [], by simp, .inl rfl, .inl rfl,
      fun a b hab => absurd ⟨a, b, (append_assoc a v b).trans hab.symm⟩ hfree⟩
  · obtain ⟨x, y, heq, -, hleft, hright, hblocked⟩ := hscan.cutOff_from hv hpart hopen
    exact ⟨x, y, heq, hleft, hright, fun a b hab => hblocked a b hab (Nat.zero_le _)⟩

/-! ## Parts and where they come from -/

/-- A stretch of a text and the part it became. -/
structure MaskSpan where
  source : JsString
  part : MaskPart

/-- What masking `v` by `token` makes of a stretch: it keeps it, or it was `v` and is `token`. -/
def MaskSpan.Masks (v token : JsString) (s : MaskSpan) : Prop :=
  (s.part.isProtected = false ∧ s.part.text ≠ [] ∧ s.source = s.part.text) ∨
    (s.part = ⟨token, true⟩ ∧ s.source = v)

open MaskSpan

lemma exists_spans_keptPart (v token g : JsString) :
    ∃ spans : List MaskSpan, spans.map part = keptPart g ∧
      spans.flatMap source = g ∧ ∀ s ∈ spans, s.Masks v token := by
  unfold keptPart
  split_ifs with h
  · exact ⟨[], rfl, (List.isEmpty_iff.1 h).symm, fun s hs => nomatch hs⟩
  · refine ⟨[⟨g, ⟨g, false⟩⟩], rfl, flatMap_singleton _ _, fun s hs => ?_⟩
    obtain rfl := mem_singleton.1 hs
    exact .inl ⟨rfl, fun hnil => h (List.isEmpty_iff.2 hnil), rfl⟩

variable {v token before kept rest : JsString} {parts : List MaskPart}

lemma Scan.exists_spans (h : Scan v token before kept rest parts) :
    ∃ spans : List MaskSpan, spans.map part = parts ∧
      spans.flatMap source = kept ++ rest ∧ ∀ s ∈ spans, s.Masks v token := by
  induction h with
  | @done before kept rest _ => exact exists_spans_keptPart v token (kept ++ rest)
  | @mask before kept a rest parts _ _ _ ih =>
    obtain ⟨spans, hparts, hsource, hmasks⟩ := ih
    obtain ⟨keptSpans, hkept, hkeptSource, hkeptMasks⟩ := exists_spans_keptPart v token (kept ++ a)
    refine ⟨keptSpans ++ ⟨v, ⟨token, true⟩⟩ :: spans, ?_, ?_, fun s hs => ?_⟩
    · rw [map_append, map_cons, hkept, hparts]
    · rw [flatMap_append, flatMap_cons, hkeptSource, hsource]
      simp
    · rcases mem_append.1 hs with hs | hs
      · exact hkeptMasks s hs
      · rcases mem_cons.1 hs with rfl | hs
        · exact .inr ⟨rfl, rfl⟩
        · exact hmasks s hs
  | @skip before kept a rest parts _ _ _ ih =>
    obtain ⟨spans, hparts, hsource, hmasks⟩ := ih
    exact ⟨spans, hparts, by rw [hsource]; simp, hmasks⟩

lemma exists_spans_maskValueInPart (htext : text ≠ []) (v token : JsString) :
    ∃ spans : List MaskSpan, spans.map part = maskValueInPart text v token ∧
      spans.flatMap source = text ∧ ∀ s ∈ spans, s.Masks v token := by
  have hkept := exists_spans_keptPart v token text
  rw [keptPart, if_neg (mt List.isEmpty_iff.1 htext)] at hkept
  unfold maskValueInPart
  split_ifs with hnone
  · exact hkept
  · have hv : v ≠ [] := by
      rintro rfl
      exact hnone rfl
    exact (scan_maskFrom hv token [] [] text _ (Nat.lt_succ_self _)).exists_spans

lemma Scan.eq_keptPart (h : Scan v token before kept rest parts)
    (hnone : ∀ a b, before ++ (kept ++ rest) = a ++ (v ++ b) → ¬ Maskable v a b) :
    parts = keptPart (kept ++ rest) := by
  induction h with
  | done => rfl
  | @mask before kept a rest parts _ hmask =>
    exact absurd hmask (hnone (before ++ kept ++ a) rest (by simp))
  | @skip before kept a rest parts _ _ _ ih =>
    rw [ih fun a' b hab => hnone a' b (by rw [← hab]; simp)]
    simp

lemma maskValueInPart_eq_self {v text : JsString} (token : JsString)
    (hnone : v ≠ [] → ∀ a b, text = a ++ (v ++ b) → ¬ Maskable v a b) :
    maskValueInPart text v token = [⟨text, false⟩] := by
  unfold maskValueInPart
  split_ifs with hfound
  · rfl
  · have hv : v ≠ [] := by
      rintro rfl
      exact hfound rfl
    have htext : ¬ text.isEmpty := by
      rintro hempty
      rw [List.isEmpty_iff.1 hempty, Bool.or_eq_true, isNone_iff_eq_none,
        indexOf_eq_none_iff hv] at hfound
      exact hfound (.inr (by simpa using hv))
    have hscan : Scan v token [] [] text (maskFrom text v token (text.length + 1) 0 0) :=
      scan_maskFrom hv token [] [] text _ (Nat.lt_succ_self _)
    rw [hscan.eq_keptPart (hnone hv), nil_append, keptPart, if_neg htext]

end Yantra
