import Yantra.Sanitizer.UserInput

/-!
# Marked values do not show

Two texts that differ only in the values behind their markers are redacted to the same text: the
detectors work on one literal at a time, and a placeholder depends on a value only through which
other values it equals.

## Main definitions

* `SameSkeleton` — two lists of segments that differ in marked values only.
* `VaultsAlike` — two vaults that agree up to renaming values.

## Main results

* `redact_noninterference` — what is redacted does not depend on marked values.
-/

namespace Yantra

open Utf16 List Option UserInputVault Threaded

/-! ## Detection segment by segment -/

lemma onLiterals_append (detector : JsString → List InputSegment) (a b : List InputSegment) :
    onLiterals detector (a ++ b) = onLiterals detector a ++ onLiterals detector b :=
  flatMap_append

lemma detect_append (a b : List InputSegment) : detect (a ++ b) = detect a ++ detect b := by
  unfold detect
  generalize detectors = ds
  induction ds generalizing a b with
  | nil => rfl
  | cons d ds ih => rw [foldl_cons, onLiterals_append, ih]; rfl

lemma detect_nil : detect [] = [] := by
  unfold detect
  generalize detectors = ds
  induction ds with
  | nil => rfl
  | cons d ds ih => exact ih

lemma detect_value (tag : UserInputValueTag) (v : JsString) :
    detect [.value tag v] = [.value tag v] := by
  unfold detect
  generalize detectors = ds
  induction ds with
  | nil => rfl
  | cons d ds ih => exact ih

lemma detect_cons (s : InputSegment) (rest : List InputSegment) :
    detect (s :: rest) = detect [s] ++ detect rest := detect_append [s] rest

/-! ## Skeletons -/

def InputSegment.value? : InputSegment → Option JsString
  | .literal _ => none
  | .value _ v => some v

def valuesOf (segments : List InputSegment) : List JsString :=
  segments.filterMap InputSegment.value?

def detectedValues (segments : List InputSegment) : List JsString :=
  valuesOf (detect (segments.filter fun s => s.value?.isNone))

inductive SameShape : InputSegment → InputSegment → Prop where
  | literal (text : JsString) : SameShape (.literal text) (.literal text)
  | value (tag : UserInputValueTag) (v w : JsString) : SameShape (.value tag v) (.value tag w)

/-- Two lists of segments with the same literals and tags, and the same equalities among the marked
values and between them and the values detected in the literals. -/
structure SameSkeleton (a b : List InputSegment) : Prop where
  shape : List.Forall₂ SameShape a b
  marked : ∀ p ∈ (valuesOf a).zip (valuesOf b), ∀ q ∈ (valuesOf a).zip (valuesOf b),
    p.1 = q.1 ↔ p.2 = q.2
  detected : ∀ p ∈ (valuesOf a).zip (valuesOf b), ∀ d ∈ detectedValues a, p.1 = d ↔ p.2 = d

/-- The same literal, or two values with the same tag that are renamed into each other. -/
inductive Renamed (ρ : JsString → JsString → Prop) : InputSegment → InputSegment → Prop where
  | literal (text : JsString) : Renamed ρ (.literal text) (.literal text)
  | value {tag : UserInputValueTag} {v w : JsString} (h : ρ v w) :
      Renamed ρ (.value tag v) (.value tag w)

/-- A renaming of values, one to one. -/
def OneToOne (ρ : JsString → JsString → Prop) : Prop :=
  ∀ v w v' w', ρ v w → ρ v' w' → (v = v' ↔ w = w')

variable {ρ : JsString → JsString → Prop}

variable {a b : List InputSegment}

lemma renamed_of_shape (h : Forall₂ SameShape a b) :
    Forall₂ (Renamed fun v w => (v, w) ∈ (valuesOf a).zip (valuesOf b)) a b := by
  induction h with
  | nil => exact .nil
  | @cons s t a b hshape _ ih =>
    cases hshape with
    | literal text => exact .cons (.literal text) ih
    | value tag v w =>
      refine .cons (.value mem_cons_self) (ih.imp fun s t hst => ?_)
      cases hst with
      | literal text => exact .literal text
      | value hmem => exact .value (mem_cons_of_mem _ hmem)

lemma renamed_refl {a : List InputSegment} (h : ∀ d ∈ valuesOf a, ρ d d) :
    Forall₂ (Renamed ρ) a a := by
  induction a with
  | nil => exact .nil
  | cons s a ih =>
    cases s with
    | literal text => exact .cons (.literal text) (ih h)
    | value tag v =>
      exact .cons (.value (h v mem_cons_self))
        (ih fun d hd => h d (mem_cons_of_mem v hd))

lemma renamed_detect (h : Forall₂ (Renamed ρ) a b) (hdetected : ∀ d ∈ detectedValues a, ρ d d)
    :
    Forall₂ (Renamed ρ) (detect a) (detect b) := by
  induction h with
  | nil =>
    rw [detect_nil]
    exact .nil
  | @cons s t a b hst _ ih =>
    rw [detect_cons s, detect_cons t]
    cases hst with
    | literal text =>
      have hvalues : detectedValues (.literal text :: a) =
          valuesOf (detect [.literal text]) ++ detectedValues a := by
        simp only [detectedValues, InputSegment.value?, isNone_none, filter_cons,
          if_true]
        rw [detect_cons, valuesOf, filterMap_append]
        rfl
      rw [hvalues] at hdetected
      exact rel_append (renamed_refl fun d hd => hdetected d (mem_append_left _ hd))
        (ih fun d hd => hdetected d (mem_append_right _ hd))
    | @value tag v w hvw =>
      have hvalues : detectedValues (.value tag v :: a) = detectedValues a := by
        simp only [detectedValues, InputSegment.value?, isNone_some, filter_cons,
          Bool.false_eq_true, if_false]
      rw [hvalues] at hdetected
      rw [detect_value, detect_value, singleton_append, singleton_append]
      exact .cons (.value hvw) (ih hdetected)

/-! ## Vaults up to renaming -/

/-- Two vaults that give renamed values the same placeholder, and count alike. -/
structure VaultsAlike (ρ : JsString → JsString → Prop) (V W : UserInputVault) : Prop where
  counters : V.countersByTag = W.countersByTag
  placeholders : ∀ v w, ρ v w → V.placeholderByValue.get? v = W.placeholderByValue.get? w

variable {V W : UserInputVault}

lemma placeholderFor_alike (hρ : OneToOne ρ) (h : VaultsAlike ρ V W) (tag : UserInputValueTag)
    {v w : JsString} (hvw : ρ v w) :
    (V.placeholderFor tag v).1 = (W.placeholderFor tag w).1 ∧
      VaultsAlike ρ (V.placeholderFor tag v).2 (W.placeholderFor tag w).2 := by
  unfold placeholderFor
  rw [h.placeholders v w hvw]
  cases W.placeholderByValue.get? w with
  | some token => exact ⟨rfl, h⟩
  | none =>
    simp only
    rw [h.counters]
    refine ⟨rfl, rfl, fun v' w' hvw' => ?_⟩
    rw [OrderedMap.get?_set, OrderedMap.get?_set, h.placeholders v' w' hvw']
    exact if_congr (hρ v w v' w' hvw hvw') rfl rfl

lemma reserve_alike (hρ : OneToOne ρ) (h : VaultsAlike ρ V W) {s t : InputSegment}
    (hst : Renamed ρ s t) : VaultsAlike ρ (V.reserve s) (W.reserve t) := by
  cases hst with
  | literal text => exact h
  | @value tag v w hvw =>
    have hmarked : VaultsAlike ρ { V with markedValues := V.markedValues.insert v }
        { W with markedValues := W.markedValues.insert w } := ⟨h.counters, h.placeholders⟩
    exact (placeholderFor_alike hρ hmarked tag hvw).2

lemma foldl_reserve_alike (hρ : OneToOne ρ) (hab : Forall₂ (Renamed ρ) a b)
    (h : VaultsAlike ρ V W) :
    VaultsAlike ρ (a.foldl reserve V) (b.foldl reserve W) := by
  induction hab generalizing V W with
  | nil => exact h
  | cons hst _ ih => exact ih (reserve_alike hρ h hst)

lemma render_alike (hρ : OneToOne ρ) (hab : Forall₂ (Renamed ρ) a b) (h : VaultsAlike ρ V W) :
    (mapState render a V).1 =
      (mapState render b W).1 := by
  induction hab generalizing V W with
  | nil => rfl
  | @cons s t a b hst _ ih =>
    cases hst with
    | literal text => exact congrArg (List.cons text) (ih h)
    | @value tag v w hvw =>
      obtain ⟨hsame, hnext⟩ := placeholderFor_alike hρ h tag hvw
      exact congrArg₂ List.cons hsame (ih hnext)

/-! ## Redaction -/

lemma redactSegments_fst (V : UserInputVault) (a : List InputSegment) :
    (V.redactSegments a).1 =
      (mapState render (detect a)
        (a.foldl reserve V)).1.flatten := by
  unfold redactSegments
  generalize mapState render (detect a)
    (a.foldl reserve V) = r
  rfl

/-- **Marked values do not show.** Two texts whose markers and literals have the same skeleton are
redacted to the same text by a fresh vault; and detection treats what is before and after a marked
value as if the value were not there.

**Proof sketch.** The values are renamed into each other one to one, the detected ones into
themselves. Reserving and rendering keep two vaults alike up to this renaming, so they hand out the
same placeholders. -/
theorem redact_noninterference (text₁ text₂ : JsString) (a b : List InputSegment)
    (h₁ : parseUserInputMarkers text₁ = .ok a) (h₂ : parseUserInputMarkers text₂ = .ok b)
    (h : SameSkeleton a b) :
    (∃ out vault₁ vault₂, UserInputVault.redact {} text₁ = .ok (out, vault₁) ∧
      UserInputVault.redact {} text₂ = .ok (out, vault₂)) ∧
    ∀ before after tag v, detect (before ++ .value tag v :: after) =
      detect before ++ .value tag v :: detect after := by
  refine ⟨?_, fun before after tag v => ?_⟩
  · let ρ (v w : JsString) : Prop :=
      (v, w) ∈ (valuesOf a).zip (valuesOf b) ∨ v = w ∧ v ∈ detectedValues a
    have hρ : OneToOne ρ := by
      rintro v w v' w' (hvw | ⟨rfl, hv⟩) (hvw' | ⟨rfl, hv'⟩)
      · exact h.marked _ hvw _ hvw'
      · exact h.detected _ hvw v' hv'
      · rw [eq_comm, h.detected _ hvw' v hv, eq_comm]
      · exact Iff.rfl
    have hrenamed : List.Forall₂ (Renamed ρ) a b :=
      (renamed_of_shape h.shape).imp fun s t hst => by
        cases hst with
        | literal text => exact .literal text
        | value hmem => exact .value (.inl hmem)
    have hdetect := renamed_detect hrenamed fun d hd => .inr ⟨rfl, hd⟩
    have hfresh : VaultsAlike ρ {} {} := ⟨rfl, fun _ _ _ => rfl⟩
    have hrender := render_alike hρ hdetect (foldl_reserve_alike hρ hrenamed hfresh)
    have hsame : (UserInputVault.redactSegments {} a).1 =
        (UserInputVault.redactSegments {} b).1 := by
      rw [redactSegments_fst, redactSegments_fst, hrender]
    refine ⟨_, (UserInputVault.redactSegments {} a).2, (UserInputVault.redactSegments {} b).2,
      by rw [UserInputVault.redact, h₁], ?_⟩
    rw [UserInputVault.redact, h₂, hsame]
  · rw [detect_append, detect_cons, detect_value, List.singleton_append]

/-- Two PINs behind the same marker are redacted alike. -/
theorem redact_noninterference_pins :
    ∃ out vault₁ vault₂,
      UserInputVault.redact {} (units "pin @pin\x7b12\x7d or call 555-123-4567") =
        .ok (out, vault₁) ∧
      UserInputVault.redact {} (units "pin @pin\x7b9876\x7d or call 555-123-4567") =
        .ok (out, vault₂) := by
  have h₁ : parseUserInputMarkers (units "pin @pin\x7b12\x7d or call 555-123-4567") =
      .ok [.literal (units "pin "), .value .pin (units "12"),
        .literal (units " or call 555-123-4567")] := by decide +kernel
  have h₂ : parseUserInputMarkers (units "pin @pin\x7b9876\x7d or call 555-123-4567") =
      .ok [.literal (units "pin "), .value .pin (units "9876"),
        .literal (units " or call 555-123-4567")] := by decide +kernel
  refine (redact_noninterference _ _ _ _ h₁ h₂ ⟨?_, by decide +kernel, by decide +kernel⟩).1
  exact .cons (.literal _) (.cons (.value .pin _ _) (.cons (.literal _) .nil))

end Yantra
