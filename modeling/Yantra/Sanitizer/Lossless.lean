import Yantra.Lib.Machine
import Yantra.Sanitizer.Noninterference
import Yantra.Sanitizer.Placeholders

/-!
# Redaction loses nothing

What `redact` writes resolves to what the user meant, and masking a text does not change what it
resolves to: literals keep their text through all detectors, each placeholder stands for its value,
and no token arises where literals and placeholders meet.

## Main definitions

* `VaultInv` — what holds of every vault.
* `vaults` — vaults and the texts they redact.

## Main results

* `resolve_lossless` — redacting and masking lose nothing.
-/

namespace Yantra

open Utf16 Tokens List Option UserInputVault

/-! ## Scanning a literal -/

def Apart (s t : InputSegment) : Prop := s.value?.isSome ∨ t.value?.isSome

/-- Segments that say the same as a literal, no two literals next to each other. -/
structure Splits (text : JsString) (segments : List InputSegment) : Prop where
  plain : plainText segments = text
  apart : segments.IsChain Apart

/-- The segments of a text up to `cursor`, the last of them a value. -/
structure Scanned (text : JsString) (cursor : ℕ) (segments : List InputSegment) : Prop where
  splits : Splits (text.take cursor) segments
  ends : ∀ s ∈ segments.getLast?, s.value?.isSome

lemma plainText_append (a b : List InputSegment) :
    plainText (a ++ b) = plainText a ++ plainText b := flatMap_append

variable {segments : List InputSegment}

lemma pushLiteral_of_ends (text : JsString) (hends : ∀ s ∈ segments.getLast?, s.value?.isSome) :
    pushLiteral segments text =
      segments ++ if text.isEmpty then [] else [.literal text] := by
  unfold pushLiteral
  split_ifs with h
  · rw [append_nil]
  · split
    · rename_i previous hlast
      exact absurd (hends _ hlast) Bool.false_ne_true
    · rfl

lemma isChain_pushLiteral (text : JsString) (hchain : segments.IsChain Apart)
    (hends : ∀ s ∈ segments.getLast?, s.value?.isSome) :
    (pushLiteral segments text).IsChain Apart := by
  rw [pushLiteral_of_ends text hends, isChain_append]
  refine ⟨hchain, ?_, fun s hs t _ => .inl (hends s hs)⟩
  split_ifs
  · exact .nil
  · exact .singleton _

lemma isChain_concat_value (tag : UserInputValueTag) (v : JsString)
    (hchain : segments.IsChain Apart) :
    (segments ++ [InputSegment.value tag v]).IsChain Apart := by
  rw [isChain_append]
  refine ⟨hchain, .singleton _, fun s _ t ht => ?_⟩
  cases ht
  exact .inr rfl

lemma scanned_nil (text : JsString) : Scanned text 0 [] := by
  refine ⟨⟨?_, .nil⟩, fun s hs => nomatch hs⟩
  rw [take_zero]
  rfl

variable {text : JsString}

variable {cursor : ℕ}

lemma Scanned.step (h : Scanned text cursor segments) {start stop : ℕ} (hstart : cursor ≤ start)
    (hstop : start ≤ stop) (tag : UserInputValueTag) :
    Scanned text stop (pushLiteral segments (Regex.slice text cursor start) ++
      [.value tag (Regex.slice text start stop)]) := by
  refine ⟨⟨?_, isChain_concat_value tag _ (isChain_pushLiteral _ h.splits.apart h.ends)⟩,
    fun s hs => ?_⟩
  · rw [plainText_append, plainText_pushLiteral, h.splits.plain]
    have hvalue : plainText [.value tag (Regex.slice text start stop)] =
        Regex.slice text start stop := flatMap_singleton _ _
    have htake (i j : ℕ) (hij : i ≤ j) : text.take i ++ Regex.slice text i j = text.take j := by
      have hslice := Regex.slice_append_slice text (Nat.zero_le i) hij
      simpa only [Regex.slice, drop_zero] using hslice
    rw [hvalue, htake _ _ hstart, htake _ _ hstop]
  · rw [getLast?_concat, mem_some_iff] at hs
    rw [← hs]
    rfl

lemma Scanned.finish (h : Scanned text cursor segments) :
    Splits text (pushLiteral segments (text.drop cursor)) := by
  refine ⟨?_, isChain_pushLiteral _ h.splits.apart h.ends⟩
  rw [plainText_pushLiteral, h.splits.plain, take_append_drop]

lemma Splits.orLiteral (h : Splits text segments) :
    Splits text (orLiteral text segments) := by
  unfold Yantra.orLiteral
  split_ifs
  · exact ⟨flatMap_singleton _ _, .singleton _⟩
  · exact h

/-! ## The detectors -/

variable {c : Candidate}

lemma candidateAt_le {explicitSeparator : Bool}
    (h : candidateAt text cursor explicitSeparator = some c) : c.start ≤ c.stop := by
  unfold candidateAt at h
  split at h
  · cases h
  · split_ifs at h
    · split at h
      · cases h
      · rename_i close hclose
        split_ifs at h
        cases h
        exact (indexOf_spec hclose).1
    · simp only at h
      split_ifs at h <;>
        · cases h
          exact Nat.le_add_right _ _

lemma candidateAfter_le {keywordEnd : ℕ} {tag : UserInputValueTag}
    (h : candidateAfter text keywordEnd tag = some c) : c.start ≤ c.stop := by
  unfold candidateAfter at h
  split_ifs at h
  exact candidateAt_le h

lemma splits_detectFrom (text : JsString) (fuel lastIndex cursor : ℕ) (output : List InputSegment)
    (h : Scanned text cursor output) :
    Splits text (detectFrom text fuel lastIndex cursor output) := by
  induction fuel generalizing lastIndex cursor output with
  | zero => exact h.finish
  | succ fuel ih =>
    rw [detectFrom]
    split
    · exact h.finish
    · simp only
      split
      · exact ih _ _ _ h
      · rename_i c hc
        split_ifs with hskip hkeyword
        · exact ih _ _ _ h
        · exact ih _ _ _ h
        · rw [not_or, Nat.not_lt] at hskip
          exact ih _ _ _ (h.step hskip.1 (candidateAfter_le hc) _)

lemma splits_replaceFrom (text : JsString) (select : Regex.Match CodeUnit → Option SegmentMatch)
    (cursor : ℕ) (output : List InputSegment) (ms : List (Regex.Match CodeUnit))
    (h : Scanned text cursor output) :
    Splits text (replaceFrom text select cursor output ms) := by
  induction ms generalizing cursor output with
  | nil => exact h.finish
  | cons m ms ih =>
    rw [replaceFrom]
    split
    · exact ih _ _ h
    · split_ifs with hskip
      · exact ih _ _ h
      · exact ih _ _ (h.step (Nat.le_of_not_lt hskip) (Nat.le_add_right _ _) _)

lemma splits_replaceLiteralMatches (pattern : Regex CodeUnit)
    (select : JsString → Regex.Match CodeUnit → Option SegmentMatch) (text : JsString) :
    Splits text (replaceLiteralMatches pattern select text) :=
  (splits_replaceFrom text (select text) 0 [] _ (scanned_nil text)).orLiteral

theorem splits_of_mem_detectors {detector : JsString → List InputSegment} (h : detector ∈ detectors)
    (text : JsString) : Splits text (detector text) := by
  rcases mem_append.1 h with h | h
  · rcases mem_cons.1 h with rfl | h
    · exact (splits_detectFrom text _ 0 0 [] (scanned_nil text)).orLiteral
    · simp only [mem_cons, not_mem_nil, or_false] at h
      rcases h with rfl | rfl | rfl | rfl | rfl | rfl <;>
        exact splits_replaceLiteralMatches _ _ text
  · obtain ⟨pattern, -, rfl⟩ := List.mem_map.1 h
    exact splits_replaceLiteralMatches _ _ text

/-! ## Detection keeps segments intact -/

/-- Segments whose literals have no tokens, no two literals next to each other. -/
structure Intact (segments : List InputSegment) : Prop where
  free : ∀ text, .literal text ∈ segments → TokenFree IsPlaceholder text
  apart : segments.IsChain Apart

lemma onLiterals_cons (detector : JsString → List InputSegment) (s : InputSegment)
    (segments : List InputSegment) :
    onLiterals detector (s :: segments) =
      onLiterals detector [s] ++ onLiterals detector segments :=
  onLiterals_append detector [s] segments

lemma onLiterals_value (detector : JsString → List InputSegment) (tag : UserInputValueTag)
    (v : JsString) : onLiterals detector [.value tag v] = [.value tag v] := rfl

lemma onLiterals_literal (detector : JsString → List InputSegment) (text : JsString) :
    onLiterals detector [.literal text] = detector text := flatMap_singleton _ _

section Detector

variable {detector : JsString → List InputSegment}

lemma plainText_onLiterals (hd : ∀ text, Splits text (detector text)) (segments : List InputSegment)
    :
    plainText (onLiterals detector segments) = plainText segments := by
  induction segments with
  | nil => rfl
  | cons s segments ih =>
    rw [onLiterals_cons, plainText_append, ih]
    cases s with
    | literal text =>
      rw [onLiterals_literal, (hd text).plain]
      rfl
    | value tag v =>
      rw [onLiterals_value, ← plainText_append]
      rfl

lemma apart_onLiterals {s t : InputSegment} (h : Apart s t) (rest : List InputSegment) :
    ∀ x ∈ (onLiterals detector [s]).getLast?, ∀ y ∈ (onLiterals detector (t :: rest)).head?,
      Apart x y := by
  intro x hx y hy
  rcases h with h | h
  · cases s with
    | literal text => cases h
    | value tag v =>
      cases hx
      exact .inl rfl
  · cases t with
    | literal text => cases h
    | value tag v =>
      cases hy
      exact .inr rfl

lemma isChain_onLiterals (hd : ∀ text, Splits text (detector text)) (h : segments.IsChain Apart) :
    (onLiterals detector segments).IsChain Apart := by
  induction segments with
  | nil => exact .nil
  | cons s segments ih =>
    rw [onLiterals_cons, isChain_append]
    refine ⟨?_, ih h.tail, ?_⟩
    · cases s with
      | literal text =>
        rw [onLiterals_literal]
        exact (hd text).apart
      | value tag v => exact .singleton _
    · cases segments with
      | nil => exact fun x _ y hy => nomatch hy
      | cons t segments => exact apart_onLiterals (isChain_cons_cons.1 h).1 segments

lemma infix_plainText (h : .literal text ∈ segments) : text <:+: plainText segments := by
  obtain ⟨a, b, rfl⟩ := append_of_mem h
  refine ⟨plainText a, plainText b, ?_⟩
  rw [plainText_append, append_assoc]
  rfl

lemma intact_onLiterals (hd : ∀ text, Splits text (detector text)) (h : Intact segments) :
    Intact (onLiterals detector segments) := by
  refine ⟨fun text hmem => ?_, isChain_onLiterals hd h.apart⟩
  obtain ⟨s, hs, hmem⟩ := mem_flatMap.1 hmem
  cases s with
  | literal whole =>
    refine (h.free whole hs).mono ?_
    rw [← (hd whole).plain]
    exact infix_plainText hmem
  | value tag v => cases mem_singleton.1 hmem

end Detector

/-- **Detection keeps what segments stand for**, and keeps them intact. -/
theorem detect_intact (h : Intact segments) :
    plainText (detect segments) = plainText segments ∧ Intact (detect segments) := by
  have hsplits (d : JsString → List InputSegment) (hd : d ∈ detectors) := splits_of_mem_detectors hd
  unfold detect
  generalize detectors = ds at hsplits
  induction ds generalizing segments with
  | nil => exact ⟨rfl, h⟩
  | cons d ds ih =>
    have hd := hsplits d mem_cons_self
    obtain ⟨hplain, hintact⟩ := ih (intact_onLiterals hd h) fun d' hd' =>
      hsplits d' (mem_cons_of_mem d hd')
    exact ⟨hplain.trans (plainText_onLiterals hd segments), hintact⟩

/-! ## Parsed segments -/

lemma intact_pushLiteral (h : Intact segments) (hends : ∀ s ∈ segments.getLast?, s.value?.isSome)
    (hfree : TokenFree IsPlaceholder text) :
    Intact (pushLiteral segments text) := by
  refine ⟨fun literal hmem => ?_, isChain_pushLiteral text h.apart hends⟩
  rw [pushLiteral_of_ends text hends, mem_append] at hmem
  rcases hmem with hmem | hmem
  · exact h.free literal hmem
  · split_ifs at hmem
    · cases hmem
    · cases mem_singleton.1 hmem
      exact hfree

lemma intact_concat_value (tag : UserInputValueTag) (v : JsString) (h : Intact segments) :
    Intact (segments ++ [.value tag v]) := by
  refine ⟨fun text hmem => ?_, isChain_concat_value tag v h.apart⟩
  rcases mem_append.1 hmem with hmem | hmem
  · exact h.free text hmem
  · cases mem_singleton.1 hmem

/-- The parser keeps segments intact: its literals are parts of the text with some `@@` written as
`@`.

**Proof sketch.** Induction on the fuel; `raw` is what the literal at hand was read from. -/
lemma intact_parseFrom {text : JsString} (htext : TokenFree IsPlaceholder text) (fuel cursor : ℕ)
    (segments out : List InputSegment) (raw literal rest : JsString) (hraw : Collapsed raw literal)
    (hin : raw ++ rest <:+: text) (hintact : Intact segments)
    (hends : ∀ s ∈ segments.getLast?, s.value?.isSome)
    (h : parseFrom fuel cursor segments literal rest = .ok out) : Intact out := by
  have hpush {segments : List InputSegment} {raw literal rest : JsString}
      (hraw : Collapsed raw literal) (hin : raw ++ rest <:+: text) (hintact : Intact segments)
      (hends : ∀ s ∈ segments.getLast?, s.value?.isSome) : Intact (pushLiteral segments literal) :=
    intact_pushLiteral hintact hends (tokenFree_of_collapsed hraw
      (htext.mono ((prefix_append raw rest).isInfix.trans hin)))
  induction fuel generalizing cursor segments raw literal rest with
  | zero =>
    cases h
    exact hpush hraw hin hintact hends
  | succ fuel ih =>
    cases rest with
    | nil =>
      cases h
      exact hpush hraw hin hintact hends
    | cons c rest =>
      have hkeep : (raw ++ [c]) ++ rest <:+: text := by rwa [append_assoc]
      rw [parseFrom] at h
      split_ifs at h with hc hat
      · exact ih _ _ _ _ _ (hraw.append (.keep c .nil)) hkeep hintact hends h
      · obtain ⟨rest, rfl⟩ := head?_eq_some_iff.1 hat
        have hdoubled : (raw ++ [atSign, atSign]) ++ rest <:+: text := by
          rw [not_not.1 hc] at hin
          rwa [append_assoc]
        exact ih _ _ _ _ _ (hraw.append (.doubled .nil)) hdoubled hintact hends h
      · split at h
        · rw [not_not.1 hc] at hkeep
          exact ih _ _ _ _ _ (hraw.append (.keep atSign .nil)) hkeep hintact hends h
        · rename_i name body hopening
          obtain ⟨tag, -, -, rfl⟩ := markerOpening_eq_some hopening
          split at h
          · cases h
          · split at h
            · cases h
            · rename_i value after hbody
              split_ifs at h
              obtain ⟨b, -, rfl⟩ := closes_of_parseBody 0 body value after hbody
              refine ih _ _ [] [] after .nil ?_
                (intact_concat_value _ _ (hpush hraw hin hintact hends)) (fun s hs => ?_) h
              · have hafter :
                    after <:+ raw ++ c :: (tag ++ openBrace :: (b ++ closeBrace :: after)) :=
                  ⟨raw ++ c :: (tag ++ openBrace :: (b ++ [closeBrace])), by simp⟩
                exact hafter.isInfix.trans hin
              · rw [getLast?_concat] at hs
                cases hs
                rfl

theorem intact_of_parse (h : parseUserInputMarkers text = .ok segments) : Intact segments := by
  have htext := tokenFree_of_parse h
  unfold parseUserInputMarkers at h
  split at h
  · cases h
  · exact intact_parseFrom htext _ _ [] segments [] [] text .nil (infix_refl text)
      ⟨fun _ hmem => (nomatch hmem), .nil⟩ (fun s hs => nomatch hs) h

/-! ## Vaults -/

/-- Every placeholder in use is mapped back to its value, and is one its counter has passed. -/
structure VaultInv (vault : UserInputVault) : Prop where
  back : ∀ v token, vault.placeholderByValue.get? v = some token →
    vault.valueByPlaceholder.get? token = some v
  counted : ∀ v token, vault.placeholderByValue.get? v = some token →
    ∃ tag n, token = placeholder tag n ∧ n ≤ (vault.countersByTag.get? tag).getD 0

def Grows (V W : UserInputVault) : Prop :=
  ∀ v token, V.placeholderByValue.get? v = some token → W.placeholderByValue.get? v = some token

def Shows (segment : InputSegment) (part : JsString) (vault : UserInputVault) : Prop :=
  match segment with
  | .literal text => part = text
  | .value _ v => vault.placeholderByValue.get? v = some part

lemma Grows.refl (V : UserInputVault) : Grows V V := fun _ _ h => h

lemma Grows.trans (U V W : UserInputVault) (h : Grows U V) (h' : Grows V W) : Grows U W :=
  fun v token hv => h' v token (h v token hv)

/-- Handing out a placeholder.

**Proof sketch.** A new placeholder is one past its counter, so no value has it yet. -/
lemma placeholderFor_spec {V : UserInputVault} (h : VaultInv V) (tag : UserInputValueTag)
    (v : JsString) : VaultInv (V.placeholderFor tag v).2 ∧ Grows V (V.placeholderFor tag v).2 ∧
      (V.placeholderFor tag v).2.placeholderByValue.get? v = some (V.placeholderFor tag v).1 := by
  unfold placeholderFor
  cases hv : V.placeholderByValue.get? v with
  | some token => exact ⟨h, .refl V, hv⟩
  | none =>
    simp only
    generalize hn : (V.countersByTag.get? tag).getD 0 + 1 = n
    have hfresh (v' token : JsString) (hv' : V.placeholderByValue.get? v' = some token) :
        placeholder tag n ≠ token := by
      rintro rfl
      obtain ⟨tag', n', heq, hle⟩ := h.counted v' _ hv'
      obtain ⟨rfl, rfl⟩ := placeholder_inj heq
      omega
    refine ⟨⟨?_, ?_⟩, fun v' token hv' => OrderedMap.get?_set_of_get? hv' ?_,
      OrderedMap.get?_set_self _ _ _⟩
    · exact OrderedMap.forall_get?_set (OrderedMap.get?_set_self _ _ _) fun v' token hv' =>
        OrderedMap.get?_set_of_get? (h.back v' token hv') fun heq =>
          absurd heq (hfresh v' token hv')
    · refine OrderedMap.forall_get?_set ⟨tag, n, rfl, ?_⟩ fun v' token hv' => ?_
      · rw [OrderedMap.get?_set_self, getD_some]
      · obtain ⟨tag', n', htoken, hle⟩ := h.counted v' token hv'
        refine ⟨tag', n', htoken, ?_⟩
        rw [OrderedMap.get?_set]
        split_ifs with htag
        · subst htag
          rw [getD_some]
          omega
        · exact hle
    · rintro rfl
      rw [hv] at hv'
      cases hv'

variable {V : UserInputVault}

lemma reserve_spec (h : VaultInv V) (s : InputSegment) :
    VaultInv (V.reserve s) ∧ Grows V (V.reserve s) := by
  cases s with
  | literal text => exact ⟨h, .refl V⟩
  | value tag v =>
    have hmarked : VaultInv { V with markedValues := V.markedValues.insert v } :=
      ⟨h.back, h.counted⟩
    obtain ⟨hinv, hgrows, -⟩ := placeholderFor_spec hmarked tag v
    exact ⟨hinv, hgrows⟩

lemma vaultInv_foldl_reserve (h : VaultInv V) (segments : List InputSegment) :
    VaultInv (segments.foldl reserve V) := by
  induction segments generalizing V with
  | nil => exact h
  | cons s segments ih => exact ih (reserve_spec h s).1

lemma render_spec (h : VaultInv V) (s : InputSegment) :
    VaultInv (render s V).2 ∧ Grows V (render s V).2 ∧
      Shows s (render s V).1 (render s V).2 := by
  cases s with
  | literal text => exact ⟨h, .refl V, rfl⟩
  | value tag v => exact placeholderFor_spec h tag v

lemma Shows.mono (s : InputSegment) (part : JsString) (V W : UserInputVault) (h : Shows s part V)
    (hVW : Grows V W) : Shows s part W := by
  cases s with
  | literal text => exact h
  | value tag v => exact hVW v part h

lemma redactSegments_snd (V : UserInputVault) (segments : List InputSegment) :
    (V.redactSegments segments).2 =
      (Threaded.mapState render (detect segments)
        (segments.foldl reserve V)).2 := by
  unfold redactSegments
  generalize Threaded.mapState render (detect segments)
    (segments.foldl reserve V) = r
  rfl

lemma redactSegments_spec (h : VaultInv V) (segments : List InputSegment) :
    VaultInv (V.redactSegments segments).2 ∧ ∃ parts,
      (V.redactSegments segments).1 = parts.flatten ∧
      Forall₂ (fun s part => Shows s part (V.redactSegments segments).2) (detect segments)
        parts := by
  obtain ⟨hinv, -, hshows⟩ := Threaded.mapState_forall₂ Grows.refl Grows.trans Shows.mono
    (fun s V hV => render_spec (V := V) hV s) (detect segments)
    (segments.foldl reserve V) (vaultInv_foldl_reserve h segments)
  rw [redactSegments_fst, redactSegments_snd]
  exact ⟨hinv, _, rfl, hshows⟩

/-! ## Resolving -/

variable {v token : JsString}

lemma VaultInv.valueOf_eq (h : VaultInv V) (hv : V.placeholderByValue.get? v = some token) :
    V.valueOf token = v := by
  rw [UserInputVault.valueOf, h.back v token hv, getD_some]

lemma VaultInv.isPlaceholder (h : VaultInv V) (hv : V.placeholderByValue.get? v = some token) :
    IsPlaceholder token := by
  obtain ⟨tag, n, rfl, -⟩ := h.counted v token hv
  exact isPlaceholder_placeholder tag n

lemma resolve_eq (V : UserInputVault) (text : JsString) :
    V.resolve text = placeholderPattern.replace (fun m => V.valueOf m.text) text := by
  unfold UserInputVault.resolve
  split_ifs with hempty
  · have hvalue (token : JsString) : V.valueOf token = token := by
      have hnone : V.valueByPlaceholder.get? token = none := by
        rw [← not_isSome_iff_eq_none]
        intro hsome
        have hmem := (OrderedMap.has_iff_mem_keys V.valueByPlaceholder token).1 hsome
        rw [List.isEmpty_iff.1 hempty] at hmem
        cases hmem
      rw [UserInputVault.valueOf, hnone, getD_none]
    simp only [hvalue]
    exact (Regex.splice_self text (Regex.ordered_matchAll placeholderPattern text)).symm
  · rfl

/-- What shows intact segments stands for them.

**Proof sketch.** Induction on the segments: a literal has no tokens and what follows it is a
value, a placeholder is a token that stands for its value. -/
lemma resolves_of_shows {V : UserInputVault} (hV : VaultInv V) {segments : List InputSegment}
    {parts : List JsString} (hintact : Intact segments)
    (h : Forall₂ (fun s part => Shows s part V) segments parts) :
    ∃ ps, flat ps = parts.flatten ∧ Resolves IsPlaceholder V.valueOf ps (plainText segments) ∧
      ((∀ s ∈ segments.head?, s.value?.isSome) → HeadProtected ps) := by
  induction h with
  | nil => exact ⟨[], rfl, .nil, fun _ => headProtected_nil⟩
  | @cons s part segments parts hshows _ ih =>
    have htail : Intact segments :=
      ⟨fun text hmem => hintact.free text (mem_cons_of_mem s hmem), hintact.apart.tail⟩
    obtain ⟨ps, hflat, hresolves, hhead⟩ := ih htail
    cases s with
    | literal text =>
      obtain rfl : part = text := hshows
      refine ⟨⟨part, false⟩ :: ps, congrArg (part ++ ·) hflat,
        .gap (hintact.free part mem_cons_self) (hhead fun t ht => ?_) hresolves,
        fun hvalue => absurd (hvalue _ rfl) Bool.false_ne_true⟩
      cases segments with
      | nil => cases ht
      | cons t' segments =>
        cases ht
        exact (isChain_cons_cons.1 hintact.apart).1.resolve_left Bool.false_ne_true
    | value tag v =>
      refine ⟨⟨part, true⟩ :: ps, congrArg (part ++ ·) hflat, ?_, fun _ => headProtected_token _ _⟩
      have htoken := Resolves.token (f := V.valueOf) (hV.isPlaceholder hshows) hresolves
      rwa [hV.valueOf_eq hshows] at htoken

theorem resolve_redactSegments (hV : VaultInv V) (h : Intact segments) :
    (V.redactSegments segments).2.resolve (V.redactSegments segments).1 = plainText segments := by
  obtain ⟨hinv, parts, hout, hshows⟩ := redactSegments_spec hV segments
  obtain ⟨hplain, hintact⟩ := detect_intact h
  obtain ⟨ps, hflat, hresolves, -⟩ := resolves_of_shows hinv hintact hshows
  rw [resolve_eq, hout, ← hflat, replace_flat recognizes_placeholder hresolves, hplain]

/-! ## Masking -/

/-- Masking a value in a piece without tokens does not change what the piece stands for.

**Proof sketch.** Induction on the fuel: each occurrence found becomes a token that stands for the
value, and what is between two of them has no tokens. -/
lemma resolves_maskFrom {f : JsString → JsString} {text v token : JsString}
    (hfree : TokenFree IsPlaceholder text) (htoken : IsPlaceholder token) (hvalue : f token = v)
    {ps : List MaskPart} {t : JsString} (hhead : HeadProtected ps)
    (h : Resolves IsPlaceholder f ps t) (fuel searchCursor outputCursor : ℕ)
    (hle : outputCursor ≤ searchCursor) :
    Resolves IsPlaceholder f (maskFrom text v token fuel searchCursor outputCursor ++ ps)
      (text.drop outputCursor ++ t) := by
  have hremaining (outputCursor : ℕ) : Resolves IsPlaceholder f
      ((if outputCursor < text.length then [⟨text.drop outputCursor, false⟩] else []) ++ ps)
      (text.drop outputCursor ++ t) := by
    split_ifs with hlt
    · exact .gap (hfree.mono (drop_suffix _ _).isInfix) hhead h
    · rw [drop_eq_nil_of_le (Nat.le_of_not_lt hlt)]
      exact h
  induction fuel generalizing searchCursor outputCursor with
  | zero => exact hremaining outputCursor
  | succ fuel ih =>
    rw [maskFrom]
    split
    · exact hremaining outputCursor
    · rename_i found hfound
      obtain ⟨hsearch, -, rest, hrest⟩ := indexOf_spec hfound
      have hdrop : text.drop (found + v.length) = rest := by
        rw [← drop_drop, ← hrest, drop_left]
      simp only
      split_ifs with hmask hgap
      · have hmasked := Resolves.token (f := f) htoken (ih _ _ (Nat.le_refl (found + v.length)))
        rw [hvalue, hdrop, ← append_assoc, hrest] at hmasked
        have hslice : TokenFree IsPlaceholder (Regex.slice text outputCursor found) :=
          hfree.mono ((drop_suffix _ _).isInfix.trans ( take_prefix _ _).isInfix)
        have hgaps := Resolves.gap hslice (headProtected_token _ _) hmasked
        rwa [← append_assoc, Regex.slice_append_drop text (Nat.le_of_lt hgap)] at hgaps
      · have hmasked := Resolves.token (f := f) htoken (ih _ _ (Nat.le_refl (found + v.length)))
        rw [hvalue, hdrop, ← append_assoc, hrest] at hmasked
        obtain rfl : outputCursor = found := by omega
        exact hmasked
      · exact ih _ _ (by omega)

variable {ps : List MaskPart} {t : JsString}

lemma resolves_maskValue (hV : VaultInv V) {entry : JsString × JsString}
    (hentry : entry ∈ V.placeholderByValue.entries) (h : Resolves IsPlaceholder V.valueOf ps t) :
    Resolves IsPlaceholder V.valueOf (maskValue ps entry) t := by
  have hget := (V.placeholderByValue.get?_eq_some_iff entry.1 entry.2).2 hentry
  refine h.refine (fun w => if_pos rfl) fun g ps t hfree hhead h => ?_
  rw [if_neg Bool.false_ne_true, maskValueInPart]
  split_ifs
  · exact .gap hfree hhead h
  · exact resolves_maskFrom hfree (hV.isPlaceholder hget) (hV.valueOf_eq hget) hhead h _ 0 0
      (Nat.le_refl 0)

lemma resolves_foldl_maskValue (hV : VaultInv V) {entries : List (JsString × JsString)}
    (hentries : ∀ e ∈ entries, e ∈ V.placeholderByValue.entries)
    (h : Resolves IsPlaceholder V.valueOf ps t) :
    Resolves IsPlaceholder V.valueOf (entries.foldl maskValue ps) t := by
  induction entries generalizing ps with
  | nil => exact h
  | cons e entries ih =>
    exact ih (fun e' he' => hentries e' (mem_cons_of_mem e he'))
      (resolves_maskValue hV (hentries e mem_cons_self) h)

theorem resolve_mask (hV : VaultInv V) (text : JsString) :
    V.resolve (V.mask text) = V.resolve text := by
  unfold mask
  split_ifs
  · rfl
  · rw [resolve_eq V text, resolve_eq]
    exact replace_flat recognizes_placeholder (resolves_foldl_maskValue hV
      (fun e he => mem_mergeSort.1 he) (resolves_pieces recognizes_placeholder text))

/-! ## Runs of a vault -/

/-- A vault and the texts it redacts; a text that is not accepted leaves it as it is. -/
def vaults : Machine UserInputVault JsString where
  init := {}
  step vault text :=
    match vault.redact text with
    | .error _ => vault
    | .ok (_, vault') => vault'

lemma vaultInv_step (V : UserInputVault) (text : JsString) (h : VaultInv V) :
    VaultInv (vaults.step V text) := by
  simp only [vaults, redact]
  cases parseUserInputMarkers text with
  | error e => exact h
  | ok segments =>
    have hspec := (redactSegments_spec h segments).1
    dsimp only
    generalize V.redactSegments segments = r at hspec ⊢
    exact hspec

lemma vaultInv_empty : VaultInv {} := by
  have hnone (v token : JsString) :
      ({} : UserInputVault).placeholderByValue.get? v ≠ some token := fun h => nomatch h
  exact ⟨fun v token h => absurd h (hnone v token), fun v token h => absurd h (hnone v token)⟩

/-- Every vault maps its placeholders back. -/
theorem vaultInv_run (texts : List JsString) : VaultInv (vaults.run texts) :=
  Machine.invariant_runFrom' vaultInv_step vaultInv_empty texts

/-- **Redaction and masking lose nothing.** Whatever a vault has redacted before, an accepted text
is redacted to one that resolves to what the text stands for, and masking any text does not change
what it resolves to.

**Proof sketch.** The parsed segments say what the text stands for and detection keeps that; what
is written for them alternates token-free literals with placeholders, which do not overlap, so the
pattern finds exactly the placeholders again. Masking refines the pieces of a text the same way. -/
theorem resolve_lossless (texts : List JsString) :
    (∀ text segments, parseUserInputMarkers text = .ok segments →
      ∃ out vault, (vaults.run texts).redact text = .ok (out, vault) ∧
        ∀ p, Unmarked text p ↔ p = vault.resolve out) ∧
    ∀ text, (vaults.run texts).resolve ((vaults.run texts).mask text) =
      (vaults.run texts).resolve text := by
  have hinv := vaultInv_run texts
  refine ⟨fun text segments h => ?_, resolve_mask hinv⟩
  refine ⟨((vaults.run texts).redactSegments segments).1,
    ((vaults.run texts).redactSegments segments).2, by rw [UserInputVault.redact, h], fun p => ?_⟩
  rw [unmarked_iff h, resolve_redactSegments hinv (intact_of_parse h)]

theorem resolve_lossless_pin :
    ∃ out vault, UserInputVault.redact (vaults.run [units "@\x7b12\x7d"])
        (units "pin @pin\x7b12\x7d, a@@b.c") = .ok (out, vault) ∧
      units "pin 12, a@b.c" = vault.resolve out := by
  have hparse : parseUserInputMarkers (units "pin @pin\x7b12\x7d, a@@b.c") =
      .ok [.literal (units "pin "), .value .pin (units "12"), .literal (units ", a@b.c")] := by
    decide
  obtain ⟨out, vault, hredact, hout⟩ := (resolve_lossless [units "@\x7b12\x7d"]).1 _ _ hparse
  exact ⟨out, vault, hredact, (hout _).1 ((unmarked_iff hparse _).2 (by decide))⟩

end Yantra
