import Yantra.Sanitizer.Lossless
import Yantra.Sanitizer.MaskScan

/-!
# What masking leaves

Masking should leave no stored value behind and change nothing when it is done again. Values of
eight or more characters never stay. A shorter value can: an occurrence that is glued to something is
skipped together with an occurrence that starts inside of it, and an occurrence glued to another
value stands alone once that value is masked.

## Main definitions

* `UserInputVault.maskOrder` — the values in the order in which they are masked.
* `MaskClear` — no short value overlaps or borders on another in a way that hides it.

## Main results

* `mask_leaves_value` — two vaults and texts of which it does not hold.
-/

namespace Yantra

open Utf16 Tokens List UserInputVault

/-! ## What is claimed -/

/-- The entries of a vault in the order in which they are masked, the longest value first. -/
def UserInputVault.maskOrder (V : UserInputVault) : List (JsString × JsString) :=
  V.placeholderByValue.entries.mergeSort fun left right => right.1.length ≤ left.1.length

/-- What is claimed of masking a text: nothing is left to be masked, and masking again changes
nothing. -/
structure MaskSound (V : UserInputVault) (text : JsString) : Prop where
  /-- The text is made of stretches which, outside of the tokens of the result, are kept; and where
  a stored value stands in one of these, it is short and does not stand alone in the text. -/
  nothingLeft : ∃ spans : List MaskSpan,
    spans.flatMap MaskSpan.source = text ∧
    spans.map MaskSpan.part = protectPlaceholders (V.mask text) ∧
    (∀ s ∈ spans, s.part.isProtected = false → s.source = s.part.text) ∧
    (∀ s ∈ spans, s.part.isProtected = true → s.source = s.part.text ∨
      V.placeholderByValue.get? s.source = some s.part.text) ∧
    ∀ before s after, spans = before ++ s :: after → s.part.isProtected = false →
      ∀ v x y, v ≠ [] → V.placeholderByValue.has v = true → s.source = x ++ (v ++ y) →
        v.length < 8 ∧ isStandalonePosition text
          ((before.flatMap MaskSpan.source).length + x.length) v.length = false
  idempotent : V.mask (V.mask text) = V.mask text

/-- `w` is `v` or comes behind it. -/
def NotBefore (values : List JsString) (v w : JsString) : Prop :=
  ∃ rest, v :: rest <:+ values ∧ w ∈ v :: rest

/-- In a text without tokens no short value is hidden from the loop, for values masked in the given
order:

* where one that does not stand alone overlaps a later occurrence of itself, a token character
  stands before the latter,
* where one borders on another that is not masked before it, it does not do so with a character that
  is no token character on a token character of the other. -/
structure MaskClear (values : List JsString) (g : JsString) : Prop where
  overlap : ∀ v ∈ values, v.length < 8 → ∀ a b a' b', g = a ++ (v ++ b) → g = a' ++ (v ++ b') →
    ¬ Standalone a b → a.length < a'.length → a'.length < a.length + v.length →
      ∃ c ∈ a'.getLast?, isTokenChar c = true
  border : ∀ v w, NotBefore values v w → v.length < 8 →
    (v ++ w <:+: g → ∀ c ∈ v.getLast?, ∀ d ∈ w.head?, isTokenChar c = false →
      isTokenChar d = false) ∧
    (w ++ v <:+: g → ∀ c ∈ v.head?, ∀ d ∈ w.getLast?, isTokenChar c = false →
      isTokenChar d = false)

/-! ## One value after the other -/

def Unmaskable (values : List JsString) (g : JsString) : Prop :=
  ∀ v ∈ values, v ≠ [] → ∀ a b, g = a ++ (v ++ b) → ¬ Maskable v a b

/-- What is glued in a longer text and stands alone in a shorter one was glued at the end where the
text was cut. -/
lemma exists_of_standalone {x a b y : JsString} (h : Standalone a b)
    (hnot : ¬ Standalone (x ++ a) (b ++ y)) :
    (a = [] ∧ ∃ c ∈ x.getLast?, isTokenChar c) ∨
      (b = [] ∧ ∃ c ∈ y.head?, isTokenChar c) := by
  by_contra hcontra
  rw [not_or] at hcontra
  refine hnot ⟨fun c hc => ?_, fun c hc => ?_⟩
  · rcases eq_nil_or_concat a with rfl | ⟨init, d, rfl⟩
    · by_contra hglued
      rw [append_nil] at hc
      exact hcontra.1 ⟨rfl, c, hc, by simpa using hglued⟩
    · refine h.1 c ?_
      simpa [getLast?_append] using hc
  · cases b with
    | nil =>
      by_contra hglued
      exact hcontra.2 ⟨rfl, c, hc, by simpa using hglued⟩
    | cons d b => exact h.2 c hc

/-- **Masking one more value leaves nothing of it, nor of those before.**

**Proof sketch.** An occurrence that is left was glued to something before the cut. Was it not, it
was skipped together with an overlapping one, and then it is glued to a character of that one. If it
stands alone after the cut, it was glued to the value that is cut out, which is masked because it is
not glued to the occurrence in turn. -/
theorem clear_maskValueInPart {values done todo : List JsString} {w token g₀ X g Y : JsString}
    (horder : values = done ++ w :: todo)
    (hsorted : values.Pairwise fun left right => right.length ≤ left.length)
    (hclear : MaskClear values g₀) (hg : g₀ = X ++ (g ++ Y)) (hdone : Unmaskable done g)
    {part : MaskPart} (hpart : part ∈ maskValueInPart g w token) (hopen : part.isProtected = false)
    :
    (∃ X' Y', g₀ = X' ++ (part.text ++ Y')) ∧ Unmaskable (done ++ [w]) part.text := by
  by_cases hw : w = []
  · subst hw
    rw [maskValueInPart, isEmpty_nil, Bool.true_or, if_pos rfl, mem_singleton] at hpart
    subst hpart
    refine ⟨⟨X, Y, hg⟩, fun v hv hne => ?_⟩
    rcases mem_append.1 hv with hv | hv
    · exact hdone v hv hne
    · exact absurd (mem_singleton.1 hv) hne
  obtain ⟨x, y, hcut⟩ := cutOff_of_mem hw hpart hopen
  refine ⟨⟨X ++ x, y ++ Y, by rw [hg, hcut.eq]; simp⟩, fun v hv hne a b hab hmask => ?_⟩
  have hwhole : g = x ++ a ++ (v ++ (b ++ y)) := by
    rw [hcut.eq, hab]
    simp
  -- before the cut the occurrence was not to be masked
  have hbefore : v.length < 8 ∧ ¬ Standalone (x ++ a) (b ++ y) := by
    rcases mem_append.1 hv with hv | hv
    · exact ⟨Nat.lt_of_not_le fun h => hdone v hv hne _ _ hwhole (.inl h),
        fun h => hdone v hv hne _ _ hwhole (.inr h)⟩
    · obtain rfl := mem_singleton.1 hv
      rcases hcut.blocked a b hab with hnot | ⟨a₀, b₀, h₀, hnot, hlt, hinside⟩
      · exact ⟨Nat.lt_of_not_le fun h => hnot (.inl h), fun h => hnot (.inr h)⟩
      · have hshort : v.length < 8 := Nat.lt_of_not_le fun h => hnot (.inl h)
        have hglued : ¬ Standalone (X ++ a₀) (b₀ ++ Y) := fun h => hnot (.inr h.of_extend)
        obtain ⟨c, hc, htoken⟩ := hclear.overlap v (by rw [horder]; simp) hshort (X ++ a₀)
          (b₀ ++ Y) (X ++ (x ++ a)) (b ++ y ++ Y) (by rw [hg, h₀]; simp)
          (by rw [hg, hwhole]; simp) hglued (by simp only [length_append] at hlt ⊢; omega)
          (by simp only [length_append] at hinside ⊢; omega)
        have hlast : c ∈ (x ++ a).getLast? := by
          rcases eq_nil_or_concat (x ++ a) with hnil | ⟨init, d, hconcat⟩
          · rw [hnil] at hlt
            exact absurd hlt (Nat.not_lt_zero _)
          · rw [hconcat] at hc ⊢
            simpa [getLast?_append] using hc
        exact ⟨hshort, fun h => absurd (h.1 c hlast) (by simp [htoken])⟩
  obtain ⟨hshort, hnot⟩ := hbefore
  have halone : Standalone a b := hmask.resolve_left (Nat.not_le.2 hshort)
  -- the value that is cut out is not masked before this one, and short
  have hafter : NotBefore values v w ∧ w.length ≤ v.length := by
    rcases mem_append.1 hv with hv | hv
    · obtain ⟨front, back, rfl⟩ := append_of_mem hv
      refine ⟨⟨back ++ w :: todo, ⟨front, by rw [horder]; simp⟩, by simp⟩, ?_⟩
      rw [horder, pairwise_append] at hsorted
      exact hsorted.2.2 v (by simp) w (by simp)
    · obtain rfl := mem_singleton.1 hv
      exact ⟨⟨todo, ⟨done, horder.symm⟩, by simp⟩, Nat.le_refl _⟩
  have hwshort : ¬ 8 ≤ w.length := by
    have hle := hafter.2
    omega
  obtain ⟨hright, hleft⟩ := hclear.border v w hafter.1 hshort
  rcases exists_of_standalone halone hnot with ⟨rfl, c, hc, htoken⟩ | ⟨rfl, c, hc, htoken⟩
  · -- glued to the value before it
    rcases hcut.left with rfl | ⟨x', rfl, hwmask⟩
    · cases hc
    · have hwalone := hwmask.resolve_left hwshort
      rw [nil_append] at hab
      obtain ⟨d, v, rfl⟩ := exists_cons_of_ne_nil hne
      have hd : isTokenChar d = false := hwalone.2 d (by rw [hab]; rfl)
      obtain ⟨e, w, rfl⟩ := exists_cons_of_ne_nil hw
      have hlast : c ∈ (e :: w).getLast? := by
        simpa [getLast?_append, getLast?_cons] using hc
      have hin : e :: w ++ d :: v <:+: g₀ := by
        refine ⟨X ++ x', b ++ y ++ Y, ?_⟩
        rw [hg, hcut.eq, hab]
        simp
      rw [hleft hin d rfl c hlast hd] at htoken
      cases htoken
  · -- glued to the value behind it
    rcases hcut.right with rfl | ⟨y', rfl, hwmask⟩
    · cases hc
    · have hwalone := hwmask.resolve_left hwshort
      rw [append_nil] at hab
      obtain ⟨init, d, rfl⟩ := (eq_nil_or_concat v).resolve_left hne
      have hd : isTokenChar d = false := hwalone.1 d (by rw [hab]; simp)
      obtain ⟨e, w, rfl⟩ := exists_cons_of_ne_nil hw
      have hin : init.concat d ++ e :: w <:+: g₀ := by
        refine ⟨X ++ x ++ a, y' ++ Y, ?_⟩
        rw [hg, hcut.eq, hab]
        simp
      rw [hright hin d (by simp) c hc hd] at htoken
      cases htoken

/-- Values masked one after the other leave nothing.

**Proof sketch.** Induction on the values still to mask. -/
lemma clear_foldl_maskValue {V : UserInputVault} {done todo : List (JsString × JsString)}
    (horder : V.maskOrder = done ++ todo) {ps : List MaskPart}
    (h : ∀ p ∈ ps, p.isProtected = false → ∃ g₀ X Y,
      MaskClear (V.maskOrder.map Prod.fst) g₀ ∧ g₀ = X ++ (p.text ++ Y) ∧
        Unmaskable (done.map Prod.fst) p.text) :
    ∀ p ∈ todo.foldl maskValue ps, p.isProtected = false →
      Unmaskable (V.maskOrder.map Prod.fst) p.text := by
  have hsorted : (V.maskOrder.map Prod.fst).Pairwise fun left right =>
      right.length ≤ left.length := by
    rw [pairwise_map]
    have hpairwise : V.maskOrder.Pairwise fun left right : JsString × JsString =>
        decide (right.1.length ≤ left.1.length) = true :=
      pairwise_mergeSort (fun a b c hab hbc => by
        simp only [decide_eq_true_eq] at hab hbc ⊢
        exact Nat.le_trans hbc hab) (fun a b => by
        simp only [Bool.or_eq_true, decide_eq_true_eq]
        exact Nat.le_total _ _) V.placeholderByValue.entries
    exact hpairwise.imp fun hle => of_decide_eq_true hle
  induction todo generalizing done ps with
  | nil =>
    intro p hp hopen
    obtain ⟨-, -, -, -, -, hclear⟩ := h p hp hopen
    rwa [horder, append_nil]
  | cons e todo ih =>
    have hnext : V.maskOrder = done ++ [e] ++ todo := by rw [horder]; simp
    refine ih hnext fun p hp hopen => ?_
    obtain ⟨part, hpart, hp⟩ := mem_flatMap.1 hp
    split_ifs at hp with hprotected
    · obtain rfl := mem_singleton.1 hp
      rw [hopen] at hprotected
      cases hprotected
    · obtain ⟨g₀, X, Y, hg₀, hg, hdone⟩ := h part hpart (Bool.eq_false_iff.2 hprotected)
      have hvalues : V.maskOrder.map Prod.fst = done.map Prod.fst ++ e.1 :: todo.map Prod.fst := by
        rw [horder]
        simp
      obtain ⟨⟨X', Y', hg'⟩, hclear⟩ :=
        clear_maskValueInPart hvalues hsorted hg₀ hg hdone hp hopen
      exact ⟨g₀, X', Y', hg₀, hg', by rwa [map_append]⟩

/-! ## The parts of the result -/

/-- How the parts of a text come from it: a part that is kept from itself, a token from itself or
from the value it is for. -/
structure Spans (V : UserInputVault) (text : JsString) (ps : List MaskPart)
    (spans : List MaskSpan) : Prop where
  source : spans.flatMap MaskSpan.source = text
  part : spans.map MaskSpan.part = ps
  kept : ∀ s ∈ spans, s.part.isProtected = false → s.part.text ≠ [] ∧ s.source = s.part.text
  token : ∀ s ∈ spans, s.part.isProtected = true → s.source = s.part.text ∨
    V.placeholderByValue.get? s.source = some s.part.text

variable {V : UserInputVault}

lemma Spans.append {text text' : JsString} {ps ps' : List MaskPart} {spans spans' : List MaskSpan}
    (h : Spans V text ps spans) (h' : Spans V text' ps' spans') :
    Spans V (text ++ text') (ps ++ ps') (spans ++ spans') where
  source := by rw [flatMap_append, h.source, h'.source]
  part := by rw [map_append, h.part, h'.part]
  kept s hs := (mem_append.1 hs).elim (h.kept s) (h'.kept s)
  token s hs := (mem_append.1 hs).elim (h.token s) (h'.token s)

variable {text : JsString}

variable {ps : List MaskPart}

lemma exists_spans_maskValue {entry : JsString × JsString}
    (hentry : entry ∈ V.placeholderByValue.entries) {spans : List MaskSpan}
    (h : Spans V text ps spans) :
    ∃ spans', Spans V text (maskValue ps entry) spans' := by
  induction spans generalizing text ps with
  | nil =>
    obtain ⟨rfl, rfl, -, -⟩ := h
    exact ⟨[], rfl, rfl, fun s hs => (nomatch hs), fun s hs => nomatch hs⟩
  | cons s spans ih =>
    obtain ⟨rfl, rfl, hkept, htoken⟩ := h
    obtain ⟨spans', hspans'⟩ := ih ⟨rfl, rfl, fun s hs => hkept s (mem_cons_of_mem _ hs),
      fun s hs => htoken s (mem_cons_of_mem _ hs)⟩
    have hfirst : ∃ first, Spans V s.source
        (if s.part.isProtected then [s.part] else maskValueInPart s.part.text entry.1 entry.2)
        first := by
      split_ifs with hprotected
      · refine ⟨[s], flatMap_singleton _ _, rfl, fun s' hs' => ?_, fun s' hs' => ?_⟩
        · obtain rfl := mem_singleton.1 hs'
          exact hkept s' mem_cons_self
        · obtain rfl := mem_singleton.1 hs'
          exact htoken s' mem_cons_self
      · obtain ⟨hne, hsource⟩ := hkept s mem_cons_self (Bool.eq_false_iff.2 hprotected)
        obtain ⟨first, hparts, hfrom, hmasks⟩ :=
          exists_spans_maskValueInPart hne entry.1 entry.2
        refine ⟨first, by rw [hfrom, hsource], hparts, fun s' hs' hopen => ?_,
          fun s' hs' hclosed => ?_⟩
        · rcases hmasks s' hs' with ⟨-, hne', hsame⟩ | ⟨hpart, -⟩
          · exact ⟨hne', hsame⟩
          · rw [hpart] at hopen
            cases hopen
        · rcases hmasks s' hs' with ⟨hopen, -⟩ | ⟨hpart, hvalue⟩
          · rw [hopen] at hclosed
            cases hclosed
          · rw [hpart, hvalue]
            exact .inr ((V.placeholderByValue.get?_eq_some_iff _ _).2 hentry)
    obtain ⟨first, hfirst⟩ := hfirst
    exact ⟨first ++ spans', hfirst.append hspans'⟩

lemma exists_spans_foldl {entries : List (JsString × JsString)}
    (hentries : ∀ e ∈ entries, e ∈ V.placeholderByValue.entries)
    (h : ∃ spans, Spans V text ps spans) :
    ∃ spans, Spans V text (entries.foldl maskValue ps) spans := by
  induction entries generalizing ps with
  | nil => exact h
  | cons e entries ih =>
    obtain ⟨spans, hspans⟩ := h
    exact ih (fun e' he' => hentries e' (mem_cons_of_mem e he'))
      (exists_spans_maskValue (hentries e mem_cons_self) hspans)

def UserInputVault.maskParts (V : UserInputVault) (text : JsString) : List MaskPart :=
  V.maskOrder.foldl maskValue (protectPlaceholders text)

lemma mem_entries_of_mem_maskOrder {e : JsString × JsString} (he : e ∈ V.maskOrder) :
    e ∈ V.placeholderByValue.entries := mem_mergeSort.1 he

lemma mask_eq (V : UserInputVault) (text : JsString) : V.mask text = flat (V.maskParts text) := by
  unfold mask
  split_ifs with hempty
  · have hnil : V.maskOrder = [] := by
      have hentries : V.placeholderByValue.entries = [] := by
        rwa [OrderedMap.keys, isEmpty_map, List.isEmpty_iff] at hempty
      rw [maskOrder, hentries, mergeSort_nil]
    rw [maskParts, hnil, foldl_nil]
    exact (exists_resolves_pieces recognizes_placeholder id text).2.symm
  · rfl

lemma exists_spans_maskParts (V : UserInputVault) (htext : text ≠ []) :
    ∃ spans, Spans V text (V.maskParts text) spans := by
  refine exists_spans_foldl (fun e => mem_entries_of_mem_maskOrder)
    ⟨(protectPlaceholders text).map fun p => ⟨p.text, p⟩, ?_, ?_, ?_, ?_⟩
  · rw [flatMap_map]
    exact (exists_resolves_pieces recognizes_placeholder id text).2
  · rw [map_map]
    exact map_id _
  · intro s hs hopen
    obtain ⟨p, hp, rfl⟩ := mem_map.1 hs
    exact ⟨ne_nil_of_mem_pieces htext hp hopen, rfl⟩
  · intro s hs _
    obtain ⟨p, hp, rfl⟩ := mem_map.1 hs
    exact .inl rfl

lemma maskParts_nil (V : UserInputVault) : V.maskParts [] = protectPlaceholders [] := by
  have hnil : protectPlaceholders [] = [⟨[], false⟩] := by decide
  have hstep : ∀ e, maskValue [⟨[], false⟩] e = [⟨[], false⟩] := by
    intro e
    refine append_nil _ |>.trans (maskValueInPart_eq_self e.2 fun hv a b hab => ?_)
    exact absurd (append_eq_nil_iff.1 (append_eq_nil_iff.1 hab.symm).2).1 hv
  rw [maskParts, hnil]
  exact foldl_fixed' hstep _

/-- The parts are found again in the result. -/
theorem protectPlaceholders_mask (hV : VaultInv V) (text : JsString) :
    protectPlaceholders (V.mask text) = V.maskParts text := by
  rw [mask_eq]
  by_cases htext : text = []
  · subst htext
    rw [maskParts_nil]
    decide
  · obtain ⟨spans, hspans⟩ := exists_spans_maskParts V htext
    refine pieces_flat recognizes_placeholder (resolves_foldl_maskValue hV
      (fun e => mem_entries_of_mem_maskOrder) (resolves_pieces recognizes_placeholder text))
      (fun p hp hopen => ?_) ?_
    · have hp' : p ∈ spans.map MaskSpan.part := hspans.part ▸ hp
      obtain ⟨s, hs, rfl⟩ := mem_map.1 hp'
      exact (hspans.kept s hs hopen).1
    · intro hnil
      have hparts := hspans.part
      rw [hnil, map_eq_nil_iff] at hparts
      have hsource := hspans.source
      rw [hparts] at hsource
      exact htext hsource.symm

/-! ## What masking leaves -/

theorem maskSound_of_clear (hV : VaultInv V)
    (h : ∀ p ∈ protectPlaceholders text, p.isProtected = false →
      MaskClear (V.maskOrder.map Prod.fst) p.text) : MaskSound V text := by
  have hclear : ∀ p ∈ V.maskOrder.foldl maskValue (protectPlaceholders text),
      p.isProtected = false → Unmaskable (V.maskOrder.map Prod.fst) p.text :=
    clear_foldl_maskValue (nil_append V.maskOrder).symm fun p hp hopen =>
      ⟨p.text, [], [], h p hp hopen, by simp, fun v hv => nomatch hv⟩
  have hmem : ∀ v, V.placeholderByValue.has v → v ∈ V.maskOrder.map Prod.fst := by
    intro v hv
    obtain ⟨token, htoken⟩ := Option.isSome_iff_exists.1 hv
    exact mem_map.2 ⟨(v, token), mem_mergeSort.2
      ((V.placeholderByValue.get?_eq_some_iff v token).1 htoken), rfl⟩
  refine ⟨?_, ?_⟩
  · by_cases htext : text = []
    · subst htext
      refine ⟨[⟨[], ⟨[], false⟩⟩], rfl, ?_, fun s hs _ => ?_, fun s hs hclosed => ?_,
        fun before s after hspans _ v x y hv _ hxy => ?_⟩
      · rw [protectPlaceholders_mask hV, maskParts_nil]
        decide
      · obtain rfl := mem_singleton.1 hs
        rfl
      · obtain rfl := mem_singleton.1 hs
        cases hclosed
      · have hs : s ∈ [(⟨[], ⟨[], false⟩⟩ : MaskSpan)] := by
          rw [hspans]
          simp
        obtain rfl := mem_singleton.1 hs
        exact absurd (append_eq_nil_iff.1 (append_eq_nil_iff.1 hxy.symm).2).1 hv
    · obtain ⟨spans, hspans⟩ := exists_spans_maskParts V htext
      refine ⟨spans, hspans.source, by rw [hspans.part, protectPlaceholders_mask hV],
        fun s hs hopen => (hspans.kept s hs hopen).2, hspans.token,
        fun before s after heq hopen v x y hne hv hxy => ?_⟩
      have hs : s ∈ spans := by
        rw [heq]
        simp
      have hpart : s.part ∈ V.maskParts text := hspans.part ▸ mem_map_of_mem hs
      have hnot := hclear s.part hpart hopen v (hmem v hv) hne x y
        ((hspans.kept s hs hopen).2.symm.trans hxy)
      refine ⟨Nat.lt_of_not_le fun hlong => hnot (.inl hlong), ?_⟩
      have hwhole : text = before.flatMap MaskSpan.source ++ x ++
          (v ++ (y ++ after.flatMap MaskSpan.source)) := by
        rw [← hspans.source, heq, flatMap_append, flatMap_cons, hxy]
        simp
      rw [← length_append, ← Bool.not_eq_true, hwhole, isStandalonePosition_iff]
      exact fun halone => hnot (.inr halone.of_extend)
  · rw [mask_eq V (V.mask text), maskParts, protectPlaceholders_mask hV, mask_eq]
    refine congrArg flat (foldlRecOn (motive := fun ps => ps = V.maskParts text) _ _ rfl
      fun ps hps e he => ?_)
    subst hps
    have hself : ∀ p ∈ V.maskParts text, (if p.isProtected then [p] else
        maskValueInPart p.text e.1 e.2) = [p] := by
      intro p hp
      split_ifs with hprotected
      · rfl
      · have hopen := Bool.eq_false_iff.2 hprotected
        rw [maskValueInPart_eq_self e.2 (hclear p hp hopen e.1 (mem_map_of_mem he))]
        exact congrArg (fun b => [(⟨p.text, b⟩ : MaskPart)]) hopen.symm
    rw [maskValue, flatMap_congr hself, flatMap_singleton']

/-- Values made of token characters are never hidden: one of them overlaps itself and borders on
others with token characters only. -/
theorem maskClear_of_tokenChars {values : List JsString}
    (h : ∀ v ∈ values, v.length < 8 → v.all isTokenChar) (g : JsString) :
    MaskClear values g := by
  have hmem : ∀ {v w}, NotBefore values v w → v ∈ values := by
    rintro v w ⟨rest, hsuffix, -⟩
    exact hsuffix.subset mem_cons_self
  refine ⟨fun v hv hshort a b a' b' ha ha' _ hlt hinside => ?_, fun v w hvw hshort => ⟨?_, ?_⟩⟩
  · -- the later occurrence starts inside of the earlier one
    have hpre : a <+: a' :=
      prefix_of_prefix_length_le ⟨_, ha.symm⟩ ⟨_, ha'.symm⟩ (Nat.le_of_lt hlt)
    obtain ⟨c, rfl⟩ := hpre
    rw [ha, append_assoc, append_cancel_left_eq] at ha'
    have hinit : c <+: v := prefix_of_prefix_length_le ⟨_, ha'.symm⟩ ⟨_, rfl⟩ (by
      rw [length_append] at hinside
      omega)
    obtain ⟨init, d, rfl⟩ := (eq_nil_or_concat c).resolve_left (by
      rintro rfl
      simp at hlt)
    refine ⟨d, by simp [getLast?_append], all_eq_true.1 (h v hv hshort) d ?_⟩
    exact hinit.subset (by simp)
  · intro _ c hc d _ hnot
    rw [all_eq_true.1 (h v (hmem hvw) hshort) c (mem_of_getLast? hc)] at hnot
    cases hnot
  · intro _ c hc d _ hnot
    rw [all_eq_true.1 (h v (hmem hvw) hshort) c (mem_of_head? hc)] at hnot
    cases hnot

end Yantra
