import Yantra.Lib.JsonSize
import Yantra.Interaction.PageDelta

/-!
# The size of a page delta

Trimming takes away samples and dialog names only, so a delta whose other fields are beyond the
bound stays beyond it, and `serializeDelta` throws.

## Main definitions

* `PageDelta.nameless` — a delta without samples and dialogs.
* `PageDelta.Named` — what is listed is not empty.

## Main results

* `serializeDelta_iff` — a delta is serialized exactly when it fits without them.
-/

namespace Yantra

open Utf16 Json List Option Nat DeltaElementChange Utf8 PageDelta

variable {change stripped : Option DeltaElementChange}

/-! ## Without names -/

namespace PageDelta

def nameless (delta : PageDelta) : PageDelta :=
  { delta with
    dialogsOpened := none
    dialogsClosed := none
    elementsAppeared := delta.elementsAppeared.map DeltaElementChange.stripSample
    elementsVanished := delta.elementsVanished.map DeltaElementChange.stripSample }

/-- What is listed is not empty. -/
structure Named (delta : PageDelta) : Prop where
  appeared : ∀ change ∈ delta.elementsAppeared, change.sample ≠ some []
  vanished : ∀ change ∈ delta.elementsVanished, change.sample ≠ some []
  opened : delta.dialogsOpened ≠ some []
  closed : delta.dialogsClosed ≠ some []

lemma map_stripSample_stripped (h : DeltaElementChange.Stripped change stripped) :
    stripped.map stripSample = change.map stripSample := by
  obtain rfl | rfl := h
  · rfl
  · rw [Option.map_map]
    congr 1
    exact funext fun change => change.stripSample_stripSample

lemma TrimsTo.nameless_eq {delta trimmed : PageDelta} (h : delta.TrimsTo trimmed) :
    trimmed.nameless = delta.nameless := by
  simp only [nameless, h.urlChanged, h.titleChanged, h.focusMoved, h.incomplete,
    map_stripSample_stripped h.appeared, map_stripSample_stripped h.vanished]

end PageDelta

lemma stripped_sample
    (h : DeltaElementChange.Stripped change stripped) (hnamed : ∀ c ∈ change, c.sample ≠ some []) :
    ∀ c ∈ stripped, c.sample ≠ some [] := by
  obtain rfl | rfl := h
  · exact hnamed
  · intro c hc
    obtain ⟨b, hb, rfl⟩ := map_eq_some_iff.1 hc
    rw [stripSample]
    split_ifs
    · exact hnamed b hb
    · simp

/-! ## Sizes -/

lemma membersSize_append (ms ns : List (JsString × Value)) :
    membersSize (ms ++ ns) = membersSize ms + membersSize ns := by
  induction ms with
  | nil => simp [membersSize]
  | cons m ms ih =>
    rw [cons_append, membersSize, membersSize, ih]
    omega

lemma size_object_mono {ms ns : List (JsString × Value)} (h : membersSize ms ≤ membersSize ns) :
    size (.object ms) ≤ size (.object ns) := by
  rw [size_object, size_object]
  cases ms with
  | nil =>
    cases ns with
    | nil => exact le_rfl
    | cons n ns =>
      simp only [isEmpty_nil, isEmpty_cons, if_true, membersSize]
      simp
      omega
  | cons m ms =>
    cases ns with
    | nil =>
      simp only [membersSize] at h
      omega
    | cons n ns =>
      simpa using h

lemma size_string_pos (text : JsString) : 0 < size (.string text) :=
  lt_of_lt_of_le (by exact succ_pos _) (length_le_byteLength (quote text))

lemma size_identity (identity : OverlayIdentity) : 15 ≤ size identity.toJson := by
  have hrole : byteLength (quote (units "role")) = 6 := by decide
  have hname : byteLength (quote (units "name")) = 6 := by decide
  have hroleSize := size_string_pos identity.role
  have hnameSize := size_string_pos identity.name
  rw [OverlayIdentity.toJson, size_object]
  simp only [isEmpty_cons, membersSize, hrole, hname]
  simp
  omega

/-- **A change is no larger without its sample.** -/
lemma size_stripSample {change : DeltaElementChange} (h : change.sample ≠ some []) :
    size change.stripSample.toJson ≤ size change.toJson := by
  have hsample : byteLength (quote (units "sample")) = 8 := by decide
  have htruncated : byteLength (quote (units "sample_truncated")) = 18 := by decide
  have htrue : size (.bool true) = 4 := by decide
  obtain ⟨count, sample, sampleTruncated⟩ := change
  cases sample with
  | none => exact le_rfl
  | some identities =>
    obtain ⟨identity, identities, rfl⟩ := exists_cons_of_ne_nil
      fun hnil => h (congrArg some hnil)
    have hidentity := size_identity identity
    refine size_object_mono ?_
    simp only [stripSample, isNone_some, Bool.false_eq_true, if_false,
      member, map_none, map_some, toList_none, toList_some,
      nil_append, if_true, membersSize, membersSize_append, hsample, htruncated, htrue,
      identitiesJson, size_array, map_cons, isEmpty_cons, itemsSize]
    omega

lemma membersSize_change (key : String) (h : ∀ c ∈ change, c.sample ≠ some []) :
    membersSize (member key toJson
        (change.map stripSample)) ≤
      membersSize (member key toJson change) := by
  cases change with
  | none => exact le_rfl
  | some change =>
    have hsize := size_stripSample (h change rfl)
    simp only [member, map_some, toList_some, membersSize]
    omega

namespace PageDelta

variable {delta : PageDelta}

/-- **Taking the names away makes a delta no larger.** -/
theorem bytes_nameless_le (happeared : ∀ change ∈ delta.elementsAppeared, change.sample ≠ some [])
    (hvanished : ∀ change ∈ delta.elementsVanished, change.sample ≠ some []) :
    delta.nameless.bytes ≤ delta.bytes := by
  have hsizeAppeared := membersSize_change "elements_appeared" happeared
  have hsizeVanished := membersSize_change "elements_vanished" hvanished
  have hnone : ∀ key : String, membersSize (member key identitiesJson none) = 0 := fun _ => rfl
  refine size_object_mono ?_
  simp only [members, membersSize_append, nameless]
  rw [hnone, hnone]
  omega

/-! ## The end of trimming -/

lemma dropDialog_ne (list : List OverlayIdentity) : dropDialog list ≠ some [] := by
  rw [dropDialog]
  split_ifs with h
  · intro hnil
    rw [some.inj hnil] at h
    exact absurd h (by decide)
  · exact (some_ne_none _).symm

lemma dialogs_withDialogs (delta : PageDelta) (list : Option (List OverlayIdentity))
    (side : DialogSide) : (delta.withDialogs list side).dialogs side = list := by
  cases side <;> rfl

lemma dialogs_withDialogs_of_ne (delta : PageDelta) (list : Option (List OverlayIdentity))
    {side other : DialogSide} (h : other ≠ side) :
    (delta.withDialogs list side).dialogs other = delta.dialogs other := by
  cases side <;> cases other <;> first | rfl | exact absurd rfl h

/-- **The loop over a side ends in a delta that fits, or with no dialog left,** and leaves the other
side alone. -/
lemma trimSide_spec (side : DialogSide) (rounds : ℕ) (delta : PageDelta)
    (hnamed : delta.dialogs side ≠ some [])
    (hrounds : ((delta.dialogs side).getD []).length ≤ rounds) :
    let trimmed := trimSide side rounds delta
    (∀ other, other ≠ side → trimmed.dialogs other = delta.dialogs other) ∧
      (fits trimmed ∨ trimmed.dialogs side = none) := by
  induction rounds generalizing delta with
  | zero =>
    refine ⟨fun _ _ => rfl, .inr ?_⟩
    cases hside : delta.dialogs side with
    | none => exact hside
    | some list =>
      rw [hside, getD_some, le_zero, length_eq_zero_iff] at hrounds
      exact absurd (by rw [hside, hrounds]) hnamed
  | succ rounds ih =>
    rw [trimSide]
    cases hside : delta.dialogs side with
    | none => exact ⟨fun _ _ => rfl, .inr hside⟩
    | some list =>
      rw [hside, getD_some] at hrounds
      dsimp only
      split_ifs with hfits
      · exact ⟨fun other hother => dialogs_withDialogs_of_ne delta _ hother, .inl hfits⟩
      · obtain ⟨hother, hend⟩ := ih (delta.withDialogs (dropDialog list) side)
          (by rw [dialogs_withDialogs]; exact dropDialog_ne list)
          (by rw [dialogs_withDialogs, dropDialog_getD, length_dropLast]; omega)
        refine ⟨fun other hne => ?_, hend⟩
        rw [hother other hne, dialogs_withDialogs_of_ne delta _ hne]

lemma nameless_eq_self (hdialogs : ∀ side, delta.dialogs side = none)
    (happeared : delta.elementsAppeared.map stripSample =
      delta.elementsAppeared)
    (hvanished : delta.elementsVanished.map stripSample =
      delta.elementsVanished) : delta.nameless = delta := by
  have hopened : delta.dialogsOpened = none := hdialogs .opened
  have hclosed : delta.dialogsClosed = none := hdialogs .closed
  obtain ⟨_, _, _, _, _, _, _, _⟩ := delta
  simp only at hopened hclosed happeared hvanished
  simp only [nameless, hopened, hclosed, happeared, hvanished]

lemma stripped_map (h : DeltaElementChange.Stripped (change.map stripSample) stripped) :
    stripped.map stripSample = stripped := by
  have hself : ∀ c : Option DeltaElementChange,
      (c.map stripSample).map stripSample =
        c.map stripSample := fun c => by
    rw [Option.map_map]
    congr 1
    exact funext fun change => change.stripSample_stripSample
  obtain rfl | rfl := h
  · exact hself change
  · exact hself _

/-- **Trimming ends in a delta that fits exactly when the delta without names fits.**

**Proof sketch.** What is reached has the same rest, and is no smaller than it. Where nothing on the
way fits, what is reached in the end is that rest. -/
theorem fits_boundDelta_iff {delta : PageDelta} (h : delta.Named) :
    fits (boundDelta delta) = true ↔ fits delta.nameless = true := by
  have htrims := trimsTo_boundDelta delta
  constructor
  · intro hfits
    have hle := bytes_nameless_le (stripped_sample htrims.appeared h.appeared)
      (stripped_sample htrims.vanished h.vanished)
    rw [htrims.nameless_eq] at hle
    exact decide_eq_true (hle.trans (of_decide_eq_true hfits))
  · intro hfits
    rw [boundDelta]
    dsimp only
    split_ifs with h₁ h₂ h₃ h₄
    · exact h₁
    · exact h₂
    · exact h₃
    · exact h₄
    · set stripped := delta.stripVanished.stripAppeared with hstripped
      obtain ⟨hopened, hclosed⟩ := trimSide_spec .closed
        ((stripped.dialogs .closed).getD []).length stripped h.closed le_rfl
      set current := trimSide .closed ((stripped.dialogs .closed).getD []).length stripped
      have hnone : current.dialogs .closed = none := hclosed.resolve_left h₄
      have hkept : current.dialogs .opened = delta.dialogs .opened := hopened .opened (by decide)
      obtain ⟨hother, hend⟩ := trimSide_spec .opened
        ((current.dialogs .opened).getD []).length current
        (by rw [hkept]; exact h.opened) le_rfl
      set last := trimSide .opened ((current.dialogs .opened).getD []).length current
      obtain hend | hend := hend
      · exact hend
      · have htrimmed : stripped.TrimsTo last :=
          (trimsTo_trimSide .closed _ stripped).trans (trimsTo_trimSide .opened _ current)
        have hself : last.nameless = last := by
          refine nameless_eq_self (fun side => ?_) (stripped_map htrimmed.appeared)
            (stripped_map htrimmed.vanished)
          cases side with
          | closed => rw [hother .closed (by decide), hnone]
          | opened => exact hend
        have hrest : last.nameless = delta.nameless :=
          (((trimsTo_stripVanished delta).trans (trimsTo_stripAppeared _)).trans
            htrimmed).nameless_eq
        rw [← hself, hrest]
        exact hfits

lemma named_untrimmedDelta (before after : ObservationFingerprint) :
    (untrimmedDelta before after).Named := by
  have hchange : ∀ (b : Bool) (count : ℕ) (sample : List JsString),
      ∀ change ∈ (if b then elementChange count sample else none), change.sample ≠ some [] := by
    intro b count sample change hchange
    cases b with
    | false => cases hchange
    | true =>
      rw [if_pos rfl, elementChange] at hchange
      split_ifs at hchange with hcount
      · cases hchange
      · obtain rfl := some.inj hchange
        dsimp only
        split_ifs with hnamed
        · intro hnil
          rw [some.inj hnil] at hnamed
          exact absurd hnamed (by decide)
        · exact (some_ne_none _).symm
  have hdialogs : ∀ (b : Bool) (dialogs : List OverlayIdentity),
      (if b then cappedDialogs dialogs else none) ≠ some [] := by
    intro b dialogs
    cases b with
    | false => exact (some_ne_none _).symm
    | true =>
      rw [if_pos rfl, cappedDialogs]
      split_ifs with hnamed
      · intro hnil
        have hlength := congrArg List.length (some.inj hnil)
        rw [length_take, length_nil, DELTA_DIALOG_CAP] at hlength
        omega
      · exact (some_ne_none _).symm
  exact ⟨hchange _ _ _, hchange _ _ _, hdialogs _ _, hdialogs _ _⟩

end PageDelta

/-- **A delta is serialized exactly when it fits without names,** and trimming takes away nothing
else: the JSON of the changes of URL and title, the counts, the focus and the reasons must have at
most `DELTA_MAX_BYTES` bytes. -/
theorem serializeDelta_iff (before after : ObservationFingerprint) :
    ((∃ text, serializeDelta (diffFingerprints before after) = some text ∧
        Utf8.byteLength text ≤ DELTA_MAX_BYTES) ∧
      (untrimmedDelta before after).TrimsTo (diffFingerprints before after)) ↔
    (untrimmedDelta before after).nameless.bytes ≤ DELTA_MAX_BYTES := by
  have hfits : ∀ delta, fits delta = true ↔ delta.bytes ≤ DELTA_MAX_BYTES := fun _ =>
    decide_eq_true_iff
  have hiff := PageDelta.fits_boundDelta_iff (PageDelta.named_untrimmedDelta before after)
  rw [hfits, hfits] at hiff
  rw [diffFingerprints, and_iff_left (PageDelta.trimsTo_boundDelta _), ← hiff, serializeDelta]
  constructor
  · rintro ⟨text, htext, hbytes⟩
    split_ifs at htext with hlarge
    exact not_lt.1 hlarge
  · intro hbytes
    rw [if_neg (not_lt.2 hbytes)]
    exact ⟨_, rfl, hbytes⟩

/-! ## Long texts -/

variable {before after : ObservationFingerprint}

lemma length_url_lt_bytes (h : before.url ≠ after.url) :
    after.url.length < (untrimmedDelta before after).nameless.bytes := by
  have hurl : (untrimmedDelta before after).nameless.urlChanged =
      some { before := before.url, after := after.url } := if_pos h
  have hquote : after.url.length < size (.string after.url) :=
    (length_lt_quote after.url).trans_le (length_le_byteLength _)
  have hbytes : (untrimmedDelta before after).nameless.bytes =
      size (.object (untrimmedDelta before after).nameless.members) := rfl
  rw [hbytes, members, hurl, size_object]
  simp only [member, map_some, toList_some, singleton_append, isEmpty_cons,
    membersSize, TextChange.toJson, size_object]
  simp
  omega

/-- **A URL as long as the bound is never serialized.** -/
lemma serializeDelta_eq_none (h : before.url ≠ after.url)
    (hlong : DELTA_MAX_BYTES ≤ after.url.length) :
    serializeDelta (diffFingerprints before after) = none := by
  have hnot : ¬fits (boundDelta (untrimmedDelta before after)) := by
    rw [fits_boundDelta_iff (named_untrimmedDelta before after)]
    exact fun hfits => absurd (length_url_lt_bytes h)
      (not_lt.2 ((of_decide_eq_true hfits).trans hlong))
  rw [serializeDelta, diffFingerprints, if_pos]
  exact not_le.1 fun hle => hnot (decide_eq_true hle)

/-- A frame without controls. -/
def emptyFrame (url : JsString) : ObservationFingerprint :=
  fingerprintFromScan (some (units "y1")) url (units "Example") [] false

/-- A click leads to a URL with a query of 2048 letters: no delta is serialized. -/
theorem long_url_throws :
    serializeDelta (diffFingerprints (emptyFrame (units "https://example.com/"))
      (emptyFrame (units "https://example.com/?q=" ++ List.replicate 2048 97))) = none := by
  have hlength : DELTA_MAX_BYTES ≤
      (units "https://example.com/?q=" ++ List.replicate 2048 (97 : CodeUnit)).length := by
    rw [List.length_append, List.length_replicate]
    exact Nat.le_add_left _ _
  refine serializeDelta_eq_none (fun h => ?_) hlength
  have hshort : (units "https://example.com/").length < DELTA_MAX_BYTES := by decide
  rw [show units "https://example.com/" = _ from h] at hshort
  exact absurd hlength (not_le.2 hshort)

end Yantra
