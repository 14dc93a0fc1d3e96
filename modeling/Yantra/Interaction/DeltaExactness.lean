import Mathlib.Data.Multiset.UnionInter
import Yantra.Interaction.PageDelta

/-!
# What a page delta says of the controls

The counts of a delta are the multiset differences of the controls' identity keys. They are those of
the identities themselves where no two controls share a key, which a separator in a name can make
them do.

## Main definitions

* `ObservedFrame` — a frame, as its fingerprint is taken from.
* `NeverOverclaims` — what the counts have to say.

## Main results

* `neverOverclaims_iff` — when they are the counts by identities.
-/

namespace Yantra

open Utf16 List

/-! ## Frames and identities -/

structure ObservedFrame where
  epoch : Option JsString
  url : JsString
  title : JsString
  ordered : List RawInteractable
  degraded : Bool

def ObservedFrame.fingerprint (frame : ObservedFrame) : ObservationFingerprint :=
  fingerprintFromScan frame.epoch frame.url frame.title frame.ordered frame.degraded

/-- The frames read one document, and neither is truncated or degraded. -/
def Comparable (before after : ObservedFrame) : Prop :=
  before.epoch = after.epoch ∧ before.ordered.length ≤ FINGERPRINT_MAX_ENTRIES ∧
    after.ordered.length ≤ FINGERPRINT_MAX_ENTRIES ∧ before.degraded = false ∧
    after.degraded = false

instance (before after : ObservedFrame) : Decidable (Comparable before after) :=
  inferInstanceAs (Decidable (_ ∧ _))

/-- What a control is known by: its role, name, group and scope, each clamped. A missing name or
group is an empty one. -/
structure ControlIdentity where
  role : JsString
  name : JsString
  group : JsString
  scope : ControlScope
  deriving DecidableEq

def RawInteractable.identity (entry : RawInteractable) : ControlIdentity where
  role := clampPart entry.role
  name := clampPart (entry.name.getD [])
  group := clampPart (entry.group.getD [])
  scope := entry.scope

/-- The parts of an identity, joined. -/
def ControlIdentity.key (identity : ControlIdentity) : JsString :=
  [UNIT_SEPARATOR].intercalate
    [identity.role, identity.name, identity.group, identity.scope.text]

def ControlIdentity.pieces (identity : ControlIdentity) : List JsString :=
  identity.role.splitOn UNIT_SEPARATOR ++ identity.name.splitOn UNIT_SEPARATOR ++
    identity.group.splitOn UNIT_SEPARATOR

def ObservedFrame.identities (frame : ObservedFrame) : Multiset ControlIdentity :=
  frame.ordered.map RawInteractable.identity

open ControlIdentity

lemma key_eq (entry : RawInteractable) : entry.key = entry.identity.key := by
  have hscope : clampPart entry.scope.text = entry.scope.text := by
    cases entry.scope <;> rfl
  rw [RawInteractable.key, identityKey, key, map_cons, map_cons,
    map_cons, map_singleton, hscope]
  rfl

lemma splitOn_key (identity : ControlIdentity) :
    identity.key.splitOn UNIT_SEPARATOR = identity.pieces ++ [identity.scope.text] := by
  have hscope : identity.scope.text.splitOn UNIT_SEPARATOR = [identity.scope.text] := by
    cases identity.scope <;> rfl
  have hkey : identity.key = identity.role ++ UNIT_SEPARATOR :: (identity.name ++
      UNIT_SEPARATOR :: (identity.group ++ UNIT_SEPARATOR :: identity.scope.text)) := by
    simp [key]
  rw [hkey, splitOn_append_cons_self, splitOn_append_cons_self,
    splitOn_append_cons_self, hscope, pieces, append_assoc,
    append_assoc]

/-- **Two identities have one key exactly when their scopes and pieces are the same.** -/
lemma key_eq_iff (i j : ControlIdentity) :
    i.key = j.key ↔ i.scope = j.scope ∧ i.pieces = j.pieces := by
  have hscope : i.scope.text = j.scope.text ↔ i.scope = j.scope := by
    cases i.scope <;> cases j.scope <;> decide
  constructor
  · intro h
    have hsplit := congrArg (splitOn UNIT_SEPARATOR) h
    rw [splitOn_key, splitOn_key] at hsplit
    obtain ⟨hpieces, hlast⟩ := append_inj' hsplit rfl
    exact ⟨hscope.1 (List.cons.inj hlast).1, hpieces⟩
  · rintro ⟨hi, hpieces⟩
    have hjoin : ∀ t : JsString, [UNIT_SEPARATOR].intercalate (t.splitOn UNIT_SEPARATOR) = t :=
      fun _ => intercalate_splitOn _
    rw [← hjoin i.key, ← hjoin j.key, splitOn_key, splitOn_key, hpieces, hi]

/-! ## Counts -/

def elementCount (change : Option DeltaElementChange) : ℕ :=
  (change.map DeltaElementChange.count).getD 0

lemma elementCount_elementChange (count : ℕ) (sample : List JsString) :
    elementCount (elementChange count sample) = count := by
  rw [elementChange]
  split_ifs with h
  · exact h.symm
  · rfl

lemma elementCount_stripped {change stripped : Option DeltaElementChange}
    (h : DeltaElementChange.Stripped change stripped) :
    elementCount stripped = elementCount change ∧ (stripped = none ↔ change = none) := by
  obtain rfl | rfl := h
  · exact ⟨rfl, Iff.rfl⟩
  · have hcount : ∀ c : DeltaElementChange, c.stripSample.count = c.count := by
      intro c
      rw [DeltaElementChange.stripSample]
      split_ifs <;> rfl
    cases change with
    | none => exact ⟨rfl, Iff.rfl⟩
    | some change => exact ⟨hcount change, by simp⟩

lemma elementChange_eq_none_iff (count : ℕ) (sample : List JsString) :
    elementChange count sample = none ↔ count = 0 := by
  rw [elementChange]
  split_ifs with h <;> simp [h]

def ObservedFrame.keys (frame : ObservedFrame) : Multiset JsString :=
  frame.ordered.map RawInteractable.key

lemma elementsComparable_iff (before after : ObservedFrame) :
    let reasons := incompleteReasons before.fingerprint after.fingerprint
    (!reasons.contains .documentReplaced && !reasons.contains .fingerprintTruncated &&
      !reasons.contains .scanDegraded) = true ↔ Comparable before after := by
  have hreasons : incompleteReasons before.fingerprint after.fingerprint =
      (if before.epoch ≠ after.epoch then [.documentReplaced] else []) ++
        (if decide (FINGERPRINT_MAX_ENTRIES < before.ordered.length) ||
          decide (FINGERPRINT_MAX_ENTRIES < after.ordered.length)
          then [.fingerprintTruncated] else []) ++
        if before.degraded || after.degraded then [.scanDegraded] else [] := rfl
  rw [hreasons, Comparable, ← not_lt, ← not_lt]
  by_cases hepoch : before.epoch = after.epoch <;>
    by_cases hbefore : FINGERPRINT_MAX_ENTRIES < before.ordered.length <;>
    by_cases hafter : FINGERPRINT_MAX_ENTRIES < after.ordered.length <;>
    cases before.degraded <;> cases after.degraded <;> simp [hepoch, hbefore, hafter]

lemma coe_expand_fingerprint {frame : ObservedFrame}
    (h : frame.ordered.length ≤ FINGERPRINT_MAX_ENTRIES) :
    ((expand frame.fingerprint.entries : List JsString) : Multiset JsString) = frame.keys := by
  rw [ObservedFrame.fingerprint, coe_expand, take_of_length_le h]
  rfl

/-- **The counts of a delta, by keys:** those of the multiset differences where the frames are
comparable, and none where they are not. -/
theorem elementCount_diffFingerprints (before after : ObservedFrame) :
    let delta := diffFingerprints before.fingerprint after.fingerprint
    (¬Comparable before after → delta.elementsAppeared = none ∧ delta.elementsVanished = none) ∧
    (Comparable before after →
      elementCount delta.elementsAppeared = Multiset.card (after.keys - before.keys) ∧
      elementCount delta.elementsVanished = Multiset.card (before.keys - after.keys) ∧
      (delta.elementsAppeared = none ↔ Multiset.card (after.keys - before.keys) = 0) ∧
      (delta.elementsVanished = none ↔ Multiset.card (before.keys - after.keys) = 0)) := by
  intro delta
  have htrims := PageDelta.trimsTo_boundDelta
    (untrimmedDelta before.fingerprint after.fingerprint)
  obtain ⟨happeared, hnone⟩ := elementCount_stripped htrims.appeared
  obtain ⟨hvanished, hnone'⟩ := elementCount_stripped htrims.vanished
  have hiff := elementsComparable_iff before after
  constructor
  · intro hcomparable
    refine ⟨hnone.2 ?_, hnone'.2 ?_⟩
    · exact if_neg (mt hiff.1 hcomparable)
    · exact if_neg (mt hiff.1 hcomparable)
  · intro hcomparable
    obtain ⟨hcountAppeared, hcountVanished, -, -⟩ := diffKeyed_spec
      (expand before.fingerprint.entries) (expand after.fingerprint.entries)
      { key := id, changed := none, sampleCap := some DELTA_SAMPLE_CAP }
    rw [map_id, map_id, coe_expand_fingerprint hcomparable.2.1,
      coe_expand_fingerprint hcomparable.2.2.1] at hcountAppeared hcountVanished
    have hdiff := diffKeyed (expand before.fingerprint.entries) (expand after.fingerprint.entries)
      { key := id, changed := none, sampleCap := some DELTA_SAMPLE_CAP }
    have huntrimmed : (untrimmedDelta before.fingerprint after.fingerprint).elementsAppeared =
        elementChange _ _ := if_pos (hiff.2 hcomparable)
    have huntrimmed' : (untrimmedDelta before.fingerprint after.fingerprint).elementsVanished =
        elementChange _ _ := if_pos (hiff.2 hcomparable)
    rw [huntrimmed, elementCount_elementChange, hcountAppeared] at happeared
    rw [huntrimmed', elementCount_elementChange, hcountVanished] at hvanished
    rw [huntrimmed, elementChange_eq_none_iff, hcountAppeared] at hnone
    rw [huntrimmed', elementChange_eq_none_iff, hcountVanished] at hnone'
    exact ⟨happeared, hvanished, hnone, hnone'⟩

/-! ## Never over-claiming -/

structure NeverOverclaims (before after : ObservedFrame) : Prop where
  /-- Frames that are not comparable make no claim. -/
  suppressed : ¬Comparable before after →
    let delta := diffFingerprints before.fingerprint after.fingerprint
    delta.elementsAppeared = none ∧ delta.elementsVanished = none
  /-- What appeared is counted exactly. -/
  appeared : Comparable before after →
    elementCount (diffFingerprints before.fingerprint after.fingerprint).elementsAppeared =
      Multiset.card (after.identities - before.identities)
  /-- What vanished is counted exactly. -/
  vanished : Comparable before after →
    elementCount (diffFingerprints before.fingerprint after.fingerprint).elementsVanished =
      Multiset.card (before.identities - after.identities)
  /-- The counts differ by the change in the number of elements. -/
  difference : Comparable before after →
    elementCount (diffFingerprints before.fingerprint after.fingerprint).elementsAppeared +
        before.ordered.length =
      elementCount (diffFingerprints before.fingerprint after.fingerprint).elementsVanished +
        after.ordered.length
  /-- Swapping the frames swaps the sides. -/
  swapped :
    elementCount (diffFingerprints after.fingerprint before.fingerprint).elementsAppeared =
      elementCount (diffFingerprints before.fingerprint after.fingerprint).elementsVanished ∧
    elementCount (diffFingerprints after.fingerprint before.fingerprint).elementsVanished =
      elementCount (diffFingerprints before.fingerprint after.fingerprint).elementsAppeared
  /-- A change of order is no change. -/
  permuted : before.ordered.Perm after.ordered →
    let delta := diffFingerprints before.fingerprint after.fingerprint
    delta.elementsAppeared = none ∧ delta.elementsVanished = none
  /-- Controls of different identities are kept apart. -/
  separate : ∀ x ∈ before.ordered ++ after.ordered, ∀ y ∈ before.ordered ++ after.ordered,
    x.key = y.key → x.identity = y.identity

lemma Comparable.symm {before after : ObservedFrame} (h : Comparable before after) :
    Comparable after before :=
  ⟨h.1.symm, h.2.2.1, h.2.1, h.2.2.2.2, h.2.2.2.1⟩

lemma card_sub_add {α : Type} [DecidableEq α] (s t : Multiset α) :
    Multiset.card (s - t) + Multiset.card t = Multiset.card (t - s) + Multiset.card s := by
  have hs : Multiset.card (s - t) + Multiset.card (s ∩ t) = Multiset.card s := by
    rw [← Multiset.card_add, Multiset.sub_add_inter]
  have ht : Multiset.card (t - s) + Multiset.card (s ∩ t) = Multiset.card t := by
    rw [← Multiset.card_add, Multiset.inter_comm, Multiset.sub_add_inter]
  omega

lemma map_sub_map {α β : Type} [DecidableEq α] [DecidableEq β] {f : α → β} {s t : Multiset α}
    (h : ∀ x ∈ s + t, ∀ y ∈ s + t, f x = f y → x = y) :
    s.map f - t.map f = (s - t).map f := by
  have hcount : ∀ (u : Multiset α), u ≤ s + t → ∀ x ∈ s + t, (u.map f).count (f x) = u.count x := by
    intro u hu x hx
    by_cases hmem : x ∈ u
    · exact Multiset.count_map_eq_count f u
        (fun y hy z hz => h y (Multiset.mem_of_le hu hy) z (Multiset.mem_of_le hu hz)) x hmem
    · rw [Multiset.count_eq_zero_of_notMem hmem]
      refine Multiset.count_eq_zero.2 fun himage => hmem ?_
      obtain ⟨y, hy, hfy⟩ := Multiset.mem_map.1 himage
      rwa [← h y (Multiset.mem_of_le hu hy) x hx hfy]
  refine Multiset.ext.2 fun b => ?_
  by_cases hb : ∃ x ∈ s + t, f x = b
  · obtain ⟨x, hx, rfl⟩ := hb
    rw [Multiset.count_sub, hcount s (Multiset.le_add_right s t) x hx,
      hcount t (Multiset.le_add_left t s) x hx,
      hcount (s - t) ((Multiset.sub_le_self s t).trans (Multiset.le_add_right s t)) x hx,
      Multiset.count_sub]
  · have hnone : ∀ u : Multiset α, u ≤ s + t → (u.map f).count b = 0 := by
      intro u hu
      refine Multiset.count_eq_zero.2 fun hmem => ?_
      obtain ⟨x, hx, hfx⟩ := Multiset.mem_map.1 hmem
      exact hb ⟨x, Multiset.mem_of_le hu hx, hfx⟩
    rw [Multiset.count_sub, hnone s (Multiset.le_add_right s t), Nat.zero_sub,
      hnone (s - t) ((Multiset.sub_le_self s t).trans (Multiset.le_add_right s t))]

lemma keys_eq (frame : ObservedFrame) : frame.keys = frame.identities.map key := by
  rw [ObservedFrame.keys, ObservedFrame.identities, Multiset.map_coe, map_map]
  exact congrArg _ (map_congr_left fun x _ => key_eq x)

/-- **A delta never over-claims exactly when the separators confuse no two controls:** those whose
scope and pieces agree are of one identity. -/
theorem neverOverclaims_iff (before after : ObservedFrame) :
    NeverOverclaims before after ↔
      ∀ x ∈ before.ordered ++ after.ordered, ∀ y ∈ before.ordered ++ after.ordered,
        x.scope = y.scope → x.identity.pieces = y.identity.pieces → x.identity = y.identity := by
  constructor
  · intro h x hx y hy hscope hpieces
    refine h.separate x hx y hy ?_
    rw [key_eq, key_eq, key_eq_iff]
    exact ⟨hscope, hpieces⟩
  · intro h
    have hseparate : ∀ x ∈ before.ordered ++ after.ordered,
        ∀ y ∈ before.ordered ++ after.ordered, x.key = y.key → x.identity = y.identity := by
      intro x hx y hy hkey
      rw [key_eq, key_eq, key_eq_iff] at hkey
      exact h x hx y hy hkey.1 hkey.2
    have hcard : ∀ s t : ObservedFrame, (∀ x, x ∈ s.ordered ∨ x ∈ t.ordered →
        x ∈ before.ordered ++ after.ordered) →
        Multiset.card (s.keys - t.keys) = Multiset.card (s.identities - t.identities) := by
      intro s t hmem
      rw [keys_eq, keys_eq, map_sub_map, Multiset.card_map]
      intro i hi j hj hij
      have hcontrol : ∀ i ∈ s.identities + t.identities,
          ∃ x ∈ before.ordered ++ after.ordered, x.identity = i := by
        intro i hi
        rw [Multiset.mem_add, ObservedFrame.identities, ObservedFrame.identities,
          Multiset.mem_coe, Multiset.mem_coe, List.mem_map, List.mem_map] at hi
        obtain ⟨x, hx, hxi⟩ | ⟨x, hx, hxi⟩ := hi
        · exact ⟨x, hmem x (.inl hx), hxi⟩
        · exact ⟨x, hmem x (.inr hx), hxi⟩
      obtain ⟨x, hx, rfl⟩ := hcontrol i hi
      obtain ⟨y, hy, rfl⟩ := hcontrol j hj
      exact hseparate x hx y hy (by rw [key_eq, key_eq, hij])
    have hbefore : ∀ x, x ∈ before.ordered ∨ x ∈ after.ordered →
        x ∈ before.ordered ++ after.ordered := fun x => List.mem_append.2
    have hafter : ∀ x, x ∈ after.ordered ∨ x ∈ before.ordered →
        x ∈ before.ordered ++ after.ordered := fun x hx => List.mem_append.2 hx.symm
    obtain ⟨hnone, hcounts⟩ := elementCount_diffFingerprints before after
    obtain ⟨hnone', hcounts'⟩ := elementCount_diffFingerprints after before
    have hlength : ∀ frame : ObservedFrame, Multiset.card frame.keys = frame.ordered.length :=
      fun frame => by rw [ObservedFrame.keys, Multiset.coe_card, List.length_map]
    refine ⟨hnone, fun hc => ?_, fun hc => ?_, fun hc => ?_, ?_, fun hperm => ?_, hseparate⟩
    · rw [(hcounts hc).1, hcard after before hafter]
    · rw [(hcounts hc).2.1, hcard before after hbefore]
    · rw [(hcounts hc).1, (hcounts hc).2.1, ← hlength, ← hlength]
      exact card_sub_add _ _
    · by_cases hc : Comparable before after
      · rw [(hcounts hc).1, (hcounts hc).2.1, (hcounts' hc.symm).1, (hcounts' hc.symm).2.1]
        exact ⟨rfl, rfl⟩
      · obtain ⟨ha, hv⟩ := hnone hc
        obtain ⟨ha', hv'⟩ := hnone' fun hc' => hc hc'.symm
        rw [ha, hv, ha', hv']
        exact ⟨rfl, rfl⟩
    · by_cases hc : Comparable before after
      · have hkeys : before.keys = after.keys := Multiset.coe_eq_coe.2 (hperm.map _)
        have hzero : Multiset.card (after.keys - after.keys) = 0 := by
          rw [Multiset.card_sub le_rfl, Nat.sub_self]
        rw [hkeys] at hcounts
        exact ⟨(hcounts hc).2.2.1.2 hzero, (hcounts hc).2.2.2.2 hzero⟩
      · exact hnone hc

def splitName : RawInteractable where
  role := units "button"
  name := some [97, UNIT_SEPARATOR, 98]
  group := some (units "c")
  scope := .page
  focused := false
  container := none

def splitGroup : RawInteractable where
  role := units "button"
  name := some (units "a")
  group := some [98, UNIT_SEPARATOR, 99]
  scope := .page
  focused := false
  container := none

def singleFrame (control : RawInteractable) : ObservedFrame where
  epoch := some (units "y1")
  url := units "https://example.com/"
  title := units "Example"
  ordered := [control]
  degraded := false

/-- One button is replaced by another, and nothing is said to have appeared or vanished. -/
theorem separator_hides_replacement :
    let before := singleFrame splitName
    let after := singleFrame splitGroup
    let delta := diffFingerprints before.fingerprint after.fingerprint
    Comparable before after ∧ splitName.identity ≠ splitGroup.identity ∧
      elementCount delta.elementsAppeared = 0 ∧
      Multiset.card (after.identities - before.identities) = 1 ∧
      ¬NeverOverclaims before after := by
  have hcomparable : Comparable (singleFrame splitName) (singleFrame splitGroup) := by decide
  have hkeys : splitName.key = splitGroup.key := by decide
  have hidentity : splitName.identity ≠ splitGroup.identity := by decide
  refine ⟨hcomparable, hidentity, ?_, by decide, fun h => hidentity ?_⟩
  · have hkeys' : (singleFrame splitGroup).keys = (singleFrame splitName).keys :=
      congrArg (fun key => (([key] : List JsString) : Multiset JsString)) hkeys.symm
    rw [((elementCount_diffFingerprints _ _).2 hcomparable).1, hkeys',
      Multiset.card_sub le_rfl, Nat.sub_self]
  · exact h.separate _ (List.mem_append_left _ (List.mem_singleton_self _)) _
      (List.mem_append_right _ (List.mem_singleton_self _)) hkeys

end Yantra
