import Yantra.Lib.Json

/-!
# The size of JSON texts

The number of bytes of a serialized value, from the numbers of bytes of its parts.

## Main definitions

* `Json.size` — the number of bytes of a value.
* `Json.itemsSize`, `Json.membersSize` — those of items and members, each with a delimiter.

## Main results

* `Utf8.byteLength_append` — bytes add up where no surrogate pair is cut.
* `Json.size_array`, `Json.size_object` — the size of an array and of an object.
* `Utf8.length_le_byteLength` — a code unit is at least one byte.
-/

namespace Utf16

open List Bool

/-- Code points of texts that do not meet in a surrogate pair. -/
lemma codePoints_append (s : JsString) {t : JsString} (h : t.head?.all (!isLow ·) = true) :
    codePoints (s ++ t) = codePoints s ++ codePoints t := by
  induction s using codePoints.induct with
  | case1 => rfl
  | case2 a =>
    cases t with
    | nil => rfl
    | cons b t =>
      have hlow : isLow b = false := by simpa using h
      have hpair : ¬(isHigh a && isLow b) = true := by simp [hlow]
      rw [singleton_append, codePoints.eq_3, if_neg hpair]
      rfl
  | case3 a b s hpair ih =>
    rw [cons_append, cons_append, codePoints, if_pos hpair, codePoints, if_pos hpair, ih,
      cons_append]
  | case4 a b s hpair ih =>
    rw [cons_append, cons_append, codePoints, if_neg hpair, codePoints, if_neg hpair,
      ← cons_append, ih, cons_append]

end Utf16

namespace Utf8

open Utf16

/-- **Bytes add up** where no surrogate pair is cut. -/
lemma byteLength_append (s : JsString) {t : JsString} (h : t.head?.all (!isLow ·) = true) :
    byteLength (s ++ t) = byteLength s + byteLength t := by
  rw [byteLength_eq, byteLength_eq, byteLength_eq, codePoints_append s h, sizeSum_append]

lemma byteLength_cons {c : CodeUnit} (hc : c.toNat < 0x80) (s : JsString) :
    byteLength (c :: s) = 1 + byteLength s := by
  have hhigh : isHigh c = false := by
    rw [← Bool.not_eq_true, isHigh_iff]
    omega
  have hpoints : codePoints (c :: s) = c.toNat :: codePoints s := by
    cases s with
    | nil => rfl
    | cons d s => rw [codePoints, if_neg (by simp [hhigh])]
  rw [byteLength_eq, byteLength_eq, hpoints, sizeSum_cons, size, if_pos hc]

lemma length_le_byteLength (s : JsString) : s.length ≤ byteLength s := by
  rw [byteLength_eq]
  induction s using codePoints.induct with
  | case1 => exact Nat.zero_le _
  | case2 a => exact size_pos _
  | case3 a b s hpair ih =>
    rw [codePoints, if_pos hpair, sizeSum_cons, List.length_cons, List.length_cons]
    have hsize : 2 ≤ size (0x10000 + (a.toNat - 0xD800) * 0x400 + (b.toNat - 0xDC00)) := by
      rw [size]
      split_ifs <;> omega
    omega
  | case4 a b s hpair ih =>
    rw [codePoints, if_neg hpair, sizeSum_cons, List.length_cons]
    have hsize := size_pos a.toNat
    omega

end Utf8

namespace Json

open Utf16

/-- The number of bytes of a value. -/
def size (v : Value) : ℕ := Utf8.byteLength (stringify v)

/-- The number of bytes of items, each with a delimiter. -/
def itemsSize : List Value → ℕ
  | [] => 0
  | v :: vs => size v + 1 + itemsSize vs

/-- The number of bytes of members, each with a delimiter. -/
def membersSize : List (JsString × Value) → ℕ
  | [] => 0
  | m :: ms => Utf8.byteLength (quote m.1) + 1 + size m.2 + 1 + membersSize ms

variable {c : CodeUnit}

lemma not_isLow (h : c.toNat < 0x80) : isLow c = false := by
  rw [← Bool.not_eq_true, isLow_iff]
  omega

open Utf8

lemma byteLength_serialize_append (v : Value) (hc : c.toNat < 0x80) (s : JsString) :
    byteLength (serialize [] [] v ++ c :: s) = size v + byteLength (c :: s) :=
  byteLength_append _ (by simp [not_isLow hc])

lemma byteLength_items (vs : List Value) (hc : c.toNat < 0x80) (s : JsString) :
    byteLength (serializeItems [] [] vs ++ c :: s) =
      itemsSize vs + byteLength (c :: s) := by
  induction vs with
  | nil => rw [serializeItems, itemsSize, List.nil_append, Nat.zero_add]
  | cons v vs ih =>
    have hstart : ∃ d t, serializeItems [] [] vs ++ c :: s = d :: t ∧ d.toNat < 0x80 := by
      cases vs with
      | nil => exact ⟨c, s, rfl, hc⟩
      | cons v vs => exact ⟨44, _, rfl, by decide⟩
    obtain ⟨d, t, heq, hd⟩ := hstart
    have htext : serializeItems [] [] (v :: vs) ++ c :: s =
        44 :: (serialize [] [] v ++ (serializeItems [] [] vs ++ c :: s)) := by
      simp [serializeItems, lineBreak]
    rw [htext, byteLength_cons (by decide), heq, byteLength_serialize_append v hd, ← heq, ih,
      itemsSize]
    omega

lemma byteLength_members (ms : List (JsString × Value)) (hc : c.toNat < 0x80) (s : JsString) :
    byteLength (serializeMembers [] [] ms ++ c :: s) =
      membersSize ms + byteLength (c :: s) := by
  induction ms with
  | nil => rw [serializeMembers, membersSize, List.nil_append, Nat.zero_add]
  | cons m ms ih =>
    have hstart : ∃ d t, serializeMembers [] [] ms ++ c :: s = d :: t ∧ d.toNat < 0x80 := by
      cases ms with
      | nil => exact ⟨c, s, rfl, hc⟩
      | cons m ms => exact ⟨44, _, rfl, by decide⟩
    obtain ⟨d, t, heq, hd⟩ := hstart
    have htext : serializeMembers [] [] (m :: ms) ++ c :: s = 44 :: (quote m.1 ++ 58 ::
        (serialize [] [] m.2 ++ (serializeMembers [] [] ms ++ c :: s))) := by
      simp [serializeMembers, lineBreak, colon]
    rw [htext, byteLength_cons (by decide), byteLength_append _ rfl,
      byteLength_cons (by decide), heq, byteLength_serialize_append _ hd, ← heq, ih,
      membersSize]
    omega

/-- **The size of an array.** -/
theorem size_array (vs : List Value) :
    size (.array vs) = if vs.isEmpty then 2 else 1 + itemsSize vs := by
  cases vs with
  | nil => rfl
  | cons v vs =>
    have hitems := byteLength_items (v :: vs) (c := 93) (by decide) []
    have htext : serializeItems [] [] (v :: vs) ++ [93] =
        44 :: (serialize [] [] v ++ (serializeItems [] [] vs ++ [93])) := by
      simp [serializeItems, lineBreak]
    rw [htext, byteLength_cons (by decide)] at hitems
    exact (byteLength_cons (by decide) _).trans (hitems.trans (Nat.add_comm _ _))

/-- **The size of an object.** -/
theorem size_object (ms : List (JsString × Value)) :
    size (.object ms) = if ms.isEmpty then 2 else 1 + membersSize ms := by
  cases ms with
  | nil => rfl
  | cons m ms =>
    have hmembers := byteLength_members (m :: ms) (c := 125) (by decide) []
    have htext : serializeMembers [] [] (m :: ms) ++ [125] = 44 :: (quote m.1 ++ 58 ::
        (serialize [] [] m.2 ++ (serializeMembers [] [] ms ++ [125]))) := by
      simp [serializeMembers, lineBreak, colon]
    rw [htext, byteLength_cons (by decide)] at hmembers
    exact (byteLength_cons (by decide) _).trans (hmembers.trans (Nat.add_comm _ _))

end Json
