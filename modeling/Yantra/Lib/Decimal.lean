import Mathlib.Data.Nat.Digits.Defs
import Mathlib.Tactic.FieldSimp
import Mathlib.Tactic.Positivity
import Yantra.Lib.Utf16

/-!
# Decimal numerals

The value of the digits before and after a decimal point, and the canonical form of both: without
zeros in front, without zeros at the end.

## Main definitions

* `Decimal.wholeValue`, `Decimal.fractionValue` — the values.
* `Decimal.stripLeading`, `Decimal.stripTrailing` — the canonical forms.

## Main results

* `Decimal.stripLeading_eq_iff`, `Decimal.stripTrailing_eq_iff` — digits have one canonical form
  exactly when they have one value.
* `Decimal.add_eq_iff` — a sum of a whole and a fraction determines both.
-/

namespace Decimal

open Utf16 List Nat

def digitValue (c : CodeUnit) : ℕ := c.toNat - 48

variable {c : CodeUnit}

lemma isDigit_iff : isDigit c ↔ 48 ≤ c.toNat ∧ c.toNat ≤ 57 := by
  simp [isDigit, UInt16.le_iff_toNat_le]

lemma digitValue_lt (h : isDigit c) : digitValue c < 10 := by
  obtain ⟨hlow, hhigh⟩ := isDigit_iff.1 h
  rw [digitValue]
  omega

lemma eq_of_digitValue_eq {c d : CodeUnit} (hc : isDigit c) (hd : isDigit d)
    (h : digitValue c = digitValue d) : c = d := by
  have hc' := (isDigit_iff.1 hc).1
  have hd' := (isDigit_iff.1 hd).1
  rw [digitValue, digitValue] at h
  exact UInt16.toNat_inj.1 (by omega)

variable {s t : JsString}

lemma eq_of_map_digitValue_eq (hs : ∀ c ∈ s, isDigit c) (ht : ∀ c ∈ t, isDigit c)
    (h : s.map digitValue = t.map digitValue) : s = t := by
  induction s generalizing t with
  | nil => exact (map_eq_nil_iff.1 h.symm).symm
  | cons c s ih =>
    cases t with
    | nil => cases h
    | cons d t =>
      obtain ⟨hhead, htail⟩ := List.cons.inj h
      obtain ⟨hc, hs⟩ := forall_mem_cons.1 hs
      obtain ⟨hd, ht⟩ := forall_mem_cons.1 ht
      rw [eq_of_digitValue_eq hc hd hhead, ih hs ht htail]

/-! ## Whole numbers -/

def wholeValue (s : JsString) : ℕ := Nat.ofDigits 10 (s.map digitValue).reverse

/-- The digits without the zeros in front; one zero stays for the number zero. -/
def stripLeading (s : JsString) : JsString :=
  if s.dropWhile (· == 48) = [] then [48] else s.dropWhile (· == 48)

lemma wholeValue_cons (c : CodeUnit) (s : JsString) :
    wholeValue (c :: s) = wholeValue s + 10 ^ s.length * digitValue c := by
  rw [wholeValue, map_cons, reverse_cons, ofDigits_append, ofDigits_singleton,
    length_reverse, length_map]
  rfl

lemma wholeValue_dropWhile (s : JsString) : wholeValue (s.dropWhile (· == 48)) = wholeValue s := by
  induction s with
  | nil => rfl
  | cons c s ih =>
    rw [List.dropWhile_cons]
    split_ifs with hzero
    · obtain rfl : c = 48 := beq_iff_eq.1 hzero
      rw [ih, wholeValue_cons]
      exact (Nat.add_zero _).symm
    · rfl

lemma map_digitValue_eq {s : JsString} (hs : ∀ c ∈ s, isDigit c) (hhead : ∀ c ∈ s.head?, c ≠ 48) :
    (s.map digitValue).reverse = Nat.digits 10 (wholeValue s) := by
  refine (digits_ofDigits 10 (by decide) _ (fun d hd => ?_) fun hne => ?_).symm
  · rw [mem_reverse] at hd
    obtain ⟨c, hc, rfl⟩ := mem_map.1 hd
    exact digitValue_lt (hs c hc)
  · cases s with
    | nil => exact absurd rfl hne
    | cons c s =>
      rw [getLast_reverse, head_map]
      intro hzero
      have hc := hs c mem_cons_self
      exact hhead c rfl (eq_of_digitValue_eq hc (by decide) hzero)

lemma head?_dropWhile_ne (s : JsString) : ∀ c ∈ (s.dropWhile (· == 48)).head?, c ≠ 48 := by
  induction s with
  | nil => exact fun _ h => absurd h (by simp)
  | cons d s ih =>
    rw [List.dropWhile_cons]
    split_ifs with hzero
    · exact ih
    · intro c hc
      obtain rfl := Option.some.inj hc
      exact fun heq => hzero (beq_iff_eq.2 heq)

/-- **Two whole numbers have one canonical form exactly when they have one value.** -/
theorem stripLeading_eq_iff (hs : ∀ c ∈ s, isDigit c) (ht : ∀ c ∈ t, isDigit c) :
    stripLeading s = stripLeading t ↔ wholeValue s = wholeValue t := by
  have hdigits : ∀ {u : JsString}, (∀ c ∈ u, isDigit c) →
      ∀ c ∈ u.dropWhile (· == 48), isDigit c = true :=
    fun h c hc => h c (dropWhile_subset _ hc)
  have hiff : s.dropWhile (· == 48) = t.dropWhile (· == 48) ↔ wholeValue s = wholeValue t := by
    rw [← wholeValue_dropWhile s, ← wholeValue_dropWhile t]
    refine ⟨congrArg wholeValue, fun heq => ?_⟩
    refine eq_of_map_digitValue_eq (hdigits hs) (hdigits ht) ?_
    rw [← reverse_inj, map_digitValue_eq (hdigits hs) (head?_dropWhile_ne s),
      map_digitValue_eq (hdigits ht) (head?_dropWhile_ne t), heq]
  have hne : ∀ u : JsString, u.dropWhile (· == 48) ≠ [48] := fun u heq =>
    head?_dropWhile_ne u 48 (by rw [heq]; rfl) rfl
  rw [← hiff, stripLeading, stripLeading]
  split_ifs with hnil hnil' hnil'
  · exact ⟨fun _ => hnil.trans hnil'.symm, fun _ => rfl⟩
  · exact ⟨fun h => absurd h.symm (hne t), fun h => absurd (h.symm.trans hnil) hnil'⟩
  · exact ⟨fun h => absurd h (hne s), fun h => absurd (h.trans hnil') hnil⟩
  · exact Iff.rfl

/-! ## Fractions -/

def fractionValue : JsString → ℚ
  | [] => 0
  | c :: s => (digitValue c + fractionValue s) / 10

/-- The digits without the zeros at the end. -/
def stripTrailing : JsString → JsString
  | [] => []
  | c :: s => if c = 48 ∧ stripTrailing s = [] then [] else c :: stripTrailing s

lemma fractionValue_nonneg (s : JsString) : 0 ≤ fractionValue s := by
  induction s with
  | nil => exact le_rfl
  | cons c s ih =>
    rw [fractionValue]
    positivity

lemma fractionValue_lt {s : JsString} (hs : ∀ c ∈ s, isDigit c) : fractionValue s < 1 := by
  induction s with
  | nil => exact zero_lt_one
  | cons c s ih =>
    obtain ⟨hc, hs⟩ := forall_mem_cons.1 hs
    have hdigit : (digitValue c : ℚ) ≤ 9 := by
      exact_mod_cast le_of_lt_succ (digitValue_lt hc)
    have hrest := ih hs
    rw [fractionValue, div_lt_one (by norm_num)]
    linarith

/-- **A whole and a fraction are determined by their sum.** -/
theorem add_eq_iff {m n : ℕ} {x y : ℚ} (hx : 0 ≤ x) (hx' : x < 1) (hy : 0 ≤ y) (hy' : y < 1) :
    (m : ℚ) + x = n + y ↔ m = n ∧ x = y := by
  constructor
  · intro h
    have hle : m ≤ n := by
      have : (m : ℚ) < n + 1 := by linarith
      exact le_of_lt_succ (by exact_mod_cast this)
    have hge : n ≤ m := by
      have : (n : ℚ) < m + 1 := by linarith
      exact le_of_lt_succ (by exact_mod_cast this)
    obtain rfl := le_antisymm hle hge
    exact ⟨rfl, by linarith⟩
  · rintro ⟨rfl, rfl⟩
    rfl

lemma stripTrailing_eq_nil_iff {s : JsString} (hs : ∀ c ∈ s, isDigit c) :
    stripTrailing s = [] ↔ fractionValue s = 0 := by
  induction s with
  | nil => exact ⟨fun _ => rfl, fun _ => rfl⟩
  | cons c s ih =>
    obtain ⟨hc, hs⟩ := forall_mem_cons.1 hs
    have hiff : stripTrailing (c :: s) = [] ↔ c = 48 ∧ stripTrailing s = [] := by
      by_cases h : c = 48 ∧ stripTrailing s = []
      · rw [stripTrailing, if_pos h]
        exact ⟨fun _ => h, fun _ => rfl⟩
      · rw [stripTrailing, if_neg h]
        exact ⟨fun heq => absurd heq (cons_ne_nil _ _), fun heq => absurd heq h⟩
    rw [hiff, ih hs, fractionValue, div_eq_zero_iff]
    have hnonneg := fractionValue_nonneg s
    constructor
    · rintro ⟨rfl, hzero⟩
      left
      have hdigit : digitValue 48 = 0 := rfl
      rw [hzero, hdigit, cast_zero, add_zero]
    · rintro (hsum | hten)
      · have hdigit : (digitValue c : ℚ) = 0 := by
          have : (0 : ℚ) ≤ digitValue c := cast_nonneg _
          linarith
        refine ⟨eq_of_digitValue_eq hc (by decide) (by exact_mod_cast hdigit), by linarith⟩
      · norm_num at hten

/-- **Two fractions have one canonical form exactly when they have one value.** -/
theorem stripTrailing_eq_iff (hs : ∀ c ∈ s, isDigit c) (ht : ∀ c ∈ t, isDigit c) :
    stripTrailing s = stripTrailing t ↔ fractionValue s = fractionValue t := by
  induction s generalizing t with
  | nil =>
    rw [eq_comm, stripTrailing, stripTrailing_eq_nil_iff ht, fractionValue, eq_comm]
  | cons c s ih =>
    cases t with
    | nil => exact stripTrailing_eq_nil_iff hs
    | cons d t =>
      obtain ⟨hc, hs'⟩ := forall_mem_cons.1 hs
      obtain ⟨hd, ht'⟩ := forall_mem_cons.1 ht
      have hvalue : fractionValue (c :: s) = fractionValue (d :: t) ↔
          c = d ∧ fractionValue s = fractionValue t := by
        rw [fractionValue, fractionValue, div_left_inj' (by norm_num),
          add_eq_iff (fractionValue_nonneg s) (fractionValue_lt hs') (fractionValue_nonneg t)
            (fractionValue_lt ht')]
        exact and_congr_left fun _ => ⟨eq_of_digitValue_eq hc hd, congrArg digitValue⟩
      rw [hvalue, ← ih hs' ht']
      by_cases h : c = 48 ∧ stripTrailing s = []
      · rw [stripTrailing, if_pos h]
        by_cases h' : d = 48 ∧ stripTrailing t = []
        · rw [stripTrailing, if_pos h']
          exact ⟨fun _ => ⟨h.1.trans h'.1.symm, h.2.trans h'.2.symm⟩, fun _ => rfl⟩
        · rw [stripTrailing, if_neg h']
          refine ⟨fun heq => absurd heq.symm (cons_ne_nil _ _), fun heq => ?_⟩
          exact absurd ⟨heq.1 ▸ h.1, heq.2 ▸ h.2⟩ h'
      · rw [stripTrailing, if_neg h]
        by_cases h' : d = 48 ∧ stripTrailing t = []
        · rw [stripTrailing, if_pos h']
          refine ⟨fun heq => absurd heq (cons_ne_nil _ _), fun heq => ?_⟩
          exact absurd ⟨heq.1 ▸ h'.1, heq.2 ▸ h'.2⟩ h
        · rw [stripTrailing, if_neg h']
          exact cons_eq_cons

end Decimal
