import Mathlib.Tactic.Common

/-!
# Code points

A text as the list of its code points, lone surrogates included, and the classes that ECMAScript
patterns have for them.

## Main definitions

* `CodePoints.isDigit`, `CodePoints.isLetter`, `CodePoints.isWord`, `CodePoints.isSpace` — the
  classes.
* `CodePoints.lowerAscii` — an ASCII letter in lower case.
-/

namespace CodePoints

/-- The code points of a text. -/
def ofString (s : String) : List ℕ := s.toList.map Char.toNat

/-- `\d` -/
def isDigit (c : ℕ) : Bool := decide (48 ≤ c ∧ c ≤ 57)

/-- `[A-Za-z]` -/
def isLetter (c : ℕ) : Bool := decide (65 ≤ c ∧ c ≤ 90 ∨ 97 ≤ c ∧ c ≤ 122)

/-- `\w` -/
def isWord (c : ℕ) : Bool := isLetter c || isDigit c || c == 95

/-- `\s` -/
def isSpace (c : ℕ) : Bool :=
  [0x9, 0xA, 0xB, 0xC, 0xD, 0x20, 0xA0, 0x1680, 0x2028, 0x2029, 0x202F, 0x205F, 0x3000,
    0xFEFF].contains c || decide (0x2000 ≤ c ∧ c ≤ 0x200A)

/-- Whether a code point is one of an ASCII text. -/
def oneOf (s : String) (c : ℕ) : Bool := (ofString s).contains c

def lowerAscii (c : ℕ) : ℕ := if 65 ≤ c ∧ c ≤ 90 then c + 32 else c

lemma lowerAscii_lowerAscii (c : ℕ) : lowerAscii (lowerAscii c) = lowerAscii c := by
  unfold lowerAscii
  split_ifs <;> omega

lemma letter_of_lowerAscii {a c : ℕ} (ha : 97 ≤ a ∧ a ≤ 122) (h : lowerAscii c = lowerAscii a) :
    65 ≤ c ∧ c ≤ 90 ∨ 97 ≤ c ∧ c ≤ 122 := by
  unfold lowerAscii at h
  split_ifs at h <;> omega

variable {c : ℕ}

lemma isLetter_of_isDigit (h : isDigit c) : isLetter c = false := by
  simp only [isDigit, isLetter, decide_eq_true_eq, decide_eq_false_iff_not] at h ⊢
  omega

lemma isLetter_of_isSpace (h : isSpace c) : isLetter c = false := by
  simp only [isSpace, isLetter, Bool.or_eq_true, List.contains_eq_mem, List.mem_cons,
    List.not_mem_nil, or_false, decide_eq_true_eq, decide_eq_false_iff_not] at h ⊢
  omega

end CodePoints
