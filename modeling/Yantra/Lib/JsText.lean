import Mathlib.Data.List.Chain
import Mathlib.Data.List.TakeWhile

/-!
# ECMAScript text

The text operations of an ECMAScript program: lengths and cuts counted in UTF-16 code units,
white space, and the replacement of runs of characters by one space.

## Main definitions

* `JsText.utf16Length`, `JsText.utf16Take` — length and prefix in code units.
* `JsText.stripEnd` — a text less what its end repeats.

## Main results

* `JsText.utf16Length_take_le` — a cut is within its bound.
* `JsText.trim_collapseRuns_eq_nil` — what collapsing and trimming leave of a text.
* `JsText.toString_toList_inj` — numbers are told from their digits.
-/

namespace JsText

open List Option

/-- How many UTF-16 code units a character takes. -/
def unitsOf (c : Char) : Nat := if c.toNat < 0x10000 then 1 else 2

/-- `s.length` -/
def utf16Length (s : String) : Nat := s.toList.foldl (fun n c => n + unitsOf c) 0

/-- The longest prefix within `n` code units: `s.slice(0, n)`, less half a surrogate pair when the
cut falls inside one. -/
def takeUnits : Nat → List Char → List Char
  | _, [] => []
  | n, c :: cs => if unitsOf c ≤ n then c :: takeUnits (n - unitsOf c) cs else []

/-- `s.slice(0, n)` -/
def utf16Take (n : Nat) (s : String) : String := String.ofList (takeUnits n s.toList)

/-- A character of `\s`. -/
def isSpace (c : Char) : Bool :=
  [0x9, 0xA, 0xB, 0xC, 0xD, 0x20, 0xA0, 0x1680, 0x2028, 0x2029, 0x202F, 0x205F, 0x3000,
    0xFEFF].contains c.toNat || (0x2000 ≤ c.toNat && c.toNat ≤ 0x200A)

def trimList (p : Char → Bool) (cs : List Char) : List Char :=
  ((cs.dropWhile p).reverse.dropWhile p).reverse

/-- Drop matching characters at the end: `s.replace(/p+$/u, '')`. -/
def stripEnd (p : Char → Bool) (s : String) : String :=
  String.ofList (s.toList.reverse.dropWhile p).reverse

/-- `s.trim()` -/
def trim (s : String) : String := String.ofList (trimList isSpace s.toList)

/-- Replace every run of matching characters by one space; `inRun` tells that the character
before matched. -/
def collapseFrom (p : Char → Bool) : Bool → List Char → List Char
  | _, [] => []
  | inRun, c :: cs =>
    if p c then if inRun then collapseFrom p true cs else ' ' :: collapseFrom p true cs
    else c :: collapseFrom p false cs

/-- `s.replace(/p+/gu, ' ')` -/
def collapseRuns (p : Char → Bool) (s : String) : String :=
  String.ofList (collapseFrom p false s.toList)

/-- Lowercase the ASCII letters: `s.toLowerCase()` on a text without other cased characters. -/
def asciiLower (s : String) : String :=
  String.ofList (s.toList.map fun c =>
    if 'A' ≤ c && c ≤ 'Z' then Char.ofNat (c.toNat + 32) else c)

variable {s : String}

lemma trim_eq_self (h : ∀ c ∈ s.toList, isSpace c = false) : trim s = s := by
  have hdrop : ∀ cs : List Char, (∀ c ∈ cs, isSpace c = false) → cs.dropWhile isSpace = cs := by
    intro cs hcs
    cases cs with
    | nil => rfl
    | cons c cs => rw [List.dropWhile_cons, if_neg (by simp [hcs c mem_cons_self])]
  rw [trim, trimList, hdrop _ h, hdrop _ fun c hc => h c (mem_reverse.1 hc),
    reverse_reverse, String.ofList_toList]

/-! ## Lengths -/

lemma utf16Length_ofList_cons (c : Char) (cs : List Char) :
    utf16Length (String.ofList (c :: cs)) = unitsOf c + utf16Length (String.ofList cs) := by
  have hfold : ∀ (cs : List Char) n, cs.foldl (fun n c => n + unitsOf c) n =
      n + cs.foldl (fun n c => n + unitsOf c) 0 := by
    intro cs
    induction cs with
    | nil => intro n; rfl
    | cons d cs ih =>
      intro n
      rw [foldl_cons, foldl_cons, ih, ih (0 + unitsOf d)]
      omega
  simp only [utf16Length, String.toList_ofList, foldl_cons]
  rw [hfold]
  omega

lemma utf16Length_ofList_append (as bs : List Char) :
    utf16Length (String.ofList (as ++ bs)) =
      utf16Length (String.ofList as) + utf16Length (String.ofList bs) := by
  induction as with
  | nil => simp [utf16Length]
  | cons a as ih =>
    rw [cons_append, utf16Length_ofList_cons, ih, utf16Length_ofList_cons]
    omega

lemma utf16Length_append (s t : String) :
    utf16Length (s ++ t) = utf16Length s + utf16Length t := by
  have happend := utf16Length_ofList_append s.toList t.toList
  rwa [← String.toList_append, String.ofList_toList, String.ofList_toList,
    String.ofList_toList] at happend

lemma unitsOf_pos (c : Char) : 0 < unitsOf c := by
  unfold unitsOf
  split_ifs <;> decide

lemma utf16Length_eq_zero_iff : utf16Length s = 0 ↔ s.toList = [] := by
  constructor
  · intro h
    cases hs : s.toList with
    | nil => rfl
    | cons c cs =>
      rw [← String.ofList_toList (s := s), hs, utf16Length_ofList_cons] at h
      have hpos := unitsOf_pos c
      omega
  · intro h
    rw [utf16Length, h, foldl_nil]

lemma takeUnits_prefix (n : Nat) (cs : List Char) : takeUnits n cs <+: cs := by
  induction cs generalizing n with
  | nil => cases n <;> exact prefix_refl _
  | cons c cs ih =>
    rw [takeUnits]
    split_ifs
    · exact cons_prefix_cons.2 ⟨rfl, ih _⟩
    · exact nil_prefix

lemma utf16Length_takeUnits_le (n : Nat) (cs : List Char) :
    utf16Length (String.ofList (takeUnits n cs)) ≤ n := by
  induction cs generalizing n with
  | nil => cases n <;> exact Nat.zero_le _
  | cons c cs ih =>
    rw [takeUnits]
    split_ifs with hfits
    · rw [utf16Length_ofList_cons]
      have hrest := ih (n - unitsOf c)
      omega
    · exact Nat.zero_le _

lemma utf16Length_take_le (n : Nat) (s : String) : utf16Length (utf16Take n s) ≤ n :=
  utf16Length_takeUnits_le n s.toList

/-! ## White space -/

/-- A text with a character that is no white space: `/\S/.test(s)`. -/
def visible (s : String) : Bool := s.toList.any fun c => !isSpace c

lemma visible_iff : visible s ↔ ∃ c ∈ s.toList, isSpace c = false := by
  simp [visible]

variable {p : Char → Bool} {cs : List Char} {c : Char}

lemma mem_trimList (hc : p c = false) :
    c ∈ trimList p cs ↔ c ∈ cs := by
  have hdrop : ∀ ds : List Char, c ∈ ds.dropWhile p ↔ c ∈ ds := by
    intro ds
    induction ds with
    | nil => rfl
    | cons d ds ih =>
      rw [List.dropWhile_cons]
      split_ifs with hd
      · rw [ih, mem_cons, or_iff_right]
        rintro rfl
        rw [hc] at hd
        cases hd
      · rfl
  rw [trimList, mem_reverse, hdrop, mem_reverse, hdrop]

lemma head?_dropWhile (h : (cs.dropWhile p).head? = some c) : p c = false := by
  have hhead := head?_dropWhile_not p cs
  rw [h] at hhead
  exact hhead

lemma getLast?_trimList (h : (trimList p cs).getLast? = some c) : p c = false := by
  rw [trimList, getLast?_reverse] at h
  exact head?_dropWhile h

lemma trimList_prefix_dropWhile (p : Char → Bool) (cs : List Char) :
    trimList p cs <+: cs.dropWhile p := by
  rw [trimList, ← reverse_suffix, reverse_reverse]
  exact dropWhile_suffix p

lemma trimList_infix (p : Char → Bool) (cs : List Char) : trimList p cs <:+: cs :=
  (trimList_prefix_dropWhile p cs).isInfix.trans (dropWhile_suffix p).isInfix

lemma head?_trimList (h : (trimList p cs).head? = some c) : p c = false := by
  obtain ⟨t, ht⟩ := trimList_prefix_dropWhile p cs
  cases htrim : trimList p cs with
  | nil => rw [htrim] at h; cases h
  | cons d ds =>
    rw [htrim] at h ht
    obtain rfl := some.inj h
    have hhead : (cs.dropWhile p).head? = some d := by rw [← ht]; rfl
    exact head?_dropWhile hhead

lemma trimList_eq_nil_iff :
    trimList p cs = [] ↔ ∀ c ∈ cs, p c := by
  constructor
  · intro h c hc
    by_contra hp
    rw [← mem_trimList (Bool.not_eq_true _ ▸ hp), h] at hc
    cases hc
  · intro h
    rw [trimList, dropWhile_eq_nil_iff.2 h]
    rfl

/-- Of the characters other than the space a collapse keeps those that do not match. -/
lemma mem_collapseFrom {inRun : Bool} (hc : c ≠ ' ') :
    c ∈ collapseFrom p inRun cs ↔ c ∈ cs ∧ p c = false := by
  induction cs generalizing inRun with
  | nil => simp [collapseFrom]
  | cons d ds ih =>
    have hmatches : p d → (c ∈ d :: ds ∧ p c = false ↔ c ∈ ds ∧ p c = false) := by
      intro hd
      refine ⟨fun h => ⟨(mem_cons.1 h.1).resolve_left ?_, h.2⟩,
        fun h => ⟨mem_cons_of_mem _ h.1, h.2⟩⟩
      rintro rfl
      rw [hd] at h
      exact Bool.noConfusion h.2
    rw [collapseFrom]
    split_ifs with hd hrun
    · rw [ih, hmatches hd]
    · rw [mem_cons, or_iff_right hc, ih, hmatches hd]
    · rw [mem_cons, mem_cons, ih, or_and_right]
      refine or_congr_left ⟨fun h => ⟨h, ?_⟩, And.left⟩
      rw [h]
      exact Bool.not_eq_true _ ▸ hd

lemma visible_collapseRuns :
    visible (collapseRuns p s) ↔ ∃ c ∈ s.toList, p c = false ∧ isSpace c = false := by
  rw [visible_iff, collapseRuns, String.toList_ofList]
  have hne : ∀ c, isSpace c = false → c ≠ ' ' := by
    rintro c hc rfl
    exact absurd hc (by decide)
  constructor
  · rintro ⟨c, hmem, hspace⟩
    obtain ⟨hin, hkept⟩ := (mem_collapseFrom (hne c hspace)).1 hmem
    exact ⟨c, hin, hkept, hspace⟩
  · rintro ⟨c, hin, hkept, hspace⟩
    exact ⟨c, (mem_collapseFrom (hne c hspace)).2 ⟨hin, hkept⟩, hspace⟩

/-- Collapsing and trimming white space leaves nothing of a text exactly when nothing of it is
visible. -/
lemma trim_collapseRuns_eq_nil :
    (trim (collapseRuns isSpace s)).toList = [] ↔ visible s = false := by
  have hsame : visible (collapseRuns isSpace s) = visible s := by
    rw [Bool.eq_iff_iff, visible_collapseRuns, visible_iff]
    simp only [and_self]
  rw [← hsame, trim, String.toList_ofList, trimList_eq_nil_iff, visible, List.any_eq_false]
  simp only [Bool.not_eq_true', Bool.not_eq_false]

/-! ## Words -/

/-- Of two neighbours at most one is a space. -/
def Spaced : List Char → Prop := List.IsChain fun a b => a ≠ ' ' ∨ b ≠ ' '

/-- Where the runs of `p` hold every space, no two spaces are left side by side. -/
lemma spaced_collapseFrom (hp : p ' ') (inRun : Bool) (cs : List Char) :
    Spaced (collapseFrom p inRun cs) ∧
      (inRun → (collapseFrom p inRun cs).head? ≠ some ' ') := by
  induction cs generalizing inRun with
  | nil => simp [collapseFrom, Spaced]
  | cons c cs ih =>
    rw [collapseFrom]
    split_ifs with hc hrun
    · exact ⟨(ih true).1, fun _ => (ih true).2 rfl⟩
    · refine ⟨isChain_cons.2 ⟨?_, (ih true).1⟩, fun h => absurd h hrun⟩
      rintro d hd
      exact .inr fun hspace => (ih true).2 rfl (hspace ▸ hd)
    · have hne : c ≠ ' ' := fun h => hc (h ▸ hp)
      refine ⟨isChain_cons.2 ⟨fun _ _ => .inl hne, (ih false).1⟩, fun _ h => ?_⟩
      exact hne (some.inj h)

lemma nil_not_mem_splitOn (h : Spaced cs) (hne : cs ≠ []) (hhead : cs.head? ≠ some ' ')
    (hlast : cs.getLast? ≠ some ' ') : [] ∉ cs.splitOn ' ' := by
  -- past the first word, by induction; the first is empty only at a space
  have htail : ∀ cs : List Char, Spaced cs → cs.getLast? ≠ some ' ' →
      ∃ word words, cs.splitOn ' ' = word :: words ∧ [] ∉ words ∧
        (word = [] → cs = [] ∨ cs.head? = some ' ') := by
    intro cs
    induction cs with
    | nil => exact fun _ _ => ⟨[], [], rfl, not_mem_nil, fun _ => .inl rfl⟩
    | cons c cs ih =>
      intro h hlast
      have hrest : cs.getLast? ≠ some ' ' := by
        intro heq
        rw [getLast?_cons, heq] at hlast
        exact hlast rfl
      obtain ⟨hnext, hspaced⟩ := isChain_cons.1 h
      obtain ⟨word, words, hsplit, hwords, hword⟩ := ih hspaced hrest
      rw [splitOn_cons_eq_if_modifyHead, hsplit]
      by_cases hc : c = ' '
      · subst hc
        refine ⟨[], word :: words, rfl, ?_, fun _ => .inr rfl⟩
        intro hmem
        rcases mem_cons.1 hmem with heq | hmem
        · rcases hword heq.symm with rfl | hspace
          · exact hlast rfl
          · rcases hnext ' ' hspace with hne | hne <;> exact hne rfl
        · exact hwords hmem
      · rw [if_neg (by simpa using hc)]
        exact ⟨c :: word, words, rfl, hwords, fun h => absurd h (cons_ne_nil _ _)⟩
  obtain ⟨word, words, hsplit, hwords, hword⟩ := htail cs h hlast
  rw [hsplit, mem_cons, not_or]
  exact ⟨fun heq => (hword heq.symm).elim hne hhead, hwords⟩

/-! ## Numbers -/

variable {n : Nat}

lemma isDigit_of_mem_toString (hc : c ∈ (toString n).toList) :
    48 ≤ c.toNat ∧ c.toNat ≤ 57 := by
  rw [Nat.toString_eq_repr, Nat.toList_repr] at hc
  exact Char.isDigit_iff_toNat.1 (Nat.isDigit_of_mem_toDigits (by decide) (by decide) hc)

lemma isSpace_of_mem_toString (hc : c ∈ (toString n).toList) :
    isSpace c = false := by
  obtain ⟨hlo, hhi⟩ := isDigit_of_mem_toString hc
  simp only [isSpace, Bool.or_eq_false_iff, Bool.and_eq_false_iff, decide_eq_false_iff_not,
    contains_eq_mem, mem_cons, not_mem_nil, or_false]
  omega

lemma toString_toList_ne_nil (n : Nat) : (toString n).toList ≠ [] := by
  rw [Nat.toString_eq_repr, Nat.toList_repr]
  exact Nat.toDigits_ne_nil

lemma toString_toList_inj {m n : Nat} (h : (toString m).toList = (toString n).toList) : m = n := by
  rw [Nat.toString_eq_repr, Nat.toString_eq_repr, Nat.toList_repr, Nat.toList_repr] at h
  rw [← Nat.ofDigitChars_ten_toDigits (n := m), h, Nat.ofDigitChars_ten_toDigits]

end JsText
