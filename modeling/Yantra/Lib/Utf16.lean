import Yantra.Lib.JsText
import Yantra.Lib.Regex

/-!
# Strings of code units

An ECMAScript string is any list of 16-bit code units, well-formed or not. Here are the classes of
code units that patterns name, and patterns for fixed words. A pattern without the `u` flag that
ignores case identifies the ASCII letters only with each other, so folding ASCII letters is all
there is to it.

## Main definitions

* `Utf16.CodeUnit`, `Utf16.JsString` — strings.
* `Utf16.word`, `Utf16.wordI` — the patterns of a fixed word, with and without regard to case.

## Main results

* `Utf16.flatMap_unitsOfChar_inj` — characters of the basic plane are told from their code units.
* `Utf16.indexOf_spec` — what a search finds.
* `Utf16.indexOf_cons`, `Utf16.indexOf_append` — a search, one code unit at a time.
-/

namespace Utf16

open List Function

abbrev CodeUnit := UInt16

abbrev JsString := List CodeUnit

def unitsOfChar (c : Char) : JsString :=
  if c.toNat < 0x10000 then [c.toNat.toUInt16]
  else [(0xD800 + (c.toNat - 0x10000) / 0x400).toUInt16,
    (0xDC00 + (c.toNat - 0x10000) % 0x400).toUInt16]

/-- The code units of a text. -/
def units (s : String) : JsString := s.toList.flatMap unitsOfChar

lemma unitsOfChar_of_lt {c : Char} (h : c.toNat < 0x10000) :
    unitsOfChar c = [c.toNat.toUInt16] := if_pos h

lemma toNat_toUInt16 {n : ℕ} (h : n < 0x10000) : n.toUInt16.toNat = n :=
  (UInt16.toNat_ofNat' ..).trans (Nat.mod_eq_of_lt h)

lemma flatMap_unitsOfChar_inj {cs ds : List Char} (hcs : ∀ c ∈ cs, c.toNat < 0x10000)
    (hds : ∀ d ∈ ds, d.toNat < 0x10000) (h : cs.flatMap unitsOfChar = ds.flatMap unitsOfChar) :
    cs = ds := by
  induction cs generalizing ds with
  | nil =>
    cases ds with
    | nil => rfl
    | cons d ds =>
      rw [flatMap_cons, unitsOfChar_of_lt (hds d mem_cons_self)] at h
      cases h
  | cons c cs ih =>
    have hc := hcs c mem_cons_self
    cases ds with
    | nil =>
      rw [flatMap_cons, unitsOfChar_of_lt hc] at h
      cases h
    | cons d ds =>
      have hd := hds d mem_cons_self
      rw [flatMap_cons, flatMap_cons, unitsOfChar_of_lt hc, unitsOfChar_of_lt hd,
        singleton_append, singleton_append, List.cons.injEq] at h
      have hnat : c.toNat = d.toNat := by
        rw [← toNat_toUInt16 hc, ← toNat_toUInt16 hd, h.1]
      rw [Char.toNat_inj.1 hnat, ih (fun x hx => hcs x (mem_cons_of_mem c hx))
        (fun x hx => hds x (mem_cons_of_mem d hx)) h.2]

/-! ## Classes of code units -/

/-- `\d` -/
def isDigit (c : CodeUnit) : Bool := 48 ≤ c && c ≤ 57

/-- `[A-Z]` -/
def isUpper (c : CodeUnit) : Bool := 65 ≤ c && c ≤ 90

/-- `[a-z]` -/
def isLower (c : CodeUnit) : Bool := 97 ≤ c && c ≤ 122

/-- `[A-Za-z0-9]` -/
def isAlnum (c : CodeUnit) : Bool := isUpper c || isLower c || isDigit c

/-- `\w` -/
def isWord (c : CodeUnit) : Bool := isAlnum c || c == 95

/-- `\s` -/
def isSpace (c : CodeUnit) : Bool := JsText.isSpace (Char.ofNat c.toNat)

def oneOf (s : String) (c : CodeUnit) : Bool := (units s).contains c

/-- An ASCII letter in lower case; any other code unit as it is. -/
def toLower (c : CodeUnit) : CodeUnit := if isUpper c then c + 32 else c

/-- An ASCII letter in upper case; any other code unit as it is. -/
def toUpper (c : CodeUnit) : CodeUnit := if isLower c then c - 32 else c

/-! ## Searching and trimming -/

/-- `text.indexOf(needle, start)` -/
def indexOf (text needle : JsString) (start : ℕ) : Option ℕ :=
  (List.range' start (text.length + 1 - start)).find? fun i => needle.isPrefixOf (text.drop i)

lemma indexOf_spec {text needle : JsString} {start found : ℕ}
    (h : indexOf text needle start = some found) :
    start ≤ found ∧ found ≤ text.length ∧ needle <+: text.drop found := by
  have hmem := mem_range'_1.1 (mem_of_find?_eq_some h)
  have hprefix := find?_some h
  exact ⟨hmem.1, by omega, isPrefixOf_iff_prefix.1 hprefix⟩

lemma indexOf_cons (c : CodeUnit) (cs needle : JsString) :
    indexOf (c :: cs) needle 0 =
      if needle.isPrefixOf (c :: cs) then some 0 else (indexOf cs needle 0).map (1 + ·) := by
  have hshift : range' 1 (cs.length + 1) = (range' 0 (cs.length + 1)).map (1 + ·) :=
    (map_add_range' 0 _ 1).symm
  have hdrop : (fun i => needle.isPrefixOf ((c :: cs).drop i)) ∘ (1 + ·) =
      fun i => needle.isPrefixOf (cs.drop i) := by
    funext i
    rw [comp_apply, Nat.add_comm, drop_succ_cons]
  rw [indexOf, length_cons, Nat.sub_zero, range'_succ, find?_cons, Nat.zero_add,
    hshift, find?_map, hdrop, drop_zero, indexOf, Nat.sub_zero]
  cases needle.isPrefixOf (c :: cs) <;> rfl

/-- A search from behind a text looks at the rest only. -/
lemma indexOf_append (before text needle : JsString) :
    indexOf (before ++ text) needle before.length =
      (indexOf text needle 0).map (before.length + ·) := by
  have hshift : range' before.length (text.length + 1) =
      (range' 0 (text.length + 1)).map (before.length + ·) :=
    (map_add_range' 0 _ 1).symm
  have hdrop : (fun i => needle.isPrefixOf ((before ++ text).drop i)) ∘ (before.length + ·) =
      fun i => needle.isPrefixOf (text.drop i) := by
    funext i
    rw [comp_apply, drop_length_add_append]
  have hlen : (before ++ text).length + 1 - before.length = text.length + 1 := by
    rw [length_append]
    omega
  rw [indexOf, hlen, hshift, find?_map, hdrop, indexOf, Nat.sub_zero]

/-- Every run of white space becomes one space; `inRun` tells that the code unit before was white
space. -/
def collapseSpace : Bool → JsString → JsString
  | _, [] => []
  | inRun, c :: cs =>
    if isSpace c then if inRun then collapseSpace true cs else 32 :: collapseSpace true cs
    else c :: collapseSpace false cs

/-- `text.trim()` -/
def trim (text : JsString) : JsString :=
  ((text.dropWhile isSpace).reverse.dropWhile isSpace).reverse

/-! ## Patterns for words -/

/-- The pattern of a fixed word. -/
def word (s : String) : Regex CodeUnit := .lit (units s)

/-- The pattern of the words that are the given one up to the case of ASCII letters. -/
def foldedLit : JsString → Regex CodeUnit
  | [] => .empty
  | a :: w => .seq (.sym fun c => toLower c == toLower a) (foldedLit w)

/-- The pattern of a fixed word without regard to case. -/
def wordI (s : String) : Regex CodeUnit := foldedLit (units s)

/-- The pattern of any of several fixed words without regard to case. -/
def anyWordI (words : List String) : Regex CodeUnit := .alts (words.map wordI)

end Utf16
