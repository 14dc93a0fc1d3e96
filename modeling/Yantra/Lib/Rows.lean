import Mathlib.Data.List.Basic
import Mathlib.Data.List.Flatten

/-!
# Rows of cells

A table is written as lines, a line as cells with a separator between, and a separator inside a
cell is escaped. A reader undoes an escape before more symbols than the writer escapes, so a cell
is read back only where it has no escape symbol before such a symbol.

## Main definitions

* `Rows.escapeSep`, `Rows.row` — writing a row.
* `Rows.losesBefore` — an escape symbol that is lost in reading.

## Main results

* `Rows.cells_row` — a row of cells that lose nothing is read back.
* `Rows.row_reads_iff` — no other row is.
* `Rows.table_reads_iff` — a table is read back exactly when each of its rows is, on one line.
-/

namespace Rows

open List Option

universe u

structure Dialect (α : Type u) where
  sep : α
  esc : α
  pad : α
  lf : α
  cr : α
  /-- What an escape symbol takes its meaning from. -/
  escapable : α → Bool
  isSpace : α → Bool
  escapable_sep : escapable sep = true
  escapable_esc : escapable esc = true
  sep_ne_esc : sep ≠ esc
  pad_ne_lf : pad ≠ lf
  pad_ne_cr : pad ≠ cr
  lf_ne_cr : lf ≠ cr
  isSpace_pad : isSpace pad = true
  isSpace_lf : isSpace lf = true
  isSpace_cr : isSpace cr = true
  not_isSpace : ∀ c, escapable c = true → isSpace c = false

variable {α : Type u} [DecidableEq α] (d : Dialect α)

namespace Dialect

variable {d}

omit [DecidableEq α] in
lemma ne_of_isSpace {c e : α} (hc : d.isSpace c = true) (he : d.escapable e = true) : c ≠ e := by
  rintro rfl
  rw [d.not_isSpace c he] at hc
  cases hc

omit [DecidableEq α] in
lemma escapable_of_isSpace {c : α} (hc : d.isSpace c = true) : d.escapable c = false := by
  refine Bool.eq_false_iff.2 fun he => ?_
  exact ne_of_isSpace hc he rfl

end Dialect

/-! ## Writing -/

/-- Escape the separators of a cell. -/
def escapeSep (w : List α) : List α := w.flatMap fun c => if c = d.sep then [d.esc, c] else [c]

/-- A row of written cells. -/
def row (ws : List (List α)) : List α :=
  [d.sep, d.pad] ++ [d.pad, d.sep, d.pad].intercalate ws ++ [d.pad, d.sep]

/-! ## Reading -/

/-- A symbol as it is read. -/
inductive Token (α : Type u) where
  | sep
  | plain (c : α)
  | escaped (c : α)

/-- A symbol that no escape symbol stands before. -/
def token (c : α) : Token α := if c = d.sep then .sep else .plain c

/-- The symbols of a line: an escape symbol goes with an escapable one behind it. -/
def tokens : List α → List (Token α)
  | [] => []
  | [c] => [token d c]
  | c :: e :: text =>
    if c = d.esc ∧ d.escapable e = true then .escaped e :: tokens text
    else token d c :: tokens (e :: text)

/-- What a symbol adds to its cell. -/
def Token.text : Token α → List α
  | .sep => []
  | .plain c => [c]
  | .escaped c => [c]

def split : List (Token α) → List (List α)
  | [] => [[]]
  | .sep :: ts => [] :: split ts
  | .plain c :: ts => (split ts).modifyHead (c :: ·)
  | .escaped c :: ts => (split ts).modifyHead (c :: ·)

/-- The cells of a line: what stands between its outer separators, split at the others. -/
def cells (text : List α) : List (List α) := (split (tokens d text)).tail.dropLast

/-- The lines of a text, which end at LF, at CRLF or at CR. -/
def lines : List α → List (List α)
  | [] => [[]]
  | c :: cs =>
    if c = d.cr ∧ cs.head? = some d.lf then lines cs
    else if c = d.lf ∨ c = d.cr then [] :: lines cs
    else (lines cs).modifyHead (c :: ·)

def readTable (text : List α) : List (List (List α)) := (lines d text).map (cells d)

/-! ## What of a cell counts -/

/-- A symbol that escaping is about. -/
def isMark (c : α) : Bool := c = d.esc || c = d.sep

/-- What of a cell counts in comparing: neither the padding nor a lost mark goes unnoticed. -/
structure Folding where
  fold : List α → List (List α)
  fold_pad : ∀ w, fold (d.pad :: (w ++ [d.pad])) = fold w
  countP_fold : ∀ w, (fold w).flatten.countP (isMark d) = w.countP (isMark d)

/-- The words of a text; `word` is what was read of the current one. -/
def wordsFrom (isSpace : α → Bool) : List α → List α → List (List α)
  | word, [] => if word.isEmpty then [] else [word]
  | word, c :: cs =>
    if isSpace c then (if word.isEmpty then [] else [word]) ++ wordsFrom isSpace [] cs
    else wordsFrom isSpace (word ++ [c]) cs

/-- The words of a text: what is left of it when white space is folded. -/
def words (isSpace : α → Bool) (text : List α) : List (List α) := wordsFrom isSpace [] text

/-- Whether an escape symbol stands before a rest of the text that `next` holds of. -/
def losesBefore (next : List α → Bool) : List α → Bool
  | [] => false
  | c :: cs => c = d.esc && next cs || losesBefore next cs

def startsEscapable (text : List α) : Bool := text.head?.any d.escapable

/-- Whether reading a cell loses an escape symbol. -/
def loses : List α → Bool := losesBefore d (startsEscapable d)

/-! ## Line breaks in a cell -/

def startsBreak (text : List α) : Bool :=
  text.head? == some d.lf || text.head? == some d.cr && text.tail.head? == some d.lf

/-- Replace every LF and CRLF. -/
def breaksTo (instead : List α) : List α → List α
  | [] => []
  | c :: cs =>
    if c = d.cr ∧ cs.head? = some d.lf then breaksTo instead cs
    else if c = d.lf then instead ++ breaksTo instead cs
    else c :: breaksTo instead cs

/-- Whether a CR stands alone. -/
def loneCr : List α → Bool
  | [] => false
  | c :: cs => c = d.cr && cs.head? != some d.lf || loneCr cs

/-! ## Words -/

section Words

variable {isSpace : α → Bool}

omit [DecidableEq α] in
/-- The letters of the words are those of the text. -/
lemma flatten_wordsFrom (word text : List α) :
    (wordsFrom isSpace word text).flatten = word ++ text.filter fun c => !isSpace c := by
  induction text generalizing word with
  | nil =>
    rw [wordsFrom]
    split_ifs with hword
    · simp [List.isEmpty_iff.1 hword]
    · simp
  | cons c cs ih =>
    rw [wordsFrom]
    by_cases hc : isSpace c = true
    · rw [if_pos hc, flatten_append, ih, filter_cons_of_neg (by simp [hc])]
      split_ifs with hword
      · simp [List.isEmpty_iff.1 hword]
      · simp
    · rw [if_neg hc, ih, filter_cons_of_pos (by simpa using hc), append_assoc,
        singleton_append]

omit [DecidableEq α] in
lemma wordsFrom_append_space {c : α} (hc : isSpace c = true) (word text : List α) :
    wordsFrom isSpace word (text ++ [c]) = wordsFrom isSpace word text := by
  induction text generalizing word with
  | nil => simp [wordsFrom, hc]
  | cons e text ih => rw [List.cons_append, wordsFrom, wordsFrom, ih, ih]

omit [DecidableEq α] in
lemma words_cons_space {c : α} (hc : isSpace c = true) (text : List α) :
    words isSpace (c :: text) = words isSpace text := by
  rw [words, wordsFrom, if_pos hc]
  rfl

lemma countP_words (w : List α) :
    (words d.isSpace w).flatten.countP (isMark d) = w.countP (isMark d) := by
  rw [words, flatten_wordsFrom, nil_append, countP_filter]
  refine countP_congr fun c _ => ?_
  simp only [Bool.and_eq_true, Bool.not_eq_true', and_iff_left_iff_imp]
  intro hc
  simp only [isMark, Bool.or_eq_true, decide_eq_true_eq] at hc
  obtain rfl | rfl := hc
  · exact d.not_isSpace _ d.escapable_esc
  · exact d.not_isSpace _ d.escapable_sep

/-- Cells compared by their words. -/
def wordFolding : Folding d where
  fold := words d.isSpace
  fold_pad w := by
    rw [words_cons_space d.isSpace_pad, words, wordsFrom_append_space d.isSpace_pad, words]
  countP_fold := countP_words d

lemma wordsFrom_breaksTo (word text : List α) :
    wordsFrom d.isSpace word (breaksTo d [d.pad] text) = wordsFrom d.isSpace word text := by
  induction text generalizing word with
  | nil => rfl
  | cons c cs ih =>
    rw [breaksTo]
    split_ifs with hcr hlf
    · -- the LF behind the CR is the line break
      obtain ⟨rest, rfl⟩ : ∃ rest, cs = d.lf :: rest := by
        cases cs with
        | nil => simp at hcr
        | cons e rest => exact ⟨rest, by simpa using hcr.2⟩
      rw [ih, wordsFrom, wordsFrom, if_pos d.isSpace_lf, hcr.1, if_pos d.isSpace_cr, wordsFrom,
        if_pos d.isSpace_lf]
      rfl
    · rw [singleton_append, wordsFrom, if_pos d.isSpace_pad, ih, wordsFrom, hlf,
        if_pos d.isSpace_lf]
    · rw [wordsFrom, ih, ih, wordsFrom]

lemma words_breaksTo (text : List α) :
    words d.isSpace (breaksTo d [d.pad] text) = words d.isSpace text :=
  wordsFrom_breaksTo d [] text

end Words

/-! ## Reading what is written -/

section Row

omit [DecidableEq α] in
lemma split_ne_nil (ts : List (Token α)) : split ts ≠ [] := by
  induction ts with
  | nil => exact List.cons_ne_nil _ _
  | cons t ts ih =>
    cases t with
    | sep => exact List.cons_ne_nil _ _
    | plain c => simpa [split] using ih
    | escaped c => simpa [split] using ih

omit [DecidableEq α] in
lemma flatten_split (ts : List (Token α)) : (split ts).flatten = ts.flatMap Token.text := by
  induction ts with
  | nil => rfl
  | cons t ts ih =>
    obtain ⟨w, ws, hsplit⟩ := List.exists_cons_of_ne_nil (split_ne_nil ts)
    rw [List.flatMap_cons, ← ih]
    cases t with
    | sep => rfl
    | plain c => rw [split, hsplit]; rfl
    | escaped c => rw [split, hsplit]; rfl

variable {c : α}

lemma tokens_cons (hc : c ≠ d.esc) (text : List α) :
    tokens d (c :: text) = token d c :: tokens d text := by
  cases text with
  | nil => rfl
  | cons e text => rw [tokens, if_neg (fun h => hc h.1)]

variable {text : List α}

lemma tokens_esc (h : startsEscapable d text = false) :
    tokens d (d.esc :: text) = .plain d.esc :: tokens d text := by
  have htoken : token d d.esc = .plain d.esc := if_neg d.sep_ne_esc.symm
  cases text with
  | nil => simp [tokens, htoken]
  | cons e text =>
    have he : d.escapable e = false := by simpa [startsEscapable] using h
    rw [tokens, if_neg (by simp [he]), htoken]

omit [DecidableEq α] in
lemma pad_ne_esc : d.pad ≠ d.esc := Dialect.ne_of_isSpace d.isSpace_pad d.escapable_esc

omit [DecidableEq α] in
lemma pad_ne_sep : d.pad ≠ d.sep := Dialect.ne_of_isSpace d.isSpace_pad d.escapable_sep

lemma tokens_pad (text : List α) : tokens d (d.pad :: text) = .plain d.pad :: tokens d text := by
  rw [tokens_cons d (pad_ne_esc d), token, if_neg (pad_ne_sep d)]

lemma tokens_sep (text : List α) : tokens d (d.sep :: text) = .sep :: tokens d text := by
  rw [tokens_cons d d.sep_ne_esc, token, if_pos rfl]

/-- The symbols of a cell that loses nothing. -/
def wordTokens (w : List α) : List (Token α) :=
  w.map fun c => if c = d.sep then .escaped c else .plain c

lemma startsEscapable_escapeSep (w text : List α) :
    startsEscapable d (escapeSep d w ++ d.pad :: text) = startsEscapable d w := by
  cases w with
  | nil => simp [startsEscapable, escapeSep, Dialect.escapable_of_isSpace d.isSpace_pad]
  | cons c cs =>
    by_cases hc : c = d.sep
    · simp [startsEscapable, escapeSep, hc, d.escapable_esc, d.escapable_sep]
    · simp [startsEscapable, escapeSep, hc]

variable (w : List α)

lemma escapeSep_cons_sep :
    escapeSep d (d.sep :: w) = d.esc :: d.sep :: escapeSep d w := by
  rw [escapeSep, flatMap_cons, if_pos rfl]
  rfl

lemma escapeSep_cons (hc : c ≠ d.sep) (w : List α) :
    escapeSep d (c :: w) = c :: escapeSep d w := by
  rw [escapeSep, flatMap_cons, if_neg hc]
  rfl

/-- An escaped cell that loses nothing is read symbol by symbol.

**Proof sketch.** Induction on the cell: what is behind an escape symbol of the cell is not
escapable, and a separator goes with the escape symbol put before it. -/
lemma tokens_escapeSep {w : List α} (h : loses d w = false) (text : List α) :
    tokens d (escapeSep d w ++ d.pad :: text) =
      wordTokens d w ++ .plain d.pad :: tokens d text := by
  induction w with
  | nil => exact tokens_pad d text
  | cons c cs ih =>
    rw [loses, losesBefore, Bool.or_eq_false_iff] at h
    rw [wordTokens, map_cons, cons_append, ← wordTokens, ← ih h.2]
    by_cases hsep : c = d.sep
    · rw [hsep, escapeSep_cons_sep, if_pos rfl, cons_append, cons_append, tokens,
        if_pos ⟨rfl, d.escapable_sep⟩]
    · rw [escapeSep_cons d hsep, if_neg hsep, cons_append]
      by_cases hesc : c = d.esc
      · have hnext : startsEscapable d cs = false := by simpa [hesc] using h.1
        rw [hesc, tokens_esc d (by rw [startsEscapable_escapeSep, hnext])]
      · rw [tokens_cons d hesc, token, if_neg hsep]

lemma split_wordTokens (ts : List (Token α)) :
    split (wordTokens d w ++ ts) = (split ts).modifyHead (w ++ ·) := by
  obtain ⟨v, vs, hsplit⟩ := exists_cons_of_ne_nil (split_ne_nil ts)
  induction w with
  | nil => rw [hsplit]; exact hsplit
  | cons c cs ih =>
    rw [wordTokens, map_cons, cons_append, ← wordTokens]
    split_ifs with hc
    · rw [split, ih, hsplit]; rfl
    · rw [split, ih, hsplit]; rfl

omit [DecidableEq α] in
lemma row_eq {ws : List (List α)} (h : ws ≠ []) :
    row d ws = d.sep :: ws.flatMap fun w => d.pad :: (w ++ [d.pad, d.sep]) := by
  have hrest : ∀ (w : List α) (vs : List (List α)),
      [d.pad, d.sep, d.pad].intercalate (w :: vs) ++ [d.pad, d.sep] =
        w ++ [d.pad, d.sep] ++ vs.flatMap fun w => d.pad :: (w ++ [d.pad, d.sep]) := by
    intro w vs
    induction vs generalizing w with
    | nil => simp
    | cons v vs ih => rw [List.intercalate_cons_cons, List.append_assoc, ih]; simp
  obtain ⟨w, vs, rfl⟩ := List.exists_cons_of_ne_nil h
  rw [row, List.append_assoc, hrest, List.flatMap_cons]
  simp

variable {ws : List (List α)}

/-- **A row of cells that lose nothing is read back,** but for the padding. -/
theorem cells_row (hne : ws ≠ []) (h : ∀ w ∈ ws, loses d w = false) :
    cells d (row d (ws.map (escapeSep d))) = ws.map fun w => d.pad :: (w ++ [d.pad]) := by
  have hread : ∀ vs : List (List α), (∀ w ∈ vs, loses d w = false) →
      split (tokens d ((vs.map (escapeSep d)).flatMap fun w => d.pad :: (w ++ [d.pad, d.sep]))) =
        (vs.map fun w => d.pad :: (w ++ [d.pad])) ++ [[]] := by
    intro vs hvs
    induction vs with
    | nil => rfl
    | cons w vs ih =>
      obtain ⟨hw, hvs⟩ := forall_mem_cons.1 hvs
      rw [map_cons, flatMap_cons, cons_append, append_assoc, tokens_pad]
      rw [cons_append, cons_append, nil_append, tokens_escapeSep d hw, tokens_sep,
        split, split_wordTokens, split, split, ih hvs]
      rfl
  rw [row_eq d (by simpa using hne), cells, tokens_sep, split, tail_cons, hread ws h,
    dropLast_concat]

/-! ## No other row is read back -/

/-- A symbol that lost an escape symbol which no escaping put there. -/
def Token.isForeign : Token α → Bool
  | .escaped c => c != d.sep
  | _ => false

/-- **What is read holds a mark for every escape symbol but the lost ones.** -/
lemma countP_tokens (text : List α) :
    ((tokens d text).flatMap Token.text).countP (isMark d) + (tokens d text).countP
    (Token.isForeign d) = text.countP (· = d.esc) := by
  have htoken : ∀ c, ((token d c).text.countP (isMark d)) + [token d c].countP (Token.isForeign d) =
      [c].countP (· = d.esc) := by
    intro c
    by_cases hsep : c = d.sep
    · simp [token, hsep, Token.text, Token.isForeign, d.sep_ne_esc]
    · simp [token, hsep, Token.text, Token.isForeign, isMark, countP_singleton]
  induction text using tokens.induct d with
  | case1 => rfl
  | case2 c => simpa [tokens] using htoken c
  | case3 c e text h ih =>
    rw [tokens, if_pos h, flatMap_cons, countP_append, countP_cons,
      countP_cons (a := c), countP_cons (a := e), ← ih, h.1]
    by_cases hsep : e = d.sep
    · simp [Token.text, Token.isForeign, isMark, hsep, d.sep_ne_esc]
      omega
    · simp [Token.text, Token.isForeign, isMark, hsep, countP_singleton]
      omega
  | case4 c e text h ih =>
    have hc := htoken c
    rw [countP_singleton, countP_singleton] at hc
    rw [tokens, if_neg h, flatMap_cons, countP_append, countP_cons,
      countP_cons (a := c), ← ih, ← hc]
    omega

/-- The number of symbols of a text that lost an escape symbol of the text itself. -/
def foreign (text : List α) : ℕ := (tokens d text).countP (Token.isForeign d)

lemma foreign_cons (hc : c ≠ d.esc) (text : List α) :
    foreign d (c :: text) = foreign d text := by
  have htoken : Token.isForeign d (token d c) = false := by
    rw [token]
    split_ifs <;> rfl
  rw [foreign, tokens_cons d hc, countP_cons_of_neg (by simp [htoken]), foreign]

lemma foreign_esc_sep (text : List α) :
    foreign d (d.esc :: d.sep :: text) = foreign d text := by
  rw [foreign, tokens, if_pos ⟨rfl, d.escapable_sep⟩,
    countP_cons_of_neg (by simp [Token.isForeign]), foreign]

lemma foreign_esc (h : startsEscapable d text) (hsep : text.head? ≠ some d.sep) :
    0 < foreign d (d.esc :: text) := by
  cases text with
  | nil => cases h
  | cons e text =>
    have he : d.escapable e = true := by simpa [startsEscapable] using h
    rw [foreign, tokens, if_pos ⟨rfl, he⟩, countP_cons_of_pos]
    · omega
    · simpa [Token.isForeign] using hsep

lemma head?_escapeSep (w text : List α) :
    (escapeSep d w ++ d.pad :: text).head? ≠ some d.sep := by
  cases w with
  | nil => simpa [escapeSep] using pad_ne_sep d
  | cons c cs =>
    by_cases hc : c = d.sep
    · rw [hc, escapeSep_cons_sep]
      simpa using d.sep_ne_esc.symm
    · rw [escapeSep_cons d hc]
      simpa using hc

/-- Where nothing is lost in reading a written cell, the cell loses nothing.

**Proof sketch.** Induction on the cell. Up to its first lost escape symbol the reader sees what
was written, so there it sees that symbol with one behind it that is no separator. -/
lemma loses_of_foreign {w text : List α} (h : foreign d (escapeSep d w ++ d.pad :: text) = 0) :
    loses d w = false ∧ foreign d text = 0 := by
  induction w with
  | nil => exact ⟨rfl, by rwa [escapeSep, List.flatMap_nil, nil_append,
      foreign_cons d (pad_ne_esc d)] at h⟩
  | cons c cs ih =>
    rw [loses, losesBefore, Bool.or_eq_false_iff, ← loses]
    by_cases hsep : c = d.sep
    · rw [hsep, escapeSep_cons_sep, cons_append, cons_append, foreign_esc_sep] at h
      exact ⟨⟨by simp [hsep, d.sep_ne_esc], (ih h).1⟩, (ih h).2⟩
    · rw [escapeSep_cons d hsep, cons_append] at h
      by_cases hesc : c = d.esc
      · rw [hesc] at h
        have hnext : startsEscapable d cs = false := by
          refine Bool.eq_false_iff.2 fun hcs => ?_
          have hpos : 0 < foreign d (d.esc :: (escapeSep d cs ++ d.pad :: text)) :=
            foreign_esc d (by rw [startsEscapable_escapeSep, hcs]) (head?_escapeSep d cs text)
          omega
        have hread : foreign d (escapeSep d cs ++ d.pad :: text) = 0 := by
          rw [foreign, tokens_esc d (by rw [startsEscapable_escapeSep, hnext]),
            countP_cons_of_neg (by simp [Token.isForeign])] at h
          exact h
        exact ⟨⟨by simp [hnext], (ih hread).1⟩, (ih hread).2⟩
      · rw [foreign_cons d hesc] at h
        exact ⟨⟨by simp [hesc], (ih h).1⟩, (ih h).2⟩

lemma countP_escapeSep :
    (escapeSep d w).countP (· = d.esc) = w.countP (isMark d) := by
  induction w with
  | nil => rfl
  | cons c cs ih =>
    by_cases hc : c = d.sep
    · rw [hc, escapeSep_cons_sep, countP_cons, countP_cons, ih, countP_cons]
      simp [isMark, d.sep_ne_esc]
    · rw [escapeSep_cons d hc, countP_cons, ih, countP_cons]
      simp [isMark, hc]

lemma countP_row (h : ws ≠ []) :
    (row d (ws.map (escapeSep d))).countP (· = d.esc) = ws.flatten.countP (isMark d) := by
  rw [row_eq d (by simpa using h), countP_cons_of_neg (by simp [d.sep_ne_esc])]
  clear h
  induction ws with
  | nil => rfl
  | cons w ws ih =>
    rw [map_cons, flatMap_cons, countP_append, ih, flatten_cons,
      countP_append]
    simp [countP_append, countP_escapeSep, pad_ne_esc, d.sep_ne_esc]

lemma countP_flatten_map (f : Folding d) (ws : List (List α)) :
    (ws.map f.fold).flatten.flatten.countP (isMark d) = ws.flatten.countP (isMark d) := by
  induction ws with
  | nil => rfl
  | cons w ws ih =>
    rw [map_cons, flatten_cons, flatten_append, countP_append, f.countP_fold,
      ih, flatten_cons, countP_append]

lemma countP_cells_le (text : List α) :
    (cells d text).flatten.countP (isMark d) ≤ ((tokens d text).flatMap Token.text).countP
    (isMark d) := by
  rw [← flatten_split]
  exact Sublist.countP_le
    (((dropLast_sublist _).trans (tail_sublist _)).flatten)

/-- **A row is read back exactly when its cells lose nothing.**

**Proof sketch.** A lost escape symbol is missing among the marks that are read, while those of a
row that is read back are all there. -/
theorem row_reads_iff (f : Folding d) (ws : List (List α)) :
    (cells d (row d (ws.map (escapeSep d)))).map f.fold = ws.map f.fold ↔
      ws ≠ [] ∧ ∀ w ∈ ws, loses d w = false := by
  by_cases hne : ws = []
  · subst hne
    have hrow : row d (([] : List (List α)).map (escapeSep d)) = [d.sep, d.pad, d.pad, d.sep] := rfl
    rw [hrow, cells, tokens_sep, tokens_pad, tokens_pad, tokens_sep]
    simp [tokens, split]
  constructor
  · intro hread
    have hmarks : (cells d (row d (ws.map (escapeSep d)))).flatten.countP (isMark d) =
        ws.flatten.countP (isMark d) := by
      rw [← countP_flatten_map d f, hread, countP_flatten_map]
    have htokens := countP_tokens d (row d (ws.map (escapeSep d)))
    have hle := countP_cells_le d (row d (ws.map (escapeSep d)))
    rw [countP_row d hne] at htokens
    have hforeign : foreign d (row d (ws.map (escapeSep d))) = 0 := by
      rw [foreign]
      omega
    rw [row_eq d (by simpa using hne), foreign_cons d d.sep_ne_esc] at hforeign
    refine ⟨hne, ?_⟩
    clear hread hmarks htokens hle hne
    induction ws with
    | nil => simp
    | cons w ws ih =>
      rw [map_cons, flatMap_cons, cons_append, append_assoc,
        foreign_cons d (pad_ne_esc d), cons_append, cons_append, nil_append]
        at hforeign
      obtain ⟨hw, hws⟩ := loses_of_foreign d hforeign
      rw [foreign_cons d d.sep_ne_esc] at hws
      exact forall_mem_cons.2 ⟨hw, ih hws⟩
  · rintro ⟨_, h⟩
    rw [cells_row d hne h, List.map_map]
    exact map_congr_left fun w _ => f.fold_pad w

end Row

/-! ## Lines -/

section Lines

lemma lines_ne_nil (text : List α) : lines d text ≠ [] := by
  induction text with
  | nil => exact cons_ne_nil _ _
  | cons c cs ih =>
    rw [lines]
    split_ifs
    · exact ih
    · exact cons_ne_nil _ _
    · simpa using ih

variable {c : α}

lemma lines_cons (hlf : c ≠ d.lf) (hcr : c ≠ d.cr) (text : List α) :
    lines d (c :: text) = (lines d text).modifyHead (c :: ·) := by
  rw [lines, if_neg (fun h => hcr h.1), if_neg (by simp [hlf, hcr])]

lemma lines_lf (text : List α) : lines d (d.lf :: text) = [] :: lines d text := by
  rw [lines, if_neg (fun h => d.lf_ne_cr h.1), if_pos (.inl rfl)]

lemma lines_append {r : List α} (hlf : d.lf ∉ r) (hcr : d.cr ∉ r) (text : List α) :
    lines d (r ++ text) = (lines d text).modifyHead (r ++ ·) := by
  obtain ⟨v, vs, hlines⟩ := exists_cons_of_ne_nil (lines_ne_nil d text)
  induction r with
  | nil => rw [hlines]; exact hlines
  | cons c cs ih =>
    rw [mem_cons, not_or] at hlf hcr
    rw [cons_append, lines_cons d (Ne.symm hlf.1) (Ne.symm hcr.1), ih hlf.2 hcr.2, hlines]
    rfl

/-- Rows without line endings are the lines of the text they are joined to. -/
lemma lines_intercalate {rs : List (List α)} (hne : rs ≠ []) (h : ∀ r ∈ rs, d.lf ∉ r ∧ d.cr ∉ r) :
    lines d ([d.lf].intercalate rs) = rs := by
  obtain ⟨r, rs, rfl⟩ := exists_cons_of_ne_nil hne
  clear hne
  induction rs generalizing r with
  | nil =>
    obtain ⟨hlf, hcr⟩ := h r (mem_singleton_self r)
    rw [intercalate_singleton, ← append_nil r, lines_append d hlf hcr]
    rfl
  | cons s rs ih =>
    obtain ⟨⟨hlf, hcr⟩, hrs⟩ := forall_mem_cons.1 h
    rw [intercalate_cons_cons, append_assoc, lines_append d hlf hcr,
      singleton_append, lines_lf, ih s hrs, modifyHead_cons, append_nil]

/-- Every CR of a row that does not end in one begins a line of its own. -/
lemma length_lines_append {r text : List α} (hlf : d.lf ∉ r) (hc : c ≠ d.lf) :
    (lines d (r ++ c :: text)).length = r.countP (· = d.cr) + (lines d (c :: text)).length := by
  induction r with
  | nil => simp
  | cons e r ih =>
    rw [mem_cons, not_or] at hlf
    rw [cons_append]
    by_cases hecr : e = d.cr
    · have hnext : (r ++ c :: text).head? ≠ some d.lf := by
        cases r with
        | nil => simpa using hc
        | cons b r =>
          rw [mem_cons, not_or] at hlf
          simpa using Ne.symm hlf.2.1
      rw [lines, if_neg (fun h => hnext h.2), if_pos (.inr hecr), length_cons, ih hlf.2,
        countP_cons_of_pos (by simpa using hecr)]
      omega
    · rw [lines_cons d (Ne.symm hlf.1) hecr, length_modifyHead, ih hlf.2,
        countP_cons_of_neg (by simpa using hecr)]

/-- Rows that end in `c` are at most as many as the lines they are joined to, and more lines than
rows there are where a row has a CR. -/
lemma length_lines_intercalate (rs : List (List α)) (hc : c ≠ d.lf) (hcr : c ≠ d.cr) (hne : rs ≠ [])
    (h : ∀ r ∈ rs, d.lf ∉ r) :
    (lines d ([d.lf].intercalate (rs.map (· ++ [c])))).length =
      rs.length + rs.flatten.countP (· = d.cr) := by
  have hcons : ∀ text, (lines d (c :: text)).length = (lines d text).length := by
    intro text
    rw [lines_cons d hc hcr, length_modifyHead]
  obtain ⟨r, rs, rfl⟩ := exists_cons_of_ne_nil hne
  clear hne
  induction rs generalizing r with
  | nil =>
    have hlf := h r (mem_singleton_self r)
    rw [map_singleton, intercalate_singleton, length_lines_append d hlf hc, hcons]
    simp [lines]
    omega
  | cons s rs ih =>
    obtain ⟨hlf, hrs⟩ := forall_mem_cons.1 h
    have hrest := ih s hrs
    rw [map_cons] at hrest
    rw [map_cons, map_cons, intercalate_cons_cons, append_assoc,
      append_assoc, singleton_append, length_lines_append d hlf hc, hcons,
      singleton_append, lines_lf, length_cons, hrest, flatten_cons (l := r),
      countP_append, length_cons (a := r)]
    omega

end Lines

/-! ## Tables -/

section Table

def table (rows : List (List (List α))) : List α :=
  [d.lf].intercalate (rows.map fun ws => row d (ws.map (escapeSep d)))

lemma mem_row {c : α} (hspace : d.isSpace c) (hpad : d.pad ≠ c) (ws : List (List α)) :
    c ∈ row d (ws.map (escapeSep d)) ↔ ∃ w ∈ ws, c ∈ w := by
  have hsep : c ≠ d.sep := Dialect.ne_of_isSpace hspace d.escapable_sep
  have hesc : c ≠ d.esc := Dialect.ne_of_isSpace hspace d.escapable_esc
  have hword : ∀ w : List α, c ∈ escapeSep d w ↔ c ∈ w := by
    intro w
    induction w with
    | nil => exact Iff.rfl
    | cons e w ih =>
      by_cases he : e = d.sep
      · rw [he, escapeSep_cons_sep]
        simp [ih, hsep, hesc]
      · rw [escapeSep_cons d he]
        simp [ih]
  by_cases hne : ws = []
  · subst hne
    simp [row, hsep, Ne.symm hpad]
  · rw [row_eq d (by simpa using hne)]
    simp [hsep, Ne.symm hpad, hword, mem_flatMap]

omit [DecidableEq α] in
lemma row_eq_concat (ws : List (List α)) : ∃ r, row d ws = r ++ [d.sep] :=
  ⟨[d.sep, d.pad] ++ [d.pad, d.sep, d.pad].intercalate ws ++ [d.pad], by simp [row]⟩

/-- **A table is read back exactly when its rows have cells, which lose nothing and no CR.**

**Proof sketch.** Without a CR the lines are the rows. With one there are more lines than rows. -/
theorem table_reads_iff (f : Folding d) {rows : List (List (List α))} (hne : rows ≠ [])
    (hlf : ∀ ws ∈ rows, ∀ w ∈ ws, d.lf ∉ w) :
    (readTable d (table d rows)).map (List.map f.fold) = rows.map (List.map f.fold) ↔
      ∀ ws ∈ rows, ws ≠ [] ∧ ∀ w ∈ ws, loses d w = false ∧ d.cr ∉ w := by
  have hrow : ∀ ws ∈ rows, d.lf ∉ row d (ws.map (escapeSep d)) := by
    intro ws hws hmem
    obtain ⟨w, hw, hin⟩ := (mem_row d d.isSpace_lf d.pad_ne_lf ws).1 hmem
    exact hlf ws hws w hw hin
  by_cases hcr : ∀ ws ∈ rows, ∀ w ∈ ws, d.cr ∉ w
  · have hlines : lines d (table d rows) = rows.map fun ws => row d (ws.map (escapeSep d)) := by
      refine lines_intercalate d (by simpa using hne) fun r hr => ?_
      obtain ⟨ws, hws, rfl⟩ := List.mem_map.1 hr
      refine ⟨hrow ws hws, fun hmem => ?_⟩
      obtain ⟨w, hw, hin⟩ := (mem_row d d.isSpace_cr d.pad_ne_cr ws).1 hmem
      exact hcr ws hws w hw hin
    rw [readTable, hlines, List.map_map, List.map_map, map_inj_left]
    refine forall₂_congr fun ws hws => ?_
    rw [Function.comp_apply, Function.comp_apply, row_reads_iff]
    refine and_congr_right fun _ => forall₂_congr fun w hw => ?_
    rw [and_iff_left (hcr ws hws w hw)]
  · refine iff_of_false (fun hread => hcr fun ws hws w hw hmem => ?_)
      fun h => hcr fun ws hws w hw => ((h ws hws).2 w hw).2
    -- every row without its last separator
    choose cut hcut using row_eq_concat d
    have hjoin : table d rows = [d.lf].intercalate
        ((rows.map fun ws => cut (ws.map (escapeSep d))).map (· ++ [d.sep])) := by
      rw [table, List.map_map]
      congr 1
      exact map_congr_left fun ws _ => hcut _
    have hspace : ∀ c, d.isSpace c = true → c ≠ d.sep := fun c hc =>
      Dialect.ne_of_isSpace hc d.escapable_sep
    have hlength := length_lines_intercalate d (c := d.sep)
      (rows.map fun ws => cut (ws.map (escapeSep d)))
      (hspace _ d.isSpace_lf).symm (hspace _ d.isSpace_cr).symm (by simpa using hne) (by
        intro r hr hin
        obtain ⟨ws, hws, rfl⟩ := List.mem_map.1 hr
        exact hrow ws hws (by rw [hcut]; exact mem_append_left _ hin))
    rw [← hjoin, length_map] at hlength
    have hlen := congrArg List.length hread
    rw [readTable, length_map, length_map, length_map, hlength] at hlen
    have hzero : (rows.map fun ws => cut (ws.map (escapeSep d))).flatten.countP (· = d.cr) = 0 := by
      omega
    rw [countP_eq_zero] at hzero
    have hin : d.cr ∈ row d (ws.map (escapeSep d)) :=
      (mem_row d d.isSpace_cr d.pad_ne_cr ws).2 ⟨w, hw, hmem⟩
    rw [hcut, mem_append, mem_singleton, or_iff_left (hspace _ d.isSpace_cr)] at hin
    exact hzero d.cr (mem_flatten.2 ⟨_, List.mem_map_of_mem hws, hin⟩) (by simp)

end Table

/-! ## Line breaks in a cell -/

section Breaks

variable {d}

variable {instead : List α}

variable {cs : List α}

lemma breaksTo_cons {c : α} (h : startsBreak d (c :: cs) = false) :
    breaksTo d instead (c :: cs) = c :: breaksTo d instead cs := by
  simp only [startsBreak, head?_cons, tail_cons, Bool.or_eq_false_iff,
    beq_eq_false_iff_ne, ne_eq, some.injEq, Bool.and_eq_false_iff] at h
  rw [breaksTo, if_neg (fun hcr => h.2.elim (· hcr.1) (· hcr.2)), if_neg h.1]

variable {text : List α}

lemma breaksTo_of_startsBreak (instead : List α) (h : startsBreak d text) :
    ∃ rest, breaksTo d instead text = instead ++ breaksTo d instead rest ∧
      (text = d.lf :: rest ∨ text = d.cr :: d.lf :: rest) := by
  have hlf : ∀ rest, breaksTo d instead (d.lf :: rest) = instead ++ breaksTo d instead rest :=
    fun rest => by rw [breaksTo, if_neg (fun h => d.lf_ne_cr h.1), if_pos rfl]
  match text with
  | [] => cases h
  | c :: cs =>
    simp only [startsBreak, head?_cons, tail_cons, Bool.or_eq_true, beq_iff_eq,
      some.injEq, Bool.and_eq_true] at h
    obtain rfl | ⟨rfl, hnext⟩ := h
    · exact ⟨cs, hlf cs, .inl rfl⟩
    · obtain ⟨rest, rfl⟩ := head?_eq_some_iff.1 hnext
      exact ⟨rest, by rw [breaksTo, if_pos ⟨rfl, hnext⟩, hlf], .inr rfl⟩

lemma breaks_induction {motive : List α → Prop} (nil : motive [])
    (lf : ∀ rest, motive rest → motive (d.lf :: rest))
    (crlf : ∀ rest, motive (d.lf :: rest) → motive (d.cr :: d.lf :: rest))
    (other : ∀ c cs, startsBreak d (c :: cs) = false → motive cs → motive (c :: cs)) (text : List α)
    : motive text := by
  induction text with
  | nil => exact nil
  | cons c cs ih =>
    cases hbreak : startsBreak d (c :: cs) with
    | false => exact other c cs hbreak ih
    | true =>
      obtain ⟨rest, _, heq | heq⟩ := breaksTo_of_startsBreak [] hbreak
      · cases heq
        exact lf cs ih
      · cases heq
        exact crlf rest ih

lemma breaksTo_lf (instead rest : List α) :
    breaksTo d instead (d.lf :: rest) = instead ++ breaksTo d instead rest := by
  rw [breaksTo, if_neg (fun h => d.lf_ne_cr h.1), if_pos rfl]

lemma breaksTo_crlf (instead rest : List α) :
    breaksTo d instead (d.cr :: d.lf :: rest) = breaksTo d instead (d.lf :: rest) := by
  rw [breaksTo, if_pos ⟨rfl, rfl⟩]

lemma ne_of_not_startsBreak {c : α} (h : startsBreak d (c :: cs) = false) :
    c ≠ d.lf ∧ (c = d.cr → cs.head? ≠ some d.lf) := by
  simpa [startsBreak] using h

lemma breaksTo_eq_self {instead text : List α} (h : d.lf ∉ text) :
    breaksTo d instead text = text := by
  induction text using breaks_induction (d := d) with
  | nil => rfl
  | lf rest ih => exact absurd mem_cons_self h
  | crlf rest ih => exact absurd (mem_cons_of_mem _ mem_cons_self) h
  | other c cs hbreak ih =>
    rw [breaksTo_cons hbreak, ih fun hmem => h (mem_cons_of_mem _ hmem)]

lemma escapeSep_eq_self (h : d.sep ∉ text) : escapeSep d text = text := by
  induction text with
  | nil => rfl
  | cons c cs ih =>
    rw [mem_cons, not_or] at h
    rw [escapeSep_cons d (Ne.symm h.1), ih h.2]

/-- Escaping separators and replacing line breaks go in either order. -/
lemma breaksTo_escapeSep (text : List α) :
    breaksTo d [d.pad] (escapeSep d text) = escapeSep d (breaksTo d [d.pad] text) := by
  have hsep : ∀ c, d.isSpace c = true → c ≠ d.sep := fun c hc =>
    Dialect.ne_of_isSpace hc d.escapable_sep
  have hesc : ∀ c, d.isSpace c = true → c ≠ d.esc := fun c hc =>
    Dialect.ne_of_isSpace hc d.escapable_esc
  induction text using breaks_induction (d := d) with
  | nil => rfl
  | lf rest ih =>
    rw [escapeSep_cons d (hsep _ d.isSpace_lf), breaksTo_lf, ih, breaksTo_lf, singleton_append,
      singleton_append, escapeSep_cons d (hsep _ d.isSpace_pad)]
  | crlf rest ih =>
    rw [escapeSep_cons d (hsep _ d.isSpace_cr), escapeSep_cons d (hsep _ d.isSpace_lf),
      breaksTo_crlf, breaksTo_crlf, ← ih, escapeSep_cons d (hsep _ d.isSpace_lf)]
  | other c cs hbreak ih =>
    obtain ⟨hlf, hcr⟩ := ne_of_not_startsBreak hbreak
    by_cases hc : c = d.sep
    · have hnone : ∀ t, startsBreak d (d.sep :: t) = false := fun t => by
        simp [startsBreak, (hsep _ d.isSpace_lf).symm, (hsep _ d.isSpace_cr).symm]
      have hnone' : ∀ t, startsBreak d (d.esc :: t) = false := fun t => by
        simp [startsBreak, (hesc _ d.isSpace_lf).symm, (hesc _ d.isSpace_cr).symm]
      rw [hc, escapeSep_cons_sep, breaksTo_cons (hnone' _), breaksTo_cons (hnone _), ih,
        breaksTo_cons (hnone _), escapeSep_cons_sep]
    · have hhead : (escapeSep d cs).head? = some d.lf → cs.head? = some d.lf := by
        cases cs with
        | nil => exact id
        | cons e cs =>
          by_cases he : e = d.sep
          · rw [he, escapeSep_cons_sep]
            simp [(hesc _ d.isSpace_lf).symm]
          · rw [escapeSep_cons d he]
            exact id
      have hnone : startsBreak d (c :: escapeSep d cs) = false := by
        simp only [startsBreak, head?_cons, tail_cons, some.injEq,
          Bool.or_eq_false_iff, beq_eq_false_iff_ne, ne_eq, Bool.and_eq_false_iff]
        refine ⟨hlf, ?_⟩
        by_cases hccr : c = d.cr
        · exact .inr fun h => hcr hccr (hhead h)
        · exact .inl hccr
      rw [escapeSep_cons d hc, breaksTo_cons hnone, ih, breaksTo_cons hbreak,
        escapeSep_cons d hc]

lemma not_mem_breaksTo (h : d.lf ∉ instead) (text : List α) :
    d.lf ∉ breaksTo d instead text := by
  induction text using breaks_induction (d := d) with
  | nil => simp [breaksTo]
  | lf rest ih => simp [breaksTo_lf, h, ih]
  | crlf rest ih => rwa [breaksTo_crlf]
  | other c cs hbreak ih =>
    rw [breaksTo_cons hbreak]
    simpa [ih] using (ne_of_not_startsBreak hbreak).1.symm

lemma mem_breaksTo (h : d.cr ∉ instead) (text : List α) :
    d.cr ∈ breaksTo d instead text ↔ loneCr d text := by
  induction text using breaks_induction (d := d) with
  | nil => simp [breaksTo, loneCr]
  | lf rest ih => simp [breaksTo_lf, h, ih, loneCr, d.lf_ne_cr]
  | crlf rest ih => simp [breaksTo_crlf, ih, loneCr]
  | other c cs hbreak ih =>
    rw [breaksTo_cons hbreak, mem_cons, ih, loneCr, Bool.or_eq_true]
    refine or_congr ?_ Iff.rfl
    simp only [Bool.and_eq_true, decide_eq_true_eq, bne_iff_ne]
    exact ⟨fun hc => ⟨hc.symm, (ne_of_not_startsBreak hbreak).2 hc.symm⟩, fun hc => hc.1.symm⟩

variable {e : α}

lemma startsEscapable_breaksTo (text : List α) :
    startsEscapable d (breaksTo d (e :: instead) text) =
      (startsEscapable d text || startsBreak d text && d.escapable e) := by
  have hlf : d.escapable d.lf = false := Dialect.escapable_of_isSpace d.isSpace_lf
  have hcr : d.escapable d.cr = false := Dialect.escapable_of_isSpace d.isSpace_cr
  cases hbreak : startsBreak d text with
  | true =>
    obtain ⟨rest, heq, rfl | rfl⟩ := breaksTo_of_startsBreak (e :: instead) hbreak
    · simp [heq, startsEscapable, hlf]
    · simp [heq, startsEscapable, hcr]
  | false =>
    cases text with
    | nil => rfl
    | cons c cs => rw [breaksTo_cons hbreak]; simp [startsEscapable]

/-- **Replacing line breaks loses escape symbols before them** where the replacement begins with an
escapable symbol, and no others. -/
lemma loses_breaksTo (hinstead : ∀ rest, loses d (e :: instead ++ rest) = loses d rest)
    (text : List α) :
    loses d (breaksTo d (e :: instead) text) =
      losesBefore d (fun rest => startsEscapable d rest || startsBreak d rest && d.escapable e)
        text := by
  have hesc : ∀ c, d.isSpace c = true → c ≠ d.esc := fun c hc =>
    Dialect.ne_of_isSpace hc d.escapable_esc
  induction text using breaks_induction (d := d) with
  | nil => rfl
  | lf rest ih => rw [breaksTo_lf, hinstead, ih]; simp [losesBefore, hesc _ d.isSpace_lf]
  | crlf rest ih => rw [breaksTo_crlf, ih]; simp [losesBefore, hesc _ d.isSpace_cr]
  | other c cs hbreak ih =>
    rw [breaksTo_cons hbreak, loses, losesBefore, ← loses, ih, startsEscapable_breaksTo,
      losesBefore]

end Breaks

/-! ## Tables of cells with line breaks -/

section Cells

variable (f : Folding d)

/-- Reading the text gives the cells back, as far as they count. -/
def ReadsBack (text : List α) (rows : List (List (List α))) : Prop :=
  (readTable d text).map (List.map f.fold) = rows.map (List.map f.fold)

/-- Every row has a cell, and no cell has a lone CR or an escape symbol before a rest of the cell
that `next` holds of. -/
def Kept (next : List α → Bool) (rows : List (List (List α))) : Prop :=
  ∀ ws ∈ rows, ws ≠ [] ∧ ∀ w ∈ ws, losesBefore d next w = false ∧ loneCr d w = false

/-- **A table whose cells have their line breaks replaced is read back exactly when they are
kept.** -/
theorem readsBack_iff {e : α} {instead : List α} {rows : List (List (List α))} (hne : rows ≠ [])
    (hloses : ∀ rest, loses d (e :: instead ++ rest) = loses d rest) (hlf : d.lf ∉ e :: instead)
    (hcr : d.cr ∉ e :: instead) (hfold : ∀ w, f.fold (breaksTo d (e :: instead) w) = f.fold w) :
    ReadsBack d f (table d (rows.map (List.map (breaksTo d (e :: instead))))) rows ↔
      Kept d (fun rest => startsEscapable d rest || startsBreak d rest && d.escapable e) rows := by
  have hcells : (rows.map (List.map (breaksTo d (e :: instead)))).map (List.map f.fold) =
      rows.map (List.map f.fold) := by
    rw [List.map_map]
    refine map_congr_left fun ws _ => ?_
    rw [Function.comp_apply, List.map_map]
    exact map_congr_left fun w _ => hfold w
  rw [ReadsBack, ← hcells, table_reads_iff d f (by simpa using hne)]
  · simp only [List.forall_mem_map, ne_eq, map_eq_nil_iff, loses_breaksTo hloses,
      mem_breaksTo hcr, Bool.not_eq_true, Kept]
  · simp only [List.forall_mem_map]
    exact fun ws _ w _ => not_mem_breaksTo hlf w

end Cells

end Rows
