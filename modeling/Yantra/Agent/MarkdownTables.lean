import Yantra.Lib.Rows
import Yantra.Agent.BriefComposer
import Yantra.ReportTemplate.Render

/-!
# Markdown tables

Tables are written in four places: the table slot of a report template, the comparison of a Brief,
the alternatives of a delivery and the key figures of a synthesis. Each escapes the pipes of a cell
and replaces its line breaks, and none escapes a backslash.

## Main definitions

* `comparisonTable`, `keyFiguresTable` — two of the writers.
* `gfm` — how a table is read: a backslash escapes the next punctuation character.

## Main results

* `tables_readBack_iff` — a table is read back exactly when no cell has a backslash before
  punctuation or a lone CR.
-/

namespace Yantra

open Utf16 Rows List Gathered

/-! ## The comparison of a Brief -/

inductive FacetCell where
  | text (value : JsString)
  | number (value : JsString)
  | flag (value : Bool)
  | null

structure Comparison where
  columns : List JsString
  rows : List (List FacetCell)
  rowCitations : Option (List (List ℕ))

def MAX_VISIBLE_CITATIONS : ℕ := 3

def citationMarker (n : ℕ) : JsString := units ("[" ++ toString n ++ "]")

def capMarkers (numbers : List ℕ) : JsString :=
  let visible := numbers.take MAX_VISIBLE_CITATIONS
  let base := visible.flatMap citationMarker
  let overflow := numbers.length - visible.length
  if 0 < overflow then base ++ units (" (+" ++ toString overflow ++ ")") else base

/-- `text.replace(/\|/g, '\\|')` -/
def escapePipes (text : JsString) : JsString :=
  text.flatMap fun c => if c = 124 then [92, 124] else [c]

def cellEscape (value : JsString) : JsString := replaceBreaks (units " ") (escapePipes value)

def FacetCell.shown : FacetCell → JsString
  | .null => []
  | .flag value => units (if value then "✓" else "✗")
  | .number value => value
  | .text value => value

def cell (value : FacetCell) : JsString :=
  match value with
  | .null => []
  | .flag value => units (if value then "✓" else "✗")
  | .number value | .text value => cellEscape value

def comparisonTable (comparison : Comparison) : JsString :=
  let columns := comparison.columns.map FacetCell.text ++
    if comparison.rowCitations.isNone then [] else [.text (units "Sources")]
  let rows := comparison.rows.zipIdx.map fun entry => entry.1.map cell ++
    (comparison.rowCitations.map fun citations => [capMarkers (citations.getD entry.2 [])]).getD []
  joined "\n" (tableRow (columns.map cell) :: tableRow (columns.map fun _ => units "---") ::
    rows.map tableRow)

/-! ## The key figures of a synthesis -/

/-- `KeyFigure`, as far as the table shows it. -/
structure KeyFigure where
  figure : JsString
  context : JsString
  citations : List ℕ

/-- `escapeTableCell` of the synthesis. -/
def escapeFigureCell (value : JsString) : JsString := replaceBreaks (units " ") (escapePipes value)

def keyFiguresTable (figures : List KeyFigure) : JsString :=
  joined "\n" (units "| Figure | Context | Sources |" :: units "| --- | --- | --- |" ::
    figures.map fun figure => tableRow [escapeFigureCell figure.figure,
      escapeFigureCell figure.context, figure.citations.flatMap citationMarker])

/-! ## The alternatives of a delivery -/

def PublishCell.shown : PublishCell → String
  | .null => ""
  | .bool b => if b then "✓" else "✗"
  | .str s => s
  | .num text => text

namespace Gathered

variable (g : Gathered) (ctx : ComposeContext)

/-- The table of `alternativesBody`. -/
def alternativesTable : String :=
  let markers (refs : List String) := String.ofList ((g.citations ctx refs).flatMap marker)
  let line (cells : List String) := "| " ++ " | ".intercalate cells ++ " |"
  let header := g.columns ++ ["Sources"]
  "\n".intercalate (line (header.map fun name => alternativesCell (.str name)) ::
    line (header.map fun _ => "---") ::
    g.delivery.alternativesRows.map fun row =>
      line (row.cells.map alternativesCell ++ [markers row.refs]))

end Gathered

/-! ## How a table is read -/

/-- An ASCII punctuation character, which a backslash escapes. -/
def isPunctuation (n : ℕ) : Bool :=
  33 ≤ n && n ≤ 47 || 58 ≤ n && n ≤ 64 || 91 ≤ n && n ≤ 96 || 123 ≤ n && n ≤ 126

lemma not_isSpace_of_isPunctuation {c : Char} (h : isPunctuation c.toNat) :
    JsText.isSpace c = false := by
  simp only [isPunctuation, Bool.or_eq_true, Bool.and_eq_true, decide_eq_true_eq] at h
  simp [JsText.isSpace]
  omega

def gfm : Dialect CodeUnit where
  sep := 124
  esc := 92
  pad := 32
  lf := 10
  cr := 13
  escapable c := isPunctuation c.toNat
  isSpace := Utf16.isSpace
  escapable_sep := rfl
  escapable_esc := rfl
  sep_ne_esc := by decide
  pad_ne_lf := by decide
  pad_ne_cr := by decide
  lf_ne_cr := by decide
  isSpace_pad := rfl
  isSpace_lf := rfl
  isSpace_cr := rfl
  not_isSpace c h := by
    have hascii : (Char.ofNat c.toNat).toNat = c.toNat := by
      simp only [isPunctuation, Bool.or_eq_true, Bool.and_eq_true, decide_eq_true_eq] at h
      rw [Char.ofNat, dif_pos (.inl (by omega))]
      rfl
    exact not_isSpace_of_isPunctuation (by rw [hascii]; exact h)

def gfmText : Dialect Char where
  sep := '|'
  esc := '\\'
  pad := ' '
  lf := '\n'
  cr := '\r'
  escapable c := isPunctuation c.toNat
  isSpace := JsText.isSpace
  escapable_sep := rfl
  escapable_esc := rfl
  sep_ne_esc := by decide
  pad_ne_lf := by decide
  pad_ne_cr := by decide
  lf_ne_cr := by decide
  isSpace_pad := rfl
  isSpace_lf := rfl
  isSpace_cr := rfl
  not_isSpace _ := not_isSpace_of_isPunctuation

/-! ## A line break written as an element -/

/-- The element a report template writes for a line break. -/
def lineBreak : JsString := units "<br>"

/-- Read `<br>` as a line break; `inside` counts what is left of the current one. -/
def breakElements : ℕ → JsString → JsString
  | _, [] => []
  | inside + 1, _ :: cs => breakElements inside cs
  | 0, c :: cs =>
    if lineBreak.isPrefixOf (c :: cs) then 32 :: breakElements 3 cs
    else c :: breakElements 0 cs

lemma breakElements_lineBreak (rest : JsString) :
    breakElements 0 (lineBreak ++ rest) = 32 :: breakElements 0 rest := rfl

variable {c : CodeUnit}

lemma breakElements_cons {cs : JsString} (h : ¬lineBreak <+: c :: cs) :
    breakElements 0 (c :: cs) = c :: breakElements 0 cs := by
  rw [breakElements, if_neg (by simpa using h)]

lemma element_induction {motive : JsString → Prop} (nil : motive [])
    (element : ∀ rest, motive rest → motive (lineBreak ++ rest))
    (other : ∀ c cs, ¬lineBreak <+: c :: cs → motive cs → motive (c :: cs)) (text : JsString) :
    motive text := by
  induction hn : text.length using Nat.strong_induction_on generalizing text with
  | _ n ih =>
    cases text with
    | nil => exact nil
    | cons c cs =>
      by_cases hprefix : lineBreak <+: c :: cs
      · obtain ⟨rest, hrest⟩ := hprefix
        rw [← hrest]
        refine element rest (ih rest.length ?_ rest rfl)
        rw [← hn, ← hrest, length_append]
        exact Nat.lt_add_of_pos_left (by decide)
      · exact other c cs hprefix (ih cs.length (by rw [← hn]; exact Nat.lt_succ_self _) cs rfl)

variable (text : JsString)

lemma breakElements_append_pad :
    breakElements 0 (text ++ [32]) = breakElements 0 text ++ [32] := by
  induction text using element_induction with
  | nil => rfl
  | element rest ih => rw [append_assoc, breakElements_lineBreak, ih]; rfl
  | other c cs h ih =>
    have hpad : ¬lineBreak <+: c :: (cs ++ [32]) := by
      intro hprefix
      obtain heq | hprefix := prefix_concat_iff.1
        (show lineBreak <+: (c :: cs) ++ [32] from hprefix)
      · exact absurd (congrArg getLast? heq) (by rw [getLast?_concat]; decide)
      · exact h hprefix
    rw [cons_append, breakElements_cons hpad, ih, breakElements_cons h, cons_append]

lemma countP_breakElements :
    (breakElements 0 text).countP (isMark gfm) = text.countP (isMark gfm) := by
  induction text using element_induction with
  | nil => rfl
  | element rest ih =>
    have hmarks : lineBreak.countP (isMark gfm) = 0 := by decide
    rw [breakElements_lineBreak, countP_append, ← ih, countP_cons_of_neg (by decide),
      hmarks, Nat.zero_add]
  | other c cs h ih => rw [breakElements_cons h, countP_cons, countP_cons, ih]

/-- The words of a cell in which `<br>` stands for a line break. -/
def brFolding : Folding gfm where
  fold w := words gfm.isSpace (breakElements 0 w)
  fold_pad w := by
    have hpad : breakElements 0 (gfm.pad :: (w ++ [gfm.pad])) =
        gfm.pad :: (breakElements 0 w ++ [gfm.pad]) :=
      congrArg (gfm.pad :: ·) (breakElements_append_pad w)
    rw [hpad]
    exact (wordFolding gfm).fold_pad _
  countP_fold w := (countP_words gfm _).trans (countP_breakElements w)

lemma prefix_of_prefix_breaksTo {v cs : JsString} (hv : 60 ∉ v)
    (h : v <+: breaksTo gfm lineBreak cs) : v <+: cs := by
  induction v generalizing cs with
  | nil => exact nil_prefix
  | cons b v ih =>
    rw [mem_cons, not_or] at hv
    cases hbreak : startsBreak gfm cs with
    | true =>
      obtain ⟨rest, heq, -⟩ := breaksTo_of_startsBreak lineBreak hbreak
      rw [heq] at h
      exact absurd (cons_prefix_cons.1 h).1.symm hv.1
    | false =>
      cases cs with
      | nil => exact absurd (prefix_nil.1 h) (cons_ne_nil _ _)
      | cons c cs =>
        rw [breaksTo_cons hbreak, cons_prefix_cons] at h
        exact cons_prefix_cons.2 ⟨h.1, ih hv.2 h.2⟩

lemma wordsFrom_space (hc : gfm.isSpace c) (word text : JsString) :
    wordsFrom gfm.isSpace word (c :: text) =
      (if word.isEmpty then [] else [word]) ++ wordsFrom gfm.isSpace [] text := by
  rw [wordsFrom, if_pos hc]

/-- A line break written as an element reads like one.

**Proof sketch.** Induction on the cell. An element that the cell has itself stays, and replacing
line breaks makes no other: what stands behind `<` would have to be in the cell. -/
lemma wordsFrom_breaksTo_lineBreak (word w : JsString) :
    wordsFrom gfm.isSpace word (breakElements 0 (breaksTo gfm lineBreak w)) =
      wordsFrom gfm.isSpace word (breakElements 0 w) := by
  induction w using element_induction generalizing word with
  | nil => rfl
  | element rest ih =>
    have hbreaks : breaksTo gfm lineBreak (lineBreak ++ rest) =
        lineBreak ++ breaksTo gfm lineBreak rest := rfl
    rw [hbreaks, breakElements_lineBreak, breakElements_lineBreak, wordsFrom_space rfl, ih,
      wordsFrom_space rfl]
  | other c cs h ih =>
    cases hbreak : startsBreak gfm (c :: cs) with
    | true =>
      obtain ⟨rest, heq, hstart⟩ := breaksTo_of_startsBreak lineBreak hbreak
      rw [heq, breakElements_lineBreak, wordsFrom_space rfl]
      obtain hstart | hstart := hstart
      · cases hstart
        rw [ih, breakElements_cons h, wordsFrom_space rfl]
      · cases hstart
        have hrest := ih []
        rw [breaksTo_lf, breakElements_lineBreak, wordsFrom_space rfl] at hrest
        rw [breakElements_cons h, wordsFrom_space rfl, ← hrest]
        rfl
    | false =>
      have hprefix : ¬lineBreak <+: c :: breaksTo gfm lineBreak cs := by
        intro hprefix
        obtain ⟨hc, htail⟩ := cons_prefix_cons.1 hprefix
        exact h (cons_prefix_cons.2 ⟨hc, prefix_of_prefix_breaksTo (by decide) htail⟩)
      rw [breaksTo_cons hbreak, breakElements_cons hprefix, breakElements_cons h, wordsFrom,
        wordsFrom, ih, ih]

/-! ## The writers write tables -/

lemma replaceBreaks_eq (instead text : JsString) :
    replaceBreaks instead text = breaksTo gfm instead text := by
  induction text using breaks_induction (d := gfm) with
  | nil => rfl
  | lf rest ih => rw [breaksTo_lf, ← ih]; rfl
  | crlf rest ih => rw [breaksTo_crlf, ← ih]; rfl
  | other c cs h ih =>
    obtain ⟨hlf, hcr⟩ := ne_of_not_startsBreak h
    rw [breaksTo_cons h, ← ih, replaceBreaks, if_neg, if_neg (c := c = 10) hlf]
    intro hboth
    rw [Bool.and_eq_true, decide_eq_true_eq, decide_eq_true_eq] at hboth
    exact hcr hboth.1 hboth.2

lemma lineBreaks_eq (text : List Char) :
    Gathered.alternativesCell.lineBreaks text = breaksTo gfmText [' '] text := by
  induction text using breaks_induction (d := gfmText) with
  | nil => rfl
  | lf rest ih => rw [breaksTo_lf, ← ih]; rfl
  | crlf rest ih =>
    rw [breaksTo_crlf, ← ih]; rfl
  | other c cs h ih =>
    obtain ⟨hlf, hcr⟩ := ne_of_not_startsBreak h
    rw [breaksTo_cons h, ← ih]
    exact Gathered.alternativesCell.lineBreaks.eq_4 c cs
      (fun rest hc hrest => hcr hc (by rw [hrest]; rfl)) (fun hc => hlf hc)

lemma escapePipes_eq : escapePipes text = escapeSep gfm text := by
  refine congrArg (text.flatMap ·) (funext fun c => ?_)
  by_cases hc : c = 124
  · rw [if_pos hc]
    exact ((if_pos hc).trans (by rw [hc]; rfl)).symm
  · rw [if_neg hc]
    exact (if_neg hc).symm

lemma escapeTableCell_eq (value : JsString) :
    escapeTableCell value = escapeSep gfm (breaksTo gfm lineBreak value) := by
  rw [← replaceBreaks_eq, ← escapePipes_eq]
  rfl

lemma cellEscape_eq (value : JsString) :
    cellEscape value = escapeSep gfm (breaksTo gfm [32] value) := by
  rw [cellEscape, escapePipes_eq, replaceBreaks_eq]
  exact breaksTo_escapeSep value

lemma cell_eq (value : FacetCell) :
    cell value = escapeSep gfm (breaksTo gfm [32] value.shown) := by
  cases value with
  | text value => exact cellEscape_eq value
  | number value => exact cellEscape_eq value
  | flag value => cases value <;> rfl
  | null => rfl

lemma alternativesCell_eq (cell : PublishCell) :
    (alternativesCell cell).toList =
      escapeSep gfmText (breaksTo gfmText [' '] cell.shown.toList) := by
  have hcell : ∀ text : String, (String.ofList (Gathered.alternativesCell.lineBreaks
      (text.toList.flatMap fun c => if c = '|' then ['\\', '|'] else [c]))).toList =
        escapeSep gfmText (breaksTo gfmText [' '] text.toList) := by
    intro text
    have hescape : (text.toList.flatMap fun c => if c = '|' then ['\\', '|'] else [c]) =
        escapeSep gfmText text.toList := by
      refine congrArg (text.toList.flatMap ·) (funext fun c => ?_)
      by_cases hc : c = '|'
      · rw [if_pos hc]
        exact ((if_pos hc).trans (by rw [hc]; rfl)).symm
      · rw [if_neg hc]
        exact (if_neg hc).symm
    rw [String.toList_ofList, lineBreaks_eq, hescape]
    exact breaksTo_escapeSep text.toList
  cases cell with
  | str s => exact hcell s
  | num text => exact hcell text
  | bool b => exact hcell _
  | null => exact hcell _

/-! ## Tables are read back -/

/-- The cells of a table slot: the header, what divides it, and the rows. -/
def slotCells (slot : TemplateSlot) (rows : List (List JsString)) : List (List JsString) :=
  let columns := slot.columns.getD []
  columns :: columns.map (fun _ => units "---") :: rows

def Comparison.cells (comparison : Comparison) : List (List JsString) :=
  let columns := comparison.columns ++
    if comparison.rowCitations.isNone then [] else [units "Sources"]
  columns :: columns.map (fun _ => units "---") :: comparison.rows.zipIdx.map fun entry =>
    entry.1.map FacetCell.shown ++
      (comparison.rowCitations.map fun citations =>
        [capMarkers (citations.getD entry.2 [])]).getD []

def Gathered.alternativesCells (g : Gathered) (ctx : ComposeContext) : List (List (List Char)) :=
  let header := (g.columns ++ ["Sources"]).map String.toList
  header :: header.map (fun _ => "---".toList) :: g.delivery.alternativesRows.map fun row =>
    row.cells.map (fun cell => cell.shown.toList) ++ [(g.citations ctx row.refs).flatMap marker]

def figureCells (figures : List KeyFigure) : List (List JsString) :=
  [units "Figure", units "Context", units "Sources"] :: [units "---", units "---", units "---"] ::
    figures.map fun figure =>
      [figure.figure, figure.context, figure.citations.flatMap citationMarker]

variable {α : Type}

lemma fold_breaksTo_pad [DecidableEq α] (d : Dialect α) (w : List α) :
    (wordFolding d).fold (breaksTo d [d.pad] w) = (wordFolding d).fold w :=
  words_breaksTo d w

lemma readsBack_pad_iff [DecidableEq α] (d : Dialect α) {rows : List (List (List α))}
    (hne : rows ≠ []) :
    ReadsBack d (wordFolding d) (table d (rows.map (List.map (breaksTo d [d.pad])))) rows ↔
      Kept d (startsEscapable d) rows := by
  have hesc : d.pad ≠ d.esc := pad_ne_esc d
  rw [readsBack_iff d (wordFolding d) hne (fun rest => by simp [loses, losesBefore, hesc])
    (by simpa using d.pad_ne_lf.symm) (by simpa using d.pad_ne_cr.symm) (fold_breaksTo_pad d)]
  simp [Dialect.escapable_of_isSpace d.isSpace_pad]

def TemplateSlotValue.rows : Option TemplateSlotValue → List (List JsString)
  | some (.table rows) => rows
  | _ => []

lemma table_eq {cells : List (List JsString)} {rows : List (List JsString)} {instead : JsString}
    (h : rows = cells.map (List.map fun w => escapeSep gfm (breaksTo gfm instead w))) :
    joined "\n" (rows.map tableRow) = table gfm (cells.map (List.map (breaksTo gfm instead))) := by
  rw [h, joined, table, map_map, map_map]
  congr 1
  refine map_congr_left fun ws _ => ?_
  rw [Function.comp_apply, Function.comp_apply, map_map]
  rfl

lemma renderSlot_table (slot : TemplateSlot) (value : Option TemplateSlotValue) :
    renderSlot { slot with kind := .table } value =
      table gfm ((slotCells slot (TemplateSlotValue.rows value)).map
        (List.map (breaksTo gfm lineBreak))) := by
  have hescape : (fun w => escapeSep gfm (breaksTo gfm lineBreak w)) = escapeTableCell :=
    funext fun w => (escapeTableCell_eq w).symm
  have hdashes : escapeTableCell ∘ (fun _ : JsString => units "---") = fun _ => units "---" := rfl
  rw [← table_eq rfl, hescape, slotCells, map_cons, map_cons, map_cons,
    map_cons, map_map, hdashes, map_map]
  cases value with
  | none => rfl
  | some value => cases value <;> rfl

lemma escapeSep_breaksTo_eq_self [DecidableEq α] {d : Dialect α} {w : List α} (hsep : d.sep ∉ w)
    (hlf : d.lf ∉ w) : escapeSep d (breaksTo d [d.pad] w) = w := by
  rw [breaksTo_eq_self hlf, escapeSep_eq_self hsep]

/-! ## Citations need no escape -/

/-- Text of ASCII characters between the control characters and the pipe. -/
def isCitationText (text : JsString) : Prop := ∀ c ∈ text, 31 < c.toNat ∧ c.toNat < 124

lemma isCitationText_units {s : String} (h : ∀ c ∈ s.toList, 31 < c.toNat ∧ c.toNat < 124) :
    isCitationText (units s) := by
  intro c hc
  obtain ⟨ch, hch, hmem⟩ := mem_flatMap.1 hc
  obtain ⟨hlow, hhigh⟩ := h ch hch
  rw [unitsOfChar_of_lt (by omega), mem_singleton] at hmem
  rw [hmem, show ch.toNat.toUInt16.toNat = ch.toNat from
    (UInt16.toNat_ofNat' ..).trans (Nat.mod_eq_of_lt (by omega))]
  exact ⟨hlow, hhigh⟩

lemma isCitationText_number (before after : String) (n : ℕ)
    (h : ∀ c ∈ before.toList ++ after.toList, 31 < c.toNat ∧ c.toNat < 124) :
    isCitationText (units (before ++ toString n ++ after)) := by
  refine isCitationText_units fun c hc => ?_
  rw [String.toList_append, String.toList_append, mem_append, mem_append] at hc
  obtain (hc | hc) | hc := hc
  · exact h c (mem_append_left _ hc)
  · obtain ⟨hlow, hhigh⟩ := JsText.isDigit_of_mem_toString hc
    omega
  · exact h c (mem_append_right _ hc)

variable (numbers : List ℕ)

lemma isCitationText_markers :
    isCitationText (numbers.flatMap citationMarker) := by
  intro c hc
  obtain ⟨n, -, hn⟩ := mem_flatMap.1 hc
  exact isCitationText_number "[" "]" n (by simp) c hn

lemma isCitationText_capMarkers : isCitationText (capMarkers numbers) := by
  intro c hc
  rw [capMarkers] at hc
  split_ifs at hc
  · obtain hc | hc := mem_append.1 hc
    · exact isCitationText_markers _ c hc
    · exact isCitationText_number " (+" ")" _ (by simp) c hc
  · exact isCitationText_markers _ c hc

lemma isCitationText.escaped {text : JsString} (h : isCitationText text) :
    escapeSep gfm (breaksTo gfm [32] text) = text := by
  refine escapeSep_breaksTo_eq_self (fun hmem => ?_) fun hmem => ?_
  · exact absurd (h _ hmem).2 (by decide)
  · exact absurd (h _ hmem).1 (by decide)

lemma marker_escaped :
    escapeSep gfmText (breaksTo gfmText [' '] (numbers.flatMap marker)) =
      numbers.flatMap marker := by
  have hmem : ∀ c ∈ numbers.flatMap marker, 31 < c.toNat ∧ c.toNat < 124 := by
    intro c hc
    obtain ⟨n, -, hn⟩ := mem_flatMap.1 hc
    simp only [marker, mem_append, mem_cons, not_mem_nil, or_false] at hn
    obtain (rfl | hdigit) | rfl := hn
    · decide
    · obtain ⟨hlow, hhigh⟩ := JsText.isDigit_of_mem_toString hdigit
      omega
    · decide
  refine escapeSep_breaksTo_eq_self (fun h => ?_) fun h => ?_
  · exact absurd (hmem _ h).2 (by decide)
  · exact absurd (hmem _ h).1 (by decide)

/-! ## The texts of the tables -/

lemma map_cell_text (texts : List JsString) :
    (texts.map FacetCell.text).map cell =
      texts.map fun w => escapeSep gfm (breaksTo gfm [32] w) := by
  rw [map_map]
  exact map_congr_left fun w _ => cell_eq (.text w)

lemma map_cell (row : List FacetCell) :
    row.map cell = (row.map FacetCell.shown).map fun w => escapeSep gfm (breaksTo gfm [32] w) := by
  rw [map_map]
  exact map_congr_left fun value _ => cell_eq value

lemma map_dashes (columns : List JsString) :
    columns.map (fun _ => units "---") =
      (columns.map fun _ => units "---").map fun w => escapeSep gfm (breaksTo gfm [32] w) := by
  rw [map_map]
  rfl

lemma comparisonTable_eq (comparison : Comparison) :
    comparisonTable comparison =
      table gfm (comparison.cells.map (List.map (breaksTo gfm [32]))) := by
  have hheader : comparison.columns.map FacetCell.text ++
        (if comparison.rowCitations.isNone then [] else [.text (units "Sources")]) =
      (comparison.columns ++
        if comparison.rowCitations.isNone then [] else [units "Sources"]).map FacetCell.text := by
    rw [map_append]
    split_ifs <;> rfl
  have hmarkers : ∀ i : ℕ,
      (comparison.rowCitations.map fun citations => [capMarkers (citations.getD i [])]).getD [] =
        ((comparison.rowCitations.map fun citations => [capMarkers (citations.getD i [])]).getD
          []).map fun w => escapeSep gfm (breaksTo gfm [32] w) := by
    intro i
    cases comparison.rowCitations with
    | none => rfl
    | some citations => exact (congrArg (· :: []) (isCitationText_capMarkers _).escaped).symm
  rw [← table_eq rfl, comparisonTable, hheader, map_cell_text, map_map]
  have hdivider : ((fun _ : FacetCell => units "---") ∘ FacetCell.text) =
      fun _ => units "---" := rfl
  rw [hdivider, map_dashes, Comparison.cells, map_cons, map_cons, map_cons,
    map_cons]
  congr 3
  rw [map_map, map_map, map_map]
  refine map_congr_left fun entry _ => congrArg tableRow ?_
  dsimp only
  rw [map_append, ← map_cell, ← hmarkers]

lemma keyFiguresTable_eq (figures : List KeyFigure) :
    keyFiguresTable figures =
      table gfm ((figureCells figures).map (List.map (breaksTo gfm [32]))) := by
  have hrows : (figures.map fun figure => tableRow [escapeFigureCell figure.figure,
        escapeFigureCell figure.context, figure.citations.flatMap citationMarker]) =
      ((figures.map fun figure =>
        [figure.figure, figure.context, figure.citations.flatMap citationMarker]).map
          (List.map fun w => escapeSep gfm (breaksTo gfm [32] w))).map tableRow := by
    rw [map_map, map_map]
    refine map_congr_left fun figure _ => congrArg tableRow ?_
    dsimp only
    rw [map_cons, map_cons, map_singleton, (isCitationText_markers _).escaped,
      ← cellEscape_eq, ← cellEscape_eq]
    rfl
  rw [← table_eq rfl, keyFiguresTable, hrows]
  rfl

lemma alternativesTable_eq (g : Gathered) (ctx : ComposeContext) :
    (g.alternativesTable ctx).toList =
      table gfmText ((g.alternativesCells ctx).map (List.map (breaksTo gfmText [' ']))) := by
  have hline : ∀ cells : List String, ("| " ++ " | ".intercalate cells ++ " |").toList =
      row gfmText (cells.map String.toList) := by
    intro cells
    rw [String.toList_append, String.toList_append, String.toList_intercalate]
    rfl
  have hheader : ((g.columns ++ ["Sources"]).map fun name =>
        alternativesCell (.str name)).map String.toList =
      (((g.columns ++ ["Sources"]).map String.toList).map (breaksTo gfmText [' '])).map
        (escapeSep gfmText) := by
    rw [map_map, map_map, map_map]
    exact map_congr_left fun name _ => alternativesCell_eq (.str name)
  have hdashes : ((g.columns ++ ["Sources"]).map fun _ => "---").map String.toList =
      ((((g.columns ++ ["Sources"]).map String.toList).map fun _ => "---".toList).map
        (breaksTo gfmText [' '])).map (escapeSep gfmText) := by
    rw [map_map, map_map, map_map, map_map]
    have hplain : escapeSep gfmText (breaksTo gfmText [' '] "---".toList) = "---".toList :=
      escapeSep_breaksTo_eq_self (d := gfmText) (by decide) (by decide)
    exact map_congr_left fun _ _ => hplain.symm
  have hrows : ∀ published : DeliveryRow,
      (published.cells.map alternativesCell ++
        [String.ofList ((g.citations ctx published.refs).flatMap marker)]).map
          String.toList =
      ((published.cells.map (fun cell => cell.shown.toList) ++
        [(g.citations ctx published.refs).flatMap marker]).map
          (breaksTo gfmText [' '])).map (escapeSep gfmText) := by
    intro published
    rw [map_append, map_append, map_append, map_map, map_map,
      map_map, map_singleton, map_singleton, map_singleton,
      String.toList_ofList, marker_escaped]
    congr 1
    exact map_congr_left fun cell _ => alternativesCell_eq cell
  rw [alternativesTable, String.toList_intercalate, table, alternativesCells,
    map_cons, map_cons, map_map, hline, hline, hheader, hdashes, map_cons,
    map_cons, map_cons, map_cons, map_map, map_map]
  congr 3
  rw [map_map, map_map]
  refine map_congr_left fun published _ => ?_
  dsimp only [Function.comp_apply]
  rw [hline, hrows]

/-! ## The result -/

/-- **A table is read back exactly when its cells are kept:** every row has a cell, and no cell has
a CR that no LF follows, or a backslash before punctuation or, where `<br>` is written for a line
break, before a line break. -/
theorem tables_readBack_iff (slot : TemplateSlot) (value : Option TemplateSlotValue)
    (comparison : Comparison) (g : Gathered) (ctx : ComposeContext) (figures : List KeyFigure) :
    (let cells := slotCells slot (TemplateSlotValue.rows value)
     ReadsBack gfm brFolding (renderSlot { slot with kind := .table } value) cells ↔
       Kept gfm (fun rest => startsEscapable gfm rest || startsBreak gfm rest) cells) ∧
    (ReadsBack gfm (wordFolding gfm) (comparisonTable comparison) comparison.cells ↔
      Kept gfm (startsEscapable gfm) comparison.cells) ∧
    (ReadsBack gfmText (wordFolding gfmText) (g.alternativesTable ctx).toList
        (g.alternativesCells ctx) ↔
      Kept gfmText (startsEscapable gfmText) (g.alternativesCells ctx)) ∧
    (ReadsBack gfm (wordFolding gfm) (keyFiguresTable figures) (figureCells figures) ↔
      Kept gfm (startsEscapable gfm) (figureCells figures)) := by
  refine ⟨?_, ?_, ?_, ?_⟩
  · intro cells
    have hbreak : ∀ rest, loses gfm (lineBreak ++ rest) = loses gfm rest := fun rest => by
      simp [lineBreak, units, unitsOfChar, loses, losesBefore, gfm]
    have hescapable : gfm.escapable 60 = true := rfl
    have hiff : ReadsBack gfm brFolding (table gfm (cells.map (List.map (breaksTo gfm lineBreak))))
        cells ↔ Kept gfm (fun rest => startsEscapable gfm rest ||
          startsBreak gfm rest && gfm.escapable 60) cells :=
      readsBack_iff gfm brFolding (List.cons_ne_nil _ _) hbreak (by decide) (by decide)
        (wordsFrom_breaksTo_lineBreak [])
    rw [renderSlot_table, hiff]
    simp only [hescapable, Bool.and_true]
  · rw [comparisonTable_eq]
    exact readsBack_pad_iff gfm (List.cons_ne_nil _ _)
  · rw [alternativesTable_eq]
    exact readsBack_pad_iff gfmText (List.cons_ne_nil _ _)
  · rw [keyFiguresTable_eq]
    exact readsBack_pad_iff gfm (List.cons_ne_nil _ _)

/-- A comparison of one column, with a backslash before a pipe. -/
def backslashComparison : Comparison where
  columns := [units "Path"]
  rows := [[.text (units "a\\|b")]]
  rowCitations := none

/-- Escaping the pipe leaves it unescaped behind an escaped backslash: the row gains a column. -/
theorem comparisonTable_adds_column :
    (readTable gfm (comparisonTable backslashComparison)).map List.length = [1, 1, 2] ∧
      ¬ReadsBack gfm (wordFolding gfm) (comparisonTable backslashComparison)
        backslashComparison.cells := by
  have hcolumns : (readTable gfm (comparisonTable backslashComparison)).map List.length =
      [1, 1, 2] := by decide
  refine ⟨hcolumns, fun hread => ?_⟩
  have hlengths := congrArg (List.map List.length) hread
  rw [List.map_map, List.map_map] at hlengths
  have hcells : (readTable gfm (comparisonTable backslashComparison)).map List.length =
      backslashComparison.cells.map List.length := by
    simpa [Function.comp_def] using hlengths
  rw [hcolumns] at hcells
  exact absurd hcells (by decide)

end Yantra
