import Mathlib.Algebra.GroupWithZero.Nat
import Yantra.Lib.Utf16

/-!
# Reading the tables of a page

`readTables` reads every table of the shared parse. Whether a row is a header is asked of the nodes
above it, and these go on past the table that is read: in a table that stands in the head of a
layout table, every row is a header.

## Main definitions

* `PageTree.readTables` — the tables of a page.
* `PageTree.ReadsAsAlone`, `PageTree.HeadOnly` — what is promised of a table, and the tables for
  which the nodes above make no difference.

## Main results

* `PageTree.readsAsAlone_iff` — the promise is kept exactly for these and where no head is above.
-/

namespace Yantra.PageTree

open Utf16 List Function

/-! ## The tree -/

/-- A node of the parse: an element, or a text, a comment or the like. -/
inductive PageNode where
  | element (name : String) (attribs : List (String × String)) (children : List PageNode)
  | text (data : JsString)
  | other

/-- What is read with the platform's Unicode: lower case, trimmed text, and a run of text cleaned
by `cleanRun`. -/
structure PagePlatform where
  toLowerCase : String → String
  trim : String → String
  cleanRun : JsString → JsString

def HTML_BLOCK_TAGS : List String :=
  ["address", "article", "aside", "blockquote", "dd", "div", "dl", "dt", "fieldset", "figcaption",
    "figure", "footer", "form", "h1", "h2", "h3", "h4", "h5", "h6", "header", "hr", "li", "main",
    "nav", "ol", "p", "pre", "section", "table", "tbody", "tfoot", "thead", "ul"]

def HTML_ROW_TAGS : List String := ["tr", "td", "th"]

def HTML_SKIP_TAGS : List String :=
  ["script", "style", "noscript", "template", "iframe", "svg", "head", "title"]

def isElement : PageNode → Bool
  | .element .. => true
  | _ => false

/-- A node with the nodes above it, the nearest first. -/
structure Located where
  above : List PageNode
  node : PageNode

mutual

def below (above : List PageNode) : PageNode → List Located
  | .element name attribs children => belowAll (.element name attribs children :: above) children
  | .text _ => []
  | .other => []

def belowAll (above : List PageNode) : List PageNode → List Located
  | [] => []
  | n :: ns =>
    (if isElement n then [⟨above, n⟩] else []) ++ below above n ++ belowAll above ns

end

section

variable (pf : PagePlatform)

def tagOf : PageNode → String
  | .element name _ _ => pf.toLowerCase name
  | _ => ""

def attrOf (name : String) : PageNode → Option String
  | .element _ attribs _ => (attribs.find? fun a => a.1 = name).map (·.2)
  | _ => none

/-- `isHiddenElement`; the types `script` and `style` are the tags. -/
def isHiddenElement (node : PageNode) : Bool :=
  HTML_SKIP_TAGS.contains (tagOf pf node) || (attrOf "hidden" node).isSome ||
    pf.toLowerCase (pf.trim ((attrOf "aria-hidden" node).getD "")) = "true"

/-- `facts.hidden` -/
def isHidden (l : Located) : Bool := (l.node :: l.above).any (isHiddenElement pf)

/-- The runs so far, and the run under way. -/
structure TextRuns where
  runs : List JsString := []
  current : JsString := []

def TextRuns.flush (s : TextRuns) : TextRuns where
  runs := if (pf.cleanRun s.current).isEmpty then s.runs else s.runs ++ [pf.cleanRun s.current]

mutual

/-- The walk of `runsOf` over a subtree, below a hidden node or not. -/
def walkRuns (hidden : Bool) : PageNode → TextRuns → TextRuns
  | .text data, s => { s with current := s.current ++ data }
  | .other, s => s
  | .element name attribs children, s =>
    if hidden || isHiddenElement pf (.element name attribs children) then s
    else
      let tag := pf.toLowerCase name
      if tag = "br" then s.flush pf
      else if HTML_BLOCK_TAGS.contains tag || HTML_ROW_TAGS.contains tag || tag = "li" then
        (walkAll hidden children (s.flush pf)).flush pf
      else walkAll hidden children s

def walkAll (hidden : Bool) : List PageNode → TextRuns → TextRuns
  | [], s => s
  | n :: ns, s => walkAll hidden ns (walkRuns hidden n s)

end

def textOf (l : Located) : JsString :=
  pf.cleanRun ([32].intercalate
    ((walkRuns pf (l.above.any (isHiddenElement pf)) l.node {}).flush pf).runs)

/-! ## Tables -/

def MAX_TABLES : ℕ := 10
def MAX_TABLE_ROWS : ℕ := 50
def MAX_TABLE_COLS : ℕ := 20
def CELL_CHARS : ℕ := 200
def LABEL_MAX : ℕ := 40

inductive TableKind where
  | data | keyValue | layout
  deriving DecidableEq

/-- `TableRead`, with the table in it. -/
structure TableRead where
  index : ℕ
  kind : TableKind
  caption : Option JsString
  headers : List JsString := []
  rows : List (List JsString) := []
  rowsDropped : ℕ := 0
  colsDropped : Bool := false
  deriving DecidableEq

/-- The element children of a node that have one of the tags. -/
def childrenTagged (tags : List String) (l : Located) : List Located :=
  match l.node with
  | .element _ _ children =>
    (children.filter fun child => tags.contains (tagOf pf child)).map fun child =>
      ⟨l.node :: l.above, child⟩
  | _ => []

def rowCells (row : Located) : List Located := childrenTagged pf ["td", "th"] row

/-- The place of the nearest table above, as the number of nodes above it. -/
def tableAbove : List PageNode → Option ℕ
  | [] => none
  | n :: above => if tagOf pf n = "table" then some above.length else tableAbove above

def ownRows (table : Located) : List Located :=
  (below table.above table.node).filter fun l =>
    tagOf pf l.node = "tr" && tableAbove pf l.above = some table.above.length

/-- `closest(row, thead) !== null` -/
def inHead (row : Located) : Bool := row.above.any fun n => tagOf pf n = "thead"

def headerRow (rows : List Located) : Option ℕ :=
  match rows.findIdx? (inHead pf) with
  | some i => some i
  | none =>
    if rows.head?.any fun row => (rowCells pf row).all fun cell => tagOf pf cell.node = "th" then
      some 0
    else none

def bodyRows (rows : List Located) : List ℕ :=
  (List.range rows.length).filter fun i =>
    some i ≠ headerRow pf rows && !(rows[i]?.any (inHead pf))

def captionOf (table : Located) : Option JsString :=
  match childrenTagged pf ["caption"] table with
  | [] => none
  | caption :: _ =>
    if (textOf pf caption).isEmpty then none else some ((textOf pf caption).take CELL_CHARS)

/-- `readRow` -/
def rowTexts (row : Located) : List JsString :=
  ((rowCells pf row).take MAX_TABLE_COLS).map fun cell => (textOf pf cell).take CELL_CHARS

def isWide (row : Located) : Bool := MAX_TABLE_COLS < (rowCells pf row).length

def isLabelRow (row : Located) : Bool :=
  match rowCells pf row with
  | [first, _] => tagOf pf first.node = "th" || (textOf pf first).length ≤ LABEL_MAX
  | _ => false

/-- A table is for layout: it holds a table, or has no two cells. -/
def isLayout (table : Located) : Bool :=
  (below table.above table.node).any (fun l => tagOf pf l.node = "table") ||
    ((ownRows pf table).map fun row => (rowCells pf row).length).sum ≤ 1

def headerOf (rows : List Located) : Option Located := (headerRow pf rows).bind (rows[·]?)

def bodyOf (rows : List Located) : List Located := (bodyRows pf rows).filterMap (rows[·]?)

/-- `keyValue`: few headers, and four fifths of the body rows have a label. -/
def isKeyValue (header : Option Located) (body : List Located) : Bool :=
  (header.elim [] (rowTexts pf)).length < 2 && 0 < body.length &&
    4 * body.length ≤ 5 * body.countP (isLabelRow pf)

def readParts (position : ℕ) (caption : Option JsString) (header : Option Located)
    (body : List Located) : TableRead where
  index := position
  kind := if isKeyValue pf header body then .keyValue else .data
  caption := caption
  headers := header.elim [] (rowTexts pf)
  rows := ((body.take MAX_TABLE_ROWS).map (rowTexts pf)).filter fun row => row.any (!·.isEmpty)
  rowsDropped := body.length - MAX_TABLE_ROWS
  colsDropped := header.any (isWide pf) || (body.take MAX_TABLE_ROWS).any (isWide pf)

def readTable (table : Located) (position : ℕ) : TableRead :=
  if isLayout pf table then { index := position, kind := .layout, caption := captionOf pf table }
  else
    readParts pf position (captionOf pf table) (headerOf pf (ownRows pf table))
      (bodyOf pf (ownRows pf table))

def tablesOf (page : List PageNode) : List Located :=
  (belowAll [] page).filter fun l => tagOf pf l.node = "table"

/-- The tables that are shown; `found` is the number of all. -/
def readTables (page : List PageNode) : List TableRead :=
  ((tablesOf pf page).take MAX_TABLES).mapIdx fun position table => readTable pf table position

/-! ## What is promised of a table -/

/-- What is promised of a table at a place among the tables of a page. -/
structure ReadsAsAlone (page : List PageNode) (position : ℕ) (table : Located) : Prop where
  alone : ∃ read, (readTables pf page)[position]? = some read ∧
    readTables pf [table.node] = [{ read with index := 0 }]
  /-- Its rows are its own body rows, as far as they are shown, without the empty ones. -/
  rows : ∀ read, (readTables pf page)[position]? = some read → read.kind ≠ .layout →
    read.rows = (((bodyOf pf (ownRows pf ⟨[], table.node⟩)).take MAX_TABLE_ROWS).map
      (rowTexts pf)).filter fun row => row.any (!·.isEmpty)
  apart : ∀ i, headerRow pf (ownRows pf table) = some i → i ∉ bodyRows pf (ownRows pf table)
  own : ∀ row ∈ ownRows pf table, tagOf pf row.node = "tr" ∧
    tableAbove pf row.above = some table.above.length

/-- A head around the table takes nothing from it: the table is for layout, or its first row is
read as its header and its body rows, at most 50 and not of labels, are read as empty. -/
def HeadOnly (table : Located) : Prop :=
  isLayout pf table = true ∨
    ((headerOf pf (ownRows pf table)).elim [] (rowTexts pf) =
        (ownRows pf table).head?.elim [] (rowTexts pf) ∧
      (∀ row ∈ bodyOf pf (ownRows pf table), ∀ text ∈ rowTexts pf row, text = []) ∧
      (bodyOf pf (ownRows pf table)).length ≤ MAX_TABLE_ROWS ∧
      isKeyValue pf (headerOf pf (ownRows pf table)) (bodyOf pf (ownRows pf table)) = false ∧
      ((headerOf pf (ownRows pf table)).any (isWide pf) ||
          (bodyOf pf (ownRows pf table)).any (isWide pf)) =
        (ownRows pf table).head?.any (isWide pf))

end

/-! ## A table under other nodes -/

def Located.under (ctx : List PageNode) (l : Located) : Located := ⟨l.above ++ ctx, l.node⟩

section

variable {pf : PagePlatform} {ctx : List PageNode}

mutual

lemma below_append (n : PageNode) (above ctx : List PageNode) :
    below (above ++ ctx) n = (below above n).map (Located.under ctx) := by
  cases n with
  | element name attribs children =>
    rw [below, below, ← cons_append]
    exact belowAll_append children _ ctx
  | text => rfl
  | other => rfl

lemma belowAll_append (ns above ctx : List PageNode) :
    belowAll (above ++ ctx) ns = (belowAll above ns).map (Located.under ctx) := by
  cases ns with
  | nil => rfl
  | cons n ns =>
    rw [belowAll, belowAll, below_append n above ctx, belowAll_append ns above ctx]
    split_ifs <;> simp [Located.under]

end

mutual

lemma above_of_mem_below (n : PageNode) (above : List PageNode) :
    ∀ l ∈ below above n, ∃ inner, l.above = inner ++ n :: above := by
  cases n with
  | element name attribs children =>
    rw [below]
    exact above_of_mem_belowAll children _
  | text => simp [below]
  | other => simp [below]

lemma above_of_mem_belowAll (ns above : List PageNode) :
    ∀ l ∈ belowAll above ns, ∃ inner, l.above = inner ++ above := by
  cases ns with
  | nil => simp [belowAll]
  | cons n ns =>
    intro l hl
    rw [belowAll, mem_append, mem_append] at hl
    rcases hl with (hself | hbelow) | hrest
    · split_ifs at hself
      · exact ⟨[], by rw [mem_singleton.1 hself]; rfl⟩
      · cases hself
    · obtain ⟨inner, hinner⟩ := above_of_mem_below n above l hbelow
      exact ⟨inner ++ [n], by simp [hinner]⟩
    · exact above_of_mem_belowAll ns above l hrest

end

lemma tableAbove_append (above ctx : List PageNode) :
    tableAbove pf (above ++ ctx) =
      ((tableAbove pf above).map (· + ctx.length)).or (tableAbove pf ctx) := by
  induction above with
  | nil => simp [tableAbove]
  | cons n above ih =>
    rw [cons_append, tableAbove, tableAbove, ih]
    split_ifs <;> simp

variable {n : PageNode}

lemma tableAbove_isSome (hn : tagOf pf n = "table") (inner above : List PageNode) :
    ∃ d, tableAbove pf (inner ++ n :: above) = some d := by
  induction inner with
  | nil => exact ⟨_, if_pos hn⟩
  | cons m inner ih =>
    rw [cons_append, tableAbove]
    split_ifs
    · exact ⟨_, rfl⟩
    · exact ih

lemma ownRows_under (hn : tagOf pf n = "table") (ctx : List PageNode) :
    ownRows pf ⟨ctx, n⟩ = (ownRows pf ⟨[], n⟩).map (Located.under ctx) := by
  have hbelow := below_append n [] ctx
  rw [nil_append] at hbelow
  rw [ownRows, ownRows, hbelow, filter_map]
  refine congrArg _ (filter_congr fun l hl => ?_)
  obtain ⟨inner, hinner⟩ := above_of_mem_below n [] l hl
  obtain ⟨d, hd⟩ := tableAbove_isSome hn inner []
  rw [← hinner] at hd
  have hplace : tableAbove pf (l.above ++ ctx) = some ctx.length ↔
      tableAbove pf l.above = some 0 := by
    simp [tableAbove_append, hd]
  exact congrArg _ (decide_eq_decide.2 hplace)

lemma childrenTagged_under (tags : List String) (l : Located) :
    childrenTagged pf tags (l.under ctx) = (childrenTagged pf tags l).map (Located.under ctx) := by
  obtain ⟨above, n⟩ := l
  cases n <;> simp [childrenTagged, Located.under]

lemma textOf_under (hctx : ctx.any (isHiddenElement pf) = false) (l : Located) :
    textOf pf (l.under ctx) = textOf pf l := by
  simp [textOf, Located.under, any_append, hctx]

lemma rowTexts_under (hctx : ctx.any (isHiddenElement pf) = false) (l : Located) :
    rowTexts pf (l.under ctx) = rowTexts pf l := by
  simp [rowTexts, rowCells, childrenTagged_under, ← map_take, textOf_under hctx]

lemma isWide_under (l : Located) : isWide pf (l.under ctx) = isWide pf l := by
  rw [isWide, isWide, rowCells, rowCells, childrenTagged_under, length_map]

lemma isLabelRow_under (hctx : ctx.any (isHiddenElement pf) = false) (l : Located) :
    isLabelRow pf (l.under ctx) = isLabelRow pf l := by
  rw [isLabelRow, isLabelRow, rowCells, rowCells, childrenTagged_under]
  rcases childrenTagged pf ["td", "th"] l with _ | ⟨a, _ | ⟨b, _ | ⟨c, cells⟩⟩⟩ <;> try rfl
  simp only [map_cons, map_nil, textOf_under hctx]
  rfl

lemma captionOf_under (hctx : ctx.any (isHiddenElement pf) = false) (l : Located) :
    captionOf pf (l.under ctx) = captionOf pf l := by
  rw [captionOf, captionOf, childrenTagged_under]
  cases childrenTagged pf ["caption"] l <;> simp [textOf_under hctx]

lemma readParts_under (hctx : ctx.any (isHiddenElement pf) = false) (position : ℕ)
    (caption : Option JsString) (header : Option Located) (body : List Located) :
    readParts pf position caption (header.map (Located.under ctx))
      (body.map (Located.under ctx)) = readParts pf position caption header body := by
  have htexts : rowTexts pf ∘ Located.under ctx = rowTexts pf := funext (rowTexts_under hctx)
  have hwide : isWide pf ∘ Located.under ctx = isWide pf := funext isWide_under
  have hwide' : (header.map (Located.under ctx)).any (isWide pf) = header.any (isWide pf) := by
    cases header <;> simp [isWide_under]
  have hlabel : isLabelRow pf ∘ Located.under ctx = isLabelRow pf := funext (isLabelRow_under hctx)
  have hheader : (header.map (Located.under ctx)).elim [] (rowTexts pf) =
      header.elim [] (rowTexts pf) := by
    cases header <;> simp [rowTexts_under hctx]
  simp [readParts, isKeyValue, hheader, hwide', ← map_take, htexts, hwide, hlabel,
    countP_map]

lemma isLayout_under (hn : tagOf pf n = "table") (ctx : List PageNode) :
    isLayout pf ⟨ctx, n⟩ = isLayout pf ⟨[], n⟩ := by
  have hbelow := below_append n [] ctx
  have hcells : (fun row => (rowCells pf row).length) ∘ Located.under ctx =
      fun row => (rowCells pf row).length :=
    funext fun row => by simp [rowCells, childrenTagged_under]
  rw [nil_append] at hbelow
  rw [isLayout, isLayout, ownRows_under hn ctx, hbelow, map_map, hcells, any_map]
  rfl

/-! ## Rows under other nodes -/

lemma getElem?_any_under (rows : List Located) (p : Located → Bool) (i : ℕ) :
    ((rows.map (Located.under ctx))[i]?).any p = (rows[i]?).any (p ∘ Located.under ctx) := by
  rw [getElem?_map]
  cases rows[i]? <;> rfl

lemma parts_under (hhead : ctx.any (tagOf pf · = "thead") = false) (rows : List Located) :
    headerOf pf (rows.map (Located.under ctx)) =
        (headerOf pf rows).map (Located.under ctx) ∧
      bodyOf pf (rows.map (Located.under ctx)) = (bodyOf pf rows).map (Located.under ctx) := by
  have hin : inHead pf ∘ Located.under ctx = inHead pf := by
    funext row
    simp only [inHead, Located.under, comp_apply, any_append, hhead, Bool.or_false]
  have hall : ∀ row, (rowCells pf (row.under ctx)).all (tagOf pf ·.node = "th") =
      (rowCells pf row).all (tagOf pf ·.node = "th") := fun row => by
    rw [rowCells, rowCells, childrenTagged_under, all_map]
    rfl
  have hrow : headerRow pf (rows.map (Located.under ctx)) = headerRow pf rows := by
    rw [headerRow, headerRow, findIdx?_map, hin]
    cases rows <;> simp [hall]
  have hrows : bodyRows pf (rows.map (Located.under ctx)) = bodyRows pf rows := by
    rw [bodyRows, bodyRows, length_map, hrow]
    refine filter_congr fun i _ => ?_
    rw [getElem?_any_under, hin]
  rw [headerOf, headerOf, bodyOf, bodyOf, hrow, hrows, map_filterMap]
  exact ⟨by cases headerRow pf rows <;> simp, by simp⟩

lemma parts_of_head (hhead : ctx.any (tagOf pf · = "thead")) (rows : List Located) :
    headerOf pf (rows.map (Located.under ctx)) = rows.head?.map (Located.under ctx) ∧
      bodyOf pf (rows.map (Located.under ctx)) = [] := by
  have hin : inHead pf ∘ Located.under ctx = fun _ => true := by
    funext row
    simp only [inHead, Located.under, comp_apply, any_append, hhead, Bool.or_true]
  constructor
  · rw [headerOf, headerRow, findIdx?_map, hin]
    cases rows <;> simp [findIdx?_cons]
  · have hnone : bodyRows pf (rows.map (Located.under ctx)) = [] := by
      rw [bodyRows, filter_eq_nil_iff]
      intro i hi
      rw [mem_range] at hi
      rw [getElem?_any_under, hin, getElem?_eq_getElem (by simpa using hi)]
      simp
    rw [bodyOf, hnone, filterMap_nil]

lemma readParts_eq_iff (caption : Option JsString) (header first : Option Located)
    (body : List Located) :
    readParts pf 0 caption header body = readParts pf 0 caption first [] ↔
      header.elim [] (rowTexts pf) = first.elim [] (rowTexts pf) ∧
        (∀ row ∈ body, ∀ text ∈ rowTexts pf row, text = []) ∧ body.length ≤ MAX_TABLE_ROWS ∧
        isKeyValue pf header body = false ∧
        (header.any (isWide pf) || body.any (isWide pf)) = first.any (isWide pf) := by
  have hnolabels : isKeyValue pf first [] = false := by simp [isKeyValue]
  have hkind : (if isKeyValue pf header body then TableKind.keyValue else .data) = .data ↔
      isKeyValue pf header body = false := by
    cases isKeyValue pf header body <;> simp
  have hempty : body.length ≤ MAX_TABLE_ROWS → (((body.take MAX_TABLE_ROWS).map (rowTexts pf)).filter
      (fun row => row.any (!·.isEmpty)) = [] ↔
        ∀ row ∈ body, ∀ text ∈ rowTexts pf row, text = []) := fun hle => by
    rw [take_of_length_le hle, filter_eq_nil_iff]
    simp
  simp only [readParts, hnolabels, TableRead.mk.injEq, take_nil, map_nil, filter_nil,
    length_nil, Nat.zero_sub, any_nil, Bool.or_false, Bool.false_eq_true, if_false, hkind,
    true_and, Nat.sub_eq_zero_iff_le]
  constructor
  · rintro ⟨hk, hheaders, hrows, hle, hwide⟩
    rw [take_of_length_le hle] at hwide
    exact ⟨hheaders, (hempty hle).1 hrows, hle, hk, hwide⟩
  · rintro ⟨hheaders, hrows, hle, hk, hwide⟩
    rw [take_of_length_le hle]
    have := (hempty hle).2 hrows
    rw [take_of_length_le hle] at this
    exact ⟨hk, hheaders, this, hle, hwide⟩

/-! ## The promise -/

lemma getElem?_readTables (page : List PageNode) {position : ℕ} {table : Located}
    (hat : (tablesOf pf page)[position]? = some table) (hshown : position < MAX_TABLES) :
    (readTables pf page)[position]? = some (readTable pf table position) := by
  rw [readTables, getElem?_mapIdx, getElem?_take_of_lt hshown, hat]
  rfl

lemma readTables_alone (hn : tagOf pf n = "table")
    (hnested : ∀ l ∈ below [] n, tagOf pf l.node ≠ "table") :
    readTables pf [n] = [readTable pf ⟨[], n⟩ 0] := by
  have helement : isElement n := by
    cases n with
    | element => rfl
    | text => simp [tagOf] at hn
    | other => simp [tagOf] at hn
  have hnone : (below [] n).filter (tagOf pf ·.node = "table") = [] :=
    filter_eq_nil_iff.2 fun l hl => by simpa using hnested l hl
  have htables : tablesOf pf [n] = [⟨[], n⟩] := by
    rw [tablesOf, belowAll, if_pos helement, belowAll, append_nil, filter_append, hnone]
    simp [hn]
  rw [readTables, htables]
  rfl

lemma readTable_under (hn : tagOf pf n = "table") (hctx : ctx.any (isHiddenElement pf) = false)
    (position : ℕ) :
    { readTable pf ⟨ctx, n⟩ position with index := 0 } = readTable pf ⟨[], n⟩ 0 ↔
      ctx.any (tagOf pf · = "thead") = false ∨ HeadOnly pf ⟨[], n⟩ := by
  have hcaption : captionOf pf ⟨ctx, n⟩ = captionOf pf ⟨[], n⟩ :=
    captionOf_under hctx ⟨[], n⟩
  rw [readTable, readTable, isLayout_under hn ctx, HeadOnly, hcaption]
  split_ifs with hlayout
  · exact iff_of_true rfl (.inr (.inl hlayout))
  rw [or_iff_right (a := isLayout pf ⟨[], n⟩ = true) hlayout, ownRows_under hn ctx]
  cases hhead : ctx.any (tagOf pf · = "thead") with
  | false =>
    obtain ⟨hheader, hbody⟩ := parts_under hhead (ownRows pf ⟨[], n⟩)
    rw [hheader, hbody, readParts_under hctx]
    exact iff_of_true rfl (.inl rfl)
  | true =>
    obtain ⟨hheader, hbody⟩ := parts_of_head hhead (ownRows pf ⟨[], n⟩)
    have hparts := readParts_under hctx position (captionOf pf ⟨[], n⟩)
      (ownRows pf ⟨[], n⟩).head? []
    rw [map_nil] at hparts
    rw [hheader, hbody, hparts, or_iff_right (by simp), ← readParts_eq_iff, eq_comm]
    rfl

/-- **A table is read as on a page of its own exactly when no head is around it**, or it has nothing
that a head would take. The rows it is read with are then its own body rows without the empty ones;
that no row is both header and body, and that no row is another table's, holds of every reading.

**Proof sketch.** The rows of the table are its own whatever is above it, and so is every text,
for no node above is hidden. What looks further up is only whether a row is in a head. -/
theorem readsAsAlone_iff {page : List PageNode} {position : ℕ} {table : Located}
    (hat : (tablesOf pf page)[position]? = some table) (hshown : position < MAX_TABLES)
    (hvisible : isHidden pf table = false)
    (hnested : ∀ l ∈ below table.above table.node, tagOf pf l.node ≠ "table") :
    ReadsAsAlone pf page position table ↔
      table.above.any (tagOf pf · = "thead") = false ∨ HeadOnly pf ⟨[], table.node⟩ := by
  have htable : tagOf pf table.node = "table" := by
    simpa using (List.mem_filter.1 (List.mem_of_getElem? hat)).2
  have hctx : table.above.any (isHiddenElement pf) = false := by
    rw [isHidden, List.any_cons, Bool.or_eq_false_iff] at hvisible
    exact hvisible.2
  have hnested' : ∀ l ∈ below [] table.node, tagOf pf l.node ≠ "table" := by
    intro l hl
    have hbelow := below_append table.node [] table.above
    rw [List.nil_append] at hbelow
    exact hnested (l.under table.above) (hbelow ▸ List.mem_map_of_mem hl)
  have hread := getElem?_readTables page hat hshown
  have halone := readTables_alone htable hnested'
  rw [← readTable_under htable hctx position]
  constructor
  · rintro ⟨⟨read, hsome, hsame⟩, -, -, -⟩
    rw [hread, Option.some.injEq] at hsome
    rw [halone, List.singleton_inj] at hsame
    rw [hsame, ← hsome]
  · intro hsame
    refine ⟨⟨_, hread, by rw [halone, ← hsame]⟩, fun read hsome hkind => ?_, fun i hi hmem => ?_,
      fun row hrow => ?_⟩
    · rw [hread, Option.some.injEq] at hsome
      have hrows : read.rows = (readTable pf ⟨[], table.node⟩ 0).rows := by rw [← hsame, ← hsome]
      have hkind' : (readTable pf ⟨[], table.node⟩ 0).kind ≠ .layout := by
        rwa [← hsame, hsome]
      rw [hrows, readTable]
      rw [readTable] at hkind'
      split_ifs at hkind' ⊢ with hlayout
      · exact absurd rfl hkind'
      · rfl
    · rw [bodyRows, List.mem_filter] at hmem
      simp [hi] at hmem
    · rw [ownRows, List.mem_filter] at hrow
      simpa using hrow.2

end

/-! ## A table in the head of another -/

/-- Names of tags in lower case, texts without spaces. -/
def plainPages : PagePlatform := ⟨id, id, id⟩

def tagged (tag : String) (children : List PageNode) : PageNode := .element tag [] children

def digitRow (digits : List CodeUnit) : PageNode :=
  tagged "tr" (digits.map fun digit => tagged "td" [.text [digit]])

def digitTable : PageNode :=
  tagged "table" [tagged "tbody" [digitRow [49, 50, 51], digitRow [52, 53, 54]]]

theorem digitTable_readsAsAlone : ReadsAsAlone plainPages [digitTable] 0 ⟨[], digitTable⟩ :=
  (readsAsAlone_iff rfl (by decide) (by decide) (by decide)).2 (.inl rfl)

def layoutPage : List PageNode :=
  [tagged "table" [tagged "thead" [tagged "tr" [tagged "th" [digitTable]]]]]

theorem table_loses_rows : ∃ table, (tablesOf plainPages layoutPage)[1]? = some table ∧
    isHidden plainPages table = false ∧
    (∀ l ∈ below table.above table.node, tagOf plainPages l.node ≠ "table") ∧
    ¬ ReadsAsAlone plainPages layoutPage 1 table := by
  refine ⟨_, rfl, by decide, by decide, fun h => ?_⟩
  obtain ⟨read, hsome, hsame⟩ := h.alone
  have hthere : (readTables plainPages layoutPage)[1]? =
      some { index := 1, kind := .data, caption := none, headers := [[49], [50], [51]] } := by
    decide
  have hhere : readTables plainPages [digitTable] = [{
      index := 0, kind := .data, caption := none
      rows := [[[49], [50], [51]], [[52], [53], [54]]] }] := by
    decide
  rw [hthere, Option.some.injEq] at hsome
  subst hsome
  cases hhere.symm.trans hsame

end Yantra.PageTree
