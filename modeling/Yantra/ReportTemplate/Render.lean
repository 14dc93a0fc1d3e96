import Yantra.ReportTemplate.Body

/-!
# Rendering a report template

`renderTemplate` puts the contents of the slots into the body of a template at the offsets that the
parser recorded, the last slot first, and makes the line endings uniform.

## Main definitions

* `slotContent` — the Markdown of a slot.
* `canonicalMarkdown` — line endings as LF, and none at the end.

## Main results

* `renderTemplate_fills` — the rendered report is the body with every placeholder replaced by
  the content of its slot.
-/

namespace Yantra

open Utf16 List Option

inductive TemplateSlotValue where
  | text (text : JsString)
  | list (entries : List JsString)
  | table (rows : List (List JsString))

/-- `BriefSource`, as far as a report shows it. -/
structure BriefSource where
  n : ℕ
  url : JsString
  host : JsString
  title : Option JsString

/-! ## Contents of slots -/

/-- `text.replace(/\r?\n/gu, instead)` -/
def replaceBreaks (instead : JsString) : JsString → JsString
  | [] => []
  | c :: cs =>
    if c = 13 && cs.head? = some 10 then replaceBreaks instead cs
    else if c = 10 then instead ++ replaceBreaks instead cs
    else c :: replaceBreaks instead cs

def escapeTableCell (value : JsString) : JsString :=
  (replaceBreaks (units "<br>") value).flatMap fun c => if c = 124 then [92, 124] else [c]

def escapeLinkLabel (value : JsString) : JsString :=
  replaceBreaks (units " ")
    (value.flatMap fun c => if c = 92 || c = 91 || c = 93 then [92, c] else [c])

/-- `values.join(separator)` -/
def joined (separator : String) (values : List JsString) : JsString :=
  List.intercalate (units separator) values

def renderSources (sources : List BriefSource) : JsString :=
  if sources.isEmpty then units "_No sources were consulted._"
  else joined "\n" <| sources.map fun source =>
    units (toString source.n ++ ". [") ++ escapeLinkLabel (source.title.getD source.host) ++
      units "](" ++ source.url ++ units ")"

def tableRow (cells : List JsString) : JsString :=
  units "| " ++ joined " | " cells ++ units " |"

def renderSlot (slot : TemplateSlot) (value : Option TemplateSlotValue) : JsString :=
  match slot.kind with
  | .text | .markdown =>
    match value with
    | some (.text text) => text
    | _ => []
  | .list =>
    match value with
    | some (.list entries) => joined "\n" (entries.map fun entry => units "- " ++ entry)
    | _ => []
  | .table =>
    let columns := slot.columns.getD []
    let rows := match value with
      | some (.table rows) => rows
      | _ => []
    joined "\n" (tableRow (columns.map escapeTableCell) ::
      tableRow (columns.map fun _ => units "---") ::
      rows.map fun row => tableRow (row.map escapeTableCell))
  | .sources => []

/-- The replacement of a placeholder. -/
def slotContent (slots : OrderedMap JsString TemplateSlotValue) (sources : List BriefSource)
    (slot : TemplateSlot) : JsString :=
  if slot.kind = .sources then renderSources sources else renderSlot slot (slots.get? slot.key)

/-! ## The report -/

/-- One round of the loop over the slots. -/
def replaceSlot (content : TemplateSlot → JsString) (slot : TemplateSlot) (offset : ℕ)
    (rendered : JsString) : JsString :=
  match indexOf rendered (units "\x7d\x7d") offset with
  | none => rendered
  | some close => rendered.take offset ++ content slot ++ rendered.drop (close + 2)

/-- `text.replace(/\r\n/gu, '\n')` -/
def crlfToLf : JsString → JsString
  | [] => []
  | c :: cs => if c = 13 && cs.head? = some 10 then crlfToLf cs else c :: crlfToLf cs

/-- Line endings as LF, and none at the end. -/
def canonicalMarkdown (text : JsString) : JsString :=
  ((crlfToLf text).reverse.dropWhile (· = 10)).reverse

def renderTemplate (manifest : TemplateManifest) (slots : OrderedMap JsString TemplateSlotValue)
    (sources : List BriefSource) : JsString :=
  canonicalMarkdown <|
    (manifest.slots.insertionSort fun left right => right.offset ≤ left.offset).foldl
      (fun rendered slot => replaceSlot (slotContent slots sources) slot slot.offset rendered)
      manifest.body

/-! ## One replacement -/

/-- The first `}}` behind the start of a placeholder ends it.

**Proof sketch.** Induction on the inner text: none of its code units starts a `}}`. -/
lemma indexOf_close {inner : JsString} (h : untilClose (inner ++ units "\x7d\x7d") = some inner)
    (after : JsString) :
    indexOf (inner ++ units "\x7d\x7d" ++ after) (units "\x7d\x7d") 0 = some inner.length := by
  induction inner with
  | nil => exact indexOf_cons 125 (125 :: after) (units "\x7d\x7d")
  | cons c cs ih =>
    rw [cons_append, untilClose] at h
    split_ifs at h with hclose hends
    · cases h
    · obtain ⟨tail, htail, heq⟩ := map_eq_some_iff.1 h
      obtain rfl := (List.cons.inj heq).2
      have hno : (units "\x7d\x7d").isPrefixOf
          (c :: (tail ++ units "\x7d\x7d" ++ after)) = false := by
        rw [Bool.eq_false_iff]
        intro hpre
        obtain ⟨rest, hrest⟩ := isPrefixOf_iff_prefix.1 hpre
        change 125 :: 125 :: rest = c :: (tail ++ units "\x7d\x7d" ++ after) at hrest
        obtain ⟨rfl, hnext⟩ := List.cons.inj hrest
        apply hclose
        cases tail with
        | nil => rfl
        | cons d ds =>
          obtain ⟨rfl, -⟩ := List.cons.inj hnext
          rfl
      rw [cons_append, cons_append, indexOf_cons, hno, ih htail]
      simp [Nat.add_comm]

variable {slot : TemplateSlot} {pf : SlotPlatform} {w : JsString}

lemma replaceSlot_placeholder (content : TemplateSlot → JsString) (h : PlaceholderWord pf slot w)
    (before after : JsString) :
    replaceSlot content slot before.length (before ++ w ++ after) =
      before ++ content slot ++ after := by
  obtain ⟨inner, line, headings, rfl, hword, -⟩ := h
  have hclose : indexOf (before ++ (units "\x7b\x7b" ++ inner ++ units "\x7d\x7d") ++ after)
      (units "\x7d\x7d") before.length = some (before.length + (inner.length + 2)) := by
    have hinner := indexOf_close hword after
    have hopen : units "\x7b\x7b" ++ inner ++ units "\x7d\x7d" ++ after =
        123 :: 123 :: (inner ++ units "\x7d\x7d" ++ after) := by
      simp only [append_assoc]
      rfl
    have hno : ∀ text, (units "\x7d\x7d").isPrefixOf (123 :: text) = false := fun _ => rfl
    rw [append_assoc, indexOf_append, hopen, indexOf_cons, hno, indexOf_cons, hno, hinner]
    simp only [Bool.false_eq_true, if_false, map_some, some.injEq]
    omega
  have hdrop : before.length + (inner.length + 2) + 2 =
      (before ++ (units "\x7b\x7b" ++ inner ++ units "\x7d\x7d")).length := by
    rw [length_append, length_placeholder]
    omega
  rw [replaceSlot, hclose]
  dsimp only
  rw [hdrop, drop_left, append_assoc before, take_left]

lemma placeholderWord_ne_nil (h : PlaceholderWord pf slot w) : w ≠ [] := by
  obtain ⟨inner, line, headings, rfl, -⟩ := h
  exact cons_ne_nil _ _

lemma orderedInsert_last {α : Type} {r : α → α → Prop} [DecidableRel r] {a : α} {l : List α}
    (h : ∀ b ∈ l, ¬ r a b) : l.orderedInsert r a = l ++ [a] := by
  induction l with
  | nil => rfl
  | cons b l ih =>
    rw [orderedInsert, if_neg (h b mem_cons_self),
      ih fun c hmem => h c (mem_cons_of_mem b hmem), cons_append]

lemma insertionSort_slots {slots : List TemplateSlot}
    (h : slots.Pairwise fun slot slot' => slot.offset < slot'.offset) :
    (slots.insertionSort fun left right => right.offset ≤ left.offset) = slots.reverse := by
  induction slots with
  | nil => rfl
  | cons slot slots ih =>
    rw [pairwise_cons] at h
    rw [insertionSort_cons, ih h.2, reverse_cons]
    exact orderedInsert_last fun other hmem =>
      Nat.not_le.2 (h.1 other (mem_reverse.1 hmem))

/-! ## The rendered report -/

/-- **The rendered report is the body with every placeholder replaced by the content of its slot**,
in canonical line endings. The body is what the guidance directives leave of the template below its
frontmatter; where no CR is alone, nothing else is missing from it.

**Proof sketch.** The slots lie in the order of their offsets, so sorting reverses them; replacing
the placeholders from the last to the first fills them in. -/
theorem renderTemplate_fills {pf : TemplatePlatform} {text : JsString} {manifest : TemplateManifest}
    (h : parseTemplate pf text = .ok manifest) :
    ∃ fm kept ps, parseFrontmatter pf text = .ok fm ∧ Strips (sourceLines fm.body) kept ∧
      manifest.body = (kept.map (SourceLine.raw fm.body)).flatten ∧
      Parts.source ps = manifest.body ∧ Declares pf.toSlotPlatform 0 ps manifest.slots ∧
      PlainWord (blanked ps) ∧
      (∀ slots sources, renderTemplate manifest slots sources =
        canonicalMarkdown (Parts.fill (slotContent slots sources) ps)) ∧
      (noLoneCr text → ((sourceLines fm.body).map (SourceLine.raw fm.body)).flatten = fm.body ∧
        ∃ front rest, sourceLines text = front ++ rest ∧ (front = [] ∨ IsFrontmatter front) ∧
          (front.map (SourceLine.raw text)).flatten ++ fm.body = text) := by
  obtain ⟨fm, kept, ps, hfm, hstrips, hbody, hsource, hdecl, hplain⟩ := parseTemplate_spec h
  refine ⟨fm, kept, ps, hfm, hstrips, hbody, hsource, hdecl, hplain, fun slots sources => ?_,
    fun hno => ?_⟩
  · have hsorted : manifest.slots.Pairwise fun slot slot' => slot.offset < slot'.offset := by
      have hoffsets := Parts.offsets_increasing 0 fun slot w hmem =>
        placeholderWord_ne_nil (hdecl.2 slot w hmem)
      rw [hdecl.1, List.pairwise_map] at hoffsets
      exact hoffsets
    have hstep : ∀ slot before w after, PlaceholderWord pf.toSlotPlatform slot w →
        replaceSlot (slotContent slots sources) slot before.length (before ++ w ++ after) =
          before ++ slotContent slots sources slot ++ after :=
      fun slot before w after hword => replaceSlot_placeholder _ hword before after
    have hfill := @Parts.foldr_holes _ _
      (fun hole => replaceSlot (slotContent slots sources) hole.1 hole.2) _ _ hstep ps hdecl.2 []
    rw [List.length_nil, hdecl.1, List.foldr_map, List.nil_append, hsource, List.nil_append] at hfill
    rw [renderTemplate, insertionSort_slots hsorted, List.foldl_reverse]
    exact congrArg canonicalMarkdown hfill
  · obtain ⟨front, rest, hlines, hfront, htext⟩ := parseFrontmatter_spec hfm hno
    exact ⟨raw_sourceLines (noLoneCr_of_append htext hno), front, rest, hlines, hfront, htext⟩

/-! ## Examples -/

def weeklyTemplate : JsString :=
  units ("---\nname: weekly\n---\n# Week\n<!-- guidance: be brief -->\n" ++
    "\x7b\x7b summary \x7d\x7d\n")

def crlfTemplate : JsString := units "\x7b\x7b summary \x7d\x7d\r\nEnd\r\n"

def loneCrTemplate : JsString := units "Old\rNew\n\x7b\x7b summary \x7d\x7d\n"

def examplePlatform : TemplatePlatform where
  toLowerCase := List.map toLower
  safeInteger _ := none
  parseDocument _ := .mapping (.text (units "weekly")) .missing .missing .missing
  sha256 text :=
    if text = weeklyTemplate then
      units "26744347455a6846eff56ccc85e52cc066806ceaa8176ce9040ef0cba517318a"
    else if text = crlfTemplate then
      units "e20c68bb031b41f789fc035c775f95441e7bd75f6173a8266362997c9df66944"
    else units "692760f19dc4a486749e331ef9fbc442f5bd752524cf9bb5b2477c4c759cb48d"

/-- The weekly template is accepted, and its rendered report is its body filled in. -/
theorem renderTemplate_fills_weekly :
    ∃ manifest, parseTemplate examplePlatform weeklyTemplate = .ok manifest ∧
      ∃ ps, Parts.source ps = manifest.body ∧
        ∀ slots sources, renderTemplate manifest slots sources =
          canonicalMarkdown (Parts.fill (slotContent slots sources) ps) := by
  have hok : (parseTemplate examplePlatform weeklyTemplate).isOk := by decide +kernel
  cases hparse : parseTemplate examplePlatform weeklyTemplate with
  | error errors =>
    rw [hparse] at hok
    cases hok
  | ok manifest =>
    obtain ⟨_, _, ps, _, _, _, hsource, _, _, hfill, _⟩ := renderTemplate_fills hparse
    exact ⟨manifest, rfl, ps, hsource, hfill⟩

/-- The body and the rendered report of a template where the summary is `Well.`. -/
def bodyAndReport (text : JsString) : Option (JsString × JsString) :=
  (parseTemplate examplePlatform text).toOption.map fun manifest =>
    (manifest.body, renderTemplate manifest
      (OrderedMap.empty.set (units "summary") (.text (units "Well."))) [])

/-- Characters other than the placeholder change: CRLF becomes LF, and the line break at the end is
gone. A line that ends with a CR is missing from the body. -/
theorem renderTemplate_not_verbatim :
    crlfTemplate = units "\x7b\x7b summary \x7d\x7d" ++ units "\r\nEnd\r\n" ∧
    bodyAndReport crlfTemplate = some (crlfTemplate, units "Well.\nEnd") ∧
    units "Well.\nEnd" ≠ units "Well." ++ units "\r\nEnd\r\n" ∧
    bodyAndReport loneCrTemplate =
      some (units "New\n\x7b\x7b summary \x7d\x7d\n", units "New\nWell.") := by
  decide +kernel

end Yantra
