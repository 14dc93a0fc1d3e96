import Yantra.Lib.Holes
import Yantra.ReportTemplate.Slots

/-!
# The report-template parser

`parseTemplate` reads an optional YAML frontmatter and, line by line, the Markdown below it.
A guidance directive takes whole lines and is bound to the next placeholder; the other lines are
the body, whose placeholders become slots with their offsets in it. The YAML parser and the hash
are parameters. The last check of the manifest against its schema is left out: all it asks for has
been checked by then.

## Main definitions

* `sourceLines` — the lines that the line pattern finds.
* `noLoneCr` — every CR of a text stands before an LF.

## Main results

* `raw_sourceLines` — where every CR stands before an LF, the lines make up the text.
-/

namespace Yantra

open Utf16 List

/-! ## Lines -/

/-- `SourceLine`; `stop` is its `end`. -/
structure SourceLine where
  index : ℕ
  start : ℕ
  stop : ℕ
  content : JsString
  deriving DecidableEq

/-- The lines found from a position on, where the line so far began at `start` and `afterCr` tells
that a CR has followed it. A CR without an LF fits no line: the search for the pattern goes on
behind it. -/
def sourceLinesFrom : ℕ → ℕ → JsString → Bool → JsString → List SourceLine
  | index, start, content, afterCr, [] =>
    if afterCr || content.isEmpty then []
    else [⟨index, start, start + content.length, content⟩]
  | index, start, content, true, c :: cs =>
    if c = 10 then
      ⟨index, start, start + content.length + 2, content⟩ ::
        sourceLinesFrom (index + 1) (start + content.length + 2) [] false cs
    else if c = 13 then sourceLinesFrom index (start + content.length + 1) [] true cs
    else sourceLinesFrom index (start + content.length + 1) [c] false cs
  | index, start, content, false, c :: cs =>
    if c = 10 then
      ⟨index, start, start + content.length + 1, content⟩ ::
        sourceLinesFrom (index + 1) (start + content.length + 1) [] false cs
    else if c = 13 then sourceLinesFrom index start content true cs
    else sourceLinesFrom index start (content ++ [c]) false cs

def sourceLines (text : JsString) : List SourceLine := sourceLinesFrom 0 0 [] false text

/-- `text.slice(line.start, line.end)` -/
def SourceLine.raw (text : JsString) (line : SourceLine) : JsString :=
  Regex.slice text line.start line.stop

/-! ## Frontmatter -/

/-- A value of the frontmatter, as far as the parser tells values apart; `missing` is also null. -/
inductive MetadataValue where
  | missing
  | text (text : JsString)
  | texts (texts : List JsString)
  | other

/-- The frontmatter as YAML: its errors, or null, a mapping, or something else. -/
inductive YamlDocument where
  | malformed (errors : List TemplateParseError)
  | null
  | mapping (name description guidance tags : MetadataValue)
  | other

structure TemplatePlatform extends SlotPlatform where
  /-- `parseDocument(yamlText)`, its errors with their lines and messages as reported. -/
  parseDocument : JsString → YamlDocument
  sha256 : JsString → JsString

structure TemplateMetadata where
  name : Option JsString := none
  description : Option JsString := none
  guidance : Option JsString := none
  tags : List JsString := []

structure ParsedFrontmatter where
  metadata : TemplateMetadata
  body : JsString
  bodyStartLine : ℕ

def normalizeTemplateSlug (pf : TemplatePlatform) (value : JsString) : JsString :=
  let slug := replaceRuns (fun c => !(isLower c || isDigit c)) (units "-") false
    (pf.toLowerCase (trim value))
  ((slug.dropWhile (· = 45)).reverse.dropWhile (· = 45)).reverse

def normalizeTemplateTags (pf : TemplatePlatform) (values : List JsString) : List JsString :=
  let slugs := (values.map (normalizeTemplateSlug pf)).filter fun tag => !tag.isEmpty
  slugs.dedup.insertionSort fun a b => a ≤ b

/-- The name of a frontmatter, and what is wrong with it. -/
def metadataName (pf : TemplatePlatform) : MetadataValue →
    Option JsString × List TemplateParseError
  | .missing => (none, [])
  | .text rawName =>
    let name := normalizeTemplateSlug pf rawName
    (some name, if isTemplateName name then []
      else [⟨2, units "frontmatter name must normalize to a 1-64 character slug"⟩])
  | .texts _ | .other => (none, [⟨2, units "frontmatter name must be a string"⟩])

def nonEmpty (text : JsString) : Option JsString := if text.isEmpty then none else some text

def metadataDescription : MetadataValue → Option JsString × List TemplateParseError
  | .missing => (none, [])
  | .text rawDescription => (nonEmpty (collapsed rawDescription), [])
  | .texts _ | .other => (none, [⟨2, units "frontmatter description must be a string"⟩])

def metadataGuidance : MetadataValue → Option JsString × List TemplateParseError
  | .missing => (none, [])
  | .text rawGuidance =>
    let guidance := nonEmpty (collapsed rawGuidance)
    (guidance, match guidance with
      | none => []
      | some text => checkGuidance text 2 MAX_DOCUMENT_GUIDANCE_CHARS)
  | .texts _ | .other => (none, [⟨2, units "frontmatter guidance must be a string"⟩])

def metadataTags (pf : TemplatePlatform) (value : MetadataValue) :
    List JsString × List TemplateParseError :=
  let normalized (values : List JsString) : List JsString × List TemplateParseError :=
    let tags := normalizeTemplateTags pf values
    (tags, match tags.find? fun tag => !isTemplateName tag with
      | none => []
      | some invalid =>
        [⟨2, units "tag \"" ++ invalid ++ units "\" exceeds the 64 character slug limit"⟩])
  match value with
  | .missing => ([], [])
  | .text text => normalized (text.splitOn 44)
  | .texts texts => normalized texts
  | .other => ([], [⟨2, units "frontmatter tags must be a string or string array"⟩])

/-- The metadata of the YAML, or everything wrong with it. -/
def readMetadata (pf : TemplatePlatform) :
    YamlDocument → Except (List TemplateParseError) TemplateMetadata
  | .malformed errors => .error errors
  | .other => .error [⟨2, units "YAML frontmatter must be a mapping"⟩]
  | .null => .ok {}
  | .mapping rawName rawDescription rawGuidance rawTags =>
    let name := metadataName pf rawName
    let description := metadataDescription rawDescription
    let guidance := metadataGuidance rawGuidance
    let tags := metadataTags pf rawTags
    let errors := name.2 ++ description.2 ++ guidance.2 ++ tags.2
    if errors.isEmpty then .ok ⟨name.1, description.1, guidance.1, tags.1⟩ else .error errors

def isDelimiter (content : JsString) : Bool := trim content = units "---"

/-- The content of the first line, without a byte order mark. -/
def withoutBom (content : JsString) : JsString :=
  if content.head? = some 0xFEFF then content.tail else content

def parseFrontmatter (pf : TemplatePlatform) (text : JsString) :
    Except (List TemplateParseError) ParsedFrontmatter :=
  match sourceLines text with
  | [] => .ok ⟨{}, text, 1⟩
  | first :: lines =>
    if !isDelimiter (withoutBom first.content) then .ok ⟨{}, text, 1⟩
    else
      match lines.find? fun line => isDelimiter line.content with
      | none => .error [⟨1, units "YAML frontmatter is missing its closing --- delimiter"⟩]
      | some closing =>
        match readMetadata pf (pf.parseDocument (Regex.slice text first.stop closing.start)) with
        | .error errors => .error errors
        | .ok metadata => .ok ⟨metadata, text.drop closing.stop, closing.index + 2⟩

/-! ## Placeholders -/

/-- What stands before the first `}}`, if it is on the line. -/
def untilClose : JsString → Option JsString
  | [] => none
  | c :: cs =>
    if c = 125 && cs.head? = some 125 then some []
    else if endsLine c then none
    else (untilClose cs).map (c :: ·)

def placeholderAt (text : JsString) : Option JsString :=
  if text.take 2 = units "\x7b\x7b" then untilClose (text.drop 2) else none

/-- A piece of a line: text, or a placeholder with its inner text. -/
inductive Segment where
  | text (w : JsString)
  | placeholder (inner : JsString)

/-- A piece as written. -/
def Segment.source : Segment → JsString
  | .text w => w
  | .placeholder inner => units "\x7b\x7b" ++ inner ++ units "\x7d\x7d"

/-- The pieces of a line, with the text so far; the length of the line is fuel enough. -/
def segmentsFrom : ℕ → JsString → JsString → List Segment
  | 0, word, rest => [.text (word ++ rest)]
  | _ + 1, word, [] => [.text word]
  | fuel + 1, word, c :: cs =>
    match placeholderAt (c :: cs) with
    | some inner =>
      .text word :: .placeholder inner :: segmentsFrom fuel [] ((c :: cs).drop (inner.length + 4))
    | none => segmentsFrom fuel (word ++ [c]) cs

/-- `content.matchAll(/\{\{(.*?)\}\}/gu)`, with the text between the matches. -/
def segments (content : JsString) : List Segment := segmentsFrom content.length [] content

/-- The line with its placeholders blanked out. -/
def maskRanges (pieces : List Segment) : JsString :=
  pieces.flatMap fun
    | .text w => w
    | .placeholder inner => List.replicate (inner.length + 4) 32

def withoutPlaceholders (content : JsString) : JsString :=
  (segments content).flatMap fun
    | .text w => w
    | .placeholder _ => []

/-! ## Headings -/

/-- `(.+?)[ \t]*#*[ \t]*$` -/
def headingText : JsString → Option JsString
  | [] => none
  | c :: cs =>
    if endsLine c then none
    else if (((cs.dropWhile isBlank).dropWhile (· = 35)).dropWhile isBlank).isEmpty then some [c]
    else (headingText cs).map (c :: ·)

/-- `/^(#{1,6})[ \t]+(.+?)[ \t]*#*[ \t]*$/u`: the depth and the text. -/
def headingOf (content : JsString) : Option (ℕ × JsString) :=
  let hashes := content.takeWhile (· = 35)
  let rest := content.dropWhile (· = 35)
  let blanks := rest.takeWhile isBlank
  if hashes.isEmpty || 6 < hashes.length || blanks.isEmpty then none
  else
    match rest.dropWhile isBlank with
    | [] => if blanks.length < 2 then none else (blanks.getLast?).map fun c => (hashes.length, [c])
    | body => (headingText body).map fun text => (hashes.length, text)

/-- The headings above the next line; an absent level is empty. -/
def nextHeadings (headings : List JsString) (content : JsString) : List JsString :=
  match headingOf content with
  | none => headings
  | some (depth, text) =>
    let static := collapsed ((withoutPlaceholders text).filter fun c => c ≠ 0x1B && c ≠ 0x9B)
    let kept := headings.take (depth - 1)
    if static.isEmpty then kept
    else kept ++ List.replicate (depth - 1 - kept.length) [] ++ [static]

/-! ## The body -/

structure PendingGuidance where
  text : JsString
  line : ℕ

/-- Where the parser stands between two lines. -/
structure BodyState where
  errors : List TemplateParseError := []
  slots : List TemplateSlot := []
  seen : OrderedMap JsString ℕ := .empty
  headings : List JsString := []
  parts : List JsString := []
  bodyOffset : ℕ := 0
  /-- `open`: the lines of a directive that is not closed yet. -/
  opened : Option (List JsString × ℕ) := none
  pending : Option PendingGuidance := none

/-- The start of a directive: `/^[ \t]*<!--[ \t]*guidance[ \t]*:/iu`. -/
def directivePattern : Regex CodeUnit :=
  .seqs [.atStart, .star (.sym isBlank), word "<!--", .star (.sym isBlank), wordI "guidance",
    .star (.sym isBlank), word ":"]

/-- A word character of `\b` under `iu`. -/
def isWordFolded (c : CodeUnit) : Bool := isWord c || c = 0x17F || c = 0x212A

/-- `/<!--[ \t]*guidance\b/iu` -/
def inlineDirectivePattern : Regex CodeUnit :=
  .seqs [word "<!--", .star (.sym isBlank), wordI "guidance", .boundary isWordFolded]

/-- What follows the start of a directive on its line. -/
def directiveRemainder (content : JsString) : Option JsString :=
  (directivePattern.exec content 0).map fun m => content.drop m.text.length

/-- `remainder.indexOf('-->')` -/
def closesAt (text : JsString) : Option ℕ := indexOf text (units "-->") 0

def queueGuidance (raw : JsString) (line : ℕ) (st : BodyState) : BodyState :=
  let text := collapsed raw
  let errors := st.errors ++ checkGuidance text line MAX_GUIDANCE_CHARS
  match st.pending with
  | some current =>
    { st with errors := errors ++
        [⟨line, units ("a second guidance directive precedes the same slot (first on line " ++
          toString current.line ++ ")")⟩] }
  | none => { st with errors := errors, pending := some ⟨text, line⟩ }

def checkClosing (rest : JsString) (line : ℕ) (st : BodyState) : BodyState :=
  if (trim rest).isEmpty then st
  else { st with errors := st.errors ++
    [⟨line, units "guidance directive must end its line at \"-->\""⟩] }

/-- One round of the loop over the placeholders of a line. -/
def placeholderRead (pf : TemplatePlatform) (line offset : ℕ) (inner : JsString) (st : BodyState) :
    BodyState :=
  let bound := st.pending
  let st := { st with pending := none }
  match parseSlot pf.toSlotPlatform inner line (st.headings.filter fun h => !h.isEmpty) with
  | .error errors => { st with errors := st.errors ++ errors }
  | .ok slot =>
    match st.seen.get? slot.key with
    | some priorLine =>
      { st with errors := st.errors ++
          [⟨line, units "duplicate slot key \"" ++ slot.key ++
            units ("\" (first declared on line " ++ toString priorLine ++ ")")⟩] }
    | none =>
      { st with
        seen := st.seen.set slot.key line
        errors := st.errors ++ match bound with
          | some guidance =>
            if slot.key = units "sources" then
              [⟨guidance.line, units ("guidance cannot be attached to the reserved sources slot; " ++
                "use frontmatter guidance for document-level notes")⟩]
            else []
          | none => []
        slots := st.slots ++ [{ slot with
          guidance := if slot.key = units "sources" then none else bound.map PendingGuidance.text
          offset := offset }] }

/-- The loop over the placeholders of a line, from an offset in the body. -/
def placeholdersRead (pf : TemplatePlatform) (line : ℕ) : ℕ → List Segment → BodyState → BodyState
  | _, [], st => st
  | offset, .text w :: pieces, st => placeholdersRead pf line (offset + w.length) pieces st
  | offset, .placeholder inner :: pieces, st =>
    placeholdersRead pf line (offset + (inner.length + 4)) pieces
      (placeholderRead pf line offset inner st)

def checkBraces (unmatched : JsString) (line : ℕ) : List TemplateParseError :=
  (if includes unmatched (units "\x7b\x7b") then
    [⟨line, units "malformed placeholder: missing closing \"\x7d\x7d\""⟩] else []) ++
  (if includes unmatched (units "\x7d\x7d") then
    [⟨line, units "malformed placeholder: closing \"\x7d\x7d\" has no opening"⟩] else [])

def bodyLineRead (pf : TemplatePlatform) (line : ℕ) (content raw : JsString) (st : BodyState) :
    BodyState :=
  let st := if inlineDirectivePattern.test content then
      { st with errors := st.errors ++
          [⟨line, units "guidance directives must occupy their own line(s)"⟩] }
    else st
  let st := { st with
    parts := st.parts ++ [raw]
    headings := nextHeadings st.headings content }
  let st := placeholdersRead pf line st.bodyOffset (segments content) st
  { st with
    errors := st.errors ++ checkBraces (maskRanges (segments content)) line
    bodyOffset := st.bodyOffset + raw.length }

/-- One round of the loop over the lines. -/
def lineRead (pf : TemplatePlatform) (rawBody : JsString) (bodyStartLine : ℕ) (st : BodyState)
    (line : SourceLine) : BodyState :=
  let lineNumber := bodyStartLine + line.index
  match st.opened with
  | some (texts, openLine) =>
    match closesAt line.content with
    | none => { st with opened := some (texts ++ [line.content], openLine) }
    | some closing =>
      let st := checkClosing (line.content.drop (closing + 3)) lineNumber st
      let raw := List.intercalate (units "\n") (texts ++ [line.content.take closing])
      { queueGuidance raw openLine st with opened := none }
  | none =>
    match directiveRemainder line.content with
    | some remainder =>
      match closesAt remainder with
      | none => { st with opened := some ([remainder], lineNumber) }
      | some closing =>
        queueGuidance (remainder.take closing) lineNumber
          (checkClosing (remainder.drop (closing + 3)) lineNumber st)
    | none => bodyLineRead pf lineNumber line.content (line.raw rawBody) st

/-- What is wrong with the template as a whole. -/
def checkEnd (st : BodyState) (bodyStartLine : ℕ) : List TemplateParseError :=
  (match st.opened with
    | some (_, line) => [⟨line, units "unterminated guidance directive: expected \"-->\""⟩]
    | none => []) ++
  (match st.pending with
    | some guidance => [⟨guidance.line, units ("guidance directive is not followed by a slot; " ++
        "move it above a model-filled slot or use frontmatter guidance for document-level notes")⟩]
    | none => []) ++
  (if st.slots.isEmpty then [⟨bodyStartLine, units "template must declare at least one slot"⟩]
    else [])

structure TemplateManifest where
  metadata : TemplateMetadata
  slots : List TemplateSlot
  body : JsString
  hash : JsString

def parseTemplate (pf : TemplatePlatform) (text : JsString) :
    Except (List TemplateParseError) TemplateManifest :=
  match parseFrontmatter pf text with
  | .error errors => .error errors
  | .ok frontmatter =>
    let st := (sourceLines frontmatter.body).foldl
      (lineRead pf frontmatter.body frontmatter.bodyStartLine) {}
    let errors := st.errors ++ checkEnd st frontmatter.bodyStartLine
    if errors.isEmpty then
      .ok ⟨frontmatter.metadata, st.slots, st.parts.flatten, pf.sha256 text⟩
    else .error errors

/-! ## What the lines are -/

/-- Every CR stands before an LF. -/
def noLoneCr : JsString → Bool
  | [] => true
  | c :: cs => (c ≠ 13 || cs.head? = some 10) && noLoneCr cs

/-- The end of a text without lone CRs has none.

**Proof sketch.** Induction on what stands before the end. -/
lemma noLoneCr_of_append {text front rest : JsString} (htext : front ++ rest = text)
    (h : noLoneCr text) : noLoneCr rest := by
  subst htext
  induction front with
  | nil => exact h
  | cons c front ih =>
    rw [cons_append, noLoneCr, Bool.and_eq_true] at h
    exact ih h.2

/-- The lines read a text: each is content without line breaks and a line break, which the last
may lack. -/
def ReadsLines (text : JsString) : List SourceLine → Prop
  | [] => True
  | line :: lines =>
    (∃ lineBreak, line.raw text = line.content ++ lineBreak ∧
      (lineBreak = [10] ∨ lineBreak = [13, 10] ∨ lineBreak = [] ∧ lines = [])) ∧
    ReadsLines text lines

/-- The lines follow one upon another from `n` on. -/
def Contiguous : ℕ → List SourceLine → Prop
  | _, [] => True
  | n, line :: lines => line.start = n ∧ n ≤ line.stop ∧ Contiguous line.stop lines

def endOf : ℕ → List SourceLine → ℕ
  | n, [] => n
  | _, line :: lines => endOf line.stop lines

/-- The CR that has followed the content. -/
def pendingCr (afterCr : Bool) : JsString := if afterCr then [13] else []

lemma slice_at {before w after : JsString} {i j : ℕ} (hi : before.length = i)
    (hj : i + w.length = j) : Regex.slice (before ++ w ++ after) i j = w := by
  subst hi hj
  rw [Regex.slice, append_assoc, take_length_add_append, take_left,
    drop_left]

/-- The lines found read the text.

**Proof sketch.** Induction on what is left of the text, in the places where the line so far stands
generalized: `before` is what lies before it. -/
lemma readsLines_sourceLinesFrom {text before content rest : JsString} {index start : ℕ}
    {afterCr : Bool} (htext : text = before ++ (content ++ pendingCr afterCr ++ rest))
    (hstart : before.length = start) :
    ReadsLines text (sourceLinesFrom index start content afterCr rest) := by
  induction rest generalizing before content index start afterCr with
  | nil =>
    rw [sourceLinesFrom]
    split
    next => trivial
    next hopen =>
      simp only [Bool.or_eq_true, not_or, Bool.not_eq_true] at hopen
      refine ⟨⟨[], ?_, .inr (.inr ⟨rfl, rfl⟩)⟩, trivial⟩
      have hslice := @slice_at before content [] start _ hstart rfl
      rw [htext, hopen.1, SourceLine.raw]
      simpa [pendingCr] using hslice
  | cons c cs ih =>
    cases afterCr with
    | true =>
      rw [sourceLinesFrom]
      split_ifs with hlf hcr
      · subst hlf
        have hrest : text = before ++ (content ++ [13, 10]) ++ ([] ++ pendingCr false ++ cs) := by
          simp [htext, pendingCr]
        have hstop : start + (content ++ [13, 10]).length = start + content.length + 2 := by
          simp [Nat.add_assoc]
        have hslice := @slice_at before _ cs start _ hstart hstop
        refine ⟨⟨[13, 10], ?_, .inr (.inl rfl)⟩, ih hrest (by simp [hstart, Nat.add_assoc])⟩
        rw [htext, SourceLine.raw]
        simpa [pendingCr] using hslice
      · subst hcr
        have hrest : text = before ++ (content ++ [13]) ++ ([] ++ pendingCr true ++ cs) := by
          simp [htext, pendingCr]
        exact ih hrest (by simp [hstart, Nat.add_assoc])
      · have hrest : text = before ++ (content ++ [13]) ++ ([c] ++ pendingCr false ++ cs) := by
          simp [htext, pendingCr]
        exact ih hrest (by simp [hstart, Nat.add_assoc])
    | false =>
      rw [sourceLinesFrom]
      split_ifs with hlf hcr
      · subst hlf
        have hrest : text = before ++ (content ++ [10]) ++ ([] ++ pendingCr false ++ cs) := by
          simp [htext, pendingCr]
        have hstop : start + (content ++ [10]).length = start + content.length + 1 := by
          simp [Nat.add_assoc]
        have hslice := @slice_at before _ cs start _ hstart hstop
        refine ⟨⟨[10], ?_, .inl rfl⟩, ih hrest (by simp [hstart, Nat.add_assoc])⟩
        rw [htext, SourceLine.raw]
        simpa [pendingCr] using hslice
      · subst hcr
        have hrest : text = before ++ (content ++ pendingCr true ++ cs) := by
          simp [htext, pendingCr]
        exact ih hrest hstart
      · have hrest : text = before ++ ((content ++ [c]) ++ pendingCr false ++ cs) := by
          simp [htext, pendingCr]
        exact ih hrest hstart

/-- Where no CR is alone, the lines follow one upon another, to the end of the text.

**Proof sketch.** Induction on what is left of the text. -/
lemma contiguous_sourceLinesFrom {content rest : JsString} {index start : ℕ} {afterCr : Bool}
    (hno : noLoneCr (pendingCr afterCr ++ rest)) :
    Contiguous start (sourceLinesFrom index start content afterCr rest) ∧
      endOf start (sourceLinesFrom index start content afterCr rest) =
        start + (content ++ pendingCr afterCr ++ rest).length := by
  induction rest generalizing content index start afterCr with
  | nil =>
    cases afterCr with
    | true => simp [pendingCr, noLoneCr] at hno
    | false =>
      rw [sourceLinesFrom]
      cases content with
      | nil => exact ⟨trivial, by simp [endOf, pendingCr]⟩
      | cons d ds => simp [Contiguous, endOf, pendingCr]
  | cons c cs ih =>
    cases afterCr with
    | true =>
      simp only [pendingCr, if_true, cons_append, nil_append, noLoneCr,
        Bool.and_eq_true, head?_cons, decide_eq_true_eq, Option.some.injEq,
        Bool.or_eq_true, ne_eq, not_true_eq_false, decide_false, Bool.false_eq_true,
        false_or] at hno
      obtain ⟨rfl, -, hrest⟩ := hno
      obtain ⟨hcont, hend⟩ := @ih [] (index + 1)
        (start + content.length + 2) false hrest
      rw [sourceLinesFrom, if_pos rfl]
      refine ⟨⟨rfl, (Nat.le_add_right _ _).trans (Nat.le_add_right _ _), hcont⟩, ?_⟩
      rw [endOf, hend]
      simp [pendingCr]
      omega
    | false =>
      simp only [pendingCr, Bool.false_eq_true, if_false, nil_append, noLoneCr,
        Bool.and_eq_true] at hno
      rw [sourceLinesFrom]
      split_ifs with hlf hcr
      · obtain ⟨hcont, hend⟩ := @ih [] (index + 1)
          (start + content.length + 1) false hno.2
        refine ⟨⟨rfl, (Nat.le_add_right _ _).trans (Nat.le_add_right _ _), hcont⟩, ?_⟩
        rw [endOf, hend]
        simp [pendingCr]
        omega
      · subst hcr
        obtain ⟨hcont, hend⟩ := @ih content index start true
          (by simpa [pendingCr, noLoneCr] using hno)
        exact ⟨hcont, by rw [hend]; simp [pendingCr]⟩
      · obtain ⟨hcont, hend⟩ := @ih (content ++ [c]) index start false
          (by simpa [pendingCr] using hno.2)
        exact ⟨hcont, by rw [hend]; simp [pendingCr]⟩

lemma readsLines_sourceLines (text : JsString) : ReadsLines text (sourceLines text) :=
  @readsLines_sourceLinesFrom text [] [] text 0 0 false rfl rfl

variable {lines : List SourceLine} {n : ℕ}

lemma le_endOf (h : Contiguous n lines) : n ≤ endOf n lines := by
  induction lines generalizing n with
  | nil => exact le_rfl
  | cons line lines ih => exact h.2.1.trans (ih h.2.2)

lemma flatten_raw (h : Contiguous n lines) (text : JsString) :
    (lines.map (SourceLine.raw text)).flatten = Regex.slice text n (endOf n lines) := by
  induction lines generalizing n with
  | nil => simp [endOf, Regex.slice]
  | cons line lines ih =>
    obtain ⟨rfl, hle, hrest⟩ := h
    rw [map_cons, flatten_cons, ih hrest, SourceLine.raw, endOf,
      Regex.slice_append_slice text hle (le_endOf hrest)]

/-- **No text is lost between the lines**, where every CR stands before an LF. -/
theorem raw_sourceLines {text : JsString} (h : noLoneCr text) :
    ((sourceLines text).map (SourceLine.raw text)).flatten = text := by
  obtain ⟨hcont, hend⟩ := @contiguous_sourceLinesFrom [] text 0 0 false h
  rw [sourceLines, flatten_raw hcont, hend]
  simp [Regex.slice, pendingCr]

end Yantra
