import Mathlib.Data.List.Dedup
import Mathlib.Data.List.Sort
import Yantra.Lib.OrderedMap
import Yantra.Lib.Utf16

/-!
# Slots of a report template

A placeholder `{{ key | kind, constraint=value }}` declares a slot. `parseSlot` reads what stands
between the braces, with the headings above it. Texts are sequences of UTF-16 code units. Reading
a number and lowercasing are the platform's.

## Main definitions

* `parseSlot` — the declaration between the braces of a placeholder, or what is wrong.
* `checkGuidance` — what is wrong with a guidance text.
-/

namespace Yantra

open Utf16 List

/-- What the platform supplies: `toLowerCase`, and the number a text stands for where it is a
non-negative safe integer. -/
structure SlotPlatform where
  toLowerCase : JsString → JsString
  safeInteger : JsString → Option ℕ

structure TemplateParseError where
  line : ℕ
  message : JsString
  deriving DecidableEq

inductive TemplateSlotKind where
  | text | markdown | list | table | sources
  deriving DecidableEq

inductive ConstraintField where
  | minChars | maxChars | minWords | maxWords | min | max
  deriving DecidableEq

def ConstraintField.name : ConstraintField → String
  | .minChars => "minChars"
  | .maxChars => "maxChars"
  | .minWords => "minWords"
  | .maxWords => "maxWords"
  | .min => "min"
  | .max => "max"

def CONSTRAINT_KEYS : List (JsString × ConstraintField) :=
  [(units "min_chars", .minChars), (units "max_chars", .maxChars), (units "min_words", .minWords),
    (units "max_words", .maxWords), (units "min", .min), (units "max", .max)]

/-- What `parseSlot` makes of a placeholder. -/
structure SlotDeclaration where
  key : JsString
  kind : TemplateSlotKind
  headingPath : List JsString
  columns : Option (List JsString)
  constraints : OrderedMap ConstraintField ℕ

structure TemplateSlot extends SlotDeclaration where
  guidance : Option JsString
  offset : ℕ

/-! ## Texts -/

/-- A space or a tab. -/
def isBlank (c : CodeUnit) : Bool := c = 32 || c = 9

/-- A line terminator, which `.` does not match. -/
def endsLine (c : CodeUnit) : Bool := c = 10 || c = 13 || c = 0x2028 || c = 0x2029

/-- Replace every run of matching code units; `inRun` tells that the one before matched. -/
def replaceRuns (p : CodeUnit → Bool) (instead : JsString) : Bool → JsString → JsString
  | _, [] => []
  | inRun, c :: cs =>
    if p c then (if inRun then [] else instead) ++ replaceRuns p instead true cs
    else c :: replaceRuns p instead false cs

/-- `text.replace(/\s+/gu, ' ').trim()` -/
def collapsed (text : JsString) : JsString := trim (collapseSpace false text)

/-- The number of code points: a surrogate pair is one. -/
def codePoints : JsString → ℕ
  | [] => 0
  | [_] => 1
  | c :: d :: cs =>
    if 0xD800 ≤ c && c < 0xDC00 && 0xDC00 ≤ d && d < 0xE000 then codePoints cs + 1
    else codePoints (d :: cs) + 1

/-- Whether a text contains another. -/
def includes (text needle : JsString) : Bool := (indexOf text needle 0).isSome

/-- `TEMPLATE_NAME_PATTERN` -/
def isTemplateName : JsString → Bool
  | [] => false
  | c :: cs => (isLower c || isDigit c) && cs.length ≤ 63 &&
    cs.all fun c => isLower c || isDigit c || c = 45

/-- `SLOT_KEY_PATTERN` -/
def isSlotKey : JsString → Bool
  | [] => false
  | c :: cs => isLower c && cs.length ≤ 47 && cs.all fun c => isLower c || isDigit c || c = 95

/-! ## Guidance -/

def MAX_GUIDANCE_CHARS : ℕ := 500

def MAX_DOCUMENT_GUIDANCE_CHARS : ℕ := 1000

def checkGuidance (text : JsString) (line limit : ℕ) : List TemplateParseError :=
  (if text.isEmpty then [⟨line, units "guidance text must not be empty"⟩] else []) ++
  (if limit < codePoints text then
    [⟨line, units ("guidance exceeds the " ++ toString limit ++ " character limit (" ++
      toString (codePoints text) ++ ")")⟩] else []) ++
  (if includes text (units "\x7b\x7b") || includes text (units "\x7d\x7d") then
    [⟨line, units
      "guidance must not contain template placeholder syntax (\"\x7b\x7b\" or \"\x7d\x7d\")"⟩]
    else []) ++
  (if text.any fun c => c = 0x1B || c = 0x9B then
    [⟨line, units "guidance must not contain raw ANSI escape bytes"⟩] else [])

/-! ## The declaration in a placeholder -/

/-- The loop of `splitTopLevel`, with the depth and the part so far. -/
def splitTopLevelFrom : ℤ → JsString → JsString → List JsString
  | _, part, [] => [part]
  | depth, part, c :: cs =>
    if c = 40 then splitTopLevelFrom (depth + 1) (part ++ [c]) cs
    else if c = 41 then splitTopLevelFrom (depth - 1) (part ++ [c]) cs
    else if c = 44 && depth = 0 then part :: splitTopLevelFrom depth [] cs
    else splitTopLevelFrom depth (part ++ [c]) cs

def splitTopLevel (input : JsString) : List JsString :=
  ((splitTopLevelFrom 0 [] input).map trim).filter fun part => !part.isEmpty

/-- `/^table\((.*)\)$/u`: what stands between the parentheses. -/
def tableColumns (kindToken : JsString) : Option JsString :=
  let inside := (kindToken.drop 6).dropLast
  if kindToken = units "table(" ++ inside ++ units ")" then some inside else none

def slotKindOf (line : ℕ) (kindToken : JsString) :
    Option TemplateSlotKind × Option (List JsString) × List TemplateParseError :=
  match tableColumns kindToken with
  | some inside =>
    let columns := ((inside.splitOn 44).map trim).filter fun column => !column.isEmpty
    (some .table, some columns,
      if columns.isEmpty then [⟨line, units "table slots require at least one column"⟩] else [])
  | none =>
    if kindToken = units "text" then (some .text, none, [])
    else if kindToken = units "markdown" then (some .markdown, none, [])
    else if kindToken = units "list" then (some .list, none, [])
    else if kindToken = units "sources" then (some .sources, none, [])
    else
      (none, none, [⟨line, units "unknown slot kind \"" ++ kindToken ++ units "\""⟩])

/-- `/^([a-z_]+)\s*=\s*(.+)$/u` on a trimmed constraint: the name and the value. -/
def constraintParts (constraint : JsString) : Option (JsString × JsString) :=
  let isName (c : CodeUnit) : Bool := isLower c || c = 95
  let name := constraint.takeWhile isName
  match (constraint.dropWhile isName).dropWhile isSpace with
  | [] => none
  | c :: rest =>
    let value := rest.dropWhile isSpace
    if c = 61 && !name.isEmpty && !value.isEmpty then some (name, value) else none

/-- One round of the loop over the constraints. -/
def readConstraint (pf : SlotPlatform) (line : ℕ) (constraint : JsString)
    (found : OrderedMap ConstraintField ℕ × List TemplateParseError) :
    OrderedMap ConstraintField ℕ × List TemplateParseError :=
  match constraintParts constraint with
  | none => (found.1, found.2 ++
      [⟨line, units "invalid constraint \"" ++ constraint ++ units "\"; expected name=value"⟩])
  | some (name, value) =>
    match CONSTRAINT_KEYS.lookup name with
    | none => (found.1, found.2 ++ [⟨line, units "unknown constraint \"" ++ name ++ units "\""⟩])
    | some field =>
      match pf.safeInteger value with
      | none => (found.1, found.2 ++
          [⟨line, units "constraint \"" ++ name ++ units "\" must be a non-negative integer"⟩])
      | some n => (found.1.set field n, found.2)

def checkBounds (constraints : OrderedMap ConstraintField ℕ) (minKey maxKey : ConstraintField)
    (line : ℕ) : List TemplateParseError :=
  match constraints.get? minKey, constraints.get? maxKey with
  | some lo, some hi =>
    if hi < lo then [⟨line, units (minKey.name ++ " cannot exceed " ++ maxKey.name)⟩] else []
  | _, _ => []

/-- The reserved key and the reserved kind go together, or this is what is wrong. -/
def checkReserved (key : JsString) (kind : TemplateSlotKind) (line : ℕ) :
    List TemplateParseError :=
  (if key = units "sources" ∧ kind ≠ .sources then
    [⟨line, units "the reserved sources slot cannot declare a conflicting kind"⟩] else []) ++
  (if key ≠ units "sources" ∧ kind = .sources then
    [⟨line, units "kind sources is reserved for the sources slot"⟩] else [])

/-- The parts of the qualifier behind the `|`, the kind first. -/
def qualifierParts (pieces : List JsString) : List JsString :=
  match pieces[1]?.map trim with
  | none => []
  | some qualifier => if qualifier.isEmpty then [] else splitTopLevel qualifier

def usualKind (key : JsString) : TemplateSlotKind :=
  if key = units "sources" then .sources else .markdown

/-- The kind of a slot with its columns, and what is wrong with them. -/
def declaredKind (key : JsString) (line : ℕ) (parts : List JsString) :
    TemplateSlotKind × Option (List JsString) × List TemplateParseError :=
  match parts with
  | [] => (usualKind key, none, [])
  | kindToken :: _ =>
    let declared := slotKindOf line kindToken
    (declared.1.getD (usualKind key), declared.2.1, declared.2.2)

/-- The constraints of a slot, and what is wrong with them. -/
def readConstraints (pf : SlotPlatform) (line : ℕ) (parts : List JsString) :
    OrderedMap ConstraintField ℕ × List TemplateParseError :=
  parts.tail.foldl (fun found constraint => readConstraint pf line constraint found)
    (OrderedMap.empty, [])

/-- All three pairs of bounds. -/
def checkAllBounds (constraints : OrderedMap ConstraintField ℕ) (line : ℕ) :
    List TemplateParseError :=
  checkBounds constraints .minChars .maxChars line ++
    checkBounds constraints .minWords .maxWords line ++ checkBounds constraints .min .max line

/-- The part of `parseSlot` after the key. -/
def parseDeclaration (pf : SlotPlatform) (key : JsString) (parts : List JsString) (line : ℕ)
    (headingPath : List JsString) : Except (List TemplateParseError) SlotDeclaration :=
  let declared := declaredKind key line parts
  let found := readConstraints pf line parts
  let errors := declared.2.2 ++ checkReserved key declared.1 line ++ found.2 ++
    checkAllBounds found.1 line
  if errors.isEmpty then .ok ⟨key, declared.1, headingPath, declared.2.1, found.1⟩
  else .error errors

def parseSlot (pf : SlotPlatform) (raw : JsString) (line : ℕ) (headingPath : List JsString) :
    Except (List TemplateParseError) SlotDeclaration :=
  let pieces := raw.splitOn 124
  let key := trim (pieces.headD [])
  if 2 < pieces.length then
    .error [⟨line, units "slot syntax may contain only one \"|\" qualifier separator"⟩]
  else if !isSlotKey key then
    .error [⟨line, units "invalid slot key \"" ++ key ++
      units "\"; expected ^[a-z][a-z0-9_]\x7b0,47\x7d$"⟩]
  else parseDeclaration pf key (qualifierParts pieces) line headingPath

variable {headingPath : List JsString} {pf : SlotPlatform} {line : ℕ}

variable {slot : SlotDeclaration}

variable {raw : JsString}

lemma parseSlot_error {errors : List TemplateParseError}
    (h : parseSlot pf raw line headingPath = .error errors) :
    errors ≠ [] := by
  unfold parseSlot parseDeclaration at h
  dsimp only at h
  split_ifs at h with hpieces hkey hnone
  · obtain rfl := Except.error.inj h
    exact cons_ne_nil _ _
  · obtain rfl := Except.error.inj h
    exact cons_ne_nil _ _
  · obtain rfl := Except.error.inj h
    rintro hnil
    exact hnone (List.isEmpty_iff.2 hnil)

end Yantra
