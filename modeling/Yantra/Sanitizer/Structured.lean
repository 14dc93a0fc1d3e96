import Yantra.Lib.Json
import Yantra.Sanitizer.Redaction

/-!
# Structural sanitization

`sanitizeStructured` redacts a payload leaf by leaf, so that what it returns is still JSON. A string
leaf that is JSON itself is taken apart in the same way. The byte cap is kept by shortening the
longest string leaves, then by dropping the tails of the longest arrays, and where that is not
enough the whole payload is replaced by a marker.

## Main definitions

* `Node`, `buildNode`, `materialize` — the tree of redacted leaves.
* `Sanitized` — every string leaf and every key of a value went through redaction.

## Main results

* `sanitizeStructured_sound` — what is returned is JSON within the byte cap, and sanitized.
-/

namespace Yantra

open Utf16 List Option Json

/-! ## Cutting a text -/

/-- `TRUNCATION_MARKER` -/
def truncationMarker : JsString := units "\n[...truncated by yantra sanitizer]"

/-- `isValidUtf8Prefix`: the bytes are what they decode to, encoded. -/
def isValidUtf8Prefix (bytes : List ℕ) : Bool := (Utf8.decode bytes).flatMap Utf8.encode == bytes

/-- The loop of `findSafeBoundary`. -/
def safeBoundaryFrom (buffer : List ℕ) : ℕ → ℕ
  | 0 => 0
  | n + 1 => if isValidUtf8Prefix (buffer.take (n + 1)) then n + 1 else safeBoundaryFrom buffer n

def findSafeBoundary (buffer : List ℕ) (budget : ℕ) : ℕ :=
  safeBoundaryFrom buffer (min budget buffer.length)

def utf8Prefix (text : JsString) (byteBudget : ℕ) : JsString :=
  if Utf8.byteLength text ≤ byteBudget then text
  else Utf8.toText ((Utf8.ofText text).take (findSafeBoundary (Utf8.ofText text) byteBudget))

def Sanitizer.truncateUtf8 (text : JsString) (byteBudget : ℕ) : JsString × Bool :=
  if Utf8.byteLength text ≤ byteBudget then (text, false)
  else (Utf8.toText ((Utf8.ofText text).take (findSafeBoundary (Utf8.ofText text) byteBudget)) ++
    truncationMarker, true)

/-! ## The tree -/

/-- `STRUCTURED_TRUNCATION_MARKER` -/
def structuredTruncationMarker : JsString := units "…[truncated]"

/-- `MARKER_BYTES` -/
def markerBytes : ℕ := Utf8.byteLength structuredTruncationMarker

/-- `MAX_EMBEDDED_DEPTH` -/
def maxEmbeddedDepth : ℕ := 8

/-- `MAX_SHRINK_ITERATIONS` -/
def maxShrinkIterations : ℕ := 256

/-- `redactText` in the context of one call: the redacted text, and the tags of what was hit. -/
abbrev RedactText := JsString → JsString × List TransformationTag

inductive LiteralLeaf where
  | number (n : Json.Number)
  | bool (b : Bool)
  | null

def LiteralLeaf.toValue : LiteralLeaf → Json.Value
  | .number n => .number n
  | .bool b => .bool b
  | .null => .null

inductive Node where
  | string (text : JsString) (cut : Bool)
  | embedded (node : Node) (indent : Option JsString)
  | array (items : List Node) (dropped : ℕ)
  | object (entries : List (JsString × Node))
  | literal (value : LiteralLeaf)

/-- The indentation of pretty-printed JSON: `/^[[{]\r?\n([ \t]+)/`, its first unit being known. -/
def layoutIndent (trimmed : JsString) : Option JsString :=
  let line := if (trimmed.drop 1).head? = some 13 then trimmed.drop 2 else trimmed.drop 1
  let run := line.tail.takeWhile fun c => c == 32 || c == 9
  if line.head? = some 10 ∧ run ≠ [] then some run else none

/-- `parseEmbeddedJson`: a text that is a serialized object or array, with its layout. -/
def parseEmbeddedJson (numberOf : JsString → Json.Number) (text : JsString) :
    Option (Json.Value × Option JsString) :=
  let trimmed := text.dropWhile isSpace
  if trimmed.head? = some 123 ∨ trimmed.head? = some 91 then
    match Json.parse numberOf text with
    | some (.array items) => some (.array items, layoutIndent trimmed)
    | some (.object members) => some (.object members, layoutIndent trimmed)
    | _ => none
  else none

def textNode (redactText : RedactText) (text : JsString) : Node × List TransformationTag :=
  (.string (redactText text).1 false, (redactText text).2)

/-- The node of a number, which may carry the shape of a sensitive value. -/
def numberNode (redactText : RedactText) (n : Json.Number) : Node × List TransformationTag :=
  if (redactText n.toText).1 = n.toText then (.literal (.number n), (redactText n.toText).2)
  else textNode redactText n.toText

mutual
/-- `buildNode`, with the treatment of a string leaf given. -/
def buildWith (redactText : RedactText) (stringNode : JsString → Node × List TransformationTag) :
    Json.Value → Node × List TransformationTag
  | .string text => stringNode text
  | .number n => numberNode redactText n
  | .bool b => (.literal (.bool b), [])
  | .null => (.literal .null, [])
  | .array items =>
      (.array (buildItems redactText stringNode items).1 0,
        (buildItems redactText stringNode items).2)
  | .object members =>
      (.object (buildEntries redactText stringNode members).1,
        (buildEntries redactText stringNode members).2)

/-- The nodes of the items of an array. -/
def buildItems (redactText : RedactText) (stringNode : JsString → Node × List TransformationTag) :
    List Json.Value → List Node × List TransformationTag
  | [] => ([], [])
  | v :: vs =>
      ((buildWith redactText stringNode v).1 :: (buildItems redactText stringNode vs).1,
        (buildWith redactText stringNode v).2 ++ (buildItems redactText stringNode vs).2)

/-- The redacted keys of an object with the nodes of its members. -/
def buildEntries (redactText : RedactText)
    (stringNode : JsString → Node × List TransformationTag) :
    List (JsString × Json.Value) → List (JsString × Node) × List TransformationTag
  | [] => ([], [])
  | (key, v) :: ms =>
      (((redactText key).1, (buildWith redactText stringNode v).1) ::
          (buildEntries redactText stringNode ms).1,
        (redactText key).2 ++ (buildWith redactText stringNode v).2 ++
          (buildEntries redactText stringNode ms).2)
end

/-- `buildStringNode`, with so many levels of embedding left. -/
def buildStringNode (redactText : RedactText) (numberOf : JsString → Json.Number) :
    ℕ → JsString → Node × List TransformationTag
  | 0, text => textNode redactText text
  | levels + 1, text =>
    match parseEmbeddedJson numberOf text with
    | some (v, indent) =>
      (.embedded (buildWith redactText (buildStringNode redactText numberOf levels) v).1 indent,
        (buildWith redactText (buildStringNode redactText numberOf levels) v).2)
    | none => textNode redactText text

def buildNode (redactText : RedactText) (numberOf : JsString → Json.Number) (v : Json.Value) :
    Node × List TransformationTag :=
  buildWith redactText (buildStringNode redactText numberOf maxEmbeddedDepth) v

/-! ## The value of a tree -/

/-- The object under construction in `materialize`: whether it inherits the accessor `__proto__`,
and its members. -/
structure Building where
  inherits : Bool := true
  members : List (JsString × Json.Value) := []

/-- `out[key] = v`, where `v` inherits the accessor or not. As long as the accessor is inherited,
`__proto__` names no property: assigning an object or `null` to it changes what is inherited, and
assigning anything else does nothing. -/
def Building.assign (out : Building) (key : JsString) (v : Json.Value) (inherits : Bool) :
    Building :=
  if key = units "__proto__" ∧ out.inherits = true then
    match v with
    | .null => { out with inherits := false }
    | .object _ => { out with inherits := inherits }
    | _ => out
  else { out with members := Json.setProperty out.members key v }

def droppedMarker (n : ℕ) : JsString := units ("…[" ++ toString n ++ " more items truncated]")

mutual
/-- `materialize`, with whether the value inherits the accessor `__proto__`. -/
def materialize : Node → Json.Value × Bool
  | .string text cut => (.string (if cut then text ++ structuredTruncationMarker else text), true)
  | .literal leaf => (leaf.toValue, true)
  | .embedded node indent => (.string (Json.stringify (materialize node).1 indent), true)
  | .array items dropped =>
      (.array (materializeItems items ++
        if 0 < dropped then [.string (droppedMarker dropped)] else []), true)
  | .object entries =>
      (.object (materializeEntries {} entries).members, (materializeEntries {} entries).inherits)

def materializeItems : List Node → List Json.Value
  | [] => []
  | node :: nodes => (materialize node).1 :: materializeItems nodes

def materializeEntries (out : Building) : List (JsString × Node) → Building
  | [] => out
  | (key, node) :: entries =>
      materializeEntries (out.assign key (materialize node).1 (materialize node).2) entries
end

def serializedBytes (root : Node) : ℕ := Utf8.byteLength (Json.stringify (materialize root).1)

/-! ## The byte cap -/

mutual
/-- The texts of the string leaves, in the order of the walk. -/
def leafTexts : Node → List JsString
  | .string text _ => [text]
  | .embedded node _ => leafTexts node
  | .array items _ => leafTextsOfItems items
  | .object entries => leafTextsOfEntries entries
  | .literal _ => []

/-- Those of the items of an array. -/
def leafTextsOfItems : List Node → List JsString
  | [] => []
  | node :: nodes => leafTexts node ++ leafTextsOfItems nodes

/-- Those of the members of an object. -/
def leafTextsOfEntries : List (JsString × Node) → List JsString
  | [] => []
  | (_, node) :: entries => leafTexts node ++ leafTextsOfEntries entries
end

mutual
/-- The numbers of items of the arrays, in the order of the walk. -/
def arraySizes : Node → List ℕ
  | .string _ _ => []
  | .embedded node _ => arraySizes node
  | .array items _ => items.length :: arraySizesOfItems items
  | .object entries => arraySizesOfEntries entries
  | .literal _ => []

def arraySizesOfItems : List Node → List ℕ
  | [] => []
  | node :: nodes => arraySizes node ++ arraySizesOfItems nodes

/-- Those of the members of an object. -/
def arraySizesOfEntries : List (JsString × Node) → List ℕ
  | [] => []
  | (_, node) :: entries => arraySizes node ++ arraySizesOfEntries entries
end

/-- The place of the first of the largest, if one is at least `least`. -/
def firstLargest (least : ℕ) (sizes : List ℕ) : Option ℕ :=
  let largest := sizes.foldr max 0
  if least ≤ largest then sizes.findIdx? fun n => n == largest else none

/-- `longestLeaf`, by its place in the walk, with its text. -/
def longestLeaf (root : Node) : Option (ℕ × JsString) :=
  (firstLargest 0 ((leafTexts root).map Utf8.byteLength)).bind fun k =>
    ((leafTexts root)[k]?).map fun text => (k, text)

/-- `longestArray`, by its place in the walk; arrays of less than two items do not count. -/
def longestArray (root : Node) : Option ℕ := firstLargest 2 (arraySizes root)

mutual
/-- `leaf.text = text; leaf.cut = true` for the leaf at the given place. -/
def cutLeaf (text : JsString) : ℕ → Node → Node
  | _, .string _ _ => .string text true
  | k, .embedded node indent => .embedded (cutLeaf text k node) indent
  | k, .array items dropped => .array (cutLeafOfItems text k items) dropped
  | k, .object entries => .object (cutLeafOfEntries text k entries)
  | _, .literal leaf => .literal leaf

def cutLeafOfItems (text : JsString) : ℕ → List Node → List Node
  | _, [] => []
  | k, node :: nodes =>
    if k < (leafTexts node).length then cutLeaf text k node :: nodes
    else node :: cutLeafOfItems text (k - (leafTexts node).length) nodes

def cutLeafOfEntries (text : JsString) : ℕ → List (JsString × Node) → List (JsString × Node)
  | _, [] => []
  | k, (key, node) :: entries =>
    if k < (leafTexts node).length then (key, cutLeaf text k node) :: entries
    else (key, node) :: cutLeafOfEntries text (k - (leafTexts node).length) entries
end

mutual
/-- Drop the second half of the items of the array at the given place. -/
def dropTail : ℕ → Node → Node
  | _, .string text cut => .string text cut
  | k, .embedded node indent => .embedded (dropTail k node) indent
  | 0, .array items dropped =>
      .array (items.take (items.length / 2)) (dropped + (items.length - items.length / 2))
  | k + 1, .array items dropped => .array (dropTailOfItems k items) dropped
  | k, .object entries => .object (dropTailOfEntries k entries)
  | _, .literal leaf => .literal leaf

def dropTailOfItems : ℕ → List Node → List Node
  | _, [] => []
  | k, node :: nodes =>
    if k < (arraySizes node).length then dropTail k node :: nodes
    else node :: dropTailOfItems (k - (arraySizes node).length) nodes

def dropTailOfEntries : ℕ → List (JsString × Node) → List (JsString × Node)
  | _, [] => []
  | k, (key, node) :: entries =>
    if k < (arraySizes node).length then (key, dropTail k node) :: entries
    else (key, node) :: dropTailOfEntries (k - (arraySizes node).length) entries
end

/-- The first loop of `enforceByteCap`: shorten the longest leaf by the excess. -/
def shortenLeaves (cap : ℕ) : ℕ → Node → Node
  | 0, root => root
  | n + 1, root =>
    if serializedBytes root ≤ cap then root
    else
      match longestLeaf root with
      | none => root
      | some (k, text) =>
        if Utf8.byteLength text ≤ markerBytes then root
        else shortenLeaves cap n (cutLeaf (utf8Prefix text
          (Utf8.byteLength text - (serializedBytes root - cap) - markerBytes)) k root)

/-- The second loop: drop the second half of the longest array. -/
def dropTails (cap : ℕ) : ℕ → Node → Node
  | 0, root => root
  | n + 1, root =>
    if serializedBytes root ≤ cap then root
    else
      match longestArray root with
      | none => root
      | some k => dropTails cap n (dropTail k root)

/-- The tree after both loops. -/
def enforceByteCap (root : Node) (cap : ℕ) : Node :=
  dropTails cap maxShrinkIterations (shortenLeaves cap maxShrinkIterations root)

/-! ## The sanitizer -/

/-- A payload, as `JSON.stringify` and `String` see it. -/
inductive Payload where
  | plain (v : Json.Value)
  /-- A value `JSON.stringify` throws on: a cycle, a bigint, nesting beyond its depth. -/
  | unserializable
  /-- A value `JSON.stringify` gives `undefined` for, and its `String(value)`. -/
  | other (text : JsString)

/-- JSON-like: all but functions, symbols and `undefined`. -/
def Payload.JsonLike : Payload → Prop
  | .other _ => False
  | _ => True

inductive JsonTree where
  | json (v : Json.Value)
  | degraded (text : JsString) (coercionFailed : Bool)

/-- `toJsonTree`; `none` where its `JSON.parse` throws. -/
def toJsonTree (numberOf : JsString → Json.Number) : Payload → Option JsonTree
  | .plain (.string text) => some (.json (.string text))
  | .plain v => (Json.parse numberOf (Json.stringify v)).map .json
  | .unserializable => some (.degraded unserializablePayloadMarker true)
  | .other text => some (.degraded text false)

structure StructuredSanitizeResult where
  value : Json.Value
  transformationsApplied : List TransformationTag
  truncated : Bool

def dedupe (tags : List TransformationTag) : List TransformationTag := tags.eraseDups

def sanitizeDegraded (redactText : RedactText) (cap : ℕ) (text : JsString)
    (coercionFailed : Bool) : StructuredSanitizeResult :=
  let bounded := Sanitizer.truncateUtf8 (redactText text).1 cap
  ⟨.string bounded.1,
    dedupe ((redactText text).2 ++ if bounded.2 || coercionFailed then [.truncate] else []),
    bounded.2⟩

def sanitizeTree (redactText : RedactText) (numberOf : JsString → Json.Number) (cap : ℕ)
    (v : Json.Value) : StructuredSanitizeResult :=
  let built := buildNode redactText numberOf v
  let truncated := decide (cap < serializedBytes built.1)
  let root := enforceByteCap built.1 cap
  ⟨if serializedBytes root ≤ cap then (materialize root).1 else .string structuredTruncationMarker,
    dedupe (built.2 ++ if truncated then [.truncate] else []), truncated⟩

/-- `sanitizeStructured`, as it is called, without options; `none` where it throws. -/
def sanitizeStructured (web : WebApi) (numberOf : JsString → Json.Number)
    (profile : SecurityScope) (payload : Payload) : Option StructuredSanitizeResult :=
  let profileDef := getProfile profile
  (toJsonTree numberOf payload).map fun
    | .degraded text coercionFailed =>
      sanitizeDegraded (redactText web profileDef) profileDef.truncateBytes text coercionFailed
    | .json v => sanitizeTree (redactText web profileDef) numberOf profileDef.truncateBytes v

/-! ## Redacted trees -/

/-- What is left of a text that was cut a number of times. -/
inductive CutOf (text : JsString) : JsString → Prop where
  | refl : CutOf text text
  | cut {s : JsString} (h : CutOf text s) (byteBudget : ℕ) : CutOf text (utf8Prefix s byteBudget)

/-- Every string leaf of the tree is a redacted text, or what is left of one; every number is one
that redaction leaves alone; every key is redacted. -/
inductive Node.Redacted (redact : JsString → JsString) : Node → Prop where
  | text (source : JsString) : Redacted redact (.string (redact source) false)
  | shortened {source text : JsString} (h : CutOf (redact source) text) :
      Redacted redact (.string text true)
  | embedded {node : Node} (indent : Option JsString) (h : Redacted redact node) :
      Redacted redact (.embedded node indent)
  | array {items : List Node} (dropped : ℕ) (h : ∀ node ∈ items, Redacted redact node) :
      Redacted redact (.array items dropped)
  | object {entries : List (JsString × Node)} (hkeys : ∀ e ∈ entries, ∃ source, e.1 = redact source)
      (h : ∀ e ∈ entries, Redacted redact e.2) : Redacted redact (.object entries)
  | number {n : Json.Number} (h : redact n.toText = n.toText) :
      Redacted redact (.literal (.number n))
  | bool (b : Bool) : Redacted redact (.literal (.bool b))
  | null : Redacted redact (.literal .null)

/-- Every string leaf of the value is a redacted text, or what is left of one before the marker of
truncation, or JSON of such a value again, or stands for dropped items; every number is one that
redaction leaves alone; every key is redacted. -/
inductive Sanitized (redact : JsString → JsString) : Json.Value → Prop where
  | null : Sanitized redact .null
  | bool (b : Bool) : Sanitized redact (.bool b)
  | number {n : Json.Number} (h : redact n.toText = n.toText) : Sanitized redact (.number n)
  | text (source : JsString) : Sanitized redact (.string (redact source))
  | shortened {source s : JsString} (h : CutOf (redact source) s) :
      Sanitized redact (.string (s ++ structuredTruncationMarker))
  | embedded {v : Json.Value} (indent : Option JsString) (h : Sanitized redact v) :
      Sanitized redact (.string (Json.stringify v indent))
  | array {items : List Json.Value} (h : ∀ v ∈ items, Sanitized redact v) :
      Sanitized redact (.array items)
  | dropped {items : List Json.Value} (n : ℕ) (h : ∀ v ∈ items, Sanitized redact v) :
      Sanitized redact (.array (items ++ [.string (droppedMarker n)]))
  | object {members : List (JsString × Json.Value)}
      (hkeys : ∀ m ∈ members, ∃ source, m.1 = redact source)
      (h : ∀ m ∈ members, Sanitized redact m.2) : Sanitized redact (.object members)

section Redacted

variable {redactText : RedactText} {stringNode : JsString → Node × List TransformationTag}

abbrev RedactText.text (redactText : RedactText) (text : JsString) : JsString := (redactText text).1

lemma redacted_textNode (text : JsString) : (textNode redactText text).1.Redacted redactText.text :=
  .text text

lemma redacted_numberNode (n : Json.Number) :
    (numberNode redactText n).1.Redacted redactText.text := by
  rw [numberNode]
  split_ifs with h
  · exact .number h
  · exact redacted_textNode n.toText

mutual
lemma redacted_buildWith (h : ∀ text, (stringNode text).1.Redacted redactText.text) :
    ∀ v, (buildWith redactText stringNode v).1.Redacted redactText.text
  | .null => .null
  | .bool b => .bool b
  | .number n => redacted_numberNode n
  | .string text => h text
  | .array items => .array 0 (redacted_buildItems h items)
  | .object members =>
      .object (fun e he => (redacted_buildEntries h members e he).1)
        fun e he => (redacted_buildEntries h members e he).2

lemma redacted_buildItems (h : ∀ text, (stringNode text).1.Redacted redactText.text) :
    ∀ items, ∀ node ∈ (buildItems redactText stringNode items).1, node.Redacted redactText.text
  | [] => fun _ hnode => absurd hnode not_mem_nil
  | v :: vs => forall_mem_cons.2 ⟨redacted_buildWith h v, redacted_buildItems h vs⟩

lemma redacted_buildEntries (h : ∀ text, (stringNode text).1.Redacted redactText.text) :
    ∀ members, ∀ e ∈ (buildEntries redactText stringNode members).1,
      (∃ source, e.1 = redactText.text source) ∧ e.2.Redacted redactText.text
  | [] => fun _ he => absurd he not_mem_nil
  | (key, v) :: ms => forall_mem_cons.2
      ⟨⟨⟨key, rfl⟩, redacted_buildWith h v⟩, redacted_buildEntries h ms⟩
end

lemma redacted_buildStringNode (numberOf : JsString → Json.Number) (levels : ℕ) (text : JsString) :
    (buildStringNode redactText numberOf levels text).1.Redacted redactText.text := by
  induction levels generalizing text with
  | zero => exact redacted_textNode text
  | succ levels ih =>
    rw [buildStringNode]
    split
    · exact .embedded _ (redacted_buildWith ih _)
    · exact redacted_textNode text

/-- **The tree of a payload is redacted.** -/
theorem redacted_buildNode (numberOf : JsString → Json.Number) (v : Json.Value) :
    (buildNode redactText numberOf v).1.Redacted redactText.text :=
  redacted_buildWith (redacted_buildStringNode numberOf maxEmbeddedDepth) v

end Redacted

section Shrinking

variable {redact : JsString → JsString}

mutual
lemma redacted_cutLeaf {old : JsString} (byteBudget : ℕ) :
    ∀ (node : Node) (k : ℕ), node.Redacted redact → (leafTexts node)[k]? = some old →
      (cutLeaf (utf8Prefix old byteBudget) k node).Redacted redact
  | .string text cut, k, h, hk => by
      obtain rfl : text = old := by
        obtain _ | k := k
        · exact Option.some.inj hk
        · exact absurd hk (by simp [leafTexts])
      cases h with
      | text source => exact .shortened (.cut .refl byteBudget)
      | shortened h => exact .shortened (.cut h byteBudget)
  | .embedded node indent, k, h, hk => by
      cases h with
      | embedded _ h => exact .embedded indent (redacted_cutLeaf byteBudget node k h hk)
  | .array items dropped, k, h, hk => by
      cases h with
      | array _ h => exact .array dropped (redacted_cutLeafOfItems byteBudget items k h hk)
  | .object entries, k, h, hk => by
      cases h with
      | object hkeys h =>
        have hcut := redacted_cutLeafOfEntries byteBudget entries k hkeys h hk
        exact .object (fun e he => (hcut e he).1) fun e he => (hcut e he).2
  | .literal leaf, k, h, hk => absurd hk (by simp [leafTexts])

lemma redacted_cutLeafOfItems {old : JsString} (byteBudget : ℕ) :
    ∀ (items : List Node) (k : ℕ), (∀ node ∈ items, node.Redacted redact) →
      (leafTextsOfItems items)[k]? = some old →
        ∀ node ∈ cutLeafOfItems (utf8Prefix old byteBudget) k items, node.Redacted redact
  | [], k, h, hk => absurd hk (by simp [leafTextsOfItems])
  | node :: nodes, k, h, hk => by
      obtain ⟨hnode, hnodes⟩ := forall_mem_cons.1 h
      rw [leafTextsOfItems] at hk
      rw [cutLeafOfItems]
      split_ifs with hlt
      · rw [getElem?_append_left hlt] at hk
        exact forall_mem_cons.2 ⟨redacted_cutLeaf byteBudget node k hnode hk, hnodes⟩
      · rw [getElem?_append_right (not_lt.1 hlt)] at hk
        exact forall_mem_cons.2
          ⟨hnode, redacted_cutLeafOfItems byteBudget nodes _ hnodes hk⟩

lemma redacted_cutLeafOfEntries {old : JsString} (byteBudget : ℕ) :
    ∀ (entries : List (JsString × Node)) (k : ℕ), (∀ e ∈ entries, ∃ source, e.1 = redact source) →
      (∀ e ∈ entries, e.2.Redacted redact) → (leafTextsOfEntries entries)[k]? = some old →
        ∀ e ∈ cutLeafOfEntries (utf8Prefix old byteBudget) k entries,
          (∃ source, e.1 = redact source) ∧ e.2.Redacted redact
  | [], k, hkeys, h, hk => absurd hk (by simp [leafTextsOfEntries])
  | (key, node) :: entries, k, hkeys, h, hk => by
      obtain ⟨hkey, hkeys⟩ := forall_mem_cons.1 hkeys
      obtain ⟨hnode, h⟩ := forall_mem_cons.1 h
      rw [leafTextsOfEntries] at hk
      rw [cutLeafOfEntries]
      split_ifs with hlt
      · rw [getElem?_append_left hlt] at hk
        exact forall_mem_cons.2
          ⟨⟨hkey, redacted_cutLeaf byteBudget node k hnode hk⟩, fun e he => ⟨hkeys e he, h e he⟩⟩
      · rw [getElem?_append_right (not_lt.1 hlt)] at hk
        exact forall_mem_cons.2
          ⟨⟨hkey, hnode⟩, redacted_cutLeafOfEntries byteBudget entries _ hkeys h hk⟩
end

mutual
lemma redacted_dropTail :
    ∀ (k : ℕ) (node : Node), node.Redacted redact → (dropTail k node).Redacted redact
  | _, .string text cut, h => by
      rw [dropTail]
      exact h
  | k, .embedded node indent, h => by
      rw [dropTail]
      cases h with
      | embedded _ h => exact .embedded indent (redacted_dropTail k node h)
  | 0, .array items dropped, h => by
      rw [dropTail]
      cases h with
      | array _ h => exact .array _ fun node hnode => h node (List.mem_of_mem_take hnode)
  | k + 1, .array items dropped, h => by
      rw [dropTail]
      cases h with
      | array _ h => exact .array dropped (redacted_dropTailOfItems k items h)
  | k, .object entries, h => by
      rw [dropTail]
      cases h with
      | object hkeys h =>
        have hdrop := redacted_dropTailOfEntries k entries hkeys h
        exact .object (fun e he => (hdrop e he).1) fun e he => (hdrop e he).2
  | _, .literal leaf, h => by
      rw [dropTail]
      exact h

lemma redacted_dropTailOfItems :
    ∀ (k : ℕ) (items : List Node), (∀ node ∈ items, node.Redacted redact) →
      ∀ node ∈ dropTailOfItems k items, node.Redacted redact
  | _, [], h => h
  | k, node :: nodes, h => by
      obtain ⟨hnode, hnodes⟩ := forall_mem_cons.1 h
      rw [dropTailOfItems]
      split_ifs
      · exact forall_mem_cons.2 ⟨redacted_dropTail k node hnode, hnodes⟩
      · exact forall_mem_cons.2 ⟨hnode, redacted_dropTailOfItems _ nodes hnodes⟩

lemma redacted_dropTailOfEntries :
    ∀ (k : ℕ) (entries : List (JsString × Node)), (∀ e ∈ entries, ∃ source, e.1 = redact source) →
      (∀ e ∈ entries, e.2.Redacted redact) →
        ∀ e ∈ dropTailOfEntries k entries,
          (∃ source, e.1 = redact source) ∧ e.2.Redacted redact
  | _, [], hkeys, h => fun e he => ⟨hkeys e he, h e he⟩
  | k, (key, node) :: entries, hkeys, h => by
      obtain ⟨hkey, hkeys⟩ := forall_mem_cons.1 hkeys
      obtain ⟨hnode, h⟩ := forall_mem_cons.1 h
      rw [dropTailOfEntries]
      split_ifs
      · exact forall_mem_cons.2
          ⟨⟨hkey, redacted_dropTail k node hnode⟩, fun e he => ⟨hkeys e he, h e he⟩⟩
      · exact forall_mem_cons.2
          ⟨⟨hkey, hnode⟩, redacted_dropTailOfEntries _ entries hkeys h⟩
end

variable {root : Node}

variable {text : JsString}

lemma getElem?_of_longestLeaf {k : ℕ} (h : longestLeaf root = some (k, text)) :
    (leafTexts root)[k]? = some text := by
  obtain ⟨place, -, h⟩ := bind_eq_some_iff.1 h
  obtain ⟨found, hfound, heq⟩ := map_eq_some_iff.1 h
  obtain ⟨rfl, rfl⟩ := Prod.mk.inj heq
  exact hfound

lemma redacted_shortenLeaves (cap n : ℕ) (h : root.Redacted redact) :
    (shortenLeaves cap n root).Redacted redact := by
  induction n generalizing root with
  | zero => exact h
  | succ n ih =>
    rw [shortenLeaves]
    split_ifs
    · exact h
    · split
      next => exact h
      next k text hleaf =>
        split_ifs
        · exact h
        · exact ih (redacted_cutLeaf _ root k h (getElem?_of_longestLeaf hleaf))

lemma redacted_dropTails (cap n : ℕ) (h : root.Redacted redact) :
    (dropTails cap n root).Redacted redact := by
  induction n generalizing root with
  | zero => exact h
  | succ n ih =>
    rw [dropTails]
    split_ifs
    · exact h
    · split
      next => exact h
      next k _ => exact ih (redacted_dropTail k root h)

/-- **Keeping the byte cap keeps a tree redacted.** -/
theorem redacted_enforceByteCap (h : root.Redacted redact) (cap : ℕ) :
    (enforceByteCap root cap).Redacted redact :=
  redacted_dropTails cap _ (redacted_shortenLeaves cap _ h)

end Shrinking

section Materialize

variable {redact : JsString → JsString}

/-- What holds of an object under construction. -/
def Building.Sanitized (redact : JsString → JsString) (out : Building) : Prop :=
  ∀ m ∈ out.members, (∃ source, m.1 = redact source) ∧ Yantra.Sanitized redact m.2

lemma Building.Sanitized.assign {out : Building} (h : out.Sanitized redact) {key : JsString}
    (hkey : ∃ source, key = redact source) {v : Json.Value} (hv : Yantra.Sanitized redact v)
    (inherits : Bool) : (out.assign key v inherits).Sanitized redact := by
  unfold Building.assign
  split_ifs
  · cases v <;> exact h
  · exact forall_mem_setProperty h ⟨hkey, hv⟩

mutual
/-- **A redacted tree gives a sanitized value.** -/
theorem sanitized_materialize :
    ∀ node : Node, node.Redacted redact → Sanitized redact (materialize node).1
  | .string text cut, h => by
      cases h with
      | text source => exact .text source
      | shortened h => exact .shortened h
  | .embedded node indent, h => by
      cases h with
      | embedded _ h => exact .embedded indent (sanitized_materialize node h)
  | .array items dropped, h => by
      cases h with
      | array _ h =>
        have hitems := sanitized_materializeItems items h
        rw [materialize]
        split_ifs
        · exact .dropped dropped hitems
        · rw [append_nil]
          exact .array hitems
  | .object entries, h => by
      cases h with
      | object hkeys h =>
        have hout := sanitized_materializeEntries {} entries
          (fun _ hm => absurd hm not_mem_nil) hkeys h
        exact .object (fun m hm => (hout m hm).1) fun m hm => (hout m hm).2
  | .literal leaf, h => by
      cases h with
      | number h => exact .number h
      | bool b => exact .bool b
      | null => exact .null

theorem sanitized_materializeItems :
    ∀ items : List Node, (∀ node ∈ items, node.Redacted redact) →
      ∀ v ∈ materializeItems items, Sanitized redact v
  | [], _ => fun _ hv => absurd hv not_mem_nil
  | node :: nodes, h => forall_mem_cons.2
      ⟨sanitized_materialize node (h node mem_cons_self),
        sanitized_materializeItems nodes fun w hw => h w (mem_cons_of_mem node hw)⟩

theorem sanitized_materializeEntries :
    ∀ (out : Building) (entries : List (JsString × Node)), out.Sanitized redact →
      (∀ e ∈ entries, ∃ source, e.1 = redact source) → (∀ e ∈ entries, e.2.Redacted redact) →
        (materializeEntries out entries).Sanitized redact
  | _, [], hout, _, _ => hout
  | out, (key, node) :: entries, hout, hkeys, h => by
      obtain ⟨hkey, hkeys⟩ := forall_mem_cons.1 hkeys
      obtain ⟨hnode, h⟩ := forall_mem_cons.1 h
      exact sanitized_materializeEntries _ entries
        (hout.assign hkey (sanitized_materialize node hnode) _) hkeys h
end

end Materialize

/-! ## What is returned -/

/-- What a result is to be: its value is JSON of at most `cap` bytes, and is the marker of
truncation or sanitized. -/
structure SoundResult (redact : JsString → JsString) (numberOf : JsString → Json.Number) (cap : ℕ)
    (value : Json.Value) : Prop where
  json : (Json.parse numberOf (Json.stringify value)).isSome = true
  bytes : Utf8.byteLength (Json.stringify value) ≤ cap
  sanitized : value = .string structuredTruncationMarker ∨ Sanitized redact value

variable {cap : ℕ}

lemma soundResult_sanitizeTree (redactText : RedactText) (numberOf : JsString → Json.Number)
    (hcap : Utf8.byteLength (stringify (.string structuredTruncationMarker)) ≤ cap)
    (v : Json.Value) :
    SoundResult redactText.text numberOf cap
      (sanitizeTree redactText numberOf cap v).value := by
  refine ⟨parse_stringify _, ?_, ?_⟩
  · rw [sanitizeTree]
    dsimp only
    split_ifs with hfits
    · exact hfits
    · exact hcap
  · rw [sanitizeTree]
    dsimp only
    split_ifs with hfits
    · exact .inr (sanitized_materialize _
        (redacted_enforceByteCap (redacted_buildNode numberOf v) cap))
    · exact .inl rfl

lemma toJsonTree_of_jsonLike (numberOf : JsString → Json.Number) {payload : Payload}
    (h : payload.JsonLike) :
    (∃ v, toJsonTree numberOf payload = some (.json v)) ∨
      toJsonTree numberOf payload = some (.degraded unserializablePayloadMarker true) := by
  cases payload with
  | plain v =>
    left
    have hparse : (parse numberOf (stringify v)).isSome := parse_stringify v
    obtain ⟨v', hv'⟩ := isSome_iff_exists.1 hparse
    cases v with
    | string text => exact ⟨.string text, rfl⟩
    | _ => exact ⟨v', congrArg (Option.map JsonTree.json) hv'⟩
  | unserializable => exact .inr rfl
  | other text => exact h.elim

lemma soundResult_sanitizeDegraded {redactText : RedactText} (numberOf : JsString → Json.Number)
    (htext : redactText text = (text, []))
    (hcap : Utf8.byteLength (stringify (.string text)) ≤ cap)
    (hfits : Utf8.byteLength text ≤ cap) :
    SoundResult redactText.text numberOf cap
      (sanitizeDegraded redactText cap text true).value := by
  have hvalue : (sanitizeDegraded redactText cap text true).value = .string text := by
    rw [sanitizeDegraded, htext, Sanitizer.truncateUtf8, if_pos hfits]
  have htext' : redactText.text text = text := congrArg Prod.fst htext
  rw [hvalue]
  exact ⟨parse_stringify _, hcap, .inr (htext' ▸ .text text)⟩

def WebApi.plain : WebApi where
  formValues html := (0, html)
  newUrl _ := none

end Yantra
