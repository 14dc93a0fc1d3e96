import Yantra.Lib.OrderedMap
import Yantra.Lib.Threaded
import Yantra.Sanitizer.Keywords
import Yantra.Sanitizer.Strippers

/-!
# The vault of user input

`UserInputVault`: values the user marks, and values that look like credentials, are replaced by
placeholders before a text leaves the machine, and put back when a tool acts on the page.

## Main definitions

* `replaceLiteralMatches` — a shape detector of literals.
* `UserInputVault.redact`, `UserInputVault.resolve`, `UserInputVault.mask`.
-/

namespace Yantra

open Utf16

/-! ## Shape detectors -/

/-- `SegmentMatch`, whose value is `text.slice(start, start + length)`. -/
structure SegmentMatch where
  start : ℕ
  length : ℕ
  tag : UserInputValueTag
  deriving DecidableEq, Repr, Inhabited

def directMatch (m : Regex.Match CodeUnit) (tag : UserInputValueTag) : SegmentMatch :=
  ⟨m.index, m.text.length, tag⟩

/-- The loop of `replaceLiteralMatches` over the matches of its pattern. -/
def replaceFrom (text : JsString) (select : Regex.Match CodeUnit → Option SegmentMatch) :
    ℕ → List InputSegment → List (Regex.Match CodeUnit) → List InputSegment
  | cursor, output, [] => pushLiteral output (text.drop cursor)
  | cursor, output, m :: ms =>
    match select m with
    | none => replaceFrom text select cursor output ms
    | some selected =>
      if selected.start < cursor then replaceFrom text select cursor output ms
      else
        let stop := selected.start + selected.length
        replaceFrom text select stop
          (pushLiteral output (Regex.slice text cursor selected.start) ++
            [.value selected.tag (Regex.slice text selected.start stop)]) ms

def replaceLiteralMatches (pattern : Regex CodeUnit)
    (select : JsString → Regex.Match CodeUnit → Option SegmentMatch) (text : JsString) :
    List InputSegment :=
  orLiteral text (replaceFrom text (select text) 0 [] (Regex.matchAll pattern text))

/-- `replaceDirect` of a literal. -/
def replaceDirect (pattern : Regex CodeUnit) (tag : UserInputValueTag) :
    JsString → List InputSegment :=
  replaceLiteralMatches pattern fun _ m => some (directMatch m tag)

def AUTH_PARAM_ASSIGNMENT_RE : Regex CodeUnit :=
  .seq (.group 1 (.seqs [.sym (oneOf "?&"), SensitivePatterns.authQueryParam 2, word "="]))
    (.group 3 (.plus (.sym fun c => !(oneOf "&#\"'<>" c || isSpace c))))

def detectAuthParams : JsString → List InputSegment :=
  replaceLiteralMatches AUTH_PARAM_ASSIGNMENT_RE fun _ m =>
    (m.group 3).map fun value => ⟨m.index + m.text.length - value.length, value.length, .auth_param⟩

def detectCards : JsString → List InputSegment :=
  replaceLiteralMatches SensitivePatterns.cardCandidate fun _ m =>
    let digits := digitsOf m.text
    if digits.length < 13 || 19 < digits.length || !isLuhnValid digits then none
    else some (directMatch m .credit_card)

def PHONE_CONTEXT_RE : Regex CodeUnit :=
  let gap (c : CodeUnit) := !isWord c
  .seqs [
    .alts [anyWordI ["phone", "mobile", "cell"], .seq (wordI "tel") (.opt (wordI "ephone")),
      anyWordI ["call", "text", "sms", "whatsapp", "fax", "contact", "reach"]],
    .star (.seq (.plus (.sym gap)) (anyWordI ["is", "are", "was", "no", "nr", "num", "number", "at",
      "on", "me", "us", "my", "our", "the", "to"])),
    .star (.sym gap), .atEnd]

/-- `PHONE_SHAPED_RE.test(candidate)` -/
def isPhoneShaped (candidate : JsString) : Bool :=
  candidate.head? == some 43 || candidate.any fun c => oneOf "().-" c || isSpace c

def detectPhones : JsString → List InputSegment :=
  replaceLiteralMatches SensitivePatterns.phoneCandidate fun whole m =>
    let digits := digitsOf m.text
    if digits.length < 10 || 15 < digits.length then none
    else if !isStandalonePosition whole m.index m.text.length then none
    else if !isPhoneShaped m.text && !PHONE_CONTEXT_RE.test (whole.take m.index) then none
    else some (directMatch m .phone)

/-- The detector of vehicle identification numbers. -/
def detectVins : JsString → List InputSegment :=
  replaceLiteralMatches SensitivePatterns.vinCandidate fun whole m =>
    if !isStandalonePosition whole m.index m.text.length || !isVinValid m.text then none
    else some (directMatch m .vin)

/-- The detectors `redact` runs over the literals, in order. -/
def detectors : List (JsString → List InputSegment) :=
  [detectInLiteral, detectAuthParams, replaceDirect SensitivePatterns.email .email,
    replaceDirect SensitivePatterns.ssn .ssn, detectCards, detectPhones, detectVins] ++
    SensitivePatterns.apiKey.map fun pattern => replaceDirect pattern .api_key

def detect (segments : List InputSegment) : List InputSegment :=
  detectors.foldl (fun segments detector => onLiterals detector segments) segments

/-! ## The vault -/

/-- The placeholder of the `n`-th value with a tag. -/
def placeholder (tag : UserInputValueTag) (n : ℕ) : JsString :=
  units "\x7b\x7buser:" ++ units tag.name ++ units ":" ++ units (toString n) ++ units "\x7d\x7d"

structure UserInputVault where
  valueByPlaceholder : OrderedMap JsString JsString := .empty
  placeholderByValue : OrderedMap JsString JsString := .empty
  countersByTag : OrderedMap UserInputValueTag ℕ := .empty
  markedValues : List JsString := []

namespace UserInputVault

def placeholderFor (vault : UserInputVault) (tag : UserInputValueTag) (value : JsString) :
    JsString × UserInputVault :=
  match vault.placeholderByValue.get? value with
  | some existing => (existing, vault)
  | none =>
    let next := (vault.countersByTag.get? tag).getD 0 + 1
    let token := placeholder tag next
    (token, { vault with
      countersByTag := vault.countersByTag.set tag next
      placeholderByValue := vault.placeholderByValue.set value token
      valueByPlaceholder := vault.valueByPlaceholder.set token value })

def reserve (vault : UserInputVault) : InputSegment → UserInputVault
  | .literal _ => vault
  | .value tag value =>
    (placeholderFor { vault with markedValues := vault.markedValues.insert value } tag value).2

def render (segment : InputSegment) (vault : UserInputVault) : JsString × UserInputVault :=
  match segment with
  | .literal text => (text, vault)
  | .value tag value => vault.placeholderFor tag value

/-- What `redact` writes for parsed segments: marked values are reserved before anything is
detected. -/
def redactSegments (vault : UserInputVault) (segments : List InputSegment) :
    JsString × UserInputVault :=
  let (parts, vault) := Threaded.mapState render (detect segments) (segments.foldl reserve vault)
  (parts.flatten, vault)

def redact (vault : UserInputVault) (text : JsString) :
    Except UserInputMarkerError (JsString × UserInputVault) :=
  match parseUserInputMarkers text with
  | .error error => .error error
  | .ok segments => .ok (vault.redactSegments segments)

def valueOf (vault : UserInputVault) (token : JsString) : JsString :=
  (vault.valueByPlaceholder.get? token).getD token

def resolve (vault : UserInputVault) (text : JsString) : JsString :=
  if vault.valueByPlaceholder.keys.isEmpty then text
  else placeholderPattern.replace (fun m => vault.valueOf m.text) text

def neutralize (vault : UserInputVault) (text : JsString) : JsString :=
  placeholderPattern.replace (fun m =>
    if vault.valueByPlaceholder.has m.text then
      units "[user-provided " ++ (m.group 1).getD [] ++ units "]"
    else m.text) text

end UserInputVault

/-! ## Masking -/

abbrev MaskPart := Tokens.Piece CodeUnit

def protectPlaceholders (text : JsString) : List MaskPart := Tokens.pieces placeholderPattern text

/-- The loop of `maskValueInPart`: the parts from `outputCursor` on, found from `searchCursor` on.
The fuel is more than what is left of the text: every round moves `searchCursor` past an
occurrence. -/
def maskFrom (text value token : JsString) : ℕ → ℕ → ℕ → List MaskPart
  | 0, _, outputCursor =>
    if outputCursor < text.length then [⟨text.drop outputCursor, false⟩] else []
  | fuel + 1, searchCursor, outputCursor =>
    match indexOf text value searchCursor with
    | none => if outputCursor < text.length then [⟨text.drop outputCursor, false⟩] else []
    | some found =>
      let stop := found + value.length
      if 8 ≤ value.length || isStandalonePosition text found value.length then
        (if outputCursor < found then [⟨Regex.slice text outputCursor found, false⟩] else []) ++
          ⟨token, true⟩ :: maskFrom text value token fuel stop stop
      else maskFrom text value token fuel stop outputCursor

def maskValueInPart (text value token : JsString) : List MaskPart :=
  if value.isEmpty || (indexOf text value 0).isNone then [⟨text, false⟩]
  else maskFrom text value token (text.length + 1) 0 0

def maskValue (parts : List MaskPart) (entry : JsString × JsString) : List MaskPart :=
  parts.flatMap fun part =>
    if part.isProtected then [part] else maskValueInPart part.text entry.1 entry.2

def UserInputVault.mask (vault : UserInputVault) (text : JsString) : JsString :=
  if vault.placeholderByValue.keys.isEmpty then text
  else
    let entries := vault.placeholderByValue.entries.mergeSort fun left right =>
      right.1.length ≤ left.1.length
    Tokens.flat (entries.foldl maskValue (protectPlaceholders text))

end Yantra
