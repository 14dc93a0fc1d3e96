import Yantra.Sanitizer.Markers

/-!
# Values next to keywords

`detectKeywordValues`: in a literal segment, what follows a credential keyword — `password p1`,
`user id: "x"` — becomes a value segment. Value segments pass through.

## Main definitions

* `onLiterals` — a detector of literals applied to a list of segments.
* `detectInLiteral`, `detectKeywordValues` — the detector.
-/

namespace Yantra

open Utf16

/-- A detector of literals on a list of segments: values pass through. -/
def onLiterals (detect : JsString → List InputSegment) (segments : List InputSegment) :
    List InputSegment :=
  segments.flatMap fun
    | .literal text => detect text
    | .value tag v => [.value tag v]

/-! ## Keywords -/

def KEYWORD_RE : Regex CodeUnit :=
  let space : Regex CodeUnit := .plus (.sym isSpace)
  .seqs [.notBehind isWord,
    .group 1 (.alts [
      .seqs [wordI "one", .sym (oneOf "- "), wordI "time", space, anyWordI ["code", "password"]],
      .seqs [wordI "account", space, anyWordI ["number", "no", "#"]],
      .seq (wordI "social") (.opt (.seq space (wordI "security"))),
      .seqs [wordI "national", space, wordI "id"],
      .seqs [wordI "account", space, wordI "name"],
      .seqs [wordI "user", .star (.sym isSpace), wordI "id"],
      anyWordI ["username", "userid", "login", "password", "passwd", "pwd", "passcode", "pass",
        "pin", "otp", "2fa", "mfa", "cvv", "cvc", "ssn"],
      .seqs [wordI "tax", space, wordI "id"],
      wordI "vin"]),
    .ahead (.alt .atEnd (.sym fun c => !isWord c))]

def CONNECTOR_RE : Regex CodeUnit :=
  .seqs [.atStart, .group 1 (anyWordI ["is", "are", "of", "my", "the", "for", "as"]),
    .boundary isWord]

/-- `/^account\s+is\b/i` -/
def CONTEXT_BRIDGE_RE : Regex CodeUnit :=
  .seqs [.atStart, wordI "account", .plus (.sym isSpace), wordI "is", .boundary isWord]

def FOLLOWING_NOUN_STOPLIST : List String :=
  ["manager", "managers", "reset", "field", "box", "prompt", "strength", "policy", "protected"]

def HIGH_RISK_KEYWORDS : List String :=
  ["password", "passwd", "pwd", "passcode", "pin", "cvv", "cvc", "otp"]

def COMPLETE_KEYWORDS : List String :=
  ["username", "user id", "userid", "login", "account", "account name", "account number",
    "account no", "password", "passwd", "pwd", "passcode", "pass", "pin", "otp", "one time code",
    "one time password", "2fa", "mfa", "cvv", "cvc", "ssn", "social", "social security",
    "national id", "tax id", "vin"]

def isAnyOf (texts : List String) (s : JsString) : Bool := texts.any fun text => units text == s

/-- `normalizeKeyword`. Folding ASCII letters is enough: no keyword has a letter to which the lower
case of another alphabet's letter leads. -/
def normalizeKeyword (keyword : JsString) : JsString :=
  trim (collapseSpace false (keyword.map fun c => if c == 45 then 32 else toLower c))

def tagForKeyword (keyword : JsString) : UserInputValueTag :=
  let normalized := normalizeKeyword keyword
  if isAnyOf ["username", "user id", "userid", "login", "account name"] normalized then .username
  else if isAnyOf ["password", "passwd", "pwd", "passcode", "pass"] normalized then .password
  else if isAnyOf ["pin"] normalized then .pin
  else if isAnyOf ["otp", "2fa", "mfa", "one time code", "one time password"] normalized then .otp
  else if isAnyOf ["cvv", "cvc"] normalized then .credit_card
  else if isAnyOf ["ssn", "social", "social security", "national id", "tax id"] normalized then
    .national_id
  else if isAnyOf ["vin"] normalized then .vin
  else .account

def tagForCompleteKeyword (value : JsString) : Option UserInputValueTag :=
  let normalized := normalizeKeyword value
  if isAnyOf COMPLETE_KEYWORDS normalized then some (tagForKeyword normalized) else none

/-! ## Candidates -/

/-- `Candidate`, whose value is `text.slice(start, stop)`. -/
structure Candidate where
  start : ℕ
  stop : ℕ
  explicitSeparator : Bool
  deriving DecidableEq, Repr, Inhabited

def skipWhitespace (text : JsString) (start : ℕ) : ℕ :=
  start + ((text.drop start).takeWhile isSpace).length

def skipSeparator (text : JsString) (cursor : ℕ) (explicitSeparator : Bool) : ℕ × Bool :=
  match text[cursor]? with
  | some c =>
    if oneOf ":=-" c then (skipWhitespace text (cursor + 1), explicitSeparator || oneOf ":=" c)
    else (cursor, explicitSeparator)
  | none => (cursor, explicitSeparator)

/-- Skip up to `count` connecting words. -/
def skipConnectors (text : JsString) : ℕ → ℕ → Bool → ℕ × Bool
  | 0, cursor, explicitSeparator => (cursor, explicitSeparator)
  | count + 1, cursor, explicitSeparator =>
    match CONNECTOR_RE.exec (text.drop cursor) 0 with
    | none => (cursor, explicitSeparator)
    | some m =>
      let isIs := (m.group 1).any fun w => w.map toLower == units "is"
      skipConnectors text count (skipWhitespace text (cursor + m.text.length))
        (explicitSeparator || isIs)

/-- Skip the words `account is` behind a password keyword. -/
def skipContextBridge (text : JsString) (tag : UserInputValueTag) (cursor : ℕ)
    (explicitSeparator : Bool) : ℕ × Bool :=
  if tag = .password then
    match CONTEXT_BRIDGE_RE.exec (text.drop cursor) 0 with
    | none => (cursor, explicitSeparator)
    | some m => (skipWhitespace text (cursor + m.text.length), true)
  else (cursor, explicitSeparator)

def candidateAt (text : JsString) (cursor : ℕ) (explicitSeparator : Bool) : Option Candidate :=
  match text[cursor]? with
  | none => none
  | some quote =>
    if oneOf "\"'" quote then
      match indexOf text [quote] (cursor + 1) with
      | none => none
      | some close =>
        if close = cursor + 1 then none else some ⟨cursor + 1, close, explicitSeparator⟩
    else
      let token := (text.drop cursor).takeWhile fun c => !(isSpace c || oneOf ",;" c)
      let value := if token.getLast? = some 46 then token.dropLast else token
      if value.isEmpty then none else some ⟨cursor, cursor + value.length, explicitSeparator⟩

def candidateAfter (text : JsString) (keywordEnd : ℕ) (tag : UserInputValueTag) :
    Option Candidate :=
  if text[keywordEnd]?.any fun c => isSpace c || oneOf ":=-" c then
    let cursor := skipWhitespace text keywordEnd
    let (cursor, explicitSeparator) := skipSeparator text cursor false
    let (cursor, explicitSeparator) := skipConnectors text 2 cursor explicitSeparator
    let (cursor, explicitSeparator) := skipSeparator text cursor explicitSeparator
    let (cursor, explicitSeparator) := skipContextBridge text tag cursor explicitSeparator
    candidateAt text cursor explicitSeparator
  else none

def shouldFire (keyword value : JsString) (explicitSeparator : Bool) : Bool :=
  explicitSeparator || value.any isDigit || value.any (fun c => !isAlnum c) ||
    !value.all isLower ||
    (isAnyOf HIGH_RISK_KEYWORDS (normalizeKeyword keyword) &&
      !isAnyOf FOLLOWING_NOUN_STOPLIST (value.map toLower))

/-! ## The detector -/

/-- The loop of `detectInLiteral`. The fuel is more than what is left of the text: every round moves
`lastIndex` past a match. -/
def detectFrom (text : JsString) : ℕ → ℕ → ℕ → List InputSegment → List InputSegment
  | 0, _, cursor, output => pushLiteral output (text.drop cursor)
  | fuel + 1, lastIndex, cursor, output =>
    match KEYWORD_RE.exec text lastIndex with
    | none => pushLiteral output (text.drop cursor)
    | some m =>
      let keyword := (m.group 1).getD []
      let tag := tagForKeyword keyword
      match candidateAfter text m.stop tag with
      | none => detectFrom text fuel m.stop cursor output
      | some candidate =>
        let value := Regex.slice text candidate.start candidate.stop
        if candidate.start < cursor ∨ !shouldFire keyword value candidate.explicitSeparator then
          detectFrom text fuel m.stop cursor output
        else if (tagForCompleteKeyword value).isSome then
          detectFrom text fuel candidate.start cursor output
        else
          detectFrom text fuel candidate.stop candidate.stop
            (pushLiteral output (Regex.slice text cursor candidate.start) ++ [.value tag value])

/-- The segments of a scan, or the literal itself where there are none. -/
def orLiteral (text : JsString) (output : List InputSegment) : List InputSegment :=
  if output.isEmpty then [.literal text] else output

def detectInLiteral (text : JsString) : List InputSegment :=
  orLiteral text (detectFrom text (text.length + 1) 0 0 [])

def detectKeywordValues (segments : List InputSegment) : List InputSegment :=
  onLiterals detectInLiteral segments

end Yantra
