import Yantra.Lib.Utf16

/-!
# Sensitive shapes

The patterns of sensitive values that the vault of user input shares with the payload redactors,
and the checks a candidate must pass: its checksum, and that it stands on its own.

## Main definitions

* `SensitivePatterns` — the patterns of `SENSITIVE_VALUE_PATTERNS`.
* `isStandalonePosition`, `isLuhnValid`, `isVinValid` — the checks.
-/

namespace Yantra

open Utf16

namespace SensitivePatterns

/-- `AUTH_QUERY_PARAM_RE`, with its capture group numbered `n`. -/
def authQueryParam (n : ℕ) : Regex CodeUnit :=
  .group n (anyWordI ["token", "access_token", "api_key", "session", "auth", "sid", "jwt"])

/-- `EMAIL_RE` -/
def email : Regex CodeUnit :=
  .seqs [.boundary isWord, .plus (.sym fun c => isAlnum c || oneOf "._%+-" c), word "@",
    .plus (.sym fun c => isAlnum c || oneOf ".-" c), word ".",
    .rep 2 none (.sym fun c => isUpper c || isLower c), .boundary isWord]

/-- `SSN_RE` -/
def ssn : Regex CodeUnit :=
  .seqs [.boundary isWord, .rep 3 (some 3) (.sym isDigit), word "-",
    .rep 2 (some 2) (.sym isDigit), word "-", .rep 4 (some 4) (.sym isDigit), .boundary isWord]

/-- `CARD_CANDIDATE_RE` -/
def cardCandidate : Regex CodeUnit :=
  .seqs [.boundary isWord, .rep 13 (some 19) (.seq (.sym isDigit) (.opt (.sym (oneOf " -")))),
    .boundary isWord]

/-- `PHONE_CANDIDATE_RE` -/
def phoneCandidate : Regex CodeUnit :=
  .seqs [.opt (word "+"), .sym isDigit,
    .rep 8 none (.sym fun c => isDigit c || isSpace c || oneOf "().-" c), .sym isDigit]

/-- `VIN_CANDIDATE_RE` -/
def vinCandidate : Regex CodeUnit :=
  .seqs [.boundary isWord,
    .rep 17 (some 17) (.sym fun c => (isUpper c && !oneOf "IOQ" c) || isDigit c),
    .boundary isWord]

/-- `API_KEY_PATTERNS` -/
def apiKey : List (Regex CodeUnit) :=
  let dashed (c : CodeUnit) := isAlnum c || oneOf "_-" c
  [.seqs [.boundary isWord, word "sk-", .rep 16 none (.sym isAlnum), .boundary isWord],
    .seqs [.boundary isWord, word "ghp_", .rep 20 none (.sym isAlnum), .boundary isWord],
    .seqs [.boundary isWord, word "AKIA", .rep 16 (some 16) (.sym fun c => isDigit c || isUpper c),
      .boundary isWord],
    .seqs [.boundary isWord, word "xoxb-", .rep 10 none (.sym fun c => isAlnum c || oneOf "-" c),
      .boundary isWord],
    .seqs [.boundary isWord, word "eyJ", .rep 10 none (.sym dashed), word ".",
      .rep 10 none (.sym dashed), word ".", .rep 10 none (.sym dashed), .boundary isWord]]

end SensitivePatterns

/-! ## Checks on candidates -/

/-- `TOKEN_CHAR_RE` -/
def isTokenChar (c : CodeUnit) : Bool := isAlnum c || oneOf "_/-" c

def isStandalonePosition (whole : JsString) (offset length : ℕ) : Bool :=
  !(Regex.slice whole (offset - 1) offset).any isTokenChar &&
    !(Regex.slice whole (offset + length) (offset + length + 1)).any isTokenChar

/-- The digits of a candidate: `candidate.replace(/\D/g, '')`. -/
def digitsOf (candidate : JsString) : JsString := candidate.filter isDigit

/-- The Luhn sum of digits, the last one first; `shouldDouble` alternates. -/
def luhnSum : Bool → JsString → ℕ
  | _, [] => 0
  | shouldDouble, c :: cs =>
    let digit := c.toNat - 48
    let value := if shouldDouble then (if 9 < 2 * digit then 2 * digit - 9 else 2 * digit)
      else digit
    value + luhnSum (!shouldDouble) cs

def isLuhnValid (digits : JsString) : Bool :=
  !digits.isEmpty && digits.all isDigit && luhnSum false digits.reverse % 10 == 0

def vinValue (c : CodeUnit) : ℕ :=
  if isDigit c then c.toNat - 48
  else (("ABCDEFGH".toList.zip [1, 2, 3, 4, 5, 6, 7, 8] ++
      "JKLMNPR".toList.zip [1, 2, 3, 4, 5, 7, 9] ++
      "STUVWXYZ".toList.zip [2, 3, 4, 5, 6, 7, 8, 9]).lookup (Char.ofNat c.toNat)).getD 0

def vinWeights : List ℕ := [8, 7, 6, 5, 4, 3, 2, 10, 0, 9, 8, 7, 6, 5, 4, 3, 2]

/-- `isVinValid`, of a candidate in ASCII. -/
def isVinValid (vin : JsString) : Bool :=
  let normalized := vin.map toUpper
  if normalized.length = 17 &&
      normalized.all fun c => (isUpper c && !oneOf "IOQ" c) || isDigit c then
    let remainder := ((normalized.map vinValue).zipWith (· * ·) vinWeights).foldl (· + ·) 0 % 11
    normalized[8]? == some (if remainder = 10 then 88 else (48 + remainder).toUInt16)
  else false

end Yantra
