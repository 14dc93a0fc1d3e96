import Yantra.Protocol.Refs
import Yantra.Sanitizer.Strippers
import Mathlib.Data.List.DropRight

/-!
# Redaction of a text

What a profile takes out of a text: values of forms, query strings, and the shapes of sensitive
values. `redactText` is modelled as `sanitizeStructured` is called, without values to preserve and
without a host. What it has from outside is a parameter: the form values cheerio finds in a piece of
HTML, and `URL`.

## Main definitions

* `WebApi` — the parameter.
* `redactText` — the redaction.

## Main results

* `redactText_marker` — the text for a payload that cannot be serialized is left as it is.
-/

namespace Yantra

open Utf16 List Regex

/-! ## Profiles -/

/-- `SanitizationProfileDef['redactPii']` -/
structure RedactPii where
  email : Bool
  ssn : Bool
  creditCard : Bool
  phone : Bool
  apiKeyShapes : Bool

structure SanitizationProfileDef where
  name : SecurityScope
  stripFormValues : Bool
  stripAllQueryStrings : Bool
  stripAuthQueryParams : Bool
  redactPii : RedactPii
  applyPerHostOverrides : Bool
  truncateBytes : ℕ
  bypassForLlmInput : Bool

/-- `DEFAULT_TRUNCATE_BYTES` -/
def defaultTruncateBytes : ℕ := 20480

def getProfile : SecurityScope → SanitizationProfileDef
  | .public => ⟨.public, true, false, true, ⟨true, true, true, true, true⟩, true,
      defaultTruncateBytes, false⟩
  | .readOnlyData => ⟨.readOnlyData, false, false, false, ⟨false, false, false, false, false⟩,
      false, defaultTruncateBytes, true⟩
  | .authenticated => ⟨.authenticated, true, true, true, ⟨true, true, true, true, true⟩, true,
      defaultTruncateBytes, false⟩

/-! ## The strippers -/

structure TransformResult where
  text : JsString
  hits : ℕ

/-- What the strippers use of a `URL`. -/
structure WebUrl where
  /-- `url.toString()` -/
  text : JsString
  search : JsString
  /-- `url.toString()` after `url.search = ''` -/
  withoutSearch : JsString
  /-- `[...url.searchParams.keys()]` -/
  paramNames : List JsString
  /-- `url.toString()` once the parameters of these names are deleted. -/
  withoutParams : List JsString → JsString

/-- What the strippers call. -/
structure WebApi where
  /-- The number of form values in a piece of HTML, and the piece without them. -/
  formValues : JsString → ℕ × JsString
  /-- `new URL(token)`; `none` where it throws. -/
  newUrl : JsString → Option WebUrl

/-- There are no elements, hence no form values, where there are no tags. -/
def WebApi.ReadsTags (web : WebApi) : Prop := ∀ html, 60 ∉ html → (web.formValues html).1 = 0

def URL_IN_TEXT_RE : Regex CodeUnit :=
  .seqs [wordI "http", .opt (wordI "s"), word "://",
    .plus (.sym fun c => !(isSpace c || [34, 39, 60, 62, 92].contains c))]

/-- `splitTrailingPunctuation`, at `/[),.;!?]+$/`: the token and the suffix. -/
def splitTrailingPunctuation (token : JsString) : JsString × JsString :=
  (token.rdropWhile (oneOf "),.;!?"), token.rtakeWhile (oneOf "),.;!?"))

/-- `rewriteUrlsInText`, with the hits that the rewriting counts. -/
def rewriteUrlsInText (web : WebApi) (rewrite : WebUrl → TransformResult) (text : JsString) :
    TransformResult :=
  let rewritten := Regex.spliceState text
    (fun (m : Regex.Match CodeUnit) (hits : ℕ) =>
      match web.newUrl (splitTrailingPunctuation m.text).1 with
      | some url => ((rewrite url).text ++ (splitTrailingPunctuation m.text).2,
          hits + (rewrite url).hits)
      | none => (m.text, hits))
    0 (Regex.matchAll URL_IN_TEXT_RE text) 0
  ⟨rewritten.1, rewritten.2⟩

def stripFormValues (web : WebApi) (html : JsString) : TransformResult :=
  if (web.formValues html).1 = 0 then ⟨html, 0⟩
  else ⟨(web.formValues html).2, (web.formValues html).1⟩

/-- `/\?([^#\s"'<>\\]+)/g` -/
def QUERY_STRING_RE : Regex CodeUnit :=
  .seq (word "?") (.plus (.sym fun c => !(isSpace c || [34, 35, 39, 60, 62, 92].contains c)))

def stripQueryStrings (web : WebApi) (text : JsString) : TransformResult :=
  let rewritten := rewriteUrlsInText web
    (fun url => if url.search.isEmpty then ⟨url.text, 0⟩ else ⟨url.withoutSearch, 1⟩) text
  ⟨Regex.replace QUERY_STRING_RE (fun _ => []) rewritten.text,
    rewritten.hits + (Regex.matchAll QUERY_STRING_RE rewritten.text).length⟩

/-- Whether the name of a query parameter is that of a credential. -/
def isAuthQueryParam (key : JsString) : Bool := (SensitivePatterns.authQueryParam 1).test key

/-- `/\?([^#\s]+)/g` -/
def QUERY_RE : Regex CodeUnit :=
  .seq (word "?") (.group 1 (.plus (.sym fun c => !(isSpace c || c == 35))))

/-- The pairs of a query, and those of them that are kept. -/
def queryPairs (query : JsString) : List JsString × List JsString :=
  let pairs := (query.splitOn 38).filter fun pair => !pair.isEmpty
  (pairs, pairs.filter fun pair => !isAuthQueryParam (pair.takeWhile (· != 61)))

def stripAuthQueryParams (web : WebApi) (text : JsString) : TransformResult :=
  let rewritten := rewriteUrlsInText web
    (fun url =>
      let auth := url.paramNames.filter isAuthQueryParam
      if auth.isEmpty then ⟨url.text, 0⟩ else ⟨url.withoutParams auth, auth.length⟩) text
  let fallback := Regex.spliceState rewritten.text
    (fun (m : Regex.Match CodeUnit) (hits : ℕ) =>
      let query := queryPairs ((m.group 1).getD [])
      (if query.2.isEmpty then [] else 63 :: List.intercalate [38] query.2,
        hits + (query.1.length - query.2.length)))
    0 (Regex.matchAll QUERY_RE rewritten.text) rewritten.hits
  ⟨fallback.1, fallback.2⟩

def replaceWithRegex (regex : Regex CodeUnit) (replacement : String) (text : JsString) :
    TransformResult :=
  ⟨Regex.replace regex (fun _ => units replacement) text, (Regex.matchAll regex text).length⟩

/-- The matches that pass a check are replaced and counted: `text.replace(regex, …)`. -/
def replaceChecked (regex : Regex CodeUnit) (check : Regex.Match CodeUnit → Bool)
    (replacement : String) (text : JsString) : TransformResult :=
  let redacted := Regex.spliceState text
    (fun (m : Regex.Match CodeUnit) (hits : ℕ) =>
      if check m then (units replacement, hits + 1) else (m.text, hits))
    0 (Regex.matchAll regex text) 0
  ⟨redacted.1, redacted.2⟩

def redactEmails : JsString → TransformResult :=
  replaceWithRegex SensitivePatterns.email "[redacted-email]"

def redactSsn : JsString → TransformResult :=
  replaceWithRegex SensitivePatterns.ssn "[redacted-ssn]"

def redactCreditCards : JsString → TransformResult :=
  replaceChecked SensitivePatterns.cardCandidate
    (fun m => 13 ≤ (digitsOf m.text).length && (digitsOf m.text).length ≤ 19 &&
      isLuhnValid (digitsOf m.text))
    "[redacted-credit-card]"

def redactPhones (text : JsString) : TransformResult :=
  replaceChecked SensitivePatterns.phoneCandidate
    (fun m => 10 ≤ (digitsOf m.text).length && (digitsOf m.text).length ≤ 15 &&
      isStandalonePosition text m.index m.text.length)
    "[redacted-phone]" text

def redactApiKeyShapes (text : JsString) : TransformResult :=
  SensitivePatterns.apiKey.foldl
    (fun current pattern =>
      let result := replaceWithRegex pattern "[redacted-api-key]" current.text
      ⟨result.text, current.hits + result.hits⟩)
    ⟨text, 0⟩

/-! ## The pass -/

inductive TransformationTag where
  | formValueStrip
  | queryAllStrip
  | queryAuthParamStrip
  | piiEmailRedact
  | piiSsnRedact
  | piiCreditCardRedact
  | piiPhoneRedact
  | piiApikeyRedact
  | truncate
  deriving DecidableEq, Repr

/-- A step of the pass: a stripper, and the tag of its hits. -/
abbrev RedactionStep := (JsString → TransformResult) × TransformationTag

/-- The steps of a profile that does not bypass redaction, in their order. -/
def redactionSteps (web : WebApi) (profileDef : SanitizationProfileDef) : List RedactionStep :=
  (if profileDef.stripFormValues then [(stripFormValues web, .formValueStrip)] else []) ++
  (if profileDef.stripAllQueryStrings then [(stripQueryStrings web, .queryAllStrip)]
    else if profileDef.stripAuthQueryParams then
      [(stripAuthQueryParams web, .queryAuthParamStrip)]
    else []) ++
  (if profileDef.redactPii.email then [(redactEmails, .piiEmailRedact)] else []) ++
  (if profileDef.redactPii.ssn then [(redactSsn, .piiSsnRedact)] else []) ++
  (if profileDef.redactPii.creditCard then [(redactCreditCards, .piiCreditCardRedact)] else []) ++
  (if profileDef.redactPii.phone then [(redactPhones, .piiPhoneRedact)] else []) ++
  (if profileDef.redactPii.apiKeyShapes then [(redactApiKeyShapes, .piiApikeyRedact)] else [])

def applyStep (current : JsString × List TransformationTag) (step : RedactionStep) :
    JsString × List TransformationTag :=
  let result := step.1 current.1
  (result.text, if 0 < result.hits then current.2 ++ [step.2] else current.2)

/-- `redactText`: the redacted text, and the tags of what was hit. -/
def redactText (web : WebApi) (profileDef : SanitizationProfileDef) (text : JsString) :
    JsString × List TransformationTag :=
  if profileDef.bypassForLlmInput then (text, [])
  else (redactionSteps web profileDef).foldl applyStep (text, [])

/-! ## A text without hits -/

/-- `UNSERIALIZABLE_PAYLOAD_MARKER` -/
def unserializablePayloadMarker : JsString := units "[unserializable payload omitted]"

variable {text : JsString}

lemma foldl_applyStep {steps : List RedactionStep} (h : ∀ step ∈ steps, step.1 text = ⟨text, 0⟩) :
    steps.foldl applyStep (text, []) = (text, []) := by
  induction steps with
  | nil => rfl
  | cons step steps ih =>
    have hstep : applyStep (text, []) step = (text, []) := by
      rw [applyStep, h step mem_cons_self]
      rfl
    rw [foldl_cons, hstep, ih fun s hs => h s (mem_cons_of_mem step hs)]

lemma rewriteUrlsInText_eq (web : WebApi) (rewrite : WebUrl → TransformResult)
    (h : matchAll URL_IN_TEXT_RE text = []) :
    rewriteUrlsInText web rewrite text = ⟨text, 0⟩ := by
  rw [rewriteUrlsInText, h]
  rfl

variable {regex : Regex CodeUnit}

lemma replaceWithRegex_eq (replacement : String) (h : matchAll regex text = []) :
    replaceWithRegex regex replacement text = ⟨text, 0⟩ := by
  rw [replaceWithRegex, Regex.replace, h]
  rfl

lemma replaceChecked_eq (check : Regex.Match CodeUnit → Bool) (replacement : String)
    (h : matchAll regex text = []) :
    replaceChecked regex check replacement text = ⟨text, 0⟩ := by
  rw [replaceChecked, h]
  rfl

lemma stripQueryStrings_eq (web : WebApi) (hurl : matchAll URL_IN_TEXT_RE text = [])
    (hquery : matchAll QUERY_STRING_RE text = []) :
    stripQueryStrings web text = ⟨text, 0⟩ := by
  rw [stripQueryStrings, rewriteUrlsInText_eq web _ hurl]
  simp only [Regex.replace, hquery]
  rfl

lemma stripAuthQueryParams_eq (web : WebApi) (hurl : matchAll URL_IN_TEXT_RE text = [])
    (hquery : matchAll QUERY_RE text = []) :
    stripAuthQueryParams web text = ⟨text, 0⟩ := by
  rw [stripAuthQueryParams, rewriteUrlsInText_eq web _ hurl]
  simp only [hquery]
  rfl

lemma redactApiKeyShapes_eq
    (h : ∀ pattern ∈ SensitivePatterns.apiKey, matchAll pattern text = []) :
    redactApiKeyShapes text = ⟨text, 0⟩ := by
  have hfold : ∀ patterns : List (Regex CodeUnit),
      (∀ pattern ∈ patterns, matchAll pattern text = []) →
      patterns.foldl (fun (current : TransformResult) pattern =>
        let result := replaceWithRegex pattern "[redacted-api-key]" current.text
        (⟨result.text, current.hits + result.hits⟩ : TransformResult)) ⟨text, 0⟩ =
          ⟨text, 0⟩ := by
    intro patterns
    induction patterns with
    | nil => exact fun _ => rfl
    | cons pattern patterns ih =>
      intro h
      rw [foldl_cons, replaceWithRegex_eq _ (h pattern mem_cons_self)]
      exact ih fun p hp => h p (mem_cons_of_mem pattern hp)
  exact hfold _ h

lemma eq_of_mem_ite {c : Bool} {step other : RedactionStep}
    (h : step ∈ if c = true then [other] else []) : step = other := by
  split_ifs at h
  · exact mem_singleton.1 h
  · exact absurd h not_mem_nil

def redactionPatterns : List (Regex CodeUnit) :=
  [URL_IN_TEXT_RE, QUERY_STRING_RE, QUERY_RE, SensitivePatterns.email, SensitivePatterns.ssn,
    SensitivePatterns.cardCandidate, SensitivePatterns.phoneCandidate] ++ SensitivePatterns.apiKey

variable {web : WebApi}

/-- **A text without tags and without matches is left as it is.** -/
theorem redactText_eq_self (hweb : web.ReadsTags) (profileDef : SanitizationProfileDef)
    (htags : 60 ∉ text) (h : ∀ regex ∈ redactionPatterns, matchAll regex text = []) :
    redactText web profileDef text = (text, []) := by
  have hform : stripFormValues web text = ⟨text, 0⟩ := by
    rw [stripFormValues, if_pos (hweb text htags)]
  have hurl := h URL_IN_TEXT_RE (by simp [redactionPatterns])
  have hall := stripQueryStrings_eq web hurl (h QUERY_STRING_RE (by simp [redactionPatterns]))
  have hauth := stripAuthQueryParams_eq web hurl (h QUERY_RE (by simp [redactionPatterns]))
  have hemail : redactEmails text = ⟨text, 0⟩ :=
    replaceWithRegex_eq _ (h _ (by simp [redactionPatterns]))
  have hssn : redactSsn text = ⟨text, 0⟩ :=
    replaceWithRegex_eq _ (h _ (by simp [redactionPatterns]))
  have hcard : redactCreditCards text = ⟨text, 0⟩ :=
    replaceChecked_eq _ _ (h _ (by simp [redactionPatterns]))
  have hphone : redactPhones text = ⟨text, 0⟩ :=
    replaceChecked_eq _ _ (h _ (by simp [redactionPatterns]))
  have hkeys := redactApiKeyShapes_eq fun p hp => h p (mem_append_right _ hp)
  rw [redactText]
  split
  · rfl
  · refine foldl_applyStep fun step hstep => ?_
    simp only [redactionSteps, mem_append] at hstep
    rcases hstep with (((((hstep | hstep) | hstep) | hstep) | hstep) | hstep) | hstep
    · exact (eq_of_mem_ite hstep) ▸ hform
    · split_ifs at hstep
      · exact (mem_singleton.1 hstep) ▸ hall
      · exact (mem_singleton.1 hstep) ▸ hauth
      · exact absurd hstep not_mem_nil
    · exact (eq_of_mem_ite hstep) ▸ hemail
    · exact (eq_of_mem_ite hstep) ▸ hssn
    · exact (eq_of_mem_ite hstep) ▸ hcard
    · exact (eq_of_mem_ite hstep) ▸ hphone
    · exact (eq_of_mem_ite hstep) ▸ hkeys

lemma matchAll_marker : ∀ regex ∈ redactionPatterns,
    matchAll regex unserializablePayloadMarker = [] := by
  have hlength : ∀ regex ∈ redactionPatterns,
      (matchAll regex unserializablePayloadMarker).length = 0 := by
    decide +kernel
  exact fun regex h => length_eq_zero_iff.1 (hlength regex h)

/-- **The text for a payload that cannot be serialized is left as it is.** -/
theorem redactText_marker (hweb : web.ReadsTags) (profileDef : SanitizationProfileDef) :
    redactText web profileDef unserializablePayloadMarker = (unserializablePayloadMarker, []) :=
  redactText_eq_self hweb profileDef (by decide) matchAll_marker

end Yantra
