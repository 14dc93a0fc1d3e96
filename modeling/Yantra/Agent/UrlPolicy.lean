import Yantra.Agent.Budget
import Yantra.Lib.Regex

/-!
# The policy on outbound URLs

`UrlPolicy` looks at the length of a URL and at the credentials in it as it is given, and at its
scheme and host as it is parsed; what it allows is the URL that the parser writes. Of the parser it
is assumed that it removes tabs and newlines, percent-encodes characters, and lowercases the host;
where the parts of a URL begin, and which characters are encoded, is left to it.

## Main definitions

* `UrlSplit`, `UrlParser` — the parser.
* `UrlPolicyConfig.Satisfied` — a URL satisfies the policy.

## Main results

* `urlPolicy_sound_iff` — when what the policy allows satisfies it.
-/

namespace Yantra

open List JsText

/-! ## Credentials -/

def CREDENTIAL_SHAPES : List (Regex Char) :=
  let key (c : Char) : Bool := c.isAlphanum || c == '_' || c == '-'
  [.seq (.lit "sk-".toList) (.rep 16 none (.sym Char.isAlphanum)),
    .seq (.lit "ghp_".toList) (.rep 20 none (.sym Char.isAlphanum)),
    .seq (.lit "AKIA".toList) (.rep 16 (some 16) (.sym fun c => c.isUpper || c.isDigit)),
    .seqs [.lit "eyJ".toList, .plus (.sym key), .lit ".".toList, .plus (.sym key),
      .lit ".".toList, .plus (.sym key)]]

def carriesCredential (url : List Char) : Bool :=
  CREDENTIAL_SHAPES.any fun pattern => pattern.test url

/-! ## The parser -/

/-- A character that is taken out of a URL before it is parsed. -/
def isTabOrNewline (c : Char) : Bool := c == '\t' || c == '\n' || c == '\r'

/-- A hexadecimal digit, in upper case. -/
def hexDigit (n : ℕ) : Char := Char.ofNat (if n < 10 then 48 + n else 55 + n)

def percentEncode (c : Char) : List Char :=
  (String.utf8EncodeChar c).flatMap fun b =>
    ['%', hexDigit (b.toNat / 16), hexDigit (b.toNat % 16)]

/-- A URL in its parts: what comes before the host and after it, with the characters that are to be
encoded marked. -/
structure UrlSplit where
  protocol : String
  before : List (Char × Bool)
  host : List Char
  after : List (Char × Bool)
  deriving DecidableEq

def writeMarked : Char × Bool → List Char
  | (c, true) => percentEncode c
  | (c, false) => [c]

namespace UrlSplit

def text (u : UrlSplit) : List Char := u.before.map Prod.fst ++ u.host ++ u.after.map Prod.fst

def written (u : UrlSplit) : List Char :=
  u.before.flatMap writeMarked ++ u.host.map Char.toLower ++ u.after.flatMap writeMarked

/-- How many code units encoding adds. -/
def growth (u : UrlSplit) : ℕ :=
  ((u.before ++ u.after).map fun marked =>
    if marked.2 then 3 * marked.1.utf8Size - JsText.unitsOf marked.1 else 0).foldr (· + ·) 0

end UrlSplit

/-- What `new URL(url)` gives. -/
structure WhatwgUrl where
  protocol : String
  hostname : String
  href : String
  deriving DecidableEq

/-- The platform's parser, by how it splits a URL without tabs and newlines. -/
structure UrlParser where
  split : List Char → Option UrlSplit

namespace UrlParser

def kept (rawUrl : String) : List Char := rawUrl.toList.filter fun c => !isTabOrNewline c

/-- `new URL(rawUrl)`, `none` where it throws. -/
def newUrl (parser : UrlParser) (rawUrl : String) : Option WhatwgUrl :=
  (parser.split (kept rawUrl)).map fun u =>
    ⟨u.protocol, String.ofList (u.host.map Char.toLower), String.ofList u.written⟩

/-- The parser drops no character. -/
def Keeps (parser : UrlParser) : Prop :=
  ∀ text u, parser.split text = some u → u.text = text

def Reparses (parser : UrlParser) : Prop :=
  ∀ rawUrl url, parser.newUrl rawUrl = some url → parser.newUrl url.href = some url

end UrlParser

/-! ## The policy -/

/-- `UrlPolicyErrorCode`, of the codes that the policy gives. -/
inductive UrlPolicyErrorCode where
  | urlInvalid | urlTooLong | urlInsecure | urlCredentialShape | urlHostNotAllowed
  | budgetExhausted
  deriving DecidableEq

structure UrlPolicyRejection where
  code : UrlPolicyErrorCode
  message : String
  retryable : Bool
  budgetLimit : Option BudgetLimit := none
  deriving DecidableEq

structure AllowedUrl where
  url : String
  host : String
  deriving DecidableEq

/-- `UrlAuditRecord`; an allowed URL has no code. -/
structure UrlAuditRecord where
  url : String
  host : Option String
  rejected : Option UrlPolicyErrorCode
  deriving DecidableEq

structure UrlPolicyConfig where
  maxUrlLength : Limit
  requireHttps : Bool
  allowedHosts : Option (List String) := none

def DEFAULT_URL_POLICY_CONFIG : UrlPolicyConfig where
  maxUrlLength := ((2048 : ℚ) : Limit)
  requireHttps := true

def budgetRejection (decision : BudgetDecision) : UrlPolicyRejection where
  code := .budgetExhausted
  message := decision.message
  retryable := false
  budgetLimit :=
    if decision.limit = .navigations ∨ decision.limit = .hosts then some decision.limit else none

/-- The policy of a run: its configuration, and what it is given. -/
structure UrlPolicy where
  config : UrlPolicyConfig
  limits : BudgetLimits
  parser : UrlParser
  toLowerCase : String → String

structure UrlPolicyState where
  budgets : BudgetTracker
  audited : List UrlAuditRecord

namespace UrlPolicy

variable (policy : UrlPolicy)

def hostMatches (host allowed : String) : Bool :=
  let normalized := (policy.toLowerCase (JsText.trim allowed)).toList.takeWhile (· != ':')
  !normalized.isEmpty && (host.toList == normalized || ('.' :: normalized).isSuffixOf host.toList)

def hostAllowed (host : String) : Bool :=
  match policy.config.allowedHosts with
  | none => true
  | some hosts => hosts.any (policy.hostMatches host)

def tooLong (rawUrl : String) : Bool :=
  policy.config.maxUrlLength < ((JsText.utf16Length rawUrl : ℚ) : Limit)

/-- `scheme.replace(':', '')` -/
def schemeName (scheme : String) : String := String.ofList (scheme.toList.erase ':')

/-- What `screen` finds: the URL that is allowed, or the host, where it is known, and a
rejection. -/
def verdict (rawUrl : String) : Except (Option String × UrlPolicyRejection) AllowedUrl :=
  if policy.tooLong rawUrl then
    .error (none, ⟨.urlTooLong,
      "URL exceeds the " ++ policy.config.maxUrlLength.text ++ "-character limit.", false, none⟩)
  else
    match policy.parser.newUrl rawUrl with
    | none => .error (none, ⟨.urlInvalid, "URL is not a valid absolute URL.", true, none⟩)
    | some parsed =>
      let host := policy.toLowerCase parsed.hostname
      let scheme := policy.toLowerCase parsed.protocol
      if scheme ≠ "http:" ∧ scheme ≠ "https:" then
        .error (some host, ⟨.urlInsecure,
          "Only http(s) URLs are allowed; got \"" ++ schemeName scheme ++ "\".", false, none⟩)
      else if policy.config.requireHttps ∧ scheme ≠ "https:" then
        .error (some host, ⟨.urlInsecure, "Only https URLs are allowed.", false, none⟩)
      else if !policy.hostAllowed host then
        .error (some host, ⟨.urlHostNotAllowed,
          "Host \"" ++ host ++ "\" is outside this run's allowed hosts.", false, none⟩)
      else if carriesCredential rawUrl.toList then
        .error (some host, ⟨.urlCredentialShape,
          "URL contains a credential-shaped substring and was refused.", false, none⟩)
      else .ok ⟨parsed.href, host⟩

def reject (s : UrlPolicyState) (url : String) (host : Option String)
    (rejection : UrlPolicyRejection) : Except UrlPolicyRejection AllowedUrl × UrlPolicyState :=
  (.error rejection, { s with audited := s.audited ++ [⟨url, host, some rejection.code⟩] })

def screen (s : UrlPolicyState) (rawUrl : String) :
    Except UrlPolicyRejection AllowedUrl × UrlPolicyState :=
  match policy.verdict rawUrl with
  | .ok allowed => (.ok allowed, s)
  | .error (host, rejection) => reject s rawUrl host rejection

def audit (s : UrlPolicyState) (url host : String) : UrlPolicyState :=
  { s with audited := s.audited ++ [⟨url, some host, none⟩] }

def charge (s : UrlPolicyState) (allowed : AllowedUrl) (auditUrl : String) :
    Except UrlPolicyRejection AllowedUrl × UrlPolicyState :=
  match s.budgets.reserveNavigation policy.limits allowed.host with
  | (.ok (), budgets) => (.ok allowed, { s with budgets := budgets })
  | (.error decision, budgets) =>
    reject { s with budgets := budgets } auditUrl (some allowed.host) (budgetRejection decision)

def evaluate (s : UrlPolicyState) (rawUrl : String) :
    Except UrlPolicyRejection AllowedUrl × UrlPolicyState :=
  match policy.screen s rawUrl with
  | (.ok allowed, s) => (.ok allowed, audit s rawUrl allowed.host)
  | refused => refused

def reserve (s : UrlPolicyState) (allowed : AllowedUrl) :
    Except UrlPolicyRejection AllowedUrl × UrlPolicyState :=
  policy.charge s allowed allowed.url

def check (s : UrlPolicyState) (rawUrl : String) :
    Except UrlPolicyRejection AllowedUrl × UrlPolicyState :=
  match policy.screen s rawUrl with
  | (.ok screened, s) =>
    match policy.charge s screened rawUrl with
    | (.ok allowed, s) => (.ok allowed, audit s rawUrl screened.host)
    | refused => refused
  | refused => refused

structure Satisfied (url : String) (parsed : WhatwgUrl) : Prop where
  parses : policy.parser.newUrl url = some parsed
  http : policy.toLowerCase parsed.protocol = "http:" ∨
    policy.toLowerCase parsed.protocol = "https:"
  https : policy.config.requireHttps = true → policy.toLowerCase parsed.protocol = "https:"
  host : policy.hostAllowed (policy.toLowerCase parsed.hostname) = true
  length : policy.tooLong url = false
  credential : carriesCredential url.toList = false

def Sound (s : UrlPolicyState) (rawUrl : String) : Prop :=
  ∀ allowed, (policy.evaluate s rawUrl).1 = .ok allowed ∨ (policy.check s rawUrl).1 = .ok allowed →
    ∃ parsed, policy.Satisfied allowed.url parsed

end UrlPolicy

/-! ## The length of what is written -/

lemma unitsOf_hexDigit : ∀ n < 16, unitsOf (hexDigit n) = 1 := by decide

variable (c : Char)

lemma utf16Length_percentEncode :
    utf16Length (String.ofList (percentEncode c)) = 3 * c.utf8Size := by
  have hbytes : ∀ bs : List UInt8, utf16Length (String.ofList (bs.flatMap fun b =>
      ['%', hexDigit (b.toNat / 16), hexDigit (b.toNat % 16)])) = 3 * bs.length := by
    intro bs
    induction bs with
    | nil => rfl
    | cons b bs ih =>
      have hb := b.toNat_lt
      have hpercent : unitsOf '%' = 1 := rfl
      rw [flatMap_cons, utf16Length_ofList_append, ih, utf16Length_ofList_cons,
        utf16Length_ofList_cons, utf16Length_ofList_cons, hpercent,
        unitsOf_hexDigit _ (by omega), unitsOf_hexDigit _ (by omega), length_cons]
      have hnil : utf16Length (String.ofList []) = 0 := rfl
      rw [hnil]
      omega
  rw [percentEncode, hbytes, String.length_utf8EncodeChar]

lemma unitsOf_le : unitsOf c ≤ 3 * c.utf8Size := by
  have hpos := c.utf8Size_pos
  unfold unitsOf
  split <;> omega

lemma unitsOf_toLower : unitsOf c.toLower = unitsOf c := by
  unfold Char.toLower unitsOf
  split
  · rename_i hupper
    have hc : c.toNat ≤ 90 := UInt32.le_iff_toNat_le.1 hupper.2
    have hshift : ('a'.val - 'A'.val).toNat = 32 := rfl
    have hnew : (c.val + ('a'.val - 'A'.val)).toNat < 0x10000 := by
      rw [UInt32.toNat_add, hshift]
      have : c.val.toNat = c.toNat := rfl
      omega
    exact (if_pos hnew).trans (if_pos (by omega)).symm
  · rfl

namespace UrlSplit

lemma length_flatMap_writeMarked (marked : List (Char × Bool)) :
    utf16Length (String.ofList (marked.flatMap writeMarked)) =
      utf16Length (String.ofList (marked.map Prod.fst)) +
        (marked.map fun m =>
          if m.2 then 3 * m.1.utf8Size - unitsOf m.1 else 0).foldr (· + ·) 0 := by
  induction marked with
  | nil => rfl
  | cons m marked ih =>
    obtain ⟨c, encoded⟩ := m
    rw [flatMap_cons, utf16Length_ofList_append, ih, map_cons, map_cons,
      foldr_cons, utf16Length_ofList_cons]
    cases encoded with
    | true =>
      have hle := unitsOf_le c
      rw [writeMarked, utf16Length_percentEncode, if_pos rfl]
      dsimp only
      omega
    | false =>
      have hone : utf16Length (String.ofList (writeMarked (c, false))) =
          unitsOf c := by
        simp [writeMarked, utf16Length]
      rw [hone, if_neg (by simp)]
      dsimp only
      omega

lemma length_map_toLower (host : List Char) :
    utf16Length (String.ofList (host.map Char.toLower)) =
      utf16Length (String.ofList host) := by
  induction host with
  | nil => rfl
  | cons c host ih =>
    rw [map_cons, utf16Length_ofList_cons, utf16Length_ofList_cons, ih, unitsOf_toLower]

/-- The URL that is written is longer by what encoding adds. -/
theorem length_written (u : UrlSplit) : utf16Length (String.ofList u.written) =
    utf16Length (String.ofList u.text) + u.growth := by
  have hsum : ∀ as bs : List ℕ,
      (as ++ bs).foldr (· + ·) 0 = as.foldr (· + ·) 0 + bs.foldr (· + ·) 0 := by
    intro as bs
    induction as with
    | nil => simp
    | cons a as ih =>
      rw [cons_append, foldr_cons, foldr_cons, ih]
      omega
  unfold written text growth
  rw [utf16Length_ofList_append, utf16Length_ofList_append, utf16Length_ofList_append,
    utf16Length_ofList_append, length_flatMap_writeMarked, length_flatMap_writeMarked,
    length_map_toLower, map_append, hsum]
  omega

end UrlSplit

/-! ## When the policy is sound -/

namespace UrlPolicy

variable {policy : UrlPolicy}

/-- What `screen` lets through. -/
lemma verdict_eq_ok_iff (rawUrl : String) (allowed : AllowedUrl) :
    policy.verdict rawUrl = .ok allowed ↔ ∃ parsed, policy.parser.newUrl rawUrl = some parsed ∧
      allowed = ⟨parsed.href, policy.toLowerCase parsed.hostname⟩ ∧
      policy.tooLong rawUrl = false ∧
      (policy.toLowerCase parsed.protocol = "http:" ∨
        policy.toLowerCase parsed.protocol = "https:") ∧
      (policy.config.requireHttps → policy.toLowerCase parsed.protocol = "https:") ∧
      policy.hostAllowed (policy.toLowerCase parsed.hostname) ∧
      carriesCredential rawUrl.toList = false := by
  unfold verdict
  cases htoo : policy.tooLong rawUrl with
  | true => simp
  | false =>
    cases hparsed : policy.parser.newUrl rawUrl with
    | none => simp
    | some parsed =>
      simp only [Bool.false_eq_true, if_false]
      by_cases hhttps : policy.toLowerCase parsed.protocol = "https:"
      · by_cases hhost : policy.hostAllowed (policy.toLowerCase parsed.hostname)
        · cases hcred : carriesCredential rawUrl.toList with
          | true => simp [hhttps, hhost]
          | false => simpa [hhttps, hhost] using eq_comm
        · simp [hhttps, hhost]
      · by_cases hhttp : policy.toLowerCase parsed.protocol = "http:"
        · cases hrequire : policy.config.requireHttps with
          | true => simp [hhttp]
          | false =>
            by_cases hhost : policy.hostAllowed (policy.toLowerCase parsed.hostname)
            · cases hcred : carriesCredential rawUrl.toList with
              | true => simp [hhttp, hhost]
              | false => simpa [hhttp, hhost] using eq_comm
            · simp [hhttp, hhost]
        · simp [hhttp, hhttps]

lemma evaluate_eq_ok_iff (s : UrlPolicyState) (rawUrl : String) (allowed : AllowedUrl) :
    (policy.evaluate s rawUrl).1 = .ok allowed ↔ policy.verdict rawUrl = .ok allowed := by
  unfold evaluate screen
  cases policy.verdict rawUrl with
  | ok a => simp
  | error e => simp [reject]

/-- What `check` lets through, `screen` has let through. -/
lemma verdict_of_check {s : UrlPolicyState} {rawUrl : String} {allowed : AllowedUrl}
    (h : (policy.check s rawUrl).1 = .ok allowed) : policy.verdict rawUrl = .ok allowed := by
  unfold check screen at h
  cases hv : policy.verdict rawUrl with
  | error e =>
    rw [hv] at h
    exact absurd h (by simp [reject])
  | ok a =>
    rw [hv] at h
    unfold charge at h
    cases hbudget : s.budgets.reserveNavigation policy.limits a.host with
    | mk reply budgets =>
      cases reply with
      | ok _ => simpa [hbudget] using h
      | error decision => simp [hbudget, reject] at h

end UrlPolicy

/-- **When the policy is sound.** Where it lets a URL through, the URL without its tabs and newlines
stays within the limit with what encoding adds to it, and as it is written it carries no credential.

**Proof sketch.** What is written is parsed to itself, so that its scheme and its host are the ones
that were looked at; its length is the length of what was kept and the growth. -/
theorem urlPolicy_sound_iff (policy : UrlPolicy) (hkeeps : policy.parser.Keeps)
    (hreparses : policy.parser.Reparses) (s : UrlPolicyState) (rawUrl : String) :
    policy.Sound s rawUrl ↔ ∀ u allowed, policy.parser.split (UrlParser.kept rawUrl) = some u →
      policy.verdict rawUrl = .ok allowed →
        ((JsText.utf16Length (String.ofList (UrlParser.kept rawUrl)) + u.growth : ℚ) : Limit) ≤
            policy.config.maxUrlLength ∧
          carriesCredential u.written = false := by
  have hhref : ∀ u allowed, policy.parser.split (UrlParser.kept rawUrl) = some u →
      policy.verdict rawUrl = .ok allowed → allowed.url = String.ofList u.written := by
    intro u allowed hu hverdict
    obtain ⟨parsed, hparsed, hallowed, -⟩ :=
      (UrlPolicy.verdict_eq_ok_iff rawUrl allowed).1 hverdict
    rw [hallowed]
    simp only [UrlParser.newUrl, hu, Option.map_some, Option.some.injEq] at hparsed
    rw [← hparsed]
  have hlong : ∀ u, policy.parser.split (UrlParser.kept rawUrl) = some u →
      (policy.tooLong (String.ofList u.written) = false ↔
        ((JsText.utf16Length (String.ofList (UrlParser.kept rawUrl)) + u.growth : ℚ) : Limit) ≤
          policy.config.maxUrlLength) := by
    intro u hu
    unfold UrlPolicy.tooLong
    rw [u.length_written, hkeeps _ u hu, decide_eq_false_iff_not, not_lt, Nat.cast_add]
  constructor
  · intro h u allowed hu hverdict
    obtain ⟨parsed, hok⟩ :=
      h allowed (.inl ((UrlPolicy.evaluate_eq_ok_iff s rawUrl allowed).2 hverdict))
    have hlength := hok.length
    have hcredential := hok.credential
    rw [hhref u allowed hu hverdict] at hlength hcredential
    rw [String.toList_ofList] at hcredential
    exact ⟨(hlong u hu).1 hlength, hcredential⟩
  · intro h allowed hallowed
    have hverdict : policy.verdict rawUrl = .ok allowed :=
      hallowed.elim (UrlPolicy.evaluate_eq_ok_iff s rawUrl allowed).1 UrlPolicy.verdict_of_check
    obtain ⟨parsed, hparsed, hurl, -, hhttp, hhttps, hhost, -⟩ :=
      (UrlPolicy.verdict_eq_ok_iff rawUrl allowed).1 hverdict
    obtain ⟨u, hu, -⟩ := Option.map_eq_some_iff.1 hparsed
    obtain ⟨hlength, hcredential⟩ := h u allowed hu hverdict
    have hwritten := hhref u allowed hu hverdict
    refine ⟨parsed, ?_, hhttp, hhttps, hhost, ?_, ?_⟩
    · rw [hurl]
      exact hreparses rawUrl parsed hparsed
    · rw [hwritten]
      exact (hlong u hu).2 hlength
    · rw [hwritten, String.toList_ofList]
      exact hcredential

/-! ## Two URLs that the policy lets through -/

def knownUrls (urls : List UrlSplit) : UrlParser where
  split text := urls.find? fun u => u.text == text

lemma keeps_knownUrls (urls : List UrlSplit) : (knownUrls urls).Keeps := by
  intro text u hu
  simpa using find?_some hu

lemma reparses_knownUrls (urls : List UrlSplit) (h : ∀ u ∈ urls, ∀ url,
    (knownUrls urls).newUrl (String.ofList u.text) = some url →
      (knownUrls urls).newUrl url.href = some url)
    (hclean : ∀ u ∈ urls, UrlParser.kept (String.ofList u.text) = u.text) :
    (knownUrls urls).Reparses := by
  intro rawUrl url hurl
  obtain ⟨u, hu, -⟩ := Option.map_eq_some_iff.1 hurl
  have hmem : u ∈ urls := mem_of_find?_eq_some hu
  refine h u hmem url ?_
  rw [← hurl]
  unfold UrlParser.newUrl
  rw [hclean u hmem, keeps_knownUrls urls _ u hu]

def plainly (text : String) : List (Char × Bool) := text.toList.map fun c => (c, false)

/-- `https://a.example/` with something behind. -/
def exampleUrl (after : List (Char × Bool)) : UrlSplit where
  protocol := "https:"
  before := plainly "https://"
  host := "a.example".toList
  after := plainly "/" ++ after

/-- The policy of a run over a parser that knows some URLs. -/
def examplePolicy (maxUrlLength : ℕ) (urls : List UrlSplit) : UrlPolicy where
  config := { maxUrlLength := ((maxUrlLength : ℚ) : Limit), requireHttps := true }
  limits := DEFAULT_BUDGET_LIMITS
  parser := knownUrls urls
  toLowerCase := JsText.asciiLower

/-- A run that has spent nothing. -/
def unspent : UrlPolicyState := ⟨{ startedAt := 0 }, []⟩

/-- A URL that is written as it is given. -/
theorem urlPolicy_sound_iff_plain :
    (examplePolicy 2048 [exampleUrl (plainly "page")]).Sound unspent "https://a.example/page" := by
  refine (urlPolicy_sound_iff (examplePolicy 2048 [exampleUrl (plainly "page")])
    (keeps_knownUrls _) (reparses_knownUrls _ (fun u hu url hurl => ?_) (fun u hu => ?_)) unspent
    "https://a.example/page").2 fun u _ hu _ => ?_
  · rw [List.mem_singleton.1 hu] at hurl
    obtain rfl : ⟨"https:", "a.example", "https://a.example/page"⟩ = url :=
      Option.some.inj ((show _ = _ by decide +kernel).symm.trans hurl)
    decide +kernel
  · rw [List.mem_singleton.1 hu]
    decide +kernel
  · obtain rfl : exampleUrl (plainly "page") = u :=
      Option.some.inj ((show _ = _ by decide +kernel).symm.trans hu)
    exact ⟨by decide +kernel, by decide +kernel⟩

/-- **What the policy lets through.** A credential that a tab hides from the scan, and a URL that
encoding makes longer than the limit. -/
theorem urlPolicy_unsound :
    ¬ (examplePolicy 2048 [exampleUrl (plainly "sk-0123456789abcdef")]).Sound unspent
        "https://a.example/sk-01234567\t89abcdef" ∧
      ¬ (examplePolicy 20 [exampleUrl [('é', true)], exampleUrl (plainly "%C3%A9")]).Sound unspent
        "https://a.example/é" := by
  constructor
  · intro h
    obtain ⟨parsed, hok⟩ := h ⟨"https://a.example/sk-0123456789abcdef", "a.example"⟩
      (.inl ((UrlPolicy.evaluate_eq_ok_iff unspent _ _).2 (by decide +kernel)))
    exact absurd hok.credential (by decide +kernel)
  · intro h
    obtain ⟨parsed, hok⟩ := h ⟨"https://a.example/%C3%A9", "a.example"⟩
      (.inl ((UrlPolicy.evaluate_eq_ok_iff unspent _ _).2 (by decide +kernel)))
    exact absurd hok.length (by decide +kernel)

end Yantra
