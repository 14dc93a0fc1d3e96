import Mathlib.Data.Finset.Basic
import Yantra.Lib.JsText
import Yantra.Lib.Machine
import Yantra.Lib.OrderedMap
import Yantra.Lib.Regex

/-!
# The provenance of URLs

`UrlProvenance` remembers every URL a run was shown, and admits a navigation when the history
attests to it. The URL parser is the platform's and stands as a parameter; what the class does with
its parts is modelled, with the two grammars by which the user's goal is read.

## Main definitions

* `UrlProvenance` — the five maps, with `record`, `allowHost`, `seed` and `explain`.
* `AdmitsUrl` — what the history attests to, as a union over it.

## Main results

* `explain_union` — admission is that union, it is monotone, and the reported origin is the
  first recording under the key of the match rule.
* `reported_origin_did_not_admit` — that recording need not be the one that admitted.
-/

namespace Yantra

open List Option Finset

/-! ## The platform -/

/-- The parts of a URL as the platform's parser gives them. -/
structure UrlParts where
  protocol : String
  host : String
  hostname : String
  pathname : String
  search : String
  /-- The names of the query parameters, in order. -/
  searchKeys : List String
  deriving DecidableEq

/-- What the runtime supplies: Unicode lowercasing, and `new URL(url)`, `none` where it throws. -/
structure UrlRuntime where
  toLowerCase : String → String
  newUrl : String → Option UrlParts

/-- How a URL earned its attestation. -/
inductive ProvenanceOrigin where
  | goal
  | allowHost
  | tool (tool : String)
  | discovered (sourceId linkKind : String)
  deriving DecidableEq, Repr

/-- Which rule admitted a URL. -/
inductive ProvenanceMatch where
  | exact | originRoot | queryVariant | allowedHost
  deriving DecidableEq, Repr

/-- Why a URL is attested. -/
structure ProvenanceExplanation where
  matchRule : ProvenanceMatch
  origin : ProvenanceOrigin
  deriving DecidableEq, Repr

/-- A URL reduced to its comparison form. -/
structure ParsedUrl where
  normalized : String
  origin : String
  originPath : String
  queryKeys : List String
  isOriginRoot : Bool
  hostname : String
  deriving DecidableEq

/-- The path in its comparison form: trailing slashes go, but the root stays. -/
def comparisonPath (pathname : String) : String :=
  if pathname = "/" then "/" else JsText.stripEnd (· == '/') pathname

variable (rt : UrlRuntime)

/-- `parse` -/
def parseUrl (url : String) : Option ParsedUrl :=
  (rt.newUrl (JsText.trim url)).map fun parsed =>
    let scheme := rt.toLowerCase parsed.protocol
    let host := rt.toLowerCase parsed.host
    let path := comparisonPath parsed.pathname
    { normalized := scheme ++ "//" ++ host ++ path ++ parsed.search
      origin := scheme ++ "//" ++ host ++ "/"
      originPath := scheme ++ "//" ++ host ++ path
      queryKeys := parsed.searchKeys
      isOriginRoot := (path == "/" || path == "") && parsed.search == ""
      hostname := rt.toLowerCase parsed.hostname }

/-! ## URLs and hosts in the goal -/

/-- An ASCII letter of either case, or one of the two other characters that fold to one. -/
def foldsTo (lower c : Char) : Bool :=
  c == lower || (c.isUpper && c.toLower == lower) || (lower == 's' && c.toNat == 0x17F) ||
    (lower == 'k' && c.toNat == 0x212A)

/-- `[a-z]` under the flags `iu`. -/
def isLetterFold (c : Char) : Bool := c.isAlpha || c.toNat == 0x17F || c.toNat == 0x212A

/-- `[a-z0-9]` under the flags `iu`. -/
def isAlnumFold (c : Char) : Bool := isLetterFold c || c.isDigit

/-- A word under the flags `iu`. -/
def wordFold (w : String) : Regex Char := .seqs (w.toList.map fun c => .sym (foldsTo c))

def URL_IN_TEXT : Regex Char :=
  .seqs [wordFold "http", .opt (.sym (foldsTo 's')), .lit "://".toList,
    .plus (.sym fun c => !(JsText.isSpace c || "<>\x22\x27\x60".toList.contains c))]

/-- Punctuation that ends a sentence, not a URL. -/
def isTrailingPunctuation (c : Char) : Bool := ".,;:!?)]\x7d".toList.contains c

/-- `text.match(pattern)` of a global pattern. -/
def matchesOf (pattern : Regex Char) (text : String) : List String :=
  (pattern.matchAll text.toList).map fun m => String.ofList m.text

def extractUrls (text : String) : List String :=
  (matchesOf URL_IN_TEXT text).map (JsText.stripEnd isTrailingPunctuation)

def BARE_HOST_IN_TEXT : Regex Char :=
  .seqs [.notBehind fun c => isAlnumFold c || "_@./-".toList.contains c,
    .plus (.seqs [.sym isAlnumFold,
      .opt (.seqs [.rep 0 (some 61) (.sym fun c => isAlnumFold c || c == '-'), .sym isAlnumFold]),
      .sym (· == '.')]),
    .rep 2 (some 24) (.sym isLetterFold),
    .notAhead (.sym fun c => isAlnumFold c || "_@-".toList.contains c)]

def extractBareHosts (text : String) : List String :=
  let withoutUrls := String.ofList (URL_IN_TEXT.replace (fun _ => [' ']) text.toList)
  ((matchesOf BARE_HOST_IN_TEXT withoutUrls).map rt.toLowerCase).eraseDups

example : extractUrls "Use example.com (or https://a.example/b?c=1)." =
    ["https://a.example/b?c=1"] := by decide +kernel

example : extractBareHosts ⟨JsText.asciiLower, fun _ => none⟩
    "Use Example.com, mail me@mail.example or see https://a.example/b." = ["example.com"] := by
  decide +kernel

/-! ## The class -/

/-- The state of a `UrlProvenance`. -/
structure UrlProvenance where
  urls : OrderedMap String ProvenanceOrigin := OrderedMap.empty
  origins : OrderedMap String ProvenanceOrigin := OrderedMap.empty
  queryKeysByOriginPath : OrderedMap String (Finset String) := OrderedMap.empty
  originByOriginPath : OrderedMap String ProvenanceOrigin := OrderedMap.empty
  allowedHosts : Finset String := ∅

namespace UrlProvenance

/-- What `record` does with a parsed URL. -/
def recordParsed (s : UrlProvenance) (parsed : ParsedUrl) (origin : ProvenanceOrigin) :
    UrlProvenance :=
  let keys := (s.queryKeysByOriginPath.get? parsed.originPath).getD ∅
  { s with
    urls := s.urls.setNew parsed.normalized origin
    origins := s.origins.setNew parsed.origin origin
    originByOriginPath := s.originByOriginPath.setNew parsed.originPath origin
    queryKeysByOriginPath :=
      s.queryKeysByOriginPath.set parsed.originPath (keys ∪ parsed.queryKeys.toFinset) }

def record (s : UrlProvenance) (url : String) (origin : ProvenanceOrigin) : UrlProvenance :=
  match parseUrl rt url with
  | none => s
  | some parsed => s.recordParsed parsed origin

def allowHost (s : UrlProvenance) (host : String) : UrlProvenance :=
  let trimmed := rt.toLowerCase (JsText.trim host)
  if trimmed.isEmpty then s
  else
    match parseUrl rt ("https://" ++ trimmed ++ "/") with
    | none => s
    | some parsed => { s with allowedHosts := insert parsed.hostname s.allowedHosts }

def seed (s : UrlProvenance) (allowedHosts : List String) (goal : String) : UrlProvenance :=
  let s := allowedHosts.foldl (allowHost rt) s
  let s := (extractUrls goal).foldl (fun s url => s.record rt url .goal) s
  (extractBareHosts rt goal).foldl (fun s host =>
    (s.record rt ("https://" ++ host ++ "/") .goal).record rt ("http://" ++ host ++ "/") .goal) s

/-- `explain`, for a parsed URL. -/
def explainParsed (s : UrlProvenance) (parsed : ParsedUrl) : Option ProvenanceExplanation :=
  if parsed.hostname ∈ s.allowedHosts then some ⟨.allowedHost, .allowHost⟩
  else
    match s.urls.get? parsed.normalized with
    | some exact => some ⟨.exact, exact⟩
    | none =>
      match if parsed.isOriginRoot then s.origins.get? parsed.origin else none with
      | some root => some ⟨.originRoot, root⟩
      | none =>
        match s.queryKeysByOriginPath.get? parsed.originPath,
          s.originByOriginPath.get? parsed.originPath with
        | some knownKeys, some granting =>
          if ∀ key ∈ parsed.queryKeys, key ∈ knownKeys then some ⟨.queryVariant, granting⟩ else none
        | _, _ => none

def explain (s : UrlProvenance) (url : String) : Option ProvenanceExplanation :=
  (parseUrl rt url).bind s.explainParsed

def has (s : UrlProvenance) (url : String) : Bool := (s.explain rt url).isSome

def size (s : UrlProvenance) : ℕ := s.urls.keys.length

end UrlProvenance

inductive ProvenanceCall where
  | record (url : String) (origin : ProvenanceOrigin)
  | allowHost (host : String)
  | seed (allowedHosts : List String) (goal : String)

/-- A run of one `UrlProvenance`. -/
def urlProvenance : Machine UrlProvenance ProvenanceCall where
  init := {}
  step s
    | .record url origin => s.record rt url origin
    | .allowHost host => s.allowHost rt host
    | .seed allowedHosts goal => s.seed rt allowedHosts goal

/-! ## The history -/

/-- What a call contributes: a recording of a URL that parses, or an allow-listed hostname. -/
inductive Attestation where
  | recorded (url : ParsedUrl) (origin : ProvenanceOrigin)
  | allowed (hostname : String)

def recordAttests (url : String) (origin : ProvenanceOrigin) : List Attestation :=
  (parseUrl rt url).toList.map fun parsed => .recorded parsed origin

def allowAttests (host : String) : List Attestation :=
  let trimmed := rt.toLowerCase (JsText.trim host)
  if trimmed.isEmpty then []
  else
    (parseUrl rt ("https://" ++ trimmed ++ "/")).toList.map fun parsed => .allowed parsed.hostname

def ProvenanceCall.attests : ProvenanceCall → List Attestation
  | .record url origin => recordAttests rt url origin
  | .allowHost host => allowAttests rt host
  | .seed allowedHosts goal =>
    allowedHosts.flatMap (allowAttests rt) ++
      (extractUrls goal).flatMap (fun url => recordAttests rt url .goal) ++
      (extractBareHosts rt goal).flatMap fun host =>
        recordAttests rt ("https://" ++ host ++ "/") .goal ++
          recordAttests rt ("http://" ++ host ++ "/") .goal

def recordings (history : List Attestation) : List (ParsedUrl × ProvenanceOrigin) :=
  history.filterMap fun
    | .recorded url origin => some (url, origin)
    | .allowed _ => none

/-- The origin of the first recording whose key is `k`. -/
def firstOrigin (key : ParsedUrl → String) (k : String) (history : List Attestation) :
    Option ProvenanceOrigin :=
  ((recordings history).find? fun r => key r.1 = k).map Prod.snd

/-- What the history attests to: an allow-listed host, a recorded URL, the root of a recorded
origin, or a recorded origin and path with parameter names recorded there. -/
def AdmitsUrl (history : List Attestation) (parsed : ParsedUrl) : Prop :=
  Attestation.allowed parsed.hostname ∈ history ∨
  (∃ r ∈ recordings history, r.1.normalized = parsed.normalized) ∨
  (parsed.isOriginRoot = true ∧ ∃ r ∈ recordings history, r.1.origin = parsed.origin) ∨
  ((∃ r ∈ recordings history, r.1.originPath = parsed.originPath) ∧
    ∀ key ∈ parsed.queryKeys, ∃ r ∈ recordings history,
      r.1.originPath = parsed.originPath ∧ key ∈ r.1.queryKeys)

/-- The origin a match rule reports: the first recording under the rule's own key. -/
def ruleOrigin (history : List Attestation) (parsed : ParsedUrl) :
    ProvenanceMatch → Option ProvenanceOrigin
  | .allowedHost => some .allowHost
  | .exact => firstOrigin ParsedUrl.normalized parsed.normalized history
  | .originRoot => firstOrigin ParsedUrl.origin parsed.origin history
  | .queryVariant => firstOrigin ParsedUrl.originPath parsed.originPath history

/-- What one attestation does to the maps. -/
def UrlProvenance.note (s : UrlProvenance) : Attestation → UrlProvenance
  | .recorded url origin => s.recordParsed url origin
  | .allowed hostname => { s with allowedHosts := insert hostname s.allowedHosts }

/-- The maps hold what the history says. -/
structure Represents (history : List Attestation) (s : UrlProvenance) : Prop where
  urls : ∀ k, s.urls.get? k = firstOrigin ParsedUrl.normalized k history
  origins : ∀ k, s.origins.get? k = firstOrigin ParsedUrl.origin k history
  originByOriginPath : ∀ k,
    s.originByOriginPath.get? k = firstOrigin ParsedUrl.originPath k history
  knownPath : ∀ k, s.queryKeysByOriginPath.has k = (s.originByOriginPath.get? k).isSome
  queryKeys : ∀ k key, key ∈ (s.queryKeysByOriginPath.get? k).getD ∅ ↔
    ∃ r ∈ recordings history, r.1.originPath = k ∧ key ∈ r.1.queryKeys
  allowedHosts : ∀ hostname, hostname ∈ s.allowedHosts ↔ Attestation.allowed hostname ∈ history

/-! ## The calls write the history down -/

variable {rt} {history : List Attestation} {s : UrlProvenance}

open UrlProvenance

/-- `record` notes what it contributes. -/
lemma record_eq (s : UrlProvenance) (url : String) (origin : ProvenanceOrigin) :
    s.record rt url origin = (recordAttests rt url origin).foldl note s := by
  unfold record recordAttests
  cases parseUrl rt url <;> rfl

/-- `allowHost` notes what it contributes. -/
lemma allowHost_eq (s : UrlProvenance) (host : String) :
    s.allowHost rt host = (allowAttests rt host).foldl note s := by
  unfold allowHost allowAttests
  dsimp only
  split_ifs
  · rfl
  · cases parseUrl rt ("https://" ++ rt.toLowerCase (JsText.trim host) ++ "/") <;> rfl

lemma foldl_note {α : Type} (step : UrlProvenance → α → UrlProvenance)
    (attests : α → List Attestation) (h : ∀ s a, step s a = (attests a).foldl note s)
    (as : List α) (s : UrlProvenance) :
    as.foldl step s = (as.flatMap attests).foldl note s := by
  induction as generalizing s with
  | nil => rfl
  | cons a as ih => rw [foldl_cons, ih, h, flatMap_cons, foldl_append]

lemma step_eq (s : UrlProvenance) (call : ProvenanceCall) :
    (urlProvenance rt).step s call = (call.attests rt).foldl note s := by
  cases call with
  | record url origin => exact record_eq s url origin
  | allowHost host => exact allowHost_eq s host
  | seed allowedHosts goal =>
    simp only [urlProvenance, UrlProvenance.seed, ProvenanceCall.attests, foldl_append]
    rw [foldl_note _ _ (fun s host => allowHost_eq s host),
      foldl_note _ _ (fun s url => record_eq s url .goal),
      foldl_note _ _ (fun s host => by rw [record_eq, record_eq, ← foldl_append])]

lemma recordings_append (history later : List Attestation) :
    recordings (history ++ later) = recordings history ++ recordings later :=
  filterMap_append

variable (key : ParsedUrl → String)

lemma firstOrigin_append (k : String) (later : List Attestation) :
    firstOrigin key k (history ++ later) =
      (firstOrigin key k history).or (firstOrigin key k later) := by
  unfold firstOrigin
  rw [recordings_append, find?_append]
  cases (recordings history).find? fun r => key r.1 = k <;> rfl

lemma firstOrigin_concat (k : String) (url : ParsedUrl) (origin : ProvenanceOrigin) :
    firstOrigin key k (history ++ [.recorded url origin]) =
      (firstOrigin key k history).or (if key url = k then some origin else none) := by
  rw [firstOrigin_append]
  congr 1
  by_cases hk : key url = k
  · simp [firstOrigin, recordings, hk]
  · simp [firstOrigin, recordings, hk]

lemma firstOrigin_isSome_iff (k : String) :
    (firstOrigin key k history).isSome ↔ ∃ r ∈ recordings history, key r.1 = k := by
  simp [firstOrigin, find?_isSome]

lemma Represents.note (h : Represents history s) (a : Attestation) :
    Represents (history ++ [a]) (s.note a) := by
  cases a with
  | allowed hostname =>
    have hrec : recordings (history ++ [.allowed hostname]) = recordings history := by
      rw [recordings_append]
      exact append_nil _
    refine ⟨fun k => ?_, fun k => ?_, fun k => ?_, h.knownPath, fun k key => ?_, fun host => ?_⟩
    · rw [firstOrigin, hrec]
      exact h.urls k
    · rw [firstOrigin, hrec]
      exact h.origins k
    · rw [firstOrigin, hrec]
      exact h.originByOriginPath k
    · rw [hrec]
      exact h.queryKeys k key
    · simp only [UrlProvenance.note, mem_insert, h.allowedHosts, mem_append,
        List.mem_singleton, Attestation.allowed.injEq, or_comm]
  | recorded url origin =>
    have hrec : recordings (history ++ [.recorded url origin]) =
        recordings history ++ [(url, origin)] := recordings_append _ _
    refine ⟨fun k => ?_, fun k => ?_, fun k => ?_, fun k => ?_, fun k key => ?_, fun host => ?_⟩
    · simp only [UrlProvenance.note, UrlProvenance.recordParsed, OrderedMap.get?_setNew, h.urls,
        firstOrigin_concat]
    · simp only [UrlProvenance.note, UrlProvenance.recordParsed, OrderedMap.get?_setNew,
        h.origins, firstOrigin_concat]
    · simp only [UrlProvenance.note, UrlProvenance.recordParsed, OrderedMap.get?_setNew,
        h.originByOriginPath, firstOrigin_concat]
    · have hknown := h.knownPath k
      simp only [OrderedMap.has] at hknown
      simp only [UrlProvenance.note, UrlProvenance.recordParsed, OrderedMap.has,
        OrderedMap.get?_set, OrderedMap.get?_setNew]
      split_ifs with hk
      · simp
      · simp [hknown]
    · simp only [UrlProvenance.note, UrlProvenance.recordParsed, OrderedMap.get?_set, hrec,
        mem_append, List.mem_singleton]
      split_ifs with hk
      · subst hk
        simp only [getD_some, mem_union, h.queryKeys, List.mem_toFinset]
        constructor
        · rintro (⟨r, hr, hpath, hkey⟩ | hkey)
          · exact ⟨r, .inl hr, hpath, hkey⟩
          · exact ⟨_, .inr rfl, rfl, hkey⟩
        · rintro ⟨r, hr | rfl, hpath, hkey⟩
          · exact .inl ⟨r, hr, hpath, hkey⟩
          · exact .inr hkey
      · rw [h.queryKeys]
        constructor
        · rintro ⟨r, hr, hpath, hkey⟩
          exact ⟨r, .inl hr, hpath, hkey⟩
        · rintro ⟨r, hr | rfl, hpath, hkey⟩
          · exact ⟨r, hr, hpath, hkey⟩
          · exact absurd hpath hk
    · simp [UrlProvenance.note, UrlProvenance.recordParsed, h.allowedHosts]

lemma Represents.foldl (h : Represents history s) (as : List Attestation) :
    Represents (history ++ as) (as.foldl UrlProvenance.note s) := by
  induction as generalizing history s with
  | nil => simpa using h
  | cons a as ih => simpa using ih (h.note a)

lemma represents_nil : Represents [] ({} : UrlProvenance) where
  urls _ := rfl
  origins _ := rfl
  originByOriginPath _ := rfl
  knownPath _ := rfl
  queryKeys _ _ := by simp [recordings]
  allowedHosts _ := by simp

/-- After any calls the maps hold what the calls contributed.

**Proof sketch.** Induction on the calls; each notes its own contribution. -/
theorem represents_run (calls : List ProvenanceCall) :
    Represents (calls.flatMap (·.attests rt)) ((urlProvenance rt).run calls) := by
  have hrun : ∀ (calls : List ProvenanceCall) (history : List Attestation) (s : UrlProvenance),
      Represents history s →
      Represents (history ++ calls.flatMap (·.attests rt))
        ((urlProvenance rt).runFrom s calls) := by
    intro calls
    induction calls with
    | nil => intro history s h; simpa using h
    | cons call calls ih =>
      intro history s h
      have hstep := h.foldl (call.attests rt)
      rw [← step_eq] at hstep
      simpa using ih _ _ hstep
  exact hrun calls [] _ represents_nil

/-! ## What is admitted -/

/-- The answer of `explain`, read off the history: the first rule that applies, with its origin. -/
lemma explainParsed_eq_some_iff (h : Represents history s) (parsed : ParsedUrl)
    (e : ProvenanceExplanation) (he : s.explainParsed parsed = some e) :
    AdmitsUrl history parsed ∧ some e.origin = ruleOrigin history parsed e.matchRule := by
  unfold explainParsed at he
  by_cases hallowed : parsed.hostname ∈ s.allowedHosts
  · rw [if_pos hallowed] at he
    obtain rfl := some.inj he
    exact ⟨.inl ((h.allowedHosts _).1 hallowed), rfl⟩
  · rw [if_neg hallowed] at he
    split at he
    · rename_i exact hexact
      obtain rfl := some.inj he
      rw [h.urls] at hexact
      refine ⟨.inr (.inl ((firstOrigin_isSome_iff _ _).1 ?_)), hexact.symm⟩
      rw [hexact]
      rfl
    · split at he
      · rename_i root hroot
        obtain rfl := some.inj he
        obtain ⟨hisRoot, hroot⟩ := ite_none_right_eq_some.1 hroot
        rw [h.origins] at hroot
        refine ⟨.inr (.inr (.inl ⟨hisRoot, (firstOrigin_isSome_iff _ _).1 ?_⟩)), hroot.symm⟩
        rw [hroot]
        rfl
      · split at he
        · rename_i knownKeys granting hkeys hgranting
          split_ifs at he with hevery
          obtain rfl := some.inj he
          rw [h.originByOriginPath] at hgranting
          refine ⟨.inr (.inr (.inr ⟨(firstOrigin_isSome_iff _ _).1 ?_, fun key hkey => ?_⟩)),
            hgranting.symm⟩
          · rw [hgranting]
            rfl
          · rw [← h.queryKeys, hkeys]
            exact hevery key hkey
        · cases he

lemma explainParsed_of_admitted (h : Represents history s) (parsed : ParsedUrl)
    (hadmitted : AdmitsUrl history parsed) : s.explainParsed parsed ≠ none := by
  unfold explainParsed
  by_cases hallowed : parsed.hostname ∈ s.allowedHosts
  · rw [if_pos hallowed]
    exact some_ne_none _
  · rw [if_neg hallowed]
    split
    · exact some_ne_none _
    · rename_i hexact
      split
      · exact some_ne_none _
      · rename_i hroot
        rcases hadmitted with hhost | hurl | ⟨hisRoot, horigin⟩ | ⟨hpath, hkeys⟩
        · exact absurd ((h.allowedHosts _).2 hhost) hallowed
        · rw [h.urls, ← not_isSome_iff_eq_none, firstOrigin_isSome_iff] at hexact
          exact absurd hurl hexact
        · rw [if_pos hisRoot, h.origins, ← not_isSome_iff_eq_none,
            firstOrigin_isSome_iff] at hroot
          exact absurd horigin hroot
        · rw [← firstOrigin_isSome_iff, ← h.originByOriginPath] at hpath
          obtain ⟨granting, hgranting⟩ := isSome_iff_exists.1 hpath
          have hhas := h.knownPath parsed.originPath
          rw [hpath] at hhas
          obtain ⟨knownKeys, hknown⟩ := isSome_iff_exists.1 hhas
          have hevery : ∀ key ∈ parsed.queryKeys, key ∈ knownKeys := by
            intro key hkey
            have hmem := (h.queryKeys parsed.originPath key).2 (hkeys key hkey)
            rwa [hknown] at hmem
          simp only [hknown, hgranting, if_pos hevery]
          exact some_ne_none _

variable {parsed : ParsedUrl}

lemma AdmitsUrl.mono (h : AdmitsUrl history parsed) (later : List Attestation) :
    AdmitsUrl (history ++ later) parsed := by
  have hsub : ∀ r, r ∈ recordings history → r ∈ recordings (history ++ later) := by
    intro r hr
    rw [recordings_append]
    exact mem_append_left _ hr
  rcases h with hhost | ⟨r, hr, hurl⟩ | ⟨hisRoot, r, hr, horigin⟩ | ⟨⟨r, hr, hpath⟩, hkeys⟩
  · exact .inl (mem_append_left _ hhost)
  · exact .inr (.inl ⟨r, hsub r hr, hurl⟩)
  · exact .inr (.inr (.inl ⟨hisRoot, r, hsub r hr, horigin⟩))
  · refine .inr (.inr (.inr ⟨⟨r, hsub r hr, hpath⟩, fun key hkey => ?_⟩))
    obtain ⟨r', hr', hpath', hkey'⟩ := hkeys key hkey
    exact ⟨r', hsub r' hr', hpath', hkey'⟩

lemma ruleOrigin_append {rule : ProvenanceMatch} {o : ProvenanceOrigin}
    (h : ruleOrigin history parsed rule = some o) (later : List Attestation) :
    ruleOrigin (history ++ later) parsed rule = some o := by
  have hfirst : ∀ key k, firstOrigin key k history = some o →
      firstOrigin key k (history ++ later) = some o := by
    intro key k hfirst
    rw [firstOrigin_append, hfirst]
    rfl
  cases rule with
  | allowedHost => exact h
  | exact => exact hfirst _ _ h
  | originRoot => exact hfirst _ _ h
  | queryVariant => exact hfirst _ _ h

/-- What `explain` answers has a parsed URL behind it. -/
lemma explain_eq_some_iff (s : UrlProvenance) (url : String) (e : ProvenanceExplanation) :
    s.explain rt url = some e ↔
      ∃ parsed, parseUrl rt url = some parsed ∧ s.explainParsed parsed = some e :=
  bind_eq_some_iff

/-- `explain` answers exactly when the history attests to the parsed URL. -/
lemma explain_ne_none_iff (h : Represents history s) (url : String) :
    s.explain rt url ≠ none ↔
      ∃ parsed, parseUrl rt url = some parsed ∧ AdmitsUrl history parsed := by
  constructor
  · intro hne
    obtain ⟨e, he⟩ := ne_none_iff_exists'.1 hne
    obtain ⟨parsed, hparse, hexplain⟩ := (explain_eq_some_iff s url e).1 he
    exact ⟨parsed, hparse, (explainParsed_eq_some_iff h parsed e hexplain).1⟩
  · rintro ⟨parsed, hparse, hadmitted⟩
    rw [explain, hparse]
    exact explainParsed_of_admitted h parsed hadmitted

/-- **Admission is a union over the history.** A URL is explained exactly when its history attests
to it, it stays admitted, and the origin reported with a match rule is that of the first recording
under the rule's key (the normalized URL, the origin, or the origin and path), for good. -/
theorem explain_union (rt : UrlRuntime) (calls : List ProvenanceCall) (url : String) :
    (((urlProvenance rt).run calls).explain rt url ≠ none ↔
      ∃ parsed, parseUrl rt url = some parsed ∧
        AdmitsUrl (calls.flatMap (·.attests rt)) parsed) ∧
    (∀ later, ((urlProvenance rt).run calls).explain rt url ≠ none →
      ((urlProvenance rt).run (calls ++ later)).explain rt url ≠ none) ∧
    (∀ e, ((urlProvenance rt).run calls).explain rt url = some e →
      ∃ parsed, parseUrl rt url = some parsed ∧
        ruleOrigin (calls.flatMap (·.attests rt)) parsed e.matchRule = some e.origin) ∧
    (∀ later e e', ((urlProvenance rt).run calls).explain rt url = some e →
      ((urlProvenance rt).run (calls ++ later)).explain rt url = some e' →
      e.matchRule = e'.matchRule → e.origin = e'.origin) := by
  have hrun : Represents (calls.flatMap (·.attests rt)) ((urlProvenance rt).run calls) :=
    represents_run calls
  have horigin : ∀ e, ((urlProvenance rt).run calls).explain rt url = some e →
      ∃ parsed, parseUrl rt url = some parsed ∧
        ruleOrigin (calls.flatMap (·.attests rt)) parsed e.matchRule = some e.origin := by
    intro e he
    obtain ⟨parsed, hparse, hexplain⟩ := (explain_eq_some_iff _ url e).1 he
    exact ⟨parsed, hparse, (explainParsed_eq_some_iff hrun parsed e hexplain).2.symm⟩
  refine ⟨explain_ne_none_iff hrun url, fun later hne => ?_, horigin,
    fun later e e' he he' hrule => ?_⟩
  · obtain ⟨parsed, hparse, hadmitted⟩ := (explain_ne_none_iff hrun url).1 hne
    refine (explain_ne_none_iff (represents_run (calls ++ later)) url).2 ⟨parsed, hparse, ?_⟩
    rw [List.flatMap_append]
    exact hadmitted.mono _
  · obtain ⟨parsed, hparse, hfirst⟩ := horigin e he
    obtain ⟨parsed', hparse', hexplain'⟩ := (explain_eq_some_iff _ url e').1 he'
    obtain rfl : parsed = parsed' := Option.some.inj (hparse.symm.trans hparse')
    have hlater :=
      (explainParsed_eq_some_iff (represents_run (calls ++ later)) parsed e' hexplain').2
    have hkept := ruleOrigin_append hfirst (later.flatMap (·.attests rt))
    rw [List.flatMap_append, ← hrule, hkept] at hlater
    exact (Option.some.inj hlater).symm

/-- The call of the history whose arrival made the match rule of `e` apply, with `e`'s origin. -/
def GrantedBy (rt : UrlRuntime) (calls : List ProvenanceCall) (url : String)
    (e : ProvenanceExplanation) : Prop :=
  ∃ pre post u, calls = pre ++ .record u e.origin :: post ∧
    (((urlProvenance rt).run pre).explain rt url).map (·.matchRule) ≠ some e.matchRule ∧
    (((urlProvenance rt).run (pre ++ [.record u e.origin])).explain rt url).map (·.matchRule) =
      some e.matchRule

/-- A search page at one site, as the platform's parser takes it apart. -/
def findPage (search : String) (key : String) : UrlParts where
  protocol := "https:"
  host := "shop.example"
  hostname := "shop.example"
  pathname := "/find"
  search := search
  searchKeys := [key]

/-- A platform that parses three search pages. -/
def findPlatform : UrlRuntime where
  toLowerCase := JsText.asciiLower
  newUrl url :=
    if url = "https://shop.example/find?a=1" then some (findPage "?a=1" "a")
    else if url = "https://shop.example/find?b=2" then some (findPage "?b=2" "b")
    else if url = "https://shop.example/find?b=3" then some (findPage "?b=3" "b")
    else none

/-- The origin reported need not be that of the recording that admitted the URL: the first page
recorded at the path lends its origin, though only the second brings the parameter in. -/
theorem reported_origin_did_not_admit :
    ∃ e, ((urlProvenance findPlatform).run
        [.record "https://shop.example/find?a=1" (.tool "web_fetch"),
          .record "https://shop.example/find?b=2" (.tool "browser_click")]).explain findPlatform
        "https://shop.example/find?b=3" = some e ∧
      ¬ GrantedBy findPlatform
        [.record "https://shop.example/find?a=1" (.tool "web_fetch"),
          .record "https://shop.example/find?b=2" (.tool "browser_click")]
        "https://shop.example/find?b=3" e := by
  refine ⟨⟨.queryVariant, .tool "web_fetch"⟩, by decide +kernel, ?_⟩
  rintro ⟨pre, post, u, hcalls, -, hgranted⟩
  rcases pre with _ | ⟨first, _ | ⟨second, pre⟩⟩
  · obtain ⟨hu, -⟩ := List.cons.inj hcalls
    rw [List.nil_append, ← hu] at hgranted
    revert hgranted
    decide +kernel
  · obtain ⟨-, hrest⟩ := List.cons.inj hcalls
    simp at hrest
  · simp at hcalls

end Yantra
