import Yantra.Lib.JsText
import Yantra.Lib.Machine
import Yantra.Lib.OrderedMap

/-!
# The ethics gate

Every request passes the blocklist, then, where the run enforces it, the robots policy of its host,
and last the rate limiter. The policy of a host is fetched and kept for a day; checks of other
requests go on while one is fetched.

## Main definitions

* `GateCheck`, `GateState`, `ethicsGate` — the checks under way and the cache.
* `Covers`, `Spelled` — the domains a pattern is about, and how it is spelled.

## Main results

* `gate_admits_only` — what holds of every request that is admitted.
* `gate_admits_more` — three requests that the gate lets through.
-/

namespace Yantra

open List Option

/-! ## The blocklist -/

structure BlocklistFile where
  categories : List (String × List String) := []
  userRules : List String := []
  deriving DecidableEq, Repr, Inhabited

/-- `buildHostMatcher` -/
def hostMatches (pattern host : String) : Bool :=
  match pattern.toList with
  | '*' :: '.' :: base =>
      decide (host.toList = base) || ('.' :: base).isSuffixOf host.toList
  | name => decide (host.toList = name) || ('.' :: name).isSuffixOf host.toList

/-- `buildRules`: the label of every pattern, categories first. -/
def BlocklistFile.rules (file : BlocklistFile) : List (String × String) :=
  (file.categories.flatMap fun c => c.2.map fun pattern => (c.1, pattern)) ++
    file.userRules.map fun pattern => ("user_rules", pattern)

/-- `match`: the label of the first rule that matches. -/
def blockCategory (rules : List (String × String)) (host : String) : Option String :=
  (rules.find? fun rule => hostMatches rule.2 host).map Prod.fst

/-! ## Robots policies -/

structure RobotsParser where
  isAllowed : String → String → Option Bool
  getMatchingLineNumber : String → String → Int

def openRobotsParser : RobotsParser := ⟨fun _ _ => some true, fun _ _ => -1⟩

/-- What a response says of a host's policy. -/
inductive RobotsFile where
  /-- There is none: no restrictions. -/
  | unrestricted
  | rules (robotsUrl content : String)
  deriving DecidableEq, Repr, Inhabited

/-- How a fetch ends. -/
inductive RobotsResponse where
  | response (status : Nat) (body : String)
  /-- It times out or the network fails. -/
  | failed
  deriving DecidableEq, Repr, Inhabited

def robotsUrl (host : String) : String := "https://" ++ host ++ "/robots.txt"

def robotsHttpUrl (host : String) : String := "http://" ++ host ++ "/robots.txt"

/-- What a status and a body say: nothing but 200 and 404 says anything. -/
def obtainedFile (host : String) (status : Nat) (body : String) : Option RobotsFile :=
  if status = 404 then some .unrestricted
  else if status ≠ 200 then none
  else some (.rules (robotsUrl host) body)

/-- `ROBOTS_TTL_MS` -/
def robotsTtlMs : Nat := 24 * 60 * 60 * 1000

/-- `MAX_HOSTS_CACHED` -/
def maxHostsCached : Nat := 1024

/-- `CacheEntry` -/
structure RobotsEntry where
  file : RobotsFile
  expiresAt : Nat
  fetchedAt : Nat
  deriving DecidableEq, Repr, Inhabited

/-! ## The gate -/

structure GateConfig where
  /-- `new URL(url).hostname`, `none` where it throws. -/
  hostname : String → Option String
  /-- The `robots-parser` package, `none` where it is not there or throws. -/
  robotsFactory : String → String → Option RobotsParser
  userAgent : String
  robotsUserAgent : String
  enforceRobotsTxt : Bool := false

def GateConfig.extractHost (cfg : GateConfig) (url : String) : String :=
  (cfg.hostname url).getD url

/-- `resolveUserAgent` -/
def GateConfig.resolvedUserAgent (cfg : GateConfig) : String :=
  if (JsText.trim cfg.userAgent).isEmpty then cfg.robotsUserAgent else JsText.trim cfg.userAgent

/-- `parseRobots` -/
def GateConfig.parser (cfg : GateConfig) : RobotsFile → RobotsParser
  | .unrestricted => openRobotsParser
  | .rules robotsUrl content => (cfg.robotsFactory robotsUrl content).getD openRobotsParser

def GateConfig.disallows (cfg : GateConfig) (file : RobotsFile) (url : String) : Bool :=
  decide ((cfg.parser file).isAllowed url cfg.resolvedUserAgent = some false)

def GateConfig.atHost (cfg : GateConfig) (url : String) : String :=
  match cfg.hostname url with
  | some host => " at \"" ++ host ++ "\""
  | none => ""

/-- `reasonIfDisallowed`, where a policy was obtained. -/
def GateConfig.robotsReason (cfg : GateConfig) (file : RobotsFile) (url : String) :
    Option String :=
  if cfg.disallows file url then
    let line := (cfg.parser file).getMatchingLineNumber url cfg.resolvedUserAgent
    some ("Disallowed by robots.txt" ++ cfg.atHost url ++
      (if 0 ≤ line then " (matched line " ++ toString line ++ ")" else " (matched disallow rule)"))
  else none

/-- `reasonIfDisallowed`, where none was. -/
def GateConfig.unavailableReason (cfg : GateConfig) (url : String) : String :=
  "Robots policy unavailable" ++ cfg.atHost url ++ " (could not fetch robots.txt)"

/-- `EthicsRefusedError` -/
structure EthicsRefusal where
  host : String
  rule : String
  reason : String
  source : String
  deriving DecidableEq, Repr, Inhabited

/-- How far a check is. -/
inductive GatePhase where
  | refused (refusal : EthicsRefusal)
  /-- It waits for the host's policy. -/
  | fetching
  /-- It waits for the fallback. -/
  | fetchingHttp
  /-- It waits for the rate limiter. -/
  | acquiring
  | admitted
  deriving DecidableEq, Repr, Inhabited

structure GateCheck where
  url : String
  host : String
  /-- When it looked at the cache. -/
  startedAt : Nat
  phase : GatePhase
  /-- History: the blocklist it was checked against. -/
  rules : List (String × String)
  /-- History: the policies it requested. -/
  requests : List String := []
  /-- History: the policy it was judged by. -/
  judgedBy : Option RobotsFile := none
  askedToken : Bool := false
  deriving DecidableEq, Repr, Inhabited

structure ObtainedPolicy where
  host : String
  fetchedAt : Nat
  file : RobotsFile
  deriving DecidableEq, Repr, Inhabited

structure GateState where
  now : Nat
  rules : List (String × String) := []
  cache : OrderedMap String RobotsEntry := OrderedMap.empty
  /-- Every check so far. -/
  checks : List GateCheck := []
  obtained : List ObtainedPolicy := []

/-- What can happen. Checks are named by their place. -/
inductive GateAction where
  | advance (ms : Nat)
  /-- `reload`: the file that is read, `none` where neither is there. -/
  | reload (file : Option BlocklistFile)
  | check (url : String)
  /-- A fetch ends. -/
  | fetched (k : Nat) (response : RobotsResponse)
  /-- The rate limiter grants a token. -/
  | granted (k : Nat)
  deriving DecidableEq, Repr, Inhabited

/-- The host whose policy is the oldest, the first of several. -/
def oldestHost : List (String × RobotsEntry) → Option (String × Nat)
  | [] => none
  | (host, entry) :: rest =>
    match oldestHost rest with
    | some (host', fetchedAt') =>
        if fetchedAt' < entry.fetchedAt then some (host', fetchedAt')
        else some (host, entry.fetchedAt)
    | none => some (host, entry.fetchedAt)

/-- The cache with room for one more. -/
def evictOldest (cache : OrderedMap String RobotsEntry) : OrderedMap String RobotsEntry :=
  if maxHostsCached ≤ cache.entries.length then
    match oldestHost cache.entries with
    | some (host, _) => cache.erase host
    | none => cache
  else cache

def GateCheck.refuse (c : GateCheck) (rule reason source : String) : GateCheck :=
  { c with phase := .refused ⟨c.host, rule, reason, source⟩ }

/-- A check after the policy of its host was obtained. -/
def GateCheck.judged (cfg : GateConfig) (c : GateCheck) (file : RobotsFile) : GateCheck :=
  match cfg.robotsReason file c.url with
  | some reason => { c with judgedBy := some file }.refuse "robots.txt" reason "robots"
  | none => { c with phase := .acquiring, judgedBy := some file, askedToken := true }

def newCheck (cfg : GateConfig) (s : GateState) (url : String) : GateCheck where
  url := url
  host := cfg.extractHost url
  startedAt := s.now
  phase := .acquiring
  rules := s.rules

/-- The policy the cache has for a host, unless it has expired. -/
def GateState.cached (s : GateState) (host : String) : Option RobotsEntry :=
  (s.cache.get? host).filter fun entry => decide (s.now < entry.expiresAt)

def beginCheck (cfg : GateConfig) (s : GateState) (url : String) : GateState :=
  let c := newCheck cfg s url
  match blockCategory s.rules c.host with
  | some category =>
      { s with
          checks := s.checks ++ [c.refuse category
            ("Host is in the " ++ category ++ " blocklist") "blocklist"] }
  | none =>
    if cfg.enforceRobotsTxt then
      match s.cached c.host with
      | some entry => { s with checks := s.checks ++ [c.judged cfg entry.file] }
      | none =>
          { s with
              cache := evictOldest s.cache
              checks := s.checks ++
                [{ c with phase := .fetching, requests := [robotsUrl c.host] }] }
    else { s with checks := s.checks ++ [{ c with askedToken := true }] }

def answered (cfg : GateConfig) (s : GateState) (k : Nat) (c : GateCheck) (status : Nat)
    (body : String) : GateState :=
  match obtainedFile c.host status body with
  | some file =>
      { s with
          cache := s.cache.set c.host
            { file := file, expiresAt := c.startedAt + robotsTtlMs, fetchedAt := c.startedAt }
          checks := s.checks.set k (c.judged cfg file)
          obtained := s.obtained ++ [⟨c.host, c.startedAt, file⟩] }
  | none =>
      { s with
          checks := s.checks.set k
            (c.refuse "robots.txt" (cfg.unavailableReason c.url) "robots") }

def gateStep (cfg : GateConfig) (s : GateState) : GateAction → GateState
  | .advance ms => { s with now := s.now + ms }
  | .reload file => { s with rules := (file.map BlocklistFile.rules).getD [] }
  | .check url => beginCheck cfg s url
  | .fetched k response =>
    match s.checks[k]? with
    | none => s
    | some c =>
      match c.phase, response with
      | .fetching, .response status body | .fetchingHttp, .response status body =>
          answered cfg s k c status body
      | .fetching, .failed =>
          { s with
              checks := s.checks.set k
                { c with phase := .fetchingHttp, requests := c.requests ++ [robotsHttpUrl c.host] } }
      | .fetchingHttp, .failed =>
          { s with
              checks := s.checks.set k
                (c.refuse "robots.txt" (cfg.unavailableReason c.url) "robots") }
      | _, _ => s
  | .granted k =>
    match s.checks[k]? with
    | none => s
    | some c =>
      match c.phase with
      | .acquiring => { s with checks := s.checks.set k { c with phase := .admitted } }
      | _ => s

/-- A gate, with an empty blocklist and an empty cache. -/
def ethicsGate (cfg : GateConfig) (now : Nat) : Machine GateState GateAction where
  init := { now := now }
  step := gateStep cfg

/-! ## What a pattern is about -/

/-- A domain name, its case and a trailing dot aside. -/
def domainName (name : String) : List Char :=
  let lower := (JsText.asciiLower name).toList
  if lower.getLast? = some '.' then lower.dropLast else lower

/-- The domain of a pattern, its wildcard aside. -/
def patternBase (pattern : String) : String :=
  match pattern.toList with
  | '*' :: '.' :: base => String.ofList base
  | _ => pattern

def Covers (pattern host : String) : Prop :=
  domainName host = domainName (patternBase pattern) ∨
    ('.' :: domainName (patternBase pattern)) <:+ domainName host

/-- A name is spelled in lower case and without a trailing dot. -/
def Spelled (name : String) : Prop := domainName name = name.toList

instance (pattern host : String) : Decidable (Covers pattern host) := by
  unfold Covers
  infer_instance

lemma hostMatches_of_covers {pattern host : String} (hpattern : Spelled (patternBase pattern))
    (hhost : Spelled host) (h : Covers pattern host) : hostMatches pattern host := by
  unfold Covers at h
  rw [hpattern, hhost] at h
  unfold hostMatches
  unfold patternBase at h
  split
  · rename_i base hbase
    simp only [hbase, String.toList_ofList] at h
    simpa [isSuffixOf_iff_suffix] using h
  · rename_i hnone
    split at h
    · rename_i base hbase
      exact absurd hbase (hnone base)
    · simpa [isSuffixOf_iff_suffix] using h

lemma blockCategory_eq_none_iff (rules : List (String × String)) (host : String) :
    blockCategory rules host = none ↔ ∀ rule ∈ rules, hostMatches rule.2 host = false := by
  simp [blockCategory]

/-! ## What a check has passed -/

/-- A policy obtained for a host less than a day before. -/
def GateState.Obtained (s : GateState) (host : String) (file : RobotsFile) (now : Nat) : Prop :=
  ∃ o ∈ s.obtained, o.host = host ∧ o.file = file ∧ o.fetchedAt ≤ now ∧
    now < o.fetchedAt + robotsTtlMs

structure CheckInv (cfg : GateConfig) (s : GateState) (c : GateCheck) : Prop where
  host : c.host = cfg.extractHost c.url
  startedAt : c.startedAt ≤ s.now
  /-- A blocked request is refused at once. -/
  blocked : blockCategory c.rules c.host ≠ none →
    (∃ refusal, c.phase = .refused refusal) ∧ c.requests = [] ∧ c.askedToken = false
  /-- Every policy requested is the host's. -/
  requests : ∀ url ∈ c.requests, url = robotsUrl c.host ∨ url = robotsHttpUrl c.host
  /-- Past the policies there is one that was obtained and does not refuse the URL. -/
  judged : cfg.enforceRobotsTxt → c.phase = .acquiring ∨ c.phase = .admitted →
    ∃ file, c.judgedBy = some file ∧ s.Obtained c.host file c.startedAt ∧
      cfg.disallows file c.url = false
  asked : c.askedToken → c.phase = .acquiring ∨ c.phase = .admitted

/-- What every check has passed, and what the cache keeps. -/
structure EthicsInv (cfg : GateConfig) (s : GateState) : Prop where
  checks : ∀ c ∈ s.checks, CheckInv cfg s c
  cache : ∀ host entry, s.cache.get? host = some entry →
    entry.expiresAt = entry.fetchedAt + robotsTtlMs ∧ entry.fetchedAt ≤ s.now ∧
      ⟨host, entry.fetchedAt, entry.file⟩ ∈ s.obtained
  obtained : ∀ o ∈ s.obtained, o.file = .unrestricted ∨
    ∃ content, o.file = .rules (robotsUrl o.host) content

variable {cfg : GateConfig} {c : GateCheck}

lemma CheckInv.mono {s s' : GateState} (h : CheckInv cfg s c) (hnow : s.now ≤ s'.now)
    (hobtained : s.obtained ⊆ s'.obtained) : CheckInv cfg s' c := by
  refine ⟨h.host, Nat.le_trans h.startedAt hnow, h.blocked, h.requests, fun henforce hphase => ?_,
    h.asked⟩
  obtain ⟨file, hfile, ⟨o, ho, hhost⟩, hallows⟩ := h.judged henforce hphase
  exact ⟨file, hfile, ⟨o, hobtained ho, hhost⟩, hallows⟩

variable {host : String}

variable {entry : RobotsEntry}

lemma get?_evictOldest {cache : OrderedMap String RobotsEntry}
    (h : (evictOldest cache).get? host = some entry) :
    cache.get? host = some entry := by
  unfold evictOldest at h
  split at h
  · split at h
    · rename_i oldest _ _
      rw [OrderedMap.get?_erase] at h
      split at h
      · cases h
      · exact h
    · exact h
  · exact h

variable {s : GateState}

variable {file : RobotsFile}

lemma CheckInv.judge (hfile : s.Obtained c.host file c.startedAt)
    (hhost : c.host = cfg.extractHost c.url) (hstarted : c.startedAt ≤ s.now)
    (hrequests : ∀ url ∈ c.requests, url = robotsUrl c.host ∨ url = robotsHttpUrl c.host)
    (hunblocked : blockCategory c.rules c.host = none) (hasked : c.askedToken = false) :
    CheckInv cfg s (c.judged cfg file) := by
  unfold GateCheck.judged
  cases hreason : cfg.robotsReason file c.url with
  | some reason =>
    refine ⟨hhost, hstarted, fun hblocked => absurd hunblocked hblocked, hrequests,
      fun _ hphase => ?_, fun hasked' => ?_⟩
    · rcases hphase with hphase | hphase <;> cases hphase
    · exact absurd hasked' (by simp [GateCheck.refuse, hasked])
  | none =>
    refine ⟨hhost, hstarted, fun hblocked => absurd hunblocked hblocked, hrequests,
      fun _ _ => ⟨file, rfl, hfile, ?_⟩, fun _ => Or.inl rfl⟩
    unfold GateConfig.robotsReason at hreason
    split at hreason
    · cases hreason
    · rename_i hallows
      exact Bool.eq_false_iff.2 hallows

lemma CheckInv.refuse (h : CheckInv cfg s c) (hunblocked : blockCategory c.rules c.host = none)
    (hasked : c.askedToken = false) (rule reason source : String) :
    CheckInv cfg s (c.refuse rule reason source) := by
  refine ⟨h.host, h.startedAt, fun hblocked => absurd hunblocked hblocked, h.requests,
    fun _ hphase => ?_, fun hasked' => ?_⟩
  · rcases hphase with hphase | hphase <;> cases hphase
  · exact absurd hasked' (by simp [GateCheck.refuse, hasked])

lemma CheckInv.unblocked (h : CheckInv cfg s c)
    (hphase : c.phase = .fetching ∨ c.phase = .fetchingHttp) :
    blockCategory c.rules c.host = none ∧ c.askedToken = false := by
  constructor
  · by_contra hblocked
    obtain ⟨⟨refusal, hrefused⟩, -⟩ := h.blocked hblocked
    rw [hrefused] at hphase
    rcases hphase with hphase | hphase <;> cases hphase
  · by_contra hasked
    have hpast := h.asked (by simpa using hasked)
    rcases hphase with hphase | hphase <;> rw [hphase] at hpast <;>
      rcases hpast with hpast | hpast <;> cases hpast

lemma EthicsInv.addCheck (h : EthicsInv cfg s) (hc : CheckInv cfg s c) :
    EthicsInv cfg { s with checks := s.checks ++ [c] } := by
  refine ⟨fun c' hc' => ?_, h.cache, h.obtained⟩
  rcases mem_append.1 hc' with hold | hnew
  · exact (h.checks c' hold).mono (Nat.le_refl _) (List.Subset.refl _)
  · obtain rfl := mem_singleton.1 hnew
    exact hc.mono (Nat.le_refl _) (List.Subset.refl _)

lemma EthicsInv.setCheck (h : EthicsInv cfg s) (k : Nat) (hc : CheckInv cfg s c) :
    EthicsInv cfg { s with checks := s.checks.set k c } := by
  refine ⟨fun c' hc' => ?_, h.cache, h.obtained⟩
  rcases mem_or_eq_of_mem_set hc' with hold | rfl
  · exact (h.checks c' hold).mono (Nat.le_refl _) (List.Subset.refl _)
  · exact hc.mono (Nat.le_refl _) (List.Subset.refl _)

lemma EthicsInv.obtained_of_cached (h : EthicsInv cfg s) (hentry : s.cached host = some entry) :
    s.Obtained host entry.file s.now := by
  obtain ⟨hget, hfresh⟩ := filter_eq_some_iff.1 hentry
  obtain ⟨hexpires, hfetched, hobtained⟩ := h.cache _ _ hget
  exact ⟨_, hobtained, rfl, rfl, hfetched, hexpires ▸ of_decide_eq_true hfresh⟩

lemma EthicsInv.beginCheck (h : EthicsInv cfg s) (url : String) :
    EthicsInv cfg (beginCheck cfg s url) := by
  have hnone : ∀ request ∈ (newCheck cfg s url).requests,
      request = robotsUrl (newCheck cfg s url).host ∨
        request = robotsHttpUrl (newCheck cfg s url).host := fun request hrequest =>
    nomatch hrequest
  simp only [Yantra.beginCheck]
  cases hblock : blockCategory s.rules (newCheck cfg s url).host with
  | some category =>
    refine h.addCheck ⟨rfl, Nat.le_refl _, fun _ => ⟨⟨_, rfl⟩, rfl, rfl⟩, hnone,
      fun _ hphase => ?_, fun hasked => nomatch hasked⟩
    rcases hphase with hphase | hphase <;> cases hphase
  | none =>
    simp only
    split_ifs with henforce
    · cases hcached : s.cached (newCheck cfg s url).host with
      | some entry =>
        have hfile := h.obtained_of_cached hcached
        exact h.addCheck (CheckInv.judge hfile rfl (Nat.le_refl _) hnone hblock rfl)
      | none =>
        have hevicted : EthicsInv cfg { s with cache := evictOldest s.cache } :=
          ⟨fun c hc => (h.checks c hc).mono (Nat.le_refl _) (List.Subset.refl _),
            fun host entry hget => h.cache host entry (get?_evictOldest hget), h.obtained⟩
        refine hevicted.addCheck ⟨rfl, Nat.le_refl _, fun hblocked => absurd hblock hblocked, ?_,
          fun _ hphase => ?_, fun hasked => nomatch hasked⟩
        · intro request hrequest
          exact Or.inl (mem_singleton.1 hrequest)
        · rcases hphase with hphase | hphase <;> cases hphase
    · exact h.addCheck ⟨rfl, Nat.le_refl _, fun hblocked => absurd hblock hblocked, hnone,
        fun henforce' _ => absurd henforce' henforce, fun _ => Or.inl rfl⟩

lemma file_of_obtainedFile {status : Nat} {body : String}
    (h : obtainedFile host status body = some file) :
    file = .unrestricted ∨ ∃ content, file = .rules (robotsUrl host) content := by
  unfold obtainedFile at h
  split_ifs at h
  · exact Or.inl (some.inj h).symm
  · exact Or.inr ⟨body, (some.inj h).symm⟩

lemma EthicsInv.answered (h : EthicsInv cfg s) (k : Nat) (hc : CheckInv cfg s c)
    (hphase : c.phase = .fetching ∨ c.phase = .fetchingHttp) (status : Nat) (body : String) :
    EthicsInv cfg (answered cfg s k c status body) := by
  obtain ⟨hunblocked, hasked⟩ := hc.unblocked hphase
  unfold Yantra.answered
  cases hfile : obtainedFile c.host status body with
  | none => exact h.setCheck k (hc.refuse hunblocked hasked _ _ _)
  | some file =>
    have hgrown : s.obtained ⊆ s.obtained ++ [⟨c.host, c.startedAt, file⟩] :=
      subset_append_left _ _
    have hkept : EthicsInv cfg { s with
        cache := s.cache.set c.host
          { file := file, expiresAt := c.startedAt + robotsTtlMs, fetchedAt := c.startedAt }
        obtained := s.obtained ++ [⟨c.host, c.startedAt, file⟩] } := by
      refine ⟨fun c' hc' => (h.checks c' hc').mono (Nat.le_refl _) hgrown, ?_, fun o ho => ?_⟩
      · refine OrderedMap.forall_get?_set ⟨rfl, hc.startedAt, ?_⟩ fun host entry hget => ?_
        · exact mem_append_right _ (mem_singleton_self _)
        · obtain ⟨hexpires, hfetched, hobtained⟩ := h.cache host entry hget
          exact ⟨hexpires, hfetched, hgrown hobtained⟩
      · rcases mem_append.1 ho with hold | hnew
        · exact h.obtained o hold
        · obtain rfl := mem_singleton.1 hnew
          exact file_of_obtainedFile hfile
    have hobtained : GateState.Obtained { s with
        cache := s.cache.set c.host
          { file := file, expiresAt := c.startedAt + robotsTtlMs, fetchedAt := c.startedAt }
        obtained := s.obtained ++ [⟨c.host, c.startedAt, file⟩] } c.host file c.startedAt :=
      ⟨⟨c.host, c.startedAt, file⟩, mem_append_right _ (mem_singleton_self _), rfl, rfl,
        Nat.le_refl _, Nat.lt_add_of_pos_right (by decide)⟩
    exact hkept.setCheck k
      (CheckInv.judge hobtained hc.host hc.startedAt hc.requests hunblocked hasked)

lemma EthicsInv.step (h : EthicsInv cfg s) (a : GateAction) :
    EthicsInv cfg (gateStep cfg s a) := by
  cases a with
  | advance ms =>
    have hlater : s.now ≤ s.now + ms := Nat.le_add_right _ _
    refine ⟨fun c hc => (h.checks c hc).mono hlater (List.Subset.refl _), fun host entry hget => ?_,
      h.obtained⟩
    obtain ⟨hexpires, hfetched, hobtained⟩ := h.cache host entry hget
    exact ⟨hexpires, Nat.le_trans hfetched hlater, hobtained⟩
  | reload file =>
    exact ⟨fun c hc => (h.checks c hc).mono (Nat.le_refl _) (List.Subset.refl _), h.cache,
      h.obtained⟩
  | check url => exact h.beginCheck url
  | fetched k response =>
    simp only [gateStep]
    cases hk : s.checks[k]? with
    | none => exact h
    | some c =>
      have hc := h.checks c (mem_of_getElem? hk)
      simp only
      split
      · rename_i hphase
        exact h.answered k hc (Or.inl hphase) _ _
      · rename_i hphase
        exact h.answered k hc (Or.inr hphase) _ _
      · rename_i hphase
        obtain ⟨hunblocked, hasked⟩ := hc.unblocked (Or.inl hphase)
        refine h.setCheck k ⟨hc.host, hc.startedAt, fun hblocked => absurd hunblocked hblocked,
          fun url hurl => ?_, fun _ hpast => ?_, fun hasked' => ?_⟩
        · rcases mem_append.1 hurl with hold | hnew
          · exact hc.requests url hold
          · exact Or.inr (mem_singleton.1 hnew)
        · rcases hpast with hpast | hpast <;> cases hpast
        · exact absurd hasked' (by simp [hasked])
      · rename_i hphase
        obtain ⟨hunblocked, hasked⟩ := hc.unblocked (Or.inr hphase)
        exact h.setCheck k (hc.refuse hunblocked hasked _ _ _)
      · exact h
  | granted k =>
    simp only [gateStep]
    cases hk : s.checks[k]? with
    | none => exact h
    | some c =>
      have hc := h.checks c (mem_of_getElem? hk)
      simp only
      split
      · rename_i hphase
        refine h.setCheck k ⟨hc.host, hc.startedAt, fun hblocked => ?_, hc.requests,
          fun henforce _ => hc.judged henforce (Or.inl hphase), fun _ => Or.inr rfl⟩
        obtain ⟨⟨refusal, hrefused⟩, -⟩ := hc.blocked hblocked
        cases hphase.symm.trans hrefused
      · exact h

/-! ## What is admitted -/

lemma ethicsInv_run (cfg : GateConfig) (now : Nat) (acts : List GateAction) :
    EthicsInv cfg ((ethicsGate cfg now).run acts) :=
  Machine.invariant_runFrom' (M := ethicsGate cfg now) (fun _ a hs => hs.step a)
    ⟨fun _ hc => (nomatch hc), fun _ _ hget => (nomatch hget), fun _ ho => (nomatch ho)⟩ acts

/-- **What the gate admits.** In every run, whatever the fetches, the rate limiter and the reloads
of the blocklist do: a request whose host a pattern matches is refused before a policy is requested
or a token asked for. A request is admitted only if no listed pattern covers its host, as both are
spelled, and, where robots policies are enforced, only if a policy obtained for its host, less than
a day before, does not refuse the URL: that of the host's `https` origin, or no restrictions. -/
theorem gate_admits_only (cfg : GateConfig) (now : Nat) (acts : List GateAction) :
    let s := (ethicsGate cfg now).run acts
    ∀ c ∈ s.checks, c.host = cfg.extractHost c.url ∧
      ((∃ rule ∈ c.rules, hostMatches rule.2 c.host) →
        (∃ refusal, c.phase = .refused refusal) ∧ c.requests = [] ∧ c.askedToken = false) ∧
      (c.phase = .admitted →
        (∀ rule ∈ c.rules, Spelled (patternBase rule.2) → Spelled c.host →
          ¬ Covers rule.2 c.host) ∧
        (cfg.enforceRobotsTxt → ∃ o ∈ s.obtained, o.host = c.host ∧
          o.fetchedAt ≤ c.startedAt ∧ c.startedAt < o.fetchedAt + robotsTtlMs ∧
          (o.file = .unrestricted ∨ ∃ content, o.file = .rules (robotsUrl c.host) content) ∧
          cfg.disallows o.file c.url = false)) := by
  intro s c hmem
  have hinv : EthicsInv cfg s := ethicsInv_run cfg now acts
  have hc := hinv.checks c hmem
  have hblocked : (∃ rule ∈ c.rules, hostMatches rule.2 c.host) →
      blockCategory c.rules c.host ≠ none := by
    rintro ⟨rule, hrule, hmatch⟩ hnone
    rw [(blockCategory_eq_none_iff _ _).1 hnone rule hrule] at hmatch
    cases hmatch
  refine ⟨hc.host, fun hmatch => hc.blocked (hblocked hmatch), fun hadmitted => ⟨?_, ?_⟩⟩
  · intro rule hrule hpattern hhost hcovers
    obtain ⟨⟨refusal, hrefused⟩, -⟩ :=
      hc.blocked (hblocked ⟨rule, hrule, hostMatches_of_covers hpattern hhost hcovers⟩)
    cases hadmitted.symm.trans hrefused
  · intro henforce
    obtain ⟨file, -, ⟨o, ho, hhost, rfl, hfetched, hfresh⟩, hallows⟩ :=
      hc.judged henforce (Or.inr hadmitted)
    refine ⟨o, ho, hhost, hfetched, hfresh, ?_, hallows⟩
    rw [← hhost]
    exact hinv.obtained o ho

/-! ## What the gate lets through -/

/-- The hostnames of three URLs. -/
def hostnameOf : String → Option String
  | "https://doubleclick.net./pixel" => some "doubleclick.net."
  | "https://shop.example/" => some "shop.example"
  | "http://shop.example:8080/private" => some "shop.example"
  | _ => none

/-- The policy that refuses everything. -/
def refuseAll : String := "User-agent: *\nDisallow: /"

/-- A parser for that policy and for the empty one: it says nothing of other origins than the
file's. -/
def parseRefuseAll (robotsUrl content : String) : RobotsParser where
  isAllowed url _ :=
    let origin := robotsUrl.toList.take (robotsUrl.length - "robots.txt".length)
    if origin.isPrefixOf url.toList then some (decide (content ≠ refuseAll)) else none
  getMatchingLineNumber _ _ := if content = refuseAll then 2 else -1

def sketchGate (enforceRobotsTxt : Bool) : GateConfig where
  hostname := hostnameOf
  robotsFactory robotsUrl content := some (parseRefuseAll robotsUrl content)
  userAgent := "YantraBot/0.1"
  robotsUserAgent := "YantraBot/0.1"
  enforceRobotsTxt := enforceRobotsTxt

theorem gate_admits_only_example :
    let s := (ethicsGate (sketchGate true) 0).run
      [.check "https://shop.example/", .fetched 0 (.response 200 ""), .granted 0]
    ∃ c ∈ s.checks, c.phase = .admitted ∧
      ∃ o ∈ s.obtained, o.host = c.host ∧ (sketchGate true).disallows o.file c.url = false := by
  intro s
  have hadmitted : ∃ c ∈ s.checks, c.phase = .admitted := by decide +kernel
  obtain ⟨c, hc, hphase⟩ := hadmitted
  obtain ⟨-, -, honly⟩ := gate_admits_only (sketchGate true) 0
    [.check "https://shop.example/", .fetched 0 (.response 200 ""), .granted 0] c hc
  obtain ⟨o, ho, hhost, -, -, -, hallowed⟩ := (honly hphase).2 rfl
  exact ⟨c, hc, hphase, o, ho, hhost, hallowed⟩

/-- A host with a trailing dot passes the pattern without it. By default no policy is requested.
Where they are enforced, the file of the `https` origin answers for another port, whose own file
refuses the URL. -/
theorem gate_admits_more :
    let dotted := (ethicsGate (sketchGate true) 0).run
      [.reload (some { categories := [("ads", ["doubleclick.net"])] }),
        .check "https://doubleclick.net./pixel", .fetched 0 (.response 404 ""), .granted 0]
    let unenforced := (ethicsGate (sketchGate false) 0).run
      [.check "http://shop.example:8080/private", .granted 0]
    let otherPort := (ethicsGate (sketchGate true) 0).run
      [.check "https://shop.example/", .fetched 0 (.response 200 ""), .granted 0,
        .check "http://shop.example:8080/private", .granted 1]
    let ownFile := RobotsFile.rules "http://shop.example:8080/robots.txt" refuseAll
    (dotted.checks.map GateCheck.phase = [.admitted] ∧
      Covers "doubleclick.net" "doubleclick.net.") ∧
    (unenforced.checks.map (fun c => (c.phase, c.requests)) = [(.admitted, [])] ∧
      (sketchGate false).disallows ownFile "http://shop.example:8080/private") ∧
    otherPort.checks.map (fun c => (c.phase, c.requests)) =
      [(.admitted, ["https://shop.example/robots.txt"]), (.admitted, [])] ∧
    (sketchGate true).disallows ownFile "http://shop.example:8080/private" := by
  decide +kernel

end Yantra
