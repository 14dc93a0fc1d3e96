import Mathlib.Data.List.Nodup
import Yantra.Lib.JsText
import Yantra.Lib.Machine

/-!
# The run's document store

`DocumentStore` answers reads from what the run already read and mints an evidence ID for each new
page. A read that loads awaits its `load`; the machine takes a call, the settling of a load, and
the return of a call as steps of their own, in any order. Page views and capture references, which
no step here reads, are left out.

## Main definitions

* `DocumentStore`, `documentStore` — the store and the machine of its calls.
* `LandsOnBinding` — a load that succeeds for a bound URL lands on the same record.

## Main results

* `bindsOnce_iff` — the first holds of a run exactly when its steps all meet the second.
* `observed_page_minted_twice` — a page observed while its own load is in flight.
-/

namespace Yantra

open List

/-! ## The identity of a page -/

/-- The parts of a URL that its identity is made of. -/
structure CanonicalParts where
  protocol : String
  hostname : String
  /-- Empty for the scheme's default. -/
  port : String
  pathname : String
  params : List (String × String)

/-- What the platform supplies: lowercasing, `new URL(raw)`, the path after an assignment to
`url.pathname`, and the text of query parameters. -/
structure UrlPlatform where
  toLowerCase : String → String
  newUrl : String → Option CanonicalParts
  setPathname : CanonicalParts → String → String
  queryText : List (String × String) → String

def TRACKING_PARAMS : List String :=
  ["utm_source", "utm_medium", "utm_campaign", "utm_term", "utm_content", "utm_id", "gclid",
    "fbclid", "msclkid", "mc_cid", "mc_eid", "igshid", "ref", "ref_src", "ref_url", "source",
    "spm", "_ga"]

def canonicalUrl (pf : UrlPlatform) (raw : String) : String :=
  match pf.newUrl raw with
  | none => pf.toLowerCase (JsText.trim raw)
  | some url =>
    let hostname := pf.toLowerCase url.hostname
    let params := url.params.filter fun p => !TRACKING_PARAMS.contains (pf.toLowerCase p.1)
    let pathname :=
      if url.pathname.length > 1 && url.pathname.toList.getLast? == some '/' then
        pf.setPathname url (JsText.stripEnd (· == '/') url.pathname)
      else url.pathname
    let host := if url.port.isEmpty then hostname else hostname ++ ":" ++ url.port
    let query := pf.queryText params
    url.protocol ++ "//" ++ host ++ pathname ++ if query.isEmpty then "" else "?" ++ query

/-! ## Failures -/

/-- A failure behind a read, as far as its classification looks. -/
inductive ReadError where
  | httpStatus (statusCode : Option ℕ)
  | tooLarge
  | challenge
  | timeout
  | network
  | unreadableContent
  | ethicsRobots
  | ethicsBlocklist
  | other

def isTerminalFetchFailure : ReadError → Bool
  | .httpStatus (some status) =>
    400 ≤ status && status < 500 && status != 408 && status != 429
  | .httpStatus none => false
  | .tooLarge | .challenge | .unreadableContent | .ethicsRobots | .ethicsBlocklist => true
  | .timeout | .network | .other => false

/-- A remembered terminal failure. -/
structure FailureMemo where
  code : String
  reason : String
  failure : String
  browserChallenge : Bool := false
  deriving DecidableEq

/-! ## The store -/

/-- How a stored page was obtained. -/
inductive DocumentFetchMode where
  | http | browser | observed
  deriving DecidableEq

/-- One page read successfully in the run. -/
structure DocumentRecord where
  sourceId : String
  canonicalUrl : String
  url : String
  finalUrl : Option String
  title : Option String
  fetchMode : DocumentFetchMode
  firstTool : String
  firstReadAt : String
  reads : ℕ
  deriving DecidableEq

/-- Facts about a successful load. -/
structure LoadedMeta where
  url : String
  finalUrl : Option String
  title : Option String
  fetchMode : DocumentFetchMode
  tool : String

/-- What a caller's `load` reports. -/
inductive LoadOutcome where
  | ok (value : String) (loaded : LoadedMeta)
  | failed (terminal : Bool) (memo : FailureMemo)

/-- What an in-flight load settles to; a record is named by its place in the list of records. -/
inductive Settled where
  | record (r : ℕ) (fresh : Bool) (value : String)
  | failed (terminal : Bool) (memo : FailureMemo)
  | threw
  deriving DecidableEq

inductive StoreRead where
  | fetched (record : Option DocumentRecord) (value : String)
  | hit (record : Option DocumentRecord)
  | failed (memo : FailureMemo) (memoized : Bool)
  | threw
  deriving DecidableEq

/-- A call of `read` that awaits something: its own load, or the load of an earlier call. -/
structure ReadCall where
  key : String
  /-- The call whose load this one awaits; its own number, if it loads. -/
  awaits : ℕ
  settled : Option Settled := none
  answer : Option StoreRead := none

/-- The state of a `DocumentStore`, with the calls of `read` by number. -/
structure DocumentStore where
  records : List DocumentRecord := []
  index : String → Option ℕ := fun _ => none
  memo : String → Option FailureMemo := fun _ => none
  inFlight : String → Option ℕ := fun _ => none
  calls : ℕ → Option ReadCall := fun _ => none
  networkLoads : ℕ := 0
  hits : ℕ := 0
  memoHits : ℕ := 0
  observedCount : ℕ := 0

namespace DocumentStore

def bump (s : DocumentStore) (r : ℕ) : DocumentStore :=
  { s with records := s.records.modify r fun record => { record with reads := record.reads + 1 } }

def returns (s : DocumentStore) (id : ℕ) (c : ReadCall) (answer : StoreRead) : DocumentStore :=
  { s with calls := Function.update s.calls id (some { c with answer := some answer }) }

/-- `hit`, answering call `id`. -/
def hit (s : DocumentStore) (id : ℕ) (c : ReadCall) (r : ℕ) : DocumentStore :=
  let s := { s.bump r with hits := s.hits + 1 }
  s.returns id c (.hit s.records[r]?)

def mint (s : DocumentStore) (key : String) (loaded : LoadedMeta) (now : String) :
    DocumentStore :=
  let record : DocumentRecord :=
    { sourceId := "S" ++ toString (s.records.length + 1)
      canonicalUrl := key
      url := loaded.url
      finalUrl := loaded.finalUrl.filter (· != loaded.url)
      title := loaded.title
      fetchMode := loaded.fetchMode
      firstTool := loaded.tool
      firstReadAt := now
      reads := 1 }
  { s with
    records := s.records ++ [record]
    index := Function.update s.index key (some s.records.length) }

variable (canonical : String → String)

/-- `read`, up to its first await. -/
def read (s : DocumentStore) (id : ℕ) (url : String) : DocumentStore :=
  let key := canonical url
  let c : ReadCall := { key, awaits := id }
  match s.memo key with
  | some remembered =>
    { s with memoHits := s.memoHits + 1 }.returns id c (.failed remembered true)
  | none =>
    match s.index key with
    | some existing => s.hit id c existing
    | none =>
      match s.inFlight key with
      | some loader =>
        { s with calls := Function.update s.calls id (some { c with awaits := loader }) }
      | none =>
        { s with
          networkLoads := s.networkLoads + 1
          inFlight := Function.update s.inFlight key (some id)
          calls := Function.update s.calls id (some c) }

def settle (s : DocumentStore) (id : ℕ) (c : ReadCall) (settled : Settled) : DocumentStore :=
  { s with calls := Function.update s.calls id (some { c with settled := some settled }) }

/-- `runLoad`, from the outcome of its `load` on. -/
def runLoad (s : DocumentStore) (id : ℕ) (c : ReadCall) (now : String) :
    LoadOutcome → DocumentStore
  | .failed terminal memo =>
    { s with
      memo := if terminal then Function.update s.memo c.key (some memo) else s.memo }.settle id c
      (.failed terminal memo)
  | .ok value loaded =>
    match loaded.finalUrl.bind fun finalUrl => s.index (canonical finalUrl) with
    | some landed =>
      { s with index := Function.update s.index c.key (some landed) }.settle id c
        (.record landed false value)
    | none =>
      let minted := s.mint c.key loaded now
      let aliased :=
        match loaded.finalUrl with
        | some finalUrl =>
          if canonical finalUrl ≠ c.key then
            { minted with
              index := Function.update minted.index (canonical finalUrl) (some s.records.length) }
          else minted
        | none => minted
      aliased.settle id c (.record s.records.length true value)

/-- `read`, from the settling of its own load on. -/
def loaderReturns (s : DocumentStore) (id : ℕ) (c : ReadCall) (settled : Settled) :
    DocumentStore :=
  let s := { s with inFlight := Function.update s.inFlight c.key none }
  match settled with
  | .record r true value => s.returns id c (.fetched s.records[r]? value)
  | .record r false _ => s.hit id c r
  | .failed _ memo => s.returns id c (.failed memo false)
  | .threw => s.returns id c .threw

/-- `read`, from the settling of another call's load on. -/
def joinerReturns (s : DocumentStore) (id : ℕ) (c : ReadCall) : Settled → DocumentStore
  | .record r _ _ => s.hit id c r
  | .failed terminal memo =>
    { s with memoHits := if terminal then s.memoHits + 1 else s.memoHits }.returns id c
      (.failed memo terminal)
  | .threw => s.returns id c .threw

def observe (s : DocumentStore) (url : String) (title : Option String) (tool now : String) :
    DocumentStore :=
  let key := canonical url
  match s.index key with
  | some existing => s.bump existing
  | none =>
    { s with observedCount := s.observedCount + 1 }.mint key
      { url, finalUrl := none, title, fetchMode := .observed, tool } now

/-- `rememberFailure`: the memo covers the aliases of the page. -/
def rememberFailure (s : DocumentStore) (url : String) (error : ReadError)
    (failure : FailureMemo) : DocumentStore :=
  if isTerminalFetchFailure error then
    let key := canonical url
    { s with
      memo := fun other =>
        if other = key ∨ (s.index key ≠ none ∧ s.index other = s.index key) then some failure
        else s.memo other }
  else s

/-- `lookup`: the record a URL resolves to. -/
def lookup (s : DocumentStore) (url : String) : Option DocumentRecord :=
  (s.index (canonical url)).bind fun r => s.records[r]?

def sourceOf (s : DocumentStore) (key : String) : Option String :=
  ((s.index key).bind fun r => s.records[r]?).map DocumentRecord.sourceId

end DocumentStore

/-- What happens to the store: a call, the settling of a call's load, the return of a call whose
awaited load has settled, an observation, or a failure told. -/
inductive StoreEvent where
  | readCalled (id : ℕ) (url : String)
  | loadSettles (id : ℕ) (outcome : LoadOutcome) (now : String)
  | loadThrows (id : ℕ)
  | readReturns (id : ℕ)
  | observed (url : String) (title : Option String) (tool now : String)
  | failureRemembered (url : String) (error : ReadError) (failure : FailureMemo)

/-- One event; one that names no call in the right place changes nothing. -/
def DocumentStore.step (canonical : String → String) (s : DocumentStore) :
    StoreEvent → DocumentStore
  | .readCalled id url => if (s.calls id).isSome then s else s.read canonical id url
  | .loadSettles id outcome now =>
    match s.calls id with
    | some c =>
      if c.awaits = id ∧ c.settled = none ∧ c.answer = none then
        s.runLoad canonical id c now outcome
      else s
    | none => s
  | .loadThrows id =>
    match s.calls id with
    | some c =>
      if c.awaits = id ∧ c.settled = none ∧ c.answer = none then s.settle id c .threw else s
    | none => s
  | .readReturns id =>
    match s.calls id with
    | some c =>
      if c.answer = none then
        match (s.calls c.awaits).bind ReadCall.settled with
        | some settled =>
          if c.awaits = id then s.loaderReturns id c settled else s.joinerReturns id c settled
        | none => s
      else s
    | none => s
  | .observed url title tool now => s.observe canonical url title tool now
  | .failureRemembered url error failure => s.rememberFailure canonical url error failure

def documentStore (pf : UrlPlatform) : Machine DocumentStore StoreEvent where
  init := {}
  step s e := s.step (canonicalUrl pf) e

/-! ## What the claims are about -/

/-- The records of a state: no two with one canonical URL, and IDs `S1` to `Sn` in mint order. -/
structure OneIdAPage (s : DocumentStore) : Prop where
  unique : (s.records.map DocumentRecord.canonicalUrl).Nodup
  dense : s.records.map DocumentRecord.sourceId =
    (List.range s.records.length).map fun n => "S" ++ toString (n + 1)

/-- The run binds each canonical URL once: a key that some state of the run binds to a source ID
is bound to the same one in every later state, and every state has one ID a page. -/
def BindsOnce (pf : UrlPlatform) (events : List StoreEvent) : Prop :=
  (∀ pre mid post, events = pre ++ mid ++ post → ∀ key id,
    ((documentStore pf).run pre).sourceOf key = some id →
      ((documentStore pf).run (pre ++ mid)).sourceOf key = some id) ∧
  ∀ pre post, events = pre ++ post → OneIdAPage ((documentStore pf).run pre)

/-- A load that succeeds for a key already bound lands on a URL bound to the same record. -/
def LandsOnBinding (canonical : String → String) (s : DocumentStore) (e : StoreEvent) : Prop :=
  ∀ id value loaded now c r, e = .loadSettles id (.ok value loaded) now → s.calls id = some c →
    c.awaits = id → c.settled = none → c.answer = none → s.index c.key = some r →
      (loaded.finalUrl.bind fun finalUrl => s.index (canonical finalUrl)) = some r

/-! ## What a step does to the bindings -/

def DocumentRecord.identity (r : DocumentRecord) : String × String := (r.sourceId, r.canonicalUrl)

def DocumentStore.identities (s : DocumentStore) : List (String × String) :=
  s.records.map DocumentRecord.identity

/-- What a step can do to the bindings. -/
inductive Rebinds (canonical : String → String) (s : DocumentStore) (e : StoreEvent)
    (s' : DocumentStore) : Prop
  /-- Nothing. -/
  | kept (hidentities : s'.identities = s.identities) (hindex : s'.index = s.index)
  /-- A load lands on a URL already bound. -/
  | landed (id : ℕ) (value : String) (loaded : LoadedMeta) (now : String) (c : ReadCall) (r : ℕ)
      (he : e = .loadSettles id (.ok value loaded) now) (hc : s.calls id = some c)
      (hawaits : c.awaits = id ∧ c.settled = none ∧ c.answer = none)
      (hlanded : (loaded.finalUrl.bind fun finalUrl => s.index (canonical finalUrl)) = some r)
      (hidentities : s'.identities = s.identities)
      (hindex : s'.index = Function.update s.index c.key (some r))
  /-- A load mints a record, and binds the URL it landed on as well. -/
  | loaded (id : ℕ) (value : String) (loaded : LoadedMeta) (now : String) (c : ReadCall)
      (he : e = .loadSettles id (.ok value loaded) now) (hc : s.calls id = some c)
      (hawaits : c.awaits = id ∧ c.settled = none ∧ c.answer = none)
      (hlanded : (loaded.finalUrl.bind fun finalUrl => s.index (canonical finalUrl)) = none)
      (hidentities : s'.identities =
        s.identities ++ [("S" ++ toString (s.records.length + 1), c.key)])
      (hindex : ∀ key, s'.index key =
        if key = c.key ∨ loaded.finalUrl.map canonical = some key then some s.records.length
        else s.index key)
  /-- An observation mints a record for an unbound URL. -/
  | observed (key : String) (hunbound : s.index key = none)
      (hidentities : s'.identities =
        s.identities ++ [("S" ++ toString (s.records.length + 1), key)])
      (hindex : s'.index = Function.update s.index key (some s.records.length))

variable {canonical : String → String} {s : DocumentStore}

open DocumentStore DocumentRecord

@[simp] lemma identities_bump (s : DocumentStore) (r : ℕ) :
    (s.bump r).identities = s.identities := by
  unfold identities bump
  refine ext_getElem? fun i => ?_
  rw [getElem?_map, getElem?_map, getElem?_modify]
  cases hi : s.records[i]? with
  | none => rfl
  | some record =>
    by_cases hr : r = i
    · simp [hr, identity]
    · simp [hr]

lemma identities_mint (s : DocumentStore) (key : String) (loaded : LoadedMeta) (now : String) :
    (s.mint key loaded now).identities =
      s.identities ++ [("S" ++ toString (s.records.length + 1), key)] := by
  simp [identities, mint, identity]

lemma rebinds_frame {e : StoreEvent} {s' : DocumentStore} (hrecords : s'.records = s.records)
    (hindex : s'.index = s.index) : Rebinds canonical s e s' :=
  .kept (by rw [identities, hrecords]; rfl) hindex

lemma rebinds_hit {e : StoreEvent} (t : DocumentStore) (hrecords : t.records = s.records)
    (hindex : t.index = s.index) (id : ℕ) (c : ReadCall) (r : ℕ) :
    Rebinds canonical s e (t.hit id c r) := by
  refine .kept ?_ hindex
  have hbump := identities_bump t r
  unfold identities at hbump ⊢
  rw [hrecords] at hbump
  exact hbump

lemma index_runLoad_landed (id : ℕ) (c : ReadCall) (now value : String) {loaded : LoadedMeta}
    {r : ℕ} (h : (loaded.finalUrl.bind fun finalUrl => s.index (canonical finalUrl)) = some r) :
    (s.runLoad canonical id c now (.ok value loaded)).identities = s.identities ∧
      (s.runLoad canonical id c now (.ok value loaded)).index =
        Function.update s.index c.key (some r) := by
  simp only [runLoad, h]
  exact ⟨rfl, rfl⟩

lemma index_runLoad_minted (id : ℕ) (c : ReadCall) (now value : String) {loaded : LoadedMeta}
    (h : (loaded.finalUrl.bind fun finalUrl => s.index (canonical finalUrl)) = none) :
    (s.runLoad canonical id c now (.ok value loaded)).identities =
        s.identities ++ [("S" ++ toString (s.records.length + 1), c.key)] ∧
      ∀ key, (s.runLoad canonical id c now (.ok value loaded)).index key =
        if key = c.key ∨ loaded.finalUrl.map canonical = some key then some s.records.length
        else s.index key := by
  have hids := identities_mint s c.key loaded now
  simp only [runLoad, h]
  refine ⟨?_, fun key => ?_⟩
  · split
    · split_ifs
      · exact hids
      · exact hids
    · exact hids
  · cases hfinal : loaded.finalUrl with
    | none =>
      simp only [DocumentStore.settle, mint, Function.update_apply,
        Option.map_none, reduceCtorEq, or_false]
    | some finalUrl =>
      simp only [Option.map_some, Option.some.injEq]
      by_cases hsame : canonical finalUrl = c.key
      · simp only [hsame, ne_eq, not_true_eq_false, if_false, DocumentStore.settle,
          mint, Function.update_apply, eq_comm (a := c.key), or_self]
      · simp only [ne_eq, hsame, not_false_eq_true, if_true, DocumentStore.settle,
          mint, Function.update_apply, eq_comm (a := canonical finalUrl)]
        by_cases hkey : key = canonical finalUrl
        · simp [hkey]
        · simp [hkey]

/-- What `runLoad` can do to the bindings. -/
lemma rebinds_runLoad {id : ℕ} {c : ReadCall} (hc : s.calls id = some c)
    (hawaits : c.awaits = id ∧ c.settled = none ∧ c.answer = none) (outcome : LoadOutcome)
    (now : String) :
    Rebinds canonical s (.loadSettles id outcome now) (s.runLoad canonical id c now outcome) := by
  cases outcome with
  | failed terminal memo => exact rebinds_frame rfl rfl
  | ok value loaded =>
    cases hlanded : loaded.finalUrl.bind fun finalUrl => s.index (canonical finalUrl) with
    | some r =>
      obtain ⟨hids, hindex⟩ := index_runLoad_landed id c now value hlanded
      exact .landed id value loaded now c r rfl hc hawaits hlanded hids hindex
    | none =>
      obtain ⟨hids, hindex⟩ := index_runLoad_minted id c now value hlanded
      exact .loaded id value loaded now c rfl hc hawaits hlanded hids hindex

/-- **What a step does to the bindings**: nothing, an alias for a page already bound, or one new
record. -/
theorem rebinds_step (s : DocumentStore) (e : StoreEvent) :
    Rebinds canonical s e (s.step canonical e) := by
  cases e with
  | readCalled id url =>
    unfold DocumentStore.step
    dsimp only
    split_ifs
    · exact rebinds_frame rfl rfl
    · unfold DocumentStore.read
      dsimp only
      split
      · exact rebinds_frame rfl rfl
      · split
        · exact rebinds_hit s rfl rfl _ _ _
        · split
          · exact rebinds_frame rfl rfl
          · exact rebinds_frame rfl rfl
  | loadSettles id outcome now =>
    unfold DocumentStore.step
    dsimp only
    split
    · rename_i c hc
      split_ifs with hawaits
      · exact rebinds_runLoad hc hawaits outcome now
      · exact rebinds_frame rfl rfl
    · exact rebinds_frame rfl rfl
  | loadThrows id =>
    unfold DocumentStore.step
    dsimp only
    split
    · split_ifs
      · exact rebinds_frame rfl rfl
      · exact rebinds_frame rfl rfl
    · exact rebinds_frame rfl rfl
  | readReturns id =>
    unfold DocumentStore.step
    dsimp only
    split
    · rename_i c hc
      by_cases hopen : c.answer = none
      · rw [if_pos hopen]
        split
        · rename_i settled hsettled
          by_cases hown : c.awaits = id
          · rw [if_pos hown]
            unfold DocumentStore.loaderReturns
            cases settled with
            | record r fresh value =>
              cases fresh with
              | true => exact rebinds_frame rfl rfl
              | false =>
                exact rebinds_hit (s := s)
                  { s with inFlight := Function.update s.inFlight c.key none } rfl rfl id c r
            | failed terminal memo => exact rebinds_frame rfl rfl
            | threw => exact rebinds_frame rfl rfl
          · rw [if_neg hown]
            cases settled with
            | record r fresh value => exact rebinds_hit s rfl rfl _ _ _
            | failed terminal memo => exact rebinds_frame rfl rfl
            | threw => exact rebinds_frame rfl rfl
        · exact rebinds_frame rfl rfl
      · rw [if_neg hopen]
        exact rebinds_frame rfl rfl
    · exact rebinds_frame rfl rfl
  | observed url title tool now =>
    unfold DocumentStore.step DocumentStore.observe
    dsimp only
    split
    · exact .kept (identities_bump s _) rfl
    · rename_i hunbound
      exact .observed _ hunbound (identities_mint _ _ _ _) rfl
  | failureRemembered url error failure =>
    unfold DocumentStore.step DocumentStore.rememberFailure
    dsimp only
    split_ifs
    · exact rebinds_frame rfl rfl
    · exact rebinds_frame rfl rfl

/-! ## Every run -/

/-- The `n`-th source ID minted. -/
def sourceLabel (n : ℕ) : String := "S" ++ toString (n + 1)

lemma sourceLabel_injective : Function.Injective sourceLabel := by
  intro m n h
  have hlist := congrArg String.toList h
  simp only [sourceLabel, String.toList_append, append_cancel_left_eq] at hlist
  exact Nat.succ.inj (JsText.toString_toList_inj hlist)

/-- What holds in every run, whatever its loads do. -/
structure DocumentInv (s : DocumentStore) : Prop where
  inRange : ∀ key r, s.index key = some r → r < s.identities.length
  dense : s.identities.map Prod.fst = (List.range s.identities.length).map sourceLabel

/-- What holds as long as loads land on the bindings there are: each record is bound by its own
canonical URL. -/
def OwnBound (s : DocumentStore) : Prop :=
  ∀ r id key, s.identities[r]? = some (id, key) → s.index key = some r

lemma length_identities (s : DocumentStore) : s.identities.length = s.records.length :=
  length_map _

lemma DocumentInv.sourceOf_eq (h : DocumentInv s) (key : String) :
    s.sourceOf key = (s.index key).map sourceLabel := by
  unfold sourceOf
  cases hindex : s.index key with
  | none => rfl
  | some r =>
    have hlt := h.inRange key r hindex
    have hfst : (s.identities.map Prod.fst)[r]? = some (sourceLabel r) := by
      rw [h.dense, getElem?_map, getElem?_range hlt]
      rfl
    rw [identities, map_map, getElem?_map] at hfst
    exact hfst

lemma DocumentInv.step (h : DocumentInv s) {e : StoreEvent} {s' : DocumentStore}
    (hstep : Rebinds canonical s e s') : DocumentInv s' := by
  have hgrow : ∀ key, s'.identities = s.identities ++ [(sourceLabel s.records.length, key)] →
      s'.identities.map Prod.fst = (range s'.identities.length).map sourceLabel := by
    intro key hids
    rw [hids, map_append, h.dense, length_append, length_singleton,
      range_succ, map_append, length_identities]
    rfl
  cases hstep with
  | kept hidentities hindex =>
    refine ⟨fun key r hr => ?_, by rw [hidentities]; exact h.dense⟩
    rw [hidentities]
    exact h.inRange key r (hindex ▸ hr)
  | landed id value loaded now c r he hc hawaits hlanded hidentities hindex =>
    refine ⟨fun key r' hr' => ?_, by rw [hidentities]; exact h.dense⟩
    rw [hidentities]
    rw [hindex, Function.update_apply] at hr'
    split_ifs at hr'
    · obtain ⟨finalUrl, -, hfinal⟩ := Option.bind_eq_some_iff.1 hlanded
      obtain rfl := Option.some.inj hr'
      exact h.inRange _ _ hfinal
    · exact h.inRange key r' hr'
  | loaded id value loaded now c he hc hawaits hlanded hidentities hindex =>
    refine ⟨fun key r hr => ?_, hgrow _ hidentities⟩
    rw [hidentities, length_append, length_singleton]
    rw [hindex] at hr
    split_ifs at hr
    · obtain rfl := Option.some.inj hr
      rw [length_identities]
      exact Nat.lt_succ_self _
    · exact Nat.lt_succ_of_lt (h.inRange key r hr)
  | observed key hunbound hidentities hindex =>
    refine ⟨fun key' r hr => ?_, hgrow _ hidentities⟩
    rw [hidentities, length_append, length_singleton]
    rw [hindex, Function.update_apply] at hr
    split_ifs at hr
    · obtain rfl := Option.some.inj hr
      rw [length_identities]
      exact Nat.lt_succ_self _
    · exact Nat.lt_succ_of_lt (h.inRange key' r hr)

lemma index_kept {e : StoreEvent} {s' : DocumentStore} (hlands : LandsOnBinding canonical s e)
    (hstep : Rebinds canonical s e s') {key : String} {r : ℕ} (hr : s.index key = some r) :
    s'.index key = some r := by
  cases hstep with
  | kept hidentities hindex => rw [hindex, hr]
  | landed id value loaded now c landed he hc hawaits hlanded hidentities hindex =>
    rw [hindex, Function.update_apply]
    split_ifs with hkey
    · subst hkey
      rw [← hlanded]
      exact hlands id value loaded now c r he hc hawaits.1 hawaits.2.1 hawaits.2.2 hr
    · exact hr
  | loaded id value loaded now c he hc hawaits hlanded hidentities hindex =>
    rw [hindex]
    split_ifs with hkey
    · rcases hkey with rfl | hfinal
      · have hbound := hlands id value loaded now c r he hc hawaits.1 hawaits.2.1 hawaits.2.2 hr
        rw [hlanded] at hbound
        cases hbound
      · obtain ⟨finalUrl, hurl, rfl⟩ := Option.map_eq_some_iff.1 hfinal
        rw [hurl, Option.bind_some, hr] at hlanded
        cases hlanded
    · exact hr
  | observed key' hunbound hidentities hindex =>
    rw [hindex, Function.update_apply]
    split_ifs with hkey
    · rw [hkey, hunbound] at hr
      cases hr
    · exact hr

lemma landsOnBinding_of_index_kept (hinv : DocumentInv s) {e : StoreEvent}
    (hkept : ∀ key r, s.index key = some r → (s.step canonical e).index key = some r) :
    LandsOnBinding canonical s e := by
  rintro id value loaded now c r rfl hc hawaits hsettled hanswer hr
  have hafter := hkept c.key r hr
  have hstep : s.step canonical (.loadSettles id (.ok value loaded) now) =
      s.runLoad canonical id c now (.ok value loaded) := by
    simp only [step, hc, hawaits, hsettled, hanswer, and_self, if_true]
  rw [hstep] at hafter
  cases hlanded : loaded.finalUrl.bind fun finalUrl => s.index (canonical finalUrl) with
  | some landed =>
    rw [(index_runLoad_landed id c now value hlanded).2, Function.update_self] at hafter
    exact hafter
  | none =>
    rw [(index_runLoad_minted id c now value hlanded).2, if_pos (.inl rfl)] at hafter
    have hlt := hinv.inRange c.key r hr
    rw [length_identities, ← Option.some.inj hafter] at hlt
    exact absurd hlt (Nat.lt_irrefl _)

lemma OwnBound.step (h : OwnBound s) {e : StoreEvent} {s' : DocumentStore}
    (hlands : LandsOnBinding canonical s e) (hstep : Rebinds canonical s e s') : OwnBound s' := by
  have hgrow : ∀ own, s'.identities = s.identities ++ [(sourceLabel s.records.length, own)] →
      s'.index own = some s.records.length → OwnBound s' := by
    intro own hids hown r id key hr
    rw [hids] at hr
    rcases Nat.lt_or_ge r s.identities.length with hlt | hge
    · rw [getElem?_append_left hlt] at hr
      exact index_kept hlands hstep (h r id key hr)
    · rw [getElem?_append_right hge, getElem?_singleton] at hr
      split_ifs at hr with hzero
      obtain ⟨-, rfl⟩ := Prod.mk.inj (Option.some.inj hr)
      rw [hown, ← length_identities]
      exact congrArg some (by omega)
  cases hstep with
  | kept hidentities hindex =>
    intro r id key hr
    rw [hidentities] at hr
    rw [hindex]
    exact h r id key hr
  | landed id value loaded now c landed he hc hawaits hlanded hidentities hindex =>
    intro r id' key hr
    rw [hidentities] at hr
    exact index_kept hlands
      (.landed id value loaded now c landed he hc hawaits hlanded hidentities hindex)
      (h r id' key hr)
  | loaded id value loaded now c he hc hawaits hlanded hidentities hindex =>
    exact hgrow c.key hidentities (by rw [hindex, if_pos (.inl rfl)])
  | observed key hunbound hidentities hindex =>
    exact hgrow key hidentities (by rw [hindex, Function.update_self])

lemma OwnBound.unique (h : OwnBound s) :
    (s.records.map DocumentRecord.canonicalUrl).Nodup := by
  rw [nodup_iff_getElem?_ne_getElem?]
  intro i j hij hj heq
  have hsnd : s.records.map DocumentRecord.canonicalUrl = s.identities.map Prod.snd := by
    rw [identities, map_map]
    rfl
  rw [hsnd, length_map] at hj
  rw [hsnd, getElem?_map, getElem?_map] at heq
  obtain ⟨⟨idj, key⟩, hkeyj⟩ : ∃ p, s.identities[j]? = some p := ⟨_, getElem?_eq_getElem hj⟩
  obtain ⟨⟨idi, keyi⟩, hkeyi⟩ : ∃ p, s.identities[i]? = some p :=
    ⟨_, getElem?_eq_getElem (Nat.lt_trans hij hj)⟩
  rw [hkeyi, hkeyj] at heq
  obtain rfl : keyi = key := Option.some.inj heq
  have hi := h i idi keyi hkeyi
  rw [h j idj keyi hkeyj] at hi
  exact absurd (Option.some.inj hi) (by omega)

/-- The source IDs of a reachable state are `S1` to `Sn`, in mint order. -/
lemma DocumentInv.sourceIds (h : DocumentInv s) : s.records.map sourceId =
    (range s.records.length).map fun n => "S" ++ toString (n + 1) := by
  have hfst : s.records.map sourceId = s.identities.map Prod.fst := by
    rw [identities, map_map]
    rfl
  rw [hfst, h.dense, length_identities]
  rfl

section Runs

variable (pf : UrlPlatform)

lemma documentInv_run (events : List StoreEvent) : DocumentInv ((documentStore pf).run events) := by
  have hstep (s : DocumentStore) (e : StoreEvent) (h : DocumentInv s) :
      DocumentInv ((documentStore pf).step s e) :=
    h.step (rebinds_step s e)
  have hinit : DocumentInv (documentStore pf).init := ⟨fun _ _ hr => (nomatch hr), rfl⟩
  exact Machine.invariant_runFrom' hstep hinit events

lemma ownBound_run {events : List StoreEvent}
    (h : (documentStore pf).Along (LandsOnBinding (canonicalUrl pf)) {} events) :
    OwnBound ((documentStore pf).run events) :=
  Machine.invariant_runFrom (M := documentStore pf)
    (fun s e hown hlands => hown.step hlands (rebinds_step s e))
    (fun r id key hr => by simp [documentStore, identities] at hr) h

lemma index_kept_runFrom {events : List StoreEvent} {s : DocumentStore} {key : String} {r : ℕ}
    (h : (documentStore pf).Along (LandsOnBinding (canonicalUrl pf)) s events)
    (hr : s.index key = some r) :
    ((documentStore pf).runFrom s events).index key = some r :=
  Machine.invariant_runFrom (M := documentStore pf)
    (fun s e hr hlands => index_kept hlands (rebinds_step s e) hr) hr h

/-- **Bindings hold exactly as long as loads land on them.** A run binds every canonical URL once,
with one record and one dense ID a page, exactly when each load that succeeds for a key bound in
the meantime lands on a URL bound to the same record.

**Proof sketch.** From right to left bindings and the records' own URLs are kept step by step. From
left to right a load that lands elsewhere rebinds its key at once, to another place in the list of
records and so to another ID. -/
theorem bindsOnce_iff (events : List StoreEvent) :
    BindsOnce pf events ↔
      (documentStore pf).Along (LandsOnBinding (canonicalUrl pf)) {} events := by
  constructor
  · rintro ⟨hkept, -⟩
    rw [Machine.along_iff_forall_split]
    rintro pre e post rfl
    have hinv := documentInv_run pf pre
    have hinv' := documentInv_run pf (pre ++ [e])
    refine landsOnBinding_of_index_kept hinv fun key r hr => ?_
    have hsource := hkept pre [e] post (by simp) key (sourceLabel r)
      (by rw [hinv.sourceOf_eq, hr]; rfl)
    rw [hinv'.sourceOf_eq, Option.map_eq_some_iff] at hsource
    obtain ⟨r', hr', hlabel⟩ := hsource
    rw [sourceLabel_injective hlabel] at hr'
    rw [Machine.run, Machine.runFrom_concat] at hr'
    exact hr'
  · intro h
    refine ⟨?_, ?_⟩
    · rintro pre mid post rfl key id hid
      rw [Machine.along_append, Machine.along_append] at h
      have hinv := documentInv_run pf pre
      rw [hinv.sourceOf_eq, Option.map_eq_some_iff] at hid
      obtain ⟨r, hr, rfl⟩ := hid
      have hkept := index_kept_runFrom pf h.1.2 hr
      rw [(documentInv_run pf (pre ++ mid)).sourceOf_eq, Machine.run, Machine.runFrom_append]
      exact congrArg (Option.map sourceLabel) hkept
    · rintro pre post rfl
      rw [Machine.along_append] at h
      exact ⟨(ownBound_run pf h.1).unique, (documentInv_run pf pre).sourceIds⟩

end Runs

/-- A platform whose URLs are all texts that do not parse. -/
def plainTexts : UrlPlatform where
  toLowerCase := JsText.asciiLower
  newUrl _ := none
  setPathname _ pathname := pathname
  queryText _ := ""

/-- A page is observed in the browser while its own load is in flight: it is minted twice, and its
URL moves from the first ID to the second. -/
theorem observed_page_minted_twice :
    ¬ BindsOnce plainTexts
      [.readCalled 0 "a.example", .observed "a.example" none "browser_extract" "t0",
        .loadSettles 0 (.ok "text" ⟨"a.example", none, none, .http, "web_fetch"⟩) "t1"] := by
  rintro ⟨hkept, -⟩
  have hmoved := hkept
    [.readCalled 0 "a.example", .observed "a.example" none "browser_extract" "t0"]
    [.loadSettles 0 (.ok "text" ⟨"a.example", none, none, .http, "web_fetch"⟩) "t1"] [] rfl
    "a.example" "S1" (by decide +kernel)
  revert hmoved
  decide +kernel

end Yantra
