import Yantra.Lib.Filling
import Yantra.Lib.Machine
import Yantra.Lib.OrderedMap
import Yantra.Lib.Places
import Mathlib.Data.Rat.Floor

/-!
# The rate limiter

A token bucket for every host. A call takes a token, or sleeps and looks again; calls that wait for
one host look independently. What a token left behind is saved before its call returns, and a
limiter that is started again resumes from there.

## Main definitions

* `LimiterState`, `LimiterAction`, `rateLimiter` — the limiter, its clock and
  its store, and what can happen.
* `LimiterState.granted` — the grants for a host in a window.

## Main results

* `grants_le_of_budget` — the grants in a window are bounded by a burst and what flows in.
-/

namespace Yantra

open List Option Bool Nat

/-! ## Buckets -/

/-- A budget. -/
structure HostRateLimit where
  tokensPerSecond : ℚ
  burst : ℚ
  rate_pos : 0 < tokensPerSecond
  one_le_burst : 1 ≤ burst
  deriving DecidableEq, Repr

/-- What is saved of a bucket, `none` where the date cannot be read. -/
structure RateLimitState where
  tokens : ℚ
  windowStartedAt : Option ℕ
  deriving DecidableEq, Repr

/-- The bucket of a host. Instants are whole milliseconds. -/
structure TokenBucket where
  budget : HostRateLimit
  tokens : ℚ
  lastRefill : ℕ
  deriving DecidableEq, Repr

def seconds (ms : ℕ) : ℚ := (ms : ℚ) / 1000

/-- `restore`: what a saved row is read as. -/
def restore (row : Option RateLimitState) : Option (ℚ × ℕ) :=
  row.bind fun r => r.windowStartedAt.map fun lastRefill => (r.tokens, lastRefill)

/-- A new bucket: saved tokens are clamped to the budget in force. -/
def TokenBucket.new (budget : HostRateLimit) (now : ℕ) : Option (ℚ × ℕ) → TokenBucket
  | some (tokens, lastRefill) =>
      { budget := budget, tokens := min budget.burst (max 0 tokens), lastRefill := lastRefill }
  | none => { budget := budget, tokens := budget.burst, lastRefill := now }

def TokenBucket.refill (bucket : TokenBucket) (now : ℕ) : TokenBucket :=
  let elapsed := seconds now - seconds bucket.lastRefill
  { bucket with
      tokens := min bucket.budget.burst
        (bucket.tokens + elapsed * bucket.budget.tokensPerSecond)
      lastRefill := now }

/-- How long a call sleeps. -/
def TokenBucket.waitMs (bucket : TokenBucket) : ℤ :=
  ⌈1 / bucket.budget.tokensPerSecond * 1000⌉

def TokenBucket.look (bucket : TokenBucket) (now : ℕ) : TokenBucket × Bool :=
  let refilled := bucket.refill now
  if 1 ≤ refilled.tokens then ({ refilled with tokens := refilled.tokens - 1 }, true)
  else (refilled, false)

/-- `snapshot`, as it is saved. -/
def TokenBucket.snapshot (bucket : TokenBucket) : RateLimitState :=
  ⟨bucket.tokens, some bucket.lastRefill⟩

/-! ## The limiter -/

structure RateLimits where
  defaultBudget : HostRateLimit
  overrides : OrderedMap String HostRateLimit

def RateLimits.budgetFor (limits : RateLimits) (host : String) : HostRateLimit :=
  (limits.overrides.get? host).getD limits.defaultBudget

/-- How far a call is. -/
inductive AcquirePhase where
  /-- It sleeps. When the timer fires is up to the environment. -/
  | sleeping (waitMs : ℤ)
  /-- It has taken a token at an instant, and is yet to save the bucket and return. -/
  | taken (takenAt : ℕ)
  deriving DecidableEq, Repr

/-- A call of `acquire` that has not returned. -/
structure AcquireCall where
  host : String
  startWait : ℕ
  phase : AcquirePhase
  deriving DecidableEq, Repr

/-- A call that has returned, with the instant at which its token was taken. -/
structure Grant where
  host : String
  takenAt : ℕ
  wait : ℕ
  deriving DecidableEq, Repr

structure LimiterState where
  now : ℕ
  limits : RateLimits
  buckets : OrderedMap String TokenBucket := OrderedMap.empty
  /-- The store. -/
  rows : OrderedMap String RateLimitState := OrderedMap.empty
  calls : List AcquireCall := []
  /-- History: every call that has returned, of this limiter and of those before it. -/
  grants : List Grant := []

/-- What can happen. Calls are named by their place. -/
inductive LimiterAction where
  | advance (ms : ℕ)
  /-- `acquire` is called. -/
  | acquire (host : String)
  /-- A call that sleeps looks again. -/
  | wake (k : ℕ)
  /-- A call that has taken a token saves the bucket and returns. -/
  | settle (k : ℕ)
  /-- The process ends, whatever calls it leaves behind, and a new limiter starts on the store. -/
  | restart (limits : RateLimits)

def LimiterState.bucketFor (s : LimiterState) (host : String) : TokenBucket :=
  (s.buckets.get? host).getD
    (TokenBucket.new (s.limits.budgetFor host) s.now (restore (s.rows.get? host)))

def phaseAfter (bucket : TokenBucket) (now : ℕ) : AcquirePhase :=
  if (bucket.look now).2 then .taken now else .sleeping bucket.waitMs

def LimiterState.looked (s : LimiterState) (host : String) (calls : List AcquireCall) :
    LimiterState :=
  { s with
      buckets := s.buckets.set host ((s.bucketFor host).look s.now).1
      calls := calls }

def limiterStep (s : LimiterState) : LimiterAction → LimiterState
  | .advance ms => { s with now := s.now + ms }
  | .acquire host =>
      s.looked host (s.calls ++ [⟨host, s.now, phaseAfter (s.bucketFor host) s.now⟩])
  | .wake k =>
    match s.calls[k]? with
    | some ⟨host, startWait, .sleeping _⟩ =>
        s.looked host
          (s.calls.set k ⟨host, startWait, phaseAfter (s.bucketFor host) s.now⟩)
    | _ => s
  | .settle k =>
    match s.calls[k]? with
    | some ⟨host, startWait, .taken takenAt⟩ =>
      { s with
          rows := s.rows.set host (s.bucketFor host).snapshot
          calls := s.calls.eraseIdx k
          grants := s.grants ++ [⟨host, takenAt, takenAt - startWait⟩] }
    | _ => s
  | .restart limits => { s with limits := limits, buckets := OrderedMap.empty, calls := [] }

/-- A limiter over a store. -/
def rateLimiter (now : ℕ) (limits : RateLimits) (rows : OrderedMap String RateLimitState) :
    Machine LimiterState LimiterAction where
  init := { now := now, limits := limits, rows := rows }
  step := limiterStep

/-! ## Windows -/

def inWindow (start length instant : ℕ) : Bool :=
  decide (start ≤ instant) && decide (instant ≤ start + length)

def Grant.counts (host : String) (start length : ℕ) (g : Grant) : Bool :=
  decide (g.host = host) && inWindow start length g.takenAt

def AcquireCall.counts (host : String) (start length : ℕ) (c : AcquireCall) : Bool :=
  decide (c.host = host) &&
    match c.phase with
    | .taken takenAt => inWindow start length takenAt
    | .sleeping _ => false

def LimiterState.granted (s : LimiterState) (host : String) (start length : ℕ) : ℕ :=
  s.grants.countP (Grant.counts host start length)

/-- The calls for a host that took a token in a window and are yet to return. -/
def LimiterState.unreturned (s : LimiterState) (host : String) (start length : ℕ) : ℕ :=
  s.calls.countP (AcquireCall.counts host start length)

/-- The tokens taken for a host in a window, and not left behind. -/
def LimiterState.taken (s : LimiterState) (host : String) (start length : ℕ) : ℕ :=
  s.granted host start length + s.unreturned host start length

def HostRateLimit.Within (budget : HostRateLimit) (rate burst : ℚ) : Prop :=
  budget.tokensPerSecond ≤ rate ∧ budget.burst ≤ burst

instance (budget : HostRateLimit) (rate burst : ℚ) : Decidable (budget.Within rate burst) := by
  unfold HostRateLimit.Within
  infer_instance

/-! ## Buckets are bounded -/

/-- A bucket holds between nothing and its burst, and was last refilled in the past. -/
structure TokenBucket.Bounded (bucket : TokenBucket) (now : ℕ) : Prop where
  nonneg : 0 ≤ bucket.tokens
  le_burst : bucket.tokens ≤ bucket.budget.burst
  lastRefill_le : bucket.lastRefill ≤ now

/-- What a row is read as is not of the future. -/
def RateLimitState.Past (row : RateLimitState) (now : ℕ) : Prop :=
  ∀ lastRefill, row.windowStartedAt = some lastRefill → lastRefill ≤ now

lemma seconds_mono {a b : ℕ} (h : a ≤ b) : seconds a ≤ seconds b := by
  have hcast : (a : ℚ) ≤ b := cast_le.2 h
  unfold seconds
  linarith

lemma seconds_add (a b : ℕ) : seconds (a + b) = seconds a + seconds b := by
  unfold seconds
  push_cast
  ring

lemma seconds_nonneg (a : ℕ) : 0 ≤ seconds a := by
  have hcast : (0 : ℚ) ≤ a := cast_nonneg a
  unfold seconds
  linarith

variable {now : ℕ}

open TokenBucket

lemma TokenBucket.bounded_new (budget : HostRateLimit) {row : Option RateLimitState}
    (hrow : ∀ r ∈ row, r.Past now) : (new budget now (restore row)).Bounded now := by
  have hburst : 0 ≤ budget.burst := zero_le_one.trans budget.one_le_burst
  cases hrestore : restore row with
  | none => exact ⟨hburst, le_rfl, le_rfl⟩
  | some saved =>
    obtain ⟨tokens, lastRefill⟩ := saved
    refine ⟨le_min hburst (le_max_left _ _), min_le_left _ _, ?_⟩
    obtain ⟨r, hr, hread⟩ := bind_eq_some_iff.1 hrestore
    obtain ⟨date, hdate, heq⟩ := map_eq_some_iff.1 hread
    obtain ⟨-, rfl⟩ := Prod.mk.inj heq
    exact hrow r hr date hdate

variable {bucket : TokenBucket}

lemma TokenBucket.Bounded.refill (h : bucket.Bounded now) :
    (bucket.refill now).Bounded now := by
  have hflow : 0 ≤ (seconds now - seconds bucket.lastRefill) * bucket.budget.tokensPerSecond :=
    mul_nonneg (sub_nonneg.2 (seconds_mono h.lastRefill_le)) bucket.budget.rate_pos.le
  exact ⟨le_min (zero_le_one.trans bucket.budget.one_le_burst) (add_nonneg h.nonneg hflow),
    min_le_left _ _, le_rfl⟩

lemma TokenBucket.look_of_one_le (h : 1 ≤ (bucket.refill now).tokens) :
    bucket.look now =
      ({ bucket.refill now with tokens := (bucket.refill now).tokens - 1 }, true) :=
  if_pos h

lemma TokenBucket.look_of_lt_one (h : ¬ 1 ≤ (bucket.refill now).tokens) :
    bucket.look now = (bucket.refill now, false) :=
  if_neg h

lemma TokenBucket.Bounded.look (h : bucket.Bounded now) :
    (bucket.look now).1.Bounded now ∧ (bucket.look now).1.budget = bucket.budget := by
  have hrefilled := h.refill
  by_cases htoken : 1 ≤ (bucket.refill now).tokens
  · rw [look_of_one_le htoken]
    exact ⟨⟨sub_nonneg.2 htoken, (sub_le_self _ zero_le_one).trans hrefilled.le_burst,
      hrefilled.lastRefill_le⟩, rfl⟩
  · rw [look_of_lt_one htoken]
    exact ⟨hrefilled, rfl⟩

/-- The buckets are bounded, and nothing is of the future. -/
structure BucketInv (s : LimiterState) : Prop where
  bounded : ∀ host bucket, s.buckets.get? host = some bucket → bucket.Bounded s.now
  budget : ∀ host bucket, s.buckets.get? host = some bucket →
    bucket.budget = s.limits.budgetFor host
  rows : ∀ host row, s.rows.get? host = some row → row.Past s.now
  calls : ∀ c ∈ s.calls, s.buckets.has c.host ∧
    ∀ takenAt, c.phase = .taken takenAt → takenAt ≤ s.now
  grants : ∀ g ∈ s.grants, g.takenAt ≤ s.now ∧
    ∃ row, s.rows.get? g.host = some row ∧ row.windowStartedAt.isSome

variable {s : LimiterState}

lemma BucketInv.bucketFor (h : BucketInv s) (host : String) :
    (s.bucketFor host).Bounded s.now ∧ (s.bucketFor host).budget = s.limits.budgetFor host := by
  unfold LimiterState.bucketFor
  cases hget : s.buckets.get? host with
  | some bucket => exact ⟨h.bounded host bucket hget, h.budget host bucket hget⟩
  | none =>
    refine ⟨bounded_new _ fun r hr => h.rows host r hr, ?_⟩
    cases hrestore : restore (s.rows.get? host) <;> rfl

lemma takenAt_le_of_phaseAfter {now takenAt : ℕ} (h : phaseAfter bucket now = .taken takenAt) :
    takenAt ≤ now := by
  unfold phaseAfter at h
  split_ifs at h
  cases h
  exact le_rfl

variable {calls : List AcquireCall}

lemma BucketInv.looked (h : BucketInv s) (host : String)
    (hcalls : ∀ c ∈ calls, c ∈ s.calls ∨
      c.host = host ∧ c.phase = phaseAfter (s.bucketFor host) s.now) :
    BucketInv (s.looked host calls) where
  bounded := OrderedMap.forall_get?_set (h.bucketFor host).1.look.1 h.bounded
  budget := OrderedMap.forall_get?_set
    ((h.bucketFor host).1.look.2.trans (h.bucketFor host).2) h.budget
  rows := h.rows
  calls c hc := by
    rcases hcalls c hc with hold | ⟨rfl, hphase⟩
    · exact ⟨OrderedMap.has_set_of_has _ (h.calls c hold).1, (h.calls c hold).2⟩
    · refine ⟨?_, fun takenAt htaken => takenAt_le_of_phaseAfter (hphase.symm.trans htaken)⟩
      simp [LimiterState.looked, OrderedMap.has]
  grants := h.grants

open OrderedMap

lemma BucketInv.step (h : BucketInv s) (a : LimiterAction) :
    BucketInv (limiterStep s a) := by
  cases a with
  | advance ms =>
    have hlater : s.now ≤ s.now + ms := Nat.le_add_right _ _
    refine ⟨fun host bucket hget => ?_, h.budget, fun host row hrow date hdate => ?_,
      fun c hc => ⟨(h.calls c hc).1, fun t ht => ((h.calls c hc).2 t ht).trans hlater⟩,
      fun g hg => ⟨(h.grants g hg).1.trans hlater, (h.grants g hg).2⟩⟩
    · obtain ⟨hnonneg, hburst, hrefill⟩ := h.bounded host bucket hget
      exact ⟨hnonneg, hburst, hrefill.trans hlater⟩
    · exact (h.rows host row hrow date hdate).trans hlater
  | acquire host =>
    refine h.looked host fun c hc => ?_
    rcases mem_append.1 hc with hold | hnew
    · exact Or.inl hold
    · obtain rfl := mem_singleton.1 hnew
      exact Or.inr ⟨rfl, rfl⟩
  | wake k =>
    simp only [limiterStep]
    split
    · refine h.looked _ fun c hc => ?_
      rcases mem_or_eq_of_mem_set hc with hold | rfl
      · exact Or.inl hold
      · exact Or.inr ⟨rfl, rfl⟩
    · exact h
  | settle k =>
    simp only [limiterStep]
    split
    · rename_i host startWait takenAt hk
      have hcall := h.calls _ (mem_of_getElem? hk)
      have hbucket := (h.bucketFor host).1
      refine ⟨h.bounded, h.budget, ?_, fun c hc => h.calls c (mem_of_mem_eraseIdx hc), ?_⟩
      · refine forall_get?_set (fun date hdate => ?_) h.rows
        obtain rfl := some.inj hdate
        exact hbucket.lastRefill_le
      · intro g hg
        rcases mem_append.1 hg with hold | hnew
        · obtain ⟨hnow, row, hrow, hdate⟩ := h.grants g hold
          refine ⟨hnow, ?_⟩
          by_cases hhost : host = g.host
          · exact ⟨_, by rw [hhost, get?_set_self], rfl⟩
          · exact ⟨row, by rw [get?_set_of_ne _ _ hhost, hrow], hdate⟩
        · obtain rfl := mem_singleton.1 hnew
          exact ⟨hcall.2 takenAt rfl, _, get?_set_self _ _ _, rfl⟩
    · exact h
  | restart limits =>
    exact ⟨fun host bucket hget => by simp [limiterStep] at hget,
      fun host bucket hget => by simp [limiterStep] at hget, h.rows,
      fun c hc => by simp [limiterStep] at hc, h.grants⟩

lemma bucketInv_run (now : ℕ) (limits : RateLimits) {rows : OrderedMap String RateLimitState}
    (hrows : ∀ host row, rows.get? host = some row → row.Past now) (acts : List LimiterAction) :
    BucketInv ((rateLimiter now limits rows).run acts) :=
  Machine.invariant_runFrom' (M := rateLimiter now limits rows) (fun _ a hs => hs.step a)
    ⟨by simp [rateLimiter], by simp [rateLimiter], hrows, by simp [rateLimiter],
      by simp [rateLimiter]⟩ acts

/-! ## What was taken, and what is left -/

def TokenBucket.vessel (bucket : TokenBucket) : Filling.Vessel ℚ :=
  ⟨bucket.tokens, seconds bucket.lastRefill⟩

lemma TokenBucket.refill_tokens (bucket : TokenBucket) (now : ℕ) :
    (bucket.refill now).tokens = Filling.level bucket.budget.tokensPerSecond bucket.budget.burst
      bucket.vessel (seconds now) := by
  simp only [refill, Filling.level, vessel, mul_comm]

open LimiterState Grant

section Window

variable (rate burst : ℚ) (host : String)

/-- What is left for a host in a row, at most: a burst where there is none to read. -/
def rowLevel (row : Option RateLimitState) (now : ℕ) : ℚ :=
  match restore row with
  | some (tokens, lastRefill) =>
      Filling.level rate burst ⟨max 0 tokens, seconds lastRefill⟩ (seconds now)
  | none => burst

/-- What is left for a host, at most. -/
def LimiterState.level (s : LimiterState) : ℚ :=
  match s.buckets.get? host with
  | some bucket => Filling.level rate burst bucket.vessel (seconds s.now)
  | none => rowLevel rate burst (s.rows.get? host) s.now

/-- **The conservation of tokens.** Within a window, what was granted with what the store keeps, and
what was taken with what is left, are bounded by a burst and the inflow so far; after it, what was
taken is. -/
structure WindowInv (start length : ℕ) (s : LimiterState) : Prop where
  stored : start ≤ s.now → s.now ≤ start + length →
    s.granted host start length + rowLevel rate burst (s.rows.get? host) s.now ≤
      burst + rate * (seconds s.now - seconds start)
  left : start ≤ s.now → s.now ≤ start + length →
    s.taken host start length + s.level rate burst host ≤
      burst + rate * (seconds s.now - seconds start)
  after : start + length < s.now →
    (s.taken host start length : ℚ) ≤ burst + rate * seconds length

lemma rowLevel_le_burst (row : Option RateLimitState) (now : ℕ) :
    rowLevel rate burst row now ≤ burst := by
  unfold rowLevel
  split
  · exact Filling.level_le_ceiling _ _ _ _
  · exact le_rfl

lemma level_le_burst (s : LimiterState) : s.level rate burst host ≤ burst := by
  unfold level
  split
  · exact Filling.level_le_ceiling _ _ _ _
  · exact rowLevel_le_burst rate burst _ _

variable {rate burst host} (hrate : 0 ≤ rate)

include hrate

lemma rowLevel_add_le (row : Option RateLimitState) (now ms : ℕ) :
    rowLevel rate burst row (now + ms) ≤ rowLevel rate burst row now + rate * seconds ms := by
  unfold rowLevel
  split
  · rw [seconds_add]
    exact Filling.level_add_le hrate _ _ _ (seconds_nonneg ms)
  · exact le_add_of_nonneg_right (mul_nonneg hrate (seconds_nonneg ms))

lemma level_advance_le (s : LimiterState) (ms : ℕ) :
    (limiterStep s (.advance ms)).level rate burst host ≤
      s.level rate burst host + rate * seconds ms := by
  unfold level
  simp only [limiterStep]
  cases s.buckets.get? host with
  | some bucket =>
    simp only [seconds_add]
    exact Filling.level_add_le hrate _ _ _ (seconds_nonneg ms)
  | none => exact rowLevel_add_le hrate _ _ _

omit hrate

lemma level_new_le (budget : HostRateLimit) (now : ℕ) (row : Option RateLimitState) :
    Filling.level rate burst (new budget now (restore row)).vessel (seconds now) ≤
      rowLevel rate burst row now := by
  unfold rowLevel
  split
  · rename_i tokens lastRefill hrestore
    rw [hrestore]
    exact Filling.level_mono (min_le_right _ _)
  · rename_i hrestore
    rw [hrestore]
    exact Filling.level_le_ceiling _ _ _ _

lemma level_bucketFor_le (s : LimiterState) :
    Filling.level rate burst (s.bucketFor host).vessel (seconds s.now) ≤
      s.level rate burst host := by
  unfold bucketFor level
  cases s.buckets.get? host with
  | some bucket => exact le_rfl
  | none => exact level_new_le _ _ _

/-- **One look.** What a look leaves, with the token it takes, is no more than there was. -/
lemma level_look_le (hwithin : bucket.budget.Within rate burst) (hbounded : bucket.Bounded now) :
    Filling.level rate burst (bucket.look now).1.vessel (seconds now) +
        (if (bucket.look now).2 then 1 else 0) ≤
      Filling.level rate burst bucket.vessel (seconds now) := by
  have hsettled : Filling.level rate burst (bucket.refill now).vessel (seconds now) ≤
      Filling.level rate burst bucket.vessel (seconds now) := by
    have hvessel : (bucket.refill now).vessel = ⟨Filling.level bucket.budget.tokensPerSecond
        bucket.budget.burst bucket.vessel (seconds now), seconds now⟩ := by
      rw [vessel, refill_tokens]
      rfl
    rw [hvessel]
    exact Filling.level_settled_le hwithin.1 hwithin.2 (seconds_mono hbounded.lastRefill_le)
  by_cases htoken : 1 ≤ (bucket.refill now).tokens
  · rw [look_of_one_le htoken, if_pos rfl]
    have hburst : (bucket.refill now).tokens ≤ burst :=
      hbounded.refill.le_burst.trans hwithin.2
    exact (Filling.level_taken hburst zero_le_one (seconds now)).le.trans hsettled
  · rw [look_of_lt_one htoken]
    simpa using hsettled

lemma BucketInv.level_nonneg (h : BucketInv s) (hrate : 0 ≤ rate) (hburst : 0 ≤ burst) :
    0 ≤ s.level rate burst host := by
  unfold level rowLevel
  cases hbucket : s.buckets.get? host with
  | some bucket =>
    have hbounded := h.bounded host bucket hbucket
    exact Filling.level_nonneg hrate hburst hbounded.nonneg (seconds_mono hbounded.lastRefill_le)
  | none =>
    simp only
    split
    · rename_i tokens lastRefill hrestore
      obtain ⟨row, hrow, hread⟩ := bind_eq_some_iff.1 hrestore
      obtain ⟨date, hdate, heq⟩ := map_eq_some_iff.1 hread
      obtain ⟨-, rfl⟩ := Prod.mk.inj heq
      exact Filling.level_nonneg hrate hburst (le_max_left _ _)
        (seconds_mono (h.rows host row hrow date hdate))
    · exact hburst

variable {start length : ℕ}

lemma BucketInv.taken_eq_zero (h : BucketInv s) (hearly : s.now < start) :
    s.taken host start length = 0 := by
  have hnot : ∀ takenAt, takenAt ≤ s.now → inWindow start length takenAt = false := by
    intro takenAt htaken
    simp only [inWindow, and_eq_false_imp, decide_eq_true_eq, decide_eq_false_iff_not]
    omega
  have hgrants : s.granted host start length = 0 := by
    refine countP_eq_zero.2 fun g hg => ?_
    simp [counts, hnot _ (h.grants g hg).1]
  have hcalls : s.unreturned host start length = 0 := by
    refine countP_eq_zero.2 fun c hc => ?_
    unfold AcquireCall.counts
    cases hphase : c.phase with
    | sleeping waitMs => simp
    | taken takenAt => simp [hnot _ ((h.calls c hc).2 takenAt hphase)]
  rw [LimiterState.taken, hgrants, hcalls]

lemma counts_phaseAfter (host' : String) (startWait start length : ℕ) (bucket : TokenBucket)
    (now : ℕ) :
    AcquireCall.counts host start length ⟨host', startWait, phaseAfter bucket now⟩ =
      (decide (host' = host) && (inWindow start length now && (bucket.look now).2)) := by
  unfold AcquireCall.counts phaseAfter
  cases (bucket.look now).2 <;> simp

lemma WindowInv.taken_le (hs : BucketInv s) (h : WindowInv rate burst host start length s)
    (hrate : 0 ≤ rate) (hburst : 0 ≤ burst) :
    (s.taken host start length : ℚ) ≤ burst + rate * seconds length := by
  rcases Nat.lt_or_ge s.now start with hearly | hin
  · have hinflow := mul_nonneg hrate (seconds_nonneg length)
    rw [hs.taken_eq_zero hearly, cast_zero]
    linarith
  · rcases Nat.lt_or_ge (start + length) s.now with hlate | hwithin
    · exact h.after hlate
    · have hbefore := h.left hin hwithin
      have hleft : 0 ≤ s.level rate burst host := hs.level_nonneg hrate hburst
      have hspan := seconds_mono hwithin
      rw [seconds_add] at hspan
      have hinflow := mul_le_mul_of_nonneg_left (sub_le_iff_le_add'.2 hspan) hrate
      linarith

lemma WindowInv.advance (hs : BucketInv s) (h : WindowInv rate burst host start length s)
    (hrate : 0 ≤ rate) (hburst : 0 ≤ burst) (ms : ℕ) :
    WindowInv rate burst host start length (limiterStep s (.advance ms)) := by
  have hlater := seconds_add s.now ms
  -- a window that opens meanwhile has had nothing taken in it
  have hopens : s.now < start → start ≤ s.now + ms →
      s.taken host start length = 0 ∧ 0 ≤ rate * (seconds (s.now + ms) - seconds start) :=
    fun hearly hstart => ⟨hs.taken_eq_zero hearly,
      mul_nonneg hrate (sub_nonneg.2 (seconds_mono hstart))⟩
  refine ⟨fun hstart hend => ?_, fun hstart hend => ?_, fun hafter => ?_⟩
  · change (s.granted host start length : ℚ) + rowLevel rate burst (s.rows.get? host) (s.now + ms) ≤
      burst + rate * (seconds (s.now + ms) - seconds start)
    rcases Nat.lt_or_ge s.now start with hearly | hin
    · obtain ⟨hzero, hinflow⟩ := hopens hearly hstart
      have hlevel := rowLevel_le_burst rate burst (s.rows.get? host) (s.now + ms)
      rw [(Nat.add_eq_zero_iff.1 hzero).1, cast_zero]
      linarith
    · have hbefore := h.stored hin ((Nat.le_add_right _ _).trans hend)
      have hgrow : rowLevel rate burst (s.rows.get? host) (s.now + ms) ≤
          rowLevel rate burst (s.rows.get? host) s.now + rate * seconds ms :=
        rowLevel_add_le hrate (s.rows.get? host) s.now ms
      rw [hlater]
      linarith
  · change (s.taken host start length : ℚ) +
      (limiterStep s (.advance ms)).level rate burst host ≤
        burst + rate * (seconds (s.now + ms) - seconds start)
    rcases Nat.lt_or_ge s.now start with hearly | hin
    · obtain ⟨hzero, hinflow⟩ := hopens hearly hstart
      have hlevel := level_le_burst rate burst host (limiterStep s (.advance ms))
      rw [hzero, cast_zero]
      linarith
    · have hbefore := h.left hin ((Nat.le_add_right _ _).trans hend)
      have hgrow : (limiterStep s (.advance ms)).level rate burst host ≤
          s.level rate burst host + rate * seconds ms := level_advance_le hrate s ms
      rw [hlater]
      linarith
  · have hbefore := h.taken_le hs hrate hburst
    exact hbefore

lemma WindowInv.looked (hs : BucketInv s) (h : WindowInv rate burst host start length s)
    (hfits : start ≤ s.now → s.now ≤ start + length →
      (s.limits.budgetFor host).Within rate burst)
    (host' : String)
    (hcount : calls.countP (AcquireCall.counts host start length) =
      s.unreturned host start length + if (decide (host' = host) &&
        (inWindow start length s.now && ((s.bucketFor host').look s.now).2)) then 1 else 0) :
    WindowInv rate burst host start length (s.looked host' calls) := by
  have htaken : (s.looked host' calls).taken host start length =
      s.taken host start length + if (decide (host' = host) &&
        (inWindow start length s.now && ((s.bucketFor host').look s.now).2)) then 1 else 0 := by
    rw [LimiterState.taken, LimiterState.taken, Nat.add_assoc, ← hcount]
    rfl
  refine ⟨h.stored, fun hstart hend => ?_, fun hafter => ?_⟩
  · have hnow : inWindow start length s.now := by
      have hstart : start ≤ s.now := hstart
      have hend : s.now ≤ start + length := hend
      simp [inWindow, hstart, hend]
    have hbefore := h.left hstart hend
    refine le_trans ?_ hbefore
    rw [htaken, hnow, Bool.true_and]
    by_cases hhost : host' = host
    · subst hhost
      have hwithin : (s.bucketFor host').budget.Within rate burst := by
        rw [(hs.bucketFor host').2]
        exact hfits hstart hend
      have hlook := level_look_le hwithin (hs.bucketFor host').1
      have hbuilt : Filling.level rate burst (s.bucketFor host').vessel (seconds s.now) ≤
          s.level rate burst host' := level_bucketFor_le s
      have hlevel : (s.looked host' calls).level rate burst host' = Filling.level rate burst
          ((s.bucketFor host').look s.now).1.vessel (seconds s.now) := by
        simp [LimiterState.level, LimiterState.looked]
      rw [hlevel]
      simp only [decide_true, Bool.true_and]
      push_cast
      linarith
    · have hlevel : (s.looked host' calls).level rate burst host = s.level rate burst host := by
        simp [LimiterState.level, LimiterState.looked, OrderedMap.get?_set_of_ne _ _ hhost]
      rw [hlevel]
      simp [hhost]
  · have hafter' : start + length < s.now := hafter
    have hnow : inWindow start length s.now = false := by
      simp only [inWindow, and_eq_false_imp, decide_eq_true_eq, decide_eq_false_iff_not]
      omega
    rw [htaken, hnow]
    simpa using h.after hafter

lemma WindowInv.settle (hs : BucketInv s) (h : WindowInv rate burst host start length s) (k : ℕ) :
    WindowInv rate burst host start length (limiterStep s (.settle k)) := by
  simp only [limiterStep]
  split
  · rename_i host' startWait takenAt hk
    have hcall := Places.countP_eraseIdx_add (AcquireCall.counts host start length) hk
    have hsame : AcquireCall.counts host start length ⟨host', startWait, .taken takenAt⟩ =
        counts host start length ⟨host', takenAt, takenAt - startWait⟩ := rfl
    obtain ⟨bucket, hbucket⟩ := isSome_iff_exists.1
      (hs.calls _ (mem_of_getElem? hk)).1
    have hfor : s.bucketFor host' = bucket := by simp [bucketFor, hbucket]
    set s' : LimiterState := { s with
      rows := s.rows.set host' (s.bucketFor host').snapshot
      calls := s.calls.eraseIdx k
      grants := s.grants ++ [⟨host', takenAt, takenAt - startWait⟩] } with hs'
    have hgranted : s'.granted host start length = s.granted host start length +
        if counts host start length ⟨host', takenAt, takenAt - startWait⟩ then 1 else 0 := by
      simp only [hs', granted, countP_append, countP_singleton]
    have htaken : s'.taken host start length = s.taken host start length := by
      simp only [taken, hgranted, unreturned]
      rw [← hsame, ← hcall]
      simp only [hs']
      omega
    have hlevel : s'.level rate burst host = s.level rate burst host := by
      by_cases hhost : host' = host
      · subst hhost
        simp [level, hs', hbucket]
      · simp [level, hs', get?_set_of_ne _ _ hhost]
    refine ⟨fun hstart hend => ?_, fun hstart hend => ?_, fun hafter => ?_⟩
    · by_cases hhost : host' = host
      · -- the row says what the bucket holds
        subst hhost
        have hrow : rowLevel rate burst (s'.rows.get? host') s'.now = s.level rate burst host' := by
          simp only [hs', get?_set_self, hfor, level, hbucket]
          simp [rowLevel, restore, snapshot, vessel,
            max_eq_right (hs.bounded host' bucket hbucket).nonneg]
        have hle : (s'.granted host' start length : ℚ) ≤ s.taken host' start length :=
          cast_le.2 (htaken ▸ Nat.le_add_right _ _)
        have hbefore := h.left hstart hend
        rw [hrow]
        exact le_trans (by linarith) hbefore
      · have hcounts : counts host start length
            ⟨host', takenAt, takenAt - startWait⟩ = false := by simp [counts, hhost]
        rw [hcounts] at hgranted
        have hrow : s'.rows.get? host = s.rows.get? host :=
          get?_set_of_ne _ _ hhost
        rw [hgranted, hrow]
        simpa using h.stored hstart hend
    · rw [htaken, hlevel]
      exact h.left hstart hend
    · rw [htaken]
      exact h.after hafter
  · exact h

lemma WindowInv.restart (h : WindowInv rate burst host start length s) (limits : RateLimits) :
    WindowInv rate burst host start length (limiterStep s (.restart limits)) := by
  have htaken : (limiterStep s (.restart limits)).taken host start length =
      s.granted host start length := rfl
  have hle : (s.granted host start length : ℚ) ≤ s.taken host start length :=
    cast_le.2 (Nat.le_add_right _ _)
  refine ⟨h.stored, fun hstart hend => ?_, fun hafter => ?_⟩
  · have hlevel : (limiterStep s (.restart limits)).level rate burst host =
        rowLevel rate burst (s.rows.get? host) s.now := by
      simp [level, limiterStep]
    rw [htaken, hlevel]
    exact h.stored hstart hend
  · rw [htaken]
    exact hle.trans (h.after hafter)

lemma WindowInv.step (hs : BucketInv s) (h : WindowInv rate burst host start length s)
    (hrate : 0 ≤ rate) (hburst : 0 ≤ burst) (a : LimiterAction)
    (hfits : inWindow start length s.now → (s.limits.budgetFor host).Within rate burst) :
    WindowInv rate burst host start length (limiterStep s a) := by
  have hfits' : start ≤ s.now → s.now ≤ start + length →
      (s.limits.budgetFor host).Within rate burst := fun hstart hend =>
    hfits (by simp [inWindow, hstart, hend])
  cases a with
  | advance ms => exact h.advance hs hrate hburst ms
  | acquire host' =>
    refine h.looked hs hfits' host' ?_
    rw [countP_append, countP_singleton, counts_phaseAfter]
    rfl
  | wake k =>
    simp only [limiterStep]
    split
    · rename_i host' startWait waitMs hk
      refine h.looked hs hfits' host' ?_
      have hset := Places.countP_set_add (AcquireCall.counts host start length)
        ⟨host', startWait, phaseAfter (s.bucketFor host') s.now⟩ hk
      have hsleeping : AcquireCall.counts host start length
          ⟨host', startWait, .sleeping waitMs⟩ = false := by simp [AcquireCall.counts]
      rw [hsleeping, counts_phaseAfter] at hset
      exact hset
    · exact h
  | settle k => exact h.settle hs k
  | restart limits => exact h.restart limits

end Window

/-- **The bound on a host.** In every run, calls and restarts as they come: the buckets hold between
nothing and their burst; and where every limiter at work within a window keeps a host to a rate and
a burst, the grants for that host in the window are at most the burst and what flows in. -/
theorem grants_le_of_budget (now : ℕ) (limits : RateLimits)
    (rows : OrderedMap String RateLimitState)
    (hrows : ∀ host row, rows.get? host = some row → row.Past now) (acts : List LimiterAction) :
    let s := (rateLimiter now limits rows).run acts
    (∀ host bucket, s.buckets.get? host = some bucket →
      0 ≤ bucket.tokens ∧ bucket.tokens ≤ bucket.budget.burst) ∧
    ∀ (host : String) (budget : HostRateLimit) (start length : ℕ),
      (rateLimiter now limits rows).Along (fun s _ => inWindow start length s.now →
        (s.limits.budgetFor host).Within budget.tokensPerSecond budget.burst)
        (rateLimiter now limits rows).init acts →
      (s.granted host start length : ℚ) ≤
        budget.burst + budget.tokensPerSecond * seconds length := by
  intro s
  have hinv := bucketInv_run now limits hrows acts
  refine ⟨fun host bucket hget => ⟨(hinv.bounded host bucket hget).nonneg,
    (hinv.bounded host bucket hget).le_burst⟩, fun host budget start length halong => ?_⟩
  have hrate := budget.rate_pos.le
  have hburst := zero_le_one.trans budget.one_le_burst
  have hinit : BucketInv (rateLimiter now limits rows).init ∧
      WindowInv budget.tokensPerSecond budget.burst host start length
        (rateLimiter now limits rows).init := by
    refine ⟨bucketInv_run now limits hrows [], fun hstart _ => ?_, fun hstart _ => ?_, fun _ => ?_⟩
    · have hlevel := rowLevel_le_burst budget.tokensPerSecond budget.burst (rows.get? host) now
      have hinflow := mul_nonneg hrate (sub_nonneg.2 (seconds_mono hstart))
      simp only [rateLimiter, LimiterState.granted, List.countP_nil, Nat.cast_zero] at hinflow ⊢
      linarith
    · have hlevel := level_le_burst budget.tokensPerSecond budget.burst host
        (rateLimiter now limits rows).init
      have hinflow := mul_nonneg hrate (sub_nonneg.2 (seconds_mono hstart))
      simp only [rateLimiter, LimiterState.taken, LimiterState.granted, LimiterState.unreturned,
        List.countP_nil, Nat.add_zero, Nat.cast_zero] at hlevel hinflow ⊢
      linarith
    · have hinflow := mul_nonneg hrate (seconds_nonneg length)
      simp only [rateLimiter, LimiterState.taken, LimiterState.granted, LimiterState.unreturned,
        List.countP_nil, Nat.add_zero, Nat.cast_zero]
      linarith
  have hstep : ∀ s a, BucketInv s ∧
      WindowInv budget.tokensPerSecond budget.burst host start length s →
      (inWindow start length s.now →
        (s.limits.budgetFor host).Within budget.tokensPerSecond budget.burst) →
      BucketInv (limiterStep s a) ∧
        WindowInv budget.tokensPerSecond budget.burst host start length (limiterStep s a) :=
    fun s a hs hfits => ⟨hs.1.step a, hs.2.step hs.1 hrate hburst a hfits⟩
  have hrun := Machine.invariant_runFrom (M := rateLimiter now limits rows) hstep hinit halong
  exact le_trans (Nat.cast_le.2 (Nat.le_add_right _ _)) (hrun.2.taken_le hrun.1 hrate hburst)

/-- One token a second, and a burst of two. -/
def twoPerHost : HostRateLimit := ⟨1, 2, by norm_num, by norm_num⟩

/-- The same budget for every host. -/
def twoForAll : RateLimits := ⟨twoPerHost, OrderedMap.empty⟩

/-- Two grants, a restart, and a call that has to wait for its token. -/
def restartedRun : List LimiterAction :=
  [.acquire "shop.example", .settle 0, .acquire "shop.example", .settle 0, .restart twoForAll,
    .acquire "shop.example", .advance 1000, .wake 0, .settle 0]

theorem grants_le_after_restart :
    ((rateLimiter 0 twoForAll OrderedMap.empty).run restartedRun).granted "shop.example" 0 1000 ≤
      twoPerHost.burst + twoPerHost.tokensPerSecond * seconds 1000 :=
  (grants_le_of_budget 0 twoForAll OrderedMap.empty (fun _ _ hget => nomatch hget)
    restartedRun).2 "shop.example" twoPerHost 0 1000 (by decide +kernel)

end Yantra
