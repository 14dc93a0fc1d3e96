import Yantra.Executor.Run

/-!
# References at run time

What a reference of a step resolves to when the step is reached, against what its producer
stored. The validator tells captures by step id; the handlers store them under an alias, inside
an envelope, and each handler builds its own resolver.

## Main definitions

* `latestWrite`, `latestStore` — the last write to a name, and the last value a
  step stored.
* `RefsSound` — the step's references are of the kinds the handlers resolve, and the name
  each reads was last written by the step it names.

## Main results

* `refsResolve_of_sound` — at every point of every run, sound references resolve.
* `alias_breaks_reference` — an accepted plan whose reference does not resolve.
-/

namespace Yantra

open List

/-! ## The writes of a run -/

/-- The last write to a name: which step made it, and the value. -/
def latestWrite : List Mark → String → Option (Nat × Value)
  | [], _ => none
  | .stored i key v :: older, k => if key = k then some (i, v) else latestWrite older k
  | .visit _ :: older, k => latestWrite older k
  | .answered _ _ :: older, k => latestWrite older k
  | .dispatched _ :: older, k => latestWrite older k

def latestStore : List Mark → Nat → Option Value
  | [], _ => none
  | .stored j _ v :: older, i => if j = i then some v else latestStore older i
  | .visit _ :: older, i => latestStore older i
  | .answered _ _ :: older, i => latestStore older i
  | .dispatched _ :: older, i => latestStore older i

/-- The captures are what the writes left, and a step writes to its own name only. -/
structure LogInv (p : Plan) (captures : CaptureStore) (trace : List Mark) : Prop where
  latest : ∀ k, captures.get? k = (latestWrite trace k).map Prod.snd
  named : ∀ i key v, Mark.stored i key v ∈ trace →
    ∃ step, p.steps[i]? = some step ∧ step.storeKey = some key

/-- The loops being run write to their own names. -/
def FramesNamed (p : Plan) (frames : List LoopFrame) : Prop :=
  ∀ f ∈ frames, ∃ step, p.steps[f.loopIdx]? = some step ∧ step.storeKey = some f.as

structure StoreInv (p : Plan) (s : RunState) : Prop where
  log : LogInv p s.captures s.trace
  frames : ∀ i total attempt fs, s.control = .inLoop i total attempt fs → FramesNamed p fs

variable {trace : List Mark}

variable {captures : CaptureStore} {p : Plan}

lemma LogInv.mark (h : LogInv p captures trace) {m : Mark} (hm : ∀ i key v, m ≠ .stored i key v) :
    LogInv p captures (m :: trace) := by
  constructor
  · intro k
    rw [h.latest k]
    cases m with
    | stored i key v => exact absurd rfl (hm i key v)
    | visit i => rfl
    | answered request reply => rfl
    | dispatched i => rfl
  · intro i key v hmem
    rcases mem_cons.1 hmem with heq | hold
    · exact absurd heq.symm (hm i key v)
    · exact h.named i key v hold

variable {step : Step}

variable {i : Nat}

lemma LogInv.store (h : LogInv p captures trace) {key : String} (v : Value)
    (hi : p.steps[i]? = some step) (hkey : step.storeKey = some key) :
    LogInv p (captures.set key v) (.stored i key v :: trace) := by
  constructor
  · intro k
    rw [OrderedMap.get?_set, latestWrite]
    split_ifs
    · rfl
    · exact h.latest k
  · intro j key' v' hmem
    rcases mem_cons.1 hmem with heq | hold
    · cases heq
      exact ⟨step, hi, hkey⟩
    · exact h.named j key' v' hold

variable {env : RunEnv} {s : RunState}

variable {w : World}

lemma logInv_callHandler {j : Nat} (h : LogInv env.plan s.captures s.trace)
    (hj : env.plan.steps[j]? = some step) :
    LogInv env.plan (callHandler env w s j step).1.captures
        (callHandler env w s j step).1.trace ∧
      ∀ frame, (callHandler env w s j step).2 = .entered frame →
        FramesNamed env.plan [frame] := by
  have hmark : LogInv env.plan s.captures (.dispatched j :: s.trace) :=
    h.mark fun i key v => by simp
  unfold callHandler
  simp only
  split
  · exact ⟨hmark, fun frame hf => by cases hf⟩
  · rename_i hd hhandled
    refine ⟨?_, fun frame hf => by cases hf⟩
    rcases handleStep_captures hhandled with ⟨hcap, hnothing⟩ | ⟨key, v, hkey, hcap, hres⟩
    · have hmarks : storeMarks j hd.captures hd.result = [] := by
        unfold storeMarks
        split
        · rename_i keys hkeys
          rw [hkeys] at hnothing
          simp [List.isEmpty_iff.1 hnothing]
        · rfl
      show LogInv env.plan hd.captures (storeMarks j hd.captures hd.result ++ _)
      rw [hmarks, hcap]
      exact hmark
    · have hmarks : storeMarks j hd.captures hd.result = [.stored j key v] := by
        rw [hres, hcap]
        simp [storeMarks]
      show LogInv env.plan hd.captures (storeMarks j hd.captures hd.result ++ _)
      rw [hmarks, hcap]
      exact hmark.store v hj hkey
  · split
    · rename_i l hl
      split
      · exact ⟨hmark, fun frame hf => by cases hf⟩
      · exact ⟨hmark, fun frame hf => by cases hf⟩
      · refine ⟨hmark, fun frame hf f hmem => ?_⟩
        cases hf
        rw [mem_singleton] at hmem
        subst hmem
        exact ⟨step, hj, by simp [Step.storeKey, hl]⟩
    · exact ⟨hmark, fun frame hf => by cases hf⟩

lemma storeInv_settle {i total attempt : Nat} (r : StepResult)
    (h : LogInv env.plan s.captures s.trace) :
    StoreInv env.plan (settle env s i total attempt step r) := by
  refine ⟨by rwa [settle_captures, settle_trace], fun i' total' attempt' fs hc => ?_⟩
  rcases settle_control env s i total attempt step r with hd | hd | ⟨j, hd⟩ | ⟨o, hd⟩
  all_goals
    rw [hd] at hc
    cases hc

lemma storeInv_loopStep {i total attempt : Nat} {frames : List LoopFrame}
    (h : LogInv env.plan s.captures s.trace) (hf : FramesNamed env.plan frames) :
    StoreInv env.plan (loopStep env w s i total attempt step frames) := by
  cases frames with
  | nil =>
    simp only [loopStep]
    exact storeInv_settle _ h
  | cons f outer =>
    obtain ⟨loopStep', hloop, hkey⟩ := hf f (mem_cons_self ..)
    have houter : FramesNamed env.plan outer := fun g hg => hf g (mem_cons_of_mem _ hg)
    -- a frame that differs from `f` in what is left to do is named as `f` is
    have hsame : ∀ g : LoopFrame, g.loopIdx = f.loopIdx → g.as = f.as →
        FramesNamed env.plan (g :: outer) := fun g hidx has f' hf' => by
      rcases mem_cons.1 hf' with rfl | hold
      · exact ⟨loopStep', by rw [hidx]; exact hloop, by rw [has]; exact hkey⟩
      · exact houter f' hold
    cases htodo : f.todo with
    | nil =>
      cases hitems : f.items with
      | nil =>
        simp only [loopStep, htodo, hitems]
        refine ⟨h, fun i' total' attempt' fs hc => ?_⟩
        cases hc
        exact houter
      | cons v items =>
        simp only [loopStep, htodo, hitems]
        refine ⟨h.store v hloop hkey, fun i' total' attempt' fs hc => ?_⟩
        cases hc
        exact hsame _ rfl rfl
    | cons id todo =>
      cases hbody : bodyStep? env.plan id with
      | none =>
        simp only [loopStep, htodo, hbody]
        refine ⟨h, fun i' total' attempt' fs hc => ?_⟩
        cases hc
        exact hsame _ rfl rfl
      | some jb =>
        obtain ⟨j, body⟩ := jb
        obtain ⟨hlog, hentered⟩ :=
          logInv_callHandler (w := w) (s := s) h (bodyStep?_spec hbody)
        rcases hcall : callHandler env w s j body with ⟨s', reply⟩
        rw [hcall] at hlog hentered
        simp only [loopStep, htodo, hbody, hcall]
        cases reply with
        | threw message => exact ⟨hlog, fun i' total' attempt' fs hc => by cases hc⟩
        | entered g =>
          refine ⟨hlog, fun i' total' attempt' fs hc => ?_⟩
          cases hc
          intro f' hf'
          rcases mem_cons.1 hf' with rfl | hold
          · exact hentered f' rfl f' (mem_singleton_self _)
          · exact hsame { f with todo := todo } rfl rfl f' hold
        | returned result =>
          cases result with
          | completed keys =>
            refine ⟨hlog, fun i' total' attempt' fs hc => ?_⟩
            cases hc
            exact hsame _ rfl rfl
          | _ => exact storeInv_settle _ hlog

/-- **The step lemma of the stores.** Every step of the executor keeps the captures what the
writes left. -/
lemma storeInv_step (s : RunState) (w : World) (h : StoreInv env.plan s) :
    StoreInv env.plan (executorStep env s w) := by
  obtain ⟨hlog, hframes⟩ := h
  unfold executorStep
  cases hc : s.control with
  | starting =>
    simp only [startRun]
    split
    · exact ⟨hlog, fun _ _ _ _ hc' => by cases hc'⟩
    · split
      · exact ⟨hlog, fun _ _ _ _ hc' => by cases hc'⟩
      · exact ⟨hlog, fun _ _ _ _ hc' => by cases hc'⟩
  | cursor i total =>
    have hvisit : LogInv env.plan s.captures (.visit i :: s.trace) :=
      hlog.mark fun i key v => by simp
    simp only [startStep]
    split
    · exact ⟨hlog, fun _ _ _ _ hc' => by cases hc'⟩
    · split
      · exact ⟨hlog, fun _ _ _ _ hc' => by cases hc'⟩
      · repeat' split
        all_goals exact ⟨hvisit, fun _ _ _ _ hc' => by cases hc'⟩
  | gate i total request =>
    have hanswered : LogInv env.plan s.captures (.answered request w.gateway :: s.trace) :=
      hlog.mark fun i key v => by simp
    simp only [answerGate, applyDecision]
    repeat' split
    all_goals exact ⟨hanswered, fun _ _ _ _ hc' => by cases hc'⟩
  | dispatch i total attempt =>
    simp only [dispatchStep]
    cases hi : env.plan.steps[i]? with
    | none => exact ⟨hlog, hframes⟩
    | some step =>
      obtain ⟨hlog', hentered⟩ := logInv_callHandler (w := w) (s := s) hlog hi
      rcases hcall : callHandler env w s i step with ⟨s', reply⟩
      rw [hcall] at hlog' hentered
      simp only [hcall]
      cases reply with
      | threw message => exact ⟨hlog', fun _ _ _ _ hc' => by cases hc'⟩
      | returned result => exact storeInv_settle _ hlog'
      | entered frame =>
        refine ⟨hlog', fun _ _ _ _ hc' => ?_⟩
        cases hc'
        exact hentered frame rfl
  | inLoop i total attempt frames =>
    simp only
    split
    · exact ⟨hlog, hframes⟩
    · exact storeInv_loopStep hlog (hframes i total attempt frames hc)
  | saving i total =>
    simp only [saveCheckpoint]
    split
    · exact ⟨hlog, hframes⟩
    · split_ifs
      · exact ⟨hlog, fun _ _ _ _ hc' => by cases hc'⟩
      · exact ⟨hlog, fun _ _ _ _ hc' => by cases hc'⟩
  | finished o => exact ⟨hlog, hframes⟩
  | threw message => exact ⟨hlog, hframes⟩

/-- **The stores of every run.** In every state of every run from scratch, the captures are what
the last writes left and every step wrote to its own name. -/
lemma storeInv_run (env : RunEnv) (ws : List World) :
    StoreInv env.plan ((executor env).run ws) := by
  have hinit : StoreInv env.plan (executor env).init :=
    ⟨⟨fun _ => rfl, fun _ _ _ hmem => (by cases hmem)⟩, fun _ _ _ _ hc => (by cases hc)⟩
  exact Machine.invariant_runFrom' (M := executor env) storeInv_step hinit ws

/-! ## What references stand for -/

def storedRows (envelope : Value) : List Value :=
  match envelope.property? "rows" with
  | some (.arr rows) => rows
  | _ => []

/-- The value a capture reference stands for: what the step it names stored last, or the field
of the record that step extracted. -/
def produced (p : Plan) (trace : List Mark) (ref : CaptureRef) : Option Value :=
  match (p.stepIdx? ref.stepId).bind (latestStore trace) with
  | none => none
  | some envelope =>
    match ref.field with
    | none => some envelope
    | some field => (storedRows envelope).head?.bind fun row => row.property? field

/-- The collection a loop's reference stands for: the rows of an extract, or the value of a
param. -/
def producedCollection (p : Plan) (params : Params) (trace : List Mark) :
    CollectionRef → Option Value
  | .capture ref =>
    match ref.field with
    | none => (produced p trace ref).map fun envelope => .arr (storedRows envelope)
    | some _ => produced p trace ref
  | .param key => params.get? key

/-- The references a value reference consists of: itself, and those of a template's bindings. -/
def ValueRef.parts (ref : ValueRef) : List ValueRef := (collectValueRefs "" ref).map Prod.fst

/-- A capture or param reference resolves to the value it stands for. -/
def RefResolves (env : RunEnv) (trace : List Mark) (r : ValueResolver) : ValueRef → Prop
  | .capture ref => ∃ v, produced env.plan trace ref = some v ∧ r.resolve (.capture ref) = .ok v
  | .param key => ∃ v, env.params.get? key = some v ∧ r.resolve (.param key) = .ok v
  | _ => True

/-- Every reference of a step is read by its handler as the value it stands for: the ones it
resolves, the collection it loops over, the capture it summarizes, and the capture whose
presence it branches on. -/
def RefsResolve (env : RunEnv) (s : RunState) (step : Step) : Prop :=
  match step.body with
  | .navigate _ url =>
      ∀ ref ∈ url.parts, RefResolves env s.trace ⟨s.captures, OrderedMap.empty⟩ ref
  | .fill _ _ value _ | .fillElement _ _ _ _ value =>
      ∀ ref ∈ value.parts, RefResolves env s.trace ⟨s.captures, env.params⟩ ref
  | .loop l => ∃ v, producedCollection env.plan env.params s.trace l.over = some v ∧
      resolveCollection s.captures l.over = .ok (some v)
  | .branch (.captureExists ref) _ _ =>
      branchTaken s.captures (.captureExists ref) = (produced env.plan s.trace ref).isSome
  | .llmSummarize input _ _ => ∃ v, produced env.plan s.trace input = some v ∧
      s.captures.get? input.stepId = some v
  | _ => True

/-- The step whose handler is called next: the one the cursor loop dispatches, or the next body
step of the innermost loop. -/
def stepAtHand (env : RunEnv) (s : RunState) : Option Step :=
  match s.control with
  | .dispatch i _ _ => env.plan.steps[i]?
  | .inLoop _ _ _ (f :: _) => f.todo.head?.bind fun id => (bodyStep? env.plan id).map Prod.snd
  | _ => none

/-! ## When references resolve -/

/-- The last write to the name of step `id` was made by that step. -/
def OwnWrite (p : Plan) (trace : List Mark) (id : String) : Prop :=
  ∃ i v, p.stepIdx? id = some i ∧ latestWrite trace id = some (i, v)

/-- A reference of a kind the resolver follows, among the given params: a whole capture whose
name was last written by the step it names, or a param with a value. -/
def RefSound (p : Plan) (params : Params) (trace : List Mark) : ValueRef → Prop
  | .capture ref => ref.field = none ∧ OwnWrite p trace ref.stepId
  | .param key => (params.get? key).isSome
  | _ => True

/-- The references of a step are sound. A navigation has no params; a loop reads no capture and
takes every param for an empty list; a branch may also ask for a capture that nobody stored. -/
def RefsSound (env : RunEnv) (trace : List Mark) (step : Step) : Prop :=
  match step.body with
  | .navigate _ url => ∀ ref ∈ url.parts, RefSound env.plan OrderedMap.empty trace ref
  | .fill _ _ value _ | .fillElement _ _ _ _ value =>
      ∀ ref ∈ value.parts, RefSound env.plan env.params trace ref
  | .loop l => ∃ key, l.over = .param key ∧ env.params.get? key = some (.arr [])
  | .branch (.captureExists ref) _ _ =>
      (ref.field = none ∧ OwnWrite env.plan trace ref.stepId) ∨
        (latestWrite trace ref.stepId = none ∧
          (env.plan.stepIdx? ref.stepId).bind (latestStore trace) = none)
  | .llmSummarize input _ _ => input.field = none ∧ OwnWrite env.plan trace input.stepId
  | _ => True

/-- Whatever step is called next, its references are sound. -/
def RefsSoundAt (env : RunEnv) (s : RunState) : Prop :=
  ∀ step, stepAtHand env s = some step → RefsSound env s.trace step

/-- Whatever step is called next, its references resolve. -/
def RefsResolveAt (env : RunEnv) (s : RunState) : Prop :=
  ∀ step, stepAtHand env s = some step → RefsResolve env s step

variable {k : String} {v : Value}

/-- When a step writes to one name only and wrote to it last, the last write to that name is the
last value the step stored. -/
lemma latestStore_of_latestWrite (hnames : ∀ key w, Mark.stored i key w ∈ trace → key = k)
    (h : latestWrite trace k = some (i, v)) : latestStore trace i = some v := by
  induction trace with
  | nil => cases h
  | cons m trace ih =>
    have hrest : ∀ key w, Mark.stored i key w ∈ trace → key = k := fun key w hw =>
      hnames key w (mem_cons_of_mem _ hw)
    cases m with
    | visit j => exact ih hrest h
    | answered request reply => exact ih hrest h
    | dispatched j => exact ih hrest h
    | stored j key w =>
      simp only [latestWrite] at h
      simp only [latestStore]
      by_cases hk : key = k
      · rw [if_pos hk] at h
        obtain ⟨rfl, rfl⟩ : j = i ∧ w = v := by simpa using h
        rw [if_pos rfl]
      · rw [if_neg hk] at h
        have hj : ¬ j = i := by
          rintro rfl
          exact hk (hnames key w (mem_cons_self ..))
        rw [if_neg hj]
        exact ih hrest h

lemma mem_of_latestWrite (h : latestWrite trace k = some (i, v)) : Mark.stored i k v ∈ trace := by
  induction trace with
  | nil => cases h
  | cons m trace ih =>
    cases m with
    | visit j => exact mem_cons_of_mem _ (ih h)
    | answered request reply => exact mem_cons_of_mem _ (ih h)
    | dispatched j => exact mem_cons_of_mem _ (ih h)
    | stored j key w =>
      simp only [latestWrite] at h
      by_cases hk : key = k
      · rw [if_pos hk] at h
        obtain ⟨rfl, rfl⟩ : j = i ∧ w = v := by simpa using h
        subst hk
        exact mem_cons_self ..
      · rw [if_neg hk] at h
        exact mem_cons_of_mem _ (ih h)

/-- A whole capture last written by the step named is stored under that step's id, and is what
the reference stands for. -/
lemma produced_of_ownWrite (hlog : LogInv p captures trace) {ref : CaptureRef}
    (hfield : ref.field = none) (hown : OwnWrite p trace ref.stepId) :
    ∃ v, produced p trace ref = some v ∧ captures.get? ref.stepId = some v := by
  obtain ⟨i, v, hidx, hwrite⟩ := hown
  obtain ⟨step, hi, hkey⟩ := hlog.named i _ v (mem_of_latestWrite hwrite)
  have hnames : ∀ key w, Mark.stored i key w ∈ trace → key = ref.stepId := fun key w hw => by
    obtain ⟨step', hi', hkey'⟩ := hlog.named i key w hw
    obtain rfl : step = step' := by simpa [hi] using hi'
    simpa [hkey, eq_comm] using hkey'
  have hstore := latestStore_of_latestWrite hnames hwrite
  refine ⟨v, ?_, ?_⟩
  · simp [produced, hidx, hstore, hfield]
  · rw [hlog.latest, hwrite]
    rfl

lemma refResolves_of_sound {params : Params} (hlog : LogInv env.plan s.captures s.trace)
    (hparams : ∀ key v, params.get? key = some v → env.params.get? key = some v) {ref : ValueRef}
    (h : RefSound env.plan params s.trace ref) :
    RefResolves env s.trace ⟨s.captures, params⟩ ref := by
  cases ref with
  | literal value => trivial
  | secret sref => trivial
  | template t bindings => trivial
  | param key =>
    obtain ⟨v, hv⟩ := Option.isSome_iff_exists.1 h
    refine ⟨v, hparams key v hv, ?_⟩
    simp [ValueResolver.resolve, resolveParam, hv]
  | capture ref =>
    obtain ⟨hfield, hown⟩ := h
    obtain ⟨v, hproduced, hget⟩ := produced_of_ownWrite hlog hfield hown
    refine ⟨v, hproduced, ?_⟩
    simp [ValueResolver.resolve, resolveCapture, hget, hfield]

/-- **References at run time.** At every point of every run from scratch, whatever the plan, the
params and the answers of the world, the references of the step at hand resolve to the values
they stand for when they are sound.

**Proof sketch.** The captures are what the last writes left. A name last written by the step it
is the id of holds what that step stored last, since a step writes to one name only. -/
theorem refsResolve_of_sound (env : RunEnv) (ws : List World)
    (hsound : RefsSoundAt env ((executor env).run ws)) :
    RefsResolveAt env ((executor env).run ws) := by
  intro step hstep
  have h := hsound step hstep
  have hlog := (storeInv_run env ws).log
  unfold RefsSound at h
  unfold RefsResolve
  cases hb : step.body with
  | navigate a url =>
    simp only [hb] at h
    intro ref hmem
    exact refResolves_of_sound hlog (fun key v hv => by simp at hv) (h ref hmem)
  | fill a locator value submit =>
    simp only [hb] at h
    intro ref hmem
    exact refResolves_of_sound hlog (fun key v hv => hv) (h ref hmem)
  | fillElement a fieldName origin locator value =>
    simp only [hb] at h
    intro ref hmem
    exact refResolves_of_sound hlog (fun key v hv => hv) (h ref hmem)
  | loop l =>
    simp only [hb] at h
    obtain ⟨key, hover, hparam⟩ := h
    refine ⟨.arr [], ?_, ?_⟩
    · simp [hover, producedCollection, hparam]
    · simp [hover, resolveCollection]
  | branch condition thenStepId elseStepId =>
    cases condition with
    | always => trivial
    | captureExists ref =>
      simp only [hb] at h
      rcases h with ⟨hfield, hown⟩ | ⟨hnone, hstore⟩
      · obtain ⟨v, hproduced, hget⟩ := produced_of_ownWrite hlog hfield hown
        simp [branchTaken, OrderedMap.has, hget, hfield, hproduced]
      · have hget := hlog.latest ref.stepId
        rw [hnone] at hget
        simp [branchTaken, OrderedMap.has, hget, produced, hstore]
  | llmSummarize input prompt outputAs =>
    simp only [hb] at h
    exact produced_of_ownWrite hlog h.1 h.2
  | click a locator modifiers => trivial
  | extract locator schema captureAs => trivial
  | waitFor locator state timeoutMs => trivial
  | assert locator condition => trivial
  | callWorkflow workflowName params captureAs => trivial

/-- An accepted plan that navigates to an extracted address, the capture having an alias. -/
def aliasPlan (captureAs : String) : Plan where
  taskId := "t1"
  planId := "p1"
  defaultScope := .authenticated
  steps := [
    { id := "s1"
      body := .extract (.intent .link none none) (.primitive .string) captureAs },
    { id := "s2", body := .navigate {} (.capture ⟨"s1", none⟩) }]

def aliasEnv (captureAs : String) : RunEnv where
  runId := "r1"
  plan := aliasPlan captureAs
  params := OrderedMap.empty
  workflowLocators := none
  browser := true
  gateway := false
  llm := false
  urlHost := fun _ => none

/-- The page holds an address; the run comes to its second step. -/
def aliasWorlds : List World := List.replicate 5 { raw := .str "https://example.com/" }

theorem refsResolve_of_sound_own_alias :
    RefsResolveAt (aliasEnv "s1") ((executor (aliasEnv "s1")).run aliasWorlds) := by
  refine refsResolve_of_sound (aliasEnv "s1") aliasWorlds fun step hstep => ?_
  cases hstep
  intro ref hmem
  obtain rfl : ref = .capture ⟨"s1", none⟩ := by simpa [ValueRef.parts, collectValueRefs] using hmem
  exact ⟨rfl, 0, _, rfl, rfl⟩

/-- With another alias it does not: the run comes to the navigation, and the resolver finds no
capture under the step's id. -/
theorem alias_breaks_reference :
    (aliasPlan "link").schemaValid ∧
      validateSemantics (aliasPlan "link") = .ok (aliasPlan "link") ∧
      ¬ RefsResolveAt (aliasEnv "link") ((executor (aliasEnv "link")).run aliasWorlds) := by
  refine ⟨by decide, validateSemantics_ok_iff.2 ⟨by decide, rfl⟩, fun h => ?_⟩
  have hmem : ValueRef.capture ⟨"s1", none⟩ ∈ (ValueRef.capture ⟨"s1", none⟩).parts :=
    List.mem_singleton_self _
  obtain ⟨v, -, hresolve⟩ := h _ rfl _ hmem
  have herror : ValueResolver.resolve
      ⟨((executor (aliasEnv "link")).run aliasWorlds).captures, OrderedMap.empty⟩
      (.capture ⟨"s1", none⟩) = .error "Capture step \"s1\" has no captured value." := rfl
  rw [herror] at hresolve
  cases hresolve

end Yantra
