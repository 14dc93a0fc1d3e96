import Yantra.Workflow.Yaml

/-!
# Saving and loading a workflow

What a workflow loses when it is emitted as YAML and parsed again. The declarations left out are
those at their defaults, so they come back; the frames that were not recorded are never written;
the locators written apart are never read; and the shorthand of a step has no place for its
confirmation.

## Main definitions

* `YamlLibrary.RoundTrips` — the library gives back the data of a printed document.
* `SavesEverything` — the workflow has nothing that a save forgets.

## Main results

* `losslessSave_iff` — a save is lossless exactly when there is nothing to forget.
* `shorthand_drops_confirmation` — an accepted workflow that loses a confirmation.
-/

namespace Yantra

open List Option Value WorkflowFile

/-! ## What a save can keep -/

/-- The library gives back the data of the document it printed, and takes the two comments the
emitter adds to the text for no data. -/
structure YamlLibrary.RoundTrips (yaml : YamlLibrary) (w : WorkflowFile) (opts : EmitOptions) :
    Prop where
  parse_print : yaml.parse (yaml.print (emittedDocument w opts)) = .ok (emittedDocument w opts)
  parse_comments : yaml.parse (emittedText w opts (yaml.print (emittedDocument w opts))) =
    yaml.parse (yaml.print (emittedDocument w opts))

/-- Parsing what was emitted gives the workflow back, and the shorthand of every step gives the
step back. -/
def LosslessSave (yaml : YamlLibrary) (w : WorkflowFile) (opts : EmitOptions) : Prop :=
  parseWorkflowYaml yaml (emitWorkflow yaml w opts).yaml = .ok w ∧
    ∀ (i : Nat) (step : WorkflowStep), w.steps[i]? = some step →
      WorkflowStep.parse (fromShortForm (toShortForm step) i) = some step

/-- The annotations of a step that is written in a shorthand without a place for them: a navigate,
a click, or a fill that does not submit, without a scope of its own. -/
def WorkflowStep.shorthandAnnotations (s : WorkflowStep) : Option ConfirmationAnnotations :=
  if s.scope.isSome then none
  else
    match s.body with
    | .navigate annotations _ => some annotations
    | .click annotations _ => some annotations
    | .fill annotations _ _ false => some annotations
    | _ => none

/-- The step has nothing its shorthand forgets: neither a flag nor an annotation. -/
def WorkflowStep.SurvivesShorthand (s : WorkflowStep) : Prop :=
  ∀ annotations, s.shorthandAnnotations = some annotations →
    s.requiresConfirmation = false ∧ annotations = {}

/-- The workflow has nothing a save forgets. -/
def SavesEverything (w : WorkflowFile) (opts : EmitOptions) : Prop :=
  (∀ step ∈ w.steps, step.SurvivesShorthand) ∧ w.unrecordedFrames = [] ∧
    (opts.useSidecar w → w.locators = [])

/-! ## Reading a step -/

lemma WorkflowStep.read_eq_some_iff (get : Lookup) (s : WorkflowStep) :
    WorkflowStep.read get = some s ↔
      required get "id" (parseStringWhere matchesStepIdPattern) = some s.id ∧
      required get "scope" (nullable (parseEnum securityScopes)) = some s.scope ∧
      withDefault get "requires_confirmation" false parseBool = some s.requiresConfirmation ∧
      ∃ verb, required get "verb" parseString = some verb ∧
        WorkflowStepBody.read get verb = some s.body ∧
        (s.requiresConfirmation → s.body.verb ∈ confirmableStepTypes) := by
  constructor
  · intro h
    simp only [WorkflowStep.read, bind_eq_bind, bind_eq_some_iff] at h
    obtain ⟨id, hid, scope, hscope, flag, hflag, verb, hverb, body, hbody, hlast⟩ := h
    split_ifs at hlast with hlegal
    obtain rfl := some.inj hlast
    refine ⟨hid, hscope, hflag, verb, hverb, hbody, fun hf => ?_⟩
    simpa [show flag = true from hf] using hlegal
  · rintro ⟨hid, hscope, hflag, verb, hverb, hbody, hlegal⟩
    have hok : (s.requiresConfirmation && !confirmableStepTypes.contains s.body.verb) = false := by
      cases hf : s.requiresConfirmation with
      | false => rfl
      | true => simpa using hlegal hf
    simp only [WorkflowStep.read, hid, hscope, hflag, hverb, hbody, hok, bind_eq_bind,
      bind_some]
    rfl

lemma WorkflowStep.field?_id_verb (s : WorkflowStep) :
    field? "id" s.fields = some (.str s.id) ∧ (field? "verb" s.fields).isSome := by
  refine ⟨by simp [WorkflowStep.fields, field?], ?_⟩
  cases hb : s.body <;>
    simp [WorkflowStep.fields, hb, WorkflowStepBody.fields, ConfirmationAnnotations.fields,
      field?]

lemma fromShortForm_toValue (s : WorkflowStep) (i : Nat) :
    fromShortForm s.toValue i = s.toValue := by
  obtain ⟨hid, hverb⟩ := s.field?_id_verb
  simp [fromShortForm, WorkflowStep.toValue, hverb, hid]

variable {s : WorkflowStep}

lemma WorkflowStep.schemaValid_header (h : s.schemaValid) :
    matchesStepIdPattern s.id ∧
      (s.requiresConfirmation → s.body.verb ∈ confirmableStepTypes) := by
  obtain ⟨hid, -, -, verb, -, -, hlegal⟩ := (WorkflowStep.read_eq_some_iff _ _).1 h
  refine ⟨?_, hlegal⟩
  simp only [required, s.field?_id_verb.1, bind_some, parseStringWhere] at hid
  split_ifs at hid with hpattern
  exact hpattern

lemma WorkflowStep.schemaValid_body (h : s.schemaValid) (verb : String)
    (hverb : field? "verb" s.fields = some (.str verb)) :
    WorkflowStepBody.read (fun key => field? key s.fields) verb = some s.body := by
  obtain ⟨-, -, -, verb', hverb', hbody, -⟩ := (WorkflowStep.read_eq_some_iff _ _).1 h
  simp only [required, hverb, bind_some, parseString, some.injEq] at hverb'
  rwa [hverb']

/-! ## The shorthands -/

lemma parse_shorthand (h : s.schemaValid) {short fields : List (String × Value)} {i : Nat}
    {verb : String} {body : WorkflowStepBody} (hshort : fromShortForm (.obj short) i = .obj fields)
    (hid : field? "id" fields = some (.str s.id))
    (hscope : field? "scope" fields = some .null)
    (hflag : field? "requires_confirmation" fields = none)
    (hverb : field? "verb" fields = some (.str verb))
    (hbody : WorkflowStepBody.read (fun key => field? key fields) verb = some body) :
    WorkflowStep.parse (fromShortForm (.obj short) i) = some ⟨s.id, none, false, body⟩ := by
  rw [hshort]
  refine (WorkflowStep.read_eq_some_iff (fun key => field? key fields) _).2
    ⟨?_, ?_, ?_, verb, ?_, hbody, fun hf => by cases hf⟩
  · simp [required, hid, parseStringWhere, (WorkflowStep.schemaValid_header h).1]
  · simp [required, hscope, nullable]
  · simp [withDefault, hflag]
  · simp [required, hverb, parseString]

variable {annotations : ConfirmationAnnotations}

lemma parse_navigate_shorthand (h : s.schemaValid) {url : LiteralValue}
    (hbody : s.body = .navigate annotations url) (i : Nat) :
    WorkflowStep.parse
        (fromShortForm (.obj [("id", .str s.id), ("navigate", url.toValue)]) i) =
      some ⟨s.id, none, false, .navigate {} url⟩ := by
  have hread := WorkflowStep.schemaValid_body h "navigate"
    (by simp [WorkflowStep.fields, hbody, WorkflowStepBody.fields, ConfirmationAnnotations.fields,
      field?])
  have hurl : parseLiteral url.toValue = some url := by
    simp only [WorkflowStepBody.read, bind_eq_bind, bind_eq_some_iff] at hread
    obtain ⟨a, -, u, hu, heq⟩ := hread
    rw [hbody] at heq
    simp only [some.injEq, WorkflowStepBody.navigate.injEq] at heq
    rw [heq.2] at hu
    simpa [required, WorkflowStep.fields, hbody, WorkflowStepBody.fields,
      ConfirmationAnnotations.fields, field?] using hu
  refine parse_shorthand h rfl rfl rfl rfl rfl ?_
  simp [WorkflowStepBody.read, parseConfirmationAnnotations, required, withDefault, field?,
    hurl]

variable {locator : String}

lemma parse_click_shorthand (h : s.schemaValid) (hbody : s.body = .click annotations locator)
    (i : Nat) :
    WorkflowStep.parse (fromShortForm (.obj [("id", .str s.id), ("click", .str locator)]) i) =
      some ⟨s.id, none, false, .click {} locator⟩ := by
  have hread := WorkflowStep.schemaValid_body h "click"
    (by simp [WorkflowStep.fields, hbody, WorkflowStepBody.fields, ConfirmationAnnotations.fields,
      field?])
  have hlocator : parseNonempty (.str locator) = some locator := by
    simp only [WorkflowStepBody.read, bind_eq_bind, bind_eq_some_iff] at hread
    obtain ⟨a, -, l, hl, heq⟩ := hread
    rw [hbody] at heq
    simp only [some.injEq, WorkflowStepBody.click.injEq] at heq
    rw [heq.2] at hl
    simpa [required, WorkflowStep.fields, hbody, WorkflowStepBody.fields,
      ConfirmationAnnotations.fields, field?] using hl
  refine parse_shorthand h rfl rfl rfl rfl rfl ?_
  simp [WorkflowStepBody.read, parseConfirmationAnnotations, required, withDefault, field?,
    hlocator]

lemma parse_fill_shorthand (h : s.schemaValid) {value : LiteralValue} {submit : Bool}
    (hbody : s.body = .fill annotations locator value submit) (i : Nat) :
    WorkflowStep.parse (fromShortForm (.obj [("id", .str s.id),
        ("fill", .obj [("to", .str locator), ("value", value.toValue)])]) i) =
      some ⟨s.id, none, false, .fill {} locator value false⟩ := by
  have hread := WorkflowStep.schemaValid_body h "fill"
    (by simp [WorkflowStep.fields, hbody, WorkflowStepBody.fields, ConfirmationAnnotations.fields,
      field?])
  have hkeys : parseNonempty (.str locator) = some locator ∧
      parseLiteral value.toValue = some value := by
    simp only [WorkflowStepBody.read, bind_eq_bind, bind_eq_some_iff] at hread
    obtain ⟨a, -, l, hl, v, hv, b, -, heq⟩ := hread
    rw [hbody] at heq
    simp only [some.injEq, WorkflowStepBody.fill.injEq] at heq
    rw [heq.2.1] at hl
    rw [heq.2.2.1] at hv
    constructor
    · simpa [required, WorkflowStep.fields, hbody, WorkflowStepBody.fields,
        ConfirmationAnnotations.fields, field?] using hl
    · simpa [required, WorkflowStep.fields, hbody, WorkflowStepBody.fields,
        ConfirmationAnnotations.fields, field?] using hv
  refine parse_shorthand h rfl rfl rfl rfl rfl ?_
  simp [WorkflowStepBody.read, parseConfirmationAnnotations, required, withDefault, field?,
    parseBool, hkeys.1, hkeys.2]

lemma parse_waitFor_shorthand (h : s.schemaValid) (hbody : s.body = .waitFor locator .visible none)
    (i : Nat) :
    WorkflowStep.parse (fromShortForm (.obj [("id", .str s.id), ("wait_for", .str locator)]) i) =
      some ⟨s.id, none, false, .waitFor locator .visible none⟩ := by
  have hread := WorkflowStep.schemaValid_body h "wait_for"
    (by simp [WorkflowStep.fields, hbody, WorkflowStepBody.fields, field?])
  have hlocator : parseNonempty (.str locator) = some locator := by
    simp only [WorkflowStepBody.read, bind_eq_bind, bind_eq_some_iff] at hread
    obtain ⟨l, hl, st, -, t, -, heq⟩ := hread
    rw [hbody] at heq
    simp only [some.injEq, WorkflowStepBody.waitFor.injEq] at heq
    rw [heq.1] at hl
    simpa [required, WorkflowStep.fields, hbody, WorkflowStepBody.fields, field?] using hl
  refine parse_shorthand h rfl rfl rfl rfl rfl ?_
  simp [WorkflowStepBody.read, required, field?, parseEnum, waitStates, nullable, hlocator]

lemma survives_iff_of_read (annotations : ConfirmationAnnotations)
    (hshort : s.shorthandAnnotations = some annotations) {read : WorkflowStep}
    (hread : read = s ↔ s.requiresConfirmation = false ∧ annotations = {}) :
    some read = some s ↔ s.SurvivesShorthand := by
  rw [some.injEq, hread]
  constructor
  · rintro h a ha
    rw [hshort] at ha
    rwa [← some.inj ha]
  · exact fun h => h annotations hshort

/-- An accepted step survives its shorthand exactly when it has no flag and no annotation, or is
written out in full. -/
theorem parse_fromShortForm_toShortForm_iff (h : s.schemaValid) (i : Nat) :
    WorkflowStep.parse (fromShortForm (toShortForm s) i) = some s ↔ s.SurvivesShorthand := by
  obtain ⟨id, scope, flag, body⟩ := s
  have hfull : ∀ s : WorkflowStep, s.schemaValid → toShortForm s = s.toValue →
      s.shorthandAnnotations = none →
      (WorkflowStep.parse (fromShortForm (toShortForm s) i) = some s ↔ s.SurvivesShorthand) := by
    intro s hs hshort hnone
    rw [hshort, fromShortForm_toValue]
    simp only [WorkflowStep.SurvivesShorthand, hnone, reduceCtorEq, false_implies, implies_true,
      iff_true]
    exact hs
  cases scope with
  | some scope => exact hfull _ h rfl rfl
  | none =>
    cases body with
    | navigate annotations url =>
      rw [show toShortForm _ = _ from rfl]
      refine (Eq.congr_left (parse_navigate_shorthand h rfl i)).trans
        (survives_iff_of_read annotations rfl ?_)
      simp [eq_comm]
    | click annotations locator =>
      refine (Eq.congr_left (parse_click_shorthand h rfl i)).trans
        (survives_iff_of_read annotations rfl ?_)
      simp [eq_comm]
    | fill annotations locator value submit =>
      cases submit with
      | true => exact hfull _ h rfl rfl
      | false =>
        refine (Eq.congr_left (parse_fill_shorthand h rfl i)).trans
          (survives_iff_of_read annotations rfl ?_)
        simp [eq_comm]
    | waitFor locator state timeoutMs =>
      by_cases hdefault : state ≠ .visible ∨ timeoutMs ≠ none
      · exact hfull _ h (by simp [toShortForm, hdefault]) rfl
      · simp only [not_or, ne_eq, not_not] at hdefault
        obtain ⟨rfl, rfl⟩ := hdefault
        have hflag : flag = false := by
          by_contra hf
          have hlegal := (WorkflowStep.schemaValid_header h).2 (by simpa using hf)
          simp [WorkflowStepBody.verb, confirmableStepTypes] at hlegal
        subst hflag
        refine iff_of_true (parse_waitFor_shorthand h rfl i) ?_
        intro a ha
        simp [WorkflowStep.shorthandAnnotations] at ha
    | _ => exact hfull _ h rfl rfl

/-! ## The emitted keys -/

lemma field?_append (key : String) (a b : List (String × Value)) :
    field? key (a ++ b) = (field? key a).or (field? key b) := by
  induction a with
  | nil => rfl
  | cons kv a ih =>
    simp only [cons_append, field?]
    split_ifs
    · rfl
    · exact ih

lemma field?_keyUnless (key key' : String) (isDefault : Bool) (v : Value) :
    field? key (keyUnless isDefault key' v) =
      if key' = key ∧ isDefault = false then some v else none := by
  unfold keyUnless
  cases isDefault <;> simp [field?]

lemma field?_filterMap (key : String) (keys : List String) (obj : List (String × Value)) :
    field? key (keys.filterMap fun k => (field? k obj).map fun v => (k, v)) =
      if key ∈ keys then field? key obj else none := by
  induction keys with
  | nil => rfl
  | cons k keys ih =>
    rw [filterMap_cons]
    by_cases hk : k = key
    · subst hk
      cases hv : field? k obj with
      | none => simp [ih, hv]
      | some v => simp [field?]
    · have hk' : key ≠ k := fun h => hk h.symm
      cases field? k obj <;> simp [ih, field?, hk, hk', mem_cons]

lemma field?_filter (key : String) (keep : String → Bool) (obj : List (String × Value)) :
    field? key (obj.filter fun kv => keep kv.1) =
      if keep key then field? key obj else none := by
  induction obj with
  | nil => simp [field?]
  | cons kv obj ih =>
    by_cases hk : kv.1 = key
    · by_cases hkeep : keep key
      · simp [field?, hk, hkeep]
      · simp [hk, hkeep, ih]
    · by_cases hkeep : keep kv.1
      · simp [field?, hk, hkeep, ih]
      · simp [field?, hk, hkeep, ih]

lemma field?_buildOrderedObject (key : String) (obj : List (String × Value)) :
    field? key (buildOrderedObject obj) = field? key obj := by
  rw [buildOrderedObject, field?_append, field?_filterMap,
    field?_filter key fun k => !keyOrder.contains k]
  by_cases hkey : key ∈ keyOrder <;> simp [hkey]

lemma field?_desugared (key : String) (fields : List (String × Value)) :
    field? key (fields.map fun kv => (kv.1, desugarEntry kv.1 kv.2)) =
      (field? key fields).map (desugarEntry key) := by
  induction fields with
  | nil => rfl
  | cons kv fields ih =>
    by_cases hk : kv.1 = key
    · simp [field?, hk]
    · simpa [field?, hk] using ih

/-- How the parser reads the emitted document. -/
def emittedLookup (w : WorkflowFile) (opts : EmitOptions) : Lookup :=
  fun key => (Value.field? key (emittedFields w opts)).map (desugarEntry key)

lemma parse_desugarSteps_emittedDocument (w : WorkflowFile) (opts : EmitOptions) :
    parse (desugarSteps (emittedDocument w opts)) =
      read (emittedLookup w opts) := by
  simp only [emittedDocument, desugarSteps, parse, parseObject, field?_desugared,
    field?_buildOrderedObject]
  rfl

variable {key : String}

variable {v : Value} {α : Type}

lemma withDefault_of_omitted {get get' : Lookup} {d a : α} {p : Parser α} {isDefault : Bool}
    (hget : get' key = if isDefault = false then some v else none) (hmemory : get key = some v)
    (h : withDefault get key d p = some a) (hd : isDefault → a = d) :
    withDefault get' key d p = some a := by
  cases hc : isDefault with
  | false =>
    simp only [hc, if_true] at hget
    simpa only [withDefault, hget, hmemory] using h
  | true =>
    simp only [hc, Bool.true_eq_false, if_false] at hget
    simp [withDefault, hget, hd hc]

/-! ## The steps of the file -/

lemma forall₂_desugarFrom_iff (steps : List WorkflowStep) (index : Nat)
    (R : Value → WorkflowStep → Prop) :
    Forall₂ R (desugarFrom index (steps.map toShortForm)) steps ↔
      ∀ (i : Nat) (step : WorkflowStep), steps[i]? = some step →
        R (fromShortForm (toShortForm step) (index + i)) step := by
  induction steps generalizing index with
  | nil => simp [desugarFrom]
  | cons s steps ih =>
    simp only [map_cons, desugarFrom, forall₂_cons, ih]
    constructor
    · rintro ⟨hs, hrest⟩ i step hi
      cases i with
      | zero =>
        obtain rfl := some.inj hi
        exact hs
      | succ i =>
        have h := hrest i step hi
        rwa [Nat.add_right_comm] at h
    · intro h
      refine ⟨h 0 s rfl, fun i step hi => ?_⟩
      have h' := h (i + 1) step hi
      rwa [← Nat.add_assoc, Nat.add_right_comm] at h'

variable {steps : List WorkflowStep}

lemma schemaValid_of_parseSteps
    (h : parseSteps (arrayValue WorkflowStep.toValue steps) = some steps) :
    (∀ step ∈ steps, step.schemaValid) ∧ 1 ≤ steps.length ∧ steps.length ≤ 64 := by
  simp only [parseSteps, arrayValue, parseArray, filter_eq_some_iff, Bool.and_eq_true,
    decide_eq_true_eq] at h
  refine ⟨fun step hstep => ?_, h.2⟩
  have hall := (parseItems_eq_some_iff _ _ _).1 h.1
  rw [forall₂_map_left_iff] at hall
  obtain ⟨i, hi⟩ := mem_iff_getElem?.1 hstep
  have hlt := (List.getElem?_eq_some_iff.1 hi).choose
  have hparse : WorkflowStep.parse steps[i].toValue = some steps[i] :=
    (forall₂_iff_get.1 hall).2 i hlt hlt
  rwa [(List.getElem?_eq_some_iff.1 hi).choose_spec] at hparse

lemma parseSteps_desugarFrom_iff
    (h : parseSteps (arrayValue WorkflowStep.toValue steps) = some steps) :
    parseSteps (.arr (desugarFrom 0 (steps.map toShortForm))) = some steps ↔
      ∀ (i : Nat) (step : WorkflowStep), steps[i]? = some step →
        WorkflowStep.parse (fromShortForm (toShortForm step) i) = some step := by
  obtain ⟨-, hlength⟩ := schemaValid_of_parseSteps h
  simp only [parseSteps, parseArray, filter_eq_some_iff, Bool.and_eq_true,
    decide_eq_true_eq, parseItems_eq_some_iff]
  rw [and_iff_left hlength, forall₂_desugarFrom_iff steps 0
    fun v step => WorkflowStep.parse v = some step]
  simp

/-! ## The file -/

lemma field?_emittedLocators (key : String) (w : WorkflowFile) (opts : EmitOptions)
    (hkey : key ≠ "_locators_ref") :
    field? key (emittedLocators w opts) =
      if key = "_locators" ∧ (opts.useSidecar w || w.locators.isEmpty) = false then
        some (locatorsValue w.locators)
      else none := by
  unfold emittedLocators
  cases opts.useSidecar w with
  | true => simp [field?, hkey.symm]
  | false => simp [field?_keyUnless, eq_comm (a := key)]

lemma emittedLookup_of_ne (hkey : key ≠ "steps") (w : WorkflowFile) (opts : EmitOptions) :
    emittedLookup w opts key = field? key (emittedFields w opts) := by
  have hid : desugarEntry key = id := by
    funext v
    simp [desugarEntry, hkey]
  rw [emittedLookup, hid, Option.map_id, id]

variable {w : WorkflowFile}

variable {opts : EmitOptions}

/-- A declaration of the emitted document, left out at most at its default, is read as in
memory. -/
lemma withDefault_emitted {d a : α} {p : Parser α} (isDefault : Bool) (hne : key ≠ "steps")
    (hemit : field? key (emittedFields w opts) = if isDefault = false then some v else none)
    (hmemory : field? key w.fields = some v)
    (h : withDefault (fun key => field? key w.fields) key d p = some a)
    (hd : isDefault → a = d) : withDefault (emittedLookup w opts) key d p = some a :=
  withDefault_of_omitted ((emittedLookup_of_ne hne w opts).trans hemit) hmemory h hd

lemma withDefault_emitted_head (h : w.schemaValid) (opts : EmitOptions) :
    withDefault (emittedLookup w opts) "security_class" .public (parseEnum securityScopes) =
        some w.securityClass ∧
      withDefault (emittedLookup w opts) "recorded_with" none (nullable parseRecordedWith) =
        some w.recordedWith ∧
      withDefault (emittedLookup w opts) "params" []
        (parseRecord matchesParamKeyPattern parseParamDeclaration) = some w.params ∧
      withDefault (emittedLookup w opts) "secrets" []
        (parseArray (parseStringWhere matchesSecretKeyPattern)) = some w.secrets ∧
      withDefault (emittedLookup w opts) "cookies" .none (parseEnum cookieModes) =
        some w.cookies := by
  obtain ⟨-, -, -, hclass, hrecorded, hparams, hsecrets, hcookies, -⟩ :=
    (read_eq_some_iff _ _).1 h
  refine ⟨withDefault_emitted false (by decide) ?_ rfl hclass (by simp),
    withDefault_emitted w.recordedWith.isNone (by decide) ?_ rfl hrecorded (by simp),
    withDefault_emitted w.params.isEmpty (by decide) ?_ rfl hparams (by simp),
    withDefault_emitted w.secrets.isEmpty (by decide) ?_ rfl hsecrets (by simp),
    withDefault_emitted (decide (w.cookies = .none)) (by decide) ?_ rfl hcookies (by simp)⟩
  all_goals simp [emittedFields, field?_append, field?_keyUnless, field?_emittedLocators,
    field?]

lemma withDefault_emitted_tail (h : w.schemaValid) (opts : EmitOptions) :
    withDefault (emittedLookup w opts) "outputs" [] (parseArray parseWorkflowOutput) =
        some w.outputs ∧
      withDefault (emittedLookup w opts) "synthesis" none (nullable parseWorkflowSynthesis) =
        some w.synthesis ∧
      withDefault (emittedLookup w opts) "outputs_unredacted" false parseBool =
        some w.outputsUnredacted := by
  obtain ⟨-, -, -, -, -, -, -, -, -, houtputs, hsynthesis, hunredacted, -⟩ :=
    (read_eq_some_iff _ _).1 h
  refine ⟨withDefault_emitted w.outputs.isEmpty (by decide) ?_ rfl houtputs (by simp),
    withDefault_emitted w.synthesis.isNone (by decide) ?_ rfl hsynthesis (by simp),
    withDefault_emitted (!w.outputsUnredacted) (by decide) ?_ rfl hunredacted (by simp)⟩
  all_goals simp [emittedFields, field?_append, field?_keyUnless, field?_emittedLocators,
    field?]

/-- The named locators of an accepted workflow are read back exactly when none is written
apart. -/
lemma withDefault_emitted_locators_iff (h : w.schemaValid) (opts : EmitOptions) :
    withDefault (emittedLookup w opts) "_locators" [] parseLocators = some w.locators ↔
      (opts.useSidecar w → w.locators = []) := by
  obtain ⟨-, -, -, -, -, -, -, -, -, -, -, -, -, hlocators⟩ :=
    (read_eq_some_iff _ _).1 h
  have hmemory : field? "_locators" w.fields = some (locatorsValue w.locators) := by
    simp [fields, field?]
  have hemit : field? "_locators" (emittedFields w opts) =
      if (opts.useSidecar w || w.locators.isEmpty) = false then some (locatorsValue w.locators)
      else none := by
    simp [emittedFields, field?_append, field?_keyUnless, field?_emittedLocators, field?]
  cases hside : opts.useSidecar w with
  | false =>
    rw [hside, Bool.false_or] at hemit
    exact iff_of_true (withDefault_emitted w.locators.isEmpty (by decide) hemit hmemory hlocators
      (by simp)) (by simp)
  | true =>
    rw [hside, Bool.true_or] at hemit
    simp only [withDefault, emittedLookup_of_ne (show "_locators" ≠ "steps" by decide), hemit]
    simp [eq_comm]

/-- An accepted workflow is read back from the emitted document exactly when its steps are, no
frame was recorded as missing, and no locator is written apart.

**Proof sketch.** Key by key: a declaration left out is at its default, one written is read as in
memory; the frames are never written, and the locators only when not written apart. -/
lemma read_emittedLookup_iff {w : WorkflowFile} (h : w.schemaValid) (opts : EmitOptions) :
    read (emittedLookup w opts) = some w ↔
      (∀ (i : Nat) (step : WorkflowStep), w.steps[i]? = some step →
        WorkflowStep.parse (fromShortForm (toShortForm step) i) = some step) ∧
      w.unrecordedFrames = [] ∧ (opts.useSidecar w → w.locators = []) := by
  obtain ⟨hversion, hname, hdescription, -, -, -, -, -, hsteps, -⟩ :=
    (read_eq_some_iff _ _).1 h
  obtain ⟨hclass, hrecorded, hparams, hsecrets, hcookies⟩ := withDefault_emitted_head h opts
  obtain ⟨houtputs, hsynthesis, hunredacted⟩ := withDefault_emitted_tail h opts
  have hwritten : ∀ {α : Type} {key : String} {p : Parser α} {a : α},
      key ∈ ["version", "name", "description"] →
      required (fun key => field? key w.fields) key p = some a →
      required (emittedLookup w opts) key p = some a := by
    intro α key p a hkey hp
    simp only [mem_cons, not_mem_nil, or_false] at hkey
    rcases hkey with rfl | rfl | rfl <;>
      simpa [required, emittedLookup_of_ne, emittedFields, fields, field?]
        using hp
  have hsteps' : required (emittedLookup w opts) "steps" parseSteps =
      parseSteps (.arr (desugarFrom 0 (w.steps.map toShortForm))) := by
    simp [required, emittedLookup, emittedFields, field?_append, field?_keyUnless, field?,
      desugarEntry, arrayValue]
  have hframes' : withDefault (emittedLookup w opts) "_unrecorded_frames" []
      (parseArray parseString) = some [] := by
    have hnone : emittedLookup w opts "_unrecorded_frames" = none := by
      rw [emittedLookup_of_ne (by decide)]
      simp [emittedFields, field?_append, field?_keyUnless, field?_emittedLocators, field?]
    simp [withDefault, hnone]
  have hsteps : parseSteps (arrayValue WorkflowStep.toValue w.steps) = some w.steps := by
    simpa [required, fields, field?] using hsteps
  rw [read_eq_some_iff, withDefault_emitted_locators_iff h opts, hsteps',
    parseSteps_desugarFrom_iff hsteps, hframes', Option.some.injEq, eq_comm (a := [])]
  constructor
  · rintro ⟨-, -, -, -, -, -, -, -, hshort, -, -, -, hframes, hlocators⟩
    exact ⟨hshort, hframes, hlocators⟩
  · rintro ⟨hshort, hframes, hlocators⟩
    exact ⟨hwritten (by simp) hversion, hwritten (by simp) hname, hwritten (by simp) hdescription,
      hclass, hrecorded, hparams, hsecrets, hcookies, hshort, houtputs, hsynthesis, hunredacted,
      hframes, hlocators⟩

variable {yaml : YamlLibrary}

lemma parseWorkflowYaml_emitWorkflow (hyaml : yaml.RoundTrips w opts) :
    parseWorkflowYaml yaml (emitWorkflow yaml w opts).yaml =
      match read (emittedLookup w opts) with
      | some w' => .ok w'
      | none => .error .schemaInvalid := by
  have hparsed : yaml.parse (emitWorkflow yaml w opts).yaml = .ok (emittedDocument w opts) :=
    hyaml.parse_comments.trans hyaml.parse_print
  cases hread : read (emittedLookup w opts) with
  | none => simp [parseWorkflowYaml, hparsed, parse_desugarSteps_emittedDocument, hread]
  | some w' => simp [parseWorkflowYaml, hparsed, parse_desugarSteps_emittedDocument, hread]

/-- Parsing what was emitted gives the workflow back exactly when the emitted document is read as
the workflow. -/
lemma parseWorkflowYaml_emitWorkflow_iff (hyaml : yaml.RoundTrips w opts) :
    parseWorkflowYaml yaml (emitWorkflow yaml w opts).yaml = .ok w ↔
      read (emittedLookup w opts) = some w := by
  rw [parseWorkflowYaml_emitWorkflow hyaml]
  cases read (emittedLookup w opts) <;> simp

/-- The steps of an accepted workflow come back from their shorthand exactly when each has nothing
it forgets. -/
lemma steps_survive_iff (h : w.schemaValid) :
    (∀ (i : Nat) (step : WorkflowStep), w.steps[i]? = some step →
        WorkflowStep.parse (fromShortForm (toShortForm step) i) = some step) ↔
      ∀ step ∈ w.steps, step.SurvivesShorthand := by
  have hvalid : ∀ step ∈ w.steps, step.schemaValid := by
    obtain ⟨-, -, -, -, -, -, -, -, hsteps, -⟩ := (read_eq_some_iff _ _).1 h
    exact (schemaValid_of_parseSteps hsteps).1
  constructor
  · intro hall step hstep
    obtain ⟨i, hi⟩ := mem_iff_getElem?.1 hstep
    exact (parse_fromShortForm_toShortForm_iff (hvalid step hstep) i).1 (hall i step hi)
  · intro hall i step hi
    have hstep := mem_of_getElem? hi
    exact (parse_fromShortForm_toShortForm_iff (hvalid step hstep) i).2 (hall step hstep)

/-- **A save is lossless exactly when the workflow has nothing a save forgets**: no flag or
annotation on a step that is written in shorthand, no unrecorded frame, no locator written apart.

**Proof sketch.** The library hands the parser the document that was printed. Read key by key, it
gives the workflow back when the steps, the frames and the locators come back; and an accepted
step comes back from its shorthand when the shorthand has a place for all it says. -/
theorem losslessSave_iff (yaml : YamlLibrary) (w : WorkflowFile) (opts : EmitOptions)
    (h : w.schemaValid) (hyaml : yaml.RoundTrips w opts) :
    LosslessSave yaml w opts ↔ SavesEverything w opts := by
  rw [LosslessSave, parseWorkflowYaml_emitWorkflow_iff hyaml, read_emittedLookup_iff h opts,
    SavesEverything, ← steps_survive_iff h]
  exact and_iff_left_of_imp fun hfile => hfile.1

/-- A library that knows one document: how it is printed, and the text around it. -/
def oneDocumentLibrary (printed : String) (w : WorkflowFile) : YamlLibrary where
  print := fun _ => printed
  parse := fun text =>
    if text = printed ∨ text = emittedText w {} printed then .ok (emittedDocument w {})
    else .error "unexpected text"

lemma oneDocumentLibrary_roundTrips (printed : String) (w : WorkflowFile) :
    (oneDocumentLibrary printed w).RoundTrips w {} := by
  constructor <;> simp [oneDocumentLibrary]

/-- A click on a payment that asks for confirmation, and a wait for the receipt. The click has a
scope of its own. -/
def scopedPayment : WorkflowFile where
  name := "pay"
  steps :=
    [⟨"s1", some .authenticated, true, .click {} "Pay"⟩,
      ⟨"s2", none, false, .waitFor "Receipt" .visible none⟩]
  locators := [("Pay", [.testid "pay"]), ("Receipt", [.label "Receipt"])]

/-- How the library prints it. -/
def scopedPaymentYaml : String :=
  "version: 1
name: pay
description: null
security_class: public
steps:
  - id: s1
    scope: authenticated
    requires_confirmation: true
    confirmation_description: null
    expected_cost: null
    consequence: null
    verb: click
    locator: Pay
  - id: s2
    wait_for: Receipt
_locators:
  Pay:
    - kind: testid
      value: pay
  Receipt:
    - kind: label
      value: Receipt
"

theorem losslessSave_iff_scopedPayment :
    scopedPayment.schemaValid ∧
      (oneDocumentLibrary scopedPaymentYaml scopedPayment).RoundTrips scopedPayment {} ∧
      SavesEverything scopedPayment {} ∧
      LosslessSave (oneDocumentLibrary scopedPaymentYaml scopedPayment) scopedPayment {} := by
  have hvalid : scopedPayment.schemaValid := rfl
  have hyaml := oneDocumentLibrary_roundTrips scopedPaymentYaml scopedPayment
  have hsaves : SavesEverything scopedPayment {} := by
    refine ⟨?_, rfl, by decide⟩
    intro step hstep annotations hshort
    simp only [scopedPayment, List.mem_cons, List.not_mem_nil, or_false] at hstep
    rcases hstep with rfl | rfl <;> simp [WorkflowStep.shorthandAnnotations] at hshort
  exact ⟨hvalid, hyaml, hsaves, (losslessSave_iff _ _ _ hvalid hyaml).2 hsaves⟩

/-- The same click without a scope of its own. -/
def payment : WorkflowFile where
  name := "pay"
  steps := [⟨"s1", none, true, .click {} "Pay"⟩]
  locators := [("Pay", [.testid "pay"])]

/-- How the library prints it. -/
def paymentYaml : String :=
  "version: 1
name: pay
description: null
security_class: public
steps:
  - id: s1
    click: Pay
_locators:
  Pay:
    - kind: testid
      value: pay
"

/-- The schema accepts the workflow, and after a save the click asks for no confirmation. -/
theorem shorthand_drops_confirmation :
    payment.schemaValid ∧ (oneDocumentLibrary paymentYaml payment).RoundTrips payment {} ∧
      parseWorkflowYaml (oneDocumentLibrary paymentYaml payment)
          (emitWorkflow (oneDocumentLibrary paymentYaml payment) payment).yaml =
        .ok { payment with steps := [⟨"s1", none, false, .click {} "Pay"⟩] } ∧
      ¬ LosslessSave (oneDocumentLibrary paymentYaml payment) payment {} := by
  have hparse : parseWorkflowYaml (oneDocumentLibrary paymentYaml payment)
      (emitWorkflow (oneDocumentLibrary paymentYaml payment) payment).yaml =
        .ok { payment with steps := [⟨"s1", none, false, .click {} "Pay"⟩] } := by
    have hread : WorkflowFile.read (emittedLookup payment {}) =
        some { payment with steps := [⟨"s1", none, false, .click {} "Pay"⟩] } := rfl
    rw [parseWorkflowYaml_emitWorkflow (oneDocumentLibrary_roundTrips _ _), hread]
  refine ⟨rfl, oneDocumentLibrary_roundTrips _ _, hparse, ?_⟩
  rintro ⟨hlossless, -⟩
  rw [hparse] at hlossless
  simp [payment] at hlossless

end Yantra
