import Yantra.Protocol.Schema

/-!
# Workflow files

A saved workflow: its steps, which name their locators and write values as text or templates, and
the declarations around them. `WorkflowFile.parse` is what the workflow schema makes of plain
data, `WorkflowFile.toValue` the plain data of a workflow in memory.

## Main definitions

* `WorkflowStep`, `WorkflowFile` — the workflow.
* `WorkflowStep.schemaValid`, `WorkflowFile.schemaValid` — what it accepts as it is.

## Main results

* `WorkflowFile.read_eq_some_iff` — a workflow is accepted key by key.
-/

namespace Yantra

/-! ## The parts of a workflow -/

/-- How an accessible name is matched. -/
inductive LocatorName where
  | text (name : String)
  | regex (pattern flags : String)
  deriving DecidableEq, Repr, Inhabited

inductive LocatorCandidate where
  | role (role : RoleEnum) (name : LocatorName)
  | testid (value : String)
  | label (value : String)
  | placeholder (value : String)
  | css (value : String)
  | xpath (value : String)
  deriving DecidableEq, Repr, Inhabited

inductive ParamType where
  | string | number | boolean | date
  deriving DecidableEq, Repr, Inhabited

structure ParamDeclaration where
  type : ParamType
  «example» : Option String := none
  required : Bool := true
  deriving DecidableEq, Repr, Inhabited

inductive WorkflowStepBody where
  | navigate (annotations : ConfirmationAnnotations) (url : LiteralValue)
  | click (annotations : ConfirmationAnnotations) (locator : String)
  | fill (annotations : ConfirmationAnnotations) (locator : String) (value : LiteralValue)
      (submit : Bool)
  | fillElement (annotations : ConfirmationAnnotations) (fieldName : String)
      (fieldLabelOrigin : Option FieldLabelOrigin) (locator : String) (value : LiteralValue)
  | extract (locator : String) (extractionSchema : ExtractionSchema) (captureAs : String)
  | waitFor (locator : String) (state : WaitState) (timeoutMs : Option Nat)
  | assert (locator : String) (condition : AssertCondition)
  | branch (condition : String) (thenStepId : String) (elseStepId : Option String)
  | loop («over» as : String) (bodyStepIds : List String) (maxIterations : Nat)
  | callWorkflow (workflowName : String) (params : List (String × LiteralValue))
      (captureAs : Option String)
  | llmSummarize (input prompt outputAs : String)
  deriving Repr, Inhabited

structure WorkflowStep where
  id : String
  scope : Option SecurityScope := none
  requiresConfirmation : Bool := false
  body : WorkflowStepBody
  deriving Repr, Inhabited

def WorkflowStepBody.verb : WorkflowStepBody → StepVerb
  | .navigate .. => .navigate
  | .click .. => .click
  | .fill .. => .fill
  | .fillElement .. => .fillElement
  | .extract .. => .extract
  | .waitFor .. => .waitFor
  | .assert .. => .assert
  | .branch .. => .branch
  | .loop .. => .loop
  | .callWorkflow .. => .callWorkflow
  | .llmSummarize .. => .llmSummarize

structure WorkflowOutput where
  name : String
  «from» : String
  deriving DecidableEq, Repr, Inhabited

inductive SynthesisLength where
  | short | medium | long
  deriving DecidableEq, Repr, Inhabited

/-- How deep a synthesized Brief goes. -/
inductive SynthesisDetail where
  | overview | standard | full
  deriving DecidableEq, Repr, Inhabited

structure WorkflowSynthesis where
  goal : String
  length : SynthesisLength := .medium
  detail : SynthesisDetail := .standard
  useLlm : Bool := false
  deriving DecidableEq, Repr, Inhabited

structure RecordedWith where
  chromeMajor : Nat
  yantraVersion : String
  deriving DecidableEq, Repr, Inhabited

inductive CookieMode where
  | auto | none
  deriving DecidableEq, Repr, Inhabited

structure WorkflowFile where
  name : String
  description : Option String := none
  securityClass : SecurityScope := .public
  recordedWith : Option RecordedWith := none
  params : List (String × ParamDeclaration) := []
  secrets : List String := []
  cookies : CookieMode := .none
  steps : List WorkflowStep
  outputs : List WorkflowOutput := []
  synthesis : Option WorkflowSynthesis := none
  outputsUnredacted : Bool := false
  unrecordedFrames : List String := []
  locators : List (String × List LocatorCandidate) := []
  deriving Repr, Inhabited

/-! ## Locators, params and outputs as plain data -/

/-- The plain data of a candidate. -/
def LocatorCandidate.toValue : LocatorCandidate → Value
  | .role ariaRole (.text name) =>
      .obj [("kind", .str "role"), ("role", enumValue roles ariaRole), ("name", .str name)]
  | .role ariaRole (.regex pattern flags) =>
      .obj [("kind", .str "role"), ("role", enumValue roles ariaRole),
        ("name", .obj [("pattern", .str pattern), ("flags", .str flags)])]
  | .testid value => .obj [("kind", .str "testid"), ("value", .str value)]
  | .label value => .obj [("kind", .str "label"), ("value", .str value)]
  | .placeholder value => .obj [("kind", .str "placeholder"), ("value", .str value)]
  | .css value => .obj [("kind", .str "css"), ("value", .str value)]
  | .xpath value => .obj [("kind", .str "xpath"), ("value", .str value)]

/-- A string, or `RegexShape`. -/
def parseLocatorName : Parser LocatorName
  | .str name => some (.text name)
  | v => v |> parseObject fun get => do
      let pattern ← required get "pattern" parseString
      let flags ← withDefault get "flags" "" parseString
      some (.regex pattern flags)

/-- `LocatorCandidate` -/
def parseLocatorCandidate : Parser LocatorCandidate :=
  parseObject fun get => do
    let kind ← required get "kind" parseString
    match kind with
    | "role" => do
      let role ← required get "role" (parseEnum roles)
      let name ← required get "name" parseLocatorName
      some (.role role name)
    | "testid" => (required get "value" parseString).map .testid
    | "label" => (required get "value" parseString).map .label
    | "placeholder" => (required get "value" parseString).map .placeholder
    | "css" => (required get "value" parseString).map .css
    | "xpath" => (required get "value" parseString).map .xpath
    | _ => none

def paramTypes : List (String × ParamType) :=
  [("string", .string), ("number", .number), ("boolean", .boolean), ("date", .date)]

def ParamDeclaration.toValue (d : ParamDeclaration) : Value :=
  .obj [("type", enumValue paramTypes d.type), ("example", nullableValue .str d.example),
    ("required", .bool d.required)]

/-- `ParamDeclaration` -/
def parseParamDeclaration : Parser ParamDeclaration :=
  parseObject fun get => do
    let type ← required get "type" (parseEnum paramTypes)
    let sample ← withDefault get "example" none (nullable parseString)
    let isRequired ← withDefault get "required" true parseBool
    some ⟨type, sample, isRequired⟩

/-- The plain data of an output. -/
def WorkflowOutput.toValue (o : WorkflowOutput) : Value :=
  .obj [("name", .str o.name), ("from", .str o.from)]

/-- `WorkflowOutput` -/
def parseWorkflowOutput : Parser WorkflowOutput :=
  parseObject fun get => do
    let name ← required get "name" (parseStringWhere matchesCaptureAliasPattern)
    let source ← required get "from" parseNonempty
    some ⟨name, source⟩

def synthesisLengths : List (String × SynthesisLength) :=
  [("short", .short), ("medium", .medium), ("long", .long)]

def synthesisDetails : List (String × SynthesisDetail) :=
  [("overview", .overview), ("standard", .standard), ("full", .full)]

/-- The plain data of a synthesis. -/
def WorkflowSynthesis.toValue (s : WorkflowSynthesis) : Value :=
  .obj [("goal", .str s.goal), ("length", enumValue synthesisLengths s.length),
    ("detail", enumValue synthesisDetails s.detail), ("use_llm", .bool s.useLlm)]

/-- `WorkflowSynthesis` -/
def parseWorkflowSynthesis : Parser WorkflowSynthesis :=
  parseObject fun get => do
    let goal ← required get "goal" (parseStringWhere fun s =>
      decide (1 ≤ JsText.utf16Length s) && decide (JsText.utf16Length s ≤ 512))
    let length ← withDefault get "length" .medium (parseEnum synthesisLengths)
    let detail ← withDefault get "detail" .standard (parseEnum synthesisDetails)
    let useLlm ← withDefault get "use_llm" false parseBool
    some ⟨goal, length, detail, useLlm⟩

/-- The plain data of the recording metadata. -/
def RecordedWith.toValue (r : RecordedWith) : Value :=
  .obj [("chrome_major", natValue r.chromeMajor), ("yantra_version", .str r.yantraVersion)]

/-- The schema of the recording metadata. -/
def parseRecordedWith : Parser RecordedWith :=
  parseObject fun get => do
    let chromeMajor ← required get "chrome_major" parsePositive
    let yantraVersion ← required get "yantra_version" parseNonempty
    some ⟨chromeMajor, yantraVersion⟩

def cookieModes : List (String × CookieMode) := [("auto", .auto), ("none", .none)]

/-! ## Steps as plain data -/

/-- The keys a verb adds to a step, its `verb` first. -/
def WorkflowStepBody.fields : WorkflowStepBody → List (String × Value)
  | .navigate annotations url =>
      annotations.fields ++ [("verb", .str "navigate"), ("url", url.toValue)]
  | .click annotations locator =>
      annotations.fields ++ [("verb", .str "click"), ("locator", .str locator)]
  | .fill annotations locator value submit =>
      annotations.fields ++ [("verb", .str "fill"), ("locator", .str locator),
        ("value", value.toValue), ("submit", .bool submit)]
  | .fillElement annotations fieldName fieldLabelOrigin locator value =>
      annotations.fields ++ [("verb", .str "fill_element"), ("field_name", .str fieldName)] ++
        (match fieldLabelOrigin with
          | none => []
          | some origin => [("field_label_origin", enumValue fieldLabelOrigins origin)]) ++
        [("locator", .str locator), ("value", value.toValue)]
  | .extract locator schema captureAs =>
      [("verb", .str "extract"), ("locator", .str locator), ("extraction_schema", schema.toValue),
        ("capture_as", .str captureAs)]
  | .waitFor locator state timeoutMs =>
      [("verb", .str "wait_for"), ("locator", .str locator), ("state", enumValue waitStates state),
        ("timeout_ms", nullableValue natValue timeoutMs)]
  | .assert locator condition =>
      [("verb", .str "assert"), ("locator", .str locator), ("condition", condition.toValue)]
  | .branch condition thenStepId elseStepId =>
      [("verb", .str "branch"), ("condition", .str condition), ("then_step_id", .str thenStepId),
        ("else_step_id", nullableValue .str elseStepId)]
  | .loop «over» as bodyStepIds maxIterations =>
      [("verb", .str "loop"), ("over", .str «over»), ("as", .str as),
        ("body_step_ids", arrayValue .str bodyStepIds),
        ("max_iterations", natValue maxIterations)]
  | .callWorkflow workflowName params captureAs =>
      [("verb", .str "call_workflow"), ("workflow_name", .str workflowName),
        ("params", recordValue LiteralValue.toValue params),
        ("capture_as", nullableValue .str captureAs)]
  | .llmSummarize input prompt outputAs =>
      [("verb", .str "llm_summarize"), ("input", .str input), ("prompt", .str prompt),
        ("output_as", .str outputAs)]

/-- The keys of a step in memory. -/
def WorkflowStep.fields (s : WorkflowStep) : List (String × Value) :=
  [("id", .str s.id), ("scope", nullableValue (enumValue securityScopes) s.scope),
    ("requires_confirmation", .bool s.requiresConfirmation)] ++ s.body.fields

/-- The plain data of a step. -/
def WorkflowStep.toValue (s : WorkflowStep) : Value := .obj s.fields

def WorkflowStepBody.read (get : Lookup) (verb : String) : Option WorkflowStepBody :=
  match verb with
  | "navigate" => do
    let annotations ← parseConfirmationAnnotations get
    let url ← required get "url" parseLiteral
    some (.navigate annotations url)
  | "click" => do
    let annotations ← parseConfirmationAnnotations get
    let locator ← required get "locator" parseNonempty
    some (.click annotations locator)
  | "fill" => do
    let annotations ← parseConfirmationAnnotations get
    let locator ← required get "locator" parseNonempty
    let value ← required get "value" parseLiteral
    let submit ← withDefault get "submit" false parseBool
    some (.fill annotations locator value submit)
  | "fill_element" => do
    let annotations ← parseConfirmationAnnotations get
    let fieldName ← required get "field_name" parseNonempty
    let origin ← optionalKey get "field_label_origin" (parseEnum fieldLabelOrigins)
    let locator ← required get "locator" parseNonempty
    let value ← required get "value" parseLiteral
    some (.fillElement annotations fieldName origin locator value)
  | "extract" => do
    let locator ← required get "locator" parseNonempty
    let schema ← required get "extraction_schema" parseExtractionSchema
    let captureAs ← required get "capture_as" (parseStringWhere matchesCaptureAliasPattern)
    some (.extract locator schema captureAs)
  | "wait_for" => do
    let locator ← required get "locator" parseNonempty
    let state ← required get "state" (parseEnum waitStates)
    let timeoutMs ← required get "timeout_ms" (nullable parsePositive)
    some (.waitFor locator state timeoutMs)
  | "assert" => do
    let locator ← required get "locator" parseNonempty
    let condition ← required get "condition" parseAssertCondition
    some (.assert locator condition)
  | "branch" => do
    let condition ← required get "condition" parseNonempty
    let thenStepId ← required get "then_step_id" (parseStringWhere matchesStepIdPattern)
    let elseStepId ← required get "else_step_id"
      (nullable (parseStringWhere matchesStepIdPattern))
    some (.branch condition thenStepId elseStepId)
  | "loop" => do
    let collection ← required get "over" parseNonempty
    let as ← required get "as" (parseStringWhere matchesParamKeyPattern)
    let bodyStepIds ← required get "body_step_ids"
      (parseArray (parseStringWhere matchesStepIdPattern))
    let maxIterations ← required get "max_iterations" parsePositive
    if bodyStepIds.isEmpty then none else some (.loop collection as bodyStepIds maxIterations)
  | "call_workflow" => do
    let workflowName ← required get "workflow_name" parseNonempty
    let params ← withDefault get "params" [] (parseRecord (fun _ => true) parseLiteral)
    let captureAs ← required get "capture_as"
      (nullable (parseStringWhere matchesCaptureAliasPattern))
    some (.callWorkflow workflowName params captureAs)
  | "llm_summarize" => do
    let input ← required get "input" parseNonempty
    let prompt ← required get "prompt" parseNonempty
    let outputAs ← required get "output_as" (parseStringWhere matchesCaptureAliasPattern)
    some (.llmSummarize input prompt outputAs)
  | _ => none

/-- What the schema makes of the keys of a step, the refinement on `requires_confirmation`
included. -/
def WorkflowStep.read (get : Lookup) : Option WorkflowStep := do
  let id ← required get "id" (parseStringWhere matchesStepIdPattern)
  let scope ← required get "scope" (nullable (parseEnum securityScopes))
  let requiresConfirmation ← withDefault get "requires_confirmation" false parseBool
  let verb ← required get "verb" parseString
  let body ← WorkflowStepBody.read get verb
  if requiresConfirmation && !confirmableStepTypes.contains body.verb then none
  else some ⟨id, scope, requiresConfirmation, body⟩

/-- `WorkflowStep` -/
def WorkflowStep.parse : Parser WorkflowStep := parseObject WorkflowStep.read

def WorkflowStep.schemaValid (s : WorkflowStep) : Prop := WorkflowStep.parse s.toValue = some s

/-! ## Workflows as plain data -/

/-- `/^[a-z][a-z0-9-]{0,63}$/` -/
def matchesWorkflowNamePattern (s : String) : Bool :=
  match s.toList with
  | c :: cs => isLowerLetter c && decide (cs.length ≤ 63) &&
      cs.all fun d => isLowerLetter d || isAsciiDigit d || d == '-'
  | [] => false

/-- The plain data of the named locators. -/
def locatorsValue (locators : List (String × List LocatorCandidate)) : Value :=
  recordValue (arrayValue LocatorCandidate.toValue) locators

/-- The keys of a workflow in memory. -/
def WorkflowFile.fields (w : WorkflowFile) : List (String × Value) :=
  [("version", .num "1"), ("name", .str w.name),
    ("description", nullableValue .str w.description),
    ("security_class", enumValue securityScopes w.securityClass),
    ("recorded_with", nullableValue RecordedWith.toValue w.recordedWith),
    ("params", recordValue ParamDeclaration.toValue w.params),
    ("secrets", arrayValue .str w.secrets),
    ("cookies", enumValue cookieModes w.cookies),
    ("steps", arrayValue WorkflowStep.toValue w.steps),
    ("outputs", arrayValue WorkflowOutput.toValue w.outputs),
    ("synthesis", nullableValue WorkflowSynthesis.toValue w.synthesis),
    ("outputs_unredacted", .bool w.outputsUnredacted),
    ("_unrecorded_frames", arrayValue .str w.unrecordedFrames),
    ("_locators", locatorsValue w.locators)]

/-- The plain data of a workflow. -/
def WorkflowFile.toValue (w : WorkflowFile) : Value := .obj w.fields

/-- `z.literal(1)` -/
def parseVersion : Parser Unit
  | .num text => if text = "1" then some () else none
  | _ => none

def parseSteps : Parser (List WorkflowStep) := fun v =>
  (parseArray WorkflowStep.parse v).filter fun steps =>
    decide (1 ≤ steps.length) && decide (steps.length ≤ 64)

/-- The schema of the named locators. -/
def parseLocators : Parser (List (String × List LocatorCandidate)) :=
  parseRecord (fun key => !key.isEmpty) (parseArray parseLocatorCandidate)

def WorkflowFile.read (get : Lookup) : Option WorkflowFile := do
  let _ ← required get "version" parseVersion
  let name ← required get "name" (parseStringWhere matchesWorkflowNamePattern)
  let description ← required get "description" (nullable parseString)
  let securityClass ← withDefault get "security_class" .public (parseEnum securityScopes)
  let recordedWith ← withDefault get "recorded_with" none (nullable parseRecordedWith)
  let params ← withDefault get "params" []
    (parseRecord matchesParamKeyPattern parseParamDeclaration)
  let secrets ← withDefault get "secrets" []
    (parseArray (parseStringWhere matchesSecretKeyPattern))
  let cookies ← withDefault get "cookies" .none (parseEnum cookieModes)
  let steps ← required get "steps" parseSteps
  let outputs ← withDefault get "outputs" [] (parseArray parseWorkflowOutput)
  let synthesis ← withDefault get "synthesis" none (nullable parseWorkflowSynthesis)
  let outputsUnredacted ← withDefault get "outputs_unredacted" false parseBool
  let unrecordedFrames ← withDefault get "_unrecorded_frames" [] (parseArray parseString)
  let locators ← withDefault get "_locators" [] parseLocators
  some { name, description, securityClass, recordedWith, params, secrets, cookies, steps, outputs,
         synthesis, outputsUnredacted, unrecordedFrames, locators }

/-- `WorkflowFile` -/
def WorkflowFile.parse : Parser WorkflowFile := parseObject WorkflowFile.read

def WorkflowFile.schemaValid (w : WorkflowFile) : Prop :=
  WorkflowFile.parse w.toValue = some w

lemma WorkflowFile.read_eq_some_iff (get : Lookup) (w : WorkflowFile) :
    WorkflowFile.read get = some w ↔
      required get "version" parseVersion = some () ∧
      required get "name" (parseStringWhere matchesWorkflowNamePattern) = some w.name ∧
      required get "description" (nullable parseString) = some w.description ∧
      withDefault get "security_class" .public (parseEnum securityScopes) =
        some w.securityClass ∧
      withDefault get "recorded_with" none (nullable parseRecordedWith) = some w.recordedWith ∧
      withDefault get "params" [] (parseRecord matchesParamKeyPattern parseParamDeclaration) =
        some w.params ∧
      withDefault get "secrets" [] (parseArray (parseStringWhere matchesSecretKeyPattern)) =
        some w.secrets ∧
      withDefault get "cookies" .none (parseEnum cookieModes) = some w.cookies ∧
      required get "steps" parseSteps = some w.steps ∧
      withDefault get "outputs" [] (parseArray parseWorkflowOutput) = some w.outputs ∧
      withDefault get "synthesis" none (nullable parseWorkflowSynthesis) = some w.synthesis ∧
      withDefault get "outputs_unredacted" false parseBool = some w.outputsUnredacted ∧
      withDefault get "_unrecorded_frames" [] (parseArray parseString) =
        some w.unrecordedFrames ∧
      withDefault get "_locators" [] parseLocators = some w.locators := by
  have hbind {α β : Type} {x : Option α} {f : α → Option β} {b : β} :
      x >>= f = some b ↔ ∃ a, x = some a ∧ f a = some b := Option.bind_eq_some_iff
  constructor
  · intro h
    obtain ⟨_, h1, h⟩ := hbind.1 h
    obtain ⟨_, h2, h⟩ := hbind.1 h
    obtain ⟨_, h3, h⟩ := hbind.1 h
    obtain ⟨_, h4, h⟩ := hbind.1 h
    obtain ⟨_, h5, h⟩ := hbind.1 h
    obtain ⟨_, h6, h⟩ := hbind.1 h
    obtain ⟨_, h7, h⟩ := hbind.1 h
    obtain ⟨_, h8, h⟩ := hbind.1 h
    obtain ⟨_, h9, h⟩ := hbind.1 h
    obtain ⟨_, h10, h⟩ := hbind.1 h
    obtain ⟨_, h11, h⟩ := hbind.1 h
    obtain ⟨_, h12, h⟩ := hbind.1 h
    obtain ⟨_, h13, h⟩ := hbind.1 h
    obtain ⟨_, h14, h⟩ := hbind.1 h
    obtain rfl := Option.some.inj h
    exact ⟨h1, h2, h3, h4, h5, h6, h7, h8, h9, h10, h11, h12, h13, h14⟩
  · rintro ⟨h1, h2, h3, h4, h5, h6, h7, h8, h9, h10, h11, h12, h13, h14⟩
    rw [WorkflowFile.read, h1, h2, h3, h4, h5, h6, h7, h8, h9, h10, h11, h12, h13, h14]
    rfl

end Yantra
