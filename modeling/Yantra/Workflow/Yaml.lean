import Yantra.Workflow.File

/-!
# Workflow YAML

How a workflow is written as YAML and read back. Steps have a shorthand; declarations at their
defaults are left out; a large set of named locators goes to a JSON file next to the workflow. The
YAML library is a parameter.

## Main definitions

* `YamlLibrary` — the library: printing plain data and parsing a text.
* `saveWorkflow`, `loadWorkflow` — the store over a directory.

## Main results

* `loadWorkflow_saveWorkflow` — loading what was saved parses the YAML file alone.
-/

namespace Yantra

/-! ## The library -/

structure YamlLibrary where
  /-- `new YAML.Document(value).toString({ indent: 2 })` -/
  print : Value → String
  /-- `YAML.parse`, with the message of the error it throws. -/
  parse : String → Except String Value

/-! ## Shorthand -/

def toShortForm (step : WorkflowStep) : Value :=
  if step.scope.isSome then step.toValue
  else
    match step.body with
    | .navigate _ url => .obj [("id", .str step.id), ("navigate", url.toValue)]
    | .click _ locator => .obj [("id", .str step.id), ("click", .str locator)]
    | .fill _ locator value submit =>
        if submit then step.toValue
        else .obj [("id", .str step.id),
          ("fill", .obj [("to", .str locator), ("value", value.toValue)])]
    | .waitFor locator state timeoutMs =>
        if state ≠ .visible ∨ timeoutMs ≠ none then step.toValue
        else .obj [("id", .str step.id), ("wait_for", .str locator)]
    | _ => step.toValue

/-- The id of a step that has none: by its place. -/
def autoId (index : Nat) : Value := .str ("s" ++ toString (index + 1))

/-- `obj.id ?? autoId` -/
def idOrAuto (get : Lookup) (index : Nat) : Value :=
  match get "id" with
  | none | some .null => autoId index
  | some v => v

/-- The `to` and the `value` of a `fill` node. -/
def fillTarget? (get : Lookup) : Option (Value × Value) :=
  match get "fill" with
  | some (.obj fields) =>
    (Value.field? "to" fields).map fun target =>
      (target, (Value.field? "value" fields).getD .null)
  | _ => none

/-- The step a shorthand stands for, for an object without a `verb`. -/
def shorthand? (get : Lookup) (index : Nat) : Option (List (String × Value)) :=
  match get "navigate" with
  | some url => some [("verb", .str "navigate"), ("id", idOrAuto get index), ("url", url),
      ("scope", .null)]
  | none =>
    match get "click" with
    | some (.str locator) => some [("verb", .str "click"), ("id", idOrAuto get index),
        ("locator", .str locator), ("scope", .null)]
    | _ =>
      match fillTarget? get with
      | some (target, value) => some [("verb", .str "fill"), ("id", idOrAuto get index),
          ("locator", target), ("value", value), ("submit", .bool false), ("scope", .null)]
      | none =>
        match get "wait_for" with
        | some (.str locator) => some [("verb", .str "wait_for"), ("id", idOrAuto get index),
            ("locator", .str locator), ("state", .str "visible"), ("timeout_ms", .null),
            ("scope", .null)]
        | _ => none

def fromShortForm (node : Value) (index : Nat) : Value :=
  match node with
  | .obj fields =>
    let get : Lookup := fun key => Value.field? key fields
    match if (get "verb").isSome then none else shorthand? get index with
    | some step => .obj step
    | none => if (get "id").isSome then node else .obj (fields ++ [("id", autoId index)])
  | .arr items =>
      .obj (items.zipIdx.map (fun (v, i) => (toString i, v)) ++ [("id", autoId index)])
  | .date _ => .obj [("id", autoId index)]
  | _ => node

/-! ## Emitting -/

structure EmitOptions where
  schemaHref : Option String := none
  sidecarThreshold : Option Int := none
  deriving DecidableEq, Repr, Inhabited

/-- What the emitter gives: the YAML, and the locators where they are written apart. -/
structure EmitResult where
  yaml : String
  sidecarJson : Option String
  deriving DecidableEq, Repr, Inhabited

/-- `DEFAULT_SCHEMA_HREF` -/
def defaultSchemaHref : String := "./.yantra-schemas/workflow.schema.json"

/-- `DEFAULT_SIDECAR_THRESHOLD` -/
def defaultSidecarThreshold : Int := 50

/-- `KEY_ORDER` -/
def keyOrder : List String :=
  ["version", "name", "description", "security_class", "recorded_with", "params", "secrets",
    "cookies", "steps", "outputs", "synthesis", "outputs_unredacted", "_locators",
    "_locators_ref"]

def buildOrderedObject (obj : List (String × Value)) : List (String × Value) :=
  keyOrder.filterMap (fun key => (Value.field? key obj).map fun v => (key, v)) ++
    obj.filter fun kv => !keyOrder.contains kv.1

/-- Whether the named locators are written apart. -/
def EmitOptions.useSidecar (opts : EmitOptions) (w : WorkflowFile) : Bool :=
  decide (opts.sidecarThreshold.getD defaultSidecarThreshold < (w.locators.length : Int))

def keyUnless (isDefault : Bool) (key : String) (v : Value) : List (String × Value) :=
  if isDefault then [] else [(key, v)]

/-- The named locators in the emitted object: a reference to the file they are in, or themselves. -/
def emittedLocators (w : WorkflowFile) (opts : EmitOptions) : List (String × Value) :=
  if opts.useSidecar w then [("_locators_ref", .str ("./" ++ w.name ++ ".locators.json"))]
  else keyUnless w.locators.isEmpty "_locators" (locatorsValue w.locators)

/-- The object the emitter prints, before its keys are ordered. -/
def emittedFields (w : WorkflowFile) (opts : EmitOptions) : List (String × Value) :=
  [("version", .num "1"), ("name", .str w.name),
    ("description", nullableValue .str w.description),
    ("security_class", enumValue securityScopes w.securityClass)] ++
  keyUnless w.recordedWith.isNone "recorded_with"
    (nullableValue RecordedWith.toValue w.recordedWith) ++
  keyUnless w.params.isEmpty "params" (recordValue ParamDeclaration.toValue w.params) ++
  keyUnless w.secrets.isEmpty "secrets" (arrayValue .str w.secrets) ++
  keyUnless (decide (w.cookies = .none)) "cookies" (enumValue cookieModes w.cookies) ++
  [("steps", arrayValue toShortForm w.steps)] ++
  keyUnless w.synthesis.isNone "synthesis" (nullableValue WorkflowSynthesis.toValue w.synthesis) ++
  keyUnless w.outputs.isEmpty "outputs" (arrayValue WorkflowOutput.toValue w.outputs) ++
  keyUnless (!w.outputsUnredacted) "outputs_unredacted" (.bool w.outputsUnredacted) ++
  emittedLocators w opts

def emittedDocument (w : WorkflowFile) (opts : EmitOptions) : Value :=
  .obj (buildOrderedObject (emittedFields w opts))

def isLineTerminator (c : Char) : Bool :=
  c == '\n' || c == '\r' || c.toNat == 0x2028 || c.toNat == 0x2029

/-- Put the comment in front of the first line that starts with `_locators:`; `lineStart` tells
that a line starts here. -/
def pinLocators : Bool → List Char → List Char
  | _, [] => []
  | lineStart, c :: cs =>
    if lineStart && "_locators:".toList.isPrefixOf (c :: cs) then
      "# Pinned at record time\n".toList ++ c :: cs
    else c :: pinLocators (isLineTerminator c) cs

/-- The text of the emitter around the printed document: a comment in front, and one at the
locators. -/
def emittedText (w : WorkflowFile) (opts : EmitOptions) (printed : String) : String :=
  "# yaml-language-server: $schema=" ++ opts.schemaHref.getD defaultSchemaHref ++ "\n" ++
    if !opts.useSidecar w && !w.locators.isEmpty then String.ofList (pinLocators true printed.toList)
    else printed

/-- Two spaces for every level of depth. -/
def indentation (depth : Nat) : String := String.ofList (List.replicate (2 * depth) ' ')

/-- Items between brackets, each on its own line, none on one. -/
def bracketed (opening closing : String) (depth : Nat) (items : List String) : String :=
  if items.isEmpty then opening ++ closing
  else opening ++ "\n" ++
    ",\n".intercalate (items.map fun item => indentation (depth + 1) ++ item) ++ "\n" ++
    indentation depth ++ closing

mutual

/-- `JSON.stringify(value, null, 2)` at a depth. -/
def stringifyIndented (depth : Nat) : Value → String
  | .arr items => bracketed "[" "]" depth (stringifyIndentedItems (depth + 1) items)
  | .obj fields => bracketed "\x7b" "\x7d" depth (stringifyIndentedFields (depth + 1) fields)
  | .null => "null"
  | .bool b => if b then "true" else "false"
  | .num text => if Value.nonFinite text then "null" else text
  | .str s => Value.quote s
  | .date iso => Value.quote iso
  | .builtin _ => "null"

/-- `stringifyIndented` of the items of an array. -/
def stringifyIndentedItems (depth : Nat) : List Value → List String
  | [] => []
  | v :: vs => stringifyIndented depth v :: stringifyIndentedItems depth vs

/-- `stringifyIndented` of the fields of an object. -/
def stringifyIndentedFields (depth : Nat) : List (String × Value) → List String
  | [] => []
  | (key, v) :: fields =>
      (Value.quote key ++ ": " ++ stringifyIndented depth v) ::
        stringifyIndentedFields depth fields

end

def emitWorkflow (yaml : YamlLibrary) (w : WorkflowFile) (opts : EmitOptions := {}) :
    EmitResult where
  yaml := emittedText w opts (yaml.print (emittedDocument w opts))
  sidecarJson :=
    if opts.useSidecar w then some (stringifyIndented 0 (locatorsValue w.locators)) else none

/-! ## Parsing -/

/-- A finding on a workflow file. -/
structure LintFinding where
  code : String
  severity : String
  path : String
  message : String
  suggestion : Option String
  deriving DecidableEq, Repr, Inhabited

/-- Why a workflow file is refused: the text is no YAML, or the schema has issues. -/
inductive LoadFailure where
  | yamlSyntax (finding : LintFinding)
  | schemaInvalid
  deriving DecidableEq, Repr, Inhabited

def afterPrefix (pre cs : List Char) : Option (List Char) :=
  if pre.isPrefixOf cs then some (cs.drop pre.length) else none

/-- `/at line (\d+), column (\d+)/` at the start of a text. -/
def lineColumnHere (cs : List Char) : Option String :=
  match afterPrefix "at line ".toList cs with
  | none => none
  | some rest =>
    match afterPrefix ", column ".toList (rest.dropWhile isAsciiDigit) with
    | none => none
    | some rest' =>
      let line := rest.takeWhile isAsciiDigit
      let column := rest'.takeWhile isAsciiDigit
      if line.isEmpty || column.isEmpty then none
      else some (String.ofList line ++ ":" ++ String.ofList column)

/-- The first place in a text that names a line and a column. -/
def lineColumn? : List Char → Option String
  | [] => none
  | c :: cs => (lineColumnHere (c :: cs)).orElse fun _ => lineColumn? cs

def yamlSyntaxFinding (message : String) : LintFinding where
  code := "YamlSyntax"
  severity := "error"
  path := (lineColumn? message.toList).getD "<unknown>"
  message := "YAML syntax error: " ++ message
  suggestion := none

/-- Every step from `index` on, out of its shorthand. -/
def desugarFrom (index : Nat) : List Value → List Value
  | [] => []
  | step :: steps => fromShortForm step index :: desugarFrom (index + 1) steps

/-- The value under a key, once the steps are out of their shorthand. -/
def desugarEntry (key : String) (v : Value) : Value :=
  if key = "steps" then
    match v with
    | .arr steps => .arr (desugarFrom 0 steps)
    | v => v
  else v

/-- A parsed document, its steps out of their shorthand. -/
def desugarSteps : Value → Value
  | .obj fields => .obj (fields.map fun kv => (kv.1, desugarEntry kv.1 kv.2))
  | v => v

def parseWorkflowYaml (yaml : YamlLibrary) (text : String) : Except LoadFailure WorkflowFile :=
  match yaml.parse text with
  | .error message => .error (.yamlSyntax (yamlSyntaxFinding message))
  | .ok parsed =>
    match WorkflowFile.parse (desugarSteps parsed) with
    | some w => .ok w
    | none => .error .schemaInvalid

/-! ## The store -/

abbrev Directory := String → Option String

/-- A directory with a file written. -/
def Directory.write (dir : Directory) (path text : String) : Directory :=
  fun p => if p = path then some text else dir p

inductive WorkflowStoreError where
  | collision (name : String)
  | loadFailed (name : String)
  deriving DecidableEq, Repr, Inhabited

def workflowPath (name : String) : String := name ++ ".yaml"

/-- The file of a workflow's locators. -/
def sidecarPath (name : String) : String := name ++ ".locators.json"

/-- The directory once the YAML, and the locators written apart, are in it. -/
def Directory.writeEmitted (dir : Directory) (name : String) (emitted : EmitResult) : Directory :=
  match emitted.sidecarJson with
  | some json => (dir.write (workflowPath name) emitted.yaml).write (sidecarPath name) json
  | none => dir.write (workflowPath name) emitted.yaml

/-- `FileWorkflowStore.save`, where the writes succeed: a workflow of that name is overwritten
only when `force` is set. -/
def saveWorkflow (yaml : YamlLibrary) (threshold : Int) (w : WorkflowFile) (force : Bool)
    (dir : Directory) : Except WorkflowStoreError Directory :=
  if !force && (dir (workflowPath w.name)).isSome then .error (.collision w.name)
  else .ok (dir.writeEmitted w.name (emitWorkflow yaml w { sidecarThreshold := some threshold }))

/-- `FileWorkflowStore.load` -/
def loadWorkflow (yaml : YamlLibrary) (name : String) (dir : Directory) :
    Except WorkflowStoreError (Except LoadFailure WorkflowFile) :=
  match dir (workflowPath name) with
  | some text => .ok (parseWorkflowYaml yaml text)
  | none => .error (.loadFailed name)

lemma writeEmitted_workflowPath (dir : Directory) (name : String) (emitted : EmitResult) :
    dir.writeEmitted name emitted (workflowPath name) = some emitted.yaml := by
  have hne : workflowPath name ≠ sidecarPath name := by
    intro heq
    have hlist := congrArg String.toList heq
    simp only [workflowPath, sidecarPath, String.toList_append, List.append_cancel_left_eq] at hlist
    revert hlist
    decide
  unfold Directory.writeEmitted
  cases emitted.sidecarJson with
  | none => simp [Directory.write]
  | some json => simp [Directory.write, hne]

/-- Loading what was saved parses the YAML file, whatever was written next to it. -/
theorem loadWorkflow_saveWorkflow (yaml : YamlLibrary) (threshold : Int) (w : WorkflowFile)
    (force : Bool) (dir dir' : Directory) (h : saveWorkflow yaml threshold w force dir = .ok dir') :
    loadWorkflow yaml w.name dir' =
      .ok (parseWorkflowYaml yaml
        (emitWorkflow yaml w { sidecarThreshold := some threshold }).yaml) := by
  unfold saveWorkflow at h
  split_ifs at h
  obtain rfl := Except.ok.inj h
  simp only [loadWorkflow, writeEmitted_workflowPath]

end Yantra
