import Yantra.Protocol.Steps

/-!
# Schemas over plain data

The schema declarations of the protocol, read as parsers from plain data: what a declaration
accepts and what it makes of it, defaults included. Next to each stands the plain data of a value,
as an object in memory holds it.

## Main definitions

* `Parser` — a schema: what it makes of a value it accepts.
* `parseExtractionSchema`, `parseAssertCondition`, … — the shared schemas.

## Main results

* `parseArray_eq_some_iff` — an array is accepted item by item.
-/

namespace Yantra

/-- A schema: `none` where it rejects. -/
abbrev Parser (α : Type) := Value → Option α

/-! ## Scalars -/

/-- `z.string()` -/
def parseString : Parser String
  | .str s => some s
  | _ => none

/-- `z.string()` with a check on the text. -/
def parseStringWhere (check : String → Bool) : Parser String
  | .str s => if check s then some s else none
  | _ => none

/-- `z.string().min(1)` -/
def parseNonempty : Parser String := parseStringWhere fun s => !s.isEmpty

/-- `z.number()`, by the text of the number. -/
def parseNumber : Parser String
  | .num text => if text = "NaN" then none else some text
  | _ => none

/-- `z.boolean()` -/
def parseBool : Parser Bool
  | .bool b => some b
  | _ => none

def digitsValue (ds : List Char) : Nat := ds.foldl (fun n d => 10 * n + (d.toNat - 48)) 0

/-- `z.number().int()` without a sign. -/
def parseNat : Parser Nat
  | .num text =>
      if !text.isEmpty && text.toList.all isAsciiDigit then some (digitsValue text.toList)
      else none
  | _ => none

/-- `z.number().int().positive()` -/
def parsePositive : Parser Nat := fun v => (parseNat v).filter fun n => decide (0 < n)

/-- The plain data of an integer. -/
def natValue (n : Nat) : Value := .num (toString n)

/-- `z.nullable()` -/
def nullable {α : Type} (p : Parser α) : Parser (Option α)
  | .null => some none
  | v => (p v).map some

def nullableValue {α : Type} (toValue : α → Value) : Option α → Value
  | none => .null
  | some a => toValue a

/-! ## Enumerations -/

/-- `z.enum`: the entry with this name. -/
def parseEnum {α : Type} (table : List (String × α)) : Parser α
  | .str s => (table.find? fun entry => decide (entry.1 = s)).map Prod.snd
  | _ => none

def enumValue {α : Type} [DecidableEq α] (table : List (String × α)) (a : α) : Value :=
  .str (((table.find? fun entry => decide (entry.2 = a)).map Prod.fst).getD "")

/-- `SecurityClass`, and `SecurityScope` -/
def securityScopes : List (String × SecurityScope) :=
  [("public", .public), ("read-only-data", .readOnlyData), ("authenticated", .authenticated)]

/-- `RoleEnum` -/
def roles : List (String × RoleEnum) :=
  [("button", .button), ("link", .link), ("textbox", .textbox), ("searchbox", .searchbox),
    ("table", .table), ("heading", .heading), ("region", .region), ("dialog", .dialog),
    ("listitem", .listitem), ("cell", .cell), ("checkbox", .checkbox), ("radio", .radio),
    ("combobox", .combobox), ("listbox", .listbox), ("slider", .slider),
    ("spinbutton", .spinbutton), ("option", .option), ("tab", .tab), ("tabpanel", .tabpanel),
    ("menuitem", .menuitem), ("row", .row), ("grid", .grid)]

/-- `ConsequenceLevel` -/
def consequenceLevels : List (String × ConsequenceLevel) :=
  [("reversible", .reversible), ("hard_to_reverse", .hardToReverse),
    ("irreversible", .irreversible), ("unknown", .unknown)]

/-- `FieldLabelOrigin` -/
def fieldLabelOrigins : List (String × FieldLabelOrigin) :=
  [("explicit", .explicit), ("structural", .structural), ("placeholder", .placeholder),
    ("title", .title)]

/-- `PrimitiveExtractionKind` -/
def primitiveExtractionKinds : List (String × PrimitiveExtractionKind) :=
  [("string", .string), ("number", .number), ("boolean", .boolean), ("date", .date),
    ("money", .money), ("readable", .readable)]

/-- The states of `wait_for`. -/
def waitStates : List (String × WaitState) :=
  [("visible", .visible), ("hidden", .hidden), ("attached", .attached), ("detached", .detached)]

/-! ## Arrays and objects -/

def parseItems {α : Type} (p : Parser α) : List Value → Option (List α)
  | [] => some []
  | v :: vs =>
    match p v, parseItems p vs with
    | some a, some as => some (a :: as)
    | _, _ => none

/-- `z.array` -/
def parseArray {α : Type} (p : Parser α) : Parser (List α)
  | .arr items => parseItems p items
  | _ => none

/-- Every entry of a record, parsed: `__proto__` is left out. -/
def parseEntries {α : Type} (key : String → Bool) (p : Parser α) :
    List (String × Value) → Option (List (String × α))
  | [] => some []
  | (k, v) :: entries =>
    match parseEntries key p entries with
    | some rest =>
      if k = "__proto__" then some rest
      else if key k then (p v).map fun a => (k, a) :: rest
      else none
    | none => none

/-- `z.record` -/
def parseRecord {α : Type} (key : String → Bool) (p : Parser α) : Parser (List (String × α))
  | .obj fields => parseEntries key p fields
  | _ => none

/-- The plain data of a record. -/
def recordValue {α : Type} (toValue : α → Value) (entries : List (String × α)) : Value :=
  .obj (entries.map fun kv => (kv.1, toValue kv.2))

/-- The plain data of an array. -/
def arrayValue {α : Type} (toValue : α → Value) (items : List α) : Value :=
  .arr (items.map toValue)

/-- How an object is read: the value under a key. -/
abbrev Lookup := String → Option Value

/-- `z.object`: the keys of an object, whatever else it holds. -/
def parseObject {α : Type} (read : Lookup → Option α) : Parser α
  | .obj fields => read fun key => Value.field? key fields
  | _ => none

def required {α : Type} (get : Lookup) (key : String) (p : Parser α) : Option α :=
  (get key).bind p

/-- `z.default` -/
def withDefault {α : Type} (get : Lookup) (key : String) (default : α) (p : Parser α) : Option α :=
  match get key with
  | none => some default
  | some v => p v

/-- `z.optional` -/
def optionalKey {α : Type} (get : Lookup) (key : String) (p : Parser α) : Option (Option α) :=
  match get key with
  | none => some none
  | some v => (p v).map some

lemma parseItems_eq_some_iff {α : Type} (p : Parser α) (vs : List Value) (as : List α) :
    parseItems p vs = some as ↔ List.Forall₂ (fun v a => p v = some a) vs as := by
  induction vs generalizing as with
  | nil => cases as <;> simp [parseItems]
  | cons v vs ih =>
    cases as with
    | nil =>
      simp only [parseItems]
      split <;> simp
    | cons a as =>
      rw [List.forall₂_cons, ← ih]
      simp only [parseItems]
      cases p v <;> cases parseItems p vs <;> simp

/-! ## Literals -/

/-- `WorkflowValueExpression`: a scalar. -/
def parseLiteral : Parser LiteralValue
  | .str s => some (.str s)
  | .num text => (parseNumber (.num text)).map .num
  | .bool b => some (.bool b)
  | .null => some .null
  | _ => none

/-! ## Extraction schemas -/

mutual

def ExtractionSchema.toValue : ExtractionSchema → Value
  | .primitive kind =>
      .obj [("type", .str "primitive"), ("kind", enumValue primitiveExtractionKinds kind)]
  | .array items => .obj [("type", .str "array"), ("items", items.toValue)]
  | .object fields =>
      .obj [("type", .str "object"), ("fields", .obj (ExtractionSchema.fieldValues fields))]

/-- The plain data of the fields of an extraction schema. -/
def ExtractionSchema.fieldValues : List (String × ExtractionSchema) → List (String × Value)
  | [] => []
  | (key, schema) :: fields => (key, schema.toValue) :: ExtractionSchema.fieldValues fields

end

mutual

/-- `ExtractionSchema` -/
def parseExtractionSchema : Value → Option ExtractionSchema
  | .obj fields =>
    match Value.field? "type" fields with
    | some (.str "primitive") =>
        ((Value.field? "kind" fields).bind (parseEnum primitiveExtractionKinds)).map .primitive
    | some (.str "array") => (parseExtractionItems fields).map .array
    | some (.str "object") => (parseExtractionFields fields).map .object
    | _ => none
  | _ => none

/-- The schema under the key `items`. -/
def parseExtractionItems : List (String × Value) → Option ExtractionSchema
  | [] => none
  | (key, v) :: fields =>
    if key = "items" then parseExtractionSchema v else parseExtractionItems fields

/-- The schemas under the key `fields`. -/
def parseExtractionFields :
    List (String × Value) → Option (List (String × ExtractionSchema))
  | [] => none
  | (key, v) :: fields =>
    if key = "fields" then
      match v with
      | .obj entries => parseExtractionEntries entries
      | _ => none
    else parseExtractionFields fields

def parseExtractionEntries :
    List (String × Value) → Option (List (String × ExtractionSchema))
  | [] => some []
  | (key, v) :: entries =>
    match parseExtractionEntries entries with
    | some rest =>
      if key = "__proto__" then some rest
      else (parseExtractionSchema v).map fun schema => (key, schema) :: rest
    | none => none

end

/-! ## Assertions -/

/-- The plain data of an assertion. -/
def AssertCondition.toValue : AssertCondition → Value
  | .visible => .obj [("kind", .str "visible")]
  | .hidden => .obj [("kind", .str "hidden")]
  | .textMatches pattern flags =>
      .obj [("kind", .str "text_matches"), ("pattern", .str pattern), ("flags", .str flags)]
  | .countEquals count => .obj [("kind", .str "count_equals"), ("count", natValue count)]

/-- `AssertCondition` -/
def parseAssertCondition : Parser AssertCondition :=
  parseObject fun get => do
    let kind ← required get "kind" parseString
    match kind with
    | "visible" => some .visible
    | "hidden" => some .hidden
    | "text_matches" => do
      let pattern ← required get "pattern" parseString
      let flags ← withDefault get "flags" "" parseString
      some (.textMatches pattern flags)
    | "count_equals" => do
      let count ← required get "count" parseNat
      some (.countEquals count)
    | _ => none

/-! ## Confirmation -/

/-- The plain data of a cost. -/
def ExpectedCost.toValue (c : ExpectedCost) : Value :=
  .obj [("amount", .num c.amount), ("currency", .str c.currency)]

/-- `ExpectedCost` -/
def parseExpectedCost : Parser ExpectedCost :=
  parseObject fun get => do
    let amount ← required get "amount" parseNumber
    let currency ← required get "currency" parseNonempty
    some ⟨amount, currency⟩

def ConfirmationAnnotations.fields (a : ConfirmationAnnotations) : List (String × Value) :=
  [("confirmation_description", nullableValue .str a.confirmationDescription),
    ("expected_cost", nullableValue ExpectedCost.toValue a.expectedCost),
    ("consequence", nullableValue (enumValue consequenceLevels) a.consequence)]

/-- `WorkflowConfirmationAnnotations` -/
def parseConfirmationAnnotations (get : Lookup) : Option ConfirmationAnnotations := do
  let description ← withDefault get "confirmation_description" none (nullable parseNonempty)
  let expectedCost ← withDefault get "expected_cost" none (nullable parseExpectedCost)
  let consequence ← withDefault get "consequence" none (nullable (parseEnum consequenceLevels))
  some ⟨description, expectedCost, consequence⟩

end Yantra
