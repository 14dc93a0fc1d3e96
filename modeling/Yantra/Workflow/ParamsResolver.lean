import Yantra.Executor.ValueResolver
import Yantra.Lib.Regex
import Yantra.Workflow.File

/-!
# Resolving the params of a workflow

`resolveParams` merges the params of a YAML file and of the command line, turns each into text,
coerces the declared ones to their type and passes the others through. The records it merges and
builds are plain objects, so that a read of a name that every object inherits finds the inherited
member.

## Main definitions

* `ParamsInput.supplied` — what is supplied under a name.
* `ParamsInput.Resolvable` — when it does.

## Main results

* `resolveParams_resolved_iff` — when the record is what it is to be.
-/

namespace Yantra

open List Option

/-! ## Objects -/

/-- The number of a property name that is an array index: a decimal numeral without leading
zeros, below `2 ^ 32 - 1`. -/
def arrayIndex? (key : String) : Option Nat :=
  if key.toList ≠ [] ∧ key.toList.all isAsciiDigit = true ∧
      (key.toList.head? = some '0' → key.toList.length = 1) ∧
      Nat.ofDigitChars 10 key.toList 0 < 4294967295 then
    some (Nat.ofDigitChars 10 key.toList 0)
  else none

/-- `Object.entries(m)`: the array indices come first, in ascending order. -/
def ownEntries {α : Type} (m : OrderedMap String α) : List (String × α) :=
  (m.entries.filter fun e => (arrayIndex? e.1).isSome).insertionSort
      (fun e e' => (arrayIndex? e.1).getD 0 ≤ (arrayIndex? e'.1).getD 0) ++
    m.entries.filter fun e => !(arrayIndex? e.1).isSome

/-- `m[key]` -/
def readProperty (m : OrderedMap String Value) (key : String) : Option Value :=
  (m.get? key).or (Value.inherited? Value.inheritedKeys key)

/-- `key in m` -/
def inRecord {α : Type} (key : String) (m : OrderedMap String α) : Bool :=
  m.has key || Value.inheritedKeys.contains key

/-- `m[key] = value` for a text: `__proto__` is written only where it is a property already. -/
def assignText (m : OrderedMap String Value) (key text : String) : OrderedMap String Value :=
  if key = "__proto__" ∧ m.has key = false then m else m.set key (.str text)

/-- Write what `f` makes of each entry, in order; an entry can be passed over or refused. -/
def collect {α β ε : Type} (f : String → α → Except ε (Option β)) :
    List (String × α) → OrderedMap String β → Except ε (OrderedMap String β)
  | [], m => .ok m
  | (key, a) :: es, m =>
    match f key a with
    | .error e => .error e
    | .ok none => collect f es m
    | .ok (some b) => collect f es (m.set key b)

/-! ## The input -/

/-- A param of the command line. -/
structure ParamArg where
  key : String
  rawValue : String
  deriving DecidableEq, Repr

inductive ParamsFile where
  | unreadable (message : String)
  | invalidYaml (message : String)
  | parsed (value : Value)

/-- The input of `resolveParams`: the file by its path and content. -/
structure ParamsInput where
  cli : List ParamArg
  file : Option (String × ParamsFile)
  workflowParams : OrderedMap String ParamDeclaration

/-- A failure of `resolveParams`. -/
inductive ParamsError where
  | validation (paramName reason : String) (sanitizedValue : Option String)
  | missingRequired (missing : List String)
  deriving DecidableEq, Repr

def numberChars : List Char :=
  ['0', '1', '2', '3', '4', '5', '6', '7', '8', '9', '+', '-', '.', 'e', 'I', 'n', 'f', 'i', 't', 'y']

def dateChars : List Char :=
  ['0', '1', '2', '3', '4', '5', '6', '7', '8', '9', '+', '-', ':', '.', 'T', 'Z']

/-- `Number` and `Date`, by the texts of what they give. -/
structure ParamsPlatform where
  number : String → Option String
  /-- `new Date(text).toISOString()`, where the date is valid. -/
  date : String → Option String
  number_chars : ∀ text t, number text = some t → ∀ c ∈ t.toList, c ∈ numberChars
  date_chars : ∀ text t, date text = some t → ∀ c ∈ t.toList, c ∈ dateChars

/-! ## The algorithm -/

def CREDENTIAL_PATTERNS : List (Regex Char) :=
  let key (c : Char) : Bool := c.isAlphanum || c == '_' || c == '-'
  [.seq (.lit "sk-".toList) (.rep 20 none (.sym Char.isAlphanum)),
    .seq (.lit "ghp_".toList) (.rep 20 none (.sym Char.isAlphanum)),
    .seq (.lit "AKIA".toList) (.rep 16 (some 16) (.sym fun c => c.isUpper || c.isDigit)),
    .seqs [.lit "eyJ".toList, .plus (.sym key), .lit ".".toList, .plus (.sym key),
      .lit ".".toList, .plus (.sym key)]]

/-- `looksLikeCredential`; no text stands for `undefined`, which is tested as its name. -/
def looksLikeCredential (text : Option String) : Bool :=
  CREDENTIAL_PATTERNS.any fun pattern => pattern.test (text.getD "undefined").toList

/-- `stringifySafe`; no text stands for `undefined`, which is what `JSON.stringify` makes of a
function. -/
def stringifySafe : Value → Option String
  | .null => some ""
  | .str s => some s
  | .num text => some text
  | .bool b => some (if b then "true" else "false")
  | .date iso => some iso
  | .builtin name => if name = "__proto__" then some "\x7b\x7d" else none
  | v => some v.stringify

def credentialError (key : String) : ParamsError :=
  .validation key ("The value for param \"" ++ key ++ "\" looks like a secret or credential. " ++
    "Params are not secrets — declare a \x60secrets:\x60 entry and reference it via " ++
    "\x7b\x7b secret:namespace.key \x7d\x7d instead.") (some "<redacted>")

def coerceValue (pf : ParamsPlatform) (key : String) (rawValue : Option String) :
    ParamType → Except ParamsError (Option Value)
  | .string => .ok (rawValue.map .str)
  | .number =>
    match rawValue.bind pf.number with
    | some n => .ok (some (.num n))
    | none => .error (.validation key ("Expected a number but got \"" ++
        rawValue.getD "undefined" ++ "\". Provide a numeric value (e.g., 42 or 3.14).") none)
  | .boolean =>
    if rawValue = some "true" then .ok (some (.bool true))
    else if rawValue = some "false" then .ok (some (.bool false))
    else .error (.validation key ("Expected a boolean but got \"" ++
        rawValue.getD "undefined" ++ "\". Use \"true\" or \"false\".") none)
  | .date =>
    match rawValue.bind pf.date with
    | some iso => .ok (some (.date iso))
    | none => .error (.validation key ("Expected an ISO-8601 date but got \"" ++
        rawValue.getD "undefined" ++ "\". Example: \"2026-04-01\".") none)

def readFileParams : Option (String × ParamsFile) → Except ParamsError (OrderedMap String Value)
  | none => .ok OrderedMap.empty
  | some (file, .unreadable message) => .error (.validation "<file>"
      ("Cannot read params file \"" ++ file ++ "\": " ++ message) none)
  | some (file, .invalidYaml message) => .error (.validation "<file>"
      ("Invalid YAML in params file \"" ++ file ++ "\": " ++ message) none)
  | some (_, .parsed (.obj fields)) => .ok (OrderedMap.ofList fields)
  | some (_, .parsed (.date _)) => .ok OrderedMap.empty
  | some (file, .parsed _) => .error (.validation "<file>" ("Params file \"" ++ file ++
      "\" must contain a YAML mapping at the top level, not a scalar or array.") none)

/-- Step 2: the args of the command line over the params of the file. -/
def overlayArgs (file : OrderedMap String Value) (cli : List ParamArg) :
    OrderedMap String Value :=
  cli.foldl (fun merged arg => assignText merged arg.key arg.rawValue) file

/-- Step 3 for a declared param: nothing for a missing one, else its value. -/
def declaredEntry (pf : ParamsPlatform) (merged : OrderedMap String Value) (key : String)
    (decl : ParamDeclaration) : Except ParamsError (Option (Option Value)) :=
  match readProperty merged key with
  | none => .ok none
  | some .null => .ok none
  | some rawValue =>
    if looksLikeCredential (stringifySafe rawValue) then .error (credentialError key)
    else (coerceValue pf key (stringifySafe rawValue) decl.type).map some

/-- A param that is not declared is passed through as text. -/
def extraEntry (workflowParams : OrderedMap String ParamDeclaration) (key : String)
    (value : Value) : Except ParamsError (Option (Option Value)) :=
  if inRecord key workflowParams then .ok none
  else if looksLikeCredential (stringifySafe value) then .error (credentialError key)
  else .ok (some ((stringifySafe value).map .str))

def missingParams (workflowParams : OrderedMap String ParamDeclaration)
    (result : OrderedMap String (Option Value)) : List String :=
  ((ownEntries workflowParams).filter fun e => e.2.required && !inRecord e.1 result).map Prod.fst

/-- `resolveParams`. The record maps a name to `none` where the property is `undefined`. -/
def resolveParams (pf : ParamsPlatform) (input : ParamsInput) :
    Except ParamsError (OrderedMap String (Option Value)) :=
  match readFileParams input.file with
  | .error e => .error e
  | .ok file =>
    let merged := overlayArgs file input.cli
    match collect (declaredEntry pf merged) (ownEntries input.workflowParams)
        OrderedMap.empty with
    | .error e => .error e
    | .ok declared =>
      match collect (extraEntry input.workflowParams) (ownEntries merged) declared with
      | .error e => .error e
      | .ok result =>
        if missingParams input.workflowParams result = [] then .ok result
        else .error (.missingRequired (missingParams input.workflowParams result))

/-! ## What the record is to hold -/

/-- The params of the file, none where there is no mapping. -/
def ParamsInput.fileParams (input : ParamsInput) : OrderedMap String Value :=
  match input.file with
  | some (_, .parsed (.obj fields)) => OrderedMap.ofList fields
  | _ => OrderedMap.empty

/-- What is supplied under a name: by the last arg of that name, else by the file. -/
def ParamsInput.supplied (input : ParamsInput) (key : String) : Option Value :=
  ((input.cli.reverse.find? fun arg => arg.key == key).map fun arg => Value.str arg.rawValue).or
    (input.fileParams.get? key)

def ParamType.Denotes (pf : ParamsPlatform) (text : String) : ParamType → Value → Prop
  | .string, v => v = .str text
  | .number, v => ∃ n, pf.number text = some n ∧ v = .num n
  | .boolean, v => (text = "true" ∧ v = .bool true) ∨ (text = "false" ∧ v = .bool false)
  | .date, v => ∃ iso, pf.date text = some iso ∧ v = .date iso

/-- The record as the params of a run; `undefined` is turned into the same text as `null`. -/
def runParams (result : OrderedMap String (Option Value)) : Params :=
  result.mapVal fun _ v => v.getD .null

/-- **What the record is to hold**, whatever the names are. -/
structure ParamsInput.Resolved (pf : ParamsPlatform) (input : ParamsInput)
    (result : OrderedMap String (Option Value)) : Prop where
  /-- A required param is there because it was supplied. -/
  required : ∀ key decl, input.workflowParams.get? key = some decl → decl.required = true →
    result.has key = true ∧ ∃ raw, input.supplied key = some raw ∧ raw ≠ .null
  /-- A declared param has its type and denotes what was supplied. -/
  declared : ∀ key decl v, input.workflowParams.get? key = some decl →
    result.get? key = some v → ∃ raw, input.supplied key = some raw ∧ raw ≠ .null ∧
      ∀ text, stringifySafe raw = some text → ∃ value, v = some value ∧
        decl.type.Denotes pf text value
  present : ∀ key decl raw, input.workflowParams.get? key = some decl →
    input.supplied key = some raw → raw ≠ .null → result.has key = true
  /-- No value matches a credential shape. -/
  noCredential : ∀ key value, result.get? key = some (some value) →
    looksLikeCredential (stringifySafe value) = false
  /-- A name that is not declared is passed through as text. -/
  passed : ∀ key raw text, input.workflowParams.get? key = none → input.supplied key = some raw →
    stringifySafe raw = some text → result.get? key = some (some (.str text))
  /-- Nothing else is there. -/
  only : ∀ key, result.has key = true → (input.supplied key).isSome = true
  /-- A string or a date is typed into a field as it was supplied. -/
  typed : ∀ key decl raw text captures, input.workflowParams.get? key = some decl →
    decl.type = .string ∨ decl.type = .date → input.supplied key = some raw → raw ≠ .null →
    stringifySafe raw = some text →
      ValueResolver.resolveToString ⟨captures, runParams result⟩ (.param key) = .ok text

/-- When the record is what it is to be. -/
structure ParamsInput.Resolvable (pf : ParamsPlatform) (input : ParamsInput) : Prop where
  /-- A declared name that objects inherit is supplied, as `null` only if it is optional. -/
  declared : ∀ key decl, input.workflowParams.get? key = some decl →
    key ∈ Value.inheritedKeys → ∃ raw, input.supplied key = some raw ∧
      (raw = .null → decl.required = false)
  /-- A supplied name that is not declared is none that objects inherit. -/
  extra : ∀ key raw text, input.workflowParams.get? key = none →
    input.supplied key = some raw → stringifySafe raw = some text → key ∉ Value.inheritedKeys
  /-- A supplied date is supplied as the JSON text of the date. -/
  date : ∀ key decl raw text iso, input.workflowParams.get? key = some decl →
    decl.type = .date → input.supplied key = some raw → raw ≠ .null →
    stringifySafe raw = some text → pf.date text = some iso → Value.quote iso = text

/-! ## The loops -/

variable {α : Type}

lemma ownEntries_perm (m : OrderedMap String α) :
    (ownEntries m).Perm m.entries := by
  refine ((perm_insertionSort _ _).append_right _).trans ?_
  exact filter_append_perm _ _

variable {key : String}

open OrderedMap

lemma mem_ownEntries_iff {m : OrderedMap String α} {a : α} :
    (key, a) ∈ ownEntries m ↔ m.get? key = some a := by
  rw [(ownEntries_perm m).mem_iff, get?_eq_some_iff]

lemma nodup_ownEntries (m : OrderedMap String α) :
    ((ownEntries m).map Prod.fst).Nodup :=
  ((ownEntries_perm m).map Prod.fst).nodup_iff.2 m.nodup

lemma collect_cons {α β ε : Type} {f : String → α → Except ε (Option β)} {a : α}
    {es : List (String × α)} {m m' : OrderedMap String β}
    (h : collect f ((key, a) :: es) m = .ok m') :
    ∃ made written, f key a = .ok made ∧ written.get? key = made.or (m.get? key) ∧
      (∀ key', key' ≠ key → written.get? key' = m.get? key') ∧ collect f es written = .ok m' := by
  rw [collect] at h
  split at h
  · cases h
  · rename_i hf
    exact ⟨none, m, hf, rfl, fun _ _ => rfl, h⟩
  · rename_i b hf
    exact ⟨some b, m.set key b, hf, m.get?_set_self key b,
      fun key' hne => m.get?_set_of_ne b hne.symm, h⟩

/-- **What a loop over the entries of an object writes**: for each entry what `f` makes of it,
and nothing else.

**Proof sketch.** By induction on the entries; a later entry has another key. -/
theorem collect_spec {α β ε : Type} {f : String → α → Except ε (Option β)} {es : List (String × α)}
    {m m' : OrderedMap String β} (hnodup : (es.map Prod.fst).Nodup) (h : collect f es m = .ok m') :
    (∀ key a, (key, a) ∈ es → ∃ made, f key a = .ok made ∧
      m'.get? key = made.or (m.get? key)) ∧
    ∀ key, key ∉ es.map Prod.fst → m'.get? key = m.get? key := by
  induction es generalizing m with
  | nil =>
    obtain rfl : m = m' := Except.ok.inj h
    exact ⟨fun key a hmem => absurd hmem not_mem_nil, fun key _ => rfl⟩
  | cons e es ih =>
    obtain ⟨key, a⟩ := e
    rw [map_cons, nodup_cons] at hnodup
    obtain ⟨made, written, hmade, hkey, hne, hrest⟩ := collect_cons h
    obtain ⟨hmem, hother⟩ := ih hnodup.2 hrest
    constructor
    · intro key' a' hin
      rcases mem_cons.1 hin with heq | htail
      · cases heq
        exact ⟨made, hmade, by rw [hother key hnodup.1, hkey]⟩
      · have hkey' : key' ≠ key := by
          rintro rfl
          exact hnodup.1 (List.mem_map.2 ⟨_, htail, rfl⟩)
        rw [← hne key' hkey']
        exact hmem key' a' htail
    · intro key' hnot
      rw [map_cons, mem_cons, not_or] at hnot
      rw [hother key' hnot.2, hne key' hnot.1]

variable {file : OrderedMap String Value}

open Value

lemma get?_overlayArgs {cli : List ParamArg} (hkey : key ≠ "__proto__") :
    (overlayArgs file cli).get? key =
      ((cli.reverse.find? fun arg => arg.key == key).map fun arg => str arg.rawValue).or
        (file.get? key) := by
  unfold overlayArgs
  induction cli generalizing file with
  | nil => rfl
  | cons arg cli ih =>
    rw [foldl_cons, ih, reverse_cons, find?_append]
    cases cli.reverse.find? fun arg => arg.key == key with
    | some later => rfl
    | none =>
      by_cases heq : arg.key = key
      · have hassign : ¬ (arg.key = "__proto__" ∧ file.has arg.key = false) := by
          rw [heq]
          exact fun h => hkey h.1
        rw [assignText, if_neg hassign, heq, get?_set_self]
        simp [heq]
      · have hget : (assignText file arg.key arg.rawValue).get? key = file.get? key := by
          unfold assignText
          split_ifs
          · rfl
          · exact file.get?_set_of_ne _ heq
        simp [heq, hget]

/-! ## What is returned -/

def ParamsInput.merged (input : ParamsInput) : OrderedMap String Value :=
  overlayArgs input.fileParams input.cli

variable {input : ParamsInput} {pf : ParamsPlatform}

lemma ParamsInput.get?_merged (hkey : key ≠ "__proto__") :
    input.merged.get? key = input.supplied key := get?_overlayArgs hkey

open ParamsInput

lemma eq_fileParams_of_readFileParams
    (h : readFileParams input.file = .ok file) : file = input.fileParams := by
  unfold fileParams
  unfold readFileParams at h
  split at h <;> rename_i hfile <;> rw [hfile]
  · exact (Except.ok.inj h).symm
  · cases h
  · cases h
  · exact (Except.ok.inj h).symm
  · exact (Except.ok.inj h).symm
  · cases h

section Returned

variable {pf : ParamsPlatform} {input : ParamsInput}
  {result : OrderedMap String (Option Value)}

lemma exists_of_resolveParams (h : resolveParams pf input = .ok result) :
    ∃ declared, collect (declaredEntry pf input.merged) (ownEntries input.workflowParams)
        OrderedMap.empty = .ok declared ∧
      collect (extraEntry input.workflowParams) (ownEntries input.merged) declared = .ok result ∧
      missingParams input.workflowParams result = [] := by
  unfold resolveParams at h
  split at h
  · cases h
  rename_i file hfile
  obtain rfl := eq_fileParams_of_readFileParams hfile
  dsimp only at h
  split at h
  · cases h
  rename_i declared hdeclared
  split at h
  · cases h
  rename_i result' hextra
  split at h
  · rename_i hmissing
    obtain rfl : result' = result := Except.ok.inj h
    exact ⟨declared, hdeclared, hextra, hmissing⟩
  · cases h

variable {decl : ParamDeclaration}

theorem get?_resolveParams_declared (h : resolveParams pf input = .ok result)
    (hdecl : input.workflowParams.get? key = some decl) :
    ∃ made, declaredEntry pf input.merged key decl = .ok made ∧ result.get? key = made := by
  obtain ⟨declared, hdeclared, hextra, -⟩ := exists_of_resolveParams h
  obtain ⟨made, hmade, hget⟩ :=
    (collect_spec (nodup_ownEntries _) hdeclared).1 key decl (mem_ownEntries_iff.2 hdecl)
  refine ⟨made, hmade, ?_⟩
  have hkeep : result.get? key = declared.get? key := by
    obtain ⟨hmem, hother⟩ := collect_spec (nodup_ownEntries _) hextra
    by_cases hkey : key ∈ (ownEntries input.merged).map Prod.fst
    · obtain ⟨⟨key', value⟩, hin, rfl⟩ := List.mem_map.1 hkey
      obtain ⟨made', hmade', hget'⟩ := hmem _ value hin
      have hin : inRecord key' input.workflowParams := by
        rw [inRecord, has, hdecl]
        rfl
      rw [extraEntry, if_pos hin] at hmade'
      rw [hget', ← Except.ok.inj hmade']
      rfl
    · exact hother key hkey
  rw [hkeep, hget, get?_empty, or_none]

theorem get?_resolveParams_undeclared (h : resolveParams pf input = .ok result)
    (hdecl : input.workflowParams.get? key = none) :
    (input.merged.get? key = none ∧ result.get? key = none) ∨
    ∃ value made, input.merged.get? key = some value ∧
      extraEntry input.workflowParams key value = .ok made ∧ result.get? key = made := by
  obtain ⟨declared, hdeclared, hextra, -⟩ := exists_of_resolveParams h
  have hnone : declared.get? key = none := by
    rw [(collect_spec (nodup_ownEntries _) hdeclared).2 key, get?_empty]
    intro hmem
    obtain ⟨⟨key', decl⟩, hin, rfl⟩ := List.mem_map.1 hmem
    rw [mem_ownEntries_iff.1 hin] at hdecl
    cases hdecl
  obtain ⟨hmem, hother⟩ := collect_spec (nodup_ownEntries _) hextra
  cases hvalue : input.merged.get? key with
  | none =>
    refine Or.inl ⟨rfl, ?_⟩
    rw [hother key, hnone]
    intro hkey
    obtain ⟨⟨key', value⟩, hin, rfl⟩ := List.mem_map.1 hkey
    rw [mem_ownEntries_iff.1 hin] at hvalue
    cases hvalue
  | some value =>
    obtain ⟨made, hmade, hget⟩ := hmem key value (mem_ownEntries_iff.2 hvalue)
    exact Or.inr ⟨value, made, rfl, hmade, by rw [hget, hnone, or_none]⟩

lemma inRecord_of_required (h : resolveParams pf input = .ok result)
    (hdecl : input.workflowParams.get? key = some decl) (hrequired : decl.required) :
    inRecord key result := by
  obtain ⟨-, -, -, hmissing⟩ := exists_of_resolveParams h
  rw [missingParams, map_eq_nil_iff, filter_eq_nil_iff] at hmissing
  have hentry := hmissing _ (mem_ownEntries_iff.2 hdecl)
  simpa [hrequired] using hentry

/-! ### A declared param -/

lemma get?_of_supplied (h : resolveParams pf input = .ok result) (hproto : key ≠ "__proto__")
    (hdecl : input.workflowParams.get? key = some decl) {raw : Value}
    (hraw : input.supplied key = some raw) (hnull : raw ≠ .null) :
    ∃ v, result.get? key = some v ∧ looksLikeCredential (stringifySafe raw) = false ∧
      coerceValue pf key (stringifySafe raw) decl.type = .ok v := by
  obtain ⟨made, hmade, hget⟩ := get?_resolveParams_declared h hdecl
  have hread : readProperty input.merged key = some raw := by
    rw [readProperty, get?_merged hproto, hraw]
    rfl
  unfold declaredEntry at hmade
  rw [hread] at hmade
  split at hmade
  · cases ‹some raw = none›
  · exact absurd (some.inj ‹some raw = some null›) hnull
  rename_i rawValue _ heq
  obtain rfl := some.inj heq
  split_ifs at hmade with hcredential
  cases hcoerce : coerceValue pf key (stringifySafe raw) decl.type with
  | error e =>
    rw [hcoerce] at hmade
    cases hmade
  | ok v =>
    rw [hcoerce] at hmade
    refine ⟨v, ?_, Bool.eq_false_iff.2 hcredential, rfl⟩
    rw [hget, ← Except.ok.inj hmade]

/-- A declared param that is supplied as `null` is not written. -/
lemma get?_of_null (h : resolveParams pf input = .ok result) (hproto : key ≠ "__proto__")
    (hdecl : input.workflowParams.get? key = some decl) (hraw : input.supplied key = some .null) :
    result.get? key = none := by
  obtain ⟨made, hmade, hget⟩ := get?_resolveParams_declared h hdecl
  have hread : readProperty input.merged key = some .null := by
    rw [readProperty, get?_merged hproto, hraw]
    rfl
  rw [declaredEntry, hread] at hmade
  rw [hget, ← Except.ok.inj hmade]

lemma get?_of_missing (h : resolveParams pf input = .ok result) (hproto : key ≠ "__proto__")
    (hdecl : input.workflowParams.get? key = some decl) (hraw : input.supplied key = none)
    (hname : key ∉ inheritedKeys) : result.get? key = none := by
  obtain ⟨made, hmade, hget⟩ := get?_resolveParams_declared h hdecl
  have hread : readProperty input.merged key = none := by
    rw [readProperty, get?_merged hproto, hraw, inherited?, if_neg]
    · rfl
    · simpa using hname
  rw [declaredEntry, hread] at hmade
  rw [hget, ← Except.ok.inj hmade]

lemma has_of_inherited (h : resolveParams pf input = .ok result) (hproto : key ≠ "__proto__")
    (hdecl : input.workflowParams.get? key = some decl) (hraw : input.supplied key = none)
    (hname : key ∈ inheritedKeys) : result.has key := by
  obtain ⟨made, hmade, hget⟩ := get?_resolveParams_declared h hdecl
  have hread : readProperty input.merged key = some (.builtin key) := by
    rw [readProperty, get?_merged hproto, hraw, inherited?, if_pos]
    · rfl
    · simpa using hname
  rw [declaredEntry, hread] at hmade
  dsimp only at hmade
  split_ifs at hmade
  cases hcoerce : coerceValue pf key (stringifySafe (.builtin key)) decl.type with
  | error e =>
    rw [hcoerce] at hmade
    cases hmade
  | ok v =>
    rw [hcoerce] at hmade
    rw [has, hget, ← Except.ok.inj hmade]
    rfl

end Returned

variable {type : ParamType} {v : Option Value}

lemma denotes_of_coerceValue {key text : String} (h : coerceValue pf key (some text) type = .ok v) :
    ∃ value, v = some value ∧ type.Denotes pf text value := by
  cases type with
  | string =>
    obtain rfl := Except.ok.inj h
    exact ⟨.str text, rfl, rfl⟩
  | number =>
    rw [coerceValue, bind_some] at h
    split at h
    · rename_i n hn
      obtain rfl := Except.ok.inj h
      exact ⟨.num n, rfl, n, hn, rfl⟩
    · cases h
  | boolean =>
    rw [coerceValue] at h
    split_ifs at h with htrue hfalse
    · obtain rfl := Except.ok.inj h
      exact ⟨.bool true, rfl, Or.inl ⟨some.inj htrue, rfl⟩⟩
    · obtain rfl := Except.ok.inj h
      exact ⟨.bool false, rfl, Or.inr ⟨some.inj hfalse, rfl⟩⟩
  | date =>
    rw [coerceValue, bind_some] at h
    split at h
    · rename_i iso hiso
      obtain rfl := Except.ok.inj h
      exact ⟨.date iso, rfl, iso, hiso, rfl⟩
    · cases h

/-- Nothing is made of `undefined`. -/
lemma eq_none_of_coerceValue_none (h : coerceValue pf key none type = .ok v) : v = none := by
  cases type with
  | string => exact (Except.ok.inj h).symm
  | number => cases h
  | boolean => cases h
  | date => cases h

/-! ## Credentials -/

/-- A text without the letters `s`, `g`, `K` and `J` looks like no credential.

**Proof sketch.** Every pattern starts with a word that has one of the letters. -/
lemma looksLikeCredential_of_notMem {text : String}
    (h : ∀ c ∈ text.toList, c ∉ ['s', 'g', 'K', 'J']) :
    looksLikeCredential (some text) = false := by
  have hword : ∀ (c : Char) (word : List Char) (r : Regex Char), r.Plain → c ∈ word →
      c ∈ ['s', 'g', 'K', 'J'] → (Regex.seq (.lit word) r).test text.toList = false := by
    intro c word r hr hc hletter
    have hplain : (Regex.seq (.lit word) r).Plain := ⟨Regex.plain_lit word, hr⟩
    refine Regex.test_eq_false_of_notMem hplain ?_ fun hmem => h c hmem hletter
    rintro w ⟨u, v, hu, -, rfl⟩
    rw [Regex.denotes_lit.1 hu]
    exact mem_append_left v hc
  rw [looksLikeCredential, List.any_eq_false]
  intro pattern hpattern
  simp only [CREDENTIAL_PATTERNS, mem_cons, not_mem_nil, or_false] at hpattern
  rw [getD_some, Bool.not_eq_true]
  rcases hpattern with rfl | rfl | rfl | rfl
  · exact hword 's' _ _ (by simp [Regex.Plain]) (by decide) (by decide)
  · exact hword 'g' _ _ (by simp [Regex.Plain]) (by decide) (by decide)
  · exact hword 'K' _ _ (by simp [Regex.Plain]) (by decide) (by decide)
  · refine hword 'J' "eyJ".toList _ ?_ (by decide) (by decide)
    simp [Regex.seqs, Regex.plus, Regex.Plain, Regex.plain_lit]

lemma looksLikeCredential_of_denotes {text : String} {value : Value}
    (h : looksLikeCredential (some text) = false) (hdenotes : type.Denotes pf text value) :
    looksLikeCredential (stringifySafe value) = false := by
  cases type with
  | string =>
    obtain rfl := hdenotes
    exact h
  | number =>
    obtain ⟨n, hn, rfl⟩ := hdenotes
    refine looksLikeCredential_of_notMem fun c hc hletter => ?_
    have hother : ∀ c ∈ ['s', 'g', 'K', 'J'], c ∉ numberChars := by simp [numberChars]
    exact hother c hletter (pf.number_chars text n hn c hc)
  | boolean =>
    rcases hdenotes with ⟨rfl, rfl⟩ | ⟨rfl, rfl⟩
    · exact h
    · exact h
  | date =>
    obtain ⟨iso, hiso, rfl⟩ := hdenotes
    refine looksLikeCredential_of_notMem fun c hc hletter => ?_
    have hother : ∀ c ∈ ['s', 'g', 'K', 'J'], c ∉ dateChars := by simp [dateChars]
    exact hother c hletter (pf.date_chars text iso hiso c hc)

/-! ## The record -/

section Record

variable {pf : ParamsPlatform} {input : ParamsInput}
  {result : OrderedMap String (Option Value)}

lemma resolveToString_param (captures : CaptureStore) (h : result.get? key = some v) :
    ValueResolver.resolveToString ⟨captures, runParams result⟩ (.param key) =
      .ok (valueToString (v.getD .null)) := by
  have hget : (runParams result).get? key = some (v.getD .null) := by
    rw [runParams, get?_mapVal, h]
    rfl
  rw [ValueResolver.resolveToString, ValueResolver.resolve, resolveParam, hget]
  · rfl
  · intro ref hsecret
    cases hsecret

lemma get?_of_undeclared (h : resolveParams pf input = .ok result)
    (hdecl : input.workflowParams.get? key = none) (hname : key ∉ inheritedKeys) :
    (input.supplied key = none ∧ result.get? key = none) ∨
    ∃ raw, input.supplied key = some raw ∧ looksLikeCredential (stringifySafe raw) = false ∧
      result.get? key = some ((stringifySafe raw).map .str) := by
  have hproto : key ≠ "__proto__" := by
    rintro rfl
    exact hname (by decide)
  have hin : inRecord key input.workflowParams = false := by
    rw [inRecord, has, hdecl]
    simpa using hname
  rcases get?_resolveParams_undeclared h hdecl with
    ⟨hmerged, hget⟩ | ⟨raw, made, hmerged, hmade, hget⟩
  · exact Or.inl ⟨(get?_merged hproto).symm.trans hmerged, hget⟩
  · refine Or.inr ⟨raw, (get?_merged hproto).symm.trans hmerged, ?_⟩
    rw [extraEntry, if_neg (by rw [hin]; exact Bool.false_ne_true)] at hmade
    split_ifs at hmade with hcredential
    exact ⟨Bool.eq_false_iff.2 hcredential, by rw [hget, ← Except.ok.inj hmade]⟩

lemma get?_of_undeclared_inherited (h : resolveParams pf input = .ok result)
    (hdecl : input.workflowParams.get? key = none) (hname : key ∈ inheritedKeys) :
    result.get? key = none := by
  have hin : inRecord key input.workflowParams := by
    rw [inRecord, Bool.or_eq_true]
    exact Or.inr (by simpa using hname)
  rcases get?_resolveParams_undeclared h hdecl with ⟨-, hget⟩ | ⟨raw, made, -, hmade, hget⟩
  · exact hget
  · rw [extraEntry, if_pos hin] at hmade
    rw [hget, ← Except.ok.inj hmade]

lemma ne_proto_of_declared (hproto : input.workflowParams.has "__proto__" = false)
    {decl : ParamDeclaration} (hdecl : input.workflowParams.get? key = some decl) :
    key ≠ "__proto__" := by
  rintro rfl
  rw [has, hdecl] at hproto
  cases hproto

/-- Where the condition holds, a declared param is written when it is supplied, and is not
taken for an inherited member when it is not. -/
lemma ParamsInput.Resolvable.declared_cases (hcond : input.Resolvable pf)
    (h : resolveParams pf input = .ok result)
    (hproto : input.workflowParams.has "__proto__" = false) {decl : ParamDeclaration}
    (hdecl : input.workflowParams.get? key = some decl) :
    (∃ raw v, input.supplied key = some raw ∧ raw ≠ .null ∧ result.get? key = some v ∧
      looksLikeCredential (stringifySafe raw) = false ∧
      coerceValue pf key (stringifySafe raw) decl.type = .ok v) ∨
    (result.get? key = none ∧ decl.required = false) := by
  have hkey := ne_proto_of_declared hproto hdecl
  have hoptional : result.get? key = none → (key ∈ inheritedKeys → decl.required = false) →
      decl.required = false := by
    intro hget hname
    refine Bool.eq_false_iff.2 fun hrequired => ?_
    have hin := inRecord_of_required h hdecl hrequired
    rw [inRecord, has, hget, Bool.or_eq_true] at hin
    rcases hin with hin | hin
    · cases hin
    · rw [hname (by simpa using hin)] at hrequired
      cases hrequired
  cases hraw : input.supplied key with
  | none =>
    have hname : key ∉ inheritedKeys := by
      intro hmem
      obtain ⟨raw, hsome, -⟩ := hcond.declared key decl hdecl hmem
      rw [hraw] at hsome
      cases hsome
    have hget := get?_of_missing h hkey hdecl hraw hname
    exact Or.inr ⟨hget, hoptional hget fun hmem => absurd hmem hname⟩
  | some raw =>
    by_cases hnull : raw = .null
    · subst hnull
      have hget := get?_of_null h hkey hdecl hraw
      refine Or.inr ⟨hget, hoptional hget fun hmem => ?_⟩
      obtain ⟨raw, hsome, himp⟩ := hcond.declared key decl hdecl hmem
      rw [hraw] at hsome
      exact himp (some.inj hsome).symm
    · obtain ⟨v, hget, hcredential, hcoerce⟩ := get?_of_supplied h hkey hdecl hraw hnull
      exact Or.inl ⟨raw, v, rfl, hnull, hget, hcredential, hcoerce⟩

/-- Where the condition holds, the record is what it is to be. -/
lemma resolved_of_resolvable (h : resolveParams pf input = .ok result)
    (hproto : input.workflowParams.has "__proto__" = false) (hcond : input.Resolvable pf) :
    input.Resolved pf result where
  required key decl hdecl hrequired := by
    rcases hcond.declared_cases h hproto hdecl with ⟨raw, v, hraw, hnull, hget, -⟩ | ⟨-, hoptional⟩
    · exact ⟨by rw [has, hget]; rfl, raw, hraw, hnull⟩
    · rw [hoptional] at hrequired
      cases hrequired
  declared key decl v hdecl hget := by
    rcases hcond.declared_cases h hproto hdecl with
      ⟨raw, v', hraw, hnull, hget', -, hcoerce⟩ | ⟨hnone, -⟩
    · obtain rfl : v = v' := some.inj (hget.symm.trans hget')
      refine ⟨raw, hraw, hnull, fun text htext => ?_⟩
      rw [htext] at hcoerce
      exact denotes_of_coerceValue hcoerce
    · rw [hnone] at hget
      cases hget
  present key decl raw hdecl hraw hnull := by
    obtain ⟨v, hget, -⟩ := get?_of_supplied h (ne_proto_of_declared hproto hdecl) hdecl hraw hnull
    rw [has, hget]
    rfl
  noCredential key value hget := by
    cases hdecl : input.workflowParams.get? key with
    | some decl =>
      rcases hcond.declared_cases h hproto hdecl with
        ⟨raw, v, -, -, hget', hcredential, hcoerce⟩ | ⟨hnone, -⟩
      · obtain rfl : some value = v := some.inj (hget.symm.trans hget')
        cases htext : stringifySafe raw with
        | none =>
          rw [htext] at hcoerce
          cases eq_none_of_coerceValue_none hcoerce
        | some text =>
          rw [htext] at hcoerce hcredential
          obtain ⟨value', heq, hdenotes⟩ := denotes_of_coerceValue hcoerce
          obtain rfl := some.inj heq
          exact looksLikeCredential_of_denotes hcredential hdenotes
      · rw [hnone] at hget
        cases hget
    | none =>
      by_cases hname : key ∈ inheritedKeys
      · rw [get?_of_undeclared_inherited h hdecl hname] at hget
        cases hget
      rcases get?_of_undeclared h hdecl hname with ⟨-, hnone⟩ | ⟨raw, -, hcredential, hget'⟩
      · rw [hnone] at hget
        cases hget
      · rw [hget'] at hget
        obtain ⟨text, htext, rfl⟩ := map_eq_some_iff.1 (some.inj hget)
        rwa [htext] at hcredential
  passed key raw text hdecl hraw htext := by
    rcases get?_of_undeclared h hdecl (hcond.extra key raw text hdecl hraw htext) with
      ⟨hnone, -⟩ | ⟨raw', hraw', -, hget⟩
    · rw [hraw] at hnone
      cases hnone
    · obtain rfl : raw = raw' := some.inj (hraw.symm.trans hraw')
      rw [hget, htext]
      rfl
  only key hhas := by
    rw [has] at hhas
    cases hdecl : input.workflowParams.get? key with
    | some decl =>
      rcases hcond.declared_cases h hproto hdecl with ⟨raw, -, hraw, -⟩ | ⟨hnone, -⟩
      · rw [hraw]
        rfl
      · rw [hnone] at hhas
        cases hhas
    | none =>
      by_cases hname : key ∈ inheritedKeys
      · rw [get?_of_undeclared_inherited h hdecl hname] at hhas
        cases hhas
      rcases get?_of_undeclared h hdecl hname with ⟨-, hnone⟩ | ⟨raw, hraw, -⟩
      · rw [hnone] at hhas
        cases hhas
      · rw [hraw]
        rfl
  typed key decl raw text captures hdecl htype hraw hnull htext := by
    obtain ⟨v, hget, -, hcoerce⟩ :=
      get?_of_supplied h (ne_proto_of_declared hproto hdecl) hdecl hraw hnull
    rw [resolveToString_param captures hget]
    rw [htext] at hcoerce
    obtain ⟨value, rfl, hdenotes⟩ := denotes_of_coerceValue hcoerce
    rcases htype with htype | htype
    · rw [htype] at hdenotes
      rw [hdenotes]
      rfl
    · rw [htype] at hdenotes
      obtain ⟨iso, hiso, rfl⟩ := hdenotes
      exact congrArg Except.ok (hcond.date key decl raw text iso hdecl htype hraw hnull htext hiso)

lemma resolvable_of_resolved (h : resolveParams pf input = .ok result)
    (hproto : input.workflowParams.has "__proto__" = false) (hres : input.Resolved pf result) :
    input.Resolvable pf where
  declared key decl hdecl hname := by
    cases hraw : input.supplied key with
    | none =>
      have hhas := has_of_inherited h (ne_proto_of_declared hproto hdecl) hdecl hraw hname
      have hsupplied := hres.only key hhas
      rw [hraw] at hsupplied
      cases hsupplied
    | some raw =>
      refine ⟨raw, rfl, fun hnull => Bool.eq_false_iff.2 fun hrequired => ?_⟩
      obtain ⟨-, raw', hraw', hnull'⟩ := hres.required key decl hdecl hrequired
      rw [hraw] at hraw'
      exact hnull' ((some.inj hraw').symm.trans hnull)
  extra key raw text hdecl hraw htext hname := by
    have hget := hres.passed key raw text hdecl hraw htext
    rw [get?_of_undeclared_inherited h hdecl hname] at hget
    cases hget
  date key decl raw text iso hdecl htype hraw hnull htext hiso := by
    obtain ⟨v, hget, -, hcoerce⟩ :=
      get?_of_supplied h (ne_proto_of_declared hproto hdecl) hdecl hraw hnull
    rw [htext, htype, coerceValue, bind_some, hiso] at hcoerce
    have htyped :=
      hres.typed key decl raw text OrderedMap.empty hdecl (Or.inr htype) hraw hnull htext
    rw [resolveToString_param _ hget, ← Except.ok.inj hcoerce] at htyped
    exact Except.ok.inj htyped

/-- **When the record is what it is to be**: exactly when every declared name that objects
inherit is supplied, no supplied name without a declaration is such a name, and no date is
supplied but as the JSON text of the date. -/
theorem resolveParams_resolved_iff (h : resolveParams pf input = .ok result)
    (hproto : input.workflowParams.has "__proto__" = false) :
    input.Resolved pf result ↔ input.Resolvable pf :=
  ⟨resolvable_of_resolved h hproto, resolved_of_resolvable h hproto⟩

end Record

def sampleConversions : ParamsPlatform where
  number text := if text = "42" then some "42" else none
  date text := if text = "2026-04-01" then some "2026-04-01T00:00:00.000Z" else none
  number_chars text t h := by
    split_ifs at h
    obtain rfl := Option.some.inj h
    simp [numberChars]
  date_chars text t h := by
    split_ifs at h
    obtain rfl := Option.some.inj h
    simp [dateChars]

/-- A month and a count, declared and supplied, with a note that is not declared. -/
def monthInput : ParamsInput where
  cli := [⟨"month", "2026-04"⟩, ⟨"count", "42"⟩, ⟨"note", "draft"⟩]
  file := some ("params.yaml", .parsed (.obj [("month", .str "2026-03")]))
  workflowParams := OrderedMap.ofList
    [("month", ⟨.string, none, true⟩), ("count", ⟨.number, none, false⟩)]

lemma exists_of_isOk (h : (resolveParams pf input).isOk) :
    ∃ result, resolveParams pf input = .ok result := by
  cases hresult : resolveParams pf input with
  | error e => rw [hresult] at h; cases h
  | ok result => exact ⟨result, rfl⟩

/-- The record of the month and the count is what it is to be. -/
theorem resolveParams_resolved_month :
    ∃ result, resolveParams sampleConversions monthInput = .ok result ∧
      monthInput.Resolved sampleConversions result := by
  have hdeclared : ∀ key ∈ Value.inheritedKeys,
      monthInput.workflowParams.get? key = none := by decide
  have hsupplied : ∀ key ∈ Value.inheritedKeys, (monthInput.supplied key).isNone := by
    decide
  have hdate : ∀ e ∈ monthInput.workflowParams.entries, e.2.type ≠ .date := by decide
  obtain ⟨result, hresult⟩ : ∃ result, resolveParams sampleConversions monthInput = .ok result :=
    exists_of_isOk (by decide)
  refine ⟨result, hresult, (resolveParams_resolved_iff hresult (by decide)).2 ?_⟩
  refine ⟨?_, ?_, ?_⟩
  · intro key decl hdecl hname
    rw [hdeclared key hname] at hdecl
    cases hdecl
  · intro key raw text _ hraw _ hname
    have hnone := hsupplied key hname
    rw [hraw] at hnone
    cases hnone
  · intro key decl raw text iso hdecl htype
    exact absurd htype (hdate _ ((OrderedMap.get?_eq_some_iff _ _ _).1 hdecl))

/-- A required text named `constructor`, not supplied. -/
def constructorInput : ParamsInput where
  cli := []
  file := none
  workflowParams := OrderedMap.ofList [("constructor", ⟨.string, none, true⟩)]

/-- A date, supplied by its day. -/
def dateInput : ParamsInput where
  cli := [⟨"start", "2026-04-01"⟩]
  file := none
  workflowParams := OrderedMap.ofList [("start", ⟨.date, none, true⟩)]

/-- A required param named `constructor` is returned although it was not supplied, and a date is
typed as the quoted text of its first instant. -/
theorem constructor_returned :
    (∃ result, resolveParams sampleConversions constructorInput = .ok result ∧
      ¬ constructorInput.Resolved sampleConversions result) ∧
    ∃ result, resolveParams sampleConversions dateInput = .ok result ∧
      ¬ dateInput.Resolved sampleConversions result := by
  constructor
  · obtain ⟨result, hresult⟩ : ∃ result,
        resolveParams sampleConversions constructorInput = .ok result :=
      exists_of_isOk (by decide)
    refine ⟨result, hresult, fun hres => ?_⟩
    obtain ⟨raw, hraw, -⟩ := (resolvable_of_resolved hresult (by decide) hres).declared
      "constructor" ⟨.string, none, true⟩ rfl (by decide)
    cases hraw
  · obtain ⟨result, hresult⟩ : ∃ result, resolveParams sampleConversions dateInput = .ok result :=
      exists_of_isOk (by decide)
    refine ⟨result, hresult, fun hres => ?_⟩
    have hquote := (resolvable_of_resolved hresult (by decide) hres).date
      "start" ⟨.date, none, true⟩ (.str "2026-04-01") "2026-04-01" "2026-04-01T00:00:00.000Z"
      rfl rfl rfl Value.noConfusion rfl rfl
    exact absurd hquote (by decide)

end Yantra
