import Yantra.Executor.Stores

/-!
# Resolving value references

`ValueResolver`: how a step handler turns a reference into a value against the captures and
params it was built with.

## Main definitions

* `ValueResolver` — the captures and params a handler resolves against.
* `replaceAll`, `stripPlaceholders` — the text substitutions of a template.
-/

namespace Yantra

/-! ## Text substitution -/

/-- The replacement text of one match: `$$`, `$&`, `` $` `` and `$'` are expanded, as
`String.prototype.replaceAll` does for a replacement string. -/
def expandReplacement (matched before after : List Char) : List Char → List Char
  | '$' :: '$' :: rep => '$' :: expandReplacement matched before after rep
  | '$' :: '&' :: rep => matched ++ expandReplacement matched before after rep
  | '$' :: '`' :: rep => before ++ expandReplacement matched before after rep
  | '$' :: '\'' :: rep => after ++ expandReplacement matched before after rep
  | c :: rep => c :: expandReplacement matched before after rep
  | [] => []

/-- Replace every occurrence of `pat`, left to right. `skip` counts the characters of the
current match still to be passed over and `before` holds the text read so far, reversed. -/
def replaceAllFrom (pat rep : List Char) : Nat → List Char → List Char → List Char
  | _, _, [] => []
  | skip + 1, before, c :: cs => replaceAllFrom pat rep skip (c :: before) cs
  | 0, before, c :: cs =>
    if pat.isPrefixOf (c :: cs) then
      expandReplacement pat before.reverse ((c :: cs).drop pat.length) rep ++
        replaceAllFrom pat rep (pat.length - 1) (c :: before) cs
    else c :: replaceAllFrom pat rep 0 (c :: before) cs

/-- `text.replaceAll(pat, rep)` for a nonempty `pat`. -/
def replaceAll (text pat rep : String) : String :=
  String.ofList (replaceAllFrom pat.toList rep.toList 0 [] text.toList)

/-- The length of a match of `/\{\{([^}]+)\}\}/` at the head of a text. -/
def placeholderLength : List Char → Option Nat
  | '{' :: '{' :: cs =>
    match cs.span (· ≠ '}') with
    | (_ :: inner, '}' :: '}' :: _) => some (inner.length + 5)
    | _ => none
  | _ => none

/-- Drop every match of `/\{\{([^}]+)\}\}/g`; `skip` counts the characters of the current
match still to be dropped. -/
def stripPlaceholdersFrom : Nat → List Char → List Char
  | _, [] => []
  | skip + 1, _ :: cs => stripPlaceholdersFrom skip cs
  | 0, c :: cs =>
    match placeholderLength (c :: cs) with
    | some n => stripPlaceholdersFrom (n - 1) cs
    | none => c :: stripPlaceholdersFrom 0 cs

/-- `text.replace(/\{\{([^}]+)\}\}/g, '')` -/
def stripPlaceholders (text : String) : String :=
  String.ofList (stripPlaceholdersFrom 0 text.toList)

/-! ## Lookups -/

abbrev Params := OrderedMap String Value

/-- The value of a param: a supplied one, or a member every object inherits, since the source
asks `key in params`. -/
def resolveParam (params : Params) (key : String) : Except String Value :=
  match params.get? key with
  | some v => .ok v
  | none =>
    match Value.inherited? Value.inheritedKeys key with
    | some v => .ok v
    | none => .error ("Param \"" ++ key ++ "\" is not defined in task params.")

/-- The value of a capture reference: the capture stored under the step id, or one of its
properties. -/
def resolveCapture (captures : CaptureStore) (ref : CaptureRef) : Except String Value :=
  match captures.get? ref.stepId with
  | none => .error ("Capture step \"" ++ ref.stepId ++ "\" has no captured value.")
  | some envelope =>
    match ref.field with
    | none => .ok envelope
    | some field =>
      if envelope.isObject then
        match envelope.property? field with
        | some v => .ok v
        | none => .error ("Capture field \"" ++ field ++ "\" not found in step \"" ++
            ref.stepId ++ "\".")
      else .error ("Capture step \"" ++ ref.stepId ++
        "\" is not an object; cannot access field \"" ++ field ++ "\".")

/-! ## The resolver -/

/-- What a handler resolves against. -/
structure ValueResolver where
  captures : CaptureStore
  params : Params

namespace ValueResolver

mutual

/-- Resolve a reference to a value. A secret is refused here. -/
def resolve (r : ValueResolver) : ValueRef → Except String Value
  | .literal value => .ok value.toValue
  | .param key => resolveParam r.params key
  | .capture ref => resolveCapture r.captures ref
  | .template template bindings =>
      (resolveBindings r template bindings).map fun result => .str (stripPlaceholders result)
  | .secret ref => .error
      ("Secret references must be resolved via resolveSecret(), not resolve(). Secret key: \"" ++
        ref.key ++ "\"")

/-- Substitute the bindings of a template one after the other into the text so far. -/
def resolveBindings (r : ValueResolver) (result : String) :
    List (String × ValueRef) → Except String String
  | [] => .ok result
  | (placeholder, bindingRef) :: bindings =>
    match bindingRef with
    | .secret _ => .error ("Secret bindings (\"" ++ placeholder ++
        "\") are not allowed in template refs. " ++
        "Secrets may only appear as direct step values in fill steps.")
    | ref =>
      match resolve r ref with
      | .ok value => resolveBindings r
          (replaceAll result ("\x7b\x7b" ++ placeholder ++ "\x7d\x7d") (valueToString value)) bindings
      | .error e => .error e

end

def resolveToString (r : ValueResolver) : ValueRef → Except String String
  | .secret _ => .error
      ("Secret references cannot be coerced to strings via resolveToString(). " ++
        "Use resolveSecret() at fill step boundaries only.")
  | ref => (resolve r ref).map valueToString

end ValueResolver

/-- A later binding of a template sees the text an earlier one inserted. -/
example : ValueResolver.resolve ⟨OrderedMap.empty, OrderedMap.empty⟩
    (.template "{{a}}" [("a", .literal (.str "{{b}}")), ("b", .literal (.str "x"))]) =
      .ok (.str "x") := by rfl

end Yantra
