import Mathlib.Tactic.Common

/-!
# Runtime values

The values that flow through a run: literals of a plan, params, captures and checkpoint
contents. A number is kept by the text `String(n)` gives it, which determines the number and
is all the program ever reads of one; a `Date` is kept by its ISO text.

## Main definitions

* `Value` — a value.
* `valueToString` — how a template or a fill turns a value into text.
-/

namespace Yantra

inductive Value where
  | null
  | bool (b : Bool)
  /-- A number, by the text `String(n)` gives it. -/
  | num (text : String)
  | str (s : String)
  | date (iso : String)
  | arr (items : List Value)
  /-- A plain object: its own keys in enumeration order. -/
  | obj (fields : List (String × Value))
  /-- A member every object inherits, such as `constructor`. Reading a property can return
  one; no capture, param or file ever holds one. -/
  | builtin (name : String)
  deriving Repr, BEq, Inhabited

namespace Value

/-- The own property `key` of a list of fields. -/
def field? (key : String) : List (String × Value) → Option Value
  | [] => none
  | (k, v) :: fs => if k = key then some v else field? key fs

/-- The members every object inherits. -/
def inheritedKeys : List String :=
  ["constructor", "hasOwnProperty", "isPrototypeOf", "propertyIsEnumerable", "toLocaleString",
    "toString", "valueOf", "__proto__", "__defineGetter__", "__defineSetter__",
    "__lookupGetter__", "__lookupSetter__"]

def arrayInheritedKeys : List String :=
  ["at", "concat", "copyWithin", "entries", "every", "fill", "filter", "find", "findIndex",
    "findLast", "findLastIndex", "flat", "flatMap", "forEach", "includes", "indexOf", "join",
    "keys", "lastIndexOf", "map", "pop", "push", "reduce", "reduceRight", "reverse", "shift",
    "slice", "some", "sort", "splice", "toReversed", "toSorted", "toSpliced", "unshift",
    "values", "with"]

/-- An inherited member, when `key` names one. -/
def inherited? (names : List String) (key : String) : Option Value :=
  if names.contains key then some (.builtin key) else none

/-- The property `key` of an object, own or inherited: `none` exactly when `key in value` is
false. Only called on values whose `typeof` is `'object'`. -/
def property? (key : String) : Value → Option Value
  | obj fields => (field? key fields).orElse fun _ => inherited? inheritedKeys key
  | arr items =>
      if key = "length" then some (.num (toString items.length))
      else ((items.zipIdx.find? fun vi => toString vi.2 == key).map Prod.fst).orElse
        fun _ => inherited? (arrayInheritedKeys ++ inheritedKeys) key
  | _ => inherited? inheritedKeys key

/-- Whether `typeof value === 'object' && value !== null`. -/
def isObject : Value → Bool
  | arr _ => true
  | obj _ => true
  | date _ => true
  | _ => false

/-- Whether `JSON.stringify` writes the number with this text as `null`. -/
def nonFinite (text : String) : Bool :=
  text == "NaN" || text == "Infinity" || text == "-Infinity"

/-- The digit of `n < 16` in lowercase hexadecimal. -/
def hexDigit (n : Nat) : Char :=
  if n < 10 then Char.ofNat (48 + n) else Char.ofNat (87 + n)

/-- One character of a JSON string literal. -/
def escapeChar (c : Char) : List Char :=
  if c = '"' then ['\\', '"']
  else if c = '\\' then ['\\', '\\']
  else if c.toNat = 8 then ['\\', 'b']
  else if c.toNat = 12 then ['\\', 'f']
  else if c = '\n' then ['\\', 'n']
  else if c = '\r' then ['\\', 'r']
  else if c = '\t' then ['\\', 't']
  else if c.toNat < 32 then
    ['\\', 'u', '0', '0', hexDigit (c.toNat / 16), hexDigit (c.toNat % 16)]
  else [c]

/-- A JSON string literal. -/
def quote (s : String) : String :=
  String.ofList ('"' :: s.toList.flatMap escapeChar ++ ['"'])

mutual

/-- `JSON.stringify` of a value. -/
def stringify : Value → String
  | null => "null"
  | bool b => if b then "true" else "false"
  | num text => if nonFinite text then "null" else text
  | str s => quote s
  | date iso => quote iso
  | arr items => "[" ++ ",".intercalate (stringifyItems items) ++ "]"
  | obj fields => "\x7b" ++ ",".intercalate (stringifyFields fields) ++ "\x7d"
  | builtin _ => "null"

/-- `JSON.stringify` of the items of an array. -/
def stringifyItems : List Value → List String
  | [] => []
  | v :: vs => stringify v :: stringifyItems vs

/-- `JSON.stringify` of the fields of an object. -/
def stringifyFields : List (String × Value) → List String
  | [] => []
  | (k, v) :: fs => (quote k ++ ":" ++ stringify v) :: stringifyFields fs

end

mutual

/-- What a value becomes when it is written as JSON and read back. -/
def jsonRoundTrip : Value → Value
  | null => null
  | bool b => bool b
  | num text => if nonFinite text then null else num text
  | str s => str s
  | date iso => str iso
  | arr items => arr (jsonRoundTripItems items)
  | obj fields => obj (jsonRoundTripFields fields)
  | builtin _ => null

/-- `jsonRoundTrip` of the items of an array. -/
def jsonRoundTripItems : List Value → List Value
  | [] => []
  | v :: vs => jsonRoundTrip v :: jsonRoundTripItems vs

/-- `jsonRoundTrip` of the fields of an object. -/
def jsonRoundTripFields : List (String × Value) → List (String × Value)
  | [] => []
  | (k, v) :: fs => (k, jsonRoundTrip v) :: jsonRoundTripFields fs

end

end Value

/-- How a value is turned into text: strings as they are, scalars by `String`, `null` as the
empty text, anything else as JSON. -/
def valueToString : Value → String
  | .str s => s
  | .num text => text
  | .bool b => if b then "true" else "false"
  | .null => ""
  | .builtin _ => ""
  | v => v.stringify

end Yantra
