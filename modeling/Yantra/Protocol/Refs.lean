import Yantra.Protocol.Value
import Yantra.Lib.JsText

/-!
# References of a plan

The value references and locator chains a plan step carries, with the patterns their keys
must match, and the security scopes.

## Main definitions

* `ValueRef`, `CaptureRef`, `CollectionRef` — value references.
* `SecurityScope`, `FailureClass`, `HandoffReason`.
-/

namespace Yantra

/-! ## Key patterns -/

/-- A lowercase ASCII letter. -/
def isLowerLetter (c : Char) : Bool := 'a' ≤ c && c ≤ 'z'

def isAsciiDigit (c : Char) : Bool := '0' ≤ c && c ≤ '9'

/-- A character of `[a-z0-9_]`. -/
def isKeyChar (c : Char) : Bool := isLowerLetter c || isAsciiDigit c || c == '_'

/-- `/^s[0-9]+$/` -/
def matchesStepIdPattern (s : String) : Bool :=
  match s.toList with
  | 's' :: d :: ds => (d :: ds).all isAsciiDigit
  | _ => false

/-- `/^[a-z][a-z0-9_]*$/` on characters. -/
def isKeyWord : List Char → Bool
  | c :: cs => isLowerLetter c && cs.all isKeyChar
  | [] => false

/-- `/^[a-z][a-z0-9_]*$/` -/
def matchesCaptureAliasPattern (s : String) : Bool := isKeyWord s.toList

/-- `/^[a-z][a-z0-9_]*$/` -/
def matchesParamKeyPattern (s : String) : Bool := isKeyWord s.toList

/-- `/^[a-z][a-z0-9_]*\.[a-z][a-z0-9_]*$/` -/
def matchesSecretKeyPattern (s : String) : Bool :=
  match s.toList.span (· ≠ '.') with
  | (ns, '.' :: name) => isKeyWord ns && isKeyWord name
  | _ => false

def isAsciiLetter (c : Char) : Bool := isLowerLetter c || ('A' ≤ c && c ≤ 'Z')

/-- `/^[A-Za-z][A-Za-z0-9 _-]{0,63}$/` -/
def matchesWorkflowLocatorPattern (s : String) : Bool :=
  match s.toList with
  | c :: cs => isAsciiLetter c && decide (cs.length ≤ 63) &&
      cs.all fun d => isAsciiLetter d || isAsciiDigit d || d == ' ' || d == '_' || d == '-'
  | [] => false

/-! ## Security -/

/-- The scope a step runs under. -/
inductive SecurityScope where
  | «public»
  | readOnlyData
  | authenticated
  deriving DecidableEq, Repr, Inhabited

inductive FailureClass where
  | locatorNotFound
  | navigationTimeout
  | rateLimited
  | captchaDetected
  | mfaRequired
  | networkError
  | scopeViolation
  | validationError
  | ethicsRefused
  | budgetExhausted
  | userAborted
  | unexpected
  | resumeDrift
  | locatorMissInUnrecordedFrame
  | requirementsUnmet
  deriving DecidableEq, Repr, Inhabited

/-! ## Value references -/

inductive LiteralValue where
  | str (s : String)
  | num (text : String)
  | bool (b : Bool)
  | null
  deriving DecidableEq, Repr, Inhabited

def LiteralValue.toValue : LiteralValue → Value
  | .str s => .str s
  | .num text => .num text
  | .bool b => .bool b
  | .null => .null

/-- A reference to what an extract step captured: the whole capture, or one field of it. -/
structure CaptureRef where
  stepId : String
  field : Option String
  deriving DecidableEq, Repr, Inhabited

/-- A reference to a credential, with the hosts allowed to receive it. -/
structure SecretRef where
  key : String
  hosts : Option (List String)
  deriving DecidableEq, Repr, Inhabited

inductive ValueRef where
  | literal (value : LiteralValue)
  | param (key : String)
  | secret (ref : SecretRef)
  | capture (ref : CaptureRef)
  | template (template : String) (bindings : List (String × ValueRef))
  deriving Repr, Inhabited

/-- The collection a loop runs over. -/
inductive CollectionRef where
  | capture (ref : CaptureRef)
  | param (key : String)
  deriving DecidableEq, Repr, Inhabited

def CaptureRef.schemaValid (ref : CaptureRef) : Bool := matchesStepIdPattern ref.stepId

def SecretRef.schemaValid (ref : SecretRef) : Bool :=
  matchesSecretKeyPattern ref.key &&
    match ref.hosts with
    | none => true
    | some hosts => decide (1 ≤ hosts.length) && decide (hosts.length ≤ 32) &&
        hosts.all fun h => decide (1 ≤ h.length) && decide (JsText.utf16Length h ≤ 253)

mutual

def ValueRef.schemaValid : ValueRef → Bool
  | .literal _ => true
  | .param key => matchesParamKeyPattern key
  | .secret ref => ref.schemaValid
  | .capture ref => ref.schemaValid
  | .template _ bindings => ValueRef.bindingsSchemaValid bindings

/-- `ValueRef.schemaValid` on the bindings of a template. -/
def ValueRef.bindingsSchemaValid : List (String × ValueRef) → Bool
  | [] => true
  | (_, ref) :: bindings => ref.schemaValid && ValueRef.bindingsSchemaValid bindings

end

def CollectionRef.schemaValid : CollectionRef → Bool
  | .capture ref => ref.schemaValid
  | .param key => matchesParamKeyPattern key

/-! ## Locator references -/

/-- The ARIA roles an intent locator may name. -/
inductive RoleEnum where
  | button | link | textbox | searchbox | table | heading | region | dialog | listitem | cell
  | checkbox | radio | combobox | listbox | slider | spinbutton | option | tab | tabpanel
  | menuitem | row | grid
  deriving DecidableEq, Repr, Inhabited

inductive NameMatch where
  | exact (value : String)
  | regex (pattern flags : String)
  deriving DecidableEq, Repr, Inhabited

inductive LocatorChain where
  | recorded (stepIndex : Nat)
  | workflow (name : String)
  | intent (role : RoleEnum) (nameMatch : Option NameMatch) (near : Option LocatorChain)
  deriving Repr, Inhabited

def LocatorChain.schemaValid : LocatorChain → Bool
  | .recorded _ => true
  | .workflow name => matchesWorkflowLocatorPattern name
  | .intent _ _ none => true
  | .intent _ _ (some near) => near.schemaValid

end Yantra
