import Yantra.Lib.Utf8

/-!
# JSON texts

`JSON.stringify` and `JSON.parse` on plain values. What a numeral denotes is the reader's business:
the parser takes the conversion as a parameter and relies on nothing about it.

## Main definitions

* `Json.quote`, `Json.serialize`, `Json.stringify` — writing.
* `Json.parse` — reading.

## Main results

* `Json.parseString_quote` — a quoted string is read back.
* `Json.isNumeral_toString` — a count is a numeral.
* `Json.parse_stringify` — what is written without indentation is read.
-/

namespace Json

open Utf16 List Option

/-! ## Numerals -/

/-- A character of a numeral: a digit, a sign, a point or an exponent's letter. -/
def isNumeralUnit (c : CodeUnit) : Bool := isDigit c || oneOf "+-.eE" c

/-- What follows an integer part without leading zeros. -/
def afterInt : JsString → Option JsString
  | [] => none
  | c :: s => if c = 48 then some s else if isDigit c then some (s.dropWhile isDigit) else none

/-- What follows one or more digits. -/
def afterDigits : JsString → Option JsString
  | [] => none
  | c :: s => if isDigit c then some (s.dropWhile isDigit) else none

def afterFraction : JsString → Option JsString
  | [] => some []
  | c :: s => if c = 46 then afterDigits s else some (c :: s)

def afterExponent : JsString → Option JsString
  | [] => some []
  | c :: s =>
    if oneOf "eE" c then
      match s with
      | [] => none
      | d :: t => if oneOf "+-" d then afterDigits t else afterDigits (d :: t)
    else some (c :: s)

/-- What follows a minus sign, if there is one. -/
def afterMinus : JsString → JsString
  | [] => []
  | c :: s => if c = 45 then s else c :: s

def isNumeral (text : JsString) : Bool :=
  ((afterInt (afterMinus text)).bind fun s => (afterFraction s).bind afterExponent) == some []

/-- A number: one that is written as a numeral, or an infinity. -/
inductive Number where
  | finite (numeral : JsString) (h : isNumeral numeral = true)
  | infinite (negative : Bool)

/-- `String(n)` -/
def Number.toText : Number → JsString
  | .finite numeral _ => numeral
  | .infinite false => units "Infinity"
  | .infinite true => units "-Infinity"

/-- `JSON.stringify(n)` -/
def Number.toJson : Number → JsString
  | .finite numeral _ => numeral
  | .infinite _ => units "null"

/-! ## Values -/

/-- A plain value. The members of an object are in the order of their enumeration. -/
inductive Value where
  | null
  | bool (b : Bool)
  | number (n : Number)
  | string (text : JsString)
  | array (items : List Value)
  | object (members : List (JsString × Value))

/-- The number of a property name that is an array index. -/
def arrayIndex? (key : JsString) : Option ℕ :=
  let n := key.foldl (fun n c => 10 * n + (c.toNat - 48)) 0
  if key ≠ [] ∧ key.all isDigit = true ∧ (key.head? = some 48 → key.length = 1) ∧ n < 4294967295
  then some n else none

/-- Whether a property is enumerated before another that is added after it: the array indices come
first, in ascending order. -/
def enumeratedBefore (key added : JsString) : Bool :=
  match arrayIndex? key, arrayIndex? added with
  | some m, some n => m < n
  | some _, none => true
  | none, some _ => false
  | none, none => true

def addProperty {α : Type} (members : List (JsString × α)) (key : JsString) (v : α) :
    List (JsString × α) :=
  members.takeWhile (fun m => enumeratedBefore m.1 key) ++
    (key, v) :: members.dropWhile fun m => enumeratedBefore m.1 key

/-- Create a property, or overwrite it where it is. -/
def setProperty {α : Type} (members : List (JsString × α)) (key : JsString) (v : α) :
    List (JsString × α) :=
  if members.any fun m => m.1 == key then
    members.map fun m => if m.1 == key then (key, v) else m
  else addProperty members key v

lemma forall_mem_setProperty {α : Type} {P : JsString × α → Prop} {members : List (JsString × α)}
    {key : JsString} {v : α} (h : ∀ m ∈ members, P m) (hnew : P (key, v)) :
    ∀ m ∈ setProperty members key v, P m := by
  unfold setProperty addProperty
  split_ifs
  · intro m hm
    obtain ⟨old, hold, rfl⟩ := List.mem_map.1 hm
    split_ifs
    · exact hnew
    · exact h old hold
  · intro m hm
    rcases mem_append.1 hm with hm | hm
    · exact h m (takeWhile_subset _ hm)
    · rcases mem_cons.1 hm with rfl | hm
      · exact hnew
      · exact h m (dropWhile_subset _ hm)

/-! ## Writing -/

/-- A hexadecimal digit, in lower case. -/
def hexDigit (d : ℕ) : CodeUnit := if d < 10 then (48 + d).toUInt16 else (87 + d).toUInt16

def unicodeEscape (c : ℕ) : JsString :=
  [92, 117, hexDigit (c / 0x1000 % 16), hexDigit (c / 0x100 % 16), hexDigit (c / 0x10 % 16),
    hexDigit (c % 16)]

/-- The letter that stands for a code point after a backslash. -/
def shortEscape? (c : ℕ) : Option CodeUnit :=
  if c = 8 then some 98 else if c = 9 then some 116 else if c = 10 then some 110
  else if c = 12 then some 102 else if c = 13 then some 114 else if c = 34 then some 34
  else if c = 92 then some 92 else none

/-- A code point as it is written in a quoted string; an unpaired surrogate is escaped. -/
def escapePoint (c : ℕ) : JsString :=
  match shortEscape? c with
  | some letter => [92, letter]
  | none => if c < 0x20 ∨ IsSurrogate c then unicodeEscape c else unitsOfPoint c

/-- `QuoteJSONString` -/
def quote (text : JsString) : JsString := 34 :: ((codePoints text).flatMap escapePoint ++ [34])

/-- The line break before an item; there is none without indentation. -/
def lineBreak (gap indent : JsString) : JsString := if gap.isEmpty then [] else 10 :: indent

/-- The colon after a key. -/
def colon (gap : JsString) : JsString := if gap.isEmpty then [58] else [58, 32]

mutual
/-- `SerializeJSONProperty` -/
def serialize (gap indent : JsString) : Value → JsString
  | .null => units "null"
  | .bool b => units (if b then "true" else "false")
  | .number n => n.toJson
  | .string text => quote text
  | .array [] => [91, 93]
  | .array (v :: vs) =>
      91 :: (lineBreak gap (indent ++ gap) ++ (serialize gap (indent ++ gap) v ++
        (serializeItems gap (indent ++ gap) vs ++ (lineBreak gap indent ++ [93]))))
  | .object [] => [123, 125]
  | .object ((key, v) :: ms) =>
      123 :: (lineBreak gap (indent ++ gap) ++ (quote key ++ (colon gap ++
        (serialize gap (indent ++ gap) v ++ (serializeMembers gap (indent ++ gap) ms ++
          (lineBreak gap indent ++ [125]))))))

/-- The items after the first. -/
def serializeItems (gap indent : JsString) : List Value → JsString
  | [] => []
  | v :: vs => 44 :: (lineBreak gap indent ++ (serialize gap indent v ++
      serializeItems gap indent vs))

/-- The members after the first. -/
def serializeMembers (gap indent : JsString) : List (JsString × Value) → JsString
  | [] => []
  | (key, v) :: ms => 44 :: (lineBreak gap indent ++ (quote key ++ (colon gap ++
      (serialize gap indent v ++ serializeMembers gap indent ms))))
end

/-- `JSON.stringify(v, null, indent)`: at most ten units of the indentation are used. -/
def stringify (v : Value) (indent : Option JsString := none) : JsString :=
  serialize ((indent.getD []).take 10) [] v

/-! ## Reading -/

/-- White space between tokens. -/
def isJsonSpace (c : CodeUnit) : Bool := c == 32 || c == 9 || c == 10 || c == 13

def hexValue? (c : CodeUnit) : Option ℕ :=
  if isDigit c then some (c.toNat - 48)
  else if 97 ≤ c && c ≤ 102 then some (c.toNat - 87)
  else if 65 ≤ c && c ≤ 70 then some (c.toNat - 55)
  else none

/-- The code unit of four hexadecimal digits, and what follows. -/
def readHex : JsString → Option (CodeUnit × JsString)
  | a :: b :: c :: d :: s =>
    match hexValue? a, hexValue? b, hexValue? c, hexValue? d with
    | some x, some y, some z, some w => some ((((x * 16 + y) * 16 + z) * 16 + w).toUInt16, s)
    | _, _, _, _ => none
  | _ => none

/-- What a letter stands for after a backslash. -/
def escaped? (c : CodeUnit) : Option CodeUnit :=
  if c = 34 then some 34 else if c = 92 then some 92 else if c = 47 then some 47
  else if c = 98 then some 8 else if c = 102 then some 12 else if c = 110 then some 10
  else if c = 114 then some 13 else if c = 116 then some 9 else none

def readUnit : JsString → Option (CodeUnit × JsString)
  | [] => none
  | c :: s =>
    if c = 92 then
      match s with
      | [] => none
      | e :: t =>
        match escaped? e with
        | some u => some (u, t)
        | none => if e = 117 then readHex t else none
    else if c < 0x20 ∨ c = 34 then none
    else some (c, s)

/-- A quoted string from after its opening quote, and what follows its closing one. -/
def parseString : ℕ → JsString → Option (JsString × JsString)
  | 0, _ => none
  | n + 1, s =>
    if s.head? = some 34 then some ([], s.tail)
    else (readUnit s).bind fun p => (parseString n p.2).map fun q => (p.1 :: q.1, q.2)

def parseNumber (numberOf : JsString → Number) (s : JsString) : Option (Value × JsString) :=
  if isNumeral (s.takeWhile isNumeralUnit) then
    some (.number (numberOf (s.takeWhile isNumeralUnit)), s.dropWhile isNumeralUnit)
  else none

def parseWord (w : String) (v : Value) (s : JsString) : Option (Value × JsString) :=
  if (units w).isPrefixOf s then some (v, s.drop (units w).length) else none

/-- The members of an object as they are read, the last of a name standing. -/
def ofMembers (ms : List (JsString × Value)) : Value :=
  .object (ms.foldl (fun members m => setProperty members m.1 m.2) [])

mutual
/-- A value, and what follows. -/
def parseValue (numberOf : JsString → Number) : ℕ → JsString → Option (Value × JsString)
  | 0, _ => none
  | n + 1, s =>
    match s.dropWhile isJsonSpace with
    | [] => none
    | c :: t =>
      if c = 34 then (parseString n t).map fun p => (.string p.1, p.2)
      else if c = 91 then
        if (t.dropWhile isJsonSpace).head? = some 93 then
          some (.array [], (t.dropWhile isJsonSpace).tail)
        else (parseItems numberOf n t).map fun p => (.array p.1, p.2)
      else if c = 123 then
        if (t.dropWhile isJsonSpace).head? = some 125 then
          some (.object [], (t.dropWhile isJsonSpace).tail)
        else (parseMembers numberOf n t).map fun p => (ofMembers p.1, p.2)
      else if c = 110 then parseWord "null" .null (c :: t)
      else if c = 116 then parseWord "true" (.bool true) (c :: t)
      else if c = 102 then parseWord "false" (.bool false) (c :: t)
      else parseNumber numberOf (c :: t)

/-- One or more items up to the closing bracket, and what follows. -/
def parseItems (numberOf : JsString → Number) : ℕ → JsString → Option (List Value × JsString)
  | 0, _ => none
  | n + 1, s =>
    (parseValue numberOf n s).bind fun p =>
      if (p.2.dropWhile isJsonSpace).head? = some 44 then
        (parseItems numberOf n (p.2.dropWhile isJsonSpace).tail).map fun q => (p.1 :: q.1, q.2)
      else if (p.2.dropWhile isJsonSpace).head? = some 93 then
        some ([p.1], (p.2.dropWhile isJsonSpace).tail)
      else none

/-- One or more members up to the closing brace, and what follows. -/
def parseMembers (numberOf : JsString → Number) :
    ℕ → JsString → Option (List (JsString × Value) × JsString)
  | 0, _ => none
  | n + 1, s =>
    if (s.dropWhile isJsonSpace).head? = some 34 then
      (parseString n (s.dropWhile isJsonSpace).tail).bind fun key =>
        if (key.2.dropWhile isJsonSpace).head? = some 58 then
          (parseValue numberOf n (key.2.dropWhile isJsonSpace).tail).bind fun p =>
            if (p.2.dropWhile isJsonSpace).head? = some 44 then
              (parseMembers numberOf n (p.2.dropWhile isJsonSpace).tail).map fun q =>
                ((key.1, p.1) :: q.1, q.2)
            else if (p.2.dropWhile isJsonSpace).head? = some 125 then
              some ([(key.1, p.1)], (p.2.dropWhile isJsonSpace).tail)
            else none
        else none
    else none
end

/-- `JSON.parse`; `none` where it throws. -/
def parse (numberOf : JsString → Number) (text : JsString) : Option Value :=
  (parseValue numberOf (2 * text.length + 2) text).bind fun p =>
    if p.2.all isJsonSpace then some p.1 else none

/-! ## Numerals are read back -/

def Takes (s rest : JsString) : Prop :=
  ∃ used, s = used ++ rest ∧ ∀ c ∈ used, isNumeralUnit c = true

lemma Takes.refl (s : JsString) : Takes s s := ⟨[], rfl, fun _ h => absurd h not_mem_nil⟩

lemma Takes.trans {s t u : JsString} (h : Takes s t) (h' : Takes t u) : Takes s u := by
  obtain ⟨used, rfl, hused⟩ := h
  obtain ⟨used', rfl, hused'⟩ := h'
  refine ⟨used ++ used', (append_assoc _ _ _).symm, fun c hc => ?_⟩
  rcases mem_append.1 hc with hc | hc
  · exact hused c hc
  · exact hused' c hc

variable {c : CodeUnit}

lemma Takes.cons {s t : JsString} (hc : isNumeralUnit c) (h : Takes s t) :
    Takes (c :: s) t := by
  obtain ⟨used, rfl, hused⟩ := h
  exact ⟨c :: used, rfl, forall_mem_cons.2 ⟨hc, hused⟩⟩

lemma isNumeralUnit_of_isDigit (h : isDigit c) : isNumeralUnit c := by
  rw [isNumeralUnit, h, Bool.true_or]

lemma isNumeralUnit_of_oneOf (h : oneOf "+-.eE" c) :
    isNumeralUnit c := by
  rw [isNumeralUnit, h, Bool.or_true]

lemma takes_dropWhile (s : JsString) : Takes s (s.dropWhile isDigit) :=
  ⟨s.takeWhile isDigit, takeWhile_append_dropWhile.symm,
    fun _ hc => isNumeralUnit_of_isDigit (mem_takeWhile_imp hc)⟩

variable {s rest : JsString}

lemma takes_of_afterDigits (h : afterDigits s = some rest) :
    Takes s rest := by
  cases s with
  | nil => cases h
  | cons c s =>
    simp only [afterDigits] at h
    split_ifs at h with hdigit
    obtain rfl := some.inj h
    exact .cons (isNumeralUnit_of_isDigit hdigit) (takes_dropWhile s)

lemma takes_of_afterInt (h : afterInt s = some rest) : Takes s rest := by
  cases s with
  | nil => cases h
  | cons c s =>
    simp only [afterInt] at h
    split_ifs at h with hzero hdigit
    · obtain rfl := some.inj h
      exact .cons (hzero ▸ rfl) (.refl s)
    · obtain rfl := some.inj h
      exact .cons (isNumeralUnit_of_isDigit hdigit) (takes_dropWhile s)

lemma takes_of_afterFraction (h : afterFraction s = some rest) :
    Takes s rest := by
  cases s with
  | nil =>
    obtain rfl := some.inj h
    exact .refl []
  | cons c s =>
    simp only [afterFraction] at h
    split_ifs at h with hpoint
    · exact .cons (hpoint ▸ rfl) (takes_of_afterDigits h)
    · obtain rfl := some.inj h
      exact .refl _

lemma isNumeralUnit_of_subset {w : String} (hw : units w ⊆ units "+-.eE") (h : oneOf w c) :
    isNumeralUnit c := by
  refine isNumeralUnit_of_oneOf ?_
  rw [oneOf, contains_iff_mem] at h ⊢
  exact hw h

lemma takes_of_afterExponent (h : afterExponent s = some rest) :
    Takes s rest := by
  cases s with
  | nil =>
    obtain rfl := some.inj h
    exact .refl []
  | cons c s =>
    simp only [afterExponent] at h
    split_ifs at h with hletter
    · have hunit : isNumeralUnit c = true := isNumeralUnit_of_subset (by decide) hletter
      cases s with
      | nil => cases h
      | cons d t =>
        simp only at h
        split_ifs at h with hsign
        · have hd : isNumeralUnit d = true := isNumeralUnit_of_subset (by decide) hsign
          exact .cons hunit (.cons hd (takes_of_afterDigits h))
        · exact .cons hunit (takes_of_afterDigits h)
    · obtain rfl := some.inj h
      exact .refl _

lemma isDigit_of_afterInt (h : afterInt s = some rest) :
    ∃ c t, s = c :: t ∧ isDigit c := by
  cases s with
  | nil => cases h
  | cons c s =>
    simp only [afterInt] at h
    split_ifs at h with hzero hdigit
    · exact ⟨c, s, rfl, hzero ▸ rfl⟩
    · exact ⟨c, s, rfl, hdigit⟩

lemma units_of_isNumeral {text : JsString} (h : isNumeral text) :
    (∀ c ∈ text, isNumeralUnit c) ∧
      ∃ c s, text = c :: s ∧ (c = 45 ∨ isDigit c) := by
  rw [isNumeral, beq_iff_eq] at h
  obtain ⟨fraction, hint, h⟩ := bind_eq_some_iff.1 h
  obtain ⟨exponent, hfraction, hexponent⟩ := bind_eq_some_iff.1 h
  have htakes : Takes (afterMinus text) [] := (takes_of_afterInt hint).trans
    ((takes_of_afterFraction hfraction).trans (takes_of_afterExponent hexponent))
  obtain ⟨used, hused, hunits⟩ := htakes
  rw [append_nil] at hused
  cases text with
  | nil => cases hint
  | cons c s =>
    rw [afterMinus] at hint hused
    split_ifs at hint hused with hminus
    · refine ⟨forall_mem_cons.2 ⟨hminus ▸ rfl, hused ▸ hunits⟩, c, s, rfl, .inl hminus⟩
    · obtain ⟨d, t, htext, hdigit⟩ := isDigit_of_afterInt hint
      obtain ⟨rfl, rfl⟩ := List.cons.inj htext
      exact ⟨hused ▸ hunits, c, s, rfl, .inr hdigit⟩

/-! ## Strings are read back -/

lemma hexValue?_hexDigit {d : ℕ} (h : d < 16) : hexValue? (hexDigit d) = some d := by
  have hall : ∀ d : Fin 16, hexValue? (hexDigit d) = some d.val := by decide
  exact hall ⟨d, h⟩

lemma readUnit_unicodeEscape {c : ℕ} (h : c < 0x10000) (s : JsString) :
    readUnit (unicodeEscape c ++ s) = some (c.toUInt16, s) := by
  have hdigits : (((c / 0x1000 % 16 * 16 + c / 0x100 % 16) * 16 + c / 0x10 % 16) * 16 + c % 16)
      = c := by omega
  have hread : readHex (hexDigit (c / 0x1000 % 16) :: hexDigit (c / 0x100 % 16) ::
      hexDigit (c / 0x10 % 16) :: hexDigit (c % 16) :: s) = some (c.toUInt16, s) := by
    rw [readHex, hexValue?_hexDigit (Nat.mod_lt _ (by decide)),
      hexValue?_hexDigit (Nat.mod_lt _ (by decide)), hexValue?_hexDigit (Nat.mod_lt _ (by decide)),
      hexValue?_hexDigit (Nat.mod_lt _ (by decide))]
    simp only [hdigits]
  exact hread

lemma readUnit_plain (hspace : 0x20 ≤ c.toNat) (hquote : c ≠ 34) (hslash : c ≠ 92) (s : JsString) :
    readUnit (c :: s) = some (c, s) := by
  have hlow : ¬ c < 0x20 := by
    rw [UInt16.lt_iff_toNat_lt]
    exact not_lt.2 hspace
  rw [readUnit.eq_def]
  simp only [if_neg hslash, if_neg (not_or.2 ⟨hlow, hquote⟩)]

lemma readUnit_shortEscape {c : ℕ} {letter : CodeUnit} (h : shortEscape? c = some letter)
    (s : JsString) : c < 0x10000 ∧ readUnit (92 :: letter :: s) = some (c.toUInt16, s) := by
  unfold shortEscape? at h
  split_ifs at h with h8 h9 h10 h12 h13 h34 h92 <;> subst c <;> cases h <;> exact ⟨by decide, rfl⟩

lemma parseString_cons {s t : JsString} {u : CodeUnit} (hquote : s.head? ≠ some 34)
    (hread : readUnit s = some (u, t)) (n : ℕ) :
    parseString (n + 1) s = (parseString n t).map fun q => (u :: q.1, q.2) := by
  rw [parseString, if_neg hquote, hread]
  rfl

lemma head?_cons_ne {c d : CodeUnit} (h : c ≠ d) (s : JsString) : (c :: s).head? ≠ some d :=
  fun heq => h (some.inj heq)

lemma parseString_plain (hspace : 0x20 ≤ c.toNat) (hquote : c ≠ 34) (hslash : c ≠ 92) (n : ℕ)
    (s : JsString) :
    parseString (n + 1) (c :: s) = (parseString n s).map fun q => (c :: q.1, q.2) :=
  parseString_cons (head?_cons_ne hquote s) (readUnit_plain hspace hquote hslash s) n

lemma ne_of_toNat_ne {a b : CodeUnit} (h : a.toNat ≠ b.toNat) : a ≠ b := fun heq => h (heq ▸ rfl)

lemma parseString_escapePoint {c : ℕ} (h : c < 0x110000) (n : ℕ) (s : JsString) :
    parseString (n + (unitsOfPoint c).length) (escapePoint c ++ s) =
      (parseString n s).map fun q => (unitsOfPoint c ++ q.1, q.2) := by
  rw [escapePoint]
  split
  next letter hletter =>
    obtain ⟨hlt, hread⟩ := readUnit_shortEscape hletter s
    have hquote : ([92, letter] ++ s).head? ≠ some 34 := by simp
    rw [unitsOfPoint, if_pos hlt]
    exact parseString_cons hquote hread n
  next hletter =>
    split_ifs with hescape
    · have hlt : c < 0x10000 := by
        rcases hescape with hlow | ⟨-, hhigh⟩ <;> omega
      have hquote : (unicodeEscape c ++ s).head? ≠ some 34 := by simp [unicodeEscape]
      rw [unitsOfPoint, if_pos hlt]
      exact parseString_cons hquote (readUnit_unicodeEscape hlt s) n
    · rw [not_or, not_lt] at hescape
      have hne : c ≠ 34 ∧ c ≠ 92 := by
        constructor <;> rintro rfl <;> exact absurd hletter (by decide)
      rw [unitsOfPoint]
      split_ifs with hlt
      · have hnat := toNat_toUInt16 hlt
        generalize c.toUInt16 = a at hnat ⊢
        subst hnat
        exact parseString_plain hescape.1 (ne_of_toNat_ne hne.1) (ne_of_toNat_ne hne.2) n s
      · have hhigh : (0xD800 + (c - 0x10000) / 0x400).toUInt16.toNat =
            0xD800 + (c - 0x10000) / 0x400 := toNat_toUInt16 (by omega)
        have hlow : (0xDC00 + (c - 0x10000) % 0x400).toUInt16.toNat =
            0xDC00 + (c - 0x10000) % 0x400 := toNat_toUInt16 (by omega)
        generalize (0xD800 + (c - 0x10000) / 0x400).toUInt16 = a at hhigh ⊢
        generalize (0xDC00 + (c - 0x10000) % 0x400).toUInt16 = b at hlow ⊢
        change parseString (n + 1 + 1) (a :: b :: s) = _
        rw [parseString_plain (by omega) (ne_of_toNat_ne (by change a.toNat ≠ 34; omega))
            (ne_of_toNat_ne (by change a.toNat ≠ 92; omega)),
          parseString_plain (by omega) (ne_of_toNat_ne (by change b.toNat ≠ 34; omega))
            (ne_of_toNat_ne (by change b.toNat ≠ 92; omega)), Option.map_map]
        rfl

lemma parseString_points {cs : List ℕ} (h : ∀ c ∈ cs, c < 0x110000) (n : ℕ) (rest : JsString) :
    parseString (n + 1 + (cs.flatMap unitsOfPoint).length) (cs.flatMap escapePoint ++ 34 :: rest) =
      some (cs.flatMap unitsOfPoint, rest) := by
  induction cs with
  | nil => rfl
  | cons c cs ih =>
    rw [flatMap_cons, flatMap_cons, append_assoc, length_append,
      Nat.add_comm (unitsOfPoint c).length, ← Nat.add_assoc,
      parseString_escapePoint (h c mem_cons_self),
      ih fun d hd => h d (mem_cons_of_mem c hd)]
    rfl

variable {n : ℕ}

/-- **A quoted string is read back**, whatever follows it. -/
theorem parseString_quote (text rest : JsString) (hn : text.length < n) :
    parseString n ((codePoints text).flatMap escapePoint ++ 34 :: rest) = some (text, rest) := by
  obtain ⟨k, rfl⟩ := Nat.exists_eq_add_of_lt hn
  have hread := parseString_points (lt_of_mem_codePoints (s := text)) k rest
  rw [flatMap_codePoints] at hread
  rw [← hread]
  congr 1
  omega

lemma length_unitsOfPoint_le (c : ℕ) : (unitsOfPoint c).length ≤ (escapePoint c).length := by
  have htwo : (unitsOfPoint c).length ≤ 2 := by
    unfold unitsOfPoint
    split_ifs <;> simp
  rw [escapePoint]
  split
  next => exact htwo
  next =>
    split_ifs
    · exact htwo.trans (by simp [unicodeEscape])
    · exact le_rfl

lemma length_lt_quote (text : JsString) : text.length < (quote text).length := by
  have hle : ∀ cs : List ℕ, (cs.flatMap unitsOfPoint).length ≤ (cs.flatMap escapePoint).length := by
    intro cs
    induction cs with
    | nil => exact le_rfl
    | cons c cs ih =>
      rw [flatMap_cons, flatMap_cons, length_append, length_append]
      exact Nat.add_le_add (length_unitsOfPoint_le c) ih
  have hpoints := hle (codePoints text)
  rw [flatMap_codePoints] at hpoints
  rw [quote, length_cons, length_append]
  omega

/-! ## Values are read back -/

/-- What follows a value does not continue a numeral. -/
def Stops (rest : JsString) : Prop := ∀ c ∈ rest.head?, isNumeralUnit c = false

lemma stops_cons (h : isNumeralUnit c = false) (rest : JsString) :
    Stops (c :: rest) := by
  rintro d hd
  obtain rfl := some.inj hd
  exact h

/-- A value, once written, is read, whatever follows it. -/
def Reads (numberOf : JsString → Number) (v : Value) : Prop :=
  ∀ n rest, 2 * (serialize [] [] v).length < n → Stops rest →
    ∃ v', parseValue numberOf n (serialize [] [] v ++ rest) = some (v', rest)

lemma dropWhile_cons (h : isJsonSpace c = false) (s : JsString) :
    (c :: s).dropWhile isJsonSpace = c :: s := by
  rw [List.dropWhile_cons, h, if_neg Bool.false_ne_true]

lemma startsNumber (h : c = 45 ∨ isDigit c) :
    isJsonSpace c = false ∧ c ≠ 34 ∧ c ≠ 91 ∧ c ≠ 93 ∧ c ≠ 123 ∧ c ≠ 110 ∧ c ≠ 116 ∧ c ≠ 102 := by
  rcases h with rfl | h
  · decide
  · refine ⟨?_, ?_, ?_, ?_, ?_, ?_, ?_, ?_⟩
    · rw [Bool.eq_false_iff]
      intro hspace
      simp only [isJsonSpace, Bool.or_eq_true, beq_iff_eq] at hspace
      rcases hspace with ((rfl | rfl) | rfl) | rfl <;> exact absurd h (by decide)
    all_goals
      rintro rfl
      exact absurd h (by decide)

lemma head_serialize (gap indent : JsString) (v : Value) :
    ∃ c t, serialize gap indent v = c :: t ∧ isJsonSpace c = false ∧ c ≠ 93 := by
  cases v with
  | null => exact ⟨110, units "ull", rfl, by decide, by decide⟩
  | bool b =>
    cases b with
    | false => exact ⟨102, units "alse", rfl, by decide, by decide⟩
    | true => exact ⟨116, units "rue", rfl, by decide, by decide⟩
  | number n =>
    cases n with
    | finite numeral h =>
      obtain ⟨-, c, s, htext, hstart⟩ := units_of_isNumeral h
      have hc := startsNumber hstart
      exact ⟨c, s, htext, hc.1, hc.2.2.2.1⟩
    | infinite negative => exact ⟨110, units "ull", rfl, by decide, by decide⟩
  | string text => exact ⟨34, _, rfl, by decide, by decide⟩
  | array items =>
    cases items with
    | nil => exact ⟨91, [93], rfl, by decide, by decide⟩
    | cons v vs => exact ⟨91, _, rfl, by decide, by decide⟩
  | object members =>
    cases members with
    | nil => exact ⟨123, [125], rfl, by decide, by decide⟩
    | cons m ms => exact ⟨123, _, rfl, by decide, by decide⟩

lemma takeWhile_of_stops {rest : JsString} (h : Stops rest) :
    rest.takeWhile isNumeralUnit = [] := by
  cases rest with
  | nil => rfl
  | cons c rest => rw [takeWhile_cons, h c rfl, if_neg Bool.false_ne_true]

lemma dropWhile_of_stops {rest : JsString} (h : Stops rest) :
    rest.dropWhile isNumeralUnit = rest := by
  cases rest with
  | nil => rfl
  | cons c rest => rw [List.dropWhile_cons, h c rfl, if_neg Bool.false_ne_true]

section Reading

variable {numberOf : JsString → Number}

lemma parseValue_cons (hc : isJsonSpace c = false) (n : ℕ) (t : JsString) :
    parseValue numberOf (n + 1) (c :: t) =
      if c = 34 then (parseString n t).map fun p => (.string p.1, p.2)
      else if c = 91 then
        if (t.dropWhile isJsonSpace).head? = some 93 then
          some (.array [], (t.dropWhile isJsonSpace).tail)
        else (parseItems numberOf n t).map fun p => (.array p.1, p.2)
      else if c = 123 then
        if (t.dropWhile isJsonSpace).head? = some 125 then
          some (.object [], (t.dropWhile isJsonSpace).tail)
        else (parseMembers numberOf n t).map fun p => (ofMembers p.1, p.2)
      else if c = 110 then parseWord "null" .null (c :: t)
      else if c = 116 then parseWord "true" (.bool true) (c :: t)
      else if c = 102 then parseWord "false" (.bool false) (c :: t)
      else parseNumber numberOf (c :: t) := by
  rw [parseValue, dropWhile_cons hc]

lemma reads_null : Reads numberOf .null := by
  rintro (_ | n) rest hn -
  · omega
  · exact ⟨.null, rfl⟩

lemma reads_bool (b : Bool) : Reads numberOf (.bool b) := by
  rintro (_ | n) rest hn -
  · omega
  · cases b with
    | false => exact ⟨.bool false, rfl⟩
    | true => exact ⟨.bool true, rfl⟩

lemma reads_number (k : Number) : Reads numberOf (.number k) := by
  rintro (_ | n) rest hn hrest
  · omega
  · cases k with
    | infinite negative => exact ⟨.null, rfl⟩
    | finite numeral h =>
      obtain ⟨hunits, c, s, htext, hstart⟩ := units_of_isNumeral h
      obtain ⟨hspace, h34, h91, -, h123, h110, h116, h102⟩ := startsNumber hstart
      have htake : (numeral ++ rest).takeWhile isNumeralUnit = numeral := by
        rw [takeWhile_append_of_pos hunits, takeWhile_of_stops hrest, append_nil]
      have hdrop : (numeral ++ rest).dropWhile isNumeralUnit = rest := by
        rw [dropWhile_append_of_pos hunits, dropWhile_of_stops hrest]
      refine ⟨.number (numberOf numeral), ?_⟩
      have hnumber : parseNumber numberOf (numeral ++ rest) =
          some (.number (numberOf numeral), rest) := by
        rw [parseNumber, htake, hdrop, if_pos h]
      change parseValue numberOf (n + 1) (numeral ++ rest) = _
      rw [htext, cons_append] at hnumber ⊢
      rw [parseValue_cons hspace, if_neg h34, if_neg h91, if_neg h123, if_neg h110, if_neg h116,
        if_neg h102]
      exact hnumber

lemma reads_string (text : JsString) : Reads numberOf (.string text) := by
  rintro (_ | n) rest hn -
  · omega
  · have hlength : text.length < n := by
      have hlt := length_lt_quote text
      change 2 * (quote text).length < n + 1 at hn
      omega
    have hread := parseString_quote text rest hlength
    refine ⟨.string text, ?_⟩
    change parseValue numberOf (n + 1)
      (34 :: ((codePoints text).flatMap escapePoint ++ [34]) ++ rest) = _
    rw [cons_append, append_assoc, singleton_append, parseValue_cons (by decide),
      if_pos rfl, hread]
    rfl

variable {v : Value}

/-- The items after the opening bracket are read, up to the closing one. -/
lemma parseItems_serialize {vs : List Value} (h : ∀ w ∈ v :: vs, Reads numberOf w) (rest : JsString)
    (hn : 2 * ((serialize [] [] v).length + (serializeItems [] [] vs).length) + 1 < n) :
    ∃ items, parseItems numberOf n
      (serialize [] [] v ++ (serializeItems [] [] vs ++ 93 :: rest)) = some (items, rest) := by
  induction vs generalizing v n with
  | nil =>
    obtain _ | n := n
    · omega
    · obtain ⟨v', hv'⟩ := h v mem_cons_self n (93 :: rest) (by omega)
        (stops_cons (by decide) rest)
      refine ⟨[v'], ?_⟩
      change parseItems numberOf (n + 1) (serialize [] [] v ++ 93 :: rest) = _
      rw [parseItems, hv', bind_some, dropWhile_cons (by decide)]
      rfl
  | cons w ws ih =>
    obtain _ | n := n
    · omega
    · have htail : serializeItems [] [] (w :: ws) ++ 93 :: rest =
          44 :: (serialize [] [] w ++ (serializeItems [] [] ws ++ 93 :: rest)) := by
        rw [serializeItems]
        simp [lineBreak]
      have hlength : (serializeItems [] [] (w :: ws)).length =
          (serialize [] [] w).length + (serializeItems [] [] ws).length + 1 := by
        rw [serializeItems]
        simp [lineBreak]
      obtain ⟨v', hv'⟩ := h v mem_cons_self n
        (44 :: (serialize [] [] w ++ (serializeItems [] [] ws ++ 93 :: rest))) (by omega)
        (stops_cons (by decide) _)
      obtain ⟨items, hitems⟩ := ih (fun x hx => h x (mem_cons_of_mem v hx))
        (by omega : 2 * ((serialize [] [] w).length + (serializeItems [] [] ws).length) + 1 < n)
      refine ⟨v' :: items, ?_⟩
      rw [htail, parseItems, hv', bind_some, dropWhile_cons (by decide)]
      rw [head?_cons, if_pos rfl, tail_cons, hitems]
      rfl

lemma reads_array {items : List Value} (h : ∀ v ∈ items, Reads numberOf v) :
    Reads numberOf (.array items) := by
  rintro (_ | n) rest hn -
  · omega
  · cases items with
    | nil => exact ⟨.array [], rfl⟩
    | cons v vs =>
      have htext : serialize [] [] (.array (v :: vs)) =
          91 :: (serialize [] [] v ++ (serializeItems [] [] vs ++ [93])) := by
        rw [serialize]
        rfl
      rw [htext, length_cons, length_append, length_append,
        length_singleton] at hn
      obtain ⟨items, hitems⟩ := parseItems_serialize h rest
        (by omega : 2 * ((serialize [] [] v).length + (serializeItems [] [] vs).length) + 1 < n)
      obtain ⟨c, t, hhead, hspace, hclose⟩ := head_serialize [] [] v
      refine ⟨.array items, ?_⟩
      rw [htext, cons_append, append_assoc, append_assoc, singleton_append,
        parseValue_cons (by decide), if_neg (by decide), if_pos rfl, hitems, hhead,
        cons_append, dropWhile_cons hspace, if_neg (head?_cons_ne hclose _)]
      rfl

lemma parseMembers_quote (key s : JsString) (hn : key.length < n) :
    parseMembers numberOf (n + 1) (quote key ++ 58 :: s) =
      (parseValue numberOf n s).bind fun p =>
        if (p.2.dropWhile isJsonSpace).head? = some 44 then
          (parseMembers numberOf n (p.2.dropWhile isJsonSpace).tail).map fun q =>
            ((key, p.1) :: q.1, q.2)
        else if (p.2.dropWhile isJsonSpace).head? = some 125 then
          some ([(key, p.1)], (p.2.dropWhile isJsonSpace).tail)
        else none := by
  have hquote : (quote key ++ 58 :: s).dropWhile isJsonSpace =
      34 :: ((codePoints key).flatMap escapePoint ++ 34 :: 58 :: s) := by
    rw [quote, cons_append, dropWhile_cons (by decide), append_assoc]
    rfl
  rw [parseMembers, hquote, head?_cons, if_pos rfl, tail_cons,
    parseString_quote key (58 :: s) hn, bind_some, dropWhile_cons (by decide),
    head?_cons, if_pos rfl, tail_cons]

/-- The members after the opening brace are read, up to the closing one. -/
lemma parseMembers_serialize {key : JsString} {ms : List (JsString × Value)}
    (h : ∀ m ∈ (key, v) :: ms, Reads numberOf m.2) (rest : JsString)
    (hn : 2 * ((quote key).length + (serialize [] [] v).length +
      (serializeMembers [] [] ms).length) + 1 < n) :
    ∃ members, parseMembers numberOf n (quote key ++ (58 :: (serialize [] [] v ++
      (serializeMembers [] [] ms ++ 125 :: rest)))) = some (members, rest) := by
  induction ms generalizing key v n with
  | nil =>
    obtain _ | n := n
    · omega
    · have hkey := length_lt_quote key
      obtain ⟨v', hv'⟩ := h (key, v) mem_cons_self n (125 :: rest)
        (by change 2 * (serialize [] [] v).length < n; omega) (stops_cons (by decide) rest)
      refine ⟨[(key, v')], ?_⟩
      rw [parseMembers_quote key _ (by omega)]
      change (parseValue numberOf n (serialize [] [] v ++ 125 :: rest)).bind _ = _
      rw [hv', bind_some, dropWhile_cons (by decide)]
      rfl
  | cons m ms ih =>
    obtain ⟨key', w⟩ := m
    obtain _ | n := n
    · omega
    · have hkey := length_lt_quote key
      have htail : serializeMembers [] [] ((key', w) :: ms) ++ 125 :: rest =
          44 :: (quote key' ++ (58 :: (serialize [] [] w ++
            (serializeMembers [] [] ms ++ 125 :: rest)))) := by
        rw [serializeMembers]
        simp [lineBreak, colon]
      have hlength : (serializeMembers [] [] ((key', w) :: ms)).length =
          (quote key').length + (serialize [] [] w).length +
            (serializeMembers [] [] ms).length + 2 := by
        rw [serializeMembers]
        simp [lineBreak, colon]
        omega
      obtain ⟨v', hv'⟩ := h (key, v) mem_cons_self n
        (44 :: (quote key' ++ (58 :: (serialize [] [] w ++
          (serializeMembers [] [] ms ++ 125 :: rest)))))
        (by change 2 * (serialize [] [] v).length < n; omega) (stops_cons (by decide) _)
      obtain ⟨members, hmembers⟩ := ih (fun m hm => h m (mem_cons_of_mem (key, v) hm))
        (by omega : 2 * ((quote key').length + (serialize [] [] w).length +
          (serializeMembers [] [] ms).length) + 1 < n)
      refine ⟨(key, v') :: members, ?_⟩
      rw [htail, parseMembers_quote key _ (by omega)]
      change (parseValue numberOf n (serialize [] [] v ++ _)).bind _ = _
      rw [hv', bind_some, dropWhile_cons (by decide)]
      rw [head?_cons, if_pos rfl, tail_cons, hmembers]
      rfl

lemma reads_object {members : List (JsString × Value)} (h : ∀ m ∈ members, Reads numberOf m.2) :
    Reads numberOf (.object members) := by
  rintro (_ | n) rest hn -
  · omega
  · cases members with
    | nil => exact ⟨.object [], rfl⟩
    | cons m ms =>
      obtain ⟨key, v⟩ := m
      have htext : serialize [] [] (.object ((key, v) :: ms)) =
          123 :: (quote key ++ (58 :: (serialize [] [] v ++
            (serializeMembers [] [] ms ++ [125])))) := by
        rw [serialize]
        rfl
      rw [htext, length_cons, length_append, length_cons, length_append,
        length_append, length_singleton] at hn
      obtain ⟨members, hmembers⟩ := parseMembers_serialize h rest
        (by omega : 2 * ((quote key).length + (serialize [] [] v).length +
          (serializeMembers [] [] ms).length) + 1 < n)
      refine ⟨ofMembers members, ?_⟩
      rw [htext, cons_append, append_assoc, cons_append, append_assoc,
        append_assoc, singleton_append, parseValue_cons (by decide),
        if_neg (by decide), if_neg (by decide), if_pos rfl, hmembers, quote, cons_append,
        dropWhile_cons (by decide), if_neg (head?_cons_ne (by decide) _)]
      rfl

mutual
lemma reads : ∀ v, Reads numberOf v
  | .null => reads_null
  | .bool b => reads_bool b
  | .number n => reads_number n
  | .string text => reads_string text
  | .array items => reads_array (reads_items items)
  | .object members => reads_object (reads_members members)

lemma reads_items : ∀ items : List Value, ∀ v ∈ items, Reads numberOf v
  | [] => fun _ h => absurd h not_mem_nil
  | v :: vs => forall_mem_cons.2 ⟨reads v, reads_items vs⟩

lemma reads_members : ∀ members : List (JsString × Value), ∀ m ∈ members, Reads numberOf m.2
  | [] => fun _ h => absurd h not_mem_nil
  | (_, v) :: ms => forall_mem_cons.2 ⟨reads v, reads_members ms⟩
end

/-- **What is written is read**: `JSON.parse(JSON.stringify(v))` never throws. -/
theorem parse_stringify (v : Value) : (parse numberOf (stringify v)).isSome := by
  have hstops : Stops [] := fun _ h => absurd h (by simp)
  have hreads : Reads numberOf v := reads v
  obtain ⟨v', hv'⟩ := hreads (2 * (serialize [] [] v).length + 2) [] (by omega) hstops
  rw [append_nil] at hv'
  change (parse numberOf (serialize [] [] v)).isSome
  rw [parse, hv']
  rfl

end Reading

/-! ## Counts -/

lemma toDigits_eq_cons (h : 0 < n) : ∃ d ds, Nat.toDigits 10 n = d :: ds ∧ d ≠ '0' := by
  have hdigit : ∀ m < 10, 0 < m → m.digitChar ≠ '0' := by decide
  induction n using Nat.strong_induction_on with
  | _ n ih =>
    by_cases hlt : n < 10
    · exact ⟨_, [], Nat.toDigits_of_lt_base hlt, hdigit n hlt h⟩
    · obtain ⟨d, ds, hd, hne⟩ := ih (n / 10) (by omega) (by omega)
      refine ⟨d, ds ++ [(n % 10).digitChar], ?_, hne⟩
      rw [Nat.toDigits_of_base_le (by decide) (by omega), hd, cons_append]

lemma isDigit_of_toString {c : Char} (hc : c ∈ (toString n).toList) :
    isDigit c.toNat.toUInt16 ∧ unitsOfChar c = [c.toNat.toUInt16] := by
  obtain ⟨hlow, hhigh⟩ := JsText.isDigit_of_mem_toString hc
  have htoNat : c.toNat.toUInt16.toNat = c.toNat :=
    (UInt16.toNat_ofNat' ..).trans (Nat.mod_eq_of_lt (by omega))
  refine ⟨?_, unitsOfChar_of_lt (by omega)⟩
  simp only [isDigit, Bool.and_eq_true, decide_eq_true_eq, UInt16.le_iff_toNat_le, htoNat]
  exact ⟨hlow, hhigh⟩

lemma isNumeral_toString (n : ℕ) : isNumeral (units (toString n)) := by
  obtain rfl | hpos := Nat.eq_zero_or_pos n
  · rfl
  obtain ⟨d, ds, hdigits, hne⟩ := toDigits_eq_cons hpos
  have hlist : (toString n).toList = d :: ds := by
    rw [Nat.toString_eq_repr, Nat.toList_repr, hdigits]
  obtain ⟨hd, hunit⟩ := isDigit_of_toString (n := n) (c := d)
    (by rw [hlist]; exact mem_cons_self)
  have htail : ∀ c ∈ ds.flatMap unitsOfChar, isDigit c := by
    intro c hc
    obtain ⟨e, he, hmem⟩ := mem_flatMap.1 hc
    obtain ⟨hdigit, heq⟩ := isDigit_of_toString (n := n) (c := e)
      (by rw [hlist]; exact mem_cons_of_mem _ he)
    rw [heq, mem_singleton] at hmem
    rwa [hmem]
  have hzero : d.toNat.toUInt16 ≠ 48 := by
    intro h
    obtain ⟨_, hhigh⟩ := JsText.isDigit_of_mem_toString (n := n) (c := d)
      (by rw [hlist]; exact mem_cons_self)
    have htoNat : d.toNat = 48 := by
      have hcode := congrArg UInt16.toNat h
      rwa [show d.toNat.toUInt16.toNat = d.toNat from
        (UInt16.toNat_ofNat' ..).trans (Nat.mod_eq_of_lt (by omega))] at hcode
    exact hne (by rw [← Char.ofNat_toNat d, htoNat])
  have hminus : d.toNat.toUInt16 ≠ 45 := by
    intro h
    rw [h] at hd
    cases hd
  rw [isNumeral, units, hlist, flatMap_cons, hunit, singleton_append, afterMinus,
    if_neg hminus, afterInt, if_neg hzero, if_pos hd, dropWhile_eq_nil_iff.2 htail]
  rfl

def Number.ofNat (n : ℕ) : Number := .finite (units (toString n)) (isNumeral_toString n)

end Json
