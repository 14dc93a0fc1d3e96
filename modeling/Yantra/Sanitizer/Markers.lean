import Yantra.Lib.Tokens
import Yantra.Lib.Utf16

/-!
# Marked values

`parseUserInputMarkers`: a text in which the user marks values, as `@{…}` or `@tag{…}`, becomes a
list of literal and value segments. Braces in a value balance, a backslash escapes a brace or
another backslash, and `@@` stands for one `@`.

## Main definitions

* `UserInputValueTag`, `InputSegment` — tags and segments.
* `Reading` — the segments a text is read as.

## Main results

* `closes_of_parseBody`, `parseBody_of_body` — the scan of a value follows the
  grammar.
* `exists_reading_parseFrom` — what is parsed is a reading of the text.
* `unmarked_iff` — what an accepted text stands for.
-/

namespace Yantra

open Utf16 List Option Nat

/-! ## Tags and segments -/

inductive UserInputValueTag where
  | email | phone | ssn | credit_card | api_key | auth_param | secret | username | password | pin
  | otp | national_id | vin | account | dob | address
  deriving DecidableEq, Repr, Inhabited

def UserInputValueTag.name : UserInputValueTag → String
  | .email => "email"
  | .phone => "phone"
  | .ssn => "ssn"
  | .credit_card => "credit_card"
  | .api_key => "api_key"
  | .auth_param => "auth_param"
  | .secret => "secret"
  | .username => "username"
  | .password => "password"
  | .pin => "pin"
  | .otp => "otp"
  | .national_id => "national_id"
  | .vin => "vin"
  | .account => "account"
  | .dob => "dob"
  | .address => "address"

def MARKER_TAGS : List UserInputValueTag :=
  [.email, .phone, .ssn, .credit_card, .api_key, .secret, .username, .password, .pin, .otp,
    .national_id, .vin, .account, .dob, .address]

/-- A literal span, or a value that later detectors pass over. -/
inductive InputSegment where
  | literal (text : JsString)
  | value (tag : UserInputValueTag) (value : JsString)
  deriving DecidableEq, Repr, Inhabited

def InputSegment.plain : InputSegment → JsString
  | .literal text => text
  | .value _ v => v

def plainText (segments : List InputSegment) : JsString := segments.flatMap InputSegment.plain

/-- `pushLiteral`: a literal joins the one before it. -/
def pushLiteral (segments : List InputSegment) (text : JsString) : List InputSegment :=
  if text.isEmpty then segments
  else match segments.getLast? with
    | some (.literal previous) => segments.dropLast ++ [.literal (previous ++ text)]
    | _ => segments ++ [.literal text]

/-! ## The parser -/

/-- `UserInputMarkerErrorReason` -/
inductive MarkerErrorReason where
  | unterminated | unknownTag | emptyValue | valueTooLong | reservedPlaceholder
  deriving DecidableEq, Repr, Inhabited

/-- `UserInputMarkerError`, with the source offset. -/
structure UserInputMarkerError where
  offset : ℕ
  reason : MarkerErrorReason
  deriving DecidableEq, Repr, Inhabited

/-- `[a-z_]` -/
def isTagChar (c : CodeUnit) : Bool := isLower c || c == 95

/-- `PLACEHOLDER_SOURCE`, and without its captures `USER_INPUT_PLACEHOLDER_RE` -/
def placeholderPattern : Regex CodeUnit :=
  .seqs [word "\x7b\x7buser:", .group 1 (.plus (.sym isTagChar)), word ":",
    .group 2 (.plus (.sym isDigit)), word "\x7d\x7d"]

def containsUserInputPlaceholder (text : JsString) : Bool := placeholderPattern.test text

def MAX_MARKED_VALUE_LENGTH : ℕ := 2048

/-- `@` -/
def atSign : CodeUnit := 64

/-- `\` -/
def backslash : CodeUnit := 92

/-- `\x7b` -/
def openBrace : CodeUnit := 123

/-- `\x7d` -/
def closeBrace : CodeUnit := 125

def isEscapable (c : CodeUnit) : Bool := c == openBrace || c == closeBrace || c == backslash

/-- The value of a marker and what follows its closing brace, from within `depth` open braces. -/
def parseBody : ℕ → JsString → Option (JsString × JsString)
  | 0, rest => some ([], rest)
  | _ + 1, [] => none
  | depth + 1, [c] =>
    if c = closeBrace ∧ depth = 0 then some ([], []) else none
  | depth + 1, c :: next :: rest =>
    if c = backslash then
      if isEscapable next then (parseBody (depth + 1) rest).map fun r => (next :: r.1, r.2)
      else (parseBody (depth + 1) (next :: rest)).map fun r => (c :: r.1, r.2)
    else if c = openBrace then
      (parseBody (depth + 2) (next :: rest)).map fun r => (c :: r.1, r.2)
    else if c = closeBrace then
      if depth = 0 then some ([], next :: rest)
      else (parseBody depth (next :: rest)).map fun r => (c :: r.1, r.2)
    else (parseBody (depth + 1) (next :: rest)).map fun r => (c :: r.1, r.2)

/-- One step of the scan, at a symbol with another behind it. -/
lemma parseBody_cons_cons (depth : ℕ) (c next : CodeUnit) (rest : JsString) :
    parseBody (depth + 1) (c :: next :: rest) =
      if c = backslash then
        if isEscapable next then (parseBody (depth + 1) rest).map fun r => (next :: r.1, r.2)
        else (parseBody (depth + 1) (next :: rest)).map fun r => (c :: r.1, r.2)
      else if c = openBrace then
        (parseBody (depth + 2) (next :: rest)).map fun r => (c :: r.1, r.2)
      else if c = closeBrace then
        if depth = 0 then some ([], next :: rest)
        else (parseBody depth (next :: rest)).map fun r => (c :: r.1, r.2)
      else (parseBody (depth + 1) (next :: rest)).map fun r => (c :: r.1, r.2) := by
  rw [parseBody]

/-- The tag text of a marker whose `@` stands before `rest`, and what follows its opening brace; a
marker without a tag has the tag text `secret`. -/
def markerOpening (rest : JsString) : Option (JsString × JsString) :=
  let tag := rest.takeWhile isTagChar
  match rest.dropWhile isTagChar with
  | c :: body =>
    if c = openBrace then some (if tag.isEmpty then units "secret" else tag, body) else none
  | [] => none

def markerTag (name : JsString) : Option UserInputValueTag :=
  MARKER_TAGS.find? fun tag => units tag.name == name

/-- The loop of `parseUserInputMarkers` over the rest of a text. The fuel is more than the length of
the rest, and is never used up. -/
def parseFrom : ℕ → ℕ → List InputSegment → JsString → JsString →
    Except UserInputMarkerError (List InputSegment)
  | 0, _, segments, literal, _ => .ok (pushLiteral segments literal)
  | _ + 1, _, segments, literal, [] => .ok (pushLiteral segments literal)
  | fuel + 1, cursor, segments, literal, c :: rest =>
    if c ≠ atSign then parseFrom fuel (cursor + 1) segments (literal ++ [c]) rest
    else if rest.head? = some atSign then
      parseFrom fuel (cursor + 2) segments (literal ++ [atSign]) rest.tail
    else match markerOpening rest with
      | none => parseFrom fuel (cursor + 1) segments (literal ++ [atSign]) rest
      | some (name, body) =>
        match markerTag name with
        | none => .error ⟨cursor, .unknownTag⟩
        | some tag =>
          match parseBody 1 body with
          | none => .error ⟨cursor, .unterminated⟩
          | some (value, after) =>
            if value.all isSpace then .error ⟨cursor, .emptyValue⟩
            else if MAX_MARKED_VALUE_LENGTH < value.length then .error ⟨cursor, .valueTooLong⟩
            else parseFrom fuel (cursor + (rest.length + 1 - after.length))
              (pushLiteral segments literal ++ [.value tag value]) [] after

def parseUserInputMarkers (text : JsString) : Except UserInputMarkerError (List InputSegment) :=
  match placeholderPattern.exec text 0 with
  | some m => .error ⟨m.index, .reservedPlaceholder⟩
  | none => parseFrom (text.length + 1) 0 [] [] text

/-! ## The grammar of markers -/

/-- What is written between the braces of a marker, and the value it stands for. -/
inductive MarkerBody : JsString → JsString → Prop where
  | nil : MarkerBody [] []
  | char {c : CodeUnit} {s v : JsString} (hc : c ≠ backslash ∧ c ≠ openBrace ∧ c ≠ closeBrace)
      (h : MarkerBody s v) : MarkerBody (c :: s) (c :: v)
  | escape {c : CodeUnit} {s v : JsString} (hc : isEscapable c = true) (h : MarkerBody s v) :
      MarkerBody (backslash :: c :: s) (c :: v)
  | plainBackslash {c : CodeUnit} {s v : JsString} (hc : isEscapable c = false)
      (h : MarkerBody (c :: s) v) : MarkerBody (backslash :: c :: s) (backslash :: v)
  | braces {s v s' v' : JsString} (h : MarkerBody s v) (h' : MarkerBody s' v') :
      MarkerBody (openBrace :: (s ++ closeBrace :: s')) (openBrace :: (v ++ closeBrace :: v'))

/-- A text with markers, and what it stands for: every marker stands for its value and `@@` for one
`@`; an `@` before neither stands for itself. -/
inductive Unmarked : JsString → JsString → Prop where
  | nil : Unmarked [] []
  | char {c : CodeUnit} {s p : JsString} (hc : c ≠ atSign) (h : Unmarked s p) :
      Unmarked (c :: s) (c :: p)
  | doubled {s p : JsString} (h : Unmarked s p) : Unmarked (atSign :: atSign :: s) (atSign :: p)
  | alone {s p : JsString} (hat : s.head? ≠ some atSign)
      (hopen : ∀ tag : JsString, tag.all isTagChar → ¬ tag ++ [openBrace] <+: s)
      (h : Unmarked s p) : Unmarked (atSign :: s) (atSign :: p)
  | marker {tag b v s p : JsString} (htag : tag.all isTagChar) (hb : MarkerBody b v)
      (h : Unmarked s p) :
      Unmarked (atSign :: (tag ++ openBrace :: (b ++ closeBrace :: s))) (v ++ p)

/-- A literal before a list of segments; it joins a literal at its head. -/
def consLiteral (text : JsString) : List InputSegment → List InputSegment
  | .literal next :: rest => .literal (text ++ next) :: rest
  | segments => if text.isEmpty then segments else .literal text :: segments

/-- The tag a marker with the tag text `tag` has. -/
def markerTagOf (tag : JsString) : Option UserInputValueTag :=
  markerTag (if tag.isEmpty then units "secret" else tag)

inductive Reading : JsString → List InputSegment → Prop where
  | nil : Reading [] []
  | char {c : CodeUnit} {s : JsString} {r : List InputSegment} (hc : c ≠ atSign)
      (h : Reading s r) : Reading (c :: s) (consLiteral [c] r)
  | doubled {s : JsString} {r : List InputSegment} (h : Reading s r) :
      Reading (atSign :: atSign :: s) (consLiteral [atSign] r)
  | alone {s : JsString} {r : List InputSegment} (hat : s.head? ≠ some atSign)
      (hopen : ∀ tag : JsString, tag.all isTagChar → ¬ tag ++ [openBrace] <+: s)
      (h : Reading s r) : Reading (atSign :: s) (consLiteral [atSign] r)
  | marker {tag b v s : JsString} {name : UserInputValueTag} {r : List InputSegment}
      (htag : tag.all isTagChar) (hname : markerTagOf tag = some name) (hb : MarkerBody b v)
      (h : Reading s r) :
      Reading (atSign :: (tag ++ openBrace :: (b ++ closeBrace :: s))) (.value name v :: r)

/-! ## Values between braces -/

/-- A text whose braces close `depth + 1` levels, with the value written up to there and what
follows. -/
def Closes : ℕ → JsString → JsString → JsString → Prop
  | 0, s, v, rest => ∃ b, MarkerBody b v ∧ s = b ++ closeBrace :: rest
  | depth + 1, s, v, rest => ∃ b w s' w', MarkerBody b w ∧ s = b ++ closeBrace :: s' ∧
      Closes depth s' w' rest ∧ v = w ++ closeBrace :: w'

variable {s v rest : JsString} {depth : ℕ}

lemma Closes.extend (h : Closes depth s v rest)
    (x y : JsString) (hxy : ∀ b w t, MarkerBody b w → s = b ++ closeBrace :: t →
      MarkerBody (x ++ b) (y ++ w)) : Closes depth (x ++ s) (y ++ v) rest := by
  cases depth with
  | zero =>
    obtain ⟨b, hb, hs⟩ := h
    exact ⟨x ++ b, hxy b v rest hb hs, by rw [hs, append_assoc]⟩
  | succ depth =>
    obtain ⟨b, w, s', w', hb, hs, hrest, hv⟩ := h
    exact ⟨x ++ b, y ++ w, s', w', hxy b w s' hb hs, by rw [hs, append_assoc], hrest,
      by rw [hv, append_assoc]⟩

lemma Closes.openBrace (h : Closes (depth + 1) s v rest) :
    Closes depth (Yantra.openBrace :: s) (Yantra.openBrace :: v) rest := by
  obtain ⟨b, w, s', w', hb, rfl, hrest, rfl⟩ := h
  have hjoin := hrest.extend (Yantra.openBrace :: (b ++ [closeBrace]))
    (Yantra.openBrace :: (w ++ [closeBrace])) fun b' u t hb' _ => by
      simpa using MarkerBody.braces hb hb'
  simpa using hjoin

/-- Scanning a text up to the brace that closes a marker follows the grammar.

**Proof sketch.** Induction along the scan, every open brace being a level still to close. -/
theorem closes_of_parseBody (depth : ℕ) (s v rest : JsString)
    (h : parseBody (depth + 1) s = some (v, rest)) : Closes depth s v rest := by
  match s with
  | [] => cases h
  | [c] =>
    rw [parseBody] at h
    split_ifs at h with hc
    obtain ⟨rfl, rfl⟩ := hc
    cases h
    exact ⟨[], .nil, rfl⟩
  | c :: next :: s =>
    rw [parseBody_cons_cons] at h
    split_ifs at h with hslash hescape hopen hclose hdepth
    · obtain ⟨⟨w, after⟩, hr, heq⟩ := map_eq_some_iff.1 h
      cases heq
      rw [hslash]
      exact (closes_of_parseBody depth s w _ hr).extend [backslash, next] [next]
        fun b u t hb _ => .escape hescape hb
    · obtain ⟨⟨w, after⟩, hr, heq⟩ := map_eq_some_iff.1 h
      cases heq
      rw [hslash]
      refine (closes_of_parseBody depth (next :: s) w _ hr).extend [backslash] [backslash]
        fun b u t hb hs => ?_
      cases b with
      | nil =>
        rw [nil_append, List.cons.injEq] at hs
        rw [hs.1] at hescape
        exact absurd rfl hescape
      | cons d b =>
        rw [cons_append, List.cons.injEq] at hs
        rw [← hs.1] at hb ⊢
        exact .plainBackslash (Bool.eq_false_iff.2 hescape) hb
    · obtain ⟨⟨w, after⟩, hr, heq⟩ := map_eq_some_iff.1 h
      cases heq
      rw [hopen]
      exact (closes_of_parseBody (depth + 1) (next :: s) w _ hr).openBrace
    · cases h
      rw [hclose, hdepth]
      exact ⟨[], .nil, rfl⟩
    · obtain ⟨⟨w, after⟩, hr, heq⟩ := map_eq_some_iff.1 h
      cases heq
      obtain ⟨depth, rfl⟩ := exists_eq_succ_of_ne_zero hdepth
      rw [hclose]
      exact ⟨[], [], next :: s, w, .nil, rfl, closes_of_parseBody depth (next :: s) w _ hr, rfl⟩
    · obtain ⟨⟨w, after⟩, hr, heq⟩ := map_eq_some_iff.1 h
      cases heq
      exact (closes_of_parseBody depth (next :: s) w _ hr).extend [c] [c]
        fun b u t hb _ => .char ⟨hslash, hopen, hclose⟩ hb
termination_by s.length

variable {t : JsString}

lemma parseBody_char {c : CodeUnit} (hc : c ≠ backslash ∧ c ≠ openBrace ∧ c ≠ closeBrace)
    (depth : ℕ) (ht : t ≠ []) :
    parseBody (depth + 1) (c :: t) = (parseBody (depth + 1) t).map fun r => (c :: r.1, r.2) := by
  obtain ⟨next, t, rfl⟩ := exists_cons_of_ne_nil ht
  rw [parseBody_cons_cons, if_neg hc.1, if_neg hc.2.1, if_neg hc.2.2]

lemma parseBody_openBrace (depth : ℕ) (ht : t ≠ []) :
    parseBody (depth + 1) (openBrace :: t) =
      (parseBody (depth + 2) t).map fun r => (openBrace :: r.1, r.2) := by
  obtain ⟨next, t, rfl⟩ := exists_cons_of_ne_nil ht
  rw [parseBody_cons_cons, if_neg (by decide), if_pos rfl]

lemma parseBody_closeBrace (depth : ℕ) (ht : t ≠ []) :
    parseBody (depth + 2) (closeBrace :: t) =
      (parseBody (depth + 1) t).map fun r => (closeBrace :: r.1, r.2) := by
  obtain ⟨next, t, rfl⟩ := exists_cons_of_ne_nil ht
  rw [parseBody_cons_cons, if_neg (by decide), if_neg (by decide), if_pos rfl,
    if_neg (succ_ne_zero depth)]

/-- Scanning goes through a body written by the grammar, up to its closing brace.

**Proof sketch.** Induction on the body; what follows it is never empty, so every step of the scan
sees the symbol behind. -/
theorem parseBody_of_body {b v : JsString} (h : MarkerBody b v) (depth : ℕ) (rest : JsString) :
    parseBody (depth + 1) (b ++ closeBrace :: rest) =
      (parseBody (depth + 1) (closeBrace :: rest)).map fun r => (v ++ r.1, r.2) := by
  have hne (s t : JsString) : s ++ closeBrace :: t ≠ [] :=
    append_ne_nil_of_right_ne_nil s (cons_ne_nil closeBrace t)
  induction h generalizing depth rest with
  | nil => exact Option.map_id'.symm
  | @char c s v hc h ih =>
    rw [cons_append, parseBody_char hc depth (hne s rest), ih, Option.map_map]
    rfl
  | @escape c s v hc h ih =>
    rw [cons_append, cons_append, parseBody_cons_cons, if_pos rfl, if_pos hc, ih, Option.map_map]
    rfl
  | @plainBackslash c s v hc h ih =>
    rw [cons_append, cons_append, parseBody_cons_cons, if_pos rfl, if_neg (by rw [hc]; decide),
      ← cons_append, ih, Option.map_map]
    rfl
  | @braces s v s' v' h h' ih ih' =>
    rw [cons_append, append_assoc, cons_append,
      parseBody_openBrace depth (hne s _), ih, parseBody_closeBrace depth (hne s' rest), ih',
      Option.map_map, Option.map_map, Option.map_map]
    simp only [Function.comp_def, cons_append, append_assoc]

lemma parseBody_one {b v : JsString} (h : MarkerBody b v) (rest : JsString) :
    parseBody 1 (b ++ closeBrace :: rest) = some (v, rest) := by
  have hclose : parseBody 1 (closeBrace :: rest) = some ([], rest) := by
    cases rest with
    | nil => rfl
    | cons c rest =>
      rw [parseBody_cons_cons 0, if_neg (by decide), if_neg (by decide), if_pos rfl, if_pos rfl]
  rw [parseBody_of_body h, hclose, map_some, append_nil]

/-! ## Openings of markers -/

variable {tag : JsString}

lemma openBrace_notMem (htag : tag.all isTagChar) : openBrace ∉ tag := by
  intro hmem
  have h := List.all_eq_true.1 htag openBrace hmem
  exact absurd h (by decide)

lemma markerOpening_eq_some {rest name body : JsString} (h : markerOpening rest = some (name, body))
    :
    ∃ tag : JsString, tag.all isTagChar ∧ markerTag name = markerTagOf tag ∧
      rest = tag ++ openBrace :: body := by
  unfold markerOpening at h
  split at h
  · rename_i c body' hdrop
    split_ifs at h with hc
    cases h
    refine ⟨rest.takeWhile isTagChar, all_takeWhile, rfl, ?_⟩
    rw [← hc, ← hdrop, takeWhile_append_dropWhile]
  · cases h

lemma markerOpening_of_tag (htag : tag.all isTagChar) (body : JsString) :
    ∃ name, markerOpening (tag ++ openBrace :: body) = some (name, body) ∧
      markerTag name = markerTagOf tag := by
  have hall := List.all_eq_true.1 htag
  unfold markerOpening
  rw [dropWhile_append_of_pos hall, dropWhile_cons_of_neg (by decide),
    takeWhile_append_of_pos hall, takeWhile_cons_of_neg (by decide), append_nil]
  exact ⟨_, if_pos rfl, rfl⟩

lemma markerOpening_eq_none_iff {rest : JsString} :
    markerOpening rest = none ↔
      ∀ tag : JsString, tag.all isTagChar → ¬ tag ++ [openBrace] <+: rest := by
  constructor
  · rintro hnone tag htag ⟨body, rfl⟩
    obtain ⟨name, hname, -⟩ := markerOpening_of_tag htag body
    rw [append_assoc, singleton_append, hname] at hnone
    cases hnone
  · intro hopen
    cases hopening : markerOpening rest with
    | none => rfl
    | some opening =>
      obtain ⟨tag, htag, -, rfl⟩ := markerOpening_eq_some hopening
      exact absurd ⟨opening.2, by rw [append_assoc]; rfl⟩ (hopen tag htag)

/-! ## What a text stands for -/

/-- What an `@` may be, by what follows it. -/
inductive AtSign (s q : JsString) : Prop where
  | doubled (t p : JsString) (hs : s = atSign :: t) (hq : q = atSign :: p) (h : Unmarked t p)
  | alone (p : JsString) (hat : s.head? ≠ some atSign)
      (hopen : ∀ tag : JsString, tag.all isTagChar → ¬ tag ++ [openBrace] <+: s)
      (hq : q = atSign :: p) (h : Unmarked s p)
  | marker (tag b v t p : JsString) (htag : tag.all isTagChar) (hb : MarkerBody b v)
      (hs : s = tag ++ openBrace :: (b ++ closeBrace :: t)) (hq : q = v ++ p) (h : Unmarked t p)

/-- The rules for a text that starts with an `@`. -/
lemma Unmarked.atSign {s q : JsString} (h : Unmarked (atSign :: s) q) : AtSign s q := by
  generalize htext : Yantra.atSign :: s = text at h
  cases h with
  | nil => cases htext
  | char hc h =>
    rw [List.cons.injEq] at htext
    exact absurd htext.1.symm hc
  | @doubled t p h =>
    rw [List.cons.injEq] at htext
    exact .doubled t p htext.2 rfl h
  | @alone t p hat hopen h =>
    rw [List.cons.injEq] at htext
    obtain ⟨-, rfl⟩ := htext
    exact .alone p hat hopen rfl h
  | @marker tag b v t p htag hb h =>
    rw [List.cons.injEq] at htext
    exact .marker tag b v t p htag hb htext.2 rfl h

/-- The opening of a marker does not start with an `@`. -/
lemma head?_opening_ne (htag : tag.all isTagChar) (body : JsString) :
    (tag ++ openBrace :: body).head? ≠ some atSign := by
  cases tag with
  | nil =>
    rw [nil_append, head?_cons]
    decide
  | cons c tag =>
    rw [cons_append, head?_cons, ne_eq, some.injEq]
    rintro rfl
    exact absurd (List.all_eq_true.1 htag _ mem_cons_self) (by decide)

/-- A text stands for one thing only.

**Proof sketch.** Induction on the derivation: the symbols ahead tell which rule was used, the tag
of a marker ends at the first brace, and its body is the one that scanning finds. -/
theorem Unmarked.unique {s p q : JsString} (hp : Unmarked s p) (hq : Unmarked s q) : p = q := by
  induction hp generalizing q with
  | nil => cases hq; rfl
  | char hc h ih =>
    cases hq with
    | char _ h' => rw [ih h']
    | doubled | alone | marker => exact absurd rfl hc
  | doubled h ih =>
    cases hq.atSign with
    | doubled t p' hs hq h' =>
      cases hs
      rw [hq, ih h']
    | alone p' hat => exact absurd rfl hat
    | marker tag b v t p' htag hb hs =>
      exact absurd (hs ▸ rfl) (head?_opening_ne htag (b ++ closeBrace :: t))
  | alone hat hopen h ih =>
    cases hq.atSign with
    | doubled t p' hs => exact absurd (hs ▸ rfl) hat
    | alone p' _ _ hq h' => rw [hq, ih h']
    | marker tag b v t p' htag hb hs =>
      exact absurd ⟨b ++ closeBrace :: t, by rw [hs, append_assoc]; rfl⟩ (hopen tag htag)
  | @marker tag b v t p htag hb h ih =>
    cases hq.atSign with
    | doubled t' p' hs =>
      exact absurd (hs ▸ rfl) (head?_opening_ne htag (b ++ closeBrace :: t))
    | alone p' hat hopen =>
      exact absurd ⟨b ++ closeBrace :: t, by rw [append_assoc]; rfl⟩ (hopen tag htag)
    | marker tag' b' v' t' p' htag' hb' hs hqp h' =>
      have htags : tag = tag' :=
        Tokens.eq_of_append_cons (openBrace_notMem htag) (openBrace_notMem htag') hs
      rw [htags, append_cancel_left_eq, List.cons.injEq] at hs
      have hbodies := parseBody_one hb t
      rw [hs.2, parseBody_one hb', Option.some.injEq, Prod.mk.injEq] at hbodies
      obtain ⟨rfl, rfl⟩ := hbodies
      rw [hqp, ih h']

/-! ## The parser follows the grammar -/

lemma plainText_pushLiteral (segments : List InputSegment) (text : JsString) :
    plainText (pushLiteral segments text) = plainText segments ++ text := by
  unfold pushLiteral plainText
  split_ifs with h
  · rw [List.isEmpty_iff.1 h, append_nil]
  · split
    · rename_i previous hlast
      obtain ⟨init, rfl⟩ := getLast?_eq_some_iff.1 hlast
      rw [dropLast_concat, flatMap_append, flatMap_append, append_assoc]
      congr 1
      simp [InputSegment.plain]
    · rw [flatMap_append, flatMap_singleton]
      rfl

lemma plainText_consLiteral (text : JsString) (segments : List InputSegment) :
    plainText (consLiteral text segments) = text ++ plainText segments := by
  unfold consLiteral plainText
  split
  · rw [flatMap_cons, flatMap_cons, InputSegment.plain, InputSegment.plain,
      append_assoc]
  · split_ifs with h
    · rw [List.isEmpty_iff.1 h, nil_append]
    · rfl

@[simp] lemma consLiteral_nil (segments : List InputSegment) :
    consLiteral [] segments = segments := by
  unfold consLiteral
  split <;> rfl

lemma consLiteral_consLiteral (s t : JsString) (segments : List InputSegment) :
    consLiteral s (consLiteral t segments) = consLiteral (s ++ t) segments := by
  cases t with
  | nil => rw [consLiteral_nil, append_nil]
  | cons c t =>
    cases segments with
    | nil => simp [consLiteral]
    | cons segment rest => cases segment <;> simp [consLiteral]

lemma consLiteral_value (text : JsString) (tag : UserInputValueTag) (v : JsString)
    (rest : List InputSegment) :
    consLiteral text (.value tag v :: rest) = consLiteral text [] ++ .value tag v :: rest := by
  simp only [consLiteral]
  split_ifs <;> rfl

variable {segments : List InputSegment}

variable {text : JsString}

lemma value_mem_consLiteral {tag : UserInputValueTag} {v : JsString} :
    .value tag v ∈ consLiteral text segments ↔ .value tag v ∈ segments := by
  unfold consLiteral
  split
  · simp
  · split_ifs
    · exact Iff.rfl
    · simp

lemma pushLiteral_eq (text : JsString) (hends : ∀ t, segments.getLast? ≠ some (.literal t)) :
    pushLiteral segments text = segments ++ consLiteral text [] := by
  unfold pushLiteral consLiteral
  split_ifs with h
  · rw [append_nil]
  · split
    · rename_i previous hlast
      exact absurd hlast (hends previous)
    · rfl

/-- What is parsed from the rest of a text on is a reading of it, after what was there.

**Proof sketch.** Induction on the fuel, which the length of the rest bounds. -/
theorem exists_reading_parseFrom (fuel cursor : ℕ) (segments out : List InputSegment)
    (literal rest : JsString) (hfuel : rest.length < fuel)
    (hends : ∀ t, segments.getLast? ≠ some (.literal t))
    (h : parseFrom fuel cursor segments literal rest = .ok out) :
    ∃ r, Reading rest r ∧ out = segments ++ consLiteral literal r := by
  induction fuel generalizing cursor segments literal rest with
  | zero => exact absurd hfuel (Nat.not_lt_zero _)
  | succ fuel ih =>
    cases rest with
    | nil =>
      cases h
      exact ⟨[], .nil, pushLiteral_eq literal hends⟩
    | cons c rest =>
      rw [length_cons] at hfuel
      rw [parseFrom] at h
      split_ifs at h with hc hat
      · obtain ⟨r, hr, hout⟩ := ih _ _ _ rest (by omega) hends h
        exact ⟨_, .char hc hr, by rw [hout, consLiteral_consLiteral]⟩
      · obtain ⟨rest, rfl⟩ := head?_eq_some_iff.1 hat
        rw [length_cons] at hfuel
        obtain ⟨r, hr, hout⟩ := ih _ _ _ rest (by omega) hends h
        rw [not_not.1 hc]
        exact ⟨_, .doubled hr, by rw [hout, consLiteral_consLiteral]⟩
      · rw [not_not.1 hc]
        split at h
        · rename_i hopening
          obtain ⟨r, hr, hout⟩ := ih _ _ _ rest (by omega) hends h
          exact ⟨_, .alone hat (markerOpening_eq_none_iff.1 hopening) hr,
            by rw [hout, consLiteral_consLiteral]⟩
        · rename_i name body hopening
          obtain ⟨tag, htag, hname, rfl⟩ := markerOpening_eq_some hopening
          split at h
          · cases h
          · rename_i markerTag hmarker
            split at h
            · cases h
            · rename_i value after hbody
              split_ifs at h
              obtain ⟨b, hb, rfl⟩ := closes_of_parseBody 0 body value after hbody
              simp only [length_append, length_cons] at hfuel
              obtain ⟨r, hr, hout⟩ := ih _ _ _ after (by omega) (by simp) h
              refine ⟨_, .marker htag (hname ▸ hmarker) hb hr, ?_⟩
              rw [hout, pushLiteral_eq literal hends, consLiteral_nil, consLiteral_value,
                append_assoc, append_assoc, singleton_append]

lemma Reading.unmarked {s : JsString} {r : List InputSegment} (h : Reading s r) :
    Unmarked s (plainText r) := by
  induction h with
  | nil => exact .nil
  | char hc _ ih =>
    rw [plainText_consLiteral]
    exact .char hc ih
  | doubled _ ih =>
    rw [plainText_consLiteral]
    exact .doubled ih
  | alone hat hopen _ ih =>
    rw [plainText_consLiteral]
    exact .alone hat hopen ih
  | marker htag _ hb _ ih => exact .marker htag hb ih

lemma reading_of_parse (h : parseUserInputMarkers text = .ok segments) : Reading text segments := by
  unfold parseUserInputMarkers at h
  split at h
  · cases h
  · obtain ⟨r, hr, hout⟩ :=
      exists_reading_parseFrom _ _ _ _ _ _ (lt_succ_self _) (by simp) h
    rw [nil_append, consLiteral_nil] at hout
    exact hout ▸ hr

/-- An accepted text stands for its segments, and for nothing else. -/
theorem unmarked_iff (h : parseUserInputMarkers text = .ok segments) (p : JsString) :
    Unmarked text p ↔ p = plainText segments := by
  have hreading := (reading_of_parse h).unmarked
  exact ⟨fun hp => hp.unique hreading, fun hp => hp ▸ hreading⟩

end Yantra
