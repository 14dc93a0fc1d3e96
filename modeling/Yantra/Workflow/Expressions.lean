import Yantra.Executor.Substitution

/-!
# Value expressions of a workflow

A value expression is a scalar of the workflow file. A text that is one reference becomes that
reference; a text with references inside becomes a template, whose references are renamed to
generated marks and bound to the marks; any other text stands for itself.

## Main definitions

* `splitReferences` — the references of a text and the texts around them.
* `PlainValues`, `PlaceholderFree`, `MarkFree` — what the values and the
  text asked for must not hold.

## Main results

* `expression_substituted` — when an expression is substituted literally.
-/

namespace Yantra

open List Option String ValueResolver JsText

/-! ## References in a text -/

/-- The name of a reference: a key word, with a second one after a dot. -/
structure ReferenceName where
  first : List Char
  second : Option (List Char)
  deriving DecidableEq, Repr

def ReferenceName.text (name : ReferenceName) : String :=
  match name.second with
  | none => String.ofList name.first
  | some second => String.ofList (name.first ++ '.' :: second)

/-- `[a-z][a-z0-9_]*` at the head of a text, and what follows it. -/
def keyWordAt : List Char → Option (List Char × List Char)
  | c :: cs =>
    if isLowerLetter c then some (c :: cs.takeWhile isKeyChar, cs.dropWhile isKeyChar) else none
  | [] => none

/-- `[a-z][a-z0-9_]*(?:\.[a-z][a-z0-9_]*)?` at the head of a text, and what follows it. -/
def referenceNameAt (cs : List Char) : Option (ReferenceName × List Char) :=
  match keyWordAt cs with
  | none => none
  | some (first, '.' :: rest) =>
    match keyWordAt rest with
    | some (second, rest') => some (⟨first, some second⟩, rest')
    | none => some (⟨first, none⟩, '.' :: rest)
  | some (first, rest) => some (⟨first, none⟩, rest)

/-- What follows `kind:` at the head of a text. -/
def afterKind (kind cs : List Char) : Option (List Char) :=
  if (kind ++ [':']).isPrefixOf cs then some (cs.drop (kind.length + 1)) else none

/-- What follows `\s*\}\}` at the head of a text. -/
def afterClose (cs : List Char) : Option (List Char) :=
  match cs.dropWhile JsText.isSpace with
  | '}' :: '}' :: rest => some rest
  | _ => none

/-- `\{\{\s*kind:name\s*\}\}` at the head of a text: the name, and what follows the match. -/
def bracedAt (kind : String) : List Char → Option (ReferenceName × List Char)
  | '{' :: '{' :: cs =>
    (afterKind kind.toList (cs.dropWhile JsText.isSpace)).bind fun cs =>
      (referenceNameAt cs).bind fun named =>
        (afterClose named.2).map fun rest => (named.1, rest)
  | _ => none

/-- `SECRET_EXPR` -/
def secretExpr (raw : String) : Option String :=
  match bracedAt "secret" raw.toList with
  | some (⟨first, some second⟩, []) => some (ReferenceName.text ⟨first, some second⟩)
  | _ => none

/-- `PARAM_EXPR` -/
def paramExpr (raw : String) : Option String :=
  match bracedAt "param" raw.toList with
  | some (⟨first, none⟩, []) => some (String.ofList first)
  | _ => none

/-- The capture a name refers to: the step id before the dot, and the field after it. -/
def ReferenceName.toCaptureRef (name : ReferenceName) : CaptureRef :=
  ⟨String.ofList name.first, name.second.map String.ofList⟩

/-- `CAPTURE_EXPR` -/
def captureExpr (raw : String) : Option CaptureRef :=
  match bracedAt "capture" raw.toList with
  | some (name, []) => some name.toCaptureRef
  | _ => none

/-- A reference inside a text. -/
inductive EmbeddedRef where
  | param (key : String)
  | capture (ref : CaptureRef)
  deriving DecidableEq, Repr

def EmbeddedRef.toValueRef : EmbeddedRef → ValueRef
  | .param key => .param key
  | .capture ref => .capture ref

/-- `EMBEDDED_REF` at the head of a text: the reference, and what follows the match. -/
def embeddedAt (cs : List Char) : Option (EmbeddedRef × List Char) :=
  match bracedAt "param" cs with
  | some (name, rest) => some (.param name.text, rest)
  | none => (bracedAt "capture" cs).map fun named => (.capture named.1.toCaptureRef, named.2)

/-- The text before the first reference, and each reference with the text after it; `skip`
counts the characters of the current match still to be passed over. -/
def splitReferencesFrom : Nat → List Char → List Char × List (EmbeddedRef × List Char)
  | _, [] => ([], [])
  | skip + 1, _ :: cs => splitReferencesFrom skip cs
  | 0, c :: cs =>
    match embeddedAt (c :: cs) with
    | some (ref, rest) =>
      let split := splitReferencesFrom (cs.length - rest.length) cs
      ([], (ref, split.1) :: split.2)
    | none =>
      let split := splitReferencesFrom 0 cs
      (c :: split.1, split.2)

/-- `raw.matchAll(EMBEDDED_REF)`, with the texts between the matches. -/
def splitReferences (raw : String) : List Char × List (EmbeddedRef × List Char) :=
  splitReferencesFrom 0 raw.toList

/-! ## The translation -/

/-- `value_${index}` -/
def bindingKey (index : Nat) : String := "value_" ++ toString index

/-- The template text from the reference of the given index on. -/
def templateFrom : Nat → List (EmbeddedRef × List Char) → List Char
  | _, [] => []
  | index, (_, text) :: refs =>
    mark (bindingKey index).toList ++ (text ++ templateFrom (index + 1) refs)

/-- The bindings from the reference of the given index on. -/
def bindingsFrom : Nat → List (EmbeddedRef × List Char) → List (String × ValueRef)
  | _, [] => []
  | index, (ref, _) :: refs =>
    (bindingKey index, ref.toValueRef) :: bindingsFrom (index + 1) refs

def exprToValueRef : LiteralValue → ValueRef
  | .str raw =>
    match secretExpr raw with
    | some key => .secret ⟨key, none⟩
    | none =>
      match paramExpr raw with
      | some key => .param key
      | none =>
        match captureExpr raw with
        | some ref => .capture ref
        | none =>
          match splitReferences raw with
          | (_, []) => .literal (.str raw)
          | (text, ref :: refs) =>
            .template (String.ofList (text ++ templateFrom 0 (ref :: refs)))
              (bindingsFrom 0 (ref :: refs))
  | raw => .literal raw

/-! ## What an expression stands for -/

/-- The text from the first reference on, each reference replaced by the text of its value, or
the error of the first reference that has none. -/
def substitutedFrom (r : ValueResolver) : List (EmbeddedRef × List Char) → Except String (List Char)
  | [] => .ok []
  | (ref, text) :: refs =>
    match r.resolve ref.toValueRef with
    | .error e => .error e
    | .ok value =>
      match substitutedFrom r refs with
      | .error e => .error e
      | .ok rest => .ok ((valueToString value).toList ++ (text ++ rest))

/-- The expression with each reference replaced by the text of its value. -/
def substituted (r : ValueResolver) (raw : String) : Except String String :=
  (substitutedFrom r (splitReferences raw).2).map fun rest =>
    String.ofList ((splitReferences raw).1 ++ rest)

def WholeReference (raw : String) : Prop :=
  (paramExpr raw).isSome ∨ (captureExpr raw).isSome

def PlainValues (r : ValueResolver) (raw : String) : Prop :=
  ∀ entry ∈ (splitReferences raw).2, ∀ value, r.resolve entry.1.toValueRef = .ok value →
    hasReplacementPattern (valueToString value).toList = false

/-- The text the expression stands for has nothing between double braces. -/
def PlaceholderFree (r : ValueResolver) (raw : String) : Prop :=
  ∀ text, substituted r raw = .ok text → ¬ HasPlaceholder text.toList

/-- The text the expression stands for has none of the generated marks. -/
def MarkFree (r : ValueResolver) (raw : String) : Prop :=
  ∀ text, substituted r raw = .ok text → ∀ index < (splitReferences raw).2.length,
    ¬ mark (bindingKey index).toList <:+: text.toList

/-! ## Resolving a template -/

lemma toList_bindingKey (index : Nat) :
    (bindingKey index).toList = "value_".toList ++ (toString index).toList := by
  rw [bindingKey, toList_append]

lemma isMarkName_bindingKey (index : Nat) : IsMarkName (bindingKey index).toList := by
  have hdigit : ∀ c ∈ (toString index).toList, c ≠ '{' ∧ c ≠ '}' := by
    intro c hc
    have hle := (isDigit_of_mem_toString hc).2
    constructor
    · rintro rfl
      exact absurd hle (by decide)
    · rintro rfl
      exact absurd hle (by decide)
  rw [toList_bindingKey]
  refine ⟨by simp, ?_, ?_⟩
  · rw [mem_append]
    rintro (h | h)
    · exact absurd h (by decide)
    · exact (hdigit _ h).1 rfl
  · rw [mem_append]
    rintro (h | h)
    · exact absurd h (by decide)
    · exact (hdigit _ h).2 rfl

lemma bindingKey_injective {i j : Nat} (h : (bindingKey i).toList = (bindingKey j).toList) :
    i = j := by
  rw [toList_bindingKey, toList_bindingKey] at h
  exact toString_toList_inj (append_cancel_left h)

variable {refs : List (EmbeddedRef × List Char)}

lemma not_infix_templateFrom {k index : Nat} {text : List Char} (hk : k < index)
    (htext : ¬ mark (bindingKey k).toList <:+: text)
    (hrefs : ∀ entry ∈ refs, ¬ mark (bindingKey k).toList <:+: entry.2) :
    ¬ mark (bindingKey k).toList <:+: text ++ templateFrom index refs := by
  induction refs generalizing index text with
  | nil => rwa [templateFrom, append_nil]
  | cons entry refs ih =>
    intro hinner
    rw [templateFrom] at hinner
    rcases infix_mark_hole (isMarkName_bindingKey k) (isMarkName_bindingKey index) hinner with
      h | h | h
    · exact htext h
    · exact ih (Nat.lt_succ_of_lt hk) (hrefs entry mem_cons_self)
        (fun entry' hmem => hrefs entry' (mem_cons_of_mem _ hmem)) h
    · exact Nat.ne_of_lt hk (bindingKey_injective h)

variable {r : ValueResolver}

variable {ref : EmbeddedRef}

lemma resolveBindings_ok {value : Value} (result key : String) (bindings : List (String × ValueRef))
    (h : r.resolve ref.toValueRef = .ok value) :
    r.resolveBindings result ((key, ref.toValueRef) :: bindings) = r.resolveBindings
      (replaceAll result ("\x7b\x7b" ++ key ++ "\x7d\x7d") (valueToString value)) bindings := by
  cases ref <;> simp only [EmbeddedRef.toValueRef] at h ⊢ <;>
    simp only [resolveBindings, h]

variable {e : String}

lemma resolveBindings_error (result key : String) (bindings : List (String × ValueRef))
    (h : r.resolve ref.toValueRef = .error e) :
    r.resolveBindings result ((key, ref.toValueRef) :: bindings) = .error e := by
  cases ref <;> simp only [EmbeddedRef.toValueRef] at h ⊢ <;>
    simp only [resolveBindings, h]

lemma toList_braced (key : String) :
    ("\x7b\x7b" ++ key ++ "\x7d\x7d").toList = mark key.toList := by
  rw [toList_append, toList_append]
  rfl

variable {rest : List Char}

lemma exists_of_substitutedFrom_cons {entry : EmbeddedRef × List Char}
    (h : substitutedFrom r (entry :: refs) = .ok rest) :
    ∃ value tail, r.resolve entry.1.toValueRef = .ok value ∧ substitutedFrom r refs = .ok tail ∧
      rest = (valueToString value).toList ++ (entry.2 ++ tail) := by
  rw [substitutedFrom] at h
  cases hvalue : r.resolve entry.1.toValueRef with
  | error e => simp only [hvalue, reduceCtorEq] at h
  | ok value =>
    cases htail : substitutedFrom r refs with
    | error e => simp only [hvalue, htail, reduceCtorEq] at h
    | ok tail =>
      simp only [hvalue, htail, Except.ok.injEq] at h
      exact ⟨value, tail, rfl, rfl, h.symm⟩

lemma infix_substitutedFrom (h : substitutedFrom r refs = .ok rest) :
    ∀ entry ∈ refs, entry.2 <:+: rest := by
  induction refs generalizing rest with
  | nil => simp
  | cons head refs ih =>
    obtain ⟨value, tail, -, htail, rfl⟩ := exists_of_substitutedFrom_cons h
    intro entry hmem
    rcases mem_cons.1 hmem with rfl | hmem
    · exact infix_append_of_infix_right (prefix_append _ _).isInfix
    · exact infix_append_of_infix_right
        (infix_append_of_infix_right (ih htail entry hmem))

lemma resolveBindings_template_error (h : substitutedFrom r refs = .error e) (result : String)
    (index : Nat) :
    r.resolveBindings result (bindingsFrom index refs) = .error e := by
  induction refs generalizing result index with
  | nil => cases h
  | cons head refs ih =>
    obtain ⟨ref, text⟩ := head
    rw [substitutedFrom] at h
    rw [bindingsFrom]
    cases hvalue : r.resolve ref.toValueRef with
    | error e' =>
      simp only [hvalue, Except.error.injEq] at h
      rw [resolveBindings_error _ _ _ hvalue, h]
    | ok value =>
      rw [resolveBindings_ok _ _ _ hvalue]
      cases hrest : substitutedFrom r refs with
      | error e' =>
        simp only [hvalue, hrest, Except.error.injEq] at h
        exact ih (hrest.trans (congrArg Except.error h)) _ _
      | ok tail => simp only [hvalue, hrest, reduceCtorEq] at h

/-- **The bindings of a template, one after the other**: they give the text asked for when no
value holds a replacement pattern and that text holds none of the marks.

**Proof sketch.** By induction on the references. What is to the left of a mark is part of
the text asked for; what is to the right holds marks of higher indices and texts of the
expression. So the mark occurs once (`replaceAllFrom_mark`). -/
theorem resolveBindings_template {r : ValueResolver} {refs : List (EmbeddedRef × List Char)}
    {done rest : List Char} {index : Nat} (h : substitutedFrom r refs = .ok rest)
    (hplain : ∀ entry ∈ refs, ∀ value, r.resolve entry.1.toValueRef = .ok value →
      hasReplacementPattern (valueToString value).toList = false)
    (hmarks : ∀ k, index ≤ k → k < index + refs.length →
      ¬ mark (bindingKey k).toList <:+: done ++ rest) :
    r.resolveBindings (String.ofList (done ++ templateFrom index refs))
      (bindingsFrom index refs) = .ok (String.ofList (done ++ rest)) := by
  induction refs generalizing done rest index with
  | nil =>
    simp only [substitutedFrom, Except.ok.injEq] at h
    rw [← h]
    rfl
  | cons head refs ih =>
    have hparts := infix_substitutedFrom h
    obtain ⟨ref, text⟩ := head
    obtain ⟨value, tail, hvalue, htail, rfl⟩ := exists_of_substitutedFrom_cons h
    have hmark := hmarks index (Nat.le_refl _) (by simp)
    have htexts : ∀ entry ∈ (ref, text) :: refs,
        ¬ mark (bindingKey index).toList <:+: entry.2 := by
      intro entry hmem hin
      exact hmark (infix_append_of_infix_right (hin.trans (hparts entry hmem)))
    have hright : ¬ mark (bindingKey index).toList <:+: text ++ templateFrom (index + 1) refs :=
      not_infix_templateFrom (Nat.lt_succ_self index) (htexts _ mem_cons_self)
        fun entry hmem => htexts entry (mem_cons_of_mem _ hmem)
    have hleft : ¬ mark (bindingKey index).toList <:+: done := fun hin =>
      hmark (infix_append_of_infix_left hin)
    have hreplace := replaceAllFrom_mark [] (isMarkName_bindingKey index)
      (hplain _ mem_cons_self value hvalue) hleft hright
    have hstep : r.resolveBindings
        (String.ofList (done ++ ((valueToString value).toList ++ text) ++
          templateFrom (index + 1) refs)) (bindingsFrom (index + 1) refs) =
          .ok (String.ofList (done ++ ((valueToString value).toList ++ text) ++ tail)) := by
      apply ih htail fun entry hmem => hplain entry (mem_cons_of_mem _ hmem)
      intro k hlo hhi
      have hk := hmarks k (Nat.le_of_succ_le hlo) (by
        rw [length_cons]
        omega)
      simpa only [List.append_assoc] using hk
    rw [bindingsFrom, resolveBindings_ok _ _ _ hvalue, replaceAll, toList_braced,
      toList_ofList, templateFrom, hreplace]
    simpa only [List.append_assoc] using hstep

variable {cs rest : List Char} {name : ReferenceName} {kind : String}

/-! ## One reference, or a template -/

lemma open_notMem_of_dropWhile (h : '{' ∉ cs.dropWhile isSpace) : '{' ∉ cs := by
  rw [← List.takeWhile_append_dropWhile (p := isSpace) (l := cs), mem_append]
  rintro (hmem | hmem)
  · exact absurd (mem_takeWhile_imp hmem) (by decide)
  · exact h hmem

lemma open_notMem_of_keyWordAt {word : List Char} (h : keyWordAt cs = some (word, rest))
    (hrest : '{' ∉ rest) : '{' ∉ cs := by
  cases cs with
  | nil => cases h
  | cons c cs =>
    rw [keyWordAt] at h
    split_ifs at h with hc
    obtain ⟨-, rfl⟩ := Prod.mk.inj (some.inj h)
    rw [mem_cons]
    rintro (rfl | hmem)
    · exact absurd hc (by decide)
    rw [← List.takeWhile_append_dropWhile (p := isKeyChar) (l := cs), mem_append] at hmem
    rcases hmem with hmem | hmem
    · exact absurd (mem_takeWhile_imp hmem) (by decide)
    · exact hrest hmem

lemma open_notMem_of_referenceNameAt
    (h : referenceNameAt cs = some (name, rest)) (hrest : '{' ∉ rest) : '{' ∉ cs := by
  unfold referenceNameAt at h
  split at h
  · cases h
  · rename_i first after hfirst
    split at h
    · rename_i second rest' hsecond
      obtain ⟨-, rfl⟩ := Prod.mk.inj (some.inj h)
      have hafter := open_notMem_of_keyWordAt hsecond hrest
      exact open_notMem_of_keyWordAt hfirst (by simpa using hafter)
    · obtain ⟨-, rfl⟩ := Prod.mk.inj (some.inj h)
      exact open_notMem_of_keyWordAt hfirst hrest
  · rename_i first after _ hfirst
    obtain ⟨-, rfl⟩ := Prod.mk.inj (some.inj h)
    exact open_notMem_of_keyWordAt hfirst hrest

lemma eq_append_of_afterKind {kind : List Char} (h : afterKind kind cs = some rest) :
    cs = kind ++ ':' :: rest := by
  unfold afterKind at h
  split_ifs at h with hkind
  obtain ⟨t, rfl⟩ := isPrefixOf_iff_prefix.1 hkind
  rw [← some.inj h]
  simp

variable {cs : List Char}

lemma open_notMem_of_afterClose (h : afterClose cs = some []) : '{' ∉ cs := by
  unfold afterClose at h
  split at h
  · rename_i rest hclose
    rw [some.inj h] at hclose
    exact open_notMem_of_dropWhile (by rw [hclose]; decide)
  · cases h

lemma exists_of_bracedAt (h : bracedAt kind cs = some (name, rest)) :
    ∃ inner named closing, cs = '{' :: '{' :: inner ∧
      inner.dropWhile isSpace = kind.toList ++ ':' :: named ∧
      referenceNameAt named = some (name, closing) ∧ afterClose closing = some rest := by
  unfold bracedAt at h
  split at h
  · rename_i inner
    obtain ⟨named, hkind, h⟩ := bind_eq_some_iff.1 h
    obtain ⟨⟨name', closing⟩, hname, h⟩ := bind_eq_some_iff.1 h
    obtain ⟨rest', hclose, h⟩ := map_eq_some_iff.1 h
    obtain ⟨rfl, rfl⟩ := Prod.mk.inj h
    exact ⟨inner, named, closing, rfl, eq_append_of_afterKind hkind, hname, hclose⟩
  · cases h

lemma exists_of_bracedAt_end (hkind : '{' ∉ kind.toList) (h : bracedAt kind cs = some (name, [])) :
    ∃ inner, cs = '{' :: '{' :: inner ∧ '{' ∉ inner := by
  obtain ⟨inner, named, closing, hcs, hspace, hname, hclose⟩ := exists_of_bracedAt h
  have hnamed := open_notMem_of_referenceNameAt hname (open_notMem_of_afterClose hclose)
  refine ⟨inner, hcs, open_notMem_of_dropWhile ?_⟩
  rw [hspace, mem_append, mem_cons]
  rintro (hmem | hmem | hmem)
  · exact hkind hmem
  · exact absurd hmem (by decide)
  · exact hnamed hmem

lemma bracedAt_eq_none_of_ne {kind' : String} (hne : kind.toList.head? ≠ kind'.toList.head?)
    (hkind : kind.toList ≠ []) (hkind' : kind'.toList ≠ []) (h : (bracedAt kind cs).isSome) :
    bracedAt kind' cs = none := by
  obtain ⟨⟨name, rest⟩, hsome⟩ := isSome_iff_exists.1 h
  obtain ⟨inner, named, -, hcs, hspace, -⟩ := exists_of_bracedAt hsome
  cases h' : bracedAt kind' cs with
  | none => rfl
  | some found =>
    obtain ⟨inner', named', -, hcs', hspace', -⟩ := exists_of_bracedAt h'
    obtain rfl : inner = inner' := by
      simpa using hcs.symm.trans hcs'
    have hheads := congrArg head? (hspace.symm.trans hspace')
    rw [head?_append_of_ne_nil _ hkind, head?_append_of_ne_nil _ hkind'] at hheads
    exact absurd hheads hne

lemma embeddedAt_of_notMem {c : Char} (h : '{' ∉ cs) : embeddedAt (c :: cs) = none := by
  have hnone : ∀ kind, bracedAt kind (c :: cs) = none := by
    intro kind
    cases hkind : bracedAt kind (c :: cs) with
    | none => rfl
    | some found =>
      obtain ⟨inner, -, -, hcs, -⟩ := exists_of_bracedAt hkind
      rw [(List.cons.inj hcs).2] at h
      exact absurd mem_cons_self h
  rw [embeddedAt, hnone, hnone]
  rfl

lemma splitReferencesFrom_of_notMem {c : Char} (h : '{' ∉ cs) :
    splitReferencesFrom 0 (c :: cs) = (c :: cs, []) := by
  induction cs generalizing c with
  | nil => rw [splitReferencesFrom, embeddedAt_of_notMem h]; rfl
  | cons d cs ih =>
    have htail : '{' ∉ cs := fun hmem => h (mem_cons_of_mem _ hmem)
    rw [splitReferencesFrom, embeddedAt_of_notMem h]
    dsimp only
    rw [ih htail]

variable {raw : String}

lemma secretExpr_eq_none (h : (splitReferences raw).2 ≠ []) :
    secretExpr raw = none := by
  unfold secretExpr
  split
  · rename_i first second hsecret
    exfalso
    obtain ⟨inner, hraw, hinner⟩ := exists_of_bracedAt_end (by decide) hsecret
    have hsome : (bracedAt "secret" raw.toList).isSome := by rw [hsecret]; rfl
    have hhead : embeddedAt raw.toList = none := by
      rw [embeddedAt, bracedAt_eq_none_of_ne (by decide) (by decide) (by decide) hsome,
        bracedAt_eq_none_of_ne (by decide) (by decide) (by decide) hsome]
      rfl
    rw [splitReferences, hraw, splitReferencesFrom, ← hraw, hhead] at h
    dsimp only at h
    rw [splitReferencesFrom_of_notMem hinner] at h
    exact h rfl
  · rfl

lemma splitReferences_of_embeddedAt (h : embeddedAt raw.toList = some (ref, [])) :
    splitReferences raw = ([], [(ref, [])]) := by
  have hskip : ∀ cs : List Char, splitReferencesFrom cs.length cs = ([], []) := by
    intro cs
    induction cs with
    | nil => rfl
    | cons c cs ih => exact ih
  rw [splitReferences]
  cases hraw : raw.toList with
  | nil => rw [hraw] at h; cases h
  | cons c cs =>
    rw [hraw] at h
    rw [splitReferencesFrom, h]
    dsimp only
    rw [length_nil, Nat.sub_zero, hskip]

lemma exists_of_wholeReference (hsecret : secretExpr raw = none) (h : WholeReference raw) :
    ∃ ref : EmbeddedRef, exprToValueRef (.str raw) = ref.toValueRef ∧
      splitReferences raw = ([], [(ref, [])]) := by
  rw [exprToValueRef, hsecret]
  dsimp only
  cases hparam : paramExpr raw with
  | some key =>
    refine ⟨.param key, rfl, splitReferences_of_embeddedAt ?_⟩
    unfold paramExpr at hparam
    split at hparam
    · rename_i first hbraced
      rw [embeddedAt, hbraced, ← some.inj hparam]
      rfl
    · cases hparam
  | none =>
    have hcapture : (captureExpr raw).isSome := by
      rcases h with h | h
      · rw [hparam] at h; cases h
      · exact h
    obtain ⟨ref, hsome⟩ := isSome_iff_exists.1 hcapture
    rw [hsome]
    refine ⟨.capture ref, rfl, splitReferences_of_embeddedAt ?_⟩
    unfold captureExpr at hsome
    split at hsome
    · rename_i name hbraced
      have hbracedSome : (bracedAt "capture" raw.toList).isSome := by rw [hbraced]; rfl
      rw [embeddedAt, bracedAt_eq_none_of_ne (by decide) (by decide) (by decide) hbracedSome,
        hbraced, ← some.inj hsome]
      rfl
    · cases hsome

lemma exprToValueRef_eq_template (h : (splitReferences raw).2 ≠ []) (hwhole : ¬ WholeReference raw)
    :
    exprToValueRef (.str raw) = .template
      (String.ofList ((splitReferences raw).1 ++ templateFrom 0 (splitReferences raw).2))
      (bindingsFrom 0 (splitReferences raw).2) := by
  have hparam : paramExpr raw = none := by
    rw [← not_isSome_iff_eq_none]
    exact fun hsome => hwhole (Or.inl hsome)
  have hcapture : captureExpr raw = none := by
    rw [← not_isSome_iff_eq_none]
    exact fun hsome => hwhole (Or.inr hsome)
  rw [exprToValueRef, secretExpr_eq_none h, hparam, hcapture]
  dsimp only
  split
  · rename_i hsplit
    rw [hsplit] at h
    exact absurd rfl h
  · rename_i hsplit
    rw [hsplit]

/-! ## Literal substitution -/

lemma PlaceholderFree.markFree (h : PlaceholderFree r raw) :
    MarkFree r raw := by
  intro text htext index _ hinner
  have hname := isMarkName_bindingKey index
  exact h text htext ⟨_, hname.ne_nil, hname.close_notMem, hinner⟩

lemma resolveToString_whole (hsecret : secretExpr raw = none) (h : WholeReference raw) :
    r.resolveToString (exprToValueRef (.str raw)) = substituted r raw := by
  obtain ⟨ref, hexpr, hsplit⟩ := exists_of_wholeReference hsecret h
  have hresolve : r.resolveToString ref.toValueRef =
      (r.resolve ref.toValueRef).map valueToString := by
    cases ref <;> rfl
  rw [hexpr, hresolve, substituted, hsplit]
  dsimp only [substitutedFrom]
  cases r.resolve ref.toValueRef with
  | error e => rfl
  | ok value =>
    simp only [Except.map, append_nil, nil_append, ofList_toList]

/-- Where the bindings put the values in their places, a template resolves to what it stands
for exactly when the cleanup has nothing to drop. -/
lemma resolveToString_template_iff (h : (splitReferences raw).2 ≠ [])
    (hwhole : ¬ WholeReference raw) (hplain : PlainValues r raw) (hmarks : MarkFree r raw) :
    r.resolveToString (exprToValueRef (.str raw)) = substituted r raw ↔ PlaceholderFree r raw := by
  have htemplate : ∀ template bindings, r.resolveToString (.template template bindings) =
      (r.resolveBindings template bindings).map fun result => stripPlaceholders result := by
    intro template bindings
    rw [resolveToString, ValueResolver.resolve]
    · cases r.resolveBindings template bindings <;> rfl
    · intro ref hsecret
      cases hsecret
  rw [exprToValueRef_eq_template h hwhole, htemplate]
  unfold PlaceholderFree MarkFree at *
  unfold substituted at *
  cases hrest : substitutedFrom r (splitReferences raw).2 with
  | error e =>
    rw [resolveBindings_template_error hrest]
    refine iff_of_true rfl ?_
    intro text htext
    cases htext
  | ok rest =>
    rw [hrest] at hmarks
    have hbindings : r.resolveBindings
        (String.ofList ((splitReferences raw).1 ++ templateFrom 0 (splitReferences raw).2))
        (bindingsFrom 0 (splitReferences raw).2) =
          .ok (String.ofList ((splitReferences raw).1 ++ rest)) := by
      apply resolveBindings_template hrest hplain
      intro k _ hk
      simpa using hmarks _ rfl k (by omega)
    rw [hbindings]
    simp only [Except.map, Except.ok.injEq, forall_eq', toList_ofList, stripPlaceholders,
      ofList_inj]
    exact stripPlaceholdersFrom_eq_self_iff _

/-- **When an expression is substituted literally.** An expression with references resolves to
its text with each reference replaced by the text of its value if it is one reference, or if
no value holds a replacement pattern and nothing in that text stands between double braces.
Where the expression is more than one reference, no value holds a pattern and the text holds
none of the generated marks, it does so only if nothing stands between double braces.

**Proof sketch.** The bindings put the values in their places (`resolveBindings_template`); the
cleanup then drops what stands between double braces (`stripPlaceholdersFrom_eq_self_iff`). -/
theorem expression_substituted (r : ValueResolver) (raw : String) (h : (splitReferences raw).2 ≠ [])
    :
    ((WholeReference raw ∨ (PlainValues r raw ∧ PlaceholderFree r raw)) →
      r.resolveToString (exprToValueRef (.str raw)) = substituted r raw) ∧
    (¬ WholeReference raw → PlainValues r raw → MarkFree r raw →
      r.resolveToString (exprToValueRef (.str raw)) = substituted r raw →
        PlaceholderFree r raw) := by
  constructor
  · intro hcase
    by_cases hwhole : WholeReference raw
    · exact resolveToString_whole (secretExpr_eq_none h) hwhole
    · obtain ⟨hplain, hfree⟩ := hcase.resolve_left hwhole
      exact (resolveToString_template_iff h hwhole hplain hfree.markFree).2 hfree
  · intro hwhole hplain hmarks
    exact (resolveToString_template_iff h hwhole hplain hmarks).1

theorem expression_substituted_greeting :
    (⟨OrderedMap.empty, OrderedMap.ofList [("name", .str "Ada")]⟩ : ValueResolver).resolveToString
      (exprToValueRef (.str "Hello {{ param:name }}!")) = .ok "Hello Ada!" := by
  have hsplit : (splitReferences "Hello {{ param:name }}!").2 = [(.param "name", ['!'])] := by
    decide +kernel
  have htext : substituted ⟨OrderedMap.empty, OrderedMap.ofList [("name", .str "Ada")]⟩
      "Hello {{ param:name }}!" = .ok "Hello Ada!" := by
    decide +kernel
  have hplain : PlainValues ⟨OrderedMap.empty, OrderedMap.ofList [("name", .str "Ada")]⟩
      "Hello {{ param:name }}!" := by
    intro entry hmem value hvalue
    rw [hsplit, List.mem_singleton] at hmem
    subst hmem
    rw [← Except.ok.inj hvalue]
    decide
  have hfree : PlaceholderFree ⟨OrderedMap.empty, OrderedMap.ofList [("name", .str "Ada")]⟩
      "Hello {{ param:name }}!" := by
    intro text heq
    rw [htext] at heq
    rw [← Except.ok.inj heq]
    exact (stripPlaceholdersFrom_eq_self_iff _).1 (by decide +kernel)
  rw [← htext]
  exact (expression_substituted _ _ (by rw [hsplit]; exact List.cons_ne_nil _ _)).1
    (Or.inr ⟨hplain, hfree⟩)

/-- Two values, of which the first holds the mark of the second. -/
def markedValues : ValueResolver :=
  ⟨OrderedMap.empty, OrderedMap.ofList [("a", .str "{{value_1}}"), ("b", .str "x")]⟩

/-- A value that holds the mark of the next reference is overwritten by that reference's
value. -/
theorem value_overwritten :
    substituted markedValues "{{ param:a }}-{{ param:b }}" = .ok "{{value_1}}-x" ∧
      markedValues.resolveToString (exprToValueRef (.str "{{ param:a }}-{{ param:b }}")) =
        .ok "x-x" := by
  decide +kernel

end Yantra
