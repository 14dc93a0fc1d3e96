import Yantra.Sanitizer.Lossless

/-!
# Writing marked values and reading them back

A list of segments is written with `@@` for an `@` of a literal and a backslash before each brace
and backslash of a value. The parser reads it back, except that it refuses every text with a
reserved token, and a literal may have one.

## Main definitions

* `encodeSegments` — how segments are written.
* `MarkersRoundTrip` — what is claimed of the grammar.

## Main results

* `markersRoundTrip` — the grammar round-trips.
-/

namespace Yantra

open Utf16 Tokens List Option Nat

/-! ## Writing segments -/

/-- A literal, written with `@@` for every `@`. -/
def encodeLiteral (text : JsString) : JsString :=
  text.flatMap fun c => if c = atSign then [atSign, atSign] else [c]

/-- A value, written with a backslash before every brace and backslash. -/
def encodeValue (v : JsString) : JsString :=
  v.flatMap fun c => if isEscapable c then [backslash, c] else [c]

/-- How a segment is written. -/
def encodeSegment : InputSegment → JsString
  | .literal text => encodeLiteral text
  | .value tag v => atSign :: (units tag.name ++ openBrace :: (encodeValue v ++ [closeBrace]))

/-- How segments are written. -/
def encodeSegments (segments : List InputSegment) : JsString := segments.flatMap encodeSegment

/-- The segments with adjacent literals joined and empty ones left out. -/
def mergeLiterals : List InputSegment → List InputSegment
  | [] => []
  | .literal text :: rest => consLiteral text (mergeLiterals rest)
  | .value tag v :: rest => .value tag v :: mergeLiterals rest

/-- A value within the limits of the parser. -/
def IsMarkableValue (v : JsString) : Prop :=
  v.all isSpace = false ∧ v.length ≤ MAX_MARKED_VALUE_LENGTH

/-- A segment that can be written: a literal, or a value within the limits with a marker tag. -/
def InputSegment.IsMarkable : InputSegment → Prop
  | .literal _ => True
  | .value tag v => tag ∈ MARKER_TAGS ∧ IsMarkableValue v

/-- No joined literal has a reserved token. -/
def LiteralsUnreserved (segments : List InputSegment) : Prop :=
  ∀ text, .literal text ∈ mergeLiterals segments → containsUserInputPlaceholder text = false

/-- What is claimed of the grammar of markers. -/
structure MarkersRoundTrip : Prop where
  /-- What is written for segments is read back as the same segments, literals joined. -/
  parse_encode : ∀ segments : List InputSegment, (∀ s ∈ segments, s.IsMarkable) →
    LiteralsUnreserved segments →
      parseUserInputMarkers (encodeSegments segments) = .ok (mergeLiterals segments)
  /-- It is refused where a literal has a reserved token. -/
  reserved : ∀ segments : List InputSegment, (∀ s ∈ segments, s.IsMarkable) →
    ¬ LiteralsUnreserved segments → ∃ offset,
      parseUserInputMarkers (encodeSegments segments) = .error ⟨offset, .reservedPlaceholder⟩
  /-- A text that is refused is refused at a position inside of it. -/
  refused : ∀ (text : JsString) (error : UserInputMarkerError),
    parseUserInputMarkers text = .error error → error.offset < text.length
  /-- An accepted text has one reading. -/
  unique : ∀ (text : JsString) (segments : List InputSegment),
    parseUserInputMarkers text = .ok segments → ∀ r, Reading text r ↔ r = segments

/-! ## What the parser accepts -/

/-- The parser returns the reading of a text, or refuses a value of it.

**Proof sketch.** Induction on the reading, whose rules the branches of the loop follow. -/
theorem parseFrom_of_reading {rest : JsString} {r : List InputSegment} (h : Reading rest r)
    (fuel cursor : ℕ) (segments : List InputSegment) (literal : JsString)
    (hfuel : rest.length < fuel) (hends : ∀ t, segments.getLast? ≠ some (.literal t)) :
    ((∀ tag v, .value tag v ∈ r → IsMarkableValue v) ∧
      parseFrom fuel cursor segments literal rest = .ok (segments ++ consLiteral literal r)) ∨
    ((∃ tag v, .value tag v ∈ r ∧ ¬ IsMarkableValue v) ∧
      ∃ e, parseFrom fuel cursor segments literal rest = .error e) := by
  induction h generalizing fuel cursor segments literal with
  | nil =>
    refine .inl ⟨by simp, ?_⟩
    obtain ⟨fuel, rfl⟩ := exists_eq_succ_of_ne_zero (Nat.ne_of_gt hfuel)
    rw [parseFrom, pushLiteral_eq literal hends]
  | @char c s r hc h ih =>
    obtain ⟨fuel, rfl⟩ := exists_eq_succ_of_ne_zero (Nat.ne_zero_of_lt hfuel)
    have hstep := ih fuel (cursor + 1) segments (literal ++ [c])
      (lt_of_succ_lt_succ hfuel) hends
    simpa only [parseFrom, if_pos hc, consLiteral_consLiteral, value_mem_consLiteral] using hstep
  | @doubled s r h ih =>
    obtain ⟨fuel, rfl⟩ := exists_eq_succ_of_ne_zero (Nat.ne_zero_of_lt hfuel)
    have hlt : s.length < fuel := by
      simp only [length_cons] at hfuel
      omega
    have hstep := ih fuel (cursor + 2) segments (literal ++ [atSign]) hlt hends
    simpa only [parseFrom, ne_eq, not_true, if_false, head?_cons, if_true, tail_cons,
      consLiteral_consLiteral, value_mem_consLiteral] using hstep
  | @alone s r hat hopen h ih =>
    obtain ⟨fuel, rfl⟩ := exists_eq_succ_of_ne_zero (Nat.ne_zero_of_lt hfuel)
    have hstep := ih fuel (cursor + 1) segments (literal ++ [atSign])
      (lt_of_succ_lt_succ hfuel) hends
    simpa only [parseFrom, ne_eq, not_true, if_false, if_neg hat,
      markerOpening_eq_none_iff.2 hopen, consLiteral_consLiteral, value_mem_consLiteral]
      using hstep
  | @marker tag b v s name r htag hname hb h ih =>
    obtain ⟨fuel, rfl⟩ := exists_eq_succ_of_ne_zero (Nat.ne_zero_of_lt hfuel)
    obtain ⟨text, hopening, htext⟩ := markerOpening_of_tag htag (b ++ closeBrace :: s)
    have hlt : s.length < fuel := by
      simp only [length_cons, length_append] at hfuel
      omega
    rw [parseFrom, if_neg (not_not.2 rfl), if_neg (head?_opening_ne htag _), hopening]
    simp only [htext, hname, parseBody_one hb s]
    by_cases hspace : v.all isSpace
    · rw [if_pos hspace]
      refine .inr ⟨⟨name, v, mem_cons_self, fun hv => ?_⟩, _, rfl⟩
      rw [hv.1] at hspace
      cases hspace
    · rw [if_neg hspace]
      by_cases hlong : MAX_MARKED_VALUE_LENGTH < v.length
      · rw [if_pos hlong]
        exact .inr ⟨⟨name, v, mem_cons_self, fun hv => absurd hv.2 (Nat.not_le.2 hlong)⟩, _,
          rfl⟩
      · rw [if_neg hlong]
        have hv : IsMarkableValue v := ⟨Bool.eq_false_iff.2 hspace, Nat.not_lt.1 hlong⟩
        have hstep := ih fuel
          (cursor + ((tag ++ openBrace :: (b ++ closeBrace :: s)).length + 1 - s.length))
          (pushLiteral segments literal ++ [.value name v]) [] hlt (by simp)
        rw [consLiteral_nil, append_assoc, singleton_append] at hstep
        have hjoin : segments ++ consLiteral literal (.value name v :: r) =
            pushLiteral segments literal ++ .value name v :: r := by
          rw [pushLiteral_eq literal hends, consLiteral_value, append_assoc]
        rw [hjoin]
        refine hstep.imp (fun hok => ⟨fun tag' w hw => ?_, hok.2⟩) fun herr => ⟨?_, herr.2⟩
        · rcases mem_cons.1 hw with hw | hw
          · cases hw
            exact hv
          · exact hok.1 tag' w hw
        · obtain ⟨⟨tag', w, hw, hbad⟩, -⟩ := herr
          exact ⟨tag', w, mem_cons_of_mem _ hw, hbad⟩

variable {text : JsString}

variable {r : List InputSegment}

/-- **What the parser accepts**: the texts without reserved tokens that have a reading, all of its
values within the limits. -/
theorem parse_eq_ok_iff :
    parseUserInputMarkers text = .ok r ↔
      TokenFree IsPlaceholder text ∧ Reading text r ∧
        ∀ tag v, .value tag v ∈ r → IsMarkableValue v := by
  constructor
  · intro h
    have hfree := tokenFree_of_parse h
    have hreading := reading_of_parse h
    refine ⟨hfree, hreading, ?_⟩
    unfold parseUserInputMarkers at h
    rw [recognizes_placeholder.exec_eq_none_iff.2 hfree] at h
    rcases parseFrom_of_reading hreading (text.length + 1) 0 [] [] (lt_succ_self _) (by simp)
      with hok | ⟨-, e, he⟩
    · exact hok.1
    · rw [he] at h
      cases h
  · rintro ⟨hfree, hreading, hvalues⟩
    unfold parseUserInputMarkers
    rw [recognizes_placeholder.exec_eq_none_iff.2 hfree]
    rcases parseFrom_of_reading hreading (text.length + 1) 0 [] [] (lt_succ_self _) (by simp)
      with hok | ⟨⟨tag, v, hv, hbad⟩, -⟩
    · have hresult := hok.2
      rwa [nil_append, consLiteral_nil] at hresult
    · exact absurd (hvalues tag v hv) hbad

lemma reading_unique {segments r : List InputSegment}
    (h : parseUserInputMarkers text = .ok segments) (hr : Reading text r) : r = segments := by
  have hfree := tokenFree_of_parse h
  unfold parseUserInputMarkers at h
  rw [recognizes_placeholder.exec_eq_none_iff.2 hfree] at h
  rcases parseFrom_of_reading hr (text.length + 1) 0 [] [] (lt_succ_self _) (by simp)
    with ⟨-, hok⟩ | ⟨-, e, he⟩
  · rw [hok, nil_append, consLiteral_nil] at h
    exact Except.ok.inj h
  · rw [he] at h
    cases h

variable {e : UserInputMarkerError}

/-- The loop refuses at the `@` of a marker. -/
lemma offset_parseFrom_lt (fuel cursor : ℕ) (segments : List InputSegment) (literal rest : JsString)
    (h : parseFrom fuel cursor segments literal rest = .error e) :
    e.offset < cursor + rest.length := by
  have hself (k n : ℕ) : k < k + (n + 1) := Nat.lt_add_of_pos_right n.succ_pos
  induction fuel generalizing cursor segments literal rest with
  | zero => cases h
  | succ fuel ih =>
    cases rest with
    | nil => cases h
    | cons c rest =>
      rw [parseFrom] at h
      rw [length_cons]
      split_ifs at h with hc hat
      · have hlt := ih _ _ _ rest h
        omega
      · obtain ⟨rest, rfl⟩ := head?_eq_some_iff.1 hat
        have hlt := ih _ _ _ rest h
        rw [length_cons]
        omega
      · split at h
        · have hlt := ih _ _ _ rest h
          omega
        · rename_i name body hopening
          obtain ⟨tag, -, -, rfl⟩ := markerOpening_eq_some hopening
          split at h
          · cases h
            exact hself _ _
          · split at h
            · cases h
              exact hself _ _
            · rename_i value after hbody
              obtain ⟨b, -, rfl⟩ := closes_of_parseBody 0 body value after hbody
              split_ifs at h
              · cases h
                exact hself _ _
              · cases h
                exact hself _ _
              · have hlt := ih _ _ _ after h
                simp only [length_append, length_cons] at hlt ⊢
                omega

lemma offset_lt_of_parse (h : parseUserInputMarkers text = .error e) : e.offset < text.length := by
  unfold parseUserInputMarkers at h
  split at h
  · rename_i m hexec
    cases h
    obtain ⟨-, hlies, hat, -⟩ := Regex.exec_spec hexec
    obtain ⟨-, hw, -⟩ := recognizes_placeholder.of_matchAt hat
    have hpos := length_pos_iff.2 (recognizes_placeholder.nonempty _ hw)
    have hstop := hlies.stop_le
    rw [Regex.Match.stop] at hstop
    show m.index < text.length
    omega
  · have hlt := offset_parseFrom_lt _ _ _ _ _ h
    rwa [Nat.zero_add] at hlt

/-! ## What is written is read -/

lemma markerBody_encodeValue (v : JsString) : MarkerBody (encodeValue v) v := by
  induction v with
  | nil => exact .nil
  | cons c v ih =>
    rw [encodeValue, flatMap_cons, ← encodeValue]
    split_ifs with hc
    · exact .escape hc ih
    · refine .char ⟨?_, ?_, ?_⟩ ih <;> rintro rfl <;> exact hc (by decide)

lemma reading_encodeLiteral (text : JsString) {s : JsString} (h : Reading s r) :
    Reading (encodeLiteral text ++ s) (consLiteral text r) := by
  induction text with
  | nil => rwa [consLiteral_nil]
  | cons c text ih =>
    have hjoin : consLiteral (c :: text) r = consLiteral [c] (consLiteral text r) :=
      (consLiteral_consLiteral [c] text r).symm
    rw [encodeLiteral, flatMap_cons, ← encodeLiteral, append_assoc, hjoin]
    split_ifs with hc
    · rw [hc]
      exact .doubled ih
    · exact .char hc ih

variable {tag : UserInputValueTag}

lemma markerTagOf_name (h : tag ∈ MARKER_TAGS) :
    markerTagOf (units tag.name) = some tag := by
  have hne : (units tag.name).isEmpty = false :=
    isEmpty_eq_false_iff.2 (isTagChar_of_mem_name tag).1
  rw [markerTagOf, hne, if_neg Bool.false_ne_true, markerTag_name, if_neg]
  rintro rfl
  exact absurd h (by decide)

variable {segments : List InputSegment}

theorem reading_encodeSegments (h : ∀ s ∈ segments, s.IsMarkable) :
    Reading (encodeSegments segments) (mergeLiterals segments) := by
  induction segments with
  | nil => exact .nil
  | cons segment segments ih =>
    have htail := ih fun s hs => h s (mem_cons_of_mem _ hs)
    rw [encodeSegments, flatMap_cons, ← encodeSegments]
    cases segment with
    | literal text => exact reading_encodeLiteral text htail
    | value tag v =>
      have hmarkable : InputSegment.IsMarkable (.value tag v) := h _ mem_cons_self
      have hreading := Reading.marker (List.all_eq_true.2 (isTagChar_of_mem_name tag).2)
        (markerTagOf_name hmarkable.1) (markerBody_encodeValue v) htail
      simpa only [encodeSegment, cons_append, append_assoc, singleton_append,
        mergeLiterals, nil_append] using hreading

lemma value_mem_mergeLiterals {v : JsString} :
    .value tag v ∈ mergeLiterals segments ↔ .value tag v ∈ segments := by
  induction segments with
  | nil => exact Iff.rfl
  | cons segment segments ih =>
    cases segment with
    | literal text => simp [mergeLiterals, value_mem_consLiteral, ih]
    | value tag' v' => simp [mergeLiterals, ih]

/-! ## Reserved tokens in what is written -/

lemma collapsed_encodeLiteral (text : JsString) : Collapsed (encodeLiteral text) text := by
  induction text with
  | nil => exact .nil
  | cons c text ih =>
    rw [encodeLiteral, flatMap_cons, ← encodeLiteral]
    split_ifs with hc
    · rw [hc]
      exact .doubled ih
    · exact .keep c ih

lemma IsPlaceholder.exists_eq {w : JsString} (h : IsPlaceholder w) :
    ∃ rest, w = openBrace :: openBrace :: rest := by
  obtain ⟨tag, digits, -, -, rfl⟩ := h
  have hopen : units "\x7b\x7buser:" = openBrace :: openBrace :: units "user:" := by decide
  exact ⟨units "user:" ++ (tag ++ (units ":" ++ (digits ++ units "\x7d\x7d"))), by rw [hopen]; rfl⟩

def NotBoth (c d : CodeUnit) : Prop := ¬ (c = openBrace ∧ d = openBrace)

lemma isChain_body (c : CodeUnit) (v : JsString) :
    (c :: (encodeValue v ++ [closeBrace])).IsChain NotBoth := by
  induction v generalizing c with
  | nil => exact .cons_cons (fun h => absurd h.2 (by decide)) (.singleton _)
  | cons d v ih =>
    rw [encodeValue, flatMap_cons, ← encodeValue]
    split_ifs with hd
    · exact .cons_cons (fun h => absurd h.2 (by decide)) (.cons_cons
        (fun h => absurd h.1 (by decide)) (ih d))
    · refine .cons_cons (fun h => hd ?_) (ih d)
      rw [h.2]
      decide

lemma isChain_marker (tag : UserInputValueTag) (v : JsString) :
    (encodeSegment (.value tag v)).IsChain NotBoth := by
  have htag := (isTagChar_of_mem_name tag).2
  have hname : ∀ (name : JsString) (c : CodeUnit), c ≠ openBrace →
      (∀ d ∈ name, isTagChar d) →
        (c :: (name ++ openBrace :: (encodeValue v ++ [closeBrace]))).IsChain NotBoth := by
    intro name
    induction name with
    | nil => exact fun c hc _ => .cons_cons (fun h => hc h.1) (isChain_body _ v)
    | cons d name ih =>
      intro c hc hall
      refine .cons_cons (fun h => hc h.1) (ih d ?_ fun x hx => hall x (mem_cons_of_mem d hx))
      rintro rfl
      exact absurd (hall _ mem_cons_self) (by decide)
  exact hname (units tag.name) atSign (by decide) htag

lemma not_infix_of_isChain {s rest : JsString} (h : s.IsChain NotBoth) :
    ¬ openBrace :: openBrace :: rest <:+: s := by
  rintro ⟨before, after, rfl⟩
  rw [append_assoc] at h
  have hpair := (isChain_append.1 h).2.1
  exact (isChain_cons_cons.1 hpair).1 ⟨rfl, rfl⟩

lemma occurs_value_append_iff {w y : JsString} (hw : IsPlaceholder w) (tag : UserInputValueTag)
    (v : JsString) : w <:+: encodeSegment (.value tag v) ++ y ↔ w <:+: y := by
  refine ⟨fun hin => ?_, infix_append_of_infix_right⟩
  have hchain := isChain_marker tag v
  obtain ⟨rest, rfl⟩ := hw.exists_eq
  rcases infix_append_iff_ne_nil.1 hin with hin | hin | ⟨a, b, ha, hb, hab, hsuffix, -⟩
  · exact absurd hin (not_infix_of_isChain hchain)
  · exact hin
  · -- the token would start with the closing brace of the marker, or lie in it with two symbols
    exfalso
    cases a with
    | nil => exact ha rfl
    | cons c a =>
      obtain ⟨rfl, htail⟩ := List.cons.inj hab
      cases a with
      | nil =>
        have hlast : (encodeSegment (.value tag v)).getLast? = some closeBrace := by
          simp [encodeSegment, getLast?_cons, getLast?_append]
        rw [singleton_suffix_iff_getLast?_eq_some.1 hsuffix, some.injEq] at hlast
        exact absurd hlast (by decide)
      | cons d a =>
        obtain ⟨rfl, -⟩ := List.cons.inj htail
        exact not_infix_of_isChain hchain hsuffix.isInfix

/-- What has no `@` does not reach from a text into one that starts with an `@`. -/
lemma occurs_append_iff {w x y : JsString} (hw : atSign ∉ w) (hy : ∀ c ∈ y.head?, c = atSign) :
    w <:+: x ++ y ↔ w <:+: x ∨ w <:+: y := by
  rw [infix_append_iff_ne_nil]
  refine or_congr_right ⟨fun h => h.resolve_right ?_, .inl⟩
  rintro ⟨a, b, -, hb, rfl, -, hprefix⟩
  obtain ⟨c, b, rfl⟩ := exists_cons_of_ne_nil hb
  obtain ⟨rest, rfl⟩ := hprefix
  have hc : c = atSign := hy c (by simp)
  exact hw (hc ▸ mem_append_right a mem_cons_self)

lemma encodeSegments_consLiteral (text : JsString) (segments : List InputSegment) :
    encodeSegments (consLiteral text segments) = encodeLiteral text ++ encodeSegments segments := by
  unfold consLiteral
  split
  · simp [encodeSegments, encodeSegment, encodeLiteral]
  · split_ifs with h
    · rw [List.isEmpty_iff.1 h]
      rfl
    · rfl

lemma encodeSegments_mergeLiterals (segments : List InputSegment) :
    encodeSegments (mergeLiterals segments) = encodeSegments segments := by
  induction segments with
  | nil => rfl
  | cons segment segments ih =>
    cases segment with
    | literal text => rw [mergeLiterals, encodeSegments_consLiteral, ih]; rfl
    | value tag v => exact congrArg (encodeSegment (.value tag v) ++ ·) ih

lemma isChain_consLiteral (text : JsString) (h : segments.IsChain Apart) :
    (consLiteral text segments).IsChain Apart := by
  cases segments with
  | nil =>
    simp only [consLiteral]
    split_ifs
    · exact .nil
    · exact .singleton _
  | cons segment rest =>
    cases segment with
    | literal next =>
      rw [isChain_cons] at h
      exact isChain_cons.2
        ⟨fun t ht => (h.1 t ht).elim (fun hnot => absurd hnot Bool.false_ne_true) .inr, h.2⟩
    | value tag v =>
      rw [consLiteral_value]
      simp only [consLiteral]
      split_ifs
      · exact h
      · exact .cons_cons (.inr rfl) h

lemma isChain_mergeLiterals (segments : List InputSegment) :
    (mergeLiterals segments).IsChain Apart := by
  induction segments with
  | nil => exact .nil
  | cons segment segments ih =>
    cases segment with
    | literal text => exact isChain_consLiteral text ih
    | value tag v => exact isChain_cons.2 ⟨fun t _ => .inl rfl, ih⟩

/-- **Which tokens what is written has**: those of the literals.

**Proof sketch.** Induction on the segments. A token has no `@`, so it does not reach beyond a
literal into a marker; and it starts with two braces, which what is written for a value has not. -/
theorem occurs_encodeSegments_iff {w : JsString} (hw : IsPlaceholder w)
    {segments : List InputSegment} (h : segments.IsChain Apart) :
    w <:+: encodeSegments segments ↔ ∃ text, .literal text ∈ segments ∧ w <:+: text := by
  have hat : atSign ∉ w := hw.notMem (by decide) (by decide) (by decide)
  induction segments with
  | nil =>
    obtain ⟨rest, rfl⟩ := hw.exists_eq
    simp [encodeSegments]
  | cons segment segments ih =>
    rw [isChain_cons] at h
    have htail := ih h.2
    rw [encodeSegments, flatMap_cons, ← encodeSegments]
    cases segment with
    | literal text =>
      have hhead : ∀ c ∈ (encodeSegments segments).head?, c = atSign := by
        cases segments with
        | nil => exact fun c hc => nomatch hc
        | cons next rest =>
          cases next with
          | literal next => exact absurd (h.1 _ rfl) (by simp [Apart, InputSegment.value?])
          | value tag v => exact fun c hc => (Option.some.inj hc).symm
      have hliteral : w <:+: encodeLiteral text ↔ w <:+: text :=
        (collapsed_encodeLiteral text).occurs_iff hat
      exact (occurs_append_iff hat hhead).trans ((or_congr hliteral htail).trans (by simp))
    | value tag v =>
      exact (occurs_value_append_iff hw tag v).trans (htail.trans (by simp))

/-! ## The round trip -/

lemma tokenFree_encodeSegments_iff (segments : List InputSegment) :
    TokenFree IsPlaceholder (encodeSegments segments) ↔ LiteralsUnreserved segments := by
  have htest : ∀ text, containsUserInputPlaceholder text = false ↔
      TokenFree IsPlaceholder text := by
    intro text
    rw [← recognizes_placeholder.exec_eq_none_iff, containsUserInputPlaceholder, Regex.test,
      isSome_eq_false_iff, isNone_iff_eq_none]
  have hoccurs : ∀ w, IsPlaceholder w → (w <:+: encodeSegments segments ↔
      ∃ text, .literal text ∈ mergeLiterals segments ∧ w <:+: text) := by
    intro w hw
    rw [← encodeSegments_mergeLiterals]
    exact occurs_encodeSegments_iff hw (isChain_mergeLiterals segments)
  constructor
  · intro hfree text htext
    exact (htest text).2 fun w hw hin => hfree w hw ((hoccurs w hw).2 ⟨text, htext, hin⟩)
  · intro hfree w hw hin
    obtain ⟨text, htext, hin⟩ := (hoccurs w hw).1 hin
    exact (htest text).1 (hfree text htext) w hw hin

/-- **The grammar of markers round-trips.** -/
theorem markersRoundTrip : MarkersRoundTrip := by
  refine ⟨fun segments hmarkable hfree => ?_, fun segments _ hreserved => ?_,
    fun text e => offset_lt_of_parse, fun text segments h r => ?_⟩
  · refine parse_eq_ok_iff.2 ⟨(tokenFree_encodeSegments_iff segments).2 hfree,
      reading_encodeSegments hmarkable, fun tag v hv => ?_⟩
    exact (hmarkable _ (value_mem_mergeLiterals.1 hv)).2
  · rw [← tokenFree_encodeSegments_iff, ← recognizes_placeholder.exec_eq_none_iff] at hreserved
    obtain ⟨m, hm⟩ := Option.ne_none_iff_exists'.1 hreserved
    refine ⟨m.index, ?_⟩
    unfold parseUserInputMarkers
    rw [hm]
  · exact ⟨reading_unique h, fun heq => heq ▸ reading_of_parse h⟩

theorem reservedLiteral_not_read :
    ¬ ∀ segments : List InputSegment, (∀ s ∈ segments, s.IsMarkable) →
      parseUserInputMarkers (encodeSegments segments) = .ok (mergeLiterals segments) := by
  intro h
  have hread := h [.literal (units "\x7b\x7buser:pin:1\x7d\x7d")]
    (by simp [InputSegment.IsMarkable])
  revert hread
  decide

end Yantra
