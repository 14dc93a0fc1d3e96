import Yantra.ReportTemplate.Parse

/-!
# The body of a report template

What `parseTemplate` keeps of an accepted template: the lines outside the frontmatter and the
guidance directives, which are plain text and the placeholders of the slots.

## Main definitions

* `IsDirective`, `Strips` — a guidance directive, and lines without theirs.
* `Adds` — what lines of the body add to the state of the parser.

## Main results

* `linesRead_spec` — what the loop over the lines keeps, where it finds nothing wrong.
* `parseFrontmatter_spec` — what is cut off before the body.
* `parseTemplate_spec` — the body of an accepted template.
-/

namespace Yantra

open Utf16 List Bool Parts

/-! ## Placeholders as written -/

/-- A text without a pair of braces. -/
def PlainWord (w : JsString) : Prop :=
  includes w (units "\x7b\x7b") = false ∧ includes w (units "\x7d\x7d") = false

/-- A placeholder as written: braces around the declaration of a slot, and no earlier end. -/
def PlaceholderWord (pf : SlotPlatform) (slot : TemplateSlot) (w : JsString) : Prop :=
  ∃ inner line headings, w = units "\x7b\x7b" ++ inner ++ units "\x7d\x7d" ∧
    untilClose (inner ++ units "\x7d\x7d") = some inner ∧
    parseSlot pf inner line headings = .ok slot.toSlotDeclaration

def blanked (ps : List (TextPart CodeUnit TemplateSlot)) : JsString :=
  ps.flatMap fun
    | .text w => w
    | .hole _ w => List.replicate w.length 32

@[simp] lemma blanked_append (ps qs : List (TextPart CodeUnit TemplateSlot)) :
    blanked (ps ++ qs) = blanked ps ++ blanked qs := flatMap_append

lemma length_blanked (ps : List (TextPart CodeUnit TemplateSlot)) :
    (blanked ps).length = (source ps).length := by
  induction ps with
  | nil => rfl
  | cons p ps ih =>
    change (_ ++ blanked ps).length = _
    rw [length_append, ih, source_cons, length_append]
    cases p <;> simp [TextPart.source]

lemma includes_cons (c : CodeUnit) (cs needle : JsString) :
    includes (c :: cs) needle = (needle.isPrefixOf (c :: cs) || includes cs needle) := by
  rw [includes, indexOf_cons, includes]
  cases needle.isPrefixOf (c :: cs) <;> simp

lemma includes_pair (c : CodeUnit) (w : JsString) :
    includes w [c, c] = false ↔ w.IsChain fun a b => a = c → b ≠ c := by
  induction w with
  | nil => exact ⟨fun _ => .nil, fun _ => rfl⟩
  | cons a w ih =>
    rw [includes_cons, or_eq_false_iff, ih]
    cases w with
    | nil => exact ⟨fun _ => .singleton a, fun _ => ⟨by simp [isPrefixOf], .nil⟩⟩
    | cons b w =>
      rw [isChain_cons_cons, and_congr_left_iff]
      intro _
      simp only [isPrefixOf, Bool.and_true, and_eq_false_iff, beq_eq_false_iff_ne]
      grind

lemma PlainWord.append {v w lineBreak : JsString} (hv : PlainWord v) (hw : PlainWord w)
    (hbreak : lineBreak = [10] ∨ lineBreak = [13, 10]) : PlainWord (v ++ lineBreak ++ w) := by
  have hpair : ∀ c : CodeUnit, c ≠ 10 → c ≠ 13 → includes v [c, c] = false →
      includes w [c, c] = false → includes (v ++ lineBreak ++ w) [c, c] = false := by
    intro c hlf hcr hv hw
    rw [includes_pair] at hv hw ⊢
    rcases hbreak with rfl | rfl
    · simp [isChain_append, isChain_cons, hv, hw, hlf.symm]
    · simp [isChain_append, isChain_cons, hv, hw, hlf.symm, hcr.symm]
  exact ⟨hpair 123 (by decide) (by decide) hv.1 hw.1, hpair 125 (by decide) (by decide) hv.2 hw.2⟩

/-- What `untilClose` finds stands before a `}}`, and is found whatever follows.

**Proof sketch.** Induction on the text. -/
lemma untilClose_spec {text inner : JsString} (h : untilClose text = some inner) :
    (∃ rest, text = inner ++ units "\x7d\x7d" ++ rest) ∧
      untilClose (inner ++ units "\x7d\x7d") = some inner := by
  induction text generalizing inner with
  | nil => cases h
  | cons c cs ih =>
    rw [untilClose] at h
    split_ifs at h with hclose hends
    · obtain rfl := Option.some.inj h
      simp only [and_eq_true, decide_eq_true_eq, head?_eq_some_iff] at hclose
      obtain ⟨rfl, rest, rfl⟩ := hclose
      exact ⟨⟨rest, rfl⟩, rfl⟩
    · obtain ⟨tail, htail, rfl⟩ := Option.map_eq_some_iff.1 h
      obtain ⟨⟨rest, rfl⟩, hword⟩ := ih htail
      refine ⟨⟨rest, rfl⟩, ?_⟩
      rw [cons_append, untilClose, hword, if_neg hends, if_neg, Option.map_some]
      cases tail with
      | nil => exact hclose
      | cons d ds => exact hclose

lemma placeholderAt_spec {text inner : JsString} (h : placeholderAt text = some inner) :
    (∃ rest, text = units "\x7b\x7b" ++ inner ++ units "\x7d\x7d" ++ rest) ∧
      untilClose (inner ++ units "\x7d\x7d") = some inner := by
  unfold placeholderAt at h
  split at h
  next hopen =>
    obtain ⟨⟨rest, hrest⟩, hword⟩ := untilClose_spec h
    refine ⟨⟨rest, ?_⟩, hword⟩
    rw [← take_append_drop 2 text, hopen, hrest]
    simp
  next => cases h

lemma length_placeholder (inner : JsString) :
    (units "\x7b\x7b" ++ inner ++ units "\x7d\x7d").length = inner.length + 4 := by
  rw [length_append, length_append, Nat.add_right_comm, Nat.add_comm]
  rfl

/-- The pieces of a line make up the line, and its placeholders have no earlier end.

**Proof sketch.** Induction on the fuel. -/
lemma segmentsFrom_spec (fuel : ℕ) (text rest : JsString) :
    (segmentsFrom fuel text rest).flatMap Segment.source = text ++ rest ∧
      ∀ inner, .placeholder inner ∈ segmentsFrom fuel text rest →
        untilClose (inner ++ units "\x7d\x7d") = some inner := by
  induction fuel generalizing text rest with
  | zero => simp [segmentsFrom, Segment.source]
  | succ fuel ih =>
    cases rest with
    | nil => simp [segmentsFrom, Segment.source]
    | cons c cs =>
      rw [segmentsFrom]
      cases hat : placeholderAt (c :: cs) with
      | none =>
        obtain ⟨hsource, hwords⟩ := ih (text ++ [c]) cs
        exact ⟨by simpa using hsource, hwords⟩
      | some found =>
        obtain ⟨⟨tail, htail⟩, hword⟩ := placeholderAt_spec hat
        have hdrop : (c :: cs).drop (found.length + 4) = tail := by
          rw [htail, ← length_placeholder, drop_left]
        obtain ⟨hsource, hwords⟩ := ih [] ((c :: cs).drop (found.length + 4))
        constructor
        · rw [flatMap_cons, flatMap_cons, hsource, hdrop, htail, nil_append]
          simp only [Segment.source, append_assoc]
        · intro inner hmem
          rcases mem_cons.1 hmem with hno | hmem
          · cases hno
          · rcases mem_cons.1 hmem with heq | hmem
            · obtain rfl := Segment.placeholder.inj heq
              exact hword
            · exact hwords inner hmem

/-! ## The placeholders of a line -/

def Declares (pf : SlotPlatform) (offset : ℕ) (ps : List (TextPart CodeUnit TemplateSlot))
    (slots : List TemplateSlot) : Prop :=
  Parts.holes offset ps = slots.map (fun slot => (slot, slot.offset)) ∧
    ∀ slot w, TextPart.hole slot w ∈ ps → PlaceholderWord pf slot w

lemma Declares.append {pf : SlotPlatform} {offset : ℕ} {ps qs : List (TextPart CodeUnit TemplateSlot)}
    {slots more : List TemplateSlot} (hps : Declares pf offset ps slots)
    (hqs : Declares pf (offset + (source ps).length) qs more) :
    Declares pf offset (ps ++ qs) (slots ++ more) := by
  refine ⟨?_, fun slot w hmem => ?_⟩
  · rw [holes_append, hps.1, hqs.1, map_append]
  · rcases mem_append.1 hmem with hmem | hmem
    · exact hps.2 slot w hmem
    · exact hqs.2 slot w hmem

/-- The lines kept and the directive that is open are the same. -/
structure SameLines (st st' : BodyState) : Prop where
  parts : st'.parts = st.parts
  bodyOffset : st'.bodyOffset = st.bodyOffset
  opened : st'.opened = st.opened

lemma SameLines.trans {st st' st'' : BodyState} (h : SameLines st st') (h' : SameLines st' st'') :
    SameLines st st'' :=
  ⟨h'.parts.trans h.parts, h'.bodyOffset.trans h.bodyOffset, h'.opened.trans h.opened⟩

variable {pf : TemplatePlatform} {st st' : BodyState}

lemma placeholderRead_spec {line offset : ℕ} {inner : JsString}
    (hst' : placeholderRead pf line offset inner st = st') (h : st'.errors = []) :
    st.errors = [] ∧ SameLines st st' ∧
      ∃ slot, st'.slots = st.slots ++ [slot] ∧ slot.offset = offset ∧
        ∃ headings, parseSlot pf.toSlotPlatform inner line headings =
          .ok slot.toSlotDeclaration := by
  unfold placeholderRead at hst'
  dsimp only at hst'
  split at hst'
  next errors hslot =>
    subst hst'
    exact absurd (append_eq_nil_iff.1 h).2 (parseSlot_error hslot)
  next slot hslot =>
    split at hst'
    next priorLine hprior =>
      subst hst'
      cases (append_eq_nil_iff.1 h).2
    next hfresh =>
      subst hst'
      exact ⟨(append_eq_nil_iff.1 h).1, ⟨rfl, rfl, rfl⟩, _, rfl, rfl, _, hslot⟩

/-- Placeholders with nothing wrong declare their slots, at their offsets.

**Proof sketch.** Induction on the pieces of the line. -/
lemma placeholdersRead_spec {pf : TemplatePlatform} {line offset : ℕ} {pieces : List Segment}
    {st st' : BodyState} (hst' : placeholdersRead pf line offset pieces st = st')
    (hwords : ∀ inner, .placeholder inner ∈ pieces →
      untilClose (inner ++ units "\x7d\x7d") = some inner) (h : st'.errors = []) :
    st.errors = [] ∧ SameLines st st' ∧
      ∃ ps new, st'.slots = st.slots ++ new ∧ Declares pf.toSlotPlatform offset ps new ∧
        source ps = pieces.flatMap Segment.source ∧ blanked ps = maskRanges pieces := by
  induction pieces generalizing offset st with
  | nil =>
    subst hst'
    exact ⟨h, ⟨rfl, rfl, rfl⟩, [], [], (append_nil _).symm,
      ⟨rfl, fun _ _ hmem => (nomatch hmem)⟩, rfl, rfl⟩
  | cons piece pieces ih =>
    have hrest := fun inner hmem => hwords inner (mem_cons_of_mem piece hmem)
    cases piece with
    | text w =>
      obtain ⟨herr, hsame, ps, new, hslots, hdecl, hsource, hblank⟩ := ih hst' hrest
      refine ⟨herr, hsame, .text w :: ps, new, hslots, ⟨hdecl.1, fun slot v hmem => ?_⟩,
        congrArg (w ++ ·) hsource, congrArg (w ++ ·) hblank⟩
      rcases mem_cons.1 hmem with hno | hmem
      · cases hno
      · exact hdecl.2 slot v hmem
    | placeholder inner =>
      obtain ⟨herr', hsame', ps, new, hslots', hdecl, hsource, hblank⟩ := ih hst' hrest
      obtain ⟨herr, hsame, slot, hslots, rfl, headings, hslot⟩ := placeholderRead_spec rfl herr'
      have hword := hwords inner mem_cons_self
      have hone : Declares pf.toSlotPlatform slot.offset
          [.hole slot (units "\x7b\x7b" ++ inner ++ units "\x7d\x7d")] [slot] := by
        refine ⟨rfl, fun slot' w hmem => ?_⟩
        obtain ⟨rfl, rfl⟩ := TextPart.hole.inj (mem_singleton.1 hmem)
        exact ⟨inner, line, headings, rfl, hword, hslot⟩
      refine ⟨herr, hsame.trans hsame', _ :: ps, slot :: new, ?_, hone.append ?_, ?_, ?_⟩
      · rw [hslots', hslots, append_assoc, singleton_append]
      · rw [source_cons, source_nil, append_nil, TextPart.source, length_placeholder]
        exact hdecl
      · exact congrArg (_ ++ ·) hsource
      · change replicate _ 32 ++ blanked ps = replicate _ 32 ++ maskRanges pieces
        rw [length_placeholder, hblank]

/-! ## The lines -/

/-- The lines of one guidance directive: its marker starts the first, and the first `-->` behind it
ends the last. -/
inductive IsDirective : List SourceLine → Prop
  | one {line : SourceLine} {remainder : JsString} {closing : ℕ}
      (hstart : directiveRemainder line.content = some remainder)
      (hclose : closesAt remainder = some closing)
      (hend : (trim (remainder.drop (closing + 3))).isEmpty) :
      IsDirective [line]
  | several {first last : SourceLine} {inside : List SourceLine} {remainder : JsString}
      {closing : ℕ}
      (hstart : directiveRemainder first.content = some remainder)
      (hopen : closesAt remainder = none)
      (hinside : ∀ line ∈ inside, closesAt line.content = none)
      (hclose : closesAt last.content = some closing)
      (hend : (trim (last.content.drop (closing + 3))).isEmpty) :
      IsDirective (first :: (inside ++ [last]))

/-- Lines, and those of them that are in no guidance directive. No line that is kept has the marker
of a directive. -/
inductive Strips : List SourceLine → List SourceLine → Prop
  | nil : Strips [] []
  | keep {line : SourceLine} {lines kept : List SourceLine}
      (hstart : directiveRemainder line.content = none)
      (hinline : inlineDirectivePattern.test line.content = false)
      (hrest : Strips lines kept) :
      Strips (line :: lines) (line :: kept)
  | strip {directive lines kept : List SourceLine}
      (hdirective : IsDirective directive)
      (hrest : Strips lines kept) :
      Strips (directive ++ lines) kept

variable {lines kept : List SourceLine}

lemma Strips.sublist (h : Strips lines kept) : kept.Sublist lines := by
  induction h with
  | nil => exact .slnil
  | keep _ _ _ ih => exact ih.cons_cons _
  | strip _ _ ih => exact ih.trans (sublist_append_right _ _)

/-- The same, where the first of the lines are in a directive that is open. -/
def StripsOpen (lines kept : List SourceLine) : Prop :=
  ∃ inside last rest closing, lines = inside ++ last :: rest ∧
    (∀ line ∈ inside, closesAt line.content = none) ∧ closesAt last.content = some closing ∧
    (trim (last.content.drop (closing + 3))).isEmpty ∧ Strips rest kept

lemma StripsOpen.strips {line : SourceLine} {remainder : JsString} (h : StripsOpen lines kept)
    (hstart : directiveRemainder line.content = some remainder) (hopen : closesAt remainder = none)
    : Strips (line :: lines) kept := by
  obtain ⟨inside, last, rest, closing, rfl, hinside, hclose, hend, hrest⟩ := h
  have hstrip := Strips.strip (.several hstart hopen hinside hclose hend) hrest
  simpa using hstrip

lemma StripsOpen.cons {line : SourceLine} (h : StripsOpen lines kept)
    (hline : closesAt line.content = none) :
    StripsOpen (line :: lines) kept := by
  obtain ⟨inside, last, rest, closing, rfl, hinside, hclose, hend, hrest⟩ := h
  exact ⟨line :: inside, last, rest, closing, rfl, forall_mem_cons.2 ⟨hline, hinside⟩, hclose,
    hend, hrest⟩

/-- What lines of the body add to the state of the parser: their texts, and the slots that these
declare. -/
structure Adds (pf : SlotPlatform) (st st' : BodyState) (raws : List JsString) : Prop where
  parts : st'.parts = st.parts ++ raws
  bodyOffset : st'.bodyOffset = st.bodyOffset + raws.flatten.length
  slots : ∃ ps new, st'.slots = st.slots ++ new ∧ Declares pf st.bodyOffset ps new ∧
    Parts.source ps = raws.flatten ∧ PlainWord (blanked ps)

lemma Adds.refl (pf : SlotPlatform) (st : BodyState) : Adds pf st st [] :=
  ⟨(append_nil _).symm, rfl, [], [], (append_nil _).symm,
    ⟨rfl, fun _ _ hmem => (nomatch hmem)⟩, rfl, rfl, rfl⟩

variable {raws : List JsString}

lemma Adds.skip {pf : SlotPlatform} {st st' st'' : BodyState} (h : Adds pf st' st'' raws)
    (hparts : st'.parts = st.parts) (hoffset : st'.bodyOffset = st.bodyOffset)
    (hslots : st'.slots = st.slots) :
    Adds pf st st'' raws :=
  ⟨hparts ▸ h.parts, hoffset ▸ h.bodyOffset, hoffset ▸ hslots ▸ h.slots⟩

variable {line : ℕ}

lemma plainWord_of_checkBraces {w : JsString} (h : checkBraces w line = []) :
    PlainWord w := by
  obtain ⟨hopens, hcloses⟩ := append_eq_nil_iff.1 h
  constructor
  · by_contra hne
    rw [if_pos (eq_true_of_not_eq_false hne)] at hopens
    cases hopens
  · by_contra hne
    rw [if_pos (eq_true_of_not_eq_false hne)] at hcloses
    cases hcloses

lemma bodyLineRead_spec {content raw : JsString} (hst' : bodyLineRead pf line content raw st = st')
    (h : st'.errors = []) :
    st.errors = [] ∧ inlineDirectivePattern.test content = false ∧ st'.opened = st.opened ∧
      st'.parts = st.parts ++ [raw] ∧ st'.bodyOffset = st.bodyOffset + raw.length ∧
      ∃ ps new, st'.slots = st.slots ++ new ∧ Declares pf.toSlotPlatform st.bodyOffset ps new ∧
        source ps = content ∧ PlainWord (blanked ps) := by
  unfold bodyLineRead at hst'
  dsimp only at hst'
  subst hst'
  obtain ⟨herr, hbraces⟩ := append_eq_nil_iff.1 h
  obtain ⟨hsource, hwords⟩ := segmentsFrom_spec content.length [] content
  obtain ⟨herr, hsame, ps, new, hslots, hdecl, hps, hblank⟩ := placeholdersRead_spec rfl hwords herr
  have hplain : PlainWord (blanked ps) := by
    rw [hblank]
    exact plainWord_of_checkBraces hbraces
  cases hinline : inlineDirectivePattern.test content with
  | true => simp [hinline] at herr
  | false =>
    simp only [hinline, false_eq_true, if_false] at herr hsame hslots hdecl ⊢
    exact ⟨herr, trivial, hsame.opened, hsame.parts, congrArg (· + raw.length) hsame.bodyOffset, ps, new,
      hslots, hdecl, hps.trans hsource, hplain⟩

lemma Adds.cons {pf : SlotPlatform} {st st' st'' : BodyState} {content lineBreak : JsString}
    {ps : List (TextPart CodeUnit TemplateSlot)} {new : List TemplateSlot}
    (h : Adds pf st' st'' raws) (hparts : st'.parts = st.parts ++ [content ++ lineBreak])
    (hoffset : st'.bodyOffset = st.bodyOffset + (content ++ lineBreak).length)
    (hslots : st'.slots = st.slots ++ new) (hdecl : Declares pf st.bodyOffset ps new)
    (hsource : source ps = content) (hplain : PlainWord (blanked ps))
    (hbreak : lineBreak = [10] ∨ lineBreak = [13, 10] ∨ lineBreak = [] ∧ raws = []) :
    Adds pf st st'' ((content ++ lineBreak) :: raws) := by
  obtain ⟨qs, more, hmore, hdecl', hsource', hplain'⟩ := h.slots
  refine ⟨by simp [h.parts, hparts], by simp [h.bodyOffset, hoffset, Nat.add_assoc],
    ps ++ .text lineBreak :: qs, new ++ more, by simp [hmore, hslots], hdecl.append ⟨?_, ?_⟩,
    by simp [hsource, hsource', TextPart.source], ?_⟩
  · rw [holes, hsource, Nat.add_assoc, ← length_append, ← hoffset]
    exact hdecl'.1
  · intro slot w hmem
    rcases mem_cons.1 hmem with hno | hmem
    · cases hno
    · exact hdecl'.2 slot w hmem
  · change PlainWord (blanked (ps ++ ([.text lineBreak] ++ qs)))
    rw [blanked_append, blanked_append, ← append_assoc]
    rcases hbreak with hlf | hcrlf | ⟨rfl, rfl⟩
    · exact hplain.append hplain' (.inl (by simp [blanked, hlf]))
    · exact hplain.append hplain' (.inr (by simp [blanked, hcrlf]))
    · have hnil : blanked qs = [] := by
        rw [← length_eq_zero_iff, length_blanked, hsource']
        rfl
      rw [hnil]
      simpa [blanked] using hplain

lemma queueGuidance_spec {raw : JsString} (hst' : queueGuidance raw line st = st') :
    SameLines st st' ∧ st'.slots = st.slots ∧ (st'.errors = [] → st.errors = []) := by
  subst hst'
  unfold queueGuidance
  dsimp only
  split
  next => exact ⟨⟨rfl, rfl, rfl⟩, rfl, fun h => by simp at h⟩
  next => exact ⟨⟨rfl, rfl, rfl⟩, rfl, fun h => (append_eq_nil_iff.1 h).1⟩

/-- What follows a directive on its line adds nothing to the body, and is blank unless it is
reported. -/
lemma checkClosing_spec {rest : JsString} (hst' : checkClosing rest line st = st') :
    SameLines st st' ∧ st'.slots = st.slots ∧
      (st'.errors = [] → st.errors = [] ∧ (trim rest).isEmpty) := by
  subst hst'
  unfold checkClosing
  split
  next hblank => exact ⟨⟨rfl, rfl, rfl⟩, rfl, fun h => ⟨h, hblank⟩⟩
  next => exact ⟨⟨rfl, rfl, rfl⟩, rfl, fun h => by simp at h⟩

/-- Lines, and those in no directive, where a directive may be open before them. -/
def StripsFrom (opened : Bool) (lines kept : List SourceLine) : Prop :=
  if opened then StripsOpen lines kept else Strips lines kept

/-- **What the loop over the lines keeps**, where it finds nothing wrong: the lines in no directive.

**Proof sketch.** Induction on the lines. Whether a directive is open decides how a line is read; a
line that opens one or lies in one adds nothing, and the others add what they declare. -/
theorem linesRead_spec {pf : TemplatePlatform} {rawBody : JsString} {bodyStartLine : ℕ}
    {lines : List SourceLine} {st st' : BodyState} (hread : ReadsLines rawBody lines)
    (hst' : lines.foldl (lineRead pf rawBody bodyStartLine) st = st') (h : st'.errors = [])
    (hopened : st'.opened = none) :
    st.errors = [] ∧ ∃ kept, StripsFrom st.opened.isSome lines kept ∧
      Adds pf.toSlotPlatform st st' (kept.map (SourceLine.raw rawBody)) := by
  induction lines generalizing st with
  | nil =>
    subst hst'
    have hclosed : st.opened = none := hopened
    exact ⟨h, [], by simp [StripsFrom, hclosed, Strips.nil], Adds.refl _ _⟩
  | cons line lines ih =>
    obtain ⟨⟨lineBreak, hraw, hbreak⟩, hread⟩ := hread
    obtain ⟨herr, kept, hstrips, hadds⟩ := ih hread hst'
    rw [lineRead] at herr hstrips hadds
    dsimp only at herr hstrips hadds
    cases hst : st.opened with
    | some directive =>
      obtain ⟨texts, openLine⟩ := directive
      simp only [hst] at herr hstrips hadds
      cases hclose : closesAt line.content with
      | none =>
        simp only [hclose] at herr hstrips hadds
        exact ⟨herr, kept, StripsOpen.cons hstrips hclose, hadds.skip rfl rfl rfl⟩
      | some closing =>
        simp only [hclose] at herr hstrips hadds
        obtain ⟨hsame, hslots, herr'⟩ := queueGuidance_spec rfl
        obtain ⟨hsame', hslots', hend⟩ := checkClosing_spec rfl
        obtain ⟨herr, hblank⟩ := hend (herr' herr)
        refine ⟨herr, kept, ⟨[], line, lines, closing, rfl, fun _ hmem => (nomatch hmem), hclose,
          hblank, hstrips⟩, hadds.skip (hsame'.trans hsame).parts (hsame'.trans hsame).bodyOffset
          (hslots.trans hslots')⟩
    | none =>
      simp only [hst] at herr hstrips hadds
      cases hstart : directiveRemainder line.content with
      | some remainder =>
        simp only [hstart] at herr hstrips hadds
        cases hclose : closesAt remainder with
        | none =>
          simp only [hclose] at herr hstrips hadds
          exact ⟨herr, kept, StripsOpen.strips hstrips hstart hclose, hadds.skip rfl rfl rfl⟩
        | some closing =>
          simp only [hclose] at herr hstrips hadds
          obtain ⟨hsame, hslots, herr'⟩ := queueGuidance_spec rfl
          obtain ⟨hsame', hslots', hend⟩ := checkClosing_spec rfl
          obtain ⟨herr, hblank⟩ := hend (herr' herr)
          have hclosed := (hsame'.trans hsame).opened
          rw [hclosed, hst] at hstrips
          exact ⟨herr, kept, Strips.strip (.one hstart hclose hblank) hstrips,
            hadds.skip (hsame'.trans hsame).parts (hsame'.trans hsame).bodyOffset
              (hslots.trans hslots')⟩
      | none =>
        simp only [hstart] at herr hstrips hadds
        obtain ⟨herr, hinline, hclosed, hparts, hoffset, ps, new, hslots, hdecl, hsource, hplain⟩ :=
          bodyLineRead_spec rfl herr
        rw [hclosed, hst] at hstrips
        refine ⟨herr, line :: kept, Strips.keep hstart hinline hstrips, ?_⟩
        rw [hraw] at hparts hoffset hslots hadds
        rw [map_cons, hraw]
        refine hadds.cons hparts hoffset hslots hdecl hsource hplain ?_
        rcases hbreak with hlf | hcrlf | ⟨hno, rfl⟩
        · exact .inl hlf
        · exact .inr (.inl hcrlf)
        · obtain rfl := sublist_nil.1 (Strips.sublist hstrips)
          exact .inr (.inr ⟨hno, rfl⟩)

/-! ## The whole template -/

/-- The lines of a frontmatter: two delimiters, and none between them. -/
def IsFrontmatter (lines : List SourceLine) : Prop :=
  ∃ first inside closing, lines = first :: (inside ++ [closing]) ∧
    isDelimiter (withoutBom first.content) ∧ (∀ line ∈ inside, isDelimiter line.content = false) ∧
    isDelimiter closing.content

lemma endOf_append (n : ℕ) (lines more : List SourceLine) :
    endOf n (lines ++ more) = endOf (endOf n lines) more := by
  induction lines generalizing n with
  | nil => rfl
  | cons line lines ih => exact ih line.stop

lemma Contiguous.left {n : ℕ} {lines more : List SourceLine} (h : Contiguous n (lines ++ more)) :
    Contiguous n lines := by
  induction lines generalizing n with
  | nil => trivial
  | cons line lines ih => exact ⟨h.1, h.2.1, ih h.2.2⟩

variable {text : JsString}

/-- **What is cut off before the body**: nothing, or the lines of the frontmatter. -/
theorem parseFrontmatter_spec {fm : ParsedFrontmatter} (h : parseFrontmatter pf text = .ok fm)
    (hno : noLoneCr text) :
    ∃ front rest, sourceLines text = front ++ rest ∧ (front = [] ∨ IsFrontmatter front) ∧
      (front.map (SourceLine.raw text)).flatten ++ fm.body = text := by
  obtain ⟨hcont, -⟩ := @contiguous_sourceLinesFrom [] text 0 0 false hno
  change Contiguous 0 (sourceLines text) at hcont
  unfold parseFrontmatter at h
  split at h
  next hlines =>
    obtain rfl := Except.ok.inj h
    exact ⟨[], _, rfl, .inl rfl, rfl⟩
  next first lines hlines =>
    split at h
    next =>
      obtain rfl := Except.ok.inj h
      exact ⟨[], _, rfl, .inl rfl, rfl⟩
    next hfirst =>
      split at h
      next => cases h
      next closing hclosing =>
        split at h
        next => cases h
        next metadata _ =>
          obtain rfl := Except.ok.inj h
          obtain ⟨hdelim, inside, rest, rfl, hinside⟩ := find?_eq_some_iff_append.1 hclosing
          have hfront : sourceLines text = (first :: (inside ++ [closing])) ++ rest := by
            simpa using hlines
          rw [hfront] at hcont
          refine ⟨_, rest, hfront, .inr ⟨first, inside, closing, rfl, by simpa using hfirst,
            fun line hmem => by simpa using hinside line hmem, hdelim⟩, ?_⟩
          rw [flatten_raw hcont.left, endOf, endOf_append, endOf, endOf]
          exact take_append_drop closing.stop text

lemma checkEnd_opened {st : BodyState} {bodyStartLine : ℕ} (h : checkEnd st bodyStartLine = []) :
    st.opened = none := by
  unfold checkEnd at h
  cases hst : st.opened with
  | none => rfl
  | some directive => simp [hst] at h

/-- **The body of an accepted template**: the lines in no directive. It is plain text and the
placeholders of the slots. -/
theorem parseTemplate_spec {manifest : TemplateManifest} (h : parseTemplate pf text = .ok manifest)
    :
    ∃ fm kept ps, parseFrontmatter pf text = .ok fm ∧ Strips (sourceLines fm.body) kept ∧
      manifest.body = (kept.map (SourceLine.raw fm.body)).flatten ∧
      source ps = manifest.body ∧ Declares pf.toSlotPlatform 0 ps manifest.slots ∧
      PlainWord (blanked ps) := by
  unfold parseTemplate at h
  split at h
  next => cases h
  next fm hfm =>
    dsimp only at h
    split at h
    next hnone =>
      obtain rfl := Except.ok.inj h
      obtain ⟨herrors, hend⟩ := append_eq_nil_iff.1 (List.isEmpty_iff.1 hnone)
      have hopened := checkEnd_opened hend
      obtain ⟨-, kept, hstrips, hparts, -, ps, new, hslots, hdecl, hsource, hplain⟩ :=
        linesRead_spec (readsLines_sourceLines fm.body) rfl herrors hopened
      rw [nil_append] at hslots hparts
      refine ⟨fm, kept, ps, hfm, hstrips, ?_, ?_, ?_, hplain⟩
      · rw [hparts]
      · rw [hparts, hsource]
      · rw [hslots]
        exact hdecl
    next => cases h

end Yantra
