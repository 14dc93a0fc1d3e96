import Yantra.Interaction.Resolution
import Yantra.Widgets.RenderedDates

/-!
# Verifying a committed date

A filled date is verified by comparing what the control shows with the date that was asked for:
with the dates that `parseRenderedDates` reads, and where these do not agree with what the date
looks like in eighteen locales. How a locale renders a date is a parameter.

## Main definitions

* `RendersDate` — a stretch of the text, or of its normalized form, that is taken for a date.
* `DateVerified`, `RangeVerified` — what a verified date should rest on.

## Main results

* `matchesIntent_sound` — when it is what it should.
-/

namespace Yantra

open Regex CodePoints List Option Bool

/-- `TEXTUAL_DATE_LOCALES` -/
inductive DateLocale where
  | enUS | enGB | frFR | deDE | esES | itIT | ptBR | nlNL | plPL | svSE | daDK | nbNO | fiFI | csCZ
  | trTR | jaJP | koKR | zhCN
  deriving DecidableEq

def TEXTUAL_DATE_LOCALES : List DateLocale :=
  [.enUS, .enGB, .frFR, .deDE, .esES, .itIT, .ptBR, .nlNL, .plPL, .svSE, .daDK, .nbNO, .fiFI,
    .csCZ, .trTR, .jaJP, .koKR, .zhCN]

inductive MonthStyle where
  | long | short
  deriving DecidableEq

/-- A platform with the renderings of dates. -/
structure DatePlatform extends TextPlatform where
  /-- `[\p{P}\p{S}]` -/
  isPunctuationOrSymbol : CodePoint → Bool
  /-- `Intl.DateTimeFormat(locale, { day, month, year }).format`, with the year or without. -/
  format : DateLocale → MonthStyle → Bool → ParsedDatePart → PageText

/-- `WidgetIntent`, as far as its kind can be verified here. -/
inductive WidgetIntent where
  | option (value : PageText)
  | date (date : PageText)
  | dateRange (start stop : PageText)

def normalizeDateText (pf : DatePlatform) (value : PageText) : PageText :=
  squeezed pf.toTextPlatform pf.isPunctuationOrSymbol (pf.toLocaleLowerCase value)

/-- `/\b\d{4}\b/` -/
def yearPattern : Regex CodePoint :=
  .seqs [.boundary isWord, digitRun 4, .boundary isWord]

def rendersYear (committed : PageText) : Bool := test yearPattern committed

/-- `variants` -/
def dateVariants (pf : DatePlatform) (rendersYear : Bool) (part : ParsedDatePart) :
    List PageText :=
  (TEXTUAL_DATE_LOCALES.flatMap fun locale =>
    [MonthStyle.long, MonthStyle.short].flatMap fun month =>
      (if rendersYear then [true] else [true, false]).map fun includeYear =>
        normalizeDateText pf (pf.format locale month includeYear part)).eraseDups

/-- `text.indexOf(needle, start)` -/
def textIndexOf (text needle : PageText) (start : ℕ) : Option ℕ :=
  (List.range' (min start text.length) (text.length + 1 - min start text.length)).find? fun i =>
    needle.isPrefixOf (text.drop i)

def firstFound (normalized : PageText) (variants : List PageText) (cursor : ℕ) : Option ℕ :=
  ((variants.filterMap fun variant => textIndexOf normalized variant cursor).filter
    fun index => cursor ≤ index).min?

/-- The loop of `matchesIntlRenderedDates`. -/
def matchesIntlFrom (pf : DatePlatform) (committed : PageText) : ℕ → List ParsedDatePart → Bool
  | _, [] => true
  | cursor, part :: expected =>
    match firstFound (normalizeDateText pf committed)
        (dateVariants pf (rendersYear committed) part) cursor with
    | none => false
    | some found => matchesIntlFrom pf committed (found + 1) expected

def matchesIntlRenderedDates (pf : DatePlatform) (committed : PageText)
    (expected : List ParsedDatePart) : Bool :=
  matchesIntlFrom pf committed 0 expected

/-- Whether a rendered date is the wanted one, as far as it shows a year. -/
def agreesWith (wanted part : ParsedDatePart) : Bool :=
  part.month = wanted.month && part.day = wanted.day &&
    (part.year = none || part.year = wanted.year)

/-- The loop of `matchesIntent` over the dates that are read. -/
def matchesParsedFrom (actual : List RenderedDate) : ℕ → List ParsedDatePart → Bool
  | _, [] => true
  | cursor, wanted :: expected =>
    match (actual.drop cursor).findIdx? fun entry => agreesWith wanted entry.part with
    | none => false
    | some index => matchesParsedFrom actual (cursor + index + 1) expected

/-- `matchesIntent` for dates. -/
def matchesDates (pf : DatePlatform) (committed : PageText)
    (expected : List (Option ParsedDatePart)) : Bool :=
  if expected.any Option.isNone then false
  else
    matchesParsedFrom (parseRenderedDates committed) 0 (expected.filterMap id) ||
      matchesIntlRenderedDates pf committed (expected.filterMap id)

def matchesIntent (pf : DatePlatform) (committed : PageText) : WidgetIntent → Bool
  | .option value =>
    let actual := normalizeText pf.toTextPlatform committed
    let wanted := normalizeText pf.toTextPlatform value
    !actual.isEmpty && !wanted.isEmpty && (wanted <:+: actual || actual <:+: wanted)
  | .date date => matchesDates pf committed [parseIso date]
  | .dateRange start stop => matchesDates pf committed [parseIso start, parseIso stop]

/-! ## What a verified date should rest on -/

/-- Where a date is rendered: in the committed text, or in its normalized form. -/
inductive DateSource where
  | committed | normalized
  deriving DecidableEq

def sourceText (pf : DatePlatform) (committed : PageText) : DateSource → PageText
  | .committed => committed
  | .normalized => normalizeDateText pf committed

/-- A stretch that is taken for a rendering of a date: one of the accepted forms that means its
month and day and shows no other year, or what a locale makes of it. -/
inductive RendersDate (pf : DatePlatform) (committed : PageText) (date : ParsedDatePart) :
    DateSource → ℕ → ℕ → Prop
  | read {start stop : ℕ} {part : ParsedDatePart} (h : ReadsAs committed start stop part)
      (hagrees : agreesWith date part = true) :
      RendersDate pf committed date .committed start stop
  | rendered {start : ℕ} {variant : PageText}
      (hvariant : variant ∈ dateVariants pf (rendersYear committed) date)
      (hstart : start ≤ (normalizeDateText pf committed).length)
      (h : variant <+: (normalizeDateText pf committed).drop start) :
      RendersDate pf committed date .normalized start (start + variant.length)

def goesOnOver (text : PageText) (place : ℕ) : Bool :=
  0 < place && (text[place - 1]?).any isDigit && (text[place]?).any isDigit

/-- A stretch is not part of a longer number. -/
def Delimited (text : PageText) (start stop : ℕ) : Prop :=
  goesOnOver text start = false ∧ goesOnOver text stop = false

instance (text : PageText) (start stop : ℕ) : Decidable (Delimited text start stop) :=
  inferInstanceAs (Decidable (_ ∧ _))

def DateVerified (pf : DatePlatform) (committed : PageText) (date : ParsedDatePart) : Prop :=
  ∃ source start stop, RendersDate pf committed date source start stop ∧
    Delimited (sourceText pf committed source) start stop

/-- The text has a rendering of the date as part of a longer number. -/
def DateGlued (pf : DatePlatform) (committed : PageText) (date : ParsedDatePart) : Prop :=
  ∃ source start stop, RendersDate pf committed date source start stop ∧
    ¬ Delimited (sourceText pf committed source) start stop

/-- The text has a delimited rendering of each end of a range, one behind the other. -/
def RangeVerified (pf : DatePlatform) (committed : PageText) (first last : ParsedDatePart) :
    Prop :=
  ∃ source start stop start' stop', RendersDate pf committed first source start stop ∧
    RendersDate pf committed last source start' stop' ∧
    Delimited (sourceText pf committed source) start stop ∧
    Delimited (sourceText pf committed source) start' stop' ∧ stop ≤ start'

/-- One stretch starts before another, or they are the two readings of two numbers. -/
def StartsBefore (committed : PageText) (first last : ParsedDatePart) (source : DateSource)
    (start start' : ℕ) : Prop :=
  start < start' ∨ source = .committed ∧ start = start' ∧ ∃ left right,
    ReadsBothWays committed start left right ∧ agreesWith first left = true ∧
      agreesWith last right = true

/-- The text has renderings of both ends of a range that overlap, or are part of longer numbers. -/
def RangeConfused (pf : DatePlatform) (committed : PageText) (first last : ParsedDatePart) :
    Prop :=
  ∃ source start stop start' stop', RendersDate pf committed first source start stop ∧
    RendersDate pf committed last source start' stop' ∧
    StartsBefore committed first last source start start' ∧
    ¬ (Delimited (sourceText pf committed source) start stop ∧
      Delimited (sourceText pf committed source) start' stop' ∧ stop ≤ start')

/-! ## The dates that are read -/

lemma findIdx?_split {p : RenderedDate → Bool} {l : List RenderedDate} {index : ℕ}
    (h : l.findIdx? p = some index) :
    ∃ before entry behind, l = before ++ entry :: behind ∧ l.drop (index + 1) = behind ∧
      p entry ∧ ∀ x ∈ before, p x = false := by
  obtain ⟨hlt, hfound, hbefore⟩ := findIdx?_eq_some_iff_getElem.1 h
  refine ⟨l.take index, l[index], l.drop (index + 1), ?_, rfl, hfound, fun x hx => ?_⟩
  · rw [← drop_eq_getElem_cons hlt, take_append_drop]
  · obtain ⟨j, hj, rfl⟩ := mem_take_iff_getElem.1 hx
    simpa using hbefore j (by omega)

lemma matchesParsedFrom_one {actual : List RenderedDate} {cursor : ℕ} {wanted : ParsedDatePart} :
    matchesParsedFrom actual cursor [wanted] ↔
      ∃ entry ∈ actual.drop cursor, agreesWith wanted entry.part := by
  rw [matchesParsedFrom]
  split
  next hnone =>
    rw [findIdx?_eq_none_iff] at hnone
    refine iff_of_false (by simp) ?_
    rintro ⟨entry, hmem, hagrees⟩
    rw [hnone entry hmem] at hagrees
    cases hagrees
  next index hsome =>
    obtain ⟨before, entry, behind, hsplit, -, hagrees, -⟩ := findIdx?_split hsome
    exact iff_of_true rfl ⟨entry, by simp [hsplit], hagrees⟩

lemma matchesParsedFrom_two {actual : List RenderedDate} {first last : ParsedDatePart} :
    matchesParsedFrom actual 0 [first, last] ↔
      ∃ x y, [x, y].Sublist actual ∧ agreesWith first x.part ∧
        agreesWith last y.part := by
  rw [matchesParsedFrom, drop_zero]
  split
  next hnone =>
    rw [findIdx?_eq_none_iff] at hnone
    refine iff_of_false (by simp) ?_
    rintro ⟨x, y, hsub, hagrees, -⟩
    rw [hnone x (hsub.subset mem_cons_self)] at hagrees
    cases hagrees
  next index hsome =>
    obtain ⟨before, entry, behind, hsplit, hbehind, hagrees, hno⟩ := findIdx?_split hsome
    rw [matchesParsedFrom_one, Nat.zero_add, hbehind]
    constructor
    · rintro ⟨y, hy, hagrees'⟩
      refine ⟨entry, y, ?_, hagrees, hagrees'⟩
      rw [hsplit]
      exact ((singleton_sublist.2 hy).cons_cons entry).trans (sublist_append_right _ _)
    · rintro ⟨x, y, hsub, hfirst, hlast⟩
      refine ⟨y, ?_, hlast⟩
      rw [hsplit] at hsub
      -- None of the dates before the one that is found agrees with the first.
      have hrest : [x, y].Sublist (entry :: behind) := by
        clear hsplit
        induction before with
        | nil => exact hsub
        | cons z before ih =>
          obtain ⟨hz, hbefore⟩ := forall_mem_cons.1 hno
          cases hsub with
          | cons _ hsub => exact ih hbefore hsub
          | cons_cons _ _ =>
            rw [hfirst] at hz
            cases hz
      cases hrest with
      | cons _ hsub => exact hsub.subset (by simp)
      | cons_cons _ hsub => exact singleton_sublist.1 hsub

/-! ## The renderings of the locales -/

lemma textIndexOf_eq_some {text needle : PageText} {start index : ℕ}
    (h : textIndexOf text needle start = some index) :
    index ≤ text.length ∧ needle <+: text.drop index := by
  have hmem := mem_range'_1.1 (mem_of_find?_eq_some h)
  have hpre := find?_some h
  exact ⟨by omega, isPrefixOf_iff_prefix.1 hpre⟩

lemma exists_textIndexOf {text needle : PageText} {start index : ℕ} (hstart : start ≤ index)
    (hlen : index ≤ text.length) (h : needle <+: text.drop index) :
    ∃ found, textIndexOf text needle start = some found ∧ start ≤ found ∧ found ≤ index := by
  rw [textIndexOf, Nat.min_eq_left (by omega)]
  have hmem : index ∈ range' start (text.length + 1 - start) :=
    mem_range'_1.2 ⟨hstart, by omega⟩
  cases hfind : (range' start (text.length + 1 - start)).find?
      fun i => needle.isPrefixOf (text.drop i) with
  | none =>
    have hno := find?_eq_none.1 hfind index hmem
    exact absurd ( isPrefixOf_iff_prefix.2 h) hno
  | some found =>
    obtain ⟨-, before, behind, hsplit, hno⟩ := find?_eq_some_iff_append.1 hfind
    have hfound := mem_range'_1.1 (mem_of_find?_eq_some hfind)
    refine ⟨found, rfl, hfound.1, ?_⟩
    by_contra hlt
    have hsorted : (range' start (text.length + 1 - start)).Pairwise (· < ·) :=
      pairwise_lt_range'
    rw [hsplit] at hmem hsorted
    rcases mem_append.1 hmem with hmem | hmem
    · have hmatch := hno index hmem
      rw [ isPrefixOf_iff_prefix.2 h] at hmatch
      cases hmatch
    · rcases mem_cons.1 hmem with rfl | hmem
      · exact hlt (Nat.le_refl _)
      · have := rel_of_pairwise_cons (pairwise_append.1 hsorted).2.1 hmem
        omega

lemma firstFound_spec {normalized : PageText} {variants : List PageText} {cursor : ℕ} :
    (∀ found, firstFound normalized variants cursor = some found →
      cursor ≤ found ∧ found ≤ normalized.length ∧
        ∃ variant ∈ variants, variant <+: normalized.drop found) ∧
    ∀ index ≤ normalized.length, cursor ≤ index →
      (∃ variant ∈ variants, variant <+: normalized.drop index) →
        ∃ found ≤ index, firstFound normalized variants cursor = some found := by
  constructor
  · intro found hfound
    obtain ⟨hmem, -⟩ := min?_eq_some_iff.1 hfound
    obtain ⟨hmem, hcursor⟩ := mem_filter.1 hmem
    obtain ⟨variant, hvariant, hindex⟩ := mem_filterMap.1 hmem
    obtain ⟨hlen, hpre⟩ := textIndexOf_eq_some hindex
    exact ⟨by simpa using hcursor, hlen, variant, hvariant, hpre⟩
  · rintro index hlen hcursor ⟨variant, hvariant, hpre⟩
    obtain ⟨place, hplace, hle, hbefore⟩ := exists_textIndexOf hcursor hlen hpre
    have hmem : place ∈ (variants.filterMap fun variant =>
        textIndexOf normalized variant cursor).filter fun index => cursor ≤ index :=
      mem_filter.2 ⟨mem_filterMap.2 ⟨variant, hvariant, hplace⟩, by simpa using hle⟩
    cases hmin : firstFound normalized variants cursor with
    | none =>
      rw [firstFound, min?_eq_none_iff] at hmin
      rw [hmin] at hmem
      cases hmem
    | some found =>
      exact ⟨found, ((min?_eq_some_iff.1 hmin).2 place hmem).trans hbefore, rfl⟩

section

variable {pf : DatePlatform} {committed : PageText}

lemma exists_variant_iff {date : ParsedDatePart} {start : ℕ} :
    (start ≤ (normalizeDateText pf committed).length ∧
      ∃ variant ∈ dateVariants pf (rendersYear committed) date,
        variant <+: (normalizeDateText pf committed).drop start) ↔
      ∃ stop, RendersDate pf committed date .normalized start stop := by
  constructor
  · rintro ⟨hstart, variant, hvariant, hpre⟩
    exact ⟨_, .rendered hvariant hstart hpre⟩
  · rintro ⟨stop, h⟩
    cases h with
    | rendered hvariant hstart hpre => exact ⟨hstart, _, hvariant, hpre⟩

lemma matchesIntlFrom_one {date : ParsedDatePart} {cursor : ℕ} :
    matchesIntlFrom pf committed cursor [date] ↔
      ∃ start stop, cursor ≤ start ∧ RendersDate pf committed date .normalized start stop := by
  obtain ⟨hsound, hcomplete⟩ := @firstFound_spec (normalizeDateText pf committed)
    (dateVariants pf (rendersYear committed) date) cursor
  rw [matchesIntlFrom]
  split
  next hnone =>
    refine iff_of_false (by simp) ?_
    rintro ⟨start, stop, hcursor, h⟩
    obtain ⟨hstart, hvariant⟩ := exists_variant_iff.2 ⟨stop, h⟩
    obtain ⟨found, -, hfound⟩ := hcomplete start hstart hcursor hvariant
    rw [hfound] at hnone
    cases hnone
  next found hfound =>
    obtain ⟨hcursor, hlen, hvariant⟩ := hsound found hfound
    obtain ⟨stop, h⟩ := exists_variant_iff.1 ⟨hlen, hvariant⟩
    exact iff_of_true rfl ⟨found, stop, hcursor, h⟩

lemma matchesIntlFrom_two {first last : ParsedDatePart} :
    matchesIntlFrom pf committed 0 [first, last] ↔
      ∃ start stop start' stop', RendersDate pf committed first .normalized start stop ∧
        RendersDate pf committed last .normalized start' stop' ∧ start < start' := by
  obtain ⟨hsound, hcomplete⟩ := @firstFound_spec (normalizeDateText pf committed)
    (dateVariants pf (rendersYear committed) first) 0
  rw [matchesIntlFrom]
  split
  next hnone =>
    refine iff_of_false (by simp) ?_
    rintro ⟨start, stop, start', stop', h, -⟩
    obtain ⟨hstart, hvariant⟩ := exists_variant_iff.2 ⟨stop, h⟩
    obtain ⟨found, -, hfound⟩ := hcomplete start hstart (Nat.zero_le _) hvariant
    rw [hfound] at hnone
    cases hnone
  next found hfound =>
    rw [matchesIntlFrom_one]
    constructor
    · rintro ⟨start', stop', hlt, h'⟩
      obtain ⟨-, hlen, hvariant⟩ := hsound found hfound
      obtain ⟨stop, h⟩ := exists_variant_iff.1 ⟨hlen, hvariant⟩
      exact ⟨found, stop, start', stop', h, h', hlt⟩
    · rintro ⟨start, stop, start', stop', h, h', hlt⟩
      -- The first place of the start of the range is no later than any other.
      obtain ⟨hstart, hvariant⟩ := exists_variant_iff.2 ⟨stop, h⟩
      obtain ⟨found', hle, hfound'⟩ := hcomplete start hstart (Nat.zero_le _) hvariant
      obtain rfl := some.inj (hfound.symm.trans hfound')
      exact ⟨start', stop', by omega, h'⟩

lemma matchesParsed_one {date : ParsedDatePart} :
    matchesParsedFrom (parseRenderedDates committed) 0 [date] ↔
      ∃ start stop, RendersDate pf committed date .committed start stop := by
  rw [matchesParsedFrom_one, drop_zero]
  constructor
  · rintro ⟨entry, hentry, hagrees⟩
    obtain ⟨stop, h⟩ := mem_parseRenderedDates_iff.1 hentry
    exact ⟨entry.index, stop, .read h hagrees⟩
  · rintro ⟨start, stop, h⟩
    cases h with
    | @read _ _ part h hagrees =>
      exact ⟨⟨start, part⟩, mem_parseRenderedDates_iff.2 ⟨stop, h⟩, hagrees⟩

lemma readsAs_numeric {part part' : ParsedDatePart} {start : ℕ}
    (h : ReadsBothWays committed start part part') :
    (∃ stop, ReadsAs committed start stop part) ∧ ∃ stop, ReadsAs committed start stop part' := by
  obtain ⟨m, hm, rfl, hreadings, hdate, hdate', -⟩ := h
  exact ⟨⟨m.stop, .numeric hm (by simp [hreadings]) hdate⟩,
    ⟨m.stop, .numeric hm (by simp [hreadings]) hdate'⟩⟩

lemma matchesParsed_two {first last : ParsedDatePart} :
    matchesParsedFrom (parseRenderedDates committed) 0 [first, last] ↔
      ∃ start stop start' stop', RendersDate pf committed first .committed start stop ∧
        RendersDate pf committed last .committed start' stop' ∧
        StartsBefore committed first last .committed start start' := by
  rw [matchesParsedFrom_two]
  constructor
  · rintro ⟨x, y, hsub, hfirst, hlast⟩
    have hx := hsub.subset mem_cons_self
    have hy := hsub.subset (mem_cons_of_mem x mem_cons_self)
    obtain ⟨stop, h⟩ := mem_parseRenderedDates_iff.1 hx
    obtain ⟨stop', h'⟩ := mem_parseRenderedDates_iff.1 hy
    refine ⟨_, stop, _, stop', .read h hfirst, .read h' hlast, ?_⟩
    rcases (sublist_parseRenderedDates_iff hx hy).1 hsub with hlt | ⟨heq, hways⟩
    · exact .inl hlt
    · exact .inr ⟨rfl, heq, x.part, y.part, hways, hfirst, hlast⟩
  · rintro ⟨start, stop, start', stop', h, h', hlt | ⟨-, rfl, left, right, hways, hfirst, hlast⟩⟩
    · cases h with
      | @read _ _ part h hfirst =>
        cases h' with
        | @read _ _ part' h' hlast =>
          have hx : (⟨start, part⟩ : RenderedDate) ∈ parseRenderedDates committed :=
            mem_parseRenderedDates_iff.2 ⟨stop, h⟩
          have hy : (⟨start', part'⟩ : RenderedDate) ∈ parseRenderedDates committed :=
            mem_parseRenderedDates_iff.2 ⟨stop', h'⟩
          exact ⟨_, _, (sublist_parseRenderedDates_iff hx hy).2 (.inl hlt), hfirst, hlast⟩
    · obtain ⟨hleft, hright⟩ := readsAs_numeric hways
      have hx : (⟨start, left⟩ : RenderedDate) ∈ parseRenderedDates committed :=
        mem_parseRenderedDates_iff.2 hleft
      have hy : (⟨start, right⟩ : RenderedDate) ∈ parseRenderedDates committed :=
        mem_parseRenderedDates_iff.2 hright
      exact ⟨_, _, (sublist_parseRenderedDates_iff hx hy).2 (.inr ⟨rfl, hways⟩), hfirst, hlast⟩

/-! ## What a verified date rests on -/

/-- **What a verified date rests on**: a stretch that is taken for it. -/
theorem matchesIntent_date_iff {date : PageText} :
    matchesIntent pf committed (.date date) ↔ ∃ wanted, parseIso date = some wanted ∧
      ∃ source start stop, RendersDate pf committed wanted source start stop := by
  cases hdate : parseIso date with
  | none => simp [matchesIntent, matchesDates, hdate]
  | some wanted =>
    have hmatches : matchesIntent pf committed (.date date) =
        (matchesParsedFrom (parseRenderedDates committed) 0 [wanted] ||
          matchesIntlFrom pf committed 0 [wanted]) := by
      simp [matchesIntent, matchesDates, matchesIntlRenderedDates, hdate]
    rw [hmatches, or_eq_true, @matchesParsed_one pf, matchesIntlFrom_one]
    constructor
    · rintro (⟨start, stop, h⟩ | ⟨start, stop, -, h⟩)
      · exact ⟨wanted, rfl, _, start, stop, h⟩
      · exact ⟨wanted, rfl, _, start, stop, h⟩
    · rintro ⟨_, hwanted, source, start, stop, h⟩
      obtain rfl := some.inj hwanted
      cases source with
      | committed => exact .inl ⟨start, stop, h⟩
      | normalized => exact .inr ⟨start, stop, Nat.zero_le _, h⟩

/-- **What a verified range rests on**: two stretches that are taken for its ends, of which one
starts before the other, or two numbers that mean both. -/
theorem matchesIntent_dateRange_iff {start stop : PageText} :
    matchesIntent pf committed (.dateRange start stop) ↔
      ∃ first last, parseIso start = some first ∧ parseIso stop = some last ∧
        ∃ source i j i' j', RendersDate pf committed first source i j ∧
          RendersDate pf committed last source i' j' ∧
          StartsBefore committed first last source i i' := by
  cases hstart : parseIso start with
  | none => simp [matchesIntent, matchesDates, hstart]
  | some first =>
    cases hstop : parseIso stop with
    | none => simp [matchesIntent, matchesDates, hstop]
    | some last =>
      have hmatches : matchesIntent pf committed (.dateRange start stop) =
          (matchesParsedFrom (parseRenderedDates committed) 0 [first, last] ||
            matchesIntlFrom pf committed 0 [first, last]) := by
        simp [matchesIntent, matchesDates, matchesIntlRenderedDates, hstart, hstop]
      rw [hmatches, or_eq_true, @matchesParsed_two pf, matchesIntlFrom_two]
      constructor
      · rintro (⟨i, j, i', j', h, h', hbefore⟩ | ⟨i, j, i', j', h, h', hlt⟩)
        · exact ⟨first, last, rfl, rfl, _, i, j, i', j', h, h', hbefore⟩
        · exact ⟨first, last, rfl, rfl, _, i, j, i', j', h, h', .inl hlt⟩
      · rintro ⟨_, _, hfirst, hlast, source, i, j, i', j', h, h', hbefore⟩
        obtain rfl := some.inj hfirst
        obtain rfl := some.inj hlast
        cases source with
        | committed => exact .inl ⟨i, j, i', j', h, h', hbefore⟩
        | normalized =>
          refine .inr ⟨i, j, i', j', h, h', ?_⟩
          rcases hbefore with hlt | ⟨hno, -⟩
          · exact hlt
          · cases hno

end

/-! ## Examples -/

def stretches (text : PageText) : List (ℕ × ℕ × ParsedDatePart) :=
  ((matchAll isoPattern text).flatMap fun m =>
      (isoDates m).map fun entry => (m.index, m.stop, entry.part)) ++
    ((matchAll namedPattern text).flatMap fun m =>
      (namedDates m).map fun entry => (m.index, m.stop, entry.part)) ++
    (matchAll numericPattern text).flatMap fun m =>
      (numericDates m).map fun entry => (m.index, m.stop, entry.part)

def renderings (pf : DatePlatform) (committed : PageText) (date : ParsedDatePart) :
    List (DateSource × ℕ × ℕ) :=
  ((stretches committed).filter fun r => agreesWith date r.2.2).map
      (fun r => (.committed, r.1, r.2.1)) ++
    (dateVariants pf (rendersYear committed) date).flatMap fun variant =>
      ((List.range ((normalizeDateText pf committed).length + 1)).filter fun i =>
        variant.isPrefixOf ((normalizeDateText pf committed).drop i)).map
        fun i => (.normalized, i, i + variant.length)

lemma mem_renderings {pf : DatePlatform} {committed : PageText} {date : ParsedDatePart}
    {source : DateSource} {start stop : ℕ} (h : RendersDate pf committed date source start stop) :
    (source, start, stop) ∈ renderings pf committed date := by
  cases h with
  | @rendered _ variant hvariant hstart hpre =>
    refine mem_append_right _ (mem_flatMap.2 ⟨variant, hvariant,
      List.mem_map.2 ⟨start, mem_filter.2 ⟨?_, ?_⟩, rfl⟩⟩)
    · exact mem_range.2 (Nat.lt_succ_of_le hstart)
    · exact isPrefixOf_iff_prefix.2 hpre
  | @read _ _ part hreads hagrees =>
    refine mem_append_left _ (List.mem_map.2 ⟨(start, stop, part),
      mem_filter.2 ⟨?_, hagrees⟩, rfl⟩)
    cases hreads with
    | @iso m _ hm hpart =>
      refine mem_append_left _ (mem_append_left _ (mem_flatMap.2
        ⟨m, mem_matchAll_of_matchAt (keepsApart_iso committed) hm, List.mem_map.2
          ⟨⟨m.index, part⟩, List.mem_map.2 ⟨part, mem_toList.2 hpart, rfl⟩, rfl⟩⟩))
    | @named m _ hm hpart =>
      exact mem_append_left _ (mem_append_right _ (mem_flatMap.2
        ⟨m, mem_matchAll_of_matchAt (keepsApart_named committed) hm,
          List.mem_map.2 ⟨_, hpart, rfl⟩⟩))
    | @numeric m _ hm hpart hdate =>
      exact mem_append_right _ (mem_flatMap.2
        ⟨m, mem_matchAll_of_matchAt (keepsApart_numeric committed) hm, List.mem_map.2
          ⟨⟨m.index, part⟩, ((numericDates_spec m).1 _).2 ⟨rfl, hpart, hdate⟩, rfl⟩⟩)

lemma not_dateVerified {pf : DatePlatform} {committed : PageText} {date : ParsedDatePart}
    (h : ∀ r ∈ renderings pf committed date,
      ¬ Delimited (sourceText pf committed r.1) r.2.1 r.2.2) :
    ¬ DateVerified pf committed date := by
  rintro ⟨source, start, stop, hrenders, hdelimited⟩
  exact h _ (mem_renderings hrenders) hdelimited

lemma not_rangeVerified {pf : DatePlatform} {committed : PageText} {first last : ParsedDatePart}
    (h : ∀ r ∈ renderings pf committed first, ∀ r' ∈ renderings pf committed last,
      r.1 = r'.1 → ¬ r.2.2 ≤ r'.2.1) : ¬ RangeVerified pf committed first last := by
  rintro ⟨source, start, stop, start', stop', hrenders, hrenders', -, -, hle⟩
  exact h _ (mem_renderings hrenders) _ (mem_renderings hrenders') rfl hle

/-- How the locales write a day of September, with the year or without. -/
def septemberText (locale : DateLocale) (style : MonthStyle) (includeYear : Bool)
    (date : ParsedDatePart) : PageText :=
  let day := ofString (toString date.day)
  let year := ofString (toString (date.year.getD 0))
  let shown := fun before after => if includeYear then ofString before ++ year ++ ofString after else []
  let name := match locale, style with
    | .enUS, .long | .enGB, .long => "September"
    | .enUS, .short => "Sep"
    | .enGB, .short => "Sept"
    | .frFR, .long => "septembre"
    | .frFR, .short => "sept."
    | .deDE, .long => "September"
    | .deDE, .short => "Sept."
    | .esES, .long => "de septiembre"
    | .esES, .short => "sept"
    | .itIT, .long => "settembre"
    | .itIT, .short => "set"
    | .ptBR, .long => "de setembro"
    | .ptBR, .short => "de set."
    | .nlNL, .long => "september"
    | .nlNL, .short => "sep"
    | .plPL, .long => "września"
    | .plPL, .short => "wrz"
    | .svSE, .long | .daDK, .long | .nbNO, .long => "september"
    | .svSE, .short | .daDK, .short => "sep."
    | .nbNO, .short => "sep."
    | .fiFI, .long => "syyskuuta"
    | .fiFI, .short => "syysk."
    | .csCZ, .long => "září"
    | .csCZ, .short => "9."
    | .trTR, .long => "Eylül"
    | .trTR, .short => "Eyl"
    | .jaJP, _ | .koKR, _ | .zhCN, _ => "9"
  match locale, style with
  | .enUS, _ => ofString name ++ ofString " " ++ day ++ shown ", " ""
  | .enGB, _ | .frFR, _ | .itIT, _ | .nlNL, _ | .plPL, _ | .svSE, _ | .trTR, _ =>
    day ++ ofString " " ++ ofString name ++ shown " " ""
  | .deDE, _ | .daDK, _ | .nbNO, _ | .fiFI, _ | .csCZ, _ =>
    day ++ ofString ". " ++ ofString name ++ shown " " ""
  | .esES, .long | .ptBR, _ => day ++ ofString " " ++ ofString name ++ shown " de " ""
  | .esES, .short => day ++ ofString " " ++ ofString name ++ shown " " ""
  | .jaJP, _ | .zhCN, _ => shown "" "年" ++ ofString name ++ ofString "月" ++ day ++ ofString "日"
  | .koKR, _ => shown "" "년 " ++ ofString name ++ ofString "월 " ++ day ++ ofString "일"

/-- The locales on the days of September. -/
def exampleDates : DatePlatform where
  toTextPlatform := examplePages
  isPunctuationOrSymbol (c : ℕ) :=
    decide (33 ≤ c ∧ c ≤ 47 ∨ 58 ≤ c ∧ c ≤ 64 ∨ 91 ≤ c ∧ c ≤ 96 ∨ 123 ≤ c ∧ c ≤ 126)
  format := septemberText

end Yantra
