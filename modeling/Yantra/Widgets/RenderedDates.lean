import Yantra.Interaction.Text
import Yantra.Lib.CodePoints
import Yantra.Lib.Regex
import Mathlib.Data.List.Chain
import Mathlib.Data.List.Sort
import Mathlib.Tactic.IntervalCases

/-!
# Dates in a rendered text

`parseRenderedDates` reads a text three times: for ISO dates, for the name of a month with a day
behind it, and for two numbers with a slash or a point between, which may be read in either order.
The matches of each pattern keep apart, so that every match at any place of the text is found.

## Main definitions

* `ParsedDatePart`, `parseIso` — a date, and one that is requested.
* `ReadsBothWays` — a slashed date that means two dates.

## Main results

* `mem_parseRenderedDates_iff` — the dates of a text are what its stretches mean.
* `sublist_parseRenderedDates_iff` — which dates come before which.
-/

namespace Yantra

open Regex CodePoints List

/-- The pattern of a word without regard to case. -/
def wordI : PageText → Regex CodePoint
  | [] => .empty
  | a :: w => .seq (.sym fun c => lowerAscii c == lowerAscii a) (wordI w)

/-- `Number(digits)` -/
def valueOf (digits : PageText) : ℕ := digits.foldl (fun n c => 10 * n + (c - 48)) 0

/-- `\d{n}` -/
def digitRun (n : ℕ) : Regex CodePoint := .rep n (some n) (.sym isDigit)

/-- `\d{1,2}` -/
def oneOrTwoDigits : Regex CodePoint := .rep 1 (some 2) (.sym isDigit)

/-! ## Dates -/

def MONTHS : List PageText :=
  ["january", "february", "march", "april", "may", "june", "july", "august", "september",
    "october", "november", "december"].map ofString

structure ParsedDatePart where
  year : Option ℕ
  month : ℕ
  day : ℕ
  deriving DecidableEq

def daysInMonth (year month : ℕ) : ℕ :=
  if month = 2 then
    if year % 4 = 0 ∧ (year % 100 ≠ 0 ∨ year % 400 = 0) then 29 else 28
  else if month = 4 ∨ month = 6 ∨ month = 9 ∨ month = 11 then 30 else 31

/-- Whether `Date.UTC` gives the fields of a date back: it counts the years before 100 from 1900
on, and carries a month or a day out of range over. -/
def isCalendarDate (year month day : ℕ) : Bool :=
  decide (100 ≤ year ∧ 1 ≤ month ∧ month ≤ 12 ∧ 1 ≤ day ∧ day ≤ daysInMonth year month)

/-- `/^(\d{4})-(\d{2})-(\d{2})$/` -/
def isoWhole : Regex CodePoint :=
  .seqs [.atStart, .group 1 (digitRun 4), .sym (· == 45), .group 2 (digitRun 2), .sym (· == 45),
    .group 3 (digitRun 2), .atEnd]

def groupValue (m : Match CodePoint) (n : ℕ) : ℕ := valueOf ((m.group n).getD [])

def parseIso (value : PageText) : Option ParsedDatePart :=
  match exec isoWhole value 0 with
  | none => none
  | some m =>
    if isCalendarDate (groupValue m 1) (groupValue m 2) (groupValue m 3) then
      some ⟨some (groupValue m 1), groupValue m 2, groupValue m 3⟩
    else none

/-! ## Reading a text -/

/-- `iso` -/
def isoPattern : Regex CodePoint :=
  .seqs [.boundary isWord, .group 1 (digitRun 4), .sym (· == 45), .group 2 (digitRun 2),
    .sym (· == 45), .group 3 (digitRun 2), .boundary isWord]

def monthPattern : Regex CodePoint :=
  .alts (MONTHS.flatMap fun month => [wordI month, wordI (month.take 3)])

/-- `named` -/
def namedPattern : Regex CodePoint :=
  .seqs [.boundary isWord, .group 1 monthPattern, .opt (.sym (· == 46)),
    .plus (.sym isSpace), .group 2 oneOrTwoDigits,
    .opt (.alts (["st", "nd", "rd", "th"].map fun s => wordI (ofString s))),
    .opt (.seqs [.opt (.sym (· == 44)), .plus (.sym isSpace), .group 3 (digitRun 4)])]

/-- `[/.]` -/
def isDateSign (c : ℕ) : Bool := c == 47 || c == 46

/-- `[\d/.]` -/
def isDateUnit (c : ℕ) : Bool := isDigit c || isDateSign c

/-- `numeric` -/
def numericPattern : Regex CodePoint :=
  .seqs [.notBehind isDateUnit, .group 1 oneOrTwoDigits, .sym isDateSign, .group 2 oneOrTwoDigits,
    .opt (.seqs [.sym isDateSign, .group 3 (digitRun 4)]), .notAhead (.sym isDateUnit)]

structure RenderedDate where
  index : ℕ
  part : ParsedDatePart
  deriving DecidableEq

def isoDates (m : Match CodePoint) : List RenderedDate :=
  (parseIso m.text).toList.map fun part => ⟨m.index, part⟩

def monthOf (name : PageText) : ℕ :=
  match MONTHS.findIdx? fun entry => ((name.map lowerAscii).take 3).isPrefixOf entry with
  | some index => index + 1
  | none => 0

def namedDates (m : Match CodePoint) : List RenderedDate :=
  let month := monthOf ((m.group 1).getD [])
  let day := groupValue m 2
  let year := (m.group 3).map valueOf
  if 0 < month ∧ 1 ≤ day ∧ day ≤ 31 then [⟨m.index, ⟨year, month, day⟩⟩] else []

def numericReadings (m : Match CodePoint) : List ParsedDatePart :=
  let first := groupValue m 1
  let second := groupValue m 2
  let year := (m.group 3).map valueOf
  if year = none ∧ !m.text.contains 47 then []
  else [⟨year, first, second⟩, ⟨year, second, first⟩]

/-- Add a reading, unless it is no date or already found. -/
def pushReading (index : ℕ) (found : List RenderedDate) (part : ParsedDatePart) :
    List RenderedDate :=
  if part.month < 1 ∨ part.month > 12 ∨ part.day < 1 ∨ part.day > 31 then found
  else if found.any fun entry =>
      entry.index = index && entry.part.month = part.month && entry.part.day = part.day then found
  else found ++ [⟨index, part⟩]

def foundDates (value : PageText) : List RenderedDate :=
  (matchAll numericPattern value).foldl
    (fun found m => (numericReadings m).foldl (pushReading m.index) found)
    ((matchAll isoPattern value).flatMap isoDates ++
      (matchAll namedPattern value).flatMap namedDates)

def readNotLater (left right : RenderedDate) : Prop := left.index ≤ right.index

instance : DecidableRel readNotLater :=
  fun left right => inferInstanceAs (Decidable (left.index ≤ right.index))

def parseRenderedDates (value : PageText) : List RenderedDate :=
  (foundDates value).insertionSort readNotLater

/-! ## What the stretches of a text mean -/

def IsMonthAndDay (part : ParsedDatePart) : Prop :=
  1 ≤ part.month ∧ part.month ≤ 12 ∧ 1 ≤ part.day ∧ part.day ≤ 31

/-- The stretch of a text from one place to another is of an accepted form, and means a date. -/
inductive ReadsAs (text : PageText) : ℕ → ℕ → ParsedDatePart → Prop
  | iso {m : Match CodePoint} {part : ParsedDatePart}
      (hm : matchAt isoPattern text m.index = some m) (hpart : parseIso m.text = some part) :
      ReadsAs text m.index m.stop part
  | named {m : Match CodePoint} {part : ParsedDatePart}
      (hm : matchAt namedPattern text m.index = some m) (hpart : ⟨m.index, part⟩ ∈ namedDates m) :
      ReadsAs text m.index m.stop part
  | numeric {m : Match CodePoint} {part : ParsedDatePart}
      (hm : matchAt numericPattern text m.index = some m) (hpart : part ∈ numericReadings m)
      (hdate : IsMonthAndDay part) : ReadsAs text m.index m.stop part

/-- Two numbers mean two dates, one for each order. -/
def ReadsBothWays (text : PageText) (index : ℕ) (left right : ParsedDatePart) : Prop :=
  ∃ m, matchAt numericPattern text m.index = some m ∧ m.index = index ∧
    numericReadings m = [left, right] ∧ IsMonthAndDay left ∧ IsMonthAndDay right ∧
    left.month ≠ right.month

/-! ## The patterns at a place -/

variable {w : PageText}

lemma denotes_digitRun {n : ℕ} :
    Regex.Denotes (digitRun n) w ↔ w.length = n ∧ ∀ c ∈ w, isDigit c := by
  rw [digitRun, denotes_rep_sym]
  constructor
  · exact fun ⟨hlo, hhi, hall⟩ => ⟨Nat.le_antisymm (hhi n rfl) hlo, hall⟩
  · exact fun ⟨hlen, hall⟩ => ⟨hlen.ge, fun k hk => by
      rw [← Option.some.inj hk, hlen], hall⟩

variable {p q : Pos CodePoint}

lemma moves_of_mem_digitGroup {g n : ℕ} (h : q ∈ run (.group g (digitRun n)) p) :
    ∃ w, w.length = n ∧ (∀ c ∈ w, isDigit c) ∧ Regex.Moves p w q := by
  have hplain : (group g (digitRun n)).Plain := by
    refine ⟨fun k hk => ?_, trivial⟩
    rw [← Option.some.inj hk]
  obtain ⟨w, hw, hmoves⟩ := denotes_of_mem_run hplain p q h
  obtain ⟨hlen, hall⟩ := denotes_digitRun.1 hw
  exact ⟨w, hlen, hall, hmoves⟩

variable {c : CodePoint → Bool}

lemma moves_of_mem_sym (h : q ∈ run (.sym c) p) :
    ∃ a, c a ∧ Regex.Moves p [a] q := by
  obtain ⟨w, ⟨a, ha, rfl⟩, hmoves⟩ := denotes_of_mem_run (r := .sym c) trivial p q h
  exact ⟨a, ha, hmoves⟩

lemma mem_run_boundary {word : CodePoint → Bool} (h : q ∈ run (.boundary word) p) :
    q = p ∧ p.before.head?.any word ≠ p.after.head?.any word := by
  rw [run] at h
  split at h
  next hne => exact ⟨mem_singleton.1 h, by simpa using hne⟩
  next => cases h

lemma isoPattern_spec (h : q ∈ run isoPattern p) :
    ∃ a b c d e f g k, (∀ x ∈ [a, b, c, d, e, f, g, k], isDigit x) ∧
      p.after = a :: b :: c :: d :: 45 :: e :: f :: 45 :: g :: k :: q.after ∧
      Regex.Moves p [a, b, c, d, 45, e, f, 45, g, k] q ∧
      p.before.head?.any isWord = false ∧ q.after.head?.any isWord = false := by
  obtain ⟨p0, h0, hrest⟩ := mem_flatMap.1 h
  obtain ⟨hp0, hleft⟩ := mem_run_boundary h0
  obtain ⟨p1, h1, hrest⟩ := mem_flatMap.1 hrest
  obtain ⟨p2, h2, hrest⟩ := mem_flatMap.1 hrest
  obtain ⟨p3, h3, hrest⟩ := mem_flatMap.1 hrest
  obtain ⟨p4, h4, hrest⟩ := mem_flatMap.1 hrest
  obtain ⟨p5, h5, hrest⟩ := mem_flatMap.1 hrest
  obtain ⟨hp5, hright⟩ := mem_run_boundary hrest
  subst hp0 hp5
  obtain ⟨year, hyear, hyearDigits, hm1⟩ := moves_of_mem_digitGroup h1
  obtain ⟨dash, hdash, hm2⟩ := moves_of_mem_sym h2
  obtain ⟨month, hmonth, hmonthDigits, hm3⟩ := moves_of_mem_digitGroup h3
  obtain ⟨dash', hdash', hm4⟩ := moves_of_mem_sym h4
  obtain ⟨day, hday, hdayDigits, hm5⟩ := moves_of_mem_digitGroup h5
  rw [beq_iff_eq] at hdash hdash'
  subst hdash hdash'
  match year, hyear with
  | [a, b, c, d], _ =>
    match month, hmonth with
    | [e, f], _ =>
      match day, hday with
      | [g, k], _ =>
        have hmoves := (((hm1.trans hm2).trans hm3).trans hm4).trans hm5
        simp only [cons_append, nil_append] at hmoves
        have hword : ∀ x, isDigit x = true → isWord x = true := fun x hx => by
          simp [isWord, hx]
        have hafter := hmoves.after
        simp only [cons_append, nil_append] at hafter
        refine ⟨a, b, c, d, e, f, g, k, ?_, hafter, hmoves, ?_, ?_⟩
        · intro x hx
          simp only [mem_cons, not_mem_nil, or_false] at hx
          rcases hx with rfl | rfl | rfl | rfl | rfl | rfl | rfl | rfl
          · exact hyearDigits _ (by simp)
          · exact hyearDigits _ (by simp)
          · exact hyearDigits _ (by simp)
          · exact hyearDigits _ (by simp)
          · exact hmonthDigits _ (by simp)
          · exact hmonthDigits _ (by simp)
          · exact hdayDigits _ (by simp)
          · exact hdayDigits _ (by simp)
        · rw [hafter, head?_cons, Option.any_some, hword a (hyearDigits a (by simp))] at hleft
          simpa using hleft
        · rw [hmoves.before, reverse_cons] at hright
          simp only [reverse_cons, reverse_nil, nil_append, cons_append,
            head?_cons, Option.any_some, hword k (hdayDigits k (by simp))] at hright
          simpa using hright.symm

variable {g : ℕ}

lemma moves_of_mem_dayGroup (h : q ∈ run (.group g oneOrTwoDigits) p) :
    ∃ w, (1 ≤ w.length ∧ w.length ≤ 2) ∧ (∀ c ∈ w, isDigit c) ∧ Regex.Moves p w q := by
  have hplain : (group g oneOrTwoDigits).Plain := by
    refine ⟨fun k hk => ?_, trivial⟩
    rw [← Option.some.inj hk]
    decide
  obtain ⟨w, hw, hmoves⟩ := denotes_of_mem_run hplain p q h
  obtain ⟨hlo, hhi, hall⟩ := denotes_rep_sym.1 hw
  exact ⟨w, ⟨hlo, hhi 2 rfl⟩, hall, hmoves⟩

lemma numericPattern_spec (h : q ∈ run numericPattern p) :
    p.before.head?.any isDateUnit = false ∧
      (∃ first sign rest, (1 ≤ first.length ∧ first.length ≤ 2) ∧
        (∀ c ∈ first, isDigit c) ∧ isDateSign sign ∧
        p.after = first ++ sign :: rest) ∧
      ∃ w, w ≠ [] ∧ (∀ c ∈ w, isDateUnit c) ∧ Regex.Moves p w q := by
  have hover : numericPattern.Over isDateUnit := by
    simp +contextual [numericPattern, seqs, Over, oneOrTwoDigits, digitRun, opt, isDateUnit]
  obtain ⟨w, hw, hall⟩ := moves_over_of_mem_run _ hover p q h
  obtain ⟨p0, h0, hrest⟩ := mem_flatMap.1 h
  obtain ⟨p1, h1, hrest⟩ := mem_flatMap.1 hrest
  obtain ⟨p2, h2, hrest⟩ := mem_flatMap.1 hrest
  rw [run] at h0
  split at h0
  next => cases h0
  next hbehind =>
    rw [mem_singleton] at h0
    subst h0
    obtain ⟨first, hlen, hdigits, hm1⟩ := moves_of_mem_dayGroup h1
    obtain ⟨sign, hsign, hm2⟩ := moves_of_mem_sym h2
    have hafter := (hm1.trans hm2).after
    rw [append_assoc] at hafter
    refine ⟨Bool.eq_false_iff.2 hbehind, ⟨first, sign, p2.after, hlen, hdigits, hsign, hafter⟩,
      w, ?_, hall, hw⟩
    rintro rfl
    obtain ⟨v, hv⟩ := moves_of_mem_run _ _ _ hrest
    have hle := hv.length_le
    have hsame := congrArg List.length hw.after
    rw [hafter] at hsame
    simp only [nil_append, length_append, length_cons] at hsame
    omega

/-! ### Names of months -/

lemma over_wordI (h : ∀ a ∈ w, 97 ≤ a ∧ a ≤ 122) : (wordI w).Over isLetter := by
  induction w with
  | nil => exact trivial
  | cons a w ih =>
    obtain ⟨ha, hw⟩ := forall_mem_cons.1 h
    exact ⟨fun c hc => decide_eq_true (letter_of_lowerAscii ha (beq_iff_eq.1 hc)), ih hw⟩

variable {rs : List (Regex CodePoint)}

lemma over_alts (h : ∀ r ∈ rs, r.Over c) :
    (alts rs).Over c := by
  induction rs with
  | nil => exact trivial
  | cons r rs ih =>
    obtain ⟨hr, hrs⟩ := forall_mem_cons.1 h
    cases rs with
    | nil => exact hr
    | cons s rs => exact ⟨hr, ih hrs⟩

/-- A word of the source that is not empty consumes something. -/
lemma length_lt_of_mem_wordI (hw : w ≠ []) (h : q ∈ run (wordI w) p) :
    q.after.length < p.after.length := by
  cases w with
  | nil => exact absurd rfl hw
  | cons a w =>
    obtain ⟨p1, h1, hrest⟩ := mem_flatMap.1 h
    obtain ⟨b, -, hm⟩ := moves_of_mem_sym h1
    obtain ⟨v, hv⟩ := moves_of_mem_run _ _ _ hrest
    have hle := hv.length_le
    rw [hm.after, length_append, length_singleton]
    omega

lemma mem_run_alts (h : q ∈ run (alts rs) p) :
    ∃ r ∈ rs, q ∈ run r p := by
  induction rs with
  | nil =>
    rw [alts, run, run] at h
    cases h
  | cons r rs ih =>
    cases rs with
    | nil => exact ⟨r, mem_cons_self, h⟩
    | cons s rs =>
      rcases mem_append.1 h with h | h
      · exact ⟨r, mem_cons_self, h⟩
      · obtain ⟨t, ht, hq⟩ := ih h
        exact ⟨t, mem_cons_of_mem r ht, hq⟩

lemma monthNames_spec : ∀ w ∈ MONTHS.flatMap fun month => [month, month.take 3],
    w ≠ [] ∧ ∀ a ∈ w, 97 ≤ a ∧ a ≤ 122 := by
  decide

lemma moves_of_mem_monthPattern (h : q ∈ run (.group g monthPattern) p) :
    ∃ w, w ≠ [] ∧ (∀ c ∈ w, isLetter c) ∧ Regex.Moves p w q := by
  have hname : ∀ r ∈ MONTHS.flatMap fun month => [wordI month, wordI (month.take 3)],
      ∃ w, (w ≠ [] ∧ ∀ a ∈ w, 97 ≤ a ∧ a ≤ 122) ∧ r = wordI w := by
    intro r hr
    obtain ⟨month, hmonth, hr⟩ := mem_flatMap.1 hr
    simp only [mem_cons, not_mem_nil, or_false] at hr
    rcases hr with rfl | rfl
    · exact ⟨month, monthNames_spec _ (mem_flatMap.2 ⟨month, hmonth, by simp⟩), rfl⟩
    · exact ⟨month.take 3, monthNames_spec _ (mem_flatMap.2 ⟨month, hmonth, by simp⟩), rfl⟩
  have hover : (group g monthPattern).Over isLetter := over_alts fun r hr => by
    obtain ⟨w, ⟨-, hletters⟩, rfl⟩ := hname r hr
    exact over_wordI hletters
  obtain ⟨w, hw, hall⟩ := moves_over_of_mem_run _ hover p q h
  refine ⟨w, ?_, hall, hw⟩
  rintro rfl
  obtain ⟨q', hq', rfl⟩ := mem_map.1 h
  obtain ⟨r, hr, hrun⟩ := mem_run_alts hq'
  obtain ⟨name, ⟨hname, -⟩, rfl⟩ := hname r hr
  have hlt := length_lt_of_mem_wordI hname hrun
  have hsame := congrArg List.length hw.after
  simp only [nil_append] at hsame
  omega

/-- Whether every letter of a text but the first has a letter or a digit before it. -/
def LettersFollow (w : PageText) : Prop :=
  w.IsChain fun a b => isLetter b = true → isWord a = true

lemma lettersFollow_letters (h : ∀ c ∈ w, isLetter c) :
    LettersFollow w :=
  List.Pairwise.isChain (pairwise_of_forall_mem_list fun a ha b _ _ => by
    simp [isWord, h a ha])

lemma lettersFollow_noLetters (h : ∀ c ∈ w, isLetter c = false) :
    LettersFollow w :=
  List.Pairwise.isChain (pairwise_of_forall_mem_list fun a _ b hb hletter => by
    rw [h b hb] at hletter
    cases hletter)

lemma LettersFollow.append {v w : PageText} (hv : LettersFollow v) (hw : LettersFollow w)
    (hmeet : (∀ c ∈ w.head?, isLetter c = false) ∨ ∀ c ∈ v.getLast?, isWord c) :
    LettersFollow (v ++ w) := by
  refine isChain_append.2 ⟨hv, hw, fun a ha b hb hletter => ?_⟩
  rcases hmeet with hno | hword
  · rw [hno b hb] at hletter
    cases hletter
  · exact hword a ha

lemma namedPattern_spec (h : q ∈ run namedPattern p) :
    p.before.head?.any isWord = false ∧
      (∃ letter rest, isLetter letter ∧ p.after = letter :: rest) ∧
      ∃ w, w ≠ [] ∧ LettersFollow w ∧ Regex.Moves p w q := by
  obtain ⟨p0, h0, hrest⟩ := mem_flatMap.1 h
  obtain ⟨hp0, hleft⟩ := mem_run_boundary h0
  obtain ⟨p1, h1, hrest⟩ := mem_flatMap.1 hrest
  obtain ⟨p2, h2, hrest⟩ := mem_flatMap.1 hrest
  obtain ⟨p3, h3, hrest⟩ := mem_flatMap.1 hrest
  obtain ⟨p4, h4, hrest⟩ := mem_flatMap.1 hrest
  obtain ⟨p5, h5, h6⟩ := mem_flatMap.1 hrest
  subst hp0
  obtain ⟨name, hname, hletters, hm1⟩ := moves_of_mem_monthPattern h1
  have hover2 : (opt (.sym (· == 46)) : Regex CodePoint).Over (fun c => !isLetter c) := by
    intro c hc
    rw [beq_iff_eq.1 hc]
    rfl
  obtain ⟨dot, hm2, hdot⟩ := moves_over_of_mem_run _ hover2 p1 p2 h2
  have hover3 : (plus (.sym isSpace) : Regex CodePoint).Over (fun c => !isLetter c) := by
    intro c hc
    simp [isLetter_of_isSpace hc]
  obtain ⟨spaces, hm3, hspaces⟩ := moves_over_of_mem_run _ hover3 p2 p3 h3
  obtain ⟨day, ⟨hday, -⟩, hdigits, hm4⟩ := moves_of_mem_dayGroup h4
  have hover5 : (opt (.alts (["st", "nd", "rd", "th"].map fun s => wordI (ofString s))) :
      Regex CodePoint).Over isLetter := by
    refine over_alts fun r hr => ?_
    obtain ⟨s, hs, rfl⟩ := mem_map.1 hr
    have hlower : ∀ s ∈ ["st", "nd", "rd", "th"], ∀ a ∈ ofString s, 97 ≤ a ∧ a ≤ 122 := by
      decide
    exact over_wordI (hlower s hs)
  obtain ⟨suffix, hm5, hsuffix⟩ := moves_over_of_mem_run _ hover5 p4 p5 h5
  have hover6 : (opt (.seqs [.opt (.sym (· == 44)), .plus (.sym isSpace),
      .group 3 (digitRun 4)]) : Regex CodePoint).Over (fun c => !isLetter c) := by
    refine ⟨fun c hc => ?_, fun c hc => ?_, fun c hc => ?_⟩
    · rw [beq_iff_eq.1 hc]
      rfl
    · simp [isLetter_of_isSpace hc]
    · simp [isLetter_of_isDigit hc]
  obtain ⟨year, hm6, hyear⟩ := moves_over_of_mem_run _ hover6 p5 q h6
  have hmoves := ((((hm1.trans hm2).trans hm3).trans hm4).trans hm5).trans hm6
  have hno : ∀ w : PageText, (∀ c ∈ w, (!isLetter c) = true) →
      LettersFollow w ∧ ∀ c ∈ w.head?, isLetter c = false := fun w hw =>
    ⟨lettersFollow_noLetters fun c hc => by simpa using hw c hc,
      fun c hc => by simpa using hw c (mem_of_mem_head? hc)⟩
  have hdayNo : ∀ c ∈ day, (!isLetter c) = true := fun c hc => by
    rw [isLetter_of_isDigit (hdigits c hc)]
    rfl
  have hlast : ∀ c ∈ (((name ++ dot) ++ spaces) ++ day).getLast?, isWord c := by
    intro c hc
    rw [getLast?_append_of_ne_nil _ (ne_nil_of_length_pos hday)] at hc
    simp [isWord, hdigits c (mem_of_getLast? hc)]
  obtain ⟨letter, letters, rfl⟩ := exists_cons_of_ne_nil hname
  have hletter := hletters letter mem_cons_self
  have hafter := hmoves.after
  simp only [cons_append] at hafter
  refine ⟨?_, ⟨letter, _, hletter, hafter⟩, _, ?_, ?_, hmoves⟩
  · rw [hafter, head?_cons, Option.any_some, isWord, hletter] at hleft
    simpa using hleft
  · simp
  · exact (((((lettersFollow_letters hletters).append (hno dot hdot).1 (.inl (hno dot hdot).2)).append
      (hno spaces hspaces).1 (.inl (hno spaces hspaces).2)).append (hno day hdayNo).1
      (.inl (hno day hdayNo).2)).append (lettersFollow_letters hsuffix) (.inr hlast)).append
      (hno year hyear).1 (.inl (hno year hyear).2)

/-! ## Matches keep apart -/

section

variable {text : PageText}

lemma inside_match {i k : ℕ} {q : Pos CodePoint} (hmoves : Regex.Moves (posAt text i) w q)
    (hik : i < k) (hk : k < i + w.length) :
    ∃ a b u v, w = u ++ a :: b :: v ∧ (posAt text k).before.head? = some a ∧
      (posAt text k).after.head? = some b := by
  have hafter : text.drop i = w ++ q.after := hmoves.after
  have hlen := congrArg List.length hafter
  rw [length_drop, length_append] at hlen
  have hprev := getElem?_of_moves hmoves (d := k - i - 1) (by omega)
  have hnext := getElem?_of_moves hmoves (d := k - i) (by omega)
  rw [show i + (k - i - 1) = k - 1 by omega, getElem?_eq_getElem (by omega)] at hprev
  rw [show i + (k - i) = k by omega, getElem?_eq_getElem (l := w) (by omega)] at hnext
  refine ⟨w[k - i - 1], w[k - i], w.take (k - i - 1), w.drop (k - i + 1), ?_, ?_, ?_⟩
  · have hsplit := take_append_drop (k - i - 1) w
    rw [drop_eq_getElem_cons (by omega), drop_eq_getElem_cons (by omega)] at hsplit
    simpa [show k - i - 1 + 1 = k - i by omega] using hsplit.symm
  · rw [head?_before_posAt (by omega) (by omega), getElem?_eq_getElem (by omega), hprev,
      getElem?_eq_getElem (by omega)]
  · rw [posAt, head?_drop, hnext]

lemma keepsApart_numeric (text : PageText) : KeepsApart numericPattern text := by
  intro i m hm
  obtain ⟨q, hq, rfl, -, hmoves⟩ := matchAt_eq_some hm
  obtain ⟨-, -, w, hw, hall, hmoves'⟩ := numericPattern_spec hq
  obtain rfl := hmoves.unique hmoves'
  refine ⟨hw, fun k hik hk => ?_⟩
  by_contra hsome
  obtain ⟨m', hm'⟩ := Option.ne_none_iff_exists'.1 hsome
  obtain ⟨q', hq', -⟩ := matchAt_eq_some hm'
  obtain ⟨a, b, u, v, hsplit, hbefore, -⟩ := inside_match hmoves hik hk
  have hfree := (numericPattern_spec hq').1
  rw [hbefore, Option.any_some, hall a (by simp [hsplit])] at hfree
  cases hfree

lemma keepsApart_named (text : PageText) : KeepsApart namedPattern text := by
  intro i m hm
  obtain ⟨q, hq, rfl, -, hmoves⟩ := matchAt_eq_some hm
  obtain ⟨-, -, w, hw, hfollow, hmoves'⟩ := namedPattern_spec hq
  obtain rfl := hmoves.unique hmoves'
  refine ⟨hw, fun k hik hk => ?_⟩
  by_contra hsome
  obtain ⟨m', hm'⟩ := Option.ne_none_iff_exists'.1 hsome
  obtain ⟨q', hq', -⟩ := matchAt_eq_some hm'
  obtain ⟨a, b, u, v, hsplit, hbefore, hafter⟩ := inside_match hmoves hik hk
  obtain ⟨hfree, ⟨letter, rest, hletter, hhead⟩, -⟩ := namedPattern_spec hq'
  rw [hhead, head?_cons] at hafter
  obtain rfl := Option.some.inj hafter
  rw [LettersFollow, hsplit, isChain_append] at hfollow
  have hword := (isChain_cons_cons.1 hfollow.2.1).1 hletter
  rw [hbefore, Option.any_some, hword] at hfree
  cases hfree

/-- ISO dates keep apart: inside of one there is no place with four digits, a dash behind them, and
no word before them. -/
lemma keepsApart_iso (text : PageText) : KeepsApart isoPattern text := by
  intro i m hm
  obtain ⟨q, hq, rfl, -, hmoves⟩ := matchAt_eq_some hm
  obtain ⟨a, b, c, d, e, f, g, k, hdigits, hahead, hmoves', -, hright⟩ := isoPattern_spec hq
  have htext := hmoves.unique hmoves'
  refine ⟨by simp [htext], fun j hij hj => ?_⟩
  by_contra hsome
  obtain ⟨m', hm'⟩ := Option.ne_none_iff_exists'.1 hsome
  obtain ⟨q', hq', -⟩ := matchAt_eq_some hm'
  obtain ⟨a', b', c', d', e', f', g', k', hdigits', hahead', -, hfree, -⟩ := isoPattern_spec hq'
  have hword : ∀ x, isDigit x = true → isWord x = true := fun x hx => by simp [isWord, hx]
  have hthird : isDigit c' = true := hdigits' c' (by simp)
  have hlen := congrArg List.length hahead
  simp only [posAt, length_drop, length_cons] at hlen
  rw [Match.stop, htext] at hj
  simp only [length_cons, length_nil] at hj
  have hdrop : (posAt text j).after =
      (a :: b :: c :: d :: 45 :: e :: f :: 45 :: g :: k :: q.after).drop (j - m.index) := by
    rw [← hahead, posAt, posAt, drop_drop, Nat.add_sub_cancel' hij.le]
  have hprev : (posAt text j).before.head? =
      [a, b, c, d, 45, e, f, 45, g, k][j - m.index - 1]? := by
    rw [head?_before_posAt (by omega) (by omega),
      ← getElem?_of_moves hmoves' (d := j - m.index - 1) (by simp; omega)]
    congr 1
    omega
  rw [hprev] at hfree
  rw [hdrop] at hahead'
  obtain ⟨n, rfl⟩ := Nat.exists_eq_add_of_lt hij
  rw [show m.index + n + 1 - m.index = n + 1 by omega] at hfree hahead'
  -- Only behind a dash there is no digit before; there the third code point is a dash, or the end.
  have hn : n < 9 := by omega
  interval_cases n
  · simp [hword a (hdigits a (by simp))] at hfree
  · simp [hword b (hdigits b (by simp))] at hfree
  · simp [hword c (hdigits c (by simp))] at hfree
  · simp [hword d (hdigits d (by simp))] at hfree
  · simp only [drop_succ_cons, drop_zero, List.cons.injEq] at hahead'
    rw [← hahead'.2.2.1] at hthird
    cases hthird
  · simp [hword e (hdigits e (by simp))] at hfree
  · simp [hword f (hdigits f (by simp))] at hfree
  · simp only [drop_succ_cons, drop_zero, List.cons.injEq] at hahead'
    rw [hahead'.2.2, head?_cons, Option.any_some, hword c' hthird] at hright
    cases hright
  · simp [hword g (hdigits g (by simp))] at hfree

end

/-! ## Finding the dates -/

section

def numericDates (m : Match CodePoint) : List RenderedDate :=
  (numericReadings m).foldl (pushReading m.index) []

lemma foldl_pushReading_append {index : ℕ} {found : List RenderedDate}
    (h : ∀ entry ∈ found, entry.index ≠ index) (acc : List RenderedDate)
    (parts : List ParsedDatePart) :
    parts.foldl (pushReading index) (found ++ acc) =
      found ++ parts.foldl (pushReading index) acc := by
  induction parts generalizing acc with
  | nil => rfl
  | cons part parts ih =>
    have hnone : found.any (fun entry => entry.index = index && entry.part.month = part.month &&
        entry.part.day = part.day) = false := by
      rw [any_eq_false]
      intro entry hentry
      simp [h entry hentry]
    have hpush : pushReading index (found ++ acc) part = found ++ pushReading index acc part := by
      unfold pushReading
      rw [any_append, hnone, Bool.false_or]
      split_ifs
      · rfl
      · rfl
      · rw [append_assoc]
    rw [foldl_cons, foldl_cons, hpush, ih]

lemma numericReadings_cases (m : Match CodePoint) :
    numericReadings m = [] ∨ ∃ year first second,
      numericReadings m = [⟨year, first, second⟩, ⟨year, second, first⟩] := by
  unfold numericReadings
  dsimp only
  split
  next => exact .inl rfl
  next => exact .inr ⟨_, _, _, rfl⟩

/-- The dates that a match of two numbers means: its readings, at most once each, in their order. -/
lemma numericDates_spec (m : Match CodePoint) :
    (∀ entry, entry ∈ numericDates m ↔
      entry.index = m.index ∧ entry.part ∈ numericReadings m ∧ IsMonthAndDay entry.part) ∧
    (numericDates m).Pairwise fun x y => numericReadings m = [x.part, y.part] ∧
      x.part.month ≠ y.part.month := by
  have hvalid : ∀ part : ParsedDatePart, IsMonthAndDay part ↔
      ¬ (part.month < 1 ∨ part.month > 12 ∨ part.day < 1 ∨ part.day > 31) := by
    intro part
    unfold IsMonthAndDay
    omega
  have hentry : ∀ entry : RenderedDate, ∀ part, entry = ⟨m.index, part⟩ ↔
      entry.index = m.index ∧ entry.part = part := by
    rintro ⟨index, part'⟩ part
    simp
  unfold numericDates
  rcases numericReadings_cases m with hnil | ⟨year, first, second, heq⟩
  · rw [hnil]
    exact ⟨fun entry => by simp, List.Pairwise.nil⟩
  · rw [heq, foldl_cons, foldl_cons, foldl_nil]
    by_cases hfirst : IsMonthAndDay ⟨year, first, second⟩
    · have hpush : pushReading m.index [] ⟨year, first, second⟩ =
          [⟨m.index, ⟨year, first, second⟩⟩] := by
        rw [pushReading, if_neg ((hvalid _).1 hfirst)]
        rfl
      rw [hpush]
      by_cases hsecond : IsMonthAndDay ⟨year, second, first⟩
      · rw [pushReading, if_neg ((hvalid _).1 hsecond)]
        by_cases hsame : first = second
        · subst hsame
          refine ⟨fun entry => ?_, by simp⟩
          simp only [any_cons, decide_true, Bool.and_self, any_nil, Bool.or_false,
            if_true, mem_cons, not_mem_nil, or_false, or_self, hentry]
          exact ⟨fun h => ⟨h.1, h.2, h.2 ▸ hfirst⟩, fun h => ⟨h.1, h.2.1⟩⟩
        · rw [if_neg (by simp [hsame])]
          refine ⟨fun entry => ?_, by simp [hsame]⟩
          simp only [cons_append, nil_append, mem_cons, not_mem_nil, or_false,
            hentry]
          constructor
          · rintro (⟨hindex, hpart⟩ | ⟨hindex, hpart⟩)
            · exact ⟨hindex, .inl hpart, hpart ▸ hfirst⟩
            · exact ⟨hindex, .inr hpart, hpart ▸ hsecond⟩
          · rintro ⟨hindex, hpart | hpart, -⟩
            · exact .inl ⟨hindex, hpart⟩
            · exact .inr ⟨hindex, hpart⟩
      · rw [pushReading, if_pos (not_not.1 fun h => hsecond ((hvalid _).2 h))]
        refine ⟨fun entry => ?_, by simp⟩
        simp only [mem_cons, not_mem_nil, or_false, hentry]
        constructor
        · exact fun h => ⟨h.1, .inl h.2, h.2 ▸ hfirst⟩
        · rintro ⟨hindex, hpart | hpart, hdate⟩
          · exact ⟨hindex, hpart⟩
          · exact absurd (hpart ▸ hdate) hsecond
    · have hpush : pushReading m.index [] ⟨year, first, second⟩ = [] := by
        rw [pushReading, if_pos (not_not.1 fun h => hfirst ((hvalid _).2 h))]
      rw [hpush]
      by_cases hsecond : IsMonthAndDay ⟨year, second, first⟩
      · rw [pushReading, if_neg ((hvalid _).1 hsecond), any_nil, if_neg (by simp)]
        refine ⟨fun entry => ?_, by simp⟩
        simp only [nil_append, mem_cons, not_mem_nil, or_false, hentry]
        constructor
        · exact fun h => ⟨h.1, .inr h.2, h.2 ▸ hsecond⟩
        · rintro ⟨hindex, hpart | hpart, hdate⟩
          · exact absurd (hpart ▸ hdate) hfirst
          · exact ⟨hindex, hpart⟩
      · rw [pushReading, if_pos (not_not.1 fun h => hsecond ((hvalid _).2 h))]
        refine ⟨fun entry => ?_, List.Pairwise.nil⟩
        simp only [not_mem_nil, mem_cons, or_false, false_iff, not_and]
        rintro - (hpart | hpart) hdate
        · exact hfirst (hpart ▸ hdate)
        · exact hsecond (hpart ▸ hdate)

variable {text : PageText}

lemma namedDates_spec (m : Match CodePoint) :
    (∀ entry ∈ namedDates m, entry.index = m.index) ∧ (namedDates m).Pairwise fun _ _ => False := by
  unfold namedDates
  dsimp only
  split
  next => simp
  next => exact ⟨fun entry h => (nomatch h), List.Pairwise.nil⟩

lemma isoDates_spec (m : Match CodePoint) :
    (∀ entry ∈ isoDates m, entry.index = m.index) ∧ (isoDates m).Pairwise fun _ _ => False := by
  unfold isoDates
  cases parseIso m.text <;> simp

lemma isDateSign_of_isDigit {c : ℕ} (h : isDigit c) : isDateSign c = false := by
  simp only [isDigit, isDateSign, decide_eq_true_eq, Bool.or_eq_false_iff, beq_eq_false_iff_ne]
    at h ⊢
  omega

variable {m m' : Match CodePoint} {i : ℕ}

lemma numeric_not_others (hm : matchAt numericPattern text i = some m)
    (hm' : matchAt isoPattern text i = some m' ∨ matchAt namedPattern text i = some m') :
    False := by
  obtain ⟨q, hq, -⟩ := matchAt_eq_some hm
  obtain ⟨-, ⟨first, sign, rest, hlen, hdigits, hsign, hafter⟩, -⟩ := numericPattern_spec hq
  rcases hm' with hm' | hm'
  · obtain ⟨q', hq', -⟩ := matchAt_eq_some hm'
    obtain ⟨a, b, c, d, e, f, g, k, hdigits', hahead, -⟩ := isoPattern_spec hq'
    rw [hafter] at hahead
    match first, hlen with
    | [x], _ =>
      have hb := isDateSign_of_isDigit (hdigits' b (by simp))
      rw [← (List.cons.inj (List.cons.inj hahead).2).1, hsign] at hb
      cases hb
    | [x, y], _ =>
      have hc := isDateSign_of_isDigit (hdigits' c (by simp))
      rw [← (List.cons.inj (List.cons.inj (List.cons.inj hahead).2).2).1, hsign] at hc
      cases hc
  · obtain ⟨q', hq', -⟩ := matchAt_eq_some hm'
    obtain ⟨-, ⟨letter, rest', hletter, hahead⟩, -⟩ := namedPattern_spec hq'
    rw [hafter] at hahead
    obtain ⟨x, first, rfl⟩ := exists_cons_of_length_pos hlen.1
    have hx := isLetter_of_isDigit (hdigits x mem_cons_self)
    rw [(List.cons.inj hahead).1, hletter] at hx
    cases hx

lemma iso_not_named (hm : matchAt isoPattern text i = some m)
    (hm' : matchAt namedPattern text i = some m') : False := by
  obtain ⟨q, hq, -⟩ := matchAt_eq_some hm
  obtain ⟨a, b, c, d, e, f, g, k, hdigits, hahead, -⟩ := isoPattern_spec hq
  obtain ⟨q', hq', -⟩ := matchAt_eq_some hm'
  obtain ⟨-, ⟨letter, rest', hletter, hahead'⟩, -⟩ := namedPattern_spec hq'
  rw [hahead'] at hahead
  have ha := isLetter_of_isDigit (hdigits a (by simp))
  rw [← (List.cons.inj hahead).1, hletter] at ha
  cases ha

variable {r : Regex CodePoint}

lemma pairwise_matchAll (hapart : KeepsApart r text) :
    (matchAll r text).Pairwise fun m m' => m.index < m'.index :=
  (ordered_matchAll r text).pairwise fun m hm =>
    (hapart m.index m ((mem_matchAll_iff hapart m).1 hm).2).1

lemma mem_matchAll_of_matchAt (hapart : KeepsApart r text) {m : Match CodePoint}
    (hm : matchAt r text m.index = some m) : m ∈ matchAll r text := by
  obtain ⟨q, -, -, -, hmoves⟩ := matchAt_eq_some hm
  have hlen := congrArg List.length hmoves.after
  simp only [posAt, length_drop, length_append] at hlen
  have hsome := length_pos_iff.2 (hapart m.index m hm).1
  exact (mem_matchAll_iff hapart m).2 ⟨by omega, hm⟩

lemma foundDates_eq (text : PageText) : foundDates text =
    ((matchAll isoPattern text).flatMap isoDates ++
      (matchAll namedPattern text).flatMap namedDates) ++
    (matchAll numericPattern text).flatMap numericDates := by
  have hfold : ∀ (ms : List (Match CodePoint)) (found : List RenderedDate),
      ms.Pairwise (fun m m' => m.index < m'.index) →
      (∀ m ∈ ms, ∀ entry ∈ found, entry.index ≠ m.index) →
      ms.foldl (fun found m => (numericReadings m).foldl (pushReading m.index) found) found =
        found ++ ms.flatMap numericDates := by
    intro ms
    induction ms with
    | nil => exact fun found _ _ => (append_nil found).symm
    | cons m ms ih =>
      intro found hpairwise hfree
      obtain ⟨hfirst, hrest⟩ := pairwise_cons.1 hpairwise
      have hone := foldl_pushReading_append (hfree m mem_cons_self) [] (numericReadings m)
      rw [append_nil] at hone
      rw [foldl_cons, hone, ih _ hrest, flatMap_cons, append_assoc]
      · rfl
      · intro m' hm' entry hentry
        rcases mem_append.1 hentry with hentry | hentry
        · exact hfree m' (mem_cons_of_mem m hm') entry hentry
        · have hindex := (((numericDates_spec m).1 entry).1 hentry).1
          rw [hindex]
          exact (hfirst m' hm').ne
  refine hfold _ _ (pairwise_matchAll (keepsApart_numeric text)) fun m hm entry hentry heq => ?_
  have hat := ((mem_matchAll_iff (keepsApart_numeric text) m).1 hm).2
  rcases mem_append.1 hentry with hentry | hentry
  · obtain ⟨m', hm', hentry⟩ := mem_flatMap.1 hentry
    obtain ⟨part, -, rfl⟩ := mem_map.1 hentry
    have hat' := ((mem_matchAll_iff (keepsApart_iso text) m').1 hm').2
    dsimp only at heq
    rw [heq] at hat'
    exact numeric_not_others hat (.inl hat')
  · obtain ⟨m', hm', hentry⟩ := mem_flatMap.1 hentry
    have hat' := ((mem_matchAll_iff (keepsApart_named text) m').1 hm').2
    rw [← (namedDates_spec m').1 entry hentry, heq] at hat'
    exact numeric_not_others hat (.inr hat')

variable {entry : RenderedDate}

lemma mem_foundDates_iff :
    entry ∈ foundDates text ↔ ∃ stop, ReadsAs text entry.index stop entry.part := by
  rw [foundDates_eq, mem_append, mem_append, mem_flatMap, mem_flatMap,
    mem_flatMap]
  constructor
  · rintro ((⟨m, hm, hentry⟩ | ⟨m, hm, hentry⟩) | ⟨m, hm, hentry⟩)
    · have hat := ((mem_matchAll_iff (keepsApart_iso text) m).1 hm).2
      obtain ⟨part, hpart, rfl⟩ := mem_map.1 hentry
      exact ⟨m.stop, .iso hat (Option.mem_toList.1 hpart)⟩
    · have hat := ((mem_matchAll_iff (keepsApart_named text) m).1 hm).2
      obtain ⟨index, part⟩ := entry
      obtain rfl : index = m.index := (namedDates_spec m).1 _ hentry
      exact ⟨m.stop, .named hat hentry⟩
    · have hat := ((mem_matchAll_iff (keepsApart_numeric text) m).1 hm).2
      obtain ⟨hindex, hpart, hdate⟩ := ((numericDates_spec m).1 entry).1 hentry
      rw [hindex]
      exact ⟨m.stop, .numeric hat hpart hdate⟩
  · obtain ⟨index, part⟩ := entry
    rintro ⟨stop, h⟩
    cases h with
    | @iso m _ hm hpart =>
      exact .inl (.inl ⟨m, mem_matchAll_of_matchAt (keepsApart_iso text) hm,
        mem_map.2 ⟨part, Option.mem_toList.2 hpart, rfl⟩⟩)
    | @named m _ hm hpart =>
      exact .inl (.inr ⟨m, mem_matchAll_of_matchAt (keepsApart_named text) hm, hpart⟩)
    | @numeric m _ hm hpart hdate =>
      exact .inr ⟨m, mem_matchAll_of_matchAt (keepsApart_numeric text) hm,
        ((numericDates_spec m).1 _).2 ⟨rfl, hpart, hdate⟩⟩

lemma pairwise_flatMap_index {ms : List (Match CodePoint)} {f : Match CodePoint → List RenderedDate}
    {R : RenderedDate → RenderedDate → Prop} (hms : ms.Pairwise fun m m' => m.index < m'.index)
    (hindex : ∀ m, ∀ entry ∈ f m, entry.index = m.index) (hR : ∀ m ∈ ms, (f m).Pairwise R) :
    (ms.flatMap f).Pairwise fun x y => x.index = y.index → R x y := by
  rw [pairwise_flatMap]
  refine ⟨fun m hm => (hR m hm).imp fun {x y} h (_ : x.index = y.index) => h, hms.imp fun {m m'} hlt x hx y hy heq => ?_⟩
  rw [hindex m x hx, hindex m' y hy] at heq
  exact absurd heq hlt.ne

lemma pairwise_foundDates (text : PageText) : (foundDates text).Pairwise fun x y =>
    x.index = y.index → ReadsBothWays text x.index x.part y.part := by
  have hiso : ∀ x ∈ (matchAll isoPattern text).flatMap isoDates,
      ∃ m, matchAt isoPattern text x.index = some m := by
    intro x hx
    obtain ⟨m, hm, hx⟩ := mem_flatMap.1 hx
    rw [(isoDates_spec m).1 x hx]
    exact ⟨m, ((mem_matchAll_iff (keepsApart_iso text) m).1 hm).2⟩
  have hnamed : ∀ x ∈ (matchAll namedPattern text).flatMap namedDates,
      ∃ m, matchAt namedPattern text x.index = some m := by
    intro x hx
    obtain ⟨m, hm, hx⟩ := mem_flatMap.1 hx
    rw [(namedDates_spec m).1 x hx]
    exact ⟨m, ((mem_matchAll_iff (keepsApart_named text) m).1 hm).2⟩
  have hnumeric : ∀ x ∈ (matchAll numericPattern text).flatMap numericDates,
      ∃ m, matchAt numericPattern text x.index = some m := by
    intro x hx
    obtain ⟨m, hm, hx⟩ := mem_flatMap.1 hx
    rw [(((numericDates_spec m).1 x).1 hx).1]
    exact ⟨m, ((mem_matchAll_iff (keepsApart_numeric text) m).1 hm).2⟩
  rw [foundDates_eq, pairwise_append, pairwise_append]
  refine ⟨⟨?_, ?_, fun x hx y hy heq => ?_⟩, ?_, fun x hx y hy heq => ?_⟩
  · exact (pairwise_flatMap_index (R := fun _ _ => False)
      (pairwise_matchAll (keepsApart_iso text)) (fun m => (isoDates_spec m).1)
      fun m _ => (isoDates_spec m).2).imp fun h heq => (h heq).elim
  · exact (pairwise_flatMap_index (R := fun _ _ => False)
      (pairwise_matchAll (keepsApart_named text)) (fun m => (namedDates_spec m).1)
      fun m _ => (namedDates_spec m).2).imp fun h heq => (h heq).elim
  · obtain ⟨m, hm⟩ := hiso x hx
    obtain ⟨m', hm'⟩ := hnamed y hy
    rw [← heq] at hm'
    exact (iso_not_named hm hm').elim
  · refine pairwise_flatMap_index (pairwise_matchAll (keepsApart_numeric text))
      (fun m entry hentry => (((numericDates_spec m).1 entry).1 hentry).1) fun m hm => ?_
    have hat := ((mem_matchAll_iff (keepsApart_numeric text) m).1 hm).2
    refine (numericDates_spec m).2.imp_of_mem fun {x y} hx hy h => ?_
    obtain ⟨hindex, -, hdate⟩ := ((numericDates_spec m).1 x).1 hx
    obtain ⟨-, -, hdate'⟩ := ((numericDates_spec m).1 y).1 hy
    exact ⟨m, hat, hindex.symm, h.1, hdate, hdate', h.2⟩
  · obtain ⟨m', hm'⟩ := hnumeric y hy
    rw [← heq] at hm'
    rcases mem_append.1 hx with hx | hx
    · obtain ⟨m, hm⟩ := hiso x hx
      exact (numeric_not_others hm' (.inl hm)).elim
    · obtain ⟨m, hm⟩ := hnamed x hx
      exact (numeric_not_others hm' (.inr hm)).elim

lemma filter_orderedInsert (index : ℕ) (entry : RenderedDate) (entries : List RenderedDate) :
    (entries.orderedInsert readNotLater entry).filter (fun x => x.index = index) =
      (entry :: entries).filter fun x => x.index = index := by
  induction entries with
  | nil => rfl
  | cons x entries ih =>
    rw [orderedInsert]
    split_ifs with hle
    · rfl
    · rw [readNotLater] at hle
      rw [filter_cons, ih, filter_cons, filter_cons (x := entry), filter_cons]
      split_ifs with h1 h2
      · simp only [decide_eq_true_eq] at h1 h2
        omega
      · rfl
      · rfl
      · rfl

lemma filter_insertionSort (index : ℕ) (entries : List RenderedDate) :
    (entries.insertionSort readNotLater).filter (fun x => x.index = index) =
      entries.filter fun x => x.index = index := by
  induction entries with
  | nil => rfl
  | cons entry entries ih =>
    rw [insertionSort_cons, filter_orderedInsert]
    simp only [filter_cons, ih]

instance : IsTrans RenderedDate readNotLater := ⟨fun _ _ _ h h' => Nat.le_trans h h'⟩

instance : Std.Total readNotLater := ⟨fun x y => Nat.le_total x.index y.index⟩

/-- **The dates of a text are what its stretches mean.** -/
theorem mem_parseRenderedDates_iff :
    entry ∈ parseRenderedDates text ↔ ∃ stop, ReadsAs text entry.index stop entry.part := by
  rw [parseRenderedDates, mem_insertionSort, mem_foundDates_iff]

variable {x y : RenderedDate}

lemma pair_sublist_or {l : List RenderedDate} (hx : x ∈ l) (hy : y ∈ l) (hne : x ≠ y) :
    [x, y].Sublist l ∨ [y, x].Sublist l := by
  obtain ⟨before, behind, rfl⟩ := append_of_mem hx
  rcases mem_append.1 hy with hy | hy
  · exact .inr (Sublist.append (singleton_sublist.2 hy)
      (singleton_sublist.2 mem_cons_self))
  · rcases mem_cons.1 hy with rfl | hy
    · exact absurd rfl hne
    · exact .inl ((Sublist.cons_cons x (singleton_sublist.2 hy)).trans
        (sublist_append_right _ _))

lemma pair_sublist_iff (h : x.index = y.index) :
    [x, y].Sublist (parseRenderedDates text) ↔ [x, y].Sublist (foundDates text) := by
  have hfilter : [x, y].filter (fun z => z.index = x.index) = [x, y] := by simp [h]
  have hboth := filter_insertionSort x.index (foundDates text)
  constructor
  · intro hsub
    have hsub' := hsub.filter fun z => z.index = x.index
    rw [hfilter, parseRenderedDates, hboth] at hsub'
    exact hsub'.trans filter_sublist
  · intro hsub
    have hsub' := hsub.filter fun z => z.index = x.index
    rw [hfilter, ← hboth] at hsub'
    exact hsub'.trans filter_sublist

/-- **Which dates come before which**: those at an earlier place, and the first of the two readings
of two numbers. -/
theorem sublist_parseRenderedDates_iff (hx : x ∈ parseRenderedDates text)
    (hy : y ∈ parseRenderedDates text) : [x, y].Sublist (parseRenderedDates text) ↔
      x.index < y.index ∨ x.index = y.index ∧ ReadsBothWays text x.index x.part y.part := by
  have hsorted : (parseRenderedDates text).Pairwise readNotLater := pairwise_insertionSort _ _
  have hpair : ∀ {x y : RenderedDate} {l : List RenderedDate}
      {R : RenderedDate → RenderedDate → Prop}, l.Pairwise R → [x, y].Sublist l → R x y :=
    fun hl hsub => rel_of_pairwise_cons (hl.sublist hsub) mem_cons_self
  constructor
  · intro hsub
    rcases Nat.lt_or_eq_of_le (hpair hsorted hsub) with hlt | heq
    · exact .inl hlt
    · exact .inr ⟨heq, hpair (pairwise_foundDates text) ((pair_sublist_iff heq).1 hsub) heq⟩
  · rintro (hlt | ⟨heq, hways⟩)
    · have hne : x ≠ y := fun h => by
        rw [h] at hlt
        exact Nat.lt_irrefl _ hlt
      refine (pair_sublist_or hx hy hne).resolve_right fun hsub => ?_
      exact absurd (hpair hsorted hsub) (Nat.not_le.2 hlt)
    · obtain ⟨m, -, hindex, hreadings, -, -, hmonth⟩ := id hways
      have hne : x ≠ y := fun h => hmonth (by rw [h])
      refine (pair_sublist_or hx hy hne).resolve_right fun hsub => ?_
      obtain ⟨m', hm', hindex', hreadings', -⟩ :=
        hpair (pairwise_foundDates text) ((pair_sublist_iff heq.symm).1 hsub) heq.symm
      obtain ⟨m'', hm'', hindex'', hreadings'', -, -, -⟩ := id hways
      rw [hindex', ← heq, ← hindex'', hm''] at hm'
      obtain rfl := Option.some.inj hm'
      rw [hreadings''] at hreadings'
      exact hmonth (by rw [(List.cons.inj hreadings').1])

end

end Yantra
