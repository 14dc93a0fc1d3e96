import Mathlib.Data.List.DropRight
import Yantra.Interaction.Resolution
import Yantra.Lib.Utf8

/-!
# The opening of a label that is typed

A widget that matches on leading characters is typed an opening of the offered label that is to
be selected: long enough to tell the label from the other labels offered, and grown to the end of
a word. How long is told from the lower-cased texts, and the white space at the end is trimmed.

## Main definitions

* `StartsWith`, `Distinguishes` — what it is for.
* `SpaceLost` — the space that told two labels apart is trimmed away.

## Main results

* `distinguishingPrefix_distinguishes_iff` — when the opening tells the label apart.
-/

namespace Yantra

open Utf16 List Option

/-! ## The opening -/

/-- `/[\s,;/|(-]/u` -/
def WORD_SEPARATOR (c : CodeUnit) : Bool := Utf16.isSpace c || Utf16.oneOf ",;/|(-" c

def PREFIX_RETREAT_MAX_CHARS : ℕ := 12

/-- `text.toLocaleLowerCase()` -/
def lowerUnits (pf : TextPlatform) (text : JsString) : JsString :=
  (pf.toLocaleLowerCase (Utf16.codePoints text)).flatMap unitsOfPoint

/-- `normalizeText(text)` -/
def normalizeUnits (pf : TextPlatform) (text : JsString) : PageText :=
  normalizeText pf (Utf16.codePoints text)

/-- How many leading elements two lists share. -/
def sharedLength {α : Type} [DecidableEq α] : List α → List α → ℕ
  | a :: as, b :: bs => if a = b then sharedLength as bs + 1 else 0
  | _, _ => 0

/-- How many leading characters two texts share, case-insensitively. -/
def sharedPrefixLength (pf : TextPlatform) (left right : JsString) : ℕ :=
  sharedLength (lowerUnits pf left) (lowerUnits pf right)

/-- The other labels the opening is to tell the label from. -/
def rivalsOf (pf : TextPlatform) (trimmed : JsString) (others : List JsString) : List JsString :=
  (others.map trim).filter fun other =>
    !other.isEmpty && normalizeUnits pf other ≠ normalizeUnits pf trimmed

/-- How much of the label is kept at least. -/
def leastLength (pf : TextPlatform) (trimmed : JsString) (rivals : List JsString) : ℕ :=
  rivals.foldl (fun length rival => max length (sharedPrefixLength pf trimmed rival + 1))
    (min PREFIX_RETREAT_MAX_CHARS trimmed.length)

/-- A prefix of a label long enough to tell it apart from everything else offered. -/
def distinguishingPrefix (pf : TextPlatform) (label : JsString) (others : List JsString) :
    JsString :=
  let trimmed := trim label
  if trimmed.isEmpty then trimmed
  else
    let length := leastLength pf trimmed (rivalsOf pf trimmed others)
    if trimmed.length ≤ length then trimmed
    else
      let cut := match (trimmed.drop length).findIdx? WORD_SEPARATOR with
        | none => trimmed
        | some boundary => trimmed.take (length + boundary)
      trim cut

/-! ## What it is for -/

/-- A text starts with another one, case-insensitively. -/
def StartsWith (pf : TextPlatform) (text opening : JsString) : Prop :=
  lowerUnits pf opening <+: lowerUnits pf text

instance (pf : TextPlatform) (text opening : JsString) : Decidable (StartsWith pf text opening) :=
  inferInstanceAs (Decidable (_ <+: _))

/-- An opening of a label tells it from its rivals: it is a prefix of the label that no rival
starts with, unless some rival starts with the whole label. -/
def Distinguishes (pf : TextPlatform) (trimmed : JsString) (rivals : List JsString)
    (opening : JsString) : Prop :=
  opening ≠ [] ∧ opening <+: trimmed ∧
    ((∀ rival ∈ rivals, ¬ StartsWith pf rival opening) ∨
      ∃ rival ∈ rivals, StartsWith pf rival trimmed)

instance (pf : TextPlatform) (trimmed : JsString) (rivals : List JsString) (opening : JsString) :
    Decidable (Distinguishes pf trimmed rivals opening) :=
  inferInstanceAs (Decidable (_ ∧ _ ∧ _))

/-- The words up to a separator are in lower case what they are in the lower-cased label. -/
def WordwiseLower (pf : TextPlatform) (trimmed : JsString) : Prop :=
  ∀ i < trimmed.length, (trimmed[i]?).any WORD_SEPARATOR →
    lowerUnits pf (trimmed.take i) <+: lowerUnits pf trimmed

instance (pf : TextPlatform) (trimmed : JsString) : Decidable (WordwiseLower pf trimmed) :=
  inferInstanceAs (Decidable (∀ i < _, _))

/-- No prefix of the label gets shorter in lower case. -/
def NeverShorter (pf : TextPlatform) (trimmed : JsString) : Prop :=
  ∀ i < trimmed.length, i ≤ (lowerUnits pf (trimmed.take i)).length

instance (pf : TextPlatform) (trimmed : JsString) : Decidable (NeverShorter pf trimmed) :=
  inferInstanceAs (Decidable (∀ i < _, _))

/-- The label without the white space at the end of its first characters. -/
def trimmedTake (n : ℕ) (trimmed : JsString) : JsString := (trimmed.take n).rdropWhile Utf16.isSpace

/-- The label is kept up to its first separator from the least length on. -/
def openingLength (pf : TextPlatform) (trimmed : JsString) (rivals : List JsString) : ℕ :=
  let length := leastLength pf trimmed rivals
  length + (trimmed.drop length).findIdx WORD_SEPARATOR

/-- The white space that told the label from a rival is trimmed away: the least that is kept ends
with white space and a separator follows, and without the white space there is no more than the
label and a rival share. -/
def SpaceLost (pf : TextPlatform) (trimmed : JsString) (rivals : List JsString) : Prop :=
  let length := leastLength pf trimmed rivals
  (trimmed[length]?).any WORD_SEPARATOR ∧ (trimmed[length - 1]?).any Utf16.isSpace ∧
    ∃ rival ∈ rivals,
      (lowerUnits pf (trimmedTake length trimmed)).length ≤ sharedPrefixLength pf trimmed rival

instance (pf : TextPlatform) (trimmed : JsString) (rivals : List JsString) :
    Decidable (SpaceLost pf trimmed rivals) :=
  inferInstanceAs (Decidable (_ ∧ _ ∧ _))

/-! ## Shared openings -/

section

variable {α : Type}

lemma isPrefix_iff_length_le_sharedLength [DecidableEq α] {opening as : List α} (h : opening <+: as)
    (bs : List α) : opening <+: bs ↔ opening.length ≤ sharedLength as bs := by
  induction opening generalizing as bs with
  | nil => simp
  | cons c opening ih =>
    obtain ⟨as, rfl⟩ : ∃ tail, as = c :: tail := by
      obtain ⟨tail, rfl⟩ := h
      exact ⟨opening ++ tail, rfl⟩
    cases bs with
    | nil => simp [sharedLength]
    | cons b bs =>
      rw [cons_prefix_cons, sharedLength, ih (cons_prefix_cons.1 h).2 bs]
      split_ifs with hcb
      · simp [hcb]
      · simp [hcb]

variable {p : α → Bool} {as : List α}

lemma getElem?_length_rdropWhile (h : (as.rdropWhile p).length < as.length) :
    (as[(as.rdropWhile p).length]?).any p := by
  obtain ⟨c, tail, hdropped⟩ : ∃ c tail, as.rtakeWhile p = c :: tail := by
    refine exists_cons_of_ne_nil fun hnil => ?_
    have hlen := congrArg List.length (rdropWhile_append_rtakeWhile (p := p) (l := as))
    rw [hnil, append_nil] at hlen
    omega
  have hc : p c = true := mem_rtakeWhile_imp (p := p) (l := as) (by simp [hdropped])
  have happ := rdropWhile_append_rtakeWhile (p := p) (l := as)
  have hget : as[(as.rdropWhile p).length]? = some c := by
    calc as[(as.rdropWhile p).length]?
        = (as.rdropWhile p ++ as.rtakeWhile p)[(as.rdropWhile p).length]? := by rw [happ]
      _ = some c := by rw [getElem?_append_right le_rfl, Nat.sub_self, hdropped]; rfl
  simp [hget, hc]

lemma rdropWhile_take {n : ℕ} (hn : n ≤ as.length) (h : (as[n - 1]?).any p = false) :
    (as.take n).rdropWhile p = as.take n := by
  refine rdropWhile_eq_self_iff.2 fun hne hlast => ?_
  have hlen : (as.take n).length = n := length_take_of_le hn
  have hpos : 0 < (as.take n).length := length_pos_of_ne_nil hne
  have hget : as[n - 1]? = some ((as.take n).getLast hne) := by
    rw [← getLast?_eq_some_getLast hne, getLast?_eq_getElem?, hlen,
      getElem?_take_of_lt (by omega)]
  rw [hget, any_some, hlast] at h
  cases h

end

/-! ## Trimmed labels -/

section

variable {label : JsString}

lemma head?_trim {c : CodeUnit} (h : (trim label).head? = some c) : isSpace c = false := by
  obtain ⟨rest, hrest⟩ : trim label <+: label.dropWhile isSpace := rdropWhile_prefix _ _
  have hhead := head?_dropWhile_not isSpace label
  rw [← hrest, head?_append, h] at hhead
  exact hhead

lemma rdropWhile_trim : (trim label).rdropWhile isSpace = trim label :=
  rdropWhile_idempotent _ _

variable {n : ℕ}

lemma trim_take_trim (hpos : 0 < n) :
    trim ((trim label).take n) = trimmedTake n (trim label) := by
  have hdrop : ((trim label).take n).dropWhile isSpace = (trim label).take n := by
    have hhead := head?_take (l := trim label) (i := n)
    rw [if_neg hpos.ne'] at hhead
    cases htext : (trim label).take n with
    | nil => rfl
    | cons c text =>
      rw [htext] at hhead
      exact dropWhile_cons_of_neg (by simp [head?_trim hhead.symm])
  exact congrArg (rdropWhile isSpace) hdrop

lemma trimmedTake_of_le (h : (trim label).length ≤ n) :
    trimmedTake n (trim label) = trim label := by
  rw [trimmedTake, take_of_length_le h, rdropWhile_trim]

lemma trimmedTake_ne_nil (hpos : 0 < n) (hne : trim label ≠ []) :
    trimmedTake n (trim label) ≠ [] := by
  obtain ⟨c, text, htext⟩ := exists_cons_of_ne_nil hne
  intro hnil
  have hc : isSpace c := by
    refine rdropWhile_eq_nil_iff.1 hnil c ?_
    rw [htext, ← Nat.sub_add_cancel hpos, take_succ_cons]
    exact mem_cons_self
  have hhead : (trim label).head? = some c := by rw [htext]; rfl
  rw [head?_trim hhead] at hc
  cases hc

lemma trimmedTake_isPrefix (n : ℕ) (text : JsString) : trimmedTake n text <+: text :=
  ( rdropWhile_prefix _ _).trans ( take_prefix n text)

end

/-! ## The opening that is kept -/

section

variable {pf : TextPlatform} {label trimmed : JsString} {rivals others : List JsString}

lemma foldl_max_shared_spec (f : JsString → ℕ) (rivals : List JsString) (start : ℕ) :
    start ≤ rivals.foldl (fun n rival => max n (f rival)) start ∧
      ∀ rival ∈ rivals, f rival ≤ rivals.foldl (fun n rival => max n (f rival)) start := by
  induction rivals generalizing start with
  | nil => simp
  | cons rival rivals ih =>
    obtain ⟨hstart, hall⟩ := ih (max start (f rival))
    refine ⟨le_trans (le_max_left _ _) hstart, fun other hother => ?_⟩
    rcases mem_cons.1 hother with rfl | hother
    · exact le_trans (le_max_right _ _) hstart
    · exact hall other hother

lemma shared_lt_leastLength {rival : JsString} (h : rival ∈ rivals) :
    sharedPrefixLength pf trimmed rival < leastLength pf trimmed rivals :=
  (foldl_max_shared_spec (fun rival => sharedPrefixLength pf trimmed rival + 1) rivals _).2 rival h

lemma leastLength_pos (h : trimmed ≠ []) : 0 < leastLength pf trimmed rivals := by
  refine lt_of_lt_of_le ?_ (foldl_max_shared_spec
    (fun rival => sharedPrefixLength pf trimmed rival + 1) rivals _).1
  exact lt_min (by decide) (length_pos_of_ne_nil h)

/-- **The opening** is the label up to its first separator from the least length on, without the
white space at its end. -/
lemma distinguishingPrefix_eq (h : trim label ≠ []) :
    distinguishingPrefix pf label others =
      trimmedTake (openingLength pf (trim label) (rivalsOf pf (trim label) others))
        (trim label) := by
  rw [distinguishingPrefix, if_neg (by simpa using h), openingLength]
  set length := leastLength pf (trim label) (rivalsOf pf (trim label) others) with hlength
  dsimp only
  split
  next hall => rw [trimmedTake_of_le (le_trans hall (Nat.le_add_right _ _))]
  next hall =>
    rw [← trim_take_trim (lt_of_lt_of_le (leastLength_pos h) (Nat.le_add_right _ _))]
    split
    next hnone =>
      have hend := findIdx_eq_length_of_false (findIdx?_eq_none_iff.1 hnone)
      rw [hend, length_drop, take_of_length_le (by omega)]
    next boundary hsome =>
      obtain ⟨-, hfind⟩ := findIdx?_eq_some_iff_findIdx_eq.1 hsome
      rw [hfind]

lemma separator_at_openingLength (h : openingLength pf trimmed rivals < trimmed.length) :
    (trimmed[openingLength pf trimmed rivals]?).any WORD_SEPARATOR := by
  rw [openingLength] at h ⊢
  rw [← getElem?_drop]
  have hlt : (trimmed.drop (leastLength pf trimmed rivals)).findIdx WORD_SEPARATOR <
      (trimmed.drop (leastLength pf trimmed rivals)).length := by
    rw [length_drop]
    omega
  rw [getElem?_eq_getElem hlt, any_some]
  exact findIdx_getElem

lemma not_separator_before {i : ℕ} (hle : leastLength pf trimmed rivals ≤ i)
    (hlt : i < openingLength pf trimmed rivals) : (trimmed[i]?).any WORD_SEPARATOR = false := by
  rw [openingLength] at hlt
  obtain ⟨j, rfl⟩ := Nat.exists_eq_add_of_le hle
  rw [← getElem?_drop]
  have hj : j < (trimmed.drop (leastLength pf trimmed rivals)).findIdx WORD_SEPARATOR := by omega
  rw [getElem?_eq_getElem (lt_of_lt_of_le hj findIdx_le_length)]
  simpa using not_of_lt_findIdx hj

lemma separator_of_isSpace {c : Option CodeUnit} (h : c.any isSpace) :
    c.any WORD_SEPARATOR := by
  obtain ⟨c, rfl, hc⟩ := any_eq_true_iff_get .. |>.mp h |> fun ⟨hs, hget⟩ =>
    (⟨c.get hs, (some_get hs).symm, hget⟩ : ∃ d, c = some d ∧ isSpace d)
  rw [any_some, WORD_SEPARATOR, hc, Bool.true_or]

lemma opening_ends (label : JsString) (rivals : List JsString) :
    let n := openingLength pf (trim label) rivals
    trimmedTake n (trim label) = trim label ∨
      ∃ i < (trim label).length, ((trim label)[i]?).any WORD_SEPARATOR ∧
        trimmedTake n (trim label) = (trim label).take i := by
  intro n
  rcases le_or_gt (trim label).length n with hle | hlt
  · exact .inl (trimmedTake_of_le hle)
  have hlen : ((trim label).take n).length = n := length_take_of_le hlt.le
  have hopening : trimmedTake n (trim label) =
      (trim label).take (trimmedTake n (trim label)).length :=
    prefix_iff_eq_take.1 (trimmedTake_isPrefix n _)
  have hshort : (trimmedTake n (trim label)).length ≤ n :=
    ( rdropWhile_prefix isSpace ((trim label).take n)).length_le.trans hlen.le
  refine .inr ⟨_, lt_of_le_of_lt hshort hlt, ?_, hopening⟩
  rcases Nat.lt_or_eq_of_le hshort with hcut | hcut
  · -- white space was trimmed away: the first of it follows
    have hshorter : (((trim label).take n).rdropWhile isSpace).length <
        ((trim label).take n).length := by
      rw [hlen]
      exact hcut
    have hspace := getElem?_length_rdropWhile hshorter
    rw [getElem?_take_of_lt (hlen ▸ hcut)] at hspace
    exact separator_of_isSpace hspace
  · rw [hcut]
    exact separator_at_openingLength hlt

lemma startsWith_opening_iff (hlower : WordwiseLower pf (trim label)) (rival : JsString) :
    let opening := trimmedTake (openingLength pf (trim label) rivals) (trim label)
    StartsWith pf rival opening ↔
      (lowerUnits pf opening).length ≤ sharedPrefixLength pf (trim label) rival := by
  intro opening
  refine isPrefix_iff_length_le_sharedLength ?_ _
  rcases opening_ends label rivals with heq | ⟨i, hi, hsep, heq⟩
  · rw [show opening = trim label from heq]
  · rw [show opening = (trim label).take i from heq]
    exact hlower i hi hsep

/-- **Where no prefix gets shorter**, the whole label is kept or more than is shared with any
rival, except where the white space at the end of the least that is kept is trimmed away.

**Proof sketch.** What is kept up to a separator after the least length does not end with a
separator, so nothing is trimmed and it is longer than the least length. Where a separator follows
the least length itself, nothing is trimmed either unless it ends with white space. -/
lemma shared_lt_of_not_spaceLost (hshort : NeverShorter pf (trim label))
    (hlost : ¬ SpaceLost pf (trim label) rivals)
    (hcut : openingLength pf (trim label) rivals < (trim label).length) :
    ∀ rival ∈ rivals, sharedPrefixLength pf (trim label) rival <
      (lowerUnits pf (trimmedTake (openingLength pf (trim label) rivals) (trim label))).length := by
  intro rival hrival
  have hshared : sharedPrefixLength pf (trim label) rival < leastLength pf (trim label) rivals :=
    shared_lt_leastLength hrival
  have hleast : leastLength pf (trim label) rivals ≤ openingLength pf (trim label) rivals :=
    Nat.le_add_right _ _
  have hsep := separator_at_openingLength hcut
  set n := openingLength pf (trim label) rivals with hn
  by_cases hend : ((trim label)[n - 1]?).any Utf16.isSpace = true
  · have hfirst : n = leastLength pf (trim label) rivals := by
      by_contra hne
      have hleast' : leastLength pf (trim label) rivals ≤ n - 1 := by omega
      have hbefore : ((trim label)[n - 1]?).any WORD_SEPARATOR = false :=
        not_separator_before hleast' (by omega)
      rw [separator_of_isSpace hend] at hbefore
      cases hbefore
    rw [hfirst] at hsep hend ⊢
    by_contra hle
    exact hlost ⟨hsep, hend, rival, hrival, Nat.le_of_not_lt hle⟩
  · have hkept : trimmedTake n (trim label) = (trim label).take n :=
      rdropWhile_take hcut.le (Bool.eq_false_iff.2 hend)
    calc sharedPrefixLength pf (trim label) rival
        < n := lt_of_lt_of_le hshared hleast
      _ ≤ (lowerUnits pf (trimmedTake n (trim label))).length := hkept ▸ hshort n hcut

lemma exists_le_shared_of_spaceLost (hlost : SpaceLost pf (trim label) rivals) :
    ∃ rival ∈ rivals,
      (lowerUnits pf (trimmedTake (openingLength pf (trim label) rivals) (trim label))).length ≤
        sharedPrefixLength pf (trim label) rival := by
  obtain ⟨hsep, -, rival, hrival, hle⟩ := hlost
  have hzero : openingLength pf (trim label) rivals = leastLength pf (trim label) rivals := by
    by_contra hne
    have hbefore : ((trim label)[leastLength pf (trim label) rivals]?).any WORD_SEPARATOR = false :=
      not_separator_before le_rfl (lt_of_le_of_ne (Nat.le_add_right _ _) (Ne.symm hne))
    rw [hsep] at hbefore
    cases hbefore
  exact ⟨rival, hrival, hzero ▸ hle⟩

/-! ## When the label is told apart -/

/-- The opening is always a prefix of the label that is not empty, and all of it tells a label from
its rivals as far as anything does. -/
lemma distinguishes_iff (h : trim label ≠ []) :
    Distinguishes pf (trim label) rivals
        (trimmedTake (openingLength pf (trim label) rivals) (trim label)) ↔
      (∃ rival ∈ rivals, StartsWith pf rival (trim label)) ∨
        ∀ rival ∈ rivals, ¬ StartsWith pf rival
          (trimmedTake (openingLength pf (trim label) rivals) (trim label)) := by
  have hpos : 0 < openingLength pf (trim label) rivals :=
    lt_of_lt_of_le (leastLength_pos h) (Nat.le_add_right _ _)
  exact ⟨fun ⟨_, _, hapart⟩ => hapart.symm, fun hapart =>
    ⟨trimmedTake_ne_nil hpos h, trimmedTake_isPrefix _ _, hapart.symm⟩⟩

/-- **When the opening tells the label apart**: in general, unless a rival starts with the label up
to the first separator from the least length on, trimmed, and not with all of it. Where the words
of the label are in lower case what they are in the lower-cased label, unless the two share as much
as is kept in lower case. Where moreover no prefix gets shorter in lower case, unless the white
space that told the two apart is trimmed away. -/
theorem distinguishingPrefix_distinguishes_iff (pf : TextPlatform) (label : JsString)
    (others : List JsString) (h : trim label ≠ []) :
    let rivals := rivalsOf pf (trim label) others
    let opening := trimmedTake (openingLength pf (trim label) rivals) (trim label)
    let holds := Distinguishes pf (trim label) rivals (distinguishingPrefix pf label others)
    (holds ↔ (∃ rival ∈ rivals, StartsWith pf rival (trim label)) ∨
      ∀ rival ∈ rivals, ¬ StartsWith pf rival opening) ∧
    (WordwiseLower pf (trim label) →
      (holds ↔ (∃ rival ∈ rivals, StartsWith pf rival (trim label)) ∨
        ∀ rival ∈ rivals, sharedPrefixLength pf (trim label) rival <
          (lowerUnits pf opening).length) ∧
      (NeverShorter pf (trim label) →
        (holds ↔ (∃ rival ∈ rivals, StartsWith pf rival (trim label)) ∨
          ¬ SpaceLost pf (trim label) rivals))) := by
  intro rivals opening holds
  have hholds : holds ↔ (∃ rival ∈ rivals, StartsWith pf rival (trim label)) ∨
      ∀ rival ∈ rivals, ¬ StartsWith pf rival opening := by
    have heq : distinguishingPrefix pf label others = opening := distinguishingPrefix_eq h
    exact (iff_of_eq (congrArg (Distinguishes pf (trim label) rivals) heq)).trans
      (distinguishes_iff h)
  refine ⟨hholds, fun hlower => ?_⟩
  have hshared : holds ↔ (∃ rival ∈ rivals, StartsWith pf rival (trim label)) ∨
      ∀ rival ∈ rivals, sharedPrefixLength pf (trim label) rival <
        (lowerUnits pf opening).length := by
    refine hholds.trans (or_congr_right (forall₂_congr fun rival _ => ?_))
    exact (startsWith_opening_iff hlower rival).not.trans not_le
  refine ⟨hshared, fun hshort => hshared.trans ?_⟩
  constructor
  · rintro (hwhole | hall)
    · exact .inl hwhole
    · refine .inr fun hlost => ?_
      obtain ⟨rival, hrival, hle⟩ := exists_le_shared_of_spaceLost hlost
      exact absurd (hall rival hrival) (not_lt.2 hle)
  · rintro (hwhole | hlost)
    · exact .inl hwhole
    rcases lt_or_ge (openingLength pf (trim label) rivals) (trim label).length with hcut | hall
    · exact .inr (shared_lt_of_not_spaceLost hshort hlost hcut)
    · -- all of the label is kept
      rw [← hshared, hholds, show opening = trim label from trimmedTake_of_le hall]
      by_cases hwhole : ∃ rival ∈ rivals, StartsWith pf rival (trim label)
      · exact .inl hwhole
      · exact .inr fun rival hrival hstarts => hwhole ⟨rival, hrival, hstarts⟩

end

/-- A label and its opening, where the label of a rival goes on with another letter. -/
theorem distinguishingPrefix_distinguishes_example :
    let label := units "Springfield - Gardens"
    let rivals := rivalsOf examplePages label [units "Springfieldx"]
    let opening := trimmedTake (openingLength examplePages label rivals) label
    let holds := Distinguishes examplePages label rivals
      (distinguishingPrefix examplePages label [units "Springfieldx"])
    (holds ↔ (∃ rival ∈ rivals, StartsWith examplePages rival label) ∨
      ∀ rival ∈ rivals, ¬ StartsWith examplePages rival opening) ∧
    (holds ↔ (∃ rival ∈ rivals, StartsWith examplePages rival label) ∨
      ∀ rival ∈ rivals, sharedPrefixLength examplePages label rival <
        (lowerUnits examplePages opening).length) ∧
    (holds ↔ (∃ rival ∈ rivals, StartsWith examplePages rival label) ∨
      ¬ SpaceLost examplePages label rivals) := by
  have htrim : trim (units "Springfield - Gardens") = units "Springfield - Gardens" := by
    decide +kernel
  have hiff := distinguishingPrefix_distinguishes_iff examplePages (units "Springfield - Gardens")
    [units "Springfieldx"] (by decide +kernel)
  rw [htrim] at hiff
  have hlower : WordwiseLower examplePages (units "Springfield - Gardens") := by decide +kernel
  exact ⟨hiff.1, (hiff.2 hlower).1, (hiff.2 hlower).2 (by decide +kernel)⟩

/-- Another label starts with what is typed for a label it does not start with: the space that told
the two apart is trimmed away before the hyphen. -/
theorem springfieldx_startsWith_opening :
    distinguishingPrefix examplePages (units "Springfield - Gardens") [units "Springfieldx"] =
      units "Springfield" ∧
    rivalsOf examplePages (units "Springfield - Gardens") [units "Springfieldx"] =
      [units "Springfieldx"] ∧
    StartsWith examplePages (units "Springfieldx") (units "Springfield") ∧
    ¬ StartsWith examplePages (units "Springfieldx") (units "Springfield - Gardens") ∧
    ¬ Distinguishes examplePages (units "Springfield - Gardens") [units "Springfieldx"]
      (distinguishingPrefix examplePages (units "Springfield - Gardens")
        [units "Springfieldx"]) := by
  decide +kernel

end Yantra
