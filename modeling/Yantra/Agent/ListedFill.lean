import Yantra.Agent.StallWindow

/-!
# Fills of listed fields

A listed fill compares the names of its fields with the names of the committed ones in a normal
form of ASCII letters and digits. Names are the same up to letter case and punctuation when their
words are, whatever script they are written in.

## Main definitions

* `fieldWords` — the words of a name, where a letter or digit of any script counts.
* `ListedFillSound` — a listed fill is met by commits of its own fields only.

## Main results

* `listedFillSound_iff` — when a listed fill is sound.
-/

namespace Yantra

open List

variable (pf : Platform) (letterOrDigit : Char → Bool)

/-! ## Names -/

/-- A character that `normalizeDeliveryName` keeps. -/
def keptInName (c : Char) : Bool := ('a' ≤ c && c ≤ 'z') || ('0' ≤ c && c ≤ '9')

/-- The words of a name: its letters and digits in lower case, with one space for every run of
anything else. -/
def fieldWords (text : String) : String :=
  JsText.trim (JsText.collapseRuns (fun c => !letterOrDigit c) (pf.toLowerCase text))

/-- A name has a letter or a digit, once in lower case, that the normal form drops. -/
def HasForeign (text : String) : Prop :=
  ∃ c ∈ (pf.toLowerCase text).toList, letterOrDigit c = true ∧ keptInName c = false

def committedFields (ledger : List ActionLedgerEntry) : List String :=
  ledger.filterMap fun
    | .fillCommitted _ _ field _ _ => some field
    | _ => none

lemma filledNames_eq_map (ledger : List ActionLedgerEntry) :
    filledNames pf ledger = (committedFields ledger).map (normalizeDeliveryName pf) := by
  unfold filledNames committedFields
  rw [map_filterMap]
  refine congrArg (fun f => filterMap f ledger) (funext fun e => ?_)
  cases e <;> rfl

lemma collapseFrom_congr {p q : Char → Bool} (inRun : Bool) {cs : List Char}
    (h : ∀ c ∈ cs, p c = q c) : JsText.collapseFrom p inRun cs = JsText.collapseFrom q inRun cs := by
  induction cs generalizing inRun with
  | nil => rfl
  | cons c cs ih =>
    obtain ⟨hc, hcs⟩ := forall_mem_cons.1 h
    simp only [JsText.collapseFrom, hc, ih _ hcs]

variable {pf letterOrDigit}

lemma fieldWords_eq_of_not_hasForeign (hascii : ∀ c, keptInName c → letterOrDigit c) {text : String}
    (hown : ¬ HasForeign pf letterOrDigit text) :
    fieldWords pf letterOrDigit text = normalizeDeliveryName pf text := by
  unfold fieldWords normalizeDeliveryName JsText.collapseRuns
  refine congrArg (fun cs => JsText.trim (String.ofList cs))
    (collapseFrom_congr false fun c hc => ?_)
  show (!letterOrDigit c) = !keptInName c
  cases hkept : keptInName c with
  | true => rw [hascii c hkept]
  | false =>
    have hdropped : letterOrDigit c = false := by
      by_contra hletter
      exact hown ⟨c, hc, by simpa using hletter, hkept⟩
    rw [hdropped]

/-! ## Soundness -/

variable (pf letterOrDigit)

/-- The fill item is met only if every listed field was committed under its own name, and a commit
meets the fill of no other field. -/
def ListedFillSound (input : FulfillmentInput) (fill : FillTerm) : Prop :=
  ((fillItem input fill).status = .met → ∀ field ∈ fill.fields,
      ∃ committed ∈ committedFields input.ledger,
        fieldWords pf letterOrDigit committed = fieldWords pf letterOrDigit field) ∧
    ∀ field ∈ fill.fields, ∀ entry ∈ input.ledger, ∀ committed ∈ committedFields [entry],
      (input.evaluateFill { fill with fields := [field] } [entry]).status = .met →
        fieldWords pf letterOrDigit committed = fieldWords pf letterOrDigit field

variable {pf}

lemma listed_met_iff (census : Option FillCensus) {fill : FillTerm}
    (hlisted : fill.coverage = .listed) (ledger : List ActionLedgerEntry) :
    (censusFillEvaluator pf census fill ledger).status = .met ↔
      ∀ field ∈ fill.fields, ∃ committed ∈ committedFields ledger,
        normalizeDeliveryName pf committed = normalizeDeliveryName pf field := by
  simp only [censusFillEvaluator, hlisted, listedFill_met_iff, filter_eq_nil_iff,
    Bool.not_eq_true', Bool.not_eq_false, contains_iff_mem, filledNames_eq_map, mem_map]

/-- **When a listed fill is sound.** No commit has the normal form of a listed field whose words it
does not have; only names with letters or digits that the normal form drops need to be looked at.

**Proof sketch.** A commit meets the fill of one field when the normal forms are the same, and for
names without dropped letters these are the words. -/
theorem listedFillSound_iff (hascii : ∀ c, keptInName c = true → letterOrDigit c = true)
    (input : FulfillmentInput) (census : Option FillCensus)
    (hcensus : input.evaluateFill = censusFillEvaluator pf census) (fill : FillTerm)
    (hlisted : fill.coverage = .listed) :
    ListedFillSound pf letterOrDigit input fill ↔
      ∀ field ∈ fill.fields, ∀ committed ∈ committedFields input.ledger,
        HasForeign pf letterOrDigit field ∨ HasForeign pf letterOrDigit committed →
          normalizeDeliveryName pf committed = normalizeDeliveryName pf field →
            fieldWords pf letterOrDigit committed = fieldWords pf letterOrDigit field := by
  have hentry : ∀ committed ∈ committedFields input.ledger,
      ∃ entry ∈ input.ledger, committedFields [entry] = [committed] := by
    intro committed hc
    obtain ⟨entry, hentry, hsome⟩ := List.mem_filterMap.1 hc
    exact ⟨entry, hentry, by simp [committedFields, hsome]⟩
  unfold ListedFillSound
  rw [hcensus]
  constructor
  · intro h field hf committed hc _ hsame
    obtain ⟨entry, hmem, hone⟩ := hentry committed hc
    refine h.2 field hf entry hmem committed (by simp [hone]) ?_
    refine (listed_met_iff census
      (show ({ fill with fields := [field] } : FillTerm).coverage = .listed from hlisted) _).2 ?_
    intro name hname
    exact ⟨committed, by simp [hone], by rw [List.mem_singleton.1 hname, hsame]⟩
  · intro h
    have hwords : ∀ field ∈ fill.fields, ∀ committed ∈ committedFields input.ledger,
        normalizeDeliveryName pf committed = normalizeDeliveryName pf field →
          fieldWords pf letterOrDigit committed = fieldWords pf letterOrDigit field := by
      intro field hf committed hc hsame
      by_cases hforeign : HasForeign pf letterOrDigit field ∨ HasForeign pf letterOrDigit committed
      · exact h field hf committed hc hforeign hsame
      · rw [not_or] at hforeign
        rw [fieldWords_eq_of_not_hasForeign hascii hforeign.1,
          fieldWords_eq_of_not_hasForeign hascii hforeign.2, hsame]
    constructor
    · intro hmet field hf
      have hmet' : (censusFillEvaluator pf census fill input.ledger).status = .met := by
        simpa only [fillItem, hcensus] using hmet
      obtain ⟨committed, hc, hsame⟩ := (listed_met_iff census hlisted _).1 hmet' field hf
      exact ⟨committed, hc, hwords field hf committed hc hsame⟩
    · intro field hf entry hmem committed hc hmet
      obtain ⟨other, hother, hsame⟩ := (listed_met_iff census
        (show ({ fill with fields := [field] } : FillTerm).coverage = .listed from hlisted) _).1
        hmet field (by simp)
      have hc' : committed ∈ committedFields input.ledger := by
        obtain ⟨e, he, hsome⟩ := List.mem_filterMap.1 hc
        rw [List.mem_singleton.1 he] at hsome
        exact List.mem_filterMap.2 ⟨entry, hmem, hsome⟩
      have hsingle : other = committed := by
        obtain ⟨e, he, hsome⟩ := List.mem_filterMap.1 hc
        obtain ⟨e', he', hsome'⟩ := List.mem_filterMap.1 hother
        rw [List.mem_singleton.1 he] at hsome
        rw [List.mem_singleton.1 he', hsome] at hsome'
        exact (Option.some.inj hsome').symm
      exact hwords field hf committed hc' (hsingle ▸ hsame)

/-- Letters and digits of ASCII, and everything from the first ideograph on. -/
def asciiOrIdeograph (c : Char) : Bool :=
  keptInName c || c.isAlphanum || decide (0x4E00 ≤ c.toNat)

def oneFieldInput (field : String) : FulfillmentInput where
  contract := none
  terms := noActionTerms
  deliverableGaps := []
  constraints := []
  ledger := [.fillCommitted ⟨0, none, "example.com"⟩ "e1" field none []]
  claimedMet := none
  captureGap := fun _ => none
  evaluateFill := censusFillEvaluator asciiPlatform none

lemma committedFields_oneFieldInput (field : String) :
    committedFields (oneFieldInput field).ledger = [field] := rfl

/-- A name that is written in another letter case, and with a hyphen. -/
theorem listedFillSound_iff_latin :
    ListedFillSound asciiPlatform asciiOrIdeograph (oneFieldInput "First-Name")
      ⟨.listed, ["first name"], 1⟩ := by
  refine (listedFillSound_iff asciiOrIdeograph (fun c hc => by simp [asciiOrIdeograph, hc])
    (oneFieldInput "First-Name") none rfl ⟨.listed, ["first name"], 1⟩ rfl).2 ?_
  intro field hf committed hc _ _
  rw [committedFields_oneFieldInput] at hc
  rw [List.mem_singleton.1 hf, List.mem_singleton.1 hc]
  decide +kernel

/-- **A commit of another field.** The two listed names and the committed one have the same normal
form, the empty text. -/
theorem listedFill_ideographs :
    ¬ ListedFillSound asciiPlatform asciiOrIdeograph (oneFieldInput "地址")
      ⟨.listed, ["姓名", "电话"], 1⟩ := by
  intro h
  have hmet : (fillItem (oneFieldInput "地址") ⟨.listed, ["姓名", "电话"], 1⟩).status = .met := by
    decide
  obtain ⟨committed, hc, hsame⟩ := h.1 hmet "姓名" (List.mem_cons_self)
  rw [committedFields_oneFieldInput] at hc
  rw [List.mem_singleton.1 hc] at hsame
  exact absurd hsame (by decide)

end Yantra
