import Yantra.Interaction.Resolution
import Mathlib.Data.List.Lex
import Mathlib.Data.List.Sort

/-!
# Which offer answers a request

`rankAgainstRequested` compares the offers of a widget with the whole request. The strongest tier
with a hit is narrowed by structure alone; what is left is a match where it is one offer, or where
its labels are the same, and then the first in the document, which is disclosed.

## Main definitions

* `tiedAt` — what the structure leaves of the hits of a tier.
* `MarksTell` — labels that are told apart by no mark alone.

## Main results

* `rankAgainstRequested_match` — what a match tells.
* `rankAgainstRequested_perm` — the order of the offers does not matter.
* `rankAgainstRequested_sound_iff` — which labels are never taken for one another.
-/

namespace Yantra

open Ladder List Option

inductive ChoiceTieBreakRung where
  | withinContainer | enabledAndVisible | pageSelected | documentOrder
  deriving DecidableEq

/-- `StructuralChoice`, with the candidate it is about. -/
structure StructuralChoice (τ : Type) where
  candidate : τ
  path : List ℤ
  disabled : Bool
  hidden : Bool
  selected : Bool
  deriving DecidableEq

structure ChoiceSubstitution where
  indistinguishable : ℕ
  position : ℕ
  tieBreak : List ChoiceTieBreakRung
  label : PageText
  deriving DecidableEq

inductive ChoiceOutcome (τ : Type) where
  | unique (choice : StructuralChoice τ) (tieBreak : List ChoiceTieBreakRung)
  | substituted (choice : StructuralChoice τ) (substitution : ChoiceSubstitution)
  | ambiguous (survivors : List (StructuralChoice τ))
  | none

def comparePaths : List ℤ → List ℤ → ℤ
  | l :: left, r :: right => if l - r ≠ 0 then l - r else comparePaths left right
  | left, right => left.length - right.length

/-- Whether one choice is before another in the document, or at its place. -/
def notAfter {τ : Type} (left right : StructuralChoice τ) : Prop :=
  comparePaths left.path right.path ≤ 0

instance {τ : Type} : DecidableRel (@notAfter τ) :=
  fun left right => inferInstanceAs (Decidable (comparePaths left.path right.path ≤ 0))

def choiceRungs (τ : Type) (containerPath : Option (List ℤ)) :
    List (Rung ChoiceTieBreakRung (StructuralChoice τ)) :=
  (match containerPath with
    | some path => [⟨.withinContainer, fun choice => path.isPrefixOf choice.path⟩]
    | none => []) ++
  [⟨.enabledAndVisible, fun choice => !choice.disabled && !choice.hidden⟩,
    ⟨.pageSelected, fun choice => choice.selected⟩]

def resolveIndistinguishableChoice {τ : Type} (label : StructuralChoice τ → PageText)
    (normalize : PageText → PageText) (containerPath : Option (List ℤ))
    (candidates : List (StructuralChoice τ)) : ChoiceOutcome τ :=
  let climbed := climb (choiceRungs τ containerPath) (candidates, [])
  match climbed.1 with
  | [] => .none
  | [choice] => .unique choice climbed.2
  | first :: others =>
    if others.any fun choice => normalize (label choice) ≠ normalize (label first) then
      .ambiguous (first :: others)
    else
      match (first :: others).insertionSort notAfter with
      | [] => .none
      | choice :: _ => .substituted choice
          ⟨(first :: others).length, 1, climbed.2 ++ [.documentOrder], label choice⟩

/-! ## Ranking -/

structure RankableOption where
  name : PageText
  disabled : Bool := false
  hidden : Bool := false
  selected : Bool := false
  path : Option (List ℤ) := none
  deriving DecidableEq

inductive QueryRank (τ : Type) where
  | found (candidate : τ) (substitution : Option ChoiceSubstitution)
  | ambiguous (offered : List PageText)
  | none (offered : List PageText)
  deriving DecidableEq

def MAX_RANKED_OFFERED : ℕ := 10

section

variable {τ : Type} (pf : TextPlatform) (facts : τ → RankableOption)

def namedOffers (candidates : List τ) : List τ :=
  candidates.filter fun candidate => notBlank pf (facts candidate).name

def usableOffers (candidates : List τ) : List τ :=
  (namedOffers pf facts candidates).filter fun candidate =>
    !(facts candidate).disabled && !(facts candidate).hidden

def reported (candidates : List τ) : List PageText :=
  (candidates.take MAX_RANKED_OFFERED).map fun candidate => (facts candidate).name

def offersAt (requested : PageText) (candidates : List τ) (tier : NameTier) : List τ :=
  (namedOffers pf facts candidates).filter fun candidate =>
    matchesTier pf (facts candidate).name (normalizeText pf requested)
      (tokensOf (normalizeText pf requested)) tier

/-- A candidate with its structure; without a path, its place among the hits is its path. -/
def structuralChoice (candidate : τ) (index : ℕ) : StructuralChoice τ where
  candidate := candidate
  path := (facts candidate).path.getD [(index : ℤ)]
  disabled := (facts candidate).disabled
  hidden := (facts candidate).hidden
  selected := (facts candidate).selected

/-- The candidates with their structure. -/
def structuralChoices (hits : List τ) : List (StructuralChoice τ) :=
  hits.zipIdx.map fun hit => structuralChoice facts hit.1 hit.2

/-- Try the tiers one after another. -/
def rankAtTiers (requested : PageText) (containerPath : Option (List ℤ)) (candidates : List τ) :
    List NameTier → QueryRank τ
  | [] => .none (reported facts (usableOffers pf facts candidates))
  | tier :: tiers =>
    let hits := offersAt pf facts requested candidates tier
    if hits.isEmpty then rankAtTiers requested containerPath candidates tiers
    else
      match resolveIndistinguishableChoice (fun choice => (facts choice.candidate).name)
          (normalizeText pf) containerPath (structuralChoices facts hits) with
      | .ambiguous survivors => .ambiguous (reported facts (survivors.map (·.candidate)))
      | .unique choice _ =>
        if (facts choice.candidate).disabled || (facts choice.candidate).hidden then
          .none (reported facts (usableOffers pf facts candidates))
        else .found choice.candidate none
      | .substituted choice substitution =>
        if (facts choice.candidate).disabled || (facts choice.candidate).hidden then
          .none (reported facts (usableOffers pf facts candidates))
        else .found choice.candidate (some substitution)
      | .none => rankAtTiers requested containerPath candidates tiers

def rankAgainstRequested (candidates : List τ) (requested : PageText)
    (containerPath : Option (List ℤ)) : QueryRank τ :=
  if (normalizeText pf requested).isEmpty then
    .none (reported facts (usableOffers pf facts candidates))
  else rankAtTiers pf facts requested containerPath candidates MATCH_TIERS

/-! ## What a ranking should tell -/

def IsStrongestOffered (requested : PageText) (candidates : List τ) (tier : NameTier) : Prop :=
  ∃ stronger weaker, MATCH_TIERS = stronger ++ tier :: weaker ∧
    (∀ t ∈ stronger, offersAt pf facts requested candidates t = []) ∧
    offersAt pf facts requested candidates tier ≠ []

/-- What the structure leaves of the hits of a tier, and the rungs that narrowed them. -/
def tiedAt (requested : PageText) (containerPath : Option (List ℤ)) (candidates : List τ)
    (tier : NameTier) : List (StructuralChoice τ) × List ChoiceTieBreakRung :=
  climb (choiceRungs τ containerPath)
    (structuralChoices facts (offersAt pf facts requested candidates tier), [])

/-- One offer is left, or the first in the document of several with one normalized label, which is
disclosed. -/
def SettledFairly (choice : StructuralChoice τ) (substitution : Option ChoiceSubstitution)
    (tied : List (StructuralChoice τ) × List ChoiceTieBreakRung) : Prop :=
  tied.1 = [choice] ∧ substitution = none ∨
    2 ≤ tied.1.length ∧ choice ∈ tied.1 ∧ (∀ other ∈ tied.1, notAfter choice other) ∧
    (∀ other ∈ tied.1, normalizeText pf (facts other.candidate).name =
      normalizeText pf (facts choice.candidate).name) ∧
    substitution = some ⟨tied.1.length, 1, tied.2 ++ [.documentOrder],
      (facts choice.candidate).name⟩

/-- Two offers that are tied have the same label, up to case, punctuation and spacing. -/
def SameLabels (tied : List (StructuralChoice τ)) : Prop :=
  ∀ choice ∈ tied, ∀ other ∈ tied,
    spokenText pf (facts choice.candidate).name = spokenText pf (facts other.candidate).name

end

/-- No two of the labels have one normalized text and differ by a mark. -/
def MarksTell (pf : TextPlatform) (labels : List PageText) : Prop :=
  ∀ a ∈ labels, ∀ b ∈ labels, notBlank pf a → notBlank pf b →
    normalizeText pf a = normalizeText pf b → normalizeText pf a ≠ [] →
    spokenText pf a = spokenText pf b

/-! ## The order of the document -/

lemma comparePaths_swap (left right : List ℤ) :
    comparePaths right left = -comparePaths left right := by
  induction left generalizing right with
  | nil => cases right <;> simp [comparePaths]
  | cons l left ih =>
    cases right with
    | nil => simp [comparePaths]
    | cons r right =>
      rw [comparePaths, comparePaths, ih]
      split_ifs <;> omega

variable {left right : List ℤ}

lemma comparePaths_neg_iff : comparePaths left right < 0 ↔ left < right := by
  induction left generalizing right with
  | nil =>
    cases right with
    | nil => simp [comparePaths]
    | cons r right =>
      simp only [comparePaths, length_nil, length_cons]
      exact iff_of_true (by omega) (nil_lt_cons r right)
  | cons l left ih =>
    cases right with
    | nil =>
      simp only [comparePaths, length_cons, length_nil]
      exact iff_of_false (by omega) (not_lt_nil _)
    | cons r right =>
      have hcons : l :: left < r :: right ↔ l < r ∨ l = r ∧ left < right := cons_lt_cons_iff
      rw [comparePaths, hcons]
      split_ifs with hne
      · constructor
        · exact fun h => .inl (by omega)
        · rintro (h | ⟨h, -⟩) <;> omega
      · rw [ih]
        constructor
        · exact fun h => .inr ⟨by omega, h⟩
        · rintro (h | ⟨-, h⟩)
          · omega
          · exact h

lemma comparePaths_nonpos_iff :
    comparePaths left right ≤ 0 ↔ left ≤ right := by
  rw [← not_lt, ← not_lt, ← comparePaths_neg_iff, comparePaths_swap left right]
  omega

section

variable {τ : Type}

instance : IsTrans (StructuralChoice τ) notAfter where
  trans _ _ _ hab hbc :=
    comparePaths_nonpos_iff.2
      (le_trans (comparePaths_nonpos_iff.1 hab) (comparePaths_nonpos_iff.1 hbc))

instance : Std.Total (@notAfter τ) where
  total a b := (le_total a.path b.path).imp comparePaths_nonpos_iff.2 comparePaths_nonpos_iff.2

lemma head_insertionSort {pool rest : List (StructuralChoice τ)} {choice : StructuralChoice τ}
    (h : pool.insertionSort notAfter = choice :: rest) :
    choice ∈ pool ∧ ∀ other ∈ pool, notAfter choice other := by
  have hsorted := pairwise_insertionSort (r := notAfter) pool
  rw [h, pairwise_cons] at hsorted
  have hmem : ∀ other, other ∈ pool ↔ other ∈ choice :: rest := fun other => by
    rw [← h, mem_insertionSort]
  refine ⟨(hmem choice).2 mem_cons_self, fun other hother => ?_⟩
  rcases mem_cons.1 ((hmem other).1 hother) with rfl | hrest
  · exact comparePaths_nonpos_iff.2 le_rfl
  · exact hsorted.1 other hrest

end

/-! ## Matches -/

section

variable {τ : Type} {pf : TextPlatform} {facts : τ → RankableOption} {requested : PageText}
  {containerPath : Option (List ℤ)} {candidates : List τ} {tier : NameTier}

lemma holdsAt_ne_nil {actual wanted : PageText} (hwanted : wanted ≠ [])
    (h : holdsAt actual wanted (tokensOf wanted) tier) : actual ≠ [] := by
  rintro rfl
  cases tier with
  | exact => exact hwanted (of_decide_eq_true h).symm
  | leading => exact hwanted (prefix_nil.1 ( isPrefixOf_iff_prefix.1 h))
  | substring => exact hwanted (infix_nil.1 (of_decide_eq_true h))
  | allTokens =>
    rw [holdsAt] at h
    split at h
    next => cases h
    next hsome =>
      have hall := List.all_eq_true.1 h
      cases hwords : tokensOf wanted with
      | nil => exact hsome (List.isEmpty_iff.2 hwords)
      | cons token tokens =>
        have hin := hall token (by simp [hwords])
        simp [tokensOf, tokensFrom] at hin

variable {choice : StructuralChoice τ}

variable {hits : List τ}

lemma structural_of_mem (h : choice ∈ structuralChoices facts hits) :
    choice.candidate ∈ hits ∧ choice.disabled = (facts choice.candidate).disabled ∧
      choice.hidden = (facts choice.candidate).hidden := by
  obtain ⟨⟨candidate, index⟩, hmem, rfl⟩ := List.mem_map.1 h
  exact ⟨fst_mem_of_mem_zipIdx hmem, rfl, rfl⟩

lemma resolveIndistinguishableChoice_spec {label : StructuralChoice τ → PageText}
    {normalize : PageText → PageText} {choices pool : List (StructuralChoice τ)}
    {used : List ChoiceTieBreakRung} (hne : choices ≠ [])
    (hclimb : climb (choiceRungs τ containerPath) (choices, []) = (pool, used)) :
    (∃ choice, pool = [choice] ∧
        resolveIndistinguishableChoice label normalize containerPath choices =
          .unique choice used) ∨
      (2 ≤ pool.length ∧ ∃ choice ∈ pool, (∀ other ∈ pool, notAfter choice other) ∧
        (∀ other ∈ pool, normalize (label other) = normalize (label choice)) ∧
        resolveIndistinguishableChoice label normalize containerPath choices =
          .substituted choice ⟨pool.length, 1, used ++ [.documentOrder], label choice⟩) ∨
      2 ≤ pool.length ∧
        (∃ choice ∈ pool, ∃ other ∈ pool, normalize (label choice) ≠ normalize (label other)) ∧
        resolveIndistinguishableChoice label normalize containerPath choices = .ambiguous pool := by
  have hsome := @climb_ne_nil _ _ (choiceRungs τ containerPath) (choices, []) hne
  unfold resolveIndistinguishableChoice
  rw [hclimb] at hsome ⊢
  dsimp only at hsome ⊢
  match pool, hsome with
  | [choice], _ => exact .inl ⟨choice, rfl, rfl⟩
  | first :: second :: others, _ =>
    right
    dsimp only
    split
    next hany =>
      obtain ⟨other, hother, hdiffer⟩ := List.any_eq_true.1 hany
      exact .inr ⟨by simp, ⟨other, mem_cons_of_mem first hother, first, mem_cons_self,
        by simpa using hdiffer⟩, rfl⟩
    next hall =>
      have hsame : ∀ other ∈ first :: second :: others,
          normalize (label other) = normalize (label first) := by
        refine forall_mem_cons.2 ⟨rfl, fun other hother => ?_⟩
        by_contra hdiffer
        exact hall (List.any_eq_true.2 ⟨other, hother, by simpa using hdiffer⟩)
      split
      next hnil =>
        have hlength := length_insertionSort (r := notAfter) (first :: second :: others)
        rw [hnil] at hlength
        cases hlength
      next choice rest hsorted =>
        obtain ⟨hmem, hfirst⟩ := head_insertionSort hsorted
        exact .inl ⟨by simp, choice, hmem, hfirst,
          fun other hother => (hsame other hother).trans (hsame choice hmem).symm, rfl⟩

variable {substitution : Option ChoiceSubstitution}

lemma SettledFairly.same {tied : List (StructuralChoice τ) × List ChoiceTieBreakRung}
    (h : SettledFairly pf facts choice substitution tied) :
    choice ∈ tied.1 ∧ ∀ other ∈ tied.1, normalizeText pf (facts other.candidate).name =
      normalizeText pf (facts choice.candidate).name := by
  rcases h with ⟨honly, -⟩ | ⟨-, hmem, -, hsame, -⟩
  · rw [honly]
    refine ⟨mem_singleton_self _, fun other hother => ?_⟩
    rw [mem_singleton.1 hother]
  · exact ⟨hmem, hsame⟩

lemma rankAtTiers_cases (tiers : List NameTier) :
    (∃ stronger tier weaker, tiers = stronger ++ tier :: weaker ∧
        (∀ t ∈ stronger, offersAt pf facts requested candidates t = []) ∧
        offersAt pf facts requested candidates tier ≠ [] ∧
        ((∃ choice substitution, SettledFairly pf facts choice substitution
            (tiedAt pf facts requested containerPath candidates tier) ∧
          rankAtTiers pf facts requested containerPath candidates tiers =
            if (facts choice.candidate).disabled || (facts choice.candidate).hidden then
              .none (reported facts (usableOffers pf facts candidates))
            else .found choice.candidate substitution) ∨
          (∃ choice ∈ (tiedAt pf facts requested containerPath candidates tier).1,
            ∃ other ∈ (tiedAt pf facts requested containerPath candidates tier).1,
              normalizeText pf (facts choice.candidate).name ≠
                normalizeText pf (facts other.candidate).name) ∧
          rankAtTiers pf facts requested containerPath candidates tiers =
            .ambiguous (reported facts ((tiedAt pf facts requested containerPath candidates
              tier).1.map (·.candidate))))) ∨
      (∀ t ∈ tiers, offersAt pf facts requested candidates t = []) ∧
        rankAtTiers pf facts requested containerPath candidates tiers =
          .none (reported facts (usableOffers pf facts candidates)) := by
  induction tiers with
  | nil => exact .inr ⟨fun t ht => (nomatch ht), rfl⟩
  | cons tier tiers ih =>
    by_cases hnil : offersAt pf facts requested candidates tier = []
    · have hnext : rankAtTiers pf facts requested containerPath candidates (tier :: tiers) =
          rankAtTiers pf facts requested containerPath candidates tiers := by
        rw [rankAtTiers, if_pos (List.isEmpty_iff.2 hnil)]
      rcases ih with ⟨stronger, t, weaker, rfl, hno, hhit, hout⟩ | ⟨hno, hnone⟩
      · left
        rw [hnext]
        exact ⟨tier :: stronger, t, weaker, rfl, forall_mem_cons.2 ⟨hnil, hno⟩, hhit, hout⟩
      · exact .inr ⟨forall_mem_cons.2 ⟨hnil, hno⟩, hnext.trans hnone⟩
    · refine .inl ⟨[], tier, tiers, rfl, fun t ht => (nomatch ht), hnil, ?_⟩
      have hchoices : structuralChoices facts (offersAt pf facts requested candidates tier) ≠ [] := by
        simpa [structuralChoices] using hnil
      rw [rankAtTiers, if_neg (by simpa using hnil)]
      rcases @resolveIndistinguishableChoice_spec τ containerPath
          (fun choice => (facts choice.candidate).name) (normalizeText pf) _ _ _ hchoices rfl with
        ⟨choice, honly, heq⟩ | ⟨hlength, choice, hmem, hfirst, hsame, heq⟩ | ⟨-, hdiffer, heq⟩
      · left
        rw [heq]
        exact ⟨choice, none, .inl ⟨honly, rfl⟩, rfl⟩
      · left
        rw [heq]
        exact ⟨choice, _, .inr ⟨hlength, hmem, hfirst, hsame, rfl⟩, rfl⟩
      · right
        rw [heq]
        exact ⟨hdiffer, rfl⟩

lemma IsStrongestOffered.unique {tier' : NameTier}
    (h : IsStrongestOffered pf facts requested candidates tier)
    (h' : IsStrongestOffered pf facts requested candidates tier') : tier = tier' := by
  have hfind : ∀ t, IsStrongestOffered pf facts requested candidates t →
      MATCH_TIERS.find? (fun t => !(offersAt pf facts requested candidates t).isEmpty) =
        some t := by
    rintro t ⟨stronger, weaker, htiers, hno, hhit⟩
    rw [find?_eq_some_iff_append]
    exact ⟨by simpa using hhit, stronger, weaker, htiers, fun t ht => by simpa using hno t ht⟩
  exact some.inj ((hfind tier h).symm.trans (hfind tier' h'))

lemma rankAgainstRequested_cases :
    (∃ tier, IsStrongestOffered pf facts requested candidates tier ∧
      normalizeText pf requested ≠ [] ∧
      ((∃ choice substitution, SettledFairly pf facts choice substitution
          (tiedAt pf facts requested containerPath candidates tier) ∧
        rankAgainstRequested pf facts candidates requested containerPath =
          if (facts choice.candidate).disabled || (facts choice.candidate).hidden then
            .none (reported facts (usableOffers pf facts candidates))
          else .found choice.candidate substitution) ∨
        (∃ choice ∈ (tiedAt pf facts requested containerPath candidates tier).1,
          ∃ other ∈ (tiedAt pf facts requested containerPath candidates tier).1,
            normalizeText pf (facts choice.candidate).name ≠
              normalizeText pf (facts other.candidate).name) ∧
        rankAgainstRequested pf facts candidates requested containerPath =
          .ambiguous (reported facts ((tiedAt pf facts requested containerPath candidates
            tier).1.map (·.candidate))))) ∨
    (normalizeText pf requested = [] ∨
        ∀ tier, ¬ IsStrongestOffered pf facts requested candidates tier) ∧
      rankAgainstRequested pf facts candidates requested containerPath =
        .none (reported facts (usableOffers pf facts candidates)) := by
  by_cases hwanted : normalizeText pf requested = []
  · exact .inr ⟨.inl hwanted, if_pos (List.isEmpty_iff.2 hwanted)⟩
  · have hrank : rankAgainstRequested pf facts candidates requested containerPath =
        rankAtTiers pf facts requested containerPath candidates MATCH_TIERS :=
      if_neg fun h => hwanted (List.isEmpty_iff.1 h)
    rw [hrank]
    rcases @rankAtTiers_cases τ pf facts requested containerPath candidates MATCH_TIERS with
      ⟨stronger, tier, weaker, htiers, hno, hhit, hout⟩ | ⟨hno, hnone⟩
    · exact .inl ⟨tier, ⟨stronger, weaker, htiers, hno, hhit⟩, hwanted, hout⟩
    · refine .inr ⟨.inr ?_, hnone⟩
      rintro tier ⟨stronger, weaker, htiers, -, hhit⟩
      exact hhit (hno tier (by simp [htiers]))

lemma mem_offersAt_of_mem_tiedAt
    (h : choice ∈ (tiedAt pf facts requested containerPath candidates tier).1) :
    choice.candidate ∈ offersAt pf facts requested candidates tier :=
  (structural_of_mem ((climb_sublist _ _).mem h)).1

/-- **What a match tells**: an enabled and visible offer of the strongest tier with a hit, the only
one the structure leaves, or disclosed as the first in the document of several with one normalized
label. -/
theorem rankAgainstRequested_match {candidate : τ}
    (h : rankAgainstRequested pf facts candidates requested containerPath =
      .found candidate substitution) :
    (facts candidate).disabled = false ∧ (facts candidate).hidden = false ∧
      ∃ tier choice, IsStrongestOffered pf facts requested candidates tier ∧
        candidate ∈ offersAt pf facts requested candidates tier ∧ choice.candidate = candidate ∧
        SettledFairly pf facts choice substitution
          (tiedAt pf facts requested containerPath candidates tier) := by
  rcases @rankAgainstRequested_cases τ pf facts requested containerPath candidates with
    ⟨tier, hstrongest, -, ⟨choice, sub, hfair, heq⟩ | ⟨-, heq⟩⟩ | ⟨-, heq⟩
  · rw [heq] at h
    split at h
    next => cases h
    next husable =>
      cases h
      rw [Bool.or_eq_true, not_or, Bool.not_eq_true, Bool.not_eq_true] at husable
      exact ⟨husable.1, husable.2, tier, choice, hstrongest,
        mem_offersAt_of_mem_tiedAt hfair.same.1, rfl, hfair⟩
  · rw [heq] at h
    cases h
  · rw [heq] at h
    cases h

/-! ## The order of the offers -/

/-- The offers all have a path, each its own. -/
def DistinctPaths (facts : τ → RankableOption) (candidates : List τ) : Prop :=
  (∀ candidate ∈ candidates, (facts candidate).path ≠ none) ∧
    (candidates.map fun candidate => (facts candidate).path).Nodup

/-- Both lists are ranked the same: with one match, or with none and the first labels of one
collection of offers reported, in the order of each list. -/
def RankedAlike (pf : TextPlatform) (facts : τ → RankableOption) (requested : PageText)
    (containerPath : Option (List ℤ)) (candidates candidates' : List τ) : Prop :=
  (∃ candidate substitution,
      rankAgainstRequested pf facts candidates requested containerPath =
        .found candidate substitution ∧
      rankAgainstRequested pf facts candidates' requested containerPath =
        .found candidate substitution) ∨
    ((usableOffers pf facts candidates).Perm (usableOffers pf facts candidates') ∧
      rankAgainstRequested pf facts candidates requested containerPath =
        .none (reported facts (usableOffers pf facts candidates)) ∧
      rankAgainstRequested pf facts candidates' requested containerPath =
        .none (reported facts (usableOffers pf facts candidates'))) ∨
    ∃ tier, IsStrongestOffered pf facts requested candidates tier ∧
      IsStrongestOffered pf facts requested candidates' tier ∧
      (tiedAt pf facts requested containerPath candidates tier).1.Perm
        (tiedAt pf facts requested containerPath candidates' tier).1 ∧
      rankAgainstRequested pf facts candidates requested containerPath =
        .ambiguous (reported facts
          ((tiedAt pf facts requested containerPath candidates tier).1.map (·.candidate))) ∧
      rankAgainstRequested pf facts candidates' requested containerPath =
        .ambiguous (reported facts
          ((tiedAt pf facts requested containerPath candidates' tier).1.map (·.candidate)))

variable {candidates' : List τ}

lemma offersAt_perm (h : candidates.Perm candidates') (tier : NameTier) :
    (offersAt pf facts requested candidates tier).Perm
      (offersAt pf facts requested candidates' tier) := (h.filter _).filter _

lemma IsStrongestOffered.perm (h : IsStrongestOffered pf facts requested candidates tier)
    (hperm : candidates.Perm candidates') :
    IsStrongestOffered pf facts requested candidates' tier := by
  have hhits : ∀ t, (offersAt pf facts requested candidates t).Perm
      (offersAt pf facts requested candidates' t) := fun t => offersAt_perm hperm t
  obtain ⟨stronger, weaker, htiers, hno, hhit⟩ := h
  refine ⟨stronger, weaker, htiers, fun t ht => ?_, fun hnil => hhit ?_⟩
  · have hperm' := hhits t
    rw [hno t ht] at hperm'
    exact hperm'.symm.eq_nil
  · have hperm' := hhits tier
    rw [hnil] at hperm'
    exact hperm'.eq_nil

lemma structuralChoices_eq_map (h : ∀ hit ∈ hits, (facts hit).path ≠ none) :
    structuralChoices facts hits = hits.map fun hit => structuralChoice facts hit 0 := by
  have hcongr : structuralChoices facts hits =
      hits.zipIdx.map ((fun hit => structuralChoice facts hit 0) ∘ Prod.fst) := by
    refine map_congr_left fun hit hmem => ?_
    obtain ⟨path, hpath⟩ := ne_none_iff_exists'.1 (h hit.1 (fst_mem_of_mem_zipIdx hmem))
    simp [structuralChoice, hpath]
  rw [hcongr, ← List.map_map, zipIdx_map_fst]

lemma tiedAt_perm (hperm : candidates.Perm candidates') (hpaths : DistinctPaths facts candidates)
    (tier : NameTier) :
    (tiedAt pf facts requested containerPath candidates tier).1.Perm
        (tiedAt pf facts requested containerPath candidates' tier).1 ∧
      (tiedAt pf facts requested containerPath candidates tier).2 =
        (tiedAt pf facts requested containerPath candidates' tier).2 := by
  have hmem : ∀ hit ∈ offersAt pf facts requested candidates tier, hit ∈ candidates :=
    fun hit h => mem_of_mem_filter (mem_of_mem_filter h)
  have hhits := @offersAt_perm τ pf facts requested candidates candidates' hperm tier
  unfold tiedAt
  rw [structuralChoices_eq_map fun hit h => hpaths.1 hit (hmem hit h),
    structuralChoices_eq_map fun hit h => hpaths.1 hit (hmem hit (hhits.symm.subset h))]
  exact climb_perm _ (hhits.map _) []

lemma eq_of_path_eq (hpaths : DistinctPaths facts candidates) {choice other : StructuralChoice τ}
    (hchoice : choice ∈ (tiedAt pf facts requested containerPath candidates tier).1)
    (hother : other ∈ (tiedAt pf facts requested containerPath candidates tier).1)
    (heq : choice.path = other.path) : choice = other := by
  have hmem : ∀ hit ∈ offersAt pf facts requested candidates tier, hit ∈ candidates :=
    fun hit h => mem_of_mem_filter (mem_of_mem_filter h)
  have hstructural : ∀ c ∈ (tiedAt pf facts requested containerPath candidates tier).1,
      ∃ hit ∈ candidates, structuralChoice facts hit 0 = c ∧ (facts hit).path = some c.path := by
    intro c hc
    have hc' := (climb_sublist _ _).mem hc
    rw [structuralChoices_eq_map fun hit h => hpaths.1 hit (hmem hit h)] at hc'
    obtain ⟨hit, hhit, rfl⟩ := List.mem_map.1 hc'
    obtain ⟨path, hpath⟩ := ne_none_iff_exists'.1 (hpaths.1 hit (hmem hit hhit))
    exact ⟨hit, hmem hit hhit, rfl, by simp [structuralChoice, hpath]⟩
  obtain ⟨hit, hhit, rfl, hpath⟩ := hstructural choice hchoice
  obtain ⟨hit', hhit', rfl, hpath'⟩ := hstructural other hother
  rw [← heq, ← hpath] at hpath'
  rw [inj_on_of_nodup_map hpaths.2 hhit hhit' hpath'.symm]

lemma SettledFairly.unique {choice choice' : StructuralChoice τ}
    {substitution substitution' : Option ChoiceSubstitution}
    {tied tied' : List (StructuralChoice τ) × List ChoiceTieBreakRung}
    (h : SettledFairly pf facts choice substitution tied)
    (h' : SettledFairly pf facts choice' substitution' tied') (hperm : tied.1.Perm tied'.1)
    (hused : tied.2 = tied'.2) (hinj : ∀ c ∈ tied.1, ∀ c' ∈ tied.1, c.path = c'.path → c = c') :
    choice = choice' ∧ substitution = substitution' := by
  rcases h with ⟨honly, rfl⟩ | ⟨hlength, hmem, hfirst, -, rfl⟩
  · rcases h' with ⟨honly', rfl⟩ | ⟨hlength', -⟩
    · rw [honly, honly', singleton_perm_singleton] at hperm
      exact ⟨hperm, rfl⟩
    · rw [← hperm.length_eq, honly] at hlength'
      exact absurd hlength' (Nat.not_succ_le_self 1)
  · rcases h' with ⟨honly', -⟩ | ⟨-, hmem', hfirst', -, rfl⟩
    · rw [hperm.length_eq, honly'] at hlength
      exact absurd hlength (Nat.not_succ_le_self 1)
    · have hpath : choice.path = choice'.path := le_antisymm
        (comparePaths_nonpos_iff.1 (hfirst choice' (hperm.symm.subset hmem')))
        (comparePaths_nonpos_iff.1 (hfirst' choice (hperm.subset hmem)))
      obtain rfl := hinj choice hmem choice' (hperm.symm.subset hmem') hpath
      rw [hperm.length_eq, hused]
      exact ⟨rfl, rfl⟩

/-- **The order of the offers does not matter** where each has a path of its own. -/
theorem rankAgainstRequested_perm (hperm : candidates.Perm candidates')
    (hpaths : DistinctPaths facts candidates) :
    RankedAlike pf facts requested containerPath candidates candidates' := by
  have husable : (usableOffers pf facts candidates).Perm (usableOffers pf facts candidates') :=
    (hperm.filter _).filter _
  have htied := @tiedAt_perm τ pf facts requested containerPath candidates candidates' hperm hpaths
  rcases @rankAgainstRequested_cases τ pf facts requested containerPath candidates with
    ⟨tier, hstrongest, hwanted, hout⟩ | ⟨hwhy, hnone⟩
  · obtain ⟨tier', hstrongest', -, hout'⟩ | ⟨hwhy', -⟩ :=
      @rankAgainstRequested_cases τ pf facts requested containerPath candidates'
    · obtain rfl := (hstrongest.perm hperm).unique hstrongest'
      obtain ⟨hpool, hused⟩ := htied tier
      rcases hout with ⟨choice, sub, hfair, heq⟩ | ⟨⟨c, hc, o, ho, hdiffer⟩, heq⟩
      · rcases hout' with ⟨choice', sub', hfair', heq'⟩ | ⟨⟨c, hc, o, ho, hdiffer⟩, -⟩
        · obtain ⟨rfl, rfl⟩ := hfair.unique hfair' hpool hused
            fun c hc c' hc' => eq_of_path_eq hpaths hc hc'
          split at heq
          next hno =>
            rw [if_pos hno] at heq'
            exact .inr (.inl ⟨husable, heq, heq'⟩)
          next hyes =>
            rw [if_neg hyes] at heq'
            exact .inl ⟨_, _, heq, heq'⟩
        · have hsame := hfair.same.2
          exact absurd ((hsame c (hpool.symm.subset hc)).trans (hsame o (hpool.symm.subset ho)).symm)
            hdiffer
      · rcases hout' with ⟨choice', sub', hfair', -⟩ | ⟨-, heq'⟩
        · have hsame := hfair'.same.2
          exact absurd ((hsame c (hpool.subset hc)).trans (hsame o (hpool.subset ho)).symm) hdiffer
        · exact .inr (.inr ⟨tier, hstrongest, hstrongest', hpool, heq, heq'⟩)
    · rcases hwhy' with hblank | hno
      · exact absurd hblank hwanted
      · exact absurd (hstrongest.perm hperm) (hno tier)
  · rcases @rankAgainstRequested_cases τ pf facts requested containerPath candidates' with
      ⟨tier', hstrongest', hwanted', -⟩ | ⟨-, hnone'⟩
    · rcases hwhy with hblank | hno
      · exact absurd hblank hwanted'
      · exact absurd (hstrongest'.perm hperm.symm) (hno tier')
    · exact .inr (.inl ⟨husable, hnone, hnone'⟩)

end

/-! ## Labels that are taken for one another -/

section

variable {pf : TextPlatform}

def plainOffer (label : PageText) : RankableOption where
  name := label

lemma climb_plainOffers (hits : List PageText) :
    climb (choiceRungs PageText none) (structuralChoices plainOffer hits, []) =
      (structuralChoices plainOffer hits, []) := by
  have hflags : ∀ choice ∈ structuralChoices plainOffer hits,
      choice.disabled = false ∧ choice.hidden = false ∧ choice.selected = false := by
    intro choice hmem
    obtain ⟨hit, -, rfl⟩ := List.mem_map.1 hmem
    exact ⟨rfl, rfl, rfl⟩
  have henabled : (structuralChoices plainOffer hits).filter
      (fun choice => !choice.disabled && !choice.hidden) = structuralChoices plainOffer hits :=
    filter_eq_self.2 fun choice hmem => by simp [hflags choice hmem]
  have hselected : (structuralChoices plainOffer hits).filter (fun choice => choice.selected) =
      [] := filter_eq_nil_iff.2 fun choice hmem => by simp [hflags choice hmem]
  simp [choiceRungs, climb, Rung.apply, henabled, hselected]

lemma tied_plainOffers {labels : List PageText} {a b : PageText} (ha : a ∈ labels) (hb : b ∈ labels)
    (haName : notBlank pf a) (hbName : notBlank pf b)
    (hsame : normalizeText pf a = normalizeText pf b) (hsome : normalizeText pf a ≠ []) :
    ∃ candidate substitution, rankAgainstRequested pf plainOffer labels a none =
        .found candidate substitution ∧
      IsStrongestOffered pf plainOffer a labels .exact ∧
      ∃ choice ∈ (tiedAt pf plainOffer a none labels .exact).1,
        ∃ other ∈ (tiedAt pf plainOffer a none labels .exact).1,
          choice.candidate = a ∧ other.candidate = b := by
  have hit : ∀ c, c ∈ offersAt pf plainOffer a labels .exact ↔
      (c ∈ labels ∧ notBlank pf c) ∧ normalizeText pf c = normalizeText pf a := by
    intro c
    rw [offersAt, namedOffers, mem_filter, mem_filter]
    exact and_congr_right fun _ => decide_eq_true_iff
  have hstrongest : IsStrongestOffered pf plainOffer a labels .exact :=
    ⟨[], _, rfl, fun t ht => (nomatch ht),
      ne_nil_of_mem ((hit a).2 ⟨⟨ha, haName⟩, rfl⟩)⟩
  have htied : (tiedAt pf plainOffer a none labels .exact).1 =
      structuralChoices plainOffer (offersAt pf plainOffer a labels .exact) := by
    rw [tiedAt, climb_plainOffers]
  have hmem : ∀ c ∈ offersAt pf plainOffer a labels .exact,
      ∃ choice ∈ (tiedAt pf plainOffer a none labels .exact).1, choice.candidate = c := by
    intro c hc
    obtain ⟨index, hindex⟩ := mem_iff_getElem?.1 hc
    rw [htied]
    exact ⟨_, List.mem_map_of_mem (mk_mem_zipIdx_iff_getElem?.2 hindex), rfl⟩
  obtain ⟨choice, hchoice, hca⟩ := hmem a ((hit a).2 ⟨⟨ha, haName⟩, rfl⟩)
  obtain ⟨other, hother, hob⟩ := hmem b ((hit b).2 ⟨⟨hb, hbName⟩, hsame.symm⟩)
  have hlabel : ∀ c ∈ (tiedAt pf plainOffer a none labels .exact).1,
      normalizeText pf (plainOffer c.candidate).name = normalizeText pf a :=
    fun c hc => ((hit c.candidate).1 (mem_offersAt_of_mem_tiedAt hc)).2
  rcases @rankAgainstRequested_cases _ pf plainOffer a none labels with
    ⟨tier, hstrongest', -, ⟨found, sub, -, heq⟩ | ⟨⟨c, hc, o, ho, hdiffer⟩, -⟩⟩ | ⟨hwhy, -⟩
  · exact ⟨found.candidate, sub, heq.trans (if_neg (by simp [plainOffer])), hstrongest, choice,
      hchoice, other, hother, hca, hob⟩
  · obtain rfl := hstrongest'.unique hstrongest
    exact absurd ((hlabel c hc).trans (hlabel o ho).symm) hdiffer
  · rcases hwhy with hblank | hno
    · exact absurd hblank hsome
    · exact absurd hstrongest (hno .exact)

/-- **Which labels are never taken for one another**: those of which no two have one normalized text
and differ by a mark. -/
theorem rankAgainstRequested_sound_iff (labels : List PageText) :
    (∀ (τ : Type) (facts : τ → RankableOption) candidates requested containerPath candidate
        substitution tier, candidates.map (fun c => (facts c).name) = labels →
      rankAgainstRequested pf facts candidates requested containerPath =
        .found candidate substitution →
      IsStrongestOffered pf facts requested candidates tier →
      SameLabels pf facts (tiedAt pf facts requested containerPath candidates tier).1) ↔
    MarksTell pf labels := by
  constructor
  · intro hsound a ha b hb haName hbName hsame hsome
    obtain ⟨candidate, sub, hfound, hstrongest, choice, hchoice, other, hother, rfl, rfl⟩ :=
      tied_plainOffers ha hb haName hbName hsame hsome
    exact hsound PageText plainOffer labels _ none candidate sub .exact (List.map_id' labels)
      hfound hstrongest choice hchoice other hother
  · rintro htell τ facts candidates requested containerPath candidate sub tier rfl hfound
      hstrongest choice hchoice other hother
    obtain ⟨-, -, tier', settled, hstrongest', -, -, hfair⟩ := rankAgainstRequested_match hfound
    obtain rfl := hstrongest.unique hstrongest'
    have hwanted : normalizeText pf requested ≠ [] := by
      intro hnil
      rw [rankAgainstRequested, if_pos (List.isEmpty_iff.2 hnil)] at hfound
      cases hfound
    have hlabel : ∀ c ∈ (tiedAt pf facts requested containerPath candidates tier).1,
        (facts c.candidate).name ∈ candidates.map (fun c => (facts c).name) ∧
          notBlank pf (facts c.candidate).name ∧
          normalizeText pf (facts c.candidate).name ≠ [] := by
      intro c hc
      obtain ⟨hnamed, hmatch⟩ := mem_filter.1 (mem_offersAt_of_mem_tiedAt hc)
      obtain ⟨hmem, hname⟩ := mem_filter.1 hnamed
      exact ⟨List.mem_map_of_mem hmem, hname, holdsAt_ne_nil hwanted hmatch⟩
    obtain ⟨hmem, hname, hsome⟩ := hlabel choice hchoice
    obtain ⟨hmem', hname', -⟩ := hlabel other hother
    exact htell _ hmem _ hmem' hname hname'
      ((hfair.same.2 choice hchoice).trans (hfair.same.2 other hother).symm) hsome

end

end Yantra
