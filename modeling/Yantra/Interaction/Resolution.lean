import Yantra.Interaction.Text
import Yantra.Lib.CodePoints
import Yantra.Lib.Ladder

/-!
# Which element the caller meant

`resolveInteractable` finds the one element that a field name or a ref means. The tiers are tried
from the strongest on; the first with a hit is narrowed by the tie-break ladder, and what is left
is a match, or several between which it does not choose.

## Main definitions

* `AgentInteractable`, `resolvableNames` — an element with its names.
* `LettersLost`, `Identifies` — a query that normalizing takes something from, and
  one that says a name.

## Main results

* `resolveInteractable_match` — what a match tells.
* `resolveInteractable_perm` — otherwise the order of the elements does not matter.
* `resolveInteractable_sound_iff` — which queries never match what they do not say.
-/

namespace Yantra

open Ladder List

inductive LabelOrigin where
  | explicit | structural | placeholder | title | none
  deriving DecidableEq

/-- `AgentFieldIdentity`, as far as names are resolved by it. -/
structure AgentFieldIdentity where
  label : Option PageText := none
  origin : LabelOrigin
  «section» : Option PageText := none
  deriving DecidableEq

/-- `AgentInteractable`, as far as it is resolved by. -/
structure AgentInteractable where
  field : Option AgentFieldIdentity := none
  ref : PageText
  role : PageText
  name : PageText
  group : Option PageText := none
  disabled : Bool := false
  deriving DecidableEq

/-- `WidgetTarget`, as far as it is resolved by. -/
structure WidgetTarget where
  label : Option PageText := none
  role : PageText
  name : PageText
  group : Option PageText
  deriving DecidableEq

inductive MatchTier where
  | ref
  | byName (tier : NameTier)
  deriving DecidableEq

inductive TieBreakRung where
  | enabled | withinContainer | preferredRole | preferredGroup | sameNameAndRole
  deriving DecidableEq

structure ResolveInteractableOptions where
  /-- `match: 'name'` -/
  byNameOnly : Bool := false
  preferred : Option WidgetTarget := none
  containedRefs : Option (List PageText) := none
  allowEquivalentCopies : Bool := false

inductive Resolution where
  | found (entry : AgentInteractable) (tier : MatchTier) (tieBreak : List TieBreakRung)
  | ambiguous (tier : NameTier) (offered : List AgentInteractable)
  | none (offered : List AgentInteractable)
  deriving DecidableEq

def notBlank (pf : TextPlatform) (text : PageText) : Bool := !(trimText pf text).isEmpty

def resolvableNames (pf : TextPlatform) (entry : AgentInteractable) : List PageText :=
  let label := match entry.field with
    | some field => field.label.getD (if field.origin = .none then [] else entry.name)
    | none => entry.name
  let «section» := (entry.field.bind AgentFieldIdentity.section).or entry.group
  let inSection := match «section» with
    | some context => if context.isEmpty || label.isEmpty then [] else context ++ [32] ++ label
    | none => []
  ([entry.name, label, inSection].filter (notBlank pf)).eraseDups

/-- The names that a query is matched with. -/
def namesOf (pf : TextPlatform) (options : ResolveInteractableOptions) (entry : AgentInteractable) :
    List PageText :=
  if options.byNameOnly then [entry.name] else resolvableNames pf entry

/-- `REF_PATTERN.test(text)` -/
def isRef : PageText → Bool
  | [] => false
  | c :: digits => c = 101 && !digits.isEmpty && digits.all fun d => 48 ≤ d && d ≤ 57

/-- The elements that have a name. -/
def namedIn (pf : TextPlatform) (options : ResolveInteractableOptions)
    (interactables : List AgentInteractable) : List AgentInteractable :=
  interactables.filter fun entry => (namesOf pf options entry).any (notBlank pf)

/-- The elements that a normalized query hits at a tier. -/
def hitsAt (pf : TextPlatform) (options : ResolveInteractableOptions) (wanted : PageText)
    (interactables : List AgentInteractable) (tier : NameTier) : List AgentInteractable :=
  (namedIn pf options interactables).filter fun entry =>
    (namesOf pf options entry).any fun name =>
      matchesTier pf name wanted (tokensOf wanted) tier

def tieBreakRungs (options : ResolveInteractableOptions) :
    List (Rung TieBreakRung AgentInteractable) :=
  ⟨.enabled, fun entry => !entry.disabled⟩ ::
    (match options.containedRefs with
      | some refs =>
        if refs.isEmpty then [] else [⟨.withinContainer, fun entry => refs.contains entry.ref⟩]
      | none => []) ++
    match options.preferred with
      | some preferred => [⟨.preferredRole, fun entry => entry.role = preferred.role⟩,
          ⟨.preferredGroup, fun entry => entry.group = preferred.group⟩]
      | none => []

def identityName (pf : TextPlatform) (name : PageText) (label : Option PageText) : PageText :=
  normalizeText pf (if notBlank pf name then name else label.getD [])

def AgentInteractable.section (entry : AgentInteractable) : Option PageText :=
  entry.field.bind AgentFieldIdentity.section

/-- What tells one control from another: the normalized name, role, section and group. -/
def identityOf (pf : TextPlatform) (entry : AgentInteractable) :
    PageText × PageText × Option PageText × Option PageText :=
  (identityName pf entry.name (entry.field.bind AgentFieldIdentity.label), entry.role,
    entry.section, entry.group)

def matchesPreferredIdentity (pf : TextPlatform) (options : ResolveInteractableOptions)
    (first : AgentInteractable) : Bool :=
  match options.preferred with
  | some preferred =>
    identityName pf preferred.name preferred.label =
        identityName pf first.name (first.field.bind AgentFieldIdentity.label) &&
      preferred.role = first.role && preferred.group = first.group
  | none => false

def narrow (pf : TextPlatform) (hits : List AgentInteractable) (tier : NameTier)
    (options : ResolveInteractableOptions) : Resolution :=
  let climbed := climb (tieBreakRungs options) (hits, [])
  match climbed.1 with
  | [] => .ambiguous tier []
  | [entry] => .found entry (.byName tier) climbed.2
  | first :: others =>
    if options.allowEquivalentCopies &&
        others.all (fun entry => identityOf pf entry = identityOf pf first) &&
        matchesPreferredIdentity pf options first then
      .found first (.byName tier) (climbed.2 ++ [.sameNameAndRole])
    else .ambiguous tier (first :: others)

def resolveInteractable (pf : TextPlatform) (query : PageText)
    (interactables : List AgentInteractable) (options : ResolveInteractableOptions) : Resolution :=
  let trimmed := trimText pf query
  let named := namedIn pf options interactables
  if trimmed.isEmpty then .none named
  else if isRef trimmed then
    match interactables.find? fun entry => entry.ref = trimmed with
    | some entry => .found entry .ref []
    | none => .none named
  else
    let wanted := normalizeText pf trimmed
    match MATCH_TIERS.find? fun tier => !(hitsAt pf options wanted interactables tier).isEmpty with
    | some tier => narrow pf (hitsAt pf options wanted interactables tier) tier options
    | none => .none named

/-! ## What a resolution should tell -/

def IsStrongest (pf : TextPlatform) (options : ResolveInteractableOptions) (wanted : PageText)
    (interactables : List AgentInteractable) (tier : NameTier) : Prop :=
  ∃ stronger weaker, MATCH_TIERS = stronger ++ tier :: weaker ∧
    (∀ t ∈ stronger, hitsAt pf options wanted interactables t = []) ∧
    hitsAt pf options wanted interactables tier ≠ []

def survivorsAt (pf : TextPlatform) (options : ResolveInteractableOptions) (wanted : PageText)
    (interactables : List AgentInteractable) (tier : NameTier) : List AgentInteractable :=
  (climb (tieBreakRungs options) (hitsAt pf options wanted interactables tier, [])).1

/-- Copies are allowed, and all of these are copies of the preferred control. -/
def AreProvenCopies (pf : TextPlatform) (options : ResolveInteractableOptions)
    (survivors : List AgentInteractable) : Prop :=
  options.allowEquivalentCopies = true ∧
    (∀ e ∈ survivors, ∀ e' ∈ survivors, identityOf pf e = identityOf pf e') ∧
    ∀ e ∈ survivors, matchesPreferredIdentity pf options e

/-- The same outcome without a match, up to the order of what is offered. -/
def SameRefusal : Resolution → Resolution → Prop
  | .ambiguous tier offered, .ambiguous tier' offered' => tier = tier' ∧ offered.Perm offered'
  | .none offered, .none offered' => offered.Perm offered'
  | _, _ => False

/-- Normalizing leaves nothing of the query, or takes a mark from it. -/
def LettersLost (pf : TextPlatform) (query : PageText) : Prop :=
  normalizeText pf query = [] ∨ ∃ c ∈ pf.toLocaleLowerCase query, pf.isMark c

/-- The query says the name: it is the same text, or it matches it at some tier with its marks. -/
def Identifies (pf : TextPlatform) (query name : PageText) : Prop :=
  trimText pf name = query ∨ spokenText pf query ≠ [] ∧ ∃ tier,
    holdsAt (spokenText pf name) (spokenText pf query) (tokensOf (spokenText pf query)) tier

/-! ## Matches -/

section

variable {pf : TextPlatform} {options : ResolveInteractableOptions}

lemma matchesPreferredIdentity_congr {e e' : AgentInteractable}
    (h : identityOf pf e = identityOf pf e') :
    matchesPreferredIdentity pf options e = matchesPreferredIdentity pf options e' := by
  simp only [identityOf, Prod.mk.injEq] at h
  unfold matchesPreferredIdentity
  rw [h.1, h.2.1, h.2.2.2]

/-- What `narrow` asks of several survivors. -/
lemma areProvenCopies_iff {first : AgentInteractable} {others : List AgentInteractable} :
    (options.allowEquivalentCopies &&
        others.all (fun entry => identityOf pf entry = identityOf pf first) &&
        matchesPreferredIdentity pf options first) ↔
      AreProvenCopies pf options (first :: others) := by
  simp only [Bool.and_eq_true, all_eq_true, decide_eq_true_eq]
  constructor
  · rintro ⟨⟨hallow, hsame⟩, hpreferred⟩
    have hfirst : ∀ e ∈ first :: others, identityOf pf e = identityOf pf first :=
      forall_mem_cons.2 ⟨rfl, hsame⟩
    refine ⟨hallow, fun e he e' he' => (hfirst e he).trans (hfirst e' he').symm, fun e he => ?_⟩
    rw [matchesPreferredIdentity_congr (hfirst e he)]
    exact hpreferred
  · rintro ⟨hallow, hsame, hpreferred⟩
    exact ⟨⟨hallow, fun e he => hsame e (mem_cons_of_mem first he) first mem_cons_self⟩,
      hpreferred first mem_cons_self⟩

variable {tier : NameTier}

/-- What `narrow` makes of the survivors. -/
lemma narrow_spec {hits survivors : List AgentInteractable} {used : List TieBreakRung}
    (hclimb : climb (tieBreakRungs options) (hits, []) = (survivors, used)) (hne : hits ≠ []) :
    (∃ entry, survivors = [entry] ∧
        narrow pf hits tier options = .found entry (.byName tier) used) ∨
      (∃ entry ∈ survivors, AreProvenCopies pf options survivors ∧ narrow pf hits tier options =
        .found entry (.byName tier) (used ++ [.sameNameAndRole])) ∨
      2 ≤ survivors.length ∧ ¬ AreProvenCopies pf options survivors ∧
        narrow pf hits tier options = .ambiguous tier survivors := by
  have hsome := @climb_ne_nil _ _ (tieBreakRungs options) (hits, []) hne
  unfold narrow
  rw [hclimb] at hsome ⊢
  dsimp only at hsome ⊢
  match survivors, hsome with
  | [entry], _ => exact .inl ⟨entry, rfl, rfl⟩
  | first :: second :: others, _ =>
    right
    dsimp only
    by_cases hcopies : AreProvenCopies pf options (first :: second :: others)
    · rw [if_pos (areProvenCopies_iff.2 hcopies)]
      exact .inl ⟨first, mem_cons_self, hcopies, rfl⟩
    · rw [if_neg fun h => hcopies (areProvenCopies_iff.1 h)]
      exact .inr ⟨by simp, hcopies, rfl⟩

variable {wanted : PageText}

lemma isStrongest_iff_find {interactables : List AgentInteractable} :
    IsStrongest pf options wanted interactables tier ↔
      MATCH_TIERS.find? (fun t => !(hitsAt pf options wanted interactables t).isEmpty) =
        some tier := by
  rw [find?_eq_some_iff_append]
  constructor
  · rintro ⟨stronger, weaker, htiers, hno, hhit⟩
    exact ⟨by simpa using hhit, stronger, weaker, htiers, fun t ht => by simpa using hno t ht⟩
  · rintro ⟨hhit, stronger, weaker, htiers, hno⟩
    exact ⟨stronger, weaker, htiers, fun t ht => by simpa using hno t ht, by simpa using hhit⟩

lemma exists_isStrongest {interactables : List AgentInteractable}
    (h : hitsAt pf options wanted interactables tier ≠ []) :
    ∃ t, IsStrongest pf options wanted interactables t := by
  cases hfind : MATCH_TIERS.find? fun t => !(hitsAt pf options wanted interactables t).isEmpty with
  | some t => exact ⟨t, isStrongest_iff_find.2 hfind⟩
  | none =>
    have hmem : tier ∈ MATCH_TIERS := by cases tier <;> decide
    exact absurd (by simpa using find?_eq_none.1 hfind tier hmem) h

lemma resolveInteractable_cases (query : PageText) (interactables : List AgentInteractable) :
    (isRef (trimText pf query) ∧ ∃ entry ∈ interactables, entry.ref = trimText pf query ∧
        resolveInteractable pf query interactables options = .found entry .ref []) ∨
      (trimText pf query ≠ [] ∧ isRef (trimText pf query) = false ∧ ∃ tier,
        IsStrongest pf options (normalizeText pf (trimText pf query)) interactables tier ∧
        resolveInteractable pf query interactables options =
          narrow pf (hitsAt pf options (normalizeText pf (trimText pf query)) interactables tier)
            tier options) ∨
      (trimText pf query = [] ∨
          (isRef (trimText pf query) ∧ ∀ entry ∈ interactables, entry.ref ≠ trimText pf query) ∨
          isRef (trimText pf query) = false ∧ ∀ tier, ¬ IsStrongest pf options
            (normalizeText pf (trimText pf query)) interactables tier) ∧
        resolveInteractable pf query interactables options =
          .none (namedIn pf options interactables) := by
  unfold resolveInteractable
  dsimp only
  split
  next hblank => exact .inr (.inr ⟨.inl (List.isEmpty_iff.1 hblank), rfl⟩)
  next hsome =>
    split
    next href =>
      split
      next entry hfind =>
        exact .inl ⟨href, entry, mem_of_find?_eq_some hfind,
          by simpa using find?_some hfind, rfl⟩
      next hfind =>
        exact .inr (.inr ⟨.inr (.inl ⟨href, fun entry hmem => by
          simpa using find?_eq_none.1 hfind entry hmem⟩), rfl⟩)
    next href =>
      have hnoRef := Bool.eq_false_iff.2 href
      split
      next tier hfind =>
        exact .inr (.inl ⟨fun h => hsome (List.isEmpty_iff.2 h), hnoRef, tier,
          isStrongest_iff_find.2 hfind, rfl⟩)
      next hfind =>
        refine .inr (.inr ⟨.inr (.inr ⟨hnoRef, fun tier hstrongest => ?_⟩), rfl⟩)
        rw [isStrongest_iff_find.1 hstrongest] at hfind
        cases hfind

/-- **What a match tells**: the query is the element's ref, or the element is in the strongest tier
with a hit, and the only one the ladder leaves or a proven copy of the preferred control. -/
theorem resolveInteractable_match {query : PageText} {interactables : List AgentInteractable}
    {entry : AgentInteractable} {tier : MatchTier} {tieBreak : List TieBreakRung}
    (h : resolveInteractable pf query interactables options = .found entry tier tieBreak) :
    tier = .ref ∧ entry ∈ interactables ∧ entry.ref = trimText pf query ∨
      ∃ t, tier = .byName t ∧
        IsStrongest pf options (normalizeText pf (trimText pf query)) interactables t ∧
        entry ∈ survivorsAt pf options (normalizeText pf (trimText pf query)) interactables t ∧
        (survivorsAt pf options (normalizeText pf (trimText pf query)) interactables t = [entry] ∨
          AreProvenCopies pf options
            (survivorsAt pf options (normalizeText pf (trimText pf query)) interactables t)) := by
  rcases resolveInteractable_cases query interactables with
    ⟨-, found, hmem, href, heq⟩ | ⟨-, -, t, hstrongest, heq⟩ | ⟨-, heq⟩
  · rw [heq] at h
    cases h
    exact .inl ⟨rfl, hmem, href⟩
  · rw [heq] at h
    obtain ⟨-, -, -, -, hne⟩ := id hstrongest
    have hclimb : climb (tieBreakRungs options)
        (hitsAt pf options (normalizeText pf (trimText pf query)) interactables t, []) =
        (survivorsAt pf options (normalizeText pf (trimText pf query)) interactables t, _) := rfl
    rcases narrow_spec hclimb hne with
      ⟨only, honly, hfound⟩ | ⟨copy, hcopy, hcopies, hfound⟩ | hmany
    · rw [hfound] at h
      cases h
      refine .inr ⟨t, rfl, hstrongest, ?_, .inl honly⟩
      rw [honly]
      exact mem_singleton_self _
    · rw [hfound] at h
      cases h
      exact .inr ⟨t, rfl, hstrongest, hcopy, .inr hcopies⟩
    · rw [hmany.2.2] at h
      cases h
  · rw [heq] at h
    cases h

/-! ## The order of the elements -/

variable {interactables interactables' : List AgentInteractable}

lemma namedIn_perm (h : interactables.Perm interactables') :
    (namedIn pf options interactables).Perm (namedIn pf options interactables') := h.filter _

lemma hitsAt_perm (h : interactables.Perm interactables') (wanted : PageText) (tier : NameTier) :
    (hitsAt pf options wanted interactables tier).Perm
      (hitsAt pf options wanted interactables' tier) := (namedIn_perm h).filter _

lemma IsStrongest.perm (h : IsStrongest pf options wanted interactables tier)
    (hperm : interactables.Perm interactables') :
    IsStrongest pf options wanted interactables' tier := by
  have hhits : ∀ t, (hitsAt pf options wanted interactables t).Perm
      (hitsAt pf options wanted interactables' t) := fun t => hitsAt_perm hperm wanted t
  obtain ⟨stronger, weaker, htiers, hno, hhit⟩ := h
  refine ⟨stronger, weaker, htiers, fun t ht => ?_, fun hnil => hhit ?_⟩
  · have hperm' := hhits t
    rw [hno t ht] at hperm'
    exact hperm'.symm.eq_nil
  · have hperm' := hhits tier
    rw [hnil] at hperm'
    exact hperm'.eq_nil

lemma AreProvenCopies.perm {survivors survivors' : List AgentInteractable}
    (h : AreProvenCopies pf options survivors) (hperm : survivors'.Perm survivors) :
    AreProvenCopies pf options survivors' := by
  obtain ⟨hallow, hsame, hpreferred⟩ := h
  exact ⟨hallow, fun e he e' he' => hsame e (hperm.subset he) e' (hperm.subset he'),
    fun e he => hpreferred e (hperm.subset he)⟩

/-- **Without a match the order of the elements does not matter**: not for the kind and the tier of
the outcome, and not for the set that is offered. -/
theorem resolveInteractable_perm {query : PageText} (hperm : interactables.Perm interactables')
    (h : ∀ entry tier tieBreak,
      resolveInteractable pf query interactables options ≠ .found entry tier tieBreak) :
    SameRefusal (resolveInteractable pf query interactables options)
      (resolveInteractable pf query interactables' options) := by
  rcases resolveInteractable_cases query interactables with
    ⟨-, found, -, -, heq⟩ | ⟨hsome, href, t, hstrongest, heq⟩ | ⟨hwhy, heq⟩
  · exact absurd heq (h _ _ _)
  · obtain ⟨-, -, -, -, hne⟩ := id hstrongest
    have hclimb : climb (tieBreakRungs options)
        (hitsAt pf options (normalizeText pf (trimText pf query)) interactables t, []) =
        (survivorsAt pf options (normalizeText pf (trimText pf query)) interactables t, _) := rfl
    rcases narrow_spec hclimb hne with
      ⟨only, -, hfound⟩ | ⟨copy, -, -, hfound⟩ | ⟨hlength, hcopies, hambiguous⟩
    · exact absurd (heq.trans hfound) (h _ _ _)
    · exact absurd (heq.trans hfound) (h _ _ _)
    · have hsurvivors : (survivorsAt pf options (normalizeText pf (trimText pf query)) interactables
          t).Perm (survivorsAt pf options (normalizeText pf (trimText pf query)) interactables' t) :=
        (climb_perm _ (hitsAt_perm hperm _ t) []).1
      rcases resolveInteractable_cases query interactables' with
        ⟨href', -⟩ | ⟨-, -, t', hstrongest', heq'⟩ | ⟨hwhy', -⟩
      · rw [href] at href'
        cases href'
      · have htier := isStrongest_iff_find.1 (hstrongest.perm hperm)
        rw [isStrongest_iff_find.1 hstrongest'] at htier
        obtain rfl := Option.some.inj htier
        obtain ⟨-, -, -, -, hne'⟩ := id hstrongest'
        have hclimb' : climb (tieBreakRungs options)
            (hitsAt pf options (normalizeText pf (trimText pf query)) interactables' t', []) =
            (survivorsAt pf options (normalizeText pf (trimText pf query)) interactables' t', _) :=
          rfl
        rcases narrow_spec hclimb' hne' with
          ⟨only, honly, -⟩ | ⟨copy, -, hcopies', -⟩ | ⟨-, -, hambiguous'⟩
        · rw [hsurvivors.length_eq, honly] at hlength
          exact absurd hlength (Nat.not_succ_le_self 1)
        · exact absurd (hcopies'.perm hsurvivors) hcopies
        · rw [heq, hambiguous, heq', hambiguous']
          exact ⟨rfl, hsurvivors⟩
      · rcases hwhy' with hblank | ⟨href', -⟩ | ⟨-, hnone⟩
        · exact absurd hblank hsome
        · rw [href] at href'
          cases href'
        · exact absurd (hstrongest.perm hperm) (hnone t)
  · rw [heq]
    rcases @resolveInteractable_cases pf options query interactables' with
      ⟨href', found, hmem, hfound, -⟩ | ⟨hsome, href', t', hstrongest', -⟩ | ⟨-, heq'⟩
    · rcases hwhy with hblank | ⟨-, hnone⟩ | ⟨href, -⟩
      · rw [hblank] at href'
        cases href'
      · exact absurd hfound (hnone found (hperm.symm.subset hmem))
      · rw [href] at href'
        cases href'
    · rcases hwhy with hblank | ⟨href, -⟩ | ⟨-, hnone⟩
      · exact absurd hblank hsome
      · rw [href'] at href
        cases href
      · exact absurd (hstrongest'.perm hperm.symm) (hnone t')
    · rw [heq']
      exact namedIn_perm hperm

end

/-! ## Queries that say what they match -/

section

variable {pf : TextPlatform}

/-- An element with nothing but a name. -/
def plainControl (name : PageText) : AgentInteractable where
  ref := [101, 49]
  role := []
  name := name

lemma namesOf_plainControl {name : PageText} (h : notBlank pf name) :
    namesOf pf {} (plainControl name) = [name] := by
  have hnil : notBlank pf [] = false := rfl
  simp [namesOf, resolvableNames, plainControl, h, hnil, eraseDups_cons]

lemma resolveInteractable_plainControl {query name : PageText} {tier : NameTier}
    (hname : notBlank pf name) (hsome : trimText pf query ≠ [])
    (href : isRef (trimText pf query) = false)
    (hhit : matchesTier pf name (normalizeText pf (trimText pf query))
      (tokensOf (normalizeText pf (trimText pf query))) tier) :
    ∃ t, resolveInteractable pf query [plainControl name] {} =
      .found (plainControl name) (.byName t) [] := by
  have hnamed : namedIn pf {} [plainControl name] = [plainControl name] := by
    simp [namedIn, namesOf_plainControl hname, hname]
  have hhits : ∀ t, hitsAt pf {} (normalizeText pf (trimText pf query)) [plainControl name] t =
      if matchesTier pf name (normalizeText pf (trimText pf query))
        (tokensOf (normalizeText pf (trimText pf query))) t then [plainControl name] else [] := by
    intro t
    simp [hitsAt, hnamed, namesOf_plainControl hname, filter_cons]
  rcases @resolveInteractable_cases pf {} query [plainControl name] with
    ⟨href', -⟩ | ⟨-, -, t, ⟨-, -, -, -, hne⟩, heq⟩ | ⟨hwhy, -⟩
  · rw [href] at href'
    cases href'
  · refine ⟨t, ?_⟩
    rw [hhits t] at heq hne
    split at hne
    next hmatch =>
      rw [heq, if_pos hmatch]
      rfl
    next => exact absurd rfl hne
  · rcases hwhy with hblank | ⟨href', -⟩ | ⟨-, hnone⟩
    · exact absurd hblank hsome
    · rw [href] at href'
      cases href'
    · have hhit' : hitsAt pf {} (normalizeText pf (trimText pf query)) [plainControl name] tier ≠
          [] := by
        rw [hhits tier, if_pos hhit]
        exact cons_ne_nil _ _
      obtain ⟨t, hstrongest⟩ := exists_isStrongest hhit'
      exact absurd hstrongest (hnone t)

lemma normalizeText_a (hpf : pf.Unicode) : normalizeText pf [97] = [97] := by
  have hword : pf.isWordChar 97 = true := by simp [TextPlatform.isWordChar, hpf.letter_a]
  have hspace := hpf.word_space 97 hword
  simp [normalizeText, hpf.lower_a, squeezed, squeeze, hword, hspace, trimText]

def blankMarks (pf : TextPlatform) (text : PageText) : PageText :=
  text.map fun c => if pf.isMark c then 32 else c

lemma lower_blankMarks (hpf : pf.Unicode) (text : PageText) :
    pf.toLocaleLowerCase (blankMarks pf (pf.toLocaleLowerCase text)) =
      blankMarks pf (pf.toLocaleLowerCase text) := by
  refine hpf.lower_fixed text _ fun c hc => ?_
  obtain ⟨d, hd, rfl⟩ := mem_map.1 hc
  split
  next => exact .inr rfl
  next => exact .inl hd

lemma normalizeText_blankMarks (hpf : pf.Unicode) (text : PageText) :
    normalizeText pf (blankMarks pf (pf.toLocaleLowerCase text)) = normalizeText pf text := by
  have hspace : pf.isWordChar 32 = false := by
    by_contra hword
    have hno := hpf.word_space 32 (by simpa using hword)
    rw [hpf.space] at hno
    cases hno
  rw [normalizeText, lower_blankMarks hpf, normalizeText, squeezed, squeezed, blankMarks,
    squeeze_map]
  · intro c
    split
    next hmark => rw [hspace, hpf.mark_word c hmark]
    next => rfl
  · intro c hc
    split
    next hmark =>
      rw [hpf.mark_word c hmark] at hc
      cases hc
    next => rfl

lemma not_isMark_of_mem_blankMarks (hpf : pf.Unicode) {text : PageText} {c : CodePoint}
    (h : c ∈ blankMarks pf text) : pf.isMark c = false := by
  obtain ⟨d, -, rfl⟩ := mem_map.1 h
  split
  next =>
    by_contra hmark
    have hno := hpf.mark_space 32 (by simpa using hmark)
    rw [hpf.space] at hno
    cases hno
  next hmark => exact Bool.eq_false_iff.2 hmark

lemma exists_mem_trimText {text : PageText} (h : trimText pf text ≠ []) :
    ∃ c ∈ trimText pf text, pf.isSpace c = false := by
  unfold trimText at h ⊢
  rw [ne_eq, reverse_eq_nil_iff] at h
  refine ⟨_, mem_reverse.2 (head_mem h), ?_⟩
  exact head_dropWhile_not pf.isSpace h

lemma exists_unsaid_match (hpf : pf.Unicode) {query : PageText} (hsome : trimText pf query ≠ [])
    (href : isRef (trimText pf query) = false) (hlost : LettersLost pf (trimText pf query)) :
    ∃ name t, notBlank pf name ∧ ¬ Identifies pf (trimText pf query) name ∧
      resolveInteractable pf query [plainControl name] {} =
        .found (plainControl name) (.byName t) [] := by
  have hspace : ∀ c, pf.isSpace c = false → c ≠ 32 := by
    rintro c hc rfl
    rw [hpf.space] at hc
    cases hc
  by_cases hnil : normalizeText pf (trimText pf query) = []
  · have htrim : trimText pf [97] = [97] := by
      have hword := hpf.word_space 97 (by simp [TextPlatform.isWordChar, hpf.letter_a])
      simp [trimText, hword]
    have hname : notBlank pf [97] := by
      rw [notBlank, htrim]
      rfl
    obtain ⟨t, hfound⟩ := @resolveInteractable_plainControl pf query [97] .leading hname hsome href
      (by rw [hnil]; rfl)
    refine ⟨[97], t, hname, ?_, hfound⟩
    rintro (hsame | ⟨hspoken, tier, hholds⟩)
    · rw [← hsame, htrim, normalizeText_a hpf] at hnil
      cases hnil
    · obtain ⟨c, hc, hcspace⟩ := exists_mem_trimText hspoken
      have hin := mem_of_holdsAt hholds hc (hspace c hcspace)
      rcases mem_squeezed hc with rfl | ⟨hlower, hkept⟩
      · exact hspace 32 hcspace rfl
      · -- What is left of such a query with its marks are marks, and the name has none.
        have hno : pf.isWordChar c = false := by
          by_contra hword
          have hmem : c ∈ normalizeText pf (trimText pf query) :=
            mem_squeezed_of_mem hlower (by simpa using hword) hcspace
          rw [hnil] at hmem
          cases hmem
        rcases mem_squeezed hin with rfl | ⟨hina, -⟩
        · exact hspace 32 hcspace rfl
        · rw [hpf.lower_a, mem_singleton] at hina
          subst hina
          simp [TextPlatform.isWordChar, hpf.letter_a] at hno
  · obtain ⟨c, hc, hmark⟩ := hlost.resolve_left hnil
    have hcspace := hpf.mark_space c hmark
    have hnot : c ∉ blankMarks pf (pf.toLocaleLowerCase (trimText pf query)) := by
      intro hmem
      rw [not_isMark_of_mem_blankMarks hpf hmem] at hmark
      cases hmark
    have hname : notBlank pf (blankMarks pf (pf.toLocaleLowerCase (trimText pf query))) := by
      obtain ⟨d, hd, hdspace⟩ := exists_mem_trimText hnil
      rcases mem_squeezed hd with rfl | ⟨hlower, hkept⟩
      · exact absurd rfl (hspace 32 hdspace)
      · have hdmark : pf.isMark d = false := by
          by_contra hdmark
          rw [hpf.mark_word d (by simpa using hdmark)] at hkept
          cases hkept
        have hmem : d ∈ blankMarks pf (pf.toLocaleLowerCase (trimText pf query)) :=
          mem_map.2 ⟨d, hlower, by simp [hdmark]⟩
        have htrim := ne_nil_of_mem (mem_trimText_of_mem hmem hdspace)
        simpa [notBlank] using htrim
    obtain ⟨t, hfound⟩ := @resolveInteractable_plainControl pf query _ .exact hname hsome href
      (by simp [matchesTier, holdsAt, normalizeText_blankMarks hpf])
    refine ⟨_, t, hname, ?_, hfound⟩
    rintro (hsame | ⟨-, tier, hholds⟩)
    · have hlower := hpf.lower_fixed (trimText pf query) (trimText pf (blankMarks pf
        (pf.toLocaleLowerCase (trimText pf query)))) fun d hd => by
          obtain ⟨e, he, rfl⟩ := mem_map.1 (mem_of_mem_trimText hd)
          split
          next => exact .inr rfl
          next => exact .inl he
      rw [hsame] at hlower
      rw [hlower, ← hsame] at hc
      exact hnot (mem_of_mem_trimText hc)
    · have hkept : c ∈ spokenText pf (trimText pf query) :=
        mem_squeezed_of_mem hc (by simp [hmark]) hcspace
      rcases mem_squeezed (mem_of_holdsAt hholds hkept (hspace c hcspace)) with rfl | ⟨hin, -⟩
      · exact hspace 32 hcspace rfl
      · rw [lower_blankMarks hpf] at hin
        exact hnot hin

/-- **Which queries never match what they do not say**: the blank ones, the refs, and those of which
normalizing leaves something and takes no mark. -/
theorem resolveInteractable_sound_iff (hpf : pf.Unicode) (query : PageText) :
    (∀ interactables options entry t tieBreak, LettersLost pf (trimText pf query) →
        resolveInteractable pf query interactables options = .found entry (.byName t) tieBreak →
        ∃ name ∈ namesOf pf options entry, Identifies pf (trimText pf query) name) ↔
      trimText pf query = [] ∨ isRef (trimText pf query) ∨
        ¬ LettersLost pf (trimText pf query) := by
  constructor
  · intro hsound
    by_contra hcond
    simp only [not_or, not_not, Bool.not_eq_true] at hcond
    obtain ⟨hsome, href, hlost⟩ := hcond
    obtain ⟨name, t, hname, hnot, hfound⟩ := exists_unsaid_match hpf hsome href hlost
    obtain ⟨name', hmem, hidentifies⟩ := hsound _ _ _ _ _ hlost hfound
    rw [namesOf_plainControl hname, mem_singleton] at hmem
    exact hnot (hmem ▸ hidentifies)
  · intro hcond interactables options entry t tieBreak hlost hfound
    rcases @resolveInteractable_cases pf options query interactables with
      ⟨-, found, -, -, heq⟩ | ⟨hsome, href, -⟩ | ⟨-, heq⟩
    · rw [heq] at hfound
      cases hfound
    · rcases hcond with hblank | href' | hnot
      · exact absurd hblank hsome
      · rw [href] at href'
        cases href'
      · exact absurd hlost hnot
    · rw [heq] at hfound
      cases hfound

end

/-! ## Examples -/

/-- Unicode on texts of ASCII and Devanagari letters, digits, signs and spaces. -/
def examplePages : TextPlatform where
  toLocaleLowerCase := List.map CodePoints.lowerAscii
  isLetter (c : ℕ) := decide (65 ≤ c ∧ c ≤ 90 ∨ 97 ≤ c ∧ c ≤ 122 ∨ 0x904 ≤ c ∧ c ≤ 0x939)
  isNumber (c : ℕ) := decide (48 ≤ c ∧ c ≤ 57)
  isMark (c : ℕ) := decide (0x93E ≤ c ∧ c ≤ 0x94D)
  isSpace (c : ℕ) := decide (9 ≤ c ∧ c ≤ 13 ∨ c = 32)

/-- The code points of a text. -/
def pageText (text : String) : PageText := text.toList.map Char.toNat

lemma examplePages_unicode : examplePages.Unicode where
  lower_fixed text word h := by
    refine (map_congr_left fun c hc => ?_).trans (map_id _)
    rcases h c hc with hlower | rfl
    · obtain ⟨d, -, rfl⟩ := mem_map.1 hlower
      exact CodePoints.lowerAscii_lowerAscii d
    · rfl
  lower_a := rfl
  letter_a := rfl
  space := rfl
  word_space c h := by
    simp only [examplePages, TextPlatform.isWordChar, Bool.or_eq_true, decide_eq_true_eq,
      decide_eq_false_iff_not] at h ⊢
    omega
  mark_word c h := by
    simp only [examplePages, TextPlatform.isWordChar, Bool.or_eq_false_iff, decide_eq_true_eq,
      decide_eq_false_iff_not] at h ⊢
    omega
  mark_space c h := by
    simp only [examplePages, decide_eq_true_eq, decide_eq_false_iff_not] at h ⊢
    omega

end Yantra
