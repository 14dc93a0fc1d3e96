import Yantra.Agent.Contract
import Yantra.Lib.Machine
import Yantra.Lib.OrderedMap

/-!
# Effective action terms

`TaskContractStore` keeps the contract's revisions; the action terms in force are folded from
them. Each term has its own carry-forward rule: the fill of the latest revision that declares
one, the union of the artifacts, and a submit that stays forbidden once it was.

## Main definitions

* `Revision`, `effectiveActionTermsOf` — the fold over the revisions.
* `TermsLe` — terms that only gained.

## Main results

* `effectiveActionTerms_monotone` — in every run of the store the terms of a prefix of
  the revisions are as specified, and only gain as the prefix grows.
-/

namespace Yantra

open List Option Prod

/-! ## The fold -/

structure Revision where
  revision : Nat
  declaredAt : String
  contract : TaskContractBody
  deriving DecidableEq, Repr, Inhabited

structure FillTerm where
  coverage : FillCoverageKind
  fields : List String
  declaredIn : Nat
  deriving DecidableEq, Repr, Inhabited

structure ArtifactTerm where
  kind : ArtifactKind
  scope : ArtifactScope
  declaredIn : Nat
  deriving DecidableEq, Repr, Inhabited

inductive SubmitTerm where
  | allowed
  | forbidden (declaredIn : Nat)
  deriving DecidableEq, Repr, Inhabited

structure EffectiveActionTerms where
  fill : Option FillTerm
  artifacts : List ArtifactTerm
  submit : SubmitTerm
  deriving DecidableEq, Repr, Inhabited

def noActionTerms : EffectiveActionTerms := ⟨none, [], .allowed⟩

/-- The terms while they are folded, the artifacts by their key. -/
structure TermsFold where
  fill : Option FillTerm
  artifacts : OrderedMap String ArtifactTerm
  submit : SubmitTerm

def sameFill (previous : Option FillTerm) (coverage : FillCoverageKind) (fields : List String) :
    Bool :=
  match previous with
  | none => false
  | some p => decide (p.coverage = coverage) && decide (p.fields = fields)

def foldFill (fill : Option FillTerm) (r : Revision) : Option FillTerm :=
  match r.contract.fill with
  | none => fill
  | some f =>
    let fields := f.fields.getD []
    some ⟨f.coverage, fields, match fill with
      | some p => if sameFill fill f.coverage fields then p.declaredIn else r.revision
      | none => r.revision⟩

def artifactKey (kind : ArtifactKind) (scope : ArtifactScope) : String :=
  (match kind with | .screenshot => "screenshot") ++ ":" ++ scope.name

def addArtifact (revision : Nat) (m : OrderedMap String ArtifactTerm) (a : ContractArtifact) :
    OrderedMap String ArtifactTerm :=
  if m.has (artifactKey a.kind a.scope) then m
  else m.set (artifactKey a.kind a.scope) ⟨a.kind, a.scope, revision⟩

def foldSubmit (submit : SubmitTerm) (r : Revision) : SubmitTerm :=
  match r.contract.submit, submit with
  | .forbidden, .allowed => .forbidden r.revision
  | _, submit => submit

def foldRevision (acc : TermsFold) (r : Revision) : TermsFold :=
  ⟨foldFill acc.fill r, r.contract.artifacts.foldl (addArtifact r.revision) acc.artifacts,
    foldSubmit acc.submit r⟩

def termsFoldOf (revisions : List Revision) : TermsFold :=
  revisions.foldl foldRevision ⟨none, OrderedMap.empty, .allowed⟩

def effectiveActionTermsOf (revisions : List Revision) : EffectiveActionTerms :=
  let acc := termsFoldOf revisions
  ⟨acc.fill, acc.artifacts.values, acc.submit⟩

/-! ## The store -/

inductive AgenticCommand where
  | ask | research | «do»
  deriving DecidableEq, Repr, Inhabited

/-- Most revisions one run may declare. -/
def taskContractMaxRevisions : Nat := 3

/-- The contract of a run: every revision in declaration order. -/
structure TaskContractStore where
  command : AgenticCommand
  revisions : List Revision := []

inductive DeclareError where
  | revisionLimit
  | commandCannotDeclare (command : AgenticCommand)
  | writeFailed
  deriving DecidableEq, Repr, Inhabited

namespace TaskContractStore

/-- `append`: declare a revision; `written` tells whether `contract.json` was written and renamed.
A refused declaration leaves the store as it was. -/
def append (s : TaskContractStore) (body : TaskContractBody) (declaredAt : String)
    (written : Bool) : Except DeclareError (TaskContractStore × Nat) :=
  if taskContractMaxRevisions ≤ s.revisions.length then .error .revisionLimit
  else if s.command = .ask then .error (.commandCannotDeclare s.command)
  else
    let revision := s.revisions.length + 1
    if written then
      .ok ({ s with revisions := s.revisions ++ [⟨revision, declaredAt, body⟩] }, revision)
    else .error .writeFailed

def effectiveActionTerms (s : TaskContractStore) : EffectiveActionTerms :=
  if s.revisions.isEmpty then noActionTerms else effectiveActionTermsOf s.revisions

/-- The action terms that were in force once 1-based `revision` was declared. -/
def effectiveActionTermsThrough (s : TaskContractStore) (revision : Int) :
    EffectiveActionTerms :=
  effectiveActionTermsOf (s.revisions.take (max 0 revision).toNat)

end TaskContractStore

/-- A call of `declare`. The store runs them one after the other. -/
structure Declaration where
  body : TaskContractBody
  declaredAt : String
  written : Bool

def contractStore (command : AgenticCommand) : Machine TaskContractStore Declaration where
  init := ⟨command, []⟩
  step s d :=
    match s.append d.body d.declaredAt d.written with
    | .ok (s', _) => s'
    | .error _ => s

/-! ## What the terms are -/

def Revision.declaredFill (r : Revision) : Option (FillCoverageKind × List String) :=
  r.contract.fill.map fun f => (f.coverage, f.fields.getD [])

def Revision.requests (r : Revision) (kind : ArtifactKind) (scope : ArtifactScope) : Bool :=
  decide ((⟨kind, scope⟩ : ContractArtifact) ∈ r.contract.artifacts)

def Revision.forbids (r : Revision) : Bool := decide (r.contract.submit = .forbidden)

/-- Every revision from number `d` on that declares a fill declares this one. -/
def DeclareSame (revisions : List Revision) (d : Nat) (fill : FillCoverageKind × List String) :
    Prop :=
  ∀ r ∈ revisions, d ≤ r.revision → ∀ f, r.declaredFill = some f → f = fill

/-- What the fill term of a revision list is: there is one exactly when some revision declares
one; it is the fill of the latest that does, dated by the earliest declaring revision from which
on every declaring revision declares the same. -/
structure FillSpec (revisions : List Revision) (fill : Option FillTerm) : Prop where
  latest : fill.map (fun f => (f.coverage, f.fields)) =
    (revisions.filterMap Revision.declaredFill).getLast?
  declared : ∀ f, fill = some f → ∃ r ∈ revisions, r.revision = f.declaredIn ∧
    r.declaredFill = some (f.coverage, f.fields)
  unbroken : ∀ f, fill = some f → DeclareSame revisions f.declaredIn (f.coverage, f.fields)
  earliest : ∀ f, fill = some f → ∀ r ∈ revisions, r.declaredFill.isSome →
    DeclareSame revisions r.revision (f.coverage, f.fields) → f.declaredIn ≤ r.revision

structure TermsSpec (revisions : List Revision) (t : EffectiveActionTerms) : Prop where
  /-- An artifact is in force exactly when some revision requests it, dated by the first. -/
  artifacts : ∀ a, a ∈ t.artifacts ↔
    (revisions.find? fun r => r.requests a.kind a.scope).map Revision.revision =
      some a.declaredIn
  /-- Submission is forbidden exactly when some revision forbids it, dated by the first. -/
  submit : t.submit = match revisions.find? Revision.forbids with
    | some r => .forbidden r.revision
    | none => .allowed
  fill : FillSpec revisions t.fill

/-- The terms `t'` keep everything `t` has: every artifact and the ban on submitting with their
dates, and a fill. -/
structure TermsLe (t t' : EffectiveActionTerms) : Prop where
  artifacts : ∀ a ∈ t.artifacts, a ∈ t'.artifacts
  submit : ∀ d, t.submit = .forbidden d → t'.submit = .forbidden d
  fill : t.fill.isSome → t'.fill.isSome

/-! ## The fold computes them -/

lemma termsFoldOf_concat (revisions : List Revision) (r : Revision) :
    termsFoldOf (revisions ++ [r]) = foldRevision (termsFoldOf revisions) r := by
  simp [termsFoldOf, foldl_append]

lemma artifactKey_injective {k k' : ArtifactKind} {sc sc' : ArtifactScope}
    (h : artifactKey k sc = artifactKey k' sc') : k = k' ∧ sc = sc' := by
  revert h
  cases k
  cases k'
  cases sc <;> cases sc' <;> decide

open OrderedMap

/-- What is in force under a key after the artifacts of a revision: what was, or else the
artifact with that key if the revision requests it. -/
lemma get?_foldl_addArtifact (revision : Nat) (as : List ContractArtifact)
    (m : OrderedMap String ArtifactTerm) (kind : ArtifactKind) (scope : ArtifactScope) :
    (as.foldl (addArtifact revision) m).get? (artifactKey kind scope) =
      (m.get? (artifactKey kind scope)).or
        (if (⟨kind, scope⟩ : ContractArtifact) ∈ as then some ⟨kind, scope, revision⟩
          else none) := by
  induction as generalizing m with
  | nil => simp
  | cons a as ih =>
    rw [foldl_cons, ih]
    by_cases hhas : m.has (artifactKey a.kind a.scope)
    · have hadd : addArtifact revision m a = m := by simp [addArtifact, hhas]
      rw [hadd]
      by_cases hkey : artifactKey a.kind a.scope = artifactKey kind scope
      · obtain ⟨v, hv⟩ := isSome_iff_exists.1 hhas
        rw [hkey] at hv
        simp [hv]
      · have hne : (⟨kind, scope⟩ : ContractArtifact) ≠ a := by
          rintro rfl
          exact hkey rfl
        simp [hne]
    · have hadd : addArtifact revision m a =
          m.set (artifactKey a.kind a.scope) ⟨a.kind, a.scope, revision⟩ := by
        simp [addArtifact, hhas]
      rw [hadd, get?_set]
      by_cases hkey : artifactKey a.kind a.scope = artifactKey kind scope
      · obtain ⟨hk, hs⟩ := artifactKey_injective hkey
        have hnone : m.get? (artifactKey kind scope) = none := by
          rw [← hkey]
          simpa [has] using hhas
        have ha : (⟨kind, scope⟩ : ContractArtifact) = a := by
          rw [← hk, ← hs]
        simp [hnone, ha, hk, hs]
      · have hne : (⟨kind, scope⟩ : ContractArtifact) ≠ a := by
          rintro rfl
          exact hkey rfl
        simp [hkey, hne]

open Revision

lemma get?_termsFoldOf_artifacts (revisions : List Revision) (kind : ArtifactKind)
    (scope : ArtifactScope) :
    (termsFoldOf revisions).artifacts.get? (artifactKey kind scope) =
      (revisions.find? fun r => r.requests kind scope).map
        fun r => ⟨kind, scope, r.revision⟩ := by
  induction revisions using reverseRecOn with
  | nil => rfl
  | append_singleton revisions r ih =>
    rw [termsFoldOf_concat]
    simp only [foldRevision]
    rw [get?_foldl_addArtifact, ih, find?_append]
    cases hfind : revisions.find? fun r => r.requests kind scope with
    | some q => rfl
    | none =>
      by_cases hr : (⟨kind, scope⟩ : ContractArtifact) ∈ r.contract.artifacts
      · simp [requests, hr]
      · simp [requests, hr]

lemma termsFoldOf_keyed (revisions : List Revision) (k : String) (a : ArtifactTerm)
    (h : (termsFoldOf revisions).artifacts.get? k = some a) : k = artifactKey a.kind a.scope := by
  have hfold : ∀ (revision : Nat) (as : List ContractArtifact)
      (m : OrderedMap String ArtifactTerm),
      (∀ k a, m.get? k = some a → k = artifactKey a.kind a.scope) →
      ∀ k a, (as.foldl (addArtifact revision) m).get? k = some a →
        k = artifactKey a.kind a.scope := by
    intro revision as
    induction as with
    | nil => exact fun m hm => hm
    | cons a as ih =>
      refine fun m hm => ih _ fun k b hb => ?_
      unfold addArtifact at hb
      split_ifs at hb
      · exact hm k b hb
      · exact forall_get?_set (P := fun k a => k = artifactKey a.kind a.scope) rfl hm
          k b hb
  induction revisions using reverseRecOn generalizing k a with
  | nil => cases h
  | append_singleton revisions r ih =>
    rw [termsFoldOf_concat] at h
    exact hfold _ _ _ ih k a h

lemma termsFoldOf_submit (revisions : List Revision) :
    (termsFoldOf revisions).submit = match revisions.find? forbids with
      | some r => .forbidden r.revision
      | none => .allowed := by
  induction revisions using reverseRecOn with
  | nil => rfl
  | append_singleton revisions r ih =>
    rw [termsFoldOf_concat, find?_append]
    simp only [foldRevision, ih]
    cases hfind : revisions.find? forbids with
    | some q => cases hr : r.contract.submit <;> simp [foldSubmit, hr]
    | none => cases hr : r.contract.submit <;> simp [foldSubmit, forbids, hr]

variable {revisions : List Revision} {r : Revision}

/-- A declaration from `d` on is a declaration from `d` on in a longer list. -/
lemma DeclareSame.of_append {d : Nat} {fill : FillCoverageKind × List String}
    (h : DeclareSame (revisions ++ [r]) d fill) :
    DeclareSame revisions d fill := fun q hq => h q (mem_append_left _ hq)

variable {fill : Option FillTerm}

lemma fillSpec_none (h : FillSpec revisions fill) (hr : r.contract.fill = none) :
    FillSpec (revisions ++ [r]) (foldFill fill r) := by
  have hnone : r.declaredFill = none := by simp [declaredFill, hr]
  have hfold : foldFill fill r = fill := by simp [foldFill, hr]
  rw [hfold]
  constructor
  · rw [h.latest]
    simp [hnone]
  · intro f hf
    obtain ⟨q, hq, hdate, hfill⟩ := h.declared f hf
    exact ⟨q, mem_append_left _ hq, hdate, hfill⟩
  · intro f hf q hq hle g hg
    rcases mem_append.1 hq with hold | hnew
    · exact h.unbroken f hf q hold hle g hg
    · rw [mem_singleton.1 hnew, hnone] at hg
      cases hg
  · intro f hf q hq hsome hsame
    rcases mem_append.1 hq with hold | hnew
    · exact h.earliest f hf q hold hsome hsame.of_append
    · rw [mem_singleton.1 hnew, hnone] at hsome
      cases hsome

lemma fillSpec_same {p : FillTerm} (h : FillSpec revisions (some p))
    (hlt : ∀ q ∈ revisions, q.revision < r.revision)
    (hr : r.declaredFill = some (p.coverage, p.fields)) :
    FillSpec (revisions ++ [r]) (some p) := by
  constructor
  · simp [hr]
  · rintro f ⟨⟩
    obtain ⟨q, hq, hdate, hfill⟩ := h.declared p rfl
    exact ⟨q, mem_append_left _ hq, hdate, hfill⟩
  · rintro f ⟨⟩ q hq hle g hg
    rcases mem_append.1 hq with hold | hnew
    · exact h.unbroken p rfl q hold hle g hg
    · rw [mem_singleton.1 hnew, hr] at hg
      exact (some.inj hg).symm
  · rintro f ⟨⟩ q hq hsome hsame
    rcases mem_append.1 hq with hold | hnew
    · exact h.earliest p rfl q hold hsome hsame.of_append
    · obtain ⟨q₀, hq₀, hdate, -⟩ := h.declared p rfl
      rw [mem_singleton.1 hnew, ← hdate]
      exact Nat.le_of_lt (hlt q₀ hq₀)

lemma fillSpec_new {g : FillCoverageKind × List String} (h : FillSpec revisions fill)
    (hlt : ∀ q ∈ revisions, q.revision < r.revision) (hr : r.declaredFill = some g)
    (hne : ∀ p, fill = some p → (p.coverage, p.fields) ≠ g) :
    FillSpec (revisions ++ [r]) (some ⟨g.1, g.2, r.revision⟩) := by
  have hmem : r ∈ revisions ++ [r] := mem_append_right _ (mem_singleton_self r)
  constructor
  · simp [hr]
  · rintro f ⟨⟩
    exact ⟨r, hmem, rfl, hr⟩
  · rintro f ⟨⟩ q hq hle f' hf'
    rcases mem_append.1 hq with hold | hnew
    · exact absurd hle (Nat.not_le_of_lt (hlt q hold))
    · rw [mem_singleton.1 hnew, hr] at hf'
      exact (some.inj hf').symm
  · rintro f ⟨⟩ q hq hsome hsame
    rcases mem_append.1 hq with hold | hnew
    · -- `q` declares `g` and everything after it does, so the fill in force before was `g`
      exfalso
      obtain ⟨gq, hgq⟩ := isSome_iff_exists.1 hsome
      obtain ⟨p, rfl⟩ : ∃ p, fill = some p := by
        cases fill with
        | some p => exact ⟨p, rfl⟩
        | none =>
          have hlast := h.latest
          have hin : gq ∈ revisions.filterMap declaredFill :=
            mem_filterMap.2 ⟨q, hold, hgq⟩
          rw [map_none, eq_comm, getLast?_eq_none_iff] at hlast
          rw [hlast] at hin
          cases hin
      obtain ⟨q₀, hq₀, hdate, hfill₀⟩ := h.declared p rfl
      by_cases hle : q.revision ≤ q₀.revision
      · exact hne p rfl (hsame.of_append q₀ hq₀ hle _ hfill₀)
      · have hpq := h.unbroken p rfl q hold (by omega) gq hgq
        have hgq' := hsame.of_append q hold (Nat.le_refl _) gq hgq
        exact hne p rfl (hpq.symm.trans hgq')
    · obtain rfl := mem_singleton.1 hnew
      exact Nat.le_refl _

lemma fillSpec_termsFoldOf (hsorted : revisions.Pairwise fun q r => q.revision < r.revision) :
    FillSpec revisions (termsFoldOf revisions).fill := by
  induction revisions using reverseRecOn with
  | nil =>
    have hfill : (termsFoldOf []).fill = none := rfl
    rw [hfill]
    exact ⟨rfl, fun f hf => (by cases hf), fun f hf => (by cases hf), fun f hf => (by cases hf)⟩
  | append_singleton revisions r ih =>
    obtain ⟨hpre, -, hcross⟩ := pairwise_append.1 hsorted
    have hlt : ∀ q ∈ revisions, q.revision < r.revision := fun q hq =>
      hcross q hq r (mem_singleton_self r)
    have hspec := ih hpre
    rw [termsFoldOf_concat]
    simp only [foldRevision]
    cases hr : r.contract.fill with
    | none => exact fillSpec_none hspec hr
    | some f =>
      have hdecl : r.declaredFill = some (f.coverage, f.fields.getD []) := by
        simp [declaredFill, hr]
      cases hfill : (termsFoldOf revisions).fill with
      | none =>
        have hfold : foldFill none r = some ⟨f.coverage, f.fields.getD [], r.revision⟩ := by
          simp [foldFill, hr]
        rw [hfold]
        rw [hfill] at hspec
        exact fillSpec_new hspec hlt hdecl fun p hp => (by cases hp)
      | some p =>
        rw [hfill] at hspec
        by_cases hsame : p.coverage = f.coverage ∧ p.fields = f.fields.getD []
        · have hfold : foldFill (some p) r = some p := by
            obtain ⟨hc, hf⟩ := hsame
            simp only [foldFill, hr, sameFill, ← hc, ← hf]
            simp
          rw [hfold]
          exact fillSpec_same hspec hlt (by rw [hdecl, hsame.1, hsame.2])
        · have hfold : foldFill (some p) r =
              some ⟨f.coverage, f.fields.getD [], r.revision⟩ := by
            have hno : sameFill (some p) f.coverage (f.fields.getD []) = false := by
              simpa [sameFill] using hsame
            simp [foldFill, hr, hno]
          rw [hfold]
          refine fillSpec_new hspec hlt hdecl fun p' hp' heq => hsame ?_
          cases hp'
          exact ⟨congrArg fst heq, congrArg snd heq⟩

/-- **What the fold computes.** The terms of revisions numbered in order are as specified. -/
lemma termsSpec_effectiveActionTermsOf
    (hsorted : revisions.Pairwise fun q r => q.revision < r.revision) :
    TermsSpec revisions (effectiveActionTermsOf revisions) := by
  refine ⟨fun a => ?_, termsFoldOf_submit revisions, fillSpec_termsFoldOf hsorted⟩
  have hget := get?_termsFoldOf_artifacts revisions a.kind a.scope
  constructor
  · intro hmem
    obtain ⟨k, hk⟩ := exists_get?_of_mem_values hmem
    rw [termsFoldOf_keyed revisions k a hk, hget] at hk
    obtain ⟨r, hr, heq⟩ := map_eq_some_iff.1 hk
    rw [hr, ← heq]
    rfl
  · intro hfirst
    obtain ⟨r, hr, heq⟩ := map_eq_some_iff.1 hfirst
    rw [hr, map_some, heq] at hget
    exact mem_values_of_get? hget

/-! ## Terms of prefixes -/

lemma termsLe_of_spec {revisions more : List Revision} {t t' : EffectiveActionTerms}
    (h : TermsSpec revisions t) (h' : TermsSpec (revisions ++ more) t') : TermsLe t t' := by
  constructor
  · intro a ha
    obtain ⟨r, hr, hdate⟩ := map_eq_some_iff.1 ((h.artifacts a).1 ha)
    refine (h'.artifacts a).2 ?_
    rw [find?_append, hr]
    simp [hdate]
  · intro d hd
    rw [h.submit] at hd
    rw [h'.submit, find?_append]
    cases hfind : revisions.find? forbids with
    | none =>
      rw [hfind] at hd
      cases hd
    | some r =>
      rw [hfind] at hd
      simpa using hd
  · intro hsome
    obtain ⟨f, hf⟩ := isSome_iff_exists.1 hsome
    obtain ⟨r, hr, -, hfill⟩ := h.fill.declared f hf
    have hin : (f.coverage, f.fields) ∈ (revisions ++ more).filterMap declaredFill :=
      mem_filterMap.2 ⟨r, mem_append_left _ hr, hfill⟩
    cases hfill' : t'.fill with
    | some f' => rfl
    | none =>
      have hlast := h'.fill.latest
      rw [hfill', map_none, eq_comm, getLast?_eq_none_iff] at hlast
      rw [hlast] at hin
      cases hin

/-! ## Runs of the store -/

/-- The revisions of a store are numbered from 1 in order. -/
def Numbered (revisions : List Revision) : Prop :=
  (revisions.Pairwise fun q r => q.revision < r.revision) ∧
    ∀ r ∈ revisions, r.revision ≤ revisions.length

variable (command : AgenticCommand)

lemma contractStore_step (s : TaskContractStore) (d : Declaration) :
    (contractStore command).step s d = s ∨
      ∃ r, r.revision = s.revisions.length + 1 ∧
        (contractStore command).step s d = { s with revisions := s.revisions ++ [r] } := by
  simp only [contractStore, TaskContractStore.append]
  by_cases hlimit : taskContractMaxRevisions ≤ s.revisions.length
  · simp [hlimit]
  · by_cases hask : s.command = .ask
    · simp [hlimit, hask]
    · cases hw : d.written with
      | false => simp [hlimit, hask]
      | true =>
        right
        exact ⟨⟨s.revisions.length + 1, d.declaredAt, d.body⟩, rfl, by simp [hlimit, hask]⟩

lemma numbered_step (s : TaskContractStore) (d : Declaration) (h : Numbered s.revisions) :
    Numbered ((contractStore command).step s d).revisions := by
  rcases contractStore_step command s d with hs | ⟨r, hr, hs⟩
  · rw [hs]
    exact h
  · rw [hs]
    refine ⟨pairwise_append.2 ⟨h.1, pairwise_singleton _ r, ?_⟩, ?_⟩
    · intro q hq r' hr'
      rw [mem_singleton.1 hr', hr]
      have := h.2 q hq
      omega
    · intro q hq
      simp only [length_append, length_singleton]
      rcases mem_append.1 hq with hold | hnew
      · have := h.2 q hold
        omega
      · exact Nat.le_of_eq (by rw [mem_singleton.1 hnew, hr])

lemma numbered_run (ds : List Declaration) :
    Numbered ((contractStore command).run ds).revisions :=
  Machine.invariant_runFrom' (M := contractStore command) (numbered_step command)
    ⟨List.Pairwise.nil, fun r hr => (by cases hr)⟩ ds

lemma revisions_runFrom_prefix (s : TaskContractStore) (ds : List Declaration) :
    ∃ more, ((contractStore command).runFrom s ds).revisions = s.revisions ++ more := by
  induction ds generalizing s with
  | nil => exact ⟨[], by simp⟩
  | cons d ds ih =>
    obtain ⟨more, hmore⟩ := ih ((contractStore command).step s d)
    rw [Machine.runFrom_cons]
    rcases contractStore_step command s d with hs | ⟨r, -, hs⟩
    · exact ⟨more, by rw [hmore, hs]⟩
    · exact ⟨r :: more, by rw [hmore, hs]; simp⟩

lemma effectiveActionTermsThrough_eq (s : TaskContractStore) (k : Nat) :
    s.effectiveActionTermsThrough k = effectiveActionTermsOf (s.revisions.take k) := by
  simp [TaskContractStore.effectiveActionTermsThrough]

/-- **Effective action terms.** In every run of the store, for prefixes of `k ≤ k'` revisions:
the terms through `k` are those of the first `k` revisions alone, which are as specified; they
are the terms the store had when only those were declared; and the terms through `k'` keep them.

**Proof sketch.** The revisions of a run are numbered in order and declaring more only appends.
On such a list the fold meets its specification, one lemma a term, by induction on the list from
its end; a longer list keeps what a prefix specifies. -/
theorem effectiveActionTerms_monotone (command : AgenticCommand) (ds : List Declaration)
    (k k' : Nat) (hk : k ≤ k') :
    ((contractStore command).run ds).effectiveActionTermsThrough k =
        effectiveActionTermsOf (((contractStore command).run ds).revisions.take k) ∧
      TermsSpec (((contractStore command).run ds).revisions.take k)
        (((contractStore command).run ds).effectiveActionTermsThrough k) ∧
      TermsLe (((contractStore command).run ds).effectiveActionTermsThrough k)
        (((contractStore command).run ds).effectiveActionTermsThrough k') ∧
      ∀ pre post, ds = pre ++ post →
        ((contractStore command).run pre).effectiveActionTerms =
          ((contractStore command).run ds).effectiveActionTermsThrough
            ((contractStore command).run pre).revisions.length := by
  have hnum := numbered_run command ds
  have hspec : ∀ n, TermsSpec (((contractStore command).run ds).revisions.take n)
      (((contractStore command).run ds).effectiveActionTermsThrough n) := fun n => by
    rw [effectiveActionTermsThrough_eq]
    exact termsSpec_effectiveActionTermsOf (hnum.1.sublist (List.take_sublist _ _))
  refine ⟨effectiveActionTermsThrough_eq _ k, hspec k, ?_, ?_⟩
  · obtain ⟨more, hmore⟩ := List.take_prefix_take_left (l := _) hk
    exact termsLe_of_spec (hspec k) (hmore ▸ hspec k')
  · rintro pre post rfl
    obtain ⟨more, hmore⟩ :=
      revisions_runFrom_prefix command ((contractStore command).run pre) post
    have hrun : (contractStore command).run (pre ++ post) =
        (contractStore command).runFrom ((contractStore command).run pre) post :=
      Machine.runFrom_append _ _ _ _
    rw [effectiveActionTermsThrough_eq, hrun, hmore, List.take_left]
    unfold TaskContractStore.effectiveActionTerms
    split_ifs with hempty
    · rw [List.isEmpty_iff.1 hempty]
      rfl
    · rfl

/-- A fill is declared with a ban on submitting, then omitted with a screenshot requested and the
ban lifted, then declared again. -/
def omittingDeclarations : List Declaration :=
  let contract : TaskContractBody :=
    { deliverable := .actions
      subject := "the form"
      fill := some ⟨.allEligible, none⟩
      submit := .forbidden }
  [⟨contract, "2026-01-01T00:00:00Z", true⟩,
    ⟨{ contract with fill := none, artifacts := [{ scope := .viewport }], submit := .allowed },
      "2026-01-01T00:01:00Z", true⟩,
    ⟨contract, "2026-01-01T00:02:00Z", true⟩]

theorem effectiveActionTerms_monotone_omitting :
    TermsSpec (((contractStore .do).run omittingDeclarations).revisions.take 1)
        (((contractStore .do).run omittingDeclarations).effectiveActionTermsThrough (1 : Nat)) ∧
      TermsLe
        (((contractStore .do).run omittingDeclarations).effectiveActionTermsThrough (1 : Nat))
        (((contractStore .do).run omittingDeclarations).effectiveActionTermsThrough (3 : Nat)) :=
  have h := effectiveActionTerms_monotone .do omittingDeclarations 1 3 (by decide)
  ⟨h.2.1, h.2.2.1⟩

/-- All three terms are in force at the end, each dated by its first declaration. -/
example : ((contractStore .do).run omittingDeclarations).effectiveActionTerms =
    ⟨some ⟨.allEligible, [], 1⟩, [⟨.screenshot, .viewport, 2⟩], .forbidden 1⟩ := by rfl

end Yantra
