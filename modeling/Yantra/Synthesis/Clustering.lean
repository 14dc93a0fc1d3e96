import Mathlib.Algebra.Order.Field.Basic
import Mathlib.Algebra.Order.Ring.Rat
import Mathlib.Data.Fintype.Basic
import Mathlib.Data.List.Sort

/-!
# Clustering near-duplicate sources

The documents of a synthesis are put into clusters, one numbered source each. They are taken in a
canonical order, by URL and then by rank; a document goes to the cluster of its URL, or else to the
cluster whose first member it is most similar to, or else begins one. Comparing URLs in the locale
and the similarity of two texts are parameters, similarity exact.

## Main definitions

* `Synthesis.place` — one document; `Synthesis.clusterSources` — all of them.
* `Synthesis.Placed` — the documents placed so far, each in the cluster of its URL.

## Main results

* `Synthesis.Placed.place` — placing a document keeps the invariant.
* `Synthesis.clusterSources_wellFormed` — the clusters partition the documents, and are
  numbered in the order of their best ranked members.
* `Synthesis.together_iff` — two documents share a cluster exactly when their URLs do.
-/

namespace Yantra.Synthesis

open List Option Function

/-! ## Documents and parameters -/

structure SynthesisDoc where
  url : String
  finalUrl : Option String
  host : String
  title : Option String
  fetchedAt : String
  publishedAt : Option String
  text : String
  deriving DecidableEq

/-- `a.localeCompare(b) <= 0` -/
structure LocaleOrder where
  le : String → String → Bool
  total : ∀ a b, le a b || le b a
  trans : ∀ a b c, le a b → le b c → le a c

/-- `cosineSimilarity` of the `tfidfVectors` of two of the texts of a corpus. The vectors depend on
the other texts, not on their order. -/
structure Similarity where
  between : List String → String → String → ℚ
  symm : ∀ corpus a b, between corpus a b = between corpus b a
  perm : ∀ corpus corpus', corpus.Perm corpus' → between corpus = between corpus'

def CLUSTER_SIMILARITY_THRESHOLD : ℚ := 17 / 20

def normalizedUrl (doc : SynthesisDoc) : String := doc.finalUrl.getD doc.url

/-! ## Placing documents -/

/-- `MutableCluster`, the first of its members apart. -/
structure MutableCluster (ι : Type) where
  seed : ι
  later : List ι
  similarity : ℚ

namespace MutableCluster

variable {ι : Type}

/-- `members`, in the order they were added. -/
def members (cluster : MutableCluster ι) : List ι := cluster.seed :: cluster.later

/-- One member more, and the similarity after it. -/
def push (cluster : MutableCluster ι) (i : ι) (similarity : ℚ) : MutableCluster ι :=
  { cluster with later := cluster.later ++ [i], similarity := similarity }

@[simp] lemma members_push (cluster : MutableCluster ι) (i : ι) (similarity : ℚ) :
    (cluster.push i similarity).members = cluster.members ++ [i] := rfl

end MutableCluster

/-- The clusters so far, and the number of the cluster of each URL met. -/
structure Progress (ι : Type) where
  clusters : List (MutableCluster ι) := []
  clusterByUrl : String → Option ℕ := fun _ => none

section Placing

variable {ι : Type} (url : ι → String) (similar : ι → ι → ℚ)

/-- The better of the best match so far and a cluster, given with its number. -/
def betterMatch (i : ι) (best : Option ℕ × ℚ) (cluster : MutableCluster ι × ℕ) : Option ℕ × ℚ :=
  let similarity := similar i cluster.1.seed
  if CLUSTER_SIMILARITY_THRESHOLD ≤ similarity ∧ best.2 < similarity then
    (some cluster.2, similarity)
  else best

/-- The cluster whose seed is the most similar, the first of several, with that similarity. -/
def bestMatch (i : ι) (clusters : List (MutableCluster ι)) : Option ℕ × ℚ :=
  clusters.zipIdx.foldl (betterMatch similar i) (none, 0)

/-- The body of the loop over the canonical order. -/
def place (p : Progress ι) (i : ι) : Progress ι :=
  match p.clusterByUrl (url i) with
  | some c => { p with clusters := p.clusters.modify c fun cluster => cluster.push i 1 }
  | none =>
    let best := bestMatch similar i p.clusters
    match best.1 with
    | some c =>
      { clusters := p.clusters.modify c fun cluster =>
          cluster.push i (max cluster.similarity best.2)
        clusterByUrl := Function.update p.clusterByUrl (url i) (some c) }
    | none =>
      { clusters := p.clusters ++ [⟨i, [], 1⟩]
        clusterByUrl := Function.update p.clusterByUrl (url i) (some p.clusters.length) }

/-- The loop. -/
def placeAll (order : List ι) : Progress ι := order.foldl (place url similar) {}

/-- What placing a document does: it joins the cluster of its URL, or a similar one where the URL is
new, or begins a cluster. -/
inductive PlacedBy (p : Progress ι) (i : ι) : Progress ι → Prop
  | joined (c : ℕ) (similarity : MutableCluster ι → ℚ)
      (hc : p.clusterByUrl (url i) = some c ∨
        p.clusterByUrl (url i) = none ∧ (bestMatch similar i p.clusters).1 = some c) :
      PlacedBy p i
        { clusters := p.clusters.modify c fun cluster => cluster.push i (similarity cluster)
          clusterByUrl := Function.update p.clusterByUrl (url i) (some c) }
  | fresh (hurl : p.clusterByUrl (url i) = none)
      (hbest : (bestMatch similar i p.clusters).1 = none) :
      PlacedBy p i
        { clusters := p.clusters ++ [⟨i, [], 1⟩]
          clusterByUrl := Function.update p.clusterByUrl (url i) (some p.clusters.length) }

lemma placedBy_place (p : Progress ι) (i : ι) :
    PlacedBy url similar p i (place url similar p i) := by
  unfold place
  split
  next c hc =>
    have hmap : Function.update p.clusterByUrl (url i) (some c) = p.clusterByUrl := by
      rw [← hc, update_eq_self]
    have hjoined : PlacedBy url similar p i _ := .joined c (fun _ => 1) (.inl hc)
    rwa [hmap] at hjoined
  next hurl =>
    dsimp only
    split
    next c hbest => exact .joined c (fun k => max k.similarity _) (.inr ⟨hurl, hbest⟩)
    next hbest => exact .fresh hurl hbest

end Placing

/-! ## The result -/

structure SourceCluster (n : ℕ) where
  representative : Fin n
  members : List (Fin n)
  similarity : ℚ

structure BriefSource where
  n : ℕ
  url : String
  finalUrl : Option String
  host : String
  title : Option String
  excerpt : Option String
  fetchedAt : String
  publishedAt : Option String

/-- `ClusteringResult`, of `n` documents. -/
structure ClusteringResult (n : ℕ) where
  clusters : List (SourceCluster n)
  sources : List BriefSource
  clusterNumberByDoc : Fin n → ℕ

section ClusterSources

variable {n : ℕ} (order : LocaleOrder) (similarity : Similarity) (docs : Fin n → SynthesisDoc)

/-- The order of two documents in the canonical order: by URL, ties by index. -/
def canonicalLe (i j : Fin n) : Bool :=
  let left := normalizedUrl (docs i)
  let right := normalizedUrl (docs j)
  if order.le left right && order.le right left then i ≤ j else order.le left right

def canonicalOrder : List (Fin n) :=
  (List.finRange n).insertionSort fun i j => canonicalLe order docs i j

/-- The similarity of two of the documents. -/
def docSimilarity (i j : Fin n) : ℚ :=
  similarity.between (List.ofFn fun k => (docs k).text) (docs i).text (docs j).text

def placedDocs : Progress (Fin n) :=
  placeAll (fun i => normalizedUrl (docs i)) (docSimilarity similarity docs)
    (canonicalOrder order docs)

def rankMembers (cluster : MutableCluster (Fin n)) : SourceCluster n :=
  let members := cluster.members.insertionSort (· ≤ ·)
  ⟨members.headD cluster.seed, members, cluster.similarity⟩

/-- `ranked` -/
def rankClusters (clusters : List (MutableCluster (Fin n))) : List (SourceCluster n) :=
  (clusters.map rankMembers).insertionSort fun a b => a.representative ≤ b.representative

/-- The numbers of the documents: `numbers` with those of the clusters, the first one at
`position`. -/
def numberFrom : ℕ → List (SourceCluster n) → (Fin n → ℕ) → Fin n → ℕ
  | _, [], numbers => numbers
  | position, cluster :: clusters, numbers =>
    numberFrom (position + 1) clusters
      (cluster.members.foldl (fun numbers member => Function.update numbers member (position + 1))
        numbers)

def sourceOf (cluster : SourceCluster n) (position : ℕ) : BriefSource :=
  let representative := docs cluster.representative
  { n := position + 1
    url := representative.url
    finalUrl := representative.finalUrl
    host := representative.host
    title := representative.title
    excerpt := none
    fetchedAt := representative.fetchedAt
    publishedAt := representative.publishedAt }

/-- `clusterSources`; the documents are given as a function of their index, the search rank. -/
def clusterSources : ClusteringResult n :=
  if n = 0 then ⟨[], [], fun _ => 0⟩
  else
    let ranked := rankClusters (placedDocs order similarity docs).clusters
    { clusters := ranked
      sources := ranked.zipIdx.map fun cluster => sourceOf docs cluster.1 cluster.2
      clusterNumberByDoc := numberFrom 0 ranked fun _ => 0 }

end ClusterSources

/-! ## The invariant of placing -/

section Invariant

variable {ι : Type} {url : ι → String} {similar : ι → ι → ℚ}

/-- The documents placed so far: each is a member of one cluster, that of its URL. -/
structure Placed (url : ι → String) (p : Progress ι) (done : List ι) : Prop where
  perm : (p.clusters.flatMap MutableCluster.members).Perm done
  home : ∀ c cluster, p.clusters[c]? = some cluster →
    ∀ i ∈ cluster.members, p.clusterByUrl (url i) = some c
  bound : ∀ u c, p.clusterByUrl u = some c → c < p.clusters.length

variable {clusters : List (MutableCluster ι)} {c : ℕ} {i : ι}

lemma exists_of_bestMatch (h : (bestMatch similar i clusters).1 = some c) :
    ∃ cluster, clusters[c]? = some cluster ∧
      CLUSTER_SIMILARITY_THRESHOLD ≤ similar i cluster.seed := by
  have hall : ∀ (l : List (MutableCluster ι × ℕ)) (best : Option ℕ × ℚ),
      (∀ b, best.1 = some b → ∃ cluster, clusters[b]? = some cluster ∧
        CLUSTER_SIMILARITY_THRESHOLD ≤ similar i cluster.seed) →
      (∀ k ∈ l, clusters[k.2]? = some k.1) →
      ∀ b, (l.foldl (betterMatch similar i) best).1 = some b →
        ∃ cluster, clusters[b]? = some cluster ∧
          CLUSTER_SIMILARITY_THRESHOLD ≤ similar i cluster.seed := by
    intro l
    induction l with
    | nil => exact fun best hbest _ => hbest
    | cons k l ih =>
      intro best hbest hl
      rw [foldl_cons]
      refine ih _ (fun b hb => ?_) fun k' hk' => hl k' (mem_cons_of_mem k hk')
      simp only [betterMatch] at hb
      split at hb
      next hk => exact some.inj hb ▸ ⟨k.1, hl k mem_cons_self, hk.1⟩
      next => exact hbest b hb
  exact hall clusters.zipIdx (none, 0) nofun (fun k hk => mem_zipIdx_iff_getElem?.1 hk) c h

lemma lt_of_bestMatch_none (h : (bestMatch similar i clusters).1 = none) :
    ∀ cluster ∈ clusters, similar i cluster.seed < CLUSTER_SIMILARITY_THRESHOLD := by
  have hall : ∀ (l : List (MutableCluster ι × ℕ)) (best : Option ℕ × ℚ),
      (best.1 = none → best.2 = 0) → (l.foldl (betterMatch similar i) best).1 = none →
      best.1 = none ∧ ∀ k ∈ l, similar i k.1.seed < CLUSTER_SIMILARITY_THRESHOLD := by
    intro l
    induction l with
    | nil => exact fun best _ hnone => ⟨hnone, nofun⟩
    | cons k l ih =>
      intro best hzero hnone
      rw [foldl_cons] at hnone
      by_cases hk : CLUSTER_SIMILARITY_THRESHOLD ≤ similar i k.1.seed ∧ best.2 < similar i k.1.seed
      · rw [betterMatch, if_pos hk] at hnone
        have hsome : some k.2 = none := (ih _ (fun hnone => by cases hnone) hnone).1
        cases hsome
      · rw [betterMatch, if_neg hk] at hnone
        obtain ⟨hbest, hl⟩ := ih best hzero hnone
        refine ⟨hbest, forall_mem_cons.2 ⟨?_, hl⟩⟩
        by_contra hge
        rw [not_lt] at hge
        have hpos : (0 : ℚ) < CLUSTER_SIMILARITY_THRESHOLD := by decide +kernel
        exact hk ⟨hge, hzero hbest ▸ hpos.trans_le hge⟩
  intro cluster hcluster
  obtain ⟨c, hc⟩ := mem_iff_getElem?.1 hcluster
  exact (hall clusters.zipIdx (none, 0) (fun _ => rfl) h).2 (cluster, c)
    (mem_zipIdx_iff_getElem?.2 hc)

lemma perm_flatMap_modify (hc : c < clusters.length) (i : ι) (s : MutableCluster ι → ℚ) :
    ((clusters.modify c fun cluster => cluster.push i (s cluster)).flatMap
      MutableCluster.members).Perm (clusters.flatMap MutableCluster.members ++ [i]) := by
  induction clusters generalizing c with
  | nil => exact absurd hc (Nat.not_lt_zero c)
  | cons cluster clusters ih =>
    cases c with
    | zero =>
      rw [modify_zero_cons, flatMap_cons, flatMap_cons, MutableCluster.members_push,
        append_assoc, append_assoc]
      exact Perm.append_left _ perm_append_comm
    | succ c =>
      rw [modify_succ_cons, flatMap_cons, flatMap_cons, append_assoc]
      exact (ih (Nat.lt_of_succ_lt_succ hc)).append_left _

variable {p : Progress ι} {done : List ι}

/-- Placing a document keeps the invariant. -/
lemma Placed.place (h : Placed url p done) (i : ι) :
    Placed url (place url similar p i) (done ++ [i]) := by
  have hplaced := placedBy_place url similar p i
  generalize Synthesis.place url similar p i = p' at hplaced
  cases hplaced with
  | joined c s hc =>
    have hlt : c < p.clusters.length := by
      obtain hc | ⟨-, hc⟩ := hc
      · exact h.bound _ c hc
      · obtain ⟨cluster, hcluster, -⟩ := exists_of_bestMatch hc
        exact (List.getElem?_eq_some_iff.1 hcluster).1
    refine ⟨(perm_flatMap_modify hlt i s).trans (h.perm.append_right [i]),
      fun c' cluster hcluster j hj => ?_, fun u c' hu => ?_⟩
    · dsimp only at hcluster ⊢
      rw [getElem?_modify] at hcluster
      -- an old member of the cluster `c'`, or the new one
      have hold : ∀ old, p.clusters[c']? = some old → j ∈ old.members →
          Function.update p.clusterByUrl (url i) (some c) (url j) = some c' := by
        intro old hgetold hmem
        have hhome := h.home c' old hgetold j hmem
        by_cases hurl : url j = url i
        · rw [hurl] at hhome ⊢
          rw [update_self]
          obtain hc | ⟨hnone, -⟩ := hc
          · exact hc.symm.trans hhome
          · exact absurd (hnone.symm.trans hhome) nofun
        · rw [update_of_ne hurl, hhome]
      split at hcluster
      next heq =>
        obtain ⟨old, hgetold, rfl⟩ := map_eq_some_iff.1 hcluster
        rw [MutableCluster.members_push, mem_append, mem_singleton] at hj
        obtain hj | rfl := hj
        · exact hold old hgetold hj
        · rw [update_self, heq]
      next => exact hold cluster (by simpa using hcluster) hj
    · dsimp only at hu ⊢
      rw [length_modify]
      by_cases hurl : u = url i
      · rw [hurl, update_self] at hu
        exact some.inj hu ▸ hlt
      · rw [update_of_ne hurl] at hu
        exact h.bound u c' hu
  | fresh hurl hbest =>
    refine ⟨?_, fun c' cluster hcluster j hj => ?_, fun u c' hu => ?_⟩
    · rw [flatMap_append]
      exact h.perm.append_right [i]
    · dsimp only at hcluster ⊢
      rw [getElem?_append] at hcluster
      split at hcluster
      next =>
        have hhome := h.home c' cluster hcluster j hj
        have hne : url j ≠ url i := by
          intro heq
          rw [heq, hurl] at hhome
          cases hhome
        rw [update_of_ne hne, hhome]
      next hge =>
        obtain ⟨hlast, rfl⟩ := List.getElem?_eq_some_iff.1 hcluster
        rw [length_singleton] at hlast
        simp only [getElem_singleton, MutableCluster.members, mem_singleton] at hj
        rw [hj, update_self]
        congr 1
        omega
    · dsimp only at hu ⊢
      rw [length_append, length_singleton]
      by_cases heq : u = url i
      · rw [heq, update_self] at hu
        have := some.inj hu
        omega
      · rw [update_of_ne heq] at hu
        have := h.bound u c' hu
        omega

lemma placed_placeAll (url : ι → String) (similar : ι → ι → ℚ) (order : List ι) :
    Placed url (placeAll url similar order) order := by
  induction order using reverseRecOn with
  | nil => exact ⟨Perm.nil, nofun, nofun⟩
  | append_singleton order i ih =>
    rw [placeAll, foldl_append]
    exact ih.place i

lemma Placed.mem_iff (h : Placed url p done) (hi : i ∈ done) {cluster : MutableCluster ι}
    (hc : p.clusters[c]? = some cluster) :
    i ∈ cluster.members ↔ p.clusterByUrl (url i) = some c := by
  refine ⟨fun hmem => h.home c cluster hc i hmem, fun hurl => ?_⟩
  obtain ⟨k, hk, hmem⟩ := mem_flatMap.1 (h.perm.mem_iff.2 hi)
  obtain ⟨c', hc'⟩ := mem_iff_getElem?.1 hk
  have heq : c' = c := some.inj ((h.home c' k hc' i hmem).symm.trans hurl)
  subst heq
  rwa [some.inj (hc.symm.trans hc')]

lemma Placed.together_iff (h : Placed url p done) {i j : ι} (hi : i ∈ done) (hj : j ∈ done) :
    (∃ cluster ∈ p.clusters, i ∈ cluster.members ∧ j ∈ cluster.members) ↔
      p.clusterByUrl (url i) = p.clusterByUrl (url j) := by
  constructor
  · rintro ⟨cluster, hcluster, hmi, hmj⟩
    obtain ⟨c, hc⟩ := mem_iff_getElem?.1 hcluster
    rw [h.home c cluster hc i hmi, h.home c cluster hc j hmj]
  · intro hurl
    obtain ⟨cluster, hcluster, hmi⟩ := mem_flatMap.1 (h.perm.mem_iff.2 hi)
    obtain ⟨c, hc⟩ := mem_iff_getElem?.1 hcluster
    refine ⟨cluster, hcluster, hmi, ?_⟩
    rw [h.mem_iff hj hc, ← hurl, h.home c cluster hc i hmi]

end Invariant

/-! ## The clusters of the result -/

section Result

variable {n : ℕ}

/-- Two documents are in one cluster. -/
def Together (result : ClusteringResult n) (i j : Fin n) : Prop :=
  ∃ cluster ∈ result.clusters, i ∈ cluster.members ∧ j ∈ cluster.members

/-- The clusters partition the documents, are represented by their best ranked members and numbered
in the order of these, and keep documents of one URL together. -/
structure WellFormed (docs : Fin n → SynthesisDoc) (result : ClusteringResult n) : Prop where
  partition : (result.clusters.flatMap SourceCluster.members).Perm (List.finRange n)
  representative_mem : ∀ cluster ∈ result.clusters, cluster.representative ∈ cluster.members
  representative_le : ∀ cluster ∈ result.clusters, ∀ m ∈ cluster.members,
    cluster.representative ≤ m
  ordered : result.clusters.Pairwise fun a b => a.representative < b.representative
  numbered : ∀ k cluster, result.clusters[k]? = some cluster → ∀ m ∈ cluster.members,
    result.clusterNumberByDoc m = k + 1
  sources_n : result.sources.map BriefSource.n = List.range' 1 result.clusters.length
  together_of_url : ∀ i j, normalizedUrl (docs i) = normalizedUrl (docs j) → Together result i j

lemma perm_rankMembers (cluster : MutableCluster (Fin n)) :
    (rankMembers cluster).members.Perm cluster.members :=
  perm_insertionSort _ _

lemma rankMembers_representative (cluster : MutableCluster (Fin n)) :
    (rankMembers cluster).representative ∈ (rankMembers cluster).members ∧
      ∀ m ∈ (rankMembers cluster).members, (rankMembers cluster).representative ≤ m := by
  have hsorted := pairwise_insertionSort (· ≤ ·) cluster.members
  have hlen := length_insertionSort (· ≤ ·) cluster.members
  simp only [rankMembers]
  cases hmembers : cluster.members.insertionSort (· ≤ ·) with
  | nil =>
    rw [hmembers] at hlen
    cases hlen
  | cons m ms =>
    rw [hmembers] at hsorted
    exact ⟨mem_cons_self, forall_mem_cons.2 ⟨le_rfl, fun _ hm => rel_of_pairwise_cons hsorted hm⟩⟩

lemma perm_rankClusters (clusters : List (MutableCluster (Fin n))) :
    (rankClusters clusters).Perm (clusters.map rankMembers) :=
  perm_insertionSort _ _

variable {cluster : SourceCluster n}

lemma mem_rankClusters {clusters : List (MutableCluster (Fin n))} :
    cluster ∈ rankClusters clusters ↔ ∃ k ∈ clusters, rankMembers k = cluster :=
  (perm_rankClusters clusters).mem_iff.trans List.mem_map

lemma flatMap_rankClusters (clusters : List (MutableCluster (Fin n))) :
    ((rankClusters clusters).flatMap SourceCluster.members).Perm
      (clusters.flatMap MutableCluster.members) := by
  refine ((perm_rankClusters clusters).flatMap_right _).trans ?_
  rw [flatMap_map]
  exact Perm.flatMap_left _ fun cluster _ => perm_rankMembers cluster

lemma pairwise_rankClusters (clusters : List (MutableCluster (Fin n))) :
    (rankClusters clusters).Pairwise fun a b => a.representative ≤ b.representative := by
  have htotal : Std.Total fun a b : SourceCluster n => a.representative ≤ b.representative :=
    ⟨fun a b => le_total a.representative b.representative⟩
  have htrans : IsTrans (SourceCluster n) fun a b => a.representative ≤ b.representative :=
    ⟨fun _ _ _ => le_trans⟩
  exact pairwise_insertionSort _ _

lemma map_n_sourceOf (docs : Fin n → SynthesisDoc) (clusters : List (SourceCluster n)) (start : ℕ) :
    ((clusters.zipIdx start).map fun cluster => sourceOf docs cluster.1 cluster.2).map BriefSource.n =
      range' (start + 1) clusters.length := by
  induction clusters generalizing start with
  | nil => rfl
  | cons cluster clusters ih =>
    rw [zipIdx_cons, map_cons, map_cons, ih, length_cons, range'_succ]
    rfl

lemma foldl_update_apply (members : List (Fin n)) (v : ℕ) (numbers : Fin n → ℕ) (m : Fin n) :
    members.foldl (fun numbers member => Function.update numbers member v) numbers m =
      if m ∈ members then v else numbers m := by
  induction members generalizing numbers with
  | nil => rfl
  | cons m' members ih =>
    rw [foldl_cons, ih]
    by_cases hm : m ∈ members
    · rw [if_pos hm, if_pos (mem_cons_of_mem m' hm)]
    · by_cases heq : m = m'
      · rw [if_neg hm, heq, update_self, if_pos mem_cons_self]
      · rw [if_neg hm, update_of_ne heq, if_neg (by simp [heq, hm])]

variable {clusters : List (SourceCluster n)}

variable {m : Fin n}

lemma numberFrom_of_not_mem (h : m ∉ clusters.flatMap SourceCluster.members) (position : ℕ)
    (numbers : Fin n → ℕ) :
    numberFrom position clusters numbers m = numbers m := by
  induction clusters generalizing position numbers with
  | nil => rfl
  | cons cluster clusters ih =>
    rw [flatMap_cons, mem_append, not_or] at h
    rw [numberFrom, ih h.2, foldl_update_apply, if_neg h.1]

lemma numberFrom_of_mem (hnodup : (clusters.flatMap SourceCluster.members).Nodup) {k : ℕ}
    (hk : clusters[k]? = some cluster) (hm : m ∈ cluster.members) (position : ℕ)
    (numbers : Fin n → ℕ) : numberFrom position clusters numbers m = position + k + 1 := by
  induction clusters generalizing k position numbers with
  | nil => cases hk
  | cons first clusters ih =>
    rw [flatMap_cons, nodup_append] at hnodup
    obtain ⟨-, hrest, hdisjoint⟩ := hnodup
    cases k with
    | zero =>
      obtain rfl := some.inj hk
      have hout : m ∉ clusters.flatMap SourceCluster.members :=
        fun hmem => hdisjoint m hm m hmem rfl
      rw [numberFrom, numberFrom_of_not_mem hout, foldl_update_apply, if_pos hm, Nat.add_zero]
    | succ k =>
      rw [numberFrom, ih hrest hk]
      omega

lemma pairwise_representative (hnodup : (clusters.flatMap SourceCluster.members).Nodup)
    (hmem : ∀ cluster ∈ clusters, cluster.representative ∈ cluster.members)
    (hsorted : clusters.Pairwise fun a b => a.representative ≤ b.representative) :
    clusters.Pairwise fun a b => a.representative < b.representative := by
  have hdisjoint := (nodup_flatMap.1 hnodup).2
  refine (hsorted.and hdisjoint).imp_of_mem fun ha hb hab => lt_of_le_of_ne hab.1 fun heq => ?_
  exact hab.2 (hmem _ ha) (heq ▸ hmem _ hb)

variable (order : LocaleOrder) (similarity : Similarity) (docs : Fin n → SynthesisDoc)

lemma placed_placedDocs :
    Placed (fun i => normalizedUrl (docs i)) (placedDocs order similarity docs)
      (canonicalOrder order docs) :=
  placed_placeAll _ _ _

lemma mem_canonicalOrder (i : Fin n) : i ∈ canonicalOrder order docs :=
  (perm_insertionSort _ _).mem_iff.2 (mem_finRange i)

lemma clusterSources_of_ne_zero (h : n ≠ 0) :
    clusterSources order similarity docs =
      let ranked := rankClusters (placedDocs order similarity docs).clusters
      ⟨ranked, ranked.zipIdx.map fun cluster => sourceOf docs cluster.1 cluster.2,
        numberFrom 0 ranked fun _ => 0⟩ :=
  if_neg h

lemma clusters_clusterSources :
    (clusterSources order similarity docs).clusters =
      rankClusters (placedDocs order similarity docs).clusters := by
  unfold clusterSources
  split
  next hzero =>
    subst hzero
    have hnil : canonicalOrder order docs = [] := rfl
    rw [placedDocs, hnil]
    rfl
  next => rfl

lemma together_iff (i j : Fin n) :
    Together (clusterSources order similarity docs) i j ↔
      (placedDocs order similarity docs).clusterByUrl (normalizedUrl (docs i)) =
        (placedDocs order similarity docs).clusterByUrl (normalizedUrl (docs j)) := by
  rw [← (placed_placedDocs order similarity docs).together_iff (mem_canonicalOrder order docs i)
    (mem_canonicalOrder order docs j), Together, clusters_clusterSources]
  constructor
  · rintro ⟨cluster, hcluster, hi, hj⟩
    obtain ⟨k, hk, rfl⟩ := mem_rankClusters.1 hcluster
    exact ⟨k, hk, (perm_rankMembers k).mem_iff.1 hi, (perm_rankMembers k).mem_iff.1 hj⟩
  · rintro ⟨k, hk, hi, hj⟩
    exact ⟨rankMembers k, mem_rankClusters.2 ⟨k, hk, rfl⟩, (perm_rankMembers k).mem_iff.2 hi,
      (perm_rankMembers k).mem_iff.2 hj⟩

lemma clusterSources_wellFormed : WellFormed docs (clusterSources order similarity docs) := by
  have hclusters := clusters_clusterSources order similarity docs
  have hplaced := placed_placedDocs order similarity docs
  have hpartition : ((clusterSources order similarity docs).clusters.flatMap
      SourceCluster.members).Perm (finRange n) := by
    rw [hclusters]
    exact (flatMap_rankClusters _).trans (hplaced.perm.trans (perm_insertionSort _ _))
  have hnodup := hpartition.nodup_iff.2 (nodup_finRange n)
  have hrep : ∀ cluster ∈ (clusterSources order similarity docs).clusters,
      cluster.representative ∈ cluster.members ∧
        ∀ m ∈ cluster.members, cluster.representative ≤ m := by
    intro cluster hcluster
    rw [hclusters] at hcluster
    obtain ⟨k, -, rfl⟩ := mem_rankClusters.1 hcluster
    exact rankMembers_representative k
  refine ⟨hpartition, fun cluster h => (hrep cluster h).1, fun cluster h => (hrep cluster h).2, ?_,
    fun k cluster hk m hm => ?_, ?_, fun i j hurl => ?_⟩
  · refine pairwise_representative hnodup (fun cluster h => (hrep cluster h).1) ?_
    rw [hclusters]
    exact pairwise_rankClusters _
  · rw [hclusters] at hk hnodup
    rw [clusterSources_of_ne_zero _ _ _ (Fin.pos m).ne']
    exact (numberFrom_of_mem hnodup hk hm 0 _).trans (by rw [Nat.zero_add])
  · by_cases hzero : n = 0
    · rw [hclusters, clusterSources, if_pos hzero]
      subst hzero
      rfl
    · rw [hclusters, clusterSources_of_ne_zero _ _ _ hzero]
      exact map_n_sourceOf docs _ 0
  · exact (together_iff order similarity docs i j).2 (congrArg _ hurl)

end Result

end Yantra.Synthesis
