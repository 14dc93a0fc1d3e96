import Mathlib.Data.Fin.Tuple.Sort
import Mathlib.Data.Fin.VecNotation
import Yantra.Synthesis.Clustering

/-!
# When clusters do not depend on the order of the documents

The canonical order makes the clusters independent of the order in which the documents are given, as
far as it tells documents apart. Documents with the same URL and different texts are taken in the
order they are given, and the first of them decides what the cluster of the URL is compared with.

## Main definitions

* `Synthesis.MembershipStable` — shuffling the documents shuffles the clusters.
* `Synthesis.SortedApart` — documents that tie in the canonical order are alike.

## Main results

* `Synthesis.clusteringHolds_iff` — the two together.
-/

namespace Yantra.Synthesis

open List Option

/-! ## Placing by kinds -/

section Kinds

variable {ι κ : Type} (f : ι → κ)

def MutableCluster.map (cluster : MutableCluster ι) : MutableCluster κ :=
  ⟨f cluster.seed, cluster.later.map f, cluster.similarity⟩

def Progress.map (p : Progress ι) : Progress κ := ⟨p.clusters.map (·.map f), p.clusterByUrl⟩

@[simp] lemma MutableCluster.map_push (cluster : MutableCluster ι) (i : ι) (s : ℚ) :
    (cluster.push i s).map f = (cluster.map f).push (f i) s := by
  simp [MutableCluster.map, MutableCluster.push]

variable {url : ι → String} {url' : κ → String} {similar : ι → ι → ℚ} {similar' : κ → κ → ℚ}

lemma bestMatch_map (hsimilar : ∀ i j, similar' (f i) (f j) = similar i j) (i : ι)
    (clusters : List (MutableCluster ι)) :
    bestMatch similar' (f i) (clusters.map (·.map f)) = bestMatch similar i clusters := by
  unfold bestMatch
  rw [zipIdx_map, foldl_map]
  congr 1
  funext best cluster
  simp only [betterMatch, Prod.map_fst, Prod.map_snd, id_eq, MutableCluster.map, hsimilar]

lemma map_modify_push (clusters : List (MutableCluster ι)) (c : ℕ) (i : ι)
    (s : MutableCluster ι → ℚ) (s' : MutableCluster κ → ℚ) (hs : ∀ k, s' (k.map f) = s k) :
    (clusters.modify c fun k => k.push i (s k)).map (·.map f) =
      (clusters.map (·.map f)).modify c fun k => k.push (f i) (s' k) := by
  induction clusters generalizing c with
  | nil => cases c <;> rfl
  | cons k clusters ih =>
    cases c with
    | zero =>
      rw [modify_zero_cons, map_cons, map_cons, modify_zero_cons,
        MutableCluster.map_push, hs]
    | succ c =>
      rw [modify_succ_cons, map_cons, map_cons, modify_succ_cons, ih]

lemma place_map (hurl : ∀ i, url' (f i) = url i)
    (hsimilar : ∀ i j, similar' (f i) (f j) = similar i j) (p : Progress ι) (i : ι) :
    place url' similar' (p.map f) (f i) = (place url similar p i).map f := by
  have hbest : bestMatch similar' (f i) (p.map f).clusters = bestMatch similar i p.clusters :=
    bestMatch_map f hsimilar i p.clusters
  unfold place
  rw [hbest, hurl]
  rw [show (p.map f).clusterByUrl = p.clusterByUrl from rfl]
  cases p.clusterByUrl (url i) with
  | some c =>
    exact congrArg (Progress.mk · p.clusterByUrl)
      (map_modify_push f p.clusters c i (fun _ => 1) (fun _ => 1) fun _ => rfl).symm
  | none =>
    dsimp only
    cases (bestMatch similar i p.clusters).1 with
    | some c =>
      exact congrArg (Progress.mk · _)
        (map_modify_push f p.clusters c i (fun k => max k.similarity _)
          (fun k => max k.similarity _) fun _ => rfl).symm
    | none =>
      simp [Progress.map, MutableCluster.map]

lemma placeAll_map (hurl : ∀ i, url' (f i) = url i)
    (hsimilar : ∀ i j, similar' (f i) (f j) = similar i j) (order : List ι) :
    placeAll url' similar' (order.map f) = (placeAll url similar order).map f := by
  induction order using reverseRecOn with
  | nil => rfl
  | append_singleton order i ih =>
    rw [map_append, placeAll, foldl_append, ← placeAll, ih]
    exact (place_map f hurl hsimilar _ i).trans (by rw [placeAll, placeAll, foldl_append]; rfl)

end Kinds

/-! ## The canonical order -/

section Canonical

variable {n : ℕ} (order : LocaleOrder) (similarity : Similarity) (docs : Fin n → SynthesisDoc)

/-- What placing reads of a document. -/
def kind (doc : SynthesisDoc) : String × String := (normalizedUrl doc, doc.text)

variable {i j : Fin n}

lemma le_of_canonicalLe (h : canonicalLe order docs i j) :
    order.le (normalizedUrl (docs i)) (normalizedUrl (docs j)) := by
  unfold canonicalLe at h
  dsimp only at h
  split at h
  next htie => exact (Bool.and_eq_true_iff.1 htie).1
  next => exact h

lemma canonicalLe_of_url_eq (hurl : normalizedUrl (docs i) = normalizedUrl (docs j)) :
    canonicalLe order docs i j ↔ i ≤ j := by
  have hrefl : order.le (normalizedUrl (docs j)) (normalizedUrl (docs j)) := by
    simpa using order.total (normalizedUrl (docs j)) (normalizedUrl (docs j))
  unfold canonicalLe
  dsimp only
  rw [hurl, hrefl, Bool.and_self, if_pos rfl, decide_eq_true_eq]

lemma canonicalLe_total (i j : Fin n) :
    canonicalLe order docs i j ∨ canonicalLe order docs j i := by
  have htotal := order.total (normalizedUrl (docs i)) (normalizedUrl (docs j))
  unfold canonicalLe
  dsimp only
  cases hij : order.le (normalizedUrl (docs i)) (normalizedUrl (docs j)) with
  | false =>
    rw [hij, Bool.false_or] at htotal
    simp [htotal]
  | true =>
    cases hji : order.le (normalizedUrl (docs j)) (normalizedUrl (docs i)) with
    | false => simp
    | true => simpa using le_total i j

lemma canonicalLe_trans {i j k : Fin n} (hij : canonicalLe order docs i j)
    (hjk : canonicalLe order docs j k) : canonicalLe order docs i k := by
  have h1 := le_of_canonicalLe order docs hij
  have h2 := le_of_canonicalLe order docs hjk
  have hle := order.trans _ _ _ h1 h2
  by_cases hback : order.le (normalizedUrl (docs k)) (normalizedUrl (docs i))
  · -- all three tie
    have hji := order.trans _ _ _ h2 hback
    have hkj := order.trans _ _ _ hback h1
    unfold canonicalLe at hij hjk ⊢
    simp only [h1, h2, hle, hback, hji, hkj, Bool.and_self, if_true, decide_eq_true_eq] at hij hjk ⊢
    exact hij.trans hjk
  · unfold canonicalLe
    dsimp only
    rw [if_neg (by simp [hback]), hle]

lemma pairwise_canonicalOrder :
    (canonicalOrder order docs).Pairwise fun i j => canonicalLe order docs i j = true := by
  have htotal : Std.Total fun i j : Fin n => canonicalLe order docs i j = true :=
    ⟨canonicalLe_total order docs⟩
  have htrans : IsTrans (Fin n) fun i j => canonicalLe order docs i j = true :=
    ⟨fun _ _ _ => canonicalLe_trans order docs⟩
  exact pairwise_insertionSort _ _

lemma pairwise_kinds :
    ((canonicalOrder order docs).map fun i => kind (docs i)).Pairwise fun a b =>
      order.le a.1 b.1 :=
  pairwise_map.2 ((pairwise_canonicalOrder order docs).imp (le_of_canonicalLe order docs))

lemma perm_kinds :
    ((canonicalOrder order docs).map fun i => kind (docs i)).Perm (ofFn fun i => kind (docs i))
    := by
  rw [ofFn_eq_map]
  exact (perm_insertionSort _ _).map _

lemma clusterByUrl_placedDocs :
    (placedDocs order similarity docs).clusterByUrl =
      (placeAll Prod.fst (fun a b => similarity.between (ofFn fun k => (docs k).text) a.2 b.2)
        ((canonicalOrder order docs).map fun i => kind (docs i))).clusterByUrl := by
  have hplaced : placeAll Prod.fst
      (fun a b => similarity.between (ofFn fun k => (docs k).text) a.2 b.2)
      ((canonicalOrder order docs).map fun i => kind (docs i)) =
        (placedDocs order similarity docs).map fun i => kind (docs i) :=
    placeAll_map (fun i => kind (docs i)) (fun _ => rfl) (fun _ _ => rfl) _
  rw [hplaced]
  rfl

/-! ## Alike ties -/

def TiesAlike : Prop :=
  ∀ i j, order.le (normalizedUrl (docs i)) (normalizedUrl (docs j)) = true →
    order.le (normalizedUrl (docs j)) (normalizedUrl (docs i)) = true →
    kind (docs i) = kind (docs j)

/-- Shuffling the documents shuffles the clusters and changes no membership. -/
def MembershipStable : Prop :=
  ∀ (σ : Equiv.Perm (Fin n)) i j,
    Together (clusterSources order similarity (docs ∘ σ)) i j ↔
      Together (clusterSources order similarity docs) (σ i) (σ j)

variable {order docs}

/-- Alike ties: the clusters of the URLs are the same for shuffled documents.

**Proof sketch.** The kinds in the canonical orders are the same kinds, both sorted by URL. Where
ties are alike, that leaves one order. -/
lemma clusterByUrl_shuffled (hties : TiesAlike order docs) (σ : Equiv.Perm (Fin n)) :
    (placedDocs order similarity (docs ∘ σ)).clusterByUrl =
      (placedDocs order similarity docs).clusterByUrl := by
  have hperm : (ofFn fun i => kind ((docs ∘ σ) i)).Perm (ofFn fun i => kind (docs i)) :=
    Equiv.Perm.ofFn_comp_perm σ fun i => kind (docs i)
  have hcorpus : (ofFn fun i => ((docs ∘ σ) i).text).Perm (ofFn fun i => (docs i).text) :=
    Equiv.Perm.ofFn_comp_perm σ fun i => (docs i).text
  have hkinds : ((canonicalOrder order (docs ∘ σ)).map fun i => kind ((docs ∘ σ) i)) =
      (canonicalOrder order docs).map fun i => kind (docs i) := by
    refine Perm.eq_of_pairwise (fun a b ha hb hab hba => ?_) (pairwise_kinds order (docs ∘ σ))
      (pairwise_kinds order docs)
      ((perm_kinds order (docs ∘ σ)).trans (hperm.trans (perm_kinds order docs).symm))
    obtain ⟨i, -, rfl⟩ := List.mem_map.1 ha
    obtain ⟨j, -, rfl⟩ := List.mem_map.1 hb
    exact hties (σ i) j hab hba
  rw [clusterByUrl_placedDocs, clusterByUrl_placedDocs, hkinds, similarity.perm _ _ hcorpus]

lemma membershipStable_of_tiesAlike (hties : TiesAlike order docs) :
    MembershipStable order similarity docs := by
  intro σ i j
  rw [together_iff, together_iff, clusterByUrl_shuffled similarity hties σ]
  rfl

lemma membershipStable_of_single (hone : ∀ i j, normalizedUrl (docs i) = normalizedUrl (docs j)) :
    MembershipStable order similarity docs := by
  intro σ i j
  exact iff_of_true
    ((clusterSources_wellFormed order similarity (docs ∘ σ)).together_of_url i j (hone _ _))
    ((clusterSources_wellFormed order similarity docs).together_of_url _ _ (hone _ _))

/-! ## One URL with two texts -/

section Linked

variable {ι : Type} {url : ι → String} {similar : ι → ι → ℚ} {hot : ι → Prop}

/-- The progress when the hot documents are similar to each other and no others are similar: a URL
is in the hot cluster, the only one, exactly when its first document is hot; any other cluster is of
one URL. -/
structure Linked (url : ι → String) (hot : ι → Prop) (p : Progress ι) (done : List ι) : Prop where
  present : ∀ u c, p.clusterByUrl u = some c → ∃ i ∈ done, url i = u
  link : ∀ u c cluster i, p.clusterByUrl u = some c → p.clusters[c]? = some cluster →
    done.find? (fun j => url j = u) = some i → (hot i ↔ hot cluster.seed)
  one : ∀ (c c' : ℕ) (k k' : MutableCluster ι), p.clusters[c]? = some k → p.clusters[c']? = some k' → hot k.seed →
    hot k'.seed → c = c'
  own : ∀ u c cluster, p.clusterByUrl u = some c → p.clusters[c]? = some cluster →
    ¬ hot cluster.seed → u = url cluster.seed

variable {done : List ι}

lemma find?_append_of_mem {i : ι} {u : String} (h : ∃ j ∈ done, url j = u) :
    (done ++ [i]).find? (fun j => url j = u) = done.find? fun j => url j = u := by
  rw [find?_append]
  cases hfind : done.find? fun j => url j = u with
  | some j => rfl
  | none =>
    obtain ⟨j, hj, hurl⟩ := h
    exact absurd (decide_eq_true hurl) (find?_eq_none.1 hfind j hj)

lemma exists_of_getElem?_modify_push {clusters : List (MutableCluster ι)} {c c' : ℕ} {i : ι}
    {s : MutableCluster ι → ℚ} {cluster : MutableCluster ι}
    (h : (clusters.modify c fun k => k.push i (s k))[c']? = some cluster) :
    ∃ old, clusters[c']? = some old ∧ cluster.seed = old.seed := by
  rw [getElem?_modify] at h
  split at h
  next =>
    obtain ⟨old, hold, rfl⟩ := map_eq_some_iff.1 h
    exact ⟨old, hold, rfl⟩
  next => exact ⟨cluster, by simpa using h, rfl⟩

variable {p : Progress ι}

lemma Linked.place (hthreshold : ∀ i j, CLUSTER_SIMILARITY_THRESHOLD ≤ similar i j ↔ hot i ∧ hot j)
    (hplaced : Placed url p done) (h : Linked url hot p done) (i : ι) :
    Linked url hot (place url similar p i) (done ++ [i]) := by
  have hnew : ∀ {u}, p.clusterByUrl u = none → ¬ ∃ j ∈ done, url j = u := by
    rintro u hnone ⟨j, hj, rfl⟩
    obtain ⟨k, hk, hmem⟩ := mem_flatMap.1 (hplaced.perm.mem_iff.2 hj)
    obtain ⟨c, hc⟩ := mem_iff_getElem?.1 hk
    exact absurd (hnone.symm.trans (hplaced.home c k hc j hmem)) nofun
  have hfirst : ∀ {u}, p.clusterByUrl u = none → u = url i →
      (done ++ [i]).find? (fun j => url j = u) = some i := by
    rintro u hnone rfl
    rw [find?_append, find?_eq_none.2 fun j hj => by
      simpa using fun heq => hnew hnone ⟨j, hj, heq⟩]
    simp
  have hby := placedBy_place url similar p i
  generalize Synthesis.place url similar p i = p' at hby
  cases hby with
  | joined c s hc =>
    -- the URL is of the cluster already, or the document is hot and so is the seed
    have hown : ∀ cluster, p.clusters[c]? = some cluster →
        p.clusterByUrl (url i) = some c ∨
          p.clusterByUrl (url i) = none ∧ hot i ∧ hot cluster.seed := by
      intro cluster hcluster
      obtain hc | ⟨hnone, hbest⟩ := hc
      · exact .inl hc
      · obtain ⟨k, hk, hle⟩ := exists_of_bestMatch hbest
        rw [some.inj (hcluster.symm.trans hk)]
        exact .inr ⟨hnone, (hthreshold _ _).1 hle⟩
    refine ⟨fun u c' hu => ?_, fun u c' cluster j hu hcluster hj => ?_,
      fun c₁ c₂ k₁ k₂ h₁ h₂ hhot₁ hhot₂ => ?_, fun u c' cluster hu hcluster hcold => ?_⟩
    · dsimp only at hu
      by_cases hurl : u = url i
      · exact ⟨i, by simp, hurl.symm⟩
      · rw [Function.update_of_ne hurl] at hu
        obtain ⟨j, hj, hju⟩ := h.present u c' hu
        exact ⟨j, mem_append_left _ hj, hju⟩
    · dsimp only at hu hcluster
      obtain ⟨old, hold, hseed⟩ := exists_of_getElem?_modify_push hcluster
      rw [hseed]
      by_cases hurl : u = url i
      · rw [hurl, Function.update_self] at hu
        obtain rfl := some.inj hu
        obtain hmap | ⟨hnone, hi, hhot⟩ := hown old hold
        · rw [hurl, find?_append_of_mem (h.present _ _ hmap)] at hj
          exact h.link _ c old j hmap hold hj
        · rw [hurl, hfirst hnone rfl] at hj
          exact some.inj hj ▸ iff_of_true hi hhot
      · rw [Function.update_of_ne hurl] at hu
        rw [find?_append_of_mem (h.present u c' hu)] at hj
        exact h.link u c' old j hu hold hj
    · dsimp only at h₁ h₂
      obtain ⟨old₁, hold₁, hseed₁⟩ := exists_of_getElem?_modify_push h₁
      obtain ⟨old₂, hold₂, hseed₂⟩ := exists_of_getElem?_modify_push h₂
      exact h.one c₁ c₂ old₁ old₂ hold₁ hold₂ (hseed₁ ▸ hhot₁) (hseed₂ ▸ hhot₂)
    · dsimp only at hu hcluster
      obtain ⟨old, hold, hseed⟩ := exists_of_getElem?_modify_push hcluster
      rw [hseed] at hcold ⊢
      by_cases hurl : u = url i
      · rw [hurl, Function.update_self] at hu
        obtain rfl := some.inj hu
        obtain hmap | ⟨-, -, hhot⟩ := hown old hold
        · rw [hurl]
          exact h.own _ c old hmap hold hcold
        · exact absurd hhot hcold
      · rw [Function.update_of_ne hurl] at hu
        exact h.own u c' old hu hold hcold
  | fresh hurl hbest =>
    have hcold : hot i → ∀ cluster ∈ p.clusters, ¬ hot cluster.seed := by
      intro hi cluster hcluster hhot
      exact absurd ((hthreshold _ _).2 ⟨hi, hhot⟩)
        (not_le.2 (lt_of_bestMatch_none hbest cluster hcluster))
    -- a cluster with its number: an old one, or the new one
    have hcases : ∀ {c : ℕ} {cluster : MutableCluster ι},
        (p.clusters ++ [⟨i, [], 1⟩])[c]? = some cluster →
        p.clusters[c]? = some cluster ∨ c = p.clusters.length ∧ cluster.seed = i := by
      intro c cluster hcluster
      obtain hlt | hge := Nat.lt_or_ge c p.clusters.length
      · exact .inl (by rwa [getElem?_append_left hlt] at hcluster)
      · rw [getElem?_append_right hge] at hcluster
        obtain ⟨hlast, rfl⟩ := List.getElem?_eq_some_iff.1 hcluster
        rw [length_singleton] at hlast
        exact .inr ⟨by omega, by simp⟩
    refine ⟨fun u c' hu => ?_, fun u c' cluster j hu hcluster hj => ?_,
      fun c₁ c₂ k₁ k₂ h₁ h₂ hhot₁ hhot₂ => ?_, fun u c' cluster hu hcluster hcoldseed => ?_⟩
    · dsimp only at hu
      by_cases heq : u = url i
      · exact ⟨i, by simp, heq.symm⟩
      · rw [Function.update_of_ne heq] at hu
        obtain ⟨j, hj, hju⟩ := h.present u c' hu
        exact ⟨j, mem_append_left _ hj, hju⟩
    · dsimp only at hu hcluster
      by_cases heq : u = url i
      · rw [heq, Function.update_self] at hu
        rw [heq, hfirst hurl rfl] at hj
        obtain hold | ⟨-, hseed⟩ := hcases hcluster
        · have := (List.getElem?_eq_some_iff.1 hold).1
          have := some.inj hu
          omega
        · rw [hseed, some.inj hj]
      · rw [Function.update_of_ne heq] at hu
        have hlt := hplaced.bound u c' hu
        rw [find?_append_of_mem (h.present u c' hu)] at hj
        obtain hold | ⟨hlen, -⟩ := hcases hcluster
        · exact h.link u c' cluster j hu hold hj
        · omega
    · obtain hold₁ | ⟨hlen₁, hseed₁⟩ := hcases h₁
      · obtain hold₂ | ⟨-, hseed₂⟩ := hcases h₂
        · exact h.one c₁ c₂ k₁ k₂ hold₁ hold₂ hhot₁ hhot₂
        · exact absurd hhot₁ (hcold (hseed₂ ▸ hhot₂) k₁ (mem_of_getElem? hold₁))
      · obtain hold₂ | ⟨hlen₂, -⟩ := hcases h₂
        · exact absurd hhot₂ (hcold (hseed₁ ▸ hhot₁) k₂ (mem_of_getElem? hold₂))
        · rw [hlen₁, hlen₂]
    · dsimp only at hu hcluster
      by_cases heq : u = url i
      · rw [heq, Function.update_self] at hu
        obtain hold | ⟨-, hseed⟩ := hcases hcluster
        · have := (List.getElem?_eq_some_iff.1 hold).1
          have := some.inj hu
          omega
        · rw [hseed, heq]
      · rw [Function.update_of_ne heq] at hu
        have hlt := hplaced.bound u c' hu
        obtain hold | ⟨hlen, -⟩ := hcases hcluster
        · exact h.own u c' cluster hu hold hcoldseed
        · omega

lemma linked_placeAll (hthreshold : ∀ i j, CLUSTER_SIMILARITY_THRESHOLD ≤ similar i j ↔ hot i ∧ hot j)
    (order : List ι) : Linked url hot (placeAll url similar order) order := by
  induction order using reverseRecOn with
  | nil => exact ⟨nofun, nofun, nofun, nofun⟩
  | append_singleton order i ih =>
    rw [placeAll, foldl_append]
    exact ih.place hthreshold (placed_placeAll url similar order) i

/-- Two URLs, with their first documents: they have the same cluster exactly when they are the same
or both documents are hot. -/
lemma Linked.clusterByUrl_eq_iff (hplaced : Placed url p done) (h : Linked url hot p done)
    {u v : String} {i j : ι} (hi : done.find? (fun k => url k = u) = some i)
    (hj : done.find? (fun k => url k = v) = some j) :
    p.clusterByUrl u = p.clusterByUrl v ↔ u = v ∨ hot i ∧ hot j := by
  have hhome : ∀ {u i}, done.find? (fun k => url k = u) = some i →
      ∃ c cluster, p.clusterByUrl u = some c ∧ p.clusters[c]? = some cluster := by
    intro u i hi
    have hurl : url i = u := by simpa using find?_some hi
    obtain ⟨k, hk, hmem⟩ := mem_flatMap.1
      (hplaced.perm.mem_iff.2 (mem_of_find?_eq_some hi))
    obtain ⟨c, hc⟩ := mem_iff_getElem?.1 hk
    exact ⟨c, k, hurl ▸ hplaced.home c k hc i hmem, hc⟩
  obtain ⟨c, k, hu, hk⟩ := hhome hi
  obtain ⟨c', k', hv, hk'⟩ := hhome hj
  have hlinki := h.link u c k i hu hk hi
  have hlinkj := h.link v c' k' j hv hk' hj
  constructor
  · intro heq
    obtain rfl : c = c' := some.inj (hu.symm.trans (heq.trans hv))
    obtain rfl := some.inj (hk.symm.trans hk')
    by_cases hhot : hot k.seed
    · exact .inr ⟨hlinki.2 hhot, hlinkj.2 hhot⟩
    · exact .inl ((h.own u c k hu hk hhot).trans (h.own v c k hv hk hhot).symm)
  · rintro (rfl | ⟨hhi, hhj⟩)
    · rfl
    · rw [hu, hv, h.one c c' k k' hk hk' (hlinki.1 hhi) (hlinkj.1 hhj)]

end Linked

/-- The texts that satisfy `hot` are similar to each other, and no others are similar. -/
def hotSimilarity (hot : String → Bool) : Similarity where
  between _ a b := if hot a && hot b then 1 else 0
  symm _ a b := by rw [Bool.and_comm]
  perm _ _ _ := rfl

lemma threshold_le_hotSimilarity (hot : String → Bool) (docs : Fin n → SynthesisDoc) (i j : Fin n) :
    CLUSTER_SIMILARITY_THRESHOLD ≤ docSimilarity (hotSimilarity hot) docs i j ↔
      hot (docs i).text ∧ hot (docs j).text := by
  have hone : CLUSTER_SIMILARITY_THRESHOLD ≤ 1 := by decide +kernel
  have hzero : ¬ CLUSTER_SIMILARITY_THRESHOLD ≤ 0 := by decide +kernel
  rw [← Bool.and_eq_true]
  unfold docSimilarity hotSimilarity
  dsimp only
  split
  next hhot => exact iff_of_true hone hhot
  next hhot => exact iff_of_false hzero hhot

lemma find?_eq_of_pairwise {ι : Type} {r : ι → ι → Prop} {p : ι → Bool} {l : List ι}
    (hsorted : l.Pairwise r) {m : ι} (hm : m ∈ l) (hp : p m) (hleast : ∀ b ∈ l, p b → r b m → b = m)
    : l.find? p = some m := by
  induction l with
  | nil => cases hm
  | cons a l ih =>
    rw [pairwise_cons] at hsorted
    rw [find?_cons]
    split
    next ha =>
      obtain rfl | hm := mem_cons.1 hm
      · rfl
      · rw [hleast a mem_cons_self ha (hsorted.1 m hm)]
    next ha =>
      have hml : m ∈ l := by
        obtain rfl | hm := mem_cons.1 hm
        · rw [hp] at ha
          cases ha
        · exact hm
      exact ih hsorted.2 hml fun b hb => hleast b (mem_cons_of_mem a hb)

lemma find?_canonicalOrder (order : LocaleOrder) (docs : Fin n → SynthesisDoc) {m : Fin n}
    (hleast : ∀ b, normalizedUrl (docs b) = normalizedUrl (docs m) → m ≤ b) :
    (canonicalOrder order docs).find? (fun b => normalizedUrl (docs b) = normalizedUrl (docs m)) =
      some m := by
  refine find?_eq_of_pairwise (pairwise_canonicalOrder order docs) (mem_canonicalOrder order docs m)
    (decide_eq_true rfl) fun b _ hurl hbm => ?_
  have hurl := of_decide_eq_true hurl
  exact le_antisymm ((canonicalLe_of_url_eq order docs hurl).1 hbm) (hleast b hurl)

/-- Documents that come first of their URLs share a cluster exactly when they have one URL or are
both hot. -/
lemma together_hot_iff (order : LocaleOrder) (hot : String → Bool) (docs : Fin n → SynthesisDoc)
    {a b : Fin n} (ha : ∀ m, normalizedUrl (docs m) = normalizedUrl (docs a) → a ≤ m)
    (hb : ∀ m, normalizedUrl (docs m) = normalizedUrl (docs b) → b ≤ m) :
    Together (clusterSources order (hotSimilarity hot) docs) a b ↔
      normalizedUrl (docs a) = normalizedUrl (docs b) ∨
        hot (docs a).text ∧ hot (docs b).text := by
  rw [together_iff]
  exact Linked.clusterByUrl_eq_iff (placed_placedDocs order (hotSimilarity hot) docs)
    (linked_placeAll (threshold_le_hotSimilarity hot docs) _) (find?_canonicalOrder order docs ha)
    (find?_canonicalOrder order docs hb)

lemma exists_perm_first {i k : Fin n} (hik : i ≠ k) :
    ∃ (σ : Equiv.Perm (Fin n)) (a b : Fin n), a.val = 0 ∧ b.val = 1 ∧ σ a = i ∧ σ b = k := by
  have hn : 1 < n := by
    have := i.isLt
    have := k.isLt
    have hval : i.val ≠ k.val := fun h => hik (Fin.ext h)
    omega
  let a : Fin n := ⟨0, by omega⟩
  let b : Fin n := ⟨1, hn⟩
  have hab : a ≠ b := fun h => absurd (congrArg Fin.val h) Nat.zero_ne_one
  have hi : Equiv.swap a i b ≠ i := by
    intro h
    exact hab ((Equiv.swap a i).injective (h.trans (Equiv.swap_apply_left a i).symm)).symm
  refine ⟨(Equiv.swap a i).trans (Equiv.swap (Equiv.swap a i b) k), a, b, rfl, rfl, ?_, ?_⟩
  · rw [Equiv.trans_apply, Equiv.swap_apply_left, Equiv.swap_apply_of_ne_of_ne hi.symm hik]
  · rw [Equiv.trans_apply, Equiv.swap_apply_left]

/-- Stable clusters: documents of two URLs share a cluster exactly when both are hot, since each can
be put before all others. -/
lemma hot_iff_of_stable {order : LocaleOrder} {hot : String → Bool} {docs : Fin n → SynthesisDoc}
    (hstable : MembershipStable order (hotSimilarity hot) docs) {i k : Fin n}
    (hurl : normalizedUrl (docs i) ≠ normalizedUrl (docs k)) :
    Together (clusterSources order (hotSimilarity hot) docs) i k ↔
      hot (docs i).text ∧ hot (docs k).text := by
  have hne : i ≠ k := fun h => hurl (by rw [h])
  obtain ⟨σ, a, b, ha, hb, rfl, rfl⟩ := exists_perm_first hne
  rw [← hstable σ a b, together_hot_iff order hot (docs ∘ σ) (fun m _ => ?_) fun m hm => ?_]
  · exact or_iff_right hurl
  · rw [Fin.le_def, ha]
    exact Nat.zero_le _
  · -- the very first document has the other URL
    have hne : m ≠ a := by
      rintro rfl
      exact hurl hm
    have hval : m.val ≠ a.val := fun h => hne (Fin.ext h)
    rw [Fin.le_def]
    omega

/-- One URL with two texts, beside another URL: for some similarity the clusters depend on the order
of the documents.

**Proof sketch.** One of the two texts differs from that of the third document. Let only the other
one and the third be similar; then the URL shares a cluster with the third document or not, as the
one text or the other comes first. -/
lemma not_membershipStable (order : LocaleOrder) {docs : Fin n → SynthesisDoc} {i j k : Fin n}
    (hij : normalizedUrl (docs i) = normalizedUrl (docs j)) (htext : (docs i).text ≠ (docs j).text)
    (hk : normalizedUrl (docs k) ≠ normalizedUrl (docs i)) :
    ∃ similarity, ¬ MembershipStable order similarity docs := by
  wlog hkj : (docs k).text ≠ (docs j).text generalizing i j with hswap
  · rw [not_ne_iff] at hkj
    exact hswap hij.symm htext.symm (hij ▸ hk) (hkj ▸ htext.symm)
  let hot : String → Bool := fun t => t = (docs i).text ∨ t = (docs k).text
  refine ⟨hotSimilarity hot, fun hstable => ?_⟩
  have hik := (hot_iff_of_stable hstable hk.symm).2 ⟨by simp [hot], by simp [hot]⟩
  have hjk : Together (clusterSources order (hotSimilarity hot) docs) j k := by
    rw [together_iff] at hik ⊢
    rwa [← hij]
  have hhot := ((hot_iff_of_stable hstable (hij ▸ hk.symm)).1 hjk).1
  simp only [hot, decide_eq_true_eq] at hhot
  obtain h | h := hhot
  · exact htext h.symm
  · exact hkj h.symm

/-! ## What clustering should do -/

/-- The clusters are well formed and do not depend on the order of the documents, for every
similarity. -/
def ClusteringHolds (order : LocaleOrder) (docs : Fin n → SynthesisDoc) : Prop :=
  ∀ similarity, WellFormed docs (clusterSources order similarity docs) ∧
    MembershipStable order similarity docs

/-- Documents whose URLs tie are alike, or all documents have one URL. -/
def SortedApart (order : LocaleOrder) (docs : Fin n → SynthesisDoc) : Prop :=
  TiesAlike order docs ∨ ∀ i j, normalizedUrl (docs i) = normalizedUrl (docs j)

/-- The locale tells different URLs of the documents apart. -/
def UrlsDistinguished (order : LocaleOrder) (docs : Fin n → SynthesisDoc) : Prop :=
  ∀ i j, order.le (normalizedUrl (docs i)) (normalizedUrl (docs j)) = true →
    order.le (normalizedUrl (docs j)) (normalizedUrl (docs i)) = true →
    normalizedUrl (docs i) = normalizedUrl (docs j)

end Canonical

/-- Clusters are always well formed. They do not depend on the order of the documents when tied ones
are alike; and where the locale tells different URLs apart, for every similarity only then. -/
theorem clusteringHolds_iff {n : ℕ} (order : LocaleOrder) (docs : Fin n → SynthesisDoc) :
    (∀ similarity, WellFormed docs (clusterSources order similarity docs)) ∧
      (SortedApart order docs → ClusteringHolds order docs) ∧
      (UrlsDistinguished order docs → (ClusteringHolds order docs ↔ SortedApart order docs)) := by
  have hwell := fun similarity => clusterSources_wellFormed order similarity docs
  have henough : SortedApart order docs → ClusteringHolds order docs := by
    rintro (hties | hone) similarity
    · exact ⟨hwell similarity, membershipStable_of_tiesAlike similarity hties⟩
    · exact ⟨hwell similarity, membershipStable_of_single similarity hone⟩
  refine ⟨hwell, henough, fun hdistinguished => ⟨fun hholds => ?_, henough⟩⟩
  by_contra hapart
  rw [SortedApart, not_or] at hapart
  obtain ⟨hties, hone⟩ := hapart
  -- two tied documents are of one URL, so they differ in their texts
  simp only [TiesAlike, not_forall] at hties
  obtain ⟨i, j, hle, hge, hkind⟩ := hties
  have hurl := hdistinguished i j hle hge
  have htext : (docs i).text ≠ (docs j).text := fun h => hkind (Prod.ext hurl h)
  obtain ⟨k, hk⟩ : ∃ k, normalizedUrl (docs k) ≠ normalizedUrl (docs i) := by
    by_contra hall
    simp only [not_exists, not_ne_iff] at hall
    exact hone fun a b => (hall a).trans (hall b).symm
  obtain ⟨similarity, hnot⟩ := not_membershipStable order hurl htext hk
  exact hnot (hholds similarity).2

def codeOrder : LocaleOrder where
  le a b := decide (a ≤ b)
  total a b := by
    rw [Bool.or_eq_true, decide_eq_true_eq, decide_eq_true_eq]
    exact String.le_total a b
  trans a b c hab hbc := by
    rw [decide_eq_true_eq] at *
    exact String.le_trans hab hbc

def docOf (url text : String) : SynthesisDoc where
  url := url
  finalUrl := none
  host := "example.com"
  title := none
  fetchedAt := "2026-01-01T00:00:00.000Z"
  publishedAt := none
  text := text

/-- A story, and a page that was fetched twice with different texts. -/
def storyTwice : Fin 3 → SynthesisDoc :=
  ![docOf "https://a.example/story" "story", docOf "https://b.example/page" "story",
    docOf "https://b.example/page" "login"]

/-- With its first text the page copies the story; shuffled to the front, its second text makes a
cluster of its own. -/
theorem clustering_depends_on_order : ¬ ClusteringHolds codeOrder storyTwice := by
  intro hholds
  have hstable := (hholds (hotSimilarity fun t => t == "story")).2 (Equiv.swap 1 2) 0 1
  revert hstable
  unfold Together
  decide +kernel

/-- Two documents of different URLs, and what their clusters depend on. -/
theorem clusteringHolds_two :
    ClusteringHolds codeOrder ![docOf "https://a.example/story" "story",
      docOf "https://b.example/page" "story"] := by
  refine (clusteringHolds_iff codeOrder _).2.1 (.inl fun i j hle hge => ?_)
  have hurl := String.le_antisymm (of_decide_eq_true hle) (of_decide_eq_true hge)
  revert hurl
  revert i j
  decide

end Yantra.Synthesis
