import Yantra.Research.Corpus

/-!
# What any sequence of admissions leaves in the corpus

A `SourcePool` keeps three things in step: the entries, the set of their identities, and the
number of entries of each host. The invariant is `Consistent`; a candidate is refused, inserted
into room, or put in the place of the worst peer of its host, and each of the three keeps it.

## Main definitions

* `Research.SourcePool.admitAll` — the pool after a sequence of candidates.
* `Research.SourcePool.Consistent` — identities are distinct and are the set kept beside
  the entries; no host has more than its cap.

## Main results

* `Research.admissions_consistent` — both, after every sequence of admissions.
-/

namespace Yantra.Research

open List

/-- The worst ranked entry ranks no better than the others.

**Proof sketch.** Induction on the entries after the first, the worst so far generalized: the new
worst is no better than the old one and than the entry met. -/
lemma rank_le_of_worstRanked {es : List PoolEntry} {w : PoolEntry} (h : worstRanked es = some w) :
    ∀ e ∈ es, e.rank ≤ w.rank := by
  cases es with
  | nil => cases h
  | cons e es =>
    obtain rfl := Option.some.inj h
    clear h
    induction es generalizing e with
    | nil => simp
    | cons e' es ih =>
      intro d hd
      rw [foldl_cons]
      obtain rfl | rfl | hd : d = e ∨ d = e' ∨ d ∈ es := by simpa using hd
      · refine le_trans ?_ (ih _ _ mem_cons_self)
        split
        next => exact le_rfl
        next hlt => omega
      · refine le_trans ?_ (ih _ _ mem_cons_self)
        split
        next hle => exact hle
        next => exact le_rfl
      · exact ih _ _ (mem_cons_of_mem _ hd)

namespace SourcePool

/-- The constructor, both caps given as whole numbers. -/
def ofOptions (maxSources : ℤ) (perHostCap : Option ℤ) : SourcePool where
  maxSources := (max 1 maxSources).toNat
  perHostCap := (max 1 (perHostCap.getD DEFAULT_PER_HOST_CAP)).toNat
  entries := []
  normalizedUrls := []
  size_le := Nat.zero_le _

/-- The pool after the candidates, each with its rank, were added in order. -/
def admitAll (pf : ResearchPlatform) (pool : SourcePool) (candidates : List (SynthesisDoc × ℕ)) :
    SourcePool :=
  candidates.foldl (fun pool c => (pool.add pf c.1 c.2).1) pool

def identities (pf : ResearchPlatform) (pool : SourcePool) : List String :=
  pool.entries.map fun e => e.doc.identity pf

/-- The entries, the identity set and the host counts agree with each other and the cap. -/
structure Consistent (pf : ResearchPlatform) (pool : SourcePool) : Prop where
  cap_pos : 0 < pool.perHostCap
  host_le : ∀ host, (pool.hostEntries host).length ≤ pool.perHostCap
  nodup : (pool.identities pf).Nodup
  mem_normalizedUrls : ∀ id, id ∈ pool.normalizedUrls ↔ id ∈ pool.identities pf

lemma consistent_ofOptions (pf : ResearchPlatform) (maxSources : ℤ) (perHostCap : Option ℤ) :
    (ofOptions maxSources perHostCap).Consistent pf where
  cap_pos := by
    simp only [ofOptions]
    omega
  host_le _ := Nat.zero_le _
  nodup := nodup_nil
  mem_normalizedUrls _ := Iff.rfl

/-! ### The two changes of the entries -/

variable {pf : ResearchPlatform} {pool : SourcePool} {doc : SynthesisDoc} {rank : ℕ}

lemma length_hostEntries_insert (id : String) (hroom : pool.entries.length < pool.maxSources)
    (host : String) :
    ((pool.insert doc rank id hroom).hostEntries host).length =
      (pool.hostEntries host).length + if doc.host = host then 1 else 0 := by
  simp only [hostEntries, insert, filter_append, length_append]
  by_cases hhost : doc.host = host
  · simp [hhost]
  · simp [hhost]

lemma Consistent.insert (hpool : pool.Consistent pf) (hroom : pool.entries.length < pool.maxSources)
    (hfresh : doc.identity pf ∉ pool.identities pf)
    (hhost : (pool.hostEntries doc.host).length < pool.perHostCap) :
    (pool.insert doc rank (doc.identity pf) hroom).Consistent pf where
  cap_pos := hpool.cap_pos
  host_le host := by
    rw [length_hostEntries_insert]
    change _ ≤ pool.perHostCap
    split
    next heq =>
      subst heq
      exact hhost
    next => exact hpool.host_le host
  nodup := by
    simp only [identities, SourcePool.insert, map_append, map_cons, map_nil]
    exact nodup_append.2 ⟨hpool.nodup, nodup_singleton _,
      fun a ha b hb hab => hfresh (by rwa [← mem_singleton.1 hb, ← hab])⟩
  mem_normalizedUrls id := by
    have hmem := hpool.mem_normalizedUrls id
    simp only [identities] at hmem
    simp only [identities, SourcePool.insert, map_append, mem_append, map_cons,
      map_nil, hmem]

/-- Entries with distinct identities: one other than `w` has another identity. -/
lemma Consistent.identity_ne (hpool : pool.Consistent pf) {e w : PoolEntry} (he : e ∈ pool.entries)
    (hw : w ∈ pool.entries) (hne : e ≠ w) :
    e.doc.identity pf ≠ w.doc.identity pf :=
  fun heq => hne (inj_on_of_nodup_map hpool.nodup he hw heq)

lemma Consistent.mem_evict (hpool : pool.Consistent pf) {e w : PoolEntry} :
    e ∈ (pool.evict pf w).entries ↔ e ≠ w ∧ e ∈ pool.entries :=
  (Nodup.of_map _ hpool.nodup).mem_erase_iff

variable {w : PoolEntry}

lemma length_hostEntries_evict (hw : w ∈ pool.entries) (host : String) :
    ((pool.evict pf w).hostEntries host).length =
      (pool.hostEntries host).length - if w.doc.host = host then 1 else 0 := by
  simp only [hostEntries, evict, ← countP_eq_length_filter, countP_erase, hw, true_and,
    decide_eq_true_eq]

lemma Consistent.evict (hpool : pool.Consistent pf) (hw : w ∈ pool.entries) :
    (pool.evict pf w).Consistent pf where
  cap_pos := hpool.cap_pos
  host_le host := by
    rw [length_hostEntries_evict hw]
    exact (Nat.sub_le _ _).trans (hpool.host_le host)
  nodup := hpool.nodup.sublist (erase_sublist.map _)
  mem_normalizedUrls id := by
    have hkept : id ∈ (pool.evict pf w).normalizedUrls ↔
        id ∈ pool.identities pf ∧ id ≠ w.doc.identity pf := by
      rw [← hpool.mem_normalizedUrls id]
      simp [SourcePool.evict]
    rw [hkept]
    constructor
    · rintro ⟨hid, hne⟩
      obtain ⟨e, he, rfl⟩ := mem_map.1 hid
      exact mem_map.2 ⟨e, hpool.mem_evict.2 ⟨fun heq => hne (by rw [heq]), he⟩, rfl⟩
    · intro hid
      obtain ⟨e, he, rfl⟩ := mem_map.1 hid
      obtain ⟨hne, he⟩ := hpool.mem_evict.1 he
      exact ⟨mem_map_of_mem he, hpool.identity_ne he hw hne⟩

/-! ### One admission -/

variable {host : String}

lemma worstPeer_eq_some (h : pool.worstPeer host = some w) :
    pool.perHostCap ≤ (pool.hostEntries host).length ∧ w.doc.host = host ∧
      ∀ e ∈ pool.hostEntries host, e.rank ≤ w.rank := by
  unfold worstPeer at h
  split at h
  next hcap =>
    have hw := (mem_filter.1 (mem_of_worstRanked h)).2
    exact ⟨hcap, of_decide_eq_true hw, rank_le_of_worstRanked h⟩
  next => cases h

lemma length_hostEntries_lt (hpool : pool.Consistent pf) (h : pool.worstPeer host = none) :
    (pool.hostEntries host).length < pool.perHostCap := by
  by_contra hcap
  rw [not_lt] at hcap
  rw [worstPeer, if_pos hcap] at h
  cases hentries : pool.hostEntries host with
  | nil =>
    have hpos := hpool.cap_pos
    rw [hentries, length_nil] at hcap
    omega
  | cons e es => rw [hentries] at h; cases h

/-- What one admission does: nothing, told why; a document into room; or one in the place of the
worst peer of its host. -/
inductive Admitted (pf : ResearchPlatform) (pool : SourcePool) (doc : SynthesisDoc) (rank : ℕ) :
    SourcePool × PoolAddResult → Prop
  | refused (reason : PoolRejection) (hreason : reason ≠ .host_cap) :
      Admitted pf pool doc rank (pool, ⟨false, some reason⟩)
  | outrankedBy (w : PoolEntry) (hw : pool.worstPeer doc.host = some w) (hrank : w.rank ≤ rank) :
      Admitted pf pool doc rank (pool, ⟨false, some .host_cap⟩)
  | inserted (hroom : pool.entries.length < pool.maxSources)
      (hfresh : doc.identity pf ∉ pool.normalizedUrls) (hpeer : pool.worstPeer doc.host = none) :
      Admitted pf pool doc rank (pool.insert doc rank (doc.identity pf) hroom, ⟨true, none⟩)
  | replaced (w : PoolEntry) (hw : pool.worstPeer doc.host = some w) (hrank : rank < w.rank)
      (hfresh : doc.identity pf ∉ pool.normalizedUrls) :
      Admitted pf pool doc rank ((pool.evict pf w).insert doc rank (doc.identity pf)
        (length_evict_lt pf (mem_of_worstPeer hw)), ⟨true, none⟩)

lemma admitted_addBeside (hfresh : doc.identity pf ∉ pool.normalizedUrls) {peer : Option PoolEntry}
    (hpeer : pool.worstPeer doc.host = peer) (h : ∀ w, peer = some w → w ∈ pool.entries) :
    Admitted pf pool doc rank (pool.addBeside pf doc rank peer h) := by
  cases peer with
  | none =>
    simp only [addBeside]
    split
    next hroom => exact .inserted hroom hfresh hpeer
    next => exact .refused _ (by decide)
  | some w =>
    simp only [addBeside]
    split
    next hrank => exact .outrankedBy w hpeer hrank
    next hrank => exact .replaced w hpeer (not_le.1 hrank) hfresh

lemma admitted_add (pf : ResearchPlatform) (pool : SourcePool) (doc : SynthesisDoc) (rank : ℕ) :
    Admitted pf pool doc rank (pool.add pf doc rank) := by
  unfold add
  split
  next => exact .refused _ (by decide)
  next hfresh =>
    split
    next => exact .refused _ (by decide)
    next => exact admitted_addBeside (by simpa using hfresh) rfl _

lemma Consistent.add (hpool : pool.Consistent pf) (doc : SynthesisDoc) (rank : ℕ) :
    (pool.add pf doc rank).1.Consistent pf := by
  have hadd := admitted_add pf pool doc rank
  generalize pool.add pf doc rank = added at hadd ⊢
  cases hadd with
  | refused => exact hpool
  | outrankedBy => exact hpool
  | inserted hroom hfresh hpeer =>
    exact hpool.insert hroom (mt (hpool.mem_normalizedUrls _).2 hfresh)
      (length_hostEntries_lt hpool hpeer)
  | replaced w hw hrank hfresh =>
    obtain ⟨-, hhost, -⟩ := worstPeer_eq_some hw
    have hmem := mem_of_worstPeer hw
    refine (hpool.evict hmem).insert (length_evict_lt pf hmem) ?_ ?_
    · intro hid
      refine hfresh ((hpool.mem_normalizedUrls _).2 ?_)
      exact (erase_sublist.map _).subset hid
    · have hle := hpool.host_le doc.host
      have hpos := hpool.cap_pos
      rw [length_hostEntries_evict hmem, if_pos hhost]
      change _ < pool.perHostCap
      omega

lemma caps_add (pf : ResearchPlatform) (pool : SourcePool) (doc : SynthesisDoc) (rank : ℕ) :
    (pool.add pf doc rank).1.maxSources = pool.maxSources ∧
      (pool.add pf doc rank).1.perHostCap = pool.perHostCap := by
  have hadd := admitted_add pf pool doc rank
  generalize pool.add pf doc rank = added at hadd ⊢
  cases hadd with
  | refused => exact ⟨rfl, rfl⟩
  | outrankedBy => exact ⟨rfl, rfl⟩
  | inserted => exact ⟨rfl, rfl⟩
  | replaced => exact ⟨rfl, rfl⟩

/-- A candidate refused for its host's cap, and an entry evicted for it, rank no better than any
entry of the host that stays; only an entry of a host at its cap is evicted. -/
lemma rank_le_of_mem_add (hpool : pool.Consistent pf) (doc : SynthesisDoc) (rank : ℕ) :
    ((pool.add pf doc rank).2.rejection = some .host_cap →
      ∀ e ∈ (pool.add pf doc rank).1.hostEntries doc.host, e.rank ≤ rank) ∧
    ∀ out ∈ pool.entries, out ∉ (pool.add pf doc rank).1.entries →
      pool.perHostCap ≤ (pool.hostEntries out.doc.host).length ∧
        ∀ e ∈ (pool.add pf doc rank).1.hostEntries out.doc.host, e.rank ≤ out.rank := by
  have hadd := admitted_add pf pool doc rank
  generalize pool.add pf doc rank = added at hadd ⊢
  cases hadd with
  | refused reason hreason =>
    exact ⟨fun h => absurd (Option.some.inj h) hreason, fun _ hin hout => absurd hin hout⟩
  | outrankedBy w hw hrank =>
    obtain ⟨-, -, hworst⟩ := worstPeer_eq_some hw
    exact ⟨fun _ e he => (hworst e he).trans hrank, fun _ hin hout => absurd hin hout⟩
  | inserted =>
    exact ⟨nofun, fun _ hin hout => absurd (mem_append_left _ hin) hout⟩
  | replaced w hw hrank =>
    obtain ⟨hcap, hhost, hworst⟩ := worstPeer_eq_some hw
    refine ⟨nofun, fun out hin hout => ?_⟩
    -- only the worst peer leaves
    obtain rfl : out = w := by
      by_contra hne
      exact hout (mem_append_left _ (hpool.mem_evict.2 ⟨hne, hin⟩))
    rw [hhost]
    refine ⟨hcap, fun e he => ?_⟩
    obtain ⟨he, hehost⟩ := mem_filter.1 he
    obtain he | he := mem_append.1 he
    · exact hworst e (mem_filter.2 ⟨mem_of_mem_erase he, hehost⟩)
    · obtain rfl := mem_singleton.1 he
      exact hrank.le

/-! ### All admissions -/

/-- Every sequence of admissions keeps the caps and the invariant. -/
lemma Consistent.admitAll (hpool : pool.Consistent pf) (candidates : List (SynthesisDoc × ℕ)) :
    (pool.admitAll pf candidates).Consistent pf ∧
      (pool.admitAll pf candidates).maxSources = pool.maxSources ∧
      (pool.admitAll pf candidates).perHostCap = pool.perHostCap := by
  induction candidates generalizing pool with
  | nil => exact ⟨hpool, rfl, rfl⟩
  | cons c cs ih =>
    obtain ⟨hcons, hmax, hcap⟩ := ih (hpool.add c.1 c.2)
    obtain ⟨hmax', hcap'⟩ := caps_add pf pool c.1 c.2
    exact ⟨hcons, hmax.trans hmax', hcap.trans hcap'⟩

end SourcePool

/-- After every sequence of admissions to a pool with any caps: at most the maximum is held, at
most its cap of each host, no identity twice, and the identity set is that of the entries held.
The next candidate, when the host cap refuses it, ranks no better than the entries of its host that
stay, and nor does an entry evicted for it. -/
theorem admissions_consistent (pf : ResearchPlatform) (maxSources : ℤ) (perHostCap : Option ℤ)
    (candidates : List (SynthesisDoc × ℕ)) (doc : SynthesisDoc) (rank : ℕ) :
    let pool := (SourcePool.ofOptions maxSources perHostCap).admitAll pf candidates
    let added := pool.add pf doc rank
    (pool.size ≤ max 1 maxSources ∧
      (∀ host, (pool.hostEntries host).length ≤ max 1 (perHostCap.getD DEFAULT_PER_HOST_CAP)) ∧
      (pool.identities pf).Nodup ∧
      ∀ id, id ∈ pool.normalizedUrls ↔ id ∈ pool.identities pf) ∧
    (added.2.rejection = some .host_cap →
      ∀ e ∈ added.1.hostEntries doc.host, e.rank ≤ rank) ∧
    ∀ out ∈ pool.entries, out ∉ added.1.entries →
      pool.perHostCap ≤ (pool.hostEntries out.doc.host).length ∧
        ∀ e ∈ added.1.hostEntries out.doc.host, e.rank ≤ out.rank := by
  intro pool added
  obtain ⟨hpool, hmax, hcap⟩ :=
    (SourcePool.consistent_ofOptions pf maxSources perHostCap).admitAll candidates
  obtain ⟨hrefused, hevicted⟩ := SourcePool.rank_le_of_mem_add hpool doc rank
  refine ⟨⟨?_, fun host => ?_, hpool.nodup, hpool.mem_normalizedUrls⟩, hrefused, hevicted⟩
  · have hle := pool.size_le
    have hmax : pool.maxSources = (max 1 maxSources).toNat := hmax
    simp only [SourcePool.size]
    omega
  · have hle : (pool.hostEntries host).length ≤ pool.perHostCap := hpool.host_le host
    have hcap : pool.perHostCap = (max 1 (perHostCap.getD DEFAULT_PER_HOST_CAP)).toNat := hcap
    omega

end Yantra.Research
