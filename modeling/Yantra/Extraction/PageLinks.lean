import Mathlib.Data.List.Dedup
import Mathlib.Data.List.Induction
import Mathlib.Data.Prod.Lex
import Mathlib.Tactic.Common
import Yantra.Lib.OrderedMap

/-!
# The links of a page

`summarizeLinks` merges the anchors of a page by canonical URL, ranks what it has and offers the
first forty. A group of numbered siblings counts as pagination when each member differs from the
first in one slot of the URL; that two others do is not asked.

## Main definitions

* `PageLinks.summarizeLinks`, `PageLinks.numberedPaginationNodes` — the offer and the pagination.
* `PageLinks.LinkLaw`, `PageLinks.OneSlotEach` — what is promised, and when.

## Main results

* `PageLinks.linkLaw_iff` — the promise is kept exactly where a numbered group changes one slot.
* `PageLinks.group_changes_two_slots` — a group that changes two.
-/

namespace Yantra.PageLinks

open List Option OrderedMap

/-! ## Merging and ranking -/

inductive LinkKind where
  | pagination | facet | content | navigation | record
  deriving DecidableEq

def KIND_RANK : LinkKind → ℕ
  | .pagination => 0
  | .facet => 1
  | .content => 2
  | .navigation => 3
  | .record => 4

/-- The strongest claim is the least. -/
def KIND_PRECEDENCE : LinkKind → ℕ
  | .record => 0
  | .pagination => 1
  | .facet => 2
  | .content => 3
  | .navigation => 4

def MAX_LINKS : ℕ := 40

structure LinkCandidate (ν : Type) where
  node : ν
  url : String
  canonical : String
  text : String
  order : ℕ

structure Merged where
  url : String
  text : String
  kind : LinkKind
  order : ℕ

structure PageLink where
  text : String
  url : String
  kind : LinkKind
  sameSite : Bool

/-- An offered link, with the canonical URL of its anchors and the place of the first. -/
structure OfferedLink where
  canonical : String
  link : PageLink
  order : ℕ

structure LinkSummary where
  links : List PageLink
  found : ℕ
  byKind : LinkKind → ℕ
  recordLinkCount : ℕ

/-- A URL, as far as two are compared: the segments are those of the path that are not empty. -/
structure HttpUrl where
  origin : String
  segments : List String
  search : String

structure LinkPlatform where
  parseHttpUrl : String → Option HttpUrl
  searchParams : String → List (String × String)
  domainFromUrl : String → Option String

section

variable {ν : Type} (pf : LinkPlatform) (pageUrl : String) (kinds : ν → Option LinkKind)
  (cs : List (LinkCandidate ν))

/-- `kinds.get(candidate.node) ?? 'content'` -/
def kindOf (c : LinkCandidate ν) : LinkKind := (kinds c.node).getD .content

/-- What a further anchor makes of a merged link. -/
def Merged.join (existing : Merged) (kind : LinkKind) (text : String) : Merged :=
  if KIND_PRECEDENCE kind < KIND_PRECEDENCE existing.kind then
    { existing with kind := kind, text := if text.isEmpty then existing.text else text }
  else if existing.text.isEmpty && !text.isEmpty then { existing with text := text }
  else existing

/-- The entry that an anchor leaves. -/
def mergedEntry (merged : OrderedMap String Merged) (c : LinkCandidate ν) : Merged :=
  match merged.get? c.canonical with
  | none => ⟨c.url, c.text, kindOf kinds c, c.order⟩
  | some existing => existing.join (kindOf kinds c) c.text

def mergedLinks : OrderedMap String Merged :=
  cs.foldl (fun merged c => merged.set c.canonical (mergedEntry kinds merged c)) OrderedMap.empty

def offeredLink (e : String × Merged) : OfferedLink where
  canonical := e.1
  link :=
    { text := e.2.text
      url := e.2.url
      kind := e.2.kind
      sameSite := (pf.domainFromUrl pageUrl).isSome &&
        pf.domainFromUrl e.2.url = pf.domainFromUrl pageUrl }
  order := e.2.order

/-- The comparison of the sort: negative where the left comes first. -/
def compareLinks (left right : OfferedLink) : ℤ :=
  if KIND_RANK left.link.kind ≠ KIND_RANK right.link.kind then
    (KIND_RANK left.link.kind : ℤ) - KIND_RANK right.link.kind
  else if left.link.sameSite ≠ right.link.sameSite then
    (right.link.sameSite.toNat : ℤ) - left.link.sameSite.toNat
  else (left.order : ℤ) - right.order

/-- All links that are not of records, sorted. -/
def rankedLinks : List OfferedLink :=
  (((mergedLinks kinds cs).entries.filter fun e => e.2.kind ≠ .record).map
    (offeredLink pf pageUrl)).mergeSort fun a b => compareLinks a b ≤ 0

def summarizeLinks : LinkSummary where
  links := ((rankedLinks pf pageUrl kinds cs).take MAX_LINKS).map (·.link)
  found := (mergedLinks kinds cs).entries.length
  byKind kind := (mergedLinks kinds cs).entries.countP fun e => e.2.kind = kind
  recordLinkCount := (mergedLinks kinds cs).entries.countP fun e => e.2.kind = .record

end

/-! ## Numbered groups -/

/-- `/^[1-9]\d{0,3}$/` -/
def isPageNumber (text : String) : Bool :=
  match text.toList with
  | [] => false
  | c :: cs => c.isDigit && c ≠ '0' && cs.length ≤ 3 && cs.all Char.isDigit

/-- `/^\d+$/` -/
def isNumeric (segment : String) : Bool := !segment.isEmpty && segment.toList.all Char.isDigit

section

variable (pf : LinkPlatform)

/-- `searchParams.getAll(key)` -/
def getAll (u : HttpUrl) (key : String) : List String :=
  ((pf.searchParams u.search).filter fun p => p.1 = key).map (·.2)

def differingKeys (a b : HttpUrl) : List String :=
  ((pf.searchParams a.search ++ pf.searchParams b.search).map (·.1)).dedup.filter fun key =>
    getAll pf a key ≠ getAll pf b key

def differingPlaces (a b : HttpUrl) : List ℕ :=
  (List.range a.segments.length).filter fun i => a.segments[i]? ≠ b.segments[i]?

/-- `differsInOneSlot`: joined, segments are the same exactly if they are one by one. -/
def differsInOneSlot (left right : String) : Bool :=
  match pf.parseHttpUrl left, pf.parseHttpUrl right with
  | some a, some b =>
    if a.origin ≠ b.origin then false
    else if a.segments = b.segments then (differingKeys pf a b).length = 1
    else if a.segments.length ≠ b.segments.length ∨ a.search ≠ b.search then false
    else
      match differingPlaces a b with
      | [i] => a.segments[i]?.any isNumeric && b.segments[i]?.any isNumeric
      | _ => false
  | _, _ => false

variable {ν : Type} [DecidableEq ν] (parent : ν → Option ν) (elementCount : ν → ℕ)

/-- The node that holds the group of a node; a wrapper of that node alone is looked through. -/
def groupNode (node : ν) : Option ν :=
  (parent node).map fun p => if elementCount p = 1 then (parent p).getD p else p

/-- An anchor joins the group of its node. -/
def joinGroup (groups : OrderedMap ν (List (LinkCandidate ν))) (c : LinkCandidate ν) :
    OrderedMap ν (List (LinkCandidate ν)) :=
  if isPageNumber c.text then
    match groupNode parent elementCount c.node with
    | none => groups
    | some key => groups.set key ((groups.get? key).getD [] ++ [c])
  else groups

def numberedGroups (cs : List (LinkCandidate ν)) : OrderedMap ν (List (LinkCandidate ν)) :=
  cs.foldl (joinGroup parent elementCount) OrderedMap.empty

/-- What is asked of a group. -/
def isNumberedGroup : List (LinkCandidate ν) → Bool
  | first :: second :: rest => (second :: rest).all fun c => differsInOneSlot pf first.url c.url
  | _ => false

def numberedPaginationNodes (cs : List (LinkCandidate ν)) : List ν :=
  (numberedGroups parent elementCount cs).values.flatMap fun group =>
    if isNumberedGroup pf group then group.map (·.node) else []

end

/-! ## What is promised -/

section

variable {ν : Type} [DecidableEq ν] (pf : LinkPlatform) (pageUrl : String)
  (kinds : ν → Option LinkKind) (parent : ν → Option ν) (elementCount : ν → ℕ)
  (cs : List (LinkCandidate ν))

/-- The kinds that the anchors of a canonical URL have. -/
def kindsAt (url : String) : List LinkKind :=
  (cs.filter fun c => c.canonical = url).map (kindOf kinds)

/-- The strongest kind that an anchor of a canonical URL has. -/
def Strongest (url : String) (kind : LinkKind) : Prop :=
  kind ∈ kindsAt kinds cs url ∧
    ∀ other ∈ kindsAt kinds cs url, KIND_PRECEDENCE kind ≤ KIND_PRECEDENCE other

instance (url : String) (kind : LinkKind) : Decidable (Strongest kinds cs url kind) :=
  inferInstanceAs (Decidable (_ ∧ _))

/-- What the order goes by: the kind, then the site, then the place in the document. -/
def OfferedLink.rank (o : OfferedLink) : ℕ ×ₗ ℕ ×ₗ ℕ :=
  toLex (KIND_RANK o.link.kind, toLex ((!o.link.sameSite).toNat, o.order))

/-- What is promised of the link view, whose links are the first of `rankedLinks`. -/
structure LinkLaw : Prop where
  found : (summarizeLinks pf pageUrl kinds cs).found = (cs.map (·.canonical)).dedup.length
  byKind : ∀ kind, (summarizeLinks pf pageUrl kinds cs).byKind kind =
    (cs.map (·.canonical)).dedup.countP fun url => Strongest kinds cs url kind
  once : ((rankedLinks pf pageUrl kinds cs).map (·.canonical)).Nodup
  complete : ∀ url, url ∈ (rankedLinks pf pageUrl kinds cs).map (·.canonical) ↔
    url ∈ cs.map (·.canonical) ∧ .record ∉ kindsAt kinds cs url
  claimed : ∀ o ∈ rankedLinks pf pageUrl kinds cs, Strongest kinds cs o.canonical o.link.kind ∧
    ∃ first, (cs.find? fun c => c.canonical = o.canonical) = some first ∧
      o.link.url = first.url ∧ o.order = first.order
  ordered : (rankedLinks pf pageUrl kinds cs).Pairwise fun a b => a.rank ≤ b.rank
  apart : ∀ group ∈ (numberedGroups parent elementCount cs).values, ∀ c ∈ group,
    c.node ∈ numberedPaginationNodes pf parent elementCount cs →
      group.Pairwise fun x y => differsInOneSlot pf x.url y.url

/-- A place in a URL where two may differ. -/
inductive Slot where
  | query (key : String)
  | segment (i : ℕ)

def HttpUrl.value (u : HttpUrl) : Slot → List String ⊕ Option String
  | .query key => .inl (getAll pf u key)
  | .segment i => .inr u.segments[i]?

/-- Two URLs differ in a slot only, and in a segment only as numbers of paths of one length. -/
def Changes (u v : HttpUrl) (slot : Slot) : Prop :=
  u.origin = v.origin ∧ (∀ s, u.value pf s ≠ v.value pf s ↔ s = slot) ∧
    ∀ i, slot = .segment i → u.segments.length = v.segments.length ∧ u.search = v.search ∧
      u.segments[i]?.any isNumeric ∧ v.segments[i]?.any isNumeric

/-- Two URLs change the same slot of a first one, each to a value of its own. -/
def SameSlot (first x y : String) : Prop :=
  ∃ u v w slot, pf.parseHttpUrl first = some u ∧ pf.parseHttpUrl x = some v ∧
    pf.parseHttpUrl y = some w ∧ Changes pf u v slot ∧ Changes pf u w slot ∧
      v.value pf slot ≠ w.value pf slot

/-- In every group that counts as pagination, the members after the first change the same slot of
its URL. -/
def OneSlotEach : Prop :=
  ∀ first rest, first :: rest ∈ (numberedGroups parent elementCount cs).values →
    isNumberedGroup pf (first :: rest) → rest.Pairwise fun x y => SameSlot pf first.url x.url y.url

end

/-! ## The merged links -/

section

variable {ν : Type} (pf : LinkPlatform) (pageUrl : String) (kinds : ν → Option LinkKind)
  (cs : List (LinkCandidate ν))

lemma mergedLinks_concat (c : LinkCandidate ν) :
    mergedLinks kinds (cs ++ [c]) =
      (mergedLinks kinds cs).set c.canonical (mergedEntry kinds (mergedLinks kinds cs) c) := by
  simp [mergedLinks]

lemma join_spec (e : Merged) (kind : LinkKind) (text : String) :
    (e.join kind text).url = e.url ∧ (e.join kind text).order = e.order ∧
      (e.join kind text).kind =
        if KIND_PRECEDENCE kind < KIND_PRECEDENCE e.kind then kind else e.kind := by
  unfold Merged.join
  split_ifs <;> exact ⟨rfl, rfl, rfl⟩

/-- An entry has the URL and the place of the first anchor. -/
lemma get?_mergedLinks (url : String) :
    ((mergedLinks kinds cs).get? url).map (fun e => (e.url, e.order)) =
      (cs.find? fun c => c.canonical = url).map fun c => (c.url, c.order) := by
  induction cs using reverseRecOn with
  | nil => rfl
  | append_singleton past c ih =>
    rw [mergedLinks_concat, get?_set, find?_append, map_or, ← ih]
    by_cases hc : c.canonical = url
    · subst hc
      cases hget : (mergedLinks kinds past).get? c.canonical with
      | none => simp [mergedEntry, hget]
      | some e => simp [mergedEntry, hget, join_spec e]
    · simp [hc]

lemma get?_mergedLinks_isSome (url : String) :
    ((mergedLinks kinds cs).get? url).isSome ↔ url ∈ cs.map (·.canonical) := by
  have h := congrArg isSome (get?_mergedLinks kinds cs url)
  simpa [find?_isSome] using Bool.eq_iff_iff.1 h

lemma kindsAt_concat (c : LinkCandidate ν) (url : String) : kindsAt kinds (cs ++ [c]) url =
    kindsAt kinds cs url ++ if c.canonical = url then [kindOf kinds c] else [] := by
  by_cases hc : c.canonical = url <;> simp [kindsAt, hc]

lemma kind_mergedLinks {url : String} {e : Merged} (h : (mergedLinks kinds cs).get? url = some e) :
    Strongest kinds cs url e.kind := by
  induction cs using reverseRecOn generalizing url e with
  | nil => cases h
  | append_singleton past c ih =>
    rw [mergedLinks_concat, get?_set] at h
    rw [Strongest, kindsAt_concat]
    by_cases hc : c.canonical = url
    · subst hc
      rw [if_pos rfl, some.injEq] at h
      subst h
      rw [if_pos rfl, forall_mem_append, forall_mem_singleton, mem_append,
        mem_singleton]
      unfold mergedEntry
      split
      case h_1 hget =>
        have hnew := (get?_mergedLinks_isSome kinds past c.canonical).not.1 (by simp [hget])
        have hnil : kindsAt kinds past c.canonical = [] := by
          simpa [kindsAt, filter_eq_nil_iff] using hnew
        simp [hnil]
      case h_2 e hget =>
        obtain ⟨hmem, hleast⟩ := ih hget
        rw [(join_spec e _ _).2.2]
        split_ifs with hlt
        · exact ⟨.inr rfl, fun k hk => hlt.le.trans (hleast k hk), le_rfl⟩
        · exact ⟨.inl hmem, hleast, not_lt.1 hlt⟩
    · rw [if_neg hc] at h ⊢
      rw [append_nil]
      exact ih h

variable {kinds cs} {url : String}

lemma Strongest.unique {k k' : LinkKind} (h : Strongest kinds cs url k)
    (h' : Strongest kinds cs url k') : k = k' := by
  have heq := le_antisymm (h.2 k' h'.1) (h'.2 k h.1)
  cases k <;> cases k' <;> simp [KIND_PRECEDENCE] at heq ⊢

lemma Strongest.record_iff {kind : LinkKind} (h : Strongest kinds cs url kind) :
    kind = .record ↔ .record ∈ kindsAt kinds cs url := by
  refine ⟨fun hk => hk ▸ h.1, fun hmem => ?_⟩
  have hle := h.2 _ hmem
  cases kind <;> simp [KIND_PRECEDENCE] at hle ⊢

variable (kinds cs)

/-- The keys of the merged links are the canonical URLs. -/
lemma keys_perm : ((mergedLinks kinds cs).entries.map Prod.fst).Perm (cs.map (·.canonical)).dedup := by
  rw [perm_ext_iff_of_nodup (mergedLinks kinds cs).nodup (nodup_dedup _)]
  intro url
  rw [mem_dedup, ← get?_mergedLinks_isSome kinds cs]
  exact ((mergedLinks kinds cs).has_iff_mem_keys url).symm

lemma countP_kind (kind : LinkKind) :
    (mergedLinks kinds cs).entries.countP (fun e => e.2.kind = kind) =
      (cs.map (·.canonical)).dedup.countP fun url => Strongest kinds cs url kind := by
  rw [← (keys_perm kinds cs).countP_eq, countP_map]
  refine countP_congr fun e he => ?_
  have h := kind_mergedLinks kinds cs (((mergedLinks kinds cs).get?_eq_some_iff e.1 e.2).2 he)
  simp only [Function.comp_apply, decide_eq_true_eq]
  exact ⟨fun hk => hk ▸ h, fun hk => h.unique hk⟩

/-! ## The ranking -/

lemma compareLinks_le (a b : OfferedLink) : compareLinks a b ≤ 0 ↔ a.rank ≤ b.rank := by
  simp only [OfferedLink.rank, Prod.Lex.toLex_le_toLex, compareLinks]
  split_ifs with hkind hsite
  · omega
  · cases ha : a.link.sameSite <;> cases hb : b.link.sameSite <;> simp_all
  · simp_all only [not_not, lt_self_iff_false, true_and, false_or]
    omega

lemma mem_rankedLinks (o : OfferedLink) :
    o ∈ rankedLinks pf pageUrl kinds cs ↔ ∃ e ∈ (mergedLinks kinds cs).entries,
      e.2.kind ≠ .record ∧ offeredLink pf pageUrl e = o := by
  simp [rankedLinks, mem_mergeSort, and_assoc]

lemma pairwise_rankedLinks :
    (rankedLinks pf pageUrl kinds cs).Pairwise fun a b => a.rank ≤ b.rank := by
  refine (pairwise_mergeSort ?_ ?_ _).imp ?_
  · simp only [decide_eq_true_eq, compareLinks_le]
    exact fun a b c => le_trans
  · simp only [Bool.or_eq_true, decide_eq_true_eq, compareLinks_le]
    exact fun a b => le_total _ _
  · simp only [decide_eq_true_eq, compareLinks_le]
    exact fun h => h

lemma nodup_rankedLinks : ((rankedLinks pf pageUrl kinds cs).map (·.canonical)).Nodup := by
  rw [rankedLinks, ((mergeSort_perm _ _).map _).nodup_iff, List.map_map]
  exact (mergedLinks kinds cs).nodup.sublist (filter_sublist.map _)

end

/-! ## The groups -/

section

variable {ν : Type} [DecidableEq ν] (pf : LinkPlatform) (parent : ν → Option ν)
  (elementCount : ν → ℕ)

/-- The members of a group have their group at its key. -/
lemma groupNode_of_mem (cs : List (LinkCandidate ν)) :
    ∀ key group, (numberedGroups parent elementCount cs).get? key = some group →
      ∀ c ∈ group, groupNode parent elementCount c.node = some key := by
  induction cs using reverseRecOn with
  | nil => exact fun _ _ h => by cases h
  | append_singleton past c ih =>
    rw [numberedGroups, foldl_append, foldl_cons, foldl_nil]
    change ∀ key group, (joinGroup parent elementCount (numberedGroups parent elementCount past)
      c).get? key = some group → _
    unfold joinGroup
    split_ifs
    · split
      · exact ih
      · rename_i key hkey
        refine forall_get?_set (fun d hd => ?_) ih
        obtain hd | hd := mem_append.1 hd
        · cases hget : (numberedGroups parent elementCount past).get? key with
          | none => simp [hget] at hd
          | some group => exact ih key group hget d (by simpa [hget] using hd)
        · rw [mem_singleton.1 hd, hkey]
    · exact ih

/-- A group has a marked member exactly if it is taken for pagination. -/
lemma isNumberedGroup_of_mem {cs : List (LinkCandidate ν)} {group : List (LinkCandidate ν)}
    (hgroup : group ∈ (numberedGroups parent elementCount cs).values) {c : LinkCandidate ν}
    (hc : c ∈ group) :
    c.node ∈ numberedPaginationNodes pf parent elementCount cs ↔ isNumberedGroup pf group := by
  constructor
  · intro hmem
    obtain ⟨group', hgroup', hnode⟩ := mem_flatMap.1 hmem
    split_ifs at hnode with htaken
    · obtain ⟨d, hd, hnode⟩ := List.mem_map.1 hnode
      obtain ⟨key, hget⟩ := exists_get?_of_mem_values hgroup
      obtain ⟨key', hget'⟩ := exists_get?_of_mem_values hgroup'
      have hkey := groupNode_of_mem parent elementCount cs key group hget c hc
      have hkey' := groupNode_of_mem parent elementCount cs key' group' hget' d hd
      rw [hnode, hkey, some.injEq] at hkey'
      rw [hkey', hget', some.injEq] at hget
      exact hget ▸ htaken
    · cases hnode
  · intro htaken
    exact mem_flatMap.2 ⟨group, hgroup, by simpa [htaken] using ⟨c, hc, rfl⟩⟩

/-! ## One slot -/

lemma length_eq_one_iff {α : Type} {l : List α} (h : l.Nodup) :
    l.length = 1 ↔ ∃ a, ∀ x, x ∈ l ↔ x = a := by
  rw [List.length_eq_one_iff]
  constructor
  · rintro ⟨a, rfl⟩
    exact ⟨a, fun x => mem_singleton⟩
  · rintro ⟨a, ha⟩
    refine ⟨a, perm_singleton.1 ?_⟩
    rw [perm_ext_iff_of_nodup h (nodup_singleton a)]
    simpa using ha

variable {pf} {a b u v w : HttpUrl} {slot : Slot}

lemma mem_differingKeys (key : String) :
    key ∈ differingKeys pf a b ↔ getAll pf a key ≠ getAll pf b key := by
  refine ⟨fun h => by simpa using (mem_filter.1 h).2, fun h => ?_⟩
  refine mem_filter.2 ⟨?_, by simpa using h⟩
  by_contra hnot
  simp only [mem_dedup, map_append, mem_append, not_or] at hnot
  have hnone : ∀ u : HttpUrl, key ∉ (pf.searchParams u.search).map (·.1) → getAll pf u key = [] := by
    intro u hu
    simp only [getAll, map_eq_nil_iff, filter_eq_nil_iff, decide_eq_true_eq]
    exact fun p hp hkey => hu (hkey ▸ List.mem_map_of_mem hp)
  exact h ((hnone a hnot.1).trans (hnone b hnot.2).symm)

lemma mem_differingPlaces (hlen : a.segments.length = b.segments.length) (i : ℕ) :
    i ∈ differingPlaces a b ↔ a.segments[i]? ≠ b.segments[i]? := by
  simp only [differingPlaces, mem_filter, mem_range, decide_eq_true_eq,
    and_iff_right_iff_imp]
  intro h
  by_contra hle
  rw [getElem?_eq_none (by omega), getElem?_eq_none (by omega)] at h
  exact h rfl

/-- **What `differsInOneSlot` asks.** Two URLs of one origin that differ in one slot only. -/
lemma differsInOneSlot_iff (x y : String) :
    differsInOneSlot pf x y ↔ ∃ a b slot, pf.parseHttpUrl x = some a ∧
      pf.parseHttpUrl y = some b ∧ Changes pf a b slot := by
  unfold differsInOneSlot
  split
  case h_2 hnone => exact iff_of_false (by simp) fun ⟨a, b, _, ha, hb, _⟩ => hnone a b ha hb
  case h_1 a b ha hb =>
    simp only [ha, hb, some.injEq, ↓existsAndEq, true_and]
    have hquery : ∀ key, a.value pf (.query key) ≠ b.value pf (.query key) ↔
        key ∈ differingKeys pf a b := fun key => by simp [HttpUrl.value, mem_differingKeys]
    have hsegment : ∀ i, a.value pf (.segment i) ≠ b.value pf (.segment i) ↔
        a.segments[i]? ≠ b.segments[i]? := fun i => by simp [HttpUrl.value]
    by_cases horigin : a.origin = b.origin
    swap
    · exact iff_of_false (by simp [horigin]) fun ⟨_, h, _⟩ => horigin h
    rw [if_neg (not_not.2 horigin)]
    by_cases hseg : a.segments = b.segments
    · rw [if_pos hseg, decide_eq_true_iff,
        length_eq_one_iff (l := differingKeys pf a b) ((nodup_dedup _).filter _)]
      constructor
      · rintro ⟨key, hkey⟩
        refine ⟨.query key, horigin, fun s => ?_, fun i h => by cases h⟩
        cases s with
        | query k => rw [hquery, hkey, Slot.query.injEq]
        | segment i => simp [HttpUrl.value, hseg]
      · rintro ⟨slot, -, honly, -⟩
        cases slot with
        | query key => exact ⟨key, fun k => by rw [← hquery, honly, Slot.query.injEq]⟩
        | segment i => exact absurd (by rw [hseg]) ((hsegment i).1 ((honly _).2 rfl))
    · rw [if_neg hseg]
      constructor
      · intro h
        split at h
        · cases h
        rename_i hsame
        simp only [not_or, ne_eq, not_not] at hsame
        split at h
        case h_2 => cases h
        case h_1 i hplaces =>
          rw [Bool.and_eq_true] at h
          refine ⟨.segment i, horigin, fun s => ?_, fun j hj => ?_⟩
          · cases s with
            | query key => simp [HttpUrl.value, getAll, hsame.2]
            | segment j =>
              rw [hsegment, ← mem_differingPlaces hsame.1, hplaces, mem_singleton,
                Slot.segment.injEq]
          · obtain rfl := Slot.segment.inj hj
            exact ⟨hsame.1, hsame.2, h⟩
      · rintro ⟨slot, hslot⟩
        cases slot with
        | query key =>
          refine absurd (ext_getElem? fun i => ?_) hseg
          by_contra hne
          exact absurd ((hslot.2.1 (.segment i)).1 ((hsegment i).2 hne)) (by simp)
        | segment i =>
          obtain ⟨-, honly, hnum⟩ := hslot
          obtain ⟨hlen, hsearch, hnumeric⟩ := hnum i rfl
          have hplaces : differingPlaces a b = [i] := by
            refine perm_singleton.1 ((perm_ext_iff_of_nodup
              (nodup_range.filter _) (nodup_singleton i)).2 fun j => ?_)
            change j ∈ differingPlaces a b ↔ _
            rw [mem_differingPlaces hlen, ← hsegment, honly, mem_singleton,
              Slot.segment.injEq]
          rw [if_neg (by simp [hlen, hsearch]), hplaces]
          exact (Bool.and_eq_true _ _).mpr hnumeric

lemma Changes.keep (h : Changes pf a b slot) (s : Slot) (hs : s ≠ slot) :
    a.value pf s = b.value pf s := by
  by_contra hne
  exact hs ((h.2.1 s).1 hne)

/-- Two URLs that differ from a first one in one slot each differ from each other in one slot
exactly if it is the same slot, and their values there differ.

**Proof sketch.** In two different slots, each keeps the value of the first where the other changes
it, so that they differ in both. -/
lemma differsInOneSlot_iff_sameSlot {first x y : String} (hx : differsInOneSlot pf first x)
    (hy : differsInOneSlot pf first y) : differsInOneSlot pf x y ↔ SameSlot pf first x y := by
  obtain ⟨u, v, s₁, hu, hv, ho₁, honly₁, hnum₁⟩ := (differsInOneSlot_iff first x).1 hx
  obtain ⟨u', w, s₂, hu', hw, ho₂, honly₂, hnum₂⟩ := (differsInOneSlot_iff first y).1 hy
  obtain rfl := Option.some.inj (hu.symm.trans hu')
  have hkeep₁ := Changes.keep ⟨ho₁, honly₁, hnum₁⟩
  have hkeep₂ := Changes.keep ⟨ho₂, honly₂, hnum₂⟩
  rw [differsInOneSlot_iff]
  constructor
  · rintro ⟨v', w', s₃, hv', hw', -, honly₃, -⟩
    obtain rfl := Option.some.inj (hv.symm.trans hv')
    obtain rfl := Option.some.inj (hw.symm.trans hw')
    have hsame : s₁ = s₂ := by
      by_contra hne
      have h₁ : s₁ = s₃ := (honly₃ s₁).1 fun he =>
        (honly₁ s₁).2 rfl ((hkeep₂ s₁ hne).trans he.symm)
      have h₂ : s₂ = s₃ := (honly₃ s₂).1 fun he =>
        (honly₂ s₂).2 rfl ((hkeep₁ s₂ (Ne.symm hne)).trans he)
      exact hne (h₁.trans h₂.symm)
    subst hsame
    refine ⟨u, v, w, s₁, hu, hv, hw, ⟨ho₁, honly₁, hnum₁⟩, ⟨ho₂, honly₂, hnum₂⟩, ?_⟩
    have h₃ : s₃ = s₁ := by
      by_contra hne
      exact (honly₃ s₃).2 rfl ((hkeep₁ s₃ hne).symm.trans (hkeep₂ s₃ hne))
    exact h₃ ▸ (honly₃ s₃).2 rfl
  · rintro ⟨u', v', w', s, hu', hv', hw', ⟨-, hs₁, -⟩, ⟨-, hs₂, -⟩, hne⟩
    obtain rfl := Option.some.inj (hu.symm.trans hu')
    obtain rfl := Option.some.inj (hv.symm.trans hv')
    obtain rfl := Option.some.inj (hw.symm.trans hw')
    obtain rfl : s = s₁ := (honly₁ s).1 ((hs₁ s).2 rfl)
    obtain rfl : s = s₂ := (honly₂ s).1 ((hs₂ s).2 rfl)
    refine ⟨v, w, s, hv, hw, ho₁.symm.trans ho₂, fun t => ⟨fun ht => ?_, ?_⟩, fun i hi => ?_⟩
    · by_contra hts
      exact ht ((hkeep₁ t hts).symm.trans (hkeep₂ t hts))
    · rintro rfl
      exact hne
    · obtain ⟨hlen₁, hsearch₁, -, hv⟩ := hnum₁ i hi
      obtain ⟨hlen₂, hsearch₂, -, hw⟩ := hnum₂ i hi
      exact ⟨hlen₁.symm.trans hlen₂, hsearch₁.symm.trans hsearch₂, hv, hw⟩

end

/-! ## The law -/

section

variable {ν : Type} [DecidableEq ν]

/-- **The link view keeps its promise exactly where every numbered group changes one slot.** All
but the groups holds always.

**Proof sketch.** The merged links are read by induction on the anchors. In a group that is taken,
each member differs from the first in one slot, so the first is apart from all, and two others are
apart exactly if they change the same slot. -/
theorem linkLaw_iff (pf : LinkPlatform) (pageUrl : String) (kinds : ν → Option LinkKind)
    (parent : ν → Option ν) (elementCount : ν → ℕ) (cs : List (LinkCandidate ν)) :
    LinkLaw pf pageUrl kinds parent elementCount cs ↔ OneSlotEach pf parent elementCount cs := by
  have hentry : ∀ e ∈ (mergedLinks kinds cs).entries,
      (mergedLinks kinds cs).get? e.1 = some e.2 := fun e he =>
    ((mergedLinks kinds cs).get?_eq_some_iff e.1 e.2).2 he
  have hgroup : ∀ (first : LinkCandidate ν) rest, isNumberedGroup pf (first :: rest) →
      ((first :: rest).Pairwise (fun x y => differsInOneSlot pf x.url y.url) ↔
        rest.Pairwise fun x y => SameSlot pf first.url x.url y.url) := by
    intro first rest htaken
    have hall : ∀ c ∈ rest, differsInOneSlot pf first.url c.url := by
      cases rest with
      | nil => cases htaken
      | cons second rest => exact List.all_eq_true.1 htaken
    rw [List.pairwise_cons, and_iff_right hall]
    exact List.Pairwise.iff_of_mem fun hx hy =>
      differsInOneSlot_iff_sameSlot (hall _ hx) (hall _ hy)
  constructor
  · intro h first rest hmem htaken
    refine (hgroup first rest htaken).1 (h.apart _ hmem first List.mem_cons_self ?_)
    exact (isNumberedGroup_of_mem pf parent elementCount hmem List.mem_cons_self).2 htaken
  · intro h
    refine ⟨?_, countP_kind kinds cs, nodup_rankedLinks pf pageUrl kinds cs, ?_, ?_,
      pairwise_rankedLinks pf pageUrl kinds cs, ?_⟩
    · rw [← (keys_perm kinds cs).length_eq, List.length_map]
      rfl
    · intro url
      rw [List.mem_map, ← get?_mergedLinks_isSome kinds cs]
      constructor
      · rintro ⟨o, ho, rfl⟩
        obtain ⟨e, he, hkind, rfl⟩ := (mem_rankedLinks pf pageUrl kinds cs o).1 ho
        have hstrong := kind_mergedLinks kinds cs (hentry e he)
        exact ⟨by simp [offeredLink, hentry e he], fun hmem => hkind (hstrong.record_iff.2 hmem)⟩
      · rintro ⟨hex, hnone⟩
        obtain ⟨e, he⟩ := Option.isSome_iff_exists.1 hex
        have hstrong := kind_mergedLinks kinds cs he
        exact ⟨_, (mem_rankedLinks pf pageUrl kinds cs _).2 ⟨(url, e),
          ((mergedLinks kinds cs).get?_eq_some_iff url e).1 he,
          fun hkind => hnone (hstrong.record_iff.1 hkind), rfl⟩, rfl⟩
    · intro o ho
      obtain ⟨e, he, -, rfl⟩ := (mem_rankedLinks pf pageUrl kinds cs o).1 ho
      refine ⟨kind_mergedLinks kinds cs (hentry e he), ?_⟩
      have hfirst := get?_mergedLinks kinds cs e.1
      rw [hentry e he, Option.map_some, eq_comm, Option.map_eq_some_iff] at hfirst
      obtain ⟨first, hfind, heq⟩ := hfirst
      rw [Prod.mk.injEq] at heq
      exact ⟨first, hfind, heq.1.symm, heq.2.symm⟩
    · intro group hmem c hc hnode
      have htaken := (isNumberedGroup_of_mem pf parent elementCount hmem hc).1 hnode
      cases group with
      | nil => cases hc
      | cons first rest => exact (hgroup first rest htaken).2 (h first rest hmem htaken)

/-- Three listed URLs: the second changes the page of the first, the third its order. -/
def listing : LinkPlatform where
  parseHttpUrl url := some ⟨"https://shop.test", ["list"], url⟩
  searchParams search :=
    if search = "?page=1&sort=a" then [("page", "1"), ("sort", "a")]
    else if search = "?page=2&sort=a" then [("page", "2"), ("sort", "a")]
    else [("page", "1"), ("sort", "b")]
  domainFromUrl _ := none

/-- **Pages that change two slots.** The links 1, 2 and 3 of a list are taken for pagination, though
the last two differ in the page and in the order. -/
theorem group_changes_two_slots :
    ¬ LinkLaw listing "" (fun _ : ℕ => none) (fun _ => some 0) (fun _ => 3)
      [⟨1, "?page=1&sort=a", "1", "1", 1⟩, ⟨2, "?page=2&sort=a", "2", "2", 2⟩,
        ⟨3, "?page=1&sort=b", "3", "3", 3⟩] := by
  intro h
  have happart := h.apart _ (List.mem_singleton_self _) _ List.mem_cons_self (by decide)
  revert happart
  decide

end

end Yantra.PageLinks
