import Yantra.Agent.EvidenceRefs
import Yantra.Extraction.DocumentStore
import Yantra.Lib.OrderedMap

/-!
# Anchors of the records of a page

The run's document store keeps the latest analysis of each source, and an anchor for every record
key ever seen on it. The pages stand beside the store: a record of the store has its page by its
place. A page record is its key and whatever else it says; an analysis is its records.

## Main definitions

* `PagedStore`, `pagedStore` — the store with its pages, and the machine of its calls.
* `AnchorsStable`, `AnchorsResolve` — what is promised of a run.

## Main results

* `anchors_run` — what is promised holds of every run.
-/

namespace Yantra

open List Option Nat Function String

/-! ## Pages -/

/-- One repeated item of a collection; what it says besides its key is `D`. -/
structure PageRecord (D : Type) where
  key : String
  data : D
  deriving DecidableEq

/-- The shape-aware view of one page. -/
structure PageAnalysis (D : Type) where
  records : List (PageRecord D)
  deriving DecidableEq

structure PageArticle where
  byline : Option String
  publishedAt : Option String
  deriving DecidableEq

/-- How much of a page the model has been shown. -/
inductive PageDelivered where
  | full | summary | part
  deriving DecidableEq

/-- The shape-aware view stored for one source. -/
structure StoredPage (D : Type) where
  analysis : PageAnalysis D
  /-- Record key to anchor. -/
  anchors : OrderedMap String ℕ
  article : Option PageArticle
  delivered : PageDelivered

structure AttachPageOptions where
  delivered : PageDelivered
  article : Option PageArticle

/-- The document store with the page of each record, by its place. -/
structure PagedStore (D : Type) where
  store : DocumentStore := {}
  pages : ℕ → Option (StoredPage D) := fun _ => none

variable {D : Type}

/-- The loop of `attachPage` over the records of an analysis, from the next anchor before. -/
def assignAnchors (anchors : OrderedMap String ℕ) (next : ℕ) :
    List (PageRecord D) → OrderedMap String ℕ
  | [] => anchors
  | entry :: entries =>
    if anchors.has entry.key then assignAnchors anchors next entries
    else assignAnchors (anchors.set entry.key (next + 1)) (next + 1) entries

namespace PagedStore

variable (s : PagedStore D)

def placeOf (sourceId : String) : Option ℕ :=
  s.store.records.findIdx? (·.sourceId == sourceId)

def pageOf (sourceId : String) : Option (StoredPage D) := (s.placeOf sourceId).bind s.pages

/-- `attachPage`; a source that is unknown has no page. -/
def attachPage (sourceId : String) (analysis : PageAnalysis D) (opts : AttachPageOptions) :
    PagedStore D × Option (StoredPage D) :=
  match s.placeOf sourceId with
  | none => (s, none)
  | some r =>
    let anchors := match s.pages r with
      | some page => page.anchors
      | none => .empty
    let next := anchors.values.foldl max 0
    let page : StoredPage D :=
      { analysis
        anchors := assignAnchors anchors next analysis.records
        article := opts.article
        delivered := opts.delivered }
    ({ s with pages := Function.update s.pages r (some page) }, some page)

def markDelivered (sourceId : String) : PagedStore D :=
  match s.placeOf sourceId with
  | none => s
  | some r =>
    match s.pages r with
    | none => s
    | some page =>
      { s with pages := Function.update s.pages r (some { page with delivered := .full }) }

end PagedStore

/-- `/^(S[1-9]\d*)#r([1-9]\d*)$/u` -/
def ANCHOR_ID : Regex Char :=
  .seq .atStart (.seqs [.group 1 sourceIdPattern, .lit "#r".toList, .group 2 positiveNumber,
    .atEnd])

def PagedStore.resolveAnchor (s : PagedStore D) (id : String) : Option (String × PageRecord D) :=
  match ANCHOR_ID.exec (JsText.trim id).toList 0 with
  | none => none
  | some m =>
    match m.group 1, m.group 2 with
    | some sourceId, some anchor =>
      match s.pageOf (String.ofList sourceId) with
      | none => none
      | some page =>
        match page.anchors.entries.find? (·.2 == Nat.ofDigitChars 10 anchor 0) with
        | none => none
        | some (key, _) =>
          (page.analysis.records.find? (·.key == key)).map (String.ofList sourceId, ·)
    | _, _ => none

/-- What happens to the store: a call of its reading side, or of its pages. -/
inductive PagedEvent (D : Type) where
  | store (e : StoreEvent)
  | attachPage (sourceId : String) (analysis : PageAnalysis D) (opts : AttachPageOptions)
  | markDelivered (sourceId : String)

def PagedStore.step (canonical : String → String) (s : PagedStore D) : PagedEvent D → PagedStore D
  | .store e => { s with store := s.store.step canonical e }
  | .attachPage sourceId analysis opts => (s.attachPage sourceId analysis opts).1
  | .markDelivered sourceId => s.markDelivered sourceId

def pagedStore (D : Type) (pf : UrlPlatform) : Machine (PagedStore D) (PagedEvent D) where
  init := {}
  step s e := s.step (canonicalUrl pf) e

/-! ## What is promised -/

def PagedStore.anchorOf (s : PagedStore D) (sourceId key : String) : Option ℕ :=
  (s.pageOf sourceId).bind fun page => page.anchors.get? key

def LastAttached (pf : UrlPlatform) (events : List (PagedEvent D)) (sourceId : String)
    (analysis : PageAnalysis D) : Prop :=
  ∃ pre opts post, events = pre ++ .attachPage sourceId analysis opts :: post ∧
    (((pagedStore D pf).run pre).placeOf sourceId).isSome ∧
    ∀ other opts', PagedEvent.attachPage sourceId other opts' ∉ post

/-- Anchors tell the keys of a source apart, stay with their keys, and are never given to others. -/
structure AnchorsStable (pf : UrlPlatform) (events : List (PagedEvent D)) : Prop where
  injective : ∀ sourceId key key' k,
    ((pagedStore D pf).run events).anchorOf sourceId key = some k →
      ((pagedStore D pf).run events).anchorOf sourceId key' = some k → key = key'
  kept : ∀ later sourceId key k,
    ((pagedStore D pf).run events).anchorOf sourceId key = some k →
      ((pagedStore D pf).run (events ++ later)).anchorOf sourceId key = some k
  notReused : ∀ later sourceId key key' k,
    ((pagedStore D pf).run events).anchorOf sourceId key = some k →
      ((pagedStore D pf).run (events ++ later)).anchorOf sourceId key' = some k → key' = key

def anchorText (n k : ℕ) : String := "S" ++ toString n ++ "#r" ++ toString k

/-- An anchor names a record exactly where it is assigned to a key of the latest analysis, and the
record has the key. -/
structure AnchorsResolve (pf : UrlPlatform) (events : List (PagedEvent D)) : Prop where
  resolves : ∀ n k, (((pagedStore D pf).run events).resolveAnchor (anchorText n k)).isSome ↔
    ∃ analysis key, LastAttached pf events ("S" ++ toString n) analysis ∧
      key ∈ analysis.records.map PageRecord.key ∧
      ((pagedStore D pf).run events).anchorOf ("S" ++ toString n) key = some k
  carries : ∀ n k sourceId record,
    ((pagedStore D pf).run events).resolveAnchor (anchorText n k) = some (sourceId, record) →
      sourceId = "S" ++ toString n ∧
      (∃ analysis, LastAttached pf events sourceId analysis ∧ record ∈ analysis.records) ∧
      ((pagedStore D pf).run events).anchorOf sourceId record.key = some k

/-! ## Anchors of one page -/

/-- Anchors start at 1, and no two keys share one. -/
structure AnchorsOk (anchors : OrderedMap String ℕ) : Prop where
  pos : ∀ key k, anchors.get? key = some k → 0 < k
  injective : ∀ key key' k, anchors.get? key = some k → anchors.get? key' = some k → key = key'

lemma anchorsOk_empty : AnchorsOk .empty :=
  ⟨fun _ _ h => absurd h (by simp), fun _ _ _ h => absurd h (by simp)⟩

lemma le_foldl_max (ks : List ℕ) (start : ℕ) :
    start ≤ ks.foldl max start ∧ ∀ k ∈ ks, k ≤ ks.foldl max start := by
  induction ks generalizing start with
  | nil => simp
  | cons k ks ih =>
    obtain ⟨hstart, hks⟩ := ih (max start k)
    refine ⟨Nat.le_trans (Nat.le_max_left _ _) hstart, fun k' hk' => ?_⟩
    rcases mem_cons.1 hk' with rfl | hk'
    · exact Nat.le_trans (Nat.le_max_right _ _) hstart
    · exact hks k' hk'

variable {anchors : OrderedMap String ℕ}

open OrderedMap

lemma AnchorsOk.set (h : AnchorsOk anchors) {next : ℕ}
    (hnext : ∀ key k, anchors.get? key = some k → k ≤ next) (key : String) :
    AnchorsOk (anchors.set key (next + 1)) ∧
      ∀ key' k, (anchors.set key (next + 1)).get? key' = some k → k ≤ next + 1 := by
  have hread : ∀ key' k, (anchors.set key (next + 1)).get? key' = some k →
      (key = key' ∧ k = next + 1) ∨ (key ≠ key' ∧ anchors.get? key' = some k) := by
    intro key' k hk
    rw [get?_set] at hk
    split_ifs at hk with heq
    · exact .inl ⟨heq, (some.inj hk).symm⟩
    · exact .inr ⟨heq, hk⟩
  refine ⟨⟨fun key' k hk => ?_, fun key' key'' k hk hk' => ?_⟩, fun key' k hk => ?_⟩
  · obtain ⟨-, rfl⟩ | ⟨-, hold⟩ := hread key' k hk
    · exact succ_pos next
    · exact h.pos key' k hold
  · obtain ⟨rfl, rfl⟩ | ⟨-, hold⟩ := hread key' k hk
    · obtain ⟨rfl, -⟩ | ⟨-, hold'⟩ := hread key'' _ hk'
      · rfl
      · have := hnext key'' _ hold'
        omega
    · obtain ⟨rfl, rfl⟩ | ⟨-, hold'⟩ := hread key'' k hk'
      · have := hnext key' _ hold
        omega
      · exact h.injective key' key'' k hold hold'
  · obtain ⟨-, rfl⟩ | ⟨-, hold⟩ := hread key' k hk
    · exact Nat.le_refl _
    · exact le_succ_of_le (hnext key' k hold)

/-- The loop keeps anchors right.

**Proof sketch.** Induction on the records; the next anchor bounds the ones there are. -/
lemma AnchorsOk.assign {anchors : OrderedMap String ℕ} (h : AnchorsOk anchors) {next : ℕ}
    (hnext : ∀ key k, anchors.get? key = some k → k ≤ next) (entries : List (PageRecord D)) :
    AnchorsOk (assignAnchors anchors next entries) := by
  induction entries generalizing anchors next with
  | nil => exact h
  | cons entry entries ih =>
    rw [assignAnchors]
    split
    · exact ih h hnext
    · obtain ⟨hset, hbound⟩ := h.set hnext entry.key
      exact ih hset hbound

variable {k : ℕ}

lemma get?_assignAnchors {key : String} (h : anchors.get? key = some k) (next : ℕ)
    (entries : List (PageRecord D)) :
    (assignAnchors anchors next entries).get? key = some k := by
  induction entries generalizing anchors next with
  | nil => exact h
  | cons entry entries ih =>
    rw [assignAnchors]
    split
    case isTrue => exact ih h next
    case isFalse hnew =>
      refine ih ?_ (next + 1)
      rw [get?_set, if_neg]
      · exact h
      · rintro rfl
        exact hnew (by rw [has, h]; rfl)

def anchorsBefore (page : Option (StoredPage D)) : OrderedMap String ℕ :=
  match page with
  | some page => page.anchors
  | none => .empty

def attached (page : Option (StoredPage D)) (analysis : PageAnalysis D)
    (opts : AttachPageOptions) : StoredPage D :=
  { analysis
    anchors := assignAnchors (anchorsBefore page) ((anchorsBefore page).values.foldl max 0)
      analysis.records
    article := opts.article
    delivered := opts.delivered }

variable {page : Option (StoredPage D)}

lemma anchorsOk_attached (h : ∀ before, page = some before → AnchorsOk before.anchors)
    (analysis : PageAnalysis D) (opts : AttachPageOptions) :
    AnchorsOk (attached page analysis opts).anchors := by
  have hbefore : AnchorsOk (anchorsBefore page) := by
    cases page with
    | none => exact anchorsOk_empty
    | some before => exact h before rfl
  exact hbefore.assign (fun key k hk =>
    (le_foldl_max _ 0).2 k (mem_values_of_get? hk)) analysis.records

/-! ## The page of a source -/

/-- What holds in every state: the store's own invariant, pages of records only, and anchors that
are right. -/
structure PagedInv (s : PagedStore D) : Prop where
  store : DocumentInv s.store
  pages : ∀ r page, s.pages r = some page → r < s.store.records.length ∧ AnchorsOk page.anchors

open PagedStore

section Steps

variable {s : PagedStore D} {canonical : String → String}

variable {sourceId : String} {r : ℕ}

lemma placeOf_eq_some_iff (h : DocumentInv s.store) :
    s.placeOf sourceId = some r ↔ r < s.store.records.length ∧ sourceId = sourceLabel r := by
  have hat : ∀ i (hi : i < s.store.records.length),
      s.store.records[i].sourceId = sourceLabel i := by
    intro i hi
    have hids := congrArg (·[i]?) h.sourceIds
    simp only [getElem?_map, getElem?_eq_getElem hi, map_some,
      getElem?_range hi, some.injEq] at hids
    exact hids
  rw [placeOf, findIdx?_eq_some_iff_getElem]
  constructor
  · rintro ⟨hr, heq, -⟩
    exact ⟨hr, by rw [← beq_iff_eq.1 heq, hat r hr]⟩
  · rintro ⟨hr, rfl⟩
    refine ⟨hr, by rw [hat r hr, beq_self_eq_true], fun j hj heq => ?_⟩
    have hlabel := beq_iff_eq.1 heq
    rw [hat j (Nat.lt_trans hj hr)] at hlabel
    exact absurd (sourceLabel_injective hlabel) (Nat.ne_of_lt hj)

lemma pageOf_eq_some_iff (h : PagedInv s) {page : StoredPage D} :
    s.pageOf sourceId = some page ↔ ∃ r, sourceId = sourceLabel r ∧ s.pages r = some page := by
  rw [pageOf, bind_eq_some_iff]
  constructor
  · rintro ⟨r, hr, hpage⟩
    exact ⟨r, ((placeOf_eq_some_iff h.store).1 hr).2, hpage⟩
  · rintro ⟨r, rfl, hpage⟩
    exact ⟨r, (placeOf_eq_some_iff h.store).2 ⟨(h.pages r page hpage).1, rfl⟩, hpage⟩

lemma attachPage_eq (hr : s.placeOf sourceId = some r) (analysis : PageAnalysis D)
    (opts : AttachPageOptions) :
    s.attachPage sourceId analysis opts =
      ({ s with pages := Function.update s.pages r (some (attached (s.pages r) analysis opts)) },
        some (attached (s.pages r) analysis opts)) := by
  unfold attachPage attached anchorsBefore
  rw [hr]

lemma pages_markDelivered (sourceId : String) (r : ℕ) : (s.markDelivered sourceId).pages r =
    if s.placeOf sourceId = some r then
      (s.pages r).map fun page => { page with delivered := .full }
    else s.pages r := by
  unfold markDelivered
  cases hplace : s.placeOf sourceId with
  | none => simp
  | some r' =>
    by_cases hr : r' = r
    · subst hr
      cases hpage : s.pages r' with
      | none => simp [hpage]
      | some page => simp [hpage]
    · have hne : ¬ r = r' := fun h => hr h.symm
      cases hpage : s.pages r' <;> simp [hr, hne, hpage]

lemma store_attachPage (sourceId : String) (analysis : PageAnalysis D) (opts : AttachPageOptions) :
    (s.attachPage sourceId analysis opts).1.store = s.store := by
  cases hplace : s.placeOf sourceId with
  | none => simp [attachPage, hplace]
  | some r => rw [attachPage_eq hplace]

lemma store_markDelivered (sourceId : String) : (s.markDelivered sourceId).store = s.store := by
  unfold markDelivered
  split
  · rfl
  · split <;> rfl

lemma records_length_le (e : StoreEvent) :
    s.store.records.length ≤ (s.store.step canonical e).records.length := by
  rw [← length_identities, ← length_identities]
  have hstep : Rebinds canonical s.store e (s.store.step canonical e) := rebinds_step s.store e
  cases hstep with
  | kept hidentities _ => exact Nat.le_of_eq (by rw [hidentities])
  | landed _ _ _ _ _ _ _ _ _ _ hidentities _ => exact Nat.le_of_eq (by rw [hidentities])
  | loaded _ _ _ _ _ _ _ _ _ hidentities _ => simp [hidentities]
  | observed _ _ hidentities _ => simp [hidentities]

lemma PagedInv.step (h : PagedInv s) (e : PagedEvent D) : PagedInv (s.step canonical e) := by
  cases e with
  | store e =>
    refine ⟨h.store.step (rebinds_step s.store e), fun r page hpage => ?_⟩
    obtain ⟨hr, hok⟩ := h.pages r page hpage
    exact ⟨Nat.lt_of_lt_of_le hr (records_length_le e), hok⟩
  | attachPage sourceId analysis opts =>
    have hstore : (s.step canonical (.attachPage sourceId analysis opts)).store = s.store :=
      store_attachPage sourceId analysis opts
    refine ⟨by rw [hstore]; exact h.store, fun r page hpage => ?_⟩
    rw [hstore]
    cases hplace : s.placeOf sourceId with
    | none =>
      rw [PagedStore.step, PagedStore.attachPage, hplace] at hpage
      exact h.pages r page hpage
    | some r' =>
      rw [PagedStore.step, attachPage_eq hplace] at hpage
      simp only [update_apply] at hpage
      split at hpage
      case isFalse => exact h.pages r page hpage
      case isTrue hr =>
        obtain rfl := some.inj hpage
        rw [hr]
        exact ⟨((placeOf_eq_some_iff h.store).1 hplace).1,
          anchorsOk_attached (fun before hbefore => (h.pages r' before hbefore).2) analysis opts⟩
  | markDelivered sourceId =>
    have hstore : (s.step canonical (.markDelivered sourceId)).store = s.store :=
      store_markDelivered sourceId
    refine ⟨by rw [hstore]; exact h.store, fun r page hpage => ?_⟩
    rw [hstore]
    rw [PagedStore.step, pages_markDelivered] at hpage
    split at hpage
    · obtain ⟨before, hbefore, rfl⟩ := map_eq_some_iff.1 hpage
      exact h.pages r before hbefore
    · exact h.pages r page hpage

lemma pageOf_store (h : PagedInv s) (e : StoreEvent) (sourceId : String) :
    (s.step canonical (.store e)).pageOf sourceId = s.pageOf sourceId := by
  have hstep : PagedInv (s.step canonical (.store e)) := h.step (.store e)
  refine Option.ext fun page => ?_
  rw [pageOf_eq_some_iff hstep, pageOf_eq_some_iff h]
  rfl

lemma pageOf_update (h : PagedInv s) {t : PagedStore D} {other : String}
    (hr : s.placeOf other = some r) (hstore : t.store = s.store)
    (hpages : t.pages = Function.update s.pages r page) (sourceId : String) :
    t.pageOf sourceId = if other = sourceId then page else s.pageOf sourceId := by
  have hplace : t.placeOf sourceId = s.placeOf sourceId := by
    rw [placeOf, hstore, ← placeOf]
  rw [pageOf, hplace, pageOf, hpages]
  split
  case isTrue heq =>
    rw [← heq, hr]
    exact update_self r page s.pages
  case isFalse hne =>
    cases hplace' : s.placeOf sourceId with
    | none => rfl
    | some r' =>
      have hrr : r' ≠ r := by
        rintro rfl
        exact hne (((placeOf_eq_some_iff h.store).1 hr).2.trans
          ((placeOf_eq_some_iff h.store).1 hplace').2.symm)
      exact update_of_ne hrr page s.pages

lemma pageOf_attachPage (h : PagedInv s) (other : String) (analysis : PageAnalysis D)
    (opts : AttachPageOptions) (sourceId : String) :
    (s.step canonical (.attachPage other analysis opts)).pageOf sourceId =
      if other = sourceId ∧ (s.placeOf sourceId).isSome then
        some (attached (s.pageOf sourceId) analysis opts)
      else s.pageOf sourceId := by
  rw [step]
  cases hplace : s.placeOf other with
  | none =>
    rw [attachPage, hplace, if_neg]
    rintro ⟨rfl, hsome⟩
    rw [hplace] at hsome
    exact absurd hsome (by simp)
  | some r =>
    rw [pageOf_update h hplace (by rw [attachPage_eq hplace]) (by rw [attachPage_eq hplace])]
    by_cases heq : other = sourceId
    · subst heq
      have hpage : s.pageOf other = s.pages r := by rw [pageOf, hplace]; rfl
      rw [if_pos rfl, if_pos ⟨rfl, by rw [hplace]; rfl⟩, hpage]
    · rw [if_neg heq, if_neg fun hand => heq hand.1]

lemma pageOf_markDelivered (h : PagedInv s) (other sourceId : String) :
    (s.step canonical (.markDelivered other)).pageOf sourceId =
      if other = sourceId then
        (s.pageOf sourceId).map fun page => { page with delivered := .full }
      else s.pageOf sourceId := by
  rw [step]
  cases hplace : s.placeOf other with
  | none =>
    have hpage : other = sourceId → s.pageOf sourceId = none := by
      rintro rfl
      rw [pageOf, hplace]
      rfl
    have hstay : s.markDelivered other = s := by simp [markDelivered, hplace]
    rw [hstay]
    by_cases heq : other = sourceId
    · rw [if_pos heq, hpage heq]
      rfl
    · rw [if_neg heq]
  | some r =>
    have hpages : (s.markDelivered other).pages = Function.update s.pages r
        ((s.pages r).map fun page => { page with delivered := .full }) := by
      funext r'
      rw [pages_markDelivered, hplace, update_apply]
      by_cases hr : r' = r
      · rw [if_pos (by rw [hr]), if_pos hr, hr]
      · rw [if_neg (fun heq => hr (some.inj heq).symm), if_neg hr]
    rw [pageOf_update h hplace (store_markDelivered other) hpages]
    by_cases heq : other = sourceId
    · subst heq
      have hpage : s.pageOf other = s.pages r := by rw [pageOf, hplace]; rfl
      rw [if_pos rfl, if_pos rfl, hpage]
    · rw [if_neg heq, if_neg heq]

lemma anchorOf_step (h : PagedInv s) (e : PagedEvent D) {sourceId key : String}
    (hk : s.anchorOf sourceId key = some k) :
    (s.step canonical e).anchorOf sourceId key = some k := by
  obtain ⟨page, hpage, hget⟩ := bind_eq_some_iff.1 hk
  unfold anchorOf
  cases e with
  | store e =>
    rw [pageOf_store h, hpage]
    exact hget
  | attachPage other analysis opts =>
    rw [pageOf_attachPage h]
    split
    · rw [hpage]
      exact get?_assignAnchors hget _ analysis.records
    · rw [hpage]
      exact hget
  | markDelivered other =>
    rw [pageOf_markDelivered h]
    split
    · rw [hpage]
      exact hget
    · rw [hpage]
      exact hget

end Steps

/-! ## Every run -/

section Runs

variable (pf : UrlPlatform)

lemma pagedInv_run (events : List (PagedEvent D)) : PagedInv ((pagedStore D pf).run events) := by
  have hstep (s : PagedStore D) (e : PagedEvent D) (h : PagedInv s) :
      PagedInv ((pagedStore D pf).step s e) :=
    h.step e
  have hinit : PagedInv (pagedStore D pf).init :=
    ⟨documentInv_run pf [], fun r page hpage => absurd hpage (by simp [pagedStore])⟩
  exact Machine.invariant_runFrom' hstep hinit events

lemma anchorOf_run {events : List (PagedEvent D)} {sourceId key : String}
    (hk : ((pagedStore D pf).run events).anchorOf sourceId key = some k)
    (later : List (PagedEvent D)) :
    ((pagedStore D pf).run (events ++ later)).anchorOf sourceId key = some k := by
  have hstep (s : PagedStore D) (e : PagedEvent D)
      (h : PagedInv s ∧ s.anchorOf sourceId key = some k) :
      PagedInv ((pagedStore D pf).step s e) ∧
        ((pagedStore D pf).step s e).anchorOf sourceId key = some k :=
    ⟨h.1.step e, anchorOf_step h.1 e h.2⟩
  rw [Machine.run, Machine.runFrom_append]
  exact (Machine.invariant_runFrom' hstep ⟨pagedInv_run pf events, hk⟩ later).2

lemma anchorOf_injective {s : PagedStore D} (h : PagedInv s) {sourceId key key' : String}
    (hk : s.anchorOf sourceId key = some k) (hk' : s.anchorOf sourceId key' = some k) :
    key = key' := by
  obtain ⟨page, hpage, hget⟩ := bind_eq_some_iff.1 hk
  obtain ⟨page', hpage', hget'⟩ := bind_eq_some_iff.1 hk'
  obtain rfl := some.inj (hpage.symm.trans hpage')
  obtain ⟨r, -, hr⟩ := (pageOf_eq_some_iff h).1 hpage
  exact (h.pages r page hr).2.injective key key' k hget hget'

lemma lastAttached_concat (events : List (PagedEvent D)) (e : PagedEvent D) (sourceId : String)
    (analysis : PageAnalysis D) :
    LastAttached pf (events ++ [e]) sourceId analysis ↔
      (∃ opts, e = .attachPage sourceId analysis opts ∧
        (((pagedStore D pf).run events).placeOf sourceId).isSome) ∨
      (∀ other opts, e ≠ .attachPage sourceId other opts) ∧
        LastAttached pf events sourceId analysis := by
  constructor
  · rintro ⟨pre, opts, post, hsplit, hknown, hlast⟩
    rcases eq_nil_or_concat post with rfl | ⟨post, e', rfl⟩
    · obtain ⟨rfl, he⟩ := append_inj' hsplit rfl
      exact .inl ⟨opts, List.singleton_inj.1 he, hknown⟩
    · rw [concat_eq_append, ← cons_append, ← List.append_assoc] at hsplit
      obtain ⟨rfl, he⟩ := append_inj' hsplit rfl
      obtain rfl := List.singleton_inj.1 he
      refine .inr ⟨fun other opts' he' => hlast other opts' (by simp [he']),
        pre, opts, post, rfl, hknown, fun other opts' hmem => hlast other opts' (by simp [hmem])⟩
  · rintro (⟨opts, rfl, hknown⟩ | ⟨hother, pre, opts, post, rfl, hknown, hlast⟩)
    · exact ⟨events, opts, [], rfl, hknown, fun _ _ hmem => absurd hmem (by simp)⟩
    · refine ⟨pre, opts, post ++ [e], by simp, hknown, fun other opts' hmem => ?_⟩
      rcases mem_append.1 hmem with hmem | hmem
      · exact hlast other opts' hmem
      · exact hother other opts' (mem_singleton.1 hmem).symm

/-- **A source has the page that was attached last.**

**Proof sketch.** Induction on the events, from the end. An analysis that is attached to a known
source is the latest one; every other event leaves the analyses. -/
theorem pageOf_run_iff (events : List (PagedEvent D)) (sourceId : String)
    (analysis : PageAnalysis D) :
    (((pagedStore D pf).run events).pageOf sourceId).map StoredPage.analysis = some analysis ↔
      LastAttached pf events sourceId analysis := by
  induction events using reverseRecOn with
  | nil =>
    refine ⟨fun h => absurd h (by simp [pagedStore, Machine.run, pageOf]), ?_⟩
    rintro ⟨pre, opts, post, hsplit, -⟩
    exact absurd hsplit (by simp)
  | append_singleton events e ih =>
    have hinv := pagedInv_run pf events
    rw [lastAttached_concat, Machine.run, Machine.runFrom_concat, ← Machine.run]
    show (pageOf (step _ _ _) sourceId).map _ = _ ↔ _
    cases e with
    | store e =>
      rw [pageOf_store hinv, ih]
      simp
    | markDelivered other =>
      have hsame : (if other = sourceId then
          (((pagedStore D pf).run events).pageOf sourceId).map fun page =>
            { page with delivered := .full }
          else ((pagedStore D pf).run events).pageOf sourceId).map StoredPage.analysis =
          (((pagedStore D pf).run events).pageOf sourceId).map StoredPage.analysis := by
        split
        · rw [Option.map_map]
          rfl
        · rfl
      rw [pageOf_markDelivered hinv, hsame, ih]
      simp
    | attachPage other latest opts =>
      rw [pageOf_attachPage hinv]
      by_cases heq : other = sourceId
      · subst heq
        cases hknown : (((pagedStore D pf).run events).placeOf other).isSome with
        | true =>
          rw [if_pos ⟨rfl, rfl⟩]
          simp [attached]
        | false =>
          have hnone : ((pagedStore D pf).run events).pageOf other = none := by
            rw [isSome_eq_false_iff, isNone_iff_eq_none] at hknown
            rw [pageOf, hknown]
            rfl
          rw [if_neg (by simp), hnone]
          simp
      · rw [if_neg fun hand => heq hand.1, ih]
        simp [heq]

end Runs

open Regex

/-! ## Reading an anchor -/

lemma anchorId_spec {text : List Char} {m : Regex.Match Char} (h : ANCHOR_ID.exec text 0 = some m) :
    ∃ a b, Regex.Denotes sourceIdPattern a ∧ Regex.Denotes positiveNumber b ∧
      text = a ++ "#r".toList ++ b ∧ m.group 1 = some a ∧ m.group 2 = some b := by
  have hnumber : Regex.Plain positiveNumber := ⟨trivial, fun n hn => (by cases hn), trivial⟩
  rw [ANCHOR_ID, exec_atStart] at h
  obtain ⟨q, hq, -, hcaps, -⟩ := matchAt_eq_some h
  simp only [seqs] at hq
  obtain ⟨q₁, hq₁, hq⟩ := mem_flatMap.1 hq
  obtain ⟨q₂, hq₂, hq⟩ := mem_flatMap.1 hq
  obtain ⟨q₃, hq₃, hq⟩ := mem_flatMap.1 hq
  obtain ⟨a, ha, hmove, hcaps₁⟩ := captured_of_mem_run
    (r := sourceIdPattern) ⟨trivial, trivial, trivial⟩ ⟨trivial, hnumber⟩ hq₁
  obtain ⟨x, hx, hmove₂⟩ := denotes_of_mem_run (plain_lit _) _ _ hq₂
  have hcaps₂ := caps_of_mem_run (uncaptured_lit _) _ _ hq₂
  obtain ⟨b, hb, hmove₃, hcaps₃⟩ := captured_of_mem_run
    (r := positiveNumber) ⟨trivial, trivial⟩ hnumber hq₃
  rw [denotes_lit] at hx
  subst hx
  simp only [run] at hq
  split at hq
  case isFalse => exact absurd hq (by simp)
  case isTrue hend =>
    obtain rfl := mem_singleton.1 hq
    have htext : text = a ++ ("#r".toList ++ (b ++ q.after)) := by
      have := hmove.after
      rw [hmove₂.after, hmove₃.after] at this
      simpa [posAt] using this
    rw [List.isEmpty_iff.1 hend, append_nil] at htext
    refine ⟨a, b, ha, hb, by rw [htext, List.append_assoc], ?_, ?_⟩ <;>
      rw [Regex.Match.group, hcaps, hcaps₃, hcaps₂, hcaps₁] <;> rfl

lemma anchorId_ne_none {a b : List Char} (ha : Regex.Denotes sourceIdPattern a)
    (hb : Regex.Denotes positiveNumber b) :
    ANCHOR_ID.exec (a ++ "#r".toList ++ b) 0 ≠ none := by
  rw [ANCHOR_ID, exec_atStart, Ne, matchAt_eq_none_iff]
  obtain ⟨q₁, hq₁, h₁⟩ := exists_mem_run (r := .group 1 sourceIdPattern)
    (posAt (a ++ "#r".toList ++ b) 0) a ("#r".toList ++ b) ha (by simp [posAt])
  obtain ⟨q₂, hq₂, h₂⟩ := exists_mem_run (r := .lit "#r".toList) q₁ _ b
    (Regex.denotes_lit.2 rfl) h₁
  obtain ⟨q₃, hq₃, h₃⟩ := exists_mem_run (r := .group 2 positiveNumber) q₂ b [] hb
    (by rw [h₂, append_nil])
  refine ne_nil_of_mem (a := q₃) ?_
  simp only [seqs]
  exact mem_flatMap.2 ⟨q₁, hq₁, mem_flatMap.2 ⟨q₂, hq₂,
    mem_flatMap.2 ⟨q₃, hq₃, by simp [run, h₃]⟩⟩⟩

lemma denotes_sourceIdPattern (n : ℕ) :
    Regex.Denotes sourceIdPattern ("S" ++ toString n).toList ↔ 0 < n := by
  rw [← denotes_positiveNumber_toString, toList_append]
  constructor
  · rintro ⟨u, v, ⟨c, -, rfl⟩, hv, huv⟩
    obtain ⟨-, rfl⟩ := List.cons.inj (huv : 'S' :: (toString n).toList = c :: v)
    exact hv
  · exact fun h => ⟨['S'], _, ⟨'S', rfl, rfl⟩, h, rfl⟩

lemma hash_notMem_of_denotes {a : List Char} (ha : Regex.Denotes sourceIdPattern a) : '#' ∉ a := by
  obtain ⟨u, v, ⟨c, hc, rfl⟩, hv, rfl⟩ := ha
  obtain ⟨d, ds, rfl, hd, hds⟩ := denotes_positiveNumber.1 hv
  intro hmem
  rcases mem_cons.1 hmem with rfl | hmem
  · exact absurd hc (by decide)
  · rcases mem_cons.1 hmem with rfl | hmem
    · exact absurd hd (by decide)
    · exact absurd (hds '#' hmem) (by decide)

open JsText

lemma hash_notMem_source (n : ℕ) : '#' ∉ ("S" ++ toString n).toList := by
  rw [toList_append]
  intro hmem
  rcases mem_append.1 hmem with hmem | hmem
  · exact absurd (mem_singleton.1 hmem) (by decide)
  · exact absurd (isDigit_of_mem_toString hmem).1 (by decide)

lemma split_unique {a b a' b' : List Char} (ha : '#' ∉ a) (ha' : '#' ∉ a')
    (h : a ++ "#r".toList ++ b = a' ++ "#r".toList ++ b') : a = a' ∧ b = b' := by
  have hfront : ∀ x y : List Char, '#' ∉ x →
      (x ++ "#r".toList ++ y).takeWhile (· != '#') = x := by
    intro x y hx
    rw [List.append_assoc, takeWhile_append_of_pos]
    · exact append_nil x
    · intro c hc
      rw [bne_iff_ne]
      rintro rfl
      exact hx hc
  have haa : a = a' := by rw [← hfront a b ha, h, hfront a' b' ha']
  subst haa
  exact ⟨rfl, append_cancel_left h⟩

lemma toList_anchorText (n k : ℕ) : (anchorText n k).toList =
    ("S" ++ toString n).toList ++ "#r".toList ++ (toString k).toList := by
  simp only [anchorText, toList_append]

lemma trim_anchorText (n k : ℕ) : JsText.trim (anchorText n k) = anchorText n k := by
  refine trim_eq_self fun c hc => ?_
  rw [toList_anchorText, toList_append] at hc
  rcases mem_append.1 hc with hc | hc
  · rcases mem_append.1 hc with hc | hc
    · rcases mem_append.1 hc with hc | hc
      · obtain rfl := mem_singleton.1 hc
        decide
      · exact isSpace_of_mem_toString hc
    · have hmark : ∀ d ∈ "#r".toList, isSpace d = false := by simp [isSpace]
      exact hmark c hc
  · exact isSpace_of_mem_toString hc

lemma resolveAnchor_anchorText (s : PagedStore D) {n k : ℕ} (hn : 0 < n) (hk : 0 < k) :
    s.resolveAnchor (anchorText n k) =
      (s.pageOf ("S" ++ toString n)).bind fun page => (page.anchors.entries.find? (·.2 == k)).bind
    fun entry =>
          (page.analysis.records.find? (·.key == entry.1)).map ("S" ++ toString n, ·) := by
  have ha := (denotes_sourceIdPattern n).2 hn
  have hb := (denotes_positiveNumber_toString k).2 hk
  obtain ⟨m, hm⟩ := ne_none_iff_exists'.1 (anchorId_ne_none ha hb)
  obtain ⟨a, b, ha', -, htext, hgroup₁, hgroup₂⟩ := anchorId_spec hm
  obtain ⟨rfl, rfl⟩ :=
    split_unique (hash_notMem_source n) (hash_notMem_of_denotes ha') htext
  have hnumber : ofDigitChars 10 (toString k).toList 0 = k := by
    rw [toString_eq_repr, toList_repr, ofDigitChars_ten_toDigits]
  unfold resolveAnchor
  rw [trim_anchorText, toList_anchorText, hm]
  simp only [hgroup₁, hgroup₂, ofList_toList, hnumber]
  cases s.pageOf ("S" ++ toString n) with
  | none => rfl
  | some page =>
    cases hfind : page.anchors.entries.find? (·.2 == k) with
    | none => simp [hfind]
    | some entry => simp [hfind]

lemma resolveAnchor_zero (s : PagedStore D) {n k : ℕ} (h : n = 0 ∨ k = 0) :
    s.resolveAnchor (anchorText n k) = none := by
  have hnone : ANCHOR_ID.exec (anchorText n k).toList 0 = none := by
    by_contra hsome
    obtain ⟨m, hm⟩ := ne_none_iff_exists'.1 hsome
    obtain ⟨a, b, ha, hb, htext, -, -⟩ := anchorId_spec hm
    rw [toList_anchorText] at htext
    obtain ⟨rfl, rfl⟩ :=
      split_unique (hash_notMem_source n) (hash_notMem_of_denotes ha) htext
    have hn := (denotes_sourceIdPattern n).1 ha
    have hk := (denotes_positiveNumber_toString k).1 hb
    omega
  unfold resolveAnchor
  rw [trim_anchorText, hnone]

lemma resolveAnchor_eq_some_iff {s : PagedStore D} (h : PagedInv s) (n k : ℕ) (sourceId : String)
    (record : PageRecord D) : s.resolveAnchor (anchorText n k) = some (sourceId, record) ↔
      sourceId = "S" ++ toString n ∧ ∃ page, s.pageOf sourceId = some page ∧
        page.anchors.get? record.key = some k ∧
        page.analysis.records.find? (·.key == record.key) = some record := by
  constructor
  · intro hresolve
    have hpos : 0 < n ∧ 0 < k := by
      by_contra hnot
      rw [resolveAnchor_zero s (by omega)] at hresolve
      cases hresolve
    rw [resolveAnchor_anchorText s hpos.1 hpos.2] at hresolve
    obtain ⟨page, hpage, hresolve⟩ := bind_eq_some_iff.1 hresolve
    obtain ⟨entry, hentry, hresolve⟩ := bind_eq_some_iff.1 hresolve
    obtain ⟨found, hfound, hpair⟩ := map_eq_some_iff.1 hresolve
    obtain ⟨rfl, rfl⟩ := Prod.mk.inj hpair
    have hkey : found.key = entry.1 := by simpa using find?_some hfound
    have hanchor : entry.2 = k := by simpa using find?_some hentry
    refine ⟨rfl, page, hpage, ?_, by rw [hkey]; exact hfound⟩
    rw [get?_eq_some_iff, hkey, ← hanchor]
    exact mem_of_find?_eq_some hentry
  · rintro ⟨rfl, page, hpage, hget, hfound⟩
    obtain ⟨r, hlabel, hr⟩ := (pageOf_eq_some_iff h).1 hpage
    have hok := (h.pages r page hr).2
    have hn : 0 < n := by
      have hlist := congrArg String.toList hlabel
      simp only [sourceLabel, toList_append, append_cancel_left_eq] at hlist
      rw [toString_toList_inj hlist]
      exact succ_pos r
    rw [resolveAnchor_anchorText s hn (hok.pos _ k hget), hpage, bind_some]
    have hmem := (get?_eq_some_iff page.anchors record.key k).1 hget
    cases hentry : page.anchors.entries.find? (·.2 == k) with
    | none => exact absurd (find?_eq_none.1 hentry _ hmem) (by simp)
    | some entry =>
      have hanchor : entry.2 = k := by simpa using find?_some hentry
      have hother : page.anchors.get? entry.1 = some k := by
        rw [get?_eq_some_iff, ← hanchor]
        exact mem_of_find?_eq_some hentry
      rw [bind_some, hok.injective entry.1 record.key k hother hget, hfound]
      rfl

/-! ## What is promised holds -/

lemma anchorsStable_run (pf : UrlPlatform) (events : List (PagedEvent D)) :
    AnchorsStable pf events where
  injective := fun _ _ _ _ hk hk' => anchorOf_injective (pagedInv_run pf events) hk hk'
  kept := fun later _ _ _ hk => anchorOf_run pf hk later
  notReused := fun later _ _ _ _ hk hk' =>
    anchorOf_injective (pagedInv_run pf (events ++ later)) hk' (anchorOf_run pf hk later)

lemma anchorsResolve_run (pf : UrlPlatform) (events : List (PagedEvent D)) :
    AnchorsResolve pf events where
  resolves := by
    intro n k
    have hinv := pagedInv_run pf events
    constructor
    · intro hsome
      obtain ⟨⟨sourceId, record⟩, hresolve⟩ := isSome_iff_exists.1 hsome
      obtain ⟨rfl, page, hpage, hget, hfound⟩ :=
        (resolveAnchor_eq_some_iff hinv n k sourceId record).1 hresolve
      refine ⟨page.analysis, record.key, ?_, ?_, ?_⟩
      · rw [← pageOf_run_iff, hpage]
        rfl
      · exact List.mem_map.2 ⟨record, mem_of_find?_eq_some hfound, rfl⟩
      · rw [anchorOf, hpage]
        exact hget
    · rintro ⟨analysis, key, hlast, hkey, hanchor⟩
      obtain ⟨page, hpage, hget⟩ := bind_eq_some_iff.1 hanchor
      rw [← pageOf_run_iff, hpage] at hlast
      obtain rfl := some.inj hlast
      obtain ⟨record, hrecord, rfl⟩ := List.mem_map.1 hkey
      cases hfound : page.analysis.records.find? (·.key == record.key) with
      | none => exact absurd (find?_eq_none.1 hfound record hrecord) (by simp)
      | some first =>
        have hfirst : first.key = record.key := by simpa using find?_some hfound
        refine isSome_iff_exists.2 ⟨("S" ++ toString n, first),
          (resolveAnchor_eq_some_iff hinv n k _ first).2 ⟨rfl, page, hpage, ?_, ?_⟩⟩
        · rw [hfirst]
          exact hget
        · rw [hfirst]
          exact hfound
  carries := by
    intro n k sourceId record hresolve
    obtain ⟨hsource, page, hpage, hget, hfound⟩ :=
      (resolveAnchor_eq_some_iff (pagedInv_run pf events) n k sourceId record).1 hresolve
    refine ⟨hsource, ⟨page.analysis, ?_, mem_of_find?_eq_some hfound⟩, ?_⟩
    · rw [← pageOf_run_iff, hpage]
      rfl
    · rw [anchorOf, hpage]
      exact hget

/-- **Anchors outlive the analyses that minted them.** In every run, whatever pages are attached in
whatever order, anchors are stable, and one resolves exactly where it is assigned to a key of the
latest analysis. -/
theorem anchors_run (pf : UrlPlatform) (events : List (PagedEvent D)) :
    AnchorsStable pf events ∧ AnchorsResolve pf events :=
  ⟨anchorsStable_run pf events, anchorsResolve_run pf events⟩

end Yantra
