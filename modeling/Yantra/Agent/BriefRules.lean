import Yantra.Agent.BriefComposer

/-!
# The rules a Brief's references obey

The schema checks a finished Brief again: citations name cited sources, cited sources come first,
verified conditions are cited, and so on. The composer establishes all of it but two things: a
condition whose only evidence is an action keeps its `verified` status without a citation, and a
run without evidence publishes the sources it was given as they are.

## Main definitions

* `ReferentialRules` — what the schema checks of references.
* `StandsVerified` — the reported conditions that are published as verified.

## Main results

* `referentialRules_iff` — when a composed Brief obeys the rules.
-/

namespace Yantra

open List Option Bool Prod OrderedMap ComposeContext Threaded Value

/-! ## The rules -/

/-- A citation: the position, from 1, of a source flagged as cited. -/
def BriefContent.CitesSource (c : BriefContent) (n : ℕ) : Prop :=
  1 ≤ n ∧ ∃ source, c.sources[n - 1]? = some source ∧ source.cited = some true

/-- No source flagged as cited comes after one flagged as consulted only. -/
def CitedFirst (sources : List ContentSource) : Prop :=
  sources.Pairwise fun a b => a.cited = some false → b.cited ≠ some true

def BriefContent.ListsAction (c : BriefContent) (id : String) : Prop :=
  ∃ listed, c.actions = some listed ∧ id ∈ listed.map BriefAction.id

/-- What the schema checks of references. -/
structure ReferentialRules (c : BriefContent) : Prop where
  findingCitations : ∀ finding ∈ c.keyFindings, ∀ n ∈ finding.citations, c.CitesSource n
  sectionCitations : ∀ part ∈ c.sections, ∀ n ∈ part.citations, c.CitesSource n
  rowCitations : ∀ table, c.facets = some table →
    ∀ numbers ∈ table.rowCitations, ∀ n ∈ numbers, c.CitesSource n
  constraintCitations : ∀ constraints, c.constraints = some constraints →
    ∀ condition ∈ constraints, ∀ n ∈ condition.citations, c.CitesSource n
  citedFirst : CitedFirst c.sources
  nonEditorial : ∀ finding ∈ c.keyFindings, finding.editorial = false →
    finding.citations ≠ [] ∨ ∃ ids, finding.actions = some ids ∧ ids ≠ []
  verifiedCited : ∀ constraints, c.constraints = some constraints →
    ∀ condition ∈ constraints, condition.status = .verified → condition.citations ≠ []
  rowCounts : ∀ table, c.facets = some table → table.rowCitations.length = table.rows.length ∧
    ∀ rows, table.rowActions = some rows → rows.length = table.rows.length
  findingActions : ∀ finding ∈ c.keyFindings, ∀ ids, finding.actions = some ids →
    ∀ id ∈ ids, c.ListsAction id
  sectionActions : ∀ part ∈ c.sections, ∀ ids, part.actions = some ids →
    ∀ id ∈ ids, c.ListsAction id
  rowActions : ∀ table, c.facets = some table → ∀ rows, table.rowActions = some rows →
    ∀ ids ∈ rows, ∀ id ∈ ids, c.ListsAction id

/-! ## What has been resolved -/

variable {ctx : ComposeContext}

variable {ref pointer : String}

lemma target_eq_ok {t : RefTarget} (other : String) (h : ctx.target ref pointer = .ok t) :
    ctx.target ref other = .ok t := by
  unfold target at h ⊢
  split_ifs at h ⊢
  · split at h
    · cases h
    · exact h
  · split at h
    · cases h
    · split at h
      · cases h
      · split_ifs at h ⊢
        exact h

/-- What is recorded is what references resolve to. -/
structure Grounded (ctx : ComposeContext) (s : ComposeState) : Prop where
  pages : ∀ ref r, s.resolved.get? ref = some r → ctx.target ref "" = .ok (.page r)
  actions : ∀ ref entry, s.resolvedActions.get? ref = some entry →
    ctx.target ref "" = .ok (.action entry)

def Recorded (ctx : ComposeContext) (s : ComposeState) (ref : String) : Prop :=
  (∃ r, ctx.target ref "" = .ok (.page r) ∧ s.resolved.get? ref = some r) ∨
    ∃ entry, ctx.target ref "" = .ok (.action entry) ∧ s.resolvedActions.get? ref = some entry

/-- A composition got from one state to another. -/
structure Extends (ctx : ComposeContext) (s t : ComposeState) : Prop where
  grounded : Grounded ctx s → Grounded ctx t
  recorded : ∀ ref, Recorded ctx s ref → Recorded ctx t ref

lemma Extends.refl (s : ComposeState) : Extends ctx s s := ⟨id, fun _ => id⟩

lemma Extends.trans {s t u : ComposeState} (h : Extends ctx s t) (h' : Extends ctx t u) :
    Extends ctx s u :=
  ⟨h'.grounded ∘ h.grounded, fun ref => h'.recorded ref ∘ h.recorded ref⟩

lemma Extends.of_eq {s t : ComposeState} (hr : t.resolved = s.resolved)
    (ha : t.resolvedActions = s.resolvedActions) : Extends ctx s t where
  grounded h := ⟨by rw [hr]; exact h.pages, by rw [ha]; exact h.actions⟩
  recorded ref h := by
    unfold Recorded at h ⊢
    rwa [hr, ha]

lemma extends_reportIf (s : ComposeState) (cause : Bool) (issue : ComposeIssue) :
    Extends ctx s (s.reportIf cause issue) := by
  unfold ComposeState.reportIf
  split_ifs
  · exact .of_eq rfl rfl
  · exact .refl s

variable {entry : ActionLedgerEntry}

lemma extends_recordAction {ref : String} (h : ctx.target ref "" = .ok (.action entry))
    (s : ComposeState) :
    Extends ctx s { s with resolvedActions := s.resolvedActions.set ref entry } where
  grounded hs := ⟨hs.pages, forall_get?_set h hs.actions⟩
  recorded ref' := by
    rintro (hpage | ⟨entry', h', hget⟩)
    · exact .inl hpage
    · refine .inr ⟨entry', h', get?_set_of_get? hget ?_⟩
      rintro rfl
      rw [h] at h'
      cases h'
      rfl

variable {r : ResolvedRef}

lemma extends_recordPage {ref : String} (h : ctx.target ref "" = .ok (.page r)) (s : ComposeState) :
    Extends ctx s { s with resolved := s.resolved.set ref r } where
  grounded hs := ⟨forall_get?_set h hs.pages, hs.actions⟩
  recorded ref' := by
    rintro (⟨r', h', hget⟩ | haction)
    · refine .inl ⟨r', h', get?_set_of_get? hget ?_⟩
      rintro rfl
      rw [h] at h'
      cases h'
      rfl
    · exact .inr haction

lemma extends_resolve (ref pointer : String) (s : ComposeState) :
    Extends ctx s (ctx.resolve ref pointer s).2 ∧
      ((ctx.resolve ref pointer s).1 → Recorded ctx (ctx.resolve ref pointer s).2 ref) := by
  unfold ComposeContext.resolve
  cases htarget : ctx.target ref pointer with
  | error issue => exact ⟨.of_eq rfl rfl, fun h => nomatch h⟩
  | ok t =>
    have ht := target_eq_ok "" htarget
    cases t with
    | action entry =>
      exact ⟨extends_recordAction ht s, fun _ => .inr ⟨entry, ht, get?_set_self _ _ _⟩⟩
    | page r =>
      exact ⟨extends_recordPage ht s, fun _ => .inl ⟨r, ht, get?_set_self _ _ _⟩⟩

lemma resolve_fst (ref pointer : String) (s : ComposeState) :
    (ctx.resolve ref pointer s).1 = ctx.resolves ref := by
  unfold ComposeContext.resolve resolves
  cases htarget : ctx.target ref pointer with
  | ok t =>
    rw [target_eq_ok "" htarget]
    cases t <;> rfl
  | error issue =>
    cases hother : ctx.target ref "" with
    | ok t => rw [target_eq_ok pointer hother] at htarget; cases htarget
    | error issue' => rfl

lemma resolveAll_fst (pointer : ℕ → String) (refs : List String) (s : ComposeState) :
    (resolveAll ctx pointer refs s).1 = refs.filter ctx.resolves := by
  have hkept := filterState_fst
    (p := fun (ri : String × ℕ) s => ctx.resolve ri.1 (pointer ri.2) s)
    (fun ri s => resolve_fst ri.1 (pointer ri.2) s) refs.zipIdx s
  have hmap := List.filter_map (f := fst) (p := ctx.resolves) (l := refs.zipIdx)
  rw [zipIdx_map_fst] at hmap
  show List.map fst _ = _
  rw [hkept, hmap]
  rfl

lemma extends_resolveAll (pointer : ℕ → String) (refs : List String) (s : ComposeState) :
    Extends ctx s (resolveAll ctx pointer refs s).2 ∧
      ∀ ref ∈ (resolveAll ctx pointer refs s).1,
        Recorded ctx (resolveAll ctx pointer refs s).2 ref := by
  obtain ⟨hext, hrec⟩ := filterState_spec (R := Extends ctx)
    (P := fun (ri : String × ℕ) s => Recorded ctx s ri.1) .refl (fun _ _ _ => .trans)
    (fun ri _ _ h hext => hext.recorded ri.1 h)
    (fun ri s => ctx.resolve ri.1 (pointer ri.2) s)
    (fun ri s => extends_resolve ri.1 (pointer ri.2) s) refs.zipIdx s
  refine ⟨hext, fun ref href => ?_⟩
  obtain ⟨ri, hri, rfl⟩ := List.mem_map.1 href
  exact hrec ri hri

lemma extends_inlineRefs (pattern : Regex Char) (pointer : String) (text : List Char)
    (refs : List String) (s : ComposeState) :
    Extends ctx s (inlineRefs ctx pattern pointer text refs s).2.2 := by
  refine Regex.spliceState_rel (R := fun (a b : List String × ComposeState) =>
    Extends ctx a.2 b.2) (fun a => .refl a.2) (fun _ _ _ => .trans) (fun m a => ?_) 0 _ (refs, s)
  simp only
  split_ifs <;> exact (extends_resolve _ _ _).1

lemma extends_textRefs (text : String) (explicit : List String) (pointer : String)
    (s : ComposeState) : Extends ctx s (textRefs ctx text explicit pointer s).2 := by
  have hnumeric (s : ComposeState) : Extends ctx s
      (Regex.spliceState text.toList (fun m s => (if ctx.mode = .assembled then [] else m.text,
        s.reportIf (ctx.mode = .tool) ⟨.referenceNumeric, pointer, [("pointer", pointer)]⟩))
        0 (Regex.matchAll NUMERIC_REF text.toList) s).2 :=
    Regex.spliceState_rel .refl (fun _ _ _ => .trans) (fun _ s => extends_reportIf s _ _) 0 _ s
  have hexplicit : Extends ctx s
      (resolveAll ctx (fun i => pointer ++ "/sources/" ++ toString i) explicit s).2 :=
    (extends_resolveAll _ explicit s).1
  unfold textRefs
  refine (hexplicit.trans (hnumeric _)).trans ?_
  by_cases hactions : ctx.actions.isSome
  · simp only [hactions, if_true]
    exact (extends_inlineRefs INLINE_EVIDENCE_REF pointer _ _ _).trans
      (extends_inlineRefs INLINE_ACTION_REF pointer _ _ _)
  · simp only [hactions, false_eq_true, if_false]
    exact extends_inlineRefs INLINE_EVIDENCE_REF pointer _ _ _

lemma extends_gatherSection (vi : Value × ℕ) (s : ComposeState) :
    Extends ctx s (gatherSection ctx vi s).2 := by
  simp only [gatherSection]
  exact extends_textRefs _ _ _ s

lemma extends_gatherRow (width : ℕ) (rowSources : List Value) (vi : Value × ℕ) (s : ComposeState) :
    Extends ctx s (gatherRow ctx width rowSources vi s).2 := by
  simp only [gatherRow]
  refine Extends.trans ?_ (extends_resolveAll _ _ _).1
  refine Extends.trans ?_ (extends_reportIf _ _ _)
  exact (extends_reportIf s _ _).trans (extends_reportIf _ _ _)

lemma extends_gatherCondition (vi : Value × ℕ) (s : ComposeState) :
    Extends ctx s (gatherCondition ctx vi s).2 ∧
      ∀ ref ∈ (gatherCondition ctx vi s).1.refs, Recorded ctx (gatherCondition ctx vi s).2 ref := by
  simp only [gatherCondition]
  exact extends_resolveAll _ _ s

lemma extends_mapState {β : Type} {f : Value × ℕ → ComposeState → β × ComposeState}
    (hf : ∀ vi s, Extends ctx s (f vi s).2) (vis : List (Value × ℕ)) (s : ComposeState) :
    Extends ctx s (mapState f vis s).2 :=
  (mapState_spec (P := fun _ _ => True) .refl (fun _ _ _ => .trans)
    (fun _ _ _ _ _ => trivial) f (fun vi s => ⟨hf vi s, trivial⟩) vis s).1

def reportedConditions (ctx : ComposeContext) (raw : List (String × Value)) :
    List DeliveryConstraint :=
  ((publishArray (Value.field? "constraints" raw)).take 12).map fun value =>
    let condition := asPublishRecord (some value)
    { name := publishText (Value.field? "name" condition) 60 false
      value := publishText (Value.field? "value" condition) 120 false
      status := reportedStatus (Value.field? "status" condition)
      refs := (refsFrom (Value.field? "sources" condition)).filter ctx.resolves }

lemma gatherConditions_fst (raw : List (String × Value)) (s : ComposeState) :
    (gatherConditions ctx raw s).1 = reportedConditions ctx raw := by
  rw [gatherConditions, mapState_fst (g := fun (vi : Value × ℕ) =>
    let condition := asPublishRecord (some vi.1)
    { name := publishText (field? "name" condition) 60 false
      value := publishText (field? "value" condition) 120 false
      status := reportedStatus (field? "status" condition)
      refs := (refsFrom (field? "sources" condition)).filter ctx.resolves })]
  · conv_rhs => rw [reportedConditions, ← zipIdx_map_fst 0
      ((publishArray (field? "constraints" raw)).take 12), List.map_map]
    rfl
  · intro vi s
    simp only [gatherCondition, resolveAll_fst]

lemma extends_gatherConditions (raw : List (String × Value)) (s : ComposeState) :
    Extends ctx s (gatherConditions ctx raw s).2 ∧
      ∀ condition ∈ (gatherConditions ctx raw s).1, ∀ ref ∈ condition.refs,
        Recorded ctx (gatherConditions ctx raw s).2 ref :=
  mapState_spec (R := Extends ctx)
    (P := fun (c : DeliveryConstraint) s => ∀ ref ∈ c.refs, Recorded ctx s ref) .refl
    (fun _ _ _ => .trans) (fun _ _ _ h hext ref href => hext.recorded ref (h ref href))
    (gatherCondition ctx) extends_gatherCondition _ s

lemma extends_gatherTexts (raw : List (String × Value)) (s : ComposeState) :
    Extends ctx s (gatherTexts ctx raw s).2 := by
  simp only [gatherTexts]
  refine Extends.trans ?_ (extends_mapState extends_gatherSection _ _)
  refine Extends.trans ?_ (extends_mapState (fun _ s => extends_textRefs _ _ _ s) _ _)
  exact extends_textRefs _ _ _ _

lemma extends_gatherTable (raw : List (String × Value)) (s : ComposeState) :
    Extends ctx s (gatherTable ctx raw s).2 := by
  simp only [gatherTable]
  exact (extends_reportIf _ _ _).trans (extends_mapState (extends_gatherRow _ _) _ _)

/-- What a composition has resolved is what the references resolve to, and the references of the
reported conditions are recorded.

**Proof sketch.** Every pass only extends the state; the conditions come last. -/
theorem grounded_gather (pf : Platform) (ctx : ComposeContext) (raw : List (String × Value)) :
    Grounded ctx (gather pf ctx raw).state ∧
      (gather pf ctx raw).constraints = reconciledConstraints pf (reportedConditions ctx raw)
        ((ctx.contract.map TaskContractBody.filters).getD []) ctx.supported ∧
      ∀ condition ∈ reportedConditions ctx raw, ∀ ref ∈ condition.refs,
        Recorded ctx (gather pf ctx raw).state ref := by
  have hempty : Grounded ctx {} := ⟨fun _ _ h => (nomatch h), fun _ _ h => (nomatch h)⟩
  simp only [gather]
  refine ⟨?_, ?_, ?_⟩
  · refine (extends_gatherConditions raw _).1.grounded ?_
    refine Extends.grounded ?_ ((extends_gatherTable raw _).grounded
      ((extends_gatherTexts raw _).grounded hempty))
    exact .of_eq rfl rfl
  · rw [reconcileConstraints, gatherConditions_fst]
  · intro condition hmem
    rw [← gatherConditions_fst raw] at hmem
    exact (extends_gatherConditions raw _).2 condition hmem

/-! ## Numbers -/

variable {id : String}

variable {i : ℕ}

lemma evidence_of_byId (h : ctx.byId.get? id = some i) :
    (ctx.evidence.getD i default).sourceId = some id := by
  obtain ⟨⟨entry, j⟩, hmem, hid⟩ := mem_filterMap.1 (mem_of_get?_ofList h)
  obtain ⟨id', hid', heq⟩ := map_eq_some_iff.1 hid
  obtain ⟨rfl, rfl⟩ := Prod.mk.inj heq
  rw [getD_eq_getElem?_getD, mk_mem_zipIdx_iff_getElem?.1 hmem]
  exact hid'

lemma byId_of_target (h : ctx.target ref pointer = .ok (.page r)) :
    ctx.byId.get? r.sourceId = some r.entryIndex := by
  unfold target at h
  split_ifs at h
  · split at h <;> cases h
  · split at h
    · cases h
    · split at h
      · cases h
      · rename_i hindex
        split_ifs at h
        cases h
        exact hindex

lemma idOf_of_target (h : ctx.target ref pointer = .ok (.action entry)) :
    ctx.actions.isSome ∧ idOf entry = ref := by
  unfold target at h
  split_ifs at h with hactions
  · split at h
    · cases h
    · rename_i found hfound
      cases h
      obtain ⟨e, -, he⟩ := List.mem_map.1 (mem_of_get?_ofList hfound)
      obtain ⟨rfl, rfl⟩ := Prod.mk.inj he
      exact ⟨hactions.1, rfl⟩
  · split at h
    · cases h
    · split at h
      · cases h
      · split_ifs at h
        cases h

variable {refs : List String} {condition : DeliveryConstraint}

namespace Gathered

variable {g : Gathered}

/-- A source that references cite stands in the evidence. -/
lemma byId_of_mem_sourceIds (hg : Grounded ctx g.state)
    (h : id ∈ g.sourceIds refs) : ∃ i, ctx.byId.get? id = some i := by
  obtain ⟨ref, -, href⟩ := mem_filterMap.1 h
  obtain ⟨r, hr, rfl⟩ := map_eq_some_iff.1 href
  exact ⟨r.entryIndex, byId_of_target (hg.pages ref r hr)⟩

/-- The parts whose references number the sources. -/
lemma mem_citedIds (hrefs : refs ∈ g.citingRefs) (h : id ∈ g.sourceIds refs) : id ∈ g.citedIds :=
  mem_eraseDups.2 (mem_flatMap.2 ⟨refs, hrefs, h⟩)

lemma byId_of_mem_citedIds (hg : Grounded ctx g.state) (h : id ∈ g.citedIds) :
    ∃ i, ctx.byId.get? id = some i := by
  obtain ⟨refs, -, hid⟩ := mem_flatMap.1 (mem_eraseDups.1 h)
  exact byId_of_mem_sourceIds hg hid

lemma number_spec {i n : ℕ} (h : (g.numbers ctx).get? i = some n) :
    1 ≤ n ∧ (g.order ctx)[n - 1]? = some i := by
  obtain ⟨⟨i', k⟩, hmem, heq⟩ := List.mem_map.1 (mem_of_get?_ofList h)
  obtain ⟨rfl, rfl⟩ := Prod.mk.inj heq
  refine ⟨Nat.succ_le_succ (Nat.zero_le k), ?_⟩
  rw [Nat.add_sub_cancel]
  exact mk_mem_zipIdx_iff_getElem?.1 hmem

lemma exists_number (h : id ∈ g.citedIds) (hi : ctx.byId.get? id = some i) :
    ∃ n, (g.numbers ctx).get? i = some n := by
  refine exists_get?_ofList ?_
  have horder : i ∈ g.order ctx :=
    mem_append_left _ (List.mem_map.2 ⟨id, h, by rw [hi]; rfl⟩)
  rw [List.map_map]
  obtain ⟨k, hk, hget⟩ := mem_iff_getElem.1 horder
  refine List.mem_map.2 ⟨(i, k), ?_, rfl⟩
  rw [mk_mem_zipIdx_iff_getElem?, getElem?_eq_getElem hk, hget]

/-- An entry whose source is cited is flagged so. -/
lemma isCited_of_byId (h : id ∈ g.citedIds) (hi : ctx.byId.get? id = some i) :
    g.isCited (ctx.evidence.getD i default) := by
  rw [isCited, evidence_of_byId hi, getD_some, contains_iff_mem]
  exact h

variable {n : ℕ}

lemma citations_spec (hg : Grounded ctx g.state) (hrefs : refs ∈ g.citingRefs)
    (hn : n ∈ g.citations ctx refs) :
    1 ≤ n ∧ ∃ i, (g.order ctx)[n - 1]? = some i ∧
      g.isCited (ctx.evidence.getD i default) := by
  obtain ⟨id, hid, rfl⟩ := List.mem_map.1 hn
  have hcited := mem_citedIds hrefs (mem_eraseDups.1 hid)
  obtain ⟨i, hi⟩ := byId_of_mem_citedIds hg hcited
  obtain ⟨n, hnumber⟩ := exists_number hcited hi
  rw [hi, getD_some, hnumber, getD_some]
  exact ⟨(number_spec hnumber).1, i, (number_spec hnumber).2, isCited_of_byId hcited hi⟩

lemma citations_eq_nil_iff (refs : List String) :
    g.citations ctx refs = [] ↔ ∀ ref ∈ refs, g.state.resolved.get? ref = none := by
  have hdups : (g.sourceIds refs).eraseDups = [] ↔ g.sourceIds refs = [] := by
    simp only [eq_nil_iff_forall_not_mem, mem_eraseDups]
  rw [citations, map_eq_nil_iff, hdups, sourceIds, filterMap_eq_nil_iff]
  simp only [map_eq_none_iff]

lemma citations_of_no_evidence (hg : Grounded ctx g.state) (h : ctx.evidence = [])
    (refs : List String) : g.citations ctx refs = [] := by
  rw [citations_eq_nil_iff]
  intro ref _
  cases hget : g.state.resolved.get? ref with
  | none => rfl
  | some r =>
    have hbyId := byId_of_target (hg.pages ref r hget)
    simp only [byId, h] at hbyId
    cases hbyId

lemma cited_sourceRecord (rt : BriefPlatform) (entry : EvidenceEntry) :
    (ContentSource.consulted (g.sourceRecord rt entry)).cited = some (g.isCited entry) := rfl

lemma citedFirst_order (hg : Grounded ctx g.state) (rt : BriefPlatform) :
    CitedFirst ((g.order ctx).map fun i =>
      .consulted (g.sourceRecord rt (ctx.evidence.getD i default))) := by
  have hcited (i : ℕ) (h : i ∈ g.citedIds.map fun id => (ctx.byId.get? id).getD 0) :
      g.isCited (ctx.evidence.getD i default) := by
    obtain ⟨id, hid, rfl⟩ := List.mem_map.1 h
    obtain ⟨i, hi⟩ := byId_of_mem_citedIds hg hid
    rw [hi]
    exact isCited_of_byId hid hi
  have hrest (i : ℕ) (h : i ∈ (range ctx.evidence.length).filter fun i =>
      !g.isCited (ctx.evidence.getD i default)) :
      g.isCited (ctx.evidence.getD i default) = false := by
    simpa using (mem_filter.1 h).2
  unfold CitedFirst order
  simp only [pairwise_map, cited_sourceRecord, some.injEq, ne_eq,
    not_eq_true]
  refine pairwise_append.2 ⟨?_, ?_, fun i hi j hj _ => hrest j hj⟩
  · refine (pairwise_of_forall fun _ _ => trivial).imp_of_mem fun {i j} hi _ _ hfalse => ?_
    rw [hcited i hi] at hfalse
    cases hfalse
  · exact (pairwise_of_forall fun _ _ => trivial).imp_of_mem fun _ hj _ _ => hrest _ hj

lemma mem_listedActions (hg : Grounded ctx g.state) {ids : List String}
    (h : g.actionRefs refs = some ids) (hid : id ∈ ids) :
    ∃ listed, g.listedActions ctx = some listed ∧ id ∈ listed.map BriefAction.id := by
  unfold actionRefs at h
  simp only at h
  split_ifs at h
  cases h
  have hkept : id ∈ g.actionOrder.take 40 :=
    contains_iff_mem.1 (mem_filter.1 (mem_of_mem_take hid)).2
  have hkey := mem_of_mem_take hkept
  obtain ⟨entry, hentry⟩ := isSome_iff_exists.1
    ((has_iff_mem_keys _ _).2 hkey)
  obtain ⟨hactions, hidOf⟩ := idOf_of_target (hg.actions id entry hentry)
  refine ⟨_, if_pos ⟨hactions, ne_nil_of_mem hkey⟩, List.mem_map.2
    ⟨briefActionOf entry, mem_filterMap.2 ⟨id, hkept, by rw [hentry]; rfl⟩, hidOf⟩⟩

/-! ## The content -/

variable {finding : DeliveryFinding}

lemma keyFinding_eq_some {published : KeyFinding} (h : g.keyFinding ctx finding = some published) :
    published.citations = g.citations ctx finding.refs ∧
      published.actions = g.actionRefs finding.refs ∧
      published.editorial =
        ((g.citations ctx finding.refs).isEmpty && (g.actionRefs finding.refs).isNone) := by
  obtain ⟨text, -, h⟩ := bind_eq_some_iff.1 h
  cases h
  exact ⟨rfl, rfl, rfl⟩

variable {published : BriefSection} {part : CitedSection}

lemma briefSection_eq_some (h : g.briefSection ctx part = some published) :
    published.citations = g.citations ctx part.refs ∧
      published.actions = g.actionRefs part.refs := by
  obtain ⟨body, -, h⟩ := bind_eq_some_iff.1 h
  cases h
  exact ⟨rfl, rfl⟩

lemma alternativesSection_eq_some {parts : List BriefSection}
    (h : g.alternativesSection ctx = some parts) (hmem : published ∈ parts) :
    published.citations = g.citations ctx g.alternativeRefs ∧ published.actions = none := by
  unfold alternativesSection at h
  split_ifs at h
  · cases h
    cases hmem
  · obtain ⟨body, -, h⟩ := bind_eq_some_iff.1 h
    cases h
    rw [mem_singleton] at hmem
    subst hmem
    exact ⟨rfl, rfl⟩

lemma comparison_eq_some {table : BriefComparison} (h : g.comparison ctx = some table) :
    table.rows = g.delivery.rows.map DeliveryRow.cells ∧
      table.rowCitations = g.delivery.rows.map (fun row => g.citations ctx row.refs) ∧
      ∀ rows, table.rowActions = some rows →
        rows = g.delivery.rows.map fun row => (g.actionRefs row.refs).getD [] := by
  unfold comparison at h
  by_cases hempty : (!g.tablePresent || g.delivery.rows.isEmpty) = true
  · rw [if_pos hempty] at h
    cases h
  · rw [if_neg hempty] at h
    cases h
    refine ⟨rfl, rfl, fun rows hrows => ?_⟩
    simp only at hrows
    split_ifs at hrows
    exact (some.inj hrows).symm

lemma actionRefs_ne_nil {ids : List String} (h : g.actionRefs refs = some ids) : ids ≠ [] := by
  unfold actionRefs at h
  simp only at h
  split_ifs at h with hempty
  rintro rfl
  rw [some.inj h] at hempty
  exact hempty rfl

lemma exists_of_mem_mapM {α β : Type} {f : α → Option β} {as : List α} {bs : List β}
    (h : as.mapM f = some bs) {b : β} (hb : b ∈ bs) : ∃ a ∈ as, f a = some b := by
  induction as generalizing bs with
  | nil =>
    rw [mapM_nil] at h
    cases h
    cases hb
  | cons a as ih =>
    rw [mapM_cons] at h
    obtain ⟨b', hb', h⟩ := bind_eq_some_iff.1 h
    obtain ⟨bs', hbs', h⟩ := bind_eq_some_iff.1 h
    cases h
    rcases mem_cons.1 hb with rfl | hb
    · exact ⟨a, mem_cons_self, hb'⟩
    · obtain ⟨a', ha', hfa⟩ := ih hbs' hb
      exact ⟨a', mem_cons_of_mem a ha', hfa⟩

structure Wrote (g : Gathered) (ctx : ComposeContext) (rt : BriefPlatform)
    (raw : List (String × Value)) (c : BriefContent) : Prop where
  actions : c.actions = g.listedActions ctx
  findings : ∀ published ∈ c.keyFindings,
    ∃ finding ∈ g.delivery.findings, g.keyFinding ctx finding = some published
  sections : ∀ published ∈ c.sections,
    (∃ part ∈ g.sections, g.briefSection ctx part = some published) ∨
      published.citations = g.citations ctx g.alternativeRefs ∧ published.actions = none
  facets : c.facets = g.comparison ctx
  sources : c.sources = g.sources ctx rt raw
  constraints : c.constraints =
    if g.constraints.isEmpty then none else some (g.constraints.map (g.briefConstraint ctx))

lemma wrote_of_content {rt : BriefPlatform} {raw : List (String × Value)} {c : BriefContent}
    (h : g.content ctx rt raw = some c) : Wrote g ctx rt raw c := by
  unfold content at h
  obtain ⟨overview, -, h⟩ := bind_eq_some_iff.1 h
  obtain ⟨findings, hfindings, h⟩ := bind_eq_some_iff.1 h
  obtain ⟨sections, hsections, h⟩ := bind_eq_some_iff.1 h
  obtain ⟨alternatives, halternatives, h⟩ := bind_eq_some_iff.1 h
  cases h
  refine ⟨rfl, fun _ hmem => exists_of_mem_mapM hfindings hmem, fun published hmem => ?_, rfl,
    rfl, rfl⟩
  rcases mem_append.1 hmem with hmem | hmem
  · exact .inl (exists_of_mem_mapM hsections hmem)
  · exact .inr (alternativesSection_eq_some halternatives hmem)

variable {rt : BriefPlatform} {raw : List (String × Value)} {c : BriefContent}

lemma citesSource_of_mem (hg : Grounded ctx g.state) (hw : Wrote g ctx rt raw c) (hrefs : refs ∈ g.citingRefs) (hn : n ∈ g.citations ctx refs) :
    c.CitesSource n := by
  obtain ⟨hpos, i, hget, hcited⟩ := citations_spec hg hrefs hn
  have hevidence : ctx.evidence.isEmpty = false := by
    rw [eq_false_iff, ne_eq, List.isEmpty_iff]
    intro hnil
    rw [citations_of_no_evidence hg hnil refs] at hn
    cases hn
  refine ⟨hpos, .consulted (g.sourceRecord rt (ctx.evidence.getD i default)), ?_, ?_⟩
  · rw [hw.sources, sources, hevidence, if_neg Bool.false_ne_true, getElem?_map, hget]
    rfl
  · rw [cited_sourceRecord, hcited]

/-- The parts whose references number the sources, by kind. -/
lemma mem_citingRefs_finding (h : finding ∈ g.delivery.findings) :
    finding.refs ∈ g.citingRefs := by
  simp only [citingRefs, cons_append, mem_cons, mem_append, List.mem_map]
  exact .inr (.inl (.inl (.inl (.inl ⟨finding, h, rfl⟩))))

lemma mem_citingRefs_section (h : part ∈ g.sections) :
    part.refs ∈ g.citingRefs := by
  simp only [citingRefs, cons_append, mem_cons, mem_append, List.mem_map]
  exact .inr (.inl (.inl (.inl (.inr ⟨part, h, rfl⟩))))

lemma mem_citingRefs_alternatives : g.alternativeRefs ∈ g.citingRefs := by
  simp [citingRefs]

lemma mem_citingRefs_row {row : DeliveryRow} (h : row ∈ g.delivery.rows) :
    row.refs ∈ g.citingRefs := by
  simp only [citingRefs, cons_append, mem_cons, mem_append, List.mem_map]
  exact .inr (.inl (.inr ⟨row, h, rfl⟩))

lemma mem_citingRefs_constraint (h : condition ∈ g.constraints) :
    condition.refs ∈ g.citingRefs := by
  simp only [citingRefs, cons_append, mem_cons, mem_append, List.mem_map]
  exact .inr (.inr ⟨condition, h, rfl⟩)

/-- The content obeys every rule but two, and those when its verified conditions are cited and its
sources in order.

**Proof sketch.** Each part of the content cites through `Gathered.citations` what the numbering
was made from, and lists actions through `Gathered.actionRefs`. -/
lemma rules_iff (hg : Grounded ctx g.state) (hw : Wrote g ctx rt raw c) :
    ReferentialRules c ↔
      (∀ condition ∈ g.constraints, condition.status = .verified →
        g.citations ctx condition.refs ≠ []) ∧
      (ctx.evidence = [] → CitedFirst
        ((publishArray (field? "sources" raw)).map ContentSource.published)) := by
  have hconstraint {constraints : List BriefConstraint} (h : c.constraints = some constraints)
      {published : BriefConstraint} (hmem : published ∈ constraints) :
      ∃ condition ∈ g.constraints, published = g.briefConstraint ctx condition := by
    rw [hw.constraints] at h
    split_ifs at h
    cases h
    obtain ⟨condition, hcondition, rfl⟩ := List.mem_map.1 hmem
    exact ⟨condition, hcondition, rfl⟩
  have htable {table : BriefComparison} (h : c.facets = some table) :
      g.comparison ctx = some table := hw.facets ▸ h
  have hlists {refs ids : List String} (h : g.actionRefs refs = some ids) {id : String}
      (hid : id ∈ ids) : c.ListsAction id := by
    unfold BriefContent.ListsAction
    rw [hw.actions]
    exact mem_listedActions hg h hid
  constructor
  · intro hrules
    refine ⟨fun condition hmem hstatus => ?_, fun hnil => ?_⟩
    · have hne : g.constraints.isEmpty = false := by
        rw [isEmpty_eq_false_iff]
        exact ne_nil_of_mem hmem
      exact hrules.verifiedCited _ (by rw [hw.constraints, hne]; rfl)
        (g.briefConstraint ctx condition) (List.mem_map_of_mem hmem) hstatus
    · have := hrules.citedFirst
      rwa [hw.sources, sources, hnil] at this
  · rintro ⟨hverified, hraw⟩
    exact {
      findingCitations := fun published hmem n hn => by
        obtain ⟨finding, hfinding, heq⟩ := hw.findings published hmem
        rw [(keyFinding_eq_some heq).1] at hn
        exact citesSource_of_mem hg hw (mem_citingRefs_finding hfinding) hn
      sectionCitations := fun published hmem n hn => by
        rcases hw.sections published hmem with ⟨part, hpart, heq⟩ | ⟨heq, -⟩
        · rw [(briefSection_eq_some heq).1] at hn
          exact citesSource_of_mem hg hw (mem_citingRefs_section hpart) hn
        · rw [heq] at hn
          exact citesSource_of_mem hg hw mem_citingRefs_alternatives hn
      rowCitations := fun table h numbers hmem n hn => by
        rw [(comparison_eq_some (htable h)).2.1] at hmem
        obtain ⟨row, hrow, rfl⟩ := List.mem_map.1 hmem
        exact citesSource_of_mem hg hw (mem_citingRefs_row hrow) hn
      constraintCitations := fun constraints h published hmem n hn => by
        obtain ⟨condition, hcondition, rfl⟩ := hconstraint h hmem
        exact citesSource_of_mem hg hw (mem_citingRefs_constraint hcondition) hn
      citedFirst := by
        rw [hw.sources, sources]
        by_cases hnil : ctx.evidence = []
        · rw [hnil]
          exact hraw hnil
        · rw [isEmpty_eq_false_iff.2 hnil]
          exact citedFirst_order hg rt
      nonEditorial := fun published hmem heditorial => by
        obtain ⟨finding, -, heq⟩ := hw.findings published hmem
        obtain ⟨hcitations, hactions, hflag⟩ := keyFinding_eq_some heq
        rw [heditorial, eq_comm, and_eq_false_iff] at hflag
        rcases hflag with hflag | hflag
        · exact .inl (by rw [hcitations]; exact isEmpty_eq_false_iff.1 hflag)
        · obtain ⟨ids, hids⟩ := isSome_iff_exists.1 (isNone_eq_false_iff.1 hflag)
          exact .inr ⟨ids, hactions.trans hids, actionRefs_ne_nil hids⟩
      verifiedCited := fun constraints h published hmem hstatus => by
        obtain ⟨condition, hcondition, rfl⟩ := hconstraint h hmem
        exact hverified condition hcondition hstatus
      rowCounts := fun table h => by
        obtain ⟨hrows, hcitations, hactions⟩ := comparison_eq_some (htable h)
        refine ⟨by rw [hrows, hcitations, length_map, length_map], fun rows h => ?_⟩
        rw [hactions rows h, hrows, length_map, length_map]
      findingActions := fun published hmem ids hids id hid => by
        obtain ⟨finding, -, heq⟩ := hw.findings published hmem
        exact hlists ((keyFinding_eq_some heq).2.1 ▸ hids) hid
      sectionActions := fun published hmem ids hids id hid => by
        rcases hw.sections published hmem with ⟨part, -, heq⟩ | ⟨-, heq⟩
        · exact hlists ((briefSection_eq_some heq).2 ▸ hids) hid
        · rw [heq] at hids
          cases hids
      rowActions := fun table h rows hrows ids hids id hid => by
        rw [(comparison_eq_some (htable h)).2.2 rows hrows] at hids
        obtain ⟨row, -, rfl⟩ := List.mem_map.1 hids
        cases hactions : g.actionRefs row.refs with
        | none =>
          rw [hactions] at hid
          cases hid
        | some ids =>
          rw [hactions] at hid
          exact hlists hactions hid }

end Gathered

/-! ## Conditions that stand -/

/-- A reported condition that is published as verified: it is marked so with a reference that
resolves, and it either is the first reported under a filter's name and has the filter's value, or
has a name no filter has. -/
def StandsVerified (pf : Platform) (ctx : ComposeContext) (reported : List DeliveryConstraint)
    (condition : DeliveryConstraint) : Prop :=
  let filters := (ctx.contract.map TaskContractBody.filters).getD []
  condition ∈ reported ∧ condition.status = .verified ∧ condition.refs ≠ [] ∧
    ((∃ filter ∈ filters, reportedCondition pf reported filter.name = some condition ∧
        sameName pf condition.value filter.value) ∨
      ∀ filter ∈ filters, ¬ sameName pf filter.name condition.name)

lemma eq_of_normalize_verified (h : (normalizeCondition condition).status = .verified) :
    normalizeCondition condition = condition ∧ condition.refs ≠ [] := by
  unfold normalizeCondition at h ⊢
  split_ifs at h ⊢ with hbare
  exact ⟨rfl, fun hnil => hbare ⟨h, hnil⟩⟩

lemma normalize_of_refs (h : condition.refs ≠ []) :
    normalizeCondition condition = condition := if_neg fun hbare => h hbare.2

lemma reconcileFilter_refs (pf : Platform) (input : List DeliveryConstraint)
    (supported : DeliveryConstraint → Bool) {filter : ContractFilter}
    (hreported : reportedCondition pf input filter.name = some condition)
    (hvalue : sameName pf condition.value filter.value) :
    (reconcileFilter pf input supported filter).refs = condition.refs := by
  simp only [reconcileFilter, hreported, hvalue, if_true]

lemma forall_verified_iff (pf : Platform) (ctx : ComposeContext)
    (reported : List DeliveryConstraint) (P : List String → Prop) :
    (∀ condition ∈ reconciledConstraints pf reported
        ((ctx.contract.map TaskContractBody.filters).getD []) ctx.supported,
        condition.status = .verified → P condition.refs) ↔
      ∀ condition, StandsVerified pf ctx reported condition → P condition.refs := by
  unfold StandsVerified
  generalize (ctx.contract.map TaskContractBody.filters).getD [] = filters
  have hname (condition : DeliveryConstraint) :
      (!(filters.map fun f => normalizeDeliveryName pf f.name).contains
        (normalizeDeliveryName pf condition.name)) ↔
      ∀ filter ∈ filters, ¬ sameName pf filter.name condition.name := by
    simp [sameName]
  constructor
  · rintro h condition ⟨hmem, hstatus, hrefs, ⟨filter, hfilter, hreported, hvalue⟩ | hother⟩
    · have hverified := (reconcileFilter_verified pf reported ctx.supported filter).2
        ⟨condition, hreported, hstatus, hvalue⟩
      rw [← reconcileFilter_refs pf reported ctx.supported hreported hvalue]
      exact h _ (mem_append_left _ (List.mem_map_of_mem hfilter)) hverified
    · refine h condition (mem_append_right _ (mem_filter.2 ⟨?_, ?_⟩)) hstatus
      · exact List.mem_map.2 ⟨condition, hmem, normalize_of_refs hrefs⟩
      · exact (hname condition).2 hother
  · intro h condition hmem hstatus
    rcases mem_append.1 hmem with hmem | hmem
    · obtain ⟨filter, hfilter, rfl⟩ := List.mem_map.1 hmem
      obtain ⟨condition, hreported, hcondition, hvalue⟩ :=
        (reconcileFilter_verified pf reported ctx.supported filter).1 hstatus
      obtain ⟨original, horiginal, rfl⟩ := List.mem_map.1 (mem_of_find?_eq_some hreported)
      obtain ⟨heq, hrefs⟩ := eq_of_normalize_verified hcondition
      rw [reconcileFilter_refs pf reported ctx.supported hreported hvalue]
      rw [heq] at hreported hcondition hvalue ⊢
      exact h original ⟨horiginal, hcondition, hrefs, .inl ⟨filter, hfilter, hreported, hvalue⟩⟩
    · obtain ⟨hmem, hother⟩ := mem_filter.1 hmem
      obtain ⟨original, horiginal, rfl⟩ := List.mem_map.1 hmem
      obtain ⟨heq, hrefs⟩ := eq_of_normalize_verified hstatus
      rw [heq] at hstatus hother ⊢
      exact h original ⟨horiginal, hstatus, hrefs, .inr ((hname original).1 hother)⟩

lemma citations_ne_nil_iff {ctx : ComposeContext} {g : Gathered} (hg : Grounded ctx g.state) (hrefs : ∀ ref ∈ refs, Recorded ctx g.state ref) :
    g.citations ctx refs ≠ [] ↔ ∃ ref ∈ refs, ctx.resolvesPage ref := by
  rw [ne_eq, Gathered.citations_eq_nil_iff]
  push Not
  refine exists_congr fun ref => and_congr_right fun href => ?_
  rw [ne_eq, ← isNone_iff_eq_none, not_eq_true, isNone_eq_false_iff,
    isSome_iff_exists]
  unfold resolvesPage
  constructor
  · rintro ⟨r, hr⟩
    rw [hg.pages ref r hr]
  · intro hpage
    rcases hrefs ref href with ⟨r, -, hr⟩ | ⟨entry, hentry, -⟩
    · exact ⟨r, hr⟩
    · rw [hentry] at hpage
      cases hpage

/-! ## When a Brief obeys the rules -/

lemma evidence_eq_nil_iff (ctx : ComposeContext) : ctx.evidence = [] ↔ ctx.ledger = [] := by
  unfold evidence
  cases hledger : ctx.ledger with
  | nil => exact iff_of_true rfl rfl
  | cons entry entries =>
    refine iff_of_false (fun hnil => ?_) (cons_ne_nil _ _)
    rw [distinctSources] at hnil
    split at hnil
    · cases hnil
    · rw [if_neg (by simp)] at hnil
      cases hnil

/-- A composed Brief obeys the rules exactly when every reported condition that stands as verified
has a reference to a page and, in a run without evidence, the sources given name no cited one after
one that is only consulted.

**Proof sketch.** `Gathered.rules_iff` reduces the rules to the citations of the verified
constraints and the published sources; `forall_verified_iff` traces those constraints back to the
reported conditions, whose references are all recorded. -/
theorem referentialRules_iff (rt : BriefPlatform) (ctx : ComposeContext) (input : Value)
    (brief : ComposedBrief) (h : composeAgentBrief rt ctx input = some (.ok brief)) :
    ReferentialRules brief.content ↔
      (∀ condition, StandsVerified rt.toPlatform ctx
          (reportedConditions ctx (asPublishRecord (some input))) condition →
        ∃ ref ∈ condition.refs, ctx.resolvesPage ref) ∧
      (ctx.ledger = [] → CitedFirst
        ((publishArray (Value.field? "sources" (asPublishRecord (some input)))).map
          ContentSource.published)) := by
  unfold composeAgentBrief at h
  simp only at h
  split_ifs at h
  · cases h
  obtain ⟨content, hcontent, heq⟩ := Option.map_eq_some_iff.1 h
  cases heq
  obtain ⟨hg, hconstraints, hrecorded⟩ :=
    grounded_gather rt.toPlatform ctx (asPublishRecord (some input))
  rw [Gathered.rules_iff hg (Gathered.wrote_of_content hcontent), hconstraints,
    forall_verified_iff rt.toPlatform ctx _ (fun refs => Gathered.citations _ ctx refs ≠ []),
    evidence_eq_nil_iff]
  refine and_congr_left' (forall_congr' fun condition => forall_congr' fun hstands => ?_)
  exact citations_ne_nil_iff hg (hrecorded condition hstands.1)

/-! ## A run that cites a page and an action -/

/-- A runtime without URLs. -/
def plainPlatform : BriefPlatform where
  toLowerCase := JsText.asciiLower
  hostname := fun _ => none
  isoDate := some

def pageAndClick : ComposeContext where
  actions := some [.clickExecuted ⟨1, none, "shop.example"⟩ none]
  ledger := [⟨"https://shop.example/", none, some "Shop", none, "2026-01-01", none, some "S1"⟩]
  resolveAnchor := fun _ => false
  contract := none
  mode := .tool
  supported := fun _ => true

/-- A publication whose one condition is verified by a reference. -/
def verifiedBy (ref : String) : Value :=
  .obj [("title", .str "Shoes"), ("overview", .str "Found."),
    ("constraints", .arr [.obj [("name", .str "color"), ("value", .str "red"),
      ("status", .str "verified"), ("sources", .arr [.str ref])]])]

theorem referentialRules_of_page : ∃ brief,
    composeAgentBrief plainPlatform pageAndClick (verifiedBy "S1") = some (.ok brief) ∧
      ReferentialRules brief.content := by
  have hok : (composeAgentBrief plainPlatform pageAndClick (verifiedBy "S1")).map
      Except.toBool = some true := by decide +kernel
  obtain ⟨result, hresult, hbool⟩ := Option.map_eq_some_iff.1 hok
  cases result with
  | error issues => cases hbool
  | ok brief =>
    refine ⟨brief, hresult, (referentialRules_iff _ _ _ _ hresult).2 ⟨?_, fun h => nomatch h⟩⟩
    have hreported : reportedConditions pageAndClick
        (asPublishRecord (some (verifiedBy "S1"))) =
        [⟨"color", "red", .verified, ["S1"], none⟩] := by decide +kernel
    rintro condition ⟨hmem, -⟩
    rw [hreported, List.mem_singleton] at hmem
    subst hmem
    exact ⟨"S1", List.mem_singleton_self _, by decide +kernel⟩

/-- A condition verified by an action alone is published as verified without a citation. -/
theorem verified_by_action_is_uncited : ∃ brief,
    composeAgentBrief plainPlatform pageAndClick (verifiedBy "A1") = some (.ok brief) ∧
      brief.content.constraints = some [⟨"color", "red", .verified, []⟩] ∧
      ¬ ReferentialRules brief.content := by
  have hok : (composeAgentBrief plainPlatform pageAndClick (verifiedBy "A1")).map
      (fun result => result.toOption.bind fun brief => brief.content.constraints) =
      some (some [⟨"color", "red", .verified, []⟩]) := by decide +kernel
  obtain ⟨result, hresult, hconstraints⟩ := Option.map_eq_some_iff.1 hok
  cases result with
  | error issues => cases hconstraints
  | ok brief =>
    have hconstraints : brief.content.constraints = some [⟨"color", "red", .verified, []⟩] :=
      hconstraints
    refine ⟨brief, hresult, hconstraints, fun hrules => ?_⟩
    exact hrules.verifiedCited _ hconstraints _ (List.mem_singleton_self _) rfl rfl

end Yantra
