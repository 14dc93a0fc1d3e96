import Yantra.Agent.BriefRules

/-!
# Markers in running text

A text of a Brief is cleaned of the markers that name no source, and the markers that are left are
rewritten to numbers. Deleting a marker brings together what stood around it, rewriting one does
not.

## Main definitions

* `MarkerFree` — no marker of a page or a record stands in the text.

## Main results

* `markerFree_iff` — the marker-free texts are those no part of which is a marker.
* `markerFree_append_cons_iff` — a character of no marker splits a text.
* `markerFree_rewrite` — rewriting all markers to numbers leaves none.
-/

namespace Yantra

open List Option Gathered Regex

/-- No inline marker `[S<n>]` or `[S<n>#r<k>]` stands in the text. -/
def MarkerFree (text : List Char) : Prop := Regex.matchAll INLINE_EVIDENCE_REF text = []

instance (text : List Char) : Decidable (MarkerFree text) :=
  decidable_of_iff ((Regex.matchAll INLINE_EVIDENCE_REF text).length = 0) List.length_eq_zero_iff

/-! ## The words of a marker -/

/-- A character inside a marker, after its `S`. -/
def isMarkerInner (c : Char) : Bool := isAsciiDigit c || c == '#' || c == 'r'

def isSeparator (c : Char) : Bool := !(c == '[' || c == 'S' || isMarkerInner c || c == ']')

variable {w : List Char}

lemma isAsciiDigit_of_denotes (h : Regex.Denotes positiveNumber w) :
    ∀ c ∈ w, isAsciiDigit c := by
  obtain ⟨c, cs, rfl, hc, hcs⟩ := denotes_positiveNumber.1 h
  refine forall_mem_cons.2 ⟨?_, hcs⟩
  simp only [isAsciiDigit, Bool.and_eq_true, decide_eq_true_eq] at hc ⊢
  exact ⟨Char.le_trans (show '0' ≤ '1' by decide) hc.1, hc.2⟩

/-- A marker: brackets around an `S` and inner characters. -/
lemma exists_of_denotes (h : Regex.Denotes INLINE_EVIDENCE_REF w) :
    ∃ v, w = '[' :: 'S' :: (v ++ [']']) ∧ ∀ c ∈ v, isMarkerInner c := by
  obtain ⟨open_, rest, ⟨a, ha, rfl⟩, ⟨source, close, hsource, ⟨b, hb, rfl⟩, rfl⟩, rfl⟩ := h
  obtain ⟨page, anchor, ⟨s, number, ⟨c, hc, rfl⟩, hnumber, rfl⟩, hanchor, rfl⟩ := hsource
  obtain rfl := beq_iff_eq.1 ha
  obtain rfl := beq_iff_eq.1 hb
  obtain rfl := beq_iff_eq.1 hc
  have hdigits : ∀ d ∈ number, isMarkerInner d := by
    intro d hd
    simp [isMarkerInner, isAsciiDigit_of_denotes hnumber d hd]
  refine ⟨number ++ anchor, by simp, fun d hd => ?_⟩
  rcases mem_append.1 hd with hd | hd
  · exact hdigits d hd
  · obtain ⟨ws, hws, -, -, rfl⟩ := hanchor
    obtain ⟨x, hx, hdx⟩ := mem_flatten.1 hd
    obtain ⟨mark, k, hmark, hk, rfl⟩ := hws x hx
    rw [denotes_lit] at hmark
    subst hmark
    have hinner : ∀ d ∈ "#r".toList, isMarkerInner d = true := by simp [isMarkerInner]
    rcases mem_append.1 hdx with hdx | hdx
    · exact hinner d hdx
    · simp [isMarkerInner, isAsciiDigit_of_denotes hk d hdx]

lemma plain_inlineEvidenceRef : Regex.Plain INLINE_EVIDENCE_REF := by
  have hnumber : Regex.Plain positiveNumber := ⟨trivial, fun n hn => (by cases hn), trivial⟩
  refine ⟨trivial, ⟨⟨trivial, hnumber⟩, fun n hn => ?_, plain_lit _, hnumber⟩, trivial⟩
  obtain rfl := some.inj hn
  exact Nat.zero_le 1

lemma not_denotes_nil : ¬ Regex.Denotes INLINE_EVIDENCE_REF [] := by
  intro h
  obtain ⟨v, hv, -⟩ := exists_of_denotes h
  cases hv

/-- The texts without markers are those of which no part is one. -/
theorem markerFree_iff {text : List Char} :
    MarkerFree text ↔ Regex.Avoids INLINE_EVIDENCE_REF text :=
  matchAll_eq_nil_iff plain_inlineEvidenceRef

lemma brackets_of_denotes {a b : List Char} (ha : a ≠ []) (hb : b ≠ [])
    (h : Regex.Denotes INLINE_EVIDENCE_REF (a ++ b)) : '[' ∉ b ∧ ']' ∉ a := by
  obtain ⟨v, hv, hinner⟩ := exists_of_denotes h
  have hopen : '[' ∉ v := fun hm => absurd (hinner _ hm) (by decide)
  have hclose : ']' ∉ v := fun hm => absurd (hinner _ hm) (by decide)
  constructor
  · obtain ⟨c, a, rfl⟩ := exists_cons_of_ne_nil ha
    obtain ⟨-, htail⟩ := List.cons.inj hv
    intro hm
    have hmem : '[' ∈ 'S' :: (v ++ [']']) := by
      rw [← htail]
      exact mem_append_right a hm
    simp [hopen] at hmem
  · obtain rfl | ⟨b, c, rfl⟩ := b.eq_nil_or_concat
    · exact absurd rfl hb
    rw [concat_eq_append, ← append_assoc, ← cons_append, ← cons_append] at hv
    obtain ⟨hfront, -⟩ := append_inj' hv rfl
    intro hm
    have hmem : ']' ∈ '[' :: 'S' :: v := by
      rw [← hfront]
      exact mem_append_left b hm
    simp [hclose] at hmem

/-! ## Putting texts together -/

lemma markerFree_of_open {text : List Char} (h : '[' ∉ text) : MarkerFree text := by
  refine markerFree_iff.2 fun u w v htext hw => h ?_
  obtain ⟨x, rfl, -⟩ := exists_of_denotes hw
  rw [htext]
  simp

variable {x y : List Char}

theorem markerFree_append_cons_iff {c : Char} (hc : isSeparator c) :
    MarkerFree (x ++ c :: y) ↔ MarkerFree x ∧ MarkerFree y := by
  rw [markerFree_iff, markerFree_iff, markerFree_iff]
  refine avoids_append_cons_iff (fun w hw hm => ?_) not_denotes_nil
  obtain ⟨v, rfl, hinner⟩ := exists_of_denotes hw
  have hv : c ∈ v → isMarkerInner c := hinner c
  simp only [isSeparator, Bool.not_eq_true', Bool.or_eq_false_iff, beq_eq_false_iff_ne, ne_eq]
    at hc
  simp only [mem_cons, mem_append, not_mem_nil, or_false] at hm
  rcases hm with hm | hm | hm | hm
  · exact hc.1.1.1 hm
  · exact hc.1.1.2 hm
  · rw [hv hm] at hc
    exact absurd hc.1.2 (by simp)
  · exact hc.2 hm

lemma markerFree_append_iff {x y sep : List Char} (hsep : sep.all isSeparator) (hne : sep ≠ []) :
    MarkerFree (x ++ sep ++ y) ↔ MarkerFree x ∧ MarkerFree y := by
  have hfront : ∀ cs : List Char, cs.all isSeparator →
      (MarkerFree (cs ++ y) ↔ MarkerFree y) := by
    intro cs
    induction cs with
    | nil => exact fun _ => Iff.rfl
    | cons c cs ih =>
      intro hcs
      rw [all_cons, Bool.and_eq_true] at hcs
      have hone := markerFree_append_cons_iff hcs.1 (x := []) (y := cs ++ y)
      rw [← ih hcs.2]
      exact hone.trans (and_iff_right (markerFree_of_open (by simp)))
  obtain ⟨c, cs, rfl⟩ := exists_cons_of_ne_nil hne
  rw [all_cons, Bool.and_eq_true] at hsep
  rw [append_assoc, cons_append, markerFree_append_cons_iff hsep.1, hfront cs hsep.2]

lemma markerFree_intercalate_iff {sep : String} (hsep : sep.toList.all isSeparator)
    (hne : sep.toList ≠ []) (texts : List String) :
    MarkerFree (sep.intercalate texts).toList ↔ ∀ text ∈ texts, MarkerFree text.toList := by
  have hempty : MarkerFree [] := markerFree_of_open (by simp)
  induction texts with
  | nil => simpa using hempty
  | cons text texts ih =>
    cases texts with
    | nil => simp
    | cons next texts =>
      rw [String.intercalate_cons_cons, String.toList_append, String.toList_append,
        markerFree_append_iff hsep hne, forall_mem_cons]
      exact and_congr_right fun _ => ih

lemma markerFree_marker (hx : MarkerFree x) (hy : MarkerFree y) (n : ℕ) :
    MarkerFree (x ++ marker n ++ y) := by
  rw [markerFree_iff] at hx hy ⊢
  have hdigits : ∀ c ∈ (toString n).toList, isAsciiDigit c :=
    fun c hc => isAsciiDigit_of_mem_toString hc
  have hopen : '[' ∉ (toString n).toList := fun hm => absurd (hdigits _ hm) (by decide)
  have hmarker : Regex.Avoids INLINE_EVIDENCE_REF (marker n) := by
    intro u w v htext hw
    obtain ⟨z, rfl, -⟩ := exists_of_denotes hw
    rw [marker] at htext
    cases u with
    | nil =>
      obtain ⟨-, htail⟩ := List.cons.inj htext
      obtain ⟨d, ds, hd⟩ := exists_cons_of_ne_nil (JsText.toString_toList_ne_nil n)
      rw [hd] at htail
      obtain ⟨rfl, -⟩ := List.cons.inj htail
      exact absurd (hdigits 'S' (by rw [hd]; exact mem_cons_self)) (by decide)
    | cons c u =>
      have htail : (toString n).toList ++ [']'] = u ++ '[' :: 'S' :: (z ++ [']']) ++ v :=
        (List.cons.inj htext).2
      have hmem : '[' ∈ (toString n).toList ++ [']'] := by
        rw [htail]
        simp
      rcases mem_append.1 hmem with hmem | hmem
      · exact hopen hmem
      · exact absurd (mem_singleton.1 hmem) (by decide)
  have hleft : Regex.Avoids INLINE_EVIDENCE_REF (x ++ marker n) := by
    refine hx.append hmarker fun a b ha hb hw _ hprefix => ?_
    obtain ⟨c, b, rfl⟩ := exists_cons_of_ne_nil hb
    obtain ⟨rfl, -⟩ := cons_prefix_cons.1 hprefix
    exact (brackets_of_denotes ha (by simp) hw).1 mem_cons_self
  refine hleft.append hy fun a b ha hb hw hsuffix _ => ?_
  obtain rfl | ⟨a, c, rfl⟩ := a.eq_nil_or_concat
  · exact ha rfl
  have hlast : c = ']' := by
    obtain ⟨z, hz⟩ := hsuffix
    rw [concat_eq_append, marker, ← append_assoc, ← append_assoc] at hz
    exact singleton_inj.1 (append_inj' hz rfl).2
  refine (brackets_of_denotes (by simp) hb hw).2 ?_
  rw [hlast]
  simp

lemma markerFree_markers {x : List Char} (hx : MarkerFree x) (ns : List ℕ) :
    MarkerFree (x ++ ns.flatMap marker) := by
  induction ns generalizing x with
  | nil => simpa using hx
  | cons n ns ih =>
    have hone : MarkerFree (x ++ marker n ++ []) :=
      markerFree_marker hx (markerFree_of_open (by simp)) n
    rw [append_nil] at hone
    rw [flatMap_cons, ← append_assoc]
    exact ih hone

/-! ## Rewriting -/

def markerRef (m : Regex.Match Char) : String := String.ofList ((m.group 1).getD [])

/-- The references of the markers of one kind. -/
def markerRefs (pattern : Regex Char) (text : List Char) : List String :=
  (Regex.matchAll pattern text).map markerRef

lemma keepsApart_inlineEvidenceRef (text : List Char) :
    Regex.KeepsApart INLINE_EVIDENCE_REF text := by
  have hword : ∀ i m, matchAt INLINE_EVIDENCE_REF text i = some m →
      m.index = i ∧ (∃ q, Regex.Moves (posAt text i) m.text q) ∧
        Regex.Denotes INLINE_EVIDENCE_REF m.text := by
    intro i m hm
    obtain ⟨q, hq, hindex, -, hmove⟩ := matchAt_eq_some hm
    obtain ⟨w, hw, hmw⟩ := denotes_of_mem_run plain_inlineEvidenceRef _ q hq
    exact ⟨hindex, ⟨q, hmove⟩, hmove.unique hmw ▸ hw⟩
  intro i m hm
  obtain ⟨rfl, ⟨q, hmove⟩, hw⟩ := hword i m hm
  refine ⟨fun hnil => not_denotes_nil (hnil ▸ hw), fun k hik hk => ?_⟩
  refine eq_none_iff_forall_ne_some.2 fun m' hm' => ?_
  obtain ⟨rfl, ⟨q', hmove'⟩, hw'⟩ := hword k m' hm'
  obtain ⟨z', hz', -⟩ := exists_of_denotes hw'
  rw [Regex.Match.stop] at hk
  -- the second marker's bracket stands inside the first
  have hopen : text[m'.index]? = some '[' := by
    have := getElem?_of_moves hmove' (d := 0) (by rw [hz']; simp)
    rw [hz'] at this
    exact this
  have hinside := getElem?_of_moves hmove (d := m'.index - m.index) (by omega)
  rw [show m.index + (m'.index - m.index) = m'.index by omega, hopen] at hinside
  refine (brackets_of_denotes (a := m.text.take (m'.index - m.index))
    (b := m.text.drop (m'.index - m.index)) ?_ ?_ ?_).1 ?_
  · exact ne_nil_of_length_pos (by rw [length_take]; omega)
  · exact ne_nil_of_length_pos (by rw [length_drop]; omega)
  · rw [take_append_drop]
    exact hw
  · refine mem_of_getElem? (i := 0) ?_
    rw [getElem?_drop, Nat.add_zero]
    exact hinside.symm

variable {ctx : ComposeContext} {g : Gathered}

/-- **Rewriting all markers to numbers leaves none.** -/
theorem markerFree_rewrite {text written : String} (h : g.rewrite ctx text = some written) :
    MarkerFree written.toList := by
  unfold rewrite at h
  dsimp only at h
  split at h
  case isFalse => cases h
  case isTrue =>
    obtain rfl := some.inj h
    rw [String.toList_ofList, markerFree_iff]
    refine avoids_replace not_denotes_nil (keepsApart_inlineEvidenceRef text.toList)
      fun m x y hx hy => ?_
    rw [← markerFree_iff] at hx hy ⊢
    exact markerFree_marker hx hy _

lemma rewrite_isSome_iff (g : Gathered) (ctx : ComposeContext) (text : String) :
    (g.rewrite ctx text).isSome ↔
      ∀ ref ∈ markerRefs INLINE_EVIDENCE_REF text.toList, g.state.resolved.has ref := by
  unfold rewrite markerRefs
  dsimp only
  rw [List.forall_mem_map, ← List.all_eq_true]
  split
  · simp_all [markerRef]
  · simp_all [markerRef]

/-! ## The body of the alternatives -/

lemma markerFree_line_iff (cells : List String) :
    MarkerFree ("| " ++ " | ".intercalate cells ++ " |").toList ↔
      ∀ cell ∈ cells, MarkerFree cell.toList := by
  have hempty : MarkerFree [] := markerFree_of_open (by simp)
  have hopen := @markerFree_append_iff [] ((" | ".intercalate cells).toList ++ " |".toList)
    "| ".toList (by decide) (by decide)
  have hclose := @markerFree_append_iff (" | ".intercalate cells).toList [] " |".toList
    (by decide) (by decide)
  rw [append_nil] at hclose
  rw [nil_append] at hopen
  rw [String.toList_append, String.toList_append, append_assoc, hopen, hclose,
    markerFree_intercalate_iff (by decide) (by decide)]
  simp [hempty]

lemma markerFree_citations (g : Gathered) (ctx : ComposeContext) (refs : List String) :
    MarkerFree (String.ofList ((g.citations ctx refs).flatMap marker)).toList := by
  rw [String.toList_ofList]
  exact markerFree_markers (x := []) (markerFree_of_open (by simp)) _

lemma markerFree_alternativesBody {body : String} (h : g.alternativesBody ctx = some body) :
    MarkerFree body.toList ↔ (g.delivery.alternativesRows ≠ [] →
      (∀ name ∈ g.columns, MarkerFree (alternativesCell (.str name)).toList) ∧
      ∀ row ∈ g.delivery.alternativesRows, ∀ cell ∈ row.cells,
        MarkerFree (alternativesCell cell).toList) := by
  have hempty : MarkerFree [] := markerFree_of_open (by simp)
  unfold alternativesBody at h
  obtain ⟨bullets, hbullets, h⟩ := bind_eq_some_iff.1 h
  cases h
  have hbullet : ∀ bullet ∈ bullets, MarkerFree bullet.toList := by
    intro bullet hmem
    obtain ⟨finding, -, hwritten⟩ := exists_of_mem_mapM hbullets hmem
    obtain ⟨text, htext, hwritten⟩ := bind_eq_some_iff.1 hwritten
    cases hwritten
    have hdash := @markerFree_append_iff [] text.toList "- ".toList (by decide) (by decide)
    rw [String.toList_append, String.toList_append, String.toList_append,
      markerFree_append_iff (by decide) (by decide)]
    refine ⟨hdash.2 ⟨hempty, markerFree_rewrite htext⟩, markerFree_citations g ctx _⟩
  have hlist : ∀ text ∈ (if bullets.isEmpty then [] else ["\n".intercalate bullets]),
      MarkerFree text.toList := by
    intro text htext
    split at htext
    · cases htext
    · rw [mem_singleton.1 htext, markerFree_intercalate_iff (by decide) (by decide)]
      exact hbullet
  rw [markerFree_intercalate_iff (by decide) (by decide), forall_mem_append,
    and_iff_left hlist]
  cases hrows : g.delivery.alternativesRows with
  | nil => simp
  | cons row rows =>
    simp only [isEmpty_cons, Bool.false_eq_true, if_false, forall_mem_singleton]
    rw [markerFree_intercalate_iff (by decide) (by decide)]
    have hheader : (∀ cell ∈ (g.columns ++ ["Sources"]).map fun name =>
          alternativesCell (.str name), MarkerFree cell.toList) ↔
        ∀ name ∈ g.columns, MarkerFree (alternativesCell (.str name)).toList := by
      have hsources : MarkerFree (alternativesCell (.str "Sources")).toList :=
        markerFree_of_open (by decide +kernel)
      rw [List.forall_mem_map, forall_mem_append, forall_mem_singleton,
        and_iff_left hsources]
    have hrule : ∀ cell ∈ (g.columns ++ ["Sources"]).map fun _ => "---",
        MarkerFree cell.toList := by
      intro cell hcell
      obtain ⟨_, -, rfl⟩ := List.mem_map.1 hcell
      exact markerFree_of_open (by decide)
    have hline : ∀ row : DeliveryRow, (∀ cell ∈ row.cells.map alternativesCell ++
          [String.ofList ((g.citations ctx row.refs).flatMap marker)],
          MarkerFree cell.toList) ↔
        ∀ cell ∈ row.cells, MarkerFree (alternativesCell cell).toList := by
      intro row
      rw [forall_mem_append, forall_mem_singleton,
        and_iff_left (markerFree_citations g ctx row.refs), List.forall_mem_map]
    rw [forall_mem_cons, forall_mem_cons, List.forall_mem_map, markerFree_line_iff,
      markerFree_line_iff, hheader, and_iff_right hrule]
    simp only [markerFree_line_iff, hline]
    exact ⟨fun h _ => h, fun h => h (by simp)⟩

end Yantra
