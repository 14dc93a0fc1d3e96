import Yantra.Widgets.VirtualList

/-!
# Clicking a candidate

`clickCandidate` looks a candidate up among the controls that are observed on the page, by its name
and, where that helps, its group. Where one control is left it is clicked as it is; only of several
does the code ask which is at the place the candidate was read from.

## Main definitions

* `clickCandidate` — the click.
* `ClickLaw`, `SurvivorInPlace` — what it promises, and when it keeps it.

## Main results

* `clickLaw_iff` — the candidate is what gets clicked exactly then.
-/

namespace Yantra

open List Option

/-! ## The page -/

/-- An element of a document, as far as a path goes through it. -/
inductive DomElement where
  | node (children : List DomElement)

def DomElement.children : DomElement → List DomElement
  | .node children => children

/-- The element a path leads to from the document's element, as the indices on the way. -/
def fromPath : DomElement → List ℤ → Option (List ℕ)
  | _, [] => some []
  | element, index :: path =>
    if index < 0 then none
    else
      match element.children[index.toNat]? with
      | none => none
      | some child => (fromPath child path).map (index.toNat :: ·)

/-- An entry of `interactables`. -/
structure ObservedControl where
  ref : String
  name : PageText
  group : Option PageText

/-- A page that does not change, with the elements that refs stand for; a ref may be stale. -/
structure LivePage where
  root : DomElement
  elementOf : String → Option (List ℕ)

/-- The refs that are clicked, and whether the call throws. -/
structure ClickRun where
  clicks : List String := []
  threw : Bool := false
  deriving DecidableEq

/-! ## The click -/

section

variable (pf : TextPlatform) (page : LivePage)

/-- The refs of the controls whose element is the one at the path, unless a ref is stale. -/
def refsAt (path : List ℤ) : List ObservedControl → Option (List String)
  | [] => some []
  | entry :: entries =>
    match page.elementOf entry.ref with
    | none => none
    | some element =>
      (refsAt path entries).map fun refs =>
        if fromPath page.root path = some element then entry.ref :: refs else refs

def clickRef (ref : String) : ClickRun where
  clicks := if (page.elementOf ref).isSome then [ref] else []
  threw := (page.elementOf ref).isNone

/-- `withTag`, as `clickCandidate` calls it: the element at the path is tagged, and what an
observation finds to own the tag is clicked. -/
def clickTagged (path : List ℤ) (observed : List ObservedControl) : ClickRun :=
  if (fromPath page.root path).isNone then { threw := true }
  else
    match refsAt page path observed with
    | some [ref] => clickRef page ref
    | _ => { threw := true }

variable (candidate : WidgetCandidate) (observed : List ObservedControl)

def namedControls : List ObservedControl :=
  observed.filter fun entry => normalizeText pf entry.name = normalizeText pf candidate.name

def groupedControls : List ObservedControl :=
  match candidate.group with
  | none => []
  | some group =>
    (namedControls pf candidate observed).filter fun entry =>
      normalizeText pf (entry.group.getD []) = normalizeText pf group

/-- The controls with the name, and with the group if one has it. -/
def controlPool : List ObservedControl :=
  if (groupedControls pf candidate observed).isEmpty then namedControls pf candidate observed
  else groupedControls pf candidate observed

/-- `clickCandidate`, with what the page is observed to be at first and once it is tagged. -/
def clickCandidate (observedTagged : List ObservedControl) : ClickRun :=
  let matching :=
    match controlPool pf candidate observed with
    | [entry] => some [entry.ref]
    | pool => refsAt page candidate.path pool
  match matching with
  | none => { threw := true }
  | some [ref] => clickRef page ref
  | some _ => clickTagged page candidate.path observedTagged

/-! ## What a click promises -/

/-- The element at the candidate's path is clicked, at most once, if it exists or if several
controls have the candidate's name. -/
structure ClickLaw (observedTagged : List ObservedControl) : Prop where
  once : (clickCandidate pf page candidate observed observedTagged).clicks.length ≤ 1
  lands : ∀ element, fromPath page.root candidate.path = some element →
    ∀ ref ∈ (clickCandidate pf page candidate observed observedTagged).clicks,
      page.elementOf ref = some element
  told : 2 ≤ (namedControls pf candidate observed).length →
    ∀ ref ∈ (clickCandidate pf page candidate observed observedTagged).clicks,
      ∃ element, fromPath page.root candidate.path = some element ∧
        page.elementOf ref = some element

/-- A control that is left alone by its name and group is the one at the candidate's path, if an
element is there or several controls have the name. -/
def SurvivorInPlace : Prop :=
  ∀ entry element, controlPool pf candidate observed = [entry] →
    page.elementOf entry.ref = some element →
    (∃ wanted, fromPath page.root candidate.path = some wanted) ∨
      2 ≤ (namedControls pf candidate observed).length →
    fromPath page.root candidate.path = some element

end

section

variable {pf : TextPlatform} {page : LivePage}

lemma clicks_clickRef {ref clicked : String} (h : clicked ∈ (clickRef page ref).clicks) :
    clicked = ref ∧ ∃ element, page.elementOf ref = some element := by
  unfold clickRef at h
  split_ifs at h with hsome
  · exact ⟨mem_singleton.1 h, isSome_iff_exists.1 hsome⟩
  · cases h

lemma length_clickRef (ref : String) : (clickRef page ref).clicks.length ≤ 1 := by
  unfold clickRef
  split_ifs <;> simp

lemma mem_refsAt {path : List ℤ} {entries : List ObservedControl} {refs : List String}
    (h : refsAt page path entries = some refs) {ref : String} (hmem : ref ∈ refs) :
    ∃ element, fromPath page.root path = some element ∧ page.elementOf ref = some element := by
  induction entries generalizing refs with
  | nil =>
    cases h
    cases hmem
  | cons entry entries ih =>
    unfold refsAt at h
    split at h
    next => cases h
    next element helement =>
      obtain ⟨rest, hrest, rfl⟩ := map_eq_some_iff.1 h
      split_ifs at hmem with hat
      · rcases mem_cons.1 hmem with rfl | hmem
        · exact ⟨element, hat, helement⟩
        · exact ih hrest hmem
      · exact ih hrest hmem

lemma clickTagged_spec (path : List ℤ) (observed : List ObservedControl) :
    (clickTagged page path observed).clicks.length ≤ 1 ∧
      ∀ ref ∈ (clickTagged page path observed).clicks, ∃ element,
        fromPath page.root path = some element ∧ page.elementOf ref = some element := by
  unfold clickTagged
  split_ifs
  · simp
  · split
    next ref hrefs =>
      refine ⟨length_clickRef ref, fun clicked h => ?_⟩
      rw [(clicks_clickRef h).1]
      exact mem_refsAt hrefs (mem_singleton_self ref)
    next => simp

variable {candidate : WidgetCandidate} {observed observedTagged : List ObservedControl}

lemma clickCandidate_survivor {entry : ObservedControl}
    (h : controlPool pf candidate observed = [entry]) :
    clickCandidate pf page candidate observed observedTagged = clickRef page entry.ref := by
  unfold clickCandidate
  rw [h]

lemma clickCandidate_several (h : ∀ entry, controlPool pf candidate observed ≠ [entry]) :
    (clickCandidate pf page candidate observed observedTagged).clicks.length ≤ 1 ∧
      ∀ ref ∈ (clickCandidate pf page candidate observed observedTagged).clicks, ∃ element,
        fromPath page.root candidate.path = some element ∧ page.elementOf ref = some element := by
  have hmatching : (match controlPool pf candidate observed with
      | [entry] => some [entry.ref]
      | pool => refsAt page candidate.path pool) =
        refsAt page candidate.path (controlPool pf candidate observed) := by
    split
    next entry hpool => exact absurd hpool (h entry)
    next => rfl
  unfold clickCandidate
  rw [hmatching]
  dsimp only
  split
  next => simp
  next ref hrefs =>
    refine ⟨length_clickRef ref, fun clicked hclicked => ?_⟩
    rw [(clicks_clickRef hclicked).1]
    exact mem_refsAt hrefs (mem_singleton_self ref)
  next => exact clickTagged_spec _ _

/-- **The candidate is what gets clicked exactly when a lone survivor is in its place**: the control
that its name and group leave alone, if they leave one, is the one at its path.

**Proof sketch.** A lone survivor is clicked unseen. In every other case what is clicked was found
at the path, by the comparison of elements or by the tag. -/
theorem clickLaw_iff (pf : TextPlatform) (page : LivePage) (candidate : WidgetCandidate)
    (observed observedTagged : List ObservedControl) :
    ClickLaw pf page candidate observed observedTagged ↔
      SurvivorInPlace pf page candidate observed := by
  by_cases hpool : ∃ entry, controlPool pf candidate observed = [entry]
  · obtain ⟨survivor, hpool⟩ := hpool
    have hrun := @clickCandidate_survivor pf page candidate observed observedTagged survivor hpool
    constructor
    · intro h entry element hentry helement hseveral
      cases hpool.symm.trans hentry
      have hclicked :
          survivor.ref ∈ (clickCandidate pf page candidate observed observedTagged).clicks := by
        rw [hrun, clickRef, helement]
        exact List.mem_singleton_self _
      rcases hseveral with ⟨wanted, hwanted⟩ | hseveral
      · rw [hwanted, ← h.lands wanted hwanted _ hclicked, helement]
      · obtain ⟨wanted, hwanted, hsame⟩ := h.told hseveral _ hclicked
        rw [hwanted, ← hsame, helement]
    · intro h
      refine ⟨hrun ▸ length_clickRef _, fun wanted hwanted ref href => ?_,
        fun hseveral ref href => ?_⟩
      all_goals
        rw [hrun] at href
        obtain ⟨rfl, element, helement⟩ := clicks_clickRef href
      · rw [helement, ← hwanted, h survivor element hpool helement (.inl ⟨wanted, hwanted⟩)]
      · exact ⟨element, h survivor element hpool helement (.inr hseveral), helement⟩
  · have hpool' : ∀ entry, controlPool pf candidate observed ≠ [entry] := fun entry heq =>
      hpool ⟨entry, heq⟩
    obtain ⟨honce, hat⟩ := @clickCandidate_several pf page candidate observed observedTagged hpool'
    refine ⟨fun _ entry _ hentry => absurd hentry (hpool' entry), fun _ => ⟨honce, ?_, ?_⟩⟩
    · intro wanted hwanted ref href
      obtain ⟨element, helement, hsame⟩ := hat ref href
      rw [hsame, ← hwanted, helement]
    · exact fun _ => hat

end

/-! ## The same day of two months -/

/-- Two panels with a day each. -/
def twoMonths : LivePage where
  root := .node [.node [.node []], .node [.node []]]
  elementOf ref := if ref = "e1" then some [0, 0] else if ref = "e2" then some [1, 0] else none

/-- The day of the first panel, with the caption that is read there. -/
def firstMonthDay : WidgetCandidate where
  name := pageText "15"
  role := pageText "gridcell"
  disabled := false
  path := [0, 0]
  group := some (pageText "March 2025")

/-- The day of the second panel is clicked where the observation gives it the caption, or where it
was cut before the first. -/
theorem clickCandidate_misses :
    ¬ ClickLaw examplePages twoMonths firstMonthDay
      [⟨"e1", pageText "15", some (pageText "Choose a date")⟩,
        ⟨"e2", pageText "15", some (pageText "March 2025")⟩] [] ∧
    ¬ ClickLaw examplePages twoMonths firstMonthDay
      [⟨"e2", pageText "15", some (pageText "Choose a date")⟩] [] := by
  constructor
  all_goals
    intro h
    have hlands := h.lands [0, 0] (by decide) "e2" (by decide)
    exact absurd hlands (by decide)

end Yantra
