import Yantra.Agent.Fulfillment
import Mathlib.Data.List.Perm.Subperm

/-!
# The requirements of a Brief

`toBriefRequirements` puts the judged items of an evaluation into the Brief, whose schema checks
their ids, texts and exemptions once more. The ids are made distinct by numeric suffixes, the texts
are cut to length; that both fit the schema depends on the names of the filters, on what the page
calls its exempt controls, and on escape bytes nothing removes.

## Main definitions

* `BriefRequirement`, `toBriefRequirements` — the requirements of an evaluation.
* `RequirementsFit` — the filter names, reasons and exempt controls that fit it.

## Main results

* `requirementsSchemaValid_iff` — when the requirements of a publication are accepted.
-/

namespace Yantra

open List Option Bool Function String Prod

/-! ## Requirements -/

structure BriefRequirement where
  id : String
  label : String
  status : ItemStatus
  reason : Option String
  declaredIn : Option Nat
  exemptions : Option (List (String × FillExemption)) := none
  exemptOverflow : Option Nat := none
  deriving DecidableEq, Repr, Inhabited

def toBriefRequirements (evaluation : FulfillmentEvaluation) : List BriefRequirement :=
  evaluation.items.map fun item =>
    { id := item.id
      label := item.label
      status := item.status
      reason := item.reason
      declaredIn := item.declaredIn
      exemptions := item.exemptions
      exemptOverflow := item.exemptOverflow }

/-- Most fill exemptions one requirement lists. -/
def briefMaxExemptions : Nat := 20

/-- No raw escape byte: neither ESC nor CSI. -/
def noAnsi (s : String) : Bool := s.toList.all fun c => c.toNat != 0x1B && c.toNat != 0x9B

/-- What the schema checks of a text. -/
def briefText (max : Nat) (s : String) : Bool := boundedText max s && noAnsi s

def BriefRequirement.schemaValid (r : BriefRequirement) : Bool :=
  matchesRequirementIdPattern r.id && briefText 120 r.label && r.reason.all (briefText 200) &&
    r.declaredIn.all (fun n => decide (1 ≤ n)) &&
    r.exemptions.all (fun es => es.all (fun e => briefText 120 e.1) &&
      decide (es.length ≤ briefMaxExemptions)) &&
    r.exemptOverflow.all fun n => decide (1 ≤ n)

def requirementsSchemaValid (rs : List BriefRequirement) : Bool :=
  decide (rs.length ≤ briefMaxRequirements) && rs.all BriefRequirement.schemaValid &&
    decide (rs.map BriefRequirement.id).Nodup

/-! ## Distinct ids -/

def suffixedId (own : String) (n : ℕ) : String := JsText.utf16Take 64 own ++ " " ++ toString n

open JsText

lemma suffixedId_injective (own : String) : Injective (suffixedId own) := by
  intro m n h
  have happend := congrArg String.toList h
  simp only [suffixedId, toList_append] at happend
  exact toString_toList_inj (append_cancel_left happend)

variable (seen : List String)

lemma freshId_eq (own : String) (tries n : ℕ) (id : String) :
    freshId seen own tries n id = id ∨
      ∃ k, n ≤ k ∧ k < n + tries ∧ freshId seen own tries n id = suffixedId own k := by
  induction tries generalizing n id with
  | zero => exact .inl rfl
  | succ tries ih =>
    rw [freshId]
    split_ifs
    · right
      rcases ih (n + 1) (suffixedId own n) with heq | ⟨k, hle, hlt, heq⟩
      · exact ⟨n, Nat.le_refl n, by omega, heq⟩
      · exact ⟨k, by omega, by omega, heq⟩
    · exact .inl rfl

lemma mem_of_freshId_mem {seen : List String} {own : String} {tries n : ℕ} {id : String}
    (h : freshId seen own tries n id ∈ seen) :
    (0 < tries → id ∈ seen) ∧ ∀ k, n ≤ k → k + 1 < n + tries → suffixedId own k ∈ seen := by
  induction tries generalizing n id with
  | zero => exact ⟨fun h => absurd h (Nat.lt_irrefl 0), fun k _ _ => by omega⟩
  | succ tries ih =>
    rw [freshId] at h
    by_cases hid : seen.contains id
    · rw [if_pos hid] at h
      obtain ⟨hfirst, hrest⟩ := ih h
      refine ⟨fun _ => by simpa using hid, fun k hle hlt => ?_⟩
      rcases Nat.eq_or_lt_of_le hle with rfl | hn
      · exact hfirst (by omega)
      · exact hrest k hn (by omega)
    · rw [if_neg hid] at h
      exact absurd (by simpa using h) hid

/-- **Fresh ids.** There are more suffixes to try than ids taken, so the id is a new one.

**Proof sketch.** Were it taken, so would be as many distinct suffixes as there are ids taken, and
one more. -/
lemma freshId_not_mem (seen : List String) (own : String) :
    freshId seen own (seen.length + 2) 2 own ∉ seen := by
  intro hmem
  have hall := (mem_of_freshId_mem hmem).2
  have hnodup : ((range' 2 (seen.length + 1)).map (suffixedId own)).Nodup :=
    Nodup.map (suffixedId_injective own) nodup_range'
  have hsub : (range' 2 (seen.length + 1)).map (suffixedId own) ⊆ seen := by
    intro x hx
    obtain ⟨k, hk, rfl⟩ := List.mem_map.1 hx
    rw [mem_range'_1] at hk
    exact hall k hk.1 (by omega)
  have hlen := (hnodup.subperm hsub).length_le
  rw [List.length_map, length_range'] at hlen
  omega

lemma freshId_of_not_mem {seen : List String} {own : String} (h : own ∉ seen) :
    freshId seen own (seen.length + 2) 2 own = own := by
  rw [freshId, if_neg (by simpa using h)]

/-- The ids of `uniqueIds`, from those the items have. -/
def distinctIds : List String → List String → List String
  | _, [] => []
  | seen, own :: ids =>
    let id := freshId seen own (seen.length + 2) 2 own
    id :: distinctIds (id :: seen) ids

/-- The ids `uniqueIds` gives depend on the ids of the items alone. -/
lemma map_id_uniqueIds (items : List RequirementStatus) :
    (uniqueIds seen items).map RequirementStatus.id =
      distinctIds seen (items.map RequirementStatus.id) := by
  induction items generalizing seen with
  | nil => rfl
  | cons item items ih =>
    rw [uniqueIds, map_cons, map_cons, distinctIds, ih]

theorem nodup_distinctIds (seen ids : List String) :
    (distinctIds seen ids).Nodup ∧ ∀ id ∈ distinctIds seen ids, id ∉ seen := by
  induction ids generalizing seen with
  | nil => exact ⟨nodup_nil, fun id hid => absurd hid not_mem_nil⟩
  | cons own ids ih =>
    obtain ⟨hnodup, hnew⟩ := ih (freshId seen own (seen.length + 2) 2 own :: seen)
    refine ⟨nodup_cons.2 ⟨fun hmem => ?_, hnodup⟩, fun id hid => ?_⟩
    · exact hnew _ hmem mem_cons_self
    · rcases mem_cons.1 hid with rfl | hid
      · exact freshId_not_mem seen own
      · exact fun hmem => hnew id hid (mem_cons_of_mem _ hmem)

lemma mem_distinctIds {seen ids : List String} {own : String} (h : own ∈ ids) :
    own ∈ seen ∨ own ∈ distinctIds seen ids := by
  induction ids generalizing seen with
  | nil => exact absurd h not_mem_nil
  | cons first ids ih =>
    rcases mem_cons.1 h with rfl | h
    · by_cases hmem : own ∈ seen
      · exact .inl hmem
      · right
        rw [distinctIds, freshId_of_not_mem hmem]
        exact mem_cons_self
    · rcases @ih (freshId seen first (seen.length + 2) 2 first :: seen) h with hmem | hmem
      · rcases mem_cons.1 hmem with rfl | hmem
        · exact .inr mem_cons_self
        · exact .inl hmem
      · exact .inr (mem_cons_of_mem _ hmem)

lemma eq_of_mem_distinctIds {seen ids : List String} {id : String} (h : id ∈ distinctIds seen ids) :
    ∃ own ∈ ids, id = own ∨ ∃ k, k < seen.length + ids.length + 4 ∧ id = suffixedId own k := by
  induction ids generalizing seen with
  | nil => exact absurd h not_mem_nil
  | cons first ids ih =>
    rcases mem_cons.1 h with rfl | h
    · refine ⟨first, mem_cons_self, ?_⟩
      rcases freshId_eq seen first (seen.length + 2) 2 first with heq | ⟨k, -, hlt, heq⟩
      · exact .inl heq
      · exact .inr ⟨k, by rw [length_cons]; omega, heq⟩
    · obtain ⟨own, hown, heq⟩ := ih h
      refine ⟨own, mem_cons_of_mem _ hown, heq.imp_right ?_⟩
      rintro ⟨k, hlt, heq⟩
      exact ⟨k, by rw [length_cons] at hlt ⊢; omega, heq⟩

lemma distinctIds_eq_self {seen ids : List String} (hnodup : ids.Nodup)
    (hnew : ∀ id ∈ ids, id ∉ seen) : distinctIds seen ids = ids := by
  induction ids generalizing seen with
  | nil => rfl
  | cons own ids ih =>
    obtain ⟨hown, hnodup⟩ := nodup_cons.1 hnodup
    rw [distinctIds, freshId_of_not_mem (hnew own mem_cons_self)]
    rw [ih hnodup]
    intro id hid hmem
    rcases mem_cons.1 hmem with rfl | hmem
    · exact hown hid
    · exact hnew id (mem_cons_of_mem _ hid) hmem

lemma distinctIds_append (seen ids ids' : List String) :
    distinctIds seen (ids ++ ids') = distinctIds seen ids ++
      distinctIds ((distinctIds seen ids).reverse ++ seen) ids' := by
  induction ids generalizing seen with
  | nil => rfl
  | cons own ids ih =>
    rw [cons_append, distinctIds, distinctIds, ih, cons_append, reverse_cons,
      List.append_assoc, singleton_append]

/-! ## Ids that match the pattern -/

/-- The ids that name no filter. -/
def fixedIds : List String :=
  ["deliverable", "fill", "effects.submit", "artifact:screenshot:viewport",
    "artifact:screenshot:full_page", "artifact:screenshot:element"]

/-- Whether what the id of a filter says of its name matches. -/
def matchesKeyPattern (key : List Char) : Bool :=
  key.head?.any (fun c => !JsText.isSpace c) && key.getLast?.any (fun c => !JsText.isSpace c) &&
    key.all (fun c => !isDotExcluded c) && decide (JsText.utf16Length (String.ofList key) ≤ 60)

lemma matches_of_mem_fixedIds {id : String} (h : id ∈ fixedIds) :
    matchesRequirementIdPattern id := by
  have hall : ∀ id ∈ fixedIds, matchesRequirementIdPattern id = true := by decide
  exact hall id h

variable (key : String)

lemma filterId_not_mem_fixedIds : "filter:" ++ key ∉ fixedIds := by
  intro hmem
  have hall : ∀ id ∈ fixedIds, "filter:".toList.isPrefixOf id.toList = false := by decide
  have hpre := hall _ hmem
  rw [toList_append, ← not_eq_true, isPrefixOf_iff_prefix] at hpre
  exact hpre (prefix_append _ _)

lemma matchesRequirementIdPattern_filter :
    matchesRequirementIdPattern ("filter:" ++ key) = matchesKeyPattern key.toList := by
  have hfixed : fixedIds.contains ("filter:" ++ key) = false := by
    simpa using filterId_not_mem_fixedIds key
  have hpre : "filter:".toList.isPrefixOf ("filter:" ++ key).toList := by
    rw [toList_append, isPrefixOf_iff_prefix]
    exact prefix_append _ _
  have hdrop : ("filter:" ++ key).toList.drop 7 = key.toList := by
    rw [toList_append]
    exact drop_left' rfl
  have hunfold : matchesRequirementIdPattern ("filter:" ++ key) =
      (fixedIds.contains ("filter:" ++ key) ||
        ("filter:".toList.isPrefixOf ("filter:" ++ key).toList &&
          matchesKeyPattern (("filter:" ++ key).toList.drop 7))) := rfl
  rw [hunfold, hfixed, hpre, hdrop, Bool.true_and, Bool.false_or]

/-- A key that is cut to sixty code units fits the pattern of an id: there is something, it does
not end in white space, and it stands on one line. -/
structure KeyFits (key : String) : Prop where
  nonempty : key ≠ ""
  noSpaceAtEnd : ∀ c, key.toList.getLast? = some c → JsText.isSpace c = false
  oneLine : ∀ c ∈ key.toList, isDotExcluded c = false

lemma isDotExcluded_of_isSpace {c : Char} (h : isSpace c = false) :
    isDotExcluded c = false := by
  have hne : ∀ d : Char, isSpace d → c ≠ d := by
    rintro d hd rfl
    exact Bool.noConfusion (h.symm.trans hd)
  simp only [isDotExcluded, decide_eq_false (hne '\n' (by decide)),
    decide_eq_false (hne '\r' (by decide)), Bool.false_or, or_eq_false_iff,
    decide_eq_false_iff_not]
  constructor <;> intro hcode <;> simp [isSpace, hcode] at h

lemma matchesKeyPattern_iff {key : String} (hlen : utf16Length key ≤ 60)
    (hhead : ∀ c, key.toList.head? = some c → isSpace c = false) :
    matchesKeyPattern key.toList ↔ KeyFits key := by
  simp only [matchesKeyPattern, ofList_toList, hlen, decide_true, Bool.and_true,
    and_eq_true, List.all_eq_true, not_eq_true']
  constructor
  · rintro ⟨⟨-, hlast⟩, hline⟩
    refine ⟨fun hnil => ?_, fun c hc => ?_, hline⟩
    · rw [hnil] at hlast
      cases hlast
    · rw [hc, any_some, not_eq_true'] at hlast
      exact hlast
  · rintro ⟨hne, hlast, hline⟩
    have hcons : key.toList ≠ [] := fun hnil => hne (toList_inj.1 hnil)
    obtain ⟨c, cs, hcs⟩ := exists_cons_of_ne_nil hcons
    refine ⟨⟨?_, ?_⟩, hline⟩
    · rw [hcs, head?_cons, any_some, hhead c (by rw [hcs]; rfl)]
      rfl
    · rw [getLast?_eq_some_getLast hcons, any_some,
        hlast _ (getLast?_eq_some_getLast hcons)]
      rfl

lemma utf16Length_toString_le {n : ℕ} (h : n < 100) : utf16Length (toString n) ≤ 2 := by
  have hall : ∀ n < 100, utf16Length (toString n) ≤ 2 := by decide +kernel
  exact hall n h

lemma suffixedId_filter (n : ℕ) :
    suffixedId ("filter:" ++ key) n =
      "filter:" ++ (utf16Take 57 key ++ " " ++ toString n) := by
  rw [suffixedId, utf16Take, utf16Take, ← toList_inj]
  simp only [toList_append, toList_ofList, List.append_assoc]
  rfl

lemma matches_suffixedId {key : String} (hkey : KeyFits key)
    (hhead : ∀ c, key.toList.head? = some c → isSpace c = false) {n : ℕ} (hn : n < 100) :
    matchesRequirementIdPattern (suffixedId ("filter:" ++ key) n) := by
  rw [suffixedId_filter, matchesRequirementIdPattern_filter]
  have hcons : key.toList ≠ [] := fun hnil => hkey.nonempty (toList_inj.1 hnil)
  obtain ⟨c, cs, hcs⟩ := exists_cons_of_ne_nil hcons
  have hunits : unitsOf c ≤ 57 := by
    unfold unitsOf
    split_ifs <;> omega
  have htake : (utf16Take 57 key).toList =
      c :: takeUnits (57 - unitsOf c) cs := by
    rw [utf16Take, toList_ofList, hcs, takeUnits, if_pos hunits]
  have hcut : (utf16Take 57 key).toList <+: key.toList := by
    rw [utf16Take, toList_ofList]
    exact takeUnits_prefix 57 key.toList
  have hlen : utf16Length (utf16Take 57 key ++ " " ++ toString n) ≤ 60 := by
    rw [utf16Length_append, utf16Length_append]
    have hcut := utf16Length_take_le 57 key
    have hspace : utf16Length " " = 1 := rfl
    have hdigits := utf16Length_toString_le hn
    omega
  refine (matchesKeyPattern_iff hlen fun d hd => ?_).2 ⟨fun hnil => ?_, fun d hd => ?_, ?_⟩
  · rw [toList_append, toList_append, htake, cons_append, cons_append,
      head?_cons] at hd
    exact hhead d (by rw [hcs, head?_cons, hd])
  · have hnil' := congrArg String.toList hnil
    rw [toList_append, toList_append, htake] at hnil'
    cases hnil'
  · rw [toList_append, getLast?_append_of_ne_nil _ (toString_toList_ne_nil n)]
      at hd
    exact isSpace_of_mem_toString (mem_of_getLast? hd)
  · intro d hd
    rw [toList_append, toList_append, mem_append, mem_append] at hd
    rcases hd with (hd | hd) | hd
    · exact hkey.oneLine d (hcut.subset hd)
    · obtain rfl := mem_singleton.1 hd
      decide
    · exact isDotExcluded_of_isSpace (isSpace_of_mem_toString hd)

/-! ## The ids of an evaluation -/

def filterKey (pf : Platform) (name : String) : String :=
  let normalized := normalizeDeliveryName pf name
  if normalized.isEmpty then JsText.trim name else normalized

def shownKey (pf : Platform) (name : String) : String := JsText.utf16Take 60 (filterKey pf name)

variable (pf : Platform)

lemma filterItem_id (filter : ContractFilter) (constraints : List DeliveryConstraint) :
    (filterItem pf filter constraints).id = "filter:" ++ shownKey pf filter.name := by
  have hcut : ∀ key : String,
      utf16Take 67 ("filter:" ++ key) = "filter:" ++ utf16Take 60 key := by
    intro key
    rw [utf16Take, utf16Take, ← toList_inj]
    simp only [toList_append, toList_ofList]
    rfl
  exact hcut (filterKey pf filter.name)

lemma head?_shownKey {pf : Platform} {name : String} {c : Char}
    (h : (shownKey pf name).toList.head? = some c) : isSpace c = false := by
  rw [shownKey, utf16Take, toList_ofList] at h
  have hkey : (filterKey pf name).toList.head? = some c := by
    obtain ⟨rest, hrest⟩ := takeUnits_prefix 60 (filterKey pf name).toList
    rw [← hrest, head?_append, h]
    rfl
  unfold filterKey at hkey
  dsimp only at hkey
  split_ifs at hkey
  · rw [JsText.trim, toList_ofList] at hkey
    exact head?_trimList hkey
  · rw [normalizeDeliveryName, JsText.trim, toList_ofList] at hkey
    exact head?_trimList hkey

lemma matches_filterId_iff (name : String) :
    matchesRequirementIdPattern ("filter:" ++ shownKey pf name) ↔
      KeyFits (shownKey pf name) := by
  rw [matchesRequirementIdPattern_filter]
  exact matchesKeyPattern_iff (utf16Length_take_le 60 _) fun _ hc => head?_shownKey hc

/-- The ids of filters, made distinct, match exactly when the keys of the filters fit.

**Proof sketch.** Every own id is somebody's in the end, so where the final ids match the own ids
do. Conversely a final id is an own id or one with a suffix of two digits. -/
lemma matches_distinctIds_iff (pf : Platform) {seen : List String} {names : List String}
    (hseen : ∀ id ∈ seen, id ∈ fixedIds) (hlen : seen.length + names.length ≤ 90) :
    (∀ id ∈ distinctIds seen (names.map fun name => "filter:" ++ shownKey pf name),
        matchesRequirementIdPattern id = true) ↔
      ∀ name ∈ names, KeyFits (shownKey pf name) := by
  constructor
  · intro h name hname
    rw [← matches_filterId_iff]
    have hown : "filter:" ++ shownKey pf name ∈
        names.map fun name => "filter:" ++ shownKey pf name := List.mem_map_of_mem hname
    rcases @mem_distinctIds seen _ _ hown with hmem | hmem
    · exact matches_of_mem_fixedIds (hseen _ hmem)
    · exact h _ hmem
  · intro h id hid
    obtain ⟨own, hown, heq⟩ := eq_of_mem_distinctIds hid
    obtain ⟨name, hname, rfl⟩ := List.mem_map.1 hown
    rcases heq with rfl | ⟨k, hk, rfl⟩
    · exact (matches_filterId_iff pf name).2 (h name hname)
    · rw [List.length_map] at hk
      exact matches_suffixedId (h name hname) (fun _ hc => head?_shownKey hc) (by omega)

lemma exists_key_of_mem {seen names : List String} {id : String}
    (h : id ∈ distinctIds seen (names.map fun name => "filter:" ++ shownKey pf name)) :
    ∃ key, id = "filter:" ++ key := by
  obtain ⟨own, hown, heq⟩ := eq_of_mem_distinctIds h
  obtain ⟨name, -, rfl⟩ := List.mem_map.1 hown
  rcases heq with rfl | ⟨k, -, rfl⟩
  · exact ⟨_, rfl⟩
  · exact ⟨_, suffixedId_filter _ k⟩

lemma distinctIds_declared {names rest : List String} (hnodup : rest.Nodup)
    (hfixed : ∀ id ∈ rest, id ∈ fixedIds) (hdeliverable : "deliverable" ∉ rest) :
    distinctIds [] ("deliverable" ::
        (names.map fun name => "filter:" ++ shownKey pf name) ++ rest) =
      "deliverable" :: distinctIds ["deliverable"]
        (names.map fun name => "filter:" ++ shownKey pf name) ++ rest := by
  rw [cons_append, distinctIds, freshId_of_not_mem not_mem_nil, distinctIds_append,
    cons_append]
  congr 2
  refine distinctIds_eq_self hnodup fun id hid hmem => ?_
  rcases mem_append.1 hmem with hmem | hmem
  · obtain ⟨key, rfl⟩ := exists_key_of_mem pf (mem_reverse.1 hmem)
    exact filterId_not_mem_fixedIds key (hfixed _ hid)
  · obtain rfl := mem_singleton.1 hmem
    exact hdeliverable hid

/-! ## The rest of an item -/

/-- Whether the schema accepts everything of an item but its id. -/
def RequirementStatus.bodyFits (item : RequirementStatus) : Bool :=
  briefText 120 (bound item.label maxLabel) &&
    item.reason.all (fun r => briefText 200 (bound r maxReason)) &&
    item.declaredIn.all (fun n => decide (1 ≤ n)) &&
    item.exemptions.all (fun es => es.all (fun e => briefText 120 e.1) &&
      decide (es.length ≤ briefMaxExemptions)) &&
    item.exemptOverflow.all fun n => decide (1 ≤ n)

open RequirementStatus

lemma bodyFits_id (item : RequirementStatus) (id : String) :
    ({ item with id := id } : RequirementStatus).bodyFits = item.bodyFits := by
  simp only [bodyFits]

lemma ids_toBriefRequirements {input : FulfillmentInput} {contract : TaskContractBody}
    (hc : input.contract = some contract) :
    (toBriefRequirements (evaluateFulfillment pf input)).map BriefRequirement.id =
      (distinctIds [] ((declaredItems pf input contract).map RequirementStatus.id)).take
        briefMaxRequirements := by
  rw [← map_id_uniqueIds, ← map_take, toBriefRequirements, items_evaluateFulfillment pf hc,
    List.map_map, List.map_map]
  refine map_congr_left fun item _ => ?_
  simp only [comp, boundItem]

open BriefRequirement

lemma schemaValid_toBriefRequirements {input : FulfillmentInput} {contract : TaskContractBody}
    (hc : input.contract = some contract) :
    (toBriefRequirements (evaluateFulfillment pf input)).map schemaValid =
      ((uniqueIds [] (declaredItems pf input contract)).take briefMaxRequirements).map
        fun item => matchesRequirementIdPattern item.id && item.bodyFits := by
  rw [toBriefRequirements, items_evaluateFulfillment pf hc, List.map_map, List.map_map]
  refine map_congr_left fun item _ => ?_
  have hmap : ∀ (reason : Option String) (f : String → String) (p : String → Bool),
      (reason.map f).all p = reason.all fun r => p (f r) := by
    intro reason f p
    cases reason <;> rfl
  simp only [comp, schemaValid, boundItem, bodyFits,
    hmap, Bool.and_assoc]

/-- The schema accepts the requirements of an evaluation exactly when it accepts the final ids and
the rest of every declared item, up to the bound of the Brief. -/
lemma requirementsSchemaValid_eq {input : FulfillmentInput} {contract : TaskContractBody}
    (hc : input.contract = some contract) :
    requirementsSchemaValid (toBriefRequirements (evaluateFulfillment pf input)) ↔
      (∀ id ∈ (distinctIds [] ((declaredItems pf input contract).map
          RequirementStatus.id)).take briefMaxRequirements,
        matchesRequirementIdPattern id) ∧
      ∀ item ∈ (declaredItems pf input contract).take briefMaxRequirements,
        item.bodyFits := by
  have hlen : (toBriefRequirements (evaluateFulfillment pf input)).length ≤
      briefMaxRequirements := by
    rw [toBriefRequirements, List.length_map]
    exact length_evaluateFulfillment_le pf input
  have hnodup : ((toBriefRequirements (evaluateFulfillment pf input)).map
      BriefRequirement.id).Nodup := by
    rw [ids_toBriefRequirements pf hc]
    exact (nodup_distinctIds [] _).1.sublist (take_sublist _ _)
  have hbodies : ((uniqueIds [] (declaredItems pf input contract)).take
        briefMaxRequirements).map bodyFits =
      ((declaredItems pf input contract).take briefMaxRequirements).map
        bodyFits := by
    rw [map_take, map_uniqueIds bodyFits bodyFits_id, ← map_take]
  have hall : (toBriefRequirements (evaluateFulfillment pf input)).all
        schemaValid ↔
      ∀ item ∈ (uniqueIds [] (declaredItems pf input contract)).take briefMaxRequirements,
        matchesRequirementIdPattern item.id ∧ item.bodyFits := by
    rw [List.all_eq_true, ← List.forall_mem_map (P := fun b => b = true),
      schemaValid_toBriefRequirements pf hc, List.forall_mem_map]
    simp only [and_eq_true]
  have hfirst : (∀ item ∈ (uniqueIds [] (declaredItems pf input contract)).take
        briefMaxRequirements, matchesRequirementIdPattern item.id) ↔
      ∀ id ∈ (distinctIds [] ((declaredItems pf input contract).map
        RequirementStatus.id)).take briefMaxRequirements,
          matchesRequirementIdPattern id := by
    rw [← map_id_uniqueIds, ← map_take, List.forall_mem_map]
  have hsecond : (∀ item ∈ (uniqueIds [] (declaredItems pf input contract)).take
        briefMaxRequirements, item.bodyFits) ↔
      ∀ item ∈ (declaredItems pf input contract).take briefMaxRequirements,
        item.bodyFits := by
    rw [← List.forall_mem_map (P := fun b => b = true), hbodies, List.forall_mem_map]
  rw [requirementsSchemaValid, decide_eq_true hlen, decide_eq_true hnodup, Bool.true_and,
    Bool.and_true, hall, ← hfirst, ← hsecond]
  exact ⟨fun h => ⟨fun item hitem => (h item hitem).1, fun item hitem => (h item hitem).2⟩,
    fun h item hitem => ⟨h.1 item hitem, h.2 item hitem⟩⟩

/-- What is shown of a text is accepted where there is something to show and it has no escape
byte. -/
lemma briefText_bound {text : String} {max : ℕ} (hmax : 0 < max) :
    briefText max (bound text max) = (visible text && noAnsi (bound text max)) := by
  rw [briefText, boundedText_bound hmax]

/-! ## What the items say -/

lemma visible_append (a b : String) :
    visible (a ++ b) = (visible a || visible b) := by
  rw [visible, toList_append, any_append]
  rfl

lemma visible_intercalate {sep text : String} (texts : List String) (h : visible text) :
    visible (sep.intercalate (text :: texts)) := by
  cases texts with
  | nil => rwa [String.intercalate_singleton]
  | cons next texts =>
    rw [String.intercalate_cons_cons, visible_append, visible_append, h, Bool.true_or,
      Bool.true_or]

structure RequirementStatus.Shows (item : RequirementStatus) : Prop where
  label : JsText.visible item.label = true
  reason : ∀ r, item.reason = some r → JsText.visible r = true

lemma filterItem_shows (filter : ContractFilter) (constraints : List DeliveryConstraint) :
    (filterItem pf filter constraints).Shows := by
  have heq : visible " = " = true := by decide
  have hmet : visible "not met: " = true := by decide
  have hconfirmed : visible "not confirmed" = true := by decide
  constructor
  · have hlabel : (filterItem pf filter constraints).label =
        filter.name ++ " = " ++ filter.value := rfl
    rw [hlabel, visible_append, visible_append, heq, Bool.or_true, Bool.true_or]
  · intro r hr
    simp only [filterItem] at hr
    cases hfind : constraints.find? fun entry => sameName pf entry.name filter.name with
    | none =>
      rw [hfind] at hr
      obtain rfl := some.inj hr
      exact hconfirmed
    | some c =>
      simp only [hfind] at hr
      cases hstatus : c.status with
      | verified =>
        simp only [hstatus] at hr
        cases hr
      | violated =>
        simp only [hstatus, some.injEq] at hr
        rw [← hr, visible_append, hmet, Bool.true_or]
      | unverified =>
        simp only [hstatus, some.injEq] at hr
        rw [← hr, visible_append, hconfirmed, Bool.true_or]

lemma gapsStatus_shows {gaps : List String} (h : gaps ≠ [] → visible ("; ".intercalate gaps))
    {r : String} (hr : (gapsStatus gaps).2 = some r) : visible r := by
  unfold gapsStatus at hr
  split_ifs at hr with hempty
  obtain rfl := some.inj hr
  exact h fun hnil => hempty (hnil ▸ rfl)

lemma visible_of_isPrefixOf {pre text : String} (hpre : visible pre)
    (h : pre.toList.isPrefixOf text.toList) : visible text := by
  obtain ⟨c, hc, hspace⟩ := JsText.visible_iff.1 hpre
  exact JsText.visible_iff.2 ⟨c, ( isPrefixOf_iff_prefix.1 h).subset hc, hspace⟩

lemma actionsStatus_shows (ledger : List ActionLedgerEntry) (contract : TaskContractBody)
    {r : String} (hr : (actionsStatus pf ledger contract).2 = some r) :
    visible r := by
  have hhappened : visible "actions happened on " = true := by decide
  have hnone : visible "no page action was recorded" = true := by decide
  simp only [actionsStatus] at hr
  split_ifs at hr
  · obtain rfl := some.inj hr
    exact hnone
  · obtain rfl := some.inj hr
    rw [visible_append, visible_append, visible_append, hhappened, Bool.true_or, Bool.true_or,
      Bool.true_or]

lemma deliverableItem_shows (input : FulfillmentInput) (contract : TaskContractBody) :
    (deliverableItem pf input contract).Shows ↔
      (contract.deliverable = .table → input.deliverableGaps ≠ [] →
        visible ("; ".intercalate input.deliverableGaps)) := by
  have hof : visible " of " = true := by decide
  have hcited : visible "nothing in the answer is cited from" = true := by decide
  have hlabel : visible (deliverableItem pf input contract).label := by
    have heq : (deliverableItem pf input contract).label =
        contract.deliverable.name ++ " of " ++ contract.subject := rfl
    rw [heq, visible_append, visible_append, hof, Bool.or_true, Bool.true_or]
  have hsource : ∀ r, (gapsStatus (input.deliverableGaps.filter fun gap =>
      "nothing in the answer is cited from".toList.isPrefixOf gap.toList)).2 = some r →
        visible r := by
    intro r hr
    refine gapsStatus_shows (fun hne => ?_) hr
    obtain ⟨gap, gaps, hgaps⟩ := exists_cons_of_ne_nil hne
    rw [hgaps]
    have hmem : gap ∈ input.deliverableGaps.filter fun gap =>
        "nothing in the answer is cited from".toList.isPrefixOf gap.toList := by
      rw [hgaps]
      exact mem_cons_self
    exact visible_intercalate _ (visible_of_isPrefixOf hcited (mem_filter.1 hmem).2)
  constructor
  · intro h htable hne
    have hreason : (deliverableItem pf input contract).reason =
        (gapsStatus input.deliverableGaps).2 := by
      simp only [deliverableItem, htable]
    have hsome : (gapsStatus input.deliverableGaps).2 =
        some ("; ".intercalate input.deliverableGaps) := by
      rw [gapsStatus, if_neg (by simpa using hne)]
    exact h.reason _ (hreason.trans hsome)
  · intro h
    refine ⟨hlabel, fun r hr => ?_⟩
    simp only [deliverableItem] at hr
    cases hkind : contract.deliverable with
    | table =>
      simp only [hkind] at hr
      exact gapsStatus_shows (h hkind) hr
    | answer =>
      simp only [hkind] at hr
      exact hsource r hr
    | report =>
      simp only [hkind] at hr
      exact hsource r hr
    | actions =>
      simp only [hkind] at hr
      exact actionsStatus_shows pf _ _ hr

lemma artifactItem_shows (input : FulfillmentInput) (artifact : ArtifactTerm) :
    (artifactItem input artifact).Shows := by
  have htimely : ∀ timely r, (timelyStatus artifact.scope timely).2 = some r →
      visible r := by
    intro timely r hr
    unfold timelyStatus at hr
    split_ifs at hr
    obtain rfl := some.inj hr
    decide
  have hlabel : ∀ scope : ArtifactScope, visible (artifactLabel scope) := by
    intro scope
    cases scope <;> decide
  constructor
  · exact hlabel artifact.scope
  · intro r hr
    simp only [artifactItem, artifactStatus] at hr
    split_ifs at hr
    · obtain rfl := some.inj hr
      cases input.captureGap artifact.scope with
      | none => decide
      | some gap => cases gap <;> decide
    · cases hlast : lastCommitted input.ledger with
      | none =>
        rw [hlast] at hr
        exact htimely _ r hr
      | some last =>
        simp only [hlast] at hr
        split_ifs at hr
        · obtain rfl := some.inj hr
          decide
        · obtain rfl := some.inj hr
          decide
        · exact htimely _ r hr

open ActionLedgerEntry

lemma submitItem_shows (input : FulfillmentInput) (declaredIn : ℕ) :
    (submitItem input declaredIn).Shows := by
  have hclick : visible " submit-class click" = true := by decide
  have hattempt : visible " submit attempt" = true := by decide
  have hlabel : visible "do not submit" = true := by decide
  refine ⟨hlabel, fun r hr => ?_⟩
  simp only [submitItem, submitStatus] at hr
  by_cases hexecuted : 0 < (input.ledger.filter isSubmit).length
  · rw [if_pos hexecuted] at hr
    obtain rfl := some.inj hr
    rw [visible_append, visible_append, visible_append, hclick, Bool.or_true, Bool.true_or,
      Bool.true_or]
  · rw [if_neg hexecuted] at hr
    by_cases hrefused : (input.ledger.filter isRefused).length = 0
    · rw [if_pos hrefused] at hr
      cases hr
    · rw [if_neg hrefused] at hr
      obtain rfl := some.inj hr
      rw [visible_append, visible_append, visible_append, hattempt, Bool.or_true, Bool.true_or,
        Bool.true_or]

/-! ## Exempt controls -/

def FillCensusControl.shownAs (c : FillCensusControl) : String :=
  if c.label.isEmpty then c.ref else c.label

def exemptUnits : List String → List FillCensusControl → List FillCensusControl
  | _, [] => []
  | seen, c :: cs =>
    match c.exemption with
    | none => exemptUnits seen cs
    | some _ =>
      let key := c.groupKey.getD ("ref:" ++ c.ref)
      if seen.contains key then exemptUnits seen cs else c :: exemptUnits (key :: seen) cs

lemma map_fst_exemptControls (controls : List FillCensusControl) :
    (exemptControls seen controls).map fst =
      (exemptUnits seen controls).map fun c => bound c.shownAs maxLabel := by
  induction controls generalizing seen with
  | nil => rfl
  | cons c cs ih =>
    rw [exemptControls, exemptUnits]
    cases c.exemption with
    | none => exact ih seen
    | some reason =>
      simp only
      by_cases hseen : seen.contains (c.groupKey.getD ("ref:" ++ c.ref))
      · rw [if_pos hseen, if_pos hseen]
        exact ih seen
      · rw [if_neg hseen, if_neg hseen, map_cons, map_cons, ih]
        simp only [FillCensusControl.shownAs]

def listedExemptions (fill : FillTerm) (census : Option FillCensus) :
    List (String × FillExemption) :=
  if fill.coverage = .allEligible then
    (census.map fun c => (exemptControls [] c.controls).take maxExemptions).getD []
  else []

/-- The verdict on a fill says something, lists the exemptions of the census, and counts more only
where there are more. -/
structure FillVerdict.Judges (v : FillVerdict) (fill : FillTerm) (census : Option FillCensus) :
    Prop where
  reason : ∀ r, v.reason = some r → JsText.visible r = true
  exemptions : v.exemptions.getD [] = listedExemptions fill census
  overflow : ∀ n, v.exemptOverflow = some n → 1 ≤ n

lemma judges_withExemptions {fill : FillTerm} (hall : fill.coverage = .allEligible)
    (census : FillCensus) (status : ItemStatus) {reason : String} (hreason : visible reason)
    :
    (withExemptions census status reason).Judges fill (some census) := by
  constructor
  · intro r hr
    rwa [← some.inj hr]
  · rw [listedExemptions, if_pos hall]
    simp only [withExemptions, map_some, getD_some]
    cases hexempt : exemptControls [] census.controls with
    | nil => rfl
    | cons control controls => rfl
  · intro n hn
    simp only [withExemptions] at hn
    split_ifs at hn with hlt
    obtain rfl := some.inj hn
    omega

lemma judges_censusFillEvaluator (census : Option FillCensus) (fill : FillTerm)
    (ledger : List ActionLedgerEntry) :
    (censusFillEvaluator pf census fill ledger).Judges fill census := by
  have hfields : visible "fields " = true := by decide
  have hunavailable : visible "fields not counted (inventory_unavailable)" := by
    decide
  have hincomplete : visible "fields not counted (inventory_incomplete)" = true := by decide
  have hleft : visible "fields not counted (form_document_left)" = true := by decide
  have hnone : visible "no eligible fields were found" = true := by decide
  have hcounts : ∀ a b c d : String, visible ("fields " ++ a ++ b ++ c ++ d) := by
    intro a b c d
    rw [visible_append, visible_append, visible_append, visible_append, hfields, Bool.true_or,
      Bool.true_or, Bool.true_or, Bool.true_or]
  unfold censusFillEvaluator
  cases hcoverage : fill.coverage with
  | listed =>
    have hlisted : listedExemptions fill census = [] := by
      rw [listedExemptions, if_neg (by rw [hcoverage]; decide)]
    simp only [listedFill]
    split_ifs
    · refine ⟨fun r hr => ?_, hlisted.symm, fun n hn => by cases hn⟩
      obtain rfl := some.inj hr
      exact hcounts _ _ _ _
    · refine ⟨fun r hr => ?_, hlisted.symm, fun n hn => by cases hn⟩
      obtain rfl := some.inj hr
      rw [visible_append, visible_append, hcounts, Bool.true_or, Bool.true_or]
  | allEligible =>
    cases census with
    | none =>
      refine ⟨fun r hr => ?_, ?_, fun n hn => by cases hn⟩
      · obtain rfl := some.inj hr
        exact hunavailable
      · rw [listedExemptions, if_pos hcoverage]
        rfl
    | some census =>
      simp only
      split_ifs
      · exact judges_withExemptions hcoverage census _ hincomplete
      · exact judges_withExemptions hcoverage census _ hleft
      · exact judges_withExemptions hcoverage census _ hnone
      · exact judges_withExemptions hcoverage census _ (hcounts _ _ _ _)
      · exact judges_withExemptions hcoverage census _ (hcounts _ _ _ _)

/-! ## Terms of a run -/

/-- The terms are dated by revisions, and request each scope once. -/
structure EffectiveActionTerms.Dated (t : EffectiveActionTerms) : Prop where
  fill : ∀ f, t.fill = some f → 1 ≤ f.declaredIn
  artifacts : ∀ a ∈ t.artifacts, 1 ≤ a.declaredIn
  submit : ∀ d, t.submit = .forbidden d → 1 ≤ d
  scopes : (t.artifacts.map ArtifactTerm.scope).Nodup

lemma mem_revisions_step {command : AgenticCommand} {s : TaskContractStore} {d : Declaration}
    {r : Revision} (h : r ∈ ((contractStore command).step s d).revisions) :
    r ∈ s.revisions ∨ (1 ≤ r.revision ∧ r.contract = d.body) := by
  simp only [contractStore, TaskContractStore.append] at h
  split_ifs at h
  · exact .inl h
  · exact .inl h
  · rcases mem_append.1 h with h | h
    · exact .inl h
    · obtain rfl := mem_singleton.1 h
      exact .inr ⟨Nat.le_add_left 1 _, rfl⟩
  · exact .inl h

lemma mem_revisions_run {command : AgenticCommand} {ds : List Declaration} {r : Revision}
    (h : r ∈ ((contractStore command).run ds).revisions) :
    1 ≤ r.revision ∧ ∃ d ∈ ds, r.contract = d.body := by
  have hrun : ∀ (ds : List Declaration) (s : TaskContractStore),
      r ∈ ((contractStore command).runFrom s ds).revisions →
        r ∈ s.revisions ∨ (1 ≤ r.revision ∧ ∃ d ∈ ds, r.contract = d.body) := by
    intro ds
    induction ds with
    | nil => exact fun s h => .inl h
    | cons d ds ih =>
      intro s h
      rcases ih _ h with hstep | ⟨hpos, d', hd', heq⟩
      · rcases mem_revisions_step hstep with hs | ⟨hpos, heq⟩
        · exact .inl hs
        · exact .inr ⟨hpos, d, mem_cons_self, heq⟩
      · exact .inr ⟨hpos, d', mem_cons_of_mem _ hd', heq⟩
  exact (hrun ds _ h).resolve_left not_mem_nil

lemma nodup_scopes (revisions : List Revision) :
    ((effectiveActionTermsOf revisions).artifacts.map ArtifactTerm.scope).Nodup := by
  have hkeys : (termsFoldOf revisions).artifacts.keys =
      ((termsFoldOf revisions).artifacts.values.map ArtifactTerm.scope).map
        (artifactKey .screenshot) := by
    rw [OrderedMap.keys, OrderedMap.values, List.map_map, List.map_map]
    refine map_congr_left fun entry hentry => ?_
    have hget := ((termsFoldOf revisions).artifacts.get?_eq_some_iff entry.1 entry.2).2 hentry
    exact termsFoldOf_keyed revisions entry.1 entry.2 hget
  have hnodup : (termsFoldOf revisions).artifacts.keys.Nodup :=
    (termsFoldOf revisions).artifacts.nodup
  rw [hkeys] at hnodup
  exact hnodup.of_map _

lemma dated_run (command : AgenticCommand) (ds : List Declaration) :
    ((contractStore command).run ds).effectiveActionTerms.Dated := by
  have hpos : ∀ r ∈ ((contractStore command).run ds).revisions, 1 ≤ r.revision :=
    fun r hr => (mem_revisions_run hr).1
  have hspec := termsSpec_effectiveActionTermsOf (numbered_run command ds).1
  unfold TaskContractStore.effectiveActionTerms
  split_ifs
  · exact ⟨fun f hf => (by cases hf), fun a ha => absurd ha not_mem_nil,
      fun d hd => (by cases hd), nodup_nil⟩
  · refine ⟨fun f hf => ?_, fun a ha => ?_, fun d hd => ?_, nodup_scopes _⟩
    · obtain ⟨r, hr, hdate, -⟩ := hspec.fill.declared f hf
      exact hdate ▸ hpos r hr
    · obtain ⟨r, hr, hdate⟩ := map_eq_some_iff.1 ((hspec.artifacts a).1 ha)
      exact hdate ▸ hpos r (mem_of_find?_eq_some hr)
    · have hsubmit := hspec.submit
      rw [hd] at hsubmit
      cases hfind : ((contractStore command).run ds).revisions.find? Revision.forbids with
      | none =>
        rw [hfind] at hsubmit
        cases hsubmit
      | some r =>
        rw [hfind] at hsubmit
        obtain rfl := SubmitTerm.forbidden.inj hsubmit
        exact hpos r (mem_of_find?_eq_some hfind)

/-! ## Requirements that fit -/

/-- What the requirements of a publication need to fit the schema of the Brief: the filters have
names that can stand in an id, the gaps of a table show something, nothing that is shown has an
escape byte, and every exempt control that is listed is called something. -/
structure RequirementsFit (pf : Platform) (contract : TaskContractBody)
    (terms : EffectiveActionTerms) (e : PublicationEvidence) : Prop where
  keys : ∀ filter ∈ contract.filters, KeyFits (shownKey pf filter.name)
  gaps : contract.deliverable = .table → e.deliverableGaps ≠ [] →
    JsText.visible ("; ".intercalate e.deliverableGaps) = true
  escapes : ∀ item ∈ (declaredItems pf (e.input pf (some contract) terms) contract).take
      briefMaxRequirements,
    noAnsi (bound item.label maxLabel) = true ∧
      ∀ r, item.reason = some r → noAnsi (bound r maxReason) = true
  exempt : ∀ fill census, terms.fill = some fill → fill.coverage = .allEligible →
    e.census = some census → ∀ control ∈ (exemptUnits [] census.controls).take maxExemptions,
      JsText.visible control.shownAs = true ∧ noAnsi (bound control.shownAs maxLabel) = true

def SubmitTerm.declaredIn : SubmitTerm → Option ℕ
  | .forbidden declaredIn => some declaredIn
  | .allowed => none

/-- The items that are neither the deliverable nor filters. -/
def actionItems (input : FulfillmentInput) : List RequirementStatus :=
  (input.terms.fill.map (fillItem input)).toList ++
    (input.terms.artifacts.map (artifactItem input) ++
      (input.terms.submit.declaredIn.map (submitItem input)).toList)

lemma declaredItems_eq (input : FulfillmentInput) (contract : TaskContractBody) :
    declaredItems pf input contract =
      (deliverableItem pf input contract ::
        contract.filters.map fun filter => filterItem pf filter input.constraints) ++
          actionItems input := by
  simp only [declaredItems, actionItems, List.append_assoc, cons_append]
  cases input.terms.submit <;> rfl

lemma ids_actionItems {input : FulfillmentInput} (hdated : input.terms.Dated) :
    ((actionItems input).map RequirementStatus.id).Nodup ∧
      ∀ id ∈ (actionItems input).map RequirementStatus.id,
        id ∈ fixedIds ∧ id ≠ "deliverable" := by
  have hids : (actionItems input).map RequirementStatus.id =
      (input.terms.fill.map fun _ => "fill").toList ++
        ((input.terms.artifacts.map ArtifactTerm.scope).map artifactRequirementId ++
          (input.terms.submit.declaredIn.map fun _ => "effects.submit").toList) := by
    rw [actionItems, map_append, map_append, List.map_map, List.map_map]
    congr 1
    · cases input.terms.fill <;> rfl
    · congr 1
      cases input.terms.submit.declaredIn <;> rfl
  have hscope : ∀ scope, artifactRequirementId scope ∈ fixedIds ∧
      artifactRequirementId scope ≠ "deliverable" ∧ artifactRequirementId scope ≠ "fill" ∧
        artifactRequirementId scope ≠ "effects.submit" := by
    intro scope
    cases scope <;> decide
  have hinj : Injective artifactRequirementId := by
    intro a b hab
    revert hab
    cases a <;> cases b <;> decide
  have hartifact : ∀ id ∈ (input.terms.artifacts.map ArtifactTerm.scope).map artifactRequirementId,
      id ∈ fixedIds ∧ id ≠ "deliverable" ∧ id ≠ "fill" ∧ id ≠ "effects.submit" := by
    intro id hid
    obtain ⟨scope, -, rfl⟩ := List.mem_map.1 hid
    exact hscope scope
  have hfill : ∀ id ∈ (input.terms.fill.map fun _ => "fill").toList, id = "fill" := by
    intro id hid
    obtain ⟨fill, -, rfl⟩ := map_eq_some_iff.1 (mem_toList.1 hid)
    rfl
  have hsubmit : ∀ id ∈ (input.terms.submit.declaredIn.map fun _ => "effects.submit").toList,
      id = "effects.submit" := by
    intro id hid
    obtain ⟨d, -, rfl⟩ := map_eq_some_iff.1 (mem_toList.1 hid)
    rfl
  have htoList : ∀ o : Option String, o.toList.Nodup := by
    intro o
    cases o with
    | none => exact nodup_nil
    | some id => exact nodup_singleton id
  rw [hids]
  constructor
  · refine nodup_append'.2 ⟨htoList _, nodup_append'.2
      ⟨hdated.scopes.map hinj, htoList _, fun id hid hid' => ?_⟩, fun id hid hid' => ?_⟩
    · exact (hartifact id hid).2.2.2 (hsubmit id hid')
    · rcases mem_append.1 hid' with hid' | hid'
      · exact (hartifact id hid').2.2.1 (hfill id hid)
      · exact absurd ((hfill id hid).symm.trans (hsubmit id hid')) (by decide)
  · intro id hid
    rcases mem_append.1 hid with hid | hid
    · rw [hfill id hid]
      decide
    · rcases mem_append.1 hid with hid | hid
      · exact ⟨(hartifact id hid).1, (hartifact id hid).2.1⟩
      · rw [hsubmit id hid]
        decide

lemma length_distinctIds (seen ids : List String) :
    (distinctIds seen ids).length = ids.length := by
  induction ids generalizing seen with
  | nil => rfl
  | cons own ids ih => rw [distinctIds, length_cons, length_cons, ih]

lemma take_briefMaxRequirements {α : Type} {as bs : List α} (h : as.length ≤ briefMaxRequirements) :
    (as ++ bs).take briefMaxRequirements = as ++ bs.take (briefMaxRequirements - as.length) := by
  rw [take_append, take_of_length_le h]

lemma ids_fit_iff {input : FulfillmentInput} {contract : TaskContractBody}
    (hdated : input.terms.Dated) (hfilters : contract.filters.length ≤ 12) :
    (∀ id ∈ (distinctIds [] ((declaredItems pf input contract).map
        RequirementStatus.id)).take briefMaxRequirements, matchesRequirementIdPattern id) ↔
      ∀ filter ∈ contract.filters, KeyFits (shownKey pf filter.name) := by
  obtain ⟨hnodup, hfixed⟩ := ids_actionItems hdated
  have hids : (declaredItems pf input contract).map RequirementStatus.id =
      "deliverable" :: ((contract.filters.map ContractFilter.name).map
        fun name => "filter:" ++ shownKey pf name) ++ (actionItems input).map
          RequirementStatus.id := by
    have hdeliverable : (deliverableItem pf input contract).id = "deliverable" := rfl
    have hkeys : (contract.filters.map fun filter =>
        filterItem pf filter input.constraints).map RequirementStatus.id =
        (contract.filters.map ContractFilter.name).map
          fun name => "filter:" ++ shownKey pf name := by
      rw [List.map_map, List.map_map]
      refine map_congr_left fun filter _ => ?_
      rw [comp_apply, comp_apply, filterItem_id]
    rw [declaredItems_eq, map_append, map_cons, hdeliverable, hkeys]
  rw [hids, distinctIds_declared pf hnodup (fun id hid => (hfixed id hid).1)
    fun hmem => (hfixed _ hmem).2 rfl]
  have hlen : ("deliverable" :: distinctIds ["deliverable"]
      ((contract.filters.map ContractFilter.name).map
        fun name => "filter:" ++ shownKey pf name)).length ≤ briefMaxRequirements := by
    rw [length_cons, length_distinctIds, List.length_map, List.length_map]
    exact (Nat.add_le_add_right hfilters 1).trans (by decide)
  have hseen : ∀ id ∈ ["deliverable"], id ∈ fixedIds := by decide
  have hkeys := @matches_distinctIds_iff pf _ (contract.filters.map ContractFilter.name) hseen
    (by rw [List.length_map, List.length_singleton]; omega)
  rw [List.forall_mem_map] at hkeys
  rw [take_briefMaxRequirements hlen, ← hkeys]
  constructor
  · intro h id hid
    exact h id (mem_append_left _ (mem_cons_of_mem _ hid))
  · intro h id hid
    rcases mem_append.1 hid with hid | hid
    · rcases mem_cons.1 hid with rfl | hid
      · decide
      · exact h id hid
    · exact matches_of_mem_fixedIds (hfixed id (mem_of_mem_take hid)).1

def RequirementStatus.NoEscapes (item : RequirementStatus) : Prop :=
  noAnsi (bound item.label maxLabel) = true ∧
    ∀ r, item.reason = some r → noAnsi (bound r maxReason) = true

/-- The schema accepts what an item says where it says something and nothing of it is an escape
byte, if it is dated and counts its exemptions. -/
lemma bodyFits_iff {item : RequirementStatus} (hdeclared : ∀ n, item.declaredIn = some n → 1 ≤ n)
    (hlisted : (item.exemptions.getD []).length ≤ briefMaxExemptions)
    (hoverflow : ∀ n, item.exemptOverflow = some n → 1 ≤ n) :
    item.bodyFits ↔ item.Shows ∧ item.NoEscapes ∧
      ∀ x ∈ item.exemptions.getD [], briefText 120 x.1 := by
  have hdeclared' : item.declaredIn.all (fun n => decide (1 ≤ n)) = true := by
    rw [Option.all_eq_true]
    exact fun n hn => decide_eq_true (hdeclared n hn)
  have hoverflow' : item.exemptOverflow.all (fun n => decide (1 ≤ n)) = true := by
    rw [Option.all_eq_true]
    exact fun n hn => decide_eq_true (hoverflow n hn)
  have hexemptions : item.exemptions.all (fun es => es.all (fun e => briefText 120 e.1) &&
      decide (es.length ≤ briefMaxExemptions)) = true ↔
        ∀ x ∈ item.exemptions.getD [], briefText 120 x.1 := by
    cases hcase : item.exemptions with
    | none => simp
    | some es =>
      rw [hcase, getD_some] at hlisted
      rw [all_some, decide_eq_true hlisted, Bool.and_true, List.all_eq_true,
        getD_some]
  have hreason : item.reason.all (fun r => briefText 200 (bound r maxReason)) = true ↔
      ∀ r, item.reason = some r →
        visible r ∧ noAnsi (bound r maxReason) := by
    have hbound : ∀ r, briefText 200 (bound r maxReason) =
        (visible r && noAnsi (bound r maxReason)) := fun r => briefText_bound (by decide)
    simp only [Option.all_eq_true, hbound, and_eq_true]
  have hlabel : briefText 120 (bound item.label maxLabel) =
      (visible item.label && noAnsi (bound item.label maxLabel)) :=
    briefText_bound (by decide)
  rw [bodyFits, hdeclared', hoverflow', hlabel, Bool.and_true, Bool.and_true,
    and_eq_true, and_eq_true, and_eq_true, hreason, hexemptions]
  constructor
  · rintro ⟨⟨⟨hvisible, hclean⟩, hreasons⟩, hexempt⟩
    exact ⟨⟨hvisible, fun r hr => (hreasons r hr).1⟩, ⟨hclean, fun r hr => (hreasons r hr).2⟩, hexempt⟩
  · rintro ⟨hshows, hclean, hexempt⟩
    exact ⟨⟨⟨hshows.label, hclean.1⟩, fun r hr => ⟨hshows.reason r hr, hclean.2 r hr⟩⟩, hexempt⟩

/-- The exemptions of a fill are accepted where each listed control is called something and nothing
of it is an escape byte. -/
lemma listedExemptions_fit_iff (fill : FillTerm) (census : Option FillCensus) :
    (∀ x ∈ listedExemptions fill census, briefText 120 x.1) ↔
      ∀ c, fill.coverage = .allEligible → census = some c →
        ∀ control ∈ (exemptUnits [] c.controls).take maxExemptions,
          visible control.shownAs ∧ noAnsi (bound control.shownAs maxLabel) := by
  have hcontrols : ∀ c : FillCensus, (∀ x ∈ (exemptControls [] c.controls).take maxExemptions,
        briefText 120 x.1) ↔
      ∀ control ∈ (exemptUnits [] c.controls).take maxExemptions,
        visible control.shownAs ∧
          noAnsi (bound control.shownAs maxLabel) := by
    intro c
    have hbound : ∀ text, briefText 120 (bound text maxLabel) =
        (visible text && noAnsi (bound text maxLabel)) := fun text =>
      briefText_bound (by decide)
    rw [← List.forall_mem_map (f := fst) (P := fun label => briefText 120 label = true),
      map_take, map_fst_exemptControls, ← map_take, List.forall_mem_map]
    simp only [hbound, and_eq_true]
  by_cases hall : fill.coverage = .allEligible
  · rw [listedExemptions, if_pos hall]
    cases census with
    | none => simp
    | some c =>
      rw [map_some, getD_some, hcontrols]
      exact ⟨fun h c' _ hc' => some.inj hc' ▸ h, fun h => h c hall rfl⟩
  · rw [listedExemptions, if_neg hall]
    exact ⟨fun _ _ hall' => absurd hall' hall, fun _ x hx => absurd hx not_mem_nil⟩

lemma fillItem_shows {input : FulfillmentInput} {fill : FillTerm} {census : Option FillCensus}
    (h : (input.evaluateFill fill input.ledger).Judges fill census) :
    (fillItem input fill).Shows := by
  have hfill : visible "fill " = true := by decide
  have hall : visible "fill all eligible fields" = true := by decide
  refine ⟨?_, h.reason⟩
  have hlabel : (fillItem input fill).label = renderFillPhrase fill := rfl
  rw [hlabel]
  unfold renderFillPhrase
  cases fill.coverage with
  | allEligible => exact hall
  | listed =>
    simp only [visible_append, hfill, Bool.true_or]

/-- What the schema accepts of a declared item: where it says something, nothing of it is an escape
byte, and its exemptions are accepted; an item that is neither the deliverable nor the fill always
says something and lists no exemption. -/
lemma bodyFits_declared {contract : TaskContractBody} {terms : EffectiveActionTerms}
    (hdated : terms.Dated) (e : PublicationEvidence) {item : RequirementStatus}
    (hitem : item ∈ declaredItems pf (e.input pf (some contract) terms) contract) :
    item.bodyFits ↔ item.Shows ∧ item.NoEscapes ∧
      ∀ x ∈ item.exemptions.getD [], briefText 120 x.1 := by
  rw [declaredItems_eq, mem_append, mem_cons, List.mem_map, actionItems, mem_append,
    mem_append, mem_toList, mem_toList, List.mem_map] at hitem
  have hplain : ∀ item : RequirementStatus, item.exemptions = none → item.exemptOverflow = none →
      (∀ n, item.declaredIn = some n → 1 ≤ n) →
      (item.bodyFits ↔ item.Shows ∧ item.NoEscapes ∧
        ∀ x ∈ item.exemptions.getD [], briefText 120 x.1) := by
    intro item hexempt hover hdeclared
    refine bodyFits_iff hdeclared ?_ ?_
    · rw [hexempt]
      exact Nat.zero_le _
    · rw [hover]
      intro n hn
      cases hn
  rcases hitem with (rfl | ⟨filter, -, rfl⟩) | hfill | ⟨artifact, hartifact, rfl⟩ | hsubmit
  · exact hplain _ rfl rfl fun n hn => (by cases hn)
  · exact hplain _ rfl rfl fun n hn => (by cases hn)
  · obtain ⟨fill, hterm, rfl⟩ := map_eq_some_iff.1 hfill
    have hjudges := judges_censusFillEvaluator pf e.census fill e.ledger
    refine bodyFits_iff (fun n hn => ?_) ?_ hjudges.overflow
    · exact some.inj hn ▸ hdated.fill fill hterm
    · have hlisted : (fillItem (e.input pf (some contract) terms) fill).exemptions.getD [] =
          listedExemptions fill e.census := hjudges.exemptions
      rw [hlisted, listedExemptions]
      split_ifs
      · cases e.census with
        | none => exact Nat.zero_le _
        | some c => exact length_take_le _ _
      · exact Nat.zero_le _
  · exact hplain _ rfl rfl fun n hn => some.inj hn ▸ hdated.artifacts artifact hartifact
  · obtain ⟨d, hd, rfl⟩ := map_eq_some_iff.1 hsubmit
    refine hplain _ rfl rfl fun n hn => some.inj hn ▸ hdated.submit d ?_
    revert hd
    have hterms : (e.input pf (some contract) terms).terms = terms := rfl
    rw [hterms]
    cases terms.submit with
    | allowed =>
      intro hd
      cases hd
    | forbidden d' => exact fun hd => congrArg SubmitTerm.forbidden (some.inj hd)

lemma shows_declared {contract : TaskContractBody} {terms : EffectiveActionTerms}
    (e : PublicationEvidence) {item : RequirementStatus}
    (hitem : item ∈ declaredItems pf (e.input pf (some contract) terms) contract) :
    item = deliverableItem pf (e.input pf (some contract) terms) contract ∨ item.Shows := by
  rw [declaredItems_eq, mem_append, mem_cons, List.mem_map, actionItems, mem_append,
    mem_append, mem_toList, mem_toList, List.mem_map] at hitem
  rcases hitem with (rfl | ⟨filter, -, rfl⟩) | hfill | ⟨artifact, -, rfl⟩ | hsubmit
  · exact .inl rfl
  · exact .inr (filterItem_shows pf filter _)
  · obtain ⟨fill, -, rfl⟩ := map_eq_some_iff.1 hfill
    exact .inr (fillItem_shows (judges_censusFillEvaluator pf e.census fill e.ledger))
  · exact .inr (artifactItem_shows _ artifact)
  · obtain ⟨d, -, rfl⟩ := map_eq_some_iff.1 hsubmit
    exact .inr (submitItem_shows _ d)

lemma exemptions_declared {contract : TaskContractBody} {terms : EffectiveActionTerms}
    (e : PublicationEvidence) {item : RequirementStatus}
    (hitem : item ∈ declaredItems pf (e.input pf (some contract) terms) contract) :
    item.exemptions.getD [] = [] ∨ ∃ fill, terms.fill = some fill ∧
      item.exemptions.getD [] = listedExemptions fill e.census := by
  rw [declaredItems_eq, mem_append, mem_cons, List.mem_map, actionItems, mem_append,
    mem_append, mem_toList, mem_toList, List.mem_map] at hitem
  rcases hitem with (rfl | ⟨filter, -, rfl⟩) | hfill | ⟨artifact, -, rfl⟩ | hsubmit
  · exact .inl rfl
  · exact .inl rfl
  · obtain ⟨fill, hterm, rfl⟩ := map_eq_some_iff.1 hfill
    exact .inr ⟨fill, hterm, (judges_censusFillEvaluator pf e.census fill e.ledger).exemptions⟩
  · exact .inl rfl
  · obtain ⟨d, -, rfl⟩ := map_eq_some_iff.1 hsubmit
    exact .inl rfl

lemma mem_take_declaredItems {input : FulfillmentInput} {contract : TaskContractBody}
    (hfilters : contract.filters.length ≤ 12) :
    deliverableItem pf input contract ∈
        (declaredItems pf input contract).take briefMaxRequirements ∧
      ∀ fill, input.terms.fill = some fill →
        fillItem input fill ∈ (declaredItems pf input contract).take briefMaxRequirements := by
  have hlen : (deliverableItem pf input contract :: contract.filters.map fun filter =>
      filterItem pf filter input.constraints).length ≤ 13 := by
    rw [length_cons, List.length_map]
    omega
  rw [declaredItems_eq, take_briefMaxRequirements (hlen.trans (by decide))]
  refine ⟨mem_append_left _ mem_cons_self, fun fill hfill => ?_⟩
  refine mem_append_right _ ?_
  have hpos : 0 < briefMaxRequirements - (deliverableItem pf input contract ::
      contract.filters.map fun filter => filterItem pf filter input.constraints).length :=
    Nat.sub_pos_of_lt (lt_of_le_of_lt hlen (by decide))
  obtain ⟨k, hk⟩ := Nat.exists_eq_succ_of_ne_zero (Nat.pos_iff_ne_zero.1 hpos)
  rw [hk, actionItems, hfill]
  exact mem_cons_self

/-- The schema accepts the requirements of an evaluation exactly when they fit it.

**Proof sketch.** The ids match exactly when the keys of the filters fit (`ids_fit_iff`), and the
rest of an item is accepted where it says something without an escape byte and its exemptions are
accepted (`bodyFits_declared`). Only the deliverable of a table can say nothing
(`shows_declared`, `deliverableItem_shows`), only the fill lists exemptions. -/
lemma requirementsFit_iff (pf : Platform) {contract : TaskContractBody}
    (hfilters : contract.filters.length ≤ 12) {terms : EffectiveActionTerms} (hdated : terms.Dated)
    (e : PublicationEvidence) :
    requirementsSchemaValid (toBriefRequirements
        (evaluateFulfillment pf (e.input pf (some contract) terms))) = true ↔
      RequirementsFit pf contract terms e := by
  have hdeclared : ∀ item ∈ (declaredItems pf (e.input pf (some contract) terms) contract).take
      briefMaxRequirements,
      item ∈ declaredItems pf (e.input pf (some contract) terms) contract :=
    fun item hitem => mem_of_mem_take hitem
  obtain ⟨hdeliverable, hfill⟩ :=
    @mem_take_declaredItems pf (e.input pf (some contract) terms) contract hfilters
  rw [requirementsSchemaValid_eq pf rfl, ids_fit_iff pf hdated hfilters]
  constructor
  · rintro ⟨hkeys, hbodies⟩
    have hbody := fun item hitem =>
      (bodyFits_declared pf hdated e (hdeclared item hitem)).1 (hbodies item hitem)
    refine ⟨hkeys, ?_, fun item hitem => (hbody item hitem).2.1, ?_⟩
    · exact (deliverableItem_shows pf _ contract).1 (hbody _ hdeliverable).1
    · intro fill census hterm hall hcensus
      have hexempt := (hbody _ (hfill fill hterm)).2.2
      have hlisted : (fillItem (e.input pf (some contract) terms) fill).exemptions.getD [] =
          listedExemptions fill e.census :=
        (judges_censusFillEvaluator pf e.census fill e.ledger).exemptions
      rw [hlisted] at hexempt
      exact (listedExemptions_fit_iff fill e.census).1 hexempt census hall hcensus
  · intro h
    refine ⟨h.keys, fun item hitem => ?_⟩
    refine (bodyFits_declared pf hdated e (hdeclared item hitem)).2
      ⟨?_, h.escapes item hitem, ?_⟩
    · rcases shows_declared pf e (hdeclared item hitem) with rfl | hshows
      · exact (deliverableItem_shows pf _ contract).2 h.gaps
      · exact hshows
    · rcases exemptions_declared pf e (hdeclared item hitem) with hnil | ⟨fill, hterm, hlisted⟩
      · rw [hnil]
        exact fun x hx => absurd hx not_mem_nil
      · rw [hlisted]
        exact (listedExemptions_fit_iff fill e.census).2 fun census hall hcensus =>
          h.exempt fill census hterm hall hcensus

/-- **Requirements of a publication.** In every run whose declarations the schema of the contract
accepts, the schema of the Brief accepts the requirements of a publication exactly when the filters
have names that can stand in an id, the gaps of a table show something, nothing that is shown has
an escape byte, and every exempt control that is listed is called something. -/
theorem requirementsSchemaValid_iff (pf : Platform) (command : AgenticCommand)
    (ds : List Declaration) (hvalid : ∀ d ∈ ds, d.body.schemaValid pf = true)
    (e : PublicationEvidence) {evaluation : FulfillmentEvaluation}
    (hevaluation : evaluatePublication pf ((contractStore command).run ds) e = some evaluation) :
    requirementsSchemaValid (toBriefRequirements evaluation) = true ↔
      ∀ contract, ((contractStore command).run ds).current = some contract →
        RequirementsFit pf contract ((contractStore command).run ds).effectiveActionTerms e := by
  have hdated := dated_run command ds
  unfold evaluatePublication at hevaluation
  split_ifs at hevaluation
  obtain rfl := Option.some.inj hevaluation
  cases hcurrent : ((contractStore command).run ds).current with
  | none =>
    refine iff_of_true ?_ fun contract hcontract => (by cases hcontract)
    have hnone : evaluateFulfillment pf (e.input pf none
        ((contractStore command).run ds).effectiveActionTerms) = ⟨[], 0, 0, false, none⟩ := rfl
    rw [hnone]
    decide
  | some contract =>
    have hfilters : contract.filters.length ≤ 12 := by
      obtain ⟨r, hlast, rfl⟩ := Option.map_eq_some_iff.1 hcurrent
      obtain ⟨-, d, hd, heq⟩ := mem_revisions_run (List.mem_of_getLast? hlast)
      rw [heq]
      exact TaskContractBody.schemaValid_filters (hvalid d hd)
    rw [requirementsFit_iff pf hfilters hdated e]
    exact ⟨fun h contract' heq => Option.some.inj heq ▸ h, fun h => h contract rfl⟩

def formDeclaration (filters : List ContractFilter) : Declaration where
  body :=
    { deliverable := .actions
      subject := "the form"
      filters := filters
      fill := some ⟨.allEligible, none⟩ }
  declaredAt := "2026-01-01T00:00:00Z"
  written := true

def formEvidence (label : String) : PublicationEvidence where
  deliverableGaps := []
  constraints := []
  ledger := [.fillCommitted ⟨1, some 0, "example.com"⟩ "e1" "name" none []]
  claimedMet := some true
  captureGap := fun _ => none
  census := some ⟨some 0, true, [⟨"e1", none, "name", none⟩, ⟨"e2", none, label, some .disabled⟩]⟩

/-- The schema of the contract accepts both declarations, and the schema of the Brief refuses the
requirements of both: where the label of the exempt control is a space, and where the name of a
filter is. -/
theorem blank_names_refused :
    ((formDeclaration []).body.schemaValid asciiPlatform = true ∧
      (evaluatePublication asciiPlatform ((contractStore .do).run [formDeclaration []])
        (formEvidence " ")).map (fun evaluation =>
          requirementsSchemaValid (toBriefRequirements evaluation)) = some false) ∧
    (formDeclaration [⟨" ", "yes"⟩]).body.schemaValid asciiPlatform = true ∧
      (evaluatePublication asciiPlatform
        ((contractStore .do).run [formDeclaration [⟨" ", "yes"⟩]]) (formEvidence "phone")).map
          (fun evaluation => requirementsSchemaValid (toBriefRequirements evaluation)) =
            some false := by
  decide +kernel

/-- With a label and a name that say something, the requirements fit. -/
theorem requirementsFit_form :
    RequirementsFit asciiPlatform (formDeclaration [⟨"color", "red"⟩]).body
      ((contractStore .do).run [formDeclaration [⟨"color", "red"⟩]]).effectiveActionTerms
      (formEvidence "phone") :=
  (requirementsSchemaValid_iff asciiPlatform .do [formDeclaration [⟨"color", "red"⟩]]
    (by decide +kernel) (formEvidence "phone") rfl).1 (by decide +kernel) _ rfl

end Yantra
