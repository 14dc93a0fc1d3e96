import Yantra.Lib.Json
import Yantra.Interaction.Differ

/-!
# What changed on the page between two frames

`fingerprintFromScan` counts the visible controls of a frame by identity key, `diffFingerprints`
compares two frames and says what changed, as far as the frames are comparable, and `boundDelta`
trims the result to a number of bytes.

## Main definitions

* `identityKey`, `fingerprintFromScan` — the fingerprint of a frame.
* `boundDelta`, `serializeDelta` — the difference within its bound.

## Main results

* `PageDelta.trimsTo_boundDelta` — trimming drops nothing but samples and dialog names.
* `coe_expand` — the fingerprint counts the controls by their keys.
-/

namespace Yantra

open Utf16 List Option

/-! ## Frames -/

def FINGERPRINT_MAX_ENTRIES : ℕ := 1000

def DELTA_DIALOG_CAP : ℕ := 5

def DELTA_SAMPLE_CAP : ℕ := 5

def IDENTITY_PART_MAX_CHARS : ℕ := 120

def DELTA_MAX_BYTES : ℕ := 2048

def UNIT_SEPARATOR : CodeUnit := 0x1F

structure OverlayIdentity where
  role : JsString
  name : JsString
  deriving DecidableEq

inductive ControlScope where
  | dialog | page
  deriving DecidableEq

def ControlScope.text : ControlScope → JsString
  | .dialog => units "dialog"
  | .page => units "page"

/-- `RawInteractable`, as far as a fingerprint reads it. -/
structure RawInteractable where
  role : JsString
  name : Option JsString
  group : Option JsString
  scope : ControlScope
  focused : Bool
  container : Option OverlayIdentity

structure ObservationFingerprint where
  epoch : Option JsString
  url : JsString
  title : JsString
  entries : OrderedMap JsString ℕ
  entryCount : ℕ
  truncated : Bool
  containers : OrderedMap JsString OverlayIdentity
  focus : Option JsString
  degraded : Bool

def clampPart (text : JsString) : JsString :=
  if IDENTITY_PART_MAX_CHARS < text.length then text.take IDENTITY_PART_MAX_CHARS else text

def identityKey (role : JsString) (name group : Option JsString) (scope : JsString) : JsString :=
  [UNIT_SEPARATOR].intercalate ([role, name.getD [], group.getD [], scope].map clampPart)

def RawInteractable.key (entry : RawInteractable) : JsString :=
  identityKey entry.role entry.name entry.group entry.scope.text

def overlayKey (identity : OverlayIdentity) : JsString :=
  identity.role ++ UNIT_SEPARATOR :: identity.name

def overlayFromKey (key : JsString) : OverlayIdentity :=
  let parts := key.splitOn UNIT_SEPARATOR
  { role := parts.getD 0 [], name := parts.getD 1 [] }

def countKey (entries : OrderedMap JsString ℕ) (key : JsString) : OrderedMap JsString ℕ :=
  entries.set key ((entries.get? key).getD 0 + 1)

/-- The container of a control, clamped and under its key. -/
def addContainer (containers : OrderedMap JsString OverlayIdentity) (entry : RawInteractable) :
    OrderedMap JsString OverlayIdentity :=
  match entry.container with
  | none => containers
  | some container =>
    let identity := { role := clampPart container.role, name := clampPart container.name }
    containers.set (overlayKey identity) identity

/-- `fingerprintFromScan`, completed with the epoch of the document. -/
def fingerprintFromScan (epoch : Option JsString) (url title : JsString)
    (ordered : List RawInteractable) (degraded : Bool) : ObservationFingerprint :=
  let counted := ordered.take FINGERPRINT_MAX_ENTRIES
  { epoch, url, title, degraded
    entries := counted.foldl (fun entries entry => countKey entries entry.key) OrderedMap.empty
    entryCount := ordered.length
    truncated := FINGERPRINT_MAX_ENTRIES < ordered.length
    containers := counted.foldl addContainer OrderedMap.empty
    focus := counted.foldl (fun focus entry => if entry.focused then some entry.key else focus)
      none }

/-! ## Differences -/

/-- `DeltaIncompleteReason`, in the order of `INCOMPLETE_ORDER`. -/
inductive DeltaIncompleteReason where
  | documentReplaced | fingerprintTruncated | scanDegraded
  deriving DecidableEq

def DeltaIncompleteReason.text : DeltaIncompleteReason → JsString
  | .documentReplaced => units "document-replaced"
  | .fingerprintTruncated => units "fingerprint-truncated"
  | .scanDegraded => units "scan-degraded"

structure DeltaElementChange where
  count : ℕ
  sample : Option (List OverlayIdentity)
  sampleTruncated : Bool
  deriving DecidableEq

structure TextChange where
  before : JsString
  after : JsString
  deriving DecidableEq

structure FocusMove where
  before : Option OverlayIdentity
  after : Option OverlayIdentity
  deriving DecidableEq

/-- `PageDelta`; `complete: false` goes with the reasons. -/
structure PageDelta where
  urlChanged : Option TextChange := none
  titleChanged : Option TextChange := none
  dialogsOpened : Option (List OverlayIdentity) := none
  dialogsClosed : Option (List OverlayIdentity) := none
  elementsAppeared : Option DeltaElementChange := none
  elementsVanished : Option DeltaElementChange := none
  focusMoved : Option FocusMove := none
  incomplete : List DeltaIncompleteReason := []
  deriving DecidableEq

def incompleteReasons (before after : ObservationFingerprint) : List DeltaIncompleteReason :=
  (if before.epoch ≠ after.epoch then [.documentReplaced] else []) ++
    (if before.truncated || after.truncated then [.fingerprintTruncated] else []) ++
    if before.degraded || after.degraded then [.scanDegraded] else []

def expand (entries : OrderedMap JsString ℕ) : List JsString :=
  entries.entries.flatMap fun entry => List.replicate entry.2 entry.1

def missingFrom (left right : OrderedMap JsString OverlayIdentity) : List OverlayIdentity :=
  (right.entries.filter fun entry => !left.has entry.1).map Prod.snd

def elementChange (count : ℕ) (sample : List JsString) : Option DeltaElementChange :=
  if count = 0 then none
  else
    let named := sample.map overlayFromKey
    some { count
           sample := if 0 < named.length then some named else none
           sampleTruncated := named.length < count }

def cappedDialogs (dialogs : List OverlayIdentity) : Option (List OverlayIdentity) :=
  if 0 < dialogs.length then some (dialogs.take DELTA_DIALOG_CAP) else none

def textChange (before after : JsString) : Option TextChange :=
  if before ≠ after then some { before, after } else none

/-- What `diffFingerprints` says before it is trimmed. -/
def untrimmedDelta (before after : ObservationFingerprint) : PageDelta :=
  let reasons := incompleteReasons before after
  let elementsComparable := !reasons.contains .documentReplaced &&
    !reasons.contains .fingerprintTruncated && !reasons.contains .scanDegraded
  let focusComparable := !reasons.contains .documentReplaced && !reasons.contains .scanDegraded
  let dialogsComparable := !reasons.contains .scanDegraded
  let diff := diffKeyed (expand before.entries) (expand after.entries)
    { key := id, changed := none, sampleCap := some DELTA_SAMPLE_CAP }
  { urlChanged := textChange before.url after.url
    titleChanged := textChange before.title after.title
    dialogsOpened := if dialogsComparable then
      cappedDialogs (missingFrom before.containers after.containers) else none
    dialogsClosed := if dialogsComparable then
      cappedDialogs (missingFrom after.containers before.containers) else none
    elementsAppeared := if elementsComparable then
      elementChange diff.appearedCount diff.appeared else none
    elementsVanished := if elementsComparable then
      elementChange diff.vanishedCount diff.vanished else none
    focusMoved := if focusComparable && before.focus != after.focus then
      some { before := before.focus.map overlayFromKey, after := after.focus.map overlayFromKey }
      else none
    incomplete := reasons }

/-! ## Bounds -/

def OverlayIdentity.toJson (identity : OverlayIdentity) : Json.Value :=
  .object [(units "role", .string identity.role), (units "name", .string identity.name)]

def identitiesJson (identities : List OverlayIdentity) : Json.Value :=
  .array (identities.map OverlayIdentity.toJson)

def TextChange.toJson (change : TextChange) : Json.Value :=
  .object [(units "from", .string change.before), (units "to", .string change.after)]

/-- A member that is left out when there is nothing to say. -/
def member {α : Type} (key : String) (toJson : α → Json.Value) (value : Option α) :
    List (JsString × Json.Value) :=
  (value.map fun a => (units key, toJson a)).toList

def DeltaElementChange.toJson (change : DeltaElementChange) : Json.Value :=
  .object ((units "count", .number (.ofNat change.count)) ::
    (member "sample" identitiesJson change.sample ++
      if change.sampleTruncated then [(units "sample_truncated", .bool true)] else []))

def FocusMove.toJson (move : FocusMove) : Json.Value :=
  .object (member "from" OverlayIdentity.toJson move.before ++
    member "to" OverlayIdentity.toJson move.after)

/-- The completeness marker as it is serialized. -/
def incompleteMembers (reasons : List DeltaIncompleteReason) : List (JsString × Json.Value) :=
  if reasons.isEmpty then []
  else [(units "complete", .bool false),
    (units "incomplete", .array (reasons.map fun reason => .string reason.text))]

def PageDelta.members (delta : PageDelta) : List (JsString × Json.Value) :=
  member "url_changed" TextChange.toJson delta.urlChanged ++
    (member "title_changed" TextChange.toJson delta.titleChanged ++
    (member "dialogs_opened" identitiesJson delta.dialogsOpened ++
    (member "dialogs_closed" identitiesJson delta.dialogsClosed ++
    (member "elements_appeared" DeltaElementChange.toJson delta.elementsAppeared ++
    (member "elements_vanished" DeltaElementChange.toJson delta.elementsVanished ++
    (member "focus_moved" FocusMove.toJson delta.focusMoved ++
      incompleteMembers delta.incomplete))))))

/-- `JSON.stringify(delta)` -/
def PageDelta.stringify (delta : PageDelta) : JsString := Json.stringify (.object delta.members)

def PageDelta.bytes (delta : PageDelta) : ℕ := Utf8.byteLength delta.stringify

def fits (delta : PageDelta) : Bool := delta.bytes ≤ DELTA_MAX_BYTES

/-- `stripSample` of a side: its count stays. -/
def DeltaElementChange.stripSample (change : DeltaElementChange) : DeltaElementChange :=
  if change.sample.isNone then change
  else { count := change.count, sample := none, sampleTruncated := true }

def PageDelta.stripVanished (delta : PageDelta) : PageDelta :=
  { delta with elementsVanished := delta.elementsVanished.map DeltaElementChange.stripSample }

def PageDelta.stripAppeared (delta : PageDelta) : PageDelta :=
  { delta with elementsAppeared := delta.elementsAppeared.map DeltaElementChange.stripSample }

/-- A list of dialogs without its last; an empty one is left out. -/
def dropDialog (list : List OverlayIdentity) : Option (List OverlayIdentity) :=
  if 0 < list.dropLast.length then some list.dropLast else none

inductive DialogSide where
  | closed | opened
  deriving DecidableEq

def PageDelta.dialogs (delta : PageDelta) : DialogSide → Option (List OverlayIdentity)
  | .closed => delta.dialogsClosed
  | .opened => delta.dialogsOpened

def PageDelta.withDialogs (delta : PageDelta) (list : Option (List OverlayIdentity)) :
    DialogSide → PageDelta
  | .closed => { delta with dialogsClosed := list }
  | .opened => { delta with dialogsOpened := list }

/-- The loop over the dialogs of a side: drop the last until the delta fits. -/
def trimSide (side : DialogSide) : ℕ → PageDelta → PageDelta
  | 0, current => current
  | rounds + 1, current =>
    match current.dialogs side with
    | none => current
    | some list =>
      let trimmed := current.withDialogs (dropDialog list) side
      if fits trimmed then trimmed else trimSide side rounds trimmed

def boundDelta (delta : PageDelta) : PageDelta :=
  if fits delta then delta
  else
    let current := delta.stripVanished
    if fits current then current
    else
      let current := current.stripAppeared
      if fits current then current
      else
        let current := trimSide .closed ((current.dialogs .closed).getD []).length current
        if fits current then current
        else trimSide .opened ((current.dialogs .opened).getD []).length current

def diffFingerprints (before after : ObservationFingerprint) : PageDelta :=
  boundDelta (untrimmedDelta before after)

/-- `serializeDelta`; a delta beyond the bound throws. -/
def serializeDelta (delta : PageDelta) : Option JsString :=
  if DELTA_MAX_BYTES < delta.bytes then none else some delta.stringify

/-! ## What trimming leaves -/

def DeltaElementChange.Stripped (change stripped : Option DeltaElementChange) : Prop :=
  stripped = change ∨ stripped = change.map DeltaElementChange.stripSample

/-- What trimming leaves: all but samples and dialog names. -/
structure PageDelta.TrimsTo (delta trimmed : PageDelta) : Prop where
  urlChanged : trimmed.urlChanged = delta.urlChanged
  titleChanged : trimmed.titleChanged = delta.titleChanged
  focusMoved : trimmed.focusMoved = delta.focusMoved
  incomplete : trimmed.incomplete = delta.incomplete
  appeared : DeltaElementChange.Stripped delta.elementsAppeared trimmed.elementsAppeared
  vanished : DeltaElementChange.Stripped delta.elementsVanished trimmed.elementsVanished
  opened : trimmed.dialogsOpened.getD [] <+: delta.dialogsOpened.getD []
  closed : trimmed.dialogsClosed.getD [] <+: delta.dialogsClosed.getD []

lemma DeltaElementChange.stripSample_stripSample (change : DeltaElementChange) :
    change.stripSample.stripSample = change.stripSample := by
  by_cases h : change.sample.isNone
  · have hself : change.stripSample = change := if_pos h
    rw [hself, hself]
  · have hstrip : change.stripSample =
        { count := change.count, sample := none, sampleTruncated := true } := if_neg h
    rw [hstrip]
    rfl

namespace PageDelta

variable (delta : PageDelta)

lemma TrimsTo.refl : delta.TrimsTo delta :=
  ⟨rfl, rfl, rfl, rfl, .inl rfl, .inl rfl, prefix_refl _, prefix_refl _⟩

lemma stripped_trans {change stripped again : Option DeltaElementChange}
    (h : DeltaElementChange.Stripped change stripped)
    (h' : DeltaElementChange.Stripped stripped again) :
    DeltaElementChange.Stripped change again := by
  obtain rfl | rfl := h
  · exact h'
  · refine .inr ?_
    obtain rfl | rfl := h'
    · rfl
    · rw [Option.map_map]
      congr 1
      exact funext fun change => change.stripSample_stripSample

lemma TrimsTo.trans {delta trimmed again : PageDelta} (h : delta.TrimsTo trimmed)
    (h' : trimmed.TrimsTo again) : delta.TrimsTo again where
  urlChanged := h'.urlChanged.trans h.urlChanged
  titleChanged := h'.titleChanged.trans h.titleChanged
  focusMoved := h'.focusMoved.trans h.focusMoved
  incomplete := h'.incomplete.trans h.incomplete
  appeared := stripped_trans h.appeared h'.appeared
  vanished := stripped_trans h.vanished h'.vanished
  opened := h'.opened.trans h.opened
  closed := h'.closed.trans h.closed

lemma trimsTo_stripVanished : delta.TrimsTo delta.stripVanished :=
  { TrimsTo.refl delta with vanished := .inr rfl }

lemma trimsTo_stripAppeared : delta.TrimsTo delta.stripAppeared :=
  { TrimsTo.refl delta with appeared := .inr rfl }

lemma dropDialog_getD (list : List OverlayIdentity) : (dropDialog list).getD [] = list.dropLast := by
  rw [dropDialog]
  split_ifs with h
  · rfl
  · exact (length_eq_zero_iff.1 (by omega)).symm

lemma trimsTo_dropDialog {delta : PageDelta} {list : List OverlayIdentity} {side : DialogSide}
    (h : delta.dialogs side = some list) :
    delta.TrimsTo (delta.withDialogs (dropDialog list) side) := by
  have hprefix : (dropDialog list).getD [] <+: (delta.dialogs side).getD [] := by
    rw [dropDialog_getD, h]
    exact dropLast_prefix _
  cases side with
  | closed => exact { TrimsTo.refl delta with closed := hprefix }
  | opened => exact { TrimsTo.refl delta with opened := hprefix }

lemma trimsTo_trimSide (side : DialogSide) (rounds : ℕ) (delta : PageDelta) :
    delta.TrimsTo (trimSide side rounds delta) := by
  induction rounds generalizing delta with
  | zero => exact .refl delta
  | succ rounds ih =>
    rw [trimSide]
    cases hside : delta.dialogs side with
    | none => exact .refl delta
    | some list =>
      dsimp only
      split_ifs
      · exact trimsTo_dropDialog hside
      · exact (trimsTo_dropDialog hside).trans (ih _)

/-- **Trimming drops nothing but samples and dialog names.** -/
theorem trimsTo_boundDelta : delta.TrimsTo (boundDelta delta) := by
  have hvanished := trimsTo_stripVanished delta
  have happeared := hvanished.trans (trimsTo_stripAppeared _)
  have hclosed := happeared.trans (trimsTo_trimSide .closed
    ((delta.stripVanished.stripAppeared.dialogs .closed).getD []).length _)
  rw [boundDelta]
  dsimp only
  split_ifs
  · exact .refl delta
  · exact hvanished
  · exact happeared
  · exact hclosed
  · exact hclosed.trans (trimsTo_trimSide _ _ _)

end PageDelta

/-! ## Fingerprints as multisets -/

section Counts

variable {κ : Type} [DecidableEq κ]

lemma count_replicates (entries : OrderedMap κ ℕ) (key : κ) :
    Multiset.count key
        (entries.entries.flatMap fun entry => replicate entry.2 entry.1 : Multiset κ) =
      (entries.get? key).getD 0 := by
  obtain ⟨entries, hnodup⟩ := entries
  rw [Multiset.coe_count, OrderedMap.get?]
  induction entries with
  | nil => rfl
  | cons e es ih =>
    rw [map_cons, nodup_cons] at hnodup
    rw [flatMap_cons, count_append, ih hnodup.2, OrderedMap.lookup, count_replicate]
    by_cases hk : e.1 = key
    · have hnone : OrderedMap.lookup key es = none := by
        rw [← not_isSome_iff_eq_none, OrderedMap.lookup_isSome_iff, ← hk]
        exact hnodup.1
      simp [hk, hnone]
    · simp [hk]

lemma getD_foldl_count (keys : List κ) (entries : OrderedMap κ ℕ) (key : κ) :
    ((keys.foldl (fun entries k => entries.set k ((entries.get? k).getD 0 + 1)) entries).get?
        key).getD 0 =
      (entries.get? key).getD 0 + Multiset.count key (keys : Multiset κ) := by
  rw [Multiset.coe_count]
  induction keys generalizing entries with
  | nil => rfl
  | cons k ks ih =>
    rw [foldl_cons, ih, OrderedMap.get?_set, count_cons]
    by_cases hk : k = key
    · simp [hk]
      omega
    · simp [hk]

end Counts

/-- **The fingerprint counts the controls by their keys.** -/
lemma coe_expand (epoch : Option JsString) (url title : JsString) (ordered : List RawInteractable)
    (degraded : Bool) :
    ((expand (fingerprintFromScan epoch url title ordered degraded).entries : List JsString) :
      Multiset JsString) =
      ((ordered.take FINGERPRINT_MAX_ENTRIES).map RawInteractable.key : List JsString) := by
  refine Multiset.ext.2 fun key => ?_
  have hfold := getD_foldl_count ((ordered.take FINGERPRINT_MAX_ENTRIES).map RawInteractable.key)
    OrderedMap.empty key
  rw [foldl_map] at hfold
  refine (count_replicates _ key).trans (hfold.trans (Nat.zero_add _))

end Yantra
