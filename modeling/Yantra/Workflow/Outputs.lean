import Mathlib.Data.String.Basic
import Yantra.Executor.Stores

/-!
# The outputs of a run, and restoring its captures

After a run its output expressions are evaluated over a snapshot of the captures, and a resumed run
restores its captures from one. A snapshot has a stub `{ $ref: key }` in the place of a large
capture, and restoring takes every object with a `$ref` text for a stub. The expression language is
a parameter.

## Main definitions

* `OutputPlatform` — the expression language.
* `OutputsFaithful` — outputs are values over the captures the run stored, or errors.

## Main results

* `captures_kept_iff` — faithful outputs and restored captures, exactly when no capture is
  large or looks like a stub.
-/

namespace Yantra

open List Option String Prod

/-! ## Evaluating outputs -/

/-- When an output is kept. -/
inductive Retention where
  | transient | persisted
  deriving DecidableEq, Repr

/-- `OutputBinding` of a replay: an output with its expression. -/
structure OutputExpression where
  name : String
  expression : String
  retention : Retention
  deriving DecidableEq, Repr

structure EvaluatedOutputs where
  persisted : OrderedMap String Value := OrderedMap.empty
  transient : OrderedMap String Value := OrderedMap.empty
  errors : List (String × String) := []

/-- The `jsonata` package. -/
structure OutputPlatform where
  /-- The message `jsonata(expression)` throws, if it does. -/
  compileError : String → Option String
  /-- The evaluation over captures and params, raced against the timeout: a value, `none` for
  `undefined`, or the message it is rejected with. -/
  evaluate : String → OrderedMap String Value → OrderedMap String Value →
    Except String (Option Value)

def MAX_RESULT_BYTES : Nat := 102400

def evalExpression (pf : OutputPlatform) (expression : String)
    (captures params : OrderedMap String Value) : Except String (Option Value) :=
  match pf.compileError expression with
  | some message => .error ("Invalid JSONata expression: " ++ message)
  | none =>
    match pf.evaluate expression captures params with
    | .error message => .error message
    | .ok none => .ok none
    | .ok (some value) =>
      let byteSize := value.stringify.utf8ByteSize
      if MAX_RESULT_BYTES < byteSize then
        .error ("Result size (" ++ toString byteSize ++ " bytes) exceeds the " ++
          toString MAX_RESULT_BYTES ++ "-byte cap.")
      else .ok (some value)

def EvaluatedOutputs.record (outputs : EvaluatedOutputs) (binding : OutputExpression) :
    Except String (Option Value) → EvaluatedOutputs
  | .error error => { outputs with errors := outputs.errors ++ [(binding.name, error)] }
  | .ok none => outputs
  | .ok (some value) =>
    match binding.retention with
    | .persisted => { outputs with persisted := outputs.persisted.set binding.name value }
    | .transient => { outputs with transient := outputs.transient.set binding.name value }

/-- `evaluateOutputs`, the bindings in the order their evaluations finish. -/
def evaluateOutputs (pf : OutputPlatform) (captures params : OrderedMap String Value)
    (bindings : List OutputExpression) : EvaluatedOutputs :=
  bindings.foldl (fun outputs binding =>
    outputs.record binding (evalExpression pf binding.expression captures params)) {}

def runOutputs (pf : OutputPlatform) (captures : CaptureStore) (params : OrderedMap String Value)
    (bindings : List OutputExpression) : EvaluatedOutputs :=
  evaluateOutputs pf captures.snapshot.entries params bindings

def EvaluatedOutputs.kept (outputs : EvaluatedOutputs) : Retention → OrderedMap String Value
  | .persisted => outputs.persisted
  | .transient => outputs.transient

/-- Every output is the value, over the captures the run stored, of an expression declared for it;
and every declared output that has a value there, or fails there, is reported: as an output or as an
error. -/
structure OutputsFaithful (pf : OutputPlatform) (captures : CaptureStore)
    (params : OrderedMap String Value) (bindings : List OutputExpression)
    (outputs : EvaluatedOutputs) : Prop where
  sound : ∀ retention name value, (outputs.kept retention).get? name = some value →
    ∃ b ∈ bindings, b.name = name ∧ b.retention = retention ∧
      evalExpression pf b.expression captures params = .ok (some value)
  reported : ∀ b ∈ bindings, evalExpression pf b.expression captures params ≠ .ok none →
    (∃ error, (b.name, error) ∈ outputs.errors) ∨
      (outputs.kept b.retention).has b.name ∧
        ∃ value, evalExpression pf b.expression captures params = .ok (some value)

variable {params : OrderedMap String Value} {pf : OutputPlatform}

lemma OutputsFaithful.record {captures : CaptureStore} {bindings : List OutputExpression}
    {outputs : EvaluatedOutputs} (h : OutputsFaithful pf captures params bindings outputs)
    (binding : OutputExpression) :
    OutputsFaithful pf captures params (bindings ++ [binding])
      (outputs.record binding (evalExpression pf binding.expression captures params)) := by
  have hmem : binding ∈ bindings ++ [binding] := mem_append_right _ mem_cons_self
  have hsound : ∀ retention name value, (outputs.kept retention).get? name = some value →
      ∃ b ∈ bindings ++ [binding], b.name = name ∧ b.retention = retention ∧
        evalExpression pf b.expression captures params = .ok (some value) := by
    intro retention name value hget
    obtain ⟨b, hb, hrest⟩ := h.sound retention name value hget
    exact ⟨b, mem_append_left _ hb, hrest⟩
  generalize heval : evalExpression pf binding.expression captures params = result
  cases result with
  | error error =>
    refine ⟨hsound, fun b hb hne => ?_⟩
    obtain hb | hb := mem_append.1 hb
    · obtain ⟨e, he⟩ | hkept := h.reported b hb hne
      · exact .inl ⟨e, mem_append_left _ he⟩
      · exact .inr hkept
    · rw [mem_singleton.1 hb]
      exact .inl ⟨error, mem_append_right _ mem_cons_self⟩
  | ok result =>
    cases result with
    | none =>
      refine ⟨hsound, fun b hb hne => ?_⟩
      obtain hb | hb := mem_append.1 hb
      · exact h.reported b hb hne
      · rw [mem_singleton.1 hb] at hne
        exact absurd heval hne
    | some value =>
      have hkept : ∀ retention, ((outputs.record binding (.ok (some value))).kept retention) =
          if binding.retention = retention then (outputs.kept retention).set binding.name value
          else outputs.kept retention := by
        intro retention
        cases hretention : binding.retention <;> cases retention <;>
          simp [EvaluatedOutputs.record, EvaluatedOutputs.kept, hretention]
      have herrors : (outputs.record binding (.ok (some value))).errors = outputs.errors := by
        cases hretention : binding.retention <;> simp [EvaluatedOutputs.record, hretention]
      refine ⟨fun retention name v hget => ?_, fun b hb hne => ?_⟩
      · rw [hkept] at hget
        split at hget
        next hretention =>
          rw [OrderedMap.get?_set] at hget
          split at hget
          next hname =>
            exact ⟨binding, hmem, hname, hretention, by rw [heval, ← some.inj hget]⟩
          next => exact hsound retention name v hget
        next => exact hsound retention name v hget
      · rw [herrors, hkept]
        obtain hb | hb := mem_append.1 hb
        · obtain he | ⟨hhas, hvalue⟩ := h.reported b hb hne
          · exact .inl he
          · refine .inr ⟨?_, hvalue⟩
            split
            next => exact OrderedMap.has_set_of_has value hhas
            next => exact hhas
        · rw [mem_singleton.1 hb, if_pos rfl]
          exact .inr ⟨by simp [OrderedMap.has], value, heval⟩

lemma outputsFaithful_evaluateOutputs (pf : OutputPlatform) (captures : CaptureStore)
    (params : OrderedMap String Value) (bindings : List OutputExpression) :
    OutputsFaithful pf captures params bindings
      (evaluateOutputs pf captures params bindings) := by
  induction bindings using reverseRecOn with
  | nil => exact ⟨fun retention => by cases retention <;> nofun, nofun⟩
  | append_singleton bindings binding ih =>
    rw [evaluateOutputs, foldl_append]
    exact ih.record binding

/-! ## Snapshots -/

/-- What a snapshot keeps of a capture. -/
def snapshotValue (limit : Nat) (key : String) (v : Value) : Value :=
  if exceedsInlineLimit limit v then refStub key else v

open OrderedMap

lemma entries_snapshot (c : CaptureStore) (limit : Nat) :
    (c.snapshot limit).entries = c.mapVal (snapshotValue limit) := by
  have hfold : ∀ (es : List (String × Value)) (snap : CaptureSnapshot),
      (es.foldl (fun snap kv =>
        if exceedsInlineLimit limit kv.2 then
          CaptureSnapshot.mk (snap.entries.set kv.1 (refStub kv.1)) (snap.sidecars.set kv.1 kv.1)
        else ⟨snap.entries.set kv.1 kv.2, snap.sidecars⟩) snap).entries =
      (es.map fun kv => (kv.1, snapshotValue limit kv.1 kv.2)).foldl (fun m e => m.set e.1 e.2)
        snap.entries := by
    intro es
    induction es with
    | nil => exact fun _ => rfl
    | cons kv es ih =>
      intro snap
      rw [foldl_cons, ih, map_cons, foldl_cons]
      congr 1
      unfold snapshotValue
      split <;> rfl
  unfold CaptureStore.snapshot
  rw [hfold]
  exact ofList_entries (c.mapVal (snapshotValue limit))

lemma get?_snapshot (c : CaptureStore) (limit : Nat) (key : String) :
    (c.snapshot limit).entries.get? key = (c.get? key).map (snapshotValue limit key) := by
  rw [entries_snapshot, get?_mapVal]

lemma get?_restore (snap : CaptureSnapshot) (key : String) :
    (CaptureStore.restore snap).get? key =
      (snap.entries.get? key).filter fun v => !isRefStub v := by
  have hfold : ∀ (es : List (String × Value)) (m : CaptureStore),
      es.foldl (fun c kv => if isRefStub kv.2 then c else c.set kv.1 kv.2) m =
      (es.filter fun kv => !isRefStub kv.2).foldl (fun m e => m.set e.1 e.2) m := by
    intro es
    induction es with
    | nil => exact fun _ => rfl
    | cons kv es ih =>
      intro m
      rw [foldl_cons, ih, filter_cons]
      cases isRefStub kv.2 <;> rfl
  have hnodup : ((snap.entries.entries.filter fun kv => !isRefStub kv.2).map fst).Nodup :=
    snap.entries.nodup.sublist (filter_sublist.map _)
  have hrestore : (CaptureStore.restore snap) =
      OrderedMap.ofList (snap.entries.entries.filter fun kv => !isRefStub kv.2) :=
    hfold _ _
  rw [hrestore]
  cases hget : snap.entries.get? key with
  | none =>
    have hnot : key ∉ snap.entries.keys := by
      rw [← has_iff_mem_keys, has, hget]
      exact Bool.false_ne_true
    exact get?_foldl_set_of_notMem fun hmem =>
      hnot ((filter_sublist.map fst).subset hmem)
  | some v =>
    have hmem := (get?_eq_some_iff _ _ _).1 hget
    cases hstub : isRefStub v with
    | false =>
      rw [Option.filter, hstub]
      exact get?_ofList_of_mem hnodup (mem_filter.2 ⟨hmem, by simp [hstub]⟩)
    | true =>
      rw [Option.filter, hstub]
      refine get?_foldl_set_of_notMem fun hin => ?_
      obtain ⟨⟨k, w⟩, hkw, rfl⟩ := List.mem_map.1 hin
      obtain ⟨hkw, hw⟩ := mem_filter.1 hkw
      have hsame := (get?_eq_some_iff _ _ _).2 hkw
      rw [some.inj (hget.symm.trans hsame)] at hstub
      simp [hstub] at hw

/-! ## What is kept -/

lemma isRefStub_refStub (key : String) : isRefStub (refStub key) = true := rfl

variable {c : CaptureStore}

lemma outputsFaithful_of_inline (pf : OutputPlatform)
    (h : ∀ key v, c.get? key = some v → exceedsInlineLimit defaultInlineLimitBytes v →
      v = refStub key)
    (params : OrderedMap String Value) (bindings : List OutputExpression) :
    OutputsFaithful pf c params bindings (runOutputs pf c params bindings) := by
  have hentries : c.snapshot.entries = c := by
    rw [entries_snapshot]
    refine OrderedMap.ext ?_
    refine (map_congr_left fun kv hkv => ?_).trans (List.map_id _)
    have hget := (get?_eq_some_iff c kv.1 kv.2).2 hkv
    unfold snapshotValue
    split
    next hlarge => exact Prod.ext rfl (h kv.1 kv.2 hget hlarge).symm
    next => rfl
  rw [runOutputs, hentries]
  exact outputsFaithful_evaluateOutputs pf c params bindings

lemma restored_iff (c : CaptureStore) (limit : Nat) :
    (∀ key, (CaptureStore.restore (c.snapshot limit)).get? key = c.get? key) ↔
      ∀ key v, c.get? key = some v → exceedsInlineLimit limit v = false ∧ isRefStub v = false := by
  constructor
  · intro hrestored key v hget
    have hkey := hrestored key
    rw [get?_restore, get?_snapshot, hget, map_some, filter_eq_some_iff] at hkey
    obtain ⟨hvalue, hstub⟩ := hkey
    cases hlarge : exceedsInlineLimit limit v with
    | false => exact ⟨rfl, by simpa using hstub⟩
    | true =>
      rw [snapshotValue, if_pos hlarge, some.injEq] at hvalue
      rw [← hvalue, isRefStub_refStub] at hstub
      cases hstub
  · intro hinline key
    rw [get?_restore, get?_snapshot]
    cases hget : c.get? key with
    | none => rfl
    | some v =>
      obtain ⟨hsmall, hstub⟩ := hinline key v hget
      rw [map_some, snapshotValue, hsmall, if_neg Bool.false_ne_true, Option.filter, hstub]
      rfl

/-- Outputs are faithful for all declared expressions and the captures are restored as they were,
exactly when no capture is over the inline limit and none is an object with a `$ref` text. -/
theorem captures_kept_iff (pf : OutputPlatform) (c : CaptureStore) :
    ((∀ params bindings, OutputsFaithful pf c params bindings (runOutputs pf c params bindings)) ∧
      ∀ key, (CaptureStore.restore c.snapshot).get? key = c.get? key) ↔
    ∀ key v, c.get? key = some v →
      exceedsInlineLimit defaultInlineLimitBytes v = false ∧ isRefStub v = false := by
  rw [restored_iff]
  refine ⟨And.right, fun hinline => ⟨fun params bindings => ?_, hinline⟩⟩
  refine outputsFaithful_of_inline pf (fun key v hget hlarge => ?_) params bindings
  rw [(hinline key v hget).1] at hlarge
  cases hlarge

/-! ## An output over a stub -/

def captureOutput (name path : String) : OutputExpression := ⟨name, path, .persisted⟩

open EvaluatedOutputs

lemma not_outputsFaithful_of_large {key path : String} {v : Value}
    (hcompile : pf.compileError path = none)
    (hpath : ∀ captures : CaptureStore,
      pf.evaluate path captures params = .ok (captures.get? key))
    (hget : c.get? key = some v) (hlarge : exceedsInlineLimit defaultInlineLimitBytes v)
    (hne : v ≠ refStub key) (hfits : (refStub key).stringify.utf8ByteSize ≤ MAX_RESULT_BYTES) :
    ¬ OutputsFaithful pf c params [captureOutput "out" path]
      (runOutputs pf c params [captureOutput "out" path]) := by
  intro hfaithful
  have heval : evalExpression pf path c.snapshot.entries params = .ok (some (refStub key)) := by
    simp only [evalExpression, hcompile, hpath, get?_snapshot, hget, map_some, snapshotValue,
      hlarge, if_true, if_neg (not_lt.2 hfits)]
  have hout : ((runOutputs pf c params [captureOutput "out" path]).kept .persisted).get? "out" =
      some (refStub key) := by
    simp only [runOutputs, evaluateOutputs, captureOutput, foldl_cons, foldl_nil, heval,
      record, kept, get?_set_self]
  obtain ⟨b, hb, -, -, hvalue⟩ := hfaithful.sound .persisted "out" _ hout
  rw [mem_singleton] at hb
  subst hb
  -- over the captures themselves the expression has the capture, or fails for its size
  simp only [captureOutput, evalExpression, hcompile, hpath, hget] at hvalue
  split at hvalue
  next => cases hvalue
  next => exact hne (some.inj (Except.ok.inj hvalue))

/-- An expression language of the one expression `capture.s1`. -/
def readsFirstCapture : OutputPlatform where
  compileError expression := if expression = "capture.s1" then none else some "not known"
  evaluate _ captures _ := .ok (captures.get? "s1")

/-- As many letters as one likes. -/
def letters (n : Nat) : Value := .str (String.ofList (List.replicate n 'a'))

lemma letters_exceed {limit n : Nat} (h : limit < n) :
    exceedsInlineLimit limit (letters n) := by
  have hescape : (List.replicate n 'a').flatMap Value.escapeChar = List.replicate n 'a' := by
    rw [flatMap_replicate, show Value.escapeChar 'a' = ['a'] by decide,
      flatten_replicate_singleton]
  have hlen : ∀ cs : List Char, cs.length ≤ utf8Len cs := by
    intro cs
    induction cs with
    | nil => exact le_rfl
    | cons c cs ih =>
      have := c.utf8Size_pos
      rw [utf8Len_cons, length_cons]
      omega
  have hletters := hlen (List.replicate n 'a')
  rw [List.length_replicate] at hletters
  rw [exceedsInlineLimit, decide_eq_true_eq, letters, Value.stringify, Value.quote,
    toList_ofList, hescape, utf8ByteSize_ofList, cons_append,
    utf8Len_cons, utf8Len_append]
  omega

def longCapture : CaptureStore := OrderedMap.empty.set "s1" (letters 70000)

theorem output_over_stub :
    ¬ OutputsFaithful readsFirstCapture longCapture OrderedMap.empty
      [captureOutput "out" "capture.s1"]
      (runOutputs readsFirstCapture longCapture OrderedMap.empty
        [captureOutput "out" "capture.s1"]) :=
  not_outputsFaithful_of_large rfl (fun _ => rfl) (OrderedMap.get?_set_self _ _ _)
    (letters_exceed (by decide)) nofun (by decide)

end Yantra
