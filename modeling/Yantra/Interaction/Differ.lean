import Mathlib.Data.Multiset.AddSub
import Yantra.Lib.OrderedMap

/-!
# The keyed differ

`diffKeyed` compares two collections as multisets under one identity policy, the key.

## Main definitions

* `bucket` — entries grouped by key.
* `diffKeyed` — the difference of two collections.

## Main results

* `diffKeyed_spec` — the counts are those of the multiset differences of the keys, and the
  samples are as long as the bound lets them be.
-/

namespace Yantra

open List Option

universe u

variable {T : Type u} {κ : Type u} [DecidableEq κ]

/-! ## Comparing -/

structure KeyedDiff (T : Type u) where
  appeared : List T
  vanished : List T
  changed : List (T × T)
  appearedCount : ℕ
  vanishedCount : ℕ
  sampleTruncated : Bool

/-- `KeyedDiffOptions`; without a bound the samples are complete. -/
structure KeyedDiffOptions (T : Type u) (κ : Type u) where
  key : T → κ
  changed : Option (T → T → Bool)
  sampleCap : Option ℕ

def bucket (key : T → κ) (entries : List T) : OrderedMap κ (List T) :=
  entries.foldl (fun buckets entry =>
    buckets.set (key entry) ((buckets.get? (key entry)).getD [] ++ [entry])) OrderedMap.empty

/-- One side of a difference as it is counted. -/
structure Surplus (T : Type u) where
  sample : List T
  count : ℕ
  truncated : Bool

/-- Name an entry if the bound lets it. -/
def Surplus.push (cap : Option ℕ) (s : Surplus T) (entry : T) : Surplus T :=
  if cap.all fun n => s.sample.length < n then { s with sample := s.sample ++ [entry] }
  else { s with truncated := true }

/-- Count the entries of a key that the other side has not. -/
def Surplus.add (cap : Option ℕ) (s : Surplus T) (surplus : List T) : Surplus T :=
  surplus.foldl (Surplus.push cap) { s with count := s.count + surplus.length }

/-- The surplus of one side: of every key, the entries behind as many as the other side has. -/
def surplusOf (cap : Option ℕ) (mine other : OrderedMap κ (List T)) : Surplus T :=
  mine.entries.foldl (fun s entry =>
    s.add cap (entry.2.drop ((other.get? entry.1).getD []).length)) ⟨[], 0, false⟩

def changedPairs (changed : T → T → Bool) (before after : OrderedMap κ (List T)) : List (T × T) :=
  after.entries.flatMap fun entry =>
    (((before.get? entry.1).getD []).zip entry.2).filter fun pair => changed pair.1 pair.2

def diffKeyed (before after : List T) (options : KeyedDiffOptions T κ) : KeyedDiff T :=
  let beforeBuckets := bucket options.key before
  let afterBuckets := bucket options.key after
  let appeared := surplusOf options.sampleCap afterBuckets beforeBuckets
  let vanished := surplusOf options.sampleCap beforeBuckets afterBuckets
  { appeared := appeared.sample
    vanished := vanished.sample
    changed := (options.changed.map fun changed =>
      changedPairs changed beforeBuckets afterBuckets).getD []
    appearedCount := appeared.count
    vanishedCount := vanished.count
    sampleTruncated := appeared.truncated || vanished.truncated }

/-! ## Buckets -/

variable (key : T → κ)

lemma get?_bucket (entries : List T) (k : κ) :
    ((bucket key entries).get? k).getD [] = entries.filter fun entry => key entry = k := by
  have hfold : ∀ (m : OrderedMap κ (List T)),
      ((entries.foldl (fun buckets entry =>
        buckets.set (key entry) ((buckets.get? (key entry)).getD [] ++ [entry])) m).get? k).getD [] =
      (m.get? k).getD [] ++ entries.filter fun entry => key entry = k := by
    induction entries with
    | nil => simp
    | cons e es ih =>
      intro m
      rw [foldl_cons, ih, OrderedMap.get?_set]
      by_cases hk : key e = k
      · simp [hk]
      · simp [hk]
  simpa [bucket] using hfold OrderedMap.empty

lemma key_of_mem_bucket (entries : List T) :
    ∀ e ∈ (bucket key entries).entries, ∀ x ∈ e.2, key x = e.1 := by
  intro e he x hx
  have hget : (bucket key entries).get? e.1 = some e.2 :=
    (OrderedMap.get?_eq_some_iff _ _ _).2 he
  have hfilter := get?_bucket key entries e.1
  rw [hget, getD_some] at hfilter
  rw [hfilter, mem_filter] at hx
  exact of_decide_eq_true hx.2

/-! ## What is counted and what is named -/

def surplusList (mine other : OrderedMap κ (List T)) : List T :=
  mine.entries.flatMap fun entry => entry.2.drop ((other.get? entry.1).getD []).length

omit [DecidableEq κ] in
lemma Surplus.foldl_push {cap : Option ℕ} {named : List T} {s : Surplus T} (surplus : List T)
    (h : s.sample = cap.elim named named.take) :
    (surplus.foldl (Surplus.push cap) s).count = s.count ∧
      (surplus.foldl (Surplus.push cap) s).sample =
        cap.elim (named ++ surplus) (named ++ surplus).take := by
  induction surplus generalizing named s with
  | nil => simpa using h
  | cons x xs ih =>
    have hpush : (Surplus.push cap s x).count = s.count ∧
        (Surplus.push cap s x).sample = cap.elim (named ++ [x]) (named ++ [x]).take := by
      rw [Surplus.push]
      cases cap with
      | none =>
        exact ⟨rfl, congrArg (· ++ [x]) h⟩
      | some n =>
        rw [Option.elim_some] at h
        simp only [Option.all_some, decide_eq_true_eq, h, List.length_take, Option.elim_some]
        split_ifs with hroom
        · refine ⟨rfl, ?_⟩
          rw [List.take_of_length_le (by omega), List.take_of_length_le]
          rw [List.length_append, List.length_singleton]
          omega
        · exact ⟨rfl, (List.take_append_of_le_length (by omega)).symm⟩
    rw [List.foldl_cons, ← hpush.1, ← List.singleton_append, ← List.append_assoc]
    exact ih hpush.2

lemma surplusOf_eq (cap : Option ℕ) (mine other : OrderedMap κ (List T)) :
    (surplusOf cap mine other).count = (surplusList mine other).length ∧
      (surplusOf cap mine other).sample =
        cap.elim (surplusList mine other) (surplusList mine other).take := by
  have hfold : ∀ (es : List (κ × List T)) (named : List T) (s : Surplus T),
      s.count = named.length → s.sample = cap.elim named named.take →
      let all := named ++ es.flatMap fun entry =>
        entry.2.drop ((other.get? entry.1).getD []).length
      let s' := es.foldl (fun s entry =>
        s.add cap (entry.2.drop ((other.get? entry.1).getD []).length)) s
      s'.count = all.length ∧ s'.sample = cap.elim all all.take := by
    intro es
    induction es with
    | nil => intro named s hcount hsample; simpa using ⟨hcount, hsample⟩
    | cons e es ih =>
      intro named s hcount hsample
      obtain ⟨hadded, hnamed⟩ := Surplus.foldl_push
        (s := { s with
          count := s.count + (e.2.drop ((other.get? e.1).getD []).length).length })
        (e.2.drop ((other.get? e.1).getD []).length) hsample
      rw [flatMap_cons, ← append_assoc, foldl_cons]
      refine ih _ _ ?_ hnamed
      rw [Surplus.add, hadded, length_append, hcount]
  exact hfold mine.entries [] ⟨[], 0, false⟩ rfl (by cases cap <;> simp)

lemma countP_flatMap_drop {key : T → κ} {es : List (κ × List T)} (hnodup : (es.map Prod.fst).Nodup)
    (hkey : ∀ e ∈ es, ∀ x ∈ e.2, key x = e.1) (n : κ → ℕ) (k : κ) :
    (es.flatMap fun e => e.2.drop (n e.1)).countP (fun x => key x = k) =
      ((OrderedMap.lookup k es).getD []).length - n k := by
  induction es with
  | nil => simp [OrderedMap.lookup]
  | cons e es ih =>
    rw [map_cons, nodup_cons] at hnodup
    obtain ⟨hhead, htail⟩ := forall_mem_cons.1 hkey
    rw [flatMap_cons, countP_append, ih hnodup.2 htail, OrderedMap.lookup]
    by_cases hk : e.1 = k
    · have hnone : OrderedMap.lookup k es = none := by
        rw [← not_isSome_iff_eq_none, OrderedMap.lookup_isSome_iff, ← hk]
        exact hnodup.1
      have hall : (e.2.drop (n e.1)).countP (fun x => key x = k) = (e.2.drop (n e.1)).length :=
        countP_eq_length.2 fun x hx => by
          simpa [hk] using hhead x (drop_subset _ _ hx)
      rw [if_pos hk, hnone, hall, length_drop, hk]
      simp
    · have hall : (e.2.drop (n e.1)).countP (fun x => key x = k) = 0 :=
        countP_eq_zero.2 fun x hx => by
          simpa [hhead x (drop_subset _ _ hx)] using hk
      rw [if_neg hk, hall, Nat.zero_add]

/-- **The keys of the surplus are the multiset difference of the keys.** -/
theorem coe_surplusList (mine other : List T) :
    (((surplusList (bucket key mine) (bucket key other)).map key : List κ) : Multiset κ) =
      (mine.map key : List κ) - (other.map key : List κ) := by
  have hcount : ∀ (l : List T) (k : κ),
      (l.map key).count k = l.countP fun x => key x = k := by
    intro l k
    rw [List.count, countP_map]
    exact countP_congr fun x _ => by simp
  refine Multiset.ext.2 fun k => ?_
  rw [Multiset.count_sub, Multiset.coe_count, Multiset.coe_count, Multiset.coe_count, hcount,
    hcount, hcount, surplusList,
    countP_flatMap_drop (bucket key mine).nodup (key_of_mem_bucket key mine)
      (fun k => (((bucket key other).get? k).getD []).length)]
  change (((bucket key mine).get? k).getD []).length - _ = _
  rw [get?_bucket, get?_bucket, ← countP_eq_length_filter, ← countP_eq_length_filter]

/-- **The counts are those of the multiset differences of the keys,** and the samples are as long
as the bound lets them be. -/
theorem diffKeyed_spec (before after : List T) (options : KeyedDiffOptions T κ) :
    let diff := diffKeyed before after options
    let keysBefore : Multiset κ := (before.map options.key : List κ)
    let keysAfter : Multiset κ := (after.map options.key : List κ)
    diff.appearedCount = Multiset.card (keysAfter - keysBefore) ∧
      diff.vanishedCount = Multiset.card (keysBefore - keysAfter) ∧
      diff.appeared.length = options.sampleCap.elim diff.appearedCount (min · diff.appearedCount) ∧
      diff.vanished.length =
        options.sampleCap.elim diff.vanishedCount (min · diff.vanishedCount) := by
  have hside : ∀ mine other : List T,
      let s := surplusOf options.sampleCap (bucket options.key mine) (bucket options.key other)
      s.count = Multiset.card ((mine.map options.key : Multiset κ) -
        (other.map options.key : Multiset κ)) ∧
      s.sample.length = options.sampleCap.elim s.count (min · s.count) := by
    intro mine other s
    obtain ⟨hcount, hsample⟩ := surplusOf_eq options.sampleCap (bucket options.key mine)
      (bucket options.key other)
    refine ⟨?_, ?_⟩
    · rw [← coe_surplusList, Multiset.coe_card, length_map]
      exact hcount
    · change (surplusOf _ _ _).sample.length = _
      rw [hsample, hcount]
      cases options.sampleCap with
      | none => rfl
      | some n => exact length_take
  exact ⟨(hside after before).1, (hside before after).1, (hside after before).2,
    (hside before after).2⟩

end Yantra
