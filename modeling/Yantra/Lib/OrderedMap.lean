import Mathlib.Algebra.GroupWithZero.Nat
import Mathlib.Data.List.Induction
import Mathlib.Data.List.Nodup

/-!
# Insertion-ordered maps

A finite map that remembers the order in which its keys were first set, as the `Map` of an
ECMAScript program does: setting a new key appends it, setting a known key replaces the value
in place. That keys are distinct is a field of the structure.

## Main definitions

* `OrderedMap` — the entries, with distinct keys.
* `OrderedMap.get?`, `OrderedMap.has`, `OrderedMap.set`, `OrderedMap.erase`, `OrderedMap.setNew`,
  `OrderedMap.ofList`, `OrderedMap.keys`, `OrderedMap.values`.

## Main results

* `OrderedMap.get?_set` — reading after a write.
* `OrderedMap.sum_values_set` — a map of counts, one of them raised.
-/

universe u v

/-- A finite map with its keys in insertion order. -/
@[ext] structure OrderedMap (κ : Type u) (α : Type v) where
  /-- The entries, oldest key first. -/
  entries : List (κ × α)
  /-- No key occurs twice. -/
  nodup : (entries.map Prod.fst).Nodup

namespace OrderedMap

open List Option Prod

variable {κ : Type u} {α : Type v} [DecidableEq κ]

/-- The value of key `k` in a list of entries. -/
def lookup (k : κ) : List (κ × α) → Option α
  | [] => none
  | (k', a) :: es => if k' = k then some a else lookup k es

/-- Write `k := a` into a list of entries: in place when `k` is there, else at the end. -/
def put (k : κ) (a : α) : List (κ × α) → List (κ × α)
  | [] => [(k, a)]
  | (k', b) :: es => if k' = k then (k', a) :: es else (k', b) :: put k a es

lemma lookup_isSome_iff (k : κ) (es : List (κ × α)) :
    (lookup k es).isSome ↔ k ∈ es.map fst := by
  induction es with
  | nil => simp [lookup]
  | cons e es ih =>
    by_cases h : e.1 = k
    · simp [lookup, h]
    · have hne : ¬ k = e.1 := fun hk => h hk.symm
      simp only [lookup, if_neg h, ih, map_cons, mem_cons, hne, false_or]

/-- Reading a list of entries after a write. -/
lemma lookup_put (k k' : κ) (a : α) (es : List (κ × α)) :
    lookup k' (put k a es) = if k = k' then some a else lookup k' es := by
  induction es with
  | nil => simp [put, lookup]
  | cons e es ih =>
    by_cases h : e.1 = k
    · subst h
      by_cases h' : e.1 = k'
      · simp [put, lookup, h']
      · simp [put, lookup, h']
    · by_cases h' : e.1 = k'
      · have hne : ¬ k = k' := fun hk => h (h'.trans hk.symm)
        simp only [put, if_neg h, lookup, if_pos h', if_neg hne]
      · simp [put, lookup, h, h', ih]

lemma map_fst_put (k : κ) (a : α) (es : List (κ × α)) :
    (put k a es).map fst =
      if k ∈ es.map fst then es.map fst else es.map fst ++ [k] := by
  induction es with
  | nil => simp [put]
  | cons e es ih =>
    by_cases h : e.1 = k
    · simp [put, h]
    · have hne : ¬ k = e.1 := fun hk => h hk.symm
      simp only [put, if_neg h, map_cons, ih, mem_cons, hne, false_or]
      split_ifs <;> rfl

variable {es : List (κ × α)}

lemma nodup_put (k : κ) (a : α) (h : (es.map fst).Nodup) :
    ((put k a es).map fst).Nodup := by
  rw [map_fst_put]
  split_ifs with hk
  · exact h
  · exact nodup_append.2 ⟨h, nodup_singleton k, fun x hx y hy => by
      rw [mem_singleton] at hy
      subst hy
      rintro rfl
      exact hk hx⟩

def empty : OrderedMap κ α := ⟨[], List.nodup_nil⟩

instance : Inhabited (OrderedMap κ α) := ⟨empty⟩

/-- The value of `k`, if any. -/
def get? (m : OrderedMap κ α) (k : κ) : Option α := lookup k m.entries

/-- Whether `k` has a value. -/
def has (m : OrderedMap κ α) (k : κ) : Bool := (m.get? k).isSome

/-- Set `k` to `a`. -/
def set (m : OrderedMap κ α) (k : κ) (a : α) : OrderedMap κ α :=
  ⟨put k a m.entries, nodup_put k a m.nodup⟩

/-- The keys, oldest first. -/
def keys (m : OrderedMap κ α) : List κ := m.entries.map Prod.fst

/-- The values, in the order of their keys. -/
def values (m : OrderedMap κ α) : List α := m.entries.map Prod.snd

@[simp] lemma get?_empty (k : κ) : (empty : OrderedMap κ α).get? k = none := rfl

@[simp] lemma has_empty (k : κ) : (empty : OrderedMap κ α).has k = false := rfl

/-- Reading after a write. -/
lemma get?_set (m : OrderedMap κ α) (k k' : κ) (a : α) :
    (m.set k a).get? k' = if k = k' then some a else m.get? k' :=
  lookup_put k k' a m.entries

@[simp] lemma get?_set_self (m : OrderedMap κ α) (k : κ) (a : α) :
    (m.set k a).get? k = some a := by simp [get?_set]

@[simp] lemma get?_set_of_ne (m : OrderedMap κ α) {k k' : κ} (a : α) (h : k ≠ k') :
    (m.set k a).get? k' = m.get? k' := by simp [get?_set, h]

variable {m : OrderedMap κ α} {k : κ} {a : α}

/-- What holds of every entry, and of the one that is written, holds of every entry after the
write. -/
lemma forall_get?_set {P : κ → α → Prop} (ha : P k a) (hm : ∀ k' b, m.get? k' = some b → P k' b) :
    ∀ k' b, (m.set k a).get? k' = some b → P k' b := by
  intro k' b hget
  by_cases hk : k = k'
  · subst hk
    rw [get?_set_self, some.injEq] at hget
    exact hget ▸ ha
  · rw [get?_set_of_ne m a hk] at hget
    exact hm k' b hget

lemma get?_set_of_get? {k k' : κ} {a b : α} (hget : m.get? k' = some b) (hsame : k = k' → a = b) :
    (m.set k a).get? k' = some b := by
  by_cases hk : k = k'
  · rw [← hk, get?_set_self, hsame hk]
  · rw [get?_set_of_ne m a hk, hget]

lemma has_set_of_has {k k' : κ} (a : α) (h : m.has k') :
    (m.set k a).has k' := by
  by_cases hk : k = k'
  · simp [has, hk]
  · simpa [has, get?_set_of_ne m a hk] using h

/-- A value read is an entry, and the only one of its key. -/
lemma get?_eq_some_iff (m : OrderedMap κ α) (k : κ) (a : α) :
    m.get? k = some a ↔ (k, a) ∈ m.entries := by
  obtain ⟨es, hes⟩ := m
  show lookup k es = some a ↔ (k, a) ∈ es
  induction es with
  | nil => simp [lookup]
  | cons e es ih =>
    obtain ⟨k', b⟩ := e
    rw [map_cons, nodup_cons] at hes
    by_cases h : k' = k
    · subst h
      have hnot : (k', a) ∉ es := fun hm => hes.1 (List.mem_map.2 ⟨_, hm, rfl⟩)
      simp only [lookup, if_true, some.injEq, mem_cons, Prod.mk.injEq, true_and,
        hnot, or_false, eq_comm]
    · have hne : ¬ k = k' := fun hk => h hk.symm
      simp only [lookup, if_neg h, ih hes.2, mem_cons, Prod.mk.injEq, hne, false_and,
        false_or]

lemma exists_get?_of_mem_values (h : a ∈ m.values) :
    ∃ k, m.get? k = some a := by
  obtain ⟨⟨k, b⟩, hmem, rfl⟩ := List.mem_map.1 h
  exact ⟨k, (m.get?_eq_some_iff k b).2 hmem⟩

lemma mem_values_of_get? (h : m.get? k = some a) :
    a ∈ m.values :=
  List.mem_map.2 ⟨(k, a), (m.get?_eq_some_iff k a).1 h, rfl⟩

/-- Change every value. -/
def mapVal {β : Type v} (f : κ → α → β) (m : OrderedMap κ α) : OrderedMap κ β :=
  ⟨m.entries.map fun e => (e.1, f e.1 e.2), by
    rw [List.map_map]
    exact m.nodup⟩

lemma get?_mapVal {β : Type v} (f : κ → α → β) (m : OrderedMap κ α) (k : κ) :
    (m.mapVal f).get? k = (m.get? k).map (f k) := by
  obtain ⟨es, hes⟩ := m
  show lookup k (es.map fun e => (e.1, f e.1 e.2)) = (lookup k es).map (f k)
  clear hes
  induction es with
  | nil => rfl
  | cons e es ih =>
    by_cases h : e.1 = k
    · subst h
      simp [lookup]
    · simp only [map_cons, lookup, if_neg h, ih]

lemma has_iff_mem_keys (m : OrderedMap κ α) (k : κ) : m.has k ↔ k ∈ m.keys :=
  lookup_isSome_iff k m.entries

lemma sum_put (k : κ) (n : Nat) (es : List (κ × Nat)) :
    ((put k ((lookup k es).getD 0 + n) es).map snd).sum = (es.map snd).sum + n := by
  induction es with
  | nil => simp [put, lookup]
  | cons e es ih =>
    by_cases h : e.1 = k
    · simp only [lookup, put, if_pos h, getD_some, map_cons, sum_cons]
      omega
    · simp only [lookup, put, if_neg h, map_cons, sum_cons, ih]
      omega

/-- Adding to one count adds to the sum of the counts. -/
lemma sum_values_set (m : OrderedMap κ Nat) (k : κ) (n : Nat) :
    (m.set k ((m.get? k).getD 0 + n)).values.sum = m.values.sum + n :=
  sum_put k n m.entries

/-- Remove `k`. -/
def erase (m : OrderedMap κ α) (k : κ) : OrderedMap κ α :=
  ⟨m.entries.filter fun e => e.1 ≠ k, m.nodup.sublist (List.filter_sublist.map Prod.fst)⟩

lemma lookup_filter_ne (k k' : κ) (es : List (κ × α)) :
    lookup k' (es.filter fun e => e.1 ≠ k) = if k = k' then none else lookup k' es := by
  induction es with
  | nil => simp [lookup]
  | cons e es ih =>
    by_cases he : e.1 = k
    · rw [filter_cons_of_neg (by simpa using he), ih]
      by_cases hk : k = k' <;> simp [lookup, he, hk]
    · rw [filter_cons_of_pos (by simpa using he), lookup, lookup, ih]
      by_cases hk : k = k'
      · simp [show e.1 ≠ k' from hk ▸ he, hk]
      · simp [hk]

lemma get?_erase (m : OrderedMap κ α) (k k' : κ) :
    (m.erase k).get? k' = if k = k' then none else m.get? k' :=
  lookup_filter_ne k k' m.entries

@[simp] lemma get?_erase_self (m : OrderedMap κ α) (k : κ) : (m.erase k).get? k = none := by
  simp [get?_erase]

@[simp] lemma get?_erase_of_ne (m : OrderedMap κ α) {k k' : κ} (h : k ≠ k') :
    (m.erase k).get? k' = m.get? k' := by simp [get?_erase, h]

/-- Set `k` to `a` unless it has a value: the first write wins. -/
def setNew (m : OrderedMap κ α) (k : κ) (a : α) : OrderedMap κ α :=
  if m.has k then m else m.set k a

lemma get?_setNew (m : OrderedMap κ α) (k k' : κ) (a : α) :
    (m.setNew k a).get? k' = (m.get? k').or (if k = k' then some a else none) := by
  unfold setNew has
  by_cases hk : k = k'
  · subst hk
    cases hget : m.get? k with
    | none => simp
    | some b => simp [hget]
  · split_ifs
    · simp
    · simp [get?_set_of_ne m a hk]

/-- The map of a list of entries, a later entry winning over an earlier one: `new Map(entries)`. -/
def ofList (es : List (κ × α)) : OrderedMap κ α := es.foldl (fun m e => m.set e.1 e.2) empty

/-- What is read after some entries were written is one of them, or was there before. -/
lemma get?_foldl_set (h : (es.foldl (fun m e => m.set e.1 e.2) m).get? k = some a) :
    (k, a) ∈ es ∨ m.get? k = some a := by
  induction es generalizing m with
  | nil => exact .inr h
  | cons e es ih =>
    rcases ih h with hmem | hget
    · exact .inl (mem_cons_of_mem e hmem)
    · by_cases hk : e.1 = k
      · subst hk
        rw [get?_set_self, some.injEq] at hget
        subst hget
        exact .inl mem_cons_self
      · exact .inr (by rwa [get?_set_of_ne m e.2 hk] at hget)

lemma get?_foldl_set_of_notMem (h : k ∉ es.map fst) :
    (es.foldl (fun m e => m.set e.1 e.2) m).get? k = m.get? k := by
  induction es generalizing m with
  | nil => rfl
  | cons e es ih =>
    rw [map_cons, mem_cons, not_or] at h
    rw [foldl_cons, ih h.2, get?_set_of_ne m e.2 fun hk => h.1 hk.symm]

lemma mem_of_get?_ofList (h : (ofList es).get? k = some a) : (k, a) ∈ es := by
  rcases get?_foldl_set h with hmem | hget
  · exact hmem
  · cases hget

/-- Writing an entry for a key gives it a value. -/
lemma exists_get?_foldl_set (h : (∃ a, m.get? k = some a) ∨ k ∈ es.map fst) :
    ∃ a, (es.foldl (fun m e => m.set e.1 e.2) m).get? k = some a := by
  induction es generalizing m with
  | nil =>
    rcases h with h | h
    · exact h
    · cases h
  | cons e es ih =>
    refine ih ?_
    rw [map_cons, mem_cons] at h
    by_cases hk : e.1 = k
    · exact .inl ⟨e.2, hk ▸ get?_set_self m e.1 e.2⟩
    · rcases h with ⟨a, ha⟩ | rfl | h
      · exact .inl ⟨a, (get?_set_of_ne m e.2 hk).trans ha⟩
      · exact absurd rfl hk
      · exact .inr h

lemma exists_get?_ofList (h : k ∈ es.map fst) :
    ∃ a, (ofList es).get? k = some a := exists_get?_foldl_set (.inr h)

lemma get?_ofList_of_mem (hnodup : (es.map fst).Nodup) (h : (k, a) ∈ es) :
    (ofList es).get? k = some a := by
  unfold ofList
  generalize (empty : OrderedMap κ α) = m
  induction es generalizing m with
  | nil => cases h
  | cons e es ih =>
    rw [map_cons, nodup_cons] at hnodup
    rw [foldl_cons]
    rcases mem_cons.1 h with rfl | hmem
    · rw [get?_foldl_set_of_notMem hnodup.1, get?_set_self]
    · exact ih hnodup.2 hmem _

lemma put_of_notMem (h : k ∉ es.map fst) :
    put k a es = es ++ [(k, a)] := by
  induction es with
  | nil => rfl
  | cons e es ih =>
    rw [map_cons, mem_cons, not_or] at h
    rw [put, if_neg fun hk => h.1 hk.symm, ih h.2, cons_append]

lemma entries_ofList (hnodup : (es.map fst).Nodup) :
    (ofList es).entries = es := by
  induction es using reverseRecOn with
  | nil => rfl
  | append_singleton es e ih =>
    rw [map_append, map_singleton, nodup_append] at hnodup
    have hes := ih hnodup.1
    have hnot : e.1 ∉ (ofList es).entries.map fst := by
      rw [hes]
      exact fun hmem => hnodup.2.2 e.1 hmem e.1 (mem_singleton_self e.1) rfl
    unfold ofList at hes hnot ⊢
    rw [foldl_append, foldl_cons, foldl_nil, set]
    dsimp only
    rw [put_of_notMem hnot, hes]

lemma ofList_entries (m : OrderedMap κ α) : ofList m.entries = m :=
  OrderedMap.ext (entries_ofList m.nodup)

end OrderedMap
