import Mathlib.Data.List.Nodup

/-!
# Lists whose items are named by their place

What is under way in a machine is a list, and an action names one item by its place: it replaces the
item, or takes it out.

## Main results

* `Places.map_set_of_eq` — a replacement that a function does not see.
* `Places.countP_set_add`, `Places.countP_eraseIdx_add` — what is counted after an item is replaced,
  and after it is taken out.
-/

universe u v

namespace Places

open List

variable {α : Type u} {β : Type v} {l : List α} {k : Nat} {a : α}

/-- An item replaced by one with the same image. -/
lemma map_set_of_eq {f : α → β} {b : α} (hk : l[k]? = some a) (hb : f b = f a) :
    (l.set k b).map f = l.map f := by
  obtain ⟨hlt, hget⟩ := List.getElem?_eq_some_iff.1 hk
  rw [map_set, hb]
  refine ext_getElem (by simp) fun i h₁ h₂ => ?_
  rw [List.getElem_set]
  split_ifs with hi
  · subst hi
    simp [hget]
  · rfl

lemma countP_set_add (p : α → Bool) (b : α) (h : l[k]? = some a) :
    (l.set k b).countP p + (if p a then 1 else 0) = l.countP p + (if p b then 1 else 0) := by
  obtain ⟨hlt, hget⟩ := List.getElem?_eq_some_iff.1 h
  have hcounted : (if p a then 1 else 0) ≤ l.countP p := by
    cases hp : p a with
    | true => exact countP_pos_iff.2 ⟨a, mem_of_getElem? h, hp⟩
    | false => exact Nat.zero_le _
  rw [countP_set hlt, hget]
  omega

lemma countP_eraseIdx_add (p : α → Bool) (h : l[k]? = some a) :
    (l.eraseIdx k).countP p + (if p a then 1 else 0) = l.countP p := by
  obtain ⟨hlt, hget⟩ := List.getElem?_eq_some_iff.1 h
  have hsplit : l = l.take k ++ a :: l.drop (k + 1) := by
    rw [← hget, getElem_cons_drop, take_append_drop]
  rw [eraseIdx_eq_take_drop_succ]
  conv_rhs => rw [hsplit]
  rw [countP_append, countP_append, countP_cons]
  omega

end Places
