import Mathlib.Data.List.Basic

/-!
# Backtracking regular expressions

Regular expressions over any symbols, matched the way an ECMAScript engine matches them: a pattern
at a position yields its results in the order in which backtracking would try them, and the first
one counts. Quantifiers are greedy, and an optional iteration that consumes nothing is rejected.
A capture inside a quantifier is not reset between iterations.

## Main definitions

* `Regex` — the patterns, with captures and assertions.
* `Regex.Denotes` — the words of a pattern without assertions.

## Main results

* `Regex.moves_of_mem_run` — a result lies ahead of its position, in the same text.
* `Regex.exec_spec`, `Regex.exec_eq_none_iff` — what a search finds.
* `Regex.mem_matchAll_iff` — where matches keep apart, all are found.
* `Regex.matchAll_eq_nil_iff`, `Regex.avoids_replace` — texts without matches, and when replacing
  every match makes one.
-/

universe u

/-- A regular expression over the symbols `α`. -/
inductive Regex (α : Type u) where
  | empty
  | sym (p : α → Bool)
  | seq (r s : Regex α)
  | alt (r s : Regex α)
  /-- `r{lo,hi}`, greedy; no `hi` stands for no upper bound. -/
  | rep (lo : ℕ) (hi : Option ℕ) (r : Regex α)
  | group (n : ℕ) (r : Regex α)
  | atStart
  | atEnd
  /-- `\b`, for the given word characters. -/
  | boundary (word : α → Bool)
  | ahead (r : Regex α)
  | notAhead (r : Regex α)
  /-- `(?<!p)` for a single class `p`. -/
  | notBehind (p : α → Bool)

namespace Regex

open List Option Nat

variable {α : Type u}

/-! ## Building patterns -/

/-- The fixed word `w`. -/
def lit [DecidableEq α] : List α → Regex α
  | [] => .empty
  | a :: w => .seq (.sym (· == a)) (lit w)

/-- The patterns one after another. -/
def seqs : List (Regex α) → Regex α
  | [] => .empty
  | [r] => r
  | r :: rs => .seq r (seqs rs)

/-- The first pattern that matches: `r|s|…`. -/
def alts : List (Regex α) → Regex α
  | [] => .notAhead .empty
  | [r] => r
  | r :: rs => .alt r (alts rs)

/-- `r*` -/
def star (r : Regex α) : Regex α := .rep 0 none r

/-- `r+` -/
def plus (r : Regex α) : Regex α := .rep 1 none r

/-- `r?` -/
def opt (r : Regex α) : Regex α := .rep 0 (some 1) r

/-! ## Matching -/

/-- A position in a text, with the captures made so far, the latest first. -/
structure Pos (α : Type u) where
  /-- What is behind, the nearest symbol first. -/
  before : List α
  /-- What is ahead. -/
  after : List α
  caps : List (ℕ × List α) := []

/-- The text between a position and a later one. -/
def Pos.upTo (p q : Pos α) : List α := p.after.take (p.after.length - q.after.length)

/-- The results of `lo` to `hi` iterations of `m`, more iterations first. The fuel is never used
up: an iteration either is mandatory or consumes something. -/
def iterate (m : Pos α → List (Pos α)) : ℕ → ℕ → Option ℕ → Pos α → List (Pos α)
  | 0, _, _, p => [p]
  | fuel + 1, lo, hi, p =>
    if hi = some 0 then [p]
    else if 0 < lo then
      (m p).flatMap (iterate m fuel (lo - 1) (hi.map (· - 1)))
    else
      ((m p).filter fun q => q.after.length < p.after.length).flatMap
        (iterate m fuel 0 (hi.map (· - 1))) ++ [p]

/-- The results of a pattern at a position, in the order of preference. -/
def run : Regex α → Pos α → List (Pos α)
  | .empty, p => [p]
  | .sym c, p =>
    match p.after with
    | [] => []
    | a :: rest => if c a then [⟨a :: p.before, rest, p.caps⟩] else []
  | .seq r s, p => (run r p).flatMap (run s)
  | .alt r s, p => run r p ++ run s p
  | .rep lo hi r, p => iterate (run r) (lo + p.after.length) lo hi p
  | .group n r, p => (run r p).map fun q => { q with caps := (n, p.upTo q) :: q.caps }
  | .atStart, p => if p.before.isEmpty then [p] else []
  | .atEnd, p => if p.after.isEmpty then [p] else []
  | .boundary word, p =>
    if p.before.head?.any word != p.after.head?.any word then [p] else []
  | .ahead r, p =>
    match run r p with
    | [] => []
    | q :: _ => [{ p with caps := q.caps }]
  | .notAhead r, p => if (run r p).isEmpty then [p] else []
  | .notBehind c, p => if p.before.head?.any c then [] else [p]

/-- A match: where it starts, its text, and its captures. -/
structure Match (α : Type u) where
  index : ℕ
  text : List α
  caps : List (ℕ × List α)

def Match.stop (m : Match α) : ℕ := m.index + m.text.length

/-- The text of capture group `n`, if it took part. -/
def Match.group (m : Match α) (n : ℕ) : Option (List α) := m.caps.lookup n

/-- The position at an index of a text. -/
def posAt (text : List α) (i : ℕ) : Pos α := ⟨(text.take i).reverse, text.drop i, []⟩

def matchAt (r : Regex α) (text : List α) (i : ℕ) : Option (Match α) :=
  (run r (posAt text i)).head?.map fun q => ⟨i, (posAt text i).upTo q, q.caps⟩

/-- The first match at one of the next `n` indices from `i` on. -/
def searchFrom (r : Regex α) (text : List α) : ℕ → ℕ → Option (Match α)
  | 0, _ => none
  | n + 1, i =>
    match matchAt r text i with
    | some m => some m
    | none => searchFrom r text n (i + 1)

/-- `r.exec(text)` of a global pattern whose last index is `i`. -/
def exec (r : Regex α) (text : List α) (i : ℕ) : Option (Match α) :=
  searchFrom r text (text.length + 1 - i) i

/-- `r.test(text)` -/
def test (r : Regex α) (text : List α) : Bool := (exec r text 0).isSome

/-- The matches from index `i` on; after an empty one the index moves by one. -/
def execAll (r : Regex α) (text : List α) : ℕ → ℕ → List (Match α)
  | 0, _ => []
  | fuel + 1, i =>
    match exec r text i with
    | none => []
    | some m => m :: execAll r text fuel (if m.text.isEmpty then m.index + 1 else m.stop)

/-- All matches of a global pattern: `text.matchAll(r)`. -/
def matchAll (r : Regex α) (text : List α) : List (Match α) :=
  execAll r text (text.length + 1) 0

/-- `text.slice(i, j)` -/
def slice (text : List α) (i j : ℕ) : List α := (text.take j).drop i

/-- The text from `cursor` on with each of the matches replaced. -/
def splice (text : List α) (f : Match α → List α) : ℕ → List (Match α) → List α
  | cursor, [] => text.drop cursor
  | cursor, m :: ms => slice text cursor m.index ++ f m ++ splice text f m.stop ms

/-- `text.replace(r, f)` of a global pattern. -/
def replace (r : Regex α) (f : Match α → List α) (text : List α) : List α :=
  splice text f 0 (matchAll r text)

/-- The text from `cursor` on with each of the matches replaced, the replacements threading a state
through: `text.replace(r, f)` with a callback that has effects. -/
def spliceState {σ : Type u} (text : List α) (f : Match α → σ → List α × σ) :
    ℕ → List (Match α) → σ → List α × σ
  | cursor, [], s => (text.drop cursor, s)
  | cursor, m :: ms, s =>
    let (replacement, s) := f m s
    let (rest, s) := spliceState text f m.stop ms s
    (slice text cursor m.index ++ replacement ++ rest, s)

variable {text : List α}

variable {σ : Type u}

lemma spliceState_rel {R : σ → σ → Prop} (hrefl : ∀ s, R s s)
    (htrans : ∀ s t u, R s t → R t u → R s u) {f : Match α → σ → List α × σ}
    (hf : ∀ m s, R s (f m s).2) (cursor : ℕ) (ms : List (Match α)) (s : σ) :
    R s (spliceState text f cursor ms s).2 := by
  induction ms generalizing cursor s with
  | nil => exact hrefl s
  | cons m ms ih => exact htrans _ _ _ (hf m s) (ih m.stop (f m s).2)

lemma spliceState_fst {f : Match α → σ → List α × σ} {g : Match α → List α}
    (hf : ∀ m s, (f m s).1 = g m) (cursor : ℕ) (ms : List (Match α)) (s : σ) :
    (spliceState text f cursor ms s).1 = splice text g cursor ms := by
  induction ms generalizing cursor s with
  | nil => rfl
  | cons m ms ih =>
    rw [splice, ← ih m.stop (f m s).2, ← hf m s]
    rfl

/-! ## Results lie ahead -/

/-- The position `q` is reached from `p` over the word `w`. -/
structure Moves (p : Pos α) (w : List α) (q : Pos α) : Prop where
  after : p.after = w ++ q.after
  before : q.before = w.reverse ++ p.before

variable {p q : Pos α}

lemma Moves.refl (ha : q.after = p.after) (hb : q.before = p.before) :
    Moves p [] q := ⟨by simp [ha], by simp [hb]⟩

variable {v w : List α}

lemma Moves.trans {p q r : Pos α} (h : Moves p v q) (h' : Moves q w r) :
    Moves p (v ++ w) r :=
  ⟨by rw [h.after, h'.after, append_assoc], by
    rw [h'.before, h.before, reverse_append, append_assoc]⟩

variable {w x : List α} {m : Pos α → List (Pos α)} {i j : ℕ}

lemma Moves.upTo_eq (h : Moves p w q) : p.upTo q = w := by
  rw [Pos.upTo, h.after, length_append, Nat.add_sub_cancel, take_left]

lemma Moves.unique (h : Moves p v q) (h' : Moves p w q) : v = w :=
  append_cancel_right (h.after.symm.trans h'.after)

lemma Moves.length_le (h : Moves p w q) : q.after.length ≤ p.after.length := by
  rw [h.after, length_append]
  omega

/-- The symbols of a pattern are of a class. -/
def Over (c : α → Bool) : Regex α → Prop
  | .sym p => ∀ a, p a = true → c a = true
  | .seq r s | .alt r s => Over c r ∧ Over c s
  | .rep _ _ r | .group _ r => Over c r
  | _ => True

/-- Iterations of a pattern whose results lie ahead have results ahead. -/
lemma moves_of_mem_iterate {L : α → Prop}
    (hm : ∀ p q, q ∈ m p → ∃ w, Moves p w q ∧ ∀ a ∈ w, L a) (fuel lo : ℕ) (hi : Option ℕ)
    (p q : Pos α) (h : q ∈ iterate m fuel lo hi p) : ∃ w, Moves p w q ∧ ∀ a ∈ w, L a := by
  have hstay : ∀ p q : Pos α, q ∈ [p] → ∃ w, Moves p w q ∧ ∀ a ∈ w, L a := by
    intro p q hq
    rw [mem_singleton] at hq
    exact ⟨[], hq ▸ .refl rfl rfl, fun a ha => (nomatch ha)⟩
  induction fuel generalizing lo hi p with
  | zero => exact hstay p q h
  | succ fuel ih =>
    have hnext : ∀ q' lo hi, q' ∈ m p → q ∈ iterate m fuel lo hi q' →
        ∃ w, Moves p w q ∧ ∀ a ∈ w, L a := by
      intro q' lo hi hq' hq
      obtain ⟨v, hv, hLv⟩ := hm p q' hq'
      obtain ⟨w, hw, hLw⟩ := ih lo hi q' hq
      exact ⟨v ++ w, hv.trans hw, fun a ha => (mem_append.1 ha).elim (hLv a) (hLw a)⟩
    rw [iterate] at h
    split_ifs at h
    · exact hstay p q h
    · obtain ⟨q', hq', hq⟩ := mem_flatMap.1 h
      exact hnext q' _ _ hq' hq
    · rcases mem_append.1 h with h | h
      · obtain ⟨q', hq', hq⟩ := mem_flatMap.1 h
        exact hnext q' _ _ (mem_of_mem_filter hq') hq
      · exact hstay p q h

/-- A result of a pattern over a class lies ahead of its position, in the same text, over symbols
of the class.

**Proof sketch.** Induction on the pattern; assertions do not move. -/
theorem moves_over_of_mem_run {c : α → Bool} (r : Regex α) (hr : r.Over c) (p q : Pos α)
    (h : q ∈ run r p) : ∃ w, Moves p w q ∧ ∀ a ∈ w, c a = true := by
  have hstay : ∀ p q : Pos α, q.after = p.after → q.before = p.before →
      ∃ w, Moves p w q ∧ ∀ a ∈ w, c a = true :=
    fun p q ha hb => ⟨[], .refl ha hb, fun a ha => (nomatch ha)⟩
  induction r generalizing p q with
  | empty =>
    rw [run, mem_singleton] at h
    exact hstay p q (by rw [h]) (by rw [h])
  | sym d =>
    rw [run] at h
    split at h
    · cases h
    · rename_i a rest hafter
      split_ifs at h with hd
      · rw [mem_singleton] at h
        subst h
        refine ⟨[a], ⟨by simp [hafter], rfl⟩, fun b hb => ?_⟩
        rw [mem_singleton.1 hb]
        exact hr a hd
      · cases h
  | seq r s ihr ihs =>
    obtain ⟨q', hq', hq⟩ := mem_flatMap.1 h
    obtain ⟨v, hv, hcv⟩ := ihr hr.1 p q' hq'
    obtain ⟨w, hw, hcw⟩ := ihs hr.2 q' q hq
    exact ⟨v ++ w, hv.trans hw, fun a ha => (mem_append.1 ha).elim (hcv a) (hcw a)⟩
  | alt r s ihr ihs =>
    rcases mem_append.1 h with h | h
    · exact ihr hr.1 p q h
    · exact ihs hr.2 p q h
  | rep lo hi r ih => exact moves_of_mem_iterate (ih hr) _ lo hi p q h
  | group n r ih =>
    obtain ⟨q', hq', rfl⟩ := List.mem_map.1 h
    obtain ⟨w, hw, hcw⟩ := ih hr p q' hq'
    exact ⟨w, ⟨hw.after, hw.before⟩, hcw⟩
  | ahead r ih =>
    rw [run] at h
    split at h
    · cases h
    · rw [mem_singleton] at h
      exact hstay p q (by rw [h]) (by rw [h])
  | notBehind c =>
    rw [run] at h
    split_ifs at h
    · cases h
    · rw [mem_singleton] at h
      exact hstay p q (by rw [h]) (by rw [h])
  | _ =>
    rw [run] at h
    split_ifs at h
    · rw [mem_singleton] at h
      exact hstay p q (by rw [h]) (by rw [h])
    · cases h

lemma over_all (r : Regex α) : r.Over fun _ => true := by
  induction r with
  | sym p => exact fun _ _ => rfl
  | seq r s ihr ihs => exact ⟨ihr, ihs⟩
  | alt r s ihr ihs => exact ⟨ihr, ihs⟩
  | rep lo hi r ih => exact ih
  | group n r ih => exact ih
  | _ => exact trivial

/-- A result of a pattern lies ahead of its position, in the same text. -/
theorem moves_of_mem_run (r : Regex α) (p q : Pos α) (h : q ∈ run r p) : ∃ w, Moves p w q := by
  obtain ⟨w, hw, -⟩ := moves_over_of_mem_run r (over_all r) p q h
  exact ⟨w, hw⟩

/-! ## Patterns without assertions -/

/-- A pattern without assertions, each of its quantifiers with bounds in order. -/
def Plain : Regex α → Prop
  | .empty | .sym _ => True
  | .seq r s | .alt r s => Plain r ∧ Plain s
  | .rep lo hi r => (∀ n, hi = some n → lo ≤ n) ∧ Plain r
  | .group _ r => Plain r
  | _ => False

/-- The words a pattern without assertions stands for. -/
def Denotes : Regex α → List α → Prop
  | .empty, w => w = []
  | .sym c, w => ∃ a, c a = true ∧ w = [a]
  | .seq r s, w => ∃ u v, Denotes r u ∧ Denotes s v ∧ w = u ++ v
  | .alt r s, w => Denotes r w ∨ Denotes s w
  | .rep lo hi r, w => ∃ ws : List (List α), (∀ v ∈ ws, Denotes r v) ∧ lo ≤ ws.length ∧
      (∀ n, hi = some n → ws.length ≤ n) ∧ w = ws.flatten
  | .group _ r, w => Denotes r w
  | _, _ => False

lemma denotes_lit [DecidableEq α] : Denotes (lit w) x ↔ x = w := by
  induction w generalizing x with
  | nil => exact Iff.rfl
  | cons a w ih =>
    constructor
    · rintro ⟨u, v, ⟨b, hb, rfl⟩, hv, rfl⟩
      rw [ih.1 hv, beq_iff_eq.1 hb]
      rfl
    · rintro rfl
      exact ⟨[a], w, ⟨a, beq_self_eq_true a, rfl⟩, ih.2 rfl, rfl⟩

/-- Symbols of a class, as many as the bounds ask for. -/
lemma denotes_rep_sym {p : α → Bool} {lo : ℕ} {hi : Option ℕ} : Denotes (.rep lo hi (.sym p)) x ↔
      lo ≤ x.length ∧ (∀ n, hi = some n → x.length ≤ n) ∧ ∀ a ∈ x, p a := by
  have hlength : ∀ ws : List (List α), (∀ w ∈ ws, Denotes (.sym p) w) →
      ws.flatten.length = ws.length ∧ ∀ a ∈ ws.flatten, p a := by
    intro ws hws
    induction ws with
    | nil => exact ⟨rfl, fun a ha => (nomatch ha)⟩
    | cons w ws ih =>
      obtain ⟨a, ha, rfl⟩ := hws w mem_cons_self
      obtain ⟨hlen, hall⟩ := ih fun w hw => hws w (mem_cons_of_mem _ hw)
      refine ⟨by simp [hlen], forall_mem_cons.2 ⟨ha, hall⟩⟩
  constructor
  · rintro ⟨ws, hws, hlo, hhi, rfl⟩
    obtain ⟨hlen, hall⟩ := hlength ws hws
    rw [hlen]
    exact ⟨hlo, hhi, hall⟩
  · rintro ⟨hlo, hhi, hx⟩
    refine ⟨x.map fun a => [a], fun w hw => ?_, by rwa [length_map],
      by rwa [length_map], ?_⟩
    · obtain ⟨a, ha, rfl⟩ := List.mem_map.1 hw
      exact ⟨a, hx a ha, rfl⟩
    · rw [← flatMap_def, flatMap_singleton']

lemma denotes_plus_sym {p : α → Bool} : Denotes (plus (.sym p)) x ↔ x ≠ [] ∧ ∀ a ∈ x, p a := by
  rw [plus, denotes_rep_sym, succ_le_iff, length_pos_iff]
  exact and_congr_right fun _ => ⟨fun h => h.2, fun h => ⟨fun n hn => (nomatch hn), h⟩⟩

lemma plain_lit [DecidableEq α] (w : List α) : Plain (lit w) := by
  induction w with
  | nil => exact trivial
  | cons a w ih => exact ⟨trivial, ih⟩

/-- The iterations of a pattern whose results move over words of `L` move over as many words of
`L` as the bounds ask for. -/
lemma moves_of_mem_iterate_words {L : List α → Prop}
    (hm : ∀ p q, q ∈ m p → ∃ w, L w ∧ Moves p w q) (fuel lo : ℕ) (hi : Option ℕ) (p q : Pos α)
    (hfuel : lo + p.after.length ≤ fuel) (hbounds : ∀ n, hi = some n → lo ≤ n)
    (h : q ∈ iterate m fuel lo hi p) :
    ∃ ws : List (List α), (∀ v ∈ ws, L v) ∧ lo ≤ ws.length ∧
      (∀ n, hi = some n → ws.length ≤ n) ∧ Moves p ws.flatten q := by
  induction fuel generalizing lo hi p with
  | zero =>
    rw [iterate, mem_singleton] at h
    exact ⟨[], by simp, by simp; omega, fun n _ => Nat.zero_le n, h ▸ .refl rfl rfl⟩
  | succ fuel ih =>
    rw [iterate] at h
    split_ifs at h with hzero hmandatory
    · rw [mem_singleton] at h
      have hlo := hbounds 0 hzero
      exact ⟨[], by simp, by simpa using hlo, fun n _ => Nat.zero_le n, h ▸ .refl rfl rfl⟩
    · obtain ⟨q', hq', hq⟩ := mem_flatMap.1 h
      obtain ⟨v, hLv, hv⟩ := hm p q' hq'
      have hlen := hv.length_le
      obtain ⟨ws, hL, hlo, hhi, hw⟩ := ih (lo - 1) (hi.map (· - 1)) q' (by omega)
        (by
          intro n hn
          obtain ⟨k, hk, rfl⟩ := map_eq_some_iff.1 hn
          have := hbounds k hk
          omega) hq
      refine ⟨v :: ws, ?_, ?_, ?_, ?_⟩
      · rintro u (_ | ⟨_, hu⟩)
        · exact hLv
        · exact hL u hu
      · rw [length_cons]
        omega
      · rintro n rfl
        have := hhi (n - 1) rfl
        have hn : n ≠ 0 := fun h0 => hzero (by rw [h0])
        rw [length_cons]
        omega
      · rw [flatten_cons]
        exact hv.trans hw
    · rcases mem_append.1 h with h | h
      · obtain ⟨q', hq', hq⟩ := mem_flatMap.1 h
        obtain ⟨hq'mem, hless⟩ := mem_filter.1 hq'
        rw [decide_eq_true_eq] at hless
        obtain ⟨v, hLv, hv⟩ := hm p q' hq'mem
        obtain ⟨ws, hL, -, hhi, hw⟩ := ih 0 (hi.map (· - 1)) q' (by omega)
          (fun n _ => Nat.zero_le n) hq
        refine ⟨v :: ws, ?_, by omega, ?_, ?_⟩
        · rintro u (_ | ⟨_, hu⟩)
          · exact hLv
          · exact hL u hu
        · rintro n rfl
          have := hhi (n - 1) rfl
          have hn : n ≠ 0 := fun h0 => hzero (by rw [h0])
          rw [length_cons]
          omega
        · rw [flatten_cons]
          exact hv.trans hw
      · rw [mem_singleton] at h
        exact ⟨[], by simp, by simp; omega, fun n _ => Nat.zero_le n, h ▸ .refl rfl rfl⟩

lemma self_mem_iterate (m : Pos α → List (Pos α)) (fuel : ℕ) (hi : Option ℕ) (p : Pos α) :
    p ∈ iterate m fuel 0 hi p := by
  cases fuel with
  | zero => simp [iterate]
  | succ fuel =>
    rw [iterate]
    split_ifs
    · simp
    · exact absurd ‹0 < 0› (Nat.lt_irrefl 0)
    · simp

/-- Iterations over given words of `L` are found, if `m` finds the words of `L`.

**Proof sketch.** Induction on the words. An optional iteration over the empty word is left out,
every other one uses up fuel that is there. -/
lemma exists_mem_iterate {m : Pos α → List (Pos α)} {L : List α → Prop}
    (hm : ∀ p w rest, L w → p.after = w ++ rest → ∃ q ∈ m p, q.after = rest) (ws : List (List α))
    (fuel lo : ℕ) (hi : Option ℕ) (p : Pos α) (rest : List α) (hL : ∀ v ∈ ws, L v)
    (hlo : lo ≤ ws.length) (hhi : ∀ n, hi = some n → ws.length ≤ n)
    (hp : p.after = ws.flatten ++ rest) (hfuel : lo + p.after.length ≤ fuel) :
    ∃ q ∈ iterate m fuel lo hi p, q.after = rest := by
  induction ws generalizing fuel lo hi p with
  | nil =>
    obtain rfl : lo = 0 := le_zero.1 hlo
    exact ⟨p, self_mem_iterate m fuel hi p, by simpa using hp⟩
  | cons v ws ih =>
    have hLv := hL v mem_cons_self
    have hLws : ∀ u ∈ ws, L u := fun u hu => hL u (mem_cons_of_mem v hu)
    rw [flatten_cons, append_assoc] at hp
    by_cases hskip : lo = 0 ∧ v = []
    · obtain ⟨rfl, rfl⟩ := hskip
      refine ih fuel 0 hi p hLws (Nat.zero_le _) (fun n hn => ?_) hp hfuel
      exact Nat.le_trans (le_succ _) (hhi n hn)
    · have hlen := congrArg List.length hp
      rw [length_append] at hlen
      have hzero : hi ≠ some 0 := fun h0 => by simpa using hhi 0 h0
      have hhi' : ∀ n, hi.map (· - 1) = some n → ws.length ≤ n := by
        intro n hn
        obtain ⟨k, hk, rfl⟩ := map_eq_some_iff.1 hn
        have := hhi k hk
        rw [length_cons] at this
        omega
      obtain ⟨q', hq', hafter⟩ := hm p v (ws.flatten ++ rest) hLv hp
      have hq'len := congrArg List.length hafter
      rw [length_cons] at hlo
      obtain ⟨fuel, rfl⟩ : ∃ n, fuel = n + 1 := by
        refine exists_eq_add_one_of_ne_zero fun h0 => hskip ⟨by omega, ?_⟩
        exact eq_nil_of_length_eq_zero (by omega)
      rw [iterate, if_neg hzero]
      by_cases hmandatory : 0 < lo
      · obtain ⟨q, hq, hrest⟩ := ih fuel (lo - 1) (hi.map (· - 1)) q' hLws (by omega) hhi'
          hafter (by omega)
        rw [if_pos hmandatory]
        exact ⟨q, mem_flatMap.2 ⟨q', hq', hq⟩, hrest⟩
      · have hv : 0 < v.length := length_pos_iff.2 fun hnil => hskip ⟨by omega, hnil⟩
        obtain ⟨q, hq, hrest⟩ := ih fuel 0 (hi.map (· - 1)) q' hLws (Nat.zero_le _) hhi'
          hafter (by omega)
        rw [if_neg hmandatory]
        refine ⟨q, mem_append_left _ (mem_flatMap.2 ⟨q', ?_, hq⟩), hrest⟩
        exact mem_filter.2 ⟨hq', by rw [decide_eq_true_eq]; omega⟩

variable {r : Regex α}

lemma denotes_of_mem_run (hr : r.Plain) (p q : Pos α) (h : q ∈ run r p) :
    ∃ w, Denotes r w ∧ Moves p w q := by
  induction r generalizing p q with
  | empty =>
    rw [run, mem_singleton] at h
    exact ⟨[], rfl, h ▸ .refl rfl rfl⟩
  | sym c =>
    rw [run] at h
    split at h
    · cases h
    · rename_i a rest hafter
      split_ifs at h with hc
      · rw [mem_singleton] at h
        subst h
        exact ⟨[a], ⟨a, hc, rfl⟩, by simp [hafter], rfl⟩
      · cases h
  | seq r s ihr ihs =>
    obtain ⟨q', hq', hq⟩ := mem_flatMap.1 h
    obtain ⟨v, hv, hmv⟩ := ihr hr.1 p q' hq'
    obtain ⟨w, hw, hmw⟩ := ihs hr.2 q' q hq
    exact ⟨v ++ w, ⟨v, w, hv, hw, rfl⟩, hmv.trans hmw⟩
  | alt r s ihr ihs =>
    rcases mem_append.1 h with h | h
    · obtain ⟨w, hw, hmw⟩ := ihr hr.1 p q h
      exact ⟨w, .inl hw, hmw⟩
    · obtain ⟨w, hw, hmw⟩ := ihs hr.2 p q h
      exact ⟨w, .inr hw, hmw⟩
  | rep lo hi r ih =>
    obtain ⟨ws, hL, hlo, hhi, hw⟩ :=
      moves_of_mem_iterate_words (ih hr.2) _ lo hi p q (Nat.le_refl _) hr.1 h
    exact ⟨ws.flatten, ⟨ws, hL, hlo, hhi, rfl⟩, hw⟩
  | group n r ih =>
    obtain ⟨q', hq', rfl⟩ := List.mem_map.1 h
    obtain ⟨w, hw, hmw⟩ := ih hr p q' hq'
    exact ⟨w, hw, hmw.after, hmw.before⟩
  | _ => exact hr.elim

/-- A word of a pattern without assertions is found where it stands. -/
lemma exists_mem_run (p : Pos α) (w rest : List α) (h : Denotes r w) (hp : p.after = w ++ rest) :
    ∃ q ∈ run r p, q.after = rest := by
  induction r generalizing p w rest with
  | empty =>
    cases h
    exact ⟨p, mem_singleton_self p, by simpa using hp⟩
  | sym c =>
    obtain ⟨a, hc, rfl⟩ := h
    rw [singleton_append] at hp
    exact ⟨⟨a :: p.before, rest, p.caps⟩, by simp [run, hp, hc], rfl⟩
  | seq r s ihr ihs =>
    obtain ⟨u, v, hu, hv, rfl⟩ := h
    rw [append_assoc] at hp
    obtain ⟨q', hq', hafter⟩ := ihr p u (v ++ rest) hu hp
    obtain ⟨q, hq, hrest⟩ := ihs q' v rest hv hafter
    exact ⟨q, mem_flatMap.2 ⟨q', hq', hq⟩, hrest⟩
  | alt r s ihr ihs =>
    rcases h with h | h
    · obtain ⟨q, hq, hrest⟩ := ihr p w rest h hp
      exact ⟨q, mem_append_left _ hq, hrest⟩
    · obtain ⟨q, hq, hrest⟩ := ihs p w rest h hp
      exact ⟨q, mem_append_right _ hq, hrest⟩
  | rep lo hi r ih =>
    obtain ⟨ws, hL, hlo, hhi, rfl⟩ := h
    exact exists_mem_iterate (L := Denotes r) ih ws _ lo hi p rest hL hlo hhi hp (Nat.le_refl _)
  | group n r ih =>
    obtain ⟨q, hq, hrest⟩ := ih p w rest h hp
    exact ⟨_, List.mem_map.2 ⟨q, hq, rfl⟩, hrest⟩
  | _ => exact h.elim

/-! ## Captures -/

/-- A pattern that captures nothing. -/
def Uncaptured : Regex α → Prop
  | .seq r s | .alt r s => Uncaptured r ∧ Uncaptured s
  | .rep _ _ r | .ahead r => Uncaptured r
  | .group _ _ => False
  | _ => True

lemma uncaptured_lit [DecidableEq α] (w : List α) : Uncaptured (lit w) := by
  induction w with
  | nil => exact trivial
  | cons a w ih => exact ⟨trivial, ih⟩

lemma caps_of_mem_iterate (hm : ∀ p q, q ∈ m p → q.caps = p.caps)
    (fuel lo : ℕ) (hi : Option ℕ) (p q : Pos α) (h : q ∈ iterate m fuel lo hi p) :
    q.caps = p.caps := by
  induction fuel generalizing lo hi p with
  | zero =>
    rw [iterate, mem_singleton] at h
    rw [h]
  | succ fuel ih =>
    rw [iterate] at h
    split_ifs at h
    · rw [mem_singleton] at h
      rw [h]
    · obtain ⟨q', hq', hq⟩ := mem_flatMap.1 h
      exact (ih _ _ q' hq).trans (hm p q' hq')
    · rcases mem_append.1 h with h | h
      · obtain ⟨q', hq', hq⟩ := mem_flatMap.1 h
        exact (ih _ _ q' hq).trans (hm p q' (mem_of_mem_filter hq'))
      · rw [mem_singleton] at h
        rw [h]

/-- A pattern that captures nothing keeps the captures. -/
lemma caps_of_mem_run (hr : r.Uncaptured) (p q : Pos α) (h : q ∈ run r p) :
    q.caps = p.caps := by
  induction r generalizing p q with
  | empty =>
    rw [run, mem_singleton] at h
    rw [h]
  | sym c =>
    rw [run] at h
    split at h
    · cases h
    · split_ifs at h
      · rw [mem_singleton] at h
        rw [h]
      · cases h
  | seq r s ihr ihs =>
    obtain ⟨q', hq', hq⟩ := mem_flatMap.1 h
    exact (ihs hr.2 q' q hq).trans (ihr hr.1 p q' hq')
  | alt r s ihr ihs =>
    rcases mem_append.1 h with h | h
    · exact ihr hr.1 p q h
    · exact ihs hr.2 p q h
  | rep lo hi r ih => exact caps_of_mem_iterate (ih hr) _ lo hi p q h
  | group n r ih => exact hr.elim
  | ahead r ih =>
    rw [run] at h
    split at h
    · cases h
    · rename_i q' rest hrun
      rw [mem_singleton] at h
      rw [h]
      exact ih hr p q' (by rw [hrun]; exact mem_cons_self)
  | _ =>
    rw [run] at h
    split_ifs at h <;> simp_all

lemma captured_of_mem_run (hr : r.Uncaptured) (hplain : r.Plain) {n : ℕ}
    (h : q ∈ run (.group n r) p) :
    ∃ w, Denotes r w ∧ Moves p w q ∧ q.caps = (n, w) :: p.caps := by
  obtain ⟨q', hq', rfl⟩ := List.mem_map.1 h
  obtain ⟨w, hw, hmw⟩ := denotes_of_mem_run hplain p q' hq'
  refine ⟨w, hw, ⟨hmw.after, hmw.before⟩, ?_⟩
  rw [hmw.upTo_eq, caps_of_mem_run hr p q' hq']

/-! ## Searching -/

variable {i : ℕ} {m : Match α}

lemma matchAt_eq_some (h : matchAt r text i = some m) :
    ∃ q ∈ run r (posAt text i), m.index = i ∧ m.caps = q.caps ∧ Moves (posAt text i) m.text q := by
  obtain ⟨q, hq, rfl⟩ := map_eq_some_iff.1 h
  have hmem : q ∈ run r (posAt text i) := mem_of_head? hq
  obtain ⟨w, hw⟩ := moves_of_mem_run r _ q hmem
  exact ⟨q, hmem, rfl, rfl, by rw [hw.upTo_eq]; exact hw⟩

lemma matchAt_eq_none_iff :
    matchAt r text i = none ↔ run r (posAt text i) = [] := by
  rw [matchAt, map_eq_none_iff, head?_eq_none_iff]

/-- A search goes through the indices in order. -/
lemma searchFrom_spec (n i : ℕ) (h : searchFrom r text n i = some m) :
    i ≤ m.index ∧ m.index < i + n ∧ matchAt r text m.index = some m ∧
      ∀ j, i ≤ j → j < m.index → matchAt r text j = none := by
  induction n generalizing i with
  | zero => cases h
  | succ n ih =>
    rw [searchFrom] at h
    split at h
    · rename_i m' hm
      obtain rfl : m' = m := some.inj h
      obtain ⟨-, -, rfl, -⟩ := matchAt_eq_some hm
      exact ⟨Nat.le_refl _, by omega, hm, fun j hj hlt => by omega⟩
    · rename_i hnone
      obtain ⟨hle, hlt, hat, hbefore⟩ := ih (i + 1) h
      refine ⟨by omega, by omega, hat, fun j hj hjm => ?_⟩
      rcases Nat.lt_or_ge i j with hij | hij
      · exact hbefore j hij hjm
      · obtain rfl : j = i := by omega
        exact hnone

/-- A search that finds nothing finds nothing at any index. -/
lemma searchFrom_eq_none_iff (n i : ℕ) :
    searchFrom r text n i = none ↔ ∀ j, i ≤ j → j < i + n → matchAt r text j = none := by
  induction n generalizing i with
  | zero => exact ⟨fun _ j hij hji => by omega, fun _ => rfl⟩
  | succ n ih =>
    rw [searchFrom]
    split
    · rename_i m hm
      refine ⟨fun h => (by cases h), fun h => ?_⟩
      rw [h i (Nat.le_refl i) (by omega)] at hm
      cases hm
    · rename_i hnone
      rw [ih]
      constructor
      · intro h j hij hlt
        rcases Nat.lt_or_ge i j with hj | hj
        · exact h j hj (by omega)
        · obtain rfl : j = i := by omega
          exact hnone
      · exact fun h j hij hlt => h j (by omega) (by omega)

/-- What a match of a text says about the text: it lies in it, at its index. -/
structure Match.LiesIn (m : Match α) (text : List α) : Prop where
  stop_le : m.stop ≤ text.length
  drop_eq : text.drop m.index = m.text ++ text.drop m.stop

lemma liesIn_of_matchAt (hi : i ≤ text.length) (h : matchAt r text i = some m) : m.LiesIn text := by
  obtain ⟨q, -, rfl, -, hw⟩ := matchAt_eq_some h
  have hafter : text.drop m.index = m.text ++ q.after := hw.after
  have hlen := congrArg List.length hafter
  rw [length_drop, length_append] at hlen
  refine ⟨by rw [Match.stop]; omega, ?_⟩
  rw [Match.stop, ← drop_drop, hafter, drop_left]

/-- What a search finds: the first match from its start on. -/
theorem exec_spec (h : exec r text i = some m) :
    i ≤ m.index ∧ m.LiesIn text ∧ matchAt r text m.index = some m ∧
      ∀ j, i ≤ j → j < m.index → matchAt r text j = none := by
  obtain ⟨hle, hlt, hat, hbefore⟩ := searchFrom_spec _ i h
  exact ⟨hle, liesIn_of_matchAt (by omega) hat, hat, hbefore⟩

/-- When a search finds nothing. -/
theorem exec_eq_none_iff :
    exec r text i = none ↔ ∀ j, i ≤ j → j ≤ text.length → matchAt r text j = none := by
  rw [exec, searchFrom_eq_none_iff]
  exact ⟨fun h j hij hj => h j hij (by omega), fun h j hij hj => h j hij (by omega)⟩

/-- A pattern anchored at the start matches exactly when it has a result there. -/
theorem exec_atStart_ne_none_iff :
    exec (.seq .atStart r) text 0 ≠ none ↔ run r (posAt text 0) ≠ [] := by
  have hrun : ∀ i, i ≤ text.length → run (.seq .atStart r) (posAt text i) =
      if i = 0 then run r (posAt text i) else [] := by
    intro i hi
    have hbefore : (posAt text i).before.isEmpty ↔ i = 0 := by
      rw [List.isEmpty_iff, posAt, reverse_eq_nil_iff, take_eq_nil_iff]
      constructor
      · rintro (h | rfl)
        · exact h
        · exact le_zero.1 hi
      · exact .inl
    by_cases h0 : i = 0
    · simp only [run, if_pos (hbefore.2 h0), if_pos h0, flatMap_cons, List.flatMap_nil,
        append_nil]
    · simp only [run, if_neg (mt hbefore.1 h0), if_neg h0, List.flatMap_nil]
  rw [Ne, not_iff_not, exec_eq_none_iff]
  constructor
  · intro h
    have h0 := h 0 (Nat.le_refl 0) (Nat.zero_le _)
    rwa [matchAt_eq_none_iff, hrun 0 (Nat.zero_le _), if_pos rfl] at h0
  · intro h i _ hi
    rw [matchAt_eq_none_iff, hrun i hi]
    split_ifs with h0
    · rw [h0, h]
    · rfl

/-- A search with a pattern anchored at the start looks there only. -/
theorem exec_atStart (r : Regex α) (text : List α) :
    exec (.seq .atStart r) text 0 = matchAt r text 0 := by
  have hrun : run (.seq .atStart r) (posAt text 0) = run r (posAt text 0) := by
    simp [run, posAt]
  cases hat : matchAt r text 0 with
  | none =>
    by_contra hsome
    exact exec_atStart_ne_none_iff.1 hsome (matchAt_eq_none_iff.1 hat)
  | some m =>
    have hfirst : matchAt (.seq .atStart r) text 0 = some m := by
      rw [matchAt, hrun, ← matchAt, hat]
    rw [exec, Nat.sub_zero, searchFrom, hfirst]

/-- Matches that lie in a text one after another, from a cursor on. -/
def Ordered (text : List α) : ℕ → List (Match α) → Prop
  | _, [] => True
  | cursor, m :: ms => cursor ≤ m.index ∧ m.LiesIn text ∧ Ordered text m.stop ms

variable {ms : List (Match α)}

lemma Ordered.mono (hij : i ≤ j) (h : Ordered text j ms) : Ordered text i ms := by
  cases ms with
  | nil => trivial
  | cons m ms => exact ⟨Nat.le_trans hij h.1, h.2⟩

/-- The matches of a global pattern lie in the text one after another. -/
lemma ordered_execAll (r : Regex α) (text : List α) (fuel i : ℕ) :
    Ordered text i (execAll r text fuel i) := by
  induction fuel generalizing i with
  | zero => trivial
  | succ fuel ih =>
    rw [execAll]
    split
    · trivial
    · rename_i m hm
      obtain ⟨hle, hin, -, -⟩ := exec_spec hm
      refine ⟨hle, hin, (ih _).mono ?_⟩
      split_ifs
      · rename_i hempty
        rw [Match.stop, List.isEmpty_iff.1 hempty]
        exact le_succ _
      · exact Nat.le_refl _

lemma ordered_matchAll (r : Regex α) (text : List α) : Ordered text 0 (matchAll r text) :=
  ordered_execAll r text _ 0

lemma slice_append_drop (text : List α) (h : i ≤ j) :
    slice text i j ++ text.drop j = text.drop i := by
  obtain ⟨k, rfl⟩ := Nat.exists_eq_add_of_le h
  rw [slice, drop_take, Nat.add_sub_cancel_left, ← drop_drop, take_append_drop]

lemma slice_append_slice (text : List α) {k : ℕ} (hij : i ≤ j) (hjk : j ≤ k) :
    slice text i j ++ slice text j k = slice text i k := by
  refine (append_left_inj (text.drop k)).1 ?_
  rw [append_assoc, slice_append_drop text hjk, slice_append_drop text hij,
    slice_append_drop text (Nat.le_trans hij hjk)]

/-- Replacing every match by itself changes nothing. -/
theorem splice_self (text : List α) {cursor : ℕ} (h : Ordered text cursor ms) :
    splice text Match.text cursor ms = text.drop cursor := by
  induction ms generalizing cursor with
  | nil => rfl
  | cons m ms ih =>
    obtain ⟨hle, hin, hms⟩ := h
    rw [splice, ih hms, append_assoc, ← hin.drop_eq, slice_append_drop text hle]

/-! ## Matches that keep apart -/

/-- The matches of a pattern consume something, and none starts inside another. -/
def KeepsApart (r : Regex α) (text : List α) : Prop :=
  ∀ i m, matchAt r text i = some m → m.text ≠ [] ∧
    ∀ k, i < k → k < m.stop → matchAt r text k = none

/-- Where matches keep apart, an iteration finds them all.

**Proof sketch.** Induction on the fuel. What a search leaves out before its match is no match, and
none starts inside of it. -/
lemma mem_execAll_iff {r : Regex α} {text : List α} (hapart : KeepsApart r text) (fuel i : ℕ)
    (hfuel : text.length + 1 ≤ fuel + i) (m : Match α) :
    m ∈ execAll r text fuel i ↔
      i ≤ m.index ∧ m.index ≤ text.length ∧ matchAt r text m.index = some m := by
  induction fuel generalizing i with
  | zero =>
    rw [execAll]
    exact ⟨fun h => (nomatch h), fun h => by omega⟩
  | succ fuel ih =>
    rw [execAll]
    split
    next hnone =>
      refine ⟨fun h => (nomatch h), fun ⟨hi, hlen, hat⟩ => ?_⟩
      rw [exec_eq_none_iff.1 hnone m.index hi hlen] at hat
      cases hat
    next first hfirst =>
      obtain ⟨hle, hin, hat, hbefore⟩ := exec_spec hfirst
      obtain ⟨hsome, hinside⟩ := hapart first.index first hat
      have hlength := length_pos_iff.2 hsome
      have hstop := hin.stop_le
      rw [Match.stop] at hstop hinside
      rw [if_neg (by simpa using hsome), mem_cons, ih _ (by rw [Match.stop]; omega), Match.stop]
      constructor
      · rintro (rfl | ⟨hi, hlen, hat'⟩)
        · exact ⟨hle, by omega, hat⟩
        · exact ⟨by omega, hlen, hat'⟩
      · rintro ⟨hi, hlen, hat'⟩
        rcases Nat.lt_trichotomy m.index first.index with hlt | heq | hgt
        · rw [hbefore m.index hi hlt] at hat'
          cases hat'
        · rw [heq, hat] at hat'
          exact .inl (Option.some.inj hat').symm
        · refine .inr ⟨?_, hlen, hat'⟩
          by_contra hlt
          rw [hinside m.index hgt (by omega)] at hat'
          cases hat'

/-- **Where matches keep apart, all are found.** -/
theorem mem_matchAll_iff (hapart : KeepsApart r text) (m : Match α) :
    m ∈ matchAll r text ↔ m.index ≤ text.length ∧ matchAt r text m.index = some m := by
  rw [matchAll, mem_execAll_iff hapart _ _ (by omega)]
  exact ⟨fun h => h.2, fun h => ⟨Nat.zero_le _, h⟩⟩

lemma head?_before_posAt {k : ℕ} (hpos : 0 < k) (hk : k ≤ text.length) :
    (posAt text k).before.head? = text[k - 1]? := by
  rw [posAt, head?_reverse, getLast?_take, if_neg (by omega),
    getElem?_eq_getElem (by omega), some_or]

lemma getElem?_of_moves {text : List α} {d : ℕ} {q : Pos α} (h : Moves (posAt text i) w q)
    (hd : d < w.length) : text[i + d]? = w[d]? := by
  have hafter : text.drop i = w ++ q.after := h.after
  rw [← getElem?_drop, hafter, getElem?_append_left hd]

lemma Ordered.le_index (h : Ordered text i ms) :
    ∀ m ∈ ms, i ≤ m.index := by
  induction ms generalizing i with
  | nil => exact fun m hm => absurd hm (by simp)
  | cons first ms ih =>
    obtain ⟨hle, -, hrest⟩ := h
    intro m hm
    rcases mem_cons.1 hm with rfl | hm
    · exact hle
    · have hstop := ih hrest m hm
      rw [Match.stop] at hstop
      omega

lemma Ordered.pairwise (h : Ordered text i ms) (hsome : ∀ m ∈ ms, m.text ≠ []) :
    ms.Pairwise fun m m' => m.index < m'.index := by
  induction ms generalizing i with
  | nil => exact List.Pairwise.nil
  | cons first ms ih =>
    obtain ⟨-, -, hrest⟩ := h
    refine pairwise_cons.2 ⟨fun m hm => ?_,
      ih hrest fun m hm => hsome m (mem_cons_of_mem first hm)⟩
    have hstop := hrest.le_index m hm
    have hlength := length_pos_iff.2 (hsome first mem_cons_self)
    rw [Match.stop] at hstop
    omega

/-! ## Texts without matches -/

/-- No part of the text is a word of the pattern. -/
def Avoids (r : Regex α) (text : List α) : Prop :=
  ∀ u w v, text = u ++ w ++ v → ¬ Denotes r w

lemma exists_matchAt {text u v : List α} (htext : text = u ++ w ++ v) (hw : Denotes r w) :
    ∃ m, matchAt r text u.length = some m := by
  have hafter : (posAt text u.length).after = w ++ v := by
    rw [posAt, htext, append_assoc, drop_left]
  obtain ⟨q, hq, -⟩ := exists_mem_run _ w v hw hafter
  refine ne_none_iff_exists'.1 fun hnone => ?_
  rw [matchAt_eq_none_iff.1 hnone] at hq
  exact absurd hq (by simp)

/-- A search finds nothing exactly when no part of the text is a word of the pattern. -/
theorem exec_eq_none_iff_avoids (hr : r.Plain) :
    exec r text 0 = none ↔ r.Avoids text := by
  rw [exec_eq_none_iff]
  constructor
  · intro hnone u w v htext hw
    obtain ⟨m, hm⟩ := exists_matchAt htext hw
    rw [hnone u.length (Nat.zero_le _) (by rw [htext]; simp)] at hm
    cases hm
  · intro havoids j _ hj
    refine eq_none_iff_forall_ne_some.2 fun m hm => ?_
    obtain ⟨q, hq, -, -, hmove⟩ := matchAt_eq_some hm
    obtain ⟨w, hw, hmw⟩ := denotes_of_mem_run hr _ q hq
    refine havoids (text.take j) w q.after ?_ hw
    have hafter : text.drop j = w ++ q.after := hmw.after
    rw [append_assoc, ← hafter, take_append_drop]

/-- A text has no matches exactly when no part of it is a word of the pattern. -/
theorem matchAll_eq_nil_iff (hr : r.Plain) :
    matchAll r text = [] ↔ r.Avoids text := by
  have hexec : matchAll r text = [] ↔ exec r text 0 = none := by
    rw [matchAll, execAll]
    split
    · simp_all
    · simp_all
  rw [hexec, exec_eq_none_iff_avoids hr]

variable {a : α}

lemma test_eq_false_of_notMem (hr : r.Plain) (hword : ∀ w, Denotes r w → a ∈ w) (h : a ∉ text) :
    test r text = false := by
  have havoids : r.Avoids text := by
    intro u w v htext hw
    refine h ?_
    rw [htext]
    exact mem_append_left v (mem_append_right u (hword w hw))
  rw [test, (exec_eq_none_iff_avoids hr).2 havoids]
  rfl

variable {x y : List α}

/-- Two texts together are avoided where no word lies across. -/
lemma Avoids.append (hx : r.Avoids x) (hy : r.Avoids y)
    (hcross : ∀ a b, a ≠ [] → b ≠ [] → Denotes r (a ++ b) → a <:+ x → ¬ b <+: y) :
    r.Avoids (x ++ y) := by
  intro u w v htext hw
  rw [append_assoc, append_eq_append_iff] at htext
  obtain ⟨c, hu, hy'⟩ | ⟨c, hx', hc⟩ := htext
  · exact hy c w v (by rw [hy', append_assoc]) hw
  · rw [append_eq_append_iff] at hc
    obtain ⟨d, hc, hv⟩ | ⟨d, hw', hy'⟩ := hc
    · exact hx u w d (by rw [hx', hc, append_assoc]) hw
    · by_cases hc' : c = []
      · subst hc'
        exact hy [] w v (by rw [hw', hy']; rfl) hw
      · by_cases hd : d = []
        · subst hd
          exact hx u w [] (by rw [hx', hw', append_nil, append_nil]) hw
        · exact hcross c d hc' hd (hw' ▸ hw) ⟨u, hx'.symm⟩ ⟨v, hy'.symm⟩

lemma Avoids.of_append (h : r.Avoids (x ++ y)) :
    r.Avoids x ∧ r.Avoids y :=
  ⟨fun u w v hx => h u w (v ++ y) (by rw [hx]; simp),
    fun u w v hy => h (x ++ u) w v (by rw [hy]; simp)⟩

/-- A symbol that is in no word keeps what is before and after it apart. -/
lemma avoids_append_cons_iff (ha : ∀ w, Denotes r w → a ∉ w) (hne : ¬ Denotes r []) :
    r.Avoids (x ++ a :: y) ↔ r.Avoids x ∧ r.Avoids y := by
  constructor
  · intro h
    have hright : r.Avoids ([a] ++ y) := h.of_append.2
    exact ⟨h.of_append.1, hright.of_append.2⟩
  · rintro ⟨hx, hy⟩
    have hsingle : r.Avoids [a] := by
      intro u w v htext hw
      have hmem : ∀ c ∈ w, c = a := by
        intro c hc
        have : c ∈ [a] := by
          rw [htext]
          simp [hc]
        exact mem_singleton.1 this
      cases w with
      | nil => exact hne hw
      | cons c w => exact ha _ hw (by rw [← hmem c mem_cons_self]; exact mem_cons_self)
    have hright : r.Avoids ([a] ++ y) := by
      refine hsingle.append hy fun b c hb _ hw hsuffix _ => ha _ hw ?_
      have hba : ∀ d ∈ b, d = a := fun d hd => mem_singleton.1 (hsuffix.subset hd)
      obtain ⟨d, hd⟩ := exists_mem_of_ne_nil b hb
      exact mem_append_left _ (hba d hd ▸ hd)
    refine hx.append hright fun b c _ hc hw _ hprefix => ha _ hw ?_
    cases c with
    | nil => exact absurd rfl hc
    | cons d c =>
      obtain ⟨rfl, -⟩ := cons_prefix_cons.1 hprefix
      exact mem_append_right _ mem_cons_self

/-- **Replacing every match leaves none**, where no replacement makes a new one.

**Proof sketch.** Induction on the matches: what stands before the first of them has none, for it
would have been found. -/
theorem avoids_replace {r : Regex α} (hne : ¬ Denotes r []) {text : List α}
    (hapart : KeepsApart r text) {f : Match α → List α}
    (hf : ∀ m x y, r.Avoids x → r.Avoids y → r.Avoids (x ++ f m ++ y)) :
    r.Avoids (replace r f text) := by
  -- a word that stands from the cursor on is matched there
  have hword : ∀ (cursor : ℕ) (u w v : List α), cursor ≤ text.length →
      text.drop cursor = u ++ w ++ v → Denotes r w →
      ∃ m, matchAt r text m.index = some m ∧ m.index = cursor + u.length := by
    intro cursor u w v hcursor hdrop hw
    have htext : text = (text.take cursor ++ u) ++ w ++ v := by
      rw [append_assoc, append_assoc, ← append_assoc u, ← hdrop,
        take_append_drop]
    obtain ⟨m, hm⟩ := exists_matchAt htext hw
    obtain ⟨-, -, hindex, -⟩ := matchAt_eq_some hm
    refine ⟨m, by rw [hindex]; exact hm, ?_⟩
    rw [hindex, length_append, length_take, Nat.min_eq_left hcursor]
  have hgo : ∀ (ms : List (Match α)) (cursor : ℕ), cursor ≤ text.length →
      Ordered text cursor ms →
      (∀ m, cursor ≤ m.index → m.index ≤ text.length → matchAt r text m.index = some m → m ∈ ms) →
      (∀ m ∈ ms, matchAt r text m.index = some m) → r.Avoids (splice text f cursor ms) := by
    intro ms
    induction ms with
    | nil =>
      intro cursor hcursor _ hall _ u w v hsplice hw
      have hdrop : text.drop cursor = u ++ w ++ v := hsplice
      obtain ⟨m, hm, hindex⟩ := hword cursor u w v hcursor hdrop hw
      have hlength := congrArg List.length hdrop
      simp only [length_drop, length_append] at hlength
      exact absurd (hall m (by omega) (by omega) hm) (by simp)
    | cons first ms ih =>
      rintro cursor hcursor ⟨hle, hin, hrest⟩ hall hmatch
      have hstop := hin.stop_le
      have hfirst := hmatch first mem_cons_self
      have hsome : 0 < first.text.length := length_pos_iff.2 (hapart _ first hfirst).1
      rw [Match.stop] at hstop
      have hslice : r.Avoids (slice text cursor first.index) := by
        intro u w v hslice hw
        have hdrop : text.drop cursor = u ++ w ++ (v ++ text.drop first.index) := by
          rw [← slice_append_drop text hle, hslice, append_assoc]
        obtain ⟨m, hm, hindex⟩ := hword cursor u w _ hcursor hdrop hw
        have hlength := congrArg List.length hslice
        simp only [slice, length_drop, length_take, length_append] at hlength
        have hpos : 0 < w.length := length_pos_iff.2 fun hnil => hne (hnil ▸ hw)
        have hordered : Ordered text first.index (first :: ms) := ⟨Nat.le_refl _, hin, hrest⟩
        have hlater := hordered.le_index m (hall m (by omega) (by omega) hm)
        omega
      refine hf first _ _ hslice (ih first.stop hin.stop_le hrest (fun m hm hlen hat => ?_)
        fun m hm => hmatch m (mem_cons_of_mem first hm))
      rw [Match.stop] at hm
      rcases mem_cons.1 (hall m (by omega) hlen hat) with rfl | hmem
      · omega
      · exact hmem
  refine hgo _ 0 (Nat.zero_le _) (ordered_matchAll r text) (fun m _ hlen hm => ?_) fun m hm => ?_
  · exact (mem_matchAll_iff hapart m).2 ⟨hlen, hm⟩
  · exact ((mem_matchAll_iff hapart m).1 hm).2

end Regex
