import Yantra.Lib.Utf16

/-!
# UTF-8 and strings of code units

A string of code units is a list of code points, an unpaired surrogate being one by itself. Encoding
puts U+FFFD in the place of an unpaired surrogate; decoding puts it in the place of every longest
run of bytes that begins a code point and breaks off. Bytes are natural numbers.

## Main definitions

* `Utf16.codePoints`, `Utf16.unitsOfPoint` — code units to code points and back.
* `Utf8.prefixWithin`, `Utf8.leftover` — the whole code points within a number of bytes, and the
  bytes left over when the last code point is cut.

## Main results

* `Utf16.codePoints_flatMap`, `Utf16.flatMap_codePoints` — code units and code points, both ways.
* `Utf8.decode_take`, `Utf8.toText_take_ofText` — what decoding a cut encoding gives.
-/

namespace Utf16

open List Bool

/-- A high surrogate, the first half of a pair. -/
def isHigh (c : CodeUnit) : Bool := 0xD800 ≤ c && c < 0xDC00

/-- A low surrogate, the second half of a pair. -/
def isLow (c : CodeUnit) : Bool := 0xDC00 ≤ c && c < 0xE000

def codePoints : JsString → List ℕ
  | [] => []
  | [a] => [a.toNat]
  | a :: b :: s =>
    if isHigh a && isLow b then
      (0x10000 + (a.toNat - 0xD800) * 0x400 + (b.toNat - 0xDC00)) :: codePoints s
    else a.toNat :: codePoints (b :: s)

def unitsOfPoint (c : ℕ) : JsString :=
  if c < 0x10000 then [c.toUInt16]
  else [(0xD800 + (c - 0x10000) / 0x400).toUInt16, (0xDC00 + (c - 0x10000) % 0x400).toUInt16]

/-- A code point that is half a pair. -/
def IsSurrogate (c : ℕ) : Prop := 0xD800 ≤ c ∧ c < 0xE000

instance : DecidablePred IsSurrogate := fun _ => inferInstanceAs (Decidable (_ ∧ _))

/-- A code point that is none. -/
def IsScalar (c : ℕ) : Prop := c < 0x110000 ∧ ¬ IsSurrogate c

/-- `toWellFormed`, of one code point. -/
def scrub (c : ℕ) : ℕ := if IsSurrogate c then 0xFFFD else c

variable {c : ℕ}

lemma scrub_of_not (h : ¬ IsSurrogate c) : scrub c = c := if_neg h

lemma isScalar_scrub (h : c < 0x110000) : IsScalar (scrub c) := by
  unfold scrub
  split
  next =>
    constructor
    · omega
    · rintro ⟨-, hlt⟩
      omega
  next hc => exact ⟨h, hc⟩

lemma length_unitsOfPoint_scrub (c : ℕ) :
    (unitsOfPoint (scrub c)).length = (unitsOfPoint c).length := by
  unfold scrub
  split
  next hc =>
    have hlt : c < 0x10000 := by have := hc.2; omega
    rw [unitsOfPoint, unitsOfPoint, if_pos (by omega), if_pos hlt]
    rfl
  next => rfl

lemma not_isSurrogate_of_scrub (h : unitsOfPoint (scrub c) = unitsOfPoint c) :
    ¬ IsSurrogate c := by
  intro hc
  have hlt : c < 0x10000 := by have := hc.2; omega
  rw [scrub, if_pos hc, unitsOfPoint, unitsOfPoint, if_pos (by omega), if_pos hlt,
    List.cons.injEq] at h
  have hnat := congrArg UInt16.toNat h.1
  rw [toNat_toUInt16 (by omega), toNat_toUInt16 hlt] at hnat
  have := hc.2
  omega

variable (a : CodeUnit)

lemma isHigh_iff : isHigh a ↔ 0xD800 ≤ a.toNat ∧ a.toNat < 0xDC00 := by
  simp [isHigh, UInt16.le_iff_toNat_le, UInt16.lt_iff_toNat_lt]

lemma isLow_iff : isLow a ↔ 0xDC00 ≤ a.toNat ∧ a.toNat < 0xE000 := by
  simp [isLow, UInt16.le_iff_toNat_le, UInt16.lt_iff_toNat_lt]

lemma unitsOfPoint_toNat : unitsOfPoint a.toNat = [a] := by
  have hlt := a.toNat_lt
  rw [unitsOfPoint, if_pos hlt]
  exact congrArg (fun u => [u]) (UInt16.ofNat_toNat (x := a))

lemma unitsOfPoint_pair {a b : CodeUnit} (ha : isHigh a) (hb : isLow b) :
    unitsOfPoint (0x10000 + (a.toNat - 0xD800) * 0x400 + (b.toNat - 0xDC00)) = [a, b] := by
  rw [isHigh_iff] at ha
  rw [isLow_iff] at hb
  have hhigh : 0xD800 + (0x10000 + (a.toNat - 0xD800) * 0x400 + (b.toNat - 0xDC00) - 0x10000) / 0x400
      = a.toNat := by omega
  have hlow : 0xDC00 + (0x10000 + (a.toNat - 0xD800) * 0x400 + (b.toNat - 0xDC00) - 0x10000) % 0x400
      = b.toNat := by omega
  rw [unitsOfPoint, if_neg (by omega), hhigh, hlow]
  exact congrArg₂ (fun u v => [u, v]) (UInt16.ofNat_toNat (x := a)) (UInt16.ofNat_toNat (x := b))

lemma flatMap_codePoints (s : JsString) : (codePoints s).flatMap unitsOfPoint = s := by
  induction s using codePoints.induct with
  | case1 => rfl
  | case2 a =>
    rw [codePoints, flatMap_cons, List.flatMap_nil, append_nil, unitsOfPoint_toNat]
  | case3 a b s hpair ih =>
    rw [codePoints, if_pos hpair]
    rw [and_eq_true] at hpair
    rw [flatMap_cons, unitsOfPoint_pair hpair.1 hpair.2, ih]
    rfl
  | case4 a b s hpair ih =>
    rw [codePoints, if_neg hpair, flatMap_cons, unitsOfPoint_toNat, ih]
    rfl

lemma pair_lt {x y : ℕ} (hx : 0xD800 ≤ x ∧ x < 0xDC00) (hy : 0xDC00 ≤ y ∧ y < 0xE000) :
    0x10000 + (x - 0xD800) * 0x400 + (y - 0xDC00) < 0x110000 := by
  omega

lemma pair_halves (h : 0x10000 ≤ c) :
    0x10000 + (0xD800 + (c - 0x10000) / 0x400 - 0xD800) * 0x400 +
      (0xDC00 + (c - 0x10000) % 0x400 - 0xDC00) = c := by
  omega

lemma lt_of_mem_codePoints {s : JsString} : ∀ c ∈ codePoints s, c < 0x110000 := by
  induction s using codePoints.induct with
  | case1 => nofun
  | case2 a =>
    intro c hc
    rw [codePoints, mem_singleton] at hc
    have := a.toNat_lt
    omega
  | case3 a b s hpair ih =>
    intro c hc
    rw [codePoints, if_pos hpair, mem_cons] at hc
    rw [and_eq_true, isHigh_iff, isLow_iff] at hpair
    obtain hc | hc := hc
    · exact hc ▸ pair_lt hpair.1 hpair.2
    · exact ih c hc
  | case4 a b s hpair ih =>
    intro c hc
    rw [codePoints, if_neg hpair, mem_cons] at hc
    obtain rfl | hc := hc
    · have := a.toNat_lt
      omega
    · exact ih c hc

lemma codePoints_unitsOfPoint (h : IsScalar c) (s : JsString) :
    codePoints (unitsOfPoint c ++ s) = c :: codePoints s := by
  have hlast := h.1
  have hscalar : ¬ (0xD800 ≤ c ∧ c < 0xE000) := h.2
  unfold unitsOfPoint
  split
  next hc =>
    have hhigh : isHigh c.toUInt16 = false := by
      rw [eq_false_iff, Ne, isHigh_iff, toNat_toUInt16 hc]
      omega
    cases s with
    | nil => rw [append_nil, codePoints, codePoints, toNat_toUInt16 hc]
    | cons b s =>
      rw [singleton_append, codePoints, hhigh, Bool.false_and, if_neg Bool.false_ne_true,
        toNat_toUInt16 hc]
  next hc =>
    have hh : 0xD800 + (c - 0x10000) / 0x400 < 0x10000 := by omega
    have hl : 0xDC00 + (c - 0x10000) % 0x400 < 0x10000 := by omega
    have hpair : (isHigh (0xD800 + (c - 0x10000) / 0x400).toUInt16 &&
        isLow (0xDC00 + (c - 0x10000) % 0x400).toUInt16) := by
      rw [and_eq_true, isHigh_iff, isLow_iff, toNat_toUInt16 hh, toNat_toUInt16 hl]
      omega
    rw [cons_append, singleton_append, codePoints, if_pos hpair, toNat_toUInt16 hh,
      toNat_toUInt16 hl, pair_halves (not_lt.1 hc)]

lemma codePoints_flatMap {cs : List ℕ} (h : ∀ c ∈ cs, IsScalar c) :
    codePoints (cs.flatMap unitsOfPoint) = cs := by
  induction cs with
  | nil => rfl
  | cons c cs ih =>
    rw [flatMap_cons, codePoints_unitsOfPoint (h c mem_cons_self),
      ih fun d hd => h d (mem_cons_of_mem c hd)]

end Utf16

namespace Utf8

open Utf16

/-! ## Bytes -/

/-- The number of bytes of a code point. -/
def size (c : ℕ) : ℕ := if c < 0x80 then 1 else if c < 0x800 then 2 else if c < 0x10000 then 3 else 4

/-- The bytes of a scalar value. -/
def encode (c : ℕ) : List ℕ :=
  if c < 0x80 then [c]
  else if c < 0x800 then [0xC0 + c / 64, 0x80 + c % 64]
  else if c < 0x10000 then [0xE0 + c / 4096, 0x80 + c / 64 % 64, 0x80 + c % 64]
  else [0xF0 + c / 262144, 0x80 + c / 4096 % 64, 0x80 + c / 64 % 64, 0x80 + c % 64]

lemma length_encode (c : ℕ) : (encode c).length = size c := by
  unfold encode size
  split_ifs <;> rfl

lemma size_pos (c : ℕ) : 0 < size c := by
  unfold size
  split_ifs <;> omega

lemma size_le (c : ℕ) : size c ≤ 4 := by
  unfold size
  split_ifs <;> omega

lemma size_scrub (c : ℕ) : size (scrub c) = size c := by
  unfold scrub
  split
  next hc =>
    obtain ⟨hlow, hhigh⟩ := hc
    rw [size, size, if_neg (by omega), if_neg (by omega), if_pos (by omega), if_neg (by omega),
      if_neg (by omega), if_pos (by omega)]
  next => rfl

/-- Where a decoder stands: between code points; or inside one, with the bounds of the next byte,
the number of bytes after it and the bits read. -/
inductive State where
  | start
  | inside (after low high bits : ℕ)

/-- The first byte of a code point. -/
def first (b : ℕ) : List ℕ × State :=
  if b < 0x80 then ([b], .start)
  else if 0xC2 ≤ b ∧ b ≤ 0xDF then ([], .inside 0 0x80 0xBF (b - 0xC0))
  else if 0xE0 ≤ b ∧ b ≤ 0xEF then
    ([], .inside 1 (if b = 0xE0 then 0xA0 else 0x80) (if b = 0xED then 0x9F else 0xBF) (b - 0xE0))
  else if 0xF0 ≤ b ∧ b ≤ 0xF4 then
    ([], .inside 2 (if b = 0xF0 then 0x90 else 0x80) (if b = 0xF4 then 0x8F else 0xBF) (b - 0xF0))
  else ([0xFFFD], .start)

/-- The code points a byte completes, and the state after it. A byte that cannot continue breaks
the code point off and is read as a first byte. -/
def step : State → ℕ → List ℕ × State
  | .start, b => first b
  | .inside after low high bits, b =>
    if low ≤ b ∧ b ≤ high then
      if after = 0 then ([bits * 64 + (b - 0x80)], .start)
      else ([], .inside (after - 1) 0x80 0xBF (bits * 64 + (b - 0x80)))
    else (0xFFFD :: (first b).1, (first b).2)

/-- The code points of the bytes from a state on. -/
def decodeFrom : State → List ℕ → List ℕ
  | .start, [] => []
  | .inside .., [] => [0xFFFD]
  | s, b :: bs => (step s b).1 ++ decodeFrom (step s b).2 bs

def decode (bytes : List ℕ) : List ℕ := decodeFrom .start bytes

@[simp] lemma decodeFrom_cons (s : State) (b : ℕ) (bs : List ℕ) :
    decodeFrom s (b :: bs) = (step s b).1 ++ decodeFrom (step s b).2 bs := by
  cases s <;> rfl

@[simp] lemma step_start (b : ℕ) : step .start b = first b := rfl

lemma step_last {low high bits b : ℕ} (h : low ≤ b ∧ b ≤ high) :
    step (.inside 0 low high bits) b = ([bits * 64 + (b - 0x80)], .start) := by
  rw [step, if_pos h, if_pos rfl]

lemma step_inside {n low high bits b : ℕ} (h : low ≤ b ∧ b ≤ high) :
    step (.inside (n + 1) low high bits) b =
      ([], .inside n 0x80 0xBF (bits * 64 + (b - 0x80))) := by
  rw [step, if_pos h, if_neg (Nat.succ_ne_zero n), Nat.add_sub_cancel]

variable {b : ℕ}

lemma first_two (h : 0xC2 ≤ b ∧ b ≤ 0xDF) :
    first b = ([], .inside 0 0x80 0xBF (b - 0xC0)) := by
  rw [first, if_neg (by omega), if_pos h]

lemma first_three (h : 0xE0 ≤ b ∧ b ≤ 0xEF) :
    first b = ([], .inside 1 (if b = 0xE0 then 0xA0 else 0x80) (if b = 0xED then 0x9F else 0xBF)
      (b - 0xE0)) := by
  rw [first, if_neg (by omega), if_neg (by omega), if_pos h]

lemma first_four (h : 0xF0 ≤ b ∧ b ≤ 0xF4) :
    first b = ([], .inside 2 (if b = 0xF0 then 0x90 else 0x80) (if b = 0xF4 then 0x8F else 0xBF)
      (b - 0xF0)) := by
  rw [first, if_neg (by omega), if_neg (by omega), if_neg (by omega), if_pos h]

lemma second_of_three {c : ℕ} (h : IsScalar c) (hlow : 0x800 ≤ c) (hhigh : c < 0x10000) :
    (if 0xE0 + c / 4096 = 0xE0 then 0xA0 else 0x80) ≤ 0x80 + c / 64 % 64 ∧
      0x80 + c / 64 % 64 ≤ if 0xE0 + c / 4096 = 0xED then 0x9F else 0xBF := by
  have hscalar : ¬ (0xD800 ≤ c ∧ c < 0xE000) := h.2
  constructor
  · split <;> omega
  · split <;> omega

lemma second_of_four {c : ℕ} (hlow : 0x10000 ≤ c) (hhigh : c < 0x110000) :
    (if 0xF0 + c / 262144 = 0xF0 then 0x90 else 0x80) ≤ 0x80 + c / 4096 % 64 ∧
      0x80 + c / 4096 % 64 ≤ if 0xF0 + c / 262144 = 0xF4 then 0x8F else 0xBF := by
  constructor
  · split <;> omega
  · split <;> omega

lemma decode_encode_append {c : ℕ} (h : IsScalar c) (bs : List ℕ) :
    decode (encode c ++ bs) = c :: decode bs := by
  have hlast := h.1
  unfold decode encode
  split
  next h1 =>
    simp only [List.singleton_append, decodeFrom_cons, step_start, first, if_pos h1]
  next h1 =>
    split
    next h2 =>
      simp only [List.cons_append, List.nil_append, decodeFrom_cons, step_start]
      rw [first_two (by omega), step_last (by omega)]
      simp only [List.singleton_append, List.nil_append, List.cons.injEq, and_true]
      omega
    next h2 =>
      split
      next h3 =>
        simp only [List.cons_append, List.nil_append, decodeFrom_cons, step_start]
        rw [first_three (by omega), step_inside (second_of_three h (by omega) h3),
          step_last (by omega)]
        simp only [List.singleton_append, List.nil_append, List.cons.injEq, and_true]
        omega
      next h3 =>
        simp only [List.cons_append, List.nil_append, decodeFrom_cons, step_start]
        rw [first_four (by omega), step_inside (second_of_four (by omega) hlast),
          step_inside (by omega), step_last (by omega)]
        simp only [List.singleton_append, List.nil_append, List.cons.injEq, and_true]
        omega

lemma decode_take_encode {c n : ℕ} (h : IsScalar c) (hpos : 0 < n) (hlt : n < size c) :
    decode ((encode c).take n) = [0xFFFD] := by
  have hlast := h.1
  unfold decode encode
  unfold size at hlt
  split
  next h1 =>
    rw [if_pos h1] at hlt
    omega
  next h1 =>
    rw [if_neg h1] at hlt
    split
    next h2 =>
      rw [if_pos h2] at hlt
      obtain rfl : n = 1 := by omega
      simp only [List.take_succ_cons, List.take_zero, decodeFrom_cons, step_start]
      rw [first_two (by omega)]
      rfl
    next h2 =>
      rw [if_neg h2] at hlt
      split
      next h3 =>
        rw [if_pos h3] at hlt
        obtain rfl | rfl : n = 1 ∨ n = 2 := by omega
        · simp only [List.take_succ_cons, List.take_zero, decodeFrom_cons, step_start]
          rw [first_three (by omega)]
          rfl
        · simp only [List.take_succ_cons, List.take_zero, decodeFrom_cons, step_start]
          rw [first_three (by omega), step_inside (second_of_three h (by omega) h3)]
          rfl
      next h3 =>
        rw [if_neg h3] at hlt
        obtain rfl | rfl | rfl : n = 1 ∨ n = 2 ∨ n = 3 := by omega
        · simp only [List.take_succ_cons, List.take_zero, decodeFrom_cons, step_start]
          rw [first_four (by omega)]
          rfl
        · simp only [List.take_succ_cons, List.take_zero, decodeFrom_cons, step_start]
          rw [first_four (by omega), step_inside (second_of_four (by omega) hlast)]
          rfl
        · simp only [List.take_succ_cons, List.take_zero, decodeFrom_cons, step_start]
          rw [first_four (by omega), step_inside (second_of_four (by omega) hlast),
            step_inside (by omega)]
          rfl

/-! ## Cutting -/

/-- The code points that lie within the first `n` bytes. -/
def prefixWithin : ℕ → List ℕ → List ℕ
  | _, [] => []
  | n, c :: cs => if size c ≤ n then c :: prefixWithin (n - size c) cs else []

/-- The bytes of the first `n` that belong to a code point cut by them. -/
def leftover : ℕ → List ℕ → ℕ
  | _, [] => 0
  | n, c :: cs => if size c ≤ n then leftover (n - size c) cs else n

/-- The number of bytes of a list of code points. -/
def sizeSum : List ℕ → ℕ
  | [] => 0
  | c :: cs => size c + sizeSum cs

lemma sizeSum_cons (c : ℕ) (cs : List ℕ) : sizeSum (c :: cs) = size c + sizeSum cs := rfl

lemma length_flatMap_encode (cs : List ℕ) : (cs.flatMap encode).length = sizeSum cs := by
  induction cs with
  | nil => rfl
  | cons c cs ih => rw [List.flatMap_cons, List.length_append, length_encode, ih, sizeSum_cons]

lemma prefixWithin_isPrefix (n : ℕ) (cs : List ℕ) : prefixWithin n cs <+: cs := by
  induction cs generalizing n with
  | nil => exact List.prefix_refl []
  | cons c cs ih =>
    unfold prefixWithin
    split
    next => exact List.cons_prefix_cons.2 ⟨rfl, ih _⟩
    next => exact List.nil_prefix

variable {cs : List ℕ} {n : ℕ}

/-- Cut bytes: the code points within and the bytes left over; nothing is left over when all lie
within. -/
lemma sizeSum_prefixWithin (h : n < sizeSum cs) :
    sizeSum (prefixWithin n cs) + leftover n cs = n := by
  induction cs generalizing n with
  | nil => exact absurd h (Nat.not_lt_zero n)
  | cons c cs ih =>
    rw [sizeSum_cons] at h
    unfold prefixWithin leftover
    split
    next hc =>
      have hrest : n - size c < sizeSum cs := by omega
      have := ih hrest
      rw [sizeSum_cons]
      omega
    next => simp [sizeSum]

lemma sizeSum_append (cs ds : List ℕ) : sizeSum (cs ++ ds) = sizeSum cs + sizeSum ds := by
  induction cs with
  | nil => exact (Nat.zero_add _).symm
  | cons c cs ih => rw [List.cons_append, sizeSum_cons, sizeSum_cons, ih, Nat.add_assoc]

lemma sizeSum_map_scrub (cs : List ℕ) : sizeSum (cs.map scrub) = sizeSum cs := by
  induction cs with
  | nil => rfl
  | cons c cs ih => rw [List.map_cons, sizeSum_cons, sizeSum_cons, size_scrub, ih]

lemma prefixWithin_map_scrub (n : ℕ) (cs : List ℕ) :
    prefixWithin n (cs.map scrub) = (prefixWithin n cs).map scrub := by
  induction cs generalizing n with
  | nil => rfl
  | cons c cs ih =>
    rw [List.map_cons, prefixWithin, prefixWithin, size_scrub, ih]
    split <;> rfl

lemma leftover_map_scrub (n : ℕ) (cs : List ℕ) : leftover n (cs.map scrub) = leftover n cs := by
  induction cs generalizing n with
  | nil => rfl
  | cons c cs ih => rw [List.map_cons, leftover, leftover, size_scrub, ih]

/-- Behind the code points within comes one with more bytes than are left over. -/
lemma exists_of_leftover_pos (h : 0 < leftover n cs) :
    ∃ c rest, cs = prefixWithin n cs ++ c :: rest ∧ leftover n cs < size c := by
  induction cs generalizing n with
  | nil => exact absurd h (Nat.lt_irrefl 0)
  | cons c cs ih =>
    rw [leftover] at h
    rw [leftover, prefixWithin]
    split
    next hc =>
      rw [if_pos hc] at h
      obtain ⟨d, rest, hcs, hlt⟩ := ih h
      exact ⟨d, rest, by rw [List.cons_append, ← hcs], hlt⟩
    next hc => exact ⟨c, cs, rfl, not_le.1 hc⟩

/-- Decoding the first `n` bytes of scalar values: those within, and one U+FFFD for a cut one.

**Proof sketch.** Induction on the code points. One that lies within is decoded to itself and the
rest is cut at the remaining bytes; one that does not is cut to some of its bytes, or to none. -/
lemma decode_take {cs : List ℕ} (h : ∀ c ∈ cs, IsScalar c) (n : ℕ) :
    decode ((cs.flatMap encode).take n) =
      prefixWithin n cs ++ if leftover n cs = 0 then [] else [0xFFFD] := by
  induction cs generalizing n with
  | nil => rw [List.flatMap_nil, List.take_nil]; rfl
  | cons c cs ih =>
    have hc := h c List.mem_cons_self
    have hcs := ih fun d hd => h d (List.mem_cons_of_mem c hd)
    rw [List.flatMap_cons, List.take_append, length_encode, prefixWithin, leftover]
    split
    next hle =>
      rw [List.take_of_length_le (by rw [length_encode]; exact hle), decode_encode_append hc, hcs,
        List.cons_append]
    next hlt =>
      rw [not_le] at hlt
      rw [Nat.sub_eq_zero_of_le hlt.le, List.take_zero, List.append_nil, List.nil_append]
      split
      next hzero => rw [hzero, List.take_zero]; rfl
      next hpos => exact decode_take_encode hc (Nat.pos_of_ne_zero hpos) hlt

/-! ## Strings -/

/-- `Buffer.from(text, 'utf8')` -/
def ofText (text : JsString) : List ℕ := (codePoints text).flatMap fun c => encode (scrub c)

/-- `buffer.toString('utf8')` -/
def toText (bytes : List ℕ) : JsString := (decode bytes).flatMap unitsOfPoint

/-- `Buffer.byteLength(text, 'utf8')` -/
def byteLength (text : JsString) : ℕ := (ofText text).length

lemma byteLength_eq (text : JsString) : byteLength text = sizeSum (codePoints text) := by
  have hmap : ofText text = ((codePoints text).map scrub).flatMap encode := by
    rw [List.flatMap_map]
    rfl
  rw [byteLength, hmap, length_flatMap_encode, sizeSum_map_scrub]

lemma byteLength_flatMap (h : ∀ c ∈ cs, IsScalar c) :
    byteLength (cs.flatMap unitsOfPoint) = sizeSum cs := by
  rw [byteLength_eq, codePoints_flatMap h]

/-- The code points of a string within the first `n` bytes, scrubbed, are scalar values. -/
lemma isScalar_of_mem_prefixWithin {text : JsString} :
    ∀ c ∈ (prefixWithin n (codePoints text)).map scrub, IsScalar c := by
  intro c hc
  obtain ⟨d, hd, rfl⟩ := List.mem_map.1 hc
  exact isScalar_scrub (lt_of_mem_codePoints d ((prefixWithin_isPrefix n _).subset hd))

/-- The first `n` bytes of a string, decoded: its code points within, scrubbed, and one U+FFFD for a
cut one. -/
lemma toText_take_ofText (text : JsString) (n : ℕ) :
    toText ((ofText text).take n) =
      ((prefixWithin n (codePoints text)).map scrub).flatMap unitsOfPoint ++
        if leftover n (codePoints text) = 0 then [] else [0xFFFD] := by
  have hscalar : ∀ c ∈ (codePoints text).map scrub, IsScalar c := by
    intro c hc
    obtain ⟨d, hd, rfl⟩ := List.mem_map.1 hc
    exact isScalar_scrub (lt_of_mem_codePoints d hd)
  have hmap : ofText text = ((codePoints text).map scrub).flatMap encode := by
    rw [List.flatMap_map]
    rfl
  rw [toText, hmap, decode_take hscalar, prefixWithin_map_scrub, leftover_map_scrub,
    List.flatMap_append]
  congr 1
  split <;> rfl

end Utf8
