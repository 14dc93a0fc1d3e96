import Mathlib.Algebra.BigOperators.Group.List.Basic
import Mathlib.Algebra.Order.Ring.Int
import Yantra.Lib.Utf8

/-!
# The replay evidence ledger

Every successful extract appends one entry to a bounded ledger: a text over the byte limit is cut,
and the oldest entries go while there are too many entries or too many bytes. The cut is made in the
UTF-8 bytes, which are then decoded, so a code point of four bytes that is cut to three becomes one
U+FFFD of three bytes and stays.

## Main definitions

* `truncateUtf8`, `ReplayEvidenceLedger.append` — the cut and the append.
* `CutsCleanly` — a text fits, or is cut where only whole, paired code points are kept.

## Main results

* `evidence_kept_iff` — the ledger is as it should be after every append exactly when every
  text is cut cleanly.
-/

namespace Yantra

open Utf16 Utf8 List

/-! ## Cutting a text -/

/-- The loop of `truncateUtf8`, which drops code units from the end while there are too many bytes;
it runs at most once for each code unit. -/
def dropWhileOver (maxBytes : ℕ) : ℕ → JsString → JsString
  | 0, sliced => sliced
  | n + 1, sliced =>
    if 0 < sliced.length ∧ maxBytes < byteLength sliced then
      dropWhileOver maxBytes n sliced.dropLast
    else sliced

def truncateUtf8 (text : JsString) (maxBytes : ℕ) : JsString :=
  if byteLength text ≤ maxBytes then text
  else
    let sliced := toText ((ofText text).take maxBytes)
    dropWhileOver maxBytes sliced.length sliced

/-- The text fits; or the bytes within the limit hold no unpaired surrogate and do not end three
bytes into a code point. -/
def CutsCleanly (maxBytes : ℕ) (text : JsString) : Prop :=
  byteLength text ≤ maxBytes ∨
    (∀ c ∈ prefixWithin maxBytes (codePoints text), ¬ IsSurrogate c) ∧
      leftover maxBytes (codePoints text) ≠ 3

instance (maxBytes : ℕ) (text : JsString) : Decidable (CutsCleanly maxBytes text) :=
  inferInstanceAs (Decidable (_ ∨ _ ∧ _))

variable {maxBytes : ℕ}

variable {s : JsString}

lemma dropWhileOver_of_le (h : byteLength s ≤ maxBytes) (n : ℕ) :
    dropWhileOver maxBytes n s = s := by
  cases n with
  | zero => rfl
  | succ n => rw [dropWhileOver, if_neg fun hlt => absurd hlt.2 (not_lt.2 h)]

lemma dropWhileOver_concat {u : CodeUnit} (hover : maxBytes < byteLength (s ++ [u]))
    (hfits : byteLength s ≤ maxBytes) :
    dropWhileOver maxBytes (s ++ [u]).length (s ++ [u]) = s := by
  rw [length_append, length_singleton, dropWhileOver, dropLast_concat,
    if_pos ⟨by simp, hover⟩, dropWhileOver_of_le hfits]

/-- The code points within the limit, as the text keeps them. -/
def keptUnits (maxBytes : ℕ) (text : JsString) : JsString :=
  ((prefixWithin maxBytes (codePoints text)).map scrub).flatMap unitsOfPoint

lemma byteLength_keptUnits (maxBytes : ℕ) (text : JsString) :
    byteLength (keptUnits maxBytes text) = sizeSum (prefixWithin maxBytes (codePoints text)) := by
  rw [keptUnits, byteLength_flatMap isScalar_of_mem_prefixWithin, sizeSum_map_scrub]

lemma byteLength_keptUnits_concat (maxBytes : ℕ) (text : JsString) :
    byteLength (keptUnits maxBytes text ++ [0xFFFD]) =
      sizeSum (prefixWithin maxBytes (codePoints text)) + 3 := by
  have hscalar : ∀ c ∈ (prefixWithin maxBytes (codePoints text)).map scrub ++ [0xFFFD],
      IsScalar c := by
    intro c hc
    obtain hc | hc := mem_append.1 hc
    · exact isScalar_of_mem_prefixWithin c hc
    · rw [mem_singleton.1 hc]
      refine ⟨by decide, by decide⟩
  have hunits : keptUnits maxBytes text ++ [0xFFFD] =
      ((prefixWithin maxBytes (codePoints text)).map scrub ++ [0xFFFD]).flatMap unitsOfPoint := by
    rw [flatMap_append]
    rfl
  rw [hunits, byteLength_flatMap hscalar, sizeSum_append, sizeSum_map_scrub]
  rfl

lemma leftover_lt_four (n : ℕ) (cs : List ℕ) : leftover n cs < 4 := by
  obtain hzero | hpos := Nat.eq_zero_or_pos (leftover n cs)
  · omega
  · obtain ⟨c, -, -, hlt⟩ := exists_of_leftover_pos hpos
    exact hlt.trans_le (size_le c)

/-- A text over the limit keeps its code points within, and a U+FFFD when three bytes are left
over.

**Proof sketch.** The bytes within and those left over are exactly the limit. A U+FFFD for three
left over fits; one for fewer does not, and the loop takes it off. -/
lemma truncateUtf8_eq {maxBytes : ℕ} {text : JsString} (h : maxBytes < byteLength text) :
    truncateUtf8 text maxBytes =
      keptUnits maxBytes text ++ if leftover maxBytes (codePoints text) = 3 then [0xFFFD] else [] := by
  have hsum : sizeSum (prefixWithin maxBytes (codePoints text)) +
      leftover maxBytes (codePoints text) = maxBytes :=
    sizeSum_prefixWithin (by rwa [byteLength_eq] at h)
  have hlt := leftover_lt_four maxBytes (codePoints text)
  have hkept := byteLength_keptUnits maxBytes text
  have hconcat := byteLength_keptUnits_concat maxBytes text
  rw [truncateUtf8, if_neg (not_le.2 h)]
  simp only [toText_take_ofText]
  rw [← keptUnits]
  by_cases hzero : leftover maxBytes (codePoints text) = 0
  · rw [if_pos hzero, if_neg (by omega), append_nil, dropWhileOver_of_le (by omega)]
  · rw [if_neg hzero]
    by_cases hthree : leftover maxBytes (codePoints text) = 3
    · rw [if_pos hthree, dropWhileOver_of_le (by omega)]
    · rw [if_neg hthree, append_nil, dropWhileOver_concat (by omega) (by omega)]

lemma byteLength_truncateUtf8_le (text : JsString) (maxBytes : ℕ) :
    byteLength (truncateUtf8 text maxBytes) ≤ maxBytes := by
  obtain h | h := le_or_gt (byteLength text) maxBytes
  · rwa [truncateUtf8, if_pos h]
  · have hsum : sizeSum (prefixWithin maxBytes (codePoints text)) +
        leftover maxBytes (codePoints text) = maxBytes :=
      sizeSum_prefixWithin (by rwa [byteLength_eq] at h)
    have hkept := byteLength_keptUnits maxBytes text
    have hconcat := byteLength_keptUnits_concat maxBytes text
    rw [truncateUtf8_eq h]
    split
    next hthree => omega
    next =>
      rw [append_nil]
      omega

/-! ## Prefixes -/

lemma length_flatMap_scrub (cs : List ℕ) :
    ((cs.map scrub).flatMap unitsOfPoint).length = (cs.flatMap unitsOfPoint).length := by
  induction cs with
  | nil => rfl
  | cons c cs ih =>
    rw [map_cons, flatMap_cons, flatMap_cons, length_append, length_append,
      ih, length_unitsOfPoint_scrub]

lemma flatMap_scrub_eq_iff (cs : List ℕ) :
    (cs.map scrub).flatMap unitsOfPoint = cs.flatMap unitsOfPoint ↔ ∀ c ∈ cs, ¬ IsSurrogate c := by
  induction cs with
  | nil => simp
  | cons c cs ih =>
    rw [map_cons, flatMap_cons, flatMap_cons, forall_mem_cons, ← ih]
    constructor
    · intro h
      obtain ⟨hhead, htail⟩ := append_inj h (length_unitsOfPoint_scrub c)
      exact ⟨not_isSurrogate_of_scrub hhead, htail⟩
    · rintro ⟨hc, htail⟩
      rw [scrub_of_not hc, htail]

lemma flatMap_prefixWithin_isPrefix (maxBytes : ℕ) (text : JsString) :
    (prefixWithin maxBytes (codePoints text)).flatMap unitsOfPoint <+: text := by
  obtain ⟨rest, hrest⟩ := prefixWithin_isPrefix maxBytes (codePoints text)
  refine ⟨rest.flatMap unitsOfPoint, ?_⟩
  rw [← flatMap_append, hrest, flatMap_codePoints]

lemma keptUnits_prefix_iff (maxBytes : ℕ) (text : JsString) :
    keptUnits maxBytes text <+: text ↔
      ∀ c ∈ prefixWithin maxBytes (codePoints text), ¬ IsSurrogate c := by
  have hwithin := flatMap_prefixWithin_isPrefix maxBytes text
  have hlen := length_flatMap_scrub (prefixWithin maxBytes (codePoints text))
  rw [← flatMap_scrub_eq_iff]
  constructor
  · intro hkept
    exact (prefix_of_prefix_length_le hkept hwithin hlen.le).eq_of_length hlen
  · intro heq
    rw [keptUnits, heq]
    exact hwithin

variable {text : JsString}

lemma not_concat_isPrefix (h : leftover maxBytes (codePoints text) = 3) :
    ¬ keptUnits maxBytes text ++ [0xFFFD] <+: text := by
  intro hconcat
  have hkept : keptUnits maxBytes text =
      (prefixWithin maxBytes (codePoints text)).flatMap unitsOfPoint :=
    (flatMap_scrub_eq_iff _).2
      ((keptUnits_prefix_iff maxBytes text).1 ((prefix_append _ _).trans hconcat))
  have hpos : 0 < leftover maxBytes (codePoints text) := by omega
  obtain ⟨c, rest, hcs, hsize⟩ := exists_of_leftover_pos hpos
  have hfour : ¬ c < 0x10000 := by
    intro hlt
    rw [h] at hsize
    unfold size at hsize
    split_ifs at hsize <;> omega
  have hbound : c < 0x110000 := lt_of_mem_codePoints c (by rw [hcs]; simp)
  have htext := flatMap_codePoints text
  rw [hcs, flatMap_append, ← hkept, flatMap_cons, unitsOfPoint, if_neg hfour] at htext
  obtain ⟨after, hafter⟩ := hconcat
  rw [append_assoc] at hafter
  have hunits := append_cancel_left (htext.trans hafter.symm)
  have hhead := congrArg UInt16.toNat (List.cons.inj hunits).1
  rw [toNat_toUInt16 (by omega)] at hhead
  have hval : (0xFFFD : CodeUnit).toNat = 0xFFFD := by decide
  omega

lemma truncateUtf8_prefix_iff (text : JsString) (maxBytes : ℕ) :
    truncateUtf8 text maxBytes <+: text ↔ CutsCleanly maxBytes text := by
  obtain h | h := le_or_gt (byteLength text) maxBytes
  · rw [truncateUtf8, if_pos h]
    exact ⟨fun _ => .inl h, fun _ => prefix_refl text⟩
  · rw [truncateUtf8_eq h, CutsCleanly, or_iff_right (not_le.2 h), ← keptUnits_prefix_iff]
    split
    next hthree =>
      exact ⟨fun hconcat => absurd hconcat (not_concat_isPrefix hthree),
        fun hclean => absurd hthree hclean.2⟩
    next hthree =>
      rw [append_nil]
      exact ⟨fun hkept => ⟨hkept, hthree⟩, And.left⟩

lemma length_truncateUtf8_lt (h : maxBytes < byteLength text) :
    (truncateUtf8 text maxBytes).length < text.length := by
  have hbytes : maxBytes < sizeSum (codePoints text) := by rwa [byteLength_eq] at h
  have hlen := length_flatMap_scrub (prefixWithin maxBytes (codePoints text))
  obtain ⟨rest, hrest⟩ := prefixWithin_isPrefix maxBytes (codePoints text)
  have htext : text.length = (keptUnits maxBytes text).length + (rest.flatMap unitsOfPoint).length := by
    rw [keptUnits, hlen, ← length_append, ← flatMap_append, hrest, flatMap_codePoints]
  rw [truncateUtf8_eq h]
  split
  next hthree =>
    -- three bytes are left over of a code point of two code units
    have hpos : 0 < leftover maxBytes (codePoints text) := by omega
    obtain ⟨c, rest', hcs, hsize⟩ := exists_of_leftover_pos hpos
    have hfour : ¬ c < 0x10000 := by
      intro hlt
      rw [hthree] at hsize
      unfold size at hsize
      split_ifs at hsize <;> omega
    obtain rfl : rest = c :: rest' := append_cancel_left (hrest.trans hcs)
    rw [flatMap_cons, unitsOfPoint, if_neg hfour] at htext
    simp only [length_append, length_cons, length_nil] at htext ⊢
    omega
  next =>
    cases rest with
    | nil =>
      rw [append_nil] at hrest
      have hsum := sizeSum_prefixWithin hbytes
      rw [hrest] at hsum
      omega
    | cons c rest =>
      have hpos : 0 < (unitsOfPoint c).length := by
        unfold unitsOfPoint
        split <;> simp
      rw [flatMap_cons, length_append] at htext
      rw [append_nil]
      omega

/-! ## The ledger -/

structure ReplayEvidenceEntry where
  url : JsString
  finalUrl : Option JsString
  host : JsString
  title : Option JsString
  text : JsString
  fetchedAt : JsString
  stepId : JsString

structure ReplayEvidenceLedger where
  maxEntries : ℕ
  maxTextBytes : ℕ
  items : List ReplayEvidenceEntry := []
  textBytes : ℤ := 0
  overflow : ℕ := 0

def ReplayEvidenceEntry.stored (entry : ReplayEvidenceEntry) (maxTextBytes : ℕ) :
    ReplayEvidenceEntry :=
  let text := truncateUtf8 entry.text maxTextBytes
  if text = entry.text then entry else { entry with text := text }

namespace ReplayEvidenceLedger

/-- The loop of `append`, which drops the oldest entry while a cap is exceeded: the entries, the
bytes and the overflow it leaves. -/
def trim (maxEntries maxTextBytes : ℕ) :
    List ReplayEvidenceEntry → ℤ → ℕ → List ReplayEvidenceEntry × ℤ × ℕ
  | [], textBytes, overflow => ([], textBytes, overflow)
  | dropped :: items, textBytes, overflow =>
    if maxEntries < (dropped :: items).length ∨ maxTextBytes < textBytes then
      trim maxEntries maxTextBytes items (textBytes - byteLength dropped.text) (overflow + 1)
    else (dropped :: items, textBytes, overflow)

def append (ledger : ReplayEvidenceLedger) (entry : ReplayEvidenceEntry) : ReplayEvidenceLedger :=
  let text := truncateUtf8 entry.text ledger.maxTextBytes
  let overflow := if text.length ≠ entry.text.length then ledger.overflow + 1 else ledger.overflow
  let stored := entry.stored ledger.maxTextBytes
  let trimmed := trim ledger.maxEntries ledger.maxTextBytes (ledger.items ++ [stored])
    (ledger.textBytes + byteLength stored.text) overflow
  { ledger with items := trimmed.1, textBytes := trimmed.2.1, overflow := trimmed.2.2 }

/-- A new ledger after the entries were appended in order. -/
def appendAll (maxEntries maxTextBytes : ℕ) (log : List ReplayEvidenceEntry) :
    ReplayEvidenceLedger :=
  log.foldl append { maxEntries := maxEntries, maxTextBytes := maxTextBytes }

def bytesOf (items : List ReplayEvidenceEntry) : ℕ := (items.map fun e => byteLength e.text).sum

def overLimit (maxTextBytes : ℕ) (log : List ReplayEvidenceEntry) : ℕ :=
  log.countP fun e => maxTextBytes < byteLength e.text

/-- A retained entry is the appended one, its text the original or a prefix of it. -/
def RetainedFrom (kept appended : ReplayEvidenceEntry) : Prop :=
  kept = { appended with text := kept.text } ∧ kept.text <+: appended.text

/-- What a ledger should be after the entries of a log were appended: within both caps, the last
entries in order and the newest among them, its byte total that of the texts, its overflow the
entries dropped and the entries over the limit. -/
structure Keeps (maxEntries maxTextBytes : ℕ) (log : List ReplayEvidenceEntry)
    (ledger : ReplayEvidenceLedger) : Prop where
  entries_le : ledger.items.length ≤ maxEntries
  bytes_le : bytesOf ledger.items ≤ maxTextBytes
  textBytes_eq : ledger.textBytes = bytesOf ledger.items
  retained : ∃ dropped, (log ≠ [] → dropped < log.length) ∧
    List.Forall₂ RetainedFrom ledger.items (log.drop dropped) ∧
    ledger.overflow = dropped + overLimit maxTextBytes log

/-- What is true of every ledger, whatever texts were appended. -/
structure Holds (maxEntries maxTextBytes : ℕ) (log : List ReplayEvidenceEntry)
    (ledger : ReplayEvidenceLedger) (dropped : ℕ) : Prop where
  maxEntries_eq : ledger.maxEntries = maxEntries
  maxTextBytes_eq : ledger.maxTextBytes = maxTextBytes
  entries_le : ledger.items.length ≤ maxEntries
  bytes_le : bytesOf ledger.items ≤ maxTextBytes
  textBytes_eq : ledger.textBytes = bytesOf ledger.items
  dropped_lt : dropped < max 1 log.length
  items_eq : ledger.items = (log.drop dropped).map fun e => e.stored maxTextBytes
  overflow_eq : ledger.overflow = dropped + overLimit maxTextBytes log

variable (e : ReplayEvidenceEntry)

lemma bytesOf_cons (items : List ReplayEvidenceEntry) :
    bytesOf (e :: items) = byteLength e.text + bytesOf items := by
  simp [bytesOf]

lemma bytesOf_append (items items' : List ReplayEvidenceEntry) :
    bytesOf (items ++ items') = bytesOf items + bytesOf items' := by
  simp [bytesOf]

/-- The trimming loop drops some of the oldest entries, keeps the newest when it fits, and leaves
the totals right.

**Proof sketch.** Induction on the entries before the newest: each is dropped, with its bytes, or
the loop ends there. The newest alone is within both caps. -/
lemma trim_spec {maxEntries maxTextBytes : ℕ} {newest : ReplayEvidenceEntry} (hmax : 1 ≤ maxEntries)
    (hnewest : byteLength newest.text ≤ maxTextBytes) (items : List ReplayEvidenceEntry)
    (overflow : ℕ) :
    ∃ k ≤ items.length,
      trim maxEntries maxTextBytes (items ++ [newest]) (bytesOf (items ++ [newest])) overflow =
        (items.drop k ++ [newest], (bytesOf (items.drop k ++ [newest]) : ℤ), overflow + k) ∧
      (items.drop k ++ [newest]).length ≤ maxEntries ∧
      bytesOf (items.drop k ++ [newest]) ≤ maxTextBytes := by
  induction items generalizing overflow with
  | nil =>
    have hbytes : bytesOf [newest] ≤ maxTextBytes := by simpa [bytesOf] using hnewest
    refine ⟨0, le_rfl, ?_, hmax, hbytes⟩
    rw [nil_append, trim, if_neg]
    · rfl
    · rintro (hlen | hlt)
      · exact absurd hmax (not_le.2 hlen)
      · exact absurd hbytes (not_le.2 (by exact_mod_cast hlt))
  | cons e items ih =>
    rw [cons_append, trim]
    split
    next =>
      obtain ⟨k, hk, htrim, hlen, hbytes⟩ := ih (overflow + 1)
      refine ⟨k + 1, Nat.succ_le_succ hk, ?_, hlen, hbytes⟩
      have hrest : (bytesOf (e :: (items ++ [newest])) : ℤ) - byteLength e.text =
          bytesOf (items ++ [newest]) := by
        rw [bytesOf_cons, Nat.cast_add, add_sub_cancel_left]
      rw [hrest, htrim, drop_succ_cons, Nat.add_right_comm, Nat.add_assoc overflow]
    next hcaps =>
      rw [not_or, not_lt, not_lt] at hcaps
      exact ⟨0, Nat.zero_le _, rfl, hcaps.1, by exact_mod_cast hcaps.2⟩

lemma byteLength_stored_le (maxTextBytes : ℕ) :
    byteLength (e.stored maxTextBytes).text ≤ maxTextBytes := by
  have hle := byteLength_truncateUtf8_le e.text maxTextBytes
  unfold ReplayEvidenceEntry.stored
  dsimp only
  split
  next heq => rwa [heq] at hle
  next => exact hle

lemma stored_eq (maxTextBytes : ℕ) :
    e.stored maxTextBytes = { e with text := truncateUtf8 e.text maxTextBytes } := by
  unfold ReplayEvidenceEntry.stored
  dsimp only
  split
  next heq => rw [heq]
  next => rfl

lemma length_truncateUtf8_ne_iff (text : JsString) (maxBytes : ℕ) :
    (truncateUtf8 text maxBytes).length ≠ text.length ↔ maxBytes < byteLength text := by
  constructor
  · intro hne
    by_contra hle
    exact hne (by rw [truncateUtf8, if_pos (not_lt.1 hle)])
  · intro hlt
    exact (length_truncateUtf8_lt hlt).ne

variable {log : List ReplayEvidenceEntry} {ledger : ReplayEvidenceLedger}
  {maxEntries maxTextBytes : ℕ} {dropped : ℕ}

lemma Holds.append (hmax : 1 ≤ maxEntries) (h : Holds maxEntries maxTextBytes log ledger dropped)
    (e : ReplayEvidenceEntry) :
    ∃ dropped', Holds maxEntries maxTextBytes (log ++ [e]) (ledger.append e) dropped' := by
  obtain ⟨hentries, htext, -, -, hbytes, hdropped, hitems, hoverflow⟩ := h
  obtain ⟨k, hk, htrim, hlen, hle⟩ := trim_spec hmax (byteLength_stored_le e maxTextBytes)
    ledger.items
    (if (truncateUtf8 e.text maxTextBytes).length ≠ e.text.length then ledger.overflow + 1
      else ledger.overflow)
  have htotal : ledger.textBytes + byteLength (e.stored maxTextBytes).text =
      bytesOf (ledger.items ++ [e.stored maxTextBytes]) := by
    rw [hbytes, bytesOf_append]
    simp [bytesOf]
  have happend : ledger.append e =
      { ledger with
        items := ledger.items.drop k ++ [e.stored maxTextBytes]
        textBytes := (bytesOf (ledger.items.drop k ++ [e.stored maxTextBytes]) : ℤ)
        overflow := (if (truncateUtf8 e.text maxTextBytes).length ≠ e.text.length then
          ledger.overflow + 1 else ledger.overflow) + k } := by
    unfold ReplayEvidenceLedger.append
    simp only [hentries, htext, htotal, htrim]
  have hcut : dropped + k ≤ log.length := by
    rw [hitems, length_map, length_drop] at hk
    omega
  have hkept : ledger.items.drop k ++ [e.stored maxTextBytes] =
      ((log ++ [e]).drop (dropped + k)).map fun e => e.stored maxTextBytes := by
    rw [drop_append_of_le_length hcut, hitems, ← map_drop, drop_drop, map_append]
    rfl
  rw [happend]
  refine ⟨dropped + k, hentries, htext, hlen, hle, rfl, ?_, hkept, ?_⟩
  · rw [length_append, length_singleton]
    omega
  · have hover : overLimit maxTextBytes (log ++ [e]) = overLimit maxTextBytes log +
        if maxTextBytes < byteLength e.text then 1 else 0 := by
      simp [overLimit, countP_append, countP_cons]
    simp only [length_truncateUtf8_ne_iff, hoverflow, hover]
    split <;> omega

/-- Whatever texts are appended, the ledger is within its caps, holds the last entries with their
texts cut, and counts its bytes and what it lost. -/
lemma appendAll_spec {maxEntries : ℕ} (hmax : 1 ≤ maxEntries) (maxTextBytes : ℕ)
    (log : List ReplayEvidenceEntry) :
    ∃ dropped, Holds maxEntries maxTextBytes log (appendAll maxEntries maxTextBytes log) dropped := by
  induction log using reverseRecOn with
  | nil => exact ⟨0, rfl, rfl, Nat.zero_le _, Nat.zero_le _, rfl, Nat.one_pos, rfl, rfl⟩
  | append_singleton log e ih =>
    obtain ⟨dropped, h⟩ := ih
    rw [appendAll, foldl_append]
    exact h.append hmax e

lemma retainedFrom_stored_iff (maxTextBytes : ℕ) :
    RetainedFrom (e.stored maxTextBytes) e ↔ CutsCleanly maxTextBytes e.text := by
  rw [RetainedFrom, stored_eq, ← truncateUtf8_prefix_iff]
  exact and_iff_right rfl

lemma Holds.keeps (h : Holds maxEntries maxTextBytes log ledger dropped)
    (hclean : ∀ e ∈ log, CutsCleanly maxTextBytes e.text) :
    Keeps maxEntries maxTextBytes log ledger where
  entries_le := h.entries_le
  bytes_le := h.bytes_le
  textBytes_eq := h.textBytes_eq
  retained := by
    refine ⟨dropped, fun hne => ?_, ?_, h.overflow_eq⟩
    · have hpos := length_pos_of_ne_nil hne
      have hlt := h.dropped_lt
      omega
    · rw [h.items_eq, forall₂_map_left_iff, forall₂_same]
      exact fun e he => (retainedFrom_stored_iff e _).2 (hclean e (mem_of_mem_drop he))

/-- After an append the newest entry is retained, so its text was cut cleanly.

**Proof sketch.** Both the retained entries and their originals are the end of the log, of one
length, so the newest of the ones stands for the newest of the others. -/
lemma Holds.cutsCleanly_newest {maxEntries maxTextBytes : ℕ} {log : List ReplayEvidenceEntry}
    {e : ReplayEvidenceEntry} {ledger : ReplayEvidenceLedger} {dropped : ℕ}
    (h : Holds maxEntries maxTextBytes (log ++ [e]) ledger dropped)
    (hkeeps : Keeps maxEntries maxTextBytes (log ++ [e]) ledger) :
    CutsCleanly maxTextBytes e.text := by
  obtain ⟨dropped', hlt, hretained, -⟩ := hkeeps.retained
  have hlt' := hlt (by simp)
  have hdropped := h.dropped_lt
  rw [length_append, length_singleton] at hlt' hdropped
  have hlen := hretained.length_eq
  rw [h.items_eq, length_map, length_drop, length_drop, length_append,
    length_singleton] at hlen
  obtain rfl : dropped' = dropped := by omega
  rw [h.items_eq, forall₂_map_left_iff, forall₂_same] at hretained
  refine (retainedFrom_stored_iff e _).1 (hretained e ?_)
  rw [drop_append_of_le_length (by omega)]
  exact mem_append_right _ mem_cons_self

end ReplayEvidenceLedger

open ReplayEvidenceLedger

/-- A ledger is as it should be after every append, exactly when every appended text fits the byte
limit or is cut cleanly by it. -/
theorem evidence_kept_iff {maxEntries : ℕ} (hmax : 1 ≤ maxEntries) (maxTextBytes : ℕ)
    (log : List ReplayEvidenceEntry) :
    (∀ n ≤ log.length, Keeps maxEntries maxTextBytes (log.take n)
      (appendAll maxEntries maxTextBytes (log.take n))) ↔
    ∀ e ∈ log, CutsCleanly maxTextBytes e.text := by
  constructor
  · intro hkeeps e he
    obtain ⟨before, after, rfl⟩ := List.append_of_mem he
    have hn := hkeeps (before ++ [e]).length (by simp)
    have htake : (before ++ e :: after).take (before ++ [e]).length = before ++ [e] := by
      rw [List.append_cons before e after, List.take_left]
    rw [htake] at hn
    obtain ⟨dropped, hholds⟩ := appendAll_spec hmax maxTextBytes (before ++ [e])
    exact hholds.cutsCleanly_newest hn
  · intro hclean n _
    obtain ⟨dropped, hholds⟩ := appendAll_spec hmax maxTextBytes (log.take n)
    exact hholds.keeps fun e he => hclean e (List.mem_of_mem_take he)

def evidenceOf (text : String) : ReplayEvidenceEntry where
  url := units "https://example.com/a"
  finalUrl := none
  host := units "example.com"
  title := none
  text := units text
  fetchedAt := units "2026-01-01T00:00:00.000Z"
  stepId := units "s3"

/-- Two texts, of which the second is cut behind its second code point. -/
theorem evidence_kept_two : 1 ≤ 2 ∧
    ∀ n ≤ 2, Keeps 2 3 ([evidenceOf "ab", evidenceOf "aéb"].take n)
      (appendAll 2 3 ([evidenceOf "ab", evidenceOf "aéb"].take n)) :=
  ⟨by decide, (evidence_kept_iff (by decide) 3 [evidenceOf "ab", evidenceOf "aéb"]).2
    (by decide +kernel)⟩

/-- A code point of four bytes under a limit of three: U+FFFD is retained, which no prefix of the
text is. -/
theorem evidence_cut_to_replacement :
    ¬ Keeps 1 3 [evidenceOf "😀"] (appendAll 1 3 [evidenceOf "😀"]) := by
  intro hkeeps
  obtain ⟨dropped, hlt, hretained, -⟩ := hkeeps.retained
  obtain rfl : dropped = 0 := Nat.lt_one_iff.1 (hlt nofun)
  have hitems : (appendAll 1 3 [evidenceOf "😀"]).items =
      [{ evidenceOf "😀" with text := [0xFFFD] }] := rfl
  rw [hitems] at hretained
  obtain ⟨⟨-, hprefix⟩, -⟩ := List.forall₂_cons.1 hretained
  exact absurd ( List.isPrefixOf_iff_prefix.2 hprefix) (by decide +kernel)

end Yantra
