import Yantra.Extraction.DocumentStore

/-!
# Reading a page once

Concurrent reads of one page share a load. The settling of a load and the return of the calls that
await it are steps of their own, so that the memo, the index and the slots of the loads in flight
are seen in every state in between.

## Main definitions

* `DocumentStore.StartsLoad` — a call starts a load.
* `ReadsOnce` — what is promised of a state, and of the states after it.

## Main results

* `readsOnce_run` — the promise holds of every run of reads.
-/

namespace Yantra

open List Option Function DocumentStore

variable {canonical : String → String} {s t : DocumentStore}

/-! ## What is promised -/

def StoreEvent.isRead : StoreEvent → Bool
  | .readCalled .. | .loadSettles .. | .loadThrows .. | .readReturns .. => true
  | _ => false

namespace DocumentStore

/-- A call of `read` starts a load. -/
def StartsLoad (canonical : String → String) (s : DocumentStore) (id : ℕ) (url : String) : Prop :=
  (s.step canonical (.readCalled id url)).networkLoads ≠ s.networkLoads

/-- A load for the key has not been handed to its own caller, whether it has settled or not. -/
def Unreturned (s : DocumentStore) (key : String) : Prop :=
  ∃ id c, s.calls id = some c ∧ c.awaits = id ∧ c.key = key ∧ c.answer = none

def Came (s : DocumentStore) (id : ℕ) (key : String) (settled : Settled) : Prop :=
  ∃ c, s.calls id = some c ∧ c.key = key ∧ c.settled = some settled

def Succeeded (s : DocumentStore) (key : String) : Prop :=
  ∃ id r fresh value, s.Came id key (.record r fresh value)

/-- A load for the key failed in a way that cannot change. -/
def FailedTerminally (s : DocumentStore) (key : String) : Prop :=
  ∃ id memo, s.Came id key (.failed true memo)

def MintedAt (s : DocumentStore) (r : ℕ) (record : DocumentRecord) : Prop :=
  (∃ id key value, s.Came id key (.record r true value)) ∧
    s.identities[r]? = some record.identity

end DocumentStore

/-- An answer tells what the load came to: to its own caller, or to another one. -/
def Tells (s : DocumentStore) (own : Bool) : Settled → StoreRead → Prop
  | .record r fresh value, a => ∃ record, s.MintedAt r record ∧
      a = if own && fresh then .fetched (some record) value else .hit (some record)
  | .failed terminal memo, a => a = .failed memo (if own then false else terminal)
  | .threw, a => a = .threw

/-- The answer of a call is what the load that it awaits came to; a call that awaits none has the
record of an earlier load, or an earlier terminal failure for its key. -/
def AnswerOk (s : DocumentStore) (id : ℕ) (c : ReadCall) (a : StoreRead) : Prop :=
  (∃ settled, s.Came c.awaits c.key settled ∧ Tells s (decide (c.awaits = id)) settled a) ∨
    (c.awaits = id ∧ c.settled = none) ∧
      ((∃ r record, s.MintedAt r record ∧ a = .hit (some record)) ∨
        ∃ j memo, s.Came j c.key (.failed true memo) ∧ a = .failed memo true)

/-- What is promised of a state, and of one that comes later. -/
structure ReadsOnce (canonical : String → String) (s later : DocumentStore) : Prop where
  /-- A call starts a load exactly when none for its key is on the way, its key is not bound, and no
  load for it failed terminally. -/
  starts : ∀ id url, s.calls id = none → (s.StartsLoad canonical id url ↔
    ¬ s.Unreturned (canonical url) ∧ s.index (canonical url) = none ∧
      ¬ s.FailedTerminally (canonical url))
  /-- A key is bound only by a load that succeeded, and a success binds its key. -/
  bound : ∀ key, (s.Succeeded key → s.index key ≠ none) ∧
    (s.index key ≠ none → ∃ other, s.Succeeded other)
  /-- No two loads for a key are on the way. -/
  alone : ∀ i j c d, s.calls i = some c → s.calls j = some d → c.awaits = i → d.awaits = j →
    c.answer = none → d.answer = none → c.key = d.key → i = j
  /-- After a success or a terminal failure no load for the key ever starts. -/
  never : ∀ id url, s.Succeeded (canonical url) ∨ s.FailedTerminally (canonical url) →
    ¬ later.StartsLoad canonical id url
  /-- Answers are those of loads that ran. -/
  answers : ∀ id c a, s.calls id = some c → c.answer = some a → AnswerOk s id c a
  /-- What is remembered is a terminal failure, never a load that threw. -/
  remembered : ∀ key memo, s.memo key = some memo → ∃ id, s.Came id key (.failed true memo)
  /-- Once the caller of a load has its answer, the slot is not the load's any more. -/
  cleared : ∀ id c, s.calls id = some c → c.answer ≠ none → s.inFlight c.key ≠ some id

/-! ## The invariant -/

structure ReadCallOk (s : DocumentStore) (id : ℕ) (c : ReadCall) : Prop where
  slot : c.awaits = id → c.answer = none → s.inFlight c.key = some id
  own : c.settled ≠ none → c.awaits = id
  bound : ∀ r fresh value, c.settled = some (.record r fresh value) →
    r < s.identities.length ∧ s.index c.key ≠ none
  noted : ∀ memo, c.settled = some (.failed true memo) → s.memo c.key ≠ none
  joins : ∃ d, s.calls c.awaits = some d ∧ d.awaits = c.awaits ∧ d.key = c.key
  answered : ∀ a, c.answer = some a → AnswerOk s id c a

structure ReadInv (s : DocumentStore) : Prop where
  calls : ∀ id c, s.calls id = some c → ReadCallOk s id c
  slotOf : ∀ key id, s.inFlight key = some id →
    ∃ c, s.calls id = some c ∧ c.awaits = id ∧ c.key = key ∧ c.answer = none
  indexed : ∀ key r, s.index key = some r → r < s.identities.length
  memoOf : ∀ key memo, s.memo key = some memo → ∃ id, s.Came id key (.failed true memo)
  minted : ∀ r, r < s.identities.length → ∃ id key value, s.Came id key (.record r true value)

/-- A later state has the calls of an earlier one with what they came to, its identities in their
places, and its bound and remembered keys. -/
structure StoreGrows (s t : DocumentStore) : Prop where
  calls : ∀ id c, s.calls id = some c → ∃ d, t.calls id = some d ∧ d.key = c.key ∧
    d.awaits = c.awaits ∧ ∀ settled, c.settled = some settled → d.settled = some settled
  identities : ∀ (r : ℕ) x, s.identities[r]? = some x → t.identities[r]? = some x
  index : ∀ key, s.index key ≠ none → t.index key ≠ none
  memo : ∀ key, s.memo key ≠ none → t.memo key ≠ none

lemma StoreGrows.came (h : StoreGrows s t) {id : ℕ} {key : String} {x : Settled}
    (hx : s.Came id key x) : t.Came id key x := by
  obtain ⟨c, hc, hkey, hsettled⟩ := hx
  obtain ⟨d, hd, hkey', -, hsettled'⟩ := h.calls id c hc
  exact ⟨d, hd, hkey'.trans hkey, hsettled' x hsettled⟩

lemma StoreGrows.mintedAt (h : StoreGrows s t) {r : ℕ} {record : DocumentRecord}
    (hr : s.MintedAt r record) : t.MintedAt r record := by
  obtain ⟨⟨id, key, value, hcame⟩, hid⟩ := hr
  exact ⟨⟨id, key, value, h.came hcame⟩, h.identities r _ hid⟩

lemma StoreGrows.length_le (h : StoreGrows s t) : s.identities.length ≤ t.identities.length := by
  by_contra hlt
  rw [Nat.not_le] at hlt
  have hsome := h.identities t.identities.length _ (getElem?_eq_getElem hlt)
  exact absurd (List.getElem?_eq_some_iff.1 hsome).1 (Nat.lt_irrefl _)

lemma StoreGrows.tells (h : StoreGrows s t) {own : Bool} {x : Settled} {a : StoreRead}
    (ha : Tells s own x a) : Tells t own x a := by
  cases x with
  | record r fresh value =>
    obtain ⟨record, hr, ha⟩ := ha
    exact ⟨record, h.mintedAt hr, ha⟩
  | failed terminal memo => exact ha
  | threw => exact ha

lemma StoreGrows.answerOk (h : StoreGrows s t) {id : ℕ} {c : ReadCall} {a : StoreRead}
    (ha : AnswerOk s id c a) : AnswerOk t id c a := by
  obtain ⟨x, hx, htells⟩ | ⟨hown, ⟨r, record, hr, ha⟩ | ⟨j, memo, hj, ha⟩⟩ := ha
  · exact .inl ⟨x, h.came hx, h.tells htells⟩
  · exact .inr ⟨hown, .inl ⟨r, record, h.mintedAt hr, ha⟩⟩
  · exact .inr ⟨hown, .inr ⟨j, memo, h.came hj, ha⟩⟩

lemma ReadCallOk.mono {id : ℕ} {c : ReadCall} (h : ReadCallOk s id c) (hext : StoreGrows s t)
    (hslot : c.awaits = id → c.answer = none → t.inFlight c.key = s.inFlight c.key) :
    ReadCallOk t id c where
  slot := fun hawaits hanswer => (hslot hawaits hanswer).trans (h.slot hawaits hanswer)
  own := h.own
  bound := by
    intro r fresh value hc
    obtain ⟨hlt, hindex⟩ := h.bound r fresh value hc
    exact ⟨Nat.lt_of_lt_of_le hlt hext.length_le, hext.index _ hindex⟩
  noted := fun memo hc => hext.memo _ (h.noted memo hc)
  joins := by
    obtain ⟨d, hd, hawaits, hkey⟩ := h.joins
    obtain ⟨e, he, hkey', hawaits', -⟩ := hext.calls _ d hd
    exact ⟨e, he, hawaits'.trans hawaits, hkey'.trans hkey⟩
  answered := fun a ha => hext.answerOk (h.answered a ha)

/-! ## The steps -/

lemma grows_update {id : ℕ} {c : ReadCall} (hcalls : t.calls = Function.update s.calls id (some c))
    (hold : ∀ d, s.calls id = some d → c.key = d.key ∧ c.awaits = d.awaits ∧
      ∀ x, d.settled = some x → c.settled = some x)
    (hidentities : ∀ (r : ℕ) x, s.identities[r]? = some x → t.identities[r]? = some x)
    (hindex : ∀ key, s.index key ≠ none → t.index key ≠ none)
    (hmemo : ∀ key, s.memo key ≠ none → t.memo key ≠ none) : StoreGrows s t where
  calls := by
    intro j d hd
    rw [hcalls, update_apply]
    split
    · rename_i hj
      rw [hj] at hd
      obtain ⟨hkey, hawaits, hsettled⟩ := hold d hd
      exact ⟨c, rfl, hkey, hawaits, hsettled⟩
    · exact ⟨d, hd, rfl, rfl, fun _ h => h⟩
  identities := hidentities
  index := hindex
  memo := hmemo

/-- **The update rule.** The invariant after a call has changed. -/
lemma ReadInv.update (h : ReadInv s) {id : ℕ} {c : ReadCall}
    (hcalls : t.calls = Function.update s.calls id (some c)) (hext : StoreGrows s t)
    (hself : ReadCallOk t id c)
    (hslot : ∀ j d, j ≠ id → s.calls j = some d → d.awaits = j → d.answer = none →
      t.inFlight d.key = s.inFlight d.key)
    (hslotOf : ∀ key j, t.inFlight key = some j →
      ∃ d, t.calls j = some d ∧ d.awaits = j ∧ d.key = key ∧ d.answer = none)
    (hindexed : ∀ key r, t.index key = some r → r < t.identities.length)
    (hmemoOf : ∀ key memo, t.memo key = some memo → ∃ j, t.Came j key (.failed true memo))
    (hminted : ∀ r, r < t.identities.length →
      ∃ j key value, t.Came j key (.record r true value)) : ReadInv t where
  calls := by
    intro j d hd
    rw [hcalls, update_apply] at hd
    split at hd
    · rename_i hj
      obtain rfl := some.inj hd
      rw [hj]
      exact hself
    · rename_i hj
      exact (h.calls j d hd).mono hext (hslot j d hj hd)
  slotOf := hslotOf
  indexed := hindexed
  memoOf := hmemoOf
  minted := hminted

/-- The invariant after a call has changed, with the records and what is bound and remembered as
before. -/
lemma ReadInv.quiet (h : ReadInv s) {id : ℕ} {c : ReadCall}
    (hcalls : t.calls = Function.update s.calls id (some c))
    (hold : ∀ d, s.calls id = some d → c.key = d.key ∧ c.awaits = d.awaits ∧
      ∀ x, d.settled = some x → c.settled = some x)
    (hidentities : t.identities = s.identities) (hindex : t.index = s.index)
    (hmemo : t.memo = s.memo) (hself : StoreGrows s t → ReadCallOk t id c)
    (hslot : ∀ j d, j ≠ id → s.calls j = some d → d.awaits = j → d.answer = none →
      t.inFlight d.key = s.inFlight d.key)
    (hslotOf : ∀ key j, t.inFlight key = some j →
      ∃ d, t.calls j = some d ∧ d.awaits = j ∧ d.key = key ∧ d.answer = none) : ReadInv t := by
  have hext : StoreGrows s t :=
    grows_update hcalls hold (fun r x hx => by rw [hidentities]; exact hx)
      (fun key hkey => by rw [hindex]; exact hkey) fun key hkey => by rw [hmemo]; exact hkey
  refine h.update hcalls hext (hself hext) hslot hslotOf ?_ ?_ ?_
  · intro key r hr
    rw [hidentities]
    rw [hindex] at hr
    exact h.indexed key r hr
  · intro key memo hm
    rw [hmemo] at hm
    obtain ⟨j, hj⟩ := h.memoOf key memo hm
    exact ⟨j, hext.came hj⟩
  · intro r hr
    rw [hidentities] at hr
    obtain ⟨j, key, value, hj⟩ := h.minted r hr
    exact ⟨j, key, value, hext.came hj⟩

lemma ReadInv.slotOf_update (h : ReadInv s) {id : ℕ} {c : ReadCall}
    (hcalls : t.calls = Function.update s.calls id (some c)) (hflight : t.inFlight = s.inFlight)
    (hid : ∀ d, s.calls id = some d → d.awaits = id → d.answer = none →
      c.awaits = id ∧ c.key = d.key ∧ c.answer = none) (key : String) (j : ℕ)
    (hj : t.inFlight key = some j) :
    ∃ d, t.calls j = some d ∧ d.awaits = j ∧ d.key = key ∧ d.answer = none := by
  rw [hflight] at hj
  obtain ⟨d, hd, hawaits, hkey, hanswer⟩ := h.slotOf key j hj
  rw [hcalls, update_apply]
  split
  · rename_i hji
    rw [hji] at hd hawaits
    obtain ⟨hawaits', hkey', hanswer'⟩ := hid d hd hawaits hanswer
    exact ⟨c, rfl, hawaits'.trans hji.symm, hkey'.trans hkey, hanswer'⟩
  · exact ⟨d, hd, hawaits, hkey, hanswer⟩

lemma record_of_lt {s : DocumentStore} {r : ℕ} (hr : r < s.identities.length) :
    ∃ record, s.records[r]? = some record ∧ s.identities[r]? = some record.identity := by
  rw [length_identities] at hr
  refine ⟨s.records[r], getElem?_eq_getElem hr, ?_⟩
  rw [identities, getElem?_map, getElem?_eq_getElem hr]
  rfl

lemma ReadInv.mintedAt (h : ReadInv s) (hext : StoreGrows s t) {r : ℕ} {record : DocumentRecord}
    (hr : r < s.identities.length) (hid : t.identities[r]? = some record.identity) :
    t.MintedAt r record := by
  obtain ⟨id, key, value, hcame⟩ := h.minted r hr
  exact ⟨⟨id, key, value, hext.came hcame⟩, hid⟩

lemma ReadInv.answerNew (h : ReadInv s) {id : ℕ} (hnew : s.calls id = none) {key : String}
    {a : StoreRead} (hcalls : t.calls =
      Function.update s.calls id (some { key := key, awaits := id, answer := some a }))
    (hidentities : t.identities = s.identities) (hindex : t.index = s.index)
    (hmemo : t.memo = s.memo) (hflight : t.inFlight = s.inFlight)
    (ha : StoreGrows s t → (∃ r record, t.MintedAt r record ∧ a = .hit (some record)) ∨
        ∃ j memo, t.Came j key (.failed true memo) ∧ a = .failed memo true) : ReadInv t := by
  have hnone : ∀ d, s.calls id ≠ some d := fun d hd => by simp [hnew] at hd
  refine h.quiet hcalls (fun d hd => absurd hd (hnone d)) hidentities hindex hmemo
    (fun hext => ⟨fun _ hopen => absurd hopen (by simp), fun _ => rfl,
      fun _ _ _ hc => absurd hc (by simp), fun _ hc => absurd hc (by simp), ?_, ?_⟩)
    (fun _ _ _ _ _ _ => by rw [hflight])
    (h.slotOf_update hcalls hflight fun d hd => absurd hd (hnone d))
  · rw [hcalls]
    exact ⟨_, update_self _ _ _, rfl, rfl⟩
  · intro a' ha'
    obtain rfl := some.inj ha'
    exact .inr ⟨⟨rfl, rfl⟩, ha hext⟩

lemma ReadInv.read (h : ReadInv s) {id : ℕ} (hnew : s.calls id = none) (url : String) :
    ReadInv (s.read canonical id url) := by
  have hnone : ∀ d, s.calls id ≠ some d := fun d hd => by simp [hnew] at hd
  unfold DocumentStore.read
  dsimp only
  split
  case h_1 memo hmemo =>
    refine h.answerNew hnew rfl rfl rfl rfl rfl fun hext => .inr ?_
    obtain ⟨j, hj⟩ := h.memoOf _ memo hmemo
    exact ⟨j, memo, hext.came hj, rfl⟩
  case h_2 hmemo =>
    split
    case h_1 r hr =>
      have hlt := h.indexed _ r hr
      obtain ⟨record, hrecord, hid⟩ :=
        record_of_lt (s := s.bump r) (by rw [identities_bump]; exact hlt)
      refine h.answerNew hnew rfl (identities_bump s r) rfl rfl rfl fun hext => .inl ?_
      exact ⟨r, record, h.mintedAt hext hlt hid, congrArg StoreRead.hit hrecord⟩
    case h_2 hindex =>
      split
      case h_1 loader hloader =>
        -- the call joins a load on the way, which is another call's
        obtain ⟨d, hd, hawaits, hkey, hanswer⟩ := h.slotOf _ loader hloader
        have hne : loader ≠ id := by
          rintro rfl
          exact hnone d hd
        refine h.quiet rfl (fun d hd => absurd hd (hnone d)) rfl rfl rfl
          (fun hext => ⟨fun hown => absurd hown hne, fun hc => absurd rfl hc,
            fun _ _ _ hc => absurd hc (by simp), fun _ hc => absurd hc (by simp), ?_,
            fun _ ha => absurd ha (by simp)⟩) (fun _ _ _ _ _ _ => rfl)
          (h.slotOf_update rfl rfl fun d hd => absurd hd (hnone d))
        obtain ⟨e, he, hkey', hawaits', -⟩ := hext.calls loader d hd
        exact ⟨e, he, hawaits'.trans hawaits, hkey'.trans hkey⟩
      case h_2 hflight =>
        refine h.quiet rfl (fun d hd => absurd hd (hnone d)) rfl rfl rfl
          (fun hext => ⟨fun _ _ => update_self _ _ _, fun _ => rfl,
            fun _ _ _ hc => absurd hc (by simp), fun _ hc => absurd hc (by simp), ?_,
            fun _ ha => absurd ha (by simp)⟩) (fun j d _ hd hawaits hanswer => ?_)
          (fun key j hj => ?_)
        · exact ⟨_, update_self _ _ _, rfl, rfl⟩
        · refine update_of_ne ?_ _ _
          intro hkey
          have hslot := (h.calls j d hd).slot hawaits hanswer
          rw [hkey, hflight] at hslot
          exact absurd hslot (by simp)
        · have hj' : Function.update s.inFlight (canonical url) (some id) key = some j := hj
          rw [update_apply] at hj'
          split at hj'
          · rename_i hkey
            obtain rfl := some.inj hj'
            exact ⟨_, update_self _ _ _, rfl, hkey.symm, rfl⟩
          · obtain ⟨d, hd, hrest⟩ := h.slotOf key j hj'
            refine ⟨d, (update_of_ne ?_ _ _).trans hd, hrest⟩
            rintro rfl
            exact hnone d hd

section Calls

variable {id : ℕ} {c : ReadCall}

lemma ReadInv.settled (h : ReadInv s) (hc : s.calls id = some c)
    (hopen : c.awaits = id ∧ c.settled = none ∧ c.answer = none) {x : Settled}
    (hcalls : t.calls = Function.update s.calls id (some { c with settled := some x }))
    (hflight : t.inFlight = s.inFlight) (hext : StoreGrows s t)
    (hbound : ∀ r fresh value, x = .record r fresh value →
      r < t.identities.length ∧ t.index c.key ≠ none)
    (hnoted : ∀ memo, x = .failed true memo → t.memo c.key ≠ none)
    (hindexed : ∀ key r, t.index key = some r → r < t.identities.length)
    (hmemoOf : ∀ key memo, t.memo key = some memo → ∃ j, t.Came j key (.failed true memo))
    (hminted : ∀ r, r < t.identities.length →
      ∃ j key value, t.Came j key (.record r true value)) : ReadInv t := by
  have hslot := (h.calls id c hc).slot hopen.1 hopen.2.2
  refine h.update hcalls hext ⟨fun _ _ => ?_, fun _ => hopen.1, fun r fresh value hx =>
    hbound r fresh value (some.inj hx), fun memo hx => hnoted memo (some.inj hx), ?_,
    fun _ ha => absurd (hopen.2.2.symm.trans ha) (by simp)⟩ (fun _ _ _ _ _ _ => by rw [hflight])
    (h.slotOf_update hcalls hflight fun d hd _ hanswer => ?_) hindexed hmemoOf hminted
  · rw [hflight]
    exact hslot
  · refine ⟨{ c with settled := some x }, ?_, rfl, rfl⟩
    show t.calls c.awaits = _
    rw [hcalls, hopen.1]
    exact update_self _ _ _
  · obtain rfl := some.inj (hc.symm.trans hd)
    exact ⟨hopen.1, rfl, hanswer⟩

lemma extends_settled (hc : s.calls id = some c) (hunsettled : c.settled = none) {x : Settled}
    (hcalls : t.calls = Function.update s.calls id (some { c with settled := some x }))
    (hidentities : ∀ (r : ℕ) y, s.identities[r]? = some y → t.identities[r]? = some y)
    (hindex : ∀ key, s.index key ≠ none → t.index key ≠ none)
    (hmemo : ∀ key, s.memo key ≠ none → t.memo key ≠ none) : StoreGrows s t := by
  refine grows_update hcalls (fun d hd => ?_) hidentities hindex hmemo
  obtain rfl := some.inj (hc.symm.trans hd)
  exact ⟨rfl, rfl, fun y hy => absurd (hunsettled.symm.trans hy) (by simp)⟩

lemma came_settled {x : Settled}
    (hcalls : t.calls = Function.update s.calls id (some { c with settled := some x })) :
    t.Came id c.key x :=
  ⟨{ c with settled := some x }, by rw [hcalls]; exact update_self _ _ _, rfl, rfl⟩

lemma ReadInv.kept (h : ReadInv s) (hext : StoreGrows s t) :
    (∀ key memo, s.memo key = some memo → ∃ j, t.Came j key (.failed true memo)) ∧
      ∀ r, r < s.identities.length → ∃ j key value, t.Came j key (.record r true value) := by
  constructor
  · intro key memo hm
    obtain ⟨j, hj⟩ := h.memoOf key memo hm
    exact ⟨j, hext.came hj⟩
  · intro r hr
    obtain ⟨j, key, value, hj⟩ := h.minted r hr
    exact ⟨j, key, value, hext.came hj⟩

lemma ReadInv.throws (h : ReadInv s) (hc : s.calls id = some c)
    (hopen : c.awaits = id ∧ c.settled = none ∧ c.answer = none) :
    ReadInv (s.settle id c .threw) := by
  have hext : StoreGrows s (s.settle id c .threw) :=
    extends_settled hc hopen.2.1 rfl (fun _ _ hx => hx) (fun _ hk => hk) fun _ hk => hk
  exact h.settled hc hopen rfl rfl hext (fun _ _ _ hx => absurd hx (by simp))
    (fun _ hx => absurd hx (by simp)) h.indexed (h.kept hext).1 (h.kept hext).2

lemma ReadInv.fails (h : ReadInv s) (hc : s.calls id = some c)
    (hopen : c.awaits = id ∧ c.settled = none ∧ c.answer = none) (terminal : Bool)
    (memo : FailureMemo) (now : String) :
    ReadInv (s.runLoad canonical id c now (.failed terminal memo)) := by
  have hmemo : ∀ key, (s.runLoad canonical id c now (.failed terminal memo)).memo key =
      if terminal = true ∧ key = c.key then some memo else s.memo key := by
    intro key
    unfold runLoad DocumentStore.settle
    cases terminal with
    | false => simp
    | true => simp [update_apply]
  have hext : StoreGrows s (s.runLoad canonical id c now (.failed terminal memo)) := by
    refine extends_settled hc hopen.2.1 rfl (fun _ _ hx => hx) (fun _ hk => hk) fun key hk => ?_
    rw [hmemo]
    split
    · simp
    · exact hk
  have hcame : (s.runLoad canonical id c now (.failed terminal memo)).Came id c.key
      (.failed terminal memo) := came_settled rfl
  refine h.settled hc hopen rfl rfl hext (fun _ _ _ hx => absurd hx (by simp))
    (fun m hx => ?_) h.indexed (fun key m hm => ?_) (h.kept hext).2
  · rw [hmemo, if_pos ⟨(Settled.failed.inj hx).1, rfl⟩]
    simp
  · rw [hmemo] at hm
    split at hm
    · rename_i hkey
      obtain rfl := some.inj hm
      rw [hkey.1] at hcame
      rw [hkey.1, hkey.2]
      exact ⟨id, hcame⟩
    · exact (h.kept hext).1 key m hm

lemma ReadInv.lands (h : ReadInv s) (hc : s.calls id = some c)
    (hopen : c.awaits = id ∧ c.settled = none ∧ c.answer = none) (value now : String)
    {loaded : LoadedMeta} {r : ℕ}
    (hr : (loaded.finalUrl.bind fun finalUrl => s.index (canonical finalUrl)) = some r) :
    ReadInv (s.runLoad canonical id c now (.ok value loaded)) := by
  obtain ⟨hids, hindex⟩ := index_runLoad_landed id c now value hr
  have hcalls : (s.runLoad canonical id c now (.ok value loaded)).calls =
      Function.update s.calls id (some { c with settled := some (.record r false value) }) := by
    simp only [runLoad, hr, DocumentStore.settle]
  have hflight : (s.runLoad canonical id c now (.ok value loaded)).inFlight = s.inFlight := by
    simp only [runLoad, hr, DocumentStore.settle]
  have hmemo : (s.runLoad canonical id c now (.ok value loaded)).memo = s.memo := by
    simp only [runLoad, hr, DocumentStore.settle]
  have hlt : r < s.identities.length := by
    obtain ⟨finalUrl, -, hfinal⟩ := bind_eq_some_iff.1 hr
    exact h.indexed _ r hfinal
  have hext : StoreGrows s (s.runLoad canonical id c now (.ok value loaded)) := by
    refine extends_settled hc hopen.2.1 hcalls (fun _ _ hx => by rw [hids]; exact hx)
      (fun key hk => ?_) fun _ hk => by rw [hmemo]; exact hk
    rw [hindex, update_apply]
    split
    · simp
    · exact hk
  refine h.settled hc hopen hcalls hflight hext (fun r' _ _ hx => ?_)
    (fun _ hx => absurd hx (by simp)) (fun key r' hr' => ?_) (fun key m hm => ?_)
    (fun r' hr' => ?_)
  · obtain rfl := (Settled.record.inj hx).1
    rw [hids, hindex, update_self]
    exact ⟨hlt, by simp⟩
  · rw [hids]
    rw [hindex, update_apply] at hr'
    split at hr'
    · obtain rfl := some.inj hr'
      exact hlt
    · exact h.indexed key r' hr'
  · rw [hmemo] at hm
    exact (h.kept hext).1 key m hm
  · rw [hids] at hr'
    exact (h.kept hext).2 r' hr'

lemma ReadInv.mints (h : ReadInv s) (hc : s.calls id = some c)
    (hopen : c.awaits = id ∧ c.settled = none ∧ c.answer = none) (value now : String)
    {loaded : LoadedMeta}
    (hnone : (loaded.finalUrl.bind fun finalUrl => s.index (canonical finalUrl)) = none) :
    ReadInv (s.runLoad canonical id c now (.ok value loaded)) := by
  obtain ⟨hids, hindex⟩ := index_runLoad_minted id c now value hnone
  have hfields : (s.runLoad canonical id c now (.ok value loaded)).calls =
        Function.update s.calls id
          (some { c with settled := some (.record s.records.length true value) }) ∧
      (s.runLoad canonical id c now (.ok value loaded)).inFlight = s.inFlight ∧
      (s.runLoad canonical id c now (.ok value loaded)).memo = s.memo := by
    simp only [runLoad, hnone, DocumentStore.settle]
    split
    · split_ifs <;> exact ⟨rfl, rfl, rfl⟩
    · exact ⟨rfl, rfl, rfl⟩
  obtain ⟨hcalls, hflight, hmemo⟩ := hfields
  have hlength : (s.runLoad canonical id c now (.ok value loaded)).identities.length =
      s.identities.length + 1 := by
    rw [hids, length_append, length_singleton]
  have hext : StoreGrows s (s.runLoad canonical id c now (.ok value loaded)) := by
    refine extends_settled hc hopen.2.1 hcalls (fun r x hx => ?_) (fun key hk => ?_)
      fun _ hk => by rw [hmemo]; exact hk
    · rw [hids, getElem?_append_left (List.getElem?_eq_some_iff.1 hx).1]
      exact hx
    · rw [hindex]
      split
      · simp
      · exact hk
  have hlen := length_identities s
  refine h.settled hc hopen hcalls hflight hext (fun r' _ _ hx => ?_)
    (fun _ hx => absurd hx (by simp)) (fun key r' hr' => ?_) (fun key m hm => ?_)
    (fun r' hr' => ?_)
  · obtain rfl := (Settled.record.inj hx).1
    rw [hlength, hindex, if_pos (.inl rfl)]
    exact ⟨by omega, by simp⟩
  · rw [hlength]
    rw [hindex] at hr'
    split at hr'
    · obtain rfl := some.inj hr'
      omega
    · have := h.indexed key r' hr'
      omega
  · rw [hmemo] at hm
    exact (h.kept hext).1 key m hm
  · rw [hlength] at hr'
    by_cases hold : r' < s.identities.length
    · exact (h.kept hext).2 r' hold
    · obtain rfl : r' = s.records.length := by omega
      exact ⟨id, c.key, value, came_settled hcalls⟩

lemma ReadInv.returned (h : ReadInv s) (hc : s.calls id = some c) (hanswer : c.answer = none)
    {x : Settled} (hx : s.Came c.awaits c.key x) {a : StoreRead}
    (hcalls : t.calls = Function.update s.calls id (some { c with answer := some a }))
    (hidentities : t.identities = s.identities) (hindex : t.index = s.index)
    (hmemo : t.memo = s.memo)
    (hflight : t.inFlight = if c.awaits = id then Function.update s.inFlight c.key none
      else s.inFlight)
    (ha : StoreGrows s t → Tells t (decide (c.awaits = id)) x a) : ReadInv t := by
  have hok := h.calls id c hc
  have hmine : ∀ d, s.calls id = some d → d = c :=
    fun d hd => (some.inj (hc.symm.trans hd)).symm
  refine h.quiet hcalls (fun d hd => by rw [hmine d hd]; exact ⟨rfl, rfl, fun _ hy => hy⟩)
    hidentities hindex hmemo (fun hext => ⟨fun _ hno => absurd hno (by simp), hok.own, ?_, ?_, ?_,
      ?_⟩) (fun j d hj hd hawaits hopen => ?_) (fun key j hj => ?_)
  · intro r fresh value hset
    rw [hidentities, hindex]
    exact hok.bound r fresh value hset
  · intro memo hset
    rw [hmemo]
    exact hok.noted memo hset
  · obtain ⟨d, hd, hawaits, hkey⟩ := hok.joins
    obtain ⟨e, he, hkey', hawaits', -⟩ := hext.calls _ d hd
    exact ⟨e, he, hawaits'.trans hawaits, hkey'.trans hkey⟩
  · intro a' ha'
    obtain rfl := some.inj ha'
    exact .inl ⟨x, hext.came hx, ha hext⟩
  · rw [hflight]
    split
    · rename_i hown
      refine update_of_ne ?_ _ _
      intro hkey
      -- two loads on the way for one key would be in one slot
      have hj' := (h.calls j d hd).slot hawaits hopen
      rw [hkey, hok.slot hown hanswer] at hj'
      exact hj (some.inj hj').symm
    · rfl
  · rw [hflight] at hj
    have hold : s.inFlight key = some j ∧ (c.awaits = id → key ≠ c.key) := by
      split at hj
      · rename_i hown
        rw [update_apply] at hj
        split at hj
        · exact absurd hj (by simp)
        · exact ⟨hj, fun _ => by assumption⟩
      · rename_i hown
        exact ⟨hj, fun h => absurd h hown⟩
    obtain ⟨d, hd, hawaits, hkey, hopen⟩ := h.slotOf key j hold.1
    refine ⟨d, ?_, hawaits, hkey, hopen⟩
    rw [hcalls, update_of_ne, hd]
    rintro rfl
    rw [hmine d hd] at hawaits hkey
    exact hold.2 hawaits hkey.symm

lemma hit_record {r : ℕ} (hr : r < s.identities.length) :
    ∃ record, s.hit id c r =
        { s.bump r with hits := s.hits + 1 }.returns id c (.hit (some record)) ∧
      (s.hit id c r).identities[r]? = some record.identity := by
  obtain ⟨record, hrecord, hid⟩ :=
    record_of_lt (s := s.bump r) (by rw [identities_bump]; exact hr)
  refine ⟨record, ?_, hid⟩
  unfold hit
  dsimp only
  rw [hrecord]

lemma ReadInv.returns (h : ReadInv s) (hc : s.calls id = some c) (hanswer : c.answer = none)
    {x : Settled} (hx : (s.calls c.awaits).bind ReadCall.settled = some x) :
    ReadInv (if c.awaits = id then s.loaderReturns id c x else s.joinerReturns id c x) := by
  obtain ⟨d, hd, hset⟩ := bind_eq_some_iff.1 hx
  obtain ⟨d', hd', -, hkey⟩ := (h.calls id c hc).joins
  obtain rfl := some.inj (hd.symm.trans hd')
  have hcame : s.Came c.awaits c.key x := ⟨d, hd, hkey, hset⟩
  have hlt : ∀ r fresh value, x = .record r fresh value → r < s.identities.length := by
    intro r fresh value hr
    rw [hr] at hset
    exact ((h.calls _ d hd).bound r fresh value hset).1
  by_cases hown : c.awaits = id
  · rw [if_pos hown]
    unfold loaderReturns
    have hflight : Function.update s.inFlight c.key none =
        if c.awaits = id then Function.update s.inFlight c.key none else s.inFlight :=
      (if_pos hown).symm
    cases x with
    | record r fresh value =>
      have hr := hlt r fresh value rfl
      cases fresh with
      | true =>
        refine h.returned hc hanswer hcame rfl rfl rfl rfl hflight fun hext => ?_
        obtain ⟨record, hrecord, hid⟩ := record_of_lt hr
        refine ⟨record, h.mintedAt hext hr (hext.identities r _ hid), ?_⟩
        rw [if_pos (by simp [hown])]
        exact congrArg (StoreRead.fetched · value) hrecord
      | false =>
        obtain ⟨record, hhit, hid⟩ := @hit_record
          { s with inFlight := Function.update s.inFlight c.key none } id c r hr
        simp only
        rw [hhit] at hid ⊢
        refine h.returned hc hanswer hcame rfl ?_ rfl rfl hflight fun hext => ?_
        · exact identities_bump { s with inFlight := Function.update s.inFlight c.key none } r
        · refine ⟨record, h.mintedAt hext hr hid, ?_⟩
          rw [if_neg (by simp)]
    | failed terminal memo =>
      refine h.returned hc hanswer hcame rfl rfl rfl rfl hflight fun _ => ?_
      simp [Tells, hown]
    | threw => exact h.returned hc hanswer hcame rfl rfl rfl rfl hflight fun _ => rfl
  · rw [if_neg hown]
    unfold joinerReturns
    have hflight : s.inFlight =
        if c.awaits = id then Function.update s.inFlight c.key none else s.inFlight :=
      (if_neg hown).symm
    cases x with
    | record r fresh value =>
      have hr := hlt r fresh value rfl
      obtain ⟨record, hhit, hid⟩ := @hit_record s id c r hr
      simp only
      rw [hhit] at hid ⊢
      refine h.returned hc hanswer hcame rfl (identities_bump s r) rfl rfl hflight fun hext => ?_
      refine ⟨record, h.mintedAt hext hr hid, ?_⟩
      rw [if_neg (by simp [hown])]
    | failed terminal memo =>
      refine h.returned hc hanswer hcame rfl rfl rfl rfl hflight fun _ => ?_
      simp [Tells, hown]
    | threw => exact h.returned hc hanswer hcame rfl rfl rfl rfl hflight fun _ => rfl

end Calls

/-- **The step lemma.** A step of the reads keeps the invariant. -/
theorem ReadInv.step (h : ReadInv s) {e : StoreEvent} (he : e.isRead) :
    ReadInv (s.step canonical e) := by
  cases e with
  | readCalled id url =>
    unfold DocumentStore.step
    dsimp only
    split
    · exact h
    · rename_i hnew
      exact h.read (by simpa using hnew) url
  | loadSettles id outcome now =>
    unfold DocumentStore.step
    dsimp only
    split
    · rename_i c hc
      split
      · rename_i hopen
        cases outcome with
        | failed terminal memo => exact h.fails hc hopen terminal memo now
        | ok value loaded =>
          cases hlanded : loaded.finalUrl.bind fun finalUrl => s.index (canonical finalUrl) with
          | some r => exact h.lands hc hopen value now hlanded
          | none => exact h.mints hc hopen value now hlanded
      · exact h
    · exact h
  | loadThrows id =>
    unfold DocumentStore.step
    dsimp only
    split
    · rename_i c hc
      split
      · rename_i hopen
        exact h.throws hc hopen
      · exact h
    · exact h
  | readReturns id =>
    unfold DocumentStore.step
    dsimp only
    split
    · rename_i c hc
      split
      · rename_i hanswer
        split
        · rename_i x hx
          exact h.returns hc hanswer hx
        · exact h
      · exact h
    · exact h
  | observed => exact absurd he (by simp [StoreEvent.isRead])
  | failureRemembered => exact absurd he (by simp [StoreEvent.isRead])

/-! ## What stays -/

lemma index_ne_none_step (e : StoreEvent) {key : String} (hkey : s.index key ≠ none) :
    (s.step canonical e).index key ≠ none := by
  have hstep : Rebinds canonical s e (s.step canonical e) := rebinds_step s e
  cases hstep with
  | kept _ hindex =>
    rw [hindex]
    exact hkey
  | landed id value loaded now c r _ _ _ _ _ hindex =>
    rw [hindex, update_apply]
    split
    · simp
    · exact hkey
  | loaded id value loaded now c _ _ _ _ _ hindex =>
    rw [hindex]
    split
    · simp
    · exact hkey
  | observed other _ _ hindex =>
    rw [hindex, update_apply]
    split
    · simp
    · exact hkey

lemma memo_runLoad_ok (id : ℕ) (c : ReadCall) (now value : String) (loaded : LoadedMeta) :
    (s.runLoad canonical id c now (.ok value loaded)).memo = s.memo := by
  simp only [runLoad]
  split
  · rfl
  · split
    · split_ifs <;> rfl
    · rfl

lemma memo_read (id : ℕ) (url : String) : (s.read canonical id url).memo = s.memo := by
  unfold DocumentStore.read
  dsimp only
  split
  · rfl
  · split
    · rfl
    · split <;> rfl

lemma memo_returns (id : ℕ) (c : ReadCall) (x : Settled) :
    (if c.awaits = id then s.loaderReturns id c x else s.joinerReturns id c x).memo = s.memo := by
  split
  · unfold loaderReturns
    cases x with
    | record r fresh value => cases fresh <;> rfl
    | failed terminal memo => rfl
    | threw => rfl
  · cases x <;> rfl

lemma memo_ne_none_step (e : StoreEvent) {key : String} (hkey : s.memo key ≠ none) :
    (s.step canonical e).memo key ≠ none := by
  cases e with
  | readCalled id url =>
    unfold step
    dsimp only
    split
    · exact hkey
    · rw [memo_read]
      exact hkey
  | loadSettles id outcome now =>
    unfold step
    dsimp only
    split
    · split
      · cases outcome with
        | ok value loaded =>
          rw [memo_runLoad_ok]
          exact hkey
        | failed terminal memo =>
          unfold runLoad DocumentStore.settle
          cases terminal with
          | false => exact hkey
          | true =>
            simp only [if_true, update_apply]
            split
            · simp
            · exact hkey
      · exact hkey
    · exact hkey
  | loadThrows id =>
    unfold step
    dsimp only
    split
    · split <;> exact hkey
    · exact hkey
  | readReturns id =>
    unfold step
    dsimp only
    split
    · split
      · split
        · rw [memo_returns]
          exact hkey
        · exact hkey
      · exact hkey
    · exact hkey
  | observed url title tool now =>
    unfold step observe
    dsimp only
    split <;> exact hkey
  | failureRemembered url error failure =>
    unfold step rememberFailure
    dsimp only
    split
    · show (if _ then some failure else s.memo key) ≠ none
      split
      · simp
      · exact hkey
    · exact hkey

/-! ## When a load starts -/

lemma startsLoad_iff (id : ℕ) (url : String) : s.StartsLoad canonical id url ↔
    s.calls id = none ∧ s.memo (canonical url) = none ∧ s.index (canonical url) = none ∧
      s.inFlight (canonical url) = none := by
  cases hcalls : s.calls id with
  | some c =>
    have hstep : s.step canonical (.readCalled id url) = s := by simp [DocumentStore.step, hcalls]
    simp [DocumentStore.StartsLoad, hstep]
  | none =>
    have hstep : s.step canonical (.readCalled id url) = s.read canonical id url := by
      simp [DocumentStore.step, hcalls]
    rw [DocumentStore.StartsLoad, hstep]
    cases hmemo : s.memo (canonical url) with
    | some memo => simp [DocumentStore.read, hmemo, DocumentStore.returns]
    | none =>
      cases hindex : s.index (canonical url) with
      | some r =>
        simp [DocumentStore.read, hmemo, hindex, DocumentStore.hit, DocumentStore.returns,
          DocumentStore.bump]
      | none =>
        cases hflight : s.inFlight (canonical url) <;>
          simp [DocumentStore.read, hmemo, hindex, hflight]

lemma ReadInv.inFlight_eq_none_iff (h : ReadInv s) (key : String) :
    s.inFlight key = none ↔ ¬ s.Unreturned key := by
  constructor
  · rintro hnone ⟨id, c, hc, hawaits, rfl, hanswer⟩
    exact absurd (hnone.symm.trans ((h.calls id c hc).slot hawaits hanswer)) (by simp)
  · intro hno
    by_contra hne
    obtain ⟨id, hid⟩ := ne_none_iff_exists'.1 hne
    obtain ⟨c, hc, hawaits, hkey, hanswer⟩ := h.slotOf key id hid
    exact hno ⟨id, c, hc, hawaits, hkey, hanswer⟩

lemma ReadInv.memo_eq_none_iff (h : ReadInv s) (key : String) :
    s.memo key = none ↔ ¬ s.FailedTerminally key := by
  constructor
  · rintro hnone ⟨id, memo, c, hc, rfl, hsettled⟩
    exact (h.calls id c hc).noted memo hsettled hnone
  · intro hno
    by_contra hne
    obtain ⟨memo, hmemo⟩ := ne_none_iff_exists'.1 hne
    obtain ⟨id, hid⟩ := h.memoOf key memo hmemo
    exact hno ⟨id, memo, hid⟩

lemma ReadInv.readsOnce (h : ReadInv s) {later : DocumentStore}
    (hindex : ∀ key, s.index key ≠ none → later.index key ≠ none)
    (hmemo : ∀ key, s.memo key ≠ none → later.memo key ≠ none) :
    ReadsOnce canonical s later where
  starts := by
    intro id url hnew
    rw [startsLoad_iff, ← h.inFlight_eq_none_iff, ← h.memo_eq_none_iff]
    tauto
  bound := by
    intro key
    constructor
    · rintro ⟨id, r, fresh, value, c, hc, rfl, hsettled⟩
      exact ((h.calls id c hc).bound r fresh value hsettled).2
    · intro hne
      obtain ⟨r, hr⟩ := ne_none_iff_exists'.1 hne
      obtain ⟨id, other, value, hcame⟩ := h.minted r (h.indexed key r hr)
      exact ⟨other, id, r, true, value, hcame⟩
  alone := by
    intro i j c d hi hj hci hdj hc hd hkey
    have h1 := (h.calls i c hi).slot hci hc
    have h2 := (h.calls j d hj).slot hdj hd
    rw [hkey, h2] at h1
    exact (some.inj h1).symm
  never := by
    intro id url hover hstarts
    rw [startsLoad_iff] at hstarts
    obtain ⟨j, r, fresh, value, c, hc, hkey, hsettled⟩ | ⟨j, memo, c, hc, hkey, hsettled⟩ := hover
    · have hbound := ((h.calls j c hc).bound r fresh value hsettled).2
      rw [hkey] at hbound
      exact hindex _ hbound hstarts.2.2.1
    · have hnoted := (h.calls j c hc).noted memo hsettled
      rw [hkey] at hnoted
      exact hmemo _ hnoted hstarts.2.1
  answers := fun id c a hc ha => (h.calls id c hc).answered a ha
  remembered := h.memoOf
  cleared := by
    intro id c hc ha hslot
    obtain ⟨d, hd, -, -, hopen⟩ := h.slotOf _ id hslot
    obtain rfl := some.inj (hc.symm.trans hd)
    exact ha hopen

end Yantra
