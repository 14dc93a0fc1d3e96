import Yantra.Browser.Coordination

/-!
# Mutual exclusion over the managed installation

## Main definitions

* `Coordination.Excludes` — what a step must not do: grant a lease next to a live browser or
  to a lease that is held, grant a reservation next to such a lease, or clear another's claim.
* `Coordination.Inv` — the invariant.

## Main results

* `managedCoordinator_excludes` — so does a run, and then no step goes wrong.
* `managedCoordinator_overlaps` — three runs in which one does.
-/

namespace Yantra

open List Option

/-- A browser counts as alive under the record, as long as it is. -/
def ReservationRecord.Covers (record : ReservationRecord) (browser : ℕ) : Prop :=
  record.child = some browser ∨ record.child = none ∧ record.phase = .starting

def PendingCall.Holds (c : PendingCall) : Prop :=
  match c.stage with
  | .writing _ | .truncated _ => True
  | .removing => ∀ id, c.call ≠ .release id
  | _ => False

namespace Coordination

variable {s t : Coordination}

/-! ## What is excluded -/

/-- A browser that was spawned under a reservation is alive. -/
def BrowserAlive (s : Coordination) (browser : ℕ) : Prop :=
  ∃ id use, s.uses id = some use ∧ browser ∈ use.spawned ∧ s.dead browser = false

def Held (s : Coordination) (id : ℕ) : Prop :=
  ∃ lease, s.leases id = some lease ∧ lease.released = false ∧
    s.dead lease.record.owner = false

/-- What holds of a step from `s`. -/
structure Excludes (s : Coordination) (a : CoordinationAction) : Prop where
  /-- A lease is granted only when no browser is alive and no lease is held. -/
  mutation : ∀ id, s.leases id = none → (s.step a).leases id ≠ none →
    (∀ browser, ¬ s.BrowserAlive browser) ∧ ∀ other, ¬ s.Held other
  /-- A reservation is granted only when no lease is held. -/
  use : ∀ id, s.uses id = none → (s.step a).uses id ≠ none → ∀ other, ¬ s.Held other
  /-- The release of an operation takes no other claim away. -/
  claim : ∀ k c id, a = .next k → s.calls[k]? = some c → c.call = .release id →
    (s.step a).operation = s.operation ∨
      ∃ lease, s.leases id = some lease ∧ s.operation = .ok lease.record

/-- What a step must meet: a browser stays on record, and a claim is cleared once. -/
def StaysRecorded (s : Coordination) : CoordinationAction → Prop
  | .enter k _ _ => ∀ c, s.calls[k]? = some c →
    (∀ id child use, c.call = .attachChild id child → s.uses id = some use →
      ∀ browser ∈ use.spawned, s.dead browser = true ∨ child = browser) ∧
    ∀ id use, c.call = .markNeverSpawned id → s.uses id = some use →
      ∀ browser ∈ use.spawned, s.dead browser = true
  | .next k => ∀ c id, s.calls[k]? = some c → c.call = .release id → c.stage = .reading →
    ∀ existing, s.operation = .ok existing → existing.operationId = id →
      ∀ (j : ℕ) d, s.calls[j]? = some d → d.call = .release id → d.stage ≠ .removing
  | .spawn id _ => ∀ use, s.uses id = some use → use.record.phase = .starting
  | .die p => ∀ (k : ℕ) c record use, s.calls[k]? = some c → c.proc = p →
    c.stage = .truncated (.reservation record) → s.uses record.id = some use →
      ∀ browser ∈ use.spawned, s.dead browser = true
  | _ => True

/-! ## The invariant -/

def OperationDead (s : Coordination) : Prop :=
  ∀ record, s.operation = .ok record → s.dead record.owner = true

def NoneBusy (s : Coordination) : Prop :=
  ∀ id record, s.reservations id = .ok record →
    (∀ child, record.child = some child → s.dead child = true) ∧
      (record.child = none → record.phase ≠ .starting)

def WriteOk (s : Coordination) (k : ℕ) (c : PendingCall) : WrittenRecord → Prop
  | .reservation record =>
    c.call = .reserveUse ∧ record.id = k ∧ record.child = none ∧ record.phase = .starting ∧
        s.OperationDead ∨
      (∃ id child, c.call = .attachChild id child ∨ c.call = .markNeverSpawned id) ∧
        ∃ use, s.uses record.id = some use ∧ record = use.record ∧ record.phase ≠ .starting
  | .operation record =>
    (∃ candidate, c.call = .claimMutation candidate) ∧ record.operationId = k ∧
      s.OperationDead ∧ s.NoneBusy

def CallOk (s : Coordination) (k : ℕ) (c : PendingCall) : Prop :=
  match c.stage with
  | .writing record | .truncated record => s.mutex = some k ∧ s.WriteOk k c record
  | .waiting => ∀ id, c.call = .release id →
    ∃ lease, s.leases id = some lease ∧ lease.record.owner = c.proc
  | .reading => ∃ id lease, c.call = .release id ∧ s.leases id = some lease ∧
    lease.released = true ∧ lease.record.owner = c.proc
  | .removing =>
    (∃ id lease, c.call = .release id ∧ s.leases id = some lease ∧ lease.released = true ∧
        lease.record.owner = c.proc ∧ s.operation = .ok lease.record) ∨
      ∃ id use, c.call = .releaseAfterExit id ∧ s.mutex = some k ∧ s.uses id = some use ∧
        use.record.phase ≠ .starting ∧ ∀ browser ∈ use.spawned, s.dead browser = true
  | .done => True

/-- What holds of the handle of a reservation. -/
structure UseOk (s : Coordination) (id : ℕ) (use : UseReservation) : Prop where
  made : ∃ c, s.calls[id]? = some c ∧ c.call = .reserveUse ∧ c.stage = .done
  named : use.record.id = id
  starting : use.record.phase = .starting →
    use.record.child = none ∧ s.reservations id = .ok use.record
  settled : use.record.phase ≠ .starting →
    ∀ browser ∈ use.spawned, s.dead browser = true ∨ use.record.child = some browser
  covered : ∀ browser ∈ use.spawned, s.dead browser = false →
    (∃ record, s.reservations id = .ok record ∧ record.Covers browser) ∨
      ∃ (k : ℕ) (c : PendingCall), s.calls[k]? = some c ∧ s.dead c.proc = false ∧
        c.stage = .truncated (.reservation use.record)

structure LeaseOk (s : Coordination) (id : ℕ) (lease : MutationLease) : Prop where
  made : ∃ c candidate, s.calls[id]? = some c ∧ c.call = .claimMutation candidate ∧
    c.stage = .done
  named : lease.record.operationId = id
  held : lease.released = false → s.dead lease.record.owner = false →
    s.operation = .ok lease.record

structure Inv (s : Coordination) : Prop where
  calls : ∀ (k : ℕ) c, s.calls[k]? = some c → s.dead c.proc = false → s.CallOk k c
  uses : ∀ id use, s.uses id = some use → s.UseOk id use
  leases : ∀ id lease, s.leases id = some lease → s.LeaseOk id lease
  operation : ∀ record, s.operation = .ok record →
    ∃ lease, s.leases record.operationId = some lease ∧ lease.record = record
  onFile : ∀ id record, s.reservations id = .ok record → id < s.calls.length
  sole : ∀ (j k : ℕ) c d id, s.calls[j]? = some c → s.calls[k]? = some d →
    s.dead c.proc = false → c.call = .release id → c.stage = .removing →
    d.call = .release id → d.stage = .removing → j = k

lemma CallOk.mutex {k : ℕ} {c : PendingCall} (h : s.CallOk k c) (hc : c.Holds) :
    s.mutex = some k := by
  unfold CallOk at h
  unfold PendingCall.Holds at hc
  split at h
  case h_1 => exact h.1
  case h_2 => exact h.1
  case h_5 hstage =>
    rw [hstage] at hc
    obtain ⟨id, lease, hcall, -⟩ | ⟨id, use, -, hm, -⟩ := h
    · exact absurd hcall (hc id)
    · exact hm
  all_goals simp_all

lemma Inv.alone (h : s.Inv) {j k : ℕ} {c d : PendingCall} (hj : s.calls[j]? = some c)
    (hk : s.calls[k]? = some d) (hc : s.dead c.proc = false) (hd : s.dead d.proc = false)
    (hcm : c.Holds) (hdm : d.Holds) : j = k := by
  have h1 := (h.calls j c hj hc).mutex hcm
  have h2 := (h.calls k d hk hd).mutex hdm
  rw [h1] at h2
  exact some.inj h2

lemma Inv.free (h : s.Inv) (hfree : s.mutexFree) {k : ℕ} {c : PendingCall}
    (hk : s.calls[k]? = some c) (hc : s.dead c.proc = false) : ¬ c.Holds := by
  intro hm
  have hmutex := (h.calls k c hk hc).mutex hm
  simp [mutexFree, hmutex, hk, hc] at hfree

/-- A call under the mutex stays right where its mutex, the records and what it knows of its
handle stay; another call, where its lease and its claim do. -/
lemma CallOk.frame {k : ℕ} {c : PendingCall} (h : s.CallOk k c) (hdead : ∀ p, s.dead p → t.dead p)
    (hhold : c.Holds → t.mutex = s.mutex ∧
      (∀ id use, s.uses id = some use → ∃ use', t.uses id = some use' ∧
        use'.record = use.record ∧
          (use.record.phase ≠ .starting → use'.spawned = use.spawned)) ∧
      (∀ id record, t.reservations id = .ok record → s.reservations id = .ok record) ∧
      ∀ record, t.operation = .ok record → s.operation = .ok record)
    (hlease : ∀ id lease, s.leases id = some lease → ∃ lease', t.leases id = some lease' ∧
      lease'.record = lease.record ∧ (lease.released → lease'.released))
    (hclaim : ∀ id, c.call = .release id → c.stage = .removing → t.operation = s.operation) :
    t.CallOk k c := by
  have hwrite : ∀ record, c.Holds → s.WriteOk k c record → t.WriteOk k c record := by
    intro record hc hw
    obtain ⟨-, huse, hres, hop⟩ := hhold hc
    have hopdead : s.OperationDead → t.OperationDead :=
      fun h' record hr => hdead _ (h' record (hop record hr))
    cases record with
    | reservation record =>
      obtain ⟨h1, h2, h3, h4, h5⟩ | ⟨hcall, use, hu, hr, hp⟩ := hw
      · exact .inl ⟨h1, h2, h3, h4, hopdead h5⟩
      · obtain ⟨use', hu', hr', -⟩ := huse _ _ hu
        exact .inr ⟨hcall, use', hu', by rw [hr, hr'], hp⟩
    | operation record =>
      obtain ⟨h1, h2, h3, h4⟩ := hw
      refine ⟨h1, h2, hopdead h3, fun id record hr => ?_⟩
      exact ⟨fun child hch => hdead _ ((h4 id record (hres id record hr)).1 child hch),
        (h4 id record (hres id record hr)).2⟩
  unfold CallOk at h ⊢
  split at h
  case h_1 record hstage =>
    have hc : c.Holds := by simp [PendingCall.Holds, hstage]
    exact ⟨(hhold hc).1.trans h.1, hwrite record hc h.2⟩
  case h_2 record hstage =>
    have hc : c.Holds := by simp [PendingCall.Holds, hstage]
    exact ⟨(hhold hc).1.trans h.1, hwrite record hc h.2⟩
  case h_3 hstage =>
    intro id hid
    obtain ⟨lease, hl, ho⟩ := h id hid
    obtain ⟨lease', hl', hr', -⟩ := hlease id lease hl
    exact ⟨lease', hl', by rw [hr', ho]⟩
  case h_4 hstage =>
    obtain ⟨id, lease, hcall, hl, hrel, ho⟩ := h
    obtain ⟨lease', hl', hr', hrel'⟩ := hlease id lease hl
    exact ⟨id, lease', hcall, hl', hrel' hrel, by rw [hr', ho]⟩
  case h_5 hstage =>
    obtain ⟨id, lease, hcall, hl, hrel, ho, hop⟩ | ⟨id, use, hcall, hm, hu, hp, hall⟩ := h
    · obtain ⟨lease', hl', hr', hrel'⟩ := hlease id lease hl
      exact .inl ⟨id, lease', hcall, hl', hrel' hrel, by rw [hr', ho],
        by rw [hclaim id hcall hstage, hop, hr']⟩
    · have hc : c.Holds := by simp [PendingCall.Holds, hstage, hcall]
      obtain ⟨hmutex, huse, -, -⟩ := hhold hc
      obtain ⟨use', hu', hr', hsp⟩ := huse id use hu
      refine .inr ⟨id, use', hcall, hmutex.trans hm, hu', by rw [hr']; exact hp, ?_⟩
      rw [hsp hp]
      exact fun browser hb => hdead _ (hall browser hb)
  case h_6 => trivial

variable {use : UseReservation} {id : ℕ}

/-- What holds of a handle stays, where its file does and a call that keeps a live browser
does. -/
lemma UseOk.frame (h : s.UseOk id use) (hdead : ∀ p, s.dead p → t.dead p)
    (hdone : ∀ (k : ℕ) c, s.calls[k]? = some c → c.stage = .done → t.calls[k]? = some c)
    (hfile : t.reservations id = s.reservations id)
    (hcover : ∀ (k : ℕ) c browser, s.calls[k]? = some c → s.dead c.proc = false →
      c.stage = .truncated (.reservation use.record) → browser ∈ use.spawned →
        t.dead browser = false → t.calls[k]? = some c ∧ t.dead c.proc = false) :
    t.UseOk id use where
  made := by
    obtain ⟨c, hc, hcall, hstage⟩ := h.made
    exact ⟨c, hdone id c hc hstage, hcall, hstage⟩
  named := h.named
  starting := by
    rw [hfile]
    exact h.starting
  settled := fun hp browser hb => (h.settled hp browser hb).imp_left (hdead browser)
  covered := by
    intro browser hb hlive
    have hlive' : s.dead browser = false := by
      by_contra hne
      rw [hdead browser (by simpa using hne)] at hlive
      exact absurd hlive (by simp)
    obtain hrec | ⟨k, c, hk, hc, hstage⟩ := h.covered browser hb hlive'
    · rw [hfile]
      exact .inl hrec
    · obtain ⟨hk', hc'⟩ := hcover k c browser hk hc hstage hb hlive
      exact .inr ⟨k, c, hk', hc', hstage⟩

variable {lease : MutationLease}

lemma LeaseOk.frame (h : s.LeaseOk id lease) (hdead : ∀ p, t.dead p = false → s.dead p = false)
    (hdone : ∀ (k : ℕ) c, s.calls[k]? = some c → c.stage = .done → t.calls[k]? = some c)
    (hclaim : lease.released = false → s.dead lease.record.owner = false →
      s.operation = .ok lease.record → t.operation = .ok lease.record) :
    t.LeaseOk id lease where
  made := by
    obtain ⟨c, candidate, hc, hcall, hstage⟩ := h.made
    exact ⟨c, candidate, hdone id c hc hstage, hcall, hstage⟩
  named := h.named
  held := fun hrel hlive =>
    hclaim hrel (hdead _ hlive) (h.held hrel (hdead _ hlive))

/-! ## One call moves on -/

section Move

variable {k : ℕ} {c c' : PendingCall}

lemma getElem?_moved (hk : s.calls[k]? = some c) (hcalls : t.calls = s.calls.set k c') (j : ℕ) :
    t.calls[j]? = if j = k then some c' else s.calls[j]? := by
  have hlt : k < s.calls.length := (List.getElem?_eq_some_iff.1 hk).1
  rw [hcalls, getElem?_set]
  by_cases hj : j = k
  · subst hj
    simp [hlt]
  · rw [if_neg (fun h => hj h.symm), if_neg hj]

variable {d : PendingCall} {j : ℕ}

lemma getElem?_other (hk : s.calls[k]? = some c) (hcalls : t.calls = s.calls.set k c')
    (hj : s.calls[j]? = some d) (hne : d ≠ c) : t.calls[j]? = some d := by
  rw [getElem?_moved hk hcalls, if_neg, hj]
  rintro rfl
  rw [hk] at hj
  exact hne (some.inj hj).symm

/-- A call that has not returned moves, and no process dies with it. -/
structure Moves (s t : Coordination) (k : ℕ) (c c' : PendingCall) : Prop where
  found : s.calls[k]? = some c
  calls : t.calls = s.calls.set k c'
  dead : t.dead = s.dead
  going : c.stage ≠ .done

lemma Moves.other (hm : Moves s t k c c') (hj : s.calls[j]? = some d) (hne : d.stage ≠ c.stage) :
    t.calls[j]? = some d :=
  getElem?_other hm.found hm.calls hj fun he => hne (congrArg _ he)

lemma Moves.made (hm : Moves s t k c c') (h : s.UseOk id use) :
    ∃ d, t.calls[id]? = some d ∧ d.call = .reserveUse ∧ d.stage = .done := by
  obtain ⟨d, hd, hdc, hds⟩ := h.made
  exact ⟨d, hm.other hd (hds ▸ hm.going.symm), hdc, hds⟩

lemma Moves.useOk (hm : Moves s t k c c') (h : s.UseOk id use)
    (hfile : t.reservations id = s.reservations id)
    (hkeep : c.stage ≠ .truncated (.reservation use.record)) : t.UseOk id use := by
  refine h.frame (fun p hp => by rw [hm.dead]; exact hp)
    (fun j d hj hd => hm.other hj (hd ▸ hm.going.symm)) hfile ?_
  intro j d _ hj hd hds _ _
  exact ⟨hm.other hj (hds ▸ hkeep.symm), by rw [hm.dead]; exact hd⟩

lemma Moves.leaseOk (hm : Moves s t k c c') (h : s.LeaseOk id lease)
    (hclaim : lease.released = false → s.dead lease.record.owner = false →
      s.operation = .ok lease.record → t.operation = .ok lease.record) : t.LeaseOk id lease :=
  h.frame (fun p hp => by rw [← hm.dead]; exact hp)
    (fun _ _ hj hd => hm.other hj (hd ▸ hm.going.symm)) hclaim

/-- **The move rule.** The invariant after a call has moved. -/
lemma Inv.moved (h : s.Inv) (hk : s.calls[k]? = some c) (hcalls : t.calls = s.calls.set k c')
    (hdead : t.dead = s.dead) (hself : t.CallOk k c')
    (hother : ∀ (j : ℕ) d, j ≠ k → s.calls[j]? = some d → s.dead d.proc = false →
      s.CallOk j d → t.CallOk j d)
    (hremoving : ∀ id, c'.call = .release id → c'.stage = .removing → ∀ (j : ℕ) d,
      s.calls[j]? = some d → d.call = .release id → d.stage = .removing → j = k)
    (huses : ∀ id use, t.uses id = some use → t.UseOk id use)
    (hleases : ∀ id lease, t.leases id = some lease → t.LeaseOk id lease)
    (hoperation : ∀ record, t.operation = .ok record →
      ∃ lease, t.leases record.operationId = some lease ∧ lease.record = record)
    (honFile : ∀ id record, t.reservations id = .ok record → id < s.calls.length) : t.Inv where
  calls := by
    intro j d hj hd
    rw [getElem?_moved hk hcalls] at hj
    rw [hdead] at hd
    split at hj
    · rename_i hjk
      subst hjk
      rw [← some.inj hj]
      exact hself
    · exact hother j d (by assumption) hj hd (h.calls j d hj hd)
  uses := huses
  leases := hleases
  operation := hoperation
  onFile := by
    intro id record hr
    rw [hcalls, length_set]
    exact honFile id record hr
  sole := by
    intro i j d e id hi hj hd hdc hds hec hes
    rw [getElem?_moved hk hcalls] at hi hj
    rw [hdead] at hd
    split at hi
    · rename_i hik
      subst hik
      split at hj
      · rename_i hji
        exact hji.symm
      · obtain rfl := some.inj hi
        exact (hremoving id hdc hds j e hj hec hes).symm
    · split at hj
      · obtain rfl := some.inj hj
        rename_i hjk
        rw [hjk]
        exact hremoving id hec hes i d hi hdc hds
      · exact h.sole i j d e id hi hj hd hdc hds hec hes

lemma Inv.setStage (h : s.Inv) (hk : s.calls[k]? = some c)
    (hstage : c.stage = .waiting ∨ c.stage = .reading) {stage : CallStage}
    (hself : s.CallOk k { c with stage := stage })
    (hremoving : ∀ id, c.call = .release id → stage = .removing → ∀ (j : ℕ) d,
      s.calls[j]? = some d → d.call = .release id → d.stage ≠ .removing) :
    (s.setStage k c stage).Inv := by
  have hm : Moves s (s.setStage k c stage) k c { c with stage := stage } :=
    ⟨hk, rfl, rfl, by obtain hst | hst := hstage <;> simp [hst]⟩
  refine h.moved hk hm.calls rfl hself (fun _ _ _ _ _ hok => hok) ?_ ?_ ?_ h.operation h.onFile
  · intro id hid hst j d hj hd hdst
    exact absurd hdst (hremoving id hid hst j d hj hd)
  · intro id use hu
    exact hm.useOk (h.uses id use hu) rfl (by obtain hst | hst := hstage <;> simp [hst])
  · exact fun id lease hl => hm.leaseOk (h.leases id lease hl) fun _ _ hop => hop

lemma Inv.refuse (h : s.Inv) (hk : s.calls[k]? = some c)
    (hstage : c.stage = .waiting ∨ c.stage = .reading) : (s.setStage k c .done).Inv :=
  h.setStage hk hstage trivial fun _ _ hst => absurd hst (by simp)

lemma Inv.take (h : s.Inv) (hk : s.calls[k]? = some c) (hfree : s.mutexFree)
    (hwaiting : c.stage = .waiting) {stage : CallStage}
    (hcalls : t.calls = s.calls.set k { c with stage := stage })
    (hsame : t.dead = s.dead ∧ t.leases = s.leases ∧ t.operation = s.operation ∧
      t.reservations = s.reservations)
    (hself : t.CallOk k { c with stage := stage })
    (hremoving : stage = .removing → ∀ id, c.call ≠ .release id)
    (huses : ∀ id use, t.uses id = some use → s.uses id = some use ∨ t.UseOk id use) :
    t.Inv := by
  obtain ⟨hdead, hleases, hop, hres⟩ := hsame
  have hm : Moves s t k c { c with stage := stage } := ⟨hk, hcalls, hdead, by simp [hwaiting]⟩
  refine h.moved hk hcalls hdead hself ?_ ?_ ?_ ?_ ?_ ?_
  · intro j d _ hj hd hok
    refine hok.frame (fun p hp => by rw [hdead]; exact hp) ?_ ?_ (fun _ _ _ => hop)
    · exact fun hm => absurd hm (h.free hfree hj hd)
    · exact fun id lease hl => ⟨lease, by rw [hleases]; exact hl, rfl, fun hr => hr⟩
  · exact fun id hid hst => absurd hid (hremoving hst id)
  · intro id use hu
    obtain hold | hok := huses id use hu
    · exact hm.useOk (h.uses id use hold) (by rw [hres]) (by simp [hwaiting])
    · exact hok
  · intro id lease hl
    rw [hleases] at hl
    exact hm.leaseOk (h.leases id lease hl) fun _ _ ho => by rw [hop]; exact ho
  · rw [hop, hleases]
    exact h.operation
  · rw [hres]
    exact h.onFile

end Move

/-! ## What is read under the mutex -/

variable {told : ℕ → LivenessVerdict}

variable {p : ℕ}

lemma dead_of_check (h : s.check told p = .dead) :
    s.dead p := by
  unfold check at h
  split at h
  · exact absurd h (by simp)
  · rename_i hnot
    by_contra hlive
    exact hnot ⟨by simpa using hlive, h⟩

lemma operationDead_of (h : s.operationInProgress told = false) :
    s.OperationDead := by
  intro record hop
  simp only [operationInProgress, hop, RecordFile.read, bne_eq_false_iff_eq] at h
  exact dead_of_check h

lemma Inv.noneBusy (h : s.Inv) (hnone : s.findActiveReservation told = none) : s.NoneBusy := by
  intro id record hr
  have hmem : record ∈ s.readReservations := by
    refine mem_filterMap.2 ⟨id, mem_range.2 (h.onFile id record hr), ?_⟩
    simp [hr]
  have hbusy : s.busy told record = false := by
    simpa using find?_eq_none.1 hnone record hmem
  unfold busy at hbusy
  split at hbusy
  · rename_i child hchild
    refine ⟨fun other hother => ?_, fun hnone => absurd (hchild.symm.trans hnone) (by simp)⟩
    rw [hchild] at hother
    obtain rfl := some.inj hother
    exact dead_of_check (by simpa using hbusy)
  · rename_i hchild
    refine ⟨fun other hother => absurd (hchild.symm.trans hother) (by simp), fun _ => ?_⟩
    simp only [Bool.or_eq_false_iff, beq_eq_false_iff_ne] at hbusy
    exact hbusy.2

/-! ## A call enters -/

section Enter

variable {k : ℕ} {c : PendingCall}

lemma Inv.write (h : s.Inv) (hk : s.calls[k]? = some c) (hfree : s.mutexFree)
    (hwaiting : c.stage = .waiting) {record : WrittenRecord} (hw : s.WriteOk k c record) :
    (s.write k c record).Inv :=
  h.take hk hfree hwaiting rfl ⟨rfl, rfl, rfl, rfl⟩ ⟨rfl, by cases record <;> exact hw⟩
    (fun hst => absurd hst (by simp)) fun _ _ hu => .inl hu

lemma Inv.rewrite (h : s.Inv) (hk : s.calls[k]? = some c) (hfree : s.mutexFree)
    (hwaiting : c.stage = .waiting) (hu : s.uses id = some use) {record : ReservationRecord}
    (hid : record.id = use.record.id) (hphase : record.phase ≠ .starting)
    (hcall : ∃ id child, c.call = .attachChild id child ∨ c.call = .markNeverSpawned id)
    (hrecord : ∀ browser ∈ use.spawned, s.dead browser ∨ record.child = some browser) :
    (s.rewrite k c id use record).Inv := by
  have hok := h.uses id use hu
  have hrid : record.id = id := hid.trans hok.named
  have huses : (s.rewrite k c id use record).uses =
      Function.update s.uses id (some { use with record := record }) := rfl
  have hcalls : (s.rewrite k c id use record).calls =
      s.calls.set k { c with stage := .writing (.reservation record) } := rfl
  have hm : Moves s (s.rewrite k c id use record) k c _ := ⟨hk, hcalls, rfl, by simp [hwaiting]⟩
  refine h.take hk hfree hwaiting hcalls
    ⟨rfl, rfl, rfl, rfl⟩ ⟨rfl, .inr ⟨hcall, { use with record := record }, ?_, rfl, hphase⟩⟩
    (fun hst => absurd hst (by simp)) ?_
  · rw [huses, hrid, Function.update_self]
  · intro id' use' hu'
    rw [huses, Function.update_apply] at hu'
    split at hu'
    case isFalse => exact .inl hu'
    case isTrue hii =>
      subst hii
      obtain rfl := some.inj hu'
      refine .inr ⟨hm.made hok, hrid, fun hp => absurd hp hphase, fun _ => hrecord, ?_⟩
      intro browser hb hlive
      obtain hrec | ⟨j, d, hj, hd, hds⟩ := hok.covered browser hb hlive
      · exact .inl hrec
      · exact absurd (by simp [PendingCall.Holds, hds]) (h.free hfree hj hd)

lemma Inv.releaseAfterExit (h : s.Inv) (hk : s.calls[k]? = some c) (hfree : s.mutexFree)
    (hwaiting : c.stage = .waiting) (hu : s.uses id = some use)
    (hcall : c.call = .releaseAfterExit id) (told : ℕ → LivenessVerdict) :
    (s.releaseAfterExit k c id use told).Inv := by
  have hok := h.uses id use hu
  unfold Coordination.releaseAfterExit
  split
  · exact h.refuse hk (.inl hwaiting)
  rename_i hnot
  simp only [Bool.or_eq_true, Bool.not_eq_true', not_or, Bool.not_eq_true, Bool.not_eq_false]
    at hnot
  obtain ⟨-, hexited⟩ := hnot
  -- a handle that still says starting has no child, and is not told to be stopping
  have hphase : use.record.phase ≠ .starting := by
    intro hp
    simp [exited, (hok.starting hp).1, hp] at hexited
  have hdead : ∀ browser ∈ use.spawned, s.dead browser := by
    intro browser hb
    obtain hd | hchild := hok.settled hphase browser hb
    · exact hd
    · simp only [exited, hchild, beq_iff_eq] at hexited
      exact dead_of_check hexited
  have hm : Moves s ((s.setUse id { use with released := true }).setStage k c .removing) k c _ :=
    ⟨hk, rfl, rfl, by simp [hwaiting]⟩
  refine @Inv.take _ _ _ _ h hk hfree hwaiting .removing rfl ⟨rfl, rfl, rfl, rfl⟩ ?_ ?_ ?_
  · exact .inr ⟨id, { use with released := true }, hcall, rfl,
      by simp [setUse, Coordination.setStage], hphase, hdead⟩
  · intro _ id' hid'
    rw [hcall] at hid'
    exact absurd hid' (by simp)
  · intro id' use' hu'
    simp only [setUse, Coordination.setStage, Function.update_apply] at hu'
    split at hu'
    case isFalse => exact .inl hu'
    case isTrue hii =>
      subst hii
      obtain rfl := some.inj hu'
      refine .inr ⟨hm.made hok, hok.named, fun hp => absurd hp hphase, hok.settled, ?_⟩
      intro browser hb hlive
      exact absurd ((hdead browser hb).symm.trans hlive) (by simp)

lemma Inv.entered (h : s.Inv) (hk : s.calls[k]? = some c) (hfree : s.mutexFree)
    (hwaiting : c.stage = .waiting) {stillReady : Bool}
    (hstays : s.StaysRecorded (.enter k told stillReady)) :
    (s.entered k c told stillReady).Inv := by
  unfold Coordination.entered
  split
  case h_1 hcall =>
    split
    · exact h.refuse hk (.inl hwaiting)
    · rename_i hnot
      simp only [Bool.or_eq_true, not_or, Bool.not_eq_true] at hnot
      exact h.write hk hfree hwaiting
        (.inl ⟨hcall, rfl, rfl, rfl, operationDead_of hnot.2⟩)
  case h_2 candidate hcall =>
    split
    · exact h.refuse hk (.inl hwaiting)
    · split
      · exact h.refuse hk (.inl hwaiting)
      · rename_i root _ hnot
        simp only [Bool.or_eq_true, not_or, Bool.not_eq_true, isSome_eq_false_iff,
          isNone_iff_eq_none] at hnot
        exact h.write hk hfree hwaiting
          ⟨⟨candidate, hcall⟩, rfl, operationDead_of hnot.2, h.noneBusy hnot.1⟩
  case h_3 id child hcall =>
    split
    · rename_i use hu
      refine h.rewrite hk hfree hwaiting hu rfl (by simp) ⟨id, child, .inl hcall⟩ ?_
      intro browser hb
      refine ((hstays c hk).1 id child use hcall hu browser hb).imp_right ?_
      exact fun hchild => congrArg some hchild
    · exact h
  case h_4 id hcall =>
    split
    · rename_i use hu
      refine h.rewrite hk hfree hwaiting hu rfl (by simp) ⟨id, 0, .inr hcall⟩ ?_
      exact fun browser hb => .inl ((hstays c hk).2 id use hcall hu browser hb)
    · exact h
  case h_5 id hcall =>
    split
    · rename_i use hu
      exact h.releaseAfterExit hk hfree hwaiting hu hcall told
    · exact h
  case h_6 => exact h

end Enter

/-! ## A call goes on -/

section Advance

variable {k : ℕ} {c : PendingCall}

variable {d : PendingCall} {j : ℕ}

lemma Inv.others (h : s.Inv) (hk : s.calls[k]? = some c) (hlive : s.dead c.proc = false)
    (hc : c.Holds) (hjk : j ≠ k) (hj : s.calls[j]? = some d) (hd : s.dead d.proc = false) :
    ¬ d.Holds :=
  fun hm => hjk (h.alone hj hk hd hlive hm hc)

lemma Moves.callOk {c' : PendingCall} (hm : Moves s t k c c') (h : s.Inv)
    (hlive : s.dead c.proc = false) (hc : c.Holds)
    (hleases : ∀ id lease, s.leases id = some lease → t.leases id = some lease) (hjk : j ≠ k)
    (hj : s.calls[j]? = some d) (hd : s.dead d.proc = false) (hok : s.CallOk j d)
    (hclaim : ∀ id, d.call = .release id → d.stage = .removing → t.operation = s.operation) :
    t.CallOk j d :=
  hok.frame (fun p hp => by rw [hm.dead]; exact hp)
    (fun hdc => absurd hdc (h.others hm.found hlive hc hjk hj hd))
    (fun id lease hl => ⟨lease, hleases id lease hl, rfl, fun hr => hr⟩) hclaim

lemma CallOk.not_clearing (h : s.CallOk k c) (hlive : s.dead c.proc = false)
    (hdead : s.OperationDead) (hcall : c.call = .release id) :
    c.stage ≠ .removing := by
  intro hstage
  unfold CallOk at h
  simp only [hstage] at h
  obtain ⟨-, lease, -, -, -, howner, hop⟩ | ⟨_, _, hother, -⟩ := h
  · rw [← howner, hdead _ hop] at hlive
    exact absurd hlive (by simp)
  · exact absurd (hcall.symm.trans hother) (by simp)

variable {record : ReservationRecord}

lemma Inv.truncate_reservation (h : s.Inv) (hk : s.calls[k]? = some c)
    (hlive : s.dead c.proc = false) (hstage : c.stage = .writing (.reservation record)) :
    ((s.setReservation record.id .corrupt).setStage k c (.truncated (.reservation record))).Inv := by
  have hholds : c.Holds := by simp [PendingCall.Holds, hstage]
  have hok := h.calls k c hk hlive
  simp only [CallOk, hstage] at hok
  obtain ⟨hmutex, hw⟩ := hok
  have hm : Moves s ((s.setReservation record.id .corrupt).setStage k c
      (.truncated (.reservation record))) k c _ := ⟨hk, rfl, rfl, by simp [hstage]⟩
  refine h.moved hk rfl rfl ⟨hmutex, hw⟩ ?_ (fun _ _ hst => absurd hst (by simp)) ?_ ?_
    h.operation ?_
  · exact fun j d hjk hj hd hok =>
      hm.callOk h hlive hholds (fun _ _ hl => hl) hjk hj hd hok fun _ _ _ => rfl
  · intro id use hu
    have huse := h.uses id use hu
    by_cases hid : record.id = id
    · obtain ⟨-, hrk, -⟩ | ⟨-, use', hu', hr, hphase⟩ := hw
      · -- the reservation is being made, so that nobody has a handle of it
        obtain ⟨d, hd, -, hds⟩ := huse.made
        rw [← hid, hrk, hk] at hd
        exact absurd ((congrArg _ (some.inj hd)).trans hds) (by simp [hstage])
      · rw [hid] at hu'
        obtain rfl : use = use' := some.inj (hu.symm.trans hu')
        rw [hr] at hphase
        refine ⟨hm.made huse, huse.named, fun hp => absurd hp hphase, huse.settled, fun browser _ _ => .inr ⟨k,
            { c with stage := .truncated (.reservation record) }, ?_, hlive, ?_⟩⟩
        · rw [getElem?_moved hk rfl, if_pos rfl]
        · rw [← hr]
    · exact hm.useOk huse (Function.update_of_ne (fun hne => hid hne.symm) _ _) (by simp [hstage])
  · exact fun id lease hl => hm.leaseOk (h.leases id lease hl) fun _ _ hop => hop
  · intro id other hr
    have hr' : Function.update s.reservations record.id .corrupt id = .ok other := hr
    rw [Function.update_apply] at hr'
    split at hr'
    · exact absurd hr' (by simp)
    · exact h.onFile id other hr'

lemma Inv.truncate_operation (h : s.Inv) (hk : s.calls[k]? = some c) (hlive : s.dead c.proc = false)
    {record : OperationRecord} (hstage : c.stage = .writing (.operation record)) :
    (({ s with operation := .corrupt } : Coordination).setStage k c
      (.truncated (.operation record))).Inv := by
  have hholds : c.Holds := by simp [PendingCall.Holds, hstage]
  have hok := h.calls k c hk hlive
  simp only [CallOk, hstage] at hok
  obtain ⟨hmutex, hcall, hid, hopdead, hbusy⟩ := hok
  have hm : Moves s (({ s with operation := .corrupt } : Coordination).setStage k c
      (.truncated (.operation record))) k c _ := ⟨hk, rfl, rfl, by simp [hstage]⟩
  refine h.moved hk rfl rfl ⟨hmutex, hcall, hid, 
    fun _ hop => absurd hop (by simp [Coordination.setStage]), hbusy⟩ ?_ (fun _ _ hst => absurd hst (by simp)) ?_ ?_
    (fun _ hop => absurd hop (by simp [Coordination.setStage])) h.onFile
  · intro j d hjk hj hd hok
    exact hm.callOk h hlive hholds (fun _ _ hl => hl) hjk hj hd hok fun id hidc hst =>
      absurd hst (hok.not_clearing hd hopdead hidc)
  · exact fun id use hu => hm.useOk (h.uses id use hu) rfl (by simp [hstage])
  · intro id lease hl
    refine hm.leaseOk (h.leases id lease hl) fun _ hown hop => ?_
    exact absurd ((hopdead _ hop).symm.trans hown) (by simp)

lemma Inv.written_handle (h : s.Inv) (hk : s.calls[k]? = some c) (hlive : s.dead c.proc = false)
    (hstage : c.stage = .truncated (.reservation record)) (hu : s.uses record.id = some use)
    (hr : record = use.record) (hphase : record.phase ≠ .starting) {c' : PendingCall}
    (hc' : c'.stage = .done ∨ c'.stage = .waiting ∧ ∀ id, c'.call ≠ .release id)
    (hcalls : t.calls = s.calls.set k c')
    (ht : t = { s.setReservation record.id (.ok record) with mutex := none, calls := t.calls }) :
    t.Inv := by
  have hholds : c.Holds := by simp [PendingCall.Holds, hstage]
  have hdead : t.dead = s.dead := by rw [ht]; rfl
  have hop : t.operation = s.operation := by rw [ht]; rfl
  have hleases : t.leases = s.leases := by rw [ht]; rfl
  have huses : t.uses = s.uses := by rw [ht]; rfl
  have hres : t.reservations = Function.update s.reservations record.id (.ok record) := by
    rw [ht]; rfl
  have hm : Moves s t k c c' := ⟨hk, hcalls, hdead, by simp [hstage]⟩
  refine h.moved hk hcalls hdead ?_ ?_ ?_ ?_ ?_ ?_ ?_
  · unfold CallOk
    obtain hst | ⟨hst, hnot⟩ := hc'
    · simp only [hst]
    · simp only [hst]
      exact fun id hid => absurd hid (hnot id)
  · intro j d hjk hj hd hok
    exact hm.callOk h hlive hholds (fun id lease hl => by rw [hleases]; exact hl) hjk hj hd hok
      fun _ _ _ => hop
  · intro id _ hst
    obtain hst' | ⟨hst', -⟩ := hc' <;> exact absurd (hst.symm.trans hst') (by simp)
  · intro id use' hu'
    rw [huses] at hu'
    have huse := h.uses id use' hu'
    by_cases hid : record.id = id
    · rw [hid] at hu
      obtain rfl : use = use' := some.inj (hu.symm.trans hu')
      rw [hr] at hphase
      refine ⟨hm.made huse, huse.named, fun hp => absurd hp hphase, fun _ => by rw [hdead]; exact huse.settled hphase, ?_⟩
      intro browser hb hbl
      rw [hdead] at hbl
      refine .inl ⟨record, by rw [hres, ← hid, Function.update_self], .inl ?_⟩
      rw [hr]
      exact (huse.settled hphase browser hb).resolve_left (by simp [hbl])
    · refine hm.useOk huse ?_ fun hst => ?_
      · rw [hres, Function.update_of_ne (fun hne => hid hne.symm)]
      · obtain rfl : record = use'.record := by simpa using hstage.symm.trans hst
        exact hid huse.named
  · intro id lease hl
    rw [hleases] at hl
    exact hm.leaseOk (h.leases id lease hl) fun _ _ ho => by rw [hop]; exact ho
  · rw [hop, hleases]
    exact h.operation
  · intro id other hr'
    rw [hres, Function.update_apply] at hr'
    split at hr'
    · rename_i hid
      obtain ⟨d, hd, -⟩ := (h.uses record.id use hu).made
      rw [hid]
      exact (List.getElem?_eq_some_iff.1 hd).1
    · exact h.onFile id other hr'

lemma Inv.written_reservation (h : s.Inv) (hk : s.calls[k]? = some c)
    (hlive : s.dead c.proc = false) (hstage : c.stage = .truncated (.reservation record))
    (hcall : c.call = .reserveUse) :
    (s.written k c (.reservation record)).Inv := by
  have hholds : c.Holds := by simp [PendingCall.Holds, hstage]
  have hok := h.calls k c hk hlive
  simp only [CallOk, hstage, WriteOk, hcall] at hok
  obtain ⟨-, ⟨-, hid, hchild, hphase, -⟩ | ⟨⟨_, _, hother⟩, -⟩⟩ := hok
  swap
  · exact absurd hother (by simp)
  have ht : s.written k c (.reservation record) =
      (({ s.setReservation record.id (.ok record) with mutex := none } : Coordination).setUse k
        ⟨record, false, []⟩).setStage k c .done := by
    simp [written, hcall, store]
  rw [ht]
  have hm : Moves s ((({ s.setReservation record.id (.ok record) with mutex := none } :
      Coordination).setUse k ⟨record, false, []⟩).setStage k c .done) k c _ :=
    ⟨hk, rfl, rfl, by simp [hstage]⟩
  refine h.moved hk rfl rfl trivial ?_ (fun _ _ hst => absurd hst (by simp)) ?_ ?_ h.operation ?_
  · exact fun j d hjk hj hd hok =>
      hm.callOk h hlive hholds (fun _ _ hl => hl) hjk hj hd hok fun _ _ _ => rfl
  · intro id use hu
    have hu' : Function.update s.uses k (some ⟨record, false, []⟩) id = some use := hu
    have hfile : ∀ i, Function.update s.reservations record.id (.ok record) i =
        if i = k then .ok record else s.reservations i := by
      intro i
      rw [Function.update_apply, hid]
    rw [Function.update_apply] at hu'
    split at hu'
    · rename_i hik
      obtain rfl := some.inj hu'
      refine ⟨⟨{ c with stage := .done }, ?_, hcall, rfl⟩, hid.trans hik.symm,
        fun _ => ⟨hchild, ?_⟩, fun hp => absurd hphase hp, fun _ hb => absurd hb (by simp)⟩
      · rw [getElem?_moved hk rfl, if_pos hik]
      · exact (hfile id).trans (if_pos hik)
    · rename_i hik
      have huse := h.uses id use hu'
      refine hm.useOk huse ((hfile id).trans (if_neg hik)) fun hst => ?_
      obtain rfl : record = use.record := by simpa using hstage.symm.trans hst
      exact hik (huse.named.symm.trans hid)
  · exact fun id lease hl => hm.leaseOk (h.leases id lease hl) fun _ _ hop => hop
  · intro id other hr'
    have hr'' : Function.update s.reservations record.id (.ok record) id = .ok other := hr'
    rw [Function.update_apply] at hr''
    split at hr''
    · rename_i hi
      rw [hi, hid]
      exact (List.getElem?_eq_some_iff.1 hk).1
    · exact h.onFile id other hr''

lemma Inv.written_operation (h : s.Inv) (hk : s.calls[k]? = some c) (hlive : s.dead c.proc = false)
    {record : OperationRecord} (hstage : c.stage = .truncated (.operation record)) :
    (s.written k c (.operation record)).Inv := by
  have hholds : c.Holds := by simp [PendingCall.Holds, hstage]
  have hok := h.calls k c hk hlive
  simp only [CallOk, hstage, WriteOk] at hok
  obtain ⟨-, ⟨candidate, hcall⟩, hid, hopdead, -⟩ := hok
  -- the call has not returned yet, so that nobody has its lease
  have hnew : ∀ id lease, s.leases id = some lease → id ≠ k := by
    rintro id lease hl rfl
    obtain ⟨d, _, hd, -, hds⟩ := (h.leases id lease hl).made
    rw [hk] at hd
    exact absurd ((congrArg _ (some.inj hd)).trans hds) (by simp [hstage])
  have ht : s.written k c (.operation record) =
      (({ s with operation := .ok record, mutex := none } : Coordination).setLease k
        ⟨record, false⟩).setStage k c .done := by
    simp [written, hcall, store]
  have hleases : ∀ i, (s.written k c (.operation record)).leases i =
      if i = k then some ⟨record, false⟩ else s.leases i := by
    intro i
    rw [ht]
    exact Function.update_apply _ _ _ _
  have hop : (s.written k c (.operation record)).operation = .ok record := by rw [ht]; rfl
  have hdead : (s.written k c (.operation record)).dead = s.dead := by rw [ht]; rfl
  have hcalls : (s.written k c (.operation record)).calls =
      s.calls.set k { c with stage := .done } := by rw [ht]; rfl
  have hm : Moves s _ k c _ := ⟨hk, hcalls, hdead, by simp [hstage]⟩
  refine h.moved hk hcalls hdead trivial ?_ (fun _ _ hst => absurd hst (by simp)) ?_ ?_ ?_ ?_
  · intro j d hjk hj hd hok
    refine hm.callOk h hlive hholds (fun id lease hl => ?_) hjk hj hd hok
      fun id hidc hst => absurd hst (hok.not_clearing hd hopdead hidc)
    rw [hleases, if_neg (hnew id lease hl), hl]
  · intro id use hu
    rw [ht] at hu
    exact hm.useOk (h.uses id use hu) (by rw [ht]; rfl) (by simp [hstage])
  · intro id lease hl
    rw [hleases] at hl
    split at hl
    · rename_i hik
      obtain rfl := some.inj hl
      refine ⟨⟨{ c with stage := .done }, candidate, ?_, hcall, rfl⟩, hid.trans hik.symm,
        fun _ _ => hop⟩
      rw [getElem?_moved hk hcalls, if_pos hik]
    · refine hm.leaseOk (h.leases id lease hl) fun _ hown ho => ?_
      exact absurd ((hopdead _ ho).symm.trans hown) (by simp)
  · intro other hother
    rw [hop] at hother
    obtain rfl : record = other := by simpa using hother
    exact ⟨⟨record, false⟩, by rw [hleases, if_pos hid], rfl⟩
  · rw [ht]
    exact h.onFile

lemma Inv.written (h : s.Inv) (hk : s.calls[k]? = some c) (hlive : s.dead c.proc = false)
    {record : WrittenRecord} (hstage : c.stage = .truncated record) :
    (s.written k c record).Inv := by
  cases record with
  | operation record => exact h.written_operation hk hlive hstage
  | reservation record =>
    have hok := h.calls k c hk hlive
    simp only [CallOk, hstage, WriteOk] at hok
    obtain ⟨-, ⟨hcall, -⟩ | ⟨⟨id, child, hcall⟩, use, hu, hr, hphase⟩⟩ := hok
    · exact h.written_reservation hk hlive hstage hcall
    obtain hcall | hcall := hcall
    · have ht : s.written k c (.reservation record) =
          ({ s.setReservation record.id (.ok record) with mutex := none } : Coordination).setStage
            k c .done := by
        simp [Coordination.written, hcall, store]
      have hcalls : (s.written k c (.reservation record)).calls =
          s.calls.set k { c with stage := .done } := by
        rw [ht]
        rfl
      exact h.written_handle hk hlive hstage hu hr hphase (.inl rfl) hcalls
        (by rw [ht]; rfl)
    · have ht : s.written k c (.reservation record) =
          ({ s.setReservation record.id (.ok record) with mutex := none } : Coordination).setStage
            k { c with call := .releaseAfterExit id } .waiting := by
        simp [Coordination.written, hcall, store]
      have hcalls : (s.written k c (.reservation record)).calls =
          s.calls.set k { c with call := .releaseAfterExit id, stage := .waiting } := by
        rw [ht]
        rfl
      exact h.written_handle hk hlive hstage hu hr hphase (.inr ⟨rfl, by simp⟩) hcalls
        (by rw [ht]; rfl)

lemma Inv.readBack (h : s.Inv) (hk : s.calls[k]? = some c) (hlive : s.dead c.proc = false)
    (hstage : c.stage = .reading) (hcall : c.call = .release id)
    (hstays : s.StaysRecorded (.next k)) : (s.readBack k c id).Inv := by
  unfold Coordination.readBack
  split
  case h_2 => exact h.refuse hk (.inr hstage)
  case h_1 existing hread =>
    have hop : s.operation = .ok existing := RecordFile.read_eq_some.1 hread
    split
    case isFalse => exact h.refuse hk (.inr hstage)
    case isTrue hid =>
      have hok := h.calls k c hk hlive
      simp only [CallOk, hstage] at hok
      obtain ⟨id', lease, hcall', hl, hrel, howner⟩ := hok
      obtain rfl : id = id' := by simpa using hcall.symm.trans hcall'
      -- what is on record under the number of the operation is the operation itself
      obtain ⟨lease', hl', hrec⟩ := h.operation existing hop
      rw [hid, hl] at hl'
      obtain rfl := some.inj hl'
      refine h.setStage hk (.inr hstage) (.inl ⟨id, lease, hcall, hl, hrel, howner, ?_⟩) ?_
      · rw [hop, hrec]
      · intro id' hid' _ j d hj hd
        obtain rfl : id = id' := by simpa using hcall.symm.trans hid'
        exact hstays c id hk hcall hstage existing hop hid j d hj hd

lemma Inv.clear (h : s.Inv) (hk : s.calls[k]? = some c) (hlive : s.dead c.proc = false)
    (hstage : c.stage = .removing) (hcall : c.call = .release id) :
    ({ s.setStage k c .done with operation := .absent } : Coordination).Inv := by
  have hm : Moves s { s.setStage k c .done with operation := .absent } k c _ :=
    ⟨hk, rfl, rfl, by simp [hstage]⟩
  have hok := h.calls k c hk hlive
  simp only [CallOk, hstage] at hok
  obtain ⟨id', lease, hcall', hl, hrel, howner, hop⟩ | ⟨_, _, hother, -⟩ := hok
  swap
  · exact absurd (hcall.symm.trans hother) (by simp)
  obtain rfl : id = id' := by simpa using hcall.symm.trans hcall'
  have hmine : ∀ id' lease', s.leases id' = some lease' → s.operation = .ok lease'.record →
      id' = id := by
    intro id' lease' hl' hop'
    rw [hop] at hop'
    obtain heq : lease.record = lease'.record := by simpa using hop'
    rw [← (h.leases id' lease' hl').named, ← heq, (h.leases id lease hl).named]
  refine h.moved hk rfl rfl trivial ?_ (fun _ _ hst => absurd hst (by simp)) ?_ ?_
    (fun _ ho => absurd ho (by simp)) h.onFile
  · intro j d hjk hj hd hdok
    refine hdok.frame (fun _ hp => hp) (fun _ => ⟨rfl, fun _ use hu => ⟨use, hu, rfl, fun _ => rfl⟩,
      fun _ _ hr => hr, fun _ ho => absurd ho (by simp)⟩)
      (fun _ lease hl => ⟨lease, hl, rfl, fun hr => hr⟩) fun id' hidc hst => ?_
    -- another release about to clear would be of the same lease
    unfold CallOk at hdok
    simp only [hst] at hdok
    obtain ⟨id'', lease'', hcall'', hl'', -, -, hop''⟩ | ⟨_, _, hother, -⟩ := hdok
    · obtain rfl := hmine id'' lease'' hl'' hop''
      exact absurd (h.sole j k d c id'' hj hk hd hcall'' hst hcall hstage) hjk
    · exact absurd (hidc.symm.trans hother) (by simp)
  · exact fun id' use hu => hm.useOk (h.uses id' use hu) rfl (by simp [hstage])
  · intro id' lease' hl'
    refine hm.leaseOk (h.leases id' lease' hl') fun hnot _ ho => ?_
    obtain rfl := hmine id' lease' hl' ho
    obtain rfl := some.inj (hl.symm.trans hl')
    exact absurd (hrel.symm.trans hnot) (by simp)

lemma Inv.remove (h : s.Inv) (hk : s.calls[k]? = some c) (hlive : s.dead c.proc = false)
    (hstage : c.stage = .removing) (hcall : c.call = .releaseAfterExit id) :
    ({ (s.setReservation id .absent).setStage k c .done with mutex := none } :
      Coordination).Inv := by
  have hholds : c.Holds := by simp [PendingCall.Holds, hstage, hcall]
  have hm : Moves s { (s.setReservation id .absent).setStage k c .done with mutex := none } k c _ :=
    ⟨hk, rfl, rfl, by simp [hstage]⟩
  have hok := h.calls k c hk hlive
  simp only [CallOk, hstage] at hok
  obtain ⟨_, _, hother, -⟩ | ⟨id', use, hcall', -, hu, hphase, hdead⟩ := hok
  · exact absurd (hcall.symm.trans hother) (by simp)
  obtain rfl : id = id' := by simpa using hcall.symm.trans hcall'
  refine h.moved hk rfl rfl trivial ?_ (fun _ _ hst => absurd hst (by simp)) ?_ ?_
    h.operation ?_
  · exact fun j d hjk hj hd hok =>
      hm.callOk h hlive hholds (fun _ _ hl => hl) hjk hj hd hok fun _ _ _ => rfl
  · intro id' use' hu'
    have huse := h.uses id' use' hu'
    by_cases hid : id' = id
    · subst hid
      obtain rfl : use = use' := some.inj (hu.symm.trans hu')
      refine ⟨hm.made huse, huse.named, fun hp => absurd hp hphase, huse.settled, fun browser hb hbl => ?_⟩
      exact absurd ((hdead browser hb).symm.trans hbl) (by simp)
    · exact hm.useOk huse (Function.update_of_ne hid _ _) (by simp [hstage])
  · exact fun id' lease hl => hm.leaseOk (h.leases id' lease hl) fun _ _ hop => hop
  · intro id' record hr
    have hr' : Function.update s.reservations id .absent id' = .ok record := hr
    rw [Function.update_apply] at hr'
    split at hr'
    · exact absurd hr' (by simp)
    · exact h.onFile id' record hr'

lemma Inv.advance (h : s.Inv) (hk : s.calls[k]? = some c) (hlive : s.dead c.proc = false)
    (hstays : s.StaysRecorded (.next k)) : (s.advance k c).Inv := by
  unfold Coordination.advance
  split
  case h_1 _ record hstage =>
    cases record with
    | reservation record => exact h.truncate_reservation hk hlive hstage
    | operation record => exact h.truncate_operation hk hlive hstage
  case h_2 hstage => exact h.written hk hlive hstage
  case h_3 hstage hcall => exact h.readBack hk hlive hstage hcall hstays
  case h_4 hstage hcall => exact h.clear hk hlive hstage hcall
  case h_5 hstage hcall => exact h.remove hk hlive hstage hcall
  case h_6 => exact h

lemma Inv.exits (h : s.Inv) (hk : s.calls[k]? = some c) (hlive : s.dead c.proc = false)
    (hstage : c.stage = .waiting) (hcall : c.call = .release id) (hl : s.leases id = some lease) :
    ((s.setLease id { lease with released := true }).setStage k c .reading).Inv := by
  have hm : Moves s ((s.setLease id { lease with released := true }).setStage k c .reading) k c _ :=
    ⟨hk, rfl, rfl, by simp [hstage]⟩
  have hok := h.calls k c hk hlive
  simp only [CallOk, hstage] at hok
  obtain ⟨lease', hl', howner⟩ := hok id hcall
  obtain rfl := some.inj (hl.symm.trans hl')
  have hkeep : ∀ i old, s.leases i = some old → ∃ new,
      Function.update s.leases id (some { lease with released := true }) i = some new ∧
        new.record = old.record ∧ (old.released → new.released) := by
    intro i old hold
    rw [Function.update_apply]
    split
    · rename_i hi
      rw [hi, hl] at hold
      obtain rfl := some.inj hold
      exact ⟨_, rfl, rfl, fun _ => rfl⟩
    · exact ⟨old, hold, rfl, fun hr => hr⟩
  refine h.moved hk rfl rfl ⟨id, { lease with released := true }, hcall, ?_, rfl, howner⟩ ?_
    (fun _ _ hst => absurd hst (by simp)) ?_ ?_ ?_ h.onFile
  · exact Function.update_self _ _ _
  · intro j d _ hj hd hok
    exact hok.frame (fun _ hp => hp) (fun _ => ⟨rfl, fun _ use hu => ⟨use, hu, rfl, fun _ => rfl⟩,
      fun _ _ hr => hr, fun _ ho => ho⟩) hkeep fun _ _ _ => rfl
  · exact fun id' use hu => hm.useOk (h.uses id' use hu) rfl (by simp [hstage])
  · intro id' lease' hl'
    have hl'' : Function.update s.leases id (some { lease with released := true }) id' =
        some lease' := hl'
    rw [Function.update_apply] at hl''
    split at hl''
    · rename_i hi
      obtain rfl := some.inj hl''
      have hlok := h.leases id lease hl
      obtain ⟨d, candidate, hd, hdc, hds⟩ := hlok.made
      rw [hi]
      exact ⟨⟨d, candidate, hm.other hd (by simp [hds, hstage]), hdc, hds⟩, hlok.named,
        fun hnot => absurd hnot (by simp)⟩
    · exact hm.leaseOk (h.leases id' lease' hl'') fun _ _ hop => hop
  · intro record hop
    obtain ⟨old, hold, hrec⟩ := h.operation record hop
    obtain ⟨new, hnew, hrec', -⟩ := hkeep _ old hold
    exact ⟨new, hnew, hrec'.trans hrec⟩

end Advance

/-! ## The other steps -/

lemma Inv.spawn (h : s.Inv) {id browser : ℕ} (hu : s.uses id = some use)
    (hphase : use.record.phase = .starting) :
    (s.setUse id { use with spawned := browser :: use.spawned }).Inv := by
  have hok := h.uses id use hu
  refine ⟨fun k c hk hc => ?_, fun id' use' hu' => ?_, fun id' lease hl => ?_, h.operation,
    h.onFile, h.sole⟩
  · refine (h.calls k c hk hc).frame (fun _ hp => hp) (fun _ => ⟨rfl, fun id' use' hu' => ?_,
      fun _ _ hr => hr, fun _ ho => ho⟩) (fun _ lease hl => ⟨lease, hl, rfl, fun hr => hr⟩)
      fun _ _ _ => rfl
    by_cases hid : id' = id
    · subst hid
      obtain rfl : use = use' := some.inj (hu.symm.trans hu')
      exact ⟨_, Function.update_self _ _ _, rfl, fun hp => absurd hphase hp⟩
    · exact ⟨use', (Function.update_of_ne hid _ _).trans hu', rfl, fun _ => rfl⟩
  · have hu'' : Function.update s.uses id
        (some { use with spawned := browser :: use.spawned }) id' = some use' := hu'
    rw [Function.update_apply] at hu''
    split at hu''
    · rename_i hid
      subst hid
      obtain rfl := some.inj hu''
      obtain ⟨hchild, hfile⟩ := hok.starting hphase
      exact ⟨hok.made, hok.named, hok.starting, fun hp => absurd hphase hp,
        fun _ _ _ => .inl ⟨use.record, hfile, .inr ⟨hchild, hphase⟩⟩⟩
    · exact (h.uses id' use' hu'').frame (fun _ hp => hp) (fun _ _ hj _ => hj) rfl
        fun _ _ _ hj hd _ _ _ => ⟨hj, hd⟩
  · exact (h.leases id' lease hl).frame (fun _ hp => hp) (fun _ _ hj _ => hj) fun _ _ hop => hop

lemma Inv.die (h : s.Inv) (hstays : s.StaysRecorded (.die p)) :
    ({ s with dead := Function.update s.dead p true } : Coordination).Inv := by
  have hmono : ∀ q, s.dead q → Function.update s.dead p true q := by
    intro q hq
    rw [Function.update_apply]
    split
    · rfl
    · exact hq
  have hback : ∀ q, Function.update s.dead p true q = false → q ≠ p ∧ s.dead q = false := by
    intro q hq
    rw [Function.update_apply] at hq
    split at hq
    · exact absurd hq (by simp)
    · exact ⟨by assumption, hq⟩
  refine ⟨fun k c hk hc => ?_, fun id use hu => ?_, fun id lease hl => ?_, h.operation, h.onFile,
    fun j k c d id hj hk hc => h.sole j k c d id hj hk (hback _ hc).2⟩
  · exact (h.calls k c hk (hback _ hc).2).frame hmono
      (fun _ => ⟨rfl, fun _ use hu => ⟨use, hu, rfl, fun _ => rfl⟩, fun _ _ hr => hr,
        fun _ ho => ho⟩) (fun _ lease hl => ⟨lease, hl, rfl, fun hr => hr⟩) fun _ _ _ => rfl
  · have hok := h.uses id use hu
    refine hok.frame hmono (fun _ _ hj _ => hj) rfl fun k c browser hk hc hst hb hbl => ?_
    refine ⟨hk, (Function.update_of_ne ?_ _ _).trans hc⟩
    intro hp
    have hu' : s.uses use.record.id = some use := by rw [hok.named, hu]
    have hdead := hstays k c use.record use hk hp hst hu' browser hb
    exact absurd (hdead.symm.trans (hback _ hbl).2) (by simp)
  · exact (h.leases id lease hl).frame (fun q hq => (hback q hq).2) (fun _ _ hj _ => hj)
      fun _ _ hop => hop

lemma Inv.call (h : s.Inv) {call : CoordinatorCall} {stage : CallStage}
    (hopening : s.opening p call = some stage) :
    ({ s with calls := s.calls ++ [⟨p, call, stage⟩] } : Coordination).Inv := by
  have hold : ∀ (k : ℕ) c, s.calls[k]? = some c →
      (s.calls ++ [⟨p, call, stage⟩])[k]? = some c := by
    intro k c hk
    rw [getElem?_append_left (List.getElem?_eq_some_iff.1 hk).1, hk]
  have hcases : ∀ (k : ℕ) c, (s.calls ++ [⟨p, call, stage⟩])[k]? = some c →
      s.calls[k]? = some c ∨ c = ⟨p, call, stage⟩ := by
    intro k c hk
    rw [getElem?_append] at hk
    split at hk
    · exact .inl hk
    · exact .inr (mem_singleton.1 (mem_of_getElem? hk))
  have hstage : stage = .waiting ∨ stage = .done := by
    unfold opening at hopening
    split at hopening <;> grind
  have hnew : s.CallOk s.calls.length ⟨p, call, stage⟩ := by
    unfold CallOk
    obtain rfl | rfl := hstage
    · rintro id rfl
      simp only [opening] at hopening
      split at hopening
      · rename_i lease hl
        split at hopening
        · exact ⟨lease, hl, by assumption⟩
        · exact absurd hopening (by simp)
      · exact absurd hopening (by simp)
    · trivial
  have hnewst : ∀ c : PendingCall, c = ⟨p, call, stage⟩ → c.stage ≠ .removing := by
    rintro c rfl
    obtain h' | h' := hstage <;> simp [h']
  refine ⟨fun k c hk hc => ?_, fun id use hu => ?_, fun id lease hl => ?_, h.operation,
    fun id record hr => ?_, fun j k c d id hj hk hc hcc hcs hdc hds => ?_⟩
  · obtain hk' | rfl := hcases k c hk
    · exact h.calls k c hk' hc
    · unfold CallOk at hnew ⊢
      obtain rfl | rfl := hstage
      · exact hnew
      · trivial
  · exact (h.uses id use hu).frame (fun _ hp => hp) (fun k c hk _ => hold k c hk) rfl
      fun k c _ hk hd _ _ _ => ⟨hold k c hk, hd⟩
  · exact (h.leases id lease hl).frame (fun _ hp => hp) (fun k c hk _ => hold k c hk)
      fun _ _ hop => hop
  · rw [length_append]
    have := h.onFile id record hr
    omega
  · have hj' := (hcases j c hj).resolve_right fun he => hnewst c he hcs
    have hk' := (hcases k d hk).resolve_right fun he => hnewst d he hds
    exact h.sole j k c d id hj' hk' hc hcc hcs hdc hds

/-- **The step lemma.** A step that meets the condition keeps the invariant. -/
theorem Inv.step (h : s.Inv) (a : CoordinationAction) (hstays : s.StaysRecorded a) :
    (s.step a).Inv := by
  cases a with
  | call p call =>
    simp only [Coordination.step]
    split
    · exact h
    · split
      · rename_i stage hopening
        exact h.call hopening
      · exact h
  | enter k told stillReady =>
    simp only [Coordination.step]
    split
    · rename_i c hk
      split
      · exact h
      · rename_i hnot
        simp only [not_or, Bool.not_eq_true, Bool.not_eq_false, not_not] at hnot
        exact h.entered hk hnot.2.2 hnot.2.1 hstays
    · exact h
  | exits k =>
    simp only [Coordination.step]
    split
    · rename_i c hk
      split
      · rename_i id hcall
        split
        · rename_i lease hl
          split
          · exact h
          · rename_i hnot
            simp only [not_or, Bool.not_eq_true, not_not] at hnot
            exact h.exits hk hnot.1 hnot.2 hcall hl
        · exact h
      · exact h
    · exact h
  | next k =>
    simp only [Coordination.step]
    split
    · rename_i c hk
      split
      · exact h
      · rename_i hlive
        exact h.advance hk (by simpa using hlive) hstays
    · exact h
  | spawn id browser =>
    simp only [Coordination.step]
    split
    · rename_i use hu
      split
      · exact h
      · exact h.spawn hu (hstays use hu)
    · exact h
  | die p => exact h.die hstays

/-! ## What the invariant excludes -/

lemma Inv.none_alive (h : s.Inv) {k : ℕ} {c : PendingCall} (hk : s.calls[k]? = some c)
    (hlive : s.dead c.proc = false) {record : OperationRecord}
    (hstage : c.stage = .truncated (.operation record)) (browser : ℕ) :
    ¬ s.BrowserAlive browser := by
  rintro ⟨id, use, hu, hb, hbl⟩
  have hok := h.calls k c hk hlive
  simp only [CallOk, hstage, WriteOk] at hok
  obtain ⟨-, -, -, -, hbusy⟩ := hok
  obtain ⟨r, hr, hcovers⟩ | ⟨j, d, hj, hd, hds⟩ := (h.uses id use hu).covered browser hb hbl
  · obtain hchild | ⟨hchild, hphase⟩ := hcovers
    · exact absurd (((hbusy id r hr).1 browser hchild).symm.trans hbl) (by simp)
    · exact (hbusy id r hr).2 hchild hphase
  · obtain rfl := h.alone hj hk hd hlive (by simp [PendingCall.Holds, hds])
      (by simp [PendingCall.Holds, hstage])
    obtain rfl := some.inj (hk.symm.trans hj)
    exact absurd (hstage.symm.trans hds) (by simp)

lemma Inv.not_held (h : s.Inv) (hdead : s.OperationDead) (id : ℕ) : ¬ s.Held id := by
  rintro ⟨lease, hl, hrel, hown⟩
  have hop := (h.leases id lease hl).held hrel hown
  exact absurd ((hdead _ hop).symm.trans hown) (by simp)

/-- No handle is handed out. -/
def NoneNew (s t : Coordination) : Prop :=
  (∀ id, s.leases id = none → t.leases id = none) ∧ ∀ id, s.uses id = none → t.uses id = none

lemma noneNew_rfl : s.NoneNew s := ⟨fun _ h => h, fun _ h => h⟩

lemma noneNew_setUse (hu : s.uses id = some use) (use' : UseReservation) :
    s.NoneNew (s.setUse id use') := by
  refine ⟨fun _ h => h, fun other hother => ?_⟩
  refine (Function.update_of_ne ?_ _ _).trans hother
  rintro rfl
  exact absurd (hu.symm.trans hother) (by simp)

lemma noneNew_setLease (hl : s.leases id = some lease) (lease' : MutationLease) :
    s.NoneNew (s.setLease id lease') := by
  refine ⟨fun other hother => ?_, fun _ h => h⟩
  refine (Function.update_of_ne ?_ _ _).trans hother
  rintro rfl
  exact absurd (hl.symm.trans hother) (by simp)

lemma noneNew_entered (k : ℕ) (c : PendingCall) (told : ℕ → LivenessVerdict) (stillReady : Bool) :
    s.NoneNew (s.entered k c told stillReady) := by
  unfold entered
  split
  case h_1 => split <;> exact noneNew_rfl
  case h_2 =>
    split
    · exact noneNew_rfl
    · split <;> exact noneNew_rfl
  case h_3 =>
    split
    · exact noneNew_setUse (by assumption) _
    · exact noneNew_rfl
  case h_4 =>
    split
    · exact noneNew_setUse (by assumption) _
    · exact noneNew_rfl
  case h_5 =>
    split
    · unfold releaseAfterExit
      split
      · exact noneNew_rfl
      · exact noneNew_setUse (by assumption) _
    · exact noneNew_rfl
  case h_6 => exact noneNew_rfl

lemma step_noneNew (s : Coordination) (a : CoordinationAction) :
    s.NoneNew (s.step a) ∨ ∃ k c record, a = .next k ∧ s.calls[k]? = some c ∧
      s.dead c.proc = false ∧ c.stage = .truncated record ∧ s.step a = s.written k c record := by
  cases a with
  | call p call =>
    left
    simp only [step]
    split
    · exact noneNew_rfl
    · split <;> exact noneNew_rfl
  | enter k told stillReady =>
    left
    simp only [step]
    split
    · split
      · exact noneNew_rfl
      · exact noneNew_entered k _ told stillReady
    · exact noneNew_rfl
  | exits k =>
    left
    simp only [step]
    split
    · split
      · split
        · split
          · exact noneNew_rfl
          · exact noneNew_setLease (by assumption) _
        · exact noneNew_rfl
      · exact noneNew_rfl
    · exact noneNew_rfl
  | next k =>
    simp only [step]
    split
    case h_2 => exact .inl noneNew_rfl
    case h_1 c hk =>
      split
      · exact .inl noneNew_rfl
      rename_i hlive
      by_cases hstage : ∃ record, c.stage = .truncated record
      · obtain ⟨record, hrecord⟩ := hstage
        refine .inr ⟨k, c, record, rfl, hk, by simpa using hlive, hrecord, ?_⟩
        simp [advance, hrecord]
      · left
        unfold advance
        split
        case h_1 _ record _ => cases record <;> exact noneNew_rfl
        case h_2 record hrecord => exact absurd ⟨record, hrecord⟩ hstage
        case h_3 =>
          unfold readBack
          split <;> exact noneNew_rfl
        all_goals exact noneNew_rfl
  | spawn id browser =>
    left
    simp only [step]
    split
    · split
      · exact noneNew_rfl
      · exact noneNew_setUse (by assumption) _
    · exact noneNew_rfl
  | die p => exact .inl noneNew_rfl

/-- From a state that has the invariant, no step goes wrong. -/
lemma Inv.excludes (h : s.Inv) (a : CoordinationAction) : s.Excludes a where
  mutation := by
    intro id hnone hsome
    obtain hnew | ⟨k, c, record, -, hk, hlive, hstage, hstep⟩ := s.step_noneNew a
    · exact absurd (hnew.1 id hnone) hsome
    rw [hstep] at hsome
    have hok := h.calls k c hk hlive
    simp only [CallOk, hstage] at hok
    cases record with
    | operation record =>
      exact ⟨h.none_alive hk hlive hstage, h.not_held hok.2.2.2.1⟩
    | reservation record =>
      refine absurd hnone ?_
      obtain ⟨-, ⟨hcall, -⟩ | ⟨⟨_, _, hcall | hcall⟩, -⟩⟩ := hok
      all_goals
        simp only [Coordination.written, hcall] at hsome
        exact hsome
  use := by
    intro id hnone hsome
    obtain hnew | ⟨k, c, record, -, hk, hlive, hstage, hstep⟩ := s.step_noneNew a
    · exact absurd (hnew.2 id hnone) hsome
    rw [hstep] at hsome
    have hok := h.calls k c hk hlive
    simp only [CallOk, hstage] at hok
    cases record with
    | operation record =>
      refine absurd hnone ?_
      obtain ⟨-, ⟨candidate, hcall⟩, -⟩ := hok
      simp only [Coordination.written, hcall] at hsome
      exact hsome
    | reservation record =>
      obtain ⟨-, ⟨-, -, -, -, hdead⟩ | ⟨⟨_, _, hcall | hcall⟩, -⟩⟩ := hok
      · exact h.not_held hdead
      all_goals
        refine absurd hnone ?_
        simp only [Coordination.written, hcall] at hsome
        exact hsome
  claim := by
    rintro k c id rfl hk hcall
    simp only [Coordination.step, hk]
    split
    · exact .inl rfl
    rename_i hlive
    have hok := h.calls k c hk (by simpa using hlive)
    unfold Coordination.advance
    split
    case h_1 _ record hstage =>
      simp only [CallOk, hstage] at hok
      cases record with
      | operation record =>
        obtain ⟨-, ⟨_, hother⟩, -⟩ := hok
        exact absurd (hcall.symm.trans hother) (by simp)
      | reservation record => exact .inl rfl
    case h_2 record hstage =>
      simp only [CallOk, hstage] at hok
      cases record with
      | operation record =>
        obtain ⟨-, ⟨_, hother⟩, -⟩ := hok
        exact absurd (hcall.symm.trans hother) (by simp)
      | reservation record =>
        obtain ⟨-, ⟨hother, -⟩ | ⟨⟨_, _, hother | hother⟩, -⟩⟩ := hok
        all_goals exact absurd (hcall.symm.trans hother) (by simp)
    case h_3 =>
      unfold Coordination.readBack
      split <;> exact .inl rfl
    case h_4 hstage hcall' =>
      simp only [CallOk, hstage] at hok
      obtain ⟨id', lease, hcall'', hl, -, -, hop⟩ | ⟨_, _, hother, -⟩ := hok
      · obtain rfl : id = id' := by simpa using hcall.symm.trans hcall''
        exact .inr ⟨lease, hl, hop⟩
      · exact absurd (hcall.symm.trans hother) (by simp)
    case h_5 => exact .inl rfl
    case h_6 => exact .inl rfl

lemma inv_fresh : fresh.Inv where
  calls := fun _ _ hk => absurd hk (by simp [fresh])
  uses := fun _ _ hu => absurd hu (by simp [fresh])
  leases := fun _ _ hl => absurd hl (by simp [fresh])
  operation := fun _ hop => absurd hop (by simp [fresh])
  onFile := fun _ _ hr => absurd hr (by simp [fresh])
  sole := fun _ _ _ _ _ hj => absurd hj (by simp [fresh])

end Coordination

/-- **Mutual exclusion.** After a run whose steps all keep every live browser on record and clear
each claim once, no step grants a lease or a reservation next to what it excludes, and none clears
the claim of another operation. -/
theorem managedCoordinator_excludes (past : List CoordinationAction)
    (hstays : managedCoordinator.Along Coordination.StaysRecorded .fresh past)
    (a : CoordinationAction) : (managedCoordinator.run past).Excludes a := by
  have hinv : (managedCoordinator.run past).Inv :=
    Machine.invariant_runFrom (M := managedCoordinator)
      (fun (s : Coordination) i (h : s.Inv) hi => h.step i hi) Coordination.inv_fresh hstays
  exact hinv.excludes a

/-- A browser that is spawned, and about to be put on record. -/
theorem managedCoordinator_excludes_example :
    (managedCoordinator.run [.call 0 .reserveUse, .enter 0 (fun _ => .alive) true, .next 0,
      .next 0, .spawn 0 100]).Excludes (.call 0 (.attachChild 0 100)) := by
  refine managedCoordinator_excludes _ ?_ _
  refine ⟨trivial, fun c hc => ?_, fun c id hc hcall => ?_, fun c id hc hcall => ?_,
    fun use hu => ?_, trivial⟩
  · obtain rfl : ⟨0, .reserveUse, .waiting⟩ = c := Option.some.inj hc
    exact ⟨fun _ _ _ h => absurd h (by simp), fun _ _ h => absurd h (by simp)⟩
  · obtain rfl : ⟨0, .reserveUse, .writing (.reservation ⟨0, 0, none, .starting⟩)⟩ = c :=
      Option.some.inj hc
    exact absurd hcall (by simp)
  · obtain rfl : ⟨0, .reserveUse, .truncated (.reservation ⟨0, 0, none, .starting⟩)⟩ = c :=
      Option.some.inj hc
    exact absurd hcall (by simp)
  · obtain rfl : ⟨⟨0, 0, none, .starting⟩, false, []⟩ = use := Option.some.inj hu
    rfl

/-- **What goes wrong.** In the first run the owner of a reservation dies with its record truncated,
in the second it marks a reservation as never spawned that has a browser, and in both a lease is
granted while the browser is alive. In the third a lease is released twice, which takes away the
claim of the operation that comes next. -/
theorem managedCoordinator_overlaps :
    (¬ (managedCoordinator.run [.call 0 .reserveUse, .enter 0 (fun _ => .alive) true, .next 0,
        .next 0, .spawn 0 100, .call 0 (.attachChild 0 100), .enter 1 (fun _ => .alive) true,
        .next 1, .die 0, .call 1 (.claimMutation "installation-a"),
        .enter 2 (fun _ => .alive) true, .next 2]).Excludes (.next 2)) ∧
      (¬ (managedCoordinator.run [.call 0 .reserveUse, .enter 0 (fun _ => .alive) true, .next 0,
        .next 0, .spawn 0 100, .call 0 (.markNeverSpawned 0), .enter 1 (fun _ => .alive) true,
        .next 1, .next 1, .enter 1 (fun _ => .alive) true, .next 1,
        .call 1 (.claimMutation "installation-a"), .enter 2 (fun _ => .alive) true,
        .next 2]).Excludes (.next 2)) ∧
      ¬ (managedCoordinator.run [.call 0 (.claimMutation "installation-a"),
        .enter 0 (fun _ => .alive) true, .next 0, .next 0, .call 0 (.release 0),
        .call 0 (.release 0), .exits 1, .exits 2, .next 1, .next 2, .next 1,
        .call 1 (.claimMutation "installation-b"), .enter 3 (fun _ => .alive) true, .next 3,
        .next 3]).Excludes (.next 2) := by
  refine ⟨fun h => ?_, fun h => ?_, fun h => ?_⟩
  · exact (h.mutation 2 (by decide) (by decide)).1 100
      ⟨0, ⟨⟨0, 0, some 100, .running⟩, false, [100]⟩, by decide, by decide, by decide⟩
  · exact (h.mutation 2 (by decide) (by decide)).1 100
      ⟨0, ⟨⟨0, 0, none, .stopping⟩, true, [100]⟩, by decide, by decide, by decide⟩
  · obtain hsame | ⟨lease, hl, hop⟩ := h.claim 2 ⟨0, .release 0, .removing⟩ 0 rfl (by decide) rfl
    · exact absurd hsame (by decide)
    · -- the lease is the one that was released, and on record is the next operation
      obtain rfl : ⟨⟨0, ⟨"installation-a", by decide⟩, 0⟩, true⟩ = lease := Option.some.inj hl
      exact absurd hop (by decide)

end Yantra
