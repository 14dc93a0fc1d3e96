import Yantra.Agent.ToolGuards

/-!
# One publication

`runPublish` checks the action phase before it evaluates and writes, and closes it after: a second
publication that passes the check in between is written and reported as well.

## Main definitions

* `PublishesOnce` — at most one publication of a run is reported ok.
* `ReportsUnovertaken` — no publication is reported that another one overtook.

## Main results

* `publishesOnce_iff` — the first holds of a run exactly when its steps all meet the second.
* `two_publications_reported` — two overlapping publications, both reported ok.
-/

namespace Yantra

open Option Function ToolCall ToolRun

def ToolRun.Published (s : ToolRun) (id : Nat) : Prop :=
  ∃ c, s.calls id = some c ∧ c.isPublish = true ∧ c.reportedOk = true

/-- At most one publication is reported ok; every other call of the tool has failed, or has not
returned. -/
def PublishesOnce (s : ToolRun) : Prop := ∀ i j, s.Published i → s.Published j → i = j

/-- A publisher that returns to a call still waiting for it was not overtaken: no other publication
was reported ok since the latch check of this one. -/
def ReportsUnovertaken (s : ToolRun) (e : ToolEvent) : Prop :=
  ∀ id c, e = .publishReturns id → s.calls id = some c → c.phase = .wrote → c.result = none →
    c.overtaken = false

/-- What holds of a call in a reachable run whose phase is `closed`; `any` says that some
publication has been reported. -/
structure CallInv (closed : Bool) (any : Prop) (c : ToolCall) : Prop where
  operating : c.phase = .operating → c.isPublish = false
  publishing : c.phase.publishing = true → c.isPublish = true
  reported : c.isPublish = true → c.reportedOk = true → closed = true ∧ c.phase = .settled
  suspended : c.phase.suspended = true → c.result = none ∧ c.overtaken = false
  overtaken : c.phase.publishing = true → (c.overtaken = true ↔ any)

def PublishInv (s : ToolRun) : Prop :=
  ∀ id c, s.calls id = some c → CallInv s.closed (∃ j, s.Published j) c

/-! ## What a step adds -/

@[simp] lemma reportedOk_abort (c : ToolCall) : c.abort.reportedOk = c.reportedOk := by
  unfold abort
  split_ifs
  · rfl
  · cases hr : c.result <;> simp [reportedOk, hr, abortedResult]
  · rfl

lemma abort_frame (c : ToolCall) : c.abort.spec = c.spec ∧ c.abort.phase = c.phase ∧
    c.abort.overtaken = c.overtaken ∧
      (c.phase.suspended → c.abort.result = c.result) := by
  unfold abort
  split_ifs with hsuspended
  · exact ⟨rfl, rfl, rfl, fun _ => rfl⟩
  · exact ⟨rfl, rfl, rfl, fun h => absurd h hsuspended⟩
  · exact ⟨rfl, rfl, rfl, fun _ => rfl⟩

lemma isPublish_congr {c d : ToolCall} (h : c.spec = d.spec) : c.isPublish = d.isPublish := by
  rw [isPublish, isPublish, h]

variable {c : ToolCall} {id : Nat}

lemma published_update {s s' : ToolRun} (hcalls : s'.calls = Function.update s.calls id (some c))
    (i : Nat) :
    s'.Published i ↔ if i = id then c.isPublish = true ∧ c.reportedOk = true
      else s.Published i := by
  unfold ToolRun.Published
  simp only [hcalls, update_apply]
  split_ifs <;> simp

lemma published_of_update {s s' : ToolRun} (hcalls : s'.calls = Function.update s.calls id (some c))
    (hc : (c.isPublish ∧ c.reportedOk) ↔ s.Published id) (i : Nat) :
    s'.Published i ↔ s.Published i := by
  rw [published_update hcalls]
  split_ifs with hi
  · rw [hc, hi]
  · rfl

variable {s : ToolRun}

lemma published_startOperation (hnot : ¬ s.Published id) (hc : c.reportedOk = false) (i : Nat) :
    (s.startOperation id c).Published i ↔ s.Published i := by
  obtain ⟨c', hc', heq⟩ := startOperation_eq s id c
  refine published_of_update (s := s) (by rw [heq]) (iff_of_false ?_ hnot) i
  rintro ⟨-, hok⟩
  rw [hc'.reportedOk hok] at hc
  cases hc

lemma PublishInv.not_reported (h : PublishInv s) (hc : s.calls id = some c)
    (hsuspended : c.phase.suspended) :
    c.reportedOk = false := by
  simp [reportedOk, ((h id c hc).suspended hsuspended).1]

lemma PublishInv.not_published (h : PublishInv s) (hc : s.calls id = some c)
    (hphase : c.phase ≠ .settled) : ¬ s.Published id := by
  rintro ⟨d, hd, hpublish, hok⟩
  rw [hc, some.injEq] at hd
  subst hd
  exact hphase ((h id c hc).reported hpublish hok).2

lemma not_published_of_new (hnew : s.calls id = none) :
    ¬ s.Published id := by
  rintro ⟨d, hd, -⟩
  rw [hnew] at hd
  cases hd

variable {e : ToolEvent}

lemma suspended_of_passes (h : s.Passes e id c) : c.phase.suspended := by
  rcases h.2 with ⟨-, hphase, -⟩ | ⟨-, hphase, -⟩ <;> rw [hphase] <;> rfl

lemma ne_settled_of_suspended (h : c.phase.suspended) :
    c.phase ≠ .settled := by
  intro hc
  rw [hc] at h
  cases h

variable (required : Bool)

lemma published_step (h : PublishInv s) (he : ∀ j, e ≠ .publishReturns j) (i : Nat) :
    ((toolRun required).step s e).Published i ↔ s.Published i := by
  have hstep := toolStep required s e
  generalize (toolRun required).step s e = s' at hstep ⊢
  cases hstep with
  | frame _ _ _ hcalls => simp only [ToolRun.Published, hcalls]
  | rejected _ hnew _ hok =>
    refine published_of_update rfl (iff_of_false (fun hc => ?_) (not_published_of_new hnew)) i
    rw [hok] at hc
    cases hc.2
  | enters _ hc =>
    refine published_of_update rfl (iff_of_false (fun hok => ?_) (not_published_of_new hc.new)) i
    simp [reportedOk, hc.result] at hok
  | startsAtOnce _ hc =>
    exact published_startOperation (not_published_of_new hc.new)
      (by simp [reportedOk, hc.result]) i
  | starts hpasses =>
    have hsuspended := suspended_of_passes hpasses
    exact published_startOperation
      (h.not_published hpasses.1 (ne_settled_of_suspended hsuspended))
      (h.not_reported hpasses.1 hsuspended) i
  | @moves _ id c c' _ hc hmoves =>
    refine published_of_update rfl ⟨fun hok => ?_, fun hid => ?_⟩ i
    · rw [isPublish_congr hmoves.spec] at hok
      rcases hmoves.reportedOk hok.2 with hreported | hoperating
      · exact ⟨c, hc, hok.1, hreported⟩
      · rw [(h id c hc).operating hoperating] at hok
        cases hok.1
    · obtain ⟨d, hd, hpublish, hok⟩ := hid
      rw [hc, some.injEq] at hd
      subst hd
      exact ⟨(isPublish_congr hmoves.spec).trans hpublish, hmoves.kept hok⟩
  | closes => exact absurd rfl (he _)
  | abortRun =>
    simp only [ToolRun.Published]
    constructor
    · rintro ⟨d, hd, hpublish, hok⟩
      obtain ⟨c, hc, rfl⟩ := map_eq_some_iff.1 hd
      rw [reportedOk_abort] at hok
      rw [isPublish_congr (abort_frame c).1] at hpublish
      exact ⟨c, hc, hpublish, hok⟩
    · rintro ⟨c, hc, hpublish, hok⟩
      refine ⟨c.abort, by rw [hc]; rfl, ?_, by rw [reportedOk_abort]; exact hok⟩
      rw [isPublish_congr (abort_frame c).1]
      exact hpublish
  | @abortCall id c hc =>
    refine published_of_update rfl ?_ i
    have hspec : ({ c.abort with signalled := true } : ToolCall).spec = c.spec := (abort_frame c).1
    have hok : ({ c.abort with signalled := true } : ToolCall).reportedOk = c.reportedOk :=
      reportedOk_abort c
    rw [isPublish_congr hspec, hok]
    constructor
    · exact fun hpublished => ⟨c, hc, hpublished⟩
    · rintro ⟨d, hd, hpublished⟩
      rw [hc, some.injEq] at hd
      exact hd ▸ hpublished

lemma published_publishReturns (h : PublishInv s) (hc : s.calls id = some c)
    (hphase : c.phase = .wrote) (i : Nat) :
    (s.publishReturns id).Published i ↔ s.Published i ∨ i = id ∧ c.result = none := by
  have hpublishing : c.phase.publishing = true := by rw [hphase]; rfl
  have hpublish : c.isPublish := (h id c hc).publishing hpublishing
  have hnot : ¬ s.Published id := h.not_published hc (by simp [hphase])
  unfold ToolRun.Published
  simp only [publishReturns, ToolRun.resume, hc, hphase, if_true, update_apply]
  split_ifs with hi
  · subst hi
    have hresult : (c.finish { status := .ok }).reportedOk ↔ c.result = none := by
      cases hr : c.result with
      | none => simp [reportedOk, finish, hr]
      | some r =>
        have hno : c.reportedOk = false := by
          by_contra hok
          exact hnot ⟨c, hc, hpublish, by simpa using hok⟩
        simpa [reportedOk, finish, hr] using hno
    have hspec : (c.finish { status := .ok }).isPublish := hpublish
    constructor
    · rintro ⟨d, hd, -, hok⟩
      obtain rfl := some.inj hd
      exact .inr ⟨rfl, hresult.1 hok⟩
    · rintro (hp | ⟨-, hr⟩)
      · exact absurd hp hnot
      · exact ⟨_, rfl, hspec, hresult.2 hr⟩
  · simp only [hi, false_and, or_false]
    constructor
    · rintro ⟨d, hd, hp, hok⟩
      obtain ⟨b, hb, rfl⟩ := map_eq_some_iff.1 hd
      exact ⟨b, hb, hp, hok⟩
    · rintro ⟨b, hb, hp, hok⟩
      exact ⟨b.afterClose c.result.isNone, by rw [hb]; rfl, hp, hok⟩

/-! ## The invariant -/

lemma PublishInv.closed (h : PublishInv s) (hany : ∃ j, s.Published j) :
    s.closed := by
  obtain ⟨j, c, hc, hpublish, hok⟩ := hany
  exact ((h j c hc).reported hpublish hok).1

lemma publishInv_update {s s' : ToolRun} (h : PublishInv s)
    (hcalls : s'.calls = Function.update s.calls id (some c)) (hclosed : s'.closed = s.closed)
    (hpublished : ∀ i, s'.Published i ↔ s.Published i)
    (hc : CallInv s.closed (∃ j, s.Published j) c) : PublishInv s' := by
  intro i d hd
  simp only [hcalls, update_apply] at hd
  simp only [hpublished, hclosed]
  split_ifs at hd
  · obtain rfl := some.inj hd
    exact hc
  · exact h i d hd

variable {closed : Bool} {any : Prop}

lemma CallInv.of_settled (hphase : c.phase = .settled)
    (hreported : c.isPublish → c.reportedOk → closed) :
    CallInv closed any c where
  operating h := by rw [hphase] at h; cases h
  publishing h := by rw [hphase] at h; cases h
  reported hp hok := ⟨hreported hp hok, hphase⟩
  suspended h := by rw [hphase] at h; cases h
  overtaken h := by rw [hphase] at h; cases h

lemma CallInv.of_suspended (hphase : c.phase.suspended) (hresult : c.result = none)
    (hovertaken : c.overtaken = false) : CallInv closed any c where
  operating h := by rw [h] at hphase; cases hphase
  publishing h := by cases hc : c.phase <;> rw [hc] at h hphase <;> cases h <;> cases hphase
  reported _ hok := by simp [reportedOk, hresult] at hok
  suspended _ := ⟨hresult, hovertaken⟩
  overtaken h := by cases hc : c.phase <;> rw [hc] at h hphase <;> cases h <;> cases hphase

/-- An operation that starts keeps the invariant: a publication gets past the latch check only
when none was reported. -/
lemma publishInv_startOperation (h : PublishInv s) (hnot : ¬ s.Published id)
    (hresult : c.result = none) (hovertaken : c.overtaken = false) :
    PublishInv (s.startOperation id c) := by
  have hok : c.reportedOk = false := by simp [reportedOk, hresult]
  have hpublished := published_startOperation hnot hok
  obtain ⟨c', hc', heq⟩ := startOperation_eq s id c
  refine publishInv_update h (by rw [heq]) (by rw [heq]) hpublished ?_
  refine ⟨fun hp => ?_, fun hp => ?_, fun _ hr => ?_, fun hp => ?_, fun hp => ?_⟩
  · rw [isPublish_congr hc'.spec]
    exact hc'.operating hp
  · rw [isPublish_congr hc'.spec]
    exact (hc'.publishing hp).1
  · rw [hc'.reportedOk hr] at hok
    cases hok
  · rw [hc'.suspended] at hp
    cases hp
  · refine iff_of_false (by rw [hc'.overtaken, hovertaken]; simp) fun hany => ?_
    have hclosed := h.closed hany
    rw [(hc'.publishing hp).2] at hclosed
    cases hclosed

lemma CallInv.abort (h : CallInv closed any c) :
    CallInv closed any c.abort := by
  obtain ⟨hspec, hphase, hovertaken, hresult⟩ := abort_frame c
  refine ⟨fun hp => ?_, fun hp => ?_, fun hp hok => ?_, fun hp => ?_, fun hp => ?_⟩
  · rw [isPublish_congr hspec]
    exact h.operating (hphase ▸ hp)
  · rw [isPublish_congr hspec]
    exact h.publishing (hphase ▸ hp)
  · rw [hphase]
    exact h.reported (isPublish_congr hspec ▸ hp) (reportedOk_abort c ▸ hok)
  · rw [hovertaken, hresult (hphase ▸ hp)]
    exact h.suspended (hphase ▸ hp)
  · rw [hovertaken]
    exact h.overtaken (hphase ▸ hp)

lemma publishInv_step (s : ToolRun) (e : ToolEvent) (h : PublishInv s) :
    PublishInv ((toolRun required).step s e) := by
  by_cases he : ∀ j, e ≠ .publishReturns j
  · have hpublished := published_step required h he
    have hstep := toolStep required s e
    generalize (toolRun required).step s e = s' at hstep hpublished ⊢
    cases hstep with
    | frame _ _ hclosed hcalls =>
      intro i d hd
      rw [hcalls] at hd
      simp only [hpublished, hclosed]
      exact h i d hd
    | rejected _ _ hphase hok =>
      refine publishInv_update h rfl rfl hpublished (.of_settled hphase fun _ hr => ?_)
      rw [hok] at hr
      cases hr
    | enters _ hc hphase =>
      exact publishInv_update h rfl rfl hpublished
        (.of_suspended hphase hc.result hc.overtaken)
    | startsAtOnce _ hc =>
      exact publishInv_startOperation h (not_published_of_new hc.new) hc.result hc.overtaken
    | starts hpasses =>
      have hsuspended := suspended_of_passes hpasses
      obtain ⟨hresult, hovertaken⟩ := (h _ _ hpasses.1).suspended hsuspended
      exact publishInv_startOperation h
        (h.not_published hpasses.1 (ne_settled_of_suspended hsuspended)) hresult hovertaken
    | @moves _ id c c' _ hc hmoves =>
      have hinv := h id c hc
      refine publishInv_update h rfl rfl hpublished
        ⟨fun hp => ?_, fun hp => ?_, fun hp hok => ?_, fun hp => ?_, fun hp => ?_⟩
      · rw [isPublish_congr hmoves.spec]
        exact hinv.operating (hmoves.operating hp)
      · rw [isPublish_congr hmoves.spec]
        exact hinv.publishing (hmoves.publishing hp)
      · rw [isPublish_congr hmoves.spec] at hp
        rcases hmoves.reportedOk hok with hr | hoperating
        · obtain ⟨hclosed, hphase⟩ := hinv.reported hp hr
          exact ⟨hclosed, hmoves.settled hphase⟩
        · rw [hinv.operating hoperating] at hp
          cases hp
      · obtain ⟨hsuspended, hresult⟩ := hmoves.suspended hp
        rw [hresult, hmoves.overtaken]
        exact hinv.suspended hsuspended
      · rw [hmoves.overtaken]
        exact hinv.overtaken (hmoves.publishing hp)
    | closes => exact absurd rfl (he _)
    | abortRun =>
      intro i d hd
      obtain ⟨c, hc, rfl⟩ := map_eq_some_iff.1 hd
      simp only [hpublished]
      exact (h i c hc).abort
    | @abortCall id c hc =>
      have hinv := (h id c hc).abort
      exact publishInv_update h rfl rfl hpublished
        ⟨hinv.operating, hinv.publishing, hinv.reported, hinv.suspended, hinv.overtaken⟩
  · obtain ⟨id, rfl⟩ := not_forall_not.1 he
    change PublishInv (s.publishReturns id)
    by_cases hw : ∃ c, s.calls id = some c ∧ c.phase = .wrote
    · obtain ⟨c, hc, hphase⟩ := hw
      have hpublished := published_publishReturns h hc hphase
      have hclosed : (s.publishReturns id).closed := by
        simp [publishReturns, ToolRun.resume, hc, hphase]
      intro i d hd
      simp only [hpublished, hclosed, exists_or]
      simp only [publishReturns, ToolRun.resume, hc, hphase, if_true,
        update_apply] at hd
      split_ifs at hd with hi
      · obtain rfl := some.inj hd
        exact .of_settled rfl fun _ _ => rfl
      · obtain ⟨b, hb, rfl⟩ := map_eq_some_iff.1 hd
        have hinv := h i b hb
        refine ⟨hinv.operating, hinv.publishing, fun hp hok => ⟨rfl, (hinv.reported hp hok).2⟩,
          fun hp => ⟨(hinv.suspended hp).1, ?_⟩, fun hp => ?_⟩
        · have hno : b.phase.publishing = false := by
            have hs : b.phase.suspended := hp
            cases hb' : b.phase <;> rw [hb'] at hs <;> first | rfl | cases hs
          simp [ToolCall.afterClose, (hinv.suspended hp).2, hno]
        · have hb' : b.phase.publishing := hp
          simp [ToolCall.afterClose, hb', hinv.overtaken hb']
    · have hsame : s.publishReturns id = s := by
        unfold publishReturns ToolRun.resume
        split
        · rename_i c hc
          rw [if_neg fun hphase => hw ⟨c, hc, hphase⟩]
        · rfl
      rw [hsame]
      exact h

/-! ## At most one -/

lemma publishesOnce_step_iff (s : ToolRun) (e : ToolEvent) (h : PublishInv s) :
    PublishesOnce ((toolRun required).step s e) ↔ PublishesOnce s ∧ ReportsUnovertaken s e := by
  by_cases he : ∀ j, e ≠ .publishReturns j
  · have hpublished := published_step required h he
    have hcond : ReportsUnovertaken s e := fun id c hid => absurd hid (he id)
    simp only [PublishesOnce, hpublished, hcond, and_true]
  · obtain ⟨id, rfl⟩ := not_forall_not.1 he
    change PublishesOnce (s.publishReturns id) ↔ _
    by_cases hw : ∃ c, s.calls id = some c ∧ c.phase = .wrote ∧ c.result = none
    · obtain ⟨c, hc, hphase, hresult⟩ := hw
      have hpublished := published_publishReturns h hc hphase
      have hpublishing : c.phase.publishing = true := by rw [hphase]; rfl
      have hnot := h.not_published hc (by simp [hphase])
      have hovertaken := (h id c hc).overtaken hpublishing
      have hcond : ReportsUnovertaken s (.publishReturns id) ↔ ¬ ∃ j, s.Published j := by
        rw [← hovertaken, Bool.not_eq_true]
        constructor
        · exact fun hall => hall id c rfl hc hphase hresult
        · rintro hno i d ⟨rfl⟩ hd - -
          rw [hc, some.injEq] at hd
          exact hd ▸ hno
      rw [hcond]
      simp only [PublishesOnce, hpublished, hresult, and_true]
      constructor
      · intro honce
        refine ⟨fun i j hi hj => honce i j (.inl hi) (.inl hj), fun ⟨j, hj⟩ => ?_⟩
        rw [honce j id (.inl hj) (.inr rfl)] at hj
        exact hnot hj
      · rintro ⟨-, hno⟩ i j (hi | rfl) (hj | rfl)
        · exact absurd ⟨i, hi⟩ hno
        · exact absurd ⟨i, hi⟩ hno
        · exact absurd ⟨j, hj⟩ hno
        · rfl
    · have hcond : ReportsUnovertaken s (.publishReturns id) := by
        rintro i c ⟨rfl⟩ hc hphase hresult
        exact absurd ⟨c, hc, hphase, hresult⟩ hw
      have hsame : ∀ i, (s.publishReturns id).Published i ↔ s.Published i := by
        intro i
        by_cases hw' : ∃ c, s.calls id = some c ∧ c.phase = .wrote
        · obtain ⟨c, hc, hphase⟩ := hw'
          rw [published_publishReturns h hc hphase]
          exact or_iff_left fun hr => hw ⟨c, hc, hphase, hr.2⟩
        · unfold publishReturns ToolRun.resume
          split
          · rename_i c hc
            rw [if_neg fun hphase => hw' ⟨c, hc, hphase⟩]
          · rfl
      simp only [PublishesOnce, hsame, hcond, and_true]

/-- **One publication is reported exactly when no overtaken one is.**

**Proof sketch.** A publication past its latch check is overtaken once another one has been
reported, because the check passes only in a run whose phase is open; so a publisher that returns
reports the first publication exactly when it was not overtaken. -/
theorem publishesOnce_iff (required : Bool) (events : List ToolEvent) :
    PublishesOnce ((toolRun required).run events) ↔
      (toolRun required).Along ReportsUnovertaken (toolRun required).init events := by
  have hall : ∀ s, PublishInv s → (PublishesOnce ((toolRun required).runFrom s events) ↔
      PublishesOnce s ∧ (toolRun required).Along ReportsUnovertaken s events) := by
    induction events with
    | nil => exact fun s _ => (and_iff_left trivial).symm
    | cons e events ih =>
      intro s hs
      rw [Machine.runFrom_cons, ih _ (publishInv_step required s e hs),
        publishesOnce_step_iff required s e hs, Machine.along_cons, and_assoc]
  have hinit : PublishesOnce (toolRun required).init := by
    rintro i j ⟨c, hc, -⟩
    cases hc
  exact (hall _ fun id c hc => (by cases hc)).trans (and_iff_right hinit)

/-! ## Two publications -/

/-- Two calls of the tool in one batch: both pass the latch check before either closes it. -/
def twoPublications : List ToolEvent :=
  [.declareContract, .call 1 resultPublish false true none, .call 2 resultPublish false true none,
    .evaluated 1 .passes, .evaluated 2 .passes, .artifactsWritten 1 .passes, .publishReturns 1,
    .artifactsWritten 2 .passes, .publishReturns 2]

theorem two_publications_reported :
    (((toolRun true).run twoPublications).calls 1).map ToolCall.result =
        some (some ⟨.ok, none, false⟩) ∧
      (((toolRun true).run twoPublications).calls 2).map ToolCall.result =
        some (some ⟨.ok, none, false⟩) ∧
      ¬ PublishesOnce ((toolRun true).run twoPublications) := by
  refine ⟨by decide, by decide, fun h => ?_⟩
  have hpublished : ∀ i, i = 1 ∨ i = 2 → ((toolRun true).run twoPublications).Published i := by
    rintro i (rfl | rfl)
    · exact ⟨_, rfl, rfl, rfl⟩
    · exact ⟨_, rfl, rfl, rfl⟩
  have heq := h 1 2 (hpublished 1 (.inl rfl)) (hpublished 2 (.inr rfl))
  cases heq

end Yantra
