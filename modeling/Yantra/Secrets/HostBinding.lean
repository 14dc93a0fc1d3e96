import Mathlib.Data.List.Infix
import Yantra.Lib.Utf16

/-!
# Which hosts may receive a website secret

A website secret is bound to hosts. It is released to a live host that is one of them, or that has
the registrable domain of one of them: the last two labels, or the last three when the last two are
in a table of ten suffixes. Whether this keeps the customers of a shared suffix apart depends on the
public suffixes there are. The URL parser and lower case are parameters.

## Main definitions

* `registrableDomain`, `assertHostBinding` — the check.
* `ReleasedToOwner` — what the check should guarantee.

## Main results

* `hostBinding_sound_iff` — the check is sound exactly for the sets that the table covers.
-/

namespace Yantra

open Utf16 List

/-! ## The check -/

structure HostPlatform where
  /-- `new URL(url).hostname`, `none` where it throws. -/
  hostname : JsString → Option JsString
  toLowerCase : JsString → JsString

structure HostBoundSecretRef where
  key : JsString
  hosts : List JsString

structure SecretHostMismatchError where
  secretKey : JsString
  liveHost : JsString
  deriving DecidableEq

def SecretHostMismatchError.code (_ : SecretHostMismatchError) : JsString :=
  units "SECRET_HOST_MISMATCH"

def SecretHostMismatchError.message (e : SecretHostMismatchError) : JsString :=
  units "Secret \"" ++ e.secretKey ++ units "\" is not permitted for host \"" ++ e.liveHost ++
    units "\"."

/-- `text.replace(/^\.+|\.+$/g, '')` -/
def stripDots (text : JsString) : JsString :=
  ((text.dropWhile (· == 46)).reverse.dropWhile (· == 46)).reverse

def normalizeHost (pf : HostPlatform) (host : JsString) : JsString :=
  let candidate := if (indexOf host (units "://") 0).isSome then host else units "https://" ++ host
  match pf.hostname candidate with
  | some hostname => stripDots (pf.toLowerCase hostname)
  | none => stripDots (pf.toLowerCase host)

def TWO_LEVEL_PUBLIC_SUFFIXES : List JsString :=
  ["co.uk", "org.uk", "ac.uk", "com.au", "net.au", "org.au", "co.jp", "co.nz", "com.br",
    "com.mx"].map units

/-- `/^\d{1,3}(?:\.\d{1,3}){3}$/` -/
def isIpv4 (host : JsString) : Bool :=
  (host.splitOn 46).length == 4 &&
    (host.splitOn 46).all fun part => 1 ≤ part.length && part.length ≤ 3 && part.all isDigit

/-- `host.split('.').filter(Boolean)` -/
def hostLabels (host : JsString) : List JsString :=
  (host.splitOn 46).filter fun label => !label.isEmpty

/-- `labels.join('.')` -/
def joinLabels (labels : List JsString) : JsString := [46].intercalate labels

/-- `labels.slice(-n)` -/
def lastLabels (n : ℕ) (labels : List JsString) : List JsString := labels.drop (labels.length - n)

def registrableDomain (host : JsString) : JsString :=
  if host = units "localhost" ∨ isIpv4 host then host
  else
    let labels := hostLabels host
    if labels.length ≤ 2 then host
    else
      let suffix2 := joinLabels (lastLabels 2 labels)
      joinLabels (lastLabels (if TWO_LEVEL_PUBLIC_SUFFIXES.contains suffix2 then 3 else 2) labels)

/-- The condition of `assertHostBinding` on one binding. -/
def bindingAllows (pf : HostPlatform) (binding liveHost : JsString) : Bool :=
  normalizeHost pf binding == normalizeHost pf liveHost ||
    registrableDomain (normalizeHost pf binding) == registrableDomain (normalizeHost pf liveHost)

def assertHostBinding (pf : HostPlatform) (secretRef : HostBoundSecretRef) (liveHost : JsString) :
    Except SecretHostMismatchError Unit :=
  if secretRef.hosts.any fun binding => bindingAllows pf binding liveHost then .ok ()
  else .error ⟨secretRef.key, normalizeHost pf liveHost⟩

/-! ## Labels -/

/-- A label: not empty, and without a dot. -/
def IsLabel (label : JsString) : Prop := label ≠ [] ∧ 46 ∉ label

instance : DecidablePred IsLabel := fun _ => inferInstanceAs (Decidable (_ ∧ _))

lemma dot_not_mem_of_mem_splitOn {host label : JsString} (h : label ∈ host.splitOn 46) :
    46 ∉ label := by
  induction host generalizing label with
  | nil =>
    rw [splitOn_nil, mem_singleton] at h
    rw [h]
    exact not_mem_nil
  | cons c host ih =>
    rw [splitOn_cons_eq_if_modifyHead] at h
    split at h
    next =>
      obtain rfl | h := mem_cons.1 h
      · exact not_mem_nil
      · exact ih h
    next hc =>
      cases hsplit : host.splitOn 46 with
      | nil => exact absurd hsplit (splitOn_ne_nil 46 host)
      | cons first rest =>
        rw [hsplit, modifyHead_cons, mem_cons] at h
        rw [hsplit] at ih
        obtain rfl | h := h
        · rw [mem_cons, not_or]
          exact ⟨fun heq => hc (by rw [← heq]; rfl), ih mem_cons_self⟩
        · exact ih (mem_cons_of_mem first h)

lemma isLabel_of_mem_hostLabels {host label : JsString} (h : label ∈ hostLabels host) :
    IsLabel label := by
  obtain ⟨hmem, hne⟩ := mem_filter.1 h
  exact ⟨by simpa using hne, dot_not_mem_of_mem_splitOn hmem⟩

variable {labels : List JsString}

lemma splitOn_joinLabels (h : ∀ l ∈ labels, IsLabel l) (hne : labels ≠ []) :
    (joinLabels labels).splitOn 46 = labels :=
  splitOn_intercalate 46 (fun l hl => (h l hl).2) hne

lemma hostLabels_joinLabels (h : ∀ l ∈ labels, IsLabel l) (hne : labels ≠ []) :
    hostLabels (joinLabels labels) = labels := by
  rw [hostLabels, splitOn_joinLabels h hne, filter_eq_self]
  exact fun l hl => by simpa using (h l hl).1

lemma lastLabels_suffix (n : ℕ) (labels : List JsString) : lastLabels n labels <:+ labels :=
  drop_suffix _ _

variable {n : ℕ}

lemma length_lastLabels (h : n ≤ labels.length) :
    (lastLabels n labels).length = n := by
  rw [lastLabels, length_drop]
  omega

lemma lastLabels_of_suffix {labels labels' : List JsString} (h : labels' <:+ labels)
    (hlen : n ≤ labels'.length) : lastLabels n labels = lastLabels n labels' := by
  obtain ⟨before, rfl⟩ := h
  rw [lastLabels, lastLabels, length_append,
    show before.length + labels'.length - n = before.length + (labels'.length - n) by omega,
    drop_length_add_append]

variable {host : JsString}

lemma length_hostLabels_of_isIpv4 (h : isIpv4 host) :
    (hostLabels host).length = 4 := by
  simp only [isIpv4, Bool.and_eq_true, beq_iff_eq, all_eq_true, decide_eq_true_eq] at h
  rw [hostLabels, filter_eq_self.2, h.1]
  intro part hpart
  cases part with
  | nil => exact absurd (h.2 [] hpart).1.1 (by decide)
  | cons c part => rfl

/-- The number of labels that `registrableDomain` keeps. -/
def keptLabels (labels : List JsString) : ℕ :=
  if TWO_LEVEL_PUBLIC_SUFFIXES.contains (joinLabels (lastLabels 2 labels)) then 3 else 2

lemma keptLabels_le (labels : List JsString) : 2 ≤ keptLabels labels ∧ keptLabels labels ≤ 3 := by
  unfold keptLabels
  split <;> decide

/-- What `registrableDomain` computes: the host itself, which then has one label, two or four; or the
last labels of a longer host. -/
lemma registrableDomain_cases (host : JsString) :
    registrableDomain host = host ∧ ((hostLabels host).length ≤ 2 ∨ (hostLabels host).length = 4) ∨
      2 < (hostLabels host).length ∧ registrableDomain host =
        joinLabels (lastLabels (keptLabels (hostLabels host)) (hostLabels host)) := by
  unfold registrableDomain
  split
  next hraw =>
    refine .inl ⟨rfl, ?_⟩
    obtain rfl | hip := hraw
    · exact .inl (by decide)
    · exact .inr (length_hostLabels_of_isIpv4 hip)
  next =>
    dsimp only
    split
    next hshort => exact .inl ⟨rfl, .inl hshort⟩
    next hlong => exact .inr ⟨not_le.1 hlong, rfl⟩

/-! ## Public suffixes -/

structure PublicSuffixes where
  mem : List JsString → Prop
  isLabel : ∀ s, mem s → ∀ l ∈ s, IsLabel l
  single : ∀ l, IsLabel l → mem [l]

namespace PublicSuffixes

/-- The registrable domain of a host: the longest public suffix that it ends in, and the label
before that. -/
structure Registrable (suffixes : PublicSuffixes) (host domain : List JsString) : Prop where
  suffix : domain <:+ host
  tail_mem : suffixes.mem domain.tail
  longest : ∀ s, s <:+ host → suffixes.mem s → s.length < domain.length

def SameOwner (suffixes : PublicSuffixes) (host host' : JsString) : Prop :=
  ∃ domain, suffixes.Registrable (hostLabels host) domain ∧
    suffixes.Registrable (hostLabels host') domain

/-- A suffix of several labels that the table of the check lacks. -/
def Uncovered (suffixes : PublicSuffixes) (s : List JsString) : Prop :=
  suffixes.mem s ∧ 2 ≤ s.length ∧ joinLabels s ∉ TWO_LEVEL_PUBLIC_SUFFIXES

def Clear (suffixes : PublicSuffixes) (host : JsString) : Prop :=
  ∀ s, s <:+ hostLabels host → ¬ suffixes.Uncovered s

end PublicSuffixes

/-- What the check should guarantee: a secret is released to a host it is bound to, or to one with
the same owner. -/
def ReleasedToOwner (pf : HostPlatform) (suffixes : PublicSuffixes)
    (secretRef : HostBoundSecretRef) (liveHost : JsString) : Prop :=
  assertHostBinding pf secretRef liveHost = .ok () →
    ∃ binding ∈ secretRef.hosts, normalizeHost pf binding = normalizeHost pf liveHost ∨
      suffixes.SameOwner (normalizeHost pf binding) (normalizeHost pf liveHost)

/-! ## Hosts outside the uncovered suffixes -/

variable {suffixes : PublicSuffixes}

variable {s : List JsString}

lemma length_of_joinLabels_mem (hs : ∀ l ∈ s, IsLabel l)
    (h : joinLabels s ∈ TWO_LEVEL_PUBLIC_SUFFIXES) : s.length = 2 := by
  have htable : ∀ t ∈ TWO_LEVEL_PUBLIC_SUFFIXES, (hostLabels t).length = 2 := by decide
  have hlen := htable _ h
  by_cases hnil : s = []
  · subst hnil
    exact absurd hlen (by decide)
  · rwa [hostLabels_joinLabels hs hnil] at hlen

lemma PublicSuffixes.Clear.length_le (h : suffixes.Clear host) (hs : s <:+ hostLabels host)
    (hmem : suffixes.mem s) :
    s.length ≤ 1 ∨ s.length = 2 ∧ joinLabels s ∈ TWO_LEVEL_PUBLIC_SUFFIXES := by
  by_cases htable : joinLabels s ∈ TWO_LEVEL_PUBLIC_SUFFIXES
  · exact .inr ⟨length_of_joinLabels_mem (suffixes.isLabel s hmem) htable, htable⟩
  · refine .inl ?_
    by_contra hlen
    exact h s hs ⟨hmem, by omega, htable⟩

variable {domain : List JsString}

/-- A clear host of three labels or more: when its last two are in the table and are a public
suffix, its registrable domain is the last three labels; otherwise it is the last two. -/
lemma PublicSuffixes.Clear.registrable (h : suffixes.Clear host)
    (hdomain : domain <:+ hostLabels host)
    (hlen : domain.length = 2 ∧ joinLabels domain ∉ TWO_LEVEL_PUBLIC_SUFFIXES ∨
      domain.length = 2 ∧ ¬ suffixes.mem domain ∨
      domain.length = 3 ∧ suffixes.mem domain.tail) :
    suffixes.Registrable (hostLabels host) domain := by
  have hlabels : ∀ l ∈ domain, IsLabel l :=
    fun l hl => isLabel_of_mem_hostLabels (hdomain.subset hl)
  refine ⟨hdomain, ?_, fun s hs hmem => ?_⟩
  · obtain ⟨htwo, -⟩ | ⟨htwo, -⟩ | ⟨-, htail⟩ := hlen
    · obtain ⟨a, b, rfl⟩ := length_eq_two.1 htwo
      exact suffixes.single b (hlabels b (by simp))
    · obtain ⟨a, b, rfl⟩ := length_eq_two.1 htwo
      exact suffixes.single b (hlabels b (by simp))
    · exact htail
  · obtain hone | ⟨htwo, htable⟩ := h.length_le hs hmem
    · omega
    · -- two suffixes of two labels are the same one
      obtain ⟨hlen, hout⟩ | ⟨hlen, hout⟩ | ⟨hlen, -⟩ := hlen
      · obtain rfl := (suffix_of_suffix_length_le hs hdomain (by omega)).eq_of_length
          (by omega)
        exact absurd htable hout
      · obtain rfl := (suffix_of_suffix_length_le hs hdomain (by omega)).eq_of_length
          (by omega)
        exact absurd hmem hout
      · omega

lemma sameOwner_of_two {host host' : JsString} (hclear : suffixes.Clear host)
    (hclear' : suffixes.Clear host') (h : domain <:+ hostLabels host)
    (h' : domain <:+ hostLabels host') (hlen : domain.length = 2)
    (htable : joinLabels domain ∉ TWO_LEVEL_PUBLIC_SUFFIXES) : suffixes.SameOwner host host' :=
  ⟨domain, hclear.registrable h (.inl ⟨hlen, htable⟩), hclear'.registrable h' (.inl ⟨hlen, htable⟩)⟩

lemma sameOwner_of_three {host host' : JsString} (hclear : suffixes.Clear host)
    (hclear' : suffixes.Clear host') (h : domain <:+ hostLabels host)
    (h' : domain <:+ hostLabels host') (hlen : domain.length = 3) :
    suffixes.SameOwner host host' := by
  by_cases htail : suffixes.mem domain.tail
  · exact ⟨domain, hclear.registrable h (.inr (.inr ⟨hlen, htail⟩)),
      hclear'.registrable h' (.inr (.inr ⟨hlen, htail⟩))⟩
  · have htwo : domain.tail.length = 2 := by rw [length_tail, hlen]
    exact ⟨domain.tail,
      hclear.registrable ((tail_suffix domain).trans h) (.inr (.inl ⟨htwo, htail⟩)),
      hclear'.registrable ((tail_suffix domain).trans h') (.inr (.inl ⟨htwo, htail⟩))⟩

lemma keptLabels_spec (h : 2 < labels.length) :
    (lastLabels (keptLabels labels) labels).length = 2 ∧
        joinLabels (lastLabels (keptLabels labels) labels) ∉ TWO_LEVEL_PUBLIC_SUFFIXES ∨
      (lastLabels (keptLabels labels) labels).length = 3 := by
  unfold keptLabels
  split
  next => exact .inr (length_lastLabels h)
  next hout => exact .inl ⟨length_lastLabels h.le, by simpa using hout⟩

/-- Clear hosts that the check takes for one are equal or have one owner.

**Proof sketch.** A host whose domain is itself has no labels in excess, so it can only share the
domain of a longer host when that is two labels. The kept labels of two longer hosts are the same
labels, since labels are told from their join. -/
lemma sameOwner_of_registrableDomain_eq {host host' : JsString} (hclear : suffixes.Clear host)
    (hclear' : suffixes.Clear host') (heq : registrableDomain host = registrableDomain host') :
    host = host' ∨ suffixes.SameOwner host host' := by
  have hkept : ∀ {h : JsString}, 2 < (hostLabels h).length →
      hostLabels (joinLabels (lastLabels (keptLabels (hostLabels h)) (hostLabels h))) =
        lastLabels (keptLabels (hostLabels h)) (hostLabels h) := by
    intro h hlong
    refine hostLabels_joinLabels
      (fun l hl => isLabel_of_mem_hostLabels ((lastLabels_suffix _ _).subset hl)) fun hnil => ?_
    have hspec := keptLabels_spec hlong
    rw [hnil] at hspec
    simp at hspec
  obtain ⟨hraw, hlen⟩ | ⟨hlong, hdomain⟩ := registrableDomain_cases host
  · obtain ⟨hraw', -⟩ | ⟨hlong', hdomain'⟩ := registrableDomain_cases host'
    · exact .inl (hraw.symm.trans (heq.trans hraw'))
    · right
      -- the first host is the domain of the second
      have hhost : host = joinLabels (lastLabels (keptLabels (hostLabels host')) (hostLabels host')) :=
        hraw.symm.trans (heq.trans hdomain')
      have hlabels := (congrArg hostLabels hhost).trans (hkept hlong')
      obtain ⟨htwo, hout⟩ | hthree := keptLabels_spec hlong'
      · exact sameOwner_of_two hclear hclear' (hlabels ▸ suffix_refl _) (lastLabels_suffix _ _)
          htwo hout
      · rw [hlabels, hthree] at hlen
        omega
  · obtain ⟨hraw', hlen'⟩ | ⟨hlong', hdomain'⟩ := registrableDomain_cases host'
    · right
      have hhost : host' = joinLabels (lastLabels (keptLabels (hostLabels host)) (hostLabels host)) :=
        hraw'.symm.trans (heq.symm.trans hdomain)
      have hlabels := (congrArg hostLabels hhost).trans (hkept hlong)
      obtain ⟨htwo, hout⟩ | hthree := keptLabels_spec hlong
      · exact sameOwner_of_two hclear hclear' (lastLabels_suffix _ _) (hlabels ▸ suffix_refl _)
          htwo hout
      · rw [hlabels, hthree] at hlen'
        omega
    · right
      have hsame := congrArg hostLabels (hdomain.symm.trans (heq.trans hdomain'))
      rw [hkept hlong, hkept hlong'] at hsame
      have hsuffix := lastLabels_suffix (keptLabels (hostLabels host')) (hostLabels host')
      rw [← hsame] at hsuffix
      obtain ⟨htwo, hout⟩ | hthree := keptLabels_spec hlong
      · exact sameOwner_of_two hclear hclear' (lastLabels_suffix _ _) hsuffix htwo hout
      · exact sameOwner_of_three hclear hclear' (lastLabels_suffix _ _) hsuffix hthree

variable {pf : HostPlatform}

lemma releasedToOwner_of_clear {secretRef : HostBoundSecretRef} {liveHost : JsString}
    (hlive : suffixes.Clear (normalizeHost pf liveHost))
    (hhosts : ∀ b ∈ secretRef.hosts, suffixes.Clear (normalizeHost pf b)) :
    ReleasedToOwner pf suffixes secretRef liveHost := by
  intro hok
  unfold assertHostBinding at hok
  split at hok
  next hany =>
    obtain ⟨binding, hmem, hallows⟩ := any_eq_true.1 hany
    simp only [bindingAllows, Bool.or_eq_true, beq_iff_eq] at hallows
    refine ⟨binding, hmem, ?_⟩
    obtain hsame | hdomain := hallows
    · exact .inl hsame
    · exact sameOwner_of_registrableDomain_eq (hhosts binding hmem) hlive hdomain
  next => cases hok

/-! ## Customers of an uncovered suffix -/

def customerHost (customer : String) (s : List JsString) : JsString := joinLabels (units customer :: s)

variable {customer : String}

lemma hostLabels_customerHost (hcustomer : IsLabel (units customer)) (hs : suffixes.Uncovered s) :
    hostLabels (customerHost customer s) = units customer :: s :=
  hostLabels_joinLabels (forall_mem_cons.2 ⟨hcustomer, suffixes.isLabel s hs.1⟩)
    (cons_ne_nil _ _)

lemma keptLabels_le_of_uncovered (hs : suffixes.Uncovered s) :
    keptLabels s ≤ s.length := by
  obtain ⟨-, hlen, hout⟩ := hs
  obtain hlong | hlong := Nat.lt_or_ge 2 s.length
  · exact (keptLabels_le s).2.trans hlong
  · have hall : lastLabels 2 s = s := by
      rw [lastLabels, Nat.sub_eq_zero_of_le hlong, drop_zero]
    rw [keptLabels, hall, if_neg (by simpa using hout)]
    exact hlen

lemma registrableDomain_customerHost (hcustomer : IsLabel (units customer))
    (hletter : (units customer).all isDigit = false) (hs : suffixes.Uncovered s) :
    registrableDomain (customerHost customer s) = joinLabels (lastLabels (keptLabels s) s) := by
  have hlabels := hostLabels_customerHost hcustomer hs
  have hle := keptLabels_le_of_uncovered hs
  obtain ⟨hmem, hlen, -⟩ := hs
  have hhost : customerHost customer s ≠ units "localhost" := by
    intro heq
    rw [heq, show hostLabels (units "localhost") = [units "localhost"] by decide] at hlabels
    rw [← (List.cons.inj hlabels).2] at hlen
    exact absurd hlen (by decide)
  have hip : isIpv4 (customerHost customer s) = false := by
    rw [isIpv4, customerHost, splitOn_joinLabels
      (forall_mem_cons.2 ⟨hcustomer, suffixes.isLabel s hmem⟩) (cons_ne_nil _ _)]
    simp [hletter]
  have hkept : keptLabels (units customer :: s) = keptLabels s := by
    rw [keptLabels, keptLabels, lastLabels_of_suffix (suffix_cons _ _) hlen]
  have hlong : ¬ (units customer :: s).length ≤ 2 := by
    rw [length_cons]
    omega
  rw [registrableDomain, if_neg (by simp [hhost, hip])]
  simp only [hlabels, if_neg hlong]
  rw [← keptLabels, hkept, lastLabels_of_suffix (suffix_cons _ _) hle]

lemma eq_of_registrable_customer (hcustomer : IsLabel (units customer)) {s domain : List JsString}
    (hs : suffixes.Uncovered s)
    (h : suffixes.Registrable (hostLabels (customerHost customer s)) domain) :
    domain = units customer :: s := by
  rw [hostLabels_customerHost hcustomer hs] at h
  have hlt := h.longest s (suffix_cons _ _) hs.1
  have hle := h.suffix.length_le
  rw [length_cons] at hle
  exact h.suffix.eq_of_length (by rw [length_cons]; omega)

/-- The parser leaves the names of two customers of an uncovered suffix as they are. -/
def CustomersNormal (pf : HostPlatform) (suffixes : PublicSuffixes) : Prop :=
  ∀ s, suffixes.Uncovered s → ∀ customer ∈ ["a", "b"],
    normalizeHost pf (customerHost customer s) = customerHost customer s

lemma released_to_other_customer (hnormal : CustomersNormal pf suffixes) (hs : suffixes.Uncovered s)
    (key : JsString) :
    ¬ ReleasedToOwner pf suffixes ⟨key, [customerHost "a" s]⟩ (customerHost "b" s) := by
  have ha : IsLabel (units "a") := by decide
  have hb : IsLabel (units "b") := by decide
  have hna := hnormal s hs "a" (by decide)
  have hnb := hnormal s hs "b" (by decide)
  intro hreleased
  have hok : assertHostBinding pf ⟨key, [customerHost "a" s]⟩ (customerHost "b" s) = .ok () := by
    have hsame : registrableDomain (customerHost "a" s) = registrableDomain (customerHost "b" s) :=
      (registrableDomain_customerHost ha (by decide) hs).trans
        (registrableDomain_customerHost hb (by decide) hs).symm
    simp [assertHostBinding, bindingAllows, hna, hnb, hsame]
  obtain ⟨binding, hmem, howner⟩ := hreleased hok
  rw [mem_singleton] at hmem
  rw [hmem, hna, hnb] at howner
  have hne : units "a" ≠ units "b" := by decide
  obtain heq | ⟨domain, hda, hdb⟩ := howner
  · have hlabels := congrArg hostLabels heq
    rw [hostLabels_customerHost ha hs, hostLabels_customerHost hb hs] at hlabels
    exact hne (List.cons.inj hlabels).1
  · have hdomain := (eq_of_registrable_customer ha hs hda).symm.trans
      (eq_of_registrable_customer hb hs hdb)
    exact hne (List.cons.inj hdomain).1

/-- A secret is released only to an owner of one of its hosts, for all hosts that do not end in a
public suffix of several labels missing from the table; and for all hosts, exactly when the set has
no such suffix. -/
theorem hostBinding_sound_iff (pf : HostPlatform) (suffixes : PublicSuffixes)
    (hnormal : CustomersNormal pf suffixes) :
    (∀ secretRef liveHost, suffixes.Clear (normalizeHost pf liveHost) →
      (∀ b ∈ secretRef.hosts, suffixes.Clear (normalizeHost pf b)) →
      ReleasedToOwner pf suffixes secretRef liveHost) ∧
    ((∀ secretRef liveHost, ReleasedToOwner pf suffixes secretRef liveHost) ↔
      ∀ s, suffixes.mem s → 2 ≤ s.length → joinLabels s ∈ TWO_LEVEL_PUBLIC_SUFFIXES) := by
  refine ⟨fun _ _ hlive hhosts => releasedToOwner_of_clear hlive hhosts, fun hall s hmem hlen => ?_,
    fun htable secretRef liveHost => ?_⟩
  · by_contra hout
    exact released_to_other_customer hnormal ⟨hmem, hlen, hout⟩ [] (hall _ _)
  · have hclear : ∀ host, suffixes.Clear host :=
      fun host s _ hs => hs.2.2 (htable s hs.1 hs.2.1)
    exact releasedToOwner_of_clear (hclear _) fun b _ => hclear _

/-- The parser of URLs that are `https://` and a name in lower case. -/
def plainHostPlatform : HostPlatform where
  hostname url := some (url.drop 8)
  toLowerCase text := text.map toLower

def twoLabelSuffixes : List (List JsString) :=
  [["co", "in"], ["com", "sg"], ["github", "io"], ["co", "uk"]].map (List.map units)

def realSuffixes : PublicSuffixes where
  mem s := s ∈ twoLabelSuffixes ∨ ∃ l, IsLabel l ∧ s = [l]
  isLabel s hs l hl := by
    have htwo : ∀ s ∈ twoLabelSuffixes, ∀ l ∈ s, IsLabel l := by decide
    obtain hs | ⟨l', hl', rfl⟩ := hs
    · exact htwo s hs l hl
    · rwa [List.mem_singleton.1 hl]
  single l hl := .inr ⟨l, hl, rfl⟩

/-- Where there are such public suffixes, the check is not sound. -/
theorem hostBinding_unsound_real :
    CustomersNormal plainHostPlatform realSuffixes ∧
    ¬ ∀ secretRef liveHost, ReleasedToOwner plainHostPlatform realSuffixes secretRef liveHost := by
  have hnormal : CustomersNormal plainHostPlatform realSuffixes := by
    have htwo : ∀ s ∈ twoLabelSuffixes, ∀ customer ∈ ["a", "b"],
        normalizeHost plainHostPlatform (customerHost customer s) = customerHost customer s := by
      decide
    rintro s ⟨hmem, hlen, -⟩
    obtain hmem | ⟨l, -, rfl⟩ := hmem
    · exact htwo s hmem
    · exact absurd hlen (Nat.not_succ_le_self 1)
  refine ⟨hnormal, fun hall => ?_⟩
  have htable := (hostBinding_sound_iff plainHostPlatform realSuffixes hnormal).2.1 hall
    [units "github", units "io"] (.inl (by decide)) (by decide)
  exact absurd htable (by decide)

/-- A password bound to one customer of `co.in` is released to another. -/
theorem password_released_across_coIn :
    ¬ ReleasedToOwner plainHostPlatform realSuffixes
      ⟨units "site.password", [units "safe.co.in"]⟩ (units "evil.co.in") := by
  intro hreleased
  obtain ⟨binding, hmem, howner⟩ := hreleased (by decide)
  rw [List.mem_singleton] at hmem
  subst hmem
  obtain heq | ⟨domain, hsafe, hevil⟩ := howner
  · exact absurd heq (by decide)
  · have hlabels : hostLabels (normalizeHost plainHostPlatform (units "safe.co.in")) =
        [units "safe", units "co", units "in"] := by decide
    have hlabels' : hostLabels (normalizeHost plainHostPlatform (units "evil.co.in")) =
        [units "evil", units "co", units "in"] := by decide
    rw [hlabels] at hsafe
    rw [hlabels'] at hevil
    -- the domain is longer than the suffix, so it is the whole host
    have hlen := hsafe.longest [units "co", units "in"] (List.suffix_cons _ _)
      (.inl (by decide))
    have hfull := hsafe.suffix.eq_of_length (by
      have hle := hsafe.suffix.length_le
      simp only [List.length_cons, List.length_nil] at hle hlen ⊢
      omega)
    have hfull' := hevil.suffix.eq_of_length (by
      have hle := hevil.suffix.length_le
      simp only [List.length_cons, List.length_nil] at hle hlen ⊢
      omega)
    exact absurd (List.cons.inj (hfull.symm.trans hfull')).1 (by decide)

end Yantra
