import Yantra.Commands.Format

/-!
# Commands as PowerShell reads them

PowerShell takes four typographic marks for single quotes, and `quotePowerShell` doubles only the
plain one. Without the marks a line gives its words back. With one of them a quotation mark gets
lost, whatever else the line comes to: two marks of a line make at most one of a word.

## Main definitions

* `psRaw` — an argument as PowerShell passes it to a program.
* `PsLexer.weight` — the marks that PowerShell has read, with those that are lost.

## Main results

* `formatInvocation_runsAsShown_iff` — when a line runs as it is shown.
-/

namespace Yantra

open CodePoints List Option PsLexer

/-! ## Lines without typographic marks -/

/-- An argument as PowerShell passes it to a program. -/
def psRaw (token : Token) : Token :=
  if POWERSHELL_BARE token ∧ token ≠ ofString "--" then token
  else [34] ++ escapeMsvcrt token true ++ [34]

variable (token : Token)

lemma quotePowerShell_eq :
    quotePowerShell token =
      if POWERSHELL_BARE token ∧ token ≠ ofString "--" then token
      else [39] ++ doubleQuotes (psRaw token) ++ [39] := by
  unfold quotePowerShell psRaw
  split_ifs with hempty hbare hbare
  · subst hempty
    exact absurd hbare.1 (by decide)
  · subst hempty
    decide
  · rfl
  · rfl

/-- A code point of a bare word. -/
def isBare (c : ℕ) : Bool := isLetterOrDigit c || oneOf "_./:=+-" c

lemma isBare_spec {c : ℕ} (h : isBare c) :
    c ≠ 34 ∧ c ≠ 32 ∧ c ≠ 9 ∧ c ≠ 38 ∧ isSpace c = false ∧ isSingleQuote c = false ∧
      isBareForbidden c = false := by
  have hall : ∀ c < 128, isBare c →
      c ≠ 34 ∧ c ≠ 32 ∧ c ≠ 9 ∧ c ≠ 38 ∧ isSpace c = false ∧ isSingleQuote c = false ∧
        isBareForbidden c = false := by
    decide
  refine hall c ?_ h
  simp only [isBare, isLetterOrDigit, isLetter, isDigit, oneOf, Bool.or_eq_true, decide_eq_true_eq,
    contains_eq_mem] at h
  rcases h with h | h
  · omega
  · have hlt : ∀ d ∈ ofString "_./:=+-", d < 128 := by decide
    exact hlt c h

lemma isBare_of_isFlagName {name : Token} (h : isFlagName name) :
    name ≠ [] ∧ ∀ c ∈ name, isBare c := by
  cases name with
  | nil => exact nomatch h
  | cons c cs =>
    rw [isFlagName, Bool.and_eq_true, List.all_eq_true] at h
    refine ⟨cons_ne_nil _ _, forall_mem_cons.2 ⟨?_, fun d hd => ?_⟩⟩
    · simp [isBare, isLetterOrDigit, h.1]
    · have hd' := h.2 d hd
      rw [Bool.or_eq_true, beq_iff_eq] at hd'
      rcases hd' with hd' | rfl
      · simp [isBare, hd']
      · decide

lemma isBare_of_powershellBare {token : Token} (h : POWERSHELL_BARE token) :
    token ≠ [] ∧ ∀ c ∈ token, isBare c := by
  have hdash : isBare 45 = true := by decide
  unfold POWERSHELL_BARE at h
  rw [Bool.or_eq_true] at h
  rcases h with h | h
  · split at h
    · obtain ⟨-, hname⟩ := isBare_of_isFlagName h
      exact ⟨cons_ne_nil _ _, forall_mem_cons.2
        ⟨hdash, forall_mem_cons.2 ⟨hdash, hname⟩⟩⟩
    · obtain ⟨-, hname⟩ := isBare_of_isFlagName h
      exact ⟨cons_ne_nil _ _, forall_mem_cons.2 ⟨hdash, hname⟩⟩
    · exact nomatch h
  · cases token with
    | nil => exact nomatch h
    | cons c cs =>
      rw [Bool.and_eq_true, List.all_eq_true] at h
      refine ⟨cons_ne_nil _ _, forall_mem_cons.2 ⟨?_, h.2⟩⟩
      have hfirst := h.1
      rw [Bool.or_eq_true, beq_iff_eq] at hfirst
      rcases hfirst with hfirst | rfl
      · simp [isBare, hfirst]
      · decide

lemma ps_run_bare {values : List Token} {word text : Token} (h : ∀ c ∈ text, isBare c) :
    text.foldlM step ⟨values, .bare word⟩ = some ⟨values, .bare (word ++ text)⟩ := by
  induction text generalizing word with
  | nil => simp
  | cons c text ih =>
    obtain ⟨hc, htext⟩ := forall_mem_cons.1 h
    obtain ⟨-, hblank, -, -, -, -, hforbidden⟩ := isBare_spec hc
    have hstep : step ⟨values, .bare word⟩ c = some ⟨values, .bare (word ++ [c])⟩ := by
      simp [step, hblank, hforbidden]
    rw [foldlM_cons, hstep, bind_eq_bind, bind_some, ih htext]
    simp

lemma ps_run_bare_gap {values : List Token} {token : Token} (h : POWERSHELL_BARE token) :
    token.foldlM step ⟨values, .gap⟩ = some ⟨values, .bare token⟩ := by
  obtain ⟨hne, hbare⟩ := isBare_of_powershellBare h
  obtain ⟨c, text, rfl⟩ := exists_cons_of_ne_nil hne
  obtain ⟨hc, htext⟩ := forall_mem_cons.1 hbare
  obtain ⟨-, hblank, -, -, -, hquote, hforbidden⟩ := isBare_spec hc
  have hstep : step ⟨values, .gap⟩ c = some ⟨values, .bare [c]⟩ := by
    simp [step, hblank, hquote, hforbidden]
  rw [foldlM_cons, hstep, bind_eq_bind, bind_some, ps_run_bare htext,
    singleton_append]

lemma ps_run_literal {values : List Token} {word text : Token}
    (h : ∀ c ∈ text, isTypographicQuote c = false) :
    (doubleQuotes text).foldlM step ⟨values, .literal word⟩ =
      some ⟨values, .literal (word ++ text)⟩ := by
  induction text generalizing word with
  | nil => simp [doubleQuotes]
  | cons c text ih =>
    obtain ⟨hc, htext⟩ := forall_mem_cons.1 h
    have hstep : (if c = 39 then [39, 39] else [c]).foldlM step ⟨values, .literal word⟩ =
        some ⟨values, .literal (word ++ [c])⟩ := by
      split_ifs with hplain
      · subst hplain
        simp [step, isSingleQuote]
      · simp [step, isSingleQuote, hc, hplain]
    have hrest := @ih (word ++ [c]) htext
    rw [doubleQuotes] at hrest ⊢
    rw [flatMap_cons, foldlM_append, hstep, bind_eq_bind, bind_some, hrest,
      append_assoc, singleton_append]

lemma ps_run_literal_gap {values : List Token} {text : Token}
    (h : ∀ c ∈ text, isTypographicQuote c = false) :
    ([39] ++ doubleQuotes text ++ [39]).foldlM step ⟨values, .gap⟩ =
      some ⟨values, .closed text⟩ := by
  have hopen : [39].foldlM step ⟨values, .gap⟩ = some ⟨values, .literal []⟩ := by
    simp [step, isSingleQuote]
  have hclose : [39].foldlM step ⟨values, .literal text⟩ = some ⟨values, .closed text⟩ := by
    simp [step, isSingleQuote]
  rw [foldlM_append, foldlM_append, hopen]
  simp only [bind_eq_bind, bind_some]
  rw [ps_run_literal h, bind_some, nil_append, hclose]

lemma psRaw_spec {token : Token} (h : ∀ c ∈ token, isTypographicQuote c = false) :
    ∀ c ∈ psRaw token, isTypographicQuote c = false := by
  intro c hc
  unfold psRaw at hc
  split_ifs at hc
  · exact h c hc
  · simp only [mem_append, mem_singleton] at hc
    obtain (rfl | hc) | rfl := hc
    · decide
    · rcases mem_escapeMsvcrtFrom hc with rfl | hc
      · decide
      · exact h c hc
    · decide

lemma readsWord_quotePowerShell {token : Token} (h : ∀ c ∈ token, isTypographicQuote c = false) :
    Words.ReadsWord step finish (⟨·, .gap⟩) 32 (quotePowerShell token)
      (psRaw token) := by
  intro values
  rw [quotePowerShell_eq]
  split_ifs with hbare
  · have hraw : psRaw token = token := if_pos hbare
    have hdashes : token ≠ [45, 45] := hbare.2
    refine ⟨_, ps_run_bare_gap hbare.1, ?_, ?_⟩
    · simp [step, hraw, hdashes]
    · simp [finish, hraw, hdashes]
  · refine ⟨_, ps_run_literal_gap (psRaw_spec h), ?_, ?_⟩
    · simp [step, isSingleQuote, isTypographicQuote]
    · simp [finish]

/-- The command of a line, as it is typed. -/
def psCommand (command : Token) : Token :=
  if POWERSHELL_BARE command then command else [39] ++ doubleQuotes command ++ [39]

lemma tokenizePowerShellValues_powerShellLine (program tokens : List Token) :
    tokenizePowerShellValues (powerShellLine program tokens) =
      ((psCommand (program.headD (ofString "yantra")) ++
        (program.tail ++ tokens).flatMap fun t => 32 :: quotePowerShell t).foldlM
        step {}).bind finish := by
  unfold powerShellLine psCommand
  dsimp only
  generalize program.headD (ofString "yantra") = command
  split_ifs with hbare
  · obtain ⟨hne, hall⟩ := isBare_of_powershellBare hbare
    obtain ⟨c, text, rfl⟩ := exists_cons_of_ne_nil hne
    have hamp : c ≠ 38 := (isBare_spec (hall c mem_cons_self)).2.2.2.1
    rw [singleton_append, joinTokens, Words.intercalate_cons_eq_append_flatMap,
      flatMap_map, cons_append]
    unfold tokenizePowerShellValues
    split
    next rest heq => exact absurd (List.cons.inj heq).1 hamp
    next => rfl
  · rw [joinTokens, cons_append, singleton_append,
      Words.intercalate_cons_eq_append_flatMap, flatMap_cons, flatMap_map]
    rfl

lemma readsWord_psCommand {command : Token} (h : ∀ c ∈ command, isTypographicQuote c = false) :
    Words.ReadsWord step finish (⟨·, .gap⟩) 32 (psCommand command) command := by
  intro values
  unfold psCommand
  split_ifs with hbare
  · have hdashes : command ≠ [45, 45] := by
      rintro rfl
      exact absurd hbare (by decide)
    refine ⟨_, ps_run_bare_gap hbare, ?_, ?_⟩
    · simp [step, hdashes]
    · simp [finish, hdashes]
  · refine ⟨_, ps_run_literal_gap h, ?_, ?_⟩
    · simp [step, isSingleQuote, isTypographicQuote]
    · simp [finish]

lemma needsQuotesFrom_escape (backslashes : ℕ) (value : Token) (after : Bool) :
    needsQuotesFrom after 1 (escapeMsvcrtFrom true backslashes value ++ [34]) = false := by
  have hback : ∀ n after rest, needsQuotesFrom after 1 (replicate n 92 ++ rest) =
      needsQuotesFrom (after && n == 0 || n != 0) 1 rest := by
    intro n
    induction n with
    | zero => intro after rest; simp
    | succ n ih =>
      intro after rest
      rw [replicate_succ, cons_append, needsQuotesFrom, if_neg (by simp),
        if_neg (by simp), ih]
      cases n <;> simp
  induction value generalizing backslashes after with
  | nil =>
    rw [escapeMsvcrtFrom, if_pos rfl, hback]
    simp [needsQuotesFrom, isSpace]
  | cons c value ih =>
    rw [escapeMsvcrtFrom]
    split_ifs with h92 h34
    · exact ih _ _
    · rw [append_assoc, append_assoc, hback, singleton_append, needsQuotesFrom]
      simpa [isSpace] using ih 0 false
    · rw [append_assoc, append_assoc, hback, singleton_append, needsQuotesFrom,
        if_neg (by simp [h34]), if_neg (by simp)]
      exact ih _ _

lemma needsQuotes_psRaw : needsQuotes (psRaw token) = false := by
  unfold psRaw
  split_ifs with hbare
  · have hplain : ∀ text : Token, (∀ c ∈ text, isBare c) → ∀ after,
        needsQuotesFrom after 0 text = false := by
      intro text
      induction text with
      | nil => intro _ _; rfl
      | cons c text ih =>
        intro h after
        obtain ⟨hc, htext⟩ := forall_mem_cons.1 h
        obtain ⟨hquote, -, -, -, hspace, -, -⟩ := isBare_spec hc
        rw [needsQuotesFrom, if_neg (by simp [hquote]), if_neg (by simp [hspace]), ih htext]
    exact hplain token (isBare_of_powershellBare hbare.1).2 false
  · rw [needsQuotes, append_assoc, singleton_append, needsQuotesFrom, if_pos (by decide)]
    exact needsQuotesFrom_escape 0 token false

lemma isMsvcrtWord_psRaw : IsMsvcrtWord (psRaw token) token := by
  unfold psRaw
  split_ifs with hbare
  · obtain ⟨hne, hall⟩ := isBare_of_powershellBare hbare.1
    refine .inl ⟨rfl, hne, fun c hc => ?_⟩
    obtain ⟨hquote, hblank, htab, -⟩ := isBare_spec (hall c hc)
    exact ⟨hquote, hblank, htab⟩
  · exact .inr rfl

lemma parseMsvcrt_powerShellNativeLine (tokens : List Token) :
    parseMsvcrt (powerShellNativeLine (tokens.map psRaw)) = tokens := by
  have hne : ∀ token, psRaw token ≠ [] := fun token => by
    rcases isMsvcrtWord_psRaw token with ⟨heq, hne, -⟩ | heq
    · rwa [heq]
    · simp [heq]
  have hline : powerShellNativeLine (tokens.map psRaw) = joinTokens (tokens.map psRaw) := by
    have hall : (tokens.map psRaw).filter (fun value => !value.isEmpty) = tokens.map psRaw :=
      filter_eq_self.2 fun value hvalue => by
        obtain ⟨token, -, rfl⟩ := List.mem_map.1 hvalue
        simpa using hne token
    rw [powerShellNativeLine, hall, List.map_map, joinTokens]
    congr 1
    refine map_congr_left fun token _ => ?_
    simp [needsQuotes_psRaw]
  rw [hline]
  exact parseMsvcrt_words fun token _ => isMsvcrtWord_psRaw token

/-- **Without typographic marks PowerShell gives the words of a line back.** -/
theorem tokenizePowerShell_powerShellLine {program tokens : List Token}
    (h : ∀ t ∈ program ++ tokens, ∀ c ∈ t, isTypographicQuote c = false) :
    tokenizePowerShell (powerShellLine program tokens) =
      some (program.headD (ofString "yantra") :: (program.tail ++ tokens)) := by
  have hcommand : ∀ c ∈ program.headD (ofString "yantra"), isTypographicQuote c = false := by
    cases program with
    | nil => decide
    | cons command program => exact h command mem_cons_self
  have hargs : ∀ t ∈ program.tail ++ tokens, ∀ c ∈ t, isTypographicQuote c = false := by
    intro t ht
    rw [mem_append] at ht
    exact h t (mem_append.2 (ht.imp_left mem_of_mem_tail))
  obtain ⟨s, hrun, hsep, hfinish⟩ := readsWord_psCommand hcommand []
  have hrun' : (psCommand (program.headD (ofString "yantra"))).foldlM step {} = some s :=
    hrun
  rw [tokenizePowerShell, tokenizePowerShellValues_powerShellLine, foldlM_append, hrun',
    bind_eq_bind, bind_some,
    Words.read_rest (fun t ht => readsWord_quotePowerShell (hargs t ht)) hsep hfinish,
    map_some, nil_append, singleton_append]
  dsimp only
  rw [parseMsvcrt_powerShellNativeLine]

/-! ## Lines with typographic marks -/

/-- The marks of a word that is begun, and those that are lost on it. -/
def PsMode.weight : PsMode → ℕ
  | .gap => 0
  | .bare word => 2 * word.countP isSingleQuote
  | .literal word => 2 * word.countP isSingleQuote + 1
  | .closed word => 2 * word.countP isSingleQuote + 2

def marksOf (values : List Token) : ℕ := 2 * values.flatten.countP isSingleQuote

/-- The marks that PowerShell has read, with those that are lost. -/
def PsLexer.weight (s : PsLexer) : ℕ := marksOf s.values + s.mode.weight

@[simp] lemma marksOf_append (values values' : List Token) :
    marksOf (values ++ values') = marksOf values + marksOf values' := by
  simp only [marksOf, flatten_append, countP_append]
  omega

@[simp] lemma marksOf_singleton (word : Token) :
    marksOf [word] = 2 * word.countP isSingleQuote := by
  simp [marksOf]

lemma ps_step_weight {s s' : PsLexer} {c : ℕ} (h : s.step c = some s') :
    s'.weight ≤ s.weight + if isSingleQuote c then 1 else 0 := by
  obtain ⟨values, mode⟩ := s
  cases mode with
  | gap =>
    simp only [step] at h
    split_ifs at h with hblank hquote hforbidden <;> cases h
    · simp
    · simp [weight, PsMode.weight, hquote]
    · simp [weight, PsMode.weight, hquote]
  | bare word =>
    simp only [step] at h
    split_ifs at h with hblank hdashes hforbidden <;> cases h
    · simp [weight, PsMode.weight]
    · have hquote : isSingleQuote c = false := by
        simp only [isBareForbidden, Bool.or_eq_true, not_or, Bool.not_eq_true] at hforbidden
        exact hforbidden.1.2
      simp [weight, PsMode.weight, countP_append, hquote]
  | literal word =>
    simp only [step, some.injEq] at h
    subst h
    split_ifs with hquote
    · simp [weight, PsMode.weight]
      omega
    · simp [weight, PsMode.weight, countP_append, hquote]
  | closed word =>
    simp only [step] at h
    split_ifs at h with hquote hblank <;> cases h
    · simp [weight, PsMode.weight, countP_append, hquote]
      omega
    · simp [weight, PsMode.weight]
      omega

/-- **Two marks of a line make at most one of the values.** -/
theorem ps_run_weight {text : Token} {s s' : PsLexer} (h : text.foldlM step s = some s') :
    s'.weight ≤ s.weight + text.countP isSingleQuote := by
  induction text generalizing s with
  | nil =>
    cases h
    simp
  | cons c text ih =>
    rw [foldlM_cons, bind_eq_bind, bind_eq_some_iff] at h
    obtain ⟨s₁, hstep, hrun⟩ := h
    have hone := ps_step_weight hstep
    have hrest := ih hrun
    rw [countP_cons]
    omega

lemma countP_doubleQuotes (text : Token) :
    (doubleQuotes text).countP isSingleQuote + text.countP isTypographicQuote =
      2 * text.countP isSingleQuote := by
  induction text with
  | nil => rfl
  | cons c text ih =>
    have hcons : doubleQuotes (c :: text) = (if c = 39 then [39, 39] else [c]) ++ doubleQuotes text :=
      flatMap_cons
    rw [hcons, countP_append, countP_cons, countP_cons]
    by_cases hplain : c = 39
    · subst hplain
      have htypo : isTypographicQuote 39 = false := by decide
      have hquote : isSingleQuote 39 = true := by decide
      simp only [↓reduceIte, countP_cons, countP_nil, htypo, hquote, Bool.false_eq_true]
      omega
    · have hquote : isSingleQuote c = isTypographicQuote c := by simp [isSingleQuote, hplain]
      rw [if_neg hplain, countP_singleton, hquote]
      split_ifs <;> omega

lemma countP_escapeMsvcrtFrom {p : ℕ → Bool} (hback : p 92 = false) (wrapped : Bool)
    (backslashes : ℕ) (value : Token) :
    (escapeMsvcrtFrom wrapped backslashes value).countP p = value.countP p := by
  have hcount : ∀ n, (replicate n 92).countP p = 0 := fun n =>
    countP_eq_zero.2 fun c hc => by rw [eq_of_mem_replicate hc, hback]; decide
  induction value generalizing backslashes with
  | nil => exact hcount _
  | cons c value ih =>
    rw [escapeMsvcrtFrom]
    split_ifs with h92 h34
    · rw [ih, countP_cons, h92, hback]
      simp
    · simp only [countP_append, hcount, ih, countP_cons, countP_nil, h34]
      rw [Nat.zero_add, Nat.zero_add, Nat.add_comm]
    · simp only [countP_append, hcount, ih, countP_cons, countP_nil]
      rw [Nat.zero_add, Nat.zero_add, Nat.add_comm]

lemma countP_psRaw {p : ℕ → Bool} (hquote : p 34 = false) (hback : p 92 = false) (token : Token) :
    (psRaw token).countP p = token.countP p := by
  unfold psRaw
  split_ifs
  · rfl
  · rw [countP_append, countP_append, countP_singleton, hquote, escapeMsvcrt,
      countP_escapeMsvcrtFrom hback]
    simp

lemma countP_of_powershellBare {token : Token} (h : POWERSHELL_BARE token) :
    token.countP isSingleQuote = 0 :=
  countP_eq_zero.2 fun c hc => by
    have hquote := (isBare_spec ((isBare_of_powershellBare h).2 c hc)).2.2.2.2.2.1
    simp [hquote]

lemma ps_run_closes {text : Token} {s s' : PsLexer}
    (h : (text ++ [34, 39]).foldlM step s = some s') :
    ∃ values word, s' = ⟨values, .closed word⟩ := by
  rw [foldlM_append, bind_eq_bind, bind_eq_some_iff] at h
  obtain ⟨⟨values, mode⟩, -, hrun⟩ := h
  rw [foldlM_cons, bind_eq_bind, bind_eq_some_iff] at hrun
  obtain ⟨s₁, hquote, hlast⟩ := hrun
  have hnot : isSingleQuote 34 = false := by decide
  have hforbidden : isBareForbidden 34 = true := by decide
  have hmark : isSingleQuote 39 = true := by decide
  -- Only a literal goes on with a double quote.
  cases mode with
  | gap => simp [step, hnot, hforbidden] at hquote
  | bare word => simp [step, hforbidden] at hquote
  | closed word => simp [step, hnot] at hquote
  | literal word =>
    simp only [step, hnot, Bool.false_eq_true, ↓reduceIte, some.injEq] at hquote
    subst hquote
    simp [step, hmark] at hlast
    exact ⟨values, word ++ [34], hlast.symm⟩

lemma gainsAtMost_quotePowerShell :
    Words.GainsAtMost step finish (⟨·, .gap⟩) 32 marksOf (quotePowerShell token)
      ((doubleQuotes token).countP isSingleQuote) := by
  intro values s hrun
  rw [quotePowerShell_eq] at hrun
  split_ifs at hrun with hbare
  · rw [ps_run_bare_gap hbare.1] at hrun
    cases hrun
    have hdashes : token ≠ [45, 45] := hbare.2
    refine ⟨values ++ [token], ?_, ?_, ?_⟩
    · simp [step, hdashes]
    · simp [finish, hdashes]
    · rw [marksOf_append, marksOf_singleton, countP_of_powershellBare hbare.1]
      omega
  · have hweight := ps_run_weight hrun
    have hcode : ∃ text, [39] ++ doubleQuotes (psRaw token) ++ [39] = text ++ [34, 39] := by
      refine ⟨[39, 34] ++ doubleQuotes (escapeMsvcrt token true), ?_⟩
      rw [psRaw, if_neg hbare]
      simp [doubleQuotes]
    obtain ⟨text, htext⟩ := hcode
    rw [htext] at hrun
    obtain ⟨values', word, rfl⟩ := ps_run_closes hrun
    refine ⟨values' ++ [word], ?_, rfl, ?_⟩
    · simp [step, isSingleQuote, isTypographicQuote]
    · have hraw := countP_doubleQuotes (psRaw token)
      have htoken := countP_doubleQuotes token
      rw [countP_psRaw (by decide) (by decide), countP_psRaw (by decide) (by decide)] at hraw
      have hmark : isSingleQuote 39 = true := by decide
      simp only [countP_append, countP_singleton, hmark, ↓reduceIte, weight,
        PsMode.weight] at hweight
      rw [marksOf_append, marksOf_singleton]
      omega

lemma ps_run_open {tokens : List Token} {values : List Token} {word : Token} {s : PsLexer}
    (h : (tokens.flatMap fun t => 32 :: quotePowerShell t).foldlM step
      ⟨values, .literal word⟩ = some s) : s.finish = none := by
  induction tokens generalizing word with
  | nil =>
    cases h
    rfl
  | cons token tokens ih =>
    have hblank : step ⟨values, .literal word⟩ 32 =
        some ⟨values, .literal (word ++ [32])⟩ := by
      simp [step, isSingleQuote, isTypographicQuote]
    rw [flatMap_cons, cons_append, foldlM_cons, hblank, bind_eq_bind,
      bind_some, foldlM_append, bind_eq_bind, bind_eq_some_iff] at h
    obtain ⟨s₁, hrun, hrest⟩ := h
    rw [quotePowerShell_eq] at hrun
    split_ifs at hrun with hbare
    · -- A bare word stays in the literal.
      have hno : doubleQuotes token = token ∧ ∀ c ∈ token, isTypographicQuote c = false := by
        have hmarks := countP_eq_zero.1 (countP_of_powershellBare hbare.1)
        simp only [isSingleQuote, Bool.or_eq_true, beq_iff_eq, not_or, Bool.not_eq_true] at hmarks
        refine ⟨?_, fun c hc => (hmarks c hc).2⟩
        rw [doubleQuotes, flatMap_congr fun c hc => if_neg (hmarks c hc).1]
        simp
      have hin := @ps_run_literal values (word ++ [32]) token hno.2
      rw [hno.1, hrun] at hin
      cases hin
      exact ih hrest
    · -- The quote of an argument closes the literal, and no double quote may follow.
      have hstop : ∀ text, ([39] ++ (34 :: text)).foldlM step
          ⟨values, .literal (word ++ [32])⟩ = none := fun text => by
        simp [step, isSingleQuote, isTypographicQuote]
      have hcode : ∃ text, [39] ++ doubleQuotes (psRaw token) ++ [39] = [39] ++ (34 :: text) := by
        refine ⟨doubleQuotes (escapeMsvcrt token true) ++ [34, 39], ?_⟩
        rw [psRaw, if_neg hbare]
        simp [doubleQuotes]
      obtain ⟨text, htext⟩ := hcode
      rw [htext, hstop] at hrun
      exact nomatch hrun

lemma ps_run_psCommand {command : Token} {s : PsLexer}
    (h : (psCommand command).foldlM step {} = some s) :
    (∃ values word, s = ⟨values, .literal word⟩) ∨
      ∃ values, step s 32 = some ⟨values, .gap⟩ ∧ s.finish = some values ∧
        marksOf values ≤ (doubleQuotes command).countP isSingleQuote := by
  unfold psCommand at h
  split_ifs at h with hbare
  · have hrun := @ps_run_bare_gap [] command hbare
    have hs := hrun.symm.trans h
    cases hs
    have hdashes : command ≠ [45, 45] := by
      rintro rfl
      exact absurd hbare (by decide)
    refine .inr ⟨[command], ?_, ?_, ?_⟩
    · simp [step, hdashes]
    · simp [finish, hdashes]
    · rw [marksOf_singleton, countP_of_powershellBare hbare]
      omega
  · have hweight := ps_run_weight h
    have hmark : isSingleQuote 39 = true := by decide
    simp only [countP_append, countP_singleton, hmark, ↓reduceIte] at hweight
    rw [foldlM_append, bind_eq_bind, bind_eq_some_iff] at h
    obtain ⟨⟨values, mode⟩, -, hlast⟩ := h
    cases mode with
    | gap =>
      simp [step, hmark] at hlast
      exact .inl ⟨values, [], hlast.symm⟩
    | bare word =>
      have hforbidden : isBareForbidden 39 = true := by decide
      simp [step, hforbidden] at hlast
    | literal word =>
      simp [step, hmark] at hlast
      subst hlast
      refine .inr ⟨values ++ [word], ?_, rfl, ?_⟩
      · simp [step, isSingleQuote, isTypographicQuote]
      · have hempty : weight {} = 0 := rfl
        rw [hempty] at hweight
        simp only [weight, PsMode.weight] at hweight
        rw [marksOf_append, marksOf_singleton]
        omega
    | closed word =>
      simp [step, hmark] at hlast
      exact .inl ⟨values, word ++ [39], hlast.symm⟩

lemma marksOf_tokenizePowerShellValues {program tokens values : List Token}
    (h : tokenizePowerShellValues (powerShellLine program tokens) = some values) :
    marksOf values ≤ (doubleQuotes (program ++ tokens).flatten).countP isSingleQuote := by
  rw [tokenizePowerShellValues_powerShellLine, foldlM_append, bind_eq_bind,
    bind_assoc, bind_eq_some_iff] at h
  obtain ⟨s, hcommand, hrest⟩ := h
  have hsum : ∀ ts : List Token,
      ts.foldr (fun t n => (doubleQuotes t).countP isSingleQuote + n) 0 =
        (doubleQuotes ts.flatten).countP isSingleQuote := by
    intro ts
    induction ts with
    | nil => rfl
    | cons t ts ih =>
      rw [foldr_cons, ih, flatten_cons, doubleQuotes, doubleQuotes, doubleQuotes,
        flatMap_append, countP_append]
  rcases ps_run_psCommand hcommand with ⟨values', word, rfl⟩ | ⟨values', hsep, hfinish, hle⟩
  · rw [bind_eq_some_iff] at hrest
    obtain ⟨s', hrun, hend⟩ := hrest
    rw [ps_run_open hrun] at hend
    exact nomatch hend
  · have hgain := Words.read_le (fun t _ => gainsAtMost_quotePowerShell t) hsep hfinish hrest
    rw [hsum] at hgain
    cases program with
    | nil =>
      have hnone : (doubleQuotes (ofString "yantra")).countP isSingleQuote = 0 := by decide
      have hle' : marksOf values' ≤ (doubleQuotes (ofString "yantra")).countP isSingleQuote := hle
      have hgain' : marksOf values ≤
          marksOf values' + (doubleQuotes tokens.flatten).countP isSingleQuote := hgain
      have hgoal : marksOf values ≤ (doubleQuotes tokens.flatten).countP isSingleQuote := by omega
      exact hgoal
    | cons command program =>
      have hle' : marksOf values' ≤ (doubleQuotes command).countP isSingleQuote := hle
      have hsplit : doubleQuotes ((command :: program) ++ tokens).flatten =
          doubleQuotes command ++ doubleQuotes (program ++ tokens).flatten := by
        rw [cons_append, flatten_cons, doubleQuotes, flatMap_append]
        rfl
      rw [hsplit, countP_append]
      have hgain' : marksOf values ≤
          marksOf values' + (doubleQuotes (program ++ tokens).flatten).countP isSingleQuote := hgain
      omega

lemma countP_powerShellNativeLine (values : List Token) :
    (powerShellNativeLine values).countP isSingleQuote = values.flatten.countP isSingleQuote := by
  have hjoin : ∀ ts : List Token,
      ([32].intercalate ts).countP isSingleQuote = ts.flatten.countP isSingleQuote := by
    intro ts
    induction ts with
    | nil => rfl
    | cons t ts ih =>
      cases ts with
      | nil => simp
      | cons t' ts =>
        have hblank : isSingleQuote 32 = false := by decide
        rw [intercalate_cons_cons, countP_append, countP_append, ih,
          flatten_cons, countP_append, countP_singleton, hblank]
        simp
  rw [powerShellNativeLine, hjoin]
  induction values with
  | nil => rfl
  | cons value values ih =>
    rw [flatten_cons, countP_append, ← ih, filter_cons]
    have hquote : isSingleQuote 34 = false := by decide
    cases value with
    | nil => simp
    | cons c value =>
      simp only [isEmpty_cons, Bool.not_false, ↓reduceIte, map_cons, flatten_cons,
        countP_append, Nat.add_right_cancel_iff]
      split_ifs
      · rw [countP_append, countP_append, countP_singleton, hquote]
        simp
      · rfl

/-- **With a typographic mark, a mark of the words is lost.** -/
theorem quoteMarks_lt_of_tokenizePowerShell {program tokens words : List Token}
    (h : tokenizePowerShell (powerShellLine program tokens) = some words)
    (htypo : ∃ t ∈ program ++ tokens, ∃ c ∈ t, isTypographicQuote c) :
    words.flatten.countP isSingleQuote < (program ++ tokens).flatten.countP isSingleQuote := by
  rw [tokenizePowerShell, map_eq_some_iff] at h
  obtain ⟨values, hvalues, rfl⟩ := h
  have hle := marksOf_tokenizePowerShellValues hvalues
  have hdouble := countP_doubleQuotes (program ++ tokens).flatten
  have hpos : 0 < (program ++ tokens).flatten.countP isTypographicQuote := by
    obtain ⟨t, ht, c, hc, hmark⟩ := htypo
    exact countP_pos_iff.2 ⟨c, mem_flatten.2 ⟨t, ht, hc⟩, hmark⟩
  cases values with
  | nil =>
    rw [flatten_nil, countP_nil]
    omega
  | cons command args =>
    have hparse := countP_parseMsvcrt (p := isSingleQuote) (fun c hc => by
      simp only [isSingleQuote, isTypographicQuote, Bool.or_eq_true, beq_iff_eq,
        decide_eq_true_eq] at hc
      omega) (powerShellNativeLine args)
    rw [countP_powerShellNativeLine] at hparse
    rw [marksOf, flatten_cons, countP_append] at hle
    rw [flatten_cons, countP_append, hparse]
    omega

/-! ## Lines -/

/-- **When a line runs as it is shown**: in PowerShell it does where no word has a typographic
quotation mark. -/
theorem formatInvocation_runsAsShown_iff (secret : Option String) (invocation : CommandInvocation)
    (shell : Shell) (options : FormatProgram) :
    RunsAsShown secret invocation shell options ↔
      secret.isSome ∨ shell ≠ .powershell ∨
        options.tokens ≠ [] ∧
          ∀ t ∈ options.tokens ++ (invocation.path ++ invocation.argv), ∀ c ∈ t,
            isTypographicQuote c = false := by
  unfold RunsAsShown formatInvocation
  cases secret with
  | some detail => simp
  | none =>
    dsimp only
    generalize options.tokens = program
    generalize invocation.path ++ invocation.argv = tokens
    cases shell with
    | posix =>
      refine iff_of_true (fun text htext => ?_) (.inr (.inl (by decide)))
      cases htext
      exact tokenizePosix_quotePosix (program ++ tokens)
    | cmd =>
      refine iff_of_true (fun text htext => ?_) (.inr (.inl (by decide)))
      cases hproblem : firstCmdProblem 0 (program ++ tokens) with
      | some found =>
        rw [hproblem] at htext
        exact nomatch htext
      | none =>
        rw [hproblem] at htext
        cases htext
        exact tokenizeCmd_quoteCmd (firstCmdProblem_eq_none_iff.1 hproblem)
    | powershell =>
      simp only [FormatResult.ok.injEq, forall_eq', Shell.split, Option.isSome_none,
        Bool.false_eq_true, ne_eq, not_true_eq_false, false_or]
      constructor
      · intro hwords
        by_contra hnot
        by_cases hall : ∀ t ∈ program ++ tokens, ∀ c ∈ t, isTypographicQuote c = false
        · -- Without a program the line still begins with a command.
          have hempty : program = [] := by
            by_contra hne
            exact hnot ⟨hne, hall⟩
          rw [tokenizePowerShell_powerShellLine hall, hempty] at hwords
          have hlength := congrArg List.length (Option.some.inj hwords)
          simp at hlength
        · push Not at hall
          obtain ⟨t, ht, c, hc, hmark⟩ := hall
          have hlt := quoteMarks_lt_of_tokenizePowerShell hwords
            ⟨t, ht, c, hc, by simpa using hmark⟩
          exact Nat.lt_irrefl _ hlt
      · rintro ⟨hne, hall⟩
        rw [tokenizePowerShell_powerShellLine hall]
        obtain ⟨command, program, rfl⟩ := List.exists_cons_of_ne_nil hne
        rfl

/-- A goal with a typographic apostrophe: PowerShell does not find the end of the literal. -/
theorem powerShell_typographic_apostrophe :
    ¬ RunsAsShown none ⟨[ofString "research"], [ofString "--goal", ofString "what it’s worth"]⟩
      .powershell .unset := by
  intro h
  have hsplit := h _ rfl
  exact absurd hsplit (by decide)

end Yantra
