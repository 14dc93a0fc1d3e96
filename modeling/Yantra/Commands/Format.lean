import Yantra.Commands.Shells
import Yantra.Lib.Words

/-!
# Commands as they are shown

`formatInvocation` writes a program and its arguments as one line for a shell. The line must give
the shell the same words back, whatever text they are.

## Main definitions

* `quotePosix`, `quotePowerShell`, `quoteCmd` — one word for a shell.
* `RunsAsShown` — the shell gives the words back, or there is no line.

## Main results

* `tokenizePosix_quotePosix`, `tokenizeCmd_quoteCmd` — two of the shells give the
  words back.
* `parseMsvcrt_words` — so does a Windows program.
-/

namespace Yantra

open CodePoints List Option MsvcrtLexer

/-! ## Words -/

/-- `[A-Za-z0-9]` -/
def isLetterOrDigit (c : ℕ) : Bool := isLetter c || isDigit c

def POSIX_BARE (token : Token) : Bool :=
  !token.isEmpty && token.all fun c => isLetterOrDigit c || oneOf "_@%+=:,./-" c

def quotePosix (token : Token) : Token :=
  if POSIX_BARE token then token
  else [39] ++ token.flatMap (fun c => if c = 39 then [39, 92, 39, 39] else [c]) ++ [39]

/-- The loop of `escapeMsvcrt`, with the backslashes that are put off. -/
def escapeMsvcrtFrom (wrapped : Bool) : ℕ → Token → Token
  | backslashes, [] => List.replicate (if wrapped then backslashes * 2 else backslashes) 92
  | backslashes, c :: cs =>
    if c = 92 then escapeMsvcrtFrom wrapped (backslashes + 1) cs
    else if c = 34 then
      List.replicate (backslashes * 2 + 1) 92 ++ [34] ++ escapeMsvcrtFrom wrapped 0 cs
    else List.replicate backslashes 92 ++ [c] ++ escapeMsvcrtFrom wrapped 0 cs

def escapeMsvcrt (value : Token) (wrapped : Bool) : Token := escapeMsvcrtFrom wrapped 0 value

def isFlagName : Token → Bool
  | [] => false
  | c :: cs => isLetter c && cs.all fun d => isLetterOrDigit d || d == 45

def POWERSHELL_BARE (token : Token) : Bool :=
  (match token with
    | 45 :: 45 :: name => isFlagName name
    | 45 :: name => isFlagName name
    | _ => false) ||
  match token with
  | [] => false
  | c :: cs => (isLetterOrDigit c || c == 95) &&
      cs.all fun d => isLetterOrDigit d || oneOf "_./:=+-" d

/-- Every single quote twice. -/
def doubleQuotes (text : Token) : Token := text.flatMap fun c => if c = 39 then [39, 39] else [c]

def quotePowerShell (token : Token) : Token :=
  if token = [] then ofString "'\"\"'"
  else if POWERSHELL_BARE token ∧ token ≠ ofString "--" then token
  else [39] ++ doubleQuotes ([34] ++ escapeMsvcrt token true ++ [34]) ++ [39]

def CMD_NEEDS_QUOTES (token : Token) : Bool := token.any fun c => isSpace c || oneOf "&|<>()^,;=" c

/-- The control characters that `cmd` cannot carry. -/
def isCmdControl (c : ℕ) : Bool :=
  decide (c ≤ 8 ∨ c = 0xB ∨ c = 0xC ∨ 0xE ≤ c ∧ c ≤ 0x1F ∨ c = 0x7F)

def cmdProblem (token : Token) : Option String :=
  if token.any fun c => c = 10 || c = 13 then
    some "a line break, which cmd cannot carry in an argument"
  else if token.contains 34 then some "a double quote, which cmd cannot escape reliably"
  else if token.contains 37 then some "a percent sign, which cmd expands as a variable"
  else if token.any isCmdControl then some "a control character"
  else none

def quoteCmd (token : Token) : Token :=
  if token = [] then ofString "\"\""
  else if !CMD_NEEDS_QUOTES token then token
  else [34] ++ escapeMsvcrt token true ++ [34]

/-! ## Lines -/

/-- `CommandInvocation`, as far as it is formatted. -/
structure CommandInvocation where
  path : List Token
  argv : List Token
  deriving DecidableEq

inductive FormatResult where
  | ok (text : Token)
  | secretInput (detail : String)
  | shellUnrepresentable (detail : String)
  deriving DecidableEq

/-- `FormatOptions.program` -/
inductive FormatProgram where
  | unset
  | one (token : Token)
  | several (tokens : List Token)

def FormatProgram.tokens : FormatProgram → List Token
  | .unset => [ofString "yantra"]
  | .one token => [token]
  | .several tokens => tokens

/-- The tokens of a line, a blank between them. -/
def joinTokens (tokens : List Token) : Token := [32].intercalate tokens

/-- The PowerShell line: the command by its name or by the call operator, and the arguments. -/
def powerShellLine (program tokens : List Token) : Token :=
  let command := program.headD (ofString "yantra")
  let call := if POWERSHELL_BARE command then [command]
    else [ofString "&", [39] ++ doubleQuotes command ++ [39]]
  joinTokens (call ++ (program.tail ++ tokens).map quotePowerShell)

/-- The first of the tokens that `cmd` cannot carry, with its place. -/
def firstCmdProblem : ℕ → List Token → Option (ℕ × String)
  | _, [] => none
  | index, token :: tokens =>
    match cmdProblem token with
    | some problem => some (index, problem)
    | none => firstCmdProblem (index + 1) tokens

/-- `formatInvocation`; `secret` is what `carriesSecret` finds. -/
def formatInvocation (secret : Option String) (invocation : CommandInvocation) (shell : Shell)
    (options : FormatProgram) : FormatResult :=
  match secret with
  | some detail => .secretInput detail
  | none =>
    let program := options.tokens
    let tokens := invocation.path ++ invocation.argv
    match shell with
    | .posix => .ok (joinTokens ((program ++ tokens).map quotePosix))
    | .powershell => .ok (powerShellLine program tokens)
    | .cmd =>
      match firstCmdProblem 0 (program ++ tokens) with
      | some (index, problem) =>
        let place := if index < program.length then "the program path"
          else "argument " ++ toString (index - program.length + 1)
        .shellUnrepresentable ("cmd cannot run this command: " ++ place ++ " contains " ++ problem)
      | none => .ok (joinTokens ((program ++ tokens).map quoteCmd))

/-- A line that is copied runs as it is shown: the shell gives the words back, or there is no
line. -/
def RunsAsShown (secret : Option String) (invocation : CommandInvocation) (shell : Shell)
    (options : FormatProgram) : Prop :=
  ∀ text, formatInvocation secret invocation shell options = .ok text →
    shell.split text = some (options.tokens ++ (invocation.path ++ invocation.argv))

/-! ## POSIX -/

variable {words : List Token}

lemma posix_step_bare {word : Option Token} {c : ℕ}
    (hc : (isLetterOrDigit c || oneOf "_@%+=:,./-" c) = true) :
    PosixLexer.step ⟨words, word, .plain⟩ c = some ⟨words, some (word.getD [] ++ [c]), .plain⟩ := by
  have hplain : ∀ c < 128, (isLetterOrDigit c || oneOf "_@%+=:,./-" c) = true →
      c ≠ 32 ∧ c ≠ 9 ∧ c ≠ 39 ∧ c ≠ 34 ∧ c ≠ 92 ∧
        oneOf "|&;<>()$`*?[#~\x7b\x7d!\n" c = false := by
    decide +kernel
  have hlt : c < 128 := by
    simp only [isLetterOrDigit, isLetter, isDigit, oneOf, ofString, Bool.or_eq_true,
      decide_eq_true_eq, contains_eq_mem] at hc
    rcases hc with hc | hc
    · omega
    · have hall : ∀ d ∈ "_@%+=:,./-".toList.map Char.toNat, d < 128 := by decide
      exact hall c hc
  obtain ⟨h1, h2, h3, h4, h5, h6⟩ := hplain c hlt hc
  simp [PosixLexer.step, PosixLexer.add, h1, h2, h3, h4, h5, h6]

variable {token : Token}

lemma posix_run_bare {word : Option Token}
    (h : ∀ c ∈ token, (isLetterOrDigit c || oneOf "_@%+=:,./-" c) = true)
    (hsome : token ≠ [] ∨ word ≠ none) :
    token.foldlM PosixLexer.step ⟨words, word, .plain⟩ =
      some ⟨words, some (word.getD [] ++ token), .plain⟩ := by
  induction token generalizing word with
  | nil =>
    obtain ⟨w, rfl⟩ := ne_none_iff_exists'.mp (hsome.resolve_left fun h => h rfl)
    simp
  | cons c token ih =>
    obtain ⟨hc, htoken⟩ := forall_mem_cons.mp h
    rw [foldlM_cons, posix_step_bare hc]
    simp only [bind_eq_bind, bind_some]
    rw [ih htoken (.inr (by simp))]
    simp

lemma posix_run_quoted {word token : Token} :
    (token.flatMap fun c => if c = 39 then [39, 92, 39, 39] else [c]).foldlM PosixLexer.step
      ⟨words, some word, .single⟩ = some ⟨words, some (word ++ token), .single⟩ := by
  induction token generalizing word with
  | nil => simp
  | cons c token ih =>
    rw [flatMap_cons, foldlM_append]
    by_cases hc : c = 39
    · subst hc
      have hstep : [39, 92, 39, 39].foldlM PosixLexer.step ⟨words, some word, .single⟩ =
          some ⟨words, some (word ++ [39]), .single⟩ := by
        simp [PosixLexer.step, PosixLexer.add]
      rw [if_pos rfl, hstep]
      simp only [bind_eq_bind, bind_some]
      rw [ih]
      simp
    · have hstep : [c].foldlM PosixLexer.step ⟨words, some word, .single⟩ =
          some ⟨words, some (word ++ [c]), .single⟩ := by
        simp [PosixLexer.step, PosixLexer.add, hc]
      rw [if_neg hc, hstep]
      simp only [bind_eq_bind, bind_some]
      rw [ih]
      simp

lemma posix_run_quotePosix (words : List Token) (token : Token) :
    (quotePosix token).foldlM PosixLexer.step ⟨words, none, .plain⟩ =
      some ⟨words, some token, .plain⟩ := by
  unfold quotePosix
  split
  next hbare =>
    rw [POSIX_BARE, Bool.and_eq_true, List.all_eq_true] at hbare
    rw [posix_run_bare hbare.2 (.inl (by simpa using hbare.1))]
    rfl
  next =>
    have hopen : [39].foldlM PosixLexer.step ⟨words, none, .plain⟩ =
        some ⟨words, some [], .single⟩ := by
      simp [PosixLexer.step, PosixLexer.add]
    have hclose : [39].foldlM PosixLexer.step ⟨words, some token, .single⟩ =
        some ⟨words, some token, .plain⟩ := by
      simp [PosixLexer.step, PosixLexer.add]
    rw [foldlM_append, foldlM_append, hopen]
    simp only [bind_eq_bind, bind_some]
    rw [posix_run_quoted, bind_some, nil_append, hclose]

/-- **A POSIX shell gives the words of a line back.** -/
theorem tokenizePosix_quotePosix (tokens : List Token) :
    tokenizePosix (joinTokens (tokens.map quotePosix)) = some tokens := by
  have hread := @Words.read_intercalate PosixLexer ℕ Token PosixLexer.step
    (fun s => if s.mode = .plain then some s.flush.words else none) (fun ts => ⟨ts, none, .plain⟩)
    32 quotePosix tokens (fun t _ ts => ⟨_, posix_run_quotePosix ts t, rfl, rfl⟩)
    (fun us => by simp [PosixLexer.flush]) []
  exact hread

/-! ## The command line of a Windows program -/

lemma msvcrt_run_backslashes {args : List Token} {arg : Token} {backslashes : ℕ} {inside : Bool}
    (n : ℕ) :
    (replicate n 92).foldl step
      ⟨args, some arg, backslashes, if inside then .inside else .outside⟩ =
      ⟨args, some arg, backslashes + n, if inside then .inside else .outside⟩ := by
  induction n generalizing backslashes with
  | zero => rfl
  | succ n ih =>
    have hstep : step
        ⟨args, some arg, backslashes, if inside then .inside else .outside⟩ 92 =
        ⟨args, some arg, backslashes + 1, if inside then .inside else .outside⟩ := by
      cases inside <;> simp [step, stepIn]
    rw [replicate_succ, foldl_cons, hstep, ih, Nat.add_right_comm, Nat.add_assoc]

/-- A value that is escaped is read back, up to the quote behind it.

**Proof sketch.** Induction on the value, with the backslashes that are put off. -/
lemma msvcrt_run_escape (args : List Token) (arg : Token) (backslashes : ℕ) (value : Token) :
    (escapeMsvcrtFrom true backslashes value ++ [34]).foldl step
      ⟨args, some arg, 0, .inside⟩ =
      ⟨args, some (arg ++ replicate backslashes 92 ++ value), 0, .closing⟩ := by
  have hcount : ∀ n arg, (replicate n 92).foldl step
      ⟨args, some arg, 0, .inside⟩ = ⟨args, some arg, n, .inside⟩ := fun n arg => by
    have hrun := @msvcrt_run_backslashes args arg 0 true n
    rw [Nat.zero_add] at hrun
    exact hrun
  induction value generalizing arg backslashes with
  | nil =>
    rw [escapeMsvcrtFrom, if_pos rfl, foldl_append, hcount]
    simp [step, stepIn, add]
  | cons c value ih =>
    rw [escapeMsvcrtFrom]
    split_ifs with hback hquote
    · subst hback
      rw [ih arg (backslashes + 1), replicate_succ']
      simp
    · subst hquote
      have hstep : step ⟨args, some arg, backslashes * 2 + 1, .inside⟩ 34 =
          ⟨args, some (arg ++ replicate backslashes 92 ++ [34]), 0, .inside⟩ := by
        have hhalf : (backslashes * 2 + 1) / 2 = backslashes := by omega
        simp [step, stepIn, add, Nat.add_mod, hhalf]
      rw [append_assoc, append_assoc, foldl_append, hcount, singleton_append,
        foldl_cons, hstep, ih]
      simp
    · have hstep : step ⟨args, some arg, backslashes, .inside⟩ c =
          ⟨args, some (arg ++ replicate backslashes 92 ++ [c]), 0, .inside⟩ := by
        simp [step, stepIn, add, hback, hquote]
      rw [append_assoc, append_assoc, foldl_append, hcount, singleton_append,
        foldl_cons, hstep, ih]
      simp

lemma msvcrt_run_bare {args : List Token} {arg : Token} {backslashes : ℕ} {text : Token}
    (h : ∀ c ∈ text, c ≠ 34 ∧ c ≠ 32 ∧ c ≠ 9) :
    ∃ arg' backslashes', text.foldl step ⟨args, some arg, backslashes, .outside⟩ =
        ⟨args, some arg', backslashes', .outside⟩ ∧
      arg' ++ replicate backslashes' 92 = arg ++ replicate backslashes 92 ++ text := by
  induction text generalizing arg backslashes with
  | nil => exact ⟨arg, backslashes, rfl, by simp⟩
  | cons c text ih =>
    obtain ⟨⟨hquote, hspace, htab⟩, htext⟩ := forall_mem_cons.1 h
    rw [foldl_cons]
    by_cases hback : c = 92
    · subst hback
      have hstep : step ⟨args, some arg, backslashes, .outside⟩ 92 =
          ⟨args, some arg, backslashes + 1, .outside⟩ := by
        simp [step, stepIn]
      obtain ⟨arg', backslashes', hrun, heq⟩ := @ih arg (backslashes + 1) htext
      refine ⟨arg', backslashes', by rw [hstep, hrun], ?_⟩
      rw [heq, replicate_succ']
      simp
    · have hstep : step ⟨args, some arg, backslashes, .outside⟩ c =
          ⟨args, some (arg ++ replicate backslashes 92 ++ [c]), 0, .outside⟩ := by
        simp [step, stepIn, add, hback, hquote, hspace, htab]
      obtain ⟨arg', backslashes', hrun, heq⟩ :=
        @ih (arg ++ replicate backslashes 92 ++ [c]) 0 htext
      refine ⟨arg', backslashes', by rw [hstep, hrun], ?_⟩
      rw [heq]
      simp

/-- A word as a Windows program reads it: as it is, or escaped in double quotes. -/
def IsMsvcrtWord (code token : Token) : Prop :=
  code = token ∧ token ≠ [] ∧ (∀ c ∈ token, c ≠ 34 ∧ c ≠ 32 ∧ c ≠ 9) ∨
    code = [34] ++ escapeMsvcrt token true ++ [34]

lemma readsWord_msvcrt {code token : Token} (h : IsMsvcrtWord code token) :
    Words.ReadsWord (fun s c => some (step s c)) (fun s => some s.finish)
      (fun ts => ⟨ts, none, 0, .outside⟩) 32 code token := by
  intro ts
  have hfold : ∀ s : MsvcrtLexer,
      code.foldlM (fun s c => some (step s c)) s = some (code.foldl _ s) :=
    fun s => foldlM_pure
  rcases h with ⟨rfl, hne, hplain⟩ | rfl
  · obtain ⟨c, text, rfl⟩ := exists_cons_of_ne_nil hne
    -- The argument begins with its first code point.
    have hbegin : step ⟨ts, none, 0, .outside⟩ c =
        step ⟨ts, some [], 0, .outside⟩ c := by
      obtain ⟨hquote, hspace, htab⟩ := hplain c mem_cons_self
      simp [step, stepIn, add, hspace, htab]
    obtain ⟨arg, backslashes, hrun, heq⟩ := @msvcrt_run_bare ts [] 0 (c :: text) hplain
    simp only [replicate_zero, append_nil, nil_append] at heq
    refine ⟨⟨ts, some arg, backslashes, .outside⟩, ?_, ?_, ?_⟩
    · rw [hfold, foldl_cons, hbegin, ← foldl_cons, hrun]
    · simp [step, stepIn, heq]
    · simp [finish, heq]
  · have hopen : step ⟨ts, none, 0, .outside⟩ 34 = ⟨ts, some [], 0, .inside⟩ := by
      simp [step, stepIn, add]
    refine ⟨⟨ts, some token, 0, .closing⟩, ?_, ?_, ?_⟩
    · rw [hfold, append_assoc, singleton_append, foldl_cons, hopen, escapeMsvcrt,
        msvcrt_run_escape]
      simp
    · simp [step, stepIn]
    · simp [finish]

variable {tokens : List Token}

/-- **A Windows program reads the words of its command line back.** -/
theorem parseMsvcrt_words {encode : Token → Token} (h : ∀ t ∈ tokens, IsMsvcrtWord (encode t) t) :
    parseMsvcrt (joinTokens (tokens.map encode)) = tokens := by
  have hread := Words.read_intercalate (fun t ht => readsWord_msvcrt (h t ht))
    (fun us => by simp [finish]) []
  have hfold : (joinTokens (tokens.map encode)).foldlM
      (fun s c => some (step s c)) {} =
      some ((joinTokens (tokens.map encode)).foldl step {}) := foldlM_pure
  have hsome : ((joinTokens (tokens.map encode)).foldlM
      (fun s c => some (step s c)) {}).bind (fun s => some s.finish) = some tokens :=
    hread
  rw [hfold] at hsome
  exact some.inj hsome

/-! ## `cmd` -/

/-- `cmd` passes a code point on. -/
lemma cmd_step_pass {passed : Token} {inQuotes : Bool} {c : ℕ} (hvar : c ≠ 37) (hline : c ≠ 10)
    (hreturn : c ≠ 13) (hquote : c ≠ 34)
    (hplain : inQuotes = false → c ≠ 94 ∧ oneOf "&|<>" c = false) :
    CmdLexer.step ⟨passed, inQuotes, false⟩ c = some ⟨passed ++ [c], inQuotes, false⟩ := by
  cases inQuotes with
  | true => simp [CmdLexer.step, hvar, hline, hreturn, hquote]
  | false =>
    obtain ⟨hcaret, hmeta⟩ := hplain rfl
    simp [CmdLexer.step, hvar, hline, hreturn, hquote, hcaret, hmeta]

/-- `cmd` passes a text on that it does not end and that has nothing for it. -/
lemma cmd_run_pass {passed text : Token} {inQuotes : Bool}
    (h : ∀ c ∈ text, c ≠ 37 ∧ c ≠ 10 ∧ c ≠ 13 ∧ c ≠ 34)
    (hplain : inQuotes = false → ∀ c ∈ text, c ≠ 94 ∧ oneOf "&|<>" c = false) :
    text.foldlM CmdLexer.step ⟨passed, inQuotes, false⟩ =
      some ⟨passed ++ text, inQuotes, false⟩ := by
  induction text generalizing passed with
  | nil => simp
  | cons c text ih =>
    obtain ⟨⟨hvar, hline, hreturn, hquote⟩, htext⟩ := forall_mem_cons.1 h
    rw [foldlM_cons, cmd_step_pass hvar hline hreturn hquote fun hin =>
      hplain hin c mem_cons_self]
    simp only [bind_eq_bind, bind_some]
    rw [ih htext fun hin d hd => hplain hin d (mem_cons_of_mem _ hd)]
    simp

lemma mem_escapeMsvcrtFrom {wrapped : Bool} {backslashes c : ℕ} {value : Token}
    (hc : c ∈ escapeMsvcrtFrom wrapped backslashes value) : c = 92 ∨ c ∈ value := by
  induction value generalizing backslashes with
  | nil => exact .inl (eq_of_mem_replicate hc)
  | cons d value ih =>
    rw [escapeMsvcrtFrom] at hc
    split_ifs at hc with hback hquote
    · exact (ih hc).imp_right (mem_cons_of_mem _)
    all_goals
      rw [mem_append, mem_append, mem_singleton] at hc
      obtain (hc | hc) | hc := hc
      · exact .inl (eq_of_mem_replicate hc)
      · subst hc
        first
          | exact .inr (hquote ▸ mem_cons_self)
          | exact .inr mem_cons_self
      · exact (ih hc).imp_right (mem_cons_of_mem _)

/-- A token without a problem has none of the code points that `cmd` ends or expands. -/
lemma of_cmdProblem (h : cmdProblem token = none) :
    ∀ c ∈ token, c ≠ 37 ∧ c ≠ 10 ∧ c ≠ 13 ∧ c ≠ 34 := by
  unfold cmdProblem at h
  split_ifs at h with hline hquote hvar hcontrol
  intro c hc
  refine ⟨?_, ?_, ?_, ?_⟩ <;> rintro rfl
  · exact hvar (contains_iff_mem.2 hc)
  · exact hline (List.any_eq_true.2 ⟨10, hc, by simp⟩)
  · exact hline (List.any_eq_true.2 ⟨13, hc, by simp⟩)
  · exact hquote (contains_iff_mem.2 hc)

/-- A word for `cmd` is passed on as it is. -/
lemma cmd_run_quoteCmd (h : cmdProblem token = none) (passed : Token) :
    (quoteCmd token).foldlM CmdLexer.step ⟨passed, false, false⟩ =
      some ⟨passed ++ quoteCmd token, false, false⟩ := by
  have hwrapped : ([34] ++ escapeMsvcrt token true ++ [34]).foldlM CmdLexer.step
      ⟨passed, false, false⟩ =
      some ⟨passed ++ ([34] ++ escapeMsvcrt token true ++ [34]), false, false⟩ := by
    have hopen : [34].foldlM CmdLexer.step ⟨passed, false, false⟩ =
        some ⟨passed ++ [34], true, false⟩ := by
      simp [CmdLexer.step]
    have hclose : ∀ passed', [34].foldlM CmdLexer.step ⟨passed', true, false⟩ =
        some ⟨passed' ++ [34], false, false⟩ := fun passed' => by
      have hmeta : oneOf "&|<>" 34 = false := by decide
      simp [CmdLexer.step, hmeta]
    have hinner : ∀ c ∈ escapeMsvcrt token true, c ≠ 37 ∧ c ≠ 10 ∧ c ≠ 13 ∧ c ≠ 34 := by
      intro c hc
      rcases mem_escapeMsvcrtFrom hc with rfl | hc
      · decide
      · exact of_cmdProblem h c hc
    rw [foldlM_append, foldlM_append, hopen]
    simp only [bind_eq_bind, bind_some]
    rw [cmd_run_pass hinner (by simp), bind_some, hclose]
    simp
  unfold quoteCmd
  split_ifs with hempty hbare
  · subst hempty
    exact hwrapped
  · refine cmd_run_pass (of_cmdProblem h) fun _ c hc => ?_
    have hnot := hbare
    simp only [CMD_NEEDS_QUOTES, Bool.not_eq_true', List.any_eq_false, Bool.or_eq_true,
      not_or] at hnot
    have hmeta := (hnot c hc).2
    refine ⟨fun hcaret => hmeta (by rw [hcaret]; decide), ?_⟩
    rw [Bool.eq_false_iff]
    intro hone
    refine hmeta ?_
    simp only [oneOf, contains_eq_mem, decide_eq_true_eq] at hone ⊢
    have hsub : ∀ d ∈ ofString "&|<>", d ∈ ofString "&|<>()^,;=" := by decide
    exact hsub c hone
  · exact hwrapped

/-- A word for `cmd` is one for a Windows program. -/
lemma isMsvcrtWord_quoteCmd (h : cmdProblem token = none) :
    IsMsvcrtWord (quoteCmd token) token := by
  unfold quoteCmd
  split_ifs with hempty hbare
  · subst hempty
    exact .inr (by decide)
  · refine .inl ⟨rfl, hempty, fun c hc => ⟨(of_cmdProblem h c hc).2.2.2, ?_⟩⟩
    simp only [CMD_NEEDS_QUOTES, Bool.not_eq_true', List.any_eq_false, Bool.or_eq_true,
      not_or] at hbare
    have hspace := (hbare c hc).1
    constructor <;> rintro rfl <;> exact hspace (by decide)
  · exact .inr rfl

/-- **`cmd` gives the words of a line back.** -/
theorem tokenizeCmd_quoteCmd (h : ∀ t ∈ tokens, cmdProblem t = none) :
    tokenizeCmd (joinTokens (tokens.map quoteCmd)) = some tokens := by
  have hpass : ∀ ts : List Token, (∀ t ∈ ts, cmdProblem t = none) → ∀ passed,
      (joinTokens (ts.map quoteCmd)).foldlM CmdLexer.step ⟨passed, false, false⟩ =
        some ⟨passed ++ joinTokens (ts.map quoteCmd), false, false⟩ := by
    intro ts
    induction ts with
    | nil => simp [joinTokens]
    | cons t ts ih =>
      intro hts passed
      obtain ⟨ht, hts⟩ := forall_mem_cons.1 hts
      cases ts with
      | nil =>
        rw [joinTokens, map_singleton, intercalate_singleton]
        exact cmd_run_quoteCmd ht passed
      | cons t' ts =>
        have hrest := ih hts
        have hblank : ∀ passed', [32].foldlM CmdLexer.step ⟨passed', false, false⟩ =
            some ⟨passed' ++ [32], false, false⟩ := fun passed' => by
          have hmeta : oneOf "&|<>" 32 = false := by decide
          simp [CmdLexer.step, hmeta]
        rw [joinTokens, map_cons] at hrest ⊢
        rw [map_cons, intercalate_cons_cons, foldlM_append, foldlM_append,
          cmd_run_quoteCmd ht]
        simp only [bind_eq_bind, bind_some]
        rw [hblank, bind_some, hrest]
        simp
  rw [tokenizeCmd, hpass tokens h, map_some, nil_append,
    parseMsvcrt_words fun t ht => isMsvcrtWord_quoteCmd (h t ht)]

lemma firstCmdProblem_eq_none_iff {index : ℕ} :
    firstCmdProblem index tokens = none ↔ ∀ t ∈ tokens, cmdProblem t = none := by
  induction tokens generalizing index with
  | nil => simp [firstCmdProblem]
  | cons t ts ih =>
    rw [firstCmdProblem, forall_mem_cons]
    cases hproblem : cmdProblem t with
    | none => simpa using ih
    | some problem => simp

end Yantra
