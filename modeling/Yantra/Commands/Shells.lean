import Yantra.Lib.CodePoints

/-!
# What a shell makes of a line

The reference tokenizers of the shells, one code point at a time: POSIX word splitting; PowerShell
5.1, with its way of passing arguments to a program; `cmd`; and the command line that a Windows
program splits itself. A line that holds more than plain words has no words.

## Main definitions

* `tokenizePosix`, `parseMsvcrt`, `tokenizePowerShell`, `tokenizeCmd` —
  the words of a line.
* `Shell.split` — the words that a shell splits a line into.

## Main results

* `countP_parseMsvcrt` — splitting a command line keeps all but quotes, backslashes and
  blanks.
-/

namespace Yantra

open CodePoints List

/-- A word of a command line. -/
abbrev Token := List ℕ

inductive Shell where
  | posix | powershell | cmd
  deriving DecidableEq

/-! ## POSIX -/

inductive PosixMode where
  | plain | single | double | escape | doubleEscape
  deriving DecidableEq

/-- A POSIX shell on its way through a line: the words so far, and the one it is in. -/
structure PosixLexer where
  words : List Token := []
  word : Option Token := none
  mode : PosixMode := .plain

/-- The word goes on, or begins. -/
def PosixLexer.add (s : PosixLexer) (text : Token) (mode : PosixMode) : PosixLexer :=
  { s with word := some (s.word.getD [] ++ text), mode }

def PosixLexer.flush (s : PosixLexer) : PosixLexer where
  words := s.words ++ s.word.toList
  word := none
  mode := .plain

/-- A code point of a line. -/
def PosixLexer.step (s : PosixLexer) (c : ℕ) : Option PosixLexer :=
  match s.mode with
  | .plain =>
    if c = 32 ∨ c = 9 then some s.flush
    else if c = 39 then some (s.add [] .single)
    else if c = 34 then some (s.add [] .double)
    else if c = 92 then some (s.add [] .escape)
    else if oneOf "|&;<>()$`*?[#~\x7b\x7d!\n" c && !(c = 35 && 0 < (s.word.getD []).length) then none
    else some (s.add [c] .plain)
  | .single => some (if c = 39 then s.add [] .plain else s.add [c] .single)
  | .double =>
    if c = 34 then some (s.add [] .plain)
    else if c = 92 then some (s.add [] .doubleEscape)
    else if c = 36 ∨ c = 96 then none
    else some (s.add [c] .double)
  | .escape => some (s.add (if c = 10 then [] else [c]) .plain)
  | .doubleEscape =>
    some (if c = 10 then s.add [] .double
      else if oneOf "$`\"\\" c then s.add [c] .double
      else s.add [92, c] .double)

def tokenizePosix (line : Token) : Option (List Token) :=
  (line.foldlM PosixLexer.step {}).bind fun s =>
    if s.mode = .plain then some s.flush.words else none

/-! ## The command line of a Windows program -/

/-- Where a program is in its command line: outside of quotes, inside, or behind the quote that may
close them. -/
inductive MsvcrtMode where
  | outside | inside | closing
  deriving DecidableEq

/-- A program on its way through its command line: the arguments so far, the one it is in, and the
backslashes that it has just seen. -/
structure MsvcrtLexer where
  args : List Token := []
  arg : Option Token := none
  backslashes : ℕ := 0
  mode : MsvcrtMode := .outside

/-- The argument goes on, or begins, behind so many backslashes. -/
def MsvcrtLexer.add (s : MsvcrtLexer) (backslashes : ℕ) (text : Token) (mode : MsvcrtMode) :
    MsvcrtLexer where
  args := s.args
  arg := some (s.arg.getD [] ++ List.replicate backslashes 92 ++ text)
  backslashes := 0
  mode := mode

/-- A code point of a command line, but for a quote behind a closing one. -/
def MsvcrtLexer.stepIn (s : MsvcrtLexer) (inside : Bool) (c : ℕ) : MsvcrtLexer :=
  let mode := if inside then MsvcrtMode.inside else .outside
  if c = 92 then { s with arg := some (s.arg.getD []), backslashes := s.backslashes + 1, mode }
  else if c = 34 then
    if s.backslashes % 2 = 1 then s.add (s.backslashes / 2) [34] mode
    else s.add (s.backslashes / 2) [] (if inside then .closing else .inside)
  else if (c = 32 ∨ c = 9) ∧ !inside then
    if s.arg = none then { s with mode := .outside }
    else
      { args := s.args ++ [s.arg.getD [] ++ List.replicate s.backslashes 92], arg := none,
        backslashes := 0, mode := .outside }
  else s.add s.backslashes [c] mode

/-- A code point of a command line. Two quotes inside of quotes are one. -/
def MsvcrtLexer.step (s : MsvcrtLexer) (c : ℕ) : MsvcrtLexer :=
  match s.mode with
  | .outside => s.stepIn false c
  | .inside => s.stepIn true c
  | .closing => if c = 34 then s.add 0 [34] .inside else s.stepIn false c

/-- The end of a command line. -/
def MsvcrtLexer.finish (s : MsvcrtLexer) : List Token :=
  match s.arg with
  | none => s.args
  | some arg => s.args ++ [arg ++ List.replicate s.backslashes 92]

def parseMsvcrt (line : Token) : List Token := (line.foldl MsvcrtLexer.step {}).finish

/-- What a program has read of its command line, by the code points that count. -/
def MsvcrtLexer.count (s : MsvcrtLexer) (p : ℕ → Bool) : ℕ :=
  s.args.flatten.countP p + (s.arg.getD []).countP p

open MsvcrtLexer

section
variable {p : ℕ → Bool} (hp : ∀ c, p c = true → c ≠ 34 ∧ c ≠ 92 ∧ c ≠ 32 ∧ c ≠ 9)
include hp

variable (s : MsvcrtLexer)

lemma MsvcrtLexer.count_add (backslashes : ℕ) (text : Token) (mode : MsvcrtMode) :
    (s.add backslashes text mode).count p = s.count p + text.countP p := by
  have hback : (replicate backslashes 92).countP p = 0 :=
    countP_eq_zero.2 fun c hc => by
      rw [eq_of_mem_replicate hc]
      exact fun h => (hp _ h).2.1 rfl
  simp [add, MsvcrtLexer.count, hback]
  omega

lemma MsvcrtLexer.count_stepIn (inside : Bool) (c : ℕ) :
    (s.stepIn inside c).count p = s.count p + [c].countP p := by
  have hzero : c = 34 ∨ c = 92 ∨ c = 32 ∨ c = 9 → [c].countP p = 0 := fun hc => by
    rw [countP_singleton, if_neg]
    exact fun h => by have := hp c h; omega
  have hback : (replicate s.backslashes 92).countP p = 0 :=
    countP_eq_zero.2 fun d hd => by
      rw [eq_of_mem_replicate hd]
      exact fun h => (hp _ h).2.1 rfl
  unfold stepIn
  dsimp only
  generalize (if inside then MsvcrtMode.inside else .outside) = mode
  generalize (if inside then MsvcrtMode.closing else .inside) = mode'
  split_ifs with h92 h34 hodd hblank hnone
  · rw [hzero (by omega)]
    rfl
  · rw [MsvcrtLexer.count_add hp, h34]
  · rw [MsvcrtLexer.count_add hp, hzero (by omega)]
    rfl
  · rw [hzero (by omega)]
    rfl
  · rw [hzero (by omega)]
    simp [MsvcrtLexer.count, hback]
  · rw [MsvcrtLexer.count_add hp]

lemma MsvcrtLexer.count_step (c : ℕ) :
    (s.step c).count p = s.count p + [c].countP p := by
  unfold step
  split
  · exact count_stepIn hp s _ c
  · exact count_stepIn hp s _ c
  · split_ifs with h
    · rw [MsvcrtLexer.count_add hp, h]
    · exact count_stepIn hp s _ c

/-- **Splitting a command line keeps all but quotes, backslashes and blanks.** -/
theorem countP_parseMsvcrt (line : Token) :
    (parseMsvcrt line).flatten.countP p = line.countP p := by
  have hrun : ∀ s : MsvcrtLexer,
      (line.foldl step s).count p = s.count p + line.countP p := by
    induction line with
    | nil => intro s; rfl
    | cons c line ih =>
      intro s
      have hcons : (c :: line).countP p = [c].countP p + line.countP p := by
        rw [← countP_append, singleton_append]
      rw [foldl_cons, ih, count_step hp, hcons, Nat.add_assoc]
  have hfinish : ∀ s : MsvcrtLexer, s.finish.flatten.countP p = s.count p := by
    rintro ⟨args, arg, backslashes, mode⟩
    have hback : (replicate backslashes 92).countP p = 0 :=
      countP_eq_zero.2 fun c hc => by
        rw [eq_of_mem_replicate hc]
        exact fun h => (hp _ h).2.1 rfl
    cases arg <;> simp [finish, MsvcrtLexer.count, hback]
  rw [parseMsvcrt, hfinish, hrun]
  simp [MsvcrtLexer.count]

end

/-! ## PowerShell 5.1 -/

/-- A typographic single quotation mark, which PowerShell takes for a single quote. -/
def isTypographicQuote (c : ℕ) : Bool := decide (0x2018 ≤ c ∧ c ≤ 0x201B)

def isSingleQuote (c : ℕ) : Bool := c == 39 || isTypographicQuote c

/-- `PS_BARE_FORBIDDEN`, with every single quotation mark. -/
def isBareForbidden (c : ℕ) : Bool :=
  isSpace c || isSingleQuote c || oneOf "\"`$,;()\x7b\x7d|&<>@#" c

/-- What PowerShell reads: nothing, a bare word, a literal, or the quotation mark that may close
it. -/
inductive PsMode where
  | gap
  | bare (word : Token)
  | literal (word : Token)
  | closed (word : Token)
  deriving DecidableEq

/-- PowerShell on its way through a line. -/
structure PsLexer where
  values : List Token := []
  mode : PsMode := .gap

/-- A code point of a line. Any two quotation marks in a literal are one. -/
def PsLexer.step (s : PsLexer) (c : ℕ) : Option PsLexer :=
  match s.mode with
  | .gap =>
    if c = 32 then some s
    else if isSingleQuote c then some { s with mode := .literal [] }
    else if isBareForbidden c then none
    else some { s with mode := .bare [c] }
  | .bare word =>
    if c = 32 then if word = [45, 45] then none else some ⟨s.values ++ [word], .gap⟩
    else if isBareForbidden c then none
    else some { s with mode := .bare (word ++ [c]) }
  | .literal word =>
    some { s with mode := if isSingleQuote c then .closed word else .literal (word ++ [c]) }
  | .closed word =>
    if isSingleQuote c then some { s with mode := .literal (word ++ [c]) }
    else if c = 32 then some ⟨s.values ++ [word], .gap⟩
    else none

/-- The end of a line. -/
def PsLexer.finish (s : PsLexer) : Option (List Token) :=
  match s.mode with
  | .gap => some s.values
  | .bare word => if word = [45, 45] then none else some (s.values ++ [word])
  | .literal _ => none
  | .closed word => some (s.values ++ [word])

/-- `tokenizePowerShellValues`; the call operator stands before the first value. -/
def tokenizePowerShellValues (line : Token) : Option (List Token) :=
  ((match line with
    | 38 :: 32 :: rest => rest
    | _ => line).foldlM PsLexer.step {}).bind PsLexer.finish

/-- The loop of `needsQuotes`: the last code point was a backslash, and the quotes so far. -/
def needsQuotesFrom : Bool → ℕ → Token → Bool
  | _, _, [] => false
  | followingBackslash, quotes, c :: cs =>
    if c = 34 ∧ !followingBackslash then needsQuotesFrom false (quotes + 1) cs
    else if isSpace c ∧ quotes % 2 = 0 then true
    else needsQuotesFrom (c = 92) quotes cs

def needsQuotes (value : Token) : Bool := needsQuotesFrom false 0 value

def powerShellNativeLine (values : List Token) : Token :=
  [32].intercalate ((values.filter fun value => !value.isEmpty).map fun value =>
    if needsQuotes value then [34] ++ value ++ [34] else value)

/-- `tokenizePowerShell`. PowerShell resolves the command itself; the arguments are passed in a
command line. -/
def tokenizePowerShell (line : Token) : Option (List Token) :=
  (tokenizePowerShellValues line).map fun values =>
    match values with
    | [] => []
    | command :: args => command :: parseMsvcrt (powerShellNativeLine args)

/-! ## `cmd` -/

/-- `cmd` on its way through a line. -/
structure CmdLexer where
  passed : Token := []
  inQuotes : Bool := false
  escaped : Bool := false

/-- A code point of a line. -/
def CmdLexer.step (s : CmdLexer) (c : ℕ) : Option CmdLexer :=
  if s.escaped then some { s with passed := s.passed ++ [c], escaped := false }
  else if c = 37 ∨ c = 10 ∨ c = 13 then none
  else
    let inQuotes := if c = 34 then !s.inQuotes else s.inQuotes
    if !inQuotes ∧ c = 94 then some { s with escaped := true }
    else if !inQuotes ∧ oneOf "&|<>" c then none
    else some { passed := s.passed ++ [c], inQuotes, escaped := false }

def tokenizeCmd (line : Token) : Option (List Token) :=
  (line.foldlM CmdLexer.step {}).map fun s => parseMsvcrt s.passed

def Shell.split : Shell → Token → Option (List Token)
  | .posix => tokenizePosix
  | .powershell => tokenizePowerShell
  | .cmd => tokenizeCmd

end Yantra
