import Mathlib.Data.Bool.AllAny
import Mathlib.Data.List.Basic
import Mathlib.Tactic.IntervalCases

/-!
# The lexical structure of SQL statements

The lexical rules of PostgreSQL with `standard_conforming_strings` on, as a machine that reads one
character at a time: names and keywords (folded to lower case), integers, `$n` parameters, string
constants with their doubled quotes and their continuation after a newline, operators with the
rule about a trailing sign, comments of both kinds, `::` and punctuation.

What is not modelled is refused: a state that would need a rule left out here (quoted
identifiers, dollar quotes, strings with a word directly before them, decimals, a sign or a comment
behind a string) is `bad`, from which nothing is ever accepted.  A theorem that a text lexes to
some tokens therefore also says that none of these rules is touched.

A text is put together from pieces.  `Opens` is a piece after which the machine is between tokens,
`Reads` one whose last token still waits for what follows, and is complete whatever follows that
is `calm`: a closing bracket, a comma, a colon, or white space that leads to no quote and no sign.
Facts about fixed pieces are computed; the lemmas below put pieces together.
-/

namespace Sql

/-- A token, with the value of a constant decoded. -/
inductive Token
  | word (text : List Char)
  | number (digits : List Char)
  | param (index : Nat)
  | string (value : List Char)
  | op (name : List Char)
  | punct (c : Char)
  | cast
deriving DecidableEq

def isSpace (c : Char) : Bool := c = ' ' || c = '\t' || c = '\n' || c = '\r' || c = '\x0c'

def isNewline (c : Char) : Bool := c = '\n' || c = '\r'

def isWordStart (c : Char) : Bool := c.isAlpha || c = '_' || 128 ≤ c.toNat

def isWordChar (c : Char) : Bool := isWordStart c || c.isDigit || c = '$'

def isOpChar (c : Char) : Bool := "+-*/<>=~!@#%^&|`?".toList.contains c

def isPunct (c : Char) : Bool := "()[],;".toList.contains c

/-- Where the machine is; texts are kept in reverse. -/
inductive State
  | idle
  | word (rev : List Char)
  | number (rev : List Char)
  | dollar
  | param (index : Nat)
  | string (rev : List Char)
  /-- Behind a quote that may close the string or be the first of two. -/
  | quote (rev : List Char)
  /-- In the white space behind a string, with whether it has a newline. -/
  | gap (rev : List Char) (newline : Bool)
  | op (rev : List Char)
  | colon
  | dot
  | line
  | block (depth : Nat) (previous : Char)
  | bad
deriving DecidableEq

/-- An operator of several characters ends in a sign only if it has one of these. -/
def keepsSign (rev : List Char) : Bool := rev.any ("~!@#%^&|`?".toList.contains ·)

/-- The operators that a run of operator characters is. -/
def opTokens : List Char → List Token
  | [] => []
  | [c] => [.op [c]]
  | c :: rev =>
    if (c = '+' || c = '-') && !keepsSign (c :: rev) then opTokens rev ++ [.op [c]]
    else [.op (c :: rev).reverse]

/-- What is still to come out at the end of the text; none when it ends inside a token. -/
def flush : State → Option (List Token)
  | .idle => some []
  | .word rev => some [.word (rev.reverse.map Char.toLower)]
  | .number rev => some [.number rev.reverse]
  | .param index => some [.param index]
  | .quote rev => some [.string rev.reverse]
  | .gap rev _ => some [.string rev.reverse]
  | .op rev => some (opTokens rev)
  | .colon => some [.punct ':']
  | .dot => some [.punct '.']
  | .line => some []
  | .dollar | .string _ | .block .. | .bad => none

/-- The first character of a token. -/
def start (c : Char) : State × List Token :=
  if isSpace c then (.idle, [])
  else if isWordStart c then (.word [c], [])
  else if c.isDigit then (.number [c], [])
  else if c = '$' then (.dollar, [])
  else if c = '\'' then (.string [], [])
  else if c = ':' then (.colon, [])
  else if c = '.' then (.dot, [])
  else if isPunct c then (.idle, [.punct c])
  else if isOpChar c then (.op [c], [])
  else (.bad, [])

/-- The tokens that `c` ends, and then `c` as a first character. -/
def restart (ended : List Token) (c : Char) : State × List Token :=
  ((start c).1, ended ++ (start c).2)

/-- The value of a decimal digit. -/
def digit (c : Char) : Nat := c.toNat - '0'.toNat

def step : State → Char → State × List Token
  | .idle, c => start c
  | .word rev, c =>
    if isWordChar c then (.word (c :: rev), [])
    else if c = '\'' || (c = '&' && (rev = ['u'] || rev = ['U'])) then (.bad, [])
    else restart [.word (rev.reverse.map Char.toLower)] c
  | .number rev, c =>
    if c.isDigit then (.number (c :: rev), [])
    else if isWordStart c || c = '.' then (.bad, [])
    else restart [.number rev.reverse] c
  | .dollar, c => if c.isDigit then (.param (digit c), []) else (.bad, [])
  | .param index, c =>
    if c.isDigit then (.param (10 * index + digit c), [])
    else if isWordStart c then (.bad, [])
    else restart [.param index] c
  | .string rev, c => if c = '\'' then (.quote rev, []) else (.string (c :: rev), [])
  | .quote rev, c =>
    if c = '\'' then (.string ('\'' :: rev), [])
    else if isSpace c then (.gap rev (isNewline c), [])
    else if c = '-' then (.bad, [])
    else restart [.string rev.reverse] c
  | .gap rev newline, c =>
    if isSpace c then (.gap rev (newline || isNewline c), [])
    else if c = '\'' && newline then (.string rev, [])
    else if c = '-' then (.bad, [])
    else restart [.string rev.reverse] c
  | .op rev, c =>
    if c = '-' && rev.head? = some '-' then (.line, opTokens rev.tail)
    else if c = '*' && rev.head? = some '/' then (.block 1 ' ', opTokens rev.tail)
    else if isOpChar c then (.op (c :: rev), [])
    else restart (opTokens rev) c
  | .colon, c =>
    if c = ':' then (.idle, [.cast])
    else if c = '=' then (.bad, [])
    else restart [.punct ':'] c
  | .dot, c =>
    if c.isDigit || c = '.' then (.bad, [])
    else restart [.punct '.'] c
  | .line, c => if isNewline c then (.idle, []) else (.line, [])
  | .block depth previous, c =>
    if previous = '*' && c = '/' then
      (if depth ≤ 1 then .idle else .block (depth - 1) ' ', [])
    else if previous = '/' && c = '*' then (.block (depth + 1) ' ', [])
    else (.block depth c, [])
  | .bad, _ => (.bad, [])

/-- Tokens before those of the rest. -/
def emit (tokens : List Token) (later : Option (List Token)) : Option (List Token) :=
  later.map (tokens ++ ·)

@[simp] lemma emit_nil (later : Option (List Token)) : emit [] later = later := by
  cases later <;> rfl

@[simp] lemma emit_some (tokens later : List Token) :
    emit tokens (some later) = some (tokens ++ later) := rfl

@[simp] lemma emit_emit (first second : List Token) (later : Option (List Token)) :
    emit first (emit second later) = emit (first ++ second) later := by
  cases later <;> simp [emit]

/-- The tokens from a state on. -/
def scan : State → List Char → Option (List Token)
  | st, [] => flush st
  | st, c :: cs => emit (step st c).2 (scan (step st c).1 cs)

/-- The tokens of a text. -/
def lex (text : List Char) : Option (List Token) := scan .idle text

/-- The state behind a text, and the tokens that are out by then. -/
def run : State → List Char → State × List Token
  | st, [] => (st, [])
  | st, c :: cs => ((run (step st c).1 cs).1, (step st c).2 ++ (run (step st c).1 cs).2)

lemma scan_append (text rest : List Char) :
    ∀ st, scan st (text ++ rest) = emit (run st text).2 (scan (run st text).1 rest) := by
  induction text with
  | nil => intro st; simp [run]
  | cons c text ih => intro st; simp [scan, run, ih]

lemma run_append (text rest : List Char) :
    ∀ st, run st (text ++ rest) =
      ((run (run st text).1 rest).1, (run st text).2 ++ (run (run st text).1 rest).2) := by
  induction text with
  | nil => intro st; simp [run]
  | cons c text ih => intro st; simp [run, ih]

/-! ## Calm continuations -/

/-- Behind white space there is a quote, or a sign. -/
def quoteFollows : List Char → Bool
  | [] => false
  | c :: cs => if isSpace c then quoteFollows cs else c = '\'' || c = '-'

/-- Whatever token was pending is complete. -/
def calm : List Char → Bool
  | [] => true
  | c :: cs => ")],[:".toList.contains c || (isSpace c && !quoteFollows cs)

variable {st : State} {cs : List Char}

/-- A character that ends the pending tokens. -/
lemma scan_restart {ended : List Token} {c : Char} (hstep : step st c = restart ended c)
    (cs : List Char) : scan st (c :: cs) = emit ended (scan .idle (c :: cs)) := by
  rw [scan, hstep, scan, show step .idle c = start c from rfl, restart, emit_emit]

lemma scan_idle_space {c : Char} (hspace : isSpace c = true) (cs : List Char) :
    scan .idle (c :: cs) = scan .idle cs := by
  simp [scan, step, start, hspace]

/-- The white space behind a string leads to no continuation. -/
lemma scan_gap (hquote : quoteFollows cs = false) (rev : List Char) :
    ∀ newline, scan (.gap rev newline) cs = emit [.string rev.reverse] (scan .idle cs) := by
  induction cs with
  | nil => intro newline; rfl
  | cons c cs ih =>
    intro newline
    by_cases hspace : isSpace c = true
    · have hcs : quoteFollows cs = false := by simpa [quoteFollows, hspace] using hquote
      rw [scan_idle_space hspace, scan, ← ih hcs (newline || isNewline c)]
      simp [step, hspace]
    · have hne : c ≠ '\'' ∧ c ≠ '-' := by simpa [quoteFollows, hspace] using hquote
      exact scan_restart (by simp [step, hspace, hne.1, hne.2]) cs

/-- States whose token a calm continuation completes. -/
def State.complete : State → Bool
  | .idle | .word _ | .number _ | .param _ | .quote _ => true
  | _ => false

/-- What the first character of a calm continuation is not. -/
lemma calm_head {c : Char} (h : calm (c :: cs) = true) :
    isWordChar c = false ∧ isWordStart c = false ∧ c.isDigit = false ∧ c ≠ '\'' ∧ c ≠ '&' ∧
      c ≠ '.' ∧ c ≠ '-' := by
  have hmem : c ∈ [')', ']', ',', '[', ':', ' ', '\t', '\n', '\r', '\x0c'] := by
    simp [calm, isSpace] at h
    simp only [List.mem_cons, List.not_mem_nil, or_false]
    tauto
  simp only [List.mem_cons, List.not_mem_nil, or_false] at hmem
  rcases hmem with rfl | rfl | rfl | rfl | rfl | rfl | rfl | rfl | rfl | rfl <;> decide

/-- White space that is calm leads to no quote. -/
lemma quoteFollows_of_calm {c : Char} (hspace : isSpace c = true) (h : calm (c :: cs) = true) :
    quoteFollows cs = false := by
  have hclosers : ")],[:".toList.contains c = false := by
    simp only [isSpace, Bool.or_eq_true, decide_eq_true_eq] at hspace
    rcases hspace with (((rfl | rfl) | rfl) | rfl) | rfl <;> decide
  rw [calm, hclosers, hspace] at h
  simpa using h

/-- **A calm continuation completes the pending token.** -/
lemma scan_calm (hst : st.complete = true) {pending : List Token}
    (hflush : flush st = some pending) {rest : List Char} (hrest : calm rest = true) :
    scan st rest = emit pending (scan .idle rest) := by
  cases rest with
  | nil =>
    rw [scan, hflush]
    simp [scan, flush]
  | cons c cs =>
    obtain ⟨hword, hstart, hdigit, hquote, hand, hdot, hdash⟩ := calm_head hrest
    cases st with
    | idle =>
      cases hflush
      simp
    | word rev =>
      cases hflush
      exact scan_restart (by simp [step, hword, hquote, hand]) cs
    | number rev =>
      cases hflush
      exact scan_restart (by simp [step, hdigit, hstart, hdot]) cs
    | param index =>
      cases hflush
      exact scan_restart (by simp [step, hdigit, hstart]) cs
    | quote rev =>
      cases hflush
      by_cases hspace : isSpace c = true
      · rw [scan_idle_space hspace, scan,
          ← scan_gap (quoteFollows_of_calm hspace hrest) rev (isNewline c)]
        simp [step, hquote, hspace]
      · exact scan_restart (by simp [step, hquote, hspace, hdash]) cs
    | _ => simp [State.complete] at hst

/-! ## Pieces of a text -/

/-- The piece is these tokens, and the machine is between tokens behind it. -/
def Opens (text : List Char) (tokens : List Token) : Prop :=
  ∀ rest, scan .idle (text ++ rest) = emit tokens (scan .idle rest)

/-- The piece is these tokens before any calm continuation. -/
def Reads (text : List Char) (tokens : List Token) : Prop :=
  ∀ rest, calm rest = true → scan .idle (text ++ rest) = emit tokens (scan .idle rest)

/-- A piece that makes what follows it calm. -/
def calms (text : List Char) : Bool := calm text && text.any (!isSpace ·)

variable {a b c : List Char} {ta tb tc : List Token}

lemma opens_of_run (h : run .idle a = (.idle, ta)) : Opens a ta := by
  intro rest
  rw [scan_append, h]

lemma reads_of_run (h : run .idle a = (st, ta)) (hst : st.complete = true)
    (hflush : flush st = some tb) : Reads a (ta ++ tb) := by
  intro rest hrest
  rw [scan_append, h, scan_calm hst hflush hrest, emit_emit]

lemma Opens.reads (h : Opens a ta) : Reads a ta := fun rest _ => h rest

/-- A piece behind one that ends between tokens. -/
lemma Opens.reads_append (ha : Opens a ta) (hb : Reads b tb) : Reads (a ++ b) (ta ++ tb) := by
  intro rest hrest
  rw [List.append_assoc, ha, hb rest hrest, emit_emit]

lemma quoteFollows_append {text : List Char} (hany : text.any (!isSpace ·) = true)
    (rest : List Char) : quoteFollows (text ++ rest) = quoteFollows text := by
  induction text with
  | nil => simp at hany
  | cons c text ih =>
    by_cases hspace : isSpace c = true
    · have htext : text.any (!isSpace ·) = true := by simpa [hspace] using hany
      simp [quoteFollows, hspace, ih htext]
    · simp [quoteFollows, hspace]

lemma calm_append (h : calms a = true) (rest : List Char) : calm (a ++ rest) = true := by
  obtain ⟨hcalm, hany⟩ := Bool.and_eq_true_iff.mp h
  cases a with
  | nil => simp at hany
  | cons c a =>
    by_cases hspace : isSpace c = true
    · have ha : a.any (!isSpace ·) = true := by simpa [hspace] using hany
      rw [List.cons_append, calm, quoteFollows_append ha]
      exact hcalm
    · simpa [calm, hspace] using hcalm

/-- A piece that calms, behind a pending token, and is itself complete. -/
lemma Reads.opens_append (ha : Reads a ta) (hcalms : calms b = true) (hb : Opens b tb) :
    Opens (a ++ b) (ta ++ tb) := by
  intro rest
  rw [List.append_assoc, ha _ (calm_append hcalms rest), hb, emit_emit]

/-- A piece that calms, behind a pending token. -/
lemma Reads.append (ha : Reads a ta) (hcalms : calms b = true) (hb : Reads b tb) :
    Reads (a ++ b) (ta ++ tb) := by
  intro rest hrest
  rw [List.append_assoc, ha _ (calm_append hcalms rest), hb rest hrest, emit_emit]

/-- Pieces with a separator between them. -/
lemma reads_intercalate {α : Type} {text : α → List Char} {tokens : α → List Token}
    {sep : List Char} {sepTokens : List Token} (hcalms : calms sep = true)
    (hsep : Opens sep sepTokens) {items : List α} (hitems : items ≠ [])
    (hreads : ∀ item ∈ items, Reads (text item) (tokens item)) :
    Reads (sep.intercalate (items.map text)) (sepTokens.intercalate (items.map tokens)) := by
  induction items with
  | nil => exact absurd rfl hitems
  | cons item items ih =>
    have hitem := hreads item (by simp)
    cases items with
    | nil => simpa using hitem
    | cons next items =>
      have hrest := ih (by simp) fun i hi => hreads i (List.mem_cons_of_mem _ hi)
      simp only [List.map_cons, List.intercalate_cons_cons] at hrest ⊢
      exact (hitem.opens_append hcalms hsep).reads_append hrest

/-! ## Strings -/

/-- The text with its quotes doubled. -/
def doubled (value : List Char) : List Char :=
  value.flatMap fun c => if c = '\'' then ['\'', '\''] else [c]

/-- Inside a string, doubled quotes are the characters of the value. -/
lemma run_doubled (value : List Char) :
    ∀ rev, run (.string rev) (doubled value) = (.string (value.reverse ++ rev), []) := by
  induction value with
  | nil => intro rev; rfl
  | cons c value ih =>
    intro rev
    by_cases hc : c = '\''
    · subst hc
      have hrest := ih ('\'' :: rev)
      simp only [doubled] at hrest
      simp [doubled, run, step, hrest]
    · have hrest := ih (c :: rev)
      simp only [doubled] at hrest
      simp [doubled, run, step, hc, hrest]

/-- **A quoted text is one constant with that text as its value.** -/
lemma reads_quoted (value : List Char) :
    Reads ('\'' :: doubled value ++ ['\'']) [.string value] := by
  have hrun : run .idle ('\'' :: doubled value ++ ['\'']) = (.quote value.reverse, []) := by
    rw [List.cons_append, run, show step .idle '\'' = (.string [], []) from rfl, run_append,
      run_doubled]
    simp [run, step]
  have := reads_of_run hrun rfl rfl
  simpa using this

/-! ## Numbers and parameters -/

lemma run_number {digits : List Char} (hdigits : ∀ c ∈ digits, c.isDigit = true) :
    ∀ rev, run (.number rev) digits = (.number (digits.reverse ++ rev), []) := by
  induction digits with
  | nil => intro rev; rfl
  | cons c digits ih =>
    intro rev
    have hc := hdigits c (by simp)
    have hrest := ih fun d hd => hdigits d (List.mem_cons_of_mem _ hd)
    simp [run, step, hc, hrest]

lemma run_word (hcs : ∀ c ∈ cs, isWordChar c = true) :
    ∀ rev, run (.word rev) cs = (.word (cs.reverse ++ rev), []) := by
  induction cs with
  | nil => intro rev; rfl
  | cons c cs ih =>
    intro rev
    have hc := hcs c (by simp)
    have hrest := ih fun d hd => hcs d (List.mem_cons_of_mem _ hd)
    simp [run, step, hc, hrest]

lemma run_param {digits : List Char} (hdigits : ∀ c ∈ digits, c.isDigit = true) :
    ∀ index, run (.param index) digits = (.param (Nat.ofDigitChars 10 digits index), []) := by
  induction digits with
  | nil => intro index; rfl
  | cons c digits ih =>
    intro index
    have hc := hdigits c (by simp)
    have hrest := ih fun d hd => hdigits d (List.mem_cons_of_mem _ hd)
    simp [run, step, hc, hrest, digit, Nat.ofDigitChars]

lemma isDigit_toDigits (n : Nat) : ∀ c ∈ Nat.toDigits 10 n, c.isDigit = true :=
  fun _ hc => Nat.isDigit_of_mem_toDigits (by decide) (by decide) hc

lemma mem_digits {c : Char} (hc : c.isDigit = true) : c ∈ "0123456789".toList := by
  have hrange : 48 ≤ c.toNat ∧ c.toNat ≤ 57 := by
    simpa [Char.isDigit, UInt32.le_iff_toNat_le] using hc
  rw [← Char.ofNat_toNat c]
  generalize c.toNat = n at hrange ⊢
  obtain ⟨hlow, hhigh⟩ := hrange
  interval_cases n <;> decide

/-- A number behind something where any digit starts one. -/
lemma reads_digits {head : List Char} {out : List Token}
    (hhead : ∀ c ∈ "0123456789".toList, run .idle (head ++ [c]) = (.number [c], out)) (n : Nat) :
    Reads (head ++ Nat.toDigits 10 n) (out ++ [.number (Nat.toDigits 10 n)]) := by
  cases hdigits : Nat.toDigits 10 n with
  | nil => exact absurd hdigits Nat.toDigits_ne_nil
  | cons c digits =>
    have hall := isDigit_toDigits n
    rw [hdigits] at hall
    have hrun : run .idle (head ++ c :: digits) = (.number (digits.reverse ++ [c]), out) := by
      rw [List.append_cons, run_append, hhead c (mem_digits (hall c (by simp))),
        run_number fun d hd => hall d (List.mem_cons_of_mem _ hd)]
      simp
    have := reads_of_run hrun rfl rfl
    simpa using this

lemma reads_number (n : Nat) : Reads (Nat.toDigits 10 n) [.number (Nat.toDigits 10 n)] :=
  (reads_digits (List.all_iff_forall_prop.mp (by decide)) n : Reads ([] ++ _) ([] ++ _))

lemma reads_negative (n : Nat) :
    Reads ('-' :: Nat.toDigits 10 n) [.op ['-'], .number (Nat.toDigits 10 n)] :=
  (reads_digits (List.all_iff_forall_prop.mp (by decide)) n : Reads (['-'] ++ _) ([.op ['-']] ++ _))

/-- A word that ends in a number. -/
lemma reads_numbered {word rev : List Char} (hword : run .idle word = (.word rev, [])) (n : Nat) :
    Reads (word ++ Nat.toDigits 10 n)
      [.word ((rev.reverse ++ Nat.toDigits 10 n).map Char.toLower)] := by
  have hdigits : ∀ c ∈ Nat.toDigits 10 n, isWordChar c = true := fun c hc => by
    simp [isWordChar, isDigit_toDigits n c hc]
  have hrun : run .idle (word ++ Nat.toDigits 10 n) =
      (.word ((Nat.toDigits 10 n).reverse ++ rev), []) := by
    rw [run_append, hword, run_word hdigits]
    rfl
  have := reads_of_run hrun rfl rfl
  simpa using this

lemma reads_param (n : Nat) : Reads ('$' :: Nat.toDigits 10 n) [.param n] := by
  cases hdigits : Nat.toDigits 10 n with
  | nil => exact absurd hdigits Nat.toDigits_ne_nil
  | cons c digits =>
    have hall := isDigit_toDigits n
    have hvalue : Nat.ofDigitChars 10 (Nat.toDigits 10 n) 0 = n :=
      Nat.ofDigitChars_toDigits (by decide) (by decide)
    rw [hdigits] at hall hvalue
    have hrun : run .idle ('$' :: c :: digits) = (.param n, []) := by
      have hfirst : step .dollar c = (.param (digit c), []) := by
        simp [step, hall c (by simp)]
      rw [run, show step .idle '$' = (.dollar, []) from rfl, run, hfirst,
        run_param fun d hd => hall d (List.mem_cons_of_mem _ hd)]
      simpa [Nat.ofDigitChars, digit] using hvalue
    exact reads_of_run hrun rfl rfl

end Sql
