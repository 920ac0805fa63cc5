import Mathlib.Data.Bool.AllAny
import Mathlib.Data.List.Basic

/-!
# The syntax of text search queries

The input syntax of `tsquery`, as a machine that reads one character at a time and knows how many
brackets are open.  A lexeme is a bare word of ASCII letters, digits and underscores, or it stands in
quotes, of which one inside is doubled; it may have `:*` directly behind it.  Between two operands
stands an operator, before an operand any number of negations.

The machine is stricter than the server: it has no backslash escapes, weights or distances.

A text is put together from `Operand`s, after which an operator, a closing bracket or the end can
follow; a `Lexeme` is an operand which may also be followed by `:*`.
-/

namespace Tsquery

/-- The characters of a bare word. -/
def isWordChar (c : Char) : Bool := c.isAlphanum || c = '_'

/-- Where the machine is. -/
inductive State
  /-- before an operand -/
  | operand
  | word
  /-- in quotes, with whether there is something in them -/
  | quoted (filled : Bool)
  /-- behind a quote that closes, or is the first of two -/
  | quote
  | colon
  | starred
  /-- behind an operand and white space, or a bracket -/
  | after
  | less
  | dash
deriving DecidableEq

/-- A character behind a complete operand. -/
def finish (depth : Nat) (c : Char) : Option (State × Nat) :=
  if c = ' ' then some (.after, depth)
  else if c = ')' then if depth = 0 then none else some (.after, depth - 1)
  else none

def step : State × Nat → Char → Option (State × Nat)
  | (.operand, depth), c =>
    if c = ' ' || c = '!' then some (.operand, depth)
    else if c = '(' then some (.operand, depth + 1)
    else if c = '\'' then some (.quoted false, depth)
    else if isWordChar c then some (.word, depth)
    else none
  | (.word, depth), c =>
    if isWordChar c then some (.word, depth)
    else if c = ':' then some (.colon, depth)
    else finish depth c
  | (.quoted filled, depth), c =>
    if c = '\'' then if filled then some (.quote, depth) else none
    else if c = '\\' then none
    else some (.quoted true, depth)
  | (.quote, depth), c =>
    if c = '\'' then some (.quoted true, depth)
    else if c = ':' then some (.colon, depth)
    else finish depth c
  | (.colon, depth), c => if c = '*' then some (.starred, depth) else none
  | (.starred, depth), c => finish depth c
  | (.after, depth), c =>
    if c = '&' || c = '|' then some (.operand, depth)
    else if c = '<' then some (.less, depth)
    else finish depth c
  | (.less, depth), c => if c = '-' then some (.dash, depth) else none
  | (.dash, depth), c => if c = '>' then some (.operand, depth) else none

/-- The states in which an operand is complete. -/
def State.complete : State → Bool
  | .word | .quote | .starred | .after => true
  | _ => false

def run (s : State × Nat) (text : List Char) : Option (State × Nat) := text.foldlM step s

/-- The text is a query. -/
def accepts (text : List Char) : Bool :=
  match run (.operand, 0) text with
  | some (st, depth) => st.complete && depth = 0
  | none => false

lemma run_append (s : State × Nat) (a b : List Char) : run s (a ++ b) = (run s a).bind (run · b) :=
  List.foldlM_append

lemma run_cons (s : State × Nat) (c : Char) (text : List Char) :
    run s (c :: text) = (step s c).bind (run · text) :=
  List.foldlM_cons

/-- Text that is one operand, or several with operators between them. -/
def Operand (text : List Char) : Prop :=
  ∀ depth, ∃ st : State, st.complete = true ∧ run (.operand, depth) text = some (st, depth)

/-- Text that ends with a lexeme. -/
def Lexeme (text : List Char) : Prop :=
  ∀ depth, ∃ st : State, (st = .word ∨ st = .quote) ∧
    run (.operand, depth) text = some (st, depth)

variable {a b : List Char}

lemma Lexeme.operand (h : Lexeme a) : Operand a := by
  intro depth
  obtain ⟨st, hst, hrun⟩ := h depth
  refine ⟨st, ?_, hrun⟩
  rcases hst with rfl | rfl <;> rfl

lemma Operand.accepts (h : Operand a) : accepts a = true := by
  obtain ⟨st, hst, hrun⟩ := h 0
  simp [Tsquery.accepts, hrun, hst]

variable {st : State} {op text : List Char}

/-- A space behind an operand. -/
lemma step_space (h : st.complete = true) (depth : Nat) :
    step (st, depth) ' ' = some (.after, depth) := by
  cases st <;> first | rfl | cases h

lemma step_close (h : st.complete = true) (depth : Nat) :
    step (st, depth + 1) ')' = some (.after, depth) := by
  cases st <;> first | rfl | cases h

/-- The binary operators. -/
def isOperator (op : List Char) : Bool := op = ['&'] || op = ['|'] || op = ['<', '-', '>']

/-- The operator between two operands, with its spaces. -/
lemma run_operator (h : st.complete = true) (hop : isOperator op = true) (depth : Nat) :
    run (st, depth) (' ' :: op ++ [' ']) = some (.operand, depth) := by
  rw [List.cons_append, run_cons, step_space h, Option.bind_some]
  simp only [isOperator, Bool.or_eq_true, decide_eq_true_eq] at hop
  rcases hop with (rfl | rfl) | rfl <;> rfl

/-- What follows an operand and an operator. -/
lemma Operand.run_operator (ha : Operand a) (hop : isOperator op = true) (depth : Nat) :
    run (.operand, depth) (a ++ ' ' :: op ++ [' ']) = some (.operand, depth) := by
  obtain ⟨st, hst, hrun⟩ := ha depth
  rw [List.append_assoc, run_append, hrun, Option.bind_some]
  exact Tsquery.run_operator hst hop depth

lemma Operand.join (ha : Operand a) (hop : isOperator op = true) (hb : Operand b) :
    Operand (a ++ ' ' :: op ++ [' '] ++ b) := by
  intro depth
  obtain ⟨st, hst, hrun⟩ := hb depth
  exact ⟨st, hst, by rw [run_append, ha.run_operator hop, Option.bind_some, hrun]⟩

lemma Operand.join_lexeme (ha : Operand a) (hop : isOperator op = true) (hb : Lexeme b) :
    Lexeme (a ++ ' ' :: op ++ [' '] ++ b) := by
  intro depth
  obtain ⟨st, hst, hrun⟩ := hb depth
  exact ⟨st, hst, by rw [run_append, ha.run_operator hop, Option.bind_some, hrun]⟩

lemma Operand.negate (ha : Operand a) : Operand (['!', ' '] ++ a) :=
  fun depth => ha depth

lemma Operand.parens (ha : Operand a) : Operand ('(' :: a ++ [')']) := by
  intro depth
  obtain ⟨st, hst, hrun⟩ := ha (depth + 1)
  refine ⟨.after, rfl, ?_⟩
  rw [List.cons_append, run_cons, show step (.operand, depth) '(' = some (.operand, depth + 1) from rfl,
    Option.bind_some, run_append, hrun, Option.bind_some, run_cons, step_close hst]
  rfl

/-- The lexemes that start like this one. -/
lemma Lexeme.starred (ha : Lexeme a) : Operand (a ++ [':', '*']) := by
  intro depth
  obtain ⟨st, hst, hrun⟩ := ha depth
  refine ⟨.starred, rfl, ?_⟩
  rw [run_append, hrun, Option.bind_some]
  rcases hst with rfl | rfl <;> rfl

lemma run_word (h : ∀ c ∈ text, isWordChar c = true) (depth : Nat) :
    run (.word, depth) text = some (.word, depth) := by
  induction text with
  | nil => rfl
  | cons c text ih =>
    obtain ⟨hc, htext⟩ := List.forall_mem_cons.mp h
    rw [run_cons, step, if_pos hc, Option.bind_some, ih htext]

/-- **A bare word is a lexeme.** -/
lemma lexeme_word (hne : text ≠ []) (h : ∀ c ∈ text, isWordChar c = true) : Lexeme text := by
  intro depth
  obtain ⟨c, rest, rfl⟩ := List.exists_cons_of_ne_nil hne
  obtain ⟨hc, hrest⟩ := List.forall_mem_cons.mp h
  have hnot : c ∉ [' ', '!', '(', '\''] := by
    intro hmem
    simp only [List.mem_cons, List.not_mem_nil, or_false] at hmem
    rcases hmem with rfl | rfl | rfl | rfl <;> exact absurd hc (by decide)
  simp only [List.mem_cons, List.not_mem_nil, or_false, not_or] at hnot
  obtain ⟨hspace, hbang, hopen, hquote⟩ := hnot
  refine ⟨.word, .inl rfl, ?_⟩
  rw [run_cons, step, if_neg (by simp [hspace, hbang]), if_neg hopen, if_neg hquote, if_pos hc,
    Option.bind_some, run_word hrest]

/-- The text with its quotes doubled. -/
def doubled (text : List Char) : List Char :=
  text.flatMap fun c => if c = '\'' then ['\'', '\''] else [c]

lemma run_doubled (h : '\\' ∉ text) (depth : Nat) :
    run (.quoted true, depth) (doubled text) = some (.quoted true, depth) := by
  induction text with
  | nil => rfl
  | cons c text ih =>
    have hc : c ≠ '\\' := fun heq => h (by simp [heq])
    have hrest := ih fun hmem => h (List.mem_cons_of_mem _ hmem)
    rw [doubled, List.flatMap_cons, run_append]
    rw [doubled] at hrest
    have hfirst : run (.quoted true, depth) (if c = '\'' then ['\'', '\''] else [c]) =
        some (.quoted true, depth) := by
      split
      · rfl
      · rename_i hne
        rw [run_cons, step, if_neg hne, if_neg hc]
        rfl
    rw [hfirst, Option.bind_some, hrest]

/-- **A text in quotes is a lexeme**, if it starts with no quote and has no backslash. -/
lemma lexeme_quoted {c : Char} (hquote : c ≠ '\'') (h : '\\' ∉ c :: text) :
    Lexeme ('\'' :: doubled (c :: text) ++ ['\'']) := by
  intro depth
  rw [List.mem_cons, not_or] at h
  obtain ⟨hc, htext⟩ := h
  refine ⟨.quote, .inr rfl, ?_⟩
  have hopen : step (.operand, depth) '\'' = some (.quoted false, depth) := rfl
  have hfirst : step (.quoted false, depth) c = some (.quoted true, depth) := by
    rw [step, if_neg hquote, if_neg (Ne.symm hc)]
  have hdoubled : doubled (c :: text) = c :: doubled text := by
    rw [doubled, List.flatMap_cons, if_neg hquote]
    rfl
  rw [hdoubled, List.cons_append, run_cons, hopen, Option.bind_some, List.cons_append, run_cons,
    hfirst, Option.bind_some, run_append, run_doubled htext]
  rfl

end Tsquery
