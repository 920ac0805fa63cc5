import Mathlib.Data.Set.Basic
import Mathlib.Tactic.Ring
import Mathlib.Algebra.Group.Int.Defs
import Bitmagnet.Library.Tsquery

/-!
# The meaning of text search queries

A query is read with the precedence of its operators: `!` binds closest, then `<->`, `&` and `|`,
and an operator groups to the left.  The meaning is taken in any `Algebra` of the operators; it is
`Lawful` if adjacency is associative, which is all that a change of grouping needs.  The positions
of a document are one such algebra (`document`): adjacency there counts from the end of the first
operand to the start of the second, and a negation within an adjacency means that there is no match
at that place.

Reading has two stages.  `lexRun` cuts the text into tokens, with the rules `Lexes` for texts that
are put together, and `readStep` reads the tokens on a stack with one `Frame` for each open bracket.
A `Level` is what has been read since the last bracket, with one slot for each binary operator.
-/

universe u

namespace Tsquery

/-- The binary operators. -/
inductive Op
  | followedBy | and | or
deriving DecidableEq

/-- A meaning for the lexemes, as they are or as the start of one, and for the operators. -/
structure Algebra (M : Type u) where
  lexeme : List Char → Bool → M
  not : M → M
  followedBy : M → M → M
  and : M → M → M
  or : M → M → M

/-- Adjacency is associative. -/
def Algebra.Lawful {M : Type u} (A : Algebra M) : Prop :=
  ∀ x y z, A.followedBy (A.followedBy x y) z = A.followedBy x (A.followedBy y z)

/-! ## Tokens -/

inductive Token
  | lexeme (word : List Char) (starred : Bool)
  | not
  | op (o : Op)
  | opening
  | closing
deriving DecidableEq

/-- Where the lexer is, with the word it has read of a lexeme. -/
inductive Mode
  | start
  | word (w : List Char)
  | quoted (w : List Char)
  | quote (w : List Char)
  | colon (w : List Char)
  | less
  | dash
deriving DecidableEq

/-- A character where no lexeme is being read. -/
def startStep (out : List Token) (c : Char) : Option (Mode × List Token) :=
  if c = ' ' then some (.start, out)
  else if c = '!' then some (.start, out ++ [.not])
  else if c = '(' then some (.start, out ++ [.opening])
  else if c = ')' then some (.start, out ++ [.closing])
  else if c = '&' then some (.start, out ++ [.op .and])
  else if c = '|' then some (.start, out ++ [.op .or])
  else if c = '<' then some (.less, out)
  else if c = '\'' then some (.quoted [], out)
  else if isWordChar c then some (.word [c], out)
  else none

def lexStep : Mode × List Token → Char → Option (Mode × List Token)
  | (.start, out), c => startStep out c
  | (.word w, out), c =>
    if isWordChar c then some (.word (w ++ [c]), out)
    else if c = ':' then some (.colon w, out)
    else startStep (out ++ [.lexeme w false]) c
  | (.quoted w, out), c =>
    if c = '\'' then if w = [] then none else some (.quote w, out)
    else if c = '\\' then none
    else some (.quoted (w ++ [c]), out)
  | (.quote w, out), c =>
    if c = '\'' then some (.quoted (w ++ [c]), out)
    else if c = ':' then some (.colon w, out)
    else startStep (out ++ [.lexeme w false]) c
  | (.colon w, out), c => if c = '*' then some (.start, out ++ [.lexeme w true]) else none
  | (.less, out), c => if c = '-' then some (.dash, out) else none
  | (.dash, out), c => if c = '>' then some (.start, out ++ [.op .followedBy]) else none

def lexRun (s : Mode × List Token) (text : List Char) : Option (Mode × List Token) :=
  text.foldlM lexStep s

/-- The tokens at the end of the text. -/
def settle : Mode × List Token → Option (List Token)
  | (.start, out) => some out
  | (.word w, out) => some (out ++ [.lexeme w false])
  | (.quote w, out) => some (out ++ [.lexeme w false])
  | _ => none

/-- The tokens of a text. -/
def lex (text : List Char) : Option (List Token) := (lexRun (.start, []) text).bind settle

lemma lexRun_append (s : Mode × List Token) (a b : List Char) :
    lexRun s (a ++ b) = (lexRun s a).bind (lexRun · b) :=
  List.foldlM_append

lemma lexRun_cons (s : Mode × List Token) (c : Char) (text : List Char) :
    lexRun s (c :: text) = (lexStep s c).bind (lexRun · text) :=
  List.foldlM_cons

/-- The text has these tokens, and may be followed by a space or a closing bracket. -/
def Lexes (text : List Char) (tokens : List Token) : Prop :=
  ∀ out, ∃ s, lexRun (.start, out) text = some s ∧ settle s = some (out ++ tokens)

/-- The text is one lexeme, of this word, and may be followed by `:*`. -/
def LexesWord (text word : List Char) : Prop :=
  ∀ out, ∃ m, (m = .word word ∨ m = .quote word) ∧ lexRun (.start, out) text = some (m, out)

section Lexing

variable {a b : List Char} {ts us : List Token} {s : Mode × List Token}

lemma lexStep_space (h : settle s = some ts) : lexStep s ' ' = some (.start, ts) := by
  obtain ⟨m, out⟩ := s
  cases m <;> first | (cases h; rfl) | cases h

lemma lexStep_close (h : settle s = some ts) : lexStep s ')' = some (.start, ts ++ [.closing]) := by
  obtain ⟨m, out⟩ := s
  cases m <;> first | (cases h; rfl) | cases h

lemma Lexes.lex (h : Lexes a ts) : lex a = some ts := by
  obtain ⟨s, hrun, hsettle⟩ := h []
  simp [Tsquery.lex, hrun, hsettle]

lemma Lexes.space (ha : Lexes a ts) (hb : Lexes b us) : Lexes (a ++ ' ' :: b) (ts ++ us) := by
  intro out
  obtain ⟨s, hrun, hsettle⟩ := ha out
  obtain ⟨s', hrun', hsettle'⟩ := hb (out ++ ts)
  refine ⟨s', ?_, by rw [hsettle', List.append_assoc]⟩
  rw [lexRun_append, hrun, Option.bind_some, lexRun_cons, lexStep_space hsettle, Option.bind_some,
    hrun']

lemma Lexes.parens (ha : Lexes a ts) :
    Lexes ('(' :: a ++ [')']) (.opening :: ts ++ [.closing]) := by
  intro out
  obtain ⟨s, hrun, hsettle⟩ := ha (out ++ [.opening])
  refine ⟨(.start, out ++ [.opening] ++ ts ++ [.closing]), ?_, by simp [settle]⟩
  have hopen : lexStep (.start, out) '(' = some (.start, out ++ [.opening]) := rfl
  rw [List.cons_append, lexRun_cons, hopen, Option.bind_some, lexRun_append, hrun,
    Option.bind_some, lexRun_cons, lexStep_close hsettle]
  rfl

lemma LexesWord.lexes {word : List Char} (h : LexesWord a word) : Lexes a [.lexeme word false] := by
  intro out
  obtain ⟨m, hm, hrun⟩ := h out
  refine ⟨(m, out), hrun, ?_⟩
  rcases hm with rfl | rfl <;> rfl

lemma LexesWord.starred {word : List Char} (h : LexesWord a word) :
    Lexes (a ++ [':', '*']) [.lexeme word true] := by
  intro out
  obtain ⟨m, hm, hrun⟩ := h out
  refine ⟨(.start, out ++ [.lexeme word true]), ?_, rfl⟩
  rw [lexRun_append, hrun, Option.bind_some]
  rcases hm with rfl | rfl <;> rfl

variable {text : List Char}

lemma lexRun_word (h : ∀ c ∈ text, isWordChar c = true) (w : List Char) (out : List Token) :
    lexRun (.word w, out) text = some (.word (w ++ text), out) := by
  induction text generalizing w with
  | nil => simp [lexRun]
  | cons c text ih =>
    obtain ⟨hc, htext⟩ := List.forall_mem_cons.mp h
    rw [lexRun_cons, lexStep, if_pos hc, Option.bind_some, ih htext, List.append_assoc]
    rfl

lemma lexesWord_word (hne : text ≠ []) (h : ∀ c ∈ text, isWordChar c = true) :
    LexesWord text text := by
  intro out
  obtain ⟨c, rest, rfl⟩ := List.exists_cons_of_ne_nil hne
  obtain ⟨hc, hrest⟩ := List.forall_mem_cons.mp h
  have hnot : c ∉ [' ', '!', '(', ')', '&', '|', '<', '\''] := by
    intro hmem
    simp only [List.mem_cons, List.not_mem_nil, or_false] at hmem
    rcases hmem with rfl | rfl | rfl | rfl | rfl | rfl | rfl | rfl <;> exact absurd hc (by decide)
  simp only [List.mem_cons, List.not_mem_nil, or_false, not_or] at hnot
  obtain ⟨h1, h2, h3, h4, h5, h6, h7, h8⟩ := hnot
  refine ⟨.word (c :: rest), .inl rfl, ?_⟩
  have hfirst : lexStep (.start, out) c = some (.word [c], out) := by
    rw [lexStep, startStep, if_neg h1, if_neg h2, if_neg h3, if_neg h4, if_neg h5, if_neg h6,
      if_neg h7, if_neg h8, if_pos hc]
  rw [lexRun_cons, hfirst, Option.bind_some, lexRun_word hrest]
  rfl

lemma lexRun_doubled (h : '\\' ∉ text) {w : List Char} (hw : w ≠ []) (out : List Token) :
    lexRun (.quoted w, out) (doubled text) = some (.quoted (w ++ text), out) := by
  induction text generalizing w with
  | nil => simp [lexRun, doubled]
  | cons c text ih =>
    have hc : c ≠ '\\' := fun heq => h (by simp [heq])
    have hrest := ih (fun hmem => h (List.mem_cons_of_mem _ hmem))
      (List.append_ne_nil_of_right_ne_nil w (List.cons_ne_nil c []))
    rw [doubled] at hrest
    have hfirst : lexRun (.quoted w, out) (if c = '\'' then ['\'', '\''] else [c]) =
        some (.quoted (w ++ [c]), out) := by
      split
      · next heq =>
          rw [heq, lexRun_cons, lexStep, if_pos rfl, if_neg hw]
          rfl
      · next hne =>
          rw [lexRun_cons, lexStep, if_neg hne, if_neg hc]
          rfl
    rw [doubled, List.flatMap_cons, lexRun_append, hfirst, Option.bind_some, hrest,
      List.append_assoc]
    rfl

/-- A word in quotes, if it starts with no quote and has no backslash. -/
lemma lexesWord_quoted {c : Char} (hquote : c ≠ '\'') (h : '\\' ∉ c :: text) :
    LexesWord ('\'' :: doubled (c :: text) ++ ['\'']) (c :: text) := by
  intro out
  rw [List.mem_cons, not_or] at h
  obtain ⟨hc, htext⟩ := h
  refine ⟨.quote (c :: text), .inr rfl, ?_⟩
  have hopen : lexStep (.start, out) '\'' = some (.quoted [], out) := rfl
  have hfirst : lexStep (.quoted [], out) c = some (.quoted [c], out) := by
    rw [lexStep, if_neg hquote, if_neg (Ne.symm hc)]
    rfl
  have hdoubled : doubled (c :: text) = c :: doubled text := by
    rw [doubled, List.flatMap_cons, if_neg hquote]
    rfl
  rw [hdoubled, List.cons_append, lexRun_cons, hopen, Option.bind_some, List.cons_append,
    lexRun_cons, hfirst, Option.bind_some, lexRun_append, lexRun_doubled htext (by simp),
    Option.bind_some, lexRun_cons, lexStep, if_pos rfl, if_neg (by simp)]
  rfl

end Lexing

/-! ## Reading -/

/-- What has been read since the last open bracket: what stands before the last `|`, what before the
last `&` behind that, and the adjacency behind both. -/
structure Level (M : Type u) where
  disjunction : Option M
  conjunction : Option M
  phrase : M

/-- What stands before an operand: the level with the operator behind it, if there is one, and the
negations. -/
structure Frame (M : Type u) where
  before : Option (Level M × Op)
  negations : Nat

/-- Where the reader is. -/
inductive Cursor (M : Type u)
  | before (frame : Frame M)
  | behind (level : Level M)

section Reading

variable {M : Type u} (A : Algebra M)

/-- An operator with an operand that may be absent. -/
def joined (op : M → M → M) : Option M → M → M
  | none, x => x
  | some y, x => op y x

/-- The meaning of a level. -/
def Level.value (level : Level M) : M :=
  joined A.or level.disjunction (joined A.and level.conjunction level.phrase)

/-- The level of one operand. -/
def Level.one (x : M) : Level M := ⟨none, none, x⟩

/-- An operator and an operand behind a level. -/
def Level.place (level : Level M) (o : Op) (x : M) : Level M :=
  match o with
  | .followedBy => { level with phrase := A.followedBy level.phrase x }
  | .and =>
    { level with conjunction := some (joined A.and level.conjunction level.phrase), phrase := x }
  | .or => ⟨some (level.value A), none, x⟩

/-- Negations before an operand. -/
def negated : Nat → M → M
  | 0, x => x
  | n + 1, x => A.not (negated n x)

/-- An operand behind a frame. -/
def Frame.place (frame : Frame M) (x : M) : Level M :=
  match frame.before with
  | none => .one (negated A frame.negations x)
  | some (level, o) => level.place A o (negated A frame.negations x)

def readStep : Cursor M × List (Frame M) → Token → Option (Cursor M × List (Frame M))
  | (.before frame, stack), .lexeme word starred =>
    some (.behind (frame.place A (A.lexeme word starred)), stack)
  | (.before frame, stack), .not =>
    some (.before { frame with negations := frame.negations + 1 }, stack)
  | (.before frame, stack), .opening => some (.before ⟨none, 0⟩, frame :: stack)
  | (.behind level, stack), .op o => some (.before ⟨some (level, o), 0⟩, stack)
  | (.behind level, frame :: stack), .closing =>
    some (.behind (frame.place A (level.value A)), stack)
  | _, _ => none

def readRun (s : Cursor M × List (Frame M)) (tokens : List Token) :
    Option (Cursor M × List (Frame M)) :=
  tokens.foldlM (readStep A) s

/-- **The meaning of a text**, read with the precedence of the operators. -/
def meaning (text : List Char) : Option M :=
  (lex text).bind fun tokens => (readRun A (.before ⟨none, 0⟩, []) tokens).bind fun
    | (.behind level, []) => some (level.value A)
    | _ => none

lemma readRun_append (s : Cursor M × List (Frame M)) (ts us : List Token) :
    readRun A s (ts ++ us) = (readRun A s ts).bind (readRun A · us) :=
  List.foldlM_append

lemma readRun_cons (s : Cursor M × List (Frame M)) (t : Token) (ts : List Token) :
    readRun A s (t :: ts) = (readStep A s t).bind (readRun A · ts) :=
  List.foldlM_cons

variable {A}

lemma meaning_eq {text : List Char} {tokens : List Token} {level : Level M}
    (hlex : Lexes text tokens)
    (hread : readRun A (.before ⟨none, 0⟩, []) tokens = some (.behind level, [])) :
    meaning A text = some (level.value A) := by
  simp [meaning, hlex.lex, hread]

/-- Behind an adjacency, the operands of an adjacency are placed one by one or together. -/
lemma Level.place_followedBy (lawful : A.Lawful) (level : Level M) (o : Op) (x y : M) :
    (level.place A o x).place A .followedBy y = level.place A o (A.followedBy x y) := by
  cases o with
  | followedBy =>
    simp only [Level.place]
    rw [lawful]
  | and => rfl
  | or => rfl

lemma Frame.place_followedBy (lawful : A.Lawful) (frame : Frame M) (h : frame.negations = 0)
    (x y : M) :
    (frame.place A x).place A .followedBy y = frame.place A (A.followedBy x y) := by
  obtain ⟨_ | ⟨level, o⟩, negations⟩ := frame
  · cases h
    rfl
  · cases h
    exact level.place_followedBy lawful o x y

end Reading

/-! ## Documents -/

/-- The matches of a query in a document: whether there is one, the positions at which one ends when
it is an operand of an adjacency, and how many positions before its end it starts. -/
@[ext] structure Matches where
  holds : Prop
  ends : Set Int
  width : Int

/-- The algebra of a document, of which is known what occurs where.  Operands of different width are
aligned at their start. -/
def document (occurs : List Char → Bool → Int → Prop) : Algebra Matches where
  lexeme word starred := ⟨∃ p, occurs word starred p, {p | occurs word starred p}, 0⟩
  not a := ⟨¬ a.holds, a.endsᶜ, a.width⟩
  followedBy a b :=
    ⟨∃ p, p ∈ b.ends ∧ p - (b.width + 1) ∈ a.ends, {p | p ∈ b.ends ∧ p - (b.width + 1) ∈ a.ends},
      a.width + b.width + 1⟩
  and a b :=
    ⟨a.holds ∧ b.holds, {p | p - (max a.width b.width - a.width) ∈ a.ends ∧
      p - (max a.width b.width - b.width) ∈ b.ends}, max a.width b.width⟩
  or a b :=
    ⟨a.holds ∨ b.holds, {p | p - (max a.width b.width - a.width) ∈ a.ends ∨
      p - (max a.width b.width - b.width) ∈ b.ends}, max a.width b.width⟩

end Tsquery
