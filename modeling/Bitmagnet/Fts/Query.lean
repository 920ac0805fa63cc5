import Bitmagnet.Library.Tsquery
import Bitmagnet.Fts.Tables

/-!
# The query compiler

`app_query_to_tsquery` of `bitmagnet-fts`.  The position in the tokens is the list of those that are
left; moving it past some of them drops them.  Brackets recurse into the tokens between them, which are
fewer.

What is emitted is at every moment nothing or an operand of the syntax (`Emitted.Valid`): each
expression is one, and `add_expr` puts an operator before it exactly if something is there already.
-/

namespace Bitmagnet.Fts

open SearchServe (Text)

/-! ## The lexer -/

/-- `QToken`. -/
inductive QToken
  | openParens
  | closeParens
  | and
  | or
  | followedBy
  | negation
  | wildcard
  | quoted (value : Text)
  | phrase (value : Text)
  deriving DecidableEq

/-- `read_quoted`, behind the opening quote: the content and what follows. -/
def readQuoted : Text → Text × Text
  | [] => ([], [])
  | '"' :: '"' :: rest => ('"' :: (readQuoted rest).1, (readQuoted rest).2)
  | '"' :: rest => ([], rest)
  | c :: rest => (c :: (readQuoted rest).1, (readQuoted rest).2)

lemma length_readQuoted (text : Text) : (readQuoted text).2.length ≤ text.length := by
  fun_induction readQuoted text <;> simp_all <;> omega

variable (tables : Tables)

/-- `is_query_word_char`. -/
def isQueryWordChar (c : Char) : Bool := isGoWordChar tables c

/-- `lex_app_query`. -/
def lexAppQuery : Text → List QToken
  | [] => []
  | '(' :: rest => .openParens :: lexAppQuery rest
  | ')' :: rest => .closeParens :: lexAppQuery rest
  | '&' :: rest => .and :: lexAppQuery rest
  | '|' :: rest => .or :: lexAppQuery rest
  | '.' :: rest => .followedBy :: lexAppQuery rest
  | '!' :: rest => .negation :: lexAppQuery rest
  | '*' :: rest => .wildcard :: lexAppQuery rest
  | '"' :: rest =>
    have := length_readQuoted rest
    let later := lexAppQuery (readQuoted rest).2
    if (readQuoted rest).1 = [] then later else .quoted (readQuoted rest).1 :: later
  | c :: rest =>
    if isQueryWordChar tables c then
      have := (List.dropWhile_sublist (isQueryWordChar tables) (l := rest)).length_le
      .phrase (c :: rest.takeWhile (isQueryWordChar tables)) ::
        lexAppQuery (rest.dropWhile (isQueryWordChar tables))
    else lexAppQuery rest
termination_by text => text.length

/-! ## Emitting -/

/-- `quote_lexeme`. -/
def quoteLexeme (word : Text) : Text :=
  if word.all Tsquery.isWordChar then word
  else '\'' :: replaceChar '\'' "''".toList word ++ ['\'']

/-- `PendingOp`. -/
inductive PendingOp
  | and | or | followedBy
  deriving DecidableEq

/-- The state of the loop of `tokens_to_tsquery`. -/
structure Emitted where
  parts : List Text := []
  operator : Option PendingOp := none
  negated : Bool := false

/-- The connective before an operand. -/
def connective : Option PendingOp → Text
  | some .or => ['|']
  | some .followedBy => ['<', '-', '>']
  | _ => ['&']

/-- How far `add_expr` moves the position in the tokens. -/
def skipWildcard : List QToken → List QToken
  | .wildcard :: rest => rest
  | rest => rest

/-- `add_expr`, before the tokens that are left. -/
def addExpr (emitted : Emitted) (expr : Text) (rest : List QToken) : Emitted :=
  let parts := if emitted.parts = [] then [] else emitted.parts ++ [connective emitted.operator]
  let parts := if emitted.negated then parts ++ [['!']] else parts
  let expr := if rest.head? = some .wildcard then expr ++ [':', '*'] else expr
  { parts := parts ++ [expr], operator := none, negated := false }

/-- `collect_parens`, at a depth and behind the opening bracket. -/
def collectParens : Nat → List QToken → List QToken
  | _, [] => []
  | depth, .openParens :: rest => .openParens :: collectParens (depth + 1) rest
  | depth, .closeParens :: rest =>
    if depth = 1 then [] else .closeParens :: collectParens (depth - 1) rest
  | depth, token :: rest => token :: collectParens depth rest

/-- `parts.join`. -/
def joinWith (sep : Text) (parts : List Text) : Text := sep.intercalate parts

lemma length_collectParens (depth : Nat) (rest : List QToken) :
    (collectParens depth rest).length ≤ rest.length := by
  fun_induction collectParens depth rest <;> simp_all

lemma length_skipWildcard (rest : List QToken) : (skipWildcard rest).length ≤ rest.length := by
  unfold skipWildcard
  split <;> simp

/-- The loop of `tokens_to_tsquery`. -/
def tokensLoop (emitted : Emitted) : List QToken → Emitted
  | [] => emitted
  | .and :: rest => tokensLoop { emitted with operator := some .and } rest
  | .or :: rest => tokensLoop { emitted with operator := some .or } rest
  | .followedBy :: rest => tokensLoop { emitted with operator := some .followedBy } rest
  | .negation :: rest => tokensLoop { emitted with negated := true } rest
  | .quoted value :: rest | .phrase value :: rest =>
    let lexemes := tokenizeFlat tables value
    have := length_skipWildcard rest
    if lexemes = [] then tokensLoop emitted rest
    else
      let expr := joinWith " <-> ".toList (lexemes.map quoteLexeme)
      tokensLoop (addExpr emitted expr rest) (skipWildcard rest)
  | .openParens :: rest =>
    let inner := collectParens 1 rest
    have := length_collectParens 1 rest
    let parensExpr := joinWith [' '] (tokensLoop {} inner).parts
    let rest' := rest.drop inner.length
    have := length_skipWildcard rest'
    if parensExpr = [] then tokensLoop emitted rest'
    else tokensLoop (addExpr emitted ('(' :: parensExpr ++ [')']) rest') (skipWildcard rest')
  | .wildcard :: rest | .closeParens :: rest => tokensLoop emitted rest
termination_by tokens => tokens.length
decreasing_by all_goals grind

/-- `tokens_to_tsquery`. -/
def tokensToTsquery (tokens : List QToken) : Text := joinWith [' '] (tokensLoop tables {} tokens).parts

/-- `app_query_to_tsquery`. -/
def appQueryToTsquery (raw : Text) : Text := tokensToTsquery tables (lexAppQuery tables raw)

/-! ## The text is a query -/

lemma joinWith_cons (sep text : Text) {parts : List Text} (h : parts ≠ []) :
    joinWith sep (text :: parts) = text ++ sep ++ joinWith sep parts := by
  obtain ⟨next, parts, rfl⟩ := List.exists_cons_of_ne_nil h
  exact List.intercalate_cons_cons

lemma joinWith_concat (sep text : Text) {parts : List Text} (h : parts ≠ []) :
    joinWith sep (parts ++ [text]) = joinWith sep parts ++ sep ++ text := by
  induction parts with
  | nil => exact absurd rfl h
  | cons first parts ih =>
    cases parts with
    | nil => simp [joinWith]
    | cons next parts =>
      rw [List.cons_append, joinWith_cons _ _ (by simp), ih (by simp),
        joinWith_cons sep first (List.cons_ne_nil next parts)]
      simp only [List.append_assoc]

/-- What `quote_lexeme` makes of a token is a lexeme of the syntax. -/
lemma lexeme_quoteLexeme {word : Text} (hne : word ≠ []) (h : ∀ c ∈ word, Plain c) :
    Tsquery.Lexeme (quoteLexeme word) := by
  unfold quoteLexeme
  split
  · next hword => exact Tsquery.lexeme_word hne (List.all_eq_true.mp hword)
  · obtain ⟨c, rest, rfl⟩ := List.exists_cons_of_ne_nil hne
    have hquote : c ≠ '\'' := (h c List.mem_cons_self).1
    exact Tsquery.lexeme_quoted hquote fun hmem => (h _ hmem).2 rfl

lemma lexeme_joinWith {words : List Text} (hne : words ≠ [])
    (h : ∀ word ∈ words, Tsquery.Lexeme word) :
    Tsquery.Lexeme (joinWith " <-> ".toList words) := by
  induction words with
  | nil => exact absurd rfl hne
  | cons word words ih =>
    obtain ⟨hword, hwords⟩ := List.forall_mem_cons.mp h
    cases words with
    | nil => simpa [joinWith] using hword
    | cons next words =>
      rw [joinWith_cons _ _ (by simp)]
      have hop : Tsquery.isOperator ['<', '-', '>'] = true := rfl
      simpa using hword.operand.join_lexeme hop (ih (by simp) hwords)

lemma isOperator_connective (operator : Option PendingOp) :
    Tsquery.isOperator (connective operator) = true := by
  rcases operator with _ | _ | _ | _ <;> rfl

/-- Nothing has been emitted, or an operand. -/
def Emitted.Valid (emitted : Emitted) : Prop :=
  emitted.parts = [] ∨ Tsquery.Operand (joinWith [' '] emitted.parts)

variable {emitted : Emitted}

lemma Emitted.Valid.operand (h : emitted.Valid) (hne : joinWith [' '] emitted.parts ≠ []) :
    Tsquery.Operand (joinWith [' '] emitted.parts) := by
  rcases h with hnil | h
  · exact absurd (by rw [hnil]; rfl) hne
  · exact h

/-- An operand behind what has been emitted, with the operator and the negation before it. -/
lemma operand_emit (h : emitted.Valid) {expr : Text} (hexpr : Tsquery.Operand expr) :
    Tsquery.Operand (joinWith [' ']
      ((if emitted.negated then
          (if emitted.parts = [] then [] else emitted.parts ++ [connective emitted.operator]) ++ [['!']]
        else if emitted.parts = [] then [] else emitted.parts ++ [connective emitted.operator]) ++
        [expr])) := by
  have hnegated : Tsquery.Operand (['!', ' '] ++ expr) := hexpr.negate
  rcases h with hnil | h
  · cases emitted.negated with
    | false => simpa [hnil, joinWith] using hexpr
    | true => simpa [hnil, joinWith] using hnegated
  · by_cases hnil : emitted.parts = []
    · cases emitted.negated with
      | false => simpa [hnil, joinWith] using hexpr
      | true => simpa [hnil, joinWith] using hnegated
    have hop := isOperator_connective emitted.operator
    cases emitted.negated with
    | false =>
      have := h.join hop hexpr
      rw [if_neg Bool.false_ne_true, if_neg hnil, joinWith_concat _ _ (by simp),
        joinWith_concat _ _ hnil]
      simpa using this
    | true =>
      have := h.join hop hnegated
      rw [if_pos rfl, if_neg hnil, joinWith_concat _ _ (by simp), joinWith_concat _ _ (by simp),
        joinWith_concat _ _ hnil]
      simpa using this

/-- `add_expr` keeps what is emitted an operand; a wildcard is read only behind a lexeme. -/
lemma valid_addExpr (h : emitted.Valid) {expr : Text} {rest : List QToken}
    (hexpr : Tsquery.Operand expr) (hwild : rest.head? = some .wildcard → Tsquery.Lexeme expr) :
    (addExpr emitted expr rest).Valid := by
  refine .inr (operand_emit h ?_)
  split
  · next hhead => exact (hwild hhead).starred
  · exact hexpr

/-- Behind the collected tokens stands the closing bracket, or nothing. -/
lemma head_drop_collectParens (depth : Nat) (rest : List QToken) :
    (rest.drop (collectParens depth rest).length).head? ≠ some .wildcard := by
  fun_induction collectParens depth rest <;> simp_all

variable (sections : List (Nat × List Text))

/-- The text of a word run. -/
lemma lexeme_phrase (value : Text) (hne : tokenizeFlat (goTables sections) value ≠ []) :
    Tsquery.Lexeme
      (joinWith " <-> ".toList ((tokenizeFlat (goTables sections) value).map quoteLexeme)) := by
  refine lexeme_joinWith (by simpa using hne) fun word hword => ?_
  obtain ⟨token, htoken, rfl⟩ := List.mem_map.mp hword
  obtain ⟨hnil, hplain⟩ := tokenizeFlat_plain _ token htoken
  exact lexeme_quoteLexeme hnil hplain

-- By the recursion of the loop: each turn adds one expression or changes what is pending, and the
-- tokens in brackets are a run of their own.
lemma valid_tokensLoop (emitted : Emitted) (tokens : List QToken) (h : emitted.Valid) :
    (tokensLoop (goTables sections) emitted tokens).Valid := by
  fun_induction tokensLoop (goTables sections) emitted tokens with
  | case1 => exact h
  | case2 _ _ ih | case3 _ _ ih | case4 _ _ ih | case5 _ _ ih | case12 _ _ ih | case13 _ _ ih =>
    exact ih h
  | case6 _ _ _ _ _ _ ih | case8 _ _ _ _ _ _ ih => exact ih h
  | case7 _ value rest _ _ hne _ ih | case9 _ value rest _ _ hne _ ih =>
    have hlexeme := lexeme_phrase sections value hne
    exact ih (valid_addExpr h hlexeme.operand fun _ => hlexeme)
  | case10 _ _ _ _ _ _ _ _ _ ih => exact ih h
  | case11 _ rest _ _ _ _ _ hne ihInner _ ih =>
    have hinner := (ihInner (.inl rfl)).operand hne
    exact ih (valid_addExpr h hinner.parens fun hhead =>
      absurd hhead (head_drop_collectParens 1 rest))

/-- **Every query compiles to a query of the syntax**, or to nothing: brackets are balanced, an
operator stands between every two operands and nowhere else, a negation only before an operand, `:*`
only behind a lexeme, and each lexeme is a bare word or is quoted. -/
theorem appQueryToTsquery_accepted (raw : Text) :
    appQueryToTsquery (goTables sections) raw = [] ∨
      Tsquery.accepts (appQueryToTsquery (goTables sections) raw) = true := by
  have hvalid := valid_tokensLoop sections {} (lexAppQuery (goTables sections) raw) (.inl rfl)
  by_cases hnil : appQueryToTsquery (goTables sections) raw = []
  · exact .inl hnil
  · exact .inr (hvalid.operand hnil).accepts

end Bitmagnet.Fts
