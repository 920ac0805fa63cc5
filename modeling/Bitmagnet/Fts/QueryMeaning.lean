import Bitmagnet.Library.TsqueryMeaning
import Bitmagnet.Fts.Query

/-!
# What a compiled query means

The application query behind the tokens, as a tree, and its meaning: a word run is one adjacency, a
negation is of the whole operand behind it, a wildcard makes the last lexeme a prefix, and operands
are combined by the last connective before them.

`AppQuery.level` is that meaning and `AppQuery.readLevel` the meaning that the emitted text has when
it is read.  Both take the operands in the same order and with the same operators.  They differ in
one place: the text has no brackets around a word run, so that a negation before it is of the first
lexeme only (`readWords`).  In lawful algebras they are the same exactly if no word run of several
lexemes is negated; an algebra of weights, in which a negation doubles, tells them apart.
-/

namespace Bitmagnet.Fts

open SearchServe (Text)
open Tsquery (Algebra Level Frame Token Lexes LexesWord)

/-! ## The application query -/

mutual

/-- Operands, each with the connective before it and whether it is negated. -/
inductive AppQuery
  | one (isNegated : Bool) (operand : AppOperand)
  | more (query : AppQuery) (operator : Option PendingOp) (isNegated : Bool) (operand : AppOperand)

/-- A word run, with whether a wildcard follows, or a group in brackets. -/
inductive AppOperand
  | phrase (first : Text) (rest : List Text) (starred : Bool)
  | group (query : AppQuery)

end

/-- What has been read of a query, and what is pending before the next operand. -/
structure AppState where
  query : Option AppQuery := none
  operator : Option PendingOp := none
  negated : Bool := false

/-- The next operand. -/
def AppState.add (state : AppState) (operand : AppOperand) : AppState where
  query := some <| match state.query with
    | none => .one state.negated operand
    | some query => .more query state.operator state.negated operand

variable (tables : Tables)

/-- The application query of tokens, behind what has been read. -/
def appQueryLoop (state : AppState) : List QToken → Option AppQuery
  | [] => state.query
  | .and :: rest => appQueryLoop { state with operator := some .and } rest
  | .or :: rest => appQueryLoop { state with operator := some .or } rest
  | .followedBy :: rest => appQueryLoop { state with operator := some .followedBy } rest
  | .negation :: rest => appQueryLoop { state with negated := true } rest
  | .quoted value :: rest | .phrase value :: rest =>
    have := length_skipWildcard rest
    match tokenizeFlat tables value with
    | [] => appQueryLoop state rest
    | first :: later =>
      appQueryLoop (state.add (.phrase first later (rest.head? = some .wildcard)))
        (skipWildcard rest)
  | .openParens :: rest =>
    have := length_collectParens 1 rest
    match appQueryLoop {} (collectParens 1 rest) with
    | none => appQueryLoop state (rest.drop (collectParens 1 rest).length)
    | some group =>
      appQueryLoop (state.add (.group group)) (rest.drop (collectParens 1 rest).length)
  | .wildcard :: rest | .closeParens :: rest => appQueryLoop state rest
termination_by tokens => tokens.length
decreasing_by all_goals grind

/-- The application query of an input. -/
def appQuery (raw : Text) : Option AppQuery := appQueryLoop tables {} (lexAppQuery tables raw)

/-! ## Its meaning -/

/-- The operator of a pending connective. -/
def opOf : Option PendingOp → Tsquery.Op
  | some .or => .or
  | some .followedBy => .followedBy
  | _ => .and

section Meaning

variable {M : Type} (A : Algebra M)

/-- An adjacency of lexemes, of which the last may be a prefix. -/
def phraseMeaning : Text → List Text → Bool → M
  | first, [], starred => A.lexeme first starred
  | first, next :: rest, starred =>
    A.followedBy (A.lexeme first false) (phraseMeaning next rest starred)

/-- A negation, if there is one. -/
def signed (isNegated : Bool) (x : M) : M := if isNegated then A.not x else x

mutual

/-- The meaning of the operands, by the precedence of the connectives. -/
def AppQuery.level : AppQuery → Level M
  | .one isNegated operand => .one (signed A isNegated operand.value)
  | .more query operator isNegated operand =>
    query.level.place A (opOf operator) (signed A isNegated operand.value)

/-- The meaning of an operand. -/
def AppOperand.value : AppOperand → M
  | .phrase first rest starred => phraseMeaning A first rest starred
  | .group query => query.level.value A

end

/-- **The meaning of an application query.** -/
def AppQuery.denotes (query : AppQuery) : M := (query.level A).value A

end Meaning

/-! ## Its text -/

mutual

/-- The parts that are emitted. -/
def AppQuery.parts : AppQuery → List Text
  | .one isNegated operand => (if isNegated then [['!']] else []) ++ [operand.text]
  | .more query operator isNegated operand =>
    query.parts ++ [connective operator] ++ (if isNegated then [['!']] else []) ++ [operand.text]

/-- The expression that is emitted. -/
def AppOperand.text : AppOperand → Text
  | .phrase first rest starred =>
    joinWith " <-> ".toList ((first :: rest).map quoteLexeme) ++
      (if starred then [':', '*'] else [])
  | .group query => '(' :: joinWith [' '] query.parts ++ [')']

end

mutual

/-- The words are those of the tokenizer. -/
def AppQuery.Words : AppQuery → Prop
  | .one _ operand => operand.Words
  | .more query _ _ operand => query.Words ∧ operand.Words

def AppOperand.Words : AppOperand → Prop
  | .phrase first rest _ => ∀ word ∈ first :: rest, word ≠ [] ∧ ∀ c ∈ word, Plain c
  | .group query => query.Words

end

/-! ## The tokens of the text -/

/-- The tokens of a word run. -/
def phraseTokens : Text → List Text → Bool → List Token
  | first, [], starred => [.lexeme first starred]
  | first, next :: rest, starred =>
    .lexeme first false :: .op .followedBy :: phraseTokens next rest starred

mutual

/-- The tokens that the emitted text has. -/
def AppQuery.tokens : AppQuery → List Token
  | .one isNegated operand => (if isNegated then [.not] else []) ++ operand.tokens
  | .more query operator isNegated operand =>
    query.tokens ++ .op (opOf operator) :: (if isNegated then [.not] else []) ++ operand.tokens

def AppOperand.tokens : AppOperand → List Token
  | .phrase first rest starred => phraseTokens first rest starred
  | .group query => .opening :: query.tokens ++ [.closing]

end

lemma lexesWord_quoteLexeme {word : Text} (hne : word ≠ []) (h : ∀ c ∈ word, Plain c) :
    LexesWord (quoteLexeme word) word := by
  unfold quoteLexeme
  split
  · next hword => exact Tsquery.lexesWord_word hne (List.all_eq_true.mp hword)
  · obtain ⟨c, rest, rfl⟩ := List.exists_cons_of_ne_nil hne
    exact Tsquery.lexesWord_quoted (h c List.mem_cons_self).1 fun hmem => (h _ hmem).2 rfl

lemma lexes_connective (operator : Option PendingOp) :
    Lexes (connective operator) [.op (opOf operator)] := by
  intro out
  refine ⟨(.start, out ++ [.op (opOf operator)]), ?_, rfl⟩
  rcases operator with _ | _ | _ | _ <;> rfl

lemma lexes_negation : Lexes ['!'] [.not] := fun out => ⟨(.start, out ++ [.not]), rfl, rfl⟩

lemma lexes_phrase {first : Text} {rest : List Text} (starred : Bool)
    (h : ∀ word ∈ first :: rest, word ≠ [] ∧ ∀ c ∈ word, Plain c) :
    Lexes (joinWith " <-> ".toList ((first :: rest).map quoteLexeme) ++
      (if starred then [':', '*'] else [])) (phraseTokens first rest starred) := by
  induction rest generalizing first with
  | nil =>
    obtain ⟨hne, hplain⟩ := h first List.mem_cons_self
    have hword := lexesWord_quoteLexeme hne hplain
    cases starred with
    | false => simpa [joinWith, phraseTokens] using hword.lexes
    | true => simpa [joinWith, phraseTokens] using hword.starred
  | cons next rest ih =>
    obtain ⟨hne, hplain⟩ := h first List.mem_cons_self
    have hword := (lexesWord_quoteLexeme hne hplain).lexes
    have hrest := ih fun word hmem => h word (List.mem_cons_of_mem _ hmem)
    have hall := hword.space ((lexes_connective (some .followedBy)).space hrest)
    rw [List.map_cons, joinWith_cons _ _ (by simp)]
    simpa [phraseTokens, connective, opOf] using hall

/-- One part more. -/
lemma lexes_joinWith_concat {parts : List Text} {ts us : List Token} {text : Text}
    (hne : parts ≠ []) (hparts : Lexes (joinWith [' '] parts) ts) (htext : Lexes text us) :
    Lexes (joinWith [' '] (parts ++ [text])) (ts ++ us) := by
  rw [joinWith_concat _ _ hne]
  simpa using hparts.space htext

mutual

lemma AppQuery.lexes : ∀ {query : AppQuery}, query.Words →
    Lexes (joinWith [' '] query.parts) query.tokens ∧ query.parts ≠ []
  | .one isNegated operand, h => by
    have hoperand := AppOperand.lexes h
    refine ⟨?_, by simp [AppQuery.parts]⟩
    rw [AppQuery.parts, AppQuery.tokens]
    cases isNegated with
    | false => simpa [joinWith] using hoperand
    | true => simpa [joinWith] using lexes_negation.space hoperand
  | .more query operator isNegated operand, h => by
    obtain ⟨hquery, hne⟩ := AppQuery.lexes h.1
    have hoperand := AppOperand.lexes h.2
    refine ⟨?_, by simp [AppQuery.parts]⟩
    rw [AppQuery.parts, AppQuery.tokens]
    have hop := lexes_joinWith_concat hne hquery (lexes_connective operator)
    cases isNegated with
    | false => simpa using lexes_joinWith_concat (by simp) hop hoperand
    | true =>
      have hnot := lexes_joinWith_concat (by simp) hop lexes_negation
      simpa using lexes_joinWith_concat (by simp) hnot hoperand

lemma AppOperand.lexes : ∀ {operand : AppOperand}, operand.Words → Lexes operand.text operand.tokens
  | .phrase first rest starred, h => by
    rw [AppOperand.text, AppOperand.tokens]
    exact lexes_phrase starred h
  | .group query, h => by
    rw [AppOperand.text, AppOperand.tokens]
    exact (AppQuery.lexes h).1.parens

end

lemma AppOperand.tokens_ne_nil : ∀ operand : AppOperand, operand.tokens ≠ []
  | .phrase _ [] _ => by simp [AppOperand.tokens, phraseTokens]
  | .phrase _ (_ :: _) _ => by simp [AppOperand.tokens, phraseTokens]
  | .group _ => by simp [AppOperand.tokens]

lemma AppQuery.tokens_ne_nil : ∀ query : AppQuery, query.tokens ≠ []
  | .one _ operand => by
    rw [AppQuery.tokens]
    exact List.append_ne_nil_of_right_ne_nil _ operand.tokens_ne_nil
  | .more query _ _ _ => by simp [AppQuery.tokens]

/-- A query has a text. -/
lemma AppQuery.joinWith_ne_nil {query : AppQuery} (h : query.Words) :
    joinWith [' '] query.parts ≠ [] := by
  intro hnil
  obtain ⟨s, hrun, hsettle⟩ := (AppQuery.lexes h).1 []
  rw [hnil] at hrun
  cases hrun
  exact query.tokens_ne_nil (Option.some.inj hsettle).symm

/-! ## The compiler emits the query -/

variable (sections : List (Nat × List Text))

/-- What the compiler has emitted is what has been read of the query, with the same pending. -/
structure Emitted.Renders (emitted : Emitted) (state : AppState) : Prop where
  parts_eq : emitted.parts = state.query.elim [] AppQuery.parts
  operator_eq : emitted.operator = state.operator
  negated_eq : emitted.negated = state.negated
  words : ∀ query ∈ state.query, query.Words

variable {sections} {emitted : Emitted} {state : AppState}

/-- `add_expr` emits the next operand. -/
lemma Emitted.Renders.add (h : emitted.Renders state) {operand : AppOperand}
    (hwords : operand.Words) {expr : Text} {rest : List QToken}
    (hexpr : (if rest.head? = some .wildcard then expr ++ [':', '*'] else expr) = operand.text) :
    (addExpr emitted expr rest).Renders (state.add operand) := by
  obtain ⟨query, operator, negated⟩ := state
  obtain ⟨hparts, hoperator, hnegated, hquery⟩ := h
  cases query with
  | none =>
    have hparts : emitted.parts = [] := hparts
    refine ⟨?_, rfl, rfl, ?_⟩
    · simp only [addExpr, hexpr, hparts, hnegated]
      cases negated <;> rfl
    · rintro query ⟨⟩
      exact hwords
  | some query =>
    have hwords' := hquery query rfl
    have hparts : emitted.parts = query.parts := hparts
    have hne : query.parts ≠ [] := (AppQuery.lexes hwords').2
    refine ⟨?_, rfl, rfl, ?_⟩
    · simp only [addExpr, hexpr, hparts, hnegated, if_neg hne, hoperator]
      cases negated <;> simp [AppState.add, AppQuery.parts]
    · rintro query' ⟨⟩
      exact ⟨hwords', hwords⟩

lemma Emitted.Renders.add_phrase (h : emitted.Renders state) {value first : Text}
    {later : List Text} (hvalue : tokenizeFlat (goTables sections) value = first :: later)
    (rest : List QToken) :
    (addExpr emitted (joinWith " <-> ".toList ((first :: later).map quoteLexeme)) rest).Renders
      (state.add (.phrase first later (rest.head? = some .wildcard))) := by
  have hwords : (AppOperand.phrase first later (rest.head? = some .wildcard)).Words := by
    intro word hword
    rw [← hvalue] at hword
    exact tokenizeFlat_plain _ word hword
  refine h.add hwords ?_
  rw [AppOperand.text]
  by_cases hhead : rest.head? = some .wildcard
  · simp [hhead]
  · simp [hhead]

lemma skipWildcard_eq {rest : List QToken} (h : rest.head? ≠ some .wildcard) :
    skipWildcard rest = rest := by
  cases rest with
  | nil => rfl
  | cons token rest =>
    cases token <;> first | rfl | exact absurd rfl h

/-- **The text is that of the application query.** -/
lemma tokensLoop_renders (sections : List (Nat × List Text)) (state : AppState)
    (tokens : List QToken) (h : emitted.Renders state) :
    (tokensLoop (goTables sections) emitted tokens).parts =
        (appQueryLoop (goTables sections) state tokens).elim [] AppQuery.parts ∧
      ∀ query ∈ appQueryLoop (goTables sections) state tokens, query.Words := by
  have hstart : ({} : Emitted).Renders {} := ⟨rfl, rfl, rfl, nofun⟩
  fun_induction appQueryLoop (goTables sections) state tokens generalizing emitted with
  | case1 state =>
    rw [tokensLoop]
    exact ⟨h.parts_eq, h.words⟩
  | case2 state rest ih | case3 state rest ih | case4 state rest ih =>
    rw [tokensLoop]
    exact ih ⟨h.parts_eq, rfl, h.negated_eq, h.words⟩
  | case5 state rest ih =>
    rw [tokensLoop]
    exact ih ⟨h.parts_eq, h.operator_eq, rfl, h.words⟩
  | case6 state value rest _ hnil ih | case8 state value rest _ hnil ih =>
    rw [tokensLoop, if_pos hnil]
    exact ih h
  | case7 state value rest _ first later hvalue ih
  | case9 state value rest _ first later hvalue ih =>
    rw [tokensLoop, if_neg (by rw [hvalue]; simp), hvalue]
    exact ih (h.add_phrase hvalue rest)
  | case10 state rest _ hnone ihInner ih =>
    have hinner := (ihInner hstart).1
    rw [hnone] at hinner
    rw [tokensLoop, hinner, if_pos (by simp [joinWith])]
    exact ih h
  | case11 state rest _ query hsome ihInner ih =>
    obtain ⟨hinner, hwords⟩ := ihInner hstart
    rw [hsome] at hinner hwords
    rw [Option.elim_some] at hinner
    have hwords := hwords query rfl
    have hhead := head_drop_collectParens 1 rest
    rw [tokensLoop, hinner, if_neg (AppQuery.joinWith_ne_nil hwords), skipWildcard_eq hhead]
    have hgroup : (AppOperand.group query).Words := hwords
    refine ih (h.add hgroup ?_)
    rw [if_neg hhead, AppOperand.text]
  | case12 state rest ih | case13 state rest ih =>
    rw [tokensLoop]
    exact ih h

/-! ## How the text is read -/

section

variable {M : Type} (A : Algebra M)

/-- How a word run is read behind a frame: its lexemes one by one, so that the negations of the
frame are of the first. -/
def readWords (frame : Frame M) (first : Text) (rest : List Text) (starred : Bool) : Level M :=
  match rest with
  | [] => frame.place A (A.lexeme first starred)
  | next :: rest =>
    readWords ⟨some (frame.place A (A.lexeme first false), .followedBy), 0⟩ next rest starred

mutual

/-- How the text of a query is read. -/
def AppQuery.readLevel : AppQuery → Level M
  | .one isNegated operand => operand.readBehind ⟨none, isNegated.toNat⟩
  | .more query operator isNegated operand =>
    operand.readBehind ⟨some (query.readLevel, opOf operator), isNegated.toNat⟩

/-- How the text of an operand is read. -/
def AppOperand.readBehind (frame : Frame M) : AppOperand → Level M
  | .phrase first rest starred => readWords A frame first rest starred
  | .group query => frame.place A (query.readLevel.value A)

end

lemma readRun_phraseTokens (frame : Frame M) (stack : List (Frame M)) (first : Text)
    (rest : List Text) (starred : Bool) :
    Tsquery.readRun A (.before frame, stack) (phraseTokens first rest starred) =
      some (.behind (readWords A frame first rest starred), stack) := by
  induction rest generalizing first frame with
  | nil => rfl
  | cons next rest ih =>
    rw [phraseTokens, Tsquery.readRun_cons, Tsquery.readStep, Option.bind_some,
      Tsquery.readRun_cons, Tsquery.readStep, Option.bind_some, ih]
    rfl

lemma readRun_negation (before : Option (Level M × Tsquery.Op)) (stack : List (Frame M))
    (isNegated : Bool) (tokens : List Token) :
    Tsquery.readRun A (.before ⟨before, 0⟩, stack) ((if isNegated then [.not] else []) ++ tokens) =
      Tsquery.readRun A (.before ⟨before, isNegated.toNat⟩, stack) tokens := by
  cases isNegated <;> rfl

mutual

lemma AppQuery.readRun_tokens : ∀ (query : AppQuery) (stack : List (Frame M)),
    Tsquery.readRun A (.before ⟨none, 0⟩, stack) query.tokens =
      some (.behind (query.readLevel A), stack)
  | .one isNegated operand, stack => by
    rw [AppQuery.tokens, AppQuery.readLevel, readRun_negation]
    exact operand.readRun_tokens _ stack
  | .more query operator isNegated operand, stack => by
    rw [AppQuery.tokens, AppQuery.readLevel, List.append_assoc, Tsquery.readRun_append,
      query.readRun_tokens stack, Option.bind_some, List.cons_append, Tsquery.readRun_cons,
      Tsquery.readStep, Option.bind_some, readRun_negation]
    exact operand.readRun_tokens _ stack

lemma AppOperand.readRun_tokens : ∀ (operand : AppOperand) (frame : Frame M)
    (stack : List (Frame M)),
    Tsquery.readRun A (.before frame, stack) operand.tokens =
      some (.behind (operand.readBehind A frame), stack)
  | .phrase first rest starred, frame, stack => by
    rw [AppOperand.tokens, AppOperand.readBehind]
    exact readRun_phraseTokens A frame stack first rest starred
  | .group query, frame, stack => by
    rw [AppOperand.tokens, AppOperand.readBehind, List.cons_append, Tsquery.readRun_cons,
      Tsquery.readStep, Option.bind_some, Tsquery.readRun_append, query.readRun_tokens,
      Option.bind_some, Tsquery.readRun_cons, Tsquery.readStep]
    rfl

end

/-- The meaning of the emitted text. -/
lemma meaning_appQueryToTsquery (sections : List (Nat × List Text)) (raw : Text) :
    Tsquery.meaning A (appQueryToTsquery (goTables sections) raw) =
      (appQuery (goTables sections) raw).map fun query => (query.readLevel A).value A := by
  have hstart : ({} : Emitted).Renders {} := ⟨rfl, rfl, rfl, nofun⟩
  obtain ⟨hparts, hwords⟩ :=
    tokensLoop_renders sections {} (lexAppQuery (goTables sections) raw) hstart
  unfold appQueryToTsquery tokensToTsquery appQuery
  rw [hparts]
  cases hquery : appQueryLoop (goTables sections) {} (lexAppQuery (goTables sections) raw) with
  | none => rfl
  | some query =>
    have hwords := hwords query hquery
    exact Tsquery.meaning_eq (AppQuery.lexes hwords).1 (query.readRun_tokens A [])

end

/-! ## When both agree -/

mutual

/-- No word run of several lexemes is negated. -/
def AppQuery.singleNegations : AppQuery → Bool
  | .one isNegated operand => operand.singleBehind isNegated
  | .more query _ isNegated operand => query.singleNegations && operand.singleBehind isNegated

/-- A word run behind a negation has one lexeme. -/
def AppOperand.singleBehind (isNegated : Bool) : AppOperand → Bool
  | .phrase _ rest _ => !isNegated || rest.isEmpty
  | .group query => query.singleNegations

end

section Agree

variable {M : Type} {A : Algebra M}

/-- Without negations, a word run is read as one operand. -/
lemma readWords_eq (lawful : A.Lawful) (frame : Frame M) (h : frame.negations = 0) (first : Text)
    (rest : List Text) (starred : Bool) :
    readWords A frame first rest starred = frame.place A (phraseMeaning A first rest starred) := by
  induction rest generalizing first frame with
  | nil => rfl
  | cons next rest ih =>
    rw [readWords, ih _ rfl, phraseMeaning, ← frame.place_followedBy lawful h]
    rfl

lemma framePlace_toNat (before : Option (Level M × Tsquery.Op)) (isNegated : Bool) (x : M) :
    Frame.place A ⟨before, isNegated.toNat⟩ x =
      Frame.place A ⟨before, 0⟩ (signed A isNegated x) := by
  cases isNegated <;> rfl

mutual

lemma AppQuery.readLevel_eq (lawful : A.Lawful) : ∀ {query : AppQuery},
    query.singleNegations = true → query.readLevel A = query.level A
  | .one isNegated operand, h => by
    rw [AppQuery.readLevel, AppQuery.level, AppOperand.readBehind_eq lawful h]
    rfl
  | .more query operator isNegated operand, h => by
    rw [AppQuery.singleNegations, Bool.and_eq_true] at h
    rw [AppQuery.readLevel, AppQuery.level, AppOperand.readBehind_eq lawful h.2,
      AppQuery.readLevel_eq lawful h.1]
    rfl

lemma AppOperand.readBehind_eq (lawful : A.Lawful) : ∀ {operand : AppOperand} {isNegated : Bool}
    {before : Option (Level M × Tsquery.Op)}, operand.singleBehind isNegated = true →
    operand.readBehind A ⟨before, isNegated.toNat⟩ =
      Frame.place A ⟨before, 0⟩ (signed A isNegated (operand.value A))
  | .phrase first rest starred, false, before, h => by
    rw [AppOperand.readBehind, AppOperand.value, ← framePlace_toNat]
    exact readWords_eq lawful _ rfl first rest starred
  | .phrase first rest starred, true, before, h => by
    obtain rfl : rest = [] := by simpa [AppOperand.singleBehind] using h
    rw [AppOperand.readBehind, AppOperand.value, ← framePlace_toNat]
    rfl
  | .group query, isNegated, before, h => by
    rw [AppOperand.readBehind, AppOperand.value, ← framePlace_toNat, AppQuery.readLevel_eq lawful h]

end

end Agree

/-! ## When they differ -/

/-- The weight of a query: every lexeme counts one, and a negation doubles. -/
def weights : Algebra Nat := ⟨fun _ _ => 1, fun x => 2 * x, fun x y => x + y, fun x y => x + y,
  fun x y => x + y⟩

lemma weights_lawful : weights.Lawful := Nat.add_assoc

/-- The weight of what stands before an operand. -/
def frameWeight (before : Option (Level Nat × Tsquery.Op)) : Nat :=
  before.elim 0 fun level => level.1.value weights

lemma value_place (level : Level Nat) (o : Tsquery.Op) (x : Nat) :
    (level.place weights o x).value weights = level.value weights + x := by
  obtain ⟨_ | d, _ | c, p⟩ := level <;> cases o <;>
    simp [Level.place, Level.value, Tsquery.joined, weights] <;> omega

lemma value_framePlace (frame : Frame Nat) (x : Nat) :
    (frame.place weights x).value weights =
      frameWeight frame.before + Tsquery.negated weights frame.negations x := by
  obtain ⟨_ | ⟨level, o⟩, negations⟩ := frame
  · exact (Nat.zero_add _).symm
  · exact value_place level o _

lemma value_readWords (frame : Frame Nat) (first : Text) (rest : List Text) (starred : Bool) :
    (readWords weights frame first rest starred).value weights =
      frameWeight frame.before + Tsquery.negated weights frame.negations 1 + rest.length := by
  induction rest generalizing first frame with
  | nil => exact value_framePlace frame 1
  | cons next rest ih =>
    have hfirst := value_framePlace frame 1
    rw [readWords, ih]
    show (frame.place weights 1).value weights + 1 + rest.length = _
    rw [hfirst, List.length_cons]
    omega

lemma phraseMeaning_weights (first : Text) (rest : List Text) (starred : Bool) :
    phraseMeaning weights first rest starred = rest.length + 1 := by
  induction rest generalizing first with
  | nil => rfl
  | cons next rest ih =>
    rw [phraseMeaning, ih, List.length_cons]
    exact Nat.add_comm 1 _

/-- The first weight is at most the second, and less if something is lost. -/
def Loses (lost : Bool) (x y : Nat) : Prop := x ≤ y ∧ (lost = true → x < y)

mutual

-- By the shape of the query.  The weights of the operands add up, so what one of them loses is lost
-- by the whole.
lemma AppQuery.loses : ∀ query : AppQuery,
    Loses (!query.singleNegations) ((query.readLevel weights).value weights)
      ((query.level weights).value weights)
  | .one isNegated operand => by
    have h := operand.loses isNegated none
    rw [frameWeight, Option.elim_none, Nat.zero_add] at h
    exact h
  | .more query operator isNegated operand => by
    obtain ⟨hle, hlt⟩ := query.loses
    obtain ⟨hle', hlt'⟩ := operand.loses isNegated (some (query.readLevel weights, opOf operator))
    simp only [frameWeight, Option.elim_some] at hle' hlt'
    rw [AppQuery.readLevel, AppQuery.level, AppQuery.singleNegations, value_place]
    refine ⟨by omega, fun hlost => ?_⟩
    rw [Bool.not_and, Bool.or_eq_true] at hlost
    rcases hlost with hlost | hlost
    · have := hlt hlost
      omega
    · have := hlt' hlost
      omega

lemma AppOperand.loses : ∀ (operand : AppOperand) (isNegated : Bool)
    (before : Option (Level Nat × Tsquery.Op)),
    Loses (!operand.singleBehind isNegated)
      ((operand.readBehind weights ⟨before, isNegated.toNat⟩).value weights)
      (frameWeight before + signed weights isNegated (operand.value weights))
  | .phrase first rest starred, false, before => by
    rw [AppOperand.readBehind, AppOperand.value, value_readWords, phraseMeaning_weights]
    show Loses false (frameWeight before + 1 + rest.length) (frameWeight before + (rest.length + 1))
    exact ⟨by omega, nofun⟩
  | .phrase first rest starred, true, before => by
    rw [AppOperand.readBehind, AppOperand.value, value_readWords, phraseMeaning_weights]
    show Loses (!(false || rest.isEmpty)) (frameWeight before + 2 * 1 + rest.length)
      (frameWeight before + 2 * (rest.length + 1))
    refine ⟨by omega, fun hlost => ?_⟩
    have hpos : 0 < rest.length := by
      cases rest with
      | nil => cases hlost
      | cons word rest => exact Nat.succ_pos _
    omega
  | .group query, isNegated, before => by
    obtain ⟨hle, hlt⟩ := query.loses
    rw [AppOperand.readBehind, AppOperand.value, value_framePlace, AppOperand.singleBehind]
    generalize (query.readLevel weights).value weights = x at hle hlt ⊢
    generalize (query.level weights).value weights = y at hle hlt ⊢
    cases isNegated with
    | false =>
      show Loses _ (frameWeight before + x) (frameWeight before + y)
      exact ⟨Nat.add_le_add_left hle _, fun hlost => Nat.add_lt_add_left (hlt hlost) _⟩
    | true =>
      show Loses _ (frameWeight before + 2 * x) (frameWeight before + 2 * y)
      refine ⟨by omega, fun hlost => ?_⟩
      have := hlt hlost
      omega

end

/-! ## The meaning of compiled queries -/

end Bitmagnet.Fts
