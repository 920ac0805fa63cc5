import Bitmagnet.Library.SqlLexer

/-!
# Conditions and their grammar

Expressions as they stand in a `WHERE` clause, and the parser for them by PostgreSQL's precedence:
from loosest to tightest `OR`, `AND`, `NOT`, `IS`, the comparisons (not associative), `IN`, every
other operator, the sign, `::`, subscripts.  The parser reads an operand and then what may follow it at the
level it was asked for; its fuel bounds the number of tokens.

`Operand level bound tokens e` says what it takes to use a piece of a token list as an operand: the
piece reads as `e` at any level up to `level`, provided that what follows binds no tighter than
`bound`.  An atom is an operand of any level before anything; a conjunction is one of level `and`
before anything that binds no tighter.  One lemma for each production puts operands together, and
`chain` does it for a conjunction or a disjunction of any length.
-/

namespace Sql

/-- An expression. -/
inductive Expr
  | bool (value : Bool)
  | column (table name : List Char)
  | param (index : Nat)
  | number (digits : List Char)
  | string (value : List Char)
  | neg (operand : Expr)
  | cast (operand : Expr) (type : List Char) (array : Bool)
  | binary (name : List Char) (left right : Expr)
  | isNull (operand : Expr) (negated : Bool)
  | isIn (operand : Expr) (items : List Expr)
  | not (operand : Expr)
  | and (left right : Expr)
  | or (left right : Expr)
  /-- `EXISTS (SELECT 1 FROM table WHERE condition)`. -/
  | existsIn (table : List Char) (condition : Expr)

/-! ## The parser -/

/-- What joins two operands, or follows one. -/
inductive Joint
  | or
  | and
  | isTest
  | compare (name : List Char)
  | inList
  | other (name : List Char)
  | cast
  | subscript

/-- How tightly it binds. -/
def Joint.level : Joint → Nat
  | .or => 1
  | .and => 2
  | .isTest => 4
  | .compare _ => 5
  | .inList => 6
  | .other _ => 7
  | .cast => 9
  | .subscript => 10

/-- `NOT` binds between `AND` and `IS`. -/
def notLevel : Nat := 3

/-- A sign binds between the operators and `::`. -/
def signLevel : Nat := 8

/-- Above every level. -/
def topLevel : Nat := 11

/-- How tightly the next joint may bind: the comparisons do not associate. -/
def Joint.after : Joint → Nat
  | .compare _ => 4
  | j => j.level

def isComparison (name : List Char) : Bool :=
  ["=", "<", ">", "<=", ">=", "<>", "!="].any (·.toList = name)

def joint? : Token → Option Joint
  | .word word =>
    if word = "or".toList then some .or
    else if word = "and".toList then some .and
    else if word = "is".toList then some .isTest
    else if word = "in".toList then some .inList
    else none
  | .op name => if isComparison name then some (.compare name) else some (.other name)
  | .cast => some .cast
  | .punct c => if c = '[' then some .subscript else none
  | _ => none

/-- The joint that a token list starts with, and the rest. -/
def next? : List Token → Option (Joint × List Token)
  | [] => none
  | t :: ts => (joint? t).map (·, ts)

/-- How tightly a token list binds to what is before it. -/
def levelOf (ts : List Token) : Nat := ((next? ts).map fun r => r.1.level).getD 0

/-- Take fixed tokens off the front. -/
def strip : List Token → List Token → Option (List Token)
  | [], ts => some ts
  | _ :: _, [] => none
  | p :: ps, t :: ts => if t = p then strip ps ts else none

def openBracket : Token := .punct '('

def closeBracket : Token := .punct ')'

/-- `[]` of an array type. -/
def arrayMark : List Token := [.punct '[', .punct ']']

/-- What stands between `EXISTS` and the name of the table. -/
def existsHead : List Token :=
  [openBracket, .word "select".toList, .number ['1'], .word "from".toList]

/-- An operand, with how tightly what follows it may bind.  `parse` reads a nested expression. -/
def operand (parse : Nat → List Token → Option (Expr × List Token)) :
    List Token → Option (Expr × Nat × List Token)
  | .param index :: ts => some (.param index, topLevel, ts)
  | .number digits :: ts => some (.number digits, topLevel, ts)
  | .string value :: ts => some (.string value, topLevel, ts)
  | .op name :: ts =>
    if name = ['-'] then (parse signLevel ts).map fun r => (.neg r.1, signLevel - 1, r.2)
    else none
  | .punct c :: ts =>
    if c = '(' then
      (parse 1 ts).bind fun r =>
        (strip [closeBracket] r.2).map fun rest => (r.1, topLevel, rest)
    else none
  | .word word :: ts =>
    if word = "not".toList then
      (parse notLevel ts).map fun r => (.not r.1, notLevel - 1, r.2)
    else if word = "true".toList then some (.bool true, topLevel, ts)
    else if word = "false".toList then some (.bool false, topLevel, ts)
    else if word = "exists".toList then
      match strip existsHead ts with
      | some (.word table :: ts) =>
        (strip [.word "where".toList] ts).bind fun ts =>
          (parse 1 ts).bind fun r =>
            (strip [closeBracket] r.2).map fun rest => (.existsIn table r.1, topLevel, rest)
      | _ => none
    else
      match strip [.punct '.'] ts with
      | some (.word name :: rest) => some (.column word name, topLevel, rest)
      | _ => none
  | _ => none

/-- A joint with what it needs behind it.  Subscripts are not modelled. -/
def continued (parse : Nat → List Token → Option (Expr × List Token))
    (items : List Token → Option (List Expr × List Token)) (left : Expr) (ts : List Token) :
    Joint → Option (Expr × List Token)
  | .or => (parse 2 ts).map fun r => (.or left r.1, r.2)
  | .and => (parse 3 ts).map fun r => (.and left r.1, r.2)
  | .compare name => (parse 6 ts).map fun r => (.binary name left r.1, r.2)
  | .other name => (parse 8 ts).map fun r => (.binary name left r.1, r.2)
  | .isTest =>
    match strip [.word "null".toList] ts with
    | some rest => some (.isNull left false, rest)
    | none =>
      (strip [.word "not".toList, .word "null".toList] ts).map fun rest =>
        (.isNull left true, rest)
  | .inList =>
    (strip [openBracket] ts).bind fun ts => (items ts).map fun r => (.isIn left r.1, r.2)
  | .cast =>
    match ts with
    | .word type :: ts =>
      match strip arrayMark ts with
      | some rest => some (.cast left type true, rest)
      | none => some (.cast left type false, ts)
    | _ => none
  | .subscript => none

mutual

/-- An expression at a level. -/
def parse : Nat → Nat → List Token → Option (Expr × List Token)
  | 0, _, _ => none
  | fuel + 1, level, ts =>
    (operand (parse fuel) ts).bind fun r => continueWith fuel level r.2.1 r.1 r.2.2

/-- What follows an operand: joints of at least `level` and at most `bound`. -/
def continueWith : Nat → Nat → Nat → Expr → List Token → Option (Expr × List Token)
  | 0, _, _, _, _ => none
  | fuel + 1, level, bound, left, ts =>
    match next? ts with
    | none => some (left, ts)
    | some (j, rest) =>
      if level ≤ j.level ∧ j.level ≤ bound then
        (continued (parse fuel) (parseItems fuel) left rest j).bind fun r =>
          continueWith fuel level j.after r.1 r.2
      else some (left, ts)

/-- The items of a list, up to its closing bracket. -/
def parseItems : Nat → List Token → Option (List Expr × List Token)
  | 0, _ => none
  | fuel + 1, ts =>
    (parse fuel 1 ts).bind fun r =>
      match strip [closeBracket] r.2 with
      | some rest => some ([r.1], rest)
      | none =>
        (strip [.punct ','] r.2).bind fun ts =>
          (parseItems fuel ts).map fun s => (r.1 :: s.1, s.2)

end

/-- The expression that a token list is. -/
def parseExpr (ts : List Token) : Option Expr :=
  match parse (ts.length + 1) 1 ts with
  | some (e, []) => some e
  | _ => none

/-! ## Operands -/

/-- The piece reads as `e` at every level up to `level`, when what follows binds no tighter than
`bound`. -/
def Operand (level bound : Nat) (tokens : List Token) (e : Expr) : Prop :=
  ∀ asked ≤ level, ∀ rest, levelOf rest ≤ bound → ∀ fuel, (tokens ++ rest).length < fuel →
    ∃ fuel' allowed, rest.length < fuel' ∧ bound ≤ allowed ∧
      parse fuel asked (tokens ++ rest) = continueWith fuel' asked allowed e rest

variable {level bound : Nat} {tokens : List Token} {e : Expr} {level' fuel : Nat} {j : Joint}
  {t : Token} {es : List Expr} {parts : List (List Token)}

lemma Operand.weaken (h : Operand level bound tokens e) {bound' : Nat} (hlevel : level' ≤ level)
    (hbound : bound' ≤ bound) : Operand level' bound' tokens e := by
  intro asked hasked rest hrest fuel hfuel
  obtain ⟨fuel', allowed, hfuel', hallowed, hparse⟩ :=
    h asked (hasked.trans hlevel) rest (hrest.trans hbound) fuel hfuel
  exact ⟨fuel', allowed, hfuel', hbound.trans hallowed, hparse⟩

/-- Nothing that follows belongs to the expression. -/
lemma continueWith_stop {rest : List Token} {asked : Nat} (hrest : levelOf rest < asked)
    (hfuel : rest.length < fuel) (allowed : Nat) (e : Expr) :
    continueWith fuel asked allowed e rest = some (e, rest) := by
  obtain ⟨fuel, rfl⟩ : ∃ n, fuel = n + 1 := ⟨fuel - 1, by omega⟩
  rw [continueWith]
  cases hnext : next? rest with
  | none => rfl
  | some r =>
    have hlt : ¬asked ≤ r.1.level := by
      rw [levelOf, hnext] at hrest
      exact Nat.not_le.mpr hrest
    simp [hlt]

/-- An operand that is not continued is read to its end. -/
lemma Operand.parse_eq (h : Operand level bound tokens e) {asked : Nat} (hasked : asked ≤ level)
    {rest : List Token} (hbound : levelOf rest ≤ bound) (hrest : levelOf rest < asked)
    (hfuel : (tokens ++ rest).length < fuel) :
    parse fuel asked (tokens ++ rest) = some (e, rest) := by
  obtain ⟨fuel', allowed, hfuel', -, hparse⟩ := h asked hasked rest hbound fuel hfuel
  rw [hparse, continueWith_stop hrest hfuel']

lemma Operand.parseExpr_eq (h : Operand level bound tokens e) (hlevel : 1 ≤ level) :
    parseExpr tokens = some e := by
  have hread : parse (tokens.length + 1) 1 (tokens ++ []) = some (e, []) :=
    have hzero : levelOf [] = 0 := rfl
    h.parse_eq hlevel (by omega) (by omega) (by simp)
  rw [List.append_nil] at hread
  rw [parseExpr, hread]

/-- A first token that an operand is read from. -/
lemma operand_of (hpos : 0 < tokens.length) {allowed : Nat}
    (h : ∀ rest, levelOf rest ≤ bound → ∀ fuel, (tokens ++ rest).length ≤ fuel →
      operand (parse fuel) (tokens ++ rest) = some (e, allowed, rest)) (hbound : bound ≤ allowed) :
    Operand level bound tokens e := by
  intro asked _ rest hrest fuel hfuel
  obtain ⟨fuel, rfl⟩ : ∃ n, fuel = n + 1 := ⟨fuel - 1, by omega⟩
  refine ⟨fuel, allowed, ?_, hbound, ?_⟩
  · rw [List.length_append] at hfuel
    omega
  · rw [parse, h rest hrest fuel (by omega), Option.bind_some]

/-! ### Atoms -/

lemma operand_bool (value : Bool) :
    Operand level topLevel [.word (if value then "true" else "false").toList] (.bool value) := by
  refine operand_of (by simp) (fun rest _ fuel _ => ?_) le_rfl
  cases value <;> rfl

lemma operand_param (index : Nat) : Operand level topLevel [.param index] (.param index) :=
  operand_of (by simp) (fun _ _ _ _ => rfl) le_rfl

lemma operand_number (digits : List Char) :
    Operand level topLevel [.number digits] (.number digits) :=
  operand_of (by simp) (fun _ _ _ _ => rfl) le_rfl

lemma operand_string (value : List Char) : Operand level topLevel [.string value] (.string value) :=
  operand_of (by simp) (fun _ _ _ _ => rfl) le_rfl

/-- Words that start something else than a column. -/
def isReserved (word : List Char) : Bool :=
  ["not", "true", "false", "exists"].any (·.toList = word)

lemma operand_column {table : List Char} (htable : isReserved table = false) (name : List Char) :
    Operand level topLevel [.word table, .punct '.', .word name] (.column table name) := by
  refine operand_of (by simp) (fun rest _ fuel _ => ?_) le_rfl
  simp only [isReserved, List.any_cons, List.any_nil, Bool.or_false, Bool.or_eq_false_iff,
    decide_eq_false_iff_not] at htable
  obtain ⟨hnot, htrue, hfalse, hexists⟩ := htable
  show operand (parse fuel) (.word table :: .punct '.' :: .word name :: rest) = _
  rw [operand, if_neg (Ne.symm hnot), if_neg (Ne.symm htrue), if_neg (Ne.symm hfalse),
    if_neg (Ne.symm hexists)]
  rfl

/-! ### Brackets, negation, sign -/

lemma strip_append (ps ts : List Token) : strip ps (ps ++ ts) = some ts := by
  induction ps with
  | nil => rfl
  | cons p ps ih => simpa [strip] using ih

section

variable (h : Operand level bound tokens e)
include h

/-- What is read up to a closing bracket. -/
lemma Operand.parse_closed (hlevel : 1 ≤ level) (rest : List Token)
    (hfuel : (tokens ++ closeBracket :: rest).length < fuel) :
    parse fuel 1 (tokens ++ closeBracket :: rest) = some (e, closeBracket :: rest) :=
  have hzero : levelOf (closeBracket :: rest) = 0 := rfl
  h.parse_eq hlevel (by omega) (by omega) hfuel

lemma Operand.paren (hlevel : 1 ≤ level) :
    Operand level' topLevel (openBracket :: tokens ++ [closeBracket]) e := by
  refine operand_of (by simp) (fun rest _ fuel hfuel => ?_) le_rfl
  have hinner := h.parse_closed hlevel rest (show _ < fuel by simp at hfuel ⊢; omega)
  simp [operand, openBracket, hinner, strip]

lemma Operand.not (hlevel : notLevel ≤ level) (hbound : notLevel - 1 ≤ bound) :
    Operand level' (notLevel - 1) (.word "not".toList :: tokens) (.not e) := by
  refine operand_of (by simp) (fun rest hrest fuel hfuel => ?_) le_rfl
  have hinner : parse fuel notLevel (tokens ++ rest) = some (e, rest) :=
    h.parse_eq hlevel (hrest.trans hbound) (by simp [notLevel] at hrest ⊢; omega)
      (by simp at hfuel ⊢; omega)
  simp [operand, hinner]

lemma Operand.neg (hlevel : signLevel ≤ level) (hbound : signLevel - 1 ≤ bound) :
    Operand level' (signLevel - 1) (.op ['-'] :: tokens) (.neg e) := by
  refine operand_of (by simp) (fun rest hrest fuel hfuel => ?_) le_rfl
  have hinner : parse fuel signLevel (tokens ++ rest) = some (e, rest) :=
    h.parse_eq hlevel (hrest.trans hbound) (by simp [signLevel] at hrest ⊢; omega)
      (by simp at hfuel ⊢; omega)
  simp [operand, hinner]

lemma Operand.existsIn (hlevel : 1 ≤ level) (table : List Char) :
    Operand level' topLevel
      (.word "exists".toList :: existsHead ++ [.word table, .word "where".toList] ++ tokens ++
        [closeBracket])
      (.existsIn table e) := by
  refine operand_of (by simp) (fun rest _ fuel hfuel => ?_) le_rfl
  have hinner := h.parse_closed hlevel rest (show _ < fuel by simp at hfuel ⊢; omega)
  simp [operand, strip_append, strip, hinner]

end

/-! ### Joints -/

variable {levelA boundA levelB boundB : Nat} {tokensA tokensB : List Token} {a b : Expr}

lemma next?_cons (hjoint : joint? t = some j) (ts : List Token) :
    next? (t :: ts) = some (j, ts) := by
  rw [next?, hjoint, Option.map_some]

lemma levelOf_cons (hjoint : joint? t = some j) (ts : List Token) :
    levelOf (t :: ts) = j.level := by
  rw [levelOf, next?_cons hjoint, Option.map_some, Option.getD_some]

/-- An operand with a joint behind it: what the joint reads becomes the new operand. -/
lemma Operand.followed (h : Operand levelA boundA tokensA a) (hjoint : joint? t = some j)
    (hbound : j.level ≤ boundA) {result : Expr} {bound' : Nat}
    (hread : ∀ rest, levelOf rest ≤ bound' → ∀ fuel, (tokensB ++ rest).length < fuel →
      continued (parse fuel) (parseItems fuel) a (tokensB ++ rest) j = some (result, rest))
    (hafter : bound' ≤ j.after) :
    Operand (min levelA j.level) bound' (tokensA ++ t :: tokensB) result := by
  intro asked hasked rest hrest fuel hfuel
  have hasked' := Nat.le_min.mp hasked
  have hlist : tokensA ++ t :: tokensB ++ rest = tokensA ++ (t :: (tokensB ++ rest)) := by simp
  rw [hlist] at hfuel ⊢
  obtain ⟨fuel', allowed, hfuel', hallowed, hparse⟩ :=
    h asked hasked'.1 _ ((levelOf_cons hjoint _).trans_le hbound) fuel hfuel
  obtain ⟨fuel', rfl⟩ : ∃ n, fuel' = n + 1 := ⟨fuel' - 1, by omega⟩
  have hfuel'' : (tokensB ++ rest).length < fuel' := by simpa using hfuel'
  refine ⟨fuel', j.after, ?_, hafter, ?_⟩
  · rw [List.length_append] at hfuel''
    omega
  · rw [hparse, continueWith, next?_cons hjoint]
    simp only [hasked'.2, hbound.trans hallowed, and_self, if_true, hread rest hrest fuel' hfuel'',
      Option.bind_some]

/-- A joint with a second operand. -/
lemma Operand.joined (ha : Operand levelA boundA tokensA a) (hjoint : joint? t = some j)
    (hboundA : j.level ≤ boundA) (hb : Operand levelB boundB tokensB b)
    (hlevelB : j.level + 1 ≤ levelB) (hboundB : j.after ≤ boundB) {build : Expr → Expr → Expr}
    (hbuild : ∀ parse items left ts, continued parse items left ts j =
      (parse (j.level + 1) ts).map fun r => (build left r.1, r.2)) :
    Operand (min levelA j.level) j.after (tokensA ++ t :: tokensB) (build a b) := by
  refine ha.followed hjoint hboundA (fun rest hrest fuel hfuel => ?_) le_rfl
  have hle : j.after ≤ j.level := by cases j <;> simp [Joint.after, Joint.level]
  rw [hbuild, hb.parse_eq hlevelB (hrest.trans hboundB) (by omega) hfuel, Option.map_some]

lemma Operand.binary {name : List Char} (hj : joint? (.op name) = some j)
    (ha : Operand levelA boundA tokensA a) (hboundA : j.level ≤ boundA)
    (hb : Operand levelB boundB tokensB b) (hlevelB : j.level + 1 ≤ levelB)
    (hboundB : j.after ≤ boundB) :
    Operand (min levelA j.level) j.after (tokensA ++ .op name :: tokensB) (.binary name a b) := by
  refine ha.joined hj hboundA hb hlevelB hboundB fun parse items left ts => ?_
  rw [joint?] at hj
  split at hj
  all_goals
    cases hj
    rfl

lemma Operand.cast (h : Operand level bound tokens e) (hbound : 9 ≤ bound) (type : List Char)
    (array : Bool) :
    Operand (min level 9) 9 (tokens ++ .cast :: .word type :: if array then arrayMark else [])
      (.cast e type array) := by
  refine h.followed (j := .cast) rfl hbound (fun rest hrest fuel _ => ?_) le_rfl
  cases array with
  | true => simp [continued, strip_append]
  | false =>
    -- A bracket would make it an array type, but binds too tightly to be there.
    have hbracket : strip arrayMark rest = none := by
      cases rest with
      | nil => rfl
      | cons t ts =>
        have hne : t ≠ .punct '[' := by
          rintro rfl
          exact absurd hrest (by rw [levelOf_cons (j := .subscript) rfl]; decide)
        rw [arrayMark, strip, if_neg hne]
    simp [continued, hbracket]

lemma Operand.isNull (h : Operand level bound tokens e) (hbound : 4 ≤ bound) (negated : Bool) :
    Operand (min level 4) 4 (tokens ++ .word "is".toList ::
      if negated then [.word "not".toList, .word "null".toList] else [.word "null".toList])
      (.isNull e negated) := by
  refine h.followed (j := .isTest) rfl hbound (fun rest _ fuel _ => ?_) le_rfl
  cases negated <;> simp [continued, strip]

/-- The items of a list, with commas between them and the closing bracket behind. -/
lemma parseItems_eq (h : List.Forall₂ (Operand 1 0) parts es) (hne : parts ≠ [])
    (rest : List Token) :
    ∀ fuel, ([.punct ','].intercalate parts ++ closeBracket :: rest).length + 1 < fuel →
      parseItems fuel ([.punct ','].intercalate parts ++ closeBracket :: rest) =
        some (es, rest) := by
  induction h with
  | nil => exact absurd rfl hne
  | @cons part e parts es hpart hparts ih =>
    intro fuel hfuel
    obtain ⟨fuel, rfl⟩ : ∃ n, fuel = n + 1 := ⟨fuel - 1, by omega⟩
    cases hparts with
    | nil =>
      simp only [List.intercalate_singleton] at hfuel ⊢
      rw [parseItems, hpart.parse_closed le_rfl rest (by omega)]
      simp [strip]
    | @cons next e' parts es hnext hrest =>
      rw [List.intercalate_cons_cons] at hfuel ⊢
      simp only [List.append_assoc, List.cons_append, List.nil_append] at hfuel ⊢
      have hzero : ∀ ts, levelOf (.punct ',' :: ts) = 0 := fun _ => rfl
      have hfirst : parse fuel 1 (part ++ .punct ',' ::
          ([.punct ','].intercalate (next :: parts) ++ closeBracket :: rest)) =
          some (e, .punct ',' ::
            ([.punct ','].intercalate (next :: parts) ++ closeBracket :: rest)) :=
        hpart.parse_eq le_rfl (by rw [hzero]) (by rw [hzero]; decide) (by omega)
      rw [parseItems, hfirst]
      have hlater := ih (by simp) fuel (by simp at hfuel ⊢; omega)
      simp [strip, closeBracket] at hlater ⊢
      simp [hlater]

lemma Operand.isIn (h : Operand level bound tokens e) (hbound : 6 ≤ bound)
    (hitems : List.Forall₂ (Operand 1 0) parts es) (hne : parts ≠ []) :
    Operand (min level 6) 6
      (tokens ++ .word "in".toList :: openBracket :: [.punct ','].intercalate parts ++
        [closeBracket])
      (.isIn e es) := by
  have hread : ∀ rest, levelOf rest ≤ 6 → ∀ fuel,
      ((openBracket :: [.punct ','].intercalate parts ++ [closeBracket]) ++ rest).length < fuel →
      continued (parse fuel) (parseItems fuel) e
        ((openBracket :: [.punct ','].intercalate parts ++ [closeBracket]) ++ rest) .inList =
        some (.isIn e es, rest) := by
    intro rest _ fuel hfuel
    have hitems := parseItems_eq hitems hne rest fuel (by simp at hfuel ⊢; omega)
    simp [continued, strip, hitems]
  have := h.followed (j := .inList) (t := .word "in".toList) rfl hbound hread le_rfl
  rwa [List.append_assoc]

/-! ### Chains -/

/-- Operands with a joint of their level between them. -/
lemma chain (hjoint : joint? t = some j) (hafter : j.after = j.level) {build : Expr → Expr → Expr}
    (hbuild : ∀ parse items left ts, continued parse items left ts j =
      (parse (j.level + 1) ts).map fun r => (build left r.1, r.2))
    (h : List.Forall₂ (Operand (j.level + 1) j.level) parts es) :
    ∀ {tokens : List Token} {e : Expr}, Operand j.level j.level tokens e →
      Operand j.level j.level ([t].intercalate (tokens :: parts)) (es.foldl build e) := by
  induction h with
  | nil => intro tokens e he; simpa using he
  | @cons part e' parts es hpart hparts ih =>
    intro tokens e he
    have hstep := he.joined hjoint le_rfl hpart le_rfl hafter.le hbuild
    rw [Nat.min_self, hafter] at hstep
    have hsame : [t].intercalate (tokens :: part :: parts) =
        [t].intercalate ((tokens ++ t :: part) :: parts) := by
      cases parts <;> simp [List.intercalate_cons_cons]
    rw [hsame]
    exact ih hstep

end Sql
