import Mathlib.Logic.Function.Basic
import Bitmagnet.Library.Truth
import Bitmagnet.Library.SqlText

/-!
# The meaning of conditions

A `Dialect` is whatever the values, the operators and the conversions are; nothing is asked of it
but that a truth value can be stored and read back.  Over it a condition has a meaning for the rows
of the tables in scope: the connectives are three-valued, `IN` is the disjunction of its
comparisons, and `EXISTS` asks whether the condition is true, and not merely unknown, of some row.

`tables` lists the qualifiers that the columns of an expression have.
-/

namespace Sql

/-- Values with their operations. -/
structure Dialect where
  Value : Type
  truth : Value → Truth
  ofTruth : Truth → Value
  truth_ofTruth : ∀ t, truth (ofTruth t) = t
  isNull : Value → Bool
  text : List Char → Value
  integer : List Char → Value
  negate : Value → Value
  convert : List Char → Bool → Value → Value
  operate : List Char → Value → Value → Value

/-- A row: its columns' values. -/
abbrev Row (D : Dialect) := List Char → D.Value

/-- The rows of every table, the values of the parameters, and the row of each table in scope. -/
structure World (D : Dialect) where
  rows : List Char → List (Row D)
  param : Nat → D.Value
  scope : List Char → Row D

namespace World

variable {D : Dialect}

/-- The world inside a subquery, at a row of its table. -/
def inRow (w : World D) (table : List Char) (row : Row D) : World D :=
  { w with scope := Function.update w.scope table row }

/-- Some row of the table makes the condition true. -/
def anyRow (w : World D) (table : List Char) (condition : World D → Truth) : Truth :=
  .ofBool ((w.rows table).any fun row => condition (w.inRow table row) = .yes)

/-- `=` as a truth value. -/
def equal (_ : World D) (a b : D.Value) : Truth := D.truth (D.operate ['='] a b)

/-- `IN`. -/
def oneOf (w : World D) (a : D.Value) (values : List D.Value) : Truth :=
  .any (values.map (w.equal a))

lemma oneOf_eq (w : World D) (a : D.Value) {α : Type} (f : α → D.Value) (as : List α) :
    w.oneOf a (as.map f) = .any (as.map fun b => w.equal a (f b)) := by
  rw [oneOf, List.map_map]
  rfl

/-- A row makes one of several conditions true. -/
lemma anyRow_any (w : World D) (table : List Char) {α : Type} (f : α → World D → Truth)
    (as : List α) :
    w.anyRow table (fun w => .any (as.map (f · w))) = .any (as.map fun a => w.anyRow table (f a)) := by
  simp only [anyRow]
  rw [Truth.any_ofBool]
  congr 1
  rw [Bool.eq_iff_iff]
  simp only [List.any_eq_true, decide_eq_true_eq, Truth.any_eq_yes, List.mem_map]
  constructor
  · rintro ⟨row, hrow, a, ha, hyes⟩
    exact ⟨a, ha, row, hrow, hyes⟩
  · rintro ⟨a, ha, row, hrow, hyes⟩
    exact ⟨row, hrow, a, ha, hyes⟩

lemma anyRow_congr (w : World D) (table : List Char) {f g : World D → Truth}
    (h : ∀ w, f w = g w) : w.anyRow table f = w.anyRow table g := by
  rw [show f = g from funext h]

end World

variable {D : Dialect}

mutual

/-- The value of an expression. -/
def eval : World D → Expr → D.Value
  | _, .bool value => D.ofTruth (.ofBool value)
  | w, .column table name => w.scope table name
  | w, .param index => w.param index
  | _, .number digits => D.integer digits
  | _, .string value => D.text value
  | w, .neg e => D.negate (eval w e)
  | w, .cast e type array => D.convert type array (eval w e)
  | w, .binary name a b => D.operate name (eval w a) (eval w b)
  | w, .isNull e negated => D.ofTruth (.ofBool (D.isNull (eval w e) != negated))
  | w, .isIn e items => D.ofTruth (w.oneOf (eval w e) (evalAll w items))
  | w, .not e => D.ofTruth (D.truth (eval w e)).not
  | w, .and a b => D.ofTruth ((D.truth (eval w a)).and (D.truth (eval w b)))
  | w, .or a b => D.ofTruth ((D.truth (eval w a)).or (D.truth (eval w b)))
  | w, .existsIn table e => D.ofTruth (w.anyRow table fun w => D.truth (eval w e))

def evalAll : World D → List Expr → List D.Value
  | _, [] => []
  | w, e :: es => eval w e :: evalAll w es

end

/-- The truth value of a condition. -/
def holds (w : World D) (e : Expr) : Truth := D.truth (eval w e)

mutual

/-- The qualifiers of the columns. -/
def tables : Expr → List (List Char)
  | .bool _ | .param _ | .number _ | .string _ => []
  | .column table _ => [table]
  | .neg e | .cast e _ _ | .isNull e _ | .not e | .existsIn _ e => tables e
  | .binary _ a b | .and a b | .or a b => tables a ++ tables b
  | .isIn e items => tables e ++ tablesOfAll items

def tablesOfAll : List Expr → List (List Char)
  | [] => []
  | e :: es => tables e ++ tablesOfAll es

end

section Connectives

variable (w : World D)

lemma evalAll_eq (es : List Expr) : evalAll w es = es.map (eval w) := by
  induction es with
  | nil => rfl
  | cons e es ih => rw [evalAll, ih, List.map_cons]

@[simp] lemma holds_bool (value : Bool) : holds w (.bool value) = .ofBool value :=
  D.truth_ofTruth _

@[simp] lemma holds_not (e : Expr) : holds w (.not e) = (holds w e).not :=
  D.truth_ofTruth _

@[simp] lemma holds_and (a b : Expr) : holds w (.and a b) = (holds w a).and (holds w b) :=
  D.truth_ofTruth _

@[simp] lemma holds_or (a b : Expr) : holds w (.or a b) = (holds w a).or (holds w b) :=
  D.truth_ofTruth _

@[simp] lemma holds_isNull (e : Expr) (negated : Bool) :
    holds w (.isNull e negated) = .ofBool (D.isNull (eval w e) != negated) :=
  D.truth_ofTruth _

@[simp] lemma holds_isIn (e : Expr) (items : List Expr) :
    holds w (.isIn e items) = w.oneOf (eval w e) (items.map (eval w)) := by
  rw [← evalAll_eq]
  exact D.truth_ofTruth _

@[simp] lemma holds_existsIn (table : List Char) (e : Expr) :
    holds w (.existsIn table e) = w.anyRow table fun w => holds w e :=
  D.truth_ofTruth _

lemma holds_foldl_and (es : List Expr) :
    ∀ e, holds w (es.foldl .and e) = (holds w e).and (.all (es.map (holds w))) := by
  induction es with
  | nil => intro e; simp
  | cons e' es ih => intro e; simp [ih, Truth.and_assoc]

lemma holds_foldl_or (es : List Expr) :
    ∀ e, holds w (es.foldl .or e) = (holds w e).or (.any (es.map (holds w))) := by
  induction es with
  | nil => intro e; simp
  | cons e' es ih => intro e; simp [ih, Truth.or_assoc]

/-- Joined by `AND`, operands are true together. -/
lemma holds_foldJoin_and (es : List Expr) :
    holds w (foldJoin .and es) = .all (es.map (holds w)) := by
  cases es with
  | nil => simp [foldJoin, Truth.ofBool]
  | cons e es => simp [foldJoin, holds_foldl_and]

/-- Joined by `OR`, one of them is. -/
lemma holds_foldJoin_or {es : List Expr} (hne : es ≠ []) :
    holds w (foldJoin .or es) = .any (es.map (holds w)) := by
  cases es with
  | nil => exact absurd rfl hne
  | cons e es => simp [foldJoin, holds_foldl_or]

end Connectives

lemma mem_tables_foldl {build : Expr → Expr → Expr}
    (hbuild : ∀ a b, tables (build a b) = tables a ++ tables b) {table : List Char}
    (es : List Expr) :
    ∀ e, table ∈ tables (es.foldl build e) ↔ ∃ e' ∈ e :: es, table ∈ tables e' := by
  induction es with
  | nil => intro e; simp
  | cons e' es ih => intro e; simp [ih, hbuild, or_assoc]

/-- The columns of joined operands are theirs. -/
lemma mem_tables_foldJoin {build : Expr → Expr → Expr}
    (hbuild : ∀ a b, tables (build a b) = tables a ++ tables b) {table : List Char}
    {es : List Expr} : table ∈ tables (foldJoin build es) ↔ ∃ e ∈ es, table ∈ tables e := by
  cases es with
  | nil => simp [foldJoin, tables]
  | cons e es => exact mem_tables_foldl hbuild es e

end Sql
