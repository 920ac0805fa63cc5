import Mathlib.Data.List.Basic

/-!
# Three-valued truth

The truth values of SQL: a comparison with `NULL` is `unknown`, and the connectives are the
minimum, the maximum and the reversal of the order `no`, `unknown`, `yes`.  `all` and `any` are
the connectives over a list; both depend only on which values occur.
-/

/-- A truth value. -/
inductive Truth
  | no
  | unknown
  | yes
deriving DecidableEq

namespace Truth

def and : Truth → Truth → Truth
  | no, _ | _, no => no
  | yes, t | t, yes => t
  | unknown, unknown => unknown

def or : Truth → Truth → Truth
  | yes, _ | _, yes => yes
  | no, t | t, no => t
  | unknown, unknown => unknown

def not : Truth → Truth
  | no => yes
  | unknown => unknown
  | yes => no

def ofBool : Bool → Truth
  | false => no
  | true => yes

@[simp] lemma yes_and (t : Truth) : and yes t = t := by cases t <;> rfl

@[simp] lemma and_yes (t : Truth) : and t yes = t := by cases t <;> rfl

@[simp] lemma and_no (t : Truth) : and t no = no := by cases t <;> rfl

@[simp] lemma no_or (t : Truth) : or no t = t := by cases t <;> rfl

@[simp] lemma or_no (t : Truth) : or t no = t := by cases t <;> rfl

lemma and_assoc (s t u : Truth) : and (and s t) u = and s (and t u) := by
  cases s <;> cases t <;> cases u <;> rfl

lemma or_assoc (s t u : Truth) : or (or s t) u = or s (or t u) := by
  cases s <;> cases t <;> cases u <;> rfl

lemma and_or (s t u : Truth) : and s (or t u) = or (and s t) (and s u) := by
  cases s <;> cases t <;> cases u <;> rfl

lemma and_comm (s t : Truth) : and s t = and t s := by
  cases s <;> cases t <;> rfl

lemma or_eq_yes {s t : Truth} : or s t = yes ↔ s = yes ∨ t = yes := by
  cases s <;> cases t <;> decide

lemma or_eq_no {s t : Truth} : or s t = no ↔ s = no ∧ t = no := by
  cases s <;> cases t <;> decide

/-- All of them. -/
def all (ts : List Truth) : Truth := ts.foldr and yes

/-- One of them. -/
def any (ts : List Truth) : Truth := ts.foldr or no

@[simp] lemma all_nil : all [] = yes := rfl

@[simp] lemma all_cons (t : Truth) (ts : List Truth) : all (t :: ts) = and t (all ts) := rfl

@[simp] lemma any_nil : any [] = no := rfl

@[simp] lemma any_cons (t : Truth) (ts : List Truth) : any (t :: ts) = or t (any ts) := rfl

lemma all_append (ss ts : List Truth) : all (ss ++ ts) = and (all ss) (all ts) := by
  induction ss with
  | nil => simp
  | cons s ss ih => simp [ih, and_assoc]

lemma any_append (ss ts : List Truth) : any (ss ++ ts) = or (any ss) (any ts) := by
  induction ss with
  | nil => simp
  | cons s ss ih => simp [ih, or_assoc]

lemma any_eq_yes {ts : List Truth} : any ts = yes ↔ yes ∈ ts := by
  induction ts with
  | nil => simp
  | cons t ts ih => rw [any_cons, or_eq_yes, ih, List.mem_cons, eq_comm]

lemma any_eq_no {ts : List Truth} : any ts = no ↔ ∀ t ∈ ts, t = no := by
  induction ts with
  | nil => simp
  | cons t ts ih => simp [or_eq_no, ih]

/-- `any` depends on which values occur. -/
lemma any_congr {ss ts : List Truth} (h : ∀ t, t ∈ ss ↔ t ∈ ts) : any ss = any ts := by
  have hyes : any ss = yes ↔ any ts = yes := by rw [any_eq_yes, any_eq_yes, h]
  have hno : any ss = no ↔ any ts = no := by simp only [any_eq_no, h]
  cases hs : any ss <;> cases ht : any ts <;> simp_all

/-- A conjunct goes into a disjunction. -/
lemma and_any (s : Truth) (ts : List Truth) : and s (any ts) = any (ts.map (and s)) := by
  induction ts with
  | nil => simp
  | cons t ts ih => simp [and_or, ih]

lemma any_and (s : Truth) (ts : List Truth) : and (any ts) s = any (ts.map (and · s)) := by
  rw [and_comm, and_any]
  simp only [and_comm]

lemma any_ofBool {α : Type} (f : α → Bool) (as : List α) :
    any (as.map fun a => ofBool (f a)) = ofBool (as.any f) := by
  induction as with
  | nil => rfl
  | cons a as ih =>
    rw [List.map_cons, any_cons, ih, List.any_cons]
    cases f a <;> cases as.any f <;> rfl

lemma all_flatten (tss : List (List Truth)) : all tss.flatten = all (tss.map all) := by
  induction tss with
  | nil => rfl
  | cons ts tss ih => simp [all_append, ih]

lemma any_flatten (tss : List (List Truth)) : any tss.flatten = any (tss.map any) := by
  induction tss with
  | nil => rfl
  | cons ts tss ih => simp [any_append, ih]

end Truth
