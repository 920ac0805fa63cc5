import Mathlib.Data.List.Basic
import Mathlib.Order.Bounds.Basic

/-!
# Edit distance

An *edit* inserts, deletes or replaces one element anywhere in a list.  `distance` is the recursion of
Wagner and Fischer over two lists from the front; `isLeast_distance` says that it is the least number of
edits that lead from one to the other.  That makes it indifferent to what edits are indifferent to, the
order of the two lists and the direction they are read in, and from there come the rules for shared
ends and for the last elements, which a table of prefixes is filled by.
-/

namespace EditDistance

universe u

variable {α : Type u}

/-- One edit. -/
inductive Edit : List α → List α → Prop
  | insert (before after : List α) (x : α) : Edit (before ++ after) (before ++ x :: after)
  | delete (before after : List α) (x : α) : Edit (before ++ x :: after) (before ++ after)
  | replace (before after : List α) (x y : α) :
      Edit (before ++ x :: after) (before ++ y :: after)

/-- So many edits. -/
def Edits : Nat → List α → List α → Prop
  | 0, a, b => a = b
  | n + 1, a, b => ∃ c, Edit a c ∧ Edits n c b

/-! ## Edits -/

section

variable {n m : Nat} {a b c : List α}

lemma Edit.cons (x : α) (h : Edit a b) : Edit (x :: a) (x :: b) := by
  cases h with
  | insert before after y => exact .insert (x :: before) after y
  | delete before after y => exact .delete (x :: before) after y
  | replace before after y z => exact .replace (x :: before) after y z

lemma Edit.symm (h : Edit a b) : Edit b a := by
  cases h with
  | insert before after x => exact .delete before after x
  | delete before after x => exact .insert before after x
  | replace before after x y => exact .replace before after y x

lemma Edit.reverse (h : Edit a b) : Edit a.reverse b.reverse := by
  cases h with
  | insert before after x => simpa using Edit.insert after.reverse before.reverse x
  | delete before after x => simpa using Edit.delete after.reverse before.reverse x
  | replace before after x y => simpa using Edit.replace after.reverse before.reverse x y

lemma Edits.cons (x : α) (h : Edits n a b) : Edits n (x :: a) (x :: b) := by
  induction n generalizing a with
  | zero => exact congrArg _ h
  | succ n ih =>
    obtain ⟨c, hedit, hrest⟩ := h
    exact ⟨x :: c, hedit.cons x, ih hrest⟩

lemma Edits.trans (h : Edits n a b) (h' : Edits m b c) : Edits (n + m) a c := by
  induction n generalizing a with
  | zero => rw [show a = b from h, Nat.zero_add]; exact h'
  | succ n ih =>
    obtain ⟨d, hedit, hrest⟩ := h
    rw [Nat.succ_add]
    exact ⟨d, hedit, ih hrest⟩

lemma Edits.symm (h : Edits n a b) : Edits n b a := by
  induction n generalizing a with
  | zero => exact h.symm
  | succ n ih =>
    obtain ⟨c, hedit, hrest⟩ := h
    exact (ih hrest).trans ⟨a, hedit.symm, rfl⟩

lemma Edits.reverse (h : Edits n a b) : Edits n a.reverse b.reverse := by
  induction n generalizing a with
  | zero => exact congrArg _ h
  | succ n ih =>
    obtain ⟨c, hedit, hrest⟩ := h
    exact ⟨c.reverse, hedit.reverse, ih hrest⟩

lemma edits_insert_all (b : List α) : Edits b.length [] b := by
  induction b with
  | nil => rfl
  | cons y b ih => exact ⟨[y], .insert [] [] y, ih.cons y⟩

end

/-! ## The recursion -/

variable [DecidableEq α]

/-- The edit distance of two lists. -/
def distance : List α → List α → Nat
  | [], b => b.length
  | x :: a, [] => (x :: a).length
  | x :: a, y :: b =>
    min (distance a (y :: b) + 1)
      (min (distance (x :: a) b + 1) (distance a b + if x = y then 0 else 1))
termination_by a b => a.length + b.length

variable {a b c : List α} {x y : α}

lemma distance_nil_left (b : List α) : distance [] b = b.length := by
  rw [distance]

lemma distance_nil_right (a : List α) : distance a [] = a.length := by
  cases a <;> rw [distance]

lemma distance_cons_cons (x y : α) (a b : List α) :
    distance (x :: a) (y :: b) =
      min (distance a (y :: b) + 1)
        (min (distance (x :: a) b + 1) (distance a b + if x = y then 0 else 1)) := by
  rw [distance]

lemma distance_delete (x : α) (a b : List α) : distance (x :: a) b ≤ distance a b + 1 := by
  cases b with
  | nil => simp [distance_nil_right]
  | cons y b => rw [distance_cons_cons]; exact Nat.min_le_left ..

lemma distance_insert (y : α) (a b : List α) : distance a (y :: b) ≤ distance a b + 1 := by
  cases a with
  | nil => simp [distance_nil_left]
  | cons x a => rw [distance_cons_cons]; omega

lemma distance_replace (x y : α) (a b : List α) :
    distance (x :: a) (y :: b) ≤ distance a b + 1 := by
  rw [distance_cons_cons]
  split <;> omega

lemma distance_keep (x : α) (a b : List α) : distance (x :: a) (x :: b) ≤ distance a b := by
  rw [distance_cons_cons, if_pos rfl]
  omega

/-- How the distance of two non-empty lists comes about. -/
lemma distance_cons_cons_cases (x y : α) (a b : List α) :
    distance (x :: a) (y :: b) = distance a (y :: b) + 1 ∨
      distance (x :: a) (y :: b) = distance (x :: a) b + 1 ∨
      (x = y ∧ distance (x :: a) (y :: b) = distance a b) ∨
      (x ≠ y ∧ distance (x :: a) (y :: b) = distance a b + 1) := by
  rw [distance_cons_cons]
  by_cases h : x = y
  · simp only [h, if_true, true_and, ne_eq, not_true, false_and, or_false]
    omega
  · simp only [h, if_false, false_and, ne_eq, not_false_eq_true, true_and, false_or]
    omega

lemma distance_self (a : List α) : distance a a = 0 := by
  induction a with
  | nil => exact distance_nil_left []
  | cons x a ih => exact Nat.le_zero.mp (ih ▸ distance_keep x a a)

lemma distance_le_max (a b : List α) : distance a b ≤ max a.length b.length := by
  induction a generalizing b with
  | nil => simp [distance_nil_left]
  | cons x a ih =>
    cases b with
    | nil => simp [distance_nil_right]
    | cons y b =>
      have hreplace := distance_replace x y a b
      have hrest := ih b
      simp only [List.length_cons]
      omega

/-! ## The least number of edits -/

/-- From `a` it is at most one edit farther than from `b`. -/
def Near (a b : List α) : Prop := ∀ c, distance a c ≤ distance b c + 1

lemma near_of_delete (x : α) (a : List α) : Near a (x :: a) := by
  intro c
  induction c with
  | nil => simp [distance_nil_right]; omega
  | cons y c ih =>
    have hinsert := distance_insert y a c
    rcases distance_cons_cons_cases x y a c with h | h | ⟨_, h⟩ | ⟨_, h⟩ <;> omega

lemma near_of_replace (x y : α) (a : List α) : Near (x :: a) (y :: a) := by
  intro c
  induction c with
  | nil => simp [distance_nil_right]
  | cons z c ih =>
    have hdelete := distance_delete x a (z :: c)
    have hinsert := distance_insert z (x :: a) c
    have hreplace := distance_replace x z a c
    rcases distance_cons_cons_cases y z a c with h | h | ⟨_, h⟩ | ⟨_, h⟩ <;> omega

lemma Near.cons (h : Near a b) (x : α) : Near (x :: a) (x :: b) := by
  intro c
  induction c with
  | nil =>
    have := h []
    simp only [distance_nil_right] at this
    simp [distance_nil_right]
    omega
  | cons z c ih =>
    have hdelete := distance_delete x a (z :: c)
    have hinsert := distance_insert z (x :: a) c
    have hreplace := distance_replace x z a c
    have hz := h (z :: c)
    have hc := h c
    rcases distance_cons_cons_cases x z b c with h | h | ⟨rfl, h⟩ | ⟨_, h⟩
    · omega
    · omega
    · have hkeep := distance_keep x a c
      omega
    · omega

lemma Near.append (h : Near a b) (before : List α) : Near (before ++ a) (before ++ b) := by
  induction before with
  | nil => exact h
  | cons x before ih => exact ih.cons x

lemma near_of_edit (h : Edit a b) : Near a b := by
  cases h with
  | insert before after x => exact (near_of_delete x after).append before
  | delete before after x => exact Near.append (fun c => distance_delete x after c) before
  | replace before after x y => exact (near_of_replace x y after).append before

lemma distance_le_of_edits {n : Nat} (h : Edits n a b) : distance a b ≤ n := by
  induction n generalizing a with
  | zero => rw [show a = b from h, distance_self]
  | succ n ih =>
    obtain ⟨c, hedit, hrest⟩ := h
    have hnear := near_of_edit hedit b
    have hless := ih hrest
    omega

lemma edits_distance (a b : List α) : Edits (distance a b) a b := by
  induction a generalizing b with
  | nil => rw [distance_nil_left]; exact edits_insert_all b
  | cons x a ih =>
    induction b with
    | nil => rw [distance_nil_right]; exact (edits_insert_all (x :: a)).symm
    | cons y b ihb =>
      rcases distance_cons_cons_cases x y a b with h | h | ⟨rfl, h⟩ | ⟨_, h⟩
      · rw [h]; exact ⟨a, .delete [] a x, ih (y :: b)⟩
      · rw [h]; exact ⟨y :: x :: a, .insert [] (x :: a) y, ihb.cons y⟩
      · rw [h]; exact (ih b).cons x
      · rw [h]; exact ⟨y :: a, .replace [] a x y, (ih b).cons y⟩

/-- **The distance is the least number of edits.** -/
lemma isLeast_distance (a b : List α) : IsLeast {n | Edits n a b} (distance a b) :=
  ⟨edits_distance a b, fun _ h => distance_le_of_edits h⟩

/-! ## Symmetries and shared ends -/

lemma distance_comm (a b : List α) : distance a b = distance b a :=
  Nat.le_antisymm (distance_le_of_edits (edits_distance b a).symm)
    (distance_le_of_edits (edits_distance a b).symm)

lemma distance_reverse (a b : List α) : distance a.reverse b.reverse = distance a b := by
  refine Nat.le_antisymm (distance_le_of_edits (edits_distance a b).reverse) ?_
  have h := (edits_distance a.reverse b.reverse).reverse
  rw [List.reverse_reverse, List.reverse_reverse] at h
  exact distance_le_of_edits h

lemma distance_cons_self (x : α) (a b : List α) : distance (x :: a) (x :: b) = distance a b := by
  refine Nat.le_antisymm (distance_keep x a b) ?_
  have hleft := near_of_delete x a b
  have hright : distance a b ≤ distance a (x :: b) + 1 := by
    rw [distance_comm a b, distance_comm a (x :: b)]
    exact near_of_delete x b a
  rcases distance_cons_cons_cases x x a b with h | h | ⟨_, h⟩ | ⟨hne, _⟩
  · omega
  · omega
  · omega
  · exact absurd rfl hne

lemma distance_append_left (shared a b : List α) :
    distance (shared ++ a) (shared ++ b) = distance a b := by
  induction shared with
  | nil => rfl
  | cons x shared ih => rw [List.cons_append, List.cons_append, distance_cons_self, ih]

lemma distance_append_right (a b shared : List α) :
    distance (a ++ shared) (b ++ shared) = distance a b := by
  rw [← distance_reverse, List.reverse_append, List.reverse_append, distance_append_left,
    distance_reverse]

/-- The recursion on the last elements; equal ones are always kept. -/
lemma distance_concat (a b : List α) (x y : α) :
    distance (a ++ [x]) (b ++ [y]) =
      if x = y then distance a b
      else min (min (distance a b + 1) (distance (a ++ [x]) b + 1)) (distance a (b ++ [y]) + 1) := by
  split
  · next h => rw [h, distance_append_right]
  · next h =>
      have hcons := distance_cons_cons x y a.reverse b.reverse
      rw [← List.reverse_concat, ← List.reverse_concat, distance_reverse, distance_reverse,
        distance_reverse, distance_reverse, if_neg h] at hcons
      omega

end EditDistance
