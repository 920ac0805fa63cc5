import Mathlib.Data.List.Basic

/-!
# Byte slices

Slices, fixed-width arrays and exact chunks of lists, as a language with checked
indexing has them: a slice out of range is `none`, not a shorter list.
-/

universe u

namespace Bytes

variable {α : Type u} {β : Type*}

/-- `l[lo..hi]`; `none` where the bounds are not in order or leave the list. -/
def slice? (l : List α) (lo hi : Nat) : Option (List α) :=
  if lo ≤ hi ∧ hi ≤ l.length then some ((l.drop lo).take (hi - lo)) else none

lemma slice?_eq_some {l : List α} {lo hi : Nat} (h : lo ≤ hi) (h' : hi ≤ l.length) :
    slice? l lo hi = some ((l.drop lo).take (hi - lo)) :=
  if_pos ⟨h, h'⟩

/-- The front of an append is a slice of it. -/
lemma slice?_append_left (l r : List α) : slice? (l ++ r) 0 l.length = some l := by
  rw [slice?_eq_some (by omega) (by simp)]
  simp

/-- The rest of an append is a slice of it. -/
lemma slice?_append_right (l r : List α) : slice? (l ++ r) l.length (l ++ r).length = some r := by
  rw [slice?_eq_some (by simp) (by omega)]
  simp

/-- An array of exactly `n` items. -/
abbrev Fixed (α : Type u) (n : Nat) := { items : List α // items.length = n }

/-- `try_into` an array: the list must have exactly the array's length. -/
def toFixed (n : Nat) (l : List α) : Option (Fixed α n) :=
  if h : l.length = n then some ⟨l, h⟩ else none

@[simp] lemma toFixed_val {n : Nat} (a : Fixed α n) : toFixed n a.val = some a := by
  simp [toFixed, a.property]

lemma toFixed_isSome {n : Nat} {l : List α} (h : l.length = n) : toFixed n l = some ⟨l, h⟩ := by
  simp [toFixed, h]

/-- `chunks_exact`: the whole chunks of a list, without the remainder. -/
def chunksExact (width : Nat) (l : List α) : List (List α) :=
  (List.range (l.length / width)).map fun i => (l.drop (i * width)).take width

lemma length_chunksExact (width : Nat) (l : List α) :
    (chunksExact width l).length = l.length / width := by
  simp [chunksExact]

lemma length_of_mem_chunksExact {width : Nat} {l chunk : List α}
    (h : chunk ∈ chunksExact width l) : chunk.length = width := by
  simp only [chunksExact, List.mem_map, List.mem_range] at h
  obtain ⟨i, hi, rfl⟩ := h
  have hle : (i + 1) * width ≤ l.length :=
    Nat.le_trans (Nat.mul_le_mul_right width hi) (Nat.div_mul_le_self _ _)
  have : (i + 1) * width = i * width + width := Nat.succ_mul i width
  simp only [List.length_take, List.length_drop]
  omega

/-- Splitting a concatenation of equally long pieces gives the pieces back. -/
lemma chunksExact_flatMap {width : Nat} (hpos : 0 < width) {f : β → List α} {xs : List β}
    (h : ∀ x ∈ xs, (f x).length = width) : chunksExact width (xs.flatMap f) = xs.map f := by
  induction xs with
  | nil => simp [chunksExact]
  | cons x xs ih =>
    have hx : (f x).length = width := h x (by simp)
    have hxs := ih fun y hy => h y (by simp [hy])
    have hlen : (f x ++ xs.flatMap f).length / width = (xs.flatMap f).length / width + 1 := by
      rw [List.length_append, hx, Nat.add_comm, Nat.add_div_right _ hpos]
    rw [List.flatMap_cons, List.map_cons, ← hxs]
    unfold chunksExact
    rw [hlen, List.range_succ_eq_map, List.map_cons, List.map_map]
    congr 1
    · simp [← hx]
    · refine List.map_congr_left fun i _ => ?_
      have hdrop : (i + 1) * width = (f x).length + i * width := by
        rw [Nat.succ_mul, hx, Nat.add_comm]
      simp only [Function.comp_apply, Nat.succ_eq_add_one]
      rw [hdrop, ← List.drop_drop, List.drop_left]

end Bytes
