import Mathlib.Data.List.Range
import Mathlib.Data.List.TakeDrop
import Mathlib.Data.Nat.Find

/-!
# Windows of a list

A list read in windows of a fixed width.  The windows of a list put together are the list
(`flatMap_window`), and a window may be read off any start of the list that reaches to its
end or to the end of the list (`window_take`); a start that does not loses an item for good
(`length_flatMap_lt`).  A reader that goes on while it is told to, and that is told to stop
at some window, stops at a first one (`exists_first_stop`).
-/

universe u

namespace Windows

variable {α : Type u}

/-- The items `k * width`, … of a list, `width` of them if it has so many. -/
def window (width : Nat) (l : List α) (k : Nat) : List α := (l.drop (k * width)).take width

lemma flatMap_window (width : Nat) (l : List α) (n : Nat) :
    (List.range n).flatMap (window width l) = l.take (n * width) := by
  induction n with
  | zero => simp
  | succ n ih =>
    rw [List.range_succ, List.flatMap_append, ih, Nat.succ_mul, List.take_add]
    simp [window]

variable {l : List α} {n width : Nat}

/-- The windows that reach the end of a list, put together. -/
lemma flatMap_window_eq_self (h : l.length ≤ n * width) :
    (List.range n).flatMap (window width l) = l := by
  rw [flatMap_window, List.take_of_length_le h]

lemma window_take {k : Nat} (h : min ((k + 1) * width) l.length ≤ n) :
    window width (l.take n) k = window width l k := by
  by_cases hn : l.length ≤ n
  · rw [List.take_of_length_le hn]
  · have hwidth : width ≤ n - k * width := by
      rw [Nat.succ_mul] at h
      omega
    rw [window, window, List.drop_take, List.take_take, Nat.min_eq_left hwidth]

lemma length_window (width : Nat) (l : List α) (k : Nat) :
    (window width l k).length = min ((k + 1) * width) l.length - min (k * width) l.length := by
  rw [window, List.length_take, List.length_drop, Nat.succ_mul]
  omega

/-- Pages no longer than the windows of a list are together no longer than the list. -/
lemma length_flatMap_le {pages : Nat → List α}
    (h : ∀ k < n, (pages k).length ≤ (window width l k).length) :
    ((List.range n).flatMap pages).length ≤ min (n * width) l.length := by
  induction n with
  | zero => simp
  | succ n ih =>
    have hprev := ih fun k hk => h k (by omega)
    have hlast := h n n.lt_succ_self
    rw [length_window] at hlast
    rw [List.range_succ, List.flatMap_append, List.length_append, List.flatMap_singleton]
    have hmono : n * width ≤ (n + 1) * width := Nat.mul_le_mul_right _ n.le_succ
    omega

/-- If those up to page `k` are also no longer than the windows of a list that ends before
page `k` does, something is missing. -/
lemma length_flatMap_lt {k : Nat} {short : List α} {pages : Nat → List α} (hk : k < n)
    (hshort : ∀ j < k + 1, (pages j).length ≤ (window width short j).length)
    (h : ∀ j < n, (pages j).length ≤ (window width l j).length)
    (hlt : short.length < min ((k + 1) * width) l.length) :
    ((List.range n).flatMap pages).length < l.length := by
  -- behind page `k` no more can come than is behind it in the list
  have hbehind : ((List.range n).flatMap pages).length + min ((k + 1) * width) l.length ≤
      short.length + min (n * width) l.length := by
    induction n, hk using Nat.le_induction with
    | base =>
      show ((List.range (k + 1)).flatMap pages).length + min ((k + 1) * width) l.length ≤
        short.length + min ((k + 1) * width) l.length
      have := length_flatMap_le hshort
      omega
    | succ n hn ih =>
      have hprev := ih fun j hj => h j (by omega)
      have hlast := h n n.lt_succ_self
      rw [length_window] at hlast
      rw [List.range_succ, List.flatMap_append, List.length_append, List.flatMap_singleton]
      have hmono : n * width ≤ (n + 1) * width := Nat.mul_le_mul_right _ n.le_succ
      omega
  omega

lemma exists_first_stop {goesOn : Nat → Prop} (h : ∃ n, ¬ goesOn n) :
    ∃ n, (∀ k < n, goesOn k) ∧ ¬ goesOn n := by
  classical
  refine ⟨Nat.find h, fun k hk => ?_, Nat.find_spec h⟩
  exact not_not.mp (Nat.find_min h hk)

end Windows
