import Mathlib.Data.List.Nodup
import Mathlib.Data.List.Sort

/-!
# Removing duplicates

Two ways a list loses its duplicates: `dedup` drops an item equal to the one before
it, which is all of them once equal items stand together, and `firsts` keeps the
first occurrence of every item that is not in a set of items seen.  Neither changes
what is in the list.  A sorted list without duplicates is determined by its items
(`sort_dedup_eq`).
-/

universe u

namespace Distinct

variable {α : Type u} [DecidableEq α]

/-- The items that differ from the one before them, behind `last`. -/
def dedupAfter (last : α) : List α → List α
  | [] => []
  | a :: rest => if a = last then dedupAfter last rest else a :: dedupAfter a rest

/-- Drop every item equal to the one before it. -/
def dedup : List α → List α
  | [] => []
  | a :: rest => a :: dedupAfter a rest

/-- The first occurrences of the items that are not in `seen`. -/
def firsts (seen : List α) : List α → List α
  | [] => []
  | a :: rest => if a ∈ seen then firsts seen rest else a :: firsts (a :: seen) rest

variable {a : α} {l : List α}

lemma mem_dedupAfter {last : α} : a ∈ last :: dedupAfter last l ↔ a ∈ last :: l := by
  induction l generalizing last with
  | nil => rfl
  | cons b rest ih =>
    unfold dedupAfter
    split
    · rename_i hb
      subst hb
      simpa using ih
    · have := @ih b
      simp only [List.mem_cons] at this ⊢
      rw [this]

@[simp] lemma mem_dedup : a ∈ dedup l ↔ a ∈ l := by
  cases l with
  | nil => rfl
  | cons b rest => exact mem_dedupAfter

lemma mem_firsts {seen : List α} : a ∈ firsts seen l ↔ a ∈ l ∧ a ∉ seen := by
  induction l generalizing seen with
  | nil => simp [firsts]
  | cons b rest ih =>
    unfold firsts
    split
    · rename_i hb
      rw [ih, List.mem_cons]
      constructor
      · rintro ⟨hmem, hnot⟩
        exact ⟨.inr hmem, hnot⟩
      · rintro ⟨rfl | hmem, hnot⟩
        · exact absurd hb hnot
        · exact ⟨hmem, hnot⟩
    · rename_i hb
      rw [List.mem_cons, ih, List.mem_cons, List.mem_cons]
      by_cases hab : a = b
      · subst hab
        simp [hb]
      · simp [hab]

lemma nodup_firsts (seen l : List α) : (firsts seen l).Nodup := by
  induction l generalizing seen with
  | nil => exact List.nodup_nil
  | cons b rest ih =>
    unfold firsts
    split
    · exact ih seen
    · refine List.nodup_cons.mpr ⟨?_, ih _⟩
      rw [mem_firsts]
      simp

/-- Filtering commutes with keeping first occurrences, for sets of seen items that agree
on what passes. -/
lemma firsts_filter_of {p : α → Bool} {seen seen' : List α} (l : List α)
    (hseen : ∀ a, p a → (a ∈ seen ↔ a ∈ seen')) :
    firsts seen (l.filter p) = (firsts seen' l).filter p := by
  induction l generalizing seen seen' with
  | nil => rfl
  | cons a rest ih =>
    by_cases ha : p a
    · rw [List.filter_cons_of_pos ha, firsts, firsts]
      by_cases hin : a ∈ seen
      · rw [if_pos hin, if_pos ((hseen a ha).mp hin), ih hseen]
      · rw [if_neg hin, if_neg fun h => hin ((hseen a ha).mpr h), List.filter_cons_of_pos ha]
        refine congrArg (a :: ·) (ih fun b hb => ?_)
        rw [List.mem_cons, List.mem_cons, hseen b hb]
    · rw [List.filter_cons_of_neg ha, firsts]
      split
      · exact ih hseen
      · rw [List.filter_cons_of_neg ha]
        refine ih fun b hb => ?_
        have hne : b ≠ a := fun h => ha (h ▸ hb)
        rw [List.mem_cons, hseen b hb]
        simp [hne]

lemma firsts_filter (p : α → Bool) (l : List α) : firsts [] (l.filter p) = (firsts [] l).filter p :=
  firsts_filter_of l fun _ _ => Iff.rfl

/-- The first occurrences in a start of a list are a start of those in the list. -/
lemma exists_firsts_append (seen l l' : List α) :
    ∃ rest, firsts seen (l ++ l') = firsts seen l ++ rest := by
  induction l generalizing seen with
  | nil => exact ⟨firsts seen l', rfl⟩
  | cons a l ih =>
    rw [List.cons_append, firsts, firsts]
    split
    · exact ih seen
    · obtain ⟨rest, hrest⟩ := ih (a :: seen)
      exact ⟨rest, by rw [hrest, List.cons_append]⟩

section Order

variable {α : Type u} [LinearOrder α]

variable {l : List α}

lemma lt_dedupAfter {last : α} (h : (last :: l).Pairwise (· ≤ ·)) :
    (last :: dedupAfter last l).Pairwise (· < ·) := by
  induction l generalizing last with
  | nil => exact List.pairwise_singleton _ _
  | cons b rest ih =>
    obtain ⟨hlast, hrest⟩ := List.pairwise_cons.mp h
    unfold dedupAfter
    split
    · rename_i hb
      subst hb
      exact ih hrest
    · rename_i hb
      have hlt : last < b := lt_of_le_of_ne (hlast b (by simp)) (Ne.symm hb)
      have htail := ih hrest
      refine List.pairwise_cons.mpr ⟨?_, htail⟩
      intro c hc
      rcases List.mem_cons.mp hc with rfl | hc
      · exact hlt
      · exact lt_trans hlt ((List.pairwise_cons.mp htail).1 c hc)

lemma lt_dedup (h : l.Pairwise (· ≤ ·)) : (dedup l).Pairwise (· < ·) := by
  cases l with
  | nil => exact .nil
  | cons a rest => exact lt_dedupAfter h

/-- **Sorting and removing duplicates depends on the items only.** -/
lemma sort_dedup_eq {l' : List α} (h : ∀ a, a ∈ l ↔ a ∈ l') (hl : l.Pairwise (· ≤ ·))
    (hl' : l'.Pairwise (· ≤ ·)) : dedup l = dedup l' := by
  have hlt := lt_dedup hl
  have hlt' := lt_dedup hl'
  have hperm : (dedup l).Perm (dedup l') :=
    (List.perm_ext_iff_of_nodup (hlt.imp ne_of_lt) (hlt'.imp ne_of_lt)).mpr (by simp [h])
  exact hperm.eq_of_pairwise (fun _ _ _ _ hab hba => absurd hab (lt_asymm hba)) hlt hlt'

end Order

end Distinct
