import Mathlib.Data.Finset.Sort

/-!
# Keyset pagination

Reading a finite set in ascending order, page by page, with the last key of a page
as the cursor of the next.  `after T c` is what is left to read behind the cursor
`c`, and `after_getLast` the one law of the scheme: behind the last key of a page
lies the rest of what the page was taken from.

A table of rows with distinct keys is read the same way, one `page` after the other, even
while it changes.  A row that stays where it is comes in the page or is behind its last row
(`mem_page_or_behind`), and what a page has of a set of such rows is what the set has
between the two cursors (`filter_page`).
-/

namespace Keyset

universe u

variable {α : Type u} [LinearOrder α]

/-- The keys of `T` behind the cursor, in ascending order. -/
def after (T : Finset α) (cursor : α) : List α := (T.filter (cursor < ·)).sort (· ≤ ·)

variable {T : Finset α} {cursor : α}

lemma mem_after {x : α} : x ∈ after T cursor ↔ x ∈ T ∧ cursor < x := by
  simp [after]

lemma pairwise_after (T : Finset α) (cursor : α) : (after T cursor).Pairwise (· < ·) :=
  (Finset.sortedLT_sort _).pairwise

/-- An ascending list of exactly the keys behind the cursor is what is left. -/
lemma eq_after {l : List α} (hsorted : l.Pairwise (· < ·))
    (hmem : ∀ x, x ∈ l ↔ x ∈ T ∧ cursor < x) : l = after T cursor := by
  have hnodup : l.Nodup := hsorted.imp fun h => ne_of_lt h
  have hperm : l.Perm (after T cursor) := by
    refine (List.perm_ext_iff_of_nodup hnodup (Finset.sort_nodup _ _)).mpr fun x => ?_
    exact (hmem x).trans mem_after.symm
  refine hperm.eq_of_pairwise ?_ hsorted (pairwise_after T cursor)
  exact fun a b _ _ hab hba => absurd (lt_trans hab hba) (lt_irrefl a)

/-- **Behind the last key of a page lies the rest.** -/
lemma after_getLast {page rest : List α} (h : after T cursor = page ++ rest) (hne : page ≠ []) :
    after T (page.getLast hne) = rest := by
  have hsorted : (page ++ rest).Pairwise (· < ·) := h ▸ pairwise_after T cursor
  obtain ⟨hpage, hrest, hcross⟩ := List.pairwise_append.mp hsorted
  have hlast := List.getLast_mem hne
  have hmem : ∀ x, x ∈ page ++ rest ↔ x ∈ T ∧ cursor < x := fun x => by rw [← h, mem_after]
  refine (eq_after hrest fun x => ?_).symm
  constructor
  · intro hx
    exact ⟨((hmem x).mp (List.mem_append_right _ hx)).1, hcross _ hlast x hx⟩
  · rintro ⟨hT, hlt⟩
    have hcursor := ((hmem _).mp (List.mem_append_left rest hlast)).2
    rcases List.mem_append.mp ((hmem x).mpr ⟨hT, lt_trans hcursor hlt⟩) with hx | hx
    · -- a key of the page is not behind its last key
      have hle : x ≤ page.getLast hne := by
        rcases List.mem_iff_getElem.mp hx with ⟨i, hi, rfl⟩
        rw [List.getLast_eq_getElem]
        rcases Nat.lt_or_ge i (page.length - 1) with hlt' | hge
        · exact le_of_lt (List.pairwise_iff_getElem.mp hpage i (page.length - 1) hi (by omega) hlt')
        · have : i = page.length - 1 := by omega
          subst this
          exact le_refl _
      exact absurd hlt (not_lt_of_ge hle)
    · exact hx

/-! ## Pages of a table -/

section

variable {β : Type u} {key : β → α} {rows : List β} {cursor : Option α} {limit : Nat}

/-- The key is behind the cursor; without a cursor every key is. -/
def Behind (cursor : Option α) (k : α) : Prop := ∀ c ∈ cursor, c < k

instance (cursor : Option α) (k : α) : Decidable (Behind cursor k) :=
  inferInstanceAs (Decidable (∀ c ∈ cursor, c < k))

@[simp] lemma behind_none (k : α) : Behind none k := fun c hc => by cases hc

/-- The rows behind the cursor in the order of their keys. -/
def behind (key : β → α) (rows : List β) (cursor : Option α) : List β :=
  (rows.filter fun row => Behind cursor (key row)).mergeSort fun a b => decide (key a ≤ key b)

/-- The first rows behind the cursor. -/
def page (key : β → α) (rows : List β) (cursor : Option α) (limit : Nat) : List β :=
  (behind key rows cursor).take limit

/-- The cursor behind a page. -/
def next (key : β → α) (read : List β) : Option α := read.getLast?.map key

variable {row : β}

lemma mem_behind : row ∈ behind key rows cursor ↔ row ∈ rows ∧ Behind cursor (key row) := by
  simp [behind]

lemma mem_of_mem_page (h : row ∈ page key rows cursor limit) :
    row ∈ rows ∧ Behind cursor (key row) :=
  mem_behind.mp (List.mem_of_mem_take h)

lemma pairwise_behind (hkeys : (rows.map key).Nodup) :
    (behind key rows cursor).Pairwise (key · < key ·) := by
  have hsorted : (behind key rows cursor).Pairwise fun a b => decide (key a ≤ key b) = true :=
    List.pairwise_mergeSort (fun a b c hab hbc => by
        simp only [decide_eq_true_eq] at *
        exact le_trans hab hbc)
      (fun a b => by
        simp only [Bool.or_eq_true, decide_eq_true_eq]
        exact le_total _ _) _
  have hne : (behind key rows cursor).Pairwise (key · ≠ key ·) := by
    refine List.pairwise_map.mp ?_
    exact ((List.mergeSort_perm _ _).map key).nodup_iff.mpr
      (hkeys.sublist (List.filter_sublist.map key))
  exact hsorted.imp₂ (fun a b hle hne => lt_of_le_of_ne (of_decide_eq_true hle) hne) hne

lemma pairwise_page (hkeys : (rows.map key).Nodup) :
    (page key rows cursor limit).Pairwise (key · < key ·) :=
  (pairwise_behind hkeys).sublist (List.take_sublist ..)

lemma not_behind_of_mem {read : List β} (hsorted : read.Pairwise (key · < key ·))
    (h : row ∈ read) : ¬ Behind (next key read) (key row) := by
  obtain ⟨front, last, rfl⟩ := List.eq_nil_or_concat' read |>.resolve_left (List.ne_nil_of_mem h)
  intro hbehind
  have hlast : key last < key row := hbehind _ (by simp [next])
  rcases List.mem_append.mp h with hfront | hrow
  · have := (List.pairwise_append.mp hsorted).2.2 row hfront last (List.mem_singleton_self _)
    exact absurd (lt_trans this hlast) (lt_irrefl _)
  · rw [List.mem_singleton.mp hrow] at hlast
    exact lt_irrefl _ hlast

/-- **A row that stays** comes in the page or is behind it. -/
lemma mem_page_or_behind (hkeys : (rows.map key).Nodup) (hlimit : 1 ≤ limit) (hrow : row ∈ rows)
    (hcursor : Behind cursor (key row)) :
    row ∈ page key rows cursor limit ∨
      (page key rows cursor limit ≠ [] ∧
        Behind (next key (page key rows cursor limit)) (key row)) := by
  have hmem : row ∈ behind key rows cursor := mem_behind.mpr ⟨hrow, hcursor⟩
  have hsplit : page key rows cursor limit ++ (behind key rows cursor).drop limit =
      behind key rows cursor := List.take_append_drop ..
  have hsorted : (behind key rows cursor).Pairwise (key · < key ·) := pairwise_behind hkeys
  rw [← hsplit] at hmem hsorted
  rcases List.mem_append.mp hmem with hpage | hrest
  · exact .inl hpage
  · refine .inr ⟨?_, fun c hc => ?_⟩
    · intro hnil
      have hlength := congrArg List.length hnil
      rw [page, List.length_take, List.length_nil] at hlength
      have := List.length_pos_of_mem hrest
      rw [List.length_drop] at this
      omega
    · obtain ⟨last, hlast, rfl⟩ := Option.map_eq_some_iff.mp hc
      exact (List.pairwise_append.mp hsorted).2.2 last (List.mem_of_getLast? hlast) row hrest

/-- What a page has of a set of rows, given in the order of their keys. -/
lemma filter_page (hkeys : (rows.map key).Nodup) (hlimit : 1 ≤ limit) {p : β → Bool}
    {own : List β} (hsorted : own.Pairwise (key · < key ·))
    (hown : ∀ row, row ∈ own ↔ row ∈ rows ∧ p row) :
    (page key rows cursor limit).filter p = own.filter fun row =>
      Behind cursor (key row) ∧ ¬ Behind (next key (page key rows cursor limit)) (key row) := by
  have hpage : (page key rows cursor limit).Pairwise (key · < key ·) := pairwise_page hkeys
  have hleft := hpage.filter p
  have hright := hsorted.filter fun row => decide
    (Behind cursor (key row) ∧ ¬ Behind (next key (page key rows cursor limit)) (key row))
  have hnodup : ∀ {l : List β}, l.Pairwise (key · < key ·) → l.Nodup := fun h =>
    h.imp fun hlt heq => by rw [heq] at hlt; exact lt_irrefl _ hlt
  refine List.Perm.eq_of_pairwise ?_ hleft hright
    ((List.perm_ext_iff_of_nodup (hnodup hleft) (hnodup hright)).mpr fun row => ?_)
  · exact fun a b _ _ hab hba => absurd (lt_trans hab hba) (lt_irrefl _)
  · rw [List.mem_filter, List.mem_filter, hown, decide_eq_true_eq]
    constructor
    · rintro ⟨hrow, hp⟩
      obtain ⟨hrows, hcursor⟩ := mem_of_mem_page hrow
      exact ⟨⟨hrows, hp⟩, hcursor, not_behind_of_mem hpage hrow⟩
    · rintro ⟨⟨hrows, hp⟩, hcursor, hnot⟩
      rcases mem_page_or_behind hkeys hlimit hrows hcursor with hrow | ⟨-, hbehind⟩
      · exact ⟨hrow, hp⟩
      · exact absurd hbehind hnot

/-- Rows in order, up to a cursor and then up to a later one. -/
lemma filter_append_filter {cursor' : Option α} {own : List β}
    (hsorted : own.Pairwise (key · < key ·))
    (hlater : ∀ k, ¬ Behind cursor k → ¬ Behind cursor' k) :
    (own.filter fun row => ¬ Behind cursor (key row)) ++
        own.filter (fun row => Behind cursor (key row) ∧ ¬ Behind cursor' (key row)) =
      own.filter fun row => ¬ Behind cursor' (key row) := by
  induction own with
  | nil => rfl
  | cons row own ih =>
    obtain ⟨hfirst, hrest⟩ := List.pairwise_cons.mp hsorted
    by_cases hrow : Behind cursor (key row)
    · -- all later rows are behind the cursor as well
      have hbehind : ∀ other ∈ row :: own, Behind cursor (key other) := by
        intro other hother c hc
        rcases List.mem_cons.mp hother with rfl | hother
        · exact hrow c hc
        · exact lt_trans (hrow c hc) (hfirst other hother)
      rw [List.filter_eq_nil_iff.mpr fun other hother => by simpa using hbehind other hother,
        List.nil_append]
      exact List.filter_congr fun other hother => by simp [hbehind other hother]
    · have hnot := hlater _ hrow
      simp only [List.filter_cons, hrow, hnot, not_false_eq_true, decide_true, if_true, false_and,
        decide_false, Bool.false_eq_true, if_false, List.cons_append]
      exact congrArg _ (ih hrest)

/-- The cursor moves on with every page. -/
lemma not_behind_next {k : α} (hne : page key rows cursor limit ≠ [])
    (h : ¬ Behind cursor k) : ¬ Behind (next key (page key rows cursor limit)) k := by
  intro hnext
  obtain ⟨last, hlast⟩ := List.getLast?_isSome.mpr hne |> Option.isSome_iff_exists.mp
  have hbehind := (mem_of_mem_page (List.mem_of_getLast? hlast)).2
  refine h fun c hc => lt_trans (hbehind c hc) (hnext _ ?_)
  rw [next, hlast]
  rfl

end

end Keyset
