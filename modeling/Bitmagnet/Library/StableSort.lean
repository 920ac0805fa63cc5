import Mathlib.Data.List.Nodup

/-!
# Stable sorts by rank

A stable sort by the rank of a key keeps the order of the items of each key
(`filter_mergeSort`), and a list sorted by rank is determined by those orders
(`eq_of_filter_eq`).  So sorting items by the position of their key in a list of keys is
collecting the items of each key in turn (`mergeSort_idxOf`).
-/

namespace StableSort

variable {α κ : Type*} [DecidableEq κ] (key : α → κ) (rank : κ → Nat)

/-- The comparison by rank. -/
def byRank (a b : α) : Bool := decide (rank (key a) ≤ rank (key b))

omit [DecidableEq κ] in
lemma byRank_trans (a b c : α) (hab : byRank key rank a b) (hbc : byRank key rank b c) :
    byRank key rank a c := by
  simp only [byRank, decide_eq_true_eq] at hab hbc ⊢
  exact Nat.le_trans hab hbc

omit [DecidableEq κ] in
lemma byRank_total (a b : α) : byRank key rank a b || byRank key rank b a := by
  simp only [byRank, Bool.or_eq_true, decide_eq_true_eq]
  exact Nat.le_total ..

/-- **Stability**: the items of one key stay in order. -/
lemma filter_mergeSort (l : List α) (k : κ) :
    (l.mergeSort (byRank key rank)).filter (key · = k) = l.filter (key · = k) := by
  have hclass : (l.filter (key · = k)).Pairwise (byRank key rank · ·) := by
    refine List.pairwise_of_forall_mem_list fun a ha b hb => ?_
    have hkey : key a = key b := by
      rw [of_decide_eq_true (List.mem_filter.mp ha).2, of_decide_eq_true (List.mem_filter.mp hb).2]
    simp [byRank, hkey]
  have hsub : (l.filter (key · = k)).Sublist
      ((l.mergeSort (byRank key rank)).filter (key · = k)) := by
    have := (List.sublist_mergeSort (byRank_trans key rank) (byRank_total key rank) hclass
      List.filter_sublist).filter (key · = k)
    rw [List.filter_filter] at this
    simpa only [Bool.and_self] using this
  refine (hsub.eq_of_length ?_).symm
  exact (((List.mergeSort_perm l _).filter _).length_eq).symm

/-- A list sorted by rank is determined by the order of the items of each key. -/
lemma eq_of_filter_eq {l l' : List α}
    (hrank : ∀ a ∈ l, ∀ b ∈ l', rank (key a) = rank (key b) → key a = key b)
    (hl : l.Pairwise fun a b => rank (key a) ≤ rank (key b))
    (hl' : l'.Pairwise fun a b => rank (key a) ≤ rank (key b))
    (h : ∀ k, l.filter (key · = k) = l'.filter (key · = k)) : l = l' := by
  have hmem : ∀ a, a ∈ l ↔ a ∈ l' := by
    intro a
    have ha : a ∈ l.filter (key · = key a) ↔ a ∈ l'.filter (key · = key a) := by rw [h]
    simpa using ha
  induction l generalizing l' with
  | nil =>
    cases l' with
    | nil => rfl
    | cons b l' => exact absurd ((hmem b).mpr (List.mem_cons_self ..)) List.not_mem_nil
  | cons a l ih =>
    cases l' with
    | nil => exact absurd ((hmem a).mp (List.mem_cons_self ..)) List.not_mem_nil
    | cons b l' =>
      -- both heads have the least rank, hence one key, hence they are one item
      have hkey : key a = key b := by
        refine hrank a (List.mem_cons_self ..) b (List.mem_cons_self ..) (Nat.le_antisymm ?_ ?_)
        · rcases List.mem_cons.mp ((hmem b).mpr (List.mem_cons_self ..)) with rfl | hb
          · exact Nat.le_refl _
          · exact List.rel_of_pairwise_cons hl hb
        · rcases List.mem_cons.mp ((hmem a).mp (List.mem_cons_self ..)) with rfl | ha
          · exact Nat.le_refl _
          · exact List.rel_of_pairwise_cons hl' ha
      have hhead := h (key a)
      rw [List.filter_cons_of_pos (by simp), List.filter_cons_of_pos (by simp [hkey])] at hhead
      have hab : a = b := (List.cons.inj hhead).1
      subst hab
      have htail : ∀ k, l.filter (key · = k) = l'.filter (key · = k) := by
        intro k
        have hk := h k
        by_cases hak : key a = k
        · rw [List.filter_cons_of_pos (by simpa using hak),
            List.filter_cons_of_pos (by simpa using hak)] at hk
          exact (List.cons.inj hk).2
        · rwa [List.filter_cons_of_neg (by simpa using hak),
            List.filter_cons_of_neg (by simpa using hak)] at hk
      have hmem' : ∀ c, c ∈ l ↔ c ∈ l' := by
        intro c
        have hc : c ∈ l.filter (key · = key c) ↔ c ∈ l'.filter (key · = key c) := by rw [htail]
        simpa using hc
      rw [ih (fun c hc d hd => hrank c (List.mem_cons_of_mem _ hc) d (List.mem_cons_of_mem _ hd))
        (List.Pairwise.of_cons hl) (List.Pairwise.of_cons hl') htail hmem']

/-- The items of each of a list of distinct keys. -/
lemma filter_flatMap_classes {keys : List κ} (hkeys : keys.Nodup) (l : List α) (k : κ) :
    (keys.flatMap fun k => l.filter (key · = k)).filter (key · = k) =
      if k ∈ keys then l.filter (key · = k) else [] := by
  induction keys with
  | nil => simp
  | cons k' keys ih =>
    obtain ⟨hnotin, hkeys⟩ := List.nodup_cons.mp hkeys
    rw [List.flatMap_cons, List.filter_append, ih hkeys, List.filter_filter]
    by_cases hk : k = k'
    · subst hk
      simp [hnotin]
    · have hnone : l.filter (fun a => decide (key a = k) && decide (key a = k')) = [] := by
        refine List.filter_eq_nil_iff.mpr fun a _ => ?_
        simp only [Bool.and_eq_true, decide_eq_true_eq, not_and]
        intro ha ha'
        exact hk (ha.symm.trans ha')
      simp [hnone, hk]

/-- **Sorting by position in a list of distinct keys** collects the items of each key. -/
lemma mergeSort_idxOf {keys : List κ} (hkeys : keys.Nodup) (l : List α) :
    (l.filter (key · ∈ keys)).mergeSort (byRank key keys.idxOf) =
      keys.flatMap fun k => l.filter (key · = k) := by
  have hkey : ∀ k, ∀ a ∈ l.filter (key · = k), key a = k := fun k a ha =>
    of_decide_eq_true (List.mem_filter.mp ha).2
  have hin : ∀ a ∈ keys.flatMap fun k => l.filter (key · = k), key a ∈ keys := by
    intro a ha
    obtain ⟨k, hk, ha⟩ := List.mem_flatMap.mp ha
    rwa [hkey k a ha]
  refine eq_of_filter_eq key keys.idxOf (fun a _ b hb heq => ?_) ?_ ?_ fun k => ?_
  · exact ((List.idxOf_inj (hin b hb)).mp heq.symm).symm
  · refine (List.pairwise_mergeSort (byRank_trans key keys.idxOf) (byRank_total key keys.idxOf)
      _).imp fun h => ?_
    exact of_decide_eq_true h
  · refine List.pairwise_flatMap.mpr ⟨fun k _ => ?_, ?_⟩
    · refine List.pairwise_of_forall_mem_list fun a ha b hb => ?_
      exact Nat.le_of_eq (by rw [hkey k a ha, hkey k b hb])
    · refine List.pairwise_iff_getElem.mpr fun i j hi hj hij a ha b hb => ?_
      rw [hkey _ a ha, hkey _ b hb, hkeys.idxOf_getElem, hkeys.idxOf_getElem]
      exact Nat.le_of_lt hij
  · rw [filter_mergeSort, filter_flatMap_classes key hkeys, List.filter_filter]
    split
    · rename_i hk
      refine List.filter_congr fun a _ => ?_
      by_cases hak : key a = k <;> simp [hak, hk]
    · rename_i hk
      refine List.filter_eq_nil_iff.mpr fun a _ => ?_
      simp only [Bool.and_eq_true, decide_eq_true_eq, not_and]
      intro hak
      rwa [hak]

end StableSort
