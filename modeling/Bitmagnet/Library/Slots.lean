import Mathlib.Data.List.Nodup
import Mathlib.Data.List.Perm.Subperm
import Mathlib.Data.List.ReduceOption

/-!
# Slots that are filled in any order

A table of `n` slots receives numbered items, each number at most once.  What the
table holds is a function of the items received (`table`), so receiving one more
item is one assignment (`table_concat`), and when `n` items have arrived the table is
complete (`exists_of_length_eq`).  The order of arrival does not matter: whatever
permutation of the numbered items arrives, the full table lists them by number
(`table_of_perm`).
-/

universe u

namespace Slots

variable {α : Type u}

/-- The items received for distinct slots of a table of `n`. -/
structure Legal (n : Nat) (received : List (Nat × α)) : Prop where
  nodup : (received.map Prod.fst).Nodup
  lt : ∀ item ∈ received, item.1 < n

/-- What `n` slots hold after `received`. -/
def table (n : Nat) (received : List (Nat × α)) : List (Option α) :=
  (List.range n).map fun i => received.lookup i

/-- A list of items with their numbers. -/
def indexed (items : List α) : List (Nat × α) := items.zipIdx.map Prod.swap

@[simp] lemma length_table (n : Nat) (received : List (Nat × α)) :
    (table n received).length = n := by
  simp [table]

lemma table_nil (n : Nat) : table n ([] : List (Nat × α)) = List.replicate n none := by
  refine List.ext_getElem (by simp) fun i _ _ => ?_
  simp [table]

variable {i : Nat} {items : List α} {received : List (Nat × α)}

lemma getElem?_table {n : Nat} (received : List (Nat × α)) (h : i < n) :
    (table n received)[i]? = some (received.lookup i) := by
  simp [table, h]

lemma mem_indexed {a : α} : (i, a) ∈ indexed items ↔ items[i]? = some a := by
  simp [indexed, List.mem_zipIdx_iff_getElem?]

lemma map_fst_indexed (items : List α) :
    (indexed items).map Prod.fst = List.range items.length := by
  simp [indexed, List.map_map, List.range_eq_range', Function.comp_def]

/-- Distinct numbers make looking an item up the same as its being there. -/
lemma lookup_eq_some (h : (received.map Prod.fst).Nodup) {a : α} :
    received.lookup i = some a ↔ (i, a) ∈ received := by
  induction received with
  | nil => simp
  | cons item rest ih =>
    obtain ⟨j, b⟩ := item
    simp only [List.map_cons, List.nodup_cons] at h
    by_cases hij : i = j
    · subst hij
      have hnot : (i, a) ∉ rest := fun hmem => h.1 (List.mem_map_of_mem hmem)
      simp [hnot, eq_comm]
    · have hne : (i == j) = false := by simpa using hij
      simp [List.lookup_cons, hne, ih h.2, hij]

lemma lookup_eq_none : received.lookup i = none ↔ i ∉ received.map Prod.fst := by
  induction received with
  | nil => simp
  | cons item rest ih =>
    obtain ⟨j, b⟩ := item
    by_cases hij : i = j
    · subst hij
      simp
    · have hne : (i == j) = false := by simpa using hij
      simp only [List.lookup_cons, hne, ih, List.map_cons, List.mem_cons, hij, false_or]

/-- **One more item is one assignment.** -/
lemma table_concat {n : Nat} (a : α) (hi : i ∉ received.map Prod.fst) :
    table n (received ++ [(i, a)]) = (table n received).set i (some a) := by
  refine List.ext_getElem (by simp) fun j hj _ => ?_
  have hlookup : ∀ k, (received ++ [(i, a)]).lookup k =
      (received.lookup k).or (if k = i then some a else none) := by
    intro k
    rw [List.lookup_append]
    by_cases hk : k = i
    · simp [hk]
    · have hne : (k == i) = false := by simpa using hk
      simp [List.lookup_cons, hne, hk]
  by_cases hji : i = j
  · subst hji
    simp [table, hlookup, lookup_eq_none.mpr hi]
  · have hne : j ≠ i := fun h => hji h.symm
    rw [List.getElem_set_ne hji]
    simp [table, hlookup, hne]

namespace Legal

variable {n : Nat} {received : List (Nat × α)}

lemma nil : Legal n ([] : List (Nat × α)) := ⟨List.nodup_nil, by simp⟩

lemma concat (h : Legal n received) {i : Nat} {a : α} (hi : i ∉ received.map Prod.fst)
    (hlt : i < n) : Legal n (received ++ [(i, a)]) := by
  refine ⟨?_, ?_⟩
  · rw [List.map_append, List.nodup_append]
    refine ⟨h.nodup, List.nodup_singleton _, ?_⟩
    rintro j hj k hk rfl
    have hji : j = i := by simpa using hk
    exact hi (hji ▸ hj)
  · intro item hitem
    rcases List.mem_append.mp hitem with hmem | hmem
    · exact h.lt item hmem
    · rw [List.mem_singleton.mp hmem]
      exact hlt

lemma keys_subset (h : Legal n received) : received.map Prod.fst ⊆ List.range n := by
  intro i hi
  obtain ⟨item, hitem, rfl⟩ := List.mem_map.mp hi
  exact List.mem_range.mpr (h.lt item hitem)

lemma length_le (h : Legal n received) : received.length ≤ n := by
  have hle := (List.subperm_of_subset h.nodup h.keys_subset).length_le
  simpa using hle

/-- **With `n` items the table is complete**, and it holds what was received. -/
lemma exists_of_length_eq (h : Legal n received) (hlen : received.length = n) :
    ∃ items : List α, items.length = n ∧ table n received = items.map some ∧
      received.Perm (indexed items) := by
  have hperm : (received.map Prod.fst).Perm (List.range n) :=
    (List.subperm_of_subset h.nodup h.keys_subset).perm_of_length_le (by simp [hlen])
  have hsome : ∀ slot ∈ table n received, slot.isSome := by
    intro slot hslot
    obtain ⟨i, hi, rfl⟩ := List.mem_map.mp hslot
    by_contra hnone
    rw [Option.not_isSome_iff_eq_none] at hnone
    exact lookup_eq_none.mp hnone (hperm.mem_iff.mpr hi)
  have htable : table n received = (table n received).reduceOption.map some := by
    generalize table n received = slots at hsome ⊢
    induction slots with
    | nil => rfl
    | cons slot rest ih =>
      obtain ⟨a, rfl⟩ := Option.isSome_iff_exists.mp (hsome slot (by simp))
      rw [List.reduceOption_cons_of_some, List.map_cons, ← ih fun s hs => hsome s (by simp [hs])]
  have hlength : (table n received).reduceOption.length = n := by
    have := congrArg List.length htable
    simpa using this.symm
  refine ⟨_, hlength, htable, ?_⟩
  refine (List.perm_ext_iff_of_nodup ?_ ?_).mpr ?_
  · exact List.Nodup.of_map _ h.nodup
  · refine List.Nodup.of_map Prod.fst ?_
    rw [map_fst_indexed]
    exact List.nodup_range
  · rintro ⟨i, a⟩
    rw [mem_indexed, ← lookup_eq_some h.nodup]
    by_cases hi : i < n
    · have hget := getElem?_table received hi
      rw [htable, List.getElem?_map] at hget
      cases hitem : (table n received).reduceOption[i]? with
      | none => simp [hitem] at hget
      | some b =>
        rw [hitem] at hget
        simp only [Option.map_some, Option.some.injEq] at hget
        rw [← hget]
    · have hnone : received.lookup i = none :=
        lookup_eq_none.mpr fun hmem => hi (List.mem_range.mp (h.keys_subset hmem))
      rw [hnone, List.getElem?_eq_none (by omega)]

end Legal

lemma legal_of_perm (h : received.Perm (indexed items)) : Legal items.length received := by
  have hkeys := (h.map Prod.fst).trans (List.Perm.of_eq (map_fst_indexed items))
  refine ⟨hkeys.nodup_iff.mpr List.nodup_range, ?_⟩
  intro item hitem
  exact List.mem_range.mp (hkeys.mem_iff.mp (List.mem_map_of_mem hitem))

/-- **The order of arrival does not matter.** -/
lemma table_of_perm (h : received.Perm (indexed items)) :
    table items.length received = items.map some := by
  refine List.ext_getElem (by simp) fun i hi hi' => ?_
  have hlt : i < items.length := by simpa using hi
  have hmem : (i, items[i]) ∈ received :=
    h.mem_iff.mpr (mem_indexed.mpr (List.getElem?_eq_getElem hlt))
  simp [table, (lookup_eq_some (legal_of_perm h).nodup).mpr hmem]

end Slots
