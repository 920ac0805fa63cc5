import Mathlib.Data.List.Sort
import Mathlib.Order.Lattice

/-!
# Maps as sorted lists of entries

An ordered map is the list of its entries by ascending key.  What a map holds after
a series of insertions of distinct keys does not depend on their order
(`ofEntries_eq`): it is the one sorted arrangement of the entries.
-/

namespace SortedMap

universe u v

variable {κ : Type u} {V : Type v} [LinearOrder κ]

/-- Entries by strictly ascending key. -/
def Sorted (m : List (κ × V)) : Prop := m.Pairwise fun a b => a.1 < b.1

/-- Insert an entry; one with the same key is replaced. -/
def insert (k : κ) (v : V) : List (κ × V) → List (κ × V)
  | [] => [(k, v)]
  | (k', v') :: rest =>
    if k < k' then (k, v) :: (k', v') :: rest
    else if k = k' then (k, v) :: rest
    else (k', v') :: insert k v rest

/-- The entries that are there. -/
def present (entries : List (κ × Option V)) : List (κ × V) :=
  entries.filterMap fun e => e.2.map (e.1, ·)

/-- Insert, in order, the entries that are there. -/
def ofEntries (entries : List (κ × Option V)) : List (κ × V) :=
  entries.foldl (fun m e => e.2.elim m fun v => insert e.1 v m) []

variable {k : κ} {m : List (κ × V)} {v : V}

lemma mem_insert {e : κ × V} (h : e ∈ insert k v m) : e = (k, v) ∨ e ∈ m := by
  induction m with
  | nil => exact .inl (List.mem_singleton.mp h)
  | cons entry rest ih =>
    unfold insert at h
    split at h
    · exact List.mem_cons.mp h
    · split at h
      · exact (List.mem_cons.mp h).imp_right (List.mem_cons_of_mem _)
      · rcases List.mem_cons.mp h with rfl | h
        · exact .inr (List.mem_cons_self ..)
        · exact (ih h).imp_right (List.mem_cons_of_mem _)

lemma sorted_insert (h : Sorted m) : Sorted (insert k v m) := by
  induction m with
  | nil => exact List.pairwise_singleton _ _
  | cons entry rest ih =>
    obtain ⟨hhead, hrest⟩ := List.pairwise_cons.mp h
    unfold insert
    split
    · rename_i hlt
      refine List.pairwise_cons.mpr ⟨?_, h⟩
      intro e he
      rcases List.mem_cons.mp he with rfl | he
      · exact hlt
      · exact lt_trans hlt (hhead e he)
    · rename_i hnot
      split
      · rename_i heq
        subst heq
        exact List.pairwise_cons.mpr ⟨hhead, hrest⟩
      · rename_i hne
        refine List.pairwise_cons.mpr ⟨?_, ih hrest⟩
        intro e he
        rcases mem_insert he with rfl | he
        · exact lt_of_le_of_ne (not_lt.mp hnot) (Ne.symm hne)
        · exact hhead e he

/-- A new key adds its entry. -/
lemma perm_insert (h : k ∉ m.map Prod.fst) : (insert k v m).Perm ((k, v) :: m) := by
  induction m with
  | nil => exact List.Perm.refl _
  | cons entry rest ih =>
    obtain ⟨hne, hrest⟩ := not_or.mp (fun hor => h (by simpa using hor) :
      ¬(k = entry.1 ∨ k ∈ rest.map Prod.fst))
    rw [insert, if_neg hne]
    split
    · exact List.Perm.refl _
    · exact ((ih hrest).cons entry).trans (List.Perm.swap ..)

/-- A key that is there keeps its place. -/
lemma insert_append_cons {v₀ : V} {before after : List (κ × V)}
    (h : Sorted (before ++ (k, v₀) :: after)) :
    insert k v (before ++ (k, v₀) :: after) = before ++ (k, v) :: after := by
  induction before with
  | nil => simp [insert]
  | cons entry before ih =>
    obtain ⟨hhead, hrest⟩ := List.pairwise_cons.mp h
    have hlt : entry.1 < k := hhead (k, v₀) (by simp)
    rw [List.cons_append, insert, if_neg (not_lt_of_gt hlt), if_neg (ne_of_gt hlt), ih hrest,
      List.cons_append]

/-- A key above all others goes to the end. -/
lemma insert_eq_concat (h : ∀ e ∈ m, e.1 < k) : insert k v m = m ++ [(k, v)] := by
  induction m with
  | nil => rfl
  | cons entry m ih =>
    obtain ⟨hlt, hrest⟩ := List.forall_mem_cons.mp h
    rw [insert, if_neg (not_lt_of_gt hlt), if_neg (ne_of_gt hlt), ih hrest, List.cons_append]

lemma ofEntries_eq_foldl (entries : List (κ × Option V)) :
    ofEntries entries = (present entries).foldl (fun m e => insert e.1 e.2 m) [] := by
  unfold ofEntries present
  generalize ([] : List (κ × V)) = m
  induction entries generalizing m with
  | nil => rfl
  | cons e entries ih =>
    obtain ⟨k, _ | v⟩ := e
    · exact ih m
    · exact ih (insert k v m)

lemma foldl_insert {l : List (κ × V)} (hm : Sorted m) (hnodup : ((l ++ m).map Prod.fst).Nodup) :
    Sorted (l.foldl (fun m e => insert e.1 e.2 m) m) ∧
      (l.foldl (fun m e => insert e.1 e.2 m) m).Perm (l ++ m) := by
  induction l generalizing m with
  | nil => exact ⟨hm, List.Perm.refl _⟩
  | cons e l ih =>
    have hnew : e.1 ∉ (l ++ m).map Prod.fst := (List.nodup_cons.mp hnodup).1
    have hperm : (insert e.1 e.2 m).Perm (e :: m) :=
      perm_insert fun hmem => hnew (by rw [List.map_append]; exact List.mem_append_right _ hmem)
    have hmove : (l ++ insert e.1 e.2 m).Perm (e :: (l ++ m)) :=
      (hperm.append_left l).trans List.perm_middle
    have hnodup' : ((l ++ insert e.1 e.2 m).map Prod.fst).Nodup :=
      (hmove.map Prod.fst).nodup_iff.mpr hnodup
    obtain ⟨hsorted, hall⟩ := ih (sorted_insert hm) hnodup'
    exact ⟨hsorted, hall.trans hmove⟩

lemma sorted_ofEntries (entries : List (κ × Option V)) : Sorted (ofEntries entries) := by
  rw [ofEntries_eq_foldl]
  have hall : ∀ l m : List (κ × V), Sorted m →
      Sorted (l.foldl (fun m e => insert e.1 e.2 m) m) := by
    intro l
    induction l with
    | nil => exact fun m hm => hm
    | cons e l ih => exact fun m hm => ih _ (sorted_insert hm)
  exact hall _ _ List.Pairwise.nil

/-- Only what was inserted is in the map. -/
lemma mem_of_mem_ofEntries {entries : List (κ × Option V)} {e : κ × V}
    (h : e ∈ ofEntries entries) : (e.1, some e.2) ∈ entries := by
  rw [ofEntries_eq_foldl] at h
  have hall : ∀ l m : List (κ × V), e ∈ l.foldl (fun m e => insert e.1 e.2 m) m →
      e ∈ l ∨ e ∈ m := by
    intro l
    induction l with
    | nil => exact fun m hm => .inr hm
    | cons e' l ih =>
      intro m hm
      rcases ih _ hm with hl | hm
      · exact .inl (List.mem_cons_of_mem _ hl)
      · rcases mem_insert hm with rfl | hm
        · exact .inl (List.mem_cons_self ..)
        · exact .inr hm
  have hpresent := (hall _ _ h).resolve_right (List.not_mem_nil)
  obtain ⟨⟨k, v⟩, hmem, hv⟩ := List.mem_filterMap.mp hpresent
  obtain ⟨v, rfl, rfl⟩ := Option.map_eq_some_iff.mp hv
  exact hmem

/-- **The order of insertion does not matter**: the map is the sorted arrangement of what
was inserted. -/
lemma ofEntries_eq {entries : List (κ × Option V)} {l : List (κ × V)} (hsorted : Sorted l)
    (hperm : l.Perm (present entries)) : ofEntries entries = l := by
  have hkeys : (l.map Prod.fst).Nodup :=
    List.pairwise_map.mpr (hsorted.imp fun h => ne_of_lt h)
  have hnodup : ((present entries ++ []).map Prod.fst).Nodup := by
    rw [List.append_nil]
    exact (hperm.map Prod.fst).nodup_iff.mp hkeys
  obtain ⟨hresult, hall⟩ := foldl_insert List.Pairwise.nil hnodup
  rw [ofEntries_eq_foldl]
  rw [List.append_nil] at hall
  refine (hall.trans hperm.symm).eq_of_pairwise ?_ hresult hsorted
  exact fun a b _ _ hab hba => absurd (lt_trans hab hba) (lt_irrefl a.1)

/-- A map filled from a table of fields is the table read in the order of its keys. -/
lemma ofEntries_map {ι : Type*} {fields order : List ι} {key : ι → κ} {field : ι → Option V}
    (hperm : order.Perm fields) (hsorted : (order.map key).Pairwise (· < ·)) :
    ofEntries (fields.map fun i => (key i, field i)) =
      present (order.map fun i => (key i, field i)) := by
  refine ofEntries_eq ?_ ((hperm.map _).filterMap _)
  have hall : (order.map fun i => (key i, field i)).Pairwise fun a b => a.1 < b.1 :=
    List.pairwise_map.mpr (List.pairwise_map.mp hsorted)
  refine List.Pairwise.filterMap _ ?_ hall
  rintro ⟨k, v⟩ ⟨k', v'⟩ hlt e he e' he'
  obtain ⟨_, _, rfl⟩ := Option.map_eq_some_iff.mp he
  obtain ⟨_, _, rfl⟩ := Option.map_eq_some_iff.mp he'
  exact hlt

omit [LinearOrder κ] in
/-- Reading the table entry by entry. -/
lemma flatMap_present {ι : Type*} {β : Type*} {order : List ι} {key : ι → κ}
    {field : ι → Option V} (f : κ × V → List β) :
    (present (order.map fun i => (key i, field i))).flatMap f =
      (order.filter fun i => (field i).isSome).flatMap fun i =>
        (field i).elim [] fun v => f (key i, v) := by
  induction order with
  | nil => rfl
  | cons i order ih =>
    unfold present at ih ⊢
    cases hfield : field i with
    | none =>
      simp only [List.map_cons, List.filterMap_cons, hfield, Option.map_none, ih,
        List.filter_cons, Option.isSome_none, Bool.false_eq_true, if_false]
    | some v =>
      simp only [List.map_cons, List.filterMap_cons, hfield, Option.map_some, ih,
        List.filter_cons, Option.isSome_some, if_true, List.flatMap_cons, Option.elim_some]

/-! ## Looking up -/

lemma lookup_insert [BEq κ] [LawfulBEq κ] {k' : κ} :
    (insert k v m).lookup k' = if k' = k then some v else m.lookup k' := by
  induction m with
  | nil =>
    by_cases hk : k' = k
    · simp [insert, hk]
    · have hne : (k' == k) = false := by simpa using hk
      simp [insert, List.lookup_cons, hne, hk]
  | cons entry rest ih =>
    obtain ⟨k₀, v₀⟩ := entry
    unfold insert
    split
    · by_cases hk : k' = k
      · simp [hk]
      · have hne : (k' == k) = false := by simpa using hk
        simp [List.lookup_cons, hne, hk]
    · split
      · rename_i heq
        subst heq
        by_cases hk : k' = k
        · simp [hk]
        · have hne : (k' == k) = false := by simpa using hk
          simp [List.lookup_cons, hne, hk]
      · rename_i hk₀
        by_cases hk' : k' = k₀
        · subst hk'
          have hne : k' ≠ k := fun h => hk₀ h.symm
          simp [hne]
        · have hne : (k' == k₀) = false := by simpa using hk'
          simp only [List.lookup_cons, hne, ih]

/-- Inserting items under keys that are new: a lookup finds the item with the key. -/
lemma lookup_concat {α : Type*} {key : α → κ} {items : List α} {item : α}
    {m : List (κ × α)} (hm : ∀ k, m.lookup k = items.find? (key · = k))
    (hnew : m.lookup (key item) = none) (k : κ) :
    (insert (key item) item m).lookup k = (items ++ [item]).find? (key · = k) := by
  rw [lookup_insert, List.find?_append]
  by_cases hk : k = key item
  · subst hk
    rw [← hm, hnew]
    simp
  · have hne : ¬ key item = k := fun h => hk h.symm
    simp [hk, hne, hm]

end SortedMap
