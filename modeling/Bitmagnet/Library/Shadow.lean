import Mathlib.Algebra.BigOperators.Group.Multiset.Basic
import Mathlib.Data.Multiset.Filter

/-!
# Newest-wins layers with tombstones

A stack of layers, oldest first.  Each layer holds rows and a set of keys it
hides: a row is visible when no **newer** layer hides its key.  Hiding is by key
and not by row, so one tombstone replaces everything older under that key.

* `view` is the visible rows of a stack, and `view_append` its law: what lies on
  top acts on what lies below only through the keys it hides.
* `view_replace` is compaction of a run: one layer with the run's own view and
  the run's hidden keys stands for the run, whatever lies below and above.
* `view_absorb` is compaction into the bottom, and `view_overlay` its half-way
  state, with the new bottom under layers it already contains.  The latter needs
  that a layer hides its own rows from below (`Layer.SelfHiding`).
* `antiJoin` is the relational form: rows and hidden keys tagged with the rank of
  their layer and one join condition.  `antiJoin_ranked` says it computes `view`.

Rows are multisets: a query without an order returns one, and a row that is
counted twice is a different answer.
-/

namespace Shadow

universe u v

variable {R : Type u} {H : Type v}

/-- Rows, and the keys hidden in every older layer. -/
structure Layer (R : Type u) (H : Type v) where
  rows : Multiset R
  hides : Multiset H

/-- The keys some layer of the stack hides. -/
def hidden (ls : List (Layer R H)) : Multiset H := (ls.map Layer.hides).sum

@[simp] lemma hidden_nil : hidden ([] : List (Layer R H)) = 0 := rfl

@[simp] lemma hidden_cons (l : Layer R H) (ls : List (Layer R H)) :
    hidden (l :: ls) = l.hides + hidden ls := by
  simp [hidden]

@[simp] lemma hidden_append (older newer : List (Layer R H)) :
    hidden (older ++ newer) = hidden older + hidden newer := by
  simp [hidden]

variable {ls run : List (Layer R H)} {keys : Multiset H} {l : Layer R H}

lemma mem_hidden {h : H} : h ∈ hidden ls ↔ ∃ l ∈ ls, h ∈ l.hides := by
  induction ls with
  | nil => simp
  | cons l ls ih => simp [ih]

variable [DecidableEq H] (hash : R → H)

/-- The rows whose key is not among `keys`. -/
def visible (keys : Multiset H) (rows : Multiset R) : Multiset R :=
  rows.filter fun r => hash r ∉ keys

/-- The rows of each layer that no newer layer hides. -/
def view : List (Layer R H) → Multiset R
  | [] => 0
  | l :: newer => visible hash (hidden newer) l.rows + view newer

variable {hash}

lemma mem_visible {r : R} {rows : Multiset R} :
    r ∈ visible hash keys rows ↔ r ∈ rows ∧ hash r ∉ keys :=
  Multiset.mem_filter

@[simp] lemma visible_zero (rows : Multiset R) : visible hash 0 rows = rows := by
  simp [visible]

@[simp] lemma visible_add (keys : Multiset H) (rows rows' : Multiset R) :
    visible hash keys (rows + rows') = visible hash keys rows + visible hash keys rows' :=
  Multiset.filter_add _ _ _

@[simp] lemma visible_empty (keys : Multiset H) : visible hash keys (0 : Multiset R) = 0 := rfl

lemma visible_visible (keys keys' : Multiset H) (rows : Multiset R) :
    visible hash keys' (visible hash keys rows) = visible hash (keys + keys') rows := by
  unfold visible
  rw [Multiset.filter_filter]
  exact Multiset.filter_congr fun r _ => by simp [and_comm]

/-- Only which keys are hidden matters, not how often. -/
lemma visible_congr {keys' : Multiset H} (h : ∀ k, k ∈ keys ↔ k ∈ keys') (rows : Multiset R) :
    visible hash keys rows = visible hash keys' rows :=
  Multiset.filter_congr fun r _ => not_congr (h (hash r))

lemma visible_eq_zero {rows : Multiset R} (h : ∀ r ∈ rows, hash r ∈ keys) :
    visible hash keys rows = 0 :=
  Multiset.filter_eq_nil.mpr fun r hr => not_not.mpr (h r hr)

@[simp] lemma view_nil : view hash ([] : List (Layer R H)) = 0 := rfl

@[simp] lemma view_cons (l : Layer R H) (newer : List (Layer R H)) :
    view hash (l :: newer) = visible hash (hidden newer) l.rows + view hash newer := rfl

lemma mem_rows_of_mem_view {r : R} (h : r ∈ view hash ls) : ∃ l ∈ ls, r ∈ l.rows := by
  induction ls with
  | nil => simp at h
  | cons l ls ih =>
    rcases Multiset.mem_add.mp h with hrow | hrest
    · exact ⟨l, by simp, (mem_visible.mp hrow).1⟩
    · obtain ⟨l', hl', hr⟩ := ih hrest
      exact ⟨l', List.mem_cons_of_mem _ hl', hr⟩

/-- **Stacking.**  What lies on top acts on what lies below through the keys it
hides, and through nothing else. -/
lemma view_append (older newer : List (Layer R H)) :
    view hash (older ++ newer) =
      visible hash (hidden newer) (view hash older) + view hash newer := by
  induction older with
  | nil => simp
  | cons l older ih =>
    rw [List.cons_append, view_cons, ih, hidden_append, view_cons, visible_add,
      visible_visible, add_assoc]

/-! ## Compaction -/

/-- **A run may be replaced by one layer** that has the run's view as its rows
and hides the keys the run hides. -/
lemma view_replace (hrows : l.rows = view hash run) (hhides : ∀ k, k ∈ l.hides ↔ k ∈ hidden run)
    (older newer : List (Layer R H)) :
    view hash (older ++ l :: newer) = view hash (older ++ (run ++ newer)) := by
  have hkeys : ∀ k, k ∈ hidden (l :: newer) ↔ k ∈ hidden (run ++ newer) := by
    intro k
    simp [hhides]
  rw [view_append, view_append, visible_congr hkeys, view_cons, view_append run newer, hrows]

/-- **The bottom run may be replaced by one layer** with the run's view; what the
new bottom hides plays no part. -/
lemma view_absorb (hrows : l.rows = view hash run) (newer : List (Layer R H)) :
    view hash (l :: newer) = view hash (run ++ newer) := by
  rw [view_cons, view_append, hrows]

/-- The layer hides, from older layers, the keys of its own rows. -/
def Layer.SelfHiding (hash : R → H) (l : Layer R H) : Prop := ∀ r ∈ l.rows, hash r ∈ l.hides

lemma visible_view_of_selfHiding (h : ∀ l ∈ ls, l.SelfHiding hash) :
    visible hash (hidden ls) (view hash ls) = 0 := by
  refine visible_eq_zero fun r hr => ?_
  obtain ⟨l, hl, hrow⟩ := mem_rows_of_mem_view hr
  exact mem_hidden.mpr ⟨l, hl, h l hl r hrow⟩

/-- **The half-way state of absorbing.**  The new bottom already contains the
layers above it, and each of those hides its own rows there, so nothing is
counted twice and nothing is lost. -/
lemma view_overlay {base : Layer R H} (hrows : l.rows = view hash (base :: run))
    (hself : ∀ l' ∈ run, l'.SelfHiding hash) (newer : List (Layer R H)) :
    view hash (l :: (run ++ newer)) = view hash (base :: (run ++ newer)) := by
  have hrun : visible hash (hidden run + hidden newer) (view hash run) = 0 := by
    rw [← visible_visible, visible_view_of_selfHiding hself, visible_empty]
  have hbase : visible hash (hidden run + hidden newer) (visible hash (hidden run) base.rows) =
      visible hash (hidden run + hidden newer) base.rows := by
    rw [visible_visible]
    exact visible_congr (fun k => by simp) _
  rw [view_cons, view_cons, hrows, view_cons, hidden_append, visible_add, hrun, hbase, add_zero]

/-! ## The ranked anti-join -/

/-- Values tagged with the rank of the collection they come from. -/
def ranked {α : Type*} (files : List (Nat × Multiset α)) : Multiset (Nat × α) :=
  (files.map fun f => f.2.map (Prod.mk f.1)).sum

@[simp] lemma ranked_nil {α : Type*} : ranked ([] : List (Nat × Multiset α)) = 0 := rfl

@[simp] lemma ranked_cons {α : Type*} (f : Nat × Multiset α) (files : List (Nat × Multiset α)) :
    ranked (f :: files) = f.2.map (Prod.mk f.1) + ranked files := by
  simp [ranked]

variable (hash)

/-- The rows for which no key of a greater rank is theirs. -/
def antiJoin (rows : Multiset (Nat × R)) (keys : Multiset (Nat × H)) : Multiset (Nat × R) :=
  rows.filter fun r => ∀ t ∈ keys, ¬ (t.2 = hash r.2 ∧ r.1 < t.1)

variable {hash}

/-- The rows of a stack, ranked from `k` on. -/
def rankedRows (k : Nat) (ls : List (Layer R H)) : Multiset (Nat × R) :=
  ranked ((ls.zipIdx k).map fun l => (l.2, l.1.rows))

/-- The hidden keys of a stack, ranked from `k` on. -/
def rankedKeys (k : Nat) (ls : List (Layer R H)) : Multiset (Nat × H) :=
  ranked ((ls.zipIdx k).map fun l => (l.2, l.1.hides))

omit [DecidableEq H] in
@[simp] lemma rankedRows_cons (k : Nat) (l : Layer R H) (ls : List (Layer R H)) :
    rankedRows k (l :: ls) = l.rows.map (Prod.mk k) + rankedRows (k + 1) ls := by
  simp [rankedRows]

omit [DecidableEq H] in
@[simp] lemma rankedKeys_cons (k : Nat) (l : Layer R H) (ls : List (Layer R H)) :
    rankedKeys k (l :: ls) = l.hides.map (Prod.mk k) + rankedKeys (k + 1) ls := by
  simp [rankedKeys]

omit [DecidableEq H] in
lemma le_of_mem_rankedRows {k : Nat} {x : Nat × R} (h : x ∈ rankedRows k ls) : k ≤ x.1 := by
  induction ls generalizing k with
  | nil => simp [rankedRows] at h
  | cons l ls ih =>
    rw [rankedRows_cons, Multiset.mem_add, Multiset.mem_map] at h
    rcases h with ⟨r, _, rfl⟩ | hrest
    · exact Nat.le_refl k
    · have := ih hrest
      omega

omit [DecidableEq H] in
/-- From above, a ranked stack hides what the stack hides. -/
lemma exists_rankedKeys_iff {k rank : Nat} (hrank : rank < k) {h : H} :
    (∃ t ∈ rankedKeys k ls, t.2 = h ∧ rank < t.1) ↔ h ∈ hidden ls := by
  induction ls generalizing k with
  | nil => simp [rankedKeys]
  | cons l ls ih =>
    have ih := ih (k := k + 1) (by omega)
    simp only [rankedKeys_cons, Multiset.mem_add, Multiset.mem_map, hidden_cons, ← ih]
    constructor
    · rintro ⟨t, ⟨h', hh', rfl⟩ | hrest, heq, hlt⟩
      · exact .inl (heq ▸ hh')
      · exact .inr ⟨t, hrest, heq, hlt⟩
    · rintro (hh | ⟨t, ht, heq, hlt⟩)
      · exact ⟨(k, h), .inl ⟨h, hh, rfl⟩, rfl, hrank⟩
      · exact ⟨t, .inr ht, heq, hlt⟩

/-- The oldest layer's part of the anti-join. -/
lemma antiJoin_bottom (k : Nat) (rows : Multiset R) (newer : List (Layer R H)) :
    (antiJoin hash (rows.map (Prod.mk k)) (rankedKeys (k + 1) newer)).map Prod.snd =
      visible hash (hidden newer) rows := by
  rw [antiJoin, Multiset.filter_map, Multiset.map_map]
  simp only [Function.comp_def, Multiset.map_id']
  refine Multiset.filter_congr fun r _ => ?_
  rw [← exists_rankedKeys_iff (Nat.lt_succ_self k)]
  push Not
  rfl

/-- Keys of rank `k` hide nothing among rows of rank `k` and more. -/
lemma antiJoin_cons_keys (k : Nat) (l : Layer R H) (ls newer : List (Layer R H)) :
    antiJoin hash (rankedRows k ls) (rankedKeys k (l :: newer)) =
      antiJoin hash (rankedRows k ls) (rankedKeys (k + 1) newer) := by
  refine Multiset.filter_congr fun r hr => ?_
  have hle := le_of_mem_rankedRows hr
  simp only [rankedKeys_cons, Multiset.mem_add, Multiset.mem_map]
  constructor
  · exact fun h t ht => h t (.inr ht)
  · rintro h t (⟨h', _, rfl⟩ | ht)
    · rintro ⟨_, hlt⟩
      exact absurd hlt (by simpa using hle)
    · exact h t ht

/-- **The ranked anti-join computes the view.**  The keys of the oldest layer are
left out: no row has a smaller rank. -/
lemma antiJoin_ranked (k : Nat) (l : Layer R H) (newer : List (Layer R H)) :
    (antiJoin hash (rankedRows k (l :: newer)) (rankedKeys (k + 1) newer)).map Prod.snd =
      view hash (l :: newer) := by
  have hsplit : ∀ (rows rows' : Multiset (Nat × R)) (keys : Multiset (Nat × H)),
      antiJoin hash (rows + rows') keys = antiJoin hash rows keys + antiJoin hash rows' keys :=
    fun rows rows' keys => Multiset.filter_add _ _ _
  induction newer generalizing k l with
  | nil =>
    rw [rankedRows_cons, hsplit, Multiset.map_add, antiJoin_bottom]
    rfl
  | cons l' newer ih =>
    rw [rankedRows_cons, hsplit, Multiset.map_add, antiJoin_bottom, antiJoin_cons_keys, ih,
      ← view_cons]

end Shadow
