import Mathlib.Data.Finset.Card
import Mathlib.Data.List.Nodup
import Bitmagnet.Library.Machine
import Bitmagnet.Dht.RoutingTree

/-!
# The representation invariant of the routing tree

The trie is read as the list of its leaves.  Two predicates say when it is a
legal trie for the distances on it:

* `TrieNode.Routed`: below a given bit path, each leaf's bits agree with the path
  to it, each branch sits above the last bit, and each cached count is the number
  of leaves on its side;
* `TrieNode.Full`: each branch holds at least two leaves.

They are separate because splitting a leaf goes through a branch that holds none
and then one leaf: `branchInsert` is specified for `Routed` branches with `Full`
children, and only the finished split is `Full` again.

Over them, the tree is shown to refine a plain set of identifiers.  The counters
are natural numbers here; the source's are `usize`, and a trie whose counts pass
that width does not fit in memory.
-/

namespace Bitmagnet.Dht

/-! ## Bit paths -/

/-- The leading bits of `id` are `path`. -/
def OnPath (path : List Bool) (id : Id20) : Prop :=
  ∀ (index : Nat) (h : index < path.length), bit? id index = some path[index]

@[simp] lemma onPath_nil (id : Id20) : OnPath [] id := by
  intro index h
  simp at h

lemma onPath_append_singleton {path : List Bool} {b : Bool} {id : Id20} :
    OnPath (path ++ [b]) id ↔ OnPath path id ∧ bit? id path.length = some b := by
  constructor
  · intro h
    refine ⟨fun index hi => ?_, ?_⟩
    · have := h index (by simp; omega)
      rwa [List.getElem_append_left hi] at this
    · have := h path.length (by simp)
      simpa using this
  · rintro ⟨h, hb⟩ index hi
    rcases Nat.lt_or_ge index path.length with hlt | hge
    · rw [List.getElem_append_left hlt]
      exact h index hlt
    · obtain rfl : index = path.length := by simp at hi; omega
      simpa using hb

/-- Two identifiers that share all their bits are one. -/
lemma OnPath.eq_of_full {path : List Bool} {a b : Id20} (ha : OnPath path a) (hb : OnPath path b)
    (hlen : routingIdBits ≤ path.length) : a = b :=
  ext_bits fun index hi => by
    rw [ha index (by omega), hb index (by omega)]

namespace TrieNode

/-! ## Leaves and well-formedness -/

/-- The stored distances, left to right. -/
def leaves : TrieNode → List Id20
  | empty => []
  | leaf id => [id]
  | branch child0 child1 _ _ => child0.leaves ++ child1.leaves

@[simp] lemma leaves_empty : leaves empty = [] := rfl

@[simp] lemma leaves_leaf (id : Id20) : leaves (leaf id) = [id] := rfl

@[simp] lemma leaves_branch (child0 child1 : TrieNode) (count0 count1 : Nat) :
    leaves (branch child0 child1 count0 count1) = child0.leaves ++ child1.leaves := rfl

/-- Below `path`, leaves follow their bits, branches stay above the last bit and
cached counts are leaf counts. -/
def Routed : TrieNode → List Bool → Prop
  | empty, _ => True
  | leaf id, path => path.length ≤ routingIdBits ∧ OnPath path id
  | branch child0 child1 count0 count1, path =>
    path.length < routingIdBits ∧
      count0 = child0.leaves.length ∧ count1 = child1.leaves.length ∧
      child0.Routed (path ++ [false]) ∧ child1.Routed (path ++ [true])

/-- Every branch holds at least two leaves. -/
def Full : TrieNode → Prop
  | empty => True
  | leaf _ => True
  | branch child0 child1 _ _ =>
    2 ≤ child0.leaves.length + child1.leaves.length ∧ child0.Full ∧ child1.Full

@[simp] lemma routed_empty (path : List Bool) : Routed empty path := trivial

@[simp] lemma full_empty : Full empty := trivial

@[simp] lemma full_leaf (id : Id20) : Full (leaf id) := trivial

variable {id : Id20} {path : List Bool} {t : TrieNode}

/-- The bits of every stored distance agree with the path to it. -/
lemma Routed.onPath (h : t.Routed path) (hid : id ∈ t.leaves) : OnPath path id := by
  induction t generalizing path with
  | empty => simp at hid
  | leaf existing =>
    obtain rfl : id = existing := by simpa using hid
    exact h.2
  | branch child0 child1 count0 count1 ih0 ih1 =>
    obtain ⟨_, _, _, h0, h1⟩ := h
    rcases List.mem_append.mp hid with hid | hid
    · exact (onPath_append_singleton.mp (ih0 h0 hid)).1
    · exact (onPath_append_singleton.mp (ih1 h1 hid)).1

lemma Routed.bit_of_child {child : TrieNode} {b : Bool} (h : child.Routed (path ++ [b]))
    (hid : id ∈ child.leaves) : bit? id path.length = some b :=
  (onPath_append_singleton.mp (h.onPath hid)).2

/-- A distance whose next bit leads to the other child is not below this one. -/
lemma Routed.not_mem_of_bit {child : TrieNode} {b : Bool} (h : child.Routed (path ++ [b]))
    (hb : bit? id path.length = some (!b)) : id ∉ child.leaves := by
  intro hid
  have := h.bit_of_child hid
  rw [hb] at this
  cases b <;> simp at this

/-- The cached count is the number of leaves. -/
lemma Routed.count_eq (h : t.Routed path) : t.count = t.leaves.length := by
  cases t with
  | empty => rfl
  | leaf id => rfl
  | branch child0 child1 count0 count1 =>
    obtain ⟨_, rfl, rfl, _, _⟩ := h
    simp [count]

/-- No distance is stored twice: the two sides of a branch differ in a bit. -/
lemma Routed.nodup (h : t.Routed path) : t.leaves.Nodup := by
  induction t generalizing path with
  | empty => simp
  | leaf id => simp
  | branch child0 child1 count0 count1 ih0 ih1 =>
    obtain ⟨_, _, _, h0, h1⟩ := h
    refine List.Nodup.append (ih0 h0) (ih1 h1) fun id hid0 hid1 => ?_
    have hbit := h0.bit_of_child hid0
    rw [h1.bit_of_child hid1] at hbit
    simp at hbit

/-! ## Lookup and the admission count -/

/-- `contains` is membership among the leaves. -/
lemma Routed.contains_eq (h : t.Routed path) (hid : OnPath path id) :
    t.contains id path.length = some (decide (id ∈ t.leaves)) := by
  induction t generalizing path with
  | empty => simp [contains]
  | leaf existing =>
    simp only [contains, leaves_leaf, List.mem_singleton, Option.some.injEq]
    by_cases heq : existing = id
    · simp [heq]
    · simp [heq, Ne.symm heq]
  | branch child0 child1 count0 count1 ih0 ih1 =>
    obtain ⟨hlen, _, _, h0, h1⟩ := h
    obtain ⟨b, hb⟩ := bit?_isSome id hlen
    have hnext : OnPath (path ++ [b]) id := onPath_append_singleton.mpr ⟨hid, hb⟩
    cases b with
    | false =>
      have hout : id ∉ child1.leaves := h1.not_mem_of_bit hb
      have := ih0 h0 hnext
      simp only [List.length_append, List.length_singleton] at this
      simp [contains, hb, this, hout]
    | true =>
      have hout : id ∉ child0.leaves := h0.not_mem_of_bit hb
      have := ih1 h1 hnext
      simp only [List.length_append, List.length_singleton] at this
      simp [contains, hb, this, hout]

lemma leafCloser_isSome (path id : Id20) :
    ∀ (remaining depth : Nat), depth + remaining ≤ routingIdBits →
      ∃ n, leafCloser path id depth remaining = some n
  | 0, _, _ => ⟨1, rfl⟩
  | remaining + 1, depth, h => by
    obtain ⟨pathBit, hp⟩ := bit?_isSome path (show depth < routingIdBits by omega)
    obtain ⟨idBit, hi⟩ := bit?_isSome id (show depth < routingIdBits by omega)
    simp only [leafCloser, hp, hi, Option.bind_some]
    split
    · exact ⟨0, rfl⟩
    · exact leafCloser_isSome path id remaining (depth + 1) (by omega)

/-- The admission count is total on a routed trie: no bit index leaves the
identifier and the subtraction from the width does not underflow. -/
lemma Routed.countCloserThanSubpath_isSome (h : t.Routed path) (target : Id20) :
    ∃ n, t.countCloserThanSubpath target path.length = some n := by
  induction t generalizing path with
  | empty => exact ⟨0, rfl⟩
  | leaf id =>
    exact leafCloser_isSome target id _ _ (by have := h.1; omega)
  | branch child0 child1 count0 count1 ih0 ih1 =>
    obtain ⟨hlen, _, _, h0, h1⟩ := h
    obtain ⟨b, hb⟩ := bit?_isSome target hlen
    obtain ⟨n0, hn0⟩ := ih0 h0
    obtain ⟨n1, hn1⟩ := ih1 h1
    simp only [List.length_append, List.length_singleton] at hn0 hn1
    have hin : ¬ routingIdBits < path.length := by omega
    have hrem : ¬ routingIdBits - path.length = 0 := by omega
    simp only [countCloserThanSubpath, hin, hrem, if_false, hb, Option.bind_some]
    split
    · exact ⟨_, rfl⟩
    · cases b with
      | false => exact ⟨n0, by simpa using hn0⟩
      | true => exact ⟨count0 + n1, by simp [hn1]⟩

/-! ## Insertion -/

/-- What an insertion below `path` must achieve: a full routed trie with exactly
one more leaf. -/
def Inserted (path : List Bool) (id : Id20) (t t' : TrieNode) : Prop :=
  t'.Routed path ∧ t'.Full ∧ t'.leaves.Perm (id :: t.leaves)

/-- The same for a branch that may still hold fewer than two leaves. -/
def BranchInserted (path : List Bool) (id : Id20) (t t' : TrieNode) : Prop :=
  ∃ child0 child1 count0 count1, t' = branch child0 child1 count0 count1 ∧
    t'.Routed path ∧ child0.Full ∧ child1.Full ∧ t'.leaves.Perm (id :: t.leaves)

/-- A branch insertion that leaves at least two leaves is an insertion. -/
lemma BranchInserted.inserted {t' : TrieNode} (h : BranchInserted path id t t')
    (hne : t.leaves ≠ []) : Inserted path id t t' := by
  obtain ⟨child0, child1, count0, count1, rfl, hr, hf0, hf1, hp⟩ := h
  refine ⟨hr, ⟨?_, hf0, hf1⟩, hp⟩
  have hlen := hp.length_eq
  have hpos : 0 < t.leaves.length := List.length_pos_iff.mpr hne
  simp only [leaves_branch, List.length_append, List.length_cons] at hlen
  omega

/-- The branch arm, given that insertion into a child is right. -/
lemma branchInsert_spec {insertChild : TrieNode → Id20 → Nat → Option TrieNode}
    {child0 child1 : TrieNode} {count0 count1 : Nat}
    (hchild : ∀ (child : TrieNode) (b : Bool), child.Routed (path ++ [b]) → child.Full →
      OnPath (path ++ [b]) id → id ∉ child.leaves →
      ∃ child', insertChild child id (path.length + 1) = some child' ∧
        Inserted (path ++ [b]) id child child')
    (hr : (branch child0 child1 count0 count1).Routed path) (hf0 : child0.Full) (hf1 : child1.Full)
    (hid : OnPath path id) (hnew : id ∉ (branch child0 child1 count0 count1).leaves) :
    ∃ t', branchInsert insertChild (branch child0 child1 count0 count1) id path.length = some t' ∧
      BranchInserted path id (branch child0 child1 count0 count1) t' := by
  obtain ⟨hlen, hc0, hc1, h0, h1⟩ := hr
  obtain ⟨b, hb⟩ := bit?_isSome id hlen
  have hnext : OnPath (path ++ [b]) id := onPath_append_singleton.mpr ⟨hid, hb⟩
  simp only [leaves_branch, List.mem_append, not_or] at hnew
  cases b with
  | false =>
    obtain ⟨child', hins, hr', hf', hp'⟩ := hchild child0 false h0 hf0 hnext hnew.1
    refine ⟨branch child' child1 child'.count count1, by simp [branchInsert, hb, hins],
      child', child1, _, _, rfl, ⟨hlen, hr'.count_eq, hc1, hr', h1⟩, hf', hf1, ?_⟩
    exact hp'.append_right child1.leaves
  | true =>
    obtain ⟨child', hins, hr', hf', hp'⟩ := hchild child1 true h1 hf1 hnext hnew.2
    refine ⟨branch child0 child' count0 child'.count, by simp [branchInsert, hb, hins],
      child0, child', _, _, rfl, ⟨hlen, hc0, hr'.count_eq, h0, hr'⟩, hf0, hf', ?_⟩
    exact (hp'.append_left child0.leaves).trans List.perm_middle

/-- `insert_unique` of a fresh distance succeeds and adds exactly that leaf.  The
levels left and the depth add up to one more than the identifier's width, so
the recursion ends before either runs out. -/
lemma insertUnique_spec (levels : Nat) (hlevels : path.length + levels = routingIdBits + 1)
    (hr : t.Routed path) (hf : t.Full) (hlen : path.length ≤ routingIdBits) (hid : OnPath path id)
    (hnew : id ∉ t.leaves) :
    ∃ t', insertUnique levels t id path.length = some t' ∧ Inserted path id t t' := by
  induction levels generalizing t path id with
  | zero => omega
  | succ levels ih =>
    have hchild : path.length < routingIdBits → ∀ (new : Id20) (child : TrieNode) (b : Bool),
        child.Routed (path ++ [b]) → child.Full → OnPath (path ++ [b]) new →
        new ∉ child.leaves →
        ∃ child', insertUnique levels child new (path.length + 1) = some child' ∧
          Inserted (path ++ [b]) new child child' := by
      intro hlt new child b hcr hcf hnext hout
      have hnextLen : (path ++ [b]).length = path.length + 1 := by simp
      rw [← hnextLen]
      exact ih (by omega) hcr hcf (by omega) hnext hout
    cases t with
    | empty =>
      exact ⟨leaf id, rfl, ⟨hlen, hid⟩, trivial, by simp⟩
    | leaf previous =>
      have hne : previous ≠ id := fun heq => hnew (by simp [heq])
      -- Two different distances on one path leave a bit to split on.
      have hlt : path.length < routingIdBits := by
        by_contra hge
        exact hne (hr.2.eq_of_full hid (by omega))
      have hstart : (branch empty empty 0 0).Routed path := by
        simp [Routed, hlt]
      obtain ⟨node, hnode, c0, c1, n0, n1, rfl, hnr, hnf0, hnf1, hnp⟩ :=
        branchInsert_spec (hchild hlt previous) hstart trivial trivial hr.2 (by simp)
      have hnl : (branch c0 c1 n0 n1).leaves = [previous] :=
        List.perm_singleton.mp (by simpa using hnp)
      obtain ⟨t', ht', hins⟩ := branchInsert_spec (hchild hlt id) hnr hnf0 hnf1 hid
        (by rw [hnl]; simpa using Ne.symm hne)
      refine ⟨t', by simp [insertUnique, hne, hnode, ht'], ?_⟩
      obtain ⟨hr', hf', hp'⟩ := hins.inserted (by rw [hnl]; simp)
      exact ⟨hr', hf', by rw [hnl] at hp'; exact hp'⟩
    | branch child0 child1 count0 count1 =>
      obtain ⟨t', ht', hins⟩ :=
        branchInsert_spec (hchild hr.1 id) hr hf.2.1 hf.2.2 hid hnew
      refine ⟨t', ht', hins.inserted fun hnil => ?_⟩
      have h2 := hf.1
      rw [← List.length_append, ← leaves_branch child0 child1 count0 count1, hnil] at h2
      simp at h2

/-! ## Removal -/

/-- `only_id` of a one-leaf trie is that leaf. -/
lemma Routed.onlyId_eq (h : t.Routed path) (hone : t.leaves = [id]) : t.onlyId = some id := by
  induction t generalizing path with
  | empty => simp at hone
  | leaf existing => simpa [onlyId] using hone
  | branch child0 child1 count0 count1 ih0 ih1 =>
    obtain ⟨_, rfl, rfl, h0, h1⟩ := h
    have hlen : child0.leaves.length + child1.leaves.length = 1 := by
      rw [← List.length_append, ← leaves_branch child0 child1 0 0]
      exact congrArg List.length hone
    rw [leaves_branch] at hone
    cases hl : child0.leaves with
    | nil =>
      rw [hl] at hone
      simp [onlyId, hl, ih1 h1 (by simpa using hone)] at hlen ⊢
      exact hlen
    | cons head tail =>
      rw [hl, List.cons_append, List.cons.injEq] at hone
      obtain ⟨rfl, htail⟩ := hone
      obtain ⟨rfl, h1nil⟩ := List.append_eq_nil_iff.mp htail
      simp [onlyId, h1nil, ih0 h0 hl]

/-- Collapsing keeps the leaves and restores fullness. -/
lemma collapse_spec {child0 child1 : TrieNode} {count0 count1 : Nat}
    (hr : (branch child0 child1 count0 count1).Routed path) (hf0 : child0.Full)
    (hf1 : child1.Full) :
    ∃ t', collapse child0 child1 count0 count1 = some t' ∧ t'.Routed path ∧ t'.Full ∧
      t'.leaves = child0.leaves ++ child1.leaves := by
  have hcount : count0 + count1 = (child0.leaves ++ child1.leaves).length := by
    rw [List.length_append, hr.2.1, hr.2.2.1]
  unfold collapse
  by_cases hzero : count0 + count1 = 0
  · have hnil := List.length_eq_zero_iff.mp (hcount.symm.trans hzero)
    exact ⟨empty, by simp [hzero], trivial, trivial, by simp [hnil]⟩
  by_cases hone : count0 + count1 = 1
  · obtain ⟨id, hid⟩ := List.length_eq_one_iff.mp (hcount.symm.trans hone)
    have hleaf : (branch child0 child1 count0 count1).leaves = [id] := hid
    refine ⟨leaf id, ?_, ⟨by have := hr.1; omega, hr.onPath (by simp [hid])⟩, trivial, ?_⟩
    · simp [hone, hr.onlyId_eq hleaf]
    · simp [hid]
  · refine ⟨branch child0 child1 count0 count1, by rw [if_neg hzero, if_neg hone], hr, ⟨?_, hf0, hf1⟩, rfl⟩
    rw [← hr.2.1, ← hr.2.2.1]
    omega

/-- `remove` succeeds, answers whether the distance was stored and takes exactly
it away. -/
lemma remove_spec (hr : t.Routed path) (hf : t.Full) (hid : OnPath path id) :
    ∃ t', t.remove id path.length = some (decide (id ∈ t.leaves), t') ∧
      t'.Routed path ∧ t'.Full ∧ t'.leaves = t.leaves.erase id := by
  induction t generalizing path with
  | empty => exact ⟨empty, by simp [remove], trivial, trivial, rfl⟩
  | leaf existing =>
    by_cases heq : existing = id
    · exact ⟨empty, by simp [remove, heq], trivial, trivial, by simp [heq]⟩
    · exact ⟨leaf existing, by simp [remove, heq, Ne.symm heq], hr, trivial, by simp [heq]⟩
  | branch child0 child1 count0 count1 ih0 ih1 =>
    obtain ⟨hlen, hc0, hc1, h0, h1⟩ := hr
    obtain ⟨b, hb⟩ := bit?_isSome id hlen
    have hnext : OnPath (path ++ [b]) id := onPath_append_singleton.mpr ⟨hid, hb⟩
    cases b with
    | false =>
      have hout : id ∉ child1.leaves := h1.not_mem_of_bit hb
      obtain ⟨child', hrem, hr', hf', hl'⟩ := ih0 h0 hf.2.1 hnext
      rw [List.length_append, List.length_singleton] at hrem
      by_cases hmem : id ∈ child0.leaves
      · obtain ⟨t', ht', htr, htf, htl⟩ := collapse_spec
          (show (branch child' child1 child'.count count1).Routed path from
            ⟨hlen, hr'.count_eq, hc1, hr', h1⟩) hf' hf.2.2
        refine ⟨t', by simp [remove, hb, hrem, hmem, ht'], htr, htf, ?_⟩
        rw [htl, hl', leaves_branch, List.erase_append_left _ hmem]
      · have hsame : child'.leaves = child0.leaves := by
          rw [hl', List.erase_of_not_mem hmem]
        refine ⟨branch child' child1 count0 count1, by simp [remove, hb, hrem, hmem, hout],
          ⟨hlen, by rw [hsame]; exact hc0, hc1, hr', h1⟩,
          ⟨by rw [hsame]; exact hf.1, hf', hf.2.2⟩, ?_⟩
        rw [leaves_branch, hsame, leaves_branch, List.erase_of_not_mem (by simp [hmem, hout])]
    | true =>
      have hout : id ∉ child0.leaves := h0.not_mem_of_bit hb
      obtain ⟨child', hrem, hr', hf', hl'⟩ := ih1 h1 hf.2.2 hnext
      rw [List.length_append, List.length_singleton] at hrem
      by_cases hmem : id ∈ child1.leaves
      · obtain ⟨t', ht', htr, htf, htl⟩ := collapse_spec
          (show (branch child0 child' count0 child'.count).Routed path from
            ⟨hlen, hc0, hr'.count_eq, h0, hr'⟩) hf.2.1 hf'
        refine ⟨t', by simp [remove, hb, hrem, hmem, ht'], htr, htf, ?_⟩
        rw [htl, hl', leaves_branch, List.erase_append_right _ hout]
      · have hsame : child'.leaves = child1.leaves := by
          rw [hl', List.erase_of_not_mem hmem]
        refine ⟨branch child0 child' count0 count1, by simp [remove, hb, hrem, hmem, hout],
          ⟨hlen, hc0, by rw [hsame]; exact hc1, h0, hr'⟩,
          ⟨by rw [hsame]; exact hf.1, hf.2.1, hf'⟩, ?_⟩
        rw [leaves_branch, hsame, leaves_branch, List.erase_of_not_mem (by simp [hmem, hout])]

/-! ## Nearest leaves -/

/-- Filling up from the far side stays within the leaves that both sides come from. -/
lemma fill_subset {p : Prop} [Decidable p] {near far ids : List Id20} (hnear : near ⊆ ids)
    (hfar : far ⊆ ids) : (if p then near ++ far else near) ⊆ ids := by
  split
  · exact List.append_subset.mpr ⟨hnear, hfar⟩
  · exact hnear

/-- Without a path the answer is taken from the leaves. -/
lemma closestWithoutPath_subset (t : TrieNode) :
    ∀ limit, t.closestWithoutPath limit ⊆ t.leaves := by
  induction t with
  | empty => rintro (_ | limit) <;> simp [closestWithoutPath]
  | leaf id => rintro (_ | limit) <;> simp [closestWithoutPath]
  | branch child0 child1 count0 count1 ih0 ih1 =>
    rintro (_ | limit)
    · simp [closestWithoutPath]
    · exact fill_subset (List.Subset.trans (ih0 _) (List.subset_append_left ..))
        (List.Subset.trans (ih1 _) (List.subset_append_right ..))

/-- Along a path too, and no bit that is read lies past the last one. -/
lemma closestToSubpath_spec (t : TrieNode) (path : Id20) :
    ∀ {depth : Nat} (limit : Nat), depth ≤ routingIdBits →
      ∃ ids, t.closestToSubpath path depth limit = some ids ∧ ids ⊆ t.leaves := by
  induction t with
  | empty => rintro depth (_ | limit) _ <;> simp [closestToSubpath]
  | leaf id => rintro depth (_ | limit) _ <;> simp [closestToSubpath]
  | branch child0 child1 count0 count1 ih0 ih1 =>
    rintro depth (_ | limit) hdepth
    · simp [closestToSubpath]
    obtain ⟨b, hb⟩ : ∃ b, (if depth = routingIdBits then some false else bit? path depth) =
        some b := by
      split
      · exact ⟨false, rfl⟩
      · exact bit?_isSome path (by omega)
    have hnext : min (depth + 1) routingIdBits ≤ routingIdBits := Nat.min_le_right ..
    obtain ⟨ids0, hids0, hsub0⟩ := ih0 (limit + 1) hnext
    obtain ⟨ids1, hids1, hsub1⟩ := ih1 (limit + 1) hnext
    have hleft : child0.leaves ⊆ (branch child0 child1 count0 count1).leaves :=
      List.subset_append_left ..
    have hright : child1.leaves ⊆ (branch child0 child1 count0 count1).leaves :=
      List.subset_append_right ..
    cases b with
    | false =>
      refine ⟨_, by simp [closestToSubpath, hb, hids0]; rfl, ?_⟩
      exact fill_subset (List.Subset.trans hsub0 hleft)
        (List.Subset.trans (closestWithoutPath_subset child1 _) hright)
    | true =>
      refine ⟨_, by simp [closestToSubpath, hb, hids1]; rfl, ?_⟩
      exact fill_subset (List.Subset.trans hsub1 hright)
        (List.Subset.trans (closestWithoutPath_subset child0 _) hleft)

end TrieNode

/-! ## The tree -/

namespace RoutingTree

/-- The representation invariant of a routing tree. -/
structure Invariant (tree : RoutingTree) : Prop where
  routed : tree.root.Routed []
  full : tree.root.Full
  zero_not_mem : Id20.zero ∉ tree.root.leaves
  histogram : ∀ (bucket : Nat) (h : bucket < routingIdBits),
    tree.bucketCounts[bucket] = tree.root.leaves.countP (leadingZeros · = bucket)

/-- The identifiers a tree stands for: `tree` stores the distance of each, and
nothing else. -/
structure Stores (tree : RoutingTree) (ids : Finset Id20) : Prop where
  mem_iff : ∀ id, xor id tree.origin ∈ tree.root.leaves ↔ id ∈ ids
  card_eq : tree.root.leaves.length = ids.card

/-- The set after a call and its reply: only an accepted put and a successful
drop change it. -/
def specCall (ids : Finset Id20) : RoutingCall → RoutingReply → Finset Id20
  | .put id, .put .accepted => insert id ids
  | .drop id, .drop true => ids.erase id
  | _, _ => ids

/-- The replies a set of identifiers allows. -/
def LegalReply (origin : Id20) (ids : Finset Id20) : RoutingCall → RoutingReply → Prop
  | .put id, .put .accepted => id ≠ origin ∧ id ∉ ids
  | .put id, .put .alreadyExists => id ∈ ids
  | .put id, .put .rejected => id ∉ ids
  | .drop id, .drop removed => removed = decide (id ∈ ids)
  | _, _ => False

/-- A tree with a given origin that keeps its invariant and stands for a set. -/
structure Represents (origin : Id20) (tree : RoutingTree) (ids : Finset Id20) : Prop where
  origin_eq : tree.origin = origin
  invariant : tree.Invariant
  stores : tree.Stores ids

lemma represents_new (origin : Id20) (bucketCapacity : Nat) (splittingEnabled : Bool) :
    Represents origin (new origin bucketCapacity splittingEnabled) ∅ where
  origin_eq := rfl
  invariant :=
    { routed := trivial
      full := trivial
      zero_not_mem := by simp [new]
      histogram := by simp [new] }
  stores := { mem_iff := by simp [new], card_eq := rfl }

variable {origin : Id20} {tree : RoutingTree} {ids : Finset Id20}

lemma Represents.contains_eq (h : Represents origin tree ids) (id : Id20) :
    tree.contains id = some (decide (id ∈ ids)) := by
  have := h.invariant.routed.contains_eq (onPath_nil (xor id tree.origin))
  rw [contains]
  simpa [h.stores.mem_iff] using this

lemma Represents.count_eq (h : Represents origin tree ids) : tree.count = ids.card := by
  rw [count, h.invariant.routed.count_eq, h.stores.card_eq]

/-- The origin is at distance zero, which is never stored. -/
lemma Represents.origin_not_mem (h : Represents origin tree ids) : origin ∉ ids := by
  rw [← h.stores.mem_iff, h.origin_eq, xor_self]
  exact h.invariant.zero_not_mem

/-- Every stored distance falls into one of the buckets. -/
lemma Invariant.leadingZeros_lt (h : tree.Invariant) {distance : Id20}
    (hd : distance ∈ tree.root.leaves) : leadingZeros distance < routingIdBits :=
  Dht.leadingZeros_lt fun heq => h.zero_not_mem (heq ▸ hd)

variable {id : Id20}

section

variable (h : Represents origin tree ids)
include h

/-- Storing a fresh distance, with its bucket counted up. -/
lemma Represents.insert (hne : id ≠ origin) (hnew : id ∉ ids) :
    ∃ root, tree.root.insertUnique (routingIdBits + 1) (xor id tree.origin) 0 = some root ∧
      ∀ filled, tree.bucketCounts[leadingZeros (xor id tree.origin)]? = some filled →
        Represents origin
          { tree with
            root := root
            bucketCounts :=
              tree.bucketCounts.setIfInBounds (leadingZeros (xor id tree.origin)) (filled + 1) }
          (insert id ids) := by
  have hfresh : xor id tree.origin ∉ tree.root.leaves := by rwa [h.stores.mem_iff]
  obtain ⟨root, hroot, hr, hf, hp⟩ :=
    TrieNode.insertUnique_spec (routingIdBits + 1) (by simp) h.invariant.routed h.invariant.full
      (by simp) (onPath_nil (xor id tree.origin)) hfresh
  refine ⟨root, hroot, fun filled hfilled => ?_⟩
  obtain ⟨hlt, rfl⟩ := Vector.getElem?_eq_some_iff.mp hfilled
  have hzero : xor id tree.origin ≠ Id20.zero := by
    rwa [Ne, xor_eq_zero_iff, h.origin_eq]
  refine ⟨h.origin_eq, ⟨hr, hf, ?_, ?_⟩, ⟨?_, ?_⟩⟩
  · simp [hp.mem_iff, h.invariant.zero_not_mem, Ne.symm hzero]
  · intro bucket hb
    rw [hp.countP_eq, List.countP_cons, Vector.getElem_setIfInBounds]
    by_cases heq : leadingZeros (xor id tree.origin) = bucket
    · subst heq
      simp [h.invariant.histogram _ hlt]
    · simp [heq, h.invariant.histogram bucket hb]
  · intro other
    simp only [hp.mem_iff, List.mem_cons, h.stores.mem_iff, Finset.mem_insert,
      (xor_injective tree.origin).eq_iff]
  · simp [hp.length_eq, h.stores.card_eq, Finset.card_insert_of_notMem hnew]

/-- Taking a stored distance out, with its bucket counted down. -/
lemma Represents.erase (hmem : id ∈ ids) {root : TrieNode} (hr : root.Routed []) (hf : root.Full)
    (hl : root.leaves = tree.root.leaves.erase (xor id tree.origin)) :
    ∃ filled, tree.bucketCounts[leadingZeros (xor id tree.origin)]? = some filled ∧ filled ≠ 0 ∧
      Represents origin
        { tree with
          root := root
          bucketCounts :=
            tree.bucketCounts.setIfInBounds (leadingZeros (xor id tree.origin)) (filled - 1) }
        (ids.erase id) := by
  have hstored : xor id tree.origin ∈ tree.root.leaves := by rwa [h.stores.mem_iff]
  have hlt := h.invariant.leadingZeros_lt hstored
  have hperm := List.perm_cons_erase hstored
  have hcount : ∀ bucket, tree.root.leaves.countP (leadingZeros · = bucket) =
      root.leaves.countP (leadingZeros · = bucket) +
        if leadingZeros (xor id tree.origin) = bucket then 1 else 0 := by
    intro bucket
    rw [hperm.countP_eq, List.countP_cons, hl]
    simp
  refine ⟨_, Vector.getElem?_eq_getElem hlt, ?_, h.origin_eq, ⟨hr, hf, ?_, ?_⟩, ⟨?_, ?_⟩⟩
  · rw [h.invariant.histogram _ hlt, hcount]
    simp
  · exact fun hz => h.invariant.zero_not_mem (List.mem_of_mem_erase (hl ▸ hz))
  · intro bucket hb
    rw [Vector.getElem_setIfInBounds]
    by_cases heq : leadingZeros (xor id tree.origin) = bucket
    · subst heq
      simp [h.invariant.histogram _ hlt, hcount]
    · simp [heq, h.invariant.histogram bucket hb, hcount bucket]
  · intro other
    simp only [hl, h.invariant.routed.nodup.mem_erase_iff, h.stores.mem_iff, Finset.mem_erase,
      ne_eq, (xor_injective tree.origin).eq_iff]
  · simp [hl, List.length_erase_of_mem hstored, h.stores.card_eq, Finset.card_erase_of_mem hmem]

/-- What `put` does with an identifier that is not stored, by its bucket and the admission count. -/
lemma Represents.put_fresh (hne : id ≠ origin) (hnew : id ∉ ids) :
    ∃ filled closer accepted,
      tree.bucketCounts[leadingZeros (xor id origin)]? = some filled ∧
      tree.root.countCloserThanSubpath (xor id origin) 0 = some closer ∧
      tree.put id = some (
        if tree.bucketCapacity ≤ filled ∧
            (tree.splittingEnabled = false ∨ tree.bucketCapacity ≤ closer) then (.rejected, tree)
        else (.accepted, accepted)) ∧
      Represents origin accepted (Insert.insert id ids) := by
  obtain rfl := h.origin_eq
  have hcontains := h.contains_eq id
  rw [contains] at hcontains
  have hlt : leadingZeros (xor id tree.origin) < routingIdBits :=
    leadingZeros_lt (by rwa [Ne, xor_eq_zero_iff])
  have hbucket := @Vector.getElem?_eq_getElem _ _ tree.bucketCounts _ hlt
  obtain ⟨closer, hcloser⟩ :=
    h.invariant.routed.countCloserThanSubpath_isSome (xor id tree.origin)
  obtain ⟨root, hroot, hrep⟩ := h.insert hne hnew
  refine ⟨_, closer, _, hbucket, hcloser, ?_, hrep _ hbucket⟩
  simp only [List.length_nil] at hcloser
  simp only [RoutingTree.put, hne, if_false, hcontains, hnew, decide_false, Option.bind_some,
    Bool.false_eq_true, hbucket, hroot, splitRefused, hcloser, Option.map_some]
  by_cases hfull : tree.bucketCapacity ≤ tree.bucketCounts[leadingZeros (xor id tree.origin)]
  · cases hsplit : tree.splittingEnabled with
    | false => simp [hfull]
    | true => by_cases hmany : tree.bucketCapacity ≤ closer <;> simp [hfull, hmany]
  · simp [hfull]

/-- `put` answers legally and does to the tree what the set says. -/
lemma Represents.put (id : Id20) :
    ∃ result tree', tree.put id = some (result, tree') ∧
      LegalReply origin ids (.put id) (.put result) ∧
      Represents origin tree' (specCall ids (.put id) (.put result)) := by
  by_cases horigin : id = origin
  · refine ⟨.rejected, tree, by simp [RoutingTree.put, horigin, h.origin_eq], ?_, h⟩
    exact horigin ▸ h.origin_not_mem
  have hne : id ≠ tree.origin := h.origin_eq ▸ horigin
  by_cases hmem : id ∈ ids
  · have hcontains := h.contains_eq id
    rw [contains] at hcontains
    exact ⟨.alreadyExists, tree, by simp [RoutingTree.put, hne, hcontains, hmem], hmem, h⟩
  obtain ⟨filled, closer, accepted, _, _, hput, hrep⟩ := h.put_fresh horigin hmem
  split at hput
  · exact ⟨.rejected, tree, hput, hmem, h⟩
  · exact ⟨.accepted, accepted, hput, ⟨horigin, hmem⟩, hrep⟩

/-- `drop` answers legally and does to the tree what the set says. -/
lemma Represents.drop (id : Id20) :
    ∃ removed tree', tree.drop id = some (removed, tree') ∧
      LegalReply origin ids (.drop id) (.drop removed) ∧
      Represents origin tree' (specCall ids (.drop id) (.drop removed)) := by
  obtain ⟨root, hroot, hr, hf, hl⟩ :=
    TrieNode.remove_spec h.invariant.routed h.invariant.full (onPath_nil (xor id tree.origin))
  simp only [List.length_nil, h.stores.mem_iff] at hroot
  by_cases hmem : id ∈ ids
  · obtain ⟨filled, hfilled, hpos, hrep⟩ := h.erase hmem hr hf hl
    refine ⟨true, _, ?_, by simp [LegalReply, hmem], hrep⟩
    simp [RoutingTree.drop, hroot, hmem, hfilled, hpos]
  · refine ⟨false, { tree with root := root }, by simp [RoutingTree.drop, hroot, hmem],
      by simp [LegalReply, hmem], h.origin_eq, ?_, ?_⟩
    all_goals
      have hsame : root.leaves = tree.root.leaves := by
        rw [hl, List.erase_of_not_mem (by rwa [h.stores.mem_iff])]
    · exact ⟨hr, hf, hsame ▸ h.invariant.zero_not_mem, hsame ▸ h.invariant.histogram⟩
    · exact ⟨hsame ▸ h.stores.mem_iff, hsame ▸ h.stores.card_eq⟩

/-- `closest` answers with stored identifiers. -/
lemma Represents.closest (id : Id20) (limit : Nat) :
    ∃ found, tree.closest id limit = some found ∧ ∀ other ∈ found, other ∈ ids := by
  obtain ⟨distances, hdistances, hsub⟩ :=
    tree.root.closestToSubpath_spec (xor id tree.origin) limit (Nat.zero_le _)
  refine ⟨_, by rw [RoutingTree.closest, hdistances, Option.map_some], fun other hother => ?_⟩
  obtain ⟨distance, hdistance, rfl⟩ := List.mem_map.mp hother
  rw [← h.stores.mem_iff, xor_xor_cancel]
  exact hsub hdistance

end

/-- The tree refines a set of identifiers, call by call. -/
lemma call_refines (origin : Id20) :
    Machine.Refines RoutingTree.call specCall (LegalReply origin) (Represents origin) where
  step_ok := by
    rintro tree ids (id | id) h
    · obtain ⟨result, tree', hput, hlegal, hrep⟩ := h.put id
      exact ⟨.put result, tree', by simp [call, hput], hlegal, hrep⟩
    · obtain ⟨removed, tree', hdrop, hlegal, hrep⟩ := h.drop id
      exact ⟨.drop removed, tree', by simp [call, hdrop], hlegal, hrep⟩

/-- **The representation invariant over every sequence of calls.**  Whatever puts
and drops a new tree receives, none of them faults; the tree that results keeps
its cached counts, its branches of at least two leaves above the last bit and the
paths of its leaves, stores no distance twice and never the origin's, and has the
histogram of its leaves for bucket counts; and it answers `contains` and `count`
as the set does in which an accepted put adds the identifier, a successful drop
removes it and every other reply changes nothing. -/
theorem run_keeps_representation (origin : Id20) (bucketCapacity : Nat)
    (splittingEnabled : Bool) (calls : List RoutingCall) :
    ∃ replies tree,
      Machine.run RoutingTree.call (new origin bucketCapacity splittingEnabled) calls =
        some (replies, tree) ∧
      tree.root.Routed [] ∧ tree.root.Full ∧
      tree.root.leaves.Nodup ∧ Id20.zero ∉ tree.root.leaves ∧
      (∀ distance ∈ tree.root.leaves, leadingZeros distance < routingIdBits) ∧
      (∀ (bucket : Nat) (h : bucket < routingIdBits),
        tree.bucketCounts[bucket] = tree.root.leaves.countP (leadingZeros · = bucket)) ∧
      Machine.Legal specCall (LegalReply origin) ∅ calls replies ∧
      (∀ id, tree.contains id =
        some (decide (id ∈ Machine.replay specCall ∅ calls replies))) ∧
      tree.count = (Machine.replay specCall ∅ calls replies).card := by
  obtain ⟨replies, tree, hrun, hlegal, hrep⟩ :=
    (call_refines origin).run calls (represents_new origin bucketCapacity splittingEnabled)
  have hinv := hrep.invariant
  exact ⟨replies, tree, hrun, hinv.routed, hinv.full, hinv.routed.nodup, hinv.zero_not_mem,
    fun _ hd => hinv.leadingZeros_lt hd, hinv.histogram, hlegal, hrep.contains_eq, hrep.count_eq⟩

end RoutingTree

end Bitmagnet.Dht
