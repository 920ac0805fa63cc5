import Mathlib.Data.Finset.Sort
import Bitmagnet.Dht.RoutingInvariant

/-!
# Distances and the order of the routing tree

The trie of `routing_tree.rs` is over distances to the origin.  Here a distance is the number its bits
spell, and two answers of the tree are compared with what they are about:

* `closest`, with the stored identifiers in order: those that share more leading bits with the target
  come first, and among those that share as many the one nearer to the origin.  The two traversals of
  the source take from `TrieNode.leaves` and `TrieNode.ranked`, which are in these orders.
* `count_closer_than_subpath`, with the number of stored identifiers nearer to the origin.  The count
  is exact down to the leaf at which the descent ends, and off by at most one there.
-/

namespace Bitmagnet.Dht

/-! ## Distances as numbers -/

namespace Id20

/-- The number that the first bits spell. -/
def leading (id : Id20) : Nat → Nat
  | 0 => 0
  | n + 1 => 2 * id.leading n + if bit? id n = some true then 1 else 0

/-- The number that the bits spell. -/
def toNat (id : Id20) : Nat := id.leading routingIdBits

variable {a b : Id20}

lemma leading_congr {n : Nat} (h : ∀ i < n, bit? a i = bit? b i) : a.leading n = b.leading n := by
  induction n with
  | zero => rfl
  | succ n ih => rw [leading, leading, ih fun i hi => h i (by omega), h n (by omega)]

/-- The first bit in which two identifiers differ decides. -/
lemma toNat_lt {depth : Nat} (hdepth : depth < routingIdBits)
    (hsame : ∀ i < depth, bit? a i = bit? b i) (ha : bit? a depth = some false)
    (hb : bit? b depth = some true) : a.toNat < b.toNat := by
  have hlonger : ∀ n, a.leading (depth + 1 + n) < b.leading (depth + 1 + n) := by
    intro n
    induction n with
    | zero =>
      rw [Nat.add_zero, leading, leading, leading_congr hsame, ha, hb]
      simp
    | succ n ih =>
      rw [← Nat.add_assoc, leading, leading]
      split <;> split <;> omega
  obtain ⟨n, hn⟩ := Nat.exists_eq_add_of_le (show depth + 1 ≤ routingIdBits from hdepth)
  rw [toNat, toNat, hn]
  exact hlonger n

lemma toNat_injective : Function.Injective toNat := by
  intro a b h
  have hbits : ∀ n ≤ routingIdBits, a.leading n = b.leading n → ∀ i < n, bit? a i = bit? b i := by
    intro n hn heq
    induction n with
    | zero => intro i hi; omega
    | succ n ih =>
      obtain ⟨x, hx⟩ := bit?_isSome a (show n < routingIdBits by omega)
      obtain ⟨y, hy⟩ := bit?_isSome b (show n < routingIdBits by omega)
      have hlast : x = y := by
        rw [leading, leading, hx, hy] at heq
        cases x <;> cases y <;> simp at heq <;> first | rfl | omega
      have hrest : a.leading n = b.leading n := by
        rw [leading, leading, hx, hy, hlast] at heq
        omega
      intro i hi
      rcases Nat.lt_succ_iff_lt_or_eq.mp hi with hi | rfl
      · exact ih (by omega) hrest i hi
      · rw [hx, hy, hlast]
  exact ext_bits (hbits routingIdBits le_rfl h)

end Id20

/-! ## Common leading bits -/

/-- How many leading bits two identifiers share. -/
def commonBits (a b : Id20) : Nat :=
  ((List.range routingIdBits).takeWhile fun i => bit? a i == bit? b i).length

variable {depth : Nat} {a b : Id20}

lemma length_takeWhile_range {p : Nat → Bool} :
    ∀ {n : Nat}, depth < n → (∀ i < depth, p i = true) → p depth = false →
      ((List.range n).takeWhile p).length = depth := by
  intro n hn hbelow hat
  obtain ⟨m, rfl⟩ := Nat.exists_eq_add_of_lt hn
  have hsplit : List.range (depth + m + 1) =
      List.range depth ++ depth :: (List.range m).map (depth + 1 + ·) := by
    rw [Nat.add_assoc, List.range_add, List.range_succ_eq_map]
    simp [Function.comp_def, Nat.add_assoc, Nat.add_comm 1]
  rw [hsplit, List.takeWhile_append_of_pos (by simpa using hbelow),
    List.takeWhile_cons_of_neg (by simp [hat])]
  simp

lemma le_length_takeWhile_range {p : Nat → Bool} {n : Nat} (hn : depth ≤ n)
    (hbelow : ∀ i < depth, p i = true) : depth ≤ ((List.range n).takeWhile p).length := by
  obtain ⟨m, rfl⟩ := Nat.exists_eq_add_of_le hn
  rw [List.range_add, List.takeWhile_append_of_pos (by simpa using hbelow)]
  simp

lemma commonBits_eq (hdepth : depth < routingIdBits) (hsame : ∀ i < depth, bit? a i = bit? b i)
    (hdiffer : bit? a depth ≠ bit? b depth) : commonBits a b = depth :=
  length_takeWhile_range hdepth (by simpa using hsame) (by simpa using hdiffer)

lemma le_commonBits (hdepth : depth ≤ routingIdBits) (hsame : ∀ i < depth, bit? a i = bit? b i) :
    depth ≤ commonBits a b :=
  le_length_takeWhile_range hdepth (by simpa using hsame)

/-- Moving both by the origin changes no common bit. -/
lemma commonBits_xor (a b origin : Id20) :
    commonBits (xor a origin) (xor b origin) = commonBits a b := by
  have hbits : (fun i => bit? (xor a origin) i == bit? (xor b origin) i) =
      fun i => bit? a i == bit? b i := by
    funext i
    rw [bit?_xor, bit?_xor]
    rcases Nat.lt_or_ge i routingIdBits with hlt | hge
    · obtain ⟨x, hx⟩ := bit?_isSome a hlt
      obtain ⟨y, hy⟩ := bit?_isSome b hlt
      obtain ⟨z, hz⟩ := bit?_isSome origin hlt
      rw [hx, hy, hz]
      cases x <;> cases y <;> cases z <;> rfl
    · rw [bit?_eq_none a hge, bit?_eq_none b hge]
      rfl
  rw [commonBits, commonBits, hbits]

/-- Where one distance stands before another in an answer for `target`. -/
def Before (target a b : Id20) : Prop :=
  commonBits target b < commonBits target a ∨
    commonBits target a = commonBits target b ∧ a.toNat ≤ b.toNat

/-- Where one identifier stands before another: it shares more leading bits with the target, or as
many and is at least as near to the origin. -/
def Closer (origin target a b : Id20) : Prop :=
  commonBits target b < commonBits target a ∨
    commonBits target a = commonBits target b ∧ (xor a origin).toNat ≤ (xor b origin).toNat

lemma closer_iff_before (origin target a b : Id20) :
    Closer origin target a b ↔ Before (xor target origin) (xor a origin) (xor b origin) := by
  simp only [Closer, Before, commonBits_xor]

instance (origin target : Id20) : DecidableRel (Closer origin target) :=
  fun _ _ => inferInstanceAs (Decidable (_ ∨ _))

instance (origin target : Id20) : IsTrans Id20 (Closer origin target) where
  trans a b c hab hbc := by
    rcases hab with hab | ⟨hab, hab'⟩ <;> rcases hbc with hbc | ⟨hbc, hbc'⟩
    · exact .inl (hbc.trans hab)
    · exact .inl (hbc ▸ hab)
    · exact .inl (hab ▸ hbc)
    · exact .inr ⟨hab.trans hbc, hab'.trans hbc'⟩

instance (origin target : Id20) : Std.Antisymm (Closer origin target) where
  antisymm a b hab hba := by
    have hvalue : (xor a origin).toNat = (xor b origin).toNat := by
      rcases hab with hab | ⟨_, hab⟩ <;> rcases hba with hba | ⟨_, hba⟩ <;> omega
    exact xor_injective origin (Id20.toNat_injective hvalue)

instance (origin target : Id20) : Std.Total (Closer origin target) where
  total a b := by
    unfold Closer
    omega

/-! ## The leaves in order -/

/-- Two distances on one path share its bits. -/
lemma OnPath.same {path : List Bool} (ha : OnPath path a) (hb : OnPath path b) :
    ∀ i < path.length, bit? a i = bit? b i :=
  fun i hi => (ha i hi).trans (hb i hi).symm

namespace TrieNode

variable {path : List Bool} {t : TrieNode} {target : Id20}

/-- A distance on the left of a branch is nearer than one on the right. -/
lemma toNat_lt_of_sides (hlen : path.length < routingIdBits) (ha : OnPath (path ++ [false]) a)
    (hb : OnPath (path ++ [true]) b) : a.toNat < b.toNat := by
  obtain ⟨ha, ha'⟩ := onPath_append_singleton.mp ha
  obtain ⟨hb, hb'⟩ := onPath_append_singleton.mp hb
  exact Id20.toNat_lt hlen (ha.same hb) ha' hb'

/-- The leaves stand by distance, from left to right. -/
lemma Routed.pairwise_leaves (h : t.Routed path) :
    t.leaves.Pairwise fun a b => a.toNat < b.toNat := by
  induction t generalizing path with
  | empty => exact .nil
  | leaf id => exact List.pairwise_singleton ..
  | branch child0 child1 count0 count1 ih0 ih1 =>
    obtain ⟨hlen, _, _, h0, h1⟩ := h
    exact List.pairwise_append.mpr ⟨ih0 h0, ih1 h1, fun a ha b hb =>
      toNat_lt_of_sides hlen (h0.onPath ha) (h1.onPath hb)⟩

/-- Filling up from a second list is taking from both. -/
lemma fill_take (near far : List Id20) (limit : Nat) :
    (if (near.take limit).length < limit then
      near.take limit ++ far.take (limit - (near.take limit).length) else near.take limit) =
      (near ++ far).take limit := by
  rw [List.take_append, List.length_take]
  split
  · next h =>
      have hlen : min limit near.length = near.length := by omega
      rw [hlen]
  · next h =>
      have hzero : limit - near.length = 0 := by omega
      simp [hzero]

/-- Without a path the leaves are taken from the left. -/
lemma closestWithoutPath_eq (t : TrieNode) :
    ∀ limit, t.closestWithoutPath limit = t.leaves.take limit := by
  induction t with
  | empty => rintro (_ | limit) <;> simp [closestWithoutPath]
  | leaf id => rintro (_ | limit) <;> simp [closestWithoutPath]
  | branch child0 child1 count0 count1 ih0 ih1 =>
    rintro (_ | limit)
    · simp [closestWithoutPath]
    · rw [closestWithoutPath, ih0, ih1, leaves_branch]
      exact fill_take ..

/-- The leaves in the order of `closest_to_subpath`. -/
def ranked : TrieNode → Id20 → Nat → List Id20
  | empty, _, _ => []
  | leaf id, _, _ => [id]
  | branch child0 child1 _ _, path, depth =>
    if bit? path depth = some true then child1.ranked path (depth + 1) ++ child0.leaves
    else child0.ranked path (depth + 1) ++ child1.leaves

lemma ranked_perm (t : TrieNode) (target : Id20) (depth : Nat) :
    (t.ranked target depth).Perm t.leaves := by
  induction t generalizing depth with
  | empty => exact .nil
  | leaf id => exact .rfl
  | branch child0 child1 count0 count1 ih0 ih1 =>
    rw [ranked, leaves_branch]
    split
    · exact ((ih1 _).append_right _).trans List.perm_append_comm
    · exact (ih0 _).append_right _

/-- Along a path the leaves are taken in that order. -/
lemma Routed.closestToSubpath_eq (h : t.Routed path) (target : Id20) (limit : Nat) :
    t.closestToSubpath target path.length limit =
      some ((t.ranked target path.length).take limit) := by
  induction t generalizing path with
  | empty => cases limit <;> simp [closestToSubpath, ranked]
  | leaf id => cases limit <;> simp [closestToSubpath, ranked]
  | branch child0 child1 count0 count1 ih0 ih1 =>
    obtain ⟨hlen, _, _, h0, h1⟩ := h
    obtain ⟨b, hb⟩ := bit?_isSome target hlen
    have hnext : min (path.length + 1) routingIdBits = path.length + 1 := by omega
    have hlow : ¬path.length = routingIdBits := by omega
    have ih0 := ih0 h0
    have ih1 := ih1 h1
    simp only [List.length_append, List.length_singleton] at ih0 ih1
    cases limit with
    | zero => simp [closestToSubpath]
    | succ limit =>
      simp only [closestToSubpath, hlow, if_false, hb, Option.bind_some, hnext, ih0, ih1, ranked,
        closestWithoutPath_eq]
      cases b with
      | false => exact congrArg some (fill_take ..)
      | true => exact congrArg some (fill_take ..)

/-- What the two sides of a branch share with a target on one of them. -/
lemma commonBits_sides (hlen : path.length < routingIdBits) {b : Bool} {near far : Id20}
    (htarget : OnPath (path ++ [b]) target) (hnear : OnPath (path ++ [b]) near)
    (hfar : OnPath (path ++ [!b]) far) :
    path.length < commonBits target near ∧ commonBits target far = path.length := by
  constructor
  · have hlength : (path ++ [b]).length = path.length + 1 := by simp
    have hle := le_commonBits (by omega) (htarget.same hnear)
    omega
  · obtain ⟨htarget, hb⟩ := onPath_append_singleton.mp htarget
    obtain ⟨hfar, hb'⟩ := onPath_append_singleton.mp hfar
    refine commonBits_eq hlen (htarget.same hfar) ?_
    rw [hb, hb']
    cases b <;> simp

/-- One side of a branch in order, and then the other from the left. -/
lemma pairwise_sides (hlen : path.length < routingIdBits) {b : Bool} {near : List Id20}
    {far : TrieNode} (htarget : OnPath (path ++ [b]) target)
    (hnear : ∀ id ∈ near, OnPath (path ++ [b]) id) (hfar : far.Routed (path ++ [!b]))
    (hordered : near.Pairwise (Before target)) : (near ++ far.leaves).Pairwise (Before target) := by
  refine List.pairwise_append.mpr ⟨hordered, ?_, fun x hx y hy => ?_⟩
  · refine hfar.pairwise_leaves.imp_of_mem fun {x y} hx hy hlt => .inr ⟨?_, hlt.le⟩
    rw [(commonBits_sides hlen htarget htarget (hfar.onPath hx)).2,
      (commonBits_sides hlen htarget htarget (hfar.onPath hy)).2]
  · obtain ⟨hmore, hless⟩ := commonBits_sides hlen htarget (hnear x hx) (hfar.onPath hy)
    exact .inl (hless ▸ hmore)

lemma Routed.pairwise_ranked (h : t.Routed path) (htarget : OnPath path target) :
    (t.ranked target path.length).Pairwise (Before target) := by
  induction t generalizing path with
  | empty => exact .nil
  | leaf id => exact List.pairwise_singleton ..
  | branch child0 child1 count0 count1 ih0 ih1 =>
    obtain ⟨hlen, _, _, h0, h1⟩ := h
    obtain ⟨b, hb⟩ := bit?_isSome target hlen
    have hnext : OnPath (path ++ [b]) target := onPath_append_singleton.mpr ⟨htarget, hb⟩
    have hlength : (path ++ [b]).length = path.length + 1 := by simp
    cases b with
    | false =>
      have ih := ih0 h0 hnext
      rw [hlength] at ih
      rw [ranked, if_neg (by simp [hb])]
      exact pairwise_sides hlen hnext
        (fun id hid => h0.onPath ((ranked_perm ..).mem_iff.mp hid)) h1 ih
    | true =>
      have ih := ih1 h1 hnext
      rw [hlength] at ih
      rw [ranked, if_pos hb]
      exact pairwise_sides hlen hnext
        (fun id hid => h1.onPath ((ranked_perm ..).mem_iff.mp hid)) h0 ih

/-! ## The admission count -/

/-- How many stored distances are nearer. -/
def nearer (t : TrieNode) (target : Id20) : Nat := t.leaves.countP (·.toNat < target.toNat)

lemma nearer_branch (child0 child1 : TrieNode) (count0 count1 : Nat) (target : Id20) :
    (branch child0 child1 count0 count1).nearer target =
      child0.nearer target + child1.nearer target :=
  List.countP_append

lemma leafCloser_le_one (path id : Id20) :
    ∀ (remaining depth : Nat) {n : Nat}, leafCloser path id depth remaining = some n → n ≤ 1
  | 0, _, n, h => by cases h; exact le_rfl
  | remaining + 1, depth, n, h => by
    obtain ⟨_, _, h⟩ := Option.bind_eq_some_iff.mp h
    obtain ⟨_, _, h⟩ := Option.bind_eq_some_iff.mp h
    split at h
    · cases h; exact Nat.zero_le _
    · exact leafCloser_le_one path id remaining (depth + 1) h

/-- On the left of a target, everything is nearer. -/
lemma Routed.nearer_left {child : TrieNode} (hlen : path.length < routingIdBits)
    (h : child.Routed (path ++ [false])) (htarget : OnPath (path ++ [true]) target) :
    child.nearer target = child.leaves.length :=
  List.countP_eq_length.mpr fun _ hid =>
    decide_eq_true (toNat_lt_of_sides hlen (h.onPath hid) htarget)

/-- On the right of it, nothing. -/
lemma Routed.nearer_right {child : TrieNode} (hlen : path.length < routingIdBits)
    (h : child.Routed (path ++ [true])) (htarget : OnPath (path ++ [false]) target) :
    child.nearer target = 0 :=
  List.countP_eq_zero.mpr fun _ hid => by
    have := toNat_lt_of_sides hlen htarget (h.onPath hid)
    simpa using this.le

/-- At the end of a target's path only the target can stand. -/
lemma Routed.leaves_eq_nil (h : t.Routed path) (hlen : routingIdBits ≤ path.length)
    (htarget : OnPath path target) (hnew : target ∉ t.leaves) : t.leaves = [] :=
  List.eq_nil_iff_forall_not_mem.mpr fun _ hid =>
    hnew ((h.onPath hid).eq_of_full htarget hlen ▸ hid)

/-- **The admission count is off by at most one**, for a distance that is not stored. -/
lemma Routed.countCloserThanSubpath_near (h : t.Routed path) (htarget : OnPath path target)
    (hnew : target ∉ t.leaves) :
    ∃ count, t.countCloserThanSubpath target path.length = some count ∧
      count ≤ t.nearer target + 1 ∧ t.nearer target ≤ count + 1 := by
  induction t generalizing path with
  | empty => exact ⟨0, rfl, by simp [nearer], by simp [nearer]⟩
  | leaf id =>
    -- the leaf's own test is not a comparison of the two distances
    obtain ⟨count, hcount⟩ := h.countCloserThanSubpath_isSome target
    have hle : count ≤ 1 := leafCloser_le_one _ _ _ _ hcount
    have hone : (leaf id).nearer target ≤ 1 := List.countP_le_length
    exact ⟨count, hcount, by omega, by omega⟩
  | branch child0 child1 count0 count1 ih0 ih1 =>
    obtain ⟨hlen, rfl, rfl, h0, h1⟩ := h
    obtain ⟨b, hb⟩ := bit?_isSome target hlen
    have hnext : OnPath (path ++ [b]) target := onPath_append_singleton.mpr ⟨htarget, hb⟩
    have hlength : (path ++ [b]).length = path.length + 1 := by simp
    have hin : ¬routingIdBits < path.length := by omega
    have hrem : ¬routingIdBits - path.length = 0 := by omega
    simp only [leaves_branch, List.mem_append, not_or] at hnew
    simp only [countCloserThanSubpath, hin, hrem, if_false, hb, Option.bind_some, nearer_branch]
    cases b with
    | false =>
      rw [h1.nearer_right hlen hnext]
      split
      · next hlast =>
          have hnil := h0.leaves_eq_nil (by omega) hnext hnew.1
          have hzero : child0.nearer target = 0 := by simp [nearer, hnil]
          have hempty : child0.leaves.length = 0 := by simp [hnil]
          exact ⟨child0.leaves.length, rfl, by omega, by omega⟩
      · obtain ⟨count, hcount, hle, hge⟩ := ih0 h0 hnext hnew.1
        rw [hlength] at hcount
        exact ⟨count, by simpa using hcount, by omega, by omega⟩
    | true =>
      rw [h0.nearer_left hlen hnext]
      split
      · next hlast =>
          have hnil := h1.leaves_eq_nil (by omega) hnext hnew.2
          have hzero : child1.nearer target = 0 := by simp [nearer, hnil]
          have hempty : child1.leaves.length = 0 := by simp [hnil]
          exact ⟨child0.leaves.length + child1.leaves.length, rfl, by omega, by omega⟩
      · obtain ⟨count, hcount, hle, hge⟩ := ih1 h1 hnext hnew.2
        rw [hlength] at hcount
        exact ⟨child0.leaves.length + count, by simp [hcount], by omega, by omega⟩

end TrieNode

/-! ## Over every sequence of calls -/

namespace RoutingTree

variable {origin : Id20} {tree : RoutingTree} {ids : Finset Id20}

/-- The leaves are the distances of the stored identifiers. -/
lemma Represents.perm_toList (h : Represents origin tree ids) :
    (tree.root.leaves.map (xor · origin)).Perm ids.toList := by
  refine (List.perm_ext_iff_of_nodup ?_ ids.nodup_toList).mpr fun id => ?_
  · exact h.invariant.routed.nodup.map (xor_injective origin)
  · rw [Finset.mem_toList, ← h.stores.mem_iff, h.origin_eq]
    constructor
    · intro hid
      obtain ⟨distance, hdistance, rfl⟩ := List.mem_map.mp hid
      rwa [xor_xor_cancel]
    · exact fun hid => List.mem_map.mpr ⟨_, hid, xor_xor_cancel ..⟩

/-- `closest` takes from the stored identifiers in order. -/
lemma Represents.closest_eq (h : Represents origin tree ids) (target : Id20) (limit : Nat) :
    tree.closest target limit = some ((ids.sort (Closer origin target)).take limit) := by
  have hroot := h.invariant.routed.closestToSubpath_eq (xor target tree.origin) limit
  rw [List.length_nil] at hroot
  rw [RoutingTree.closest, hroot, Option.map_some, List.map_take, h.origin_eq]
  refine congrArg (some ∘ List.take limit) ?_
  refine List.Perm.eq_of_pairwise' ?_ (Finset.pairwise_sort ..) ?_
  · refine List.pairwise_map.mpr
      ((h.invariant.routed.pairwise_ranked (onPath_nil (xor target origin))).imp ?_)
    intro a b hab
    rw [closer_iff_before, xor_xor_cancel, xor_xor_cancel]
    exact hab
  · have hranked := (tree.root.ranked_perm (xor target origin) 0).map (xor · origin)
    exact (hranked.trans h.perm_toList).trans (Finset.sort_perm_toList ..).symm

/-- **`closest` answers in order.**  Whatever puts and drops a new tree has received, the answer for a
target is the first `limit` of the stored identifiers, sorted by how many leading bits they share with
the target, the most first, and among those that share as many by their distance to the origin; none
is in it twice. -/
theorem run_closest_sorted (origin : Id20) (bucketCapacity : Nat) (splittingEnabled : Bool)
    (calls : List RoutingCall) :
    ∃ replies tree,
      Machine.run RoutingTree.call (new origin bucketCapacity splittingEnabled) calls =
        some (replies, tree) ∧
      ∀ (target : Id20) (limit : Nat), ∃ found, tree.closest target limit = some found ∧
        found = ((Machine.replay specCall ∅ calls replies).sort (Closer origin target)).take limit ∧
        found.Nodup := by
  obtain ⟨replies, tree, hrun, _, hrep⟩ :=
    (call_refines origin).run calls (represents_new origin bucketCapacity splittingEnabled)
  refine ⟨replies, tree, hrun, fun target limit => ⟨_, hrep.closest_eq target limit, rfl, ?_⟩⟩
  exact (Finset.sort_nodup ..).sublist (List.take_sublist ..)

/-- The stored identifiers that are strictly closer to the origin. -/
def strictlyCloser (origin id : Id20) (stored : Finset Id20) : Finset Id20 :=
  stored.filter fun other => (xor other origin).toNat < (xor id origin).toNat

lemma Represents.nearer_eq (h : Represents origin tree ids) (id : Id20) :
    tree.root.nearer (xor id origin) = (strictlyCloser origin id ids).card := by
  have hcount := h.perm_toList.countP_eq
    fun other => decide ((xor other origin).toNat < (xor id origin).toNat)
  rw [List.countP_map] at hcount
  simp only [Function.comp_def, xor_xor_cancel] at hcount
  rw [TrieNode.nearer, hcount, strictlyCloser, Finset.card_def, Finset.filter_val,
    ← Multiset.countP_eq_card_filter, ← Finset.coe_toList, Multiset.coe_countP]

/-- No call changes what the tree was made with. -/
lemma call_settings {tree' : RoutingTree} {call : RoutingCall} {reply : RoutingReply}
    (h : tree.call call = some (reply, tree')) :
    tree'.bucketCapacity = tree.bucketCapacity ∧
      tree'.splittingEnabled = tree.splittingEnabled := by
  cases call with
  | put id =>
    obtain ⟨⟨result, next⟩, hput, heq⟩ := Option.map_eq_some_iff.mp h
    cases heq
    unfold put at hput
    split at hput
    · cases hput; exact ⟨rfl, rfl⟩
    obtain ⟨stored, _, hput⟩ := Option.bind_eq_some_iff.mp hput
    split at hput
    · cases hput; exact ⟨rfl, rfl⟩
    obtain ⟨filled, _, hput⟩ := Option.bind_eq_some_iff.mp hput
    obtain ⟨refused, _, hput⟩ := Option.bind_eq_some_iff.mp hput
    split at hput
    · cases hput; exact ⟨rfl, rfl⟩
    · obtain ⟨root, _, heq⟩ := Option.map_eq_some_iff.mp hput
      cases heq
      exact ⟨rfl, rfl⟩
  | drop id =>
    obtain ⟨⟨removed, next⟩, hdrop, heq⟩ := Option.map_eq_some_iff.mp h
    cases heq
    obtain ⟨⟨found, root⟩, _, hdrop⟩ := Option.bind_eq_some_iff.mp hdrop
    split at hdrop
    · obtain ⟨filled, _, hdrop⟩ := Option.bind_eq_some_iff.mp hdrop
      split at hdrop
      · cases hdrop
      · cases hdrop; exact ⟨rfl, rfl⟩
    · cases hdrop; exact ⟨rfl, rfl⟩

/-- **Admission to a bucket.**  In every splitting tree that puts and drops lead to, the count that
decides about an identifier which is neither stored nor the origin differs by at most one from the
number of stored identifiers strictly closer to the origin.  The identifier is accepted if its bucket is
not full; if it is, it is rejected as soon as more identifiers than the capacity are closer, and accepted
as long as there are at most two fewer than the capacity. -/
theorem run_put_admission {origin : Id20} {bucketCapacity : Nat} {calls : List RoutingCall}
    {replies : List RoutingReply} {tree : RoutingTree}
    (hrun : Machine.run RoutingTree.call (new origin bucketCapacity true) calls =
      some (replies, tree))
    {id : Id20} (horigin : id ≠ origin) (hnew : id ∉ Machine.replay specCall ∅ calls replies) :
    ∃ count filled closer,
      tree.root.countCloserThanSubpath (xor id origin) 0 = some count ∧
      tree.bucketCounts[leadingZeros (xor id origin)]? = some filled ∧
      closer = (strictlyCloser origin id (Machine.replay specCall ∅ calls replies)).card ∧
      count ≤ closer + 1 ∧ closer ≤ count + 1 ∧
      (filled < bucketCapacity → ∃ tree', tree.put id = some (.accepted, tree')) ∧
      (bucketCapacity ≤ filled → bucketCapacity + 1 ≤ closer →
        tree.put id = some (.rejected, tree)) ∧
      (bucketCapacity ≤ filled → closer + 2 ≤ bucketCapacity →
        ∃ tree', tree.put id = some (.accepted, tree')) := by
  obtain ⟨replies', tree', hrun', _, hrep⟩ :=
    (call_refines origin).run calls (represents_new origin bucketCapacity true)
  obtain ⟨rfl, rfl⟩ : replies' = replies ∧ tree' = tree := by
    rw [hrun] at hrun'
    cases hrun'
    exact ⟨rfl, rfl⟩
  obtain ⟨rfl, hsplit⟩ : tree'.bucketCapacity = bucketCapacity ∧ tree'.splittingEnabled = true :=
    Machine.invariant_run
      (P := fun tree => tree.bucketCapacity = bucketCapacity ∧ tree.splittingEnabled = true)
      (fun {s s' call reply} hs hcall => by
        obtain ⟨hcapacity, hsplitting⟩ := call_settings hcall
        exact ⟨hcapacity.trans hs.1, hsplitting.trans hs.2⟩) calls ⟨rfl, rfl⟩ hrun
  obtain ⟨filled, count, accepted, hfilled, hcount, hput, _⟩ := hrep.put_fresh horigin hnew
  have hfresh : xor id origin ∉ tree'.root.leaves := by
    rw [← hrep.origin_eq]
    exact fun hid => hnew ((hrep.stores.mem_iff id).mp hid)
  obtain ⟨count', hcount', hle, hge⟩ := hrep.invariant.routed.countCloserThanSubpath_near
    (onPath_nil (xor id origin)) hfresh
  obtain rfl : count' = count := Option.some.inj (hcount'.symm.trans hcount)
  rw [hrep.nearer_eq] at hle hge
  rw [hsplit] at hput
  refine ⟨count', filled, _, hcount, hfilled, rfl, hle, hge, fun hroom => ?_, fun hfull hmany => ?_,
    fun hfull hfew => ?_⟩
  · exact ⟨accepted, by rw [hput, if_neg fun h => absurd h.1 (by omega)]⟩
  · rw [hput, if_pos ⟨hfull, .inr (by omega)⟩]
  · have hadmit : ¬(tree'.bucketCapacity ≤ filled ∧
        (true = false ∨ tree'.bucketCapacity ≤ count')) := by
      rintro ⟨_, h | h⟩
      · cases h
      · omega
    exact ⟨accepted, by rw [hput, if_neg hadmit]⟩

/-- An identifier that differs from the origin in its first two bits has filled the bucket.  One that
differs in the first only is closer than every stored one, but the count says that one is closer. -/
theorem run_put_admission_asymmetry :
    let eight : Id20 := ⟨0x80 :: List.replicate 19 0, rfl⟩
    let twelve : Id20 := ⟨0xc0 :: List.replicate 19 0, rfl⟩
    ∃ tree, Machine.run RoutingTree.call (new .zero 1 true) [.put twelve] =
        some ([.put .accepted], tree) ∧
      ∃ count filled closer,
        tree.root.countCloserThanSubpath (xor eight .zero) 0 = some count ∧
        tree.bucketCounts[leadingZeros (xor eight .zero)]? = some filled ∧
        closer = (strictlyCloser .zero eight
          (Machine.replay specCall ∅ [.put twelve] [.put .accepted])).card ∧
        count ≤ closer + 1 ∧ closer ≤ count + 1 ∧
        (filled < 1 → ∃ tree', tree.put eight = some (.accepted, tree')) ∧
        (1 ≤ filled → 1 + 1 ≤ closer → tree.put eight = some (.rejected, tree)) ∧
        (1 ≤ filled → closer + 2 ≤ 1 → ∃ tree', tree.put eight = some (.accepted, tree')) := by
  intro eight twelve
  obtain ⟨replies, tree, hrun, _⟩ := (call_refines .zero).run [.put twelve] (represents_new .zero 1 true)
  have hreplies : replies = [.put .accepted] := by
    have hmap := congrArg (Option.map Prod.fst) hrun
    exact (Option.some.inj (hmap.symm.trans (by decide +kernel))).trans rfl
  subst hreplies
  exact ⟨tree, hrun, run_put_admission hrun (by decide +kernel) (by decide +kernel)⟩

end RoutingTree

end Bitmagnet.Dht
