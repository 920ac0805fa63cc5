import Bitmagnet.Dht.Id20

/-!
# The Kademlia routing tree

The model of `routing_tree.rs`: an empty/leaf/branch trie over `id XOR origin`
with cached subtree counts, and beside it a histogram of leading-zero counts that
decides admission.

Every function of the source that can panic returns `Option`, and `none` is the
panic: `bit` past the last byte, a `bucket_counts` index past the array, a
decrement of zero, the `expect` on a one-item branch.  `TrieNode.insertUnique`
recurses on the node it has just rewritten rather than on a child, so it takes
the number of levels still below it as its structural argument; a call chain
longer than the identifier is wide is reported as `none` too.
-/

namespace Bitmagnet.Dht

/-- `RoutingPutResult`. -/
inductive RoutingPutResult
  | rejected
  | accepted
  | alreadyExists
deriving DecidableEq, Repr

/-- `TrieNode`.  A branch owns its two children and the two cached counts. -/
inductive TrieNode
  | empty
  | leaf (id : Id20)
  | branch (child0 child1 : TrieNode) (count0 count1 : Nat)
deriving DecidableEq

namespace TrieNode

/-- `count`: read off the cache, never recounted. -/
def count : TrieNode → Nat
  | empty => 0
  | leaf _ => 1
  | branch _ _ count0 count1 => count0 + count1

/-- `contains`. -/
def contains : TrieNode → Id20 → Nat → Option Bool
  | empty, _, _ => some false
  | leaf existing, id, _ => some (existing == id)
  | branch child0 child1 _ _, id, depth =>
    (bit? id depth).bind fun branch =>
      if branch then child1.contains id (depth + 1) else child0.contains id (depth + 1)

/-- The branch arm of `insert_unique`: descend along the identifier's bit, then
refresh that side's cached count. -/
def branchInsert (insertChild : TrieNode → Id20 → Nat → Option TrieNode) :
    TrieNode → Id20 → Nat → Option TrieNode
  | branch child0 child1 count0 count1, id, depth =>
    (bit? id depth).bind fun bit =>
      if bit then
        (insertChild child1 id (depth + 1)).map fun child => branch child0 child count0 child.count
      else
        (insertChild child0 id (depth + 1)).map fun child => branch child child1 child.count count1
  | _, _, _ => none

/-- `insert_unique`.  A leaf becomes an empty branch that takes back the leaf's
own identifier and then the new one; the `debug_assert_ne!` on the two is a
fault. -/
def insertUnique : Nat → TrieNode → Id20 → Nat → Option TrieNode
  | 0, _, _, _ => none
  | _ + 1, empty, id, _ => some (leaf id)
  | levels + 1, leaf previous, id, depth =>
    if previous = id then none
    else
      (branchInsert (insertUnique levels) (branch empty empty 0 0) previous depth).bind
        fun node => branchInsert (insertUnique levels) node id depth
  | levels + 1, branch child0 child1 count0 count1, id, depth =>
    branchInsert (insertUnique levels) (branch child0 child1 count0 count1) id depth

/-- `only_id`, with its `debug_assert_eq!` on the branch's count. -/
def onlyId : TrieNode → Option Id20
  | empty => none
  | leaf id => some id
  | branch child0 child1 count0 count1 =>
    if count0 + count1 ≠ 1 then none
    else if count0 = 0 then child1.onlyId
    else child0.onlyId

/-- The end of `remove`'s branch arm: an emptied branch becomes `Empty`, a
one-item branch collapses to its leaf.  The `expect` on `only_id` is the fault. -/
def collapse (child0 child1 : TrieNode) (count0 count1 : Nat) : Option TrieNode :=
  if count0 + count1 = 0 then some empty
  else if count0 + count1 = 1 then (branch child0 child1 count0 count1).onlyId.map leaf
  else some (branch child0 child1 count0 count1)

/-- `remove`: whether the identifier was there, and the node it leaves. -/
def remove : TrieNode → Id20 → Nat → Option (Bool × TrieNode)
  | empty, _, _ => some (false, empty)
  | leaf existing, id, _ => some (if existing = id then (true, empty) else (false, leaf existing))
  | branch child0 child1 count0 count1, id, depth =>
    (bit? id depth).bind fun bit =>
      if bit then
        (child1.remove id (depth + 1)).bind fun r =>
          if r.1 then (collapse child0 r.2 count0 r.2.count).map (true, ·)
          else some (false, branch child0 r.2 count0 count1)
      else
        (child0.remove id (depth + 1)).bind fun r =>
          if r.1 then (collapse r.2 child1 r.2.count count1).map (true, ·)
          else some (false, branch r.2 child1 count0 count1)

/-- The leaf arm of `count_closer_than_subpath`: no bit from `depth` on may be
set in the path and clear in the stored identifier.  `remaining` counts the
loop's iterations. -/
def leafCloser (path id : Id20) (depth : Nat) : Nat → Option Nat
  | 0 => some 1
  | remaining + 1 =>
    (bit? path depth).bind fun pathBit => (bit? id depth).bind fun idBit =>
      if pathBit && !idBit then some 0 else leafCloser path id (depth + 1) remaining

/-- `count_closer_than_subpath`.  `ROUTING_ID_BITS - depth` underflows below the
last bit. -/
def countCloserThanSubpath : TrieNode → Id20 → Nat → Option Nat
  | empty, _, _ => some 0
  | leaf id, path, depth => leafCloser path id depth (routingIdBits - depth)
  | branch child0 child1 count0 count1, path, depth =>
    if routingIdBits < depth then none
    else if routingIdBits - depth = 0 then some 0
    else
      (bit? path depth).bind fun branch =>
        if routingIdBits - depth = 1 then some (if branch then count0 + count1 else count0)
        else if branch then (child1.countCloserThanSubpath path (depth + 1)).map (count0 + ·)
        else child0.countCloserThanSubpath path (depth + 1)

/-- `closest_without_path`. -/
def closestWithoutPath : TrieNode → Nat → List Id20
  | _, 0 => []
  | empty, _ + 1 => []
  | leaf id, _ + 1 => [id]
  | branch child0 child1 _ _, limit + 1 =>
    let result := child0.closestWithoutPath (limit + 1)
    if result.length < limit + 1 then
      result ++ child1.closestWithoutPath (limit + 1 - result.length)
    else result

/-- `closest_to_subpath`. -/
def closestToSubpath : TrieNode → Id20 → Nat → Nat → Option (List Id20)
  | _, _, _, 0 => some []
  | empty, _, _, _ + 1 => some []
  | leaf id, _, _, _ + 1 => some [id]
  | branch child0 child1 _ _, path, depth, limit + 1 =>
    (if depth = routingIdBits then some false else bit? path depth).bind fun bit =>
      let nextDepth := min (depth + 1) routingIdBits
      let far := if bit then child0 else child1
      (if bit then child1.closestToSubpath path nextDepth (limit + 1)
        else child0.closestToSubpath path nextDepth (limit + 1)).map fun result =>
        if result.length < limit + 1 then
          result ++ far.closestWithoutPath (limit + 1 - result.length)
        else result

end TrieNode

/-- `RoutingTree`. -/
structure RoutingTree where
  origin : Id20
  bucketCapacity : Nat
  splittingEnabled : Bool
  root : TrieNode
  bucketCounts : Vector Nat routingIdBits
deriving DecidableEq

namespace RoutingTree

/-- `RoutingTree::new`. -/
def new (origin : Id20) (bucketCapacity : Nat) (splittingEnabled : Bool) : RoutingTree where
  origin := origin
  bucketCapacity := bucketCapacity
  splittingEnabled := splittingEnabled
  root := .empty
  bucketCounts := Vector.replicate routingIdBits 0

/-- `RoutingTree::count`. -/
def count (tree : RoutingTree) : Nat := tree.root.count

/-- `RoutingTree::contains`. -/
def contains (tree : RoutingTree) (id : Id20) : Option Bool :=
  tree.root.contains (xor id tree.origin) 0

/-- The second disjunct of `put`'s admission test, evaluated only for a full
bucket. -/
def splitRefused (tree : RoutingTree) (distance : Id20) : Option Bool :=
  if !tree.splittingEnabled then some true
  else (tree.root.countCloserThanSubpath distance 0).map (tree.bucketCapacity ≤ ·)

/-- `RoutingTree::put`. -/
def put (tree : RoutingTree) (id : Id20) : Option (RoutingPutResult × RoutingTree) :=
  if id = tree.origin then some (.rejected, tree)
  else
    let distance := xor id tree.origin
    (tree.root.contains distance 0).bind fun stored =>
      if stored then some (.alreadyExists, tree)
      else
        let bucket := leadingZeros distance
        tree.bucketCounts[bucket]?.bind fun filled =>
          (if tree.bucketCapacity ≤ filled then tree.splitRefused distance else some false).bind
            fun refused =>
              if refused then some (.rejected, tree)
              else
                (tree.root.insertUnique (routingIdBits + 1) distance 0).map fun root =>
                  (.accepted,
                    { tree with
                      root := root
                      bucketCounts := tree.bucketCounts.setIfInBounds bucket (filled + 1) })

/-- `RoutingTree::drop`.  The decrement of an empty bucket is the fault. -/
def drop (tree : RoutingTree) (id : Id20) : Option (Bool × RoutingTree) :=
  let distance := xor id tree.origin
  (tree.root.remove distance 0).bind fun r =>
    if r.1 then
      let bucket := leadingZeros distance
      tree.bucketCounts[bucket]?.bind fun filled =>
        if filled = 0 then none
        else
          some (true,
            { tree with
              root := r.2
              bucketCounts := tree.bucketCounts.setIfInBounds bucket (filled - 1) })
    else some (false, { tree with root := r.2 })

/-- `RoutingTree::closest`. -/
def closest (tree : RoutingTree) (id : Id20) (limit : Nat) : Option (List Id20) :=
  (tree.root.closestToSubpath (xor id tree.origin) 0 limit).map
    (List.map fun distance => xor distance tree.origin)

end RoutingTree

/-- A call that changes the tree. -/
inductive RoutingCall
  | put (id : Id20)
  | drop (id : Id20)
deriving DecidableEq

/-- What such a call answers. -/
inductive RoutingReply
  | put (result : RoutingPutResult)
  | drop (removed : Bool)
deriving DecidableEq

/-- One call on the tree. -/
def RoutingTree.call (tree : RoutingTree) : RoutingCall → Option (RoutingReply × RoutingTree)
  | .put id => (tree.put id).map fun r => (.put r.1, r.2)
  | .drop id => (tree.drop id).map fun r => (.drop r.1, r.2)

end Bitmagnet.Dht
