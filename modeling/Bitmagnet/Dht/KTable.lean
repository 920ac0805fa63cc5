import Mathlib.Data.Finset.Insert
import Mathlib.Logic.Function.Basic
import Bitmagnet.Dht.RoutingTree
import Bitmagnet.Dht.Transaction

/-!
# The k-table

The model of `node_table.rs`, `ktable_core.rs` and `ktable.rs`: a routing tree of node
identifiers with the nodes it stands for, a second one of info hashes with their peers, an index
from addresses back to both, and a live handle for every node.

A hash map is its lookup function.  A handle is shared memory that outlives its entry in the
table, so `handles` has the state of every handle ever made, and a handle is its place there.
Every public operation takes one lock for its whole length, so it is one step; `none` is a
panic, the `expect`s and debug assertions about the tables included.  A poisoned lock is not
modelled: no operation panics.  Instants are nanoseconds up to the latest one that the platform
can represent, and the clock is a function of how often it was read.  The queries that only
sort and sample the live handles are left out.
-/

namespace Bitmagnet.Dht

/-! ## The node table -/

/-- `NODE_TABLE_CAPACITY`. -/
def nodeTableCapacity : Nat := 80

/-- `NODE_TABLE_CLOSEST_LIMIT`. -/
def nodeTableClosestLimit : Nat := 8

/-- `RoutingNode`. -/
structure RoutingNode where
  id : Id20
  addr : SocketAddr
deriving DecidableEq

/-- `normalize_addr` of `node_table.rs`, and `normalize_socket_addr` of `ktable_core.rs`. -/
def normalizeAddr : SocketAddr → SocketAddr
  | .v4 ip port => .v4 ip port
  | .v6 ip port _ scopeId => .v6 ip port 0 scopeId

/-- `NodeTable`. -/
structure NodeTable where
  origin : Id20
  routing : RoutingTree
  nodes : Id20 → Option RoutingNode

namespace NodeTable

/-- `NodeTable::new`. -/
def new (origin : Id20) : NodeTable where
  origin := origin
  routing := RoutingTree.new origin nodeTableCapacity true
  nodes := fun _ => none

/-- `NodeTable::put`. -/
def put (table : NodeTable) (node : RoutingNode) : Option (RoutingPutResult × NodeTable) :=
  (table.routing.put node.id).map fun r =>
    match r.1 with
    | .accepted | .alreadyExists =>
      (r.1,
        { table with
          routing := r.2
          nodes := Function.update table.nodes node.id
            (some { node with addr := normalizeAddr node.addr }) })
    | .rejected => (r.1, { table with routing := r.2 })

/-- `NodeTable::drop`, with its `debug_assert!`. -/
def drop (table : NodeTable) (id : Id20) : Option (Bool × NodeTable) :=
  (table.routing.drop id).bind fun r =>
    if r.1 then
      (table.nodes id).map fun _ =>
        (true, { table with routing := r.2, nodes := Function.update table.nodes id none })
    else some (false, { table with routing := r.2 })

/-- `NodeTable::closest`; the `expect` on the payload is the fault. -/
def closest (table : NodeTable) (id : Id20) : Option (List RoutingNode) :=
  match table.nodes id with
  | some node => some [node]
  | none =>
    (table.routing.closest id nodeTableClosestLimit).bind fun ids => ids.mapM table.nodes

end NodeTable

/-! ## The core -/

/-- `HASH_TABLE_CAPACITY`. -/
def hashTableCapacity : Nat := 80

/-- `KTableHashPeer`. -/
structure KTableHashPeer where
  addr : SocketAddr
deriving DecidableEq

/-- `ReverseAddress`. -/
inductive ReverseAddress
  | v4 (ip : Bytes.Fixed UInt8 4)
  | v6 (ip : Bytes.Fixed UInt8 16) (scopeId : UInt32)
deriving DecidableEq

/-- `ReverseAddress::from_socket_addr`. -/
def ReverseAddress.fromSocketAddr : SocketAddr → ReverseAddress
  | .v4 ip _ => .v4 ip
  | .v6 ip _ _ scopeId => .v6 ip scopeId

/-- `ReverseInfo`, with its default. -/
structure ReverseInfo where
  peerId : Id20 := Id20.zero
  hashes : Finset Id20 := ∅

/-- `HashEntry`. -/
structure HashEntry where
  id : Id20
  peers : ReverseAddress → Option KTableHashPeer

/-- `KTableCore`. -/
structure KTableCore where
  origin : Id20
  nodes : NodeTable
  hashRouting : RoutingTree
  hashes : Id20 → Option HashEntry
  reverse : ReverseAddress → Option ReverseInfo

namespace KTableCore

/-- `KTableCore::new`. -/
def new (origin : Id20) : KTableCore where
  origin := origin
  nodes := NodeTable.new origin
  hashRouting := RoutingTree.new origin hashTableCapacity true
  hashes := fun _ => none
  reverse := fun _ => none

/-- `KTableCore::node`. -/
def node (core : KTableCore) (id : Id20) : Option (Option RoutingNode) :=
  (core.nodes.closest id).map fun nodes => nodes.head?.filter (·.id = id)

/-- The reverse index behind an update of a node. -/
def reindex (reverse : ReverseAddress → Option ReverseInfo) (previous node : RoutingNode) :
    ReverseAddress → Option ReverseInfo :=
  let reverse :=
    if previous.addr ≠ node.addr then
      Function.update reverse (.fromSocketAddr previous.addr) none
    else reverse
  let info := (reverse (.fromSocketAddr node.addr)).getD {}
  Function.update reverse (.fromSocketAddr node.addr) (some { info with peerId := node.id })

/-- `KTableCore::put_node`. -/
def putNode (core : KTableCore) (node : RoutingNode) : Option (RoutingPutResult × KTableCore) :=
  let node := { node with addr := normalizeAddr node.addr }
  (core.node node.id).bind fun previous =>
    (core.nodes.put node).bind fun r =>
      let core := { core with nodes := r.2 }
      if r.1 ≠ .alreadyExists then some (r.1, core)
      else
        -- `expect`
        previous.map fun previous =>
          (r.1, { core with reverse := reindex core.reverse previous node })

/-- `KTableCore::drop_node`. -/
def dropNode (core : KTableCore) (id : Id20) : Option (Bool × KTableCore) :=
  (core.node id).bind fun found =>
    match found with
    | none => some (false, core)
    | some node =>
      (core.nodes.drop id).map fun r =>
        if r.1 then
          (true,
            { core with
              nodes := r.2
              reverse := Function.update core.reverse (.fromSocketAddr node.addr) none })
        else (false, { core with nodes := r.2 })

/-- `KTableCore::drop_addr`. -/
def dropAddr (core : KTableCore) (addr : SocketAddr) : Option (Bool × KTableCore) :=
  match core.reverse (.fromSocketAddr addr) with
  | none => some (false, core)
  | some info => if info.peerId = Id20.zero then some (false, core) else core.dropNode info.peerId

/-- `KTableCore::node_id_for_addr`. -/
def nodeIdForAddr (core : KTableCore) (addr : SocketAddr) : Option Id20 :=
  (core.reverse (.fromSocketAddr addr)).bind fun info =>
    if info.peerId ≠ Id20.zero then some info.peerId else none

/-- One peer in `put_hash`. -/
def addPeer (id : Id20)
    (tables : (ReverseAddress → Option KTableHashPeer) × (ReverseAddress → Option ReverseInfo))
    (peer : KTableHashPeer) :
    (ReverseAddress → Option KTableHashPeer) × (ReverseAddress → Option ReverseInfo) :=
  let peer : KTableHashPeer := ⟨normalizeAddr peer.addr⟩
  let key := ReverseAddress.fromSocketAddr peer.addr
  let info := (tables.2 key).getD {}
  (Function.update tables.1 key (some peer),
    Function.update tables.2 key (some { info with hashes := insert id info.hashes }))

/-- `KTableCore::put_hash`. -/
def putHash (core : KTableCore) (id : Id20) (peers : List KTableHashPeer) :
    Option (RoutingPutResult × KTableCore) :=
  (core.hashRouting.put id).bind fun r =>
    if r.1 = .rejected then some (r.1, { core with hashRouting := r.2 })
    else
      let hashes :=
        if r.1 = .accepted then Function.update core.hashes id (some ⟨id, fun _ => none⟩)
        else core.hashes
      -- `expect`
      (hashes id).map fun entry =>
        let tables := peers.foldl (addPeer id) (entry.peers, core.reverse)
        (r.1,
          { core with
            hashRouting := r.2
            hashes := Function.update hashes id (some { entry with peers := tables.1 })
            reverse := tables.2 })

end KTableCore

/-! ## Live handles -/

/-- `KTableBep51Support`. -/
inductive KTableBep51Support
  | unknown
  | yes
  | no
deriving DecidableEq

/-- `KTableNodeOption`. -/
inductive KTableNodeOption
  | responded
  | bep51Support (supported : Bool)
  | sampleInfoHashesResponse (discoveredNum totalNum : Int64) (nextSampleAt : Nat)
deriving DecidableEq

/-- `KTableNodeState`. -/
structure KTableNodeState where
  node : RoutingNode
  lastRespondedAt : Option Nat := none
  dropped : Bool := false
  bep51Support : KTableBep51Support := .unknown
  sampledNum : Int64 := 0
  lastDiscoveredNum : Int64 := 0
  totalNum : Int64 := 0
  nextSampleInfohashesAt : Option Nat := none
deriving DecidableEq

section Clock

variable (latest : Nat) (clock : Nat → Nat)

/-- `Instant::checked_add`. -/
def checkedAdd (value nanos : Nat) : Option Nat :=
  if value + nanos ≤ latest then some (value + nanos) else none

/-- `EMPTY_SAMPLE_PENALTY`. -/
def emptySamplePenalty : Nat := 5 * 60 * 1000000000

/-- The loop of `saturating_add_five_minutes`. -/
def largestNanos (value lowNanos highNanos : Nat) : Nat :=
  if lowNanos < highNanos then
    let midpoint := lowNanos + (highNanos - lowNanos + 1) / 2
    if (checkedAdd latest value midpoint).isSome then largestNanos value midpoint highNanos
    else largestNanos value lowNanos (midpoint - 1)
  else lowNanos
termination_by highNanos - lowNanos

/-- `saturating_add_five_minutes`. -/
def saturatingAddFiveMinutes (value : Nat) : Nat :=
  match checkedAdd latest value emptySamplePenalty with
  | some result => result
  | none =>
    (checkedAdd latest value (largestNanos latest value 0 emptySamplePenalty)).getD value

variable {latest} in
/-- While the room left on the clock lies between the two bounds, the loop ends at it: a midpoint
that can be added is at most the room, and one that cannot is above it. -/
lemma largestNanos_eq {value low high : Nat} (hvalue : value ≤ latest)
    (hlow : low ≤ latest - value) (hhigh : latest - value ≤ high) :
    largestNanos latest value low high = latest - value := by
  fun_induction largestNanos latest value low high with
  | case1 low high hlt midpoint hadd ih =>
    have hroom : value + midpoint ≤ latest := by simpa [checkedAdd] using hadd
    exact ih (by omega) hhigh
  | case2 low high hlt midpoint hadd ih =>
    have hroom : latest < value + midpoint := by simpa [checkedAdd] using hadd
    exact ih hlow (by omega)
  | case3 low high hle => omega

variable {latest} in
lemma saturatingAdd_eq_min {value : Nat} (hvalue : value ≤ latest) (nanos : Nat) :
    (match checkedAdd latest value nanos with
      | some result => result
      | none => (checkedAdd latest value (largestNanos latest value 0 nanos)).getD value) =
      min (value + nanos) latest := by
  by_cases hfits : value + nanos ≤ latest
  · simp [checkedAdd, hfits]
  · have hroom : largestNanos latest value 0 nanos = latest - value :=
      largestNanos_eq hvalue (Nat.zero_le _) (by omega)
    have hsum : value + (latest - value) = latest := by omega
    have hmin : min (value + nanos) latest = latest := by omega
    simp [checkedAdd, hfits, hroom, hsum, hmin]

variable {latest} in
theorem saturatingAddFiveMinutes_eq_min {value : Nat} (hvalue : value ≤ latest) :
    saturatingAddFiveMinutes latest value = min (value + emptySamplePenalty) latest := by
  -- unfolded before it is applied: the kernel would count the penalty down in unary
  have hdef : saturatingAddFiveMinutes = fun latest value =>
      match checkedAdd latest value emptySamplePenalty with
      | some result => result
      | none =>
        (checkedAdd latest value (largestNanos latest value 0 emptySamplePenalty)).getD value := by
    delta saturatingAddFiveMinutes
    rfl
  exact (congrFun (congrFun hdef latest) value).trans (saturatingAdd_eq_min hvalue _)

/-- Two minutes before the end of the clock the deadline is the end of the clock. -/
theorem saturatingAddFiveMinutes_near_end :
    80000000000 ≤ 200000000000 ∧
      saturatingAddFiveMinutes 200000000000 80000000000 = 200000000000 := by
  have hvalue : 80000000000 ≤ 200000000000 := by omega
  refine ⟨hvalue, ?_⟩
  rw [saturatingAddFiveMinutes_eq_min hvalue, emptySamplePenalty]
  omega

/-- One option in `apply_options`; the number counts how often the clock was read. -/
def applyOption (s : KTableNodeState × Nat) : KTableNodeOption → KTableNodeState × Nat
  | .responded => ({ s.1 with lastRespondedAt := some (clock s.2) }, s.2 + 1)
  | .bep51Support supported =>
    ({ s.1 with bep51Support := if supported then .yes else .no }, s.2)
  | .sampleInfoHashesResponse discoveredNum totalNum nextSampleAt =>
    let counted :=
      { s.1 with
        sampledNum := s.1.sampledNum + discoveredNum
        lastDiscoveredNum := discoveredNum
        totalNum := s.1.totalNum + totalNum }
    if discoveredNum = 0 then
      ({ counted with
          nextSampleInfohashesAt :=
            some (saturatingAddFiveMinutes latest (max nextSampleAt (clock s.2))) },
        s.2 + 1)
    else ({ counted with nextSampleInfohashesAt := some nextSampleAt }, s.2)

/-- `apply_options`. -/
def applyOptions (options : List KTableNodeOption) (s : KTableNodeState × Nat) :
    KTableNodeState × Nat :=
  options.foldl (applyOption latest clock) s

end Clock

/-! ## The table -/

/-- A handle: its place among all that were made. -/
abbrev KTableNodeHandle := Nat

/-- `KTableState`, with every handle ever made and the number of clock reads. -/
structure KTable where
  core : KTableCore
  nodeHandles : Id20 → Option KTableNodeHandle
  handles : List KTableNodeState
  clockReads : Nat

/-- `KTableCommand`. -/
inductive KTableCommand
  | putNode (node : RoutingNode) (options : List KTableNodeOption)
  | dropNode (id : Id20)
  | dropAddr (addr : SocketAddr)
  | putHash (id : Id20) (peers : List KTableHashPeer)
deriving DecidableEq

namespace KTable

/-- `KTableState::new`. -/
def new (origin : Id20) : KTable where
  core := KTableCore.new origin
  nodeHandles := fun _ => none
  handles := []
  clockReads := 0

section Commands

variable (latest : Nat) (clock : Nat → Nat) (table : KTable)

/-- A new handle for the stored node, in `put_node`. -/
def addHandle (id : Id20) (stored : RoutingNode) (options : List KTableNodeOption) : KTable :=
  let s := applyOptions latest clock options ({ node := stored }, table.clockReads)
  { table with
    nodeHandles := Function.update table.nodeHandles id (some table.handles.length)
    handles := table.handles ++ [s.1]
    clockReads := s.2 }

/-- `update_node` and `apply_options` of a live handle, in `put_node`. -/
def updateHandle (handle : KTableNodeHandle) (stored : RoutingNode)
    (options : List KTableNodeOption) : KTable :=
  match table.handles[handle]? with
  | none => table
  | some state =>
    let s := applyOptions latest clock options ({ state with node := stored }, table.clockReads)
    { table with handles := table.handles.set handle s.1, clockReads := s.2 }

/-- `KTableState::put_node`. -/
def putNode (node : RoutingNode) (options : List KTableNodeOption) :
    Option (RoutingPutResult × KTable) :=
  (table.core.putNode node).bind fun r =>
    let table := { table with core := r.2 }
    match r.1 with
    | .rejected => some (r.1, table)
    | .accepted =>
      (table.core.node node.id).map fun stored =>
        match stored with
        | some stored => (r.1, table.addHandle latest clock node.id stored options)
        | none => (r.1, table)
    | .alreadyExists =>
      (table.core.node node.id).map fun stored =>
        match stored, table.nodeHandles node.id with
        | some stored, some handle => (r.1, table.updateHandle latest clock handle stored options)
        | _, _ => (r.1, table)

/-- `KTableState::remove_live_handle`. -/
def removeLiveHandle (id : Id20) : KTable :=
  match table.nodeHandles id with
  | none => table
  | some handle =>
    { table with
      nodeHandles := Function.update table.nodeHandles id none
      handles := table.handles.modify handle fun state => { state with dropped := true } }

/-- `KTableState::drop_node`. -/
def dropNode (id : Id20) : Option (Bool × KTable) :=
  (table.core.dropNode id).map fun r =>
    let table := { table with core := r.2 }
    if r.1 then (true, table.removeLiveHandle id) else (false, table)

/-- `KTableState::drop_addr`. -/
def dropAddr (addr : SocketAddr) : Option (Bool × KTable) :=
  match table.core.nodeIdForAddr addr with
  | none => some (false, table)
  | some id =>
    (table.core.dropAddr addr).map fun r =>
      let table := { table with core := r.2 }
      if r.1 then (true, table.removeLiveHandle id) else (false, table)

/-- `KTable::put_hash`. -/
def putHash (id : Id20) (peers : List KTableHashPeer) : Option (RoutingPutResult × KTable) :=
  (table.core.putHash id peers).map fun r => (r.1, { table with core := r.2 })

/-- `KTableState::apply_command`. -/
def applyCommand : KTableCommand → Option KTable
  | .putNode node options => (table.putNode latest clock node options).map Prod.snd
  | .dropNode id => (table.dropNode id).map Prod.snd
  | .dropAddr addr => (table.dropAddr addr).map Prod.snd
  | .putHash id peers => (table.putHash id peers).map Prod.snd

/-- `KTable::batch_command`. -/
def batchCommand (commands : List KTableCommand) : Option KTable :=
  commands.foldlM (applyCommand latest clock) table

/-- `KTable::closest_nodes`. -/
def closestNodes (id : Id20) : Option (List KTableNodeHandle) :=
  (table.core.nodes.closest id).map fun nodes => nodes.filterMap (table.nodeHandles ·.id)

/-- `KTable::get_hash_or_closest_nodes`; the order of the peers is left out. -/
def getHashOrClosestNodes (id : Id20) : Option (HashEntry ⊕ List KTableNodeHandle) :=
  match table.core.hashes id with
  | some entry => some (.inl entry)
  | none => (table.closestNodes id).map .inr

end Commands

/-- A public operation. -/
inductive Call
  | putNode (node : RoutingNode) (options : List KTableNodeOption)
  | dropNode (id : Id20)
  | dropAddr (addr : SocketAddr)
  | putHash (id : Id20) (peers : List KTableHashPeer)
  | batchCommand (commands : List KTableCommand)
  | closestNodes (id : Id20)
  | getHashOrClosestNodes (id : Id20)

/-- What it answers. -/
inductive Answer
  | put (result : RoutingPutResult)
  | dropped (removed : Bool)
  | done
  | found (hashOrNodes : HashEntry ⊕ List KTableNodeHandle)

/-- One operation on the table. -/
def step (latest : Nat) (clock : Nat → Nat) (table : KTable) : Call → Option (Answer × KTable)
  | .putNode node options =>
    (table.putNode latest clock node options).map fun r => (.put r.1, r.2)
  | .dropNode id => (table.dropNode id).map fun r => (.dropped r.1, r.2)
  | .dropAddr addr => (table.dropAddr addr).map fun r => (.dropped r.1, r.2)
  | .putHash id peers => (table.putHash id peers).map fun r => (.put r.1, r.2)
  | .batchCommand commands => (table.batchCommand latest clock commands).map fun t => (.done, t)
  | .closestNodes id => (table.closestNodes id).map fun handles => (.found (.inr handles), table)
  | .getHashOrClosestNodes id =>
    (table.getHashOrClosestNodes id).map fun found => (.found found, table)

end KTable

end Bitmagnet.Dht
