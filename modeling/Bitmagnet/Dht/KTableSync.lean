import Mathlib.Logic.Relation
import Bitmagnet.Dht.RoutingInvariant
import Bitmagnet.Dht.KTable

/-!
# The k-table's five structures stay synchronised

Without its routing trees the table is a record of plain maps, its `Contents`, and what one
command can do to them is one of five changes (`Contents.Step`): nothing, a new node with a new
handle, another address for a stored node, the removal of a node, and peers for a hash.

* `RoutingTree.Mirrors` says that a tree stores the keys of a payload map; the calls on the tree
  keep it under the matching change of the map, and `closest` answers with keys.
* `Contents.Live` says that the live handles are those of the stored nodes.
* `Synced` is the two mirrors with `Live`.  A command on a synchronised table never panics, is a
  `Step` of its contents and leaves it synchronised (`Synced.applyCommand`).

What holds of the contents along a run is therefore shown for the five changes alone, here and in
the two modules that follow.
-/

namespace Bitmagnet.Dht

/-! ## A tree beside a payload map -/

namespace RoutingTree

variable {α : Type} {origin : Id20} {tree : RoutingTree} {payload : Id20 → Option α}

/-- The tree stores exactly the keys of the map. -/
def Mirrors (origin : Id20) (tree : RoutingTree) (payload : Id20 → Option α) : Prop :=
  ∃ ids, Represents origin tree ids ∧ ∀ id, id ∈ ids ↔ (payload id).isSome

lemma mirrors_new (origin : Id20) (bucketCapacity : Nat) (splittingEnabled : Bool) :
    Mirrors origin (new origin bucketCapacity splittingEnabled) (fun _ => (none : Option α)) :=
  ⟨∅, represents_new origin bucketCapacity splittingEnabled, by simp⟩

section

variable (h : Mirrors origin tree payload)
include h

lemma Mirrors.contains_eq (id : Id20) : tree.contains id = some (payload id).isSome := by
  obtain ⟨ids, hrep, hmem⟩ := h
  rw [hrep.contains_eq]
  simp [hmem]

/-- Another value for a stored key. -/
lemma Mirrors.update {id : Id20} (hstored : (payload id).isSome) (value : α) :
    Mirrors origin tree (Function.update payload id (some value)) := by
  obtain ⟨ids, hrep, hmem⟩ := h
  refine ⟨ids, hrep, fun other => ?_⟩
  by_cases heq : other = id
  · subst heq
    simp [hmem, hstored]
  · simp [hmem, heq]

/-- What `put` answers, and the maps that the tree then mirrors. -/
lemma Mirrors.put (id : Id20) :
    ∃ result tree', tree.put id = some (result, tree') ∧ match result with
      | .rejected => payload id = none ∧ Mirrors origin tree' payload
      | .accepted =>
        payload id = none ∧ ∀ value, Mirrors origin tree' (Function.update payload id (some value))
      | .alreadyExists => (∃ value, payload id = some value) ∧ Mirrors origin tree' payload := by
  obtain ⟨ids, hrep, hmem⟩ := h
  obtain ⟨result, tree', hput, hlegal, hrep'⟩ := hrep.put id
  have hnone : id ∉ ids → payload id = none := by simp [hmem]
  refine ⟨result, tree', hput, ?_⟩
  cases result with
  | rejected => exact ⟨hnone hlegal, ids, hrep', hmem⟩
  | accepted =>
    refine ⟨hnone hlegal.2, fun value => ⟨_, hrep', fun other => ?_⟩⟩
    by_cases heq : other = id
    · subst heq
      simp [specCall]
    · simp [specCall, heq, hmem]
  | alreadyExists => exact ⟨Option.isSome_iff_exists.mp ((hmem id).mp hlegal), ids, hrep', hmem⟩

/-- `drop` answers whether the key is stored and takes it out. -/
lemma Mirrors.drop (id : Id20) :
    ∃ tree', tree.drop id = some ((payload id).isSome, tree') ∧
      Mirrors origin tree' (Function.update payload id none) := by
  obtain ⟨ids, hrep, hmem⟩ := h
  obtain ⟨removed, tree', hdrop, hlegal, hrep'⟩ := hrep.drop id
  obtain rfl : removed = (payload id).isSome := by
    rw [show removed = decide (id ∈ ids) from hlegal]
    simp [hmem]
  refine ⟨tree', hdrop, _, hrep', fun other => ?_⟩
  cases hstored : (payload id).isSome with
  | true =>
    by_cases heq : other = id
    · subst heq
      simp [specCall]
    · simp [specCall, heq, hmem]
  | false =>
    by_cases heq : other = id
    · subst heq
      simp [specCall, hmem, hstored]
    · simp [specCall, heq, hmem]

/-- `closest` answers with keys. -/
lemma Mirrors.closest (id : Id20) (limit : Nat) :
    ∃ found, tree.closest id limit = some found ∧ ∀ other ∈ found, (payload other).isSome := by
  obtain ⟨ids, hrep, hmem⟩ := h
  obtain ⟨found, hfound, hids⟩ := hrep.closest id limit
  exact ⟨found, hfound, fun other hother => (hmem other).mp (hids other hother)⟩

end

end RoutingTree

/-! ## The node table -/

namespace NodeTable

/-- The tree mirrors the payloads, and a payload is under its own identifier. -/
structure Synced (origin : Id20) (table : NodeTable) : Prop where
  mirrors : RoutingTree.Mirrors origin table.routing table.nodes
  id_eq : ∀ {id node}, table.nodes id = some node → node.id = id

variable {origin : Id20} {table : NodeTable}

lemma synced_new (origin : Id20) : Synced origin (new origin) where
  mirrors := RoutingTree.mirrors_new origin nodeTableCapacity true
  id_eq := by simp [new]

/-- Every payload that `closest` looks up is there. -/
lemma Synced.closest (h : Synced origin table) (id : Id20) :
    ∃ nodes, table.closest id = some nodes ∧ ∀ node ∈ nodes, table.nodes node.id = some node := by
  rcases Option.eq_none_or_eq_some (table.nodes id) with hnone | ⟨node, hnode⟩
  · obtain ⟨ids, hids, hstored⟩ := h.mirrors.closest id nodeTableClosestLimit
    -- The loop over the identifiers: each lookup succeeds and gives a node of that identifier.
    have hlookups : ∀ ids : List Id20, (∀ other ∈ ids, (table.nodes other).isSome) →
        ∃ nodes, ids.mapM table.nodes = some nodes ∧
          ∀ node ∈ nodes, table.nodes node.id = some node := by
      intro ids
      induction ids with
      | nil => exact fun _ => ⟨[], rfl, by simp⟩
      | cons other ids ih =>
        intro hall
        obtain ⟨node, hnode⟩ := Option.isSome_iff_exists.mp (hall other (by simp))
        obtain ⟨nodes, hnodes, hback⟩ := ih fun o ho => hall o (List.mem_cons_of_mem _ ho)
        refine ⟨node :: nodes, by simp [hnode, hnodes], ?_⟩
        rw [List.forall_mem_cons, h.id_eq hnode]
        exact ⟨hnode, hback⟩
    obtain ⟨nodes, hnodes, hback⟩ := hlookups ids hstored
    exact ⟨nodes, by simp [NodeTable.closest, hnone, hids, hnodes], hback⟩
  · refine ⟨[node], by simp [NodeTable.closest, hnode], ?_⟩
    rw [List.forall_mem_singleton, h.id_eq hnode]
    exact hnode

/-- `put` answers as the tree does and stores the node unless it is refused. -/
lemma Synced.put (h : Synced origin table) (node : RoutingNode) :
    ∃ result table', table.put node = some (result, table') ∧ Synced origin table' ∧
      match result with
      | .rejected => table.nodes node.id = none ∧ table'.nodes = table.nodes
      | .accepted => table.nodes node.id = none ∧
          table'.nodes = Function.update table.nodes node.id
            (some { node with addr := normalizeAddr node.addr })
      | .alreadyExists => (∃ previous, table.nodes node.id = some previous) ∧
          table'.nodes = Function.update table.nodes node.id
            (some { node with addr := normalizeAddr node.addr }) := by
  obtain ⟨result, routing, hput, hresult⟩ := h.mirrors.put node.id
  have hid : ∀ {id stored}, Function.update table.nodes node.id
      (some { node with addr := normalizeAddr node.addr }) id = some stored → stored.id = id := by
    intro id stored hstored
    by_cases heq : id = node.id
    · subst heq
      rw [Function.update_self, Option.some.injEq] at hstored
      rw [← hstored]
    · rw [Function.update_of_ne heq] at hstored
      exact h.id_eq hstored
  cases result with
  | rejected =>
    exact ⟨.rejected, { table with routing := routing }, by simp [NodeTable.put, hput],
      ⟨hresult.2, h.id_eq⟩, hresult.1, rfl⟩
  | accepted =>
    exact ⟨.accepted, _, by simp [NodeTable.put, hput]; rfl, ⟨hresult.2 _, hid⟩, hresult.1, rfl⟩
  | alreadyExists =>
    have hstored := Option.isSome_iff_exists.mpr hresult.1
    exact ⟨.alreadyExists, _, by simp [NodeTable.put, hput]; rfl,
      ⟨hresult.2.update hstored _, hid⟩, hresult.1, rfl⟩

/-- `drop` of a stored node takes it out, payload and all. -/
lemma Synced.drop (h : Synced origin table) {id : Id20} {node : RoutingNode}
    (hnode : table.nodes id = some node) :
    ∃ table', table.drop id = some (true, table') ∧ Synced origin table' ∧
      table'.nodes = Function.update table.nodes id none := by
  obtain ⟨routing, hdrop, hmirrors⟩ := h.mirrors.drop id
  rw [hnode, Option.isSome_some] at hdrop
  refine ⟨_, by simp [NodeTable.drop, hdrop, hnode]; rfl, ⟨hmirrors, ?_⟩, rfl⟩
  intro other stored hstored
  by_cases heq : other = id
  · simp [heq] at hstored
  · exact h.id_eq (by simpa [heq] using hstored)

end NodeTable

/-- `KTableCore::node` is the lookup. -/
lemma KTableCore.node_eq {origin : Id20} {core : KTableCore}
    (h : NodeTable.Synced origin core.nodes) (id : Id20) :
    core.node id = some (core.nodes.nodes id) := by
  obtain ⟨nodes, hnodes, hback⟩ := h.closest id
  rw [KTableCore.node, hnodes, Option.map_some, Option.some.injEq]
  rcases Option.eq_none_or_eq_some (core.nodes.nodes id) with hnone | ⟨node, hnode⟩
  · rw [hnone, Option.filter_eq_none_iff]
    intro node hnode heq
    have hstored := hback node (List.mem_of_mem_head? hnode)
    rw [of_decide_eq_true heq, hnone] at hstored
    cases hstored
  · obtain rfl : nodes = [node] := by
      simpa [NodeTable.closest, hnode] using hnodes.symm
    simp [hnode, h.id_eq hnode]

/-! ## The contents and their changes -/

/-- The table without its routing trees. -/
structure Contents where
  nodes : Id20 → Option RoutingNode
  hashes : Id20 → Option HashEntry
  reverse : ReverseAddress → Option ReverseInfo
  nodeHandles : Id20 → Option KTableNodeHandle
  handles : List KTableNodeState

namespace Contents

/-- The entry that peers are added to: the stored one, or an empty one for a new hash. -/
def entryFor (contents : Contents) (id : Id20) : HashEntry :=
  (contents.hashes id).getD ⟨id, fun _ => none⟩

/-- What one command can do. -/
inductive Step : Contents → Contents → Prop
  | same (contents) : Step contents contents
  | accept {contents : Contents} {state : KTableNodeState} (node : RoutingNode)
      (new : contents.nodes node.id = none) (node_eq : state.node = node)
      (live : state.dropped = false) :
      Step contents
        { contents with
          nodes := Function.update contents.nodes node.id (some node)
          nodeHandles := Function.update contents.nodeHandles node.id
            (some contents.handles.length)
          handles := contents.handles ++ [state] }
  | readdress {contents : Contents} {previous : RoutingNode} {handle : KTableNodeHandle}
      {state : KTableNodeState} (node : RoutingNode)
      (stored : contents.nodes node.id = some previous)
      (current : contents.nodeHandles node.id = some handle)
      (node_eq : state.node = node) (live : state.dropped = false) :
      Step contents
        { contents with
          nodes := Function.update contents.nodes node.id (some node)
          reverse := KTableCore.reindex contents.reverse previous node
          handles := contents.handles.set handle state }
  | remove {contents : Contents} {node : RoutingNode} {handle : KTableNodeHandle} (id : Id20)
      (stored : contents.nodes id = some node) (current : contents.nodeHandles id = some handle) :
      Step contents
        { contents with
          nodes := Function.update contents.nodes id none
          reverse := Function.update contents.reverse (.fromSocketAddr node.addr) none
          nodeHandles := Function.update contents.nodeHandles id none
          handles := contents.handles.modify handle fun state => { state with dropped := true } }
  | addPeers {contents : Contents} (id : Id20) (peers : List KTableHashPeer) :
      Step contents
        { contents with
          hashes := Function.update contents.hashes id
            (some { contents.entryFor id with
              peers := (peers.foldl (KTableCore.addPeer id)
                ((contents.entryFor id).peers, contents.reverse)).1 })
          reverse := (peers.foldl (KTableCore.addPeer id)
            ((contents.entryFor id).peers, contents.reverse)).2 }

/-- The live handles are those of the stored nodes, and show them as they are stored. -/
structure Live (contents : Contents) : Prop where
  of_node : ∀ {id node}, contents.nodes id = some node → node.id = id ∧
    ∃ handle state, contents.nodeHandles id = some handle ∧
      contents.handles[handle]? = some state ∧ state.node = node ∧ state.dropped = false
  of_none : ∀ {id}, contents.nodes id = none → contents.nodeHandles id = none

variable {contents contents' : Contents}

/-- The node behind a live handle. -/
lemma Live.of_handle (h : contents.Live) {id : Id20} {handle : KTableNodeHandle}
    (hhandle : contents.nodeHandles id = some handle) :
    ∃ node state, contents.nodes id = some node ∧ node.id = id ∧
      contents.handles[handle]? = some state ∧ state.node = node ∧ state.dropped = false := by
  rcases Option.eq_none_or_eq_some (contents.nodes id) with hnone | ⟨node, hnode⟩
  · rw [h.of_none hnone] at hhandle
    cases hhandle
  · obtain ⟨hid, handle', state, hcurrent, hstate⟩ := h.of_node hnode
    obtain rfl : handle' = handle := by
      rw [hhandle] at hcurrent
      exact (Option.some.inj hcurrent).symm
    exact ⟨node, state, hnode, hid, hstate⟩

/-- Two identifiers never share a handle. -/
lemma Live.handle_inj (h : contents.Live) {id other : Id20} {handle : KTableNodeHandle}
    (hid : contents.nodeHandles id = some handle)
    (hother : contents.nodeHandles other = some handle) : id = other := by
  obtain ⟨node, state, -, hnode, hstate, rfl, -⟩ := h.of_handle hid
  obtain ⟨node', state', -, hnode', hstate', rfl, -⟩ := h.of_handle hother
  rw [hstate] at hstate'
  cases hstate'
  exact hnode.symm.trans hnode'

/-- A change at one identifier that leaves the handles of the others alone. -/
lemma Live.change (h : contents.Live) (id : Id20)
    (hnodes : ∀ other ≠ id, contents'.nodes other = contents.nodes other)
    (hcurrent : ∀ other ≠ id, contents'.nodeHandles other = contents.nodeHandles other)
    (hhandles : ∀ other handle, other ≠ id → contents.nodeHandles other = some handle →
      contents'.handles[handle]? = contents.handles[handle]?)
    (hself : (contents'.nodes id = none ∧ contents'.nodeHandles id = none) ∨
      ∃ node handle state, contents'.nodes id = some node ∧ node.id = id ∧
        contents'.nodeHandles id = some handle ∧ contents'.handles[handle]? = some state ∧
        state.node = node ∧ state.dropped = false) : contents'.Live := by
  refine ⟨fun {other node} hnode => ?_, fun {other} hnone => ?_⟩
  · by_cases heq : other = id
    · subst heq
      rcases hself with ⟨hnone, -⟩ | ⟨node', handle, state, hnode', hrest⟩
      · rw [hnone] at hnode
        cases hnode
      · rw [hnode'] at hnode
        cases hnode
        exact ⟨hrest.1, handle, state, hrest.2⟩
    · rw [hnodes other heq] at hnode
      obtain ⟨hid, handle, state, hhandle, hstate, hrest⟩ := h.of_node hnode
      exact ⟨hid, handle, state, (hcurrent other heq).trans hhandle,
        (hhandles other handle heq hhandle).trans hstate, hrest⟩
  · by_cases heq : other = id
    · subst heq
      rcases hself with ⟨-, hnone'⟩ | ⟨node, -, -, hnode, -⟩
      · exact hnone'
      · rw [hnone] at hnode
        cases hnode
    · rw [hcurrent other heq]
      exact h.of_none (hnodes other heq ▸ hnone)

/-- The live handles follow every change. -/
lemma Live.step (h : contents.Live) (hstep : Step contents contents') : contents'.Live := by
  cases hstep with
  | same => exact h
  | addPeers id peers => exact ⟨h.of_node, h.of_none⟩
  | @accept state node new node_eq live =>
    refine h.change node.id (fun _ hne => Function.update_of_ne hne ..)
      (fun _ hne => Function.update_of_ne hne ..) (fun other handle _ hhandle => ?_)
      (.inr ⟨node, contents.handles.length, state, by simp, rfl, by simp, by simp, node_eq, live⟩)
    obtain ⟨-, old, -, -, hold, -⟩ := h.of_handle hhandle
    exact List.getElem?_append_left (List.getElem?_eq_some_iff.mp hold).1
  | @readdress previous handle state node stored current node_eq live =>
    obtain ⟨-, old, -, -, hold, -⟩ := h.of_handle current
    have hlt := (List.getElem?_eq_some_iff.mp hold).1
    refine h.change node.id (fun _ hne => Function.update_of_ne hne ..) (fun _ _ => rfl)
      (fun other handle' hne hhandle => List.getElem?_set_ne ?_)
      (.inr ⟨node, handle, state, by simp, rfl, current, by simp [hlt], node_eq, live⟩)
    rintro rfl
    exact hne (h.handle_inj hhandle current)
  | @remove node handle id stored current =>
    refine h.change id (fun _ hne => Function.update_of_ne hne ..)
      (fun _ hne => Function.update_of_ne hne ..)
      (fun other handle' hne hhandle => List.getElem?_modify_ne _ _ ?_)
      (.inl ⟨by simp, by simp⟩)
    rintro rfl
    exact hne (h.handle_inj hhandle current)

end Contents

/-! ## The core -/

@[simp] lemma normalizeAddr_idem (addr : SocketAddr) :
    normalizeAddr (normalizeAddr addr) = normalizeAddr addr := by
  cases addr <;> rfl

/-- A node as it is stored. -/
def RoutingNode.stored (node : RoutingNode) : RoutingNode :=
  { node with addr := normalizeAddr node.addr }

namespace KTableCore

variable {origin : Id20} {core : KTableCore}

lemma putNode_spec (h : NodeTable.Synced origin core.nodes) (node : RoutingNode) :
    ∃ result nodes reverse,
      core.putNode node = some (result, { core with nodes := nodes, reverse := reverse }) ∧
      NodeTable.Synced origin nodes ∧
      match result with
      | .rejected => nodes.nodes = core.nodes.nodes ∧ reverse = core.reverse
      | .accepted => core.nodes.nodes node.id = none ∧
          nodes.nodes = Function.update core.nodes.nodes node.id (some node.stored) ∧
          reverse = core.reverse
      | .alreadyExists => ∃ previous, core.nodes.nodes node.id = some previous ∧
          nodes.nodes = Function.update core.nodes.nodes node.id (some node.stored) ∧
          reverse = reindex core.reverse previous node.stored := by
  obtain ⟨result, nodes, hput, hsynced, hresult⟩ := h.put node.stored
  have hlookup := node_eq h node.id
  have hunfold : core.putNode node = (if result ≠ .alreadyExists then
      some (result, { core with nodes := nodes })
      else (core.nodes.nodes node.id).map fun previous =>
        (result, { core with
          nodes := nodes, reverse := reindex core.reverse previous node.stored })) := by
    rw [RoutingNode.stored] at hput
    simp only [putNode, hlookup, hput, Option.bind_some, RoutingNode.stored]
  cases result with
  | rejected => exact ⟨.rejected, nodes, core.reverse, hunfold, hsynced, hresult.2, rfl⟩
  | accepted =>
    simp only [RoutingNode.stored, normalizeAddr_idem] at hresult
    exact ⟨.accepted, nodes, core.reverse, hunfold, hsynced, hresult.1, hresult.2, rfl⟩
  | alreadyExists =>
    simp only [RoutingNode.stored, normalizeAddr_idem] at hresult
    obtain ⟨⟨previous, hprevious⟩, hnodes⟩ := hresult
    rw [hprevious] at hunfold
    exact ⟨.alreadyExists, nodes, _, hunfold, hsynced, previous, hprevious, hnodes, rfl⟩

/-- `drop_node` answers whether the node is stored. -/
lemma dropNode_spec (h : NodeTable.Synced origin core.nodes) (id : Id20) :
    match core.nodes.nodes id with
    | none => core.dropNode id = some (false, core)
    | some node => ∃ nodes, NodeTable.Synced origin nodes ∧
        nodes.nodes = Function.update core.nodes.nodes id none ∧
        core.dropNode id = some (true,
          { core with
            nodes := nodes
            reverse := Function.update core.reverse (.fromSocketAddr node.addr) none }) := by
  have hlookup := node_eq h id
  rcases hstored : core.nodes.nodes id with _ | node
  · simp [dropNode, hlookup, hstored]
  · obtain ⟨nodes, hdrop, hsynced, hnodes⟩ := h.drop hstored
    exact ⟨nodes, hsynced, hnodes, by simp [dropNode, hlookup, hstored, hdrop]⟩

/-- `put_hash` finds the entry it has just made or the one that was there. -/
lemma putHash_spec (h : RoutingTree.Mirrors origin core.hashRouting core.hashes) (id : Id20)
    (peers : List KTableHashPeer) :
    ∃ result hashRouting hashes reverse,
      core.putHash id peers = some (result,
        { core with hashRouting := hashRouting, hashes := hashes, reverse := reverse }) ∧
      RoutingTree.Mirrors origin hashRouting hashes ∧
      ((hashes = core.hashes ∧ reverse = core.reverse) ∨
        ∃ entry, entry = (core.hashes id).getD ⟨id, fun _ => none⟩ ∧
          hashes = Function.update core.hashes id (some { entry with
            peers := (peers.foldl (addPeer id) (entry.peers, core.reverse)).1 }) ∧
          reverse = (peers.foldl (addPeer id) (entry.peers, core.reverse)).2) := by
  obtain ⟨result, hashRouting, hput, hresult⟩ := h.put id
  cases result with
  | rejected =>
    exact ⟨.rejected, hashRouting, core.hashes, core.reverse, by simp [putHash, hput],
      hresult.2, .inl ⟨rfl, rfl⟩⟩
  | accepted =>
    obtain ⟨hnone, hmirrors⟩ := hresult
    refine ⟨.accepted, hashRouting, _, _, ?_, hmirrors _,
      .inr ⟨⟨id, fun _ => none⟩, by rw [hnone, Option.getD_none], rfl, rfl⟩⟩
    simp [putHash, hput]
  | alreadyExists =>
    obtain ⟨⟨entry, hentry⟩, hmirrors⟩ := hresult
    refine ⟨.alreadyExists, hashRouting, _, _, ?_,
      hmirrors.update (Option.isSome_iff_exists.mpr ⟨entry, hentry⟩) _,
      .inr ⟨entry, by rw [hentry, Option.getD_some], rfl, rfl⟩⟩
    simp [putHash, hput, hentry]

end KTableCore

/-! ## The table -/

@[simp] lemma applyOption_node (latest : Nat) (clock : Nat → Nat) (s : KTableNodeState × Nat)
    (option : KTableNodeOption) :
    (applyOption latest clock s option).1.node = s.1.node ∧
      (applyOption latest clock s option).1.dropped = s.1.dropped := by
  cases option with
  | responded => exact ⟨rfl, rfl⟩
  | bep51Support supported => exact ⟨rfl, rfl⟩
  | sampleInfoHashesResponse discoveredNum totalNum nextSampleAt =>
    simp only [applyOption]
    split
    · exact ⟨rfl, rfl⟩
    · exact ⟨rfl, rfl⟩

/-- Options neither move a node nor drop it. -/
lemma applyOptions_node (latest : Nat) (clock : Nat → Nat) (options : List KTableNodeOption) :
    ∀ s : KTableNodeState × Nat, (applyOptions latest clock options s).1.node = s.1.node ∧
      (applyOptions latest clock options s).1.dropped = s.1.dropped := by
  induction options with
  | nil => exact fun s => ⟨rfl, rfl⟩
  | cons option options ih =>
    intro s
    obtain ⟨hnode, hdropped⟩ := ih (applyOption latest clock s option)
    obtain ⟨hnode', hdropped'⟩ := applyOption_node latest clock s option
    exact ⟨hnode.trans hnode', hdropped.trans hdropped'⟩

namespace KTable

/-- The maps of the table. -/
def contents (table : KTable) : Contents where
  nodes := table.core.nodes.nodes
  hashes := table.core.hashes
  reverse := table.core.reverse
  nodeHandles := table.nodeHandles
  handles := table.handles

/-- The routing trees mirror the maps, and the live handles are those of the nodes. -/
structure Synced (origin : Id20) (table : KTable) : Prop where
  nodes : NodeTable.Synced origin table.core.nodes
  hashes : RoutingTree.Mirrors origin table.core.hashRouting table.core.hashes
  live : table.contents.Live

lemma synced_new (origin : Id20) : Synced origin (new origin) where
  nodes := NodeTable.synced_new origin
  hashes := RoutingTree.mirrors_new origin hashTableCapacity true
  live :=
    { of_node := by simp [contents, new, KTableCore.new, NodeTable.new]
      of_none := fun _ => rfl }

section Commands

variable {α β : Type} {R : Contents → Contents → Prop} {tableOf : α → KTable} {outcome : Option α}
  {origin : Id20} {table : KTable} (latest : Nat) (clock : Nat → Nat)

/-- A call does not panic, and leaves a synchronised table whose contents `R` allows. -/
def Keeps (origin : Id20) (table : KTable) (R : Contents → Contents → Prop) (tableOf : α → KTable)
    (outcome : Option α) : Prop :=
  ∃ a, outcome = some a ∧ Synced origin (tableOf a) ∧ R table.contents (tableOf a).contents

lemma Keeps.map (h : Keeps origin table R tableOf outcome) {S : Contents → Contents → Prop}
    (hRS : ∀ {c d}, R c d → S c d) {f : α → β} {tableOf' : β → KTable}
    (hf : ∀ a, tableOf' (f a) = tableOf a) : Keeps origin table S tableOf' (outcome.map f) := by
  obtain ⟨a, rfl, hsynced, hstep⟩ := h
  exact ⟨f a, rfl, by rwa [hf], by rw [hf]; exact hRS hstep⟩

lemma Synced.putNode (h : Synced origin table) (node : RoutingNode)
    (options : List KTableNodeOption) :
    Keeps origin table Contents.Step Prod.snd (table.putNode latest clock node options) := by
  obtain ⟨result, nodes, reverse, hput, hsynced, hresult⟩ :=
    KTableCore.putNode_spec h.nodes node
  have hlookup := KTableCore.node_eq
    (show NodeTable.Synced origin { table.core with nodes := nodes, reverse := reverse }.nodes
      from hsynced) node.id
  cases result with
  | rejected =>
    obtain ⟨hnodes, rfl⟩ := hresult
    have hsame : { table with core := { table.core with nodes := nodes } }.contents =
        table.contents := by
      simp only [contents, hnodes]
    exact ⟨(.rejected, { table with core := { table.core with nodes := nodes } }),
      by simp [KTable.putNode, hput], ⟨hsynced, h.hashes, hsame ▸ h.live⟩,
      hsame ▸ .same table.contents⟩
  | accepted =>
    obtain ⟨hnew, hnodes, rfl⟩ := hresult
    simp only [hnodes, Function.update_self] at hlookup
    have hstate := applyOptions_node latest clock options
      ({ node := node.stored }, table.clockReads)
    let stored : KTable := { table with core := { table.core with nodes := nodes } }
    have hstep : Contents.Step table.contents
        (stored.addHandle latest clock node.id node.stored options).contents := by
      simp only [stored, contents, addHandle, hnodes]
      exact .accept node.stored hnew hstate.1 hstate.2
    exact ⟨(.accepted, stored.addHandle latest clock node.id node.stored options),
      by simp only [stored, KTable.putNode, hput, hlookup, Option.bind_some, Option.map_some],
      ⟨hsynced, h.hashes, h.live.step hstep⟩, hstep⟩
  | alreadyExists =>
    obtain ⟨previous, hprevious, hnodes, rfl⟩ := hresult
    simp only [hnodes, Function.update_self] at hlookup
    obtain ⟨-, handle, state, hcurrent, hstate, -, hlive⟩ := h.live.of_node hprevious
    replace hcurrent : table.nodeHandles node.id = some handle := hcurrent
    replace hstate : table.handles[handle]? = some state := hstate
    have hoptions := applyOptions_node latest clock options
      ({ state with node := node.stored }, table.clockReads)
    let stored : KTable := { table with core := { table.core with
      nodes := nodes, reverse := KTableCore.reindex table.core.reverse previous node.stored } }
    have hstep : Contents.Step table.contents
        (stored.updateHandle latest clock handle node.stored options).contents := by
      simp only [stored, contents, updateHandle, hnodes, hstate]
      exact .readdress node.stored hprevious hcurrent hoptions.1 (hoptions.2.trans hlive)
    refine ⟨(.alreadyExists, stored.updateHandle latest clock handle node.stored options),
      by simp only [stored, KTable.putNode, hput, hlookup, hcurrent, Option.bind_some,
        Option.map_some], ⟨?_, ?_, h.live.step hstep⟩, hstep⟩
    · simpa only [stored, updateHandle, hstate] using hsynced
    · simpa only [stored, updateHandle, hstate] using h.hashes

/-- The table without a node that is stored under `id`. -/
def without (table : KTable) (id : Id20) (node : RoutingNode) (nodes : NodeTable) : KTable :=
  { table with core := { table.core with
      nodes := nodes
      reverse := Function.update table.core.reverse (.fromSocketAddr node.addr) none } }
    |>.removeLiveHandle id

/-- Removing a stored node and its handle. -/
lemma Synced.without (h : Synced origin table) {id : Id20} {node : RoutingNode}
    {nodes : NodeTable} (hnode : table.core.nodes.nodes id = some node)
    (hsynced : NodeTable.Synced origin nodes)
    (hnodes : nodes.nodes = Function.update table.core.nodes.nodes id none) :
    Synced origin (table.without id node nodes) ∧
      Contents.Step table.contents (table.without id node nodes).contents := by
  obtain ⟨-, handle, state, hcurrent, -⟩ := h.live.of_node hnode
  replace hcurrent : table.nodeHandles id = some handle := hcurrent
  have hstep : Contents.Step table.contents (table.without id node nodes).contents := by
    simp only [contents, KTable.without, removeLiveHandle, hnodes, hcurrent]
    exact .remove id hnode hcurrent
  refine ⟨⟨?_, ?_, h.live.step hstep⟩, hstep⟩
  · simpa only [KTable.without, removeLiveHandle, hcurrent] using hsynced
  · simpa only [KTable.without, removeLiveHandle, hcurrent] using h.hashes

/-- `drop_node` removes the node when it is stored and otherwise does nothing. -/
lemma Synced.dropNode_eq (h : Synced origin table) (id : Id20) :
    (table.core.nodes.nodes id = none ∧ table.dropNode id = some (false, table)) ∨
      ∃ node nodes, table.core.nodes.nodes id = some node ∧ NodeTable.Synced origin nodes ∧
        nodes.nodes = Function.update table.core.nodes.nodes id none ∧
        table.dropNode id = some (true, table.without id node nodes) := by
  have hspec := KTableCore.dropNode_spec h.nodes id
  rcases hstored : table.core.nodes.nodes id with _ | node
  · rw [hstored] at hspec
    exact .inl ⟨rfl, by simp [KTable.dropNode, hspec]⟩
  · rw [hstored] at hspec
    obtain ⟨nodes, hsynced, hnodes, hdrop⟩ := hspec
    exact .inr ⟨node, nodes, rfl, hsynced, hnodes, by
      simp [KTable.dropNode, hdrop, KTable.without]⟩

lemma Synced.dropNode (h : Synced origin table) (id : Id20) :
    Keeps origin table Contents.Step Prod.snd (table.dropNode id) := by
  rcases h.dropNode_eq id with ⟨-, hdrop⟩ | ⟨node, nodes, hnode, hsynced, hnodes, hdrop⟩
  · exact ⟨(false, table), hdrop, h, .same _⟩
  · exact ⟨(true, _), hdrop, h.without hnode hsynced hnodes⟩

/-- `drop_addr` is `drop_node` of the node that the reverse index names. -/
lemma dropAddr_eq (table : KTable) (addr : SocketAddr) :
    table.dropAddr addr = match table.core.nodeIdForAddr addr with
      | none => some (false, table)
      | some id => table.dropNode id := by
  rcases hreverse : table.core.reverse (.fromSocketAddr addr) with _ | info
  · simp [KTable.dropAddr, KTableCore.nodeIdForAddr, hreverse]
  · by_cases hzero : info.peerId = Id20.zero
    · simp [KTable.dropAddr, KTableCore.nodeIdForAddr, hreverse, hzero]
    · simp [KTable.dropAddr, KTableCore.nodeIdForAddr, KTableCore.dropAddr, KTable.dropNode,
        hreverse, hzero]

lemma Synced.dropAddr (h : Synced origin table) (addr : SocketAddr) :
    Keeps origin table Contents.Step Prod.snd (table.dropAddr addr) := by
  rw [dropAddr_eq]
  cases table.core.nodeIdForAddr addr with
  | none => exact ⟨(false, table), rfl, h, .same _⟩
  | some id => exact h.dropNode id

lemma Synced.putHash (h : Synced origin table) (id : Id20) (peers : List KTableHashPeer) :
    Keeps origin table Contents.Step Prod.snd (table.putHash id peers) := by
  obtain ⟨result, hashRouting, hashes, reverse, hput, hmirrors, hcontents⟩ :=
    KTableCore.putHash_spec h.hashes id peers
  have hstep : Contents.Step table.contents
      { table.contents with hashes := hashes, reverse := reverse } := by
    rcases hcontents with ⟨rfl, rfl⟩ | ⟨entry, rfl, rfl, rfl⟩
    · exact .same _
    · exact .addPeers id peers
  refine ⟨(result, { table with core := { table.core with
      hashRouting := hashRouting, hashes := hashes, reverse := reverse } }), ?_,
    ⟨h.nodes, hmirrors, h.live.step hstep⟩, hstep⟩
  rw [KTable.putHash, hput, Option.map_some]

/-- **One command.**  It never panics, is one change of the contents and keeps the table
synchronised. -/
lemma Synced.applyCommand (h : Synced origin table) (command : KTableCommand) :
    Keeps origin table Contents.Step id (table.applyCommand latest clock command) := by
  cases command with
  | putNode node options => exact (h.putNode latest clock node options).map id fun _ => rfl
  | dropNode id => exact (h.dropNode id).map (·) fun _ => rfl
  | dropAddr addr => exact (h.dropAddr addr).map id fun _ => rfl
  | putHash id peers => exact (h.putHash id peers).map (·) fun _ => rfl

lemma Synced.batchCommand (commands : List KTableCommand) :
    ∀ {table : KTable}, Synced origin table →
      Keeps origin table (Relation.ReflTransGen Contents.Step) id
        (table.batchCommand latest clock commands) := by
  induction commands with
  | nil => exact fun h => ⟨_, rfl, h, .refl⟩
  | cons command commands ih =>
    intro table h
    obtain ⟨next, hnext, hsynced, hstep⟩ := h.applyCommand latest clock command
    obtain ⟨table', htable', hsynced', hsteps⟩ := ih hsynced
    refine ⟨table', ?_, hsynced', .head hstep hsteps⟩
    rw [KTable.batchCommand, List.foldlM_cons, hnext]
    exact htable'

lemma Synced.closestNodes (h : Synced origin table) (id : Id20) :
    ∃ handles, table.closestNodes id = some handles := by
  obtain ⟨nodes, hnodes, -⟩ := h.nodes.closest id
  exact ⟨_, by rw [KTable.closestNodes, hnodes, Option.map_some]⟩

/-- **One operation.** -/
lemma Synced.step (h : Synced origin table) (call : Call) :
    Keeps origin table (Relation.ReflTransGen Contents.Step) Prod.snd
      (table.step latest clock call) := by
  cases call with
  | putNode node options => exact (h.putNode latest clock node options).map .single fun _ => rfl
  | dropNode id => exact (h.dropNode id).map .single fun _ => rfl
  | dropAddr addr => exact (h.dropAddr addr).map .single fun _ => rfl
  | putHash id peers => exact (h.putHash id peers).map .single fun _ => rfl
  | batchCommand commands => exact (h.batchCommand latest clock commands).map id fun _ => rfl
  | closestNodes id =>
    obtain ⟨handles, hhandles⟩ := h.closestNodes id
    exact ⟨(_, table), by rw [KTable.step, hhandles, Option.map_some], h, .refl⟩
  | getHashOrClosestNodes id =>
    obtain ⟨handles, hhandles⟩ := h.closestNodes id
    rcases hentry : table.core.hashes id with _ | entry
    · exact ⟨(_, table), by rw [KTable.step, getHashOrClosestNodes, hentry, hhandles,
        Option.map_some, Option.map_some], h, .refl⟩
    · exact ⟨(_, table), by rw [KTable.step, getHashOrClosestNodes, hentry, Option.map_some],
        h, .refl⟩

/-- **A run.** -/
lemma Synced.run (calls : List Call) :
    ∀ {table : KTable}, Synced origin table →
      ∃ answers table', Machine.run (KTable.step latest clock) table calls = some (answers, table') ∧
        Synced origin table' ∧
        Relation.ReflTransGen Contents.Step table.contents table'.contents := by
  induction calls with
  | nil => exact fun h => ⟨[], _, rfl, h, .refl⟩
  | cons call calls ih =>
    intro table h
    obtain ⟨⟨answer, next⟩, hnext, hsynced, hsteps⟩ := h.step latest clock call
    obtain ⟨answers, table', hrun, hsynced', hsteps'⟩ := ih hsynced
    exact ⟨answer :: answers, table', by simp [Machine.run_cons, hnext, hrun], hsynced',
      hsteps.trans hsteps'⟩

/-- The five structures agree: the live handles, the stored nodes and the node tree have the same
identifiers, the stored hashes and the hash tree too, and a live handle shows its stored node. -/
structure Synchronised (table : KTable) : Prop where
  handle_iff_node : ∀ id, (table.nodeHandles id).isSome ↔ (table.core.nodes.nodes id).isSome
  nodes_routed : ∀ id, table.core.nodes.routing.contains id =
    some (table.core.nodes.nodes id).isSome
  hashes_routed : ∀ id, table.core.hashRouting.contains id = some (table.core.hashes id).isSome
  handle_shows : ∀ id handle, table.nodeHandles id = some handle →
    ∃ node state, table.core.nodes.nodes id = some node ∧ table.handles[handle]? = some state ∧
      state.node.id = id ∧ state.node.id = node.id ∧ state.node.addr = node.addr

lemma Synced.synchronised (h : Synced origin table) : table.Synchronised where
  handle_iff_node id := by
    constructor
    · intro hhandle
      obtain ⟨handle, hhandle⟩ := Option.isSome_iff_exists.mp hhandle
      obtain ⟨node, -, hnode, -⟩ := h.live.of_handle hhandle
      exact Option.isSome_iff_exists.mpr ⟨node, hnode⟩
    · intro hnode
      obtain ⟨node, hnode⟩ := Option.isSome_iff_exists.mp hnode
      obtain ⟨-, handle, -, hhandle, -⟩ := h.live.of_node hnode
      exact Option.isSome_iff_exists.mpr ⟨handle, hhandle⟩
  nodes_routed := h.nodes.mirrors.contains_eq
  hashes_routed := h.hashes.contains_eq
  handle_shows id handle hhandle := by
    obtain ⟨node, state, hnode, hid, hstate, rfl, -⟩ := h.live.of_handle hhandle
    exact ⟨state.node, state, hnode, hstate, hid, rfl, rfl⟩

end Commands

/-- **The table stays synchronised.**  Whatever a new table is asked, no call panics, in
particular on none of the `expect`s about the trees and their payloads, and the five structures
agree at the end. -/
theorem run_synchronised (origin : Id20) (latest : Nat) (clock : Nat → Nat) (calls : List Call) :
    ∃ answers table, Machine.run (step latest clock) (new origin) calls = some (answers, table) ∧
      table.Synchronised := by
  obtain ⟨answers, table, hrun, hsynced, -⟩ :=
    (synced_new origin).run latest clock calls
  exact ⟨answers, table, hrun, hsynced.synchronised⟩

end KTable

end Bitmagnet.Dht
