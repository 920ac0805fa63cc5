import Bitmagnet.Dht.KTableSync

/-!
# The reverse index of the k-table

The index from addresses back to nodes and hashes never points at something that is not stored
under that address.  `Backed` says so for any reading of "stored under", so each change of the
contents is one comparison of the readings before and after, and the index's own updates are two
lemmas, one for a removed entry and one for a written one.

The other direction does not hold: a newly accepted node is not indexed, and replacing or dropping
a node takes the whole entry with it, hashes included.
-/

namespace Bitmagnet.Dht

/-! ## An index and what it points at -/

/-- Each entry names an identifier that `indexed` has at its key, or none, and only hashes that
`listed` has there. -/
def Backed (indexed listed : ReverseAddress → Id20 → Prop)
    (reverse : ReverseAddress → Option ReverseInfo) : Prop :=
  ∀ key info, reverse key = some info →
    (info.peerId ≠ Id20.zero → indexed key info.peerId) ∧ ∀ id ∈ info.hashes, listed key id

section Backed

variable {indexed listed indexed' listed' : ReverseAddress → Id20 → Prop}
  {reverse : ReverseAddress → Option ReverseInfo} {key : ReverseAddress}

section

variable (h : Backed indexed listed reverse)
include h

/-- A reading may grow; a key that loses something has to go. -/
lemma Backed.erase (hindexed : ∀ other id, other ≠ key → indexed other id → indexed' other id) :
    Backed indexed' listed (Function.update reverse key none) := by
  intro other info hinfo
  have hne : other ≠ key := by
    rintro rfl
    simp at hinfo
  rw [Function.update_of_ne hne] at hinfo
  obtain ⟨hpeer, hhashes⟩ := h other info hinfo
  exact ⟨fun hzero => hindexed _ _ hne (hpeer hzero), hhashes⟩

lemma Backed.mono (hindexed : ∀ other id, indexed other id → indexed' other id)
    (hlisted : ∀ other id, listed other id → listed' other id) :
    Backed indexed' listed' reverse := by
  intro other info hinfo
  obtain ⟨hpeer, hhashes⟩ := h other info hinfo
  exact ⟨fun hzero => hindexed _ _ (hpeer hzero), fun id hid => hlisted _ _ (hhashes id hid)⟩

/-- An entry that is created by being looked up names nothing. -/
lemma Backed.getD (key : ReverseAddress) :
    (((reverse key).getD {}).peerId ≠ Id20.zero → indexed key ((reverse key).getD {}).peerId) ∧
      ∀ id ∈ ((reverse key).getD {}).hashes, listed key id := by
  rcases hinfo : reverse key with _ | info
  · simp
  · exact h key info hinfo

lemma Backed.write {info : ReverseInfo} (hpeer : info.peerId ≠ Id20.zero → indexed key info.peerId)
    (hhashes : ∀ id ∈ info.hashes, listed key id) :
    Backed indexed listed (Function.update reverse key (some info)) := by
  intro other info' hinfo'
  by_cases heq : other = key
  · subst heq
    obtain rfl : info = info' := by simpa using hinfo'
    exact ⟨hpeer, hhashes⟩
  · rw [Function.update_of_ne heq] at hinfo'
    exact h other info' hinfo'

end

end Backed

namespace Contents

variable {contents contents' : Contents}

/-- A node with this identifier is stored, under an address with this key. -/
def Indexed (contents : Contents) (key : ReverseAddress) (id : Id20) : Prop :=
  ∃ node, contents.nodes id = some node ∧ .fromSocketAddr node.addr = key

/-- This hash is stored, with a peer whose address has this key. -/
def Listed (contents : Contents) (key : ReverseAddress) (id : Id20) : Prop :=
  ∃ entry peer, contents.hashes id = some entry ∧ entry.peers key = some peer ∧
    .fromSocketAddr peer.addr = key

/-- The reverse index points at stored nodes and hashes. -/
def ReverseSound (contents : Contents) : Prop :=
  Backed contents.Indexed contents.Listed contents.reverse

/-- An update of a node: what pointed at its old address is gone, and what points at its new one
names it. -/
lemma ReverseSound.reindex (h : contents.ReverseSound) {previous node : RoutingNode}
    (hprevious : contents.nodes node.id = some previous) :
    Backed
      (Indexed { contents with nodes := Function.update contents.nodes node.id (some node) })
      contents.Listed (KTableCore.reindex contents.reverse previous node) := by
  have hself : Indexed { contents with nodes := Function.update contents.nodes node.id (some node) }
      (.fromSocketAddr node.addr) node.id := ⟨node, by simp, rfl⟩
  have hothers : ∀ key id, (id = node.id → key = .fromSocketAddr node.addr) →
      contents.Indexed key id →
      Indexed { contents with nodes := Function.update contents.nodes node.id (some node) }
        key id := by
    rintro key id hkey ⟨stored, hstored, hstoredKey⟩
    by_cases heq : id = node.id
    · rw [heq, hkey heq]
      exact hself
    · exact ⟨stored, by simpa [heq] using hstored, hstoredKey⟩
  -- Whatever names this node has the key of its previous address.
  have hnamed : ∀ {key}, contents.Indexed key node.id → key = .fromSocketAddr previous.addr := by
    rintro key ⟨stored, hstored, rfl⟩
    rw [hprevious] at hstored
    cases hstored
    rfl
  have hcleared : Backed
      (Indexed { contents with nodes := Function.update contents.nodes node.id (some node) })
      contents.Listed
      (if previous.addr ≠ node.addr then
        Function.update contents.reverse (.fromSocketAddr previous.addr) none
      else contents.reverse) := by
    split
    · refine Backed.erase h fun key id hne hindexed => hothers key id (fun heq => ?_) hindexed
      subst heq
      exact absurd (hnamed hindexed) hne
    case isFalse hsame =>
      refine Backed.mono h (fun key id hindexed => hothers key id (fun heq => ?_) hindexed)
        fun _ _ hlisted => hlisted
      subst heq
      rw [hnamed hindexed, not_not.mp hsame]
  exact hcleared.write (fun _ => hself) (hcleared.getD _).2

/-- `Listed` while the peers of `id` are those of an entry that is being filled. -/
def ListedWith (contents : Contents) (id : Id20)
    (peers : ReverseAddress → Option KTableHashPeer) (key : ReverseAddress) (hash : Id20) : Prop :=
  if hash = id then ∃ peer, peers key = some peer ∧ .fromSocketAddr peer.addr = key
  else contents.Listed key hash

/-- One more peer: its entry and its index entry are written together. -/
lemma addPeer_backed {id : Id20} {indexed : ReverseAddress → Id20 → Prop}
    {tables : (ReverseAddress → Option KTableHashPeer) × (ReverseAddress → Option ReverseInfo)}
    (h : Backed indexed (contents.ListedWith id tables.1) tables.2) (peer : KTableHashPeer) :
    Backed indexed (contents.ListedWith id (KTableCore.addPeer id tables peer).1)
      (KTableCore.addPeer id tables peer).2 := by
  have hgrown : Backed indexed (contents.ListedWith id (KTableCore.addPeer id tables peer).1)
      tables.2 := by
    refine Backed.mono h (fun _ _ hindexed => hindexed) fun key hash hlisted => ?_
    unfold ListedWith at hlisted ⊢
    split
    case isTrue heq =>
      by_cases hkey : key = .fromSocketAddr (normalizeAddr peer.addr)
      · exact ⟨⟨normalizeAddr peer.addr⟩, by simp [KTableCore.addPeer, hkey], hkey.symm⟩
      · rw [if_pos heq] at hlisted
        simpa [KTableCore.addPeer, hkey] using hlisted
    case isFalse hne => rwa [if_neg hne] at hlisted
  obtain ⟨hpeer, hhashes⟩ := hgrown.getD (.fromSocketAddr (normalizeAddr peer.addr))
  refine hgrown.write hpeer fun hash hhash => ?_
  rcases Finset.mem_insert.mp hhash with rfl | hhash
  · rw [ListedWith, if_pos rfl]
    exact ⟨⟨normalizeAddr peer.addr⟩, by simp [KTableCore.addPeer], rfl⟩
  · exact hhashes hash hhash

lemma addPeers_backed {id : Id20} {indexed : ReverseAddress → Id20 → Prop}
    (peers : List KTableHashPeer) :
    ∀ {tables : (ReverseAddress → Option KTableHashPeer) × (ReverseAddress → Option ReverseInfo)},
      Backed indexed (contents.ListedWith id tables.1) tables.2 →
      Backed indexed (contents.ListedWith id (peers.foldl (KTableCore.addPeer id) tables).1)
        (peers.foldl (KTableCore.addPeer id) tables).2 := by
  induction peers with
  | nil => exact fun h => h
  | cons peer peers ih => exact fun h => ih (addPeer_backed h peer)

/-- **The index stays sound under every change.** -/
lemma ReverseSound.step (h : contents.ReverseSound) (hstep : Step contents contents') :
    contents'.ReverseSound := by
  cases hstep with
  | same => exact h
  | @accept state node new node_eq live =>
    refine Backed.mono h ?_ fun _ _ hlisted => hlisted
    rintro key id ⟨stored, hstored, hkey⟩
    have hne : id ≠ node.id := by
      rintro rfl
      rw [new] at hstored
      cases hstored
    exact ⟨stored, by simpa [hne] using hstored, hkey⟩
  | @readdress previous handle state node stored current node_eq live => exact h.reindex stored
  | @remove node handle id stored current =>
    refine Backed.erase h fun key other hne hindexed => ?_
    obtain ⟨node', hnode', hkey⟩ := hindexed
    have hother : other ≠ id := by
      rintro rfl
      rw [stored] at hnode'
      cases hnode'
      exact hne hkey.symm
    exact ⟨node', by simpa [hother] using hnode', hkey⟩
  | addPeers id peers =>
    have hstart : Backed contents.Indexed
        (contents.ListedWith id (contents.entryFor id).peers) contents.reverse := by
      refine Backed.mono h (fun _ _ hindexed => hindexed) fun key hash hlisted => ?_
      unfold ListedWith
      split
      case isTrue heq =>
        subst heq
        obtain ⟨entry, peer, hentry, hpeer, hkey⟩ := hlisted
        exact ⟨peer, by simpa [entryFor, hentry] using hpeer, hkey⟩
      case isFalse => exact hlisted
    refine Backed.mono (addPeers_backed peers hstart) (fun _ _ hindexed => hindexed)
      fun key hash hlisted => ?_
    unfold ListedWith at hlisted
    split at hlisted
    case isTrue heq =>
      subst heq
      obtain ⟨peer, hpeer, hkey⟩ := hlisted
      exact ⟨_, peer, Function.update_self .., hpeer, hkey⟩
    case isFalse hne =>
      obtain ⟨entry, peer, hentry, hrest⟩ := hlisted
      exact ⟨entry, peer, by simpa [hne] using hentry, hrest⟩

lemma ReverseSound.steps (h : contents.ReverseSound)
    (hsteps : Relation.ReflTransGen Step contents contents') : contents'.ReverseSound := by
  induction hsteps with
  | refl => exact h
  | tail _ hstep ih => exact ih.step hstep

end Contents

namespace KTable

variable {origin : Id20} {table : KTable}

/-- What `drop_addr` of `KTableCore` and of `KTable` do.  When the index names no node for the
address, nothing.  Otherwise the node it names is stored under the same IP and scope; that node
goes, its index entry goes, its handle is marked, and every other node, index entry and handle and
all hashes with their peers stay. -/
def DropsIndexed (table : KTable) (addr : SocketAddr) : Prop :=
  match table.core.nodeIdForAddr addr with
  | none =>
    table.core.dropAddr addr = some (false, table.core) ∧
      table.dropAddr addr = some (false, table)
  | some id =>
    ∃ node handle table',
      table.core.nodes.nodes id = some node ∧
      ReverseAddress.fromSocketAddr node.addr = .fromSocketAddr addr ∧
      table.nodeHandles id = some handle ∧
      table.core.dropAddr addr = some (true, table'.core) ∧
      table.dropAddr addr = some (true, table') ∧
      table'.contents =
        { nodes := Function.update table.core.nodes.nodes id none
          hashes := table.core.hashes
          reverse := Function.update table.core.reverse (.fromSocketAddr addr) none
          nodeHandles := Function.update table.nodeHandles id none
          handles := table.handles.modify handle fun state => { state with dropped := true } }

lemma Synced.dropsIndexed (h : Synced origin table) (hsound : table.contents.ReverseSound)
    (addr : SocketAddr) : table.DropsIndexed addr := by
  rcases hinfo : table.core.reverse (.fromSocketAddr addr) with _ | info
  · simp [DropsIndexed, KTableCore.nodeIdForAddr, KTableCore.dropAddr, KTable.dropAddr, hinfo]
  by_cases hzero : info.peerId = Id20.zero
  · simp [DropsIndexed, KTableCore.nodeIdForAddr, KTableCore.dropAddr, KTable.dropAddr, hinfo,
      hzero]
  have hid : table.core.nodeIdForAddr addr = some info.peerId := by
    simp [KTableCore.nodeIdForAddr, hinfo, hzero]
  obtain ⟨node, hnode, hkey⟩ := (hsound _ info hinfo).1 hzero
  replace hnode : table.core.nodes.nodes info.peerId = some node := hnode
  obtain ⟨-, handle, -, hcurrent, -⟩ := h.live.of_node hnode
  replace hcurrent : table.nodeHandles info.peerId = some handle := hcurrent
  have hspec := KTableCore.dropNode_spec h.nodes info.peerId
  rw [hnode] at hspec
  obtain ⟨nodes, -, hnodes, hdrop⟩ := hspec
  have hcore : table.core.dropAddr addr = table.core.dropNode info.peerId := by
    simp [KTableCore.dropAddr, hinfo, hzero]
  rw [DropsIndexed, hid]
  refine ⟨node, handle, table.without info.peerId node nodes, hnode, hkey, hcurrent, ?_, ?_, ?_⟩
  · rw [hcore, hdrop]
    simp [KTable.without, removeLiveHandle, hcurrent]
  · rw [dropAddr_eq, hid]
    simp [KTable.dropNode, hdrop, KTable.without]
  · simp only [contents, KTable.without, removeLiveHandle, hcurrent, hnodes, hkey]

/-- **Reverse-index soundness.**  After any calls on a new table, a non-zero identifier in the
index is that of a node stored under that key and a hash in it is stored with a peer of that key;
so `drop_addr` does what `DropsIndexed` says for every address. -/
theorem run_reverse_sound (origin : Id20) (latest : Nat) (clock : Nat → Nat)
    (calls : List Call) :
    ∃ answers table, Machine.run (step latest clock) (new origin) calls = some (answers, table) ∧
      table.contents.ReverseSound ∧ ∀ addr, table.DropsIndexed addr := by
  obtain ⟨answers, table, hrun, hsynced, hsteps⟩ := (synced_new origin).run latest clock calls
  have hempty : (new origin).contents.ReverseSound := fun key info hinfo => nomatch hinfo
  have hsound := hempty.steps hsteps
  exact ⟨answers, table, hrun, hsound, hsynced.dropsIndexed hsound⟩

end KTable

end Bitmagnet.Dht
