import Bitmagnet.Dht.KTableSync

/-!
# Handle generations of the k-table

A handle outlives its entry in the table.  Of each change of the contents three things are said:
a handle is current or dropped (`Generations`), a dropped one is never written again (`Frozen`),
and one that becomes current was not there before (`Fresh`).  `Frozen` and `Fresh` compare two
states, so they compose along a run; what carries them is that a write goes to a current handle
and a current handle is not dropped, which is part of `Live`.
-/

namespace Bitmagnet.Dht

namespace Contents

variable {contents contents' contents'' : Contents}

/-- Every handle ever made is dropped, or is current for its identifier and not dropped. -/
def Generations (contents : Contents) : Prop :=
  ∀ handle state, contents.handles[handle]? = some state →
    state.dropped = true ∨
      (state.dropped = false ∧ contents.nodeHandles state.node.id = some handle)

/-- A dropped handle has the same fields afterwards. -/
def Frozen (contents contents' : Contents) : Prop :=
  ∀ (handle : KTableNodeHandle) (state : KTableNodeState), contents.handles[handle]? = some state →
    state.dropped = true → contents'.handles[handle]? = some state

/-- A handle that is current afterwards was so before, or was not made yet. -/
def Fresh (contents contents' : Contents) : Prop :=
  ∀ id handle, contents'.nodeHandles id = some handle →
    contents.nodeHandles id = some handle ∨ contents.handles[handle]? = none

lemma Generations.step (h : contents.Generations) (hlive : contents.Live)
    (hstep : Step contents contents') : contents'.Generations := by
  cases hstep with
  | same => exact h
  | addPeers id peers => exact h
  | @accept state node new node_eq live =>
    intro handle old hold
    dsimp only at hold ⊢
    rcases Nat.lt_trichotomy handle contents.handles.length with hlt | rfl | hgt
    · rw [List.getElem?_append_left hlt] at hold
      refine (h handle old hold).imp_right fun ⟨hdropped, hcurrent⟩ => ⟨hdropped, ?_⟩
      -- The new identifier has no current handle yet.
      have hne : old.node.id ≠ node.id := by
        intro heq
        rw [heq, hlive.of_none new] at hcurrent
        cases hcurrent
      rwa [Function.update_of_ne hne]
    · obtain rfl : state = old := by simpa using hold
      exact .inr ⟨live, by simp [node_eq]⟩
    · rw [List.getElem?_eq_none (by rw [List.length_append]; exact hgt)] at hold
      cases hold
  | @readdress previous handle state node stored current node_eq live =>
    intro other old hold
    dsimp only at hold ⊢
    by_cases heq : handle = other
    · subst heq
      obtain ⟨-, before, -, -, hbefore, -⟩ := hlive.of_handle current
      rw [List.getElem?_set_self (List.getElem?_eq_some_iff.mp hbefore).1] at hold
      cases hold
      exact .inr ⟨live, node_eq ▸ current⟩
    · rw [List.getElem?_set_ne heq] at hold
      exact h other old hold
  | @remove node handle id stored current =>
    intro other old hold
    dsimp only at hold ⊢
    by_cases heq : handle = other
    · subst heq
      obtain ⟨-, before, -, -, hbefore, -⟩ := hlive.of_handle current
      rw [List.getElem?_modify_eq, hbefore] at hold
      cases hold
      exact .inl rfl
    · rw [List.getElem?_modify_ne _ _ heq] at hold
      refine (h other old hold).imp_right fun ⟨hdropped, hcurrent⟩ => ⟨hdropped, ?_⟩
      have hne : old.node.id ≠ id := by
        intro hid
        rw [hid, current] at hcurrent
        exact heq (Option.some.inj hcurrent)
      rwa [Function.update_of_ne hne]

lemma Step.frozen (hlive : contents.Live) (hstep : Step contents contents') :
    Frozen contents contents' := by
  intro handle state hstate hdropped
  -- The handle that is written to is current, so not this one.
  have hwritten : ∀ {id written}, contents.nodeHandles id = some written → written ≠ handle := by
    rintro id written hcurrent rfl
    obtain ⟨-, live, -, -, hlive, -, hnot⟩ := hlive.of_handle hcurrent
    rw [hstate] at hlive
    cases hlive
    rw [hdropped] at hnot
    cases hnot
  cases hstep with
  | same => exact hstate
  | addPeers id peers => exact hstate
  | accept node new node_eq live =>
    exact (List.getElem?_append_left (List.getElem?_eq_some_iff.mp hstate).1).trans hstate
  | readdress node stored current node_eq live =>
    exact (List.getElem?_set_ne (hwritten current)).trans hstate
  | remove id stored current =>
    exact (List.getElem?_modify_ne _ _ (hwritten current)).trans hstate

lemma Step.fresh (hstep : Step contents contents') : Fresh contents contents' := by
  intro id handle hcurrent
  cases hstep with
  | same => exact .inl hcurrent
  | addPeers other peers => exact .inl hcurrent
  | readdress node stored current node_eq live => exact .inl hcurrent
  | accept node new node_eq live =>
    by_cases heq : id = node.id
    · subst heq
      obtain rfl : contents.handles.length = handle := by simpa using hcurrent
      exact .inr (by simp)
    · exact .inl (by simpa [heq] using hcurrent)
  | remove other stored current =>
    have hne : id ≠ other := by
      rintro rfl
      simp at hcurrent
    exact .inl (by simpa [hne] using hcurrent)

lemma Step.handles_length (hstep : Step contents contents') :
    contents.handles.length ≤ contents'.handles.length := by
  cases hstep <;> simp

/-- **The generations along a run**, from any state of one. -/
lemma Live.generations (hlive : contents.Live) (h : contents.Generations)
    (hsteps : Relation.ReflTransGen Step contents contents') :
    contents'.Generations ∧ Frozen contents contents' ∧ Fresh contents contents' := by
  suffices contents'.Live ∧ contents.handles.length ≤ contents'.handles.length ∧
      contents'.Generations ∧ Frozen contents contents' ∧ Fresh contents contents' from this.2.2
  induction hsteps with
  | refl =>
    exact ⟨hlive, le_rfl, h, fun _ _ hstate _ => hstate, fun _ _ hcurrent => .inl hcurrent⟩
  | @tail middle last _ hstep ih =>
    obtain ⟨hlive', hlength, hgenerations, hfrozen, hfresh⟩ := ih
    refine ⟨hlive'.step hstep, hlength.trans hstep.handles_length,
      hgenerations.step hlive' hstep, ?_, ?_⟩
    · intro handle state hstate hdropped
      exact hstep.frozen hlive' handle state (hfrozen handle state hstate hdropped) hdropped
    · intro id handle hcurrent
      rcases hstep.fresh id handle hcurrent with hcurrent | hnone
      · exact hfresh id handle hcurrent
      · exact .inr (List.getElem?_eq_none (hlength.trans (List.getElem?_eq_none_iff.mp hnone)))

end Contents

namespace KTable

/-- **Handle generations.**  After any calls on a new table every handle ever made is current and
not dropped, or dropped.  Whatever calls follow, a handle that is dropped by then keeps all its
fields, and each node stored at the end has a current handle that it had before or that is new:
so an identifier that was dropped and added again has another handle than any made before. -/
theorem run_generations (origin : Id20) (latest : Nat) (clock : Nat → Nat)
    (earlier later : List Call) :
    ∃ answers table answers' table',
      Machine.run (step latest clock) (new origin) earlier = some (answers, table) ∧
      Machine.run (step latest clock) table later = some (answers', table') ∧
      table.contents.Generations ∧
      Contents.Frozen table.contents table'.contents ∧
      Contents.Fresh table.contents table'.contents ∧
      ∀ id, (table'.core.nodes.nodes id).isSome = (table'.nodeHandles id).isSome := by
  obtain ⟨answers, table, hrun, hsynced, hsteps⟩ := (synced_new origin).run latest clock earlier
  obtain ⟨answers', table', hrun', hsynced', hsteps'⟩ := hsynced.run latest clock later
  have hempty : (new origin).contents.Generations := fun handle state hstate => by
    simp [contents, new] at hstate
  have hgenerations := ((synced_new origin).live.generations hempty hsteps).1
  obtain ⟨-, hfrozen, hfresh⟩ := hsynced.live.generations hgenerations hsteps'
  refine ⟨answers, table, answers', table', hrun, hrun', hgenerations, hfrozen, hfresh, fun id => ?_⟩
  exact (Bool.eq_iff_iff.mpr (hsynced'.synchronised.handle_iff_node id)).symm

end KTable

end Bitmagnet.Dht
