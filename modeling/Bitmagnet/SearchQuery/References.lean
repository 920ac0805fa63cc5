import Bitmagnet.SearchQuery.Leaves

/-!
# References, group by group

References with the same type and source become one branch with a list of identifiers.  Grouping
keeps the pairs of a key and an identifier, so a disjunction over the groups, each of which is one
over its identifiers, is the disjunction over the references.
-/

namespace Bitmagnet.SearchQuery

open Sql

variable {D : Dialect} {enc : Encoding D} {joins : RequiredJoins} {state : BuildState}

/-! ## Grouping -/

section

variable {κ ρ : Type}

/-- The pairs of a key and an identifier that groups stand for. -/
def pairs (groups : List (RefGroup κ)) : List (κ × String) :=
  groups.flatMap fun group => group.ids.map (group.key, ·)

@[simp] lemma pairs_cons (group : RefGroup κ) (groups : List (RefGroup κ)) :
    pairs (group :: groups) = group.ids.map (group.key, ·) ++ pairs groups := rfl

section

variable [DecidableEq κ]

lemma mem_pairs_addRef (key : κ) (id : String) (groups : List (RefGroup κ)) (pair : κ × String) :
    pair ∈ pairs (addRef key id groups) ↔ pair ∈ pairs groups ∨ pair = (key, id) := by
  induction groups with
  | nil => simp [addRef, pairs]
  | cons group groups ih =>
    by_cases hkey : group.key = key
    · by_cases hid : id ∈ group.ids
      · have hmem : (key, id) ∈ pairs (group :: groups) := by simp [hkey, hid]
        rw [addRef, if_pos hkey, if_pos hid]
        constructor
        · exact Or.inl
        · rintro (h | rfl)
          exacts [h, hmem]
      · rw [addRef, if_pos hkey, if_neg hid]
        simp [hkey, or_assoc, or_comm]
    · rw [addRef, if_neg hkey]
      simp [ih, or_assoc]

lemma addRef_ids_ne_nil {key : κ} {id : String} {groups : List (RefGroup κ)}
    (h : ∀ group ∈ groups, group.ids ≠ []) : ∀ group ∈ addRef key id groups, group.ids ≠ [] := by
  induction groups with
  | nil => simp [addRef]
  | cons group groups ih =>
    obtain ⟨hgroup, hgroups⟩ := List.forall_mem_cons.mp h
    rw [addRef]
    split
    · refine List.forall_mem_cons.mpr ⟨?_, hgroups⟩
      split
      · exact hgroup
      · simp
    · exact List.forall_mem_cons.mpr ⟨hgroup, ih hgroups⟩

/-- The groups of some references. -/
lemma group_spec (key : ρ → κ) (id : ρ → String) (refs : List ρ) : ∀ groups : List (RefGroup κ),
    (∀ group ∈ groups, group.ids ≠ []) →
      (∀ group ∈ refs.foldl (fun groups ref => addRef (key ref) (id ref) groups) groups,
        group.ids ≠ []) ∧
      ∀ pair, pair ∈ pairs (refs.foldl (fun groups ref => addRef (key ref) (id ref) groups)
        groups) ↔ pair ∈ pairs groups ∨ ∃ ref ∈ refs, pair = (key ref, id ref) := by
  induction refs with
  | nil => exact fun groups hgroups => ⟨hgroups, by simp⟩
  | cons ref refs ih =>
    intro groups hgroups
    obtain ⟨hids, hpairs⟩ := ih (addRef (key ref) (id ref) groups) (addRef_ids_ne_nil hgroups)
    refine ⟨hids, fun pair => ?_⟩
    rw [List.foldl_cons, hpairs, mem_pairs_addRef]
    simp [or_assoc]

/-- There are no groups only without references. -/
lemma refs_eq_nil {key : ρ → κ} {id : ρ → String} {refs : List ρ}
    (h : refs.foldl (fun groups ref => addRef (key ref) (id ref) groups) [] = []) : refs = [] := by
  obtain ⟨-, hpairs⟩ := group_spec key id refs [] (by simp)
  refine List.eq_nil_iff_forall_not_mem.mpr fun ref href => ?_
  have hmem := (hpairs _).mpr (.inr ⟨ref, href, rfl⟩)
  rw [h] at hmem
  exact absurd hmem (by simp [pairs])

end

/-- A disjunction over the groups is one over the references. -/
lemma any_groups (key : ρ → κ) (id : ρ → String) {refs : List ρ} {groups : List (RefGroup κ)}
    (hpairs : ∀ pair, pair ∈ pairs groups ↔ ∃ ref ∈ refs, pair = (key ref, id ref))
    (mean : κ → String → Truth) :
    Truth.any (groups.map fun group => .any (group.ids.map (mean group.key))) =
      .any (refs.map fun ref => mean (key ref) (id ref)) := by
  have hflatten : Truth.any (groups.map fun group => .any (group.ids.map (mean group.key))) =
      .any ((pairs groups).map fun pair => mean pair.1 pair.2) := by
    rw [pairs, List.map_flatMap, List.flatMap, Truth.any_flatten, List.map_map]
    simp [Function.comp_def]
  rw [hflatten]
  refine Truth.any_congr fun t => ?_
  simp only [List.mem_map, hpairs]
  constructor
  · rintro ⟨_, ⟨ref, href, rfl⟩, rfl⟩
    exact ⟨ref, href, rfl⟩
  · rintro ⟨ref, href, rfl⟩
    exact ⟨_, ⟨ref, href, rfl⟩, rfl⟩

end

/-- Branches that each say what their group stands for, joined by `OR`. -/
lemma groups_emit {κ ρ : Type} [DecidableEq κ] (key : ρ → κ) (id : ρ → String)
    {branch : BuildState → RefGroup κ → String × BuildState}
    (mean : κ → String → World D → Truth)
    (hbranch : ∀ group : RefGroup κ, group.ids ≠ [] → ∀ state,
      Emits enc joins state (branch state group).2 (branch state group).1
        fun w => .any (group.ids.map fun id => mean group.key id w))
    (refs : List ρ) {groups : List (RefGroup κ)}
    (hgroups : groups = refs.foldl (fun groups ref => addRef (key ref) (id ref) groups) [])
    (state : BuildState) :
    Emits enc joins state (state.mapState branch groups).2
      (orBranches (state.mapState branch groups).1)
      fun w => .any (refs.map fun ref => mean (key ref) (id ref) w) := by
  obtain ⟨hids, hpairs⟩ := group_spec key id refs [] (by simp)
  rw [← hgroups] at hids hpairs
  have hbranches : EmitsAll enc joins state _ _ (groups.map fun group w =>
      Truth.any (group.ids.map fun id => mean group.key id w)) :=
    mapState_emits (f := branch) (fun group hgroup state => hbranch group (hids group hgroup) state)
      state
  refine (hbranches.orBranches fun hnil => ?_).congr fun w => ?_
  · rw [mapState_eq_nil.mp hnil]
    rfl
  · rw [List.map_map]
    exact any_groups key id (fun pair => (hpairs pair).trans (by simp [pairs]))
      fun key id => mean key id w

/-! ## Branches -/

lemma covered_base : Covered joins "torrent_contents".toList :=
  covered_of_ne (by decide) (by decide)

/-- One branch of `content_collection_sql`. -/
lemma collectionBranch_emits {group : RefGroup (Option String × String)} (hids : group.ids ≠ [])
    (state : BuildState) :
    Emits enc joins state (collectionBranch state group).2 (collectionBranch state group).1
      fun w => .any (group.ids.map fun id =>
        collectionMeaning ⟨group.key.1, group.key.2, id⟩ w) := by
  have hcovered : Covered joins "content_collections_content".toList :=
    covered_of_ne (by decide) (by decide)
  have htype : Emits enc joins state state ("content_collections_content.content_type" ++ " = " ++
      "torrent_contents.content_type") _ :=
    emits_equal_column "content_collections_content" "content_type" "torrent_contents"
      "content_type" (by decide) hcovered (by decide) covered_base
  have hsource : Emits enc joins state state ("content_collections_content.content_source" ++
      " = " ++ "torrent_contents.content_source") _ :=
    emits_equal_column "content_collections_content" "content_source" "torrent_contents"
      "content_source" (by decide) hcovered (by decide) covered_base
  have hid : Emits enc joins state state ("content_collections_content.content_id" ++ " = " ++
      "torrent_contents.content_id") _ :=
    emits_equal_column "content_collections_content" "content_id" "torrent_contents"
      "content_id" (by decide) hcovered (by decide) covered_base
  have hcollection : Emits enc joins state _
      ("content_collections_content.content_collection_type" ++ " = " ++ _) _ :=
    emits_equal_bind "content_collections_content" "content_collection_type" (by decide)
      hcovered state (group.key.1.getD "")
  have hkey : Emits enc joins (state.pushBind (.text (group.key.1.getD ""))).2 _
      ("content_collections_content.content_collection_source" ++ " = " ++ _) _ :=
    emits_equal_bind "content_collections_content" "content_collection_source" (by decide)
      hcovered _ group.key.2
  have hlist : Emits enc joins
      ((state.pushBind (.text (group.key.1.getD ""))).2.pushBind (.text group.key.2)).2 _
      ("content_collections_content.content_collection_id" ++ " IN (" ++ _ ++ ")") _ :=
    emits_isIn "content_collections_content" "content_collection_id" (by decide) hcovered hids _
  have hall := (((((htype.and hsource).and hid).and hcollection).and hkey).and hlist).existsIn
    "EXISTS (SELECT 1 FROM content_collections_content WHERE " "content_collections_content"
    (by decide)
  unfold collectionBranch
  refine hall.recast ?_ fun w => ?_
  · have hopen : "EXISTS (SELECT 1 FROM content_collections_content WHERE content_collections_content.content_type = torrent_contents.content_type AND content_collections_content.content_source = torrent_contents.content_source AND content_collections_content.content_id = torrent_contents.content_id AND content_collections_content.content_collection_type = " =
        "EXISTS (SELECT 1 FROM content_collections_content WHERE " ++
        "content_collections_content.content_type" ++ " = " ++ "torrent_contents.content_type" ++
        " AND " ++ "content_collections_content.content_source" ++ " = " ++
        "torrent_contents.content_source" ++ " AND " ++
        "content_collections_content.content_id" ++ " = " ++ "torrent_contents.content_id" ++
        " AND " ++ "content_collections_content.content_collection_type" ++ " = " := by
      decide +kernel
    have hmiddle : " AND content_collections_content.content_collection_source = " =
        " AND " ++ "content_collections_content.content_collection_source" ++ " = " := by
      decide
    have hin : " AND content_collections_content.content_collection_id IN (" =
        " AND " ++ "content_collections_content.content_collection_id" ++ " IN (" := by
      decide
    have hclose : "))" = ")" ++ ")" := rfl
    rw [hopen, hmiddle, hin, hclose]
    simp only [String.append_assoc]
  · unfold collectionMeaning
    rw [← World.anyRow_any]
    refine World.anyRow_congr w _ fun w => ?_
    rw [World.oneOf_eq, Truth.and_any, List.map_map]
    simp [Function.comp_def, Truth.and_assoc]

/-- There is a content. -/
lemma emits_contentId :
    Emits enc joins state state ("torrent_contents.content_id" ++ " IS NOT NULL")
      fun w => .ofBool !D.isNull (column w "torrent_contents" "content_id") := by
  have hcolumn : Yields enc joins state state 4 topLevel "torrent_contents.content_id" _ :=
    yields_column "torrent_contents" "content_id" (by decide) covered_base
  obtain ⟨hgrows, e, hpiece, hvalue, htables⟩ := hcolumn
  refine emits_piece hgrows (hpiece.suffixed (by decide) (by decide) rfl
    fun _ hop => hop.isNull (by decide) true) (by decide) (by decide) (fun w hw => ?_)
    (by rwa [tables])
  rw [holds_isNull, hvalue w hw]
  simp

/-- `content_collection_sql`. -/
lemma contentCollectionSql_emits (refs : List ContentCollectionRef) (state : BuildState) :
    Emits enc joins state (contentCollectionSql refs state).2 (contentCollectionSql refs state).1
      fun w => (Truth.ofBool !D.isNull (column w "torrent_contents" "content_id")).and
        (.any (refs.map (collectionMeaning · w))) := by
  have hor : Emits enc joins state
      (state.mapState collectionBranch (groupContentCollectionRefs refs)).2
      (orBranches (state.mapState collectionBranch (groupContentCollectionRefs refs)).1) _ :=
    groups_emit (fun ref : ContentCollectionRef => (ref.collectionType, ref.source)) (·.id)
      (fun key id => collectionMeaning ⟨key.1, key.2, id⟩)
      (fun _ hids state => collectionBranch_emits hids state) refs rfl state
  unfold contentCollectionSql
  dsimp only
  split
  · next hempty =>
      have hgroups := mapState_eq_nil.mp (List.isEmpty_iff.mp hempty)
      obtain rfl := refs_eq_nil hgroups
      exact emits_false.congr fun w => by simp
  · have hcut : "(torrent_contents.content_id IS NOT NULL AND " =
        "(" ++ "torrent_contents.content_id" ++ " IS NOT NULL" ++ " AND " := by decide
    refine (emits_contentId.and hor).paren.recast ?_ fun w => rfl
    rw [hcut]
    simp only [String.append_assoc]

section

variable (hjoins : joins.content = true)
include hjoins

/-- One branch of `canonical_identifier_sql`. -/
lemma canonicalBranch_emits {group : RefGroup (Option ContentType × String)}
    (hids : group.ids ≠ []) (state : BuildState) :
    Emits enc joins state (canonicalBranch state group).2 (canonicalBranch state group).1
      fun w => .any (group.ids.map fun id =>
        canonicalMeaning ⟨group.key.1, group.key.2, id⟩ w) := by
  have hcovered : Covered joins "content".toList := covered_content hjoins
  have hrest : ∀ state, Emits enc joins state
      ((state.pushBind (.text group.key.2)).2.pushBinds (group.ids.map .text)).2 _ _ :=
    fun state => (emits_equal_bind "content" "source"
      (by decide : isColumn "content.source" _ _ = true) hcovered state group.key.2).and
        (emits_isIn "content" "id" (by decide : isColumn "content.id" _ _ = true) hcovered hids _)
  have hsource : "content.source = " = "content.source" ++ " = " := rfl
  have hin : "content.id IN (" = "content.id" ++ " IN (" := rfl
  unfold canonicalBranch canonicalMeaning
  cases hkey : group.key.1 with
  | none =>
    refine (hrest state).recast ?_ fun w => ?_
    · rw [hsource, hin]
      simp only [List.nil_append, String.intercalate_cons_cons, String.intercalate_singleton,
        String.append_assoc]
    · rw [World.oneOf_eq, Truth.and_any, List.map_map]
      simp [Function.comp_def]
  | some contentType =>
    have htype : Emits enc joins state (state.pushBind (.text contentType.asStr)).2
        ("content.type" ++ " = " ++ _) _ :=
      emits_equal_bind "content" "type" (by decide) hcovered state contentType.asStr
    have hcut : "content.type = " = "content.type" ++ " = " := rfl
    refine (htype.and (hrest _)).recast ?_ fun w => ?_
    · rw [hsource, hin, hcut]
      simp only [List.cons_append, List.nil_append, String.intercalate_cons_cons,
        String.intercalate_singleton, String.append_assoc]
    · rw [World.oneOf_eq, Truth.and_any, Truth.and_any, List.map_map, List.map_map]
      simp [Function.comp_def]

/-- `canonical_identifier_sql`. -/
lemma canonicalIdentifierSql_emits (refs : List ContentRef) (state : BuildState) :
    Emits enc joins state (canonicalIdentifierSql refs state).2
      (canonicalIdentifierSql refs state).1 fun w => .any (refs.map (canonicalMeaning · w)) :=
  groups_emit (fun ref : ContentRef => (ref.contentType, ref.source)) (·.id)
    (fun key id => canonicalMeaning ⟨key.1, key.2, id⟩)
    (fun _ hids state => canonicalBranch_emits hjoins hids state) refs rfl state

/-- One branch of `alternative_identifier_sql`. -/
lemma alternativeBranch_emits {group : RefGroup (Option ContentType × String)}
    (hids : group.ids ≠ []) (state : BuildState) :
    Emits enc joins state (alternativeBranch state group).2 (alternativeBranch state group).1
      fun w => .any (group.ids.map fun id =>
        alternativeMeaning ⟨group.key.1, group.key.2, id⟩ w) := by
  have hcovered : Covered joins "content_attributes".toList :=
    covered_of_ne (by decide) (by decide)
  have hcontent : Covered joins "content".toList := covered_content hjoins
  have htype : Emits enc joins state state
      ("content_attributes.content_type" ++ " = " ++ "content.type") _ :=
    emits_equal_column "content_attributes" "content_type" "content" "type" (by decide)
      hcovered (by decide) hcontent
  have hsource : Emits enc joins state state
      ("content_attributes.content_source" ++ " = " ++ "content.source") _ :=
    emits_equal_column "content_attributes" "content_source" "content" "source" (by decide)
      hcovered (by decide) hcontent
  have hid : Emits enc joins state state
      ("content_attributes.content_id" ++ " = " ++ "content.id") _ :=
    emits_equal_column "content_attributes" "content_id" "content" "id" (by decide)
      hcovered (by decide) hcontent
  have hkey : Emits enc joins state (state.pushBind (.text group.key.2)).2
      ("content_attributes.source" ++ " = " ++ _) _ :=
    emits_equal_bind "content_attributes" "source" (by decide) hcovered state group.key.2
  have hlist : Emits enc joins (state.pushBind (.text group.key.2)).2
      ((state.pushBind (.text group.key.2)).2.pushBinds (group.ids.map .text)).2
      ("content_attributes.value" ++ " IN (" ++ _ ++ ")") _ :=
    emits_isIn "content_attributes" "value" (by decide) hcovered hids _
  have hfixed := (((htype.and hsource).and hid).and hkey).and hlist
  have hopen : "EXISTS (SELECT 1 FROM content_attributes WHERE content_attributes.content_type = content.type AND content_attributes.content_source = content.source AND content_attributes.content_id = content.id AND content_attributes.source = " =
      "EXISTS (SELECT 1 FROM content_attributes WHERE " ++
      "content_attributes.content_type" ++ " = " ++ "content.type" ++ " AND " ++
      "content_attributes.content_source" ++ " = " ++ "content.source" ++ " AND " ++
      "content_attributes.content_id" ++ " = " ++ "content.id" ++ " AND " ++
      "content_attributes.source" ++ " = " := by decide +kernel
  have hin : " AND content_attributes.value IN (" =
      " AND " ++ "content_attributes.value" ++ " IN (" := by decide
  unfold alternativeBranch alternativeMeaning
  cases hgroup : group.key.1 with
  | none =>
    refine (hfixed.existsIn "EXISTS (SELECT 1 FROM content_attributes WHERE "
      "content_attributes" (by decide)).recast ?_ fun w => ?_
    · rw [hopen, hin]
      simp only [String.append_assoc]
    · rw [← World.anyRow_any]
      refine World.anyRow_congr w _ fun w => ?_
      rw [World.oneOf_eq, Truth.and_any, List.map_map]
      simp [Function.comp_def, Truth.and_assoc]
  | some contentType =>
    have htyped : Emits enc joins
        ((state.pushBind (.text group.key.2)).2.pushBinds (group.ids.map .text)).2 _
        ("content_attributes.content_type" ++ " = " ++ _) _ :=
      emits_equal_bind "content_attributes" "content_type" (by decide) hcovered _ contentType.asStr
    have hcut : " AND content_attributes.content_type = " =
        " AND " ++ "content_attributes.content_type" ++ " = " := by decide
    refine ((hfixed.and htyped).existsIn "EXISTS (SELECT 1 FROM content_attributes WHERE "
      "content_attributes" (by decide)).recast ?_ fun w => ?_
    · rw [hopen, hin, hcut]
      simp only [String.append_assoc]
    · rw [← World.anyRow_any]
      refine World.anyRow_congr w _ fun w => ?_
      rw [World.oneOf_eq, Truth.and_any, Truth.any_and, List.map_map, List.map_map]
      simp [Function.comp_def, Truth.and_assoc]

/-- `alternative_identifier_sql`. -/
lemma alternativeIdentifierSql_emits (refs : List ContentRef) (state : BuildState) :
    Emits enc joins state (alternativeIdentifierSql refs state).2
      (alternativeIdentifierSql refs state).1 fun w => .any (refs.map (alternativeMeaning · w)) :=
  groups_emit (fun ref : ContentRef => (ref.contentType, ref.source)) (·.id)
    (fun key id => alternativeMeaning ⟨key.1, key.2, id⟩)
    (fun _ hids state => alternativeBranch_emits hjoins hids state) refs rfl state

end

end Bitmagnet.SearchQuery
