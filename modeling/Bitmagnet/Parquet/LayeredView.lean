import Bitmagnet.Parquet.Layers

/-!
# The layered view and its compaction

`Generation.view` says what a generation is for: the rows of each layer whose
torrent no newer layer tombstones.  The search service reads exactly that
(`read_eq_view`), by the ranked anti-join and by the older two-layer query alike,
and so do the queries that build a folded segment or a merged base
(`layeredSelect_eq_view`).  With both sides in terms of `Shadow.view`, compaction
is `Shadow.view_replace`, `Shadow.view_absorb` and, between the publication of a
merged base and that of its manifest, `Shadow.view_overlay`.

The last one needs `Disk.Sound`: a layer's tombstones list the torrents of its
own rows.  Every build establishes it (`sound_finish`) and a fold keeps it.
-/

namespace Bitmagnet.Parquet

/-! ## Layers on disk -/

/-- The layer of a version directory. -/
def layerOf : VersionDir → LayerPaths
  | ⟨.base, version⟩ => baseLayer version
  | ⟨.segment, version⟩ => segmentLayer version
  | ⟨.delta, version⟩ => deltaLayer version

lemma file_layerOf (d : VersionDir) (a : LayeredArtifact) :
    (layerOf d).file a = ⟨d, a.fileName⟩ := by
  obtain ⟨kind, version⟩ := d
  cases kind <;> cases a <;> rfl

variable {d out : VersionDir} {newer : List VersionDir} {disk' : Disk}

lemma tombstones_layerOf (h : d.kind ≠ .base) :
    (layerOf d).tombstones = some ⟨d, tombstonesName⟩ := by
  obtain ⟨kind, version⟩ := d
  cases kind
  · exact absurd rfl h
  · rfl
  · rfl

namespace Disk

/-- What a version directory contributes to the view of an artifact. -/
def layerAt (disk : Disk) (a : LayeredArtifact) (d : VersionDir) : Shadow.Layer a.Row String :=
  ⟨(disk.data a ⟨d, a.fileName⟩).getD 0, (disk.tombstones ⟨d, tombstonesName⟩).getD 0⟩

/-- The directory exists and has all its files. -/
structure Complete (disk : Disk) (d : VersionDir) : Prop where
  dir : d ∈ disk.dirs
  data : ∀ a, (disk.data a ⟨d, a.fileName⟩).isSome
  tombstones : d.kind ≠ .base → (disk.tombstones ⟨d, tombstonesName⟩).isSome

/-- The directory's tombstones list the torrents of its fact table, and its rollup
has no others. -/
structure Sound (disk : Disk) (d : VersionDir) : Prop where
  cover : (disk.layerAt .fact d).SelfHiding LayeredArtifact.fact.infoHash
  rollup : ∀ a ∈ (disk.layerAt .aggTorrentExt d).rows,
    ∃ r ∈ (disk.layerAt .fact d).rows,
      LayeredArtifact.fact.infoHash r = LayeredArtifact.aggTorrentExt.infoHash a

lemma Sound.selfHiding {disk : Disk} (h : disk.Sound d) (a : LayeredArtifact) :
    (disk.layerAt a d).SelfHiding a.infoHash := by
  cases a with
  | fact => exact h.cover
  | aggTorrentExt =>
    intro row hrow
    obtain ⟨r, hr, heq⟩ := h.rollup row hrow
    rw [← heq]
    exact h.cover r hr

/-- Two disks agree on the files of a directory. -/
structure AgreesOn (disk disk' : Disk) (d : VersionDir) : Prop where
  dir : d ∈ disk.dirs → d ∈ disk'.dirs
  data : ∀ a, disk'.data a ⟨d, a.fileName⟩ = disk.data a ⟨d, a.fileName⟩
  tombstones : disk'.tombstones ⟨d, tombstonesName⟩ = disk.tombstones ⟨d, tombstonesName⟩

namespace AgreesOn

variable {disk disk' : Disk} {d : VersionDir}

lemma layerAt (h : disk.AgreesOn disk' d) (a : LayeredArtifact) :
    disk'.layerAt a d = disk.layerAt a d := by
  rw [Disk.layerAt, Disk.layerAt, h.data, h.tombstones]

lemma complete (h : disk.AgreesOn disk' d) (hc : disk.Complete d) : disk'.Complete d :=
  ⟨h.dir hc.dir, fun a => by rw [h.data]; exact hc.data a,
    fun hk => by rw [h.tombstones]; exact hc.tombstones hk⟩

lemma sound (h : disk.AgreesOn disk' d) (hs : disk.Sound d) : disk'.Sound d :=
  ⟨by rw [h.layerAt]; exact hs.cover, by rw [h.layerAt, h.layerAt]; exact hs.rollup⟩

end AgreesOn

end Disk

/-! ## Scans -/

lemma readParquet_eq {R : Type} {table : Path → Option (Multiset R)} {paths : List Path}
    (h : ∀ p ∈ paths, (table p).isSome) :
    readParquet table paths = .ok (paths.map fun p => ((table p).getD 0).map (Prod.mk p)).sum := by
  induction paths with
  | nil => rfl
  | cons p paths ih =>
    obtain ⟨rows, hrows⟩ := Option.isSome_iff_exists.mp (h p (by simp))
    have ih := ih fun q hq => h q (List.mem_cons_of_mem _ hq)
    simp [readParquet, hrows, ih]

lemma layerRank_of_mem {files : List (Nat × Path)} (hnodup : (files.map Prod.snd).Nodup)
    {f : Nat × Path} (hf : f ∈ files) : layerRank files f.2 = some f.1 := by
  induction files with
  | nil => cases hf
  | cons g files ih =>
    rw [List.map_cons, List.nodup_cons] at hnodup
    rcases List.mem_cons.mp hf with rfl | hmem
    · simp [layerRank]
    · have hne : g.2 ≠ f.2 := fun heq =>
        hnodup.1 (heq ▸ List.mem_map_of_mem (f := Prod.snd) hmem)
      have ih := ih hnodup.2 hmem
      unfold layerRank at ih ⊢
      rw [List.find?_cons_of_neg (by simpa using hne), ih]

/-- A scan of distinct files ranks every row by its file. -/
lemma rankedScan_eq {R : Type} {table : Path → Option (Multiset R)} {files : List (Nat × Path)}
    (hnodup : (files.map Prod.snd).Nodup) (h : ∀ f ∈ files, (table f.2).isSome) :
    rankedScan table files =
      .ok (Shadow.ranked (files.map fun f => (f.1, (table f.2).getD 0))) := by
  -- the ranks of a part of the files, as the `CASE` over all of them gives them
  have hpart : ∀ part : List (Nat × Path), part ⊆ files →
      (∀ row ∈ ((part.map Prod.snd).map fun p => ((table p).getD 0).map (Prod.mk p)).sum,
        (layerRank files row.1).isSome) ∧
      (((part.map Prod.snd).map fun p => ((table p).getD 0).map (Prod.mk p)).sum.map fun row =>
        ((layerRank files row.1).getD 0, row.2)) =
        Shadow.ranked (part.map fun f => (f.1, (table f.2).getD 0)) := by
    intro part
    induction part with
    | nil => simp
    | cons f part ih =>
      intro hsub
      have hrank := layerRank_of_mem hnodup (hsub (List.mem_cons_self))
      obtain ⟨hsome, hmap⟩ := ih fun g hg => hsub (List.mem_cons_of_mem _ hg)
      constructor
      · intro row hrow
        rw [List.map_cons, List.map_cons, List.sum_cons, Multiset.mem_add, Multiset.mem_map] at hrow
        rcases hrow with ⟨r, _, rfl⟩ | hrow
        · simp [hrank]
        · exact hsome row hrow
      · simp only [List.map_cons, List.sum_cons, Multiset.map_add, Multiset.map_map,
          Function.comp_def, hrank, Shadow.ranked_cons, hmap, Option.getD_some]
  have hread : readParquet table (files.map Prod.snd) = _ :=
    readParquet_eq fun p hp => by
      obtain ⟨f, hf, rfl⟩ := List.mem_map.mp hp
      exact h f hf
  obtain ⟨hsome, hmap⟩ := hpart files (List.Subset.refl _)
  rw [rankedScan, hread]
  simp only [hmap]
  rw [if_pos hsome]

/-! ## The queries compute the view -/

/-- The ranked tombstone files of layers that all have them. -/
def rankedTombstones (k : Nat) (dirs : List VersionDir) : List (Nat × Path) :=
  (dirs.zipIdx k).map fun d => (d.2, ⟨d.1, tombstonesName⟩)

lemma drop_one_zipIdx_map (d : VersionDir) (dirs : List VersionDir) :
    ((d :: dirs).map layerOf).zipIdx.drop 1 = (dirs.zipIdx 1).map fun d => (layerOf d.1, d.2) := by
  simp [List.zipIdx_map]

/-- Both ways in which the source collects the tombstone files find all of them:
`filter_map` in a fold and `map` with `expect` in the search service. -/
lemma collect_tombstones {dirs : List VersionDir} (h : ∀ d ∈ dirs, d.kind ≠ .base) (k : Nat) :
    ((dirs.zipIdx k).map fun d => (layerOf d.1, d.2)).filterMap
        (fun l => l.1.tombstones.map fun t => (l.2, t)) = rankedTombstones k dirs ∧
      ((dirs.zipIdx k).map fun d => (layerOf d.1, d.2)).mapM
        (fun l => l.1.tombstones.map fun t => (l.2, t)) = some (rankedTombstones k dirs) := by
  induction dirs generalizing k with
  | nil => exact ⟨rfl, rfl⟩
  | cons d dirs ih =>
    obtain ⟨hfilter, hmap⟩ := ih (fun d' hd' => h d' (List.mem_cons_of_mem _ hd')) (k + 1)
    have htomb := tombstones_layerOf (h d (by simp))
    unfold rankedTombstones at hfilter hmap ⊢
    constructor
    · simp [htomb, hfilter]
    · simp [htomb, hmap]

lemma rankedFiles_map_layerOf (a : LayeredArtifact) (dirs : List VersionDir) :
    rankedFiles a (dirs.map layerOf) = dirs.zipIdx.map fun d => (d.2, ⟨d.1, a.fileName⟩) := by
  simp [rankedFiles, List.zipIdx_map, file_layerOf]

lemma nodup_files {dirs : List VersionDir} (h : dirs.Nodup) (name : String) (k : Nat) :
    (((dirs.zipIdx k).map fun d => (d.2, (⟨d.1, name⟩ : Path))).map Prod.snd).Nodup := by
  have heq : ((dirs.zipIdx k).map fun d => (d.2, (⟨d.1, name⟩ : Path))).map Prod.snd =
      dirs.map fun d => ⟨d, name⟩ := by
    conv_rhs => rw [← List.zipIdx_map_fst k dirs, List.map_map]
    simp [Function.comp_def]
  rw [heq]
  refine List.Nodup.map ?_ h
  intro d d' hd
  exact (Path.mk.inj hd).1

/-- Complete directories from the oldest on, of which only the oldest may be a base. -/
structure Disk.Stacked (disk : Disk) (d : VersionDir) (newer : List VersionDir) : Prop where
  nodup : (d :: newer).Nodup
  kind : ∀ d' ∈ newer, d'.kind ≠ .base
  complete : ∀ d' ∈ d :: newer, disk.Complete d'

variable {disk : Disk} {a : LayeredArtifact}

/-- Segments on top of a directory. -/
lemma stacked_segments {segments : List Nat} (hd : disk.Complete d)
    (hne : ∀ s ∈ segments, d ≠ ⟨.segment, s⟩) (hnodup : segments.Nodup)
    (hsegments : ∀ s ∈ segments, disk.Complete ⟨.segment, s⟩) :
    disk.Stacked d (segments.map (VersionDir.mk .segment)) where
  nodup := List.nodup_cons.mpr ⟨by simpa [eq_comm] using hne,
    hnodup.map fun v v' hv => (VersionDir.mk.inj hv).2⟩
  kind := List.forall_mem_map.mpr fun _ _ => by simp
  complete := List.forall_mem_cons.mpr ⟨hd, List.forall_mem_map.mpr hsegments⟩

lemma antiJoinScan_eq_view (h : disk.Stacked d newer) :
    antiJoinScan disk a (rankedFiles a ((d :: newer).map layerOf)) (rankedTombstones 1 newer) =
      .ok (Shadow.view a.infoHash ((d :: newer).map (disk.layerAt a))) := by
  have hdata : rankedScan (disk.data a) (rankedFiles a ((d :: newer).map layerOf)) =
      .ok (Shadow.rankedRows 0 ((d :: newer).map (disk.layerAt a))) := by
    rw [rankedFiles_map_layerOf, rankedScan_eq (nodup_files h.nodup _ 0)]
    · rw [Shadow.rankedRows, List.zipIdx_map]
      simp [Function.comp_def, Disk.layerAt]
    · intro f hf
      obtain ⟨d', hd', rfl⟩ := List.mem_map.mp hf
      exact (h.complete d'.1 (List.fst_mem_of_mem_zipIdx hd')).data a
  have htombs : rankedScan disk.tombstones (rankedTombstones 1 newer) =
      .ok (Shadow.rankedKeys 1 (newer.map (disk.layerAt a))) := by
    rw [rankedTombstones, rankedScan_eq (nodup_files (List.nodup_cons.mp h.nodup).2 _ 1)]
    · rw [Shadow.rankedKeys, List.zipIdx_map]
      simp [Function.comp_def, Disk.layerAt]
    · intro f hf
      obtain ⟨d', hd', rfl⟩ := List.mem_map.mp hf
      have hmem := List.fst_mem_of_mem_zipIdx hd'
      exact (h.complete d'.1 (List.mem_cons_of_mem _ hmem)).tombstones (h.kind d'.1 hmem)
  rw [antiJoinScan, hdata, htombs]
  exact congrArg Except.ok (Shadow.antiJoin_ranked 0 _ _)

/-- **The query of a fold computes the view of its layers.** -/
lemma layeredSelect_eq_view (h : disk.Stacked d newer) :
    layeredSelect disk ((d :: newer).map layerOf) a =
      .ok (Shadow.view a.infoHash ((d :: newer).map (disk.layerAt a))) := by
  simp only [layeredSelect, drop_one_zipIdx_map, (collect_tombstones h.kind 1).1]
  cases newer with
  | nil =>
    -- one layer: the plain read
    obtain ⟨rows, hrows⟩ := Option.isSome_iff_exists.mp ((h.complete d (by simp)).data a)
    simp only [rankedFiles_map_layerOf]
    simp [rankedTombstones, readParquet, hrows, Disk.layerAt]
  | cons d' newer => exact antiJoinScan_eq_view h

lemma tombstoneUnionSelect_eq {run : List VersionDir} (hrun : ∀ d' ∈ d :: run, d'.kind ≠ .base)
    (hcomplete : ∀ d' ∈ d :: run, disk.Complete d') :
    ∃ hashes, tombstoneUnionSelect disk ((d :: run).map layerOf) = .ok hashes ∧
      ∀ a h, h ∈ hashes ↔ h ∈ Shadow.hidden ((d :: run).map (disk.layerAt a)) := by
  have htombs : ∀ dirs : List VersionDir, (∀ d' ∈ dirs, d'.kind ≠ .base) →
      (dirs.map layerOf).filterMap LayerPaths.tombstones = dirs.map (⟨·, tombstonesName⟩) := by
    intro dirs hdirs
    induction dirs with
    | nil => rfl
    | cons d dirs ih =>
      have ih := ih fun d' hd' => hdirs d' (List.mem_cons_of_mem _ hd')
      simp only [List.map_cons, List.filterMap_cons, tombstones_layerOf (hdirs d (by simp)), ih]
  have hread : readParquet disk.tombstones ((d :: run).map (⟨·, tombstonesName⟩)) = _ :=
    readParquet_eq fun p hp => by
      obtain ⟨d', hd', rfl⟩ := List.mem_map.mp hp
      exact (hcomplete d' hd').tombstones (hrun d' hd')
  refine ⟨_, by rw [tombstoneUnionSelect, htombs _ hrun, hread]; rfl, fun a h => ?_⟩
  rw [Multiset.mem_dedup]
  -- neither the file a hash comes from nor the artifact matters for the union
  have hmem : ∀ dirs : List VersionDir,
      h ∈ ((dirs.map (⟨·, tombstonesName⟩)).map fun p =>
        ((disk.tombstones p).getD 0).map (Prod.mk p)).sum.map Prod.snd ↔
      h ∈ Shadow.hidden (dirs.map (disk.layerAt a)) := by
    intro dirs
    induction dirs with
    | nil => simp
    | cons d dirs ih => simp [← ih, Disk.layerAt]
  exact hmem (d :: run)

/-! ## Reading a generation -/

/-- The version directories of a generation, oldest layer first. -/
def Generation.dirs (g : Generation) : List VersionDir :=
  ⟨.base, g.base⟩ :: (g.segments.map (⟨.segment, ·⟩) ++ [⟨.delta, g.delta⟩])

/-- Every layer is there, and no segment is listed twice. -/
structure Generation.Loaded (g : Generation) (disk : Disk) : Prop where
  complete : ∀ d ∈ g.dirs, disk.Complete d
  nodup : g.segments.Nodup

/-- **The view of a generation**: the rows of each layer whose torrent no newer
layer tombstones. -/
def Generation.view (g : Generation) (disk : Disk) (a : LayeredArtifact) : Multiset a.Row :=
  Shadow.view a.infoHash (g.dirs.map (disk.layerAt a))

namespace Generation

variable {g : Generation}

lemma nodup_dirs (h : g.segments.Nodup) : g.dirs.Nodup := by
  have hsegments : (g.segments.map (VersionDir.mk .segment)).Nodup :=
    h.map fun s s' hs => (VersionDir.mk.inj hs).2
  have hdelta : (g.segments.map (VersionDir.mk .segment) ++ [VersionDir.mk .delta g.delta]).Nodup := by
    refine List.nodup_append.mpr ⟨hsegments, by simp, ?_⟩
    simp
  exact List.nodup_cons.mpr ⟨by simp, hdelta⟩

lemma kind_ne_base_of_mem
    (h : d ∈ g.segments.map (VersionDir.mk .segment) ++ [⟨.delta, g.delta⟩]) : d.kind ≠ .base := by
  rcases List.mem_append.mp h with hd | hd
  · obtain ⟨s, _, rfl⟩ := List.mem_map.mp hd
    simp
  · rw [List.mem_singleton.mp hd]
    simp

lemma buildLayerSet_eq (h : g.Loaded disk) : buildLayerSet disk g = .ok (g.dirs.map layerOf) := by
  have hfind : (g.segments.find? fun s => (⟨.segment, s⟩ : VersionDir) ∉ disk.dirs) = none := by
    refine List.find?_eq_none.mpr fun s hs => ?_
    have hdir := (h.complete ⟨.segment, s⟩ (by simp [dirs, hs])).dir
    simpa using hdir
  rw [buildLayerSet, hfind]
  simp [dirs, layerOf, Function.comp_def]

/-- The two-layer query computes the view of base and delta. -/
lemma legacyCte_eq_view {base delta : Nat} (hbase : disk.Complete ⟨.base, base⟩)
    (hdelta : disk.Complete ⟨.delta, delta⟩) :
    legacyCte disk a (baseLayer base) (deltaLayer delta) ⟨⟨.delta, delta⟩, tombstonesName⟩ =
      .ok (Shadow.view a.infoHash
        [disk.layerAt a ⟨.base, base⟩, disk.layerAt a ⟨.delta, delta⟩]) := by
  obtain ⟨baseRows, hbaseRows⟩ := Option.isSome_iff_exists.mp (hbase.data a)
  obtain ⟨deltaRows, hdeltaRows⟩ := Option.isSome_iff_exists.mp (hdelta.data a)
  obtain ⟨hashes, hhashes⟩ := Option.isSome_iff_exists.mp (hdelta.tombstones (by simp))
  have hbaseFile : (baseLayer base).file a = ⟨⟨.base, base⟩, a.fileName⟩ :=
    file_layerOf ⟨.base, base⟩ a
  have hdeltaFile : (deltaLayer delta).file a = ⟨⟨.delta, delta⟩, a.fileName⟩ :=
    file_layerOf ⟨.delta, delta⟩ a
  have hfilter : baseRows.filter (fun b => ∀ x ∈ hashes, ¬ x = a.infoHash b) =
      Shadow.visible a.infoHash hashes baseRows := by
    refine Multiset.filter_congr fun b _ => ?_
    exact ⟨fun h hb => h _ hb rfl, fun h x hx heq => h (heq ▸ hx)⟩
  simp [legacyCte, readParquet, hbaseFile, hdeltaFile, hbaseRows, hdeltaRows, hhashes,
    Disk.layerAt, pure, Except.pure, bind, Except.bind, hfilter]

lemma cte_eq_view (h : g.Loaded disk) : cte disk a (g.dirs.map layerOf) = .ok (g.view disk a) := by
  by_cases hsegments : g.segments = []
  · have hbase := h.complete ⟨.base, g.base⟩ (by simp [dirs])
    have hdelta := h.complete ⟨.delta, g.delta⟩ (by simp [dirs])
    have hdirs : g.dirs = [⟨.base, g.base⟩, ⟨.delta, g.delta⟩] := by simp [dirs, hsegments]
    have hpair : legacyPair (g.dirs.map layerOf) =
        some (baseLayer g.base, deltaLayer g.delta, ⟨⟨.delta, g.delta⟩, tombstonesName⟩) := by
      rw [hdirs]
      rfl
    rw [cte, hpair, view, hdirs]
    exact legacyCte_eq_view hbase hdelta
  · obtain ⟨s, rest, hs⟩ := List.exists_cons_of_ne_nil hsegments
    have hpair : legacyPair (g.dirs.map layerOf) = none := by
      simp only [dirs, hs, List.map_cons, List.cons_append]
      cases rest <;> rfl
    have hlength : ¬ (g.dirs.map layerOf).length < 2 := by simp [dirs]
    have htombs := (collect_tombstones (fun d hd => kind_ne_base_of_mem (g := g) hd) 1).2
    rw [cte, hpair]
    simp only [layeredCte, if_neg hlength]
    rw [dirs, drop_one_zipIdx_map, htombs]
    exact antiJoinScan_eq_view ⟨nodup_dirs h.nodup, fun d hd => kind_ne_base_of_mem hd, h.complete⟩

/-- **The search service reads the view.** -/
lemma read_eq_view (h : g.Loaded disk) : g.read disk a = .ok (g.view disk a) := by
  rw [read, buildLayerSet_eq h]
  exact cte_eq_view h

end Generation

/-! ## Writing a layer -/

/-- What a materialisation leaves on disk: the view of its layers in the new
directory and every other directory as it was. -/
structure Materialized (disk disk' : Disk) (layers : List VersionDir) (out : VersionDir) :
    Prop where
  dir : out ∈ disk'.dirs
  data : ∀ a, disk'.data a ⟨out, a.fileName⟩ =
    some (Shadow.view a.infoHash (layers.map (disk.layerAt a)))
  others : ∀ d ≠ out, disk.AgreesOn disk' d

lemma writeData_self (disk : Disk) (a : LayeredArtifact) (p : Path) (rows : Multiset a.Row) :
    (disk.writeData a p rows).data a p = some rows := by
  simp [Disk.writeData]

lemma writeData_of_artifact_ne {a' : LayeredArtifact} (h : a ≠ a') (p p' : Path)
    (rows : Multiset a'.Row) : (disk.writeData a' p' rows).data a p = disk.data a p := by
  simp [Disk.writeData, h]

lemma writeData_of_path_ne {p p' : Path} (h : p ≠ p') (a' : LayeredArtifact)
    (rows : Multiset a'.Row) : (disk.writeData a' p' rows).data a p = disk.data a p := by
  by_cases heq : a = a'
  · subst heq
    simp [Disk.writeData, h]
  · exact writeData_of_artifact_ne heq p p' rows

/-- Writing a file of one directory leaves the others alone. -/
lemma agreesOn_writeData (h : d ≠ out) (a : LayeredArtifact) (name : String)
    (rows : Multiset a.Row) : disk.AgreesOn (disk.writeData a ⟨out, name⟩ rows) d :=
  ⟨id, fun _ => writeData_of_path_ne (fun hp => h (Path.mk.inj hp).1) a rows, rfl⟩

lemma agreesOn_writeTombstones (h : d ≠ out) (name : String) (hashes : Multiset String) :
    disk.AgreesOn (disk.writeTombstones ⟨out, name⟩ hashes) d :=
  ⟨id, fun _ => rfl, Function.update_of_ne (fun hp => h (Path.mk.inj hp).1) _ _⟩

lemma Disk.AgreesOn.trans {disk'' : Disk} (h : disk.AgreesOn disk' d)
    (h' : disk'.AgreesOn disk'' d) : disk.AgreesOn disk'' d :=
  ⟨h'.dir ∘ h.dir, fun a => (h'.data a).trans (h.data a), h'.tombstones.trans h.tombstones⟩

lemma Disk.Stacked.agrees (h : disk.Stacked d newer)
    (hagree : ∀ d' ∈ d :: newer, disk.AgreesOn disk' d') : disk'.Stacked d newer :=
  ⟨h.nodup, h.kind, fun d' hd' => (hagree d' hd').complete (h.complete d' hd')⟩

/-- The layers of directories two disks agree on. -/
lemma map_layerAt_congr {dirs : List VersionDir} (h : ∀ d ∈ dirs, disk.AgreesOn disk' d)
    (a : LayeredArtifact) : dirs.map (disk'.layerAt a) = dirs.map (disk.layerAt a) :=
  List.map_congr_left fun d hd => (h d hd).layerAt a

/-- **Materialising layers** in a fresh directory succeeds, and writes the view of
the layers with the hashes they hide. -/
lemma materializeLayers_eq (h : disk.Stacked d newer) (hfresh : out ∉ d :: newer)
    (hout : out ∈ disk.dirs) (writeTombstones : Bool) (htombs : writeTombstones → d.kind ≠ .base) :
    ∃ disk', materializeLayers disk ((d :: newer).map layerOf) out writeTombstones = .ok disk' ∧
      Materialized disk disk' (d :: newer) out ∧
      (writeTombstones → ∃ hashes, disk'.tombstones ⟨out, tombstonesName⟩ = some hashes ∧
        ∀ a h, h ∈ hashes ↔ h ∈ Shadow.hidden ((d :: newer).map (disk.layerAt a))) := by
  -- the disk after the fact table, and after the rollup
  let disk₁ := disk.writeData .fact ⟨out, LayeredArtifact.fact.fileName⟩
    (Shadow.view LayeredArtifact.fact.infoHash ((d :: newer).map (disk.layerAt .fact)))
  let disk₂ := disk₁.writeData .aggTorrentExt ⟨out, LayeredArtifact.aggTorrentExt.fileName⟩
    (Shadow.view LayeredArtifact.aggTorrentExt.infoHash
      ((d :: newer).map (disk.layerAt .aggTorrentExt)))
  have hagree₁ : ∀ d' ≠ out, disk.AgreesOn disk₁ d' := fun d' hd' => agreesOn_writeData hd' _ _ _
  have hagree₂ : ∀ d' ≠ out, disk.AgreesOn disk₂ d' := fun d' hd' =>
    (hagree₁ d' hd').trans (agreesOn_writeData hd' _ _ _)
  have hne : ∀ d' ∈ d :: newer, d' ≠ out := fun d' hd' heq => hfresh (heq ▸ hd')
  have hfact := layeredSelect_eq_view (a := .fact) h
  have hagg : layeredSelect disk₁ ((d :: newer).map layerOf) .aggTorrentExt = _ :=
    layeredSelect_eq_view (h.agrees fun d' hd' => hagree₁ d' (hne d' hd'))
  rw [map_layerAt_congr fun d' hd' => hagree₁ d' (hne d' hd')] at hagg
  have hdata : ∀ a, disk₂.data a ⟨out, a.fileName⟩ =
      some (Shadow.view a.infoHash ((d :: newer).map (disk.layerAt a))) := by
    intro a
    cases a with
    | fact =>
      rw [writeData_of_artifact_ne (by simp)]
      exact writeData_self disk _ _ _
    | aggTorrentExt => exact writeData_self disk₁ _ _ _
  have hstart : materializeLayers disk ((d :: newer).map layerOf) out writeTombstones =
      if writeTombstones then do
        let hashes ← tombstoneUnionSelect disk₂ ((d :: newer).map layerOf)
        return disk₂.writeTombstones ⟨out, tombstonesName⟩ hashes
      else return disk₂ := by
    simp only [materializeLayers, hfact]
    change (do
      let rows ← layeredSelect disk₁ ((d :: newer).map layerOf) .aggTorrentExt
      _) = _
    rw [hagg]
    rfl
  cases writeTombstones with
  | false =>
    refine ⟨disk₂, by rw [hstart]; rfl, ⟨hout, hdata, hagree₂⟩, fun h => absurd h (by simp)⟩
  | true =>
    have hrun : ∀ d' ∈ d :: newer, d'.kind ≠ .base := by
      intro d' hd'
      rcases List.mem_cons.mp hd' with rfl | hmem
      · exact htombs rfl
      · exact h.kind d' hmem
    obtain ⟨hashes, hunion, hmem⟩ := tombstoneUnionSelect_eq hrun
      (h.agrees fun d' hd' => hagree₂ d' (hne d' hd')).complete
    refine ⟨disk₂.writeTombstones ⟨out, tombstonesName⟩ hashes, ?_, ?_, fun _ => ⟨hashes, ?_, ?_⟩⟩
    · rw [hstart, hunion]
      rfl
    · exact ⟨hout, hdata, fun d' hd' => (hagree₂ d' hd').trans (agreesOn_writeTombstones hd' _ _)⟩
    · exact Function.update_self _ _ _
    · intro a h
      rw [hmem a, map_layerAt_congr fun d' hd' => hagree₂ d' (hne d' hd')]

/-! ## Compaction -/

/-- A new directory changes nothing of what the old ones hold. -/
lemma agreesOn_create (disk : Disk) (out d : VersionDir) :
    disk.AgreesOn { disk with dirs := out :: disk.dirs } d :=
  ⟨List.mem_cons_of_mem _, fun _ => rfl, rfl⟩

/-- A materialisation into a directory it creates. -/
lemma create_materializeLayers_eq (h : disk.Stacked d newer) (hfresh : out ∉ disk.dirs)
    (writeTombstones : Bool) (htombs : writeTombstones → d.kind ≠ .base) :
    ∃ disk', (do
        let disk ← createVersionDirExclusive disk out
        materializeLayers disk ((d :: newer).map layerOf) out writeTombstones) = .ok disk' ∧
      Materialized disk disk' (d :: newer) out ∧
      (writeTombstones → ∃ hashes, disk'.tombstones ⟨out, tombstonesName⟩ = some hashes ∧
        ∀ a h, h ∈ hashes ↔ h ∈ Shadow.hidden ((d :: newer).map (disk.layerAt a))) := by
  obtain ⟨disk', hok, hmat, hhashes⟩ := materializeLayers_eq
    (h.agrees fun d' _ => agreesOn_create disk out d')
    (fun hmem => hfresh (h.complete out hmem).dir) List.mem_cons_self writeTombstones htombs
  refine ⟨disk', ?_, ⟨hmat.dir, hmat.data, fun d' hd' => ?_⟩, hhashes⟩
  · rw [createVersionDirExclusive, if_neg hfresh]
    exact hok
  · exact (agreesOn_create disk out d').trans (hmat.others d' hd')

/-- What the folded segment and the rest of the disk are after a fold. -/
lemma foldSegments_eq {run : List Nat} {out : Nat} (hne : run ≠ []) (hnodup : run.Nodup)
    (hcomplete : ∀ s ∈ run, disk.Complete ⟨.segment, s⟩)
    (hfresh : (⟨.segment, out⟩ : VersionDir) ∉ disk.dirs) :
    ∃ disk', foldSegments disk run out = .ok disk' ∧
      disk'.Complete ⟨.segment, out⟩ ∧
      (∀ a, (disk'.layerAt a ⟨.segment, out⟩).rows =
        Shadow.view a.infoHash ((run.map (VersionDir.mk .segment)).map (disk.layerAt a))) ∧
      (∀ a h, h ∈ (disk'.layerAt a ⟨.segment, out⟩).hides ↔
        h ∈ Shadow.hidden ((run.map (VersionDir.mk .segment)).map (disk.layerAt a))) ∧
      ∀ d ≠ ⟨.segment, out⟩, disk.AgreesOn disk' d := by
  obtain ⟨s, rest, rfl⟩ := List.exists_cons_of_ne_nil hne
  obtain ⟨hs, hrest⟩ := List.nodup_cons.mp hnodup
  have hstacked := stacked_segments (hcomplete s (by simp))
    (fun s' hs' heq => hs ((VersionDir.mk.inj heq).2 ▸ hs')) hrest
    fun s' hs' => hcomplete s' (List.mem_cons_of_mem _ hs')
  obtain ⟨disk', hok, hmat, hhashes⟩ := create_materializeLayers_eq hstacked hfresh true (by simp)
  obtain ⟨hashes, htombs, hmem⟩ := hhashes rfl
  refine ⟨disk', ?_, ⟨hmat.dir, fun a => by rw [hmat.data]; rfl, fun _ => by rw [htombs]; rfl⟩,
    fun a => ?_, fun a h => ?_, hmat.others⟩
  · have hlayers : (s :: rest).map segmentLayer =
        (⟨.segment, s⟩ :: rest.map (VersionDir.mk .segment)).map layerOf := by
      simp [layerOf, Function.comp_def]
    rw [foldSegments, hlayers]
    exact hok
  · rw [Disk.layerAt, hmat.data]
    rfl
  · rw [Disk.layerAt, htombs]
    exact hmem a h

/-- A fold of sound segments is sound. -/
lemma sound_fold {run : List VersionDir} (hsound : ∀ d ∈ run, disk.Sound d)
    (hrows : ∀ a, (disk'.layerAt a out).rows = Shadow.view a.infoHash (run.map (disk.layerAt a)))
    (hhides : ∀ a h, h ∈ (disk'.layerAt a out).hides ↔
      h ∈ Shadow.hidden (run.map (disk.layerAt a))) : disk'.Sound out := by
  constructor
  · intro r hr
    rw [hrows] at hr
    obtain ⟨l, hl, hrow⟩ := Shadow.mem_rows_of_mem_view hr
    obtain ⟨d, hd, rfl⟩ := List.mem_map.mp hl
    exact (hhides .fact _).mpr (Shadow.mem_hidden.mpr ⟨_, hl, (hsound d hd).cover r hrow⟩)
  · rw [hrows, hrows]
    clear hrows hhides
    -- the rollup and the fact table of a torrent are hidden by the same layers
    induction run with
    | nil => simp
    | cons d run ih =>
      intro row hrow
      rcases Multiset.mem_add.mp hrow with hbottom | hrest
      · obtain ⟨hmem, hhidden⟩ := Shadow.mem_visible.mp hbottom
        obtain ⟨r, hr, heq⟩ := (hsound d (by simp)).rollup row hmem
        refine ⟨r, Multiset.mem_add.mpr (.inl (Shadow.mem_visible.mpr ⟨hr, ?_⟩)), heq⟩
        rw [heq]
        have hsame : Shadow.hidden (run.map (disk.layerAt .fact)) =
            Shadow.hidden (run.map (disk.layerAt .aggTorrentExt)) := by
          simp [Shadow.hidden, Function.comp_def, Disk.layerAt]
        rwa [hsame]
      · obtain ⟨r, hr, heq⟩ := ih (fun d' hd' => hsound d' (List.mem_cons_of_mem _ hd')) row hrest
        exact ⟨r, Multiset.mem_add.mpr (.inr hr), heq⟩

/-- What the merged base and the rest of the disk are after a merge. -/
lemma mergeBase_eq {base out : Nat} {segments : List Nat} (hnodup : segments.Nodup)
    (hbase : disk.Complete ⟨.base, base⟩) (hcomplete : ∀ s ∈ segments, disk.Complete ⟨.segment, s⟩)
    (hfresh : (⟨.base, out⟩ : VersionDir) ∉ disk.dirs) :
    ∃ disk', mergeBase disk base segments out = .ok disk' ∧
      disk'.Complete ⟨.base, out⟩ ∧
      (∀ a, (disk'.layerAt a ⟨.base, out⟩).rows = Shadow.view a.infoHash
        (disk.layerAt a ⟨.base, base⟩ ::
          (segments.map (VersionDir.mk .segment)).map (disk.layerAt a))) ∧
      ∀ d ≠ ⟨.base, out⟩, disk.AgreesOn disk' d := by
  obtain ⟨disk', hok, hmat, -⟩ := create_materializeLayers_eq
    (stacked_segments hbase (by simp) hnodup hcomplete) hfresh false (by simp)
  refine ⟨disk', ?_, ⟨hmat.dir, fun a => by rw [hmat.data]; rfl, fun h => absurd rfl h⟩,
    fun a => ?_, hmat.others⟩
  · have hlayers : baseLayer base :: segments.map segmentLayer =
        (⟨.base, base⟩ :: segments.map (VersionDir.mk .segment)).map layerOf := by
      simp [layerOf, Function.comp_def]
    rw [mergeBase, hlayers]
    exact hok
  · rw [Disk.layerAt, hmat.data]
    rfl

namespace Generation

variable {g : Generation}

lemma mem_dirs : d ∈ g.dirs ↔
    d = ⟨.base, g.base⟩ ∨ (∃ s ∈ g.segments, d = ⟨.segment, s⟩) ∨ d = ⟨.delta, g.delta⟩ := by
  simp [dirs, eq_comm]

lemma loaded_iff : g.Loaded disk ↔
    disk.Complete ⟨.base, g.base⟩ ∧ (∀ s ∈ g.segments, disk.Complete ⟨.segment, s⟩) ∧
      disk.Complete ⟨.delta, g.delta⟩ ∧ g.segments.Nodup := by
  constructor
  · intro h
    exact ⟨h.complete _ (mem_dirs.mpr (.inl rfl)),
      fun s hs => h.complete _ (mem_dirs.mpr (.inr (.inl ⟨s, hs, rfl⟩))),
      h.complete _ (mem_dirs.mpr (.inr (.inr rfl))), h.nodup⟩
  · rintro ⟨hbase, hsegments, hdelta, hnodup⟩
    refine ⟨fun d hd => ?_, hnodup⟩
    rcases mem_dirs.mp hd with rfl | ⟨s, hs, rfl⟩ | rfl
    · exact hbase
    · exact hsegments s hs
    · exact hdelta

/-- **A fold leaves the view and the soundness of the segments as they are.** -/
lemma fold_view (h : g.Loaded disk) (hsound : ∀ s ∈ g.segments, disk.Sound ⟨.segment, s⟩)
    {older run newer : List Nat} (hsplit : g.segments = older ++ (run ++ newer)) (hne : run ≠ [])
    {out : Nat} (hfresh : (⟨.segment, out⟩ : VersionDir) ∉ disk.dirs) :
    ∃ disk', foldSegments disk run out = .ok disk' ∧
      Loaded { g with segments := older ++ out :: newer } disk' ∧
      (∀ s ∈ older ++ out :: newer, disk'.Sound ⟨.segment, s⟩) ∧
      ∀ a, view { g with segments := older ++ out :: newer } disk' a = g.view disk a := by
  obtain ⟨hbase, hsegments, hdelta, hnodup⟩ := loaded_iff.mp h
  rw [hsplit] at hsegments hnodup hsound
  have hrest : ∀ s ∈ older ++ newer, s ∈ older ++ (run ++ newer) := by
    intro s hs
    rcases List.mem_append.mp hs with hs | hs <;> simp [hs]
  have hout : out ∉ older ++ (run ++ newer) := fun hmem => hfresh (hsegments out hmem).dir
  have hnodup' : (older ++ newer).Nodup := hnodup.sublist
    (List.Sublist.append_left (List.sublist_append_right run newer) older)
  obtain ⟨disk', hok, hcomplete, hrows, hhides, hothers⟩ := foldSegments_eq hne
    ((List.nodup_append.mp hnodup).2.1.sublist (List.sublist_append_left run newer))
    (fun s hs => hsegments s (by simp [hs])) hfresh
  have hagree : ∀ s ∈ older ++ (run ++ newer), disk.AgreesOn disk' ⟨.segment, s⟩ := fun s hs =>
    hothers _ fun heq => hout ((VersionDir.mk.inj heq).2 ▸ hs)
  have hmem : ∀ s ∈ older ++ out :: newer, s = out ∨ s ∈ older ++ newer := by
    intro s hs
    simp only [List.mem_append, List.mem_cons] at hs ⊢
    tauto
  refine ⟨disk', hok, loaded_iff.mpr ⟨(hothers _ (by simp)).complete hbase, ?_,
    (hothers _ (by simp)).complete hdelta, ?_⟩, ?_, ?_⟩
  · intro s hs
    rcases hmem s hs with rfl | hs
    · exact hcomplete
    · exact (hagree s (hrest s hs)).complete (hsegments s (hrest s hs))
  · exact (List.nodup_middle.mpr (List.nodup_cons.mpr ⟨fun hmem => hout (hrest out hmem), hnodup'⟩))
  · intro s hs
    rcases hmem s hs with rfl | hs
    · refine sound_fold (fun d hd => ?_) hrows hhides
      obtain ⟨s', hs', rfl⟩ := List.mem_map.mp hd
      exact hsound s' (by simp [hs'])
    · exact (hagree s (hrest s hs)).sound (hsound s (hrest s hs))
  · intro a
    -- below and above the run, the two disks hold the same layers
    have hlayers : ∀ segments : List Nat, segments ⊆ older ++ (run ++ newer) →
        (segments.map (VersionDir.mk .segment)).map (disk'.layerAt a) =
          (segments.map (VersionDir.mk .segment)).map (disk.layerAt a) := by
      intro segments hsub
      refine map_layerAt_congr (fun d hd => ?_) a
      obtain ⟨s, hs, rfl⟩ := List.mem_map.mp hd
      exact hagree s (hsub hs)
    have hreplace := Shadow.view_replace (hrows a) (hhides a)
      (disk.layerAt a ⟨.base, g.base⟩ :: (older.map (VersionDir.mk .segment)).map (disk.layerAt a))
      ((newer.map (VersionDir.mk .segment)).map (disk.layerAt a) ++
        [disk.layerAt a ⟨.delta, g.delta⟩])
    have holder := hlayers older fun s hs => by simp [hs]
    have hnewer := hlayers newer fun s hs => by simp [hs]
    have hbaseAt := (hothers ⟨.base, g.base⟩ (by simp)).layerAt a
    have hdeltaAt := (hothers ⟨.delta, g.delta⟩ (by simp)).layerAt a
    simpa only [view, dirs, hsplit, List.map_cons, List.map_append, List.map_nil, List.cons_append,
      List.append_assoc, holder, hnewer, hbaseAt, hdeltaAt] using hreplace

/-- **A merge into the base leaves the view as it is**: with the manifest that
drops the merged segments, and before that with the one that still lists them.
Segments sealed since then stay on top. -/
lemma merge_view (h : g.Loaded disk) (hsound : ∀ s ∈ g.segments, disk.Sound ⟨.segment, s⟩)
    {merged newer : List Nat} (hsplit : g.segments = merged ++ newer)
    {out : Nat} (hfresh : (⟨.base, out⟩ : VersionDir) ∉ disk.dirs) :
    ∃ disk', mergeBase disk g.base merged out = .ok disk' ∧
      Loaded { g with base := out } disk' ∧
      Loaded { g with base := out, segments := newer } disk' ∧
      (∀ s ∈ g.segments, disk'.Sound ⟨.segment, s⟩) ∧
      (∀ a, view { g with base := out } disk' a = g.view disk a) ∧
      ∀ a, view { g with base := out, segments := newer } disk' a = g.view disk a := by
  obtain ⟨hbase, hsegments, hdelta, hnodup⟩ := loaded_iff.mp h
  obtain ⟨disk', hok, hcomplete, hrows, hothers⟩ := mergeBase_eq
    ((hsplit ▸ hnodup).sublist (List.sublist_append_left merged newer)) hbase
    (fun s hs => hsegments s (by simp [hsplit, hs])) hfresh
  have hagree : ∀ s, disk.AgreesOn disk' ⟨.segment, s⟩ := fun s => hothers _ (by simp)
  have hsegments' : ∀ s ∈ g.segments, disk'.Complete ⟨.segment, s⟩ := fun s hs =>
    (hagree s).complete (hsegments s hs)
  have hdelta' := (hothers ⟨.delta, g.delta⟩ (by simp)).complete hdelta
  have hlayers : ∀ (a : LayeredArtifact) (segments : List Nat),
      (segments.map (VersionDir.mk .segment)).map (disk'.layerAt a) =
        (segments.map (VersionDir.mk .segment)).map (disk.layerAt a) := by
    intro a segments
    refine map_layerAt_congr (fun d hd => ?_) a
    obtain ⟨s, _, rfl⟩ := List.mem_map.mp hd
    exact hagree s
  have hdeltaAt := (hothers ⟨.delta, g.delta⟩ (by simp)).layerAt
  refine ⟨disk', hok, loaded_iff.mpr ⟨hcomplete, hsegments', hdelta', hnodup⟩,
    loaded_iff.mpr ⟨hcomplete, fun s hs => hsegments' s (by simp [hsplit, hs]), hdelta',
      (hsplit ▸ hnodup).sublist (List.sublist_append_right merged newer)⟩,
    fun s hs => (hagree s).sound (hsound s hs), fun a => ?_, fun a => ?_⟩
  · have hself : ∀ l ∈ (merged.map (VersionDir.mk .segment)).map (disk.layerAt a),
        l.SelfHiding a.infoHash := by
      intro l hl
      obtain ⟨d, hd, rfl⟩ := List.mem_map.mp hl
      obtain ⟨s, hs, rfl⟩ := List.mem_map.mp hd
      exact (hsound s (by simp [hsplit, hs])).selfHiding a
    have hoverlay := Shadow.view_overlay (hrows a) hself
      ((newer.map (VersionDir.mk .segment)).map (disk.layerAt a) ++
        [disk.layerAt a ⟨.delta, g.delta⟩])
    simpa only [view, dirs, hsplit, List.map_cons, List.map_append, List.map_nil,
      List.append_assoc, hlayers, hdeltaAt] using hoverlay
  · have habsorb := Shadow.view_absorb (hrows a)
      ((newer.map (VersionDir.mk .segment)).map (disk.layerAt a) ++
        [disk.layerAt a ⟨.delta, g.delta⟩])
    simpa only [view, dirs, hsplit, List.map_cons, List.map_append, List.map_nil, List.cons_append,
      List.append_assoc, hlayers, hdeltaAt] using habsorb

/-- **Compaction keeps what a generation shows.**  On a generation whose segments
are sound, the search service reads the view.  Folding any run of segments into a
fresh one succeeds and the folded generation reads the same, for the fact table
and the rollup.  So does merging the base with the segments up to any point into a
fresh base, both with the manifest that drops them and with the old one. -/
theorem read_of_compaction (h : g.Loaded disk)
    (hsound : ∀ s ∈ g.segments, disk.Sound ⟨.segment, s⟩) :
    (∀ a, g.read disk a = .ok (g.view disk a)) ∧
    (∀ older run newer out, g.segments = older ++ (run ++ newer) → run ≠ [] →
      (⟨.segment, out⟩ : VersionDir) ∉ disk.dirs →
      ∃ disk', foldSegments disk run out = .ok disk' ∧
        (∀ s ∈ older ++ out :: newer, disk'.Sound ⟨.segment, s⟩) ∧
        ∀ a, read { g with segments := older ++ out :: newer } disk' a =
          .ok (g.view disk a)) ∧
    ∀ merged newer out, g.segments = merged ++ newer →
      (⟨.base, out⟩ : VersionDir) ∉ disk.dirs →
      ∃ disk', mergeBase disk g.base merged out = .ok disk' ∧
        (∀ s ∈ g.segments, disk'.Sound ⟨.segment, s⟩) ∧
        (∀ a, read { g with base := out } disk' a = .ok (g.view disk a)) ∧
        ∀ a, read { g with base := out, segments := newer } disk' a = .ok (g.view disk a) := by
  refine ⟨fun a => read_eq_view h, ?_, ?_⟩
  · intro older run newer out hsplit hne hfresh
    obtain ⟨disk', hok, hloaded, hsound', hview⟩ := fold_view h hsound hsplit hne hfresh
    exact ⟨disk', hok, hsound', fun a => by rw [read_eq_view hloaded, hview]⟩
  · intro merged newer out hsplit hfresh
    obtain ⟨disk', hok, hbefore, hafter, hsound', hviewBefore, hviewAfter⟩ :=
      merge_view h hsound hsplit hfresh
    exact ⟨disk', hok, hsound', fun a => by rw [read_eq_view hbefore, hviewBefore],
      fun a => by rw [read_eq_view hafter, hviewAfter]⟩

/-- A base with two torrents, a segment with a new version of the first, a segment
that deletes the second, and an empty delta. -/
def recrawlDelete : Disk where
  dirs := [⟨.base, 1⟩, ⟨.segment, 10⟩, ⟨.segment, 20⟩, ⟨.delta, 1⟩]
  data a p :=
    let rows : List FileRow := match p.dir with
      | ⟨.base, 1⟩ =>
        [⟨"aa", 0, "old.mkv", some "mkv", 1, false⟩, ⟨"bb", 0, "b.srt", some "srt", 2, false⟩]
      | ⟨.segment, 10⟩ => [⟨"aa", 0, "new.mkv", some "mkv", 3, false⟩]
      | _ => []
    match a with
    | .fact => some (rows : Multiset FileRow)
    | .aggTorrentExt =>
      some ((rows : Multiset FileRow).map fun r =>
        ⟨r.infoHash, r.extension, ⟨1, r.size, r.size⟩⟩)
  tombstones p := some <| match p.dir with
    | ⟨.segment, 10⟩ => {"aa"}
    | ⟨.segment, 20⟩ => {"bb"}
    | _ => 0

lemma complete_recrawlDelete (hd : d ∈ recrawlDelete.dirs) : recrawlDelete.Complete d :=
  ⟨hd, fun a => by cases a <;> rfl, fun _ => rfl⟩

lemma sound_recrawlDelete {s : Nat} (hs : s = 10 ∨ s = 20) : recrawlDelete.Sound ⟨.segment, s⟩ := by
  constructor
  · unfold Shadow.Layer.SelfHiding
    rcases hs with rfl | rfl <;> decide
  · intro a ha
    have hrows : (recrawlDelete.layerAt .aggTorrentExt ⟨.segment, s⟩).rows =
        (recrawlDelete.layerAt .fact ⟨.segment, s⟩).rows.map fun r =>
          ⟨r.infoHash, r.extension, ⟨1, r.size, r.size⟩⟩ := rfl
    rw [hrows] at ha
    obtain ⟨r, hr, rfl⟩ := Multiset.mem_map.mp ha
    exact ⟨r, hr, rfl⟩

theorem read_of_compaction_recrawlDelete :
    (∃ disk', foldSegments recrawlDelete [10, 20] 30 = .ok disk' ∧
      (Generation.mk 1 [30] 1).read disk' .fact =
        .ok {⟨"aa", 0, "new.mkv", some "mkv", 3, false⟩}) ∧
    ∃ disk', mergeBase recrawlDelete 1 [10, 20] 2 = .ok disk' ∧
      (Generation.mk 2 [10, 20] 1).read disk' .aggTorrentExt =
        .ok {⟨"aa", some "mkv", ⟨1, 3, 3⟩⟩} := by
  have hloaded : (Generation.mk 1 [10, 20] 1).Loaded recrawlDelete :=
    ⟨fun d hd => complete_recrawlDelete hd, by decide⟩
  obtain ⟨-, hfold, hmerge⟩ :=
    read_of_compaction hloaded fun s hs => sound_recrawlDelete (by simpa using hs)
  obtain ⟨disk₁, hok₁, -, hread₁⟩ := hfold [] [10, 20] [] 30 rfl (by simp) (by decide)
  obtain ⟨disk₂, hok₂, -, hread₂, -⟩ := hmerge [10, 20] [] 2 rfl (by decide)
  refine ⟨⟨disk₁, hok₁, ?_⟩, disk₂, hok₂, ?_⟩
  · exact (hread₁ .fact).trans (congrArg Except.ok (by decide))
  · exact (hread₂ .aggTorrentExt).trans (congrArg Except.ok (by decide))

end Generation

end Bitmagnet.Parquet
