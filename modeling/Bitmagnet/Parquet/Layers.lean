import Mathlib.Algebra.Order.Group.Nat
import Mathlib.Data.Multiset.AddSub
import Mathlib.Data.Multiset.Dedup
import Mathlib.Logic.Function.Basic
import Bitmagnet.Library.Shadow

/-!
# Layered artifacts: the queries that reconcile them

The model of what reads and what rewrites the artifacts of a generation:

* `layered_select_sql`, `tombstone_union_select_sql` and `materialize_layers` of
  `seal.rs`, which write the artifacts of a folded segment or a merged base;
* `build_layer_set` of `generation.rs` and the two table expressions of `sql.rs`
  in the search service, which read a generation.

A query is modelled by its result: a multiset of rows, or an error.  A scan of
several files tags each row with its file, and a `CASE` on the file picks the
layer's rank; a file that no arm names makes the query fail, as it does in the
source.  The two table expressions (`files` and `att`) differ only in the
artifact they read, and so do the two folded artifacts, so each is one definition
over `LayeredArtifact`.

A file's path is its version directory and its name.  That different directories
and names give different texts is part of this representation.
-/

namespace Bitmagnet.Parquet

/-! ## Rows -/

/-- `FileRow`. -/
structure FileRow where
  infoHash : String
  fileIndex : Nat
  path : String
  extension : Option String
  size : Nat
  isPadding : Bool
deriving DecidableEq

/-- `Agg`. -/
structure Agg where
  fileCount : Nat
  totalSize : Nat
  maxSize : Nat
deriving DecidableEq

/-- A row of `agg_torrent_ext`. -/
structure AggRow where
  infoHash : String
  extension : Option String
  agg : Agg
deriving DecidableEq

/-! ## Files -/

/-- `Kind`. -/
inductive Kind
  | base
  | delta
  | segment
deriving DecidableEq

/-- `<root>/<kind>/v<version>`. -/
structure VersionDir where
  kind : Kind
  version : Nat
deriving DecidableEq

/-- A file of a version directory. -/
structure Path where
  dir : VersionDir
  name : String
deriving DecidableEq

/-- `LayeredArtifact`. -/
inductive LayeredArtifact
  | fact
  | aggTorrentExt
deriving DecidableEq

namespace LayeredArtifact

/-- The rows of an artifact. -/
abbrev Row : LayeredArtifact → Type
  | fact => FileRow
  | aggTorrentExt => AggRow

/-- The `info_hash` column. -/
def infoHash : (a : LayeredArtifact) → a.Row → String
  | fact => FileRow.infoHash
  | aggTorrentExt => AggRow.infoHash

/-- `artifact::FACT` and `artifact::AGG_TORRENT_EXT`. -/
def fileName : LayeredArtifact → String
  | fact => "fact.parquet"
  | aggTorrentExt => "agg_torrent_ext.parquet"

end LayeredArtifact

/-- `artifact::TOMBSTONES`. -/
def tombstonesName : String := "tombstones.parquet"

/-- The Parquet files of the layout, with the version directories there are. -/
structure Disk where
  dirs : List VersionDir
  data : (a : LayeredArtifact) → Path → Option (Multiset a.Row)
  tombstones : Path → Option (Multiset String)

namespace Disk

def writeData (disk : Disk) (a : LayeredArtifact) (path : Path) (rows : Multiset a.Row) : Disk :=
  { disk with
    data := Function.update disk.data a (Function.update (disk.data a) path (some rows)) }

def writeTombstones (disk : Disk) (path : Path) (hashes : Multiset String) : Disk :=
  { disk with tombstones := Function.update disk.tombstones path (some hashes) }

end Disk

/-- `FoldLayer`, and `LayerPaths` of the search service. -/
structure LayerPaths where
  fact : Path
  aggTorrentExt : Path
  tombstones : Option Path

/-- The file of a layer that holds the artifact. -/
def LayerPaths.file (l : LayerPaths) : LayeredArtifact → Path
  | .fact => l.fact
  | .aggTorrentExt => l.aggTorrentExt

/-- The layer of a base directory. -/
def baseLayer (version : Nat) : LayerPaths where
  fact := ⟨⟨.base, version⟩, LayeredArtifact.fact.fileName⟩
  aggTorrentExt := ⟨⟨.base, version⟩, LayeredArtifact.aggTorrentExt.fileName⟩
  tombstones := none

/-- A layer with tombstones. -/
def tombstonedLayer (kind : Kind) (version : Nat) : LayerPaths where
  fact := ⟨⟨kind, version⟩, LayeredArtifact.fact.fileName⟩
  aggTorrentExt := ⟨⟨kind, version⟩, LayeredArtifact.aggTorrentExt.fileName⟩
  tombstones := some ⟨⟨kind, version⟩, tombstonesName⟩

/-- `segment_layer`. -/
def segmentLayer (version : Nat) : LayerPaths := tombstonedLayer .segment version

/-- The layer of a delta directory. -/
def deltaLayer (version : Nat) : LayerPaths := tombstonedLayer .delta version

/-! ## Queries -/

/-- Why a query or a rewrite fails. -/
inductive QueryError
  | noLayers
  | noTombstoneLayer
  | missingFile (path : Path)
  | unmappedLayerFile
  | missingSegment (version : Nat)
  | dirExists (dir : VersionDir)
  | panicked
deriving DecidableEq

/-- `read_parquet` of a list of files, each row with its file. -/
def readParquet {R : Type} (table : Path → Option (Multiset R)) :
    List Path → Except QueryError (Multiset (Path × R))
  | [] => .ok 0
  | path :: paths =>
    match table path with
    | none => .error (.missingFile path)
    | some rows =>
      match readParquet table paths with
      | .error e => .error e
      | .ok rest => .ok (rows.map (Prod.mk path) + rest)

/-- `layer_rank`: the first arm of the `CASE` that names the file. -/
def layerRank (files : List (Nat × Path)) (filename : Path) : Option Nat :=
  (files.find? fun f => f.2 = filename).map Prod.fst

/-- A scan that replaces each row's file by its rank. -/
def rankedScan {R : Type} (table : Path → Option (Multiset R)) (files : List (Nat × Path)) :
    Except QueryError (Multiset (Nat × R)) :=
  match readParquet table (files.map Prod.snd) with
  | .error e => .error e
  | .ok rows =>
    if ∀ row ∈ rows, (layerRank files row.1).isSome then
      .ok (rows.map fun row => ((layerRank files row.1).getD 0, row.2))
    else .error .unmappedLayerFile

/-- The anti-join of ranked rows with ranked tombstones. -/
def antiJoinScan (disk : Disk) (a : LayeredArtifact) (data tombstones : List (Nat × Path)) :
    Except QueryError (Multiset a.Row) := do
  let rows ← rankedScan (disk.data a) data
  let hashes ← rankedScan disk.tombstones tombstones
  return (Shadow.antiJoin a.infoHash rows hashes).map Prod.snd

/-- The artifact's files with their ranks. -/
def rankedFiles (a : LayeredArtifact) (layers : List LayerPaths) : List (Nat × Path) :=
  layers.zipIdx.map fun l => (l.2, l.1.file a)

/-- The rows `layered_select_sql` selects. -/
def layeredSelect (disk : Disk) (layers : List LayerPaths) (a : LayeredArtifact) :
    Except QueryError (Multiset a.Row) :=
  if layers.isEmpty then .error .noLayers
  else
    let data := rankedFiles a layers
    let tombstones :=
      (layers.zipIdx.drop 1).filterMap fun l => l.1.tombstones.map fun t => (l.2, t)
    if tombstones.isEmpty then do
      let rows ← readParquet (disk.data a) (data.map Prod.snd)
      return rows.map Prod.snd
    else antiJoinScan disk a data tombstones

/-- The hashes `tombstone_union_select_sql` selects. -/
def tombstoneUnionSelect (disk : Disk) (layers : List LayerPaths) :
    Except QueryError (Multiset String) :=
  let tombs := layers.filterMap LayerPaths.tombstones
  if tombs.isEmpty then .error .noTombstoneLayer
  else do
    let rows ← readParquet disk.tombstones tombs
    return (rows.map Prod.snd).dedup

/-- `materialize_layers`. -/
def materializeLayers (disk : Disk) (layers : List LayerPaths) (outDir : VersionDir)
    (writeTombstones : Bool) : Except QueryError Disk := do
  let rows ← layeredSelect disk layers .fact
  let disk := disk.writeData .fact ⟨outDir, LayeredArtifact.fact.fileName⟩ rows
  let rows ← layeredSelect disk layers .aggTorrentExt
  let disk := disk.writeData .aggTorrentExt ⟨outDir, LayeredArtifact.aggTorrentExt.fileName⟩ rows
  if writeTombstones then
    let hashes ← tombstoneUnionSelect disk layers
    return disk.writeTombstones ⟨outDir, tombstonesName⟩ hashes
  else return disk

/-- `create_version_dir_exclusive`. -/
def createVersionDirExclusive (disk : Disk) (dir : VersionDir) : Except QueryError Disk :=
  if dir ∈ disk.dirs then .error (.dirExists dir)
  else .ok { disk with dirs := dir :: disk.dirs }

/-- What `run_fold` does to the files: a run of segments into a new segment. -/
def foldSegments (disk : Disk) (run : List Nat) (out : Nat) : Except QueryError Disk := do
  let disk ← createVersionDirExclusive disk ⟨.segment, out⟩
  materializeLayers disk (run.map segmentLayer) ⟨.segment, out⟩ true

/-- What `run_merge_base` does to the files: the base and segments into a new
base. -/
def mergeBase (disk : Disk) (base : Nat) (segments : List Nat) (out : Nat) :
    Except QueryError Disk := do
  let disk ← createVersionDirExclusive disk ⟨.base, out⟩
  materializeLayers disk (baseLayer base :: segments.map segmentLayer) ⟨.base, out⟩ false

/-! ## The search service -/

/-- The versions a resolve finds: the current base, the manifest's segments, the
current delta. -/
structure Generation where
  base : Nat
  segments : List Nat
  delta : Nat

/-- `build_layer_set`. -/
def buildLayerSet (disk : Disk) (g : Generation) : Except QueryError (List LayerPaths) :=
  match g.segments.find? fun s => (⟨.segment, s⟩ : VersionDir) ∉ disk.dirs with
  | some version => .error (.missingSegment version)
  | none => .ok (baseLayer g.base :: g.segments.map segmentLayer ++ [deltaLayer g.delta])

/-- `legacy_pair`. -/
def legacyPair : List LayerPaths → Option (LayerPaths × LayerPaths × Path)
  | [base, delta] =>
    match base.tombstones, delta.tombstones with
    | none, some tombstones => some (base, delta, tombstones)
    | _, _ => none
  | _ => none

/-- `legacy_files_cte` and `legacy_att_cte`. -/
def legacyCte (disk : Disk) (a : LayeredArtifact) (base delta : LayerPaths) (tombstones : Path) :
    Except QueryError (Multiset a.Row) := do
  let baseRows ← readParquet (disk.data a) [base.file a]
  let hashes ← readParquet disk.tombstones [tombstones]
  let deltaRows ← readParquet (disk.data a) [delta.file a]
  return (baseRows.map Prod.snd).filter (fun b => ∀ t ∈ hashes, t.2 ≠ a.infoHash b) +
    deltaRows.map Prod.snd

/-- `layered_cte`; the `assert` and the `expect` in it are `panicked`. -/
def layeredCte (disk : Disk) (a : LayeredArtifact) (layers : List LayerPaths) :
    Except QueryError (Multiset a.Row) :=
  if layers.length < 2 then .error .panicked
  else
    match (layers.zipIdx.drop 1).mapM fun l => l.1.tombstones.map fun t => (l.2, t) with
    | none => .error .panicked
    | some tombstones => antiJoinScan disk a (rankedFiles a layers) tombstones

/-- `files_cte` and `att_cte`. -/
def cte (disk : Disk) (a : LayeredArtifact) (layers : List LayerPaths) :
    Except QueryError (Multiset a.Row) :=
  match legacyPair layers with
  | some (base, delta, tombstones) => legacyCte disk a base delta tombstones
  | none => layeredCte disk a layers

/-- The rows a query sees in a generation. -/
def Generation.read (g : Generation) (disk : Disk) (a : LayeredArtifact) :
    Except QueryError (Multiset a.Row) := do
  let layers ← buildLayerSet disk g
  cte disk a layers

end Bitmagnet.Parquet
