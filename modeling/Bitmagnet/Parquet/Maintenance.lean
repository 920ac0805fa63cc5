import Bitmagnet.Library.Machine
import Bitmagnet.Parquet.Manifest

/-!
# Concurrent maintenance of one layout

The model of `run_seal`, `run_fold` and `run_merge_base` in `seal.rs`, as far as
they read and change the layout: the manifest on disk, the segment and base
version directories, and the pointer to the current base.

Processes run these operations side by side.  What one of them does between two
looks at the layout is one value of `Op`, which holds exactly what the source has
in its local variables there, and `Layout.advance` takes an operation to its next
such point.  Building an artifact changes nothing of the layout but can fail, so
an operation may stop at any point (`Event.crash`).  The watermark is left out:
no operation modelled here reads it.  A directory is created exclusively and for
one entry, which `segmentDirs` records; `sealed` is a history variable with every
window a seal has published.

Version numbers are `u64` in the source.  The search for a free one is written
here without the saturation at the largest of them.
-/

namespace Bitmagnet.Parquet

/-- `MANIFEST_CAS_ATTEMPTS`. -/
def manifestCasAttempts : Nat := 3

/-- The layout's directory tree. -/
structure Layout where
  disk : Option Manifest
  segmentDirs : List SegmentEntry
  baseDirs : List Nat
  currentBase : Option Nat
  sealed : List SegmentEntry
deriving DecidableEq

/-- Why an operation gives up. -/
inductive MaintenanceError
  | staleSealSince (since manifestCut : Int)
  | manifest (error : ManifestError)
  | cas (error : CasError)
  | negativeWindowEnd (windowEnd : Int)
  | versionsExhausted
  | dirExists (version : Nat)
  | noCurrentBase
  | tierNotContiguous (tier : Nat)
  | tierOverflow (tier : Nat)
  | invalidReplacement
  | noFreeVersionBetween (lower upper : Nat)
  | manifestDisappeared
  | cannotPreserve (fromCut cut : Int)
  | crashed
deriving DecidableEq

/-! ## Versions -/

/-- `segment_version_exists`. -/
def Layout.segmentVersionExists (l : Layout) (version : Nat) : Bool :=
  l.segmentDirs.any fun s => s.version = version

/-- The first version from `candidate` on that is not taken; `tries` bounds the
search. -/
def firstFree (taken : Nat → Bool) : Nat → Nat → Option Nat
  | 0, _ => none
  | tries + 1, candidate =>
    if taken candidate then firstFree taken tries (candidate + 1) else some candidate

/-- `choose_seal_segment_version`. -/
def Layout.chooseSealSegmentVersion (l : Layout) (manifest : Option Manifest) (windowEnd : Int) :
    Except MaintenanceError Nat :=
  if windowEnd < 0 then .error (.negativeWindowEnd windowEnd)
  else
    let referenced := (manifest.map Manifest.segments).getD []
    let taken version :=
      l.segmentVersionExists version || referenced.any fun s => s.version = version
    match firstFree taken (l.segmentDirs.length + referenced.length + 1) windowEnd.toNat with
    | some version => if version < 2 ^ 64 then .ok version else .error .versionsExhausted
    | none => .error .versionsExhausted

/-- `choose_replacement_version`. -/
def Layout.chooseReplacementVersion (l : Layout) (manifest : Manifest) (start count preferred : Nat) :
    Except MaintenanceError Nat :=
  let lower :=
    if start = 0 then manifest.base.version
    else ((manifest.segments[start - 1]?).map SegmentEntry.version).getD manifest.base.version
  match manifest.segments[start + count - 1]?, manifest.segments[start + count]? with
  | none, _ => .error .invalidReplacement
  | some lastInput, some upper =>
    let candidate := max (lastInput.version + 1) (lower + 1)
    let candidate := if upper.version ≤ candidate then lower + 1 else candidate
    match firstFree l.segmentVersionExists (l.segmentDirs.length + 1) candidate with
    | some version =>
      if version < upper.version then .ok version
      else .error (.noFreeVersionBetween lower upper.version)
    | none => .error .versionsExhausted
  | some lastInput, none =>
    match firstFree l.segmentVersionExists (l.segmentDirs.length + 1)
        (max (max preferred (lastInput.version + 1)) (lower + 1)) with
    | some version => .ok version
    | none => .error .versionsExhausted

/-- `choose_base_version`. -/
def Layout.chooseBaseVersion (l : Layout) (preferred : Nat) : Except MaintenanceError Nat :=
  let candidate := match l.currentBase with
    | some current => max preferred (current + 1)
    | none => preferred
  match firstFree (fun version => l.baseDirs.contains version) (l.baseDirs.length + 1) candidate with
  | some version => .ok version
  | none => .error .versionsExhausted

/-! ## Manifests the operations build -/

/-- `bootstrap_from_layout`. -/
def Layout.bootstrap (l : Layout) (mver : Nat) (baseCut : Int) : Except MaintenanceError Manifest :=
  match l.currentBase with
  | none => .error .noCurrentBase
  | some version => (Manifest.new mver ⟨version, baseCut⟩ []).mapError .manifest

/-- `append_segment`. -/
def appendSegment (manifest : Manifest) (segment : SegmentEntry) :
    Except MaintenanceError Manifest :=
  (Manifest.new (manifest.mver + 1) manifest.base (manifest.segments ++ [segment])).mapError
    .manifest

/-- `ensure_manifest_cut_matches_since`. -/
def Layout.ensureManifestCutMatchesSince (l : Layout) (since : Int) :
    Except MaintenanceError (Option Manifest) :=
  match l.disk with
  | none => .ok none
  | some manifest =>
    if manifest.cut ≠ since then .error (.staleSealSince since manifest.cut)
    else .ok (some manifest)

/-- `should_skip_seal`. -/
def shouldSkipSeal (changedTorrents minTorrents : Nat) (lagSecs maxLagSecs : Int) : Bool :=
  changedTorrents < minTorrents ∧ lagSecs < maxLagSecs

/-- `select_tier_run`: where the run of a tier starts and how long it is. -/
def selectTierRun (manifest : Manifest) (tier : Nat) :
    Except MaintenanceError (Option (Nat × Nat)) :=
  let indexes := manifest.segments.zipIdx.filterMap fun (s, i) =>
    if s.tier = tier then some i else none
  match indexes.head?, indexes.getLast? with
  | some first, some last =>
    if indexes.length < 2 then .ok none
    else if last + 1 - first ≠ indexes.length then .error (.tierNotContiguous tier)
    else .ok (some (first, indexes.length))
  | _, _ => .ok none

/-- `replace_segment_run`. -/
def replaceSegmentRun (manifest : Manifest) (start count : Nat) (output : SegmentEntry) :
    Except MaintenanceError Manifest :=
  if count = 0 ∨ manifest.segments.length < start + count then .error .invalidReplacement
  else
    (Manifest.new (manifest.mver + 1) manifest.base
      (manifest.segments.take start ++ [output] ++ manifest.segments.drop (start + count))).mapError
      .manifest

/-- `merged_base_entry`. -/
def mergedBaseEntry (manifest : Manifest) (version : Nat) : BaseEntry := ⟨version, manifest.cut⟩

/-- `merge_base_retry_manifest`: the new base over whatever segments of the
current manifest were not merged. -/
def mergeBaseRetryManifest (current : Manifest) (nextBase : BaseEntry)
    (mergedInputVersions : List Nat) : Except MaintenanceError Manifest :=
  let preserved := current.segments.filter fun s => !mergedInputVersions.contains s.version
  let next := (Manifest.new (current.mver + 1) nextBase preserved).mapError .manifest
  match preserved.head? with
  | some first =>
    if first.fromCut ≠ nextBase.cut then .error (.cannotPreserve first.fromCut nextBase.cut)
    else next
  | none => next

/-! ## Operations between two looks at the layout -/

/-- What a process asks for. -/
inductive Request
  | seal (since windowEnd : Int) (minTorrents : Nat) (maxLagSecs : Int)
  | fold (tier preferredVersion : Nat)
  | mergeBase (preferredVersion : Nat)
deriving DecidableEq

/-- An operation, by what it does next. -/
inductive Op
  | sealCheck (since windowEnd : Int) (minTorrents : Nat) (maxLagSecs : Int)
  | sealRecheck (since windowEnd : Int)
  | sealCreateDir (segment : SegmentEntry)
  | sealRead (segment : SegmentEntry) (attempt : Nat)
  | sealCas (segment : SegmentEntry) (attempt : Nat) (expectedMver : Option Nat) (next : Manifest)
  | foldRead (tier preferredVersion : Nat)
  | foldCreateDir (manifest : Manifest) (start count : Nat) (output : SegmentEntry)
  | foldCas (manifest : Manifest) (start count : Nat) (output : SegmentEntry)
  | mergeRead (preferredVersion : Nat)
  | mergeCreateDir (manifest : Manifest) (version : Nat)
  | mergePublish (manifest : Manifest) (version : Nat)
  | mergeCas (attempt : Nat) (started : Manifest) (nextBase : BaseEntry)
      (expectedMver : Option Nat) (next : Manifest)
  | mergeRetry (attempt : Nat) (started : Manifest) (nextBase : BaseEntry)
  | done
  | failed (error : MaintenanceError)
deriving DecidableEq

/-- The operation a request starts. -/
def Request.op : Request → Op
  | .seal since windowEnd minTorrents maxLagSecs =>
    .sealCheck since windowEnd minTorrents maxLagSecs
  | .fold tier preferredVersion => .foldRead tier preferredVersion
  | .mergeBase preferredVersion => .mergeRead preferredVersion

/-- `run_fold` up to the directory it creates. -/
def Layout.planFold (l : Layout) (manifest : Manifest) (tier preferredVersion : Nat) :
    Except MaintenanceError Op :=
  match selectTierRun manifest tier with
  | .error e => .error e
  | .ok none => .ok .done
  | .ok (some (start, count)) =>
    let inputs := (manifest.segments.drop start).take count
    match l.chooseReplacementVersion manifest start count preferredVersion,
        inputs.head?, inputs.getLast? with
    | .error e, _, _ => .error e
    | .ok version, some first, some last =>
      if tier < 255 then
        .ok (.foldCreateDir manifest start count ⟨version, first.fromCut, last.toCut, tier + 1⟩)
      else .error (.tierOverflow tier)
    | .ok _, _, _ => .error .invalidReplacement

/-- One step of an operation on the layout.  `changed` is the number of changed
torrents the low-volume guard of a seal counts in the database. -/
def Layout.advance (l : Layout) (changed : Nat) : Op → Layout × Op
  | .sealCheck since windowEnd minTorrents maxLagSecs =>
    match l.ensureManifestCutMatchesSince since with
    | .error e => (l, .failed e)
    | .ok _ =>
      if windowEnd ≤ since then (l, .done)
      else if windowEnd - since < maxLagSecs ∧
          shouldSkipSeal changed minTorrents (windowEnd - since) maxLagSecs then (l, .done)
      else (l, .sealRecheck since windowEnd)
  | .sealRecheck since windowEnd =>
    match l.ensureManifestCutMatchesSince since with
    | .error e => (l, .failed e)
    | .ok manifest =>
      match l.chooseSealSegmentVersion manifest windowEnd with
      | .error e => (l, .failed e)
      | .ok version => (l, .sealCreateDir ⟨version, since, windowEnd, 0⟩)
  | .sealCreateDir segment =>
    if l.segmentVersionExists segment.version then (l, .failed (.dirExists segment.version))
    else ({ l with segmentDirs := segment :: l.segmentDirs }, .sealRead segment 1)
  | .sealRead segment attempt =>
    let base : Except MaintenanceError Manifest := match l.disk with
      | some manifest => .ok manifest
      | none => l.bootstrap 0 segment.fromCut
    match base.bind (appendSegment · segment) with
    | .error e => (l, .failed e)
    | .ok next => (l, .sealCas segment attempt (l.disk.map Manifest.mver) next)
  | .sealCas segment attempt expectedMver next =>
    match writeManifestCas l.disk expectedMver next with
    | .ok written =>
      ({ l with disk := some written, sealed := segment :: l.sealed }, .done)
    | .error (.mverChanged expected actual) =>
      if attempt < manifestCasAttempts then (l, .sealRead segment (attempt + 1))
      else (l, .failed (.cas (.mverChanged expected actual)))
    | .error e => (l, .failed (.cas e))
  | .foldRead tier preferredVersion =>
    match l.disk with
    | none => (l, .done)
    | some manifest =>
      match l.planFold manifest tier preferredVersion with
      | .error e => (l, .failed e)
      | .ok op => (l, op)
  | .foldCreateDir manifest start count output =>
    if l.segmentVersionExists output.version then (l, .failed (.dirExists output.version))
    else
      ({ l with segmentDirs := output :: l.segmentDirs }, .foldCas manifest start count output)
  | .foldCas manifest start count output =>
    match replaceSegmentRun manifest start count output with
    | .error e => (l, .failed e)
    | .ok next =>
      match writeManifestCas l.disk (some manifest.mver) next with
      | .ok written => ({ l with disk := some written }, .done)
      | .error e => (l, .failed (.cas e))
  | .mergeRead preferredVersion =>
    match l.disk with
    | none => (l, .done)
    | some manifest =>
      if manifest.segments = [] then (l, .done)
      else if l.currentBase = none then (l, .failed .noCurrentBase)
      else
        match l.chooseBaseVersion preferredVersion with
        | .error e => (l, .failed e)
        | .ok version => (l, .mergeCreateDir manifest version)
  | .mergeCreateDir manifest version =>
    if l.baseDirs.contains version then (l, .failed (.dirExists version))
    else ({ l with baseDirs := version :: l.baseDirs }, .mergePublish manifest version)
  | .mergePublish manifest version =>
    let nextBase := mergedBaseEntry manifest version
    match Manifest.new (manifest.mver + 1) nextBase [] with
    | .error e => ({ l with currentBase := some version }, .failed (.manifest e))
    | .ok next =>
      ({ l with currentBase := some version },
        .mergeCas 1 manifest nextBase (some manifest.mver) next)
  | .mergeCas attempt started nextBase expectedMver next =>
    match writeManifestCas l.disk expectedMver next with
    | .ok written => ({ l with disk := some written }, .done)
    | .error (.mverChanged expected actual) =>
      if attempt < manifestCasAttempts then (l, .mergeRetry attempt started nextBase)
      else (l, .failed (.cas (.mverChanged expected actual)))
    | .error e => (l, .failed (.cas e))
  | .mergeRetry attempt started nextBase =>
    match l.disk with
    | none => (l, .failed .manifestDisappeared)
    | some current =>
      match mergeBaseRetryManifest current nextBase
          (started.segments.map SegmentEntry.version) with
      | .error e => (l, .failed e)
      | .ok next =>
        (l, .mergeCas (attempt + 1) started nextBase (some current.mver) next)
  | .done => (l, .done)
  | .failed e => (l, .failed e)

/-- The layout and the operations in progress on it. -/
structure Site where
  layout : Layout
  ops : List Op
deriving DecidableEq

/-- What happens next on a site. -/
inductive Event
  | start (request : Request)
  | step (i changed : Nat)
  | crash (i : Nat)
deriving DecidableEq

/-- One event on a site. -/
def Site.step (s : Site) : Event → Option (Unit × Site)
  | .start request => some ((), { s with ops := s.ops ++ [request.op] })
  | .step i changed =>
    s.ops[i]?.map fun op =>
      let r := s.layout.advance changed op
      ((), { s with layout := r.1, ops := s.ops.set i r.2 })
  | .crash i => s.ops[i]?.map fun _ => ((), { s with ops := s.ops.set i (.failed .crashed) })

end Bitmagnet.Parquet
