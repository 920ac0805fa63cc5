import Bitmagnet.Library.Distinct
import Bitmagnet.SearchServe.Refine

/-!
# The path-search composer

`compose_torrent_content` of `composer.rs`: a bounded number of candidates is taken from
the path index, declined where their metadata is oversized, hydrated in chunks from
PostgreSQL, checked one by one against their real file lists, and the page is cut from
what is left.  Any failure before that declines the route; deadlines and budgets cut the
refined list short.

`World` is what a request meets outside: the candidate source, PostgreSQL, the refine
slot and the clock, which is read as the answers to its successive comparisons with the
deadline.  A `Route` is what the function returns together with the variables it has
accumulated by then.  Unsigned integers are numbers with the saturating operations of the
source; the platform is a 64-bit one.
-/

namespace Bitmagnet.SearchServe

/-- `InfoHash`. -/
structure InfoHash where
  bytes : Bytes.Fixed UInt8 20
deriving DecidableEq

/-- `InfoHash::from_slice`. -/
def InfoHash.fromSlice (bytes : List UInt8) : Option InfoHash :=
  (Bytes.toFixed 20 bytes).map InfoHash.mk

/-- `u64::MAX`. -/
def u64Max : Nat := 2 ^ 64 - 1

/-- `u64::saturating_add`. -/
def satAdd (a b : Nat) : Nat := min (a + b) u64Max

/-- `u64::try_from(n).unwrap_or(u64::MAX)`. -/
def saturated (n : Nat) : Nat := min n u64Max

/-- `u64::saturating_mul`. -/
def satMul (a b : Nat) : Nat := min (a * b) u64Max

/-! ## Configuration -/

/-- `ComposerConfig`, as far as this route reads it. -/
structure ComposerConfig where
  minQueryLength : Nat := 3
  oversampleFactor : Nat := 4
  maxCandidates : Nat := 2000
  maxDecodeCandidates : Nat := 200
  maxRefineFiles : Nat := 300000
  refineFileBudget : Nat := 300000
  maxChunkTorrents : Nat := 1024
  retainedFileBudget : Nat := 1000000
  maxRefineDecompressedBytes : Nat := 64 * 1024 * 1024
  refineDecodedByteBudget : Nat := 128 * 1024 * 1024
  retainedByteBudget : Nat := 64 * 1024 * 1024
deriving DecidableEq

/-- A field with zero as "use the default". -/
def orDefault (value fallback : Nat) : Nat := if value = 0 then fallback else value

/-- `ComposerConfig::normalized`. -/
def ComposerConfig.normalized (config : ComposerConfig) : ComposerConfig where
  minQueryLength := config.minQueryLength
  oversampleFactor := max config.oversampleFactor 1
  maxCandidates := orDefault config.maxCandidates 2000
  maxDecodeCandidates := orDefault config.maxDecodeCandidates 200
  maxRefineFiles := orDefault config.maxRefineFiles 300000
  refineFileBudget := orDefault config.refineFileBudget 300000
  maxChunkTorrents := orDefault config.maxChunkTorrents 1024
  retainedFileBudget := orDefault config.retainedFileBudget 1000000
  maxRefineDecompressedBytes := orDefault config.maxRefineDecompressedBytes (64 * 1024 * 1024)
  refineDecodedByteBudget := orDefault config.refineDecodedByteBudget (128 * 1024 * 1024)
  retainedByteBudget := orDefault config.retainedByteBudget (64 * 1024 * 1024)

namespace ComposerConfig

variable (config : ComposerConfig)

/-- `max_candidates_cap`. -/
def maxCandidatesCap : Nat := orDefault config.maxCandidates 2000

/-- `decode_latency_cap`. -/
def decodeLatencyCap : Nat := orDefault config.maxDecodeCandidates 200

/-- `candidate_budget`. -/
def candidateBudget (limit offset : Nat) : Nat :=
  let need := max (satAdd offset limit) 1
  let budget := min (satMul need config.oversampleFactor) config.maxCandidatesCap
  if need ≤ config.decodeLatencyCap ∧ budget > config.decodeLatencyCap then
    config.decodeLatencyCap
  else budget

/-- `effective_file_cap`. -/
def effectiveFileCap : Nat :=
  min (min config.maxRefineFiles config.refineFileBudget) config.retainedFileBudget

/-- `compressed_blob_cap`. -/
def compressedBlobCap : Nat :=
  min config.maxRefineDecompressedBytes config.refineDecodedByteBudget

end ComposerConfig

/-! ## The outside -/

/-- `SearchResultItem`; `row` is what hydration returns beside the torrent. -/
structure SearchResultItem (Blob Row : Type) where
  infoHash : InfoHash
  torrent : Torrent Blob
  refineFiles : List BlobFile
  row : Row
deriving DecidableEq

/-- `RefineMetadata`. -/
structure RefineMetadata where
  fileCount : Option Int := none
  compressedBytes : Option Nat := none
deriving DecidableEq

/-- `PathCandidatesRequest`; the requested order is the source's business. -/
structure PathCandidatesRequest where
  query : Text
  limit : Nat
  oversample : Nat

/-- `PathCandidatesResponse`. -/
structure PathCandidatesResponse where
  candidates : List (List UInt8)
  candidateTotal : Nat

/-- What a hydration statement comes to. -/
inductive Hydration (Blob Row : Type)
  | rows (items : List (SearchResultItem Blob Row))
  | failed
  | deadline

/-- What one request meets outside. -/
structure World (Blob Row Aggregations : Type) where
  casing : Casing
  codec : BlobCodec Blob
  /-- the two readings of the health gate -/
  healthy : Bool
  trustEmpty : Bool
  /-- `path_candidates`; `none` is an error or the deadline -/
  pathCandidates : PathCandidatesRequest → Option PathCandidatesResponse
  /-- `refine_metadata`; `none` is an error or the deadline -/
  refineMetadata : List InfoHash → Option (InfoHash → Option RefineMetadata)
  /-- whether a refine slot is had in time -/
  slot : Bool
  /-- `candidate_torrent_content` -/
  hydrate : List InfoHash → Hydration Blob Row
  /-- of two statements that both fail, whether the first fails first -/
  leftFailsFirst : List InfoHash → List InfoHash → Bool
  /-- the answers of the clock to `Instant::now() >= deadline` -/
  expired : Nat → Bool
  /-- `refined_aggregations`; `none` is an error or the deadline -/
  aggregate : List InfoHash → Option Aggregations
  noAggregations : Aggregations

/-- `SearchResult`. -/
structure SearchResult (Blob Row Aggregations : Type) where
  items : List (SearchResultItem Blob Row)
  totalCount : Nat
  totalCountIsEstimate : Bool
  hasNextPage : Bool
  aggregations : Aggregations

/-- `RefineCap`. -/
inductive RefineCap
  | none
  | oversizedCandidate
  | retainedFiles
  | decodedBytes
  | retainedBytes
  | deadline
deriving DecidableEq

variable {Blob Row Aggregations : Type}

/-! ## Candidates -/

/-- `candidate_ids`. -/
def candidateIds (world : World Blob Row Aggregations) (config : ComposerConfig) (query : Text)
    (limit offset : Nat) : Option (List InfoHash × Nat) :=
  let budget := config.candidateBudget limit offset
  (world.pathCandidates ⟨query, budget, 0⟩).map fun response =>
    ((response.candidates.take budget).filterMap InfoHash.fromSlice, response.candidateTotal)

/-- Whether `decline_oversized` declines a candidate for its file count. -/
def declinedByCount (config : ComposerConfig) (metadata : RefineMetadata) : Bool :=
  metadata.fileCount.any fun count => count > (config.effectiveFileCap : Int)

/-- Whether `decline_oversized` declines a candidate for its compressed blob. -/
def declinedByBytes (config : ComposerConfig) (metadata : RefineMetadata) : Bool :=
  metadata.compressedBytes.any fun bytes => bytes > config.compressedBlobCap

/-- `decline_oversized`. -/
def declineOversized (config : ComposerConfig) (ids : List InfoHash)
    (metadata : InfoHash → Option RefineMetadata) : List InfoHash × Bool :=
  let ofId := fun id => (metadata id).getD {}
  (ids.filter fun id => ¬ declinedByCount config (ofId id) ∧ ¬ declinedByBytes config (ofId id),
    ids.any fun id => ¬ declinedByCount config (ofId id) ∧ declinedByBytes config (ofId id))

/-- `file_count_of`. -/
def fileCountOf (config : ComposerConfig) (metadata : InfoHash → Option RefineMetadata)
    (id : InfoHash) : Nat :=
  match (metadata id).bind (·.fileCount) with
  | none => config.effectiveFileCap
  | some count => if count ≤ 0 then 0 else min count.toNat config.effectiveFileCap

/-- The chunk `chunk_by_file_budget` is filling. -/
structure OpenChunk where
  ids : List InfoHash := []
  files : Nat := 0
  compressedBytes : Nat := 0

/-- Whether the open chunk has no room for a candidate. -/
def OpenChunk.full (chunk : OpenChunk) (config : ComposerConfig) (files compressedBytes : Nat) :
    Bool :=
  chunk.ids ≠ [] ∧ (chunk.ids.length ≥ max config.maxChunkTorrents 1 ∨
    satAdd chunk.files files > config.refineFileBudget ∨
    satAdd chunk.compressedBytes compressedBytes > config.refineDecodedByteBudget)

/-- `chunk_by_file_budget`, for what is left of the candidates. -/
def chunkFrom (config : ComposerConfig) (metadata : InfoHash → Option RefineMetadata) :
    (seen : List InfoHash) → OpenChunk → List InfoHash → List (List InfoHash)
  | _, chunk, [] => if chunk.ids = [] then [] else [chunk.ids]
  | seen, chunk, id :: rest =>
    if id ∈ seen then chunkFrom config metadata seen chunk rest
    else
      let files := fileCountOf config metadata id
      let compressedBytes := ((metadata id).bind (·.compressedBytes)).getD 0
      if chunk.full config files compressedBytes then
        chunk.ids :: chunkFrom config metadata (id :: seen)
          ⟨[id], satAdd 0 files, satAdd 0 compressedBytes⟩ rest
      else
        chunkFrom config metadata (id :: seen)
          ⟨chunk.ids ++ [id], satAdd chunk.files files,
            satAdd chunk.compressedBytes compressedBytes⟩ rest

/-- `chunk_by_file_budget`. -/
def chunkByFileBudget (config : ComposerConfig) (ids : List InfoHash)
    (metadata : InfoHash → Option RefineMetadata) : List (List InfoHash) :=
  chunkFrom config metadata [] {} ids

/-! ## Hydration -/

/-- `ordered_chunk_items`. -/
def orderedChunkItems (items : List (SearchResultItem Blob Row)) (ids : List InfoHash) :
    List (SearchResultItem Blob Row) :=
  (items.filter (·.infoHash ∈ ids)).mergeSort fun a b =>
    decide (ids.idxOf a.infoHash ≤ ids.idxOf b.infoHash)

/-- `hydrate_chunk`. -/
def hydrateChunk (world : World Blob Row Aggregations) (ids : List InfoHash) :
    Except RefineCap (List (SearchResultItem Blob Row)) :=
  match world.hydrate ids with
  | .rows items => .ok (orderedChunkItems items ids)
  | .failed => .error .none
  | .deadline => .error .deadline

/-- `MIN_PARALLEL_HYDRATE_IDS`. -/
def minParallelHydrateIds : Nat := 4

/-- `hydrate_bounded_chunk`. -/
def hydrateBoundedChunk (world : World Blob Row Aggregations) (ids : List InfoHash) :
    Except RefineCap (List (SearchResultItem Blob Row)) :=
  if ids.length < minParallelHydrateIds then hydrateChunk world ids
  else
    let midpoint := (ids.length + 1) / 2
    let leftIds := ids.take midpoint
    let rightIds := ids.drop midpoint
    match hydrateChunk world leftIds, hydrateChunk world rightIds with
    | .ok left, .ok right => .ok (left ++ right)
    | .error error, .ok _ | .ok _, .error error => .error error
    | .error left, .error right =>
      .error (if world.leftFailsFirst leftIds rightIds then left else right)

/-! ## Refinement -/

/-- `RefineAccum`, with the number of clock readings so far and, not in the source, the
number of blobs that did not decode within their limits. -/
structure RefineAccum (Blob Row : Type) where
  refined : List (SearchResultItem Blob Row) := []
  retainedFiles : Nat := 0
  retainedBytes : Nat := 0
  chunkDecodedBytes : Nat := 0
  checks : Nat := 0
  undecoded : Nat := 0

/-- The limit on the decompressed bytes of the next blob of a chunk. -/
def decompressedLimit (config : ComposerConfig) (chunkDecodedBytes : Nat) : Nat :=
  min config.maxRefineDecompressedBytes ((config.refineDecodedByteBudget - chunkDecodedBytes) / 2)

/-- The limit on the string bytes of the next candidate of a chunk. -/
def ownedStringLimit (config : ComposerConfig) (chunkDecodedBytes : Nat) : Nat :=
  min config.maxRefineDecompressedBytes (config.refineDecodedByteBudget - chunkDecodedBytes)

/-- Whether the blob of a torrent does not decode within the limits. -/
def blobFails (codec : BlobCodec Blob) (config : ComposerConfig) (torrent : Torrent Blob)
    (chunkDecodedBytes : Nat) : Bool :=
  torrent.filesData.any fun blob =>
    match deserializeFilesBounded codec blob (decompressedLimit config chunkDecodedBytes)
        config.effectiveFileCap with
    | .ok _ => false
    | .error _ => true

/-- `bounded_files_for_refine`: the files and the decoded bytes of the chunk with them. -/
def boundedFilesForRefine (codec : BlobCodec Blob) (config : ComposerConfig)
    (torrent : Torrent Blob) (chunkDecodedBytes : Nat) :
    Except RefineCap (Option DecodedFiles) × Nat :=
  let remaining := config.refineDecodedByteBudget - chunkDecodedBytes
  if remaining = 0 then (.error .decodedBytes, chunkDecodedBytes)
  else
    match filesForRefineBounded codec torrent (decompressedLimit config chunkDecodedBytes)
        (ownedStringLimit config chunkDecodedBytes) config.effectiveFileCap with
    | .ok (some decoded) =>
      let allocated := satAdd decoded.decompressedBytes decoded.ownedStringBytes
      if decoded.ownedStringBytes > config.maxRefineDecompressedBytes ∨
          satAdd chunkDecodedBytes allocated > config.refineDecodedByteBudget then
        (.error .decodedBytes, chunkDecodedBytes)
      else (.ok (some decoded), satAdd chunkDecodedBytes allocated)
    | .ok none => (.ok none, chunkDecodedBytes)
    | .error (.fileCountLimitExceeded _ _) => (.error .oversizedCandidate, chunkDecodedBytes)
    | .error (.decompressedLimitExceeded _) | .error (.ownedStringLimitExceeded _ _) =>
      (.error .decodedBytes, chunkDecodedBytes)
    | .error .zstd | .error .decode => (.error .none, chunkDecodedBytes)

/-- How one round of `refine_chunk` ends. -/
inductive Round
  | next
  | capped (cap : RefineCap)
  /-- the files are unobtainable: the route declines -/
  | decline
deriving DecidableEq

/-- The item as it is retained. -/
def SearchResultItem.retain (item : SearchResultItem Blob Row) (retainRefineFiles : Bool)
    (files : List BlobFile) : SearchResultItem Blob Row :=
  { item with
    refineFiles := if retainRefineFiles then files else []
    torrent := { item.torrent with filesData := none } }

/-- The end of a round whose item matches: the retained budgets, then the item. -/
def retainItem (config : ComposerConfig) (retainRefineFiles : Bool)
    (item : SearchResultItem Blob Row) (decoded : DecodedFiles) (accum : RefineAccum Blob Row) :
    Round × RefineAccum Blob Row :=
  if retainRefineFiles then
    if accum.refined ≠ [] ∧
        satAdd accum.retainedFiles decoded.files.length > config.retainedFileBudget then
      (.capped .retainedFiles, accum)
    else if satAdd accum.retainedBytes decoded.ownedStringBytes > config.retainedByteBudget then
      (.capped .retainedBytes, accum)
    else
      (.next, { accum with
        retainedFiles := satAdd accum.retainedFiles decoded.files.length
        retainedBytes := satAdd accum.retainedBytes decoded.ownedStringBytes
        refined := accum.refined ++ [item.retain true decoded.files] })
  else (.next, { accum with refined := accum.refined ++ [item.retain false decoded.files] })

/-- One round of `refine_chunk`. -/
def refineRound (world : World Blob Row Aggregations) (config : ComposerConfig)
    (predicate : RefinePredicate) (retainRefineFiles : Bool) (item : SearchResultItem Blob Row)
    (accum : RefineAccum Blob Row) : Round × RefineAccum Blob Row :=
  let checked := { accum with checks := accum.checks + 1 }
  if world.expired accum.checks then (.capped .deadline, checked)
  else
    let bounded := boundedFilesForRefine world.codec config item.torrent accum.chunkDecodedBytes
    let failed := blobFails world.codec config item.torrent accum.chunkDecodedBytes
    let accum := { checked with
      chunkDecodedBytes := bounded.2
      undecoded := accum.undecoded + if failed then 1 else 0 }
    match bounded.1 with
    | .error .oversizedCandidate => (.next, accum)
    | .ok none | .error .none => (.decline, accum)
    | .error cap => (.capped cap, accum)
    | .ok (some decoded) =>
      if decoded.files.length > config.effectiveFileCap then (.next, accum)
      else if ¬ torrentTokenMatch world.casing decoded.files item.torrent.name predicate then
        (.next, accum)
      else retainItem config retainRefineFiles item decoded accum

/-- `refine_chunk`. -/
def refineChunk (world : World Blob Row Aggregations) (config : ComposerConfig)
    (predicate : RefinePredicate) (retainRefineFiles : Bool) :
    List (SearchResultItem Blob Row) → RefineAccum Blob Row → Round × RefineAccum Blob Row
  | [], accum => (.next, accum)
  | item :: items, accum =>
    match refineRound world config predicate retainRefineFiles item accum with
    | (.next, accum) => refineChunk world config predicate retainRefineFiles items accum
    | stopped => stopped

/-- How the loop over the chunks ends. -/
inductive LoopEnd
  | finished
  | capped (cap : RefineCap)
  | declined
deriving DecidableEq

/-- The loop over the chunks; beside its end and the accumulators, the decoded bytes of
every chunk that was refined. -/
def refineChunks (world : World Blob Row Aggregations) (config : ComposerConfig)
    (predicate : RefinePredicate) (retainRefineFiles : Bool) :
    List (List InfoHash) → RefineAccum Blob Row → LoopEnd × RefineAccum Blob Row × List Nat
  | [], accum => (.finished, accum, [])
  | chunk :: chunks, accum =>
    let checked := { accum with checks := accum.checks + 1, chunkDecodedBytes := 0 }
    if world.expired accum.checks then (.capped .deadline, checked, [])
    else
      match hydrateBoundedChunk world chunk with
      | .error .deadline => (.capped .deadline, checked, [])
      | .error _ => (.declined, checked, [])
      | .ok items =>
        match refineChunk world config predicate retainRefineFiles items checked with
        | (.capped cap, accum) => (.capped cap, accum, [accum.chunkDecodedBytes])
        | (.decline, accum) => (.declined, accum, [accum.chunkDecodedBytes])
        | (.next, accum) =>
          let (stop, last, decoded) :=
            refineChunks world config predicate retainRefineFiles chunks accum
          (stop, last, accum.chunkDecodedBytes :: decoded)

/-! ## The route -/

/-- What `compose_torrent_content_inner` returns, with its variables when it does. -/
structure Route (Blob Row Aggregations : Type) where
  result : SearchResult Blob Row Aggregations
  served : Bool
  ids : List InfoHash := []
  refined : List (SearchResultItem Blob Row) := []
  cap : RefineCap := .none
  /-- no refine slot was had -/
  shed : Bool := false
  retainedFiles : Nat := 0
  retainedBytes : Nat := 0
  /-- the decoded bytes of every chunk that was refined -/
  chunkDecodedBytes : List Nat := []
  undecoded : Nat := 0

/-- `empty_result`, as an estimate or not. -/
def emptyResult (world : World Blob Row Aggregations) (totalCountIsEstimate : Bool) :
    SearchResult Blob Row Aggregations :=
  ⟨[], 0, totalCountIsEstimate, false, world.noAggregations⟩

/-- A declined route. -/
def declinedRoute (world : World Blob Row Aggregations) : Route Blob Row Aggregations where
  result := emptyResult world false
  served := false

/-- `facet_ids`. -/
def facetIds (config : ComposerConfig) (refined : List (SearchResultItem Blob Row)) :
    List InfoHash :=
  (refined.take config.decodeLatencyCap).map (·.infoHash)

/-- `refined_aggregations`. -/
def refinedAggregations (world : World Blob Row Aggregations) (config : ComposerConfig)
    (refined : List (SearchResultItem Blob Row)) (checks : Nat) : Aggregations :=
  if refined = [] ∨ world.expired checks then world.noAggregations
  else (world.aggregate (facetIds config refined)).getD world.noAggregations

/-- The result cut from a refined list. -/
def pageOf (config : ComposerConfig) (ids : List InfoHash) (candidateTotal : Nat)
    (refined : List (SearchResultItem Blob Row)) (limit offset : Nat)
    (aggregations : Aggregations) : SearchResult Blob Row Aggregations :=
  let refinedCount := saturated refined.length
  let page := paginate refined offset limit
  let consumed := satAdd offset (saturated page.length)
  let decoded := saturated ids.length
  { items := page
    totalCount :=
      if candidateTotal > decoded ∧ candidateTotal > refinedCount then candidateTotal
      else refinedCount
    totalCountIsEstimate := true
    hasNextPage := consumed < refinedCount ∨
      (candidateTotal > decoded ∧ decoded < config.maxCandidatesCap)
    aggregations }

/-- The part of `compose_torrent_content_inner` behind the refine slot. -/
def refineRoute (world : World Blob Row Aggregations) (config : ComposerConfig)
    (predicate : RefinePredicate) (retainRefineFiles : Bool) (limit offset : Nat)
    (ids : List InfoHash) (candidateTotal : Nat) (chunks : List (List InfoHash))
    (preflightByteCapped : Bool) : Route Blob Row Aggregations :=
  let (stop, accum, decoded) := refineChunks world config predicate retainRefineFiles chunks {}
  let route : Route Blob Row Aggregations :=
    { declinedRoute world with
      ids
      refined := accum.refined
      retainedFiles := accum.retainedFiles
      retainedBytes := accum.retainedBytes
      chunkDecodedBytes := decoded
      undecoded := accum.undecoded }
  match stop with
  | .declined => route
  | .finished | .capped _ =>
    { route with
      served := true
      cap :=
        match stop with
        | .capped cap => cap
        | _ => if preflightByteCapped then .decodedBytes else .none
      result := pageOf config ids candidateTotal accum.refined limit offset
        (refinedAggregations world config accum.refined accum.checks) }

/-- `compose_torrent_content_inner`. -/
def composeTorrentContent (world : World Blob Row Aggregations) (config : ComposerConfig)
    (filters : Filters) (retainRefineFiles : Bool) (limit offset : Nat) :
    Route Blob Row Aggregations :=
  let predicate := filters.predicate world.casing
  if predicate.substr = [] ∨ ¬ byteLen (trim filters.query) ≥ config.minQueryLength then
    declinedRoute world
  else if ¬ world.healthy then declinedRoute world
  else
    match candidateIds world config filters.query limit offset with
    | none => declinedRoute world
    | some (ids, candidateTotal) =>
      if ids = [] then
        if world.trustEmpty then
          { declinedRoute world with served := true, result := emptyResult world true }
        else declinedRoute world
      else
        match world.refineMetadata ids with
        | none => { declinedRoute world with ids }
        | some metadata =>
          let (kept, preflightByteCapped) := declineOversized config ids metadata
          if kept = [] then
            { declinedRoute world with
              served := true
              ids
              cap := if preflightByteCapped then .decodedBytes else .none
              result := emptyResult world true }
          else
            let chunks := chunkByFileBudget config kept metadata
            if ¬ world.slot then
              { declinedRoute world with
                served := true
                ids
                shed := true
                result := emptyResult world true }
            else
              refineRoute world config predicate retainRefineFiles limit offset ids
                candidateTotal chunks preflightByteCapped

end Bitmagnet.SearchServe
