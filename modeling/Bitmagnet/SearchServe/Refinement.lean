import Mathlib.Data.Nat.Log
import Bitmagnet.Library.Fallible
import Bitmagnet.Library.StableSort
import Bitmagnet.SearchServe.Composer

/-!
# What a served route contains

The route spreads one filter over four places: candidates are declined by their metadata,
deduplicated while they are cut into chunks, put back in order behind each hydration, and
checked in a loop that can stop early.  `hydrated` is the list those places leave to be
checked and `RefinesTo` the check, so that a served route is the refinement of a start of
that list, the whole of it unless a cap fired.

The budgets are invariants of the loop (`Within`); the first retained item is not tested
against the budget of retained files, but no candidate of more files than that budget
gets so far.
-/

namespace Bitmagnet.SearchServe

variable {Blob Row Aggregations : Type}

/-! ## The specification -/

/-- The blob of the torrent, if it has one, decodes within the limit. -/
def Decodes (codec : BlobCodec Blob) (config : ComposerConfig) (torrent : Torrent Blob)
    (maxDecompressed : Nat) : Prop :=
  ∀ blob, torrent.filesData = some blob → ∃ decoded,
    deserializeFilesBounded codec blob maxDecompressed config.effectiveFileCap = .ok decoded

/-- The bounded reader comes to `result` within the configured limits, and if `intact` by
decoding the blob. -/
def Reads (codec : BlobCodec Blob) (config : ComposerConfig) (intact : Prop)
    (torrent : Torrent Blob) (result : Except BlobError (Option DecodedFiles)) : Prop :=
  ∃ maxDecompressed maxOwned, maxDecompressed ≤ config.maxRefineDecompressedBytes ∧
    maxOwned ≤ config.maxRefineDecompressedBytes ∧
    filesForRefineBounded codec torrent maxDecompressed maxOwned config.effectiveFileCap = result ∧
    (intact → Decodes codec config torrent maxDecompressed)

/-- The bounded reader returns the file list. -/
def Obtains (codec : BlobCodec Blob) (config : ComposerConfig) (intact : Prop)
    (torrent : Torrent Blob) (files : List BlobFile) : Prop :=
  ∃ decoded, Reads codec config intact torrent (.ok (some decoded)) ∧ decoded.files = files

/-- The torrent has more files than the cap. -/
def Oversized (codec : BlobCodec Blob) (config : ComposerConfig) (intact : Prop)
    (torrent : Torrent Blob) : Prop :=
  (∃ count limit, Reads codec config intact torrent
    (.error (.fileCountLimitExceeded count limit))) ∨
  ∃ files, Obtains codec config intact torrent files ∧ config.effectiveFileCap < files.length

/-- **The check**: every item is oversized, or its files are obtained and it is kept if and
only if they match. -/
inductive RefinesTo (world : World Blob Row Aggregations) (config : ComposerConfig)
    (predicate : RefinePredicate) (retainRefineFiles : Bool) (intact : Prop) :
    List (SearchResultItem Blob Row) → List (SearchResultItem Blob Row) → Prop
  | nil : RefinesTo world config predicate retainRefineFiles intact [] []
  | keep {item files items out} : Obtains world.codec config intact item.torrent files →
      files.length ≤ config.effectiveFileCap →
      torrentTokenMatch world.casing files item.torrent.name predicate →
      RefinesTo world config predicate retainRefineFiles intact items out →
      RefinesTo world config predicate retainRefineFiles intact (item :: items)
        (item.retain retainRefineFiles files :: out)
  | miss {item files items out} : Obtains world.codec config intact item.torrent files →
      ¬ torrentTokenMatch world.casing files item.torrent.name predicate →
      RefinesTo world config predicate retainRefineFiles intact items out →
      RefinesTo world config predicate retainRefineFiles intact (item :: items) out
  | oversized {item items out} : Oversized world.codec config intact item.torrent →
      RefinesTo world config predicate retainRefineFiles intact items out →
      RefinesTo world config predicate retainRefineFiles intact (item :: items) out

/-- The statements of one request see the rows `rowsOf` of each hash. -/
def Hydrates (world : World Blob Row Aggregations)
    (rowsOf : InfoHash → List (SearchResultItem Blob Row)) : Prop :=
  ∀ ids items, world.hydrate ids = .rows items →
    ∀ id ∈ ids, items.filter (·.infoHash = id) = rowsOf id

/-- The candidates that are not declined by their metadata, each once. -/
def keptIds (config : ComposerConfig) (metadata : InfoHash → Option RefineMetadata)
    (ids : List InfoHash) : List InfoHash :=
  (Distinct.firsts [] ids).filter fun id =>
    ¬ declinedByCount config ((metadata id).getD {}) ∧
      ¬ declinedByBytes config ((metadata id).getD {})

/-- **The list to be checked**: the hydrated items of the distinct candidates in candidate
order, without those declined as oversized. -/
def hydrated (config : ComposerConfig) (metadata : InfoHash → Option RefineMetadata)
    (rowsOf : InfoHash → List (SearchResultItem Blob Row)) (ids : List InfoHash) :
    List (SearchResultItem Blob Row) :=
  (keptIds config metadata ids).flatMap rowsOf

/-! ## File lists -/

/-- What the reader returns under the largest limits. -/
def fullFiles (codec : BlobCodec Blob) (config : ComposerConfig) (torrent : Torrent Blob) :
    Except BlobError (Option DecodedFiles) :=
  filesForRefineBounded codec torrent config.maxRefineDecompressedBytes
    config.maxRefineDecompressedBytes config.effectiveFileCap

section Files

variable {codec : BlobCodec Blob} {config : ComposerConfig} {torrent : Torrent Blob}
  {decoded : DecodedFiles} {m m' o o' f : Nat}

lemma windowLogForLimit_mono (h : m ≤ m') : windowLogForLimit m ≤ windowLogForLimit m' := by
  have hlog : (if m - 1 = 0 then 0 else (m - 1).log2 + 1) ≤
      if m' - 1 = 0 then 0 else (m' - 1).log2 + 1 := by
    have hmono : (m - 1).log2 ≤ (m' - 1).log2 := by
      rw [Nat.log2_eq_log_two, Nat.log2_eq_log_two]
      exact Nat.log_mono_right (by omega)
    split_ifs
    all_goals omega
  unfold windowLogForLimit
  dsimp only
  omega

lemma readDecompressedBounded_eq_ok {blob : Blob} {raw : List UInt8} :
    readDecompressedBounded codec blob m = .ok raw ↔
      codec.inflate blob (windowLogForLimit m) = (raw, true) ∧ raw.length ≤ m := by
  unfold readDecompressedBounded
  cases hinflate : codec.inflate blob (windowLogForLimit m) with
  | mk inflated ended =>
    dsimp only
    constructor
    · intro h
      split_ifs at h with hlong hended
      cases h
      exact ⟨Prod.ext rfl hended, by omega⟩
    · rintro ⟨h, hlength⟩
      cases h
      rw [if_neg (by omega), if_pos rfl]

lemma deserializeFilesBounded_mono (hcodec : codec.Lawful) (hm : m ≤ m') {blob : Blob}
    (h : deserializeFilesBounded codec blob m f = .ok decoded) :
    deserializeFilesBounded codec blob m' f = .ok decoded := by
  unfold deserializeFilesBounded at h ⊢
  obtain ⟨raw, hraw, h⟩ := Fallible.bind_eq_ok.mp h
  refine Fallible.bind_eq_ok.mpr ⟨raw, ?_, h⟩
  obtain ⟨hinflate, hlength⟩ := readDecompressedBounded_eq_ok.mp hraw
  have hended : (codec.inflate blob (windowLogForLimit m)).2 = true := by rw [hinflate]
  rw [readDecompressedBounded_eq_ok, hcodec.inflate_mono blob (windowLogForLimit_mono hm) hended]
  exact ⟨hinflate, by omega⟩

lemma filesWithoutBlob_mono {result : Except BlobError (Option DecodedFiles)} (ho : o ≤ o')
    (hresult : ∀ bytes limit, result ≠ .error (.ownedStringLimitExceeded bytes limit))
    (h : filesWithoutBlob torrent o f = result) : filesWithoutBlob torrent o' f = result := by
  unfold filesWithoutBlob at h ⊢
  cases hstatus : torrent.filesStatus with
  | single =>
    rw [hstatus] at h
    dsimp only at h ⊢
    split at h
    · rename_i hf
      rw [if_pos hf]
      exact h
    · rename_i hf
      split at h
      · exact absurd h.symm (hresult _ _)
      · rw [if_neg hf, if_neg (by omega)]
        exact h
  | noInfo | overThreshold | multi =>
    rw [hstatus] at h
    exact h

/-- **Larger limits read the same**, unless a blob that did not decode was passed over or
a limit was in the way. -/
lemma filesForRefineBounded_mono {result : Except BlobError (Option DecodedFiles)}
    (hcodec : codec.Lawful) (hm : m ≤ m') (ho : o ≤ o')
    (hresult : ∀ bytes limit, result ≠ .error (.ownedStringLimitExceeded bytes limit))
    (hblob : (torrent.filesStatus ≠ .single ∧ ∃ files, result = .ok files) ∨
      ∀ blob, torrent.filesData = some blob →
        ∃ decoded, deserializeFilesBounded codec blob m f = .ok decoded)
    (h : filesForRefineBounded codec torrent m o f = result) :
    filesForRefineBounded codec torrent m' o' f = result := by
  unfold filesForRefineBounded at h ⊢
  cases hdata : torrent.filesData with
  | none =>
    rw [hdata] at h
    exact filesWithoutBlob_mono ho hresult h
  | some blob =>
    rw [hdata] at h
    dsimp only at h ⊢
    cases hdecode : deserializeFilesBounded codec blob m f with
    | ok found =>
      rw [hdecode] at h
      rw [deserializeFilesBounded_mono hcodec hm hdecode]
      dsimp only at h ⊢
      split at h
      · rename_i hempty
        rw [if_pos hempty]
        exact filesWithoutBlob_mono ho hresult h
      · rename_i hfull
        rw [if_neg hfull]
        split at h
        · exact absurd h.symm (hresult _ _)
        · rw [if_neg (by omega)]
          exact h
    | error error =>
      rw [hdecode] at h
      rcases hblob with ⟨hstatus, files, rfl⟩ | hall
      · dsimp only at h
        rw [if_pos hstatus] at h
        cases h
      · obtain ⟨found, hfound⟩ := hall blob hdata
        rw [hdecode] at hfound
        cases hfound

/-- The file list of a torrent does not depend on the limits it was read under, unless it
is a single-file torrent whose blob did not decode. -/
lemma Reads.full (hcodec : codec.Lawful) {intact : Prop}
    (h : Reads codec config intact torrent (.ok (some decoded)))
    (hblob : torrent.filesStatus ≠ .single ∨ intact) :
    fullFiles codec config torrent = .ok (some decoded) := by
  obtain ⟨m, o, hm, ho, hfiles, hdecodes⟩ := h
  refine filesForRefineBounded_mono hcodec hm ho (by simp) ?_ hfiles
  rcases hblob with hstatus | hi
  · exact .inl ⟨hstatus, _, rfl⟩
  · exact .inr (hdecodes hi)

end Files

/-! ## Chunks -/

lemma flatten_chunkFrom (config : ComposerConfig)
    (metadata : InfoHash → Option RefineMetadata) (seen : List InfoHash) (chunk : OpenChunk)
    (ids : List InfoHash) :
    (chunkFrom config metadata seen chunk ids).flatten = chunk.ids ++ Distinct.firsts seen ids := by
  induction ids generalizing seen chunk with
  | nil =>
    rw [chunkFrom, Distinct.firsts]
    split
    · rename_i hnil
      simp [hnil]
    · simp
  | cons id ids ih =>
    rw [chunkFrom, Distinct.firsts]
    by_cases hseen : id ∈ seen
    · rw [if_pos hseen, if_pos hseen, ih]
    · rw [if_neg hseen, if_neg hseen]
      dsimp only
      split
      · rw [List.flatten_cons, ih]
        simp
      · rw [ih]
        simp

/-- The chunks hold the distinct candidates in order. -/
lemma flatten_chunkByFileBudget (config : ComposerConfig) (ids : List InfoHash)
    (metadata : InfoHash → Option RefineMetadata) :
    (chunkByFileBudget config ids metadata).flatten = Distinct.firsts [] ids := by
  rw [chunkByFileBudget, flatten_chunkFrom]
  rfl

lemma nodup_of_mem_chunks {config : ComposerConfig} {ids chunk : List InfoHash}
    {metadata : InfoHash → Option RefineMetadata}
    (h : chunk ∈ chunkByFileBudget config ids metadata) : chunk.Nodup := by
  have hnodup : (chunkByFileBudget config ids metadata).flatten.Nodup := by
    rw [flatten_chunkByFileBudget]
    exact Distinct.nodup_firsts ..
  exact (List.nodup_flatten.mp hnodup).1 chunk h

/-! ## Hydration -/

section

variable {world : World Blob Row Aggregations}
  {rowsOf : InfoHash → List (SearchResultItem Blob Row)}

lemma hydrateChunk_eq_ok (hrows : Hydrates world rowsOf) {ids : List InfoHash}
    {items : List (SearchResultItem Blob Row)} (hids : ids.Nodup)
    (h : hydrateChunk world ids = .ok items) : items = ids.flatMap rowsOf := by
  unfold hydrateChunk at h
  split at h
  · rename_i rows hhydrate
    cases h
    have hsorted : orderedChunkItems rows ids =
        ids.flatMap fun id => rows.filter (·.infoHash = id) :=
      StableSort.mergeSort_idxOf SearchResultItem.infoHash hids rows
    rw [hsorted]
    exact List.flatMap_congr fun id hid => hrows ids rows hhydrate id hid
  · cases h
  · cases h

/-- **Hydration restores the candidate order**, in one statement or in two. -/
lemma hydrateBoundedChunk_eq_ok (hrows : Hydrates world rowsOf) {ids : List InfoHash}
    {items : List (SearchResultItem Blob Row)} (hids : ids.Nodup)
    (h : hydrateBoundedChunk world ids = .ok items) : items = ids.flatMap rowsOf := by
  unfold hydrateBoundedChunk at h
  split at h
  · exact hydrateChunk_eq_ok hrows hids h
  · dsimp only at h
    split at h
    · rename_i left right hleft hright
      cases h
      rw [hydrateChunk_eq_ok hrows (hids.sublist (List.take_sublist ..)) hleft,
        hydrateChunk_eq_ok hrows (hids.sublist (List.drop_sublist ..)) hright,
        ← List.flatMap_append, List.take_append_drop]
    all_goals cases h

end

/-! ## One round -/

@[simp] lemma satAdd_saturated (total n : Nat) :
    satAdd (saturated total) n = saturated (total + n) := by
  simp only [satAdd, saturated]
  omega

/-- The string bytes of the files an item retains. -/
def SearchResultItem.retainedBytes (item : SearchResultItem Blob Row) : Nat :=
  (item.refineFiles.map BlobFile.ownedStringBytes).sum

/-- **The budgets.** -/
structure Within (config : ComposerConfig) (accum : RefineAccum Blob Row) : Prop where
  files_eq : accum.retainedFiles =
    saturated (accum.refined.map (·.refineFiles.length)).sum
  files_le : accum.retainedFiles ≤ config.retainedFileBudget
  bytes_eq : accum.retainedBytes = saturated (accum.refined.map (·.retainedBytes)).sum
  bytes_le : accum.retainedBytes ≤ config.retainedByteBudget
  decoded_le : accum.chunkDecodedBytes ≤ config.refineDecodedByteBudget

section Rounds

variable {world : World Blob Row Aggregations} {config : ComposerConfig}
  {predicate : RefinePredicate} {retainRefineFiles : Bool} {item : SearchResultItem Blob Row}
  {accum accum' : RefineAccum Blob Row} {round : Round} {codec : BlobCodec Blob}
  {decoded : DecodedFiles} {f : Nat} {torrent : Torrent Blob}
  {items : List (SearchResultItem Blob Row)}

lemma deserializeFilesBounded_owned {blob : Blob} {m : Nat}
    (h : deserializeFilesBounded codec blob m f = .ok decoded) :
    decoded.ownedStringBytes = (decoded.files.map BlobFile.ownedStringBytes).sum := by
  unfold deserializeFilesBounded at h
  obtain ⟨raw, -, h⟩ := Fallible.bind_eq_ok.mp h
  split at h
  · cases h
  · split at h
    · cases h
    · split at h
      · cases h
      · cases h
        rfl

lemma filesWithoutBlob_owned {o : Nat} (h : filesWithoutBlob torrent o f = .ok (some decoded)) :
    decoded.ownedStringBytes = (decoded.files.map BlobFile.ownedStringBytes).sum := by
  unfold filesWithoutBlob at h
  split at h
  · split at h
    · cases h
    · split at h
      · cases h
      · cases h
        simp
  all_goals cases h
  all_goals rfl

/-- The string bytes of a decode are those of its files. -/
lemma filesForRefineBounded_owned {m o : Nat}
    (h : filesForRefineBounded codec torrent m o f = .ok (some decoded)) :
    decoded.ownedStringBytes = (decoded.files.map BlobFile.ownedStringBytes).sum := by
  unfold filesForRefineBounded at h
  split at h
  · exact filesWithoutBlob_owned h
  · split at h
    · rename_i hdecoded
      split at h
      · exact filesWithoutBlob_owned h
      · split at h
        · cases h
        · cases h
          exact deserializeFilesBounded_owned hdecoded
    · split at h
      · cases h
      · exact filesWithoutBlob_owned h

/-- What `bounded_files_for_refine` can return. -/
lemma boundedFilesForRefine_cases (codec : BlobCodec Blob) (config : ComposerConfig)
    (torrent : Torrent Blob) (used : Nat) :
    (∃ decoded used', boundedFilesForRefine codec config torrent used = (.ok (some decoded), used') ∧
      filesForRefineBounded codec torrent (decompressedLimit config used)
        (ownedStringLimit config used) config.effectiveFileCap = .ok (some decoded) ∧
      used' ≤ config.refineDecodedByteBudget) ∨
    (boundedFilesForRefine codec config torrent used = (.error .oversizedCandidate, used) ∧
      ∃ count limit, filesForRefineBounded codec torrent (decompressedLimit config used)
        (ownedStringLimit config used) config.effectiveFileCap =
          .error (.fileCountLimitExceeded count limit)) ∨
    boundedFilesForRefine codec config torrent used = (.ok none, used) ∨
    ∃ cap, boundedFilesForRefine codec config torrent used = (.error cap, used) ∧
      (cap = .none ∨ cap = .decodedBytes) := by
  unfold boundedFilesForRefine
  dsimp only
  split
  · exact .inr (.inr (.inr ⟨_, rfl, .inr rfl⟩))
  · cases hfiles : filesForRefineBounded codec torrent (decompressedLimit config used)
      (ownedStringLimit config used) config.effectiveFileCap with
    | ok files =>
      cases files with
      | none => exact .inr (.inr (.inl rfl))
      | some decoded =>
        dsimp only
        split
        · exact .inr (.inr (.inr ⟨_, rfl, .inr rfl⟩))
        · rename_i hfits
          push Not at hfits
          exact .inl ⟨decoded, _, rfl, rfl, hfits.2⟩
    | error error =>
      cases error with
      | fileCountLimitExceeded count limit => exact .inr (.inl ⟨rfl, count, limit, rfl⟩)
      | decompressedLimitExceeded _ => exact .inr (.inr (.inr ⟨_, rfl, .inr rfl⟩))
      | ownedStringLimitExceeded _ _ => exact .inr (.inr (.inr ⟨_, rfl, .inr rfl⟩))
      | zstd => exact .inr (.inr (.inr ⟨_, rfl, .inl rfl⟩))
      | decode => exact .inr (.inr (.inr ⟨_, rfl, .inl rfl⟩))

lemma decodes_of_not_blobFails {used : Nat} (h : blobFails codec config torrent used = false) :
    Decodes codec config torrent (decompressedLimit config used) := by
  intro blob hblob
  cases hdecode : deserializeFilesBounded codec blob (decompressedLimit config used)
      config.effectiveFileCap with
  | ok decoded => exact ⟨decoded, rfl⟩
  | error error => simp [blobFails, hblob, hdecode] at h

lemma RefinesTo.append {intact : Prop} {items' out out' : List (SearchResultItem Blob Row)}
    (h : RefinesTo world config predicate retainRefineFiles intact items out)
    (h' : RefinesTo world config predicate retainRefineFiles intact items' out') :
    RefinesTo world config predicate retainRefineFiles intact (items ++ items') (out ++ out') := by
  induction h with
  | nil => exact h'
  | keep hfiles hcount hmatch _ ih => exact .keep hfiles hcount hmatch ih
  | miss hfiles hmatch _ ih => exact .miss hfiles hmatch ih
  | oversized hsize _ ih => exact .oversized hsize ih

/-- An item that matches is retained within the budgets, or one of them is exhausted. -/
lemma retainItem_spec (hw : Within config accum)
    (howned : decoded.ownedStringBytes = (decoded.files.map BlobFile.ownedStringBytes).sum)
    (hcount : decoded.files.length ≤ config.effectiveFileCap)
    (h : retainItem config retainRefineFiles item decoded accum = (round, accum')) :
    Within config accum' ∧ accum'.undecoded = accum.undecoded ∧
    ((round = .next ∧
        accum'.refined = accum.refined ++ [item.retain retainRefineFiles decoded.files]) ∨
      ((round = .capped .retainedFiles ∨ round = .capped .retainedBytes) ∧
        accum'.refined = accum.refined)) := by
  unfold retainItem at h
  split at h
  · rename_i hretain
    rw [hretain]
    split at h
    · cases h
      exact ⟨hw, rfl, .inr ⟨.inl rfl, rfl⟩⟩
    · rename_i hfiles
      split at h
      · cases h
        exact ⟨hw, rfl, .inr ⟨.inr rfl, rfl⟩⟩
      · rename_i hbytes
        cases h
        refine ⟨⟨?_, ?_, ?_, ?_, hw.decoded_le⟩, rfl, .inl ⟨rfl, rfl⟩⟩
        · simp [hw.files_eq, SearchResultItem.retain]
        · -- the first item is not tested, but has at most the cap of files
          by_cases hfirst : accum.refined = []
          · have hzero : accum.retainedFiles = 0 := by
              rw [hw.files_eq, hfirst]
              rfl
            have hcap : config.effectiveFileCap ≤ config.retainedFileBudget := min_le_right ..
            simp only [satAdd, hzero]
            omega
          · push Not at hfiles
            exact hfiles hfirst
        · simp [hw.bytes_eq, SearchResultItem.retain, SearchResultItem.retainedBytes, howned]
        · exact not_lt.mp hbytes
  · rename_i hretain
    cases h
    rw [Bool.not_eq_true] at hretain
    rw [hretain]
    refine ⟨⟨?_, hw.files_le, ?_, hw.bytes_le, hw.decoded_le⟩, rfl, .inl ⟨rfl, rfl⟩⟩
    · simp [hw.files_eq, SearchResultItem.retain]
    · simp [hw.bytes_eq, SearchResultItem.retain, SearchResultItem.retainedBytes]

/-- What a round leaves of its item. -/
def RoundSpec (world : World Blob Row Aggregations) (config : ComposerConfig)
    (predicate : RefinePredicate) (retainRefineFiles : Bool) (intact : Prop)
    (items : List (SearchResultItem Blob Row)) (accum accum' : RefineAccum Blob Row) : Round → Prop
  | .next => ∃ out, accum'.refined = accum.refined ++ out ∧
      RefinesTo world config predicate retainRefineFiles intact items out
  | .capped cap => cap ≠ .none ∧ ∃ visited rest out, items = visited ++ rest ∧
      accum'.refined = accum.refined ++ out ∧
      RefinesTo world config predicate retainRefineFiles intact visited out
  | .decline => True

/-- Reading the files of the next candidate. -/
lemma reads_of_bounded {intact : Prop} {used : Nat}
    {result : Except BlobError (Option DecodedFiles)}
    (h : filesForRefineBounded codec torrent (decompressedLimit config used)
      (ownedStringLimit config used) config.effectiveFileCap = result)
    (hintact : intact → blobFails codec config torrent used = false) :
    Reads codec config intact torrent result :=
  ⟨_, _, min_le_left .., min_le_left .., h, fun hi => decodes_of_not_blobFails (hintact hi)⟩

/-- **One round.** -/
lemma refineRound_spec {intact : Prop} (hw : Within config accum)
    (h : refineRound world config predicate retainRefineFiles item accum = (round, accum')) :
    Within config accum' ∧ accum.undecoded ≤ accum'.undecoded ∧
      ((intact → accum'.undecoded = 0) →
        RoundSpec world config predicate retainRefineFiles intact [item] accum accum' round) := by
  unfold refineRound at h
  dsimp only at h
  split at h
  · cases h
    exact ⟨⟨hw.files_eq, hw.files_le, hw.bytes_eq, hw.bytes_le, hw.decoded_le⟩, le_rfl, fun _ =>
      ⟨by simp, [], [item], [], rfl, by simp, .nil⟩⟩
  · set failed := blobFails world.codec config item.torrent accum.chunkDecodedBytes with hfailed
    -- the accumulators behind the decode
    have hafter : ∀ used', used' ≤ config.refineDecodedByteBudget → Within config
        { accum with
          checks := accum.checks + 1
          chunkDecodedBytes := used'
          undecoded := accum.undecoded + if failed then 1 else 0 } := fun used' hused =>
      ⟨hw.files_eq, hw.files_le, hw.bytes_eq, hw.bytes_le, hused⟩
    have hfails : ∀ {n : Nat}, accum.undecoded + (if failed then 1 else 0) = n →
        (intact → n = 0) → intact → failed = false := by
      intro n hn hzero hi
      cases hcase : failed with
      | false => rfl
      | true =>
        rw [hcase, if_pos rfl, hzero hi] at hn
        omega
    rcases boundedFilesForRefine_cases world.codec config item.torrent accum.chunkDecodedBytes with
      ⟨decoded, used', hbounded, hfiles, hused⟩ | ⟨hbounded, count, limit, hfiles⟩ | hbounded |
      ⟨cap, hbounded, hcap⟩
    · rw [hbounded] at h
      dsimp only at h
      split at h
      · rename_i hcount
        cases h
        exact ⟨hafter used' hused, by simp, fun hintact => ⟨[], by simp, .oversized (.inr ⟨decoded.files,
          ⟨decoded, reads_of_bounded hfiles (hfails rfl hintact), rfl⟩, hcount⟩) .nil⟩⟩
      · rename_i hcount
        split at h
        · rename_i hmatch
          cases h
          exact ⟨hafter used' hused, by simp, fun hintact => ⟨[], by simp, .miss ⟨decoded,
            reads_of_bounded hfiles (hfails rfl hintact), rfl⟩ hmatch .nil⟩⟩
        · rename_i hmatch
          rw [not_not] at hmatch
          obtain ⟨hwithin, hundecoded, hround⟩ := retainItem_spec (hafter used' hused)
            (filesForRefineBounded_owned hfiles) (not_lt.mp hcount) h
          refine ⟨hwithin, by rw [hundecoded]; simp, fun hintact => ?_⟩
          have hread := reads_of_bounded hfiles (hfails hundecoded.symm hintact)
          rcases hround with ⟨rfl, hrefined⟩ | ⟨hcapped, hrefined⟩
          · exact ⟨_, hrefined, .keep ⟨decoded, hread, rfl⟩ (not_lt.mp hcount) hmatch .nil⟩
          · rcases hcapped with rfl | rfl
            all_goals exact ⟨by simp, [], [item], [], rfl, by simp [hrefined], .nil⟩
    · rw [hbounded] at h
      cases h
      exact ⟨hafter _ hw.decoded_le, by simp, fun hintact => ⟨[], by simp, .oversized (.inl ⟨count,
        limit, reads_of_bounded hfiles (hfails rfl hintact)⟩) .nil⟩⟩
    · rw [hbounded] at h
      cases h
      exact ⟨hafter _ hw.decoded_le, by simp, fun _ => trivial⟩
    · rw [hbounded] at h
      rcases hcap with rfl | rfl
      · cases h
        exact ⟨hafter _ hw.decoded_le, by simp, fun _ => trivial⟩
      · cases h
        exact ⟨hafter _ hw.decoded_le, by simp, fun _ =>
          ⟨by simp, [], [item], [], rfl, by simp, .nil⟩⟩

/-- A round behind items that were all visited. -/
lemma RoundSpec.append {intact : Prop} {items' : List (SearchResultItem Blob Row)}
    (h : RoundSpec world config predicate retainRefineFiles intact items accum accum₁ .next)
    (h' : RoundSpec world config predicate retainRefineFiles intact items' accum₁ accum' round) :
    RoundSpec world config predicate retainRefineFiles intact (items ++ items') accum accum'
      round := by
  obtain ⟨out₁, hout₁, hrefines₁⟩ := h
  cases round with
  | next =>
    obtain ⟨out, hout, hrefines⟩ := h'
    refine ⟨out₁ ++ out, ?_, hrefines₁.append hrefines⟩
    rw [hout, hout₁, List.append_assoc]
  | capped cap =>
    obtain ⟨hcap, visited, rest, out, rfl, hout, hrefines⟩ := h'
    refine ⟨hcap, items ++ visited, rest, out₁ ++ out, ?_, ?_, hrefines₁.append hrefines⟩
    · rw [List.append_assoc]
    · rw [hout, hout₁, List.append_assoc]
  | decline => trivial

/-- **One chunk**: the budgets hold behind it, and no failed decode is forgotten. -/
lemma refineChunk_spec {intact : Prop} (hw : Within config accum)
    (h : refineChunk world config predicate retainRefineFiles items accum = (round, accum')) :
    Within config accum' ∧ accum.undecoded ≤ accum'.undecoded ∧
      ((intact → accum'.undecoded = 0) →
        RoundSpec world config predicate retainRefineFiles intact items accum accum' round) := by
  induction items generalizing accum with
  | nil =>
    cases h
    exact ⟨hw, le_rfl, fun _ => ⟨[], by simp, .nil⟩⟩
  | cons item items ih =>
    rw [refineChunk] at h
    rcases hfirst : refineRound world config predicate retainRefineFiles item accum with
      ⟨round₁, accum₁⟩
    obtain ⟨hw₁, hle₁, hspec₁⟩ := refineRound_spec hw hfirst
    rw [hfirst] at h
    cases round₁ with
    | next =>
      obtain ⟨hw', hle, hspec⟩ := ih hw₁ h
      exact ⟨hw', hle₁.trans hle, fun hintact =>
        (hspec₁ fun hi => Nat.le_zero.mp (hintact hi ▸ hle)).append (hspec hintact)⟩
    | capped cap =>
      cases h
      refine ⟨hw₁, hle₁, fun hintact => ?_⟩
      obtain ⟨hcap, visited, rest, out, hsplit, hout, hrefines⟩ := hspec₁ hintact
      refine ⟨hcap, visited, rest ++ items, out, ?_, hout, hrefines⟩
      rw [← List.append_assoc, ← hsplit]
      rfl
    | decline =>
      cases h
      exact ⟨hw₁, hle₁, fun _ => trivial⟩

/-! ## The loop over the chunks -/

/-- What the loop leaves of the items of its chunks. -/
def LoopSpec (world : World Blob Row Aggregations) (config : ComposerConfig)
    (predicate : RefinePredicate) (retainRefineFiles : Bool) (intact : Prop)
    (items : List (SearchResultItem Blob Row)) (accum accum' : RefineAccum Blob Row) :
    LoopEnd → Prop
  | .finished => ∃ out, accum'.refined = accum.refined ++ out ∧
      RefinesTo world config predicate retainRefineFiles intact items out
  | .capped cap => cap ≠ .none ∧ ∃ visited rest out, items = visited ++ rest ∧
      accum'.refined = accum.refined ++ out ∧
      RefinesTo world config predicate retainRefineFiles intact visited out
  | .declined => True

lemma Within.newChunk (hw : Within config accum) :
    Within config { accum with checks := accum.checks + 1, chunkDecodedBytes := 0 } :=
  ⟨hw.files_eq, hw.files_le, hw.bytes_eq, hw.bytes_le, Nat.zero_le _⟩

/-- **The loop** refines the hydrated items of the chunks in order.  The budgets hold behind
it and in every chunk of it. -/
lemma refineChunks_spec {intact : Prop} {rowsOf : InfoHash → List (SearchResultItem Blob Row)}
    (hrows : Hydrates world rowsOf) {chunks : List (List InfoHash)} {stop : LoopEnd}
    {decoded : List Nat} (hnodup : ∀ chunk ∈ chunks, chunk.Nodup) (hw : Within config accum)
    (h : refineChunks world config predicate retainRefineFiles chunks accum =
      (stop, accum', decoded)) :
    Within config accum' ∧ (∀ n ∈ decoded, n ≤ config.refineDecodedByteBudget) ∧
      accum.undecoded ≤ accum'.undecoded ∧
      ((intact → accum'.undecoded = 0) →
        LoopSpec world config predicate retainRefineFiles intact (chunks.flatten.flatMap rowsOf)
          accum accum' stop) := by
  induction chunks generalizing accum decoded with
  | nil =>
    cases h
    exact ⟨hw, by simp, le_rfl, fun _ => ⟨[], by simp, .nil⟩⟩
  | cons chunk chunks ih =>
    have hcut : LoopSpec world config predicate retainRefineFiles intact
        ((chunk :: chunks).flatten.flatMap rowsOf) accum
        { accum with checks := accum.checks + 1, chunkDecodedBytes := 0 } (.capped .deadline) :=
      ⟨by simp, [], _, [], rfl, by simp, .nil⟩
    rw [refineChunks] at h
    dsimp only at h
    split at h
    · cases h
      exact ⟨hw.newChunk, by simp, le_rfl, fun _ => hcut⟩
    · split at h
      · cases h
        exact ⟨hw.newChunk, by simp, le_rfl, fun _ => hcut⟩
      · cases h
        exact ⟨hw.newChunk, by simp, le_rfl, fun _ => trivial⟩
      · rename_i items hitems
        have hitems := hydrateBoundedChunk_eq_ok hrows (hnodup chunk (List.mem_cons_self ..)) hitems
        rw [List.flatten_cons, List.flatMap_append, ← hitems]
        rcases hchunk : refineChunk world config predicate retainRefineFiles items
          { accum with checks := accum.checks + 1, chunkDecodedBytes := 0 } with ⟨round, accum₁⟩
        obtain ⟨hw₁, hle₁, hspec₁⟩ := refineChunk_spec hw.newChunk hchunk
        rw [hchunk] at h
        cases round with
        | capped cap =>
          cases h
          refine ⟨hw₁, by simpa using hw₁.decoded_le, hle₁, fun hintact => ?_⟩
          obtain ⟨hcap, visited, rest, out, rfl, hout, hrefines⟩ := hspec₁ hintact
          exact ⟨hcap, visited, rest ++ chunks.flatten.flatMap rowsOf, out, by simp, hout, hrefines⟩
        | decline =>
          cases h
          exact ⟨hw₁, by simpa using hw₁.decoded_le, hle₁, fun _ => trivial⟩
        | next =>
          rcases hrest : refineChunks world config predicate retainRefineFiles chunks accum₁
            with ⟨stop', last, decoded'⟩
          dsimp only at h
          rw [hrest, Prod.mk.injEq, Prod.mk.injEq] at h
          obtain ⟨rfl, rfl, rfl⟩ := h
          obtain ⟨hw', hall, hle, hspec⟩ :=
            ih (fun c hc => hnodup c (List.mem_cons_of_mem _ hc)) hw₁ hrest
          refine ⟨hw', List.forall_mem_cons.mpr ⟨hw₁.decoded_le, hall⟩, hle₁.trans hle,
            fun hintact => ?_⟩
          have hspec₁ := hspec₁ fun hi => Nat.le_zero.mp (hintact hi ▸ hle)
          have hspec := hspec hintact
          -- a loop ends as its last round does
          cases stop' with
          | finished => exact hspec₁.append (show RoundSpec _ _ _ _ _ _ _ _ .next from hspec)
          | capped cap =>
            exact hspec₁.append (show RoundSpec _ _ _ _ _ _ _ _ (.capped cap) from hspec)
          | declined => trivial

end Rounds

/-! ## The route -/

/-- A cap cut the refined list short. -/
def Route.Cut (route : Route Blob Row Aggregations) : Prop :=
  route.cap ≠ .none ∨ route.shed = true

/-- The files of the item can be obtained, or are known to be too many. -/
def Readable (world : World Blob Row Aggregations) (config : ComposerConfig)
    (item : SearchResultItem Blob Row) : Prop :=
  Oversized world.codec config False item.torrent ∨
    ∃ files, Obtains world.codec config False item.torrent files

/-- What a served route is made of. -/
structure Serves (world : World Blob Row Aggregations) (config : ComposerConfig)
    (predicate : RefinePredicate) (retainRefineFiles : Bool) (limit offset : Nat)
    (items : List (SearchResultItem Blob Row)) (route : Route Blob Row Aggregations) : Prop where
  page : route.result.items = paginate route.refined offset limit
  refines : ∃ visited rest, items = visited ++ rest ∧
    RefinesTo world config predicate retainRefineFiles (route.undecoded = 0) visited
      route.refined ∧ (rest ≠ [] → route.Cut)

lemma keptIds_eq (config : ComposerConfig) (metadata : InfoHash → Option RefineMetadata)
    (ids : List InfoHash) :
    Distinct.firsts [] (declineOversized config ids metadata).1 = keptIds config metadata ids :=
  Distinct.firsts_filter ..

lemma keptIds_eq_nil_iff {config : ComposerConfig}
    {metadata : InfoHash → Option RefineMetadata} {ids : List InfoHash} :
    keptIds config metadata ids = [] ↔ (declineOversized config ids metadata).1 = [] := by
  rw [← keptIds_eq, List.eq_nil_iff_forall_not_mem, List.eq_nil_iff_forall_not_mem]
  simp only [Distinct.mem_firsts, List.not_mem_nil, not_false_eq_true, and_true]

section Route

variable {world : World Blob Row Aggregations} {config : ComposerConfig}
  {predicate : RefinePredicate} {retainRefineFiles : Bool} {limit offset : Nat}
  {rowsOf : InfoHash → List (SearchResultItem Blob Row)}

lemma within_empty : Within config ({} : RefineAccum Blob Row) :=
  ⟨rfl, Nat.zero_le _, rfl, Nat.zero_le _, Nat.zero_le _⟩

/-- The budgets of a route. -/
structure Route.Within (config : ComposerConfig) (route : Route Blob Row Aggregations) : Prop where
  files_eq : route.retainedFiles = saturated (route.refined.map (·.refineFiles.length)).sum
  files_le : route.retainedFiles ≤ config.retainedFileBudget
  bytes_eq : route.retainedBytes = saturated (route.refined.map (·.retainedBytes)).sum
  bytes_le : route.retainedBytes ≤ config.retainedByteBudget
  decoded_le : ∀ n ∈ route.chunkDecodedBytes, n ≤ config.refineDecodedByteBudget

lemma refineRoute_spec (hrows : Hydrates world rowsOf) {ids : List InfoHash}
    {candidateTotal : Nat} {chunks : List (List InfoHash)} {preflightByteCapped : Bool}
    (hnodup : ∀ chunk ∈ chunks, chunk.Nodup) {route : Route Blob Row Aggregations}
    (hroute : refineRoute world config predicate retainRefineFiles limit offset ids candidateTotal
      chunks preflightByteCapped = route) :
    route.Within config ∧ (route.served →
      Serves world config predicate retainRefineFiles limit offset (chunks.flatten.flatMap rowsOf)
        route) := by
  rcases hloop : refineChunks world config predicate retainRefineFiles chunks {} with
    ⟨stop, accum, decoded⟩
  obtain ⟨hw, hdecoded, -, hspec⟩ := refineChunks_spec hrows hnodup within_empty hloop
  have hspec := hspec (fun h : accum.undecoded = 0 => h)
  unfold refineRoute at hroute
  rw [hloop] at hroute
  subst hroute
  refine ⟨?_, fun hserved => ?_⟩
  · cases stop
    all_goals exact ⟨hw.files_eq, hw.files_le, hw.bytes_eq, hw.bytes_le, hdecoded⟩
  cases stop with
  | finished =>
    obtain ⟨out, hout, hrefines⟩ := hspec
    have hout : accum.refined = out := hout
    rw [← hout] at hrefines
    exact ⟨rfl, _, [], (List.append_nil _).symm, hrefines, fun hne => absurd rfl hne⟩
  | capped cap =>
    obtain ⟨hcap, visited, rest, out, hsplit, hout, hrefines⟩ := hspec
    have hout : accum.refined = out := hout
    rw [← hout] at hrefines
    exact ⟨rfl, visited, rest, hsplit, hrefines, fun _ => .inl hcap⟩
  | declined => cases hserved

/-- The test for a further page: items are left of the refined list, or candidates. -/
def FurtherPage (config : ComposerConfig) (metadata : InfoHash → Option RefineMetadata)
    (ids : List InfoHash) (candidateTotal offset : Nat) (route : Route Blob Row Aggregations) :
    Prop :=
  keptIds config metadata ids ≠ [] ∧
    (satAdd offset (saturated route.result.items.length) < saturated route.refined.length ∨
      (candidateTotal > saturated ids.length ∧ saturated ids.length < config.maxCandidatesCap))

lemma refineRoute_hasNextPage {metadata : InfoHash → Option RefineMetadata}
    {ids : List InfoHash} {candidateTotal : Nat} {chunks : List (List InfoHash)}
    {preflightByteCapped : Bool} (hkept : keptIds config metadata ids ≠ [])
    (hserved : (refineRoute world config predicate retainRefineFiles limit offset ids candidateTotal
      chunks preflightByteCapped).served) :
    (refineRoute world config predicate retainRefineFiles limit offset ids candidateTotal chunks
        preflightByteCapped).result.hasNextPage ↔
      FurtherPage config metadata ids candidateTotal offset
        (refineRoute world config predicate retainRefineFiles limit offset ids candidateTotal chunks
          preflightByteCapped) := by
  rcases hloop : refineChunks world config predicate retainRefineFiles chunks {} with
    ⟨stop, accum, decoded⟩
  unfold refineRoute FurtherPage at *
  rw [hloop] at hserved ⊢
  cases stop with
  | finished | capped cap =>
    dsimp only [pageOf]
    rw [decide_eq_true_iff]
    exact (and_iff_right hkept).symm
  | declined => cases hserved

lemma RefinesTo.readable {intact : Prop} {items out : List (SearchResultItem Blob Row)}
    (h : RefinesTo world config predicate retainRefineFiles intact items out) :
    ∀ item ∈ items, Readable world config item := by
  have hreads : ∀ {torrent : Torrent Blob} {result}, Reads world.codec config intact torrent result →
      Reads world.codec config False torrent result := by
    rintro torrent result ⟨m, o, hm, ho, hresult, -⟩
    exact ⟨m, o, hm, ho, hresult, False.elim⟩
  induction h with
  | nil => simp
  | keep hfiles _ _ _ ih | miss hfiles _ _ ih =>
    obtain ⟨decoded, hread, rfl⟩ := hfiles
    intro item hitem
    rcases List.mem_cons.mp hitem with rfl | hitem
    · exact .inr ⟨_, decoded, hreads hread, rfl⟩
    · exact ih item hitem
  | oversized hsize _ ih =>
    intro item hitem
    rcases List.mem_cons.mp hitem with rfl | hitem
    · rcases hsize with ⟨count, limit, hread⟩ | ⟨files, ⟨decoded, hread, rfl⟩, _⟩
      · exact .inl (.inl ⟨count, limit, hreads hread⟩)
      · exact .inr ⟨_, decoded, hreads hread, rfl⟩
    · exact ih item hitem

variable {route : Route Blob Row Aggregations}

/-- A route that refined nothing is within its budgets. -/
lemma within_nothing (hrefined : route.refined = []) (hfiles : route.retainedFiles = 0)
    (hbytes : route.retainedBytes = 0) (hdecoded : route.chunkDecodedBytes = []) :
    route.Within config where
  files_eq := by simp [hfiles, hrefined, saturated]
  files_le := by simp [hfiles]
  bytes_eq := by simp [hbytes, hrefined, saturated]
  bytes_le := by simp [hbytes]
  decoded_le := by simp [hdecoded]

/-- A served route that refined nothing. -/
lemma serves_nothing {items : List (SearchResultItem Blob Row)} (hrefined : route.refined = [])
    (hpage : route.result.items = []) (hcut : items ≠ [] → route.Cut) :
    Serves world config predicate retainRefineFiles limit offset items route where
  page := by simp [hpage, hrefined, paginate]
  refines := ⟨[], items, rfl, by rw [hrefined]; exact .nil, hcut⟩

/-- How a request can go, said once: its budgets, its refined list and its test for a
further page. -/
lemma composeTorrentContent_spec {filters : Filters} (hrows : Hydrates world rowsOf)
    (hroute : composeTorrentContent world config filters retainRefineFiles limit offset = route) :
    route.Within config ∧
    (route.served → ∃ ids candidateTotal metadata,
      candidateIds world config filters.query limit offset = some (ids, candidateTotal) ∧
      (ids ≠ [] → world.refineMetadata ids = some metadata) ∧
      Serves world config (filters.predicate world.casing) retainRefineFiles limit offset
        (hydrated config metadata rowsOf ids) route ∧
      (route.shed = false →
        (route.result.hasNextPage ↔
          FurtherPage config metadata ids candidateTotal offset route))) := by
  have hdeclined : (declinedRoute world).Within config := within_nothing rfl rfl rfl rfl
  unfold composeTorrentContent at hroute
  dsimp only at hroute
  split at hroute
  · subst hroute
    exact ⟨hdeclined, fun hserved => by cases hserved⟩
  split at hroute
  · subst hroute
    exact ⟨hdeclined, fun hserved => by cases hserved⟩
  split at hroute
  · subst hroute
    exact ⟨hdeclined, fun hserved => by cases hserved⟩
  rename_i ids total hids
  split at hroute
  · rename_i hnil
    split at hroute
    · subst hroute
      refine ⟨within_nothing rfl rfl rfl rfl, fun _ => ⟨ids, total, fun _ => none, hids,
        fun hne => absurd hnil hne, serves_nothing rfl rfl fun hne => absurd ?_ hne,
        fun _ => iff_of_false Bool.false_ne_true fun hpage => hpage.1 ?_⟩⟩
      all_goals
        rw [hnil]
        rfl
    · subst hroute
      exact ⟨hdeclined, fun hserved => by cases hserved⟩
  split at hroute
  · subst hroute
    exact ⟨within_nothing rfl rfl rfl rfl, fun hserved => by cases hserved⟩
  rename_i metadata hmetadata
  have hkept : hydrated config metadata rowsOf ids =
      (Distinct.firsts [] (declineOversized config ids metadata).1).flatMap rowsOf := by
    rw [keptIds_eq]
    rfl
  split at hroute
  · rename_i hnone
    subst hroute
    refine ⟨within_nothing rfl rfl rfl rfl, fun _ => ⟨ids, total, metadata, hids,
      fun _ => hmetadata, serves_nothing rfl rfl fun hne => absurd ?_ hne,
      fun _ => iff_of_false Bool.false_ne_true fun hpage =>
        hpage.1 (keptIds_eq_nil_iff.mpr hnone)⟩⟩
    rw [hkept, hnone]
    rfl
  split at hroute
  · subst hroute
    exact ⟨within_nothing rfl rfl rfl rfl, fun _ => ⟨ids, total, metadata, hids, fun _ => hmetadata,
      serves_nothing rfl rfl fun _ => .inr rfl, fun hshed => by cases hshed⟩⟩
  · rename_i hsome _
    obtain ⟨hwithin, hserves⟩ := refineRoute_spec hrows
      (fun chunk hchunk => nodup_of_mem_chunks hchunk) hroute
    rw [flatten_chunkByFileBudget, ← hkept] at hserves
    refine ⟨hwithin, fun hserved => ⟨ids, total, metadata, hids, fun _ => hmetadata,
      hserves hserved, fun _ => ?_⟩⟩
    subst hroute
    exact refineRoute_hasNextPage (fun h => hsome (keptIds_eq_nil_iff.mp h)) hserved

end Route

/-! ## A small database -/

/-- Lower-casing of ASCII text. -/
def asciiCasing : Casing := ⟨fun c => [c.toLower], fun text => text.map Char.toLower⟩

/-- An info hash of one repeated byte. -/
def InfoHash.ofByte (byte : UInt8) : InfoHash := ⟨List.replicate 20 byte, List.length_replicate⟩

/-- A row of a single-file torrent without a blob. -/
def singleFileItem (byte : UInt8) (name : String) : SearchResultItem Empty Unit :=
  ⟨.ofByte byte, ⟨name.toList, 1, .single, none⟩, [], ()⟩

/-- A world in which nothing fails, with a ranked list of candidates and a table of rows. -/
def quietWorld (ranked : List InfoHash) (rows : List (SearchResultItem Empty Unit)) :
    World Empty Unit Unit where
  casing := asciiCasing
  codec := ⟨fun blob => blob.elim, fun _ => .malformed⟩
  healthy := true
  trustEmpty := true
  pathCandidates request := some ⟨(ranked.take request.limit).map (·.bytes.val), ranked.length⟩
  refineMetadata _ := some fun _ => none
  slot := true
  hydrate ids := .rows (rows.filter (·.infoHash ∈ ids))
  leftFailsFirst _ _ := true
  expired _ := false
  aggregate _ := some ()
  noAggregations := ()

lemma quietWorld_hydrates (ranked : List InfoHash) (rows : List (SearchResultItem Empty Unit)) :
    Hydrates (quietWorld ranked rows) fun id => rows.filter (·.infoHash = id) := by
  intro ids items hitems id hid
  cases hitems
  rw [List.filter_filter]
  refine List.filter_congr fun item _ => ?_
  by_cases h : item.infoHash = id
  · simp [h, hid]
  · simp [h]

end Bitmagnet.SearchServe
