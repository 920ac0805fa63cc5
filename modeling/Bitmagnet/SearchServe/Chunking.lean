import Bitmagnet.SearchServe.Refinement

/-!
# Chunks stay within their budgets

`chunk_by_file_budget` tests its budgets only where a chunk has a candidate already, so a
chunk of one candidate is within them because `decline_oversized` left no candidate that is
above the caps, and the caps are at most the budgets.

The sums of the source saturate.  A saturated sum is at most a budget below `u64::MAX` only
where the sum itself is, so the bounds are on the sums; a byte budget of `u64::MAX` is no
bound at all.
-/

namespace Bitmagnet.SearchServe

variable {config : ComposerConfig} {metadata : InfoHash → Option RefineMetadata}

/-- The files a candidate is charged for: its count, or the file cap where it is unknown. -/
def chargedFiles (config : ComposerConfig) (metadata : InfoHash → Option RefineMetadata)
    (id : InfoHash) : Nat :=
  (((metadata id).bind (·.fileCount)).map Int.toNat).getD config.effectiveFileCap

/-- The compressed bytes a candidate is charged for. -/
def chargedBytes (metadata : InfoHash → Option RefineMetadata) (id : InfoHash) : Nat :=
  ((metadata id).bind (·.compressedBytes)).getD 0

/-- A candidate that is not oversized is charged what the source counts, and fits a chunk of
its own. -/
structure Fits (config : ComposerConfig) (metadata : InfoHash → Option RefineMetadata)
    (id : InfoHash) : Prop where
  counted : fileCountOf config metadata id = chargedFiles config metadata id
  files : chargedFiles config metadata id ≤ config.refineFileBudget
  bytes : chargedBytes metadata id ≤ config.refineDecodedByteBudget

lemma fits_of_mem_declineOversized {ids : List InfoHash} {id : InfoHash}
    (h : id ∈ (declineOversized config ids metadata).1) : Fits config metadata id := by
  have hfileCap : config.effectiveFileCap ≤ config.refineFileBudget := by
    unfold ComposerConfig.effectiveFileCap
    omega
  have hbyteCap : config.compressedBlobCap ≤ config.refineDecodedByteBudget :=
    Nat.min_le_right ..
  have hkept := (List.mem_filter.mp h).2
  unfold declinedByCount declinedByBytes at hkept
  rcases hmetadata : metadata id with _ | ⟨_ | count, _ | bytes⟩
  all_goals
    simp only [hmetadata, Option.getD, Option.any, decide_eq_true_eq] at hkept
    constructor
    all_goals simp only [fileCountOf, chargedFiles, chargedBytes, hmetadata, Option.bind,
      Option.map, Option.getD]
    all_goals first | rfl | omega | (split <;> omega)

/-- What holds of the chunk that is being filled. -/
structure OpenChunk.Within (config : ComposerConfig)
    (metadata : InfoHash → Option RefineMetadata) (chunk : OpenChunk) : Prop where
  torrents : chunk.ids.length ≤ max config.maxChunkTorrents 1
  counted : chunk.files = saturated (chunk.ids.map (chargedFiles config metadata)).sum
  files : (chunk.ids.map (chargedFiles config metadata)).sum ≤ config.refineFileBudget
  weighed : chunk.compressedBytes = saturated (chunk.ids.map (chargedBytes metadata)).sum
  bytes : config.refineDecodedByteBudget < u64Max →
    (chunk.ids.map (chargedBytes metadata)).sum ≤ config.refineDecodedByteBudget

lemma OpenChunk.within_empty : OpenChunk.Within config metadata {} :=
  ⟨Nat.zero_le _, rfl, Nat.zero_le _, rfl, fun _ => Nat.zero_le _⟩

/-- A candidate that the chunk has room for keeps it within its budgets. -/
lemma OpenChunk.Within.add {chunk : OpenChunk} {id : InfoHash}
    (hbudget : config.refineFileBudget < u64Max) (h : chunk.Within config metadata)
    (hid : Fits config metadata id)
    (hroom : ¬ chunk.full config (fileCountOf config metadata id) (chargedBytes metadata id)) :
    OpenChunk.Within config metadata
      ⟨chunk.ids ++ [id], satAdd chunk.files (fileCountOf config metadata id),
        satAdd chunk.compressedBytes (chargedBytes metadata id)⟩ := by
  obtain ⟨htorrents, hcounted, hfiles, hweighed, hbytes⟩ := h
  have hone := hid.files
  have hbyte := hid.bytes
  rw [hid.counted] at hroom ⊢
  rw [OpenChunk.full, decide_eq_true_eq, hcounted, hweighed] at hroom
  rw [hcounted, hweighed]
  by_cases hids : chunk.ids = []
  · -- the empty chunk is never full, and the candidate fits it
    simp only [hids]
    constructor <;> simp [saturated, satAdd, hone, hbyte]
  · simp only [hids, ne_eq, not_false_eq_true, true_and, not_or, ge_iff_le, gt_iff_lt, Nat.not_le,
      Nat.not_lt, satAdd, saturated] at hroom
    constructor
    all_goals simp only [List.length_append, List.length_singleton, List.map_append,
      List.map_singleton, List.sum_append, List.sum_singleton, satAdd, saturated]
    all_goals omega

/-- Every chunk that is closed was within its budgets when it was. -/
lemma chunkFrom_within (hbudget : config.refineFileBudget < u64Max) {seen : List InfoHash}
    {chunk : OpenChunk} {ids closed : List InfoHash} (h : chunk.Within config metadata)
    (hids : ∀ id ∈ ids, Fits config metadata id)
    (hclosed : closed ∈ chunkFrom config metadata seen chunk ids) :
    closed ≠ [] ∧ ∃ chunk : OpenChunk, chunk.Within config metadata ∧ chunk.ids = closed := by
  induction ids generalizing seen chunk with
  | nil =>
    rw [chunkFrom] at hclosed
    split at hclosed
    · cases hclosed
    · rename_i hne
      rw [List.mem_singleton.mp hclosed]
      exact ⟨hne, chunk, h, rfl⟩
  | cons id ids ih =>
    obtain ⟨hid, hids⟩ := List.forall_mem_cons.mp hids
    rw [chunkFrom] at hclosed
    split at hclosed
    · exact ih h hids hclosed
    · dsimp only at hclosed
      split at hclosed
      · rename_i hfull
        rcases List.mem_cons.mp hclosed with rfl | hclosed
        · exact ⟨(of_decide_eq_true hfull).1, chunk, h, rfl⟩
        · have hfresh := OpenChunk.within_empty.add hbudget hid (by simp [OpenChunk.full])
          exact ih hfresh hids hclosed
      · rename_i hroom
        exact ih (h.add hbudget hid hroom) hids hclosed

/-- **The chunks are the surviving candidates, each once, within the budgets.**  A chunk of
one candidate is within them as well.  The file budget is a `u32`; the byte budget bounds the
chunks unless it is `u64::MAX`. -/
theorem chunkByFileBudget_within_budgets (config : ComposerConfig)
    (htorrents : 0 < config.maxChunkTorrents) (hfiles : config.refineFileBudget < 2 ^ 32)
    (ids : List InfoHash) (metadata : InfoHash → Option RefineMetadata) :
    (chunkByFileBudget config (declineOversized config ids metadata).1 metadata).flatten =
      Distinct.firsts [] (declineOversized config ids metadata).1 ∧
    ∀ chunk ∈ chunkByFileBudget config (declineOversized config ids metadata).1 metadata,
      chunk ≠ [] ∧ chunk.length ≤ config.maxChunkTorrents ∧
      (chunk.map (chargedFiles config metadata)).sum ≤ config.refineFileBudget ∧
      (config.refineDecodedByteBudget < u64Max →
        (chunk.map (chargedBytes metadata)).sum ≤ config.refineDecodedByteBudget) := by
  refine ⟨flatten_chunkByFileBudget .., fun closed hclosed => ?_⟩
  obtain ⟨hne, chunk, hwithin, rfl⟩ := chunkFrom_within (by unfold u64Max; omega)
    OpenChunk.within_empty (fun _ => fits_of_mem_declineOversized) hclosed
  have hlength := hwithin.torrents
  exact ⟨hne, by omega, hwithin.files, hwithin.bytes⟩

/-- Three candidates of two files each, with room for four files in a chunk. -/
theorem chunkByFileBudget_within_budgets_fourFiles :
    chunkByFileBudget { refineFileBudget := 4 } [.ofByte 1, .ofByte 2, .ofByte 1, .ofByte 3]
        (fun _ => some ⟨some 2, some 9⟩) =
      [[.ofByte 1, .ofByte 2], [.ofByte 3]] ∧
    ∀ chunk ∈ chunkByFileBudget { refineFileBudget := 4 }
        (declineOversized { refineFileBudget := 4 }
          [.ofByte 1, .ofByte 2, .ofByte 1, .ofByte 3] fun _ => some ⟨some 2, some 9⟩).1
        (fun _ => some ⟨some 2, some 9⟩), chunk.length ≤ 1024 :=
  ⟨by decide, fun chunk hchunk => ((chunkByFileBudget_within_budgets { refineFileBudget := 4 }
    (by decide) (by decide) _ _).2 chunk hchunk).2.1⟩

/-- Two blobs of half of `u64` each are one chunk under a byte budget of `u64::MAX`. -/
theorem chunkByFileBudget_unlimited_bytes :
    let config : ComposerConfig :=
      { maxRefineDecompressedBytes := u64Max, refineDecodedByteBudget := u64Max }
    let metadata := fun _ => some ⟨some 1, some (2 ^ 63)⟩
    let ids := [InfoHash.ofByte 1, .ofByte 2]
    (declineOversized config ids metadata).1 = ids ∧
      chunkByFileBudget config ids metadata = [ids] ∧
      config.refineDecodedByteBudget < (ids.map (chargedBytes metadata)).sum := by
  decide

end Bitmagnet.SearchServe
