import Bitmagnet.Library.Fallible
import Bitmagnet.Processor.WriterPlan

/-!
# No requested hash is lost

A requested hash has one of three fates: a row is written for it, its torrent is
deleted, or it failed and is retried.  `Classified.verdict` reads the fate off a
classified slot, and `Folded` says that the fold sorts the slots by it.  The slots are
the distinct requested hashes (`slotsFrom_eq`), so the three ledgers partition the
request, and since the loaded torrents are the same under both maps the composition
makes of them (`indexed_lookup`, `loaded_lookup`), the ledger of retries is the ledger
of failures.

Persisting is then a matter of order: the log of `persistWriterPlanWith` has the
publication of the retry, if one is needed, before the persister's call.
-/

namespace Bitmagnet.Processor

open Queue (ProtocolId ProcessTorrentParams QueueJob processTorrentJob)
open Fallible (Errs errs_ok errs_error bind_eq_ok)

/-! ## Verdicts -/

/-- What becomes of a requested hash. -/
inductive Verdict
  | written
  | deleted
  | failed
deriving DecidableEq

/-- A classifier outcome that is retried. -/
def Outcome.isFailure : Outcome → Bool
  | .unmatched _ | .error _ => true
  | .classified | .deleted _ => false

variable {Details Tsv Value : Type}

/-- The fate of a classified slot. -/
def Classified.verdict (slot : Classified Details Tsv) : Verdict :=
  match slot.loaded with
  | none => .failed
  | some (_, _, .classified) => .written
  | some (_, _, .deleted _) => .deleted
  | some (_, _, .unmatched _) | some (_, _, .error _) => .failed

/-- The torrent of a slot is the one it was loaded for. -/
def Classified.Matches (slot : Classified Details Tsv) : Prop :=
  ∀ torrent result outcome, slot.loaded = some (torrent, result, outcome) →
    torrent.infoHash = slot.infoHash

/-- The hashes of the slots that satisfy a test, in order. -/
def hashesWhere (test : Classified Details Tsv → Bool) (slots : List (Classified Details Tsv)) :
    List String :=
  (slots.filter test).map (·.infoHash)

lemma hashesWhere_concat (test : Classified Details Tsv → Bool)
    (slots : List (Classified Details Tsv)) (slot : Classified Details Tsv) :
    hashesWhere test (slots ++ [slot]) =
      hashesWhere test slots ++ if test slot then [slot.infoHash] else [] := by
  cases h : test slot <;> simp [hashesWhere, h]

/-! ## The fold sorts the slots by verdict -/

/-- The ledgers after folding `slots`. -/
structure Folded (slots : List (Classified Details Tsv))
    (out : MaterializedWriterOutput Details Tsv) : Prop where
  rows : out.writeSet.torrentContents.map (·.infoHash) =
    hashesWhere (·.verdict = .written) slots
  deletes : out.writeSet.deleteInfoHashes = hashesWhere (·.verdict = .deleted) slots
  failed : out.writeSet.failedInfoHashes = hashesWhere (·.verdict = .failed) slots
  failures : out.classifierFailures.map (·.infoHash) =
    hashesWhere (fun slot => slot.verdict = .failed ∧ slot.loaded.isSome) slots
  ids : ∀ row ∈ out.writeSet.torrentContents,
    row.id = inferId row.infoHash row.contentType row.contentSource row.contentId

/-- One slot goes to one ledger. -/
lemma Folded.round [DecidableEq Details] [DecidableEq Tsv]
    {updateTsv : Content Details Tsv → Tsv} {slots : List (Classified Details Tsv)} {slot : Classified Details Tsv}
    {out out' : MaterializedWriterOutput Details Tsv} (hslot : slot.Matches)
    (h : Folded slots out)
    (hround : (foldRound updateTsv out slot : Except (MaterializeError Value) _) = .ok out') :
    Folded (slots ++ [slot]) out' := by
  -- the ledgers grow by the slot's hash where its verdict says so
  have hledgers : ∀ v, slot.verdict = v → ∀ w, hashesWhere (·.verdict = w) (slots ++ [slot]) =
      hashesWhere (·.verdict = w) slots ++ if v = w then [slot.infoHash] else [] := by
    rintro _ rfl w
    simp [hashesWhere_concat]
  unfold foldRound at hround
  cases hloaded : slot.loaded with
  | none =>
    rw [hloaded] at hround
    cases hround
    have hrows := hledgers .failed (by simp [Classified.verdict, hloaded])
    exact ⟨by simp [hrows, h.rows], by simp [hrows, h.deletes], by simp [hrows, h.failed],
      by simp [hashesWhere_concat, hloaded, h.failures], h.ids⟩
  | some loaded =>
    obtain ⟨torrent, result, outcome⟩ := loaded
    have hhash := hslot _ _ _ hloaded
    rw [hloaded] at hround
    obtain ⟨⟨emitContent, contents⟩, -, hround⟩ := bind_eq_ok.mp hround
    cases outcome with
    | classified =>
      cases hround
      have hverdict : slot.verdict = .written := by simp [Classified.verdict, hloaded]
      have hrows := hledgers _ hverdict
      refine ⟨by simp [hrows, torrentContentWrite, h.rows, hhash], by simp [hrows, h.deletes],
        by simp [hrows, h.failed], by simp [hashesWhere_concat, hverdict, h.failures], ?_⟩
      intro row hrow
      rcases List.mem_append.mp hrow with hrow | hrow
      · exact h.ids row hrow
      · rw [List.mem_singleton.mp hrow]
        rfl
    | deleted error =>
      cases hround
      have hverdict : slot.verdict = .deleted := by simp [Classified.verdict, hloaded]
      have hrows := hledgers _ hverdict
      exact ⟨by simp [hrows, h.rows], by simp [hrows, h.deletes, hhash],
        by simp [hrows, h.failed], by simp [hashesWhere_concat, hverdict, h.failures], h.ids⟩
    | unmatched error | error error =>
      cases hround
      have hverdict : slot.verdict = .failed := by simp [Classified.verdict, hloaded]
      have hrows := hledgers _ hverdict
      exact ⟨by simp [hrows, h.rows], by simp [hrows, h.deletes], by simp [hrows, h.failed, hhash],
        by simp [hashesWhere_concat, hverdict, hloaded, h.failures], h.ids⟩

/-- **The fold sorts the slots by verdict.** -/
lemma foldClassified_folded [DecidableEq Details] [DecidableEq Tsv]
    {updateTsv : Content Details Tsv → Tsv} {slots : List (Classified Details Tsv)} {out : MaterializedWriterOutput Details Tsv}
    (hslots : ∀ slot ∈ slots, slot.Matches)
    (h : (foldClassified updateTsv slots : Except (MaterializeError Value) _) = .ok out) :
    Folded slots out := by
  -- the invariant also says that the slots folded so far are among the given ones
  have hrun := Fallible.foldlM_ok (I := fun done out => (∀ slot ∈ done, slot ∈ slots) →
    Folded done out) ?_ ?_ h
  · exact hrun fun _ hslot => hslot
  · intro done slot out out' ih hround hdone
    refine (ih fun s hs => hdone s (by simp [hs])).round (hslots slot (hdone slot (by simp))) hround
  · intro _
    exact ⟨rfl, rfl, rfl, rfl, by simp⟩

/-! ## The two maps of the loaded torrents -/

lemma indexed_lookup {loaded : List (WriterLoadedTorrent Details Tsv)} {live : Bool}
    {indexed : List (String × WriterLoadedTorrent Details Tsv)}
    (h : (indexLoadedTorrents loaded live : Except (WriterPlanError Value) _) = .ok indexed)
    (infoHash : String) :
    indexed.lookup infoHash = loaded.find? (·.loaded.infoHash = infoHash) := by
  refine Fallible.foldlM_ok (I := fun done m =>
    ∀ k, m.lookup k = done.find? (·.loaded.infoHash = k)) ?_ ?_ h infoHash
  · intro done torrent m m' hm hround
    obtain ⟨-, -, hround⟩ := bind_eq_ok.mp hround
    split at hround
    · cases hround
    · rename_i hnew
      cases hround
      exact SortedMap.lookup_concat hm (Option.not_isSome_iff_eq_none.mp hnew)
  · simp

lemma loaded_lookup {torrents : List (LoadedTorrent Details Tsv)}
    {loaded : List (String × LoadedTorrent Details Tsv)}
    (h : (loadedMap torrents : Except (MaterializeError Value) _) = .ok loaded)
    (infoHash : String) :
    loaded.lookup infoHash = torrents.find? (·.infoHash = infoHash) := by
  refine Fallible.foldlM_ok (I := fun done m =>
    ∀ k, m.lookup k = done.find? (·.infoHash = k)) ?_ ?_ h infoHash
  · intro done torrent m m' hm hround
    obtain ⟨-, -, hround⟩ := bind_eq_ok.mp hround
    split at hround
    · cases hround
    · rename_i hnew
      cases hround
      exact SortedMap.lookup_concat hm (Option.not_isSome_iff_eq_none.mp hnew)
  · simp

/-! ## Slots -/

lemma length_toHex (id : ProtocolId) : (toHex id).toList.length = 40 := by
  simp [toHex, Hex.length_encode, id.bytes.property]

lemma validateInfoHash_toHex (id : ProtocolId) :
    (validateInfoHash (toHex id) : Except (MaterializeError Value) Unit) = .ok () := by
  refine if_pos ⟨length_toHex id, List.all_eq_true.mpr fun c hc => ?_⟩
  rw [toHex, String.toList_ofList] at hc
  exact Hex.isLower_of_mem_encode hc

lemma protocolIdHex_eq (id : ProtocolId) :
    (protocolIdHex id : Except (MaterializeError Value) String) = .ok (toHex id) := by
  rw [protocolIdHex, validateInfoHash_toHex]
  rfl

lemma protocolIdFromHex_toHex (id : ProtocolId) : protocolIdFromHex (toHex id) = some id := by
  simp [protocolIdFromHex, toHex, Hex.decode_encode]

/-- **The slots are the distinct requested hashes**, in first-request order. -/
lemma slotsFrom_eq (loaded : List (String × LoadedTorrent Details Tsv)) (seen : List String)
    (requested : List ProtocolId) :
    (slotsFrom loaded seen requested : _ × Option (MaterializeError Value)) =
      ((Distinct.firsts seen (requested.map toHex)).map fun infoHash =>
        ⟨infoHash, loaded.lookup infoHash⟩, none) := by
  induction requested generalizing seen with
  | nil => rfl
  | cons id requested ih =>
    rw [slotsFrom, protocolIdHex_eq, List.map_cons, Distinct.firsts]
    dsimp only
    split
    · exact ih seen
    · rw [ih]
      rfl

/-! ## Composition -/

/-- The classified slots of a request. -/
def classifiedSlots (m : Materializer Details Tsv) (flags : List (String × Bool))
    (params : ProcessTorrentParams Value) (loaded : List (WriterLoadedTorrent Details Tsv)) :
    List (Classified Details Tsv) :=
  (Distinct.firsts [] (params.infoHashes.map toHex)).map fun infoHash =>
    m.classifySlot (resolvedWorkflow params) flags
      ⟨infoHash, (loaded.find? (·.loaded.infoHash = infoHash)).map (·.loaded)⟩

section Slots

variable {m : Materializer Details Tsv} {flags : List (String × Bool)}
  {params : ProcessTorrentParams Value} {loaded : List (WriterLoadedTorrent Details Tsv)}

lemma map_infoHash_classifiedSlots :
    (classifiedSlots m flags params loaded).map (·.infoHash) =
      Distinct.firsts [] (params.infoHashes.map toHex) := by
  simp [classifiedSlots, Materializer.classifySlot, Function.comp_def]

lemma nodup_classifiedSlots : ((classifiedSlots m flags params loaded).map (·.infoHash)).Nodup := by
  rw [map_infoHash_classifiedSlots]
  exact Distinct.nodup_firsts ..

lemma mem_classifiedSlots {infoHash : String} :
    infoHash ∈ (classifiedSlots m flags params loaded).map (·.infoHash) ↔
      infoHash ∈ params.infoHashes.map toHex := by
  rw [map_infoHash_classifiedSlots, Distinct.mem_firsts]
  simp

lemma matches_classifiedSlots : ∀ slot ∈ classifiedSlots m flags params loaded, slot.Matches := by
  intro slot hslot torrent result outcome hloaded
  obtain ⟨infoHash, -, rfl⟩ := List.mem_map.mp hslot
  simp only [Materializer.classifySlot, Option.map_map, Option.map_eq_some_iff,
    Function.comp_apply] at hloaded ⊢
  obtain ⟨found, hfound, heq⟩ := hloaded
  have htorrent : found.loaded = torrent := congrArg Prod.fst heq
  rw [← htorrent]
  simpa using List.find?_some hfound

/-- A slot is loaded where a torrent with its hash is. -/
lemma isSome_loaded_of_mem {slot : Classified Details Tsv}
    (h : slot ∈ classifiedSlots m flags params loaded) :
    slot.loaded.isSome = (loaded.find? (·.loaded.infoHash = slot.infoHash)).isSome := by
  obtain ⟨infoHash, -, rfl⟩ := List.mem_map.mp h
  simp [Materializer.classifySlot]

/-- What `materialize_scoped` returns, before it is put in canonical order. -/
lemma materializeScoped_eq_ok [DecidableEq Details] [DecidableEq Tsv]
    {asBool : Value → Option Bool} {out : MaterializedWriterOutput Details Tsv}
    (h : m.materializeScoped asBool params (loaded.map (·.loaded)) = .ok out) :
    ∃ flags folded, classifierFlags asBool params.classifierFlags = .ok flags ∧
      Folded (classifiedSlots m flags params loaded) folded ∧
      out = { folded with writeSet := folded.writeSet.canonicalize } := by
  unfold Materializer.materializeScoped at h
  obtain ⟨flags, hflags, h⟩ := bind_eq_ok.mp h
  obtain ⟨map, hmap, h⟩ := bind_eq_ok.mp h
  rw [slotsFrom_eq] at h
  dsimp only at h
  have hslots : ((Distinct.firsts [] (params.infoHashes.map toHex)).map fun infoHash =>
        (⟨infoHash, map.lookup infoHash⟩ : Slot Details Tsv)).map
      (m.classifySlot (resolvedWorkflow params) flags) =
      classifiedSlots m flags params loaded := by
    rw [List.map_map, classifiedSlots]
    refine List.map_congr_left fun infoHash _ => ?_
    rw [Function.comp_apply, loaded_lookup hmap, List.find?_map]
    rfl
  rw [hslots] at h
  cases hfailure : m.resolverFailure with
  | some failure =>
    rw [hfailure] at h
    cases h
  | none =>
    rw [hfailure] at h
    obtain ⟨folded, hfolded, h⟩ := bind_eq_ok.mp h
    cases h
    exact ⟨flags, folded, hflags, foldClassified_folded matches_classifiedSlots hfolded, rfl⟩

end Slots

/-! ## The ledgers of a plan -/

/-- A torrent with the hash was loaded. -/
def IsLoaded (loaded : List (WriterLoadedTorrent Details Tsv)) (infoHash : String) : Bool :=
  (loaded.find? (·.loaded.infoHash = infoHash)).isSome

/-- The torrent loaded for the hash failed to classify. -/
def FailsToClassify (m : Materializer Details Tsv) (flags : List (String × Bool))
    (params : ProcessTorrentParams Value) (loaded : List (WriterLoadedTorrent Details Tsv))
    (infoHash : String) : Bool :=
  (loaded.find? (·.loaded.infoHash = infoHash)).any fun torrent =>
    (m.classify (resolvedWorkflow params) flags torrent.loaded).2.isFailure

/-- The request is the disjoint union of the hashes of written rows, deletions and
failures. -/
structure Accounted (requested : List String) (writeSet : WriteSet) : Prop where
  mem_iff : ∀ infoHash, infoHash ∈ requested ↔
    infoHash ∈ writeSet.torrentContents.map (·.infoHash) ∨
    infoHash ∈ writeSet.deleteInfoHashes ∨ infoHash ∈ writeSet.failedInfoHashes
  rows_deletes : List.Disjoint (writeSet.torrentContents.map (·.infoHash))
    writeSet.deleteInfoHashes
  rows_failed : List.Disjoint (writeSet.torrentContents.map (·.infoHash))
    writeSet.failedInfoHashes
  deletes_failed : List.Disjoint writeSet.deleteInfoHashes writeSet.failedInfoHashes
  rows_nodup : (writeSet.torrentContents.map (·.infoHash)).Nodup

/-- The map finds the loaded torrents by their hashes. -/
def Indexes (indexed : List (String × WriterLoadedTorrent Details Tsv))
    (loaded : List (WriterLoadedTorrent Details Tsv)) : Prop :=
  ∀ infoHash, indexed.lookup infoHash = loaded.find? (·.loaded.infoHash = infoHash)

section Ledgers

variable {m : Materializer Details Tsv} {flags : List (String × Bool)}
  {params : ProcessTorrentParams Value} {loaded : List (WriterLoadedTorrent Details Tsv)}
  {out : MaterializedWriterOutput Details Tsv} {slots : List (Classified Details Tsv)}

variable {infoHash : String}

lemma mem_hashesWhere {test : Classified Details Tsv → Bool} :
    infoHash ∈ hashesWhere test slots ↔ ∃ slot ∈ slots, test slot ∧ slot.infoHash = infoHash := by
  simp [hashesWhere, and_assoc]

/-- Slots of different verdicts have different hashes. -/
lemma disjoint_hashesWhere (hnodup : (slots.map (·.infoHash)).Nodup) {v v' : Verdict}
    (hne : v ≠ v') :
    List.Disjoint (hashesWhere (·.verdict = v) slots) (hashesWhere (·.verdict = v') slots) := by
  intro infoHash hmem hmem'
  obtain ⟨slot, hslot, hv, rfl⟩ := mem_hashesWhere.mp hmem
  obtain ⟨slot', hslot', hv', hhash⟩ := mem_hashesWhere.mp hmem'
  have heq : slot' = slot := List.inj_on_of_nodup_map hnodup hslot' hslot hhash
  rw [decide_eq_true_eq] at hv hv'
  exact hne (hv.symm.trans (heq ▸ hv'))

lemma hashesWhere_classifiedSlots (test : Classified Details Tsv → Bool) :
    hashesWhere test (classifiedSlots m flags params loaded) =
      (Distinct.firsts [] (params.infoHashes.map toHex)).filter fun infoHash =>
        test (m.classifySlot (resolvedWorkflow params) flags
          ⟨infoHash, (loaded.find? (·.loaded.infoHash = infoHash)).map (·.loaded)⟩) := by
  rw [hashesWhere, classifiedSlots, List.filter_map, List.map_map]
  exact List.map_id _

/-- No hash is selected twice. -/
lemma nodup_hashesWhere (hnodup : (slots.map (·.infoHash)).Nodup)
    (test : Classified Details Tsv → Bool) : (hashesWhere test slots).Nodup :=
  hnodup.sublist (List.filter_sublist.map _)

lemma mem_canonical_rows {w : WriteSet} :
    infoHash ∈ w.canonicalize.torrentContents.map (·.infoHash) ↔
      infoHash ∈ w.torrentContents.map (·.infoHash) :=
  ((sortBy_perm _ _).map _).mem_iff

/-- **The ledgers partition the request.** -/
lemma Folded.accounted (h : Folded slots out) (hnodup : (slots.map (·.infoHash)).Nodup)
    {requested : List String}
    (hrequested : ∀ {infoHash}, infoHash ∈ slots.map (·.infoHash) ↔ infoHash ∈ requested) :
    Accounted requested out.writeSet.canonicalize := by
  have hdeletes : ∀ infoHash, infoHash ∈ out.writeSet.canonicalize.deleteInfoHashes ↔
      infoHash ∈ hashesWhere (·.verdict = .deleted) slots := by
    intro infoHash
    rw [← h.deletes]
    exact mem_canonicalStrings
  have hfailed : ∀ infoHash, infoHash ∈ out.writeSet.canonicalize.failedInfoHashes ↔
      infoHash ∈ hashesWhere (·.verdict = .failed) slots := by
    intro infoHash
    rw [← h.failed]
    exact mem_canonicalStrings
  have hrows : ∀ infoHash, infoHash ∈ out.writeSet.canonicalize.torrentContents.map (·.infoHash) ↔
      infoHash ∈ hashesWhere (·.verdict = .written) slots := by
    intro infoHash
    rw [← h.rows]
    exact mem_canonical_rows
  refine ⟨fun infoHash => ?_, fun infoHash hr hd => ?_, fun infoHash hr hf => ?_,
    fun infoHash hd hf => ?_, ?_⟩
  · rw [hrows, hdeletes, hfailed, mem_hashesWhere, mem_hashesWhere, mem_hashesWhere,
      ← hrequested, List.mem_map]
    constructor
    · rintro ⟨slot, hslot, rfl⟩
      cases hverdict : slot.verdict with
      | written => exact .inl ⟨slot, hslot, by simp [hverdict], rfl⟩
      | deleted => exact .inr (.inl ⟨slot, hslot, by simp [hverdict], rfl⟩)
      | failed => exact .inr (.inr ⟨slot, hslot, by simp [hverdict], rfl⟩)
    · rintro (⟨slot, hslot, -, heq⟩ | ⟨slot, hslot, -, heq⟩ | ⟨slot, hslot, -, heq⟩)
      all_goals exact ⟨slot, hslot, heq⟩
  · exact disjoint_hashesWhere hnodup (by simp) ((hrows _).mp hr) ((hdeletes _).mp hd)
  · exact disjoint_hashesWhere hnodup (by simp) ((hrows _).mp hr) ((hfailed _).mp hf)
  · exact disjoint_hashesWhere hnodup (by simp) ((hdeletes _).mp hd) ((hfailed _).mp hf)
  · refine ((sortBy_perm _ _).map _).nodup_iff.mpr ?_
    rw [h.rows]
    exact nodup_hashesWhere hnodup _

/-- A slot of the request fails where no torrent was loaded for it or classifying it
failed. -/
lemma verdict_eq_failed :
    (m.classifySlot (resolvedWorkflow params) flags
      ⟨infoHash, (loaded.find? (·.loaded.infoHash = infoHash)).map (·.loaded)⟩).verdict = .failed ↔
    IsLoaded loaded infoHash = false ∨ FailsToClassify m flags params loaded infoHash = true := by
  unfold Classified.verdict Materializer.classifySlot IsLoaded FailsToClassify
  cases hfind : loaded.find? (·.loaded.infoHash = infoHash) with
  | none => simp
  | some torrent =>
    rcases hclassify : m.classify (resolvedWorkflow params) flags torrent.loaded with
      ⟨result, _ | _ | _ | _⟩
    all_goals simp [hclassify, Outcome.isFailure]

/-- **The classifier failures**, in first-request order. -/
lemma Folded.failures_eq (h : Folded (classifiedSlots m flags params loaded) out) :
    out.classifierFailures.map (·.infoHash) =
      (Distinct.firsts [] (params.infoHashes.map toHex)).filter
        (FailsToClassify m flags params loaded) := by
  rw [h.failures, hashesWhere_classifiedSlots]
  refine List.filter_congr fun infoHash _ => ?_
  rw [Bool.eq_iff_iff, decide_eq_true_iff, verdict_eq_failed]
  unfold Materializer.classifySlot IsLoaded FailsToClassify
  cases loaded.find? (·.loaded.infoHash = infoHash) <;> simp

lemma retryInfoHashes_composeWriterFailures
    {indexed : List (String × WriterLoadedTorrent Details Tsv)} (hindexed : Indexes indexed loaded)
    (failures : List ClassifierFailure) :
    retryInfoHashes (composeWriterFailures params indexed failures) =
      (params.infoHashes.map toHex).filter (fun infoHash => ¬ IsLoaded loaded infoHash) ++
        failures.map (·.infoHash) := by
  have hmissing : (params.infoHashes.map toHex).filter
        (fun infoHash => (indexed.lookup infoHash).isNone) =
      (params.infoHashes.map toHex).filter (fun infoHash => ¬ IsLoaded loaded infoHash) := by
    refine List.filter_congr fun infoHash _ => ?_
    rw [hindexed, IsLoaded]
    cases loaded.find? (·.loaded.infoHash = infoHash) <;> rfl
  have hfailures : retryInfoHashes
      (failures.map fun failure => .classifier failure.infoHash failure.renderedError) =
      failures.map (·.infoHash) := by
    induction failures with
    | nil => rfl
    | cons failure failures ih =>
      simp only [retryInfoHashes, List.map_cons, List.flatMap_cons] at ih ⊢
      rw [ih]
      rfl
  unfold composeWriterFailures
  dsimp only
  rw [hmissing]
  split
  · rename_i hnil
    rw [hnil]
    exact hfailures
  · rw [retryInfoHashes] at hfailures ⊢
    rw [List.flatMap_append, hfailures]
    simp

lemma canonicalStrings_eq {l l' : List String} (h : ∀ a, a ∈ l ↔ a ∈ l') :
    canonicalStrings l = canonicalStrings l' := by
  have hsorted : ∀ l : List String, (sortBy id l).Pairwise (· ≤ ·) := fun l =>
    List.pairwise_mergeSort' (· ≤ ·) l
  exact Distinct.sort_dedup_eq (by simp [h]) (hsorted l) (hsorted l')

/-- **The ledger of retries is the ledger of failures.** -/
lemma Folded.retry_eq_failed (h : Folded (classifiedSlots m flags params loaded) out)
    {indexed : List (String × WriterLoadedTorrent Details Tsv)}
    (hindexed : Indexes indexed loaded) :
    canonicalStrings (retryInfoHashes
        (composeWriterFailures params indexed out.classifierFailures)) =
      canonicalStrings out.writeSet.canonicalize.failedInfoHashes := by
  refine canonicalStrings_eq fun infoHash => ?_
  rw [retryInfoHashes_composeWriterFailures hindexed, h.failures_eq]
  change _ ↔ infoHash ∈ canonicalStrings out.writeSet.failedInfoHashes
  rw [mem_canonicalStrings, h.failed, hashesWhere_classifiedSlots]
  simp only [List.mem_append, List.mem_filter, Distinct.mem_firsts, List.not_mem_nil,
    not_false_eq_true, and_true, decide_eq_true_eq, verdict_eq_failed, Bool.not_eq_true]
  tauto

/-- A written row has the hash of a requested, loaded torrent. -/
lemma Folded.row_loaded (h : Folded (classifiedSlots m flags params loaded) out)
    {row : TorrentContentWrite} (hrow : row ∈ out.writeSet.torrentContents) :
    IsLoaded loaded row.infoHash ∧ ∃ id ∈ params.infoHashes, toHex id = row.infoHash := by
  have hmem : row.infoHash ∈ hashesWhere (·.verdict = .written)
      (classifiedSlots m flags params loaded) := by
    rw [← h.rows]
    exact List.mem_map_of_mem hrow
  obtain ⟨slot, hslot, hverdict, hhash⟩ := mem_hashesWhere.mp hmem
  have hrequested : slot.infoHash ∈ params.infoHashes.map toHex :=
    mem_classifiedSlots.mp (List.mem_map_of_mem hslot)
  refine ⟨?_, List.mem_map.mp (hhash ▸ hrequested)⟩
  rw [IsLoaded, ← hhash, ← isSome_loaded_of_mem hslot]
  cases hloaded : slot.loaded with
  | none => simp [Classified.verdict, hloaded] at hverdict
  | some _ => rfl

/-- A generated ID starts with the hash, so that IDs of different hashes differ. -/
lemma infoHash_eq_of_inferId_eq {infoHash' : String} {contentType contentType' : Option String}
    {source source' contentId contentId' : Option String}
    (hlength : infoHash.toList.length = infoHash'.toList.length)
    (h : inferId infoHash contentType source contentId =
      inferId infoHash' contentType' source' contentId') : infoHash = infoHash' := by
  have hlist := congrArg String.toList h
  simp only [inferId, String.toList_append, List.append_assoc] at hlist
  exact String.toList_injective (List.append_inj_left hlist hlength)

/-- No two rows have one ID. -/
lemma Folded.nodup_ids (h : Folded (classifiedSlots m flags params loaded) out) :
    (out.writeSet.torrentContents.map (·.id)).Nodup := by
  have hhashes : (out.writeSet.torrentContents.map (·.infoHash)).Nodup := by
    rw [h.rows]
    exact nodup_hashesWhere nodup_classifiedSlots _
  refine List.Nodup.map_on ?_ (List.Nodup.of_map _ hhashes)
  intro row hrow row' hrow' hid
  refine List.inj_on_of_nodup_map hhashes hrow hrow' ?_
  rw [h.ids row hrow, h.ids row' hrow'] at hid
  obtain ⟨id, -, hhash⟩ := (h.row_loaded hrow).2
  obtain ⟨id', -, hhash'⟩ := (h.row_loaded hrow').2
  refine infoHash_eq_of_inferId_eq ?_ hid
  rw [← hhash, ← hhash', length_toHex, length_toHex]

end Ledgers

/-! ## Errors that cannot happen -/

/-- The errors that report a broken invariant of the composition itself. -/
def WriterPlanError.Internal : WriterPlanError Value → Prop
  | .projectionSourceMissing _ | .duplicatePersistenceId _ | .failureLedgerMismatch => True
  | _ => False

section Errors

variable {env : PlanEnv Details Tsv Value} {m : Materializer Details Tsv}
  {flags : List (String × Bool)} {params : ProcessTorrentParams Value}
  {loaded : List (WriterLoadedTorrent Details Tsv)} {out : MaterializedWriterOutput Details Tsv}
  {indexed : List (String × WriterLoadedTorrent Details Tsv)}

lemma errs_validateSupportedParams (asBool : Value → Option Bool)
    (admission : ProcessTorrentAdmission) :
    Errs (¬ WriterPlanError.Internal ·) (validateSupportedParams asBool params admission) := by
  unfold validateSupportedParams
  cases admission <;> dsimp only <;> split_ifs
  all_goals first | exact errs_ok _ | exact errs_error id

lemma errs_admitLoadedTorrent (live : Bool) (torrent : WriterLoadedTorrent Details Tsv) :
    Errs (fun e : WriterPlanError Value => ¬ e.Internal) (admitLoadedTorrent live torrent) := by
  refine Errs.bind ?_ fun _ _ => Errs.bind ?_ fun _ _ => Errs.bind ?_ fun _ _ => ?_
  · unfold admitHint
    split
    all_goals first | exact errs_ok _ | exact errs_error id
  · unfold admitAssociations
    split
    all_goals first | exact errs_ok _ | exact errs_error id
  · unfold validateReusableContentHydration
    dsimp only
    repeat' split
    all_goals first | exact errs_ok _ | exact errs_error id
  · split
    · exact errs_error id
    · exact errs_ok _

lemma errs_indexLoadedTorrents (live : Bool) :
    Errs (fun e : WriterPlanError Value => ¬ e.Internal) (indexLoadedTorrents loaded live) := by
  refine Errs.foldlM fun indexed torrent => ?_
  refine (errs_admitLoadedTorrent live torrent).bind fun _ _ => ?_
  split
  · exact errs_error id
  · exact errs_ok _

lemma errs_rejectUnrequestedLoadedTorrents :
    Errs (¬ WriterPlanError.Internal ·) (rejectUnrequestedLoadedTorrents params indexed) := by
  unfold rejectUnrequestedLoadedTorrents
  split
  · exact errs_error id
  · exact errs_ok _

lemma errs_composeRetryJob (retry : List String) (hasSuccessfulRows : Bool) :
    Errs (¬ WriterPlanError.Internal ·) (composeRetryJob env params retry hasSuccessfulRows) := by
  unfold composeRetryJob
  split
  · exact errs_ok _
  · refine Errs.bind (Errs.mapM fun infoHash => ?_) fun _ _ => ?_
    all_goals split
    all_goals first | exact errs_ok _ | exact errs_error id

/-- A round projects the ID of its row. -/
lemma lookup_of_projectRound
    {contents : List (ContentPersistenceKey × ContentPersistence Details Tsv)}
    {persistence persistence' : List (String × TorrentContentPersistence)}
    {row : TorrentContentWrite}
    (h : projectRound env indexed contents persistence row = .ok persistence') {id : String}
    (hid : (persistence'.lookup id).isSome) : id = row.id ∨ (persistence.lookup id).isSome := by
  unfold projectRound at h
  split at h
  · cases h
  · split at h
    · cases h
    · split at h
      · cases h
      · cases h
        rw [SortedMap.lookup_insert] at hid
        split at hid
        · rename_i heq
          exact .inl heq
        · exact .inr hid

/-- The projection finds each row's torrent and no ID twice. -/
lemma errs_projectPersistence {writeSet : WriteSet}
    {contents : List (ContentPersistenceKey × ContentPersistence Details Tsv)}
    (hindexed : ∀ row ∈ writeSet.torrentContents, (indexed.lookup row.infoHash).isSome)
    (hids : (writeSet.torrentContents.map (·.id)).Nodup) :
    Errs (¬ WriterPlanError.Internal ·) (projectPersistence env writeSet indexed contents) := by
  intro e he
  -- the IDs projected so far are those of the rows done so far
  obtain ⟨done, row, rest, persistence, hsplit, hdone, hround⟩ :=
    Fallible.foldlM_error (I := fun done persistence =>
        ∀ id, (List.lookup id persistence).isSome → id ∈ done.map TorrentContentWrite.id)
      (fun done row _ _ hdone hround id hid => by
        rcases lookup_of_projectRound hround hid with rfl | hid
        · simp
        · simp [hdone id hid])
      (fun _ hid => by cases hid) he
  have hrow : row ∈ writeSet.torrentContents := by simp [hsplit]
  have hnew : row.id ∉ done.map (·.id) := by
    rw [hsplit, List.map_append, List.map_cons] at hids
    intro hmem
    exact (List.nodup_append.mp hids).2.2 _ hmem _ (List.mem_cons_self ..) rfl
  obtain ⟨source, hsource⟩ := Option.isSome_iff_exists.mp (hindexed row hrow)
  unfold projectRound at hround
  rw [hsource] at hround
  dsimp only at hround
  split at hround
  · cases hround
    exact id
  · split at hround
    · rename_i hseen
      exact absurd (hdone _ hseen) hnew
    · cases hround

/-- What the projection needs of the rows it is given. -/
lemma Folded.errs_project (h : Folded (classifiedSlots m flags params loaded) out)
    (hindexed : Indexes indexed loaded) :
    Errs (¬ WriterPlanError.Internal ·)
      (projectPersistence env out.writeSet.canonicalize indexed out.contentPersistence) := by
  have hperm : out.writeSet.canonicalize.torrentContents.Perm out.writeSet.torrentContents :=
    sortBy_perm _ _
  refine errs_projectPersistence (fun row hrow => ?_) ((hperm.map _).nodup_iff.mpr h.nodup_ids)
  rw [hindexed]
  exact (h.row_loaded (hperm.mem_iff.mp hrow)).1

/-- **No composition ends in an internal error.** -/
lemma errs_composeWriterPlanIn [DecidableEq Details] [DecidableEq Tsv]
    (admission : ProcessTorrentAdmission) :
    Errs (¬ WriterPlanError.Internal ·) (composeWriterPlanIn env m params loaded admission) := by
  refine (errs_validateSupportedParams _ _).bind fun _ _ => ?_
  refine (errs_indexLoadedTorrents _).bind fun indexed hindexed => ?_
  refine errs_rejectUnrequestedLoadedTorrents.bind fun _ _ => ?_
  refine Errs.bind (Fallible.errs_mapError fun _ => id) fun out hout => ?_
  obtain ⟨flags, folded, -, hfolded, rfl⟩ :=
    materializeScoped_eq_ok (Fallible.mapError_eq_ok.mp hout)
  have hlookup := indexed_lookup hindexed
  refine (hfolded.errs_project hlookup).bind fun _ _ => ?_
  refine Errs.bind (Fallible.errs_mapError fun _ => id) fun _ _ => ?_
  dsimp only
  rw [if_neg (not_not.mpr (hfolded.retry_eq_failed hlookup))]
  exact (errs_composeRetryJob _ _).bind fun _ _ => errs_ok _

end Errors

/-! ## What a plan is made of -/

/-- The hashes to retry: the missing ones as requested, then the classifier's failures in
first-request order. -/
def expectedRetry (m : Materializer Details Tsv) (flags : List (String × Bool))
    (params : ProcessTorrentParams Value) (loaded : List (WriterLoadedTorrent Details Tsv)) :
    List String :=
  (params.infoHashes.map toHex).filter (fun infoHash => ¬ IsLoaded loaded infoHash) ++
    (Distinct.firsts [] (params.infoHashes.map toHex)).filter
      (FailsToClassify m flags params loaded)

/-- The job that retries `infoHashes` under the request's own parameters. -/
def IsRetryJob (env : PlanEnv Details Tsv Value) (params : ProcessTorrentParams Value)
    (infoHashes : List String) (job : QueueJob) : Prop :=
  ∃ ids : List ProtocolId, ids.map toHex = infoHashes ∧
    processTorrentJob env.queue
      { params with classifierWorkflow := resolvedWorkflow params, infoHashes := ids } {} = some job

section Plans

variable {env : PlanEnv Details Tsv Value} {m : Materializer Details Tsv}
  {params : ProcessTorrentParams Value} {loaded : List (WriterLoadedTorrent Details Tsv)}
  {plan : WriterPlan Details Tsv}

lemma mem_request_of_mem_expectedRetry {flags : List (String × Bool)} {infoHash : String}
    (h : infoHash ∈ expectedRetry m flags params loaded) :
    infoHash ∈ params.infoHashes.map toHex := by
  rcases List.mem_append.mp h with h | h
  · exact (List.mem_filter.mp h).1
  · exact (Distinct.mem_firsts.mp (List.mem_filter.mp h).1).1

/-- Requested hashes are read back as they were written. -/
lemma map_toHex_of_protocolIdFromHex {requested : List ProtocolId} {retry : List String}
    {ids : List ProtocolId} (hretry : ∀ infoHash ∈ retry, infoHash ∈ requested.map toHex)
    (h : List.Forall₂ (fun infoHash id => protocolIdFromHex infoHash = some id) retry ids) :
    ids.map toHex = retry := by
  induction h with
  | nil => rfl
  | @cons infoHash id retry ids hid _ ih =>
    have htail := ih fun x hx => hretry x (List.mem_cons_of_mem _ hx)
    obtain ⟨id', -, rfl⟩ := List.mem_map.mp (hretry _ (List.mem_cons_self ..))
    rw [protocolIdFromHex_toHex] at hid
    cases hid
    rw [List.map_cons, htail]

/-- A needed retry job is composed, of all that is to be retried. -/
lemma composeRetryJob_eq_ok {retry : List String} {job : Option QueueJob}
    (hretry : ∀ infoHash ∈ retry, infoHash ∈ params.infoHashes.map toHex) (hne : retry ≠ [])
    (h : composeRetryJob env params retry true = .ok job) :
    ∃ j, job = some j ∧ IsRetryJob env params retry j := by
  unfold composeRetryJob at h
  rw [if_neg (by simp [hne])] at h
  obtain ⟨ids, hids, h⟩ := bind_eq_ok.mp h
  have hmap := map_toHex_of_protocolIdFromHex hretry
    ((Fallible.mapM_eq_ok hids).imp fun infoHash id hid => by
      split at hid
      · rename_i found
        cases hid
        exact found
      · cases hid)
  split at h
  · rename_i j hj
    cases h
    exact ⟨j, rfl, ids, hmap, hj⟩
  · cases h

/-- What a composed plan holds. -/
structure Composed (env : PlanEnv Details Tsv Value) (m : Materializer Details Tsv)
    (params : ProcessTorrentParams Value) (loaded : List (WriterLoadedTorrent Details Tsv))
    (plan : WriterPlan Details Tsv) : Prop where
  accounted : Accounted (params.infoHashes.map toHex) plan.writeSet
  retry_eq : ∃ flags, classifierFlags env.queue.asBool params.classifierFlags = .ok flags ∧
    plan.retryInfoHashes = expectedRetry m flags params loaded
  mem_retry : ∀ infoHash, infoHash ∈ plan.retryInfoHashes ↔
    infoHash ∈ plan.writeSet.failedInfoHashes
  job : plan.retryInfoHashes ≠ [] → plan.writeSet.torrentContents ≠ [] →
    ∃ job, plan.retryJob = some job ∧ IsRetryJob env params plan.retryInfoHashes job

lemma composeWriterPlanIn_composed [DecidableEq Details] [DecidableEq Tsv]
    {admission : ProcessTorrentAdmission}
    (h : composeWriterPlanIn env m params loaded admission = .ok plan) :
    Composed env m params loaded plan := by
  unfold composeWriterPlanIn at h
  obtain ⟨_, -, h⟩ := bind_eq_ok.mp h
  obtain ⟨indexed, hindexed, h⟩ := bind_eq_ok.mp h
  obtain ⟨_, -, h⟩ := bind_eq_ok.mp h
  obtain ⟨out, hout, h⟩ := bind_eq_ok.mp h
  obtain ⟨flags, folded, hflags, hfolded, rfl⟩ :=
    materializeScoped_eq_ok (Fallible.mapError_eq_ok.mp hout)
  obtain ⟨persistence, -, h⟩ := bind_eq_ok.mp h
  obtain ⟨_, -, h⟩ := bind_eq_ok.mp h
  have hsame := hfolded.retry_eq_failed (indexed_lookup hindexed)
  dsimp only at h
  rw [if_neg (not_not.mpr hsame)] at h
  obtain ⟨job, hjob, h⟩ := bind_eq_ok.mp h
  have hretry : retryInfoHashes (composeWriterFailures params indexed folded.classifierFailures) =
      expectedRetry m flags params loaded := by
    rw [retryInfoHashes_composeWriterFailures (indexed_lookup hindexed), hfolded.failures_eq,
      expectedRetry]
  cases h
  refine ⟨hfolded.accounted nodup_classifiedSlots mem_classifiedSlots, ⟨flags, hflags, hretry⟩, fun infoHash => ?_, fun hne hrows => ?_⟩
  · dsimp only
    rw [← mem_canonicalStrings, hsame, mem_canonicalStrings]
  · dsimp only at hne hrows ⊢
    refine composeRetryJob_eq_ok (fun infoHash hmem => ?_) hne ?_
    · exact mem_request_of_mem_expectedRetry (hretry ▸ hmem)
    · rw [← hjob, decide_eq_true hrows]

end Plans

/-! ## Persisting -/

section

variable {Receipt : Type} {publish : QueueJob → Except String Receipt}
  {persist : WriteSet → List (String × TorrentContentPersistence) →
    List (ContentPersistenceKey × ContentPersistence Details Tsv) → List String →
    Except PersistError Unit} {plan : WriterPlan Details Tsv}

/-- The call that persists a plan. -/
def persistCall (plan : WriterPlan Details Tsv) (succeeded : Bool) : Effect Details Tsv :=
  .persist plan.writeSet plan.persistence plan.contentPersistence plan.emptyEpisodeObjects succeeded

/-- The ways a plan can be persisted, with the calls made. -/
inductive Persisted (plan : WriterPlan Details Tsv) :
    Except (PersistWriterPlanError Receipt) (PersistWriterPlanReceipt Receipt) →
    List (Effect Details Tsv) → Prop
  /-- nothing was called -/
  | acknowledged : plan.writeSet.torrentContents = [] → plan.retryInfoHashes = [] →
      Persisted plan (.ok ⟨none, false⟩) []
  | refused {error : PersistWriterPlanError Receipt} : Persisted plan (.error error) []
  /-- the retry was not published -/
  | unpublished {job : QueueJob} {error : PersistWriterPlanError Receipt} :
      Persisted plan (.error error) [.publish job false]
  /-- no retry was needed -/
  | direct {result : Except (PersistWriterPlanError Receipt) (PersistWriterPlanReceipt Receipt)}
      {succeeded : Bool} : plan.retryInfoHashes = [] →
      (∀ receipt, result = .ok receipt → receipt.persisted ∧ succeeded) →
      Persisted plan result [persistCall plan succeeded]
  | published {result : Except (PersistWriterPlanError Receipt) (PersistWriterPlanReceipt Receipt)}
      {succeeded : Bool} {job : QueueJob} : plan.writeSet.torrentContents ≠ [] →
      plan.retryInfoHashes ≠ [] → plan.retryJob = some job →
      (∀ receipt, result = .ok receipt → receipt.persisted ∧ succeeded) →
      Persisted plan result [.publish job true, persistCall plan succeeded]

lemma persistWriterPlanWith_persisted :
    Persisted plan (persistWriterPlanWith publish persist plan).1
      (persistWriterPlanWith publish persist plan).2 := by
  unfold persistWriterPlanWith
  dsimp only
  by_cases hrows : plan.writeSet.torrentContents = []
  · rw [if_pos hrows]
    by_cases hretry : plan.retryInfoHashes = []
    · rw [if_pos hretry]
      exact .acknowledged hrows hretry
    · rw [if_neg hretry]
      exact .refused
  · rw [if_neg hrows]
    by_cases hretry : plan.retryInfoHashes = []
    · rw [if_pos hretry]
      split
      · exact .direct hretry fun _ h => by cases h
      · exact .direct hretry fun _ h => by
          cases h
          exact ⟨rfl, rfl⟩
    · rw [if_neg hretry]
      split
      · exact .refused
      · rename_i job hjob
        split
        · exact .unpublished
        · split
          · exact .published hrows hretry hjob fun _ h => by cases h
          · exact .published hrows hretry hjob fun _ h => by
              cases h
              exact ⟨rfl, rfl⟩

end

/-- **No requested hash is lost.**  No composition ends in an internal error.  A composed
plan accounts for every requested hash once and retries the missing and the failed in
order, and however the publisher and the persister answer, the persister is called behind
the publication of the retry and a success has every hash retried, persisted or
acknowledged as deleted. -/
theorem composeWriterPlanIn_accounts [DecidableEq Details] [DecidableEq Tsv]
    (env : PlanEnv Details Tsv Value) (m : Materializer Details Tsv) (params : ProcessTorrentParams Value)
    (loaded : List (WriterLoadedTorrent Details Tsv)) (admission : ProcessTorrentAdmission) :
    (∀ error, composeWriterPlanIn env m params loaded admission = .error error →
      ¬ error.Internal) ∧
    ∀ plan, composeWriterPlanIn env m params loaded admission = .ok plan →
      Accounted (params.infoHashes.map toHex) plan.writeSet ∧
      (∃ flags, classifierFlags env.queue.asBool params.classifierFlags = .ok flags ∧
        plan.retryInfoHashes = expectedRetry m flags params loaded) ∧
      ∀ (Receipt : Type) (publish : QueueJob → Except String Receipt)
        (persist : WriteSet → List (String × TorrentContentPersistence) →
          List (ContentPersistenceKey × ContentPersistence Details Tsv) → List String →
          Except PersistError Unit) result calls,
        persistWriterPlanWith publish persist plan = (result, calls) →
        (∀ before succeeded after, calls = before ++ persistCall plan succeeded :: after →
          plan.retryInfoHashes ≠ [] →
          ∃ job, IsRetryJob env params plan.retryInfoHashes job ∧ .publish job true ∈ before) ∧
        ∀ receipt, result = .ok receipt →
          (∀ infoHash ∈ plan.writeSet.failedInfoHashes, ∃ job retried,
            IsRetryJob env params retried job ∧ infoHash ∈ retried ∧ .publish job true ∈ calls) ∧
          ((persistCall plan true ∈ calls ∧
              ∀ infoHash ∈ params.infoHashes.map toHex,
                infoHash ∉ plan.writeSet.failedInfoHashes →
                infoHash ∈ plan.writeSet.torrentContents.map (·.infoHash) ∨
                infoHash ∈ plan.writeSet.deleteInfoHashes) ∨
            (receipt.persisted = false ∧ calls = [] ∧
              ∀ infoHash ∈ params.infoHashes.map toHex,
                infoHash ∈ plan.writeSet.deleteInfoHashes)) := by
  refine ⟨errs_composeWriterPlanIn admission, fun plan hplan => ?_⟩
  have hcomposed := composeWriterPlanIn_composed hplan
  refine ⟨hcomposed.accounted, hcomposed.retry_eq, ?_⟩
  intro Receipt publish persist result calls hrun
  have hpersisted : Persisted plan result calls := by
    have hall : Persisted plan (persistWriterPlanWith publish persist plan).1
        (persistWriterPlanWith publish persist plan).2 := persistWriterPlanWith_persisted
    rwa [hrun] at hall
  have hnone : plan.retryInfoHashes = [] → ∀ infoHash, infoHash ∉ plan.writeSet.failedInfoHashes :=
    fun hretry infoHash hfailed => by
      simpa [hretry] using (hcomposed.mem_retry infoHash).mpr hfailed
  have hother : ∀ infoHash ∈ params.infoHashes.map toHex,
      infoHash ∉ plan.writeSet.failedInfoHashes →
      infoHash ∈ plan.writeSet.torrentContents.map (·.infoHash) ∨
      infoHash ∈ plan.writeSet.deleteInfoHashes := by
    intro infoHash hmem hfailed
    rcases (hcomposed.accounted.mem_iff infoHash).mp hmem with h | h | h
    · exact .inl h
    · exact .inr h
    · exact absurd h hfailed
  cases hpersisted with
  | acknowledged hrows hretry =>
    refine ⟨fun before succeeded after hcalls => by simp at hcalls, fun receipt hok => ?_⟩
    cases hok
    refine ⟨fun infoHash hfailed => absurd hfailed (hnone hretry infoHash), .inr ⟨rfl, rfl, ?_⟩⟩
    intro infoHash hmem
    rcases hother infoHash hmem (hnone hretry infoHash) with h | h
    · simp [hrows] at h
    · exact h
  | refused =>
    exact ⟨fun before succeeded after hcalls => by simp at hcalls,
      fun receipt hok => by cases hok⟩
  | @unpublished job error =>
    refine ⟨fun before succeeded after hcalls => ?_, fun receipt hok => by cases hok⟩
    have hmem : persistCall plan succeeded ∈ [Effect.publish job false] := by simp [hcalls]
    simp [persistCall] at hmem
  | direct hretry hok =>
    refine ⟨fun _ _ _ _ hne => absurd hretry hne, fun receipt hresult => ?_⟩
    refine ⟨fun infoHash hfailed => absurd hfailed (hnone hretry infoHash), .inl ⟨?_, hother⟩⟩
    rw [(hok receipt hresult).2]
    exact List.mem_singleton_self _
  | published hrows hretry hjob hok =>
    obtain ⟨job', hjob', hisRetry⟩ := hcomposed.job hretry hrows
    cases hjob.symm.trans hjob'
    refine ⟨fun before succeeded after hcalls _ => ⟨_, hisRetry, ?_⟩, fun receipt hresult => ?_⟩
    · cases before with
      | nil => simp [persistCall] at hcalls
      | cons call before =>
        rw [List.cons_append, List.cons.injEq] at hcalls
        rw [← hcalls.1]
        exact List.mem_cons_self ..
    · refine ⟨fun infoHash hfailed => ⟨_, _, hisRetry, (hcomposed.mem_retry infoHash).mpr hfailed,
        List.mem_cons_self ..⟩, .inl ⟨?_, hother⟩⟩
      rw [(hok receipt hresult).2]
      simp

/-- A classified movie without attached content. -/
def unattached : Classification Unit Unit where
  contentType := some "movie"
  languages := []
  episodes := ⟨true, true, ""⟩
  videoResolution := none
  videoSource := none
  videoCodec := none
  video3d := none
  videoModifier := none
  releaseGroup := none
  content := none
  tags := []

/-- A loaded torrent of one file without a hint. -/
def loadedSingle (id : ProtocolId) : WriterLoadedTorrent Unit Unit where
  loaded :=
    { infoHash := toHex id
      classifierInput := ⟨toHex id, "a", 1, "single", none, [], none, []⟩
      existingContentIds := []
      hintAdmission := .supported
      contentAmbiguity := none
      sourceBackedContentPresent := false }
  createdAtMicros := 0
  sourceSnapshots := []
  reusableContentFullyHydrated := false

/-- The identifier of nineteen zeros and a byte. -/
def smallId (n : UInt8) : ProtocolId := ⟨⟨List.replicate 19 0 ++ [n], rfl⟩⟩

/-- A classifier that deletes the torrent `smallId 3`. -/
def deletingThird : Materializer Unit Unit where
  live := true
  classify _ _ torrent :=
    (unattached, if torrent.infoHash = toHex (smallId 3) then .deleted "deleted" else .classified)
  resolverFailure := none
  updateTsv _ := ()

/-- A queue whose payload lists the hashes. -/
def listingEnv : PlanEnv Unit Unit Unit where
  queue :=
    { asBool := fun _ => none
      childText := fun params => some (String.join (params.infoHashes.map toHex))
      batchText := fun _ => none
      parseBatch := fun _ => none
      parseChild := fun _ => none
      isObject := fun _ => some true
      fingerprint := fun queue payload => queue ++ payload
      checkedAdd := fun t delay => some (t + delay)
      selectPage := fun _ => .ok []
      enqueuePlan := fun _ => .ok 0 }
  emptyTsv := ()
  torrentContentTsv _ _ _ := .ok ""
  prepareContent _ := .ok ()
  prepareTorrentContent _ _ := .ok ()

/-- Three hashes, of which the second is missing. -/
def threeRequested : ProcessTorrentParams Unit :=
  ⟨0, "", none, [smallId 1, smallId 2, smallId 3]⟩

/-- The composition that request ends in. -/
def threeComposed : Except (WriterPlanError Unit) (WriterPlan Unit Unit) :=
  composeWriterPlanIn listingEnv deletingThird threeRequested
    [loadedSingle (smallId 1), loadedSingle (smallId 3)] (.organic 0)

/-- With a publisher and a persister that succeed, the missing hash is in a published job,
the first is in the persisted rows and the third in the persisted deletions. -/
theorem composeWriterPlanIn_accounts_threeRequested :
    ∃ plan, threeComposed = .ok plan ∧ plan.writeSet.failedInfoHashes = [toHex (smallId 2)] ∧
      ∃ job calls receipt,
        persistWriterPlanWith (fun _ => .ok ()) (fun _ _ _ _ => .ok ()) plan =
          (.ok receipt, calls) ∧
        .publish job true ∈ calls ∧ persistCall plan true ∈ calls := by
  have hevaluated : (threeComposed.toOption.map fun plan =>
      (plan.writeSet.failedInfoHashes, (persistWriterPlanWith (fun _ => .ok ())
        (fun _ _ _ _ => .ok ()) plan).1.toOption.map (·.persisted))) =
      some ([toHex (smallId 2)], some true) := by
    decide +kernel
  obtain ⟨plan, hplan, heq⟩ := Option.map_eq_some_iff.mp hevaluated
  obtain ⟨hfailed, hpersisted⟩ := Prod.mk.inj heq
  have hok : threeComposed = .ok plan := by
    cases h : threeComposed with
    | error e => simp [h, Except.toOption] at hplan
    | ok plan' =>
      rw [h] at hplan
      cases hplan
      rfl
  obtain ⟨receipt, hreceipt, htrue⟩ := Option.map_eq_some_iff.mp hpersisted
  rcases hrun : persistWriterPlanWith (fun _ => .ok ()) (fun _ _ _ _ => .ok ()) plan with
    ⟨result, calls⟩
  rw [hrun] at hreceipt
  cases result with
  | error e => cases hreceipt
  | ok receipt' =>
    cases hreceipt
    obtain ⟨-, -, hall⟩ := (composeWriterPlanIn_accounts listingEnv deletingThird threeRequested
      [loadedSingle (smallId 1), loadedSingle (smallId 3)] (.organic 0)).2 plan hok
    obtain ⟨hretried, hfate⟩ := (hall Unit _ _ _ _ hrun).2 receipt rfl
    obtain ⟨job, _, -, -, hpublished⟩ := hretried (toHex (smallId 2)) (by simp [hfailed])
    refine ⟨plan, hok, hfailed, job, calls, receipt, hrun, hpublished, ?_⟩
    rcases hfate with ⟨hcall, -⟩ | ⟨hfalse, -⟩
    · exact hcall
    · rw [htrue] at hfalse
      cases hfalse

end Bitmagnet.Processor
