import Mathlib.Data.String.Basic
import Mathlib.Data.Prod.Lex
import Bitmagnet.Library.Distinct
import Bitmagnet.Library.Hex
import Bitmagnet.Library.SortedMap
import Bitmagnet.Queue.Batch

/-!
# Materializing a write-set

`materialize_scoped` of `bitmagnet-processor`: the distinct requested hashes become
slots in first-request order, every loaded slot is classified, and the results are
folded into the write-set, the ledger of failures and the images of attached content.

The classifier is a parameter, one outcome for each loaded torrent, and so is the
failure a live resolver may have recorded by the time all are classified.  Of a
content row the model has the columns the processor reads; the others are `Details`
and the search vector is `Tsv`, both only copied and compared.  `BTreeMap`s are
`SortedMap`s.
-/

namespace Bitmagnet.Processor

open Queue (ProtocolId ProcessTorrentParams)

/-! ## Inputs -/

/-- `ContentAttribute`. -/
structure ContentAttribute where
  contentType : String
  contentSource : String
  contentId : String
  source : String
  key : String
  value : String
deriving DecidableEq

/-- `bitmagnet_model::Content`. -/
structure Content (Details Tsv : Type) where
  contentType : String
  source : String
  id : String
  title : String
  releaseYear : Option Nat
  createdAt : Option Int
  attributes : List ContentAttribute
  tsv : Tsv
  details : Details
deriving DecidableEq

/-- `InputHint`, as far as the processor reads it. -/
structure InputHint where
  contentType : String
  contentSource : String
  contentId : String

/-- `InputContent`. -/
structure InputContent (Details Tsv : Type) where
  contentType : String
  contentSource : String
  contentId : String
  content : Option (Content Details Tsv)

/-- `ClassifierInput`; the file list is read by the search vector only. -/
structure ClassifierInput (Details Tsv : Type) where
  id : String
  name : String
  size : Nat
  filesStatus : String
  filesCount : Option Nat
  files : List String
  hint : Option InputHint
  contents : List (InputContent Details Tsv)

/-- `HintAdmission`. -/
inductive HintAdmission
  | supported
  | needsLiveResolver
  | unsupported (detail : String)
deriving DecidableEq

/-- `ContentAmbiguity`. -/
inductive ContentAmbiguity
  | reuse
  | preservedType
deriving DecidableEq

/-- `LoadedTorrent`. -/
structure LoadedTorrent (Details Tsv : Type) where
  infoHash : String
  classifierInput : ClassifierInput Details Tsv
  existingContentIds : List String
  hintAdmission : HintAdmission
  contentAmbiguity : Option ContentAmbiguity
  sourceBackedContentPresent : Bool

/-- `Episodes`, with the two questions the processor asks of them. -/
structure Episodes where
  isEmpty : Bool
  isNil : Bool
  text : String

/-- `Classification`. -/
structure Classification (Details Tsv : Type) where
  contentType : Option String
  languages : List String
  episodes : Episodes
  videoResolution : Option String
  videoSource : Option String
  videoCodec : Option String
  video3d : Option String
  videoModifier : Option String
  releaseGroup : Option String
  content : Option (Content Details Tsv)
  tags : List String

/-- `Outcome` of the classifier. -/
inductive Outcome
  | classified
  | deleted (error : String)
  | unmatched (error : String)
  | error (error : String)
deriving DecidableEq

/-! ## The write-set -/

/-- `TorrentContentWrite`. -/
structure TorrentContentWrite where
  id : String
  infoHash : String
  contentType : Option String
  contentSource : Option String
  contentId : Option String
  languages : List String
  episodes : String
  videoResolution : Option String
  videoSource : Option String
  videoCodec : Option String
  video3d : Option String
  videoModifier : Option String
  releaseGroup : Option String
  size : Nat
  filesCount : Option Nat
deriving DecidableEq

/-- `ContentWrite`. -/
structure ContentWrite where
  contentType : String
  source : String
  id : String
  title : String
  releaseYear : Option Nat
  identifiers : List (String × String)
deriving DecidableEq

/-- The derived `Ord`: field by field, `None` before `Some`. -/
def ContentWrite.sortKey (c : ContentWrite) :
    String ×ₗ String ×ₗ String ×ₗ String ×ₗ Nat ×ₗ List (String ×ₗ String) :=
  toLex (c.contentType, toLex (c.source, toLex (c.id, toLex (c.title,
    toLex (c.releaseYear.elim 0 (· + 1), c.identifiers.map toLex)))))

/-- `WriteSet`. -/
structure WriteSet where
  contents : List ContentWrite := []
  torrentContents : List TorrentContentWrite := []
  deleteIds : List String := []
  deleteInfoHashes : List String := []
  addTags : List (String × List String) := []
  failedInfoHashes : List String := []
deriving DecidableEq

/-- `sort`, stable, by a key. -/
def sortBy {α κ : Type} [LinearOrder κ] (key : α → κ) (l : List α) : List α :=
  l.mergeSort fun a b => decide (key a ≤ key b)

@[simp] lemma mem_sortBy {α κ : Type} [LinearOrder κ] {key : α → κ} {l : List α} {a : α} :
    a ∈ sortBy key l ↔ a ∈ l :=
  List.mem_mergeSort

lemma sortBy_perm {α κ : Type} [LinearOrder κ] (key : α → κ) (l : List α) : (sortBy key l).Perm l :=
  List.mergeSort_perm ..

/-- `sort` and `dedup` of strings. -/
def canonicalStrings (l : List String) : List String := Distinct.dedup (sortBy id l)

@[simp] lemma mem_canonicalStrings {l : List String} {a : String} :
    a ∈ canonicalStrings l ↔ a ∈ l := by
  simp [canonicalStrings]

/-- `WriteSet::canonicalize`. -/
def WriteSet.canonicalize (w : WriteSet) : WriteSet where
  contents := Distinct.dedup (sortBy ContentWrite.sortKey w.contents)
  torrentContents := sortBy (fun r : TorrentContentWrite => toLex (r.infoHash, r.id))
    w.torrentContents
  deleteIds := canonicalStrings w.deleteIds
  deleteInfoHashes := canonicalStrings w.deleteInfoHashes
  addTags := w.addTags.map fun (infoHash, tags) => (infoHash, canonicalStrings tags)
  failedInfoHashes := canonicalStrings w.failedInfoHashes

/-! ## Attached content -/

/-- `ContentPersistenceKey`, ordered field by field. -/
abbrev ContentPersistenceKey := String ×ₗ String ×ₗ String

/-- `ContentPersistenceKey { content_type, source, id }`. -/
def contentPersistenceKey (contentType source id : String) : ContentPersistenceKey :=
  toLex (contentType, toLex (source, id))

/-- `ContentPersistence`. -/
structure ContentPersistence (Details Tsv : Type) where
  key : ContentPersistenceKey
  baseTsv : Tsv
  upsert : Option (Content Details Tsv)
deriving DecidableEq

/-- `ResolverFailure`. -/
structure ResolverFailure where
  infoHash : String
  call : String
  error : String
deriving DecidableEq

/-- `MaterializeError`, without the cases of building a classifier or a pool. -/
inductive MaterializeError (Value : Type)
  | invalidInfoHash (value : String)
  | duplicateLoadedTorrent
  | unsupportedFlag (name : String) (value : Value)
  | conflictingAttachedContent (contentType contentSource id : String)
  | resolverFailed (failure : ResolverFailure)

variable {Details Tsv Value : Type} [DecidableEq Details] [DecidableEq Tsv]

/-- `ContentPersistence::from_content`; `updateTsv` is `Content::update_tsv`. -/
def ContentPersistence.fromContent (updateTsv : Content Details Tsv → Tsv)
    (content : Content Details Tsv) : ContentPersistence Details Tsv :=
  let updated := { content with tsv := updateTsv content }
  { key := contentPersistenceKey content.contentType content.source content.id
    baseTsv := updated.tsv
    upsert := if content.createdAt.isNone then some updated else none }

/-- `register_content_persistence`: whether the image is new, and the map. -/
def registerContentPersistence (updateTsv : Content Details Tsv → Tsv)
    (persistence : List (ContentPersistenceKey × ContentPersistence Details Tsv))
    (content : Content Details Tsv) :
    Except (MaterializeError Value)
      (Bool × List (ContentPersistenceKey × ContentPersistence Details Tsv)) :=
  let projected := ContentPersistence.fromContent updateTsv content
  match persistence.lookup projected.key with
  | none => .ok (true, SortedMap.insert projected.key projected persistence)
  | some image =>
    if image = projected then .ok (false, persistence)
    else .error
      (.conflictingAttachedContent content.contentType content.source content.id)

/-! ## Rows -/

/-- `infer_id`. -/
def inferId (infoHash : String) (contentType contentSource contentId : Option String) : String :=
  infoHash ++ ":" ++ contentType.getD "?" ++ ":" ++ contentSource.getD "?" ++ ":" ++
    contentId.getD "?"

/-- `torrent_content_write`. -/
def torrentContentWrite (torrent : LoadedTorrent Details Tsv)
    (result : Classification Details Tsv) : TorrentContentWrite :=
  let contentSource := result.content.map Content.source
  let contentId := result.content.map Content.id
  { id := inferId torrent.infoHash result.contentType contentSource contentId
    infoHash := torrent.infoHash
    contentType := result.contentType
    contentSource
    contentId
    languages := canonicalStrings result.languages
    episodes := result.episodes.text
    videoResolution := result.videoResolution
    videoSource := result.videoSource
    videoCodec := result.videoCodec
    video3d := result.video3d
    videoModifier := result.videoModifier
    releaseGroup := result.releaseGroup
    size := torrent.classifierInput.size
    filesCount := torrent.classifierInput.filesCount.or
      (if torrent.classifierInput.filesStatus = "single" then some 1 else none) }

/-- `content_write` without identifiers, as the fold calls it. -/
def contentWrite (content : Content Details Tsv) : ContentWrite where
  contentType := content.contentType
  source := content.source
  id := content.id
  title := content.title
  releaseYear := content.releaseYear.filter (· < 2 ^ 16)
  identifiers := []

/-- `append_classification_write`: the write-set, and the error of a torrent that
failed. -/
def appendClassificationWrite (writeSet : WriteSet) (torrent : LoadedTorrent Details Tsv)
    (result : Classification Details Tsv) (outcome : Outcome) (emitContent : Bool) :
    WriteSet × Option String :=
  match outcome with
  | .deleted _ =>
    ({ writeSet with deleteInfoHashes := writeSet.deleteInfoHashes ++ [torrent.infoHash] }, none)
  | .classified =>
    let tc := torrentContentWrite torrent result
    ({ writeSet with
        contents := writeSet.contents ++
          if emitContent then (result.content.map contentWrite).toList else []
        addTags :=
          if result.tags = [] then writeSet.addTags
          else SortedMap.insert torrent.infoHash result.tags writeSet.addTags
        deleteIds := writeSet.deleteIds ++ torrent.existingContentIds.filter (· ≠ tc.id)
        torrentContents := writeSet.torrentContents ++ [tc] }, none)
  | .unmatched error | .error error =>
    ({ writeSet with failedInfoHashes := writeSet.failedInfoHashes ++ [torrent.infoHash] },
      some error)

/-! ## The fold -/

/-- `ClassifierFailure`. -/
structure ClassifierFailure where
  infoHash : String
  renderedError : String
deriving DecidableEq

/-- `MaterializedWriterOutput`. -/
structure MaterializedWriterOutput (Details Tsv : Type) where
  writeSet : WriteSet := {}
  contentPersistence : List (ContentPersistenceKey × ContentPersistence Details Tsv) := []
  classifierFailures : List ClassifierFailure := []
  emptyEpisodeObjects : List String := []

/-- `Classified`: a slot, with the torrent and its result where it was loaded. -/
structure Classified (Details Tsv : Type) where
  infoHash : String
  loaded : Option (LoadedTorrent Details Tsv × Classification Details Tsv × Outcome)

/-- The content a classified result attaches is registered: whether to emit its row. -/
def registerAttached (updateTsv : Content Details Tsv → Tsv)
    (persistence : List (ContentPersistenceKey × ContentPersistence Details Tsv))
    (result : Classification Details Tsv) (outcome : Outcome) :
    Except (MaterializeError Value)
      (Bool × List (ContentPersistenceKey × ContentPersistence Details Tsv)) :=
  match outcome, result.content with
  | .classified, some content => registerContentPersistence updateTsv persistence content
  | _, _ => .ok (true, persistence)

/-- One round of `fold_classified`. -/
def foldRound (updateTsv : Content Details Tsv → Tsv)
    (out : MaterializedWriterOutput Details Tsv) (slot : Classified Details Tsv) :
    Except (MaterializeError Value) (MaterializedWriterOutput Details Tsv) :=
  match slot.loaded with
  | none =>
    .ok { out with writeSet := { out.writeSet with
      failedInfoHashes := out.writeSet.failedInfoHashes ++ [slot.infoHash] } }
  | some (torrent, result, outcome) => do
    let emptyEpisodeObjects :=
      if result.episodes.isEmpty ∧ ¬ result.episodes.isNil then
        canonicalStrings (slot.infoHash :: out.emptyEpisodeObjects)
      else out.emptyEpisodeObjects
    let (emitContent, contentPersistence) ←
      registerAttached updateTsv out.contentPersistence result outcome
    let (writeSet, renderedError) :=
      appendClassificationWrite out.writeSet torrent result outcome emitContent
    pure
      { writeSet
        contentPersistence
        classifierFailures := out.classifierFailures ++
          (renderedError.map fun error => ⟨slot.infoHash, error⟩).toList
        emptyEpisodeObjects }

/-- `fold_classified`. -/
def foldClassified (updateTsv : Content Details Tsv → Tsv)
    (classified : List (Classified Details Tsv)) :
    Except (MaterializeError Value) (MaterializedWriterOutput Details Tsv) :=
  classified.foldlM (foldRound updateTsv) {}

/-! ## Slots -/

/-- `validate_info_hash`. -/
def validateInfoHash (value : String) : Except (MaterializeError Value) Unit :=
  if value.toList.length = 40 ∧ value.toList.all Hex.IsLower then .ok ()
  else .error (.invalidInfoHash value)

/-- `ProtocolId::to_hex`, and what `serde_json` makes of an identifier. -/
def toHex (id : ProtocolId) : String := String.ofList (Hex.encode id.bytes.val)

/-- `protocol_id_hex`. -/
def protocolIdHex (id : ProtocolId) : Except (MaterializeError Value) String := do
  validateInfoHash (toHex id)
  pure (toHex id)

/-- `DEFAULT_CLASSIFIER_WORKFLOW`. -/
def defaultClassifierWorkflow : String := "default"

/-- `resolved_workflow`. -/
def resolvedWorkflow (params : ProcessTorrentParams Value) : String :=
  if params.classifierWorkflow = "" then defaultClassifierWorkflow else params.classifierWorkflow

/-- `classifier_flags`; `asBool` is `Value::as_bool`. -/
def classifierFlags (asBool : Value → Option Bool) (raw : Option (List (String × Value))) :
    Except (MaterializeError Value) (List (String × Bool)) :=
  (raw.getD []).mapM fun (name, value) =>
    match asBool value with
    | some flag => .ok (name, flag)
    | none => .error (.unsupportedFlag name value)

/-- The map of the loaded torrents. -/
def loadedMap (torrents : List (LoadedTorrent Details Tsv)) :
    Except (MaterializeError Value) (List (String × LoadedTorrent Details Tsv)) :=
  torrents.foldlM (fun loaded torrent => do
    validateInfoHash torrent.infoHash
    if (loaded.lookup torrent.infoHash).isSome then .error .duplicateLoadedTorrent
    else .ok (SortedMap.insert torrent.infoHash torrent loaded)) []

/-- `Slot`; a hash is taken from the loaded torrents once, so that they are not told
apart from what is left of them. -/
structure Slot (Details Tsv : Type) where
  infoHash : String
  torrent : Option (LoadedTorrent Details Tsv)

/-- The slots of the requested hashes up to a malformed one, and its error. -/
def slotsFrom (loaded : List (String × LoadedTorrent Details Tsv)) :
    List String → List ProtocolId → List (Slot Details Tsv) × Option (MaterializeError Value)
  | _, [] => ([], none)
  | seen, requested :: rest =>
    match protocolIdHex requested with
    | .error error => ([], some error)
    | .ok infoHash =>
      if infoHash ∈ seen then slotsFrom loaded seen rest
      else
        let (slots, invalid) := slotsFrom loaded (infoHash :: seen) rest
        (⟨infoHash, loaded.lookup infoHash⟩ :: slots, invalid)

/-- What a composition uses of the classifier, the resolver and the search vectors. -/
structure Materializer (Details Tsv : Type) where
  /-- `is_live` -/
  live : Bool
  /-- `Classifier::classify` -/
  classify : (workflow : String) → (flags : List (String × Bool)) →
    LoadedTorrent Details Tsv → Classification Details Tsv × Outcome
  /-- the failure the scope holds after all slots are classified -/
  resolverFailure : Option ResolverFailure
  /-- `Content::update_tsv` -/
  updateTsv : Content Details Tsv → Tsv

/-- `classify_slot`. -/
def Materializer.classifySlot (m : Materializer Details Tsv) (workflow : String)
    (flags : List (String × Bool)) (slot : Slot Details Tsv) : Classified Details Tsv where
  infoHash := slot.infoHash
  loaded := slot.torrent.map fun torrent => (torrent, m.classify workflow flags torrent)

/-- `materialize_scoped`. -/
def Materializer.materializeScoped (m : Materializer Details Tsv) (asBool : Value → Option Bool)
    (params : ProcessTorrentParams Value) (torrents : List (LoadedTorrent Details Tsv)) :
    Except (MaterializeError Value) (MaterializedWriterOutput Details Tsv) := do
  let workflow := resolvedWorkflow params
  let flags ← classifierFlags asBool params.classifierFlags
  let loaded ← loadedMap torrents
  let (slots, invalidRequest) := slotsFrom loaded [] params.infoHashes
  let folded := foldClassified m.updateTsv (slots.map (m.classifySlot workflow flags))
  match m.resolverFailure with
  | some failure => .error (.resolverFailed failure)
  | none => do
    let output ← folded
    match invalidRequest with
    | some error => .error error
    | none => pure { output with writeSet := output.writeSet.canonicalize }

end Bitmagnet.Processor
