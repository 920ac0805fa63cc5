import Bitmagnet.Processor.Materialize

/-!
# Composing and persisting a writer plan

`compose_writer_plan` and `persist_writer_plan_with` of `writer_plan.rs`: a plan is
the materialized write-set with the metadata of its rows and the ordered retry of
what failed, and persisting it publishes that retry first.

`PlanEnv` is what the composition uses beside the materializer: the text of a queue
job, the search vector of a row (`bitmagnet-fts`), and the conversions of single rows
to what PostgreSQL stores.  Publishing and persisting are parameters of
`persistWriterPlanWith`, which also logs their calls in order.
-/

namespace Bitmagnet.Processor

open Queue (ProtocolId ProcessTorrentParams BatchEnv QueueJob processTorrentJob)

/-! ## Errors -/

/-- `WriterProjectionError`. -/
inductive WriterProjectionError
  | attachedContentUnsupported
  | partialContentReference
  | infoHashMismatch (rowInfoHash classifierInfoHash : String)
  | invalidVideoResolution (value : String)
  | invalidVideo3d (value : String)
deriving DecidableEq

/-- `PersistError`, as far as preparing a write-set or a store reports it. -/
inductive PersistError
  | missingContentPersistence (key : ContentPersistenceKey)
  | unexpectedContentPersistence (key : ContentPersistenceKey)
  | contentPersistenceKeyMismatch (mapKey imageKey : ContentPersistenceKey)
  | contentIdentityMismatch
  | partialContentReference
  | missingPersistenceMetadata (id : String)
  | unexpectedPersistenceMetadata (id : String)
  | invalidGeneratedId (id expected : String)
  | invalidTagName (name : String)
  | invalidInfoHash (value : String)
  /-- a column PostgreSQL cannot hold, a failed block or a database error -/
  | store (text : String)
deriving DecidableEq

/-- `WriterPlanError`, without the cases of loading. -/
inductive WriterPlanError (Value : Type)
  | materialize (error : MaterializeError Value)
  | persistence (error : PersistError)
  | invalidRetryInfoHash (infoHash : String)
  | retryJob
  | classifierWorkflowUnsupported
  | attachFlagsNotExplicitlyDisabled
  | attachFlagsNotExplicitlyUniform
  | organicWorkflowUnsupported
  | organicFlagsUnsupported
  | attachHintUnsupported (infoHash detail : String)
  | ambiguousContentReuse (infoHash : String)
  | ambiguousPreservedContentType (infoHash : String)
  | reusableContentNotFullyHydrated (infoHash : String)
  | unexpectedReusableContentHydration (infoHash : String)
  | loadedInfoHashMismatch (loadedInfoHash classifierInfoHash : String)
  | duplicateLoadedTorrent (infoHash : String)
  | unrequestedLoadedTorrent (infoHash : String)
  | projectionSourceMissing (infoHash : String)
  | projection (infoHash : String) (source : WriterProjectionError)
  | duplicatePersistenceId (id : String)
  | failureLedgerMismatch

/-- `ProcessTorrentAdmission`. -/
inductive ProcessTorrentAdmission
  | flagsOff
  | flagsOffOrOn
  | organic (maxPriority : Int)
deriving DecidableEq

/-! ## Loaded torrents -/

/-- `TorrentSourceSnapshot`. -/
structure TorrentSourceSnapshot where
  seeders : Option Nat
  leechers : Option Nat
  publishedAtMicros : Option Int
  createdAtMicros : Int

/-- `WriterLoadedTorrent`; the torrent snapshot is its creation time. -/
structure WriterLoadedTorrent (Details Tsv : Type) where
  loaded : LoadedTorrent Details Tsv
  createdAtMicros : Int
  sourceSnapshots : List TorrentSourceSnapshot
  reusableContentFullyHydrated : Bool

/-- `TorrentContentPersistence`. -/
structure TorrentContentPersistence where
  seeders : Option Nat
  leechers : Option Nat
  publishedAtMicros : Int
  tsv : String
deriving DecidableEq

/-- What a composition uses beside the materializer. -/
structure PlanEnv (Details Tsv Value : Type) where
  /-- JSON and the fingerprints of queue jobs -/
  queue : BatchEnv Value
  /-- `Tsvector::new` -/
  emptyTsv : Tsv
  /-- `torrent_content_tsv`, as text -/
  torrentContentTsv : TorrentContentWrite → ClassifierInput Details Tsv → Tsv →
    Except WriterProjectionError String
  /-- `PreparedContent::new` -/
  prepareContent : Content Details Tsv → Except PersistError Unit
  /-- `PreparedTorrentContent::new` behind the test of the generated ID -/
  prepareTorrentContent : TorrentContentWrite → TorrentContentPersistence → Except PersistError Unit

variable {Details Tsv Value : Type} [DecidableEq Details] [DecidableEq Tsv]

/-- `ATTACH_FLAGS`. -/
def attachFlags : List String := ["local_search_enabled", "apis_enabled", "tmdb_enabled"]

/-- `has_explicit_attach_flags`. -/
def hasExplicitAttachFlags (asBool : Value → Option Bool) (params : ProcessTorrentParams Value)
    (value : Bool) : Bool :=
  match params.classifierFlags with
  | none => false
  | some flags => attachFlags.all fun name => (flags.lookup name).bind asBool = some value

/-- `has_only_boolean_attach_flags`. -/
def hasOnlyBooleanAttachFlags (asBool : Value → Option Bool)
    (params : ProcessTorrentParams Value) : Bool :=
  (params.classifierFlags.getD []).all fun (name, value) =>
    name ∈ attachFlags ∧ (asBool value).isSome

/-- `validate_supported_params`. -/
def validateSupportedParams (asBool : Value → Option Bool) (params : ProcessTorrentParams Value)
    (admission : ProcessTorrentAdmission) : Except (WriterPlanError Value) Unit :=
  match admission with
  | .organic _ =>
    if ¬ (params.classifierWorkflow = "" ∨ params.classifierWorkflow = "default") then
      .error .organicWorkflowUnsupported
    else if hasOnlyBooleanAttachFlags asBool params then .ok ()
    else .error .organicFlagsUnsupported
  | .flagsOff =>
    if params.classifierWorkflow ≠ "default" then .error .classifierWorkflowUnsupported
    else if hasExplicitAttachFlags asBool params false then .ok ()
    else .error .attachFlagsNotExplicitlyDisabled
  | .flagsOffOrOn =>
    if params.classifierWorkflow ≠ "default" then .error .classifierWorkflowUnsupported
    else if hasExplicitAttachFlags asBool params false ∨
        hasExplicitAttachFlags asBool params true then .ok ()
    else .error .attachFlagsNotExplicitlyUniform

/-- `served_admission`. -/
def servedAdmission (m : Materializer Details Tsv) (admission : ProcessTorrentAdmission) :
    ProcessTorrentAdmission :=
  if m.live then admission else .flagsOff

/-- The content that `validate_reusable_content_hydration` looks for: the hydrated row
of the association the hint names. -/
def reusableContent (input : ClassifierInput Details Tsv) : Option (Content Details Tsv) := do
  let hint ← input.hint.filter (·.contentSource ≠ "")
  let association ← input.contents.find? fun association =>
    association.contentType = hint.contentType ∧ association.contentSource = hint.contentSource ∧
      association.contentId = hint.contentId
  association.content.filter fun content =>
    content.contentType = hint.contentType ∧ content.source = hint.contentSource ∧
      content.id = hint.contentId ∧ content.createdAt.isSome

/-- `validate_reusable_content_hydration`. -/
def validateReusableContentHydration (torrent : WriterLoadedTorrent Details Tsv) :
    Except (WriterPlanError Value) Unit :=
  let infoHash := torrent.loaded.infoHash
  if ¬ torrent.loaded.sourceBackedContentPresent then
    if torrent.reusableContentFullyHydrated then
      .error (.unexpectedReusableContentHydration infoHash)
    else .ok ()
  else if ¬ torrent.reusableContentFullyHydrated then
    .error (.reusableContentNotFullyHydrated infoHash)
  else
    match reusableContent torrent.loaded.classifierInput with
    | none => .error (.reusableContentNotFullyHydrated infoHash)
    | some content =>
      if content.attributes.any fun a => a.contentType ≠ content.contentType ∨
          a.contentSource ≠ content.source ∨ a.contentId ≠ content.id then
        .error (.reusableContentNotFullyHydrated infoHash)
      else .ok ()

/-- The test of a torrent's hint: a sourced one needs a live resolver. -/
def admitHint (live : Bool) (torrent : LoadedTorrent Details Tsv) :
    Except (WriterPlanError Value) Unit :=
  match torrent.hintAdmission, live with
  | .supported, _ | .needsLiveResolver, true => .ok ()
  | .needsLiveResolver, false =>
    .error (.attachHintUnsupported torrent.infoHash "sourced hint without a live resolver")
  | .unsupported detail, _ => .error (.attachHintUnsupported torrent.infoHash detail)

/-- The test of a torrent's associations. -/
def admitAssociations (torrent : LoadedTorrent Details Tsv) :
    Except (WriterPlanError Value) Unit :=
  match torrent.contentAmbiguity with
  | none => .ok ()
  | some .reuse => .error (.ambiguousContentReuse torrent.infoHash)
  | some .preservedType => .error (.ambiguousPreservedContentType torrent.infoHash)

/-- The tests `index_loaded_torrents` makes of one torrent. -/
def admitLoadedTorrent (live : Bool) (torrent : WriterLoadedTorrent Details Tsv) :
    Except (WriterPlanError Value) Unit := do
  let infoHash := torrent.loaded.infoHash
  admitHint live torrent.loaded
  admitAssociations torrent.loaded
  validateReusableContentHydration torrent
  if infoHash ≠ torrent.loaded.classifierInput.id then
    .error (.loadedInfoHashMismatch infoHash torrent.loaded.classifierInput.id)
  else .ok ()

/-- One round of `index_loaded_torrents`. -/
def indexRound (live : Bool) (indexed : List (String × WriterLoadedTorrent Details Tsv))
    (torrent : WriterLoadedTorrent Details Tsv) :
    Except (WriterPlanError Value) (List (String × WriterLoadedTorrent Details Tsv)) := do
  admitLoadedTorrent live torrent
  if (indexed.lookup torrent.loaded.infoHash).isSome then
    .error (.duplicateLoadedTorrent torrent.loaded.infoHash)
  else .ok (SortedMap.insert torrent.loaded.infoHash torrent indexed)

/-- `index_loaded_torrents`. -/
def indexLoadedTorrents (loaded : List (WriterLoadedTorrent Details Tsv)) (live : Bool) :
    Except (WriterPlanError Value) (List (String × WriterLoadedTorrent Details Tsv)) :=
  loaded.foldlM (indexRound live) []

/-- `reject_unrequested_loaded_torrents`. -/
def rejectUnrequestedLoadedTorrents (params : ProcessTorrentParams Value)
    (indexed : List (String × WriterLoadedTorrent Details Tsv)) :
    Except (WriterPlanError Value) Unit :=
  match (indexed.map Prod.fst).find? fun infoHash => infoHash ∉ params.infoHashes.map toHex with
  | some infoHash => .error (.unrequestedLoadedTorrent infoHash)
  | none => .ok ()

/-! ## Volatile metadata -/

/-- `PUBLISHED_AT_CUTOFF_MICROS`. -/
def publishedAtCutoffMicros : Int := 946684800000000

/-- `project_torrent_persistence`. -/
def projectTorrentPersistence (env : PlanEnv Details Tsv Value) (row : TorrentContentWrite)
    (torrent : WriterLoadedTorrent Details Tsv) (contentTsv : Option Tsv) :
    Except WriterProjectionError TorrentContentPersistence := do
  let input := torrent.loaded.classifierInput
  let baseTsv ←
    match row.contentType, row.contentSource, row.contentId, contentTsv with
    | _, none, none, none => .ok env.emptyTsv
    | some _, some _, some _, some tsv => .ok tsv
    | some _, some _, some _, none => .error .attachedContentUnsupported
    | _, _, _, _ => .error .partialContentReference
  if row.infoHash ≠ input.id then .error (.infoHashMismatch row.infoHash input.id)
  else do
    let tsv ← env.torrentContentTsv row input baseTsv
    pure
      { seeders := (torrent.sourceSnapshots.filterMap (·.seeders)).max?
        leechers := (torrent.sourceSnapshots.filterMap (·.leechers)).max?
        publishedAtMicros := torrent.sourceSnapshots.foldl (fun publishedAt source =>
          min publishedAt ((source.publishedAtMicros.filter (publishedAtCutoffMicros < ·)).getD
            source.createdAtMicros)) torrent.createdAtMicros
        tsv }

/-- The search vector of the content a row is attached to. -/
def contentTsvOf (contents : List (ContentPersistenceKey × ContentPersistence Details Tsv))
    (row : TorrentContentWrite) : Option Tsv :=
  match row.contentType, row.contentSource, row.contentId with
  | some contentType, some source, some id =>
    (contents.lookup (contentPersistenceKey contentType source id)).map (·.baseTsv)
  | _, _, _ => none

/-- One round of `project_persistence`. -/
def projectRound (env : PlanEnv Details Tsv Value)
    (indexed : List (String × WriterLoadedTorrent Details Tsv))
    (contents : List (ContentPersistenceKey × ContentPersistence Details Tsv))
    (persistence : List (String × TorrentContentPersistence)) (row : TorrentContentWrite) :
    Except (WriterPlanError Value) (List (String × TorrentContentPersistence)) :=
  match indexed.lookup row.infoHash with
  | none => .error (.projectionSourceMissing row.infoHash)
  | some source =>
    match projectTorrentPersistence env row source (contentTsvOf contents row) with
    | .error error => .error (.projection row.infoHash error)
    | .ok projected =>
      if (persistence.lookup row.id).isSome then .error (.duplicatePersistenceId row.id)
      else .ok (SortedMap.insert row.id projected persistence)

/-- `project_persistence`. -/
def projectPersistence (env : PlanEnv Details Tsv Value) (writeSet : WriteSet)
    (indexed : List (String × WriterLoadedTorrent Details Tsv))
    (contents : List (ContentPersistenceKey × ContentPersistence Details Tsv)) :
    Except (WriterPlanError Value) (List (String × TorrentContentPersistence)) :=
  writeSet.torrentContents.foldlM (projectRound env indexed contents) []

/-! ## Validation of what would be stored -/

/-- `attached_content_key`. -/
def attachedContentKey (row : TorrentContentWrite) :
    Except PersistError (Option ContentPersistenceKey) :=
  match row.contentType, row.contentSource, row.contentId with
  | _, none, none => .ok none
  | some contentType, some source, some id =>
    .ok (some (contentPersistenceKey contentType source id))
  | _, _, _ => .error .partialContentReference

/-- `validate_tag_name`. -/
def validateTagName (name : String) : Except PersistError Unit :=
  if name ≠ "" ∧ name.utf8ByteSize ≤ 30 ∧ (name.toList.splitOn '-').all fun part =>
      part ≠ [] ∧ part.all fun c => ('a' ≤ c ∧ c ≤ 'z') ∨ ('0' ≤ c ∧ c ≤ '9') then .ok ()
  else .error (.invalidTagName name)

/-- The part of `decode_info_hash` that can fail. -/
def checkInfoHash (value : String) : Except PersistError Unit :=
  if value.toList.length = 40 ∧ value.toList.all Hex.IsLower then .ok ()
  else .error (.invalidInfoHash value)

/-- `PreparedTorrentContent::new` of one row. -/
def prepareRow (env : PlanEnv Details Tsv Value)
    (persistence : List (String × TorrentContentPersistence)) (row : TorrentContentWrite) :
    Except PersistError Unit :=
  match persistence.lookup row.id with
  | none => .error (.missingPersistenceMetadata row.id)
  | some metadata => do
    let expected := inferId row.infoHash row.contentType row.contentSource row.contentId
    if row.id ≠ expected then .error (.invalidGeneratedId row.id expected)
    else do
      checkInfoHash row.infoHash
      env.prepareTorrentContent row metadata

/-- `validate_persistence_input`: `PreparedWriteSet::new`, for its errors. -/
def validatePersistenceInput (env : PlanEnv Details Tsv Value) (writeSet : WriteSet)
    (persistence : List (String × TorrentContentPersistence))
    (contents : List (ContentPersistenceKey × ContentPersistence Details Tsv)) :
    Except PersistError Unit := do
  match contents.find? fun (key, image) => key ≠ image.key with
  | some (key, image) => .error (.contentPersistenceKeyMismatch key image.key)
  | none => .ok ()
  let expected := Distinct.dedup (sortBy id
    (← writeSet.torrentContents.mapM attachedContentKey).reduceOption)
  match expected.find? fun key => (contents.lookup key).isNone with
  | some key => .error (.missingContentPersistence key)
  | none => .ok ()
  match (contents.map Prod.fst).find? fun key => key ∉ expected with
  | some key => .error (.unexpectedContentPersistence key)
  | none => .ok ()
  let stable := Distinct.dedup (sortBy id
    (writeSet.contents.map fun c => contentPersistenceKey c.contentType c.source c.id))
  if stable.length ≠ writeSet.contents.length ∨ stable ≠ expected then
    .error .contentIdentityMismatch
  else do
    (contents.filterMap (·.2.upsert)).forM env.prepareContent
    match (persistence.map Prod.fst).find? fun id =>
        id ∉ writeSet.torrentContents.map (·.id) with
    | some id => .error (.unexpectedPersistenceMetadata id)
    | none => .ok ()
    writeSet.torrentContents.forM (prepareRow env persistence)
    writeSet.addTags.forM fun (infoHash, names) => do
      checkInfoHash infoHash
      names.forM validateTagName
    writeSet.deleteInfoHashes.forM checkInfoHash

/-! ## Failures and their retry -/

/-- `WriterFailureCause`. -/
inductive WriterFailureCause
  | missingHashes (infoHashes : List String)
  | classifier (infoHash renderedError : String)
deriving DecidableEq

/-- `WriterFailures::retry_info_hashes`. -/
def retryInfoHashes (causes : List WriterFailureCause) : List String :=
  causes.flatMap fun
    | .missingHashes infoHashes => infoHashes
    | .classifier infoHash _ => [infoHash]

/-- `compose_writer_failures`. -/
def composeWriterFailures (params : ProcessTorrentParams Value)
    (indexed : List (String × WriterLoadedTorrent Details Tsv))
    (classifierFailures : List ClassifierFailure) : List WriterFailureCause :=
  let missing := (params.infoHashes.map toHex).filter fun infoHash =>
    (indexed.lookup infoHash).isNone
  (if missing = [] then [] else [.missingHashes missing]) ++
    classifierFailures.map fun failure => .classifier failure.infoHash failure.renderedError

/-- `ProtocolId::from_hex`. -/
def protocolIdFromHex (text : String) : Option ProtocolId :=
  ((Hex.decode text.toList).bind (Bytes.toFixed 20)).map ProtocolId.mk

/-- `compose_retry_job`. -/
def composeRetryJob (env : PlanEnv Details Tsv Value) (params : ProcessTorrentParams Value)
    (retry : List String) (hasSuccessfulRows : Bool) :
    Except (WriterPlanError Value) (Option QueueJob) :=
  if retry = [] ∨ ¬ hasSuccessfulRows then .ok none
  else do
    let infoHashes ← retry.mapM fun infoHash =>
      match protocolIdFromHex infoHash with
      | some id => .ok id
      | none => .error (.invalidRetryInfoHash infoHash)
    match processTorrentJob env.queue
        { params with classifierWorkflow := resolvedWorkflow params, infoHashes } {} with
    | some job => .ok (some job)
    | none => .error .retryJob

/-! ## Plans -/

/-- `WriterPlan`. -/
structure WriterPlan (Details Tsv : Type) where
  writeSet : WriteSet
  persistence : List (String × TorrentContentPersistence)
  contentPersistence : List (ContentPersistenceKey × ContentPersistence Details Tsv)
  retryInfoHashes : List String
  retryJob : Option QueueJob
  failures : List WriterFailureCause
  emptyEpisodeObjects : List String

/-- `.map_err(WriterPlanError::Materialize)`. -/
def materializeResult {α : Type} (x : Except (MaterializeError Value) α) :
    Except (WriterPlanError Value) α :=
  x.mapError .materialize

/-- `compose_writer_plan_in`. -/
def composeWriterPlanIn (env : PlanEnv Details Tsv Value) (m : Materializer Details Tsv)
    (params : ProcessTorrentParams Value) (loaded : List (WriterLoadedTorrent Details Tsv))
    (admission : ProcessTorrentAdmission) :
    Except (WriterPlanError Value) (WriterPlan Details Tsv) := do
  validateSupportedParams env.queue.asBool params (servedAdmission m admission)
  let indexed ← indexLoadedTorrents loaded m.live
  rejectUnrequestedLoadedTorrents params indexed
  let materialized ← materializeResult
    (m.materializeScoped env.queue.asBool params (loaded.map (·.loaded)))
  let writeSet := materialized.writeSet
  let persistence ← projectPersistence env writeSet indexed materialized.contentPersistence
  (validatePersistenceInput env writeSet persistence materialized.contentPersistence).mapError
    .persistence
  let failures := composeWriterFailures params indexed materialized.classifierFailures
  let retry := retryInfoHashes failures
  -- both sides are `BTreeSet`s
  if canonicalStrings retry ≠ canonicalStrings writeSet.failedInfoHashes then
    .error .failureLedgerMismatch
  else do
    let retryJob ← composeRetryJob env params retry (writeSet.torrentContents ≠ [])
    pure
      { writeSet
        persistence
        contentPersistence := materialized.contentPersistence
        retryInfoHashes := retry
        retryJob
        failures
        emptyEpisodeObjects := materialized.emptyEpisodeObjects }

/-! ## Persisting -/

/-- `PersistWriterPlanError`; `Receipt` is what the publisher answers. -/
inductive PersistWriterPlanError (Receipt : Type)
  | allFailed (failures : List WriterFailureCause)
  | retryJobMissing (failures : List WriterFailureCause)
  | retryPublish (failures : List WriterFailureCause) (source : String)
  | persist (retry : Option Receipt) (source : PersistError)

/-- `PersistWriterPlanReceipt`. -/
structure PersistWriterPlanReceipt (Receipt : Type) where
  retry : Option Receipt
  persisted : Bool

/-- A call to the publisher or the persister that has returned, with what it was given
and whether it succeeded. -/
inductive Effect (Details Tsv : Type)
  | publish (job : QueueJob) (succeeded : Bool)
  | persist (writeSet : WriteSet) (persistence : List (String × TorrentContentPersistence))
      (contents : List (ContentPersistenceKey × ContentPersistence Details Tsv))
      (emptyEpisodeObjects : List String) (succeeded : Bool)

/-- `persist_writer_plan_with`: the result, and the calls it made in order. -/
def persistWriterPlanWith {Receipt : Type} (publish : QueueJob → Except String Receipt)
    (persist : WriteSet → List (String × TorrentContentPersistence) →
      List (ContentPersistenceKey × ContentPersistence Details Tsv) → List String →
      Except PersistError Unit)
    (plan : WriterPlan Details Tsv) :
    Except (PersistWriterPlanError Receipt) (PersistWriterPlanReceipt Receipt) ×
      List (Effect Details Tsv) :=
  let persistWith (retry : Option Receipt) (calls : List (Effect Details Tsv)) :=
    match persist plan.writeSet plan.persistence plan.contentPersistence
        plan.emptyEpisodeObjects with
    | .error source => (.error (.persist retry source), calls ++ [.persist plan.writeSet
        plan.persistence plan.contentPersistence plan.emptyEpisodeObjects false])
    | .ok _ => (.ok ⟨retry, true⟩, calls ++ [.persist plan.writeSet plan.persistence
        plan.contentPersistence plan.emptyEpisodeObjects true])
  if plan.writeSet.torrentContents = [] then
    if plan.retryInfoHashes = [] then (.ok ⟨none, false⟩, [])
    else (.error (.allFailed plan.failures), [])
  else if plan.retryInfoHashes = [] then persistWith none []
  else
    match plan.retryJob with
    | none => (.error (.retryJobMissing plan.failures), [])
    | some job =>
      match publish job with
      | .error source => (.error (.retryPublish plan.failures source), [.publish job false])
      | .ok receipt => persistWith (some receipt) [.publish job true]

end Bitmagnet.Processor
