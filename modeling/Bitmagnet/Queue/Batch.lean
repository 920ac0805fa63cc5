import Mathlib.Data.List.Lex
import Mathlib.Order.Lattice
import Bitmagnet.Library.Bytes
import Bitmagnet.Queue.Claim

/-!
# Planning and handling batch jobs

The model of `batch.rs` and `batch_handler.rs`: a `process_torrent_batch` payload is
turned, page by page, into child jobs and at most one continuation, which are
inserted together.

What the handler uses of its surroundings is `BatchEnv`: JSON text
(`serde_json`), the page query and the insert statement of the database, and the
calendar arithmetic behind `run_after`.  `Value` is a JSON value; the handler only
asks whether a classifier flag is a boolean.  A payload's text is not told apart from
what the `jsonb` column makes of it.  The loop over pages has no bound in the source,
so `pageLoop` takes fuel and `none` is a loop that is still running.

`add_page` and `finalize` change the planner in place and can fail half way, so
they return the planner they leave next to their result.
-/

namespace Bitmagnet.Queue

/-! ## Payloads -/

/-- `ProtocolId([u8; 20])`. -/
structure ProtocolId where
  bytes : Bytes.Fixed UInt8 20
deriving DecidableEq

/-- The bytes as numbers, most significant first. -/
def ProtocolId.digits (id : ProtocolId) : List Nat := id.bytes.val.map UInt8.toNat

lemma ProtocolId.digits_injective : Function.Injective ProtocolId.digits := by
  rintro ⟨⟨a, ha⟩⟩ ⟨⟨b, hb⟩⟩ h
  have hab : a = b := List.map_injective_iff.mpr (fun x y hxy => UInt8.toNat_inj.mp hxy) h
  subst hab
  rfl

/-- The derived `Ord`: byte by byte. -/
instance : LinearOrder ProtocolId :=
  LinearOrder.lift' ProtocolId.digits ProtocolId.digits_injective

/-- `ProcessTorrentParams`. -/
structure ProcessTorrentParams (Value : Type) where
  classifyMode : Int
  classifierWorkflow : String
  classifierFlags : Option (List (String × Value))
  infoHashes : List ProtocolId

/-- `ProcessTorrentBatchParams`. -/
structure ProcessTorrentBatchParams (Value : Type) where
  infoHashGreaterThan : ProtocolId
  updatedBefore : String
  classifyMode : Int
  classifierWorkflow : String
  classifierFlags : Option (List (String × Value))
  chunkSize : Nat
  batchSize : Nat
  contentTypes : List (Option String)
  orphans : Bool

/-- `QueueJobOptions`. -/
structure QueueJobOptions where
  maxRetries : Nat := 0
  priority : Int := 0
  delay : Nat := 0

/-- `QueueJob`; the archival duration is the default of seven days. -/
structure QueueJob where
  queue : String
  status : QueueJobStatus
  payload : String
  fingerprint : String
  maxRetries : Nat
  priority : Int
  archivalDuration : Nat
  delay : Nat
deriving DecidableEq

/-- `DEFAULT_ARCHIVAL_DURATION`, in seconds. -/
def defaultArchivalDuration : Nat := 7 * 24 * 60 * 60

/-- `BatchSelection`. -/
structure BatchSelection where
  afterExclusive : ProtocolId
  updatedBefore : String
  contentTypes : List (Option String)
  orphans : Bool
  orderBy : String
  limit : Nat

/-- What is bound to `process_torrent_batch_enqueue_plan`. -/
structure EnqueuePlan where
  children : List (String × Int × Int)
  continuation : Option (String × Int)

/-- What the handler uses of `serde_json`, PostgreSQL and the calendar. -/
structure BatchEnv (Value : Type) where
  /-- `Value::as_bool`. -/
  asBool : Value → Option Bool
  /-- `serde_json::to_string`; `none` is a marshaling error. -/
  childText : ProcessTorrentParams Value → Option String
  batchText : ProcessTorrentBatchParams Value → Option String
  /-- `serde_json::from_str`. -/
  parseBatch : String → Option (ProcessTorrentBatchParams Value)
  parseChild : String → Option (ProcessTorrentParams Value)
  /-- Whether a text is a JSON object; `none` where it is no JSON. -/
  isObject : String → Option Bool
  /-- `fingerprint`: the SHA-256 of queue and payload, in hex. -/
  fingerprint : String → String → String
  /-- `materialized_at.checked_add_signed(delay)`. -/
  checkedAdd : Int → Nat → Option Int
  /-- `select_process_torrent_batch_page`. -/
  selectPage : BatchSelection → Except String (List ProtocolId)
  /-- `process_torrent_batch_enqueue_plan`: the number of inserted rows. -/
  enqueuePlan : EnqueuePlan → Except String Nat

variable {Value : Type}

/-- `apis_disabled`. -/
def ProcessTorrentBatchParams.apisDisabled (env : BatchEnv Value)
    (m : ProcessTorrentBatchParams Value) : Bool :=
  (m.classifierFlags.bind fun flags =>
    (flags.lookup "apis_enabled").bind env.asBool) = some false

/-- `new_queue_job`, from the marshaled payload. -/
def newQueueJob (env : BatchEnv Value) (queue payload : String) (opts : QueueJobOptions) :
    QueueJob where
  queue := queue
  status := .pending
  payload := payload
  fingerprint := env.fingerprint queue payload
  maxRetries := opts.maxRetries
  priority := opts.priority
  archivalDuration := defaultArchivalDuration
  delay := opts.delay

/-- `process_torrent_job`. -/
def processTorrentJob (env : BatchEnv Value) (params : ProcessTorrentParams Value)
    (opts : QueueJobOptions) : Option QueueJob :=
  (env.childText params).map fun payload =>
    newQueueJob env processTorrent payload { opts with maxRetries := 2 }

/-- `process_torrent_batch_job`. -/
def processTorrentBatchJob (env : BatchEnv Value) (params : ProcessTorrentBatchParams Value)
    (opts : QueueJobOptions) : Option QueueJob :=
  let params := if params.batchSize = 0 then { params with batchSize := 100 } else params
  let params := if params.chunkSize = 0 then { params with chunkSize := 10000 } else params
  (env.batchText params).map fun payload =>
    newQueueJob env processTorrentBatch payload { opts with maxRetries := 2 }

/-! ## The planner -/

/-- `BatchPlanError`. -/
inductive BatchPlanError
  | job
  | finalized
  | invalidPage
deriving DecidableEq

/-- `BatchPlan`. -/
structure BatchPlan where
  jobs : List QueueJob
  maxInfoHash : ProtocolId
  chunkSize : Nat
  done : Bool

/-- `BatchPlanner`. -/
structure BatchPlanner (Value : Type) where
  message : ProcessTorrentBatchParams Value
  jobs : List QueueJob
  maxInfoHash : ProtocolId
  chunkSize : Nat
  done : Bool
  finalized : Bool

namespace BatchPlanner

/-- `BatchPlanner::new`. -/
def new (message : ProcessTorrentBatchParams Value) : BatchPlanner Value :=
  ⟨message, [], message.infoHashGreaterThan, 0, false, false⟩

/-- `selection`. -/
def selection (p : BatchPlanner Value) : BatchSelection :=
  ⟨p.maxInfoHash, p.message.updatedBefore, p.message.contentTypes, p.message.orphans,
    "info_hash_asc", p.message.batchSize⟩

/-- `should_query`. -/
def shouldQuery (p : BatchPlanner Value) : Bool :=
  !p.done && (p.chunkSize = 0 || p.chunkSize < p.message.chunkSize)

/-- The loop of `add_page` over the page: every hash is above the one before it. -/
def ascendsFrom : ProtocolId → List ProtocolId → Bool
  | _, [] => true
  | previous, infoHash :: rest =>
    if infoHash ≤ previous then false else ascendsFrom infoHash rest

/-- The child job of a page. -/
def childJob (env : BatchEnv Value) (message : ProcessTorrentBatchParams Value)
    (infoHashes : List ProtocolId) : Option QueueJob :=
  processTorrentJob env
    ⟨message.classifyMode, message.classifierWorkflow, message.classifierFlags, infoHashes⟩
    { priority := if message.apisDisabled env then 4 else 10 }

/-- `add_page`. -/
def addPage (env : BatchEnv Value) (p : BatchPlanner Value) (infoHashes : List ProtocolId) :
    Except BatchPlanError Unit × BatchPlanner Value :=
  if p.finalized then (.error .finalized, p)
  else
    match infoHashes.getLast? with
    | none => (.ok (), { p with done := true })
    | some last =>
      if p.message.batchSize > 0 ∧ infoHashes.length > p.message.batchSize then
        (.error .invalidPage, p)
      else if ¬ ascendsFrom p.maxInfoHash infoHashes then (.error .invalidPage, p)
      else
        match childJob env p.message infoHashes with
        | none => (.error .job, p)
        | some job =>
          (.ok (),
            { p with
              jobs := p.jobs ++ [job]
              maxInfoHash := last
              chunkSize := min (p.chunkSize + infoHashes.length) (2 ^ 64 - 1)
              done := p.done || decide (infoHashes.length < p.message.batchSize) })

/-- `finalize`. -/
def finalize (env : BatchEnv Value) (p : BatchPlanner Value) :
    Except BatchPlanError BatchPlan × BatchPlanner Value :=
  if p.finalized then (.error .finalized, p)
  else
    let p := { p with finalized := true }
    if p.done then (.ok ⟨p.jobs, p.maxInfoHash, p.chunkSize, p.done⟩, p)
    else
      match processTorrentBatchJob env { p.message with infoHashGreaterThan := p.maxInfoHash } {} with
      | none => (.error .job, p)
      | some job =>
        let p := { p with jobs := p.jobs ++ [job] }
        (.ok ⟨p.jobs, p.maxInfoHash, p.chunkSize, p.done⟩, p)

end BatchPlanner

/-! ## The handler -/

/-- `BatchHandleError`, with the texts of the payload and producer errors. -/
inductive BatchHandleError
  | decode
  | plan (error : BatchPlanError)
  | database (error : String)
  | invalidBatchPayload (reason : String)
  | invalidProducerPayload
  | invalidProducerJob (reason : String)
  | invalidProducerDuration
deriving DecidableEq

/-- `PreparedQueueJob`. -/
structure PreparedQueueJob where
  job : QueueJob
  runAfter : Int
deriving DecidableEq

/-- `BatchHandleReport`. -/
structure BatchHandleReport where
  selected : Nat
  childJobs : Nat
  continuationInserted : Bool
  maxInfoHash : ProtocolId
  done : Bool

/-- The handler's local variables; `readings` is how often the clock was read. -/
structure HandlerState (Value : Type) where
  planner : BatchPlanner Value
  materializedAt : List Int
  selected : Nat
  readings : Nat

variable (env : BatchEnv Value) (now : Nat → Int)

/-- The `while` loop over the pages. -/
def pageLoop : Nat → HandlerState Value → Option (Except BatchHandleError (HandlerState Value))
  | 0, _ => none
  | fuel + 1, s =>
    if s.planner.shouldQuery then
      match env.selectPage s.planner.selection with
      | .error e => some (.error (.database e))
      | .ok page =>
        match s.planner.addPage env page with
        | (.error e, _) => some (.error (.plan e))
        | (.ok (), planner) =>
          if page.isEmpty then pageLoop fuel { s with planner }
          else
            pageLoop fuel
              { planner
                materializedAt := s.materializedAt ++ [now s.readings]
                selected := min (s.selected + page.length) (2 ^ 64 - 1)
                readings := s.readings + 1 }
    else some (.ok s)

/-- `PreparedQueueJob::materialize_at`. -/
def materializeAt (job : QueueJob) (materializedAt : Int) :
    Except BatchHandleError PreparedQueueJob :=
  match env.checkedAdd materializedAt job.delay with
  | some runAfter => .ok ⟨job, runAfter⟩
  | none => .error .invalidProducerDuration

/-- `validate_common_job`: whether the payload is an object. -/
def validateCommonJob (job : QueueJob) : Except BatchHandleError Bool :=
  match env.isObject job.payload with
  | none => .error .invalidProducerPayload
  | some isObject =>
    if job.status ≠ .pending then .error (.invalidProducerJob "status must be pending")
    else if job.archivalDuration ≠ defaultArchivalDuration then
      .error (.invalidProducerJob "archival_duration must be seven days")
    else if env.fingerprint job.queue job.payload ≠ job.fingerprint then
      .error (.invalidProducerJob "fingerprint does not match queue and payload bytes")
    else .ok isObject

/-- The loop of `insert_process_torrent_batch_plan_strict` over the jobs. -/
def collectPlan : List PreparedQueueJob → EnqueuePlan → Except BatchHandleError EnqueuePlan
  | [], plan => .ok plan
  | prepared :: rest, plan =>
    let job := prepared.job
    match validateCommonJob env job with
    | .error e => .error e
    | .ok false => .error (.invalidProducerJob "batch plan payload must be a JSON object")
    | .ok true =>
      if job.maxRetries ≠ 2 then
        .error (.invalidProducerJob "batch plan max_retries must be two")
      else if job.queue = processTorrent then
        if job.priority = 4 ∨ job.priority = 10 then
          collectPlan rest { plan with
            children := plan.children ++ [(job.payload, prepared.runAfter, job.priority)] }
        else .error (.invalidProducerJob "batch child priority must be four or ten")
      else if job.queue = processTorrentBatch then
        if rest.isEmpty ∧ job.priority = 0 then
          collectPlan rest { plan with continuation := some (job.payload, prepared.runAfter) }
        else
          .error (.invalidProducerJob
            "batch continuation must be the final job with priority zero")
      else .error (.invalidProducerJob "batch plan contains an unsupported queue")

/-- `insert_process_torrent_batch_plan_strict`. -/
def insertPlanStrict (jobs : List PreparedQueueJob) : Except BatchHandleError Unit :=
  match collectPlan env jobs ⟨[], none⟩ with
  | .error e => .error e
  | .ok plan =>
    match env.enqueuePlan plan with
    | .error e => .error (.database e)
    | .ok inserted =>
      if inserted ≠ jobs.length then
        .error (.invalidProducerJob "batch capability inserted an unexpected row count")
      else .ok ()

/-- The handler after the loop. -/
def finishPayload (s : HandlerState Value) :
    Except BatchHandleError (BatchHandleReport × List PreparedQueueJob) :=
  match (s.planner.finalize env).1 with
  | .error e => .error (.plan e)
  | .ok plan =>
    let materializedAt :=
      if plan.done then s.materializedAt else s.materializedAt ++ [now s.readings]
    if materializedAt.length ≠ plan.jobs.length then
      .error (.invalidBatchPayload "planner jobs and materialization timestamps diverged")
    else do
      let prepared ← (plan.jobs.zip materializedAt).mapM fun p => materializeAt env p.1 p.2
      insertPlanStrict env prepared
      return (⟨s.selected, prepared.length - if plan.done then 0 else 1, !plan.done,
        plan.maxInfoHash, plan.done⟩, prepared)

/-- `handle_process_torrent_batch_payload_with_clock`, with the jobs it inserts. -/
def handlePayload (fuel : Nat) (payload : String) :
    Option (Except BatchHandleError (BatchHandleReport × List PreparedQueueJob)) :=
  match env.parseBatch payload with
  | none => some (.error .decode)
  | some message =>
    if message.batchSize = 0 then
      some (.error (.invalidBatchPayload "BatchSize must be constructor-normalized and positive"))
    else if message.chunkSize = 0 then
      some (.error (.invalidBatchPayload "ChunkSize must be constructor-normalized and positive"))
    else
      match pageLoop env now fuel ⟨.new message, [], 0, 0⟩ with
      | none => none
      | some (.error e) => some (.error e)
      | some (.ok s) => some (finishPayload env now s)

/-- The payload of the continuation among inserted jobs. -/
def continuationPayload (jobs : List PreparedQueueJob) : Option String :=
  (jobs.find? fun p => p.job.queue = processTorrentBatch).map fun p => p.job.payload

/-- The handler on a payload and on every continuation it emits: the jobs inserted
for each of them.  The `k`th payload is handled under the `k`th clock. -/
def runChain (clocks : Nat → Nat → Int) : Nat → Nat → String →
    Option (Except BatchHandleError (List (List PreparedQueueJob)))
  | 0, _, _ => none
  | fuel + 1, k, payload =>
    match handlePayload env (clocks k) fuel payload with
    | none => none
    | some (.error e) => some (.error e)
    | some (.ok (_, jobs)) =>
      match continuationPayload jobs with
      | none => some (.ok [jobs])
      | some next =>
        match runChain clocks fuel (k + 1) next with
        | none => none
        | some (.error e) => some (.error e)
        | some (.ok rest) => some (.ok (jobs :: rest))

end Bitmagnet.Queue
