import Mathlib.Algebra.Group.Int.Defs
import Mathlib.Algebra.Group.Nat.Defs
import Mathlib.Data.List.Nodup
import Mathlib.Order.Basic
import Bitmagnet.Library.Machine

/-!
# Claiming and settling queue jobs

The model of the two consumers of `queue_jobs`: `consume_one_observed` in `pg.rs`,
with the shadow and batch queues' own claim and settle functions (migrations 00029
and 00030), and `consume_admitted_process_torrent_with` in `process_torrent_pg.rs`.

A consumer claims one row, runs a handler while it holds the row's lock and
settles the row in the same transaction.  A row another transaction holds is
skipped, so one claim is one step on the table here; what the others hold at that
time is `Claim.locked`.  A transaction that does not commit leaves the table as it
was, whether the consumer rolls it back or the database refuses it.

Times are whole seconds.  The clock is read when the row is claimed and when it is
settled, and nothing is assumed about the readings.  What PostgreSQL contributes
is `Postgres`: which payloads the admission predicates match, and which times it
can represent.  `archival_duration` and `created_at` are left out, as no statement
here reads them.
-/

namespace Bitmagnet.Queue

/-- `QueueJobStatus`. -/
inductive QueueJobStatus
  | pending
  | processed
  | retry
  | failed
deriving DecidableEq

/-- A row of `queue_jobs`. -/
structure QueueJobRow where
  id : String
  fingerprint : String
  queue : String
  status : QueueJobStatus
  payload : String
  retries : Int
  maxRetries : Int
  priority : Int
  runAfter : Int
  ranAt : Option Int
  error : Option String
  deadline : Option Int
deriving DecidableEq

/-- The table, with its primary key. -/
structure QueueTable where
  rows : List QueueJobRow
  nodup : (rows.map QueueJobRow.id).Nodup

/-- `ProcessTorrentAdmission`. -/
inductive ProcessTorrentAdmission
  | flagsOff
  | flagsOffOrOn
  | organic (maxPriority : Int)
deriving DecidableEq

/-- What the database decides. -/
structure Postgres where
  /-- The admission's predicate on the payload. -/
  admitsPayload : ProcessTorrentAdmission → String → Bool
  /-- The time is a `timestamptz`. -/
  representable : Int → Bool

/-- `QueuePgError`, as far as the consumers raise it. -/
inductive QueuePgError
  | database
  | invalidInteger (field : String) (value : Int)
deriving DecidableEq

/-- `DequeuedJob`. -/
structure DequeuedJob where
  id : String
  fingerprint : String
  queue : String
  originalStatus : QueueJobStatus
  payload : String
  retries : Nat
  maxRetries : Nat
  priority : Int
deriving DecidableEq

/-- `ConsumeOutcome`. -/
inductive ConsumeOutcome
  | empty
  | processed (job : DequeuedJob)
  | retryScheduled (job : DequeuedJob) (delay : Nat)
  | failed (job : DequeuedJob) (error : String)
deriving DecidableEq

/-! ## Claims -/

/-- `PROCESS_TORRENT`. -/
def processTorrent : String := "process_torrent"

/-- `PROCESS_TORRENT_SHADOW`. -/
def processTorrentShadow : String := "process_torrent_shadow"

/-- `PROCESS_TORRENT_BATCH`. -/
def processTorrentBatch : String := "process_torrent_batch"

/-- `status IN ('pending','retry')`. -/
def QueueJobStatus.isActive : QueueJobStatus → Bool
  | .pending | .retry => true
  | .processed | .failed => false

/-- The part of the `WHERE` clause that all claims share. -/
def QueueJobRow.isDue (j : QueueJobRow) (queue : String) (now : Int) : Bool :=
  j.queue = queue && j.status.isActive && j.runAfter ≤ now

/-- `ORDER BY (status = 'retry'), priority, run_after`. -/
def QueueJobRow.before (j k : QueueJobRow) : Bool :=
  let late (j : QueueJobRow) : Nat := if j.status = .retry then 1 else 0
  late j < late k || late j = late k && (j.priority < k.priority ||
    j.priority = k.priority && j.runAfter < k.runAfter)

/-- The first row in claim order. -/
def firstInOrder : List QueueJobRow → Option QueueJobRow
  | [] => none
  | j :: rest =>
    match firstInOrder rest with
    | none => some j
    | some k => if k.before j then some k else some j

/-- `FOR UPDATE SKIP LOCKED LIMIT 1` over the rows a claim selects. -/
def QueueTable.claim (t : QueueTable) (locked : List String) (selects : QueueJobRow → Bool) :
    Option QueueJobRow :=
  firstInOrder (t.rows.filter fun j => selects j && !locked.contains j.id)

/-- `to_u32`. -/
def toU32 (field : String) (value : Int) : Except QueuePgError Nat :=
  if 0 ≤ value ∧ value < 2 ^ 32 then .ok value.toNat else .error (.invalidInteger field value)

/-- The claimed row as the handler gets it. -/
def QueueJobRow.dequeue (j : QueueJobRow) : Except QueuePgError DequeuedJob := do
  let retries ← toU32 "retries" j.retries
  let maxRetries ← toU32 "max_retries" j.maxRetries
  return ⟨j.id, j.fingerprint, j.queue, j.status, j.payload, retries, maxRetries, j.priority⟩

/-- `deadline IS NOT NULL AND deadline < clock_timestamp()`. -/
def QueueJobRow.deadlineExceeded (j : QueueJobRow) (now : Int) : Bool := j.deadline.any (· < now)

/-- The retry count while the handler runs. -/
def DequeuedJob.started (job : DequeuedJob) : DequeuedJob :=
  if job.originalStatus = .retry then { job with retries := min (job.retries + 1) (2 ^ 32 - 1) }
  else job

/-! ## Settlement -/

/-- `DEADLINE_ERROR`. -/
def deadlineError : String := "the job did not complete before its deadline"

/-- The text a handler's panic is recorded under. -/
def panickedError (message : String) : String := "job handler panicked: " ++ message

/-- `backoff_seconds_with_jitter`, in `u64`. -/
def backoffSecondsWithJitter (retryCount jitter : Nat) : Nat :=
  ((retryCount ^ 4 % 2 ^ 64 + 16) % 2 ^ 64 + jitter * retryCount) % 2 ^ 64

/-- Change the row with the given key. -/
def QueueTable.update (t : QueueTable) (id : String) (f : QueueJobRow → QueueJobRow)
    (hf : ∀ j, (f j).id = j.id) : QueueTable where
  rows := t.rows.map fun j => if j.id = id then f j else j
  nodup := by
    have hids : (t.rows.map fun j => if j.id = id then f j else j).map QueueJobRow.id =
        t.rows.map QueueJobRow.id := by
      rw [List.map_map]
      refine List.map_congr_left fun j _ => ?_
      by_cases h : j.id = id <;> simp [h, hf]
    rw [hids]
    exact t.nodup

/-- The three settle statements, with what they bind. -/
inductive Settlement
  | retry (retries : Nat) (error : String) (delaySeconds : Nat)
  | failed (retries : Nat) (error : String)
  | processed (retries : Nat)
deriving DecidableEq

/-- The `SET` clause of a settle statement. -/
def Settlement.set (s : Settlement) (now : Int) (j : QueueJobRow) : QueueJobRow :=
  match s with
  | .retry retries error delay =>
    { j with
      status := .retry, retries := retries, ranAt := some now, error := some error
      runAfter := now + delay }
  | .failed retries error =>
    { j with status := .failed, retries := retries, ranAt := some now, error := some error }
  | .processed retries => { j with status := .processed, retries := retries, ranAt := some now }

lemma Settlement.id_set (s : Settlement) (now : Int) (j : QueueJobRow) :
    (s.set now j).id = j.id := by
  cases s <;> rfl

/-- Whether the database can compute the new row. -/
def Settlement.isRepresentable (pg : Postgres) (now : Int) : Settlement → Bool
  | .retry _ _ delay => pg.representable (now + delay)
  | _ => true

/-- The settle statements of `pg.rs`: `WHERE id = $1`. -/
def QueueTable.settleGeneric (t : QueueTable) (pg : Postgres) (now : Int) (id : String)
    (s : Settlement) : Except QueuePgError QueueTable :=
  if s.isRepresentable pg now then .ok (t.update id (s.set now) (s.id_set now))
  else .error .database

/-- The settle functions of the shadow and the batch queue, which raise when they
do not find the row among the active ones of their queue. -/
def QueueTable.settleGuarded (t : QueueTable) (pg : Postgres) (now : Int) (queue id : String)
    (s : Settlement) : Except QueuePgError QueueTable :=
  if t.rows.any fun j => j.id = id && j.queue = queue && j.status.isActive then
    t.settleGeneric pg now id s
  else .error .database

/-- The settlement of a handled job and the outcome that is reported for it. -/
def settlementOf (job : DequeuedJob) (handlerError : Option String) (jitter : Nat) :
    Settlement × ConsumeOutcome :=
  match handlerError with
  | some error =>
    if job.retries < job.maxRetries then
      let delay := backoffSecondsWithJitter job.retries jitter
      (.retry job.retries error (min delay (2 ^ 63 - 1)), .retryScheduled job delay)
    else (.failed job.retries error, .failed job error)
  | none => (.processed job.retries, .processed job)

/-! ## The two consumers -/

/-- How a handler ends: with its result, or with a panic. -/
inductive HandlerEnd (α : Type)
  | returned (result : α)
  | panicked (message : String)

/-- `JobVerdict`. -/
inductive JobVerdict
  | complete
  | fail (error : String)
  | abstain (reason : String)
deriving DecidableEq

/-- What a claim meets: the rows other transactions hold, the clock when it claims
and when it settles, the jitter drawn, and whether its commit is refused. -/
structure Surroundings where
  locked : List String
  claimedAt : Int
  settledAt : Int
  jitter : Fin 30
  commitFails : Bool

/-- One claim attempt by one of the consumers. -/
inductive Claim
  | consumeOne (queue : String) (handler : DequeuedJob → HandlerEnd (Except String Unit))
      (around : Surroundings)
  | consumeAdmitted (admission : ProcessTorrentAdmission) (excludedIds : List String)
      (handler : DequeuedJob → HandlerEnd JobVerdict) (around : Surroundings)

/-- `AdmittedConsumeOutcome`, which has the generic consumer's outcomes as `settled`.
A settled job comes with whether its deadline was found exceeded. -/
inductive ClaimOutcome
  | settled (outcome : ConsumeOutcome) (deadlineExceeded : Bool)
  | abstained (job : DequeuedJob) (reason : String)
  | error (error : QueuePgError)

variable (pg : Postgres)

/-- The rows a claim selects. -/
def Claim.selects : Claim → QueueJobRow → Bool
  | .consumeOne queue _ around, j => j.isDue queue around.claimedAt
  | .consumeAdmitted admission excludedIds _ around, j =>
    j.isDue processTorrent around.claimedAt && pg.admitsPayload admission j.payload &&
      !excludedIds.contains j.id &&
      match admission with
      | .organic maxPriority => decide (j.priority ≤ maxPriority)
      | _ => true

def Claim.around : Claim → Surroundings
  | .consumeOne _ _ around | .consumeAdmitted _ _ _ around => around

/-- The settle statement of the claim's queue. -/
def Claim.settle (c : Claim) (t : QueueTable) (id : String) (s : Settlement) :
    Except QueuePgError QueueTable :=
  match c with
  | .consumeOne queue _ around =>
    if queue = processTorrentShadow ∨ queue = processTorrentBatch then
      t.settleGuarded pg around.settledAt queue id s
    else t.settleGeneric pg around.settledAt id s
  | .consumeAdmitted _ _ _ around => t.settleGeneric pg around.settledAt id s

/-- What the handler decides about the started job.  A panic is a failure, also of
a handler that could have abstained. -/
def Claim.verdict (c : Claim) (job : DequeuedJob) : JobVerdict :=
  match c with
  | .consumeOne _ handler _ =>
    match handler job with
    | .returned (.ok ()) => .complete
    | .returned (.error error) => .fail error
    | .panicked message => .fail (panickedError message)
  | .consumeAdmitted _ _ handler _ =>
    match handler job with
    | .returned verdict => verdict
    | .panicked message => .fail (panickedError message)

/-- Settle and commit. -/
def Claim.finish (c : Claim) (t : QueueTable) (job : DequeuedJob) (handlerError : Option String)
    (deadlineExceeded : Bool) : ClaimOutcome × QueueTable :=
  let settlement := settlementOf job handlerError c.around.jitter
  match c.settle pg t job.id settlement.1 with
  | .error e => (.error e, t)
  | .ok t' =>
    if c.around.commitFails then (.error .database, t)
    else (.settled settlement.2 deadlineExceeded, t')

/-- `consume_one_observed` and `consume_admitted_process_torrent_with`. -/
def consume (t : QueueTable) (c : Claim) : ClaimOutcome × QueueTable :=
  match t.claim c.around.locked (c.selects pg) with
  | none => (.settled .empty false, t)
  | some row =>
    match row.dequeue with
    | .error e => (.error e, t)
    | .ok job =>
      if row.deadlineExceeded c.around.claimedAt then
        c.finish pg t job (some deadlineError) true
      else
        match c.verdict job.started with
        | .complete => c.finish pg t job.started none false
        | .fail error => c.finish pg t job.started (some error) false
        | .abstain reason =>
          -- the increment of `started` is taken back before it is reported
          (.abstained { job.started with
            retries := job.started.retries - if row.status = .retry then 1 else 0 } reason, t)

/-- Claims one after the other. -/
def runClaims (t : QueueTable) (claims : List Claim) : Option (List ClaimOutcome × QueueTable) :=
  Machine.run (fun t c => some (consume pg t c)) t claims

end Bitmagnet.Queue
