import Mathlib.Data.Finset.Card
import Bitmagnet.Library.Monitor

/-!
# The blocking manager

`BlockingManager` of `bitmagnet-blocking`: hashes to block are buffered in memory and
handed in one atomic commit to a store, which answers with the persistent filter.  All
state is behind one `tokio` mutex that a call holds from its first access to its return,
also while it waits for the commit, so that the manager is a `Monitor` whose only request
is the commit.

A call is given what it would read from outside: the clock, and the order in which the
`HashSet` of buffered hashes is iterated.  The store and the source of decrement starts
are behind the commit, whose answer is any.  `Filter` is the stable Bloom filter, of
which only `test` is read.
-/

namespace Bitmagnet.Blocking

open Monitor (Call)

/-- `BlockingConfig`; the buffer bound is a `NonZeroUsize`. -/
structure BlockingConfig where
  maxBufferSize : Nat
  maxFlushWait : Nat
  maxBufferSize_pos : 0 < maxBufferSize

/-- `BlockingConfig::default`, the wait in milliseconds. -/
def BlockingConfig.default : BlockingConfig := ⟨1000, 5 * 60 * 1000, by decide⟩

/-- `BlockingError`. -/
inductive BlockingError (E : Type)
  | store (source : E)
deriving DecidableEq

/-- `BlockingFinalizeOutcome`. -/
inductive BlockingFinalizeOutcome
  | nothingPending
  | flushed (uniqueHashCount : Nat)
deriving DecidableEq

/-- `CommittedFilter`. -/
structure CommittedFilter (Filter : Type) where
  filter : Filter
  flushedAt : Nat

/-- `Inner`, without what is behind the commit. -/
structure Inner (α Filter : Type) where
  buffer : Finset α
  filter : Option Filter
  lastFlushedAt : Option Nat

/-- The state of a new manager. -/
def Inner.new {α Filter : Type} : Inner α Filter := ⟨∅, none, none⟩

/-- An iteration order of a `HashSet`. -/
structure Order (α : Type) [DecidableEq α] where
  toList : Finset α → List α
  nodup : ∀ s, (toList s).Nodup
  mem_toList : ∀ s a, a ∈ toList s ↔ a ∈ s

/-- What a call reads from outside. -/
structure Outside (α : Type) [DecidableEq α] where
  /-- `clock.now().monotonic` -/
  now : Nat
  order : Order α

/-- A call on the manager, returning `β`; the request is the hashes to commit. -/
abbrev Op (α Filter E β : Type) :=
  Call (Inner α Filter) (List α) (Except E (CommittedFilter Filter)) β

variable {α Filter E : Type} [DecidableEq α]

/-- `should_flush`; the difference of instants saturates. -/
def shouldFlush (inner : Inner α Filter) (config : BlockingConfig) (now : Nat) : Bool :=
  if inner.buffer.card ≥ config.maxBufferSize then true
  else
    match inner.lastFlushedAt with
    | none => true
    | some lastFlushedAt => now - lastFlushedAt ≥ config.maxFlushWait

/-- `flush_locked`. -/
def flushLocked (outside : Outside α) : Op α Filter E (Except (BlockingError E) Unit) := do
  let inner ← Call.get
  let blocked := outside.order.toList inner.buffer
  match ← Call.ask blocked with
  | .error source => pure (.error (.store source))
  | .ok committed => do
    Call.set ⟨∅, some committed.filter, some committed.flushedAt⟩
    pure (.ok ())

/-- The part of `filter` behind its checkpoint; `test` is `StableBloomFilter::test`. -/
def filterPublished (test : Filter → α → Bool) (infoHashes : List α) :
    Op α Filter E (Except (BlockingError E) (List α)) := do
  let inner ← Call.get
  match inner.filter with
  | none => Call.panic
  | some filter =>
    pure (.ok (infoHashes.filter fun infoHash =>
      infoHash ∉ inner.buffer ∧ ¬ test filter infoHash))

/-- `filter`. -/
def filter (test : Filter → α → Bool) (config : BlockingConfig) (outside : Outside α)
    (infoHashes : List α) : Op α Filter E (Except (BlockingError E) (List α)) := do
  let inner ← Call.get
  if inner.filter.isNone ∨ shouldFlush inner config outside.now then do
    match ← flushLocked outside with
    | .error error => pure (.error error)
    | .ok () => filterPublished test infoHashes
  else filterPublished test infoHashes

/-- `block`. -/
def block (config : BlockingConfig) (outside : Outside α) (infoHashes : List α) (flush : Bool) :
    Op α Filter E (Except (BlockingError E) Unit) := do
  let inner ← Call.get
  let inner := { inner with buffer := inner.buffer ∪ infoHashes.toFinset }
  Call.set inner
  if flush ∨ shouldFlush inner config outside.now then flushLocked outside
  else pure (.ok ())

/-- `finalize`. -/
def finalize (outside : Outside α) :
    Op α Filter E (Except (BlockingError E) BlockingFinalizeOutcome) := do
  let inner ← Call.get
  let uniqueHashCount := inner.buffer.card
  if uniqueHashCount = 0 then pure (.ok .nothingPending)
  else do
    let flushed ← flushLocked outside
    pure (flushed.map fun _ => .flushed uniqueHashCount)

/-- `flush`. -/
def flush (outside : Outside α) : Op α Filter E (Except (BlockingError E) Unit) := do
  let outcome ← finalize outside
  pure (outcome.map fun _ => ())

/-! ## The calls as one family -/

/-- A call on the manager. -/
inductive Request (α : Type)
  | filter (infoHashes : List α)
  | block (infoHashes : List α) (flush : Bool)
  | flush
  | finalize
deriving DecidableEq

/-- What a call returns. -/
inductive Response (α E : Type)
  | filtered (result : Except (BlockingError E) (List α))
  | done (result : Except (BlockingError E) Unit)
  | finalized (result : Except (BlockingError E) BlockingFinalizeOutcome)

/-- The body of a call. -/
def body (test : Filter → α → Bool) (config : BlockingConfig) (call : Request α × Outside α) :
    Op α Filter E (Response α E) :=
  match call.1 with
  | .filter infoHashes => Response.filtered <$> filter test config call.2 infoHashes
  | .block infoHashes flush => Response.done <$> block config call.2 infoHashes flush
  | .flush => Response.done <$> flush call.2
  | .finalize => Response.finalized <$> finalize call.2

/-- A manager, shared by any number of callers. -/
abbrev BlockingManager (α Filter E : Type) [DecidableEq α] :=
  Monitor.System (Inner α Filter) (List α) (Except E (CommittedFilter Filter))
    (Request α × Outside α) (Response α E)

/-- `BlockingManager::new`. -/
def BlockingManager.new : BlockingManager α Filter E := { state := Inner.new }

end Bitmagnet.Blocking
