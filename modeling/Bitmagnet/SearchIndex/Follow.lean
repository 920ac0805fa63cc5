import Mathlib.Algebra.Group.Int.Defs
import Mathlib.Algebra.Group.Nat.Defs
import Mathlib.Data.Prod.Lex
import Bitmagnet.Library.Distinct
import Bitmagnet.Library.Keyset
import Bitmagnet.Library.Machine

/-!
# The follow loop of the search index

`follow.rs` keeps the search index up to date with PostgreSQL.  It reads the torrents that
changed in a window of time and the torrents that were deleted in it, replaces or removes
their documents, and stores the end of the window as its watermark.

The loop waits at every query and at every operation of the index writer, and the database
goes on changing meanwhile.  So a tick is not one step but a sequence of them: `Phase` has
the places where `follow_tick` waits, together with its local variables there.  An event is
either a change of the database, time that passes, the next operation of the loop, a failure
of that operation, or a restart of the process.

The index is the documents of each torrent.  `writer` is what the index would be after a
commit: operations that were made for a batch that failed stay in it until the next commit,
and are lost with the process.  Timestamps and the clock count microseconds; watermarks are
seconds.
-/

namespace Bitmagnet.SearchIndex

/-! ## The database -/

/-- A row of `torrent_contents` with the document that `build_document` makes of it. -/
structure ContentRow (Id Doc : Type) where
  id : Id
  document : Doc
deriving DecidableEq

/-- A row of `torrents` with its rows of `torrent_contents`, by ascending id. -/
structure Torrent (Hash Id Doc : Type) where
  infoHash : Hash
  updatedAt : Int
  contents : List (ContentRow Id Doc)
deriving DecidableEq

/-- `torrents` and `deleted_torrents`. -/
structure Database (Hash Id Doc : Type) where
  torrents : List (Torrent Hash Id Doc) := []
  deletedTorrents : List (Hash × Int) := []
deriving DecidableEq

/-- What happens to a torrent. -/
inductive Change (Hash Id Doc : Type)
  /-- it is inserted, or updated as a whole -/
  | upsert (infoHash : Hash) (time : Int) (contents : List (ContentRow Id Doc))
  | delete (infoHash : Hash) (time : Int)
deriving DecidableEq

variable {Hash Id Doc Key : Type}

/-- The torrent that changes. -/
def Change.infoHash : Change Hash Id Doc → Hash
  | .upsert infoHash _ _ | .delete infoHash _ => infoHash

/-- The timestamp of the change. -/
def Change.time : Change Hash Id Doc → Int
  | .upsert _ time _ | .delete _ time => time

/-- `to_timestamp`. -/
def toTimestamp (epoch : Int) : Int := epoch * 1000000

/-- The key of the changed-torrent stream. -/
def Torrent.key (torrent : Torrent Hash Id Doc) : Int ×ₗ Hash :=
  toLex (torrent.updatedAt, torrent.infoHash)

namespace Database

section

variable [DecidableEq Hash] (db : Database Hash Id Doc)

/-- The row of a torrent. -/
def torrent (infoHash : Hash) : Option (Torrent Hash Id Doc) :=
  db.torrents.find? (·.infoHash = infoHash)

/-- When a torrent was deleted. -/
def deletedAt (infoHash : Hash) : Option Int :=
  (db.deletedTorrents.find? (·.1 = infoHash)).map (·.2)

/-- When a torrent last changed, as far as the database tells. -/
def lastChange (infoHash : Hash) : Option Int :=
  match db.torrent infoHash with
  | some torrent => some torrent.updatedAt
  | none => db.deletedAt infoHash

/-- The database after a change; the trigger `torrents_deletion_audit` records deletions. -/
def apply : Change Hash Id Doc → Database Hash Id Doc
  | .upsert infoHash time contents =>
    { db with
      torrents := ⟨infoHash, time, contents⟩ :: db.torrents.filter (·.infoHash ≠ infoHash) }
  | .delete infoHash time =>
    { torrents := db.torrents.filter (·.infoHash ≠ infoHash)
      deletedTorrents :=
        (infoHash, time) :: db.deletedTorrents.filter (·.1 ≠ infoHash) }

end

/-- The rows of `torrent_contents`, each with its torrent. -/
def contentRows (torrents : List (Torrent Hash Id Doc)) : List (Hash × ContentRow Id Doc) :=
  torrents.flatMap fun torrent => torrent.contents.map (torrent.infoHash, ·)

/-- The primary keys of the tables. -/
structure Keyed [LinearOrder Id] (db : Database Hash Id Doc) : Prop where
  torrents : (db.torrents.map (·.infoHash)).Nodup
  contents : ((contentRows db.torrents).map (·.2.id)).Nodup
  sorted : ∀ torrent ∈ db.torrents, torrent.contents.Pairwise (·.id < ·.id)
  deleted : (db.deletedTorrents.map (·.1)).Nodup

instance [LinearOrder Id] [DecidableEq Hash] (db : Database Hash Id Doc) : Decidable db.Keyed :=
  decidable_of_iff _ ⟨fun h => ⟨h.1, h.2.1, h.2.2.1, h.2.2.2⟩,
    fun h => (⟨h.1, h.2, h.3, h.4⟩ : _ ∧ _ ∧ _ ∧ _)⟩

variable [LinearOrder Hash] [LinearOrder Id] (db : Database Hash Id Doc)

/-- `stream_changed_torrent_keys`. -/
def streamChangedTorrentKeys (since until_ : Int) (after : Option (Int ×ₗ Hash)) (limit : Nat) :
    List (Int ×ₗ Hash) :=
  (Keyset.page Torrent.key (db.torrents.filter fun torrent =>
    toTimestamp since < torrent.updatedAt ∧ torrent.updatedAt ≤ toTimestamp until_) after
    limit).map Torrent.key

/-- `stream_torrents_for_index_info_hashes`. -/
def streamTorrentsForIndexInfoHashes (infoHashes : List Hash) (after : Option Id) (limit : Nat) :
    List (Hash × ContentRow Id Doc) :=
  Keyset.page (·.2.id) (contentRows (db.torrents.filter (·.infoHash ∈ infoHashes))) after limit

/-- `read_deleted_torrents`. -/
def readDeletedTorrents (since until_ : Int) (limit : Nat) : List Hash :=
  (((db.deletedTorrents.filter fun row =>
    toTimestamp since < row.2 ∧ row.2 ≤ toTimestamp until_).mergeSort fun a b =>
      decide (a.2 ≤ b.2)).take limit).map (·.1)

end Database

/-! ## The index -/

/-- The documents of every torrent. -/
abbrev Index (Hash Doc : Type) := Hash → List Doc

/-- An operation of the index writer. -/
inductive Op (Hash Doc : Type)
  /-- `indexer::delete`: the term of the info hash -/
  | delete (infoHash : Hash)
  /-- `indexer::upsert`: the term of the document id, which starts with the info hash, then
  the document -/
  | upsert (infoHash : Hash) (document : Doc)

/-- The torrent of an operation. -/
def Op.infoHash : Op Hash Doc → Hash
  | .delete infoHash | .upsert infoHash _ => infoHash

/-- A document added to those of its torrent. -/
def addDocument [DecidableEq Key] (docId : Doc → Key) (documents : List Doc) (document : Doc) :
    List Doc :=
  documents.filter (docId · ≠ docId document) ++ [document]

/-- The documents that are indexed for some rows. -/
def indexed [DecidableEq Key] (docId : Doc → Key) (rows : List (ContentRow Id Doc)) : List Doc :=
  (rows.map (·.document)).foldl (addDocument docId) []

/-- What an operation does. -/
def Op.run [DecidableEq Hash] [DecidableEq Key] (docId : Doc → Key) (index : Index Hash Doc) :
    Op Hash Doc → Index Hash Doc
  | .delete infoHash => Function.update index infoHash []
  | .upsert infoHash document =>
    Function.update index infoHash (addDocument docId (index infoHash) document)

/-- The documents that the database has for a torrent. -/
def Database.documents [DecidableEq Hash] [DecidableEq Key] (docId : Doc → Key)
    (db : Database Hash Id Doc) (infoHash : Hash) : List Doc :=
  match db.torrent infoHash with
  | some torrent => indexed docId torrent.contents
  | none => []

/-- The operations of `apply_follow_batch` for the replacements of a page of keys, which
`read_replacements` has by info hash. -/
def replacementOps [LinearOrder Hash] (infoHashes : List Hash)
    (read : List (Hash × ContentRow Id Doc)) : List (Op Hash Doc) :=
  ((Distinct.firsts [] infoHashes).mergeSort fun a b => decide (a ≤ b)).flatMap fun infoHash =>
    .delete infoHash ::
      (read.filter (·.1 = infoHash)).map fun row => .upsert infoHash row.2.document

/-! ## Windows -/

/-- `FollowConfig`, as far as the loop reads it. -/
structure FollowConfig where
  carveLagSecs : Int := 30
  maxWindowSecs : Int := 3600
  batchSize : Int := 1000
  deletedLimit : Int := 100000

/-- `FollowConfig::normalized`. -/
def FollowConfig.normalized (config : FollowConfig) : FollowConfig where
  carveLagSecs := max config.carveLagSecs 1
  maxWindowSecs := max config.maxWindowSecs 1
  batchSize := max config.batchSize 1
  deletedLimit := max config.deletedLimit 1

/-- `FollowWindow`. -/
structure FollowWindow where
  since : Int
  until_ : Int
deriving DecidableEq

/-- `i64::saturating_add` of a number that is not negative. -/
def satAdd (a b : Int) : Int := min (a + b) (2 ^ 63 - 1)

/-- `lagged_until`. -/
def laggedUntil (nowEpoch carveLagSecs : Int) : Int := max (nowEpoch - max carveLagSecs 0) 0

/-- `carve_window_with_max`. -/
def carveWindowWithMax (watermark nowEpoch carveLagSecs maxWindowSecs : Int) :
    Option FollowWindow :=
  let maxUntil := satAdd watermark (max maxWindowSecs 1)
  let until_ := min (laggedUntil nowEpoch carveLagSecs) maxUntil
  if until_ > watermark then some ⟨watermark, until_⟩ else none

/-- `deleted_read_limit_with_sentinel`. -/
def deletedReadLimitWithSentinel (deletedLimit : Int) : Int := satAdd (max deletedLimit 1) 1

/-- `deleted_read_truncated`. -/
def deletedReadTruncated (found : Nat) (deletedLimit : Int) : Bool :=
  deletedLimit > 0 ∧ (found : Int) > deletedLimit

/-- `live_tombstones`. -/
def liveTombstones [DecidableEq Hash] (deleted upserted : List Hash) : List Hash :=
  deleted.filter (· ∉ upserted)

/-! ## The loop -/

/-- Where the loop waits. -/
inductive Phase (Hash Id Doc : Type)
  /-- between two ticks -/
  | idle
  /-- for the next page of changed keys -/
  | keys (window : FollowWindow) (cursor : Option (Int ×ₗ Hash)) (upserted : List Hash)
  /-- for the next page of rows of the changed torrents, in `read_replacements` -/
  | rows (window : FollowWindow) (upserted : List Hash) (page : List (Int ×ₗ Hash))
      (cursor : Option Id) (read : List (Hash × ContentRow Id Doc))
  /-- for the index writer, in `apply_follow_batch`; the last operation is the commit -/
  | batch (ops : List (Op Hash Doc)) (next : Phase Hash Id Doc)
  /-- for the deleted torrents -/
  | deleted (window : FollowWindow) (upserted : List Hash)
  /-- for the watermark to be written -/
  | store (window : FollowWindow)

/-- The database, the index and the loop, with all changes and windows so far. -/
structure State (Hash Id Doc : Type) where
  db : Database Hash Id Doc
  clock : Int
  index : Index Hash Doc
  writer : Index Hash Doc
  watermarkFile : Int
  watermark : Int
  phase : Phase Hash Id Doc := .idle
  history : List (Change Hash Id Doc) := []
  windows : List FollowWindow := []

/-- What can happen. -/
inductive Event (Hash Id Doc : Type)
  /-- a change becomes visible in the database -/
  | change (change : Change Hash Id Doc)
  | wait (micros : Nat)
  /-- the loop begins a tick, if there is a window for it -/
  | tick
  /-- the operation the loop waits for succeeds -/
  | proceed
  /-- it fails -/
  | fail
  /-- the process is started again -/
  | restart

section Step

variable [LinearOrder Hash] [LinearOrder Id] [DecidableEq Key] (docId : Doc → Key)
  (config : FollowConfig)

/-- Only a torrent that is there is deleted. -/
def Change.possible (db : Database Hash Id Doc) : Change Hash Id Doc → Bool
  | .upsert _ _ _ => true
  | .delete infoHash _ => (db.torrent infoHash).isSome

/-- A change becomes visible less than the configured lag after its timestamp, and behind
the changes of the same torrent before it. -/
def Admits (s : State Hash Id Doc) (change : Change Hash Id Doc) : Prop :=
  s.clock < change.time + toTimestamp config.carveLagSecs ∧
    (∀ time ∈ s.db.lastChange change.infoHash, time < change.time) ∧
    (s.db.apply change).Keyed ∧ change.possible s.db

instance (s : State Hash Id Doc) (change : Change Hash Id Doc) :
    Decidable (Admits config s change) :=
  inferInstanceAs (Decidable (_ ∧ _ ∧ _ ∧ _))

/-- The operation that the loop waits for. -/
def proceed (s : State Hash Id Doc) : State Hash Id Doc :=
  match s.phase with
  | .idle => s
  | .keys window cursor upserted =>
    let page := s.db.streamChangedTorrentKeys window.since window.until_ cursor
      config.batchSize.toNat
    if page = [] then { s with phase := .deleted window upserted }
    else
      let upserted := upserted ++ page.map (ofLex · |>.2)
      { s with phase := .rows window upserted page none [] }
  | .rows window upserted page cursor read =>
    let infoHashes := page.map (ofLex · |>.2)
    let rows := s.db.streamTorrentsForIndexInfoHashes infoHashes cursor config.batchSize.toNat
    if rows = [] then
      { s with
        phase := .batch (replacementOps infoHashes read) (.keys window page.getLast? upserted) }
    else
      { s with
        phase := .rows window upserted page (Keyset.next (·.2.id) rows) (read ++ rows) }
  | .batch [] next => { s with index := s.writer, phase := next }
  | .batch (op :: ops) next => { s with writer := op.run docId s.writer, phase := .batch ops next }
  | .deleted window upserted =>
    let deleted := s.db.readDeletedTorrents window.since window.until_
      (deletedReadLimitWithSentinel config.deletedLimit).toNat
    if deletedReadTruncated deleted.length config.deletedLimit then { s with phase := .idle }
    else
      let live := liveTombstones deleted upserted
      if live = [] then { s with phase := .store window }
      else { s with phase := .batch (live.map .delete) (.store window) }
  | .store window =>
    { s with
      watermarkFile := window.until_
      watermark := window.until_
      phase := .idle
      windows := s.windows ++ [window] }

/-- One event; `none` for a change that cannot be. -/
def step (s : State Hash Id Doc) : Event Hash Id Doc → Option (Unit × State Hash Id Doc)
  | .change change =>
    if Admits config s change then
      some ((), { s with db := s.db.apply change, history := s.history ++ [change] })
    else none
  | .wait micros => some ((), { s with clock := s.clock + micros })
  | .tick =>
    match s.phase with
    | .idle =>
      match carveWindowWithMax s.watermark (s.clock / 1000000) config.carveLagSecs
          config.maxWindowSecs with
      | none => some ((), s)
      | some window => some ((), { s with phase := .keys window none [] })
    | _ => none
  | .proceed => some ((), proceed docId config s)
  | .fail => some ((), { s with phase := .idle })
  | .restart =>
    some ((), { s with phase := .idle, writer := s.index, watermark := s.watermarkFile })

end Step

end Bitmagnet.SearchIndex
