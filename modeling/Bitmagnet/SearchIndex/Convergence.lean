import Mathlib.Data.List.Flatten
import Bitmagnet.SearchIndex.Follow

/-!
# The index follows the database

A torrent is *settled* at a watermark if it has not changed since.  The loop keeps two
things: the documents of the torrents settled at the stored watermark are those the
database has for them (`Tracks`), and a tick under way is on its way to have this for the
end of its window as well (`PhaseOk`).  Both look at settled torrents only.  Changes that
become visible while a tick runs are behind its window, because the window ends the
configured lag ago, so a torrent that is settled at the end of the window is the same in
every query of the tick; what the queries find of other torrents does not matter.

A batch is stated by what the index will be once it is committed, so that a failure in the
middle of it, a retry over the operations it left in the writer, and a restart need no case
of their own.
-/

namespace Bitmagnet.SearchIndex

variable {Hash Id Doc Key : Type}

/-! ## The database -/

section

variable {α β : Type} [DecidableEq β] {key : α → β}

lemma find?_filter_ne {a b : β} (h : a ≠ b) (rows : List α) :
    (rows.filter (key · ≠ b)).find? (key · = a) = rows.find? (key · = a) := by
  rw [List.find?_filter]
  apply congrArg fun p => rows.find? p
  funext row
  by_cases hrow : key row = a
  · simp [hrow, h]
  · simp [hrow]

lemma find?_of_nodup {rows : List α} (h : (rows.map key).Nodup) {row : α} (hrow : row ∈ rows) :
    rows.find? (key · = key row) = some row := by
  have hsome : (rows.find? (key · = key row)).isSome :=
    List.find?_isSome.mpr ⟨row, hrow, decide_eq_true rfl⟩
  obtain ⟨found, hfound⟩ := Option.isSome_iff_exists.mp hsome
  have hsame : key found = key row := by simpa using List.find?_some hfound
  rw [hfound, List.inj_on_of_nodup_map h (List.mem_of_find?_eq_some hfound) hrow hsame]

end

namespace Database

section

variable [DecidableEq Hash] {db : Database Hash Id Doc} {infoHash : Hash}
  {torrent : Torrent Hash Id Doc} {change : Change Hash Id Doc}

lemma torrent_eq_some (h : db.torrent infoHash = some torrent) :
    torrent ∈ db.torrents ∧ torrent.infoHash = infoHash :=
  ⟨List.mem_of_find?_eq_some h, by simpa using List.find?_some h⟩

lemma torrent_apply_of_ne (h : infoHash ≠ change.infoHash) :
    (db.apply change).torrent infoHash = db.torrent infoHash := by
  cases change with
  | upsert other time contents =>
    have hne : ¬ other = infoHash := fun heq => h heq.symm
    rw [torrent, apply, List.find?_cons_of_neg (by simpa using hne)]
    exact find?_filter_ne h _
  | delete other time => exact find?_filter_ne h _

lemma deletedAt_apply_of_ne (h : infoHash ≠ change.infoHash) :
    (db.apply change).deletedAt infoHash = db.deletedAt infoHash := by
  cases change with
  | upsert other time contents => rfl
  | delete other time =>
    have hne : ¬ other = infoHash := fun heq => h heq.symm
    rw [deletedAt, apply, List.find?_cons_of_neg (by simpa using hne)]
    exact congrArg (Option.map Prod.snd) (find?_filter_ne h db.deletedTorrents)

lemma lastChange_apply_of_ne (h : infoHash ≠ change.infoHash) :
    (db.apply change).lastChange infoHash = db.lastChange infoHash := by
  rw [lastChange, lastChange, torrent_apply_of_ne h, deletedAt_apply_of_ne h]

lemma lastChange_apply (db : Database Hash Id Doc) (change : Change Hash Id Doc) :
    (db.apply change).lastChange change.infoHash = some change.time := by
  cases change with
  | upsert infoHash time contents =>
    have htorrent : (db.apply (.upsert infoHash time contents)).torrent infoHash =
        some ⟨infoHash, time, contents⟩ := List.find?_cons_of_pos (by simp)
    show (db.apply (.upsert infoHash time contents)).lastChange infoHash = _
    rw [lastChange, htorrent]
    rfl
  | delete infoHash time =>
    have htorrent : (db.apply (.delete infoHash time)).torrent infoHash = none := by
      refine List.find?_eq_none.mpr fun torrent hmem => ?_
      simpa using (List.mem_filter.mp hmem).2
    have hdeleted : (db.apply (.delete infoHash time)).deletedAt infoHash = some time := by
      rw [deletedAt, apply, List.find?_cons_of_pos (by simp)]
      rfl
    show (db.apply (.delete infoHash time)).lastChange infoHash = _
    rw [lastChange, htorrent]
    exact hdeleted

/-- A torrent that is there was inserted behind its last deletion. -/
def Ordered (db : Database Hash Id Doc) : Prop :=
  ∀ infoHash torrent time, db.torrent infoHash = some torrent → db.deletedAt infoHash = some time →
    time < torrent.updatedAt

lemma Ordered.apply (h : db.Ordered)
    (hlater : ∀ time ∈ db.lastChange change.infoHash, time < change.time) :
    (db.apply change).Ordered := by
  intro infoHash torrent time htorrent hdeleted
  by_cases hne : infoHash = change.infoHash
  · subst hne
    have hlast := lastChange_apply db change
    rw [lastChange, htorrent] at hlast
    rw [Option.some.inj hlast]
    cases change with
    | delete infoHash' time' =>
      obtain ⟨hmem, hsame⟩ := torrent_eq_some htorrent
      exact absurd hsame (of_decide_eq_true (List.mem_filter.mp hmem).2)
    | upsert other now contents =>
      have hbefore : db.deletedAt other = some time := hdeleted
      cases hother : db.torrent other with
      | none =>
        refine hlater time ?_
        show db.lastChange other = some time
        rw [lastChange, hother]
        exact hbefore
      | some previous =>
        refine lt_trans (h other previous time hother hbefore) (hlater _ ?_)
        show db.lastChange other = some previous.updatedAt
        rw [lastChange, hother]
  · rw [torrent_apply_of_ne hne] at htorrent
    rw [deletedAt_apply_of_ne hne] at hdeleted
    exact h infoHash torrent time htorrent hdeleted

end

/-! ## The queries -/

section

variable [LinearOrder Hash] [LinearOrder Id] {db : Database Hash Id Doc} {infoHash : Hash}
  {torrent : Torrent Hash Id Doc} {since until_ : Int}

lemma Keyed.torrent_eq (h : db.Keyed) (hmem : torrent ∈ db.torrents) :
    db.torrent torrent.infoHash = some torrent :=
  find?_of_nodup h.torrents hmem

omit [LinearOrder Hash] in
lemma Keyed.keys (h : db.Keyed) (p : Torrent Hash Id Doc → Bool) :
    ((db.torrents.filter p).map Torrent.key).Nodup := by
  have hsub : ((db.torrents.filter p).map (·.infoHash)).Nodup :=
    h.torrents.sublist (List.filter_sublist.map _)
  refine List.Nodup.of_map (fun key : Int ×ₗ Hash => (ofLex key).2) ?_
  rw [List.map_map]
  exact hsub

variable {limit : Nat}

omit [LinearOrder Id] in
/-- A key that is read is that of a torrent changed in the window. -/
lemma mem_streamChangedTorrentKeys {after : Option (Int ×ₗ Hash)} {key : Int ×ₗ Hash}
    (h : key ∈ db.streamChangedTorrentKeys since until_ after limit) :
    ∃ torrent ∈ db.torrents, torrent.key = key ∧ toTimestamp since < torrent.updatedAt := by
  obtain ⟨torrent, htorrent, hkey⟩ := List.mem_map.mp h
  obtain ⟨hmem, hwindow⟩ := List.mem_filter.mp (Keyset.mem_of_mem_page htorrent).1
  exact ⟨torrent, hmem, hkey, (of_decide_eq_true hwindow).1⟩

/-- A torrent changed in the window and behind the cursor is read, or is behind the page. -/
lemma Keyed.key_mem_or_behind (hdb : db.Keyed) (hmem : torrent ∈ db.torrents)
    (hsince : toTimestamp since < torrent.updatedAt)
    (huntil : torrent.updatedAt ≤ toTimestamp until_) {after : Option (Int ×ₗ Hash)}
    (hafter : Keyset.Behind after torrent.key) (hlimit : 1 ≤ limit) {page : List (Int ×ₗ Hash)}
    (hpage : db.streamChangedTorrentKeys since until_ after limit = page) :
    torrent.key ∈ page ∨ (page ≠ [] ∧ Keyset.Behind page.getLast? torrent.key) := by
  subst hpage
  have hrow : torrent ∈ db.torrents.filter fun torrent =>
      toTimestamp since < torrent.updatedAt ∧ torrent.updatedAt ≤ toTimestamp until_ :=
    List.mem_filter.mpr ⟨hmem, decide_eq_true ⟨hsince, huntil⟩⟩
  rcases Keyset.mem_page_or_behind (hdb.keys _) hlimit hrow hafter with hmem | ⟨hne, hbehind⟩
  · exact .inl (List.mem_map_of_mem hmem)
  · refine .inr ⟨mt List.map_eq_nil_iff.mp hne, ?_⟩
    rw [streamChangedTorrentKeys, List.getLast?_map]
    exact hbehind

omit [LinearOrder Hash] [LinearOrder Id] in
lemma mem_contentRows {torrents : List (Torrent Hash Id Doc)} {row : Hash × ContentRow Id Doc} :
    row ∈ contentRows torrents ↔
      ∃ torrent ∈ torrents, torrent.infoHash = row.1 ∧ row.2 ∈ torrent.contents := by
  rw [contentRows, List.mem_flatMap]
  constructor
  · rintro ⟨torrent, hmem, hrow⟩
    obtain ⟨content, hcontent, rfl⟩ := List.mem_map.mp hrow
    exact ⟨torrent, hmem, rfl, hcontent⟩
  · rintro ⟨torrent, hmem, hhash, hcontent⟩
    exact ⟨torrent, hmem, List.mem_map.mpr ⟨row.2, hcontent, by rw [hhash]⟩⟩

omit [LinearOrder Hash] in
lemma Keyed.rows [DecidableEq Hash] (hdb : db.Keyed) (infoHashes : List Hash) :
    ((contentRows (db.torrents.filter (·.infoHash ∈ infoHashes))).map (·.2.id)).Nodup :=
  hdb.contents.sublist (List.Sublist.map _ (List.Sublist.flatMap List.filter_sublist _))

/-- Behind the last page of rows there is nothing left of a torrent. -/
lemma Keyed.not_behind_of_no_rows (hdb : db.Keyed) (htorrent : db.torrent infoHash = some torrent)
    {infoHashes : List Hash} (hmem : infoHash ∈ infoHashes) {after : Option Id} (hlimit : 1 ≤ limit)
    (hrows : db.streamTorrentsForIndexInfoHashes infoHashes after limit = []) :
    ∀ row ∈ torrent.contents, ¬ Keyset.Behind after row.id := by
  intro row hrow hbehind
  obtain ⟨htorrents, rfl⟩ := torrent_eq_some htorrent
  have hcontent : (torrent.infoHash, row) ∈
      contentRows (db.torrents.filter (·.infoHash ∈ infoHashes)) :=
    mem_contentRows.mpr ⟨torrent, List.mem_filter.mpr ⟨htorrents, decide_eq_true hmem⟩, rfl, hrow⟩
  rcases Keyset.mem_page_or_behind (hdb.rows infoHashes) hlimit hcontent hbehind with
    hpage | ⟨hne, -⟩
  · exact absurd hrows (List.ne_nil_of_mem hpage)
  · exact hne hrows

/-- What a page of rows has of one torrent. -/
lemma Keyed.filter_rows (hdb : db.Keyed) (htorrent : db.torrent infoHash = some torrent)
    {infoHashes : List Hash} (hmem : infoHash ∈ infoHashes) {after : Option Id} (hlimit : 1 ≤ limit)
    {rows : List (Hash × ContentRow Id Doc)}
    (hrows : db.streamTorrentsForIndexInfoHashes infoHashes after limit = rows) :
    (rows.filter (·.1 = infoHash)).map (·.2) =
      torrent.contents.filter fun row => Keyset.Behind after row.id ∧
        ¬ Keyset.Behind (Keyset.next (·.2.id) rows) row.id := by
  subst hrows
  obtain ⟨htorrents, rfl⟩ := torrent_eq_some htorrent
  have hsorted : (torrent.contents.map (torrent.infoHash, ·)).Pairwise (·.2.id < ·.2.id) :=
    List.pairwise_map.mpr (hdb.sorted torrent htorrents)
  rw [streamTorrentsForIndexInfoHashes, Keyset.filter_page (hdb.rows infoHashes) hlimit hsorted,
    List.filter_map, List.map_map]
  · exact List.map_id' _
  · intro row
    rw [mem_contentRows, List.mem_map]
    constructor
    · rintro ⟨content, hcontent, rfl⟩
      exact ⟨⟨torrent, List.mem_filter.mpr ⟨htorrents, decide_eq_true hmem⟩, rfl, hcontent⟩,
        decide_eq_true rfl⟩
    · rintro ⟨⟨other, hother, hhash, hcontent⟩, hrow⟩
      have hsame : other = torrent := by
        refine List.inj_on_of_nodup_map hdb.torrents (List.mem_filter.mp hother).1 htorrents ?_
        exact hhash.trans (of_decide_eq_true hrow)
      subst hsame
      exact ⟨row.2, hcontent, by rw [hhash]⟩

lemma Keyed.deletedAt_eq (h : db.Keyed) {row : Hash × Int} (hrow : row ∈ db.deletedTorrents) :
    db.deletedAt row.1 = some row.2 := by
  rw [deletedAt, find?_of_nodup h.deleted hrow]
  rfl

/-- A hash that is read was deleted in the window. -/
lemma Keyed.mem_readDeletedTorrents (hdb : db.Keyed)
    (h : infoHash ∈ db.readDeletedTorrents since until_ limit) :
    ∃ time, db.deletedAt infoHash = some time ∧ toTimestamp since < time := by
  obtain ⟨row, hrow, rfl⟩ := List.mem_map.mp h
  have hfilter := List.mem_mergeSort.mp (List.mem_of_mem_take hrow)
  obtain ⟨hmem, hwindow⟩ := List.mem_filter.mp hfilter
  exact ⟨row.2, hdb.deletedAt_eq hmem, (of_decide_eq_true hwindow).1⟩

omit [LinearOrder Id] in
/-- A read that is not cut short has all that were deleted in the window. -/
lemma readDeletedTorrents_complete {time : Int}
    (hshort : (db.readDeletedTorrents since until_ limit).length < limit)
    (hdeleted : db.deletedAt infoHash = some time) (hsince : toTimestamp since < time)
    (huntil : time ≤ toTimestamp until_) :
    infoHash ∈ db.readDeletedTorrents since until_ limit := by
  obtain ⟨row, hfind, rfl⟩ := Option.map_eq_some_iff.mp hdeleted
  have hhash : row.1 = infoHash := by simpa using List.find?_some hfind
  have hmem := List.mem_of_find?_eq_some hfind
  unfold readDeletedTorrents at hshort ⊢
  rw [List.length_map, List.length_take] at hshort
  rw [List.take_of_length_le (by omega)]
  refine List.mem_map.mpr ⟨row, ?_, hhash⟩
  exact List.mem_mergeSort.mpr (List.mem_filter.mpr ⟨hmem, decide_eq_true ⟨hsince, huntil⟩⟩)

end

end Database

/-! ## The writer -/

section

variable [DecidableEq Hash] [DecidableEq Key] (docId : Doc → Key)

/-- What a list of operations does. -/
def runOps (ops : List (Op Hash Doc)) (index : Index Hash Doc) : Index Hash Doc :=
  ops.foldl (Op.run docId) index

variable {docId} {index : Index Hash Doc} {infoHash : Hash}

lemma run_of_ne {op : Op Hash Doc} (h : infoHash ≠ op.infoHash) :
    op.run docId index infoHash = index infoHash := by
  cases op with
  | delete other => exact Function.update_of_ne h ..
  | upsert other document => exact Function.update_of_ne h ..

lemma runOps_of_forall_ne {ops : List (Op Hash Doc)} (h : ∀ op ∈ ops, infoHash ≠ op.infoHash) :
    runOps docId ops index infoHash = index infoHash := by
  induction ops generalizing index with
  | nil => rfl
  | cons op ops ih =>
    rw [runOps, List.foldl_cons]
    exact (ih fun other hother => h other (List.mem_cons_of_mem _ hother)).trans
      (run_of_ne (h op (List.mem_cons_self ..)))

lemma runOps_append (ops ops' : List (Op Hash Doc)) :
    runOps docId (ops ++ ops') index = runOps docId ops' (runOps docId ops index) :=
  List.foldl_append

lemma runOps_upserts (documents : List Doc) :
    runOps docId (documents.map (.upsert infoHash)) index infoHash =
      documents.foldl (addDocument docId) (index infoHash) := by
  induction documents generalizing index with
  | nil => rfl
  | cons document documents ih =>
    rw [List.map_cons, runOps, List.foldl_cons]
    exact ih.trans (by rw [Op.run, Function.update_self]; rfl)

lemma runOps_deletes {infoHashes : List Hash} (h : infoHash ∈ infoHashes) :
    runOps docId (infoHashes.map .delete) index infoHash = [] := by
  induction infoHashes generalizing index with
  | nil => cases h
  | cons other infoHashes ih =>
    rw [List.map_cons, runOps, List.foldl_cons]
    by_cases hmem : infoHash ∈ infoHashes
    · exact ih hmem
    · have hsame : infoHash = other := (List.mem_cons.mp h).resolve_right hmem
      subst hsame
      refine (runOps_of_forall_ne ?_).trans (Function.update_self ..)
      intro op hop heq
      obtain ⟨deleted, hdeleted, rfl⟩ := List.mem_map.mp hop
      exact hmem (heq ▸ hdeleted)

end

section Replacements

variable [LinearOrder Hash] [DecidableEq Key] {docId : Doc → Key} {index : Index Hash Doc}
  {infoHash : Hash} {infoHashes : List Hash} {read : List (Hash × ContentRow Id Doc)}

/-- The operations for one torrent. -/
def block (read : List (Hash × ContentRow Id Doc)) (infoHash : Hash) : List (Op Hash Doc) :=
  .delete infoHash ::
    (read.filter (·.1 = infoHash)).map fun row => .upsert infoHash row.2.document

lemma infoHash_of_mem_block {op : Op Hash Doc} (h : op ∈ block read infoHash) :
    op.infoHash = infoHash := by
  rcases List.mem_cons.mp h with rfl | hop
  · rfl
  · obtain ⟨row, -, rfl⟩ := List.mem_map.mp hop
    rfl

lemma infoHash_mem_of_mem_replacementOps {op : Op Hash Doc}
    (h : op ∈ replacementOps infoHashes read) : op.infoHash ∈ infoHashes := by
  obtain ⟨other, hother, hop⟩ := List.mem_flatMap.mp h
  rw [infoHash_of_mem_block hop]
  exact (Distinct.mem_firsts.mp (List.mem_mergeSort.mp hother)).1

lemma runOps_block :
    runOps docId (block read infoHash) index infoHash =
      indexed docId ((read.filter (·.1 = infoHash)).map (·.2)) := by
  have hmap : ((read.filter (·.1 = infoHash)).map fun row =>
        Op.upsert infoHash row.2.document) =
      (((read.filter (·.1 = infoHash)).map (·.2)).map (·.document)).map (.upsert infoHash) := by
    rw [List.map_map, List.map_map]
    rfl
  rw [block, hmap, runOps, List.foldl_cons]
  refine (runOps_upserts _).trans ?_
  rw [Op.run, Function.update_self]
  rfl

/-- The replacements of a page leave each of its torrents with the documents read for it. -/
lemma runOps_replacementOps (h : infoHash ∈ infoHashes) :
    runOps docId (replacementOps infoHashes read) index infoHash =
      indexed docId ((read.filter (·.1 = infoHash)).map (·.2)) := by
  -- a block only concerns its own torrent, and the blocks are of different torrents
  have hblocks : ∀ {order : List Hash}, order.Nodup → infoHash ∈ order →
      ∀ {index : Index Hash Doc}, runOps docId (order.flatMap (block read)) index infoHash =
        indexed docId ((read.filter (·.1 = infoHash)).map (·.2)) := by
    intro order
    induction order with
    | nil =>
      intro _ hmem
      cases hmem
    | cons other order ih =>
      intro hnodup hmem index
      obtain ⟨-, horder⟩ := List.nodup_cons.mp hnodup
      rw [List.flatMap_cons, runOps_append]
      by_cases hin : infoHash ∈ order
      · exact ih horder hin
      · have hsame : infoHash = other := (List.mem_cons.mp hmem).resolve_right hin
        subst hsame
        rw [runOps_of_forall_ne, runOps_block]
        intro op hop heq
        obtain ⟨other, hother, hop⟩ := List.mem_flatMap.mp hop
        rw [heq, infoHash_of_mem_block hop] at hin
        exact hin hother
  refine hblocks ?_ (List.mem_mergeSort.mpr (Distinct.mem_firsts.mpr ⟨h, List.not_mem_nil⟩))
  exact (List.mergeSort_perm _ _).nodup_iff.mpr (Distinct.nodup_firsts ..)

end Replacements

/-! ## The invariant -/

section

variable [LinearOrder Hash] [DecidableEq Key] (docId : Doc → Key)

/-- The torrent has not changed since. -/
def Settled (db : Database Hash Id Doc) (watermark : Int) (infoHash : Hash) : Prop :=
  ∀ time ∈ db.lastChange infoHash, time ≤ toTimestamp watermark

/-- The index has the documents of the torrents that are settled. -/
def Tracks (db : Database Hash Id Doc) (watermark : Int) (index : Index Hash Doc) : Prop :=
  ∀ infoHash, Settled db watermark infoHash → index infoHash = db.documents docId infoHash

/-- Where a tick has come to with a torrent that changed in its window: the torrent is still
to be read, or `done`. -/
def Reached (db : Database Hash Id Doc) (window : FollowWindow) (upserted : List Hash)
    (toRead : Torrent Hash Id Doc → Prop) (done : Hash → Prop) : Prop :=
  ∀ infoHash, Settled db window.until_ infoHash →
    (infoHash ∈ upserted → (db.torrent infoHash).isSome) ∧
    ∀ torrent, db.torrent infoHash = some torrent → toTimestamp window.since < torrent.updatedAt →
      toRead torrent ∨ (infoHash ∈ upserted ∧ done infoHash)

/-- The index has the documents of the torrent, and the writer leaves them alone. -/
def Current (db : Database Hash Id Doc) (index writer : Index Hash Doc) (infoHash : Hash) : Prop :=
  index infoHash = db.documents docId infoHash ∧ writer infoHash = db.documents docId infoHash

/-- What holds where the loop waits, of a database and an index. -/
def PhaseOk [LinearOrder Id] (db : Database Hash Id Doc) (watermark : Int) :
    Phase Hash Id Doc → (index writer : Index Hash Doc) → Prop
  | .idle, _, _ => True
  | .keys window cursor upserted, index, writer =>
    Reached db window upserted (fun torrent => Keyset.Behind cursor torrent.key)
      (Current docId db index writer)
  | .rows window upserted page cursor read, index, writer =>
    Reached db window upserted (fun torrent => Keyset.Behind page.getLast? torrent.key)
      (fun infoHash => infoHash ∈ page.map (ofLex · |>.2) ∨
        Current docId db index writer infoHash) ∧
    ∀ infoHash ∈ page.map (ofLex · |>.2), ¬ Settled db watermark infoHash ∧
      (Settled db window.until_ infoHash → ∀ torrent, db.torrent infoHash = some torrent →
        (read.filter (·.1 = infoHash)).map (·.2) =
          torrent.contents.filter fun row => ¬ Keyset.Behind cursor row.id)
  | .batch ops next, _, writer =>
    (∀ op ∈ ops, ¬ Settled db watermark op.infoHash) ∧
      PhaseOk db watermark next (runOps docId ops writer) (runOps docId ops writer)
  | .deleted window upserted, index, writer =>
    Reached db window upserted (fun _ => False) (Current docId db index writer)
  | .store window, index, writer =>
    Tracks docId db window.until_ index ∧ Tracks docId db window.until_ writer

/-- The window of a tick. -/
def Phase.window? : Phase Hash Id Doc → Option FollowWindow
  | .idle => none
  | .keys window _ _ | .rows window _ _ _ _ | .deleted window _ | .store window => some window
  | .batch _ next => next.window?

/-- Windows one behind the other from one watermark to another. -/
def Contiguous : Int → List FollowWindow → Int → Prop
  | first, [], last => first = last
  | first, window :: windows, last =>
    window.since = first ∧ first < window.until_ ∧ Contiguous window.until_ windows last

/-- A time that is the configured lag ago. -/
def Lagged (config : FollowConfig) (clock epoch : Int) : Prop :=
  toTimestamp epoch + toTimestamp config.carveLagSecs ≤ clock

/-- The invariant of the loop. -/
structure Inv [LinearOrder Id] (config : FollowConfig) (first : Int) (s : State Hash Id Doc) : Prop where
  keyed : s.db.Keyed
  ordered : s.db.Ordered
  recorded : ∀ infoHash, ∀ time ∈ s.db.lastChange infoHash,
    ∃ change ∈ s.history, change.infoHash = infoHash ∧ change.time = time
  stored : s.watermark = s.watermarkFile
  nonneg : 0 ≤ s.watermark
  lagged : Lagged config s.clock s.watermark
  index : Tracks docId s.db s.watermark s.index
  writer : Tracks docId s.db s.watermark s.writer
  phase : PhaseOk docId s.db s.watermark s.phase s.index s.writer
  window : ∀ window ∈ s.phase.window?, window.since = s.watermark ∧
    s.watermark < window.until_ ∧ Lagged config s.clock window.until_
  contiguous : Contiguous first s.windows s.watermark

end

/-! ## Changes of the database -/

section

variable [LinearOrder Hash] [DecidableEq Key] {docId : Doc → Key} {db db' : Database Hash Id Doc}
  {watermark : Int} {index writer : Index Hash Doc}

/-- The second database differs from the first in torrents that are not settled in it. -/
structure Unsettles (db db' : Database Hash Id Doc) (watermark : Int) : Prop where
  lastChange : ∀ infoHash, Settled db' watermark infoHash →
    db'.lastChange infoHash = db.lastChange infoHash
  torrent : ∀ infoHash, Settled db' watermark infoHash →
    db'.torrent infoHash = db.torrent infoHash

lemma unsettles_apply {change : Change Hash Id Doc} (h : toTimestamp watermark < change.time) :
    Unsettles db (db.apply change) watermark := by
  have hne : ∀ infoHash, Settled (db.apply change) watermark infoHash →
      infoHash ≠ change.infoHash := by
    rintro infoHash hsettled rfl
    have := hsettled _ (Database.lastChange_apply db change)
    omega
  exact ⟨fun infoHash hsettled => Database.lastChange_apply_of_ne (hne infoHash hsettled),
    fun infoHash hsettled => Database.torrent_apply_of_ne (hne infoHash hsettled)⟩

variable {infoHash : Hash}

lemma Unsettles.settled (h : Unsettles db db' watermark)
    (hsettled : Settled db' watermark infoHash) : Settled db watermark infoHash := by
  unfold Settled
  rw [← h.lastChange infoHash hsettled]
  exact hsettled

lemma Unsettles.documents (h : Unsettles db db' watermark)
    (hsettled : Settled db' watermark infoHash) :
    db'.documents docId infoHash = db.documents docId infoHash := by
  rw [Database.documents, Database.documents, h.torrent infoHash hsettled]

lemma Tracks.unsettles (h : Unsettles db db' watermark) (htracks : Tracks docId db watermark index) :
    Tracks docId db' watermark index := fun infoHash hsettled => by
  rw [h.documents hsettled]
  exact htracks infoHash (h.settled hsettled)

lemma Reached.unsettles {window : FollowWindow} {upserted : List Hash}
    {toRead : Torrent Hash Id Doc → Prop} {done done' : Hash → Prop}
    (h : Unsettles db db' window.until_)
    (hdone : ∀ infoHash, Settled db' window.until_ infoHash → done infoHash → done' infoHash)
    (hreached : Reached db window upserted toRead done) :
    Reached db' window upserted toRead done' := by
  intro infoHash hsettled
  obtain ⟨hexists, hread⟩ := hreached infoHash (h.settled hsettled)
  rw [h.torrent infoHash hsettled]
  refine ⟨hexists, fun torrent htorrent hsince => ?_⟩
  exact (hread torrent htorrent hsince).imp_right (And.imp_right (hdone infoHash hsettled))

lemma Current.unsettles {window : FollowWindow} (h : Unsettles db db' window.until_)
    (hsettled : Settled db' window.until_ infoHash)
    (hcurrent : Current docId db index writer infoHash) :
    Current docId db' index writer infoHash := by
  rw [Current, h.documents hsettled]
  exact hcurrent

/-- What holds where the loop waits does not depend on changes behind its window. -/
lemma PhaseOk.unsettles [LinearOrder Id] {phase : Phase Hash Id Doc} (hwatermark : Unsettles db db' watermark)
    (hwindow : ∀ window ∈ phase.window?, Unsettles db db' window.until_)
    (h : PhaseOk docId db watermark phase index writer) :
    PhaseOk docId db' watermark phase index writer := by
  induction phase generalizing index writer with
  | idle => trivial
  | keys window cursor upserted =>
    have hw := hwindow window rfl
    exact Reached.unsettles hw (fun infoHash hsettled => Current.unsettles hw hsettled) h
  | rows window upserted page cursor read =>
    have hw := hwindow window rfl
    refine ⟨Reached.unsettles hw (fun infoHash hsettled =>
      Or.imp_right (Current.unsettles hw hsettled)) h.1, fun infoHash hmem => ?_⟩
    obtain ⟨hnot, hread⟩ := h.2 infoHash hmem
    refine ⟨fun hsettled => hnot (hwatermark.settled hsettled), fun hsettled torrent => ?_⟩
    rw [hw.torrent infoHash hsettled]
    exact hread (hw.settled hsettled) torrent
  | batch ops next ih =>
    exact ⟨fun op hop hsettled => h.1 op hop (hwatermark.settled hsettled), ih hwindow h.2⟩
  | deleted window upserted =>
    have hw := hwindow window rfl
    exact Reached.unsettles hw (fun infoHash hsettled => Current.unsettles hw hsettled) h
  | store window =>
    have hw := hwindow window rfl
    exact ⟨Tracks.unsettles hw h.1, Tracks.unsettles hw h.2⟩

end

/-! ## The operations of the loop -/

section

variable [LinearOrder Hash] [LinearOrder Id] [DecidableEq Key] {docId : Doc → Key}
  {db : Database Hash Id Doc} {window : FollowWindow} {upserted : List Hash} {limit : Nat}
  {index writer : Index Hash Doc} {infoHash : Hash} {torrent : Torrent Hash Id Doc}
  {cursor : Option Id} {read : List (Hash × ContentRow Id Doc)}

omit [LinearOrder Id] in
lemma lastChange_of_torrent (h : db.torrent infoHash = some torrent) :
    db.lastChange infoHash = some torrent.updatedAt := by
  rw [Database.lastChange, h]

omit [LinearOrder Id] in
lemma updatedAt_le {watermark : Int} (hsettled : Settled db watermark infoHash)
    (h : db.torrent infoHash = some torrent) : torrent.updatedAt ≤ toTimestamp watermark :=
  hsettled _ (lastChange_of_torrent h)

/-- Behind the last page of keys there is nothing left to read. -/
lemma phaseOk_lastKeys (hdb : db.Keyed) (hlimit : 1 ≤ limit) {cursor : Option (Int ×ₗ Hash)}
    (hpage : db.streamChangedTorrentKeys window.since window.until_ cursor limit = [])
    (h : PhaseOk docId db window.since (.keys window cursor upserted) index writer) :
    PhaseOk docId db window.since (.deleted window upserted) index writer := by
  intro infoHash hsettled
  obtain ⟨hexists, hread⟩ := h infoHash hsettled
  refine ⟨hexists, fun torrent htorrent hsince => ?_⟩
  refine .inr ((hread torrent htorrent hsince).resolve_left fun hbehind => ?_)
  have hmem := (Database.torrent_eq_some htorrent).1
  rcases hdb.key_mem_or_behind hmem hsince (updatedAt_le hsettled htorrent) hbehind hlimit hpage
    with hkey | ⟨hne, -⟩
  · cases hkey
  · exact hne rfl

variable {page : List (Int ×ₗ Hash)}

/-- A page of keys has what was to be read up to its last key. -/
lemma phaseOk_keys (hdb : db.Keyed) (hlimit : 1 ≤ limit) {cursor : Option (Int ×ₗ Hash)}
    (hpage : db.streamChangedTorrentKeys window.since window.until_ cursor limit = page)
    (h : PhaseOk docId db window.since (.keys window cursor upserted) index writer) :
    PhaseOk docId db window.since
      (.rows window (upserted ++ page.map (ofLex · |>.2)) page none []) index writer := by
  have hfound : ∀ infoHash ∈ page.map (ofLex · |>.2), ∃ torrent, db.torrent infoHash = some torrent ∧
      toTimestamp window.since < torrent.updatedAt := by
    intro infoHash hmem
    obtain ⟨key, hkey, rfl⟩ := List.mem_map.mp hmem
    obtain ⟨torrent, htorrent, rfl, hsince⟩ := Database.mem_streamChangedTorrentKeys (hpage ▸ hkey)
    exact ⟨torrent, hdb.torrent_eq htorrent, hsince⟩
  refine ⟨fun infoHash hsettled => ?_, fun infoHash hmem => ?_⟩
  · obtain ⟨hexists, hread⟩ := h infoHash hsettled
    refine ⟨fun hupserted => ?_, fun torrent htorrent hsince => ?_⟩
    · rcases List.mem_append.mp hupserted with hbefore | hnow
      · exact hexists hbefore
      · obtain ⟨torrent, htorrent, -⟩ := hfound infoHash hnow
        rw [htorrent]
        rfl
    · rcases hread torrent htorrent hsince with hbehind | ⟨hbefore, hcurrent⟩
      · obtain ⟨hmem, rfl⟩ := Database.torrent_eq_some htorrent
        rcases hdb.key_mem_or_behind hmem hsince (updatedAt_le hsettled htorrent) hbehind
          hlimit hpage with hkey | ⟨-, hnext⟩
        · have hnow := List.mem_map_of_mem (f := fun key : Int ×ₗ Hash => (ofLex key).2) hkey
          exact .inr ⟨List.mem_append_right _ hnow, .inl hnow⟩
        · exact .inl hnext
      · exact .inr ⟨List.mem_append_left _ hbefore, .inr hcurrent⟩
  · obtain ⟨torrent, htorrent, hsince⟩ := hfound infoHash hmem
    refine ⟨fun hsettled => ?_, fun _ torrent _ => ?_⟩
    · have := updatedAt_le hsettled htorrent
      omega
    · exact (List.filter_eq_nil_iff.mpr fun row _ => by simp).symm

/-- With a page of rows more is read of every torrent of the page of keys. -/
lemma phaseOk_rows (hdb : db.Keyed) (hlimit : 1 ≤ limit) {rows : List (Hash × ContentRow Id Doc)}
    (hrows : db.streamTorrentsForIndexInfoHashes (page.map (ofLex · |>.2)) cursor limit = rows)
    (hne : rows ≠ [])
    (h : PhaseOk docId db window.since (.rows window upserted page cursor read) index writer) :
    PhaseOk docId db window.since
      (.rows window upserted page (Keyset.next (·.2.id) rows) (read ++ rows)) index writer := by
  refine ⟨h.1, fun infoHash hmem => ⟨(h.2 infoHash hmem).1, fun hsettled torrent htorrent => ?_⟩⟩
  have hsorted := hdb.sorted torrent (Database.torrent_eq_some htorrent).1
  rw [List.filter_append, List.map_append, (h.2 infoHash hmem).2 hsettled torrent htorrent,
    hdb.filter_rows htorrent hmem hlimit hrows]
  subst hrows
  exact Keyset.filter_append_filter hsorted fun id => Keyset.not_behind_next hne

/-- Behind the last page of rows all is read. -/
lemma indexed_read (hdb : db.Keyed) (hlimit : 1 ≤ limit) {infoHashes : List Hash}
    (hrows : db.streamTorrentsForIndexInfoHashes infoHashes cursor limit = [])
    (hmem : infoHash ∈ infoHashes) (htorrent : db.torrent infoHash = some torrent)
    (hread : (read.filter (·.1 = infoHash)).map (·.2) =
      torrent.contents.filter fun row => ¬ Keyset.Behind cursor row.id) :
    indexed docId ((read.filter (·.1 = infoHash)).map (·.2)) = db.documents docId infoHash := by
  have hall : torrent.contents.filter (fun row => ¬ Keyset.Behind cursor row.id) =
      torrent.contents := List.filter_eq_self.mpr fun row hrow =>
    decide_eq_true (hdb.not_behind_of_no_rows htorrent hmem hlimit hrows row hrow)
  rw [hread, hall, Database.documents, htorrent]

/-- The batch of a page of keys brings its torrents up to date. -/
lemma phaseOk_lastRows (hdb : db.Keyed) (hlimit : 1 ≤ limit)
    (hrows : db.streamTorrentsForIndexInfoHashes (page.map (ofLex · |>.2)) cursor limit = [])
    (h : PhaseOk docId db window.since (.rows window upserted page cursor read) index writer) :
    PhaseOk docId db window.since
      (.batch (replacementOps (page.map (ofLex · |>.2)) read)
        (.keys window page.getLast? upserted)) index writer := by
  refine ⟨fun op hop => (h.2 _ (infoHash_mem_of_mem_replacementOps hop)).1, ?_⟩
  intro infoHash hsettled
  obtain ⟨hexists, hread⟩ := h.1 infoHash hsettled
  refine ⟨hexists, fun torrent htorrent hsince => ?_⟩
  refine (hread torrent htorrent hsince).imp_right fun ⟨hupserted, hdone⟩ => ⟨hupserted, ?_⟩
  suffices hdocuments : runOps docId (replacementOps (page.map (ofLex · |>.2)) read) writer
      infoHash = db.documents docId infoHash from ⟨hdocuments, hdocuments⟩
  by_cases hmem : infoHash ∈ page.map (ofLex · |>.2)
  · rw [runOps_replacementOps hmem]
    exact indexed_read hdb hlimit hrows hmem htorrent
      ((h.2 infoHash hmem).2 hsettled torrent htorrent)
  · refine (runOps_of_forall_ne fun op hop heq => hmem ?_).trans (hdone.resolve_left hmem).2
    rw [heq]
    exact infoHash_mem_of_mem_replacementOps hop

omit [LinearOrder Id] in
lemma lt_of_not_settled {watermark time : Int} (hlast : db.lastChange infoHash = some time)
    (h : ¬ Settled db watermark infoHash) : toTimestamp watermark < time := by
  by_contra hle
  refine h fun time' htime => ?_
  rw [hlast] at htime
  cases htime
  omega

variable {found : List Hash}
  (hfound : db.readDeletedTorrents window.since window.until_ limit = found)

include hfound

omit [LinearOrder Id] in
/-- Once all changed torrents are read and no live tombstone has the torrent, it is up to
date. -/
lemma documents_of_not_live (hindex : Tracks docId db window.since index) {done : Hash → Prop}
    (hdone : ∀ infoHash, done infoHash → index infoHash = db.documents docId infoHash)
    (h : Reached db window upserted (fun _ => False) done)
    (hshort : found.length < limit) (hsettled : Settled db window.until_ infoHash)
    (hlive : infoHash ∉ liveTombstones found upserted) :
    index infoHash = db.documents docId infoHash := by
  obtain ⟨hexists, hread⟩ := h infoHash hsettled
  by_cases hsince : Settled db window.since infoHash
  · exact hindex infoHash hsince
  · cases htorrent : db.torrent infoHash with
    | some torrent =>
      have hlater := lt_of_not_settled (lastChange_of_torrent htorrent) hsince
      exact hdone infoHash ((hread torrent htorrent hlater).resolve_left id).2
    | none =>
      have hlast : db.lastChange infoHash = db.deletedAt infoHash := by
        rw [Database.lastChange, htorrent]
      cases hdeleted : db.deletedAt infoHash with
      | none =>
        refine absurd (fun time htime => ?_) hsince
        rw [hlast, hdeleted] at htime
        cases htime
      | some time =>
        refine absurd ?_ hlive
        have hlast := hlast.trans hdeleted
        subst hfound
        refine List.mem_filter.mpr ⟨Database.readDeletedTorrents_complete hshort hdeleted
          (lt_of_not_settled hlast hsince) (hsettled time hlast),
          decide_eq_true fun hupserted => ?_⟩
        have := hexists hupserted
        rw [htorrent] at this
        cases this

/-- A torrent with a live tombstone changed in the window. -/
lemma not_settled_of_live (hdb : db.Keyed) (hordered : db.Ordered)
    (hlive : infoHash ∈ liveTombstones found upserted) : ¬ Settled db window.since infoHash := by
  subst hfound
  obtain ⟨time, hdeleted, hsince⟩ := hdb.mem_readDeletedTorrents (List.mem_filter.mp hlive).1
  intro hsettled
  cases htorrent : db.torrent infoHash with
  | none =>
    have := hsettled time (by rw [Database.lastChange, htorrent]; exact hdeleted)
    omega
  | some torrent =>
    have := updatedAt_le hsettled htorrent
    have := hordered infoHash torrent time htorrent hdeleted
    omega

/-- A settled torrent with a live tombstone is gone. -/
lemma torrent_eq_none_of_live (hdb : db.Keyed) (hordered : db.Ordered) {done : Hash → Prop}
    (h : Reached db window upserted (fun _ => False) done)
    (hsettled : Settled db window.until_ infoHash)
    (hlive : infoHash ∈ liveTombstones found upserted) : db.torrent infoHash = none := by
  subst hfound
  obtain ⟨hread, hnot⟩ := List.mem_filter.mp hlive
  obtain ⟨time, hdeleted, hsince⟩ := hdb.mem_readDeletedTorrents hread
  cases htorrent : db.torrent infoHash with
  | none => rfl
  | some torrent =>
    have hlater := hordered infoHash torrent time htorrent hdeleted
    have hdone := (h infoHash hsettled).2 torrent htorrent (by omega)
    exact absurd (hdone.resolve_left id).1 (of_decide_eq_true hnot)

/-- The tombstones complete the window. -/
lemma phaseOk_deleted (hdb : db.Keyed) (hordered : db.Ordered)
    (hshort : found.length < limit) (hwriter : Tracks docId db window.since writer)
    (h : PhaseOk docId db window.since (.deleted window upserted) index writer) :
    PhaseOk docId db window.since
      (.batch ((liveTombstones found upserted).map .delete) (.store window)) index writer := by
  have htracks : Tracks docId db window.until_
      (runOps docId ((liveTombstones found upserted).map .delete) writer) := by
    intro infoHash hsettled
    by_cases hlive : infoHash ∈ liveTombstones found upserted
    · rw [runOps_deletes hlive, Database.documents,
        torrent_eq_none_of_live hfound hdb hordered h hsettled hlive]
    · refine (runOps_of_forall_ne fun op hop heq => hlive ?_).trans (documents_of_not_live hfound
        hwriter (fun _ hcurrent => hcurrent.2) h hshort hsettled hlive)
      obtain ⟨deleted, hdeleted, rfl⟩ := List.mem_map.mp hop
      rw [heq]
      exact hdeleted
  refine ⟨fun op hop => ?_, htracks, htracks⟩
  obtain ⟨deleted, hdeleted, rfl⟩ := List.mem_map.mp hop
  exact not_settled_of_live hfound hdb hordered hdeleted

/-- Without live tombstones the window is complete as it is. -/
lemma phaseOk_noTombstones (hshort : found.length < limit)
    (hlive : liveTombstones found upserted = [])
    (hindex : Tracks docId db window.since index) (hwriter : Tracks docId db window.since writer)
    (h : PhaseOk docId db window.since (.deleted window upserted) index writer) :
    PhaseOk docId db window.since (.store window) index writer := by
  have hnot : ∀ infoHash, infoHash ∉ liveTombstones found upserted := by
    intro infoHash hmem
    rw [hlive] at hmem
    cases hmem
  exact ⟨fun infoHash hsettled => documents_of_not_live hfound hindex
      (fun _ hcurrent => hcurrent.1) h hshort hsettled (hnot infoHash),
    fun infoHash hsettled => documents_of_not_live hfound hwriter
      (fun _ hcurrent => hcurrent.2) h hshort hsettled (hnot infoHash)⟩

end

/-! ## The loop as a whole -/

section

variable [LinearOrder Hash] [LinearOrder Id] [DecidableEq Key] {docId : Doc → Key}
  {config : FollowConfig} {first : Int} {s s' : State Hash Id Doc}

/-- What the loop needs of its configuration: pages are not empty, and there is room for one
more tombstone than the limit. -/
structure FollowConfig.Sane (config : FollowConfig) : Prop where
  lag : 0 ≤ config.carveLagSecs
  batch : 1 ≤ config.batchSize
  deleted : 1 ≤ config.deletedLimit ∧ config.deletedLimit < 2 ^ 63 - 1

variable {phase : Phase Hash Id Doc}

lemma Inv.withPhase (h : Inv docId config first s)
    (hphase : PhaseOk docId s.db s.watermark phase s.index s.writer)
    (hwindow : ∀ window ∈ phase.window?, window.since = s.watermark ∧
      s.watermark < window.until_ ∧ Lagged config s.clock window.until_) :
    Inv docId config first { s with phase } :=
  { h with phase := hphase, window := hwindow }

variable {window : FollowWindow}

lemma contiguous_append {last : Int} {windows : List FollowWindow}
    (h : Contiguous first windows last) (hsince : window.since = last)
    (huntil : last < window.until_) : Contiguous first (windows ++ [window]) window.until_ := by
  induction windows generalizing first with
  | nil =>
    have hfirst : first = last := h
    exact ⟨hsince.trans hfirst.symm, hfirst ▸ huntil, rfl⟩
  | cons other windows ih => exact ⟨h.1, h.2.1, ih h.2.2⟩

/-- The window of a tick does not change. -/
lemma Inv.next (h : Inv docId config first s) (hwindow : s.phase.window? = some window)
    (hsame : phase.window? = some window)
    (hphase : PhaseOk docId s.db window.since phase s.index s.writer) :
    Inv docId config first { s with phase } := by
  have hw := h.window window hwindow
  refine h.withPhase (hw.1 ▸ hphase) fun other hother => ?_
  rw [hsame] at hother
  cases hother
  exact hw

lemma Inv.phaseOk (h : Inv docId config first s) (hphase : s.phase = phase)
    (hsome : phase.window? = some window) :
    s.phase.window? = some window ∧ s.watermark = window.since ∧
      PhaseOk docId s.db window.since phase s.index s.writer := by
  subst hphase
  have hwatermark := (h.window window hsome).1.symm
  exact ⟨hsome, hwatermark, hwatermark ▸ h.phase⟩

lemma Inv.proceed (hconfig : config.Sane) (h : Inv docId config first s) :
    Inv docId config first (proceed docId config s) := by
  have hbatch : 1 ≤ config.batchSize.toNat := by
    have := hconfig.batch
    omega
  have hphaseOk := h.phase
  have hindex := h.index
  have hwriter := h.writer
  unfold SearchIndex.proceed
  cases hphase : s.phase with
  | idle => exact h
  | keys window cursor upserted =>
    obtain ⟨hsome, -, hphaseOk⟩ := h.phaseOk hphase rfl
    dsimp only
    split
    · rename_i hpage
      exact h.next hsome rfl (phaseOk_lastKeys h.keyed hbatch hpage hphaseOk)
    · exact h.next hsome rfl (phaseOk_keys h.keyed hbatch rfl hphaseOk)
  | rows window upserted page cursor read =>
    obtain ⟨hsome, -, hphaseOk⟩ := h.phaseOk hphase rfl
    dsimp only
    split
    · rename_i hrows
      exact h.next hsome rfl (phaseOk_lastRows h.keyed hbatch hrows hphaseOk)
    · rename_i hrows
      exact h.next hsome rfl (phaseOk_rows h.keyed hbatch rfl hrows hphaseOk)
  | batch ops next =>
    rw [hphase] at hphaseOk
    cases ops with
    | nil =>
      exact { h with
        index := hwriter
        phase := hphaseOk.2
        window := fun window hsome => h.window window (by rw [hphase]; exact hsome) }
    | cons op ops =>
      refine { h with
        writer := fun infoHash hsettled => ?_
        phase := ⟨fun other hother => hphaseOk.1 other (List.mem_cons_of_mem _ hother), hphaseOk.2⟩
        window := fun window hsome => h.window window (by rw [hphase]; exact hsome) }
      refine (run_of_ne ?_).trans (hwriter infoHash hsettled)
      rintro rfl
      exact hphaseOk.1 op (List.mem_cons_self ..) hsettled
  | deleted window upserted =>
    obtain ⟨hsome, hsince, hphaseOk⟩ := h.phaseOk hphase rfl
    rw [hsince] at hindex hwriter
    dsimp only
    split
    · exact h.withPhase trivial fun window hnone => by cases hnone
    · rename_i hfull
      have hshort : (s.db.readDeletedTorrents window.since window.until_
          (deletedReadLimitWithSentinel config.deletedLimit).toNat).length <
            (deletedReadLimitWithSentinel config.deletedLimit).toNat := by
        have hlimit := hconfig.deleted
        have hsentinel : (deletedReadLimitWithSentinel config.deletedLimit).toNat =
            config.deletedLimit.toNat + 1 := by
          unfold deletedReadLimitWithSentinel satAdd
          omega
        simp only [deletedReadTruncated, decide_eq_true_eq, not_and, not_lt, gt_iff_lt] at hfull
        have := hfull (by omega)
        omega
      split
      · rename_i hlive
        exact h.next hsome rfl (phaseOk_noTombstones rfl hshort hlive hindex hwriter hphaseOk)
      · exact h.next hsome rfl (phaseOk_deleted rfl h.keyed h.ordered hshort hwriter hphaseOk)
  | store window =>
    obtain ⟨hsome, -, hphaseOk⟩ := h.phaseOk hphase rfl
    obtain ⟨hsince, huntil, hlagged⟩ := h.window window hsome
    have hnonneg := h.nonneg
    exact { h with
      stored := rfl
      nonneg := by show 0 ≤ window.until_; omega
      lagged := hlagged
      index := hphaseOk.1
      writer := hphaseOk.2
      phase := trivial
      window := fun window hnone => by cases hnone
      contiguous := contiguous_append h.contiguous hsince huntil }

/-- A change that becomes visible is behind every window that the loop has or had. -/
lemma Inv.change {change : Change Hash Id Doc} (h : Inv docId config first s)
    (hadmits : Admits config s change) :
    Inv docId config first
      { s with db := s.db.apply change, history := s.history ++ [change] } := by
  obtain ⟨hvisible, hlater, hkeyed, -⟩ := hadmits
  have hbehind : ∀ {epoch}, Lagged config s.clock epoch → toTimestamp epoch < change.time := by
    intro epoch hlagged
    unfold Lagged at hlagged
    omega
  have hwatermark : Unsettles s.db (s.db.apply change) s.watermark :=
    unsettles_apply (hbehind h.lagged)
  refine { h with
    keyed := hkeyed
    ordered := h.ordered.apply hlater
    recorded := fun infoHash time htime => ?_
    index := Tracks.unsettles hwatermark h.index
    writer := Tracks.unsettles hwatermark h.writer
    phase := PhaseOk.unsettles hwatermark
      (fun window hsome => unsettles_apply (hbehind (h.window window hsome).2.2)) h.phase }
  by_cases hsame : infoHash = change.infoHash
  · subst hsame
    have hlast : (s.db.apply change).lastChange change.infoHash = some time := htime
    rw [Database.lastChange_apply] at hlast
    exact ⟨change, List.mem_append_right _ (List.mem_singleton_self _), rfl, Option.some.inj hlast⟩
  · have hlast : (s.db.apply change).lastChange infoHash = some time := htime
    rw [Database.lastChange_apply_of_ne hsame] at hlast
    obtain ⟨earlier, hearlier, hchange⟩ := h.recorded infoHash time hlast
    exact ⟨earlier, List.mem_append_left _ hearlier, hchange⟩

/-- A window ends the configured lag ago. -/
lemma carveWindowWithMax_eq_some {watermark clock : Int} (hlag : 0 ≤ config.carveLagSecs)
    (hnonneg : 0 ≤ watermark)
    (h : carveWindowWithMax watermark (clock / 1000000) config.carveLagSecs config.maxWindowSecs =
      some window) :
    window.since = watermark ∧ watermark < window.until_ ∧ Lagged config clock window.until_ := by
  unfold carveWindowWithMax at h
  dsimp only at h
  split at h
  · rename_i hlater
    cases h
    refine ⟨rfl, hlater, ?_⟩
    show min (laggedUntil (clock / 1000000) config.carveLagSecs)
      (satAdd watermark (max config.maxWindowSecs 1)) * 1000000 +
        config.carveLagSecs * 1000000 ≤ clock
    unfold laggedUntil at *
    omega
  · cases h

/-- **Every event keeps the invariant.** -/
lemma Inv.step (hconfig : config.Sane) {event : Event Hash Id Doc} {o : Unit}
    (h : Inv docId config first s) (hstep : step docId config s event = some (o, s')) :
    Inv docId config first s' := by
  cases event with
  | change change =>
    dsimp only [SearchIndex.step] at hstep
    split at hstep
    · rename_i hadmits
      cases hstep
      exact h.change hadmits
    · cases hstep
  | wait micros =>
    cases hstep
    have hclock : ∀ {epoch}, Lagged config s.clock epoch →
        Lagged config (s.clock + micros) epoch := by
      intro epoch hlagged
      unfold Lagged at *
      omega
    exact { h with
      lagged := hclock h.lagged
      window := fun window hsome =>
        ⟨(h.window window hsome).1, (h.window window hsome).2.1,
          hclock (h.window window hsome).2.2⟩ }
  | tick =>
    unfold SearchIndex.step at hstep
    dsimp only at hstep
    split at hstep
    · split at hstep
      · cases hstep
        exact h
      · rename_i window hcarve
        cases hstep
        refine h.withPhase (fun infoHash hsettled => ?_) fun other hsome => ?_
        · exact ⟨fun hmem => absurd hmem List.not_mem_nil,
            fun torrent _ _ => .inl (Keyset.behind_none _)⟩
        · cases hsome
          exact carveWindowWithMax_eq_some hconfig.lag h.nonneg hcarve
    · cases hstep
  | proceed =>
    cases hstep
    exact h.proceed hconfig
  | fail =>
    cases hstep
    exact h.withPhase trivial fun window hnone => by cases hnone
  | restart =>
    cases hstep
    rw [← h.stored]
    exact { h with
      stored := rfl
      writer := h.index
      phase := trivial
      window := fun window hnone => by cases hnone }

lemma Contiguous.covers {last : Int} {windows : List FollowWindow}
    (h : Contiguous first windows last) {time : Int} (hfirst : toTimestamp first < time)
    (hlast : time ≤ toTimestamp last) :
    ∃ window ∈ windows, toTimestamp window.since < time ∧ time ≤ toTimestamp window.until_ := by
  induction windows generalizing first with
  | nil =>
    have hsame : first = last := h
    subst hsame
    omega
  | cons window windows ih =>
    obtain ⟨hsince, -, hrest⟩ := h
    by_cases huntil : time ≤ toTimestamp window.until_
    · exact ⟨window, List.mem_cons_self .., hsince ▸ hfirst, huntil⟩
    · obtain ⟨other, hother, hcovers⟩ := ih hrest (by omega)
      exact ⟨other, List.mem_cons_of_mem _ hother, hcovers⟩

lemma FollowConfig.sane_normalized (config : FollowConfig)
    (h : config.deletedLimit < 2 ^ 63 - 1) : config.normalized.Sane where
  lag := Int.le_trans (by decide) (Int.le_max_right ..)
  batch := Int.le_max_right ..
  deleted := ⟨Int.le_max_right .., by show max config.deletedLimit 1 < _; omega⟩

/-- A loop that is about to start: the index has the documents of the torrents that have not
changed since the watermark, as after a backfill or with an empty database. -/
structure Starts (docId : Doc → Key) (config : FollowConfig) (s : State Hash Id Doc) : Prop where
  phase : s.phase = .idle
  windows : s.windows = []
  keyed : s.db.Keyed
  ordered : s.db.Ordered
  recorded : ∀ infoHash, ∀ time ∈ s.db.lastChange infoHash,
    ∃ change ∈ s.history, change.infoHash = infoHash ∧ change.time = time
  stored : s.watermark = s.watermarkFile
  nonneg : 0 ≤ s.watermark
  lagged : Lagged config s.clock s.watermark
  committed : s.writer = s.index
  index : Tracks docId s.db s.watermark s.index

lemma Starts.inv (h : Starts docId config s) : Inv docId config s.watermarkFile s where
  keyed := h.keyed
  ordered := h.ordered
  recorded := h.recorded
  stored := h.stored
  nonneg := h.nonneg
  lagged := h.lagged
  index := h.index
  writer := h.committed ▸ h.index
  phase := by
    rw [h.phase]
    trivial
  window := fun window hsome => by
    rw [h.phase] at hsome
    cases hsome
  contiguous := by
    rw [h.windows]
    exact h.stored.symm

/-- **The index follows the database.**  However the changes, the operations of the loop and
its failures interleave, the windows that were completed are one behind the other and leave
out no instant, and the documents of a torrent whose changes are all at or before the stored
watermark are those of its current row, or none if it was deleted. -/
theorem follow_converges (docId : Doc → Key) (config : FollowConfig)
    (hlimit : config.deletedLimit < 2 ^ 63 - 1) (s₀ : State Hash Id Doc)
    (hstart : Starts docId config.normalized s₀) (events : List (Event Hash Id Doc))
    (os : List Unit) (s : State Hash Id Doc)
    (hrun : Machine.run (step docId config.normalized) s₀ events = some (os, s)) :
    Contiguous s₀.watermarkFile s.windows s.watermarkFile ∧
    (∀ time, toTimestamp s₀.watermarkFile < time → time ≤ toTimestamp s.watermarkFile →
      ∃ window ∈ s.windows, toTimestamp window.since < time ∧
        time ≤ toTimestamp window.until_) ∧
    ∀ infoHash, (∀ change ∈ s.history, change.infoHash = infoHash →
        change.time ≤ toTimestamp s.watermarkFile) →
      s.index infoHash = s.db.documents docId infoHash := by
  have hinv : Inv docId config.normalized s₀.watermarkFile s :=
    Machine.invariant_run
      (fun hinv hstep => hinv.step (config.sane_normalized hlimit) hstep) events hstart.inv hrun
  have hcontiguous := hinv.contiguous
  rw [hinv.stored] at hcontiguous
  refine ⟨hcontiguous, fun time hfirst hlast => hcontiguous.covers hfirst hlast,
    fun infoHash hchanges => ?_⟩
  refine hinv.index infoHash fun time htime => ?_
  obtain ⟨change, hchange, hhash, rfl⟩ := hinv.recorded infoHash time htime
  rw [hinv.stored]
  exact hchanges change hchange hhash

end

/-! ## A run -/

/-- A loop with nothing to follow yet. -/
def emptyState : State Nat Nat Nat :=
  { db := {}, clock := 100000000, index := fun _ => [], writer := fun _ => [], watermarkFile := 10,
    watermark := 10 }

lemma emptyState_starts : Starts id (FollowConfig.normalized {}) emptyState where
  phase := rfl
  windows := rfl
  keyed := by decide
  ordered := fun _ _ _ h => by cases h
  recorded := fun _ _ h => by cases h
  stored := rfl
  nonneg := by decide
  lagged := by unfold Lagged; decide
  committed := rfl
  index := fun _ _ => rfl

/-- A torrent is inserted; the first tick over it fails when its documents are committed, the
second one is cut off by a restart in the middle of its batch, and the third one is done. -/
def failingRun : List (Event Nat Nat Nat) :=
  [.change (.upsert 1 99000000 [⟨5, 50⟩]), .wait 60000000,
    .tick, .proceed, .proceed, .proceed, .proceed, .proceed, .fail,
    .tick, .proceed, .proceed, .proceed, .proceed, .restart,
    .tick, .proceed, .proceed, .proceed, .proceed, .proceed, .proceed, .proceed, .proceed, .proceed]

theorem follow_converges_failingRun :
    ∃ os s, Machine.run (step id (FollowConfig.normalized {})) emptyState failingRun =
        some (os, s) ∧ s.watermarkFile = 130 ∧ Contiguous 10 s.windows 130 ∧
      s.index 1 = s.db.documents id 1 ∧ s.db.documents id 1 = [50] := by
  have hrun : (Machine.run (step id (FollowConfig.normalized {})) emptyState failingRun).map
      (fun p => (p.2.watermarkFile, p.2.history.map fun change => (change.infoHash, change.time),
        p.2.db.documents id 1)) =
      some (130, [(1, 99000000)], [50]) := by decide +kernel
  obtain ⟨⟨os, s⟩, hs, heq⟩ := Option.map_eq_some_iff.mp hrun
  rw [Prod.mk.injEq, Prod.mk.injEq] at heq
  obtain ⟨hwatermark, hhistory, hdocuments⟩ := heq
  obtain ⟨hcontiguous, -, hindex⟩ := follow_converges id {} (by decide) emptyState
    emptyState_starts failingRun os s hs
  refine ⟨os, s, hs, hwatermark, hwatermark ▸ hcontiguous, hindex 1 fun change hchange _ => ?_,
    hdocuments⟩
  have hmem := List.mem_map_of_mem (f := fun change : Change Nat Nat Nat =>
    (change.infoHash, change.time)) hchange
  rw [hhistory, List.mem_singleton, Prod.mk.injEq] at hmem
  rw [hmem.2, hwatermark]
  decide

end Bitmagnet.SearchIndex
