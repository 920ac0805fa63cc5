import Bitmagnet.Parquet.Maintenance

/-!
# Manifest safety under concurrent maintenance

Operations work on manifests they read some time ago.  What makes that sound is
that a manifest's `mver` identifies it: `Snapshot l m` says that `m` was on disk,
and that a manifest with its `mver` on disk now is `m` itself.  A compare-and-swap
that succeeds has therefore been computed from the manifest it replaces.

The retry of a merge-base is the one write that is computed from a manifest other
than the one its base was merged from.  It keeps the segments it did not merge;
what it does not look at is the base that it replaces.  If another merge-base has
meanwhile published one that reaches further and left no segments,
`merge_base_retry_manifest` puts the older base back, and what lies between the
two cuts is under no base and in no segment (`merge_base_retry_uncovers`).
`Event.KeepsBase` excludes exactly that, and under it every run is safe
(`run_safe_of_keepsBase`).
-/

namespace Bitmagnet.Parquet

/-! ## Snapshots -/

/-- `m` was read from the disk of `l` at some time. -/
structure Snapshot (l : Layout) (m : Manifest) : Prop where
  valid : m.Valid
  dirs : ∀ s ∈ m.segments, s ∈ l.segmentDirs
  older : ∃ d, l.disk = some d ∧ m.mver ≤ d.mver ∧ (d.mver = m.mver → d = m)

/-- A layout whose manifest is valid, lists existing directories and covers every
sealed window. -/
structure Layout.Ok (l : Layout) : Prop where
  valid : ∀ m, l.disk = some m → m.Valid
  dirs : ∀ m, l.disk = some m → ∀ s ∈ m.segments, s ∈ l.segmentDirs
  distinct : ∀ a ∈ l.segmentDirs, ∀ b ∈ l.segmentDirs, a.version = b.version → a = b
  covered : ∀ w ∈ l.sealed, ∃ m, l.disk = some m ∧ w.toCut ≤ m.cut

/-- What a write of the manifest must keep: it is valid, its `mver` is the next
one, and neither cut moves back. -/
def WriteOk (old new : Option Manifest) : Prop :=
  new = old ∨ ∃ m', new = some m' ∧ m'.Valid ∧ m'.mver = (old.map Manifest.mver).getD 0 + 1 ∧
    ∀ m, old = some m → m.base.cut ≤ m'.base.cut ∧ m.cut ≤ m'.cut

variable {l l' : Layout} {m next current started written : Manifest} {count start : Nat}
  {output : SegmentEntry} {nextBase : BaseEntry} {op : Op}

lemma Layout.Ok.snapshot (h : l.Ok) (hm : l.disk = some m) : Snapshot l m :=
  ⟨h.valid m hm, h.dirs m hm, m, hm, Nat.le_refl _, fun _ => rfl⟩

/-- A swap that succeeds against a snapshot's `mver` replaces the snapshot. -/
lemma Snapshot.disk_eq (h : Snapshot l m) (hmver : l.disk.map Manifest.mver = some m.mver) :
    l.disk = some m := by
  obtain ⟨d, hd, _, hsame⟩ := h.older
  rw [hd, Option.map_some, Option.some.injEq] at hmver
  rw [hd, hsame hmver]

/-- The layout changes the ways an operation can change it. -/
structure Grows (l l' : Layout) : Prop where
  dirs : ∀ s ∈ l.segmentDirs, s ∈ l'.segmentDirs
  disk : l'.disk = l.disk ∨ ∃ m', l'.disk = some m' ∧ ∀ m, l.disk = some m → m.mver < m'.mver

lemma WriteOk.grows (h : WriteOk l.disk l'.disk)
    (hdirs : ∀ s ∈ l.segmentDirs, s ∈ l'.segmentDirs) : Grows l l' := by
  refine ⟨hdirs, ?_⟩
  rcases h with h | ⟨m', hm', _, hmver, _⟩
  · exact Or.inl h
  · refine Or.inr ⟨m', hm', fun m hm => ?_⟩
    rw [hm] at hmver
    simp only [Option.map_some, Option.getD_some] at hmver
    omega

lemma Snapshot.grows (h : Snapshot l m) (hg : Grows l l') : Snapshot l' m := by
  obtain ⟨d, hd, hle, hsame⟩ := h.older
  refine ⟨h.valid, fun s hs => hg.dirs s (h.dirs s hs), ?_⟩
  rcases hg.disk with heq | ⟨m', hm', hlt⟩
  · exact ⟨d, heq.trans hd, hle, hsame⟩
  · have := hlt d hd
    exact ⟨m', hm', by omega, fun heq => by omega⟩

/-- A write that moves no cut back keeps the layout in order. -/
lemma Layout.Ok.write (h : l.Ok) {m' : Manifest} (hvalid : m'.Valid)
    (hdirs : ∀ s ∈ m'.segments, s ∈ l.segmentDirs) (hcut : ∀ m, l.disk = some m → m.cut ≤ m'.cut)
    {sealed : List SegmentEntry} (hsealed : ∀ w ∈ sealed, w ∈ l.sealed ∨ w.toCut ≤ m'.cut) :
    Layout.Ok { l with disk := some m', sealed := sealed } where
  valid m hm := by
    cases hm
    exact hvalid
  dirs m hm := by
    cases hm
    exact hdirs
  distinct := h.distinct
  covered w hw := by
    refine ⟨m', rfl, ?_⟩
    rcases hsealed w hw with hw | hw
    · obtain ⟨m, hm, hle⟩ := h.covered w hw
      exact Int.le_trans hle (hcut m hm)
    · exact hw

/-- Creating a directory for a version that has none. -/
lemma Layout.Ok.create_dir (h : l.Ok) {s : SegmentEntry}
    (hfree : l.segmentVersionExists s.version = false) :
    Layout.Ok { l with segmentDirs := s :: l.segmentDirs } where
  valid := h.valid
  dirs m hm t ht := List.mem_cons_of_mem _ (h.dirs m hm t ht)
  distinct a ha b hb heq := by
    have hother : ∀ t ∈ l.segmentDirs, t.version ≠ s.version := by
      intro t ht hversion
      simp only [segmentVersionExists, List.any_eq_false, decide_eq_true_eq] at hfree
      exact hfree t ht hversion
    rcases List.mem_cons.mp ha with hnew | hold
    · rcases List.mem_cons.mp hb with hnew' | hold'
      · rw [hnew, hnew']
      · exact absurd (heq.symm.trans (congrArg _ hnew)) (hother b hold')
    · rcases List.mem_cons.mp hb with hnew' | hold'
      · exact absurd (heq.trans (congrArg _ hnew')) (hother a hold)
      · exact h.distinct a hold b hold' heq
  covered := h.covered

/-! ## What each manifest is built from -/

lemma mapError_eq_ok {ε ε' α : Type} {x : Except ε α} {f : ε → ε'} {a : α} :
    x.mapError f = .ok a ↔ x = .ok a := by
  cases x <;> simp [Except.mapError]

lemma appendSegment_eq_ok {segment : SegmentEntry} (h : appendSegment m segment = .ok next) :
    next = ⟨m.mver + 1, m.base, m.segments ++ [segment]⟩ ∧ next.Valid :=
  Manifest.new_eq_ok.mp (mapError_eq_ok.mp h)

/-- Appending a segment moves the cut to its end. -/
lemma cut_append (m : Manifest) (segment : SegmentEntry) (mver : Nat) :
    (Manifest.mk mver m.base (m.segments ++ [segment])).cut = segment.toCut := by
  rw [Manifest.cut_eq, Manifest.tilesEnd_append, Manifest.tilesEnd_cons, Manifest.tilesEnd_nil]

/-- The window of a fold's output ends where its inputs end. -/
def FoldPlan (m : Manifest) (start count : Nat) (output : SegmentEntry) : Prop :=
  ((m.segments.drop start).take count).getLast?.map SegmentEntry.toCut = some output.toCut

/-- Replacing a run by an output that ends where the run ended keeps the cut. -/
lemma FoldPlan.cut_eq (h : FoldPlan m start count output) (mver : Nat) :
    (Manifest.mk mver m.base
      (m.segments.take start ++ [output] ++ m.segments.drop (start + count))).cut = m.cut := by
  have hsplit : m.segments =
      m.segments.take start ++ (m.segments.drop start).take count ++
        m.segments.drop (start + count) := by
    rw [List.append_assoc, ← List.drop_drop, List.take_append_drop, List.take_append_drop]
  have hend : ∀ c, Manifest.tilesEnd c ((m.segments.drop start).take count) = output.toCut := by
    intro c
    rw [Manifest.tilesEnd, h]
    rfl
  rw [Manifest.cut_eq, Manifest.cut_eq]
  conv_rhs => rw [hsplit]
  simp only [Manifest.tilesEnd_append, hend, Manifest.tilesEnd_cons, Manifest.tilesEnd_nil]

lemma replaceSegmentRun_eq_ok (h : replaceSegmentRun m start count output = .ok next) :
    next = ⟨m.mver + 1, m.base,
      m.segments.take start ++ [output] ++ m.segments.drop (start + count)⟩ ∧ next.Valid := by
  unfold replaceSegmentRun at h
  split at h
  · cases h
  · exact Manifest.new_eq_ok.mp (mapError_eq_ok.mp h)

/-- The segments of the current manifest that a merge of `started` leaves. -/
def preserved (started current : Manifest) : List SegmentEntry :=
  current.segments.filter fun s =>
    !(started.segments.map SegmentEntry.version).contains s.version

lemma mergeBaseRetryManifest_eq_ok
    (h : mergeBaseRetryManifest current nextBase (started.segments.map SegmentEntry.version) =
      .ok next) : next = ⟨current.mver + 1, nextBase, preserved started current⟩ ∧ next.Valid := by
  unfold mergeBaseRetryManifest at h
  dsimp only at h
  split at h
  · split at h
    · cases h
    · exact Manifest.new_eq_ok.mp (mapError_eq_ok.mp h)
  · exact Manifest.new_eq_ok.mp (mapError_eq_ok.mp h)

/-- A segment of the current manifest that was merged is the one that was merged:
versions identify segments. -/
lemma Layout.Ok.toCut_le_of_merged (h : l.Ok) (hstarted : Snapshot l started)
    (hcurrent : Snapshot l current) {s : SegmentEntry} (hs : s ∈ current.segments)
    (hmerged : s ∉ preserved started current) : s.toCut ≤ started.cut := by
  have hversion : s.version ∈ started.segments.map SegmentEntry.version := by
    by_contra hnot
    refine hmerged (List.mem_filter.mpr ⟨hs, ?_⟩)
    simpa using hnot
  obtain ⟨s', hs', heq⟩ := List.mem_map.mp hversion
  have hsame : s' = s := h.distinct s' (hstarted.dirs s' hs') s (hcurrent.dirs s hs) heq
  rw [← hsame]
  exact (Manifest.Tiles.bounds hstarted.valid hs').2.2

/-- **The retry of a merge-base** over a manifest that still has segments, or whose
base does not reach further than what was merged, moves no cut back. -/
lemma Layout.Ok.retry_cuts (h : l.Ok) (hstarted : Snapshot l started)
    (hcurrent : Snapshot l current) {mver : Nat} (hbase : nextBase.cut = started.cut)
    (hvalid : (Manifest.mk mver nextBase (preserved started current)).Valid)
    (hkeeps : current.segments = [] → current.base.cut ≤ nextBase.cut) :
    current.base.cut ≤ nextBase.cut ∧
      current.cut ≤ (Manifest.mk mver nextBase (preserved started current)).cut := by
  have hle : nextBase.cut ≤ (Manifest.mk mver nextBase (preserved started current)).cut :=
    hvalid.base_cut_le
  rcases List.eq_nil_or_concat current.segments with hnil | ⟨init, last, hlast⟩
  · have hcut : current.cut = current.base.cut := by simp [Manifest.cut, hnil]
    have := hkeeps hnil
    exact ⟨this, by omega⟩
  have hmem : last ∈ current.segments := by simp [hlast]
  have hcut : current.cut = last.toCut := by simp [Manifest.cut, hlast]
  have hbounds := Manifest.Tiles.bounds hcurrent.valid hmem
  by_cases hp : last ∈ preserved started current
  · -- The last segment stays, and the first that stays starts at the new base's cut.
    refine ⟨?_, by rw [hcut]; exact (Manifest.Tiles.bounds hvalid hp).2.2⟩
    cases hpres : preserved started current with
    | nil => rw [hpres] at hp; cases hp
    | cons first rest =>
      have hfirst : first ∈ current.segments :=
        (List.mem_filter.mp (hpres ▸ List.mem_cons_self : first ∈ preserved started current)).1
      have hfrom : first.fromCut = nextBase.cut := by
        rw [hpres] at hvalid
        exact hvalid.1
      rw [← hfrom]
      exact (Manifest.Tiles.bounds hcurrent.valid hfirst).1
  · have hmerged := h.toCut_le_of_merged hstarted hcurrent hmem hp
    have hlt := hbounds.2.1
    exact ⟨by omega, by omega⟩

/-! ## One step of one operation -/

/-- What an operation in progress holds is consistent with the layout. -/
def Op.Ok (l : Layout) : Op → Prop
  | .sealRead segment _ => segment ∈ l.segmentDirs
  | .sealCas segment _ expectedMver next =>
    segment ∈ l.segmentDirs ∧ next.Valid ∧
      ((expectedMver = none ∧ ∃ base, next = ⟨1, base, [segment]⟩) ∨
        ∃ m, Snapshot l m ∧ expectedMver = some m.mver ∧
          next = ⟨m.mver + 1, m.base, m.segments ++ [segment]⟩)
  | .foldCreateDir m start count output => Snapshot l m ∧ FoldPlan m start count output
  | .foldCas m start count output =>
    Snapshot l m ∧ FoldPlan m start count output ∧ output ∈ l.segmentDirs
  | .mergeCreateDir m _ => Snapshot l m
  | .mergePublish m _ => Snapshot l m
  | .mergeCas attempt started nextBase expectedMver next =>
    Snapshot l started ∧ nextBase.cut = started.cut ∧ next.Valid ∧
      ((attempt = 1 ∧ expectedMver = some started.mver ∧
          next = ⟨started.mver + 1, nextBase, []⟩) ∨
        (1 < attempt ∧ ∃ current, Snapshot l current ∧ expectedMver = some current.mver ∧
          next = ⟨current.mver + 1, nextBase, preserved started current⟩))
  | .mergeRetry attempt started nextBase =>
    0 < attempt ∧ Snapshot l started ∧ nextBase.cut = started.cut
  | _ => True

lemma Op.Ok.grows (h : op.Ok l) (hg : Grows l l') : op.Ok l' := by
  cases op with
  | sealRead segment attempt => exact hg.dirs _ h
  | sealCas segment attempt expectedMver next =>
    obtain ⟨hdir, hvalid, hnone | ⟨m, hsnap, hrest⟩⟩ := h
    · exact ⟨hg.dirs _ hdir, hvalid, Or.inl hnone⟩
    · exact ⟨hg.dirs _ hdir, hvalid, Or.inr ⟨m, hsnap.grows hg, hrest⟩⟩
  | foldCreateDir m start count output => exact ⟨h.1.grows hg, h.2⟩
  | foldCas m start count output => exact ⟨h.1.grows hg, h.2.1, hg.dirs _ h.2.2⟩
  | mergeCreateDir m version => exact Snapshot.grows h hg
  | mergePublish m version => exact Snapshot.grows h hg
  | mergeCas attempt started nextBase expectedMver next =>
    obtain ⟨hstarted, hbase, hvalid, hfirst | ⟨hattempt, current, hcurrent, hrest⟩⟩ := h
    · exact ⟨hstarted.grows hg, hbase, hvalid, Or.inl hfirst⟩
    · exact ⟨hstarted.grows hg, hbase, hvalid, Or.inr ⟨hattempt, current, hcurrent.grows hg, hrest⟩⟩
  | mergeRetry attempt started nextBase => exact ⟨h.1, h.2.1.grows hg, h.2.2⟩
  | sealCheck _ _ _ _ | sealRecheck _ _ | sealCreateDir _ | foldRead _ _ | mergeRead _ | done
  | failed _ => trivial

/-- The base and the expected `mver` of a merge-base's swap after a lost one. -/
def Op.retriedBase : Op → Option (BaseEntry × Option Nat)
  | .mergeCas attempt _ nextBase expectedMver _ =>
    if 1 < attempt then some (nextBase, expectedMver) else none
  | _ => none

/-- The step is no retry of a merge-base over a manifest without segments whose
base reaches further than what was merged. -/
def Op.KeepsBase (l : Layout) (op : Op) : Prop :=
  ∀ retried ∈ op.retriedBase, ∀ current ∈ l.disk, retried.2 = some current.mver →
    current.segments = [] → current.base.cut ≤ retried.1.cut

instance (l : Layout) (op : Op) : Decidable (op.KeepsBase l) :=
  inferInstanceAs (Decidable (∀ retried ∈ op.retriedBase, ∀ current ∈ l.disk,
    retried.2 = some current.mver → current.segments = [] → current.base.cut ≤ retried.1.cut))

/-- What a step of an operation has to establish. -/
structure Advances (l l' : Layout) (op' : Op) : Prop where
  ok : l'.Ok
  op : op'.Ok l'
  write : WriteOk l.disk l'.disk
  dirs : ∀ s ∈ l.segmentDirs, s ∈ l'.segmentDirs

lemma Advances.stay (h : l.Ok) {op' : Op} (hop : op'.Ok l) : Advances l l op' :=
  ⟨h, hop, Or.inl rfl, fun _ hs => hs⟩

/-- A step that swaps the manifest in and ends the operation. -/
lemma Advances.write_done (h : l.Ok) {m' : Manifest} (hvalid : m'.Valid)
    (hmver : m'.mver = (l.disk.map Manifest.mver).getD 0 + 1)
    (hdirs : ∀ s ∈ m'.segments, s ∈ l.segmentDirs)
    (hcuts : ∀ m, l.disk = some m → m.base.cut ≤ m'.base.cut ∧ m.cut ≤ m'.cut)
    {sealed : List SegmentEntry} (hsealed : ∀ w ∈ sealed, w ∈ l.sealed ∨ w.toCut ≤ m'.cut) :
    Advances l { l with disk := some m', sealed := sealed } .done where
  ok := h.write hvalid hdirs (fun m hm => (hcuts m hm).2) hsealed
  op := trivial
  write := Or.inr ⟨m', rfl, hvalid, hmver, hcuts⟩
  dirs _ hs := hs

lemma planFold_ok {tier preferredVersion : Nat} (hsnap : Snapshot l m)
    (h : l.planFold m tier preferredVersion = .ok op) : op.Ok l := by
  unfold Layout.planFold at h
  split at h
  · cases h
  · cases h
    trivial
  · dsimp only at h
    split at h
    · cases h
    · rename_i hlast
      split at h
      · cases h
        refine ⟨hsnap, ?_⟩
        rw [FoldPlan, hlast]
        rfl
      · cases h
    · cases h

/-- The publishing swap of a seal. -/
lemma seal_publishes (h : l.Ok) {segment : SegmentEntry} {attempt : Nat}
    {expectedMver : Option Nat} (hop : (Op.sealCas segment attempt expectedMver next).Ok l)
    (hcas : writeManifestCas l.disk expectedMver next = .ok written) :
    Advances l { l with disk := some written, sealed := segment :: l.sealed } .done := by
  obtain ⟨rfl, hvalid, hexpected, hmver⟩ := writeManifestCas_eq_ok.mp hcas
  obtain ⟨hdir, -, ⟨hnone, base, rfl⟩ | ⟨m, hsnap, hread, rfl⟩⟩ := hop
  · have hdisk : l.disk = none := by
      rw [hnone, Option.map_eq_none_iff] at hexpected
      exact hexpected
    refine Advances.write_done h hvalid (by rw [hexpected]; exact hmver) ?_ ?_ ?_
    · simpa using hdir
    · intro m hm
      rw [hdisk] at hm
      cases hm
    · intro w hw
      rcases List.mem_cons.mp hw with rfl | hw
      · exact Or.inr (Int.le_refl _)
      · exact Or.inl hw
  · have hdisk : l.disk = some m := hsnap.disk_eq (hexpected.trans hread)
    have hcut := cut_append m segment (m.mver + 1)
    refine Advances.write_done h hvalid (by rw [hexpected]; exact hmver) ?_ ?_ ?_
    · intro s hs
      rcases List.mem_append.mp hs with hs | hs
      · exact hsnap.dirs s hs
      · rw [List.mem_singleton.mp hs]
        exact hdir
    · intro d hd
      rw [hdisk] at hd
      cases hd
      refine ⟨Int.le_refl _, ?_⟩
      -- The appended window starts at the old cut.
      obtain ⟨_, htiles⟩ := Manifest.Tiles.append_right hvalid
      rw [hcut]
      have hfrom := htiles.1
      have hlt := htiles.2.1
      rw [Manifest.cut_eq]
      dsimp only at hfrom
      omega
    · intro w hw
      rcases List.mem_cons.mp hw with rfl | hw
      · exact Or.inr (Int.le_of_eq hcut.symm)
      · exact Or.inl hw

/-- The publishing swap of a fold. -/
lemma fold_publishes (h : l.Ok) (hop : (Op.foldCas m start count output).Ok l)
    (hreplace : replaceSegmentRun m start count output = .ok next)
    (hcas : writeManifestCas l.disk (some m.mver) next = .ok written) :
    Advances l { l with disk := some written } .done := by
  obtain ⟨rfl, hvalid, hexpected, hmver⟩ := writeManifestCas_eq_ok.mp hcas
  obtain ⟨hsnap, hplan, hdir⟩ := hop
  obtain ⟨rfl, -⟩ := replaceSegmentRun_eq_ok hreplace
  have hdisk : l.disk = some m := hsnap.disk_eq hexpected
  refine Advances.write_done h hvalid (by rw [hexpected]; exact hmver) ?_ ?_ fun w hw => Or.inl hw
  · intro s hs
    simp only [List.append_assoc, List.mem_append, List.mem_singleton] at hs
    rcases hs with hs | rfl | hs
    · exact hsnap.dirs s (List.mem_of_mem_take hs)
    · exact hdir
    · exact hsnap.dirs s (List.mem_of_mem_drop hs)
  · intro d hd
    rw [hdisk] at hd
    cases hd
    exact ⟨Int.le_refl _, Int.le_of_eq (hplan.cut_eq _).symm⟩

/-- The publishing swap of a merge-base that keeps the base. -/
lemma merge_publishes (h : l.Ok) {attempt : Nat} {expectedMver : Option Nat}
    (hop : (Op.mergeCas attempt started nextBase expectedMver next).Ok l)
    (hkeeps : (Op.mergeCas attempt started nextBase expectedMver next).KeepsBase l)
    (hcas : writeManifestCas l.disk expectedMver next = .ok written) :
    Advances l { l with disk := some written } .done := by
  obtain ⟨rfl, hvalid, hexpected, hmver⟩ := writeManifestCas_eq_ok.mp hcas
  obtain ⟨hstarted, hbase, -, ⟨-, hread, rfl⟩ | ⟨hattempt, current, hcurrent, hread, rfl⟩⟩ := hop
  · have hdisk : l.disk = some started := hstarted.disk_eq (hexpected.trans hread)
    refine Advances.write_done h hvalid (by rw [hexpected]; exact hmver) (by simp) ?_
      fun w hw => Or.inl hw
    intro d hd
    rw [hdisk] at hd
    cases hd
    have hle := hstarted.valid.base_cut_le
    exact ⟨by rw [hbase]; exact hle, by rw [← hbase]; exact hvalid.base_cut_le⟩
  · have hdisk : l.disk = some current := hcurrent.disk_eq (hexpected.trans hread)
    refine Advances.write_done h hvalid (by rw [hexpected]; exact hmver) ?_ ?_ fun w hw => Or.inl hw
    · exact fun s hs => hcurrent.dirs s (List.mem_filter.mp hs).1
    · intro d hd
      rw [hdisk] at hd
      cases hd
      exact h.retry_cuts hstarted hcurrent hbase hvalid 
        (hkeeps (nextBase, expectedMver) (by simp [Op.retriedBase, hattempt]) current hdisk hread)

/-- **One step of any operation** that keeps the base. -/
lemma Layout.Ok.advance (h : l.Ok) (changed : Nat) (hop : op.Ok l) (hkeeps : op.KeepsBase l) :
    Advances l (l.advance changed op).1 (l.advance changed op).2 := by
  cases op with
  | sealCheck since windowEnd minTorrents maxLagSecs =>
    simp only [Layout.advance]
    split
    · exact .stay h trivial
    · split
      · exact .stay h trivial
      · split
        · exact .stay h trivial
        · exact .stay h trivial
  | sealRecheck since windowEnd =>
    simp only [Layout.advance]
    split
    · exact .stay h trivial
    · split
      · exact .stay h trivial
      · exact .stay h trivial
  | sealCreateDir segment =>
    simp only [Layout.advance]
    split
    · exact .stay h trivial
    · rename_i hfree
      exact ⟨h.create_dir (by simpa using hfree), List.mem_cons_self, Or.inl rfl,
        fun s hs => List.mem_cons_of_mem _ hs⟩
  | sealRead segment attempt =>
    simp only [Layout.advance]
    split
    · exact .stay h trivial
    · rename_i next hnext
      refine .stay h ⟨hop, ?_⟩
      cases hdisk : l.disk with
      | none =>
        rw [hdisk] at hnext
        cases hboot : l.bootstrap 0 segment.fromCut with
        | error e =>
          simp [hboot, Except.bind] at hnext
        | ok m =>
          simp only [hboot, Except.bind] at hnext
          obtain ⟨rfl, hvalid⟩ := appendSegment_eq_ok hnext
          refine ⟨hvalid, Or.inl ⟨rfl, ?_⟩⟩
          unfold Layout.bootstrap at hboot
          split at hboot
          · cases hboot
          · obtain ⟨rfl, -⟩ := Manifest.new_eq_ok.mp (mapError_eq_ok.mp hboot)
            exact ⟨_, rfl⟩
      | some m =>
        rw [hdisk] at hnext
        obtain ⟨rfl, hvalid⟩ := appendSegment_eq_ok hnext
        exact ⟨hvalid, Or.inr ⟨m, h.snapshot hdisk, rfl, rfl⟩⟩
  | sealCas segment attempt expectedMver next =>
    simp only [Layout.advance]
    split
    · rename_i written hcas
      exact seal_publishes h hop hcas
    · split
      · exact .stay h hop.1
      · exact .stay h trivial
    · exact .stay h trivial
  | foldRead tier preferredVersion =>
    simp only [Layout.advance]
    split
    · exact .stay h trivial
    · rename_i m hdisk
      split
      · exact .stay h trivial
      · rename_i op hplan
        exact .stay h (planFold_ok (h.snapshot hdisk) hplan)
  | foldCreateDir m start count output =>
    simp only [Layout.advance]
    split
    · exact .stay h trivial
    · rename_i hfree
      have hdirs : ∀ s ∈ l.segmentDirs, s ∈ output :: l.segmentDirs :=
        fun s hs => List.mem_cons_of_mem _ hs
      exact ⟨h.create_dir (by simpa using hfree),
        ⟨hop.1.grows ⟨hdirs, Or.inl rfl⟩, hop.2, List.mem_cons_self⟩, Or.inl rfl, hdirs⟩
  | foldCas m start count output =>
    simp only [Layout.advance]
    split
    · exact .stay h trivial
    · rename_i next hreplace
      split
      · rename_i written hcas
        exact fold_publishes h hop hreplace hcas
      · exact .stay h trivial
  | mergeRead preferredVersion =>
    simp only [Layout.advance]
    split
    · exact .stay h trivial
    · rename_i m hdisk
      split
      · exact .stay h trivial
      · split
        · exact .stay h trivial
        · split
          · exact .stay h trivial
          · exact .stay h (h.snapshot hdisk)
  | mergeCreateDir m version =>
    simp only [Layout.advance]
    split
    · exact .stay h trivial
    · exact ⟨⟨h.valid, h.dirs, h.distinct, h.covered⟩,
        Snapshot.grows hop ⟨fun _ hs => hs, Or.inl rfl⟩, Or.inl rfl, fun _ hs => hs⟩
  | mergePublish m version =>
    simp only [Layout.advance]
    split
    · exact ⟨⟨h.valid, h.dirs, h.distinct, h.covered⟩, trivial, Or.inl rfl, fun _ hs => hs⟩
    · rename_i next hnew
      obtain ⟨rfl, hvalid⟩ := Manifest.new_eq_ok.mp hnew
      exact ⟨⟨h.valid, h.dirs, h.distinct, h.covered⟩,
        ⟨Snapshot.grows hop ⟨fun _ hs => hs, Or.inl rfl⟩, rfl, hvalid, Or.inl ⟨rfl, rfl, rfl⟩⟩,
        Or.inl rfl, fun _ hs => hs⟩
  | mergeCas attempt started nextBase expectedMver next =>
    simp only [Layout.advance]
    split
    · rename_i written hcas
      exact merge_publishes h hop hkeeps hcas
    · split
      · refine .stay h ⟨?_, hop.1, hop.2.1⟩
        obtain ⟨-, -, -, ⟨rfl, -⟩ | ⟨hattempt, -⟩⟩ := hop <;> omega
      · exact .stay h trivial
    · exact .stay h trivial
  | mergeRetry attempt started nextBase =>
    simp only [Layout.advance]
    split
    · exact .stay h trivial
    · rename_i current hdisk
      split
      · exact .stay h trivial
      · rename_i next hretry
        obtain ⟨rfl, hvalid⟩ := mergeBaseRetryManifest_eq_ok hretry
        exact .stay h ⟨hop.2.1, hop.2.2, hvalid,
          Or.inr ⟨by have := hop.1; omega, current, h.snapshot hdisk, rfl, rfl⟩⟩
  | done => exact .stay h trivial
  | failed e => exact .stay h trivial

/-- A step that does not keep the base moves the base's cut back. -/
lemma not_writeOk_of_not_keepsBase {changed : Nat} (hop : op.Ok l) (hkeeps : ¬ op.KeepsBase l) :
    ¬ WriteOk l.disk (l.advance changed op).1.disk := by
  simp only [Op.KeepsBase, not_forall] at hkeeps
  obtain ⟨⟨base, mver⟩, hretried, current, hdisk, hexpected, hnil, hback⟩ := hkeeps
  cases op with
  | mergeCas attempt started nextBase expectedMver next =>
    simp only [Op.retriedBase, Option.mem_def, Option.ite_none_right_eq_some, Option.some.injEq,
      Prod.mk.injEq] at hretried
    obtain ⟨hattempt, rfl, rfl⟩ := hretried
    dsimp only at hexpected hback
    rw [Option.mem_def] at hdisk
    obtain ⟨-, -, hvalid, ⟨hfirst, -⟩ | ⟨-, read, -, hread, rfl⟩⟩ := hop
    · omega
    have hmver : read.mver = current.mver := by
      rw [hexpected, Option.some.injEq] at hread
      exact hread.symm
    have hcas : writeManifestCas l.disk expectedMver
        ⟨read.mver + 1, nextBase, preserved started read⟩ =
        .ok ⟨read.mver + 1, nextBase, preserved started read⟩ := by
      refine writeManifestCas_eq_ok.mpr ⟨rfl, hvalid, ?_, ?_⟩
      · rw [hdisk, hexpected]
        rfl
      · rw [hexpected, hmver]
        rfl
    simp only [Layout.advance, hcas]
    rw [hdisk]
    rintro (heq | ⟨m', heq, -, -, hcuts⟩)
    · rw [Option.some.injEq] at heq
      have : read.mver + 1 = current.mver := congrArg Manifest.mver heq
      omega
    · cases heq
      have hcut : current.base.cut ≤ nextBase.cut := (hcuts current rfl).1
      omega
  | sealCheck _ _ _ _ | sealRecheck _ _ | sealCreateDir _ | sealRead _ _ | sealCas _ _ _ _
  | foldRead _ _ | foldCreateDir _ _ _ _ | foldCas _ _ _ _ | mergeRead _ | mergeCreateDir _ _
  | mergePublish _ _ | mergeRetry _ _ _ | done | failed _ => cases hretried

/-! ## Runs -/

/-- A site is in order: its layout is, and what its operations hold is. -/
structure Site.Ok (s : Site) : Prop where
  layout : s.layout.Ok
  ops : ∀ op ∈ s.ops, op.Ok s.layout

/-- The operation an event moves on. -/
def Event.moves (s : Site) : Event → Option Op
  | .step i _ => s.ops[i]?
  | _ => none

/-- The event keeps the base, in this state. -/
def Event.KeepsBase (s : Site) (e : Event) : Prop := ∀ op ∈ e.moves s, op.KeepsBase s.layout

instance (s : Site) (e : Event) : Decidable (e.KeepsBase s) :=
  inferInstanceAs (Decidable (∀ op ∈ e.moves s, op.KeepsBase s.layout))

lemma Site.Ok.step {s s' : Site} (h : s.Ok) {e : Event} (hkeeps : e.KeepsBase s)
    (hstep : s.step e = some ((), s')) : s'.Ok ∧ WriteOk s.layout.disk s'.layout.disk := by
  cases e with
  | start request =>
    cases hstep
    refine ⟨⟨h.layout, fun op hop => ?_⟩, Or.inl rfl⟩
    rcases List.mem_append.mp hop with hop | hop
    · exact h.ops op hop
    · rw [List.mem_singleton.mp hop]
      cases request <;> trivial
  | step i changed =>
    obtain ⟨op, hi, heq⟩ := Option.map_eq_some_iff.mp hstep
    cases heq
    have hadv := h.layout.advance changed (h.ops op (List.mem_of_getElem? hi)) (hkeeps op hi)
    refine ⟨⟨hadv.ok, fun other hother => ?_⟩, hadv.write⟩
    rcases List.mem_or_eq_of_mem_set hother with hother | rfl
    · exact (h.ops other hother).grows (hadv.write.grows hadv.dirs)
    · exact hadv.op
  | crash i =>
    obtain ⟨op, hi, heq⟩ := Option.map_eq_some_iff.mp hstep
    cases heq
    refine ⟨⟨h.layout, fun other hother => ?_⟩, Or.inl rfl⟩
    rcases List.mem_or_eq_of_mem_set hother with hother | rfl
    · exact h.ops other hother
    · trivial

/-- A site where nothing runs yet: its manifest is absent, or valid with its
segments' directories in place. -/
structure Site.Initial (s : Site) : Prop where
  ops : s.ops = []
  valid : ∀ m, s.layout.disk = some m → m.Valid
  dirs : ∀ m, s.layout.disk = some m → ∀ t ∈ m.segments, t ∈ s.layout.segmentDirs
  distinct : ∀ a ∈ s.layout.segmentDirs, ∀ b ∈ s.layout.segmentDirs, a.version = b.version → a = b
  sealed : s.layout.sealed = (s.layout.disk.map Manifest.segments).getD []

lemma Site.Initial.ok {s : Site} (h : s.Initial) : s.Ok where
  layout :=
    { valid := h.valid
      dirs := h.dirs
      distinct := h.distinct
      covered := by
        intro w hw
        rw [h.sealed] at hw
        cases hdisk : s.layout.disk with
        | none => rw [hdisk] at hw; cases hw
        | some m =>
          rw [hdisk] at hw
          exact ⟨m, rfl, (Manifest.Tiles.bounds (h.valid m hdisk) hw).2.2⟩ }
  ops op hop := by
    rw [h.ops] at hop
    cases hop

/-- **Manifest safety.**  Run any seals, folds and merge-bases side by side, in any
interleaving and with crashes anywhere, such that no merge-base on its retry
replaces a base that reaches further over a manifest without segments.  Then the
manifest on disk is valid and covers every window ever sealed; and the next step
writes a valid manifest with the next `mver`, with neither cut moving back, or
none, exactly if it keeps the base too. -/
theorem run_safe_of_keepsBase {s s' : Site} (hinit : s.Initial) {events : List Event}
    {replies : List Unit} (hkeeps : Machine.Along Site.step (fun s e => e.KeepsBase s) s events)
    (hrun : Machine.run Site.step s events = some (replies, s')) :
    (∀ m, s'.layout.disk = some m → m.validate = .ok ()) ∧
      (∀ w ∈ s'.layout.sealed, ∃ m, s'.layout.disk = some m ∧ m.Covers w) ∧
      ∀ (e : Event) (next : Site), s'.step e = some ((), next) →
        (e.KeepsBase s' ↔ WriteOk s'.layout.disk next.layout.disk) := by
  have h : s'.Ok :=
    Machine.invariant_run_along (fun h hok hstep => (h.step hok hstep).1) events hinit.ok hkeeps hrun
  refine ⟨fun m hm => Manifest.validate_eq_ok.mpr (h.layout.valid m hm), ?_, ?_⟩
  · intro w hw
    obtain ⟨m, hm, hle⟩ := h.layout.covered w hw
    exact ⟨m, hm, (h.layout.valid m hm).covers hle⟩
  · intro e next hstep
    refine ⟨fun hok => (h.step hok hstep).2, fun hwrite => ?_⟩
    cases e with
    | step i changed =>
      intro op hi
      change s'.ops[i]? = some op at hi
      by_contra hnot
      obtain ⟨op', hi', heq⟩ := Option.map_eq_some_iff.mp hstep
      rw [hi] at hi'
      cases hi'
      cases heq
      exact not_writeOk_of_not_keepsBase (h.ops op (List.mem_of_getElem? hi)) hnot hwrite
    | start _ | crash _ =>
      intro op hop
      cases hop

/-! ## The run that is not safe -/

/-- One sealed segment over a base. -/
def oneSegmentSite : Site where
  layout :=
    { disk := some ⟨1, ⟨1, 0⟩, [⟨10, 0, 10, 0⟩]⟩
      segmentDirs := [⟨10, 0, 10, 0⟩]
      baseDirs := [1]
      currentBase := some 1
      sealed := [⟨10, 0, 10, 0⟩] }
  ops := []

lemma oneSegmentSite_initial : oneSegmentSite.Initial where
  ops := rfl
  valid := by
    intro m hm
    cases hm
    exact Manifest.validate_eq_ok.mp rfl
  dirs := by
    intro m hm
    cases hm
    exact fun t ht => ht
  distinct := by decide
  sealed := rfl

/-- A merge-base reads the manifest and is overtaken: a seal adds a segment, and
a second merge-base merges and publishes both.  The first then publishes its
base, loses the swap and reads the manifest again. -/
def overtakenMerge : List Event :=
  [.start (.mergeBase 2), .step 0 0,
    .start (.seal 10 20 0 0), .step 1 0, .step 1 0, .step 1 0, .step 1 0, .step 1 0,
    .start (.mergeBase 3), .step 2 0, .step 2 0, .step 2 0, .step 2 0,
    .step 0 0, .step 0 0, .step 0 0, .step 0 0]

/-- **An overtaken merge-base uncovers a sealed window.**  Its retry puts the base
that ends at 10 in the place of the one that ends at 20: both cuts move back, and
the window from 10 to 20 is neither under the base nor in a segment. -/
theorem merge_base_retry_uncovers :
    ∃ (replies : List Unit) (before after : Site) (m m' : Manifest),
      oneSegmentSite.Initial ∧
        Machine.run Site.step oneSegmentSite overtakenMerge = some (replies, before) ∧
        before.step (.step 0 0) = some ((), after) ∧
        before.layout.disk = some m ∧ after.layout.disk = some m' ∧
        m'.base.cut < m.base.cut ∧ m'.cut < m.cut ∧
        ∃ w ∈ after.layout.sealed, m.Covers w ∧ ¬ m'.Covers w := by
  have hbefore : (Machine.run Site.step oneSegmentSite overtakenMerge).map
      (fun r => (r.2.layout.disk, (r.2.step (.step 0 0)).map
        fun q => (q.2.layout.disk, q.2.layout.sealed))) =
      some (some ⟨3, ⟨3, 20⟩, []⟩, some (some ⟨4, ⟨2, 10⟩, []⟩,
        [⟨20, 10, 20, 0⟩, ⟨10, 0, 10, 0⟩])) := by
    rfl
  obtain ⟨⟨replies, before⟩, hrun, heq⟩ := Option.map_eq_some_iff.mp hbefore
  rw [Prod.mk.injEq] at heq
  obtain ⟨hdisk, hstep⟩ := heq
  obtain ⟨⟨⟨⟩, after⟩, hafter, heq⟩ := Option.map_eq_some_iff.mp hstep
  rw [Prod.mk.injEq] at heq
  refine ⟨replies, before, after, _, _, oneSegmentSite_initial, hrun, hafter, hdisk, heq.1,
    by decide, by decide, ⟨20, 10, 20, 0⟩, by rw [heq.2]; simp, ?_, ?_⟩
  · intro t _ ht
    exact Or.inl ht
  · intro hcovers
    rcases hcovers 20 (by decide) (by decide) with hle | ⟨s, hs, -⟩
    · exact absurd hle (by decide)
    · cases hs

/-- A merge-base that a seal overtakes: its retry keeps the new segment. -/
def overtakenBySeal : List Event :=
  [.start (.mergeBase 2), .step 0 0,
    .start (.seal 10 20 0 0), .step 1 0, .step 1 0, .step 1 0, .step 1 0, .step 1 0,
    .step 0 0, .step 0 0, .step 0 0, .step 0 0, .step 0 0]

lemma overtakenBySeal_keepsBase :
    Machine.Along Site.step (fun s e => e.KeepsBase s) oneSegmentSite overtakenBySeal := by
  decide

theorem run_safe_of_keepsBase_overtaken :
    ∃ (replies : List Unit) (s' : Site),
      Machine.run Site.step oneSegmentSite overtakenBySeal = some (replies, s') ∧
        s'.layout.disk = some ⟨3, ⟨2, 10⟩, [⟨20, 10, 20, 0⟩]⟩ ∧
        ∀ w ∈ s'.layout.sealed, ∃ m, s'.layout.disk = some m ∧ m.Covers w := by
  have hdisk : (Machine.run Site.step oneSegmentSite overtakenBySeal).map
      (fun r => r.2.layout.disk) = some (some ⟨3, ⟨2, 10⟩, [⟨20, 10, 20, 0⟩]⟩) := by
    rfl
  obtain ⟨⟨replies, s'⟩, hrun, heq⟩ := Option.map_eq_some_iff.mp hdisk
  exact ⟨replies, s', hrun, heq,
    (run_safe_of_keepsBase oneSegmentSite_initial overtakenBySeal_keepsBase hrun).2.1⟩

end Bitmagnet.Parquet
