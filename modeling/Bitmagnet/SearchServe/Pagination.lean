import Bitmagnet.Library.Windows
import Bitmagnet.SearchServe.Refinement

/-!
# Reading all pages

A client reads a search page by page, at the offsets `0`, `L`, `2 L`, … for as long as it is
told that there is a further page.  The budget of candidates grows with the offset, so that
every page is cut from a refined list of its own.  These lists are starts of one list
(`refinedOver_take`), the refinement of all candidates a request may ask for, and a page is
the window of that list if its own list reaches to the end of the window.

That is not so on every request: candidates that do not match use up the budget.  An item
that is found only by a later request then stands at a place the client has passed, and is
never returned (`pages_skip`).
-/

namespace Bitmagnet.SearchServe

variable {Blob Row Aggregations : Type}

/-- A database and a ranked list of candidates. -/
structure Archive (Blob Row : Type) where
  casing : Casing
  codec : BlobCodec Blob
  ranked : List InfoHash
  metadata : InfoHash → Option RefineMetadata
  rowsOf : InfoHash → List (SearchResultItem Blob Row)

/-- A request is answered from the archive: whatever does not fail is as it has it. -/
structure Archive.Answers (archive : Archive Blob Row) (world : World Blob Row Aggregations) :
    Prop where
  casing_eq : world.casing = archive.casing
  codec_eq : world.codec = archive.codec
  candidates : ∀ request response, world.pathCandidates request = some response →
    response = ⟨(archive.ranked.take request.limit).map (·.bytes.val), archive.ranked.length⟩
  metadata : ∀ ids found, world.refineMetadata ids = some found →
    ∀ id ∈ ids, found id = archive.metadata id
  rows : Hydrates world archive.rowsOf

/-- No cap, deadline or decode failure fired. -/
structure Route.Clean (route : Route Blob Row Aggregations) : Prop where
  served : route.served = true
  cap_eq : route.cap = .none
  shed_eq : route.shed = false
  undecoded_eq : route.undecoded = 0

/-! ## The refined list of a number of candidates -/

/-- The check of one item, on its whole file list. -/
def checkItem (archive : Archive Blob Row) (config : ComposerConfig) (predicate : RefinePredicate)
    (retainRefineFiles : Bool) (item : SearchResultItem Blob Row) :
    Option (SearchResultItem Blob Row) :=
  match fullFiles archive.codec config item.torrent with
  | .ok (some decoded) =>
    if decoded.files.length ≤ config.effectiveFileCap ∧
        torrentTokenMatch archive.casing decoded.files item.torrent.name predicate then
      some (item.retain retainRefineFiles decoded.files)
    else none
  | _ => none

/-- The refined list over the first `n` candidates. -/
def refinedOver (archive : Archive Blob Row) (config : ComposerConfig) (filters : Filters)
    (retainRefineFiles : Bool) (n : Nat) : List (SearchResultItem Blob Row) :=
  (hydrated config archive.metadata archive.rowsOf (archive.ranked.take n)).filterMap
    (checkItem archive config (filters.predicate archive.casing) retainRefineFiles)

section Pages

variable {archive : Archive Blob Row} {config : ComposerConfig} {filters : Filters}
  {predicate : RefinePredicate} {retainRefineFiles : Bool} {limit offset : Nat}
  {world : World Blob Row Aggregations} {route : Route Blob Row Aggregations}

lemma Reads.full_oversized {codec : BlobCodec Blob} (hcodec : codec.Lawful) {intact : Prop}
    (hintact : intact) {torrent : Torrent Blob} {count : Nat}
    (h : Reads codec config intact torrent (.error (.fileCountLimitExceeded count limit))) :
    fullFiles codec config torrent = .error (.fileCountLimitExceeded count limit) := by
  obtain ⟨m, o, hm, ho, hfiles, hdecodes⟩ := h
  exact filesForRefineBounded_mono hcodec hm ho (by simp) (.inr (hdecodes hintact)) hfiles

/-- With every blob decoded the check is a function of the item. -/
lemma RefinesTo.eq_filterMap (hanswers : archive.Answers world) (hcodec : archive.codec.Lawful)
    {intact : Prop} (hintact : intact) {items out : List (SearchResultItem Blob Row)}
    (h : RefinesTo world config predicate retainRefineFiles intact items out) :
    out = items.filterMap (checkItem archive config predicate retainRefineFiles) := by
  have hfull : ∀ {torrent : Torrent Blob} {files : List BlobFile},
      Obtains world.codec config intact torrent files → ∃ decoded,
        fullFiles archive.codec config torrent = .ok (some decoded) ∧ decoded.files = files := by
    rintro torrent files ⟨decoded, hread, hdecoded⟩
    rw [hanswers.codec_eq] at hread
    exact ⟨decoded, hread.full hcodec (.inr hintact), hdecoded⟩
  induction h with
  | nil => rfl
  | keep hfiles hsize hmatch _ ih =>
    obtain ⟨decoded, hdecoded, rfl⟩ := hfull hfiles
    rw [hanswers.casing_eq] at hmatch
    rw [List.filterMap_cons, checkItem, hdecoded, ih]
    dsimp only
    rw [if_pos ⟨hsize, hmatch⟩]
  | miss hfiles hmatch _ ih =>
    obtain ⟨decoded, hdecoded, rfl⟩ := hfull hfiles
    rw [hanswers.casing_eq] at hmatch
    rw [List.filterMap_cons, checkItem, hdecoded, ih]
    dsimp only
    rw [if_neg fun h => hmatch h.2]
  | oversized hsize _ ih =>
    rw [List.filterMap_cons, checkItem, ih]
    rcases hsize with ⟨count, limit, hread⟩ | ⟨files, hfiles, hlong⟩
    · rw [hanswers.codec_eq] at hread
      rw [hread.full_oversized hcodec hintact]
    · obtain ⟨decoded, hdecoded, rfl⟩ := hfull hfiles
      rw [hdecoded]
      dsimp only
      rw [if_neg fun h => by omega]

variable {m n : Nat}

/-- Fewer candidates give a start of the refined list. -/
lemma refinedOver_take (h : n ≤ m) :
    refinedOver archive config filters retainRefineFiles n =
      (refinedOver archive config filters retainRefineFiles m).take
        (refinedOver archive config filters retainRefineFiles n).length := by
  have hsplit : archive.ranked.take m =
      archive.ranked.take n ++ (archive.ranked.take m).drop n := by
    rw [← Nat.min_eq_left h, ← List.take_take, Nat.min_eq_left h, List.take_append_drop]
  obtain ⟨rest, hrest⟩ := Distinct.exists_firsts_append [] (archive.ranked.take n)
    ((archive.ranked.take m).drop n)
  rw [← hsplit] at hrest
  obtain ⟨tail, htail⟩ : ∃ tail, refinedOver archive config filters retainRefineFiles m =
      refinedOver archive config filters retainRefineFiles n ++ tail := by
    rw [refinedOver, hydrated, keptIds, hrest, List.filter_append, List.flatMap_append,
      List.filterMap_append]
    exact ⟨_, rfl⟩
  rw [htail, List.take_left]

lemma length_refinedOver_le (h : n ≤ m) :
    (refinedOver archive config filters retainRefineFiles n).length ≤
      (refinedOver archive config filters retainRefineFiles m).length := by
  rw [refinedOver_take h, List.length_take]
  exact Nat.min_le_right ..

/-- More candidates than there are change nothing. -/
lemma refinedOver_of_length_le (hn : archive.ranked.length ≤ n) (hm : archive.ranked.length ≤ m) :
    refinedOver archive config filters retainRefineFiles n =
      refinedOver archive config filters retainRefineFiles m := by
  rw [refinedOver, refinedOver, List.take_of_length_le hn, List.take_of_length_le hm]

/-! ## One page -/

lemma paginate_eq_window {rows : List (SearchResultItem Blob Row)} {k : Nat} (h : 1 ≤ limit) :
    paginate rows (k * limit) limit = Windows.window limit rows k := by
  unfold paginate Windows.window
  split
  · rename_i hpast
    rw [List.drop_eq_nil_of_le hpast, List.take_nil]
  · rw [if_pos (Nat.lt_of_succ_le h)]

lemma candidateBudget_le : config.candidateBudget limit offset ≤ config.maxCandidatesCap := by
  unfold ComposerConfig.candidateBudget
  dsimp only
  split <;> omega

lemma candidateBudget_mono {offset' : Nat} (h : offset ≤ offset') :
    config.candidateBudget limit offset ≤ config.candidateBudget limit offset' := by
  have hneed : max (satAdd offset limit) 1 ≤ max (satAdd offset' limit) 1 := by
    unfold satAdd
    omega
  have hbudget : satMul (max (satAdd offset limit) 1) config.oversampleFactor ≤
      satMul (max (satAdd offset' limit) 1) config.oversampleFactor := by
    have := Nat.mul_le_mul_right config.oversampleFactor hneed
    unfold satMul
    omega
  unfold ComposerConfig.candidateBudget
  dsimp only
  split
  all_goals
    split
    all_goals omega

/-- A request deep enough asks for all the candidates it may ask for. -/
lemma candidateBudget_eq_cap (hcap : config.maxCandidatesCap ≤ u64Max)
    (hoversample : 1 ≤ config.oversampleFactor) (hneed : config.maxCandidatesCap ≤ offset + limit)
    (hdeep : config.decodeLatencyCap < offset + limit) :
    config.candidateBudget limit offset = config.maxCandidatesCap := by
  have hu64 : 1 ≤ u64Max := by decide
  have hfactor : max (satAdd offset limit) 1 ≤
      max (satAdd offset limit) 1 * config.oversampleFactor := Nat.le_mul_of_pos_right _ hoversample
  have hbudget : min (satMul (max (satAdd offset limit) 1) config.oversampleFactor)
      config.maxCandidatesCap = config.maxCandidatesCap := by
    unfold satMul satAdd at *
    omega
  unfold ComposerConfig.candidateBudget
  dsimp only
  rw [hbudget]
  split
  · unfold satAdd at *
    omega
  · rfl

/-- What a clean request comes to. -/
structure PageSpec (archive : Archive Blob Row) (config : ComposerConfig) (filters : Filters)
    (retainRefineFiles : Bool) (limit offset : Nat) (route : Route Blob Row Aggregations) :
    Prop where
  refined_eq : route.refined = refinedOver archive config filters retainRefineFiles
    (config.candidateBudget limit offset)
  items_eq : route.result.items = paginate route.refined offset limit
  /-- a page that is not the last one has items or candidates behind it -/
  next : route.result.hasNextPage →
    satAdd offset (saturated route.result.items.length) < saturated route.refined.length ∨
    (archive.ranked.length >
        saturated (min (config.candidateBudget limit offset) archive.ranked.length) ∧
      saturated (min (config.candidateBudget limit offset) archive.ranked.length) <
        config.maxCandidatesCap)
  /-- a last page has neither behind it, or nothing of its candidates was to be checked -/
  last : ¬ route.result.hasNextPage → route.refined = [] ∨
    (saturated route.refined.length ≤ satAdd offset (saturated route.result.items.length) ∧
      route.refined = refinedOver archive config filters retainRefineFiles config.maxCandidatesCap)

lemma candidateIds_eq (hanswers : archive.Answers world) {ids : List InfoHash} {total : Nat}
    (h : candidateIds world config filters.query limit offset = some (ids, total)) :
    ids = archive.ranked.take (config.candidateBudget limit offset) ∧
      total = archive.ranked.length := by
  unfold candidateIds at h
  obtain ⟨response, hresponse, hpair⟩ := Option.map_eq_some_iff.mp h
  rw [hanswers.candidates _ _ hresponse, Prod.mk.injEq] at hpair
  refine ⟨?_, hpair.2.symm⟩
  rw [← hpair.1]
  dsimp only
  rw [← List.map_take, List.take_take, Nat.min_self, List.filterMap_map]
  have hfrom : InfoHash.fromSlice ∘ (fun id : InfoHash => id.bytes.val) = some := by
    funext id
    simp [InfoHash.fromSlice]
  rw [hfrom, List.filterMap_some]

lemma keptIds_congr {metadata metadata' : InfoHash → Option RefineMetadata}
    {ids : List InfoHash} (h : ∀ id ∈ ids, metadata id = metadata' id) :
    keptIds config metadata ids = keptIds config metadata' ids := by
  unfold keptIds
  refine List.filter_congr fun id hid => ?_
  rw [h id (Distinct.mem_firsts.mp hid).1]

lemma composeTorrentContent_page (hanswers : archive.Answers world) (hcodec : archive.codec.Lawful)
    (hroute : composeTorrentContent world config filters retainRefineFiles limit offset = route)
    (hclean : route.Clean) :
    PageSpec archive config filters retainRefineFiles limit offset route := by
  obtain ⟨-, hserved⟩ := composeTorrentContent_spec hanswers.rows hroute
  obtain ⟨ids, total, metadata, hids, hmetadata, ⟨hpage, visited, rest, hsplit, hrefines, hcut⟩,
    hnext⟩ := hserved hclean.served
  obtain ⟨rfl, rfl⟩ := candidateIds_eq hanswers hids
  have hmetadata : ∀ id ∈ archive.ranked.take (config.candidateBudget limit offset),
      metadata id = archive.metadata id := fun id hid =>
    hanswers.metadata _ _ (hmetadata (List.ne_nil_of_mem hid)) id hid
  -- without a cut the whole of the hydrated list was checked
  have hrest : rest = [] := by
    by_contra hne
    rcases hcut hne with hcap | hshed
    · exact hcap hclean.cap_eq
    · rw [hclean.shed_eq] at hshed
      cases hshed
  have hrefined : route.refined = refinedOver archive config filters retainRefineFiles
      (config.candidateBudget limit offset) := by
    rw [hrefines.eq_filterMap hanswers hcodec hclean.undecoded_eq, refinedOver, hanswers.casing_eq]
    refine congrArg _ ?_
    rw [hydrated, ← keptIds_congr hmetadata]
    rw [hrest, List.append_nil] at hsplit
    exact hsplit.symm
  have hnext := hnext hclean.shed_eq
  unfold FurtherPage at hnext
  rw [List.length_take] at hnext
  refine ⟨hrefined, hpage, fun h => (hnext.mp h).2, fun h => ?_⟩
  by_cases hkept : keptIds config metadata
      (archive.ranked.take (config.candidateBudget limit offset)) = []
  · left
    rw [hrefined, refinedOver, hydrated, ← keptIds_congr hmetadata, hkept]
    rfl
  · right
    obtain ⟨hconsumed, hcandidates⟩ := not_or.mp fun hpage => h (hnext.mpr ⟨hkept, hpage⟩)
    have hle : config.candidateBudget limit offset ≤ config.maxCandidatesCap := candidateBudget_le
    refine ⟨Nat.le_of_not_lt hconsumed, hrefined.trans ?_⟩
    by_cases hall : archive.ranked.length ≤ config.candidateBudget limit offset
    · exact refinedOver_of_length_le hall (by omega)
    · have hcap : config.candidateBudget limit offset = config.maxCandidatesCap := by
        unfold saturated at hcandidates
        omega
      rw [hcap]

end Pages

/-! ## All pages -/

section

variable (archive : Archive Blob Row) (config : ComposerConfig) (filters : Filters)
  (retainRefineFiles : Bool) (limit : Nat) (worlds : Nat → World Blob Row Aggregations)

/-- The request for page `k`. -/
def pageRoute (k : Nat) : Route Blob Row Aggregations :=
  composeTorrentContent (worlds k) config filters retainRefineFiles limit (k * limit)

/-- The pages up to page `n`, put together. -/
def pagesTo (n : Nat) : List (SearchResultItem Blob Row) :=
  (List.range (n + 1)).flatMap fun k =>
    (pageRoute config filters retainRefineFiles limit worlds k).result.items

/-- The candidates of page `k` are enough: its refined list reaches to the end of the page,
or to the end of the refined list over all candidates a request may ask for. -/
def FillsPage (k : Nat) : Prop :=
  min ((k + 1) * limit)
      (refinedOver archive config filters retainRefineFiles config.maxCandidatesCap).length ≤
    (refinedOver archive config filters retainRefineFiles
      (config.candidateBudget limit (k * limit))).length

end

section Complete

variable {archive : Archive Blob Row} {config : ComposerConfig} {filters : Filters}
  {retainRefineFiles : Bool} {limit : Nat} {route : Route Blob Row Aggregations}

variable {k : Nat}

/-- A page whose candidates are enough is the window of the whole list. -/
lemma PageSpec.items_eq_window (hlimit : 1 ≤ limit)
    (hspec : PageSpec archive config filters retainRefineFiles limit (k * limit) route)
    (hfills : FillsPage archive config filters retainRefineFiles limit k) :
    route.result.items = Windows.window limit
      (refinedOver archive config filters retainRefineFiles config.maxCandidatesCap) k := by
  rw [hspec.items_eq, hspec.refined_eq, paginate_eq_window hlimit,
    refinedOver_take candidateBudget_le, Windows.window_take hfills]

/-- Behind a last page whose candidates are enough there is nothing. -/
lemma PageSpec.reaches_end (hlimit : 1 ≤ limit)
    (hspec : PageSpec archive config filters retainRefineFiles limit (k * limit) route)
    (hfills : FillsPage archive config filters retainRefineFiles limit k)
    (hfits : (refinedOver archive config filters retainRefineFiles
      config.maxCandidatesCap).length ≤ u64Max) (hlast : ¬ route.result.hasNextPage) :
    (refinedOver archive config filters retainRefineFiles config.maxCandidatesCap).length ≤
      (k + 1) * limit := by
  unfold FillsPage at hfills
  rw [← hspec.refined_eq] at hfills
  have hpos : 1 ≤ (k + 1) * limit := Nat.le_mul_of_pos_left _ k.succ_pos |>.trans' hlimit
  rcases hspec.last hlast with hnil | ⟨hconsumed, hall⟩
  · rw [hnil, List.length_nil] at hfills
    omega
  · have hitems : route.result.items.length ≤ limit := by
      rw [hspec.items_eq, paginate_eq_window hlimit, Windows.window, List.length_take]
      exact Nat.min_le_left ..
    rw [hall] at hconsumed
    rw [Nat.succ_mul]
    unfold saturated satAdd at hconsumed
    omega

/-- A page deep enough is the last one. -/
lemma PageSpec.last_of_deep (hlimit : 1 ≤ limit) (hcap : config.maxCandidatesCap ≤ u64Max)
    (hoversample : 1 ≤ config.oversampleFactor)
    (hspec : PageSpec archive config filters retainRefineFiles limit (k * limit) route)
    (hk : (refinedOver archive config filters retainRefineFiles config.maxCandidatesCap).length +
      config.maxCandidatesCap + config.decodeLatencyCap ≤ k) : ¬ route.result.hasNextPage := by
  intro hnext
  have hoffset : k ≤ k * limit := Nat.le_mul_of_pos_right k hlimit
  have hbudget : config.candidateBudget limit (k * limit) = config.maxCandidatesCap :=
    candidateBudget_eq_cap hcap hoversample (by omega) (by omega)
  have hrefined := hspec.refined_eq
  rw [hbudget] at hrefined
  rcases hspec.next hnext with hitems | hcandidates
  · rw [hrefined] at hitems
    unfold satAdd saturated at hitems
    omega
  · rw [hbudget] at hcandidates
    unfold saturated at hcandidates
    omega

/-- A page is no longer than the window of any longer refined list. -/
lemma PageSpec.length_items_le {n : Nat} (hlimit : 1 ≤ limit)
    (hspec : PageSpec archive config filters retainRefineFiles limit (k * limit) route)
    (hn : config.candidateBudget limit (k * limit) ≤ n) :
    route.result.items.length ≤ (Windows.window limit
      (refinedOver archive config filters retainRefineFiles n) k).length := by
  rw [hspec.items_eq, hspec.refined_eq, paginate_eq_window hlimit, Windows.length_window,
    Windows.length_window]
  have hle : (refinedOver archive config filters retainRefineFiles
      (config.candidateBudget limit (k * limit))).length ≤
        (refinedOver archive config filters retainRefineFiles n).length :=
    length_refinedOver_le hn
  have hmono : k * limit ≤ (k + 1) * limit := Nat.mul_le_mul_right _ k.le_succ
  omega

/-- **Reading all pages.**  A client that asks for page after page while it is told that
there is a further one comes to a last page.  What it has read by then is the refined list
over all the candidates a request may ask for, in order and each item once, if and only if
the candidates of every page it has read were enough. -/
theorem pages_complete_iff (archive : Archive Blob Row) (hcodec : archive.codec.Lawful)
    (config : ComposerConfig) (hu32 : config.maxCandidates < 2 ^ 32) (filters : Filters)
    (retainRefineFiles : Bool) (limit : Nat) (hlimit : 1 ≤ limit)
    (worlds : Nat → World Blob Row Aggregations) (hanswers : ∀ k, archive.Answers (worlds k))
    (hclean : ∀ k, (pageRoute config.normalized filters retainRefineFiles limit worlds k).Clean)
    (hfits : (refinedOver archive config.normalized filters retainRefineFiles
      config.normalized.maxCandidatesCap).length ≤ u64Max) :
    ∃ n,
      (∀ k < n, (pageRoute config.normalized filters retainRefineFiles limit worlds
        k).result.hasNextPage) ∧
      ¬ (pageRoute config.normalized filters retainRefineFiles limit worlds
        n).result.hasNextPage ∧
      (pagesTo config.normalized filters retainRefineFiles limit worlds n =
          refinedOver archive config.normalized filters retainRefineFiles
            config.normalized.maxCandidatesCap ↔
        ∀ k ≤ n, FillsPage archive config.normalized filters retainRefineFiles limit k) := by
  have hspec : ∀ k, PageSpec archive config.normalized filters retainRefineFiles limit (k * limit)
      (pageRoute config.normalized filters retainRefineFiles limit worlds k) := fun k =>
    composeTorrentContent_page (hanswers k) hcodec rfl (hclean k)
  have hoversample : 1 ≤ config.normalized.oversampleFactor := Nat.le_max_right ..
  have hcap : config.normalized.maxCandidatesCap ≤ u64Max := by
    unfold ComposerConfig.maxCandidatesCap ComposerConfig.normalized orDefault u64Max
    dsimp only
    split_ifs <;> omega
  have hstops : ∃ n, ¬ (pageRoute config.normalized filters retainRefineFiles limit worlds
      n).result.hasNextPage :=
    ⟨_, (hspec _).last_of_deep hlimit hcap hoversample (Nat.le_refl _)⟩
  obtain ⟨n, hbefore, hlast⟩ := Windows.exists_first_stop hstops
  refine ⟨n, hbefore, hlast, fun hpages => ?_, fun hfills => ?_⟩
  · intro k hk
    by_contra hshort
    -- the pages up to `k` are cut from starts of the list that page `k` is cut from
    have hlt : (pagesTo config.normalized filters retainRefineFiles limit worlds n).length <
        (refinedOver archive config.normalized filters retainRefineFiles
          config.normalized.maxCandidatesCap).length :=
      Windows.length_flatMap_lt (Nat.lt_succ_of_le hk)
        (fun j hj => (hspec j).length_items_le hlimit
          (candidateBudget_mono (Nat.mul_le_mul_right _ (Nat.le_of_lt_succ hj))))
        (fun j _ => (hspec j).length_items_le hlimit candidateBudget_le)
        (Nat.lt_of_not_le hshort)
    rw [hpages] at hlt
    exact Nat.lt_irrefl _ hlt
  · have hend := (hspec n).reaches_end hlimit (hfills n (Nat.le_refl n)) hfits hlast
    calc pagesTo config.normalized filters retainRefineFiles limit worlds n
        = (List.range (n + 1)).flatMap (Windows.window limit (refinedOver archive config.normalized
            filters retainRefineFiles config.normalized.maxCandidatesCap)) :=
          List.flatMap_congr fun k hk => (hspec k).items_eq_window hlimit
            (hfills k (Nat.le_of_lt_succ (List.mem_range.mp hk)))
      _ = refinedOver archive config.normalized filters retainRefineFiles
            config.normalized.maxCandidatesCap := Windows.flatMap_window_eq_self hend

end Complete

/-! ## Two small archives -/

/-- The archive behind `quietWorld`. -/
def quietArchive (ranked : List InfoHash) (rows : List (SearchResultItem Empty Unit)) :
    Archive Empty Unit where
  casing := asciiCasing
  codec := ⟨fun blob => blob.elim, fun _ => .malformed⟩
  ranked
  metadata _ := none
  rowsOf id := rows.filter (·.infoHash = id)

lemma quietArchive_answers (ranked : List InfoHash) (rows : List (SearchResultItem Empty Unit)) :
    (quietArchive ranked rows).Answers (quietWorld ranked rows) where
  casing_eq := rfl
  codec_eq := rfl
  candidates request response h := (Option.some.inj h).symm
  metadata ids found h id _ := by
    rw [← Option.some.inj h]
    rfl
  rows := quietWorld_hydrates ranked rows

/-- Whether a request is clean depends on its page only through the candidates. -/
lemma Route.Clean.of_candidateIds_eq {world : World Blob Row Aggregations}
    {config : ComposerConfig} {filters : Filters} {retainRefineFiles : Bool}
    {limit offset limit' offset' : Nat}
    (hids : candidateIds world config filters.query limit offset =
      candidateIds world config filters.query limit' offset')
    (h : (composeTorrentContent world config filters retainRefineFiles limit offset).Clean) :
    (composeTorrentContent world config filters retainRefineFiles limit' offset').Clean := by
  have hrefine : ∀ {predicate : RefinePredicate} {ids : List InfoHash} {total : Nat}
      {chunks : List (List InfoHash)} {preflightByteCapped : Bool},
      (refineRoute world config predicate retainRefineFiles limit offset ids total chunks
        preflightByteCapped).Clean →
      (refineRoute world config predicate retainRefineFiles limit' offset' ids total chunks
        preflightByteCapped).Clean := by
    intro predicate ids total chunks preflightByteCapped
    rcases hloop : refineChunks world config predicate retainRefineFiles chunks {} with
      ⟨stop, accum, decoded⟩
    unfold refineRoute
    rw [hloop]
    rintro ⟨hserved, hcap, hshed, hundecoded⟩
    cases stop
    all_goals exact ⟨hserved, hcap, hshed, hundecoded⟩
  revert h
  unfold composeTorrentContent
  rw [hids]
  dsimp only
  repeat' split
  all_goals first | exact id | exact hrefine

lemma quietArchive_lawful (ranked : List InfoHash) (rows : List (SearchResultItem Empty Unit)) :
    (quietArchive ranked rows).codec.Lawful := ⟨fun blob => blob.elim⟩

lemma four_le_candidateBudget (offset : Nat) :
    4 ≤ (ComposerConfig.normalized {}).candidateBudget 1 offset :=
  Nat.le_trans (by decide) (candidateBudget_mono offset.zero_le)

lemma candidateIds_quietWorld {ranked : List InfoHash} (h : ranked.length ≤ 4)
    (rows : List (SearchResultItem Empty Unit)) (filters : Filters) (offset : Nat) :
    candidateIds (quietWorld ranked rows) (ComposerConfig.normalized {}) filters.query 1 offset =
      some (ranked, ranked.length) := by
  rcases hids : candidateIds (quietWorld ranked rows) (ComposerConfig.normalized {}) filters.query
    1 offset with _ | ⟨ids, total⟩
  · cases hids
  · obtain ⟨rfl, rfl⟩ := candidateIds_eq (quietArchive_answers ranked rows) hids
    show some (ranked.take _, ranked.length) = _
    rw [List.take_of_length_le (Nat.le_trans h (four_le_candidateBudget offset))]

/-- Two candidates that match, read one by one. -/
theorem pages_complete_iff_oneByOne :
    let ranked := [InfoHash.ofByte 1, .ofByte 2]
    let rows := [singleFileItem 1 "abc", singleFileItem 2 "abcd"]
    let page := pageRoute (ComposerConfig.normalized {}) ⟨"abc".toList, [], 0, 0⟩ false 1
      fun _ => quietWorld ranked rows
    ∃ n, (∀ k < n, (page k).result.hasNextPage) ∧ ¬ (page n).result.hasNextPage ∧
      pagesTo (ComposerConfig.normalized {}) ⟨"abc".toList, [], 0, 0⟩ false 1
        (fun _ => quietWorld ranked rows) n = rows := by
  intro ranked rows page
  have hlist : refinedOver (quietArchive ranked rows) (ComposerConfig.normalized {})
      ⟨"abc".toList, [], 0, 0⟩ false (ComposerConfig.normalized {}).maxCandidatesCap = rows := by
    decide +kernel
  have hfirst : (page 0).Clean :=
    ⟨by decide +kernel, by decide +kernel, by decide +kernel, by decide +kernel⟩
  have hclean : ∀ k, (page k).Clean := fun k => hfirst.of_candidateIds_eq <|
    (candidateIds_quietWorld (by decide) rows _ _).trans
      (candidateIds_quietWorld (by decide) rows _ _).symm
  obtain ⟨n, hnext, hlast, hpages⟩ := pages_complete_iff (quietArchive ranked rows)
    (quietArchive_lawful ranked rows) {} (by decide) ⟨"abc".toList, [], 0, 0⟩ false 1 (by decide)
    (fun _ => quietWorld ranked rows) (fun _ => quietArchive_answers ranked rows) hclean
    (by rw [hlist]; decide)
  refine ⟨n, hnext, hlast, (hpages.mpr fun k _ => ?_).trans hlist⟩
  -- both candidates are within the budget of every page
  have hall : (quietArchive ranked rows).ranked.length ≤ 4 := by decide
  have hcap : (quietArchive ranked rows).ranked.length ≤
      (ComposerConfig.normalized {}).maxCandidatesCap := by decide
  unfold FillsPage
  rw [refinedOver_of_length_le (Nat.le_trans hall (four_le_candidateBudget _)) hcap]
  exact Nat.min_le_right ..

/-- **An item that is skipped.**  Five candidates of which the last one matches, read one
by one under the default configuration.  The first page has the budget for four of them and
is empty, with a further page behind it; the second page finds the item at place 0, which is
before its offset, and is the last one. -/
theorem pages_skip :
    let ranked := [InfoHash.ofByte 1, .ofByte 2, .ofByte 3, .ofByte 4, .ofByte 5]
    let rows := [singleFileItem 1 "xyz", singleFileItem 2 "xyz", singleFileItem 3 "xyz",
      singleFileItem 4 "xyz", singleFileItem 5 "abc"]
    let filters : Filters := ⟨"abc".toList, [], 0, 0⟩
    let worlds := fun _ : Nat => quietWorld ranked rows
    let page := pageRoute (ComposerConfig.normalized {}) filters false 1 worlds
    (∀ k, (quietArchive ranked rows).Answers (worlds k)) ∧
    (page 0).Clean ∧ (page 1).Clean ∧
    (page 0).result.hasNextPage = true ∧ (page 1).result.hasNextPage = false ∧
    (page 1).refined = [singleFileItem 5 "abc"] ∧
    pagesTo (ComposerConfig.normalized {}) filters false 1 worlds 1 = [] ∧
    refinedOver (quietArchive ranked rows) (ComposerConfig.normalized {}) filters false 2000 =
      [singleFileItem 5 "abc"] := by
  intro ranked rows filters worlds page
  refine ⟨fun _ => quietArchive_answers ranked rows,
    ⟨by decide +kernel, by decide +kernel, by decide +kernel, by decide +kernel⟩,
    ⟨by decide +kernel, by decide +kernel, by decide +kernel, by decide +kernel⟩, ?_⟩
  decide +kernel

end Bitmagnet.SearchServe
