import Bitmagnet.SearchQuery.Criteria

/-!
# The statements of the search query builder

The model of what makes whole statements out of criteria: the facet filters and `build_base_query`
of `facets.rs`, `build_query` of `query.rs` and `build_search_query_at` of `search.rs`.

`app_query_to_tsquery` and the `Debug` format of a string are fields of the environment; nothing is
assumed of them.  A `BTreeSet` is the list of its elements in order.
-/

namespace Bitmagnet.SearchQuery

/-- The criteria context with the library functions that only whole statements need. -/
structure BuildEnv extends CriteriaCtx where
  popularitySortDefault : Bool
  /-- `app_query_to_tsquery`. -/
  toTsquery : String → String
  /-- `{:?}` of a string. -/
  debug : String → String

/-! ## Options -/

/-- `FacetLogic`. -/
inductive FacetLogic
  | and | or
deriving DecidableEq

/-- `TorrentContentFacet`. -/
inductive TorrentContentFacet
  | contentType | torrentSource | torrentTag | fileType | language | contentGenre | releaseYear
  | videoResolution | videoSource | video3D | videoCodec | videoModifier
deriving DecidableEq

/-- `TorrentContentFacet::key`. -/
def TorrentContentFacet.key : TorrentContentFacet → String
  | contentType => "content_type"
  | torrentSource => "torrent_source"
  | torrentTag => "torrent_tag"
  | fileType => "file_type"
  | language => "language"
  | contentGenre => "content_genre"
  | releaseYear => "release_year"
  | videoResolution => "video_resolution"
  | videoSource => "video_source"
  | video3D => "video_3d"
  | videoCodec => "video_codec"
  | videoModifier => "video_modifier"

/-- `FacetRequest`, without the flag that asks for counts. -/
structure FacetRequest where
  facet : TorrentContentFacet
  logic : Option FacetLogic
  filter : List String

/-- `OrderDirection`. -/
inductive OrderDirection
  | ascending | descending
deriving DecidableEq

/-- `TorrentContentOrderField`. -/
inductive OrderField
  | relevance | publishedAt | updatedAt | size | filesCount | seeders | leechers | name | infoHash
deriving DecidableEq

/-- `{:?}` of the order field. -/
def OrderField.debugName : OrderField → String
  | relevance => "Relevance"
  | publishedAt => "PublishedAt"
  | updatedAt => "UpdatedAt"
  | size => "Size"
  | filesCount => "FilesCount"
  | seeders => "Seeders"
  | leechers => "Leechers"
  | name => "Name"
  | infoHash => "InfoHash"

/-- `TorrentContentOrder`. -/
structure TorrentContentOrder where
  field : OrderField
  direction : OrderDirection

/-- `SearchOptions`, without what only the execution reads. -/
structure SearchOptions where
  query : Option String
  filter : Option Criteria
  order : List TorrentContentOrder
  facets : List FacetRequest
  limit : Option UInt32
  offset : UInt32
  hasNextPage : Bool

/-- `TorznabSearchParams`. -/
structure TorznabSearchParams where
  query : Option String
  filter : Option Criteria
  order : Option TorrentContentOrder
  limit : UInt32
  offset : Option UInt32

/-! ## Facet filters -/

/-- `default_logic`. -/
def defaultLogic : TorrentContentFacet → FacetLogic
  | .torrentTag | .contentGenre | .fileType => .and
  | _ => .or

/-- `effective_logic`. -/
def effectiveLogic (request : FacetRequest) : FacetLogic :=
  request.logic.getD (defaultLogic request.facet)

/-- `invalid_facet_value`. -/
def invalidFacetValue (env : BuildEnv) (facet : TorrentContentFacet) (value : String) : String :=
  "invalid " ++ facet.key ++ " facet value: " ++ env.debug value

/-- The parsers that are a table of names. -/
def parseNamed {α : Type} (facet : TorrentContentFacet) (names : List (String × α))
    (env : BuildEnv) (value : String) : Except String α :=
  match names.lookup value with
  | some parsed => .ok parsed
  | none => .error (invalidFacetValue env facet value)

/-- `parse_content_type`. -/
def parseContentType : BuildEnv → String → Except String ContentType :=
  parseNamed .contentType [("movie", .movie), ("tv_show", .tvShow), ("music", .music),
    ("ebook", .ebook), ("comic", .comic), ("audiobook", .audiobook), ("game", .game),
    ("software", .software), ("xxx", .xxx)]

/-- `parse_file_type`. -/
def parseFileType : BuildEnv → String → Except String FileType :=
  parseNamed .fileType [("archive", .archive), ("audio", .audio), ("data", .data),
    ("document", .document), ("image", .image), ("software", .software),
    ("subtitles", .subtitles), ("video", .video)]

/-- `parse_video_resolution`. -/
def parseVideoResolution : BuildEnv → String → Except String VideoResolution :=
  parseNamed .videoResolution [("V360p", .v360p), ("V480p", .v480p), ("V540p", .v540p),
    ("V576p", .v576p), ("V720p", .v720p), ("V1080p", .v1080p), ("V1440p", .v1440p),
    ("V2160p", .v2160p), ("V4320p", .v4320p)]

/-- `parse_video_source`. -/
def parseVideoSource : BuildEnv → String → Except String VideoSource :=
  parseNamed .videoSource [("CAM", .cam), ("TELESYNC", .telesync), ("TELECINE", .telecine),
    ("WORKPRINT", .workprint), ("DVD", .dvd), ("TV", .tv), ("WEBDL", .webDl), ("WEBRip", .webRip),
    ("BluRay", .bluRay)]

/-- `parse_video_3d`. -/
def parseVideo3D : BuildEnv → String → Except String Video3D :=
  parseNamed .video3D [("V3D", .v3d), ("V3DSBS", .v3dsbs), ("V3DOU", .v3dou)]

/-- `parse_video_codec`. -/
def parseVideoCodec : BuildEnv → String → Except String VideoCodec :=
  parseNamed .videoCodec [("H264", .h264), ("x264", .x264), ("x265", .x265), ("XviD", .xviD),
    ("DivX", .divX), ("MPEG2", .mpeg2), ("MPEG4", .mpeg4)]

/-- `parse_video_modifier`. -/
def parseVideoModifier : BuildEnv → String → Except String VideoModifier :=
  parseNamed .videoModifier [("REGIONAL", .regional), ("SCREENER", .screener), ("RAWHD", .rawHd),
    ("BRDISK", .brDisk), ("REMUX", .remux)]

/-- `str::parse::<u16>`: digits, with a plus sign before them or not. -/
def parseU16 (value : String) : Option UInt16 :=
  let digits := match value.toList with
    | '+' :: digits => digits
    | digits => digits
  let number := Nat.ofDigitChars 10 digits 0
  if digits ≠ [] ∧ digits.all Char.isDigit ∧ number < 65536 then some number.toUInt16 else none

/-- `parse_release_year`. -/
def parseReleaseYear (env : BuildEnv) (value : String) : Except String UInt16 :=
  match (parseU16 value).filter (fun year => 1000 ≤ year && year ≤ 9999) with
  | some year => .ok year
  | none => .error (invalidFacetValue env .releaseYear value)

/-- `genre_ref`. -/
def genreRef (value : String) : Option ContentCollectionRef :=
  match value.toList.splitOn ':' with
  | [source, id] => some ⟨some "genre", .ofList source, .ofList id⟩
  | _ => none

/-- `nullable_or_criteria`. -/
def nullableOrCriteria (nonNull : Option Criteria) (hasNull : Bool)
    (attr : TorrentContentAttribute) : Criteria :=
  if hasNull then .or (nonNull.toList ++ [.isNull attr]) else nonNull.getD (.and [])

/-- The arms of `facet_criteria` for columns that can be null. -/
def nullableFacet {α : Type} (parse : BuildEnv → String → Except String α)
    (among : List α → Criteria) (attr : TorrentContentAttribute) (env : BuildEnv)
    (filter : List String) : Except String Criteria :=
  ((filter.filter (· ≠ "null")).mapM (parse env)).map fun values =>
    nullableOrCriteria (if values.isEmpty then none else some (among values))
      (filter.contains "null") attr

/-- The arms of `facet_value_criterion` for columns that can be null. -/
def nullableValue {α : Type} (parse : BuildEnv → String → Except String α)
    (among : List α → Criteria) (attr : TorrentContentAttribute) (env : BuildEnv)
    (value : String) : Except String (Option Criteria) :=
  if value = "null" then .ok (some (.isNull attr))
  else (parse env value).map fun parsed => some (among [parsed])

/-- `facet_value_criterion`. -/
def facetValueCriterion (env : BuildEnv) (facet : TorrentContentFacet) (value : String) :
    Except String (Option Criteria) :=
  match facet with
  | .contentType => nullableValue parseContentType .contentTypeIn .contentType env value
  | .torrentSource => .ok (some (.torrentSourceIn [value]))
  | .torrentTag => .ok (some (.torrentTag [value]))
  | .fileType => (parseFileType env value).map fun parsed => some (.torrentFileTypeIn [parsed])
  | .language => .ok (some (.languageIn [value]))
  | .contentGenre => .ok ((genreRef value).map fun ref => .contentGenre [ref])
  | .releaseYear => nullableValue parseReleaseYear .releaseYearIn .releaseYear env value
  | .videoResolution =>
    nullableValue parseVideoResolution .videoResolutionIn .videoResolution env value
  | .videoSource => nullableValue parseVideoSource .videoSourceIn .videoSource env value
  | .video3D => nullableValue parseVideo3D .video3DIn .video3D env value
  | .videoCodec => nullableValue parseVideoCodec .videoCodecIn .videoCodec env value
  | .videoModifier => nullableValue parseVideoModifier .videoModifierIn .videoModifier env value

/-- `facet_criteria`. -/
def facetCriteria (env : BuildEnv) (request : FacetRequest) : Except String Criteria :=
  let filter := request.filter
  if filter.isEmpty then .ok (.and [])
  else if effectiveLogic request = .and then
    (filter.mapM (facetValueCriterion env request.facet)).map fun criteria =>
      .and (criteria.filterMap id)
  else
    match request.facet with
    | .contentType => nullableFacet parseContentType .contentTypeIn .contentType env filter
    | .torrentSource => .ok (.torrentSourceIn filter)
    | .torrentTag => .ok (.or (filter.map fun value => .torrentTag [value]))
    | .fileType => (filter.mapM (parseFileType env)).map .torrentFileTypeIn
    | .language => .ok (.languageIn filter)
    | .contentGenre =>
      let refs := filter.filterMap genreRef
      .ok (if refs.isEmpty then .and [] else .contentGenre refs)
    | .releaseYear => nullableFacet parseReleaseYear .releaseYearIn .releaseYear env filter
    | .videoResolution =>
      nullableFacet parseVideoResolution .videoResolutionIn .videoResolution env filter
    | .videoSource => nullableFacet parseVideoSource .videoSourceIn .videoSource env filter
    | .video3D => nullableFacet parseVideo3D .video3DIn .video3D env filter
    | .videoCodec => nullableFacet parseVideoCodec .videoCodecIn .videoCodec env filter
    | .videoModifier => nullableFacet parseVideoModifier .videoModifierIn .videoModifier env filter

/-! ## The base query -/

/-- `BASE_SELECT` and `INFO_HASH_SELECT`. -/
def baseSelect : String := "SELECT torrent_contents.info_hash\nFROM torrent_contents"

/-- `INNER_JOIN_TORRENTS`. -/
def innerJoinTorrents : String :=
  "\nINNER JOIN torrents ON torrent_contents.info_hash = torrents.info_hash"

/-- `LEFT_JOIN_CONTENT`. -/
def leftJoinContent : String :=
  "\nLEFT JOIN content ON torrent_contents.content_type = content.type AND torrent_contents.content_source = content.source AND torrent_contents.content_id = content.id"

/-- `RequiredJoins::append_sql`. -/
def RequiredJoins.appendSql (joins : RequiredJoins) (sql : String) : String :=
  let sql := if joins.torrents then sql ++ innerJoinTorrents else sql
  if joins.content then sql ++ leftJoinContent else sql

/-- The variables of `build_base_query` and `build_query`. -/
structure Draft where
  joins : RequiredJoins
  conditions : List String
  state : BuildState

/-- The full-text condition, when there is a query. -/
def Draft.addQuery (env : BuildEnv) (query : Option String) (draft : Draft) : Draft :=
  match query.filter (fun query => !query.isEmpty) with
  | none => draft
  | some query =>
    let placeholder := draft.state.pushBind (.tsquery (env.toTsquery query))
    { draft with
      conditions := draft.conditions ++
        ["torrent_contents.tsv @@ " ++ placeholder.1 ++ "::tsquery"]
      state := placeholder.2 }

/-- A condition from a tree, with the joins that some trees ask for. -/
def Draft.addCriteria (env : BuildEnv) (asking : List Criteria) (criteria : Criteria)
    (draft : Draft) : Except String Draft :=
  (criteriaSql env.toCriteriaCtx criteria draft.state).map fun condition =>
    { joins := asking.foldl (fun joins asked => joins.extend (.fromCriteria asked)) draft.joins
      conditions := draft.conditions ++ [condition.1]
      state := condition.2 }

/-- A condition from a tree that is there or not. -/
def Draft.addOptional (env : BuildEnv) (criteria : Option Criteria) (draft : Draft) :
    Except String Draft :=
  match criteria with
  | none => .ok draft
  | some criteria => draft.addCriteria env [criteria] criteria

/-- The select with its joins and conditions. -/
def Draft.sql (draft : Draft) : String :=
  let sql := draft.joins.appendSql baseSelect
  if draft.conditions.isEmpty then sql
  else sql ++ "\nWHERE " ++ "\n  AND ".intercalate draft.conditions

/-- The facet filters that `build_base_query` keeps. -/
def crossFacet (env : BuildEnv) (currentFacet : Option String) (facets : List FacetRequest) :
    Except String (List Criteria) :=
  ((facets.filter fun request => !request.filter.isEmpty).filter fun request =>
    !(effectiveLogic request = .or && currentFacet = some request.facet.key)).mapM
      (facetCriteria env)

/-- Their condition. -/
def Draft.addFacets (env : BuildEnv) (crossFacet : List Criteria) (draft : Draft) :
    Except String Draft :=
  if crossFacet.isEmpty then .ok draft else draft.addCriteria env crossFacet (.and crossFacet)

/-- `build_base_query`. -/
def buildBaseQuery (env : BuildEnv) (options : SearchOptions) (currentFacet : Option String)
    (extra : Option Criteria) (requireTorrentsForOrder : Bool) (state : BuildState) :
    Except String (String × BuildState) := do
  let draft : Draft := ⟨⟨requireTorrentsForOrder, false⟩, [], state⟩
  let draft := draft.addQuery env options.query
  let draft ← draft.addOptional env options.filter
  let crossFacet ← crossFacet env currentFacet options.facets
  let draft ← draft.addFacets env crossFacet
  let draft ← draft.addOptional env extra
  return (draft.sql, draft.state)

/-! ## The Torznab query -/

/-- `direction_sql`. -/
def directionSql : OrderDirection → String
  | .ascending => "ASC"
  | .descending => "DESC"

/-- The expression of relevance. -/
def rankSql : Option String → String
  | some placeholder => "ts_rank_cd(torrent_contents.tsv, " ++ placeholder ++ "::tsquery)"
  | none => "0::bigint"

/-- The order of `build_query`. -/
def torznabOrderSql (tsquery : Option String) : Option TorrentContentOrder → Except String String
  | none => .ok "torrent_contents.published_at DESC"
  | some order =>
    let direction := directionSql order.direction
    match order.field with
    | .relevance => .ok (rankSql tsquery ++ " " ++ direction)
    | .publishedAt =>
      .ok ("torrent_contents.published_at " ++ direction ++
        ", torrent_contents.info_hash " ++ direction)
    | field =>
      .error ("order field not yet supported by build_query: " ++ field.debugName ++
        " (Lane S S4)")

/-- A clause of the window of a statement, when it is asked for. -/
def windowClause (keyword : String) : Option Nat → String
  | some value => keyword ++ toString value
  | none => ""

/-- The window of a statement. -/
def windowSql (limit offset : Option Nat) : String :=
  windowClause "\nLIMIT " limit ++ windowClause "\nOFFSET " offset

/-- `build_query`, which is made with the default configuration. -/
def buildQuery (env : BuildEnv) (params : TorznabSearchParams) :
    Except String (String × BuildState) := do
  let env : BuildEnv := { env with fileExtensionsJsonb := false }
  let draft := Draft.addQuery env params.query ⟨{}, [], {}⟩
  let tsquery := (params.query.filter fun query => !query.isEmpty).map fun query =>
    (BuildState.pushBind {} (.tsquery (env.toTsquery query))).1
  let draft ← draft.addOptional env params.filter
  let order ← torznabOrderSql tsquery params.order
  return (draft.sql ++ "\nORDER BY " ++ order ++
    windowSql (some params.limit.toNat) (params.offset.map (·.toNat)), draft.state)

/-! ## The GraphQL query -/

/-- `str::replacen` with a count of one. -/
def replaceFirst (pattern new : List Char) : List Char → List Char
  | [] => if pattern = [] then new else []
  | c :: cs =>
    if pattern.isPrefixOf (c :: cs) then new ++ (c :: cs).drop pattern.length
    else c :: replaceFirst pattern new cs

/-- `effective_orders`: the first insertion fixes the place, a later one replaces the direction. -/
def insertOrder (order : TorrentContentOrder) :
    List TorrentContentOrder → List TorrentContentOrder
  | [] => [order]
  | existing :: orders =>
    if existing.field = order.field then
      { existing with direction := order.direction } :: orders
    else existing :: insertOrder order orders

/-- `effective_orders`. -/
def effectiveOrders (env : BuildEnv) (options : SearchOptions) : List TorrentContentOrder :=
  let hasQuery := options.query.any fun query => !query.isEmpty
  let orders := (options.order.filter fun order =>
    !(order.field = .relevance && !hasQuery)).foldl (fun orders order => insertOrder order orders) []
  match orders with
  | [order] =>
    if env.popularitySortDefault && hasQuery && order.field = .relevance then
      [⟨.seeders, .descending⟩]
    else orders
  | _ => orders

/-- `OrderClause`. -/
structure OrderClause where
  expression : String
  direction : OrderDirection

/-- The main expression in `order_clauses`. -/
def orderExpression (tsquery : Option String) : OrderField → String
  | .relevance => rankSql tsquery
  | .publishedAt => "torrent_contents.published_at"
  | .updatedAt => "torrent_contents.updated_at"
  | .size => "torrent_contents.size"
  | .filesCount => "COALESCE(torrent_contents.files_count, 0)"
  | .seeders => "coalesce(torrent_contents.seeders, -1)"
  | .leechers => "coalesce(torrent_contents.leechers, -1)"
  | .name => "torrents.name"
  | .infoHash => "torrent_contents.info_hash"

/-- The fields whose ties the hash breaks. -/
def breaksTies : OrderField → Bool
  | .publishedAt | .updatedAt | .size | .filesCount | .seeders | .leechers => true
  | .relevance | .name | .infoHash => false

/-- `order_clauses`. -/
def orderClauses (tsquery : Option String) (order : TorrentContentOrder) : List OrderClause :=
  ⟨orderExpression tsquery order.field, order.direction⟩ ::
    if breaksTies order.field then [⟨"torrent_contents.info_hash", order.direction⟩] else []

/-- The projections that the select gets for its order. -/
def selectOrders : Nat → List OrderClause → String
  | _, [] => ""
  | index, clause :: clauses =>
    ",\n       " ++ clause.expression ++ " AS _order_" ++ toString index ++
      selectOrders (index + 1) clauses

/-- The items of `ORDER BY`. -/
def orderItems (clauses : List OrderClause) : List String :=
  clauses.zipIdx.map fun (clause, index) =>
    "_order_" ++ toString index ++ " " ++ directionSql clause.direction

/-- The place of the first full-text bind. -/
def tsqueryIndex (binds : List Bind) : Option Nat :=
  binds.findIdx? fun
    | .tsquery _ => true
    | _ => false

/-- `build_search_query_at`. -/
def buildSearchQueryAt (env : BuildEnv) (options : SearchOptions) :
    Except String (String × BuildState) := do
  let orders := effectiveOrders env options
  let requireTorrentsForOrder := orders.any fun order => order.field = .name
  let base ← buildBaseQuery env options none none requireTorrentsForOrder {}
  let tsquery := (tsqueryIndex base.2.binds).map fun index => "$" ++ toString (index + 1)
  let clauses :=
    if orders.isEmpty then [⟨"torrent_contents.published_at", .descending⟩]
    else orders.flatMap (orderClauses tsquery)
  let select := "SELECT torrent_contents.info_hash" ++ selectOrders 0 clauses ++
    "\nFROM torrent_contents"
  let sql := String.ofList (replaceFirst baseSelect.toList select.toList base.1.toList)
  return (sql ++ "\nORDER BY " ++ ", ".intercalate (orderItems clauses) ++
    windowSql (options.limit.map fun limit => limit.toNat + options.hasNextPage.toNat)
      (if 0 < options.offset then some options.offset.toNat else none), base.2)

end Bitmagnet.SearchQuery
