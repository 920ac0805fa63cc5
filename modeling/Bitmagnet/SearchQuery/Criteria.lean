import Mathlib.Data.List.Sort

/-!
# Search criteria and their SQL

The model of the predicate builder of `query.rs`: the criteria tree, the binds that are pushed
while the text is built, the text itself, and the joins that the tree asks for.

A list of binds grows at the end and a placeholder is its length after the push, so every function
that pushes takes the state and returns it.  `serde_json::to_string` of a one-element array and
`parse_time_frame` with the two timestamps rendered, which rest on libraries for JSON and the
calendar, are fields of the context; nothing is assumed of them.  A `BTreeMap` is the list of its
entries in the order of the keys.
-/

namespace Bitmagnet.SearchQuery

/-! ## Values -/

/-- `ContentType`. -/
inductive ContentType
  | movie | tvShow | music | ebook | comic | audiobook | game | software | xxx
deriving DecidableEq

/-- `ContentType::as_str`. -/
def ContentType.asStr : ContentType → String
  | movie => "movie"
  | tvShow => "tv_show"
  | music => "music"
  | ebook => "ebook"
  | comic => "comic"
  | audiobook => "audiobook"
  | game => "game"
  | software => "software"
  | xxx => "xxx"

/-- `FileType`. -/
inductive FileType
  | archive | audio | data | document | image | software | subtitles | video
deriving DecidableEq

/-- `file_type_extensions`. -/
def fileTypeExtensions : FileType → List String
  | .archive => ["7z", "bz2", "gz", "iso", "rar", "tar", "zip"]
  | .audio => ["aac", "dsf", "flac", "m4a", "m4b", "mid", "mp3", "ogg", "wav"]
  | .data => ["csv", "json", "xls", "xlsx", "xml"]
  | .document =>
    ["azw", "azw3", "djvu", "doc", "docx", "epub", "htm", "html", "md", "mobi", "nfo", "otf",
      "pdf", "ppt", "pptx", "rtf", "txt"]
  | .image => ["bmp", "dds", "gif", "ico", "jpeg", "jpg", "png", "psd", "svg", "tif", "tiff"]
  | .software =>
    ["apk", "bat", "bin", "deb", "dll", "dmg", "exe", "jar", "lua", "msi", "package", "pkg",
      "rpm", "sh"]
  | .subtitles => ["srt", "sub", "vtt"]
  | .video =>
    ["avi", "flv", "m4v", "mkv", "mov", "mp4", "mpeg", "mpg", "ts", "vob", "wmv"]

/-- `VideoResolution`. -/
inductive VideoResolution
  | v360p | v480p | v540p | v576p | v720p | v1080p | v1440p | v2160p | v4320p
deriving DecidableEq

/-- `VideoResolution::as_str`. -/
def VideoResolution.asStr : VideoResolution → String
  | v360p => "V360p"
  | v480p => "V480p"
  | v540p => "V540p"
  | v576p => "V576p"
  | v720p => "V720p"
  | v1080p => "V1080p"
  | v1440p => "V1440p"
  | v2160p => "V2160p"
  | v4320p => "V4320p"

/-- `VideoSource`. -/
inductive VideoSource
  | cam | telesync | telecine | workprint | dvd | tv | webDl | webRip | bluRay
deriving DecidableEq

/-- `VideoSource::as_str`. -/
def VideoSource.asStr : VideoSource → String
  | cam => "CAM"
  | telesync => "TELESYNC"
  | telecine => "TELECINE"
  | workprint => "WORKPRINT"
  | dvd => "DVD"
  | tv => "TV"
  | webDl => "WEBDL"
  | webRip => "WEBRip"
  | bluRay => "BluRay"

/-- `VideoCodec`. -/
inductive VideoCodec
  | h264 | x264 | x265 | xviD | divX | mpeg2 | mpeg4
deriving DecidableEq

/-- `VideoCodec::as_str`. -/
def VideoCodec.asStr : VideoCodec → String
  | h264 => "H264"
  | x264 => "x264"
  | x265 => "x265"
  | xviD => "XviD"
  | divX => "DivX"
  | mpeg2 => "MPEG2"
  | mpeg4 => "MPEG4"

/-- `Video3D`. -/
inductive Video3D
  | v3d | v3dsbs | v3dou
deriving DecidableEq

/-- `Video3D::as_str`. -/
def Video3D.asStr : Video3D → String
  | v3d => "V3D"
  | v3dsbs => "V3DSBS"
  | v3dou => "V3DOU"

/-- `VideoModifier`. -/
inductive VideoModifier
  | regional | screener | rawHd | brDisk | remux
deriving DecidableEq

/-- `VideoModifier::as_str`. -/
def VideoModifier.asStr : VideoModifier → String
  | regional => "REGIONAL"
  | screener => "SCREENER"
  | rawHd => "RAWHD"
  | brDisk => "BRDISK"
  | remux => "REMUX"

/-- `TorrentContentAttribute`. -/
inductive TorrentContentAttribute
  | contentType | videoResolution | videoSource | videoCodec | video3D | videoModifier | releaseYear
deriving DecidableEq

/-- `ContentRef`. -/
structure ContentRef where
  contentType : Option ContentType
  source : String
  id : String
deriving DecidableEq

/-- `ContentCollectionRef`. -/
structure ContentCollectionRef where
  collectionType : Option String
  source : String
  id : String
deriving DecidableEq

/-- `Criteria`. -/
inductive Criteria
  | and (children : List Criteria)
  | or (children : List Criteria)
  | not (child : Criteria)
  | contentTypeIn (types : List ContentType)
  | torrentSourceIn (keys : List String)
  | torrentFileTypeIn (fileTypes : List FileType)
  | fileExtensionIn (extensions : List String)
  | languageIn (ids : List String)
  | contentGenre (refs : List ContentCollectionRef)
  | contentCollection (refs : List ContentCollectionRef)
  | releaseYearIn (years : List UInt16)
  | videoResolutionIn (values : List VideoResolution)
  | videoSourceIn (values : List VideoSource)
  | videoCodecIn (values : List VideoCodec)
  | video3DIn (values : List Video3D)
  | videoModifierIn (values : List VideoModifier)
  | sizeRange (min max : Option Int)
  | publishedAt (timeFrame : String)
  | torrentContentInfoHashIn (hashes : List (List UInt8))
  | isNull (column : TorrentContentAttribute)
  | episodes (seasons : List (Int × List Int))
  | canonicalIdentifier (refs : List ContentRef)
  | alternativeIdentifier (refs : List ContentRef)
  | torrentTag (names : List String)

/-! ## Binds -/

/-- `Bind`. -/
inductive Bind
  | bytea (value : List UInt8)
  | text (value : String)
  | tsquery (value : String)
  | timestamp (value : String)
  | textArray (values : List String)
deriving DecidableEq

/-- `BuildState`. -/
structure BuildState where
  binds : List Bind := []

namespace BuildState

/-- `push_bind`. -/
def pushBind (state : BuildState) (bind : Bind) : String × BuildState :=
  ("$" ++ toString (state.binds.length + 1), ⟨state.binds ++ [bind]⟩)

/-- A `map` whose closure changes the state. -/
def mapState {α β : Type} (f : BuildState → α → β × BuildState) :
    BuildState → List α → List β × BuildState
  | state, [] => ([], state)
  | state, a :: as =>
    let first := f state a
    let rest := mapState f first.2 as
    (first.1 :: rest.1, rest.2)

/-- A placeholder for each bind. -/
def pushBinds (state : BuildState) (binds : List Bind) : List String × BuildState :=
  state.mapState pushBind binds

end BuildState

/-- `CriteriaCtx`, with the two library functions that the builder calls. -/
structure CriteriaCtx where
  fileExtensionsJsonb : Bool
  /-- `serde_json::to_string(&[extension])`. -/
  jsonArray : String → String
  /-- `parse_time_frame` at the current time, with both ends through `format_timestamp`. -/
  timeFrame : String → Except String (Option (String × String))

/-! ## Leaf predicates -/

/-- `in_predicate`. -/
def inPredicate (column : String) (binds : List Bind) (state : BuildState) :
    String × BuildState :=
  let placeholders := state.pushBinds binds
  if placeholders.1.isEmpty then ("FALSE", placeholders.2)
  else (column ++ " IN (" ++ ", ".intercalate placeholders.1 ++ ")", placeholders.2)

/-- `or_branches`. -/
def orBranches : List String → String
  | [] => "FALSE"
  | [branch] => branch
  | branches => "(" ++ " OR ".intercalate branches ++ ")"

/-- The predicates of `size_range_sql` and `episodes_sql` together. -/
def andPredicates : List String → String
  | [] => "TRUE"
  | [predicate] => predicate
  | predicates => "(" ++ " AND ".intercalate predicates ++ ")"

/-- `EXISTS` over a table that belongs to the row, for one of some keys: the arms of `criteria_sql`
for tags and sources. -/
def keyedExists (head : String) (keys : List String) (state : BuildState) : String × BuildState :=
  if keys.isEmpty then ("FALSE", state)
  else
    let placeholders := state.pushBinds (keys.map .text)
    (head ++ " IN (" ++ ", ".intercalate placeholders.1 ++ "))", placeholders.2)

/-- The tag arm of `criteria_sql`. -/
def torrentTagSql : List String → BuildState → String × BuildState :=
  keyedExists "EXISTS (SELECT 1 FROM torrent_tags WHERE torrent_tags.info_hash = torrents.info_hash AND torrent_tags.name"

/-- The source arm of `criteria_sql`. -/
def torrentSourceSql : List String → BuildState → String × BuildState :=
  keyedExists "EXISTS (SELECT 1 FROM torrents_torrent_sources WHERE torrents_torrent_sources.info_hash = torrent_contents.info_hash AND torrents_torrent_sources.source"

/-- One clause of the JSONB branch of `file_extension_sql`. -/
def jsonbClause (ctx : CriteriaCtx) (state : BuildState) (extension : String) :
    String × BuildState :=
  let placeholder := state.pushBind (.text (ctx.jsonArray extension))
  ("torrents.file_extensions @> " ++ placeholder.1 ++ "::jsonb", placeholder.2)

/-- `file_extension_sql`. -/
def fileExtensionSql (extensions : List String) (ctx : CriteriaCtx) (state : BuildState) :
    String × BuildState :=
  if extensions.isEmpty then ("FALSE", state)
  else
    let singleFile := inPredicate "torrents.extension" (extensions.map .text) state
    let multiFile :=
      if ctx.fileExtensionsJsonb then
        let clauses := singleFile.2.mapState (jsonbClause ctx) extensions
        ("(" ++ " OR ".intercalate clauses.1 ++ ")", clauses.2)
      else
        let predicate := inPredicate "torrent_files.extension" (extensions.map .text) singleFile.2
        ("EXISTS (SELECT 1 FROM torrent_files WHERE torrent_files.info_hash = torrents.info_hash AND " ++ predicate.1 ++ ")", predicate.2)
    ("(" ++ singleFile.1 ++ " OR " ++ multiFile.1 ++ ")", multiFile.2)

/-- `ContentRefGroup` and `ContentCollectionRefGroup`: what the references of a group share. -/
structure RefGroup (κ : Type) where
  key : κ
  ids : List String

/-- One reference in `group_content_refs` and `group_content_collection_refs`. -/
def addRef {κ : Type} [DecidableEq κ] (key : κ) (id : String) :
    List (RefGroup κ) → List (RefGroup κ)
  | [] => [⟨key, [id]⟩]
  | group :: groups =>
    if group.key = key then
      (if id ∈ group.ids then group else { group with ids := group.ids ++ [id] }) :: groups
    else group :: addRef key id groups

/-- `group_content_refs`. -/
def groupContentRefs (refs : List ContentRef) : List (RefGroup (Option ContentType × String)) :=
  refs.foldl (fun groups ref => addRef (ref.contentType, ref.source) ref.id groups) []

/-- `group_content_collection_refs`. -/
def groupContentCollectionRefs (refs : List ContentCollectionRef) :
    List (RefGroup (Option String × String)) :=
  refs.foldl (fun groups ref => addRef (ref.collectionType, ref.source) ref.id groups) []

/-- One branch of `content_collection_sql`. -/
def collectionBranch (state : BuildState) (group : RefGroup (Option String × String)) :
    String × BuildState :=
  let collectionType := state.pushBind (.text (group.key.1.getD ""))
  let source := collectionType.2.pushBind (.text group.key.2)
  let ids := source.2.pushBinds (group.ids.map .text)
  ("EXISTS (SELECT 1 FROM content_collections_content WHERE content_collections_content.content_type = torrent_contents.content_type AND content_collections_content.content_source = torrent_contents.content_source AND content_collections_content.content_id = torrent_contents.content_id AND content_collections_content.content_collection_type = " ++
    collectionType.1 ++ " AND content_collections_content.content_collection_source = " ++
    source.1 ++ " AND content_collections_content.content_collection_id IN (" ++
    ", ".intercalate ids.1 ++ "))", ids.2)

/-- `content_collection_sql`. -/
def contentCollectionSql (refs : List ContentCollectionRef) (state : BuildState) :
    String × BuildState :=
  let branches := state.mapState collectionBranch (groupContentCollectionRefs refs)
  if branches.1.isEmpty then ("FALSE", branches.2)
  else
    ("(torrent_contents.content_id IS NOT NULL AND " ++ orBranches branches.1 ++ ")", branches.2)

/-- One branch of `canonical_identifier_sql`. -/
def canonicalBranch (state : BuildState) (group : RefGroup (Option ContentType × String)) :
    String × BuildState :=
  let typed : List String × BuildState :=
    match group.key.1 with
    | some contentType =>
      let placeholder := state.pushBind (.text contentType.asStr)
      (["content.type = " ++ placeholder.1], placeholder.2)
    | none => ([], state)
  let source := typed.2.pushBind (.text group.key.2)
  let ids := source.2.pushBinds (group.ids.map .text)
  (" AND ".intercalate (typed.1 ++
    ["content.source = " ++ source.1, "content.id IN (" ++ ", ".intercalate ids.1 ++ ")"]), ids.2)

/-- `canonical_identifier_sql`. -/
def canonicalIdentifierSql (refs : List ContentRef) (state : BuildState) : String × BuildState :=
  let branches := state.mapState canonicalBranch (groupContentRefs refs)
  (orBranches branches.1, branches.2)

/-- One branch of `alternative_identifier_sql`. -/
def alternativeBranch (state : BuildState) (group : RefGroup (Option ContentType × String)) :
    String × BuildState :=
  let source := state.pushBind (.text group.key.2)
  let ids := source.2.pushBinds (group.ids.map .text)
  let sql :=
    "EXISTS (SELECT 1 FROM content_attributes WHERE content_attributes.content_type = content.type AND content_attributes.content_source = content.source AND content_attributes.content_id = content.id AND content_attributes.source = " ++
      source.1 ++ " AND content_attributes.value IN (" ++ ", ".intercalate ids.1 ++ ")"
  match group.key.1 with
  | some contentType =>
    let placeholder := ids.2.pushBind (.text contentType.asStr)
    (sql ++ (" AND content_attributes.content_type = " ++ placeholder.1) ++ ")", placeholder.2)
  | none => (sql ++ ")", ids.2)

/-- `alternative_identifier_sql`. -/
def alternativeIdentifierSql (refs : List ContentRef) (state : BuildState) : String × BuildState :=
  let branches := state.mapState alternativeBranch (groupContentRefs refs)
  (orBranches branches.1, branches.2)

/-- `size_range_sql`. -/
def sizeRangeSql (min max : Option Int) : String :=
  andPredicates
    ((min.toList.map fun min => "torrent_contents.size >= " ++ toString min) ++
      (max.toList.map fun max => "torrent_contents.size <= " ++ toString max))

/-- `published_at_sql`. -/
def publishedAtSql (timeFrame : String) (ctx : CriteriaCtx) (state : BuildState) :
    Except String (String × BuildState) :=
  (ctx.timeFrame timeFrame).map fun range =>
    match range with
    | none => ("TRUE", state)
    | some (start, stop) =>
      let first := state.pushBind (.timestamp start)
      let last := first.2.pushBind (.timestamp stop)
      ("(torrent_contents.published_at >= " ++ first.1 ++
        "::timestamptz AND torrent_contents.published_at <= " ++ last.1 ++ "::timestamptz)",
        last.2)

/-- `nullable_column`. -/
def nullableColumn : TorrentContentAttribute → String
  | .contentType => "torrent_contents.content_type"
  | .videoResolution => "torrent_contents.video_resolution"
  | .videoSource => "torrent_contents.video_source"
  | .videoCodec => "torrent_contents.video_codec"
  | .video3D => "torrent_contents.video_3d"
  | .videoModifier => "torrent_contents.video_modifier"
  | .releaseYear => "content.release_year"

/-- `Vec::dedup`: of equal neighbours the first stays. -/
def dedup : List Int → List Int
  | a :: b :: rest => if a = b then dedup (a :: rest) else a :: dedup (b :: rest)
  | short => short
termination_by values => values.length

/-- The episodes of a season as the keys of an object. -/
def episodeKeys (episodes : List Int) : String :=
  ",".intercalate ((dedup (episodes.insertionSort (· ≤ ·))).map fun episode =>
    "\"" ++ toString episode ++ "\":\x7b\x7d")

/-- One season in `episodes_sql`. -/
def seasonSql (season : Int × List Int) : String :=
  if season.2.isEmpty then
    "torrent_contents.episodes #> '\x7b" ++ toString season.1 ++ "\x7d' = '\x7b\x7d'::jsonb"
  else
    "torrent_contents.episodes #> '\x7b" ++ toString season.1 ++ "\x7d' @> '\x7b" ++
      episodeKeys season.2 ++ "\x7d'::jsonb"

/-- `episodes_sql`. -/
def episodesSql (seasons : List (Int × List Int)) : String :=
  andPredicates (seasons.map seasonSql)

/-- The year arm of `criteria_sql`. -/
def releaseYearSql (years : List UInt16) : String :=
  if years.isEmpty then "FALSE"
  else "content.release_year IN (" ++ ", ".intercalate (years.map fun y => toString y.toNat) ++ ")"

/-- The language arm of `criteria_sql`. -/
def languageSql (ids : List String) (state : BuildState) : String × BuildState :=
  if ids.isEmpty then ("TRUE", state)
  else
    let placeholder := state.pushBind (.textArray ids)
    ("torrent_contents.languages ?| " ++ placeholder.1 ++ "::text[]", placeholder.2)

/-! ## The tree -/

mutual

/-- `criteria_sql`. -/
def criteriaSql (ctx : CriteriaCtx) : Criteria → BuildState → Except String (String × BuildState)
  | .and children, state => booleanGroup ctx "AND" "TRUE" children state
  | .or children, state => booleanGroup ctx "OR" "FALSE" children state
  | .not child, state =>
    (criteriaSql ctx child state).map fun r => ("NOT (" ++ r.1 ++ ")", r.2)
  | .contentTypeIn types, state =>
    .ok (inPredicate "torrent_contents.content_type" (types.map (.text ·.asStr)) state)
  | .videoResolutionIn values, state =>
    .ok (inPredicate "torrent_contents.video_resolution" (values.map (.text ·.asStr)) state)
  | .video3DIn values, state =>
    .ok (inPredicate "torrent_contents.video_3d" (values.map (.text ·.asStr)) state)
  | .episodes seasons, state => .ok (episodesSql seasons, state)
  | .canonicalIdentifier refs, state => .ok (canonicalIdentifierSql refs state)
  | .alternativeIdentifier refs, state => .ok (alternativeIdentifierSql refs state)
  | .torrentTag names, state => .ok (torrentTagSql names state)
  | .torrentSourceIn keys, state => .ok (torrentSourceSql keys state)
  | .torrentFileTypeIn fileTypes, state =>
    .ok (fileExtensionSql (fileTypes.flatMap fileTypeExtensions) ctx state)
  | .fileExtensionIn extensions, state => .ok (fileExtensionSql extensions ctx state)
  | .languageIn ids, state => .ok (languageSql ids state)
  | .contentGenre refs, state => .ok (contentCollectionSql refs state)
  | .contentCollection refs, state => .ok (contentCollectionSql refs state)
  | .releaseYearIn years, state => .ok (releaseYearSql years, state)
  | .videoSourceIn values, state =>
    .ok (inPredicate "torrent_contents.video_source" (values.map (.text ·.asStr)) state)
  | .videoCodecIn values, state =>
    .ok (inPredicate "torrent_contents.video_codec" (values.map (.text ·.asStr)) state)
  | .videoModifierIn values, state =>
    .ok (inPredicate "torrent_contents.video_modifier" (values.map (.text ·.asStr)) state)
  | .sizeRange min max, state => .ok (sizeRangeSql min max, state)
  | .publishedAt timeFrame, state => publishedAtSql timeFrame ctx state
  | .torrentContentInfoHashIn hashes, state =>
    .ok (inPredicate "torrent_contents.info_hash" (hashes.map .bytea) state)
  | .isNull column, state => .ok (nullableColumn column ++ " IS NULL", state)

/-- `boolean_group`. -/
def booleanGroup (ctx : CriteriaCtx) (operator empty : String) :
    List Criteria → BuildState → Except String (String × BuildState)
  | [], state => .ok (empty, state)
  | child :: children, state =>
    (criteriaSql ctx child state).bind fun first =>
      (criteriaParts ctx children first.2).map fun rest =>
        ("(" ++ (" " ++ operator ++ " ").intercalate (first.1 :: rest.1) ++ ")", rest.2)

/-- The loop of `boolean_group`. -/
def criteriaParts (ctx : CriteriaCtx) :
    List Criteria → BuildState → Except String (List String × BuildState)
  | [], state => .ok ([], state)
  | child :: children, state =>
    (criteriaSql ctx child state).bind fun first =>
      (criteriaParts ctx children first.2).map fun rest => (first.1 :: rest.1, rest.2)

end

/-! ## Joins -/

/-- `RequiredJoins`. -/
structure RequiredJoins where
  torrents : Bool := false
  content : Bool := false
deriving DecidableEq

/-- `RequiredJoins::extend`. -/
def RequiredJoins.extend (joins other : RequiredJoins) : RequiredJoins where
  torrents := joins.torrents || other.torrents
  content := joins.content || other.content

mutual

/-- `RequiredJoins::visit`. -/
def RequiredJoins.visit (joins : RequiredJoins) : Criteria → RequiredJoins
  | .and children => visitAll joins children
  | .or children => visitAll joins children
  | .not child => joins.visit child
  | .canonicalIdentifier _ => { joins with content := true }
  | .alternativeIdentifier _ => { joins with content := true }
  | .releaseYearIn _ => { joins with content := true }
  | .isNull .releaseYear => { joins with content := true }
  | .torrentTag _ => { joins with torrents := true }
  | .torrentFileTypeIn _ => { joins with torrents := true }
  | .fileExtensionIn _ => { joins with torrents := true }
  | _ => joins

/-- The loop of `visit`. -/
def RequiredJoins.visitAll (joins : RequiredJoins) : List Criteria → RequiredJoins
  | [] => joins
  | child :: children => visitAll (joins.visit child) children

end

/-- `RequiredJoins::from_criteria`. -/
def RequiredJoins.fromCriteria (criteria : Criteria) : RequiredJoins :=
  RequiredJoins.visit {} criteria

end Bitmagnet.SearchQuery
