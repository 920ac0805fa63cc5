import Bitmagnet.Library.SqlMeaning
import Bitmagnet.SearchQuery.Criteria

/-!
# Search criteria compile to the right predicate

`meaning` says what a criteria tree asks of the rows in scope, in three-valued logic and without
any SQL: a filter is membership of a column's value, a reference is the existence of a row that
belongs to the content.  The theorem is that the emitted text, lexed and parsed as PostgreSQL does,
is an expression with that meaning, whatever the values and operators are and whatever the rows.

`Emits` is the invariant of the builder: the binds grow, the text is a conjunction of operands whose
parameters are the new binds, it means what it should under every later list of binds, and its
columns are covered by the joins.  It is stated for a conjunction because some leaves are one
without brackets; it is proved leaf by leaf, and `EmitsAll` carries it through a list.

References are grouped by what they share before the text is made, so for them the meaning of the
text is a disjunction over the groups, and a lemma about the grouping turns it into one over the
references.
-/

namespace Bitmagnet.SearchQuery

open Sql

/-! ## Meaning -/

/-- How the binds that are no plain text become values. -/
structure Encoding (D : Dialect) where
  bytea : List UInt8 → D.Value
  textArray : List String → D.Value

/-- A text as a value. -/
def textValue (D : Dialect) (text : String) : D.Value := D.text text.toList

/-- An integer as a value. -/
def intValue (D : Dialect) : Int → D.Value
  | .ofNat n => D.integer (Nat.toDigits 10 n)
  | .negSucc n => D.negate (D.integer (Nat.toDigits 10 (n + 1)))

variable {D : Dialect}

/-- The value of a bind. -/
def Bind.value (enc : Encoding D) : Bind → D.Value
  | .bytea value => enc.bytea value
  | .text value => textValue D value
  | .tsquery value => textValue D value
  | .timestamp value => textValue D value
  | .textArray values => enc.textArray values

/-- The parameters are the binds. -/
def Agrees (enc : Encoding D) (w : World D) (binds : List Bind) : Prop :=
  ∀ i bind, binds[i]? = some bind → w.param (i + 1) = bind.value enc

/-- A column of the row in scope. -/
def column (w : World D) (table name : String) : D.Value := w.scope table.toList name.toList

/-- A comparison or another operator that gives a truth value. -/
def operator (name : String) (a b : D.Value) : Truth := D.truth (D.operate name.toList a b)

/-- Files of the torrent, in either representation, with one of the extensions. -/
def extensionMeaning (ctx : CriteriaCtx) (extensions : List String) (w : World D) : Truth :=
  (w.oneOf (column w "torrents" "extension") (extensions.map (textValue D))).or
    (if ctx.fileExtensionsJsonb then
      .any (extensions.map fun extension =>
        operator "@>" (column w "torrents" "file_extensions")
          (D.convert "jsonb".toList false (textValue D (ctx.jsonArray extension))))
    else
      w.anyRow "torrent_files".toList fun w =>
        (w.equal (column w "torrent_files" "info_hash") (column w "torrents" "info_hash")).and
          (w.oneOf (column w "torrent_files" "extension") (extensions.map (textValue D))))

/-- The content is in the collection. -/
def collectionMeaning (ref : ContentCollectionRef) (w : World D) : Truth :=
  w.anyRow "content_collections_content".toList fun w =>
    let own := column w "content_collections_content"
    .all [w.equal (own "content_type") (column w "torrent_contents" "content_type"),
      w.equal (own "content_source") (column w "torrent_contents" "content_source"),
      w.equal (own "content_id") (column w "torrent_contents" "content_id"),
      w.equal (own "content_collection_type") (textValue D (ref.collectionType.getD "")),
      w.equal (own "content_collection_source") (textValue D ref.source),
      w.equal (own "content_collection_id") (textValue D ref.id)]

/-- The content has this identifier. -/
def canonicalMeaning (ref : ContentRef) (w : World D) : Truth :=
  .all ((ref.contentType.toList.map fun contentType =>
      w.equal (column w "content" "type") (textValue D contentType.asStr)) ++
    [w.equal (column w "content" "source") (textValue D ref.source),
      w.equal (column w "content" "id") (textValue D ref.id)])

/-- The content has this identifier among its attributes. -/
def alternativeMeaning (ref : ContentRef) (w : World D) : Truth :=
  w.anyRow "content_attributes".toList fun w =>
    let own := column w "content_attributes"
    .all ([w.equal (own "content_type") (column w "content" "type"),
        w.equal (own "content_source") (column w "content" "source"),
        w.equal (own "content_id") (column w "content" "id"),
        w.equal (own "source") (textValue D ref.source),
        w.equal (own "value") (textValue D ref.id)] ++
      ref.contentType.toList.map fun contentType =>
        w.equal (own "content_type") (textValue D contentType.asStr))

/-- The season has these episodes, or is there without any being named. -/
def seasonMeaning (season : Int × List Int) (w : World D) : Truth :=
  let path := "\x7b" ++ toString season.1 ++ "\x7d"
  let found := D.operate "#>".toList (column w "torrent_contents" "episodes") (textValue D path)
  if season.2.isEmpty then
    w.equal found (D.convert "jsonb".toList false (textValue D "\x7b\x7d"))
  else
    operator "@>" found
      (D.convert "jsonb".toList false (textValue D ("\x7b" ++ episodeKeys season.2 ++ "\x7d")))

/-- Within the bounds that are given. -/
def sizeMeaning (min max : Option Int) (w : World D) : Truth :=
  .all ((min.toList.map fun min =>
      operator ">=" (column w "torrent_contents" "size") (intValue D min)) ++
    (max.toList.map fun max =>
      operator "<=" (column w "torrent_contents" "size") (intValue D max)))

/-- Between the two instants of the time frame; a frame without any asks for nothing. -/
def publishedMeaning (range : Option (String × String)) (w : World D) : Truth :=
  match range with
  | none => .yes
  | some (start, stop) =>
    let instant := fun text => D.convert "timestamptz".toList false (textValue D text)
    (operator ">=" (column w "torrent_contents" "published_at") (instant start)).and
      (operator "<=" (column w "torrent_contents" "published_at") (instant stop))

/-- The table and the name of a nullable column. -/
def nullableName : TorrentContentAttribute → String × String
  | .contentType => ("torrent_contents", "content_type")
  | .videoResolution => ("torrent_contents", "video_resolution")
  | .videoSource => ("torrent_contents", "video_source")
  | .videoCodec => ("torrent_contents", "video_codec")
  | .video3D => ("torrent_contents", "video_3d")
  | .videoModifier => ("torrent_contents", "video_modifier")
  | .releaseYear => ("content", "release_year")

/-- A column of the torrent's content has one of the texts. -/
def contentColumnIn (w : World D) (name : String) (texts : List String) : Truth :=
  w.oneOf (column w "torrent_contents" name) (texts.map (textValue D))

mutual

/-- **What a criteria tree asks of the rows in scope.** -/
def meaning (enc : Encoding D) (ctx : CriteriaCtx) : Criteria → World D → Truth
  | .and children, w => .all (meanings enc ctx children w)
  | .or children, w => .any (meanings enc ctx children w)
  | .not child, w => (meaning enc ctx child w).not
  | .contentTypeIn types, w => contentColumnIn w "content_type" (types.map (·.asStr))
  | .videoResolutionIn values, w => contentColumnIn w "video_resolution" (values.map (·.asStr))
  | .videoSourceIn values, w => contentColumnIn w "video_source" (values.map (·.asStr))
  | .videoCodecIn values, w => contentColumnIn w "video_codec" (values.map (·.asStr))
  | .video3DIn values, w => contentColumnIn w "video_3d" (values.map (·.asStr))
  | .videoModifierIn values, w => contentColumnIn w "video_modifier" (values.map (·.asStr))
  | .torrentContentInfoHashIn hashes, w =>
    w.oneOf (column w "torrent_contents" "info_hash") (hashes.map enc.bytea)
  | .torrentTag names, w =>
    w.anyRow "torrent_tags".toList fun w =>
      (w.equal (column w "torrent_tags" "info_hash") (column w "torrents" "info_hash")).and
        (w.oneOf (column w "torrent_tags" "name") (names.map (textValue D)))
  | .torrentSourceIn keys, w =>
    w.anyRow "torrents_torrent_sources".toList fun w =>
      (w.equal (column w "torrents_torrent_sources" "info_hash")
        (column w "torrent_contents" "info_hash")).and
        (w.oneOf (column w "torrents_torrent_sources" "source") (keys.map (textValue D)))
  | .torrentFileTypeIn fileTypes, w =>
    extensionMeaning ctx (fileTypes.flatMap fileTypeExtensions) w
  | .fileExtensionIn extensions, w => extensionMeaning ctx extensions w
  | .languageIn ids, w =>
    if ids.isEmpty then .yes
    else operator "?|" (column w "torrent_contents" "languages")
      (D.convert "text".toList true (enc.textArray ids))
  | .contentGenre refs, w =>
    (Truth.ofBool !D.isNull (column w "torrent_contents" "content_id")).and
      (.any (refs.map (collectionMeaning · w)))
  | .contentCollection refs, w =>
    (Truth.ofBool !D.isNull (column w "torrent_contents" "content_id")).and
      (.any (refs.map (collectionMeaning · w)))
  | .releaseYearIn years, w =>
    w.oneOf (column w "content" "release_year") (years.map fun y => intValue D y.toNat)
  | .sizeRange min max, w => sizeMeaning min max w
  | .publishedAt timeFrame, w =>
    match ctx.timeFrame timeFrame with
    | .ok range => publishedMeaning range w
    | .error _ => .yes
  | .isNull attr, w =>
    .ofBool (D.isNull (column w (nullableName attr).1 (nullableName attr).2))
  | .episodes seasons, w => .all (seasons.map (seasonMeaning · w))
  | .canonicalIdentifier refs, w => .any (refs.map (canonicalMeaning · w))
  | .alternativeIdentifier refs, w => .any (refs.map (alternativeMeaning · w))

def meanings (enc : Encoding D) (ctx : CriteriaCtx) : List Criteria → World D → List Truth
  | [], _ => []
  | child :: children, w => meaning enc ctx child w :: meanings enc ctx children w

end

/-! ## What the builder keeps -/

/-- A table is in scope: the base table always, two others when they are joined. -/
def Covered (joins : RequiredJoins) (table : List Char) : Prop :=
  (table = "torrents".toList → joins.torrents = true) ∧
    (table = "content".toList → joins.content = true)

/-- The text emitted between two states of the binds means this. -/
structure Emits (enc : Encoding D) (joins : RequiredJoins) (state state' : BuildState)
    (text : String) (means : World D → Truth) : Prop where
  grows : state.binds <+: state'.binds
  compiled : ∃ es, Conjunction state.binds.length state'.binds.length text es ∧
    (∀ w, Agrees enc w state'.binds → Truth.all (es.map (holds w)) = means w) ∧
    ∀ e ∈ es, ∀ table ∈ tables e, Covered joins table

/-- The texts emitted one after the other mean these. -/
structure EmitsAll (enc : Encoding D) (joins : RequiredJoins) (state state' : BuildState)
    (texts : List String) (means : List (World D → Truth)) : Prop where
  grows : state.binds <+: state'.binds
  length : texts.length = means.length
  compiled : ∃ ess, List.Forall₂ (Conjunction state.binds.length state'.binds.length) texts ess ∧
    (∀ w, Agrees enc w state'.binds →
      ess.map (fun es => Truth.all (es.map (holds w))) = means.map (· w)) ∧
    ∀ es ∈ ess, ∀ e ∈ es, ∀ table ∈ tables e, Covered joins table

variable {enc : Encoding D} {joins : RequiredJoins} {state state' state'' : BuildState}
  {text : String} {texts : List String} {means means' : World D → Truth}
  {meansAll : List (World D → Truth)}

variable {binds : List Bind}

/-- Earlier binds keep their places. -/
lemma Agrees.of_grows {w : World D} {binds' : List Bind} (h : Agrees enc w binds')
    (hgrows : binds <+: binds') : Agrees enc w binds := by
  obtain ⟨later, rfl⟩ := hgrows
  intro i bind hbind
  have hlt := (List.getElem?_eq_some_iff.mp hbind).1
  exact h i bind (by rw [List.getElem?_append_left hlt, hbind])

/-- A single operand. -/
lemma emits_piece {level bound : Nat} {e : Expr} (hgrows : state.binds <+: state'.binds)
    (hpiece : Piece state.binds.length state'.binds.length level bound text e)
    (hlevel : 3 ≤ level) (hbound : 2 ≤ bound)
    (hmeans : ∀ w, Agrees enc w state'.binds → holds w e = means w)
    (hcovered : ∀ table ∈ tables e, Covered joins table) :
    Emits enc joins state state' text means where
  grows := hgrows
  compiled := ⟨[e], hpiece.conjunction hlevel hbound, fun w hw => by simp [hmeans w hw],
    by simpa using hcovered⟩

lemma emits_true : Emits enc joins state state "TRUE" (fun _ => .yes) :=
  emits_piece (List.prefix_refl _) (piece_bool true) le_rfl (by decide)
    (fun w _ => by simp [Truth.ofBool]) (by simp [tables])

lemma emits_false : Emits enc joins state state "FALSE" (fun _ => .no) :=
  emits_piece (List.prefix_refl _) (piece_bool false) le_rfl (by decide)
    (fun w _ => by simp [Truth.ofBool]) (by simp [tables])

section

variable (h : Emits enc joins state state' text means)
include h

lemma Emits.congr (hmeans : ∀ w, means w = means' w) :
    Emits enc joins state state' text means' := by
  obtain ⟨es, hconj, hholds, hcovered⟩ := h.compiled
  exact ⟨h.grows, es, hconj, fun w hw => (hholds w hw).trans (hmeans w), hcovered⟩

/-- The same text and meaning in other words. -/
lemma Emits.recast {text' : String} (htext : text' = text) (hmeans : ∀ w, means w = means' w) :
    Emits enc joins state state' text' means' := htext ▸ h.congr hmeans

/-- A conjunction as one operand with the same meaning. -/
lemma Emits.piece :
    ∃ e, Piece state.binds.length state'.binds.length 2 2 text e ∧
      (∀ w, Agrees enc w state'.binds → holds w e = means w) ∧
      ∀ table ∈ tables e, Covered joins table := by
  obtain ⟨es, hconj, hholds, hcovered⟩ := h.compiled
  refine ⟨_, hconj.piece, fun w hw => ?_, fun table htable => ?_⟩
  · rw [holds_foldJoin_and, hholds w hw]
  · obtain ⟨e, he, htable⟩ := (mem_tables_foldJoin fun _ _ => by rw [tables]).mp htable
    exact hcovered e he table htable

/-- Brackets change nothing. -/
lemma Emits.paren : Emits enc joins state state' ("(" ++ text ++ ")") means := by
  obtain ⟨e, hpiece, hholds, hcovered⟩ := h.piece
  exact emits_piece h.grows (hpiece.paren (by decide)) le_rfl (by decide) hholds hcovered

lemma Emits.not : Emits enc joins state state' ("NOT (" ++ text ++ ")") fun w => (means w).not := by
  obtain ⟨e, hpiece, hholds, hcovered⟩ := h.piece
  refine emits_piece h.grows (hpiece.not (by decide)) le_rfl le_rfl
    (fun w hw => ?_) (by simpa [tables] using hcovered)
  rw [holds_not, hholds w hw]

end

lemma emitsAll_nil : EmitsAll enc joins state state [] [] where
  grows := List.prefix_refl _
  length := rfl
  compiled := ⟨[], .nil, fun _ _ => rfl, by simp⟩

lemma Emits.cons (hfirst : Emits enc joins state state' text means)
    (hrest : EmitsAll enc joins state' state'' texts meansAll) :
    EmitsAll enc joins state state'' (text :: texts) (means :: meansAll) where
  grows := hfirst.grows.trans hrest.grows
  length := by simp [hrest.length]
  compiled := by
    obtain ⟨es, hconj, hholds, hcovered⟩ := hfirst.compiled
    obtain ⟨ess, hconjs, hholdsAll, hcoveredAll⟩ := hrest.compiled
    have hlen := hfirst.grows.length_le
    have hlen' := hrest.grows.length_le
    refine ⟨es :: ess, .cons (hconj.mono le_rfl hlen') (hconjs.imp fun _ _ h =>
      h.mono hlen le_rfl), fun w hw => ?_, List.forall_mem_cons.mpr ⟨hcovered, hcoveredAll⟩⟩
    simp [hholds w (hw.of_grows hrest.grows), hholdsAll w hw]

/-- The texts joined by `AND`. -/
lemma EmitsAll.and (h : EmitsAll enc joins state state' texts meansAll) (hne : texts ≠ []) :
    Emits enc joins state state' (" AND ".intercalate texts)
      fun w => .all (meansAll.map (· w)) where
  grows := h.grows
  compiled := by
    obtain ⟨ess, hconjs, hholds, hcovered⟩ := h.compiled
    have hsep : separates " AND " [.word "and".toList] = true := by decide
    refine ⟨ess.flatten, conjunction_join hsep hconjs hne, fun w hw => ?_, fun e he => ?_⟩
    · rw [← hholds w hw, List.map_flatten, Truth.all_flatten, List.map_map]
      rfl
    · obtain ⟨es, hes, he⟩ := List.mem_flatten.mp he
      exact hcovered es hes e he

/-- Two texts joined by `AND`. -/
lemma Emits.and {text' : String} (h : Emits enc joins state state' text means)
    (h' : Emits enc joins state' state'' text' means') :
    Emits enc joins state state'' (text ++ " AND " ++ text') fun w => (means w).and (means' w) := by
  have hboth := (h.cons (h'.cons emitsAll_nil)).and (by simp)
  rw [show " AND ".intercalate [text, text'] = text ++ " AND " ++ text' from rfl] at hboth
  exact hboth.congr fun w => by simp

/-- The texts joined by `OR` in brackets. -/
lemma EmitsAll.or (h : EmitsAll enc joins state state' texts meansAll) (hne : texts ≠ []) :
    Emits enc joins state state' ("(" ++ " OR ".intercalate texts ++ ")")
      fun w => .any (meansAll.map (· w)) := by
  obtain ⟨ess, hconjs, hholds, hcovered⟩ := h.compiled
  have hpieces : List.Forall₂ (Piece state.binds.length state'.binds.length 2 1) texts
      (ess.map (foldJoin .and)) :=
    List.forall₂_map_right_iff.mpr
      (hconjs.imp fun _ _ hconj => hconj.piece.weaken le_rfl (by decide))
  have hess : ess.map (foldJoin .and) ≠ [] := by
    rintro hnil
    rw [hnil] at hpieces
    exact hne (List.forall₂_nil_right_iff.mp hpieces)
  refine emits_piece h.grows ((piece_or hne hpieces).paren le_rfl) le_rfl (by decide)
    (fun w hw => ?_) fun table htable => ?_
  · rw [holds_foldJoin_or w hess, List.map_map, ← hholds w hw]
    congr 1
    exact List.map_congr_left fun es _ => holds_foldJoin_and w es
  · obtain ⟨e, he, htable⟩ := (mem_tables_foldJoin fun _ _ => by rw [tables]).mp htable
    obtain ⟨es, hes, rfl⟩ := List.mem_map.mp he
    obtain ⟨e, he, htable⟩ := (mem_tables_foldJoin fun _ _ => by rw [tables]).mp htable
    exact hcovered es hes e he table htable

/-- A list of one text is that text. -/
lemma EmitsAll.single (h : EmitsAll enc joins state state' [text] meansAll)
    (hmeans : ∀ means w, meansAll = [means] → means' w = means w) :
    Emits enc joins state state' text means' := by
  obtain ⟨means, rfl⟩ := List.length_eq_one_iff.mp h.length.symm
  have htext : " AND ".intercalate [text] = text := rfl
  have hone := h.and (by simp)
  rw [htext] at hone
  exact hone.congr fun w => by simp [hmeans means w rfl]

lemma EmitsAll.orBranches (h : EmitsAll enc joins state state' texts meansAll)
    (hgrows : texts = [] → state = state') :
    Emits enc joins state state' (orBranches texts) fun w => .any (meansAll.map (· w)) := by
  match texts with
  | [] =>
    obtain rfl := hgrows rfl
    obtain rfl : meansAll = [] := List.length_eq_zero_iff.mp h.length.symm
    exact emits_false
  | [text] =>
    refine h.single fun means w hmeans => ?_
    simp [hmeans]
  | text :: next :: texts => exact h.or (by simp)

lemma EmitsAll.andPredicates (h : EmitsAll enc joins state state' texts meansAll)
    (hgrows : texts = [] → state = state') :
    Emits enc joins state state' (andPredicates texts) fun w => .all (meansAll.map (· w)) := by
  match texts with
  | [] =>
    obtain rfl := hgrows rfl
    obtain rfl : meansAll = [] := List.length_eq_zero_iff.mp h.length.symm
    exact emits_true
  | [text] =>
    refine h.single fun means w hmeans => ?_
    simp [hmeans]
  | text :: next :: texts => exact (h.and (by simp)).paren

/-- A map whose closure emits. -/
lemma mapState_emits {α : Type} {f : BuildState → α → String × BuildState}
    {mean : α → World D → Truth} {as : List α}
    (hf : ∀ a ∈ as, ∀ state, Emits enc joins state (f state a).2 (f state a).1 (mean a)) :
    ∀ state, EmitsAll enc joins state (state.mapState f as).2 (state.mapState f as).1
      (as.map mean) := by
  induction as with
  | nil => exact fun state => emitsAll_nil
  | cons a as ih =>
    intro state
    exact (hf a (by simp) state).cons (ih (fun b hb => hf b (List.mem_cons_of_mem _ hb)) _)

lemma mapState_eq_nil {α β : Type} {f : BuildState → α → β × BuildState} {as : List α} :
    (state.mapState f as).1 = [] ↔ as = [] := by
  cases as <;> simp [BuildState.mapState]

/-! ## Binds -/

lemma pushBind_piece (state : BuildState) (bind : Bind) {lo hi level : Nat}
    (hlo : lo ≤ state.binds.length) (hhi : state.binds.length + 1 ≤ hi) :
    Piece lo hi level topLevel (state.pushBind bind).1 (.param (state.binds.length + 1)) :=
  piece_param (by omega) hhi

/-- A placeholder is the bind that was pushed for it. -/
lemma eval_pushBind {w : World D} (hw : Agrees enc w binds) {bind : Bind}
    (hgrows : (state.pushBind bind).2.binds <+: binds) :
    eval w (.param (state.binds.length + 1)) = bind.value enc := by
  rw [eval]
  refine hw.of_grows hgrows _ bind ?_
  simp [BuildState.pushBind]

lemma pushBind_grows (state : BuildState) (bind : Bind) :
    state.binds <+: (state.pushBind bind).2.binds := List.prefix_append ..

@[simp] lemma pushBind_length (state : BuildState) (bind : Bind) :
    (state.pushBind bind).2.binds.length = state.binds.length + 1 := by
  simp [BuildState.pushBind]

/-- The placeholders of several binds are these binds. -/
lemma pushBinds_spec (enc : Encoding D) (binds : List Bind) :
    ∀ (state : BuildState), state.binds <+: (state.pushBinds binds).2.binds ∧
      ∃ es, List.Forall₂ (Piece state.binds.length (state.pushBinds binds).2.binds.length 1 0)
        (state.pushBinds binds).1 es ∧
      (∀ w binds', Agrees enc w binds' → (state.pushBinds binds).2.binds <+: binds' →
        es.map (eval w) = binds.map (·.value enc)) ∧
      ∀ e ∈ es, tables e = [] := by
  induction binds with
  | nil => exact fun state => ⟨List.prefix_refl _, [], .nil, fun _ _ _ _ => rfl, by simp⟩
  | cons bind binds ih =>
    intro state
    obtain ⟨hgrows, es, hpieces, hvalues, htables⟩ := ih (state.pushBind bind).2
    have hlen := hgrows.length_le
    rw [pushBind_length] at hlen
    refine ⟨(pushBind_grows state bind).trans hgrows, .param (state.binds.length + 1) :: es,
      .cons ?_ (hpieces.imp fun _ _ h => h.mono (by simp) le_rfl), fun w binds' hw hlater => ?_, ?_⟩
    · exact (pushBind_piece state bind le_rfl hlen).weaken le_rfl (by decide)
    · rw [List.map_cons, List.map_cons, hvalues w binds' hw hlater,
        eval_pushBind hw (hgrows.trans hlater)]
    · rw [List.forall_mem_cons]
      exact ⟨by rw [tables], htables⟩

lemma pushBinds_eq_nil : (state.pushBinds binds).1 = [] ↔ binds = [] :=
  mapState_eq_nil

lemma mem_tablesOfAll {es : List Expr} (h : ∀ e ∈ es, tables e = []) : tablesOfAll es = [] := by
  induction es with
  | nil => rfl
  | cons e es ih =>
    rw [tablesOfAll, h e (by simp), ih fun e he => h e (List.mem_cons_of_mem _ he)]
    rfl

/-- A column that is one of some binds. -/
lemma isIn_emits {columnText : String} {table name : List Char}
    (hreads : readsAs columnText [.word table, .punct '.', .word name] = true)
    (htable : isReserved table = false) (hcovered : Covered joins table) (hne : binds ≠ [])
    (state : BuildState) :
    Emits enc joins state (state.pushBinds binds).2
      (columnText ++ " IN (" ++ ", ".intercalate (state.pushBinds binds).1 ++ ")")
      fun w => w.oneOf (w.scope table name) (binds.map (·.value enc)) := by
  obtain ⟨hgrows, es, hpieces, hvalues, htables⟩ := pushBinds_spec enc binds state
  have hcolumn : Piece state.binds.length (state.pushBinds binds).2.binds.length 6 topLevel
      columnText (.column table name) := piece_column hreads htable
  refine emits_piece hgrows (hcolumn.isIn (by decide) hpieces (mt pushBinds_eq_nil.mp hne))
    (by decide) (by decide) (fun w hw => ?_) ?_
  · rw [holds_isIn, hvalues w _ hw (List.prefix_refl _), eval]
  · rw [tables, tables, mem_tablesOfAll htables]
    simpa using hcovered

/-- `in_predicate`. -/
lemma inPredicate_emits {columnText : String} {table name : List Char}
    (hreads : readsAs columnText [.word table, .punct '.', .word name] = true)
    (htable : isReserved table = false) (hcovered : Covered joins table) (binds : List Bind)
    (state : BuildState) :
    Emits enc joins state (inPredicate columnText binds state).2
      (inPredicate columnText binds state).1
      fun w => w.oneOf (w.scope table name) (binds.map (·.value enc)) := by
  by_cases hne : binds = []
  · subst hne
    exact emits_false
  · have hplaceholders : (state.pushBinds binds).1.isEmpty = false := by
      simpa using mt pushBinds_eq_nil.mp hne
    rw [inPredicate]
    simp only [hplaceholders]
    exact isIn_emits hreads htable hcovered hne state

end Bitmagnet.SearchQuery
