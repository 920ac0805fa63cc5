import Bitmagnet.SearchQuery.Predicate

/-!
# The leaf predicates

`Yields` is `Emits` for an operand that is a value and no condition: a column, a placeholder, a
constant.  Each format of `query.rs` puts such operands together, so each leaf is settled by the
lemma for its format and by cutting its text at the places where the format has its holes.
-/

namespace Bitmagnet.SearchQuery

open Sql

variable {D : Dialect} {enc : Encoding D} {joins : RequiredJoins}
  {state state' state'' : BuildState} {text : String} {means : World D → Truth}

/-! ## Values -/

/-- The text emitted between two states of the binds is an operand with this value. -/
structure Yields (enc : Encoding D) (joins : RequiredJoins) (state state' : BuildState)
    (level bound : Nat) (text : String) (value : World D → D.Value) : Prop where
  grows : state.binds <+: state'.binds
  compiled : ∃ e, Piece state.binds.length state'.binds.length level bound text e ∧
    (∀ w, Agrees enc w state'.binds → eval w e = value w) ∧
    ∀ table ∈ tables e, Covered joins table

variable {level bound levelA boundA levelB boundB : Nat} {a b : String}
  {value valueA valueB : World D → D.Value}

/-- The text of a column. -/
def isColumn (text table name : String) : Bool :=
  readsAs text [.word table.toList, .punct '.', .word name.toList] && !isReserved table.toList

lemma yields_column (table name : String) (h : isColumn text table name = true)
    (hcovered : Covered joins table.toList) :
    Yields enc joins state state level topLevel text fun w => column w table name := by
  obtain ⟨hreads, hreserved⟩ := Bool.and_eq_true_iff.mp h
  refine ⟨List.prefix_refl _, _, piece_column hreads (by simpa using hreserved),
    fun w _ => by rw [eval, column], fun table htable => ?_⟩
  obtain rfl := List.mem_singleton.mp (by simpa [tables] using htable)
  exact hcovered

lemma yields_bind (state : BuildState) (bind : Bind) :
    Yields enc joins state (state.pushBind bind).2 level topLevel (state.pushBind bind).1
      fun _ => bind.value enc :=
  ⟨pushBind_grows state bind, _, pushBind_piece state bind le_rfl (by simp),
    fun _ hw => eval_pushBind hw (List.prefix_refl _), by simp [tables]⟩

lemma yields_int (i : Int) :
    Yields enc joins state state level 7 (toString i) fun _ => intValue D i := by
  refine ⟨List.prefix_refl _, intExpr i, piece_int i, fun w _ => ?_, fun table htable => ?_⟩
  · cases i <;> simp [intExpr, intValue, eval]
  · cases i <;> simp [intExpr, tables] at htable

/-- A constant in quotes, of a text that has none. -/
lemma yields_string (hquote : '\'' ∉ text.toList) (hdollar : '$' ∉ text.toList) :
    Yields enc joins state state level topLevel ("'" ++ text ++ "'") fun _ => textValue D text := by
  refine ⟨List.prefix_refl _, .string text.toList, ⟨[.string text.toList], ?_,
    operand_string _, sound_of_plain rfl⟩, fun w _ => by rw [eval, textValue], by simp [tables]⟩
  have hdoubled : doubled text.toList = text.toList := by
    refine Eq.trans (List.flatMap_congr fun c hc => ?_) (List.flatMap_singleton' _)
    have hne : c ≠ '\'' := fun h => hquote (h ▸ hc)
    exact if_neg hne
  have hreads := (reads_quoted text.toList).renders (by simp [hdoubled, hdollar]) rfl
  simpa [String.toList_append, hdoubled] using hreads

/-- A conversion, perhaps to an array. -/
lemma Yields.cast (h : Yields enc joins state state' level bound text value) (hbound : 9 ≤ bound)
    (suffix type : String) (array : Bool) (hcalms : calms suffix.toList = true)
    (hreads : readsAs suffix
      (.cast :: .word type.toList :: if array then arrayMark else []) = true) :
    Yields enc joins state state' (min level 9) 9 (text ++ suffix)
      fun w => D.convert type.toList array (value w) := by
  obtain ⟨e, hpiece, hvalue, htables⟩ := h.compiled
  have hplain : (Token.cast :: .word type.toList :: if array then arrayMark else []).all isPlain =
      true := by
    cases array <;> rfl
  exact ⟨h.grows, _, hpiece.suffixed hcalms hreads hplain fun _ hop => hop.cast hbound _ array,
    fun w hw => by rw [eval, hvalue w hw], by rwa [tables]⟩

/-- Two operands and an operator. -/
lemma Yields.binary {j : Joint} (ha : Yields enc joins state state' levelA boundA a valueA)
    (hboundA : j.level ≤ boundA) (hb : Yields enc joins state' state'' levelB boundB b valueB)
    (hlevelB : j.level + 1 ≤ levelB) (hboundB : j.after ≤ boundB) (sep : String) (name : List Char)
    (hsep : separates sep [.op name] = true) (hj : joint? (.op name) = some j) :
    Yields enc joins state state'' (min levelA j.level) j.after (a ++ sep ++ b)
      fun w => D.operate name (valueA w) (valueB w) := by
  obtain ⟨ea, hpieceA, hvalueA, htablesA⟩ := ha.compiled
  obtain ⟨eb, hpieceB, hvalueB, htablesB⟩ := hb.compiled
  refine ⟨ha.grows.trans hb.grows, .binary name ea eb,
    .binary hj (hpieceA.mono le_rfl hb.grows.length_le) hboundA
      (hpieceB.mono ha.grows.length_le le_rfl) hlevelB hboundB hsep,
    fun w hw => ?_, fun table htable => ?_⟩
  · rw [eval, hvalueA w (hw.of_grows hb.grows), hvalueB w hw]
  · rw [tables, List.mem_append] at htable
    exact htable.elim (htablesA table) (htablesB table)

/-- An operand as a condition. -/
lemma Yields.emits (h : Yields enc joins state state' level bound text value)
    (hlevel : 3 ≤ level) (hbound : 2 ≤ bound) :
    Emits enc joins state state' text fun w => D.truth (value w) := by
  obtain ⟨e, hpiece, hvalue, htables⟩ := h.compiled
  exact emits_piece h.grows hpiece hlevel hbound (fun w hw => by rw [holds, hvalue w hw]) htables

/-- A comparison as a condition. -/
lemma Yields.emits_compare (ha : Yields enc joins state state' levelA boundA a valueA)
    (hlevelA : 3 ≤ levelA) (hboundA : 5 ≤ boundA)
    (hb : Yields enc joins state' state'' levelB boundB b valueB) (hlevelB : 6 ≤ levelB)
    (hboundB : 4 ≤ boundB) (sep : String) (name : List Char)
    (hsep : separates sep [.op name] = true) (hname : isComparison name = true) :
    Emits enc joins state state'' (a ++ sep ++ b)
      fun w => D.truth (D.operate name (valueA w) (valueB w)) :=
  (ha.binary (j := .compare name) hboundA hb hlevelB hboundB sep name hsep (if_pos hname)).emits
    (Nat.le_min.mpr ⟨hlevelA, show 3 ≤ 5 by decide⟩) (show 2 ≤ 4 by decide)

/-! ## Formats -/

lemma covered_of_ne {table : String} (htorrents : table ≠ "torrents")
    (hcontent : table ≠ "content") :
    Covered joins table.toList :=
  ⟨fun h => absurd (String.toList_inj.mp h) htorrents,
    fun h => absurd (String.toList_inj.mp h) hcontent⟩

lemma covered_torrents (h : joins.torrents = true) : Covered joins "torrents".toList :=
  ⟨fun _ => h, by simp⟩

lemma covered_content (h : joins.content = true) : Covered joins "content".toList :=
  ⟨by simp, fun _ => h⟩

/-- Two columns compared. -/
lemma emits_equal_column (ta na tb nb : String) (ha : isColumn a ta na = true)
    (hcoveredA : Covered joins ta.toList) (hb : isColumn b tb nb = true)
    (hcoveredB : Covered joins tb.toList) :
    Emits enc joins state state (a ++ " = " ++ b)
      fun w => w.equal (column w ta na) (column w tb nb) := by
  have hleft : Yields enc joins state state 5 topLevel a _ := yields_column _ _ ha hcoveredA
  have hright : Yields enc joins state state 6 topLevel b _ := yields_column _ _ hb hcoveredB
  exact hleft.emits_compare (by decide) (by decide) hright le_rfl (by decide) " = " ['=']
    (by decide) (by decide)

/-- A column compared with a bind. -/
lemma emits_equal_bind (table name : String) (ha : isColumn a table name = true)
    (hcovered : Covered joins table.toList) (state : BuildState) (value : String) :
    Emits enc joins state (state.pushBind (.text value)).2
      (a ++ " = " ++ (state.pushBind (.text value)).1)
      fun w => w.equal (column w table name) (textValue D value) := by
  have hleft : Yields enc joins state state 5 topLevel a _ := yields_column _ _ ha hcovered
  have hright : Yields enc joins state _ 6 topLevel _ _ := yields_bind state (.text value)
  exact hleft.emits_compare (by decide) (by decide) hright le_rfl (by decide) " = " ['=']
    (by decide) (by decide)

lemma emits_isIn (table name : String) (ha : isColumn a table name = true)
    (hcovered : Covered joins table.toList) {values : List String} (hne : values ≠ [])
    (state : BuildState) :
    Emits enc joins state (state.pushBinds (values.map .text)).2
      (a ++ " IN (" ++ ", ".intercalate (state.pushBinds (values.map .text)).1 ++ ")")
      fun w => w.oneOf (column w table name) (values.map (textValue D)) := by
  obtain ⟨hreads, hreserved⟩ := Bool.and_eq_true_iff.mp ha
  refine (isIn_emits hreads (by simpa using hreserved) hcovered (by simpa using hne) state).congr
    fun w => ?_
  rw [List.map_map]
  rfl

/-- A subquery, for whatever its condition asks of its rows. -/
lemma Emits.existsIn (h : Emits enc joins state state' text means) (head table : String)
    (hhead : opensAs head (.word "exists".toList :: existsHead ++
      [.word table.toList, .word "where".toList]) = true) :
    Emits enc joins state state' (head ++ text ++ ")") fun w => w.anyRow table.toList means := by
  obtain ⟨e, hpiece, hholds, htables⟩ := h.piece
  refine emits_piece h.grows (hpiece.existsIn (by decide) hhead) le_rfl (by decide)
    (fun w hw => ?_) (by rwa [tables])
  rw [holds_existsIn, World.anyRow, World.anyRow]
  -- The parameters are the same inside the subquery.
  have hrows : ∀ row, holds (w.inRow table.toList row) e = means (w.inRow table.toList row) :=
    fun row => hholds _ hw
  simp only [hrows]

lemma anyRow_no (w : World D) (table : List Char) : w.anyRow table (fun _ => .no) = .no := by
  have hrows : ((w.rows table).any fun _ => decide (Truth.no = .yes)) = false := by simp
  rw [World.anyRow, hrows]
  rfl

/-- The arms for tags and sources. -/
lemma keyedExists_emits {head : String} (opening equation columnText : String)
    {table name : String} (hhead : head = opening ++ (equation ++ " AND " ++ columnText))
    (hopening : opensAs opening (.word "exists".toList :: existsHead ++
      [.word table.toList, .word "where".toList]) = true)
    (hequation : ∀ state, Emits enc joins state state equation means)
    (hcolumn : isColumn columnText table name = true) (hcovered : Covered joins table.toList)
    (keys : List String) (state : BuildState) :
    Emits enc joins state (keyedExists head keys state).2 (keyedExists head keys state).1
      fun w => w.anyRow table.toList fun w =>
        (means w).and (w.oneOf (column w table name) (keys.map (textValue D))) := by
  by_cases hkeys : keys = []
  · subst hkeys
    refine emits_false.congr fun w => ?_
    simpa [World.oneOf] using (anyRow_no w _).symm
  · have hinner := (hequation state).and (emits_isIn _ _ hcolumn hcovered hkeys state)
    have hclose : "))" = ")" ++ ")" := rfl
    rw [keyedExists, if_neg (by simpa using hkeys), hhead, hclose]
    simpa only [String.append_assoc] using hinner.existsIn _ _ hopening

lemma torrentTagSql_emits (hjoins : joins.torrents = true) (names : List String)
    (state : BuildState) :
    Emits enc joins state (torrentTagSql names state).2 (torrentTagSql names state).1
      fun w => w.anyRow "torrent_tags".toList fun w =>
        (w.equal (column w "torrent_tags" "info_hash") (column w "torrents" "info_hash")).and
          (w.oneOf (column w "torrent_tags" "name") (names.map (textValue D))) :=
  keyedExists_emits "EXISTS (SELECT 1 FROM torrent_tags WHERE "
    ("torrent_tags.info_hash" ++ " = " ++ "torrents.info_hash") "torrent_tags.name"
    (by decide) (by decide)
    (fun _ => emits_equal_column _ _ _ _ (by decide)
      (covered_of_ne (by decide) (by decide)) (by decide) (covered_torrents hjoins))
    (by decide) (covered_of_ne (by decide) (by decide)) names state

lemma torrentSourceSql_emits (keys : List String) (state : BuildState) :
    Emits enc joins state (torrentSourceSql keys state).2 (torrentSourceSql keys state).1
      fun w => w.anyRow "torrents_torrent_sources".toList fun w =>
        (w.equal (column w "torrents_torrent_sources" "info_hash")
          (column w "torrent_contents" "info_hash")).and
          (w.oneOf (column w "torrents_torrent_sources" "source") (keys.map (textValue D))) :=
  keyedExists_emits "EXISTS (SELECT 1 FROM torrents_torrent_sources WHERE "
    ("torrents_torrent_sources.info_hash" ++ " = " ++ "torrent_contents.info_hash")
    "torrents_torrent_sources.source" (by decide +kernel) (by decide)
    (fun _ => emits_equal_column _ _ _ _ (by decide)
      (covered_of_ne (by decide) (by decide)) (by decide)
      (covered_of_ne (by decide) (by decide)))
    (by decide) (covered_of_ne (by decide) (by decide)) keys state

lemma inPredicate_text_emits (table name : String) (ha : isColumn a table name = true)
    (hcovered : Covered joins table.toList) (values : List String) (state : BuildState) :
    Emits enc joins state (inPredicate a (values.map .text) state).2
      (inPredicate a (values.map .text) state).1
      fun w => w.oneOf (column w table name) (values.map (textValue D)) := by
  obtain ⟨hreads, hreserved⟩ := Bool.and_eq_true_iff.mp ha
  refine (inPredicate_emits hreads (by simpa using hreserved) hcovered _ state).congr fun w => ?_
  rw [List.map_map]
  rfl

/-- One clause of the JSONB branch. -/
lemma jsonbClause_emits (ctx : CriteriaCtx) (hjoins : joins.torrents = true) (extension : String)
    (state : BuildState) :
    Emits enc joins state (jsonbClause ctx state extension).2 (jsonbClause ctx state extension).1
      fun w => operator "@>" (column w "torrents" "file_extensions")
        (D.convert "jsonb".toList false (textValue D (ctx.jsonArray extension))) := by
  have hleft : Yields enc joins state state 7 topLevel "torrents.file_extensions" _ :=
    yields_column "torrents" "file_extensions" (by decide) (covered_torrents hjoins)
  have hbind : Yields enc joins state _ 9 topLevel _ _ :=
    yields_bind state (.text (ctx.jsonArray extension))
  have hright := hbind.cast (by decide) "::jsonb" "jsonb" false (by decide) (by decide)
  have hall := (hleft.binary (by decide) hright (by decide) (by decide) " @> " "@>".toList
    (by decide) rfl).emits (by decide) (by decide)
  have hcut : "torrents.file_extensions @> " = "torrents.file_extensions" ++ " @> " := rfl
  unfold jsonbClause
  refine hall.recast ?_ fun w => rfl
  rw [hcut]
  simp only [String.append_assoc]

/-- The multi-file branch over the table of files. -/
lemma torrentFiles_emits (hjoins : joins.torrents = true) (extensions : List String)
    (state : BuildState) :
    Emits enc joins state (inPredicate "torrent_files.extension" (extensions.map .text) state).2
      ("EXISTS (SELECT 1 FROM torrent_files WHERE torrent_files.info_hash = torrents.info_hash AND " ++ (inPredicate "torrent_files.extension" (extensions.map .text) state).1 ++ ")")
      fun w => w.anyRow "torrent_files".toList fun w =>
        (w.equal (column w "torrent_files" "info_hash") (column w "torrents" "info_hash")).and
          (w.oneOf (column w "torrent_files" "extension") (extensions.map (textValue D))) := by
  have hequation : Emits enc joins state state
      ("torrent_files.info_hash" ++ " = " ++ "torrents.info_hash") _ :=
    emits_equal_column "torrent_files" "info_hash" "torrents" "info_hash" (by decide)
      (covered_of_ne (by decide) (by decide)) (by decide) (covered_torrents hjoins)
  have hfiles : Emits enc joins state
      (inPredicate "torrent_files.extension" (extensions.map .text) state).2 _ _ :=
    inPredicate_text_emits "torrent_files" "extension" (by decide)
      (covered_of_ne (by decide) (by decide)) extensions state
  have hall := (hequation.and hfiles).existsIn "EXISTS (SELECT 1 FROM torrent_files WHERE "
    "torrent_files" (by decide)
  have hcut : "EXISTS (SELECT 1 FROM torrent_files WHERE torrent_files.info_hash = torrents.info_hash AND " = "EXISTS (SELECT 1 FROM torrent_files WHERE " ++
        ("torrent_files.info_hash" ++ " = " ++ "torrents.info_hash" ++ " AND ") := by
    decide
  refine hall.recast ?_ fun w => rfl
  rw [hcut]
  simp only [String.append_assoc]

/-- Two texts joined by `OR` in brackets. -/
lemma Emits.or {text' : String} {means' : World D → Truth}
    (h : Emits enc joins state state' text means)
    (h' : Emits enc joins state' state'' text' means') :
    Emits enc joins state state'' ("(" ++ text ++ " OR " ++ text' ++ ")")
      fun w => (means w).or (means' w) := by
  have hboth := (h.cons (h'.cons emitsAll_nil)).or (by simp)
  rw [show " OR ".intercalate [text, text'] = text ++ " OR " ++ text' from rfl] at hboth
  simpa only [String.append_assoc] using hboth.congr fun w => by simp

/-- `file_extension_sql`. -/
lemma fileExtensionSql_emits (ctx : CriteriaCtx) (hjoins : joins.torrents = true)
    (extensions : List String) (state : BuildState) :
    Emits enc joins state (fileExtensionSql extensions ctx state).2
      (fileExtensionSql extensions ctx state).1 (extensionMeaning ctx extensions) := by
  by_cases hne : extensions = []
  · subst hne
    refine emits_false.congr fun w => ?_
    cases hjsonb : ctx.fileExtensionsJsonb with
    | true => simp [extensionMeaning, World.oneOf, hjsonb]
    | false => simpa [extensionMeaning, World.oneOf, hjsonb] using (anyRow_no w _).symm
  · have hsingle : Emits enc joins state
        (inPredicate "torrents.extension" (extensions.map .text) state).2 _ _ :=
      inPredicate_text_emits "torrents" "extension" (by decide) (covered_torrents hjoins)
        extensions state
    rw [fileExtensionSql, if_neg (by simpa using hne)]
    cases hjsonb : ctx.fileExtensionsJsonb with
    | true =>
      have hclauses : EmitsAll enc joins
          (inPredicate "torrents.extension" (extensions.map .text) state).2 _ _
          (extensions.map _) :=
        mapState_emits (fun extension _ state => jsonbClause_emits ctx hjoins extension state) _
      refine (hsingle.or (hclauses.or (mt mapState_eq_nil.mp hne))).congr fun w => ?_
      simp [extensionMeaning, hjsonb, Function.comp_def]
    | false =>
      refine (hsingle.or (torrentFiles_emits hjoins extensions _)).congr fun w => ?_
      simp [extensionMeaning, hjsonb]

/-- The language arm. -/
lemma languageSql_emits (ids : List String) (state : BuildState) :
    Emits enc joins state (languageSql ids state).2 (languageSql ids state).1 fun w =>
      if ids.isEmpty then .yes
      else operator "?|" (column w "torrent_contents" "languages")
        (D.convert "text".toList true (enc.textArray ids)) := by
  by_cases hne : ids = []
  · subst hne
    exact emits_true
  · have hleft : Yields enc joins state state 7 topLevel "torrent_contents.languages" _ :=
      yields_column "torrent_contents" "languages" (by decide)
        (covered_of_ne (by decide) (by decide))
    have hbind : Yields enc joins state _ 9 topLevel _ _ := yields_bind state (.textArray ids)
    have hright := hbind.cast (by decide) "::text[]" "text" true (by decide) (by decide)
    have hall := (hleft.binary (by decide) hright (by decide) (by decide) " ?| " "?|".toList
      (by decide) rfl).emits (by decide) (by decide)
    have hcut : "torrent_contents.languages ?| " = "torrent_contents.languages" ++ " ?| " := rfl
    have hempty : ids.isEmpty = false := by simpa using hne
    simp only [languageSql, hempty, Bool.false_eq_true, if_false]
    refine hall.recast ?_ fun w => rfl
    rw [hcut]
    simp only [String.append_assoc]

/-! ## Ranges, years and seasons -/

/-- Texts that push nothing. -/
lemma map_emits {α : Type} {f : α → String} {mean : α → World D → Truth} {as : List α}
    (hf : ∀ a ∈ as, Emits enc joins state state (f a) (mean a)) :
    EmitsAll enc joins state state (as.map f) (as.map mean) := by
  induction as with
  | nil => exact emitsAll_nil
  | cons a as ih =>
    exact (hf a (by simp)).cons (ih fun b hb => hf b (List.mem_cons_of_mem _ hb))

lemma EmitsAll.append {texts texts' : List String} {meansAll meansAll' : List (World D → Truth)}
    (h : EmitsAll enc joins state state texts meansAll)
    (h' : EmitsAll enc joins state state texts' meansAll') :
    EmitsAll enc joins state state (texts ++ texts') (meansAll ++ meansAll') where
  grows := List.prefix_refl _
  length := by simp [h.length, h'.length]
  compiled := by
    obtain ⟨ess, hconjs, hholds, hcovered⟩ := h.compiled
    obtain ⟨ess', hconjs', hholds', hcovered'⟩ := h'.compiled
    refine ⟨ess ++ ess', List.rel_append hconjs hconjs', fun w hw => ?_, fun es hes => ?_⟩
    · rw [List.map_append, List.map_append, hholds w hw, hholds' w hw]
    · exact (List.mem_append.mp hes).elim (hcovered es) (hcovered' es)

/-- A bound of the size. -/
lemma emits_size {head : String} (sep name : String)
    (hhead : head = "torrent_contents.size" ++ sep) (hsep : separates sep [.op name.toList] = true)
    (hname : isComparison name.toList = true) (i : Int) :
    Emits enc joins state state (head ++ toString i)
      fun w => operator name (column w "torrent_contents" "size") (intValue D i) := by
  have hleft : Yields enc joins state state 5 topLevel "torrent_contents.size" _ :=
    yields_column "torrent_contents" "size" (by decide) (covered_of_ne (by decide) (by decide))
  have hright : Yields enc joins state state 6 7 (toString i) _ := yields_int i
  rw [hhead]
  exact hleft.emits_compare (by decide) (by decide) hright le_rfl (by decide) sep _ hsep hname

/-- `size_range_sql`. -/
lemma sizeRangeSql_emits (min max : Option Int) :
    Emits enc joins state state (sizeRangeSql min max) (sizeMeaning min max) := by
  have hmin : EmitsAll enc joins state state
      (min.toList.map fun i => "torrent_contents.size >= " ++ toString i) (min.toList.map _) :=
    map_emits fun i _ => emits_size " >= " ">=" rfl (by decide) (by decide) i
  have hmax : EmitsAll enc joins state state
      (max.toList.map fun i => "torrent_contents.size <= " ++ toString i) (max.toList.map _) :=
    map_emits fun i _ => emits_size " <= " "<=" rfl (by decide) (by decide) i
  refine ((hmin.append hmax).andPredicates fun _ => rfl).congr fun w => ?_
  simp [sizeMeaning, Function.comp_def]

/-- A bound of the publication time. -/
lemma emits_published (sep name : String) (hsep : separates sep [.op name.toList] = true)
    (hname : isComparison name.toList = true) (state : BuildState) (value : String) :
    Emits enc joins state (state.pushBind (.timestamp value)).2
      ("torrent_contents.published_at" ++ sep ++
        ((state.pushBind (.timestamp value)).1 ++ "::timestamptz"))
      fun w => operator name (column w "torrent_contents" "published_at")
        (D.convert "timestamptz".toList false (textValue D value)) := by
  have hleft : Yields enc joins state state 5 topLevel "torrent_contents.published_at" _ :=
    yields_column "torrent_contents" "published_at" (by decide)
      (covered_of_ne (by decide) (by decide))
  have hbind : Yields enc joins state _ 9 topLevel _ _ := yields_bind state (.timestamp value)
  have hright := hbind.cast (by decide) "::timestamptz" "timestamptz" false (by decide) (by decide)
  exact hleft.emits_compare (by decide) (by decide) hright (by decide) (by decide) sep _ hsep hname

/-- `published_at_sql`. -/
lemma publishedAtSql_emits {ctx : CriteriaCtx} {timeFrame : String}
    (h : publishedAtSql timeFrame ctx state = .ok (text, state')) :
    Emits enc joins state state' text fun w =>
      match ctx.timeFrame timeFrame with
      | .ok range => publishedMeaning range w
      | .error _ => .yes := by
  rw [publishedAtSql] at h
  cases hrange : ctx.timeFrame timeFrame with
  | error reason =>
    rw [hrange] at h
    cases h
  | ok range =>
    rw [hrange] at h
    cases range with
    | none =>
      cases h
      exact emits_true
    | some range =>
      obtain ⟨start, stop⟩ := range
      cases h
      have hfirst : Emits enc joins state (state.pushBind (.timestamp start)).2 _ _ :=
        emits_published " >= " ">=" (by decide) (by decide) state start
      have hlast : Emits enc joins (state.pushBind (.timestamp start)).2
          ((state.pushBind (.timestamp start)).2.pushBind (.timestamp stop)).2 _ _ :=
        emits_published " <= " "<=" (by decide) (by decide) _ stop
      have hopen : "(torrent_contents.published_at >= " =
          "(" ++ "torrent_contents.published_at" ++ " >= " := by decide
      have hmiddle : "::timestamptz AND torrent_contents.published_at <= " =
          "::timestamptz" ++ " AND " ++ "torrent_contents.published_at" ++ " <= " := by
        decide
      have hclose : "::timestamptz)" = "::timestamptz" ++ ")" := rfl
      refine (hfirst.and hlast).paren.recast ?_ fun w => rfl
      rw [hopen, hmiddle, hclose]
      simp only [String.append_assoc]

/-- The year arm. -/
lemma releaseYearSql_emits (hjoins : joins.content = true) (years : List UInt16) :
    Emits enc joins state state (releaseYearSql years) fun w =>
      w.oneOf (column w "content" "release_year") (years.map fun y => intValue D y.toNat) := by
  by_cases hne : years = []
  · subst hne
    exact emits_false
  · have hcolumn : Piece state.binds.length state.binds.length 6 topLevel "content.release_year"
        (.column "content".toList "release_year".toList) :=
      piece_column (by decide) (by decide)
    have hitems : List.Forall₂ (Piece state.binds.length state.binds.length 1 0)
        (years.map fun y => toString y.toNat)
        (years.map fun y => .number (Nat.toDigits 10 y.toNat)) := by
      rw [List.forall₂_map_left_iff, List.forall₂_map_right_iff, List.forall₂_same]
      exact fun y _ => (piece_number y.toNat).weaken le_rfl (by decide)
    have hcut : "content.release_year IN (" = "content.release_year" ++ " IN (" := rfl
    rw [releaseYearSql, if_neg (by simpa using hne), hcut]
    refine emits_piece (List.prefix_refl _) (hcolumn.isIn (by decide) hitems (by simpa using hne))
      (by decide) (by decide) (fun w _ => ?_) fun table htable => ?_
    · rw [holds_isIn, List.map_map, eval]
      rfl
    · rw [tables, tables, mem_tablesOfAll (by simp [tables])] at htable
      obtain rfl := List.mem_singleton.mp (by simpa using htable)
      exact covered_content hjoins

/-- The arm for a missing attribute. -/
lemma nullableColumn_emits (attr : TorrentContentAttribute)
    (hjoins : attr = .releaseYear → joins.content = true) :
    Emits enc joins state state (nullableColumn attr ++ " IS NULL") fun w =>
      .ofBool (D.isNull (column w (nullableName attr).1 (nullableName attr).2)) := by
  have hcolumn : isColumn (nullableColumn attr) (nullableName attr).1 (nullableName attr).2 =
      true := by
    cases attr <;> decide
  have hcovered : Covered joins (nullableName attr).1.toList := by
    cases attr with
    | releaseYear => exact covered_content (hjoins rfl)
    | _ => exact covered_of_ne (by decide) (by decide)
  have hyields : Yields enc joins state state 4 topLevel (nullableColumn attr) _ :=
    yields_column _ _ hcolumn hcovered
  obtain ⟨hgrows, e, hpiece, hvalue, htables⟩ := hyields
  refine emits_piece hgrows (hpiece.suffixed (by decide) (by decide) rfl
    fun _ hop => hop.isNull (by decide) false) (by decide) (by decide) (fun w hw => ?_)
    (by rwa [tables])
  rw [holds_isNull, hvalue w hw]
  simp

/-- The characters of an integer. -/
lemma int_chars (i : Int) : ∀ c ∈ (toString i).toList, c.isDigit = true ∨ c = '-' := by
  intro c hc
  cases i with
  | ofNat n =>
    have hmem : c ∈ Nat.toDigits 10 n := by simpa [toString, Int.repr, Nat.toList_repr] using hc
    exact .inl (isDigit_toDigits n c hmem)
  | negSucc n =>
    have hmem : c = '-' ∨ c ∈ Nat.toDigits 10 (n + 1) := by
      simpa [toString, Int.repr, String.toList_append, Nat.toList_repr] using hc
    exact hmem.symm.imp_left (isDigit_toDigits _ c)

/-- Texts that can stand in quotes as they are. -/
def Unquoted (text : String) : Prop := '\'' ∉ text.toList ∧ '$' ∉ text.toList

lemma unquoted_append (ha : Unquoted a) (hb : Unquoted b) : Unquoted (a ++ b) := by
  simp only [Unquoted, String.toList_append, List.mem_append, not_or] at ha hb ⊢
  exact ⟨⟨ha.1, hb.1⟩, ha.2, hb.2⟩

lemma unquoted_int (i : Int) : Unquoted (toString i) :=
  ⟨fun h => (int_chars i _ h).elim (by decide) (by decide),
    fun h => (int_chars i _ h).elim (by decide) (by decide)⟩

lemma unquoted_intercalate {sep : String} (hsep : Unquoted sep) {texts : List String}
    (h : ∀ text ∈ texts, Unquoted text) : Unquoted (sep.intercalate texts) := by
  match texts with
  | [] => exact ⟨by simp, by simp⟩
  | [text] => exact h text (by simp)
  | text :: next :: texts =>
    have hrest : Unquoted (sep.intercalate (next :: texts)) :=
      unquoted_intercalate hsep fun t ht => h t (List.mem_cons_of_mem _ ht)
    have htext : sep.intercalate (text :: next :: texts) =
        text ++ (sep ++ sep.intercalate (next :: texts)) := by
      refine String.toList_inj.mp ?_
      simp [String.toList_intercalate]
    rw [htext]
    exact unquoted_append (h text (by simp)) (unquoted_append hsep hrest)

lemma unquoted_episodeKeys (episodes : List Int) : Unquoted (episodeKeys episodes) := by
  refine unquoted_intercalate ⟨by decide, by decide⟩ fun text htext => ?_
  obtain ⟨episode, -, rfl⟩ := List.mem_map.mp htext
  exact unquoted_append (unquoted_append ⟨by decide, by decide⟩ (unquoted_int episode))
    ⟨by decide, by decide⟩

/-- A path into the episodes. -/
lemma yields_path (season : Int) :
    Yields enc joins state state 7 7 ("torrent_contents.episodes" ++ " #> " ++
        ("'" ++ ("\x7b" ++ toString season ++ "\x7d") ++ "'"))
      fun w => D.operate "#>".toList (column w "torrent_contents" "episodes")
        (textValue D ("\x7b" ++ toString season ++ "\x7d")) := by
  have hleft : Yields enc joins state state 7 topLevel "torrent_contents.episodes" _ :=
    yields_column "torrent_contents" "episodes" (by decide) (covered_of_ne (by decide) (by decide))
  have hpath : Unquoted ("\x7b" ++ toString season ++ "\x7d") :=
    unquoted_append (unquoted_append ⟨by decide, by decide⟩ (unquoted_int season))
      ⟨by decide, by decide⟩
  have hright : Yields enc joins state state 8 topLevel _ _ := yields_string hpath.1 hpath.2
  exact hleft.binary (by decide) hright le_rfl (by decide) " #> " "#>".toList (by decide) rfl

/-- A constant converted to JSON. -/
lemma yields_jsonb {value : String} (h : Unquoted value) :
    Yields enc joins state state 9 9 ("'" ++ value ++ "'" ++ "::jsonb")
      fun _ => D.convert "jsonb".toList false (textValue D value) := by
  have hstring : Yields enc joins state state 9 topLevel _ _ := yields_string h.1 h.2
  exact hstring.cast (by decide) "::jsonb" "jsonb" false (by decide) (by decide)

/-- One season. -/
lemma seasonSql_emits (season : Int × List Int) :
    Emits enc joins state state (seasonSql season) (seasonMeaning season) := by
  have hopen : "torrent_contents.episodes #> '\x7b" =
      "torrent_contents.episodes" ++ " #> " ++ "'" ++ "\x7b" := by decide
  have hpath : Yields enc joins state state 7 7 _ _ := yields_path season.1
  by_cases hepisodes : season.2 = []
  · have hright : Yields enc joins state state 9 9 ("'" ++ "\x7b\x7d" ++ "'" ++ "::jsonb") _ :=
      yields_jsonb ⟨by decide, by decide⟩
    have hall := hpath.emits_compare (by decide) (by decide) hright (by decide) (by decide) " = "
      ['='] (by decide) (by decide)
    have hclose : "\x7d' = '\x7b\x7d'::jsonb" =
        "\x7d" ++ "'" ++ " = " ++ "'" ++ "\x7b\x7d" ++ "'" ++ "::jsonb" := by decide
    refine hall.recast ?_ fun w => by simp [seasonMeaning, hepisodes, World.equal]
    rw [seasonSql, if_pos (by simp [hepisodes]), hopen, hclose]
    simp only [String.append_assoc]
  · have hvalue : Unquoted ("\x7b" ++ episodeKeys season.2 ++ "\x7d") :=
      unquoted_append (unquoted_append ⟨by decide, by decide⟩ (unquoted_episodeKeys season.2))
        ⟨by decide, by decide⟩
    have hright : Yields enc joins state state 9 9 _ _ := yields_jsonb hvalue
    have hall := (hpath.binary (by decide) hright (by decide) (by decide) " @> " "@>".toList
      (by decide) rfl).emits (by decide) (by decide)
    have hmiddle : "\x7d' @> '\x7b" = "\x7d" ++ "'" ++ " @> " ++ "'" ++ "\x7b" := by
      decide
    have hclose : "\x7d'::jsonb" = "\x7d" ++ "'" ++ "::jsonb" := by decide
    refine hall.recast ?_ fun w => by simp [seasonMeaning, hepisodes, operator]
    rw [seasonSql, if_neg (by simpa using hepisodes), hopen, hmiddle, hclose]
    simp only [String.append_assoc]

/-- `episodes_sql`. -/
lemma episodesSql_emits (seasons : List (Int × List Int)) :
    Emits enc joins state state (episodesSql seasons)
      fun w => .all (seasons.map (seasonMeaning · w)) := by
  have hall : EmitsAll enc joins state state (seasons.map seasonSql) (seasons.map seasonMeaning) :=
    map_emits fun season _ => seasonSql_emits season
  refine (hall.andPredicates fun _ => rfl).congr fun w => ?_
  rw [List.map_map]
  rfl

end Bitmagnet.SearchQuery
