import Bitmagnet.SearchQuery.References

/-!
# The whole tree

Along the recursion of `criteria_sql` the leaf lemmas are put together.  The joins are computed by a
second walk over the tree, which only ever adds, so what a child needs is still there at the end.
-/

namespace Bitmagnet.SearchQuery

open Sql

variable {D : Dialect} {enc : Encoding D} {joins : RequiredJoins}
  {state state' : BuildState} {text : String}

/-! ## Joins -/

/-- The joins of the first are among those of the second. -/
def RequiredJoins.Within (joins other : RequiredJoins) : Prop :=
  (joins.torrents = true → other.torrents = true) ∧ (joins.content = true → other.content = true)

lemma RequiredJoins.Within.trans {a b c : RequiredJoins} (hab : a.Within b) (hbc : b.Within c) :
    a.Within c := ⟨hbc.1 ∘ hab.1, hbc.2 ∘ hab.2⟩

mutual

/-- A visit only adds. -/
lemma within_visit (joins : RequiredJoins) : ∀ criteria, joins.Within (joins.visit criteria)
  | .and children => by
    rw [RequiredJoins.visit]
    exact within_visitAll joins children
  | .or children => by
    rw [RequiredJoins.visit]
    exact within_visitAll joins children
  | .not child => by
    rw [RequiredJoins.visit]
    exact within_visit joins child
  | .isNull attr => by cases attr <;> simp [RequiredJoins.visit, RequiredJoins.Within]
  | .contentTypeIn _ | .torrentSourceIn _ | .torrentFileTypeIn _ | .fileExtensionIn _
  | .languageIn _ | .contentGenre _ | .contentCollection _ | .releaseYearIn _
  | .videoResolutionIn _ | .videoSourceIn _ | .videoCodecIn _ | .video3DIn _ | .videoModifierIn _
  | .sizeRange _ _ | .publishedAt _ | .torrentContentInfoHashIn _ | .episodes _
  | .canonicalIdentifier _ | .alternativeIdentifier _ | .torrentTag _ => by
    simp [RequiredJoins.visit, RequiredJoins.Within]

lemma within_visitAll (joins : RequiredJoins) : ∀ children, joins.Within (joins.visitAll children)
  | [] => by simp [RequiredJoins.visitAll, RequiredJoins.Within]
  | child :: children => by
    rw [RequiredJoins.visitAll]
    exact (within_visit joins child).trans (within_visitAll _ children)

end

/-! ## The tree -/

lemma meanings_eq (enc : Encoding D) (ctx : CriteriaCtx) (children : List Criteria) (w : World D) :
    meanings enc ctx children w = children.map (meaning enc ctx · w) := by
  induction children with
  | nil => rfl
  | cons child children ih => rw [meanings, ih, List.map_cons]

/-- A column of the torrent's content. -/
lemma contentColumnIn_emits {α : Type} {columnText : String} (name : String)
    (hcolumn : isColumn columnText "torrent_contents" name = true) (asStr : α → String)
    (values : List α) (state : BuildState) :
    Emits enc joins state (inPredicate columnText (values.map (.text <| asStr ·)) state).2
      (inPredicate columnText (values.map (.text <| asStr ·)) state).1
      fun w => contentColumnIn w name (values.map asStr) := by
  have h : Emits enc joins state _ _ _ :=
    inPredicate_text_emits "torrent_contents" name hcolumn covered_base (values.map asStr) state
  rw [List.map_map] at h
  exact h

lemma infoHashIn_emits (hashes : List (List UInt8)) (state : BuildState) :
    Emits enc joins state (inPredicate "torrent_contents.info_hash" (hashes.map .bytea) state).2
      (inPredicate "torrent_contents.info_hash" (hashes.map .bytea) state).1
      fun w => w.oneOf (column w "torrent_contents" "info_hash") (hashes.map enc.bytea) := by
  have hreads : readsAs "torrent_contents.info_hash" [.word "torrent_contents".toList, .punct '.',
      .word "info_hash".toList] = true := by decide
  refine (inPredicate_emits hreads (by decide) covered_base (hashes.map .bytea) state).congr
    fun w => ?_
  rw [List.map_map]
  rfl

/-- Leaves that cannot fail. -/
lemma emits_of_ok {result : String × BuildState} {means : World D → Truth}
    (h : (.ok result : Except String (String × BuildState)) = .ok (text, state'))
    (hemits : Emits enc joins state result.2 result.1 means) :
    Emits enc joins state state' text means := by
  cases h
  exact hemits

/-- The parts of a group, joined. -/
lemma booleanGroup_cases {ctx : CriteriaCtx} {operator empty : String} {child : Criteria}
    {children : List Criteria}
    (h : booleanGroup ctx operator empty (child :: children) state = .ok (text, state')) :
    ∃ texts, criteriaParts ctx (child :: children) state = .ok (texts, state') ∧ texts ≠ [] ∧
      text = "(" ++ (" " ++ operator ++ " ").intercalate texts ++ ")" := by
  rw [booleanGroup] at h
  cases hfirst : criteriaSql ctx child state with
  | error reason =>
    rw [hfirst] at h
    cases h
  | ok first =>
    cases hrest : criteriaParts ctx children first.2 with
    | error reason =>
      rw [hfirst, Except.bind, hrest] at h
      cases h
    | ok rest =>
      rw [hfirst, Except.bind, hrest] at h
      cases h
      refine ⟨first.1 :: rest.1, ?_, by simp, rfl⟩
      rw [criteriaParts, hfirst, Except.bind, hrest]
      rfl

mutual

/-- **The text of a tree means what the tree asks.** -/
lemma criteriaSql_emits (ctx : CriteriaCtx) : ∀ (criteria : Criteria) {seen : RequiredJoins}
    {state state' : BuildState} {text : String}, (seen.visit criteria).Within joins →
      criteriaSql ctx criteria state = .ok (text, state') →
      Emits enc joins state state' text (meaning enc ctx criteria)
  | .and [], _, state, state', text, _, h => by
    rw [criteriaSql, booleanGroup] at h
    exact emits_of_ok h emits_true
  | .and (child :: children), seen, state, state', text, hwithin, h => by
    rw [criteriaSql] at h
    obtain ⟨texts, hparts, hne, rfl⟩ := booleanGroup_cases h
    have hall := criteriaParts_emits ctx (child :: children)
      (by rwa [RequiredJoins.visit] at hwithin) hparts
    refine (hall.and hne).paren.congr fun w => ?_
    rw [meaning, meanings_eq, List.map_map]
    rfl
  | .or [], _, state, state', text, _, h => by
    rw [criteriaSql, booleanGroup] at h
    exact emits_of_ok h emits_false
  | .or (child :: children), seen, state, state', text, hwithin, h => by
    rw [criteriaSql] at h
    obtain ⟨texts, hparts, hne, rfl⟩ := booleanGroup_cases h
    have hall := criteriaParts_emits ctx (child :: children)
      (by rwa [RequiredJoins.visit] at hwithin) hparts
    refine (hall.or hne).congr fun w => ?_
    rw [meaning, meanings_eq, List.map_map]
    rfl
  | .not child, seen, state, state', text, hwithin, h => by
    rw [criteriaSql] at h
    cases hchild : criteriaSql ctx child state with
    | error reason =>
      rw [hchild] at h
      cases h
    | ok result =>
      rw [hchild] at h
      cases h
      have hemits := criteriaSql_emits ctx child (by rwa [RequiredJoins.visit] at hwithin) hchild
      exact hemits.not.congr fun w => by rw [meaning]
  | .contentTypeIn values, _, state, _, _, _, h => by
    rw [criteriaSql] at h
    exact (emits_of_ok h (contentColumnIn_emits "content_type" (by decide) _ values
      state)).congr fun w => by rw [meaning]
  | .videoResolutionIn values, _, state, _, _, _, h => by
    rw [criteriaSql] at h
    exact (emits_of_ok h (contentColumnIn_emits "video_resolution" (by decide) _ values
      state)).congr fun w => by rw [meaning]
  | .videoSourceIn values, _, state, _, _, _, h => by
    rw [criteriaSql] at h
    exact (emits_of_ok h (contentColumnIn_emits "video_source" (by decide) _ values
      state)).congr fun w => by rw [meaning]
  | .videoCodecIn values, _, state, _, _, _, h => by
    rw [criteriaSql] at h
    exact (emits_of_ok h (contentColumnIn_emits "video_codec" (by decide) _ values
      state)).congr fun w => by rw [meaning]
  | .video3DIn values, _, state, _, _, _, h => by
    rw [criteriaSql] at h
    exact (emits_of_ok h (contentColumnIn_emits "video_3d" (by decide) _ values
      state)).congr fun w => by rw [meaning]
  | .videoModifierIn values, _, state, _, _, _, h => by
    rw [criteriaSql] at h
    exact (emits_of_ok h (contentColumnIn_emits "video_modifier" (by decide) _ values
      state)).congr fun w => by rw [meaning]
  | .torrentContentInfoHashIn hashes, _, state, _, _, _, h => by
    rw [criteriaSql] at h
    exact (emits_of_ok h (infoHashIn_emits hashes state)).congr fun w => by rw [meaning]
  | .torrentSourceIn keys, _, state, _, _, _, h => by
    rw [criteriaSql] at h
    exact (emits_of_ok h (torrentSourceSql_emits keys state)).congr fun w => by rw [meaning]
  | .languageIn ids, _, state, _, _, _, h => by
    rw [criteriaSql] at h
    exact (emits_of_ok h (languageSql_emits ids state)).congr fun w => by rw [meaning]
  | .contentGenre refs, _, state, _, _, _, h => by
    rw [criteriaSql] at h
    exact (emits_of_ok h (contentCollectionSql_emits refs state)).congr fun w => by rw [meaning]
  | .contentCollection refs, _, state, _, _, _, h => by
    rw [criteriaSql] at h
    exact (emits_of_ok h (contentCollectionSql_emits refs state)).congr fun w => by rw [meaning]
  | .sizeRange min max, _, state, _, _, _, h => by
    rw [criteriaSql] at h
    exact (emits_of_ok h (sizeRangeSql_emits min max)).congr fun w => by rw [meaning]
  | .episodes seasons, _, state, _, _, _, h => by
    rw [criteriaSql] at h
    exact (emits_of_ok h (episodesSql_emits seasons)).congr fun w => by rw [meaning]
  | .torrentTag names, _, state, _, _, hwithin, h => by
    rw [criteriaSql] at h
    rw [RequiredJoins.visit] at hwithin
    exact (emits_of_ok h (torrentTagSql_emits (hwithin.1 rfl) names state)).congr fun w => by rw [meaning]
  | .torrentFileTypeIn fileTypes, _, state, _, _, hwithin, h => by
    rw [criteriaSql] at h
    rw [RequiredJoins.visit] at hwithin
    exact (emits_of_ok h (fileExtensionSql_emits ctx (hwithin.1 rfl) _ state)).congr fun w => by rw [meaning]
  | .fileExtensionIn extensions, _, state, _, _, hwithin, h => by
    rw [criteriaSql] at h
    rw [RequiredJoins.visit] at hwithin
    exact (emits_of_ok h (fileExtensionSql_emits ctx (hwithin.1 rfl) extensions state)).congr fun w => by rw [meaning]
  | .releaseYearIn years, _, state, _, _, hwithin, h => by
    rw [criteriaSql] at h
    rw [RequiredJoins.visit] at hwithin
    exact (emits_of_ok h (releaseYearSql_emits (hwithin.2 rfl) years)).congr fun w => by rw [meaning]
  | .canonicalIdentifier refs, _, state, _, _, hwithin, h => by
    rw [criteriaSql] at h
    rw [RequiredJoins.visit] at hwithin
    exact (emits_of_ok h (canonicalIdentifierSql_emits (hwithin.2 rfl) refs state)).congr fun w => by rw [meaning]
  | .alternativeIdentifier refs, _, state, _, _, hwithin, h => by
    rw [criteriaSql] at h
    rw [RequiredJoins.visit] at hwithin
    exact (emits_of_ok h (alternativeIdentifierSql_emits (hwithin.2 rfl) refs state)).congr fun w => by rw [meaning]
  | .publishedAt timeFrame, _, state, _, _, _, h => by
    rw [criteriaSql] at h
    refine (publishedAtSql_emits h).congr fun w => ?_
    cases hframe : ctx.timeFrame timeFrame with
    | error reason => simp only [meaning, hframe]
    | ok range => simp only [meaning, hframe]
  | .isNull attr, _, state, _, _, hwithin, h => by
    rw [criteriaSql] at h
    have hjoins : attr = .releaseYear → joins.content = true := by
      rintro rfl
      rw [RequiredJoins.visit] at hwithin
      exact hwithin.2 rfl
    exact (emits_of_ok h (nullableColumn_emits attr hjoins)).congr fun w => by rw [meaning]

lemma criteriaParts_emits (ctx : CriteriaCtx) : ∀ (children : List Criteria)
    {seen : RequiredJoins} {state state' : BuildState} {texts : List String},
      (seen.visitAll children).Within joins →
      criteriaParts ctx children state = .ok (texts, state') →
      EmitsAll enc joins state state' texts (children.map (meaning enc ctx))
  | [], _, state, state', texts, _, h => by
    rw [criteriaParts] at h
    cases h
    exact emitsAll_nil
  | child :: children, seen, state, state', texts, hwithin, h => by
    rw [criteriaParts] at h
    cases hfirst : criteriaSql ctx child state with
    | error reason =>
      rw [hfirst] at h
      cases h
    | ok first =>
      cases hrest : criteriaParts ctx children first.2 with
      | error reason =>
        rw [hfirst, Except.bind, hrest] at h
        cases h
      | ok rest =>
        rw [hfirst, Except.bind, hrest] at h
        cases h
        rw [RequiredJoins.visitAll] at hwithin
        have hchild := criteriaSql_emits ctx child
          ((within_visitAll _ children).trans hwithin) hfirst
        exact hchild.cons (criteriaParts_emits ctx children hwithin hrest)

end

/-! ## What the builder promises -/

/-- A text is the predicate of a tree: PostgreSQL reads it as one expression, whose brackets are
balanced, whose parameters are among the binds that were pushed for it, whose columns are joined, and
which for all rows and binds has the truth value that the tree has. -/
structure Compiled (ctx : CriteriaCtx) (criteria : Criteria) (state state' : BuildState)
    (text : String) : Prop where
  grows : state.binds <+: state'.binds
  parsed : ∃ tokens e, lex text.toList = some tokens ∧ parseExpr tokens = some e ∧
    Balanced tokens ∧
    (∀ i, .param i ∈ tokens → state.binds.length < i ∧ i ≤ state'.binds.length) ∧
    (∀ table ∈ tables e, Covered (.fromCriteria criteria) table) ∧
    ∀ (D : Dialect) (enc : Encoding D) (w : World D), Agrees enc w state'.binds →
      holds w e = meaning enc ctx criteria w

/-- What a text emits is what it parses to. -/
lemma Emits.parsed {means : World D → Truth} (h : Emits enc joins state state' text means) :
    ∃ tokens e, lex text.toList = some tokens ∧ parseExpr tokens = some e ∧
      Sound state.binds.length state'.binds.length tokens ∧
      (∀ table ∈ tables e, Covered joins table) ∧
      ∀ w, Agrees enc w state'.binds → holds w e = means w := by
  obtain ⟨e, ⟨tokens, hrenders, hoperand, hsound⟩, hholds, hcovered⟩ := h.piece
  exact ⟨tokens, e, hrenders.lex, hoperand.parseExpr_eq (by decide), hsound, hcovered, hholds⟩

/-- Values of which nothing is asked. -/
def truthDialect : Dialect where
  Value := Truth
  truth := id
  ofTruth := id
  truth_ofTruth _ := rfl
  isNull _ := false
  text _ := .unknown
  integer _ := .unknown
  negate := id
  convert _ _ := id
  operate _ _ _ := .unknown

/-- **Search criteria compile to the right predicate.**  Whatever the tree, the binds before it and
the context are, the text that `criteria_sql` emits for it is its predicate. -/
theorem criteriaSql_compiles (ctx : CriteriaCtx) (criteria : Criteria) (state state' : BuildState)
    (text : String) (h : criteriaSql ctx criteria state = .ok (text, state')) :
    Compiled ctx criteria state state' text := by
  have hemits : ∀ (D : Dialect) (enc : Encoding D),
      Emits enc (.fromCriteria criteria) state state' text (meaning enc ctx criteria) :=
    fun D enc => criteriaSql_emits ctx criteria ⟨id, id⟩ h
  obtain ⟨tokens, e, hlex, hparse, hsound, hcovered, -⟩ :=
    (hemits truthDialect ⟨fun _ => .unknown, fun _ => .unknown⟩).parsed
  refine ⟨(hemits truthDialect ⟨fun _ => .unknown, fun _ => .unknown⟩).grows, tokens, e, hlex,
    hparse, hsound.balanced, hsound.params, hcovered, fun D enc w hw => ?_⟩
  -- The text has one reading, so what it means over other values is what this one means.
  obtain ⟨tokens', e', hlex', hparse', -, -, hholds⟩ := (hemits D enc).parsed
  obtain rfl : tokens = tokens' := Option.some.inj (hlex.symm.trans hlex')
  obtain rfl : e = e' := Option.some.inj (hparse.symm.trans hparse')
  exact hholds w hw

/-- A context whose library functions are simple. -/
def plainCtx : CriteriaCtx where
  fileExtensionsJsonb := true
  jsonArray extension := "[\"" ++ extension ++ "\"]"
  timeFrame _ := .ok none

/-- Negation around a leaf that is a conjunction without brackets. -/
theorem criteriaSql_compiles_not_canonical : ∃ text state',
    criteriaSql plainCtx (.or [.not (.canonicalIdentifier [⟨some .movie, "tmdb", "1"⟩]), .and []])
        {} = .ok (text, state') ∧
      Compiled plainCtx
        (.or [.not (.canonicalIdentifier [⟨some .movie, "tmdb", "1"⟩]), .and []]) {} state' text :=
  ⟨_, _, rfl, criteriaSql_compiles plainCtx _ _ _ _ rfl⟩

end Bitmagnet.SearchQuery
