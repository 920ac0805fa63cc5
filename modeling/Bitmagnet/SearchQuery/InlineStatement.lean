import Bitmagnet.Library.Fallible
import Bitmagnet.SearchQuery.Inline

/-!
# Statements with inlined binds

Whole statements are lexed under every filling: the fixed parts by evaluation, the conditions
because each is emitted by `criteria_sql`, the order and the window by their formats.  What
`inline_binds` returns is one such filling.
-/

namespace Bitmagnet.SearchQuery

open Sql

/-! ## Texts -/

/-- A text that is tokens under every filling, with parameters up to `n`. -/
def Lexed (n : Nat) (text : String) : Prop :=
  ∃ tokens, Renders text.toList tokens ∧ ∀ i, .param i ∈ tokens → 0 < i ∧ i ≤ n

variable {n : Nat} {text a b : String}

/-- A fixed text that ends with a complete token. -/
def readable (text : String) : Bool :=
  match flush (run .idle text.toList).1 with
  | some pending => readsAs text ((run .idle text.toList).2 ++ pending)
  | none => false

/-- A fixed text that can stand behind any other. -/
def separating (text : String) : Bool := separates text (run .idle text.toList).2

lemma lexed_of_readable (h : readable text = true) : Lexed n text := by
  rw [readable] at h
  split at h
  · next pending hpending =>
      refine ⟨_, renders_of_readsAs h, fun i hi => ?_⟩
      simp only [readsAs, Bool.and_eq_true, List.all_eq_true] at h
      exact absurd (h.1.1.2 _ hi) (by simp [isFixed])
  · cases h

lemma Lexed.mono (h : Lexed n text) {m : Nat} (hle : n ≤ m) : Lexed m text := by
  obtain ⟨tokens, hrenders, hparams⟩ := h
  exact ⟨tokens, hrenders, fun i hi => ⟨(hparams i hi).1, (hparams i hi).2.trans hle⟩⟩

/-- Two texts with a separator between them. -/
lemma Lexed.joined (ha : Lexed n a) {sep : String} (hsep : separating sep = true)
    (hb : Lexed n b) : Lexed n (a ++ sep ++ b) := by
  obtain ⟨ta, hrendersA, hparamsA⟩ := ha
  obtain ⟨tb, hrendersB, hparamsB⟩ := hb
  refine ⟨_, renders_joined hsep hrendersA hrendersB, fun i hi => ?_⟩
  rw [List.mem_append, List.mem_append] at hi
  rcases hi with (hi | hi) | hi
  · exact hparamsA i hi
  · simp only [separating, separates, opensAs, Bool.and_eq_true, List.all_eq_true] at hsep
    exact absurd (hsep.2.1.2 _ hi) (by simp [isFixed])
  · exact hparamsB i hi

/-- A fixed text behind another. -/
lemma Lexed.followed (ha : Lexed n a) (hcalms : calms b.toList = true)
    (hb : readable b = true) : Lexed n (a ++ b) := by
  obtain ⟨ta, hrendersA, hparamsA⟩ := ha
  rw [readable] at hb
  split at hb
  · next pending hpending =>
      have hparts := hb
      simp only [readsAs, Bool.and_eq_true, Bool.not_eq_true', List.all_eq_true] at hparts
      refine ⟨ta ++ ((run .idle b.toList).2 ++ pending), ?_, fun i hi => ?_⟩
      · rw [String.toList_append]
        exact hrendersA.append hcalms (by simpa using hparts.1.1.1) (renders_of_readsAs hb)
      · rcases List.mem_append.mp hi with hi | hi
        · exact hparamsA i hi
        · exact absurd (hparts.1.1.2 _ hi) (by simp [isFixed])
  · cases hb

/-- A text between two fixed ones. -/
lemma Lexed.between (h : Lexed n text) (left right : String)
    (hleft : opensAs left (run .idle left.toList).2 = true) (hright : separating right = true) :
    Lexed n (left ++ text ++ right) := by
  obtain ⟨tokens, hrenders, hparams⟩ := h
  refine ⟨_, renders_between hleft hright hrenders, fun i hi => ?_⟩
  simp only [separating, separates, opensAs, Bool.and_eq_true, List.all_eq_true] at hleft hright
  rw [List.mem_append, List.mem_append] at hi
  rcases hi with (hi | hi) | hi
  · exact absurd (hleft.1.2 _ hi) (by simp [isFixed])
  · exact hparams i hi
  · exact absurd (hright.2.1.2 _ hi) (by simp [isFixed])

lemma lexed_intercalate {sep : String} (hsep : separating sep = true) :
    ∀ {texts : List String}, (∀ text ∈ texts, Lexed n text) → Lexed n (sep.intercalate texts)
  | [], _ => by
    rw [String.intercalate_nil]
    exact lexed_of_readable (by decide)
  | [text], h => by
    rw [String.intercalate_singleton]
    exact h text (by simp)
  | text :: next :: texts, h => by
    rw [String.intercalate_cons_cons]
    exact (h text (by simp)).joined hsep
      (lexed_intercalate hsep fun t ht => h t (List.mem_cons_of_mem _ ht))

lemma lexed_param {i : Nat} (hpos : 0 < i) (hle : i ≤ n) : Lexed n ("$" ++ toString i) := by
  refine ⟨[.param i], ?_, fun j hj => ?_⟩
  · have := renders_param i
    simpa [String.toList_append, Nat.toList_repr] using this
  · obtain rfl : j = i := by simpa using hj
    exact ⟨hpos, hle⟩

lemma lexed_number (k : Nat) : Lexed n (toString k) := by
  refine ⟨[.number (Nat.toDigits 10 k)], ?_, by simp⟩
  have := (reads_number k).renders (dollar_toDigits k) rfl
  simpa [Nat.toList_repr] using this

variable {state state' : BuildState} {draft draft' : Draft} {env : BuildEnv}
  {tsquery : Option String}

lemma Emits.lexed {D : Dialect} {enc : Encoding D} {joins : RequiredJoins}
    {means : World D → Truth} (h : Emits enc joins state state' text means) :
    Lexed state'.binds.length text := by
  obtain ⟨e, ⟨tokens, hrenders, -, hsound⟩, -, -⟩ := h.piece
  exact ⟨tokens, hrenders, fun i hi => ⟨(Nat.zero_le _).trans_lt (hsound.params i hi).1,
    (hsound.params i hi).2⟩⟩

/-! ## Drafts -/

/-- Every condition so far is tokens, with parameters among the binds. -/
def Draft.Ready (draft : Draft) : Prop :=
  ∀ condition ∈ draft.conditions, Lexed draft.state.binds.length condition

lemma Draft.Ready.add (h : draft.Ready) {joins : RequiredJoins}
    (hgrows : draft.state.binds <+: state.binds) {condition : String}
    (hcondition : Lexed state.binds.length condition) :
    Draft.Ready ⟨joins, draft.conditions ++ [condition], state⟩ := by
  intro c hc
  rcases List.mem_append.mp hc with hc | hc
  · exact (h c hc).mono hgrows.length_le
  · obtain rfl := List.mem_singleton.mp hc
    exact hcondition

lemma Draft.Ready.addQuery {query : Option String} (h : draft.Ready) :
    (draft.addQuery env query).Ready := by
  rw [Draft.addQuery]
  split
  · exact h
  · next query hquery =>
      have hcolumn : Lexed (draft.state.binds.length + 1) "torrent_contents.tsv" :=
        lexed_of_readable (by decide)
      have hmatch : Lexed (draft.state.binds.length + 1)
          ("torrent_contents.tsv" ++ " @@ " ++ ("$" ++ toString (draft.state.binds.length + 1))) :=
        hcolumn.joined (by decide) (lexed_param (Nat.succ_pos _) le_rfl)
      refine h.add (pushBind_grows _ _) ?_
      rw [pushBind_length]
      have hcut : "torrent_contents.tsv @@ " = "torrent_contents.tsv" ++ " @@ " := rfl
      rw [hcut]
      exact hmatch.followed (by decide) (by decide)

/-- The dialect does not matter for the tokens. -/
lemma criteriaSql_lexed {ctx : CriteriaCtx} {criteria : Criteria}
    (h : criteriaSql ctx criteria state = .ok (text, state')) :
    state.binds <+: state'.binds ∧ Lexed state'.binds.length text := by
  have hemits : Emits (D := truthDialect) ⟨fun _ => .unknown, fun _ => .unknown⟩
      (.fromCriteria criteria) state state' text _ := criteriaSql_emits ctx criteria ⟨id, id⟩ h
  exact ⟨hemits.grows, hemits.lexed⟩

lemma Draft.Ready.addCriteria {asking : List Criteria} {criteria : Criteria} (h : draft.Ready)
    (hadd : draft.addCriteria env asking criteria = .ok draft') : draft'.Ready := by
  rw [Draft.addCriteria] at hadd
  cases hsql : criteriaSql env.toCriteriaCtx criteria draft.state with
  | error reason =>
    rw [hsql] at hadd
    cases hadd
  | ok condition =>
    rw [hsql] at hadd
    cases hadd
    obtain ⟨hgrows, hlexed⟩ := criteriaSql_lexed hsql
    exact h.add hgrows hlexed

lemma Draft.Ready.addOptional {criteria : Option Criteria} (h : draft.Ready)
    (hadd : draft.addOptional env criteria = .ok draft') : draft'.Ready := by
  cases criteria with
  | none =>
    cases hadd
    exact h
  | some criteria => exact h.addCriteria hadd

lemma Draft.Ready.addFacets {cross : List Criteria} (h : draft.Ready)
    (hadd : draft.addFacets env cross = .ok draft') : draft'.Ready := by
  rw [Draft.addFacets] at hadd
  split at hadd
  · cases hadd
    exact h
  · exact h.addCriteria hadd

/-- What stands behind the select of a draft. -/
def Draft.tail (draft : Draft) : String :=
  draft.joins.appendSql "" ++
    if draft.conditions.isEmpty then "" else "\nWHERE " ++ "\n  AND ".intercalate draft.conditions

lemma Draft.sql_eq (draft : Draft) : draft.sql = baseSelect ++ draft.tail := by
  rw [Draft.sql, Draft.tail, RequiredJoins.appendSql, RequiredJoins.appendSql]
  cases draft.joins.torrents <;> cases draft.joins.content <;> cases draft.conditions.isEmpty <;>
    simp [String.append_assoc]

lemma Draft.Ready.tail (h : draft.Ready) {select : String}
    (hselect : Lexed draft.state.binds.length select) :
    Lexed draft.state.binds.length (select ++ draft.tail) := by
  have hjoins : Lexed draft.state.binds.length (select ++ draft.joins.appendSql "") := by
    have htorrents : ∀ text, Lexed draft.state.binds.length text →
        Lexed draft.state.binds.length (text ++ innerJoinTorrents) := fun text htext =>
      htext.followed (by decide) (by decide +kernel)
    have hcontent : ∀ text, Lexed draft.state.binds.length text →
        Lexed draft.state.binds.length (text ++ leftJoinContent) := fun text htext =>
      htext.followed (by decide +kernel) (by decide +kernel)
    rw [RequiredJoins.appendSql]
    cases draft.joins.torrents <;> cases draft.joins.content
    · simpa using hselect
    · simpa using hcontent _ hselect
    · simpa using htorrents _ hselect
    · simpa [String.append_assoc] using hcontent _ (htorrents _ hselect)
  rw [Draft.tail, ← String.append_assoc]
  split
  · simpa using hjoins
  · rw [← String.append_assoc]
    exact hjoins.joined (by decide) (lexed_intercalate (by decide) h)

lemma lexed_baseSelect : Lexed n baseSelect := lexed_of_readable (by decide)

lemma buildBaseQuery_ready {options : SearchOptions} {currentFacet : Option String}
    {extra : Option Criteria} {requireTorrents : Bool}
    (h : buildBaseQuery env options currentFacet extra requireTorrents state = .ok (text, state')) :
    ∃ draft : Draft, draft.Ready ∧ text = baseSelect ++ draft.tail ∧ state' = draft.state := by
  have hempty : Draft.Ready ⟨⟨requireTorrents, false⟩, [], state⟩ := by simp [Draft.Ready]
  rw [buildBaseQuery] at h
  obtain ⟨filtered, hfiltered, h⟩ := Fallible.bind_eq_ok.mp h
  obtain ⟨cross, -, h⟩ := Fallible.bind_eq_ok.mp h
  obtain ⟨faceted, hfaceted, h⟩ := Fallible.bind_eq_ok.mp h
  obtain ⟨draft, hdraft, h⟩ := Fallible.bind_eq_ok.mp h
  cases h
  have hready := (hempty.addQuery.addOptional hfiltered).addFacets hfaceted
  exact ⟨draft, hready.addOptional hdraft, draft.sql_eq, rfl⟩

/-! ## Order and window -/

lemma Lexed.directed (h : Lexed n text) (direction : OrderDirection) :
    Lexed n (text ++ " " ++ directionSql direction) := by
  rw [String.append_assoc]
  cases direction
  · exact h.followed (by decide) (by decide)
  · exact h.followed (by decide) (by decide)

lemma lexed_rankSql (h : ∀ p ∈ tsquery, Lexed n p) : Lexed n (rankSql tsquery) := by
  cases tsquery with
  | none => exact lexed_of_readable (by decide)
  | some placeholder =>
    exact (h placeholder rfl).between _ _ (by decide) (by decide)

lemma Lexed.windowClause (h : Lexed n text) {keyword : String} (hsep : separating keyword = true)
    (value : Option Nat) : Lexed n (text ++ windowClause keyword value) := by
  cases value with
  | none => simpa [SearchQuery.windowClause] using h
  | some value =>
    rw [SearchQuery.windowClause, ← String.append_assoc]
    exact h.joined hsep (lexed_number value)

lemma Lexed.window (h : Lexed n text) (limit offset : Option Nat) :
    Lexed n (text ++ windowSql limit offset) := by
  rw [windowSql, ← String.append_assoc]
  exact (h.windowClause (by decide) limit).windowClause (by decide) offset

lemma lexed_torznabOrderSql (h : ∀ p ∈ tsquery, Lexed n p) {order : Option TorrentContentOrder}
    {sql : String} (hsql : torznabOrderSql tsquery order = .ok sql) : Lexed n sql := by
  cases order with
  | none =>
    cases hsql
    exact lexed_of_readable (by decide)
  | some order =>
    obtain ⟨field, direction⟩ := order
    cases field with
    | relevance =>
      cases hsql
      exact (lexed_rankSql h).directed direction
    | publishedAt =>
      cases hsql
      have hfirst : Lexed n "torrent_contents.published_at" :=
        lexed_of_readable (by decide)
      have hsecond : Lexed n "torrent_contents.info_hash" :=
        lexed_of_readable (by decide)
      have hall : Lexed n (_ ++ ", " ++ _) :=
        (hfirst.directed direction).joined (by decide) (hsecond.directed direction)
      have hcut : "torrent_contents.published_at " = "torrent_contents.published_at" ++ " " :=
        rfl
      have hcut' : ", torrent_contents.info_hash " =
          ", " ++ "torrent_contents.info_hash" ++ " " := by decide
      rw [hcut, hcut']
      simpa only [String.append_assoc] using hall
    | _ => cases hsql

/-- The name of an order column. -/
lemma lexed_orderName (index : Nat) : Lexed n ("_order_" ++ toString index) := by
  have hword : run .idle "_order_".toList = (.word "_redro_".toList, []) := by decide
  have hdollar : '$' ∉ "_order_".toList ++ Nat.toDigits 10 index := by
    rw [List.mem_append, not_or]
    exact ⟨by decide, dollar_toDigits index⟩
  have hrenders := (reads_numbered hword index).renders hdollar rfl
  refine ⟨[.word (("_redro_".toList.reverse ++ Nat.toDigits 10 index).map Char.toLower)], ?_,
    by simp⟩
  rwa [String.toList_append, show (toString index).toList = Nat.toDigits 10 index from
    Nat.toList_repr]

lemma lexed_selectOrders {clauses : List OrderClause}
    (h : ∀ clause ∈ clauses, Lexed n clause.expression) :
    ∀ (index : Nat) {text : String}, Lexed n text →
      Lexed n (text ++ selectOrders index clauses) := by
  induction clauses with
  | nil => exact fun index text htext => by simpa [selectOrders] using htext
  | cons clause clauses ih =>
    intro index text htext
    have hfirst : Lexed n (text ++ ",\n       " ++ clause.expression ++ " AS " ++
        ("_order_" ++ toString index)) :=
      (htext.joined (by decide) (h clause (by simp))).joined (by decide) (lexed_orderName index)
    have hrest := ih (fun c hc => h c (List.mem_cons_of_mem _ hc)) (index + 1) hfirst
    have hcut : " AS _order_" = " AS " ++ "_order_" := rfl
    rw [selectOrders, hcut]
    simpa only [String.append_assoc] using hrest

lemma lexed_orderItems (clauses : List OrderClause) :
    ∀ item ∈ orderItems clauses, Lexed n item := by
  intro item hitem
  obtain ⟨⟨clause, index⟩, -, rfl⟩ := List.mem_map.mp hitem
  exact (lexed_orderName index).directed clause.direction

lemma lexed_orderExpression (h : ∀ p ∈ tsquery, Lexed n p) (field : OrderField) :
    Lexed n (orderExpression tsquery field) := by
  cases field with
  | relevance => exact lexed_rankSql h
  | _ =>
    rw [orderExpression]
    exact lexed_of_readable (by decide)

lemma lexed_orderClauses (h : ∀ p ∈ tsquery, Lexed n p) (order : TorrentContentOrder) :
    ∀ clause ∈ orderClauses tsquery order, Lexed n clause.expression := by
  rw [orderClauses, List.forall_mem_cons]
  refine ⟨lexed_orderExpression h order.field, ?_⟩
  split
  · rw [List.forall_mem_singleton]
    have hhash : readable "torrent_contents.info_hash" = true := by decide
    exact lexed_of_readable hhash
  · simp

/-- The first occurrence is at the start. -/
lemma replaceFirst_append {pattern : List Char} (hne : pattern ≠ []) (new rest : List Char) :
    replaceFirst pattern new (pattern ++ rest) = new ++ rest := by
  obtain ⟨c, cs, rfl⟩ := List.exists_cons_of_ne_nil hne
  have hprefix : (c :: cs).isPrefixOf (c :: (cs ++ rest)) = true :=
    List.isPrefixOf_iff_prefix.mpr (List.prefix_append (c :: cs) rest)
  rw [List.cons_append, replaceFirst, if_pos hprefix, ← List.cons_append, List.drop_left]

lemma replaceFirst_base (select tail : String) :
    String.ofList (replaceFirst baseSelect.toList select.toList (baseSelect ++ tail).toList) =
      select ++ tail := by
  rw [String.toList_append, replaceFirst_append (by decide), String.ofList_append,
    String.ofList_toList, String.ofList_toList]

/-! ## Statements -/

/-- The statements that the builder makes, with the binds that were pushed. -/
inductive Produced (env : BuildEnv) : String → List Bind → Prop
  | base {options currentFacet extra requireTorrents text state}
      (h : buildBaseQuery env options currentFacet extra requireTorrents {} = .ok (text, state)) :
      Produced env text state.binds
  | torznab {params text state} (h : buildQuery env params = .ok (text, state)) :
      Produced env text state.binds
  | search {options text state} (h : buildSearchQueryAt env options = .ok (text, state)) :
      Produced env text state.binds

lemma Draft.addQuery_grows (env : BuildEnv) (query : Option String) (draft : Draft) :
    draft.state.binds <+: (draft.addQuery env query).state.binds ∧
      ((query.filter fun query => !query.isEmpty).isSome →
        draft.state.binds.length < (draft.addQuery env query).state.binds.length) := by
  rw [Draft.addQuery]
  split
  · next hquery => exact ⟨List.prefix_refl _, by simp [hquery]⟩
  · exact ⟨pushBind_grows _ _, by simp⟩

lemma Draft.addOptional_grows {criteria : Option Criteria}
    (hadd : draft.addOptional env criteria = .ok draft') :
    draft.state.binds <+: draft'.state.binds := by
  cases criteria with
  | none =>
    cases hadd
    exact List.prefix_refl _
  | some criteria =>
    rw [Draft.addOptional, Draft.addCriteria] at hadd
    cases hsql : criteriaSql env.toCriteriaCtx criteria draft.state with
    | error reason =>
      rw [hsql] at hadd
      cases hadd
    | ok condition =>
      rw [hsql] at hadd
      cases hadd
      exact (criteriaSql_lexed hsql).1

lemma buildQuery_lexed {params : TorznabSearchParams}
    (h : buildQuery env params = .ok (text, state)) : Lexed state.binds.length text := by
  rw [buildQuery] at h
  obtain ⟨draft, hdraft, h⟩ := Fallible.bind_eq_ok.mp h
  obtain ⟨order, horder, h⟩ := Fallible.bind_eq_ok.mp h
  cases h
  have hempty : Draft.Ready ⟨{}, [], {}⟩ := by simp [Draft.Ready]
  have hready := hempty.addQuery.addOptional hdraft
  -- The placeholder of the query is the first one, and a query pushes a bind.
  have htsquery : ∀ p ∈ (params.query.filter fun query => !query.isEmpty).map fun query =>
      (BuildState.pushBind {} (.tsquery (env.toTsquery query))).1,
      Lexed draft.state.binds.length p := by
    intro p hp
    obtain ⟨query, hquery, rfl⟩ := Option.map_eq_some_iff.mp hp
    have hfirst := (Draft.addQuery_grows { env with fileExtensionsJsonb := false } params.query
      ⟨{}, [], {}⟩).2 (by rw [hquery]; rfl)
    exact lexed_param Nat.one_pos
      (Nat.lt_of_lt_of_le hfirst (Draft.addOptional_grows hdraft).length_le)
  have hsql : Lexed draft.state.binds.length draft.sql := by
    rw [draft.sql_eq]
    exact hready.tail lexed_baseSelect
  exact (hsql.joined (by decide) (lexed_torznabOrderSql htsquery horder)).window _ _

lemma buildSearchQueryAt_lexed {options : SearchOptions}
    (h : buildSearchQueryAt env options = .ok (text, state)) : Lexed state.binds.length text := by
  rw [buildSearchQueryAt] at h
  obtain ⟨base, hbase, h⟩ := Fallible.bind_eq_ok.mp h
  cases h
  obtain ⟨draft, hready, hsql, hstate⟩ := buildBaseQuery_ready hbase
  have htsquery : ∀ p ∈ (tsqueryIndex base.2.binds).map fun index => "$" ++ toString (index + 1),
      Lexed base.2.binds.length p := by
    intro p hp
    obtain ⟨index, hindex, rfl⟩ := Option.map_eq_some_iff.mp hp
    obtain ⟨hlt, -⟩ := List.findIdx?_eq_some_iff_getElem.mp hindex
    exact lexed_param (Nat.succ_pos _) hlt
  generalize hclauses : (if (effectiveOrders env options).isEmpty = true then
    [(⟨"torrent_contents.published_at", .descending⟩ : OrderClause)] else
    (effectiveOrders env options).flatMap (orderClauses ((tsqueryIndex base.2.binds).map
      fun index => "$" ++ toString (index + 1)))) = clauses
  have hexpressions : ∀ clause ∈ clauses, Lexed base.2.binds.length clause.expression := by
    subst hclauses
    split
    · rw [List.forall_mem_singleton]
      have hpublished : readable "torrent_contents.published_at" = true := by decide
      exact lexed_of_readable hpublished
    · intro clause hclause
      obtain ⟨order, -, hclause⟩ := List.mem_flatMap.mp hclause
      exact lexed_orderClauses htsquery order clause hclause
  have hselect : Lexed base.2.binds.length ("SELECT torrent_contents.info_hash" ++
      selectOrders 0 clauses ++ "\nFROM torrent_contents") :=
    (lexed_selectOrders hexpressions 0 (lexed_of_readable (by decide))).followed
      (by decide) (by decide)
  rw [hsql, replaceFirst_base]
  rw [hstate] at hselect ⊢
  exact ((hready.tail hselect).joined (by decide)
    (lexed_intercalate (by decide) (lexed_orderItems clauses))).window _ _

lemma Produced.lexed {binds : List Bind} (h : Produced env text binds) :
    Lexed binds.length text := by
  cases h with
  | base h =>
    obtain ⟨draft, hready, rfl, rfl⟩ := buildBaseQuery_ready h
    exact hready.tail lexed_baseSelect
  | torznab h => exact buildQuery_lexed h
  | search h => exact buildSearchQueryAt_lexed h

/-- **Inlined binds stay in their places.**  A statement of the builder is tokens with parameters
among its binds.  Whatever values are inlined, the text is lexed to these tokens with each parameter
replaced by the literal of its value; the literals read back to the values, and values of the same
shapes give the same skeleton. -/
theorem inlineBinds_lexes (env : BuildEnv) (text : String) (binds : List Bind)
    (h : Produced env text binds) :
    ∃ tokens, lex text.toList = some tokens ∧
      (∀ i, .param i ∈ tokens → 0 < i ∧ i ≤ binds.length) ∧
      (∀ values, lex (inlineBinds text values).toList =
        some (expand (literalTokens values) tokens)) ∧
      (∀ values i, values.length = binds.length → .param i ∈ tokens →
        ∃ bind, values[i - 1]? = some bind ∧ decodeLiteral (literalTokens values i) = some bind) ∧
      ∀ values values' : List Bind, values.map Bind.shape = values'.map Bind.shape →
        skeleton (expand (literalTokens values) tokens) =
          skeleton (expand (literalTokens values') tokens) := by
  obtain ⟨tokens, hrenders, hparams⟩ := h.lexed
  refine ⟨tokens, hrenders.lex, hparams, fun values => ?_, fun values i hlength hi => ?_,
    fun values values' hshape => skeleton_expand (skeleton_literalTokens hshape) tokens⟩
  · rw [inlineBinds, String.toList_ofList]
    exact hrenders.lex_fill (filling values)
  · obtain ⟨hpos, hle⟩ := hparams i hi
    have hlt : i - 1 < values.length := by omega
    have hbind : bindAt values i = some values[i - 1] := by
      rw [bindAt, if_neg (by omega), List.getElem?_eq_getElem hlt]
    refine ⟨values[i - 1], List.getElem?_eq_getElem hlt, ?_⟩
    rw [literalTokens, hbind]
    exact decodeLiteral_bindTokens _

/-- The environment of a test: the query is used as it is. -/
def plainEnv : BuildEnv :=
  { plainCtx with popularitySortDefault := false, toTsquery := id, debug := id }

/-- A query and a tag that hold quotes and placeholders. -/
theorem inlineBinds_lexes_hostile : ∃ text binds, Produced plainEnv text binds ∧
    binds = [.tsquery "$2' OR 1=1 --", .text "'); DROP TABLE torrents; --$1"] ∧
    ∃ tokens, lex text.toList = some tokens ∧
      lex (inlineBinds text binds).toList = some (expand (literalTokens binds) tokens) := by
  have hbuilt : buildBaseQuery plainEnv ⟨some "$2' OR 1=1 --",
      some (.torrentTag ["'); DROP TABLE torrents; --$1"]), [], [], none, 0, false⟩ none none false
      {} = .ok (_, ⟨[.tsquery "$2' OR 1=1 --", .text "'); DROP TABLE torrents; --$1"]⟩) := rfl
  obtain ⟨tokens, hlex, -, hinline, -⟩ := inlineBinds_lexes plainEnv _ _ (.base hbuilt)
  exact ⟨_, _, .base hbuilt, rfl, tokens, hlex, hinline _⟩

end Bitmagnet.SearchQuery
