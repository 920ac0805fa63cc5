import Bitmagnet.Library.Words
import Bitmagnet.SearchServe.Composer

/-!
# The path index

`document.rs`, `indexer.rs`, `schema.rs` and `query.rs` of `pathsearch`: the document that
is indexed for a torrent, the query that is built for a search text, and when the one
matches the other.

Both go through the same analyzer, Tantivy's n-gram tokenizer for two and three characters
with its lower-caser behind it, which lower-cases a gram character by character.  `Query`
has the queries that `build_path_query` uses and `Query.matches` their documented meaning.
Weights and frequencies decide about the order of the candidates only and are left out.
-/

namespace Bitmagnet.PathSearch

open Bitmagnet.SearchServe

/-! ## Documents -/

/-- `TorrentWithBlob`, with what `files` returns on it. -/
structure TorrentWithBlob where
  infoHash : InfoHash
  name : Text
  size : Int
  filesStatus : FilesStatus
  filesCount : Option Int
  publishedAt : Int
  files : Except BlobError (List BlobFile)

/-- `PathDocument`. -/
structure PathDocument where
  infoHash : InfoHash
  name : Text
  paths : List Text
  size : Nat
  filesCount : Nat
  seeders : Nat
  publishedAt : Int
deriving DecidableEq

/-- `u64::try_from` of an `i64`. -/
def toU64 (n : Int) : Option Nat := if 0 ≤ n then some n.toNat else none

/-- The paths of `from_torrent`. -/
def documentPaths (row : TorrentWithBlob) (files : List BlobFile) : List Text :=
  let name := trim row.name
  let paths := files.filterMap fun file =>
    let path := trim file.path
    if path ≠ [] then some path else none
  if paths = [] ∧ name ≠ [] ∧ row.filesStatus = .single then [name] else paths

/-- `PathDocument::from_torrent`. -/
def PathDocument.fromTorrent (row : TorrentWithBlob) : Except BlobError (Option PathDocument) := do
  let files ← row.files
  let name := trim row.name
  let paths := documentPaths row files
  if paths = [] ∧ name = [] then .ok none
  else
    .ok (some {
      infoHash := row.infoHash
      name
      paths
      size := (toU64 row.size).getD 0
      filesCount := (row.filesCount.bind toU64).getD paths.length
      seeders := 0
      publishedAt := row.publishedAt })

/-! ## Terms -/

/-- The text fields of the schema. -/
inductive Field
  | path
  | name
deriving DecidableEq

/-- The analyzer `path_ngram`. -/
def pathNgram (casing : Casing) (text : Text) : List Text :=
  (Words.grams text).map (·.flatMap casing.char)

/-- The terms that `document_to_tantivy` puts into a field. -/
def PathDocument.terms (casing : Casing) (document : PathDocument) : Field → List Text
  | .path => (document.paths.filter (· ≠ [])).flatMap (pathNgram casing)
  | .name => if document.name ≠ [] then pathNgram casing document.name else []

/-! ## Queries -/

/-- `Occur`. -/
inductive Occur
  | should
  | must
  | mustNot
deriving DecidableEq

/-- The queries that are used. -/
inductive Query
  | empty
  | term (field : Field) (text : Text)
  | boost (query : Query)
  | boolean (clauses : List (Occur × Query))

/-- What a boolean query makes of its clauses: all that must match do, none that must not
does, and without one that must match one that should match does. -/
def combine (results : List (Occur × Bool)) : Bool :=
  results.all (fun result => result.1 = .must → result.2) ∧
    results.all (fun result => result.1 = .mustNot → ¬ result.2) ∧
    (results.any (fun result => result.1 = .must) ∨
      results.any (fun result => result.1 = .should ∧ result.2))

mutual

/-- Whether a query matches a document with the given terms. -/
def Query.matches (terms : Field → List Text) : Query → Bool
  | .empty => false
  | .term field text => text ∈ terms field
  | .boost query => query.matches terms
  | .boolean clauses => combine (clauseResults terms clauses)

/-- What the clauses of a boolean query come to. -/
def clauseResults (terms : Field → List Text) : List (Occur × Query) → List (Occur × Bool)
  | [] => []
  | (occur, query) :: clauses => (occur, query.matches terms) :: clauseResults terms clauses

end

/-- `gram_tokens`. -/
def gramTokens (casing : Casing) (raw : Text) : Option (List Text) :=
  let raw := trim raw
  if raw.length < 2 then none
  else
    let tokens := Distinct.firsts [] (pathNgram casing raw)
    if tokens = [] then none else some tokens

/-- `gram_conjunction`. -/
def gramConjunction (field : Field) (tokens : List Text) : Query :=
  .boolean (tokens.map fun token => (.must, .term field token))

/-- `word_clause`. -/
def wordClause (tokens : List Text) : Query :=
  .boolean [(.should, gramConjunction .path tokens),
    (.should, .boost (gramConjunction .name tokens))]

/-- `MAX_RECALL_WORDS`. -/
def maxRecallWords : Nat := 12

/-- The cap on the words of `build_path_query`: those with the most grams, earlier ones
first, put back in their order. -/
def capWords (words : List (List Text)) : List (List Text) :=
  if words.length > maxRecallWords then
    let ranked := words.zipIdx.mergeSort fun a b =>
      decide (b.1.length < a.1.length ∨ (a.1.length = b.1.length ∧ a.2 ≤ b.2))
    ((ranked.take maxRecallWords).mergeSort fun a b => decide (a.2 ≤ b.2)).map (·.1)
  else words

/-- `build_path_query`. -/
def buildPathQuery (casing : Casing) (raw : Text) : Query :=
  let words := capWords ((splitWhitespace raw).filterMap (gramTokens casing))
  match words.map wordClause with
  | [] =>
    match gramTokens casing raw with
    | some tokens => wordClause tokens
    | none => .empty
  | [clause] => clause
  | clauses => .boolean (clauses.map fun clause => (.must, clause))

/-! ## What the queries match -/

section

variable {terms : Field → List Text}

lemma clauseResults_eq (clauses : List (Occur × Query)) :
    clauseResults terms clauses = clauses.map fun clause => (clause.1, clause.2.matches terms) := by
  induction clauses with
  | nil => simp [clauseResults]
  | cons clause clauses ih => simp [clauseResults, ih]

/-- A conjunction matches if it has clauses and they all match. -/
lemma matches_must {queries : List Query} :
    (Query.boolean (queries.map fun query => (.must, query))).matches terms ↔
      queries ≠ [] ∧ ∀ query ∈ queries, query.matches terms := by
  rw [Query.matches, clauseResults_eq, List.map_map]
  cases queries with
  | nil => simp [combine]
  | cons query queries => simp [combine]

variable {tokens : List Text}

lemma matches_gramConjunction {field : Field} :
    (gramConjunction field tokens).matches terms ↔
      tokens ≠ [] ∧ ∀ token ∈ tokens, token ∈ terms field := by
  have hmap : gramConjunction field tokens =
      .boolean ((tokens.map (Query.term field)).map fun query => (.must, query)) := by
    rw [List.map_map]
    rfl
  rw [hmap, matches_must]
  simp [Query.matches]

/-- A word matches if all its grams are in the one field or all are in the other. -/
lemma matches_wordClause :
    (wordClause tokens).matches terms ↔
      tokens ≠ [] ∧ ((∀ token ∈ tokens, token ∈ terms .path) ∨
        ∀ token ∈ tokens, token ∈ terms .name) := by
  have hclauses : (wordClause tokens).matches terms ↔
      (gramConjunction .path tokens).matches terms ∨
        (gramConjunction .name tokens).matches terms := by
    simp [wordClause, Query.matches, clauseResults, combine]
  rw [hclauses, matches_gramConjunction, matches_gramConjunction]
  tauto

/-- The cap only drops words, and not all of them. -/
lemma mem_of_mem_capWords {words : List (List Text)} (h : tokens ∈ capWords words) :
    tokens ∈ words := by
  unfold capWords at h
  split at h
  · obtain ⟨pair, hpair, rfl⟩ := List.mem_map.mp h
    rw [List.mem_mergeSort] at hpair
    have hzip := List.mem_mergeSort.mp (List.mem_of_mem_take hpair)
    exact List.fst_mem_of_mem_zipIdx hzip
  · exact h

lemma capWords_ne_nil {words : List (List Text)} (h : words ≠ []) : capWords words ≠ [] := by
  unfold capWords
  split
  · rename_i hlong
    intro hnil
    have hlength := congrArg List.length hnil
    rw [List.length_map, List.length_mergeSort, List.length_take, List.length_mergeSort,
      List.length_zipIdx, List.length_nil] at hlength
    unfold maxRecallWords at *
    omega
  · exact h

/-- A query with a word that has grams matches if the clauses of all such words do. -/
lemma matches_buildPathQuery {casing : Casing} {raw : Text}
    (hsome : (splitWhitespace raw).filterMap (gramTokens casing) ≠ [])
    (h : ∀ word ∈ splitWhitespace raw, ∀ tokens, gramTokens casing word = some tokens →
      (wordClause tokens).matches terms) : (buildPathQuery casing raw).matches terms := by
  have hall : ∀ clause ∈ (capWords ((splitWhitespace raw).filterMap (gramTokens casing))).map
      wordClause, clause.matches terms := by
    intro clause hclause
    obtain ⟨tokens, htokens, rfl⟩ := List.mem_map.mp hclause
    obtain ⟨word, hword, hgrams⟩ := List.mem_filterMap.mp (mem_of_mem_capWords htokens)
    exact h word hword tokens hgrams
  have hne := capWords_ne_nil hsome
  unfold buildPathQuery
  dsimp only
  split
  · rename_i hnil
    exact absurd (List.map_eq_nil_iff.mp hnil) hne
  · rename_i clause hone
    exact hall clause (by rw [hone]; exact List.mem_singleton_self clause)
  · exact matches_must.mpr ⟨fun hnil => hne (List.map_eq_nil_iff.mp hnil), hall⟩

end

end Bitmagnet.PathSearch
