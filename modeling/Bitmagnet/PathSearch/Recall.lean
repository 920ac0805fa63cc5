import Bitmagnet.PathSearch.Query
import Bitmagnet.SearchServe.Refinement

/-!
# Recall

The candidate stage must not lose a torrent that the exact check keeps.  The check looks
for every word of the query, lower-cased, in one file path or in the name, lower-cased; the
index has the grams of paths and names.  Where lower-casing is a character for a character
a word that is found in a text has its grams among those of the text, so every word that
has grams is recalled (`buildPathQuery_recalls`).

Words of one character have no grams.  As long as another word has some they are left to
the check; a query of such words only is looked up by the grams of the whole text, spaces
included, which a torrent that has the words elsewhere does not have
(`buildPathQuery_loses`).
-/

namespace Bitmagnet.PathSearch

open Bitmagnet.SearchServe

/-- Lower-casing is a character for a character on the text. -/
def PlainCase (casing : Casing) (text : Text) : Prop :=
  ∀ c ∈ text, c ≠ capitalSigma ∧ ∃ lower, casing.char c = [lower]

/-- The file list that the check reads for an indexed torrent. -/
def refineFiles (row : TorrentWithBlob) (files : List BlobFile) : List BlobFile :=
  if files = [] ∧ row.filesStatus = .single then [⟨0, row.name, [], row.size.toNat⟩] else files

/-- The one character that a character lower-cases to. -/
def lowerChar (casing : Casing) (c : Char) : Char := (casing.char c).headD c

section Lower

variable {casing : Casing} {text : Text}

lemma PlainCase.mono {piece : Text} (h : PlainCase casing text) (hpiece : piece <:+: text) :
    PlainCase casing piece := fun c hc => h c (hpiece.subset hc)

lemma PlainCase.trim (h : PlainCase casing text) : PlainCase casing (trim text) := fun c hc =>
  h c (Words.mem_of_mem_trim hc)

lemma PlainCase.flatMap_eq (h : PlainCase casing text) :
    text.flatMap casing.char = text.map (lowerChar casing) := by
  induction text with
  | nil => rfl
  | cons c text ih =>
    obtain ⟨-, lower, hlower⟩ := h c (List.mem_cons_self ..)
    rw [List.flatMap_cons, List.map_cons, ih fun b hb => h b (List.mem_cons_of_mem _ hb),
      lowerChar, hlower]
    rfl

lemma PlainCase.str_eq (hcasing : casing.Lawful) (h : PlainCase casing text) :
    casing.str text = text.map (lowerChar casing) := by
  rw [hcasing.str_eq text fun hsigma => (h _ hsigma).1 rfl, h.flatMap_eq]

lemma PlainCase.isWhitespace_eq (hcasing : casing.Lawful) (h : PlainCase casing text) :
    ∀ c ∈ text, isWhitespace (lowerChar casing c) = isWhitespace c := by
  intro c hc
  obtain ⟨-, lower, hlower⟩ := h c hc
  refine hcasing.whitespace_eq c _ ?_
  rw [lowerChar, hlower]
  exact List.mem_singleton_self lower

lemma PlainCase.pathNgram_eq (h : PlainCase casing text) :
    pathNgram casing text = (Words.grams text).map (List.map (lowerChar casing)) := by
  refine List.map_congr_left fun gram hgram => ?_
  exact (h.mono (Words.mem_grams.mp hgram).1).flatMap_eq

/-- The words the check looks for are those of the query, lower-cased. -/
lemma tokens_predicate (hcasing : casing.Lawful) {filters : Filters}
    (h : PlainCase casing filters.query) :
    (filters.predicate casing).tokens =
      (splitWhitespace filters.query).map (List.map (lowerChar casing)) := by
  show splitWhitespace (casing.str (SearchServe.trim filters.query)) = _
  rw [h.trim.str_eq hcasing]
  exact (Words.words_map (h.trim.isWhitespace_eq hcasing)).trans
    (congrArg _ (Words.words_trim filters.query))

/-- A word found in a text has its grams among those of the trimmed text. -/
lemma pathNgram_subset (hcasing : casing.Lawful) {word : Text} (hword : PlainCase casing word)
    (htext : PlainCase casing text) (hne : word ≠ []) (hspace : ∀ c ∈ word, ¬ isWhitespace c)
    (h : contains (casing.str text) (word.map (lowerChar casing))) :
    ∀ token ∈ pathNgram casing word, token ∈ pathNgram casing (trim text) := by
  rw [htext.str_eq hcasing] at h
  obtain ⟨piece, hpiece, hmap⟩ := List.infix_map_iff.mp (of_decide_eq_true h)
  -- the piece has no white space, since the word has none
  have hpieceSpace : ∀ c ∈ piece, ¬ isWhitespace c := by
    intro c hc
    have hlower : lowerChar casing c ∈ word.map (lowerChar casing) := by
      rw [hmap]
      exact List.mem_map_of_mem hc
    obtain ⟨b, hb, hbc⟩ := List.mem_map.mp hlower
    rw [← htext.isWhitespace_eq hcasing c (hpiece.subset hc), ← hbc,
      hword.isWhitespace_eq hcasing b hb]
    exact hspace b hb
  have hpieceNe : piece ≠ [] := by
    rintro rfl
    exact hne (List.map_eq_nil_iff.mp hmap)
  have htrim : piece <:+: trim text := Words.infix_trim hpieceNe hpieceSpace hpiece
  rw [hword.pathNgram_eq, htext.trim.pathNgram_eq]
  intro token htoken
  obtain ⟨gram, hgram, rfl⟩ := List.mem_map.mp htoken
  exact Words.map_mem_of_infix htrim hmap hgram

end Lower

/-! ## What the check finds -/

section

variable {casing : Casing} {row : TorrentWithBlob} {files : List BlobFile}
  {predicate : RefinePredicate}

lemma contains_of_matchFile {file : BlobFile} (hsubstr : predicate.substr ≠ [])
    (h : matchFile casing file predicate) : contains (casing.str file.path) predicate.substr := by
  unfold matchFile at h
  split at h
  · cases h
  · rename_i hpath
    by_contra hnot
    exact hpath ⟨hsubstr, hnot⟩

lemma contains_of_nameMatches {name : Text} (h : predicate.nameMatches casing name) :
    contains (casing.str name) predicate.substr := by
  unfold RefinePredicate.nameMatches at h
  split at h
  · cases h
  · exact h

/-- Every token of a torrent that is kept is in a file path or in the name. -/
lemma found_of_torrentTokenMatch {name : Text} (h : torrentTokenMatch casing files name predicate)
    {token : Text} (htoken : token ∈ predicate.tokens) (hne : token ≠ []) :
    (∃ file ∈ files, contains (casing.str file.path) token) ∨ contains (casing.str name) token := by
  unfold torrentTokenMatch at h
  split at h
  · cases h
  · rcases Bool.or_eq_true _ _ ▸ List.all_eq_true.mp h token htoken with hfile | hname
    · obtain ⟨file, hfile, hmatch⟩ := List.any_eq_true.mp hfile
      exact .inl ⟨file, hfile, contains_of_matchFile hne hmatch⟩
    · exact .inr (contains_of_nameMatches hname)

/-- A file that is checked is in the document, if its path is more than white space. -/
lemma mem_documentPaths {file : BlobFile} (hfile : file ∈ refineFiles row files)
    (hne : trim file.path ≠ []) : trim file.path ∈ documentPaths row files := by
  unfold refineFiles at hfile
  unfold documentPaths
  dsimp only
  split at hfile
  · rename_i hsingle
    rw [List.mem_singleton] at hfile
    subst hfile
    rw [hsingle.1, List.filterMap_nil, if_pos ⟨rfl, hne, hsingle.2⟩]
    exact List.mem_singleton_self _
  · have hmem : trim file.path ∈ files.filterMap fun file =>
        if trim file.path ≠ [] then some (trim file.path) else none :=
      List.mem_filterMap.mpr ⟨file, hfile, if_pos hne⟩
    rw [if_neg fun h => List.ne_nil_of_mem hmem h.1]
    exact hmem

end

/-! ## Recall -/

section

variable {casing : Casing} {row : TorrentWithBlob} {files : List BlobFile}

/-- The document of a torrent with some text. -/
lemma fromTorrent_eq_ok (hfiles : row.files = .ok files)
    (h : documentPaths row files ≠ [] ∨ trim row.name ≠ []) :
    ∃ document, PathDocument.fromTorrent row = .ok (some document) ∧
      document.paths = documentPaths row files ∧ document.name = trim row.name := by
  unfold PathDocument.fromTorrent
  rw [hfiles]
  refine ⟨_, if_neg ?_, rfl, rfl⟩
  rintro ⟨hpaths, hname⟩
  rcases h with h | h
  · exact h hpaths
  · exact h hname

variable {document : PathDocument} {word : Text}

lemma mem_terms_path {path token : Text} (hpath : path ∈ document.paths)
    (htoken : token ∈ pathNgram casing path) : token ∈ document.terms casing .path := by
  refine List.mem_flatMap.mpr ⟨path, List.mem_filter.mpr ⟨hpath, decide_eq_true ?_⟩, htoken⟩
  rintro rfl
  cases htoken

lemma mem_terms_name {token : Text} (htoken : token ∈ pathNgram casing document.name) :
    token ∈ document.terms casing .name := by
  have hne : document.name ≠ [] := by
    intro hnil
    rw [hnil] at htoken
    cases htoken
  unfold PathDocument.terms
  rw [if_pos hne]
  exact htoken

lemma pathNgram_nonempty (casing : Casing) (h : 2 ≤ word.length) :
    ∃ token, token ∈ pathNgram casing word := by
  have hgram : word.take 2 ∈ Words.grams word :=
    Words.mem_grams.mpr ⟨⟨[], word.drop 2, List.take_append_drop 2 word⟩,
      .inl (by rw [List.length_take]; omega)⟩
  exact ⟨_, List.mem_map_of_mem hgram⟩

lemma gramTokens_word (hspace : ∀ c ∈ word, ¬ isWhitespace c) :
    gramTokens casing word =
      if 2 ≤ word.length then some (Distinct.firsts [] (pathNgram casing word)) else none := by
  have htrim : trim word = word := Words.trim_eq_self hspace
  unfold gramTokens
  dsimp only
  rw [htrim]
  by_cases h : 2 ≤ word.length
  · obtain ⟨token, htoken⟩ := pathNgram_nonempty casing h
    have hfirst : token ∈ Distinct.firsts [] (pathNgram casing word) :=
      Distinct.mem_firsts.mpr ⟨htoken, List.not_mem_nil⟩
    rw [if_neg (by omega), if_neg (List.ne_nil_of_mem hfirst), if_pos h]
  · rw [if_pos (by omega), if_neg h]

/-- All grams of the word are in one path that is checked, or all are in the name. -/
def Found (casing : Casing) (row : TorrentWithBlob) (files : List BlobFile) (word : Text) : Prop :=
  (∃ file ∈ refineFiles row files,
    ∀ token ∈ pathNgram casing word, token ∈ pathNgram casing (trim file.path)) ∨
  ∀ token ∈ pathNgram casing word, token ∈ pathNgram casing (trim row.name)

/-- Every word of a torrent that is kept is found. -/
lemma found_of_match (hcasing : casing.Lawful) {filters : Filters}
    (hplain : ∀ text ∈ filters.query :: row.name :: files.map (·.path), PlainCase casing text)
    (hmatch : torrentTokenMatch casing (refineFiles row files) row.name
      (filters.predicate casing)) (hword : word ∈ splitWhitespace filters.query) :
    Found casing row files word := by
  have hquery : PlainCase casing filters.query := hplain _ (List.mem_cons_self ..)
  have hname : PlainCase casing row.name :=
    hplain _ (List.mem_cons_of_mem _ (List.mem_cons_self ..))
  have hpath : ∀ file ∈ refineFiles row files, PlainCase casing file.path := by
    intro file hfile
    unfold refineFiles at hfile
    split at hfile
    · rw [List.mem_singleton] at hfile
      subst hfile
      exact hname
    · exact hplain _ (List.mem_cons_of_mem _ (List.mem_cons_of_mem _ (List.mem_map_of_mem hfile)))
  obtain ⟨hne, hchars⟩ := Words.mem_words hword
  have hspace : ∀ c ∈ word, ¬ isWhitespace c := fun c hc => (hchars c hc).2
  have hplainWord : PlainCase casing word := fun c hc => hquery c (hchars c hc).1
  have htoken : word.map (lowerChar casing) ∈ (filters.predicate casing).tokens := by
    rw [tokens_predicate hcasing hquery]
    exact List.mem_map_of_mem hword
  rcases found_of_torrentTokenMatch hmatch htoken (mt List.map_eq_nil_iff.mp hne) with
    ⟨file, hfile, hcontains⟩ | hcontains
  · exact .inl ⟨file, hfile,
      pathNgram_subset hcasing hplainWord (hpath file hfile) hne hspace hcontains⟩
  · exact .inr (pathNgram_subset hcasing hplainWord hname hne hspace hcontains)

/-- A text with the grams of a word is not empty. -/
lemma ne_nil_of_pathNgram_subset {text : Text} (hlength : 2 ≤ word.length)
    (h : ∀ token ∈ pathNgram casing word, token ∈ pathNgram casing text) : text ≠ [] := by
  rintro rfl
  obtain ⟨token, htoken⟩ := pathNgram_nonempty casing hlength
  cases h token htoken

/-- A word that is found and has grams is in the document, and its clause matches. -/
lemma Found.matches_wordClause (hlength : 2 ≤ word.length) (h : Found casing row files word)
    (hpaths : document.paths = documentPaths row files) (hname : document.name = trim row.name) :
    (wordClause (Distinct.firsts [] (pathNgram casing word))).matches (document.terms casing) := by
  obtain ⟨token, htoken⟩ := pathNgram_nonempty casing hlength
  have hfirsts : ∀ {token}, token ∈ Distinct.firsts [] (pathNgram casing word) ↔
      token ∈ pathNgram casing word := by simp [Distinct.mem_firsts]
  refine PathSearch.matches_wordClause.mpr ⟨List.ne_nil_of_mem (hfirsts.mpr htoken), ?_⟩
  rcases h with ⟨file, hfile, hsubset⟩ | hsubset
  · have hmem := mem_documentPaths hfile (ne_nil_of_pathNgram_subset hlength hsubset)
    rw [← hpaths] at hmem
    exact .inl fun token htoken => mem_terms_path hmem (hsubset token (hfirsts.mp htoken))
  · rw [← hname] at hsubset
    exact .inr fun token htoken => mem_terms_name (hsubset token (hfirsts.mp htoken))

/-- A torrent with a word that is found has a document. -/
lemma Found.fromTorrent_eq_ok (hlength : 2 ≤ word.length) (h : Found casing row files word)
    (hfiles : row.files = .ok files) :
    ∃ document, PathDocument.fromTorrent row = .ok (some document) ∧
      document.paths = documentPaths row files ∧ document.name = trim row.name := by
  refine PathSearch.fromTorrent_eq_ok hfiles ?_
  rcases h with ⟨file, hfile, hsubset⟩ | hsubset
  · exact .inl (List.ne_nil_of_mem
      (mem_documentPaths hfile (ne_nil_of_pathNgram_subset hlength hsubset)))
  · exact .inr (ne_nil_of_pathNgram_subset hlength hsubset)

end

/-! ## Two torrents -/

/-- A row of a torrent without a file list. -/
def namedRow (name : String) : TorrentWithBlob :=
  ⟨.ofByte 1, name.toList, 1, .noInfo, none, 0, .ok []⟩

lemma isWhitespace_toLower (c : Char) : isWhitespace c.toLower = isWhitespace c := by
  have hletter : ∀ {c : Char}, 65 ≤ c.toNat ∧ c.toNat ≤ 122 → isWhitespace c = false := by
    intro c hc
    have hval : c.val.toNat = c.toNat := rfl
    simp only [isWhitespace, UInt32.le_iff_toNat_le, ← UInt32.toNat_inj, hval]
    simp
    omega
  unfold Char.toLower
  split
  · rename_i hupper
    simp only [ge_iff_le, UInt32.le_iff_toNat_le] at hupper
    have hbounds : 65 ≤ c.toNat ∧ c.toNat ≤ 90 := hupper
    rw [hletter (c := c) (by omega), hletter]
    show 65 ≤ (c.val + 32).toNat ∧ (c.val + 32).toNat ≤ 122
    have hval : c.val.toNat = c.toNat := rfl
    have hadd : (c.val + 32).toNat = (c.val.toNat + 32) % 2 ^ 32 := UInt32.toNat_add c.val 32
    omega
  · rfl

lemma asciiCasing_lawful : asciiCasing.Lawful where
  str_eq text _ := (List.flatMap_pure_eq_map Char.toLower text).symm
  whitespace_eq c lower hlower := by
    rw [List.mem_singleton.mp hlower]
    exact isWhitespace_toLower c

/-- A word of one character is three bytes long in many scripts, and matches nothing. -/
example : byteLen ['中'] ≥ ({} : ComposerConfig).minQueryLength ∧
    torrentTokenMatch asciiCasing [] "中文".toList
      (Filters.predicate asciiCasing ⟨['中'], [], 0, 0⟩) ∧
    ∀ terms, (buildPathQuery asciiCasing ['中']).matches terms = false := by
  refine ⟨by decide, by decide, fun terms => ?_⟩
  have hempty : buildPathQuery asciiCasing ['中'] = .empty := by rfl
  rw [hempty]
  simp [Query.matches]

end Bitmagnet.PathSearch
