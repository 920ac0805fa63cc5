import Mathlib.Algebra.Group.Nat.Defs
import Mathlib.Algebra.GroupWithZero.Nat
import Mathlib.Data.List.Infix
import Bitmagnet.Library.Bytes

/-!
# The exact-refine predicate

`refine.rs` of `bitmagnet-search-serve` and the bounded blob decoder of
`bitmagnet-model` it uses: whether a candidate torrent really matches a path query, on
which file list that is decided, and the page window.

A string is the list of its characters.  `Casing` is the Unicode lower-casing of Rust's
standard library: a character at a time for `char`, and for `str` the same except where a
capital sigma occurs, whose lower case depends on what is around it.  `BlobCodec` is
zstd and MessagePack.
-/

namespace Bitmagnet.SearchServe

/-- `str`. -/
abbrev Text := List Char

instance : LawfulBEq Text := inferInstance

/-- `str::len`. -/
def byteLen (text : Text) : Nat := (text.map Char.utf8Size).sum

@[simp] lemma byteLen_nil : byteLen [] = 0 := rfl

@[simp] lemma byteLen_cons (c : Char) (text : Text) :
    byteLen (c :: text) = c.utf8Size + byteLen text := by
  simp [byteLen]

@[simp] lemma byteLen_append (text text' : Text) :
    byteLen (text ++ text') = byteLen text + byteLen text' := by
  simp [byteLen]

lemma utf8Size_of_isDigit {c : Char} (h : c.isDigit = true) : c.utf8Size = 1 := by
  have hle : c.val ≤ 57 := by
    simp only [Char.isDigit, Bool.and_eq_true, decide_eq_true_eq] at h
    exact h.2
  exact Char.utf8Size_eq_one_iff.mpr (UInt32.le_trans hle (by decide))

/-- Every digit is one byte. -/
lemma byteLen_digits {text : Text} (h : ∀ c ∈ text, c.isDigit = true) :
    byteLen text = text.length := by
  rw [byteLen, List.map_congr_left fun c hc => utf8Size_of_isDigit (h c hc)]
  simp

/-- `char::is_whitespace`: the Unicode property White_Space. -/
def isWhitespace (c : Char) : Bool :=
  (0x09 ≤ c.val ∧ c.val ≤ 0x0D) ∨ c.val = 0x20 ∨ c.val = 0x85 ∨ c.val = 0xA0 ∨ c.val = 0x1680 ∨
    (0x2000 ≤ c.val ∧ c.val ≤ 0x200A) ∨ c.val = 0x2028 ∨ c.val = 0x2029 ∨ c.val = 0x202F ∨
    c.val = 0x205F ∨ c.val = 0x3000

/-- `str::trim`. -/
def trim (text : Text) : Text :=
  ((text.dropWhile isWhitespace).reverse.dropWhile isWhitespace).reverse

/-- `str::split_whitespace`. -/
def splitWhitespace (text : Text) : List Text := (text.splitOnP isWhitespace).filter (· ≠ [])

/-- Lower-casing. -/
structure Casing where
  /-- `char::to_lowercase` -/
  char : Char → Text
  /-- `str::to_lowercase` -/
  str : Text → Text

/-- Capital sigma, the one character whose lower case depends on its neighbours. -/
def capitalSigma : Char := Char.ofNat 0x3A3

/-- The documented relation of the two lower-casings, and what the tables of Unicode have
for white space. -/
structure Casing.Lawful (casing : Casing) : Prop where
  str_eq : ∀ text, capitalSigma ∉ text → casing.str text = text.flatMap casing.char
  whitespace_eq : ∀ c, ∀ lower ∈ casing.char c, isWhitespace lower = isWhitespace c

/-! ## Predicates -/

/-- `Filters`. -/
structure Filters where
  query : Text
  extensions : List Text
  minSize : Nat
  maxSize : Nat

/-- `RefinePredicate`. -/
structure RefinePredicate where
  substr : Text
  tokens : List Text
  extensions : List Text
  minSize : Nat
  maxSize : Nat

/-- `tokenize_query`. -/
def tokenizeQuery (loweredQuery : Text) : List Text := splitWhitespace loweredQuery

/-- `Filters::predicate`. -/
def Filters.predicate (casing : Casing) (filters : Filters) : RefinePredicate :=
  let substr := casing.str (trim filters.query)
  { substr
    tokens := tokenizeQuery substr
    extensions := filters.extensions.map casing.str
    minSize := filters.minSize
    maxSize := filters.maxSize }

/-- `BlobFile`. -/
structure BlobFile where
  index : Nat
  path : Text
  extension : Text
  size : Nat
deriving DecidableEq

/-- `BlobFile::owned_string_bytes`. -/
def BlobFile.ownedStringBytes (file : BlobFile) : Nat := byteLen file.path + byteLen file.extension

/-- `file_extension_from_path`. -/
def fileExtensionFromPath (casing : Casing) (path : Text) : Option Text :=
  let lower := casing.str path
  let ext := (lower.reverse.takeWhile (· ≠ '.')).reverse
  match lower.reverse.dropWhile (· ≠ '.') with
  | [] | [_] => none
  | _ :: before :: _ =>
    if before = '/' ∨ before = '.' then none
    else if ext = [] ∨ ¬ ext.all (fun c => ('a' ≤ c ∧ c ≤ 'z') ∨ ('0' ≤ c ∧ c ≤ '9')) then none
    else some ext

/-- `file_extension`. -/
def fileExtension (casing : Casing) (file : BlobFile) : Text :=
  if file.extension = [] then (fileExtensionFromPath casing file.path).getD []
  else casing.str file.extension

/-- `str::contains`. -/
def contains (text pattern : Text) : Bool := pattern <:+: text

/-- `match_file`. -/
def matchFile (casing : Casing) (file : BlobFile) (predicate : RefinePredicate) : Bool :=
  if predicate.substr ≠ [] ∧ ¬ contains (casing.str file.path) predicate.substr then false
  else if predicate.extensions ≠ [] ∧ fileExtension casing file ∉ predicate.extensions then false
  else if predicate.minSize > 0 ∧ file.size < predicate.minSize then false
  else if predicate.maxSize > 0 ∧ file.size > predicate.maxSize then false
  else true

/-- `torrent_matches`. -/
def torrentMatches (casing : Casing) (files : List BlobFile) (predicate : RefinePredicate) : Bool :=
  files.any (matchFile casing · predicate)

/-- `name_matches`. -/
def RefinePredicate.nameMatches (casing : Casing) (predicate : RefinePredicate) (name : Text) :
    Bool :=
  if predicate.substr = [] ∨ predicate.extensions ≠ [] ∨ predicate.minSize > 0 ∨
      predicate.maxSize > 0 then false
  else contains (casing.str name) predicate.substr

/-- `with_substr`. -/
def RefinePredicate.withSubstr (predicate : RefinePredicate) (substr : Text) : RefinePredicate :=
  { predicate with substr, tokens := [] }

/-- `torrent_token_match`. -/
def torrentTokenMatch (casing : Casing) (files : List BlobFile) (name : Text)
    (predicate : RefinePredicate) : Bool :=
  if predicate.tokens = [] then false
  else predicate.tokens.all fun token =>
    torrentMatches casing files (predicate.withSubstr token) ||
      (predicate.withSubstr token).nameMatches casing name

/-! ## File lists -/

/-- `FilesStatus`. -/
inductive FilesStatus
  | noInfo
  | single
  | multi
  | overThreshold
deriving DecidableEq

/-- `Torrent`, as far as the refine path reads it. -/
structure Torrent (Blob : Type) where
  name : Text
  size : Nat
  filesStatus : FilesStatus
  filesData : Option Blob
deriving DecidableEq

/-- `BlobError`. -/
inductive BlobError
  | zstd
  | decode
  | decompressedLimitExceeded (limit : Nat)
  | fileCountLimitExceeded (count limit : Nat)
  | ownedStringLimitExceeded (bytes limit : Nat)
deriving DecidableEq

/-- What a MessagePack reader finds: no array, or an array of a declared length with its
rows, if they all decode. -/
inductive Unpacked
  | malformed
  | rows (count : Nat) (files : Option (List BlobFile))

/-- zstd and MessagePack. -/
structure BlobCodec (Blob : Type) where
  /-- what a frame decompresses to under a bound on its window, up to its end or an error,
  and whether it is the end -/
  inflate : Blob → (windowLog : Nat) → List UInt8 × Bool
  unpack : List UInt8 → Unpacked

/-- The documented behaviour of the bound on the window: a frame that is read under a
bound is read the same under a larger one. -/
structure BlobCodec.Lawful {Blob : Type} (codec : BlobCodec Blob) : Prop where
  inflate_mono : ∀ blob {log log' : Nat}, log ≤ log' → (codec.inflate blob log).2 →
    codec.inflate blob log' = codec.inflate blob log

/-- `DecodedFiles` and `BoundedRefineFiles`. -/
structure DecodedFiles where
  files : List BlobFile
  decompressedBytes : Nat
  ownedStringBytes : Nat
deriving DecidableEq

/-- `window_log_for_limit`. -/
def windowLogForLimit (limit : Nat) : Nat :=
  let ceilLog := if limit - 1 = 0 then 0 else (limit - 1).log2 + 1
  min (max ceilLog 23) 31

section Files

variable {Blob : Type} (codec : BlobCodec Blob)

/-- `read_decompressed_bounded`: at most `limit` bytes, then a probe for one more. -/
def readDecompressedBounded (blob : Blob) (limit : Nat) : Except BlobError (List UInt8) :=
  let (raw, ended) := codec.inflate blob (windowLogForLimit limit)
  if limit < raw.length then .error (.decompressedLimitExceeded limit)
  else if ended then .ok raw
  else .error .zstd

/-- `deserialize_files_bounded`. -/
def deserializeFilesBounded (blob : Blob) (maxDecompressedBytes maxFiles : Nat) :
    Except BlobError DecodedFiles := do
  let raw ← readDecompressedBounded codec blob maxDecompressedBytes
  match codec.unpack raw with
  | .malformed => .error .decode
  | .rows count files =>
    if count > maxFiles then .error (.fileCountLimitExceeded count maxFiles)
    else
      match files with
      | none => .error .decode
      | some files =>
        .ok ⟨files, raw.length, (files.map BlobFile.ownedStringBytes).sum⟩

/-- The file a single-file torrent is taken to have. -/
def Torrent.surrogate (torrent : Torrent Blob) : BlobFile := ⟨0, torrent.name, [], torrent.size⟩

/-- The part of `files_for_refine_bounded` behind the blob. -/
def filesWithoutBlob (torrent : Torrent Blob) (maxOwnedStringBytes maxFiles : Nat) :
    Except BlobError (Option DecodedFiles) :=
  match torrent.filesStatus with
  | .single =>
    if maxFiles = 0 then .error (.fileCountLimitExceeded 1 0)
    else if byteLen torrent.name > maxOwnedStringBytes then
      .error (.ownedStringLimitExceeded (byteLen torrent.name) maxOwnedStringBytes)
    else .ok (some ⟨[torrent.surrogate], 0, torrent.surrogate.ownedStringBytes⟩)
  | .noInfo | .overThreshold => .ok (some ⟨[], 0, 0⟩)
  | .multi => .ok none

/-- `files_for_refine_bounded`. -/
def filesForRefineBounded (torrent : Torrent Blob)
    (maxDecompressedBytes maxOwnedStringBytes maxFiles : Nat) :
    Except BlobError (Option DecodedFiles) :=
  match torrent.filesData with
  | none => filesWithoutBlob torrent maxOwnedStringBytes maxFiles
  | some blob =>
    match deserializeFilesBounded codec blob maxDecompressedBytes maxFiles with
    | .ok decoded =>
      if decoded.files = [] then filesWithoutBlob torrent maxOwnedStringBytes maxFiles
      else if decoded.ownedStringBytes > maxOwnedStringBytes then
        .error (.ownedStringLimitExceeded decoded.ownedStringBytes maxOwnedStringBytes)
      else .ok (some decoded)
    | .error error =>
      if torrent.filesStatus ≠ .single then .error error
      else filesWithoutBlob torrent maxOwnedStringBytes maxFiles

end Files

/-- `paginate`. -/
def paginate {α : Type} (rows : List α) (offset limit : Nat) : List α :=
  if offset ≥ rows.length then []
  else if limit > 0 then (rows.drop offset).take limit
  else rows.drop offset

end Bitmagnet.SearchServe
