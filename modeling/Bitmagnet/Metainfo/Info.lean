import Bitmagnet.Dht.Krpc

/-!
# Info dictionaries

`parse_info_bytes` of `bitmagnet-metainfo`: the bytes are hashed first, and only bytes
with the requested hash are decoded.

The bencode decoder is the `bendy` crate and the digests are those of `sha1` and
`sha2`; neither is part of the repository, so both are parameters.  `Bendy` has one
field for each way the two users of the decoder talk to it, and `Bendy.Lawful` the
one documented fact that slicing behind a decoded header rests on.
-/

namespace Bitmagnet

open Bytes (Fixed)
open Dht (I64)

/-! ## The bencode decoder -/

/-- `bendy::decoding::Error`, as the text it displays. -/
structure BendyError where
  text : String
deriving DecidableEq

/-- `bendy::decoding::Object`.  An integer is handed out as its text.  A dictionary is
read pair by pair: `pairs` is what `next_pair` gives, `broken` the error it then ends
in, if any, and `raw` what `into_raw` gives after the last pair. -/
inductive Object
  | integer (text : List UInt8)
  | bytes (value : List UInt8)
  | list
  | dict (pairs : List (List UInt8 × Object)) (broken : Option BendyError)
      (raw : Except BendyError (List UInt8))

/-- `bendy::value::Value`; the entries of a dictionary are those of a `BTreeMap`, by
ascending key. -/
inductive OwnedValue
  | bytes (value : List UInt8)
  | integer (value : I64)
  | list (items : List OwnedValue)
  | dict (entries : List (List UInt8 × OwnedValue))

/-- `Decoder::new(input).with_max_depth(depth)` in the ways it is used. -/
structure Bendy where
  /-- the first `next_object` -/
  nextObject : (depth : Nat) → (input : List UInt8) → Except BendyError (Option Object)
  /-- `Value::decode_bencode_object` of the first object -/
  decodeObject : (depth : Nat) → (input : List UInt8) → Except BendyError OwnedValue
  /-- whether the second `next_object` finds another object -/
  hasTrailingObject : (depth : Nat) → (input : List UInt8) → Except BendyError Bool

/-- `into_raw` of the first object is the input up to its end. -/
def Bendy.Lawful (bendy : Bendy) : Prop :=
  ∀ depth input pairs broken raw,
    bendy.nextObject depth input = .ok (some (.dict pairs broken (.ok raw))) →
      ∃ rest, input = raw ++ rest

/-! ## Text of a key -/

/-- A character that has begun: the bytes it still takes, the range of the next one,
and its value so far. -/
structure PendingChar where
  left : Nat
  lo : UInt8
  hi : UInt8
  code : Nat

/-- `char::REPLACEMENT_CHARACTER`. -/
def replacementCharacter : Char := Char.ofNat 0xFFFD

/-- A byte where a character starts. -/
def openChar (b : UInt8) : List Char × Option PendingChar :=
  if b < 0x80 then ([Char.ofNat b.toNat], none)
  else if 0xC2 ≤ b ∧ b ≤ 0xDF then ([], some ⟨1, 0x80, 0xBF, b.toNat % 32⟩)
  else if 0xE0 ≤ b ∧ b ≤ 0xEF then
    -- neither overlong forms nor surrogates
    ([], some ⟨2, if b = 0xE0 then 0xA0 else 0x80, if b = 0xED then 0x9F else 0xBF, b.toNat % 16⟩)
  else if 0xF0 ≤ b ∧ b ≤ 0xF4 then
    ([], some ⟨3, if b = 0xF0 then 0x90 else 0x80, if b = 0xF4 then 0x8F else 0xBF, b.toNat % 8⟩)
  else ([replacementCharacter], none)

/-- One byte of a text; a character that breaks off is replaced and the byte starts
another. -/
def pushByte (pending : Option PendingChar) (b : UInt8) : List Char × Option PendingChar :=
  match pending with
  | none => openChar b
  | some p =>
    if p.lo ≤ b ∧ b ≤ p.hi then
      let code := p.code * 64 + b.toNat % 64
      if p.left = 1 then ([Char.ofNat code], none)
      else ([], some ⟨p.left - 1, 0x80, 0xBF, code⟩)
    else (replacementCharacter :: (openChar b).1, (openChar b).2)

/-- `String::from_utf8_lossy`. -/
def fromUtf8Lossy (bytes : List UInt8) : String :=
  let (chars, pending) := bytes.foldl (fun (chars, pending) b =>
    (chars ++ (pushByte pending b).1, (pushByte pending b).2)) (([] : List Char), none)
  String.ofList (if pending.isSome then chars ++ [replacementCharacter] else chars)

/-! ## Decoded dictionaries -/

/-- `ParseInfoError`. -/
inductive ParseInfoError
  | wrongHash
  | bencode (text : String)
  | empty
  | trailingObject
  | invalidField (field expected : String)
deriving DecidableEq

/-- `InfoFile`. -/
structure InfoFile where
  length : I64
  path : List (List UInt8)
  pathUtf8 : List (List UInt8)
deriving DecidableEq

/-- `FileTreeFile`. -/
structure FileTreeFile where
  length : I64
  piecesRoot : List UInt8
deriving DecidableEq

/-- `FileTreeFile::default`. -/
def FileTreeFile.default : FileTreeFile := ⟨I64.zero, []⟩

/-- `FileTree`; the children are those of a `BTreeMap`, by ascending name. -/
inductive FileTree
  | mk (file : FileTreeFile) (propertiesPresent : Bool) (children : List (List UInt8 × FileTree))

/-- `FileTree::default`. -/
def FileTree.default : FileTree := .mk .default false []

/-- `Info`. -/
structure Info where
  pieceLength : I64
  pieces : List UInt8
  name : List UInt8
  nameUtf8 : List UInt8
  length : I64
  isPrivate : Option Bool
  source : List UInt8
  files : Option (List InfoFile)
  rawMetaVersion : I64
  fileTree : FileTree

/-- `Info::has_v1`. -/
def Info.hasV1 (info : Info) : Bool :=
  info.rawMetaVersion.val = 0 ∨ info.rawMetaVersion.val = 1 ∨ info.files.isSome ∨
    info.length.val ≠ 0 ∨ info.pieces ≠ []

/-- `Info::has_v2`. -/
def Info.hasV2 (info : Info) : Bool := info.rawMetaVersion.val = 2

/-- `MetaVersion`. -/
inductive MetaVersion
  | v1
  | v2
deriving DecidableEq

/-- `ParsedInfo`. -/
structure ParsedInfo where
  info : Info
  metaVersion : MetaVersion
  infoHashV1 : Option (Fixed UInt8 20)
  infoHashV2 : Option (Fixed UInt8 32)

/-- The bytes of an ASCII text. -/
def asciiBytes (text : String) : List UInt8 := text.toList.map fun c => UInt8.ofNat c.toNat

/-- `into_dict`. -/
def intoDict (value : OwnedValue) (field : String) :
    Except ParseInfoError (List (List UInt8 × OwnedValue)) :=
  match value with
  | .dict entries => .ok entries
  | _ => .error (.invalidField field "a dictionary")

/-- `into_list`. -/
def intoList (value : OwnedValue) (field : String) : Except ParseInfoError (List OwnedValue) :=
  match value with
  | .list items => .ok items
  | _ => .error (.invalidField field "a list")

/-- `into_bytes`. -/
def intoBytes (value : OwnedValue) (field : String) : Except ParseInfoError (List UInt8) :=
  match value with
  | .bytes value => .ok value
  | _ => .error (.invalidField field "a byte string")

/-- `into_integer`. -/
def intoInteger (value : OwnedValue) (field : String) : Except ParseInfoError I64 :=
  match value with
  | .integer value => .ok value
  | _ => .error (.invalidField field "an integer")

/-- `take_value`.  A taken entry leaves the dictionary; no key is taken twice, so only
`decode_file_tree`, which goes over the rest, can tell. -/
def takeValue (dict : List (List UInt8 × OwnedValue)) (key : String) : Option OwnedValue :=
  dict.lookup (asciiBytes key)

/-- `take_value(dict, key).map(decode).transpose()`. -/
def takeWith {α : Type} (dict : List (List UInt8 × OwnedValue)) (key : String)
    (decode : OwnedValue → Except ParseInfoError α) : Except ParseInfoError (Option α) :=
  match takeValue dict key with
  | none => .ok none
  | some value => do
    let decoded ← decode value
    pure (some decoded)

/-- `take_bytes`. -/
def takeBytes (dict : List (List UInt8 × OwnedValue)) (key field : String) :
    Except ParseInfoError (Option (List UInt8)) :=
  takeWith dict key (intoBytes · field)

/-- `take_integer`. -/
def takeInteger (dict : List (List UInt8 × OwnedValue)) (key field : String) :
    Except ParseInfoError (Option I64) :=
  takeWith dict key (intoInteger · field)

/-- `decode_byte_list`. -/
def decodeByteList (value : OwnedValue) (field : String) :
    Except ParseInfoError (List (List UInt8)) := do
  (← intoList value field).zipIdx.mapM fun (value, index) =>
    intoBytes value (field ++ "[" ++ toString index ++ "]")

/-- One entry of `decode_files`; `place` is the field of the entry. -/
def decodeFile (value : OwnedValue) (place : String) : Except ParseInfoError InfoFile := do
  let dict ← intoDict value place
  let length ← takeInteger dict "length" (place ++ ".length")
  let path ← takeWith dict "path" (decodeByteList · (place ++ ".path"))
  let pathUtf8 ← takeWith dict "path.utf-8" (decodeByteList · (place ++ ".path.utf-8"))
  pure ⟨length.getD I64.zero, path.getD [], pathUtf8.getD []⟩

/-- `decode_files`. -/
def decodeFiles (value : OwnedValue) (field : String) : Except ParseInfoError (List InfoFile) := do
  (← intoList value field).zipIdx.mapM fun (value, index) =>
    decodeFile value (field ++ "[" ++ toString index ++ "]")

/-- `decode_file_tree_file`. -/
def decodeFileTreeFile (value : OwnedValue) (field : String) :
    Except ParseInfoError FileTreeFile := do
  let dict ← intoDict value field
  let length ← takeInteger dict "length" (field ++ ".length")
  let piecesRoot ← takeBytes dict "pieces root" (field ++ ".pieces root")
  pure ⟨length.getD I64.zero, piecesRoot.getD []⟩

mutual

/-- `decode_file_tree`. -/
def decodeFileTree (value : OwnedValue) (field : String) : Except ParseInfoError FileTree :=
  match value with
  | .dict entries => do
    let properties ← takeWith entries "" (decodeFileTreeFile · (field ++ ".<properties>"))
    let children ← decodeChildren entries field
    pure (.mk (properties.getD .default) properties.isSome children)
  | _ => .error (.invalidField field "a dictionary")

/-- The children of a directory: every entry but the properties. -/
def decodeChildren (entries : List (List UInt8 × OwnedValue)) (field : String) :
    Except ParseInfoError (List (List UInt8 × FileTree)) :=
  match entries with
  | [] => .ok []
  | (name, value) :: rest =>
    if name = [] then decodeChildren rest field
    else do
      let tree ← decodeFileTree value (field ++ "." ++ fromUtf8Lossy name)
      let trees ← decodeChildren rest field
      pure ((name, tree) :: trees)

end

/-- `decode_info`. -/
def decodeInfo (value : OwnedValue) : Except ParseInfoError Info := do
  let dict ← intoDict value "info"
  let pieceLength ← takeInteger dict "piece length" "info.piece length"
  let pieces ← takeBytes dict "pieces" "info.pieces"
  let name ← takeBytes dict "name" "info.name"
  let nameUtf8 ← takeBytes dict "name.utf-8" "info.name.utf-8"
  let length ← takeInteger dict "length" "info.length"
  let isPrivate ← takeInteger dict "private" "info.private"
  let source ← takeBytes dict "source" "info.source"
  let files ← takeWith dict "files" (decodeFiles · "info.files")
  let rawMetaVersion ← takeInteger dict "meta version" "info.meta version"
  let fileTree ← takeWith dict "file tree" (decodeFileTree · "info.file tree")
  pure {
    pieceLength := pieceLength.getD I64.zero
    pieces := pieces.getD []
    name := name.getD []
    nameUtf8 := nameUtf8.getD []
    length := length.getD I64.zero
    isPrivate := isPrivate.map (·.val ≠ 0)
    source := source.getD []
    files
    rawMetaVersion := rawMetaVersion.getD I64.zero
    fileTree := fileTree.getD .default }

/-! ## Verified parsing -/

/-- The digests of the `sha1` and `sha2` crates. -/
structure Digests where
  sha1 : List UInt8 → Fixed UInt8 20
  sha256 : List UInt8 → Fixed UInt8 32

/-- The hash test of `parse_info_bytes`: SHA-1, or the front of SHA-256. -/
def Digests.Verifies (digests : Digests) (requested : Fixed UInt8 20) (raw : List UInt8) : Prop :=
  requested.val = (digests.sha1 raw).val ∨ requested.val = (digests.sha256 raw).val.take 20

instance (digests : Digests) (requested : Fixed UInt8 20) (raw : List UInt8) :
    Decidable (digests.Verifies requested raw) :=
  inferInstanceAs (Decidable (_ ∨ _))

/-- `bencode_error` of this crate keeps the text of the error. -/
def parseResult {α : Type} (x : Except BendyError α) : Except ParseInfoError α :=
  x.mapError fun error => .bencode error.text

/-- `MAX_INFO_NESTING_DEPTH`. -/
def maxInfoNestingDepth : Nat := 64

/-- `parse_info_bytes`. -/
def parseInfoBytes (bendy : Bendy) (digests : Digests) (requested : Fixed UInt8 20)
    (rawInfo : List UInt8) : Except ParseInfoError ParsedInfo := do
  if ¬ digests.Verifies requested rawInfo then .error .wrongHash
  else do
    let object ← parseResult (bendy.nextObject maxInfoNestingDepth rawInfo)
    if object.isNone then .error .empty
    else do
      let value ← parseResult (bendy.decodeObject maxInfoNestingDepth rawInfo)
      let trailing ← parseResult (bendy.hasTrailingObject maxInfoNestingDepth rawInfo)
      if trailing then .error .trailingObject
      else do
        let info ← decodeInfo value
        pure {
          info
          metaVersion := if info.hasV2 then .v2 else .v1
          infoHashV1 := if info.hasV1 then some (digests.sha1 rawInfo) else none
          infoHashV2 := if info.hasV2 then some (digests.sha256 rawInfo) else none }

/-- **Only verified bytes are parsed.** -/
lemma verifies_of_parseInfoBytes {bendy : Bendy} {digests : Digests}
    {requested : Fixed UInt8 20} {raw : List UInt8} {parsed : ParsedInfo}
    (h : parseInfoBytes bendy digests requested raw = .ok parsed) :
    digests.Verifies requested raw := by
  unfold parseInfoBytes at h
  by_contra hnot
  rw [if_pos hnot] at h
  cases h

end Bitmagnet
