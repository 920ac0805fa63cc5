import Mathlib.Data.List.Chain
import Mathlib.Data.List.Infix
import Mathlib.Data.List.Lex
import Mathlib.Data.List.Pairwise
import Mathlib.Algebra.BigOperators.Group.List.Basic
import Mathlib.Algebra.Group.Int.Defs
import Mathlib.Algebra.Group.Nat.Defs
import Mathlib.Algebra.GroupWithZero.Nat
import Mathlib.Order.Bounds.Defs
import Mathlib.Tactic.Ring
import Bitmagnet.Library.Fallible
import Bitmagnet.Metainfo.Info

/-!
# The files of an info dictionary

`upverted_files` and `total_length` of `bitmagnet-metainfo`: the files of a v1 list or the leaves
of a v2 tree, and where each of them lies in the torrent.

All arithmetic is on `i64` and checked, except for one remainder, which would panic on a zero
divisor; `I64.rem` faults there.  What the files are for is stated without the loops:
`FileTree.Leaf` is a node of the tree without children and `Info.advance` the room a file takes, as
an integer without bounds.
-/

namespace Bitmagnet

open Bytes (Fixed)
open Dht (I64)

/-! ## Checked arithmetic -/

/-- A result of `i64` arithmetic, unless it overflows. -/
def I64.ofInt? (n : Int) : Option I64 :=
  if h : -2 ^ 63 ≤ n ∧ n < 2 ^ 63 then some ⟨n, h⟩ else none

/-- `checked_add`. -/
def checkedAdd (a b : I64) : Option I64 := I64.ofInt? (a.val + b.val)

/-- `checked_mul`. -/
def checkedMul (a b : I64) : Option I64 := I64.ofInt? (a.val * b.val)

/-- `checked_div`. -/
def checkedDiv (a b : I64) : Option I64 :=
  if b.val = 0 then none else I64.ofInt? (a.val.tdiv b.val)

/-- `%` on `i64`, which panics on a zero divisor and on `i64::MIN % -1`. -/
def I64.rem {ε : Type} (a b : I64) : Outcome ε Int :=
  if b.val = 0 ∨ (a.val = -2 ^ 63 ∧ b.val = -1) then .fault else .ok (a.val.tmod b.val)

/-- `i64::from(bool)`. -/
def I64.ofBool (b : Bool) : I64 := if b then ⟨1, by decide⟩ else I64.zero

lemma I64.ofInt?_of_range {n : Int} (lo : -2 ^ 63 ≤ n) (hi : n < 2 ^ 63) :
    I64.ofInt? n = some ⟨n, lo, hi⟩ := dif_pos ⟨lo, hi⟩

lemma I64.ofInt?_eq_some {n : Int} {a : I64} : I64.ofInt? n = some a ↔ a.val = n := by
  unfold I64.ofInt?
  split
  case isTrue h =>
    constructor
    · intro heq
      cases heq
      rfl
    · rintro rfl
      rfl
  case isFalse h =>
    constructor
    · intro heq
      cases heq
    · rintro rfl
      exact absurd a.property h

/-! ## Selected files -/

/-- `InfoFilesError`. -/
inductive InfoFilesError
  | negativeFileLength (path : List (List UInt8)) (length : I64)
  | nonPositiveV2PieceLength (pieceLength : I64)
  | invalidPiecesRootLength (path : List (List UInt8)) (actual : Nat)
  | torrentOffsetOverflow (path : List (List UInt8))
  | totalLengthOverflow (path : List (List UInt8))
deriving DecidableEq

/-- `SelectedFile`. -/
structure SelectedFile where
  length : I64
  path : List (List UInt8)
  pathUtf8 : List (List UInt8)
  piecesRoot : Option (Fixed UInt8 32)
deriving DecidableEq

/-- `NormalizedFile`. -/
structure NormalizedFile extends SelectedFile where
  torrentOffset : I64
deriving DecidableEq

/-- `SelectedFile::v1`. -/
def SelectedFile.v1 (length : I64) (path pathUtf8 : List (List UInt8)) :
    Outcome InfoFilesError SelectedFile :=
  if length.val < 0 then .error (.negativeFileLength path length)
  else .ok ⟨length, path, pathUtf8, none⟩

/-- The length of a pieces root decides whether it is one, is absent, or is an error. -/
def selectRoot (path : List (List UInt8)) (piecesRoot : List UInt8) :
    Outcome InfoFilesError (Option (Fixed UInt8 32)) :=
  if piecesRoot.length = 0 then .ok none
  else if h : piecesRoot.length = 32 then .ok (some ⟨piecesRoot, h⟩)
  else .error (.invalidPiecesRootLength path piecesRoot.length)

/-- `collect_selected_files` at a node without children. -/
def FileTreeFile.select (file : FileTreeFile) (path : List (List UInt8)) :
    Outcome InfoFilesError SelectedFile :=
  if file.length.val < 0 then .error (.negativeFileLength path file.length)
  else do
    let piecesRoot ← selectRoot path file.piecesRoot
    .ok ⟨file.length, path, path, piecesRoot⟩

mutual

/-- `collect_selected_files`: the files found so far, and those below `path`. -/
def FileTree.collectSelectedFiles (tree : FileTree) (path : List (List UInt8))
    (files : List SelectedFile) : Outcome InfoFilesError (List SelectedFile) :=
  match tree with
  | .mk file _ [] => do
    let selected ← file.select path
    .ok (files ++ [selected])
  | .mk _ _ (child :: children) => collectChildren (child :: children) path files

/-- The loop of `collect_selected_files` over the children. -/
def collectChildren (children : List (List UInt8 × FileTree)) (path : List (List UInt8))
    (files : List SelectedFile) : Outcome InfoFilesError (List SelectedFile) :=
  match children with
  | [] => .ok files
  | (name, child) :: rest => do
    let files ← child.collectSelectedFiles (path ++ [name]) files
    collectChildren rest path files

end

/-- `selected_files`. -/
def Info.selectedFiles (info : Info) : Outcome InfoFilesError (List SelectedFile) :=
  if info.hasV2 then
    if info.pieceLength.val ≤ 0 then .error (.nonPositiveV2PieceLength info.pieceLength)
    else info.fileTree.collectSelectedFiles [] []
  else
    match info.files.filter (· ≠ []) with
    | none => do
      let file ← SelectedFile.v1 info.length [] []
      .ok [file]
    | some files =>
      .collect (files.map fun file => SelectedFile.v1 file.length file.path file.pathUtf8)

/-! ## Layout -/

/-- `checked_piece_aligned_length`. -/
def checkedPieceAlignedLength (length pieceLength : I64) : Outcome InfoFilesError (Option I64) :=
  match checkedDiv length pieceLength with
  | none => .ok none
  | some quotient => do
    let remainder ← I64.rem length pieceLength
    .ok ((checkedAdd quotient (I64.ofBool (remainder ≠ 0))).bind (checkedMul · pieceLength))

/-- The room `upverted_files` gives a file. -/
def Info.checkedAdvance (info : Info) (length : I64) : Outcome InfoFilesError (Option I64) :=
  if info.hasV2 then checkedPieceAlignedLength length info.pieceLength else .ok (some length)

/-- The loop of `upverted_files`, from `offset` on. -/
def Info.placeFiles (info : Info) (offset : I64) :
    List SelectedFile → Outcome InfoFilesError (List NormalizedFile)
  | [] => .ok []
  | file :: rest => do
    let advance ← info.checkedAdvance file.length
    match advance.bind (checkedAdd offset) with
    | none => .error (.torrentOffsetOverflow file.path)
    | some nextOffset => do
      let files ← info.placeFiles nextOffset rest
      .ok (⟨file, offset⟩ :: files)

/-- `upverted_files`. -/
def Info.upvertedFiles (info : Info) : Outcome InfoFilesError (List NormalizedFile) := do
  let selected ← info.selectedFiles
  info.placeFiles I64.zero selected

/-- One turn of the fold of `total_length`. -/
def addLength (total : I64) (file : SelectedFile) : Outcome InfoFilesError I64 :=
  match checkedAdd total file.length with
  | none => .error (.totalLengthOverflow file.path)
  | some sum => .ok sum

/-- `total_length`. -/
def Info.totalLength (info : Info) : Outcome InfoFilesError I64 := do
  let selected ← info.selectedFiles
  selected.foldlM addLength I64.zero

/-! ## Leaves of a tree -/

/-- A node without children, and the names on the way to it. -/
inductive FileTree.Leaf : FileTree → List (List UInt8) → FileTreeFile → Prop
  | here (file : FileTreeFile) (present : Bool) : Leaf (.mk file present []) [] file
  | child {file leaf : FileTreeFile} {present : Bool} {children : List (List UInt8 × FileTree)}
      {name : List UInt8} {child : FileTree} {path : List (List UInt8)}
      (mem : (name, child) ∈ children) (below : Leaf child path leaf) :
      Leaf (.mk file present children) (name :: path) leaf

/-- The children of every node come by ascending name, as those of a `BTreeMap` do. -/
inductive FileTree.Ordered : FileTree → Prop
  | mk {file : FileTreeFile} {present : Bool} {children : List (List UInt8 × FileTree)}
      (ascending : children.Pairwise fun a b => a.1 < b.1)
      (below : ∀ child ∈ children, Ordered child.2) : Ordered (.mk file present children)

mutual

/-- The leaves in the order of the names. -/
def FileTree.leaves : FileTree → List (List (List UInt8) × FileTreeFile)
  | .mk file _ [] => [([], file)]
  | .mk _ _ (child :: children) => childLeaves (child :: children)

/-- The leaves below the children of a node. -/
def childLeaves : List (List UInt8 × FileTree) → List (List (List UInt8) × FileTreeFile)
  | [] => []
  | (name, child) :: rest =>
    child.leaves.map (fun leaf => (name :: leaf.1, leaf.2)) ++ childLeaves rest

end

mutual

lemma FileTree.leaf_of_mem_leaves :
    ∀ (tree : FileTree) {leaf : List (List UInt8) × FileTreeFile}, leaf ∈ tree.leaves →
      tree.Leaf leaf.1 leaf.2
  | .mk file present [], leaf, h => by
    obtain rfl := List.mem_singleton.mp h
    exact .here file present
  | .mk _ _ (child :: children), leaf, h => by
    obtain ⟨name, tree, path, hmem, hpath, hleaf⟩ := leaf_of_mem_childLeaves (child :: children) h
    rw [hpath]
    exact .child hmem hleaf

lemma leaf_of_mem_childLeaves :
    ∀ (children : List (List UInt8 × FileTree)) {leaf : List (List UInt8) × FileTreeFile},
      leaf ∈ childLeaves children →
      ∃ name child path, (name, child) ∈ children ∧ leaf.1 = name :: path ∧ child.Leaf path leaf.2
  | [], _, h => by simp [childLeaves] at h
  | (name, child) :: rest, leaf, h => by
    rw [childLeaves, List.mem_append] at h
    rcases h with h | h
    · obtain ⟨below, hbelow, rfl⟩ := List.mem_map.mp h
      exact ⟨name, child, below.1, List.mem_cons_self, rfl, child.leaf_of_mem_leaves hbelow⟩
    · obtain ⟨name', child', path, hmem, hpath, hleaf⟩ := leaf_of_mem_childLeaves rest h
      exact ⟨name', child', path, List.mem_cons_of_mem _ hmem, hpath, hleaf⟩

end

lemma mem_childLeaves {children : List (List UInt8 × FileTree)} {name : List UInt8}
    {child : FileTree} {path : List (List UInt8)} {leaf : FileTreeFile}
    (hmem : (name, child) ∈ children) (hleaf : (path, leaf) ∈ child.leaves) :
    (name :: path, leaf) ∈ childLeaves children := by
  induction children with
  | nil => cases hmem
  | cons head rest ih =>
    rw [childLeaves, List.mem_append]
    rcases List.mem_cons.mp hmem with rfl | hmem
    · exact .inl (List.mem_map.mpr ⟨(path, leaf), hleaf, rfl⟩)
    · exact .inr (ih hmem)

lemma FileTree.Leaf.mem_leaves {tree : FileTree} {path : List (List UInt8)} {leaf : FileTreeFile}
    (h : tree.Leaf path leaf) : (path, leaf) ∈ tree.leaves := by
  induction h with
  | here file present => exact List.mem_singleton.mpr rfl
  | @child file leaf present children name child path mem hleaf ih =>
    cases children with
    | nil => cases mem
    | cons head rest => exact mem_childLeaves mem ih

/-! ## The order of the leaves -/

/-- The first path comes before the second, also in every continuation of the two. -/
def Apart (p q : List (List UInt8)) : Prop := p < q ∧ ¬ p <+: q

variable {p q : List (List UInt8)} {info : Info}

lemma Apart.cons (name : List UInt8) (h : Apart p q) : Apart (name :: p) (name :: q) := by
  refine ⟨List.Lex.cons h.1, fun hpre => h.2 ?_⟩
  exact (List.cons_prefix_cons.mp hpre).2

lemma apart_of_lt {name name' : List UInt8} (h : name < name') (p q : List (List UInt8)) :
    Apart (name :: p) (name' :: q) := by
  refine ⟨List.Lex.rel h, fun hpre => ?_⟩
  obtain rfl := (List.cons_prefix_cons.mp hpre).1
  exact List.lt_irrefl _ h

mutual

lemma FileTree.Ordered.pairwise_leaves :
    ∀ {tree : FileTree}, tree.Ordered → (tree.leaves.map Prod.fst).Pairwise Apart
  | .mk _ _ [], _ => by simp [FileTree.leaves]
  | .mk _ _ (child :: children), .mk ascending below => pairwise_childLeaves ascending below

lemma pairwise_childLeaves :
    ∀ {children : List (List UInt8 × FileTree)}, (children.Pairwise fun a b => a.1 < b.1) →
      (∀ child ∈ children, child.2.Ordered) → ((childLeaves children).map Prod.fst).Pairwise Apart
  | [], _, _ => by simp [childLeaves]
  | (name, child) :: rest, ascending, below => by
    obtain ⟨hfirst, hrest⟩ := List.pairwise_cons.mp ascending
    have hchild := (below (name, child) List.mem_cons_self).pairwise_leaves
    have hbelow := pairwise_childLeaves hrest fun c hc => below c (List.mem_cons_of_mem _ hc)
    rw [childLeaves, List.map_append, List.pairwise_append]
    refine ⟨?_, hbelow, ?_⟩
    · rw [List.map_map]
      rw [List.pairwise_map] at hchild ⊢
      exact hchild.imp fun h => h.cons name
    · -- a path below this child against one below a later child: the names decide
      intro p hp q hq
      obtain ⟨leaf, hleaf, rfl⟩ := List.mem_map.mp hp
      obtain ⟨under, -, rfl⟩ := List.mem_map.mp hleaf
      obtain ⟨leaf', hleaf', rfl⟩ := List.mem_map.mp hq
      obtain ⟨name', child', path, hmem, hpath, -⟩ := leaf_of_mem_childLeaves rest hleaf'
      rw [hpath]
      exact apart_of_lt (hfirst _ hmem) _ _

end

/-! ## What is selected -/

lemma exists_left_of_forall₂ {α β : Type} {R : α → β → Prop} {as : List α} {bs : List β}
    (h : List.Forall₂ R as bs) {b : β} (hb : b ∈ bs) : ∃ a ∈ as, R a b := by
  induction h with
  | nil => cases hb
  | cons hab _ ih =>
    rcases List.mem_cons.mp hb with rfl | hb
    · exact ⟨_, List.mem_cons_self, hab⟩
    · obtain ⟨a, ha, hr⟩ := ih hb
      exact ⟨a, List.mem_cons_of_mem _ ha, hr⟩

/-- The file has the properties of the leaf. -/
structure SelectedFile.Describes (file : SelectedFile) (leaf : FileTreeFile) : Prop where
  length_eq : file.length = leaf.length
  pathUtf8_eq : file.pathUtf8 = file.path
  piecesRoot_eq : (file.piecesRoot.map Subtype.val).getD [] = leaf.piecesRoot

/-- The file is the leaf, at its place below `path`. -/
def SelectedFile.IsLeaf (path : List (List UInt8)) (leaf : List (List UInt8) × FileTreeFile)
    (file : SelectedFile) : Prop :=
  file.path = path ++ leaf.1 ∧ file.Describes leaf.2 ∧ 0 ≤ file.length.val

lemma selectRoot_ensures (path : List (List UInt8)) (piecesRoot : List UInt8) :
    (selectRoot path piecesRoot).Ensures
      (fun root => (root.map Subtype.val).getD [] = piecesRoot) fun _ => True := by
  unfold selectRoot
  split
  case isTrue h => exact (List.eq_nil_of_length_eq_zero h).symm
  case isFalse h =>
    split
    case isTrue h => rfl
    case isFalse h => trivial

lemma FileTreeFile.select_ensures (file : FileTreeFile) (path : List (List UInt8)) :
    (file.select path).Ensures (SelectedFile.IsLeaf path ([], file)) fun _ => True := by
  unfold FileTreeFile.select
  split
  case isTrue h => trivial
  case isFalse h =>
    rw [Outcome.ensures_bind]
    refine (selectRoot_ensures path file.piecesRoot).mono (fun root hroot => ?_) fun _ he => he
    exact ⟨(List.append_nil path).symm, ⟨rfl, rfl, hroot⟩, not_lt.mp h⟩

/-- The files that `out` has behind `files` are the given leaves. -/
def Collects (path : List (List UInt8)) (leaves : List (List (List UInt8) × FileTreeFile))
    (files out : List SelectedFile) : Prop :=
  ∃ found, out = files ++ found ∧ List.Forall₂ (SelectedFile.IsLeaf path) leaves found

mutual

lemma FileTree.collectSelectedFiles_ensures :
    ∀ (tree : FileTree) (path : List (List UInt8)) (files : List SelectedFile),
      (tree.collectSelectedFiles path files).Ensures (Collects path tree.leaves files) fun _ => True
  | .mk file _ [], path, files => by
    rw [FileTree.collectSelectedFiles, FileTree.leaves, Outcome.ensures_bind]
    refine (file.select_ensures path).mono (fun selected h => ?_) fun _ he => he
    exact ⟨[selected], rfl, .cons h .nil⟩
  | .mk _ _ (child :: children), path, files => by
    rw [FileTree.collectSelectedFiles, FileTree.leaves]
    exact collectChildren_ensures (child :: children) path files

lemma collectChildren_ensures :
    ∀ (children : List (List UInt8 × FileTree)) (path : List (List UInt8))
      (files : List SelectedFile),
      (collectChildren children path files).Ensures (Collects path (childLeaves children) files)
        fun _ => True
  | [], path, files => by
    rw [collectChildren, childLeaves]
    exact ⟨[], (List.append_nil files).symm, .nil⟩
  | (name, child) :: rest, path, files => by
    rw [collectChildren, childLeaves, Outcome.ensures_bind]
    refine (child.collectSelectedFiles_ensures (path ++ [name]) files).mono ?_ fun _ he => he
    rintro between ⟨found, rfl, hfound⟩
    refine (collectChildren_ensures rest path (files ++ found)).mono ?_ fun _ he => he
    rintro out ⟨later, rfl, hlater⟩
    refine ⟨found ++ later, List.append_assoc files found later, List.rel_append ?_ hlater⟩
    refine List.forall₂_map_left_iff.mpr (hfound.imp ?_)
    rintro leaf file ⟨hpath, hrest⟩
    exact ⟨by rw [hpath, List.append_assoc]; rfl, hrest⟩

end

lemma SelectedFile.v1_ensures (length : I64) (path pathUtf8 : List (List UInt8)) :
    (SelectedFile.v1 length path pathUtf8).Ensures (fun file => 0 ≤ file.length.val)
      fun _ => True := by
  unfold SelectedFile.v1
  split
  case isTrue h => trivial
  case isFalse h => exact not_lt.mp h

/-- What `selected_files` returns: no length is negative, and those of a tree are its leaves. -/
structure Info.Selected (info : Info) (files : List SelectedFile) : Prop where
  nonneg : ∀ file ∈ files, 0 ≤ file.length.val
  positive : info.hasV2 → 0 < info.pieceLength.val
  leaves : info.hasV2 → List.Forall₂ (SelectedFile.IsLeaf []) info.fileTree.leaves files

lemma Info.selectedFiles_ensures (info : Info) :
    info.selectedFiles.Ensures info.Selected fun _ => True := by
  unfold Info.selectedFiles
  split
  case isTrue hv2 =>
    split
    case isTrue h => trivial
    case isFalse h =>
      refine (info.fileTree.collectSelectedFiles_ensures [] []).mono ?_ fun _ he => he
      rintro out ⟨found, rfl, hfound⟩
      refine ⟨fun file hfile => ?_, fun _ => not_le.mp h, fun _ => hfound⟩
      obtain ⟨leaf, -, hleaf⟩ := exists_left_of_forall₂ hfound hfile
      exact hleaf.2.2
  case isFalse hv1 =>
    split
    case h_1 h =>
      rw [Outcome.ensures_bind]
      refine (SelectedFile.v1_ensures info.length [] []).mono (fun file hfile => ?_) fun _ he => he
      refine ⟨fun file' hmem => ?_, fun hv2 => absurd hv2 hv1, fun hv2 => absurd hv2 hv1⟩
      obtain rfl := List.mem_singleton.mp hmem
      exact hfile
    case h_2 files h =>
      refine (Outcome.ensures_collect (Q := fun file => 0 ≤ file.length.val) ?_).mono ?_
        fun _ he => he
      · intro x hx
        obtain ⟨file, -, rfl⟩ := List.mem_map.mp hx
        exact SelectedFile.v1_ensures _ _ _
      · rintro out ⟨-, hout⟩
        exact ⟨hout, fun hv2 => absurd hv2 hv1, fun hv2 => absurd hv2 hv1⟩

/-! ## Where the files lie -/

/-- The least multiple of `pieceLength` that is no less than `length`. -/
def alignedLength (length pieceLength : Int) : Int :=
  (length / pieceLength + if length % pieceLength ≠ 0 then 1 else 0) * pieceLength

/-- The room a file takes, without bounds. -/
def Info.advance (info : Info) (length : Int) : Int :=
  if info.hasV2 then alignedLength length info.pieceLength.val else length

lemma isLeast_alignedLength {length pieceLength : Int} (hpiece : 0 < pieceLength) :
    IsLeast {n | pieceLength ∣ n ∧ length ≤ n} (alignedLength length pieceLength) := by
  have hdiv := Int.mul_ediv_add_emod length pieceLength
  have hnonneg := Int.emod_nonneg length hpiece.ne'
  have hlt := Int.emod_lt_of_pos length hpiece
  refine ⟨⟨Dvd.intro_left _ rfl, ?_⟩, ?_⟩
  · unfold alignedLength
    split
    · have : (length / pieceLength + 1) * pieceLength =
          pieceLength * (length / pieceLength) + pieceLength := by ring
      omega
    · have : (length / pieceLength + 0) * pieceLength =
          pieceLength * (length / pieceLength) := by ring
      omega
  · rintro n ⟨⟨k, rfl⟩, hle⟩
    unfold alignedLength
    rw [mul_comm pieceLength k]
    refine Int.mul_le_mul_of_nonneg_right ?_ hpiece.le
    -- fewer pieces would be too short
    by_contra hmore
    split at hmore
    case isTrue hrem =>
      have hk : k ≤ length / pieceLength := by omega
      have := Int.mul_le_mul_of_nonneg_right hk hpiece.le
      rw [mul_comm k, mul_comm (length / pieceLength)] at this
      omega
    case isFalse hrem =>
      have hk : k + 1 ≤ length / pieceLength := by omega
      have := Int.mul_le_mul_of_nonneg_right hk hpiece.le
      rw [add_mul, mul_comm k, mul_comm (length / pieceLength)] at this
      omega

/-- A piece more for the remainder is still in range: there is a remainder only in pieces of more
than one byte. -/
lemma pieces_range {length pieceLength : Int} (hlength : 0 ≤ length) (hpiece : 0 < pieceLength)
    (hhi : length < 2 ^ 63) :
    -2 ^ 63 ≤ length / pieceLength + (if length % pieceLength ≠ 0 then 1 else 0) ∧
      length / pieceLength + (if length % pieceLength ≠ 0 then 1 else 0) < 2 ^ 63 := by
  have hlo := Int.ediv_nonneg hlength hpiece.le
  have hdiv := Int.mul_ediv_add_emod length pieceLength
  have hle := Int.mul_le_mul_of_nonneg_right (show 1 ≤ pieceLength from hpiece) hlo
  rw [one_mul] at hle
  have hmod := Int.emod_nonneg length hpiece.ne'
  split <;> omega

/-- The remainder is never taken by zero, and the sum of the pieces never overflows: only the
product can. -/
lemma checkedPieceAlignedLength_eq {length pieceLength : I64} (hlength : 0 ≤ length.val)
    (hpiece : 0 < pieceLength.val) :
    checkedPieceAlignedLength length pieceLength =
      .ok (I64.ofInt? (alignedLength length.val pieceLength.val)) := by
  have hdiv : length.val.tdiv pieceLength.val = length.val / pieceLength.val :=
    Int.tdiv_eq_ediv_of_nonneg hlength
  have hmod : length.val.tmod pieceLength.val = length.val % pieceLength.val :=
    Int.tmod_eq_emod_of_nonneg hlength
  have hlo := Int.ediv_nonneg hlength hpiece.le
  have hle := Int.ediv_le_self pieceLength.val hlength
  have hhi := length.property.2
  have hquotient : checkedDiv length pieceLength =
      some ⟨length.val / pieceLength.val, by omega, by omega⟩ := by
    rw [checkedDiv, if_neg hpiece.ne', hdiv]
    exact I64.ofInt?_of_range (by omega) (by omega)
  have hrem : (I64.rem length pieceLength : Outcome InfoFilesError Int) =
      .ok (length.val % pieceLength.val) := by
    rw [I64.rem, if_neg (by omega), hmod]
  have hpieces : checkedAdd ⟨length.val / pieceLength.val, by omega, by omega⟩
        (I64.ofBool (length.val % pieceLength.val ≠ 0)) =
      some ⟨length.val / pieceLength.val + if length.val % pieceLength.val ≠ 0 then 1 else 0,
        pieces_range hlength hpiece hhi⟩ := by
    rw [checkedAdd, I64.ofInt?_eq_some]
    unfold I64.ofBool
    by_cases h : length.val % pieceLength.val = 0
    · simp [h, I64.zero]
    · simp [h]
  rw [checkedPieceAlignedLength, hquotient]
  simp only [hrem, Outcome.ok_bind]
  rw [hpieces]
  rfl

/-- The files lie one behind the other from `offset` on, each with its room. -/
def Info.PlacedFrom (info : Info) : Int → List NormalizedFile → Prop
  | offset, [] => offset < 2 ^ 63
  | offset, file :: rest =>
    file.torrentOffset.val = offset ∧ info.PlacedFrom (offset + info.advance file.length.val) rest

lemma Info.checkedAdvance_eq {length : I64} (hlength : 0 ≤ length.val)
    (hpiece : info.hasV2 → 0 < info.pieceLength.val) :
    info.checkedAdvance length = .ok (I64.ofInt? (info.advance length.val)) := by
  unfold Info.checkedAdvance Info.advance
  split
  case isTrue hv2 => exact checkedPieceAlignedLength_eq hlength (hpiece hv2)
  case isFalse hv1 => rw [I64.ofInt?_of_range length.property.1 length.property.2]

/-- **One file is placed, and the rest behind it.** -/
lemma Info.placeFiles_ensures (hpiece : info.hasV2 → 0 < info.pieceLength.val)
    {selected : List SelectedFile} (hselected : ∀ file ∈ selected, 0 ≤ file.length.val)
    (offset : I64) :
    (info.placeFiles offset selected).Ensures
      (fun files => files.map NormalizedFile.toSelectedFile = selected ∧
        info.PlacedFrom offset.val files) fun _ => True := by
  induction selected generalizing offset with
  | nil => exact ⟨rfl, offset.property.2⟩
  | cons file rest ih =>
    have hrest := ih fun f hf => hselected f (List.mem_cons_of_mem _ hf)
    rw [Info.placeFiles, Info.checkedAdvance_eq (hselected file List.mem_cons_self) hpiece,
      Outcome.ok_bind]
    split
    case h_1 h => trivial
    case h_2 nextOffset h =>
      obtain ⟨advance, hadvance, hnext⟩ := Option.bind_eq_some_iff.mp h
      have hadvance : advance.val = info.advance file.length.val :=
        I64.ofInt?_eq_some.mp hadvance
      have hnext : nextOffset.val = offset.val + advance.val := I64.ofInt?_eq_some.mp hnext
      rw [Outcome.ensures_bind]
      refine (hrest nextOffset).mono ?_ fun _ he => he
      rintro files ⟨hfiles, hplaced⟩
      rw [hnext, hadvance] at hplaced
      exact ⟨by rw [List.map_cons, hfiles], rfl, hplaced⟩

section Placed

variable {info : Info} {offset : Int} {files : List NormalizedFile}

lemma Info.PlacedFrom.head (h : info.PlacedFrom offset files) :
    ∀ file ∈ files.head?, file.torrentOffset.val = offset := by
  cases files with
  | nil => intro file hfile; cases hfile
  | cons first rest =>
    intro file hfile
    cases hfile
    exact h.1

lemma Info.PlacedFrom.isChain (h : info.PlacedFrom offset files) :
    files.IsChain fun file next =>
      next.torrentOffset.val = file.torrentOffset.val + info.advance file.length.val := by
  induction files generalizing offset with
  | nil => exact .nil
  | cons first rest ih =>
    refine List.IsChain.cons (ih h.2) fun next hnext => ?_
    rw [h.2.head next hnext, h.1]

lemma Info.PlacedFrom.getElem (h : info.PlacedFrom offset files) (i : Nat) (hi : i < files.length) :
    files[i].torrentOffset.val =
      offset + ((files.take i).map fun f => info.advance f.length.val).sum := by
  induction files generalizing offset i with
  | nil => cases hi
  | cons first rest ih =>
    cases i with
    | zero => simp [h.1]
    | succ i =>
      have hrest := ih h.2 i (Nat.lt_of_succ_lt_succ hi)
      rw [List.getElem_cons_succ, hrest, List.take_succ_cons, List.map_cons, List.sum_cons]
      ring

lemma Info.PlacedFrom.dvd {d : Int} (hd : ∀ n, d ∣ info.advance n) (hoffset : d ∣ offset)
    (h : info.PlacedFrom offset files) : ∀ file ∈ files, d ∣ file.torrentOffset.val := by
  induction files generalizing offset with
  | nil => intro file hfile; cases hfile
  | cons first rest ih =>
    intro file hfile
    rcases List.mem_cons.mp hfile with rfl | hfile
    · rw [h.1]
      exact hoffset
    · exact ih (Int.dvd_add hoffset (hd _)) h.2 file hfile

lemma Info.PlacedFrom.lt (h : info.PlacedFrom offset files) : offset < 2 ^ 63 := by
  cases files with
  | nil => exact h
  | cons first rest =>
    rw [← h.1]
    exact first.torrentOffset.property.2

/-- The lengths sum up below the offsets, so that the sum is in range where the offsets are. -/
lemma Info.PlacedFrom.foldlM_addLength (hadvance : ∀ n, n ≤ info.advance n)
    (hlength : ∀ file ∈ files, 0 ≤ file.length.val) (h : info.PlacedFrom offset files) (total : I64)
    (hnonneg : 0 ≤ total.val) (htotal : total.val ≤ offset) :
    ∃ sum, (files.map NormalizedFile.toSelectedFile).foldlM addLength total = .ok sum ∧
      sum.val = total.val + (files.map fun f => f.length.val).sum := by
  induction files generalizing offset total with
  | nil => exact ⟨total, rfl, by simp⟩
  | cons first rest ih =>
    have hfirst := hlength first List.mem_cons_self
    have hroom := hadvance first.length.val
    have hlt := h.2.lt
    have hsum : checkedAdd total first.length =
        some ⟨total.val + first.length.val, by omega, by omega⟩ :=
      I64.ofInt?_of_range (by omega) (by omega)
    obtain ⟨sum, hfold, hval⟩ := ih (fun f hf => hlength f (List.mem_cons_of_mem _ hf)) h.2
      ⟨total.val + first.length.val, by omega, by omega⟩ (Int.add_nonneg hnonneg hfirst)
      (Int.add_le_add htotal hroom)
    refine ⟨sum, ?_, ?_⟩
    · rw [List.map_cons, List.foldlM_cons, addLength, hsum]
      exact hfold
    · rw [hval, List.map_cons, List.sum_cons]
      exact add_assoc _ _ _

end Placed

/-! ## The layout of a torrent -/

/-- What the files of `upverted_files` say. -/
structure Info.LaidOut (info : Info) (files : List NormalizedFile) : Prop where
  total : ∃ total, info.totalLength = .ok total ∧
    total.val = (files.map fun file => file.length.val).sum
  first : ∀ file ∈ files.head?, file.torrentOffset.val = 0
  disjoint : files.IsChain fun file next =>
    file.torrentOffset.val + file.length.val ≤ next.torrentOffset.val
  contiguous : ¬ info.hasV2 → ∀ i (hi : i < files.length),
    files[i].torrentOffset.val = ((files.take i).map fun file => file.length.val).sum
  aligned : info.hasV2 → ∀ file ∈ files, info.pieceLength.val ∣ file.torrentOffset.val
  tight : info.hasV2 → files.IsChain fun file next =>
    IsLeast {n | info.pieceLength.val ∣ n ∧ file.length.val ≤ n}
      (next.torrentOffset.val - file.torrentOffset.val)
  isLeaf : info.hasV2 → ∀ file ∈ files, ∃ leaf, info.fileTree.Leaf file.path leaf ∧
    file.Describes leaf
  ofLeaf : info.hasV2 → ∀ path leaf, info.fileTree.Leaf path leaf →
    ∃ file ∈ files, file.path = path ∧ file.Describes leaf
  ascending : info.hasV2 → (files.map fun file => file.path).Pairwise (· < ·)
  unnested : info.hasV2 → ∀ file ∈ files, ∀ other ∈ files, file.path <+: other.path →
    file.path = other.path

lemma Info.le_advance (hpiece : info.hasV2 → 0 < info.pieceLength.val) (n : Int) :
    n ≤ info.advance n := by
  unfold Info.advance
  split
  case isTrue hv2 => exact (isLeast_alignedLength (hpiece hv2)).1.2
  case isFalse hv1 => exact le_refl n

/-- The paths of the files are those of the leaves, in order. -/
lemma map_path_eq {leaves : List (List (List UInt8) × FileTreeFile)} {files : List SelectedFile}
    (h : List.Forall₂ (SelectedFile.IsLeaf []) leaves files) :
    files.map SelectedFile.path = leaves.map Prod.fst := by
  induction h with
  | nil => rfl
  | cons hfile _ ih => rw [List.map_cons, List.map_cons, ih, hfile.1, List.nil_append]

lemma Apart.not_prefix (h : Apart p q) : ¬ q <+: p :=
  fun hpre => hpre.le h.1

lemma eq_of_prefix_of_pairwise {paths : List (List (List UInt8))} (h : paths.Pairwise Apart)
    (hp : p ∈ paths) (hq : q ∈ paths) (hpre : p <+: q) : p = q := by
  have hapart : paths.Pairwise fun p q => ¬ p <+: q ∧ ¬ q <+: p :=
    h.imp fun hpq => ⟨hpq.2, hpq.not_prefix⟩
  have : Std.Symm fun p q : List (List UInt8) => ¬ p <+: q ∧ ¬ q <+: p := ⟨fun _ _ h => h.symm⟩
  by_contra hne
  exact (hapart.forall hp hq hne).1 hpre

lemma Info.laidOut (ordered : info.fileTree.Ordered) {files : List NormalizedFile}
    (hok : info.selectedFiles = .ok (files.map NormalizedFile.toSelectedFile))
    (hselected : info.Selected (files.map NormalizedFile.toSelectedFile))
    (hplaced : info.PlacedFrom 0 files) : info.LaidOut files := by
  have hadvance := Info.le_advance hselected.positive
  have hlength : ∀ file ∈ files, 0 ≤ file.length.val := fun file hfile =>
    hselected.nonneg _ (List.mem_map_of_mem hfile)
  have hpaths : info.hasV2 →
      files.map (fun file => file.path) = info.fileTree.leaves.map Prod.fst := by
    intro hv2
    rw [← map_path_eq (hselected.leaves hv2), List.map_map]
    rfl
  have hapart : info.hasV2 → (files.map fun file => file.path).Pairwise Apart := by
    intro hv2
    rw [hpaths hv2]
    exact ordered.pairwise_leaves
  constructor
  case total =>
    obtain ⟨sum, hfold, hsum⟩ := hplaced.foldlM_addLength hadvance hlength I64.zero (le_refl 0)
      (le_refl 0)
    refine ⟨sum, ?_, by rw [hsum]; exact zero_add _⟩
    rw [Info.totalLength, hok]
    exact hfold
  case first => exact hplaced.head
  case disjoint =>
    refine hplaced.isChain.imp fun file next hnext => ?_
    have := hadvance file.length.val
    omega
  case contiguous =>
    intro hv1 i hi
    rw [hplaced.getElem i hi, zero_add]
    simp only [Info.advance, if_neg hv1]
  case aligned =>
    intro hv2
    refine hplaced.dvd (fun n => ?_) (Int.dvd_zero _)
    rw [Info.advance, if_pos hv2]
    exact (isLeast_alignedLength (hselected.positive hv2)).1.1
  case tight =>
    intro hv2
    refine hplaced.isChain.imp fun file next hnext => ?_
    rw [hnext, add_sub_cancel_left, Info.advance, if_pos hv2]
    exact isLeast_alignedLength (hselected.positive hv2)
  case isLeaf =>
    intro hv2 file hfile
    obtain ⟨leaf, hmem, hpath, hdescribes, -⟩ :=
      exists_left_of_forall₂ (hselected.leaves hv2) (List.mem_map_of_mem hfile)
    rw [List.nil_append] at hpath
    refine ⟨leaf.2, ?_, hdescribes⟩
    rw [hpath]
    exact info.fileTree.leaf_of_mem_leaves hmem
  case ofLeaf =>
    intro hv2 path leaf hleaf
    obtain ⟨selected, hmem, hpath, hdescribes, -⟩ :=
      exists_left_of_forall₂ (hselected.leaves hv2).flip hleaf.mem_leaves
    obtain ⟨file, hfile, rfl⟩ := List.mem_map.mp hmem
    exact ⟨file, hfile, hpath, hdescribes⟩
  case ascending => exact fun hv2 => (hapart hv2).imp fun h => h.1
  case unnested =>
    intro hv2 file hfile other hother hpre
    exact eq_of_prefix_of_pairwise (hapart hv2) (List.mem_map_of_mem hfile)
      (List.mem_map_of_mem hother) hpre

lemma Info.upvertedFiles_ensures (ordered : info.fileTree.Ordered) :
    info.upvertedFiles.Ensures info.LaidOut fun _ => True := by
  have hselected := info.selectedFiles_ensures
  unfold Info.upvertedFiles
  cases hok : info.selectedFiles with
  | error reason => trivial
  | fault =>
    rw [hok] at hselected
    exact hselected
  | ok selected =>
    rw [hok] at hselected
    refine (Info.placeFiles_ensures hselected.positive hselected.nonneg I64.zero).mono ?_
      fun _ he => he
    rintro files ⟨rfl, hplaced⟩
    exact Info.laidOut ordered hok hselected hplaced

lemma Info.totalLength_ensures (info : Info) :
    info.totalLength.Ensures (fun _ => True) fun _ => True := by
  rw [Info.totalLength, Outcome.ensures_bind]
  refine info.selectedFiles_ensures.mono (fun selected _ => ?_) fun _ he => he
  refine Outcome.ensures_foldlM (fun total _ file _ => ?_) trivial
  unfold addLength
  split <;> trivial

/-- **Torrent file layout.**  Neither function panics, whatever the lengths, and the files of
`upverted_files` are laid out. -/
theorem Info.upvertedFiles_layout (info : Info) (ordered : info.fileTree.Ordered) :
    info.upvertedFiles ≠ .fault ∧ info.totalLength ≠ .fault ∧
      ∀ files, info.upvertedFiles = .ok files → info.LaidOut files := by
  have hfiles := Info.upvertedFiles_ensures ordered
  have htotal := info.totalLength_ensures
  refine ⟨fun h => ?_, fun h => ?_, fun files h => ?_⟩
  · rw [h] at hfiles
    exact hfiles
  · rw [h] at htotal
    exact htotal
  · rw [h] at hfiles
    exact hfiles

/-- A v2 tree with a file `a` of five bytes and a file `b/c` of eight, in pieces of four. -/
def nestedInfo : Info where
  pieceLength := ⟨4, by decide⟩
  pieces := []
  name := []
  nameUtf8 := []
  length := I64.zero
  isPrivate := none
  source := []
  files := none
  rawMetaVersion := ⟨2, by decide⟩
  fileTree := .mk .default false [
    ([97], .mk ⟨⟨5, by decide⟩, []⟩ true []),
    ([98], .mk .default false [([99], .mk ⟨⟨8, by decide⟩, []⟩ true [])])]

lemma nestedInfo_ordered : nestedInfo.fileTree.Ordered := by
  refine .mk (by decide) fun child hchild => ?_
  simp only [List.mem_cons, List.not_mem_nil, or_false] at hchild
  rcases hchild with rfl | rfl
  · exact .mk .nil (by simp)
  · refine .mk (by simp) fun child hchild => ?_
    obtain rfl := List.mem_singleton.mp hchild
    exact .mk .nil (by simp)

/-- The second file starts at the second piece boundary behind the first. -/
theorem Info.upvertedFiles_layout_nested :
    nestedInfo.upvertedFiles = .ok [
        ⟨⟨⟨5, by decide⟩, [[97]], [[97]], none⟩, ⟨0, by decide⟩⟩,
        ⟨⟨⟨8, by decide⟩, [[98], [99]], [[98], [99]], none⟩, ⟨8, by decide⟩⟩] ∧
      nestedInfo.LaidOut [
        ⟨⟨⟨5, by decide⟩, [[97]], [[97]], none⟩, ⟨0, by decide⟩⟩,
        ⟨⟨⟨8, by decide⟩, [[98], [99]], [[98], [99]], none⟩, ⟨8, by decide⟩⟩] := by
  have h : nestedInfo.upvertedFiles = .ok [
      ⟨⟨⟨5, by decide⟩, [[97]], [[97]], none⟩, ⟨0, by decide⟩⟩,
      ⟨⟨⟨8, by decide⟩, [[98], [99]], [[98], [99]], none⟩, ⟨8, by decide⟩⟩] := by decide
  exact ⟨h, (Info.upvertedFiles_layout nestedInfo nestedInfo_ordered).2.2 _ h⟩

end Bitmagnet
