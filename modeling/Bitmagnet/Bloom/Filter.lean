import Bitmagnet.Bloom.PackedCells
import Bitmagnet.Library.Machine

/-!
# The stable Bloom filter

`test`, `add` and `test_and_add` of `StableBloomFilter`, over the packed cells.  An addition takes
one from a window of cells and then sets the element's own cells to the maximum: the filter forgets
an element, but not before that many windows have met one of its cells.  The crawler's
`DhtInfoHashDeduper` is `test_and_add` behind a mutex, so its calls are a run of that machine.

The loops of the source compute the indexes of `hash_indices` one by one, and `none` is a panic.
-/

namespace Bitmagnet.Bloom

/-- `StableBloomGeometry`, with what `new` requires. -/
structure StableBloomGeometry where
  cellCount : Nat
  bitsPerCell : Nat
  hashFunctions : Nat
  decrementCells : Nat
  cells_pos : 0 < cellCount
  bits_range : 1 ≤ bitsPerCell ∧ bitsPerCell ≤ 8
  hash_range : 1 ≤ hashFunctions ∧ hashFunctions ≤ cellCount
  decrement_le : decrementCells ≤ cellCount
  bits_fit : cellCount * bitsPerCell ≤ 2 ^ 32

/-- `fnv1_64`. -/
def fnv1 (bytes : List (BitVec 8)) : BitVec 64 :=
  bytes.foldl (fun hash byte => hash * 0x100000001b3#64 ^^^ byte.setWidth 64) 0xcbf29ce484222325#64

/-- `hash_kernel`. -/
def hashKernel (data : List (BitVec 8)) : BitVec 64 × BitVec 64 :=
  let sum := fnv1 data
  ((sum.setWidth 32).setWidth 64, ((sum >>> 32).setWidth 32).setWidth 64)

/-- `bloom_index`. -/
def bloomIndex (low high : BitVec 64) (ordinal cellCount : Nat) : Nat :=
  (low + high * BitVec.ofNat 64 ordinal).toNat % cellCount

/-- An element, and the first cell of the window that the decrement source draws for it. -/
structure Addition (cellCount : Nat) where
  data : List (BitVec 8)
  start : Fin cellCount

namespace StableBloomGeometry

variable (g : StableBloomGeometry) (cells data : List (BitVec 8)) (a : Addition g.cellCount)

/-- `max_cell_value`. -/
def maxCellValue : BitVec 8 :=
  if g.bitsPerCell = 8 then 255 else BitVec.ofNat 8 (1 <<< g.bitsPerCell - 1)

/-- `hash_indices`. -/
def hashIndices : List Nat :=
  let (low, high) := hashKernel data
  (List.range g.hashFunctions).map fun ordinal => bloomIndex low high ordinal g.cellCount

/-- `StableBloomFilter::new`. -/
def new : List (BitVec 8) := List.replicate (packedBytes g.cellCount g.bitsPerCell) 0

/-- Whether a cell is not zero. -/
def isSet (index : Nat) : Option Bool := (getCell cells g.bitsPerCell index).map (· ≠ 0)

/-- `test`. -/
def test : Option Bool := (g.hashIndices data).allM (g.isSet cells)

/-- `decrement`, with its assertion on the window. -/
def decrement (start : Nat) : Option (List (BitVec 8)) :=
  if start < g.cellCount then
    decrementAdjacent cells g.bitsPerCell start g.decrementCells g.cellCount
  else none

/-- The loop of `add` and `test_and_add` that sets the element's cells. -/
def setCells (indexes : List Nat) : Option (List (BitVec 8)) :=
  indexes.foldlM (fun cells index => setCell cells g.bitsPerCell index g.maxCellValue) cells

/-- `add`. -/
def add : Option (List (BitVec 8)) := do
  let cells ← g.decrement cells a.start
  g.setCells cells (g.hashIndices a.data)

/-- `test_and_add`, whose test does not stop at the first empty cell. -/
def testAndAdd : Option (Bool × List (BitVec 8)) := do
  let indexes := g.hashIndices a.data
  let member ← indexes.foldlM (fun member i => (g.isSet cells i).map (member && ·)) true
  let cells ← g.decrement cells a.start
  let cells ← g.setCells cells indexes
  pure (member, cells)

lemma toNat_maxCellValue : g.maxCellValue.toNat = 2 ^ g.bitsPerCell - 1 := by
  have hbits := g.bits_range
  rw [maxCellValue]
  split
  · simp_all
  · have hlt : 2 ^ g.bitsPerCell ≤ 2 ^ 7 := Nat.pow_le_pow_right (by decide) (by omega)
    rw [BitVec.toNat_ofNat, Nat.one_shiftLeft, Nat.mod_eq_of_lt (by omega)]

lemma hashIndices_lt : ∀ i ∈ g.hashIndices data, i < g.cellCount := by
  intro i hi
  obtain ⟨ordinal, -, rfl⟩ := List.mem_map.mp hi
  exact Nat.mod_lt _ g.cells_pos

section View

variable {g cells} {value : Nat → BitVec 8} {padding : Nat → Bool}
  (h : Packed g.bitsPerCell g.cellCount cells value padding)
include h

lemma packed_setCells {indexes : List Nat} (hin : ∀ i ∈ indexes, i < g.cellCount) :
    ∃ result, g.setCells cells indexes = some result ∧
      Packed g.bitsPerCell g.cellCount result
        (fun j => if j ∈ indexes then g.maxCellValue else value j) padding := by
  induction indexes generalizing cells value with
  | nil => exact ⟨cells, rfl, by simpa using h⟩
  | cons i indexes ih =>
    obtain ⟨hi, hin⟩ := List.forall_mem_cons.mp hin
    have hmax : g.maxCellValue.toNat < 2 ^ g.bitsPerCell := by
      have := Nat.two_pow_pos g.bitsPerCell
      rw [toNat_maxCellValue]
      omega
    obtain ⟨next, hnext, hpacked⟩ := h.setCell g.bits_range.2 hi hmax
    obtain ⟨result, hresult, hafter⟩ := ih hpacked hin
    refine ⟨result, by simpa [setCells, hnext] using hresult, ?_⟩
    convert hafter using 2 with j
    by_cases hj : j = i <;> simp [hj]

/-- `test`, and the test in `test_and_add`. -/
lemma test_eq {indexes : List Nat} (hin : ∀ i ∈ indexes, i < g.cellCount) :
    indexes.allM (g.isSet cells) = some (indexes.all fun i => value i ≠ 0) ∧
      ∀ member, indexes.foldlM (fun member i => (g.isSet cells i).map (member && ·)) member =
        some (member && indexes.all fun i => value i ≠ 0) := by
  induction indexes with
  | nil => simp [List.allM]
  | cons i indexes ih =>
    obtain ⟨hi, hin⟩ := List.forall_mem_cons.mp hin
    obtain ⟨htest, hmember⟩ := ih hin
    have hset : g.isSet cells i = some (decide (value i ≠ 0)) := by rw [isSet, h.cell i hi]; rfl
    rw [List.allM, List.all_cons, hset]
    refine ⟨?_, fun member => ?_⟩
    · cases decide (value i ≠ 0) with
      | false => rfl
      | true => simpa using htest
    · simp [hset, hmember, Bool.and_assoc]

/-- `test_and_add` answers as `test` does and leaves the cells that `add` leaves. -/
lemma packed_call :
    ∃ result, g.test cells a.data = some ((g.hashIndices a.data).all fun i => value i ≠ 0) ∧
      g.add cells a = some result ∧
      g.testAndAdd cells a = some ((g.hashIndices a.data).all fun i => value i ≠ 0, result) ∧
      Packed g.bitsPerCell g.cellCount result (fun j =>
        if j ∈ g.hashIndices a.data then g.maxCellValue
        else if InWindow a.start g.decrementCells g.cellCount j then decremented (value j)
        else value j) padding := by
  obtain ⟨htest, hmember⟩ := test_eq h (g.hashIndices_lt a.data)
  obtain ⟨next, hnext, hpacked⟩ := h.decrementAdjacent g.bits_range.2 a.start g.decrement_le
  obtain ⟨result, hresult, hafter⟩ := packed_setCells hpacked (g.hashIndices_lt a.data)
  have hdecrement : g.decrement cells a.start = some next := by simp [decrement, hnext]
  exact ⟨result, htest, by simp [add, hdecrement, hresult],
    by simp [testAndAdd, hmember, hdecrement, hresult], hafter⟩

/-- No cell loses more than the windows that meet it. -/
lemma packed_run (calls : List (Addition g.cellCount)) :
    ∃ answers result value', Machine.run g.testAndAdd cells calls = some (answers, result) ∧
      Packed g.bitsPerCell g.cellCount result value' padding ∧
      ∀ j < g.cellCount, (value j).toNat - calls.countP (fun a =>
        InWindow a.start g.decrementCells g.cellCount j) ≤ (value' j).toNat := by
  induction calls generalizing cells value with
  | nil => exact ⟨[], cells, value, rfl, h, by simp⟩
  | cons a calls ih =>
    obtain ⟨next, -, -, hnext, hpacked⟩ := packed_call a h
    obtain ⟨answers, result, value', hresult, hafter, hle⟩ := ih hpacked
    refine ⟨_, result, value', by rw [Machine.run_cons, hnext, Option.bind_some, hresult]; rfl,
      hafter, fun j hj => ?_⟩
    have hcell := hle j hj
    have hlt := h.lt g.bits_range.2 hj
    have hmax := g.toNat_maxCellValue
    have hdec : (decremented (value j)).toNat = (value j).toNat - 1 := by
      rw [decremented, BitVec.toNat_ofNat]
      omega
    -- the cell is set to the maximum, loses one, or stays
    rw [List.countP_cons]
    split_ifs at hcell ⊢ <;> simp_all <;> omega

end View

/-- **The filter does not forget early.**  From any cells, after a call with an element and any
later calls, the element is still found as long as each of its cells has been in fewer windows
since than the maximum it was set to.  No call panics. -/
theorem testAndAdd_remembers (later : List (Addition g.cellCount))
    (hlength : cells.length = packedBytes g.cellCount g.bitsPerCell)
    (hfew : ∀ i ∈ g.hashIndices a.data, later.countP (fun b =>
      InWindow b.start g.decrementCells g.cellCount i) < 2 ^ g.bitsPerCell - 1) :
    ∃ answers result, Machine.run g.testAndAdd cells (a :: later) = some (answers, result) ∧
      ∀ b : Addition g.cellCount, b.data = a.data → g.test result b.data = some true ∧
        ∃ after, g.add result b = some after ∧ g.testAndAdd result b = some (true, after) := by
  obtain ⟨value, h⟩ := exists_packed g.bits_range.2 hlength
  obtain ⟨next, -, -, hnext, hpacked⟩ := packed_call a h
  obtain ⟨answers, result, value', hresult, hafter, hle⟩ := packed_run hpacked later
  have hall : ((g.hashIndices a.data).all fun i => value' i ≠ 0) = true := by
    simp only [List.all_eq_true, decide_eq_true_eq]
    intro i hi hzero
    have hcell := hle i (g.hashIndices_lt _ i hi)
    have hfewer := hfew i hi
    rw [if_pos hi, toNat_maxCellValue, hzero] at hcell
    simp at hcell
    omega
  refine ⟨_, result, by rw [Machine.run_cons, hnext, Option.bind_some, hresult]; rfl, ?_⟩
  intro b hb
  obtain ⟨after, htest, hadd, hcall, -⟩ := packed_call b hafter
  rw [hb, hall] at htest hcall
  exact ⟨hb ▸ htest, after, hadd, hcall⟩

/-- `deduper_geometry` of the crawler. -/
def deduperGeometry : StableBloomGeometry :=
  ⟨10000000, 2, 5, 49, by decide, by decide, by decide, by decide, by decide⟩

theorem deduper_remembers :
    ∃ answers result, Machine.run deduperGeometry.testAndAdd deduperGeometry.new
        [⟨[1], ⟨0, by decide⟩⟩, ⟨[2], ⟨3, by decide⟩⟩] = some (answers, result) ∧
      deduperGeometry.test result [1] = some true := by
  obtain ⟨answers, result, hrun, hcalls⟩ := testAndAdd_remembers deduperGeometry _
    ⟨[1], ⟨0, by decide⟩⟩ [⟨[2], ⟨3, by decide⟩⟩] List.length_replicate fun _ _ =>
      List.countP_le_length.trans_lt (by decide)
  exact ⟨answers, result, hrun, (hcalls ⟨[1], ⟨0, by decide⟩⟩ rfl).1⟩

end StableBloomGeometry

end Bitmagnet.Bloom
