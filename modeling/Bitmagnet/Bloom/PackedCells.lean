import Mathlib.Data.Nat.ModEq
import Bitmagnet.Library.BitStream

/-!
# The packed cells of a stable Bloom filter

`get_cell`, `set_cell` and `decrement_adjacent` of `bitmagnet-bloom`: cells of one to eight bits in
a row, across the borders of bytes.  `none` is an index out of range.  Sums and products of `usize`
are exact: `StableBloomGeometry::new` refuses more than `2 ^ 32` bits of cells, and `decrement`
asserts that the first cell is one of them.

What a byte array stands for is the function from cells to values that it packs, together with the
padding behind the last cell (`Packed`).  On that view `set_cell` is `Function.update`.
-/

namespace Bitmagnet.Bloom

open BitStream

/-! ## The source -/

/-- The loop of `get_bits`. -/
def getBitsLoop (data : List (BitVec 8)) (offset length : Nat) (value : BitVec 8)
    (outputShift : Nat) : Option (BitVec 8) :=
  if length = 0 then some value
  else
    let byteOffset := offset % 8
    let take := min length (8 - byteOffset)
    match data[offset / 8]? with
    | none => none
    | some byte =>
      getBitsLoop data (offset + take) (length - take)
        (value ||| ((byte >>> byteOffset) &&& lowMask take) <<< outputShift) (outputShift + take)
termination_by length
decreasing_by omega

/-- `get_bits`. -/
def getBits (data : List (BitVec 8)) (offset length : Nat) : Option (BitVec 8) :=
  getBitsLoop data offset length 0 0

/-- `set_bits`. -/
def setBits (data : List (BitVec 8)) (offset length : Nat) (value : BitVec 8) :
    Option (List (BitVec 8)) :=
  if length = 0 then some data
  else
    let byteOffset := offset % 8
    let take := min length (8 - byteOffset)
    match data[offset / 8]? with
    | none => none
    | some byte =>
      setBits (data.set (offset / 8) (splice byte value byteOffset take)) (offset + take)
        (length - take) (dropLow value take)
termination_by length
decreasing_by omega

/-- `get_cell`. -/
def getCell (cells : List (BitVec 8)) (bitsPerCell index : Nat) : Option (BitVec 8) :=
  getBits cells (index * bitsPerCell) bitsPerCell

/-- `set_cell`. -/
def setCell (cells : List (BitVec 8)) (bitsPerCell index : Nat) (value : BitVec 8) :
    Option (List (BitVec 8)) :=
  setBits cells (index * bitsPerCell) bitsPerCell value

/-- One turn of the loop of `decrement_adjacent`. -/
def decrementCell (bitsPerCell start cellCount : Nat) (cells : List (BitVec 8)) (offset : Nat) :
    Option (List (BitVec 8)) := do
  let index := (start + offset) % cellCount
  let value ← getCell cells bitsPerCell index
  if value ≠ 0 then setCell cells bitsPerCell index (value - 1) else some cells

/-- `decrement_adjacent`. -/
def decrementAdjacent (cells : List (BitVec 8)) (bitsPerCell start count cellCount : Nat) :
    Option (List (BitVec 8)) :=
  (List.range count).foldlM (decrementCell bitsPerCell start cellCount) cells

/-- `packed_bytes` of a geometry. -/
def packedBytes (cellCount bitsPerCell : Nat) : Nat := (cellCount * bitsPerCell + 7) / 8

/-! ## Fields of bits -/

section

variable {data : List (BitVec 8)} {offset length : Nat}

lemma getBitsLoop_spec (value : BitVec 8) {outputShift : Nat}
    (hdata : offset + length ≤ 8 * data.length) (hshift : outputShift + length ≤ 8) :
    ∃ result, getBitsLoop data offset length value outputShift = some result ∧
      ∀ k < 8, result.getLsbD k = (value.getLsbD k ||
        (decide (outputShift ≤ k ∧ k < outputShift + length) &&
          bit data (offset + (k - outputShift)))) := by
  fun_induction getBitsLoop data offset length value outputShift with
  | case1 offset value outputShift =>
    refine ⟨value, rfl, fun k _ => ?_⟩
    simp
  | case2 offset length value outputShift hlength hbyte =>
    have := List.getElem?_eq_none_iff.mp hbyte
    omega
  | case3 offset length value outputShift hlength byteOffset take byte hbyte ih =>
    obtain ⟨result, hresult, hbits⟩ := ih (by omega) (by omega)
    refine ⟨result, hresult, fun k hk => ?_⟩
    rw [hbits k hk, BitVec.getLsbD_or, getLsbD_field (by omega) hk]
    -- the bits of this byte, those behind it, and those that are not read
    by_cases hthis : outputShift ≤ k ∧ k < outputShift + take
    · have hlater : ¬(outputShift + take ≤ k ∧ k < outputShift + take + (length - take)) := by omega
      have hin : outputShift ≤ k ∧ k < outputShift + length := by omega
      have hplace : (offset + (k - outputShift)) / 8 = offset / 8 := by omega
      have hmod : (offset + (k - outputShift)) % 8 = byteOffset + (k - outputShift) := by omega
      have hread : bit data (offset + (k - outputShift)) =
          byte.getLsbD (byteOffset + (k - outputShift)) := by
        rw [bit_eq_getLsbD (hplace ▸ hbyte), hmod]
      simp [hthis, hlater, hin, hread]
    · have hin : (outputShift + take ≤ k ∧ k < outputShift + take + (length - take)) ↔
          (outputShift ≤ k ∧ k < outputShift + length) := by omega
      by_cases hlater : outputShift ≤ k ∧ k < outputShift + length
      · have hplace : offset + take + (k - (outputShift + take)) = offset + (k - outputShift) := by
          omega
        simp only [hthis, hin, hplace, decide_false, Bool.false_and, Bool.or_false]
      · simp [hthis, hin, hlater]

lemma getBits_spec (hdata : offset + length ≤ 8 * data.length) (hlength : length ≤ 8) :
    ∃ result, getBits data offset length = some result ∧
      ∀ k, result.getLsbD k = (decide (k < length) && bit data (offset + k)) := by
  obtain ⟨result, hresult, hbits⟩ := getBitsLoop_spec 0 hdata (show 0 + length ≤ 8 by omega)
  refine ⟨result, hresult, fun k => ?_⟩
  by_cases hk : k < 8
  · simp [hbits k hk]
  · have hout : ¬k < length := by omega
    simp [BitVec.getLsbD_of_ge result k (by omega), hout]

lemma setBits_spec (value : BitVec 8) (hdata : offset + length ≤ 8 * data.length) :
    ∃ result, setBits data offset length value = some result ∧ result.length = data.length ∧
      ∀ m, bit result m =
        if offset ≤ m ∧ m < offset + length then value.getLsbD (m - offset) else bit data m := by
  fun_induction setBits data offset length value with
  | case1 data offset value =>
    refine ⟨data, rfl, rfl, fun m => ?_⟩
    simp
  | case2 data offset length value hlength hbyte =>
    have := List.getElem?_eq_none_iff.mp hbyte
    omega
  | case3 data offset length value hlength byteOffset take byte hbyte ih =>
    obtain ⟨result, hresult, hlen, hbits⟩ := ih (by rw [List.length_set]; omega)
    refine ⟨result, hresult, by simpa using hlen, fun m => ?_⟩
    rw [hbits m, bit_set_splice hbyte (by omega) m]
    by_cases hthis : offset ≤ m ∧ m < offset + take
    · have hlater : ¬(offset + take ≤ m ∧ m < offset + take + (length - take)) := by omega
      have hin : offset ≤ m ∧ m < offset + length := by omega
      simp [hthis, hlater, hin]
    · have hin : (offset + take ≤ m ∧ m < offset + take + (length - take)) ↔
          (offset ≤ m ∧ m < offset + length) := by omega
      by_cases hlater : offset ≤ m ∧ m < offset + length
      · have hplace : take + (m - (offset + take)) = m - offset := by omega
        simp only [hin, if_pos hlater, getLsbD_dropLow, hplace]
      · simp only [hin, if_neg hlater, if_neg hthis]

end

/-! ## Cells -/

/-- The bytes pack the cells' values, with `padding` behind the last cell. -/
structure Packed (bitsPerCell cellCount : Nat) (cells : List (BitVec 8)) (value : Nat → BitVec 8)
    (padding : Nat → Bool) : Prop where
  length : cells.length = packedBytes cellCount bitsPerCell
  cell : ∀ j < cellCount, getCell cells bitsPerCell j = some (value j)
  pad : ∀ m, cellCount * bitsPerCell ≤ m → bit cells m = padding m

/-- The value one below, and zero below zero. -/
def decremented (value : BitVec 8) : BitVec 8 := BitVec.ofNat 8 (value.toNat - 1)

/-- Cell `j` is one of the `count` cells from `start` on, where cell zero follows the last. -/
def InWindow (start count cellCount j : Nat) : Prop :=
  ∃ offset < count, (start + offset) % cellCount = j

instance (start count cellCount j : Nat) : Decidable (InWindow start count cellCount j) :=
  inferInstanceAs (Decidable (∃ offset < count, (start + offset) % cellCount = j))

section Cells

variable {bitsPerCell cellCount : Nat} {cells : List (BitVec 8)} {value : Nat → BitVec 8}
  {padding : Nat → Bool} {i j start count : Nat}

lemma cell_fits (hj : j < cellCount) (hlength : cells.length = packedBytes cellCount bitsPerCell) :
    j * bitsPerCell + bitsPerCell ≤ cellCount * bitsPerCell ∧
      cellCount * bitsPerCell ≤ 8 * cells.length := by
  have hnext : (j + 1) * bitsPerCell ≤ cellCount * bitsPerCell := Nat.mul_le_mul_right _ hj
  rw [Nat.succ_mul] at hnext
  rw [hlength, packedBytes]
  omega

/-- The bits of two cells do not meet. -/
lemma cells_disjoint (hne : j ≠ i) {k : Nat} (hk : k < bitsPerCell) :
    ¬(i * bitsPerCell ≤ j * bitsPerCell + k ∧
      j * bitsPerCell + k < i * bitsPerCell + bitsPerCell) := by
  rintro ⟨hle, hlt⟩
  have hij : i < j + 1 := by
    refine Nat.lt_of_mul_lt_mul_right (a := bitsPerCell) ?_
    rw [Nat.succ_mul]
    omega
  have hji : j < i + 1 := by
    refine Nat.lt_of_mul_lt_mul_right (a := bitsPerCell) ?_
    rw [Nat.succ_mul]
    omega
  omega

lemma inWindow_succ :
    InWindow start (count + 1) cellCount j ↔
      InWindow start count cellCount j ∨ (start + count) % cellCount = j := by
  constructor
  · rintro ⟨offset, hlt, hj⟩
    obtain hlast | hlt : offset = count ∨ offset < count := by omega
    · exact .inr (hlast ▸ hj)
    · exact .inl ⟨offset, hlt, hj⟩
  · rintro (⟨offset, hlt, hj⟩ | hj)
    · exact ⟨offset, by omega, hj⟩
    · exact ⟨count, by omega, hj⟩

/-- The window does not come round to a cell it has passed. -/
lemma not_inWindow_next (start : Nat) (hcount : count < cellCount) :
    ¬InWindow start count cellCount ((start + count) % cellCount) := by
  rintro ⟨offset, hlt, hmod⟩
  have hcancel : offset ≡ count [MOD cellCount] := Nat.ModEq.add_left_cancel' start hmod
  have := hcancel.eq_of_lt_of_lt (by omega) hcount
  omega

variable (hbits : bitsPerCell ≤ 8)
include hbits

lemma getCell_spec (hj : j < cellCount)
    (hlength : cells.length = packedBytes cellCount bitsPerCell) :
    ∃ result, getCell cells bitsPerCell j = some result ∧
      ∀ k, result.getLsbD k = (decide (k < bitsPerCell) && bit cells (j * bitsPerCell + k)) := by
  have hfits := cell_fits hj hlength
  exact getBits_spec (by omega) hbits

/-- Every byte array of the packed length packs some values. -/
lemma exists_packed (hlength : cells.length = packedBytes cellCount bitsPerCell) :
    ∃ value, Packed bitsPerCell cellCount cells value (bit cells) := by
  refine ⟨fun j => (getCell cells bitsPerCell j).getD 0, hlength, fun j hj => ?_, fun _ _ => rfl⟩
  obtain ⟨result, hresult, -⟩ := getCell_spec hbits hj hlength
  simp [hresult]

variable (h : Packed bitsPerCell cellCount cells value padding)
include h

lemma Packed.lt (hj : j < cellCount) : (value j).toNat < 2 ^ bitsPerCell := by
  obtain ⟨result, hresult, hread⟩ := getCell_spec hbits hj h.length
  obtain rfl : value j = result := Option.some.inj ((h.cell j hj).symm.trans hresult)
  refine Nat.lt_pow_two_of_testBit _ fun k hk => ?_
  simp [BitVec.testBit_toNat, hread, not_lt.mpr hk]

lemma Packed.setCell (hi : i < cellCount) {v : BitVec 8} (hv : v.toNat < 2 ^ bitsPerCell) :
    ∃ result, setCell cells bitsPerCell i v = some result ∧
      Packed bitsPerCell cellCount result (Function.update value i v) padding := by
  have hfits := cell_fits hi h.length
  obtain ⟨result, hresult, hlen, hwritten⟩ := setBits_spec v
    (show i * bitsPerCell + bitsPerCell ≤ 8 * cells.length by omega)
  have hlength : result.length = packedBytes cellCount bitsPerCell := hlen.trans h.length
  refine ⟨result, hresult, hlength, fun j hj => ?_, fun m hm => ?_⟩
  · obtain ⟨x, hx, hread⟩ := getCell_spec hbits hj hlength
    rw [hx]
    congr 1
    by_cases hji : j = i
    · subst hji
      rw [Function.update_self]
      refine BitVec.eq_of_getLsbD_eq fun k _ => ?_
      by_cases hk : k < bitsPerCell
      · simp [hread, hk, hwritten]
      · have hhigh : v.getLsbD k = false := by
          rw [← BitVec.testBit_toNat]
          exact Nat.testBit_lt_two_pow
            (hv.trans_le (Nat.pow_le_pow_right (by decide) (not_lt.mp hk)))
        simp [hread, hk, hhigh]
    · rw [Function.update_of_ne hji]
      obtain ⟨y, hy, hold⟩ := getCell_spec hbits hj h.length
      obtain rfl : value j = y := Option.some.inj ((h.cell j hj).symm.trans hy)
      refine BitVec.eq_of_getLsbD_eq fun k _ => ?_
      by_cases hk : k < bitsPerCell
      · rw [hread, hold, hwritten, if_neg (cells_disjoint hji hk)]
      · simp [hread, hold, hk]
  · have hout : ¬(i * bitsPerCell ≤ m ∧ m < i * bitsPerCell + bitsPerCell) := by omega
    rw [hwritten, if_neg hout, h.pad m hm]

lemma Packed.decrementCell (hcells : 0 < cellCount) (start offset : Nat) :
    ∃ result, decrementCell bitsPerCell start cellCount cells offset = some result ∧
      Packed bitsPerCell cellCount result
        (Function.update value ((start + offset) % cellCount)
          (decremented (value ((start + offset) % cellCount)))) padding := by
  have hi : (start + offset) % cellCount < cellCount := Nat.mod_lt _ hcells
  generalize hindex : (start + offset) % cellCount = i at hi
  have hlt := h.lt hbits hi
  simp only [Bloom.decrementCell, hindex, h.cell i hi, Option.bind_eq_bind, Option.bind_some]
  by_cases hzero : value i = 0
  · refine ⟨cells, by simp [hzero], ?_⟩
    have hsame : decremented (value i) = value i := by simp [hzero, decremented]
    rwa [hsame, Function.update_eq_self]
  · have hpos : (value i).toNat ≠ 0 := fun h0 => hzero (BitVec.eq_of_toNat_eq h0)
    have hpred : value i - 1 = decremented (value i) := by
      apply BitVec.eq_of_toNat_eq
      rw [BitVec.toNat_sub, decremented, BitVec.toNat_ofNat]
      simp
      omega
    rw [if_pos hzero, hpred]
    refine h.setCell hbits hi ?_
    rw [decremented, BitVec.toNat_ofNat]
    omega

lemma Packed.decrementAdjacent (start : Nat) (hcount : count ≤ cellCount) :
    ∃ result, decrementAdjacent cells bitsPerCell start count cellCount = some result ∧
      Packed bitsPerCell cellCount result
        (fun j => if InWindow start count cellCount j then decremented (value j) else value j)
        padding := by
  induction count with
  | zero => exact ⟨cells, rfl, by simpa [InWindow] using h⟩
  | succ count ih =>
    obtain ⟨before, hbefore, hpacked⟩ := ih (by omega)
    obtain ⟨result, hresult, hafter⟩ := hpacked.decrementCell hbits (by omega) start count
    refine ⟨result, ?_, ?_⟩
    · rw [Bloom.decrementAdjacent, List.range_succ, List.foldlM_append]
      rw [Bloom.decrementAdjacent] at hbefore
      simp [hbefore, hresult]
    · convert hafter using 1
      funext j
      by_cases hj : j = (start + count) % cellCount
      · subst hj
        have hfresh := not_inWindow_next start (show count < cellCount by omega)
        simp [inWindow_succ, hfresh]
      · simp [inWindow_succ, Function.update_of_ne hj, Ne.symm hj]

end Cells

/-- On cells of at most eight bits: writing a cell changes that cell alone and no padding, and
decrementing a window that is no longer than the ring takes one from each of its cells once. -/
theorem setCell_decrementAdjacent_frame {bitsPerCell cellCount : Nat} {cells : List (BitVec 8)}
    (hbits : bitsPerCell ≤ 8) (hlength : cells.length = packedBytes cellCount bitsPerCell) :
    (∀ i < cellCount, ∀ v : BitVec 8, v.toNat < 2 ^ bitsPerCell →
      ∃ result, setCell cells bitsPerCell i v = some result ∧ result.length = cells.length ∧
        getCell result bitsPerCell i = some v ∧
        (∀ j < cellCount, j ≠ i → getCell result bitsPerCell j = getCell cells bitsPerCell j) ∧
        ∀ m, cellCount * bitsPerCell ≤ m → bit result m = bit cells m) ∧
    ∀ start count, count ≤ cellCount →
      ∃ result, decrementAdjacent cells bitsPerCell start count cellCount = some result ∧
        result.length = cells.length ∧
        (∀ j < cellCount, ∃ x, getCell cells bitsPerCell j = some x ∧
          getCell result bitsPerCell j =
            some (if InWindow start count cellCount j then decremented x else x)) ∧
        ∀ m, cellCount * bitsPerCell ≤ m → bit result m = bit cells m := by
  obtain ⟨value, hpacked⟩ := exists_packed hbits hlength
  constructor
  · intro i hi v hv
    obtain ⟨result, hresult, hafter⟩ := hpacked.setCell hbits hi hv
    refine ⟨result, hresult, hafter.length.trans hlength.symm, ?_, fun j hj hne => ?_, hafter.pad⟩
    · rw [hafter.cell i hi, Function.update_self]
    · rw [hafter.cell j hj, hpacked.cell j hj, Function.update_of_ne hne]
  · intro start count hcount
    obtain ⟨result, hresult, hafter⟩ := hpacked.decrementAdjacent hbits start hcount
    exact ⟨result, hresult, hafter.length.trans hlength.symm,
      fun j hj => ⟨value j, hpacked.cell j hj, hafter.cell j hj⟩, hafter.pad⟩

/-- Three cells of three bits in two bytes, the last of them across the border. -/
theorem setCell_across_border :
    [0b10110101#8, 0b11111111#8].length = packedBytes 3 3 ∧
      ∃ result, setCell [0b10110101#8, 0b11111111#8] 3 2 0b011#8 = some result ∧
        getCell result 3 2 = some 0b011#8 := by
  have hlength : [0b10110101#8, 0b11111111#8].length = packedBytes 3 3 := by decide
  have hframe := setCell_decrementAdjacent_frame (by decide) hlength
  obtain ⟨result, hresult, -, hcell, -⟩ := hframe.1 2 (by decide) 0b011#8 (by decide)
  exact ⟨hlength, result, hresult, hcell⟩

end Bitmagnet.Bloom
