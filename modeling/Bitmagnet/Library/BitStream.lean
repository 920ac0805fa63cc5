import Mathlib.Data.Nat.Bitwise
import Mathlib.Tactic.IntervalCases

/-!
# Streams of bits in bytes

The bits of a list of bytes in a row, the low bit of each byte first.  A field that lies within one
byte is cut out with a mask and two shifts (`getLsbD_field`) and replaced with a mask and a shift
(`splice`); on the stream, replacing it writes `take` bits in a row and keeps all others
(`bit_set_splice`).
-/

namespace BitStream

/-- Bit `m` of the stream; behind its end every bit is zero. -/
def bit (bytes : List (BitVec 8)) (m : Nat) : Bool := (bytes.getD (m / 8) 0).getLsbD (m % 8)

/-- The mask of the low `take` bits, with the shift by a whole byte avoided. -/
def lowMask (take : Nat) : BitVec 8 := if take = 8 then 255#8 else (1#8 <<< take) - 1#8

/-- The value without its low `take` bits, with the shift by a whole byte avoided. -/
def dropLow (value : BitVec 8) (take : Nat) : BitVec 8 := if take = 8 then 0 else value >>> take

/-- The byte with the `take` bits from `offset` on replaced by the low bits of `value`. -/
def splice (byte value : BitVec 8) (offset take : Nat) : BitVec 8 :=
  byte &&& ~~~(lowMask take <<< offset) ||| (value &&& lowMask take) <<< offset

variable {bytes : List (BitVec 8)} {byte value : BitVec 8} {offset take k m : Nat}

lemma toNat_lowMask (htake : take ≤ 8) : (lowMask take).toNat = 2 ^ take - 1 := by
  interval_cases take <;> rfl

lemma getLsbD_lowMask (htake : take ≤ 8) (k : Nat) :
    (lowMask take).getLsbD k = decide (k < take) := by
  rw [← BitVec.testBit_toNat, toNat_lowMask htake, Nat.testBit_two_pow_sub_one]

lemma getLsbD_dropLow : (dropLow value take).getLsbD k = value.getLsbD (take + k) := by
  by_cases hwhole : take = 8 <;> simp [dropLow, hwhole]

lemma getLsbD_field {shift : Nat} (htake : take ≤ 8) (hk : k < 8) :
    (((byte >>> offset) &&& lowMask take) <<< shift).getLsbD k =
      (decide (shift ≤ k ∧ k < shift + take) && byte.getLsbD (offset + (k - shift))) := by
  rw [BitVec.getLsbD_shiftLeft, BitVec.getLsbD_and, BitVec.getLsbD_ushiftRight,
    getLsbD_lowMask htake]
  by_cases hlow : k < shift
  · have hout : ¬shift ≤ k := by omega
    simp [hlow, hout]
  · have hin : (shift ≤ k ∧ k < shift + take) ↔ k - shift < take := by omega
    simp [hk, hlow, hin, Bool.and_comm]

lemma getLsbD_splice (hfits : offset + take ≤ 8) (hk : k < 8) :
    (splice byte value offset take).getLsbD k =
      if offset ≤ k ∧ k < offset + take then value.getLsbD (k - offset) else byte.getLsbD k := by
  have htake : take ≤ 8 := by omega
  simp only [splice, BitVec.getLsbD_or, BitVec.getLsbD_and, BitVec.getLsbD_not,
    BitVec.getLsbD_shiftLeft, getLsbD_lowMask htake, hk, decide_true, Bool.true_and]
  by_cases hlow : k < offset
  · have hout : ¬(offset ≤ k ∧ k < offset + take) := by omega
    simp [hlow, hout]
  · have hin : (offset ≤ k ∧ k < offset + take) ↔ k - offset < take := by omega
    by_cases hfield : k - offset < take <;> simp [hlow, hin, hfield]

lemma bit_eq_getLsbD (hbyte : bytes[m / 8]? = some byte) : bit bytes m = byte.getLsbD (m % 8) := by
  simp [bit, List.getD_eq_getElem?_getD, hbyte]

lemma bit_set_splice (hbyte : bytes[offset / 8]? = some byte) (hfits : offset % 8 + take ≤ 8)
    (m : Nat) :
    bit (bytes.set (offset / 8) (splice byte value (offset % 8) take)) m =
      if offset ≤ m ∧ m < offset + take then value.getLsbD (m - offset) else bit bytes m := by
  have hlt : offset / 8 < bytes.length := (List.getElem?_eq_some_iff.mp hbyte).1
  by_cases hsame : offset / 8 = m / 8
  · have hset : (bytes.set (offset / 8) (splice byte value (offset % 8) take))[m / 8]? =
        some (splice byte value (offset % 8) take) := by
      rw [← hsame, List.getElem?_set_self hlt]
    have hin : (offset % 8 ≤ m % 8 ∧ m % 8 < offset % 8 + take) ↔
        (offset ≤ m ∧ m < offset + take) := by omega
    have hplace : m % 8 - offset % 8 = m - offset := by omega
    rw [bit_eq_getLsbD hset, getLsbD_splice hfits (Nat.mod_lt m (by decide)),
      bit_eq_getLsbD (hsame ▸ hbyte), hplace]
    simp only [hin]
  · have hout : ¬(offset ≤ m ∧ m < offset + take) := by omega
    rw [if_neg hout]
    simp only [bit, List.getD_eq_getElem?_getD, List.getElem?_set_ne hsame]

end BitStream
