import Mathlib.Data.List.Basic
import Mathlib.Data.Nat.Bitwise

/-!
# Twenty-byte identifiers

`Id20` of `compact.rs` — a node ID or a v1 info hash — with the three bit-level
helpers of `routing_tree.rs`: `xor`, `bit` and `leading_zeros`.

`bit` indexes a byte array, so it panics past bit 159; `bit?` records that panic
as `none`.  The two facts everything above rests on are `ext_bits` (an identifier
is determined by its 160 bits) and `leadingZeros_lt` (only the zero identifier
has no leading one, so the bucket index of any other is below 160).
-/

namespace Bitmagnet.Dht

/-- `Id20([u8; 20])`. -/
structure Id20 where
  bytes : List UInt8
  size : bytes.length = 20
deriving DecidableEq

namespace Id20

@[ext] lemma ext {a b : Id20} (h : a.bytes = b.bytes) : a = b := by
  cases a; cases b; cases h; rfl

/-- `Id20::ZERO`. -/
def zero : Id20 := ⟨List.replicate 20 0, by simp⟩

/-- `Id20::from_slice`: the slice must be exactly twenty bytes. -/
def fromSlice (value : List UInt8) : Option Id20 :=
  if h : value.length = 20 then some ⟨value, h⟩ else none

@[simp] lemma fromSlice_bytes (id : Id20) : fromSlice id.bytes = some id := by
  simp [fromSlice, id.size]

end Id20

/-- `ROUTING_ID_BITS`. -/
def routingIdBits : Nat := 160

/-- `xor` of `routing_tree.rs`, byte by byte. -/
def xor (left right : Id20) : Id20 :=
  ⟨List.zipWith (· ^^^ ·) left.bytes right.bytes, by simp [left.size, right.size]⟩

/-- `bit`: `id.as_bytes()[index / 8] & (1 << (7 - index % 8)) != 0`.  Indexing
past the last byte panics. -/
def bit? (id : Id20) (index : Nat) : Option Bool :=
  id.bytes[index / 8]?.map fun byte =>
    (byte &&& ((1 : UInt8) <<< UInt8.ofNat (7 - index % 8))) != 0

/-- `u8::leading_zeros`. -/
def byteLeadingZeros (byte : UInt8) : Nat :=
  if byte = 0 then 8 else 7 - Nat.log2 byte.toNat

/-- `leading_zeros`: eight for every leading zero byte, then the leading zeros
of the first non-zero byte. -/
def leadingZeros (id : Id20) : Nat :=
  ((id.bytes.map byteLeadingZeros).takeWhile (· == 8)).sum +
    ((id.bytes.find? (· != 0)).map byteLeadingZeros).getD 0

/-! ## `xor` -/

lemma zipWith_xor_cancel :
    ∀ (left right : List UInt8), left.length = right.length →
      List.zipWith (· ^^^ ·) (List.zipWith (· ^^^ ·) left right) right = left
  | [], _, _ => by simp
  | l :: left, [], h => by simp at h
  | l :: left, r :: right, h => by
    have hlen : left.length = right.length := by simpa using h
    simp [zipWith_xor_cancel left right hlen, UInt8.xor_assoc]

/-- XOR with the origin is an involution: distances and identifiers carry the
same information. -/
@[simp] lemma xor_xor_cancel (id origin : Id20) : xor (xor id origin) origin = id := by
  apply Id20.ext
  exact zipWith_xor_cancel _ _ (by simp [id.size, origin.size])

lemma xor_injective (origin : Id20) : Function.Injective (xor · origin) := by
  intro a b h
  have hx := congrArg (xor · origin) h
  simpa using hx

@[simp] lemma xor_self (id : Id20) : xor id id = Id20.zero := by
  apply Id20.ext
  simp [xor, id.size, Id20.zero]

/-- Only the origin is at distance zero. -/
lemma xor_eq_zero_iff (id origin : Id20) : xor id origin = Id20.zero ↔ id = origin := by
  constructor
  · intro h
    refine xor_injective origin ?_
    simpa using h
  · rintro rfl
    simp

/-! ## `bit` -/

/-- Masking with one shifted bit reads that bit; both sides are finite tables. -/
private lemma mask_ne_zero_table :
    ∀ (k : Fin 8) (n : Fin 256),
      ((UInt8.ofFin n &&& ((1 : UInt8) <<< UInt8.ofNat k.val)) != 0) = n.val.testBit k.val := by
  decide +kernel

lemma mask_ne_zero_eq_testBit (byte : UInt8) {k : Nat} (hk : k < 8) :
    ((byte &&& ((1 : UInt8) <<< UInt8.ofNat k)) != 0) = byte.toNat.testBit k :=
  mask_ne_zero_table ⟨k, hk⟩ byte.toFin

lemma bit?_eq_testBit (id : Id20) (index : Nat) :
    bit? id index = id.bytes[index / 8]?.map fun byte => byte.toNat.testBit (7 - index % 8) := by
  unfold bit?
  congr 1
  funext byte
  exact mask_ne_zero_eq_testBit byte (by omega)

/-- Inside the identifier, `bit` does not panic. -/
lemma bit?_isSome (id : Id20) {index : Nat} (h : index < routingIdBits) :
    ∃ b, bit? id index = some b := by
  have hlt : index / 8 < id.bytes.length := by
    rw [id.size]; unfold routingIdBits at h; omega
  exact ⟨_, by rw [bit?, List.getElem?_eq_getElem hlt]; rfl⟩

/-- Past the last bit it does. -/
lemma bit?_eq_none (id : Id20) {index : Nat} (h : routingIdBits ≤ index) :
    bit? id index = none := by
  have hge : id.bytes.length ≤ index / 8 := by
    rw [id.size]; unfold routingIdBits at h; omega
  rw [bit?, List.getElem?_eq_none hge]
  rfl

lemma byte_ext {x y : UInt8} (h : ∀ k < 8, x.toNat.testBit k = y.toNat.testBit k) : x = y := by
  refine UInt8.toNat_inj.mp (Nat.eq_of_testBit_eq fun k => ?_)
  by_cases hk : k < 8
  · exact h k hk
  · have hpow : 2 ^ 8 ≤ 2 ^ k := Nat.pow_le_pow_right (by decide) (by omega)
    rw [Nat.testBit_lt_two_pow (Nat.lt_of_lt_of_le x.toNat_lt hpow),
      Nat.testBit_lt_two_pow (Nat.lt_of_lt_of_le y.toNat_lt hpow)]

/-- The bits of a difference. -/
lemma bit?_xor (a b : Id20) (index : Nat) :
    bit? (xor a b) index = (bit? a index).bind fun x => (bit? b index).map fun y => x ^^ y := by
  simp only [bit?_eq_testBit, xor, List.getElem?_zipWith]
  cases a.bytes[index / 8]? with
  | none => rfl
  | some x =>
    cases b.bytes[index / 8]? with
    | none => rfl
    | some y => simp

/-- **An identifier is determined by its bits.** -/
lemma ext_bits {a b : Id20} (h : ∀ index < routingIdBits, bit? a index = bit? b index) : a = b := by
  refine Id20.ext (List.ext_getElem (by rw [a.size, b.size]) fun i ha hb => ?_)
  refine byte_ext fun k hk => ?_
  have hi : i < 20 := by simpa [a.size] using ha
  -- bit `k` of byte `i` is the identifier's bit `8 * i + (7 - k)`
  have hbit := h (8 * i + (7 - k)) (by unfold routingIdBits; omega)
  have hdiv : (8 * i + (7 - k)) / 8 = i := by omega
  have hmod : 7 - (8 * i + (7 - k)) % 8 = k := by omega
  rw [bit?_eq_testBit, bit?_eq_testBit, hdiv, hmod, List.getElem?_eq_getElem ha,
    List.getElem?_eq_getElem hb] at hbit
  simpa using hbit

/-! ## `leading_zeros` -/

lemma byteLeadingZeros_eq_eight_iff (byte : UInt8) : byteLeadingZeros byte = 8 ↔ byte = 0 := by
  unfold byteLeadingZeros
  split
  · simp [*]
  · constructor
    · intro h; omega
    · intro h; contradiction

/-- The bucket index of a byte string with a non-zero byte stays inside it. -/
lemma leadingZeros_bytes_lt : ∀ bytes : List UInt8, (∃ byte ∈ bytes, byte ≠ 0) →
    ((bytes.map byteLeadingZeros).takeWhile (· == 8)).sum +
      ((bytes.find? (· != 0)).map byteLeadingZeros).getD 0 < 8 * bytes.length
  | [], h => by simp at h
  | byte :: bytes, h => by
    by_cases hz : byte = 0
    · have hrest : ∃ b ∈ bytes, b ≠ 0 := by
        obtain ⟨b, hb, hne⟩ := h
        rcases List.mem_cons.mp hb with rfl | hb
        · exact absurd hz hne
        · exact ⟨b, hb, hne⟩
      have ih := leadingZeros_bytes_lt bytes hrest
      have h8 : byteLeadingZeros byte = 8 := (byteLeadingZeros_eq_eight_iff byte).mpr hz
      simp only [List.map_cons, List.length_cons]
      rw [List.takeWhile_cons_of_pos (by simpa using h8),
        List.find?_cons_of_neg (by simpa using hz), List.sum_cons, h8]
      omega
    · have hne : byteLeadingZeros byte ≠ 8 := fun h8 =>
        hz ((byteLeadingZeros_eq_eight_iff byte).mp h8)
      have hlt : byteLeadingZeros byte < 8 := by
        unfold byteLeadingZeros at hne ⊢
        rw [if_neg hz]
        omega
      simp only [List.map_cons, List.length_cons]
      rw [List.takeWhile_cons_of_neg (by simpa using hne),
        List.find?_cons_of_pos (by simpa using hz)]
      simp only [List.sum_nil, Option.map_some, Option.getD_some]
      omega

/-- **The bucket index of a non-zero distance is below 160.** -/
lemma leadingZeros_lt {id : Id20} (h : id ≠ Id20.zero) : leadingZeros id < routingIdBits := by
  have hex : ∃ byte ∈ id.bytes, byte ≠ 0 := by
    by_contra hall
    push Not at hall
    exact h (Id20.ext (List.eq_replicate_iff.mpr ⟨id.size, hall⟩))
  have hlt := leadingZeros_bytes_lt id.bytes hex
  rw [id.size] at hlt
  exact hlt

end Bitmagnet.Dht
