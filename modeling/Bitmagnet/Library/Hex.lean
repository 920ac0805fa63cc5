import Mathlib.Data.List.Basic

/-!
# Bytes in hexadecimal

Lower-case hexadecimal text of bytes, and its strict reader: an even number of
digits of either case.
-/

namespace Hex

/-- The digit of a number below sixteen. -/
def digit (n : Nat) : Char := if n < 10 then Char.ofNat (48 + n) else Char.ofNat (87 + n)

/-- The value of a digit of either case. -/
def value (c : Char) : Option Nat :=
  if '0' ≤ c ∧ c ≤ '9' then some (c.toNat - 48)
  else if 'a' ≤ c ∧ c ≤ 'f' then some (c.toNat - 87)
  else if 'A' ≤ c ∧ c ≤ 'F' then some (c.toNat - 55)
  else none

/-- Two digits for each byte. -/
def encode (bytes : List UInt8) : List Char :=
  bytes.flatMap fun b => [digit (b.toNat / 16), digit (b.toNat % 16)]

/-- Read pairs of digits. -/
def decode : List Char → Option (List UInt8)
  | [] => some []
  | [_] => none
  | hi :: lo :: rest => do
    let h ← value hi
    let l ← value lo
    let bytes ← decode rest
    pure (UInt8.ofNat (h * 16 + l) :: bytes)

/-- A lower-case digit. -/
def IsLower (c : Char) : Bool := ('0' ≤ c ∧ c ≤ '9') ∨ ('a' ≤ c ∧ c ≤ 'f')

lemma value_digit {n : Nat} (h : n < 16) : value (digit n) = some n := by
  have hall : ∀ k : Fin 16, value (digit k) = some k.val := by decide
  exact hall ⟨n, h⟩

lemma isLower_digit {n : Nat} (h : n < 16) : IsLower (digit n) = true := by
  have hall : ∀ k : Fin 16, IsLower (digit k) = true := by decide
  exact hall ⟨n, h⟩

/-- **Reading gives the bytes back.** -/
lemma decode_encode (bytes : List UInt8) : decode (encode bytes) = some bytes := by
  induction bytes with
  | nil => rfl
  | cons b bytes ih =>
    have hlt := b.toNat_lt
    have hb : b.toNat / 16 * 16 + b.toNat % 16 = b.toNat := by omega
    have hcons : encode (b :: bytes) =
        digit (b.toNat / 16) :: digit (b.toNat % 16) :: encode bytes := rfl
    rw [hcons, decode, value_digit (by omega), value_digit (by omega), ih]
    change some (UInt8.ofNat (b.toNat / 16 * 16 + b.toNat % 16) :: bytes) = _
    rw [hb, UInt8.ofNat_toNat]

lemma length_encode (bytes : List UInt8) : (encode bytes).length = 2 * bytes.length := by
  induction bytes with
  | nil => rfl
  | cons b bytes ih =>
    rw [encode, List.flatMap_cons, List.length_append, List.length_cons]
    rw [encode] at ih
    rw [ih]
    simp
    omega

lemma isLower_of_mem_encode {bytes : List UInt8} {c : Char} (h : c ∈ encode bytes) :
    IsLower c = true := by
  obtain ⟨b, -, hc⟩ := List.mem_flatMap.mp h
  have hlt := b.toNat_lt
  rcases List.mem_cons.mp hc with rfl | hc
  · exact isLower_digit (by omega)
  · rw [List.mem_singleton.mp hc]
    exact isLower_digit (by omega)

end Hex
