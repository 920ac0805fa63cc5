import Mathlib.Data.Nat.Digits.Lemmas
import Mathlib.Data.List.Lex
import Bitmagnet.Library.SortedMap

/-!
# Bencoded values and their canonical encoding

A bencoded value is a byte string, an integer, a list or a dictionary.  The canonical
encoding writes numbers in decimal without leading zeros and dictionaries by
ascending key.  What a decoder relies on is collected in the lemmas about `decimal`
and `signed`: which bytes a number is made of, how it starts, and that reading its
digits gives it back.
-/

namespace Bencode

/-! ## Numbers -/

/-- The ASCII bytes of a decimal digit. -/
def digit (d : Nat) : UInt8 := UInt8.ofNat (48 + d)

/-- A number in decimal. -/
def decimal (n : Nat) : List UInt8 :=
  if n = 0 then [digit 0] else (Nat.digits 10 n).reverse.map digit

/-- The value of decimal digits. -/
def ofDecimal (digits : List UInt8) : Nat := digits.foldl (fun v d => v * 10 + (d.toNat - 48)) 0

lemma toNat_digit {d : Nat} (h : d < 10) : (digit d).toNat = 48 + d :=
  UInt8.toNat_ofNat_of_lt' (by simp [UInt8.size]; omega)

variable {n : Nat}

lemma exists_of_mem_decimal {b : UInt8} (h : b ∈ decimal n) : ∃ d < 10, b = digit d := by
  unfold decimal at h
  split at h
  · exact ⟨0, by omega, List.mem_singleton.mp h⟩
  · obtain ⟨d, hd, rfl⟩ := List.mem_map.mp h
    exact ⟨d, Nat.digits_lt_base (by omega) (List.mem_reverse.mp hd), rfl⟩

/-- Every byte is a digit. -/
lemma toNat_of_mem_decimal {b : UInt8} (h : b ∈ decimal n) : 48 ≤ b.toNat ∧ b.toNat ≤ 57 := by
  obtain ⟨d, hd, rfl⟩ := exists_of_mem_decimal h
  rw [toNat_digit hd]
  omega

lemma decimal_ne_nil (n : Nat) : decimal n ≠ [] := by
  unfold decimal
  split
  · simp
  · rename_i h
    simpa using Nat.digits_ne_nil_iff_ne_zero.mpr h

/-- No leading zero. -/
lemma head_decimal (h : n ≠ 0) : ∃ d, 1 ≤ d ∧ d < 10 ∧ (decimal n).head? = some (digit d) := by
  have hne : Nat.digits 10 n ≠ [] := Nat.digits_ne_nil_iff_ne_zero.mpr h
  refine ⟨(Nat.digits 10 n).getLast hne, ?_, ?_, ?_⟩
  · exact Nat.one_le_iff_ne_zero.mpr (Nat.getLast_digit_ne_zero 10 h)
  · exact Nat.digits_lt_base (by omega) (List.getLast_mem hne)
  · rw [decimal, if_neg h, List.head?_map, List.head?_reverse, List.getLast?_eq_some_getLast hne]
    rfl

lemma foldl_digits (l : List Nat) (hl : ∀ d ∈ l, d < 10) :
    (l.reverse.map digit).foldl (fun v d => v * 10 + (d.toNat - 48)) 0 = Nat.ofDigits 10 l := by
  induction l with
  | nil => rfl
  | cons d l ih =>
    have hd := toNat_digit (hl d (List.mem_cons_self ..))
    rw [List.reverse_cons, List.map_append, List.foldl_append,
      ih fun e he => hl e (List.mem_cons_of_mem _ he)]
    simp only [List.map_cons, List.map_nil, List.foldl_cons, List.foldl_nil, hd, Nat.ofDigits_cons]
    omega

/-- **Reading a decimal gives the number.** -/
lemma ofDecimal_decimal (n : Nat) : ofDecimal (decimal n) = n := by
  unfold ofDecimal decimal
  split
  · rename_i h
    subst h
    rfl
  · rw [foldl_digits _ fun d hd => Nat.digits_lt_base (by omega) hd, Nat.ofDigits_digits]

/-- An integer with its sign. -/
def signed (n : Int) : List UInt8 :=
  if n < 0 then 45 :: decimal n.natAbs else decimal n.natAbs

/-! ## Values -/

/-- A dictionary key. -/
structure Key where
  bytes : List UInt8
deriving DecidableEq

/-- The bytes of a key as numbers. -/
def Key.digits (k : Key) : List Nat := k.bytes.map UInt8.toNat

lemma Key.digits_injective : Function.Injective Key.digits := by
  rintro ⟨a⟩ ⟨b⟩ h
  have hab : a = b := List.map_injective_iff.mpr (fun x y hxy => UInt8.toNat_inj.mp hxy) h
  rw [hab]

/-- Keys are ordered byte by byte. -/
instance : LinearOrder Key := LinearOrder.lift' Key.digits Key.digits_injective

/-- A bencoded value. -/
inductive Value
  | bytes (value : List UInt8)
  | integer (value : Int)
  | list (items : List Value)
  | dict (entries : List (Key × Value))

/-- Canonical byte string. -/
def encodeBytes (value : List UInt8) : List UInt8 := decimal value.length ++ 58 :: value

/-- Canonical integer. -/
def encodeInteger (n : Int) : List UInt8 := 105 :: (signed n ++ [101])

mutual

/-- The canonical encoding. -/
def encode : Value → List UInt8
  | .bytes value => encodeBytes value
  | .integer n => encodeInteger n
  | .list items => 108 :: (encodeItems items ++ [101])
  | .dict entries => 100 :: (encodeEntries entries ++ [101])

def encodeItems : List Value → List UInt8
  | [] => []
  | item :: rest => encode item ++ encodeItems rest

def encodeEntries : List (Key × Value) → List UInt8
  | [] => []
  | (key, value) :: rest => encodeBytes key.bytes ++ encode value ++ encodeEntries rest

end

lemma encodeItems_eq (items : List Value) : encodeItems items = items.flatMap encode := by
  induction items with
  | nil => rfl
  | cons item rest ih => rw [encodeItems, List.flatMap_cons, ih]

/-- One entry of a dictionary. -/
def encodeEntry (e : Key × Value) : List UInt8 := encodeBytes e.1.bytes ++ encode e.2

lemma encodeEntries_eq (entries : List (Key × Value)) :
    encodeEntries entries = entries.flatMap encodeEntry := by
  induction entries with
  | nil => rfl
  | cons e rest ih =>
    obtain ⟨key, value⟩ := e
    rw [encodeEntries, List.flatMap_cons, ih, encodeEntry]

/-- A value with dictionaries in order and containers nested at most so deep. -/
inductive Value.Within : Nat → Value → Prop
  | bytes (n : Nat) (value : List UInt8) : Within n (.bytes value)
  | integer (n : Nat) (value : Int) : Within n (.integer value)
  | list (n : Nat) (items : List Value) (h : ∀ item ∈ items, Within n item) :
      Within (n + 1) (.list items)
  | dict (n : Nat) (entries : List (Key × Value)) (sorted : SortedMap.Sorted entries)
      (h : ∀ e ∈ entries, Within n e.2) : Within (n + 1) (.dict entries)

end Bencode
