import Mathlib.Algebra.BigOperators.Group.List.Basic
import Bitmagnet.Dht.InboundSafety
import Bitmagnet.Library.Bencode

/-!
# Reading canonical bencode

What the inbound scanner does on canonical bencode.  `Reads m bytes Q` says that `m`,
at the front of `bytes`, consumes exactly these and returns something that
satisfies `Q`, or hits the value limit; that limit is excluded once, for the whole
message, by the safety of the decoder.

The rules mirror how the scanner is written: `Reads.bind` for sequences, one rule for
each function that looks ahead without consuming, and `reads_whileOpen` for the
loops over the entries of a container.
-/

namespace Bitmagnet.Dht.Inbound

open Scan (wp)

/-- The counters are in range. -/
def Ready (s : Cursor) : Prop :=
  s.input.length ≤ maxInboundDatagramBytes ∧ s.values ≤ maxInboundValues

/-- `m` reads exactly `bytes`. -/
def Reads {α : Type} (m : Inbound α) (bytes : List UInt8) (Q : α → Prop) : Prop :=
  ∀ (s : Cursor) (rest : List UInt8), Ready s → s.input.drop s.offset = bytes ++ rest →
    wp m (fun a s' => Q a ∧ Ready s' ∧ s'.input = s.input ∧ s'.offset = s.offset + bytes.length)
      (fun e _ => e.IsValueCount) s

section Rules

variable {α β : Type} {m : Inbound α} {f : α → Inbound β} {Q : α → Prop} {R : β → Prop}
variable {bytes bytes' : List UInt8} {c : UInt8} {s : Cursor}

lemma Ready.size_lt (h : Ready s) : s.input.length + 1 < usizeLimit := by
  have h₁ := h.1
  simp only [maxInboundDatagramBytes, usizeLimit] at *
  omega

lemma Reads.mono (h : Reads m bytes Q) {Q' : α → Prop} (hQ : ∀ a, Q a → Q' a) :
    Reads m bytes Q' := by
  intro s rest hready hdrop
  exact Scan.wp_mono (h s rest hready hdrop) (fun a _ hpost => ⟨hQ a hpost.1, hpost.2⟩)
    fun _ _ he => he

/-- Read one part, then the next. -/
lemma Reads.bind (h : Reads m bytes Q) (hf : ∀ a, Q a → Reads (f a) bytes' R) :
    Reads (m >>= f) (bytes ++ bytes') R := by
  intro s rest hready hdrop
  rw [Scan.wp_bind]
  refine Scan.wp_mono (h s (bytes' ++ rest) hready (by rw [hdrop, List.append_assoc])) ?_
    fun _ _ he => he
  rintro a s₁ ⟨hQ, hready₁, hinput, hoffset⟩
  have hdrop₁ : s₁.input.drop s₁.offset = bytes' ++ rest := by
    rw [hinput, hoffset, ← List.drop_drop, hdrop, List.append_assoc, List.drop_left]
  refine Scan.wp_mono (hf a hQ s₁ rest hready₁ hdrop₁) ?_ fun _ _ he => he
  rintro b s₂ ⟨hR, hready₂, hinput₂, hoffset₂⟩
  refine ⟨hR, hready₂, hinput₂.trans hinput, ?_⟩
  rw [hoffset₂, hoffset, List.length_append, Nat.add_assoc]

/-- Read, and then go on without reading. -/
lemma Reads.bind_nil (h : Reads m bytes Q) (hf : ∀ a, Q a → Reads (f a) [] R) :
    Reads (m >>= f) bytes R :=
  List.append_nil bytes ▸ h.bind hf

variable {κ : Type} {a : α} {body : β → Inbound β}

lemma reads_pure (h : Q a) : Reads (pure a) [] Q :=
  fun _ _ hready _ => ⟨h, hready, rfl, rfl⟩

lemma Reads.map {g : α → β} (h : Reads m bytes Q) (hg : ∀ a, Q a → R (g a)) :
    Reads (m >>= fun a => pure (g a)) bytes R :=
  h.bind_nil fun a hQ => reads_pure (hg a hQ)

lemma reads_lift {x : Outcome InboundError α} (hx : x = .ok a) (h : Q a) :
    Reads (Scan.lift x) [] Q := by
  subst hx
  exact reads_pure h

/-- The byte the cursor stands at. -/
lemma getElem?_of_drop {rest : List UInt8} (h : s.input.drop s.offset = c :: rest) :
    s.input[s.offset]? = some c := by
  have := congrArg List.head? h
  simpa using this

/-- Look at the next byte. -/
lemma reads_peek {f : UInt8 → Inbound β} (h : Reads (f c) (c :: bytes) R) :
    Reads (peek >>= f) (c :: bytes) R := by
  intro s rest hready hdrop
  have hnext := getElem?_of_drop hdrop
  rw [Scan.wp_bind, wp_peek]
  refine ⟨fun byte hbyte => ?_, fun hnone => by simp [hnext] at hnone⟩
  obtain rfl : c = byte := Option.some.inj (hnext.symm.trans hbyte)
  exact h (s.tick 1) rest hready hdrop

lemma reads_add {limit a b : Nat} {f : Nat → Inbound β} (hlt : a + b < limit)
    (h : Reads (f (a + b)) bytes R) : Reads (add limit a b >>= f) bytes R := by
  intro s rest hready hdrop
  rw [Scan.wp_bind, wp_add]
  exact ⟨hlt, h s rest hready hdrop⟩

/-- The bytes start with something else than the end of a container. -/
def Starts (bytes : List UInt8) : Prop := ∃ c rest, bytes = c :: rest ∧ c ≠ ascii 'e'

lemma Starts.append (h : Starts bytes) (bytes' : List UInt8) : Starts (bytes ++ bytes') := by
  obtain ⟨c, rest, rfl, hc⟩ := h
  exact ⟨c, rest ++ bytes', rfl, hc⟩

/-- Look for the end of a container where there is none. -/
lemma Starts.reads_peek {g : UInt8 → Inbound α} (hstart : Starts bytes)
    (hg : ∀ c ≠ ascii 'e', g c = pure a) (h : Reads (f a) bytes R) :
    Reads (peek >>= g >>= f) bytes R := by
  obtain ⟨c, more, rfl, hc⟩ := hstart
  intro s rest hready hdrop
  have hpeek : Reads (peek >>= fun c => g c >>= f) (c :: more) R :=
    Inbound.reads_peek (by rw [hg c hc]; exact h)
  have hwp := hpeek s rest hready hdrop
  simp only [Scan.wp_bind] at hwp ⊢
  exact hwp

lemma reads_requireDictionaryValue {f : Unit → Inbound β} (hstart : Starts bytes)
    (h : Reads (f ()) bytes R) : Reads (requireDictionaryValue >>= f) bytes R :=
  hstart.reads_peek (fun _ hc => if_neg hc) h

/-- A value is counted, or there are too many. -/
lemma wp_beginValue_of_ready {Q : Nat → Cursor → Prop} (hready : Ready s)
    (hlt : s.offset < s.input.length)
    (hQ : Ready ((s.tick 1).counted (s.values + 1)) →
      Q s.offset ((s.tick 1).counted (s.values + 1))) :
    wp beginValue Q (fun e _ => e.IsValueCount) s := by
  have hlimit : maxInboundValues + 1 < usizeLimit := by decide
  have hvalues := hready.2
  rw [wp_beginValue]
  exact ⟨fun _ => ⟨by omega, fun hle => hQ ⟨hready.1, hle⟩, fun _ => trivial⟩,
    fun hnot => absurd hlt hnot⟩

lemma length_of_drop {rest : List UInt8} (h : s.input.drop s.offset = bytes ++ rest)
    (hne : bytes ≠ []) : s.offset + bytes.length ≤ s.input.length := by
  have hlen := congrArg List.length h
  have hpos : 0 < bytes.length := List.length_pos_iff.mpr hne
  rw [List.length_drop, List.length_append] at hlen
  omega

lemma reads_startContainer {field : String} {expected : InboundShapeKind} {depth : Nat}
    (hdepth : depth ≤ maxInboundNestingDepth) :
    Reads (startContainer field expected c depth) [c] fun _ => True := by
  intro s rest hready hdrop
  have hnext := getElem?_of_drop hdrop
  have hlt := length_of_drop hdrop (by simp)
  have hsize := hready.size_lt
  unfold startContainer
  rw [Scan.wp_bind]
  refine wp_beginValue_of_ready hready (by simpa using hlt) fun hready' => ?_
  simp only [Scan.wp_bind, Scan.wp_ensure, wp_get?, wp_advance, Scan.wp_update]
  refine ⟨fun _ => ⟨fun _ => ⟨?_, trivial, hready', rfl, rfl⟩, fun hnot => absurd hnext hnot⟩,
    fun hnot => absurd hdepth hnot⟩
  simp at hlt ⊢
  omega

lemma reads_endContainer_true {f : Bool → Inbound β} (h : Reads (f true) [] R) :
    Reads (endContainer >>= f) [ascii 'e'] R := by
  have hend : Reads endContainer [ascii 'e'] (· = true) := by
    intro s rest hready hdrop
    have hnext := getElem?_of_drop hdrop
    have hlt := length_of_drop hdrop (by simp)
    have hsize := hready.size_lt
    simp only [endContainer, Scan.wp_bind, wp_peek, Scan.wp_ite, wp_advance, Scan.wp_update,
      Scan.wp_pure]
    refine ⟨fun byte hbyte => ⟨fun _ => ⟨?_, trivial, hready, rfl, rfl⟩, fun hnot => ?_⟩,
      fun hnone => by simp [hnext] at hnone⟩
    · simp at hlt ⊢
      omega
    · exact absurd (Option.some.inj (hbyte.symm.trans hnext)) hnot
  exact hend.bind fun closed hclosed => hclosed ▸ h

lemma reads_endContainer_false {f : Bool → Inbound β} (hstart : Starts bytes)
    (h : Reads (f false) bytes R) : Reads (endContainer >>= f) bytes R :=
  hstart.reads_peek (fun _ hc => if_neg hc) h

/-- Entries until the end of the container, where `P` says what holds in front of those that are
left. -/
lemma reads_rounds {enc : κ → List UInt8} {P : List κ → β → Prop}
    (hbody : ∀ item rest b, P (item :: rest) b → Reads (body b) (enc item) (P rest))
    {items : List κ} (hstart : ∀ item ∈ items, Starts (enc item)) (b : β) (hb : P items b)
    (fuel : Nat) (hfuel : items.length < fuel) :
    Reads (Scan.iterate (openRound body) fuel b) (items.flatMap enc ++ [ascii 'e']) (P []) := by
  induction items generalizing b fuel with
  | nil =>
    obtain ⟨fuel, rfl⟩ : ∃ k, fuel = k + 1 := ⟨fuel - 1, by omega⟩
    have hround : Reads (openRound body b) [ascii 'e'] (· = .inr b) :=
      reads_endContainer_true (reads_pure rfl)
    refine (hround.bind fun r hr => ?_ : Reads _ ([ascii 'e'] ++ []) _)
    subst hr
    exact reads_pure hb
  | cons item items ih =>
    obtain ⟨fuel, rfl⟩ : ∃ k, fuel = k + 1 := ⟨fuel - 1, by omega⟩
    have hlength : items.length < fuel := by simpa using hfuel
    have hround : Reads (openRound body b) (enc item) (fun r => ∃ b', P items b' ∧ r = .inl b') :=
      reads_endContainer_false (hstart item (List.mem_cons_self ..))
        ((hbody item items b hb).map fun b' hb' => ⟨b', hb', rfl⟩)
    rw [List.flatMap_cons, List.append_assoc]
    refine hround.bind fun r hr => ?_
    obtain ⟨b', hb', rfl⟩ := hr
    exact ih (fun i hi => hstart i (List.mem_cons_of_mem _ hi)) b' hb' fuel hlength

/-- **Entries until the end of the container.** -/
lemma reads_whileOpen_of (enc : κ → List UInt8) (P : List κ → β → Prop)
    (hbody : ∀ item rest b, P (item :: rest) b → Reads (body b) (enc item) (P rest))
    {items : List κ} (hstart : ∀ item ∈ items, Starts (enc item)) (b : β) (hb : P items b) :
    Reads (whileOpen body b) (items.flatMap enc ++ [ascii 'e']) (P []) := by
  intro s rest hready hdrop
  -- every entry has a byte, so the rounds suffice
  have hitems : items.length ≤ (items.flatMap enc).length := by
    rw [List.length_flatMap, ← List.length_map fun item => (enc item).length]
    refine List.length_le_sum_of_one_le _ fun n hn => ?_
    obtain ⟨item, hitem, rfl⟩ := List.mem_map.mp hn
    obtain ⟨c, rest, henc, _⟩ := hstart item hitem
    simp [henc]
  have hlength := length_of_drop hdrop (by simp)
  rw [List.length_append] at hlength
  simp only [whileOpen, Scan.wp_bind, Scan.wp_read]
  exact reads_rounds hbody hstart b hb _ (by omega) s rest hready hdrop

/-- Entries that each take one step. -/
lemma reads_whileOpen {enc : κ → List UInt8} {step : β → κ → β} {items : List κ}
    (hstart : ∀ item ∈ items, Starts (enc item))
    (hbody : ∀ item ∈ items, ∀ b, Reads (body b) (enc item) (· = step b item)) (b : β) :
    Reads (whileOpen body b) (items.flatMap enc ++ [ascii 'e']) (· = items.foldl step b) := by
  have hloop : Reads (whileOpen body b) (items.flatMap enc ++ [ascii 'e'])
      (fun b' => (∀ item ∈ [], item ∈ items) ∧ [].foldl step b' = items.foldl step b) := by
    refine reads_whileOpen_of enc
      (fun left b' => (∀ item ∈ left, item ∈ items) ∧ left.foldl step b' = items.foldl step b)
      ?_ hstart b ⟨fun _ h => h, rfl⟩
    rintro item rest b' ⟨hleft, hresult⟩
    obtain ⟨hitem, hrest⟩ := List.forall_mem_cons.mp hleft
    exact (hbody item hitem b').mono fun b'' hb'' => ⟨hrest, hb'' ▸ hresult⟩
  exact hloop.mono fun b' hb' => hb'.2

/-- A container without further entries. -/
lemma reads_whileOpen_nil (b : β) : Reads (whileOpen body b) [ascii 'e'] (· = b) :=
  @reads_whileOpen β Unit body (fun _ => []) (fun b _ => b) [] (by simp) (by simp) b

end Rules

/-! ## Byte strings -/

section

open Bencode (decimal signed encodeBytes encodeInteger)

variable {s : Cursor} {digits rest value : List UInt8} {b c : UInt8} {n : Nat}
  {E : InboundError → Cursor → Prop} {field : String}

lemma isAsciiDigit_of_mem_decimal (h : b ∈ decimal n) : isAsciiDigit b := by
  have := Bencode.toNat_of_mem_decimal h
  simp [isAsciiDigit, this]

lemma le_foldl_digits (l : List UInt8) (v : Nat) :
    v ≤ l.foldl (fun v d => v * 10 + (d.toNat - 48)) v := by
  induction l generalizing v with
  | nil => exact Nat.le_refl v
  | cons d l ih => exact Nat.le_trans (by omega) (ih (v * 10 + (d.toNat - 48)))

/-- Digits of a number below the limit pass every check of the fold. -/
lemma parseDecimalUsize_of_digits (l : List UInt8) (hdigits : ∀ d ∈ l, 48 ≤ d.toNat)
    (h : Bencode.ofDecimal l < usizeLimit) :
    parseDecimalUsize l = some (Bencode.ofDecimal l) := by
  unfold parseDecimalUsize Bencode.ofDecimal at *
  generalize 0 = v at *
  induction l generalizing v with
  | nil => rfl
  | cons d l ih =>
    have hle := le_foldl_digits l (v * 10 + (d.toNat - 48))
    have hd := hdigits d (List.mem_cons_self ..)
    simp only [List.foldl_cons] at h
    rw [List.foldlM_cons, if_pos ⟨by omega, hd, by omega⟩]
    exact ih (fun e he => hdigits e (List.mem_cons_of_mem _ he)) _ h

lemma parseDecimalUsize_decimal (h : n < usizeLimit) : parseDecimalUsize (decimal n) = some n := by
  have hvalue := Bencode.ofDecimal_decimal n
  rw [parseDecimalUsize_of_digits _ (fun d hd => (Bencode.toNat_of_mem_decimal hd).1)
    (by rwa [hvalue]), hvalue]

/-- A loop over `p` stops at the first byte that does not satisfy it. -/
lemma skipped_of_drop {p : UInt8 → Bool} (hdrop : s.input.drop s.offset = digits ++ c :: rest)
    (hall : ∀ d ∈ digits, p d) (hc : p c = false) : skipped p s = digits.length := by
  rw [skipped, hdrop, List.takeWhile_append_of_pos hall]
  simp [hc]

lemma slice_of_drop (hdrop : s.input.drop s.offset = digits ++ rest) :
    (s.input.drop s.offset).take (s.offset + digits.length - s.offset) = digits := by
  rw [hdrop, Nat.add_sub_cancel_left, List.take_left]

lemma getElem?_behind (hdrop : s.input.drop s.offset = digits ++ c :: rest) :
    s.input[s.offset + digits.length]? = some c := by
  rw [← List.getElem?_drop, hdrop]
  simp

lemma wp_lengthDigits (hready : Ready s)
    (hdrop : s.input.drop s.offset = digits ++ ascii ':' :: rest)
    (hall : ∀ d ∈ digits, isAsciiDigit d) :
    wp lengthDigits
      (fun p s' => p = (s.offset, digits) ∧ Ready s' ∧ s'.input = s.input ∧
        s'.offset = s.offset + digits.length) E s := by
  have hskipped := skipped_of_drop hdrop hall (by decide)
  have hcolon := getElem?_behind hdrop
  have hslice := slice_of_drop hdrop
  have hlt := (List.getElem?_eq_some_iff.mp hcolon).1
  unfold lengthDigits
  simp only [Scan.wp_bind, wp_position]
  refine wp_skipWhile (by have := hready.size_lt; omega) ?_
  rw [hskipped]
  simp only [wp_get?, Scan.wp_ensure, wp_slice, Scan.wp_pure, Cursor.seek_input,
    Cursor.tick_input, Cursor.seek_offset, Cursor.tick_offset, hcolon, hslice]
  exact ⟨fun _ => ⟨⟨by omega, by omega⟩, trivial, hready, rfl, rfl⟩,
    fun hnot => absurd trivial hnot⟩

lemma wp_bytesBehind {offset : Nat} (hready : Ready s)
    (hdrop : s.input.drop s.offset = ascii ':' :: (value ++ rest)) :
    wp (bytesBehind value.length offset)
      (fun v s' => v = value ∧ Ready s' ∧ s'.input = s.input ∧
        s'.offset = s.offset + 1 + value.length) E s := by
  have hlength := congrArg List.length hdrop
  have hsize := hready.size_lt
  have hvalue : (s.input.drop (s.offset + 1)).take (s.offset + 1 + value.length - (s.offset + 1)) =
      value := by
    rw [← List.drop_drop, hdrop, Nat.add_sub_cancel_left]
    simp
  simp only [List.length_drop, List.length_cons, List.length_append] at hlength
  unfold bytesBehind
  simp only [Scan.wp_bind, wp_advance, wp_position, Scan.wp_ensure, wp_sliceOrEnd,
    Scan.wp_update, Scan.wp_pure, Cursor.seek_offset, Cursor.seek_input, hvalue]
  exact ⟨by omega, fun _ => ⟨fun _ => ⟨trivial, hready, rfl, trivial⟩, fun hnot => by omega⟩,
    fun hnot => by omega⟩

/-- The first digit of a number that is not zero. -/
lemma head_decimal_ne_zero (h : n ≠ 0) :
    ∃ first, (decimal n)[0]? = some first ∧ first ≠ ascii '0' ∧
      (49 ≤ first.toNat && first.toNat ≤ 57) = true := by
  obtain ⟨d, hd, hd', hhead⟩ := Bencode.head_decimal h
  have hnat := Bencode.toNat_digit hd'
  refine ⟨Bencode.digit d, by rw [← List.head?_eq_getElem?, hhead], ?_, by simp [hnat]; omega⟩
  intro heq
  have hzero : (ascii '0').toNat = 48 := rfl
  rw [heq, hzero] at hnat
  omega

lemma wp_canonicalLength_decimal {Q : Nat → Cursor → Prop} {offset : Nat} (hn : n < usizeLimit)
    (hQ : Q n s) : wp (canonicalLength offset (decimal n)) Q E s := by
  unfold canonicalLength
  rw [parseDecimalUsize_decimal hn]
  by_cases hzero : n = 0
  · subst hzero
    exact hQ
  · obtain ⟨first, hfirst, hne, _⟩ := head_decimal_ne_zero hzero
    simp only [Scan.wp_bind, Scan.wp_ite, hfirst, Outcome.ofOption_some, Scan.wp_lift,
      Outcome.ensures_ok, Scan.wp_ensure]
    exact ⟨fun _ => ⟨fun _ => hQ, fun hnot => absurd hne hnot⟩, fun _ => hQ⟩

/-- **Byte strings.** -/
lemma reads_parseBytes (value : List UInt8) :
    Reads (parseBytes field) (encodeBytes value) fun p => p.2 = value := by
  intro s rest hready hdrop
  obtain ⟨first, more, hdigits⟩ := List.exists_cons_of_ne_nil (Bencode.decimal_ne_nil value.length)
  have hall : ∀ d ∈ decimal value.length, isAsciiDigit d :=
    fun d hd => isAsciiDigit_of_mem_decimal hd
  have hdrop' : s.input.drop s.offset = decimal value.length ++ ascii ':' :: (value ++ rest) := by
    rw [hdrop, encodeBytes, List.append_assoc]
    rfl
  have hfirst : s.input[s.offset]? = some first :=
    getElem?_of_drop (by rw [hdrop', hdigits, List.cons_append])
  have hlength := congrArg List.length hdrop'
  simp only [List.length_drop, List.length_append, List.length_cons] at hlength
  have hsize := hready.size_lt
  unfold parseBytes
  rw [Scan.wp_bind]
  refine wp_beginValue_of_ready hready (by omega) fun hready' => ?_
  simp only [Scan.wp_bind, wp_get?, Cursor.counted_input, Cursor.counted_offset,
    Cursor.tick_input, Cursor.tick_offset, hfirst, Scan.wp_ensure]
  refine ⟨fun _ => ?_, fun hnot => absurd (hall first (by simp [hdigits])) hnot⟩
  refine Scan.wp_mono (wp_lengthDigits hready' hdrop' hall) ?_ fun _ _ he => he
  rintro _ s₁ ⟨rfl, hready₁, hinput₁, hoffset₁⟩
  refine wp_canonicalLength_decimal (by omega) ?_
  have hdrop₁ : s₁.input.drop s₁.offset = ascii ':' :: (value ++ rest) := by
    rw [hinput₁, hoffset₁]
    simp only [Cursor.counted_input, Cursor.counted_offset, Cursor.tick_input, Cursor.tick_offset]
    rw [← List.drop_drop, hdrop', List.drop_left]
  refine Scan.wp_mono (wp_bytesBehind hready₁ hdrop₁) ?_ fun _ _ he => he
  rintro _ s₂ ⟨rfl, hready₂, hinput₂, hoffset₂⟩
  refine ⟨rfl, hready₂, hinput₂.trans hinput₁, ?_⟩
  rw [hoffset₂, hoffset₁, encodeBytes]
  simp
  omega

/-! ## Integers -/

lemma toNat_of_mem_signed {n : Int} (h : b ∈ signed n) :
    b.toNat = 45 ∨ 48 ≤ b.toNat ∧ b.toNat ≤ 57 := by
  unfold signed at h
  split at h
  · rcases List.mem_cons.mp h with rfl | h
    · exact .inl rfl
    · exact .inr (Bencode.toNat_of_mem_decimal h)
  · exact .inr (Bencode.toNat_of_mem_decimal h)

lemma ne_of_mem_signed {n : Int} (h : b ∈ signed n) : (b != ascii 'e') = true := by
  refine bne_iff_ne.mpr ?_
  rintro rfl
  have : (ascii 'e').toNat = 101 := rfl
  rcases toNat_of_mem_signed h with h | h <;> omega

/-- The digits of a number do not start with a sign. -/
lemma head?_decimal_ne (hc : c.toNat < 48) : (decimal n).head? ≠ some c := by
  intro heq
  have hmem : c ∈ decimal n := List.mem_of_mem_head? heq
  have := (Bencode.toNat_of_mem_decimal hmem).1
  omega

lemma unsigned_signed (n : Int) : unsigned (signed n) = decimal n.natAbs := by
  unfold unsigned signed
  split
  · rfl
  · rw [if_neg (head?_decimal_ne (by decide))]

lemma head?_signed (n : Int) : (signed n).head? = some (ascii '-') ↔ n < 0 := by
  unfold signed
  split
  · rename_i h
    simp [h]
    rfl
  · rename_i h
    exact ⟨fun heq => absurd heq (head?_decimal_ne (by decide)), fun hlt => absurd hlt h⟩

lemma wp_skipToEnd (hready : Ready s) (hdrop : s.input.drop s.offset = digits ++ ascii 'e' :: rest)
    (hall : ∀ d ∈ digits, (d != ascii 'e') = true) :
    wp skipToEnd
      (fun _ s' => Ready s' ∧ s'.input = s.input ∧ s'.offset = s.offset + digits.length) E s := by
  have hskipped := skipped_of_drop hdrop hall (by decide)
  have hend := getElem?_behind hdrop
  unfold skipToEnd
  rw [Scan.wp_bind]
  refine wp_skipWhile (by have := hready.size_lt; omega) ?_
  rw [hskipped]
  simp only [Scan.wp_bind, wp_get?, wp_position, Scan.wp_ensure, Cursor.seek_input,
    Cursor.tick_input, Cursor.seek_offset, hend]
  exact ⟨fun _ => ⟨hready, trivial, rfl⟩, fun hnot => absurd trivial hnot⟩

lemma natAbs_ne_zero_of_length {n : Int} (h : (signed n).length > 1) : n.natAbs ≠ 0 := by
  intro hzero
  obtain rfl := Int.natAbs_eq_zero.mp hzero
  revert h
  decide

lemma leading_signed {n : Int} (h : (signed n).length > 1) :
    (unsigned (signed n)).head?.any fun first => 49 ≤ first.toNat && first.toNat ≤ 57 := by
  obtain ⟨first, hfirst, _, hrange⟩ := head_decimal_ne_zero (natAbs_ne_zero_of_length h)
  rw [unsigned_signed, List.head?_eq_getElem?, hfirst]
  exact hrange

/-- What stands between `i` and `e`. -/
structure IntegerRaw (raw : List UInt8) : Prop where
  open_end : ∀ d ∈ raw, (d != ascii 'e') = true
  leading : raw.length > 1 →
    (unsigned raw).head?.any fun first => 49 ≤ first.toNat && first.toNat ≤ 57

lemma integerRaw_signed (n : Int) : IntegerRaw (signed n) :=
  ⟨fun _ => ne_of_mem_signed, leading_signed⟩

lemma reads_parseIntegerRaw {raw : List UInt8} (hraw : IntegerRaw raw) :
    Reads parseIntegerRaw (105 :: (raw ++ [101])) fun p => p.2 = raw := by
  intro s rest hready hdrop
  have hdrop' : s.input.drop s.offset = ascii 'i' :: (raw ++ ascii 'e' :: rest) := by
    rw [hdrop]
    simp
    exact ⟨rfl, rfl⟩
  have htoken := getElem?_of_drop hdrop'
  have hlength := congrArg List.length hdrop'
  simp only [List.length_drop, List.length_cons, List.length_append] at hlength
  have hsize := hready.size_lt
  have hinner : s.input.drop (s.offset + 1) = raw ++ ascii 'e' :: rest := by
    rw [← List.drop_drop, hdrop', List.drop_one, List.tail_cons]
  unfold parseIntegerRaw
  rw [Scan.wp_bind]
  refine wp_beginValue_of_ready hready (by omega) fun hready' => ?_
  simp only [Scan.wp_bind, wp_get?, Cursor.counted_input, Cursor.counted_offset,
    Cursor.tick_input, Cursor.tick_offset, htoken, Scan.wp_ensure, wp_advance, wp_position]
  refine ⟨fun _ => ⟨by omega, ?_⟩, fun hnot => absurd trivial hnot⟩
  refine Scan.wp_mono (wp_skipToEnd hready' hinner hraw.open_end) ?_ fun _ _ he => he
  rintro ⟨⟩ s₁ ⟨hready₁, hinput₁, hoffset₁⟩
  have hinput₁ : s₁.input = s.input := hinput₁
  have hoffset₁ : s₁.offset = s.offset + 1 + raw.length := hoffset₁
  have hslice : (s.input.drop (s.offset + 1)).take (s.offset + 1 + raw.length - (s.offset + 1)) =
      raw := by
    rw [hinner, Nat.add_sub_cancel_left, List.take_left]
  simp only [wp_slice, Cursor.seek_offset, Cursor.sliced_offset, hinput₁, hoffset₁, hslice,
    Scan.wp_pure]
  refine ⟨⟨by omega, by omega⟩, by omega, fun _ => ⟨trivial, hready₁, hinput₁, ?_⟩,
    fun hnot => absurd hraw.leading hnot⟩
  simp
  omega

lemma isEmpty_decimal (n : Nat) : (decimal n).isEmpty = false :=
  List.isEmpty_eq_false_iff.mpr (Bencode.decimal_ne_nil n)

lemma all_decimal (n : Nat) : (decimal n).all isAsciiDigit = true :=
  List.all_eq_true.mpr fun _ hd => isAsciiDigit_of_mem_decimal hd

/-- There is no negative zero. -/
lemma decimal_ne_zero_of_neg {n : Int} (h : n < 0) : decimal n.natAbs ≠ [ascii '0'] := by
  intro heq
  have hvalue := Bencode.ofDecimal_decimal n.natAbs
  rw [heq] at hvalue
  have : Bencode.ofDecimal [ascii '0'] = 0 := rfl
  omega

lemma validGenericInteger_signed (n : Int) : validGenericInteger (signed n) = .ok true := by
  have hsign : (!(decide ((signed n).head? = some (ascii '-')) &&
      decide (decimal n.natAbs = [ascii '0']))) = true := by
    by_cases hneg : n < 0
    · simp [decimal_ne_zero_of_neg hneg]
    · simp [mt (head?_signed n).mp hneg]
  unfold validGenericInteger
  simp only [unsigned_signed, isEmpty_decimal, all_decimal, Bool.not_true, Bool.or_self,
    Bool.false_eq_true, if_false]
  by_cases hone : (decimal n.natAbs).length = 1
  · rw [if_pos hone, hsign]
    rfl
  · have hne : n.natAbs ≠ 0 := by
      rintro hzero
      rw [hzero] at hone
      exact hone rfl
    obtain ⟨first, hfirst, hfirstNe, _⟩ := head_decimal_ne_zero hne
    rw [if_neg hone, hfirst, hsign]
    simp [hfirstNe]

lemma digitsValue_decimal (n : Nat) : digitsValue (decimal n) = some n := by
  have hvalue := Bencode.ofDecimal_decimal n
  unfold Bencode.ofDecimal at hvalue
  simp [digitsValue, isEmpty_decimal, all_decimal, hvalue]

lemma parseI64_signed (n : I64) : parseI64 (signed n) = some n := by
  obtain ⟨n, hrange⟩ := n
  unfold parseI64
  by_cases hneg : n < 0
  · have htail : (signed n).tail = decimal n.natAbs := by simp [signed, hneg]
    have habs : -Int.ofNat n.natAbs = n := by
      rw [Int.ofNat_eq_natCast]
      omega
    simp only [(head?_signed n).mpr hneg, if_true, htail, digitsValue_decimal, Option.map_some,
      Option.bind_some, habs, dif_pos hrange]
  · have hsigned : signed n = decimal n.natAbs := by simp [signed, hneg]
    have habs : Int.ofNat n.natAbs = n := by
      rw [Int.ofNat_eq_natCast]
      omega
    rw [if_neg (mt (head?_signed n).mp hneg), hsigned, if_neg (head?_decimal_ne (by decide))]
    simp only [digitsValue_decimal, Option.map_some, Option.bind_some, habs, dif_pos hrange]

lemma reads_parseInteger_of {raw : List UInt8} {n : I64} (hraw : IntegerRaw raw)
    (hvalid : validGenericInteger raw = .ok true) (hvalue : parseI64 raw = some n) :
    Reads (parseInteger field) (105 :: (raw ++ [101])) fun p => p.2 = n := by
  refine (reads_parseIntegerRaw hraw).bind_nil fun p hp => ?_
  obtain ⟨offset, raw'⟩ := p
  obtain rfl : raw' = raw := hp
  intro s rest hready hdrop
  simp only [Scan.wp_bind, Scan.wp_lift, hvalid, Outcome.ensures_ok, Scan.wp_ensure, hvalue, orFail,
    Scan.wp_pure]
  exact ⟨fun _ => ⟨trivial, hready, trivial, rfl⟩, fun hnot => absurd trivial hnot⟩

/-- **Integers.** -/
lemma reads_parseInteger (n : I64) :
    Reads (parseInteger field) (encodeInteger n) fun p => p.2 = n :=
  reads_parseInteger_of (integerRaw_signed n) (validGenericInteger_signed n) (parseI64_signed n)

end

end Bitmagnet.Dht.Inbound
