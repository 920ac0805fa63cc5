import Mathlib.Tactic.Simps.Basic
import Bitmagnet.Dht.Krpc

/-!
# The inbound KRPC decoder

The model of `inbound.rs`: a cursor over the bytes of one datagram, and the typed
decoding of a KRPC message from it.  Indexing out of range, arithmetic that leaves
its machine type and an `expect` on nothing are faults.

A `while` loop of the source runs here for at most one round more than there are
bytes, and a function that calls itself for at most `maxRecursion` levels; running
out of either is a fault too, so that the absence of faults includes termination.

The cursor carries a `Trace` that the source does not have: how many steps the
scanner took, which slices of the input it took, and how deep its containers nest.
A step is a byte read, a test of the offset, or a byte of a slice taken.
-/

namespace Bitmagnet.Dht

open Bytes (slice?)

/-! ## Limits and errors -/

/-- `MAX_INBOUND_DATAGRAM_BYTES`. -/
def maxInboundDatagramBytes : Nat := 65507

/-- `MAX_INBOUND_NESTING_DEPTH`. -/
def maxInboundNestingDepth : Nat := 8

/-- `MAX_INBOUND_VALUES`. -/
def maxInboundValues : Nat := 32768

/-- `InboundLimitKind`. -/
inductive InboundLimitKind
  | datagramBytes
  | nestingDepth
  | valueCount
deriving DecidableEq

/-- `InboundSyntaxKind`. -/
inductive InboundSyntaxKind
  | unexpectedEnd
  | unexpectedValueType
  | invalidByteStringLength
  | invalidInteger
  | missingDictionaryValue
  | nonCanonicalUnknownDictionary
  | trailingData
deriving DecidableEq

/-- `InboundShapeKind`. -/
inductive InboundShapeKind
  | dictionary
  | byteString
  | integer
  | list
  | boolean
  | errorValue
deriving DecidableEq

/-- `InboundError`; `malformed` is `Syntax`. -/
inductive InboundError
  | limit (kind : InboundLimitKind) (offset actual limit : Nat)
  | malformed (kind : InboundSyntaxKind) (offset : Nat)
  | shape (field : String) (expected : InboundShapeKind) (offset : Nat)
  | compact (offset : Nat) (source : CompactCodecError)
  | scrapeBloom (offset : Nat) (source : ScrapeBloomError)
  | unsupported (field : String) (offset : Nat)
deriving DecidableEq

/-! ## The cursor -/

/-- What the scanner did so far. -/
structure Trace where
  steps : Nat := 0
  nesting : Nat := 0
  deepest : Nat := 0
  slices : List (Nat × Nat) := []

/-- `Cursor`, with its trace. -/
structure Cursor where
  input : List UInt8
  offset : Nat
  values : Nat
  trace : Trace := {}

/-- The cursor in front of the input. -/
def Cursor.start (input : List UInt8) : Cursor := { input, offset := 0, values := 0 }

/-- `Cursor::new`. -/
def Cursor.new (input : List UInt8) : Outcome InboundError Cursor :=
  if input.length > maxInboundDatagramBytes then
    .error (.limit .datagramBytes 0 input.length maxInboundDatagramBytes)
  else .ok (.start input)

namespace Cursor

/-- Count steps. -/
@[simps] def tick (n : Nat) (s : Cursor) : Cursor :=
  { s with trace := { s.trace with steps := s.trace.steps + n } }

/-- Record a slice, and a step for each of its bytes. -/
@[simps] def sliced (lo hi : Nat) (s : Cursor) : Cursor :=
  { s with trace := { s.trace with
      steps := s.trace.steps + (hi - lo)
      slices := (lo, hi) :: s.trace.slices } }

/-- A container is open. -/
@[simps] def entered (s : Cursor) : Cursor :=
  { s with trace := { s.trace with
      nesting := s.trace.nesting + 1
      deepest := max s.trace.deepest (s.trace.nesting + 1) } }

/-- A container is closed. -/
@[simps] def left (s : Cursor) : Cursor :=
  { s with trace := { s.trace with nesting := s.trace.nesting - 1 } }

/-- `self.offset = offset`. -/
@[simps] def seek (offset : Nat) (s : Cursor) : Cursor := { s with offset }

/-- `self.values = values`. -/
@[simps] def counted (values : Nat) (s : Cursor) : Cursor := { s with values }

end Cursor

/-- A computation of the scanner. -/
abbrev Inbound := Scan Cursor InboundError

namespace Inbound

open Scan (read update fail fault lift ensure iterate)

/-! ## Machine arithmetic -/

/-- The first value past `usize` and past `i32`. -/
def usizeLimit : Nat := 2 ^ 64

def i32Limit : Nat := 2 ^ 31

/-- An addition that must stay below the limit of its type. -/
def add (limit a b : Nat) : Inbound Nat := if a + b < limit then pure (a + b) else fault

/-- A subtraction that must not pass zero. -/
def sub (a b : Nat) : Inbound Nat := if b ≤ a then pure (a - b) else fault

/-! ## Scanner primitives -/

/-- An ASCII character as a byte. -/
def ascii (c : Char) : UInt8 := UInt8.ofNat c.toNat

/-- `u8::is_ascii_digit`. -/
def isAsciiDigit (byte : UInt8) : Bool := 48 ≤ byte.toNat && byte.toNat ≤ 57

/-- `self.offset`. -/
def position : Inbound Nat := fun s => (.ok s.offset, s)

/-- `self.input.get(self.offset)`. -/
def get? : Inbound (Option UInt8) := fun s => (.ok s.input[s.offset]?, s.tick 1)

/-- `self.offset += 1`. -/
def advance : Inbound Unit := do
  let offset ← add usizeLimit (← position) 1
  update (Cursor.seek offset)

/-- `&self.input[lo..hi]`. -/
def slice (lo hi : Nat) : Inbound (List UInt8) := do
  let bytes ← lift (.ofOption (slice? (← read).input lo hi))
  update (Cursor.sliced lo hi)
  pure bytes

/-- `unexpected_end`. -/
def unexpectedEnd {α : Type} : Inbound α := do fail (.malformed .unexpectedEnd (← position))

/-- `self.input.get(lo..hi).ok_or_else(|| self.unexpected_end())`. -/
def sliceOrEnd (lo hi : Nat) : Inbound (List UInt8) := do
  match slice? (← read).input lo hi with
  | some bytes => do
    update (Cursor.sliced lo hi)
    pure bytes
  | none => unexpectedEnd

/-- One round of `skipWhile`. -/
def skipRound (p : UInt8 → Bool) (_ : Unit) : Inbound (Unit ⊕ Unit) := do
  if (← get?).any p then do
    advance
    pure (.inl ())
  else pure (.inr ())

/-- `while self.input.get(self.offset).is_some_and(p) { self.offset += 1 }`. -/
def skipWhile (p : UInt8 → Bool) : Inbound Unit := do
  let rounds := (← read).input.length + 1
  iterate (skipRound p) rounds ()

/-- `peek`. -/
def peek : Inbound UInt8 := do
  match ← get? with
  | some byte => pure byte
  | none => unexpectedEnd

/-- `begin_value`. -/
def beginValue : Inbound Nat := do
  let s ← read
  update (Cursor.tick 1)
  ensure (s.offset < s.input.length) (.malformed .unexpectedEnd s.offset)
  let values ← add usizeLimit s.values 1
  update (Cursor.counted values)
  ensure (values ≤ maxInboundValues) (.limit .valueCount s.offset values maxInboundValues)
  pure s.offset

/-- `require_dictionary_value`. -/
def requireDictionaryValue : Inbound Unit := do
  if (← peek) = ascii 'e' then fail (.malformed .missingDictionaryValue (← position))
  else pure ()

/-- `end_container`. -/
def endContainer : Inbound Bool := do
  if (← peek) = ascii 'e' then do
    advance
    update Cursor.left
    pure true
  else pure false

/-- `start_container`. -/
def startContainer (field : String) (expected : InboundShapeKind) (token : UInt8)
    (depth : Nat) : Inbound Unit := do
  let offset ← beginValue
  ensure (depth ≤ maxInboundNestingDepth)
    (.limit .nestingDepth offset depth maxInboundNestingDepth)
  let byte ← get?
  ensure (byte = some token) (.shape field expected offset)
  advance
  update Cursor.entered

/-- `start_dictionary`. -/
def startDictionary (field : String) (depth : Nat) : Inbound Unit :=
  startContainer field .dictionary (ascii 'd') depth

/-- `start_list`. -/
def startList (field : String) (depth : Nat) : Inbound Unit :=
  startContainer field .list (ascii 'l') depth

/-- One round of `whileOpen`. -/
def openRound {β : Type} (body : β → Inbound β) (b : β) : Inbound (β ⊕ β) := do
  if ← endContainer then pure (.inr b) else .inl <$> body b

/-- `while !self.end_container()? { .. }`, over what the body changes. -/
def whileOpen {β : Type} (body : β → Inbound β) (b : β) : Inbound β := do
  let rounds := (← read).input.length + 1
  iterate (openRound body) rounds b

/-! ## Symbolic execution -/

section

open Scan (wp)

variable {E : InboundError → Cursor → Prop} {s : Cursor} {Q : Nat → Cursor → Prop}
  {p : UInt8 → Bool}

@[simp] lemma wp_add (limit a b : Nat) :
    wp (add limit a b) Q E s ↔ a + b < limit ∧ Q (a + b) s := by
  unfold add
  by_cases h : a + b < limit <;> simp [h]

@[simp] lemma wp_sub (a b : Nat) : wp (sub a b) Q E s ↔ b ≤ a ∧ Q (a - b) s := by
  unfold sub
  by_cases h : b ≤ a <;> simp [h]

@[simp] lemma wp_position : wp position Q E s ↔ Q s.offset s := Iff.rfl

@[simp] lemma wp_get? {Q : Option UInt8 → Cursor → Prop} :
    wp get? Q E s ↔ Q s.input[s.offset]? (s.tick 1) := Iff.rfl

@[simp] lemma wp_advance {Q : Unit → Cursor → Prop} :
    wp advance Q E s ↔ s.offset + 1 < usizeLimit ∧ Q () (s.seek (s.offset + 1)) := by
  simp [advance]

@[simp] lemma wp_unexpectedEnd {α : Type} {Q : α → Cursor → Prop} :
    wp unexpectedEnd Q E s ↔ E (.malformed .unexpectedEnd s.offset) s := Iff.rfl

@[simp] lemma wp_slice (lo hi : Nat) {Q : List UInt8 → Cursor → Prop} :
    wp (slice lo hi) Q E s ↔
      (lo ≤ hi ∧ hi ≤ s.input.length) ∧ Q ((s.input.drop lo).take (hi - lo)) (s.sliced lo hi) := by
  unfold slice slice?
  by_cases h : lo ≤ hi ∧ hi ≤ s.input.length
  · simp [h]
  · simp [h, Outcome.ofOption]

@[simp] lemma wp_sliceOrEnd (lo hi : Nat) {Q : List UInt8 → Cursor → Prop} :
    wp (sliceOrEnd lo hi) Q E s ↔
      (lo ≤ hi ∧ hi ≤ s.input.length → Q ((s.input.drop lo).take (hi - lo)) (s.sliced lo hi)) ∧
      (¬(lo ≤ hi ∧ hi ≤ s.input.length) → E (.malformed .unexpectedEnd s.offset) s) := by
  unfold sliceOrEnd slice?
  by_cases h : lo ≤ hi ∧ hi ≤ s.input.length
  · simp [h]
  · simp [h]

@[simp] lemma wp_peek {Q : UInt8 → Cursor → Prop} :
    wp peek Q E s ↔
      (∀ byte, s.input[s.offset]? = some byte → Q byte (s.tick 1)) ∧
      (s.input[s.offset]? = none → E (.malformed .unexpectedEnd s.offset) (s.tick 1)) := by
  unfold peek
  cases h : s.input[s.offset]? <;> simp [h]

@[simp] lemma wp_beginValue :
    wp beginValue Q E s ↔
      (s.offset < s.input.length → s.values + 1 < usizeLimit ∧
        (s.values + 1 ≤ maxInboundValues → Q s.offset ((s.tick 1).counted (s.values + 1))) ∧
        (¬s.values + 1 ≤ maxInboundValues →
          E (.limit .valueCount s.offset (s.values + 1) maxInboundValues)
            ((s.tick 1).counted (s.values + 1)))) ∧
      (¬s.offset < s.input.length → E (.malformed .unexpectedEnd s.offset) (s.tick 1)) := by
  simp [beginValue]

lemma tick_seek_tick (a o b : Nat) : ((s.tick a).seek o).tick b = (s.tick (a + b)).seek o := by
  simp [Cursor.tick, Cursor.seek, Nat.add_assoc]

lemma tick_seek_offset (a : Nat) : (s.tick a).seek s.offset = s.tick a := rfl

lemma seek_seek (o o' : Nat) : (s.seek o).seek o' = s.seek o' := rfl

/-- The bytes a loop over `p` skips. -/
def skipped (p : UInt8 → Bool) (s : Cursor) : Nat := ((s.input.drop s.offset).takeWhile p).length

lemma skipped_of_none (h : s.input[s.offset]? = none) : skipped p s = 0 := by
  simp [skipped, List.drop_eq_nil_of_le (List.getElem?_eq_none_iff.mp h)]

lemma drop_offset_of_some {byte : UInt8} (h : s.input[s.offset]? = some byte) :
    s.input.drop s.offset = byte :: s.input.drop (s.offset + 1) := by
  obtain ⟨hlt, hbyte⟩ := List.getElem?_eq_some_iff.mp h
  rw [List.drop_eq_getElem_cons hlt, hbyte]

lemma skipped_of_some {byte : UInt8} (h : s.input[s.offset]? = some byte) :
    skipped p s = if p byte then skipped p (s.seek (s.offset + 1)) + 1 else 0 := by
  rw [skipped, drop_offset_of_some h, List.takeWhile_cons]
  split <;> rfl

lemma wp_skipRounds {Q : Unit → Cursor → Prop} (hsize : s.input.length < usizeLimit) (fuel : Nat)
    (hfuel : s.input.length - s.offset < fuel)
    (h : Q () ((s.tick (skipped p s + 1)).seek (s.offset + skipped p s))) :
    wp (iterate (skipRound p) fuel ()) Q E s := by
  induction fuel generalizing s with
  | zero => omega
  | succ fuel ih =>
    simp only [iterate, skipRound, Scan.wp_bind, wp_get?, Scan.wp_ite]
    cases hget : s.input[s.offset]? with
    | none =>
      rw [skipped_of_none hget] at h
      simpa [tick_seek_offset] using h
    | some byte =>
      have hlt : s.offset < s.input.length := (List.getElem?_eq_some_iff.mp hget).1
      rw [skipped_of_some hget] at h
      by_cases hp : p byte
      · simp only [hp, if_true] at h
        simp only [Option.any_some, hp, true_implies, not_true_eq_false, false_implies,
          and_true, wp_advance, Cursor.tick_offset, Scan.wp_pure]
        refine ⟨by omega, ih hsize (by simp; omega) ?_⟩
        rw [tick_seek_tick, seek_seek]
        have hrest : skipped p ((s.tick 1).seek (s.offset + 1)) =
            skipped p (s.seek (s.offset + 1)) := rfl
        rw [hrest, Cursor.seek_offset, Nat.add_comm 1, Nat.add_assoc s.offset, Nat.add_comm 1]
        exact h
      · simpa [hp, tick_seek_offset] using h

/-- A scan over bytes that satisfy `p` ends behind the last of them. -/
lemma wp_skipWhile {Q : Unit → Cursor → Prop} (hsize : s.input.length < usizeLimit)
    (h : Q () ((s.tick (skipped p s + 1)).seek (s.offset + skipped p s))) :
    wp (skipWhile p) Q E s := by
  simp only [skipWhile, Scan.wp_bind, Scan.wp_read]
  exact wp_skipRounds hsize _ (by omega) h

lemma skipped_le (p : UInt8 → Bool) (h : s.offset ≤ s.input.length) :
    s.offset + skipped p s ≤ s.input.length := by
  have hle := (List.takeWhile_sublist p : List.Sublist _ (s.input.drop s.offset)).length_le
  rw [List.length_drop] at hle
  unfold skipped
  omega

end

/-! ## Byte strings and integers -/

/-- `parse_decimal_usize`: every step of the fold is checked. -/
def parseDecimalUsize (raw : List UInt8) : Option Nat :=
  raw.foldlM (fun value byte =>
    if value * 10 < usizeLimit ∧ 48 ≤ byte.toNat ∧ value * 10 + (byte.toNat - 48) < usizeLimit then
      some (value * 10 + (byte.toNat - 48))
    else none) 0

/-- `raw.strip_prefix(b"-").unwrap_or(raw)`. -/
def unsigned (raw : List UInt8) : List UInt8 :=
  if raw.head? = some (ascii '-') then raw.tail else raw

/-- `valid_generic_integer`.  The index into the digits comes after the test that
there are some. -/
def validGenericInteger (raw : List UInt8) : Outcome InboundError Bool := do
  let digits := unsigned raw
  if digits.isEmpty || !digits.all isAsciiDigit then pure false
  else if digits.length = 1 then
    pure !(raw.head? = some (ascii '-') && digits = [ascii '0'])
  else do
    let first ← .ofOption digits[0]?
    pure (first != ascii '0' && !(raw.head? = some (ascii '-') && digits = [ascii '0']))

/-- The decimal value of ASCII digits; `none` where there are none or others. -/
def digitsValue (digits : List UInt8) : Option Nat :=
  if digits.isEmpty || !digits.all isAsciiDigit then none
  else some (digits.foldl (fun value byte => value * 10 + (byte.toNat - 48)) 0)

/-- `str::parse::<i64>`: an optional sign, digits, and the range of the type. -/
def parseI64 (raw : List UInt8) : Option I64 :=
  let value : Option Int :=
    if raw.head? = some (ascii '-') then (digitsValue raw.tail).map fun n : Nat => -Int.ofNat n
    else if raw.head? = some (ascii '+') then (digitsValue raw.tail).map Int.ofNat
    else (digitsValue raw).map Int.ofNat
  value.bind fun n => if h : -2 ^ 63 ≤ n ∧ n < 2 ^ 63 then some ⟨n, h⟩ else none

/-- `.ok_or(error)?`. -/
def orFail {α : Type} (x : Option α) (e : InboundError) : Inbound α :=
  match x with
  | some a => pure a
  | none => fail e

/-- Where the length of a byte string starts and its digits, up to the colon. -/
def lengthDigits : Inbound (Nat × List UInt8) := do
  let lengthStart ← position
  skipWhile isAsciiDigit
  let colon ← get?
  ensure (colon = some (ascii ':')) (.malformed .invalidByteStringLength lengthStart)
  let lengthBytes ← slice lengthStart (← position)
  pure (lengthStart, lengthBytes)

/-- The bytes behind a length, from a cursor at the colon. -/
def bytesBehind (length offset : Nat) : Inbound (List UInt8) := do
  advance
  let start ← position
  -- `checked_add`: past `usize` is an error, not a fault
  ensure (start + length < usizeLimit) (.malformed .invalidByteStringLength offset)
  let value ← sliceOrEnd start (start + length)
  update (Cursor.seek (start + length))
  pure value

/-- `parse_raw_bytes`. -/
def parseRawBytes : Inbound (List UInt8) := do
  let offset ← beginValue
  let (_, lengthBytes) ← lengthDigits
  let length ← orFail (parseDecimalUsize lengthBytes) (.malformed .invalidByteStringLength offset)
  bytesBehind length offset

/-- The length of `parse_bytes`: a leading zero must stand alone. -/
def canonicalLength (lengthStart : Nat) (lengthBytes : List UInt8) : Inbound Nat := do
  if lengthBytes.length > 1 then do
    let digit ← lift (.ofOption lengthBytes[0]?)
    ensure (digit ≠ ascii '0') (.malformed .invalidByteStringLength lengthStart)
  else pure ()
  orFail (parseDecimalUsize lengthBytes) (.malformed .invalidByteStringLength lengthStart)

/-- `parse_bytes`: where the value starts, and its bytes. -/
def parseBytes (field : String) : Inbound (Nat × List UInt8) := do
  let offset ← beginValue
  match ← get? with
  | none => unexpectedEnd
  | some first => do
    ensure (isAsciiDigit first) (.shape field .byteString offset)
    let (lengthStart, lengthBytes) ← lengthDigits
    let length ← canonicalLength lengthStart lengthBytes
    let value ← bytesBehind length lengthStart
    pure (offset, value)

/-- Up to the `e` of an integer. -/
def skipToEnd : Inbound Unit := do
  skipWhile (· != ascii 'e')
  let token ← get?
  ensure (token = some (ascii 'e')) (.malformed .unexpectedEnd (← position))

/-- `parse_integer_raw`. -/
def parseIntegerRaw : Inbound (Nat × List UInt8) := do
  let offset ← beginValue
  let token ← get?
  ensure (token = some (ascii 'i')) (.shape "integer" .integer offset)
  advance
  let start ← position
  skipToEnd
  let raw ← slice start (← position)
  advance
  -- no sign in front of nothing and no leading zero, whatever follows
  ensure (raw.length > 1 →
      (unsigned raw).head?.any fun first => 49 ≤ first.toNat && first.toNat ≤ 57)
    (.malformed .invalidInteger offset)
  pure (offset, raw)

/-- `parse_integer`. -/
def parseInteger (field : String) : Inbound (Nat × I64) := do
  let (offset, raw) ← parseIntegerRaw
  ensure (← lift (validGenericInteger raw)) (.malformed .invalidInteger offset)
  let value ← orFail (parseI64 raw) (.shape field .integer offset)
  pure (offset, value)

/-! ## Scalars and skipped values -/

/-- The levels a function that calls itself can have: `depth` goes from `1` to
one past the nesting limit, where opening a container fails. -/
def maxRecursion : Nat := maxInboundNestingDepth + 1

/-- The common body of `parse_scalar_bytes` and `parse_scalar_integer`: a list in
place of a scalar is unwrapped, and must have exactly one entry. -/
def parseScalar {α : Type} (scalar : Inbound (Nat × α)) (expected : InboundShapeKind)
    (field : String) : Nat → Nat → Inbound (Nat × α)
  | 0, _ => fault
  | levels + 1, depth => do
    if (← peek) ≠ ascii 'l' then scalar
    else do
      let offset ← position
      startList field depth
      let (value, count) ← whileOpen (fun (value, count) => do
        let parsed ← parseScalar scalar expected field levels (← add usizeLimit depth 1)
        let count' ← add i32Limit count 1
        pure (if count = 0 then some parsed else value, count')) (none, 0)
      if count = 1 then lift (.ofOption value)
      else fail (.shape field expected offset)

/-- `parse_scalar_bytes`. -/
def parseScalarBytes (field : String) (depth : Nat) : Inbound (Nat × List UInt8) :=
  parseScalar (parseBytes field) .byteString field maxRecursion depth

/-- `parse_scalar_integer`. -/
def parseScalarInteger (field : String) (depth : Nat) : Inbound (Nat × I64) :=
  parseScalar (parseInteger field) .integer field maxRecursion depth

/-- How `parse_bool` reads a byte string. -/
def boolOfBytes (raw : List UInt8) : Bool :=
  if raw ∈ ["1", "t", "T", "true", "TRUE", "True"].map (·.toUTF8.toList) then true
  else if raw ∈ ["0", "f", "F", "false", "FALSE", "False"].map (·.toUTF8.toList) then false
  else !raw.isEmpty

/-- `parse_bool`. -/
def parseBoolLevels (field : String) : Nat → Nat → Inbound Bool
  | 0, _ => fault
  | levels + 1, depth => do
    let token ← peek
    if token = ascii 'i' then do
      let (_, raw) ← parseIntegerRaw
      pure (raw != [ascii '0'])
    else if isAsciiDigit token then do
      let (_, raw) ← parseBytes field
      pure (boolOfBytes raw)
    else if token = ascii 'l' then do
      startList field depth
      let (count, first) ← whileOpen (fun (count, first) => do
        let value ← parseBoolLevels field levels (← add usizeLimit depth 1)
        let count' ← add i32Limit count 1
        pure (count', if count = 0 then value else first)) (0, false)
      if count = 1 then pure first
      else do fail (.shape field .boolean (← sub (← position) 1))
    else do fail (.shape field .boolean (← position))

@[inherit_doc parseBoolLevels]
def parseBool (field : String) (depth : Nat) : Inbound Bool :=
  parseBoolLevels field maxRecursion depth

/-- `<[u8] as Ord>::cmp` is `Less`: byte by byte. -/
def bytesLess (a b : List UInt8) : Bool := a.map UInt8.toNat < b.map UInt8.toNat

/-- `skip_generic`. -/
def skipGenericLevels : Nat → Nat → Inbound Unit
  | 0, _ => fault
  | levels + 1, depth => do
    let token ← peek
    if isAsciiDigit token then do
      let _ ← parseBytes "unknown value"
      pure ()
    else if token = ascii 'i' then do
      let (offset, raw) ← parseIntegerRaw
      ensure (← lift (validGenericInteger raw)) (.malformed .invalidInteger offset)
    else if token = ascii 'l' then do
      startList "unknown value" depth
      whileOpen (fun _ => do skipGenericLevels levels (← add usizeLimit depth 1)) ()
    else if token = ascii 'd' then do
      startDictionary "unknown value" depth
      let _ ← whileOpen (fun previous => do
        let (offset, key) ← parseBytes "unknown dictionary key"
        -- strictly increasing keys
        ensure (previous.all (bytesLess · key)) (.malformed .nonCanonicalUnknownDictionary offset)
        requireDictionaryValue
        skipGenericLevels levels (← add usizeLimit depth 1)
        pure (some key)) none
      pure ()
    else do fail (.malformed .unexpectedValueType (← position))

@[inherit_doc skipGenericLevels]
def skipGeneric (depth : Nat) : Inbound Unit := skipGenericLevels maxRecursion depth

/-- `skip_raw`: neither the order of keys nor the digits of an integer matter. -/
def skipRawLevels : Nat → Nat → Inbound Unit
  | 0, _ => fault
  | levels + 1, depth => do
    let token ← peek
    if isAsciiDigit token then do
      let _ ← parseRawBytes
      pure ()
    else if token = ascii 'i' then do
      let _ ← beginValue
      advance
      skipToEnd
      advance
    else if token = ascii 'l' ∨ token = ascii 'd' then do
      let token ← peek
      startContainer "raw BEP-44 value"
        (if token = ascii 'l' then .list else .dictionary) token depth
      whileOpen (fun _ => do skipRawLevels levels (← add usizeLimit depth 1)) ()
    else do fail (.malformed .unexpectedValueType (← position))

@[inherit_doc skipRawLevels]
def skipRaw (depth : Nat) : Inbound Unit := skipRawLevels maxRecursion depth

/-- `reject_bep44_value`. -/
def rejectBep44Value {α : Type} (field : String) (depth : Nat) (raw : Bool) : Inbound α := do
  let offset ← position
  if raw then skipRaw depth else skipGeneric depth
  fail (.unsupported field offset)

/-! ## Typed values -/

/-- A byte string that is read in a compact format. -/
def parseCompact {α : Type} (decode : List UInt8 → Outcome CompactCodecError α)
    (bytes : Inbound (Nat × List UInt8)) : Inbound α := do
  let (offset, value) ← bytes
  lift ((decode value).mapError (.compact offset))

/-- `parse_id`. -/
def parseId (field : String) (depth : Nat) : Inbound Id20 :=
  parseCompact Id20.decode (parseScalarBytes field depth)

/-- `parse_byte_list`. -/
def parseByteList (field : String) (depth : Nat) : Inbound (List ByteString) := do
  startList field depth
  whileOpen (fun values => do
    let (_, value) ← parseScalarBytes field (← add usizeLimit depth 1)
    pure (values ++ [value])) []

/-- `parse_addresses`. -/
def parseAddresses (depth : Nat) : Inbound (List CompactAddr) := do
  startList "r.values" depth
  whileOpen (fun values => do
    let addr ← parseCompact CompactAddr.decode (parseBytes "r.values entry")
    pure (values ++ [addr])) []

/-- `parse_error`. -/
def parseError (depth : Nat) : Inbound KrpcError := do
  let token ← peek
  if isAsciiDigit token then do
    let (_, message) ← parseBytes "e"
    pure ⟨.zero, message⟩
  else if token = ascii 'l' then do
    startList "e" depth
    if ← endContainer then do fail (.shape "e" .errorValue (← sub (← position) 1))
    else do
      let (_, code) ← parseInteger "e.code"
      if ← endContainer then do fail (.shape "e" .errorValue (← sub (← position) 1))
      else do
        let (_, message) ← parseBytes "e.message"
        whileOpen (fun _ => do skipGeneric (← add usizeLimit depth 1)) ()
        pure ⟨code, message⟩
  else do fail (.shape "e" .errorValue (← position))

/-- A filter of `BFsd` or `BFpe`. -/
def parseBloom (field : String) : Inbound ScrapeBloomFilter := do
  let (offset, value) ← parseBytes field
  lift ((ScrapeBloomFilter.decode value).mapError (.scrapeBloom offset))

/-- The nodes of `nodes` or `nodes6`: an empty string is no list. -/
def decodeNodesField (ipv6 : Bool) (value : List UInt8) :
    Outcome CompactCodecError (Option (List CompactNode)) :=
  if value.isEmpty then .ok none else some <$> decodeNodes value ipv6

/-! ## Dictionaries -/

/-- The bytes of a key. -/
def keyBytes (name : List Char) : List UInt8 := name.map ascii

/-- The keys `parse_message` knows. -/
inductive MessageKey
  | t | y | q | a | r | e | ip | ro | v
deriving DecidableEq

/-- A key on the wire. -/
def MessageKey.wire : MessageKey → List UInt8
  | t => keyBytes ['t']
  | y => keyBytes ['y']
  | q => keyBytes ['q']
  | a => keyBytes ['a']
  | r => keyBytes ['r']
  | e => keyBytes ['e']
  | ip => keyBytes ['i', 'p']
  | ro => keyBytes ['r', 'o']
  | v => keyBytes ['v']

/-- The key a byte string is. -/
def MessageKey.ofWire (key : List UInt8) : Option MessageKey :=
  [t, y, q, a, r, e, ip, ro, v].find? (·.wire = key)

/-- The keys `parse_args` knows. -/
inductive ArgsKey
  | id | infoHash | target | token | port | impliedPort | want | noSeed | scrape
  | seq | cas | k | salt | sig | v
deriving DecidableEq

@[inherit_doc MessageKey.wire]
def ArgsKey.wire : ArgsKey → List UInt8
  | id => keyBytes ['i', 'd']
  | infoHash => keyBytes ['i', 'n', 'f', 'o', '_', 'h', 'a', 's', 'h']
  | target => keyBytes ['t', 'a', 'r', 'g', 'e', 't']
  | token => keyBytes ['t', 'o', 'k', 'e', 'n']
  | port => keyBytes ['p', 'o', 'r', 't']
  | impliedPort => keyBytes ['i', 'm', 'p', 'l', 'i', 'e', 'd', '_', 'p', 'o', 'r', 't']
  | want => keyBytes ['w', 'a', 'n', 't']
  | noSeed => keyBytes ['n', 'o', 's', 'e', 'e', 'd']
  | scrape => keyBytes ['s', 'c', 'r', 'a', 'p', 'e']
  | seq => keyBytes ['s', 'e', 'q']
  | cas => keyBytes ['c', 'a', 's']
  | k => keyBytes ['k']
  | salt => keyBytes ['s', 'a', 'l', 't']
  | sig => keyBytes ['s', 'i', 'g']
  | v => keyBytes ['v']

@[inherit_doc MessageKey.ofWire]
def ArgsKey.ofWire (key : List UInt8) : Option ArgsKey :=
  [id, infoHash, target, token, port, impliedPort, want, noSeed, scrape, seq, cas, k, salt, sig,
    v].find? (·.wire = key)

/-- The keys `parse_return` knows. -/
inductive ReturnKey
  | id | nodes | nodes6 | token | values | interval | num | samples | bfsd | bfpe
  | seq | k | sig | v
deriving DecidableEq

@[inherit_doc MessageKey.wire]
def ReturnKey.wire : ReturnKey → List UInt8
  | id => keyBytes ['i', 'd']
  | nodes => keyBytes ['n', 'o', 'd', 'e', 's']
  | nodes6 => keyBytes ['n', 'o', 'd', 'e', 's', '6']
  | token => keyBytes ['t', 'o', 'k', 'e', 'n']
  | values => keyBytes ['v', 'a', 'l', 'u', 'e', 's']
  | interval => keyBytes ['i', 'n', 't', 'e', 'r', 'v', 'a', 'l']
  | num => keyBytes ['n', 'u', 'm']
  | samples => keyBytes ['s', 'a', 'm', 'p', 'l', 'e', 's']
  | bfsd => keyBytes ['B', 'F', 's', 'd']
  | bfpe => keyBytes ['B', 'F', 'p', 'e']
  | seq => keyBytes ['s', 'e', 'q']
  | k => keyBytes ['k']
  | sig => keyBytes ['s', 'i', 'g']
  | v => keyBytes ['v']

@[inherit_doc MessageKey.ofWire]
def ReturnKey.ofWire (key : List UInt8) : Option ReturnKey :=
  [id, nodes, nodes6, token, values, interval, num, samples, bfsd, bfpe, seq, k, sig, v].find?
    (·.wire = key)

/-- What `parse_args` starts from. -/
def emptyArgs : MessageArgs where
  id := .zero
  infoHash := none
  target := none
  token := []
  port := none
  impliedPort := false
  want := none
  noSeed := .zero
  scrape := .zero

/-- The value of one key of `a`. -/
def argsValue (depth : Nat) (args : MessageArgs) : Option ArgsKey → Inbound MessageArgs
  | some .id => do return { args with id := ← parseId "a.id" depth }
  | some .infoHash => do
    let value ← parseId "a.info_hash" depth
    return { args with infoHash := (some value).filter (· ≠ Id20.zero) }
  | some .target => do
    let value ← parseId "a.target" depth
    return { args with target := (some value).filter (· ≠ Id20.zero) }
  | some .token => do return { args with token := (← parseScalarBytes "a.token" depth).2 }
  | some .port => do return { args with port := some (← parseScalarInteger "a.port" depth).2 }
  | some .impliedPort => do
    return { args with impliedPort := ← parseBool "a.implied_port" depth }
  | some .want => do return { args with want := some (← parseByteList "a.want" depth) }
  | some .noSeed => do return { args with noSeed := (← parseScalarInteger "a.noseed" depth).2 }
  | some .scrape => do return { args with scrape := (← parseScalarInteger "a.scrape" depth).2 }
  | some .seq | some .cas => do
    let _ ← parseScalarInteger "BEP-44 integer" depth
    return args
  | some .k | some .salt | some .sig => do
    let _ ← parseBytes "BEP-44 byte string"
    return args
  | some .v => rejectBep44Value "a.v" depth false
  | none => do
    skipGeneric depth
    return args

/-- `parse_args`. -/
def parseArgs (depth : Nat) : Inbound MessageArgs := do
  startDictionary "a" depth
  whileOpen (fun args => do
    let (_, key) ← parseScalarBytes "a dictionary key" (← add usizeLimit depth 1)
    requireDictionaryValue
    argsValue (← add usizeLimit depth 1) args (ArgsKey.ofWire key)) emptyArgs

/-- What `parse_return` starts from. -/
def emptyReturn : MessageReturn where
  id := .zero
  nodes := none
  nodes6 := none
  token := none
  values := none
  interval := none
  num := none
  samples := none
  seedersBloom := none
  peersBloom := none

/-- The value of one key of `r`. -/
def returnValue (depth : Nat) (response : MessageReturn) :
    Option ReturnKey → Inbound MessageReturn
  | some .id => do return { response with id := ← parseId "r.id" depth }
  | some .nodes => do
    let nodes ← parseCompact (decodeNodesField false) (parseScalarBytes "r.nodes" depth)
    return { response with nodes }
  | some .nodes6 => do
    let nodes6 ← parseCompact (decodeNodesField true) (parseScalarBytes "r.nodes6" depth)
    return { response with nodes6 }
  | some .token => do
    return { response with token := some (← parseScalarBytes "r.token" depth).2 }
  | some .values => do return { response with values := some (← parseAddresses depth) }
  | some .interval => do
    return { response with interval := some (← parseScalarInteger "r.interval" depth).2 }
  | some .num => do return { response with num := some (← parseScalarInteger "r.num" depth).2 }
  | some .samples => do
    let samples ← parseCompact decodeSamples (parseScalarBytes "r.samples" depth)
    return { response with samples := some samples }
  | some .bfsd => do return { response with seedersBloom := some (← parseBloom "r.BFsd") }
  | some .bfpe => do return { response with peersBloom := some (← parseBloom "r.BFpe") }
  | some .seq => do
    let _ ← parseScalarInteger "BEP-44 seq" depth
    return response
  | some .k | some .sig => do
    let _ ← parseBytes "BEP-44 byte string"
    return response
  | some .v => rejectBep44Value "r.v" depth true
  | none => do
    skipGeneric depth
    return response

/-- `parse_return`. -/
def parseReturn (depth : Nat) : Inbound MessageReturn := do
  startDictionary "r" depth
  whileOpen (fun response => do
    let (_, key) ← parseScalarBytes "r dictionary key" (← add usizeLimit depth 1)
    requireDictionaryValue
    returnValue (← add usizeLimit depth 1) response (ReturnKey.ofWire key)) emptyReturn

/-- What `parse_message` starts from. -/
def emptyMessage : KrpcMessage where
  transactionId := []
  messageType := []
  query := []
  args := none
  response := none
  error := none
  observedAddr := none
  readOnly := false
  clientId := []

/-- The value of one key of the message. -/
def messageValue (message : KrpcMessage) : Option MessageKey → Inbound KrpcMessage
  | some .t => do return { message with transactionId := (← parseScalarBytes "t" 2).2 }
  | some .y => do return { message with messageType := (← parseScalarBytes "y" 2).2 }
  | some .q => do return { message with query := (← parseScalarBytes "q" 2).2 }
  | some .a => do return { message with args := some (← parseArgs 2) }
  | some .r => do return { message with response := some (← parseReturn 2) }
  | some .e => do return { message with error := some (← parseError 2) }
  | some .ip => do
    let addr ← parseCompact CompactAddr.decode (parseBytes "ip")
    return { message with observedAddr := some addr }
  | some .ro => do return { message with readOnly := ← parseBool "ro" 2 }
  | some .v => do return { message with clientId := (← parseScalarBytes "v" 2).2 }
  | none => do
    skipGeneric 2
    return message

/-- `parse_message`. -/
def parseMessage : Inbound KrpcMessage := do
  startDictionary "KRPC message" 1
  let message ← whileOpen (fun message => do
    let (_, key) ← parseScalarBytes "KRPC dictionary key" 2
    requireDictionaryValue
    messageValue message (MessageKey.ofWire key)) emptyMessage
  let s ← read
  ensure (s.offset = s.input.length) (.malformed .trailingData s.offset)
  pure message

end Inbound

/-- A decoding with the cursor it ends in. -/
def KrpcMessage.decodeInboundRun (input : List UInt8) :
    Outcome InboundError KrpcMessage × Cursor :=
  match Cursor.new input with
  | .ok cursor => Inbound.parseMessage cursor
  | .error e => (.error e, .start input)
  | .fault => (.fault, .start input)

/-- `decode_inbound`. -/
def KrpcMessage.decodeInbound (input : List UInt8) : Outcome InboundError KrpcMessage :=
  (decodeInboundRun input).1

end Bitmagnet.Dht
