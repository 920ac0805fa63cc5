import Mathlib.Algebra.Group.Int.Defs
import Bitmagnet.SearchServe.Refine

/-!
# The tokenizer

`tokenizer.rs` of `bitmagnet-fts`.  It reads three generated tables, which are what everything here is
over: the ranges of word characters, the lower-case map and the transliterations.  The tables are
sorted, so that `partition_point` is the length of what satisfies its predicate and a binary search
is a lookup.
-/

namespace Bitmagnet.Fts

open SearchServe (Text byteLen trim)

/-- `tables.rs`. -/
structure Tables where
  /-- `WORD_CHAR_RANGES` -/
  wordCharRanges : List (Nat × Nat)
  /-- `LOWER_MAP` -/
  lowerMap : List (Nat × Nat)
  /-- `TRANSLIT_SECTIONS` -/
  translitSections : List (Nat × List Text)

variable (tables : Tables)

/-- `is_go_word_char`. -/
def isGoWordChar (c : Char) : Bool :=
  match (tables.wordCharRanges.takeWhile (·.1 ≤ c.toNat)).getLast? with
  | some range => c.toNat ≤ range.2
  | none => false

/-- `char::from_u32`. -/
def charFromU32 (n : Nat) : Option Char := if n.isValidChar then some (Char.ofNat n) else none

/-- `to_lower`. -/
def toLower (c : Char) : Char :=
  match tables.lowerMap.lookup c.toNat with
  | some lower => (charFromU32 lower).getD c
  | none => c

/-- `translit_lookup`. -/
def translitLookup (c : Char) : Option Text :=
  (tables.translitSections.lookup (c.toNat / 256)).bind (·[c.toNat % 256]?)

/-- `str::replace`, of a character. -/
def replaceChar (old : Char) (new : Text) (text : Text) : Text :=
  text.flatMap fun c => if c = old then new else [c]

/-- `process_subst`. -/
def processSubst (raw : Text) : Text :=
  if '\'' ∈ raw ∨ '\\' ∈ raw then
    trim (replaceChar '\\' "_bs_".toList (replaceChar '\'' "_sq_".toList raw))
  else trim raw

structure TokenSpan where
  text : Text
  offsetFrom : Nat
  offsetTo : Nat

structure Accumulator where
  out : List TokenSpan := []
  lexeme : Text := []
  start : Nat := 0
  stop : Nat := 0

namespace Accumulator

/-- `break_word`. -/
def breakWord (acc : Accumulator) : Accumulator :=
  if acc.lexeme = [] then acc
  else { acc with out := acc.out ++ [⟨acc.lexeme, acc.start, acc.stop⟩], lexeme := [] }

/-- `push_subst`; `push_ascii` is the same for one character. -/
def pushSubst (acc : Accumulator) (text : Text) (cs ce : Nat) : Accumulator :=
  if text = [] then acc
  else
    { acc with
      lexeme := acc.lexeme ++ text
      start := if acc.lexeme = [] then cs else acc.start
      stop := ce }

/-- `push_ascii`. -/
def pushAscii (acc : Accumulator) (c : Char) (cs ce : Nat) : Accumulator :=
  acc.pushSubst [c] cs ce

end Accumulator

/-- A substitution in the loop of `tokenize_spans`. -/
def tokenizeSubst (acc : Accumulator) (nonBreaking : Bool) (raw : Text) (cs ce : Nat) :
    Accumulator :=
  let subst := processSubst raw
  let acc := acc.pushSubst subst cs ce
  if nonBreaking || subst.isEmpty || subst.getLast? = some ' ' then acc.breakWord else acc

/-- One turn of the loop of `tokenize_spans`, at a character and the offset of its first byte. -/
def tokenizeChar (acc : Accumulator) (rawCh : Char) (cs : Nat) : Accumulator :=
  let ce := cs + rawCh.utf8Size
  if isGoWordChar tables rawCh then
    let ch := toLower tables rawCh
    if ch.toNat < 0x7F then acc.pushAscii ch cs ce
    else
      let nonBreaking : Bool := ch.toNat > 0x1FFF
      let acc := if nonBreaking then acc.breakWord else acc
      match translitLookup tables ch with
      | some raw => tokenizeSubst acc nonBreaking raw cs ce
      | none => acc
  else acc.breakWord

/-- The loop of `tokenize_spans`, with the offset it is at. -/
def tokenizeLoop : Accumulator → Nat → Text → Accumulator
  | acc, _, [] => acc
  | acc, offset, c :: rest =>
    tokenizeLoop (tokenizeChar tables acc c offset) (offset + c.utf8Size) rest

/-- `tokenize_spans`. -/
def tokenizeSpans (input : Text) : List TokenSpan :=
  (tokenizeLoop tables {} 0 input).breakWord.out

/-- `tokenize_flat`. -/
def tokenizeFlat (input : Text) : List Text := (tokenizeSpans tables input).map (·.text)

/-! ## What tokens are made of -/

section

variable (P : Char → Prop)

/-- Every token, and the one that is being read, is made of such characters; finished ones have
some. -/
structure Accumulator.Made (acc : Accumulator) : Prop where
  out : ∀ span ∈ acc.out, span.text ≠ [] ∧ ∀ c ∈ span.text, P c
  lexeme : ∀ c ∈ acc.lexeme, P c

variable {P} {acc : Accumulator}

lemma Accumulator.Made.breakWord (h : acc.Made P) : acc.breakWord.Made P := by
  unfold Accumulator.breakWord
  split
  · exact h
  · rename_i hne
    refine ⟨?_, by simp⟩
    intro span hspan
    rcases List.mem_append.mp hspan with hspan | hspan
    · exact h.out span hspan
    · obtain rfl := List.mem_singleton.mp hspan
      exact ⟨hne, h.lexeme⟩

lemma Accumulator.Made.pushSubst (h : acc.Made P) {text : Text} (htext : ∀ c ∈ text, P c)
    (cs ce : Nat) : (acc.pushSubst text cs ce).Made P := by
  unfold Accumulator.pushSubst
  split
  · exact h
  · refine ⟨h.out, ?_⟩
    intro c hc
    rcases List.mem_append.mp hc with hc | hc
    · exact h.lexeme c hc
    · exact htext c hc

/-- One character keeps it, if what stands for the character does. -/
lemma Accumulator.Made.tokenizeChar {rawCh : Char}
    (hascii : isGoWordChar tables rawCh = true → (toLower tables rawCh).toNat < 0x7F →
      P (toLower tables rawCh))
    (hsubst : ∀ raw, ∀ c ∈ processSubst raw, P c) (h : acc.Made P) (cs : Nat) :
    (Fts.tokenizeChar tables acc rawCh cs).Made P := by
  unfold Fts.tokenizeChar
  dsimp only
  split
  · rename_i hword
    split
    · rename_i hlow
      exact h.pushSubst (by simpa using hascii hword hlow) _ _
    · have hbroken : (if decide ((toLower tables rawCh).toNat > 0x1FFF) = true then acc.breakWord
          else acc).Made P := by
        split
        · exact h.breakWord
        · exact h
      split
      · rename_i raw _
        unfold tokenizeSubst
        have hpushed := hbroken.pushSubst (hsubst raw) cs (cs + rawCh.utf8Size)
        dsimp only
        split
        · exact hpushed.breakWord
        · exact hpushed
      · exact hbroken
  · exact h.breakWord

lemma Accumulator.Made.tokenizeLoop
    (hascii : ∀ c, isGoWordChar tables c = true → (toLower tables c).toNat < 0x7F →
      P (toLower tables c))
    (hsubst : ∀ raw, ∀ c ∈ processSubst raw, P c) (input : Text) :
    ∀ {acc : Accumulator} (offset : Nat), acc.Made P →
      (Fts.tokenizeLoop tables acc offset input).Made P := by
  induction input with
  | nil => exact fun offset h => h
  | cons c input ih => exact fun offset h => ih _ (h.tokenizeChar tables (hascii c) hsubst offset)

/-- **Tokens are not empty, and they are made of what stands for word characters.** -/
lemma mem_tokenizeFlat
    (hascii : ∀ c, isGoWordChar tables c = true → (toLower tables c).toNat < 0x7F →
      P (toLower tables c))
    (hsubst : ∀ raw, ∀ c ∈ processSubst raw, P c) (input : Text) :
    ∀ token ∈ tokenizeFlat tables input, token ≠ [] ∧ ∀ c ∈ token, P c := by
  intro token htoken
  obtain ⟨span, hspan, rfl⟩ := List.mem_map.mp htoken
  have hempty : Accumulator.Made P {} := ⟨by simp, by simp⟩
  exact ((hempty.tokenizeLoop tables hascii hsubst input 0).breakWord).out span hspan

end

end Bitmagnet.Fts
