import Bitmagnet.Library.Hex
import Bitmagnet.SearchQuery.Compile
import Bitmagnet.SearchQuery.Statement

/-!
# Inlined binds stay in their places

`inline_binds` puts a literal in the place of every placeholder.  It knows nothing of tokens: it
looks for a `$` and takes the digits behind it.  The literals are complete tokens, so they are a
`Filling`, and the statements of the builder are put together so that every filling of them is
lexed to the filled tokens.

`literalTokens` is what a literal is for the lexer, with the bind's own text as the value of a string
constant; `decodeLiteral` reads the bind back from it.
-/

namespace Bitmagnet.SearchQuery

open Sql

/-! ## The model -/

/-- `quote_literal`. -/
def quoteLiteral (value : String) : String :=
  String.ofList ('\'' :: doubled value.toList ++ ['\''])

/-- `bind_literal`. -/
def bindLiteral : Bind → String
  | .text value => quoteLiteral value
  | .tsquery value => quoteLiteral value ++ "::tsquery"
  | .timestamp value => quoteLiteral value ++ "::timestamptz"
  | .textArray values => "array[" ++ ",".intercalate (values.map quoteLiteral) ++ "]::text[]"
  | .bytea bytes => String.ofList ("'\\x".toList ++ Hex.encode bytes ++ "'::bytea".toList)

/-- The bind of a placeholder.  A number that no `usize` holds is past the end of every vector. -/
def bindAt (binds : List Bind) (index : Nat) : Option Bind :=
  if index = 0 then none else binds[index - 1]?

/-- What `inline_binds` writes for a `$` with digits behind it. -/
def placeholderText (binds : List Bind) (digits : List Char) : List Char :=
  match bindAt binds (Nat.ofDigitChars 10 digits 0) with
  | some bind => (bindLiteral bind).toList
  | none => '$' :: digits

/-- `inline_binds`: its loop is `fill`. -/
def inlineBinds (sql : String) (binds : List Bind) : String :=
  String.ofList (fill (placeholderText binds) sql.toList)

/-! ## What literals are -/

/-- The tokens of a literal. -/
def bindTokens : Bind → List Token
  | .text value => [.string value.toList]
  | .tsquery value => [.string value.toList, .cast, .word "tsquery".toList]
  | .timestamp value => [.string value.toList, .cast, .word "timestamptz".toList]
  | .textArray values =>
    [.word "array".toList, .punct '['] ++
      [.punct ','].intercalate (values.map fun value => [.string value.toList]) ++
      [.punct ']', .cast, .word "text".toList, .punct '[', .punct ']']
  | .bytea bytes =>
    [.string ("\\x".toList ++ Hex.encode bytes), .cast, .word "bytea".toList]

/-- What a placeholder becomes; one without a bind stays. -/
def literalTokens (binds : List Bind) (index : Nat) : List Token :=
  match bindAt binds index with
  | some bind => bindTokens bind
  | none => [.param index]

lemma reads_quoteLiteral (value : String) :
    Reads (quoteLiteral value).toList [.string value.toList] := by
  rw [quoteLiteral, String.toList_ofList]
  exact reads_quoted value.toList

/-- A quoted text with a conversion behind it. -/
lemma reads_converted {text : List Char} {tokens ts : List Token} {suffix : String}
    (h : Reads text tokens) (hcalms : calms suffix.toList = true)
    (hreads : readsAs suffix ts = true) : Reads (text ++ suffix.toList) (tokens ++ ts) := by
  refine h.append hcalms ?_
  simp only [readsAs, Bool.and_eq_true, decide_eq_true_eq] at hreads
  obtain ⟨pending, hpending, rfl⟩ := Option.map_eq_some_iff.mp hreads.2
  exact reads_of_run rfl hreads.1.2 hpending

lemma reads_textArray (values : List String) :
    Reads (bindLiteral (.textArray values)).toList (bindTokens (.textArray values)) := by
  have hopen : Opens "array[".toList [.word "array".toList, .punct '['] :=
    opens_of_run (by decide)
  have hclose : Reads "]::text[]".toList
      [.punct ']', .cast, .word "text".toList, .punct '[', .punct ']'] :=
    (opens_of_run (by decide)).reads
  have hcalms : calms "]::text[]".toList = true := by decide
  rw [bindLiteral, bindTokens, String.toList_append, String.toList_append,
    String.toList_intercalate, List.map_map]
  cases hvalues : values with
  | nil => exact (hopen.reads_append (opens_of_run rfl).reads).append hcalms hclose
  | cons value rest =>
    rw [← hvalues]
    have hne : values ≠ [] := by simp [hvalues]
    have hitems : Reads (",".toList.intercalate (values.map fun value =>
        (quoteLiteral value).toList)) ([.punct ','].intercalate (values.map fun value =>
          [.string value.toList])) :=
      reads_intercalate (by decide) (opens_of_run (by decide)) hne
        fun value _ => reads_quoteLiteral value
    exact (hopen.reads_append hitems).append hcalms hclose

lemma reads_bytea (bytes : List UInt8) :
    Reads (bindLiteral (.bytea bytes)).toList (bindTokens (.bytea bytes)) := by
  have hquote : ∀ c ∈ Hex.encode bytes, c ≠ '\'' := by
    rintro _ hc rfl
    exact absurd (Hex.isLower_of_mem_encode hc) (by decide)
  have hdoubled : doubled ("\\x".toList ++ Hex.encode bytes) = "\\x".toList ++ Hex.encode bytes := by
    refine Eq.trans (List.flatMap_congr fun c hc => ?_) (List.flatMap_singleton' _)
    have hne : c ≠ '\'' := by
      rcases List.mem_append.mp hc with hc | hc
      · rintro rfl
        exact absurd hc (by decide)
      · exact hquote c hc
    exact if_neg hne
  have hreads := reads_quoted ("\\x".toList ++ Hex.encode bytes)
  rw [hdoubled] at hreads
  have hall : Reads (_ ++ "::bytea".toList) (_ ++ [.cast, .word "bytea".toList]) :=
    reads_converted hreads (by decide) (by decide)
  rw [bindLiteral, bindTokens, String.toList_ofList]
  simpa using hall

/-- **A literal is its tokens**, whatever the bind holds. -/
lemma reads_bindLiteral (bind : Bind) : Reads (bindLiteral bind).toList (bindTokens bind) := by
  cases bind with
  | text value => exact reads_quoteLiteral value
  | tsquery value =>
    rw [bindLiteral, String.toList_append]
    exact reads_converted (reads_quoteLiteral value) (by decide) (by decide)
  | timestamp value =>
    rw [bindLiteral, String.toList_append]
    exact reads_converted (reads_quoteLiteral value) (by decide) (by decide)
  | textArray values => exact reads_textArray values
  | bytea bytes => exact reads_bytea bytes

/-- The literals of some binds in the places of their placeholders. -/
def filling (binds : List Bind) : Filling where
  text := placeholderText binds
  tokens := literalTokens binds
  reads i := by
    have hindex : Nat.ofDigitChars 10 (Nat.toDigits 10 i) 0 = i :=
      Nat.ofDigitChars_toDigits (by decide) (by decide)
    rw [placeholderText, literalTokens, hindex]
    cases bindAt binds i with
    | none => exact reads_param i
    | some bind => exact reads_bindLiteral bind

/-! ## Reading a literal back -/

/-- The strings of an array, up to the end of the literal. -/
def decodeStrings : List Token → Option (List String)
  | .string value :: .punct c :: rest =>
    if c = ',' then (decodeStrings rest).map (.ofList value :: ·)
    else if [.punct c] ++ rest =
        [.punct ']', .cast, .word "text".toList, .punct '[', .punct ']'] then
      some [.ofList value]
    else none
  | _ => none

/-- The bind that tokens are a literal of. -/
def decodeLiteral (tokens : List Token) : Option Bind :=
  match tokens with
  | [.string value] => some (.text (.ofList value))
  | [.string value, .cast, .word type] =>
    if type = "tsquery".toList then some (.tsquery (.ofList value))
    else if type = "timestamptz".toList then some (.timestamp (.ofList value))
    else if type = "bytea".toList then (Hex.decode (value.drop 2)).map .bytea
    else none
  | .word _ :: .punct _ :: rest =>
    if rest = [.punct ']', .cast, .word "text".toList, .punct '[', .punct ']'] then
      some (.textArray [])
    else (decodeStrings rest).map .textArray
  | _ => none

lemma decodeStrings_items (values : List String) (hne : values ≠ []) :
    decodeStrings ([.punct ','].intercalate (values.map fun value => [.string value.toList]) ++
      [.punct ']', .cast, .word "text".toList, .punct '[', .punct ']']) = some values := by
  induction values with
  | nil => exact absurd rfl hne
  | cons value values ih =>
    cases values with
    | nil => simp [decodeStrings]
    | cons next values =>
      rw [List.map_cons, List.map_cons, List.intercalate_cons_cons]
      have hrest := ih (by simp)
      rw [List.map_cons] at hrest
      rw [List.append_assoc, List.append_assoc, List.singleton_append, List.singleton_append,
        decodeStrings, if_pos rfl, hrest]
      simp

lemma decodeLiteral_bindTokens (bind : Bind) : decodeLiteral (bindTokens bind) = some bind := by
  cases bind with
  | text value => simp [bindTokens, decodeLiteral]
  | tsquery value => simp [bindTokens, decodeLiteral]
  | timestamp value => simp [bindTokens, decodeLiteral]
  | bytea bytes => simp [bindTokens, decodeLiteral, Hex.decode_encode]
  | textArray values =>
    rw [bindTokens, List.append_assoc, List.cons_append, List.singleton_append, decodeLiteral]
    by_cases hne : values = []
    · subst hne
      rfl
    · obtain ⟨value, rest, rfl⟩ := List.exists_cons_of_ne_nil hne
      rw [if_neg (by simp), decodeStrings_items _ hne]
      rfl

/-! ## Shapes -/

/-- What of a bind decides which tokens its literal has. -/
inductive Shape
  | bytea | text | tsquery | timestamp
  | textArray (length : Nat)
deriving DecidableEq

def Bind.shape : Bind → Shape
  | .bytea _ => .bytea
  | .text _ => .text
  | .tsquery _ => .tsquery
  | .timestamp _ => .timestamp
  | .textArray values => .textArray values.length

/-- Tokens without the values of their strings. -/
def skeleton (tokens : List Token) : List Token :=
  tokens.map fun
    | .string _ => .string []
    | t => t

lemma skeleton_append (ta tb : List Token) : skeleton (ta ++ tb) = skeleton ta ++ skeleton tb :=
  List.map_append

/-- The items of an array have as many tokens as there are items. -/
lemma skeleton_items : ∀ {values values' : List String}, values.length = values'.length →
    skeleton ([.punct ','].intercalate (values.map fun value => [.string value.toList])) =
      skeleton ([.punct ','].intercalate (values'.map fun value => [.string value.toList]))
  | [], [], _ => rfl
  | [_], [_], _ => rfl
  | value :: next :: values, value' :: next' :: values', h => by
    have hrest := skeleton_items (Nat.succ.inj h)
    simp only [List.map_cons, List.intercalate_cons_cons, skeleton_append] at hrest ⊢
    rw [hrest]
    rfl

lemma skeleton_bindTokens {bind bind' : Bind} (h : bind.shape = bind'.shape) :
    skeleton (bindTokens bind) = skeleton (bindTokens bind') := by
  cases bind with
  | textArray values =>
    cases bind' with
    | textArray values' =>
      have hlength : values.length = values'.length := by simpa [Bind.shape] using h
      rw [bindTokens, bindTokens]
      simp only [skeleton_append]
      rw [skeleton_items hlength]
    | _ => exact absurd h (by simp [Bind.shape])
  | _ =>
    cases bind' with
    | _ => first | rfl | exact absurd h (by simp [Bind.shape])

/-- Binds of the same shapes give the same skeleton. -/
lemma skeleton_literalTokens {values values' : List Bind}
    (h : values.map Bind.shape = values'.map Bind.shape) (i : Nat) :
    skeleton (literalTokens values i) = skeleton (literalTokens values' i) := by
  have hshape : (bindAt values i).map Bind.shape = (bindAt values' i).map Bind.shape := by
    rw [bindAt, bindAt]
    split
    · rfl
    · rw [← List.getElem?_map, ← List.getElem?_map, h]
  rw [literalTokens, literalTokens]
  cases hbind : bindAt values i with
  | none =>
    cases hbind' : bindAt values' i with
    | none => rfl
    | some bind' => rw [hbind, hbind'] at hshape; cases hshape
  | some bind =>
    cases hbind' : bindAt values' i with
    | none => rw [hbind, hbind'] at hshape; cases hshape
    | some bind' =>
      rw [hbind, hbind'] at hshape
      exact skeleton_bindTokens (Option.some.inj hshape)

lemma skeleton_expand {tokens tokens' : Nat → List Token}
    (h : ∀ i, skeleton (tokens i) = skeleton (tokens' i)) (ts : List Token) :
    skeleton (expand tokens ts) = skeleton (expand tokens' ts) := by
  induction ts with
  | nil => rfl
  | cons t ts ih =>
    rw [← List.singleton_append, expand_append, expand_append, skeleton_append, skeleton_append, ih]
    congr 1
    cases t with
    | param i => simpa [expand] using h i
    | _ => rfl

end Bitmagnet.SearchQuery
