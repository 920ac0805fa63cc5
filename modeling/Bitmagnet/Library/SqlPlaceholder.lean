import Bitmagnet.Library.SqlLexer

/-!
# Placeholders and what is put in their place

`fill` replaces every `$` with its digits by another text, in one pass from left to right that knows
nothing of tokens.  A `Filling` is a replacement whose texts are complete tokens.  `Renders` and
`Frames` are `Reads` and `Opens` for every filling at once: the filled piece is the tokens of the
piece with each parameter replaced.  The filling that changes nothing gives back `Reads` and `Opens`
themselves, so a text that is put together with the lemmas here is lexed as it stands and after any
replacement.
-/

namespace Sql

/-! ## Replacing -/

/-- What a `$` and the digits behind it, in reverse, become. -/
def placed (replace : List Char → List Char) : List Char → List Char
  | [] => ['$']
  | rev => replace rev.reverse

/-- The replacement from a position on, with the digits read behind a `$`, if there is one. -/
def fillFrom (replace : List Char → List Char) : Option (List Char) → List Char → List Char
  | none, [] => []
  | none, c :: cs =>
    if c = '$' then fillFrom replace (some []) cs else c :: fillFrom replace none cs
  | some rev, [] => placed replace rev
  | some rev, c :: cs =>
    if c.isDigit then fillFrom replace (some (c :: rev)) cs
    else placed replace rev ++
      if c = '$' then fillFrom replace (some []) cs else c :: fillFrom replace none cs

/-- The text with its placeholders replaced. -/
def fill (replace : List Char → List Char) (text : List Char) : List Char :=
  fillFrom replace none text

variable {replace : List Char → List Char} {a b rest : List Char}

@[simp] lemma fill_nil : fill replace [] = [] := rfl

/-- A text without `$` stays. -/
lemma fill_append (h : '$' ∉ a) (rest : List Char) :
    fill replace (a ++ rest) = a ++ fill replace rest := by
  induction a with
  | nil => rfl
  | cons c a ih =>
    rw [List.mem_cons, not_or] at h
    obtain ⟨hc, ha⟩ := h
    rw [List.cons_append, fill, fillFrom, if_neg (Ne.symm hc), List.cons_append]
    exact congrArg _ (ih ha)

lemma fillFrom_digits {digits : List Char} (hdigits : ∀ c ∈ digits, c.isDigit = true)
    (rest : List Char) :
    ∀ rev, fillFrom replace (some rev) (digits ++ rest) =
      fillFrom replace (some (digits.reverse ++ rev)) rest := by
  induction digits with
  | nil => exact fun rev => rfl
  | cons c digits ih =>
    intro rev
    rw [List.cons_append, fillFrom, if_pos (hdigits c (by simp)),
      ih fun d hd => hdigits d (List.mem_cons_of_mem _ hd)]
    simp

/-- A placeholder, before anything but another digit. -/
lemma fill_placeholder {digits : List Char} (hdigits : ∀ c ∈ digits, c.isDigit = true)
    (hne : digits ≠ []) (hrest : ∀ c ∈ rest.head?, c.isDigit = false) :
    fill replace ('$' :: digits ++ rest) = replace digits ++ fill replace rest := by
  have hplaced : placed replace (digits.reverse ++ []) = replace digits := by
    cases hrev : digits.reverse with
    | nil => exact absurd (List.reverse_eq_nil_iff.mp hrev) hne
    | cons c rev =>
      rw [List.append_nil, placed]
      · rw [← hrev, List.reverse_reverse]
      · simp
  rw [List.cons_append, fill, fillFrom, if_pos rfl, fillFrom_digits hdigits]
  cases rest with
  | nil =>
    rw [fillFrom, hplaced]
    simp
  | cons c rest =>
    rw [fillFrom, if_neg (by simp [hrest c rfl]), hplaced]
    rfl

/-- A filled text starts with a digit if the text does. -/
lemma fill_digit {c : Char} (hc : c.isDigit = true) (cs : List Char) :
    fill replace (c :: cs) = c :: fill replace cs := by
  have hne : c ≠ '$' := by
    rintro rfl
    exact absurd hc (by decide)
  rw [fill, fillFrom, if_neg hne]
  rfl

/-! ## Fillings -/

/-- Replacements that are complete tokens. -/
structure Filling where
  text : List Char → List Char
  tokens : Nat → List Token
  reads : ∀ i, Reads (text (Nat.toDigits 10 i)) (tokens i)

/-- The filling that changes nothing. -/
def Filling.same : Filling where
  text digits := '$' :: digits
  tokens i := [.param i]
  reads := reads_param

lemma fillFrom_same (text : List Char) :
    fillFrom Filling.same.text none text = text ∧
      ∀ rev, fillFrom Filling.same.text (some rev) text = '$' :: rev.reverse ++ text := by
  have hplaced : ∀ rev, placed Filling.same.text rev = '$' :: rev.reverse := by
    intro rev
    cases rev <;> rfl
  induction text with
  | nil => exact ⟨rfl, fun rev => by simp [fillFrom, hplaced]⟩
  | cons c text ih =>
    have hnone : fillFrom Filling.same.text none (c :: text) = c :: text := by
      rw [fillFrom]
      split
      · next hc => rw [ih.2, hc]; rfl
      · rw [ih.1]
    refine ⟨hnone, fun rev => ?_⟩
    rw [fillFrom]
    split
    · simp [ih.2]
    · rw [fillFrom] at hnone
      rw [hnone, hplaced]

@[simp] lemma fill_same (text : List Char) : fill Filling.same.text text = text :=
  (fillFrom_same text).1

/-- The tokens with each parameter replaced. -/
def expand (tokens : Nat → List Token) (ts : List Token) : List Token :=
  ts.flatMap fun
    | .param i => tokens i
    | t => [t]

@[simp] lemma expand_append (tokens : Nat → List Token) (ta tb : List Token) :
    expand tokens (ta ++ tb) = expand tokens ta ++ expand tokens tb := List.flatMap_append

lemma expand_same (ts : List Token) : expand Filling.same.tokens ts = ts := by
  induction ts with
  | nil => rfl
  | cons t ts ih =>
    rw [← List.singleton_append, expand_append, ih]
    cases t <;> rfl

/-- Tokens none of which is a parameter. -/
def isFixed : Token → Bool
  | .param _ => false
  | _ => true

lemma expand_fixed {tokens : Nat → List Token} {ts : List Token} (h : ts.all isFixed = true) :
    expand tokens ts = ts := by
  induction ts with
  | nil => rfl
  | cons t ts ih =>
    obtain ⟨ht, hts⟩ := Bool.and_eq_true_iff.mp (List.all_cons ▸ h)
    rw [← List.singleton_append, expand_append, ih hts]
    cases t with
    | param i => exact absurd ht (by simp [isFixed])
    | _ => rfl

/-! ## Pieces under every filling -/

/-- The filled piece is the tokens, and the machine is between tokens behind it. -/
def Frames (text : List Char) (tokens : List Token) : Prop :=
  ∀ (F : Filling) (rest : List Char), scan .idle (fill F.text (text ++ rest)) =
    emit (expand F.tokens tokens) (scan .idle (fill F.text rest))

/-- The filled piece is the tokens before any calm continuation. -/
def Renders (text : List Char) (tokens : List Token) : Prop :=
  ∀ (F : Filling) (rest : List Char), calm (fill F.text rest) = true →
    scan .idle (fill F.text (text ++ rest)) =
      emit (expand F.tokens tokens) (scan .idle (fill F.text rest))

variable {ta tb : List Token}

lemma Opens.frames (h : Opens a ta) (hdollar : '$' ∉ a) (hfixed : ta.all isFixed = true) :
    Frames a ta := by
  intro F rest
  rw [fill_append hdollar, h, expand_fixed hfixed]

lemma Reads.renders (h : Reads a ta) (hdollar : '$' ∉ a) (hfixed : ta.all isFixed = true) :
    Renders a ta := by
  intro F rest hrest
  rw [fill_append hdollar, h _ hrest, expand_fixed hfixed]

lemma Frames.renders (h : Frames a ta) : Renders a ta := fun F rest _ => h F rest

lemma renders_param (i : Nat) : Renders ('$' :: Nat.toDigits 10 i) [.param i] := by
  intro F rest hrest
  have hhead : ∀ c ∈ rest.head?, c.isDigit = false := by
    intro c hc
    obtain ⟨cs, rfl⟩ := List.head?_eq_some_iff.mp hc
    by_contra hdigit
    rw [Bool.not_eq_false] at hdigit
    rw [fill_digit hdigit] at hrest
    exact absurd (calm_head hrest).2.2.1 (by simp [hdigit])
  rw [fill_placeholder (isDigit_toDigits i) Nat.toDigits_ne_nil hhead, F.reads i _ hrest]
  simp [expand]

/-- A piece behind one that ends between tokens. -/
lemma Frames.renders_append (ha : Frames a ta) (hb : Renders b tb) :
    Renders (a ++ b) (ta ++ tb) := by
  intro F rest hrest
  rw [List.append_assoc, ha, hb F rest hrest, emit_emit, expand_append]

/-- A piece that calms, behind a pending token, and is itself complete. -/
lemma Renders.frames_append (ha : Renders a ta) (hcalms : calms b = true) (hdollar : '$' ∉ b)
    (hb : Frames b tb) : Frames (a ++ b) (ta ++ tb) := by
  intro F rest
  have hcalm : calm (fill F.text (b ++ rest)) = true := by
    rw [fill_append hdollar]
    exact calm_append hcalms _
  rw [List.append_assoc, ha F _ hcalm, hb, emit_emit, expand_append]

/-- A piece that calms, behind a pending token. -/
lemma Renders.append (ha : Renders a ta) (hcalms : calms b = true) (hdollar : '$' ∉ b)
    (hb : Renders b tb) : Renders (a ++ b) (ta ++ tb) := by
  intro F rest hrest
  have hcalm : calm (fill F.text (b ++ rest)) = true := by
    rw [fill_append hdollar]
    exact calm_append hcalms _
  rw [List.append_assoc, ha F _ hcalm, hb F rest hrest, emit_emit, expand_append]

/-- **After any filling the tokens are those of the text with the parameters replaced.** -/
lemma Renders.lex_fill (h : Renders a ta) (F : Filling) :
    Sql.lex (fill F.text a) = some (expand F.tokens ta) := by
  have := h F [] rfl
  rwa [List.append_nil, fill_nil, show scan .idle [] = some [] from rfl, emit_some,
    List.append_nil] at this

lemma Renders.lex (h : Renders a ta) : Sql.lex a = some ta := by
  have := h.lex_fill .same
  rwa [fill_same, expand_same] at this

end Sql
