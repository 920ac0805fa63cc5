import Mathlib.Data.Nat.Digits.Defs
import Bitmagnet.Fts.Tables
import Bitmagnet.Fts.Tsvector

/-!
# What a text search vector costs to write

`Display for Tsvector`, and the budget of `add_text_bounded` against it.  A lexeme is charged its
bytes and twelve more.  Written with the others of its text it is shared, quoted, separated and
labelled; `byteLen_render_insertLabel` says that one more label never takes more than the charge as
long as positions have at most seven digits, and the rest follows call by call.
-/

namespace Bitmagnet.Fts

open SearchServe (Text byteLen byteLen_nil byteLen_cons byteLen_append byteLen_digits)

/-! ## Writing a vector -/

/-- `as_char`. -/
def TsvectorWeight.asChar : TsvectorWeight → Char
  | .a => 'A'
  | .b => 'B'
  | .c => 'C'
  | .d => 'D'

namespace Tsvector

/-- `quote_lexeme` of `tsvector.rs`. -/
def quoteLexeme (s : Text) : Text :=
  '\'' :: s.flatMap (fun c => if c = '\'' then ['\'', c] else [c]) ++ ['\'']

/-- A position and its weight, the default `D` left out. -/
def renderLabel (pos : Int) (weight : TsvectorWeight) : Text :=
  (toString pos).toList ++ if weight = .d then [] else [weight.asChar]

/-- The loop over the labels of a lexeme.  Position `0` is dropped. -/
def renderLabels : Bool → List (Int × TsvectorWeight) → Text
  | _, [] => []
  | labelFirst, (pos, weight) :: labels =>
    if pos = 0 then renderLabels labelFirst labels
    else (if labelFirst then ':' else ',') :: renderLabel pos weight ++ renderLabels false labels

/-- The loop over the lexemes. -/
def renderFrom : Bool → Tsvector → Text
  | _, [] => []
  | first, (lexeme, labels) :: vector =>
    (if first then [] else [' ']) ++ quoteLexeme lexeme ++ renderLabels true labels ++
      renderFrom false vector

/-- `Display for Tsvector`. -/
def render (vector : Tsvector) : Text := renderFrom true vector

/-! ## Lengths -/

variable {pos : Int} {lexeme : Text} {vector : Tsvector}

/-- A position below ten million has at most seven digits. -/
lemma byteLen_toString_le (hpos : 1 ≤ pos) (hbelow : pos < 10 ^ 7) :
    byteLen (toString pos).toList ≤ 7 := by
  obtain ⟨n, rfl⟩ := Int.eq_ofNat_of_zero_le (by omega : 0 ≤ pos)
  have htext : (toString (n : Int)).toList = Nat.toDigits 10 n := by
    show (toString n).toList = _
    simp
  rw [htext, byteLen_digits fun c =>
    Nat.isDigit_of_mem_toDigits (by decide) (by decide)]
  exact Nat.toDigits_length 10 n 7 (by decide) (by omega)

lemma byteLen_renderLabel_le (hpos : 1 ≤ pos) (hbelow : pos < 10 ^ 7) (weight : TsvectorWeight) :
    byteLen (renderLabel pos weight) ≤ 8 := by
  have hdigits := byteLen_toString_le hpos hbelow
  have hweight : byteLen (if weight = .d then [] else [weight.asChar]) ≤ 1 := by
    cases weight <;> decide
  rw [renderLabel, byteLen_append]
  omega

/-- A label behind the others takes its separator and itself. -/
lemma byteLen_renderLabels_concat (hpos : 1 ≤ pos) (weight : TsvectorWeight)
    (labels : List (Int × TsvectorWeight)) : ∀ labelFirst,
      byteLen (renderLabels labelFirst (labels ++ [(pos, weight)])) =
        byteLen (renderLabels labelFirst labels) + (1 + byteLen (renderLabel pos weight)) := by
  have hzero : pos ≠ 0 := by omega
  induction labels with
  | nil =>
    intro labelFirst
    have hsep : (if labelFirst = true then ':' else ',').utf8Size = 1 := by
      cases labelFirst <;> decide
    simp [renderLabels, hzero, hsep]
  | cons label labels ih =>
    intro labelFirst
    obtain ⟨pos', weight'⟩ := label
    by_cases hskip : pos' = 0
    · simp only [List.cons_append, renderLabels, hskip, if_true, ih]
    · simp only [List.cons_append, renderLabels, hskip, if_false, byteLen_cons, byteLen_append, ih]
      omega

/-- A lexeme without quotes takes its bytes and the two quotes around it. -/
lemma byteLen_quoteLexeme (h : ∀ c ∈ lexeme, Plain c) :
    byteLen (quoteLexeme lexeme) = byteLen lexeme + 2 := by
  have hsame : lexeme.flatMap (fun c => if c = '\'' then ['\'', c] else [c]) = lexeme := by
    induction lexeme with
    | nil => rfl
    | cons c lexeme ih =>
      obtain ⟨hc, hrest⟩ := List.forall_mem_cons.mp h
      rw [List.flatMap_cons, if_neg hc.1, ih hrest, List.singleton_append]
  have hquote : ('\'' : Char).utf8Size = 1 := by decide
  rw [quoteLexeme, hsame]
  simp only [List.cons_append, byteLen_cons, byteLen_append, hquote, byteLen_nil]
  omega

/-- What an entry takes with its separator. -/
def entryWidth (entry : Text × List (Int × TsvectorWeight)) : Nat :=
  1 + byteLen (quoteLexeme entry.1) + byteLen (renderLabels true entry.2)

lemma byteLen_renderFrom_false (vector : Tsvector) :
    byteLen (renderFrom false vector) = (vector.map entryWidth).sum := by
  have hspace : (' ' : Char).utf8Size = 1 := by decide
  induction vector with
  | nil => rfl
  | cons entry vector ih =>
    obtain ⟨lexeme, labels⟩ := entry
    simp only [renderFrom, Bool.false_eq_true, if_false, byteLen_append, byteLen_cons,
      byteLen_nil, hspace, ih, List.map_cons, List.sum_cons, entryWidth]

/-- The first entry has no separator. -/
lemma byteLen_render (h : vector ≠ []) :
    byteLen vector.render + 1 = (vector.map entryWidth).sum := by
  obtain ⟨⟨lexeme, labels⟩, rest, rfl⟩ := List.exists_cons_of_ne_nil h
  simp only [render, renderFrom, if_true, List.nil_append, byteLen_append,
    byteLen_renderFrom_false, List.map_cons, List.sum_cons, entryWidth]
  omega

lemma byteLen_render_le (vector : Tsvector) :
    (vector.map entryWidth).sum ≤ byteLen vector.render + 1 := by
  by_cases h : vector = []
  · simp [h]
  · exact Nat.le_of_eq (byteLen_render h).symm

/-! ## One more label -/

/-- Every position is below a bound. -/
def PositionsBelow (bound : Int) (vector : Tsvector) : Prop :=
  ∀ entry ∈ vector, ∀ label ∈ entry.2, label.1 < bound

lemma insertLabel_ne_nil (vector : Tsvector) (lexeme : Text) (pos : Int)
    (weight : TsvectorWeight) : vector.insertLabel lexeme pos weight ≠ [] := by
  intro h
  have hat : (vector.insertLabel lexeme pos weight).weightAt lexeme pos = some weight := by
    rw [weightAt_insertLabel, if_pos ⟨rfl, rfl⟩]
  rw [h] at hat
  cases hat

/-- The labels of a lexeme with one more behind them. -/
lemma insertLabel_eq (hbelow : vector.PositionsBelow pos) (lexeme : Text)
    (weight : TsvectorWeight) :
    vector.insertLabel lexeme pos weight =
      SortedMap.insert lexeme ((vector.lookup lexeme).getD [] ++ [(pos, weight)]) vector := by
  have hlabels : ∀ label ∈ (vector.lookup lexeme).getD [], label.1 < pos := by
    cases hlookup : vector.lookup lexeme with
    | none => simp
    | some labels =>
      obtain ⟨before, after, hsplit, -⟩ := List.lookup_eq_some_iff.mp hlookup
      exact hbelow (lexeme, labels) (by rw [hsplit]; simp)
  rw [insertLabel, SortedMap.insert_eq_concat hlabels]

/-- The width of the entries grows by no more than the charge. -/
lemma entryWidth_insertLabel (hsorted : SortedMap.Sorted vector)
    (hbehind : vector.PositionsBelow pos) (hpos : 1 ≤ pos) (hbelow : pos < 10 ^ 7)
    (hplain : ∀ c ∈ lexeme, Plain c) (weight : TsvectorWeight) :
    ((vector.insertLabel lexeme pos weight).map entryWidth).sum ≤
      (vector.map entryWidth).sum + (byteLen lexeme + 12) := by
  have hlabel := byteLen_renderLabel_le hpos hbelow weight
  rw [insertLabel_eq hbehind]
  cases hlookup : vector.lookup lexeme with
  | none =>
    have hnew : lexeme ∉ vector.map Prod.fst := by
      intro hmem
      obtain ⟨entry, hentry, rfl⟩ := List.mem_map.mp hmem
      simpa using List.lookup_eq_none_iff.mp hlookup entry hentry
    have hwidth : entryWidth (lexeme, [(pos, weight)]) ≤ byteLen lexeme + 12 := by
      have hlabels := byteLen_renderLabels_concat hpos weight [] true
      rw [List.nil_append] at hlabels
      rw [entryWidth, byteLen_quoteLexeme hplain, hlabels]
      simp only [renderLabels, byteLen_nil]
      omega
    rw [((SortedMap.perm_insert hnew).map entryWidth).sum_nat]
    simp only [Option.getD_none, List.nil_append, List.map_cons, List.sum_cons]
    omega
  | some labels =>
    obtain ⟨before, after, rfl, -⟩ := List.lookup_eq_some_iff.mp hlookup
    rw [SortedMap.insert_append_cons hsorted]
    simp only [Option.getD_some, List.map_append, List.sum_append, List.map_cons, List.sum_cons,
      entryWidth, byteLen_renderLabels_concat hpos]
    omega

/-- **One more label takes no more than the charge for its lexeme.** -/
lemma byteLen_render_insertLabel (hsorted : SortedMap.Sorted vector)
    (hbehind : vector.PositionsBelow pos) (hpos : 1 ≤ pos) (hbelow : pos < 10 ^ 7)
    (hplain : ∀ c ∈ lexeme, Plain c) (weight : TsvectorWeight) :
    (byteLen (vector.insertLabel lexeme pos weight).render : Int) ≤
      byteLen vector.render + lexemeCost lexeme := by
  have hgrow := entryWidth_insertLabel hsorted hbehind hpos hbelow hplain weight
  have hnew := byteLen_render (insertLabel_ne_nil vector lexeme pos weight)
  have hold := byteLen_render_le vector
  unfold lexemeCost
  omega

lemma positionsBelow_insertLabel (h : vector.PositionsBelow pos) (lexeme : Text)
    (weight : TsvectorWeight) :
    (vector.insertLabel lexeme pos weight).PositionsBelow (pos + 1) := by
  intro entry hentry label hlabel
  rw [insertLabel_eq h] at hentry
  rcases SortedMap.mem_insert hentry with rfl | hentry
  · rcases List.mem_append.mp hlabel with hold | hnew
    · cases hlookup : vector.lookup lexeme with
      | none => simp [hlookup] at hold
      | some labels =>
        obtain ⟨before, after, hsplit, -⟩ := List.lookup_eq_some_iff.mp hlookup
        rw [hlookup] at hold
        have := h (lexeme, labels) (by rw [hsplit]; simp) label hold
        omega
    · obtain rfl := List.mem_singleton.mp hnew
      exact Int.lt_succ pos
  · have := h entry hentry label hlabel
    omega

/-! ## Where a text starts -/

/-- A text starts behind all positions, also where some are not positive. -/
lemma nextPos_behind {next : Int} (h : vector.nextPos = some next) :
    1 ≤ next ∧ vector.PositionsBelow next := by
  obtain ⟨top, hone, habove, rfl⟩ := nextPos_cases h
  refine ⟨by omega, fun entry hentry label hlabel => ?_⟩
  have := habove entry hentry label.1 (List.mem_map_of_mem hlabel)
  omega

lemma increment_of_lt {n : Int} (h : n < 2 ^ 31 - 1) : increment n = some (n + 1) := if_pos h

/-- A loop whose turns return below a bound returns below it. -/
lemma foldlM_returns {α : Type} {f : Int → α → Option Int} (bound : Int) (as : List α)
    (hf : ∀ a ∈ as, ∀ next ≤ bound, ∃ n ≤ bound, f next a = some n) :
    ∀ next ≤ bound, ∃ n ≤ bound, as.foldlM f next = some n := by
  induction as with
  | nil => exact fun next hnext => ⟨next, hnext, rfl⟩
  | cons a as ih =>
    intro next hnext
    obtain ⟨hhead, htail⟩ := List.forall_mem_cons.mp hf
    obtain ⟨middle, hmiddle, hfirst⟩ := hhead next hnext
    obtain ⟨n, hn, hrest⟩ := ih htail middle hmiddle
    exact ⟨n, hn, by rw [List.foldlM_cons, hfirst]; exact hrest⟩

/-- With small positions the next one is found without overflow. -/
lemma nextPos_returns (h : vector.PositionsBelow (10 ^ 7)) :
    ∃ next, vector.nextPos = some next := by
  have hraise : ∀ pos, pos < 10 ^ 7 → ∀ next ≤ (10 ^ 7 : Int), ∃ n ≤ (10 ^ 7 : Int),
      raise next pos = some n := by
    intro pos hpos next hnext
    by_cases hge : pos ≥ next
    · exact ⟨pos + 1, by omega, by rw [raise, if_pos hge, increment_of_lt (by omega)]⟩
    · exact ⟨next, hnext, by rw [raise, if_neg hge]⟩
  obtain ⟨top, htop, hfold⟩ := foldlM_returns (10 ^ 7) vector
    (fun entry hentry => foldlM_returns (10 ^ 7) (entry.2.map Prod.fst) fun pos hpos => by
      obtain ⟨label, hlabel, rfl⟩ := List.mem_map.mp hpos
      exact hraise _ (h entry hentry label hlabel)) 1 (by decide)
  by_cases hgt : top > 1
  · exact ⟨top + 1, by simp [nextPos, hfold, hgt, increment_of_lt (by omega : top < 2 ^ 31 - 1)]⟩
  · exact ⟨top, by simp [nextPos, hfold, hgt]⟩

/-! ## Bounded calls -/

/-- What the loop needs of the vector it is at: sorted, all positions behind the next one. -/
structure Ready (vector : Tsvector) (next : Int) : Prop where
  sorted : SortedMap.Sorted vector
  behind : vector.PositionsBelow next
  positive : 1 ≤ next

lemma Ready.insertLabel {next : Int} (h : vector.Ready next) (lexeme : Text)
    (weight : TsvectorWeight) : (vector.insertLabel lexeme next weight).Ready (next + 1) where
  sorted := SortedMap.sorted_insert h.sorted
  behind := positionsBelow_insertLabel h.behind lexeme weight
  positive := by
    have := h.positive
    omega

/-- The loop pays for what it adds. -/
lemma boundedLoop_spec (weight : TsvectorWeight) (lexemes : List Text) :
    ∀ next budget vector, Ready vector next → 0 ≤ budget →
      (∀ lexeme ∈ lexemes, ∀ c ∈ lexeme, Plain c) →
      next + (affordable (fitting lexemes) budget).length ≤ 10 ^ 7 →
      ∃ vector' r, boundedLoop weight lexemes next budget vector = some (vector', r) ∧
        SortedMap.Sorted vector' ∧ 0 ≤ r ∧ r ≤ budget ∧
        (byteLen vector'.render : Int) ≤ byteLen vector.render + (budget - r) := by
  induction lexemes with
  | nil =>
    intro next budget vector hready hbudget _ _
    exact ⟨vector, budget, rfl, hready.sorted, hbudget, Int.le_refl _, by omega⟩
  | cons lexeme lexemes ih =>
    intro next budget vector hready hbudget hplain hroom
    obtain ⟨hhead, htail⟩ := List.forall_mem_cons.mp hplain
    by_cases hlong : byteLen lexeme > maxLexemeBytes
    · rw [fitting_cons_of_gt hlong] at hroom
      rw [boundedLoop, if_pos hlong]
      exact ih next budget vector hready hbudget htail hroom
    · rw [fitting_cons_of_le (not_lt.mp hlong), affordable] at hroom
      rw [boundedLoop, if_neg hlong]
      by_cases hcost : lexemeCost lexeme > budget
      · rw [if_pos hcost]
        exact ⟨vector, budget, rfl, hready.sorted, hbudget, Int.le_refl _, by omega⟩
      · rw [if_neg hcost, List.length_cons] at hroom
        rw [if_neg hcost, increment_of_lt (by omega), Option.bind_some]
        have hgrow := byteLen_render_insertLabel hready.sorted hready.behind hready.positive
          (by omega) hhead weight
        have hpaid : 0 ≤ lexemeCost lexeme := by
          unfold lexemeCost
          omega
        obtain ⟨vector', r, hrun, hsorted, hr, hle, hrender⟩ := ih (next + 1)
          (budget - lexemeCost lexeme) _ (hready.insertLabel lexeme weight) (by omega) htail
          (by push_cast at hroom; omega)
        exact ⟨vector', r, hrun, hsorted, hr, by omega, by omega⟩

/-- The positions of the vector, and those that a bounded call gives, are below ten million. -/
structure Roomy (tables : Tables) (vector : Tsvector) (text : Text) (budget : Int) : Prop where
  present : vector.PositionsBelow (10 ^ 7)
  given : 0 < budget → ∀ next, vector.nextPos = some next →
    next + (affordable (fitting (tokenizeFlat tables text)) budget).length ≤ 10 ^ 7

/-- A bounded call leaves the vector alone, or pays for what it adds. -/
lemma addTextBounded_spec {sections : List (Nat × List Text)} {text : Text} {budget : Int}
    (weight : TsvectorWeight) (hsorted : SortedMap.Sorted vector)
    (hroom : vector.Roomy (goTables sections) text budget) :
    ∃ vector' r,
      vector.addTextBounded (goTables sections) text weight budget = some (vector', r) ∧
        SortedMap.Sorted vector' ∧
        (budget ≤ 0 ∧ r = budget ∧ vector' = vector ∨
          0 < budget ∧ 0 ≤ r ∧ r ≤ budget ∧
            (byteLen vector'.render : Int) ≤ byteLen vector.render + (budget - r)) := by
  by_cases hbudget : budget ≤ 0
  · exact ⟨vector, budget, if_pos hbudget, hsorted, .inl ⟨hbudget, rfl, rfl⟩⟩
  · obtain ⟨next, hnext⟩ := nextPos_returns hroom.present
    obtain ⟨hone, hbehind⟩ := nextPos_behind hnext
    obtain ⟨vector', r, hrun, hsorted', hpaid⟩ := boundedLoop_spec weight
      (tokenizeFlat (goTables sections) text) next budget vector ⟨hsorted, hbehind, hone⟩
      (by omega) (fun lexeme hlexeme => (tokenizeFlat_plain text lexeme hlexeme).2)
      (hroom.given (by omega) next hnext)
    refine ⟨vector', r, ?_, hsorted', .inr ⟨by omega, hpaid⟩⟩
    rw [addTextBounded, if_neg hbudget, hnext]
    exact hrun

/-! ## Calls one after another -/

/-- Texts that are added one after another, each with what is left of the budget. -/
def addTextsBounded (tables : Tables) :
    List (Text × TsvectorWeight) → Tsvector → Int → Option (Tsvector × Int)
  | [], vector, budget => some (vector, budget)
  | (text, weight) :: texts, vector, budget =>
    (vector.addTextBounded tables text weight budget).bind fun (vector', r) =>
      addTextsBounded tables texts vector' r

/-- The positions are below ten million in every call. -/
def RoomyAlong (tables : Tables) : List (Text × TsvectorWeight) → Tsvector → Int → Prop
  | [], _, _ => True
  | (text, weight) :: texts, vector, budget =>
    vector.Roomy tables text budget ∧
      ∀ vector' r, vector.addTextBounded tables text weight budget = some (vector', r) →
        RoomyAlong tables texts vector' r

/-- The budget pays for all calls; without one nothing is added. -/
lemma addTextsBounded_spec {sections : List (Nat × List Text)}
    (texts : List (Text × TsvectorWeight)) :
    ∀ (vector : Tsvector) budget, SortedMap.Sorted vector →
      RoomyAlong (goTables sections) texts vector budget →
      ∃ vector' r,
        addTextsBounded (goTables sections) texts vector budget = some (vector', r) ∧
          (budget ≤ 0 ∧ r = budget ∧ vector' = vector ∨
            0 < budget ∧ 0 ≤ r ∧ r ≤ budget ∧
              (byteLen vector'.render : Int) ≤ byteLen vector.render + (budget - r)) := by
  induction texts with
  | nil =>
    intro vector budget _ _
    refine ⟨vector, budget, rfl, ?_⟩
    by_cases hbudget : budget ≤ 0
    · exact .inl ⟨hbudget, rfl, rfl⟩
    · exact .inr ⟨by omega, by omega, Int.le_refl _, by omega⟩
  | cons call texts ih =>
    obtain ⟨text, weight⟩ := call
    intro vector budget hsorted ⟨hroom, hrest⟩
    obtain ⟨middle, left, hcall, hmiddle, hstep⟩ := addTextBounded_spec weight hsorted hroom
    obtain ⟨vector', r, hrun, htail⟩ := ih middle left hmiddle (hrest middle left hcall)
    refine ⟨vector', r, by rw [addTextsBounded, hcall]; exact hrun, ?_⟩
    -- A call without budget passes it on unchanged; one that spends all leaves the rest none.
    rcases hstep with ⟨hnone, rfl, rfl⟩ | ⟨hsome, hleft, hle, hgrow⟩
    · exact htail
    · rcases htail with ⟨-, rfl, rfl⟩ | ⟨-, hr, hle', hgrow'⟩
      · exact .inr ⟨hsome, hleft, hle, hgrow⟩
      · exact .inr ⟨hsome, hr, by omega, by omega⟩

/-- **The budget bounds what is written.**  A bounded call returns its budget and the vector as it
was, or pays for all that the written vector grows by; calls that pass on the remainder keep the
written vector within the first budget, where there is one. -/
theorem addTextBounded_within_budget (sections : List (Nat × List Text)) (vector : Tsvector)
    (hsorted : SortedMap.Sorted vector) (budget : Int) :
    (∀ text weight, vector.Roomy (goTables sections) text budget →
      ∃ vector' r,
        vector.addTextBounded (goTables sections) text weight budget = some (vector', r) ∧
          (budget ≤ 0 ∧ r = budget ∧ vector' = vector ∨
            0 < budget ∧ 0 ≤ r ∧ r ≤ budget ∧
              (byteLen vector'.render : Int) ≤ byteLen vector.render + (budget - r))) ∧
      ∀ texts, RoomyAlong (goTables sections) texts vector budget →
        ∃ vector' r,
          addTextsBounded (goTables sections) texts vector budget = some (vector', r) ∧
            (byteLen vector'.render : Int) ≤ byteLen vector.render + max budget 0 ∧
            (budget ≤ 0 → vector' = vector) := by
  constructor
  · intro text weight hroom
    obtain ⟨vector', r, hcall, -, hstep⟩ := addTextBounded_spec weight hsorted hroom
    exact ⟨vector', r, hcall, hstep⟩
  · intro texts hroom
    obtain ⟨vector', r, hrun, hall⟩ := addTextsBounded_spec texts vector budget hsorted hroom
    refine ⟨vector', r, hrun, ?_⟩
    have hmax : budget ≤ max budget 0 := Int.le_max_left ..
    have hzero : 0 ≤ max budget 0 := Int.le_max_right ..
    rcases hall with ⟨-, rfl, rfl⟩ | ⟨hsome, hr, hle, hgrow⟩
    · exact ⟨by omega, fun _ => rfl⟩
    · exact ⟨by omega, fun hnone => absurd hsome (by omega)⟩

/-- A budget of twenty-six pays for one of the two lexemes of a text: the written vector grows from
six bytes to fourteen, and twelve are left. -/
theorem addTextBounded_two_lexemes :
    (∃ vector' r,
      addTextBounded (goTables []) [(['x'], [(1, .a)])] "ab cd".toList .b 26 = some (vector', r) ∧
        (26 ≤ (0 : Int) ∧ r = 26 ∧ vector' = [(['x'], [(1, .a)])] ∨
          0 < (26 : Int) ∧ 0 ≤ r ∧ r ≤ 26 ∧
            (byteLen vector'.render : Int) ≤
              byteLen (render [(['x'], [(1, .a)])]) + (26 - r))) ∧
      ∃ vector' r,
        addTextsBounded (goTables []) [("ab cd".toList, .b)] [(['x'], [(1, .a)])] 26 =
            some (vector', r) ∧
          (byteLen vector'.render : Int) ≤ byteLen (render [(['x'], [(1, .a)])]) + max 26 0 ∧
          (26 ≤ (0 : Int) → vector' = [(['x'], [(1, .a)])]) := by
  have hwords : tokenizeFlat (goTables []) "ab cd".toList = ["ab".toList, "cd".toList] := by
    decide +kernel
  have hroom : Roomy (goTables []) [(['x'], [(1, .a)])] "ab cd".toList 26 := by
    refine ⟨by simp [PositionsBelow], fun _ next hnext => ?_⟩
    obtain rfl : (3 : Int) = next := by simpa [nextPos, raise, increment] using hnext
    rw [hwords]
    decide
  obtain ⟨hcall, hrun⟩ := addTextBounded_within_budget [] [(['x'], [(1, .a)])]
    (List.pairwise_singleton _ _) 26
  exact ⟨hcall _ _ hroom, hrun _ ⟨hroom, fun _ _ _ => trivial⟩⟩

/-- A budget below zero adds nothing, and what is there is longer than with the budget added. -/
theorem addTextsBounded_negative_budget :
    addTextsBounded (goTables []) [(['a'], .a)] [] (-1) = some ([], -1) ∧
      ¬ (byteLen (render []) : Int) ≤ byteLen (render []) + -1 := by
  decide

end Tsvector

end Bitmagnet.Fts
