import Mathlib.Data.Char
import Mathlib.Data.List.Lex
import Mathlib.Data.List.Forall2
import Mathlib.Data.List.Pairwise
import Bitmagnet.Library.SortedMap
import Bitmagnet.Fts.Tokenizer

/-!
# Text search vectors

`tsvector.rs`: a map from lexemes to the weights of their positions, to which texts are added.  Positions
are `i32`; an addition that leaves the range is a panic, here `none`.

The purpose of the positions is stated apart from the maps.  A call puts its lexemes on consecutive
positions, which is a `Run`; a vector is `Laid` out when what it holds is what its runs hold and the
runs keep apart.  Both calls add one run behind all others (`place_laid`), so every vector that calls
make is laid out by the runs of its calls, and a phrase, whose lexemes are adjacent, lies within one
of them.
-/

namespace Bitmagnet.Fts

open SearchServe (Text byteLen)

/-- `TsvectorWeight`. -/
inductive TsvectorWeight
  | a | b | c | d
  deriving DecidableEq

/-- `Tsvector`. -/
abbrev Tsvector := List (Text × List (Int × TsvectorWeight))

def maxLexemeBytes : Nat := 2046

/-- `+ 1` on an `i32`. -/
def increment (n : Int) : Option Int := if n < 2 ^ 31 - 1 then some (n + 1) else none

namespace Tsvector

/-- `entry(lexeme).or_default().insert(pos, weight)`. -/
def insertLabel (vector : Tsvector) (lexeme : Text) (pos : Int) (weight : TsvectorWeight) :
    Tsvector :=
  SortedMap.insert lexeme (SortedMap.insert pos weight ((vector.lookup lexeme).getD [])) vector

/-- One turn of the loops for the next position. -/
def raise (next pos : Int) : Option Int := if pos ≥ next then increment pos else some next

/-- The first position of a text: behind the highest one, with a gap. -/
def nextPos (vector : Tsvector) : Option Int := do
  let next ← vector.foldlM (fun next entry => (entry.2.map Prod.fst).foldlM raise next) 1
  if next > 1 then increment next else some next

/-- The loop of `add_text`. -/
def addLoop (weight : TsvectorWeight) : List Text → Int → Tsvector → Option Tsvector
  | [], _, vector => some vector
  | lexeme :: lexemes, next, vector =>
    if byteLen lexeme > maxLexemeBytes then addLoop weight lexemes next vector
    else (increment next).bind fun next' =>
      addLoop weight lexemes next' (vector.insertLabel lexeme next weight)

/-- `add_text`. -/
def addText (tables : Tables) (vector : Tsvector) (text : Text) (weight : TsvectorWeight) :
    Option Tsvector :=
  vector.nextPos.bind fun next => addLoop weight (tokenizeFlat tables text) next vector

/-- `tsvector_lexeme_cost`. -/
def lexemeCost (lexeme : Text) : Int := byteLen lexeme + 12

/-- The loop of `add_text_bounded`. -/
def boundedLoop (weight : TsvectorWeight) :
    List Text → Int → Int → Tsvector → Option (Tsvector × Int)
  | [], _, budget, vector => some (vector, budget)
  | lexeme :: lexemes, next, budget, vector =>
    if byteLen lexeme > maxLexemeBytes then boundedLoop weight lexemes next budget vector
    else if lexemeCost lexeme > budget then some (vector, budget)
    else (increment next).bind fun next' =>
      boundedLoop weight lexemes next' (budget - lexemeCost lexeme)
        (vector.insertLabel lexeme next weight)

/-- `add_text_bounded`. -/
def addTextBounded (tables : Tables) (vector : Tsvector) (text : Text) (weight : TsvectorWeight)
    (budget : Int) : Option (Tsvector × Int) :=
  if budget ≤ 0 then some (vector, budget)
  else vector.nextPos.bind fun next =>
    boundedLoop weight (tokenizeFlat tables text) next budget vector

end Tsvector

/-- A call that adds a text. -/
structure Call where
  text : Text
  weight : TsvectorWeight
  /-- of `add_text_bounded`; none for `add_text` -/
  budget : Option Int

/-- The vector behind a call. -/
def Call.apply (tables : Tables) (vector : Tsvector) (call : Call) : Option Tsvector :=
  match call.budget with
  | none => vector.addText tables call.text call.weight
  | some budget => (vector.addTextBounded tables call.text call.weight budget).map Prod.fst

/-! ## Runs of positions -/

/-- Lexemes on consecutive positions. -/
structure Run where
  start : Int
  lexemes : List Text
  weight : TsvectorWeight

namespace Run

/-- The run has the lexeme at the position. -/
def Holds (run : Run) (lexeme : Text) (pos : Int) : Prop :=
  ∃ i : Nat, run.lexemes[i]? = some lexeme ∧ pos = run.start + i

/-- Two positions of different runs are two apart. -/
def Apart (a b : Run) : Prop :=
  ∀ lexeme lexeme' pos pos', a.Holds lexeme pos → b.Holds lexeme' pos' → pos + 2 ≤ pos'

lemma Holds.unique {run : Run} {lexeme lexeme' : Text} {pos : Int} (h : run.Holds lexeme pos)
    (h' : run.Holds lexeme' pos) : lexeme = lexeme' := by
  obtain ⟨i, hi, rfl⟩ := h
  obtain ⟨j, hj, hpos⟩ := h'
  obtain rfl : i = j := by omega
  exact Option.some.inj (hi.symm.trans hj)

/-- Adjacent lexemes of a run stand next to each other in it. -/
lemma isInfix_of_holds {run : Run} {phrase : List Text} (pos : Int) (hne : phrase ≠ [])
    (h : ∀ (i : Nat) lexeme, phrase[i]? = some lexeme → run.Holds lexeme (pos + i)) :
    phrase <:+: run.lexemes := by
  obtain ⟨first, rest, rfl⟩ := List.exists_cons_of_ne_nil hne
  obtain ⟨k, hk, hpos⟩ := h 0 first rfl
  have hget : ∀ i lexeme, (first :: rest)[i]? = some lexeme →
      run.lexemes[k + i]? = some lexeme := by
    intro i lexeme hi
    obtain ⟨j, hj, hposj⟩ := h i lexeme hi
    obtain rfl : j = k + i := by
      push_cast at hpos hposj
      omega
    exact hj
  have hprefix : (first :: rest) <+: run.lexemes.drop k := by
    rw [List.prefix_iff_getElem?]
    intro i hi
    rw [List.getElem?_drop]
    exact hget i _ (List.getElem?_eq_getElem hi)
  exact hprefix.isInfix.trans (List.drop_suffix k run.lexemes).isInfix

end Run

/-! ## Vectors and their runs -/

namespace Tsvector

variable {vector vector' : Tsvector} {runs : List Run}

/-- The weight of a lexeme at a position. -/
def weightAt (vector : Tsvector) (lexeme : Text) (pos : Int) : Option TsvectorWeight :=
  (vector.lookup lexeme).bind (·.lookup pos)

/-- The vector has the lexeme at the position. -/
def Has (vector : Tsvector) (lexeme : Text) (pos : Int) : Prop :=
  (vector.weightAt lexeme pos).isSome

lemma weightAt_insertLabel (lexeme lexeme' : Text) (pos pos' : Int) (weight : TsvectorWeight) :
    (vector.insertLabel lexeme pos weight).weightAt lexeme' pos' =
      if lexeme' = lexeme ∧ pos' = pos then some weight else vector.weightAt lexeme' pos' := by
  unfold weightAt insertLabel
  rw [SortedMap.lookup_insert]
  by_cases hlexeme : lexeme' = lexeme
  · subst hlexeme
    rw [if_pos rfl, Option.bind_some, SortedMap.lookup_insert]
    by_cases hpos : pos' = pos
    · simp [hpos]
    · cases vector.lookup lexeme' <;> simp [hpos]
  · simp [hlexeme]

/-- **What a vector holds, by the runs of the calls that made it.** -/
structure Laid (vector : Tsvector) (runs : List Run) : Prop where
  weightAt_iff : ∀ lexeme pos weight, vector.weightAt lexeme pos = some weight ↔
    ∃ run ∈ runs, run.Holds lexeme pos ∧ run.weight = weight
  apart : runs.Pairwise Run.Apart
  positive : ∀ run ∈ runs, ∀ lexeme pos, run.Holds lexeme pos → 1 ≤ pos

variable {lexeme lexeme' : Text} {pos start : Int} {weight : TsvectorWeight}

lemma Laid.has_iff (h : vector.Laid runs) :
    vector.Has lexeme pos ↔ ∃ run ∈ runs, run.Holds lexeme pos := by
  rw [Has, Option.isSome_iff_exists]
  constructor
  · rintro ⟨weight, hweight⟩
    obtain ⟨run, hrun, hholds, -⟩ := (h.weightAt_iff ..).mp hweight
    exact ⟨run, hrun, hholds⟩
  · rintro ⟨run, hrun, hholds⟩
    exact ⟨run.weight, (h.weightAt_iff ..).mpr ⟨run, hrun, hholds, rfl⟩⟩

/-- Two runs that hold neighbouring positions are the same. -/
lemma Laid.same_run (h : vector.Laid runs) {a b : Run} (ha : a ∈ runs) (hb : b ∈ runs)
    {pos' : Int} (hholds : a.Holds lexeme pos) (hholds' : b.Holds lexeme' pos')
    (hnear : pos' ≤ pos + 1 ∧ pos ≤ pos' + 1) : a = b := by
  have hsymm : Std.Symm fun a b : Run => a = b ∨ a.Apart b ∨ b.Apart a :=
    ⟨fun a b hab => hab.imp Eq.symm Or.symm⟩
  have hsplit : a = b ∨ a.Apart b ∨ b.Apart a :=
    List.Pairwise.forall_of_forall (R := fun a b : Run => a = b ∨ a.Apart b ∨ b.Apart a)
      (fun a _ => .inl rfl) (h.apart.imp fun hab => .inr (.inl hab)) ha hb
  rcases hsplit with hab | hab | hba
  · exact hab
  · have := hab _ _ _ _ hholds hholds'
    omega
  · have := hba _ _ _ _ hholds' hholds
    omega

lemma Laid.unique (h : vector.Laid runs) (hhas : vector.Has lexeme pos)
    (hhas' : vector.Has lexeme' pos) : lexeme = lexeme' := by
  obtain ⟨a, ha, hholds⟩ := h.has_iff.mp hhas
  obtain ⟨b, hb, hholds'⟩ := h.has_iff.mp hhas'
  obtain rfl := h.same_run ha hb hholds hholds' (by omega)
  exact hholds.unique hholds'

/-- Lexemes at adjacent positions, as the operator `<->` asks. -/
def Matches (vector : Tsvector) (phrase : List Text) (pos : Int) : Prop :=
  ∀ (i : Nat) lexeme, phrase[i]? = some lexeme → vector.Has lexeme (pos + i)

/-- A phrase lies within one run: its first lexeme does, and each next one is too near to be in
another. -/
lemma Laid.isInfix_of_matches (h : vector.Laid runs) {phrase : List Text} (hne : phrase ≠ [])
    (hmatch : vector.Matches phrase pos) : ∃ run ∈ runs, phrase <:+: run.lexemes := by
  obtain ⟨first, rest, rfl⟩ := List.exists_cons_of_ne_nil hne
  obtain ⟨run, hrun, hfirst⟩ := h.has_iff.mp (hmatch 0 first rfl)
  refine ⟨run, hrun, Run.isInfix_of_holds pos hne ?_⟩
  intro i
  induction i with
  | zero =>
    intro lexeme hlexeme
    obtain rfl : first = lexeme := by simpa using hlexeme
    exact hfirst
  | succ i ih =>
    intro lexeme hlexeme
    have hlt : i < (first :: rest).length :=
      Nat.lt_of_succ_lt (List.getElem?_eq_some_iff.mp hlexeme).1
    have hprevious := ih _ (List.getElem?_eq_getElem hlt)
    obtain ⟨other, hother, hholds⟩ := h.has_iff.mp (hmatch (i + 1) lexeme hlexeme)
    obtain rfl := h.same_run hrun hother hprevious hholds (by push_cast; omega)
    exact hholds

/-! ## Calls -/

/-- Lexemes at the positions from one on. -/
def place (weight : TsvectorWeight) : List Text → Int → Tsvector → Option Tsvector
  | [], _, vector => some vector
  | lexeme :: lexemes, next, vector =>
    (increment next).bind fun next' =>
      place weight lexemes next' (vector.insertLabel lexeme next weight)

/-- The lexemes that `add_text` adds. -/
def fitting (lexemes : List Text) : List Text :=
  lexemes.filter fun lexeme => byteLen lexeme ≤ maxLexemeBytes

lemma fitting_cons_of_le (h : byteLen lexeme ≤ maxLexemeBytes) (lexemes : List Text) :
    fitting (lexeme :: lexemes) = lexeme :: fitting lexemes :=
  List.filter_cons_of_pos (by simpa using h)

lemma fitting_cons_of_gt (h : byteLen lexeme > maxLexemeBytes) (lexemes : List Text) :
    fitting (lexeme :: lexemes) = fitting lexemes :=
  List.filter_cons_of_neg (by simpa using h)

lemma addLoop_eq (weight : TsvectorWeight) (lexemes : List Text) :
    ∀ next vector, addLoop weight lexemes next vector =
      place weight (fitting lexemes) next vector := by
  induction lexemes with
  | nil => exact fun next vector => rfl
  | cons lexeme lexemes ih =>
    intro next vector
    by_cases hlong : byteLen lexeme > maxLexemeBytes
    · rw [addLoop, if_pos hlong, fitting_cons_of_gt hlong, ih]
    · rw [addLoop, if_neg hlong, fitting_cons_of_le (not_lt.mp hlong), place]
      simp only [ih]

/-- The lexemes that a budget pays for, up to the first that it does not. -/
def affordable : List Text → Int → List Text
  | [], _ => []
  | lexeme :: lexemes, budget =>
    if lexemeCost lexeme > budget then []
    else lexeme :: affordable lexemes (budget - lexemeCost lexeme)

lemma boundedLoop_eq (weight : TsvectorWeight) (lexemes : List Text) :
    ∀ next budget vector, (boundedLoop weight lexemes next budget vector).map Prod.fst =
      place weight (affordable (fitting lexemes) budget) next vector := by
  induction lexemes with
  | nil => exact fun next budget vector => rfl
  | cons lexeme lexemes ih =>
    intro next budget vector
    by_cases hlong : byteLen lexeme > maxLexemeBytes
    · rw [boundedLoop, if_pos hlong, fitting_cons_of_gt hlong, ih]
    · rw [boundedLoop, if_neg hlong, fitting_cons_of_le (not_lt.mp hlong), affordable]
      by_cases hcost : lexemeCost lexeme > budget
      · rw [if_pos hcost, if_pos hcost]
        rfl
      · rw [if_neg hcost, if_neg hcost, place, Option.map_bind]
        simp only [Function.comp_def, ih]

lemma affordable_initial (lexemes : List Text) :
    ∀ budget, affordable lexemes budget <+: lexemes := by
  induction lexemes with
  | nil => exact fun budget => List.prefix_refl _
  | cons lexeme lexemes ih =>
    intro budget
    rw [affordable]
    split
    · exact List.nil_prefix
    · exact List.prefix_cons_inj lexeme |>.mpr (ih _)

/-! ## Where a text starts -/

lemma increment_eq_some {n m : Int} (h : increment n = some m) : m = n + 1 := by
  unfold increment at h
  split at h
  · exact (Option.some.inj h).symm
  · cases h

lemma raise_spec {next n : Int} (h : raise next pos = some n) : next ≤ n ∧ pos + 1 ≤ n := by
  unfold raise at h
  split at h
  · have := increment_eq_some h
    omega
  · have := Option.some.inj h
    omega

/-- A loop that only raises ends above where it started and above all it has seen. -/
lemma foldlM_raise {α : Type} {f : Int → α → Option Int} (positions : α → List Int)
    (hf : ∀ next a n, f next a = some n → next ≤ n ∧ ∀ pos ∈ positions a, pos + 1 ≤ n)
    (as : List α) : ∀ {next n : Int}, as.foldlM f next = some n →
      next ≤ n ∧ ∀ a ∈ as, ∀ pos ∈ positions a, pos + 1 ≤ n := by
  induction as with
  | nil =>
    intro next n h
    obtain rfl : next = n := by simpa using h
    exact ⟨le_refl _, by simp⟩
  | cons a as ih =>
    intro next n h
    rw [List.foldlM_cons] at h
    obtain ⟨middle, hfirst, hrest⟩ := Option.bind_eq_some_iff.mp h
    obtain ⟨hnext, hhead⟩ := hf next a middle hfirst
    obtain ⟨hmiddle, htail⟩ := ih hrest
    refine ⟨hnext.trans hmiddle, List.forall_mem_cons.mpr ⟨?_, htail⟩⟩
    exact fun pos hpos => (hhead pos hpos).trans hmiddle

lemma mem_of_has (h : vector.Has lexeme pos) : ∃ entry ∈ vector, pos ∈ entry.2.map Prod.fst := by
  obtain ⟨weight, hweight⟩ := Option.isSome_iff_exists.mp h
  obtain ⟨labels, hlabels, hpos⟩ := Option.bind_eq_some_iff.mp hweight
  obtain ⟨before, after, rfl, -⟩ := List.lookup_eq_some_iff.mp hlabels
  obtain ⟨before', after', rfl, -⟩ := List.lookup_eq_some_iff.mp hpos
  exact ⟨(lexeme, before' ++ (pos, weight) :: after'), by simp, by simp⟩

/-- **A text starts at one, or two behind every position that is there.** -/
lemma nextPos_cases {next : Int} (h : vector.nextPos = some next) :
    ∃ top, 1 ≤ top ∧ (∀ entry ∈ vector, ∀ pos ∈ entry.2.map Prod.fst, pos + 1 ≤ top) ∧
      next = if top > 1 then top + 1 else top := by
  obtain ⟨top, htop, hnext⟩ := Option.bind_eq_some_iff.mp h
  obtain ⟨hone, habove⟩ := foldlM_raise (fun entry => entry.2.map Prod.fst)
    (fun next entry n hn => by
      obtain ⟨hle, hall⟩ := foldlM_raise (fun pos => [pos])
        (fun next pos n hn => by simpa using raise_spec hn) (entry.2.map Prod.fst) hn
      exact ⟨hle, fun pos hpos => hall pos hpos pos (by simp)⟩) vector htop
  refine ⟨top, hone, habove, ?_⟩
  split at hnext
  · rw [if_pos ‹_›, increment_eq_some hnext]
  · rw [if_neg ‹_›]
    exact (Option.some.inj hnext).symm

lemma nextPos_spec {next : Int} (hpositive : ∀ lexeme pos, vector.Has lexeme pos → 1 ≤ pos)
    (h : vector.nextPos = some next) :
    1 ≤ next ∧ ∀ lexeme pos, vector.Has lexeme pos → pos + 2 ≤ next := by
  obtain ⟨top, hone, habove, rfl⟩ := nextPos_cases h
  refine ⟨by omega, fun lexeme pos hpos => ?_⟩
  obtain ⟨entry, hentry, hmem⟩ := mem_of_has hpos
  have := habove entry hentry pos hmem
  have := hpositive lexeme pos hpos
  omega

/-! ## What a call adds -/

lemma holds_concat {done : List Text} :
    (Run.mk start (done ++ [lexeme]) weight).Holds lexeme' pos ↔
      (Run.mk start done weight).Holds lexeme' pos ∨
        lexeme' = lexeme ∧ pos = start + done.length := by
  constructor
  · rintro ⟨i, hi, hpos⟩
    simp only at hi hpos
    rcases Nat.lt_trichotomy i done.length with hlt | rfl | hgt
    · rw [List.getElem?_append_left hlt] at hi
      exact .inl ⟨i, hi, hpos⟩
    · rw [List.getElem?_concat_length] at hi
      exact .inr ⟨(Option.some.inj hi).symm, hpos⟩
    · rw [List.getElem?_eq_none (by rw [List.length_append, List.length_singleton]; omega)] at hi
      cases hi
  · rintro (⟨i, hi, hpos⟩ | ⟨rfl, rfl⟩)
    · have hlt := (List.getElem?_eq_some_iff.mp hi).1
      exact ⟨i, by rw [List.getElem?_append_left hlt]; exact hi, hpos⟩
    · exact ⟨done.length, List.getElem?_concat_length .., rfl⟩

/-- One more lexeme behind a run that is the last. -/
lemma Laid.concat {done : List Text} (h : vector.Laid (runs ++ [⟨start, done, weight⟩]))
    (hstart : 1 ≤ start)
    (hbehind : ∀ run ∈ runs, ∀ lexeme pos, run.Holds lexeme pos → pos + 2 ≤ start) (lexeme : Text) :
    (vector.insertLabel lexeme (start + done.length) weight).Laid
      (runs ++ [⟨start, done ++ [lexeme], weight⟩]) where
  weightAt_iff lexeme' pos weight' := by
    rw [weightAt_insertLabel]
    simp only [List.mem_append, List.mem_singleton, or_and_right, exists_or, exists_eq_left,
      holds_concat]
    have hold := h.weightAt_iff lexeme' pos weight'
    simp only [List.mem_append, List.mem_singleton, or_and_right, exists_or, exists_eq_left] at hold
    by_cases hnew : lexeme' = lexeme ∧ pos = start + done.length
    · -- Nothing was at the new position: the older runs end before it, and so does this one.
      rw [if_pos hnew]
      have hfresh : ¬ ∃ run ∈ runs, run.Holds lexeme' pos ∧ run.weight = weight' := by
        rintro ⟨run, hrun, hholds, -⟩
        have := hbehind run hrun _ _ hholds
        omega
      have hlast : ¬ (Run.mk start done weight).Holds lexeme' pos := by
        rintro ⟨i, hi, hpos⟩
        have := (List.getElem?_eq_some_iff.mp hi).1
        simp only at this hpos
        omega
      rw [Option.some.injEq]
      constructor
      · exact fun hweight => .inr (.inr ⟨hnew, hweight⟩)
      · rintro (hrun | ⟨hholds, -⟩ | ⟨-, hweight⟩)
        exacts [absurd hrun hfresh, absurd hholds hlast, hweight]
    · rw [if_neg hnew, hold]
      simp [hnew]
  apart := by
    rw [List.pairwise_append]
    obtain ⟨hruns, -, -⟩ := List.pairwise_append.mp h.apart
    refine ⟨hruns, List.pairwise_singleton _ _, ?_⟩
    intro run hrun last hlast
    obtain rfl := List.mem_singleton.mp hlast
    rintro lexeme lexeme' pos pos' hholds ⟨i, -, hpos'⟩
    have := hbehind run hrun _ _ hholds
    simp only at hpos'
    omega
  positive := by
    intro run hrun lexeme' pos hholds
    rcases List.mem_append.mp hrun with hrun | hrun
    · exact h.positive run (List.mem_append_left _ hrun) _ _ hholds
    · obtain rfl := List.mem_singleton.mp hrun
      obtain ⟨i, -, hpos⟩ := hholds
      simp only at hpos
      omega

lemma Laid.place_from (hstart : 1 ≤ start)
    (hbehind : ∀ run ∈ runs, ∀ lexeme pos, run.Holds lexeme pos → pos + 2 ≤ start)
    (lexemes : List Text) : ∀ {vector : Tsvector} {done : List Text},
      vector.Laid (runs ++ [⟨start, done, weight⟩]) →
      place weight lexemes (start + done.length) vector = some vector' →
      vector'.Laid (runs ++ [⟨start, done ++ lexemes, weight⟩]) := by
  induction lexemes with
  | nil =>
    intro vector done h hplace
    obtain rfl := Option.some.inj hplace
    simpa using h
  | cons lexeme lexemes ih =>
    intro vector done h hplace
    obtain ⟨next, hnext, hrest⟩ := Option.bind_eq_some_iff.mp hplace
    obtain rfl := increment_eq_some hnext
    have hlength : start + done.length + 1 = start + ((done ++ [lexeme]).length : Int) := by
      simp
      omega
    rw [hlength] at hrest
    have hall := ih (h.concat hstart hbehind lexeme) hrest
    rwa [List.append_assoc] at hall

/-- An empty run holds nothing. -/
lemma Laid.addEmpty (h : vector.Laid runs) (start : Int) (weight : TsvectorWeight) :
    vector.Laid (runs ++ [⟨start, [], weight⟩]) where
  weightAt_iff lexeme pos weight' := by
    rw [h.weightAt_iff]
    simp [or_and_right, exists_or, Run.Holds]
  apart := by
    rw [List.pairwise_append]
    refine ⟨h.apart, List.pairwise_singleton _ _, ?_⟩
    intro run _ last hlast
    obtain rfl := List.mem_singleton.mp hlast
    rintro _ _ _ _ - ⟨i, hi, -⟩
    cases hi
  positive := by
    intro run hrun lexeme pos hholds
    rcases List.mem_append.mp hrun with hrun | hrun
    · exact h.positive run hrun _ _ hholds
    · obtain rfl := List.mem_singleton.mp hrun
      obtain ⟨i, hi, -⟩ := hholds
      cases hi

/-- **Lexemes placed from the next position on are one more run.** -/
lemma Laid.place (h : vector.Laid runs) {lexemes : List Text} (hstart : vector.nextPos = some start)
    (hplace : Tsvector.place weight lexemes start vector = some vector') :
    vector'.Laid (runs ++ [⟨start, lexemes, weight⟩]) := by
  obtain ⟨hone, hbehind⟩ := nextPos_spec (fun lexeme pos hpos => by
    obtain ⟨run, hrun, hholds⟩ := h.has_iff.mp hpos
    exact h.positive run hrun _ _ hholds) hstart
  refine Laid.place_from hone (fun run hrun lexeme pos hholds => ?_) lexemes
    (h.addEmpty start weight) (by simpa using hplace)
  exact hbehind lexeme pos (h.has_iff.mpr ⟨run, hrun, hholds⟩)

lemma laid_nil : Laid [] [] where
  weightAt_iff lexeme pos weight := by simp [weightAt]
  apart := List.Pairwise.nil
  positive := by simp

end Tsvector

open Tsvector

namespace Call

/-- The lexemes that a call adds. -/
def kept (tables : Tables) (call : Call) : List Text :=
  let lexemes := fitting (tokenizeFlat tables call.text)
  match call.budget with
  | none => lexemes
  | some budget => if budget ≤ 0 then [] else affordable lexemes budget

lemma kept_sublist (tables : Tables) (call : Call) :
    (call.kept tables).Sublist (tokenizeFlat tables call.text) := by
  have hfitting : (fitting (tokenizeFlat tables call.text)).Sublist (tokenizeFlat tables call.text) :=
    List.filter_sublist
  unfold kept
  split
  · exact hfitting
  · split
    · exact List.nil_sublist _
    · exact (affordable_initial _ _).sublist.trans hfitting

/-- A call that returns adds its lexemes as one run. -/
lemma apply_laid {tables : Tables} {call : Call} {vector vector' : Tsvector} {runs : List Run}
    (h : vector.Laid runs) (happly : call.apply tables vector = some vector') :
    ∃ start, vector'.Laid (runs ++ [⟨start, call.kept tables, call.weight⟩]) := by
  unfold Call.apply at happly
  unfold kept
  split at happly
  · obtain ⟨start, hstart, hloop⟩ := Option.bind_eq_some_iff.mp happly
    rw [addLoop_eq] at hloop
    exact ⟨start, h.place hstart hloop⟩
  · rename_i budget _
    unfold addTextBounded at happly
    split at happly
    · rename_i hspent
      obtain rfl := Option.some.inj happly
      exact ⟨0, by simpa [hspent] using h.addEmpty 0 call.weight⟩
    · rename_i hpositive
      rw [Option.map_bind] at happly
      obtain ⟨start, hstart, hloop⟩ := Option.bind_eq_some_iff.mp happly
      simp only [Function.comp_apply, boundedLoop_eq] at hloop
      exact ⟨start, by simpa [hpositive] using h.place hstart hloop⟩

end Call

/-- A call's run: its lexemes, all with its weight. -/
def Run.Of (tables : Tables) (call : Call) (run : Run) : Prop :=
  run.lexemes = call.kept tables ∧ run.weight = call.weight

lemma calls_laid {tables : Tables} (calls : List Call) : ∀ {vector vector' : Tsvector}
    {runs : List Run}, vector.Laid runs → calls.foldlM (fun vector call => call.apply tables vector)
      vector = some vector' →
      ∃ added, List.Forall₂ (fun call run => run.Of tables call) calls added ∧
        vector'.Laid (runs ++ added) := by
  induction calls with
  | nil =>
    intro vector vector' runs h hcalls
    obtain rfl : vector = vector' := by simpa using hcalls
    exact ⟨[], .nil, by simpa using h⟩
  | cons call calls ih =>
    intro vector vector' runs h hcalls
    rw [List.foldlM_cons] at hcalls
    obtain ⟨next, hnext, hrest⟩ := Option.bind_eq_some_iff.mp hcalls
    obtain ⟨start, hlaid⟩ := Call.apply_laid h hnext
    obtain ⟨added, hadded, hall⟩ := ih hlaid hrest
    rw [List.append_assoc] at hall
    exact ⟨_, .cons ⟨rfl, rfl⟩ hadded, hall⟩

/-- **Texts do not meet in a vector.**  After any calls every one of them has a run: its lexemes, in
the order of its tokens, at positions that go up by one.  The vector holds what the runs hold,
positions of two runs are two apart, a position has one lexeme, and adjacent lexemes that match lie
next to each other in the lexemes of one call. -/
theorem addTexts_isolates (tables : Tables) (calls : List Call) (vector : Tsvector)
    (h : calls.foldlM (fun vector call => call.apply tables vector) [] = some vector) :
    ∃ runs : List Run,
      List.Forall₂ (fun call run => run.Of tables call ∧
        run.lexemes.Sublist (tokenizeFlat tables call.text)) calls runs ∧
      (∀ lexeme pos weight, vector.weightAt lexeme pos = some weight ↔
        ∃ run ∈ runs, run.Holds lexeme pos ∧ run.weight = weight) ∧
      runs.Pairwise Run.Apart ∧
      (∀ lexeme lexeme' pos, vector.Has lexeme pos → vector.Has lexeme' pos → lexeme = lexeme') ∧
      ∀ phrase pos, phrase ≠ [] → vector.Matches phrase pos →
        ∃ run ∈ runs, phrase <:+: run.lexemes := by
  obtain ⟨runs, hruns, hlaid⟩ := calls_laid calls laid_nil h
  rw [List.nil_append] at hlaid
  refine ⟨runs, hruns.imp fun call run hof => ⟨hof, ?_⟩, hlaid.weightAt_iff, hlaid.apart,
    fun lexeme lexeme' pos => hlaid.unique, fun phrase pos => hlaid.isInfix_of_matches⟩
  rw [hof.1]
  exact call.kept_sublist tables

/-- The tables for lower-case ASCII words. -/
def asciiTables : Tables := ⟨[(48, 57), (97, 122)], [], []⟩

/-- Two texts, the second with a budget for one lexeme. -/
theorem addTexts_isolates_matrix :
    ∃ vector, [⟨"the matrix".toList, .a, none⟩, ⟨"the end".toList, .d, some 20⟩].foldlM
        (fun vector call => Call.apply asciiTables vector call) [] = some vector ∧
      vector = [("matrix".toList, [(2, .a)]), ("the".toList, [(1, .a), (4, .d)])] ∧
      ∀ phrase pos, phrase ≠ [] → vector.Matches phrase pos →
        phrase <:+: ["the".toList, "matrix".toList] ∨ phrase <:+: ["the".toList] := by
  refine ⟨_, by decide +kernel, rfl, ?_⟩
  obtain ⟨runs, hruns, -, -, -, hphrase⟩ := addTexts_isolates asciiTables
    [⟨"the matrix".toList, .a, none⟩, ⟨"the end".toList, .d, some 20⟩]
    [("matrix".toList, [(2, .a)]), ("the".toList, [(1, .a), (4, .d)])] (by decide +kernel)
  intro phrase pos hne hmatch
  obtain ⟨run, hrun, hinfix⟩ := hphrase phrase pos hne hmatch
  obtain ⟨first, second, rfl, hfirst, hsecond⟩ : ∃ first second, runs = [first, second] ∧
      first.lexemes = Call.kept asciiTables ⟨"the matrix".toList, .a, none⟩ ∧
      second.lexemes = Call.kept asciiTables ⟨"the end".toList, .d, some 20⟩ := by
    obtain _ | ⟨hfirst, hrest⟩ := hruns
    obtain _ | ⟨hsecond, hnil⟩ := hrest
    cases hnil
    exact ⟨_, _, rfl, hfirst.1.1, hsecond.1.1⟩
  rcases List.mem_pair.mp hrun with rfl | rfl
  · rw [hfirst] at hinfix
    exact .inl hinfix
  · rw [hsecond] at hinfix
    exact .inr hinfix

end Bitmagnet.Fts
