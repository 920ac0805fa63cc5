import Mathlib.Data.Char
import Mathlib.Data.List.SplitBy
import Mathlib.Data.List.TakeWhile
import Bitmagnet.SearchServe.Refine

/-!
# The natural order of labels

`natural_cmp` of `facets.rs` compares two strings run by run, runs of digits by their number
and all others as texts.  Mixing the two is harmless because a run of digits and another run
differ in their first character: each run has a key in one linear order (`runKey`), and
comparing strings is comparing their lists of keys (`naturalCmp_eq`).

A string is the list of its characters; the order of `str` is that of its characters.
-/

namespace Bitmagnet.SearchQuery

open SearchServe (Text byteLen byteLen_digits)

attribute [local instance] lexOrd

/-! ## The comparison -/

/-- What `next_run` returns. -/
structure NextRun where
  run : Text
  rest : Text
  isDigit : Bool

/-- `next_run`, on a non-empty string, which it requires. -/
def nextRun (first : Char) (chars : Text) : NextRun where
  run := first :: chars.takeWhile (·.isDigit = first.isDigit)
  rest := chars.dropWhile (·.isDigit = first.isDigit)
  isDigit := first.isDigit

/-- What `numeric_run_cmp` compares of either run. -/
def significant (run : Text) : Text :=
  let run := run.dropWhile (· = '0')
  if run = [] then ['0'] else run

/-- `numeric_run_cmp`. -/
def numericRunCmp (left right : Text) : Ordering :=
  (compare (byteLen (significant left)) (byteLen (significant right))).then
    (compare (significant left) (significant right))

/-- `natural_cmp`. -/
def naturalCmp : Text → Text → Ordering
  | l :: ls, r :: rs =>
    let left := nextRun l ls
    let right := nextRun r rs
    let ordering :=
      if left.isDigit && right.isDigit then numericRunCmp left.run right.run
      else compare left.run right.run
    if ordering ≠ .eq then ordering else naturalCmp left.rest right.rest
  | left, right => compare (byteLen left) (byteLen right)
termination_by left => left.length
decreasing_by
  exact Nat.lt_succ_of_le (List.length_dropWhile_le ..)

/-! ## Runs -/

/-- The maximal runs of digits and of other characters. -/
def runs (text : Text) : List Text := text.splitBy fun a b => a.isDigit == b.isDigit

/-- The number a run of digits writes. -/
def runValue (run : Text) : Nat := Nat.ofDigitChars 10 run 0

/-- A run with a number in its canonical form. -/
def canonicalRun (run : Text) : Text :=
  if run.all Char.isDigit then Nat.toDigits 10 (runValue run) else run

/-- The text with every maximal run of digits replaced by its canonical numeral. -/
def canonical (text : Text) : Text := (runs text).flatMap canonicalRun

/-- Where a run stands among the runs: all numbers start with the same character here. -/
def runKey (run : Text) : Char × Nat × Text :=
  if run.all Char.isDigit then ('0', runValue run, []) else (run.headD '0', 0, run)

/-- A run of digits, or of other characters. -/
structure IsRun (isDigit : Bool) (run : Text) : Prop where
  ne_nil : run ≠ []
  all : ∀ c ∈ run, c.isDigit = isDigit

section Runs

variable {d : Bool} {run rest text : Text}

lemma IsRun.all_isDigit (h : IsRun d run) : run.all Char.isDigit = d := by
  obtain ⟨c, hc⟩ := List.exists_mem_of_ne_nil run h.ne_nil
  cases d with
  | true => exact List.all_eq_true.mpr h.all
  | false => exact List.all_eq_false.mpr ⟨c, hc, by simp [h.all c hc]⟩

lemma isRun_nextRun (first : Char) (chars : Text) :
    IsRun first.isDigit (nextRun first chars).run := by
  refine ⟨List.cons_ne_nil _ _, fun c hc => ?_⟩
  rcases List.mem_cons.mp hc with rfl | hc
  · rfl
  · simpa using List.mem_takeWhile_imp hc

lemma head_nextRun (first : Char) (chars : Text) :
    ∀ c ∈ (nextRun first chars).rest.head?, c.isDigit ≠ first.isDigit := by
  intro c hc
  have := List.head?_dropWhile_not (fun c : Char => c.isDigit = first.isDigit) chars
  rw [show (chars.dropWhile fun c => c.isDigit = first.isDigit).head? = some c from hc] at this
  exact of_decide_eq_false this

lemma runs_append (h : IsRun d run) (hrest : ∀ c ∈ rest.head?, c.isDigit ≠ d) :
    runs (run ++ rest) = run :: runs rest := by
  have hchain : run.IsChain fun a b => (a.isDigit == b.isDigit) = true :=
    (List.pairwise_of_forall_mem_list fun a ha b hb => by
      rw [h.all a ha, h.all b hb, beq_self_eq_true]).isChain
  rw [runs, List.splitBy_append, List.splitBy_of_isChain h.ne_nil hchain]
  · rfl
  · intro a ha b hb
    rw [h.all a (List.mem_of_getLast? ha)]
    exact beq_false_of_ne (hrest b hb).symm

lemma runs_cons (first : Char) (chars : Text) :
    runs (first :: chars) = (nextRun first chars).run :: runs (nextRun first chars).rest := by
  have hsplit : first :: chars = (nextRun first chars).run ++ (nextRun first chars).rest := by
    simp [nextRun]
  rw [hsplit, runs_append (isRun_nextRun _ _) (head_nextRun first chars)]

/-- Texts are built run by run. -/
@[elab_as_elim]
lemma runs_induction {motive : Text → Prop} (nil : motive [])
    (cons : ∀ first chars, motive (nextRun first chars).rest → motive (first :: chars))
    (text : Text) : motive text := by
  induction hn : text.length using Nat.strong_induction_on generalizing text with
  | _ n ih =>
    cases text with
    | nil => exact nil
    | cons first chars =>
      have hrest : (nextRun first chars).rest.length < n := by
        rw [← hn]
        exact Nat.lt_succ_of_le (List.length_dropWhile_le ..)
      exact cons first chars (ih _ hrest _ rfl)

lemma IsRun.canonicalRun (h : IsRun d run) : IsRun d (canonicalRun run) := by
  rw [SearchQuery.canonicalRun, h.all_isDigit]
  cases d with
  | true =>
    exact ⟨Nat.toDigits_ne_nil, fun c => Nat.isDigit_of_mem_toDigits (by decide) (by decide)⟩
  | false => exact h

lemma runKey_canonicalRun (h : IsRun d run) : runKey (canonicalRun run) = runKey run := by
  cases d with
  | true =>
    rw [runKey, if_pos h.canonicalRun.all_isDigit, runKey, if_pos h.all_isDigit, canonicalRun,
      if_pos h.all_isDigit, runValue, Nat.ofDigitChars_ten_toDigits]
  | false => rw [canonicalRun, h.all_isDigit, if_neg (by decide)]

lemma canonical_cons (first : Char) (chars : Text) :
    canonical (first :: chars) =
      canonicalRun (nextRun first chars).run ++ canonical (nextRun first chars).rest := by
  rw [canonical, runs_cons, List.flatMap_cons, canonical]

lemma head_canonical (h : ∀ c ∈ text.head?, c.isDigit ≠ d) :
    ∀ c ∈ (canonical text).head?, c.isDigit ≠ d := by
  cases text with
  | nil => simp [canonical, runs]
  | cons first chars =>
    have hrun := (isRun_nextRun first chars).canonicalRun
    intro c hc
    rw [canonical_cons, List.head?_append_of_ne_nil _ hrun.ne_nil] at hc
    rw [hrun.all c (List.mem_of_mem_head? hc)]
    exact h first rfl

/-- The keys of the runs of a text. -/
def keys (text : Text) : List (Char × Nat × Text) := (runs text).map runKey

lemma keys_cons (first : Char) (chars : Text) : keys (first :: chars) =
    runKey (nextRun first chars).run :: keys (nextRun first chars).rest := by
  rw [keys, runs_cons, List.map_cons, keys]

lemma keys_canonical (text : Text) : keys (canonical text) = keys text := by
  induction text using runs_induction with
  | nil => rfl
  | cons first chars ih =>
    have hrun := isRun_nextRun first chars
    rw [keys, keys] at ih
    rw [keys, canonical_cons, runs_append hrun.canonicalRun (head_canonical (head_nextRun _ _)),
      keys, runs_cons, List.map_cons, List.map_cons, runKey_canonicalRun hrun, ih]

/-- The keys tell the canonical form. -/
lemma keys_eq_iff {left right : Text} :
    keys left = keys right ↔ canonical left = canonical right := by
  have hcanonical : ∀ text, canonical text = (keys text).flatMap fun key =>
      if key.2.2 = [] then Nat.toDigits 10 key.2.1 else key.2.2 := by
    intro text
    rw [canonical, keys, List.flatMap_map]
    refine List.flatMap_congr fun run hrun => ?_
    rw [canonicalRun, runKey]
    split
    · rfl
    · exact (if_neg (List.ne_nil_of_mem_splitBy hrun)).symm
  constructor
  · intro h
    rw [hcanonical, hcanonical, h]
  · intro h
    rw [← keys_canonical, h, keys_canonical]

end Runs

/-! ## Numbers -/

section

variable {left right run : Text}

lemma runValue_cons (c : Char) (run : Text) :
    runValue (c :: run) = 10 ^ run.length * (c.toNat - 48) + runValue run := by
  rw [runValue, Nat.ofDigitChars_cons, Nat.ofDigitChars_eq_ofDigitChars_zero]
  simp [runValue]

lemma isDigit_iff {c : Char} : c.isDigit = true ↔ 48 ≤ c.toNat ∧ c.toNat ≤ 57 := by
  simp only [Char.isDigit, Bool.and_eq_true, decide_eq_true_eq, ge_iff_le, UInt32.le_iff_toNat_le]
  rfl

lemma lt_iff_toNat {a b : Char} : a < b ↔ a.toNat < b.toNat := by
  rw [Char.lt_def, UInt32.lt_iff_toNat_lt]
  rfl

lemma runValue_lt (h : ∀ c ∈ run, c.isDigit = true) : runValue run < 10 ^ run.length := by
  induction run with
  | nil => decide
  | cons c run ih =>
    have hc := isDigit_iff.mp (h c List.mem_cons_self)
    have hrun := ih fun c hc => h c (List.mem_cons_of_mem _ hc)
    rw [runValue_cons, List.length_cons, Nat.pow_succ]
    have := Nat.mul_le_mul_left (10 ^ run.length) (show c.toNat - 48 ≤ 9 by omega)
    omega

lemma compare_mul_add {b m m' n n' : Nat} (hn : n < b) (hn' : n' < b) :
    compare (b * m + n) (b * m' + n') = (compare m m').then (compare n n') := by
  rcases Nat.lt_trichotomy m m' with hlt | rfl | hgt
  · have := Nat.mul_le_mul_left b (Nat.succ_le_of_lt hlt)
    rw [Nat.compare_eq_lt.mpr hlt, Nat.compare_eq_lt.mpr (by rw [Nat.mul_succ] at this; omega)]
    rfl
  · rw [Nat.compare_eq_eq.mpr rfl, Ordering.eq_then]
    rcases Nat.lt_trichotomy n n' with hlt | rfl | hgt
    · rw [Nat.compare_eq_lt.mpr hlt, Nat.compare_eq_lt.mpr (by omega)]
    · rw [Nat.compare_eq_eq.mpr rfl, Nat.compare_eq_eq.mpr rfl]
    · rw [Nat.compare_eq_gt.mpr hgt, Nat.compare_eq_gt.mpr (by omega)]
  · have := Nat.mul_le_mul_left b (Nat.succ_le_of_lt hgt)
    rw [Nat.compare_eq_gt.mpr hgt, Nat.compare_eq_gt.mpr (by rw [Nat.mul_succ] at this; omega)]
    rfl

lemma compare_isDigit {a b : Char} (ha : a.isDigit = true) (hb : b.isDigit = true) :
    compare a b = compare (a.toNat - 48) (b.toNat - 48) := by
  have ha := isDigit_iff.mp ha
  have hb := isDigit_iff.mp hb
  rcases lt_trichotomy a b with hlt | rfl | hgt
  · have := lt_iff_toNat.mp hlt
    rw [compare_lt_iff_lt.mpr hlt, Nat.compare_eq_lt.mpr (by omega)]
  · rw [compare_eq_iff_eq.mpr rfl, Nat.compare_eq_eq.mpr rfl]
  · have := lt_iff_toNat.mp hgt
    rw [compare_gt_iff_gt.mpr hgt, Nat.compare_eq_gt.mpr (by omega)]

/-- Numerals of one length are in order as texts. -/
lemma compare_of_length_eq (hl : ∀ c ∈ left, c.isDigit = true)
    (hr : ∀ c ∈ right, c.isDigit = true) (hlength : left.length = right.length) :
    compare left right = compare (runValue left) (runValue right) := by
  induction left generalizing right with
  | nil =>
    cases List.length_eq_zero_iff.mp hlength.symm
    rfl
  | cons a left ih =>
    cases right with
    | nil => cases hlength
    | cons b right =>
      rw [List.forall_mem_cons] at hl hr
      have hlength : left.length = right.length := Nat.succ.inj hlength
      have hright := runValue_lt hr.2
      rw [← hlength] at hright
      rw [List.compare_cons_cons, ih hl.2 hr.2 hlength, compare_isDigit hl.1 hr.1, runValue_cons,
        runValue_cons, ← hlength, compare_mul_add (runValue_lt hl.2) hright]

/-- A longer numeral is a larger number, if it does not start with a zero. -/
lemma runValue_lt_of_length_lt {c : Char} (hl : ∀ c ∈ left, c.isDigit = true)
    (hc : c.isDigit = true) (hzero : c ≠ '0') (hlength : left.length ≤ right.length) :
    runValue left < runValue (c :: right) := by
  have hpos : 1 ≤ c.toNat - 48 := by
    have : c.toNat ≠ 48 := fun h => hzero (Char.ext (UInt32.toNat_inj.mp h))
    have := (isDigit_iff.mp hc).1
    omega
  calc
    runValue left < 10 ^ left.length := runValue_lt hl
    _ ≤ 10 ^ right.length * 1 := by
      rw [Nat.mul_one]
      exact Nat.pow_le_pow_right (by decide) hlength
    _ ≤ 10 ^ right.length * (c.toNat - 48) := Nat.mul_le_mul_left _ hpos
    _ ≤ runValue (c :: right) := by
      rw [runValue_cons]
      exact Nat.le_add_right _ _

lemma runValue_significant (run : Text) : runValue (significant run) = runValue run := by
  have hdrop : ∀ run, runValue (run.dropWhile (· = '0')) = runValue run := by
    intro run
    induction run with
    | nil => rfl
    | cons c run ih =>
      by_cases hc : c = '0'
      · rw [List.dropWhile_cons_of_pos (by simpa using hc), ih, runValue_cons, hc]
        simp
      · rw [List.dropWhile_cons_of_neg (by simpa using hc)]
  rw [← hdrop run, significant]
  split
  · rename_i hnil
    rw [hnil]
    rfl
  · rfl

/-- The compared text of a number is `0` or does not start with a zero. -/
lemma significant_cases (h : IsRun true run) : (∀ c ∈ significant run, c.isDigit = true) ∧
    ∃ c rest, significant run = c :: rest ∧ (c = '0' → rest = []) := by
  rw [significant]
  cases hdrop : run.dropWhile (· = '0') with
  | nil =>
    rw [if_pos rfl]
    exact ⟨List.forall_mem_singleton.mpr rfl, '0', [], rfl, fun _ => rfl⟩
  | cons c rest =>
    rw [if_neg (List.cons_ne_nil _ _), ← hdrop]
    refine ⟨fun c hc => h.all c (List.dropWhile_subset _ hc), c, rest, hdrop, fun hc => ?_⟩
    have := List.head?_dropWhile_not (fun c : Char => c = '0') run
    rw [hdrop] at this
    exact absurd hc (of_decide_eq_false this)

lemma runValue_lt_of_significant (hl : IsRun true left) (hr : IsRun true right)
    (hlength : (significant left).length < (significant right).length) :
    runValue left < runValue right := by
  obtain ⟨hleft, a, as, ha, -⟩ := significant_cases hl
  obtain ⟨hright, b, bs, hb, hzero⟩ := significant_cases hr
  rw [← runValue_significant left, ← runValue_significant right]
  rw [hb] at hlength hright ⊢
  refine runValue_lt_of_length_lt hleft (hright b List.mem_cons_self) (fun h => ?_)
    (Nat.le_of_lt_succ hlength)
  rw [ha, hzero h] at hlength
  simp at hlength

/-- **Runs of digits are compared by their numbers.** -/
lemma numericRunCmp_eq (hl : IsRun true left) (hr : IsRun true right) :
    numericRunCmp left right = compare (runValue left) (runValue right) := by
  have hleft := (significant_cases hl).1
  have hright := (significant_cases hr).1
  rw [numericRunCmp, byteLen_digits hleft, byteLen_digits hright]
  rcases Nat.lt_trichotomy (significant left).length (significant right).length with
    hlt | heq | hgt
  · rw [Nat.compare_eq_lt.mpr hlt, Nat.compare_eq_lt.mpr (runValue_lt_of_significant hl hr hlt)]
    rfl
  · rw [Nat.compare_eq_eq.mpr heq, compare_of_length_eq hleft hright heq, runValue_significant,
      runValue_significant]
    rfl
  · rw [Nat.compare_eq_gt.mpr hgt, Nat.compare_eq_gt.mpr (runValue_lt_of_significant hr hl hgt)]
    rfl

end

/-! ## The order -/

section

variable {d e : Bool} {left right : Text}

lemma compare_key (a b : Char) (m n : Nat) (s t : Text) : compare (a, m, s) (b, n, t) =
    (compare a b).then ((compare m n).then (compare s t)) := rfl

lemma runKey_number (h : IsRun true left) : runKey left = ('0', runValue left, []) :=
  if_pos h.all_isDigit

lemma runKey_text {c : Char} (h : IsRun false (c :: left)) :
    runKey (c :: left) = (c, 0, c :: left) :=
  if_neg (by simp [h.all_isDigit])

lemma compare_numbers (hl : IsRun true left) (hr : IsRun true right) :
    compare (runKey left) (runKey right) = compare (runValue left) (runValue right) := by
  rw [runKey_number hl, runKey_number hr, compare_key, compare_eq_iff_eq.mpr rfl, Ordering.eq_then]
  exact Ordering.then_eq

/-- A number and a text differ in their first character, and there all digits are alike. -/
lemma compare_number_text (hl : IsRun true left) (hr : IsRun false right) :
    compare (runKey left) (runKey right) = compare left right := by
  obtain ⟨a, left, rfl⟩ := List.exists_cons_of_ne_nil hl.ne_nil
  obtain ⟨b, right, rfl⟩ := List.exists_cons_of_ne_nil hr.ne_nil
  have ha := isDigit_iff.mp (hl.all a List.mem_cons_self)
  have hb : ¬ (48 ≤ b.toNat ∧ b.toNat ≤ 57) := by
    rw [← isDigit_iff, hr.all b List.mem_cons_self]
    decide
  rw [runKey_number hl, runKey_text hr, compare_key, List.compare_cons_cons]
  rcases Nat.lt_or_ge b.toNat 48 with hlt | hge
  · rw [compare_gt_iff_gt.mpr (lt_iff_toNat.mpr (show b.toNat < '0'.toNat from hlt)),
      compare_gt_iff_gt.mpr (lt_iff_toNat.mpr (show b.toNat < a.toNat by omega))]
    rfl
  · have hzero : '0'.toNat < b.toNat := show 48 < b.toNat by omega
    rw [compare_lt_iff_lt.mpr (lt_iff_toNat.mpr hzero),
      compare_lt_iff_lt.mpr (lt_iff_toNat.mpr (show a.toNat < b.toNat by omega))]
    rfl

lemma compare_texts (hl : IsRun false left) (hr : IsRun false right) :
    compare (runKey left) (runKey right) = compare left right := by
  obtain ⟨a, left, rfl⟩ := List.exists_cons_of_ne_nil hl.ne_nil
  obtain ⟨b, right, rfl⟩ := List.exists_cons_of_ne_nil hr.ne_nil
  rw [runKey_text hl, runKey_text hr, compare_key, List.compare_cons_cons]
  cases compare a b
  all_goals rfl

/-- The comparison of two runs is that of their keys. -/
lemma compare_runKey (hl : IsRun d left) (hr : IsRun e right) :
    (if d && e then numericRunCmp left right else compare left right) =
      compare (runKey left) (runKey right) := by
  cases d with
  | true =>
    cases e with
    | true => exact (numericRunCmp_eq hl hr).trans (compare_numbers hl hr).symm
    | false => exact (compare_number_text hl hr).symm
  | false =>
    cases e with
    | true =>
      rw [Std.OrientedOrd.eq_swap (a := runKey left), compare_number_text hr hl,
        ← Std.OrientedOrd.eq_swap]
      rfl
    | false => exact (compare_texts hl hr).symm

lemma naturalCmp_cons (l r : Char) (ls rs : Text) : naturalCmp (l :: ls) (r :: rs) =
    (compare (runKey (nextRun l ls).run) (runKey (nextRun r rs).run)).then
      (naturalCmp (nextRun l ls).rest (nextRun r rs).rest) := by
  have hthen : ∀ o o' : Ordering, (if o ≠ .eq then o else o') = o.then o' := by
    intro o o'
    cases o
    all_goals rfl
  rw [naturalCmp, hthen, ← compare_runKey (isRun_nextRun l ls) (isRun_nextRun r rs)]
  rfl

lemma byteLen_pos (c : Char) (text : Text) : byteLen [] < byteLen (c :: text) := by
  rw [SearchServe.byteLen_cons]
  exact Nat.lt_add_right _ c.utf8Size_pos

/-- **Comparing strings is comparing the keys of their runs.** -/
lemma naturalCmp_eq (left right : Text) :
    naturalCmp left right = compare (keys left) (keys right) := by
  induction left using runs_induction generalizing right with
  | nil =>
    cases right with
    | nil =>
      rw [naturalCmp, Nat.compare_eq_eq.mpr rfl]
      · rfl
      · simp
    | cons r rs =>
      rw [naturalCmp, keys_cons, Nat.compare_eq_lt.mpr (byteLen_pos r rs)]
      · rfl
      · simp
  | cons l ls ih =>
    cases right with
    | nil =>
      rw [naturalCmp, keys_cons, Nat.compare_eq_gt.mpr (byteLen_pos l ls)]
      · rfl
      · simp
    | cons r rs => rw [naturalCmp_cons, ih, keys_cons, keys_cons, List.compare_cons_cons]

lemma compare_append (shared left right : List (Char × Nat × Text)) :
    compare (shared ++ left) (shared ++ right) = compare left right := by
  induction shared with
  | nil => rfl
  | cons key shared ih =>
    rw [List.cons_append, List.cons_append, List.compare_cons_cons, Std.ReflOrd.compare_self, ih]
    rfl

lemma keys_append {before number after : Text} (hbefore : ∀ c ∈ before.getLast?, c.isDigit = false)
    (hnumber : IsRun true number) (hafter : ∀ c ∈ after.head?, c.isDigit = false) :
    keys (before ++ number ++ after) = keys before ++ runKey number :: keys after := by
  have hruns : runs (number ++ after) = number :: runs after :=
    runs_append hnumber fun c hc => by rw [hafter c hc]; decide
  rw [keys, runs, List.append_assoc, List.splitBy_append]
  · show (runs before ++ runs (number ++ after)).map runKey = _
    rw [hruns, List.map_append]
    rfl
  · intro a ha b hb
    rw [List.head?_append_of_ne_nil _ hnumber.ne_nil] at hb
    rw [hbefore a ha, hnumber.all b (List.mem_of_mem_head? hb)]
    rfl

/-- **The natural order**: reflexive, antisymmetric in sign and transitive; two strings are equal
in it if and only if their canonical forms are; and strings that agree before a run of digits
are in the order of the numbers there. -/
theorem naturalCmp_natural :
    (∀ text, naturalCmp text text = .eq) ∧
    (∀ left right, naturalCmp left right = (naturalCmp right left).swap) ∧
    (∀ a b c, (naturalCmp a b).isLE → (naturalCmp b c).isLE → (naturalCmp a c).isLE) ∧
    (∀ left right, naturalCmp left right = .eq ↔ canonical left = canonical right) ∧
    ∀ before before' number number' after after', canonical before = canonical before' →
      (∀ c ∈ before.getLast?, c.isDigit = false) → (∀ c ∈ before'.getLast?, c.isDigit = false) →
      IsRun true number → IsRun true number' →
      (∀ c ∈ after.head?, c.isDigit = false) → (∀ c ∈ after'.head?, c.isDigit = false) →
      runValue number ≠ runValue number' →
      naturalCmp (before ++ number ++ after) (before' ++ number' ++ after') =
        compare (runValue number) (runValue number') := by
  refine ⟨fun text => ?_, fun left right => ?_, fun a b c hab hbc => ?_, fun left right => ?_, ?_⟩
  · rw [naturalCmp_eq]
    exact Std.ReflOrd.compare_self
  · rw [naturalCmp_eq, naturalCmp_eq]
    exact Std.OrientedOrd.eq_swap
  · rw [naturalCmp_eq] at hab hbc ⊢
    exact Std.TransOrd.isLE_trans hab hbc
  · rw [naturalCmp_eq, Std.LawfulEqOrd.compare_eq_iff_eq, keys_eq_iff]
  · intro before before' number number' after after' hsame hb hb' hn hn' ha ha' hne
    have hdiffer : compare (runValue number) (runValue number') ≠ .eq :=
      fun h => hne (Nat.compare_eq_eq.mp h)
    rw [naturalCmp_eq, keys_append hb hn ha, keys_append hb' hn' ha', keys_eq_iff.mpr hsame,
      compare_append, List.compare_cons_cons, compare_numbers hn hn']
    cases hcompare : compare (runValue number) (runValue number') with
    | lt | gt => rfl
    | eq => exact absurd hcompare hdiffer

theorem naturalCmp_natural_episodes :
    naturalCmp "Part 9b".toList "Part 010a".toList = .lt :=
  naturalCmp_natural.2.2.2.2 "Part ".toList "Part ".toList ['9'] "010".toList ['b'] ['a'] rfl
    (by simp) (by simp) ⟨by simp, by simp⟩ ⟨by simp, by simp⟩ (by simp) (by simp) (by decide)

end

end Bitmagnet.SearchQuery
