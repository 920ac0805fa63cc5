import Bitmagnet.Fts.Query

/-!
# What compiling a query costs

`tokens_to_tsquery` calls itself on a copy of the tokens between two brackets.  `tokensLoopCost`
counts along its recursion how many tokens `collect_parens` clones and how many calls are open at
once.

Both are read off the input in one scan that counts the open brackets.  Every bracket that is open
around a token costs one copy of it, so the copies are the sum of these numbers
(`clonesFrom`), and the calls are one more than the largest of them (`nestingFrom`).  No bracket is
free: the copies grow with the square of the input when it only opens brackets.
-/

namespace Bitmagnet.Fts

open SearchServe (Text)

/-! ## Cost of a run -/

/-- Tokens cloned, and calls open at once. -/
structure Cost where
  clones : Nat
  depth : Nat
deriving DecidableEq

variable (tables : Tables)

/-- The cost of the loop of `tokens_to_tsquery`, and of the calls it makes. -/
def tokensLoopCost : List QToken → Cost
  | [] => ⟨0, 1⟩
  | .quoted value :: rest | .phrase value :: rest =>
    have := length_skipWildcard rest
    if tokenizeFlat tables value = [] then tokensLoopCost rest
    else tokensLoopCost (skipWildcard rest)
  | .openParens :: rest =>
    let inner := collectParens 1 rest
    have := length_collectParens 1 rest
    let call := tokensLoopCost inner
    let rest' := rest.drop inner.length
    have := length_skipWildcard rest'
    let later :=
      if joinWith [' '] (tokensLoop tables {} inner).parts = [] then tokensLoopCost rest'
      else tokensLoopCost (skipWildcard rest')
    ⟨inner.length + call.clones + later.clones, max (call.depth + 1) later.depth⟩
  | _ :: rest => tokensLoopCost rest
termination_by tokens => tokens.length
decreasing_by all_goals grind

/-- The cost of `app_query_to_tsquery`. -/
def appQueryCost (raw : Text) : Cost := tokensLoopCost tables (lexAppQuery tables raw)

/-! ## Open brackets -/

/-- The brackets open behind a token, when `depth` are open before it. -/
def depthBehind (depth : Nat) : QToken → Nat
  | .openParens => depth + 1
  | .closeParens => depth - 1
  | _ => depth

/-- The sum of the brackets open around each token. -/
def clonesFrom : Nat → List QToken → Nat
  | _, [] => 0
  | depth, token :: rest =>
    min depth (depthBehind depth token) + clonesFrom (depthBehind depth token) rest

/-- The largest number of brackets open at once. -/
def nestingFrom : Nat → List QToken → Nat
  | depth, [] => depth
  | depth, token :: rest => max depth (nestingFrom (depthBehind depth token) rest)

lemma depthBehind_eq {token : QToken} (hopen : token = .openParens → False)
    (hclose : token = .closeParens → False) (depth : Nat) : depthBehind depth token = depth := by
  cases token <;> first | rfl | exact (hopen rfl).elim | exact (hclose rfl).elim

-- By the recursion of `collect_parens`: the bracket that it started behind is open around every
-- token it collects, and closed behind them.
lemma costs_collectParens (depth : Nat) (rest : List QToken) (h : 0 < depth) :
    clonesFrom depth rest =
      (collectParens depth rest).length + clonesFrom (depth - 1) (collectParens depth rest) +
        clonesFrom 0 (rest.drop (collectParens depth rest).length) ∧
    nestingFrom depth rest =
      max (nestingFrom (depth - 1) (collectParens depth rest) + 1)
        (nestingFrom 0 (rest.drop (collectParens depth rest).length)) := by
  fun_induction collectParens depth rest with
  | case1 =>
    refine ⟨rfl, ?_⟩
    simp only [nestingFrom, List.drop_nil]
    omega
  | case2 depth rest ih =>
    have hrest := ih (Nat.succ_pos depth)
    simp only [clonesFrom, nestingFrom, depthBehind, List.length_cons, List.drop_succ_cons,
      Nat.add_sub_cancel] at hrest ⊢
    rw [Nat.sub_add_cancel h]
    omega
  | case3 rest => simp [clonesFrom, nestingFrom, depthBehind]
  | case4 depth rest hne ih =>
    have hrest := ih (by omega)
    simp only [clonesFrom, nestingFrom, depthBehind, List.length_cons,
      List.drop_succ_cons] at hrest ⊢
    omega
  | case5 depth token rest hopen hclose ih =>
    have hrest := ih h
    have hbehind := depthBehind_eq hopen hclose
    simp only [clonesFrom, nestingFrom, hbehind, List.length_cons, List.drop_succ_cons] at hrest ⊢
    omega

/-! ## The cost is that of the open brackets -/

/-- The cost as the scan counts it. -/
def scanCost (tokens : List QToken) : Cost := ⟨clonesFrom 0 tokens, nestingFrom 0 tokens + 1⟩

/-- Outside brackets, a token that opens none costs nothing. -/
lemma scanCost_cons (token : QToken) (h : token = .openParens → False) (rest : List QToken) :
    scanCost (token :: rest) = scanCost rest := by
  have hbehind : depthBehind 0 token = 0 := by
    cases token <;> first | rfl | exact (h rfl).elim
  simp [scanCost, clonesFrom, nestingFrom, hbehind]

lemma scanCost_skipWildcard (rest : List QToken) :
    scanCost (skipWildcard rest) = scanCost rest := by
  unfold skipWildcard
  split
  · next rest => exact (scanCost_cons .wildcard nofun rest).symm
  · rfl

lemma scanCost_openParens (rest : List QToken) :
    scanCost (.openParens :: rest) =
      ⟨(collectParens 1 rest).length + (scanCost (collectParens 1 rest)).clones +
          (scanCost (rest.drop (collectParens 1 rest).length)).clones,
        max ((scanCost (collectParens 1 rest)).depth + 1)
          (scanCost (rest.drop (collectParens 1 rest).length)).depth⟩ := by
  obtain ⟨hclones, hnesting⟩ := costs_collectParens 1 rest Nat.one_pos
  rw [Nat.sub_self] at hclones hnesting
  simp only [scanCost, clonesFrom, nestingFrom, depthBehind, Cost.mk.injEq, Nat.zero_add]
  exact ⟨by omega, by omega⟩

/-- **The cost of a run**, by the brackets open around its tokens. -/
lemma tokensLoopCost_eq (tokens : List QToken) :
    tokensLoopCost tables tokens = scanCost tokens := by
  fun_induction tokensLoopCost tables tokens with
  | case1 => rfl
  | case2 value rest _ _ ih | case4 value rest _ _ ih =>
    rw [ih, scanCost_cons]
    exact nofun
  | case3 value rest _ _ ih | case5 value rest _ _ ih =>
    rw [ih, scanCost_skipWildcard, scanCost_cons]
    exact nofun
  | case6 rest inner _ call rest' _ later ihInner ihRest ihSkip =>
    have hlater : later = scanCost rest' := by
      simp only [later, ihRest, ihSkip, scanCost_skipWildcard, dite_eq_ite, ite_self]
    rw [scanCost_openParens, hlater, show call = scanCost inner from ihInner]
  | case7 token rest _ _ hopen ih => rw [ih, scanCost_cons token hopen]

/-! ## Bounds -/

lemma clonesFrom_le (depth : Nat) (tokens : List QToken) :
    clonesFrom depth tokens ≤ nestingFrom depth tokens * tokens.length := by
  induction tokens generalizing depth with
  | nil => exact Nat.zero_le _
  | cons token rest ih =>
    have hrest := ih (depthBehind depth token)
    simp only [clonesFrom, nestingFrom, List.length_cons]
    have hfirst := Nat.min_le_left depth (depthBehind depth token)
    have hmul : nestingFrom (depthBehind depth token) rest * rest.length ≤
        max depth (nestingFrom (depthBehind depth token) rest) * rest.length :=
      Nat.mul_le_mul_right _ (Nat.le_max_right _ _)
    have hmax := Nat.le_max_left depth (nestingFrom (depthBehind depth token) rest)
    rw [Nat.mul_succ]
    omega

lemma nestingFrom_le (depth : Nat) (tokens : List QToken) :
    nestingFrom depth tokens ≤ depth + tokens.length := by
  induction tokens generalizing depth with
  | nil => exact Nat.le_refl _
  | cons token rest ih =>
    have hrest := ih (depthBehind depth token)
    have hbehind : depthBehind depth token ≤ depth + 1 := by
      cases token <;> simp only [depthBehind] <;> omega
    simp only [nestingFrom, List.length_cons]
    omega

lemma length_lexAppQuery (raw : Text) : (lexAppQuery tables raw).length ≤ raw.length := by
  fun_induction lexAppQuery tables raw <;> grind [length_readQuoted]

lemma appQueryCost_eq_scanCost (raw : Text) :
    appQueryCost tables raw = scanCost (lexAppQuery tables raw) :=
  tokensLoopCost_eq tables _

/-- **The cost of compiling an input**: the tokens cloned are the sum of the brackets open around
each token, which is at most the nesting times the length of the input, and the calls open at once
are one more than the nesting. -/
theorem appQueryCost_open_brackets (raw : Text) :
    (appQueryCost tables raw).clones = clonesFrom 0 (lexAppQuery tables raw) ∧
      (appQueryCost tables raw).clones ≤ nestingFrom 0 (lexAppQuery tables raw) * raw.length ∧
      (appQueryCost tables raw).depth = nestingFrom 0 (lexAppQuery tables raw) + 1 ∧
      nestingFrom 0 (lexAppQuery tables raw) ≤ raw.length := by
  have hlength := length_lexAppQuery tables raw
  have hclones := clonesFrom_le 0 (lexAppQuery tables raw)
  have hnesting := nestingFrom_le 0 (lexAppQuery tables raw)
  rw [appQueryCost_eq_scanCost]
  refine ⟨rfl, ?_, rfl, ?_⟩
  · exact Nat.le_trans hclones (Nat.mul_le_mul_left _ hlength)
  · omega

/-! ## Brackets that only open -/

lemma lexAppQuery_replicate (n : Nat) :
    lexAppQuery tables (List.replicate n '(') = List.replicate n .openParens := by
  induction n with
  | zero => simp [lexAppQuery]
  | succ n ih => rw [List.replicate_succ, lexAppQuery, ih, List.replicate_succ]

lemma nestingFrom_replicate (depth n : Nat) :
    nestingFrom depth (List.replicate n .openParens) = depth + n := by
  induction n generalizing depth with
  | zero => rfl
  | succ n ih =>
    rw [List.replicate_succ, nestingFrom, depthBehind, ih]
    omega

/-- Six brackets cost fifteen copies, and however many calls are allowed, some input makes more. -/
theorem appQueryCost_exceeds :
    2 * "((((((".toList.length < (appQueryCost (goTables []) "((((((".toList).clones ∧
      ∀ bound, ∃ raw, bound < (appQueryCost (goTables []) raw).depth := by
  refine ⟨?_, fun bound => ⟨List.replicate bound '(', ?_⟩⟩
  · have hsix : "((((((".toList = List.replicate 6 '(' := rfl
    rw [hsix, appQueryCost_eq_scanCost, lexAppQuery_replicate]
    decide
  · rw [appQueryCost_eq_scanCost, lexAppQuery_replicate]
    show bound < nestingFrom 0 (List.replicate bound .openParens) + 1
    rw [nestingFrom_replicate]
    omega

end Bitmagnet.Fts
