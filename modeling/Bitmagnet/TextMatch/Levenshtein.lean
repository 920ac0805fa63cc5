import Bitmagnet.Library.EditDistance

/-!
# The edit distance of two titles

`compute_distance` of `bitmagnet-textmatch`.  A string is its code points.  Every index of the source is
checked here, and one out of range is `none`.

The row of the table is of `u16`, filled by casts and wrapping additions.  Both are a parameter: with
`checked` in their place the function fails where the source's would wrap around, and that it never does
is said by comparing the two.
-/

namespace Bitmagnet.TextMatch

open EditDistance (distance Edits)

/-! ## The source -/

/-- The two operations on `u16` that can lose bits. -/
structure Arith where
  /-- `i as u16` -/
  cast : Nat → Option UInt16
  /-- adding one -/
  succ : UInt16 → Option UInt16

/-- The source's operations. -/
def wrapping : Arith where
  cast i := some (UInt16.ofNat i)
  succ x := some (x + 1)

/-- The same where they lose nothing. -/
def checked : Arith where
  cast i := if i < 65536 then some (UInt16.ofNat i) else none
  succ x := if x.toNat + 1 < 65536 then some (x + 1) else none

/-- The loop over trailing code points from the `i`-th on. -/
def trimTrailing (s1 s2 : List Char) (i : Nat) : Nat → Option (List Char × List Char)
  | 0 => some (s1, s2)
  | remaining + 1 =>
    if s1.length < 1 + i ∨ s2.length < 1 + i then none
    else
      (s1[s1.length - 1 - i]?).bind fun c1 => (s2[s2.length - 1 - i]?).bind fun c2 =>
        if c1 ≠ c2 then some (s1.take (s1.length - i), s2.take (s2.length - i))
        else trimTrailing s1 s2 (i + 1) remaining

/-- The loop over leading code points from the `i`-th on. -/
def trimLeading (s1 s2 : List Char) (i : Nat) : Nat → Option (List Char × List Char)
  | 0 => some (s1, s2)
  | remaining + 1 =>
    (s1[i]?).bind fun c1 => (s2[i]?).bind fun c2 =>
      if c1 ≠ c2 then some (s1.drop i, s2.drop i) else trimLeading s1 s2 (i + 1) remaining

/-- `u16::min`. -/
def smaller (x y : UInt16) : UInt16 := if y.toNat < x.toNat then y else x

/-- `x[k] = value`. -/
def store (x : List UInt16) (k : Nat) (value : UInt16) : Option (List UInt16) :=
  if k < x.length then some (x.set k value) else none

section Table

variable (arith : Arith) (s1 s2 : List Char)

/-- The row before the first code point of `s2`. -/
def initRow : Option (List UInt16) :=
  ((List.range' 1 s1.length).mapM arith.cast).map (0 :: ·)

/-- One turn of the inner loop: the row and `prev`. -/
def cell (i : Nat) (state : List UInt16 × UInt16) (j : Nat) : Option (List UInt16 × UInt16) := do
  let (x, prev) := state
  let diagonal ← x[j - 1]?
  let c2 ← s2[i - 1]?
  let c1 ← s1[j - 1]?
  let current ←
    if c2 ≠ c1 then do
      let replaced ← arith.succ diagonal
      let inserted ← arith.succ prev
      let deleted ← (x[j]?).bind arith.succ
      pure (smaller (smaller replaced inserted) deleted)
    else pure diagonal
  let x ← store x (j - 1) prev
  pure (x, current)

/-- One turn of the outer loop. -/
def row (x : List UInt16) (i : Nat) : Option (List UInt16) := do
  let prev ← arith.cast i
  let (x, prev) ← (List.range' 1 s1.length).foldlM (cell arith s1 s2 i) (x, prev)
  store x s1.length prev

/-- The table and its last entry. -/
def table : Option Nat := do
  let x ← initRow arith s1
  let x ← (List.range' 1 s2.length).foldlM (row arith s1 s2) x
  let last ← x[s1.length]?
  pure last.toNat

end Table

/-- `compute_distance`, with the given operations on `u16`. -/
def computeDistanceWith (arith : Arith) (a b : List Char) : Option Nat :=
  if a = [] then some b.length
  else if b = [] then some a.length
  else if a = b then some 0
  else do
    let (s1, s2) := if a.length > b.length then (b, a) else (a, b)
    let (s1, s2) ← trimTrailing s1 s2 0 s1.length
    let (s1, s2) ← trimLeading s1 s2 0 s1.length
    table arith s1 s2

/-- `compute_distance`. -/
def computeDistance (a b : List Char) : Option Nat := computeDistanceWith wrapping a b

/-! ## Trimming -/

/-- Trailing code points that are shared do not count. -/
lemma trimTrailing_spec {s1 s2 : List Char} (hlen : s1.length ≤ s2.length) :
    ∀ (remaining i : Nat), i + remaining = s1.length →
      s1.drop (s1.length - i) = s2.drop (s2.length - i) →
      ∃ t1 t2, trimTrailing s1 s2 i remaining = some (t1, t2) ∧ t1.length ≤ t2.length ∧
        t2.length ≤ s2.length ∧ distance t1 t2 = distance s1 s2
  | 0, i, _, _ => ⟨s1, s2, rfl, hlen, le_rfl, rfl⟩
  | remaining + 1, i, hi, hshared => by
    have h1 : s1.length - 1 - i < s1.length := by omega
    have h2 : s2.length - 1 - i < s2.length := by omega
    have hin : ¬(s1.length < 1 + i ∨ s2.length < 1 + i) := by omega
    simp only [trimTrailing, if_neg hin, List.getElem?_eq_getElem h1, List.getElem?_eq_getElem h2,
      Option.bind_some]
    split
    · refine ⟨_, _, rfl, ?_, ?_, ?_⟩
      · rw [List.length_take, List.length_take]; omega
      · rw [List.length_take]; omega
      · conv => rhs; rw [← List.take_append_drop (s1.length - i) s1,
          ← List.take_append_drop (s2.length - i) s2, hshared]
        rw [EditDistance.distance_append_right]
    · next heq =>
        refine trimTrailing_spec hlen remaining (i + 1) (by omega) ?_
        have e1 : s1.length - (i + 1) = s1.length - 1 - i := by omega
        have e2 : s2.length - (i + 1) = s2.length - 1 - i := by omega
        rw [e1, e2, List.drop_eq_getElem_cons h1, List.drop_eq_getElem_cons h2, not_not.mp heq,
          show s1.length - 1 - i + 1 = s1.length - i by omega,
          show s2.length - 1 - i + 1 = s2.length - i by omega, hshared]

/-- Nor do leading ones. -/
lemma trimLeading_spec {s1 s2 : List Char} (hlen : s1.length ≤ s2.length) :
    ∀ (remaining i : Nat), i + remaining = s1.length → s1.take i = s2.take i →
      ∃ t1 t2, trimLeading s1 s2 i remaining = some (t1, t2) ∧ t1.length ≤ t2.length ∧
        t2.length ≤ s2.length ∧ distance t1 t2 = distance s1 s2
  | 0, i, _, _ => ⟨s1, s2, rfl, hlen, le_rfl, rfl⟩
  | remaining + 1, i, hi, hshared => by
    have h1 : i < s1.length := by omega
    have h2 : i < s2.length := by omega
    simp only [trimLeading, List.getElem?_eq_getElem h1, List.getElem?_eq_getElem h2,
      Option.bind_some]
    split
    · refine ⟨_, _, rfl, ?_, ?_, ?_⟩
      · rw [List.length_drop, List.length_drop]; omega
      · rw [List.length_drop]; omega
      · conv => rhs; rw [← List.take_append_drop i s1, ← List.take_append_drop i s2, hshared]
        rw [EditDistance.distance_append_left]
    · next heq =>
        refine trimLeading_spec hlen remaining (i + 1) (by omega) ?_
        rw [List.take_succ_eq_append_getElem h1, List.take_succ_eq_append_getElem h2, hshared,
          not_not.mp heq]

/-! ## The table -/

/-- Operations that are right where nothing is lost. -/
structure Arith.Exact (arith : Arith) : Prop where
  cast : ∀ i < 65536, ∃ v, arith.cast i = some v ∧ v.toNat = i
  succ : ∀ x : UInt16, x.toNat + 1 < 65536 → ∃ v, arith.succ x = some v ∧ v.toNat = x.toNat + 1

lemma toNat_ofNat {i : Nat} (h : i < 65536) : (UInt16.ofNat i).toNat = i :=
  UInt16.toNat_ofNat_of_lt' h

lemma toNat_add_one {x : UInt16} (h : x.toNat + 1 < 65536) : (x + 1).toNat = x.toNat + 1 := by
  rw [UInt16.toNat_add]
  exact Nat.mod_eq_of_lt h

lemma toNat_smaller (x y : UInt16) : (smaller x y).toNat = min x.toNat y.toNat := by
  unfold smaller
  split <;> omega

lemma wrapping_exact : wrapping.Exact where
  cast _ h := ⟨_, rfl, toNat_ofNat h⟩
  succ _ h := ⟨_, rfl, toNat_add_one h⟩

lemma checked_exact : checked.Exact where
  cast _ h := ⟨_, if_pos h, toNat_ofNat h⟩
  succ _ h := ⟨_, if_pos h, toNat_add_one h⟩

/-- A loop over a range of indices keeps what each turn keeps. -/
lemma foldlM_range' {σ : Type} (f : σ → Nat → Option σ) (start : Nat) {n : Nat} (P : Nat → σ → Prop)
    (hstep : ∀ m < n, ∀ s, P m s → ∃ s', f s (start + m) = some s' ∧ P (m + 1) s') {s : σ}
    (h : P 0 s) : ∃ s', (List.range' start n).foldlM f s = some s' ∧ P n s' := by
  induction n with
  | zero => exact ⟨s, rfl, h⟩
  | succ n ih =>
    obtain ⟨s', hs', hP⟩ := ih fun m hm => hstep m (by omega)
    obtain ⟨s'', hs'', hP'⟩ := hstep n (by omega) s' hP
    refine ⟨s'', ?_, hP'⟩
    rw [List.range'_1_concat, List.foldlM_append, hs']
    simpa using hs''

/-- The entries of a row are the given numbers. -/
def Reads (x : List UInt16) (n : Nat) (f : Nat → Nat) : Prop :=
  x.length = n + 1 ∧ ∀ k ≤ n, ∃ v, x[k]? = some v ∧ v.toNat = f k

lemma Reads.store {x : List UInt16} {n k : Nat} {f g : Nat → Nat} {value : UInt16}
    (h : Reads x n f) (hk : k ≤ n) (hat : value.toNat = g k)
    (helse : ∀ m ≤ n, m ≠ k → f m = g m) : ∃ x', store x k value = some x' ∧ Reads x' n g := by
  have hlt : k < x.length := by have := h.1; omega
  refine ⟨_, if_pos hlt, by rw [List.length_set, h.1], fun m hm => ?_⟩
  by_cases hmk : m = k
  · exact ⟨value, by rw [hmk, List.getElem?_set_self hlt], by rw [hmk, hat]⟩
  · rw [List.getElem?_set_ne (Ne.symm hmk), ← helse m hm hmk]
    exact h.2 m hm

section Table

variable {arith : Arith} {s1 s2 : List Char}

/-- The entry of the table for two initial segments. -/
def entry (s1 s2 : List Char) (i j : Nat) : Nat := distance (s2.take i) (s1.take j)

lemma entry_le (s1 s2 : List Char) (i j : Nat) : entry s1 s2 i j ≤ max s2.length s1.length := by
  have h := EditDistance.distance_le_max (s2.take i) (s1.take j)
  rw [List.length_take, List.length_take] at h
  unfold entry
  omega

/-- How an entry comes from its three neighbours. -/
lemma entry_succ {i j : Nat} (hi : i < s2.length) (hj : j < s1.length) :
    entry s1 s2 (i + 1) (j + 1) =
      if s2[i] = s1[j] then entry s1 s2 i j
      else min (min (entry s1 s2 i j + 1) (entry s1 s2 (i + 1) j + 1))
        (entry s1 s2 i (j + 1) + 1) := by
  simp only [entry, List.take_succ_eq_append_getElem hi, List.take_succ_eq_append_getElem hj]
  exact EditDistance.distance_concat ..

/-- The row while it is overwritten: before `m` it is the next one. -/
def between (s1 s2 : List Char) (i m k : Nat) : Nat :=
  if k < m then entry s1 s2 (i + 1) k else entry s1 s2 i k

section

variable (harith : arith.Exact)
include harith

lemma cell_spec (h1 : s1.length ≤ 65534) (h2 : s2.length ≤ 65534) {i m : Nat} (hi : i < s2.length)
    (hm : m < s1.length) {x : List UInt16} {prev : UInt16}
    (hx : Reads x s1.length (between s1 s2 i m)) (hprev : prev.toNat = entry s1 s2 (i + 1) m) :
    ∃ x' prev', cell arith s1 s2 (1 + i) (x, prev) (1 + m) = some (x', prev') ∧
      Reads x' s1.length (between s1 s2 i (m + 1)) ∧ prev'.toNat = entry s1 s2 (i + 1) (m + 1) := by
  obtain ⟨diagonal, hdiagonal, hdiagonal'⟩ := hx.2 m (by omega)
  obtain ⟨above, habove, habove'⟩ := hx.2 (m + 1) (by omega)
  rw [between, if_neg (by omega)] at hdiagonal' habove'
  have hc2 := List.getElem?_eq_getElem hi
  have hc1 := List.getElem?_eq_getElem hm
  obtain ⟨x', hstore, hx'⟩ : ∃ x', store x m prev = some x' ∧
      Reads x' s1.length (between s1 s2 i (m + 1)) := by
    refine hx.store (by omega) ?_ fun k _ hk => ?_
    · rw [hprev, between, if_pos (by omega)]
    · unfold between
      split <;> split <;> first | rfl | omega
  have hentry := entry_succ hi hm
  have hsub : ∀ k, 1 + k - 1 = k := by omega
  simp only [cell, hsub, hdiagonal, hc2, hc1, Option.bind_eq_bind, Option.bind_some]
  split
  · next hne =>
      rw [if_neg hne] at hentry
      have hle := entry_le s1 s2
      obtain ⟨v1, hv1, hv1'⟩ := harith.succ diagonal (by have := hle i m; omega)
      obtain ⟨v2, hv2, hv2'⟩ := harith.succ prev (by have := hle (i + 1) m; omega)
      obtain ⟨v3, hv3, hv3'⟩ := harith.succ above (by have := hle i (m + 1); omega)
      refine ⟨x', smaller (smaller v1 v2) v3, ?_, hx', ?_⟩
      · simp [hv1, hv2, Nat.add_comm 1 m, habove, hv3, hstore]
      · rw [hentry, ← hdiagonal', ← hprev, ← habove', ← hv1', ← hv2', ← hv3', toNat_smaller,
          toNat_smaller]
  · next heq =>
      rw [if_pos (not_not.mp heq)] at hentry
      exact ⟨x', diagonal, by simp [hstore], hx', by rw [hentry, hdiagonal']⟩

lemma row_spec (h1 : s1.length ≤ 65534) (h2 : s2.length ≤ 65534) {i : Nat} (hi : i < s2.length)
    {x : List UInt16} (hx : Reads x s1.length (entry s1 s2 i)) :
    ∃ x', row arith s1 s2 x (1 + i) = some x' ∧ Reads x' s1.length (entry s1 s2 (i + 1)) := by
  obtain ⟨prev, hcast, hprev⟩ := harith.cast (1 + i) (by omega)
  obtain ⟨⟨x', prev'⟩, hfold, hx', hprev'⟩ := foldlM_range' (cell arith s1 s2 (1 + i)) 1
    (fun m state => Reads state.1 s1.length (between s1 s2 i m) ∧
      state.2.toNat = entry s1 s2 (i + 1) m)
    (fun m hm state hstate => by
      obtain ⟨x', prev', hcell, h⟩ := cell_spec harith h1 h2 hi hm hstate.1 hstate.2
      exact ⟨(x', prev'), hcell, h⟩)
    (s := (x, prev))
    ⟨hx, by simp [hprev, entry, EditDistance.distance_nil_right, List.length_take]; omega⟩
  obtain ⟨x'', hstore, hx''⟩ : ∃ x'', store x' s1.length prev' = some x'' ∧
      Reads x'' s1.length (entry s1 s2 (i + 1)) := by
    refine hx'.store le_rfl hprev' fun k hk hne => ?_
    rw [between, if_pos (by omega)]
  exact ⟨x'', by simp [row, hcast, hfold, hstore], hx''⟩

lemma mapM_cast {is : List Nat} (h : ∀ i ∈ is, i < 65536) :
    ∃ vs, is.mapM arith.cast = some vs ∧ vs.map UInt16.toNat = is := by
  induction is with
  | nil => exact ⟨[], rfl, rfl⟩
  | cons i is ih =>
    obtain ⟨hi, his⟩ := List.forall_mem_cons.mp h
    obtain ⟨v, hv, hv'⟩ := harith.cast i hi
    obtain ⟨vs, hvs, hvs'⟩ := ih his
    exact ⟨v :: vs, by simp [hv, hvs], by rw [List.map_cons, hv', hvs']⟩

lemma initRow_spec (h1 : s1.length ≤ 65534) (s2 : List Char) :
    ∃ x, initRow arith s1 = some x ∧ Reads x s1.length (entry s1 s2 0) := by
  have hsmall : ∀ i ∈ List.range' 1 s1.length, i < 65536 := by
    intro i hi
    have := (List.mem_range'_1.mp hi).2
    omega
  obtain ⟨vs, hvs, hvalues⟩ := mapM_cast harith hsmall
  have hlen : vs.length = s1.length := by simpa using congrArg List.length hvalues
  refine ⟨0 :: vs, by rw [initRow, hvs, Option.map_some], by simp [hlen], fun k hk => ?_⟩
  have hentry : entry s1 s2 0 k = k := by
    rw [entry, List.take_zero, EditDistance.distance_nil_left, List.length_take]
    omega
  cases k with
  | zero => exact ⟨0, rfl, by rw [hentry]; rfl⟩
  | succ k =>
    have hk' : k < vs.length := by omega
    refine ⟨vs[k], by rw [List.getElem?_cons_succ, List.getElem?_eq_getElem hk'], ?_⟩
    have hvalue : (vs.map UInt16.toNat)[k]? = (List.range' 1 s1.length)[k]? := by rw [hvalues]
    rw [List.getElem?_map, List.getElem?_eq_getElem hk', List.getElem?_range' (by omega)] at hvalue
    rw [hentry]
    have := Option.some.inj hvalue
    omega

/-- The last entry of the table is the distance. -/
lemma table_spec (h1 : s1.length ≤ 65534) (h2 : s2.length ≤ 65534) :
    table arith s1 s2 = some (distance s1 s2) := by
  obtain ⟨x, hinit, hx⟩ := initRow_spec harith h1 s2
  obtain ⟨x', hfold, hx'⟩ := foldlM_range' (row arith s1 s2) 1
    (fun i x => Reads x s1.length (entry s1 s2 i))
    (fun i hi x hx => row_spec harith h1 h2 hi hx) hx
  obtain ⟨last, hlast, hlast'⟩ := hx'.2 s1.length le_rfl
  have hdistance : last.toNat = distance s1 s2 := by
    rw [hlast', entry, List.take_length, List.take_length, EditDistance.distance_comm]
  simp [table, hinit, hfold, hlast, hdistance]

end

end Table

lemma computeDistanceWith_eq {arith : Arith} (harith : arith.Exact) {a b : List Char}
    (ha : a.length ≤ 65534) (hb : b.length ≤ 65534) :
    computeDistanceWith arith a b = some (distance a b) := by
  unfold computeDistanceWith
  split
  · next h => rw [h, EditDistance.distance_nil_left]
  split
  · next h => rw [h, EditDistance.distance_nil_right]
  split
  · next h => rw [h, EditDistance.distance_self]
  obtain ⟨s1, s2, hswap, hlen, hbound, hdistance⟩ : ∃ s1 s2,
      (if a.length > b.length then (b, a) else (a, b)) = (s1, s2) ∧ s1.length ≤ s2.length ∧
        s2.length ≤ 65534 ∧ distance s1 s2 = distance a b := by
    split
    · exact ⟨b, a, rfl, by omega, ha, EditDistance.distance_comm b a⟩
    · exact ⟨a, b, rfl, by omega, hb, rfl⟩
  obtain ⟨t1, t2, htrim, hlen', hbound', hdistance'⟩ :=
    trimTrailing_spec hlen s1.length 0 (by omega) (by simp)
  obtain ⟨u1, u2, htrim', hlen'', hbound'', hdistance''⟩ :=
    trimLeading_spec hlen' t1.length 0 (by omega) (by simp)
  rw [hswap]
  simp only [htrim, htrim', Option.bind_eq_bind, Option.bind_some]
  rw [table_spec harith (by omega) (by omega), hdistance'', hdistance', hdistance]

/-- **`compute_distance` is the edit distance.**  On strings of at most 65534 code points it returns the
least number of insertions, deletions and replacements of a code point that lead from the one to the
other; no index is out of range, and no cast or addition wraps around. -/
theorem computeDistance_isLeast (a b : List Char) (ha : a.length ≤ 65534) (hb : b.length ≤ 65534) :
    ∃ d, computeDistance a b = some d ∧ computeDistanceWith checked a b = some d ∧
      IsLeast {n | Edits n a b} d :=
  ⟨distance a b, computeDistanceWith_eq wrapping_exact ha hb,
    computeDistanceWith_eq checked_exact ha hb, EditDistance.isLeast_distance a b⟩

theorem computeDistance_isLeast_kitten :
    computeDistance "kitten".toList "sitting".toList = some 3 ∧
      IsLeast {n | Edits n "kitten".toList "sitting".toList} 3 := by
  have hthree : computeDistance "kitten".toList "sitting".toList = some 3 := by decide
  obtain ⟨d, hd, _, hleast⟩ :=
    computeDistance_isLeast "kitten".toList "sitting".toList (by decide) (by decide)
  obtain rfl : d = 3 := Option.some.inj (hd.symm.trans hthree)
  exact ⟨hthree, hleast⟩

end Bitmagnet.TextMatch
