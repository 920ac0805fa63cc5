import Bitmagnet.TextMatch.Levenshtein

/-!
# The best match for a title

`find_min_distance_normalized` and `find_best_match_index` of `bitmagnet-textmatch`.  The
normalisation of strings is a parameter, since nothing depends on what it does, and `none` is a
panic, which only an index of `compute_distance` could end in.

A memo and an early exit are only there to save work.  That they do is seen on the set of distances:
a distance that is not below one that is already in the set does not change its least element
(`isLeast_insert_iff`).
-/

namespace Bitmagnet.TextMatch

local instance lawfulBEqChars : LawfulBEq (List Char) := List.instLawfulBEq

/-! ## The source -/

/-- `LEVENSHTEIN_THRESHOLD`. -/
def levenshteinThreshold : Nat := 5

section Source

variable (normalize : List Char → List Char) (normTarget : List Char)

/-- One turn of the loop over candidates: the normalised ones so far, and the least distance. -/
def tryCandidate (state : List (List Char) × Option Nat) (candidate : List Char) :
    Option (List (List Char) × Option Nat) :=
  let (tried, minDistance) := state
  let normCandidate := normalize candidate
  if normCandidate ∈ tried then some state
  else (computeDistance normTarget normCandidate).map fun distance =>
    (normCandidate :: tried,
      if minDistance.all (distance < ·) then some distance else minDistance)

/-- `find_min_distance_normalized`. -/
def findMinDistanceNormalized (candidates : List (List Char)) : Option (Option Nat) :=
  (candidates.foldlM (tryCandidate normalize normTarget) ([], none)).map Prod.snd

/-- The loop over the items from the `i`-th on. -/
def bestMatchFrom {T : Type} (getCandidates : T → List (List Char)) (i minDistance : Nat)
    (bestMatch : Option Nat) : List T → Option (Option Nat)
  | [] => some bestMatch
  | item :: items =>
    (findMinDistanceNormalized normalize normTarget (getCandidates item)).bind fun
      | none => bestMatchFrom getCandidates (i + 1) minDistance bestMatch items
      | some distance =>
        if distance < minDistance then
          if distance = 0 then some (some i)
          else bestMatchFrom getCandidates (i + 1) distance (some i) items
        else bestMatchFrom getCandidates (i + 1) minDistance bestMatch items

/-- `find_best_match_index`. -/
def findBestMatchIndex {T : Type} (target : List Char) (items : List T)
    (getCandidates : T → List (List Char)) : Option (Option Nat) :=
  bestMatchFrom normalize (normalize target) getCandidates 0 (levenshteinThreshold + 1) none items

end Source

/-! ## Every distance is computed -/

section

variable {s1 s2 : List Char}

/-- A row keeps its length, so that no index is out of range. -/
lemma cell_isSome {i m : Nat} (hi : i < s2.length) (hm : m < s1.length)
    {state : List UInt16 × UInt16} (hstate : state.1.length = s1.length + 1) :
    ∃ state', cell wrapping s1 s2 (1 + i) state (1 + m) = some state' ∧
      state'.1.length = s1.length + 1 := by
  obtain ⟨x, prev⟩ := state
  have hx : x.length = s1.length + 1 := hstate
  have h0 : m < x.length := by omega
  have h1 : m + 1 < x.length := by omega
  by_cases hne : s2[i] = s1[m]
  · exact ⟨(x.set m prev, x[m]), by simp [cell, h0, hi, hm, hne, store], by simpa using hx⟩
  · refine ⟨(x.set m prev, smaller (smaller (x[m] + 1) (prev + 1)) (x[m + 1] + 1)), ?_,
      by simpa using hx⟩
    simp [cell, h0, h1, hi, hm, hne, store, wrapping, Nat.add_comm 1 m]

lemma row_isSome {i : Nat} (hi : i < s2.length) {x : List UInt16} (hx : x.length = s1.length + 1) :
    ∃ x', row wrapping s1 s2 x (1 + i) = some x' ∧ x'.length = s1.length + 1 := by
  obtain ⟨⟨x', prev⟩, hcells, hx'⟩ := foldlM_range' (cell wrapping s1 s2 (1 + i)) 1
    (fun _ state => state.1.length = s1.length + 1)
    (fun m hm state hstate => cell_isSome hi hm hstate) (s := (x, UInt16.ofNat (1 + i))) hx
  have hx' : x'.length = s1.length + 1 := hx'
  refine ⟨x'.set s1.length prev, ?_, by rw [List.length_set, hx']⟩
  have hcast : wrapping.cast (1 + i) = some (UInt16.ofNat (1 + i)) := rfl
  rw [row, hcast]
  simp only [Option.bind_eq_bind, Option.bind_some, hcells]
  exact if_pos (by omega)

lemma table_isSome : (table wrapping s1 s2).isSome := by
  have hinit : initRow wrapping s1 = some (0 :: (List.range' 1 s1.length).map UInt16.ofNat) := by
    rw [initRow, show wrapping.cast = fun i => pure (UInt16.ofNat i) from rfl, List.mapM_pure]
    rfl
  obtain ⟨x, hfold, hx⟩ := foldlM_range' (row wrapping s1 s2) 1
    (fun _ x => x.length = s1.length + 1) (fun i hi x hx => row_isSome hi hx)
    (s := 0 :: (List.range' 1 s1.length).map UInt16.ofNat) (by simp)
  have hlast : s1.length < x.length := by omega
  simp [table, hinit, hfold, List.getElem?_eq_getElem hlast]

end

/-- Strings of any length have a distance. -/
lemma computeDistance_isSome (a b : List Char) : (computeDistance a b).isSome := by
  unfold computeDistance computeDistanceWith
  split
  · rfl
  split
  · rfl
  split
  · rfl
  have hlen : ∀ {s1 s2 : List Char}, s1.length ≤ s2.length →
      ((trimTrailing s1 s2 0 s1.length).bind fun p =>
        (trimLeading p.1 p.2 0 p.1.length).bind fun p => table wrapping p.1 p.2).isSome := by
    intro s1 s2 hlen
    obtain ⟨t1, t2, htrim, hlen', -⟩ := trimTrailing_spec hlen s1.length 0 (by omega) (by simp)
    obtain ⟨u1, u2, htrim', -⟩ := trimLeading_spec hlen' t1.length 0 (by omega) (by simp)
    rw [htrim, Option.bind_some, htrim']
    exact table_isSome
  by_cases hswap : a.length > b.length
  · rw [if_pos hswap]
    exact hlen hswap.le
  · rw [if_neg hswap]
    exact hlen (not_lt.mp hswap)

/-! ## The least distance of an item -/

/-- A number that is not below a member does not change the least one. -/
lemma isLeast_insert_iff {S : Set Nat} {a x d : Nat} (ha : a ∈ S) (hle : a ≤ x) :
    IsLeast (insert x S) d ↔ IsLeast S d := by
  constructor
  · rintro ⟨rfl | hmem, hlower⟩
    · obtain rfl : d = a := le_antisymm (hlower (.inr ha)) hle
      exact ⟨ha, fun y hy => hlower (.inr hy)⟩
    · exact ⟨hmem, fun y hy => hlower (.inr hy)⟩
  · rintro ⟨hmem, hlower⟩
    refine ⟨.inr hmem, ?_⟩
    rintro y (rfl | hy)
    · exact (hlower ha).trans hle
    · exact hlower hy

section Candidates

variable {normalize : List Char → List Char} {normTarget : List Char} {distance : List Char → Nat}

/-- The distances that are left, with the least one so far. -/
def Distances (normalize : List Char → List Char) (distance : List Char → Nat)
    (minDistance : Option Nat) (candidates : List (List Char)) : Set Nat :=
  {d | d ∈ minDistance ∨ ∃ candidate ∈ candidates, distance (normalize candidate) = d}

lemma distances_cons (minDistance : Option Nat) (candidate : List Char)
    (candidates : List (List Char)) :
    Distances normalize distance minDistance (candidate :: candidates) =
      insert (distance (normalize candidate))
        (Distances normalize distance minDistance candidates) := by
  ext d
  simp [Distances, or_left_comm, eq_comm]

/-- A candidate that was not tried yet. -/
lemma isLeast_distances_cons (minDistance : Option Nat) (candidate : List Char)
    (candidates : List (List Char)) (d : Nat) :
    IsLeast (Distances normalize distance
        (if minDistance.all (distance (normalize candidate) < ·) then
          some (distance (normalize candidate)) else minDistance) candidates) d ↔
      IsLeast (Distances normalize distance minDistance (candidate :: candidates)) d := by
  rw [distances_cons]
  cases minDistance with
  | none =>
    have hset : Distances normalize distance (some (distance (normalize candidate))) candidates =
        insert (distance (normalize candidate)) (Distances normalize distance none candidates) := by
      ext e
      simp [Distances, eq_comm]
    rw [← hset]
    simp
  | some least =>
    by_cases hlt : distance (normalize candidate) < least
    · have hset : insert (distance (normalize candidate))
          (Distances normalize distance (some least) candidates) = insert least
            (Distances normalize distance (some (distance (normalize candidate))) candidates) := by
        ext e
        simp [Distances, or_left_comm, eq_comm]
      rw [hset, isLeast_insert_iff (.inl rfl) hlt.le]
      simp [hlt]
    · rw [isLeast_insert_iff (.inl rfl) (not_lt.mp hlt)]
      simp [hlt]

/-- The least distance only gets less. -/
lemma exists_le_update (minDistance : Option Nat) (x : Nat) :
    ∃ d ∈ (if minDistance.all (x < ·) then some x else minDistance),
      d ≤ x ∧ ∀ least ∈ minDistance, d ≤ least := by
  cases minDistance with
  | none => exact ⟨x, rfl, le_refl x, by simp⟩
  | some least =>
    by_cases hlt : x < least
    · exact ⟨x, by simp [hlt], le_refl x, by simpa using hlt.le⟩
    · exact ⟨least, by simp [hlt], not_lt.mp hlt, by simp⟩

lemma foldlM_tryCandidate (normalize : List Char → List Char)
    (hdistance : ∀ s, computeDistance normTarget s = some (distance s))
    (candidates tried : List (List Char)) (minDistance : Option Nat)
    (htried : ∀ s ∈ tried, ∃ d ∈ minDistance, d ≤ distance s) :
    ∃ tried' min', candidates.foldlM (tryCandidate normalize normTarget) (tried, minDistance) =
        some (tried', min') ∧
      ∀ d, min' = some d ↔ IsLeast (Distances normalize distance minDistance candidates) d := by
  induction candidates generalizing tried minDistance with
  | nil =>
    refine ⟨tried, minDistance, rfl, fun d => ⟨?_, fun h => ?_⟩⟩
    · rintro rfl
      exact ⟨.inl rfl, by rintro y (hy | ⟨_, h, _⟩) <;> simp_all⟩
    · obtain hmem | ⟨_, h, _⟩ := h.1
      · exact hmem
      · cases h
  | cons candidate candidates ih =>
    rw [List.foldlM_cons]
    by_cases hmem : normalize candidate ∈ tried
    · obtain ⟨d, hd, hle⟩ := htried _ hmem
      obtain ⟨tried', min', hfold, hleast⟩ := ih tried minDistance htried
      refine ⟨tried', min', by simpa [tryCandidate, hmem] using hfold, fun e => ?_⟩
      rw [hleast, distances_cons, isLeast_insert_iff (.inl hd) hle]
    · obtain ⟨tried', min', hfold, hleast⟩ := ih (normalize candidate :: tried)
        (if minDistance.all (distance (normalize candidate) < ·) then
          some (distance (normalize candidate)) else minDistance) fun s hs => by
            obtain ⟨d, hd, hle, hleast⟩ :=
              exists_le_update minDistance (distance (normalize candidate))
            rcases List.mem_cons.mp hs with rfl | hs
            · exact ⟨d, hd, hle⟩
            · obtain ⟨least, hmin, hbelow⟩ := htried s hs
              exact ⟨d, hd, (hleast least hmin).trans hbelow⟩
      refine ⟨tried', min', by simpa [tryCandidate, hmem, hdistance] using hfold, fun e => ?_⟩
      rw [hleast, isLeast_distances_cons]

/-- An item scores the least distance of its candidates. -/
def Scores (normalize : List Char → List Char) (distance : List Char → Nat)
    (candidates : List (List Char)) : Nat → Prop :=
  IsLeast {d | ∃ candidate ∈ candidates, distance (normalize candidate) = d}

lemma findMinDistanceNormalized_scores (normalize : List Char → List Char)
    (hdistance : ∀ s, computeDistance normTarget s = some (distance s))
    (candidates : List (List Char)) :
    ∃ score, findMinDistanceNormalized normalize normTarget candidates = some score ∧
      ∀ d, score = some d ↔ Scores normalize distance candidates d := by
  obtain ⟨tried, score, hfold, hleast⟩ :=
    foldlM_tryCandidate normalize hdistance candidates [] none (by simp)
  refine ⟨score, by rw [findMinDistanceNormalized, hfold]; rfl, fun d => ?_⟩
  rw [hleast]
  simp [Scores, Distances]

end Candidates

/-! ## The best item -/

section

variable {T : Type} {score : T → Nat → Prop} {items : List T} {item : T}
  {i j d e minDistance : Nat} {bestMatch found : Option Nat}

/-- The first item with the least score. -/
structure BestMatch (score : T → Nat → Prop) (items : List T) (i d : Nat) : Prop where
  scores : ∃ item, items[i]? = some item ∧ score item d
  least : ∀ item ∈ items, ∀ e, score item e → d ≤ e
  first : ∀ j < i, ∀ item, items[j]? = some item → ¬ score item d

lemma BestMatch.unique (h : BestMatch score items i d) (h' : BestMatch score items j e) :
    i = j := by
  obtain ⟨item, hitem, hscore⟩ := h.scores
  obtain ⟨item', hitem', hscore'⟩ := h'.scores
  obtain rfl : d = e := le_antisymm (h.least _ (List.mem_of_getElem? hitem') e hscore')
    (h'.least _ (List.mem_of_getElem? hitem) d hscore)
  rcases lt_trichotomy i j with hlt | rfl | hlt
  · exact absurd hscore (h'.first i hlt item hitem)
  · rfl
  · exact absurd hscore' (h.first j hlt item' hitem')

/-- What the loop finds among the items from the `i`-th on, behind a `bestMatch` that scores
`minDistance`. -/
def Ranked (score : T → Nat → Prop) (items : List T) (i minDistance : Nat)
    (bestMatch found : Option Nat) : Prop :=
  (found = bestMatch ∧ ∀ item ∈ items, ∀ e, score item e → minDistance ≤ e) ∨
    ∃ k d, found = some (i + k) ∧ d < minDistance ∧ BestMatch score items k d

lemma BestMatch.cons (h : BestMatch score items i d) (hitem : ∀ e, score item e → d < e) :
    BestMatch score (item :: items) (i + 1) d where
  scores := h.scores
  least := List.forall_mem_cons.mpr ⟨fun e he => (hitem e he).le, h.least⟩
  first
    | 0, _, _, rfl => fun hd => lt_irrefl d (hitem d hd)
    | j + 1, hj, other, hother => h.first j (by omega) other hother

/-- An item that is not below what was found. -/
lemma Ranked.skip (hitem : ∀ e, score item e → minDistance ≤ e)
    (h : Ranked score items (i + 1) minDistance bestMatch found) :
    Ranked score (item :: items) i minDistance bestMatch found := by
  obtain ⟨rfl, hrest⟩ | ⟨k, d, rfl, hlt, hbest⟩ := h
  · exact .inl ⟨rfl, List.forall_mem_cons.mpr ⟨hitem, hrest⟩⟩
  · exact .inr ⟨k + 1, d, by rw [Nat.add_right_comm, Nat.add_assoc], hlt,
      hbest.cons fun e he => hlt.trans_le (hitem e he)⟩

/-- An item that is. -/
lemma Ranked.take (hscore : score item d) (hself : ∀ e, score item e → d ≤ e)
    (hlt : d < minDistance) (h : Ranked score items (i + 1) d (some i) found) :
    Ranked score (item :: items) i minDistance bestMatch found := by
  obtain ⟨rfl, hrest⟩ | ⟨k, e, rfl, hlt', hbest⟩ := h
  · exact .inr ⟨0, d, rfl, hlt, ⟨item, rfl, hscore⟩, List.forall_mem_cons.mpr ⟨hself, hrest⟩,
      fun j hj => absurd hj (Nat.not_lt_zero j)⟩
  · exact .inr ⟨k + 1, e, by rw [Nat.add_right_comm, Nat.add_assoc], hlt'.trans hlt,
      hbest.cons fun e' he => hlt'.trans_le (hself e' he)⟩

lemma bestMatchFrom_ranked {normalize : List Char → List Char} {normTarget : List Char}
    {getCandidates : T → List (List Char)}
    (hscore : ∀ item, ∃ found,
      findMinDistanceNormalized normalize normTarget (getCandidates item) = some found ∧
        ∀ d, found = some d ↔ score item d)
    (items : List T) (i minDistance : Nat) (bestMatch : Option Nat) :
    ∃ found, bestMatchFrom normalize normTarget getCandidates i minDistance bestMatch items =
      some found ∧ Ranked score items i minDistance bestMatch found := by
  induction items generalizing i minDistance bestMatch with
  | nil => exact ⟨bestMatch, rfl, .inl ⟨rfl, by simp⟩⟩
  | cons item items ih =>
    obtain ⟨least, hleast, hiff⟩ := hscore item
    rw [bestMatchFrom, hleast, Option.bind_some]
    cases least with
    | none =>
      obtain ⟨found, hfound, hranked⟩ := ih (i + 1) minDistance bestMatch
      exact ⟨found, hfound, hranked.skip fun e he => by simpa using (hiff e).mpr he⟩
    | some d =>
      have hself : ∀ e, score item e → d ≤ e := fun e he => (Option.some.inj ((hiff e).mpr he)).le
      dsimp only
      split
      · rename_i hlt
        split
        · -- the early exit: no item scores less than zero
          rename_i hzero
          exact ⟨_, rfl, .take ((hiff d).mp rfl) hself hlt
            (.inl ⟨rfl, fun _ _ _ _ => hzero ▸ Nat.zero_le _⟩)⟩
        · obtain ⟨found, hfound, hranked⟩ := ih (i + 1) d (some i)
          exact ⟨found, hfound, .take ((hiff d).mp rfl) hself hlt hranked⟩
      · rename_i hle
        obtain ⟨found, hfound, hranked⟩ := ih (i + 1) minDistance bestMatch
        exact ⟨found, hfound, hranked.skip fun e he => (not_lt.mp hle).trans (hself e he)⟩

end

/-- **The best match.**  The index that is returned is the first whose item has the least score of
all items, if that is within the threshold, and there is none otherwise. -/
theorem findBestMatchIndex_isBest {T : Type} (normalize : List Char → List Char)
    (target : List Char) (items : List T) (getCandidates : T → List (List Char)) :
    ∃ (distance : List Char → Nat) (found : Option Nat),
      (∀ s, computeDistance (normalize target) s = some (distance s)) ∧
      findBestMatchIndex normalize target items getCandidates = some found ∧
      ∀ i, found = some i ↔ ∃ d ≤ levenshteinThreshold,
        BestMatch (Scores normalize distance <| getCandidates ·) items i d := by
  choose distance hdistance using fun s =>
    Option.isSome_iff_exists.mp (computeDistance_isSome (normalize target) s)
  obtain ⟨found, hfound, hranked⟩ := bestMatchFrom_ranked
    (fun item => findMinDistanceNormalized_scores normalize hdistance (getCandidates item)) items 0
    (levenshteinThreshold + 1) none
  refine ⟨distance, found, hdistance, hfound, fun i => ⟨?_, ?_⟩⟩
  · rintro rfl
    obtain ⟨hnone, -⟩ | ⟨k, d, hk, hlt, hbest⟩ := hranked
    · cases hnone
    · rw [Nat.zero_add] at hk
      cases hk
      exact ⟨d, Nat.le_of_lt_succ hlt, hbest⟩
  · rintro ⟨d, hle, hbest⟩
    obtain ⟨item, hitem, hscore⟩ := hbest.scores
    obtain ⟨-, hall⟩ | ⟨k, e, rfl, -, hbest'⟩ := hranked
    · exact absurd (hall item (List.mem_of_getElem? hitem) d hscore) (by omega)
    · rw [Nat.zero_add, hbest'.unique hbest]

end Bitmagnet.TextMatch
