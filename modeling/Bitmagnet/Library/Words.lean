import Mathlib.Data.List.Infix
import Mathlib.Data.List.Basic

/-!
# Words

A list cut at the items that are breaks.  Breaks at the ends belong to no word
(`words_trim`), and a translation that keeps what is a break translates word by word
(`words_map`).  A piece without breaks is in the trimmed list if it is in the list
(`infix_trim`).  The pieces of two and three items of a list are its `grams`.
-/

universe u

namespace Words

variable {α β : Type u} {p : α → Bool}

/-- The maximal pieces without breaks. -/
def words (p : α → Bool) (l : List α) [DecidableEq α] : List (List α) :=
  (l.splitOnP p).filter (· ≠ [])

/-- The list without the breaks at its ends. -/
def trim (p : α → Bool) (l : List α) : List α := ((l.dropWhile p).reverse.dropWhile p).reverse

/-- The pieces of two and of three items, by their place. -/
def grams (l : List α) : List (List α) :=
  l.tails.flatMap fun rest =>
    (if 2 ≤ rest.length then [rest.take 2] else []) ++
      (if 3 ≤ rest.length then [rest.take 3] else [])

/-! ## Cutting -/

section

variable [DecidableEq α] [DecidableEq β] {a : α} {l : List α}

lemma words_append_cons (ha : p a) (l l' : List α) :
    words p (l ++ a :: l') = words p l ++ words p l' := by
  rw [words, List.splitOnP_append_cons l l' ha, List.filter_append]
  rfl

lemma words_cons_of_break (ha : p a) (l : List α) : words p (a :: l) = words p l := by
  have hnil : words p ([] : List α) = [] := by simp [words]
  simpa [hnil] using words_append_cons ha [] l

lemma words_append_of_break (ha : p a) (l : List α) : words p (l ++ [a]) = words p l := by
  have hnil : words p ([] : List α) = [] := by simp [words]
  simpa [hnil] using words_append_cons ha l []

lemma words_dropWhile (l : List α) : words p (l.dropWhile p) = words p l := by
  induction l with
  | nil => rfl
  | cons a l ih =>
    by_cases ha : p a
    · rw [List.dropWhile_cons_of_pos ha, ih, words_cons_of_break ha]
    · rw [List.dropWhile_cons_of_neg ha]

lemma words_reverse_dropWhile (l : List α) :
    words p (l.dropWhile p).reverse = words p l.reverse := by
  induction l with
  | nil => rfl
  | cons a l ih =>
    by_cases ha : p a
    · rw [List.dropWhile_cons_of_pos ha, ih, List.reverse_cons, words_append_of_break ha]
    · rw [List.dropWhile_cons_of_neg ha]

/-- Breaks at the ends belong to no word. -/
lemma words_trim (l : List α) : words p (trim p l) = words p l := by
  rw [trim, words_reverse_dropWhile, List.reverse_reverse, words_dropWhile]

omit [DecidableEq α] in
lemma mem_of_mem_splitOnP {piece : List α} (h : piece ∈ l.splitOnP p) :
    ∀ a ∈ piece, a ∈ l ∧ ¬ p a := by
  induction l generalizing piece with
  | nil =>
    rw [List.splitOnP_nil, List.mem_singleton] at h
    simp [h]
  | cons b l ih =>
    have hlater : ∀ {piece : List α}, piece ∈ l.splitOnP p → ∀ a ∈ piece, a ∈ b :: l ∧ ¬ p a :=
      fun hpiece a ha => ⟨List.mem_cons_of_mem _ (ih hpiece a ha).1, (ih hpiece a ha).2⟩
    rw [List.splitOnP_cons_eq_if_modifyHead] at h
    by_cases hb : p b
    · rw [if_pos hb] at h
      rcases List.mem_cons.mp h with rfl | h
      · simp
      · exact hlater h
    · rw [if_neg hb] at h
      obtain ⟨first, rest, hsplit⟩ := List.exists_cons_of_ne_nil (List.splitOnP_ne_nil p l)
      rw [hsplit] at h hlater
      rcases List.mem_cons.mp h with rfl | h
      · intro a ha
        rcases List.mem_cons.mp ha with rfl | ha
        · exact ⟨List.mem_cons_self .., hb⟩
        · exact hlater (List.mem_cons_self ..) a ha
      · exact hlater (List.mem_cons_of_mem _ h)

/-- A word is a non-empty piece without breaks. -/
lemma mem_words {word : List α} (h : word ∈ words p l) : word ≠ [] ∧ ∀ a ∈ word, a ∈ l ∧ ¬ p a := by
  obtain ⟨hsplit, hne⟩ := List.mem_filter.mp h
  exact ⟨of_decide_eq_true hne, mem_of_mem_splitOnP hsplit⟩

omit [DecidableEq α] [DecidableEq β] in
lemma splitOnP_map {q : β → Bool} {f : α → β} (h : ∀ a ∈ l, q (f a) = p a) :
    (l.map f).splitOnP q = (l.splitOnP p).map (List.map f) := by
  induction l with
  | nil => rfl
  | cons a l ih =>
    have hl := ih fun b hb => h b (List.mem_cons_of_mem _ hb)
    rw [List.map_cons, List.splitOnP_cons_eq_if_modifyHead, List.splitOnP_cons_eq_if_modifyHead,
      h a (List.mem_cons_self ..), hl]
    split
    · rfl
    · obtain ⟨first, rest, hsplit⟩ := List.exists_cons_of_ne_nil (List.splitOnP_ne_nil p l)
      rw [hsplit]
      rfl

/-- A translation that keeps what is a break translates word by word. -/
lemma words_map {q : β → Bool} {f : α → β} (h : ∀ a ∈ l, q (f a) = p a) :
    words q (l.map f) = (words p l).map (List.map f) := by
  rw [words, words, splitOnP_map h, List.filter_map]
  refine congrArg _ (List.filter_congr fun piece _ => ?_)
  simp

end

/-! ## Pieces -/

variable {l piece : List α}

lemma infix_dropWhile (hne : piece ≠ []) (hp : ∀ a ∈ piece, ¬ p a) (h : piece <:+: l) :
    piece <:+: l.dropWhile p := by
  induction l with
  | nil => exact h
  | cons a l ih =>
    by_cases ha : p a
    · rw [List.dropWhile_cons_of_pos ha]
      refine ih ((List.infix_cons_iff.mp h).resolve_left fun hstart => ?_)
      obtain ⟨b, rest, rfl⟩ := List.exists_cons_of_ne_nil hne
      obtain ⟨rfl, -⟩ := List.cons_prefix_cons.mp hstart
      exact hp b (List.mem_cons_self ..) ha
    · rw [List.dropWhile_cons_of_neg ha]
      exact h

/-- Trimming loses no piece without breaks. -/
lemma infix_trim (hne : piece ≠ []) (hp : ∀ a ∈ piece, ¬ p a) (h : piece <:+: l) :
    piece <:+: trim p l := by
  rw [trim, ← List.reverse_infix, List.reverse_reverse]
  refine infix_dropWhile (by simpa using hne) (fun a ha => hp a (List.mem_reverse.mp ha)) ?_
  rw [List.reverse_infix]
  exact infix_dropWhile hne hp h

lemma mem_of_mem_trim {a : α} (h : a ∈ trim p l) : a ∈ l :=
  (List.dropWhile_sublist _).subset <| List.mem_reverse.mp <|
    (List.dropWhile_sublist _).subset <| List.mem_reverse.mp h

/-- A list without breaks is trimmed. -/
lemma trim_eq_self (h : ∀ a ∈ l, ¬ p a) : trim p l = l := by
  have hdrop : ∀ {l : List α}, (∀ a ∈ l, ¬ p a) → l.dropWhile p = l := by
    intro l hl
    cases l with
    | nil => rfl
    | cons a l => exact List.dropWhile_cons_of_neg (hl a (List.mem_cons_self ..))
  rw [trim, hdrop h, hdrop fun a ha => h a (List.mem_reverse.mp ha), List.reverse_reverse]

lemma mem_grams {gram : List α} :
    gram ∈ grams l ↔ gram <:+: l ∧ (gram.length = 2 ∨ gram.length = 3) := by
  rw [grams, List.mem_flatMap]
  constructor
  · rintro ⟨rest, hrest, hgram⟩
    have hwithin : ∀ n, rest.take n <:+: l := fun n =>
      List.IsInfix.trans ⟨[], rest.drop n, List.take_append_drop n rest⟩
        ((List.mem_tails _ _).mp hrest).isInfix
    rcases List.mem_append.mp hgram with hgram | hgram
    all_goals
      split at hgram
      · rw [List.mem_singleton] at hgram
        subst hgram
        refine ⟨hwithin _, ?_⟩
        rw [List.length_take]
        omega
      · cases hgram
  · rintro ⟨⟨before, behind, rfl⟩, hlength⟩
    refine ⟨gram ++ behind, (List.mem_tails _ _).mpr ⟨before, by simp⟩, List.mem_append.mpr ?_⟩
    rcases hlength with hlength | hlength
    · left
      rw [if_pos (by simp [hlength]), List.mem_singleton, ← hlength, List.take_left]
    · right
      rw [if_pos (by simp [hlength]), List.mem_singleton, ← hlength, List.take_left]

/-- Grams follow pieces and translations. -/
lemma map_mem_of_infix {f : α → β} {word gram : List α} (hpiece : piece <:+: l)
    (hmap : word.map f = piece.map f) (hgram : gram ∈ grams word) :
    gram.map f ∈ (grams l).map (List.map f) := by
  obtain ⟨hwithin, hlength⟩ := mem_grams.mp hgram
  have hmapped : gram.map f <:+: piece.map f := by
    rw [← hmap]
    exact hwithin.map f
  obtain ⟨gram', hgram', heq⟩ := List.infix_map_iff.mp hmapped
  refine List.mem_map.mpr ⟨gram', mem_grams.mpr ⟨hgram'.trans hpiece, ?_⟩, heq.symm⟩
  have := congrArg List.length heq
  rw [List.length_map, List.length_map] at this
  rwa [← this]

end Words
