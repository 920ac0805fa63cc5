import Mathlib.Data.List.Basic

/-!
# Computations in `Except`

What a computation that returned has done (`bind_eq_ok`), which errors a computation
can end in (`Errs`), and the two rules for a loop that stops at its first error:
`foldlM_ok` carries an invariant to the end, and `foldlM_error` says where a failed
loop stopped and that the invariant held there.
-/

universe u v w z

namespace Fallible

variable {ε : Type u} {ε' : Type z} {α β : Type v} {γ : Type w}

lemma ok_bind (a : α) (f : α → Except ε β) : (Except.ok a >>= f) = f a := rfl

variable {x : Except ε α} {e : ε} {a : α} {P : ε → Prop} {f : α → γ → Except ε α} {xs : List γ}

lemma bind_eq_ok {f : α → Except ε β} {b : β} :
    (x >>= f) = .ok b ↔ ∃ a, x = .ok a ∧ f a = .ok b := by
  cases x with
  | error e =>
    constructor
    · intro h
      cases h
    · rintro ⟨a, ha, -⟩
      cases ha
  | ok a =>
    constructor
    · exact fun h => ⟨a, rfl, h⟩
    · rintro ⟨a', ha, h⟩
      cases ha
      exact h

lemma bind_eq_error {f : α → Except ε β} (h : (x >>= f) = .error e) :
    x = .error e ∨ ∃ a, x = .ok a ∧ f a = .error e := by
  cases x with
  | error e' =>
    cases h
    exact .inl rfl
  | ok a => exact .inr ⟨a, rfl, h⟩

lemma mapError_eq_ok {f : ε → ε'} : x.mapError f = .ok a ↔ x = .ok a := by
  cases x <;> simp [Except.mapError]

/-! ## Errors -/

/-- Every error of the computation satisfies `P`. -/
def Errs (P : ε → Prop) (x : Except ε α) : Prop := ∀ e, x = .error e → P e

lemma errs_ok (a : α) : Errs P (.ok a : Except ε α) := by
  intro e h
  cases h

lemma errs_error (h : P e) : Errs P (.error e : Except ε α) := by
  intro e' he
  cases he
  exact h

lemma Errs.bind {f : α → Except ε β} (hx : Errs P x) (hf : ∀ a, x = .ok a → Errs P (f a)) :
    Errs P (x >>= f) := by
  intro e h
  rcases bind_eq_error h with h | ⟨a, ha, h⟩
  · exact hx e h
  · exact hf a ha e h

lemma errs_mapError {P : ε' → Prop} {f : ε → ε'} (h : ∀ e, P (f e)) : Errs P (x.mapError f) := by
  intro e he
  cases x with
  | ok a => cases he
  | error e' =>
    cases he
    exact h e'

/-! ## Loops -/

/-- What every round preserves holds at the end. -/
lemma foldlM_ok {I : List γ → α → Prop}
    (hround : ∀ done x a a', I done a → f a x = .ok a' → I (done ++ [x]) a') {a' : α} (ha : I [] a)
    (h : xs.foldlM f a = .ok a') : I xs a' := by
  suffices hall : ∀ (xs done : List γ) (a : α), I done a → xs.foldlM f a = .ok a' →
      I (done ++ xs) a' by
    simpa using hall xs [] a ha h
  intro xs
  induction xs with
  | nil =>
    intro done a hI h
    cases h
    simpa using hI
  | cons x xs ih =>
    intro done a hI h
    rw [List.foldlM_cons] at h
    obtain ⟨b, hb, hrest⟩ := bind_eq_ok.mp h
    have := ih (done ++ [x]) b (hround done x a b hI hb) hrest
    rwa [List.append_assoc, List.singleton_append] at this

/-- Where a failed loop stopped, with what every round had preserved. -/
lemma foldlM_error {I : List γ → α → Prop}
    (hround : ∀ done x a a', I done a → f a x = .ok a' → I (done ++ [x]) a') (ha : I [] a)
    (h : xs.foldlM f a = .error e) :
    ∃ done x rest b, xs = done ++ x :: rest ∧ I done b ∧ f b x = .error e := by
  suffices hall : ∀ (xs done : List γ) (a : α), I done a → xs.foldlM f a = .error e →
      ∃ done' x rest b, done ++ xs = done' ++ x :: rest ∧ I done' b ∧ f b x = .error e by
    simpa using hall xs [] a ha h
  intro xs
  induction xs with
  | nil =>
    intro done a _ h
    cases h
  | cons x xs ih =>
    intro done a hI h
    rw [List.foldlM_cons] at h
    rcases bind_eq_error h with hx | ⟨b, hb, hrest⟩
    · exact ⟨done, x, xs, a, rfl, hI, hx⟩
    · have := ih (done ++ [x]) b (hround done x a b hI hb) hrest
      rwa [List.append_assoc, List.singleton_append] at this

lemma Errs.foldlM (h : ∀ a x, Errs P (f a x)) : Errs P (xs.foldlM f a) := by
  intro e he
  obtain ⟨-, x, -, b, -, -, hx⟩ :=
    foldlM_error (I := fun _ _ => True) (fun _ _ _ _ _ _ => trivial) trivial he
  exact h b x e hx

lemma Errs.mapM {f : γ → Except ε α} (h : ∀ x, Errs P (f x)) : Errs P (xs.mapM f) := by
  induction xs with
  | nil => exact errs_ok _
  | cons x xs ih =>
    rw [List.mapM_cons]
    exact (h x).bind fun _ _ => ih.bind fun _ _ => errs_ok _

/-- The results of a loop that maps. -/
lemma mapM_eq_ok {f : γ → Except ε α} {as : List α} (h : xs.mapM f = .ok as) :
    List.Forall₂ (fun x a => f x = .ok a) xs as := by
  induction xs generalizing as with
  | nil =>
    cases h
    exact .nil
  | cons x xs ih =>
    rw [List.mapM_cons] at h
    obtain ⟨a, ha, h⟩ := bind_eq_ok.mp h
    obtain ⟨rest, hrest, h⟩ := bind_eq_ok.mp h
    cases h
    exact .cons ha (ih hrest)

end Fallible
