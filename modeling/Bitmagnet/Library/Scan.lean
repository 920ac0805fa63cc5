import Mathlib.Data.List.Basic

/-!
# Computations that can fail or fault, and weakest preconditions for them

An `Outcome` is a value, an error the program reports, or a fault: the outcome
of an index out of range, an arithmetic overflow or an unwrapped absent value.
A `Scan` is a computation over a state that ends in an outcome; it keeps the
state it had reached also when it ends in an error, so that a bound on the work
done holds for failing runs too.

`Scan.wp m Q E s` says that `m`, started in `s`, does not fault, satisfies `Q`
where it returns and `E` where it fails.  Its rewriting rules execute a program
symbolically; `Scan.wp_mono` brings in the specification of a called function.
`Scan.iterate` is a loop with a bound on its iterations, and `Scan.wp_iterate`
its invariant rule: a measure that every iteration decreases keeps the bound
from being the reason to stop.
-/

universe u v w z

/-- How a computation ends. -/
inductive Outcome (ε : Type u) (α : Type v)
  | ok (value : α)
  | error (reason : ε)
  | fault
deriving DecidableEq, Repr

namespace Outcome

variable {ε : Type u} {ε' : Type w} {α : Type v} {β : Type v}

/-- Continue with the value, if there is one. -/
def bind (x : Outcome ε α) (f : α → Outcome ε β) : Outcome ε β :=
  match x with
  | ok a => f a
  | error e => error e
  | fault => fault

instance : Monad (Outcome ε) where
  pure := ok
  bind := bind

/-- Rename the error. -/
def mapError (f : ε → ε') : Outcome ε α → Outcome ε' α
  | ok a => ok a
  | error e => error (f e)
  | fault => fault

/-- An absent value is a fault. -/
def ofOption : Option α → Outcome ε α
  | some a => ok a
  | none => fault

@[simp] lemma pure_eq (a : α) : (pure a : Outcome ε α) = ok a := rfl

@[simp] lemma ok_bind (a : α) (f : α → Outcome ε β) : (ok a >>= f) = f a := rfl

@[simp] lemma error_bind (e : ε) (f : α → Outcome ε β) : (error e >>= f) = error e := rfl

@[simp] lemma fault_bind (f : α → Outcome ε β) : ((fault : Outcome ε α) >>= f) = fault := rfl

@[simp] lemma map_ok (a : α) (f : α → β) : (f <$> (ok a : Outcome ε α)) = ok (f a) := rfl

@[simp] lemma map_error (e : ε) (f : α → β) : (f <$> (error e : Outcome ε α)) = error e := rfl

@[simp] lemma map_fault (f : α → β) : (f <$> (fault : Outcome ε α)) = fault := rfl

@[simp] lemma mapError_ok (a : α) (f : ε → ε') : mapError f (ok a) = ok a := rfl

@[simp] lemma mapError_error (e : ε) (f : ε → ε') :
    mapError f (error e : Outcome ε α) = error (f e) := rfl

@[simp] lemma ofOption_some (a : α) : (ofOption (some a) : Outcome ε α) = ok a := rfl

/-- All values in order, or the first outcome that is none. -/
def collect : List (Outcome ε α) → Outcome ε (List α)
  | [] => ok []
  | x :: xs => x.bind fun a => (collect xs).bind fun as => ok (a :: as)

lemma collect_map_ok {γ : Type z} {f : γ → Outcome ε α} {g : γ → α} {xs : List γ}
    (h : ∀ x ∈ xs, f x = ok (g x)) : collect (xs.map f) = ok (xs.map g) := by
  induction xs with
  | nil => rfl
  | cons x xs ih =>
    have hx := h x (by simp)
    have hxs := ih fun y hy => h y (by simp [hy])
    simp [collect, hx, hxs, bind]

/-- The outcome is no fault, its value satisfies `Q`, its error satisfies `E`. -/
def Ensures (x : Outcome ε α) (Q : α → Prop) (E : ε → Prop) : Prop :=
  match x with
  | ok a => Q a
  | error e => E e
  | fault => False

@[simp] lemma ensures_ok (a : α) (Q : α → Prop) (E : ε → Prop) : (ok a).Ensures Q E ↔ Q a := Iff.rfl

@[simp] lemma ensures_error (e : ε) (Q : α → Prop) (E : ε → Prop) :
    (error e).Ensures Q E ↔ E e := Iff.rfl

@[simp] lemma ensures_fault (Q : α → Prop) (E : ε → Prop) :
    (fault : Outcome ε α).Ensures Q E ↔ False := Iff.rfl

variable {E : ε → Prop}

lemma Ensures.mono {x : Outcome ε α} {Q Q' : α → Prop} {E' : ε → Prop} (h : x.Ensures Q E)
    (hQ : ∀ a, Q a → Q' a) (hE : ∀ e, E e → E' e) : x.Ensures Q' E' := by
  cases x with
  | ok a => exact hQ a h
  | error e => exact hE e h
  | fault => exact h

lemma ensures_mapError (x : Outcome ε α) (f : ε → ε') (Q : α → Prop) (E : ε' → Prop) :
    (x.mapError f).Ensures Q E ↔ x.Ensures Q fun e => E (f e) := by
  cases x <;> rfl

lemma ensures_bind (x : Outcome ε α) (f : α → Outcome ε β) (Q : β → Prop) (E : ε → Prop) :
    (x >>= f).Ensures Q E ↔ x.Ensures (fun a => (f a).Ensures Q E) E := by
  cases x <;> rfl

lemma ensures_map (x : Outcome ε α) (f : α → β) (Q : β → Prop) (E : ε → Prop) :
    (f <$> x).Ensures Q E ↔ x.Ensures (fun a => Q (f a)) E := by
  cases x <;> rfl

/-- Folding steps that each ensure `I` from `I` ensures it. -/
lemma ensures_foldlM {γ : Type z} {f : α → γ → Outcome ε α} {I : α → Prop} {xs : List γ}
    (h : ∀ a, I a → ∀ x ∈ xs, (f a x).Ensures I E) {a : α} (ha : I a) :
    (xs.foldlM f a).Ensures I E := by
  induction xs generalizing a with
  | nil => exact ha
  | cons x xs ih =>
    rw [List.foldlM_cons, ensures_bind]
    refine (h a ha x (by simp)).mono (fun b hb => ?_) fun _ he => he
    exact ih (fun c hc y hy => h c hc y (by simp [hy])) hb

/-- Collecting outcomes that each ensure `Q` ensures it of every value. -/
lemma ensures_collect {xs : List (Outcome ε α)} {Q : α → Prop} (h : ∀ x ∈ xs, x.Ensures Q E) :
    (collect xs).Ensures (fun as => as.length = xs.length ∧ ∀ a ∈ as, Q a) E := by
  induction xs with
  | nil => simp [collect]
  | cons x xs ih =>
    have hx := h x (by simp)
    have hxs := ih fun y hy => h y (by simp [hy])
    cases x with
    | ok a =>
      simp only [collect, bind]
      cases hc : collect xs with
      | ok as =>
        rw [hc] at hxs
        have hQa : Q a := hx
        simpa [hQa] using hxs
      | error e => simpa [hc] using hxs
      | fault => simp [hc] at hxs
    | error e => exact hx
    | fault => exact hx.elim

end Outcome

/-- A computation over a state `σ`, with errors `ε`. -/
def Scan (σ : Type u) (ε : Type w) (α : Type v) := σ → Outcome ε α × σ

namespace Scan

section Definitions

variable {σ : Type u} {ε : Type w} {α : Type v} {β : Type v}

instance : Monad (Scan σ ε) where
  pure a := fun s => (.ok a, s)
  bind m f := fun s =>
    match m s with
    | (.ok a, s') => f a s'
    | (.error e, s') => (.error e, s')
    | (.fault, s') => (.fault, s')

/-- Report an error. -/
def fail (e : ε) : Scan σ ε α := fun s => (.error e, s)

/-- Report an error unless a condition holds. -/
def ensure (p : Prop) [Decidable p] (e : ε) : Scan σ ε PUnit.{v + 1} :=
  fun s => if p then (.ok ⟨⟩, s) else (.error e, s)

/-- Fault. -/
def fault : Scan σ ε α := fun s => (.fault, s)

/-- An outcome that does not depend on the state. -/
def lift (x : Outcome ε α) : Scan σ ε α := fun s => (x, s)

/-- What holds after `m`, started in `s`: no fault, `Q` of a result and `E` of an
error, each with the state reached. -/
def wp (m : Scan σ ε α) (Q : α → σ → Prop) (E : ε → σ → Prop) (s : σ) : Prop :=
  match m s with
  | (.ok a, s') => Q a s'
  | (.error e, s') => E e s'
  | (.fault, _) => False

end Definitions

/-- Read the state. -/
def read {σ : Type u} {ε : Type w} : Scan σ ε σ := fun s => (.ok s, s)

/-- Change the state. -/
def update {σ : Type u} {ε : Type w} (f : σ → σ) : Scan σ ε Unit := fun s => (.ok (), f s)

/-! ## Symbolic execution -/

section

variable {σ : Type u} {ε : Type w} {α : Type v} {β : Type v}
variable {Q : α → σ → Prop} {E : ε → σ → Prop} {s : σ}

@[simp] lemma wp_pure (a : α) : wp (pure a : Scan σ ε α) Q E s ↔ Q a s := Iff.rfl

@[simp] lemma wp_bind (m : Scan σ ε α) (f : α → Scan σ ε β) {Q : β → σ → Prop} :
    wp (m >>= f) Q E s ↔ wp m (fun a s' => wp (f a) Q E s') E s := by
  change (match (match m s with
      | (.ok a, s') => f a s'
      | (.error e, s') => (.error e, s')
      | (.fault, s') => (.fault, s') : Outcome ε β × σ) with
    | (.ok a, s') => Q a s'
    | (.error e, s') => E e s'
    | (.fault, _) => False) ↔ _
  unfold wp
  rcases m s with ⟨_ | _ | _, s'⟩ <;> rfl

@[simp] lemma wp_map (f : α → β) (m : Scan σ ε α) {Q : β → σ → Prop} :
    wp (f <$> m) Q E s ↔ wp m (fun a s' => Q (f a) s') E s :=
  wp_bind m (fun a => pure (f a))

@[simp] lemma wp_fail (e : ε) : wp (fail e : Scan σ ε α) Q E s ↔ E e s := Iff.rfl

@[simp] lemma wp_ensure (p : Prop) [Decidable p] (e : ε) {Q : PUnit.{v + 1} → σ → Prop} :
    wp (ensure p e : Scan σ ε PUnit) Q E s ↔ (p → Q ⟨⟩ s) ∧ (¬p → E e s) := by
  unfold wp ensure
  by_cases h : p <;> simp [h]

@[simp] lemma wp_fault : wp (fault : Scan σ ε α) Q E s ↔ False := Iff.rfl

@[simp] lemma wp_read {Q : σ → σ → Prop} : wp (read : Scan σ ε σ) Q E s ↔ Q s s := Iff.rfl

@[simp] lemma wp_update (f : σ → σ) {Q : Unit → σ → Prop} :
    wp (update f : Scan σ ε Unit) Q E s ↔ Q () (f s) := Iff.rfl

@[simp] lemma wp_lift (x : Outcome ε α) :
    wp (lift x) Q E s ↔ x.Ensures (fun a => Q a s) (fun e => E e s) := by
  unfold wp lift
  cases x <;> rfl

@[simp] lemma wp_ite (p : Prop) [Decidable p] (m m' : Scan σ ε α) :
    wp (if p then m else m') Q E s ↔ (p → wp m Q E s) ∧ (¬p → wp m' Q E s) := by
  split <;> simp [*]

/-- Consequence: use a specification at a weaker postcondition. -/
lemma wp_mono {m : Scan σ ε α} {Q' : α → σ → Prop} {E' : ε → σ → Prop}
    (h : wp m Q' E' s) (hQ : ∀ a s', Q' a s' → Q a s') (hE : ∀ e s', E' e s' → E e s') :
    wp m Q E s := by
  unfold wp at h ⊢
  split
  · rename_i heq
    rw [heq] at h
    exact hQ _ _ h
  · rename_i heq
    rw [heq] at h
    exact hE _ _ h
  · rename_i heq
    rw [heq] at h
    exact h

end

/-- What a sequence that returns has done. -/
lemma bind_eq_ok {σ : Type u} {ε : Type w} {α β : Type v} {m : Scan σ ε α}
    {f : α → Scan σ ε β} {s s' : σ} {b : β} (h : (m >>= f) s = (.ok b, s')) :
    ∃ a t, m s = (.ok a, t) ∧ f a t = (.ok b, s') := by
  change (match m s with
    | (.ok a, t) => f a t
    | (.error e, t) => (.error e, t)
    | (.fault, t) => (.fault, t)) = (Outcome.ok b, s') at h
  rcases hm : m s with ⟨a | e | _, t⟩
  · rw [hm] at h
    exact ⟨a, t, rfl, h⟩
  · rw [hm] at h
    cases h
  · rw [hm] at h
    cases h

/-- How a run with a specification ends. -/
lemma cases_of_wp {σ : Type u} {ε : Type w} {α : Type v} {m : Scan σ ε α}
    {Q : α → σ → Prop} {E : ε → σ → Prop} {s : σ} (h : wp m Q E s) :
    (∃ a s', m s = (.ok a, s') ∧ Q a s') ∨ ∃ e s', m s = (.error e, s') ∧ E e s' := by
  unfold wp at h
  split at h
  case h_1 a s' hm => exact .inl ⟨a, s', hm, h⟩
  case h_2 e s' hm => exact .inr ⟨e, s', hm, h⟩
  case h_3 => exact h.elim

/-! ## Loops -/

section

variable {σ : Type u} {ε : Type w} {α β : Type v}

/-- At most `fuel` rounds of `step`, which either goes on with `Sum.inl` or stops
with `Sum.inr`. -/
def iterate (step : β → Scan σ ε (β ⊕ α)) : Nat → β → Scan σ ε α
  | 0, _ => fault
  | fuel + 1, b => do
    match ← step b with
    | .inl b' => iterate step fuel b'
    | .inr a => pure a

/-- **The invariant rule.**  If every round keeps `I` while it goes on, decreases
`μ`, and establishes `Q` when it stops, the loop does so from any start with
`μ` below its bound. -/
lemma wp_iterate {step : β → Scan σ ε (β ⊕ α)} (I : β → σ → Prop) (μ : σ → Nat)
    {Q : α → σ → Prop} {E : ε → σ → Prop}
    (hstep : ∀ b s, I b s →
      wp (step b) (fun r s' => Sum.elim (fun b' => I b' s' ∧ μ s' < μ s) (fun a => Q a s') r) E s) :
    ∀ (fuel : Nat) (b : β) (s : σ), I b s → μ s < fuel → wp (iterate step fuel b) Q E s := by
  intro fuel
  induction fuel with
  | zero =>
    intro b s _ hlt
    omega
  | succ fuel ih =>
    intro b s hI hlt
    simp only [iterate, wp_bind]
    refine wp_mono (hstep b s hI) ?_ (fun _ _ h => h)
    rintro (b' | a) s' h
    · exact ih b' s' h.1 (by have := h.2; omega)
    · exact h

end

end Scan
