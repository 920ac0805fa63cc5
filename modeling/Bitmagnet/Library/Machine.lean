import Mathlib.Data.List.Basic

/-!
# Faulting machines, their runs, and refinement

A *machine* consumes one input at a time and either answers, moving to its next
state, or faults.  A fault is the outcome a program has when it panics: an index
out of range, an underflow, an `expect` on an absent value.  Nothing below
inspects how a fault came about, so a machine is just a function
`σ → ι → Option (ο × σ)`.

* `run` feeds a whole input list to a machine and collects the answers, and
  `invariant_run` carries what every step preserves through it.
* `replay` folds an abstract update over the same inputs **and the answers the
  machine gave**; an abstract model never has to predict an answer, it only has
  to say what each answer means.
* `Refines` is the one-step obligation, `Refines.run` its closure over runs: a
  related machine never faults, every answer it gives is legal in the abstract
  state it was given in, and the relation still holds at the end.
-/

namespace Machine

universe u v w z

variable {σ : Type u} {ι : Type v} {ο : Type w} {α : Type z}

/-- Feed a list of inputs to a machine, collecting its answers.  `none` is a
fault at some step. -/
def run (step : σ → ι → Option (ο × σ)) : σ → List ι → Option (List ο × σ)
  | s, [] => some ([], s)
  | s, i :: is =>
    (step s i).bind fun p =>
      (run step p.2 is).map fun q => (p.1 :: q.1, q.2)

lemma run_cons (step : σ → ι → Option (ο × σ)) (s : σ) (i : ι) (is : List ι) :
    run step s (i :: is) =
      (step s i).bind fun p =>
        (run step p.2 is).map fun q => (p.1 :: q.1, q.2) := rfl

variable {step : σ → ι → Option (ο × σ)}

/-- What a non-empty run did first. -/
lemma run_cons_eq_some {s s' : σ} {i : ι} {is : List ι} {os : List ο}
    (h : run step s (i :: is) = some (os, s')) :
    ∃ o next rest, step s i = some (o, next) ∧ run step next is = some (rest, s') ∧
      os = o :: rest := by
  obtain ⟨⟨o, next⟩, hstep, hrest⟩ := Option.bind_eq_some_iff.mp h
  obtain ⟨⟨rest, last⟩, hlast, heq⟩ := Option.map_eq_some_iff.mp hrest
  cases heq
  exact ⟨o, next, rest, hstep, hlast, rfl⟩

/-- **Invariants are closed under runs.** -/
lemma invariant_run {P : σ → Prop}
    (hstep : ∀ {s s' : σ} {i : ι} {o : ο}, P s → step s i = some (o, s') → P s') :
    ∀ (is : List ι) {s s' : σ} {os : List ο}, P s → run step s is = some (os, s') → P s' := by
  intro is
  induction is with
  | nil =>
    intro s s' os h hrun
    cases hrun
    exact h
  | cons i is ih =>
    intro s s' os h hrun
    obtain ⟨o, next, rest, hfirst, hlast, -⟩ := run_cons_eq_some hrun
    exact ih (hstep h hfirst) hlast

/-- Every input of the list is taken in a state where `ok` allows it. -/
def Along (step : σ → ι → Option (ο × σ)) (ok : σ → ι → Prop) : σ → List ι → Prop
  | _, [] => True
  | s, i :: is =>
    ok s i ∧ match step s i with
      | some (_, s') => Along step ok s' is
      | none => True

instance decidableAlong {step : σ → ι → Option (ο × σ)} {ok : σ → ι → Prop}
    [∀ s i, Decidable (ok s i)] : ∀ (s : σ) (is : List ι), Decidable (Along step ok s is)
  | _, [] => .isTrue trivial
  | s, i :: is =>
    have : Decidable (match step s i with
        | some (_, s') => Along step ok s' is
        | none => True) :=
      match step s i with
      | some (_, s') => decidableAlong s' is
      | none => .isTrue trivial
    inferInstanceAs (Decidable (_ ∧ _))

/-- Invariants are closed under runs whose steps are all allowed. -/
lemma invariant_run_along {P : σ → Prop} {ok : σ → ι → Prop}
    (hstep : ∀ {s s' : σ} {i : ι} {o : ο}, P s → ok s i → step s i = some (o, s') → P s') :
    ∀ (is : List ι) {s s' : σ} {os : List ο}, P s → Along step ok s is →
      run step s is = some (os, s') → P s' := by
  intro is
  induction is with
  | nil =>
    intro s s' os h _ hrun
    cases hrun
    exact h
  | cons i is ih =>
    intro s s' os h halong hrun
    obtain ⟨o, next, rest, hfirst, hlast, -⟩ := run_cons_eq_some hrun
    obtain ⟨hok, hrest⟩ := halong
    rw [hfirst] at hrest
    exact ih (hstep h hok hfirst) hrest hlast

/-- An input of a run was consumed at some state of it. -/
lemma exists_step_of_mem {i : ι} :
    ∀ {is : List ι} {s s' : σ} {os : List ο}, i ∈ is → run step s is = some (os, s') →
      ∃ o before after later rest, step before i = some (o, after) ∧
        run step after later = some (rest, s') := by
  intro is
  induction is with
  | nil =>
    intro s s' os hmem
    cases hmem
  | cons j is ih =>
    intro s s' os hmem hrun
    obtain ⟨o, next, rest, hfirst, hlast, -⟩ := run_cons_eq_some hrun
    rcases List.mem_cons.mp hmem with rfl | hmem
    · exact ⟨o, s, next, is, rest, hfirst, hlast⟩
    · exact ih hmem hlast

/-- Fold an abstract update over the inputs of a run and the answers given. -/
def replay (spec : α → ι → ο → α) : α → List ι → List ο → α
  | a, i :: is, o :: os => replay spec (spec a i o) is os
  | a, _, _ => a

@[simp] lemma replay_nil (spec : α → ι → ο → α) (a : α) (os : List ο) :
    replay spec a [] os = a := by
  cases os <;> rfl

@[simp] lemma replay_cons (spec : α → ι → ο → α) (a : α) (i : ι) (is : List ι)
    (o : ο) (os : List ο) :
    replay spec a (i :: is) (o :: os) = replay spec (spec a i o) is os := rfl

/-- Every answer of a run is legal in the abstract state it was given in. -/
def Legal (spec : α → ι → ο → α) (legal : α → ι → ο → Prop) :
    α → List ι → List ο → Prop
  | _, [], [] => True
  | a, i :: is, o :: os => legal a i o ∧ Legal spec legal (spec a i o) is os
  | _, _, _ => False

/-- **One-step refinement.**  From related states the machine does not fault,
answers legally, and stays related to the abstract state that answer leads to. -/
structure Refines (step : σ → ι → Option (ο × σ)) (spec : α → ι → ο → α)
    (legal : α → ι → ο → Prop) (R : σ → α → Prop) : Prop where
  step_ok : ∀ {s : σ} {a : α} (i : ι), R s a →
    ∃ (o : ο) (s' : σ), step s i = some (o, s') ∧ legal a i o ∧ R s' (spec a i o)

/-- **Refinement is closed under runs.** -/
lemma Refines.run {spec : α → ι → ο → α} {legal : α → ι → ο → Prop} {R : σ → α → Prop}
    (h : Refines step spec legal R) :
    ∀ (is : List ι) {s : σ} {a : α}, R s a →
      ∃ (os : List ο) (s' : σ), Machine.run step s is = some (os, s') ∧
        Legal spec legal a is os ∧ R s' (replay spec a is os) := by
  intro is
  induction is with
  | nil =>
    intro s a hR
    exact ⟨[], s, rfl, trivial, by simpa using hR⟩
  | cons i is ih =>
    intro s a hR
    obtain ⟨o, s', hstep, hlegal, hR'⟩ := h.step_ok i hR
    obtain ⟨os, s'', hrun, hrest, hR''⟩ := ih hR'
    refine ⟨o :: os, s'', ?_, ⟨hlegal, hrest⟩, by simpa using hR''⟩
    simp [run_cons, hstep, hrun]

end Machine
