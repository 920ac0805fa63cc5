import Mathlib.Data.Nat.Init
import Bitmagnet.Library.Machine

/-!
# Fair executions

An *execution* of a machine is an infinite sequence of its states; between two of them the machine
takes one step or nothing happens.  Events belong to *agents* (a thread, say) or to the environment.
An execution is fair if an agent that can go on from some moment on does go on.

`Execution.eventually` is the rule for what a fair execution must reach: in every state before it there
is a helpful agent, which can go on; nothing but its own step changes who is helpful without getting
closer, and its own step gets closer.
-/

namespace Fairness

universe u v w z

variable {σ : Type u} {ι : Type v} {ο : Type w} {τ : Type z}

/-- An infinite run; an absent event is a moment at which nothing happens. -/
structure Execution (step : σ → ι → Option (ο × σ)) where
  state : Nat → σ
  event : Nat → Option ι
  idle : ∀ n, event n = none → state (n + 1) = state n
  next : ∀ n i, event n = some i → ∃ o, step (state n) i = some (o, state (n + 1))

variable {step : σ → ι → Option (ο × σ)}

/-- The agent can go on. -/
def Enabled (step : σ → ι → Option (ο × σ)) (agent : ι → Option τ) (a : τ) (s : σ) : Prop :=
  ∃ i o s', agent i = some a ∧ step s i = some (o, s')

namespace Execution

/-- An agent that can go on forever does. -/
def Fair (e : Execution step) (agent : ι → Option τ) : Prop :=
  ∀ (a : τ) (n : Nat), (∀ m ≥ n, Enabled step agent a (e.state m)) →
    ∃ m ≥ n, ∃ i, e.event m = some i ∧ agent i = some a

/-- What every step keeps holds throughout. -/
lemma always (e : Execution step) {P : σ → Prop}
    (hstep : ∀ {s s' : σ} {i : ι} {o : ο}, P s → step s i = some (o, s') → P s')
    {n : Nat} (h : P (e.state n)) : ∀ m ≥ n, P (e.state m) := by
  intro m hm
  induction m, hm using Nat.le_induction with
  | base => exact h
  | succ m _ ih =>
    cases hevent : e.event m with
    | none => rwa [e.idle m hevent]
    | some i =>
      obtain ⟨o, hnext⟩ := e.next m i hevent
      exact hstep ih hnext

section Eventually

variable {agent : ι → Option τ} {P Q : σ → Prop} (rank : σ → Nat) (helpful : σ → τ)

/-- A step gets closer, or leaves the helpful agent in its place. -/
def Closer (agent : ι → Option τ) (i : ι) (s s' : σ) : Prop :=
  rank s' < rank s ∨ rank s' = rank s ∧ helpful s' = helpful s ∧ agent i ≠ some (helpful s)

-- As long as the rank does not drop, the same agent stays helpful and does not go on, which fairness
-- rules out; so the rank drops, and the induction is on it.
lemma eventually {e : Execution step} (hfair : e.Fair agent)
    (henabled : ∀ s, P s → ¬Q s → Enabled step agent (helpful s) s)
    (hstep : ∀ {s s' : σ} {i : ι} {o : ο}, P s → ¬Q s → step s i = some (o, s') →
      P s' ∧ Closer rank helpful agent i s s') :
    ∀ {n : Nat}, P (e.state n) → ∃ m ≥ n, Q (e.state m) := by
  intro n
  induction hrank : rank (e.state n) using Nat.strong_induction_on generalizing n with
  | _ r ih =>
    subst hrank
    intro hP
    by_contra hnever
    push Not at hnever
    have hstays : ∀ m ≥ n, P (e.state m) ∧ rank (e.state m) = rank (e.state n) ∧
        helpful (e.state m) = helpful (e.state n) := by
      intro m hm
      induction m, hm using Nat.le_induction with
      | base => exact ⟨hP, rfl, rfl⟩
      | succ m hm ihm =>
        obtain ⟨hPm, hrank, hhelp⟩ := ihm
        cases hevent : e.event m with
        | none => rw [e.idle m hevent]; exact ⟨hPm, hrank, hhelp⟩
        | some i =>
          obtain ⟨o, hnext⟩ := e.next m i hevent
          obtain ⟨hP', hcloser⟩ := hstep hPm (hnever m hm) hnext
          rcases hcloser with hlt | ⟨heq, hsame, _⟩
          · obtain ⟨k, hk, hQ⟩ := ih _ (hrank ▸ hlt) rfl hP'
            exact absurd hQ (hnever k (by omega))
          · exact ⟨hP', heq.trans hrank, hsame.trans hhelp⟩
    obtain ⟨m, hm, i, hevent, hagent⟩ := hfair (helpful (e.state n)) n fun m hm => by
      obtain ⟨hPm, _, hhelp⟩ := hstays m hm
      exact hhelp ▸ henabled _ hPm (hnever m hm)
    obtain ⟨o, hnext⟩ := e.next m i hevent
    obtain ⟨hPm, hrank, hhelp⟩ := hstays m hm
    rcases (hstep hPm (hnever m hm) hnext).2 with hlt | ⟨_, _, hother⟩
    · have hrank' := (hstays (m + 1) (by omega)).2.1
      omega
    · exact hother (hhelp ▸ hagent)

end Eventually

/-! ## Finite runs -/

/-- The states of a finite run, the last of them forever. -/
def states (step : σ → ι → Option (ο × σ)) : σ → List ι → Nat → σ
  | s, i :: is, n + 1 =>
    match step s i with
    | some (_, s') => states step s' is n
    | none => s
  | s, _, _ => s

lemma states_zero (s : σ) (is : List ι) : states step s is 0 = s := by
  cases is <;> rfl

lemma states_nil (s : σ) (n : Nat) : states step s [] n = s := by
  cases n <;> rfl

variable {is : List ι} {os : List ο} {s s' : σ}

lemma states_next (hrun : Machine.run step s is = some (os, s')) (n : Nat) :
    (is[n]? = none → states step s is (n + 1) = states step s is n) ∧
      ∀ i, is[n]? = some i →
        ∃ o, step (states step s is n) i = some (o, states step s is (n + 1)) := by
  induction is generalizing s os n with
  | nil => exact ⟨fun _ => by rw [states_nil, states_nil], fun i hi => by simp at hi⟩
  | cons j is ih =>
    obtain ⟨o, next, rest, hfirst, hlast, -⟩ := Machine.run_cons_eq_some hrun
    cases n with
    | zero =>
      refine ⟨fun h => by simp at h, fun i hi => ⟨o, ?_⟩⟩
      obtain rfl : j = i := by simpa using hi
      simp only [states_zero, states, hfirst]
    | succ n =>
      have := ih hlast n
      simpa only [states, hfirst, List.getElem?_cons_succ] using this

/-- A finite run as an execution. -/
def ofRun {s s' : σ} {is : List ι} {os : List ο} (hrun : Machine.run step s is = some (os, s')) :
    Execution step where
  state := states step s is
  event n := is[n]?
  idle n := (states_next hrun n).1
  next n := (states_next hrun n).2

lemma states_last (hrun : Machine.run step s is = some (os, s')) {n : Nat} (h : is.length ≤ n) :
    states step s is n = s' := by
  induction is generalizing s os n with
  | nil =>
    cases hrun
    exact states_nil ..
  | cons j is ih =>
    obtain ⟨o, next, rest, hfirst, hlast, -⟩ := Machine.run_cons_eq_some hrun
    cases n with
    | zero => simp at h
    | succ n => simpa only [states, hfirst] using ih hlast (by simpa using h)

/-- A run after which no agent can go on is fair. -/
lemma fair_ofRun (hrun : Machine.run step s is = some (os, s')) {agent : ι → Option τ}
    (hquiet : ∀ a, ¬Enabled step agent a s') : (ofRun hrun).Fair agent := by
  intro a n henabled
  have hlast := henabled (max n is.length) (Nat.le_max_left ..)
  have hstate : (ofRun hrun).state (max n is.length) = s' := states_last hrun (Nat.le_max_right ..)
  exact absurd (hstate ▸ hlast) (hquiet a)

end Execution

end Fairness
