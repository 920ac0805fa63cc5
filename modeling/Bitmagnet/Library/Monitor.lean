import Bitmagnet.Library.Machine

/-!
# Calls behind one lock

A *monitor* is a state behind a mutex and a family of calls that hold the mutex from
their first access to their return.  A call may suspend while it holds it, waiting for
an answer from outside; it can be dropped there, which gives the mutex back and leaves
the state as it is, and it may panic.

`step` interleaves such calls in every order the mutex allows: a call enters when no
other holds the mutex, the answer of the outside world is any, and what happened so far
is kept in a log.  `Call.wp` is the weakest precondition of one call with an invariant
that has to hold wherever the call can be dropped, and `sound_step` lifts it to every
event of an interleaving.
-/

namespace Monitor

variable {σ Req Ans β γ κ : Type}

/-- A call: it reads and writes the guarded state, waits for answers, and returns or
panics. -/
inductive Call (σ Req Ans β : Type)
  | ret (b : β)
  | panic
  | read (k : σ → Call σ Req Ans β)
  | write (s : σ) (k : Call σ Req Ans β)
  | await (r : Req) (k : Ans → Call σ Req Ans β)

namespace Call

/-- Sequencing. -/
def bind : Call σ Req Ans β → (β → Call σ Req Ans γ) → Call σ Req Ans γ
  | ret b, f => f b
  | panic, _ => panic
  | read k, f => read fun s => (k s).bind f
  | write s k, f => write s (k.bind f)
  | await r k, f => await r fun a => (k a).bind f

instance : Monad (Call σ Req Ans) where
  pure := ret
  bind := bind

/-- The guarded state. -/
def get : Call σ Req Ans σ := read ret

/-- Overwrite the guarded state. -/
def set (s : σ) : Call σ Req Ans Unit := write s (ret ())

/-- Wait for the answer to a request. -/
def ask (r : Req) : Call σ Req Ans Ans := await r ret

end Call

/-- Where a call stopped. -/
inductive Pause (σ Req Ans β : Type)
  | returned (b : β)
  | panicked
  | waiting (r : Req) (k : Ans → Call σ Req Ans β)

/-- Run a call until it returns, panics or waits. -/
def Call.advance : Call σ Req Ans β → σ → Pause σ Req Ans β × σ
  | ret b, s => (.returned b, s)
  | panic, s => (.panicked, s)
  | read k, s => (k s).advance s
  | write s k, _ => k.advance s
  | await r k, s => (.waiting r k, s)

/-! ## Interleavings -/

/-- What has happened to a monitor. -/
inductive Happened (σ Req Ans κ : Type)
  | entered (call : κ)
  /-- a request was answered in the given state -/
  | answered (r : Req) (a : Ans) (s : σ)
  | cancelled (call : κ)

/-- A monitor: its state, the call that holds the mutex, and what happened so far. -/
structure System (σ Req Ans κ β : Type) where
  state : σ
  holder : Option (κ × Req × (Ans → Call σ Req Ans β)) := none
  log : List (Happened σ Req Ans κ) := []

/-- What the scheduler and the outside world can do. -/
inductive Event (Ans κ : Type)
  | enter (call : κ)
  | answer (a : Ans)
  | cancel

/-- What came of an event. -/
inductive Reply (Req κ β : Type)
  | returned (call : κ) (b : β)
  | panicked (call : κ)
  | waiting (call : κ) (r : Req)
  | cancelled (call : κ)

/-- The monitor after a call has run up to its next pause. -/
def settle (call : κ) (log : List (Happened σ Req Ans κ)) :
    Pause σ Req Ans β × σ → Reply Req κ β × System σ Req Ans κ β
  | (.returned b, s) => (.returned call b, { state := s, log })
  | (.panicked, s) => (.panicked call, { state := s, log })
  | (.waiting r k, s) => (.waiting call r, { state := s, holder := some (call, r, k), log })

/-- One event; `none` where the mutex does not allow it. -/
def step (body : κ → Call σ Req Ans β) (m : System σ Req Ans κ β) :
    Event Ans κ → Option (Reply Req κ β × System σ Req Ans κ β)
  | .enter call =>
    match m.holder with
    | some _ => none
    | none => some (settle call (m.log ++ [.entered call]) ((body call).advance m.state))
  | .answer a =>
    match m.holder with
    | none => none
    | some (call, r, k) =>
      some (settle call (m.log ++ [.answered r a m.state]) ((k a).advance m.state))
  | .cancel =>
    match m.holder with
    | none => none
    | some (call, _, _) =>
      some (.cancelled call, { state := m.state, log := m.log ++ [.cancelled call] })

variable {e : Event Ans κ} {m m' : System σ Req Ans κ β} {reply : Reply Req κ β}

/-- What an event that the mutex allows does. -/
lemma step_eq_some {body : κ → Call σ Req Ans β} (h : step body m e = some (reply, m')) :
    (∃ call, e = .enter call ∧ m.holder = none ∧
      settle call (m.log ++ [.entered call]) ((body call).advance m.state) = (reply, m')) ∨
    (∃ call r k a, e = .answer a ∧ m.holder = some (call, r, k) ∧
      settle call (m.log ++ [.answered r a m.state]) ((k a).advance m.state) = (reply, m')) ∨
    ∃ call r k, e = .cancel ∧ m.holder = some (call, r, k) ∧ reply = .cancelled call ∧
      m' = { state := m.state, log := m.log ++ [.cancelled call] } := by
  unfold step at h
  cases hholder : m.holder with
  | none =>
    rw [hholder] at h
    cases e with
    | enter call => exact .inl ⟨call, rfl, rfl, Option.some.inj h⟩
    | answer a => cases h
    | cancel => cases h
  | some holder =>
    obtain ⟨call, r, k⟩ := holder
    rw [hholder] at h
    cases e with
    | enter call' => cases h
    | answer a => exact .inr (.inl ⟨call, r, k, a, rfl, rfl, Option.some.inj h⟩)
    | cancel =>
      cases h
      exact .inr (.inr ⟨call, r, k, rfl, rfl, rfl, rfl⟩)

/-! ## Preconditions -/

variable {I : List (Happened σ Req Ans κ) → σ → Prop}
  {Q Q' : List (Happened σ Req Ans κ) → σ → β → Prop}

namespace Call

/-- The call does not panic, keeps `I` wherever it waits, and returns in `Q`. -/
def wp (I : List (Happened σ Req Ans κ) → σ → Prop) :
    Call σ Req Ans β → (List (Happened σ Req Ans κ) → σ → β → Prop) →
      List (Happened σ Req Ans κ) → σ → Prop
  | ret b, Q, log, s => Q log s b
  | panic, _, _, _ => False
  | read k, Q, log, s => (k s).wp I Q log s
  | write s k, Q, log, _ => k.wp I Q log s
  | await r k, Q, log, s => I log s ∧ ∀ a, (k a).wp I Q (log ++ [.answered r a s]) s

@[simp] lemma wp_pure (b : β) (log : List (Happened σ Req Ans κ)) (s : σ) :
    (pure b : Call σ Req Ans β).wp I Q log s ↔ Q log s b := Iff.rfl

@[simp] lemma wp_get {Q : List (Happened σ Req Ans κ) → σ → σ → Prop}
    (log : List (Happened σ Req Ans κ)) (s : σ) :
    (get : Call σ Req Ans σ).wp I Q log s ↔ Q log s s := Iff.rfl

@[simp] lemma wp_set {Q : List (Happened σ Req Ans κ) → σ → Unit → Prop}
    (log : List (Happened σ Req Ans κ)) (s s' : σ) :
    (set s' : Call σ Req Ans Unit).wp I Q log s ↔ Q log s' () := Iff.rfl

@[simp] lemma wp_ask {Q : List (Happened σ Req Ans κ) → σ → Ans → Prop} (r : Req)
    (log : List (Happened σ Req Ans κ)) (s : σ) :
    (ask r : Call σ Req Ans Ans).wp I Q log s ↔
      I log s ∧ ∀ a, Q (log ++ [.answered r a s]) s a := Iff.rfl

@[simp] lemma wp_bind {Q : List (Happened σ Req Ans κ) → σ → γ → Prop}
    (c : Call σ Req Ans β) (f : β → Call σ Req Ans γ) (log : List (Happened σ Req Ans κ))
    (s : σ) :
    (c >>= f).wp I Q log s ↔ c.wp I (fun log s b => (f b).wp I Q log s) log s := by
  change (c.bind f).wp I Q log s ↔ _
  induction c generalizing log s with
  | ret b => exact Iff.rfl
  | panic => exact Iff.rfl
  | read k ih => exact ih s log s
  | write s' k ih => exact ih log s'
  | await r k ih =>
    constructor
    · rintro ⟨hI, h⟩
      exact ⟨hI, fun a => (ih a _ s).mp (h a)⟩
    · rintro ⟨hI, h⟩
      exact ⟨hI, fun a => (ih a _ s).mpr (h a)⟩

@[simp] lemma wp_map {Q : List (Happened σ Req Ans κ) → σ → γ → Prop} (f : β → γ)
    (c : Call σ Req Ans β) (log : List (Happened σ Req Ans κ)) (s : σ) :
    (f <$> c).wp I Q log s ↔ c.wp I (fun log s b => Q log s (f b)) log s :=
  wp_bind c (fun b => pure (f b)) log s

lemma wp_mono {c : Call σ Req Ans β} (hQ : ∀ log s b, Q log s b → Q' log s b)
    {log : List (Happened σ Req Ans κ)} {s : σ} (h : c.wp I Q log s) : c.wp I Q' log s := by
  induction c generalizing log s with
  | ret b => exact hQ _ _ _ h
  | panic => exact h
  | read k ih => exact ih s h
  | write s' k ih => exact ih h
  | await r k ih => exact ⟨h.1, fun a => ih a (h.2 a)⟩

end Call

/-! ## Soundness -/

/-- The invariant holds, and the call that holds the mutex will keep it and return in
its postcondition. -/
def Sound (I : List (Happened σ Req Ans κ) → σ → Prop)
    (post : κ → List (Happened σ Req Ans κ) → σ → β → Prop) (m : System σ Req Ans κ β) : Prop :=
  I m.log m.state ∧ ∀ call r k, m.holder = some (call, r, k) → ∀ a,
    (k a).wp I (fun log s b => I log s ∧ post call log s b) (m.log ++ [.answered r a m.state])
      m.state

/-- What a reply says about the state it was given in. -/
def Meets (post : κ → List (Happened σ Req Ans κ) → σ → β → Prop) (m : System σ Req Ans κ β) :
    Reply Req κ β → Prop
  | .returned call b => post call m.log m.state b
  | .panicked _ => False
  | .waiting _ _ | .cancelled _ => True

variable {post : κ → List (Happened σ Req Ans κ) → σ → β → Prop} {body : κ → Call σ Req Ans β}

/-- A call runs to its next pause within its specification. -/
lemma sound_settle {call : κ} {c : Call σ Req Ans β} {log : List (Happened σ Req Ans κ)} {s : σ}
    (h : c.wp I (fun log s b => I log s ∧ post call log s b) log s) :
    Sound I post (settle call log (c.advance s)).2 ∧
      Meets post (settle call log (c.advance s)).2 (settle call log (c.advance s)).1 := by
  induction c generalizing s with
  | ret b => exact ⟨⟨h.1, fun _ _ _ hholder => by cases hholder⟩, h.2⟩
  | panic => exact h.elim
  | read k ih => exact ih s h
  | write s' k ih => exact ih h
  | await r k ih =>
    refine ⟨⟨h.1, fun call' r' k' hholder a => ?_⟩, trivial⟩
    cases hholder
    exact h.2 a

/-- **One event.**  Calls that meet their specifications alone meet them behind the mutex. -/
lemma sound_step (hbody : ∀ call log s, I log s → (body call).wp I
      (fun log s b => I log s ∧ post call log s b) (log ++ [.entered call]) s)
    (hcancel : ∀ call log s, I log s → I (log ++ [.cancelled call]) s) (h : Sound I post m)
    (hstep : step body m e = some (reply, m')) : Sound I post m' ∧ Meets post m' reply := by
  rcases step_eq_some hstep with ⟨call, -, -, hsettle⟩ | ⟨call, r, k, a, -, hholder, hsettle⟩ |
    ⟨call, r, k, -, -, rfl, rfl⟩
  · have := sound_settle (hbody call m.log m.state h.1)
    rwa [hsettle] at this
  · have := sound_settle (h.2 call r k hholder a)
    rwa [hsettle] at this
  · exact ⟨⟨hcancel _ _ _ h.1, fun _ _ _ hholder => by cases hholder⟩, trivial⟩

/-! ## The log -/

lemma log_settle (call : κ) (log : List (Happened σ Req Ans κ)) (p : Pause σ Req Ans β × σ) :
    (settle call log p).2.log = log := by
  obtain ⟨_ | _ | _, s⟩ := p <;> rfl

/-- The log an event leaves. -/
lemma log_step (hstep : step body m e = some (reply, m')) :
    ∃ entry, m'.log = m.log ++ [entry] ∧ match e with
      | .enter call => entry = .entered call
      | .answer a => ∃ r, entry = .answered r a m.state
      | .cancel => ∃ call, entry = .cancelled call := by
  rcases step_eq_some hstep with ⟨call, rfl, -, hsettle⟩ | ⟨call, r, k, a, rfl, -, hsettle⟩ |
    ⟨call, r, k, rfl, -, rfl, rfl⟩
  · refine ⟨_, ?_, rfl⟩
    have hlog := log_settle call (m.log ++ [.entered call]) ((body call).advance m.state)
    rwa [hsettle] at hlog
  · refine ⟨_, ?_, r, rfl⟩
    have hlog := log_settle call (m.log ++ [.answered r a m.state]) ((k a).advance m.state)
    rwa [hsettle] at hlog
  · exact ⟨_, rfl, call, rfl⟩

/-- Every call that entered in a run is in the log behind it. -/
lemma entered_mem_log {call : κ} {events : List (Event Ans κ)} {replies : List (Reply Req κ β)}
    (hmem : .enter call ∈ events) (hrun : Machine.run (step body) m events = some (replies, m')) :
    .entered call ∈ m'.log := by
  obtain ⟨reply, before, after, later, rest, hstep, hlater⟩ :=
    Machine.exists_step_of_mem hmem hrun
  obtain ⟨entry, hlog, rfl⟩ := log_step hstep
  refine Machine.invariant_run (P := fun m => .entered call ∈ m.log) ?_ later ?_ hlater
  · intro m m' e reply h hstep
    obtain ⟨entry, hlog, -⟩ := log_step hstep
    rw [hlog]
    exact List.mem_append_left _ h
  · rw [hlog]
    simp

end Monitor
