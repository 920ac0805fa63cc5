import Bitmagnet.Library.Fairness

/-!
# The connection pool of the DuckDB engine

`DuckEngine::with_conn` of `engine/duck.rs`.  A call takes a connection from the pool and hands it to a
thread of its own, the worker, which runs the query, gives the connection back and sends the result;
the caller waits for it until the deadline, and then interrupts the connection.  The two meet in one
atomic cell: the worker leaves `running` for `finished` or the caller leaves it for `interrupting`, and
a worker that finds the latter waits until the caller has stored `interrupted`.

Each access to the pool, to the cell and to the channel is one step, and any number of calls take theirs
in any order.  The query returns a result, without a panic, and spawning its thread succeeds.  The
result is of any type; it stands for the source's `Result<T>`.
-/

namespace Bitmagnet.FileSearch.Duck

/-! ## Calls -/

/-- The constants `QUERY_RUNNING` to `QUERY_INTERRUPTED` of the atomic cell. -/
inductive QueryState
  | running
  | finished
  | interrupting
  | interrupted
  deriving DecidableEq

/-- Where a worker is. -/
inductive Worker (ρ : Type)
  /-- in `f(&conn)` -/
  | querying
  /-- before `compare_exchange` -/
  | exchanging (result : ρ)
  /-- in the loop that waits for the caller -/
  | spinning (result : ρ)
  /-- before the connection goes back -/
  | pushing (result : ρ)
  | sending (result : ρ)
  | done (result : ρ)
  deriving DecidableEq

/-- What `with_conn` returns. -/
inductive Outcome (ρ : Type)
  | result (result : ρ)
  | queryDeadlineExceeded
  deriving DecidableEq

/-- Where a caller is. -/
inductive Caller (ρ : Type)
  /-- in `recv_timeout` -/
  | waiting
  /-- before `compare_exchange` -/
  | exchanging
  /-- before `handle.interrupt()` -/
  | interrupting
  /-- before `state.store(QUERY_INTERRUPTED)` -/
  | storing
  | returned (outcome : Outcome ρ)
  deriving DecidableEq

/-- A call of `with_conn` that got a connection. -/
structure Call (ρ : Type) where
  conn : Nat
  state : QueryState
  worker : Worker ρ
  caller : Caller ρ
  deriving DecidableEq

variable {ρ : Type}

/-- The query is not through. -/
def Worker.early : Worker ρ → Bool
  | querying | exchanging _ | spinning _ => true
  | _ => false

/-- The connection has gone back. -/
def Worker.late : Worker ρ → Bool
  | sending _ | done _ => true
  | _ => false

namespace Call

/-- The call has the connection. -/
def holds (call : Call ρ) : Bool := !call.worker.late

/-- `f(&conn)` returns. -/
def finish (call : Call ρ) (result : ρ) : Option (Call ρ) :=
  match call.worker with
  | .querying => some { call with worker := .exchanging result }
  | _ => none

/-- A step of the worker that concerns its own call only. -/
def work (call : Call ρ) : Option (Call ρ) :=
  match call.worker with
  | .exchanging result =>
    match call.state with
    | .running => some { call with state := .finished, worker := .pushing result }
    | .interrupting => some { call with worker := .spinning result }
    | _ => some { call with worker := .pushing result }
  | .spinning result =>
    if call.state = .interrupting then some call
    else some { call with worker := .pushing result }
  | .sending result => some { call with worker := .done result }
  | _ => none

/-- A step of the caller that concerns its own call only. -/
def wait (call : Call ρ) : Option (Call ρ) :=
  match call.caller with
  | .waiting =>
    match call.worker with
    | .done result => some { call with caller := .returned (.result result) }
    | _ => none
  | .exchanging =>
    match call.state with
    | .running => some { call with state := .interrupting, caller := .interrupting }
    | _ => some { call with caller := .returned .queryDeadlineExceeded }
  | .storing =>
    some { call with state := .interrupted, caller := .returned .queryDeadlineExceeded }
  | _ => none

/-- `recv_timeout` gives up; it does not while there is a result to receive. -/
def timeout (call : Call ρ) : Option (Call ρ) :=
  match call.caller, call.worker with
  | .waiting, .done _ => none
  | .waiting, _ => some { call with caller := .exchanging }
  | _, _ => none

end Call

/-! ## The engine -/

/-- An interrupt: the call that issued it and the calls that had its connection at that moment. -/
structure Hit where
  call : Nat
  holders : List Nat
  deriving DecidableEq

/-- The engine with its calls.  The last two fields record what has happened. -/
structure Engine (ρ : Type) where
  pool : List Nat
  calls : List (Call ρ) := []
  hits : List Hit := []
  /-- the calls whose connection went back, one entry each time -/
  pushes : List Nat := []
  deriving DecidableEq

namespace Engine

/-- The connections of `DuckEngine::open`: `pool_size` clones and the primary. -/
def conns (poolSize : Nat) : List Nat := List.range (poolSize + 1)

/-- `DuckEngine::open`. -/
def opened (poolSize : Nat) : Engine ρ := { pool := conns poolSize }

/-- The connections in use. -/
def held (s : Engine ρ) : List Nat :=
  s.calls.filterMap fun call => if call.holds then some call.conn else none

/-- The calls that have a connection. -/
def holders (s : Engine ρ) (conn : Nat) : List Nat :=
  (List.range s.calls.length).filter fun i =>
    s.calls[i]?.any fun call => call.holds && call.conn = conn

end Engine

/-- What the threads and the clock can do. -/
inductive Event (ρ : Type)
  /-- `with_conn` is called -/
  | enter
  | finish (call : Nat) (result : ρ)
  | worker (call : Nat)
  | caller (call : Nat)
  | timeout (call : Nat)
  deriving DecidableEq

namespace Engine

/-- A step that concerns one call. -/
def update (s : Engine ρ) (i : Nat) (move : Call ρ → Option (Call ρ)) : Option (Unit × Engine ρ) :=
  s.calls[i]?.bind fun call =>
    (move call).map fun call' => ((), { s with calls := s.calls.set i call' })

/-- One event; `none` for one that cannot be. -/
def step (s : Engine ρ) : Event ρ → Option (Unit × Engine ρ)
  | .enter =>
    -- `checkout` fails on an empty pool
    match s.pool.getLast? with
    | none => some ((), s)
    | some conn =>
      some ((),
        { s with
          pool := s.pool.dropLast
          calls := s.calls ++ [⟨conn, .running, .querying, .waiting⟩] })
  | .finish i result => s.update i (·.finish result)
  | .worker i =>
    s.calls[i]?.bind fun call =>
      match call.worker with
      | .pushing result =>
        some ((),
          { s with
            pool := s.pool ++ [call.conn]
            calls := s.calls.set i { call with worker := .sending result }
            pushes := s.pushes ++ [i] })
      | _ => s.update i Call.work
  | .caller i =>
    s.calls[i]?.bind fun call =>
      match call.caller with
      | .interrupting =>
        some ((),
          { s with
            calls := s.calls.set i { call with caller := .storing }
            hits := s.hits ++ [⟨i, s.holders call.conn⟩] })
      | _ => s.update i Call.wait
  | .timeout i => s.update i Call.timeout

end Engine

/-! ## What a step does -/

/-- An event that concerns one call moves it. -/
inductive Moves : Event ρ → Nat → Call ρ → Call ρ → Prop
  | finish {i result call call'} : Call.finish call result = some call' →
      Moves (.finish i result) i call call'
  | worker {i call call'} : Call.work call = some call' → Moves (.worker i) i call call'
  | caller {i call call'} : Call.wait call = some call' → Moves (.caller i) i call call'
  | timeout {i call call'} : Call.timeout call = some call' → Moves (.timeout i) i call call'

/-- A step refuses a call, starts one, moves one, interrupts for one or gives a connection back. -/
inductive Stepped (s : Engine ρ) : Event ρ → Engine ρ → Prop
  | refuse : s.pool = [] → Stepped s .enter s
  | enter {pool conn} : s.pool = pool ++ [conn] →
      Stepped s .enter
        { s with pool, calls := s.calls ++ [⟨conn, .running, .querying, .waiting⟩] }
  | move {event i call call'} : s.calls[i]? = some call → Moves event i call call' →
      Stepped s event { s with calls := s.calls.set i call' }
  | interrupt {i call} : s.calls[i]? = some call → call.caller = .interrupting →
      Stepped s (.caller i)
        { s with
          calls := s.calls.set i { call with caller := .storing }
          hits := s.hits ++ [⟨i, s.holders call.conn⟩] }
  | push {i call result} : s.calls[i]? = some call → call.worker = .pushing result →
      Stepped s (.worker i)
        { s with
          pool := s.pool ++ [call.conn]
          calls := s.calls.set i { call with worker := .sending result }
          pushes := s.pushes ++ [i] }

variable {event : Event ρ} {i : Nat} {call call' : Call ρ}

lemma Engine.stepped_update {s s' : Engine ρ} {o : Unit} {move : Call ρ → Option (Call ρ)}
    (hmoves : ∀ {call call'}, move call = some call' → Moves event i call call')
    (h : s.update i move = some (o, s')) : Stepped s event s' := by
  obtain ⟨call, hcall, h⟩ := Option.bind_eq_some_iff.mp h
  obtain ⟨call', hmove, heq⟩ := Option.map_eq_some_iff.mp h
  cases heq
  exact .move hcall (hmoves hmove)

lemma Engine.stepped {s s' : Engine ρ} {o : Unit} (h : s.step event = some (o, s')) :
    Stepped s event s' := by
  cases event with
  | enter =>
    simp only [step] at h
    split at h
    · next hnone =>
        cases h
        exact .refuse (List.getLast?_eq_none_iff.mp hnone)
    · next conn hlast =>
        cases h
        exact .enter (List.dropLast_append_getLast? conn hlast).symm
  | finish i result => exact stepped_update .finish h
  | timeout i => exact stepped_update .timeout h
  | worker i =>
    obtain ⟨call, hcall, hwork⟩ := Option.bind_eq_some_iff.mp h
    split at hwork
    · next hpush =>
        cases hwork
        exact .push hcall hpush
    · exact stepped_update .worker hwork
  | caller i =>
    obtain ⟨call, hcall, hwait⟩ := Option.bind_eq_some_iff.mp h
    split at hwait
    · next hinterrupt =>
        cases hwait
        exact .interrupt hcall hinterrupt
    · exact stepped_update .caller hwait

/-! ## One call -/

/-- How the cell, the worker and the caller of a call agree. -/
structure Call.Consistent (call : Call ρ) : Prop where
  /-- only the caller that set it finds the cell at `interrupting` -/
  interrupting : call.state = .interrupting ↔ call.caller = .interrupting ∨ call.caller = .storing
  /-- before the cell is settled the connection is in use -/
  early : call.state = .running ∨ call.state = .interrupting → call.worker.early = true
  spinning : ∀ result, call.worker = .spinning result →
    call.state = .interrupting ∨ call.state = .interrupted

lemma Call.consistent_new (conn : Nat) :
    (⟨conn, .running, .querying, .waiting⟩ : Call ρ).Consistent :=
  ⟨by simp, fun _ => rfl, by simp⟩

/-- A move leaves the connection where it is. -/
lemma Moves.keeps (h : Moves event i call call') :
    call'.conn = call.conn ∧ call'.worker.late = call.worker.late := by
  obtain ⟨conn, state, worker, caller⟩ := call
  cases h with
  | finish h => cases worker <;> cases h; exact ⟨rfl, rfl⟩
  | worker h => cases worker <;> cases state <;> cases h <;> exact ⟨rfl, rfl⟩
  | caller h => cases caller <;> cases state <;> cases worker <;> cases h <;> exact ⟨rfl, rfl⟩
  | timeout h => cases caller <;> cases worker <;> cases h <;> exact ⟨rfl, rfl⟩

lemma Moves.consistent (h : Moves event i call call') (hcall : call.Consistent) :
    call'.Consistent := by
  obtain ⟨hinterrupting, hearly, hspinning⟩ := hcall
  obtain ⟨conn, state, worker, caller⟩ := call
  cases h with
  | finish h =>
    cases worker <;> cases h
    exact ⟨hinterrupting, fun _ => rfl, by simp⟩
  | worker h =>
    cases worker <;> cases state <;> cases h <;> constructor <;> simp_all [Worker.early]
  | caller h =>
    cases caller <;> cases state <;> cases worker <;> cases h <;> constructor <;>
      simp_all [Worker.early]
  | timeout h =>
    cases caller <;> cases worker <;> cases h <;> constructor <;> simp_all [Worker.early]

/-- A connection is interrupted while it is in use. -/
lemma Call.Consistent.holds_of_interrupting (h : call.Consistent)
    (hcaller : call.caller = .interrupting) : call.holds = true := by
  have hearly := h.early (.inr (h.interrupting.mpr (.inl hcaller)))
  unfold Call.holds
  cases hworker : call.worker <;> simp_all [Worker.early, Worker.late]

lemma Call.Consistent.storing (h : call.Consistent) (hcaller : call.caller = .interrupting) :
    ({ call with caller := .storing } : Call ρ).Consistent :=
  ⟨⟨fun _ => .inr rfl, fun _ => h.interrupting.mpr (.inl hcaller)⟩, h.early, h.spinning⟩

lemma Call.Consistent.sending (h : call.Consistent) {result : ρ}
    (hworker : call.worker = .pushing result) :
    ({ call with worker := .sending result } : Call ρ).Consistent := by
  refine ⟨h.interrupting, fun hstate => ?_, by simp⟩
  have hearly := h.early hstate
  rw [hworker] at hearly
  cases hearly

/-! ## The connections in use -/

section

variable {α β : Type} {a : α} {i : Nat} {l : List α}

lemma set_eq_split (h : l[i]? = some a) (b : α) :
    l = l.take i ++ a :: l.drop (i + 1) ∧ l.set i b = l.take i ++ b :: l.drop (i + 1) := by
  obtain ⟨hi, rfl⟩ := List.getElem?_eq_some_iff.mp h
  exact ⟨by simp, List.set_eq_take_append_cons_drop.trans (if_pos hi)⟩

lemma filterMap_set_same {b : α} {f : α → Option β} (h : l[i]? = some a) (hf : f b = f a) :
    (l.set i b).filterMap f = l.filterMap f := by
  obtain ⟨hold, hnew⟩ := set_eq_split h b
  rw [hnew]
  conv => rhs; rw [hold]
  simp only [List.filterMap_append, List.filterMap_cons, hf]

lemma filterMap_set_none {b : α} {c : β} {f : α → Option β} (h : l[i]? = some a)
    (ha : f a = some c) (hb : f b = none) :
    (l.filterMap f).Perm (c :: (l.set i b).filterMap f) := by
  obtain ⟨hold, hnew⟩ := set_eq_split h b
  rw [hnew]
  conv => lhs; rw [hold]
  simp only [List.filterMap_append, List.filterMap_cons, ha, hb]
  exact List.perm_middle

end

namespace Engine

/-- What holds of an engine with the given connections. -/
structure Invariant (conns : List Nat) (s : Engine ρ) : Prop where
  /-- a connection is in the pool or in use by one call -/
  conserved : (s.pool ++ s.held).Perm conns
  consistent : ∀ call ∈ s.calls, call.Consistent
  hits : ∀ hit ∈ s.hits, hit.holders = [hit.call]
  nodup_pushes : s.pushes.Nodup
  mem_pushes : ∀ i, i ∈ s.pushes ↔ s.calls[i]?.any (·.worker.late) = true

variable {conns : List Nat} {s s' : Engine ρ} {i : Nat}

lemma mem_holders {conn : Nat} :
    i ∈ s.holders conn ↔ ∃ call, s.calls[i]? = some call ∧ call.holds = true ∧ call.conn = conn := by
  rw [holders, List.mem_filter, List.mem_range]
  constructor
  · rintro ⟨hi, h⟩
    rw [List.getElem?_eq_getElem hi] at h ⊢
    exact ⟨_, rfl, by simpa using h⟩
  · rintro ⟨call, hcall, hholds, hconn⟩
    refine ⟨(List.getElem?_eq_some_iff.mp hcall).1, ?_⟩
    simp [hcall, hholds, hconn]

/-- No two calls have one connection. -/
lemma Invariant.eq_of_conn (h : s.Invariant conns) (hconns : conns.Nodup) {j : Nat} {a b : Call ρ}
    (hi : s.calls[i]? = some a) (hj : s.calls[j]? = some b) (ha : a.holds = true)
    (hb : b.holds = true) (hconn : a.conn = b.conn) : i = j := by
  have hnodup : s.held.Nodup := (List.nodup_append.mp ((h.conserved.nodup_iff).mpr hconns)).2.1
  rw [held, List.Nodup, List.pairwise_filterMap] at hnodup
  obtain ⟨hi', rfl⟩ := List.getElem?_eq_some_iff.mp hi
  obtain ⟨hj', rfl⟩ := List.getElem?_eq_some_iff.mp hj
  have hpair := List.pairwise_iff_getElem.mp hnodup
  rcases Nat.lt_trichotomy i j with hlt | heq | hlt
  · exact absurd hconn (hpair i j hi' hj' hlt _ (by simp [ha]) _ (by simp [hb]))
  · exact heq
  · exact absurd hconn.symm (hpair j i hj' hi' hlt _ (by simp [hb]) _ (by simp [ha]))

/-- The call that has a connection is the only one. -/
lemma Invariant.holders_eq (h : s.Invariant conns) (hconns : conns.Nodup)
    (hcall : s.calls[i]? = some call) (hholds : call.holds = true) : s.holders call.conn = [i] := by
  have hmem : i ∈ s.holders call.conn := mem_holders.mpr ⟨call, hcall, hholds, rfl⟩
  have honly : ∀ j ∈ s.holders call.conn, j = i := by
    intro j hj
    obtain ⟨other, hother, hholds', hconn⟩ := mem_holders.mp hj
    exact h.eq_of_conn hconns hother hcall hholds' hholds hconn
  have hnodup : (s.holders call.conn).Nodup := List.nodup_range.filter _
  refine List.perm_singleton.mp ((List.perm_ext_iff_of_nodup hnodup (List.pairwise_singleton ..)).mpr ?_)
  intro j
  rw [List.mem_singleton]
  exact ⟨honly j, fun hj => hj ▸ hmem⟩

lemma any_set {α : Type} {l : List α} {a : α} (h : l[i]? = some a) (b : α) (p : α → Bool)
    (j : Nat) : (l.set i b)[j]?.any p = if i = j then p b else l[j]?.any p := by
  split
  · next hij =>
      subst hij
      rw [List.getElem?_set_self (List.getElem?_eq_some_iff.mp h).1, Option.any_some]
  · next hij => rw [List.getElem?_set_ne hij]

lemma any_set_same {α : Type} {l : List α} {a b : α} (h : l[i]? = some a) {p : α → Bool}
    (hp : p b = p a) (j : Nat) : (l.set i b)[j]?.any p = l[j]?.any p := by
  rw [any_set h]
  split
  · next hij => rw [← hij, h, Option.any_some, hp]
  · rfl

lemma Invariant.consistent_set (h : s.Invariant conns) (hcall : call.Consistent) :
    ∀ other ∈ s.calls.set i call, other.Consistent := by
  intro other hother
  rcases List.mem_or_eq_of_mem_set hother with hother | rfl
  · exact h.consistent other hother
  · exact hcall

lemma Invariant.opened (poolSize : Nat) : (opened poolSize : Engine ρ).Invariant (Engine.conns poolSize) where
  conserved := by simp [Engine.opened, held]
  consistent := by simp [Engine.opened]
  hits := by simp [Engine.opened]
  nodup_pushes := List.nodup_nil
  mem_pushes := by simp [Engine.opened]

/-- Every step keeps the invariant. -/
lemma Invariant.step (h : s.Invariant conns) (hconns : conns.Nodup) {o : Unit}
    (hstep : s.step event = some (o, s')) : s'.Invariant conns := by
  cases Engine.stepped hstep with
  | refuse _ => exact h
  | @enter pool conn hpool =>
    have hconserved := h.conserved
    rw [hpool] at hconserved
    refine ⟨?_, ?_, h.hits, h.nodup_pushes, fun i => ?_⟩
    · refine List.Perm.trans ?_ hconserved
      have hheld : ({ s with pool, calls := s.calls ++ [⟨conn, .running, .querying, .waiting⟩] } :
          Engine ρ).held = s.held ++ [conn] := by
        simp [held, Call.holds, Worker.late]
      rw [hheld, List.append_assoc]
      exact (List.perm_append_comm).append_left pool
    · intro call hcall
      rcases List.mem_append.mp hcall with hcall | hcall
      · exact h.consistent call hcall
      · rw [List.mem_singleton.mp hcall]
        exact Call.consistent_new conn
    · rw [h.mem_pushes, List.getElem?_append]
      split
      · rfl
      · next hlen =>
          rw [List.getElem?_eq_none (by omega)]
          cases i - s.calls.length <;> simp [Worker.late]
  | @move _ i call call' hcall hmoves =>
    obtain ⟨hconn, hlate⟩ := hmoves.keeps
    have hcons := h.consistent call (List.mem_of_getElem? hcall)
    refine ⟨?_, h.consistent_set (hmoves.consistent hcons), h.hits, h.nodup_pushes, fun j => ?_⟩
    · have hheld : ({ s with calls := s.calls.set i call' } : Engine ρ).held = s.held :=
        filterMap_set_same hcall (by simp [Call.holds, hconn, hlate])
      rw [hheld]
      exact h.conserved
    · rw [h.mem_pushes, any_set_same hcall hlate]
  | @interrupt i call hcall hcaller =>
    have hcons := h.consistent call (List.mem_of_getElem? hcall)
    refine ⟨?_, h.consistent_set (hcons.storing hcaller), ?_, h.nodup_pushes, fun j => ?_⟩
    · have hheld : ({ s with calls := s.calls.set i { call with caller := .storing } } :
          Engine ρ).held = s.held := filterMap_set_same hcall rfl
      exact hheld ▸ h.conserved
    · intro hit hhit
      rcases List.mem_append.mp hhit with hhit | hhit
      · exact h.hits hit hhit
      · rw [List.mem_singleton.mp hhit]
        exact h.holders_eq hconns hcall (hcons.holds_of_interrupting hcaller)
    · rw [h.mem_pushes, any_set_same (b := { call with caller := .storing }) hcall rfl]
  | @push i call result hcall hworker =>
    have hcons := h.consistent call (List.mem_of_getElem? hcall)
    have hfresh : i ∉ s.pushes := by
      rw [h.mem_pushes, hcall]
      simp [hworker, Worker.late]
    refine ⟨?_, h.consistent_set (hcons.sending hworker), h.hits, ?_, fun j => ?_⟩
    · have hheld : s.held.Perm (call.conn :: ({ s with
          calls := s.calls.set i { call with worker := .sending result } } : Engine ρ).held) :=
        filterMap_set_none hcall (by simp [Call.holds, hworker, Worker.late])
          (by simp [Call.holds, Worker.late])
      refine List.Perm.trans ?_ h.conserved
      rw [List.append_assoc, List.singleton_append]
      exact hheld.symm.append_left s.pool
    · exact List.nodup_append.mpr ⟨h.nodup_pushes, List.pairwise_singleton ..,
        fun a ha b hb => by
          rw [List.mem_singleton.mp hb]
          exact fun heq => hfresh (heq ▸ ha)⟩
    · rw [List.mem_append, List.mem_singleton, h.mem_pushes, any_set hcall]
      split
      · next hij => simp [hij, Worker.late]
      · next hij => simp [Ne.symm hij]

end Engine

/-! ## Every connection comes back -/

/-- The threads of a call. -/
inductive Agent
  | worker (call : Nat)
  | caller (call : Nat)
  deriving DecidableEq

/-- Whose step an event is; a call and a deadline come from outside. -/
def agent : Event ρ → Option Agent
  | .finish i _ | .worker i => some (.worker i)
  | .caller i => some (.caller i)
  | .enter | .timeout _ => none

namespace Call

/-- The worker waits for the caller. -/
def waits (call : Call ρ) : Bool :=
  match call.worker with
  | .spinning _ => call.state = .interrupting
  | _ => false

/-- How much is left until the worker is done. -/
def rank (call : Call ρ) : Nat :=
  match call.worker with
  | .querying => 9
  | .exchanging _ => 8
  | .spinning _ =>
    match call.state, call.caller with
    | .interrupting, .interrupting => 7
    | .interrupting, _ => 6
    | _, _ => 5
  | .pushing _ => 4
  | .sending _ => 3
  | .done _ => 0

/-- Who gets the worker on. -/
def helpful (call : Call ρ) (i : Nat) : Agent := if call.waits then .caller i else .worker i

def isDone (call : Call ρ) : Bool :=
  match call.worker with
  | .done _ => true
  | _ => false

end Call

/-- A step of a call's own threads gets its worker on, or is not the helpful one's. -/
def Call.Advances (event : Event ρ) (i : Nat) (call call' : Call ρ) : Prop :=
  call'.rank < call.rank ∨
    call'.rank = call.rank ∧ call'.helpful i = call.helpful i ∧
      agent event ≠ some (call.helpful i)

lemma Moves.advances (h : Moves event i call call') (hcall : call.Consistent) :
    call.Advances event i call' := by
  obtain ⟨hinterrupting, hearly, hspinning⟩ := hcall
  obtain ⟨conn, state, worker, caller⟩ := call
  unfold Call.Advances
  cases h with
  | finish h => cases worker <;> cases h; exact .inl (by simp [Call.rank])
  | worker h =>
    cases worker <;> cases state <;> cases h <;> cases caller <;>
      simp_all [Call.rank, Call.helpful, Call.waits, agent]
  | caller h =>
    cases caller <;> cases state <;> cases worker <;> cases h <;>
      simp_all [Call.rank, Call.helpful, Call.waits, agent, Worker.early]
  | timeout h =>
    cases caller <;> cases worker <;> cases h <;>
      simp_all [Call.rank, Call.helpful, Call.waits, agent]

/-- The caller's step at the interrupt gets a waiting worker on. -/
lemma Call.Consistent.advances_storing (h : call.Consistent)
    (hcaller : call.caller = .interrupting) :
    call.Advances (.caller i) i { call with caller := .storing } := by
  have hstate := h.interrupting.mpr (.inl hcaller)
  obtain ⟨conn, state, worker, caller⟩ := call
  simp only at hstate hcaller
  subst hstate hcaller
  cases worker <;> simp [Advances, rank, helpful, waits, agent]

lemma Call.advances_sending {result : ρ} (hworker : call.worker = .pushing result) :
    call.Advances (.worker i) i { call with worker := .sending result } :=
  .inl (by simp [rank, hworker])

namespace Engine

variable {conns : List Nat} {s s' : Engine ρ} {i : Nat}

/-- What a step does to one call: nothing, or it advances it. -/
lemma step_call (h : s.Invariant conns) {o : Unit} (hstep : s.step event = some (o, s'))
    (hcall : s.calls[i]? = some call) :
    ∃ call', s'.calls[i]? = some call' ∧
      (call' = call ∧ (∀ a, agent event = some a → a ≠ .worker i ∧ a ≠ .caller i) ∨
        call.Advances event i call') := by
  have hlt : i < s.calls.length := (List.getElem?_eq_some_iff.mp hcall).1
  cases Engine.stepped hstep with
  | refuse _ => exact ⟨call, hcall, .inl ⟨rfl, by simp [agent]⟩⟩
  | enter _ =>
    exact ⟨call, by rw [List.getElem?_append_left hlt, hcall], .inl ⟨rfl, by simp [agent]⟩⟩
  | @move _ j other other' hother hmoves =>
    by_cases hij : j = i
    · subst hij
      obtain rfl : other = call := Option.some.inj (hother.symm.trans hcall)
      exact ⟨other', List.getElem?_set_self hlt, .inr (hmoves.advances
        (h.consistent other (List.mem_of_getElem? hcall)))⟩
    · refine ⟨call, by rw [List.getElem?_set_ne hij, hcall], .inl ⟨rfl, ?_⟩⟩
      cases hmoves <;> simp [agent, hij]
  | @interrupt j other hother hcaller =>
    by_cases hij : j = i
    · subst hij
      obtain rfl : other = call := Option.some.inj (hother.symm.trans hcall)
      exact ⟨_, List.getElem?_set_self hlt, .inr
        ((h.consistent other (List.mem_of_getElem? hcall)).advances_storing hcaller)⟩
    · exact ⟨call, by rw [List.getElem?_set_ne hij, hcall], .inl ⟨rfl, by simp [agent, hij]⟩⟩
  | @push j other result hother hworker =>
    by_cases hij : j = i
    · subst hij
      obtain rfl : other = call := Option.some.inj (hother.symm.trans hcall)
      exact ⟨_, List.getElem?_set_self hlt, .inr (Call.advances_sending hworker)⟩
    · exact ⟨call, by rw [List.getElem?_set_ne hij, hcall], .inl ⟨rfl, by simp [agent, hij]⟩⟩

/-- As long as the worker of a call is not done, the helpful thread can go on. -/
lemma enabled_helpful [Inhabited ρ] (h : s.Invariant conns) (hcall : s.calls[i]? = some call)
    (hdone : call.isDone = false) : Fairness.Enabled step agent (call.helpful i) s := by
  have hcons := h.consistent call (List.mem_of_getElem? hcall)
  have hworker : call.waits = false → (∃ s', s.step (.worker i) = some ((), s')) →
      Fairness.Enabled step agent (call.helpful i) s := by
    rintro hwaits ⟨s', hstep⟩
    exact ⟨.worker i, (), s', by simp [agent, Call.helpful, hwaits], hstep⟩
  cases hat : call.worker with
  | querying =>
    refine ⟨.finish i default, (), { s with
      calls := s.calls.set i { call with worker := .exchanging default } }, ?_, ?_⟩
    · simp [agent, Call.helpful, Call.waits, hat]
    · simp [step, update, hcall, Call.finish, hat]
  | exchanging result =>
    refine hworker (by simp [Call.waits, hat]) ?_
    cases hstate : call.state <;> simp [step, update, hcall, Call.work, hat, hstate]
  | spinning result =>
    by_cases hstate : call.state = .interrupting
    · have hagent : agent (.caller i : Event ρ) = some (call.helpful i) := by
        simp [agent, Call.helpful, Call.waits, hat, hstate]
      obtain ⟨s', hstep⟩ : ∃ s', s.step (.caller i) = some ((), s') := by
        rcases hcons.interrupting.mp hstate with hcaller | hcaller <;>
          simp [step, update, hcall, Call.wait, hcaller]
      exact ⟨.caller i, (), s', hagent, hstep⟩
    · refine hworker (by simp [Call.waits, hat, hstate]) ?_
      simp [step, update, hcall, Call.work, hat, hstate]
  | pushing result =>
    refine hworker (by simp [Call.waits, hat]) ?_
    simp [step, hcall, hat]
  | sending result =>
    refine hworker (by simp [Call.waits, hat]) ?_
    simp [step, update, hcall, Call.work, hat]
  | done result => simp [Call.isDone, hat] at hdone

/-- A call in an engine that keeps the invariant. -/
def Has (conns : List Nat) (i : Nat) (s : Engine ρ) : Prop :=
  s.Invariant conns ∧ ∃ call, s.calls[i]? = some call

/-- The worker of a call is done. -/
def Done (i : Nat) (s : Engine ρ) : Prop := s.calls[i]?.any Call.isDone = true

def rankOf (i : Nat) (s : Engine ρ) : Nat := (s.calls[i]?.map Call.rank).getD 0

def helpfulOf (i : Nat) (s : Engine ρ) : Agent :=
  (s.calls[i]?.map (·.helpful i)).getD (.worker i)

/-- In a fair execution every worker gets done. -/
lemma eventually_done [Inhabited ρ] (hconns : conns.Nodup) {e : Fairness.Execution (@step ρ)}
    (hfair : e.Fair agent) {n : Nat} (h : Has conns i (e.state n)) :
    ∃ m ≥ n, Done i (e.state m) := by
  refine Fairness.Execution.eventually (P := Has conns i) (rankOf i) (helpfulOf i) hfair
    (fun s hs hdone => ?_) (fun {s s' event o} hs hdone hstep => ?_) h
  · obtain ⟨hinv, call, hcall⟩ := hs
    have hnot : call.isDone = false := by simpa [Done, hcall] using hdone
    have hhelp : helpfulOf i s = call.helpful i := by simp [helpfulOf, hcall]
    rw [hhelp]
    exact enabled_helpful hinv hcall hnot
  · obtain ⟨hinv, call, hcall⟩ := hs
    obtain ⟨call', hcall', hadvance⟩ := step_call hinv hstep hcall
    refine ⟨⟨hinv.step hconns hstep, call', hcall'⟩, ?_⟩
    simp only [Fairness.Execution.Closer, rankOf, helpfulOf, hcall, hcall', Option.map_some,
      Option.getD_some]
    rcases hadvance with ⟨rfl, hother⟩ | hadvance
    · refine .inr ⟨rfl, rfl, fun hagent => ?_⟩
      obtain ⟨hworker, hcaller⟩ := hother _ hagent
      unfold Call.helpful at hworker hcaller
      split at hworker
      · exact hcaller (by rw [if_pos ‹_›])
      · exact hworker rfl
    · exact hadvance

/-- A worker that is done has given its connection back. -/
lemma late_of_done (h : Done i s) : s.calls[i]?.any (·.worker.late) = true := by
  cases hcall : s.calls[i]? with
  | none => simp [Done, hcall] at h
  | some call =>
    simp only [Done, hcall, Option.any_some, Call.isDone] at h
    split at h
    · next hworker => simp [hworker, Worker.late]
    · cases h

/-- **The discipline of the pool.**  Let any number of calls, workers and deadlines interleave.  At
every moment each interrupt so far was issued while its connection was in use by the call that timed out
and by no other; every connection is in the pool or in use, and in one place only; no two calls have one
connection; and each call has given its connection back at most once, exactly if its worker is past
that.  If every thread that can go on does, the worker of each call gets done, so that it does not
wait for its caller forever and the connection comes back. -/
theorem withConn_discipline [Inhabited ρ] {poolSize : Nat}
    (e : Fairness.Execution (@step ρ)) (hopen : e.state 0 = opened poolSize) :
    (∀ n, (∀ hit ∈ (e.state n).hits, hit.holders = [hit.call]) ∧
      ((e.state n).pool ++ (e.state n).held).Perm (Engine.conns poolSize) ∧
      ((e.state n).pool ++ (e.state n).held).Nodup ∧
      (∀ (i j : Nat) (a b : Call ρ), (e.state n).calls[i]? = some a →
        (e.state n).calls[j]? = some b → a.holds = true → b.holds = true → a.conn = b.conn →
        i = j) ∧
      (e.state n).pushes.Nodup ∧
      ∀ i, i ∈ (e.state n).pushes ↔ (e.state n).calls[i]?.any (·.worker.late) = true) ∧
    (e.Fair agent → ∀ n i, i < (e.state n).calls.length →
      ∃ m ≥ n, Done i (e.state m) ∧ i ∈ (e.state m).pushes) := by
  have hconns : (Engine.conns poolSize).Nodup := List.nodup_range
  have hinv : ∀ n, (e.state n).Invariant (Engine.conns poolSize) := fun n =>
    e.always (fun h hstep => h.step hconns hstep) (hopen ▸ Invariant.opened poolSize) n (Nat.zero_le n)
  refine ⟨fun n => ?_, fun hfair n i hi => ?_⟩
  · have h := hinv n
    exact ⟨h.hits, h.conserved, h.conserved.nodup_iff.mpr hconns,
      fun i j a b hi hj ha hb hconn => h.eq_of_conn hconns hi hj ha hb hconn, h.nodup_pushes,
      h.mem_pushes⟩
  · obtain ⟨m, hm, hdone⟩ := eventually_done hconns hfair
      ⟨hinv n, _, List.getElem?_eq_getElem hi⟩
    exact ⟨m, hm, hdone, ((hinv m).mem_pushes i).mpr (late_of_done hdone)⟩

/-- A call that times out, its worker waiting for the interrupt, and a second call that gets the
connection afterwards. -/
def reusedConnection : List (Event Nat) :=
  [.enter, .timeout 0, .caller 0, .finish 0 7, .worker 0, .caller 0, .worker 0, .caller 0, .worker 0,
    .worker 0, .enter, .worker 0, .finish 1 8, .worker 1, .worker 1, .worker 1, .caller 1]

/-- Both calls of that run are over. -/
def reusedEngine : Engine Nat where
  pool := [0]
  calls := [⟨0, .interrupted, .done 7, .returned .queryDeadlineExceeded⟩,
    ⟨0, .finished, .done 8, .returned (.result 8)⟩]
  hits := [⟨0, [0]⟩]
  pushes := [0, 1]

lemma run_reusedConnection :
    Machine.run step (opened 0) reusedConnection = some (List.replicate 17 (), reusedEngine) := by
  decide

lemma quiet_reusedEngine (a : Agent) : ¬Fairness.Enabled step agent a reusedEngine := by
  rintro ⟨event, o, s', hagent, hstep⟩
  cases event with
  | enter | timeout i => cases hagent
  | finish i result | worker i | caller i =>
    match i with
    | 0 | 1 | i + 2 => cases hstep

theorem withConn_discipline_reused :
    let e := Fairness.Execution.ofRun run_reusedConnection
    e.Fair agent ∧ (∀ n, ∀ hit ∈ (e.state n).hits, hit.holders = [hit.call]) ∧
      ∀ n i, i < (e.state n).calls.length → ∃ m ≥ n, Done i (e.state m) ∧ i ∈ (e.state m).pushes := by
  have hfair := Fairness.Execution.fair_ofRun run_reusedConnection quiet_reusedEngine
  obtain ⟨hsafe, hlive⟩ := withConn_discipline (Fairness.Execution.ofRun run_reusedConnection) rfl
  exact ⟨hfair, fun n => (hsafe n).1, hlive hfair⟩

end Engine

end Bitmagnet.FileSearch.Duck
