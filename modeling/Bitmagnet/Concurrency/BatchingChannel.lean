import Bitmagnet.Library.Machine

/-!
# The batching channel

`batchingChannel` of `internal/concurrency`: a goroutine collects what is sent into batches and
sends them on when a batch is full or the ticker fires.  A state is one between two operations on
channels.  What waits in a channel or with a blocked sender is a queue, and the ticker may fire at
any time, so its channel has no state.

Every run keeps the order and the bound of the batches.  The goroutine does not end: where the input
is closed and drained, its `break` is inside the `select` statement and ends that one, and the loop
around it goes on (`Exit`).
-/

namespace Bitmagnet.Concurrency

/-! ## The source -/

/-- What a statement inside the `select` ends. -/
inductive Exit
  /-- `break`, which is for the innermost `for`, `switch` or `select` -/
  | ofSelect
  /-- what it would take to leave the `for` loop -/
  | ofLoop

/-- Where the goroutine is. -/
inductive Pc (T : Type)
  | select
  /-- in `flush`, before the batch is sent -/
  | sending (batch : List T)
  /-- behind the loop, where the deferred `close(ch.output)` runs -/
  | returned
deriving DecidableEq

/-- The channels and the goroutine, with what was sent and what was received. -/
structure BatchingChannel (T : Type) where
  maxBatchSize : Nat
  input : List T := []
  inputClosed : Bool := false
  buffer : List T := []
  output : List (List T) := []
  pc : Pc T := .select
  sent : List T := []
  received : List (List T) := []

/-- What can happen. -/
inductive Event (T : Type)
  | send (next : T)
  | close
  /-- the `select` receives from the input -/
  | receive
  /-- the `select` receives from the ticker -/
  | tick
  /-- the output, which has room for one batch, takes the one that is being sent -/
  | deliver
  /-- the consumer takes a batch -/
  | consume

namespace BatchingChannel

variable {T : Type}

/-- The goroutine behind a statement that ends `exit`. -/
def leave (ch : BatchingChannel T) : Exit → BatchingChannel T
  | .ofSelect => { ch with pc := .select }
  | .ofLoop => { ch with pc := .returned }

/-- `flush`, up to where it sends. -/
def flush (ch : BatchingChannel T) : BatchingChannel T :=
  { ch with buffer := [], pc := .sending ch.buffer }

/-- One event; `none` where it cannot be. -/
def step (ch : BatchingChannel T) : Event T → Option (Unit × BatchingChannel T)
  | .send next =>
    if ch.inputClosed then none
    else some ((), { ch with input := ch.input ++ [next], sent := ch.sent ++ [next] })
  | .close => if ch.inputClosed then none else some ((), { ch with inputClosed := true })
  | .receive =>
    match ch.pc, ch.input with
    | .select, next :: input =>
      let ch := { ch with input, buffer := ch.buffer ++ [next] }
      some ((), if ch.buffer.length ≥ ch.maxBatchSize then ch.flush else ch)
    | .select, [] => if ch.inputClosed then some ((), ch.leave .ofSelect) else none
    | _, _ => none
  | .tick =>
    match ch.pc with
    | .select => some ((), if ch.buffer.length > 0 then ch.flush else ch)
    | _ => none
  | .deliver =>
    match ch.pc, ch.output with
    | .sending batch, [] => some ((), { ch with output := [batch], pc := .select })
    | _, _ => none
  | .consume =>
    match ch.output with
    | batch :: output => some ((), { ch with output, received := ch.received ++ [batch] })
    | [] => none

/-! ## Runs -/

/-- The batch that is being sent. -/
def inFlight (ch : BatchingChannel T) : List (List T) :=
  match ch.pc with
  | .sending batch => [batch]
  | _ => []

/-- The batches so far, in order. -/
def batches (ch : BatchingChannel T) : List (List T) := ch.received ++ ch.output ++ ch.inFlight

/-- Nothing is lost, batches are as large as they may be, and the goroutine runs. -/
structure Inv (maxBatchSize : Nat) (ch : BatchingChannel T) : Prop where
  size : ch.maxBatchSize = maxBatchSize
  sent : ch.batches.flatten ++ ch.buffer ++ ch.input = ch.sent
  bounded : ∀ batch ∈ ch.batches, batch ≠ [] ∧ batch.length ≤ maxBatchSize
  room : ch.buffer.length < maxBatchSize
  running : ch.pc ≠ .returned

variable {maxBatchSize : Nat} {ch ch' : BatchingChannel T}

/-- A buffer that is not empty and not too large is sent. -/
lemma inv_flush (hsize : ch.maxBatchSize = maxBatchSize) (hpc : ch.pc = .select)
    (hsent : ch.batches.flatten ++ ch.buffer ++ ch.input = ch.sent)
    (hbounded : ∀ batch ∈ ch.batches, batch ≠ [] ∧ batch.length ≤ maxBatchSize)
    (hne : ch.buffer ≠ []) (hle : ch.buffer.length ≤ maxBatchSize) (hmax : 1 ≤ maxBatchSize) :
    Inv maxBatchSize ch.flush where
  size := hsize
  sent := by
    have hsame : ch.flush.sent = ch.sent := rfl
    rw [hsame, ← hsent]
    simp [batches, inFlight, flush, hpc]
  bounded := by
    simp only [batches, inFlight, hpc, List.append_nil, List.mem_append] at hbounded
    simp only [batches, inFlight, flush, List.mem_append, List.mem_singleton]
    rintro batch (hbatch | rfl)
    · exact hbounded batch hbatch
    · exact ⟨hne, hle⟩
  room := hmax
  running := by simp [flush]

/-- A batch is moved on. -/
lemma Inv.of_batches (h : Inv maxBatchSize ch) (hbatches : ch'.batches = ch.batches)
    (hsame : ch'.maxBatchSize = ch.maxBatchSize ∧ ch'.buffer = ch.buffer ∧ ch'.input = ch.input ∧
      ch'.sent = ch.sent) (hpc : ch'.pc ≠ .returned) : Inv maxBatchSize ch' := by
  obtain ⟨hsize, hbuffer, hinput, hsent⟩ := hsame
  refine ⟨hsize.trans h.size, ?_, hbatches ▸ h.bounded, hbuffer ▸ h.room, hpc⟩
  rw [hbatches, hbuffer, hinput, hsent, h.sent]

lemma Inv.step (hmax : 1 ≤ maxBatchSize) (h : Inv maxBatchSize ch) {event : Event T} {o : Unit}
    (hstep : ch.step event = some (o, ch')) : Inv maxBatchSize ch' := by
  cases event with
  | send next =>
    simp only [BatchingChannel.step] at hstep
    split at hstep <;> cases hstep
    exact { h with sent := by rw [← h.sent, ← List.append_assoc]; rfl }
  | close =>
    simp only [BatchingChannel.step] at hstep
    split at hstep <;> cases hstep
    exact { h with }
  | receive =>
    simp only [BatchingChannel.step] at hstep
    split at hstep
    · rename_i next input hpc hinput
      have hsent : ch.batches.flatten ++ (ch.buffer ++ [next]) ++ input = ch.sent := by
        rw [← h.sent, hinput]
        simp
      split at hstep <;> cases hstep
      · exact inv_flush h.size hpc hsent h.bounded (by simp)
          (by rw [List.length_append]; exact h.room) hmax
      · rename_i hroom
        exact { h with sent := hsent, room := h.size ▸ Nat.not_le.mp hroom }
    · rename_i hpc hinput
      split at hstep <;> cases hstep
      have hsame : ch.leave .ofSelect = ch := by rw [leave, ← hpc]
      exact hsame ▸ h
    · cases hstep
  | tick =>
    simp only [BatchingChannel.step] at hstep
    split at hstep
    · rename_i hpc
      split at hstep <;> cases hstep
      · rename_i hpos
        exact inv_flush h.size hpc h.sent h.bounded (List.ne_nil_of_length_pos hpos)
          (Nat.le_of_lt h.room) hmax
      · exact h
    · cases hstep
  | deliver =>
    simp only [BatchingChannel.step] at hstep
    split at hstep
    · rename_i batch hpc houtput
      cases hstep
      refine h.of_batches ?_ ⟨rfl, rfl, rfl, rfl⟩ (by simp)
      simp [batches, inFlight, hpc, houtput]
    · cases hstep
  | consume =>
    simp only [BatchingChannel.step] at hstep
    split at hstep
    · rename_i batch output houtput
      cases hstep
      refine h.of_batches ?_ ⟨rfl, rfl, rfl, rfl⟩ h.running
      simp [batches, inFlight, houtput]
    · cases hstep

/-- `NewBatchingChannel`. -/
def new (maxBatchSize : Nat) : BatchingChannel T := { maxBatchSize }

lemma inv_run (hmax : 1 ≤ maxBatchSize) {events : List (Event T)} {os : List Unit}
    (hrun : Machine.run step (new maxBatchSize) events = some (os, ch)) : Inv maxBatchSize ch :=
  Machine.invariant_run (fun h hstep => h.step hmax hstep) events
    ⟨rfl, rfl, by simp [batches, inFlight, new], Nat.lt_of_lt_of_le Nat.zero_lt_one hmax,
      by simp [new]⟩ hrun

/-- **Batches are right, and the goroutine never ends.**  Whatever is sent and however the ticker
and the consumer go, what was received are batches of the right size, one behind the other the
beginning of what was sent; and in no run is the output closed. -/
theorem run_batches_never_returned (maxBatchSize : Nat) (hmax : 1 ≤ maxBatchSize)
    (events : List (Event T)) (os : List Unit) (ch : BatchingChannel T)
    (hrun : Machine.run step (new maxBatchSize) events = some (os, ch)) :
    (∀ batch ∈ ch.received, batch ≠ [] ∧ batch.length ≤ maxBatchSize) ∧
      ch.received.flatten <+: ch.sent ∧ ch.pc ≠ .returned := by
  have h := inv_run hmax hrun
  refine ⟨fun batch hbatch => h.bounded batch ?_, ?_, h.running⟩
  · exact List.mem_append_left _ (List.mem_append_left _ hbatch)
  · rw [← h.sent, batches, List.append_assoc ch.received, List.flatten_append, List.append_assoc,
      List.append_assoc]
    exact List.prefix_append ..

/-- Three numbers: the ticker sends the last one on, the input is closed and drained, and the
goroutine goes round its loop. -/
def threeInTwos : List (Event Nat) :=
  [.send 1, .send 2, .send 3, .receive, .receive, .deliver, .consume, .close, .receive, .receive,
    .tick, .deliver, .consume, .receive, .receive]

theorem run_batches_never_returned_threeInTwos :
    ∃ os ch, Machine.run step (new 2) threeInTwos = some (os, ch) ∧
      ch.received = [[1, 2], [3]] ∧ ch.sent = [1, 2, 3] ∧ ch.pc ≠ .returned := by
  have hrun : (Machine.run step (new 2) threeInTwos).map (fun p => (p.2.received, p.2.sent)) =
      some ([[1, 2], [3]], [1, 2, 3]) := by decide
  obtain ⟨⟨os, ch⟩, hch, heq⟩ := Option.map_eq_some_iff.mp hrun
  obtain ⟨hreceived, hsent⟩ := Prod.mk.inj heq
  exact ⟨os, ch, hch, hreceived, hsent,
    (run_batches_never_returned 2 (by decide) _ _ _ hch).2.2⟩

/-- Nothing is sent, and the input is closed: whatever happens then, the output is not. -/
theorem no_run_returns_after_close :
    ¬ ∃ (events : List (Event Nat)) (os : List Unit) (ch : BatchingChannel Nat),
      Machine.run step (new 1) (.close :: events) = some (os, ch) ∧ ch.pc = .returned := by
  rintro ⟨events, os, ch, hrun, hpc⟩
  exact (inv_run (Nat.le_refl 1) hrun).running hpc

end BatchingChannel

end Bitmagnet.Concurrency
