import Mathlib.Data.Finset.Sort
import Bitmagnet.Blocking.Manager

/-!
# No block is lost

`Retains` is the invariant of the manager: a hash that was passed to `block` is in the
buffer or was handed to a commit that succeeded, and a commit that failed changed
nothing.  `flushLocked_wp` says what a flush can do, each call is checked against the
invariant on its own, and `Monitor.sound_step` carries it to every interleaving of calls,
answers and dropped calls.
-/

namespace Bitmagnet.Blocking

open Monitor (Call Happened)

variable {α Filter E : Type} [DecidableEq α]

/-- The log of a manager. -/
abbrev Log (α Filter E : Type) [DecidableEq α] :=
  List (Happened (Inner α Filter) (List α) (Except E (CommittedFilter Filter))
    (Request α × Outside α))

/-- The hash was handed to a commit that succeeded. -/
def Committed (log : Log α Filter E) (infoHash : α) : Prop :=
  ∃ blocked committed inner, .answered blocked (.ok committed) inner ∈ log ∧ infoHash ∈ blocked

/-- The hash was passed to `block`. -/
def Passed (log : Log α Filter E) (infoHash : α) : Prop :=
  ∃ infoHashes flush outside, .entered (.block infoHashes flush, outside) ∈ log ∧
    infoHash ∈ infoHashes

/-- **The invariant.** -/
structure Retains (log : Log α Filter E) (inner : Inner α Filter) : Prop where
  kept : ∀ infoHash, Passed log infoHash → infoHash ∈ inner.buffer ∨ Committed log infoHash
  failed : ∀ blocked source before,
    log.getLast? = some (.answered blocked (.error source) before) → inner = before

/-- What a call has done when it returns. -/
def Post (test : Filter → α → Bool) (config : BlockingConfig) (call : Request α × Outside α)
    (_ : Log α Filter E) (inner : Inner α Filter) : Response α E → Prop
  | .filtered (.ok out) => ∀ infoHashes, call.1 = .filter infoHashes → ∃ filter,
      inner.filter = some filter ∧
      out = infoHashes.filter fun infoHash => infoHash ∉ inner.buffer ∧ ¬ test filter infoHash
  | .done (.ok ()) => ∀ infoHashes flush, call.1 = .block infoHashes flush →
      inner.buffer.card < config.maxBufferSize
  | _ => True

/-! ## The log -/

section

variable {log : Log α Filter E} {infoHash : α} {blocked : List α} {inner : Inner α Filter}
  {answer : Except E (CommittedFilter Filter)} {call : Request α × Outside α}

lemma Committed.concat (h : Committed log infoHash)
    (entry : Happened (Inner α Filter) (List α) (Except E (CommittedFilter Filter))
      (Request α × Outside α)) : Committed (log ++ [entry]) infoHash := by
  obtain ⟨blocked, committed, inner, hmem, hblocked⟩ := h
  exact ⟨blocked, committed, inner, List.mem_append_left _ hmem, hblocked⟩

lemma passed_answered :
    Passed (log ++ [.answered blocked answer inner]) infoHash ↔ Passed log infoHash := by
  simp [Passed]

lemma passed_cancelled : Passed (log ++ [.cancelled call]) infoHash ↔ Passed log infoHash := by
  simp [Passed]

lemma passed_entered :
    Passed (log ++ [.entered call]) infoHash ↔
      Passed log infoHash ∨ ∃ infoHashes flush, call.1 = .block infoHashes flush ∧
        infoHash ∈ infoHashes := by
  obtain ⟨request, outside⟩ := call
  constructor
  · rintro ⟨infoHashes, flush, outside', hmem, hin⟩
    rcases List.mem_append.mp hmem with hmem | hmem
    · exact .inl ⟨infoHashes, flush, outside', hmem, hin⟩
    · cases List.mem_singleton.mp hmem
      exact .inr ⟨infoHashes, flush, rfl, hin⟩
  · rintro (⟨infoHashes, flush, outside', hmem, hin⟩ | ⟨infoHashes, flush, rfl, hin⟩)
    · exact ⟨infoHashes, flush, outside', List.mem_append_left _ hmem, hin⟩
    · exact ⟨infoHashes, flush, outside, by simp, hin⟩

lemma Retains.cancelled (h : Retains log inner) : Retains (log ++ [.cancelled call]) inner where
  kept infoHash hpassed := by
    rcases h.kept infoHash (passed_cancelled.mp hpassed) with hin | hin
    · exact .inl hin
    · exact .inr (hin.concat _)
  failed _ _ _ hlast := by simp at hlast

/-- A call enters; a `block` has buffered its hashes by the time it can be dropped. -/
lemma Retains.entered {inner' : Inner α Filter} (h : Retains log inner)
    (hbuffer : inner.buffer ⊆ inner'.buffer)
    (hnew : ∀ infoHashes flush, call.1 = .block infoHashes flush →
      ∀ infoHash ∈ infoHashes, infoHash ∈ inner'.buffer) :
    Retains (log ++ [.entered call]) inner' where
  kept infoHash hpassed := by
    rcases passed_entered.mp hpassed with hpassed | ⟨infoHashes, flush, hcall, hin⟩
    · rcases h.kept infoHash hpassed with hin | hin
      · exact .inl (hbuffer hin)
      · exact .inr (hin.concat _)
    · exact .inl (hnew infoHashes flush hcall infoHash hin)
  failed _ _ _ hlast := by simp at hlast

/-- A commit fails. -/
lemma Retains.refused {source : E} (h : Retains log inner) :
    Retains (log ++ [.answered blocked (.error source) inner]) inner where
  kept infoHash hpassed := by
    rcases h.kept infoHash (passed_answered.mp hpassed) with hin | hin
    · exact .inl hin
    · exact .inr (hin.concat _)
  failed _ _ _ hlast := by
    rw [List.getLast?_concat] at hlast
    cases hlast
    rfl

/-- A commit of the whole buffer succeeds. -/
lemma Retains.committed {committed : CommittedFilter Filter} {inner' : Inner α Filter}
    (h : Retains log inner) (hall : ∀ infoHash ∈ inner.buffer, infoHash ∈ blocked) :
    Retains (log ++ [.answered blocked (.ok committed) inner]) inner' where
  kept infoHash hpassed := by
    refine .inr ?_
    rcases h.kept infoHash (passed_answered.mp hpassed) with hin | hin
    · exact ⟨blocked, committed, inner, by simp, hall infoHash hin⟩
    · exact hin.concat _
  failed _ _ _ hlast := by
    rw [List.getLast?_concat] at hlast
    cases hlast

end

/-! ## The calls -/

section

variable {test : Filter → α → Bool} {config : BlockingConfig} {outside : Outside α}
  {log : Log α Filter E} {inner : Inner α Filter}

/-- **What a flush can do.** -/
lemma flushLocked_wp {Q : Log α Filter E → Inner α Filter → Except (BlockingError E) Unit → Prop}
    (h : Retains log inner)
    (hfail : ∀ log source, Retains log inner → Q log inner (.error (.store source)))
    (hok : ∀ log inner', Retains log inner' → inner'.buffer = ∅ → inner'.filter.isSome →
      Q log inner' (.ok ())) :
    (flushLocked outside).wp Retains Q log inner := by
  simp only [flushLocked, Call.wp_bind, Call.wp_get, Call.wp_ask]
  refine ⟨h, fun answer => ?_⟩
  cases answer with
  | error source => exact hfail _ source h.refused
  | ok committed =>
    refine hok _ _ (h.committed fun infoHash hin => ?_) rfl rfl
    exact (outside.order.mem_toList _ _).mpr hin

omit [DecidableEq α] in
/-- A buffer that is not due for a flush is not full. -/
lemma card_lt_of_not_shouldFlush {now : Nat} (h : ¬ shouldFlush inner config now) :
    inner.buffer.card < config.maxBufferSize := by
  unfold shouldFlush at h
  split at h
  · exact absurd rfl h
  · rename_i hcard
    exact not_le.mp hcard

variable {infoHashes : List α}

/-- With a filter published, the call tests each hash. -/
lemma filterPublished_wp (h : Retains log inner) (hfilter : inner.filter.isSome) :
    (filterPublished test infoHashes).wp Retains (fun log inner result =>
      Retains log inner ∧
        Post test config (.filter infoHashes, outside) log inner (.filtered result)) log inner := by
  obtain ⟨filter, hfilter⟩ := Option.isSome_iff_exists.mp hfilter
  simp only [filterPublished, Call.wp_bind, Call.wp_get, hfilter, Call.wp_pure]
  refine ⟨h, fun _ heq => ⟨filter, hfilter, ?_⟩⟩
  cases heq
  rfl

lemma filter_wp (h : Retains log inner) :
    (filter test config outside infoHashes).wp Retains (fun log inner result =>
      Retains log inner ∧
        Post test config (.filter infoHashes, outside) log inner (.filtered result)) log inner := by
  simp only [filter, Call.wp_bind, Call.wp_get]
  split
  · rw [Call.wp_bind]
    refine flushLocked_wp h (fun log source h => ⟨h, trivial⟩) fun log inner h _ hfilter => ?_
    exact filterPublished_wp h hfilter
  · rename_i hdue
    push Not at hdue
    refine filterPublished_wp h ?_
    cases hfilter : inner.filter with
    | none => simp [hfilter] at hdue
    | some _ => rfl

lemma block_wp {flush : Bool} (h : Retains log inner) :
    (block config outside infoHashes flush).wp Retains (fun log inner result =>
      Retains log inner ∧
        Post test config (.block infoHashes flush, outside) log inner (.done result))
      (log ++ [.entered (.block infoHashes flush, outside)]) inner := by
  simp only [block, Call.wp_bind, Call.wp_get, Call.wp_set]
  have hentered : Retains (log ++ [.entered (.block infoHashes flush, outside)])
      { inner with buffer := inner.buffer ∪ infoHashes.toFinset } := by
    refine h.entered Finset.subset_union_left fun infoHashes' flush' hcall infoHash hin => ?_
    cases hcall
    exact Finset.mem_union_right _ (List.mem_toFinset.mpr hin)
  split
  · refine flushLocked_wp hentered (fun log source h => ⟨h, trivial⟩)
      fun log inner h hempty _ => ⟨h, fun _ _ _ => ?_⟩
    rw [hempty, Finset.card_empty]
    exact config.maxBufferSize_pos
  · rename_i hdue
    push Not at hdue
    exact ⟨hentered, fun _ _ _ => card_lt_of_not_shouldFlush hdue.2⟩

lemma finalize_wp (h : Retains log inner) :
    (finalize outside).wp Retains (fun log inner (_ : Except (BlockingError E) _) =>
      Retains log inner) log inner := by
  simp only [finalize, Call.wp_bind, Call.wp_get]
  split
  · exact h
  · simp only [Call.wp_bind]
    exact flushLocked_wp h (fun log source h => h) fun log inner h _ _ => h

/-- **Every call meets its specification alone.** -/
lemma body_wp (call : Request α × Outside α) (h : Retains log inner) :
    (body test config call).wp Retains (fun log inner response =>
      Retains log inner ∧ Post test config call log inner response) (log ++ [.entered call])
      inner := by
  obtain ⟨request, outside⟩ := call
  -- only `block` has something to add before it can be dropped
  have hentered : (∀ infoHashes flush, request ≠ .block infoHashes flush) →
      Retains (log ++ [.entered (request, outside)]) inner := fun hne =>
    h.entered subset_rfl fun infoHashes flush hcall => absurd hcall (hne infoHashes flush)
  cases request with
  | filter infoHashes =>
    rw [body, Call.wp_map]
    exact filter_wp (hentered fun _ _ => by simp)
  | block infoHashes flush =>
    rw [body, Call.wp_map]
    exact block_wp h
  | flush =>
    rw [body, Call.wp_map, flush, Call.wp_bind]
    refine Call.wp_mono ?_ (finalize_wp (hentered fun _ _ => by simp))
    intro log inner result h
    refine ⟨h, ?_⟩
    cases result <;> simp [Post, Except.map]
  | finalize =>
    rw [body, Call.wp_map]
    exact Call.wp_mono (fun log inner result h => ⟨h, trivial⟩)
      (finalize_wp (hentered fun _ _ => by simp))

end

/-! ## Every interleaving -/

lemma retains_new : Retains ([] : Log α Filter E) Inner.new where
  kept infoHash hpassed := by
    obtain ⟨_, _, _, hmem, _⟩ := hpassed
    cases hmem
  failed _ _ _ hlast := by cases hlast

/-- A manager reached by any interleaving is sound. -/
lemma sound_run {test : Filter → α → Bool} {config : BlockingConfig}
    {events : List (Monitor.Event (Except E (CommittedFilter Filter)) (Request α × Outside α))}
    {replies : List (Monitor.Reply (List α) (Request α × Outside α) (Response α E))}
    {m : BlockingManager α Filter E}
    (hrun : Machine.run (Monitor.step (body test config)) BlockingManager.new events = some (replies, m)) :
    Monitor.Sound Retains (Post test config) m := by
  refine Machine.invariant_run (P := Monitor.Sound Retains (Post test config)) ?_ events ?_ hrun
  · intro m m' e reply h hstep
    exact (Monitor.sound_step (fun call _ _ => body_wp call) (fun _ _ _ h => h.cancelled) h hstep).1
  · exact ⟨retains_new, fun _ _ _ hholder => by cases hholder⟩

/-- **No block is lost.**  In every interleaving of calls, commits and dropped calls, a hash
that was passed to `block` is in the buffer or was handed to a commit that succeeded.  No
event panics, a failed commit changes nothing, `filter` returns the occurrences of hashes
that are not buffered, and a successful `block` leaves the buffer below its bound. -/
theorem blocking_retains (test : Filter → α → Bool) (config : BlockingConfig)
    (events : List (Monitor.Event (Except E (CommittedFilter Filter)) (Request α × Outside α)))
    (replies : List (Monitor.Reply (List α) (Request α × Outside α) (Response α E)))
    (m : BlockingManager α Filter E)
    (hrun : Machine.run (Monitor.step (body test config)) BlockingManager.new events = some (replies, m)) :
    (∀ infoHashes flush outside, .enter (.block infoHashes flush, outside) ∈ events →
      ∀ infoHash ∈ infoHashes, infoHash ∈ m.state.buffer ∨ Committed m.log infoHash) ∧
    ∀ event reply m', Monitor.step (body test config) m event = some (reply, m') →
      (∀ call, reply ≠ .panicked call) ∧
      (∀ source, event = .answer (.error source) → m'.state = m.state) ∧
      (event = .cancel → m'.state = m.state) ∧
      (∀ infoHashes outside out,
        reply = .returned (.filter infoHashes, outside) (.filtered (.ok out)) →
        out.Sublist infoHashes ∧ (∀ infoHash ∈ out, infoHash ∉ m'.state.buffer) ∧
        ∀ infoHash ∈ out, out.count infoHash = infoHashes.count infoHash) ∧
      ∀ infoHashes flush outside,
        reply = .returned (.block infoHashes flush, outside) (.done (.ok ())) →
        m'.state.buffer.card < config.maxBufferSize := by
  have hsound := sound_run hrun
  refine ⟨fun infoHashes flush outside hmem infoHash hin => ?_, fun event reply m' hstep => ?_⟩
  · exact hsound.1.kept infoHash
      ⟨infoHashes, flush, outside, Monitor.entered_mem_log hmem hrun, hin⟩
  · obtain ⟨hsound', hmeets⟩ := Monitor.sound_step (fun call _ _ => body_wp call)
      (fun _ _ _ h => h.cancelled) hsound hstep
    refine ⟨?_, ?_, ?_, ?_, ?_⟩
    · rintro call rfl
      exact hmeets
    · rintro source rfl
      obtain ⟨entry, hlog, blocked, rfl⟩ := Monitor.log_step hstep
      refine hsound'.1.failed blocked source m.state ?_
      rw [hlog, List.getLast?_concat]
    · rintro rfl
      rcases Monitor.step_eq_some hstep with ⟨_, h, _⟩ | ⟨_, _, _, _, h, _⟩ |
        ⟨_, _, _, -, -, -, rfl⟩
      · cases h
      · cases h
      · rfl
    · rintro infoHashes outside out rfl
      obtain ⟨filter, -, rfl⟩ := hmeets infoHashes rfl
      refine ⟨List.filter_sublist, fun infoHash hin => ?_, fun infoHash hin => ?_⟩
      · exact (of_decide_eq_true (List.mem_filter.mp hin).2).1
      · exact List.count_filter (List.mem_filter.mp hin).2
    · rintro infoHashes flush outside rfl
      exact hmeets infoHashes flush rfl

/-- A clock at zero, and buffers iterated in ascending order. -/
def ascending : Outside Nat where
  now := 0
  order := ⟨fun s => s.sort (· ≤ ·), fun s => s.sort_nodup _, fun _ _ => Finset.mem_sort _⟩

/-- Two hashes fill the buffer, the first commit of them is refused and a later one is not.
The filter is the list of what was committed. -/
def refusedOnce :
    List (Monitor.Event (Except String (CommittedFilter (List Nat))) (Request Nat × Outside Nat)) :=
  [.enter (.filter [5, 8], ascending), .answer (.ok ⟨[], 0⟩),
    .enter (.block [5, 7, 5] false, ascending), .answer (.error "refused"),
    .enter (.finalize, ascending), .answer (.ok ⟨[5, 7], 1⟩)]

/-- The run of `refusedOnce` with a buffer of two. -/
def refusedOnceRun := Machine.run
  (Monitor.step (body (E := String) (fun filter h => h ∈ filter) ⟨2, 1000, by decide⟩))
  BlockingManager.new refusedOnce

/-- The refused hash was handed to the commit that succeeded. -/
theorem blocking_retains_refusedOnce :
    ∃ replies m, refusedOnceRun = some (replies, m) ∧ m.state.buffer = ∅ ∧ Committed m.log 5 := by
  have hbuffer : refusedOnceRun.map (fun p => p.2.state.buffer) = some ∅ := by decide +kernel
  obtain ⟨⟨replies, m⟩, hrun, hempty⟩ := Option.map_eq_some_iff.mp hbuffer
  refine ⟨replies, m, hrun, hempty, ?_⟩
  have hmem : .enter (.block [5, 7, 5] false, ascending) ∈ refusedOnce := by simp [refusedOnce]
  rcases (blocking_retains _ _ refusedOnce replies m hrun).1 _ _ _ hmem 5 (by simp) with h | h
  · rw [hempty] at h
    cases h
  · exact h

end Bitmagnet.Blocking
