import Bitmagnet.Library.Fallible
import Bitmagnet.Library.Hex
import Bitmagnet.Library.Keyset
import Bitmagnet.Queue.Batch

/-!
# Batch jobs enumerate what they select

One payload reads pages until it has enough hashes or there are no more, and hands
the rest to a continuation.  `Planned` is the invariant of that loop: the pages
planned so far, followed by what lies behind the cursor, are what lay behind the
cursor of the payload.  `Keyset.after_getLast` carries it over a page, and since a
page moves the cursor, the loop and the chain of continuations end.

`Lawful` is what is assumed of JSON, the database and the calendar.  What does not
depend on it is proved for every environment: a page that breaks the contract is
rejected and leaves the planner alone (`addPage_invalid`), and there are always as
many timestamps as jobs (`handlePayload_ne_diverged`).
-/

namespace Bitmagnet.Queue

open Fallible (Errs errs_ok errs_error)

variable {Value : Type}

/-! ## The planner on any page -/

/-- The contract of a page: within the batch size, ascending, above the cursor. -/
def BatchPlanner.Accepts (p : BatchPlanner Value) (page : List ProtocolId) : Prop :=
  (0 < p.message.batchSize → page.length ≤ p.message.batchSize) ∧
    (p.maxInfoHash :: page).Pairwise (· < ·)

variable {page : List ProtocolId} {p : BatchPlanner Value} {fuel : Nat} {s : HandlerState Value}
  {pages : List (List ProtocolId)} {payload : String} {jobs : List QueueJob} {stamps : List Int}

lemma BatchPlanner.ascendsFrom_eq_true {previous : ProtocolId} :
    ascendsFrom previous page = true ↔ (previous :: page).Pairwise (· < ·) := by
  rw [← List.isChain_iff_pairwise]
  induction page generalizing previous with
  | nil => simp [ascendsFrom]
  | cons h page ih =>
    rw [List.isChain_cons_cons, ← ih, ascendsFrom]
    by_cases hle : h ≤ previous
    · simp [hle, not_lt_of_ge hle]
    · simp [hle, lt_of_not_ge hle]

/-- **A page that breaks the contract is rejected and changes nothing.** -/
lemma BatchPlanner.addPage_invalid {env : BatchEnv Value} (hopen : p.finalized = false)
    (hne : page ≠ []) (h : ¬ p.Accepts page) : p.addPage env page = (.error .invalidPage, p) := by
  obtain ⟨last, hlast⟩ := Option.isSome_iff_exists.mp (List.getLast?_isSome.mpr hne)
  simp only [addPage, hopen, Bool.false_eq_true, if_false, hlast]
  by_cases hsize : p.message.batchSize > 0 ∧ page.length > p.message.batchSize
  · rw [if_pos hsize]
  · have hascends : ¬ ascendsFrom p.maxInfoHash page = true := by
      intro hascends
      refine h ⟨fun hpos => ?_, ascendsFrom_eq_true.mp hascends⟩
      exact Nat.le_of_not_lt fun hlt => hsize ⟨hpos, hlt⟩
    rw [if_neg hsize, if_pos hascends]

/-- What `add_page` does to the number of jobs. -/
lemma BatchPlanner.addPage_ok {env : BatchEnv Value} {p' : BatchPlanner Value}
    (h : p.addPage env page = (.ok (), p')) :
    p'.jobs.length = p.jobs.length + if page.isEmpty then 0 else 1 := by
  unfold addPage at h
  split at h
  · cases h
  split at h
  · rename_i hlast
    cases h
    rw [List.getLast?_eq_none_iff.mp hlast]
    rfl
  · rename_i last hlast
    have hne : page.isEmpty = false := by
      cases page
      · cases hlast
      · rfl
    split at h
    · cases h
    split at h
    · cases h
    split at h
    · cases h
    · cases h
      simp [hne]

/-- What `finalize` does to the number of jobs. -/
lemma BatchPlanner.finalize_ok {env : BatchEnv Value} {plan : BatchPlan}
    (h : (p.finalize env).1 = .ok plan) :
    plan.done = p.done ∧ plan.jobs.length = p.jobs.length + if plan.done then 0 else 1 := by
  unfold finalize at h
  split at h
  · cases h
  simp only at h
  split at h
  · rename_i hdone
    cases h
    simp [hdone]
  · rename_i hdone
    split at h
    · cases h
    · cases h
      simp [hdone]

/-! ## Timestamps -/

lemma pageLoop_stamps {env : BatchEnv Value} {now : Nat → Int} {s' : HandlerState Value}
    (hs : s.materializedAt.length = s.planner.jobs.length)
    (h : pageLoop env now fuel s = some (.ok s')) :
    s'.materializedAt.length = s'.planner.jobs.length := by
  induction fuel generalizing s with
  | zero => cases h
  | succ fuel ih =>
    simp only [pageLoop] at h
    split at h
    · split at h
      · cases h
      · split at h
        · cases h
        · rename_i page _ planner hadd
          have hjobs := BatchPlanner.addPage_ok hadd
          split at h
          · rename_i hempty
            refine ih ?_ h
            rw [hjobs, if_pos hempty]
            exact hs
          · rename_i hempty
            refine ih ?_ h
            simp only [List.length_append, List.length_singleton, hjobs, hs, hempty]
            rfl
    · cases h
      exact hs

/-- The text of the divergence error. -/
def divergedReason : String := "planner jobs and materialization timestamps diverged"

/-- A computation that does not end in a batch payload error. -/
abbrev NoPayloadError {α : Type} (x : Except BatchHandleError α) : Prop :=
  Errs (fun e => ∀ reason, e ≠ .invalidBatchPayload reason) x

variable (env : BatchEnv Value) (now : Nat → Int)

lemma noPayloadError_materializeAt (job : QueueJob) (materializedAt : Int) :
    NoPayloadError (materializeAt env job materializedAt) := by
  unfold materializeAt
  split
  · exact errs_ok _
  · exact errs_error nofun

lemma noPayloadError_validateCommonJob (job : QueueJob) :
    NoPayloadError (validateCommonJob env job) := by
  unfold validateCommonJob
  repeat' split
  all_goals first
    | exact errs_ok _
    | exact errs_error nofun

lemma noPayloadError_collectPlan (jobs : List PreparedQueueJob) (plan : EnqueuePlan) :
    NoPayloadError (collectPlan env jobs plan) := by
  induction jobs generalizing plan with
  | nil => exact errs_ok _
  | cons prepared rest ih =>
    simp only [collectPlan]
    split
    · rename_i e he
      exact errs_error (noPayloadError_validateCommonJob env _ e he)
    · exact errs_error nofun
    · repeat' split
      all_goals first
        | exact ih _
        | exact errs_error nofun

lemma noPayloadError_insertPlanStrict (jobs : List PreparedQueueJob) :
    NoPayloadError (insertPlanStrict env jobs) := by
  unfold insertPlanStrict
  split
  · rename_i e he
    exact errs_error (noPayloadError_collectPlan env _ _ e he)
  · repeat' split
    all_goals first
      | exact errs_ok _
      | exact errs_error nofun

lemma noPayloadError_pageLoop {r : Except BatchHandleError (HandlerState Value)}
    (h : pageLoop env now fuel s = some r) : NoPayloadError r := by
  induction fuel generalizing s with
  | zero => cases h
  | succ fuel ih =>
    simp only [pageLoop] at h
    repeat' split at h
    all_goals first
      | exact ih h
      | (cases h; exact errs_error nofun)
      | (cases h; exact errs_ok _)

lemma noPayloadError_finishPayload (hs : s.materializedAt.length = s.planner.jobs.length) :
    NoPayloadError (finishPayload env now s) := by
  unfold finishPayload
  split
  · exact errs_error nofun
  · rename_i plan hplan
    obtain ⟨-, hjobs⟩ := BatchPlanner.finalize_ok hplan
    have hlength : (if plan.done then s.materializedAt
        else s.materializedAt ++ [now s.readings]).length = plan.jobs.length := by
      cases hdone : plan.done <;> simp [hdone, hs, hjobs]
    simp only [hlength, ne_eq, not_true_eq_false, if_false]
    refine Errs.bind (Errs.mapM fun p => noPayloadError_materializeAt env p.1 p.2) fun prepared _ =>
      (noPayloadError_insertPlanStrict env prepared).bind fun _ _ => errs_ok _

/-- **There are as many timestamps as jobs**: in no environment does the handler see
them diverge. -/
lemma handlePayload_ne_diverged (fuel : Nat) (payload : String) :
    handlePayload env now fuel payload ≠ some (.error (.invalidBatchPayload divergedReason)) := by
  unfold handlePayload
  split
  · simp
  split
  · simp [divergedReason]
  split
  · simp [divergedReason]
  split
  · simp
  · rename_i e hloop
    intro h
    cases h
    exact noPayloadError_pageLoop env now hloop _ rfl _ rfl
  · rename_i s hloop
    intro h
    have hfinish := noPayloadError_finishPayload env now (pageLoop_stamps rfl hloop)
    exact hfinish _ (Option.some.inj h) _ rfl

/-! ## What is assumed of the surroundings -/

/-- The plan the insert statement takes: objects with the priorities of child jobs,
and a continuation only behind a child. -/
structure EnqueuePlan.WellFormed (env : BatchEnv Value) (plan : EnqueuePlan) : Prop where
  children : ∀ child ∈ plan.children, env.isObject child.1 = some true ∧
    (child.2.2 = 4 ∨ child.2.2 = 10)
  continuation : ∀ c ∈ plan.continuation, env.isObject c.1 = some true ∧ plan.children ≠ []

/-- What JSON text, the database and the calendar are relied on for. -/
structure BatchEnv.Lawful (env : BatchEnv Value) : Prop where
  /-- A child's payload is an object that reads back to the same hashes. -/
  childText : ∀ params, ∃ text, env.childText params = some text ∧
    env.isObject text = some true ∧
    ∃ params', env.parseChild text = some params' ∧
      params'.infoHashes = params.infoHashes
  /-- A payload that was read is written, and reads back to the same selection. -/
  batchText : ∀ {payload m}, env.parseBatch payload = some m → ∀ cursor,
    ∃ text, env.batchText { m with infoHashGreaterThan := cursor } = some text ∧
      env.isObject text = some true ∧
      ∃ m', env.parseBatch text = some m' ∧ m'.infoHashGreaterThan = cursor ∧
        m'.updatedBefore = m.updatedBefore ∧ m'.contentTypes = m.contentTypes ∧
        m'.orphans = m.orphans ∧ m'.batchSize = m.batchSize ∧ m'.chunkSize = m.chunkSize
  /-- No delay needs no calendar arithmetic. -/
  checkedAdd : ∀ t, env.checkedAdd t 0 = some t
  /-- A well-formed plan is inserted. -/
  enqueuePlan : ∀ plan : EnqueuePlan, plan.WellFormed env →
    env.enqueuePlan plan = .ok (plan.children.length + if plan.continuation.isSome then 1 else 0)

/-- The page query returns the first hashes of `T` above the cursor. -/
def SelectsFrom (m : ProcessTorrentBatchParams Value) (T : Finset ProtocolId) : Prop :=
  ∀ cursor, env.selectPage ⟨cursor, m.updatedBefore, m.contentTypes, m.orphans, "info_hash_asc",
    m.batchSize⟩ = .ok ((Keyset.after T cursor).take m.batchSize)

/-- The hash lists of the child jobs, as their consumer reads them. -/
def childHashes (jobs : List PreparedQueueJob) : List (List ProtocolId) :=
  jobs.filterMap fun p =>
    if p.job.queue = processTorrent then
      (env.parseChild p.job.payload).map ProcessTorrentParams.infoHashes
    else none

/-! ## The loop over the pages -/

/-- The invariant of the loop, for the pages planned so far. -/
structure Planned (T : Finset ProtocolId) (m : ProcessTorrentBatchParams Value)
    (s : HandlerState Value) (pages : List (List ProtocolId)) : Prop where
  message : s.planner.message = m
  notFinalized : s.planner.finalized = false
  stamps : s.materializedAt.length = s.planner.jobs.length
  jobs : List.Forall₂ (fun page job => BatchPlanner.childJob env m page = some job) pages
    s.planner.jobs
  split : pages.flatten ++ Keyset.after T s.planner.maxInfoHash =
    Keyset.after T m.infoHashGreaterThan
  sizes : ∀ page ∈ pages, page ≠ [] ∧ page.length ≤ m.batchSize
  exhausted : s.planner.done = true → Keyset.after T s.planner.maxInfoHash = []
  counted : s.planner.chunkSize = 0 ↔ pages = []

variable {env now} {T : Finset ProtocolId} {m : ProcessTorrentBatchParams Value}

lemma planned_new (m : ProcessTorrentBatchParams Value) :
    Planned env T m ⟨.new m, [], 0, 0⟩ [] where
  message := rfl
  notFinalized := rfl
  stamps := rfl
  jobs := .nil
  split := rfl
  sizes := nofun
  exhausted := nofun
  counted := by simp [BatchPlanner.new]

/-- A page of the selection keeps the contract. -/
lemma ascendsFrom_take (cursor : ProtocolId) (limit : Nat) :
    BatchPlanner.ascendsFrom cursor ((Keyset.after T cursor).take limit) = true := by
  refine BatchPlanner.ascendsFrom_eq_true.mpr (List.pairwise_cons.mpr ⟨fun x hx => ?_, ?_⟩)
  · exact (Keyset.mem_after.mp (List.mem_of_mem_take hx)).2
  · exact (Keyset.pairwise_after T cursor).sublist (List.take_sublist _ _)

/-- **One page.**  The loop ends a payload without hashes left, or plans a page and
leaves fewer of them. -/
lemma addPage_planned (hlaw : env.Lawful) (hbatch : 0 < m.batchSize) (h : Planned env T m s pages)
    (hquery : s.planner.shouldQuery = true) :
    (Keyset.after T s.planner.maxInfoHash = [] ∧
      s.planner.addPage env [] = (.ok (), { s.planner with done := true }) ∧
      Planned env T m { s with planner := { s.planner with done := true } } pages) ∨
    ∃ page planner, page = (Keyset.after T s.planner.maxInfoHash).take m.batchSize ∧ page ≠ [] ∧
      s.planner.addPage env page = (.ok (), planner) ∧
      (Keyset.after T planner.maxInfoHash).length < (Keyset.after T s.planner.maxInfoHash).length ∧
      Planned env T m
        { planner
          materializedAt := s.materializedAt ++ [now s.readings]
          selected := min (s.selected + page.length) (2 ^ 64 - 1)
          readings := s.readings + 1 } (pages ++ [page]) := by
  by_cases hleft : Keyset.after T s.planner.maxInfoHash = []
  · refine .inl ⟨hleft, by simp [BatchPlanner.addPage, h.notFinalized], ?_⟩
    exact { h with exhausted := fun _ => hleft }
  right
  generalize hpage : (Keyset.after T s.planner.maxInfoHash).take m.batchSize = page
  have hne : page ≠ [] := by
    rw [← hpage]
    simp [hleft, Nat.ne_of_gt hbatch]
  have hpos : 0 < page.length := List.length_pos_iff.mpr hne
  have hsize : page.length ≤ m.batchSize := by
    rw [← hpage, List.length_take]
    exact Nat.min_le_left _ _
  have hsplit : Keyset.after T s.planner.maxInfoHash =
      page ++ (Keyset.after T s.planner.maxInfoHash).drop m.batchSize := by
    rw [← hpage, List.take_append_drop]
  have hrest := Keyset.after_getLast hsplit hne
  have hdone : s.planner.done = false := by
    simp only [BatchPlanner.shouldQuery, Bool.and_eq_true, Bool.not_eq_true'] at hquery
    exact hquery.1
  obtain ⟨text, htext, -⟩ := hlaw.childText
    ⟨m.classifyMode, m.classifierWorkflow, m.classifierFlags, page⟩
  obtain ⟨job, hjob⟩ : ∃ job, BatchPlanner.childJob env m page = some job := by
    simp [BatchPlanner.childJob, processTorrentJob, htext]
  have hascends : BatchPlanner.ascendsFrom s.planner.maxInfoHash page = true := by
    rw [← hpage]
    exact ascendsFrom_take _ _
  have hlast : page.getLast? = some (page.getLast hne) := List.getLast?_eq_some_getLast hne
  have hadd : s.planner.addPage env page = (.ok (),
      { s.planner with
        jobs := s.planner.jobs ++ [job]
        maxInfoHash := page.getLast hne
        chunkSize := min (s.planner.chunkSize + page.length) (2 ^ 64 - 1)
        done := s.planner.done || decide (page.length < m.batchSize) }) := by
    simp only [BatchPlanner.addPage, h.notFinalized, Bool.false_eq_true, if_false, hlast,
      h.message, hascends, not_true_eq_false, hjob]
    rw [if_neg (by omega)]
  refine ⟨page, _, rfl, hne, hadd, ?_, ?_⟩
  · simp only [hrest]
    conv_rhs => rw [hsplit]
    rw [List.length_append]
    omega
  · exact {
      message := h.message
      notFinalized := h.notFinalized
      stamps := by simp [h.stamps]
      jobs := List.rel_append h.jobs (.cons hjob .nil)
      split := by
        simp only [hrest]
        rw [List.flatten_append, List.flatten_singleton, List.append_assoc, ← hsplit]
        exact h.split
      sizes := by
        intro page' hpage'
        rcases List.mem_append.mp hpage' with hmem | hmem
        · exact h.sizes page' hmem
        · rw [List.mem_singleton.mp hmem]
          exact ⟨hne, hsize⟩
      exhausted := by
        simp only [hdone, Bool.false_or, decide_eq_true_eq, hrest]
        intro hshort
        rw [List.drop_eq_nil_iff]
        rw [← hpage, List.length_take] at hshort
        omega
      counted := by
        simp only [List.append_eq_nil_iff, List.cons_ne_nil, and_false, iff_false]
        omega }

/-- **The loop ends**, with the invariant and nothing more to query. -/
lemma pageLoop_planned (hlaw : env.Lawful) (hbatch : 0 < m.batchSize)
    (hselects : SelectsFrom env m T) (h : Planned env T m s pages)
    (hfuel : (Keyset.after T s.planner.maxInfoHash).length + 2 ≤ fuel) :
    ∃ s' pages', pageLoop env now fuel s = some (.ok s') ∧ Planned env T m s' pages' ∧
      s'.planner.shouldQuery = false := by
  induction fuel generalizing s pages with
  | zero => omega
  | succ fuel ih =>
    by_cases hquery : s.planner.shouldQuery = true
    · have hpage : env.selectPage s.planner.selection =
          .ok ((Keyset.after T s.planner.maxInfoHash).take m.batchSize) := by
        rw [BatchPlanner.selection, h.message]
        exact hselects _
      rcases @addPage_planned _ s pages env now T m hlaw hbatch h hquery with
        ⟨hempty, hadd, hplanned⟩ | ⟨page, planner, hpage', hne, hadd, hless, hplanned⟩
      · -- the empty page sets `done`, so the next round is the last
        obtain ⟨fuel, rfl⟩ : ∃ n, fuel = n + 1 := ⟨fuel - 1, by omega⟩
        have hstop : ({ s.planner with done := true } : BatchPlanner Value).shouldQuery =
            false := rfl
        refine ⟨_, pages, ?_, hplanned, hstop⟩
        simp [pageLoop, hquery, hpage, hempty, hadd, hstop]
      · obtain ⟨s', pages', hloop, hplanned', hend⟩ := ih hplanned (by simp only; omega)
        refine ⟨s', pages', ?_, hplanned', hend⟩
        rw [← hpage'] at hpage
        simpa [pageLoop, hquery, hpage, hadd, hne] using hloop
    · refine ⟨s, pages, ?_, h, by simpa using hquery⟩
      simp [pageLoop, hquery]

/-! ## Inserting the plan -/

/-- What a child job is. -/
structure IsChild (env : BatchEnv Value) (page : List ProtocolId) (job : QueueJob) : Prop where
  queue : job.queue = processTorrent
  validated : validateCommonJob env job = .ok true
  object : env.isObject job.payload = some true
  maxRetries : job.maxRetries = 2
  priority : job.priority = 4 ∨ job.priority = 10
  delay : job.delay = 0
  hashes : (env.parseChild job.payload).map ProcessTorrentParams.infoHashes =
    some page

lemma isChild_of_childJob (hlaw : env.Lawful) {job : QueueJob}
    (h : BatchPlanner.childJob env m page = some job) : IsChild env page job := by
  obtain ⟨text, htext, hobject, params, hparse, hhashes⟩ := hlaw.childText
    ⟨m.classifyMode, m.classifierWorkflow, m.classifierFlags, page⟩
  simp only [BatchPlanner.childJob, processTorrentJob, htext, Option.map_some,
    Option.some.injEq] at h
  subst h
  refine ⟨rfl, ?_, hobject, rfl, ?_, rfl, ?_⟩
  · simp [validateCommonJob, newQueueJob, hobject]
  · simp only [newQueueJob]
    split <;> simp
  · simp [newQueueJob, hparse, hhashes]

/-- The payload goes on with the selection of `m` behind the cursor. -/
def Continues (env : BatchEnv Value) (T : Finset ProtocolId) (m : ProcessTorrentBatchParams Value)
    (cursor : ProtocolId) (payload : String) : Prop :=
  ∃ m', env.parseBatch payload = some m' ∧ m'.infoHashGreaterThan = cursor ∧
    m'.batchSize = m.batchSize ∧ m'.chunkSize = m.chunkSize ∧
    (SelectsFrom env m T → SelectsFrom env m' T)

/-- What the continuation of a payload `m` is. -/
structure IsContinuation (env : BatchEnv Value) (T : Finset ProtocolId)
    (m : ProcessTorrentBatchParams Value) (cursor : ProtocolId) (job : QueueJob) : Prop where
  queue : job.queue = processTorrentBatch
  validated : validateCommonJob env job = .ok true
  object : env.isObject job.payload = some true
  maxRetries : job.maxRetries = 2
  priority : job.priority = 0
  delay : job.delay = 0
  next : Continues env T m cursor job.payload

lemma exists_continuation (hlaw : env.Lawful) (hparse : env.parseBatch payload = some m)
    (hbatch : 0 < m.batchSize) (hchunk : 0 < m.chunkSize) (T : Finset ProtocolId)
    (cursor : ProtocolId) :
    ∃ job, processTorrentBatchJob env { m with infoHashGreaterThan := cursor } {} = some job ∧
      IsContinuation env T m cursor job := by
  obtain ⟨text, htext, hobject, m', hparse', hcursor, hbefore, htypes, horphans, hbatch', hchunk'⟩ :=
    hlaw.batchText hparse cursor
  refine ⟨newQueueJob env processTorrentBatch text ⟨2, 0, 0⟩, ?_,
    ⟨rfl, ?_, hobject, rfl, rfl, rfl, m', hparse', hcursor, hbatch', hchunk', fun hselects c => ?_⟩⟩
  · simp [processTorrentBatchJob, Nat.ne_of_gt hbatch, Nat.ne_of_gt hchunk, htext]
  · simp [validateCommonJob, newQueueJob, hobject]
  · rw [hbefore, htypes, horphans, hbatch']
    exact hselects c

lemma mapM_materializeAt (hlaw : env.Lawful) (hdelay : ∀ job ∈ jobs, job.delay = 0) :
    ((jobs.zip stamps).mapM fun p => materializeAt env p.1 p.2) =
      .ok (List.zipWith PreparedQueueJob.mk jobs stamps) := by
  induction jobs generalizing stamps with
  | nil => rfl
  | cons job jobs ih =>
    cases stamps with
    | nil => rfl
    | cons stamp stamps =>
      have hjob : materializeAt env job stamp = .ok ⟨job, stamp⟩ := by
        simp [materializeAt, hdelay job (by simp), hlaw.checkedAdd]
      have ih := @ih stamps fun job' hjob' => hdelay job' (List.mem_cons_of_mem _ hjob')
      rw [List.zip_cons_cons, List.mapM_cons, hjob, ih]
      rfl

/-- Prepared child jobs, one for each page. -/
abbrev Children (env : BatchEnv Value) (pages : List (List ProtocolId))
    (prepared : List PreparedQueueJob) : Prop :=
  List.Forall₂ (fun page p => IsChild env page p.job) pages prepared

lemma children_zipWith (h : List.Forall₂ (IsChild env) pages jobs)
    (hlength : stamps.length = jobs.length) :
    Children env pages (List.zipWith PreparedQueueJob.mk jobs stamps) := by
  induction h generalizing stamps with
  | nil =>
    rw [List.length_eq_zero_iff.mp hlength]
    exact .nil
  | cons hjob _ ih =>
    obtain ⟨stamp, stamps, rfl⟩ := List.exists_cons_of_length_eq_add_one hlength
    exact .cons hjob (ih (by simpa using hlength))

namespace Children

variable {pages : List (List ProtocolId)} {prepared : List PreparedQueueJob}

section

variable (h : Children env pages prepared)
include h

lemma childHashes_append (rest : List PreparedQueueJob) :
    childHashes env (prepared ++ rest) = pages ++ childHashes env rest := by
  induction h with
  | nil => rfl
  | cons hchild _ ih =>
    have ih' := ih
    unfold childHashes at ih' ⊢
    rw [List.cons_append, List.filterMap_cons, if_pos hchild.queue, hchild.hashes]
    simp [ih']

lemma find?_append (rest : List PreparedQueueJob) :
    ((prepared ++ rest).find? fun p => p.job.queue = processTorrentBatch) =
      rest.find? fun p => p.job.queue = processTorrentBatch := by
  induction h with
  | nil => rfl
  | cons hchild _ ih =>
    rw [List.cons_append, List.find?_cons_of_neg (by simp [hchild.queue]; decide), ih]

lemma collectPlan_append (rest : List PreparedQueueJob) (plan : EnqueuePlan) :
    collectPlan env (prepared ++ rest) plan =
      collectPlan env rest { plan with
        children := plan.children ++
          prepared.map fun p => (p.job.payload, p.runAfter, p.job.priority) } := by
  induction h generalizing plan with
  | nil => simp
  | cons hchild _ ih =>
    simp only [List.cons_append, collectPlan, hchild.validated, hchild.maxRetries, hchild.queue,
      hchild.priority, ne_eq, not_true_eq_false, if_false, if_true, ih]
    simp

/-- The children of a plan are what the insert statement expects. -/
lemma object_and_priority :
    ∀ child ∈ prepared.map fun p => (p.job.payload, p.runAfter, p.job.priority),
      env.isObject child.1 = some true ∧ (child.2.2 = 4 ∨ child.2.2 = 10) := by
  induction h with
  | nil => simp
  | cons hchild _ ih =>
    intro child hmem
    rcases List.mem_cons.mp hmem with rfl | hmem
    · exact ⟨hchild.object, hchild.priority⟩
    · exact ih child hmem

end

end Children

/-- Inserting children and, behind at least one of them, a continuation succeeds. -/
lemma insertPlanStrict_ok (hlaw : env.Lawful) {prepared : List PreparedQueueJob}
    (h : Children env pages prepared) {rest : List PreparedQueueJob}
    (hrest : rest = [] ∨ pages ≠ [] ∧
      ∃ cursor p, rest = [p] ∧ IsContinuation env T m cursor p.job) :
    insertPlanStrict env (prepared ++ rest) = .ok () := by
  rcases hrest with rfl | ⟨hne, cursor, p, rfl, hcont⟩
  · have hcollect := h.collectPlan_append [] ⟨[], none⟩
    have hinsert := hlaw.enqueuePlan
      ⟨prepared.map fun p => (p.job.payload, p.runAfter, p.job.priority), none⟩
      ⟨h.object_and_priority, nofun⟩
    simp only [collectPlan, List.nil_append] at hcollect
    rw [insertPlanStrict, hcollect]
    simp [hinsert]
  · have hcollect := h.collectPlan_append [p] ⟨[], none⟩
    have hbatch : ¬ processTorrentBatch = processTorrent := by decide
    have hinsert := hlaw.enqueuePlan
      ⟨prepared.map fun p => (p.job.payload, p.runAfter, p.job.priority),
        some (p.job.payload, p.runAfter)⟩
      ⟨h.object_and_priority, by
        rintro c ⟨⟩
        refine ⟨hcont.object, fun hnil => hne ?_⟩
        have := List.Forall₂.length_eq h
        rw [List.map_eq_nil_iff.mp hnil] at this
        exact List.length_eq_zero_iff.mp this⟩
    simp only [collectPlan, List.nil_append, hcont.validated, hcont.maxRetries, hcont.queue,
      hcont.priority, hbatch, if_false, if_true, ne_eq, not_true_eq_false, List.isEmpty_nil,
      and_self] at hcollect
    simp [insertPlanStrict, hcollect, hinsert]

lemma delay_of_isChild (h : List.Forall₂ (IsChild env) pages jobs) :
    ∀ job ∈ jobs, job.delay = 0 := by
  induction h with
  | nil => simp
  | cons hchild _ ih =>
    intro job hjob
    rcases List.mem_cons.mp hjob with rfl | hmem
    · exact hchild.delay
    · exact ih job hmem

/-- A plan that has its timestamps and is inserted. -/
lemma finishPayload_ok (hlaw : env.Lawful) {plan : BatchPlan}
    (hfinal : (s.planner.finalize env).1 = .ok plan)
    (hstamps : (if plan.done then s.materializedAt
      else s.materializedAt ++ [now s.readings]) = stamps)
    (hlength : stamps.length = plan.jobs.length) (hdelay : ∀ job ∈ plan.jobs, job.delay = 0)
    (hinsert : insertPlanStrict env (List.zipWith PreparedQueueJob.mk plan.jobs stamps) = .ok ()) :
    ∃ report, finishPayload env now s =
      .ok (report, List.zipWith PreparedQueueJob.mk plan.jobs stamps) := by
  refine ⟨⟨s.selected, (List.zipWith PreparedQueueJob.mk plan.jobs stamps).length -
    if plan.done then 0 else 1, !plan.done, plan.maxInfoHash, plan.done⟩, ?_⟩
  simp only [finishPayload, hfinal, hstamps, hlength, ne_eq, not_true_eq_false, if_false,
    mapM_materializeAt hlaw hdelay]
  simp only [bind, Except.bind, hinsert, pure, Except.pure]

/-- **One payload.**  Its children are the planned pages, and there is a continuation,
at the cursor that was reached, exactly when it is not done. -/
lemma finishPayload_planned (hlaw : env.Lawful) (hparse : env.parseBatch payload = some m)
    (hbatch : 0 < m.batchSize) (hchunk : 0 < m.chunkSize) (h : Planned env T m s pages)
    (hstop : s.planner.shouldQuery = false) :
    ∃ report jobs, finishPayload env now s = .ok (report, jobs) ∧ childHashes env jobs = pages ∧
      ((s.planner.done = true ∧ continuationPayload jobs = none) ∨
        (pages ≠ [] ∧ ∃ next, continuationPayload jobs = some next ∧
          Continues env T m s.planner.maxInfoHash next)) := by
  have hchildren : List.Forall₂ (IsChild env) pages s.planner.jobs :=
    h.jobs.imp fun page job hjob => isChild_of_childJob hlaw hjob
  have hprepared := children_zipWith hchildren h.stamps
  cases hdone : s.planner.done with
  | true =>
    have hfinal : (s.planner.finalize env).1 =
        .ok ⟨s.planner.jobs, s.planner.maxInfoHash, s.planner.chunkSize, true⟩ := by
      simp [BatchPlanner.finalize, h.notFinalized, hdone]
    have hinsert := @insertPlanStrict_ok _ _ env T m hlaw _ hprepared [] (.inl rfl)
    rw [List.append_nil] at hinsert
    obtain ⟨report, hok⟩ := @finishPayload_ok _ s _ env now hlaw _ hfinal rfl h.stamps
      (delay_of_isChild hchildren) hinsert
    refine ⟨report, _, hok, ?_, .inl ⟨rfl, ?_⟩⟩
    · simpa [childHashes] using hprepared.childHashes_append []
    · simpa [continuationPayload] using hprepared.find?_append []
  | false =>
    obtain ⟨job, hjob, hcont⟩ := exists_continuation hlaw hparse hbatch hchunk T
      s.planner.maxInfoHash
    have hfinal : (s.planner.finalize env).1 = .ok ⟨s.planner.jobs ++ [job],
        s.planner.maxInfoHash, s.planner.chunkSize, false⟩ := by
      simp [BatchPlanner.finalize, h.notFinalized, hdone, h.message, hjob]
    -- the loop stopped on the chunk size, so there was a page
    have hne : pages ≠ [] := by
      intro hnil
      have hzero := h.counted.mpr hnil
      simp [BatchPlanner.shouldQuery, hdone, hzero] at hstop
    have hzip : List.zipWith PreparedQueueJob.mk (s.planner.jobs ++ [job])
        (s.materializedAt ++ [now s.readings]) =
        List.zipWith PreparedQueueJob.mk s.planner.jobs s.materializedAt ++
          [⟨job, now s.readings⟩] := by
      rw [List.zipWith_append h.stamps.symm]
      rfl
    have hdelay : ∀ job' ∈ s.planner.jobs ++ [job], job'.delay = 0 := by
      intro job' hjob'
      rcases List.mem_append.mp hjob' with hmem | hmem
      · exact delay_of_isChild hchildren job' hmem
      · rw [List.mem_singleton.mp hmem]
        exact hcont.delay
    have hinsert := @insertPlanStrict_ok _ _ env T m hlaw _ hprepared [⟨job, now s.readings⟩]
      (.inr ⟨hne, s.planner.maxInfoHash, _, rfl, hcont⟩)
    rw [← hzip] at hinsert
    obtain ⟨report, hok⟩ := @finishPayload_ok _ s _ env now hlaw _ hfinal rfl
      (by simp [h.stamps]) hdelay hinsert
    refine ⟨report, _, hok, ?_, .inr ⟨hne, job.payload, ?_, hcont.next⟩⟩
    · have hbatchQueue : ¬ processTorrentBatch = processTorrent := by decide
      rw [if_neg (by simp), hzip, hprepared.childHashes_append]
      simp [childHashes, hcont.queue, hbatchQueue]
    · rw [if_neg (by simp), hzip, continuationPayload, hprepared.find?_append]
      simp [hcont.queue]

/-! ## The chain of continuations -/

/-- What the handler does with a payload: its pages, followed by what lies behind the
cursor it leaves to the continuation, are what lay behind the payload's cursor. -/
lemma handlePayload_planned (hlaw : env.Lawful) (hparse : env.parseBatch payload = some m)
    (hbatch : 0 < m.batchSize) (hchunk : 0 < m.chunkSize) (hselects : SelectsFrom env m T)
    (hfuel : (Keyset.after T m.infoHashGreaterThan).length + 2 ≤ fuel) :
    ∃ report jobs cursor, handlePayload env now fuel payload = some (.ok (report, jobs)) ∧
      (childHashes env jobs).flatten ++ Keyset.after T cursor =
        Keyset.after T m.infoHashGreaterThan ∧
      (∀ page ∈ childHashes env jobs, page ≠ [] ∧ page.length ≤ m.batchSize) ∧
      ((Keyset.after T cursor = [] ∧ continuationPayload jobs = none) ∨
        (childHashes env jobs ≠ [] ∧ ∃ next, continuationPayload jobs = some next ∧
          Continues env T m cursor next)) := by
  obtain ⟨s, pages, hloop, hplanned, hstop⟩ :=
    @pageLoop_planned _ fuel _ _ env now T m hlaw hbatch hselects (planned_new m) hfuel
  obtain ⟨report, jobs, hfinish, hpages, hend⟩ :=
    @finishPayload_planned _ s pages payload env now T m hlaw hparse hbatch hchunk hplanned hstop
  subst hpages
  refine ⟨report, jobs, s.planner.maxInfoHash, ?_, hplanned.split, hplanned.sizes, ?_⟩
  · simp [handlePayload, hparse, Nat.ne_of_gt hbatch, Nat.ne_of_gt hchunk, hloop, hfinish]
  · exact hend.imp_left fun ⟨hdone, hnone⟩ => ⟨hplanned.exhausted hdone, hnone⟩

/-- **The chain ends**, and its children are the hashes behind the first cursor. -/
lemma runChain_planned (hlaw : env.Lawful) (clocks : Nat → Nat → Int) (n : Nat) :
    ∀ {payload : String} {m : ProcessTorrentBatchParams Value}, env.parseBatch payload = some m →
      0 < m.batchSize → 0 < m.chunkSize → SelectsFrom env m T →
      (Keyset.after T m.infoHashGreaterThan).length ≤ n → ∀ k,
      ∃ plans, runChain env clocks (n + 3) k payload = some (.ok plans) ∧
        (plans.flatMap (childHashes env)).flatten = Keyset.after T m.infoHashGreaterThan ∧
        ∀ page ∈ plans.flatMap (childHashes env), page ≠ [] ∧ page.length ≤ m.batchSize := by
  -- the induction is on the number of hashes left: a continuation has fewer of them
  induction n using Nat.strongRecOn with
  | ind n ih =>
    intro payload m hparse hbatch hchunk hselects hn k
    obtain ⟨report, jobs, cursor, hhandle, hsplit, hsizes, hend⟩ :=
      @handlePayload_planned _ (n + 2) payload env (clocks k) T m hlaw hparse hbatch hchunk hselects
        (by omega)
    rcases hend with ⟨hempty, hnone⟩ |
      ⟨hne, next, hnext, m', hparse', rfl, hbatch', hchunk', hselects'⟩
    · refine ⟨[jobs], by simp [runChain, hhandle, hnone], ?_, by simpa using hsizes⟩
      rw [hempty, List.append_nil] at hsplit
      simpa using hsplit
    · have hless : (Keyset.after T m'.infoHashGreaterThan).length <
          (Keyset.after T m.infoHashGreaterThan).length := by
        obtain ⟨page, rest, hpages⟩ := List.exists_cons_of_ne_nil hne
        have hpos := List.length_pos_iff.mpr (hsizes page (by simp [hpages])).1
        rw [← hsplit, hpages, List.length_append, List.flatten_cons, List.length_append]
        omega
      obtain ⟨n, rfl⟩ : ∃ n', n = n' + 1 := ⟨n - 1, by omega⟩
      obtain ⟨plans, hchain, hflat, hsizes'⟩ := ih n (by omega) hparse' (by omega) (by omega)
        (hselects' hselects) (by omega) (k + 1)
      have hstep : runChain env clocks (n + 3 + 1) k payload = some (.ok (jobs :: plans)) := by
        rw [runChain, hhandle]
        simp only [hnext, hchain]
      refine ⟨jobs :: plans, hstep, ?_, ?_⟩
      · rw [List.flatMap_cons, List.flatten_append, hflat, hsplit]
      · intro page hpage
        rcases List.mem_append.mp (List.flatMap_cons ▸ hpage) with hmem | hmem
        · exact hsizes page hmem
        · rw [← hbatch']
          exact hsizes' page hmem

/-- **Batch reprocessing enumerates what it selects, once.**  The handler on a payload
and on every continuation comes to an end.  The hash lists of all child jobs together
are the selectable hashes above the payload's cursor, in ascending order, and no list
is empty or longer than the batch size.  Whatever the surroundings do, the handler
never finds its timestamps and jobs to diverge, and a page that breaks the contract
is rejected and leaves the planner as it was. -/
theorem batch_enumerates (hlaw : env.Lawful) {payload : String}
    (hparse : env.parseBatch payload = some m) (hbatch : 0 < m.batchSize)
    (hchunk : 0 < m.chunkSize) (hselects : SelectsFrom env m T) (clocks : Nat → Nat → Int) :
    (∃ fuel plans, runChain env clocks fuel 0 payload = some (.ok plans) ∧
      (plans.flatMap (childHashes env)).flatten =
        (T.filter (m.infoHashGreaterThan < ·)).sort (· ≤ ·) ∧
      ∀ page ∈ plans.flatMap (childHashes env), page ≠ [] ∧ page.length ≤ m.batchSize) ∧
    (∀ (env : BatchEnv Value) (now : Nat → Int) (fuel : Nat) (payload : String),
      handlePayload env now fuel payload ≠ some (.error (.invalidBatchPayload divergedReason))) ∧
    ∀ (env : BatchEnv Value) (p : BatchPlanner Value) (page : List ProtocolId),
      p.finalized = false → page ≠ [] → ¬ p.Accepts page →
      p.addPage env page = (.error .invalidPage, p) := by
  obtain ⟨plans, hchain, hflat, hsizes⟩ :=
    runChain_planned hlaw clocks _ hparse hbatch hchunk hselects (Nat.le_refl _) 0
  exact ⟨⟨_, plans, hchain, hflat, hsizes⟩,
    fun env now fuel payload => handlePayload_ne_diverged env now fuel payload,
    fun env p page hopen hne h => BatchPlanner.addPage_invalid hopen hne h⟩

/-! ## An environment -/

/-- `ProtocolId::to_hex`. -/
def ProtocolId.toHex (id : ProtocolId) : List Char := Hex.encode id.bytes.val

/-- `ProtocolId::from_hex`. -/
def ProtocolId.fromHex (digits : List Char) : Option ProtocolId :=
  ((Hex.decode digits).bind (Bytes.toFixed 20)).map ProtocolId.mk

lemma ProtocolId.fromHex_toHex (id : ProtocolId) : fromHex id.toHex = some id := by
  simp [fromHex, toHex, Hex.decode_encode]

lemma ProtocolId.length_toHex (id : ProtocolId) : id.toHex.length = 40 := by
  rw [toHex, Hex.length_encode, id.bytes.property]

/-- What stands between a head and a tail, where the text has both. -/
def between (head tail text : List Char) : Option (List Char) :=
  let body := (text.drop head.length).take (text.length - (head.length + tail.length))
  if head ++ body ++ tail = text then some body else none

lemma between_append (head body tail : List Char) :
    between head tail (head ++ body ++ tail) = some body := by
  have hbody : ((head ++ body ++ tail).drop head.length).take
      ((head ++ body ++ tail).length - (head.length + tail.length)) = body := by
    have hlength : (head ++ body ++ tail).length - (head.length + tail.length) = body.length := by
      simp only [List.length_append]
      omega
    rw [hlength, List.append_assoc, List.drop_left, List.take_left]
  rw [between, hbody, if_pos rfl]

/-- A hash as an item of a JSON array, with the comma behind it. -/
def hashItem (h : ProtocolId) : List Char := '"' :: h.toHex ++ ['"', ',']

/-- The items between the brackets: no comma behind the last one. -/
def hashItems (hashes : List ProtocolId) : List Char := (hashes.flatMap hashItem).dropLast

def parseHashItems (body : List Char) : Option (List ProtocolId) :=
  if body = [] then some []
  else (Bytes.chunksExact 43 (body ++ [','])).mapM fun item =>
    ProtocolId.fromHex ((item.drop 1).take 40)

lemma length_hashItem (h : ProtocolId) : (hashItem h).length = 43 := by
  simp [hashItem, h.length_toHex]

lemma parse_hashItem (h : ProtocolId) :
    ProtocolId.fromHex (((hashItem h).drop 1).take 40) = some h := by
  have htake : ((hashItem h).drop 1).take 40 = h.toHex := by
    rw [hashItem, List.cons_append, List.drop_one, List.tail_cons, ← h.length_toHex, List.take_left]
  rw [htake, ProtocolId.fromHex_toHex]

lemma hashItems_append_comma {hashes : List ProtocolId} (hne : hashes ≠ []) :
    hashItems hashes ++ [','] = hashes.flatMap hashItem := by
  obtain ⟨init, last, rfl⟩ : ∃ init last, hashes = init ++ [last] :=
    ⟨_, _, (List.dropLast_concat_getLast hne).symm⟩
  have hlast : (init ++ [last]).flatMap hashItem =
      init.flatMap hashItem ++ ('"' :: last.toHex ++ ['"']) ++ [','] := by
    simp [hashItem]
  rw [hashItems, hlast, List.dropLast_concat]

lemma parseHashItems_hashItems (hashes : List ProtocolId) :
    parseHashItems (hashItems hashes) = some hashes := by
  by_cases hne : hashes = []
  · subst hne
    rfl
  · have hitems := hashItems_append_comma hne
    have hbody : hashItems hashes ≠ [] := by
      intro hnil
      have hlength := congrArg List.length hitems
      obtain ⟨h, rest, rfl⟩ := List.exists_cons_of_ne_nil hne
      simp only [hnil, List.flatMap_cons, List.nil_append, List.length_append, length_hashItem,
        List.length_cons, List.length_nil] at hlength
      omega
    rw [parseHashItems, if_neg hbody, hitems,
      Bytes.chunksExact_flatMap (by decide) fun h _ => length_hashItem h]
    clear hne hitems hbody
    induction hashes with
    | nil => rfl
    | cons h rest ih =>
      rw [List.map_cons, List.mapM_cons, parse_hashItem, ih]
      rfl

/-- The selection of the example: two hashes a page, two hashes a chunk, no filters. -/
def pairsAfter (cursor : ProtocolId) : ProcessTorrentBatchParams Unit where
  infoHashGreaterThan := cursor
  updatedBefore := "0001-01-01T00:00:00Z"
  classifyMode := 0
  classifierWorkflow := ""
  classifierFlags := none
  chunkSize := 2
  batchSize := 2
  contentTypes := []
  orphans := false

def childHead : List Char := "\x7b\"InfoHashes\":[".toList

def childTail : List Char := "]\x7d".toList

def batchHead : List Char := "\x7b\"InfoHashGreaterThan\":\"".toList

def batchTail : List Char :=
  "\",\"UpdatedBefore\":\"0001-01-01T00:00:00Z\",\"ChunkSize\":2,\"BatchSize\":2\x7d".toList

lemma length_small (n : UInt8) : (List.replicate 19 0 ++ [n]).length = 20 := rfl

/-- `ProtocolId([0, .., 0, n])`. -/
def ProtocolId.small (n : UInt8) : ProtocolId := ⟨⟨List.replicate 19 0 ++ [n], length_small n⟩⟩

/-- Three torrents. -/
def threeHashes : Finset ProtocolId := {.small 1, .small 2, .small 3}

/-- JSON as `serde_json` writes and reads it for `pairsAfter` and its children, over a database
of three torrents. -/
def threeHashesEnv : BatchEnv Unit where
  asBool _ := none
  childText params := some (String.ofList (childHead ++ hashItems params.infoHashes ++ childTail))
  batchText m := some (String.ofList (batchHead ++ m.infoHashGreaterThan.toHex ++ batchTail))
  parseBatch text :=
    ((between batchHead batchTail text.toList).bind ProtocolId.fromHex).map pairsAfter
  parseChild text :=
    ((between childHead childTail text.toList).bind parseHashItems).map (⟨0, "", none, ·⟩)
  isObject _ := some true
  fingerprint queue payload := queue ++ payload
  checkedAdd t delay := some (t + delay)
  selectPage sel := .ok ((Keyset.after threeHashes sel.afterExclusive).take sel.limit)
  enqueuePlan plan := .ok (plan.children.length + if plan.continuation.isSome then 1 else 0)

lemma threeHashesEnv_parseBatch (cursor : ProtocolId) :
    threeHashesEnv.parseBatch (String.ofList (batchHead ++ cursor.toHex ++ batchTail)) =
      some (pairsAfter cursor) := by
  simp only [threeHashesEnv, String.toList_ofList, between_append, Option.bind_some,
    ProtocolId.fromHex_toHex, Option.map_some]

lemma threeHashesEnv_lawful : threeHashesEnv.Lawful where
  childText params := by
    refine ⟨_, rfl, rfl, ⟨0, "", none, params.infoHashes⟩, ?_, rfl⟩
    simp only [threeHashesEnv, String.toList_ofList, between_append, Option.bind_some,
      parseHashItems_hashItems, Option.map_some]
  batchText {payload m} hparse cursor := by
    obtain ⟨start, _, rfl⟩ := Option.map_eq_some_iff.mp hparse
    exact ⟨_, rfl, rfl, pairsAfter cursor, threeHashesEnv_parseBatch cursor, rfl, rfl, rfl, rfl,
      rfl, rfl⟩
  checkedAdd t := by simp [threeHashesEnv]
  enqueuePlan _ _ := rfl

/-- Three hashes behind the zero cursor, two a page: the first payload and its continuation
together plan them all. -/
theorem batch_enumerates_threeHashes :
    ∃ payload, threeHashesEnv.parseBatch payload = some (pairsAfter (.small 0)) ∧
      ∃ fuel plans, runChain threeHashesEnv (fun _ _ => 0) fuel 0 payload = some (.ok plans) ∧
        (plans.flatMap (childHashes threeHashesEnv)).flatten = [.small 1, .small 2, .small 3] := by
  have hparse := threeHashesEnv_parseBatch (.small 0)
  refine ⟨_, hparse, ?_⟩
  obtain ⟨⟨fuel, plans, hrun, hflat, _⟩, _⟩ := @batch_enumerates Unit threeHashesEnv
    threeHashes (pairsAfter (.small 0)) threeHashesEnv_lawful _ hparse (by decide) (by decide)
    (fun _ => rfl) fun _ _ => 0
  refine ⟨fuel, plans, hrun, hflat.trans ?_⟩
  have hsorted : [ProtocolId.small 1, .small 2, .small 3].Pairwise (· < ·) := by decide
  have hbehind : ∀ x ∈ [ProtocolId.small 1, .small 2, .small 3], ProtocolId.small 0 < x := by
    decide
  refine (Keyset.eq_after hsorted fun x => ?_).symm
  constructor
  · intro hx
    exact ⟨by simpa [threeHashes] using hx, hbehind x hx⟩
  · rintro ⟨hx, _⟩
    simpa [threeHashes] using hx

end Bitmagnet.Queue
