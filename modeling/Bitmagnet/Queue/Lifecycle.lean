import Bitmagnet.Queue.Claim

/-!
# The life of a queue job

A job that is handled is settled: it is processed, or it failed for good, or it is
scheduled again with one retry more.  `QueueJobRow.budget` counts the handlings that
are left, one more for a pending job than for one to be retried, since the first
handling is no retry.  Every settlement after a handling spends one of it
(`settle_budget`), so a whole run spends at most what was there at the start
(`run_budget`), and a job without budget is settled for good.

A claim that finds the deadline exceeded runs no handler and counts no retry.  It
spends nothing: a job with a retry left is scheduled again by every such claim, and
a deadline does not come back, so it is never settled for good
(`expired_stays_active`).  The bound is on the handlings.
-/

namespace Bitmagnet.Queue

/-! ## Rows of the table -/

/-- The row with the given key. -/
def QueueTable.job (t : QueueTable) (id : String) : Option QueueJobRow :=
  t.rows.find? fun j => j.id = id

variable {j row : QueueJobRow} {t t' : QueueTable} {id : String} {c : Claim} {job : DequeuedJob}

lemma find?_id_of_mem {rows : List QueueJobRow} (hnodup : (rows.map QueueJobRow.id).Nodup)
    (hj : j ∈ rows) : (rows.find? fun k => k.id = j.id) = some j := by
  induction rows with
  | nil => cases hj
  | cons k rows ih =>
    rw [List.map_cons, List.nodup_cons] at hnodup
    rcases List.mem_cons.mp hj with rfl | hmem
    · simp
    · have hne : k.id ≠ j.id := fun heq => hnodup.1 (heq ▸ List.mem_map_of_mem hmem)
      rw [List.find?_cons_of_neg (by simpa using hne), ih hnodup.2 hmem]

lemma QueueTable.job_of_mem (hj : j ∈ t.rows) : t.job j.id = some j :=
  find?_id_of_mem t.nodup hj

lemma QueueTable.job_update (t : QueueTable) {i : String} {f : QueueJobRow → QueueJobRow}
    (hf : ∀ j, (f j).id = j.id) :
    (t.update id f hf).job i = (t.job i).map fun j => if i = id then f j else j := by
  change (t.rows.map fun j => if j.id = id then f j else j).find? _ = (t.rows.find? _).map _
  induction t.rows with
  | nil => rfl
  | cons j rows ih =>
    have hid : (if j.id = id then f j else j).id = j.id := by
      split
      · exact hf j
      · rfl
    simp only [List.map_cons, List.find?_cons, hid]
    by_cases hi : j.id = i
    · simp [hi]
    · simpa [hi] using ih

lemma mem_of_firstInOrder {rows : List QueueJobRow} (h : firstInOrder rows = some j) :
    j ∈ rows := by
  induction rows generalizing j with
  | nil => cases h
  | cons k rows ih =>
    simp only [firstInOrder] at h
    split at h
    · cases h
      simp
    · rename_i k' hk'
      split at h
      · cases h
        exact List.mem_cons_of_mem _ (ih hk')
      · cases h
        simp

lemma QueueTable.claim_eq_some {locked : List String} {selects : QueueJobRow → Bool}
    (h : t.claim locked selects = some row) : row ∈ t.rows ∧ selects row = true := by
  have hmem := List.mem_filter.mp (mem_of_firstInOrder h)
  exact ⟨hmem.1, (Bool.and_eq_true_iff.mp hmem.2).1⟩

variable {pg : Postgres}

/-- Every claim selects active rows only. -/
lemma Claim.isActive_of_selects (h : c.selects pg j = true) : j.status.isActive = true := by
  cases c <;> simp only [selects, QueueJobRow.isDue, Bool.and_eq_true] at h <;> tauto

/-! ## What one claim does -/

/-- The job a handled or expired claim settles. -/
def ClaimOutcome.settledJob : ClaimOutcome → Option DequeuedJob
  | .settled (.processed job) _ | .settled (.retryScheduled job _) _ | .settled (.failed job _) _ =>
    some job
  | .settled .empty _ | .abstained _ _ | .error _ => none

/-- The claim ran the handler of job `id` and settled it. -/
def ClaimOutcome.handled (id : String) (o : ClaimOutcome) : Bool :=
  match o with
  | .settled _ true => false
  | _ => o.settledJob.any fun job => job.id = id

/-- The job as it is when a claim settles it. -/
def DequeuedJob.claimed (job : DequeuedJob) (deadlineExceeded : Bool) : DequeuedJob :=
  if deadlineExceeded then job else job.started

/-- A committed settlement of a claimed row. -/
structure Settles (pg : Postgres) (t : QueueTable) (c : Claim) (row : QueueJobRow)
    (job : DequeuedJob) (handlerError : Option String) (exceeded : Bool) : Prop where
  claim : t.claim c.around.locked (c.selects pg) = some row
  dequeue : row.dequeue = .ok job
  deadline : row.deadlineExceeded c.around.claimedAt = exceeded
  expired : exceeded = true → handlerError = some deadlineError

lemma Claim.settle_eq_ok {s : Settlement} (h : c.settle pg t id s = .ok t') :
    t' = t.update id (s.set c.around.settledAt) (s.id_set c.around.settledAt) := by
  have hgeneric : ∀ {now : Int}, t.settleGeneric pg now id s = .ok t' →
      t' = t.update id (s.set now) (s.id_set now) := by
    intro now h
    unfold QueueTable.settleGeneric at h
    split at h <;> cases h
    rfl
  cases c with
  | consumeOne queue handler around =>
    simp only [settle, QueueTable.settleGuarded] at h
    split at h
    · split at h
      · exact hgeneric h
      · cases h
    · exact hgeneric h
  | consumeAdmitted admission excludedIds handler around => exact hgeneric h

lemma Claim.finish_cases (c : Claim) (t : QueueTable) (job : DequeuedJob)
    (handlerError : Option String) (exceeded : Bool) :
    (∃ e, c.finish pg t job handlerError exceeded = (.error e, t)) ∨
    c.finish pg t job handlerError exceeded =
      (.settled (settlementOf job handlerError c.around.jitter).2 exceeded,
        t.update job.id ((settlementOf job handlerError c.around.jitter).1.set c.around.settledAt)
          (Settlement.id_set _ _)) := by
  simp only [finish]
  split
  · exact .inl ⟨_, rfl⟩
  · rename_i t' hok
    split
    · exact .inl ⟨_, rfl⟩
    · rw [settle_eq_ok hok]
      exact .inr rfl

lemma toU32_eq_ok {field : String} {value : Int} {n : Nat} (h : toU32 field value = .ok n) :
    value = n := by
  unfold toU32 at h
  split at h
  · cases h
    omega
  · cases h

/-- What the handler gets of the row. -/
lemma QueueJobRow.dequeue_eq_ok (h : row.dequeue = .ok job) :
    job.id = row.id ∧ job.originalStatus = row.status ∧ row.retries = job.retries ∧
      row.maxRetries = job.maxRetries := by
  unfold dequeue at h
  cases hretries : toU32 "retries" row.retries with
  | error e => simp [hretries, bind, Except.bind] at h
  | ok retries =>
    cases hmax : toU32 "max_retries" row.maxRetries with
    | error e => simp [hretries, hmax, bind, Except.bind] at h
    | ok maxRetries =>
      simp only [hretries, hmax, bind, Except.bind, pure, Except.pure, Except.ok.injEq] at h
      subst h
      exact ⟨rfl, rfl, toU32_eq_ok hretries, toU32_eq_ok hmax⟩

@[simp] lemma DequeuedJob.id_started (job : DequeuedJob) : job.started.id = job.id := by
  unfold started
  split <;> rfl

/-- **What a claim can do**: leave the table as it was, or settle the row it
claimed. -/
lemma consume_cases (t : QueueTable) (c : Claim) :
    ((consume pg t c).1.settledJob = none ∧ (consume pg t c).2 = t) ∨
    ∃ row job handlerError exceeded, Settles pg t c row job handlerError exceeded ∧
      consume pg t c =
        (.settled (settlementOf (job.claimed exceeded) handlerError c.around.jitter).2 exceeded,
          t.update row.id
            ((settlementOf (job.claimed exceeded) handlerError c.around.jitter).1.set
              c.around.settledAt) (Settlement.id_set _ _)) := by
  cases hclaim : t.claim c.around.locked (c.selects pg) with
  | none => exact .inl (by simp [consume, hclaim, ClaimOutcome.settledJob])
  | some row =>
  cases hdequeue : row.dequeue with
  | error e => exact .inl (by simp [consume, hclaim, hdequeue, ClaimOutcome.settledJob])
  | ok job =>
  have hid : job.id = row.id := (QueueJobRow.dequeue_eq_ok hdequeue).1
  -- the claim gives the job back or comes to the settlement
  have hend : ((consume pg t c).1.settledJob = none ∧ (consume pg t c).2 = t) ∨
      ∃ handlerError exceeded, row.deadlineExceeded c.around.claimedAt = exceeded ∧
        (exceeded = true → handlerError = some deadlineError) ∧
        consume pg t c = c.finish pg t (job.claimed exceeded) handlerError exceeded := by
    by_cases hdeadline : row.deadlineExceeded c.around.claimedAt = true
    · refine .inr ⟨some deadlineError, true, hdeadline, fun _ => rfl, ?_⟩
      simp [consume, hclaim, hdequeue, hdeadline, DequeuedJob.claimed]
    · have hdeadline := Bool.eq_false_iff.mpr hdeadline
      cases hverdict : c.verdict job.started with
      | complete =>
        refine .inr ⟨none, false, hdeadline, by simp, ?_⟩
        simp [consume, hclaim, hdequeue, hdeadline, hverdict, DequeuedJob.claimed]
      | fail error =>
        refine .inr ⟨some error, false, hdeadline, by simp, ?_⟩
        simp [consume, hclaim, hdequeue, hdeadline, hverdict, DequeuedJob.claimed]
      | abstain reason =>
        refine .inl ?_
        simp [consume, hclaim, hdequeue, hdeadline, hverdict, ClaimOutcome.settledJob]
  rcases hend with hleft | ⟨handlerError, exceeded, hdeadline, hexpired, hconsume⟩
  · exact .inl hleft
  have hjob : (job.claimed exceeded).id = row.id := by
    unfold DequeuedJob.claimed
    split <;> simp [hid]
  rcases c.finish_cases t (job.claimed exceeded) handlerError exceeded with ⟨e, herror⟩ | hok
  · rw [hconsume, herror]
    exact .inl ⟨rfl, rfl⟩
  · refine .inr ⟨row, job, handlerError, exceeded, ⟨hclaim, hdequeue, hdeadline, hexpired⟩, ?_⟩
    rw [hconsume, hok]
    simp only [hjob]

/-- An abstaining claim leaves the table as it was. -/
lemma snd_consume_of_abstained {reason : String}
    (h : (consume pg t c).1 = .abstained job reason) : (consume pg t c).2 = t := by
  rcases consume_cases t c with ⟨-, ht⟩ | ⟨row, job', handlerError, exceeded, -, heq⟩
  · exact ht
  · rw [heq] at h
    cases h

/-! ## The budget of a job -/

/-- The row's counters fit its columns, and a job to be retried has a retry left.
Every enqueued job is pending without retries, and settling keeps this. -/
structure QueueJobRow.WellFormed (j : QueueJobRow) : Prop where
  retries_nonneg : 0 ≤ j.retries
  retries_le : j.retries ≤ j.maxRetries
  maxRetries_lt : j.maxRetries < 2 ^ 31
  retry_left : j.status = .retry → j.retries < j.maxRetries

/-- The handlings the job has left. -/
def QueueJobRow.budget (j : QueueJobRow) : Nat :=
  match j.status with
  | .pending => (j.maxRetries - j.retries).toNat + 1
  | .retry => (j.maxRetries - j.retries).toNat
  | .processed | .failed => 0

lemma QueueJobRow.budget_le (h : j.WellFormed) : (j.budget : Int) ≤ j.maxRetries + 1 := by
  have := h.retries_nonneg
  have := h.retries_le
  unfold budget
  split <;> omega

lemma QueueJobRow.not_active_of_budget_eq_zero (h : j.WellFormed) (hbudget : j.budget = 0) :
    j.status.isActive = false := by
  unfold budget at hbudget
  split at hbudget
  · omega
  · rename_i hstatus
    have := h.retry_left hstatus
    omega
  · rename_i hstatus
    rw [hstatus]
    rfl
  · rename_i hstatus
    rw [hstatus]
    rfl

/-- What happens to a row in the course of `handled` handlings. -/
structure QueueJobRow.Advances (j j' : QueueJobRow) (handled : Nat) : Prop where
  wellFormed : j'.WellFormed
  maxRetries : j'.maxRetries = j.maxRetries
  retries : j.retries ≤ j'.retries
  budget : j'.budget + handled ≤ j.budget
  terminal : j.status.isActive = false → j' = j

lemma QueueJobRow.Advances.refl (h : j.WellFormed) : j.Advances j 0 :=
  ⟨h, rfl, Int.le_refl _, Nat.le_refl _, fun _ => rfl⟩

lemma QueueJobRow.Advances.trans {j' j'' : QueueJobRow} {n n' : Nat} (h : j.Advances j' n)
    (h' : j'.Advances j'' n') : j.Advances j'' (n + n') where
  wellFormed := h'.wellFormed
  maxRetries := h'.maxRetries.trans h.maxRetries
  retries := Int.le_trans h.retries h'.retries
  budget := by
    have := h.budget
    have := h'.budget
    omega
  terminal hstatus := by
    have heq := h.terminal hstatus
    subst heq
    exact h'.terminal hstatus

/-- **One settlement.**  The row stays well-formed, its retries do not decrease, and
a handling is paid for. -/
lemma settle_budget (hwf : row.WellFormed) (hactive : row.status.isActive = true)
    (hdequeue : row.dequeue = .ok job) (handlerError : Option String) (exceeded : Bool)
    (hexpired : exceeded = true → handlerError = some deadlineError) (jitter : Nat) (now : Int) :
    row.Advances ((settlementOf (job.claimed exceeded) handlerError jitter).1.set now row)
      (if exceeded then 0 else 1) := by
  obtain ⟨-, hstatus, hretries, hmax⟩ := QueueJobRow.dequeue_eq_ok hdequeue
  have hnonneg := hwf.retries_nonneg
  have hle := hwf.retries_le
  have hlt := hwf.maxRetries_lt
  have hleft := hwf.retry_left
  -- what the counter of the settled job is
  have hclaimed : (job.claimed exceeded).maxRetries = job.maxRetries ∧
      (job.claimed exceeded).retries =
        if row.status = .retry ∧ exceeded = false then job.retries + 1 else job.retries := by
    have hsat : row.status = .retry → min (job.retries + 1) (2 ^ 32 - 1) = job.retries + 1 := by
      intro h
      have := hleft h
      omega
    cases exceeded
    · by_cases h : row.status = .retry
      · have hstarted : job.started = { job with retries := job.retries + 1 } := by
          rw [DequeuedJob.started, if_pos (hstatus.trans h), hsat h]
        simp [DequeuedJob.claimed, hstarted, h]
      · simp [DequeuedJob.claimed, DequeuedJob.started, hstatus, h]
    · simp [DequeuedJob.claimed]
  generalize job.claimed exceeded = claimed at hclaimed ⊢
  obtain ⟨hclaimedMax, hclaimedRetries⟩ := hclaimed
  -- an active row has a budget, and after one handling its counter is within it
  have hbudget : row.budget = (row.maxRetries - row.retries).toNat +
      (if row.status = .retry then 0 else 1) := by
    cases hrow : row.status <;> simp_all [QueueJobRow.budget, QueueJobStatus.isActive]
  have hcount : (claimed.retries : Int) ≤ row.maxRetries ∧ row.retries ≤ claimed.retries ∧
      (row.maxRetries - claimed.retries).toNat + (if exceeded then 0 else 1) ≤ row.budget := by
    rw [hbudget, hclaimedRetries]
    by_cases hrow : row.status = .retry
    · have := hleft hrow
      cases exceeded <;> simp [hrow] <;> omega
    · cases exceeded <;> simp [hrow] <;> omega
  obtain ⟨hcountLe, hmono, hspent⟩ := hcount
  have hterminal : 0 + (if exceeded then 0 else 1) ≤ row.budget := by omega
  have hnot : ∀ {row' : QueueJobRow}, row.status.isActive = false → row' = row := fun h => by
    rw [hactive] at h
    cases h
  have hcountNonneg : (0 : Int) ≤ claimed.retries := Int.natCast_nonneg _
  cases handlerError with
  | none => exact ⟨⟨hcountNonneg, hcountLe, hlt, nofun⟩, rfl, hmono, hterminal, hnot⟩
  | some error =>
    by_cases hretry : claimed.retries < claimed.maxRetries
    · have hleft' : (claimed.retries : Int) < row.maxRetries := by omega
      simp only [settlementOf, if_pos hretry]
      exact ⟨⟨hcountNonneg, hcountLe, hlt, fun _ => hleft'⟩, rfl, hmono, hspent, hnot⟩
    · simp only [settlementOf, if_neg hretry]
      exact ⟨⟨hcountNonneg, hcountLe, hlt, nofun⟩, rfl, hmono, hterminal, hnot⟩

/-! ## Runs -/

lemma settledJob_settlementOf (job : DequeuedJob) (handlerError : Option String) (jitter : Nat)
    (exceeded : Bool) :
    (ClaimOutcome.settled (settlementOf job handlerError jitter).2 exceeded).settledJob =
      some job := by
  cases handlerError with
  | none => rfl
  | some error =>
    simp only [settlementOf]
    split <;> rfl

lemma handled_of_settledJob_eq_none {o : ClaimOutcome} (h : o.settledJob = none) (id : String) :
    o.handled id = false := by
  unfold ClaimOutcome.handled
  split
  · rfl
  · simp [h]

/-- A row that is not active is not claimed, and the row that is claimed under a key
is the key's row. -/
lemma eq_of_claim (hj : t.job id = some j)
    (hclaim : t.claim c.around.locked (c.selects pg) = some row) (hid : row.id = id) :
    row = j ∧ j.status.isActive = true := by
  obtain ⟨hmem, hselects⟩ := QueueTable.claim_eq_some hclaim
  have hrow := QueueTable.job_of_mem hmem
  rw [hid, hj] at hrow
  cases hrow
  exact ⟨rfl, Claim.isActive_of_selects hselects⟩

/-- **One claim, seen from one row.** -/
lemma consume_advances (hj : t.job id = some j) (hwf : j.WellFormed) (c : Claim) :
    ∃ j', (consume pg t c).2.job id = some j' ∧
      j.Advances j' (if (consume pg t c).1.handled id then 1 else 0) := by
  rcases @consume_cases pg t c with ⟨hnone, ht⟩ | ⟨row, job, handlerError, exceeded, hsettles, heq⟩
  · refine ⟨j, by rw [ht, hj], ?_⟩
    rw [handled_of_settledJob_eq_none hnone]
    exact .refl hwf
  rw [heq]
  have hjob : (job.claimed exceeded).id = row.id := by
    rw [← (QueueJobRow.dequeue_eq_ok hsettles.dequeue).1]
    unfold DequeuedJob.claimed
    split <;> simp
  have hhandled : (ClaimOutcome.settled
      (settlementOf (job.claimed exceeded) handlerError c.around.jitter).2 exceeded).handled id =
        (!exceeded && decide (row.id = id)) := by
    cases exceeded with
    | true => rfl
    | false => simp [ClaimOutcome.handled, settledJob_settlementOf, hjob]
  simp only [QueueTable.job_update, hj, hhandled, Option.map_some, Option.some.injEq,
    exists_eq_left']
  by_cases hid : row.id = id
  · obtain ⟨rfl, hactive⟩ := eq_of_claim hj hsettles.claim hid
    have hadvances := settle_budget hwf hactive hsettles.dequeue handlerError exceeded
      hsettles.expired c.around.jitter c.around.settledAt
    cases exceeded <;> simpa [hid] using hadvances
  · have hne : ¬ id = row.id := fun h => hid h.symm
    simp only [hid, hne, if_false, decide_false, Bool.and_false]
    exact .refl hwf

/-- **A run of claims, seen from one row.** -/
lemma run_advances {claims : List Claim} {outcomes : List ClaimOutcome} (hj : t.job id = some j)
    (hwf : j.WellFormed) (hrun : runClaims pg t claims = some (outcomes, t')) :
    ∃ j', t'.job id = some j' ∧ j.Advances j' (outcomes.countP (ClaimOutcome.handled id)) := by
  induction claims generalizing t j outcomes with
  | nil =>
    cases hrun
    exact ⟨j, hj, .refl hwf⟩
  | cons c claims ih =>
    obtain ⟨o, next, rest, hstep, hrest, rfl⟩ := Machine.run_cons_eq_some hrun
    have hstep : consume pg t c = (o, next) := Option.some.inj hstep
    obtain ⟨j₁, hj₁, hadv₁⟩ := @consume_advances j t id pg hj hwf c
    rw [hstep] at hj₁ hadv₁
    obtain ⟨j₂, hj₂, hadv₂⟩ := ih hj₁ hadv₁.wellFormed hrest
    refine ⟨j₂, hj₂, ?_⟩
    rw [List.countP_cons, Nat.add_comm]
    exact hadv₁.trans hadv₂

/-- **The life of a queue job.**  In every run of claims by either consumer, with
every handler, clock and refused commit, a row keeps its key and its limit, its
retries do not decrease and stay within the limit, and it is processed or failed
after `maxRetries + 1` handlings.  A row that is processed or failed is claimed by
no later claim and stays as it is, and a claim that abstains changes nothing. -/
theorem job_lifecycle {claims : List Claim} {outcomes : List ClaimOutcome} {t t' : QueueTable}
    {id : String} {j : QueueJobRow} (hj : t.job id = some j) (hwf : j.WellFormed)
    (hrun : runClaims pg t claims = some (outcomes, t')) :
    ∃ j', t'.job id = some j' ∧ j'.maxRetries = j.maxRetries ∧
      j.retries ≤ j'.retries ∧ j'.retries ≤ j'.maxRetries ∧
      (j.maxRetries + 1 ≤ outcomes.countP (ClaimOutcome.handled id) →
        j'.status = .processed ∨ j'.status = .failed) ∧
      (j'.status = .processed ∨ j'.status = .failed → ∀ c : Claim,
        (t'.claim c.around.locked (c.selects pg)).map QueueJobRow.id ≠ some id ∧
        (consume pg t' c).2.job id = some j') ∧
      ∀ (c : Claim) (job : DequeuedJob) (reason : String),
        (consume pg t' c).1 = .abstained job reason → (consume pg t' c).2 = t' := by
  obtain ⟨j', hj', hadv⟩ := run_advances hj hwf hrun
  have hactive : j'.status.isActive = false ↔ j'.status = .processed ∨ j'.status = .failed := by
    cases j'.status <;> simp [QueueJobStatus.isActive]
  refine ⟨j', hj', hadv.maxRetries, hadv.retries, hadv.wellFormed.retries_le, fun hcount => ?_,
    fun hstatus c => ⟨fun hmap => ?_, ?_⟩, fun c job reason => snd_consume_of_abstained⟩
  · have hbudget := hadv.budget
    have hlimit := QueueJobRow.budget_le hwf
    exact hactive.mp (QueueJobRow.not_active_of_budget_eq_zero hadv.wellFormed (by omega))
  · obtain ⟨row, hclaim, hid⟩ := Option.map_eq_some_iff.mp hmap
    have := (eq_of_claim hj' hclaim hid).2
    rw [hactive.mpr hstatus] at this
    cases this
  · obtain ⟨j'', hj'', hadv'⟩ := @consume_advances j' t' id pg hj' hadv.wellFormed c
    rw [hj'', hadv'.terminal (hactive.mpr hstatus)]

/-- A first handling that fails and a retry that succeeds. -/
def failThenComplete : List Claim :=
  [.consumeOne "process_torrent" (fun _ => .returned (.error "no")) ⟨[], 1, 2, 0, false⟩,
    .consumeAdmitted .flagsOff [] (fun _ => .returned .complete) ⟨[], 100, 101, 0, false⟩]

/-- A pending job that may be retried once. -/
def pendingJob (deadline : Option Int) : QueueJobRow where
  id := "a"
  fingerprint := "f"
  queue := "process_torrent"
  status := .pending
  payload := "null"
  retries := 0
  maxRetries := 1
  priority := 0
  runAfter := 0
  ranAt := none
  error := none
  deadline := deadline

/-- The table with that job. -/
def oneJob (deadline : Option Int) : QueueTable := ⟨[pendingJob deadline], by simp⟩

/-- A database that admits every payload and represents every time. -/
def lenient : Postgres := ⟨fun _ _ => true, fun _ => true⟩

theorem job_lifecycle_failThenComplete :
    ∃ outcomes t', runClaims lenient (oneJob none) failThenComplete = some (outcomes, t') ∧
      outcomes.countP (ClaimOutcome.handled "a") = 2 ∧
      ∃ j', t'.job "a" = some j' ∧ j'.retries ≤ j'.maxRetries ∧
        (j'.status = .processed ∨ j'.status = .failed) := by
  have hrun : runClaims lenient (oneJob none) failThenComplete =
      some ([.settled (.retryScheduled _ _) false, .settled (.processed _) false], _) := rfl
  have hjob : (oneJob none).job "a" = some (pendingJob none) := rfl
  obtain ⟨j', hj', -, -, hle, hsettled, -⟩ := job_lifecycle hjob
    ⟨by decide, by decide, by decide, by decide⟩ hrun
  exact ⟨_, _, hrun, rfl, j', hj', hle, hsettled (by decide)⟩

/-! ## Expired jobs -/

/-- **A deadline that has passed is never settled.**  As long as the job has a retry
left, every claim after its deadline schedules it again and counts nothing. -/
theorem expired_stays_active {claims : List Claim} {outcomes : List ClaimOutcome} {deadline : Int}
    (hj : t.job id = some j) (hactive : j.status.isActive = true) (hleft : j.retries < j.maxRetries)
    (hdeadline : j.deadline = some deadline) (hlate : ∀ c ∈ claims, deadline < c.around.claimedAt)
    (hrun : runClaims pg t claims = some (outcomes, t')) :
    ∃ j', t'.job id = some j' ∧ j'.status.isActive = true ∧ j'.retries = j.retries := by
  induction claims generalizing t j outcomes with
  | nil =>
    cases hrun
    exact ⟨j, hj, hactive, rfl⟩
  | cons c claims ih =>
    obtain ⟨o, next, rest, hstep, hrest, rfl⟩ := Machine.run_cons_eq_some hrun
    have hstep : consume pg t c = (o, next) := Option.some.inj hstep
    have hrestLate : ∀ c ∈ claims, deadline < c.around.claimedAt := fun c' hc' =>
      hlate c' (List.mem_cons_of_mem _ hc')
    rcases @consume_cases pg t c with ⟨-, ht⟩ | ⟨row, job, handlerError, exceeded, hsettles, heq⟩
    · rw [hstep] at ht
      cases ht
      exact ih hj hactive hleft hdeadline hrestLate hrest
    rw [hstep, Prod.mk.injEq] at heq
    have hnext : next.job id = some (if id = row.id then
        (settlementOf (job.claimed exceeded) handlerError c.around.jitter).1.set
          c.around.settledAt j else j) := by
      rw [heq.2, QueueTable.job_update, hj]
      rfl
    by_cases hid : row.id = id
    · -- the claimed row is this one, so the claim found it expired
      obtain ⟨rfl, -⟩ := eq_of_claim hj hsettles.claim hid
      obtain ⟨-, -, hretries, hmax⟩ := QueueJobRow.dequeue_eq_ok hsettles.dequeue
      have hexceeded : exceeded = true := by
        rw [← hsettles.deadline, QueueJobRow.deadlineExceeded, hdeadline]
        simpa using hlate c List.mem_cons_self
      have herror := hsettles.expired hexceeded
      subst hexceeded herror
      have hlt : job.retries < job.maxRetries := by omega
      rw [if_pos hid.symm] at hnext
      simp only [DequeuedJob.claimed, if_true, settlementOf, if_pos hlt, Settlement.set] at hnext
      obtain ⟨j', hj', hactive', hretries'⟩ := ih hnext rfl (by simpa [← hretries] using hleft)
        hdeadline hrestLate hrest
      exact ⟨j', hj', hactive', hretries'.trans hretries.symm⟩
    · rw [if_neg fun h => hid h.symm] at hnext
      exact ih hnext hactive hleft hdeadline hrestLate hrest

theorem expired_stays_active_oneJob :
    ∃ outcomes t', runClaims lenient (oneJob (some 0)) failThenComplete = some (outcomes, t') ∧
      ∃ j', t'.job "a" = some j' ∧ j'.status.isActive = true ∧ j'.retries = 0 :=
  have hlate : ∀ c ∈ failThenComplete, 0 < c.around.claimedAt := by decide
  ⟨_, _, rfl, expired_stays_active (j := pendingJob (some 0)) rfl rfl (by decide) rfl hlate rfl⟩

/-- Three claims of a job whose deadline has passed and that may be retried once.
None of them abstains, and the job is still to be retried. -/
theorem expired_job_outlives_its_claims :
    ∃ outcomes t', runClaims lenient (oneJob (some 0))
        [.consumeOne "process_torrent" (fun _ => .returned (.ok ())) ⟨[], 100, 100, 0, false⟩,
          .consumeOne "process_torrent" (fun _ => .returned (.ok ())) ⟨[], 200, 200, 0, false⟩,
          .consumeOne "process_torrent" (fun _ => .returned (.ok ())) ⟨[], 300, 300, 0, false⟩] =
        some (outcomes, t') ∧
      (outcomes.all fun o => o.settledJob.any fun job => job.id = "a") = true ∧
      outcomes.length = 1 + 2 ∧
      ((t'.job "a").map fun j => (j.status, j.retries, j.maxRetries)) = some (.retry, 0, 1) :=
  ⟨_, _, rfl, by decide, rfl, by decide⟩

end Bitmagnet.Queue
