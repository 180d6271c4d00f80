import ProductionRag.Basis.System
import ProductionRag.Api.Ingest

/-!
# The job queue

`ingestion_jobs` and the workers that hold its jobs.  Claiming a job and finishing it
are one transaction each; between the two a worker runs its handler for as long as it
takes, or dies.  A claim takes the oldest runnable job that no other transaction has
locked; which one that is when several are equally old is up to the database, so the
claim names it and is refused when the query could not return it.
-/

set_option autoImplicit false

namespace ProductionRag

open Basis

inductive JobStatus where
  | queued
  | running
  | completed
  | failed
  deriving DecidableEq, Repr

structure IngestionJob where
  tenantId : String
  status : JobStatus := .queued
  payload : JobPayload
  attempts : Nat := 0
  maxAttempts : Nat := 3
  error : Option String := none
  result : Option JobResult := none
  runAfter : Time
  lockedAt : Option Time := none
  createdAt : Time
  updatedAt : Time
  deriving DecidableEq

/-- `status in {"completed", "failed"}` -/
def JobStatus.done (status : JobStatus) : Bool := status == .completed || status == .failed

abbrev IngestionJobs := Table String IngestionJob

/-- `interval '10 minutes'` -/
def lease : Nat := 600 * microsecondsPerSecond

namespace IngestionJob

/-- The `WHERE` clause of `claim_ingestion_job`. -/
def claimable (now : Time) (job : IngestionJob) : Bool :=
  (job.status == .queued && decide (job.runAfter ≤ now)) ||
    (job.status == .running && job.lockedAt.any fun lockedAt => decide (lockedAt + lease < now))

/-- `ORDER BY run_after, created_at` -/
def before (left right : IngestionJob) : Bool :=
  decide (left.runAfter < right.runAfter ∨
    left.runAfter = right.runAfter ∧ left.createdAt < right.createdAt)

/-- `SET status = 'running', attempts = job.attempts + 1, locked_at = now()` -/
def claimed (now : Time) (job : IngestionJob) : IngestionJob :=
  { job with
    status := .running, attempts := job.attempts + 1, lockedAt := some now, updatedAt := now }

/-- What `get` reports of a job. -/
def verdict (job : IngestionJob) : JobStatus × Option String × Option JobResult :=
  (job.status, job.error, job.result)

end IngestionJob

/-- A claimed job in the hands of a worker; `claimedAt` is when its lease began. -/
structure ClaimedJob where
  jobId : String
  tenantId : String
  payload : JobPayload
  attempts : Nat
  maxAttempts : Nat
  claimedAt : Time
  deriving DecidableEq

/-- How the handler ended. -/
inductive Outcome where
  | success (result : JobResult)
  | inputError (message : String)
  | otherError
  deriving DecidableEq

/-- The arguments of `_finish`; `retryIn` in seconds. -/
structure Finish where
  status : JobStatus
  errorText : Option String := none
  result : Option JobResult := none
  retryIn : Nat := 0
  deriving DecidableEq

/-- `run_once` after the handler. -/
def ClaimedJob.finish (claim : ClaimedJob) : Outcome → Finish
  | .success result => { status := .completed, result }
  | .inputError message => { status := .failed, errorText := message }
  | .otherError =>
    if claim.attempts < claim.maxAttempts then
      { status := .queued, errorText := "retrying after an internal error",
        retryIn := 2 ^ claim.attempts }
    else { status := .failed, errorText := "internal error during ingestion" }

/-- The row `_finish` leaves. -/
def IngestionJob.finished (now : Time) (finish : Finish) (job : IngestionJob) : IngestionJob :=
  { job with
    status := finish.status, error := finish.errorText, result := finish.result,
    lockedAt := none, runAfter := now + finish.retryIn * microsecondsPerSecond, updatedAt := now,
    payload := if finish.status.done then job.payload.withoutContent
      else job.payload }

namespace IngestionJobs

def submit (jobs : IngestionJobs) (now : Time) (uuid4 tenantId : String)
    (payload : JobPayload) : Except PyError IngestionJobs := do
  setTenant tenantId
  if strip tenantId ≠ tenantId then
    .error (.databaseError "new row violates row-level security policy")
  else if (jobs.find? uuid4).isSome then
    .error (.databaseError "duplicate key value violates unique constraint")
  else
    .ok (jobs.set uuid4
      { tenantId, payload, runAfter := now, createdAt := now, updatedAt := now })

/-- The query of `claim_ingestion_job` may return the job: it is claimable, not locked by
another transaction, and none that is comes before it. -/
def mayReturn (jobs : IngestionJobs) (now : Time) (locked : List String) (jobId : String) :
    Bool :=
  match jobs.find? jobId with
  | none => false
  | some job =>
    job.claimable now && !locked.contains jobId &&
      jobs.entries.all fun entry =>
        locked.contains entry.1 || !entry.2.claimable now || !entry.2.before job

def claim (jobs : IngestionJobs) (now : Time) (locked : List String) (jobId : String) :
    Option (ClaimedJob × IngestionJobs) :=
  match jobs.find? jobId with
  | none => none
  | some job =>
    if jobs.mayReturn now locked jobId then
      some ({ jobId, tenantId := job.tenantId, payload := job.payload,
              attempts := job.attempts + 1, maxAttempts := job.maxAttempts, claimedAt := now },
        jobs.modify jobId (IngestionJob.claimed now))
    else none

/-- `WHERE tenant_id = %s AND id = %s`, under the tenant's row-level policy. -/
def finish (jobs : IngestionJobs) (now : Time) (tenantId jobId : String) (finish : Finish) :
    Except PyError IngestionJobs := do
  setTenant tenantId
  .ok (jobs.modify jobId fun job =>
    if job.tenantId = tenantId ∧ strip tenantId = tenantId then job.finished now finish else job)

end IngestionJobs

structure Queue where
  now : Time
  jobs : IngestionJobs
  /-- The jobs in the hands of live workers. -/
  held : Table Nat ClaimedJob
  /-- The claims of crashed workers; no step reads them. -/
  abandoned : List ClaimedJob
  deriving DecidableEq

inductive QueueEvent where
  | submit (uuid4 tenantId : String) (payload : JobPayload)
  | claim (worker : Nat) (jobId : String) (locked : List String)
  | finish (worker : Nat) (outcome : Outcome)
  | crash (worker : Nat)
  | wait (microseconds : Nat)
  deriving DecidableEq

namespace Queue

def empty : Queue := ⟨0, .empty, .empty, []⟩

/-- A worker claims one job at a time.  When `_finish` cannot write, the job is let go
as if the worker had crashed. -/
def step (queue : Queue) : QueueEvent → Option Queue
  | .submit uuid4 tenantId payload =>
    match queue.jobs.submit queue.now uuid4 tenantId payload with
    | .error _ => none
    | .ok jobs => some { queue with jobs }
  | .claim worker jobId locked =>
    match queue.held.find? worker with
    | some _ => none
    | none =>
      (queue.jobs.claim queue.now locked jobId).map fun out =>
        { queue with jobs := out.2, held := queue.held.set worker out.1 }
  | .finish worker outcome =>
    match queue.held.find? worker with
    | none => none
    | some claim =>
      let held := queue.held.erase worker
      match queue.jobs.finish queue.now claim.tenantId claim.jobId (claim.finish outcome) with
      | .error _ => some { queue with held, abandoned := claim :: queue.abandoned }
      | .ok jobs => some { queue with jobs, held }
  | .crash worker =>
    match queue.held.find? worker with
    | none => none
    | some claim =>
      some { queue with
        held := queue.held.erase worker, abandoned := claim :: queue.abandoned }
  | .wait microseconds => some { queue with now := queue.now + microseconds }

def system : System Queue QueueEvent := ⟨empty, step⟩

end Queue

/-! ## What a step does -/

namespace IngestionJobs

theorem submit_eq_ok {jobs jobs' : IngestionJobs} {now : Time} {uuid4 tenantId : String}
    {payload : JobPayload} (success : jobs.submit now uuid4 tenantId payload = .ok jobs') :
    strip tenantId ≠ "" ∧ strip tenantId = tenantId ∧ jobs.find? uuid4 = none ∧
      jobs' = jobs.set uuid4
        { tenantId, payload, runAfter := now, createdAt := now, updatedAt := now } := by
  simp only [submit, setTenant] at success
  split at success
  · cases success
  · rename_i nonblank
    simp only [bind, Except.bind] at success
    split at success
    · cases success
    · rename_i trimmed
      split at success
      · cases success
      · rename_i fresh
        have isNone := Option.not_isSome_iff_eq_none.mp fresh
        exact ⟨nonblank, Decidable.not_not.mp trimmed, isNone, (Except.ok.inj success).symm⟩

theorem claim_eq_some {jobs jobs' : IngestionJobs} {now : Time} {locked : List String}
    {jobId : String} {claimed : ClaimedJob}
    (success : jobs.claim now locked jobId = some (claimed, jobs')) :
    ∃ job, jobs.find? jobId = some job ∧ job.claimable now = true ∧
      claimed = { jobId, tenantId := job.tenantId, payload := job.payload,
                  attempts := job.attempts + 1, maxAttempts := job.maxAttempts,
                  claimedAt := now } ∧
      jobs' = jobs.modify jobId (IngestionJob.claimed now) := by
  simp only [claim] at success
  cases found : jobs.find? jobId with
  | none =>
      rw [found] at success
      cases success
  | some job =>
      rw [found] at success
      dsimp only at success
      split at success
      · rename_i returned
        simp only [mayReturn, found, Bool.and_eq_true] at returned
        obtain ⟨claimEq, jobsEq⟩ := Prod.mk.inj (Option.some.inj success)
        exact ⟨job, rfl, returned.1.1, claimEq.symm, jobsEq.symm⟩
      · cases success

theorem finish_eq_ok {jobs jobs' : IngestionJobs} {now : Time} {jobId : String}
    {job : IngestionJob} {finish : Finish} (found : jobs.find? jobId = some job)
    (trimmed : strip job.tenantId = job.tenantId)
    (success : jobs.finish now job.tenantId jobId finish = .ok jobs') :
    jobs' = jobs.modify jobId (IngestionJob.finished now finish) := by
  simp only [IngestionJobs.finish, setTenant] at success
  split at success
  · cases success
  · obtain rfl := Except.ok.inj success
    apply Table.modify_congr
    intro value same
    rw [found] at same
    obtain rfl := Option.some.inj same
    exact if_pos ⟨rfl, trimmed⟩

end IngestionJobs

/-- The row under which a submitted job waits. -/
def IngestionJob.submitted (now : Time) (tenantId : String) (payload : JobPayload) :
    IngestionJob :=
  { tenantId, payload, runAfter := now, createdAt := now, updatedAt := now }

/-- The claim a worker gets of a job. -/
def IngestionJob.claim (job : IngestionJob) (jobId : String) (now : Time) : ClaimedJob :=
  { jobId, tenantId := job.tenantId, payload := job.payload, attempts := job.attempts + 1,
    maxAttempts := job.maxAttempts, claimedAt := now }

namespace Queue

/-- A claim whose worker has not finished it, alive or not. -/
def Outstanding (queue : Queue) (claim : ClaimedJob) : Prop :=
  (∃ worker, queue.held.find? worker = some claim) ∨ claim ∈ queue.abandoned

structure WellFormed (queue : Queue) : Prop where
  tenant : ∀ jobId job, queue.jobs.find? jobId = some job →
    strip job.tenantId ≠ "" ∧ strip job.tenantId = job.tenantId
  claims : ∀ claim, queue.Outstanding claim →
    claim.claimedAt ≤ queue.now ∧ ∃ job, queue.jobs.find? claim.jobId = some job ∧
      claim.tenantId = job.tenantId ∧ claim.maxAttempts = job.maxAttempts ∧
      claim.attempts ≤ job.attempts

/-- Everything a step can do. -/
inductive Move (queue : Queue) : QueueEvent → Queue → Prop
  | submit {uuid4 tenantId : String} {payload : JobPayload}
      (nonblank : strip tenantId ≠ "") (trimmed : strip tenantId = tenantId)
      (fresh : queue.jobs.find? uuid4 = none) :
      Move queue (.submit uuid4 tenantId payload)
        { queue with jobs := queue.jobs.set uuid4 (.submitted queue.now tenantId payload) }
  | claim {worker : Nat} {jobId : String} {locked : List String} {job : IngestionJob}
      (idle : queue.held.find? worker = none) (found : queue.jobs.find? jobId = some job)
      (claimable : job.claimable queue.now = true) :
      Move queue (.claim worker jobId locked)
        { queue with
          jobs := queue.jobs.modify jobId (IngestionJob.claimed queue.now)
          held := queue.held.set worker (job.claim jobId queue.now) }
  | finish {worker : Nat} {outcome : Outcome} {claim : ClaimedJob} {job : IngestionJob}
      (holds : queue.held.find? worker = some claim)
      (found : queue.jobs.find? claim.jobId = some job) :
      Move queue (.finish worker outcome)
        { queue with
          jobs := queue.jobs.modify claim.jobId
            (IngestionJob.finished queue.now (claim.finish outcome))
          held := queue.held.erase worker }
  | crash {worker : Nat} {claim : ClaimedJob} (holds : queue.held.find? worker = some claim) :
      Move queue (.crash worker)
        { queue with
          held := queue.held.erase worker, abandoned := claim :: queue.abandoned }
  | wait {microseconds : Nat} :
      Move queue (.wait microseconds) { queue with now := queue.now + microseconds }

theorem step_move {queue queue' : Queue} {event : QueueEvent} (wellFormed : queue.WellFormed)
    (taken : queue.step event = some queue') : Move queue event queue' := by
  cases event with
  | submit uuid4 tenantId payload =>
      simp only [step] at taken
      cases submitted : queue.jobs.submit queue.now uuid4 tenantId payload with
      | error e => simp [submitted] at taken
      | ok jobs =>
          obtain ⟨nonblank, trimmed, fresh, rfl⟩ := IngestionJobs.submit_eq_ok submitted
          simp only [submitted, Option.some.injEq] at taken
          exact taken ▸ .submit nonblank trimmed fresh
  | claim worker jobId locked =>
      simp only [step] at taken
      cases idle : queue.held.find? worker with
      | some claim => simp [idle] at taken
      | none =>
          rw [idle] at taken
          obtain ⟨⟨claimed, jobs⟩, success, rfl⟩ := Option.map_eq_some_iff.mp taken
          obtain ⟨job, found, claimable, rfl, rfl⟩ := IngestionJobs.claim_eq_some success
          exact .claim idle found claimable
  | finish worker outcome =>
      simp only [step] at taken
      cases holds : queue.held.find? worker with
      | none => simp [holds] at taken
      | some claim =>
          obtain ⟨_, job, found, tenant, _, _⟩ := wellFormed.claims claim (.inl ⟨worker, holds⟩)
          obtain ⟨nonblank, trimmed⟩ := wellFormed.tenant claim.jobId job found
          simp only [holds] at taken
          cases written : queue.jobs.finish queue.now claim.tenantId claim.jobId
              (claim.finish outcome) with
          | error e =>
              simp [IngestionJobs.finish, setTenant, tenant, nonblank, bind, Except.bind]
                at written
          | ok jobs =>
              rw [tenant] at written
              obtain rfl := IngestionJobs.finish_eq_ok found trimmed written
              rw [← tenant] at written
              simp only [written, Option.some.injEq] at taken
              exact taken ▸ .finish holds found
  | crash worker =>
      simp only [step] at taken
      cases holds : queue.held.find? worker with
      | none => simp [holds] at taken
      | some claim =>
          simp only [holds, Option.some.injEq] at taken
          exact taken ▸ .crash holds
  | wait microseconds =>
      simp only [step, Option.some.injEq] at taken
      exact taken ▸ .wait

/-- What a step makes of one row. -/
theorem Move.row {queue queue' : Queue} {event : QueueEvent} (move : Move queue event queue')
    {jobId : String} {job' : IngestionJob} (found' : queue'.jobs.find? jobId = some job') :
    queue.jobs.find? jobId = some job' ∨
    (∃ tenantId payload, event = .submit jobId tenantId payload ∧
      queue.jobs.find? jobId = none ∧ strip tenantId ≠ "" ∧ strip tenantId = tenantId ∧
      job' = .submitted queue.now tenantId payload) ∨
    (∃ worker locked job, event = .claim worker jobId locked ∧
      queue.jobs.find? jobId = some job ∧ job.claimable queue.now = true ∧
      job' = job.claimed queue.now) ∨
    ∃ worker outcome claim job, event = .finish worker outcome ∧
      queue.held.find? worker = some claim ∧ claim.jobId = jobId ∧
      queue.jobs.find? jobId = some job ∧
      job' = job.finished queue.now (claim.finish outcome) := by
  cases move with
  | @submit uuid4 tenantId payload nonblank trimmed fresh =>
      rw [Table.find?_set] at found'
      split at found'
      · rename_i same
        subst same
        exact .inr (.inl ⟨tenantId, payload, rfl, fresh, nonblank, trimmed,
          (Option.some.inj found').symm⟩)
      · exact .inl found'
  | @claim worker claimedId locked job idle found claimable =>
      rw [Table.find?_modify] at found'
      split at found'
      · rename_i same
        subst same
        rw [found] at found'
        exact .inr (.inr (.inl ⟨worker, locked, job, rfl, found, claimable,
          (Option.some.inj found').symm⟩))
      · exact .inl found'
  | @finish worker outcome claim job holds found =>
      rw [Table.find?_modify] at found'
      split at found'
      · rename_i same
        rw [same, found] at found'
        exact .inr (.inr (.inr ⟨worker, outcome, claim, job, rfl, holds, same.symm,
          same ▸ found, (Option.some.inj found').symm⟩))
      · exact .inl found'
  | crash => exact .inl found'
  | wait => exact .inl found'

/-- No step deletes a row. -/
theorem Move.row_stays {queue queue' : Queue} {event : QueueEvent}
    (move : Move queue event queue') {jobId : String} {job : IngestionJob}
    (found : queue.jobs.find? jobId = some job) :
    ∃ job', queue'.jobs.find? jobId = some job' := by
  have present : jobId ∈ queue.jobs.keys :=
    Table.mem_keys_of_mem (Table.find?_eq_some_iff.mp found)
  have stays : jobId ∈ queue'.jobs.keys := by
    cases move with
    | submit => exact Table.mem_keys_set.mpr (.inl present)
    | claim =>
        rw [Table.keys_modify]
        exact present
    | finish =>
        rw [Table.keys_modify]
        exact present
    | crash => exact present
    | wait => exact present
  exact Option.isSome_iff_exists.mp (Table.find?_isSome_iff.mpr stays)

/-- A claim is taken by a claim step, and outlives every other. -/
theorem Move.outstanding {queue queue' : Queue} {event : QueueEvent}
    (move : Move queue event queue') {claim : ClaimedJob} (held : queue'.Outstanding claim) :
    queue.Outstanding claim ∨
      ∃ worker locked job, event = .claim worker claim.jobId locked ∧
        queue.jobs.find? claim.jobId = some job ∧ job.claimable queue.now = true ∧
        claim = job.claim claim.jobId queue.now := by
  cases move with
  | submit => exact .inl held
  | @claim worker jobId locked job idle found claimable =>
      rcases held with ⟨other, found'⟩ | crashed
      · rw [Table.find?_set] at found'
        split at found'
        · obtain rfl := Option.some.inj found'
          exact .inr ⟨worker, locked, job, rfl, found, claimable, rfl⟩
        · exact .inl (.inl ⟨other, found'⟩)
      · exact .inl (.inr crashed)
  | @finish worker outcome own job holds found =>
      rcases held with ⟨other, found'⟩ | crashed
      · rw [Table.find?_erase] at found'
        split at found'
        · cases found'
        · exact .inl (.inl ⟨other, found'⟩)
      · exact .inl (.inr crashed)
  | @crash worker own holds =>
      rcases held with ⟨other, found'⟩ | crashed
      · rw [Table.find?_erase] at found'
        split at found'
        · cases found'
        · exact .inl (.inl ⟨other, found'⟩)
      · rcases List.mem_cons.mp crashed with rfl | before
        · exact .inl (.inl ⟨worker, holds⟩)
        · exact .inl (.inr before)
  | wait => exact .inl held

theorem Move.now_le {queue queue' : Queue} {event : QueueEvent}
    (move : Move queue event queue') : queue.now ≤ queue'.now := by
  cases move with
  | wait => exact Nat.le_add_right _ _
  | _ => exact Nat.le_refl _

/-- What a step keeps of a row: its tenant, its limit, and its count from below. -/
theorem Move.row_keeps {queue queue' : Queue} {event : QueueEvent}
    (move : Move queue event queue') {jobId : String} {job job' : IngestionJob}
    (found : queue.jobs.find? jobId = some job) (found' : queue'.jobs.find? jobId = some job') :
    job'.tenantId = job.tenantId ∧ job'.maxAttempts = job.maxAttempts ∧
      job.attempts ≤ job'.attempts := by
  rcases move.row found' with same | ⟨_, _, _, fresh, _⟩ | ⟨_, _, old, _, same, _, rfl⟩ |
    ⟨_, _, _, old, _, _, _, same, rfl⟩
  · rw [found] at same
    obtain rfl := Option.some.inj same
    exact ⟨rfl, rfl, Nat.le_refl _⟩
  · rw [found] at fresh
    cases fresh
  · rw [found] at same
    obtain rfl := Option.some.inj same
    exact ⟨rfl, rfl, Nat.le_succ _⟩
  · rw [found] at same
    obtain rfl := Option.some.inj same
    exact ⟨rfl, rfl, Nat.le_refl _⟩

theorem WellFormed.empty : Queue.empty.WellFormed where
  tenant := by
    intro jobId job found
    cases found
  claims := by
    intro claim outstanding
    rcases outstanding with ⟨_, found⟩ | crashed
    · cases found
    · cases crashed

theorem WellFormed.step {queue queue' : Queue} {event : QueueEvent}
    (wellFormed : queue.WellFormed) (taken : queue.step event = some queue') :
    queue'.WellFormed := by
  have move := step_move wellFormed taken
  constructor
  · intro jobId job' found'
    rcases move.row found' with same | ⟨_, _, _, _, nonblank, trimmed, rfl⟩ |
      ⟨_, _, job, _, found, _, rfl⟩ | ⟨_, _, _, job, _, _, _, found, rfl⟩
    · exact wellFormed.tenant jobId job' same
    · exact ⟨nonblank, trimmed⟩
    · exact wellFormed.tenant jobId job found
    · exact wellFormed.tenant jobId job found
  · intro claim outstanding
    rcases move.outstanding outstanding with before | ⟨worker, locked, job, rfl, found, _, same⟩
    · obtain ⟨past, job, found, tenant, limit, count⟩ := wellFormed.claims claim before
      obtain ⟨job', found'⟩ := move.row_stays found
      obtain ⟨tenant', limit', count'⟩ := move.row_keeps found found'
      exact ⟨Nat.le_trans past move.now_le, job', found', tenant.trans tenant'.symm,
        limit.trans limit'.symm, Nat.le_trans count count'⟩
    · cases move with
      | claim _ found' claimable =>
          rw [found] at found'
          obtain rfl := Option.some.inj found'
          refine ⟨by rw [same]; exact Nat.le_refl _, job.claimed queue.now, ?_, ?_, ?_, ?_⟩
          · rw [Table.find?_modify_self, found]
            rfl
          · rw [same]
            rfl
          · rw [same]
            rfl
          · rw [same]
            exact Nat.le_refl _

theorem reachable_wellFormed {guard : Queue → QueueEvent → Prop} {queue : Queue}
    (reached : system.Reachable guard queue) : queue.WellFormed :=
  reached.invariant WellFormed .empty fun _ _ _ wellFormed _ taken => wellFormed.step taken

/-- The state after a run from the empty queue. -/
def after (events : List QueueEvent) : Queue := (system.exec .empty events).getD .empty

end Queue

/-- An upload of `notes` in tenant `t`, as a job. -/
def notesJob (original : List UInt8) : JobPayload where
  tenantId := "t"
  filename := "notes.txt"
  contentBase64 := some original
  allowedGroups := none
  sourceId := "n"
  groups := []

end ProductionRag
