import ProductionRag.Queue.Finished

/-!
# Attempts

The limit on attempts is checked by the worker whose handler failed; the claim that
counts them checks nothing.  The limit holds while an abandoned job is only taken over
with an attempt left, and a job only goes back to the queue with one.
-/

set_option autoImplicit false

namespace ProductionRag

open Basis

namespace Queue

/-- A running job is taken over, or sent back to the queue, with an attempt left. -/
def SparesAttempts (queue : Queue) : QueueEvent → Prop
  | .claim _ jobId _ =>
    ∀ job ∈ queue.jobs.find? jobId, job.status = .running → job.attempts < job.maxAttempts
  | .finish worker .otherError =>
    ∀ claim ∈ queue.held.find? worker, claim.attempts < claim.maxAttempts →
      ∀ job ∈ queue.jobs.find? claim.jobId, job.attempts < job.maxAttempts
  | _ => True

instance (queue : Queue) (event : QueueEvent) : Decidable (queue.SparesAttempts event) :=
  match event with
  | .claim _ jobId _ => inferInstanceAs (Decidable
      (∀ job ∈ queue.jobs.find? jobId, job.status = .running → job.attempts < job.maxAttempts))
  | .finish worker .otherError => inferInstanceAs (Decidable
      (∀ claim ∈ queue.held.find? worker, claim.attempts < claim.maxAttempts →
        ∀ job ∈ queue.jobs.find? claim.jobId, job.attempts < job.maxAttempts))
  | .finish _ (.success _) => .isTrue trivial
  | .finish _ (.inputError _) => .isTrue trivial
  | .submit .. => .isTrue trivial
  | .crash _ => .isTrue trivial
  | .wait _ => .isTrue trivial

/-- A queued job has an attempt left, any other has not overrun. -/
def WithinLimit (job : IngestionJob) : Prop :=
  job.attempts ≤ job.maxAttempts ∧ (job.status = .queued → job.attempts < job.maxAttempts)

theorem withinLimit_step {queue queue' : Queue} {event : QueueEvent}
    (wellFormed : queue.WellFormed)
    (within : ∀ jobId job, queue.jobs.find? jobId = some job → WithinLimit job)
    (spares : queue.SparesAttempts event) (taken : queue.step event = some queue') :
    ∀ jobId job, queue'.jobs.find? jobId = some job → WithinLimit job := by
  intro jobId job' found'
  rcases (step_move wellFormed taken).row found' with same | ⟨_, _, _, _, _, _, rfl⟩ |
    ⟨worker, locked, job, rfl, found, claimable, rfl⟩ |
    ⟨worker, outcome, claim, job, rfl, holds, own, found, rfl⟩
  · exact within jobId job' same
  · exact ⟨Nat.zero_le _, fun _ => Nat.zero_lt_succ _⟩
  · -- claimable is queued, with an attempt left, or running, which the guard is about
    have remaining : job.attempts < job.maxAttempts := by
      cases status : job.status with
      | queued => exact (within jobId job found).2 status
      | running => exact spares job found status
      | completed => simp [IngestionJob.claimable, status] at claimable
      | failed => simp [IngestionJob.claimable, status] at claimable
    refine ⟨remaining, fun queued => ?_⟩
    cases queued
  · have bound := (within jobId job found).1
    cases outcome with
    | success result =>
        refine ⟨bound, fun queued => ?_⟩
        cases queued
    | inputError message =>
        refine ⟨bound, fun queued => ?_⟩
        cases queued
    | otherError =>
        refine ⟨bound, fun queued => ?_⟩
        by_cases retries : claim.attempts < claim.maxAttempts
        · exact spares claim holds retries job (own ▸ found)
        · simp only [IngestionJob.finished, ClaimedJob.finish, if_neg retries] at queued
          cases queued

/-- No job is handed out more often than its limit, along every run that takes over and
requeues jobs only while they have an attempt left. -/
theorem attempts_le_maxAttempts (queue : Queue) (reached : system.Reachable SparesAttempts queue)
    (jobId : String) (job : IngestionJob) (found : queue.jobs.find? jobId = some job) :
    job.attempts ≤ job.maxAttempts := by
  have invariant : queue.WellFormed ∧
      ∀ jobId job, queue.jobs.find? jobId = some job → WithinLimit job := by
    refine reached.invariant
      (fun queue => queue.WellFormed ∧
        ∀ jobId job, queue.jobs.find? jobId = some job → WithinLimit job) ?_ ?_
    · refine ⟨.empty, fun jobId job found => ?_⟩
      cases found
    · intro queue event queue' holds spares taken
      exact ⟨holds.1.step taken, withinLimit_step holds.1 holds.2 spares taken⟩
  exact (invariant.2 jobId job found).1

/-! ## Nothing else keeps the limit -/

/-- An idle worker turns up. -/
theorem exists_idle (queue : Queue) : ∃ worker, queue.held.find? worker = none := by
  refine ⟨queue.held.keys.foldr max 0 + 1, Table.find?_eq_none_iff.mpr fun present => ?_⟩
  have small := le_foldr_max present
  omega

/-- The queue when the job is due. -/
def whenDue (queue : Queue) (job : IngestionJob) : Queue :=
  { queue with now := queue.now + (job.runAfter - queue.now) }

theorem step_wait_whenDue (queue : Queue) (job : IngestionJob) :
    queue.step (.wait (job.runAfter - queue.now)) = some (queue.whenDue job) := rfl

theorem whenDue_outstanding (queue : Queue) (job : IngestionJob) (claim : ClaimedJob) :
    (queue.whenDue job).Outstanding claim ↔ queue.Outstanding claim := Iff.rfl

theorem whenDue_now (queue : Queue) (job : IngestionJob) (later : queue.now ≤ job.runAfter) :
    (queue.whenDue job).now = job.runAfter :=
  Nat.add_sub_cancel' later

/-- A queued job is handed out once its time has come, whatever else waits: the rows of
the other jobs may be locked. -/
theorem queued_claimed (queue : Queue) (jobId : String) (job : IngestionJob)
    (found : queue.jobs.find? jobId = some job) (queued : job.status = .queued) :
    ∃ worker locked later,
      (queue.whenDue job).step (.claim worker jobId locked) = some later ∧
        ∃ now, later.jobs.find? jobId = some (job.claimed now) := by
  obtain ⟨worker, idle⟩ := queue.exists_idle
  let now := queue.now + (job.runAfter - queue.now)
  let locked := queue.jobs.keys.filter fun key => key ≠ jobId
  have due : job.runAfter ≤ now := Nat.sub_le_iff_le_add'.mp (Nat.le_refl _)
  have claimable : job.claimable now = true := by
    simp only [IngestionJob.claimable, queued, Bool.or_eq_true, Bool.and_eq_true]
    exact .inl ⟨rfl, decide_eq_true due⟩
  have returned : queue.jobs.mayReturn now locked jobId = true := by
    simp only [IngestionJobs.mayReturn, found, claimable, Bool.true_and, Bool.and_eq_true]
    refine ⟨by simp [locked], List.all_eq_true.mpr fun entry member => ?_⟩
    by_cases own : entry.1 = jobId
    · have same : queue.jobs.find? jobId = some entry.2 :=
        Table.find?_eq_some_iff.mpr (own ▸ member)
      rw [found] at same
      obtain rfl := Option.some.inj same
      simp [IngestionJob.before]
    · have present : entry.1 ∈ locked :=
        List.mem_filter.mpr ⟨Table.mem_keys_of_mem member, decide_eq_true own⟩
      simp [present]
  let later : Queue :=
    { queue with
      now, jobs := queue.jobs.modify jobId (IngestionJob.claimed now)
      held := queue.held.set worker (job.claim jobId now) }
  have taken : (queue.whenDue job).step (.claim worker jobId locked) = some later := by
    simp only [whenDue, step, idle, IngestionJobs.claim, found, returned, if_true,
      Option.map_some, now]
    rfl
  refine ⟨worker, locked, later, taken, now, ?_⟩
  rw [Table.find?_modify_self, found]
  rfl

/-- After any other take-over or retry, the run can go on to hand a job out too often. -/
theorem overruns_of_not_sparesAttempts {queue queue' : Queue} {event : QueueEvent}
    (wellFormed : queue.WellFormed) (wasteful : ¬ queue.SparesAttempts event)
    (taken : queue.step event = some queue') :
    ∃ events later, system.exec queue' events = some later ∧
      ∃ jobId job, later.jobs.find? jobId = some job ∧ job.maxAttempts < job.attempts := by
  have move := step_move wellFormed taken
  cases move with
  | @claim worker jobId locked job idle found claimable =>
      simp only [SparesAttempts, found, Option.mem_def, Option.some.injEq, forall_eq'] at wasteful
      obtain ⟨_, exhausted⟩ := Classical.not_imp.mp wasteful
      refine ⟨[], _, rfl, jobId, job.claimed queue.now, ?_, ?_⟩
      · rw [Table.find?_modify_self, found]
        rfl
      · exact Nat.lt_succ_of_le (Nat.le_of_not_lt exhausted)
  | @finish worker outcome claim job holds found =>
      cases outcome with
      | otherError =>
          simp only [SparesAttempts, holds, found, Option.mem_def, Option.some.injEq, forall_eq']
            at wasteful
          obtain ⟨retries, exhausted⟩ := Classical.not_imp.mp wasteful
          have requeued : (job.finished queue.now (claim.finish .otherError)).status = .queued := by
            simp only [IngestionJob.finished, ClaimedJob.finish, if_pos retries]
          let row := job.finished queue.now (claim.finish .otherError)
          let left : Queue :=
            { queue with
              jobs := queue.jobs.modify claim.jobId
                (IngestionJob.finished queue.now (claim.finish .otherError))
              held := queue.held.erase worker }
          have present : left.jobs.find? claim.jobId = some row := by
            rw [Table.find?_modify_self, found]
            rfl
          obtain ⟨worker', locked, later, taken', now, found'⟩ :=
            queued_claimed left claim.jobId row present requeued
          have ran : system.exec left
              [.wait (row.runAfter - left.now), .claim worker' claim.jobId locked] = some later :=
            System.exec_cons.mpr ⟨left.whenDue row, left.step_wait_whenDue row,
              System.exec_cons.mpr ⟨later, taken', rfl⟩⟩
          exact ⟨_, later, ran, claim.jobId, _, found',
            Nat.lt_succ_of_le (Nat.le_of_not_lt exhausted)⟩
      | success result => exact absurd trivial wasteful
      | inputError message => exact absurd trivial wasteful
  | submit => exact absurd trivial wasteful
  | crash => exact absurd trivial wasteful
  | wait => exact absurd trivial wasteful

/-! ## Two runs -/

/-- A worker that dies with the job, until its lease is over. -/
def crashing (worker : Nat) : List QueueEvent :=
  [.claim worker "j" [], .crash worker, .wait (lease + 1)]

/-- Three workers die with the job, a fourth takes it over. -/
def fourthAttempt : List QueueEvent :=
  .submit "j" "t" (notesJob [1]) ::
    (crashing 1 ++ crashing 2 ++ crashing 3 ++ [.claim 4 "j" []])

theorem crashes_overrun_attempts :
    system.exec .empty fourthAttempt = some (after fourthAttempt) ∧
      ∃ job, (after fourthAttempt).jobs.find? "j" = some job ∧
        job.maxAttempts < job.attempts := by
  refine ⟨by decide +kernel, ?_⟩
  have counts : ((after fourthAttempt).jobs.find? "j").map (fun job =>
      (job.attempts, job.maxAttempts)) = some (4, 3) := by decide +kernel
  obtain ⟨job, found, eq⟩ := Option.map_eq_some_iff.mp counts
  obtain ⟨attempts, limit⟩ := Prod.mk.inj eq
  exact ⟨job, found, by omega⟩

/-- One worker dies with the job, one fails on it, one completes it. -/
def thirdAttempt : List QueueEvent :=
  .submit "j" "t" (notesJob [1]) ::
    (crashing 1 ++ [.claim 2 "j" [], .finish 2 .otherError, .wait (4 * microsecondsPerSecond),
      .claim 1 "j" [], .finish 1 (.success storedNotes)])

theorem third_attempt_within_limit :
    ∃ job, (after thirdAttempt).jobs.find? "j" = some job ∧ job.attempts = 3 ∧
      job.attempts ≤ job.maxAttempts := by
  have counts : ((after thirdAttempt).jobs.find? "j").map (·.attempts) = some 3 := by
    decide +kernel
  obtain ⟨job, found, attempts⟩ := Option.map_eq_some_iff.mp counts
  exact ⟨job, found, attempts, attempts_le_maxAttempts (after thirdAttempt)
    ⟨thirdAttempt, by decide +kernel, by decide +kernel⟩ "j" job found⟩

end Queue

end ProductionRag
