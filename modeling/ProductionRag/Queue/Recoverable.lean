import ProductionRag.Queue.Finished

/-!
# Accepted jobs

An accepted job is done, or it still has its bytes and can be claimed again after a
bounded wait: retries back off by less than the limit of attempts allows, and a lease
runs out.  Only a late retry breaks this, when it puts a finished job back into the
queue after its bytes were dropped.
-/

set_option autoImplicit false

namespace ProductionRag

open Basis

/-- The longest backoff of a job, `2 ** (max_attempts - 1)` seconds. -/
def IngestionJob.longestBackoff (job : IngestionJob) : Nat :=
  2 ^ (job.maxAttempts - 1) * microsecondsPerSecond

/-- A job that is not done has its bytes and waits for its turn or for its lease. -/
structure IngestionJob.Recoverable (job : IngestionJob) : Prop where
  content : job.status.done = false → job.payload.contentBase64.isSome = true
  queued : job.status = .queued → job.runAfter ≤ job.updatedAt + job.longestBackoff
  running : job.status = .running → job.lockedAt = some job.updatedAt

/-- Past its backoff or its lease a job that is not done can be claimed. -/
theorem IngestionJob.Recoverable.claimable {job : IngestionJob} (recoverable : job.Recoverable)
    (waiting : job.status.done = false) {now : Time}
    (later : job.updatedAt + max job.longestBackoff lease < now) : job.claimable now = true := by
  have pastBackoff : job.updatedAt + job.longestBackoff < now :=
    (Nat.add_le_add_left (Nat.le_max_left _ _) _).trans_lt later
  have pastLease : job.updatedAt + lease < now :=
    (Nat.add_le_add_left (Nat.le_max_right _ _) _).trans_lt later
  unfold IngestionJob.claimable
  cases status : job.status with
  | queued =>
      have due : job.runAfter ≤ now := ((recoverable.queued status).trans_lt pastBackoff).le
      rw [decide_eq_true due]
      rfl
  | running =>
      rw [recoverable.running status, Option.any_some, decide_eq_true pastLease]
      rfl
  | completed =>
      rw [status] at waiting
      cases waiting
  | failed =>
      rw [status] at waiting
      cases waiting

/-- `_submit_job` hands over a validated job, which has its bytes. -/
def QueueEvent.CarriesContent : QueueEvent → Prop
  | .submit _ _ payload => payload.contentBase64.isSome = true
  | _ => True

instance (event : QueueEvent) : Decidable event.CarriesContent :=
  match event with
  | .submit _ _ payload => inferInstanceAs (Decidable (payload.contentBase64.isSome = true))
  | .claim .. => .isTrue trivial
  | .finish .. => .isTrue trivial
  | .crash _ => .isTrue trivial
  | .wait _ => .isTrue trivial

namespace Queue

/-- No worker asks for another attempt at a job that is already finished. -/
def RetriesOnlyUnfinished (queue : Queue) : QueueEvent → Prop
  | .finish worker .otherError =>
    ∀ claim ∈ queue.held.find? worker, claim.attempts < claim.maxAttempts →
      ∀ job ∈ queue.jobs.find? claim.jobId, job.status.done = false
  | _ => True

instance (queue : Queue) (event : QueueEvent) :
    Decidable (queue.RetriesOnlyUnfinished event) :=
  match event with
  | .finish worker .otherError => inferInstanceAs (Decidable
      (∀ claim ∈ queue.held.find? worker, claim.attempts < claim.maxAttempts →
        ∀ job ∈ queue.jobs.find? claim.jobId, job.status.done = false))
  | .finish _ (.success _) => .isTrue trivial
  | .finish _ (.inputError _) => .isTrue trivial
  | .submit .. => .isTrue trivial
  | .claim .. => .isTrue trivial
  | .crash _ => .isTrue trivial
  | .wait _ => .isTrue trivial

/-- Every row, in terms of what is promised to whoever submitted it: while the job is not
done it keeps its bytes, waits at most the longest backoff, and can be reclaimed. -/
def KeepsJobs (queue : Queue) : Prop :=
  ∀ jobId job, queue.jobs.find? jobId = some job → job.status.done = false →
    job.payload.contentBase64.isSome = true ∧
    (job.status = .queued → job.runAfter ≤ job.updatedAt + job.longestBackoff) ∧
    (job.status = .running → job.lockedAt.isSome = true) ∧
    ∀ now, job.updatedAt + max job.longestBackoff lease < now → job.claimable now = true

/-- In every state the run goes through the accepted jobs are kept. -/
def LosesNoJob (events : List QueueEvent) : Prop :=
  ∀ past future queue, events = past ++ future → system.exec .empty past = some queue →
    queue.KeepsJobs

def AllRecoverable (queue : Queue) : Prop :=
  ∀ jobId job, queue.jobs.find? jobId = some job → job.Recoverable

theorem AllRecoverable.keepsJobs {queue : Queue} (recoverable : queue.AllRecoverable) :
    queue.KeepsJobs := by
  intro jobId job found waiting
  have row := recoverable jobId job found
  refine ⟨row.content waiting, row.queued, ?_, fun now later => row.claimable waiting later⟩
  intro running
  rw [row.running running]
  rfl

end Queue

/-- A finished row keeps its bytes exactly when it goes back into the queue. -/
theorem IngestionJob.finished_recoverable {job : IngestionJob} {claim : ClaimedJob}
    (limit : claim.maxAttempts = job.maxAttempts) {outcome : Outcome} (now : Time)
    (recoverable : job.Recoverable)
    (unfinished : outcome = .otherError → claim.attempts < claim.maxAttempts →
      job.status.done = false) :
    (job.finished now (claim.finish outcome)).Recoverable := by
  have closed : ∀ finish : Finish, finish.status.done = true →
      (job.finished now finish).Recoverable := by
    intro finish done
    have status : (job.finished now finish).status = finish.status := rfl
    constructor
    · intro waiting
      rw [status, done] at waiting
      cases waiting
    · intro queued
      rw [status] at queued
      rw [queued] at done
      cases done
    · intro running
      rw [status] at running
      rw [running] at done
      cases done
  cases outcome with
  | success result => exact closed _ rfl
  | inputError message => exact closed _ rfl
  | otherError =>
      simp only [ClaimedJob.finish]
      split
      · rename_i retries
        have waiting := unfinished rfl retries
        constructor
        · intro _
          exact recoverable.content waiting
        · intro _
          have exponent : claim.attempts ≤ job.maxAttempts - 1 := by omega
          have backoff := Nat.pow_le_pow_right (show 0 < 2 by decide) exponent
          exact Nat.add_le_add_left (Nat.mul_le_mul_right microsecondsPerSecond backoff) now
        · intro running
          cases running
      · exact closed _ rfl

namespace Queue

/-- The invariant of runs without late retries. -/
def Kept (queue : Queue) : Prop := queue.WellFormed ∧ queue.AllRecoverable

theorem Kept.step {queue queue' : Queue} {event : QueueEvent} (kept : queue.Kept)
    (carries : event.CarriesContent) (unfinished : queue.RetriesOnlyUnfinished event)
    (taken : queue.step event = some queue') : queue'.Kept := by
  obtain ⟨wellFormed, recoverable⟩ := kept
  have move := step_move wellFormed taken
  refine ⟨wellFormed.step taken, ?_⟩
  intro jobId job' found'
  rcases move.row found' with same | ⟨_, payload, rfl, _, _, _, rfl⟩ |
    ⟨_, _, job, _, found, claimable, rfl⟩ |
    ⟨worker, outcome, claim, job, rfl, holds, own, found, rfl⟩
  · exact recoverable jobId job' same
  · refine ⟨fun _ => carries, fun _ => Nat.le_add_right _ _, fun running => ?_⟩
    cases running
  · have waiting : job.status.done = false := by
      cases status : job.status <;>
        simp [IngestionJob.claimable, JobStatus.done, status] at claimable ⊢
    refine ⟨fun _ => (recoverable jobId job found).content waiting, fun queued => ?_, fun _ => rfl⟩
    cases queued
  · subst own
    obtain ⟨_, row, foundRow, _, limit, _⟩ := wellFormed.claims claim (.inl ⟨worker, holds⟩)
    rw [found] at foundRow
    obtain rfl := Option.some.inj foundRow
    refine IngestionJob.finished_recoverable limit queue.now (recoverable _ job found) ?_
    rintro rfl retries
    exact unfinished claim holds retries job found

/-- The bytes of a finished job are dropped. -/
def DropsContent (queue : Queue) : Prop :=
  ∀ jobId job, queue.jobs.find? jobId = some job → job.status.done = true →
    job.payload.contentBase64 = none

theorem DropsContent.step {queue queue' : Queue} {event : QueueEvent}
    (wellFormed : queue.WellFormed) (drops : queue.DropsContent)
    (taken : queue.step event = some queue') : queue'.DropsContent := by
  intro jobId job' found' done
  rcases (step_move wellFormed taken).row found' with same | ⟨_, payload, _, _, _, _, rfl⟩ |
    ⟨_, _, job, _, _, _, rfl⟩ | ⟨_, outcome, claim, job, _, _, _, _, rfl⟩
  · exact drops jobId job' same done
  · cases done
  · cases done
  · have status : (claim.finish outcome).status.done = true := done
    simp only [IngestionJob.finished, status, if_true]
    rfl

/-- A run loses no job exactly when no worker asks to retry one that is finished. -/
theorem losesNoJob_iff (events : List QueueEvent) (queue : Queue)
    (ran : system.exec .empty events = some queue)
    (carries : ∀ event ∈ events, event.CarriesContent) :
    LosesNoJob events ↔ system.Meets RetriesOnlyUnfinished .empty events := by
  have start : Queue.empty.Kept :=
    ⟨.empty, fun jobId job found => by cases found⟩
  constructor
  · intro keeps
    apply System.meets_of_forall
    rintro past event future earlier rfl before
    rcases event with _ | _ | ⟨worker, _ | _ | _⟩ | _ | _ <;> try trivial
    intro claim holds retries job found
    by_contra finished
    obtain ⟨middle, before', after⟩ := System.exec_append.mp ran
    rw [before] at before'
    obtain rfl := Option.some.inj before'
    obtain ⟨later, taken, _⟩ := System.exec_cons.mp after
    obtain ⟨wellFormed, drops⟩ : earlier.WellFormed ∧ earlier.DropsContent :=
      System.exec_preserves (fun queue => queue.WellFormed ∧ queue.DropsContent)
        (fun _ _ _ holds step => ⟨holds.1.step step, holds.2.step holds.1 step⟩) before
        ⟨.empty, fun jobId job found => by cases found⟩
    have move : Move earlier (.finish worker .otherError) later := step_move wellFormed taken
    cases move with
    | @finish _ _ own row holds' present =>
        rw [holds] at holds'
        obtain rfl := Option.some.inj holds'
        rw [found] at present
        obtain rfl := Option.some.inj present
        -- the retry puts the row back as it is, without its bytes
        have requeued := keeps (past ++ [.finish worker .otherError]) future _
          (List.append_cons past _ future)
          (System.exec_append.mpr ⟨earlier, before, System.exec_cons.mpr ⟨_, taken, rfl⟩⟩)
          claim.jobId _ (by rw [Table.find?_modify_self, found, Option.map_some])
        have retry : claim.finish .otherError =
            { status := .queued, errorText := some "retrying after an internal error",
              retryIn := 2 ^ claim.attempts } := if_pos retries
        rw [retry] at requeued
        have content := (requeued rfl).1
        have dropped := drops claim.jobId job found (Bool.not_eq_false _ ▸ finished)
        change job.payload.contentBase64.isSome = true at content
        rw [dropped] at content
        cases content
  · rintro meets past future middle rfl before
    have early := ((System.meets_append before).mp meets).1
    have content : system.Meets (fun _ event => event.CarriesContent) .empty past :=
      System.meets_of_forall fun past' event future' _ split _ =>
        carries event (List.mem_append_left _
          (split ▸ List.mem_append_right past' List.mem_cons_self))
    have both := System.meets_and content early
    exact (System.exec_keeps Kept (fun _ _ _ kept allowed taken =>
      kept.step allowed.1 allowed.2 taken) before both start).2.keepsJobs

/-- The late retry leaves the completed job waiting in the queue without its bytes. -/
theorem late_retry_loses_job :
    (system.exec .empty (takenOver storedNotes .otherError)).isSome = true ∧
      (∀ event ∈ takenOver storedNotes .otherError, event.CarriesContent) ∧
      ¬ LosesNoJob (takenOver storedNotes .otherError) := by
  refine ⟨by decide +kernel, by decide +kernel, fun keeps => ?_⟩
  have reopened : ((after (takenOver storedNotes .otherError)).jobs.find? "j").map
      (fun job => (job.status, job.payload.contentBase64)) = some (.queued, none) := by
    decide +kernel
  obtain ⟨job, found, stored⟩ := Option.map_eq_some_iff.mp reopened
  obtain ⟨status, content⟩ := Prod.mk.inj stored
  have kept := keeps (takenOver storedNotes .otherError) []
    (after (takenOver storedNotes .otherError)) (List.append_nil _).symm (by decide +kernel)
    "j" job found (by rw [status]; rfl)
  rw [content] at kept
  cases kept.1

/-- A job fails in the hands of its worker, waits and is done at the second attempt. -/
def promptRetry : List QueueEvent :=
  [.submit "j" "t" (notesJob [1]), .claim 1 "j" [], .finish 1 .otherError,
    .wait (3 * microsecondsPerSecond), .claim 2 "j" [], .finish 2 (.success storedNotes)]

theorem prompt_retry_keeps_job : LosesNoJob promptRetry :=
  (losesNoJob_iff promptRetry (after promptRetry) (by decide +kernel) (by decide +kernel)).mpr
    (by decide +kernel)

end Queue

end ProductionRag
