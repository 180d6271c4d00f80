import ProductionRag.Queue.Jobs

/-!
# Finished jobs

`_finish` names the job it finishes and nothing else, so it also lands on a job that
another worker has finished since.  A run keeps the verdict of every finished job
exactly when no such late finish brings another verdict.
-/

set_option autoImplicit false

namespace ProductionRag

open Basis

/-- The outcome decides for the job what it already stores. -/
def Outcome.Confirms (claim : ClaimedJob) (job : IngestionJob) : Outcome → Prop
  | .success result => job.verdict = (.completed, none, some result)
  | .inputError message => job.verdict = (.failed, some message, none)
  | .otherError =>
    claim.maxAttempts ≤ claim.attempts ∧
      job.verdict = (.failed, some "internal error during ingestion", none)

instance (claim : ClaimedJob) (job : IngestionJob) (outcome : Outcome) :
    Decidable (outcome.Confirms claim job) := by
  cases outcome <;> unfold Outcome.Confirms <;> infer_instance

namespace Queue

/-- A worker finishes a job that nobody has finished, or confirms what is stored. -/
def FinishesOnce (queue : Queue) : QueueEvent → Prop
  | .finish worker outcome =>
    ∀ claim ∈ queue.held.find? worker, ∀ job ∈ queue.jobs.find? claim.jobId,
      job.status.done = true → outcome.Confirms claim job
  | _ => True

instance (queue : Queue) (event : QueueEvent) : Decidable (queue.FinishesOnce event) :=
  match event with
  | .finish worker outcome => inferInstanceAs (Decidable
      (∀ claim ∈ queue.held.find? worker, ∀ job ∈ queue.jobs.find? claim.jobId,
        job.status.done = true → outcome.Confirms claim job))
  | .submit .. => .isTrue trivial
  | .claim .. => .isTrue trivial
  | .crash _ => .isTrue trivial
  | .wait _ => .isTrue trivial

/-- A job that is finished somewhere along the run has the same verdict ever after. -/
def KeepsVerdicts (events : List QueueEvent) : Prop :=
  ∀ past middle future earlier later, events = past ++ (middle ++ future) →
    system.exec .empty past = some earlier → system.exec earlier middle = some later →
      ∀ jobId job, earlier.jobs.find? jobId = some job → job.status.done = true →
        ∃ job', later.jobs.find? jobId = some job' ∧ job'.verdict = job.verdict

theorem confirms_iff {claim : ClaimedJob} {job : IngestionJob} {outcome : Outcome} {now : Time}
    (done : job.status.done = true) :
    (job.finished now (claim.finish outcome)).verdict = job.verdict ↔
      outcome.Confirms claim job := by
  cases outcome with
  | success result => exact eq_comm
  | inputError message => exact eq_comm
  | otherError =>
      simp only [ClaimedJob.finish, Outcome.Confirms]
      split
      · rename_i retries
        constructor
        · intro same
          have requeued : JobStatus.queued = job.status := congrArg Prod.fst same
          rw [← requeued] at done
          cases done
        · intro confirms
          omega
      · rename_i exhausted
        constructor
        · intro same
          exact ⟨Nat.le_of_not_lt exhausted, same.symm⟩
        · intro confirms
          exact confirms.2.symm

/-- The job is finished with this verdict. -/
def Decided (jobId : String) (verdict : JobStatus × Option String × Option JobResult)
    (queue : Queue) : Prop :=
  queue.WellFormed ∧ verdict.1.done = true ∧
    ∃ job, queue.jobs.find? jobId = some job ∧ job.verdict = verdict

theorem Decided.step {jobId : String} {verdict : JobStatus × Option String × Option JobResult}
    {queue queue' : Queue} {event : QueueEvent} (decided : Decided jobId verdict queue)
    (once : queue.FinishesOnce event) (taken : queue.step event = some queue') :
    Decided jobId verdict queue' := by
  obtain ⟨wellFormed, done, job, found, stored⟩ := decided
  have move := step_move wellFormed taken
  obtain ⟨job', found'⟩ := move.row_stays found
  refine ⟨wellFormed.step taken, done, job', found', ?_⟩
  have status : job.status.done = true := (congrArg (·.1.done) stored).trans done
  rcases move.row found' with same | ⟨_, _, _, fresh, _⟩ | ⟨_, _, old, _, same, claimable, _⟩ |
    ⟨worker, outcome, claim, old, rfl, holds, own, same, rfl⟩
  · rw [found] at same
    obtain rfl := Option.some.inj same
    exact stored
  · rw [found] at fresh
    cases fresh
  · -- a finished job is neither queued nor running
    rw [found] at same
    obtain rfl := Option.some.inj same
    cases waiting : job.status <;>
      simp [IngestionJob.claimable, JobStatus.done, waiting] at claimable status
  · rw [found] at same
    obtain rfl := Option.some.inj same
    have confirms := once claim holds job (own ▸ found) status
    exact ((confirms_iff status).mpr confirms).trans stored

/-- Finished jobs stay finished along exactly the runs that finish no job twice with
different verdicts. -/
theorem keepsVerdicts_iff (events : List QueueEvent) (queue : Queue)
    (ran : system.exec .empty events = some queue) :
    KeepsVerdicts events ↔ system.Meets FinishesOnce .empty events := by
  constructor
  · intro keeps
    apply System.meets_of_forall
    intro past event future earlier split before
    cases event with
    | finish worker outcome =>
        intro claim holds job found done
        subst split
        obtain ⟨middle, before', after⟩ := System.exec_append.mp ran
        rw [before] at before'
        obtain rfl := Option.some.inj before'
        obtain ⟨later, taken, _⟩ := System.exec_cons.mp after
        have wellFormed : earlier.WellFormed :=
          System.exec_preserves WellFormed (fun _ _ _ holds step => holds.step step) before .empty
        have alone : system.exec earlier [.finish worker outcome] = some later :=
          System.exec_cons.mpr ⟨later, taken, rfl⟩
        obtain ⟨job', found', same⟩ := keeps past [.finish worker outcome] future earlier later
          rfl before alone claim.jobId job found done
        have move : Move earlier (.finish worker outcome) later := step_move wellFormed taken
        cases move with
        | finish holds' present =>
            rw [holds] at holds'
            obtain rfl := Option.some.inj holds'
            rw [Table.find?_modify_self, found] at found'
            obtain rfl := Option.some.inj found'
            exact (confirms_iff done).mp same
    | _ => trivial
  · intro meets past middle future earlier later split before between jobId job found done
    subst split
    have wellFormed : earlier.WellFormed :=
      System.exec_preserves WellFormed (fun _ _ _ holds step => holds.step step) before .empty
    have once := ((System.meets_append before).mp meets).2
    have during := ((System.meets_append between).mp once).1
    have decided : Decided jobId job.verdict later :=
      System.exec_keeps (Decided jobId job.verdict)
        (fun _ _ _ decided once taken => decided.step once taken) between during
        ⟨wellFormed, done, job, found, rfl⟩
    exact decided.2.2

/-- Worker 1 holds a job for longer than its lease, worker 2 takes it over and completes
it, and then worker 1 comes back. -/
def takenOver (result : JobResult) (late : Outcome) : List QueueEvent :=
  [.submit "j" "t" (notesJob [1]), .claim 1 "j" [], .wait (lease + 1), .claim 2 "j" [],
    .finish 2 (.success result), .finish 1 late]

def storedNotes : JobResult where
  documentId := "d"
  sourceSystem := "upload"
  sourceId := "n"
  contentSha256 := "01"
  contentType := "text/plain"
  version := 1
  superseded := []
  chunksCreated := 1
  alreadyExisted := false
  unchanged := false

/-- The late retry puts the completed job back in the queue, without its bytes. -/
theorem late_retry_reopens :
    (system.exec .empty (takenOver storedNotes .otherError)).isSome = true ∧
      ¬ KeepsVerdicts (takenOver storedNotes .otherError) := by
  refine ⟨by decide +kernel, fun keeps => ?_⟩
  let past := (takenOver storedNotes .otherError).take 5
  have completed : ((after past).jobs.find? "j").map (·.verdict) =
      some (.completed, none, some storedNotes) := by decide +kernel
  have reopened : ((after (takenOver storedNotes .otherError)).jobs.find? "j").map (·.verdict) =
      some (.queued, some "retrying after an internal error", none) := by decide +kernel
  obtain ⟨job, found, stored⟩ := Option.map_eq_some_iff.mp completed
  have done : job.status.done = true := congrArg (·.1.done) stored
  obtain ⟨job', found', same⟩ := keeps past [.finish 1 .otherError] [] (after past)
    (after (takenOver storedNotes .otherError)) rfl (by decide +kernel) (by decide +kernel)
    "j" job found done
  rw [found', Option.map_some, same, stored] at reopened
  exact absurd reopened (by decide)

/-- The same take-over, but the late worker comes back with the stored result. -/
theorem late_confirmation_keeps :
    KeepsVerdicts (takenOver storedNotes (.success storedNotes)) :=
  (keepsVerdicts_iff _ (after (takenOver storedNotes (.success storedNotes)))
    (by decide +kernel)).mpr (by decide +kernel)

end Queue

end ProductionRag
