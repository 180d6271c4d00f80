import ProductionRag.Queue.Attempts

/-!
# Leases

A claim is a lease of ten minutes.  The claim query respects it; `_finish` may not,
since a worker that lost its lease can put the job back in the queue while another
holds it.  Leases exclude each other while every such retry waits them out, and every
retry does when handlers finish within their lease.
-/

set_option autoImplicit false

namespace ProductionRag

open Basis

namespace Queue

/-- The claims nobody has finished, but for the worker's own. -/
def others (queue : Queue) (worker : Nat) : List ClaimedJob :=
  (queue.held.erase worker).entries.map Prod.snd ++ queue.abandoned

theorem mem_others {queue : Queue} {worker : Nat} {claim : ClaimedJob} :
    claim ∈ queue.others worker ↔
      (∃ other, other ≠ worker ∧ queue.held.find? other = some claim) ∨
        claim ∈ queue.abandoned := by
  rw [others, List.mem_append, List.mem_map]
  refine or_congr_left ⟨fun held => ?_, fun held => ?_⟩
  · obtain ⟨⟨other, value⟩, member, rfl⟩ := held
    have found := Table.find?_eq_some_iff.mpr member
    rw [Table.find?_erase] at found
    split at found
    · cases found
    · rename_i different
      exact ⟨other, different, found⟩
  · obtain ⟨other, different, found⟩ := held
    refine ⟨(other, claim), Table.find?_eq_some_iff.mp ?_, rfl⟩
    rw [Table.find?_erase, if_neg different, found]

theorem outstanding_of_mem_others {queue : Queue} {worker : Nat} {claim : ClaimedJob}
    (member : claim ∈ queue.others worker) : queue.Outstanding claim := by
  rcases mem_others.mp member with held | crashed
  · obtain ⟨other, _, found⟩ := held
    exact .inl ⟨other, found⟩
  · exact .inr crashed

/-- A retry is due after every other lease of the job is over. -/
def OutlastsLeases (queue : Queue) : QueueEvent → Prop
  | .finish worker .otherError =>
    ∀ claim ∈ queue.held.find? worker, claim.attempts < claim.maxAttempts →
      ∀ other ∈ queue.others worker, other.jobId = claim.jobId →
        other.claimedAt + lease < queue.now + 2 ^ claim.attempts * microsecondsPerSecond
  | _ => True

instance (queue : Queue) (event : QueueEvent) : Decidable (queue.OutlastsLeases event) :=
  match event with
  | .finish worker .otherError => inferInstanceAs (Decidable
      (∀ claim ∈ queue.held.find? worker, claim.attempts < claim.maxAttempts →
        ∀ other ∈ queue.others worker, other.jobId = claim.jobId →
          other.claimedAt + lease < queue.now + 2 ^ claim.attempts * microsecondsPerSecond))
  | .finish _ (.success _) => .isTrue trivial
  | .finish _ (.inputError _) => .isTrue trivial
  | .submit .. => .isTrue trivial
  | .claim .. => .isTrue trivial
  | .crash _ => .isTrue trivial
  | .wait _ => .isTrue trivial

/-- The row protects the lease: it is due after it, or locked since it began. -/
def Protects (claim : ClaimedJob) (job : IngestionJob) : Prop :=
  (job.status = .queued → claim.claimedAt + lease < job.runAfter) ∧
    (job.status = .running →
      ∃ lockedAt, job.lockedAt = some lockedAt ∧ claim.claimedAt ≤ lockedAt)

theorem Protects.of_done {claim : ClaimedJob} {job : IngestionJob}
    (done : job.status.done = true) : Protects claim job := by
  constructor
  · intro queued
    rw [queued] at done
    cases done
  · intro running
    rw [running] at done
    cases done

/-- One of two leases was over when the other began. -/
def Apart (left right : ClaimedJob) : Prop :=
  left.claimedAt + lease < right.claimedAt ∨ right.claimedAt + lease < left.claimedAt

structure Exclusive (queue : Queue) : Prop where
  wellFormed : queue.WellFormed
  protects : ∀ claim, queue.Outstanding claim →
    ∀ job, queue.jobs.find? claim.jobId = some job → Protects claim job
  apart : ∀ worker claim, queue.held.find? worker = some claim →
    ∀ other ∈ queue.others worker, other.jobId = claim.jobId → Apart claim other

theorem Protects.expired {claim : ClaimedJob} {job : IngestionJob} {now : Time}
    (protects : Protects claim job) (claimable : job.claimable now = true) :
    claim.claimedAt + lease < now := by
  simp only [IngestionJob.claimable, Bool.or_eq_true, Bool.and_eq_true, beq_iff_eq,
    decide_eq_true_eq] at claimable
  rcases claimable with ⟨queued, due⟩ | ⟨running, expired⟩
  · exact Nat.lt_of_lt_of_le (protects.1 queued) due
  · obtain ⟨lockedAt, locked, since⟩ := protects.2 running
    rw [locked, Option.any_some, decide_eq_true_eq] at expired
    exact Nat.lt_of_le_of_lt (Nat.add_le_add_right since _) expired

/-- Who holds what after a step, seen from one worker. -/
theorem Move.apart {queue queue' : Queue} {event : QueueEvent} (move : Move queue event queue')
    (before : ∀ worker claim, queue.held.find? worker = some claim →
      ∀ other ∈ queue.others worker, other.jobId = claim.jobId → Apart claim other)
    (expired : ∀ worker jobId locked job, event = .claim worker jobId locked →
      queue.jobs.find? jobId = some job → job.claimable queue.now = true →
        ∀ other, queue.Outstanding other → other.jobId = jobId →
          other.claimedAt + lease < queue.now) :
    ∀ worker claim, queue'.held.find? worker = some claim →
      ∀ other ∈ queue'.others worker, other.jobId = claim.jobId → Apart claim other := by
  intro worker claim held other beside same
  cases move with
  | submit => exact before worker claim held other beside same
  | wait => exact before worker claim held other beside same
  | @claim actor jobId locked job idle found claimable =>
      have ended := expired actor jobId locked job rfl found claimable
      have older : ∀ holder, holder ≠ worker →
          (queue.held.set actor (job.claim jobId queue.now)).find? holder = some other →
            holder ≠ actor → other ∈ queue.others worker := by
        intro holder different present distinct
        rw [Table.find?_set, if_neg distinct] at present
        exact mem_others.mpr (.inl ⟨holder, different, present⟩)
      rw [Table.find?_set] at held
      split at held
      · -- the new claim, beside older ones
        rename_i isActor
        obtain rfl := Option.some.inj held
        have outstanding : queue.Outstanding other := by
          rcases mem_others.mp beside with ⟨holder, different, present⟩ | crashed
          · exact outstanding_of_mem_others (older holder different present (isActor ▸ different))
          · exact .inr crashed
        exact .inr (ended other outstanding same)
      · rcases mem_others.mp beside with ⟨holder, different, present⟩ | crashed
        · by_cases isActor : holder = actor
          · -- an older claim, beside the new one
            rw [Table.find?_set, if_pos isActor] at present
            obtain rfl := Option.some.inj present
            exact .inl (ended claim (.inl ⟨worker, held⟩) same.symm)
          · exact before worker claim held other (older holder different present isActor) same
        · exact before worker claim held other (mem_others.mpr (.inr crashed)) same
  | @finish actor outcome own job holds found =>
      rw [Table.find?_erase] at held
      split at held
      · cases held
      · refine before worker claim held other (mem_others.mpr ?_) same
        rcases mem_others.mp beside with ⟨holder, different, present⟩ | crashed
        · rw [Table.find?_erase] at present
          split at present
          · cases present
          · exact .inl ⟨holder, different, present⟩
        · exact .inr crashed
  | @crash actor own holds =>
      rw [Table.find?_erase] at held
      split at held
      · cases held
      · rename_i notActor
        refine before worker claim held other (mem_others.mpr ?_) same
        rcases mem_others.mp beside with ⟨holder, different, present⟩ | crashed
        · rw [Table.find?_erase] at present
          split at present
          · cases present
          · exact .inl ⟨holder, different, present⟩
        · rcases List.mem_cons.mp crashed with rfl | earlier
          · exact .inl ⟨actor, Ne.symm notActor, holds⟩
          · exact .inr earlier

theorem Exclusive.empty : Queue.empty.Exclusive where
  wellFormed := .empty
  protects := by
    intro claim outstanding job found
    cases found
  apart := by
    intro worker claim held
    cases held

theorem Exclusive.expired {queue : Queue} (exclusive : queue.Exclusive) {jobId : String}
    {job : IngestionJob} (found : queue.jobs.find? jobId = some job)
    (claimable : job.claimable queue.now = true) {other : ClaimedJob}
    (outstanding : queue.Outstanding other) (same : other.jobId = jobId) :
    other.claimedAt + lease < queue.now :=
  (exclusive.protects other outstanding job (same ▸ found)).expired claimable

theorem outstanding_of_finish {queue : Queue} {worker : Nat} {jobs : IngestionJobs}
    {claim : ClaimedJob} (beside : claim ∈ queue.others worker) :
    ({ queue with jobs, held := queue.held.erase worker } : Queue).Outstanding claim := by
  rcases mem_others.mp beside with ⟨holder, different, present⟩ | crashed
  · refine .inl ⟨holder, ?_⟩
    rw [Table.find?_erase, if_neg different, present]
  · exact .inr crashed

/-- The claims that are left when a worker finishes its own. -/
theorem mem_others_of_finish {queue : Queue} {worker : Nat} {jobs : IngestionJobs}
    {claim : ClaimedJob}
    (outstanding :
      ({ queue with jobs, held := queue.held.erase worker } : Queue).Outstanding claim) :
    claim ∈ queue.others worker := by
  apply mem_others.mpr
  rcases outstanding with ⟨holder, present⟩ | crashed
  · rw [Table.find?_erase] at present
    split at present
    · cases present
    · rename_i different
      exact .inl ⟨holder, different, present⟩
  · exact .inr crashed

theorem Exclusive.step {queue queue' : Queue} {event : QueueEvent} (exclusive : queue.Exclusive)
    (outlasts : queue.OutlastsLeases event) (taken : queue.step event = some queue') :
    queue'.Exclusive := by
  have move := step_move exclusive.wellFormed taken
  refine ⟨exclusive.wellFormed.step taken, ?_, move.apart exclusive.apart ?_⟩
  · intro claim outstanding job' found'
    have past : claim.claimedAt ≤ queue'.now :=
      ((exclusive.wellFormed.step taken).claims claim outstanding).1
    rcases move.row found' with same | ⟨_, _, rfl, fresh, _⟩ | ⟨_, _, job, rfl, _, _, rfl⟩ |
      ⟨worker, outcome, own, job, rfl, holds, isOwn, found, rfl⟩
    · rcases move.outstanding outstanding with before | ⟨_, _, job, rfl, found, _, _⟩
      · exact exclusive.protects claim before job' same
      · -- the row of a job that was just claimed is not the old one
        cases move with
        | claim idle present claimable =>
            rw [Table.find?_modify_self, found, Option.map_some] at found'
            rw [found] at same
            have unchanged : job.attempts + 1 = job.attempts :=
              congrArg IngestionJob.attempts
                ((Option.some.inj found').trans (Option.some.inj same).symm)
            omega
    · rcases move.outstanding outstanding with before | ⟨_, _, _, isClaim, _⟩
      · obtain ⟨_, job, found, _⟩ := exclusive.wellFormed.claims claim before
        rw [fresh] at found
        cases found
      · cases isClaim
    · cases move with
      | claim =>
          refine ⟨fun queued => ?_, fun _ => ⟨queue.now, rfl, past⟩⟩
          cases queued
    · cases move with
      | finish holds' =>
          rw [holds] at holds'
          obtain rfl := Option.some.inj holds'
          have beside := mem_others_of_finish outstanding
          cases outcome with
          | success result => exact .of_done rfl
          | inputError message => exact .of_done rfl
          | otherError =>
              by_cases retries : own.attempts < own.maxAttempts
              · have due := outlasts own holds retries claim beside isOwn.symm
                simp only [Protects, IngestionJob.finished, ClaimedJob.finish, if_pos retries]
                refine ⟨fun _ => due, fun running => ?_⟩
                cases running
              · simp only [IngestionJob.finished, ClaimedJob.finish, if_neg retries]
                exact .of_done rfl
  · intro worker jobId locked job isClaim found claimable other outstanding same
    exact exclusive.expired found claimable outstanding same

/-- Along every run whose retries wait out the other leases, no two workers hold one job
within ten minutes of their claims, and a claim only returns a job that nobody claimed
and left unfinished in the last ten minutes. -/
theorem leases_exclude (queue : Queue) (reached : system.Reachable OutlastsLeases queue) :
    (∀ worker other claim claim', worker ≠ other → queue.held.find? worker = some claim →
      queue.held.find? other = some claim' → claim.jobId = claim'.jobId →
        ¬ (queue.now ≤ claim.claimedAt + lease ∧ queue.now ≤ claim'.claimedAt + lease)) ∧
    ∀ worker jobId locked queue', queue.step (.claim worker jobId locked) = some queue' →
      ∀ claim, queue.Outstanding claim → claim.jobId = jobId →
        claim.claimedAt + lease < queue.now := by
  have exclusive : queue.Exclusive :=
    reached.invariant Exclusive .empty fun _ _ _ exclusive outlasts taken =>
      exclusive.step outlasts taken
  constructor
  · intro worker other claim claim' different held held' same young
    have past := (exclusive.wellFormed.claims claim (.inl ⟨worker, held⟩)).1
    have past' := (exclusive.wellFormed.claims claim' (.inl ⟨other, held'⟩)).1
    have beside : claim' ∈ queue.others worker :=
      mem_others.mpr (.inl ⟨other, Ne.symm different, held'⟩)
    rcases exclusive.apart worker claim held claim' beside same.symm with first | second
    · exact absurd (Nat.le_trans past' young.1) (Nat.not_le_of_lt first)
    · exact absurd (Nat.le_trans past young.2) (Nat.not_le_of_lt second)
  · intro worker jobId locked queue' taken claim outstanding same
    have move : Move queue (.claim worker jobId locked) queue' :=
      step_move exclusive.wellFormed taken
    cases move with
    | claim idle found claimable => exact exclusive.expired found claimable outstanding same

/-- After a retry that is due within another lease, the run can go on to hand the job out
within that lease. -/
theorem shares_of_not_outlastsLeases {queue queue' : Queue} {event : QueueEvent}
    (wellFormed : queue.WellFormed) (early : ¬ queue.OutlastsLeases event)
    (taken : queue.step event = some queue') :
    ∃ microseconds later worker jobId locked shared,
      queue'.step (.wait microseconds) = some later ∧
        later.step (.claim worker jobId locked) = some shared ∧
          ∃ claim, later.Outstanding claim ∧ claim.jobId = jobId ∧
            later.now ≤ claim.claimedAt + lease := by
  have move := step_move wellFormed taken
  cases move with
  | @finish worker outcome claim job holds found =>
      cases outcome with
      | otherError =>
          simp only [OutlastsLeases, holds, Option.mem_def, Option.some.injEq, forall_eq',
            not_forall] at early
          obtain ⟨retries, other, beside, same, early⟩ := early
          let row := job.finished queue.now (claim.finish .otherError)
          let left : Queue :=
            { queue with
              jobs := queue.jobs.modify claim.jobId
                (IngestionJob.finished queue.now (claim.finish .otherError))
              held := queue.held.erase worker }
          have queued : row.status = .queued := by
            simp only [row, IngestionJob.finished, ClaimedJob.finish, if_pos retries]
          have due : row.runAfter = queue.now + 2 ^ claim.attempts * microsecondsPerSecond := by
            simp only [row, IngestionJob.finished, ClaimedJob.finish, if_pos retries]
          have present : left.jobs.find? claim.jobId = some row := by
            rw [Table.find?_modify_self, found]
            rfl
          obtain ⟨worker', locked, shared, taken', _⟩ :=
            queued_claimed left claim.jobId row present queued
          refine ⟨row.runAfter - left.now, left.whenDue row, worker', claim.jobId, locked, shared,
            left.step_wait_whenDue row, taken', other, ?_, same, ?_⟩
          · rw [whenDue_outstanding]
            exact outstanding_of_finish beside
          · have later : left.now ≤ row.runAfter := by
              rw [due]
              exact Nat.le_add_right _ _
            rw [left.whenDue_now row later, due]
            exact Nat.le_of_not_lt early
      | success result => exact absurd trivial early
      | inputError message => exact absurd trivial early
  | submit => exact absurd trivial early
  | claim => exact absurd trivial early
  | crash => exact absurd trivial early
  | wait => exact absurd trivial early

/-! ## Handlers that finish within their lease -/

/-- A worker finishes within ten minutes of its claim. -/
def Timely (queue : Queue) : QueueEvent → Prop
  | .finish worker _ =>
    ∀ claim ∈ queue.held.find? worker, queue.now ≤ claim.claimedAt + lease
  | _ => True

/-- A job whose lease runs is in the hands of the worker that claimed it. -/
def Owned (queue : Queue) : Prop :=
  ∀ claim, queue.Outstanding claim → queue.now ≤ claim.claimedAt + lease →
    ∀ job, queue.jobs.find? claim.jobId = some job →
      job.status = .running ∧ job.lockedAt = some claim.claimedAt

theorem Timely.outlastsLeases {queue : Queue} {event : QueueEvent} (exclusive : queue.Exclusive)
    (timely : queue.Timely event) : queue.OutlastsLeases event := by
  cases event with
  | finish worker outcome =>
      cases outcome with
      | otherError =>
          intro claim holds _ other beside same
          have young := timely claim holds
          have past := (exclusive.wellFormed.claims other (outstanding_of_mem_others beside)).1
          have past' := (exclusive.wellFormed.claims claim (.inl ⟨worker, holds⟩)).1
          rcases exclusive.apart worker claim holds other beside same with first | second
          · exact absurd (Nat.le_trans past young) (Nat.not_le_of_lt first)
          · exact Nat.lt_of_lt_of_le second (Nat.le_trans past' (Nat.le_add_right _ _))
      | success result => trivial
      | inputError message => trivial
  | _ => trivial

theorem Owned.step {queue queue' : Queue} {event : QueueEvent} (owned : queue.Owned)
    (exclusive : queue.Exclusive) (timely : queue.Timely event)
    (taken : queue.step event = some queue') : queue'.Owned := by
  have move := step_move exclusive.wellFormed taken
  intro claim outstanding young job' found'
  have young' : queue.now ≤ claim.claimedAt + lease := Nat.le_trans move.now_le young
  rcases move.outstanding outstanding with before | ⟨worker, locked, job, rfl, found, _, same⟩
  · obtain ⟨_, job, found, _⟩ := exclusive.wellFormed.claims claim before
    have held := owned claim before young' job found
    rcases move.row found' with unchanged | ⟨_, _, _, fresh, _⟩ |
      ⟨_, _, old, _, present, claimable, _⟩ |
      ⟨worker, outcome, own, old, rfl, holds, isOwn, present, _⟩
    · rw [found] at unchanged
      obtain rfl := Option.some.inj unchanged
      exact held
    · rw [found] at fresh
      cases fresh
    · -- the claim query waits for the lease
      have ended := exclusive.expired present claimable before rfl
      exact absurd young' (Nat.not_le_of_lt ended)
    · -- whoever finishes the job in time holds the only lease on it
      cases move with
      | finish holds' =>
          rw [holds] at holds'
          obtain rfl := Option.some.inj holds'
          have beside := mem_others_of_finish outstanding
          have past := (exclusive.wellFormed.claims claim before).1
          have past' := (exclusive.wellFormed.claims own (.inl ⟨worker, holds⟩)).1
          have inTime := timely own holds
          rcases exclusive.apart worker own holds claim beside isOwn.symm with first | second
          · exact absurd (Nat.le_trans past inTime) (Nat.not_le_of_lt first)
          · exact absurd (Nat.le_trans past' young') (Nat.not_le_of_lt second)
  · cases move with
    | claim =>
        rw [Table.find?_modify_self, found] at found'
        obtain rfl := Option.some.inj found'
        rw [same]
        exact ⟨rfl, rfl⟩

theorem timely_exclusive_owned {queue : Queue} (reached : system.Reachable Timely queue) :
    queue.Exclusive ∧ queue.Owned := by
  refine reached.invariant (fun queue => queue.Exclusive ∧ queue.Owned) ⟨.empty, ?_⟩ ?_
  · intro claim outstanding
    rcases outstanding with ⟨_, held⟩ | crashed
    · cases held
    · cases crashed
  · intro queue event queue' holds timely taken
    exact ⟨holds.1.step (timely.outlastsLeases holds.1) taken, holds.2.step holds.1 timely taken⟩

/-- Workers that finish in time finish no job twice, and their retries wait out every
other lease. -/
theorem timely_finishes_once {queue : Queue} (reached : system.Reachable Timely queue)
    {event : QueueEvent} (timely : queue.Timely event) :
    queue.FinishesOnce event ∧ queue.OutlastsLeases event := by
  obtain ⟨exclusive, owned⟩ := timely_exclusive_owned reached
  refine ⟨?_, timely.outlastsLeases exclusive⟩
  cases event with
  | finish worker outcome =>
      intro claim holds job found done
      have running := (owned claim (.inl ⟨worker, holds⟩) (timely claim holds) job found).1
      rw [running] at done
      cases done
  | _ => trivial

/-! ## Two runs -/

/-- Worker 1 holds a job for longer than its lease and worker 2 takes it over; then
`requeuing` fails, and worker 3 claims the job after the back-off. -/
def requeued (requeuing : Nat) : List QueueEvent :=
  [.submit "j" "t" (notesJob [1]), .claim 1 "j" [], .wait (lease + 1), .claim 2 "j" [],
    .finish requeuing .otherError, .wait (4 * microsecondsPerSecond), .claim 3 "j" []]

/-- The late retry of worker 1 hands the job to worker 3 in the lease of worker 2. -/
theorem late_retry_shares_lease :
    system.exec .empty (requeued 1) = some (after (requeued 1)) ∧
      ∃ claim claim', (after (requeued 1)).held.find? 2 = some claim ∧
        (after (requeued 1)).held.find? 3 = some claim' ∧ claim.jobId = claim'.jobId ∧
          (after (requeued 1)).now < claim.claimedAt + lease ∧
          (after (requeued 1)).now < claim'.claimedAt + lease := by
  refine ⟨by decide +kernel, ?_⟩
  let claim : ClaimedJob := ⟨"j", "t", notesJob [1], 2, 3, lease + 1⟩
  let claim' : ClaimedJob :=
    ⟨"j", "t", notesJob [1], 3, 3, lease + 1 + 4 * microsecondsPerSecond⟩
  refine ⟨claim, claim', ?_, ?_, rfl, ?_, ?_⟩ <;> decide +kernel

/-- When worker 2 fails instead, workers 1 and 3 hold the job, but only one lease runs. -/
theorem own_retry_excludes :
    ∃ claim claim', (after (requeued 2)).held.find? 1 = some claim ∧
      (after (requeued 2)).held.find? 3 = some claim' ∧
        ¬ ((after (requeued 2)).now ≤ claim.claimedAt + lease ∧
          (after (requeued 2)).now ≤ claim'.claimedAt + lease) := by
  let claim : ClaimedJob := ⟨"j", "t", notesJob [1], 1, 3, 0⟩
  let claim' : ClaimedJob :=
    ⟨"j", "t", notesJob [1], 3, 3, lease + 1 + 4 * microsecondsPerSecond⟩
  have held : (after (requeued 2)).held.find? 1 = some claim := by decide +kernel
  have held' : (after (requeued 2)).held.find? 3 = some claim' := by decide +kernel
  exact ⟨claim, claim', held, held', (leases_exclude (after (requeued 2))
    ⟨requeued 2, by decide +kernel, by decide +kernel⟩).1 1 3 claim claim' (by decide) held held'
    rfl⟩

end Queue

end ProductionRag
