import ProductionRag.Basis.System
import ProductionRag.Api.Tenants

/-!
# The worker thread

`IngestionWorker` runs inside the server.  A request thread registers its job under the
lock and puts it in the queue afterwards; the worker thread takes the head of the queue,
reports the job as running, calls the handler and reports how that ended.  Each of these is
a step of its own here, and the steps of all threads interleave.  `stop` puts a marker at
which the worker thread returns.
-/

set_option autoImplicit false

namespace ProductionRag

open Basis

/-- What `queue.Queue` holds: a job, or the marker of `stop`. -/
abbrev QueueItem := Option (String × DocumentJob)

/-- Where `_run` is. -/
inductive WorkerThread where
  | waiting
  | took (jobId : String) (payload : DocumentJob)
  | handling (jobId : String) (payload : DocumentJob)
  | handled (jobId : String) (outcome : Outcome)
  | returned
  /-- `_update` raised. -/
  | died

structure WorkerProcess where
  jobs : Table String MemoryJob
  queue : List QueueItem
  /-- The jobs between `_jobs[job.id] = job` and `_queue.put`. -/
  submitting : Table String DocumentJob
  thread : WorkerThread

/-- A step of a request thread or of the worker thread; it names what it moves. -/
inductive WorkerEvent where
  | register (jobId tenantId : String) (now : Time) (payload : DocumentJob)
  | put (jobId : String)
  | stop
  | take
  | run (now : Time)
  | handle (jobId : String) (outcome : Outcome)
  | report (now : Time)

namespace WorkerProcess

def empty : WorkerProcess where
  jobs := .empty
  queue := []
  submitting := .empty
  thread := .waiting

/-- `_update` -/
def update (jobs : Table String MemoryJob) (jobId : String) (change : MemoryJob → MemoryJob) :
    Except PyError (Table String MemoryJob) :=
  match jobs.find? jobId with
  | none => .error (.keyError jobId)
  | some job => .ok (jobs.set jobId (change job))

/-- The worker thread goes on, unless `_update` raises. -/
def updated (process : WorkerProcess) (jobId : String) (change : MemoryJob → MemoryJob)
    (thread : WorkerThread) : WorkerProcess :=
  match update process.jobs jobId change with
  | .error _ => { process with thread := .died }
  | .ok jobs => { process with jobs, thread }

def step (process : WorkerProcess) : WorkerEvent → Option WorkerProcess
  | .register jobId tenantId now payload =>
    if (process.submitting.find? jobId).isSome then none
    else some { process with
      jobs := process.jobs.set jobId { jobId, tenantId, createdAt := now, updatedAt := now }
      submitting := process.submitting.set jobId payload }
  | .put jobId =>
    (process.submitting.find? jobId).map fun payload => { process with
      queue := process.queue ++ [some (jobId, payload)]
      submitting := process.submitting.erase jobId }
  | .stop => some { process with queue := process.queue ++ [none] }
  | .take =>
    match process.thread, process.queue with
    | .waiting, some (jobId, payload) :: rest =>
      some { process with queue := rest, thread := .took jobId payload }
    | .waiting, none :: rest => some { process with queue := rest, thread := .returned }
    | _, _ => none
  | .run now =>
    match process.thread with
    | .took jobId payload => some (process.updated jobId
        (fun job => { job with status := "running", updatedAt := now }) (.handling jobId payload))
    | _ => none
  | .handle jobId outcome =>
    match process.thread with
    | .handling held _ =>
      if held = jobId then some { process with thread := .handled jobId outcome } else none
    | _ => none
  | .report now =>
    match process.thread with
    | .handled jobId outcome =>
      some (process.updated jobId (fun job => job.reported now outcome) .waiting)
    | _ => none

def system : System WorkerProcess WorkerEvent := ⟨.empty, step⟩

/-- `uuid4` has not given the id before. -/
def FreshJob (process : WorkerProcess) : WorkerEvent → Prop
  | .register jobId _ _ _ => process.jobs.find? jobId = none
  | _ => True

instance (process : WorkerProcess) (event : WorkerEvent) :
    Decidable (process.FreshJob event) := by
  cases event <;> unfold FreshJob <;> infer_instance

end WorkerProcess

/-! ## Where a job is -/

/-- The job that is reported as running. -/
def WorkerThread.running : WorkerThread → Option String
  | .handling jobId _ => some jobId
  | .handled jobId _ => some jobId
  | _ => none

/-- The status, error and result of a job. -/
def MemoryJob.verdict (job : MemoryJob) : String × Option String × Option JobResult :=
  (job.status, job.error, job.result)

/-- How a job is reported whose handler has ended. -/
def Outcome.verdict : Outcome → String × Option String × Option JobResult
  | .success result => ("completed", none, some result)
  | .inputError message => ("failed", some message, none)
  | .otherError => ("failed", some "internal error during ingestion", none)

def MemoryJob.Ended (job : MemoryJob) : Prop := ∃ outcome : Outcome, job.verdict = outcome.verdict

theorem Outcome.verdict_status (outcome : Outcome) :
    outcome.verdict.1 = "completed" ∨ outcome.verdict.1 = "failed" := by
  cases outcome with
  | success result => exact Or.inl rfl
  | inputError message => exact Or.inr rfl
  | otherError => exact Or.inr rfl

theorem MemoryJob.verdict_reported {job : MemoryJob} (now : Time)
    (running : job.verdict = ("running", none, none)) (outcome : Outcome) :
    (job.reported now outcome).verdict = outcome.verdict := by
  have noError : job.error = none := congrArg (·.2.1) running
  have noResult : job.result = none := congrArg (·.2.2) running
  cases outcome with
  | success result => simp [MemoryJob.reported, MemoryJob.verdict, Outcome.verdict, noError]
  | inputError message => simp [MemoryJob.reported, MemoryJob.verdict, Outcome.verdict, noResult]
  | otherError => simp [MemoryJob.reported, MemoryJob.verdict, Outcome.verdict, noResult]

/-- The items between the queue and the end of the handler. -/
def WorkerThread.holding : WorkerThread → List (Option String)
  | .took jobId _ => [some jobId]
  | .handling jobId _ => [some jobId]
  | .returned => [none]
  | _ => []

/-- The items of a run's `put` steps, without payloads. -/
def putItems (events : List WorkerEvent) : List (Option String) :=
  events.filterMap fun
    | .put jobId => some (some jobId)
    | .stop => some none
    | _ => none

/-- The handlers that ended in a run. -/
def handledJobs (events : List WorkerEvent) : List (String × Outcome) :=
  events.filterMap fun
    | .handle jobId outcome => some (jobId, outcome)
    | _ => none

theorem putItems_append (past future : List WorkerEvent) :
    putItems (past ++ future) = putItems past ++ putItems future := List.filterMap_append

theorem handledJobs_append (past future : List WorkerEvent) :
    handledJobs (past ++ future) = handledJobs past ++ handledJobs future :=
  List.filterMap_append

/-- A job is reported as queued until its round, as running during it, and then for ever as its
handler ended. -/
def Reported (handled : List (String × Outcome)) (thread : WorkerThread) (jobId : String)
    (verdict : String × Option String × Option JobResult) : Prop :=
  (verdict = ("queued", none, none) ∧ thread.running ≠ some jobId ∧
      ∀ outcome, (jobId, outcome) ∉ handled) ∨
    (verdict = ("running", none, none) ∧ thread.running = some jobId) ∨
    thread.running ≠ some jobId ∧ ∃ outcome, (jobId, outcome) ∈ handled ∧
      verdict = outcome.verdict

namespace WorkerProcess

def submits (process : WorkerProcess) (jobId : String) : Nat :=
  if (process.submitting.find? jobId).isSome then 1 else 0

/-- What holds of the worker after a run that put some items and saw some handlers end. -/
structure Sound (puts : List (Option String)) (handled : List (String × Outcome))
    (process : WorkerProcess) : Prop where
  alive : process.thread ≠ .died
  /-- Nothing is lost, doubled or overtaken. -/
  inOrder : handled.map (fun entry => some entry.1) ++ process.thread.holding ++
    process.queue.map (Option.map Prod.fst) = puts
  /-- A job is put at most once, and only when registered. -/
  once : ∀ jobId, puts.count (some jobId) + process.submits jobId ≤
    if (process.jobs.find? jobId).isSome then 1 else 0
  /-- The job that is to be reported is the one whose handler ended. -/
  noted : ∀ jobId outcome, process.thread = .handled jobId outcome → (jobId, outcome) ∈ handled
  reported : ∀ jobId job, process.jobs.find? jobId = some job →
    Reported handled process.thread jobId job.verdict

theorem sound_empty : Sound [] [] .empty where
  alive := nofun
  inOrder := rfl
  once _ := Nat.le_refl 0
  noted _ _ ended := nomatch ended
  reported _ _ found := nomatch found

variable {puts : List (Option String)} {handled : List (String × Outcome)}
variable {process next : WorkerProcess}

section Consequences

variable (sound : process.Sound puts handled) {jobId : String}
include sound

/-- A job is in one place at most. -/
theorem Sound.counts (jobId : String) :
    (handled.map Prod.fst).count jobId + process.thread.holding.count (some jobId) +
        (process.queue.map (Option.map Prod.fst)).count (some jobId) + process.submits jobId ≤
      if (process.jobs.find? jobId).isSome then 1 else 0 := by
  have once := sound.once jobId
  have counted : (handled.map fun entry => some entry.1).count (some jobId) =
      (handled.map Prod.fst).count jobId := by
    rw [← List.count_map_of_injective (handled.map Prod.fst) some (Option.some_injective _),
      List.map_map]
    rfl
  rwa [← sound.inOrder, List.count_append, List.count_append, counted] at once

theorem Sound.nodup : (handled.map Prod.fst).Nodup := by
  rw [List.nodup_iff_count_le_one]
  intro jobId
  have counts := sound.counts jobId
  split at counts <;> omega

theorem Sound.handled_count {outcome : Outcome} (member : (jobId, outcome) ∈ handled) :
    (handled.map Prod.fst).count jobId = 1 :=
  List.count_eq_one_of_mem sound.nodup (List.mem_map_of_mem member)

/-- The handler of a job ended in one way. -/
theorem Sound.outcome_unique {left right : Outcome} (first : (jobId, left) ∈ handled)
    (second : (jobId, right) ∈ handled) : left = right :=
  congrArg Prod.snd (List.inj_on_of_nodup_map sound.nodup first second rfl)

/-- A job that is held has not been handled. -/
theorem Sound.fresh_of_holding (held : process.thread.holding = [some jobId])
    (outcome : Outcome) : (jobId, outcome) ∉ handled := by
  intro member
  have counts := sound.counts jobId
  rw [held, List.count_singleton_self, sound.handled_count member] at counts
  split at counts <;> omega

theorem Sound.registered_of_holding (held : process.thread.holding = [some jobId]) :
    ∃ job, process.jobs.find? jobId = some job := by
  have counts := sound.counts jobId
  rw [held, List.count_singleton_self] at counts
  apply Option.isSome_iff_exists.mp
  split at counts
  · assumption
  · omega

theorem Sound.registered_of_handled {outcome : Outcome} (member : (jobId, outcome) ∈ handled) :
    ∃ job, process.jobs.find? jobId = some job := by
  have counts := sound.counts jobId
  rw [sound.handled_count member] at counts
  apply Option.isSome_iff_exists.mp
  split at counts
  · assumption
  · omega

theorem Sound.registered_of_running (running : process.thread.running = some jobId) :
    ∃ job, process.jobs.find? jobId = some job := by
  cases thread : process.thread with
  | handling held payload =>
      rw [thread] at running
      obtain rfl := Option.some.inj running
      exact sound.registered_of_holding (congrArg WorkerThread.holding thread)
  | handled held outcome =>
      rw [thread] at running
      obtain rfl := Option.some.inj running
      exact sound.registered_of_handled (sound.noted held outcome thread)
  | waiting => rw [thread] at running; cases running
  | took held payload => rw [thread] at running; cases running
  | returned => rw [thread] at running; cases running
  | died => rw [thread] at running; cases running

end Consequences

/-! ## Steps -/

theorem step_take (taken : process.step .take = some next) :
    process.thread = .waiting ∧ ∃ item rest, process.queue = item :: rest ∧
      next = { process with
        queue := rest
        thread := match item with
          | none => .returned
          | some (jobId, payload) => .took jobId payload } := by
  simp only [step] at taken
  split at taken
  · rename_i jobId payload rest isThread isQueue
    exact ⟨isThread, some (jobId, payload), rest, isQueue, (Option.some.inj taken).symm⟩
  · rename_i rest isThread isQueue
    exact ⟨isThread, none, rest, isQueue, (Option.some.inj taken).symm⟩
  · cases taken

theorem step_run {now : Time} (taken : process.step (.run now) = some next) :
    ∃ jobId payload, process.thread = .took jobId payload ∧
      next = process.updated jobId
        (fun job => { job with status := "running", updatedAt := now })
        (.handling jobId payload) := by
  simp only [step] at taken
  split at taken
  · rename_i jobId payload isThread
    exact ⟨jobId, payload, isThread, (Option.some.inj taken).symm⟩
  · cases taken

theorem step_handle {jobId : String} {outcome : Outcome}
    (taken : process.step (.handle jobId outcome) = some next) :
    ∃ payload, process.thread = .handling jobId payload ∧
      next = { process with thread := .handled jobId outcome } := by
  simp only [step] at taken
  split at taken
  · rename_i held payload isThread
    obtain ⟨rfl, isNext⟩ := Option.ite_none_right_eq_some.mp taken
    exact ⟨payload, isThread, (Option.some.inj isNext).symm⟩
  · cases taken

theorem step_report {now : Time} (taken : process.step (.report now) = some next) :
    ∃ jobId outcome, process.thread = .handled jobId outcome ∧
      next = process.updated jobId (fun job => job.reported now outcome) .waiting := by
  simp only [step] at taken
  split at taken
  · rename_i jobId outcome isThread
    exact ⟨jobId, outcome, isThread, (Option.some.inj taken).symm⟩
  · cases taken

theorem updated_eq {jobId : String} {job : MemoryJob} (change : MemoryJob → MemoryJob)
    (thread : WorkerThread) (found : process.jobs.find? jobId = some job) :
    process.updated jobId change thread =
      { process with jobs := process.jobs.set jobId (change job), thread } := by
  simp only [updated, update, found]

theorem reported_move {thread moved : WorkerThread} {jobId : String}
    {verdict : String × Option String × Option JobResult}
    (before : Reported handled thread jobId verdict) (apart : thread.running ≠ some jobId)
    (still : moved.running ≠ some jobId) : Reported handled moved jobId verdict := by
  rcases before with queued | running | ended
  · exact Or.inl ⟨queued.1, still, queued.2.2⟩
  · exact absurd running.2 apart
  · exact Or.inr (Or.inr ⟨still, ended.2⟩)

theorem reported_set {jobs : Table String MemoryJob} {thread : WorkerThread} {jobId : String}
    {value : MemoryJob} (self : Reported handled thread jobId value.verdict)
    (others : ∀ other job, other ≠ jobId → jobs.find? other = some job →
      Reported handled thread other job.verdict)
    {other : String} {job : MemoryJob} (found : (jobs.set jobId value).find? other = some job) :
    Reported handled thread other job.verdict := by
  rw [Table.find?_set] at found
  split at found
  · rename_i same
    obtain rfl := Option.some.inj found
    exact same ▸ self
  · rename_i different
    exact others other job different found

section Steps

variable (sound : process.Sound puts handled)
include sound

theorem Sound.register {jobId tenantId : String} {now : Time} {payload : DocumentJob}
    (fresh : process.jobs.find? jobId = none)
    (taken : process.step (.register jobId tenantId now payload) = some next) :
    next.Sound puts handled := by
  simp only [step, Option.ite_none_left_eq_some, Option.some.injEq] at taken
  obtain ⟨_, rfl⟩ := taken
  refine ⟨sound.alive, sound.inOrder, fun other => ?_, sound.noted, fun other job => ?_⟩
  · have before := sound.once other
    simp only [submits, Table.find?_set] at before ⊢
    by_cases same : other = jobId
    · subst same
      simp only [fresh, Option.isSome_none, Bool.false_eq_true, if_false, if_true,
        Option.isSome_some] at before ⊢
      omega
    · simpa only [if_neg same] using before
  · apply reported_set
    · refine Or.inl ⟨rfl, fun running => ?_, fun outcome member => ?_⟩
      · obtain ⟨_, found⟩ := sound.registered_of_running running
        cases fresh.symm.trans found
      · obtain ⟨_, found⟩ := sound.registered_of_handled member
        cases fresh.symm.trans found
    · intro other job _ found
      exact sound.reported other job found

theorem Sound.put {jobId : String} (taken : process.step (.put jobId) = some next) :
    next.Sound (puts ++ [some jobId]) handled := by
  obtain ⟨payload, found, rfl⟩ := Option.map_eq_some_iff.mp taken
  refine ⟨sound.alive, ?_, fun other => ?_, sound.noted, sound.reported⟩
  · simp only [List.map_append, ← List.append_assoc]
    rw [sound.inOrder]
    rfl
  · have before := sound.once other
    simp only [submits, Table.find?_erase, List.count_append, List.count_singleton] at before ⊢
    by_cases same : other = jobId
    · subst same
      simp only [found, Option.isSome_some, if_true] at before
      simpa using before
    · have apart : (some jobId == some other) = false := by simpa using fun h => same h.symm
      simpa only [if_neg same, apart, Bool.false_eq_true, if_false, Nat.add_zero] using before

theorem Sound.stop (taken : process.step .stop = some next) :
    next.Sound (puts ++ [none]) handled := by
  obtain rfl := Option.some.inj taken
  refine ⟨sound.alive, ?_, fun other => ?_, sound.noted, sound.reported⟩
  · simp only [List.map_append, ← List.append_assoc]
    rw [sound.inOrder]
    rfl
  · have before := sound.once other
    rw [List.count_append]
    exact before

theorem Sound.take (taken : process.step .take = some next) : next.Sound puts handled := by
  obtain ⟨isThread, item, rest, isQueue, rfl⟩ := step_take taken
  have inOrder := sound.inOrder
  have reported := sound.reported
  rw [isThread] at reported
  rw [isThread, isQueue] at inOrder
  cases item with
  | none =>
      exact ⟨nofun, by simpa [WorkerThread.holding] using inOrder, sound.once, nofun, reported⟩
  | some entry =>
      exact ⟨nofun, by simpa [WorkerThread.holding] using inOrder, sound.once, nofun, reported⟩

theorem once_set {jobId : String} {job : MemoryJob} (value : MemoryJob) (thread : WorkerThread)
    (found : process.jobs.find? jobId = some job) (other : String) :
    puts.count (some other) + WorkerProcess.submits
        { process with jobs := process.jobs.set jobId value, thread } other ≤
      if ((process.jobs.set jobId value).find? other).isSome then 1 else 0 := by
  have once := sound.once other
  change puts.count (some other) + process.submits other ≤ _
  rw [Table.find?_set]
  by_cases same : other = jobId
  · subst same
    simpa only [found, if_true, Option.isSome_some] using once
  · rwa [if_neg same]

theorem Sound.run {now : Time} (taken : process.step (.run now) = some next) :
    next.Sound puts handled := by
  obtain ⟨jobId, payload, isThread, rfl⟩ := step_run taken
  have held : process.thread.holding = [some jobId] := congrArg WorkerThread.holding isThread
  obtain ⟨job, found⟩ := sound.registered_of_holding held
  rw [updated_eq _ _ found]
  refine ⟨nofun, ?_, once_set sound _ _ found, nofun, fun other entry => ?_⟩
  · have inOrder := sound.inOrder
    rwa [held] at inOrder
  · have idle : process.thread.running = none := by rw [isThread]; rfl
    apply reported_set
    · rcases sound.reported jobId job found with queued | running | ended
      · obtain ⟨queued, _, _⟩ := queued
        have noError : job.error = none := congrArg (·.2.1) queued
        have noResult : job.result = none := congrArg (·.2.2) queued
        exact Or.inr (Or.inl ⟨by simp only [MemoryJob.verdict, noError, noResult], rfl⟩)
      · cases idle.symm.trans running.2
      · obtain ⟨_, outcome, member, _⟩ := ended
        exact absurd member (sound.fresh_of_holding held outcome)
    · intro other entry different found
      refine reported_move (sound.reported other entry found) (by simp [idle]) ?_
      exact fun same => different (Option.some.inj same).symm

theorem Sound.handle {jobId : String} {outcome : Outcome}
    (taken : process.step (.handle jobId outcome) = some next) :
    next.Sound puts (handled ++ [(jobId, outcome)]) := by
  obtain ⟨payload, isThread, rfl⟩ := step_handle taken
  have inOrder := sound.inOrder
  rw [isThread] at inOrder
  refine ⟨nofun, by simpa [WorkerThread.holding] using inOrder, sound.once, ?_, ?_⟩
  · rintro _ _ ⟨⟩
    exact List.mem_append_right _ (List.mem_singleton_self _)
  · intro other job found
    have before := sound.reported other job found
    rw [isThread] at before
    rcases before with ⟨queued, apart, fresh⟩ | running | ⟨apart, earlier, member, same⟩
    · refine Or.inl ⟨queued, apart, fun other' member => ?_⟩
      rcases List.mem_append.mp member with old | new
      · exact fresh _ old
      · exact apart (congrArg some (Prod.mk.inj (List.mem_singleton.mp new)).1.symm)
    · exact Or.inr (Or.inl running)
    · exact Or.inr (Or.inr ⟨apart, earlier, List.mem_append_left _ member, same⟩)

theorem Sound.report {now : Time} (taken : process.step (.report now) = some next) :
    next.Sound puts handled := by
  obtain ⟨jobId, outcome, isThread, rfl⟩ := step_report taken
  have member := sound.noted jobId outcome isThread
  obtain ⟨job, found⟩ := sound.registered_of_handled member
  rw [updated_eq _ _ found]
  refine ⟨nofun, ?_, once_set sound _ _ found, nofun, fun other entry => ?_⟩
  · have inOrder := sound.inOrder
    rwa [isThread] at inOrder
  · have isRunning : process.thread.running = some jobId := by rw [isThread]; rfl
    apply reported_set
    · rcases sound.reported jobId job found with queued | running | ended
      · exact absurd isRunning queued.2.1
      · exact Or.inr (Or.inr ⟨nofun, outcome, member, job.verdict_reported now running.1 outcome⟩)
      · exact absurd isRunning ended.1
    · intro other entry different found
      refine reported_move (sound.reported other entry found) ?_ nofun
      rw [isRunning]
      exact fun same => different (Option.some.inj same).symm

/-- What one step keeps. -/
theorem Sound.step {event : WorkerEvent} (fresh : process.FreshJob event)
    (taken : process.step event = some next) :
    next.Sound (puts ++ putItems [event]) (handled ++ handledJobs [event]) := by
  cases event with
  | register jobId tenantId now payload =>
      simpa [putItems, handledJobs] using sound.register fresh taken
  | put jobId => simpa [putItems, handledJobs] using sound.put taken
  | stop => simpa [putItems, handledJobs] using sound.stop taken
  | take => simpa [putItems, handledJobs] using sound.take taken
  | run now => simpa [putItems, handledJobs] using sound.run taken
  | handle jobId outcome => simpa [putItems, handledJobs] using sound.handle taken
  | report now => simpa [putItems, handledJobs] using sound.report taken

end Steps

theorem sound_of_run {events : List WorkerEvent} (ran : system.exec .empty events = some process)
    (fresh : system.Meets FreshJob .empty events) :
    process.Sound (putItems events) (handledJobs events) := by
  refine System.exec_keeps_history
    (fun past process => process.Sound (putItems past) (handledJobs past)) sound_empty ?_ ran fresh
  intro past process event next sound allowed taken
  rw [putItems_append, handledJobs_append]
  exact sound.step allowed taken

/-- However the threads interleave, `_update` never fails, the worker handles the jobs in the order
in which they were put, each once and none behind the marker of `stop`, and a job is
reported as queued, running or ended just as far as its handling has come. -/
theorem jobs_handled_once_in_order {events : List WorkerEvent}
    (ran : system.exec .empty events = some process)
    (fresh : system.Meets FreshJob .empty events) :
    process.thread ≠ .died ∧
      (handledJobs events).map (fun entry => some entry.1) ++ process.thread.holding ++
        process.queue.map (Option.map Prod.fst) = putItems events ∧
      ((handledJobs events).map Prod.fst).Nodup ∧
      ∀ jobId job, process.jobs.find? jobId = some job →
        Reported (handledJobs events) process.thread jobId job.verdict :=
  have sound := sound_of_run ran fresh
  ⟨sound.alive, sound.inOrder, sound.nodup, sound.reported⟩

def textJob : DocumentJob where
  payload :=
    { tenantId := "t", filename := "a", contentBase64 := some [], allowedGroups := none,
      sourceId := "a", groups := [] }
  modified := .null

/-- Two submissions overtake each other. -/
def twoPuts : List WorkerEvent :=
  [.register "1" "t" 0 textJob, .register "2" "t" 1 textJob, .put "2", .put "1"]

/-- The worker is stopped during the first of two rounds. -/
def twoRounds : List WorkerEvent :=
  [.take, .run 2, .stop, .handle "2" (.inputError "empty"), .report 3,
    .take, .run 4, .handle "1" .otherError, .report 5]

theorem two_jobs_in_order : ∃ process, system.exec .empty (twoPuts ++ twoRounds) = some process ∧
    process.thread ≠ .died ∧
      (handledJobs (twoPuts ++ twoRounds)).map (fun entry => some entry.1) ++
        process.thread.holding ++ process.queue.map (Option.map Prod.fst) =
          [some "2", some "1", none] := by
  have runs : (system.exec .empty (twoPuts ++ twoRounds)).isSome = true := by decide +kernel
  obtain ⟨process, ran⟩ := Option.isSome_iff_exists.mp runs
  obtain ⟨alive, inOrder, _⟩ := jobs_handled_once_in_order ran (by decide +kernel)
  exact ⟨process, ran, alive, inOrder⟩

/-! ## Progress -/

end WorkerProcess

/-- The steps of the worker thread that are left of a round. -/
def WorkerThread.left : WorkerThread → Nat
  | .took _ _ => 3
  | .handling _ _ => 2
  | .handled _ _ => 1
  | _ => 0

/-- The job of the round. -/
def WorkerThread.current : WorkerThread → Option String
  | .took jobId _ => some jobId
  | .handling jobId _ => some jobId
  | .handled jobId _ => some jobId
  | _ => none

/-- The worker thread takes the step. -/
def WorkerEvent.ofWorker : WorkerEvent → Bool
  | .take | .run _ | .handle _ _ | .report _ => true
  | _ => false

namespace WorkerProcess

variable {puts : List (Option String)} {handled : List (String × Outcome)}
variable {process next : WorkerProcess} {jobId : String}

/-- So many steps of the worker thread and the job is reported as its handler ended: it waits in
front of every marker, is held, or has had its round. -/
inductive Due (handled : List (String × Outcome)) (process : WorkerProcess) (jobId : String) :
    Nat → Prop where
  | queued {before after : List QueueItem} {payload : DocumentJob}
      (isQueue : process.queue = before ++ some (jobId, payload) :: after)
      (noMarker : none ∉ before) (going : process.thread ≠ .returned) :
      Due handled process jobId (process.thread.left + 4 * (before.length + 1))
  | held (isCurrent : process.thread.current = some jobId) :
      Due handled process jobId process.thread.left
  | ended {outcome : Outcome} (apart : process.thread.running ≠ some jobId)
      (member : (jobId, outcome) ∈ handled) : Due handled process jobId 0

/-- A request thread touches neither the worker thread nor what is queued already. -/
theorem step_of_request {event : WorkerEvent} (others : event.ofWorker = false)
    (taken : process.step event = some next) :
    next.thread = process.thread ∧ ∃ more, next.queue = process.queue ++ more := by
  cases event with
  | register jobId tenantId now payload =>
      simp only [step, Option.ite_none_left_eq_some, Option.some.injEq] at taken
      obtain ⟨_, rfl⟩ := taken
      exact ⟨rfl, [], (List.append_nil _).symm⟩
  | put jobId =>
      obtain ⟨payload, _, rfl⟩ := Option.map_eq_some_iff.mp taken
      exact ⟨rfl, _, rfl⟩
  | stop =>
      obtain rfl := Option.some.inj taken
      exact ⟨rfl, _, rfl⟩
  | take => cases others
  | run now => cases others
  | handle jobId outcome => cases others
  | report now => cases others

theorem Due.request {event : WorkerEvent} {n : Nat} (due : Due handled process jobId n)
    (others : event.ofWorker = false) (taken : process.step event = some next) :
    Due handled next jobId n := by
  obtain ⟨sameThread, more, longer⟩ := step_of_request others taken
  cases due with
  | queued isQueue noMarker going =>
      rw [isQueue, List.append_assoc] at longer
      rw [← sameThread] at going ⊢
      exact .queued longer noMarker going
  | held isCurrent =>
      rw [← sameThread] at isCurrent ⊢
      exact .held isCurrent
  | ended apart member => exact .ended (sameThread ▸ apart) member

theorem Due.take {n : Nat} (due : Due handled process jobId n)
    (taken : process.step .take = some next) : Due handled next jobId (n - 1) := by
  obtain ⟨isThread, item, rest, isQueue', rfl⟩ := step_take taken
  cases due with
  | @queued before after payload isQueue noMarker going =>
      rw [isThread]
      cases before with
      | nil =>
          obtain ⟨rfl, rfl⟩ := List.cons.inj (isQueue'.symm.trans isQueue)
          exact .held rfl
      | cons first before =>
          obtain ⟨rfl, rfl⟩ := List.cons.inj (isQueue'.symm.trans isQueue)
          obtain ⟨isJob, unmarked⟩ := not_or.mp (List.mem_cons.not.mp noMarker)
          cases item with
          | none => exact absurd rfl isJob
          | some entry =>
              have count : WorkerThread.waiting.left + 4 * (before.length + 1 + 1) - 1 =
                  3 + 4 * (before.length + 1) := by
                simp only [WorkerThread.left]
                omega
              rw [List.length_cons, count]
              exact .queued rfl unmarked nofun
  | held isCurrent =>
      rw [isThread] at isCurrent
      cases isCurrent
  | ended apart member =>
      refine .ended ?_ member
      cases item with
      | none => nofun
      | some entry => nofun

/-- A step within a round. -/
theorem Due.round {n : Nat} {more : List (String × Outcome)}
    (due : Due handled process jobId n) (isLeft : process.thread.left = next.thread.left + 1)
    (going : next.thread ≠ .returned) (sameQueue : next.queue = process.queue)
    (current : process.thread.current = some jobId →
      Due (handled ++ more) next jobId next.thread.left)
    (apart : ∀ outcome, (jobId, outcome) ∈ handled → process.thread.running ≠ some jobId →
      next.thread.running ≠ some jobId) : Due (handled ++ more) next jobId (n - 1) := by
  cases due with
  | @queued before after payload isQueue noMarker _ =>
      have count : process.thread.left + 4 * (before.length + 1) - 1 =
          next.thread.left + 4 * (before.length + 1) := by
        omega
      rw [count]
      exact .queued (sameQueue.trans isQueue) noMarker going
  | held isCurrent =>
      rw [isLeft, Nat.add_sub_cancel]
      exact current isCurrent
  | ended idle member =>
      exact .ended (apart _ member idle) (List.mem_append_left _ member)

theorem Due.step {event : WorkerEvent} {n : Nat} (sound : process.Sound puts handled)
    (due : Due handled process jobId n) (taken : process.step event = some next) :
    Due (handled ++ handledJobs [event]) next jobId
      (n - if event.ofWorker then 1 else 0) := by
  have nobody : handled ++ [] = handled := List.append_nil handled
  have others : event.ofWorker = false → handledJobs [event] = [] →
      Due (handled ++ handledJobs [event]) next jobId
        (n - if event.ofWorker then 1 else 0) := by
    intro isRequest none
    rw [none, nobody, isRequest]
    exact due.request isRequest taken
  cases event with
  | register jobId tenantId now payload => exact others rfl rfl
  | put jobId => exact others rfl rfl
  | stop => exact others rfl rfl
  | take => exact nobody.symm ▸ due.take taken
  | run now =>
      obtain ⟨held, payload, isThread, rfl⟩ := step_run taken
      have isHeld : process.thread.holding = [some held] := congrArg WorkerThread.holding isThread
      obtain ⟨job, found⟩ := sound.registered_of_holding isHeld
      rw [updated_eq _ _ found]
      refine due.round (isThread ▸ rfl) nofun rfl (fun isCurrent => ?_) fun outcome member _ => ?_
      · rw [isThread] at isCurrent
        exact .held isCurrent
      · rintro ⟨⟩
        exact sound.fresh_of_holding isHeld outcome member
  | handle held outcome =>
      obtain ⟨payload, isThread, rfl⟩ := step_handle taken
      refine due.round (isThread ▸ rfl) nofun rfl (fun isCurrent => ?_) fun _ _ idle => ?_
      · rw [isThread] at isCurrent
        exact .held isCurrent
      · rw [isThread] at idle
        exact idle
  | report now =>
      obtain ⟨held, outcome, isThread, rfl⟩ := step_report taken
      have member := sound.noted held outcome isThread
      obtain ⟨job, found⟩ := sound.registered_of_handled member
      rw [updated_eq _ _ found]
      refine due.round (isThread ▸ rfl) nofun rfl (fun isCurrent => ?_) fun _ _ _ => nofun
      rw [isThread] at isCurrent
      obtain rfl := Option.some.inj isCurrent
      exact .ended nofun (List.mem_append_left _ member)

/-- The steps of the worker thread in a run. -/
def rounds (events : List WorkerEvent) : Nat := events.countP WorkerEvent.ofWorker

theorem Due.run {events : List WorkerEvent} {n : Nat} (sound : process.Sound puts handled)
    (due : Due handled process jobId n) (ran : system.exec process events = some next)
    (fresh : system.Meets FreshJob process events) :
    next.Sound (puts ++ putItems events) (handled ++ handledJobs events) ∧
      Due (handled ++ handledJobs events) next jobId (n - rounds events) := by
  induction events generalizing process puts handled n with
  | nil =>
      obtain rfl := Option.some.inj ran
      simpa [putItems, handledJobs, rounds] using ⟨sound, due⟩
  | cons event rest ih =>
      obtain ⟨middle, taken, later⟩ := System.exec_cons.mp ran
      obtain ⟨allowed, met⟩ := (System.meets_cons taken).mp fresh
      have ended := ih (sound.step allowed taken) (due.step sound taken) later met
      have count : n - (if event.ofWorker then 1 else 0) - rounds rest =
          n - rounds (event :: rest) := by
        rw [rounds, rounds, List.countP_cons]
        omega
      rw [List.append_assoc, List.append_assoc, ← putItems_append, ← handledJobs_append,
        count] at ended
      exact ended

theorem Due.over {n : Nat} (due : Due handled process jobId n) (isOver : n = 0) :
    process.thread.running ≠ some jobId ∧ ∃ outcome, (jobId, outcome) ∈ handled := by
  cases due with
  | queued isQueue noMarker going => omega
  | held isCurrent =>
      cases isThread : process.thread with
      | took held payload => rw [isThread] at isOver; cases isOver
      | handling held payload => rw [isThread] at isOver; cases isOver
      | handled held outcome => rw [isThread] at isOver; cases isOver
      | waiting => rw [isThread] at isCurrent; cases isCurrent
      | returned => rw [isThread] at isCurrent; cases isCurrent
      | died => rw [isThread] at isCurrent; cases isCurrent
  | ended idle member => exact ⟨idle, _, member⟩

/-- A job that waits in front of every marker is reported as its handler ended once the worker
thread has taken its four steps for each job before it and for the job itself, whatever the
request threads do meanwhile. -/
theorem put_job_is_reported {past events : List WorkerEvent} {process final : WorkerProcess}
    {jobId : String} {before after : List QueueItem} {payload : DocumentJob}
    (reached : system.exec .empty past = some process)
    (ran : system.exec process events = some final)
    (fresh : system.Meets FreshJob .empty (past ++ events))
    (isQueue : process.queue = before ++ some (jobId, payload) :: after)
    (noMarker : none ∉ before) (going : process.thread ≠ .returned)
    (enough : process.thread.left + 4 * (before.length + 1) ≤ rounds events) :
    ∃ outcome job, (jobId, outcome) ∈ handledJobs (past ++ events) ∧
      final.jobs.find? jobId = some job ∧ job.verdict = outcome.verdict := by
  obtain ⟨earlier, later⟩ := (System.meets_append reached).mp fresh
  have due : Due (handledJobs past) process jobId _ := .queued isQueue noMarker going
  obtain ⟨sound, left⟩ := due.run (sound_of_run reached earlier) ran later
  rw [← handledJobs_append] at sound left
  obtain ⟨idle, outcome, member⟩ := left.over (Nat.sub_eq_zero_of_le enough)
  obtain ⟨job, found⟩ := sound.registered_of_handled member
  refine ⟨outcome, job, member, found, ?_⟩
  rcases sound.reported jobId job found with queued | running | ⟨_, other, also, same⟩
  · exact absurd member (queued.2.2 outcome)
  · exact absurd running.2 idle
  · rw [sound.outcome_unique member also, same]

/-- The job behind the one that the worker holds when it is stopped. -/
theorem second_job_is_reported : ∃ process final outcome job,
    system.exec .empty twoPuts = some process ∧ system.exec process twoRounds = some final ∧
      ("1", outcome) ∈ handledJobs (twoPuts ++ twoRounds) ∧
        final.jobs.find? "1" = some job ∧ job.verdict = outcome.verdict := by
  have runs : ((system.exec .empty twoPuts).bind fun process =>
      (system.exec process twoRounds).map fun _ => (process.queue, process.thread)) =
        some ([some ("2", textJob), some ("1", textJob)], .waiting) := rfl
  obtain ⟨process, reached, runs⟩ := Option.bind_eq_some_iff.mp runs
  obtain ⟨final, ran, before⟩ := Option.map_eq_some_iff.mp runs
  obtain ⟨isQueue, isThread⟩ := Prod.mk.inj before
  obtain ⟨outcome, job, member, found, verdict⟩ :=
    @put_job_is_reported _ _ _ _ _ [some ("2", textJob)] [] textJob reached ran
      (by decide +kernel) isQueue (by simp) (by simp [isThread])
      (by rw [isThread]; decide)
  exact ⟨process, final, outcome, job, reached, ran, member, found, verdict⟩

/-! ## Uninterrupted steps -/

/-- The worker between two rounds, when no submission is under way. -/
def ofWorker (worker : IngestionWorker) : WorkerProcess where
  jobs := worker.jobs
  queue := worker.queue.map some
  submitting := .empty
  thread := .waiting

theorem exec_two {start middle final : WorkerProcess} {first second : WorkerEvent}
    (before : start.step first = some middle) (after : middle.step second = some final) :
    system.exec start [first, second] = some final :=
  System.exec_cons.mpr ⟨middle, before, System.exec_cons.mpr ⟨final, after, rfl⟩⟩

theorem submit_steps (worker : IngestionWorker) (jobId tenantId : String) (now : Time)
    (payload : DocumentJob) :
    system.exec (ofWorker worker) [.register jobId tenantId now payload, .put jobId] =
      some (ofWorker (worker.submit jobId tenantId now payload).2) := by
  have erased := @Table.erase_set_of_fresh _ _ _ .empty jobId payload rfl
  refine exec_two rfl ?_
  simp only [step, ofWorker, Table.find?_set, if_true, Option.map_some, erased,
    IngestionWorker.submit, List.map_append, List.map_cons, List.map_nil]

theorem updated_modify {process : WorkerProcess} {jobId : String} {job : MemoryJob}
    (change : MemoryJob → MemoryJob) (thread : WorkerThread)
    (found : process.jobs.find? jobId = some job) :
    process.updated jobId change thread =
      { process with jobs := process.jobs.modify jobId change, thread } := by
  rw [updated_eq change thread found, Table.set_eq_modify change found]

/-- A round of the application's worker is the worker thread's four steps without any other
step in between. -/
theorem work_steps {surroundings : Surroundings} {application : Application} {job : MemoryJob}
    {jobId : String} {payload : DocumentJob} {rest : List (String × DocumentJob)}
    (startedAt finishedAt : Time) (queued : application.worker.queue = (jobId, payload) :: rest)
    (found : application.worker.jobs.find? jobId = some job) :
    ∃ after outcome, application.work surroundings startedAt finishedAt = some after ∧
      system.exec (ofWorker application.worker)
        [.take, .run startedAt, .handle jobId outcome, .report finishedAt] =
          some (ofWorker after.worker) := by
  let handled := Application.ingestJob surroundings
    (Application.started application startedAt jobId rest) payload
  have worker : handled.2.worker = (Application.started application startedAt jobId rest).worker :=
    Application.ingestJob_worker ..
  refine ⟨_, outcomeOf handled.1,
    Application.work_cons surroundings application startedAt finishedAt queued, ?_⟩
  let taken : WorkerProcess :=
    { ofWorker application.worker with queue := rest.map some, thread := .took jobId payload }
  let running : WorkerProcess :=
    { taken with
      jobs := application.worker.jobs.modify jobId (MemoryJob.started startedAt)
      thread := .handling jobId payload }
  let ended : WorkerProcess := { running with thread := .handled jobId (outcomeOf handled.1) }
  have take : (ofWorker application.worker).step .take = some taken := by
    simp only [step, ofWorker, queued, List.map_cons, taken]
  have run : taken.step (.run startedAt) = some running :=
    congrArg some (@updated_modify taken jobId job _ _ found)
  have handle : running.step (.handle jobId (outcomeOf handled.1)) = some ended := if_pos rfl
  have isRunning : ended.jobs.find? jobId = some (job.started startedAt) :=
    (Table.find?_modify_self _ _ _).trans (congrArg (Option.map _) found)
  have report : ended.step (.report finishedAt) =
      some (ofWorker (Application.finished finishedAt jobId handled).worker) := by
    refine (congrArg some (@updated_modify ended jobId _ _ _ isRunning)).trans ?_
    simp only [Application.finished, worker]
    rfl
  exact System.exec_append.mpr ⟨running, exec_two take run, exec_two handle report⟩

end WorkerProcess

end ProductionRag
