import ProductionRag.Api.Reupload
import ProductionRag.Queue.Jobs
import ProductionRag.Store.AccessList

/-!
# Jobs that run again

A worker that dies after its handler and before `_finish` leaves the job to be claimed again.
The handler then uploads the same bytes once more.  Uploads of others go on meanwhile, so the
bytes may have been superseded.
-/

set_option autoImplicit false

namespace ProductionRag

open Basis

/-! ## What is current -/

/-- The uploaded content is a current version of its document. -/
def Database.isCurrent (db : Database) (call : PersistCall) : Bool :=
  (db.conflicting call.logical call.result.contentSha256).any fun entry => entry.2.isReady

/-- The call is an upload whose content was not current before. -/
def Database.makesCurrent (before : Database) (call : StoreCall) (after : Database) : Bool :=
  match call with
  | .persist call => !before.isCurrent call && after.isCurrent call
  | _ => false

namespace Database

def hits (logical : LogicalDocument) (contentSha256 : String)
    (entry : DocumentKey × (String × String × String)) : Bool :=
  entry.1.1 == logical.tenantId && entry.2.1 == logical.sourceSystem &&
    entry.2.2.1 == logical.sourceId && entry.2.2.2 == contentSha256

variable {db after : Database} {plan : VersionPlan} {now : Time} {call : PersistCall}
  {result : PersistResult}

end Database

/-! ## The calls of an upload -/

/-- An upload deletes nothing. -/
def StoreCall.KeepsRows : StoreCall → Prop
  | .deleteDocument .. => False
  | _ => True

theorem storeCall_sends {α β : Type} {call : StoreCall} {expect : StoreReply → Option β}
    {next : β → StoreProgram (Except PyError α)} (keeps : call.KeepsRows)
    (later : ∀ value, (next value).Sends StoreCall.KeepsRows) :
    (storeCall call expect next).Sends StoreCall.KeepsRows := by
  refine .call keeps fun answer => ?_
  cases answer with
  | error e => exact .done _
  | ok reply =>
      dsimp only
      cases expect reply with
      | none => exact .done _
      | some value => exact later value

theorem ingestDocument_sends (services : Services) (uuid4 : Nat → String) (createdAt : Time)
    (job : JobPayload) :
    (ingestDocument services uuid4 createdAt job).Sends StoreCall.KeepsRows := by
  rw [ingestDocument]
  cases job.contentBase64 with
  | none => exact .done _
  | some data =>
      refine storeCall_sends trivial fun current => ?_
      rw [ingestAfterRead]
      cases current.filter fun row => isUnchanged services.hash job.source data row.toVersion with
      | some row =>
          refine storeCall_sends trivial fun _ => ?_
          split
          · exact storeCall_sends trivial fun _ => .done _
          · exact .done _
      | none =>
          dsimp only
          cases prepare services uuid4 createdAt job data with
          | error e => exact .done _
          | ok call => exact storeCall_sends trivial fun _ => .done _

/-- `run_once` around the handler: `except (UnicodeError, ValueError)`, then any other. -/
def outcomeOf : Except PyError JobResult → Outcome
  | .ok result => .success result
  | .error (.valueError message) => .inputError message
  | .error (.unicodeError message) => .inputError message
  | .error _ => .otherError

abbrev Handling := StoreProgram (Except PyError JobResult)

/-- The queue, the documents, and what is left of the handlers and of the direct uploads. -/
structure JobServer where
  queue : Queue := .empty
  db : Database := .empty
  handlers : Nat → Option Handling := fun _ => none
  uploads : Nat → Option Handling := fun _ => none
  /-- The jobs that made their content current, the latest first; no step reads it. -/
  effects : List String := []

inductive JobEvent where
  | submit (uuid4 tenantId : String) (payload : JobPayload)
  | claim (worker : Nat) (jobId : String) (locked : List String) (uuid4 : Nat → String)
      (createdAt : Time)
  | work (worker : Nat) (plan : VersionPlan) (delay : Nat)
  | finish (worker : Nat)
  | crash (worker : Nat)
  | wait (microseconds : Nat)
  | upload (id : Nat) (payload : JobPayload) (uuid4 : Nat → String) (createdAt : Time)
  | store (id : Nat) (plan : VersionPlan) (delay : Nat)

namespace JobServer

/-- The next store method of a handler. -/
def worked (server : JobServer) (worker : Nat) (claim : ClaimedJob) (call : StoreCall)
    (next : Except PyError StoreReply → Handling) (plan : VersionPlan) (delay : Nat) :
    JobServer :=
  let out := server.db.step plan delay call
  { server with
    db := out.2
    handlers := Function.update server.handlers worker (some (next out.1))
    effects := if server.db.makesCurrent call out.2 then claim.jobId :: server.effects
      else server.effects }

/-- The next store method of a direct upload. -/
def stored (server : JobServer) (id : Nat) (call : StoreCall)
    (next : Except PyError StoreReply → Handling) (plan : VersionPlan) (delay : Nat) :
    JobServer :=
  let out := server.db.step plan delay call
  { server with db := out.2, uploads := Function.update server.uploads id (some (next out.1)) }

def step (services : Services) (server : JobServer) : JobEvent → Option JobServer
  | .submit uuid4 tenantId payload =>
    (server.queue.step (.submit uuid4 tenantId payload)).map fun queue => { server with queue }
  | .claim worker jobId locked uuid4 createdAt =>
    (server.queue.step (.claim worker jobId locked)).map fun queue =>
      { server with
        queue
        handlers := Function.update server.handlers worker ((queue.held.find? worker).map
          fun claim => ingestDocument services uuid4 createdAt claim.payload) }
  | .work worker plan delay =>
    match server.queue.held.find? worker, server.handlers worker with
    | some claim, some (.call call next) => some (server.worked worker claim call next plan delay)
    | _, _ => none
  | .finish worker =>
    match server.handlers worker with
    | some (.done result) =>
      (server.queue.step (.finish worker (outcomeOf result))).map fun queue =>
        { server with queue, handlers := Function.update server.handlers worker none }
    | _ => none
  | .crash worker =>
    (server.queue.step (.crash worker)).map fun queue =>
      { server with queue, handlers := Function.update server.handlers worker none }
  | .wait microseconds =>
    (server.queue.step (.wait microseconds)).map fun queue => { server with queue }
  | .upload id payload uuid4 createdAt =>
    match server.uploads id with
    | some _ => none
    | none =>
      some { server with
        uploads := Function.update server.uploads id
          (some (ingestDocument services uuid4 createdAt payload)) }
  | .store id plan delay =>
    match server.uploads id with
    | some (.call call next) => some (server.stored id call next plan delay)
    | _ => none

end JobServer

namespace JobServer

/-- The upload that the handler of the worker is about to commit. -/
def persists (server : JobServer) (worker : Nat) : Option PersistCall :=
  match server.handlers worker with
  | some (.call (.persist call) _) => some call
  | _ => none

/-- A job that has made its content current commits it again only while it still is. -/
def StillCurrent (server : JobServer) : JobEvent → Prop
  | .work worker plan delay =>
    ∀ claim ∈ server.queue.held.find? worker, ∀ call ∈ server.persists worker,
      claim.jobId ∈ server.effects →
        (server.db.persistCall plan (server.db.nextNow delay) call).isOk = true →
          server.db.isCurrent call = true
  | _ => True

instance (server : JobServer) (event : JobEvent) : Decidable (server.StillCurrent event) :=
  match event with
  | .work worker plan delay => inferInstanceAs (Decidable
      (∀ claim ∈ server.queue.held.find? worker, ∀ call ∈ server.persists worker,
        claim.jobId ∈ server.effects →
          (server.db.persistCall plan (server.db.nextNow delay) call).isOk = true →
            server.db.isCurrent call = true))
  | .submit .. => .isTrue trivial
  | .claim .. => .isTrue trivial
  | .finish _ => .isTrue trivial
  | .crash _ => .isTrue trivial
  | .wait _ => .isTrue trivial
  | .upload .. => .isTrue trivial
  | .store .. => .isTrue trivial

variable {services : Services} {server after : JobServer}

/-- What a step does to the handlers, the documents and the log. -/
inductive Move (services : Services) (server : JobServer) : JobEvent → JobServer → Prop
  | submit {uuid4 tenantId : String} {payload : JobPayload} (queue : Queue) :
      Move services server (.submit uuid4 tenantId payload) { server with queue }
  | claim {worker : Nat} {jobId : String} {locked : List String} {uuid4 : Nat → String}
      {createdAt : Time} (queue : Queue) :
      Move services server (.claim worker jobId locked uuid4 createdAt)
        { server with
          queue
          handlers := Function.update server.handlers worker ((queue.held.find? worker).map
            fun claim => ingestDocument services uuid4 createdAt claim.payload) }
  | work {worker : Nat} {plan : VersionPlan} {delay : Nat} {claim : ClaimedJob} {call : StoreCall}
      {next : Except PyError StoreReply → Handling}
      (holds : server.queue.held.find? worker = some claim)
      (handler : server.handlers worker = some (.call call next)) :
      Move services server (.work worker plan delay)
        (server.worked worker claim call next plan delay)
  | finish {worker : Nat} (queue : Queue) :
      Move services server (.finish worker)
        { server with queue, handlers := Function.update server.handlers worker none }
  | crash {worker : Nat} (queue : Queue) :
      Move services server (.crash worker)
        { server with queue, handlers := Function.update server.handlers worker none }
  | wait {microseconds : Nat} (queue : Queue) :
      Move services server (.wait microseconds) { server with queue }
  | upload {id : Nat} {payload : JobPayload} {uuid4 : Nat → String} {createdAt : Time}
      (uploads : Nat → Option Handling) :
      Move services server (.upload id payload uuid4 createdAt) { server with uploads }
  | store {id : Nat} {plan : VersionPlan} {delay : Nat} (db : Database)
      (uploads : Nat → Option Handling) :
      Move services server (.store id plan delay) { server with db, uploads }

theorem step_move {event : JobEvent} (taken : server.step services event = some after) :
    Move services server event after := by
  cases event with
  | submit uuid4 tenantId payload =>
      obtain ⟨queue, _, rfl⟩ := Option.map_eq_some_iff.mp taken
      exact .submit queue
  | claim worker jobId locked uuid4 createdAt =>
      obtain ⟨queue, _, rfl⟩ := Option.map_eq_some_iff.mp taken
      exact .claim queue
  | work worker plan delay =>
      simp only [step] at taken
      split at taken
      · rename_i holds handler
        obtain rfl := Option.some.inj taken
        exact .work holds handler
      · cases taken
  | finish worker =>
      simp only [step] at taken
      split at taken
      · obtain ⟨queue, _, rfl⟩ := Option.map_eq_some_iff.mp taken
        exact .finish queue
      · cases taken
  | crash worker =>
      obtain ⟨queue, _, rfl⟩ := Option.map_eq_some_iff.mp taken
      exact .crash queue
  | wait microseconds =>
      simp only [step, Queue.step, Option.map_some, Option.some.injEq] at taken
      exact taken ▸ .wait _
  | upload id payload uuid4 createdAt =>
      simp only [step] at taken
      split at taken
      · cases taken
      · obtain rfl := Option.some.inj taken
        exact .upload _
  | store id plan delay =>
      simp only [step] at taken
      split at taken
      · obtain rfl := Option.some.inj taken
        exact .store _ _
      · cases taken

/-- Every handler is what is left of an upload. -/
def HandlersKeepRows (server : JobServer) : Prop :=
  ∀ worker handler, server.handlers worker = some handler → handler.Sends StoreCall.KeepsRows

theorem HandlersKeepRows.update (keep : server.HandlersKeepRows) (worker : Nat)
    {handler : Option Handling} (own : ∀ program ∈ handler, program.Sends StoreCall.KeepsRows) :
    ∀ other program, Function.update server.handlers worker handler other = some program →
      program.Sends StoreCall.KeepsRows := by
  intro other program found
  by_cases same : other = worker
  · subst same
    rw [Function.update_self] at found
    exact own program found
  · rw [Function.update_of_ne same] at found
    exact keep other program found

theorem HandlersKeepRows.step {event : JobEvent} (keep : server.HandlersKeepRows)
    (taken : server.step services event = some after) : after.HandlersKeepRows := by
  have move := step_move taken
  cases move with
  | submit queue => exact keep
  | claim queue =>
      refine keep.update _ fun program started => ?_
      obtain ⟨claim, _, rfl⟩ := Option.map_eq_some_iff.mp started
      exact ingestDocument_sends ..
  | work holds handler =>
      refine keep.update _ fun program rest => ?_
      obtain rfl := Option.some.inj rest
      cases keep _ _ handler with
      | call _ later => exact later _
  | finish queue => exact keep.update _ fun _ none => absurd none (by simp)
  | crash queue => exact keep.update _ fun _ none => absurd none (by simp)
  | wait queue => exact keep
  | upload uploads => exact keep
  | store db uploads => exact keep

theorem persists_eq_some {worker : Nat} {call : PersistCall} :
    server.persists worker = some call ↔
      ∃ next, server.handlers worker = some (.call (.persist call) next) := by
  unfold persists
  split
  · rename_i found
    rw [found]
    constructor
    · intro same
      obtain rfl := Option.some.inj same
      exact ⟨_, rfl⟩
    · rintro ⟨next, same⟩
      cases same
      rfl
  · rename_i other
    constructor
    · intro wrong
      cases wrong
    · rintro ⟨next, found⟩
      exact absurd found (other call next)

/-- A job that has taken effect is not logged again. -/
theorem StillCurrent.quiet {worker : Nat} {plan : VersionPlan} {delay : Nat} {claim : ClaimedJob}
    {call : StoreCall} {next : Except PyError StoreReply → Handling}
    (still : server.StillCurrent (.work worker plan delay))
    (holds : server.queue.held.find? worker = some claim)
    (handler : server.handlers worker = some (.call call next))
    (logged : claim.jobId ∈ server.effects) :
    server.db.makesCurrent call (server.db.step plan delay call).2 = false := by
  cases call with
  | persist call =>
      cases stored : server.db.persistCall plan (server.db.nextNow delay) call with
      | error e =>
          simp only [Database.step, stored, Database.settle, Database.makesCurrent,
            Bool.not_and_self]
      | ok out =>
          have current := still claim holds call (persists_eq_some.mpr ⟨next, handler⟩) logged
            (by rw [stored]; rfl)
          simp only [Database.makesCurrent, current, Bool.not_true, Bool.false_and]
  | _ => rfl

/-- Two workers hold the job, the second since the lease of the first is over. -/
def overlapping : List JobEvent :=
  [.submit "j" "t" (notesJob [1]), .claim 1 "j" [] (fun _ => "a") 0, .work 1 (.first _) 0,
    .wait (lease + 1), .claim 2 "j" [] (fun _ => "b") 0, .work 2 (.first _) 0,
    .work 1 (.first _) 0, .work 2 (.first _) 0, .finish 2, .finish 1]

end JobServer

end ProductionRag
