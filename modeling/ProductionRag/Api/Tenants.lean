import ProductionRag.Api.DisplayNames
import ProductionRag.Store.Tenants

/-!
# Tenants of the application do not see each other

Documents, chat histories and jobs are kept under the tenant of the caller who made them.  A
request of one tenant is answered from its own part of the application and changes no other.
What lies outside the application, rate limits and budgets included, comes with each event.
-/

set_option autoImplicit false

namespace ProductionRag

open Basis
open InMemoryStore (ownedBy)

/-! ## The part of a tenant -/

namespace ChatHistoryStore

def ofTenant (tenantId : String) (session : ChatSession) : Bool := session.tenantId == tenantId

/-- The sessions of one tenant. -/
def only (store : ChatHistoryStore) (tenantId : String) : ChatHistoryStore :=
  { store with messages := store.messages.restrict (ofTenant tenantId) }

variable (store : ChatHistoryStore) (tenantId : String) {session : ChatSession}

end ChatHistoryStore

def DocumentJob.tenantId (job : DocumentJob) : String := job.payload.tenantId

namespace IngestionWorker

/-- The jobs of one tenant, queued or not. -/
def only (worker : IngestionWorker) (tenantId : String) : IngestionWorker where
  queue := worker.queue.filter fun entry => entry.2.tenantId == tenantId
  jobs := worker.jobs.filter fun _ job => job.tenantId == tenantId

/-- A queued job works for a trimmed tenant and is registered for it. -/
def QueueOwned (worker : IngestionWorker) : Prop :=
  ∀ entry ∈ worker.queue, strip entry.2.tenantId = entry.2.tenantId ∧
    ∃ job, worker.jobs.find? entry.1 = some job ∧ job.tenantId = entry.2.tenantId

variable (worker : IngestionWorker) (tenantId : String)

theorem QueueOwned.submit {worker : IngestionWorker} (owned : worker.QueueOwned) {jobId : String}
    (fresh : worker.jobs.find? jobId = none) (now : Time) {payload : DocumentJob}
    (trimmed : strip payload.tenantId = payload.tenantId) :
    (worker.submit jobId payload.tenantId now payload).2.QueueOwned := by
  intro entry member
  simp only [IngestionWorker.submit, Table.find?_set]
  rcases List.mem_append.mp member with queued | new
  · obtain ⟨trimmed, job, registered, own⟩ := owned entry queued
    have old : entry.1 ≠ jobId := by
      rintro rfl
      rw [fresh] at registered
      cases registered
    rw [if_neg old]
    exact ⟨trimmed, job, registered, own⟩
  · obtain rfl := List.mem_singleton.mp new
    rw [if_pos rfl]
    exact ⟨trimmed, _, rfl, rfl⟩

/-- A change of a job that keeps its tenant. -/
theorem QueueOwned.modify {worker : IngestionWorker} (owned : worker.QueueOwned)
    {queue : List (String × DocumentJob)} (fewer : ∀ entry ∈ queue, entry ∈ worker.queue)
    (jobId : String) {change : MemoryJob → MemoryJob}
    (keeps : ∀ job, (change job).tenantId = job.tenantId) :
    QueueOwned { queue, jobs := worker.jobs.modify jobId change } := by
  intro entry member
  obtain ⟨trimmed, job, registered, own⟩ := owned entry (fewer entry member)
  simp only [Table.find?_modify, registered]
  refine ⟨trimmed, ?_⟩
  split
  · exact ⟨change job, rfl, (keeps job).trans own⟩
  · exact ⟨job, rfl, own⟩

end IngestionWorker

namespace MemoryJob

/-- What `_run` reports of a job that it has taken. -/
def started (now : Time) (job : MemoryJob) : MemoryJob :=
  { job with status := "running", updatedAt := now }

theorem started_tenantId (now : Time) (job : MemoryJob) :
    (job.started now).tenantId = job.tenantId := rfl

theorem reported_tenantId (now : Time) (outcome : Outcome) (job : MemoryJob) :
    (job.reported now outcome).tenantId = job.tenantId := by
  cases outcome <;> rfl

end MemoryJob

namespace Application

/-- What a tenant could see, and the configuration. -/
def only (application : Application) (tenantId : String) : Application :=
  { application with
    memory := application.memory.only tenantId
    history := application.history.only tenantId
    worker := application.worker.only tenantId }

end Application

/-! ## What an answer asks for -/

/-- The tenant whose history or documents a question is about, if it is about any. -/
def AnswerQuestion.Within (tenantId : String) : AnswerQuestion → Prop
  | .history tenant _ _ => tenant = tenantId
  | .append tenant _ _ _ => tenant = tenantId
  | .retrieve principal _ => principal.tenantId = tenantId
  | _ => True

section Asks

variable (principal : Principal) (session : Option String) (question searchQuery : String)
  (prior : List ChatTurn) (own : Bool) (evidence : List Ranked)

end Asks

namespace Application

section Converse

variable (surroundings : Surroundings) (application : Application) (history : ChatHistoryStore)
  (past : List (Exchange AnswerReply)) {tenantId other : String}

end Converse

end Application

/-! ## Ingestion -/

namespace InMemoryStore

end InMemoryStore

/-! ## Handlers -/

/-- The caller, if there is one, belongs to the tenant. -/
def Request.Of (request : Request) (tenantId : String) : Prop :=
  ∀ principal, request.principal = some principal →
    principal.tenantId = tenantId ∧ strip tenantId = tenantId

section Callers

variable {request : Request} {tenantId : String} (isOf : request.Of tenantId)

include isOf

theorem caller_of {principal : Principal} (isCaller : request.caller = .ok principal) :
    principal.tenantId = tenantId ∧ strip tenantId = tenantId := by
  unfold Request.caller at isCaller
  split at isCaller
  · rename_i known
    obtain rfl := Except.ok.inj isCaller
    exact isOf _ known
  · cases isCaller

theorem tenant_of {tenant : String} (isTenant : request.tenant = .ok tenant) :
    tenant = tenantId := by
  obtain ⟨principal, isCaller, claimed⟩ := Except.bind_ok_iff.mp isTenant
  have agreed := Except.mapError_eq_ok.mp claimed
  rw [AnswerRequest.tenant] at agreed
  split at agreed
  · exact (Except.ok.inj agreed).symm.trans (caller_of isOf isCaller).1
  · cases agreed

/-- An upload is a job for the tenant of its caller. -/
theorem documentJob_of {surroundings : Surroundings} {job : DocumentJob}
    (read : documentJob surroundings request = .ok job) :
    job.tenantId = tenantId ∧ strip tenantId = tenantId := by
  unfold documentJob at read
  extract_lets withFilename at read
  have fromFilename : ∀ filename, withFilename filename = .ok job →
      job.tenantId = tenantId ∧ strip tenantId = tenantId := by
    intro filename read
    unfold withFilename at read
    obtain ⟨data, _, read⟩ := Except.bind_ok_iff.mp read
    extract_lets withType at read
    have fromType : ∀ contentType, withType contentType = .ok job →
        job.tenantId = tenantId ∧ strip tenantId = tenantId := by
      intro contentType read
      unfold withType at read
      obtain ⟨principal, isCaller, read⟩ := Except.bind_ok_iff.mp read
      obtain ⟨tenant, isTenant, read⟩ := Except.bind_ok_iff.mp read
      extract_lets withGroups at read
      have fromGroups : ∀ groups, withGroups groups = .ok job →
          job.tenantId = tenantId ∧ strip tenantId = tenantId := by
        intro groups read
        unfold withGroups at read
        obtain ⟨source, _, built⟩ := Except.bind_ok_iff.mp read
        obtain rfl := Except.ok.inj built
        exact ⟨tenant_of isOf isTenant, (caller_of isOf isCaller).2⟩
      split at read
      · obtain ⟨groups, _, read⟩ := Except.bind_ok_iff.mp read
        exact fromGroups groups read
      · exact fromGroups none read
    split at read
    · exact fromType none read
    · exact fromType _ read
    · cases read
  split at read
  · exact fromFilename _ read
  · cases read

end Callers

namespace Application

section Attempt

variable {α β : Type} {application : Application} {tenantId : String}
  {first : Except AnswerError α} {next next' : α → Except AnswerError β × Application}

theorem attempt_only (same : ∀ value, first = .ok value →
      next' value = ((next value).1, (next value).2.only tenantId)) :
    attempt (application.only tenantId) first next' =
      ((attempt application first next).1, (attempt application first next).2.only tenantId) := by
  cases first with
  | error e => rfl
  | ok value => exact same value rfl

theorem attempt_other (same : ∀ value, first = .ok value →
      (next value).2.only tenantId = application.only tenantId) :
    (attempt application first next).2.only tenantId = application.only tenantId := by
  cases first with
  | error e => rfl
  | ok value => exact same value rfl

end Attempt

section Handlers

variable (surroundings : Surroundings) (application : Application) {request : Request}
  {tenantId : String}

/-- No job goes by the next random id. -/
def FreshId : Prop := application.worker.jobs.find? (surroundings.uuid4 0) = none

section Own

variable (isOf : request.Of tenantId)

include isOf

theorem updateDocument_only :
    updateDocument surroundings (application.only tenantId) request =
      ((updateDocument surroundings application request).1,
        (updateDocument surroundings application request).2.only tenantId) := by
  unfold updateDocument
  extract_lets changes
  refine attempt_only fun sent read => ?_
  obtain ⟨principal, tenant, allowedGroups, displayName⟩ := sent
  have isTenant : request.tenant = .ok tenant := by
    unfold changes at read
    obtain ⟨caller, _, read⟩ := Except.bind_ok_iff.mp read
    obtain ⟨tenant', isTenant, read⟩ := Except.bind_ok_iff.mp read
    extract_lets withGroups at read
    have fromGroups : ∀ groups,
        withGroups groups = .ok (principal, tenant, allowedGroups, displayName) →
          tenant' = tenant := by
      intro groups read
      unfold withGroups at read
      extract_lets withName at read
      have fromName : ∀ name, withName name = .ok (principal, tenant, allowedGroups, displayName) →
          tenant' = tenant := by
        intro name read
        dsimp only [withName] at read
        split at read
        · cases read
        · cases read
          rfl
      split at read
      · exact fromName none read
      · split at read
        · exact fromName _ read
        · cases read
      · cases read
    split at read
    · obtain ⟨groups, _, read⟩ := Except.bind_ok_iff.mp read
      rw [← fromGroups groups read]
      exact isTenant
    · rw [← fromGroups none read]
      exact isTenant
  obtain rfl := tenant_of isOf isTenant
  refine attempt_only fun documentId named => ?_
  have memory : (application.only tenant).memory = application.memory.only tenant := rfl
  dsimp only
  rw [memory, InMemoryStore.updateDocument_only]
  rfl

theorem listDocuments_only :
    listDocuments (application.only tenantId) request = listDocuments application request := by
  rw [listDocuments, listDocuments]
  cases isCaller : request.caller with
  | error e => rfl
  | ok principal =>
      obtain ⟨rfl, _⟩ := caller_of isOf isCaller
      have memory : (application.only principal.tenantId).memory =
        application.memory.only principal.tenantId := rfl
      simp only [bind, Except.bind, memory, InMemoryStore.listDocuments_only]

theorem getDocument_only :
    getDocument (application.only tenantId) request = getDocument application request := by
  rw [getDocument, getDocument]
  cases isCaller : request.caller with
  | error e => rfl
  | ok principal =>
      obtain ⟨rfl, _⟩ := caller_of isOf isCaller
      have memory : (application.only principal.tenantId).memory =
        application.memory.only principal.tenantId := rfl
      simp only [bind, Except.bind, memory, InMemoryStore.getDocument_only]

theorem deleteDocument_only :
    deleteDocument (application.only tenantId) request =
      ((deleteDocument application request).1,
        (deleteDocument application request).2.only tenantId) := by
  rw [deleteDocument, deleteDocument]
  refine attempt_only fun principal isCaller => ?_
  refine attempt_only fun documentId named => ?_
  refine attempt_only fun tenant isTenant => ?_
  obtain rfl := tenant_of isOf isTenant
  have memory : (application.only tenant).memory = application.memory.only tenant := rfl
  dsimp only
  rw [memory, InMemoryStore.deleteDocument_only]
  rfl

end Own

section Others

variable {other : String} (different : other ≠ tenantId) (isOf : request.Of other)

include different isOf

theorem updateDocument_other :
    (updateDocument surroundings application request).2.only tenantId =
      application.only tenantId := by
  rcases updateDocument_cases surroundings application request with
    same | ⟨principal, tenant, documentId, allowedGroups, displayName, patches, same⟩
  · rw [same]
  · obtain rfl := tenant_of isOf patches.tenant
    rw [same]
    simp only [only, application.memory.updateDocument_other different]

theorem deleteDocument_other :
    (deleteDocument application request).2.only tenantId = application.only tenantId := by
  rw [deleteDocument]
  refine attempt_other fun principal isCaller => ?_
  refine attempt_other fun documentId named => ?_
  refine attempt_other fun tenant isTenant => ?_
  obtain rfl := tenant_of isOf isTenant
  simp only [only, application.memory.deleteDocument_other different]

end Others

/-! ## Requests over HTTP -/

end Handlers

section Routing

variable (surroundings : Surroundings) (application : Application) {http : HttpRequest}
  {tenantId other : String}

/-- The credential of the request, if it has a valid one, is one of the tenant. -/
def Authenticates (http : HttpRequest) (tenantId : String) : Prop :=
  ∀ principal, surroundings.authenticate (surroundings.header http "x-api-key") =
    .ok (some principal) → principal.tenantId = tenantId ∧ strip tenantId = tenantId

/-- An accepted request is its caller's, if the route asks for one. -/
theorem accept_principal {route : Route} {param : Option String} {query : List (String × String)}
    {request : Request}
    (accepted : accept surroundings application route http param query = .ok request) :
    if route.requiresAuth then ∃ principal, request.principal = some principal ∧
      surroundings.authenticate (surroundings.header http "x-api-key") = .ok (some principal)
    else request.principal = none := by
  unfold accept at accepted
  extract_lets withPrincipal at accepted
  have isKnown : ∀ principal, withPrincipal principal = .ok request →
      request.principal = principal := by
    intro principal accepted
    dsimp only [withPrincipal] at accepted
    split at accepted
    · cases accepted
    · obtain ⟨payload, _, built⟩ := Except.bind_ok_iff.mp accepted
      rw [← Except.ok.inj built]
  split at accepted
  · rename_i requiresAuth
    obtain ⟨principal, authenticated, accepted⟩ := Except.bind_ok_iff.mp accepted
    obtain ⟨_, acquired, accepted⟩ := Except.bind_ok_iff.mp accepted
    rw [if_pos requiresAuth]
    refine ⟨principal, isKnown _ accepted, ?_⟩
    unfold authenticate at authenticated
    split at authenticated
    · cases authenticated
    · cases authenticated
    · rename_i known
      obtain rfl := Except.ok.inj authenticated
      exact known
  · rename_i noAuth
    rw [if_neg noAuth]
    exact isKnown none accepted

theorem accept_of (authenticates : Authenticates surroundings http tenantId) {route : Route}
    {param : Option String} {query : List (String × String)} {request : Request}
    (accepted : accept surroundings application route http param query = .ok request) :
    request.Of tenantId := by
  intro caller known
  have principal := accept_principal surroundings application accepted
  split at principal
  · obtain ⟨principal, isPrincipal, authenticated⟩ := principal
    obtain rfl := Option.some.inj (isPrincipal.symm.trans known)
    exact authenticates principal authenticated
  · cases principal.symm.trans known

/-- What a handler left behind is what the request leaves behind. -/
theorem handle_snd : (handle surroundings application http).2 =
    (route surroundings application http).2 := by
  unfold handle
  cases route surroundings application http with
  | mk result after =>
      cases result with
      | ok response => rfl
      | error e => cases e <;> rfl

/-- The application once the job at the head of the queue is running. -/
def started (startedAt : Time) (jobId : String) (rest : List (String × DocumentJob)) :
    Application :=
  { application with
    worker := { queue := rest
                jobs := application.worker.jobs.modify jobId (MemoryJob.started startedAt) } }

/-- The application once the end of the job is reported. -/
def finished (finishedAt : Time) (jobId : String)
    (out : Except PyError JobResult × Application) : Application :=
  { out.2 with
    worker := { queue := out.2.worker.queue
                jobs := out.2.worker.jobs.modify jobId fun job =>
                  job.reported finishedAt (outcomeOf out.1) } }

section Work

variable {jobId : String} {payload : DocumentJob} {rest : List (String × DocumentJob)}
  (startedAt finishedAt : Time)

theorem work_cons (queued : application.worker.queue = (jobId, payload) :: rest) :
    application.work surroundings startedAt finishedAt =
      some (finished finishedAt jobId
        (ingestJob surroundings (started application startedAt jobId rest) payload)) := by
  rw [work, queued]
  simp only [finished, ingestJob_worker]
  rfl

theorem QueueOwned.work (owned : application.worker.QueueOwned)
    (queued : application.worker.queue = (jobId, payload) :: rest) :
    (finished finishedAt jobId
      (ingestJob surroundings (started application startedAt jobId rest) payload)).worker.QueueOwned
    := by
  have running : (started application startedAt jobId rest).worker.QueueOwned :=
    owned.modify (fun entry member => queued ▸ List.mem_cons_of_mem _ member) jobId
      (MemoryJob.started_tenantId startedAt)
  rw [← ingestJob_worker surroundings _ payload] at running
  exact running.modify (fun _ => id) jobId (MemoryJob.reported_tenantId finishedAt _)

end Work

/-! ## Whole runs -/

theorem answerTo_worker (request : Request) (isChat : Bool) :
    (answerTo surroundings application request isChat).2.worker = application.worker := by
  rw [answerTo]
  cases request.caller with
  | error e => rfl
  | ok principal =>
      dsimp only [attempt]
      split <;> rfl

/-- An upload is queued under the next random id; nothing else touches the queue. -/
theorem serve_worker (endpoint : Endpoint) (request : Request) :
    (serve surroundings application endpoint request).2.worker = application.worker ∨
      ∃ job, endpoint = .submitJob ∧ documentJob surroundings request = .ok job ∧
        (serve surroundings application endpoint request).2.worker =
          (application.worker.submit (surroundings.uuid4 0) job.tenantId (surroundings.now 0)
            job).2 := by
  cases endpoint with
  | live => exact Or.inl rfl
  | ready => exact Or.inl rfl
  | me => exact Or.inl rfl
  | testLlm => exact Or.inl rfl
  | listDocuments => exact Or.inl rfl
  | getDocument => exact Or.inl rfl
  | getJob => exact Or.inl rfl
  | createDocument =>
      left
      simp only [serve, createDocument]
      cases (documentJob surroundings request).mapError AnswerError.unprocessable with
      | error e => rfl
      | ok job => exact ingestJob_worker surroundings application job
  | deleteDocument =>
      left
      simp only [serve, deleteDocument]
      cases request.caller with
      | error e => rfl
      | ok principal =>
          cases request.named "document_id" with
          | error e => rfl
          | ok documentId => cases request.tenant <;> rfl
  | updateDocument =>
      left
      rcases updateDocument_cases surroundings application request with
        same | ⟨_, _, _, _, _, _, same⟩
      · simp only [serve, same]
      · simp only [serve, same]
  | query => exact Or.inl (answerTo_worker surroundings application request false)
  | chat => exact Or.inl (answerTo_worker surroundings application request true)
  | submitJob =>
      simp only [serve, submitJob]
      cases read : documentJob surroundings request with
      | error e => exact Or.inl rfl
      | ok job => exact Or.inr ⟨job, trivial, rfl, rfl⟩

theorem QueueOwned.handle (owned : application.worker.QueueOwned)
    (authenticates : Authenticates surroundings http tenantId)
    (fresh : FreshId surroundings application) :
    (handle surroundings application http).2.worker.QueueOwned := by
  have served : ∀ endpoint request, request.Of tenantId →
      (serve surroundings application endpoint request).2.worker.QueueOwned := by
    intro endpoint request isOf
    rcases serve_worker surroundings application endpoint request with
      same | ⟨job, _, read, same⟩
    · rw [same]
      exact owned
    · obtain ⟨own, trimmed⟩ := documentJob_of isOf read
      rw [same]
      exact owned.submit fresh _ (own.symm ▸ trimmed)
  have dispatched : ∀ path query table allowed,
      (dispatch surroundings application http path query table allowed).2.worker.QueueOwned := by
    intro path query table
    induction table with
    | nil => intro allowed; cases allowed <;> exact owned
    | cons route rest ih =>
        intro allowed
        rw [dispatch]
        split
        · exact ih allowed
        · split
          · exact ih true
          · cases accepted : accept surroundings application route http _ query with
            | error e => exact owned
            | ok request =>
                exact served route.handler request
                  (accept_of surroundings application authenticates accepted)
  rw [handle_snd, route]
  dsimp only
  generalize (do
    let url ← (surroundings.urlsplit http.path).mapError AnswerError.raised
    let query ← (surroundings.parseQs url.2).mapError AnswerError.raised
    return (routePath url.1, query)) = target
  cases target with
  | error e => exact owned
  | ok target => exact dispatched target.1 target.2 routes false

end Routing

end Application

/-- A request over HTTP, or a round of the worker, with what it meets outside the application. -/
inductive AppEvent where
  | http (surroundings : Surroundings) (request : HttpRequest)
  | work (surroundings : Surroundings) (startedAt finishedAt : Time)

/-- An event and the tenant that it works for. -/
structure TenantEvent where
  tenantId : String
  event : AppEvent

namespace Application

/-- The response to a request; a round of the worker answers nobody. -/
def turn (application : Application) : AppEvent → Option (Except Refusal Response) × Application
  | .http surroundings http =>
    (some (handle surroundings application http).1, (handle surroundings application http).2)
  | .work surroundings startedAt finishedAt =>
    (none, (application.work surroundings startedAt finishedAt).getD application)

def machine : Mealy Application TenantEvent (Option (Except Refusal Response)) :=
  ⟨fun application event => application.turn event.event⟩

end Application

end ProductionRag
