import ProductionRag.Api.Requests
import ProductionRag.Api.Reupload
import ProductionRag.Chat.History

/-!
# Handling a request

`handle` routes a request to its handler and turns what the handler raises into an
`ApiError`.  Nothing undoes what a handler did before it raised, so each outcome carries
the application it leaves behind.  Storage is in memory; metrics and logs, which nothing
here reads, are left out.
-/

set_option autoImplicit false

namespace ProductionRag

open Basis

/-- A job of the in-process worker, as `as_dict` shows it. -/
structure MemoryJob where
  jobId : String
  tenantId : String
  status : String := "queued"
  error : Option String := none
  result : Option JobResult := none
  createdAt : Time
  updatedAt : Time
  deriving DecidableEq

structure IngestionWorker where
  queue : List (String × DocumentJob)
  jobs : Table String MemoryJob

/-- The application in memory mode. -/
structure Application where
  memory : InMemoryStore
  history : ChatHistoryStore
  worker : IngestionWorker
  maxBodyBytes : Nat
  /-- `int(self.max_body_bytes * 0.74)`, a float product. -/
  maxFileBytes : Nat
  gates : Gates
  /-- The names of the models behind the gateway. -/
  model : String
  /-- `presets_for_ui()` -/
  presets : Json

inductive ResponseBody where
  | status (text : String)
  | me (principal : Principal) (groups : List String) (storage : String) (maxFileBytes : Nat)
      (model : String) (llm : Json)
  | tried (generation : Generation)
  | failedTry (error : String)
  | documents (rows : List Document)
  | document (row : Document)
  | stored (result : JobResult)
  | updated (documentId : String) (row : Option Document)
  | deleted (documentId : String)
  | answered (response : AnswerResponse)
  | job (job : MemoryJob)

abbrev Handled := Except AnswerError (Nat × ResponseBody)

/-- Go on with a value, unless it could not be had; nothing has been done for it. -/
def attempt {α β : Type} (application : Application) (first : Except AnswerError α)
    (next : α → Except AnswerError β × Application) : Except AnswerError β × Application :=
  match first with
  | .error e => (.error e, application)
  | .ok value => next value

def AnswerError.refuse {α : Type} (status : Nat) (message : String) : Except AnswerError α :=
  .error (.api { status, message })

/-- `except (UnicodeError, ValueError)` -/
def AnswerError.unprocessable : AnswerError → AnswerError
  | .raised (.valueError message) => .api { status := 422, message }
  | .raised (.unicodeError message) => .api { status := 422, message }
  | e => e

namespace IngestionWorker

def submit (worker : IngestionWorker) (jobId tenantId : String) (now : Time)
    (payload : DocumentJob) : MemoryJob × IngestionWorker :=
  let job : MemoryJob := { jobId, tenantId, createdAt := now, updatedAt := now }
  (job, { queue := worker.queue ++ [(jobId, payload)], jobs := worker.jobs.set jobId job })

def get (worker : IngestionWorker) (tenantId jobId : String) : Option MemoryJob :=
  (worker.jobs.find? jobId).filter fun job => job.tenantId = tenantId

end IngestionWorker

/-- The value of the named group. -/
def Request.named (request : Request) (group : String) : Except AnswerError String :=
  match request.param with
  | some value => .ok value
  | none => .error (.raised (.keyError group))

/-- What `_answer` refuses before it looks at `llm`. -/
def AnswerRequest.refusal (request : AnswerRequest) (isChat : Bool) : Option ApiError :=
  match request.question, request.tenant with
  | none, _ => some { status := 400, message := "question is required as a string" }
  | some _, .error e => some e
  | some _, .ok _ =>
    if isChat && (request.sessionId.filter fun sessionId => strip sessionId ≠ "").isNone then
      some { status := 400, message := "session_id is required for chat" }
    else none

theorem answer_refusal {request : AnswerRequest} {isChat : Bool} {error : ApiError}
    (refused : request.refusal isChat = some error) :
    answer request isChat = .done (.error (.api error)) := by
  unfold AnswerRequest.refusal at refused
  unfold answer
  split at refused
  · rename_i isQuestion
    rw [isQuestion, ← Option.some.inj refused]
    rfl
  · rename_i isQuestion isTenant
    rw [isQuestion]
    simp only [isTenant, Option.some.inj refused]
  · rename_i isQuestion isTenant
    split at refused
    · rename_i noSession
      rw [isQuestion]
      simp only [isTenant, if_pos noSession]
      rw [← Option.some.inj refused]
      rfl
    · cases refused

namespace Application

section Handlers

variable (surroundings : Surroundings) (application : Application) (request : Request)

/-! ## Documents -/

/-- `_ingest_document` -/
def ingestJob (job : DocumentJob) : Except PyError JobResult × Application :=
  match surroundings.modifiedAt job.modified with
  | .error e => (.error e, application)
  | .ok sourceModifiedAt =>
    let out := application.memory.ingest surroundings.services surroundings.uuid4
      (surroundings.now 0) (fun n => surroundings.now (n + 1)) { job.payload with sourceModifiedAt }
    (out.1, { application with memory := out.2 })

/-- `_create_document` -/
def createDocument : Handled × Application :=
  attempt application ((documentJob surroundings request).mapError .unprocessable) fun job =>
    let out := ingestJob surroundings application job
    ((out.1.mapError fun e => (AnswerError.raised e).unprocessable).map fun stored =>
      (if stored.alreadyExisted then 200 else 201, .stored stored), out.2)

/-- `_update_document` -/
def updateDocument : Handled × Application :=
  let changes : Except AnswerError (Principal × String × Option (List String) × Option String) := do
    let principal ← request.caller
    let tenantId ← request.tenant
    let allowedGroups ←
      if request.has "allowed_groups" then
        ((normalizeGroups (request.get "allowed_groups")).map some).mapError fun e =>
          (AnswerError.raised e).unprocessable
      else .ok none
    let displayName ←
      match request.get "filename" with
      | .null => .ok none
      | .string name =>
        if nonblank name then .ok (some (strip name))
        else AnswerError.refuse 422 "filename must be a non-empty string"
      | _ => AnswerError.refuse 422 "filename must be a non-empty string"
    if allowedGroups = none ∧ displayName = none then
      AnswerError.refuse 422 "send allowed_groups and/or filename to change"
    else .ok (principal, tenantId, allowedGroups, displayName)
  attempt application changes fun (principal, tenantId, allowedGroups, displayName) =>
  attempt application (request.named "document_id") fun documentId =>
    let out := application.memory.updateDocument tenantId documentId
      (sortedGroups principal.groups) allowedGroups displayName (surroundings.now 0)
    (if out.1.1 then .ok (200, .updated documentId out.1.2)
      else AnswerError.refuse 404 "document not found",
      { application with memory := out.2 })

/-- `_list_documents` -/
def listDocuments : Handled := do
  let principal ← request.caller
  let _ ← request.tenant
  let includeSuperseded :=
    (request.query.find? fun field => field.1 = "include_superseded").any fun field =>
      field.2 = "true"
  return (200, .documents (application.memory.listDocuments principal.tenantId
    (sortedGroups principal.groups) includeSuperseded))

/-- `_get_document` -/
def getDocument : Handled := do
  let principal ← request.caller
  let _ ← request.tenant
  let documentId ← request.named "document_id"
  match application.memory.getDocument principal.tenantId documentId
      (sortedGroups principal.groups) with
  | none => AnswerError.refuse 404 "document not found"
  | some row => .ok (200, .document row)

/-- `_delete_document` -/
def deleteDocument : Handled × Application :=
  attempt application request.caller fun principal =>
  attempt application (request.named "document_id") fun documentId =>
  attempt application request.tenant fun tenantId =>
    let out := application.memory.deleteDocument tenantId documentId
      (sortedGroups principal.groups)
    (if out.1 then .ok (200, .deleted documentId)
      else AnswerError.refuse 404 "document not found",
      { application with memory := out.2 })

/-! ## Ingestion jobs -/

/-- `_submit_job` -/
def submitJob : Handled × Application :=
  attempt application ((documentJob surroundings request).mapError .unprocessable) fun job =>
    let out := application.worker.submit (surroundings.uuid4 0) job.payload.tenantId
      (surroundings.now 0) job
    (.ok (202, .job out.1), { application with worker := out.2 })

/-- `_get_job` -/
def getJob : Handled := do
  let tenantId ← request.tenant
  let jobId ← request.named "job_id"
  match application.worker.get tenantId jobId with
  | none => AnswerError.refuse 404 "job not found"
  | some job => .ok (200, .job job)

/-! ## The caller and the model -/

/-- `_me` -/
def me : Handled := do
  let principal ← request.caller
  return (200, .me principal (sortedGroups principal.groups) "memory" application.maxFileBytes
    application.model application.presets)

/-- `_test_llm` -/
def testLlm : Handled :=
  match surroundings.userProvider (request.get "llm") with
  | .error (.settings message) => AnswerError.refuse 422 message
  | .error (.raised e) => .error (.raised e)
  | .ok none => AnswerError.refuse 422 "llm settings are required"
  | .ok (some provider) =>
    match surroundings.tryProvider provider with
    | .error e => .error (.raised e)
    | .ok generation =>
      if generation.degraded then
        .ok (200, .failedTry ((generation.note.filter (· ≠ "")).getD "the call failed"))
      else .ok (200, .tried generation)

/-! ## Query and chat -/

/-- What answers a question of `_answer`: the chat history, the documents, and for the rest
the surroundings. -/
def replyTo (history : ChatHistoryStore) (past : List (Exchange AnswerReply)) :
    (question : AnswerQuestion) → Except PyError (AnswerReply question) × ChatHistoryStore
  | .history tenantId userId sessionId =>
    let out := history.get { tenantId, userId, sessionId }
    (.ok out.1, out.2)
  | .append tenantId userId sessionId turns =>
    (.ok (), history.append { tenantId, userId, sessionId } turns)
  | .retrieve principal query =>
    (.ok (retrieveMemory surroundings.score application.gates application.memory principal query),
      history)
  | .rewriteQuery own question prior =>
    (surroundings.reply past (.rewriteQuery own question prior), history)
  | .remaining tenantId => (surroundings.reply past (.remaining tenantId), history)
  | .secondsUntilReset => (surroundings.reply past .secondsUntilReset, history)
  | .complete own question context prior =>
    (surroundings.reply past (.complete own question context prior), history)
  | .spend tenantId tokens => (surroundings.reply past (.spend tenantId tokens), history)

/-- `_answer` with what answers it; an exception ends it where it is. -/
def converse (history : ChatHistoryStore) (past : List (Exchange AnswerReply)) :
    AnswerDialogue Answered → Answered × ChatHistoryStore
  | .done result => (result, history)
  | .ask question next =>
    match replyTo surroundings application history past question with
    | (.error e, after) => (.error (.raised e), after)
    | (.ok answer, after) => converse after (past ++ [⟨question, answer⟩]) (next answer)

/-- `_answer` with the provider of the caller, or why it is refused. -/
def answerWith (asked : AnswerRequest) (isChat : Bool)
    (userProvider : Except String (Option GatewayProvider)) : Handled × Application :=
  let out := converse surroundings application application.history []
    (answer { asked with userProvider } isChat)
  (out.1.map fun response => (200, .answered response), { application with history := out.2 })

/-- `_query` and `_chat` -/
def answerTo (isChat : Bool) : Handled × Application :=
  attempt application request.caller fun principal =>
    let asked : AnswerRequest :=
      { principal, claimedTenant := request.claimedTenant
        question := (request.get "question").string?
        sessionId := (request.get "session_id").string? }
    match surroundings.userProvider (request.get "llm") with
    | .ok provider => answerWith surroundings application asked isChat (.ok provider)
    | .error (.settings message) =>
      answerWith surroundings application asked isChat (.error message)
    | .error (.raised e) =>
      (.error (((asked.refusal isChat).map .api).getD (.raised e)), application)

end Handlers

end Application

/-! ## Routes -/

inductive Endpoint where
  | live
  | ready
  | me
  | testLlm
  | listDocuments
  | createDocument
  | getDocument
  | deleteDocument
  | updateDocument
  | query
  | chat
  | submitJob
  | getJob
  deriving DecidableEq

/-- A literal path, or a path followed by a named group `[^/]+`. -/
inductive RoutePattern where
  | literal (path : String)
  | group (path : String)

namespace RoutePattern

/-- `fullmatch`, with the value of the named group. -/
def fullmatch : RoutePattern → String → Option (Option String)
  | .literal path, requested => if requested = path then some none else none
  | .group path, requested =>
    let rest := requested.toList.drop path.length
    if path.toList.isPrefixOf requested.toList && !rest.isEmpty && rest.all (· ≠ '/') then
      some (some (String.ofList rest))
    else none

end RoutePattern

structure Route where
  method : String
  pattern : RoutePattern
  handler : Endpoint
  requiresAuth : Bool

def routes : List Route :=
  [⟨"GET", .literal "/health/live", .live, false⟩,
   ⟨"GET", .literal "/health/ready", .ready, false⟩,
   ⟨"GET", .literal "/v1/me", .me, true⟩,
   ⟨"POST", .literal "/v1/llm/test", .testLlm, true⟩,
   ⟨"GET", .literal "/v1/documents", .listDocuments, true⟩,
   ⟨"POST", .literal "/v1/documents", .createDocument, true⟩,
   ⟨"GET", .group "/v1/documents/", .getDocument, true⟩,
   ⟨"DELETE", .group "/v1/documents/", .deleteDocument, true⟩,
   ⟨"PATCH", .group "/v1/documents/", .updateDocument, true⟩,
   ⟨"POST", .literal "/v1/query", .query, true⟩,
   ⟨"POST", .literal "/v1/chat", .chat, true⟩,
   ⟨"POST", .literal "/v1/ingestion/jobs", .submitJob, true⟩,
   ⟨"GET", .group "/v1/ingestion/jobs/", .getJob, true⟩]

/-- `{key.lower(): value}`; a later header of the same name wins. -/
def Surroundings.header (surroundings : Surroundings) (http : HttpRequest) (name : String) :
    Option String :=
  (http.headers.reverse.find? fun field => surroundings.lower field.1 = name).map Prod.snd

/-- `bytes.strip()` leaves nothing. -/
def blankBody (body : List UInt8) : Bool :=
  body.all fun byte => [9, 10, 11, 12, 13, 32].contains byte

/-- `url.path.rstrip("/") or "/"` -/
def routePath (path : String) : String :=
  let trimmed := String.ofList (path.toList.rdropWhile (· = '/'))
  if trimmed = "" then "/" else trimmed

structure Response where
  status : Nat
  body : ResponseBody
  requestId : String

/-- An `ApiError` that left `handle`. -/
structure Refusal where
  error : ApiError
  requestId : String

namespace Application

section Routing

variable (surroundings : Surroundings) (application : Application)

def serve (endpoint : Endpoint) (request : Request) : Handled × Application :=
  match endpoint with
  | .live => (.ok (200, .status "ok"), application)
  | .ready => (.ok (200, .status "ready"), application)
  | .me => (me application request, application)
  | .testLlm => (testLlm surroundings request, application)
  | .listDocuments => (listDocuments application request, application)
  | .createDocument => createDocument surroundings application request
  | .getDocument => (getDocument application request, application)
  | .deleteDocument => deleteDocument application request
  | .updateDocument => updateDocument surroundings application request
  | .query => answerTo surroundings application request false
  | .chat => answerTo surroundings application request true
  | .submitJob => submitJob surroundings application request
  | .getJob => (getJob application request, application)

/-- `_authenticate` -/
def authenticate (http : HttpRequest) : Except AnswerError Principal :=
  match surroundings.authenticate (surroundings.header http "x-api-key") with
  | .error e => .error (.raised e)
  | .ok none => AnswerError.refuse 401 "invalid or missing API key"
  | .ok (some principal) => .ok principal

/-- The rate limit of the caller. -/
def acquire (principal : Principal) : Except AnswerError Unit :=
  match surroundings.acquire (principal.tenantId ++ "/" ++ principal.userId) with
  | .error e => .error (.raised e)
  | .ok wait =>
    if 0 < wait then
      .error (.api { status := 429, message := "rate limit exceeded",
                     retryAfter := some (max 1 (roundHalfEven wait)).toNat })
    else .ok ()

/-- `_json_body` -/
def jsonBody (body : List UInt8) : Except AnswerError (List (String × Json)) :=
  if blankBody body then .ok []
  else
    match surroundings.loads body with
    | .error .invalid => AnswerError.refuse 400 "request body must be valid JSON"
    | .error (.raised e) => .error (.raised e)
    | .ok (.object fields) => .ok fields
    | .ok _ => AnswerError.refuse 400 "request body must be a JSON object"

/-- What a route asks of a request before its handler sees it. -/
def accept (route : Route) (http : HttpRequest) (param : Option String)
    (query : List (String × String)) : Except AnswerError Request := do
  let principal ←
    if route.requiresAuth then do
      let principal ← authenticate surroundings http
      acquire surroundings principal
      .ok (some principal)
    else .ok none
  if application.maxBodyBytes < http.body.length then
    AnswerError.refuse 413 "request body is too large"
  else
    let payload ← jsonBody surroundings http.body
    return { param, payload, principal, query }

/-- The first route that matches the path and the method; `allowed` remembers that some
route matched the path. -/
def dispatch (http : HttpRequest) (path : String) (query : List (String × String)) :
    List Route → Bool → Handled × Application
  | [], true => (AnswerError.refuse 405 "method not allowed", application)
  | [], false => (AnswerError.refuse 404 "route not found", application)
  | route :: rest, allowed =>
    match route.pattern.fullmatch path with
    | none => dispatch http path query rest allowed
    | some param =>
      if route.method ≠ http.method then dispatch http path query rest true
      else
        attempt application (accept surroundings application route http param query)
          (serve surroundings application route.handler)

/-- `_route` -/
def route (http : HttpRequest) : Handled × Application :=
  let target : Except AnswerError (String × List (String × String)) := do
    let url ← (surroundings.urlsplit http.path).mapError .raised
    let query ← (surroundings.parseQs url.2).mapError .raised
    return (routePath url.1, query)
  attempt application target fun (path, query) =>
    dispatch surroundings application http path query routes false

/-- `handle` -/
def handle (http : HttpRequest) : Except Refusal Response × Application :=
  let requestId := ((surroundings.header http "x-request-id").filter (· ≠ "")).getD
    (surroundings.uuid4 0)
  match route surroundings application http with
  | (.ok (status, body), after) => (.ok { status, body, requestId }, after)
  | (.error (.api error), after) => (.error { error, requestId }, after)
  | (.error (.raised _), after) =>
    (.error { error := { status := 500, message := "internal server error" }, requestId }, after)

end Routing

end Application

end ProductionRag
