import ProductionRag.Api.Handle

/-!
# Failed requests

A handler checks before it writes, and what it calls to write does nothing when it
raises.  So a request that fails leaves the documents, their chunks and the chat
messages as it found them.
-/

set_option autoImplicit false

namespace ProductionRag

open Basis

/-! ## The store -/

namespace InMemoryStore

theorem ingest_error {store : InMemoryStore} {services : Services} {uuid4 : Nat → String}
    {createdAt : Time} {turns : Nat → Time} {job : JobPayload} {e : PyError}
    (raised : (store.ingest services uuid4 createdAt turns job).1 = .error e) :
    (store.ingest services uuid4 createdAt turns job).2 = store := by
  cases content : job.contentBase64 with
  | none => simp only [ingest, ingestDocument, content, Program.run]
  | some data =>
      rw [ingest_eq _ _ _ _ _ content] at raised ⊢
      split at raised
      · cases raised
      · split at raised
        · rfl
        · split at raised
          · rfl
          · cases raised

theorem updateDocument_notFound {store : InMemoryStore} {tenantId documentId : String}
    {groups : List String} {allowedGroups : Option (List String)} {displayName : Option String}
    {now : Time}
    (notFound : (store.updateDocument tenantId documentId groups allowedGroups displayName
      now).1.1 = false) :
    (store.updateDocument tenantId documentId groups allowedGroups displayName now).2 = store := by
  unfold updateDocument at notFound ⊢
  split
  · rfl
  · rename_i found
    rw [found] at notFound
    dsimp only at notFound
    split at notFound
    · cases notFound
    · rename_i hidden
      rw [if_neg hidden]

theorem deleteDocument_notFound {store : InMemoryStore} {tenantId documentId : String}
    {groups : List String}
    (notFound : (store.deleteDocument tenantId documentId groups).1 = false) :
    (store.deleteDocument tenantId documentId groups).2 = store := by
  unfold deleteDocument at notFound ⊢
  split
  · rfl
  · rename_i found
    rw [found] at notFound
    cases notFound

end InMemoryStore

/-- The same documents and chunks, and the same messages in every chat. -/
structure Application.SameData (after before : Application) : Prop where
  memory : after.memory = before.memory
  history : ∀ session, after.history.messagesOf session = before.history.messagesOf session

namespace Application

theorem SameData.refl (application : Application) : application.SameData application :=
  ⟨rfl, fun _ => rfl⟩

/-- Unless there is a result, the data is what it was. -/
def Undisturbed {α : Type} (application : Application)
    (outcome : Except AnswerError α × Application) : Prop :=
  ∀ e, outcome.1 = .error e → outcome.2.SameData application

section Handlers

variable {surroundings : Surroundings} {application : Application} {request : Request}

theorem undisturbed_self {α : Type} (result : Except AnswerError α) :
    application.Undisturbed (result, application) :=
  fun _ _ => .refl application

theorem attempt_undisturbed {α β : Type} {first : Except AnswerError α}
    {next : α → Except AnswerError β × Application}
    (later : ∀ value, application.Undisturbed (next value)) :
    application.Undisturbed (attempt application first next) := by
  cases first with
  | error e => exact undisturbed_self _
  | ok value => exact later value

/-- An outcome that only the memory store decides. -/
theorem undisturbed_of_memory {α : Type} {result : Except AnswerError α} {memory : InMemoryStore}
    (unchanged : ∀ e, result = .error e → memory = application.memory) :
    application.Undisturbed (result, { application with memory }) :=
  fun e failed => ⟨unchanged e failed, fun _ => rfl⟩

/-! ## The handlers that write -/

theorem createDocument_undisturbed :
    application.Undisturbed (createDocument surroundings application request) := by
  apply attempt_undisturbed
  intro job e failed
  unfold ingestJob at failed ⊢
  split
  · exact .refl application
  · rename_i sourceModifiedAt read
    rw [read] at failed
    refine ⟨?_, fun _ => rfl⟩
    dsimp only at failed ⊢
    cases result : (application.memory.ingest surroundings.services surroundings.uuid4
        (surroundings.now 0) (fun n => surroundings.now (n + 1))
        { job.payload with sourceModifiedAt }).1 with
    | error e => exact InMemoryStore.ingest_error result
    | ok stored =>
        rw [result] at failed
        cases failed

theorem updateDocument_undisturbed :
    application.Undisturbed (updateDocument surroundings application request) := by
  apply attempt_undisturbed
  intro changes
  apply attempt_undisturbed
  intro documentId
  apply undisturbed_of_memory
  intro e failed
  split at failed
  · cases failed
  · rename_i notFound
    exact InMemoryStore.updateDocument_notFound (Bool.eq_false_iff.mpr notFound)

theorem deleteDocument_undisturbed :
    application.Undisturbed (deleteDocument application request) := by
  apply attempt_undisturbed
  intro principal
  apply attempt_undisturbed
  intro documentId
  apply attempt_undisturbed
  intro tenantId
  apply undisturbed_of_memory
  intro e failed
  split at failed
  · cases failed
  · rename_i notFound
    exact InMemoryStore.deleteDocument_notFound (Bool.eq_false_iff.mpr notFound)

theorem submitJob_undisturbed :
    application.Undisturbed (submitJob surroundings application request) := by
  apply attempt_undisturbed
  intro job e failed
  cases failed

/-! ## Query and chat -/

variable (surroundings application) in
/-- Only an append changes the messages of a chat. -/
theorem replyTo_messagesOf (history : ChatHistoryStore) (past : List (Exchange AnswerReply))
    {question : AnswerQuestion} (quiet : question.appends = false) (session : ChatSession) :
    (replyTo surroundings application history past question).2.messagesOf session =
      history.messagesOf session := by
  cases question with
  | append => cases quiet
  | history tenantId userId sessionId => exact ChatHistoryStore.messagesOf_get _ _ _
  | _ => rfl

/-- The history and the documents answer without raising. -/
theorem replyTo_error {history : ChatHistoryStore} {past : List (Exchange AnswerReply)}
    {question : AnswerQuestion} {e : PyError}
    (raised : (replyTo surroundings application history past question).1 = .error e) :
    question.appends = false ∧ ∀ tenantId userId sessionId,
      question ≠ .history tenantId userId sessionId := by
  cases question with
  | append => cases raised
  | history => cases raised
  | _ => exact ⟨rfl, fun _ _ _ same => nomatch same⟩

theorem nonempty_answerReply (question : AnswerQuestion) : Nonempty (AnswerReply question) := by
  cases question with
  | history => exact ⟨([] : List ChatTurn)⟩
  | rewriteQuery => exact ⟨""⟩
  | retrieve => exact ⟨(.ok [] : Except RetrieveError (List Ranked))⟩
  | remaining => exact ⟨(none : Option Int)⟩
  | secondsUntilReset => exact ⟨(0 : Nat)⟩
  | complete => exact ⟨(.error (.other "") : Except PyError Generation)⟩
  | spend => exact ⟨()⟩
  | append => exact ⟨()⟩

variable (surroundings application) in
/-- A conversation is a run of the program, or the first part of one that an exception
ends.  Without an append in it, the messages stay. -/
theorem converse_run (program : AnswerDialogue Answered) (history : ChatHistoryStore)
    (past : List (Exchange AnswerReply)) :
    ∃ log, ((∀ asked ∈ log, asked.question.appends = false) → ∀ session,
        (converse surroundings application history past program).2.messagesOf session =
          history.messagesOf session) ∧
      (program.Trace log (converse surroundings application history past program).1 ∨
        ∃ (asked : Exchange AnswerReply) (rest : List (Exchange AnswerReply)) (result : Answered),
          program.Trace (log ++ asked :: rest) result ∧ asked.question.appends = false ∧
            ∀ tenantId userId sessionId, asked.question ≠ .history tenantId userId sessionId) := by
  induction program generalizing history past with
  | done result => exact ⟨[], fun _ _ => rfl, Or.inl (.done result)⟩
  | ask question next ih =>
      rw [converse]
      cases reply : replyTo surroundings application history past question with
      | mk answer after =>
          have kept : question.appends = false → ∀ session,
              after.messagesOf session = history.messagesOf session := by
            intro quiet session
            have same := replyTo_messagesOf surroundings application history past quiet session
            rw [reply] at same
            exact same
          cases answer with
          | error e =>
              obtain ⟨quiet, notHistory⟩ := replyTo_error (congrArg Prod.fst reply)
              obtain ⟨answer⟩ := nonempty_answerReply question
              obtain ⟨rest, result, _, trace⟩ :=
                @Dialogue.exists_trace _ _ _ (fun _ asked => (nonempty_answerReply asked).some)
                  (next answer) []
              exact ⟨[], fun _ => kept quiet, Or.inr ⟨⟨question, answer⟩, rest, result,
                .ask trace, quiet, notHistory⟩⟩
          | ok answer =>
              obtain ⟨log, quietKeeps, run⟩ :=
                ih answer after (past ++ [⟨question, answer⟩])
              refine ⟨⟨question, answer⟩ :: log, ?_, ?_⟩
              · intro quiet session
                obtain ⟨first, later⟩ := List.forall_mem_cons.mp quiet
                exact (quietKeeps later session).trans (kept first session)
              · rcases run with trace | ⟨asked, rest, result, trace, quiet, notHistory⟩
                · exact Or.inl (.ask trace)
                · exact Or.inr ⟨asked, rest, result, .ask trace, quiet, notHistory⟩

/-- What `_answer` appends it appends when nothing can fail any more. -/
theorem answerWith_undisturbed {asked : AnswerRequest} {isChat : Bool}
    {userProvider : Except String (Option GatewayProvider)} :
    application.Undisturbed (answerWith surroundings application asked isChat userProvider) := by
  intro e failed
  refine ⟨rfl, ?_⟩
  obtain ⟨log, quietKeeps, run⟩ := converse_run surroundings application
    (answer { asked with userProvider } isChat)
    application.history []
  apply quietKeeps
  rcases run with trace | ⟨last, rest, result, trace, quiet, notHistory⟩
  · obtain ⟨before, after, rfl, early, nothing | ⟨_, _, _, _, _, isOk⟩⟩ := answer_appends trace
    · rw [nothing, List.append_nil]
      exact early
    · simp only [answerWith, isOk] at failed
      cases failed
  · obtain ⟨before, after, split, early, appended⟩ := answer_appends trace
    have lastOutside : last ∉ after := by
      rcases appended with rfl | ⟨_, _, _, _, rfl, _⟩
      · exact List.not_mem_nil
      · intro member
        rcases List.mem_cons.mp member with rfl | member
        · cases quiet
        · rw [List.mem_singleton.mp member] at notHistory
          exact notHistory _ _ _ rfl
    -- the exception came before the append
    rcases List.append_eq_append_iff.mp split with ⟨middle, rfl, _⟩ | ⟨middle, _, isRest⟩
    · exact (List.forall_mem_append.mp early).1
    · exact absurd (isRest ▸ List.mem_append_right middle List.mem_cons_self) lastOutside

theorem answerTo_undisturbed {isChat : Bool} :
    application.Undisturbed (answerTo surroundings application request isChat) := by
  apply attempt_undisturbed
  intro principal
  dsimp only
  split
  · exact answerWith_undisturbed
  · exact answerWith_undisturbed
  · exact undisturbed_self _

/-! ## The request -/

theorem serve_undisturbed (endpoint : Endpoint) :
    application.Undisturbed (serve surroundings application endpoint request) := by
  cases endpoint with
  | live => exact undisturbed_self _
  | ready => exact undisturbed_self _
  | me => exact undisturbed_self _
  | testLlm => exact undisturbed_self _
  | listDocuments => exact undisturbed_self _
  | createDocument => exact createDocument_undisturbed
  | getDocument => exact undisturbed_self _
  | deleteDocument => exact deleteDocument_undisturbed
  | updateDocument => exact updateDocument_undisturbed
  | query => exact answerTo_undisturbed
  | chat => exact answerTo_undisturbed
  | submitJob => exact submitJob_undisturbed
  | getJob => exact undisturbed_self _

theorem dispatch_undisturbed (http : HttpRequest) (path : String) (query : List (String × String))
    (table : List Route) (allowed : Bool) :
    application.Undisturbed (dispatch surroundings application http path query table allowed) := by
  induction table generalizing allowed with
  | nil =>
      cases allowed with
      | true => exact undisturbed_self _
      | false => exact undisturbed_self _
  | cons route rest ih =>
      rw [dispatch]
      split
      · exact ih allowed
      · split
        · exact ih true
        · apply attempt_undisturbed
          intro request
          exact serve_undisturbed route.handler

variable (surroundings application) in
theorem route_undisturbed (http : HttpRequest) :
    application.Undisturbed (route surroundings application http) := by
  apply attempt_undisturbed
  intro target
  exact dispatch_undisturbed http target.1 target.2 routes false

end Handlers

/-- A request that ends in an `ApiError` leaves the data alone. -/
theorem refused_request_sameData (surroundings : Surroundings) (application after : Application)
    (http : HttpRequest) (refusal : Refusal)
    (refused : handle surroundings application http = (.error refusal, after)) :
    after.SameData application := by
  have undisturbed := route_undisturbed surroundings application http
  unfold handle at refused
  cases outcome : route surroundings application http with
  | mk result rest =>
      rw [outcome] at undisturbed refused
      cases result with
      | ok response => cases congrArg Prod.fst refused
      | error e =>
          have isAfter : rest = after := by
            cases e with
            | api error => exact congrArg Prod.snd refused
            | raised e => exact congrArg Prod.snd refused
          rw [← isAfter]
          exact undisturbed e rfl

/-- A parser that can read nothing. -/
def unreadable : Surroundings where
  services := { oneLine with parse := fun _ _ _ => .error (.valueError "cannot read the file") }
  uuid4 _ := "id"
  now n := n
  score _ _ := 0
  lower := String.toLower
  urlsplit path := .ok (path, "")
  parseQs _ := .ok []
  loads _ := .ok (.object [("filename", .string "a"), ("content", .string "b")])
  repr _ := ""
  encode text := .ok text.toUTF8.toList
  b64decode _ := .error (.valueError "Incorrect padding")
  fromisoformat _ := .error (.valueError "Invalid isoformat string")
  authenticate key :=
    .ok (if key = some "key" then some { tenantId := "t", userId := "u" } else none)
  acquire _ := .ok 0
  userProvider _ := .ok none
  tryProvider _ := .error (.other "unreachable")
  reply _ _ := .error (.other "unreachable")

def emptyApplication : Application where
  memory := .empty
  history := { maxTurns := 12, positive := by decide, messages := .empty }
  worker := { queue := [], jobs := .empty }
  maxBodyBytes := 25000000
  maxFileBytes := 18500000
  gates := { minScore := 3 / 20, relativeScore := 4 / 5 }
  model := "extractive"
  presets := .null

def unreadableUpload : HttpRequest where
  method := "POST"
  path := "/v1/documents"
  headers := [("X-API-Key", "key")]
  body := "\x7b\"filename\": \"a\", \"content\": \"b\"\x7d".toUTF8.toList

def errorOf : Except Refusal Response → Option ApiError
  | .ok _ => none
  | .error refusal => some refusal.error

/-- The upload gets as far as the parser. -/
theorem unreadableUpload_sameData :
    ∃ refusal after, handle unreadable emptyApplication unreadableUpload = (.error refusal, after) ∧
      refusal.error = { status := 422, message := "cannot read the file" } ∧
      after.SameData emptyApplication := by
  have refused : errorOf (handle unreadable emptyApplication unreadableUpload).1 =
      some { status := 422, message := "cannot read the file" } := by
    decide +kernel
  cases outcome : handle unreadable emptyApplication unreadableUpload with
  | mk result after =>
      rw [outcome] at refused
      cases result with
      | ok response => cases refused
      | error refusal =>
          exact ⟨refusal, after, rfl, Option.some.inj refused,
            refused_request_sameData _ _ _ _ _ outcome⟩

end Application

end ProductionRag
