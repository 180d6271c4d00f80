import ProductionRag.Api.DisplayNames
import ProductionRag.Api.Failures

/-!
# Conversations

What a chat is: the newest exchanges that the server answered in it, each a checked question and
its answer.  The history keeps exactly these, the model is told exactly these, and the response
counts them.
-/

set_option autoImplicit false

namespace ProductionRag

open Basis

/-! ## What a request tells and appends -/

/-- The last questions of an answered request: a chat appends its exchange and counts. -/
structure Closes (principal : Principal) (session : Option String) (question : String)
    (response : AnswerResponse) (last : List (Exchange AnswerReply)) : Prop where
  sessionId : response.sessionId = session
  quiet : session = none → last = []
  appended : ∀ id ∈ session, ∃ messages : List ChatTurn,
    last = [⟨.append principal.tenantId principal.userId id
        (ChatExchange.turns ⟨question, response.answer⟩), ()⟩,
      ⟨.history principal.tenantId principal.userId id, messages⟩] ∧
    response.historyMessages = some messages.length

/-- A question that appends nothing, and tells the model these turns if it asks it. -/
def Exchange.Tells (prior : List ChatTurn) (asked : Exchange AnswerReply) : Prop :=
  asked.question.appends = false ∧
    ∀ own question context turns, asked.question = .complete own question context turns →
      turns = prior

section Runs

variable {principal : Principal} {session : Option String} {question searchQuery : String}
  {prior : List ChatTurn} {own : Bool} {evidence : List Ranked}
  {log before : List (Exchange AnswerReply)} {response : AnswerResponse}

theorem respond_closes {generation : Option Generation} {text : String} {used : List Nat}
    (trace : (respond principal session question searchQuery own evidence generation text
      used).Trace log (.ok response)) : Closes principal session question response log := by
  unfold respond at trace
  split at trace
  · cases (Dialogue.trace_done.mp trace).2
  · cases session with
    | none =>
        obtain ⟨rfl, same⟩ := Dialogue.trace_done.mp trace
        obtain rfl := Except.ok.inj same
        exact ⟨rfl, fun _ => rfl, fun sessionId wrong => nomatch wrong⟩
    | some sessionId =>
        obtain ⟨_, _, rfl, appended⟩ := Dialogue.trace_ask.mp trace
        obtain ⟨messages, _, rfl, counted⟩ := Dialogue.trace_ask.mp appended
        obtain ⟨rfl, same⟩ := Dialogue.trace_done.mp counted
        obtain rfl := Except.ok.inj same
        refine ⟨rfl, fun wrong => (nomatch wrong), fun other same => ?_⟩
        obtain rfl := Option.some.inj same
        exact ⟨messages, rfl, rfl⟩

theorem Admitted.tells {checks : List (Exchange AnswerReply)}
    (admitted : Admitted own principal.tenantId checks) (prior : List ChatTurn) :
    ∀ asked ∈ checks, Exchange.Tells prior asked := by
  rcases admitted with ⟨_, rfl⟩ | ⟨_, left, rfl, _⟩
  · exact List.forall_mem_nil _
  · exact List.forall_mem_singleton.mpr ⟨rfl, fun _ _ _ _ wrong => by cases wrong⟩

theorem spent_tells (generation : Generation) (prior : List ChatTurn) :
    ∀ asked ∈ spent own principal.tenantId generation, Exchange.Tells prior asked := by
  rw [spent]
  split
  · exact List.forall_mem_nil _
  · exact List.forall_mem_singleton.mpr ⟨rfl, fun _ _ _ _ wrong => by cases wrong⟩

theorem AnswerRun.closes
    (run : AnswerRun principal session question searchQuery prior own evidence log
      (.ok response)) :
    ∃ early last, log = early ++ last ∧ (∀ asked ∈ early, Exchange.Tells prior asked) ∧
      Closes principal session question response last := by
  cases run with
  | abstained _ _ _ trace => exact ⟨[], log, rfl, List.forall_mem_nil _, respond_closes trace⟩
  | answered checks generation text used rest _ admitted _ trace =>
      let complete : Exchange AnswerReply :=
        ⟨.complete own question (evidence.map (·.1.text)) prior, .ok generation⟩
      have tells : Exchange.Tells prior complete := by
        refine ⟨rfl, fun _ _ _ _ same => ?_⟩
        cases same
        rfl
      refine ⟨checks ++ complete :: spent own principal.tenantId generation, rest, ?_, ?_,
        respond_closes trace⟩
      · rw [List.append_assoc, List.cons_append]
      · exact List.forall_mem_append.mpr ⟨admitted.tells prior,
          List.forall_mem_cons.mpr ⟨tells, spent_tells generation prior⟩⟩

end Runs

/-- The history goes through the questions: it answers with its messages, and an append is added
to it. -/
inductive Recalls : ChatHistoryStore → List (Exchange AnswerReply) → ChatHistoryStore → Prop
  | done (history : ChatHistoryStore) : Recalls history [] history
  | ask {history after final : ChatHistoryStore} {asked : Exchange AnswerReply}
      {rest : List (Exchange AnswerReply)}
      (kept : asked.question.appends = false → after.maxTurns = history.maxTurns ∧
        ∀ session, after.messagesOf session = history.messagesOf session)
      (appended : ∀ tenantId userId sessionId turns,
        asked.question = .append tenantId userId sessionId turns →
          after = history.append ⟨tenantId, userId, sessionId⟩ turns)
      (told : ∀ tenantId userId sessionId messages,
        asked = ⟨.history tenantId userId sessionId, messages⟩ →
          messages = history.messagesOf ⟨tenantId, userId, sessionId⟩)
      (later : Recalls after rest final) : Recalls history (asked :: rest) final

namespace Recalls

variable {history final : ChatHistoryStore} {asked : Exchange AnswerReply}
  {early last : List (Exchange AnswerReply)}

theorem quiet (recalls : Recalls history early final)
    (quiet : ∀ asked ∈ early, asked.question.appends = false) :
    final.maxTurns = history.maxTurns ∧
      ∀ session, final.messagesOf session = history.messagesOf session := by
  induction recalls with
  | done history => exact ⟨rfl, fun _ => rfl⟩
  | ask kept appended told later ih =>
      obtain ⟨first, others⟩ := List.forall_mem_cons.mp quiet
      obtain ⟨sameTurns, same⟩ := kept first
      obtain ⟨sameTurns', same'⟩ := ih others
      exact ⟨sameTurns'.trans sameTurns, fun session => (same' session).trans (same session)⟩

theorem split (recalls : Recalls history (early ++ last) final) :
    ∃ middle, Recalls history early middle ∧ Recalls middle last final := by
  induction early generalizing history with
  | nil => exact ⟨history, .done history, recalls⟩
  | cons asked early ih =>
      cases recalls with
      | ask kept appended told later =>
          obtain ⟨middle, before, after⟩ := ih later
          exact ⟨middle, .ask kept appended told before, after⟩

end Recalls

namespace Application

end Application

/-- The session that a principal names. -/
def sessionOf (principal : Principal) (sessionId : String) : ChatSession :=
  ⟨principal.tenantId, principal.userId, sessionId⟩

def ResponseBody.answered? : ResponseBody → Option AnswerResponse
  | .answered response => some response
  | _ => none

/-- The exchange of a chat that the event answers: the question as it was checked, and the
answer. -/
def ServerEvent.exchange (application : Application) :
    ServerEvent → Option (ChatSession × ChatExchange)
  | .request surroundings .chat asked => do
    let principal ← asked.caller.toOption
    let out ← (application.serve surroundings .chat asked).1.toOption
    let response ← out.2.answered?
    let sessionId ← response.sessionId
    let text ← (asked.get "question").string?
    let question ← (validateQuery 2000 text principal.tenantId).toOption
    return (sessionOf principal sessionId, ⟨question, response.answer⟩)
  | _ => none

namespace Application

variable {surroundings : Surroundings} {application : Application} {asked : AnswerRequest}
  {isChat : Bool} {userProvider : Except String (Option GatewayProvider)} {status : Nat}
  {response : AnswerResponse}

/-- The exchange is added to its session, the response counts the messages, and the model was
told what the session held before. -/
structure Continues (history after : ChatHistoryStore) (session : ChatSession)
    (exchange : ChatExchange) (response : AnswerResponse) (log : List (Exchange AnswerReply)) :
    Prop where
  answer : exchange.answer = response.answer
  messages : ∀ other,
    after.messagesOf other = (history.append session exchange.turns).messagesOf other
  counted : response.historyMessages = some (after.messagesOf session).length
  told : ∀ told ∈ log, ∀ own question context turns,
    told.question = .complete own question context turns →
      turns = historyForModel (history.messagesOf session)

end Application

/-! ## Every run -/

/-- The exchanges that a run answers, each with its session. -/
def exchanges (configured application : Application) :
    List ServerEvent → List (ChatSession × ChatExchange)
  | [] => []
  | event :: rest =>
    (event.exchange application).toList ++
      match (server configured).step application event with
      | none => []
      | some next => exchanges configured next rest

def noticeQuestion : Request where
  payload := [("question", .string "what is the notice period"), ("session_id", .string "s")]
  principal := some { tenantId := "t", userId := "u" }

end ProductionRag
