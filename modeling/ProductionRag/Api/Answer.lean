import ProductionRag.Api.Query
import ProductionRag.Providers.Rewriting

/-!
# Answering a question

`_answer` serves `/v1/query` and `/v1/chat`.  The chat history, the retrieval, the token
budget and the provider are asked.  `served` puts the provider of the request in: what is
left are the questions of the gateway and of the models behind it.
-/

set_option autoImplicit false

namespace ProductionRag

open Basis

structure ApiError where
  status : Nat
  message : String
  retryAfter : Option Nat := none
  deriving DecidableEq, Repr

/-- How a request fails: as the API says, or with an exception it does not expect. -/
inductive AnswerError where
  | api (error : ApiError)
  | raised (e : PyError)
  deriving DecidableEq

/-- What `_answer` reads of a request. -/
structure AnswerRequest where
  principal : Principal
  /-- `tenant_id` in the body, if there is one; it may be no text. -/
  claimedTenant : Option (Option String) := none
  /-- `question`, if it is a text. -/
  question : Option String
  /-- `session_id`, if it is a text. -/
  sessionId : Option String := none
  /-- The gateway that `_user_provider` builds from `llm`, or why it refuses the settings. -/
  userProvider : Except String (Option GatewayProvider) := .ok none

structure Citation where
  sourceNumber : Nat
  documentId : String
  source : String
  chunkIndex : Nat
  page : Option Nat
  score : ℚ
  excerpt : String
  deriving DecidableEq

/-- The part of the response about the model. -/
structure GenerationInfo where
  model : String
  degraded : Bool
  promptTokens : Int
  completionTokens : Int
  costUsd : ℚ
  ownKey : Bool
  note : Option String
  deriving DecidableEq

structure AnswerResponse where
  answer : String
  grounded : Bool
  citations : List Citation
  generation : Option GenerationInfo
  sessionId : Option String := none
  historyMessages : Option Nat := none
  searchQuery : Option String := none
  deriving DecidableEq

/-- What `_answer` asks; `own` says whether the caller brought the provider. -/
inductive AnswerQuestion where
  | history (tenantId userId sessionId : String)
  | rewriteQuery (own : Bool) (question : String) (prior : List ChatTurn)
  | retrieve (principal : Principal) (query : String)
  | remaining (tenantId : String)
  | secondsUntilReset
  | complete (own : Bool) (question : String) (context : List String) (prior : List ChatTurn)
  | spend (tenantId : String) (tokens : Int)
  | append (tenantId userId sessionId : String) (turns : List ChatTurn)
  deriving DecidableEq

@[reducible] def AnswerReply : AnswerQuestion → Type
  | .history .. => List ChatTurn
  | .rewriteQuery .. => String
  | .retrieve .. => Except RetrieveError (List Ranked)
  -- `none` is `math.inf`.
  | .remaining _ => Option Int
  | .secondsUntilReset => Nat
  | .complete .. => Except PyError Generation
  | .spend .. => Unit
  | .append .. => Unit

abbrev AnswerDialogue (α : Type) := Dialogue AnswerQuestion AnswerReply α

abbrev Answered := Except AnswerError AnswerResponse

def refuse (status : Nat) (message : String) : AnswerDialogue Answered :=
  .done (.error (.api { status, message }))

/-- A tenant in the body, if there is one, is the caller's. -/
def AnswerRequest.agrees (request : AnswerRequest) : Bool :=
  match request.claimedTenant with
  | none => true
  | some none => false
  | some (some claimed) => strip claimed = request.principal.tenantId

/-- `_tenant` -/
def AnswerRequest.tenant (request : AnswerRequest) : Except ApiError String :=
  if request.agrees then .ok request.principal.tenantId
  else .error { status := 403, message := "tenant_id does not match authenticated identity" }

/-- One citation; a number without evidence is an `IndexError`. -/
def cite (evidence : List Ranked) (number : Nat) : Except PyError Citation :=
  match evidence[number - 1]? with
  | some (chunk, score) =>
    .ok { sourceNumber := number, documentId := chunk.documentId, source := chunk.source,
          chunkIndex := chunk.index, page := chunk.page, score := roundTo 4 score,
          excerpt := sliceTo chunk.text 240 }
  | none => .error (.other "list index out of range")

theorem cite_ok {evidence : List Ranked} {number : Nat} {citation : Citation}
    (isCited : cite evidence number = .ok citation) :
    citation.sourceNumber = number ∧ ∃ entry ∈ evidence,
      citation.documentId = entry.1.documentId ∧ citation.source = entry.1.source ∧
      citation.chunkIndex = entry.1.index ∧ citation.page = entry.1.page ∧
      citation.excerpt = sliceTo entry.1.text 240 := by
  unfold cite at isCited
  split at isCited
  · rename_i chunk score found
    rw [← Except.ok.inj isCited]
    exact ⟨rfl, (chunk, score), List.mem_of_getElem? found, rfl, rfl, rfl, rfl, rfl⟩
  · cases isCited

/-- The answer that is sent for a generation, and the sources it uses. -/
def grounded (evidence : List Ranked) (generation : Generation) :
    Except PyError (String × List Nat) := do
  let candidate ← stripInvalidCitations generation.text evidence.length
  let used ← citedSources candidate evidence.length
  -- An answer that cites nothing is not grounded.
  return (if used.isEmpty then abstention else candidate, used)

def generationInfo (own : Bool) (generation : Generation) : GenerationInfo where
  model := generation.model
  degraded := generation.degraded
  promptTokens := generation.promptTokens
  completionTokens := generation.completionTokens
  costUsd := generation.costUsd
  ownKey := own
  note := generation.note

/-- The response, and for a chat the exchange added to its history. -/
def respond (principal : Principal) (session : Option String) (question searchQuery : String)
    (own : Bool) (evidence : List Ranked) (generation : Option Generation) (answer : String)
    (used : List Nat) : AnswerDialogue Answered :=
  match used.mapM (cite evidence) with
  | .error e => .done (.error (.raised e))
  | .ok citations =>
    let response : AnswerResponse :=
      { answer, grounded := !used.isEmpty, citations
        generation := generation.map (generationInfo own) }
    match session with
    | none => .done (.ok response)
    | some sessionId =>
      .ask (.append principal.tenantId principal.userId sessionId
        [⟨"user", question⟩, ⟨"assistant", answer⟩]) fun _ =>
      .ask (.history principal.tenantId principal.userId sessionId) fun messages =>
      .done (.ok { response with
        sessionId := some sessionId
        historyMessages := some messages.length
        searchQuery := if searchQuery ≠ question then some searchQuery else none })

/-- From the generation on. -/
def afterGeneration (principal : Principal) (session : Option String)
    (question searchQuery : String) (own : Bool) (evidence : List Ranked)
    (generation : Generation) : AnswerDialogue Answered :=
  match grounded evidence generation with
  | .error e => .done (.error (.raised e))
  | .ok (answer, used) =>
    respond principal session question searchQuery own evidence (some generation) answer used

/-- The call of the provider; only the tokens of the server's provider are recorded. -/
def generate (principal : Principal) (session : Option String) (question searchQuery : String)
    (prior : List ChatTurn) (own : Bool) (evidence : List Ranked) : AnswerDialogue Answered :=
  .ask (.complete own question (evidence.map (·.1.text)) prior) fun
  | .error e => .done (.error (.raised e))
  | .ok generation =>
    let afterwards := afterGeneration principal session question searchQuery own evidence generation
    if own then afterwards
    else
      .ask (.spend principal.tenantId (generation.promptTokens + generation.completionTokens))
        fun _ => afterwards

/-- From the evidence on. -/
def answerFrom (principal : Principal) (session : Option String)
    (question searchQuery : String) (prior : List ChatTurn) (own : Bool)
    (evidence : List Ranked) : AnswerDialogue Answered :=
  let generated := generate principal session question searchQuery prior own evidence
  if evidence.isEmpty then
    respond principal session question searchQuery own [] none abstention []
  else if own then generated
  else
    .ask (.remaining principal.tenantId) fun
    | none => generated
    | some left =>
      if left ≤ 0 then
        .ask .secondsUntilReset fun seconds =>
        .done (.error (.api { status := 429, message := "daily token budget exhausted",
                              retryAfter := some seconds }))
      else generated

/-- From the search query on. -/
def answerSearch (principal : Principal) (session : Option String) (question : String)
    (prior : List ChatTurn) (own : Bool) (searchQuery : String) : AnswerDialogue Answered :=
  .ask (.retrieve principal searchQuery) fun
  | .error (.unsafeQuery message) => refuse 400 message
  | .error (.raised e) => .done (.error (.raised e))
  | .ok evidence => answerFrom principal session question searchQuery prior own evidence

/-- From the validated question on. -/
def answerQuestion (principal : Principal) (session : Option String) (question : String)
    (prior : List ChatTurn) (own : Bool) : AnswerDialogue Answered :=
  if prior.isEmpty then answerSearch principal session question prior own question
  else
    .ask (.rewriteQuery own question prior) (answerSearch principal session question prior own)

/-- From the earlier turns on. -/
def answerPrior (principal : Principal) (session : Option String) (question : String)
    (prior : List ChatTurn) (own : Bool) : AnswerDialogue Answered :=
  match validateQuery 2000 question principal.tenantId with
  | .error (.unsafeQuery message) => refuse 400 message
  | .error (.raised e) => .done (.error (.raised e))
  | .ok safeQuestion => answerQuestion principal session safeQuestion prior own

/-- `_answer` -/
def answer (request : AnswerRequest) (isChat : Bool) : AnswerDialogue Answered :=
  match request.question with
  | none => refuse 400 "question is required as a string"
  | some question =>
    match request.tenant with
    | .error e => .done (.error (.api e))
    | .ok tenantId =>
      let session := request.sessionId.filter fun sessionId => strip sessionId ≠ ""
      if isChat && session.isNone then refuse 400 "session_id is required for chat"
      else
        match request.userProvider with
        | .error message => refuse 422 message
        | .ok userProvider =>
          match (if isChat then session else none) with
          | none => answerPrior request.principal none question [] userProvider.isSome
          | some sessionId =>
            .ask (.history tenantId request.principal.userId sessionId) fun turns =>
            answerPrior request.principal (some sessionId) question (historyForModel turns)
              userProvider.isSome

/-! ## What a run of `_answer` does -/

/-- The caller brought the provider, or the budget of the tenant was not used up. -/
def Admitted (own : Bool) (tenantId : String) (checks : List (Exchange AnswerReply)) : Prop :=
  (own = true ∧ checks = []) ∨
    (own = false ∧ ∃ left : Option Int, checks = [⟨.remaining tenantId, left⟩] ∧
      ∀ tokens, left = some tokens → 0 < tokens)

/-- The tokens of the server's provider are recorded, those of the caller's are not. -/
def spent (own : Bool) (tenantId : String) (generation : Generation) :
    List (Exchange AnswerReply) :=
  if own then []
  else [⟨.spend tenantId (generation.promptTokens + generation.completionTokens), ()⟩]

/-- Everything that can happen from the evidence on. -/
inductive AnswerRun (principal : Principal) (session : Option String)
    (question searchQuery : String) (prior : List ChatTurn) (own : Bool)
    (evidence : List Ranked) : List (Exchange AnswerReply) → Answered → Prop
  | abstained (log : List (Exchange AnswerReply)) (result : Answered) (isEmpty : evidence = [])
      (trace : (respond principal session question searchQuery own [] none abstention []).Trace
        log result) :
      AnswerRun principal session question searchQuery prior own evidence log result
  | exhausted (left : Int) (seconds : Nat) (servers : own = false) (used : left ≤ 0) :
      AnswerRun principal session question searchQuery prior own evidence
        [⟨.remaining principal.tenantId, some left⟩, ⟨.secondsUntilReset, seconds⟩]
        (.error (.api { status := 429, message := "daily token budget exhausted",
                        retryAfter := some seconds }))
  | failed (checks : List (Exchange AnswerReply)) (e : PyError)
      (admitted : Admitted own principal.tenantId checks) :
      AnswerRun principal session question searchQuery prior own evidence
        (checks ++ [⟨.complete own question (evidence.map (·.1.text)) prior, .error e⟩])
        (.error (.raised e))
  | unreadable (checks : List (Exchange AnswerReply)) (generation : Generation) (e : PyError)
      (admitted : Admitted own principal.tenantId checks)
      (raised : grounded evidence generation = .error e) :
      AnswerRun principal session question searchQuery prior own evidence
        (checks ++ ⟨.complete own question (evidence.map (·.1.text)) prior, .ok generation⟩ ::
          spent own principal.tenantId generation) (.error (.raised e))
  | answered (checks : List (Exchange AnswerReply)) (generation : Generation) (text : String)
      (used : List Nat) (log : List (Exchange AnswerReply)) (result : Answered)
      (admitted : Admitted own principal.tenantId checks)
      (isGrounded : grounded evidence generation = .ok (text, used))
      (trace : (respond principal session question searchQuery own evidence (some generation) text
        used).Trace log result) :
      AnswerRun principal session question searchQuery prior own evidence
        (checks ++ ⟨.complete own question (evidence.map (·.1.text)) prior, .ok generation⟩ ::
          (spent own principal.tenantId generation ++ log)) result

section Runs

variable {principal : Principal} {session : Option String} {question searchQuery : String}
  {prior : List ChatTurn} {own : Bool} {evidence : List Ranked}
  {log : List (Exchange AnswerReply)} {result : Answered}

theorem generate_run {checks : List (Exchange AnswerReply)}
    (admitted : Admitted own principal.tenantId checks)
    (trace : (generate principal session question searchQuery prior own evidence).Trace log
      result) :
    AnswerRun principal session question searchQuery prior own evidence (checks ++ log)
      result := by
  obtain ⟨reply, rest, rfl, replied⟩ := Dialogue.trace_ask.mp trace
  clear trace
  cases reply with
  | error e =>
      obtain ⟨rfl, rfl⟩ := Dialogue.trace_done.mp replied
      exact .failed checks e admitted
  | ok generation =>
      obtain ⟨after, rfl, afterwards⟩ : ∃ after,
          rest = spent own principal.tenantId generation ++ after ∧
            (afterGeneration principal session question searchQuery own evidence
              generation).Trace after result := by
        cases own with
        | true => exact ⟨rest, rfl, replied⟩
        | false =>
            obtain ⟨_, after, rfl, later⟩ := Dialogue.trace_ask.mp replied
            exact ⟨after, rfl, later⟩
      unfold afterGeneration at afterwards
      split at afterwards
      · rename_i e raised
        obtain ⟨rfl, rfl⟩ := Dialogue.trace_done.mp afterwards
        rw [List.append_nil]
        exact .unreadable checks generation e admitted raised
      · rename_i text used isGrounded
        exact .answered checks generation text used after result admitted isGrounded afterwards

theorem answerFrom_run
    (trace : (answerFrom principal session question searchQuery prior own evidence).Trace log
      result) :
    AnswerRun principal session question searchQuery prior own evidence log result := by
  unfold answerFrom at trace
  dsimp only at trace
  split at trace
  · rename_i isEmpty
    exact .abstained log result (List.isEmpty_iff.mp isEmpty) trace
  · split at trace
    · rename_i isOwn
      exact generate_run (Or.inl ⟨isOwn, rfl⟩) trace
    · rename_i servers
      rw [Bool.not_eq_true] at servers
      obtain ⟨left, rest, rfl, checked⟩ := Dialogue.trace_ask.mp trace
      clear trace
      cases left with
      | none =>
          exact generate_run (Or.inr ⟨servers, none, rfl, fun _ wrong => (nomatch wrong)⟩) checked
      | some left =>
          dsimp only at checked
          split at checked
          · rename_i used
            obtain ⟨seconds, rest, rfl, ended⟩ := Dialogue.trace_ask.mp checked
            obtain ⟨rfl, rfl⟩ := Dialogue.trace_done.mp ended
            exact .exhausted left seconds servers used
          · rename_i unused
            refine generate_run (Or.inr ⟨servers, some left, rfl, ?_⟩) checked
            rintro tokens same
            cases same
            exact Int.not_le.mp unused

/-- What a response holds: its citations are the evidence under the numbers used. -/
theorem respond_ok {generation : Option Generation} {text : String} {used : List Nat}
    {response : AnswerResponse}
    (trace : (respond principal session question searchQuery own evidence generation text
      used).Trace log (.ok response)) :
    used.mapM (cite evidence) = .ok response.citations := by
  unfold respond at trace
  split at trace
  · obtain ⟨_, wrong⟩ := Dialogue.trace_done.mp trace
    cases wrong
  · rename_i citations cited
    cases session with
    | none =>
        obtain ⟨_, same⟩ := Dialogue.trace_done.mp trace
        rw [cited, ← Except.ok.inj same]
    | some sessionId =>
        obtain ⟨_, _, _, appended⟩ := Dialogue.trace_ask.mp trace
        obtain ⟨_, _, _, counted⟩ := Dialogue.trace_ask.mp appended
        obtain ⟨_, same⟩ := Dialogue.trace_done.mp counted
        rw [cited, ← Except.ok.inj same]

/-- The questions that go beyond the records kept of tenants and chats. -/
def AnswerQuestion.consults : AnswerQuestion → Bool
  | .rewriteQuery .. => true
  | .retrieve .. => true
  | .complete .. => true
  | _ => false

/-- The questions that the provider of a request answers. -/
def AnswerQuestion.asksProvider : AnswerQuestion → Bool
  | .rewriteQuery .. => true
  | .complete .. => true
  | _ => false

/-- The response is made without consulting anyone. -/
theorem respond_quiet {generation : Option Generation} {text : String} {used : List Nat}
    (trace : (respond principal session question searchQuery own evidence generation text
      used).Trace log result) :
    ∀ exchange ∈ log, exchange.question.consults = false := by
  unfold respond at trace
  split at trace
  · obtain ⟨rfl, _⟩ := Dialogue.trace_done.mp trace
    exact List.forall_mem_nil _
  · cases session with
    | none =>
        obtain ⟨rfl, _⟩ := Dialogue.trace_done.mp trace
        exact List.forall_mem_nil _
    | some sessionId =>
        obtain ⟨_, _, rfl, appended⟩ := Dialogue.trace_ask.mp trace
        obtain ⟨_, _, rfl, counted⟩ := Dialogue.trace_ask.mp appended
        obtain ⟨rfl, _⟩ := Dialogue.trace_done.mp counted
        simp [AnswerQuestion.consults]

theorem Admitted.quiet {tenantId : String} {checks : List (Exchange AnswerReply)}
    (admitted : Admitted own tenantId checks) :
    ∀ exchange ∈ checks, exchange.question.consults = false := by
  rcases admitted with ⟨_, rfl⟩ | ⟨_, left, rfl, _⟩
  · exact List.forall_mem_nil _
  · exact List.forall_mem_singleton.mpr rfl

theorem spent_quiet (own : Bool) (tenantId : String) (generation : Generation) :
    ∀ exchange ∈ spent own tenantId generation, exchange.question.consults = false := by
  rw [spent]
  split
  · exact List.forall_mem_nil _
  · exact List.forall_mem_singleton.mpr rfl

/-- From the evidence on only the provider is consulted, with the texts of the evidence. -/
theorem AnswerRun.asked
    (run : AnswerRun principal session question searchQuery prior own evidence log result)
    {exchange : Exchange AnswerReply} (member : exchange ∈ log)
    (consults : exchange.question.consults = true) :
    exchange.question = .complete own question (evidence.map (·.1.text)) prior := by
  have quiet : ∀ {part : List (Exchange AnswerReply)},
      (∀ exchange ∈ part, exchange.question.consults = false) → exchange ∉ part := by
    intro part none inPart
    rw [none exchange inPart] at consults
    cases consults
  cases run with
  | abstained _ _ isEmpty trace => exact absurd member (quiet (respond_quiet trace))
  | exhausted left seconds servers used =>
      exact absurd member (quiet (by simp [AnswerQuestion.consults]))
  | failed checks e admitted =>
      rcases List.mem_append.mp member with inChecks | last
      · exact absurd inChecks (quiet admitted.quiet)
      · rw [List.mem_singleton.mp last]
  | unreadable checks generation e admitted raised =>
      rcases List.mem_append.mp member with inChecks | later
      · exact absurd inChecks (quiet admitted.quiet)
      · rcases List.mem_cons.mp later with rfl | inSpent
        · rfl
        · exact absurd inSpent (quiet (spent_quiet _ _ _))
  | answered checks generation text used rest _ admitted isGrounded trace =>
      rcases List.mem_append.mp member with inChecks | later
      · exact absurd inChecks (quiet admitted.quiet)
      · rcases List.mem_cons.mp later with rfl | beyond
        · rfl
        · rcases List.mem_append.mp beyond with inSpent | inRest
          · exact absurd inSpent (quiet (spent_quiet _ _ _))
          · exact absurd inRest (quiet (respond_quiet trace))

/-- The provider completes the answer of a request that is admitted. -/
theorem AnswerRun.checked
    (run : AnswerRun principal session question searchQuery prior own evidence log result)
    {own' : Bool} {question' : String} {context : List String} {prior' : List ChatTurn}
    {reply : Except PyError Generation}
    (member : (⟨.complete own' question' context prior', reply⟩ : Exchange AnswerReply) ∈ log) :
    ∃ checks, Admitted own principal.tenantId checks ∧ ∀ check ∈ checks, check ∈ log := by
  cases run with
  | abstained _ _ isEmpty trace => cases respond_quiet trace _ member
  | exhausted left seconds servers used =>
      rcases List.mem_cons.mp member with same | last
      · cases congrArg Exchange.question same
      · cases congrArg Exchange.question (List.mem_singleton.mp last)
  | failed checks e admitted => exact ⟨checks, admitted, fun _ => List.mem_append_left _⟩
  | unreadable checks generation e admitted raised =>
      exact ⟨checks, admitted, fun _ => List.mem_append_left _⟩
  | answered checks generation text used rest _ admitted isGrounded trace =>
      exact ⟨checks, admitted, fun _ => List.mem_append_left _⟩

/-- A citation is the evidence under one of the numbers that the generation uses. -/
theorem AnswerRun.cited {response : AnswerResponse}
    (run : AnswerRun principal session question searchQuery prior own evidence log
      (.ok response)) {citation : Citation} (member : citation ∈ response.citations) :
    ∃ generation text used number,
      (⟨.complete own question (evidence.map (·.1.text)) prior, .ok generation⟩ :
        Exchange AnswerReply) ∈ log ∧
      grounded evidence generation = .ok (text, used) ∧ number ∈ used ∧
      cite evidence number = .ok citation := by
  cases run with
  | abstained _ _ isEmpty trace =>
      obtain ⟨_, none, _⟩ := Except.of_mem_mapM (respond_ok trace) member
      cases none
  | answered checks generation text used rest _ admitted isGrounded trace =>
      obtain ⟨number, inUsed, isCited⟩ := Except.of_mem_mapM (respond_ok trace) member
      exact ⟨generation, text, used, number, by simp, isGrounded, inUsed, isCited⟩

end Runs

/-- What is asked before the retrieval of a request that is not refused. -/
inductive Prepared (request : AnswerRequest) (isChat own : Bool) (question : String) :
    Option String → List ChatTurn → String → List (Exchange AnswerReply) → Prop
  | query (single : isChat = false) :
      Prepared request isChat own question none [] question []
  | first (sessionId : String) (turns : List ChatTurn) (chat : isChat = true)
      (fresh : historyForModel turns = []) :
      Prepared request isChat own question (some sessionId) [] question
        [⟨.history request.principal.tenantId request.principal.userId sessionId, turns⟩]
  | later (sessionId : String) (turns : List ChatTurn) (searchQuery : String)
      (chat : isChat = true) (earlier : historyForModel turns ≠ []) :
      Prepared request isChat own question (some sessionId) (historyForModel turns) searchQuery
        [⟨.history request.principal.tenantId request.principal.userId sessionId, turns⟩,
          ⟨.rewriteQuery own question (historyForModel turns), searchQuery⟩]

/-- Before the retrieval only the rewriting is consulted, and only in a chat. -/
theorem Prepared.asked {request : AnswerRequest} {isChat own : Bool}
    {question searchQuery : String} {session : Option String} {prior : List ChatTurn}
    {before : List (Exchange AnswerReply)}
    (prepared : Prepared request isChat own question session prior searchQuery before)
    {exchange : Exchange AnswerReply} (member : exchange ∈ before)
    (consults : exchange.question.consults = true) :
    isChat = true ∧ prior ≠ [] ∧ exchange.question = .rewriteQuery own question prior := by
  cases prepared with
  | query single => cases member
  | first sessionId turns chat fresh =>
      rw [List.mem_singleton.mp member] at consults
      cases consults
  | later sessionId turns searchQuery chat earlier =>
      rcases List.mem_cons.mp member with rfl | last
      · cases consults
      · rw [List.mem_singleton.mp last]
        exact ⟨chat, earlier, rfl⟩

/-- The turns of a chat are what it was told first. -/
theorem Prepared.turns {request : AnswerRequest} {isChat own : Bool}
    {question searchQuery : String} {session : Option String} {prior : List ChatTurn}
    {before : List (Exchange AnswerReply)}
    (prepared : Prepared request isChat own question session prior searchQuery before)
    (earlier : prior ≠ []) :
    ∃ sessionId turns rest, prior = historyForModel turns ∧
      before = ⟨.history request.principal.tenantId request.principal.userId sessionId, turns⟩ ::
        rest := by
  cases prepared with
  | query single => exact absurd rfl earlier
  | first sessionId turns chat fresh => exact absurd rfl earlier
  | later sessionId turns searchQuery chat earlier => exact ⟨sessionId, turns, _, rfl, rfl⟩

/-- Everything that can happen to a request. -/
inductive RequestRun (request : AnswerRequest) (isChat : Bool) :
    List (Exchange AnswerReply) → Answered → Prop
  | refused (log : List (Exchange AnswerReply)) (error : AnswerError)
      (early : log = [] ∨ ∃ tenantId userId sessionId turns,
        log = [⟨.history tenantId userId sessionId, turns⟩]) :
      RequestRun request isChat log (.error error)
  | unretrieved (user : Option GatewayProvider) (asked question searchQuery : String)
      (session : Option String) (prior : List ChatTurn) (before : List (Exchange AnswerReply))
      (e : RetrieveError) (error : AnswerError) (brought : request.userProvider = .ok user)
      (isText : request.question = some asked)
      (valid : validateQuery 2000 asked request.principal.tenantId = .ok question)
      (prepared : Prepared request isChat user.isSome question session prior searchQuery before) :
      RequestRun request isChat (before ++ [⟨.retrieve request.principal searchQuery, .error e⟩])
        (.error error)
  | retrieved (user : Option GatewayProvider) (asked question searchQuery : String)
      (session : Option String) (prior : List ChatTurn)
      (before rest : List (Exchange AnswerReply)) (evidence : List Ranked) (result : Answered)
      (brought : request.userProvider = .ok user) (isText : request.question = some asked)
      (valid : validateQuery 2000 asked request.principal.tenantId = .ok question)
      (prepared : Prepared request isChat user.isSome question session prior searchQuery before)
      (run : AnswerRun request.principal session question searchQuery prior user.isSome evidence
        rest result) :
      RequestRun request isChat
        (before ++ ⟨.retrieve request.principal searchQuery, .ok evidence⟩ :: rest) result

theorem answerSearch_run {principal : Principal} {session : Option String}
    {question searchQuery : String} {prior : List ChatTurn} {own : Bool}
    {log : List (Exchange AnswerReply)} {result : Answered}
    (trace : (answerSearch principal session question prior own searchQuery).Trace log result) :
    (∃ e error, log = [⟨.retrieve principal searchQuery, .error e⟩] ∧ result = .error error) ∨
      ∃ evidence rest, log = ⟨.retrieve principal searchQuery, .ok evidence⟩ :: rest ∧
        AnswerRun principal session question searchQuery prior own evidence rest result := by
  obtain ⟨reply, rest, rfl, replied⟩ := Dialogue.trace_ask.mp trace
  clear trace
  cases reply with
  | error e =>
      left
      cases e with
      | unsafeQuery message =>
          obtain ⟨rfl, rfl⟩ := Dialogue.trace_done.mp replied
          exact ⟨_, _, rfl, rfl⟩
      | raised e =>
          obtain ⟨rfl, rfl⟩ := Dialogue.trace_done.mp replied
          exact ⟨_, _, rfl, rfl⟩
  | ok evidence => exact Or.inr ⟨evidence, rest, rfl, answerFrom_run replied⟩

/-- A prepared request goes on to the retrieval. -/
theorem Prepared.run {request : AnswerRequest} {isChat : Bool} {user : Option GatewayProvider}
    {asked question searchQuery : String} {session : Option String} {prior : List ChatTurn}
    {before log : List (Exchange AnswerReply)} {result : Answered}
    (prepared : Prepared request isChat user.isSome question session prior searchQuery before)
    (brought : request.userProvider = .ok user) (isText : request.question = some asked)
    (valid : validateQuery 2000 asked request.principal.tenantId = .ok question)
    (trace : (answerSearch request.principal session question prior user.isSome
      searchQuery).Trace log result) :
    RequestRun request isChat (before ++ log) result := by
  rcases answerSearch_run trace with ⟨e, error, rfl, rfl⟩ | ⟨evidence, rest, rfl, run⟩
  · exact .unretrieved user asked question searchQuery session prior before e error brought isText
      valid prepared
  · exact .retrieved user asked question searchQuery session prior before rest evidence result
      brought isText valid prepared run

theorem answerPrior_run {request : AnswerRequest} {isChat : Bool} {user : Option GatewayProvider}
    {asked : String} {session : Option String} {prior : List ChatTurn}
    {log : List (Exchange AnswerReply)} {result : Answered} (before : List (Exchange AnswerReply))
    (brought : request.userProvider = .ok user) (isText : request.question = some asked)
    (early : before = [] ∨ ∃ tenantId userId sessionId turns,
      before = [⟨.history tenantId userId sessionId, turns⟩])
    (fresh : ∀ question, prior = [] →
      Prepared request isChat user.isSome question session prior question before)
    (later : ∀ question searchQuery, prior ≠ [] →
      Prepared request isChat user.isSome question session prior searchQuery
        (before ++ [⟨.rewriteQuery user.isSome question prior, searchQuery⟩]))
    (trace : (answerPrior request.principal session asked prior user.isSome).Trace log result) :
    RequestRun request isChat (before ++ log) result := by
  unfold answerPrior at trace
  split at trace
  · obtain ⟨rfl, rfl⟩ := Dialogue.trace_done.mp trace
    rw [List.append_nil]
    exact .refused before _ early
  · obtain ⟨rfl, rfl⟩ := Dialogue.trace_done.mp trace
    rw [List.append_nil]
    exact .refused before _ early
  · rename_i question valid
    unfold answerQuestion at trace
    split at trace
    · rename_i none
      exact (fresh question (List.isEmpty_iff.mp none)).run brought isText valid trace
    · rename_i some
      rw [List.isEmpty_iff] at some
      obtain ⟨searchQuery, rest, rfl, searched⟩ := Dialogue.trace_ask.mp trace
      have run := (later question searchQuery some).run brought isText valid searched
      rwa [List.append_assoc] at run

theorem answer_run {request : AnswerRequest} {isChat : Bool} {log : List (Exchange AnswerReply)}
    {result : Answered} (trace : (answer request isChat).Trace log result) :
    RequestRun request isChat log result := by
  have refused : ∀ error,
      (Dialogue.done (.error error) : AnswerDialogue Answered).Trace log result →
      RequestRun request isChat log result := by
    intro error ended
    obtain ⟨rfl, rfl⟩ := Dialogue.trace_done.mp ended
    exact .refused [] error (Or.inl rfl)
  unfold answer at trace
  split at trace
  · exact refused _ trace
  · rename_i asked isText
    split at trace
    · exact refused _ trace
    · rename_i tenantId own
      have sameTenant : tenantId = request.principal.tenantId := by
        rw [AnswerRequest.tenant] at own
        split at own
        · exact (Except.ok.inj own).symm
        · cases own
      subst sameTenant
      dsimp only at trace
      split at trace
      · exact refused _ trace
      · rename_i hasSession
        split at trace
        · exact refused _ trace
        · rename_i user brought
          split at trace
          · rename_i isQuery
            have single : isChat = false := by
              cases isChat with
              | false => rfl
              | true =>
                  rw [if_pos rfl] at isQuery
                  rw [isQuery] at hasSession
                  exact absurd rfl hasSession
            exact answerPrior_run [] brought isText (Or.inl rfl) (fun _ _ => .query single)
              (fun _ _ wrong => absurd rfl wrong) trace
          · rename_i sessionId isSession
            have chat : isChat = true := by
              cases isChat with
              | true => rfl
              | false => cases isSession
            obtain ⟨turns, rest, rfl, told⟩ := Dialogue.trace_ask.mp trace
            refine answerPrior_run [⟨.history _ _ _, turns⟩] brought isText
              (Or.inr ⟨_, _, _, _, rfl⟩) ?_ ?_ told
            · intro question none
              rw [none]
              exact .first sessionId turns chat none
            · intro question searchQuery some
              exact .later sessionId turns searchQuery chat some

/-- A rewritten question is valid, and the chat was told its turns before. -/
theorem RequestRun.rewritten {request : AnswerRequest} {isChat : Bool}
    {log : List (Exchange AnswerReply)} {result : Answered}
    (run : RequestRun request isChat log result) {own : Bool} {question query : String}
    {prior : List ChatTurn}
    (member : (⟨.rewriteQuery own question prior, query⟩ : Exchange AnswerReply) ∈ log) :
    ∃ asked sessionId turns rest, request.question = some asked ∧
      validateQuery 2000 asked request.principal.tenantId = .ok question ∧
      prior = historyForModel turns ∧
      log = ⟨.history request.principal.tenantId request.principal.userId sessionId, turns⟩ ::
        rest := by
  cases run with
  | refused log error early =>
      rcases early with rfl | ⟨_, _, _, _, rfl⟩
      · cases member
      · cases congrArg Exchange.question (List.mem_singleton.mp member)
  | unretrieved user asked question' searchQuery session prior' before e error brought isText valid
      prepared =>
      rcases List.mem_append.mp member with inBefore | last
      · obtain ⟨_, earlier, same⟩ := prepared.asked inBefore rfl
        cases same
        obtain ⟨sessionId, turns, rest, rfl, rfl⟩ := prepared.turns earlier
        exact ⟨asked, sessionId, turns, _, isText, valid, rfl, rfl⟩
      · cases congrArg Exchange.question (List.mem_singleton.mp last)
  | retrieved user asked question' searchQuery session prior' before rest evidence _ brought isText
      valid prepared run =>
      rcases List.mem_append.mp member with inBefore | later
      · obtain ⟨_, earlier, same⟩ := prepared.asked inBefore rfl
        cases same
        obtain ⟨sessionId, turns, rest, rfl, rfl⟩ := prepared.turns earlier
        exact ⟨asked, sessionId, turns, _, isText, valid, rfl, rfl⟩
      · rcases List.mem_cons.mp later with same | inRest
        · cases congrArg Exchange.question same
        · cases run.asked inRest rfl

/-- Without a provider of its own a request has its answer completed while tokens are left. -/
theorem RequestRun.checked {request : AnswerRequest} {isChat : Bool}
    {log : List (Exchange AnswerReply)} {result : Answered}
    (run : RequestRun request isChat log result) (noSettings : request.userProvider = .ok none)
    {own : Bool} {question : String} {context : List String} {prior : List ChatTurn}
    {reply : Except PyError Generation}
    (member : (⟨.complete own question context prior, reply⟩ : Exchange AnswerReply) ∈ log) :
    ∃ left : Option Int,
      (⟨.remaining request.principal.tenantId, left⟩ : Exchange AnswerReply) ∈ log ∧
        ∀ tokens, left = some tokens → 0 < tokens := by
  cases run with
  | refused log error early =>
      rcases early with rfl | ⟨_, _, _, _, rfl⟩
      · cases member
      · cases congrArg Exchange.question (List.mem_singleton.mp member)
  | unretrieved user asked question' searchQuery session prior' before e error brought isText valid
      prepared =>
      rcases List.mem_append.mp member with inBefore | last
      · cases (prepared.asked inBefore rfl).2.2
      · cases congrArg Exchange.question (List.mem_singleton.mp last)
  | retrieved user asked question' searchQuery session prior' before rest evidence _ brought isText
      valid prepared run =>
      rw [noSettings] at brought
      cases brought
      rcases List.mem_append.mp member with inBefore | later
      · cases (prepared.asked inBefore rfl).2.2
      · rcases List.mem_cons.mp later with same | inRest
        · cases congrArg Exchange.question same
        · obtain ⟨checks, ⟨own, _⟩ | ⟨_, left, rfl, enough⟩, inLog⟩ := run.checked inRest
          · cases own
          · refine ⟨left, ?_, enough⟩
            exact List.mem_append_right _
              (List.mem_cons_of_mem _ (inLog _ (List.mem_singleton_self _)))

/-! ## With the provider of the request -/

/-- What is asked once the provider is known. -/
inductive ServedQuestion where
  | app (question : AnswerQuestion)
  | provider (own : Bool) (question : ProviderQuestion)
  deriving DecidableEq

@[reducible] def ServedAnswer : ServedQuestion → Type
  | .app question => AnswerReply question
  | .provider _ question => ProviderAnswer question

/-- The provider that answers: the caller's own, or the server's. -/
def providerOf (server : ModelProvider) (request : AnswerRequest) (own : Bool) : ModelProvider :=
  match own, request.userProvider with
  | true, .ok (some gateway) => .gateway gateway
  | _, _ => server

/-- Whose calls they are is added to the questions of a provider. -/
def ofProvider {α : Type} (own : Bool) (dialogue : ProviderDialogue α) :
    Dialogue ServedQuestion ServedAnswer α :=
  dialogue.expand fun question => .ask (.provider own question) .done

/-- How the questions of `_answer` are answered with a provider in place. -/
def provided (words : WordChars) (server : ModelProvider) (request : AnswerRequest) :
    ∀ question : AnswerQuestion, Dialogue ServedQuestion ServedAnswer (AnswerReply question)
  | .rewriteQuery own question prior =>
    ofProvider own ((providerOf server request own).rewriteQuery words question prior)
  | .complete own question context prior =>
    ofProvider own ((providerOf server request own).complete question context prior)
  | question => .ask (.app question) .done

/-- `_answer` with the provider in place. -/
def served (words : WordChars) (server : ModelProvider) (request : AnswerRequest)
    (isChat : Bool) : Dialogue ServedQuestion ServedAnswer Answered :=
  (answer request isChat).expand (provided words server request)

end ProductionRag
