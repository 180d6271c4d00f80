import ProductionRag.Api.Served
import ProductionRag.Basis.System

/-!
# The daily token budget

A server answers requests of many callers on one day, question by question.  The budget of
a tenant is read before an answer is generated, and charged after it.
-/

set_option autoImplicit false

namespace ProductionRag

open Basis

/-- The tokens used, for every tenant and day. -/
structure DailyTokenBudget where
  limit : Int
  used : String × String → Int := fun _ => 0

namespace DailyTokenBudget

/-- `remaining`; `none` is `math.inf`. -/
def remaining (budget : DailyTokenBudget) (today tenantId : String) : Option Int :=
  if budget.limit ≤ 0 then none else some (budget.limit - budget.used (tenantId, today))

def spend (budget : DailyTokenBudget) (today tenantId : String) (tokens : Int) :
    DailyTokenBudget :=
  if 0 < budget.limit then
    { budget with
      used := Function.update budget.used (tenantId, today)
        (budget.used (tenantId, today) + tokens) }
  else budget

section Spend

variable (budget : DailyTokenBudget) (today tenantId : String) (tokens : Int)

@[simp] theorem limit_spend : (budget.spend today tenantId tokens).limit = budget.limit := by
  rw [spend]
  split
  · rfl
  · rfl

theorem used_spend_self (positive : 0 < budget.limit) :
    (budget.spend today tenantId tokens).used (tenantId, today) =
      budget.used (tenantId, today) + tokens := by
  rw [spend, if_pos positive]
  exact Function.update_self _ _ _

/-- What other tenants spent, and what was spent on other days, stays recorded. -/
theorem used_spend_of_ne {key : String × String} (other : key ≠ (tenantId, today)) :
    (budget.spend today tenantId tokens).used key = budget.used key := by
  rw [spend]
  split
  · exact Function.update_of_ne other _ _
  · rfl

end Spend

/-- `remaining(tenant_id) <= 0` -/
def isUsedUp (budget : DailyTokenBudget) (today tenantId : String) : Bool :=
  (budget.remaining today tenantId).any (· ≤ 0)

/-- What the budget itself answers, it answers as it stands. -/
def agrees (budget : DailyTokenBudget) (today : String) : Exchange ServedAnswer → Bool
  | ⟨.app (.remaining tenantId), (left : Option Int)⟩ => left == budget.remaining today tenantId
  | _ => true

/-- The budget after a question is answered. -/
def after (budget : DailyTokenBudget) (today : String) : ServedQuestion → DailyTokenBudget
  | .app (.spend tenantId tokens) => budget.spend today tenantId tokens
  | _ => budget

end DailyTokenBudget

/-- A request being answered, and what it was told so far. -/
structure OpenRequest where
  request : AnswerRequest
  isChat : Bool
  /-- The budget of the tenant was used up when the request came. -/
  late : Bool
  log : List (Exchange ServedAnswer) := []
  rest : Dialogue ServedQuestion ServedAnswer Answered

structure QueryServer where
  budget : DailyTokenBudget
  requests : Nat → Option OpenRequest := fun _ => none

inductive QueryEvent where
  | start (id : Nat) (request : AnswerRequest) (isChat : Bool)
  | told (id : Nat) (exchange : Exchange ServedAnswer)

namespace QueryServer

def opened (words : WordChars) (server : ModelProvider) (today : String) (state : QueryServer)
    (id : Nat) (request : AnswerRequest) (isChat : Bool) : QueryServer :=
  { state with
    requests := Function.update state.requests id (some
      { request, isChat
        late := state.budget.isUsedUp today request.principal.tenantId
        rest := served words server request isChat }) }

def advanced (today : String) (state : QueryServer) (id : Nat) (asking : OpenRequest)
    (exchange : Exchange ServedAnswer) (rest : Dialogue ServedQuestion ServedAnswer Answered) :
    QueryServer where
  budget := state.budget.after today exchange.question
  requests := Function.update state.requests id (some
    { asking with log := asking.log ++ [exchange], rest })

theorem opened_requests (words : WordChars) (server : ModelProvider) (today : String)
    (state : QueryServer) (id : Nat) (request : AnswerRequest) (isChat : Bool) :
    (state.opened words server today id request isChat).requests =
      Function.update state.requests id (some
        { request, isChat
          late := state.budget.isUsedUp today request.principal.tenantId
          rest := served words server request isChat }) :=
  rfl

theorem advanced_requests (today : String) (state : QueryServer) (id : Nat) (asking : OpenRequest)
    (exchange : Exchange ServedAnswer)
    (rest : Dialogue ServedQuestion ServedAnswer Answered) :
    (state.advanced today id asking exchange rest).requests =
      Function.update state.requests id (some
        { asking with log := asking.log ++ [exchange], rest }) :=
  rfl

def step (words : WordChars) (server : ModelProvider) (today : String) (state : QueryServer) :
    QueryEvent → Option QueryServer
  | .start id request isChat =>
    match state.requests id with
    | some _ => none
    | none => some (state.opened words server today id request isChat)
  | .told id exchange =>
    match state.requests id with
    | none => none
    | some asking =>
      if state.budget.agrees today exchange then
        (asking.rest.resume exchange).map (state.advanced today id asking exchange)
      else none

end QueryServer

/-- The requests of one day. -/
def queryServer (words : WordChars) (server : ModelProvider) (today : String) (limit : Int) :
    System QueryServer QueryEvent where
  start := { budget := { limit } }
  step := QueryServer.step words server today

/-- Everything a step can do. -/
inductive QueryServer.Step (words : WordChars) (server : ModelProvider) (today : String)
    (state : QueryServer) : QueryEvent → QueryServer → Prop
  | start (id : Nat) (request : AnswerRequest) (isChat : Bool)
      (fresh : state.requests id = none) :
      Step words server today state (.start id request isChat)
        (state.opened words server today id request isChat)
  | told (id : Nat) (exchange : Exchange ServedAnswer) (asking : OpenRequest)
      (next : ServedAnswer exchange.question → Dialogue ServedQuestion ServedAnswer Answered)
      (found : state.requests id = some asking)
      (agrees : state.budget.agrees today exchange = true)
      (asks : asking.rest = .ask exchange.question next) :
      Step words server today state (.told id exchange)
        (state.advanced today id asking exchange (next exchange.answer))

theorem QueryServer.step_iff {words : WordChars} {server : ModelProvider} {today : String}
    {state next : QueryServer} {event : QueryEvent} :
    state.step words server today event = some next ↔
      state.Step words server today event next := by
  constructor
  · intro taken
    cases event with
    | start id request isChat =>
        rw [step] at taken
        split at taken
        · cases taken
        · rename_i fresh
          obtain rfl := Option.some.inj taken
          exact .start id request isChat fresh
    | told id exchange =>
        rw [step] at taken
        split at taken
        · cases taken
        · rename_i asking found
          split at taken
          · rename_i agrees
            obtain ⟨rest, resumed, rfl⟩ := Option.map_eq_some_iff.mp taken
            obtain ⟨next, asks, rfl⟩ := Dialogue.resume_iff.mp resumed
            exact .told id exchange asking next found agrees asks
          · cases taken
  · intro taken
    cases taken with
    | start id request isChat fresh => rw [step, fresh]
    | told id exchange asking next found agrees asks =>
        have resumed := Dialogue.resume_iff.mpr ⟨next, asks, rfl⟩
        rw [step, found]
        simp only [agrees, if_true, resumed, Option.map_some]

/-- The server's model is called, to answer or to rewrite. -/
def ServedQuestion.callsServer : ServedQuestion → Bool
  | .provider false (.gateway (.call ..)) => true
  | .provider false (.rewriting ..) => true
  | _ => false

/-- The requests of the tenant that came after the first state and brought no provider make no
call of the server's model. -/
def SparesServer (tenantId : String) (state final : QueryServer) : Prop :=
  ∀ id asking, state.requests id = none → final.requests id = some asking →
    asking.request.principal.tenantId = tenantId → asking.request.userProvider = .ok none →
    ∀ exchange ∈ asking.log, exchange.question.callsServer = false

/-! ## When the model is called nevertheless -/

/-- The earlier turns that an exchange tells of. -/
def toldTurns : Exchange ServedAnswer → List ChatTurn
  | ⟨.app (.history ..), (turns : List ChatTurn)⟩ => turns
  | _ => []

/-- The earlier turns that a chat was told before anything else. -/
def toldHistory : List (Exchange ServedAnswer) → List ChatTurn
  | [] => []
  | exchange :: _ => toldTurns exchange

/-- The question leans on earlier turns that fit into the history budget. -/
def FollowsUp (words : WordChars) (server : ModelProvider) (request : AnswerRequest)
    (log : List (Exchange ServedAnswer)) : Prop :=
  ∃ gateway asked, server = .gateway gateway ∧ request.question = some asked ∧
    looksLikeFollowUp words (strip asked) = true ∧
    gateway.budget.trimHistory (historyForModel (toldHistory log)) ≠ []

/-- The step does not give back tokens that were used up, and no follow-up that came too late
finds a closed circuit. -/
def Spares (words : WordChars) (server : ModelProvider) (today : String) (state : QueryServer) :
    QueryEvent → Prop
  | .start .. => True
  | .told id exchange =>
    (∀ tenantId, state.budget.isUsedUp today tenantId = true →
      (state.budget.after today exchange.question).isUsedUp today tenantId = true) ∧
    ∀ asking place, state.requests id = some asking → asking.late = true →
      asking.request.userProvider = .ok none →
      exchange = ⟨.provider false (.gateway (.state place)), .closed⟩ →
      ¬ FollowsUp words server asking.request asking.log

/-! ## A request that came too late -/

/-- What is known of a request that came when the budget was used up. -/
structure OpenRequest.Late (words : WordChars) (server : ModelProvider)
    (asking : OpenRequest) : Prop where
  late : asking.late = true
  reaches : (served words server asking.request asking.isChat).Reaches asking.log asking.rest
  usedUp : ∀ left : Option Int,
    (⟨.app (.remaining asking.request.principal.tenantId), left⟩ : Exchange ServedAnswer) ∈
      asking.log → ∃ tokens, left = some tokens ∧ tokens ≤ 0
  circuits : asking.request.userProvider = .ok none →
    FollowsUp words server asking.request asking.log → ∀ place,
      (⟨.provider false (.gateway (.state place)), .closed⟩ : Exchange ServedAnswer) ∉ asking.log

theorem toldHistory_append {log : List (Exchange ServedAnswer)} (some : log ≠ [])
    (more : List (Exchange ServedAnswer)) : toldHistory (log ++ more) = toldHistory log := by
  cases log with
  | nil => exact absurd rfl some
  | cons exchange log => rfl

theorem DailyTokenBudget.isUsedUp_iff {budget : DailyTokenBudget} {today tenantId : String} :
    budget.isUsedUp today tenantId = true ↔
      ∃ tokens, budget.remaining today tenantId = some tokens ∧ tokens ≤ 0 := by
  rw [isUsedUp, Option.any_eq_true]
  simp only [decide_eq_true_eq]

section Late

variable {words : WordChars} {server : ModelProvider} {today : String} {state : QueryServer}
  {asking : OpenRequest}

theorem OpenRequest.Late.opened {request : AnswerRequest} {isChat : Bool} :
    OpenRequest.Late words server
      { request, isChat, late := true, rest := served words server request isChat } where
  late := rfl
  reaches := .refl
  usedUp := fun _ wrong => (nomatch wrong)
  circuits := fun _ _ _ wrong => (nomatch wrong)

theorem OpenRequest.Late.advanced {id : Nat} {exchange : Exchange ServedAnswer}
    {next : ServedAnswer exchange.question → Dialogue ServedQuestion ServedAnswer Answered}
    (late : asking.Late words server)
    (usedUp : state.budget.isUsedUp today asking.request.principal.tenantId = true)
    (found : state.requests id = some asking)
    (agrees : state.budget.agrees today exchange = true)
    (asks : asking.rest = .ask exchange.question next)
    (spares : Spares words server today state (.told id exchange)) :
    OpenRequest.Late words server
      { asking with log := asking.log ++ [exchange], rest := next exchange.answer } where
  late := late.late
  reaches := .told (asks ▸ late.reaches)
  usedUp := by
    intro left member
    rcases List.mem_append.mp member with earlier | last
    · exact late.usedUp left earlier
    · rw [← List.mem_singleton.mp last] at agrees
      rw [show left = _ from beq_iff_eq.mp agrees]
      exact DailyTokenBudget.isUsedUp_iff.mp usedUp
  circuits := by
    intro noSettings followsUp place member
    obtain ⟨gateway, asked, isServer, isText, leans, fits⟩ := followsUp
    by_cases first : asking.log = []
    · -- A circuit that is read first leaves no turns.
      rw [first, List.nil_append, List.mem_singleton] at member
      dsimp only at fits
      rw [first, List.nil_append, ← member] at fits
      exact fits rfl
    · rw [toldHistory_append first] at fits
      have followsUp : FollowsUp words server asking.request asking.log :=
        ⟨gateway, asked, isServer, isText, leans, fits⟩
      rcases List.mem_append.mp member with earlier | last
      · exact late.circuits noSettings followsUp place earlier
      · exact spares.2 asking place found late.late noSettings (List.mem_singleton.mp last).symm
          followsUp

theorem toldHistory_of_expands {request : AnswerRequest} {tenantId userId sessionId : String}
    {turns : List ChatTurn} {rest : List (Exchange AnswerReply)}
    {log : List (Exchange ServedAnswer)}
    (expands : Dialogue.Expands (provided words server request)
      (⟨.history tenantId userId sessionId, turns⟩ :: rest) log) : toldHistory log = turns := by
  cases expands with
  | cons asked later =>
      rw [Dialogue.trace_single.mp asked]
      rfl

/-- Answers with which a request comes to its end quickly. -/
def standstill : ∀ question : ServedQuestion, ServedAnswer question
  | .app (.history ..) => []
  | .app (.rewriteQuery ..) => ""
  | .app (.retrieve ..) => .ok []
  | .app (.remaining _) => some (0 : Int)
  | .app .secondsUntilReset => (0 : Nat)
  | .app (.complete ..) => .error (.other "")
  | .app (.spend ..) => ()
  | .app (.append ..) => ()
  | .provider _ (.gateway .clock) => (0 : ℚ)
  | .provider _ (.gateway (.allow ..)) => false
  | .provider _ (.gateway (.state _)) => BreakerState.opened
  | .provider _ (.gateway (.recordSuccess _)) => ()
  | .provider _ (.gateway (.recordFailure _)) => ()
  | .provider _ (.gateway (.call ..)) => .error {}
  | .provider _ (.gateway (.uniform _)) => (0 : ℚ)
  | .provider _ (.gateway (.sleep _)) => ()
  | .provider _ (.rewriting ..) => .error {}

/-- A request that came too late makes no call of the server's model. -/
theorem OpenRequest.Late.spares (late : asking.Late words server)
    (noSettings : asking.request.userProvider = .ok none) :
    ∀ exchange ∈ asking.log, exchange.question.callsServer = false := by
  intro exchange member
  by_contra calls
  rw [Bool.not_eq_false] at calls
  -- However the request is under way, it can be brought to its end.
  obtain ⟨more, result, trace, still⟩ := late.reaches.exists_trace standstill
  obtain ⟨abstract, answered, expands, sources⟩ := served_run trace
  have run := answer_run answered
  have inLog : ∀ {question : ServedQuestion} {reply : ServedAnswer question},
      (⟨question, reply⟩ : Exchange ServedAnswer) ∈ asking.log ++ more →
        reply ≠ standstill question → (⟨question, reply⟩ : Exchange ServedAnswer) ∈ asking.log := by
    intro question reply inside other
    rcases List.mem_append.mp inside with inLog | inMore
    · exact inLog
    · exact absurd (still _ inMore) other
  cases sources exchange (List.mem_append_left _ member) with
  | app question reply inAbstract => cases calls
  | complete own question context prior reply inAbstract part completed asked told inPart =>
      obtain ⟨left, remaining, enough⟩ := run.checked noSettings inAbstract
      have read := inLog (app_mem expands rfl remaining) (by
        rintro rfl
        exact absurd (enough 0 rfl) (by decide))
      obtain ⟨tokens, rfl, used⟩ := late.usedUp left read
      exact absurd (enough tokens rfl) (Int.not_lt.mpr used)
  | rewriteQuery own question prior query inAbstract part rewritten whole asked told inPart =>
      cases own with
      | true => cases asked <;> cases calls
      | false =>
          obtain ⟨gateway, isServer, ⟨place, same⟩ | ⟨_, fits, leans, place, isClosed⟩⟩ :=
            ModelProvider.mem_rewriteQuery rewritten inPart
          · cases same
            cases calls
          · have read := inLog (whole _ isClosed) (by
              intro wrong
              cases wrong)
            obtain ⟨text, sessionId, turns, rest, isText, valid, rfl, rfl⟩ :=
              run.rewritten inAbstract
            have told : toldHistory asking.log = turns := by
              rw [← toldHistory_append (List.ne_nil_of_mem member) more]
              exact toldHistory_of_expands expands
            rw [validateQuery_ok valid] at leans
            rw [← told] at fits
            exact late.circuits noSettings ⟨gateway, text, isServer, isText, leans, fits⟩ place read

end Late

/-! ## The server -/

/-- The budget of the tenant is used up, and its request under the number came too late. -/
structure QueryServer.UsedUp (words : WordChars) (server : ModelProvider)
    (today tenantId : String) (id : Nat) (state : QueryServer) : Prop where
  budget : state.budget.isUsedUp today tenantId = true
  late : ∀ asking, state.requests id = some asking →
    asking.request.principal.tenantId = tenantId → asking.Late words server

theorem QueryServer.UsedUp.step {words : WordChars} {server : ModelProvider}
    {today tenantId : String} {id : Nat} {state next : QueryServer} {event : QueryEvent}
    (usedUp : state.UsedUp words server today tenantId id)
    (spares : Spares words server today state event)
    (taken : state.Step words server today event next) :
    next.UsedUp words server today tenantId id := by
  cases taken with
  | start id' request isChat fresh =>
      refine ⟨usedUp.budget, fun asking found ofTenant => ?_⟩
      by_cases same : id = id'
      · subst same
        rw [opened_requests, Function.update_self] at found
        obtain rfl := Option.some.inj found
        rw [ofTenant, usedUp.budget]
        exact .opened
      · rw [opened_requests, Function.update_of_ne same] at found
        exact usedUp.late asking found ofTenant
  | told id' exchange asking' next found' agrees asks =>
      refine ⟨spares.1 tenantId usedUp.budget, fun asking found ofTenant => ?_⟩
      by_cases same : id = id'
      · subst same
        rw [advanced_requests, Function.update_self] at found
        obtain rfl := Option.some.inj found
        exact (usedUp.late asking' found' ofTenant).advanced (ofTenant ▸ usedUp.budget) found'
          agrees asks spares
      · rw [advanced_requests, Function.update_of_ne same] at found
        exact usedUp.late asking found ofTenant

/-- Once the budget is used up, a run that gives no tokens back and lets no late follow-up find
a closed circuit makes no call of the server's model for the tenant. -/
theorem used_up_spares {words : WordChars} {server : ModelProvider} {today tenantId : String}
    {limit : Int} {state final : QueryServer} {events : List QueryEvent}
    (usedUp : state.budget.isUsedUp today tenantId = true)
    (ran : (queryServer words server today limit).exec state events = some final)
    (spares : (queryServer words server today limit).Meets (Spares words server today) state
      events) : SparesServer tenantId state final := by
  intro id asking fresh found ofTenant noSettings
  have kept : final.UsedUp words server today tenantId id := by
    refine System.exec_keeps (QueryServer.UsedUp words server today tenantId id) ?_ ran spares
      ⟨usedUp, fun _ wrong => ?_⟩
    · intro state event next usedUp spares taken
      exact usedUp.step spares (QueryServer.step_iff.mp taken)
    · rw [fresh] at wrong
      cases wrong
  exact (kept.late asking found ofTenant).spares noSettings

/-! ## Two requests that come too late -/

/-- One model, and one token a day. -/
def oneToken : System QueryServer QueryEvent :=
  queryServer .asciiWords (.gateway { providers := ["m"] }) "d" 1

def chatRequest (question : String) : AnswerRequest where
  principal := ⟨"t", "u", []⟩
  question := some question
  sessionId := some "s"

def refundNote : Ranked :=
  ({ text := "text", documentId := "d", index := 0, tenantId := "t", source := "notes.txt" }, 1)

def refundTurns : List ChatTurn := [⟨"user", "refund"⟩, ⟨"assistant", "text [1]"⟩]

/-- A chat spends five tokens of a budget of one. -/
def firstChat : List QueryEvent :=
  let answer : Generation := { text := "text [1]", model := "m", promptTokens := 5 }
  let log : List (Exchange ServedAnswer) :=
    [⟨.app (.history "t" "u" "s"), []⟩,
      ⟨.app (.retrieve ⟨"t", "u", []⟩ "refund"), .ok [refundNote]⟩,
      ⟨.app (.remaining "t"), some 1⟩, ⟨.provider false (.gateway .clock), 0⟩,
      ⟨.provider false (.gateway (.allow 0 0)), true⟩,
      ⟨.provider false (.gateway (.call 0 1 "refund" ["text"] [])), .ok answer⟩,
      ⟨.provider false (.gateway (.recordSuccess 0)), ()⟩, ⟨.app (.spend "t" 5), ()⟩,
      ⟨.app (.append "t" "u" "s" refundTurns), ()⟩, ⟨.app (.history "t" "u" "s"), refundTurns⟩]
  .start 0 (chatRequest "refund") true :: log.map (.told 0)

/-- The follow-up reaches the model while the budget is used up. -/
def lateFollowUp : List QueryEvent :=
  let messages : List (String × String) := [("system", rewritePrompt),
    ("user", "Conversation:\nuser: refund\nassistant: text\n\nLatest: and then?")]
  let log : List (Exchange ServedAnswer) :=
    [⟨.app (.history "t" "u" "s"), refundTurns⟩,
      ⟨.provider false (.gateway (.state 0)), BreakerState.closed⟩,
      ⟨.provider false (.rewriting 0 messages), .ok "refund"⟩]
  .start 1 (chatRequest "and then?") true :: log.map (.told 1)

/-- After the first chat the budget is used up, and the second request is still to come. -/
theorem firstChat_uses {state : QueryServer}
    (ran : oneToken.exec oneToken.start firstChat = some state) :
    state.budget.isUsedUp "d" "t" = true ∧ state.requests 1 = none := by
  have uses : (oneToken.exec oneToken.start firstChat).all (fun state =>
      state.budget.isUsedUp "d" "t" && (state.requests 1).isNone) = true := by
    decide +kernel
  rw [ran, Option.all_some, Bool.and_eq_true, Option.isNone_iff_eq_none] at uses
  exact uses

theorem late_follow_up_calls : ¬ ∀ (words : WordChars) (server : ModelProvider) (today : String)
    (limit : Int) (past future : List QueryEvent) (state final : QueryServer) (tenantId : String),
    (queryServer words server today limit).exec (queryServer words server today limit).start past =
      some state →
    state.budget.isUsedUp today tenantId = true →
    (queryServer words server today limit).exec state future = some final →
    SparesServer tenantId state final := by
  intro claimed
  have calls : (oneToken.exec oneToken.start (firstChat ++ lateFollowUp)).any (fun final =>
      (final.requests 1).any fun asking => asking.request.principal.tenantId == "t" &&
        asking.request.userProvider.toOption.any Option.isNone &&
        asking.log.any fun exchange => exchange.question.callsServer) = true := by
    decide +kernel
  obtain ⟨final, ran, asks⟩ := (Option.any_eq_true _ _).mp calls
  obtain ⟨asking, found, holds⟩ := (Option.any_eq_true _ _).mp asks
  rw [Bool.and_eq_true, Bool.and_eq_true, beq_iff_eq] at holds
  obtain ⟨⟨ofTenant, settings⟩, called⟩ := holds
  have noSettings : asking.request.userProvider = .ok none := by
    cases own : asking.request.userProvider with
    | error detail =>
        rw [own] at settings
        cases settings
    | ok settled =>
        cases settled with
        | none => rfl
        | some model =>
            rw [own] at settings
            cases settings
  obtain ⟨exchange, member, isCall⟩ := List.any_eq_true.mp called
  obtain ⟨state, before, after⟩ := System.exec_append.mp ran
  obtain ⟨usedUp, fresh⟩ := firstChat_uses before
  have spared := claimed .asciiWords (.gateway { providers := ["m"] }) "d" 1 firstChat lateFollowUp
    state final "t" before usedUp after 1 asking fresh found ofTenant noSettings exchange member
  rw [isCall] at spared
  cases spared

/-- A query is refused while the budget is used up. -/
def lateQuery : List QueryEvent :=
  let log : List (Exchange ServedAnswer) :=
    [⟨.app (.retrieve ⟨"t", "u", []⟩ "refund"), .ok [refundNote]⟩,
      ⟨.app (.remaining "t"), some (-4)⟩, ⟨.app .secondsUntilReset, (3600 : Nat)⟩]
  .start 1 { chatRequest "refund" with sessionId := none } false :: log.map (.told 1)

theorem lateQuery_spares (state : QueryServer) :
    oneToken.Meets (Spares .asciiWords (.gateway { providers := ["m"] }) "d") state lateQuery := by
  refine System.meets_of_forall fun past event future middle split _ => ?_
  have member : event ∈ lateQuery := by
    rw [split]
    exact List.mem_append_right _ List.mem_cons_self
  rw [lateQuery, List.mem_cons] at member
  rcases member with rfl | told
  · trivial
  · obtain ⟨exchange, inLog, rfl⟩ := List.mem_map.mp told
    simp only [List.mem_cons, List.not_mem_nil, or_false] at inLog
    rcases inLog with rfl | rfl | rfl
    · exact ⟨fun _ => id, fun _ _ _ _ _ wrong => by cases wrong⟩
    · exact ⟨fun _ => id, fun _ _ _ _ _ wrong => by cases wrong⟩
    · exact ⟨fun _ => id, fun _ _ _ _ _ wrong => by cases wrong⟩

/-- The late query spares the model. -/
theorem late_query_spared : ∃ state final,
    oneToken.exec oneToken.start firstChat = some state ∧
    oneToken.exec state lateQuery = some final ∧ SparesServer "t" state final := by
  have runs : (oneToken.exec oneToken.start (firstChat ++ lateQuery)).isSome = true := by
    decide +kernel
  obtain ⟨final, ran⟩ := Option.isSome_iff_exists.mp runs
  obtain ⟨state, before, after⟩ := System.exec_append.mp ran
  exact ⟨state, final, before, after,
    used_up_spares (firstChat_uses before).1 after (lateQuery_spares state)⟩

end ProductionRag
