import ProductionRag.Api.TokenBudget
import ProductionRag.Basis.Phases

/-!
# The cap over the days

Requests are answered side by side while the days go by.  A request reads what is left of
the budget, calls the model, and charges the tokens to the day on which the call returns;
what exceeds the cap was under way.
-/

set_option autoImplicit false

namespace ProductionRag

open Basis

/-! ## The budget seen from one request -/

/-- Where a request stands between its check and its charge. -/
inductive BudgetPhase where
  | unchecked
  /-- Tokens were left, and none were charged since. -/
  | checked
  | charged
  deriving DecidableEq

/-- What is charged was checked, and both are for the tenant of the request. -/
def budgetProtocol (tenantId : String) : Protocol AnswerReply BudgetPhase where
  allows phase
    | .remaining asked => asked = tenantId
    | .spend charged _ => charged = tenantId ∧ phase = .checked
    | _ => True
  after phase
    | ⟨.remaining _, (left : Option Int)⟩ => if left.any (· ≤ 0) then phase else .checked
    | ⟨.spend .., _⟩ => .charged
    | _ => phase

section Answer

variable {principal : Principal} {session : Option String} {question searchQuery : String}
  {prior : List ChatTurn} {own : Bool} {evidence : List Ranked} {phase : BudgetPhase}

theorem respond_kept (generation : Option Generation) (text : String) (used : List Nat) :
    (budgetProtocol principal.tenantId).Kept phase
      (respond principal session question searchQuery own evidence generation text used) := by
  unfold respond
  split
  · trivial
  · cases session with
    | none => trivial
    | some sessionId => exact ⟨trivial, fun _ => ⟨trivial, fun _ => trivial⟩⟩

theorem afterGeneration_kept (generation : Generation) :
    (budgetProtocol principal.tenantId).Kept phase
      (afterGeneration principal session question searchQuery own evidence generation) := by
  unfold afterGeneration
  split
  · trivial
  · exact respond_kept _ _ _

/-- Only a request that passed the check charges the budget. -/
theorem generate_kept (checked : own = false → phase = .checked) :
    (budgetProtocol principal.tenantId).Kept phase
      (generate principal session question searchQuery prior own evidence) := by
  refine ⟨trivial, fun reply => ?_⟩
  cases reply with
  | error e => trivial
  | ok generation =>
      cases own with
      | true => exact afterGeneration_kept generation
      | false => exact ⟨⟨rfl, checked rfl⟩, fun _ => afterGeneration_kept generation⟩

theorem answerFrom_kept :
    (budgetProtocol principal.tenantId).Kept phase
      (answerFrom principal session question searchQuery prior own evidence) := by
  unfold answerFrom
  dsimp only
  split
  · exact respond_kept _ _ _
  · split
    · rename_i isOwn
      refine generate_kept fun servers => ?_
      rw [isOwn] at servers
      cases servers
    · refine ⟨rfl, fun left => ?_⟩
      cases left with
      | none => exact generate_kept fun _ => rfl
      | some left =>
          dsimp only
          split
          · exact ⟨trivial, fun _ => trivial⟩
          · rename_i unused
            refine generate_kept fun _ => ?_
            exact if_neg (by simpa using unused)

theorem answerSearch_kept :
    (budgetProtocol principal.tenantId).Kept phase
      (answerSearch principal session question prior own searchQuery) := by
  refine ⟨trivial, fun reply => ?_⟩
  cases reply with
  | error e =>
      cases e with
      | unsafeQuery message => trivial
      | raised e => trivial
  | ok evidence => exact answerFrom_kept

theorem answerPrior_kept :
    (budgetProtocol principal.tenantId).Kept phase
      (answerPrior principal session question prior own) := by
  unfold answerPrior
  split
  · trivial
  · trivial
  · unfold answerQuestion
    split
    · exact answerSearch_kept
    · exact ⟨trivial, fun _ => answerSearch_kept⟩

end Answer

/-- `_answer` charges only what it checked, and only to the tenant of the request. -/
theorem answer_kept (request : AnswerRequest) (isChat : Bool) :
    (budgetProtocol request.principal.tenantId).Kept .unchecked (answer request isChat) := by
  unfold answer
  split
  · trivial
  · split
    · trivial
    · dsimp only
      split
      · trivial
      · split
        · trivial
        · split
          · exact answerPrior_kept
          · exact ⟨trivial, fun _ => answerPrior_kept⟩

/-! ## The server over the days -/

/-- A request being answered, with what it was told so far. -/
structure PendingAnswer where
  request : AnswerRequest
  isChat : Bool
  log : List (Exchange AnswerReply) := []
  rest : AnswerDialogue Answered

namespace PendingAnswer

def tenantId (asking : PendingAnswer) : String := asking.request.principal.tenantId

def phase (asking : PendingAnswer) : BudgetPhase :=
  asking.log.foldl (budgetProtocol asking.tenantId).after .unchecked

/-- Between a check that found tokens left and the charge. -/
def inFlight (tenantId : String) (asking : PendingAnswer) : Bool :=
  asking.tenantId = tenantId && asking.phase = .checked && !asking.rest.isDone

def told (asking : PendingAnswer) (exchange : Exchange AnswerReply)
    (rest : AnswerDialogue Answered) : PendingAnswer :=
  { asking with log := asking.log ++ [exchange], rest }

end PendingAnswer

structure CapServer where
  today : String
  budget : DailyTokenBudget
  requests : List PendingAnswer := []

inductive CapEvent where
  | start (request : AnswerRequest) (isChat : Bool)
  | told (id : Nat) (exchange : Exchange AnswerReply)
  /-- The UTC date changes; dates are written as ISO dates. -/
  | midnight (day : String)

namespace CapServer

/-- How many requests of the tenant are in flight. -/
def inFlight (state : CapServer) (tenantId : String) : Nat :=
  state.requests.countP (·.inFlight tenantId)

def opened (state : CapServer) (request : AnswerRequest) (isChat : Bool) : CapServer :=
  { state with
    requests := state.requests ++ [{ request, isChat, rest := answer request isChat }] }

def advanced (state : CapServer) (id : Nat) (asking : PendingAnswer)
    (exchange : Exchange AnswerReply) (rest : AnswerDialogue Answered) : CapServer :=
  { state with
    budget := state.budget.after state.today (.app exchange.question)
    requests := state.requests.set id (asking.told exchange rest) }

def step (state : CapServer) : CapEvent → Option CapServer
  | .start request isChat => some (state.opened request isChat)
  | .told id exchange =>
    match state.requests[id]? with
    | none => none
    | some asking =>
      if state.budget.agrees state.today ⟨.app exchange.question, exchange.answer⟩ then
        (asking.rest.resume exchange).map (state.advanced id asking exchange)
      else none
  | .midnight day => if state.today < day then some { state with today := day } else none

end CapServer

def capServer (today : String) (limit : Int) : System CapServer CapEvent where
  start := { today, budget := { limit } }
  step := CapServer.step

/-- The tokens that an event charges to the tenant. -/
def CapEvent.charge (tenantId : String) : CapEvent → Int
  | .told _ ⟨.spend charged tokens, _⟩ => if charged = tenantId then tokens else 0
  | _ => 0

/-- The step leaves at most `k` requests of the tenant in flight, and charges at most `m`
tokens to the tenant. -/
def Within (tenantId : String) (k m : Nat) (state : CapServer) (event : CapEvent) : Prop :=
  (∀ next ∈ state.step event, next.inFlight tenantId ≤ k) ∧ event.charge tenantId ≤ m

instance (tenantId : String) (k m : Nat) (state : CapServer) (event : CapEvent) :
    Decidable (Within tenantId k m state event) :=
  inferInstanceAs (Decidable (_ ∧ _))

/-- Everything a step can do. -/
inductive CapServer.Step (state : CapServer) : CapEvent → CapServer → Prop
  | start (request : AnswerRequest) (isChat : Bool) :
      Step state (.start request isChat) (state.opened request isChat)
  | told (id : Nat) (exchange : Exchange AnswerReply) (asking : PendingAnswer)
      (next : AnswerReply exchange.question → AnswerDialogue Answered)
      (found : state.requests[id]? = some asking)
      (agrees : state.budget.agrees state.today ⟨.app exchange.question, exchange.answer⟩ = true)
      (asks : asking.rest = .ask exchange.question next) :
      Step state (.told id exchange) (state.advanced id asking exchange (next exchange.answer))
  | midnight (day : String) (later : state.today < day) :
      Step state (.midnight day) { state with today := day }

theorem CapServer.step_cases {state next : CapServer} {event : CapEvent}
    (taken : state.step event = some next) : state.Step event next := by
  cases event with
  | start request isChat =>
      obtain rfl := Option.some.inj taken
      exact .start request isChat
  | told id exchange =>
      rw [step] at taken
      split at taken
      · cases taken
      · rename_i asking found
        split at taken
        · rename_i agrees
          obtain ⟨rest, resumed, rfl⟩ := Option.map_eq_some_iff.mp taken
          obtain ⟨next, asks, rfl⟩ := Dialogue.resume_iff.mp resumed
          exact .told id exchange asking next found agrees asks
        · cases taken
  | midnight day =>
      rw [step, Option.ite_none_right_eq_some] at taken
      obtain ⟨later, same⟩ := taken
      obtain rfl := Option.some.inj same
      exact .midnight day later

/-! ## What is charged was in flight -/

theorem PendingAnswer.phase_told (asking : PendingAnswer) (exchange : Exchange AnswerReply)
    (rest : AnswerDialogue Answered) :
    (asking.told exchange rest).phase =
      (budgetProtocol asking.tenantId).after asking.phase exchange := by
  rw [phase, told, List.foldl_append]
  rfl

theorem PendingAnswer.inFlight_iff {tenantId : String} {asking : PendingAnswer} :
    asking.inFlight tenantId = true ↔
      asking.tenantId = tenantId ∧ asking.phase = .checked ∧ asking.rest.isDone = false := by
  simp only [inFlight, Bool.and_eq_true, decide_eq_true_eq, Bool.not_eq_true', and_assoc]

/-- A request that waits for an answer keeps to the protocol. -/
def PendingAnswer.Kept (asking : PendingAnswer) : Prop :=
  (budgetProtocol asking.tenantId).Kept asking.phase asking.rest

theorem PendingAnswer.Kept.told {asking : PendingAnswer} {exchange : Exchange AnswerReply}
    {next : AnswerReply exchange.question → AnswerDialogue Answered} (kept : asking.Kept)
    (asks : asking.rest = .ask exchange.question next) :
    (asking.told exchange (next exchange.answer)).Kept := by
  rw [Kept, asks] at kept
  rw [Kept, phase_told]
  exact kept.told exchange.answer

section Charges

variable {state : CapServer} {id : Nat} {asking : PendingAnswer} {tenantId : String}
  {exchange : Exchange AnswerReply} {rest : AnswerDialogue Answered}

/-- The request under the number gives way to the one that was told more. -/
theorem CapServer.inFlight_advanced (found : state.requests[id]? = some asking) :
    (state.advanced id asking exchange rest).inFlight tenantId +
        (if asking.inFlight tenantId then 1 else 0) =
      state.inFlight tenantId +
        (if (asking.told exchange rest).inFlight tenantId then 1 else 0) := by
  obtain ⟨inside, same⟩ := List.getElem?_eq_some_iff.mp found
  rw [inFlight, advanced, List.countP_set inside, inFlight, same]
  by_cases counted : asking.inFlight tenantId = true
  · have positive : 0 < state.requests.countP (·.inFlight tenantId) :=
      List.countP_pos_iff.mpr ⟨asking, List.mem_of_getElem? found, counted⟩
    rw [if_pos counted]
    omega
  · rw [if_neg counted]
    omega

/-- A charge takes a request of its tenant out of flight. -/
theorem CapServer.charged {tokens : Int}
    {next : AnswerReply (.spend tenantId tokens) → AnswerDialogue Answered}
    (found : state.requests[id]? = some asking) (kept : asking.Kept)
    (asks : asking.rest = .ask (.spend tenantId tokens) next) :
    (state.advanced id asking ⟨.spend tenantId tokens, ()⟩ (next ())).inFlight tenantId + 1 =
      state.inFlight tenantId := by
  rw [PendingAnswer.Kept, asks] at kept
  obtain ⟨own, checked⟩ := kept.allowed
  have before : asking.inFlight tenantId = true := by
    rw [PendingAnswer.inFlight_iff, asks]
    exact ⟨own.symm, checked, rfl⟩
  have after : (asking.told ⟨.spend tenantId tokens, ()⟩ (next ())).inFlight tenantId = false := by
    rw [Bool.eq_false_iff, Ne, PendingAnswer.inFlight_iff, PendingAnswer.phase_told]
    rintro ⟨_, wrong, _⟩
    cases wrong
  have count := @inFlight_advanced state id asking tenantId ⟨.spend tenantId tokens, ()⟩ (next ())
    found
  rw [before, after] at count
  exact count

/-- What is no check that passed puts no request in flight. -/
theorem CapServer.inFlight_le (found : state.requests[id]? = some asking)
    (still : (asking.told exchange rest).inFlight tenantId = true →
      asking.inFlight tenantId = true) :
    (state.advanced id asking exchange rest).inFlight tenantId ≤ state.inFlight tenantId := by
  have count := @inFlight_advanced state id asking tenantId exchange rest found
  by_cases after : (asking.told exchange rest).inFlight tenantId = true
  · rw [if_pos after, if_pos (still after)] at count
    omega
  · rw [if_neg after] at count
    omega

/-- An exchange that leaves the phase alone. -/
theorem PendingAnswer.inFlight_of_told
    {next : AnswerReply exchange.question → AnswerDialogue Answered}
    (asks : asking.rest = .ask exchange.question next)
    (same : (budgetProtocol asking.tenantId).after asking.phase exchange = asking.phase)
    (flies : (asking.told exchange rest).inFlight tenantId = true) :
    asking.inFlight tenantId = true := by
  rw [inFlight_iff, phase_told, same] at flies
  rw [inFlight_iff, asks]
  exact ⟨flies.1, flies.2.1, rfl⟩

end Charges

/-! ## The bound -/

/-- What is recorded, and what the requests in flight may still add to it today. -/
structure CapServer.Capped (tenantId : String) (limit : Int) (k m : Nat) (state : CapServer) :
    Prop where
  sameLimit : state.budget.limit = limit
  few : state.inFlight tenantId ≤ k
  kept : ∀ asking ∈ state.requests, asking.Kept
  sum : state.budget.used (tenantId, state.today) + m * state.inFlight tenantId ≤
    limit - 1 + k * m
  everyDay : ∀ day, state.budget.used (tenantId, day) ≤ limit - 1 + k * m
  ahead : ∀ day, state.today < day → state.budget.used (tenantId, day) = 0

section Bound

variable {tenantId : String} {limit : Int} {k m : Nat} {state : CapServer}

theorem CapServer.Capped.opened (capped : state.Capped tenantId limit k m)
    (request : AnswerRequest) (isChat : Bool) :
    (state.opened request isChat).Capped tenantId limit k m := by
  have grounded : (⟨request, isChat, [], answer request isChat⟩ : PendingAnswer).inFlight
      tenantId = false := by
    rw [Bool.eq_false_iff, Ne, PendingAnswer.inFlight_iff]
    rintro ⟨_, wrong, _⟩
    cases wrong
  have same : (state.opened request isChat).inFlight tenantId = state.inFlight tenantId := by
    rw [inFlight, CapServer.opened, List.countP_append, List.countP_singleton, grounded]
    rfl
  refine ⟨capped.sameLimit, same ▸ capped.few, ?_, same ▸ capped.sum, capped.everyDay, capped.ahead⟩
  intro asking member
  rcases List.mem_append.mp member with old | new
  · exact capped.kept asking old
  · rw [List.mem_singleton.mp new]
    exact answer_kept request isChat

/-- A new day begins with nothing recorded. -/
theorem CapServer.Capped.midnight (capped : state.Capped tenantId limit k m) (positive : 0 < limit)
    {day : String} (later : state.today < day) :
    CapServer.Capped tenantId limit k m { state with today := day } := by
  refine ⟨capped.sameLimit, capped.few, capped.kept, ?_, capped.everyDay, ?_⟩
  · have few : (m : Int) * state.inFlight tenantId ≤ m * k :=
      Int.mul_le_mul_of_nonneg_left (Int.ofNat_le.mpr capped.few) (Int.natCast_nonneg m)
    calc state.budget.used (tenantId, day) + m * state.inFlight tenantId
        = m * state.inFlight tenantId := by rw [capped.ahead day later, Int.zero_add]
      _ ≤ m * k := few
      _ = k * m := Int.mul_comm _ _
      _ ≤ limit - 1 + k * m := by omega
  · intro other ahead
    exact capped.ahead other (String.lt_trans later ahead)

/-- What the pending requests keep to, they keep to when one of them is told more. -/
theorem CapServer.Capped.kept_advanced (capped : state.Capped tenantId limit k m) {id : Nat}
    {asking : PendingAnswer} {exchange : Exchange AnswerReply}
    {next : AnswerReply exchange.question → AnswerDialogue Answered}
    (found : state.requests[id]? = some asking) (asks : asking.rest = .ask exchange.question next) :
    ∀ other ∈ (state.advanced id asking exchange (next exchange.answer)).requests,
      other.Kept := by
  intro other member
  rcases List.mem_or_eq_of_mem_set member with old | rfl
  · exact capped.kept other old
  · exact (capped.kept asking (List.mem_of_getElem? found)).told asks

/-- A step that records nothing for the tenant, and lets no request into flight unless tokens
are left. -/
theorem CapServer.Capped.quiet (capped : state.Capped tenantId limit k m) {next : CapServer}
    (sameDay : next.today = state.today) (sameLimit : next.budget.limit = state.budget.limit)
    (sameUsed : ∀ day, next.budget.used (tenantId, day) = state.budget.used (tenantId, day))
    (few : next.inFlight tenantId ≤ k) (kept : ∀ asking ∈ next.requests, asking.Kept)
    (lets : next.inFlight tenantId ≤ state.inFlight tenantId ∨
      state.budget.used (tenantId, state.today) ≤ limit - 1) :
    next.Capped tenantId limit k m := by
  refine ⟨sameLimit.trans capped.sameLimit, few, kept, ?_, ?_, ?_⟩
  · rw [sameDay, sameUsed]
    rcases lets with fewer | left
    · have less : (m : Int) * next.inFlight tenantId ≤ m * state.inFlight tenantId :=
        Int.mul_le_mul_of_nonneg_left (Int.ofNat_le.mpr fewer) (Int.natCast_nonneg m)
      exact Int.le_trans (Int.add_le_add_left less _) capped.sum
    · have most : (m : Int) * next.inFlight tenantId ≤ m * k :=
        Int.mul_le_mul_of_nonneg_left (Int.ofNat_le.mpr few) (Int.natCast_nonneg m)
      rw [Int.mul_comm (k : Int)]
      exact Int.add_le_add left most
  · intro day
    rw [sameUsed]
    exact capped.everyDay day
  · intro day ahead
    rw [sameDay] at ahead
    rw [sameUsed]
    exact capped.ahead day ahead

/-- A charge of the tenant: its request leaves the sum of what is recorded and in flight. -/
theorem CapServer.Capped.charge (capped : state.Capped tenantId limit k m) (positive : 0 < limit)
    {id : Nat} {asking : PendingAnswer} {tokens : Int}
    {next : AnswerReply (.spend tenantId tokens) → AnswerDialogue Answered}
    (found : state.requests[id]? = some asking)
    (asks : asking.rest = .ask (.spend tenantId tokens) next) (small : tokens ≤ m) :
    (state.advanced id asking ⟨.spend tenantId tokens, ()⟩ (next ())).Capped tenantId limit
      k m := by
  have fewer := CapServer.charged found (capped.kept asking (List.mem_of_getElem? found)) asks
  have spends : (state.advanced id asking ⟨.spend tenantId tokens, ()⟩ (next ())).budget =
      state.budget.spend state.today tenantId tokens := rfl
  have sameDay : (state.advanced id asking ⟨.spend tenantId tokens, ()⟩ (next ())).today =
      state.today := rfl
  have recorded := state.budget.used_spend_self state.today tenantId tokens
    (by rwa [capped.sameLimit])
  have otherDay : ∀ day, day ≠ state.today →
      (state.budget.spend state.today tenantId tokens).used (tenantId, day) =
        state.budget.used (tenantId, day) := fun day notToday =>
    state.budget.used_spend_of_ne _ _ _ fun same => notToday (congrArg Prod.snd same)
  have today := capped.sum
  rw [← fewer] at today
  generalize hold : (state.advanced id asking ⟨.spend tenantId tokens, ()⟩
    (next ())).inFlight tenantId = flying at fewer today
  have charged : state.budget.used (tenantId, state.today) + tokens + m * flying ≤
      limit - 1 + k * m := by
    push_cast at today
    rw [Int.mul_add, Int.mul_one] at today
    omega
  refine ⟨?_, ?_, capped.kept_advanced found asks, ?_, ?_, ?_⟩
  · rw [spends, DailyTokenBudget.limit_spend, capped.sameLimit]
  · rw [hold]
    have few := capped.few
    omega
  · rw [hold, spends, sameDay, recorded]
    exact charged
  · intro day
    rw [spends]
    by_cases isToday : day = state.today
    · have flyingNonneg : (0 : Int) ≤ m * flying :=
        Int.mul_nonneg (Int.natCast_nonneg m) (Int.natCast_nonneg flying)
      rw [isToday, recorded]
      omega
    · rw [otherDay day isToday]
      exact capped.everyDay day
  · intro day ahead
    rw [sameDay] at ahead
    have notToday : day ≠ state.today := by
      rintro rfl
      exact String.lt_irrefl _ ahead
    rw [spends, otherDay day notToday]
    exact capped.ahead day ahead

/-- A step within the bounds keeps the sum below the cap. -/
theorem CapServer.Capped.step (capped : state.Capped tenantId limit k m) (positive : 0 < limit)
    {event : CapEvent} {next : CapServer} (within : Within tenantId k m state event)
    (taken : state.step event = some next) : next.Capped tenantId limit k m := by
  have few := within.1 next taken
  cases CapServer.step_cases taken with
  | start request isChat => exact capped.opened request isChat
  | midnight day later => exact capped.midnight positive later
  | told id exchange asking rest found agrees asks =>
      have kept := capped.kept_advanced found asks
      obtain ⟨question, reply⟩ := exchange
      cases question with
      | spend charged tokens =>
          by_cases own : charged = tenantId
          · subst own
            have small := within.2
            rw [CapEvent.charge, if_pos rfl] at small
            exact capped.charge positive found asks small
          · refine capped.quiet rfl ?_ ?_ few kept (Or.inl ?_)
            · exact state.budget.limit_spend state.today charged tokens
            · intro day
              apply state.budget.used_spend_of_ne
              exact fun same => own (congrArg Prod.fst same).symm
            · apply inFlight_le found
              intro flies
              rw [PendingAnswer.inFlight_iff, PendingAnswer.phase_told] at flies
              cases flies.2.1
      | remaining asked =>
          refine capped.quiet rfl rfl (fun _ => rfl) few kept ?_
          have allowed := capped.kept asking (List.mem_of_getElem? found)
          rw [PendingAnswer.Kept, asks] at allowed
          have ofTenant : asked = asking.tenantId := allowed.allowed
          by_cases own : asked = tenantId
          · have tells : reply = state.budget.remaining state.today asked := beq_iff_eq.mp agrees
            rw [DailyTokenBudget.remaining, if_neg (by rw [capped.sameLimit]; omega), own,
              capped.sameLimit] at tells
            by_cases left : state.budget.used (tenantId, state.today) ≤ limit - 1
            · exact Or.inr left
            · left
              refine inFlight_le found (PendingAnswer.inFlight_of_told asks ?_)
              rw [tells]
              exact if_pos (by simp; omega)
          · left
            apply inFlight_le found
            intro flies
            rw [PendingAnswer.inFlight_iff] at flies
            exact absurd (ofTenant.trans flies.1) own
      | history _ _ _ | rewriteQuery _ _ _ | retrieve _ _ | secondsUntilReset
      | complete _ _ _ _ | append _ _ _ _ =>
          refine capped.quiet rfl rfl (fun _ => rfl) few kept (Or.inl ?_)
          exact inFlight_le found (PendingAnswer.inFlight_of_told asks rfl)

/-- With at most `k` requests of the tenant in flight, each charging at most `m` tokens, no day's
record of the tenant exceeds the cap by more than they can add. -/
theorem daily_cap_overshoot (positive : 0 < limit) {today : String}
    {final : CapServer} {events : List CapEvent}
    (ran : (capServer today limit).exec (capServer today limit).start events = some final)
    (within : (capServer today limit).Meets (Within tenantId k m) (capServer today limit).start
      events) (day : String) :
    final.budget.used (tenantId, day) ≤ limit - 1 + k * m := by
  have room : (0 : Int) ≤ limit - 1 + k * m := by
    have nonneg : (0 : Int) ≤ k * m := Int.mul_nonneg (Int.natCast_nonneg k) (Int.natCast_nonneg m)
    omega
  have start : (capServer today limit).start.Capped tenantId limit k m := by
    refine ⟨rfl, Nat.zero_le k, fun _ wrong => ?_, ?_, fun _ => room, fun _ _ => rfl⟩
    · cases wrong
    · have nothing : (capServer today limit).start.inFlight tenantId = 0 := rfl
      rw [nothing]
      exact room
  have capped := System.exec_keeps (CapServer.Capped tenantId limit k m)
    (fun state event next capped within taken => capped.step positive within taken) ran within start
  exact capped.everyDay day

end Bound

/-- Two queries are checked on one day and charged on the next. -/
def acrossMidnight : List CapEvent :=
  let query := { chatRequest "refund" with sessionId := none }
  let retrieved : Exchange AnswerReply := ⟨.retrieve ⟨"t", "u", []⟩ "refund", .ok [refundNote]⟩
  let left : Exchange AnswerReply := ⟨.remaining "t", some (4 : Int)⟩
  let completed : Exchange AnswerReply := ⟨.complete false "refund" ["text"] [],
    .ok { text := "text [1]", model := "m", promptTokens := 3 }⟩
  let charged : Exchange AnswerReply := ⟨.spend "t" 3, ()⟩
  [.start query false, .start query false, .told 0 retrieved, .told 1 retrieved, .told 0 left,
    .told 1 left, .midnight "2026-01-02", .told 0 completed, .told 0 charged, .told 1 completed,
    .told 1 charged]

theorem acrossMidnight_capped : ∃ final,
    (capServer "2026-01-01" 4).exec (capServer "2026-01-01" 4).start acrossMidnight = some final ∧
      final.budget.used ("t", "2026-01-02") ≤ 4 - 1 + 2 * 3 := by
  have runs : ((capServer "2026-01-01" 4).exec (capServer "2026-01-01" 4).start
      acrossMidnight).isSome = true := by
    decide +kernel
  obtain ⟨final, ran⟩ := Option.isSome_iff_exists.mp runs
  have within : (capServer "2026-01-01" 4).Meets (Within "t" 2 3) (capServer "2026-01-01" 4).start
      acrossMidnight := by
    decide +kernel
  exact ⟨final, ran, daily_cap_overshoot (by decide) ran within "2026-01-02"⟩

end ProductionRag
