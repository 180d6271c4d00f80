import Mathlib.Logic.Function.Basic
import ProductionRag.Gateway.Configuration

/-!
# Whose failures open a breaker

The breakers of a gateway are kept under the names of its providers.  A session is any
number of `complete` calls, one after the other; every exchange of it has the time it
takes place at.  Providers answer as they like.
-/

set_option autoImplicit false

namespace ProductionRag

open Basis

/-- An exchange and its time. -/
abbrev Stamped := ℚ × Exchange GatewayAnswer

/-- `self.breakers` with the clock they read. -/
structure Breakers where
  now : ℚ
  breaker : String → CircuitBreaker

namespace GatewayProvider

/-- The breakers and the clock take part in an exchange; anything else they let pass. -/
def serve (gateway : GatewayProvider) (state : Breakers) (event : Stamped) : Option Breakers :=
  if event.1 < state.now then none
  else
    let set (name : String) (breaker : CircuitBreaker) : Breakers :=
      { now := event.1, breaker := Function.update state.breaker name breaker }
    match event.2 with
    | ⟨.clock, reading⟩ => if reading = event.1 then some { state with now := event.1 } else none
    | ⟨.allow provider _, answer⟩ =>
      gateway.providers[provider]?.bind fun name =>
        let out := (state.breaker name).allow event.1
        if out.1 = answer then some (set name out.2) else none
    | ⟨.state provider, answer⟩ =>
      gateway.providers[provider]?.bind fun name =>
        if (state.breaker name).state event.1 = answer then some { state with now := event.1 }
        else none
    | ⟨.recordSuccess provider, _⟩ =>
      gateway.providers[provider]?.map fun name => set name (state.breaker name).recordSuccess
    | ⟨.recordFailure provider, _⟩ =>
      gateway.providers[provider]?.map fun name =>
        set name ((state.breaker name).recordFailure event.1)
    | _ => some { state with now := event.1 }

/-- A gateway with breakers of its own. -/
def service (gateway : GatewayProvider) : System Breakers Stamped where
  start := { now := 0, breaker := fun _ => {} }
  step := gateway.serve

/-- Any number of `complete` calls, one after the other. -/
inductive Session (gateway : GatewayProvider) : List Stamped → Prop
  | nil : Session gateway []
  | call {past log : List Stamped} {question : String} {context : List String}
      {history : List ChatTurn} {result : Except PyError Generation}
      (session : Session gateway past)
      (trace : (gateway.complete question context history).Trace (log.map (·.2)) result) :
      Session gateway (past ++ log)

end GatewayProvider

/-- How the calls of one provider ended. -/
def ownCalls (provider : Nat) (log : List (Exchange GatewayAnswer)) : List Bool :=
  log.filterMap fun
    | ⟨.call other _ _ _ _, .ok _⟩ => if other = provider then some true else none
    | ⟨.call other _ _ _ _, .error _⟩ => if other = provider then some false else none
    | _ => none

/-- What was recorded about one provider. -/
def ownRecords (provider : Nat) (log : List (Exchange GatewayAnswer)) : List Bool :=
  log.filterMap fun
    | ⟨.recordSuccess other, _⟩ => if other = provider then some true else none
    | ⟨.recordFailure other, _⟩ => if other = provider then some false else none
    | _ => none

/-- The failures since the last success. -/
def failuresInARow (outcomes : List Bool) : Nat := (outcomes.reverse.takeWhile (!·)).length

@[simp] theorem failuresInARow_success (outcomes : List Bool) :
    failuresInARow (outcomes ++ [true]) = 0 := by
  simp [failuresInARow]

@[simp] theorem failuresInARow_failure (outcomes : List Bool) :
    failuresInARow (outcomes ++ [false]) = failuresInARow outcomes + 1 := by
  simp [failuresInARow]

/-! ## A breaker counts the records of its provider -/

/-- The breaker has counted these outcomes, and is closed below its threshold. -/
structure CircuitBreaker.Counts (breaker : CircuitBreaker) (outcomes : List Bool) : Prop where
  threshold : breaker.failureThreshold = 5
  failures : breaker.failures = failuresInARow outcomes
  opened : breaker.openedAt.isSome = true → 5 ≤ breaker.failures

namespace CircuitBreaker.Counts

variable {breaker : CircuitBreaker} {outcomes : List Bool}

theorem start : CircuitBreaker.Counts {} [] where
  threshold := rfl
  failures := rfl
  opened := by simp

theorem allow (counts : breaker.Counts outcomes) (now : ℚ) :
    (breaker.allow now).2.Counts outcomes := by
  rcases breaker.allow_cases now with denied | ⟨_, granted⟩ | ⟨_, _, granted⟩
  · rw [denied]; exact counts
  · rw [granted]; exact counts
  · rw [granted]; exact ⟨counts.threshold, counts.failures, counts.opened⟩

theorem recordSuccess (counts : breaker.Counts outcomes) :
    breaker.recordSuccess.Counts (outcomes ++ [true]) where
  threshold := counts.threshold
  failures := by simp [CircuitBreaker.recordSuccess]
  opened := by simp [CircuitBreaker.recordSuccess]

theorem recordFailure (counts : breaker.Counts outcomes) (now : ℚ) :
    (breaker.recordFailure now).Counts (outcomes ++ [false]) where
  threshold := counts.threshold
  failures := by simp [CircuitBreaker.recordFailure, counts.failures]
  opened := by
    have opened := counts.opened
    have threshold := counts.threshold
    simp only [CircuitBreaker.recordFailure]
    split
    · rename_i opens
      intro _
      rcases opens with already | enough
      · have := opened already
        omega
      · omega
    · intro isOpen
      have := opened isOpen
      omega

theorem denied (counts : breaker.Counts outcomes) {now : ℚ}
    (isDenied : (breaker.allow now).1 = false) : 5 ≤ failuresInARow outcomes := by
  rw [← counts.failures]
  apply counts.opened
  cases isOpen : breaker.openedAt with
  | some _ => rfl
  | none => simp [CircuitBreaker.allow, CircuitBreaker.state_closed now isOpen] at isDenied

end CircuitBreaker.Counts

/-- Every breaker has counted what was recorded about its own provider. -/
def Breakers.Counting (gateway : GatewayProvider) (log : List Stamped) (state : Breakers) : Prop :=
  ∀ provider name, gateway.providers[provider]? = some name →
    (state.breaker name).Counts (ownRecords provider (log.map (·.2)))

theorem ownRecords_snoc (provider : Nat) (past : List Stamped) (event : Stamped) :
    ownRecords provider ((past ++ [event]).map (·.2)) =
      ownRecords provider (past.map (·.2)) ++ ownRecords provider [event.2] := by
  simp only [ownRecords, List.map_append, List.filterMap_append, List.map_cons, List.map_nil]

section Counting

variable {gateway : GatewayProvider} {past : List Stamped} {state : Breakers}

/-- An exchange that records nothing. -/
theorem Breakers.Counting.pass (counting : Breakers.Counting gateway past state) (now : ℚ)
    {event : Stamped} (silent : ∀ provider, ownRecords provider [event.2] = []) :
    Breakers.Counting gateway (past ++ [event]) { state with now } := by
  intro provider name found
  rw [ownRecords_snoc, silent, List.append_nil]
  exact counting provider name found

/-- An exchange about one provider. -/
theorem Breakers.Counting.update (distinct : gateway.providers.Nodup)
    (counting : Breakers.Counting gateway past state) {provider : Nat} {name : String}
    (found : gateway.providers[provider]? = some name) (now : ℚ) {breaker : CircuitBreaker}
    {event : Stamped}
    (own : breaker.Counts
      (ownRecords provider (past.map (·.2)) ++ ownRecords provider [event.2]))
    (silent : ∀ other, provider ≠ other → ownRecords other [event.2] = []) :
    Breakers.Counting gateway (past ++ [event])
      { now, breaker := Function.update state.breaker name breaker } := by
  intro other otherName otherFound
  rw [ownRecords_snoc]
  dsimp only
  by_cases isOwn : provider = other
  · subst isOwn
    obtain rfl := Option.some.inj (found.symm.trans otherFound)
    rw [Function.update_self]
    exact own
  · -- Distinct names, so another breaker.
    have different : otherName ≠ name := by
      rintro rfl
      obtain ⟨small, _⟩ := List.getElem?_eq_some_iff.mp found
      exact isOwn ((List.getElem?_inj small distinct).mp (found.trans otherFound.symm))
    rw [Function.update_of_ne different, silent other isOwn, List.append_nil]
    exact counting other otherName otherFound

theorem Breakers.Counting.step (distinct : gateway.providers.Nodup)
    (counting : Breakers.Counting gateway past state) {event : Stamped} {next : Breakers}
    (served : gateway.serve state event = some next) :
    Breakers.Counting gateway (past ++ [event]) next := by
  obtain ⟨now, question, answer⟩ := event
  simp only [GatewayProvider.serve] at served
  split at served
  · cases served
  · cases question with
    | clock =>
        obtain ⟨_, same⟩ := Option.ite_none_right_eq_some.mp served
        obtain rfl := Option.some.inj same
        exact counting.pass now fun _ => rfl
    | allow provider attempt =>
        obtain ⟨name, found, granted⟩ := Option.bind_eq_some_iff.mp served
        obtain ⟨_, same⟩ := Option.ite_none_right_eq_some.mp granted
        obtain rfl := Option.some.inj same
        refine counting.update distinct found now ?_ fun _ _ => rfl
        exact (List.append_nil _).symm ▸ (counting provider name found).allow now
    | state provider =>
        obtain ⟨name, found, read⟩ := Option.bind_eq_some_iff.mp served
        obtain ⟨_, same⟩ := Option.ite_none_right_eq_some.mp read
        obtain rfl := Option.some.inj same
        exact counting.pass now fun _ => rfl
    | recordSuccess provider =>
        obtain ⟨name, found, rfl⟩ := Option.map_eq_some_iff.mp served
        refine counting.update distinct found now ?_ fun other different => ?_
        · simpa [ownRecords] using (counting provider name found).recordSuccess
        · simp [ownRecords, different]
    | recordFailure provider =>
        obtain ⟨name, found, rfl⟩ := Option.map_eq_some_iff.mp served
        refine counting.update distinct found now ?_ fun other different => ?_
        · simpa [ownRecords] using (counting provider name found).recordFailure now
        · simp [ownRecords, different]
    | call provider attempt question context history =>
        obtain rfl := Option.some.inj served
        exact counting.pass now fun _ => rfl
    | uniform high =>
        obtain rfl := Option.some.inj served
        exact counting.pass now fun _ => rfl
    | sleep delay =>
        obtain rfl := Option.some.inj served
        exact counting.pass now fun _ => rfl

theorem counting_of_exec (distinct : gateway.providers.Nodup) {log : List Stamped}
    (ran : gateway.service.exec gateway.service.start log = some state) :
    Breakers.Counting gateway log state :=
  System.exec_history (Breakers.Counting gateway) (fun _ _ _ => .start)
    (fun _ _ _ _ counting served => counting.step distinct served) ran

/-- A breaker that turns a request down has counted five failures in a row. -/
theorem denied_of_serve {gateway : GatewayProvider} {past : List Stamped} {state next : Breakers}
    (counting : Breakers.Counting gateway past state) {now : ℚ} {provider attempt : Nat}
    (served : gateway.serve state (now, ⟨.allow provider attempt, false⟩) = some next) :
    5 ≤ failuresInARow (ownRecords provider (past.map (·.2))) := by
  simp only [GatewayProvider.serve] at served
  split at served
  · cases served
  · obtain ⟨name, found, granted⟩ := Option.bind_eq_some_iff.mp served
    obtain ⟨isDenied, _⟩ := Option.ite_none_right_eq_some.mp granted
    exact (counting provider name found).denied isDenied

end Counting

/-! ## Every call is recorded at once -/

/-- Each call is followed by the record of its outcome, and nothing else is recorded. -/
inductive Balanced : List (Exchange GatewayAnswer) → Prop
  | nil : Balanced []
  | succeeded {provider attempt : Nat} {question : String} {context : List String}
      {history : List ChatTurn} (generation : Generation)
      {rest : List (Exchange GatewayAnswer)} (balanced : Balanced rest) :
      Balanced (⟨.call provider attempt question context history, .ok generation⟩ ::
        ⟨.recordSuccess provider, ()⟩ :: rest)
  | failed {provider attempt : Nat} {question : String} {context : List String}
      {history : List ChatTurn} (exc : Raised) {rest : List (Exchange GatewayAnswer)}
      (balanced : Balanced rest) :
      Balanced (GatewayProvider.failed provider attempt question context history exc rest)
  | idle {exchange : Exchange GatewayAnswer} (idle : GatewayProvider.Idle exchange)
      {rest : List (Exchange GatewayAnswer)} (balanced : Balanced rest) :
      Balanced (exchange :: rest)
  | allow {provider attempt : Nat} {answer : Bool} {rest : List (Exchange GatewayAnswer)}
      (balanced : Balanced rest) : Balanced (⟨.allow provider attempt, answer⟩ :: rest)
  | state {provider : Nat} {answer : BreakerState} {rest : List (Exchange GatewayAnswer)}
      (balanced : Balanced rest) : Balanced (⟨.state provider, answer⟩ :: rest)

namespace Balanced

theorem append {first second : List (Exchange GatewayAnswer)} (left : Balanced first)
    (right : Balanced second) : Balanced (first ++ second) := by
  induction left with
  | nil => exact right
  | succeeded generation _ ih => exact .succeeded generation ih
  | failed exc _ ih => exact .failed exc ih
  | idle idle _ ih => exact .idle idle ih
  | allow _ ih => exact .allow ih
  | state _ ih => exact .state ih

theorem of_idle {waits : List (Exchange GatewayAnswer)}
    (idle : ∀ exchange ∈ waits, GatewayProvider.Idle exchange) : Balanced waits := by
  induction waits with
  | nil => exact .nil
  | cons exchange rest ih =>
      obtain ⟨first, others⟩ := List.forall_mem_cons.mp idle
      exact .idle first (ih others)

/-- A balanced log is balanced up to each question for leave. -/
theorem before {past future : List (Exchange GatewayAnswer)} {provider attempt : Nat}
    {answer : Bool}
    (balanced : Balanced (past ++ ⟨.allow provider attempt, answer⟩ :: future)) :
    Balanced past := by
  generalize whole : past ++ ⟨.allow provider attempt, answer⟩ :: future = log at balanced
  induction balanced generalizing past with
  | nil => simp at whole
  | succeeded generation _ ih =>
      rcases past with _ | ⟨_, _ | ⟨_, past⟩⟩
      · cases whole
      · cases whole
      · obtain ⟨rfl, rfl, later⟩ : _ ∧ _ ∧ _ := by simpa using whole
        exact .succeeded generation (ih later)
  | failed exc _ ih =>
      rcases past with _ | ⟨_, _ | ⟨_, past⟩⟩
      · cases whole
      · cases whole
      · obtain ⟨rfl, rfl, later⟩ : _ ∧ _ ∧ _ := by
          simpa [GatewayProvider.failed] using whole
        exact .failed exc (ih later)
  | idle idle _ ih =>
      rcases past with _ | ⟨_, past⟩
      · exact .nil
      · obtain ⟨rfl, later⟩ : _ ∧ _ := by simpa using whole
        exact .idle idle (ih later)
  | allow _ ih =>
      rcases past with _ | ⟨_, past⟩
      · exact .nil
      · obtain ⟨rfl, later⟩ : _ ∧ _ := by simpa using whole
        exact .allow (ih later)
  | state _ ih =>
      rcases past with _ | ⟨_, past⟩
      · cases whole
      · obtain ⟨rfl, later⟩ : _ ∧ _ := by simpa using whole
        exact .state (ih later)

theorem ownCalls_eq {log : List (Exchange GatewayAnswer)} (balanced : Balanced log)
    (provider : Nat) : ownCalls provider log = ownRecords provider log := by
  induction balanced with
  | nil => rfl
  | @succeeded other _ _ _ _ _ _ _ ih =>
      simp only [ownCalls, ownRecords, List.filterMap_cons] at ih ⊢
      split <;> simp [ih]
  | @failed other _ _ _ _ _ _ _ ih =>
      simp only [ownCalls, ownRecords, GatewayProvider.failed, List.filterMap_cons] at ih ⊢
      split <;> simp [ih]
  | @idle exchange idle rest _ ih =>
      obtain ⟨question, answer⟩ := exchange
      cases question with
      | clock => exact ih
      | uniform high => exact ih
      | sleep delay => exact ih
      | _ => exact idle.elim
  | allow _ ih => exact ih
  | state _ ih => exact ih

end Balanced

namespace GatewayProvider

theorem attemptFrom_balanced {gateway : GatewayProvider} {provider : Nat}
    {name question : String} {context : List String} {history : List ChatTurn} {deadline : ℚ}
    {remaining attempt : Nat} {failure : Option String} {log : List (Exchange GatewayAnswer)}
    {result : Except PyError Attempted}
    (trace : (gateway.attemptFrom provider name question context history deadline remaining
      attempt failure).Trace log result) : Balanced log := by
  induction remaining generalizing attempt failure log with
  | zero =>
      obtain ⟨rfl, _⟩ := Dialogue.trace_done.mp trace
      exact .nil
  | succ remaining ih =>
      cases attemptFrom_round trace with
      | answered generation => exact .succeeded generation .nil
      | gaveUp exc => exact .failed exc .nil
      | malformed exc => exact .failed exc .nil
      | late exc _ waits _ _ pause => exact .failed exc (.of_idle pause.idle)
      | refused exc _ waits _ _ pause =>
          exact .failed exc ((Balanced.of_idle pause.idle).append (.allow .nil))
      | again exc _ waits delay _ pause _ rest _ again =>
          refine .failed exc ((Balanced.of_idle pause.idle).append (.allow (.idle ?_ (ih again))))
          trivial

theorem completeFrom_balanced {gateway : GatewayProvider} {question : String}
    {context : List String} {history : List ChatTurn} {deadline : ℚ} {names notes : List String}
    {provider : Nat} {log : List (Exchange GatewayAnswer)} {result : Except PyError Generation}
    (trace : (gateway.completeFrom question context history deadline names provider notes).Trace
      log result) : Balanced log := by
  induction names generalizing provider notes log with
  | nil =>
      obtain ⟨rfl, _⟩ := Dialogue.trace_done.mp trace
      exact .nil
  | cons name rest ih =>
      obtain ⟨allowed, later, rfl, admitted⟩ := Dialogue.trace_ask.mp trace
      clear trace
      cases allowed with
      | false =>
          obtain ⟨state, after, rfl, skipped⟩ := Dialogue.trace_ask.mp admitted
          exact .allow (.state (ih skipped))
      | true =>
          obtain ⟨calls, attempted, after, rfl, tried, settled⟩ := Dialogue.trace_bind.mp admitted
          refine .allow ((attemptFrom_balanced tried).append ?_)
          match attempted with
          | .error e =>
              obtain ⟨rfl, _⟩ := Dialogue.trace_done.mp settled
              exact .nil
          | .ok (some generation, _) =>
              obtain ⟨rfl, _⟩ := Dialogue.trace_done.mp settled
              exact .nil
          | .ok (none, failure) => exact ih settled

theorem Session.balanced {gateway : GatewayProvider} {log : List Stamped}
    (session : gateway.Session log) : Balanced (log.map (·.2)) := by
  induction session with
  | nil => exact .nil
  | call _ trace ih =>
      obtain ⟨now, rest, same, started⟩ := Dialogue.trace_ask.mp trace
      rw [List.map_append, same]
      exact ih.append (.idle (show Idle ⟨.clock, now⟩ from trivial)
        (completeFrom_balanced started))

/-! ## Skipped for its own failures -/

/-- Whenever `complete` skips a provider, the provider's own last five calls failed. -/
def SkipsForOwnFailures (gateway : GatewayProvider) : Prop :=
  ∀ (log past future : List Stamped) (state : Breakers) (now : ℚ) (provider : Nat),
    gateway.Session log → gateway.service.exec gateway.service.start log = some state →
    log = past ++ (now, ⟨.allow provider 0, false⟩) :: future →
    5 ≤ failuresInARow (ownCalls provider (past.map (·.2)))

theorem skips_of_distinct {gateway : GatewayProvider} (distinct : gateway.providers.Nodup) :
    gateway.SkipsForOwnFailures := by
  intro log past future state now provider session ran split
  subst split
  obtain ⟨middle, before, later⟩ := System.exec_append.mp ran
  obtain ⟨next, served, _⟩ := System.exec_cons.mp later
  have balanced := session.balanced
  rw [List.map_append, List.map_cons] at balanced
  rw [balanced.before.ownCalls_eq]
  exact denied_of_serve (counting_of_exec distinct before) served

def clientError : Raised := { http := some { code := 400, retryAfter := none } }

/-- The provider is asked once and answers with a client error. -/
def turnedAway (provider : Nat) : List Stamped :=
  ((⟨.allow provider 0, true⟩ : Exchange GatewayAnswer) ::
    failed provider 1 "" [] [] clientError []).map fun exchange => (0, exchange)

/-- Both providers answer with a client error. -/
def bothTurnedAway : List Stamped := (0, ⟨.clock, 0⟩) :: turnedAway 0 ++ turnedAway 1

/-- The first provider fails again, and the second is skipped. -/
def secondSkipped : List Stamped :=
  (0, ⟨.clock, 0⟩) :: turnedAway 0 ++ [(0, ⟨.allow 1 0, false⟩), (0, ⟨.state 1, .opened⟩)]

theorem turnedAway_traces {gateway : GatewayProvider} {name : String}
    (two : gateway.providers = [name, name]) (attempts : gateway.maxAttempts = 3) :
    (∃ result, (gateway.complete "" [] []).Trace (bothTurnedAway.map (·.2)) result) ∧
      ∃ result, (gateway.complete "" [] []).Trace (secondSkipped.map (·.2)) result := by
  obtain ⟨providers, budget, pricing, maxAttempts, baseDelay, maxDelay, deadline⟩ := gateway
  subst two attempts
  exact ⟨⟨_, .ask (.ask (.ask (.ask (.ask (.ask (.ask (.done _)))))))⟩,
    ⟨_, .ask (.ask (.ask (.ask (.ask (.ask (.done _))))))⟩⟩

theorem sameName_session {gateway : GatewayProvider} {name : String}
    (two : gateway.providers = [name, name]) (attempts : gateway.maxAttempts = 3) :
    gateway.Session (bothTurnedAway ++ bothTurnedAway ++ secondSkipped) := by
  obtain ⟨⟨_, both⟩, ⟨_, skipped⟩⟩ := turnedAway_traces two attempts
  have first := Session.call .nil both
  rw [List.nil_append] at first
  exact (first.call both).call skipped

/-- The one breaker of both names after this many failures. -/
def failedTimes (name : String) (failures : Nat) : Breakers where
  now := 0
  breaker := Function.update (fun _ => {}) name { failures }

theorem exec_turnedAway {gateway : GatewayProvider} {name : String} {provider failures : Nat}
    (found : gateway.providers[provider]? = some name) (few : failures < 4) :
    gateway.service.exec (failedTimes name failures) (turnedAway provider) =
      some (failedTimes name (failures + 1)) := by
  have below : ¬ (5 : Int) ≤ (failures + 1 : Nat) := by omega
  simp only [Nat.cast_add, Nat.cast_one] at below
  simp [turnedAway, failed, System.exec, service, serve, failedTimes, found,
    CircuitBreaker.allow, CircuitBreaker.state, CircuitBreaker.recordFailure, below]

theorem exec_bothTurnedAway {gateway : GatewayProvider} {name : String} {failures : Nat}
    (two : gateway.providers = [name, name]) (few : failures < 3) :
    gateway.service.exec (failedTimes name failures) bothTurnedAway =
      some (failedTimes name (failures + 2)) := by
  have clock : gateway.service.step (failedTimes name failures) (0, ⟨.clock, 0⟩) =
      some (failedTimes name failures) := by
    simp [service, serve, failedTimes]
  have first := @exec_turnedAway gateway name 0 failures (by rw [two]; rfl) (by omega)
  have second := @exec_turnedAway gateway name 1 (failures + 1) (by rw [two]; rfl) (by omega)
  exact System.exec_cons.mpr ⟨_, clock, System.exec_append.mpr ⟨_, first, second⟩⟩

/-- Its own fifth failure opens the breaker of the first provider, and so that of the
second. -/
theorem exec_secondSkipped {gateway : GatewayProvider} {name : String}
    (two : gateway.providers = [name, name]) :
    ∃ state, gateway.service.exec (failedTimes name 4) secondSkipped = some state := by
  have early : ¬ (30 : ℚ) ≤ 0 := by decide
  simp [secondSkipped, turnedAway, failed, System.exec, service, serve, failedTimes, two,
    CircuitBreaker.allow, CircuitBreaker.state, CircuitBreaker.recordFailure, early]

theorem not_skips_of_sameName {gateway : GatewayProvider} {name : String}
    (two : gateway.providers = [name, name]) (attempts : gateway.maxAttempts = 3) :
    ¬ gateway.SkipsForOwnFailures := by
  intro claimed
  have start : gateway.service.start = failedTimes name 0 := by
    simp [service, failedTimes]
  obtain ⟨state, last⟩ := exec_secondSkipped two
  have ran : gateway.service.exec gateway.service.start
      (bothTurnedAway ++ bothTurnedAway ++ secondSkipped) = some state := by
    have first := @exec_bothTurnedAway gateway name 0 two (by decide)
    have second := @exec_bothTurnedAway gateway name 2 two (by decide)
    rw [start]
    exact System.exec_append.mpr ⟨_, System.exec_append.mpr ⟨_, first, second⟩, last⟩
  -- The second provider has failed twice so far.
  have five := claimed _ (bothTurnedAway ++ bothTurnedAway ++ ((0, ⟨.clock, 0⟩) :: turnedAway 0))
    [(0, ⟨.state 1, .opened⟩)] state 0 1 (sameName_session two attempts) ran rfl
  revert five
  decide

/-- For every configuration that builds a gateway: each provider is skipped only for its own
failures exactly when no two configured models have one name. -/
theorem skips_iff_distinct (numbers : Numbers) (environ : Environ)
    (models : List OpenAICompatibleProvider) (gateway : GatewayProvider)
    (built : configuredProvider numbers environ = .ok (.gateway models gateway)) :
    gateway.SkipsForOwnFailures ↔ (models.map (·.model)).Nodup := by
  obtain ⟨two, names, attempts⟩ := configuredProvider_gateway built
  rw [← names]
  constructor
  · intro skips
    match models with
    | [] => rw [names]; exact .nil
    | [_] => rw [names]; exact List.pairwise_singleton _ _
    | [first, second] =>
        by_contra same
        rw [names] at same
        have equal : first.model = second.model := by simpa using same
        refine @not_skips_of_sameName gateway first.model ?_ attempts skips
        rw [names, List.map_cons, List.map_cons, List.map_nil, equal]
    | _ :: _ :: _ :: _ => simp at two
  · exact skips_of_distinct

/-- Settings written in decimal digits. -/
def decimalNumbers : Numbers where
  float text := (floatOfDigits text).map fun value => (value : ℚ)
  int text := (floatOfDigits text).map fun value => (value : Int)

/-- Two hosts for the two named models. -/
def twoHosts (primary fallback : String) : Environ := fun name =>
  if name = "RAG_MODEL_BASE_URL" then some "http://a"
  else if name = "RAG_MODEL_API_KEY" then some "k"
  else if name = "RAG_MODEL_NAME" then some primary
  else if name = "RAG_FALLBACK_MODEL_BASE_URL" then some "http://b"
  else if name = "RAG_FALLBACK_MODEL_API_KEY" then some "k"
  else if name = "RAG_FALLBACK_MODEL_NAME" then some fallback
  else none

/-- The same model on two hosts: failures of the first host disable the second. -/
theorem shared_name_skips :
    ¬ ∀ (numbers : Numbers) (environ : Environ) (models : List OpenAICompatibleProvider)
      (gateway : GatewayProvider),
      configuredProvider numbers environ = .ok (.gateway models gateway) →
      gateway.SkipsForOwnFailures := by
  intro claimed
  obtain ⟨models, gateway, built, two, attempts⟩ : ∃ models gateway,
      configuredProvider decimalNumbers (twoHosts "m" "m") = .ok (.gateway models gateway) ∧
      gateway.providers = ["m", "m"] ∧ gateway.maxAttempts = 3 := ⟨_, _, rfl, rfl, rfl⟩
  exact not_skips_of_sameName two attempts (claimed _ _ _ _ built)

/-- Two models under two names have breakers of their own. -/
theorem distinct_names_skip :
    ∃ models gateway,
      configuredProvider decimalNumbers (twoHosts "m" "n") = .ok (.gateway models gateway) ∧
      gateway.SkipsForOwnFailures := by
  obtain ⟨models, gateway, built, names⟩ : ∃ models gateway,
      configuredProvider decimalNumbers (twoHosts "m" "n") = .ok (.gateway models gateway) ∧
      models.map (·.model) = ["m", "n"] := ⟨_, _, rfl, rfl⟩
  refine ⟨models, gateway, built,
    (skips_iff_distinct decimalNumbers (twoHosts "m" "n") models gateway built).mpr ?_⟩
  rw [names]
  decide

end GatewayProvider

end ProductionRag
