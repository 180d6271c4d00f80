import ProductionRag.Gateway.Complete

/-!
# Calls that share breakers

Any number of `complete` calls run at once, on gateways whose breakers may be the same.  A
method of a breaker runs under its lock, so a step resumes one call with one answer.  Whoever is
let through a breaker makes a record call later, on every way out.
-/

set_option autoImplicit false

namespace ProductionRag

open Basis

/-- Gateways and the breakers they use; the breaker of a provider is found by gateway and
place. -/
structure Fleet where
  gateways : Nat → GatewayProvider
  breakerOf : (gateway provider : Nat) → Nat
  failureThreshold : Nat → Int := fun _ => 5
  resetAfter : Nat → ℚ := fun _ => 30

/-- A `complete` call and what is left of it. -/
structure CompleteCall where
  gateway : Nat
  rest : GatewayDialogue (Except PyError Generation)

def CompleteCall.inProgress (call : CompleteCall) : Bool :=
  match call.rest with
  | .done _ => false
  | .ask .. => true

inductive FleetEvent where
  | start (gateway : Nat) (question : String) (context : List String) (history : List ChatTurn)
  /-- The call is told the answer to its question; a breaker reads the time. -/
  | told (call : Nat) (now : ℚ) (exchange : Exchange GatewayAnswer)

structure Pool where
  breakers : Nat → CircuitBreaker
  calls : List CompleteCall

namespace Fleet

/-- The breakers after the exchange, if they answer so. -/
def touch (breakerOf : Nat → Nat) (breakers : Nat → CircuitBreaker) (now : ℚ) :
    Exchange GatewayAnswer → Option (Nat → CircuitBreaker)
  | ⟨.allow provider _, answer⟩ =>
    let allowed := (breakers (breakerOf provider)).allow now
    if answer = allowed.1 then some (Function.update breakers (breakerOf provider) allowed.2)
    else none
  | ⟨.state provider, answer⟩ =>
    if answer = (breakers (breakerOf provider)).state now then some breakers else none
  | ⟨.recordSuccess provider, _⟩ =>
    some (Function.update breakers (breakerOf provider)
      (breakers (breakerOf provider)).recordSuccess)
  | ⟨.recordFailure provider, _⟩ =>
    some (Function.update breakers (breakerOf provider)
      ((breakers (breakerOf provider)).recordFailure now))
  | _ => some breakers

def step (fleet : Fleet) (pool : Pool) : FleetEvent → Option Pool
  | .start gateway question context history =>
    let rest := (fleet.gateways gateway).complete question context history
    some { pool with calls := pool.calls ++ [⟨gateway, rest⟩] }
  | .told place now exchange => do
    let call ← pool.calls[place]?
    let rest ← call.rest.resume exchange
    let breakers ← touch (fleet.breakerOf call.gateway) pool.breakers now exchange
    some { breakers, calls := pool.calls.set place ⟨call.gateway, rest⟩ }

/-- New breakers and no call yet. -/
def system (fleet : Fleet) : System Pool FleetEvent where
  start :=
    { breakers := fun breaker =>
        { failureThreshold := fleet.failureThreshold breaker
          resetAfter := fleet.resetAfter breaker }
      calls := [] }
  step := fleet.step

end Fleet

namespace GatewayProvider

/-! ## Every admission is settled -/

/-- A record call for the provider. -/
def Records (provider : Nat) : Exchange GatewayAnswer → Prop
  | ⟨.recordSuccess recorded, _⟩ => recorded = provider
  | ⟨.recordFailure recorded, _⟩ => recorded = provider
  | _ => False

/-- Some record call for the provider is in the log. -/
def Recorded (log : List (Exchange GatewayAnswer)) (provider : Nat) : Prop :=
  ∃ exchange ∈ log, Records provider exchange

/-- If the exchange lets the call through a breaker, a record call follows. -/
def Admits (later : List (Exchange GatewayAnswer)) : Exchange GatewayAnswer → Prop
  | ⟨.allow provider _, true⟩ => Recorded later provider
  | _ => True

def Settles : List (Exchange GatewayAnswer) → Prop
  | [] => True
  | exchange :: later => Admits later exchange ∧ Settles later

section Settles

variable {gateway : GatewayProvider} {log later : List (Exchange GatewayAnswer)}

theorem Recorded.append_right {provider : Nat} (recorded : Recorded log provider) :
    Recorded (log ++ later) provider := by
  obtain ⟨exchange, member, records⟩ := recorded
  exact ⟨exchange, List.mem_append_left _ member, records⟩

theorem Recorded.append_left {provider : Nat} (recorded : Recorded later provider) :
    Recorded (log ++ later) provider := by
  obtain ⟨exchange, member, records⟩ := recorded
  exact ⟨exchange, List.mem_append_right _ member, records⟩

theorem Admits.append {exchange : Exchange GatewayAnswer} (admits : Admits log exchange) :
    Admits (log ++ later) exchange := by
  obtain ⟨question, answer⟩ := exchange
  cases question with
  | allow provider attempt =>
      cases answer with
      | false => trivial
      | true => exact Recorded.append_right admits
  | _ => trivial

theorem Settles.append (first : Settles log) (second : Settles later) :
    Settles (log ++ later) := by
  induction log with
  | nil => exact second
  | cons exchange log ih => exact ⟨first.1.append, ih first.2⟩

/-- Questions that let nobody in. -/
theorem settles_idle (idle : ∀ exchange ∈ log, Idle exchange) : Settles log := by
  induction log with
  | nil => trivial
  | cons exchange log ih =>
      obtain ⟨first, others⟩ := List.forall_mem_cons.mp idle
      refine ⟨?_, ih others⟩
      obtain ⟨question, answer⟩ := exchange
      cases question with
      | allow => exact first.elim
      | _ => trivial

/-- A failed call is recorded. -/
theorem failed_settles {provider attempt : Nat} {question : String} {context : List String}
    {history : List ChatTurn} {exc : Raised} {waits : List (Exchange GatewayAnswer)}
    (settles : Settles waits) :
    Recorded (failed provider attempt question context history exc waits) provider ∧
      Settles (failed provider attempt question context history exc waits) :=
  ⟨⟨⟨.recordFailure provider, ()⟩, List.mem_cons_of_mem _ List.mem_cons_self, rfl⟩,
    trivial, trivial, settles⟩

/-- With a call left to make, `_attempt` records its result, and so whatever its retries were
let through for. -/
theorem attemptFrom_settles {provider remaining attempt : Nat} {name question : String}
    {context : List String} {history : List ChatTurn} {deadline : ℚ} {failure : Option String}
    {result : Except PyError Attempted} (counted : attempt + remaining = gateway.maxAttempts + 1)
    (trace : (gateway.attemptFrom provider name question context history deadline remaining
      attempt failure).Trace log result) :
    (remaining ≠ 0 → Recorded log provider) ∧ Settles log := by
  induction remaining generalizing attempt failure log result with
  | zero =>
      obtain ⟨rfl, _⟩ := Dialogue.trace_done.mp trace
      exact ⟨fun wrong => absurd rfl wrong, trivial⟩
  | succ remaining ih =>
      have calls : Recorded log provider ∧ Settles log := by
        cases attemptFrom_round trace with
        | answered generation =>
            exact ⟨⟨⟨.recordSuccess provider, ()⟩, by simp, rfl⟩, trivial, trivial, trivial⟩
        | gaveUp exc failure last => exact failed_settles trivial
        | malformed exc e retryable early bad => exact failed_settles trivial
        | late exc failure waits delay now pause tooLate =>
            exact failed_settles (settles_idle pause.idle)
        | refused exc failure waits delay now pause inTime =>
            exact failed_settles ((settles_idle pause.idle).append ⟨trivial, trivial⟩)
        | again exc failure waits delay now pause inTime rest result again =>
            -- It was not the last call, so the next one records.
            have notLast := pause.early
            obtain ⟨recorded, settles⟩ := ih (by omega) again
            have later : Recorded ([⟨.sleep delay, ()⟩] ++ rest) provider :=
              (recorded (by omega)).append_left
            exact failed_settles ((settles_idle pause.idle).append ⟨later, trivial, settles⟩)
      exact ⟨fun _ => calls.1, calls.2⟩

theorem completeFrom_settles {question : String} {context : List String}
    {history : List ChatTurn} {deadline : ℚ} {names notes : List String} {provider : Nat}
    {result : Except PyError Generation} (tries : 1 ≤ gateway.maxAttempts)
    (trace : (gateway.completeFrom question context history deadline names provider notes).Trace
      log result) :
    Settles log := by
  induction names generalizing provider notes log with
  | nil =>
      obtain ⟨rfl, _⟩ := Dialogue.trace_done.mp trace
      trivial
  | cons name rest ih =>
      obtain ⟨allowed, later, rfl, admitted⟩ := Dialogue.trace_ask.mp trace
      clear trace
      cases allowed with
      | false =>
          obtain ⟨state, after, rfl, skipped⟩ := Dialogue.trace_ask.mp admitted
          exact ⟨trivial, trivial, ih skipped⟩
      | true =>
          obtain ⟨calls, attempted, after, rfl, tried, settled⟩ := Dialogue.trace_bind.mp admitted
          obtain ⟨recorded, settles⟩ := attemptFrom_settles (Nat.add_comm 1 _) tried
          refine ⟨(recorded (Nat.ne_of_gt tries)).append_right, settles.append ?_⟩
          cases attempted with
          | error e =>
              obtain ⟨rfl, _⟩ := Dialogue.trace_done.mp settled
              trivial
          | ok attempted =>
              obtain ⟨_ | generation, failure⟩ := attempted
              · exact ih settled
              · obtain ⟨rfl, _⟩ := Dialogue.trace_done.mp settled
                trivial

theorem complete_settles {question : String} {context : List String} {history : List ChatTurn}
    {result : Except PyError Generation} (tries : 1 ≤ gateway.maxAttempts)
    (trace : (gateway.complete question context history).Trace log result) : Settles log := by
  obtain ⟨now, rest, rfl, started⟩ := Dialogue.trace_ask.mp trace
  exact ⟨trivial, completeFrom_settles tries started⟩

end Settles

end GatewayProvider

/-! ## A breaker under test has someone who owes the result -/

namespace CompleteCall

open GatewayProvider

/-- The call records a result for the provider on every way out. -/
def Owes (call : CompleteCall) (provider : Nat) : Prop :=
  ∀ log result, call.rest.Trace log result → Recorded log provider

/-- So it does for every provider it will be let through to. -/
def Settled (call : CompleteCall) : Prop :=
  ∀ log result, call.rest.Trace log result → Settles log

variable {call next : CompleteCall} {exchange : Exchange GatewayAnswer}

theorem Owes.inProgress {provider : Nat} (owes : call.Owes provider) :
    call.inProgress = true := by
  obtain ⟨gateway, rest⟩ := call
  cases rest with
  | ask question next => rfl
  | done result =>
      obtain ⟨exchange, member, _⟩ := owes [] result (.done result)
      cases member

theorem trace_of_resume (told : call.rest.resume exchange = some next.rest)
    {log : List (Exchange GatewayAnswer)} {result : Except PyError Generation}
    (trace : next.rest.Trace log result) : call.rest.Trace (exchange :: log) result := by
  obtain ⟨follow, asked, same⟩ := Dialogue.resume_iff.mp told
  rw [asked]
  rw [same] at trace
  exact .ask trace

theorem Settled.resume (settled : call.Settled)
    (told : call.rest.resume exchange = some next.rest) : next.Settled :=
  fun _ result trace => (settled _ result (trace_of_resume told trace)).2

/-- A debt stays until it is paid. -/
theorem Owes.resume {provider : Nat} (owes : call.Owes provider)
    (told : call.rest.resume exchange = some next.rest) (unpaid : ¬ Records provider exchange) :
    next.Owes provider := by
  intro log result trace
  obtain ⟨paying, member, records⟩ := owes _ result (trace_of_resume told trace)
  rcases List.mem_cons.mp member with rfl | inLog
  · exact absurd records unpaid
  · exact ⟨paying, inLog, records⟩

theorem Settled.owes {provider attempt : Nat} (settled : call.Settled)
    (told : call.rest.resume ⟨.allow provider attempt, true⟩ = some next.rest) :
    next.Owes provider :=
  fun _ result trace => (settled _ result (trace_of_resume told trace)).1

end CompleteCall

namespace Fleet

open GatewayProvider

section Pool

variable {fleet : Fleet} {pool next : Pool}

/-- Some call will record a result on the breaker. -/
def OwedBy (fleet : Fleet) (calls : List CompleteCall) (breaker : Nat) : Prop :=
  ∃ call ∈ calls, ∃ provider, fleet.breakerOf call.gateway provider = breaker ∧
    call.Owes provider

structure Sound (fleet : Fleet) (pool : Pool) : Prop where
  settled : ∀ call ∈ pool.calls, call.Settled
  owed : ∀ breaker, (pool.breakers breaker).trialInFlight = true →
    fleet.OwedBy pool.calls breaker

/-- A record call takes its breaker off the test, and leaves the others. -/
theorem trial_before {breakers : Nat → CircuitBreaker} {recorded breaker : Nat}
    {after : CircuitBreaker} (cleared : after.trialInFlight = false)
    (trial : (Function.update breakers recorded after breaker).trialInFlight = true) :
    (breakers breaker).trialInFlight = true ∧ recorded ≠ breaker := by
  by_cases own : recorded = breaker
  · subst own
    rw [Function.update_self, cleared] at trial
    cases trial
  · rw [Function.update_of_ne (Ne.symm own)] at trial
    exact ⟨trial, own⟩

/-- A breaker left under test was just put there, or it was before and nobody recorded. -/
theorem touch_trial {breakerOf : Nat → Nat} {breakers after : Nat → CircuitBreaker} {now : ℚ}
    {exchange : Exchange GatewayAnswer}
    (touched : touch breakerOf breakers now exchange = some after) {breaker : Nat}
    (trial : (after breaker).trialInFlight = true) :
    (∃ provider attempt, exchange = ⟨.allow provider attempt, true⟩ ∧
        breakerOf provider = breaker) ∨
      (breakers breaker).trialInFlight = true ∧
        ∀ provider, breakerOf provider = breaker → ¬ Records provider exchange := by
  obtain ⟨question, answer⟩ := exchange
  cases question with
  | allow provider attempt =>
      obtain ⟨rfl, told⟩ := Option.ite_none_right_eq_some.mp touched
      obtain rfl := Option.some.inj told
      by_cases own : breakerOf provider = breaker
      · subst own
        rw [Function.update_self] at trial
        rcases (breakers (breakerOf provider)).allow_cases now with denied | ⟨_, granted⟩ |
          ⟨_, _, granted⟩
        · rw [denied] at trial
          exact .inr ⟨trial, fun _ _ => id⟩
        · exact .inl ⟨provider, attempt, by rw [granted], rfl⟩
        · exact .inl ⟨provider, attempt, by rw [granted], rfl⟩
      · rw [Function.update_of_ne (Ne.symm own)] at trial
        exact .inr ⟨trial, fun _ _ => id⟩
  | state provider =>
      obtain ⟨_, told⟩ := Option.ite_none_right_eq_some.mp touched
      obtain rfl := Option.some.inj told
      exact .inr ⟨trial, fun _ _ => id⟩
  | recordSuccess provider =>
      obtain rfl := Option.some.inj touched
      obtain ⟨before, elsewhere⟩ := trial_before rfl trial
      refine .inr ⟨before, ?_⟩
      rintro other same rfl
      exact elsewhere same
  | recordFailure provider =>
      obtain rfl := Option.some.inj touched
      obtain ⟨before, elsewhere⟩ := trial_before rfl trial
      refine .inr ⟨before, ?_⟩
      rintro other same rfl
      exact elsewhere same
  | _ =>
      obtain rfl := Option.some.inj touched
      exact .inr ⟨trial, fun _ _ => id⟩

/-- Everything a step can do. -/
inductive Move (fleet : Fleet) (pool : Pool) : FleetEvent → Pool → Prop
  | start (gateway : Nat) (question : String) (context : List String) (history : List ChatTurn) :
      Move fleet pool (.start gateway question context history)
        { pool with calls := pool.calls ++
          [⟨gateway, (fleet.gateways gateway).complete question context history⟩] }
  | told (place : Nat) (now : ℚ) (exchange : Exchange GatewayAnswer) (call after : CompleteCall)
      (breakers : Nat → CircuitBreaker) (found : pool.calls[place]? = some call)
      (same : after.gateway = call.gateway)
      (resumed : call.rest.resume exchange = some after.rest)
      (touched : touch (fleet.breakerOf call.gateway) pool.breakers now exchange = some breakers) :
      Move fleet pool (.told place now exchange)
        { breakers, calls := pool.calls.set place after }

theorem step_move {event : FleetEvent} (taken : fleet.step pool event = some next) :
    fleet.Move pool event next := by
  cases event with
  | start gateway question context history =>
      obtain rfl := Option.some.inj taken
      exact .start gateway question context history
  | told place now exchange =>
      obtain ⟨call, found, taken⟩ := Option.bind_eq_some_iff.mp taken
      obtain ⟨rest, resumed, taken⟩ := Option.bind_eq_some_iff.mp taken
      obtain ⟨breakers, touched, taken⟩ := Option.bind_eq_some_iff.mp taken
      obtain rfl := Option.some.inj taken
      exact .told place now exchange call ⟨call.gateway, rest⟩ breakers found rfl resumed touched

theorem Sound.step {event : FleetEvent}
    (tries : ∀ gateway, 1 ≤ (fleet.gateways gateway).maxAttempts)
    (sound : fleet.Sound pool) (taken : fleet.step pool event = some next) :
    fleet.Sound next := by
  cases step_move taken with
  | start gateway question context history =>
      have fresh : CompleteCall.Settled
          ⟨gateway, (fleet.gateways gateway).complete question context history⟩ :=
        fun _ _ trace => complete_settles (tries gateway) trace
      refine ⟨List.forall_mem_append.mpr ⟨sound.settled, List.forall_mem_singleton.mpr fresh⟩, ?_⟩
      intro breaker trial
      obtain ⟨call, member, owed⟩ := sound.owed breaker trial
      exact ⟨call, List.mem_append_left _ member, owed⟩
  | told place now exchange call after breakers found same resumed touched =>
      have inPlace : place < pool.calls.length := (List.getElem?_eq_some_iff.mp found).1
      have isAfter : after ∈ pool.calls.set place after := List.mem_set inPlace after
      have settled : call.Settled := sound.settled call (List.mem_of_getElem? found)
      refine ⟨?_, ?_⟩
      · intro other member
        rcases List.mem_or_eq_of_mem_set member with old | rfl
        · exact sound.settled other old
        · exact settled.resume resumed
      · intro breaker trial
        rcases touch_trial touched trial with ⟨provider, attempt, rfl, own⟩ | ⟨trial, unpaid⟩
        · exact ⟨after, isAfter, provider, by rw [same, own], settled.owes resumed⟩
        · obtain ⟨debtor, member, provider, own, owes⟩ := sound.owed breaker trial
          obtain ⟨seat, seated⟩ := List.mem_iff_getElem?.mp member
          by_cases moved : seat = place
          · subst moved
            rw [found] at seated
            obtain rfl := Option.some.inj seated
            exact ⟨after, isAfter, provider, by rw [same, own],
              owes.resume resumed (unpaid provider own)⟩
          · have stays : (pool.calls.set place after)[seat]? = some debtor := by
              rw [List.getElem?_set_ne (Ne.symm moved), seated]
            exact ⟨debtor, List.mem_of_getElem? stays, provider, own, owes⟩

/-- When no call is in progress no breaker is under test, and each lets the next request in
once its time is over. -/
theorem quiet_admits (fleet : Fleet) (tries : ∀ gateway, 1 ≤ (fleet.gateways gateway).maxAttempts)
    (events : List FleetEvent) (pool : Pool)
    (ran : fleet.system.exec fleet.system.start events = some pool)
    (quiet : ∀ call ∈ pool.calls, call.inProgress = false) (breaker : Nat) :
    (pool.breakers breaker).trialInFlight = false ∧
      ∀ now, (∀ openedAt, (pool.breakers breaker).openedAt = some openedAt →
        openedAt + (pool.breakers breaker).resetAfter ≤ now) →
        ((pool.breakers breaker).allow now).1 = true := by
  have sound : fleet.Sound pool := by
    refine System.exec_preserves fleet.Sound
      (fun _ _ _ sound taken => sound.step tries taken) ran ?_
    refine ⟨List.forall_mem_nil _, ?_⟩
    intro breaker trial
    cases trial
  have untested : (pool.breakers breaker).trialInFlight = false := by
    rw [Bool.eq_false_iff]
    intro trial
    obtain ⟨call, member, provider, _, owes⟩ := sound.owed breaker trial
    have working := owes.inProgress
    rw [quiet call member] at working
    cases working
  refine ⟨untested, ?_⟩
  intro now waited
  cases opened : (pool.breakers breaker).openedAt with
  | none => simp only [CircuitBreaker.allow, CircuitBreaker.state_closed now opened]
  | some openedAt =>
      have cooled : (pool.breakers breaker).resetAfter ≤ now - openedAt := by
        have late := waited openedAt opened
        linarith
      simp [CircuitBreaker.allow, CircuitBreaker.state_halfOpen opened cooled, untested]

end Pool

/-- Two gateways share the breaker of their only provider, which opens at the first failure. -/
def twoGateways : Fleet where
  gateways _ := { providers := ["model"], maxAttempts := 1 }
  breakerOf _ _ := 0
  failureThreshold _ := 1

/-- The first call opens the breaker; the second tests it and the third is refused meanwhile. -/
def probeAndRefusal : List FleetEvent :=
  [.start 0 "q" [] [], .told 0 0 ⟨.clock, 0⟩, .told 0 0 ⟨.allow 0 0, true⟩,
    .told 0 0 ⟨.call 0 1 "q" [] [], .error { isTimeout := true }⟩,
    .told 0 1 ⟨.recordFailure 0, ()⟩, .start 1 "q" [] [], .start 0 "q" [] [],
    .told 1 31 ⟨.clock, 31⟩, .told 2 31 ⟨.clock, 31⟩, .told 1 31 ⟨.allow 0 0, true⟩,
    .told 2 31 ⟨.allow 0 0, false⟩, .told 2 32 ⟨.state 0, .halfOpen⟩,
    .told 1 33 ⟨.call 0 1 "q" [] [], .ok { text := "an answer", model := "model" }⟩,
    .told 1 33 ⟨.recordSuccess 0, ()⟩]

theorem probe_over :
    ∃ pool, twoGateways.system.exec twoGateways.system.start probeAndRefusal = some pool ∧
      pool.calls.length = 3 ∧ (pool.breakers 0).trialInFlight = false := by
  have ran : ((twoGateways.system.exec twoGateways.system.start probeAndRefusal).map
      fun pool => (pool.calls.length, pool.calls.all (!·.inProgress))) = some (3, true) := by
    decide +kernel
  obtain ⟨pool, ran, counted⟩ := Option.map_eq_some_iff.mp ran
  obtain ⟨three, ended⟩ := Prod.mk.inj counted
  have quiet : ∀ call ∈ pool.calls, call.inProgress = false := by
    simpa using List.all_eq_true.mp ended
  exact ⟨pool, ran, three, (quiet_admits twoGateways (fun _ => le_refl 1) _ pool ran quiet 0).1⟩

end Fleet

end ProductionRag
