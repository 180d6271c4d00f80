import ProductionRag.Basis.Dialogue
import ProductionRag.Gateway.Breaker
import ProductionRag.Gateway.Provider

/-!
# The gateway answers a question

`complete` tries each provider in turn, `_attempt` calls one provider with retries.  The
clock, the circuit breakers, the providers and the random jitter are asked; what they
answer is not up to the gateway.
-/

set_option autoImplicit false

namespace ProductionRag

open Basis

/-- What the gateway asks.  A provider is named by its place in the list; `attempt` is the
number of the call, and for `allow` the number of calls made so far. -/
inductive GatewayQuestion where
  | clock
  | allow (provider attempt : Nat)
  | state (provider : Nat)
  | recordSuccess (provider : Nat)
  | recordFailure (provider : Nat)
  | call (provider attempt : Nat) (question : String) (context : List String)
      (history : List ChatTurn)
  | uniform (high : ℚ)
  | sleep (delay : ℚ)
  deriving DecidableEq

@[reducible] def GatewayAnswer : GatewayQuestion → Type
  | .clock => ℚ
  | .allow .. => Bool
  | .state _ => BreakerState
  | .recordSuccess _ => Unit
  | .recordFailure _ => Unit
  | .call .. => Except Raised Generation
  | .uniform _ => ℚ
  -- The delay ends before the deadline, so it is one `time.sleep` takes.
  | .sleep _ => Unit

abbrev GatewayDialogue (α : Type) := Dialogue GatewayQuestion GatewayAnswer α

structure GatewayProvider where
  /-- The names of the providers, in order. -/
  providers : List String
  budget : Budget := {}
  pricing : String → Option Pricing := fun _ => none
  maxAttempts : Nat := 3
  baseDelay : ℚ := 1 / 2
  maxDelay : ℚ := 8
  deadline : ℚ := 45

namespace GatewayProvider

/-- An answer, or why there is none. -/
abbrev Attempted := Option Generation × Option String

/-- `_attempt` from call number `attempt` on, with `remaining` calls left to make. -/
def attemptFrom (gateway : GatewayProvider) (provider : Nat) (name question : String)
    (context : List String) (history : List ChatTurn) (deadline : ℚ) :
    Nat → Nat → Option String → GatewayDialogue (Except PyError Attempted)
  | 0, _, failure => .done (.ok (none, failure))
  | remaining + 1, attempt, _ =>
    .ask (.call provider attempt question context history) fun
    | .ok generation =>
      .ask (.recordSuccess provider) fun _ => .done (.ok (some generation, none))
    | .error exc =>
      .ask (.recordFailure provider) fun _ =>
      let failure := s!"{name}: {describeFailure exc}"
      if !isRetryable exc || attempt == gateway.maxAttempts then .done (.ok (none, failure))
      else
        match retryAfterSeconds exc with
        | .error e => .done (.error e)
        | .ok found =>
          let delay : GatewayDialogue ℚ :=
            match found with
            | some seconds => .done seconds
            | none =>
              .ask (.uniform (min gateway.maxDelay (gateway.baseDelay * 2 ^ attempt))) .done
          delay.bind fun delay =>
          .ask .clock fun now =>
          if deadline ≤ now + delay then .done (.ok (none, failure))
          else
            .ask (.allow provider attempt) fun
            | false => .done (.ok (none, failure))
            | true =>
              .ask (.sleep delay) fun _ =>
              gateway.attemptFrom provider name question context history deadline remaining
                (attempt + 1) failure

/-- Try one provider with retries. -/
def attempt (gateway : GatewayProvider) (provider : Nat) (name question : String)
    (context : List String) (history : List ChatTurn) (deadline : ℚ) :
    GatewayDialogue (Except PyError Attempted) :=
  gateway.attemptFrom provider name question context history deadline gateway.maxAttempts 1 none

def price (gateway : GatewayProvider) (model : String) : Option Pricing :=
  (gateway.pricing model).or (gateway.pricing "*")

/-- `_priced` -/
def priced (gateway : GatewayProvider) (generation : Generation) : Except PyError Generation :=
  match gateway.price generation.model with
  | none => .ok generation
  | some pricing =>
    (pricing.cost generation).map fun cost => { generation with costUsd := roundTo 6 cost }

/-- The answer when every provider failed. -/
def degraded (context notes : List String) : Generation :=
  let note := String.intercalate "; " notes
  { extractive context with degraded := true, note := if note = "" then none else some note }

/-- The loop of `complete`, with the place of the next provider. -/
def completeFrom (gateway : GatewayProvider) (question : String) (context : List String)
    (history : List ChatTurn) (deadline : ℚ) :
    List String → Nat → List String → GatewayDialogue (Except PyError Generation)
  | [], _, notes => .done (.ok (degraded context notes))
  | name :: rest, provider, notes =>
    .ask (.allow provider 0) fun
    | false =>
      -- The state is read for the log only.
      .ask (.state provider) fun _ =>
      gateway.completeFrom question context history deadline rest (provider + 1)
        (notes ++ [s!"{name} is temporarily disabled after repeated failures"])
    | true =>
      (gateway.attempt provider name question context history deadline).bind fun
      | .error e => .done (.error e)
      | .ok (some generation, _) => .done (gateway.priced generation)
      | .ok (none, failure) =>
        gateway.completeFrom question context history deadline rest (provider + 1)
          (notes ++ failure.toList)

def complete (gateway : GatewayProvider) (question : String) (context : List String)
    (history : List ChatTurn) : GatewayDialogue (Except PyError Generation) :=
  .ask .clock fun now =>
  gateway.completeFrom question (gateway.budget.packContext context)
    (gateway.budget.trimHistory history) (now + gateway.deadline) gateway.providers 0 []

/-! ## One call of a provider -/

/-- The jitter, the clock and the sleep: questions that no breaker and no provider sees. -/
def Idle : Exchange GatewayAnswer → Prop
  | ⟨.clock, _⟩ => True
  | ⟨.uniform _, _⟩ => True
  | ⟨.sleep _, _⟩ => True
  | _ => False

/-- A call that raised, and what was asked before deciding to go on. -/
def failed (provider attempt : Nat) (question : String) (context : List String)
    (history : List ChatTurn) (exc : Raised) (waits : List (Exchange GatewayAnswer)) :
    List (Exchange GatewayAnswer) :=
  ⟨.call provider attempt question context history, .error exc⟩ ::
    ⟨.recordFailure provider, ()⟩ :: waits

/-- What is asked before the attempt is repeated: the jitter if the provider does not say how
long to wait, then the clock. -/
structure Pause (gateway : GatewayProvider) (exc : Raised) (attempt : Nat)
    (waits : List (Exchange GatewayAnswer)) (now : ℚ) : Prop where
  retryable : isRetryable exc = true
  early : attempt ≠ gateway.maxAttempts
  good : ¬ BadRetryAfter exc
  split : ∃ drawing, waits = drawing ++ [⟨.clock, now⟩] ∧
    ∀ exchange ∈ drawing, ∃ high jitter, exchange = ⟨.uniform high, jitter⟩

theorem Pause.idle {gateway : GatewayProvider} {exc : Raised} {attempt : Nat}
    {waits : List (Exchange GatewayAnswer)} {now : ℚ}
    (pause : gateway.Pause exc attempt waits now) : ∀ exchange ∈ waits, Idle exchange := by
  obtain ⟨drawing, rfl, jitter⟩ := pause.split
  refine List.forall_mem_append.mpr ⟨?_, by simp [Idle]⟩
  intro exchange member
  obtain ⟨high, drawn, rfl⟩ := jitter exchange member
  trivial

/-- Everything one round of `_attempt` can do. -/
inductive Round (gateway : GatewayProvider) (provider : Nat) (name question : String)
    (context : List String) (history : List ChatTurn) (deadline : ℚ) (remaining attempt : Nat) :
    List (Exchange GatewayAnswer) → Except PyError Attempted → Prop
  | answered (generation : Generation) :
      Round gateway provider name question context history deadline remaining attempt
        [⟨.call provider attempt question context history, .ok generation⟩,
          ⟨.recordSuccess provider, ()⟩]
        (.ok (some generation, none))
  | gaveUp (exc : Raised) (failure : String)
      (last : isRetryable exc = true → attempt = gateway.maxAttempts) :
      Round gateway provider name question context history deadline remaining attempt
        (failed provider attempt question context history exc []) (.ok (none, some failure))
  | malformed (exc : Raised) (e : PyError) (retryable : isRetryable exc = true)
      (early : attempt ≠ gateway.maxAttempts) (bad : BadRetryAfter exc) :
      Round gateway provider name question context history deadline remaining attempt
        (failed provider attempt question context history exc []) (.error e)
  | late (exc : Raised) (failure : String) (waits : List (Exchange GatewayAnswer))
      (delay now : ℚ) (pause : gateway.Pause exc attempt waits now)
      (tooLate : deadline ≤ now + delay) :
      Round gateway provider name question context history deadline remaining attempt
        (failed provider attempt question context history exc waits) (.ok (none, some failure))
  | refused (exc : Raised) (failure : String) (waits : List (Exchange GatewayAnswer))
      (delay now : ℚ) (pause : gateway.Pause exc attempt waits now)
      (inTime : now + delay < deadline) :
      Round gateway provider name question context history deadline remaining attempt
        (failed provider attempt question context history exc
          (waits ++ [⟨.allow provider attempt, false⟩])) (.ok (none, some failure))
  | again (exc : Raised) (failure : String) (waits : List (Exchange GatewayAnswer))
      (delay now : ℚ) (pause : gateway.Pause exc attempt waits now)
      (inTime : now + delay < deadline) (rest : List (Exchange GatewayAnswer))
      (result : Except PyError Attempted)
      (trace : (gateway.attemptFrom provider name question context history deadline remaining
        (attempt + 1) (some failure)).Trace rest result) :
      Round gateway provider name question context history deadline remaining attempt
        (failed provider attempt question context history exc
          (waits ++ ⟨.allow provider attempt, true⟩ :: ⟨.sleep delay, ()⟩ :: rest)) result

theorem attemptFrom_round {gateway : GatewayProvider} {provider : Nat} {name question : String}
    {context : List String} {history : List ChatTurn} {deadline : ℚ} {remaining attempt : Nat}
    {failure : Option String} {log : List (Exchange GatewayAnswer)}
    {result : Except PyError Attempted}
    (trace : (gateway.attemptFrom provider name question context history deadline
      (remaining + 1) attempt failure).Trace log result) :
    gateway.Round provider name question context history deadline remaining attempt log
      result := by
  obtain ⟨outcome, rest, rfl, answered⟩ := Dialogue.trace_ask.mp trace
  clear trace
  cases outcome with
  | ok generation =>
      obtain ⟨_, rest, rfl, recorded⟩ := Dialogue.trace_ask.mp answered
      obtain ⟨rfl, rfl⟩ := Dialogue.trace_done.mp recorded
      exact .answered generation
  | error exc =>
      obtain ⟨_, rest, rfl, recorded⟩ := Dialogue.trace_ask.mp answered
      clear answered
      split at recorded
      · rename_i gaveUp
        obtain ⟨rfl, rfl⟩ := Dialogue.trace_done.mp recorded
        refine .gaveUp exc _ fun retryable => ?_
        simpa [retryable] using gaveUp
      · rename_i retried
        rw [Bool.not_eq_true, Bool.or_eq_false_iff, Bool.not_eq_false', beq_eq_false_iff_ne]
          at retried
        split at recorded
        · rename_i e raised
          obtain ⟨rfl, rfl⟩ := Dialogue.trace_done.mp recorded
          exact .malformed exc e retried.1 retried.2
            ((retryAfterSeconds_error_iff exc).mp ⟨e, raised⟩)
        · rename_i found read
          have good : ¬ BadRetryAfter exc := by
            intro bad
            obtain ⟨e, raised⟩ := (retryAfterSeconds_error_iff exc).mpr bad
            rw [read] at raised
            cases raised
          obtain ⟨drawing, delay, rest, rfl, drawn, waiting⟩ := Dialogue.trace_bind.mp recorded
          clear recorded
          have jitter : ∀ exchange ∈ drawing, ∃ high drawn,
              exchange = ⟨.uniform high, drawn⟩ := by
            cases found with
            | some seconds =>
                obtain ⟨rfl, _⟩ := Dialogue.trace_done.mp drawn
                exact List.forall_mem_nil _
            | none =>
                obtain ⟨jitter, _, rfl, ended⟩ := Dialogue.trace_ask.mp drawn
                obtain ⟨rfl, _⟩ := Dialogue.trace_done.mp ended
                exact List.forall_mem_singleton.mpr ⟨_, jitter, rfl⟩
          obtain ⟨now, rest, rfl, timed⟩ := Dialogue.trace_ask.mp waiting
          clear waiting
          have pause : gateway.Pause exc attempt (drawing ++ [⟨.clock, now⟩]) now :=
            ⟨retried.1, retried.2, good, drawing, rfl, jitter⟩
          split at timed
          · rename_i tooLate
            obtain ⟨rfl, rfl⟩ := Dialogue.trace_done.mp timed
            exact .late exc _ _ delay now pause tooLate
          · rename_i notOver
            have inTime : now + delay < deadline := not_le.mp notOver
            obtain ⟨allowed, rest, rfl, admitted⟩ := Dialogue.trace_ask.mp timed
            clear timed
            cases allowed with
            | false =>
                obtain ⟨rfl, rfl⟩ := Dialogue.trace_done.mp admitted
                simpa [failed] using Round.refused exc _ _ delay now pause inTime
            | true =>
                obtain ⟨_, rest, rfl, again⟩ := Dialogue.trace_ask.mp admitted
                simpa [failed] using Round.again exc _ _ delay now pause inTime rest result again

/-! ## When an answer makes the gateway raise -/

/-- The answer takes the gateway into no conversion that raises: a failure that is retried
has no malformed `Retry-After`, and the tokens of an answer with a price are countable. -/
def Parses (gateway : GatewayProvider) : Exchange GatewayAnswer → Prop
  | ⟨.call _ attempt _ _ _, .error exc⟩ =>
    isRetryable exc = true → attempt ≠ gateway.maxAttempts → ¬ BadRetryAfter exc
  | ⟨.call .., .ok generation⟩ =>
    (gateway.price generation.model).isSome = true → generation.Countable
  | _ => True

theorem Idle.parses {gateway : GatewayProvider} {exchange : Exchange GatewayAnswer}
    (idle : Idle exchange) : gateway.Parses exchange := by
  obtain ⟨question, answer⟩ := exchange
  cases question with
  | call => exact idle.elim
  | _ => trivial

theorem priced_ok_iff (gateway : GatewayProvider) (generation : Generation) :
    (∃ priced, gateway.priced generation = .ok priced) ↔
      ((gateway.price generation.model).isSome = true → generation.Countable) := by
  unfold priced
  cases gateway.price generation.model with
  | none => simp
  | some pricing =>
      simp only [Option.isSome_some, forall_const, ← pricing.cost_ok_iff generation]
      cases pricing.cost generation with
      | error e => simp [Except.map]
      | ok cost => simp [Except.map]

theorem priced_cost {gateway : GatewayProvider} {generation priced : Generation}
    (isPriced : gateway.priced generation = .ok priced) :
    ∃ costUsd, priced = { generation with costUsd } := by
  unfold GatewayProvider.priced at isPriced
  split at isPriced
  · obtain rfl := Except.ok.inj isPriced
    exact ⟨generation.costUsd, rfl⟩
  · rename_i pricing _
    cases cost : pricing.cost generation with
    | error e =>
        rw [cost] at isPriced
        cases isPriced
    | ok cost' =>
        rw [cost] at isPriced
        exact ⟨_, (Except.ok.inj isPriced).symm⟩

theorem priced_text {gateway : GatewayProvider} {generation priced : Generation}
    (isPriced : gateway.priced generation = .ok priced) : priced.text = generation.text := by
  obtain ⟨costUsd, rfl⟩ := priced_cost isPriced
  rfl

/-- What the exchanges of one `_attempt` tell about its end. -/
def Explains (gateway : GatewayProvider) (log : List (Exchange GatewayAnswer)) :
    Except PyError Attempted → Prop
  | .error _ => ¬ ∀ exchange ∈ log, gateway.Parses exchange
  | .ok (none, _) => ∀ exchange ∈ log, gateway.Parses exchange
  | .ok (some generation, _) =>
    (∀ exchange ∈ log, gateway.Parses exchange) ↔
      ∃ priced, gateway.priced generation = .ok priced

/-- Exchanges that parse do not change what a log explains. -/
theorem Explains.prepend {gateway : GatewayProvider} (earlier : List (Exchange GatewayAnswer))
    {log : List (Exchange GatewayAnswer)} {result : Except PyError Attempted}
    (explains : gateway.Explains log result)
    (parses : ∀ exchange ∈ earlier, gateway.Parses exchange) :
    gateway.Explains (earlier ++ log) result := by
  have same : (∀ exchange ∈ earlier ++ log, gateway.Parses exchange) ↔
      ∀ exchange ∈ log, gateway.Parses exchange := by
    rw [List.forall_mem_append]
    exact and_iff_right parses
  match result with
  | .error _ => exact fun all => explains (same.mp all)
  | .ok (none, _) => exact same.mpr explains
  | .ok (some _, _) => exact same.trans explains

theorem failed_parses {gateway : GatewayProvider} {provider attempt : Nat} {question : String}
    {context : List String} {history : List ChatTurn} {exc : Raised}
    {waits : List (Exchange GatewayAnswer)}
    (good : isRetryable exc = true → attempt ≠ gateway.maxAttempts → ¬ BadRetryAfter exc)
    (parses : ∀ exchange ∈ waits, gateway.Parses exchange) :
    ∀ exchange ∈ failed provider attempt question context history exc waits,
      gateway.Parses exchange :=
  List.forall_mem_cons.mpr ⟨good, List.forall_mem_cons.mpr ⟨trivial, parses⟩⟩

theorem attemptFrom_explains {gateway : GatewayProvider} {provider : Nat} {name question : String}
    {context : List String} {history : List ChatTurn} {deadline : ℚ} {remaining attempt : Nat}
    {failure : Option String} {log : List (Exchange GatewayAnswer)}
    {result : Except PyError Attempted}
    (trace : (gateway.attemptFrom provider name question context history deadline remaining
      attempt failure).Trace log result) :
    gateway.Explains log result := by
  induction remaining generalizing attempt failure log with
  | zero =>
      obtain ⟨rfl, rfl⟩ := Dialogue.trace_done.mp trace
      exact List.forall_mem_nil _
  | succ remaining ih =>
      cases attemptFrom_round trace with
      | answered generation =>
          refine Iff.trans ?_ (gateway.priced_ok_iff generation).symm
          simp [Parses]
      | gaveUp exc failure last =>
          exact failed_parses (fun retryable early => absurd (last retryable) early)
            (List.forall_mem_nil _)
      | malformed exc e retryable early bad =>
          exact fun all => all _ List.mem_cons_self retryable early bad
      | late exc failure waits delay now pause =>
          exact failed_parses (fun _ _ => pause.good)
            fun exchange member => (pause.idle exchange member).parses
      | refused exc failure waits delay now pause =>
          refine failed_parses (fun _ _ => pause.good)
            (List.forall_mem_append.mpr ⟨?_, by simp [Parses]⟩)
          exact fun exchange member => (pause.idle exchange member).parses
      | again exc failure waits delay now pause inTime rest result again =>
          have earlier : ∀ exchange ∈ failed provider attempt question context history exc
              (waits ++ [⟨.allow provider attempt, true⟩, ⟨.sleep delay, ()⟩]),
              gateway.Parses exchange := by
            refine failed_parses (fun _ _ => pause.good)
              (List.forall_mem_append.mpr ⟨?_, by simp [Parses]⟩)
            exact fun exchange member => (pause.idle exchange member).parses
          simpa [failed] using Explains.prepend _ (ih again) earlier

theorem completeFrom_ok_iff {gateway : GatewayProvider} {question : String}
    {context : List String} {history : List ChatTurn} {deadline : ℚ} {names notes : List String}
    {provider : Nat} {log : List (Exchange GatewayAnswer)} {result : Except PyError Generation}
    (trace : (gateway.completeFrom question context history deadline names provider notes).Trace
      log result) :
    (∃ generation, result = .ok generation) ↔ ∀ exchange ∈ log, gateway.Parses exchange := by
  induction names generalizing provider notes log with
  | nil =>
      obtain ⟨rfl, rfl⟩ := Dialogue.trace_done.mp trace
      simp
  | cons name rest ih =>
      obtain ⟨allowed, later, rfl, admitted⟩ := Dialogue.trace_ask.mp trace
      clear trace
      rw [List.forall_mem_cons]
      refine Iff.trans ?_ (and_iff_right trivial).symm
      cases allowed with
      | false =>
          obtain ⟨state, after, rfl, skipped⟩ := Dialogue.trace_ask.mp admitted
          rw [ih skipped, List.forall_mem_cons]
          exact (and_iff_right trivial).symm
      | true =>
          obtain ⟨calls, attempted, after, rfl, tried, settled⟩ := Dialogue.trace_bind.mp admitted
          have explains : gateway.Explains calls attempted := attemptFrom_explains tried
          rw [List.forall_mem_append]
          match attempted with
          | .error e =>
              obtain ⟨rfl, rfl⟩ := Dialogue.trace_done.mp settled
              exact ⟨fun ⟨_, wrong⟩ => (nomatch wrong), fun all => absurd all.1 explains⟩
          | .ok (some generation, _) =>
              obtain ⟨rfl, rfl⟩ := Dialogue.trace_done.mp settled
              exact explains.symm.trans (and_iff_left (List.forall_mem_nil _)).symm
          | .ok (none, failure) => exact (ih settled).trans (and_iff_right explains).symm

/-- However the surroundings answer, the gateway ends, and it ends in a generation exactly
when every answer parses. -/
theorem complete_returns_iff (gateway : GatewayProvider) (question : String)
    (context : List String) (history : List ChatTurn) :
    (∀ reply, ∃ log result, Dialogue.Answered reply [] log ∧
      (gateway.complete question context history).Trace log result) ∧
    ∀ log result, (gateway.complete question context history).Trace log result →
      ((∃ generation, result = .ok generation) ↔
        ∀ exchange ∈ log, gateway.Parses exchange) := by
  constructor
  · intro reply
    exact Dialogue.exists_trace reply _
  · intro log result trace
    obtain ⟨now, rest, rfl, started⟩ := Dialogue.trace_ask.mp trace
    rw [completeFrom_ok_iff started, List.forall_mem_cons]
    exact (and_iff_right trivial).symm

/-- The first call of the only provider fails with the status; its `Retry-After` is a
superscript two. -/
def superscriptTwo (code : Int) : List (Exchange GatewayAnswer) :=
  [⟨.clock, 0⟩, ⟨.allow 0 0, true⟩,
    ⟨.call 0 1 "q" ["evidence"] [], .error { http := some { code, retryAfter := "²" } }⟩,
    ⟨.recordFailure 0, ()⟩]

theorem superscript_raises :
    ¬ ∀ (gateway : GatewayProvider) (question : String) (context : List String)
      (history : List ChatTurn) (log : List (Exchange GatewayAnswer))
      (result : Except PyError Generation),
      (gateway.complete question context history).Trace log result →
      ∃ generation, result = .ok generation := by
  intro claimed
  let gateway : GatewayProvider := { providers := ["model"] }
  have trace : (gateway.complete "q" ["evidence"] []).Trace (superscriptTwo 429)
      (.error (.valueError "could not convert string to float: ²")) :=
    .ask (.ask (.ask (.ask (.done _))))
  obtain ⟨generation, wrong⟩ := claimed gateway _ _ _ _ _ trace
  cases wrong

/-- A client error is not retried, so nobody reads its header. -/
theorem client_error_returns :
    let gateway : GatewayProvider := { providers := ["model"] }
    ∃ result, (gateway.complete "q" ["evidence"] []).Trace (superscriptTwo 400) result ∧
      ∃ generation, result = .ok generation := by
  intro gateway
  have trace : (gateway.complete "q" ["evidence"] []).Trace (superscriptTwo 400)
      (.ok (degraded ["evidence"]
        ["model: HTTP 400 (request rejected; check the API key and model ID)"])) :=
    .ask (.ask (.ask (.ask (.done _))))
  refine ⟨_, trace, ((complete_returns_iff gateway "q" ["evidence"] []).2 _ _ trace).mpr ?_⟩
  simp [superscriptTwo, Parses, isRetryable]

end GatewayProvider

end ProductionRag
