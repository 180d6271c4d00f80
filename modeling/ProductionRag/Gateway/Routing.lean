import Mathlib.Data.List.Chain
import ProductionRag.Gateway.Complete

/-!
# Routing across providers

What `complete` does is read off its log: the providers it visits, and the calls it makes
with their outcomes.
-/

set_option autoImplicit false

namespace ProductionRag

open Basis

structure ProviderCall where
  /-- The place of the provider. -/
  provider : Nat
  outcome : Except Raised Generation

def callOf : Exchange GatewayAnswer → Option ProviderCall
  | ⟨.call provider _ _ _ _, outcome⟩ => some ⟨provider, outcome⟩
  | _ => none

/-- The calls of a log, in order. -/
def calls (log : List (Exchange GatewayAnswer)) : List ProviderCall := log.filterMap callOf

def visitOf : Exchange GatewayAnswer → Option Nat
  | ⟨.allow provider 0, _⟩ => some provider
  | _ => none

/-- The providers whose turn it is, in order; a breaker may turn the gateway away. -/
def visits (log : List (Exchange GatewayAnswer)) : List Nat := log.filterMap visitOf

def ProviderCall.Failed (call : ProviderCall) : Prop := ∃ exc, call.outcome = .error exc

/-- Another call of the same provider comes after a retryable failure only. -/
def ProviderCall.Before (earlier later : ProviderCall) : Prop :=
  earlier.provider = later.provider → ∃ exc, earlier.outcome = .error exc ∧ isRetryable exc = true

@[simp] theorem calls_append (first second : List (Exchange GatewayAnswer)) :
    calls (first ++ second) = calls first ++ calls second := List.filterMap_append

@[simp] theorem visits_append (first second : List (Exchange GatewayAnswer)) :
    visits (first ++ second) = visits first ++ visits second := List.filterMap_append

namespace GatewayProvider

/-- The calls of one `_attempt`. -/
structure Tried (provider remaining : Nat) (log : List (Exchange GatewayAnswer))
    (result : Except PyError Attempted) : Prop where
  noVisit : visits log = []
  own : ∀ call ∈ calls log, call.provider = provider
  limited : (calls log).length ≤ remaining
  retried : (calls log).IsChain ProviderCall.Before
  answered : ∀ generation failure, result = .ok (some generation, failure) →
    ∃ failures, calls log = failures ++ [⟨provider, .ok generation⟩] ∧
      ∀ call ∈ failures, call.Failed
  failed : ∀ failure, result = .ok (none, failure) → ∀ call ∈ calls log, call.Failed

theorem Idle.silent {exchange : Exchange GatewayAnswer} (idle : Idle exchange) :
    callOf exchange = none ∧ visitOf exchange = none := by
  obtain ⟨question, answer⟩ := exchange
  cases question with
  | clock => exact ⟨rfl, rfl⟩
  | uniform high => exact ⟨rfl, rfl⟩
  | sleep delay => exact ⟨rfl, rfl⟩
  | _ => exact idle.elim

theorem silent_of_idle {waits : List (Exchange GatewayAnswer)}
    (idle : ∀ exchange ∈ waits, Idle exchange) : calls waits = [] ∧ visits waits = [] :=
  ⟨List.filterMap_eq_nil_iff.mpr fun exchange member => (idle exchange member).silent.1,
    List.filterMap_eq_nil_iff.mpr fun exchange member => (idle exchange member).silent.2⟩

theorem calls_failed (provider attempt : Nat) (question : String) (context : List String)
    (history : List ChatTurn) (exc : Raised) (waits : List (Exchange GatewayAnswer)) :
    calls (GatewayProvider.failed provider attempt question context history exc waits) =
      ⟨provider, .error exc⟩ :: calls waits := rfl

theorem visits_failed (provider attempt : Nat) (question : String) (context : List String)
    (history : List ChatTurn) (exc : Raised) (waits : List (Exchange GatewayAnswer)) :
    visits (GatewayProvider.failed provider attempt question context history exc waits) =
      visits waits := rfl

/-- A failure after which the provider is not called again. -/
theorem Tried.of_failure {provider remaining attempt : Nat} {question : String}
    {context : List String} {history : List ChatTurn} {exc : Raised}
    {waits : List (Exchange GatewayAnswer)} {result : Except PyError Attempted}
    (silent : calls waits = [] ∧ visits waits = [])
    (noAnswer : ∀ generation failure, result ≠ .ok (some generation, failure)) :
    Tried provider (remaining + 1)
      (GatewayProvider.failed provider attempt question context history exc waits) result where
  noVisit := silent.2
  own := by
    rw [calls_failed, silent.1]
    exact List.forall_mem_singleton.mpr rfl
  limited := by
    rw [calls_failed, silent.1]
    exact Nat.succ_le_succ (Nat.zero_le _)
  retried := by
    rw [calls_failed, silent.1]
    exact .singleton _
  answered := fun generation failure isAnswer => absurd isAnswer (noAnswer generation failure)
  failed := by
    intro failure _
    rw [calls_failed, silent.1]
    exact List.forall_mem_singleton.mpr ⟨exc, rfl⟩

theorem visits_retryAdmission {provider attempt : Nat} (started : attempt ≠ 0) (answer : Bool) :
    visits [(⟨.allow provider attempt, answer⟩ : Exchange GatewayAnswer)] = [] := by
  obtain ⟨earlier, rfl⟩ := Nat.exists_eq_succ_of_ne_zero started
  rfl

/-- A retryable failure, and what the next call of the provider leads to. -/
theorem Tried.again {provider remaining attempt : Nat} {question : String}
    {context : List String} {history : List ChatTurn} {exc : Raised}
    {waits rest : List (Exchange GatewayAnswer)} {delay : ℚ} {result : Except PyError Attempted}
    (started : attempt ≠ 0) (retryable : isRetryable exc = true)
    (silent : calls waits = [] ∧ visits waits = [])
    (later : Tried provider remaining rest result) :
    Tried provider (remaining + 1)
      (GatewayProvider.failed provider attempt question context history exc
        (waits ++ ⟨.allow provider attempt, true⟩ :: ⟨.sleep delay, ()⟩ :: rest)) result := by
  have itsCalls : calls (GatewayProvider.failed provider attempt question context history
      exc (waits ++ ⟨.allow provider attempt, true⟩ :: ⟨.sleep delay, ()⟩ :: rest)) =
      ⟨provider, .error exc⟩ :: calls rest := by
    rw [calls_failed, calls_append, silent.1]
    rfl
  refine ⟨?_, ?_, ?_, ?_, ?_, ?_⟩
  · have whole : waits ++ ⟨.allow provider attempt, true⟩ :: ⟨.sleep delay, ()⟩ :: rest =
        waits ++ [⟨.allow provider attempt, true⟩] ++ ([⟨.sleep delay, ()⟩] ++ rest) := by
      simp
    rw [visits_failed, whole, visits_append, visits_append, visits_append, silent.2,
      visits_retryAdmission started, later.noVisit]
    rfl
  · rw [itsCalls]
    exact List.forall_mem_cons.mpr ⟨rfl, later.own⟩
  · rw [itsCalls]
    exact Nat.succ_le_succ later.limited
  · rw [itsCalls, List.isChain_cons]
    exact ⟨fun _ _ _ => ⟨exc, rfl, retryable⟩, later.retried⟩
  · intro generation failure isAnswer
    obtain ⟨failures, same, allFailed⟩ := later.answered generation failure isAnswer
    refine ⟨⟨provider, .error exc⟩ :: failures, ?_, ?_⟩
    · rw [itsCalls, same]
      rfl
    · exact List.forall_mem_cons.mpr ⟨⟨exc, rfl⟩, allFailed⟩
  · intro failure isFailure
    rw [itsCalls]
    exact List.forall_mem_cons.mpr ⟨⟨exc, rfl⟩, later.failed failure isFailure⟩

theorem attemptFrom_tried {gateway : GatewayProvider} {provider : Nat} {name question : String}
    {context : List String} {history : List ChatTurn} {deadline : ℚ} {remaining attempt : Nat}
    {failure : Option String} {log : List (Exchange GatewayAnswer)}
    {result : Except PyError Attempted} (started : attempt ≠ 0)
    (trace : (gateway.attemptFrom provider name question context history deadline remaining
      attempt failure).Trace log result) :
    Tried provider remaining log result := by
  induction remaining generalizing attempt failure log with
  | zero =>
      obtain ⟨rfl, rfl⟩ := Dialogue.trace_done.mp trace
      refine ⟨rfl, List.forall_mem_nil _, Nat.le_refl _, .nil, ?_, fun _ _ => List.forall_mem_nil _⟩
      intro _ _ wrong
      cases wrong
  | succ remaining ih =>
      cases attemptFrom_round trace with
      | answered generation =>
          refine ⟨rfl, List.forall_mem_singleton.mpr rfl, Nat.succ_le_succ (Nat.zero_le _),
            .singleton _, ?_, ?_⟩
          · intro generation' failure' same
            cases same
            exact ⟨[], rfl, List.forall_mem_nil _⟩
          · intro _ wrong
            cases wrong
      | gaveUp exc failure last => exact .of_failure ⟨rfl, rfl⟩ fun _ _ => by simp
      | malformed exc e retryable early bad =>
          exact .of_failure ⟨rfl, rfl⟩ fun _ _ => by simp
      | late exc failure waits delay now pause =>
          exact .of_failure (silent_of_idle pause.idle) fun _ _ => by simp
      | refused exc failure waits delay now pause =>
          obtain ⟨noCalls, noVisits⟩ := silent_of_idle pause.idle
          refine .of_failure ⟨?_, ?_⟩ fun _ _ => by simp
          · rw [calls_append, noCalls]
            rfl
          · rw [visits_append, noVisits, visits_retryAdmission started]
            rfl
      | again exc failure waits delay now pause inTime rest result again =>
          exact .again started pause.retryable (silent_of_idle pause.idle)
            (ih (Nat.succ_ne_zero attempt) again)

/-! ## All providers -/

/-- What `complete` does from the provider at this place on, when so many are left. -/
structure RoutedFrom (gateway : GatewayProvider) (packed : List String) (provider left : Nat)
    (log : List (Exchange GatewayAnswer)) (result : Except PyError Generation) : Prop where
  visited : ∃ count, count ≤ left ∧ visits log = List.range' provider count
  inOrder : (calls log).Pairwise fun earlier later => earlier.provider ≤ later.provider
  onVisit : ∀ call ∈ calls log, call.provider ∈ visits log
  limited : ∀ provider,
    (calls log).countP (fun call => call.provider = provider) ≤ gateway.maxAttempts
  retried : (calls log).IsChain ProviderCall.Before
  outcome : ∀ generation, result = .ok generation →
    ((∀ call ∈ calls log, call.Failed) ∧ visits log = List.range' provider left ∧
      ∃ note, generation = { extractive packed with degraded := true, note }) ∨
    ∃ failures provider' generation' costUsd,
      calls log = failures ++ [⟨provider', .ok generation'⟩] ∧
        (∀ call ∈ failures, call.Failed) ∧ generation = { generation' with costUsd }

section RoutedFrom

variable {gateway : GatewayProvider} {packed : List String} {provider left : Nat}
  {part after : List (Exchange GatewayAnswer)} {result : Except PyError Generation}

theorem Tried.ordered {attempted : Except PyError Attempted}
    (tried : Tried provider left part attempted) :
    (calls part).Pairwise fun earlier later => earlier.provider ≤ later.provider := by
  refine List.pairwise_of_forall_mem_list ?_
  intro earlier inPart later inPart'
  rw [tried.own earlier inPart, tried.own later inPart']

/-- The last provider that is visited. -/
theorem RoutedFrom.last {answer : Bool} {attempted : Except PyError Attempted}
    (tried : Tried provider gateway.maxAttempts part attempted)
    (outcome : ∀ generation, result = .ok generation →
      ∃ failures generation' costUsd, calls part = failures ++ [⟨provider, .ok generation'⟩] ∧
        (∀ call ∈ failures, call.Failed) ∧ generation = { generation' with costUsd }) :
    gateway.RoutedFrom packed provider (left + 1) (⟨.allow provider 0, answer⟩ :: part)
      result := by
  have itsVisits : visits (⟨.allow provider 0, answer⟩ :: part) = [provider] := by
    have same : visits (⟨.allow provider 0, answer⟩ :: part) = provider :: visits part := rfl
    rw [same, tried.noVisit]
  refine ⟨⟨1, Nat.succ_le_succ (Nat.zero_le _), itsVisits⟩, tried.ordered, ?_, ?_,
    tried.retried, ?_⟩
  · intro call member
    rw [itsVisits, tried.own call member]
    exact List.mem_singleton_self _
  · exact fun other => (List.countP_le_length).trans tried.limited
  · intro generation isAnswer
    obtain ⟨failures, generation', costUsd, same, allFailed, priced⟩ := outcome generation isAnswer
    exact Or.inr ⟨failures, provider, generation', costUsd, same, allFailed, priced⟩

/-- A provider that does not answer, and the next ones. -/
theorem RoutedFrom.next {answer : Bool} {failure : Option String}
    (tried : Tried provider gateway.maxAttempts part (.ok (none, failure)))
    (later : gateway.RoutedFrom packed (provider + 1) left after result) :
    gateway.RoutedFrom packed provider (left + 1)
      (⟨.allow provider 0, answer⟩ :: (part ++ after)) result := by
  have allFailed := tried.failed failure rfl
  have itsCalls : calls (⟨.allow provider 0, answer⟩ :: (part ++ after)) =
      calls part ++ calls after := calls_append part after
  have itsVisits : visits (⟨.allow provider 0, answer⟩ :: (part ++ after)) =
      provider :: visits after := by
    have same : visits (⟨.allow provider 0, answer⟩ :: (part ++ after)) =
        provider :: visits (part ++ after) := rfl
    rw [same, visits_append, tried.noVisit]
    rfl
  obtain ⟨count, few, laterVisits⟩ := later.visited
  have beyond : ∀ call ∈ calls after, provider < call.provider := by
    intro call member
    have onVisit := later.onVisit call member
    rw [laterVisits, List.mem_range'_1] at onVisit
    omega
  constructor
  · refine ⟨count + 1, Nat.succ_le_succ few, ?_⟩
    rw [itsVisits, laterVisits, List.range'_succ]
  · rw [itsCalls, List.pairwise_append]
    refine ⟨tried.ordered, later.inOrder, ?_⟩
    intro earlier inPart call inAfter
    rw [tried.own earlier inPart]
    exact (beyond call inAfter).le
  · rw [itsCalls, itsVisits, List.forall_mem_append]
    constructor
    · intro call member
      rw [tried.own call member]
      exact List.mem_cons_self
    · exact fun call member => List.mem_cons_of_mem _ (later.onVisit call member)
  · intro other
    rw [itsCalls, List.countP_append]
    by_cases isOwn : provider = other
    · have none : (calls after).countP (fun call => call.provider = other) = 0 := by
        refine List.countP_eq_zero.mpr ?_
        intro call member same
        have far := beyond call member
        rw [decide_eq_true_eq] at same
        omega
      rw [none]
      exact (List.countP_le_length).trans tried.limited
    · have none : (calls part).countP (fun call => call.provider = other) = 0 := by
        refine List.countP_eq_zero.mpr ?_
        intro call member same
        rw [decide_eq_true_eq, tried.own call member] at same
        exact isOwn same
      rw [none, Nat.zero_add]
      exact later.limited other
  · rw [itsCalls, List.isChain_append]
    refine ⟨tried.retried, later.retried, ?_⟩
    intro earlier isLast call isFirst same
    have far := beyond call (List.mem_of_mem_head? isFirst)
    rw [← same, tried.own earlier (List.mem_of_mem_getLast? isLast)] at far
    exact absurd far (lt_irrefl _)
  · intro generation isAnswer
    rw [itsCalls, itsVisits]
    rcases later.outcome generation isAnswer with ⟨othersFailed, all, degraded⟩ |
      ⟨failures, provider', generation', costUsd, same, others, priced⟩
    · refine Or.inl ⟨List.forall_mem_append.mpr ⟨allFailed, othersFailed⟩, ?_, degraded⟩
      rw [all, List.range'_succ]
    · refine Or.inr ⟨calls part ++ failures, provider', generation', costUsd, ?_,
        List.forall_mem_append.mpr ⟨allFailed, others⟩, priced⟩
      rw [same, List.append_assoc]

end RoutedFrom

theorem completeFrom_routed {gateway : GatewayProvider} {question : String}
    {packed : List String} {history : List ChatTurn} {deadline : ℚ} {names notes : List String}
    {provider : Nat} {log : List (Exchange GatewayAnswer)} {result : Except PyError Generation}
    (trace : (gateway.completeFrom question packed history deadline names provider notes).Trace
      log result) :
    gateway.RoutedFrom packed provider names.length log result := by
  induction names generalizing provider notes log with
  | nil =>
      obtain ⟨rfl, rfl⟩ := Dialogue.trace_done.mp trace
      refine ⟨⟨0, Nat.le_refl _, rfl⟩, .nil, List.forall_mem_nil _, fun _ => Nat.zero_le _, .nil,
        ?_⟩
      intro generation same
      obtain rfl := Except.ok.inj same
      exact Or.inl ⟨List.forall_mem_nil _, rfl, _, rfl⟩
  | cons name rest ih =>
      obtain ⟨allowed, later, rfl, admitted⟩ := Dialogue.trace_ask.mp trace
      clear trace
      cases allowed with
      | false =>
          obtain ⟨state, after, rfl, skipped⟩ := Dialogue.trace_ask.mp admitted
          have tried : Tried provider gateway.maxAttempts [⟨.state provider, state⟩]
              (.ok (none, none)) :=
            ⟨rfl, List.forall_mem_nil _, Nat.zero_le _, .nil, fun _ _ => by simp,
              fun _ _ => List.forall_mem_nil _⟩
          exact .next tried (ih skipped)
      | true =>
          obtain ⟨part, attempted, after, rfl, traced, settled⟩ := Dialogue.trace_bind.mp admitted
          have tried := attemptFrom_tried Nat.one_ne_zero traced
          cases attempted with
          | error e =>
              obtain ⟨rfl, rfl⟩ := Dialogue.trace_done.mp settled
              rw [List.append_nil]
              exact .last tried fun _ => by simp
          | ok attempted =>
              obtain ⟨_ | generation, failure⟩ := attempted
              · exact .next tried (ih settled)
              · obtain ⟨rfl, rfl⟩ := Dialogue.trace_done.mp settled
                rw [List.append_nil]
                refine .last tried ?_
                intro priced isPriced
                obtain ⟨costUsd, rfl⟩ := priced_cost isPriced
                obtain ⟨failures, same, allFailed⟩ := tried.answered generation failure rfl
                exact ⟨failures, generation, costUsd, same, allFailed, rfl⟩

end GatewayProvider

end ProductionRag
