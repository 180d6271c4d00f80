import ProductionRag.Providers.Rewriting

/-!
# What a provider is shown

Every call of `complete` goes out with the same question, the packed sources and the
trimmed history.
-/

set_option autoImplicit false

namespace ProductionRag

open Basis

namespace GatewayProvider

/-- A call, if it is one, shows the prompt. -/
def Shows (gateway : GatewayProvider) (question : String) (context : List String)
    (history : List ChatTurn) : Exchange GatewayAnswer → Prop
  | ⟨.call _ _ question' context' history', _⟩ =>
    gateway.providers ≠ [] ∧ gateway.maxAttempts ≠ 0 ∧ question' = question ∧
      context' = context ∧ history' = history
  | _ => True

section Prompt

variable {gateway : GatewayProvider} {question : String} {context : List String}
  {history : List ChatTurn} {log : List (Exchange GatewayAnswer)}

theorem Idle.shows {exchange : Exchange GatewayAnswer} (idle : Idle exchange) :
    gateway.Shows question context history exchange := by
  obtain ⟨asked, answer⟩ := exchange
  cases asked with
  | call => exact idle.elim
  | _ => trivial

theorem failed_shows {provider attempt : Nat} {exc : Raised}
    {waits : List (Exchange GatewayAnswer)} (some : gateway.providers ≠ [])
    (tries : gateway.maxAttempts ≠ 0)
    (shows : ∀ exchange ∈ waits, gateway.Shows question context history exchange) :
    ∀ exchange ∈ failed provider attempt question context history exc waits,
      gateway.Shows question context history exchange :=
  List.forall_mem_cons.mpr ⟨⟨some, tries, rfl, rfl, rfl⟩,
    List.forall_mem_cons.mpr ⟨trivial, shows⟩⟩

theorem attemptFrom_shows {provider remaining attempt : Nat} {name : String} {deadline : ℚ}
    {failure : Option String} {result : Except PyError Attempted}
    (some : gateway.providers ≠ []) (tries : remaining ≤ gateway.maxAttempts)
    (trace : (gateway.attemptFrom provider name question context history deadline remaining
      attempt failure).Trace log result) :
    ∀ exchange ∈ log, gateway.Shows question context history exchange := by
  induction remaining generalizing attempt failure log with
  | zero =>
      obtain ⟨rfl, rfl⟩ := Dialogue.trace_done.mp trace
      exact List.forall_mem_nil _
  | succ remaining ih =>
      have more : gateway.maxAttempts ≠ 0 :=
        Nat.ne_of_gt (Nat.lt_of_lt_of_le remaining.succ_pos tries)
      cases attemptFrom_round trace with
      | answered generation =>
          exact List.forall_mem_cons.mpr ⟨⟨some, more, rfl, rfl, rfl⟩,
            List.forall_mem_singleton.mpr trivial⟩
      | gaveUp exc failure last => exact failed_shows some more (List.forall_mem_nil _)
      | malformed exc e retryable early bad => exact failed_shows some more (List.forall_mem_nil _)
      | late exc failure waits delay now pause =>
          exact failed_shows some more fun exchange member => (pause.idle exchange member).shows
      | refused exc failure waits delay now pause =>
          exact failed_shows some more (List.forall_mem_append.mpr
            ⟨fun exchange member => (pause.idle exchange member).shows,
              List.forall_mem_singleton.mpr trivial⟩)
      | again exc failure waits delay now pause inTime rest result again =>
          refine failed_shows some more (List.forall_mem_append.mpr
            ⟨fun exchange member => (pause.idle exchange member).shows, ?_⟩)
          exact List.forall_mem_cons.mpr ⟨trivial, List.forall_mem_cons.mpr
            ⟨trivial, ih (Nat.le_of_succ_le tries) again⟩⟩

theorem completeFrom_shows {deadline : ℚ} {names notes : List String} {provider : Nat}
    {result : Except PyError Generation} (named : names ≠ [] → gateway.providers ≠ [])
    (trace : (gateway.completeFrom question context history deadline names provider notes).Trace
      log result) :
    ∀ exchange ∈ log, gateway.Shows question context history exchange := by
  induction names generalizing provider notes log with
  | nil =>
      obtain ⟨rfl, rfl⟩ := Dialogue.trace_done.mp trace
      exact List.forall_mem_nil _
  | cons name rest ih =>
      have more := named (List.cons_ne_nil _ _)
      obtain ⟨allowed, later, rfl, admitted⟩ := Dialogue.trace_ask.mp trace
      clear trace
      refine List.forall_mem_cons.mpr ⟨trivial, ?_⟩
      cases allowed with
      | false =>
          obtain ⟨state, after, rfl, skipped⟩ := Dialogue.trace_ask.mp admitted
          exact List.forall_mem_cons.mpr ⟨trivial, ih (fun _ => more) skipped⟩
      | true =>
          obtain ⟨calls, attempted, after, rfl, tried, settled⟩ := Dialogue.trace_bind.mp admitted
          refine List.forall_mem_append.mpr ⟨attemptFrom_shows more (Nat.le_refl _) tried, ?_⟩
          match attempted with
          | .error e =>
              obtain ⟨rfl, rfl⟩ := Dialogue.trace_done.mp settled
              exact List.forall_mem_nil _
          | .ok (some generation, _) =>
              obtain ⟨rfl, rfl⟩ := Dialogue.trace_done.mp settled
              exact List.forall_mem_nil _
          | .ok (none, failure) => exact ih (fun _ => more) settled

theorem complete_shows {result : Except PyError Generation}
    (trace : (gateway.complete question context history).Trace log result) :
    ∀ exchange ∈ log, gateway.Shows question (gateway.budget.packContext context)
      (gateway.budget.trimHistory history) exchange := by
  obtain ⟨now, rest, rfl, started⟩ := Dialogue.trace_ask.mp trace
  exact List.forall_mem_cons.mpr ⟨trivial, completeFrom_shows id started⟩

end Prompt

/-- A provider that answers at the first call is not asked again. -/
theorem complete_answers {gateway : GatewayProvider} {generation priced : Generation}
    (question : String) (context : List String) (history : List ChatTurn)
    (some : gateway.providers ≠ []) (tries : gateway.maxAttempts ≠ 0)
    (isPriced : gateway.priced generation = .ok priced) :
    (gateway.complete question context history).Trace
      [⟨.clock, 0⟩, ⟨.allow 0 0, true⟩,
        ⟨.call 0 1 question (gateway.budget.packContext context)
          (gateway.budget.trimHistory history), .ok generation⟩,
        ⟨.recordSuccess 0, ()⟩] (.ok priced) := by
  obtain ⟨name, rest, names⟩ := List.exists_cons_of_ne_nil some
  obtain ⟨attempts, enough⟩ := Nat.exists_eq_succ_of_ne_zero tries
  rw [complete, names]
  refine .ask (.ask ?_)
  rw [attempt, enough]
  exact .ask (.ask (isPriced ▸ .done _))

end GatewayProvider

end ProductionRag
