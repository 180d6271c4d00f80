import ProductionRag.Gateway.Routing

/-!
# The calls decide the answer

A gateway with one provider answers by the outcomes of its calls alone; the clock, the
jitter and the breaker only decide how many calls there are.
-/

set_option autoImplicit false

namespace ProductionRag

open Basis

/-- How the calls of a log ended, in order. -/
def outcomes (log : List (Exchange GatewayAnswer)) : List (Except Raised Generation) :=
  (calls log).map (·.outcome)

@[simp] theorem outcomes_append (first second : List (Exchange GatewayAnswer)) :
    outcomes (first ++ second) = outcomes first ++ outcomes second := by
  rw [outcomes, calls_append, List.map_append]
  rfl

namespace GatewayProvider

/-- The failure of a call that is the last one. -/
def conclusion (gateway : GatewayProvider) (name : String) (attempt : Nat) (exc : Raised) :
    Except PyError Attempted :=
  let failure := some s!"{name}: {describeFailure exc}"
  if !isRetryable exc || attempt == gateway.maxAttempts then .ok (none, failure)
  else (retryAfterSeconds exc).map fun _ => (none, failure)

/-- What `_attempt` returns, from the outcomes of its calls. -/
def conclude (gateway : GatewayProvider) (name : String) :
    Nat → List (Except Raised Generation) → Except PyError Attempted
  | _, [] => .ok (none, none)
  | _, .ok generation :: _ => .ok (some generation, none)
  | attempt, [.error exc] => gateway.conclusion name attempt exc
  | attempt, .error _ :: next :: rest => gateway.conclude name (attempt + 1) (next :: rest)

/-- The text of a failure. -/
def failureOf (name : String) (exc : Raised) : String := s!"{name}: {describeFailure exc}"

section Attempt

variable {gateway : GatewayProvider} {provider : Nat} {name question : String}
  {context : List String} {history : List ChatTurn} {deadline : ℚ} {remaining attempt : Nat}
  {failure : Option String} {log : List (Exchange GatewayAnswer)}
  {result : Except PyError Attempted}

theorem outcomes_failed (exc : Raised) (waits : List (Exchange GatewayAnswer)) :
    outcomes (failed provider attempt question context history exc waits) =
      .error exc :: outcomes waits := rfl

/-- What one round decides: its call succeeds, or is the last one, or another follows. -/
theorem attemptFrom_decides
    (trace : (gateway.attemptFrom provider name question context history deadline
      (remaining + 1) attempt failure).Trace log result) :
    (∃ generation, outcomes log = [.ok generation] ∧ result = .ok (some generation, none)) ∨
      ∃ exc, (outcomes log = [.error exc] ∧ result = gateway.conclusion name attempt exc) ∨
        ∃ rest, outcomes log = .error exc :: outcomes rest ∧
          gateway.conclusion name attempt exc = .ok (none, some (failureOf name exc)) ∧
          (gateway.attemptFrom provider name question context history deadline remaining
            (attempt + 1) (some (failureOf name exc))).Trace rest result := by
  obtain ⟨outcome, rest, rfl, answered⟩ := Dialogue.trace_ask.mp trace
  clear trace
  cases outcome with
  | ok generation =>
      obtain ⟨_, rest, rfl, recorded⟩ := Dialogue.trace_ask.mp answered
      obtain ⟨rfl, rfl⟩ := Dialogue.trace_done.mp recorded
      exact .inl ⟨generation, rfl, rfl⟩
  | error exc =>
      obtain ⟨_, rest, rfl, recorded⟩ := Dialogue.trace_ask.mp answered
      clear answered
      refine .inr ⟨exc, ?_⟩
      split at recorded
      · rename_i last
        obtain ⟨rfl, rfl⟩ := Dialogue.trace_done.mp recorded
        exact .inl ⟨rfl, by rw [conclusion, if_pos last]⟩
      · rename_i early
        split at recorded
        · rename_i e malformed
          obtain ⟨rfl, rfl⟩ := Dialogue.trace_done.mp recorded
          exact .inl ⟨rfl, by rw [conclusion, if_neg early, malformed]; rfl⟩
        · rename_i found read
          have concluded : gateway.conclusion name attempt exc =
              .ok (none, some (failureOf name exc)) := by
            rw [conclusion, if_neg early, read]
            rfl
          obtain ⟨drawing, delay, rest, rfl, drawn, waiting⟩ := Dialogue.trace_bind.mp recorded
          clear recorded
          have jitter : outcomes drawing = [] := by
            cases found with
            | some seconds =>
                obtain ⟨rfl, _⟩ := Dialogue.trace_done.mp drawn
                rfl
            | none =>
                obtain ⟨_, _, rfl, ended⟩ := Dialogue.trace_ask.mp drawn
                obtain ⟨rfl, _⟩ := Dialogue.trace_done.mp ended
                rfl
          obtain ⟨now, rest, rfl, timed⟩ := Dialogue.trace_ask.mp waiting
          clear waiting
          have own : outcomes (failed provider attempt question context history exc
              (drawing ++ ⟨.clock, now⟩ :: rest)) = .error exc :: outcomes rest := by
            rw [outcomes_failed, outcomes_append, jitter]
            rfl
          split at timed
          · obtain ⟨rfl, rfl⟩ := Dialogue.trace_done.mp timed
            exact .inl ⟨own, concluded.symm⟩
          · obtain ⟨allowed, rest, rfl, admitted⟩ := Dialogue.trace_ask.mp timed
            clear timed
            cases allowed with
            | false =>
                obtain ⟨rfl, rfl⟩ := Dialogue.trace_done.mp admitted
                exact .inl ⟨own, concluded.symm⟩
            | true =>
                obtain ⟨_, rest, rfl, again⟩ := Dialogue.trace_ask.mp admitted
                exact .inr ⟨rest, own, concluded, again⟩

/-- The rounds left decide nothing but how many calls there are. -/
theorem attemptFrom_concludes
    (trace : (gateway.attemptFrom provider name question context history deadline
      (remaining + 1) attempt failure).Trace log result) :
    outcomes log ≠ [] ∧ result = gateway.conclude name attempt (outcomes log) := by
  induction remaining generalizing attempt failure log with
  | zero =>
      rcases attemptFrom_decides trace with
        ⟨generation, ended, rfl⟩ | ⟨exc, ⟨ended, rfl⟩ | ⟨rest, ended, concluded, again⟩⟩
      · rw [ended]
        exact ⟨List.cons_ne_nil _ _, rfl⟩
      · rw [ended]
        exact ⟨List.cons_ne_nil _ _, rfl⟩
      · obtain ⟨rfl, rfl⟩ := Dialogue.trace_done.mp again
        rw [ended]
        exact ⟨List.cons_ne_nil _ _, concluded.symm⟩
  | succ remaining ih =>
      rcases attemptFrom_decides trace with
        ⟨generation, ended, rfl⟩ | ⟨exc, ⟨ended, rfl⟩ | ⟨rest, ended, _, again⟩⟩
      · rw [ended]
        exact ⟨List.cons_ne_nil _ _, rfl⟩
      · rw [ended]
        exact ⟨List.cons_ne_nil _ _, rfl⟩
      · obtain ⟨some, rfl⟩ := ih again
        obtain ⟨next, later, more⟩ := List.exists_cons_of_ne_nil some
        rw [ended, more]
        exact ⟨List.cons_ne_nil _ _, rfl⟩

end Attempt

/-- What `complete` returns, from the outcomes of the calls of its only provider. -/
def concluded (gateway : GatewayProvider) (name : String) (packed : List String)
    (ended : List (Except Raised Generation)) : Except PyError Generation :=
  if ended.isEmpty then
    .ok (degraded packed [s!"{name} is temporarily disabled after repeated failures"])
  else
    match gateway.conclude name 1 ended with
    | .error e => .error e
    | .ok (some generation, _) => gateway.priced generation
    | .ok (none, failure) => .ok (degraded packed failure.toList)

/-- A gateway with one provider answers by the outcomes of its calls. -/
theorem complete_concludes {gateway : GatewayProvider} {name question : String}
    {context : List String} {history : List ChatTurn} {log : List (Exchange GatewayAnswer)}
    {result : Except PyError Generation} (single : gateway.providers = [name])
    (tries : gateway.maxAttempts ≠ 0)
    (trace : (gateway.complete question context history).Trace log result) :
    result = gateway.concluded name (gateway.budget.packContext context) (outcomes log) := by
  obtain ⟨now, rest, rfl, started⟩ := Dialogue.trace_ask.mp trace
  rw [single] at started
  obtain ⟨allowed, rest, rfl, admitted⟩ := Dialogue.trace_ask.mp started
  cases allowed with
  | false =>
      obtain ⟨_, rest, rfl, ended⟩ := Dialogue.trace_ask.mp admitted
      obtain ⟨rfl, rfl⟩ := Dialogue.trace_done.mp ended
      rfl
  | true =>
      obtain ⟨remaining, more⟩ := Nat.exists_eq_succ_of_ne_zero tries
      obtain ⟨before, attempted, after, rfl, attempting, ended⟩ := Dialogue.trace_bind.mp admitted
      rw [attempt, more] at attempting
      obtain ⟨some, rfl⟩ := attemptFrom_concludes attempting
      have whole : outcomes (⟨.clock, now⟩ :: ⟨.allow 0 0, true⟩ :: (before ++ after)) =
          outcomes before ++ outcomes after := outcomes_append before after
      have called : (outcomes before).isEmpty = false := List.isEmpty_eq_false_iff.mpr some
      have quiet : outcomes after = [] := by
        split at ended <;> obtain ⟨rfl, _⟩ := Dialogue.trace_done.mp ended <;> rfl
      rw [whole, quiet, List.append_nil]
      split at ended
      · rename_i e raised
        rw [concluded, called, raised]
        exact (Dialogue.trace_done.mp ended).2.symm
      · rename_i generation failure answered
        rw [concluded, called, answered]
        exact (Dialogue.trace_done.mp ended).2.symm
      · rename_i failure failed
        rw [concluded, called, failed]
        exact (Dialogue.trace_done.mp ended).2.symm

end GatewayProvider

end ProductionRag
