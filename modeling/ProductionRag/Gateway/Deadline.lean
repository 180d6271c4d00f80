import Mathlib.Tactic.Linarith
import ProductionRag.Gateway.Complete

/-!
# The deadline

On a logical clock a call takes as long as the script says, sleeping takes what was asked for,
and nothing else takes time.  The deadline is looked at before a sleep only, so the last call
of each provider may begin in time and end late, and the first call of a provider may begin
late.
-/

set_option autoImplicit false

namespace ProductionRag

open Basis

/-- How the surroundings answer, and how long calls take, after the exchanges so far. -/
structure Script where
  answer : List (Exchange GatewayAnswer) → (question : GatewayQuestion) → GatewayAnswer question
  took : List (Exchange GatewayAnswer) → ℚ

/-- What happens: every exchange with the time it begins at, the result, and the time at the
end. -/
structure Timeline (α : Type) where
  log : List (ℚ × Exchange GatewayAnswer)
  result : α
  stop : ℚ

namespace Script

/-- The clock is read off the time. -/
def reply (script : Script) (past : List (Exchange GatewayAnswer)) (now : ℚ) :
    (question : GatewayQuestion) → GatewayAnswer question
  | .clock => now
  | question => script.answer past question

def ends (script : Script) (past : List (Exchange GatewayAnswer)) (now : ℚ) :
    GatewayQuestion → ℚ
  | .call .. => now + script.took past
  | .sleep delay => now + delay
  | _ => now

def run {α : Type} (script : Script) :
    GatewayDialogue α → List (Exchange GatewayAnswer) → ℚ → Timeline α
  | .done result, _, now => { log := [], result, stop := now }
  | .ask question next, past, now =>
    let answer := script.reply past now question
    let rest := script.run (next answer) (past ++ [⟨question, answer⟩])
      (script.ends past now question)
    { rest with log := (now, ⟨question, answer⟩) :: rest.log }

/-- Every run of a script is a run of the program. -/
theorem run_trace {α : Type} (script : Script) (program : GatewayDialogue α)
    (past : List (Exchange GatewayAnswer)) (now : ℚ) :
    program.Trace ((script.run program past now).log.map (·.2))
      (script.run program past now).result := by
  induction program generalizing past now with
  | done result => exact .done result
  | ask question next ih => exact .ask (ih _ _ _)

end Script

/-! ## What holds however long the calls take -/

/-- The exchange may take from one time to the other. -/
def Elapses (tau now next : ℚ) : Exchange GatewayAnswer → Prop
  | ⟨.clock, reading⟩ => reading = now ∧ next = now
  | ⟨.call .., _⟩ => now ≤ next ∧ next ≤ now + tau
  | ⟨.sleep delay, _⟩ => next = now + delay
  | _ => next = now

/-- Sleeps end, and retries begin, before the deadline. -/
def InTime (deadline now : ℚ) : Exchange GatewayAnswer → Prop
  | ⟨.sleep delay, _⟩ => now + delay < deadline
  | ⟨.call _ attempt _ _ _, _⟩ => 1 < attempt → now < deadline
  | _ => True

/-- From this time on, however long the calls take, the exchanges of the log are in time, and
the end satisfies the postcondition. -/
def Keeps (tau deadline : ℚ) : ℚ → List (Exchange GatewayAnswer) → (ℚ → Prop) → Prop
  | now, [], post => post now
  | now, exchange :: rest, post =>
    InTime deadline now exchange ∧
      ∀ next, Elapses tau now next exchange → Keeps tau deadline next rest post

section Keeps

variable {tau deadline now : ℚ} {log rest : List (Exchange GatewayAnswer)} {post : ℚ → Prop}

theorem keeps_append :
    Keeps tau deadline now (log ++ rest) post ↔
      Keeps tau deadline now log fun middle => Keeps tau deadline middle rest post := by
  induction log generalizing now with
  | nil => exact Iff.rfl
  | cons exchange log ih => simp only [List.cons_append, Keeps, ih]

theorem Keeps.mono {post' : ℚ → Prop} (keeps : Keeps tau deadline now log post)
    (weaker : ∀ stop, post stop → post' stop) : Keeps tau deadline now log post' := by
  induction log generalizing now with
  | nil => exact weaker now keeps
  | cons exchange log ih =>
      exact ⟨keeps.1, fun next passes => ih (keeps.2 next passes)⟩

/-- A run of a script takes the calls as long as it says. -/
theorem Script.run_keeps {α : Type} (script : Script)
    (bounded : ∀ past, 0 ≤ script.took past ∧ script.took past ≤ tau)
    (program : GatewayDialogue α) (past : List (Exchange GatewayAnswer))
    (keeps : Keeps tau deadline now ((script.run program past now).log.map (·.2)) post) :
    (∀ entry ∈ (script.run program past now).log, InTime deadline entry.1 entry.2) ∧
      post (script.run program past now).stop := by
  induction program generalizing past now with
  | done result => exact ⟨List.forall_mem_nil _, keeps⟩
  | ask question next ih =>
      obtain ⟨inTime, later⟩ := keeps
      have passes : Elapses tau now (script.ends past now question)
          ⟨question, script.reply past now question⟩ := by
        cases question with
        | clock => exact ⟨rfl, rfl⟩
        | call =>
            obtain ⟨nonneg, short⟩ := bounded past
            exact ⟨le_add_of_nonneg_right nonneg, add_le_add_right short now⟩
        | _ => rfl
      obtain ⟨others, ended⟩ := ih _ _ (later _ passes)
      exact ⟨List.forall_mem_cons.mpr ⟨inTime, others⟩, ended⟩

end Keeps

namespace GatewayProvider

section Bounds

variable {gateway : GatewayProvider} {question : String} {context : List String}
  {history : List ChatTurn} {deadline tau now : ℚ} {log : List (Exchange GatewayAnswer)}

/-- Deciding to go on takes no time, and the clock it reads is right. -/
theorem Pause.keeps {exc : Raised} {attempt : Nat} {waits rest : List (Exchange GatewayAnswer)}
    {reading : ℚ} {post : ℚ → Prop} (pause : gateway.Pause exc attempt waits reading)
    (later : reading = now → Keeps tau deadline now rest post) :
    Keeps tau deadline now (waits ++ rest) post := by
  obtain ⟨drawing, rfl, jitter⟩ := pause.split
  clear pause
  rw [List.append_assoc]
  induction drawing with
  | nil =>
      refine ⟨trivial, ?_⟩
      rintro next ⟨isNow, rfl⟩
      exact later isNow
  | cons exchange drawing ih =>
      obtain ⟨⟨high, drawn, rfl⟩, others⟩ := List.forall_mem_cons.mp jitter
      refine ⟨trivial, ?_⟩
      rintro next rfl
      exact ih others

/-- A failed call that began in time, and what comes after it. -/
theorem failed_keeps {provider attempt : Nat} {exc : Raised}
    {waits : List (Exchange GatewayAnswer)} {post : ℚ → Prop}
    (inTime : 1 < attempt → now < deadline)
    (later : ∀ next, now ≤ next → next ≤ now + tau → Keeps tau deadline next waits post) :
    Keeps tau deadline now (failed provider attempt question context history exc waits) post := by
  refine ⟨inTime, ?_⟩
  rintro next ⟨after, before⟩
  refine ⟨trivial, ?_⟩
  rintro recorded rfl
  exact later recorded after before

theorem attemptFrom_keeps {provider : Nat} {name : String} {remaining attempt : Nat}
    {failure : Option String} {result : Except PyError Attempted} (nonneg : 0 ≤ tau)
    (inTime : 1 < attempt → now < deadline)
    (trace : (gateway.attemptFrom provider name question context history deadline remaining
      attempt failure).Trace log result) :
    Keeps tau deadline now log fun stop => stop ≤ max now deadline + tau := by
  have fromNow := le_max_left now deadline
  have fromDeadline := le_max_right now deadline
  induction remaining generalizing attempt failure log now with
  | zero =>
      obtain ⟨rfl, rfl⟩ := Dialogue.trace_done.mp trace
      exact le_add_of_le_of_nonneg fromNow nonneg
  | succ remaining ih =>
      have oneCall : ∀ next, next ≤ now + tau → next ≤ max now deadline + tau :=
        fun next before => before.trans (add_le_add_left fromNow tau)
      cases attemptFrom_round trace with
      | answered generation =>
          refine ⟨inTime, ?_⟩
          rintro next ⟨_, before⟩
          refine ⟨trivial, ?_⟩
          rintro recorded rfl
          exact oneCall recorded before
      | gaveUp exc failure last =>
          exact failed_keeps inTime fun next _ before => oneCall next before
      | malformed exc e retryable early bad =>
          exact failed_keeps inTime fun next _ before => oneCall next before
      | late exc failure waits delay reading pause tooLate =>
          refine failed_keeps inTime fun next _ before => ?_
          rw [← List.append_nil waits]
          exact pause.keeps fun _ => oneCall next before
      | refused exc failure waits delay reading pause tooLate =>
          refine failed_keeps inTime fun next _ before => pause.keeps fun _ => ⟨trivial, ?_⟩
          rintro asked rfl
          exact oneCall asked before
      | again exc failure waits delay reading pause before rest result again =>
          -- The clock was read at the time the sleep begins, so the sleep ends in time.
          refine failed_keeps inTime fun next _ _ => pause.keeps fun isNow => ⟨trivial, ?_⟩
          rintro asked rfl
          rw [isNow] at before
          refine ⟨before, ?_⟩
          rintro woken rfl
          refine (ih (fun _ => before) again (le_max_left _ _) (le_max_right _ _)).mono ?_
          intro stop bound
          rw [max_eq_right before.le] at bound
          exact bound.trans (add_le_add_left fromDeadline tau)

theorem completeFrom_keeps {names notes : List String} {provider : Nat}
    {result : Except PyError Generation} (nonneg : 0 ≤ tau)
    (trace : (gateway.completeFrom question context history deadline names provider notes).Trace
      log result) :
    Keeps tau deadline now log fun stop => stop ≤ max now deadline + names.length * tau := by
  induction names generalizing provider notes log now with
  | nil =>
      obtain ⟨rfl, rfl⟩ := Dialogue.trace_done.mp trace
      rw [Keeps, List.length_nil, Nat.cast_zero, zero_mul, add_zero]
      exact le_max_left _ _
  | cons name rest ih =>
      have others : (0 : ℚ) ≤ rest.length * tau := mul_nonneg (Nat.cast_nonneg _) nonneg
      have split : ((name :: rest).length : ℚ) * tau = tau + rest.length * tau := by
        rw [List.length_cons, Nat.cast_add, Nat.cast_one]
        ring
      obtain ⟨allowed, later, rfl, admitted⟩ := Dialogue.trace_ask.mp trace
      clear trace
      rw [split]
      refine ⟨trivial, ?_⟩
      rintro asked rfl
      cases allowed with
      | false =>
          obtain ⟨state, after, rfl, skipped⟩ := Dialogue.trace_ask.mp admitted
          refine ⟨trivial, ?_⟩
          rintro read rfl
          exact (ih skipped).mono fun stop bound => by linarith
      | true =>
          obtain ⟨calls, attempted, after, rfl, tried, settled⟩ := Dialogue.trace_bind.mp admitted
          have first : Keeps tau deadline asked calls fun stop =>
              stop ≤ max asked deadline + tau :=
            attemptFrom_keeps nonneg (fun wrong => absurd wrong (lt_irrefl 1)) tried
          refine keeps_append.mpr (first.mono fun middle bound => ?_)
          have ended : after = [] → Keeps tau deadline middle after fun stop =>
              stop ≤ max asked deadline + (tau + rest.length * tau) := by
            rintro rfl
            exact bound.trans (by linarith)
          cases attempted with
          | error e => exact ended (Dialogue.trace_done.mp settled).1
          | ok attempted =>
              obtain ⟨_ | generation, failure⟩ := attempted
              · refine (ih settled).mono fun stop last => last.trans ?_
                have far : max middle deadline ≤ max asked deadline + tau :=
                  max_le bound (le_add_of_le_of_nonneg (le_max_right _ _) nonneg)
                linarith
              · exact ended (Dialogue.trace_done.mp settled).1

end Bounds

/-- Every run ends, at the latest one call for each provider after the deadline; no sleep ends
and no retry begins past the deadline. -/
theorem complete_in_time (gateway : GatewayProvider) {tau : ℚ} (nonneg : 0 ≤ tau)
    (future : 0 ≤ gateway.deadline) (script : Script)
    (bounded : ∀ past, 0 ≤ script.took past ∧ script.took past ≤ tau) (question : String)
    (context : List String) (history : List ChatTurn) (start : ℚ) :
    let timeline := script.run (gateway.complete question context history) [] start
    (∀ time delay, (time, (⟨.sleep delay, ()⟩ : Exchange GatewayAnswer)) ∈ timeline.log →
      time + delay < start + gateway.deadline) ∧
    (∀ time provider attempt question context history outcome,
      (time, (⟨.call provider attempt question context history, outcome⟩ :
        Exchange GatewayAnswer)) ∈ timeline.log →
      1 < attempt → time < start + gateway.deadline) ∧
    timeline.stop ≤ start + gateway.deadline + gateway.providers.length * tau := by
  intro timeline
  obtain ⟨reading, rest, same, started⟩ := Dialogue.trace_ask.mp
    (script.run_trace (gateway.complete question context history) [] start)
  have keeps : Keeps tau (start + gateway.deadline) start (timeline.log.map (·.2))
      fun stop => stop ≤ start + gateway.deadline + gateway.providers.length * tau := by
    rw [same]
    refine ⟨trivial, ?_⟩
    rintro next ⟨rfl, rfl⟩
    refine (completeFrom_keeps nonneg started).mono fun stop bound => ?_
    rwa [max_eq_right (le_add_of_nonneg_right future)] at bound
  obtain ⟨inTime, ended⟩ := script.run_keeps bounded _ _ keeps
  exact ⟨fun time delay member => inTime _ member,
    fun time provider attempt question context history outcome member => inTime _ member, ended⟩

/-- Every call takes two seconds; the first of a provider is rate limited, the second answers. -/
def slowScript : Script where
  answer
    | _, .clock => 0
    | _, .allow .. => true
    | _, .state _ => .closed
    | _, .recordSuccess _ => ()
    | _, .recordFailure _ => ()
    | _, .call _ 1 .. => .error { http := some { code := 429, retryAfter := "3" } }
    | _, .call .. => .ok { text := "an answer", model := "model" }
    | _, .uniform high => high
    | _, .sleep _ => ()
  took _ := 2

theorem slow_in_time :
    let gateway : GatewayProvider := { providers := ["model"], deadline := 6 }
    let timeline := slowScript.run (gateway.complete "q" ["evidence"] []) [] 10
    timeline.stop = 17 ∧ timeline.result.toOption.map (·.text) = some "an answer" ∧
      timeline.stop ≤ 10 + 6 + (1 : Nat) * 2 := by
  intro gateway timeline
  have two : (0 : ℚ) ≤ 2 := by decide +kernel
  have inTime := complete_in_time gateway two (by decide +kernel) slowScript
    (fun _ => ⟨two, le_refl _⟩) "q" ["evidence"] [] 10
  exact ⟨by decide +kernel, by decide +kernel, inTime.2.2⟩

end GatewayProvider

end ProductionRag
