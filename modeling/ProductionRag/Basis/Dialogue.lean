import Mathlib.Tactic.Common

/-!
# Programs in dialogue with their surroundings

A program asks and waits: each question says what type of answer it takes.  Such a
program always ends, whatever it is told.  A trace is the list of questions with the
answers they got, and fixes the result.
-/

set_option autoImplicit false

namespace Basis

universe u v w

inductive Dialogue (ε : Type u) (ω : ε → Type v) (α : Type w) where
  | done (result : α)
  | ask (question : ε) (next : ω question → Dialogue ε ω α)

/-- A question with the answer it got. -/
structure Exchange {ε : Type u} (ω : ε → Type v) where
  question : ε
  answer : ω question

namespace Dialogue

variable {ε : Type u} {ω : ε → Type v} {α β : Type w}

def bind (first : Dialogue ε ω α) (second : α → Dialogue ε ω β) : Dialogue ε ω β :=
  match first with
  | .done result => second result
  | .ask question next => .ask question fun answer => (next answer).bind second

/-- Told the answers of the log in turn, the program ends with the result. -/
inductive Trace : Dialogue ε ω α → List (Exchange ω) → α → Prop
  | done (result : α) : Trace (.done result) [] result
  | ask {question : ε} {next : ω question → Dialogue ε ω α} {answer : ω question}
      {log : List (Exchange ω)} {result : α} (rest : Trace (next answer) log result) :
      Trace (.ask question next) (⟨question, answer⟩ :: log) result

@[simp] theorem trace_done {returned result : α} {log : List (Exchange ω)} :
    Trace (.done returned) log result ↔ log = [] ∧ returned = result := by
  constructor
  · intro trace
    cases trace with
    | done => exact ⟨rfl, rfl⟩
  · rintro ⟨rfl, rfl⟩
    exact .done _

theorem trace_ask {question : ε} {next : ω question → Dialogue ε ω α}
    {log : List (Exchange ω)} {result : α} :
    Trace (.ask question next) log result ↔
      ∃ answer rest, log = ⟨question, answer⟩ :: rest ∧ Trace (next answer) rest result := by
  constructor
  · intro trace
    cases trace with
    | @ask _ _ answer rest _ later => exact ⟨answer, rest, rfl, later⟩
  · rintro ⟨answer, rest, rfl, later⟩
    exact .ask later

/-- A program that passes on the answer to its only question. -/
theorem trace_single {question : ε} {answer : ω question} {log : List (Exchange ω)} :
    Trace (.ask question .done) log answer ↔ log = [⟨question, answer⟩] := by
  rw [trace_ask]
  constructor
  · rintro ⟨reply, rest, rfl, ended⟩
    obtain ⟨rfl, rfl⟩ := trace_done.mp ended
    rfl
  · rintro rfl
    exact ⟨answer, [], rfl, .done answer⟩

theorem trace_bind {first : Dialogue ε ω α} {second : α → Dialogue ε ω β}
    {log : List (Exchange ω)} {result : β} :
    Trace (first.bind second) log result ↔
      ∃ before middle after, log = before ++ after ∧ Trace first before middle ∧
        Trace (second middle) after result := by
  induction first generalizing log with
  | done returned =>
      constructor
      · intro trace
        exact ⟨[], returned, log, rfl, .done returned, trace⟩
      · rintro ⟨before, middle, after, rfl, ended, trace⟩
        obtain ⟨rfl, rfl⟩ := trace_done.mp ended
        exact trace
  | ask question next ih =>
      rw [bind, trace_ask]
      constructor
      · rintro ⟨answer, rest, rfl, trace⟩
        obtain ⟨before, middle, after, rfl, earlier, later⟩ := (ih answer).mp trace
        exact ⟨⟨question, answer⟩ :: before, middle, after, rfl, .ask earlier, later⟩
      · rintro ⟨before, middle, after, rfl, earlier, later⟩
        obtain ⟨answer, rest, rfl, trace⟩ := trace_ask.mp earlier
        exact ⟨answer, rest ++ after, rfl, (ih answer).mpr ⟨rest, middle, after, rfl, trace, later⟩⟩

/-! ## Questions answered by programs -/

variable {ε' : Type u} {ω' : ε' → Type v} {γ : Type v}

/-- The program with each question answered by another program. -/
def expand (answer : ∀ question, Dialogue ε' ω' (ω question)) :
    Dialogue ε ω γ → Dialogue ε' ω' γ
  | .done result => .done result
  | .ask question next => (answer question).bind fun reply => (next reply).expand answer

/-- The second log holds what the answers of the first one took. -/
inductive Expands (answer : ∀ question, Dialogue ε' ω' (ω question)) :
    List (Exchange ω) → List (Exchange ω') → Prop
  | nil : Expands answer [] []
  | cons {exchange : Exchange ω} {log : List (Exchange ω)} {part rest : List (Exchange ω')}
      (asked : Trace (answer exchange.question) part exchange.answer)
      (later : Expands answer log rest) : Expands answer (exchange :: log) (part ++ rest)

/-- Each question answered by one other. -/
theorem expands_single {answer : ∀ question, Dialogue ε' ω' (ω question)}
    {lift : Exchange ω → Exchange ω'}
    (single : ∀ (exchange : Exchange ω) part,
      Trace (answer exchange.question) part exchange.answer ↔ part = [lift exchange])
    {log : List (Exchange ω)} {log' : List (Exchange ω')} :
    Expands answer log log' ↔ log' = log.map lift := by
  constructor
  · intro expands
    induction expands with
    | nil => rfl
    | cons asked later ih =>
        rw [(single _ _).mp asked, ih]
        rfl
  · rintro rfl
    induction log with
    | nil => exact .nil
    | cons exchange log ih => exact .cons ((single exchange _).mpr rfl) ih

/-- Every question comes from one that it helps to answer. -/
theorem Expands.mem {answer : ∀ question, Dialogue ε' ω' (ω question)}
    {log : List (Exchange ω)} {log' : List (Exchange ω')} (expands : Expands answer log log')
    {exchange : Exchange ω'} (member : exchange ∈ log') :
    ∃ asked ∈ log, ∃ part, Trace (answer asked.question) part asked.answer ∧ exchange ∈ part ∧
      ∀ other ∈ part, other ∈ log' := by
  induction expands with
  | nil => cases member
  | cons asked later ih =>
      rcases List.mem_append.mp member with inPart | inRest
      · exact ⟨_, List.mem_cons_self, _, asked, inPart, fun other => List.mem_append_left _⟩
      · obtain ⟨earlier, inLog, part, told, inPart, whole⟩ := ih inRest
        exact ⟨earlier, List.mem_cons_of_mem _ inLog, part, told, inPart,
          fun other inside => List.mem_append_right _ (whole other inside)⟩

/-- Every question is answered by some part of the log. -/
theorem Expands.part {answer : ∀ question, Dialogue ε' ω' (ω question)}
    {log : List (Exchange ω)} {log' : List (Exchange ω')} (expands : Expands answer log log')
    {asked : Exchange ω} (member : asked ∈ log) :
    ∃ part, Trace (answer asked.question) part asked.answer ∧ ∀ other ∈ part, other ∈ log' := by
  induction expands with
  | nil => cases member
  | cons told later ih =>
      rcases List.mem_cons.mp member with rfl | inLog
      · exact ⟨_, told, fun other => List.mem_append_left _⟩
      · obtain ⟨part, told, whole⟩ := ih inLog
        exact ⟨part, told, fun other inside => List.mem_append_right _ (whole other inside)⟩

theorem trace_expand {answer : ∀ question, Dialogue ε' ω' (ω question)}
    {program : Dialogue ε ω γ} {log : List (Exchange ω')} {result : γ} :
    Trace (program.expand answer) log result ↔
      ∃ abstract, Trace program abstract result ∧ Expands answer abstract log := by
  induction program generalizing log with
  | done returned =>
      rw [expand, trace_done]
      constructor
      · rintro ⟨rfl, rfl⟩
        exact ⟨[], .done returned, .nil⟩
      · rintro ⟨abstract, trace, expands⟩
        obtain ⟨rfl, rfl⟩ := trace_done.mp trace
        cases expands
        exact ⟨rfl, rfl⟩
  | ask question next ih =>
      rw [expand, trace_bind]
      constructor
      · rintro ⟨part, reply, rest, rfl, asked, later⟩
        obtain ⟨abstract, trace, expands⟩ := (ih reply).mp later
        exact ⟨⟨question, reply⟩ :: abstract, .ask trace, .cons asked expands⟩
      · rintro ⟨abstract, trace, expands⟩
        obtain ⟨reply, rest, rfl, later⟩ := trace_ask.mp trace
        cases expands with
        | cons asked others => exact ⟨_, reply, _, rfl, asked, (ih reply).mpr ⟨rest, later, others⟩⟩

/-- Each answer is the one `reply` gives after the exchanges before it. -/
def Answered (reply : List (Exchange ω) → ∀ question, ω question) (past : List (Exchange ω)) :
    List (Exchange ω) → Prop
  | [] => True
  | exchange :: rest =>
    exchange.answer = reply past exchange.question ∧ Answered reply (past ++ [exchange]) rest

/-- However the surroundings answer, the program ends. -/
theorem exists_trace (reply : List (Exchange ω) → ∀ question, ω question)
    (program : Dialogue ε ω α) {past : List (Exchange ω)} :
    ∃ log result, Answered reply past log ∧ Trace program log result := by
  induction program generalizing past with
  | done result => exact ⟨[], result, trivial, .done result⟩
  | ask question next ih =>
      obtain ⟨log, result, answered, trace⟩ :=
        @ih (reply past question) (past ++ [⟨question, reply past question⟩])
      exact ⟨⟨question, reply past question⟩ :: log, result, ⟨rfl, answered⟩, .ask trace⟩

/-! ## Few questions -/

/-- Whatever the answers are, at most so many questions are asked, all of them allowed. -/
inductive Bounded (allowed : ε → Prop) : Nat → Dialogue ε ω α → Prop
  | done (bound : Nat) (result : α) : Bounded allowed bound (.done result)
  | ask {bound : Nat} {question : ε} {next : ω question → Dialogue ε ω α}
      (isAllowed : allowed question) (later : ∀ answer, Bounded allowed bound (next answer)) :
      Bounded allowed (bound + 1) (.ask question next)

theorem Bounded.mono {allowed : ε → Prop} {program : Dialogue ε ω α} {bound more : Nat}
    (bounded : Bounded allowed bound program) (enough : bound ≤ more) :
    Bounded allowed more program := by
  induction bounded generalizing more with
  | done bound result => exact .done more result
  | @ask bound question next isAllowed later ih =>
      cases more with
      | zero => exact absurd enough (Nat.not_succ_le_zero bound)
      | succ more => exact .ask isAllowed fun answer => ih answer (Nat.le_of_succ_le_succ enough)

theorem Bounded.bind {allowed : ε → Prop} {first : Dialogue ε ω α} {second : α → Dialogue ε ω β}
    {bound more : Nat} (bounded : Bounded allowed bound first)
    (later : ∀ result, Bounded allowed more (second result)) :
    Bounded allowed (bound + more) (first.bind second) := by
  induction bounded with
  | done bound result => exact (later result).mono (Nat.le_add_left more bound)
  | @ask bound question next isAllowed _ ih =>
      rw [Nat.succ_add]
      exact .ask isAllowed ih

theorem Bounded.trace {allowed : ε → Prop} {program : Dialogue ε ω α} {bound : Nat}
    (bounded : Bounded allowed bound program) {log : List (Exchange ω)} {result : α}
    (trace : Trace program log result) :
    log.length ≤ bound ∧ ∀ exchange ∈ log, allowed exchange.question := by
  induction trace generalizing bound with
  | done returned => exact ⟨Nat.zero_le _, List.forall_mem_nil _⟩
  | ask later ih =>
      cases bounded with
      | ask isAllowed rest =>
          obtain ⟨few, all⟩ := ih (rest _)
          exact ⟨Nat.succ_le_succ few, List.forall_mem_cons.mpr ⟨isAllowed, all⟩⟩

/-! ## Answers of one type -/

section Answers

variable {κ : Type u} {τ : Type v}

/-- The answers of a log, all of one type. -/
def told (log : List (Exchange fun _ : κ => τ)) : List τ := log.map (·.answer)

/-- A program that gets the same answers asks as much and returns the same. -/
theorem trace_unique {program : Dialogue κ (fun _ => τ) α}
    {log log' : List (Exchange fun _ : κ => τ)} {result result' : α} {rest rest' : List τ}
    (trace : Trace program log result) (trace' : Trace program log' result')
    (same : told log ++ rest = told log' ++ rest') : result = result' ∧ rest = rest' := by
  induction trace generalizing log' with
  | done returned =>
      obtain ⟨rfl, rfl⟩ := trace_done.mp trace'
      exact ⟨rfl, same⟩
  | ask later ih =>
      obtain ⟨answer, others, rfl, later'⟩ := trace_ask.mp trace'
      obtain ⟨rfl, shorter⟩ := List.cons.inj same
      exact ih later' shorter

/-- The program is run any number of times; the answers it gets and what it returns. -/
inductive Repeats (program : Dialogue κ (fun _ => τ) α) : List τ → List α → Prop
  | nil : Repeats program [] []
  | cons {log : List (Exchange fun _ : κ => τ)} {result : α} {answers : List τ}
      {results : List α} (run : Trace program log result)
      (later : Repeats program answers results) :
      Repeats program (told log ++ answers) (result :: results)

/-- Runs of a program that asks something are told apart by their answers. -/
theorem Repeats.unique {question : κ} {next : τ → Dialogue κ (fun _ => τ) α}
    {answers : List τ} {results results' : List α}
    (repeats : Repeats (.ask question next) answers results)
    (repeats' : Repeats (.ask question next) answers results') : results = results' := by
  have asks : ∀ {log : List (Exchange fun _ : κ => τ)} {result : α},
      Trace (.ask question next) log result → told log ≠ [] := by
    intro log result trace
    obtain ⟨answer, rest, rfl, _⟩ := trace_ask.mp trace
    exact List.cons_ne_nil _ _
  induction repeats generalizing results' with
  | nil =>
      generalize none : ([] : List τ) = answers at repeats'
      cases repeats' with
      | nil => rfl
      | cons run later => exact absurd (List.append_eq_nil_iff.mp none.symm).1 (asks run)
  | cons run later ih =>
      generalize same : told _ ++ _ = whole at repeats'
      cases repeats' with
      | nil => exact absurd (List.append_eq_nil_iff.mp same).1 (asks run)
      | cons run' later' =>
          obtain ⟨rfl, rfl⟩ := trace_unique run run' same
          rw [ih later']

end Answers

/-! ## Programs under way -/

/-- The program once its question is answered. -/
def resume [DecidableEq ε] : Dialogue ε ω α → Exchange ω → Option (Dialogue ε ω α)
  | .done _, _ => none
  | .ask question next, exchange =>
    if same : exchange.question = question then some (next (same ▸ exchange.answer)) else none

theorem resume_iff [DecidableEq ε] {program rest : Dialogue ε ω α} {exchange : Exchange ω} :
    program.resume exchange = some rest ↔
      ∃ next, program = .ask exchange.question next ∧ rest = next exchange.answer := by
  cases program with
  | done result => simp [resume]
  | ask question next =>
      rw [resume, Option.dite_none_right_eq_some]
      constructor
      · rintro ⟨rfl, same⟩
        exact ⟨next, rfl, (Option.some.inj same).symm⟩
      · rintro ⟨next', same, rfl⟩
        cases same
        exact ⟨rfl, rfl⟩

/-- Told the answers of the log in turn, the first program has become the second. -/
inductive Reaches (program : Dialogue ε ω α) : List (Exchange ω) → Dialogue ε ω α → Prop
  | refl : Reaches program [] program
  | told {log : List (Exchange ω)} {exchange : Exchange ω}
      {next : ω exchange.question → Dialogue ε ω α}
      (earlier : Reaches program log (.ask exchange.question next)) :
      Reaches program (log ++ [exchange]) (next exchange.answer)

theorem Reaches.trace {program rest : Dialogue ε ω α} {log more : List (Exchange ω)} {result : α}
    (reaches : Reaches program log rest) (trace : Trace rest more result) :
    Trace program (log ++ more) result := by
  induction reaches generalizing more with
  | refl => exact trace
  | told earlier ih =>
      rw [List.append_assoc]
      exact ih (.ask trace)

/-- A program under way ends when the rest of its questions is answered. -/
theorem Reaches.exists_trace {program rest : Dialogue ε ω α} {log : List (Exchange ω)}
    (reaches : Reaches program log rest) (reply : ∀ question, ω question) :
    ∃ more result, Trace program (log ++ more) result ∧
      ∀ exchange ∈ more, exchange.answer = reply exchange.question := by
  obtain ⟨more, result, answered, trace⟩ := @Dialogue.exists_trace ε ω α (fun _ => reply) rest []
  refine ⟨more, result, reaches.trace trace, ?_⟩
  clear trace
  generalize ([] : List (Exchange ω)) = past at answered
  induction more generalizing past with
  | nil => exact List.forall_mem_nil _
  | cons exchange more ih =>
      exact List.forall_mem_cons.mpr ⟨answered.1, ih _ answered.2⟩

end Dialogue

end Basis
