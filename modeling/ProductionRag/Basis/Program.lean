import ProductionRag.Basis.Mealy

/-!
# Programs over a machine

A program sends events to a machine and goes on with each answer.  Between two events
of one program, the machine may serve others.
-/

set_option autoImplicit false

namespace Basis

universe u v w x y

inductive Program (ε : Type v) (ω : Type w) (α : Type y) where
  | done (result : α)
  | call (event : ε) (next : ω → Program ε ω α)

namespace Program

variable {σ : Type u} {ε : Type v} {ω : Type w} {τ : Type x} {α : Type y}

/-- A program alone with the machine.  Every event takes its turn from `turns`. -/
def run (machine : Mealy σ (ε × τ) ω) (turns : Nat → τ) (state : σ) :
    Program ε ω α → α × σ
  | .done result => (result, state)
  | .call event next =>
    let answer := machine.step state (event, turns 0)
    run machine (fun n => turns (n + 1)) answer.2 (next answer.1)

/-- Every event the program may come to send meets `p`. -/
inductive Sends (p : ε → Prop) : Program ε ω α → Prop
  | done (result : α) : Sends p (.done result)
  | call {event : ε} {next : ω → Program ε ω α} (meets : p event)
      (later : ∀ answer, Sends p (next answer)) : Sends p (.call event next)

section Sends

variable {machine : Mealy σ (ε × τ) ω} {p : ε → Prop} {program : Program ε ω α}

/-- What no event of a program moves, the program does not move. -/
theorem Sends.run_keeps {ν : Type u} {view : σ → ν} (sends : Sends p program)
    (still : ∀ state event turn, p event → view (machine.step state (event, turn)).2 = view state)
    (turns : Nat → τ) (state : σ) : view (program.run machine turns state).2 = view state := by
  induction sends generalizing turns state with
  | done result => rfl
  | call meets later ih => exact (ih _ _ _).trans (still state _ (turns 0) meets)

/-- What each event of a program keeps, the program keeps. -/
theorem Sends.run_preserves {Inv : σ → Prop} (sends : Sends p program)
    (keeps : ∀ state event turn, p event → Inv state → Inv (machine.step state (event, turn)).2)
    (turns : Nat → τ) {state : σ} (holds : Inv state) : Inv (program.run machine turns state).2 := by
  induction sends generalizing turns state with
  | done result => exact holds
  | call meets later ih => exact ih _ _ (keeps state _ (turns 0) meets holds)

end Sends

/-! ## One program over two machines -/

section Alike

variable {β : Type y}

def map (f : α → β) : Program ε ω α → Program ε ω β
  | .done result => .done (f result)
  | .call event next => .call event fun answer => map f (next answer)

/-- Every event the program sends meets the guard in the state it finds. -/
def Meets (machine : Mealy σ (ε × τ) ω) (guard : σ → ε → Prop) (turns : Nat → τ) (state : σ) :
    Program ε ω α → Prop
  | .done _ => True
  | .call event next =>
    let answer := machine.step state (event, turns 0)
    guard state event ∧ Meets machine guard (fun n => turns (n + 1)) answer.2 (next answer.1)

/-- Programs that send the same events, go on alike after alike answers, and end alike. -/
inductive Alike (answers : ω → ω → Prop) (results : α → β → Prop) :
    Program ε ω α → Program ε ω β → Prop
  | done {first : α} {second : β} (same : results first second) :
      Alike answers results (.done first) (.done second)
  | call {event : ε} {next : ω → Program ε ω α} {next' : ω → Program ε ω β}
      (later : ∀ answer answer', answers answer answer' →
        Alike answers results (next answer) (next' answer')) :
      Alike answers results (.call event next) (.call event next')

variable {answers : ω → ω → Prop} {results : α → β → Prop}

theorem Alike.map {α' β' : Type y} {results' : α' → β' → Prop} {f : α → α'} {g : β → β'}
    {program : Program ε ω α} {other : Program ε ω β} (alike : Alike answers results program other)
    (same : ∀ first second, results first second → results' (f first) (g second)) :
    Alike answers results' (program.map f) (other.map g) := by
  induction alike with
  | done ended => exact .done (same _ _ ended)
  | call _ ih => exact .call ih

/-- Machines that answer guarded events alike run alike programs alike. -/
theorem Alike.run {ν : Type x} {υ : Type u} {left : Mealy σ (ε × τ) ω} {right : Mealy υ (ε × ν) ω}
    {guard : υ → ε → Prop} {related : σ → υ → Prop}
    (steps : ∀ state other event turn turn', related state other → guard other event →
      answers (left.step state (event, turn)).1 (right.step other (event, turn')).1 ∧
        related (left.step state (event, turn)).2 (right.step other (event, turn')).2)
    {program : Program ε ω α} {program' : Program ε ω β}
    (alike : Alike answers results program program') (turns : Nat → τ) (turns' : Nat → ν)
    {state : σ} {other : υ} (start : related state other)
    (meets : program'.Meets right guard turns' other) :
    results (program.run left turns state).1 (program'.run right turns' other).1 ∧
      related (program.run left turns state).2 (program'.run right turns' other).2 := by
  induction alike generalizing turns turns' state other with
  | done same => exact ⟨same, start⟩
  | call later ih =>
      obtain ⟨allowed, rest⟩ := meets
      obtain ⟨same, next⟩ := steps state other _ (turns 0) (turns' 0) start allowed
      exact ih _ _ same _ _ next rest

end Alike

/-! ## Two programs in turns -/

section Interleaved

variable {ν : Type u} {β : Type y} {machine : Mealy σ (ε × τ) ω} {view : σ → ν}

/-- Both programs end, in some order of their events; each event takes some turn. -/
inductive Interleaved (machine : Mealy σ (ε × τ) ω) :
    σ → Program ε ω α → Program ε ω β → σ → Prop
  | done (state : σ) (first : α) (second : β) :
      Interleaved machine state (.done first) (.done second) state
  | left {state final : σ} {event : ε} {next : ω → Program ε ω α} {other : Program ε ω β} (turn : τ)
      (later : Interleaved machine (machine.step state (event, turn)).2
        (next (machine.step state (event, turn)).1) other final) :
      Interleaved machine state (.call event next) other final
  | right {state final : σ} {event : ε} {next : ω → Program ε ω β} {other : Program ε ω α}
      (turn : τ)
      (later : Interleaved machine (machine.step state (event, turn)).2 other
        (next (machine.step state (event, turn)).1) final) :
      Interleaved machine state other (.call event next) final

/-- Whatever the program is told, one of its events changes what is in view as the effect says,
and the others leave it alone. -/
inductive Owes (machine : Mealy σ (ε × τ) ω) (view : σ → ν) : Program ε ω α → (ν → ν) → Prop
  | done (result : α) : Owes machine view (.done result) id
  | quiet {event : ε} {next : ω → Program ε ω α} {effect : ν → ν}
      (still : ∀ state turn, view (machine.step state (event, turn)).2 = view state)
      (later : ∀ state turn, Owes machine view (next (machine.step state (event, turn)).1) effect) :
      Owes machine view (.call event next) effect
  | write {event : ε} {next : ω → Program ε ω α} {effect : ν → ν}
      (writes : ∀ state turn, view (machine.step state (event, turn)).2 = effect (view state))
      (later : ∀ state turn, Owes machine view (next (machine.step state (event, turn)).1) id) :
      Owes machine view (.call event next) effect

/-- The program looks once, and owes what it decides on then. -/
inductive Decides (machine : Mealy σ (ε × τ) ω) (view : σ → ν) :
    Program ε ω α → (ν → ν → ν) → Prop
  | owes {program : Program ε ω α} {effect : ν → ν} (owes : Owes machine view program effect) :
      Decides machine view program fun _ => effect
  | look {event : ε} {next : ω → Program ε ω α} {decide : ν → ν → ν}
      (still : ∀ state turn, view (machine.step state (event, turn)).2 = view state)
      (later : ∀ state turn, Owes machine view (next (machine.step state (event, turn)).1)
        (decide (view state))) :
      Decides machine view (.call event next) decide

theorem Owes.run {program : Program ε ω α} {effect : ν → ν}
    (owes : Owes machine view program effect) (turns : Nat → τ) (state : σ) :
    view (program.run machine turns state).2 = effect (view state) := by
  induction owes generalizing turns state with
  | done result => rfl
  | quiet still later ih =>
      rw [Program.run, ih, still]
  | write writes later ih =>
      rw [Program.run, ih, writes]
      rfl

theorem Decides.run {program : Program ε ω α} {decide : ν → ν → ν}
    (decides : Decides machine view program decide) (turns : Nat → τ) (state : σ) :
    view (program.run machine turns state).2 = decide (view state) (view state) := by
  cases decides with
  | owes owes => exact owes.run turns state
  | look still later => rw [Program.run, (later state _).run, still]

theorem Interleaved.swap {state final : σ} {first : Program ε ω α} {second : Program ε ω β}
    (run : Interleaved machine state first second final) :
    Interleaved machine state second first final := by
  induction run with
  | done state first second => exact .done state second first
  | left turn later ih => exact .right turn ih
  | right turn later ih => exact .left turn ih

end Interleaved

end Program

end Basis
