import Mathlib.Data.List.Forall2
import Mathlib.Tactic.Common

/-!
# Machines that answer

A machine takes an event, answers and moves on.  Two machines that answer alike as
long as a guard holds answer alike along every guarded run.
-/

set_option autoImplicit false

namespace Basis

universe u v w x

structure Mealy (σ : Type u) (ε : Type v) (ω : Type w) where
  step : σ → ε → ω × σ

namespace Mealy

variable {σ : Type u} {τ : Type x} {ε : Type v} {ω : Type w}

/-- The answers along a run. -/
def outputs (machine : Mealy σ ε ω) (state : σ) : List ε → List ω
  | [] => []
  | event :: rest =>
    (machine.step state event).1 :: machine.outputs (machine.step state event).2 rest

/-- The state after a run. -/
def run (machine : Mealy σ ε ω) (state : σ) : List ε → σ
  | [] => state
  | event :: rest => machine.run (machine.step state event).2 rest

/-- Every event of the run meets the guard in the state it finds. -/
def Meets (machine : Mealy σ ε ω) (guard : σ → ε → Prop) (state : σ) : List ε → Prop
  | [] => True
  | event :: rest =>
    guard state event ∧ machine.Meets guard (machine.step state event).2 rest

def Meets.decide (machine : Mealy σ ε ω) (guard : σ → ε → Prop)
    [∀ state event, Decidable (guard state event)] (state : σ) (events : List ε) :
    Decidable (machine.Meets guard state events) :=
  match events with
  | [] => isTrue trivial
  | event :: rest =>
    @instDecidableAnd _ _ _ (Meets.decide machine guard (machine.step state event).2 rest)

instance (machine : Mealy σ ε ω) (guard : σ → ε → Prop)
    [∀ state event, Decidable (guard state event)] (state : σ) (events : List ε) :
    Decidable (machine.Meets guard state events) :=
  Meets.decide machine guard state events

/-- A relation that guarded steps keep, and under which they answer alike. -/
structure Simulation (left : Mealy σ ε ω) (right : Mealy τ ε ω) (guard : τ → ε → Prop)
    (alike : ω → ω → Prop) (related : σ → τ → Prop) : Prop where
  answers : ∀ state other event, related state other → guard other event →
    alike (left.step state event).1 (right.step other event).1
  keeps : ∀ state other event, related state other → guard other event →
    related (left.step state event).2 (right.step other event).2

namespace Simulation

variable {left : Mealy σ ε ω} {right : Mealy τ ε ω} {guard : τ → ε → Prop}
  {alike : ω → ω → Prop} {related : σ → τ → Prop}

end Simulation

/-! ## Events nobody sees -/

/-- The answers to the events of one observer, along a run of everybody's events. -/
def ownOutputs (machine : Mealy σ ε ω) (mine : ε → Bool) (state : σ) : List ε → List ω
  | [] => []
  | event :: rest =>
    let later := machine.ownOutputs mine (machine.step state event).2 rest
    if mine event then (machine.step state event).1 :: later else later

/-- A view of the state that other events leave alone and that decides the answers to
the observer's own. -/
structure Unwinding {ν : Type x} (machine : Mealy σ ε ω) (mine : ε → Bool) (view : σ → ν) :
    Prop where
  hidden : ∀ state event, mine event = false → view (machine.step state event).2 = view state
  answers : ∀ state other event, mine event = true → view state = view other →
    (machine.step state event).1 = (machine.step other event).1
  follows : ∀ state other event, mine event = true → view state = view other →
    view (machine.step state event).2 = view (machine.step other event).2

/-- Two runs that others keep related and that answer the observer alike. -/
theorem ownOutputs_eq_of_related {machine : Mealy σ ε ω} {mine : ε → Bool}
    {related : σ → σ → Prop}
    (hidden : ∀ state other event, mine event = false → related state other →
      related (machine.step state event).2 other)
    (own : ∀ state other event, mine event = true → related state other →
      (machine.step state event).1 = (machine.step other event).1 ∧
        related (machine.step state event).2 (machine.step other event).2)
    {state other : σ} (start : related state other) (events : List ε) :
    machine.ownOutputs mine state events = machine.outputs other (events.filter mine) := by
  induction events generalizing state other with
  | nil => rfl
  | cons event rest ih =>
      cases isOwn : mine event with
      | true =>
          obtain ⟨answer, next⟩ := own state other event isOwn start
          simp only [ownOutputs, isOwn, if_true, List.filter_cons, outputs]
          rw [answer, ih next]
      | false =>
          simp only [ownOutputs, isOwn, Bool.false_eq_true, if_false, List.filter_cons]
          exact ih (hidden state other event isOwn start)

/-- The observer gets the answers they would get if nobody else had done anything. -/
theorem Unwinding.ownOutputs_eq {ν : Type x} {machine : Mealy σ ε ω} {mine : ε → Bool}
    {view : σ → ν} (unwinding : Unwinding machine mine view) {state other : σ}
    (same : view state = view other) (events : List ε) :
    machine.ownOutputs mine state events = machine.outputs other (events.filter mine) := by
  refine @ownOutputs_eq_of_related _ _ _ machine mine (fun left right => view left = view right)
    ?_ ?_ _ _ same events
  · intro left right event others alike
    exact (unwinding.hidden left event others).trans alike
  · intro left right event isOwn alike
    exact ⟨unwinding.answers left right event isOwn alike,
      unwinding.follows left right event isOwn alike⟩

/-- What others do first moves the state and answers nothing to the observer. -/
theorem ownOutputs_append {machine : Mealy σ ε ω} {mine : ε → Bool} {others : List ε}
    (hidden : ∀ event ∈ others, mine event = false) (state : σ) (rest : List ε) :
    machine.ownOutputs mine state (others ++ rest) =
      machine.ownOutputs mine (machine.run state others) rest := by
  induction others generalizing state with
  | nil => rfl
  | cons event others ih =>
      obtain ⟨first, later⟩ := List.forall_mem_cons.mp hidden
      simp only [List.cons_append, ownOutputs, first, Bool.false_eq_true, if_false, run]
      exact ih later _

end Mealy

end Basis
