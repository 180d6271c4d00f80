import Mathlib.Data.List.Induction
import Mathlib.Tactic.Common

/-!
# Systems that refuse steps

A system starts in one state and takes labelled steps, some of which it refuses.  A
run is a list of labels, all taken.  A guard restricts runs to labels that meet it in
the state they find; what every guarded step keeps, every guarded run keeps.
-/

set_option autoImplicit false

namespace Basis

universe u v

structure System (σ : Type u) (ε : Type v) where
  start : σ
  step : σ → ε → Option σ

namespace System

variable {σ : Type u} {ε : Type v} (system : System σ ε)

/-- The state after a run, if no label of it is refused. -/
def exec (state : σ) : List ε → Option σ
  | [] => some state
  | event :: rest =>
    match system.step state event with
    | none => none
    | some next => exec next rest

/-- Every label of the run meets the guard in the state it finds. -/
def Meets (guard : σ → ε → Prop) (state : σ) : List ε → Prop
  | [] => True
  | event :: rest =>
    guard state event ∧
      match system.step state event with
      | none => True
      | some next => Meets guard next rest

def Meets.decide (guard : σ → ε → Prop) [∀ state event, Decidable (guard state event)]
    (state : σ) (events : List ε) : Decidable (system.Meets guard state events) :=
  match events with
  | [] => isTrue trivial
  | event :: rest =>
    let next : Decidable
        (match system.step state event with
          | none => True
          | some next => system.Meets guard next rest) :=
      match system.step state event with
      | none => isTrue trivial
      | some next => Meets.decide guard next rest
    @instDecidableAnd _ _ _ next

instance (guard : σ → ε → Prop) [∀ state event, Decidable (guard state event)] (state : σ)
    (events : List ε) : Decidable (system.Meets guard state events) :=
  Meets.decide system guard state events

variable {system} {guard : σ → ε → Prop}

theorem exec_cons {state final : σ} {event : ε} {rest : List ε} :
    system.exec state (event :: rest) = some final ↔
      ∃ next, system.step state event = some next ∧ system.exec next rest = some final := by
  simp only [exec]
  cases system.step state event with
  | none => simp
  | some next => simp

theorem exec_append {state final : σ} {past future : List ε} :
    system.exec state (past ++ future) = some final ↔
      ∃ middle, system.exec state past = some middle ∧
        system.exec middle future = some final := by
  induction past generalizing state with
  | nil => simp [exec]
  | cons event rest ih =>
      rw [List.cons_append, exec_cons]
      constructor
      · intro ran
        obtain ⟨next, taken, later⟩ := ran
        obtain ⟨middle, before, after⟩ := ih.mp later
        exact ⟨middle, exec_cons.mpr ⟨next, taken, before⟩, after⟩
      · intro ran
        obtain ⟨middle, before, after⟩ := ran
        obtain ⟨next, taken, later⟩ := exec_cons.mp before
        exact ⟨next, taken, ih.mpr ⟨middle, later, after⟩⟩

theorem meets_cons {state next : σ} {event : ε} {rest : List ε}
    (taken : system.step state event = some next) :
    system.Meets guard state (event :: rest) ↔
      guard state event ∧ system.Meets guard next rest := by
  simp only [Meets, taken]

theorem meets_append {state middle : σ} {past future : List ε}
    (ran : system.exec state past = some middle) :
    system.Meets guard state (past ++ future) ↔
      system.Meets guard state past ∧ system.Meets guard middle future := by
  induction past generalizing state with
  | nil =>
      obtain rfl := Option.some.inj ran
      simp [Meets]
  | cons event rest ih =>
      obtain ⟨next, taken, later⟩ := exec_cons.mp ran
      rw [List.cons_append, meets_cons taken, meets_cons taken, ih later, and_assoc]

theorem Meets.mono {strong : σ → ε → Prop} (weaker : ∀ state event, strong state event →
    guard state event) {state : σ} {events : List ε}
    (meets : system.Meets strong state events) : system.Meets guard state events := by
  induction events generalizing state with
  | nil => trivial
  | cons event rest ih =>
      obtain ⟨allowed, later⟩ := meets
      refine ⟨weaker state event allowed, ?_⟩
      cases taken : system.step state event with
      | none => trivial
      | some next =>
          rw [taken] at later
          exact ih later

theorem meets_and {other : σ → ε → Prop} {state : σ} {events : List ε}
    (first : system.Meets guard state events) (second : system.Meets other state events) :
    system.Meets (fun state event => guard state event ∧ other state event) state events := by
  induction events generalizing state with
  | nil => trivial
  | cons event rest ih =>
      refine ⟨⟨first.1, second.1⟩, ?_⟩
      have firstLater := first.2
      have secondLater := second.2
      cases taken : system.step state event with
      | none => trivial
      | some next =>
          rw [taken] at firstLater secondLater
          exact ih firstLater secondLater

/-- A guard that holds wherever the run gets to is met. -/
theorem meets_of_forall {state : σ} {events : List ε}
    (holds : ∀ past event future middle, events = past ++ event :: future →
      system.exec state past = some middle → guard middle event) :
    system.Meets guard state events := by
  induction events generalizing state with
  | nil => trivial
  | cons event rest ih =>
      refine ⟨holds [] event rest state rfl rfl, ?_⟩
      cases taken : system.step state event with
      | none => trivial
      | some next =>
          apply ih
          intro past later future middle split ran
          exact holds (event :: past) later future middle (congrArg (event :: ·) split)
            (exec_cons.mpr ⟨next, taken, ran⟩)

/-- What every guarded step keeps, every guarded run keeps. -/
theorem exec_keeps (Inv : σ → Prop)
    (keeps : ∀ state event next, Inv state → guard state event →
      system.step state event = some next → Inv next)
    {state final : σ} {events : List ε} (ran : system.exec state events = some final)
    (meets : system.Meets guard state events) (holds : Inv state) : Inv final := by
  induction events generalizing state with
  | nil =>
      obtain rfl := Option.some.inj ran
      exact holds
  | cons event rest ih =>
      obtain ⟨next, taken, later⟩ := exec_cons.mp ran
      obtain ⟨allowed, others⟩ := (meets_cons taken).mp meets
      exact ih later others (keeps state event next holds allowed taken)

/-- What every step keeps, every run keeps. -/
theorem exec_preserves (Inv : σ → Prop)
    (keeps : ∀ state event next, Inv state → system.step state event = some next → Inv next)
    {state final : σ} {events : List ε} (ran : system.exec state events = some final)
    (holds : Inv state) : Inv final := by
  have meets : system.Meets (fun _ _ => True) state events :=
    meets_of_forall fun _ _ _ _ _ _ => trivial
  exact exec_keeps Inv (fun state event next holds _ => keeps state event next holds) ran meets
    holds

/-- What holds of the empty run and across every guarded step holds of every guarded run
so far. -/
theorem exec_keeps_history (Inv : List ε → σ → Prop) {start final : σ} (init : Inv [] start)
    (keeps : ∀ past state event next, Inv past state → guard state event →
      system.step state event = some next → Inv (past ++ [event]) next)
    {events : List ε} (ran : system.exec start events = some final)
    (meets : system.Meets guard start events) : Inv events final := by
  induction events using List.reverseRecOn generalizing final with
  | nil =>
      obtain rfl := Option.some.inj ran
      exact init
  | append_singleton past event ih =>
      obtain ⟨middle, before, last⟩ := exec_append.mp ran
      obtain ⟨next, taken, ended⟩ := exec_cons.mp last
      obtain rfl := Option.some.inj ended
      obtain ⟨early, late⟩ := (meets_append before).mp meets
      exact keeps past middle event next (ih before early) late.1 taken

/-- What holds of the empty run and across every step holds of every run so far. -/
theorem exec_history (Inv : List ε → σ → Prop) {start final : σ} (init : Inv [] start)
    (keeps : ∀ past state event next, Inv past state → system.step state event = some next →
      Inv (past ++ [event]) next)
    {events : List ε} (ran : system.exec start events = some final) : Inv events final := by
  have meets : system.Meets (fun _ _ => True) start events :=
    meets_of_forall fun _ _ _ _ _ _ => trivial
  exact exec_keeps_history Inv init
    (fun past state event next holds _ => keeps past state event next holds) ran meets

/-- What holds after a run, but did not at its start, began with some step and has not been ended
since. -/
theorem exec_since {Holds : σ → Prop} {begins ends : σ → ε → Prop} {start final : σ}
    (init : ¬ Holds start)
    (steps : ∀ state event next, system.step state event = some next → Holds next →
      begins state event ∨ (Holds state ∧ ¬ ends state event))
    {events : List ε} (ran : system.exec start events = some final) (holds : Holds final) :
    ∃ past event future before after, events = past ++ event :: future ∧
      system.exec start past = some before ∧ begins before event ∧
      system.step before event = some after ∧
      system.Meets (fun state later => ¬ ends state later) after future := by
  induction events using List.reverseRecOn generalizing final with
  | nil =>
      obtain rfl := Option.some.inj ran
      exact absurd holds init
  | append_singleton past event ih =>
      obtain ⟨middle, before, last⟩ := exec_append.mp ran
      obtain ⟨next, taken, ended⟩ := exec_cons.mp last
      obtain rfl := Option.some.inj ended
      rcases steps middle event next taken holds with begun | ⟨held, notEnded⟩
      · exact ⟨past, event, [], middle, next, rfl, before, begun, taken, trivial⟩
      · obtain ⟨early, first, between, start', after, rfl, ran', begun, began, since⟩ :=
          ih before held
        refine ⟨early, first, between ++ [event], start', after, ?_, ran', begun, began, ?_⟩
        · rw [List.append_assoc, List.cons_append]
        · obtain ⟨start'', same, later⟩ := exec_append.mp before
          obtain rfl := Option.some.inj (ran'.symm.trans same)
          obtain ⟨after', began', reached⟩ := exec_cons.mp later
          obtain rfl := Option.some.inj (began.symm.trans began')
          exact (meets_append reached).mpr ⟨since, (meets_cons taken).mpr ⟨notEnded, trivial⟩⟩

variable (system)

/-- Some guarded run leads to the state. -/
def Reachable (guard : σ → ε → Prop) (state : σ) : Prop :=
  ∃ events, system.exec system.start events = some state ∧
    system.Meets guard system.start events

variable {system}

/-- The invariant rule. -/
theorem Reachable.invariant (Inv : σ → Prop) (init : Inv system.start)
    (keeps : ∀ state event next, Inv state → guard state event →
      system.step state event = some next → Inv next)
    {state : σ} (reached : system.Reachable guard state) : Inv state := by
  obtain ⟨events, ran, meets⟩ := reached
  exact exec_keeps Inv keeps ran meets init

theorem Reachable.later {state final : σ} {events : List ε}
    (reached : system.Reachable guard state) (ran : system.exec state events = some final)
    (meets : system.Meets guard state events) : system.Reachable guard final := by
  obtain ⟨past, before, met⟩ := reached
  exact ⟨past ++ events, exec_append.mpr ⟨state, before, ran⟩,
    (meets_append before).mpr ⟨met, meets⟩⟩

end System

end Basis
