import Mathlib.Algebra.Order.Ring.Rat
import Mathlib.Tactic.Linarith
import ProductionRag.Basis.System

/-!
# The circuit breaker

Closed, then open after enough failures in a row, then half-open after a cool-down: one
request may then test whether the provider recovered.  Each method runs under the
breaker's lock, so concurrent requests interleave whole calls.  The flag that marks the
test is cleared by every record call, whoever makes it.
-/

set_option autoImplicit false

namespace ProductionRag

open Basis

inductive BreakerState where
  | closed
  | halfOpen
  | opened
  deriving DecidableEq, Repr

structure CircuitBreaker where
  failureThreshold : Int := 5
  resetAfter : ℚ := 30
  failures : Nat := 0
  openedAt : Option ℚ := none
  trialInFlight : Bool := false
  deriving DecidableEq

namespace CircuitBreaker

/-- `_state`; the clock is read only once the breaker has opened. -/
def state (breaker : CircuitBreaker) (now : ℚ) : BreakerState :=
  match breaker.openedAt with
  | none => .closed
  | some openedAt => if breaker.resetAfter ≤ now - openedAt then .halfOpen else .opened

def allow (breaker : CircuitBreaker) (now : ℚ) : Bool × CircuitBreaker :=
  match breaker.state now with
  | .closed => (true, breaker)
  | .halfOpen =>
    -- Exactly one request is meant to test whether the provider recovered.
    if breaker.trialInFlight then (false, breaker)
    else (true, { breaker with trialInFlight := true })
  | .opened => (false, breaker)

def recordSuccess (breaker : CircuitBreaker) : CircuitBreaker :=
  { breaker with failures := 0, openedAt := none, trialInFlight := false }

def recordFailure (breaker : CircuitBreaker) (now : ℚ) : CircuitBreaker :=
  { breaker with
    failures := breaker.failures + 1
    trialInFlight := false
    openedAt :=
      if breaker.openedAt.isSome ∨ breaker.failureThreshold ≤ (breaker.failures + 1 : Nat) then
        some now
      else breaker.openedAt }

/-- Everything `allow` can do. -/
theorem allow_cases (breaker : CircuitBreaker) (now : ℚ) :
    breaker.allow now = (false, breaker) ∨
      breaker.state now = .closed ∧ breaker.allow now = (true, breaker) ∨
      breaker.state now = .halfOpen ∧ breaker.trialInFlight = false ∧
        breaker.allow now = (true, { breaker with trialInFlight := true }) := by
  cases phase : breaker.state now with
  | closed => exact .inr (.inl ⟨rfl, by simp only [allow, phase]⟩)
  | opened => exact .inl (by simp only [allow, phase])
  | halfOpen =>
      cases trial : breaker.trialInFlight with
      | true => exact .inl (by simp [allow, phase, trial])
      | false => exact .inr (.inr ⟨rfl, rfl, by simp [allow, phase, trial]⟩)

theorem state_halfOpen {breaker : CircuitBreaker} {now openedAt : ℚ}
    (isOpen : breaker.openedAt = some openedAt) (cooled : breaker.resetAfter ≤ now - openedAt) :
    breaker.state now = .halfOpen := by
  simp only [state, isOpen, if_pos cooled]

theorem state_closed {breaker : CircuitBreaker} (now : ℚ) (isClosed : breaker.openedAt = none) :
    breaker.state now = .closed := by
  simp only [state, isClosed]

end CircuitBreaker

/-! ## Requests that share a breaker -/

/-- A request that `allow` let through and that has not recorded its result. -/
structure Admission where
  request : Nat
  /-- `allow` answered in the half-open state. -/
  probe : Bool
  deriving DecidableEq

inductive BreakerCall where
  | allow
  | recordSuccess
  | recordFailure
  deriving DecidableEq

structure BreakerEvent where
  request : Nat
  now : ℚ
  call : BreakerCall
  deriving DecidableEq

structure Traffic where
  breaker : CircuitBreaker
  now : ℚ
  inFlight : List Admission
  deriving DecidableEq

namespace Traffic

def probes (traffic : Traffic) : List Admission := traffic.inFlight.filter (·.probe)

/-- The request was let through and owes a record call. -/
def waits (traffic : Traffic) (request : Nat) : Bool :=
  traffic.inFlight.any (·.request == request)

/-- `allow` by a request that is not in flight. -/
def letIn (traffic : Traffic) (request : Nat) (now : ℚ) : Traffic :=
  let answer := traffic.breaker.allow now
  { breaker := answer.2, now,
    inFlight :=
      if answer.1 then ⟨request, traffic.breaker.state now = .halfOpen⟩ :: traffic.inFlight
      else traffic.inFlight }

/-- A record call: the request has its result. -/
def settle (traffic : Traffic) (request : Nat) (now : ℚ) (breaker : CircuitBreaker) : Traffic :=
  { breaker, now, inFlight := traffic.inFlight.filter (·.request != request) }

/-- The clock does not go back, and each request that was let through makes one record call
before it asks again. -/
def step (traffic : Traffic) (event : BreakerEvent) : Option Traffic :=
  if event.now < traffic.now then none
  else
    match event.call, traffic.waits event.request with
    | .allow, false => some (traffic.letIn event.request event.now)
    | .recordSuccess, true =>
      some (traffic.settle event.request event.now traffic.breaker.recordSuccess)
    | .recordFailure, true =>
      some (traffic.settle event.request event.now (traffic.breaker.recordFailure event.now))
    | _, _ => none

/-- A new breaker and no request yet. -/
def system (failureThreshold : Int) (resetAfter : ℚ) (now : ℚ) : System Traffic BreakerEvent where
  start := { breaker := { failureThreshold, resetAfter }, now, inFlight := [] }
  step := step

/-- While a probe is in flight, only the probe itself records a result. -/
def NoStaleRecord (traffic : Traffic) (event : BreakerEvent) : Prop :=
  event.call ≠ .allow →
    ∀ admission ∈ traffic.inFlight, admission.probe = true → admission.request = event.request

instance (traffic : Traffic) (event : BreakerEvent) :
    Decidable (traffic.NoStaleRecord event) := by
  unfold NoStaleRecord; infer_instance

/-- Everything a step can do. -/
inductive Move (traffic : Traffic) : BreakerEvent → Traffic → Prop
  | refused {request : Nat} {now : ℚ} (later : traffic.now ≤ now) :
      Move traffic ⟨request, now, .allow⟩ { traffic with now }
  | passed {request : Nat} {now : ℚ} (later : traffic.now ≤ now)
      (isClosed : traffic.breaker.state now = .closed) :
      Move traffic ⟨request, now, .allow⟩
        { traffic with now, inFlight := ⟨request, false⟩ :: traffic.inFlight }
  | probing {request : Nat} {now : ℚ} (later : traffic.now ≤ now)
      (half : traffic.breaker.state now = .halfOpen)
      (untested : traffic.breaker.trialInFlight = false) :
      Move traffic ⟨request, now, .allow⟩
        { breaker := { traffic.breaker with trialInFlight := true }, now,
          inFlight := ⟨request, true⟩ :: traffic.inFlight }
  | succeeded {request : Nat} {now : ℚ} (later : traffic.now ≤ now) :
      Move traffic ⟨request, now, .recordSuccess⟩
        (traffic.settle request now traffic.breaker.recordSuccess)
  | failed {request : Nat} {now : ℚ} (later : traffic.now ≤ now) :
      Move traffic ⟨request, now, .recordFailure⟩
        (traffic.settle request now (traffic.breaker.recordFailure now))

theorem step_move {traffic next : Traffic} {event : BreakerEvent}
    (taken : traffic.step event = some next) : Move traffic event next := by
  obtain ⟨request, now, call⟩ := event
  simp only [step] at taken
  split at taken
  · cases taken
  · rename_i notEarlier
    have later : traffic.now ≤ now := not_lt.mp notEarlier
    split at taken
    · obtain rfl := Option.some.inj taken
      rcases traffic.breaker.allow_cases now with denied | ⟨isClosed, granted⟩ |
        ⟨half, untested, granted⟩
      · simpa [letIn, denied] using @Move.refused traffic request now later
      · simpa [letIn, granted, isClosed] using @Move.passed traffic request now later isClosed
      · simpa [letIn, granted, half] using @Move.probing traffic request now later half untested
    · obtain rfl := Option.some.inj taken
      exact .succeeded later
    · obtain rfl := Option.some.inj taken
      exact .failed later
    · cases taken

/-! ## One probe at a time -/

/-- A probe in flight holds the flag and an open breaker, and is alone. -/
structure Probing (traffic : Traffic) : Prop where
  alone : traffic.probes.length ≤ 1
  marked : traffic.probes ≠ [] → traffic.breaker.trialInFlight = true
  isOpen : traffic.probes ≠ [] → traffic.breaker.openedAt.isSome = true

/-- A record call that meets the guard leaves no probe. -/
theorem probes_settle {traffic : Traffic} {request : Nat} {now : ℚ} (breaker : CircuitBreaker)
    (own : ∀ admission ∈ traffic.inFlight, admission.probe = true →
      admission.request = request) :
    (traffic.settle request now breaker).probes = [] := by
  rw [probes, List.filter_eq_nil_iff]
  intro admission member isProbe
  obtain ⟨waiting, other⟩ := List.mem_filter.mp member
  rw [own admission waiting isProbe] at other
  simp at other

theorem Probing.of_none {traffic : Traffic} (none : traffic.probes = []) : traffic.Probing where
  alone := by simp [none]
  marked some := absurd none some
  isOpen some := absurd none some

theorem Probing.step {traffic next : Traffic} {event : BreakerEvent} (probing : traffic.Probing)
    (fair : traffic.NoStaleRecord event) (taken : traffic.step event = some next) :
    next.Probing := by
  cases step_move taken with
  | refused => exact ⟨probing.alone, probing.marked, probing.isOpen⟩
  | passed => exact ⟨probing.alone, probing.marked, probing.isOpen⟩
  | probing _ half untested =>
      -- The flag is down, so by the invariant nobody else is probing.
      have none : traffic.probes = [] := by
        by_contra some
        rw [probing.marked some] at untested
        cases untested
      have isOpen : traffic.breaker.openedAt.isSome = true := by
        cases opened : traffic.breaker.openedAt with
        | none => rw [CircuitBreaker.state_closed _ opened] at half; cases half
        | some => rfl
      simp only [probes] at none
      exact ⟨by simp [probes, none], fun _ => rfl, fun _ => isOpen⟩
  | succeeded => exact .of_none (probes_settle _ (fair BreakerCall.noConfusion))
  | failed => exact .of_none (probes_settle _ (fair BreakerCall.noConfusion))

/-- In every run where only the probe records while it is in flight, at most one probe is
in flight. -/
theorem one_probe (failureThreshold : Int) (resetAfter now : ℚ) (events : List BreakerEvent)
    (traffic : Traffic)
    (ran : (system failureThreshold resetAfter now).exec
      (system failureThreshold resetAfter now).start events = some traffic)
    (fair : (system failureThreshold resetAfter now).Meets NoStaleRecord
      (system failureThreshold resetAfter now).start events) :
    traffic.probes.length ≤ 1 := by
  have probing : traffic.Probing :=
    System.exec_keeps Probing (fun _ _ _ probing fair taken => probing.step fair taken) ran fair
      (.of_none rfl)
  exact probing.alone

/-! ## Every other record call leads to two probes -/

theorem step_allow {traffic : Traffic} {request : Nat} {now : ℚ}
    (free : traffic.waits request = false) (later : traffic.now ≤ now) :
    traffic.step ⟨request, now, .allow⟩ = some (traffic.letIn request now) := by
  simp only [step, if_neg (not_lt.mpr later), free]

theorem step_recordFailure {traffic : Traffic} {request : Nat} {now : ℚ}
    (waiting : traffic.waits request = true) (later : traffic.now ≤ now) :
    traffic.step ⟨request, now, .recordFailure⟩ =
      some (traffic.settle request now (traffic.breaker.recordFailure now)) := by
  simp only [step, if_neg (not_lt.mpr later), waiting]

theorem filter_of_free {traffic : Traffic} {request : Nat}
    (free : traffic.waits request = false) :
    traffic.inFlight.filter (·.request != request) = traffic.inFlight := by
  rw [List.filter_eq_self]
  intro admission member
  have other := List.any_eq_false.mp free admission member
  simpa using other

theorem free_settle (traffic : Traffic) (request : Nat) (now : ℚ) (breaker : CircuitBreaker) :
    (traffic.settle request now breaker).waits request = false := by
  rw [waits, List.any_eq_false]
  intro admission member
  have other := (List.mem_filter.mp member).2
  simpa using other

/-- A closed breaker lets a request through and takes its failure. -/
theorem closed_failure {traffic : Traffic} {request : Nat}
    (free : traffic.waits request = false) (isClosed : traffic.breaker.openedAt = none) :
    (traffic.step ⟨request, traffic.now, .allow⟩).bind
        (·.step ⟨request, traffic.now, .recordFailure⟩) =
      some { traffic with breaker := traffic.breaker.recordFailure traffic.now } := by
  have phase := CircuitBreaker.state_closed traffic.now isClosed
  have passed : traffic.letIn request traffic.now =
      { traffic with inFlight := ⟨request, false⟩ :: traffic.inFlight } := by
    simp [letIn, CircuitBreaker.allow, phase]
  rw [step_allow free le_rfl, passed, Option.bind_some,
    step_recordFailure (by simp [waits]) le_rfl]
  simp only [settle, List.filter_cons, bne_self_eq_false, Bool.false_eq_true, if_false,
    filter_of_free free]

/-- One request that keeps failing opens a closed breaker. -/
theorem failures_open (failureThreshold : Int) (resetAfter start : ℚ) (request : Nat)
    (traffic : Traffic) (free : traffic.waits request = false)
    (isClosed : traffic.breaker.openedAt = none) :
    ∃ events final,
      (system failureThreshold resetAfter start).exec traffic events = some final ∧
      final.inFlight = traffic.inFlight ∧ final.breaker.trialInFlight = false ∧
      final.breaker.openedAt = some final.now := by
  generalize missing :
    (traffic.breaker.failureThreshold - traffic.breaker.failures).toNat = count
  induction count using Nat.strong_induction_on generalizing traffic with
  | _ count ih =>
      obtain ⟨middle, admitted, failed⟩ := Option.bind_eq_some_iff.mp
        (closed_failure free isClosed)
      by_cases enough :
        traffic.breaker.failureThreshold ≤ (traffic.breaker.failures + 1 : Nat)
      · refine ⟨[⟨request, traffic.now, .allow⟩, ⟨request, traffic.now, .recordFailure⟩], _,
          System.exec_cons.mpr ⟨middle, admitted, System.exec_cons.mpr ⟨_, failed, rfl⟩⟩,
          rfl, rfl, ?_⟩
        simp only [CircuitBreaker.recordFailure, if_pos (Or.inr enough)]
      · have stillClosed : (traffic.breaker.recordFailure traffic.now).openedAt = none := by
          simp only [CircuitBreaker.recordFailure, isClosed, enough, Option.isSome_none,
            Bool.false_eq_true, or_self, if_false]
        have fewer : (traffic.breaker.failureThreshold -
            (traffic.breaker.failures + 1 : Nat)).toNat < count := by omega
        obtain ⟨events, final, ran, same, untested, isOpen⟩ := ih _ fewer
          { traffic with breaker := traffic.breaker.recordFailure traffic.now } free
          stillClosed rfl
        exact ⟨⟨request, traffic.now, .allow⟩ :: ⟨request, traffic.now, .recordFailure⟩ :: events,
          final,
          System.exec_cons.mpr ⟨middle, admitted, System.exec_cons.mpr ⟨_, failed, ran⟩⟩,
          same, untested, isOpen⟩

/-- An open breaker with its flag down lets one more probe through after the cool-down. -/
theorem probes_again {traffic : Traffic} {request : Nat} {openedAt : ℚ}
    (free : traffic.waits request = false) (untested : traffic.breaker.trialInFlight = false)
    (isOpen : traffic.breaker.openedAt = some openedAt) :
    ∃ event next, traffic.step event = some next ∧
      next.probes.length = traffic.probes.length + 1 := by
  let now := max traffic.now (openedAt + traffic.breaker.resetAfter)
  have cooled : traffic.breaker.resetAfter ≤ now - openedAt := by
    have after : openedAt + traffic.breaker.resetAfter ≤ now := le_max_right _ _
    linarith
  have half := CircuitBreaker.state_halfOpen isOpen cooled
  refine ⟨⟨request, now, .allow⟩, _, step_allow free (le_max_left _ _), ?_⟩
  simp [letIn, probes, CircuitBreaker.allow, half, untested]

/-- The guard refuses no harmless call: a record call that does not meet it can be followed
by calls after which two probes are in flight. -/
theorem stale_record_breaks {failureThreshold : Int} {resetAfter start : ℚ}
    {traffic next : Traffic} {event : BreakerEvent}
    (reached : (system failureThreshold resetAfter start).Reachable NoStaleRecord traffic)
    (stale : ¬ traffic.NoStaleRecord event) (taken : traffic.step event = some next) :
    ∃ events final, (system failureThreshold resetAfter start).exec next events = some final ∧
      2 ≤ final.probes.length := by
  have probing : traffic.Probing :=
    reached.invariant Probing (.of_none rfl) fun _ _ _ probing fair taken =>
      probing.step fair taken
  simp only [NoStaleRecord, not_forall] at stale
  obtain ⟨isRecord, admission, member, isProbe, other⟩ := stale
  have kept : ∀ breaker : CircuitBreaker,
      (traffic.settle event.request event.now breaker).probes ≠ [] := by
    intro breaker
    refine List.ne_nil_of_mem (a := admission) (List.mem_filter.mpr ⟨?_, isProbe⟩)
    exact List.mem_filter.mpr ⟨member, by simpa using other⟩
  have held : traffic.probes ≠ [] :=
    List.ne_nil_of_mem (List.mem_filter.mpr ⟨member, isProbe⟩)
  cases step_move taken with
  | refused => exact absurd rfl isRecord
  | passed => exact absurd rfl isRecord
  | probing => exact absurd rfl isRecord
  | @succeeded request now =>
      obtain ⟨events, final, ran, same, untested, isOpen⟩ :=
        failures_open failureThreshold resetAfter start request
          (traffic.settle request now traffic.breaker.recordSuccess)
          (free_settle traffic request now _) rfl
      have free : final.waits request = false := by
        rw [waits, same]
        exact free_settle traffic request now traffic.breaker.recordSuccess
      obtain ⟨probe, last, admitted, more⟩ := probes_again free untested isOpen
      refine ⟨events ++ [probe], last, System.exec_append.mpr
        ⟨final, ran, System.exec_cons.mpr ⟨last, admitted, rfl⟩⟩, ?_⟩
      have some := List.length_pos_iff.mpr (kept traffic.breaker.recordSuccess)
      rw [more, probes, same]
      exact Nat.succ_le_succ some
  | @failed request now =>
      have isOpen : (traffic.breaker.recordFailure now).openedAt = some now := by
        simp only [CircuitBreaker.recordFailure, if_pos (Or.inl (probing.isOpen held))]
      obtain ⟨probe, last, admitted, more⟩ :=
        probes_again (free_settle traffic request now _) rfl isOpen
      refine ⟨[probe], last, System.exec_cons.mpr ⟨last, admitted, rfl⟩, ?_⟩
      have some := List.length_pos_iff.mpr (kept (traffic.breaker.recordFailure now))
      rw [more]
      exact Nat.succ_le_succ some

/-- Six requests pass, five fail and open the breaker, a seventh probes; the sixth fails
late. -/
def lateFailure : List BreakerEvent :=
  [⟨0, 0, .allow⟩, ⟨1, 0, .allow⟩, ⟨2, 0, .allow⟩, ⟨3, 0, .allow⟩, ⟨4, 0, .allow⟩,
    ⟨5, 0, .allow⟩, ⟨0, 1, .recordFailure⟩, ⟨1, 1, .recordFailure⟩, ⟨2, 1, .recordFailure⟩,
    ⟨3, 1, .recordFailure⟩, ⟨4, 1, .recordFailure⟩, ⟨6, 31, .allow⟩, ⟨5, 32, .recordFailure⟩]

theorem second_probe :
    ¬ ∀ (events : List BreakerEvent) (traffic : Traffic),
      (system 5 30 0).exec (system 5 30 0).start events = some traffic →
      traffic.probes.length ≤ 1 := by
  intro claimed
  have ran : ∃ traffic, (system 5 30 0).exec (system 5 30 0).start
      (lateFailure ++ [⟨7, 62, .allow⟩]) = some traffic ∧ traffic.probes.length = 2 := by
    decide +kernel
  obtain ⟨traffic, ran, two⟩ := ran
  have one := claimed _ traffic ran
  omega

/-- When the sixth fails before the probe, the next request waits for the probe. -/
theorem probe_waits :
    ∃ traffic, (system 5 30 0).exec (system 5 30 0).start
      (lateFailure.take 11 ++ [⟨5, 2, .recordFailure⟩, ⟨6, 32, .allow⟩, ⟨7, 62, .allow⟩]) =
        some traffic ∧ traffic.probes.length ≤ 1 := by
  obtain ⟨traffic, ran⟩ : ∃ traffic, (system 5 30 0).exec (system 5 30 0).start
      (lateFailure.take 11 ++ [⟨5, 2, .recordFailure⟩, ⟨6, 32, .allow⟩, ⟨7, 62, .allow⟩]) =
        some traffic := Option.isSome_iff_exists.mp (by decide +kernel)
  exact ⟨traffic, ran, one_probe 5 30 0 _ traffic ran (by decide +kernel)⟩

end Traffic

end ProductionRag
