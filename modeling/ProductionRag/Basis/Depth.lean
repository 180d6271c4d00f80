import Mathlib.Data.List.Induction
import Mathlib.Data.List.Basic
import Mathlib.Tactic.Common

/-!
# Counters that stop at zero

A counter goes up and down with the events it sees and stays at zero when it would go below.
What it shows is what the events since some point have left over.  A counter that does not tell
names apart never shows more than is open by name.
-/

set_option autoImplicit false

namespace Basis

variable {ε κ : Type*}

/-! ## One counter -/

section Level

variable (up down : ε → Bool)

def levelStep (level : ℕ) (event : ε) : ℕ :=
  if up event then level + 1 else if down event then level - 1 else level

def level (events : List ε) : ℕ := events.foldl (levelStep up down) 0

@[simp] theorem level_nil : level up down [] = 0 := rfl

@[simp] theorem level_concat (events : List ε) (last : ε) :
    level up down (events ++ [last]) = levelStep up down (level up down events) last := by
  rw [level, List.foldl_append]
  rfl

variable {up down}

/-- Whether the events up to the last one have more than `n` left over, by what comes before. -/
theorem exists_recent_concat {events : List ε} {last : ε} {n : ℕ} :
    (∃ recent, recent <:+ events ++ [last] ∧ recent.countP down + n < recent.countP up) ↔
      ∃ recent, recent <:+ events ∧ recent.countP down + (if down last then 1 else 0) + n <
        recent.countP up + (if up last then 1 else 0) := by
  constructor
  · rintro ⟨_, isRecent, more⟩
    rcases List.suffix_concat_iff.mp isRecent with rfl | ⟨recent, rfl, isEarlier⟩
    · simp at more
    · refine ⟨recent, isEarlier, ?_⟩
      simpa [List.countP_append, List.countP_singleton] using more
  · rintro ⟨recent, isEarlier, more⟩
    refine ⟨recent ++ [last], List.suffix_concat_iff.mpr (Or.inr ⟨recent, rfl, isEarlier⟩), ?_⟩
    simpa [List.countP_append, List.countP_singleton] using more

/-- The counter shows more than `n` if since some point it was sent up more than `n` times more
often than down. -/
theorem lt_level_iff (apart : ∀ event, up event = true → down event = false) {events : List ε}
    {n : ℕ} : n < level up down events ↔
      ∃ recent, recent <:+ events ∧ recent.countP down + n < recent.countP up := by
  induction events using List.reverseRecOn generalizing n with
  | nil => simp
  | append_singleton events last ih =>
      rw [exists_recent_concat, level_concat, levelStep]
      cases isUp : up last with
      | true =>
          have notDown := apart last isUp
          simp only [if_true, notDown, Bool.false_eq_true, if_false, Nat.add_zero]
          cases n with
          | zero =>
              constructor
              · intro _
                exact ⟨[], List.nil_suffix, by simp⟩
              · intro _
                omega
          | succ n =>
              rw [Nat.add_lt_add_iff_right, ih]
              refine exists_congr fun recent => and_congr_right fun _ => ?_
              omega
      | false =>
          cases isDown : down last with
          | true =>
              simp only [Bool.false_eq_true, if_false, if_true, Nat.add_zero]
              rw [Nat.lt_sub_iff_add_lt, ih]
              refine exists_congr fun recent => and_congr_right fun _ => ?_
              omega
          | false =>
              simp only [Bool.false_eq_true, if_false, Nat.add_zero]
              exact ih

end Level

/-! ## Open names -/

section Opened

variable [DecidableEq κ] (opens closes : ε → Option κ)

/-- One event at the open names: a name is opened once more, or its last opening is closed. -/
def openedStep (opened : List κ) (event : ε) : List κ :=
  match opens event with
  | some name => name :: opened
  | none =>
    match closes event with
    | some name => opened.erase name
    | none => opened

/-- The names that are open after the events, the last one first. -/
def opened (events : List ε) : List κ := events.foldl (openedStep opens closes) []

@[simp] theorem opened_concat (events : List ε) (last : ε) :
    opened opens closes (events ++ [last]) =
      openedStep opens closes (opened opens closes events) last := by
  rw [opened, List.foldl_append]
  rfl

variable {opens closes}

/-- A name is open as often as its own counter shows. -/
theorem count_opened (apart : ∀ event name, opens event = some name → closes event = none)
    (name : κ) (events : List ε) :
    (opened opens closes events).count name =
      level (fun event => opens event == some name) (fun event => closes event == some name)
        events := by
  induction events using List.reverseRecOn with
  | nil => rfl
  | append_singleton events last ih =>
      rw [opened_concat, level_concat, openedStep, levelStep, ← ih]
      cases isOpening : opens last with
      | some other =>
          rw [apart last other isOpening]
          by_cases same : other = name
          · subst same
            simp
          · simp [same]
      | none =>
          cases isClosing : closes last with
          | some other =>
              by_cases same : other = name
              · subst same
                simp
              · simp [same, List.count_erase_of_ne (Ne.symm same)]
          | none => simp

/-- A counter for all names shows at most what is open by name. -/
theorem level_le_length_opened (events : List ε) :
    level (fun event => (opens event).isSome) (fun event => (closes event).isSome) events ≤
      (opened opens closes events).length := by
  induction events using List.reverseRecOn with
  | nil => exact Nat.le_refl _
  | append_singleton events last ih =>
      rw [opened_concat, level_concat, openedStep, levelStep]
      cases opens last with
      | some name => simpa using ih
      | none =>
          cases closes last with
          | some name =>
              have shorter := List.length_erase (a := name) (l := opened opens closes events)
              simp only [Option.isSome_none, Option.isSome_some, Bool.false_eq_true, if_false,
                if_true]
              split at shorter <;> omega
          | none => simpa using ih

variable (opens closes) in
/-- Every name is closed while it is open, or while nothing is. -/
def ClosedInTurn (events : List ε) : Prop :=
  ∀ before event after name, events = before ++ event :: after → opens event = none →
    closes event = some name →
      name ∈ opened opens closes before ∨ opened opens closes before = []

theorem ClosedInTurn.of_append {events later : List ε}
    (inTurn : ClosedInTurn opens closes (events ++ later)) : ClosedInTurn opens closes events := by
  intro before event after name whole notOpening isClosing
  refine inTurn before event (after ++ later) name ?_ notOpening isClosing
  rw [whole, List.append_assoc, List.cons_append]

/-- If names are closed in turn, one counter for all of them shows what is open. -/
theorem ClosedInTurn.level_eq {events : List ε} (inTurn : ClosedInTurn opens closes events) :
    level (fun event => (opens event).isSome) (fun event => (closes event).isSome) events =
      (opened opens closes events).length := by
  induction events using List.reverseRecOn with
  | nil => rfl
  | append_singleton events last ih =>
      have earlier := ih inTurn.of_append
      rw [opened_concat, level_concat, openedStep, levelStep, earlier]
      cases isOpening : opens last with
      | some name => rfl
      | none =>
          cases isClosing : closes last with
          | none => rfl
          | some name =>
              simp only [Option.isSome_none, Option.isSome_some, Bool.false_eq_true, if_false,
                if_true]
              rcases inTurn events last [] name rfl isOpening isClosing with isOpen | empty
              · rw [List.length_erase_of_mem isOpen]
              · rw [empty]
                rfl

end Opened

end Basis
