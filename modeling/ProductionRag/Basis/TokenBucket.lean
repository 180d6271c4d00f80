import Mathlib.Algebra.Order.Field.Basic
import Mathlib.Tactic.Linarith
import Mathlib.Tactic.Ring

/-!
# Token buckets

A bucket fills at a steady rate up to its capacity, and gives a token when it holds a
whole one.  The readings of the clock may come in any order.  A bucket is a line of the
given slope, what it would hold at each time if nobody asked and nothing spilled; asking
only lowers the line, by one when a token is given.
-/

set_option autoImplicit false

namespace Basis

universe u

variable {K : Type u} [Field K] [LinearOrder K]

/-- What was left in a bucket, and the reading when it was asked last. -/
structure Bucket (K : Type u) where
  tokens : K
  updated : K
  deriving DecidableEq

/-- How a bucket fills. -/
structure Filling (K : Type u) where
  rate : K
  capacity : K

/-- What a bucket would hold at a time, with no room to spill. -/
def Bucket.lineAt (bucket : Bucket K) (rate now : K) : K :=
  bucket.tokens + (now - bucket.updated) * rate

namespace Filling

/-- What is in a bucket at a time; one that nobody has asked is full. -/
def level (filling : Filling K) (now : K) : Option (Bucket K) → K
  | none => filling.capacity
  | some bucket => min filling.capacity (bucket.lineAt filling.rate now)

/-- The bucket after it is asked. -/
def ask (filling : Filling K) (bucket : Option (Bucket K)) (now : K) : Bucket K where
  tokens := filling.level now bucket - if 1 ≤ filling.level now bucket then 1 else 0
  updated := now

/-- The readings at which a token is given. -/
def given (filling : Filling K) (bucket : Option (Bucket K)) : List K → List K
  | [] => []
  | now :: later =>
    let after := filling.given (some (filling.ask bucket now)) later
    if 1 ≤ filling.level now bucket then now :: after else after

section Steps

variable (filling : Filling K) (bucket : Option (Bucket K))

theorem level_le_capacity (now : K) : filling.level now bucket ≤ filling.capacity := by
  cases bucket with
  | none => exact le_refl _
  | some bucket => exact min_le_left _ _

theorem given_cons_of_full {now : K} (full : 1 ≤ filling.level now bucket) (later : List K) :
    filling.given bucket (now :: later) =
      now :: filling.given (some (filling.ask bucket now)) later := by
  rw [given, if_pos full]

theorem given_cons_of_empty {now : K} (empty : ¬ 1 ≤ filling.level now bucket)
    (later : List K) :
    filling.given bucket (now :: later) = filling.given (some (filling.ask bucket now)) later := by
  rw [given, if_neg empty]

theorem ask_lineAt (now time : K) :
    (filling.ask bucket now).lineAt filling.rate time =
      filling.level now bucket + (time - now) * filling.rate -
        if 1 ≤ filling.level now bucket then 1 else 0 := by
  rw [Bucket.lineAt, ask]
  ring

variable [IsStrictOrderedRing K]

/-- Asking lowers the line, by one token at least when it gives one. -/
theorem ask_lineAt_le (bucket : Bucket K) (now time : K) :
    (filling.ask (some bucket) now).lineAt filling.rate time +
        (if 1 ≤ filling.level now (some bucket) then 1 else 0) ≤
      bucket.lineAt filling.rate time := by
  have spilled : filling.level now (some bucket) ≤ bucket.lineAt filling.rate now :=
    min_le_right _ _
  have moved : bucket.lineAt filling.rate time =
      bucket.lineAt filling.rate now + (time - now) * filling.rate := by
    rw [Bucket.lineAt, Bucket.lineAt]
    ring
  rw [ask_lineAt, moved]
  linarith

/-- Asking again at the same reading finds what asking left. -/
theorem level_ask (now : K) :
    filling.level now (some (filling.ask bucket now)) =
      filling.level now bucket - if 1 ≤ filling.level now bucket then 1 else 0 := by
  have line := filling.ask_lineAt bucket now now
  rw [sub_self, zero_mul, add_zero] at line
  have atMost := filling.level_le_capacity bucket now
  rw [level, line, min_eq_right]
  split
  · linarith
  · linarith

end Steps

section Window

variable [IsStrictOrderedRing K] {filling : Filling K} (rising : 0 ≤ filling.rate)

/-- The tokens given at the readings of a window. -/
def givenWithin (filling : Filling K) (bucket : Option (Bucket K)) (start stop : K)
    (readings : List K) : Nat :=
  (filling.given bucket readings).countP fun now => start ≤ now ∧ now ≤ stop

include rising in
/-- A bucket gives in a window no more than its line holds at the end of the window. -/
theorem givenWithin_le_line (bucket : Bucket K) (start stop : K) (readings : List K) :
    filling.givenWithin (some bucket) start stop readings = 0 ∨
      (filling.givenWithin (some bucket) start stop readings : K) ≤
        bucket.lineAt filling.rate stop := by
  induction readings generalizing bucket with
  | nil => exact Or.inl rfl
  | cons now later ih =>
      have lowered := filling.ask_lineAt_le bucket now stop
      have rest := ih (filling.ask (some bucket) now)
      by_cases full : 1 ≤ filling.level now (some bucket)
      · rw [if_pos full] at lowered
        rw [givenWithin, given_cons_of_full _ _ full, List.countP_cons]
        split
        · rename_i inside
          have before : now ≤ stop := (decide_eq_true_eq.mp inside).2
          have rise : 0 ≤ (stop - now) * filling.rate :=
            mul_nonneg (sub_nonneg.mpr before) rising
          have line := filling.ask_lineAt (some bucket) now stop
          rw [if_pos full] at line
          right
          rw [Nat.cast_add, Nat.cast_one]
          rcases rest with none | some
          · rw [givenWithin] at none
            rw [none, Nat.cast_zero]
            linarith
          · rw [givenWithin] at some
            linarith
        · rcases rest with none | some
          · exact Or.inl none
          · rw [givenWithin] at some
            exact Or.inr (by rw [Nat.add_zero]; linarith)
      · rw [if_neg full, add_zero] at lowered
        rw [givenWithin, given_cons_of_empty _ _ full]
        exact rest.imp_right fun some => some.trans lowered

include rising in
/-- In every window a bucket gives at most what it can hold and what flows in meanwhile. -/
theorem givenWithin_le (room : 1 ≤ filling.capacity) (bucket : Option (Bucket K))
    {start stop : K} (ordered : start ≤ stop) (readings : List K) :
    (filling.givenWithin bucket start stop readings : K) ≤
      filling.capacity + filling.rate * (stop - start) := by
  have inflow : 0 ≤ filling.rate * (stop - start) :=
    mul_nonneg rising (sub_nonneg.mpr ordered)
  induction readings generalizing bucket with
  | nil =>
      rw [givenWithin, given, List.countP_nil, Nat.cast_zero]
      linarith
  | cons now later ih =>
      have rest := ih (some (filling.ask bucket now))
      by_cases full : 1 ≤ filling.level now bucket
      · rw [givenWithin, given_cons_of_full _ _ full, List.countP_cons]
        split
        · -- The first token of the window: the line stands at most at what flows in after it.
          rename_i inside
          have after : start ≤ now := (decide_eq_true_eq.mp inside).1
          have line := filling.ask_lineAt bucket now stop
          rw [if_pos full] at line
          have atMost := filling.level_le_capacity bucket now
          have less : (stop - now) * filling.rate ≤ filling.rate * (stop - start) := by
            rw [mul_comm]
            exact mul_le_mul_of_nonneg_left (sub_le_sub_left after stop) rising
          rw [Nat.cast_add, Nat.cast_one]
          rcases givenWithin_le_line rising (filling.ask bucket now) start stop later with
            none | some
          · rw [givenWithin] at none
            rw [none, Nat.cast_zero]
            linarith
          · rw [givenWithin] at some
            linarith
        · exact rest
      · rw [givenWithin, given_cons_of_empty _ _ full]
        exact rest

end Window

/-- A bucket without a whole token has one after the wait that fills it up. -/
theorem level_after_wait [IsStrictOrderedRing K] {filling : Filling K} (rising : 0 < filling.rate)
    (room : 1 ≤ filling.capacity) {bucket : Option (Bucket K)} {now later : K}
    (empty : ¬ 1 ≤ filling.level now bucket) :
    1 ≤ filling.level later (some (filling.ask bucket now)) ↔
      now + (1 - filling.level now bucket) / filling.rate ≤ later := by
  have line := filling.ask_lineAt bucket now later
  rw [if_neg empty, sub_zero] at line
  rw [level, line, le_min_iff, and_iff_right room, ← le_sub_iff_add_le', div_le_iff₀ rising,
    sub_le_iff_le_add']

end Filling

end Basis
