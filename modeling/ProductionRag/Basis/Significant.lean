import Mathlib.Algebra.Order.Field.Rat
import Mathlib.Data.Int.ConditionallyCompleteOrder
import Mathlib.Data.Int.Log
import Mathlib.Data.Rat.Floor
import Mathlib.Tactic.FieldSimp
import Mathlib.Tactic.Linarith
import Mathlib.Tactic.Positivity
import Mathlib.Tactic.Ring

/-!
# Numbers of so many digits

Rounding to `p` significant digits of base `b`, whatever `round` does between two integers.  A
number is its own rounding exactly when it has that many digits at some place.
-/

set_option autoImplicit false

namespace Basis

/-- A rounding to integers. -/
structure Rounds (round : ℚ → ℤ) : Prop where
  int : ∀ n : ℤ, round n = n
  mono : Monotone round

/-- The number has at most `p` digits of base `b`, zeros at the end not counted. -/
def HasDigits (b p : ℕ) (x : ℚ) : Prop :=
  ∃ m k : ℤ, |m| < (b : ℤ) ^ p ∧ x = m * (b : ℚ) ^ k

/-- The place of the last of `p` digits. -/
def lastPlace (b p : ℕ) (x : ℚ) : ℤ := Int.log b |x| + 1 - p

/-- The first `p` digits, as an integer. -/
def significand (b p : ℕ) (round : ℚ → ℤ) (x : ℚ) : ℤ :=
  round (x / (b : ℚ) ^ lastPlace b p x)

def roundDigits (b p : ℕ) (round : ℚ → ℤ) (x : ℚ) : ℚ :=
  significand b p round x * (b : ℚ) ^ lastPlace b p x

section Rounding

variable {b p : ℕ} {round : ℚ → ℤ} {x : ℚ}

theorem Rounds.zero (rounds : Rounds round) : round 0 = 0 := by
  have zero := rounds.int 0
  rwa [Int.cast_zero] at zero

/-- Integers around a number are around its rounding. -/
theorem Rounds.abs_round_le (rounds : Rounds round) {n : ℤ} (below : |x| ≤ n) : |round x| ≤ n := by
  obtain ⟨lower, upper⟩ := abs_le.mp below
  refine abs_le.mpr ⟨?_, ?_⟩
  · rw [← rounds.int (-n), Int.cast_neg]
    exact rounds.mono lower
  · rw [← rounds.int n]
    exact rounds.mono upper

/-- The digits in front of the last place are fewer than `p + 1`. -/
theorem abs_div_lt (base : 1 < b) : |x / (b : ℚ) ^ lastPlace b p x| < (b : ℚ) ^ p := by
  have positive : (0 : ℚ) < (b : ℚ) ^ lastPlace b p x := zpow_pos (by exact_mod_cast base.le) _
  have place : (b : ℚ) ^ (Int.log b |x| + 1) = (b : ℚ) ^ p * (b : ℚ) ^ lastPlace b p x := by
    have nonzero : (b : ℚ) ≠ 0 := by exact_mod_cast (Nat.zero_lt_of_lt base).ne'
    rw [← zpow_natCast, ← zpow_add₀ nonzero, lastPlace]
    congr 1
    ring
  rw [abs_div, abs_of_pos positive, div_lt_iff₀ positive, ← place]
  exact Int.lt_zpow_succ_log_self base |x|

theorem roundDigits_of_hasDigits (base : 1 < b) (rounds : Rounds round)
    (hasDigits : HasDigits b p x) : roundDigits b p round x = x := by
  obtain ⟨m, k, short, rfl⟩ := hasDigits
  have nonzero : (b : ℚ) ≠ 0 := by exact_mod_cast (Nat.zero_lt_of_lt base).ne'
  have positive : (0 : ℚ) < (b : ℚ) ^ k := zpow_pos (by exact_mod_cast base.le) _
  by_cases isZero : m = 0
  · subst isZero
    simp [roundDigits, significand, rounds.zero]
  -- The last place is no further left than that of the digits.
  have place : lastPlace b p (m * (b : ℚ) ^ k) ≤ k := by
    have size : |(m : ℚ) * (b : ℚ) ^ k| < (b : ℚ) ^ ((p : ℤ) + k) := by
      rw [abs_mul, abs_of_pos positive, zpow_add₀ nonzero, zpow_natCast]
      refine mul_lt_mul_of_pos_right ?_ positive
      exact_mod_cast short
    have notZero : 0 < |(m : ℚ) * (b : ℚ) ^ k| :=
      abs_pos.mpr (mul_ne_zero (by exact_mod_cast isZero) positive.ne')
    have log := (Int.lt_zpow_iff_log_lt base notZero).mp size
    rw [lastPlace]
    omega
  obtain ⟨extra, sum⟩ := Int.eq_ofNat_of_zero_le (sub_nonneg.mpr place)
  have whole : (m : ℚ) * (b : ℚ) ^ k / (b : ℚ) ^ lastPlace b p (m * (b : ℚ) ^ k) =
      ((m * (b : ℤ) ^ extra : ℤ) : ℚ) := by
    rw [mul_div_assoc, ← zpow_sub₀ nonzero, sum]
    push_cast
    rw [zpow_natCast]
  rw [roundDigits, significand, whole, rounds.int, ← whole,
    div_mul_cancel₀ _ (zpow_ne_zero _ nonzero)]

theorem hasDigits_roundDigits (base : 1 < b) (digits : 0 < p) (rounds : Rounds round) (x : ℚ) :
    HasDigits b p (roundDigits b p round x) := by
  have below : |significand b p round x| ≤ (b : ℤ) ^ p := by
    refine rounds.abs_round_le ?_
    push_cast
    exact (abs_div_lt base).le
  rcases below.lt_or_eq with short | carried
  · exact ⟨significand b p round x, lastPlace b p x, short, rfl⟩
  · -- Rounding carried into a further digit, and all the others are zero.
    have nonzero : (b : ℚ) ≠ 0 := by exact_mod_cast (Nat.zero_lt_of_lt base).ne'
    have one : (1 : ℤ) < (b : ℤ) ^ p := one_lt_pow₀ (by exact_mod_cast base) digits.ne'
    have power : (b : ℚ) ^ ((p : ℤ) + lastPlace b p x) =
        (b : ℚ) ^ p * (b : ℚ) ^ lastPlace b p x := by
      rw [zpow_add₀ nonzero, zpow_natCast]
    rcases (abs_eq (by positivity)).mp carried with up | down
    · refine ⟨1, p + lastPlace b p x, by simpa using one, ?_⟩
      rw [roundDigits, up, power]
      push_cast
      ring
    · refine ⟨-1, p + lastPlace b p x, by simpa using one, ?_⟩
      rw [roundDigits, down, power]
      push_cast
      ring

/-- Rounding to so many digits changes nothing exactly when there are no more. -/
theorem roundDigits_eq_self_iff (base : 1 < b) (digits : 0 < p) (rounds : Rounds round) :
    roundDigits b p round x = x ↔ HasDigits b p x := by
  constructor
  · intro same
    rw [← same]
    exact hasDigits_roundDigits base digits rounds x
  · exact roundDigits_of_hasDigits base rounds

theorem hasDigits_of_lt {n : ℤ} (small : |n| < (b : ℤ) ^ p) : HasDigits b p n :=
  ⟨n, 0, small, by rw [zpow_zero, mul_one]⟩

end Rounding

end Basis
