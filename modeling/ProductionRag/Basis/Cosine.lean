import Mathlib.Algebra.Order.BigOperators.Ring.Finset
import Mathlib.Analysis.Real.Sqrt
import Mathlib.Data.Finset.Dedup

/-!
# The angle of two bags

Two bags of words, seen as vectors of multiplicities.  Their cosine lies between zero and one,
and is zero only if they have no element in common.
-/

set_option autoImplicit false

namespace Basis

namespace Bag

variable {κ : Type*} [DecidableEq κ]

/-- How many pairs of equal elements two bags have. -/
def dot (left right : Multiset κ) : ℕ :=
  ∑ k ∈ left.toFinset ∩ right.toFinset, left.count k * right.count k

def normSq (bag : Multiset κ) : ℕ := ∑ k ∈ bag.toFinset, bag.count k * bag.count k

/-- The cosine of two bags; with an empty bag it is zero. -/
noncomputable def cosine (left right : Multiset κ) : ℝ :=
  dot left right / (√(normSq left) * √(normSq right))

variable {left right : Multiset κ}

theorem dot_eq_zero_iff : dot left right = 0 ↔ ∀ k ∈ left, k ∉ right := by
  rw [dot, Finset.sum_eq_zero_iff]
  constructor
  · intro none k inLeft inRight
    have product := none k (Finset.mem_inter.mpr
      ⟨Multiset.mem_toFinset.mpr inLeft, Multiset.mem_toFinset.mpr inRight⟩)
    rcases Nat.mul_eq_zero.mp product with zero | zero
    · exact Multiset.count_eq_zero.mp zero inLeft
    · exact Multiset.count_eq_zero.mp zero inRight
  · intro apart k member
    obtain ⟨inLeft, inRight⟩ := Finset.mem_inter.mp member
    exact absurd (Multiset.mem_toFinset.mp inRight) (apart k (Multiset.mem_toFinset.mp inLeft))

theorem normSq_eq_zero_iff {bag : Multiset κ} : normSq bag = 0 ↔ bag = 0 := by
  constructor
  · intro zero
    by_contra nonempty
    obtain ⟨k, member⟩ := Multiset.exists_mem_of_ne_zero nonempty
    have product := Finset.sum_eq_zero_iff.mp zero k (Multiset.mem_toFinset.mpr member)
    exact Multiset.count_eq_zero.mp (mul_self_eq_zero.mp product) member
  · rintro rfl
    rfl

/-- Sums over the common elements are bounded by the sums over each bag. -/
theorem dot_sq_le : dot left right ^ 2 ≤ normSq left * normSq right := by
  have common : ∀ bag : Multiset κ, left.toFinset ∩ right.toFinset ⊆ bag.toFinset →
      ∑ k ∈ left.toFinset ∩ right.toFinset, bag.count k ^ 2 ≤ normSq bag := by
    intro bag inside
    simp only [normSq, ← sq]
    exact Finset.sum_le_sum_of_subset inside
  calc dot left right ^ 2
      ≤ (∑ k ∈ left.toFinset ∩ right.toFinset, left.count k ^ 2) *
          ∑ k ∈ left.toFinset ∩ right.toFinset, right.count k ^ 2 :=
        Finset.sum_mul_sq_le_sq_mul_sq _ _ _
    _ ≤ normSq left * normSq right :=
        Nat.mul_le_mul (common left Finset.inter_subset_left)
          (common right Finset.inter_subset_right)

theorem dot_le_norms : (dot left right : ℝ) ≤ √(normSq left) * √(normSq right) := by
  rw [← Real.sqrt_mul (Nat.cast_nonneg _), ← Nat.cast_mul]
  apply Real.le_sqrt_of_sq_le
  rw [← Nat.cast_pow]
  exact Nat.cast_le.mpr dot_sq_le

theorem cosine_nonneg : 0 ≤ cosine left right :=
  div_nonneg (Nat.cast_nonneg _) (mul_nonneg (Real.sqrt_nonneg _) (Real.sqrt_nonneg _))

theorem cosine_le_one : cosine left right ≤ 1 :=
  div_le_one_of_le₀ dot_le_norms (mul_nonneg (Real.sqrt_nonneg _) (Real.sqrt_nonneg _))

theorem sqrt_normSq_eq_zero_iff {bag : Multiset κ} : √(normSq bag : ℝ) = 0 ↔ bag = 0 := by
  rw [Real.sqrt_eq_zero (Nat.cast_nonneg _), Nat.cast_eq_zero, normSq_eq_zero_iff]

theorem cosine_eq_zero_iff : cosine left right = 0 ↔ ∀ k ∈ left, k ∉ right := by
  rw [cosine, div_eq_zero_iff, mul_eq_zero, sqrt_normSq_eq_zero_iff, sqrt_normSq_eq_zero_iff,
    Nat.cast_eq_zero, dot_eq_zero_iff]
  constructor
  · rintro (apart | rfl | rfl)
    · exact apart
    · simp
    · simp
  · intro apart
    exact Or.inl apart

end Bag

end Basis
