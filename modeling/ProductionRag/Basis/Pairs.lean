import Mathlib.Data.List.Nodup
import Mathlib.Tactic.Common

/-!
# Lists of pairs

A log in which entries come in pairs.  Keeping an even number of the newest entries
keeps whole pairs, and so does every selection that treats the two entries of a pair
alike.
-/

set_option autoImplicit false

namespace Basis

universe u v

variable {α : Type u} {β : Type v}

/-- The entries of the pairs, in order. -/
def pairRows (pairs : List (α × α)) : List α := pairs.flatMap fun pair => [pair.1, pair.2]

@[simp] theorem pairRows_nil : pairRows ([] : List (α × α)) = [] := rfl

@[simp] theorem pairRows_cons (pair : α × α) (pairs : List (α × α)) :
    pairRows (pair :: pairs) = pair.1 :: pair.2 :: pairRows pairs := rfl

theorem pairRows_append (left right : List (α × α)) :
    pairRows (left ++ right) = pairRows left ++ pairRows right :=
  List.flatMap_append

theorem length_pairRows (pairs : List (α × α)) : (pairRows pairs).length = 2 * pairs.length := by
  induction pairs with
  | nil => rfl
  | cons pair pairs ih =>
      rw [pairRows_cons, List.length_cons, List.length_cons, List.length_cons, ih]
      omega

theorem mem_pairRows {pairs : List (α × α)} {row : α} :
    row ∈ pairRows pairs ↔ ∃ pair ∈ pairs, row = pair.1 ∨ row = pair.2 := by
  simp only [pairRows, List.mem_flatMap, List.mem_cons, List.not_mem_nil, or_false]

theorem map_pairRows (f : α → β) (pairs : List (α × α)) :
    (pairRows pairs).map f = pairRows (pairs.map fun pair => (f pair.1, f pair.2)) := by
  rw [pairRows, List.map_flatMap, pairRows, List.flatMap_map]
  rfl

theorem drop_pairRows (pairs : List (α × α)) (count : Nat) :
    (pairRows pairs).drop (2 * count) = pairRows (pairs.drop count) := by
  induction count generalizing pairs with
  | zero => rfl
  | succ count ih =>
      cases pairs with
      | nil => rw [pairRows_nil, List.drop_nil, List.drop_nil, pairRows_nil]
      | cons pair pairs =>
          rw [Nat.mul_succ, pairRows_cons, List.drop_succ_cons]
          exact ih pairs

/-- The newest entries of a log, an even number of them, are its newest pairs. -/
theorem newest_pairRows (pairs : List (α × α)) (count : Nat) :
    ((pairRows pairs).reverse.take (2 * count)).reverse =
      pairRows (pairs.drop (pairs.length - count)) := by
  rw [List.take_reverse, List.reverse_reverse, length_pairRows, ← drop_pairRows, Nat.mul_sub]

/-- Removing entries pair by pair removes pairs. -/
theorem filter_pairRows {pairs : List (α × α)} {keep : α → Bool}
    (whole : ∀ pair ∈ pairs, keep pair.1 = keep pair.2) :
    (pairRows pairs).filter keep = pairRows (pairs.filter fun pair => keep pair.1) := by
  induction pairs with
  | nil => rfl
  | cons pair pairs ih =>
      obtain ⟨own, others⟩ := List.forall_mem_cons.mp whole
      rw [pairRows_cons, List.filter_cons, List.filter_cons, ← own, ih others, List.filter_cons]
      split <;> rfl

/-- With a tag for each pair, the entries of one tag are together. -/
theorem mem_pairRows_of_tag {tag : α → β} {pairs sub : List (α × α)}
    (alike : ∀ pair ∈ pairs, tag pair.2 = tag pair.1)
    (distinct : (pairs.map fun pair => tag pair.1).Nodup) (inside : sub ⊆ pairs)
    {left right : α} (leftIn : left ∈ pairRows sub) (rightIn : right ∈ pairRows pairs)
    (same : tag left = tag right) : right ∈ pairRows sub := by
  have tagOf : ∀ pair ∈ pairs, ∀ row, row = pair.1 ∨ row = pair.2 → tag row = tag pair.1 := by
    rintro pair member row (rfl | rfl)
    · rfl
    · exact alike pair member
  obtain ⟨leftPair, leftMember, isLeft⟩ := mem_pairRows.mp leftIn
  obtain ⟨rightPair, rightMember, isRight⟩ := mem_pairRows.mp rightIn
  have tags : tag leftPair.1 = tag rightPair.1 :=
    (tagOf leftPair (inside leftMember) left isLeft).symm.trans
      (same.trans (tagOf rightPair rightMember right isRight))
  have onePair : leftPair = rightPair :=
    List.inj_on_of_nodup_map distinct (inside leftMember) rightMember tags
  exact mem_pairRows.mpr ⟨rightPair, onePair ▸ leftMember, isRight⟩

end Basis
