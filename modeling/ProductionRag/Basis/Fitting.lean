import Mathlib.Tactic.Common

/-!
# The longest prefix within a limit

Items are taken from the front while their costs fit.  When no cost is negative, what is
taken begins with every prefix that fits.
-/

set_option autoImplicit false

namespace Basis

universe u

variable {α : Type u}

/-- What the items cost together. -/
def total (cost : α → Int) : List α → Int
  | [] => 0
  | item :: rest => cost item + total cost rest

/-- The items taken, when so much of the limit is used up. -/
def fitting (cost : α → Int) (limit : Int) : Int → List α → List α
  | _, [] => []
  | used, item :: rest =>
    if limit < used + cost item then [] else item :: fitting cost limit (used + cost item) rest

@[simp] theorem total_nil (cost : α → Int) : total cost [] = 0 := rfl

@[simp] theorem total_cons (cost : α → Int) (item : α) (rest : List α) :
    total cost (item :: rest) = cost item + total cost rest := rfl

theorem total_append (cost : α → Int) (first second : List α) :
    total cost (first ++ second) = total cost first + total cost second := by
  induction first with
  | nil => simp
  | cons item first ih =>
      rw [List.cons_append, total_cons, total_cons, ih]
      omega

theorem total_reverse (cost : α → Int) (items : List α) :
    total cost items.reverse = total cost items := by
  induction items with
  | nil => rfl
  | cons item rest ih =>
      rw [List.reverse_cons, total_append, total_cons, total_nil, total_cons, ih]
      omega

variable {cost : α → Int} {limit : Int}

theorem total_nonneg (nonneg : ∀ item, 0 ≤ cost item) (items : List α) :
    0 ≤ total cost items := by
  induction items with
  | nil => exact Int.le_refl 0
  | cons item rest ih =>
      have first := nonneg item
      rw [total_cons]
      omega

theorem fitting_starts (used : Int) (items : List α) :
    fitting cost limit used items <+: items := by
  induction items generalizing used with
  | nil => exact List.nil_prefix
  | cons item rest ih =>
      simp only [fitting]
      split
      · exact List.nil_prefix
      · exact List.cons_prefix_cons.mpr ⟨rfl, ih _⟩

/-- What is taken stays within the limit. -/
theorem fitting_total_le {used : Int} (room : used ≤ limit) (items : List α) :
    used + total cost (fitting cost limit used items) ≤ limit := by
  induction items generalizing used with
  | nil =>
      rw [fitting, total_nil]
      omega
  | cons item rest ih =>
      simp only [fitting]
      split
      · rw [total_nil]
        omega
      · rename_i fits
        have later := ih (Int.not_lt.mp fits)
        rw [total_cons]
        omega

/-- Every prefix within the limit is a prefix of what is taken. -/
theorem prefix_fitting (nonneg : ∀ item, 0 ≤ cost item) {used : Int} {items other : List α}
    (isPrefix : other <+: items) (fits : used + total cost other ≤ limit) :
    other <+: fitting cost limit used items := by
  induction items generalizing used other with
  | nil => exact isPrefix
  | cons item rest ih =>
      cases other with
      | nil => exact List.nil_prefix
      | cons first others =>
          obtain ⟨rfl, others'⟩ := List.cons_prefix_cons.mp isPrefix
          have more := total_nonneg nonneg others
          rw [total_cons] at fits
          rw [fitting, if_neg (by omega)]
          exact List.cons_prefix_cons.mpr ⟨rfl, ih others' (by omega)⟩

/-- Nothing is taken when every item costs something and the limit is used up. -/
theorem fitting_full (some : ∀ item, 0 < cost item) {used : Int} (full : limit ≤ used)
    (items : List α) : fitting cost limit used items = [] := by
  cases items with
  | nil => rfl
  | cons item rest =>
      have first := some item
      rw [fitting, if_pos (by omega)]

end Basis
