import Mathlib.Data.List.Basic
import Mathlib.Order.Lattice
import Mathlib.Order.MinMax

/-!
# Two gates on a scored list

A list is cut by a least score, and what is left is cut again by a floor that depends on
the best score among the survivors.  A survivor with the best score of all survivors is the
best of the whole list, so the second gate does not see where the first one stood.
-/

set_option autoImplicit false

namespace Basis

variable {α β : Type*} [LinearOrder β] {score : α → β} {floor : β → β}

/-- Keep what scores at least the floor of the best score. -/
def nearBest (score : α → β) (floor : β → β) (xs : List α) : List α :=
  match (xs.map score).max? with
  | none => []
  | some best => xs.filter fun x => floor best ≤ score x

theorem best_iff {xs : List α} {best : β} :
    (xs.map score).max? = some best ↔ (∃ x ∈ xs, score x = best) ∧ ∀ x ∈ xs, score x ≤ best := by
  rw [List.max?_eq_some_iff, List.forall_mem_map, List.mem_map]

theorem nearBest_of_none {xs : List α} (noBest : (xs.map score).max? = none) :
    nearBest score floor xs = [] := by
  rw [nearBest, noBest]

theorem nearBest_eq {xs : List α} {best : β} (top : (xs.map score).max? = some best) :
    nearBest score floor xs = xs.filter fun x => floor best ≤ score x := by
  rw [nearBest, top]

theorem nearBest_sublist (xs : List α) : (nearBest score floor xs).Sublist xs := by
  rw [nearBest]
  split
  · exact List.nil_sublist xs
  · exact List.filter_sublist

/-- The best of the list passes, unless the floor of a score lies above it. -/
theorem nearBest_eq_nil_iff {xs : List α} (below : ∀ x ∈ xs, floor (score x) ≤ score x) :
    nearBest score floor xs = [] ↔ xs = [] := by
  constructor
  · intro empty
    cases top : (xs.map score).max? with
    | none => exact List.map_eq_nil_iff.mp (List.max?_eq_none_iff.mp top)
    | some best =>
        obtain ⟨⟨x, member, rfl⟩, -⟩ := best_iff.mp top
        rw [nearBest_eq top, List.filter_eq_nil_iff] at empty
        exact absurd (decide_eq_true (below x member)) (empty x member)
  · intro empty
    rw [empty]
    rfl

/-- A higher gate that lets something through keeps the best of the list. -/
theorem best_filter {xs : List α} {least : β} {best : β}
    (top : ((xs.filter fun x => least ≤ score x).map score).max? = some best) :
    (xs.map score).max? = some best := by
  obtain ⟨⟨x, member, isBest⟩, above⟩ := best_iff.mp top
  obtain ⟨inList, passes⟩ := List.mem_filter.mp member
  refine best_iff.mpr ⟨⟨x, inList, isBest⟩, fun y inY => ?_⟩
  rcases le_total least (score y) with passesToo | fails
  · exact above y (List.mem_filter.mpr ⟨inY, decide_eq_true passesToo⟩)
  · calc score y ≤ least := fails
      _ ≤ score x := of_decide_eq_true passes
      _ = best := isBest

/-- Raising both gates lets through a selection of what passed before. -/
theorem nearBest_filter_sublist {xs : List α} {least least' : β} {floor' : β → β}
    (higher : least ≤ least') (steeper : ∀ x ∈ xs, least ≤ score x → floor (score x) ≤
      floor' (score x)) :
    (nearBest score floor' (xs.filter fun x => least' ≤ score x)).Sublist
      (nearBest score floor (xs.filter fun x => least ≤ score x)) := by
  have again : (xs.filter fun x => least' ≤ score x) =
      (xs.filter fun x => least ≤ score x).filter fun x => least' ≤ score x := by
    rw [List.filter_filter]
    apply List.filter_congr
    intro x _
    rw [← Bool.decide_and, decide_eq_decide]
    exact ⟨fun passes => ⟨passes, higher.trans passes⟩, And.left⟩
  cases top : ((xs.filter fun x => least' ≤ score x).map score).max? with
  | none =>
      rw [nearBest_of_none top]
      exact List.nil_sublist _
  | some best =>
      have same : ((xs.filter fun x => least ≤ score x).map score).max? = some best := by
        rw [again] at top
        exact best_filter top
      obtain ⟨⟨x, member, rfl⟩, -⟩ := best_iff.mp same
      obtain ⟨inList, passes⟩ := List.mem_filter.mp member
      have floors := steeper x inList (of_decide_eq_true passes)
      rw [nearBest_eq top, nearBest_eq same, again, List.filter_filter]
      apply List.monotone_filter_right
      intro y passesBoth
      rw [Bool.and_eq_true, decide_eq_true_eq, decide_eq_true_eq] at passesBoth
      exact decide_eq_true (floors.trans passesBoth.1)

/-- Of a list in falling order, what passes starts with the first. -/
theorem head_nearBest_filter {xs : List α} {least : β}
    (falling : xs.Pairwise fun left right => score right ≤ score left)
    (below : ∀ x ∈ xs, least ≤ score x → floor (score x) ≤ score x)
    (passed : nearBest score floor (xs.filter fun x => least ≤ score x) ≠ []) :
    (nearBest score floor (xs.filter fun x => least ≤ score x)).head? = xs.head? := by
  cases xs with
  | nil => rfl
  | cons first rest =>
      have greatest : ∀ x ∈ first :: rest, score x ≤ score first := by
        intro x member
        cases member with
        | head => exact le_refl _
        | tail _ later => exact List.rel_of_pairwise_cons falling later
      have firstPasses : least ≤ score first := by
        obtain ⟨x, member⟩ := List.exists_mem_of_ne_nil _ passed
        obtain ⟨inList, passes⟩ := List.mem_filter.mp ((nearBest_sublist _).subset member)
        exact (of_decide_eq_true passes).trans (greatest x inList)
      have kept : (first :: rest).filter (fun x => least ≤ score x) =
          first :: rest.filter fun x => least ≤ score x :=
        List.filter_cons_of_pos (decide_eq_true firstPasses)
      have top : (((first :: rest).filter fun x => least ≤ score x).map score).max? =
          some (score first) := by
        refine best_iff.mpr ⟨⟨first, ?_, rfl⟩, fun x member => ?_⟩
        · rw [kept]
          exact List.mem_cons_self
        · exact greatest x (List.mem_of_mem_filter member)
      have aboveFloor := below first List.mem_cons_self firstPasses
      rw [nearBest_eq top, kept, List.filter_cons, if_pos (decide_eq_true aboveFloor)]
      rfl

end Basis
