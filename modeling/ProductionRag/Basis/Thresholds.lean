import Mathlib.Data.List.Induction
import Mathlib.Order.Lattice
import Mathlib.Order.MinMax
import Mathlib.Tactic.Common

/-!
# Thresholds on finitely many scores

A search that keeps its first best candidate, and the thresholds it has to try.  Whatever
threshold cuts a finite list of scores, it cuts them as one of the scores does, or it lies
above them all.
-/

set_option autoImplicit false

namespace Basis

variable {α β : Type*} [LinearOrder β]

/-! ## The first best candidate -/

/-- One round of the search: a candidate replaces the best one only if it is better. -/
def keepBetter (value : α → β) (best : α × β) (candidate : α) : α × β :=
  if best.2 < value candidate then (candidate, value candidate) else best

/-- The best candidate with its value, starting from `start`. -/
def firstBest (value : α → β) (start : α × β) (candidates : List α) : α × β :=
  candidates.foldl (keepBetter value) start

theorem firstBest_concat (value : α → β) (start : α × β) (candidates : List α) (last : α) :
    firstBest value start (candidates ++ [last]) =
      keepBetter value (firstBest value start candidates) last := by
  rw [firstBest, List.foldl_append]
  rfl

theorem firstBest_eq_start {value : α → β} {start : α × β} {candidates : List α}
    (none : ∀ c ∈ candidates, value c ≤ start.2) : firstBest value start candidates = start := by
  induction candidates with
  | nil => rfl
  | cons c rest ih =>
      have kept : keepBetter value start c = start :=
        if_neg (not_lt.mpr (none c List.mem_cons_self))
      rw [firstBest, List.foldl_cons, kept]
      exact ih fun c member => none c (List.mem_cons_of_mem _ member)

theorem value_le_firstBest (value : α → β) (start : α × β) (candidates : List α) :
    ∀ c ∈ candidates, value c ≤ (firstBest value start candidates).2 := by
  induction candidates using List.reverseRecOn with
  | nil => simp
  | append_singleton candidates last ih =>
      intro c member
      rw [firstBest_concat, keepBetter]
      rcases List.mem_append.mp member with earlier | isLast
      · split
        next better => exact (ih c earlier).trans better.le
        next => exact ih c earlier
      · obtain rfl := List.mem_singleton.mp isLast
        split
        next => exact le_rfl
        next worse => exact not_lt.mp worse

/-- The best candidate comes before all others that are as good. -/
theorem firstBest_first (value : α → β) {start : α × β} {candidates : List α}
    (better : ∃ c ∈ candidates, start.2 < value c) :
    ∃ before after, candidates = before ++ (firstBest value start candidates).1 :: after ∧
      (firstBest value start candidates).2 = value (firstBest value start candidates).1 ∧
        ∀ c ∈ before, value c < (firstBest value start candidates).2 := by
  induction candidates using List.reverseRecOn with
  | nil =>
      obtain ⟨c, none, _⟩ := better
      cases none
  | append_singleton candidates last ih =>
      have bound := value_le_firstBest value start candidates
      rw [firstBest_concat, keepBetter]
      split
      next improves =>
        refine ⟨candidates, [], rfl, rfl, ?_⟩
        intro c member
        exact (bound c member).trans_lt improves
      next kept =>
        -- the last candidate is no better than what was there, so that one was better already
        have earlier : ∃ c ∈ candidates, start.2 < value c := by
          obtain ⟨c, member, isBetter⟩ := better
          rcases List.mem_append.mp member with earlier | isLast
          · exact ⟨c, earlier, isBetter⟩
          · obtain rfl := List.mem_singleton.mp isLast
            by_contra none
            push Not at none
            rw [firstBest_eq_start none] at kept
            exact kept isBetter
        obtain ⟨before, after, split, isValue, isFirst⟩ := ih earlier
        refine ⟨before, after ++ [last], ?_, isValue, isFirst⟩
        rw [← List.cons_append, ← List.append_assoc, ← split]

theorem firstBest_value (value : α → β) {start : α × β} {candidates : List α}
    (better : ∃ c ∈ candidates, start.2 < value c) :
    (firstBest value start candidates).2 = value (firstBest value start candidates).1 := by
  obtain ⟨_, _, _, isValue, _⟩ := firstBest_first value better
  exact isValue

/-- What answers upwards of some point either answers none of the scores, or those from one of
them on. -/
theorem exists_threshold [LinearOrder α] {answers : α → Prop} (upward : Monotone answers)
    (scores : List α) :
    (∀ s ∈ scores, ¬ answers s) ∨ ∃ c ∈ scores, ∀ s ∈ scores, answers s ↔ c ≤ s := by
  induction scores with
  | nil => exact Or.inl (by simp)
  | cons first rest ih =>
      by_cases above : answers first
      · right
        rcases ih with none | ⟨c, member, cut⟩
        · refine ⟨first, List.mem_cons_self, List.forall_mem_cons.mpr ⟨by simp [above], ?_⟩⟩
          intro s inRest
          exact ⟨fun isAbove => absurd isAbove (none s inRest), fun le => upward le above⟩
        · have answered : answers c := (cut c member).mpr le_rfl
          refine ⟨min first c, ?_, List.forall_mem_cons.mpr ⟨by simp [above], ?_⟩⟩
          · rcases min_choice first c with isFirst | isOther
            · rw [isFirst]
              exact List.mem_cons_self
            · rw [isOther]
              exact List.mem_cons_of_mem _ member
          · intro s inRest
            constructor
            · intro isAbove
              exact (min_le_right _ _).trans ((cut s inRest).mp isAbove)
            · intro le
              rcases min_le_iff.mp le with fromFirst | fromOther
              · exact upward fromFirst above
              · exact upward fromOther answered
      · rcases ih with none | ⟨c, member, cut⟩
        · exact Or.inl (List.forall_mem_cons.mpr ⟨above, none⟩)
        · refine Or.inr ⟨c, List.mem_cons_of_mem _ member,
            List.forall_mem_cons.mpr ⟨?_, cut⟩⟩
          have answered : answers c := (cut c member).mpr le_rfl
          exact ⟨fun isAbove => absurd isAbove above, fun le => absurd (upward le answered) above⟩

end Basis
