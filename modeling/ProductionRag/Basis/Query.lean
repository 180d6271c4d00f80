import Mathlib.Data.List.Sort
import Mathlib.Tactic.Common

/-!
# Ordered queries

`ORDER BY key DESC LIMIT 1` may return any row of greatest key.  `Top` is one such
choice, so that a statement about every `Top` covers every plan of the database; in
the same way `OrderBy` stands for the order of rows with one key.
A query sorted by a strict order has no such freedom.  `coalesce(max(key), 0)` is a
fold.
-/

set_option autoImplicit false

namespace Basis

universe u v

structure Top (α : Type u) (key : α → Nat) where
  pick : List α → Option α
  pick_eq_none : ∀ rows, pick rows = none ↔ rows = []
  pick_mem : ∀ rows row, pick rows = some row → row ∈ rows
  pick_max : ∀ rows row, pick rows = some row → ∀ other ∈ rows, key other ≤ key row

namespace Top

variable {α : Type u} {key : α → Nat}

/-- Of the rows with greatest key, the first. -/
def firstMax (key : α → Nat) : List α → Option α
  | [] => none
  | row :: rest =>
    match firstMax key rest with
    | none => some row
    | some best => if key row < key best then some best else some row

theorem firstMax_eq_none (rows : List α) : firstMax key rows = none ↔ rows = [] := by
  cases rows with
  | nil => simp [firstMax]
  | cons row rest =>
      simp only [firstMax]
      split
      · simp
      · split <;> simp

theorem firstMax_spec (rows : List α) (row : α) (picked : firstMax key rows = some row) :
    row ∈ rows ∧ ∀ other ∈ rows, key other ≤ key row := by
  induction rows generalizing row with
  | nil => simp [firstMax] at picked
  | cons head rest ih =>
      simp only [firstMax] at picked
      cases best : firstMax key rest with
      | none =>
          rw [best] at picked
          cases picked
          have empty := (firstMax_eq_none rest).mp best
          subst empty
          simp
      | some other =>
          obtain ⟨member, largest⟩ := ih other best
          rw [best] at picked
          dsimp only at picked
          split at picked
          · rename_i smaller
            cases picked
            refine ⟨List.mem_cons_of_mem _ member, ?_⟩
            intro candidate inRows
            rcases List.mem_cons.mp inRows with rfl | inRest
            · exact Nat.le_of_lt smaller
            · exact largest candidate inRest
          · rename_i larger
            cases picked
            refine ⟨List.mem_cons_self, ?_⟩
            intro candidate inRows
            rcases List.mem_cons.mp inRows with rfl | inRest
            · exact Nat.le_refl _
            · exact Nat.le_trans (largest candidate inRest) (Nat.le_of_not_lt larger)

def first (key : α → Nat) : Top α key where
  pick := firstMax key
  pick_eq_none := firstMax_eq_none
  pick_mem rows row picked := (firstMax_spec rows row picked).1
  pick_max rows row picked := (firstMax_spec rows row picked).2

/-- The rows a plan may return are exactly those of greatest key. -/
theorem exists_pick_iff {rows : List α} {row : α} :
    (∃ top : Top α key, top.pick rows = some row) ↔
      row ∈ rows ∧ ∀ other ∈ rows, key other ≤ key row := by
  classical
  constructor
  · rintro ⟨top, picked⟩
    exact ⟨top.pick_mem rows row picked, top.pick_max rows row picked⟩
  · rintro ⟨member, largest⟩
    let pick : List α → Option α := fun list =>
      if list = rows then some row else firstMax key list
    have spec : ∀ list chosen, pick list = some chosen →
        chosen ∈ list ∧ ∀ other ∈ list, key other ≤ key chosen := by
      intro list chosen picked
      by_cases same : list = rows
      · simp only [pick, same, if_true, Option.some.injEq] at picked
        subst picked
        exact same ▸ ⟨member, largest⟩
      · simp only [pick, if_neg same] at picked
        exact firstMax_spec list chosen picked
    refine ⟨⟨pick, ?_, fun list chosen picked => (spec list chosen picked).1,
      fun list chosen picked => (spec list chosen picked).2⟩, if_pos rfl⟩
    intro list
    by_cases same : list = rows
    · simp only [pick, same, if_true, reduceCtorEq, false_iff]
      exact List.ne_nil_of_mem member
    · simp only [pick, if_neg same]
      exact firstMax_eq_none list

end Top

theorem orderedInsert_of_forall_not {α : Type u} (before : α → α → Prop) [DecidableRel before]
    (row : α) (rows : List α) (last : ∀ other ∈ rows, ¬ before row other) :
    rows.orderedInsert before row = rows ++ [row] := by
  induction rows with
  | nil => rfl
  | cons head rest ih =>
      have notHead := last head List.mem_cons_self
      have notRest : ∀ other ∈ rest, ¬ before row other := by
        intro other member
        exact last other (List.mem_cons_of_mem head member)
      rw [List.orderedInsert_cons, if_neg notHead, ih notRest, List.cons_append]

/-- A list in which no row comes before a later one sorts to its reverse. -/
theorem insertionSort_eq_reverse {α : Type u} (before : α → α → Prop) [DecidableRel before]
    (rows : List α) (order : rows.Pairwise fun earlier later => ¬ before earlier later) :
    rows.insertionSort before = rows.reverse := by
  induction rows with
  | nil => rfl
  | cons head rest ih =>
      obtain ⟨headLast, restOrder⟩ := List.pairwise_cons.mp order
      rw [List.insertionSort_cons, ih restOrder, List.reverse_cons]
      apply orderedInsert_of_forall_not
      intro other member
      exact headLast other (List.mem_reverse.mp member)

/-! ## `ORDER BY key LIMIT n` -/

/-- A way to sort rows by a key; rows of one key may come in any order. -/
structure OrderBy (α : Type u) (S : Type v) [LinearOrder S] where
  sort : (α → S) → List α → List α
  perm : ∀ key rows, (sort key rows).Perm rows
  sorted : ∀ key rows, (sort key rows).Pairwise fun left right => key left ≤ key right

namespace OrderBy

variable {α : Type u} {S : Type v} [LinearOrder S]

/-- Rows of one key stay in the order they come in. -/
def stable : OrderBy α S where
  sort key rows := rows.insertionSort fun left right => key left ≤ key right
  perm _ rows := List.perm_insertionSort _ rows
  sorted key rows := by
    have total : Std.Total fun left right : α => key left ≤ key right :=
      ⟨fun left right => le_total (key left) (key right)⟩
    have trans : IsTrans α fun left right => key left ≤ key right :=
      ⟨fun _ _ _ first second => first.trans second⟩
    exact List.pairwise_insertionSort _ rows

/-- `ORDER BY key LIMIT limit` -/
def top (order : OrderBy α S) (key : α → S) (limit : Nat) (rows : List α) : List α :=
  (order.sort key rows).take limit

variable (order : OrderBy α S) (key : α → S) (limit : Nat) (rows : List α)

/-- Some of the rows, and each as often as it is there at most. -/
theorem top_subperm : (order.top key limit rows).Subperm rows :=
  (List.take_sublist limit _).subperm.trans (order.perm key rows).subperm

theorem mem_of_mem_top {row : α} (member : row ∈ order.top key limit rows) : row ∈ rows :=
  (order.top_subperm key limit rows).subset member

end OrderBy

/-! ## `coalesce(max(key), 0)` -/

theorem le_foldr_max {numbers : List Nat} {number : Nat} (member : number ∈ numbers) :
    number ≤ numbers.foldr max 0 := by
  induction numbers with
  | nil => cases member
  | cons head rest ih =>
      rw [List.foldr_cons]
      rcases List.mem_cons.mp member with rfl | inRest
      · exact Nat.le_max_left _ _
      · exact Nat.le_trans (ih inRest) (Nat.le_max_right _ _)

theorem foldr_max_mem (numbers : List Nat) :
    numbers.foldr max 0 = 0 ∨ numbers.foldr max 0 ∈ numbers := by
  induction numbers with
  | nil => exact Or.inl rfl
  | cons head rest ih =>
      rw [List.foldr_cons]
      rcases Nat.le_total (rest.foldr max 0) head with small | large
      · rw [Nat.max_eq_left small]
        exact Or.inr List.mem_cons_self
      · rw [Nat.max_eq_right large]
        rcases ih with zero | member
        · exact Or.inl zero
        · exact Or.inr (List.mem_cons_of_mem head member)

/-- One past the maximum, without the fold. -/
theorem eq_foldr_max_succ_iff {numbers : List Nat} {next : Nat} :
    next = numbers.foldr max 0 + 1 ↔
      (∀ number ∈ numbers, number < next) ∧
        (next = 1 ∨ ∃ number ∈ numbers, next = number + 1) := by
  constructor
  · rintro rfl
    refine ⟨fun number member => Nat.lt_succ_of_le (le_foldr_max member), ?_⟩
    rcases foldr_max_mem numbers with zero | member
    · exact Or.inl (by rw [zero])
    · exact Or.inr ⟨_, member, rfl⟩
  · rintro ⟨below, next⟩
    rcases foldr_max_mem numbers with zero | member
    · rcases next with rfl | ⟨number, member, rfl⟩
      · rw [zero]
      · have small := le_foldr_max member
        omega
    · have largest := below _ member
      rcases next with rfl | ⟨number, inside, rfl⟩
      · omega
      · have small := le_foldr_max inside
        omega

/-! ## `key NOT IN (...)` -/

section NotIn

variable {K : Type v} {ρ : Type u} {key : ρ → K} {left right : List ρ}

theorem keys_apart (distinct : ((left ++ right).map key).Nodup) {first second : ρ}
    (isLeft : first ∈ left) (isRight : second ∈ right) : key first ≠ key second := by
  rw [List.map_append] at distinct
  have apart := List.disjoint_of_nodup_append distinct
  intro same
  exact apart (List.mem_map_of_mem isLeft) (same ▸ List.mem_map_of_mem isRight)

variable [DecidableEq K]

theorem filter_notIn_left (distinct : ((left ++ right).map key).Nodup) :
    (left ++ right).filter (fun row => key row ∉ left.map key) = right := by
  rw [List.filter_append, List.filter_eq_nil_iff.mpr, List.filter_eq_self.mpr, List.nil_append]
  · intro second isRight
    refine decide_eq_true fun inLeft => ?_
    obtain ⟨first, isLeft, same⟩ := List.mem_map.mp inLeft
    exact keys_apart distinct isLeft isRight same
  · intro first isLeft
    simp only [decide_eq_true_eq, not_not]
    exact List.mem_map_of_mem isLeft

theorem filter_notIn_right (distinct : ((left ++ right).map key).Nodup) :
    (left ++ right).filter (fun row => key row ∉ right.map key) = left := by
  rw [List.filter_append, List.filter_eq_self.mpr, List.filter_eq_nil_iff.mpr, List.append_nil]
  · intro second isRight
    simp only [decide_eq_true_eq, not_not]
    exact List.mem_map_of_mem isRight
  · intro first isLeft
    refine decide_eq_true fun inRight => ?_
    obtain ⟨second, isRight, same⟩ := List.mem_map.mp inRight
    exact keys_apart distinct isLeft isRight same.symm

end NotIn

/-! ## Loops over rows -/

theorem mapM_congr {m : Type u → Type u} [Monad m] [LawfulMonad m] {α β : Type u}
    {rows : List α} {f g : α → m β} (same : ∀ row ∈ rows, f row = g row) :
    rows.mapM f = rows.mapM g := by
  induction rows with
  | nil => rfl
  | cons row rest ih =>
      have tail := ih fun other member => same other (List.mem_cons_of_mem row member)
      rw [List.mapM_cons, List.mapM_cons, same row List.mem_cons_self, tail]

end Basis
