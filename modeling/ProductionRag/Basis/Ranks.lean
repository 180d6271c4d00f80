import Mathlib.Order.Defs.LinearOrder
import ProductionRag.Basis.Table

/-!
# Ranks in ordered lists

Two ordered lists are merged into one table under the keys of their rows.  What the table holds of
a key is what the lists hold of it: its row there and its rank, counted from one.
-/

set_option autoImplicit false

namespace Basis

universe u v w

variable {ε : Type u} {K : Type v} {V : Type w} [DecidableEq K]

/-! ## A loop that merges rows -/

/-- Every key holds what the row of the key made of what it held before. -/
theorem Table.find?_foldl_set (key : ε → K) (update : Option V → ε → V) {rows : List ε}
    (distinct : (rows.map key).Nodup) (table : Table K V) (k : K) :
    (rows.foldl (fun table row =>
        table.set (key row) (update (table.find? (key row)) row)) table).find? k =
      ((rows.find? fun row => key row = k).map (update (table.find? k))).or (table.find? k) := by
  induction rows generalizing table with
  | nil => rfl
  | cons row rest ih =>
      obtain ⟨fresh, distinct⟩ := List.nodup_cons.mp distinct
      rw [List.foldl_cons, ih distinct, Table.find?_set]
      by_cases same : key row = k
      · subst same
        have none : rest.find? (fun other => key other = key row) = none := by
          rw [List.find?_eq_none]
          intro other member isSame
          exact fresh (List.mem_map.mpr ⟨other, member, of_decide_eq_true isSame⟩)
        simp [none]
      · simp [same, Ne.symm same]

/-- What every assignment of a loop keeps holds of all values after it. -/
theorem Table.forall_foldl_set (key : ε → K) (update : Option V → ε → V)
    {P : K → V → Prop} {rows : List ε}
    (kept : ∀ row ∈ rows, ∀ held, (∀ value ∈ held, P (key row) value) →
      P (key row) (update held row))
    {table : Table K V} (start : ∀ k, ∀ value ∈ table.find? k, P k value) :
    ∀ k, ∀ value ∈ (rows.foldl (fun table row =>
        table.set (key row) (update (table.find? (key row)) row)) table).find? k, P k value := by
  induction rows generalizing table with
  | nil => exact start
  | cons row rest ih =>
      rw [List.foldl_cons]
      refine ih (fun other member => kept other (List.mem_cons_of_mem row member)) ?_
      intro k value found
      rw [Table.find?_set] at found
      split at found
      · rename_i same
        rw [same, ← Option.some.inj found]
        exact kept row List.mem_cons_self _ (start (key row))
      · exact start k value found

/-! ## Places -/

def place (key : ε → K) (rows : List ε) (k : K) : Option (ε × Nat) :=
  (rows.zipIdx 1).find? fun entry => key entry.1 = k

theorem place_some {key : ε → K} {rows : List ε} {k : K} {row : ε} {rank : Nat}
    (found : place key rows k = some (row, rank)) :
    key row = k ∧ 1 ≤ rank ∧ rows[rank - 1]? = some row := by
  have same := List.find?_some found
  obtain ⟨counted, here⟩ :=
    List.mk_mem_zipIdx_iff_le_and_getElem?_sub.mp (List.mem_of_find?_eq_some found)
  exact ⟨of_decide_eq_true same, counted, here⟩

theorem place_isSome_iff {key : ε → K} {rows : List ε} {k : K} :
    (place key rows k).isSome = true ↔ k ∈ rows.map key := by
  rw [place, List.find?_isSome, List.mem_map]
  constructor
  · rintro ⟨⟨row, rank⟩, member, same⟩
    exact ⟨row, List.fst_mem_of_mem_zipIdx member, of_decide_eq_true same⟩
  · rintro ⟨row, member, same⟩
    obtain ⟨n, here⟩ := List.mem_iff_getElem?.mp member
    exact ⟨(row, 1 + n), List.mk_add_mem_zipIdx_iff_getElem?.mpr here, decide_eq_true same⟩

theorem place_rank_le {key : ε → K} {rows : List ε} {k : K} {row : ε} {rank : Nat}
    (found : place key rows k = some (row, rank)) : rank ≤ rows.length := by
  obtain ⟨_, counted, here⟩ := place_some found
  have inside := (List.getElem?_eq_some_iff.mp here).1
  omega

/-- In a falling list the better rank has the higher score. -/
theorem score_le_of_rank_le {S : Type w} [LinearOrder S] {score : ε → S} {key : ε → K}
    {rows : List ε} (falling : rows.Pairwise fun left right => score right ≤ score left)
    {k k' : K} {row row' : ε} {rank rank' : Nat} (found : place key rows k = some (row, rank))
    (found' : place key rows k' = some (row', rank')) (better : rank ≤ rank') :
    score row' ≤ score row := by
  obtain ⟨_, counted, here⟩ := place_some found
  obtain ⟨_, _, here'⟩ := place_some found'
  obtain ⟨inside, isRow⟩ := List.getElem?_eq_some_iff.mp here
  obtain ⟨inside', isRow'⟩ := List.getElem?_eq_some_iff.mp here'
  rw [← isRow, ← isRow']
  rcases Nat.lt_or_ge (rank - 1) (rank' - 1) with before | after
  · exact List.pairwise_iff_getElem.mp falling _ _ inside inside' before
  · have same : rank - 1 = rank' - 1 := by omega
    simp only [same, le_refl]

/-- At least as good a rank, where no rank is worse than any. -/
def NoWorse : Option Nat → Option Nat → Prop
  | _, none => True
  | some rank, some rank' => rank ≤ rank'
  | none, some _ => False

instance : DecidableRel NoWorse
  | none, none => isTrue trivial
  | some _, none => isTrue trivial
  | some rank, some rank' => inferInstanceAs (Decidable (rank ≤ rank'))
  | none, some _ => isFalse id

theorem NoWorse.some_of_some {left : Option Nat} {rank : Nat} (noWorse : NoWorse left (some rank)) :
    ∃ rank', left = some rank' ∧ rank' ≤ rank := by
  cases left with
  | none => exact noWorse.elim
  | some rank' => exact ⟨rank', rfl, noWorse⟩

end Basis
