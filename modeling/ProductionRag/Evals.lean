import Mathlib.Data.Real.Basic
import ProductionRag.Api.Calibration
import ProductionRag.Basis.Thresholds

/-!
# Suggesting a threshold

The evaluation asks questions with and without an answer, notes the best score of each, and
`best_threshold` picks from these scores the one that tells the two kinds of questions apart
best.  No other threshold does better.
-/

set_option autoImplicit false

namespace ProductionRag

open Basis

/-! ## Balanced accuracy -/

section Shares

variable {α : Type} {p q : α → Bool} {items : List α}

/-- The part of a list that has a property. -/
def share (p : α → Bool) (items : List α) : ℚ := items.countP p / items.length

theorem share_nonneg (p : α → Bool) (items : List α) : 0 ≤ share p items :=
  div_nonneg (Nat.cast_nonneg _) (Nat.cast_nonneg _)

theorem share_le_one (p : α → Bool) (items : List α) : share p items ≤ 1 :=
  div_le_one_of_le₀ (Nat.cast_le.mpr List.countP_le_length) (Nat.cast_nonneg _)

theorem share_eq_one (nonempty : items ≠ []) (all : ∀ item ∈ items, p item = true) :
    share p items = 1 := by
  have long : (items.length : ℚ) ≠ 0 := by
    rw [Nat.cast_ne_zero]
    exact fun empty => nonempty (List.length_eq_zero_iff.mp empty)
  rw [share, List.countP_eq_length.mpr all, div_self long]

theorem share_eq_zero (none : ∀ item ∈ items, p item = false) : share p items = 0 := by
  have count : items.countP p = 0 := by
    rw [List.countP_eq_zero]
    intro item member
    simp [none item member]
  rw [share, count, Nat.cast_zero, zero_div]

theorem share_congr (same : ∀ item ∈ items, p item = q item) : share p items = share q items := by
  have count : items.countP p = items.countP q := by
    apply List.countP_congr
    intro item member
    rw [same item member]
  rw [share, share, count]

theorem share_map {β : Type} (f : β → α) (p : α → Bool) (items : List β) :
    share p (items.map f) = share (fun item => p (f item)) items := by
  rw [share, share, List.countP_map, List.length_map]
  rfl

/-- `max(len(items), 1)` divides as the length does. -/
theorem share_eq_div_max (p : α → Bool) (items : List α) :
    (items.countP p : ℚ) / (max items.length 1 : ℕ) = share p items := by
  cases items with
  | nil => simp [share]
  | cons first rest =>
      rw [share, max_eq_left]
      simp

/-- How well a gate tells two lists apart: the mean of the answered part of one and the refused
part of the other. -/
def balancedAccuracy (answerable unanswerable : List α) (answers : α → Bool) : ℚ :=
  (share answers answerable + share (fun item => !answers item) unanswerable) / 2

theorem balancedAccuracy_congr {answerable unanswerable : List α}
    (same : ∀ item ∈ answerable ++ unanswerable, p item = q item) :
    balancedAccuracy answerable unanswerable p = balancedAccuracy answerable unanswerable q := by
  rw [List.forall_mem_append] at same
  rw [balancedAccuracy, balancedAccuracy, share_congr same.1]
  rw [share_congr fun item member => congrArg (!·) (same.2 item member)]

end Shares

variable (answerable unanswerable : List ℚ)

noncomputable def accuracyAt (threshold : ℝ) : ℚ :=
  balancedAccuracy answerable unanswerable fun score => decide (threshold ≤ (score : ℝ))

/-! ## `best_threshold` -/

/-- `sorted({0.0, *answerable, *unanswerable})` -/
def candidateThresholds : List ℚ :=
  (0 :: (answerable ++ unanswerable)).dedup.insertionSort (· ≤ ·)

/-- The accuracy the loop computes. -/
def balanced (threshold : ℚ) : ℚ :=
  let answered := (answerable.countP fun score => threshold ≤ score : ℚ) /
    (max answerable.length 1 : ℕ)
  let abstained := (unanswerable.countP fun score => score < threshold : ℚ) /
    (max unanswerable.length 1 : ℕ)
  (answered + abstained) / 2

def bestThreshold : ℚ :=
  (firstBest (balanced answerable unanswerable) (0, -1)
    (candidateThresholds answerable unanswerable)).1

variable {answerable unanswerable : List ℚ}

theorem mem_candidateThresholds {threshold : ℚ} :
    threshold ∈ candidateThresholds answerable unanswerable ↔
      threshold = 0 ∨ threshold ∈ answerable ++ unanswerable := by
  rw [candidateThresholds, List.mem_insertionSort, List.mem_dedup, List.mem_cons]

theorem balanced_eq_accuracyAt (threshold : ℚ) :
    balanced answerable unanswerable threshold =
      accuracyAt answerable unanswerable threshold := by
  have refused : (fun score : ℚ => decide (score < threshold)) =
      fun score => !decide (threshold ≤ score) := by
    funext score
    rw [← decide_not, decide_eq_decide, not_le]
  rw [balanced, share_eq_div_max, share_eq_div_max, refused, accuracyAt]
  simp only [Rat.cast_le, balancedAccuracy]

theorem accuracyAt_nonneg (threshold : ℝ) : 0 ≤ accuracyAt answerable unanswerable threshold :=
  div_nonneg (add_nonneg (share_nonneg _ _) (share_nonneg _ _)) (by norm_num)

/-- A gate above all scores refuses everything. -/
theorem accuracyAt_above {threshold : ℝ}
    (above : ∀ s ∈ answerable ++ unanswerable, ¬ threshold ≤ (s : ℝ)) :
    accuracyAt answerable unanswerable threshold ≤ 1 / 2 := by
  have none : share (fun score : ℚ => decide (threshold ≤ (score : ℝ))) answerable = 0 :=
    share_eq_zero fun s member => decide_eq_false (above s (List.mem_append_left _ member))
  have most := share_le_one (fun score : ℚ => !decide (threshold ≤ (score : ℝ))) unanswerable
  rw [accuracyAt, balancedAccuracy, none]
  linarith

/-- A gate at zero answers whatever has an answer. -/
theorem accuracyAt_zero (nonempty : answerable ≠ []) (nonneg : ∀ s ∈ answerable, 0 ≤ s) :
    1 / 2 ≤ accuracyAt answerable unanswerable (0 : ℚ) := by
  have all : share (fun score : ℚ => decide (((0 : ℚ) : ℝ) ≤ (score : ℝ))) answerable = 1 :=
    share_eq_one nonempty fun s member => decide_eq_true (Rat.cast_le.mpr (nonneg s member))
  have least := share_nonneg (fun score : ℚ => !decide (((0 : ℚ) : ℝ) ≤ (score : ℝ))) unanswerable
  rw [accuracyAt, balancedAccuracy, all]
  exact div_le_div_of_nonneg_right (le_add_of_nonneg_right least) (by norm_num)

/-- Some candidate is as good as any threshold, because the scores see a threshold only by the
first of them that reaches it. -/
theorem exists_candidate_as_good (nonempty : answerable ≠ []) (nonneg : ∀ s ∈ answerable, 0 ≤ s)
    (threshold : ℝ) : ∃ c ∈ candidateThresholds answerable unanswerable,
      accuracyAt answerable unanswerable threshold ≤ balanced answerable unanswerable c := by
  have upward : Monotone fun score : ℚ => threshold ≤ (score : ℝ) := by
    intro low high le reached
    exact reached.trans (Rat.cast_le.mpr le)
  rcases exists_threshold upward (answerable ++ unanswerable) with above | ⟨c, member, cut⟩
  · refine ⟨0, mem_candidateThresholds.mpr (Or.inl rfl), ?_⟩
    rw [balanced_eq_accuracyAt]
    exact (accuracyAt_above above).trans (accuracyAt_zero nonempty nonneg)
  · refine ⟨c, mem_candidateThresholds.mpr (Or.inr member), ?_⟩
    rw [balanced_eq_accuracyAt, accuracyAt, accuracyAt]
    apply le_of_eq
    apply balancedAccuracy_congr
    intro s inScores
    simp only [cut s inScores, Rat.cast_le]

theorem candidate_better : ∃ c ∈ candidateThresholds answerable unanswerable,
    (-1 : ℚ) < balanced answerable unanswerable c := by
  refine ⟨0, mem_candidateThresholds.mpr (Or.inl rfl), ?_⟩
  rw [balanced_eq_accuracyAt]
  exact (by norm_num : (-1 : ℚ) < 0).trans_le (accuracyAt_nonneg _)

theorem firstBest_candidate : (firstBest (balanced answerable unanswerable) (0, -1)
    (candidateThresholds answerable unanswerable)).2 =
      accuracyAt answerable unanswerable (bestThreshold answerable unanswerable) := by
  rw [← balanced_eq_accuracyAt]
  exact firstBest_value _ candidate_better

theorem accuracyAt_le_bestThreshold (nonempty : answerable ≠ [])
    (nonneg : ∀ s ∈ answerable, 0 ≤ s) (threshold : ℝ) :
    accuracyAt answerable unanswerable threshold ≤
      accuracyAt answerable unanswerable (bestThreshold answerable unanswerable) := by
  obtain ⟨c, member, asGood⟩ := exists_candidate_as_good nonempty nonneg threshold
  calc accuracyAt answerable unanswerable threshold
      ≤ balanced answerable unanswerable c := asGood
    _ ≤ _ := value_le_firstBest _ (0, -1) _ c member
    _ = accuracyAt answerable unanswerable (bestThreshold answerable unanswerable) :=
        firstBest_candidate

example : bestThreshold [3 / 5, 7 / 10] [1 / 5, 3 / 10] = 3 / 5 := by decide +kernel

/-- `ranked[0][1] if ranked else 0.0` -/
def topScore (ranked : List Ranked) : ℚ := (ranked.head?.map Prod.snd).getD 0

namespace RagQueryPipeline

/-- A ranking of the tenant's chunks, best first, that found something. -/
structure Ranks (tenantId : String) (ranked : List Ranked) : Prop where
  own : ∀ entry ∈ ranked, entry.1.tenantId = tenantId
  falling : ranked.Pairwise fun left right => right.2 ≤ left.2
  found : ranked ≠ []

/-- What the first candidate scores decides whether there is evidence. -/
theorem gate_isEmpty (pipeline : RagQueryPipeline) {tenantId : String} {ranked : List Ranked}
    (ranks : Ranks tenantId ranked) :
    (!(pipeline.gate tenantId ranked).isEmpty) =
      decide (pipeline.minScore ≤ topScore ranked) := by
  obtain ⟨own, falling, found⟩ := ranks
  rw [Bool.eq_iff_iff, Bool.not_eq_true', List.isEmpty_eq_false_iff, decide_eq_true_eq,
    pipeline.gate_ne_nil_iff own]
  obtain ⟨first, rest, rfl⟩ := List.exists_cons_of_ne_nil found
  constructor
  · rintro ⟨entry, member, admitted⟩
    refine admitted.trans ?_
    rcases List.mem_cons.mp (List.mem_of_mem_take member) with rfl | later
    · exact le_rfl
    · exact List.rel_of_pairwise_cons falling later
  · intro admitted
    refine ⟨first, ?_, admitted⟩
    obtain ⟨n, isTopK⟩ := Nat.exists_eq_add_of_lt pipeline.topK_pos
    rw [isTopK, Nat.zero_add, List.take_succ_cons]
    exact List.mem_cons_self

/-- How well the gate of the pipeline tells two lists of questions apart, each given by what it
ranks. -/
def measured (pipeline : RagQueryPipeline) (tenantId : String)
    (answerable unanswerable : List (List Ranked)) : ℚ :=
  balancedAccuracy answerable unanswerable fun ranked =>
    !(pipeline.gate tenantId ranked).isEmpty

theorem measured_eq (pipeline : RagQueryPipeline) {tenantId : String}
    {answerable unanswerable : List (List Ranked)}
    (ranks : ∀ ranked ∈ answerable ++ unanswerable, Ranks tenantId ranked) :
    pipeline.measured tenantId answerable unanswerable =
      accuracyAt (answerable.map topScore) (unanswerable.map topScore) pipeline.minScore := by
  rw [measured, balancedAccuracy_congr fun ranked member =>
    pipeline.gate_isEmpty (ranks ranked member)]
  simp only [accuracyAt, balancedAccuracy, share_map, Rat.cast_le]

/-- A pipeline gated by the suggested threshold tells the questions apart as well as any
pipeline does. -/
theorem measured_le_suggested (suggested : RagQueryPipeline) {tenantId : String}
    {answerable unanswerable : List (List Ranked)} (nonempty : answerable ≠ [])
    (ranks : ∀ ranked ∈ answerable ++ unanswerable, Ranks tenantId ranked)
    (nonneg : ∀ ranked ∈ answerable, 0 ≤ topScore ranked)
    (gated : suggested.minScore =
      bestThreshold (answerable.map topScore) (unanswerable.map topScore))
    (pipeline : RagQueryPipeline) :
    pipeline.measured tenantId answerable unanswerable ≤
      suggested.measured tenantId answerable unanswerable := by
  rw [pipeline.measured_eq ranks, suggested.measured_eq ranks, gated]
  apply accuracyAt_le_bestThreshold
  · exact fun empty => nonempty (List.map_eq_nil_iff.mp empty)
  · exact List.forall_mem_map.mpr nonneg

end RagQueryPipeline

end ProductionRag
