import ProductionRag.Api.Query
import ProductionRag.Basis.Gates

/-!
# Calibrating the evidence gate

Thresholds are chosen by running the same questions under different gates.  A stricter
pipeline lets through a selection of what a laxer one lets through, and whether anything
passes at all is decided by the best of the first `topK` candidates.
-/

set_option autoImplicit false

namespace ProductionRag

open Basis

namespace RagQueryPipeline

/-- The same pipeline with both thresholds as high or higher. -/
structure Stricter (pipeline stricter : RagQueryPipeline) : Prop where
  chunks : stricter.chunks = pipeline.chunks
  topK : stricter.topK = pipeline.topK
  maxQueryLength : stricter.maxQueryLength = pipeline.maxQueryLength
  minScore : pipeline.minScore ≤ stricter.minScore
  relativeScore : pipeline.relativeScore ≤ stricter.relativeScore

/-- On candidates of the tenant the gate is a least score and a floor below the best. -/
theorem gate_eq (pipeline : RagQueryPipeline) {tenantId : String} {candidates : List Ranked}
    (own : ∀ entry ∈ candidates, entry.1.tenantId = tenantId) :
    pipeline.gate tenantId candidates =
      nearBest Prod.snd (· * pipeline.relativeScore)
        ((candidates.take pipeline.topK).filter fun entry => pipeline.minScore ≤ entry.2) := by
  have admitted : ((candidates.take pipeline.topK).filter fun entry =>
      entry.1.tenantId == tenantId && decide (pipeline.minScore ≤ entry.2)) =
      (candidates.take pipeline.topK).filter fun entry => pipeline.minScore ≤ entry.2 := by
    apply List.filter_congr
    intro entry member
    rw [own entry (List.mem_of_mem_take member), beq_self_eq_true, Bool.true_and]
  rw [gate, admitted]
  split
  next noBest => rw [nearBest_of_none noBest]
  next best top => rw [nearBest_eq top]

/-- An admitted score lies on or above its own share. -/
theorem share_le (pipeline : RagQueryPipeline) {score : ℚ} (admitted : pipeline.minScore ≤ score) :
    score * pipeline.relativeScore ≤ score :=
  mul_le_of_le_one_right (pipeline.minScore_bounds.1.trans admitted) pipeline.relativeScore_bounds.2

theorem gate_stricter {pipeline stricter : RagQueryPipeline} (tighter : Stricter pipeline stricter)
    {tenantId : String} {candidates : List Ranked}
    (own : ∀ entry ∈ candidates, entry.1.tenantId = tenantId) :
    (stricter.gate tenantId candidates).Sublist (pipeline.gate tenantId candidates) := by
  rw [gate_eq stricter own, gate_eq pipeline own, tighter.topK]
  apply nearBest_filter_sublist tighter.minScore
  intro entry _ admitted
  exact mul_le_mul_of_nonneg_left tighter.relativeScore
    (pipeline.minScore_bounds.1.trans admitted)

theorem gate_ne_nil_iff (pipeline : RagQueryPipeline) {tenantId : String}
    {candidates : List Ranked} (own : ∀ entry ∈ candidates, entry.1.tenantId = tenantId) :
    pipeline.gate tenantId candidates ≠ [] ↔
      ∃ entry ∈ candidates.take pipeline.topK, pipeline.minScore ≤ entry.2 := by
  have below : ∀ entry ∈ (candidates.take pipeline.topK).filter
      fun entry => pipeline.minScore ≤ entry.2, entry.2 * pipeline.relativeScore ≤ entry.2 := by
    intro entry member
    exact pipeline.share_le (of_decide_eq_true (List.mem_filter.mp member).2)
  rw [gate_eq pipeline own, Ne, nearBest_eq_nil_iff below, List.filter_eq_nil_iff]
  push Not
  simp only [decide_eq_true_eq]

theorem head_gate (pipeline : RagQueryPipeline) {tenantId : String} {candidates : List Ranked}
    (own : ∀ entry ∈ candidates, entry.1.tenantId = tenantId)
    (falling : candidates.Pairwise fun left right => right.2 ≤ left.2)
    (passed : pipeline.gate tenantId candidates ≠ []) :
    (pipeline.gate tenantId candidates).head? = candidates.head? := by
  rw [gate_eq pipeline own] at passed ⊢
  rw [head_nearBest_filter (falling.sublist (List.take_sublist _ _))
    (fun entry _ admitted => pipeline.share_le admitted) passed, List.head?_take,
    if_neg pipeline.topK_pos.ne']

/-- The candidates the pipeline ranks itself are chunks of the tenant. -/
theorem retrieve_own (pipeline : RagQueryPipeline) {score : String → String → ℚ}
    {question tenantId : String} :
    ∀ entry ∈ pipeline.retrieve score question tenantId, entry.1.tenantId = tenantId := by
  intro entry member
  obtain ⟨chunk, _, own, rfl⟩ := pipeline.mem_retrieve member
  exact own

/-- The candidates `evidence` gates. -/
def candidates (pipeline : RagQueryPipeline) (score : String → String → ℚ)
    (safeQuestion tenantId : String) (rankedChunks : Option (List Ranked)) : List Ranked :=
  rankedChunks.getD (pipeline.retrieve score safeQuestion tenantId)

theorem candidates_own (pipeline : RagQueryPipeline) (score : String → String → ℚ)
    (safeQuestion : String) {tenantId : String} {rankedChunks : Option (List Ranked)}
    (own : ∀ ranked ∈ rankedChunks, ∀ entry ∈ ranked, entry.1.tenantId = tenantId) :
    ∀ entry ∈ pipeline.candidates score safeQuestion tenantId rankedChunks,
      entry.1.tenantId = tenantId := by
  cases rankedChunks with
  | none => exact pipeline.retrieve_own
  | some ranked => exact own ranked rfl

theorem evidence_eq (pipeline : RagQueryPipeline) {score : String → String → ℚ}
    {question tenantId safeQuestion : String} {rankedChunks : Option (List Ranked)}
    (valid : validateQuery pipeline.maxQueryLength question tenantId = .ok safeQuestion) :
    pipeline.evidence score question tenantId rankedChunks =
      .ok (pipeline.gate tenantId
        (pipeline.candidates score safeQuestion tenantId rankedChunks)) := by
  rw [evidence, valid]
  rfl

theorem candidates_stricter {pipeline stricter : RagQueryPipeline}
    (tighter : Stricter pipeline stricter) (score : String → String → ℚ)
    (safeQuestion tenantId : String) (rankedChunks : Option (List Ranked)) :
    stricter.candidates score safeQuestion tenantId rankedChunks =
      pipeline.candidates score safeQuestion tenantId rankedChunks := by
  rw [candidates, candidates, retrieve, retrieve, tighter.chunks, tighter.topK]

/-- Raising the thresholds keeps a selection of the evidence; there is evidence exactly when
one of the first `topK` candidates reaches the least score, and evidence of a list that is
best first starts with the first candidate. -/
theorem evidence_calibrated {pipeline stricter : RagQueryPipeline}
    (tighter : Stricter pipeline stricter) (score : String → String → ℚ)
    {question tenantId safeQuestion : String}
    (valid : validateQuery pipeline.maxQueryLength question tenantId = .ok safeQuestion)
    (rankedChunks : Option (List Ranked))
    (own : ∀ ranked ∈ rankedChunks, ∀ entry ∈ ranked, entry.1.tenantId = tenantId) :
    ∃ evidence strictEvidence,
      pipeline.evidence score question tenantId rankedChunks = .ok evidence ∧
      stricter.evidence score question tenantId rankedChunks = .ok strictEvidence ∧
      strictEvidence.Sublist evidence ∧
      (evidence ≠ [] ↔ ∃ entry ∈
        (pipeline.candidates score safeQuestion tenantId rankedChunks).take pipeline.topK,
          pipeline.minScore ≤ entry.2) ∧
      ((pipeline.candidates score safeQuestion tenantId rankedChunks).Pairwise
          (fun left right => right.2 ≤ left.2) → evidence ≠ [] →
        evidence.head? =
          (pipeline.candidates score safeQuestion tenantId rankedChunks).head?) := by
  have ownCandidates := pipeline.candidates_own score safeQuestion own
  have strictValid := valid
  rw [← tighter.maxQueryLength] at strictValid
  refine ⟨_, _, pipeline.evidence_eq valid, stricter.evidence_eq strictValid, ?_, ?_, ?_⟩
  · rw [candidates_stricter tighter]
    exact gate_stricter tighter ownCandidates
  · exact pipeline.gate_ne_nil_iff ownCandidates
  · exact fun falling passed => pipeline.head_gate ownCandidates falling passed

/-- The pipeline that gates the rows of a database search. -/
def rowsGate (minScore relativeScore : ℚ) (minScore_bounds : 0 ≤ minScore ∧ minScore ≤ 1)
    (relativeScore_bounds : 0 ≤ relativeScore ∧ relativeScore ≤ 1) : RagQueryPipeline where
  chunks := []
  topK := 5
  minScore := minScore
  relativeScore := relativeScore
  maxQueryLength := 2000
  topK_pos := Nat.succ_pos _
  minScore_bounds := minScore_bounds
  relativeScore_bounds := relativeScore_bounds
  maxQueryLength_pos := Nat.succ_pos _

/-- Three rows of one tenant under a lax and under a strict gate. -/
theorem refund_rows_calibrated :
    ∃ evidence strictEvidence,
      (rowsGate (1 / 10) (1 / 2) (by norm_num) (by norm_num)).evidence (fun _ _ => 0) "refund" "t"
        (some [(⟨"a", "d", 0, "t", "a.md", none⟩, 9 / 10),
          (⟨"b", "d", 1, "t", "a.md", none⟩, 1 / 2),
          (⟨"c", "d", 2, "t", "a.md", none⟩, 1 / 20)]) = .ok evidence ∧
      (rowsGate (1 / 5) (3 / 4) (by norm_num) (by norm_num)).evidence (fun _ _ => 0) "refund" "t"
        (some [(⟨"a", "d", 0, "t", "a.md", none⟩, 9 / 10),
          (⟨"b", "d", 1, "t", "a.md", none⟩, 1 / 2),
          (⟨"c", "d", 2, "t", "a.md", none⟩, 1 / 20)]) = .ok strictEvidence ∧
      strictEvidence.Sublist evidence ∧ evidence ≠ [] := by
  have valid : validateQuery 2000 "refund" "t" = .ok "refund" := by decide +kernel
  have tighter : Stricter (rowsGate (1 / 10) (1 / 2) (by norm_num) (by norm_num))
      (rowsGate (1 / 5) (3 / 4) (by norm_num) (by norm_num)) := by
    constructor
    · rfl
    · rfl
    · rfl
    · change (1 / 10 : ℚ) ≤ 1 / 5
      norm_num
    · change (1 / 2 : ℚ) ≤ 3 / 4
      norm_num
  have own : ∀ ranked ∈ some [((⟨"a", "d", 0, "t", "a.md", none⟩, 9 / 10) : Ranked),
      (⟨"b", "d", 1, "t", "a.md", none⟩, 1 / 2), (⟨"c", "d", 2, "t", "a.md", none⟩, 1 / 20)],
      ∀ entry ∈ ranked, entry.1.tenantId = "t" := by
    decide
  obtain ⟨evidence, strictEvidence, lax, strict, selection, decided, -⟩ :=
    evidence_calibrated tighter (fun _ _ => 0) valid _ own
  refine ⟨evidence, strictEvidence, lax, strict, selection, decided.mpr ⟨_, List.mem_cons_self, ?_⟩⟩
  change (1 / 10 : ℚ) ≤ 9 / 10
  norm_num

end RagQueryPipeline

end ProductionRag
