import Mathlib.Analysis.SpecialFunctions.Sigmoid
import ProductionRag.Api.Lexical

/-!
# Reranking

The rows of a hybrid search get new scores, from a cross-encoder where there is one and else from
the hybrid score and the words of the question.  Lexical scores and both kinds of new scores lie
between zero and one, where the evidence threshold lies.
-/

set_option autoImplicit false

namespace ProductionRag

open Basis

/-! ## The two-branch sigmoid -/

noncomputable def sigmoid (value : ℝ) : ℝ :=
  if 0 ≤ value then 1 / (1 + Real.exp (-value))
  else
    let exp := Real.exp value
    exp / (1 + exp)

/-- Both branches are the same function. -/
theorem sigmoid_eq (value : ℝ) : sigmoid value = Real.sigmoid value := by
  rw [sigmoid, Real.sigmoid_def]
  split
  · rw [one_div]
  · have positive := Real.exp_pos value
    have inverse : Real.exp (-value) = (Real.exp value)⁻¹ := Real.exp_neg value
    rw [inverse]
    field_simp
    ring

/-! ## The reranker -/

/-- A row of a search, with the columns that reranking does not read in `rest`. -/
structure Row (σ ρ : Type) where
  text : String
  score : σ
  rest : ρ

/-- `dict(row, score=score)` -/
def Row.rescored {σ τ ρ : Type} (row : Row σ ρ) (score : τ) : Row τ ρ :=
  { text := row.text, score, rest := row.rest }

/-- The row without its score. -/
def Row.unscored {σ ρ : Type} (row : Row σ ρ) : String × ρ := (row.text, row.rest)

/-- A loaded model gives each pair of a question and a text one logit. -/
structure CrossEncoder where
  predict : List (String × String) → List ℝ
  length_predict : ∀ pairs, (predict pairs).length = pairs.length

structure CrossEncoderReranker where
  modelName : String := "cross-encoder/ms-marco-MiniLM-L-6-v2"
  model : Option CrossEncoder := none
  unavailable : Bool := false

/-- `zip(left, right, strict=True)` -/
def zipStrict {α β : Type} (left : List α) (right : List β) : Except PyError (List (α × β)) :=
  if right.length < left.length then
    .error (.valueError "zip() argument 2 is shorter than argument 1")
  else if left.length < right.length then
    .error (.valueError "zip() argument 2 is longer than argument 1")
  else .ok (left.zip right)

theorem zipStrict_ok {α β : Type} {left : List α} {right : List β}
    (sameLength : right.length = left.length) : zipStrict left right = .ok (left.zip right) := by
  rw [zipStrict, if_neg (by omega), if_neg (by omega)]

namespace CrossEncoderReranker

/-- `_load`; the package may be missing. -/
def load (reranker : CrossEncoderReranker) (package : Option (String → CrossEncoder)) :
    Option CrossEncoder × CrossEncoderReranker :=
  if reranker.model.isNone && !reranker.unavailable then
    match package with
    | none => (none, { reranker with unavailable := true })
    | some encoder =>
      let model := some (encoder reranker.modelName)
      (model, { reranker with model })
  else (reranker.model, reranker)

/-- `_fallback_score` -/
noncomputable def fallbackScore {ρ : Type} (lower : String → String) (question : String)
    (row : Row (Option ℝ) ρ) : ℝ :=
  let base := min (max (row.score.getD 0) 0) 1
  9 / 10 * base + 1 / 10 * (overlap lower question row.text : ℚ)

/-- `key=lambda row: -row["score"]` -/
def higherFirst {ρ : Type} (left right : Row ℝ ρ) : Prop := right.score ≤ left.score

noncomputable instance {ρ : Type} : DecidableRel (@higherFirst ρ) := fun left right =>
  inferInstanceAs (Decidable (right.score ≤ left.score))

/-- The new scores, before sorting. -/
noncomputable def ranked {ρ : Type} (model : Option CrossEncoder) (lower : String → String)
    (question : String) (rows : List (Row (Option ℝ) ρ)) : Except PyError (List (Row ℝ ρ)) :=
  match model with
  | some model =>
    let logits := model.predict (rows.map fun row => (question, row.text))
    (zipStrict rows logits).map fun entries : List (Row (Option ℝ) ρ × ℝ) =>
      entries.map fun entry => entry.1.rescored (sigmoid entry.2)
  | none => .ok (rows.map fun row => row.rescored (fallbackScore lower question row))

noncomputable def rerank {ρ : Type} (reranker : CrossEncoderReranker)
    (package : Option (String → CrossEncoder)) (lower : String → String) (question : String)
    (rows : List (Row (Option ℝ) ρ)) : Except PyError (List (Row ℝ ρ)) × CrossEncoderReranker :=
  if rows.isEmpty then (.ok [], reranker)
  else
    let (model, loaded) := reranker.load package
    ((ranked model lower question rows).map fun rows : List (Row ℝ ρ) =>
      rows.insertionSort higherFirst, loaded)

/-! ## What comes back -/

section Results

variable {ρ : Type} {lower : String → String} {question : String}

/-- The rows themselves, in falling order of scores between zero and one. -/
structure Reranked (rows : List (Row (Option ℝ) ρ)) (results : List (Row ℝ ρ)) : Prop where
  same : (results.map Row.unscored).Perm (rows.map Row.unscored)
  falling : results.Pairwise higherFirst
  bounded : ∀ row ∈ results, 0 ≤ row.score ∧ row.score ≤ 1

instance : Std.Total (@higherFirst ρ) := ⟨fun left right => le_total right.score left.score⟩

instance : IsTrans (Row ℝ ρ) higherFirst := ⟨fun _ _ _ first second => second.trans first⟩

theorem reranked_sorted {rows : List (Row (Option ℝ) ρ)} {scored : List (Row ℝ ρ)}
    (same : scored.map Row.unscored = rows.map Row.unscored)
    (bounded : ∀ row ∈ scored, 0 ≤ row.score ∧ row.score ≤ 1) :
    Reranked rows (scored.insertionSort higherFirst) where
  same := same ▸ (List.perm_insertionSort higherFirst scored).map Row.unscored
  falling := List.pairwise_insertionSort higherFirst scored
  bounded row member := bounded row ((List.mem_insertionSort higherFirst).mp member)

/-- The blend stays between zero and one, however large the hybrid score is. -/
theorem fallbackScore_bounded (row : Row (Option ℝ) ρ) :
    0 ≤ fallbackScore lower question row ∧ fallbackScore lower question row ≤ 1 := by
  have baseLow : (0 : ℝ) ≤ min (max (row.score.getD 0) 0) 1 := le_min (le_max_right _ _) zero_le_one
  have baseHigh : min (max (row.score.getD 0) 0) 1 ≤ (1 : ℝ) := min_le_right _ _
  have overlapLow : (0 : ℝ) ≤ (overlap lower question row.text : ℚ) :=
    Rat.cast_nonneg.mpr (overlap_nonneg lower question row.text)
  have overlapHigh : ((overlap lower question row.text : ℚ) : ℝ) ≤ 1 := by
    exact_mod_cast overlap_le_one lower question row.text
  rw [fallbackScore]
  constructor
  · positivity
  · linarith

/-- Rows with logits, the higher logit first. -/
def higherLogit (left right : Row (Option ℝ) ρ × ℝ) : Prop := right.2 ≤ left.2

noncomputable instance : DecidableRel (@higherLogit ρ) := fun left right =>
  inferInstanceAs (Decidable (right.2 ≤ left.2))

/-- The rows in the order of their logits, each with the probability of its logit. -/
noncomputable def byLogits (model : CrossEncoder) (question : String)
    (rows : List (Row (Option ℝ) ρ)) : List (Row ℝ ρ) :=
  let logits := model.predict (rows.map fun row => (question, row.text))
  ((rows.zip logits).insertionSort higherLogit).map fun entry =>
    entry.1.rescored (Real.sigmoid entry.2)

/-- A greater logit is a greater probability, so sorting by one is sorting by the other. -/
theorem sorted_eq_byLogits (model : CrossEncoder) (rows : List (Row (Option ℝ) ρ)) :
    ((rows.zip (model.predict (rows.map fun row => (question, row.text)))).map fun entry =>
      entry.1.rescored (sigmoid entry.2)).insertionSort higherFirst =
      byLogits model question rows := by
  simp only [byLogits, sigmoid_eq]
  symm
  apply List.map_insertionSort
  intro left _ right _
  exact Real.sigmoid_le_iff.symm

theorem ranked_some (model : CrossEncoder) (rows : List (Row (Option ℝ) ρ)) :
    ranked (some model) lower question rows =
      .ok ((rows.zip (model.predict (rows.map fun row => (question, row.text)))).map fun entry =>
        entry.1.rescored (sigmoid entry.2)) := by
  have sameLength : (model.predict (rows.map fun row => (question, row.text))).length =
      rows.length := by
    rw [model.length_predict, List.length_map]
  rw [ranked, zipStrict_ok sameLength]
  rfl

/-- Whichever way the rows are scored, they are all there and their scores are bounded. -/
theorem ranked_ok (model : Option CrossEncoder) (rows : List (Row (Option ℝ) ρ)) :
    ∃ scored, ranked model lower question rows = .ok scored ∧
      scored.map Row.unscored = rows.map Row.unscored ∧
      ∀ row ∈ scored, 0 ≤ row.score ∧ row.score ≤ 1 := by
  cases model with
  | none =>
      refine ⟨_, rfl, ?_, ?_⟩
      · rw [List.map_map]
        rfl
      · intro result member
        obtain ⟨row, _, rfl⟩ := List.mem_map.mp member
        exact fallbackScore_bounded row
  | some model =>
      refine ⟨_, ranked_some model rows, ?_, ?_⟩
      · rw [List.map_map]
        have zipped : ∀ logits : List ℝ, logits.length = rows.length →
            (rows.zip logits).map (fun entry => entry.1.unscored) = rows.map Row.unscored := by
          intro logits sameLength
          have first : (rows.zip logits).map Prod.fst = rows := List.map_fst_zip (by omega)
          have texts := congrArg (List.map Row.unscored) first
          rw [List.map_map] at texts
          exact texts
        exact zipped _ (by rw [model.length_predict, List.length_map])
      · intro result member
        obtain ⟨entry, _, rfl⟩ := List.mem_map.mp member
        change 0 ≤ sigmoid entry.2 ∧ sigmoid entry.2 ≤ 1
        rw [sigmoid_eq]
        exact ⟨Real.sigmoid_nonneg _, Real.sigmoid_le_one _⟩

/-- Rows or not, what is sorted are the new scores. -/
theorem rerank_results (reranker : CrossEncoderReranker)
    (package : Option (String → CrossEncoder)) (rows : List (Row (Option ℝ) ρ)) :
    (reranker.rerank package lower question rows).1 =
      (ranked (reranker.load package).1 lower question rows).map fun rows : List (Row ℝ ρ) =>
        rows.insertionSort higherFirst := by
  cases rows with
  | nil =>
      cases (reranker.load package).1 with
      | none => rfl
      | some model =>
          rw [ranked_some]
          rfl
  | cons row rows => rfl

theorem rerank_ok (reranker : CrossEncoderReranker) (package : Option (String → CrossEncoder))
    (lower : String → String) (question : String) (rows : List (Row (Option ℝ) ρ)) :
    ∃ results, (reranker.rerank package lower question rows).1 = .ok results ∧
      Reranked rows results ∧
        ∀ model, (reranker.load package).1 = some model →
          results = byLogits model question rows := by
  rw [rerank_results]
  obtain ⟨scored, isRanked, same, bounded⟩ := @ranked_ok ρ lower question
    (reranker.load package).1 rows
  refine ⟨scored.insertionSort higherFirst, ?_, reranked_sorted same bounded, ?_⟩
  · rw [isRanked]
    rfl
  · intro model loaded
    rw [loaded, ranked_some] at isRanked
    rw [← Except.ok.inj isRanked]
    exact sorted_eq_byLogits model rows

end Results

end CrossEncoderReranker

open CrossEncoderReranker in
/-- Lexical scores and the scores of both ways to rerank lie between zero and one; nothing in
common is zero, and with a cross-encoder the logits decide the order. -/
theorem scores_on_one_scale (lower : String → String) :
    (∀ question text,
      0 ≤ lexicalScore lower question text ∧ lexicalScore lower question text ≤ 1 ∧
        (lexicalScore lower question text = 0 ↔ ¬ SharesTerm lower question text)) ∧
    (∀ (pipeline : RagQueryPipeline) question tenantId,
      ∀ entry ∈ pipeline.retrieveBy (lexicalScore lower) question tenantId,
        0 ≤ entry.2 ∧ entry.2 ≤ 1 ∧ (entry.2 = 0 ↔ ¬ SharesTerm lower question entry.1.text)) ∧
    ∀ (ρ : Type) (reranker : CrossEncoderReranker) package question
      (rows : List (Row (Option ℝ) ρ)), ∃ results,
        (reranker.rerank package lower question rows).1 = .ok results ∧ Reranked rows results ∧
          ∀ model, (reranker.load package).1 = some model →
            results = byLogits model question rows := by
  have bounded : ∀ question text,
      0 ≤ lexicalScore lower question text ∧ lexicalScore lower question text ≤ 1 ∧
        (lexicalScore lower question text = 0 ↔ ¬ SharesTerm lower question text) := by
    intro question text
    exact ⟨lexicalScore_nonneg _ _ _, lexicalScore_le_one _ _ _, lexicalScore_eq_zero_iff⟩
  refine ⟨bounded, ?_, ?_⟩
  · intro pipeline question tenantId entry member
    obtain ⟨chunk, _, _, rfl⟩ := pipeline.mem_retrieveBy member
    exact bounded question chunk.text
  · intro ρ reranker package question rows
    exact reranker.rerank_ok package lower question rows

end ProductionRag
