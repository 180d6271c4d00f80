import ProductionRag.Api.Query
import ProductionRag.Basis.Cosine
import ProductionRag.Terms

/-!
# The lexical score

Without a database a text is scored by the cosine of its words and the words of the question.
Function words do not count.  Square roots are taken of exact numbers here, so these scores are
real numbers.
-/

set_option autoImplicit false

namespace ProductionRag

open Basis

/-! ## Terms -/

def stopwords : List String :=
  ["a", "an", "and", "are", "as", "at", "be", "been", "but", "by", "can", "could", "did", "do",
    "does", "for", "from", "had", "has", "have", "how", "i", "if", "in", "into", "is", "it", "its",
    "me", "my", "of", "on", "or", "our", "so", "than", "that", "the", "their", "them", "then",
    "there", "these", "they", "this", "to", "was", "we", "were", "what", "when", "where", "which",
    "who", "why", "will", "with", "would", "you", "your"]

/-- `_terms`; a `Counter` is the bag of what it counts. -/
def terms (lower : String → String) (text : String) : Multiset String :=
  ((tokens lower text).filter fun term => term ∉ stopwords : List String)

/-- A word of both texts that is no stop word. -/
def SharesTerm (lower : String → String) (question text : String) : Prop :=
  ∃ term ∈ tokens lower question, term ∈ tokens lower text ∧ term ∉ stopwords

theorem mem_terms {lower : String → String} {text term : String} :
    term ∈ terms lower text ↔ term ∈ tokens lower text ∧ term ∉ stopwords := by
  rw [terms, Multiset.mem_coe, List.mem_filter, decide_eq_true_eq]

/-! ## Scores -/

/-- `_cosine` -/
noncomputable def cosine (left right : Multiset String) : ℝ :=
  let common := left.toFinset ∩ right.toFinset
  let numerator := ∑ word ∈ common, left.count word * right.count word
  let leftNorm := √((∑ word ∈ left.toFinset, left.count word * left.count word : ℕ) : ℝ)
  let rightNorm := √((∑ word ∈ right.toFinset, right.count word * right.count word : ℕ) : ℝ)
  if leftNorm ≠ 0 ∧ rightNorm ≠ 0 then numerator / (leftNorm * rightNorm) else 0

/-- Where a norm is zero, the quotient would be zero as well. -/
theorem cosine_eq (left right : Multiset String) : cosine left right = Bag.cosine left right := by
  rw [cosine, Bag.cosine, ← Bag.dot, ← Bag.normSq, ← Bag.normSq]
  split
  · rfl
  · rename_i zero
    rw [not_and_or, not_not, not_not] at zero
    rcases zero with zero | zero
    · rw [zero, zero_mul, div_zero]
    · rw [zero, mul_zero, div_zero]

/-- How well a text answers a question, by `_retrieve`. -/
noncomputable def lexicalScore (lower : String → String) (question text : String) : ℝ :=
  cosine (terms lower question) (terms lower text)

theorem lexicalScore_nonneg (lower : String → String) (question text : String) :
    0 ≤ lexicalScore lower question text := by
  rw [lexicalScore, cosine_eq]
  exact Bag.cosine_nonneg

theorem lexicalScore_le_one (lower : String → String) (question text : String) :
    lexicalScore lower question text ≤ 1 := by
  rw [lexicalScore, cosine_eq]
  exact Bag.cosine_le_one

theorem lexicalScore_eq_zero_iff {lower : String → String} {question text : String} :
    lexicalScore lower question text = 0 ↔ ¬ SharesTerm lower question text := by
  rw [lexicalScore, cosine_eq, Bag.cosine_eq_zero_iff, SharesTerm]
  constructor
  · rintro apart ⟨term, asked, inText, counts⟩
    exact apart term (mem_terms.mpr ⟨asked, counts⟩) (mem_terms.mpr ⟨inText, counts⟩)
  · intro none term asked inText
    obtain ⟨isAsked, counts⟩ := mem_terms.mp asked
    exact none ⟨term, isAsked, (mem_terms.mp inText).1, counts⟩

/-! ## Ranking by any scores -/

section Ranking

variable {S : Type} [LinearOrder S]

/-- `key=lambda item: (-item[1], item[0].index)` -/
def bestFirstBy (left right : ChunkBody × S) : Prop :=
  right.2 < left.2 ∨ (left.2 = right.2 ∧ left.1.index ≤ right.1.index)

instance : DecidableRel (bestFirstBy (S := S)) := fun left right =>
  inferInstanceAs (Decidable (right.2 < left.2 ∨ (left.2 = right.2 ∧ left.1.index ≤ right.1.index)))

/-- `_retrieve`, whatever numbers the scores are. -/
def RagQueryPipeline.retrieveBy (pipeline : RagQueryPipeline) (score : String → String → S)
    (question tenantId : String) : List (ChunkBody × S) :=
  let candidates := (pipeline.chunks.filter fun chunk => chunk.tenantId == tenantId).map
    fun chunk => (chunk, score question chunk.text)
  (candidates.insertionSort bestFirstBy).take pipeline.topK

/-- With rational scores this is the retrieval of the pipeline. -/
theorem RagQueryPipeline.retrieveBy_rat (pipeline : RagQueryPipeline)
    (score : String → String → ℚ) (question tenantId : String) :
    pipeline.retrieveBy score question tenantId = pipeline.retrieve score question tenantId := by
  rw [retrieveBy, retrieve]
  congr 1

theorem RagQueryPipeline.mem_retrieveBy {pipeline : RagQueryPipeline}
    {score : String → String → S} {question tenantId : String} {entry : ChunkBody × S}
    (member : entry ∈ pipeline.retrieveBy score question tenantId) :
    ∃ chunk ∈ pipeline.chunks, chunk.tenantId = tenantId ∧
      entry = (chunk, score question chunk.text) := by
  have candidate := List.mem_of_mem_take member
  rw [List.mem_insertionSort] at candidate
  obtain ⟨chunk, inTenant, rfl⟩ := List.mem_map.mp candidate
  obtain ⟨inChunks, own⟩ := List.mem_filter.mp inTenant
  exact ⟨chunk, inChunks, beq_iff_eq.mp own, rfl⟩

end Ranking

end ProductionRag
