import ProductionRag.Store.MemoryStore
import ProductionRag.Gateway.Provider
import ProductionRag.Words

/-!
# Retrieving evidence

`RagQueryPipeline` validates a question, ranks the chunks of the tenant and lets through
the ones that pass two gates.  How well a text answers a question is a parameter, the
score; scores are rational numbers.
-/

set_option autoImplicit false

namespace ProductionRag

open Basis

/-- What a retrieval raises. -/
inductive RetrieveError where
  | unsafeQuery (message : String)
  | raised (e : PyError)
  deriving DecidableEq

/-! ## The injection patterns -/

/-- `ignore (all|any|the) previous instructions` -/
def ignorePattern : Regex Char :=
  .seq (letters "ignore ".toList)
    (.seq (anyOf ["all", "any", "the"]) (letters " previous instructions".toList))

/-- `reveal (the )?(system|developer) prompt` -/
def revealPattern : Regex Char :=
  .seq (letters "reveal ".toList) (.seq (.optional (letters "the ".toList))
    (.seq (anyOf ["system", "developer"]) (letters " prompt".toList)))

/-- `print.*(api[_ -]?key|secret|password)` -/
def printPattern : Regex Char :=
  .seq (letters "print".toList) (.seq (.star (.char (· != '\n')))
    (.alt (.seq (letters "api".toList)
        (.seq (.optional (.char fun c => c == '_' || c == ' ' || c == '-'))
          (letters "key".toList)))
      (anyOf ["secret", "password"])))

def injectionPatterns : List (Regex Char) := [ignorePattern, revealPattern, printPattern]

/-! ## The pipeline -/

/-- A chunk with its score. -/
abbrev Ranked := ChunkBody × ℚ

structure RagQueryPipeline where
  chunks : List ChunkBody
  topK : Nat
  minScore : ℚ
  relativeScore : ℚ
  maxQueryLength : Nat
  topK_pos : 0 < topK
  minScore_bounds : 0 ≤ minScore ∧ minScore ≤ 1
  relativeScore_bounds : 0 ≤ relativeScore ∧ relativeScore ≤ 1
  maxQueryLength_pos : 0 < maxQueryLength

namespace RagQueryPipeline

/-- The constructor; the API leaves `top_k` and `max_query_length` at their defaults. -/
def make (chunks : List ChunkBody) (minScore relativeScore : ℚ) :
    Except PyError RagQueryPipeline :=
  if minBounds : 0 ≤ minScore ∧ minScore ≤ 1 then
    if relativeBounds : 0 ≤ relativeScore ∧ relativeScore ≤ 1 then
      .ok { chunks, topK := 5, minScore, relativeScore, maxQueryLength := 2000
            topK_pos := by decide
            minScore_bounds := minBounds
            relativeScore_bounds := relativeBounds
            maxQueryLength_pos := by decide }
    else .error (.valueError "relative_score must be between 0 and 1")
  else .error (.valueError "min_score must be between 0 and 1")

end RagQueryPipeline

/-- `_validate` and `validate_query` -/
def validateQuery (maxQueryLength : Nat) (question tenantId : String) :
    Except RetrieveError String :=
  if strip tenantId = "" then .error (.unsafeQuery "tenant_id is required")
  else
    let safeQuestion := strip question
    if safeQuestion = "" ∨ maxQueryLength < safeQuestion.length then
      .error (.unsafeQuery "query is empty or exceeds the configured length limit")
    else if injectionPatterns.any (·.search safeQuestion.toList) then
      .error (.unsafeQuery "query matched a prompt-injection policy")
    else .ok safeQuestion

theorem validateQuery_ok {maxQueryLength : Nat} {question tenantId safeQuestion : String}
    (valid : validateQuery maxQueryLength question tenantId = .ok safeQuestion) :
    safeQuestion = strip question := by
  unfold validateQuery at valid
  split at valid
  · cases valid
  · dsimp only at valid
    split at valid
    · cases valid
    · split at valid
      · cases valid
      · exact (Except.ok.inj valid).symm

/-- `key=lambda item: (-item[1], item[0].index)` -/
def bestFirst (left right : Ranked) : Prop :=
  right.2 < left.2 ∨ (left.2 = right.2 ∧ left.1.index ≤ right.1.index)

instance : DecidableRel bestFirst := fun left right => by
  unfold bestFirst
  infer_instance

namespace RagQueryPipeline

/-- `_retrieve` -/
def retrieve (pipeline : RagQueryPipeline) (score : String → String → ℚ)
    (question tenantId : String) : List Ranked :=
  let candidates := (pipeline.chunks.filter fun chunk => chunk.tenantId == tenantId).map
    fun chunk => (chunk, score question chunk.text)
  (candidates.insertionSort bestFirst).take pipeline.topK

/-- The two gates on ranked candidates. -/
def gate (pipeline : RagQueryPipeline) (tenantId : String) (candidates : List Ranked) :
    List Ranked :=
  let admitted := (candidates.take pipeline.topK).filter fun entry =>
    entry.1.tenantId == tenantId && pipeline.minScore ≤ entry.2
  match (admitted.map (·.2)).max? with
  | none => []
  | some best => admitted.filter fun entry => best * pipeline.relativeScore ≤ entry.2

def evidence (pipeline : RagQueryPipeline) (score : String → String → ℚ)
    (question tenantId : String) (rankedChunks : Option (List Ranked) := none) :
    Except RetrieveError (List Ranked) := do
  let safeQuestion ← validateQuery pipeline.maxQueryLength question tenantId
  let candidates := rankedChunks.getD (pipeline.retrieve score safeQuestion tenantId)
  return pipeline.gate tenantId candidates

end RagQueryPipeline

/-- The thresholds of the application. -/
structure Gates where
  minScore : ℚ
  relativeScore : ℚ

/-- `retrieve` without a database. -/
def retrieveMemory (score : String → String → ℚ) (gates : Gates) (store : InMemoryStore)
    (principal : Principal) (question : String) (gated : Bool := true) :
    Except RetrieveError (List Ranked) := do
  let chunks ← (store.readableChunks principal).mapError .raised
  let pipeline ← (RagQueryPipeline.make (chunks.map Chunk.toChunkBody)
    (if gated then gates.minScore else 0)
    (if gated then gates.relativeScore else 0)).mapError .raised
  pipeline.evidence score question principal.tenantId

/-! ## Evidence is a selection -/

theorem RagQueryPipeline.gate_sublist (pipeline : RagQueryPipeline) (tenantId : String)
    (candidates : List Ranked) : (pipeline.gate tenantId candidates).Sublist candidates := by
  rw [gate]
  have admitted := (List.filter_sublist (p := fun entry : Ranked =>
    entry.1.tenantId == tenantId && decide (pipeline.minScore ≤ entry.2))
    (l := candidates.take pipeline.topK)).trans (List.take_sublist _ _)
  split
  · exact List.nil_sublist _
  · exact List.filter_sublist.trans admitted

theorem RagQueryPipeline.mem_retrieve (pipeline : RagQueryPipeline)
    {score : String → String → ℚ} {question tenantId : String} {entry : Ranked}
    (member : entry ∈ pipeline.retrieve score question tenantId) :
    ∃ chunk ∈ pipeline.chunks, chunk.tenantId = tenantId ∧
      entry = (chunk, score question chunk.text) := by
  have sorted := List.mem_of_mem_take member
  rw [List.mem_insertionSort] at sorted
  obtain ⟨chunk, inTenant, rfl⟩ := List.mem_map.mp sorted
  obtain ⟨inChunks, own⟩ := List.mem_filter.mp inTenant
  exact ⟨chunk, inChunks, eq_of_beq own, rfl⟩

theorem RagQueryPipeline.make_chunks {chunks : List ChunkBody} {minScore relativeScore : ℚ}
    {pipeline : RagQueryPipeline}
    (built : RagQueryPipeline.make chunks minScore relativeScore = .ok pipeline) :
    pipeline.chunks = chunks := by
  rw [make] at built
  split at built
  · split at built
    · rw [← Except.ok.inj built]
    · cases built
  · cases built

theorem RagQueryPipeline.evidence_ok {pipeline : RagQueryPipeline}
    {score : String → String → ℚ} {question tenantId : String} {evidence : List Ranked}
    (found : pipeline.evidence score question tenantId = .ok evidence) :
    ∃ safeQuestion, evidence =
      pipeline.gate tenantId (pipeline.retrieve score safeQuestion tenantId) := by
  unfold RagQueryPipeline.evidence at found
  cases valid : validateQuery pipeline.maxQueryLength question tenantId with
  | error e =>
      rw [valid] at found
      cases found
  | ok safeQuestion =>
      rw [valid] at found
      exact ⟨safeQuestion, (Except.ok.inj found).symm⟩

/-- What is retrieved from the memory store is a permitted chunk with its score. -/
theorem mem_retrieveMemory {score : String → String → ℚ} {gates : Gates} {store : InMemoryStore}
    {principal : Principal} {question : String} {gated : Bool} {evidence : List Ranked}
    (found : retrieveMemory score gates store principal question gated = .ok evidence)
    {entry : Ranked} (member : entry ∈ evidence) :
    ∃ chunks, store.readableChunks principal = .ok chunks ∧
      ∃ chunk ∈ chunks, entry.1 = chunk.toChunkBody := by
  unfold retrieveMemory at found
  cases read : store.readableChunks principal with
  | error e =>
      rw [read] at found
      cases found
  | ok chunks =>
      refine ⟨chunks, rfl, ?_⟩
      simp only [read, Except.mapError, bind, Except.bind] at found
      cases built : RagQueryPipeline.make (chunks.map Chunk.toChunkBody)
          (if gated then gates.minScore else 0) (if gated then gates.relativeScore else 0) with
      | error e =>
          simp only [built] at found
          cases found
      | ok pipeline =>
          have itsChunks := RagQueryPipeline.make_chunks built
          simp only [built] at found
          obtain ⟨question, same⟩ := RagQueryPipeline.evidence_ok found
          rw [same] at member
          have candidate := (pipeline.gate_sublist _ _).subset member
          obtain ⟨chunk, inChunks, _, rfl⟩ := pipeline.mem_retrieve candidate
          rw [itsChunks] at inChunks
          obtain ⟨chunk, inStore, rfl⟩ := List.mem_map.mp inChunks
          exact ⟨chunk, inStore, rfl⟩

end ProductionRag
