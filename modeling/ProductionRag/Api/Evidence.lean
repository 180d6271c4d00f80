import ProductionRag.Api.Answer
import ProductionRag.Store.Readable

/-!
# Evidence and access lists

Without a database the evidence of a request is retrieved from the chunks its principal
reads.  Whatever the provider writes, it was shown these chunks only, and the response
cites these only.
-/

set_option autoImplicit false

namespace ProductionRag

open Basis

/-- Every retrieval of the log is one from the memory store. -/
def RetrievesFrom (score : String → String → ℚ) (gates : Gates) (store : InMemoryStore)
    (log : List (Exchange AnswerReply)) : Prop :=
  ∀ principal query reply,
    (⟨.retrieve principal query, reply⟩ : Exchange AnswerReply) ∈ log →
      reply = retrieveMemory score gates store principal query

/-- The citation shows the chunk. -/
structure Citation.Shows (citation : Citation) (chunk : Chunk) : Prop where
  documentId : citation.documentId = chunk.documentId
  source : citation.source = chunk.source
  chunkIndex : citation.chunkIndex = chunk.index
  page : citation.page = chunk.page
  excerpt : citation.excerpt = sliceTo chunk.text 240

/-- The provider is shown the chunks only, and the response cites them only. -/
structure Confined (chunks : List Chunk) (log : List (Exchange AnswerReply))
    (result : Answered) : Prop where
  context : ∀ own question context prior reply,
    (⟨.complete own question context prior, reply⟩ : Exchange AnswerReply) ∈ log →
      ∀ text ∈ context, ∃ chunk ∈ chunks, text = chunk.text
  citations : ∀ response, result = .ok response → ∀ citation ∈ response.citations,
    ∃ chunk ∈ chunks, citation.Shows chunk

/-- A request whose evidence comes from the store stays within what its principal reads. -/
theorem answer_confined {score : String → String → ℚ} {gates : Gates} {store : InMemoryStore}
    {request : AnswerRequest} {isChat : Bool} {chunks : List Chunk}
    {log : List (Exchange AnswerReply)} {result : Answered}
    (readable : store.readableChunks request.principal = .ok chunks)
    (trace : (answer request isChat).Trace log result)
    (retrieves : RetrievesFrom score gates store log) : Confined chunks log result := by
  cases answer_run trace with
  | refused log error early =>
      refine ⟨?_, fun _ wrong => (nomatch wrong)⟩
      intro own question context prior reply member
      rcases early with rfl | ⟨_, _, _, _, rfl⟩
      · cases member
      · cases congrArg Exchange.question (List.mem_singleton.mp member)
  | unretrieved user asked question searchQuery session prior before e error brought isText valid
      prepared =>
      refine ⟨?_, fun _ wrong => (nomatch wrong)⟩
      intro own question context prior reply member
      rcases List.mem_append.mp member with inBefore | last
      · cases (prepared.asked inBefore rfl).2.2
      · cases congrArg Exchange.question (List.mem_singleton.mp last)
  | retrieved user asked question searchQuery session prior before rest evidence _ brought isText
      valid prepared run =>
      have found := retrieves request.principal searchQuery (.ok evidence) (by simp)
      have ofChunk : ∀ entry ∈ evidence, ∃ chunk ∈ chunks, entry.1 = chunk.toChunkBody := by
        intro entry member
        obtain ⟨chunks', readable', chunk, inChunks, same⟩ :=
          mem_retrieveMemory found.symm member
        rw [readable] at readable'
        cases readable'
        exact ⟨chunk, inChunks, same⟩
      constructor
      · intro own question' context prior' reply member text inContext
        rcases List.mem_append.mp member with inBefore | later
        · cases (prepared.asked inBefore rfl).2.2
        · rcases List.mem_cons.mp later with same | inRest
          · cases congrArg Exchange.question same
          · have asked := run.asked inRest rfl
            injection asked with _ _ same
            rw [same] at inContext
            obtain ⟨entry, inEvidence, rfl⟩ := List.mem_map.mp inContext
            obtain ⟨chunk, inChunks, same⟩ := ofChunk entry inEvidence
            exact ⟨chunk, inChunks, congrArg ChunkBody.text same⟩
      · rintro response rfl citation member
        obtain ⟨_, _, _, _, _, _, _, isCited⟩ := run.cited member
        obtain ⟨_, entry, inEvidence, documentId, source, chunkIndex, page, excerpt⟩ :=
          cite_ok isCited
        obtain ⟨chunk, inChunks, same⟩ := ofChunk entry inEvidence
        rw [same] at documentId source chunkIndex page excerpt
        exact ⟨chunk, inChunks, documentId, source, chunkIndex, page, excerpt⟩

/-- Reading never fails and gives the permitted chunks, each once; the provider of a request
is shown these chunks only, and the response cites these only. -/
theorem evidence_permitted {hash : Sha256} {store : InMemoryStore}
    (reached : InMemoryStore.Reachable (PersistCall.Ingested hash) store) (principal : Principal) :
    ∃ chunks, store.readableChunks principal = .ok chunks ∧
      (∀ chunk, chunk ∈ chunks ↔ store.Permitted principal chunk) ∧
      (chunks.map fun chunk => (chunk.documentId, chunk.index)).Nodup ∧
      ∀ score gates request isChat log result, request.principal = principal →
        (answer request isChat).Trace log result → RetrievesFrom score gates store log →
          Confined chunks log result := by
  obtain ⟨chunks, readable, exactly, once⟩ :=
    InMemoryStore.readableChunks_spec reached.keys_eq reached.rowsOwn principal
  refine ⟨chunks, readable, exactly, once, ?_⟩
  rintro score gates request isChat log result rfl trace retrieves
  exact answer_confined readable trace retrieves

/-! ## A request about one note -/

def noteStore : InMemoryStore :=
  InMemoryStore.empty.afterUploads [.single .spelling [1] "t" "notes.txt" { id := "n" } [] none]

theorem noteStore_reached :
    InMemoryStore.Reachable (PersistCall.Ingested .spelling) noteStore := by
  refine InMemoryStore.Reachable.empty.afterUploads (List.forall_mem_singleton.mpr ?_)
  refine ⟨fun text => [text], fun _ => "chunk", 0, [1], [(none, "text")], "notes.txt", "t",
    some (SourceRef.identity { id := "n" }), ?_⟩
  decide +kernel

def noteReader : Principal := ⟨"t", "u", []⟩

def noteRequest : AnswerRequest where
  principal := noteReader
  question := some "refund"

def noteChunk : ChunkBody where
  text := "text"
  documentId := SourceRef.documentId .spelling { id := "n" } (Sha256.spelling.hexdigest [1])
  index := 0
  tenantId := "t"
  source := "notes.txt"

def noteGeneration : Generation := { text := "text [1]", model := "m" }

def noteLog : List (Exchange AnswerReply) :=
  [⟨.retrieve noteReader "refund", .ok [(noteChunk, 1)]⟩, ⟨.remaining "t", none⟩,
    ⟨.complete false "refund" ["text"] [], .ok noteGeneration⟩, ⟨.spend "t" 0, ()⟩]

def noteResponse : AnswerResponse where
  answer := "text [1]"
  grounded := true
  citations :=
    [{ sourceNumber := 1, documentId := noteChunk.documentId, source := "notes.txt",
       chunkIndex := 0, page := none, score := roundTo 4 1, excerpt := "text" }]
  generation := some (generationInfo false noteGeneration)

theorem noteLog_trace : (answer noteRequest false).Trace noteLog (.ok noteResponse) := by
  have valid : validateQuery 2000 "refund" "t" = .ok "refund" := by decide +kernel
  have isGrounded : grounded [(noteChunk, 1)] noteGeneration = .ok ("text [1]", [1]) := by
    decide +kernel
  have cited : [1].mapM (cite [(noteChunk, 1)]) = .ok noteResponse.citations := by decide +kernel
  have starts : answer noteRequest false = answerPrior noteReader none "refund" [] false := by
    rw [answer]
    simp only [noteRequest]
    rfl
  rw [starts, answerPrior]
  simp only [noteReader, valid]
  refine .ask (.ask (.ask (.ask ?_)))
  simp only [afterGeneration]
  rw [isGrounded]
  simp only [respond, cited]
  exact .done _

theorem noteLog_retrieves : RetrievesFrom (fun _ _ => 1) ⟨0, 0⟩ noteStore noteLog := by
  have retrieved : retrieveMemory (fun _ _ => 1) ⟨0, 0⟩ noteStore noteReader "refund" =
      .ok [(noteChunk, 1)] := by
    decide +kernel
  intro principal query reply member
  rcases List.mem_cons.mp member with same | later
  · cases same
    exact retrieved.symm
  · have asked := List.mem_map_of_mem (f := Exchange.question) later
    simp at asked

/-- The note is cited, and it is one its reader may read. -/
theorem note_confined :
    noteResponse.citations ≠ [] ∧ ∃ chunks, noteStore.readableChunks noteReader = .ok chunks ∧
      (∀ chunk, chunk ∈ chunks ↔ noteStore.Permitted noteReader chunk) ∧
      Confined chunks noteLog (.ok noteResponse) := by
  obtain ⟨chunks, readable, exactly, _, confined⟩ :=
    evidence_permitted noteStore_reached noteReader
  exact ⟨List.cons_ne_nil _ _, chunks, readable, exactly,
    confined _ _ noteRequest false noteLog _ rfl noteLog_trace noteLog_retrieves⟩

end ProductionRag
