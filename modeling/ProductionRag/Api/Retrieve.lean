import ProductionRag.Api.Evidence
import ProductionRag.Api.Requests
import ProductionRag.Api.Reranker
import ProductionRag.Store.Search

/-!
# Retrieving evidence from the database

With a database `retrieve` embeds the question, searches, checks every row again, reranks and
gates.  Scores are real numbers up to the response, which rounds them.
-/

set_option autoImplicit false

namespace ProductionRag

open Basis

/-! ## The gates, whatever numbers the scores are -/

section Gate

variable {S : Type} [Field S] [LinearOrder S]

def RagQueryPipeline.gateBy (pipeline : RagQueryPipeline) (tenantId : String)
    (candidates : List (ChunkBody × S)) : List (ChunkBody × S) :=
  let admitted := (candidates.take pipeline.topK).filter fun entry =>
    entry.1.tenantId == tenantId && (pipeline.minScore : S) ≤ entry.2
  match (admitted.map (·.2)).max? with
  | none => []
  | some best => admitted.filter fun entry => best * (pipeline.relativeScore : S) ≤ entry.2

/-- `evidence` for candidates that are ranked already. -/
def RagQueryPipeline.evidenceBy (pipeline : RagQueryPipeline) (question tenantId : String)
    (rankedChunks : List (ChunkBody × S)) : Except RetrieveError (List (ChunkBody × S)) := do
  let _ ← validateQuery pipeline.maxQueryLength question tenantId
  return pipeline.gateBy tenantId rankedChunks

/-- With rational scores these are the gates of the pipeline. -/
theorem RagQueryPipeline.gateBy_rat (pipeline : RagQueryPipeline) (tenantId : String)
    (candidates : List Ranked) :
    pipeline.gateBy tenantId candidates = pipeline.gate tenantId candidates := by
  simp only [gateBy, gate, Rat.cast_id]
  generalize (List.map (fun entry : ChunkBody × ℚ => entry.2) _).max? = best
  cases best <;> rfl

/-- Evidence is among the first candidates, in their order, and passes both gates. -/
structure Gated (pipeline : RagQueryPipeline) (candidates evidence : List (ChunkBody × S)) :
    Prop where
  sublist : evidence.Sublist candidates
  size : evidence.length ≤ pipeline.topK
  enough : ∀ entry ∈ evidence, (pipeline.minScore : S) ≤ entry.2
  near : ∀ entry ∈ evidence, ∀ other ∈ evidence,
    other.2 * (pipeline.relativeScore : S) ≤ entry.2

theorem RagQueryPipeline.gateBy_gated [IsStrictOrderedRing S] (pipeline : RagQueryPipeline)
    (tenantId : String) (candidates : List (ChunkBody × S)) :
    Gated pipeline candidates (pipeline.gateBy tenantId candidates) := by
  have relative : (0 : S) ≤ pipeline.relativeScore :=
    Rat.cast_nonneg.mpr pipeline.relativeScore_bounds.1
  simp only [gateBy]
  generalize isAdmitted : (candidates.take pipeline.topK).filter (fun entry =>
    entry.1.tenantId == tenantId && decide ((pipeline.minScore : S) ≤ entry.2)) = admitted
  have first : admitted.Sublist (candidates.take pipeline.topK) := by
    rw [← isAdmitted]
    exact List.filter_sublist
  have enough : ∀ entry ∈ admitted, (pipeline.minScore : S) ≤ entry.2 := by
    intro entry member
    rw [← isAdmitted] at member
    have passes := (List.mem_filter.mp member).2
    rw [Bool.and_eq_true] at passes
    exact of_decide_eq_true passes.2
  cases highest : (admitted.map (·.2)).max? with
  | none =>
      refine ⟨List.nil_sublist _, Nat.zero_le _, ?_, ?_⟩
      · exact fun entry member => nomatch member
      · exact fun entry member => nomatch member
  | some best =>
      have kept : (admitted.filter fun entry =>
          best * (pipeline.relativeScore : S) ≤ entry.2).Sublist admitted := List.filter_sublist
      refine ⟨kept.trans (first.trans (List.take_sublist _ _)), ?_, ?_, ?_⟩
      · exact (kept.length_le.trans first.length_le).trans (List.length_take_le _ _)
      · exact fun entry member => enough entry (kept.subset member)
      · intro entry member other member'
        have above : best * (pipeline.relativeScore : S) ≤ entry.2 :=
          of_decide_eq_true (List.mem_filter.mp member).2
        have inScores : other.2 ∈ admitted.map (·.2) := List.mem_map_of_mem (kept.subset member')
        have below := (List.max?_eq_some_iff.mp highest).2 other.2 inScores
        exact (mul_le_mul_of_nonneg_right below relative).trans above

end Gate

/-! ## The search of a question -/

/-- `LocalFastEmbedder`; the model it loads gives a text some vectors. -/
structure LocalFastEmbedder where
  modelName : String := ProductionRag.modelName
  queryEmbed : String → List Embedding

namespace LocalFastEmbedder

/-- `_validate` -/
def validate (vector : Embedding) : Except PyError Embedding :=
  if vector.length ≠ dimensions then
    .error (.valueError
      ("expected 384-dimension embedding; got " ++ toString vector.length))
  else if .nonfinite ∈ vector then .error (.valueError "embedding contains a non-finite value")
  else .ok vector

def embedQuery (embedder : LocalFastEmbedder) (text : String) : Except PyError Embedding :=
  match embedder.queryEmbed text with
  | [] => .error (.other "embedding model returned no query vector")
  | vector :: _ => validate vector

theorem embedQuery_ok {embedder : LocalFastEmbedder} {text : String} {embedding : Embedding}
    (embedded : embedder.embedQuery text = .ok embedding) :
    embedding.length = dimensions ∧ FloatValue.nonfinite ∉ embedding := by
  unfold embedQuery at embedded
  split at embedded
  · cases embedded
  · unfold validate at embedded
    split_ifs at embedded with size finite
    obtain rfl := Except.ok.inj embedded
    exact ⟨not_not.mp size, finite⟩

end LocalFastEmbedder

/-- `can_read` -/
def canRead (row : SearchRow) (principal : Principal) : Bool :=
  row.tenantId == principal.tenantId && canReadGroups row.allowedGroups principal

/-- What the application retrieves with; `lower` is `str.lower`. -/
structure RetrieveServices where
  engine : SearchEngine
  embedder : LocalFastEmbedder
  reranker : CrossEncoderReranker
  /-- `sentence_transformers`, if it is installed. -/
  package : Option (String → CrossEncoder)
  lower : String → String
  gates : Gates

/-- A chunk of a current document that the principal may read. -/
def Database.Permitted (db : Database) (principal : Principal) (chunk : ChunkBody) : Prop :=
  ∃ row, db.Found principal.tenantId principal.groups row ∧ chunk = row.searchRow.toChunkBody

namespace RetrieveServices

section Retrieve

variable (services : RetrieveServices) (db : Database) (principal : Principal)

/-- The pipeline of the request, without chunks. -/
def pipeline (gated : Bool) : Except PyError RagQueryPipeline :=
  RagQueryPipeline.make [] (if gated then services.gates.minScore else 0)
    (if gated then services.gates.relativeScore else 0)

def search (question : String) (embedding : Embedding) :
    Except PyError (List (Candidate × ℚ)) :=
  searchHybrid (db.statements services.engine) services.lower principal.tenantId question
    embedding 20 50 services.embedder.modelName (sortedGroups principal.groups)

/-- The rows of a search that the principal may read, as the reranker takes them. -/
noncomputable def checkedRows (rows : List (Candidate × ℚ)) : List (Row (Option ℝ) Candidate) :=
  (rows.filter fun row => canRead row.1.toSearchRow principal).map fun row =>
    { text := row.1.text, score := some (row.2 : ℝ), rest := row.1 }

/-- `retrieve` with a database. -/
noncomputable def retrieve (question : String) (gated : Bool := true) :
    Except RetrieveError (List (ChunkBody × ℝ)) := do
  let query ← (services.pipeline gated).mapError .raised
  let safeQuestion ← validateQuery query.maxQueryLength question principal.tenantId
  let embedding ← (services.embedder.embedQuery safeQuestion).mapError .raised
  let rows ← (services.search db principal safeQuestion embedding).mapError .raised
  let rows ← (services.reranker.rerank services.package services.lower safeQuestion
    (checkedRows principal rows)).1.mapError .raised
  query.evidenceBy safeQuestion principal.tenantId
    (rows.map fun row => (row.rest.toChunkBody, row.score))

end Retrieve

/-! ## What a retrieval finds -/

theorem visible_sortedGroups (document : Document) (groups : List String) :
    document.visible (sortedGroups groups) = document.visible groups := by
  have same : ∀ group, (sortedGroups groups).contains group = groups.contains group := by
    intro group
    rw [Bool.eq_iff_iff, List.contains_iff_mem, List.contains_iff_mem, sortedGroups,
      List.mem_insertionSort, List.mem_dedup]
  simp only [Version.visible, groupsMeet, same]

theorem found_of_sortedGroups {db : Database} {tenantId : String} {groups : List String}
    {row : JoinedRow} (found : db.Found tenantId (sortedGroups groups) row) :
    db.Found tenantId groups row :=
  { found with visible := visible_sortedGroups row.document groups ▸ found.visible }

/-- A valid question is valid again, and nothing is left to strip. -/
theorem validateQuery_again {maxQueryLength : Nat} {question tenantId safeQuestion : String}
    (valid : validateQuery maxQueryLength question tenantId = .ok safeQuestion) :
    strip tenantId ≠ "" ∧ strip safeQuestion ≠ "" ∧
      validateQuery maxQueryLength safeQuestion tenantId = .ok safeQuestion := by
  obtain rfl := validateQuery_ok valid
  have again : validateQuery maxQueryLength (strip question) tenantId =
      .ok (strip question) := by
    rw [validateQuery, strip_strip]
    exact valid
  unfold validateQuery at valid
  dsimp only at valid
  split_ifs at valid with blank sized attack
  refine ⟨blank, ?_, again⟩
  rw [strip_strip]
  exact fun empty => sized (Or.inl empty)

section Found

variable {services : RetrieveServices} {db : Database} {principal : Principal}

/-- The checks of the search pass on a valid question. -/
theorem search_ok {question : String} {embedding : Embedding} (services : RetrieveServices)
    (db : Database) (nonblank : strip principal.tenantId ≠ "") (asked : strip question ≠ "")
    (size : embedding.length = dimensions) (finite : FloatValue.nonfinite ∉ embedding) :
    ∃ rows, services.search db principal question embedding = .ok rows := by
  have limits : ¬ ((20 : Nat) = 0 ∨ (50 : Nat) < 20) := by decide
  have vector : ¬ (embedding.length ≠ dimensions ∨ FloatValue.nonfinite ∈ embedding) :=
    not_or.mpr ⟨not_not.mpr size, finite⟩
  rw [search, searchHybrid, if_neg nonblank, if_neg asked, if_neg limits, if_neg vector]
  exact ⟨_, rfl⟩

/-- A retrieval with each stage that led to it. -/
structure Retrieved (services : RetrieveServices) (db : Database) (principal : Principal)
    (question : String) (gated : Bool) (query : RagQueryPipeline) (safeQuestion : String)
    (embedding : Embedding) (rows : List (Candidate × ℚ)) (results : List (Row ℝ Candidate)) :
    Prop where
  made : services.pipeline gated = .ok query
  valid : validateQuery query.maxQueryLength question principal.tenantId = .ok safeQuestion
  embedded : services.embedder.embedQuery safeQuestion = .ok embedding
  searched : services.search db principal safeQuestion embedding = .ok rows
  reranked : CrossEncoderReranker.Reranked (checkedRows principal rows) results
  retrieved : services.retrieve db principal question gated =
    .ok (query.gateBy principal.tenantId
      (results.map fun row => (row.rest.toChunkBody, row.score)))

/-- Only the thresholds, the question and the embedding can stop a retrieval. -/
theorem retrieved_of_embedded {question safeQuestion : String} {gated : Bool}
    {query : RagQueryPipeline} {embedding : Embedding} (db : Database)
    (made : services.pipeline gated = .ok query)
    (valid : validateQuery query.maxQueryLength question principal.tenantId = .ok safeQuestion)
    (embedded : services.embedder.embedQuery safeQuestion = .ok embedding) :
    ∃ rows results, Retrieved services db principal question gated query safeQuestion embedding
      rows results := by
  obtain ⟨nonblank, asked, again⟩ := validateQuery_again valid
  obtain ⟨size, finite⟩ := LocalFastEmbedder.embedQuery_ok embedded
  obtain ⟨rows, searched⟩ := search_ok services db nonblank asked size finite
  obtain ⟨results, isReranked, reranked, _⟩ := services.reranker.rerank_ok services.package
    services.lower safeQuestion (checkedRows principal rows)
  refine ⟨rows, results, made, valid, embedded, searched, reranked, ?_⟩
  simp only [retrieve, made, valid, embedded, searched, isReranked, Except.mapError, bind,
    Except.bind, RagQueryPipeline.evidenceBy, again]
  rfl

theorem retrieved_of_ok {question : String} {gated : Bool} {evidence : List (ChunkBody × ℝ)}
    (found : services.retrieve db principal question gated = .ok evidence) :
    ∃ query safeQuestion embedding rows results,
      Retrieved services db principal question gated query safeQuestion embedding rows results := by
  have stages := found
  simp only [retrieve] at stages
  cases made : services.pipeline gated with
  | error e =>
      rw [made] at stages
      cases stages
  | ok query =>
      simp only [made, Except.mapError, bind, Except.bind] at stages
      cases valid : validateQuery query.maxQueryLength question principal.tenantId with
      | error e =>
          rw [valid] at stages
          cases stages
      | ok safeQuestion =>
          simp only [valid] at stages
          cases embedded : services.embedder.embedQuery safeQuestion with
          | error e =>
              rw [embedded] at stages
              cases stages
          | ok embedding =>
              exact ⟨query, safeQuestion, embedding, retrieved_of_embedded db made valid embedded⟩

section Evidence

variable {question safeQuestion : String} {gated : Bool} {query : RagQueryPipeline}
  {embedding : Embedding} {rows : List (Candidate × ℚ)} {results : List (Row ℝ Candidate)}

namespace Retrieved

/-- Reranking moves the rows that pass the second check, and nothing else. -/
theorem rests (retrieved : Retrieved services db principal question gated query safeQuestion
      embedding rows results) :
    (results.map (·.rest)).Perm ((rows.filter fun row =>
      canRead row.1.toSearchRow principal).map Prod.fst) := by
  have rests := retrieved.reranked.same.map Prod.snd
  rw [List.map_map, List.map_map, checkedRows, List.map_map] at rests
  exact rests

/-- What is reranked was found. -/
theorem found (retrieved : Retrieved services db principal question gated query safeQuestion
      embedding rows results) {row : Row ℝ Candidate} (member : row ∈ results) :
    ∃ joined, db.Found principal.tenantId principal.groups joined ∧
      row.rest.toSearchRow = joined.searchRow := by
  have inRows := retrieved.rests.subset (List.mem_map_of_mem member)
  obtain ⟨entry, inChecked, same⟩ := List.mem_map.mp inRows
  obtain ⟨joined, isFound, row⟩ := Database.found_of_searchHybrid retrieved.searched
    (List.mem_of_mem_filter inChecked)
  exact ⟨joined, found_of_sortedGroups isFound, same ▸ row⟩

/-- No chunk is reranked twice. -/
theorem once (retrieved : Retrieved services db principal question gated query safeQuestion
      embedding rows results) (numbered : db.Numbered) :
    (results.map fun row => (row.rest.documentId, row.rest.index)).Nodup := by
  have ids : (rows.map fun row => row.1.id).Nodup := by
    have searched := retrieved.searched
    unfold search searchHybrid at searched
    split_ifs at searched
    obtain rfl := Except.ok.inj searched
    exact Database.nodup_ids_fuse
  have distinct : (results.map fun row => row.rest.id).Nodup := by
    have moved := retrieved.rests.map fun candidate => candidate.id
    rw [List.map_map, List.map_map] at moved
    exact moved.nodup_iff.mpr (ids.sublist (List.filter_sublist.map _))
  rw [List.Nodup, List.pairwise_map] at distinct ⊢
  refine distinct.imp_of_mem fun leftMember rightMember different same => different ?_
  obtain ⟨left, leftFound, leftRow⟩ := retrieved.found leftMember
  obtain ⟨right, rightFound, rightRow⟩ := retrieved.found rightMember
  obtain ⟨document, index⟩ := Prod.mk.inj same
  rw [leftRow, rightRow] at document index
  rw [leftRow, rightRow, numbered.found_unique leftFound rightFound document index]

end Retrieved

/-- Evidence of a principal: permitted chunks, none twice, best first and all past the gates. -/
structure DatabaseEvidence (db : Database) (principal : Principal) (query : RagQueryPipeline)
    (evidence : List (ChunkBody × ℝ)) : Prop where
  permitted : ∀ entry ∈ evidence, db.Permitted principal entry.1
  once : (evidence.map fun entry => (entry.1.documentId, entry.1.index)).Nodup
  falling : evidence.Pairwise fun left right => right.2 ≤ left.2
  size : evidence.length ≤ query.topK
  bounded : ∀ entry ∈ evidence, (query.minScore : ℝ) ≤ entry.2 ∧ entry.2 ≤ 1
  near : ∀ entry ∈ evidence, ∀ other ∈ evidence,
    other.2 * (query.relativeScore : ℝ) ≤ entry.2

theorem Retrieved.evidence (retrieved : Retrieved services db principal question gated query
      safeQuestion embedding rows results) (numbered : db.Numbered) :
    DatabaseEvidence db principal query (query.gateBy principal.tenantId
      (results.map fun row => (row.rest.toChunkBody, row.score))) := by
  have isGated := query.gateBy_gated principal.tenantId
    (results.map fun row => (row.rest.toChunkBody, row.score))
  refine ⟨?_, ?_, ?_, isGated.size, ?_, isGated.near⟩
  · intro entry member
    obtain ⟨row, inResults, rfl⟩ := List.mem_map.mp (isGated.sublist.subset member)
    obtain ⟨joined, isFound, same⟩ := retrieved.found inResults
    exact ⟨joined, isFound, congrArg (·.toChunkBody) same⟩
  · have once := retrieved.once numbered
    have whole : (results.map fun row => (row.rest.toChunkBody, row.score)).map
        (fun entry => (entry.1.documentId, entry.1.index)) =
          results.map fun row => (row.rest.documentId, row.rest.index) := by
      rw [List.map_map]
      rfl
    exact (whole ▸ once).sublist (isGated.sublist.map _)
  · have falling : (results.map fun row => (row.rest.toChunkBody, row.score)).Pairwise
        fun left right => right.2 ≤ left.2 :=
      List.pairwise_map.mpr retrieved.reranked.falling
    exact falling.sublist isGated.sublist
  · intro entry member
    obtain ⟨row, inResults, rfl⟩ := List.mem_map.mp (isGated.sublist.subset member)
    exact ⟨isGated.enough _ member, (retrieved.reranked.bounded row inResults).2⟩

end Evidence

end Found

/-! ## Documents that the principal does not find -/

end RetrieveServices

/-! ## Requests that retrieve from the database -/

/-- The citation shows the chunk. -/
structure Citation.Cites (citation : Citation) (chunk : ChunkBody) : Prop where
  documentId : citation.documentId = chunk.documentId
  source : citation.source = chunk.source
  chunkIndex : citation.chunkIndex = chunk.index
  page : citation.page = chunk.page
  excerpt : citation.excerpt = sliceTo chunk.text 240

/-- The provider is shown allowed chunks only, and the response cites allowed chunks only. -/
structure ConfinedTo (allowed : ChunkBody → Prop) (log : List (Exchange AnswerReply))
    (result : Answered) : Prop where
  context : ∀ own question context prior reply,
    (⟨.complete own question context prior, reply⟩ : Exchange AnswerReply) ∈ log →
      ∀ text ∈ context, ∃ chunk, allowed chunk ∧ text = chunk.text
  citations : ∀ response, result = .ok response → ∀ citation ∈ response.citations,
    ∃ chunk, allowed chunk ∧ citation.Cites chunk

/-- A request stays within the evidence that it retrieves for its principal. -/
theorem answer_confinedTo {allowed : ChunkBody → Prop} {request : AnswerRequest} {isChat : Bool}
    {log : List (Exchange AnswerReply)} {result : Answered}
    (trace : (answer request isChat).Trace log result)
    (retrieves : ∀ query evidence,
      (⟨.retrieve request.principal query, .ok evidence⟩ : Exchange AnswerReply) ∈ log →
        ∀ entry ∈ evidence, allowed entry.1) : ConfinedTo allowed log result := by
  cases answer_run trace with
  | refused log error early =>
      refine ⟨?_, fun _ wrong => (nomatch wrong)⟩
      intro own question context prior reply member
      rcases early with rfl | ⟨_, _, _, _, rfl⟩
      · cases member
      · cases congrArg Exchange.question (List.mem_singleton.mp member)
  | unretrieved user asked question searchQuery session prior before e error brought isText valid
      prepared =>
      refine ⟨?_, fun _ wrong => (nomatch wrong)⟩
      intro own question context prior reply member
      rcases List.mem_append.mp member with inBefore | last
      · cases (prepared.asked inBefore rfl).2.2
      · cases congrArg Exchange.question (List.mem_singleton.mp last)
  | retrieved user asked question searchQuery session prior before rest evidence _ brought isText
      valid prepared run =>
      have found := retrieves searchQuery evidence (by simp)
      constructor
      · intro own question' context prior' reply member text inContext
        rcases List.mem_append.mp member with inBefore | later
        · cases (prepared.asked inBefore rfl).2.2
        · rcases List.mem_cons.mp later with same | inRest
          · cases congrArg Exchange.question same
          · have asked := run.asked inRest rfl
            injection asked with _ _ same
            rw [same] at inContext
            obtain ⟨entry, inEvidence, rfl⟩ := List.mem_map.mp inContext
            exact ⟨entry.1, found entry inEvidence, rfl⟩
      · rintro response rfl citation member
        obtain ⟨_, _, _, _, _, _, _, isCited⟩ := run.cited member
        obtain ⟨_, entry, inEvidence, documentId, source, chunkIndex, page, excerpt⟩ :=
          cite_ok isCited
        exact ⟨entry.1, found entry inEvidence, documentId, source, chunkIndex, page, excerpt⟩

/-- Every retrieval of the log is one from the database; a score is rounded to a float. -/
def RetrievesFromDatabase (services : RetrieveServices) (float : ℝ → ℚ) (db : Database)
    (log : List (Exchange AnswerReply)) : Prop :=
  ∀ principal query reply,
    (⟨.retrieve principal query, reply⟩ : Exchange AnswerReply) ∈ log →
      reply = (services.retrieve db principal query).map fun evidence =>
        evidence.map fun entry => (entry.1, float entry.2)

open RetrieveServices in
/-- Only thresholds, question and embedding decide whether a retrieval succeeds; what it finds is
permitted and past the gates, and a request shows and cites nothing else. -/
theorem database_evidence_permitted {legal : PersistCall → Prop} {db : Database}
    (reached : Database.Reachable legal db) (services : RetrieveServices) (principal : Principal) :
    (∀ question gated, (∃ evidence, services.retrieve db principal question gated = .ok evidence) ↔
      ∃ query safeQuestion embedding, services.pipeline gated = .ok query ∧
        validateQuery query.maxQueryLength question principal.tenantId = .ok safeQuestion ∧
        services.embedder.embedQuery safeQuestion = .ok embedding) ∧
    (∀ question gated query evidence, services.pipeline gated = .ok query →
      services.retrieve db principal question gated = .ok evidence →
        DatabaseEvidence db principal query evidence) ∧
    ∀ float request isChat log result, request.principal = principal →
      (answer request isChat).Trace log result → RetrievesFromDatabase services float db log →
        ConfinedTo (db.Permitted principal) log result := by
  have isEvidence : ∀ question gated query evidence, services.pipeline gated = .ok query →
      services.retrieve db principal question gated = .ok evidence →
        DatabaseEvidence db principal query evidence := by
    intro question gated query evidence made found
    obtain ⟨query', safeQuestion, embedding, rows, results, retrieved⟩ := retrieved_of_ok found
    obtain rfl := Except.ok.inj (made.symm.trans retrieved.made)
    rw [Except.ok.inj (found.symm.trans retrieved.retrieved)]
    exact retrieved.evidence reached.numbered
  refine ⟨?_, isEvidence, ?_⟩
  · intro question gated
    constructor
    · rintro ⟨evidence, found⟩
      obtain ⟨query, safeQuestion, embedding, _, _, retrieved⟩ := retrieved_of_ok found
      exact ⟨query, safeQuestion, embedding, retrieved.made, retrieved.valid, retrieved.embedded⟩
    · rintro ⟨query, safeQuestion, embedding, made, valid, embedded⟩
      obtain ⟨_, _, retrieved⟩ := retrieved_of_embedded db made valid embedded
      exact ⟨_, retrieved.retrieved⟩
  · rintro float request isChat log result rfl trace retrieves
    refine answer_confinedTo trace ?_
    intro query evidence member entry inEvidence
    have reply := retrieves _ _ _ member
    cases found : services.retrieve db request.principal query with
    | error e =>
        rw [found] at reply
        cases reply
    | ok scored =>
        rw [found] at reply
        rw [Except.ok.inj reply] at inEvidence
        obtain ⟨original, inScored, rfl⟩ := List.mem_map.mp inEvidence
        obtain ⟨_, _, _, _, _, retrieved⟩ := retrieved_of_ok found
        exact (isEvidence _ _ _ _ retrieved.made found).permitted original inScored

/-! ## A question about one note -/

def noteDatabase : Database :=
  Database.empty.afterUploads (.first _)
    [.single .spelling [1] "t" "notes.txt" { id := "n" } [] none]

/-- Every row is as near as any other and has the words of every question. -/
def flatEngine : SearchEngine where
  distance _ _ := 0
  matchesQuery _ _ := true
  rankCd _ _ := 1
  byDistance := .stable
  byKeyword := .stable

def noteServices : RetrieveServices where
  engine := flatEngine
  embedder := { queryEmbed := fun _ => [List.replicate dimensions (.finite 0)] }
  reranker := {}
  package := none
  lower := id
  gates := ⟨0, 0⟩

theorem noteGate_bounds : (0 : ℚ) ≤ 0 ∧ (0 : ℚ) ≤ 1 := ⟨le_rfl, zero_le_one⟩

theorem noteTop_pos : 0 < 5 := by decide

theorem noteLength_pos : 0 < 2000 := by decide

def notePipeline : RagQueryPipeline where
  chunks := []
  topK := 5
  minScore := 0
  relativeScore := 0
  maxQueryLength := 2000
  topK_pos := noteTop_pos
  minScore_bounds := noteGate_bounds
  relativeScore_bounds := noteGate_bounds
  maxQueryLength_pos := noteLength_pos

/-- The note is the evidence, whatever its score is. -/
theorem noteServices_retrieve :
    ∃ score, noteServices.retrieve noteDatabase noteReader "refund" = .ok [(noteChunk, score)] := by
  have made : noteServices.pipeline true = .ok notePipeline := rfl
  have valid : validateQuery notePipeline.maxQueryLength "refund" noteReader.tenantId =
      .ok "refund" := by
    decide +kernel
  have embedded : noteServices.embedder.embedQuery "refund" =
      .ok (List.replicate dimensions (.finite 0)) := by
    decide +kernel
  have readable : ((noteServices.search noteDatabase noteReader "refund"
      (List.replicate dimensions (.finite 0))).map fun rows =>
        (rows.filter fun row => canRead row.1.toSearchRow noteReader).map fun row =>
          row.1.toChunkBody) = .ok [noteChunk] := by
    decide +kernel
  obtain ⟨rows, results, retrieved⟩ := RetrieveServices.retrieved_of_embedded noteDatabase
    made valid embedded
  rw [retrieved.searched] at readable
  have bodies := retrieved.rests.map fun candidate => candidate.toChunkBody
  rw [List.map_map, List.map_map] at bodies
  have single : results.map (fun row => row.rest.toChunkBody) = [noteChunk] :=
    List.perm_singleton.mp (bodies.trans (List.Perm.of_eq (Except.ok.inj readable)))
  obtain ⟨row, rfl, isNote⟩ := List.map_eq_singleton_iff.mp single
  have bounds := retrieved.reranked.bounded row List.mem_cons_self
  refine ⟨row.score, retrieved.retrieved.trans ?_⟩
  have own : noteChunk.tenantId == noteReader.tenantId := by decide
  simp [RagQueryPipeline.gateBy, notePipeline, isNote, own, bounds.1]

theorem noteLog_retrieves_note :
    RetrievesFromDatabase noteServices (fun _ => 1) noteDatabase noteLog := by
  intro principal query reply member
  rcases List.mem_cons.mp member with same | later
  · cases same
    obtain ⟨score, retrieved⟩ := noteServices_retrieve
    rw [retrieved]
    rfl
  · have asked := List.mem_map_of_mem (f := Exchange.question) later
    simp at asked

/-- The note is retrieved, and it is what the request shows and cites. -/
theorem note_retrieved :
    ∃ evidence, evidence ≠ [] ∧
      noteServices.retrieve noteDatabase noteReader "refund" = .ok evidence ∧
      RetrieveServices.DatabaseEvidence noteDatabase noteReader notePipeline evidence ∧
      ConfinedTo (noteDatabase.Permitted noteReader) noteLog (.ok noteResponse) := by
  have reached : Database.Reachable (fun _ => True) noteDatabase :=
    Database.Reachable.empty.afterUploads _ fun _ _ => trivial
  obtain ⟨_, isEvidence, confined⟩ :=
    database_evidence_permitted reached noteServices noteReader
  obtain ⟨score, retrieved⟩ := noteServices_retrieve
  exact ⟨_, List.cons_ne_nil _ _, retrieved, isEvidence "refund" true _ _ rfl retrieved,
    confined _ noteRequest false noteLog _ rfl noteLog_trace noteLog_retrieves_note⟩

end ProductionRag
