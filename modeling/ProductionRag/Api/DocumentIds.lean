import ProductionRag.Api.Worker

/-!
# Document ids

`ingest_segments` hashes the source system, the source id and the digest of the bytes as one
text.  A slash and a zero byte separate them there, and both may also stand in the id.
-/

set_option autoImplicit false

namespace ProductionRag

/-- An upload that `_document_job` accepts, and what `ingest_segments` makes of its bytes. -/
structure ChunkedUpload (hash : Sha256) where
  surroundings : Surroundings
  request : Request
  job : DocumentJob
  accepted : documentJob surroundings request = .ok job
  data : List UInt8
  uploaded : job.payload.contentBase64 = some data
  split : String → List String
  uuid4 : Nat → String
  createdAt : Time
  segments : List (Option Nat × String)
  result : IngestResult
  chunked : ingestSegments hash split uuid4 createdAt data segments job.payload.filename
    job.payload.tenantId (some job.payload.source.identity) = .ok result

namespace ChunkedUpload

variable {hash : Sha256}

/-- An accepted upload has a source id, so its filename does not stand in for it. -/
theorem source_id (upload : ChunkedUpload hash) :
    upload.job.payload.source.id = upload.job.payload.sourceId := by
  have named := (documentJob_accepted upload.accepted).validated.sourceId_ne
  simp only [JobPayload.source, named, if_false]

theorem documentId (upload : ChunkedUpload hash) :
    upload.result.documentId =
      upload.job.payload.source.documentId hash (hash.hexdigest upload.data) := by
  have from_bytes := ingestSegments_ingestedFrom upload.chunked
  rw [from_bytes.documentId_eq, documentIdOf_identity]

end ChunkedUpload

theorem SourceSystem.name_injective : Function.Injective SourceSystem.name := by
  intro left right same
  cases left
  cases right
  cases same
  rfl

/-- Two accepted uploads share a document id only if they send the same bytes to the same logical
document, whatever characters their source ids hold. -/
theorem document_id_injective {hash : Sha256} (left right : ChunkedUpload hash) :
    left.result.documentId = right.result.documentId ↔
      left.job.payload.sourceSystem = right.job.payload.sourceSystem ∧
        left.job.payload.sourceId = right.job.payload.sourceId ∧ left.data = right.data := by
  rw [left.documentId, right.documentId]
  constructor
  · intro same
    obtain ⟨⟨system, id⟩, digest⟩ := SourceRef.documentId_injective hash
      (hash.hexdigest_hex left.data) (hash.hexdigest_hex right.data) same
    rw [left.source_id, right.source_id] at id
    exact ⟨SourceSystem.name_injective system, id, hash.hexdigest_injective digest⟩
  · rintro ⟨system, id, bytes⟩
    have identity : left.job.payload.source.identity = right.job.payload.source.identity := by
      rw [SourceRef.identity, SourceRef.identity, left.source_id, right.source_id, id]
      simp only [JobPayload.source, system]
    rw [SourceRef.documentId, SourceRef.documentId, identity, bytes]

/-- One line, uploaded under a source id. -/
def underId (sourceId : String) : Request where
  payload := [("filename", .string "a.txt"), ("content", .string "x"),
    ("source_id", .string sourceId)]
  principal := some { tenantId := "t", userId := "u" }

def underIdJob (sourceId : String) : JobPayload where
  tenantId := "t"
  filename := "a.txt"
  contentBase64 := some "x".toUTF8.toList
  allowedGroups := none
  sourceId
  groups := []

/-- The line is one chunk, under whatever id is accepted. -/
theorem underId_chunked (sourceId : String)
    (accepted : (documentJob compactDates (underId sourceId)).toOption.map (·.payload) =
      some (underIdJob sourceId)) :
    ∃ upload : ChunkedUpload .spelling, upload.job.payload = underIdJob sourceId := by
  cases read : documentJob compactDates (underId sourceId) with
  | error e =>
      rw [read] at accepted
      cases accepted
  | ok job =>
      rw [read] at accepted
      have payload : job.payload = underIdJob sourceId := Option.some.inj accepted
      have chunked : ∃ result, ingestSegments .spelling (fun text => [text]) (fun _ => "chunk") 0
          "x".toUTF8.toList [(none, "x")] job.payload.filename job.payload.tenantId
          (some job.payload.source.identity) = .ok result := by
        have named : normalizeIdentifier "a.txt" "filename" = .ok "a.txt" := by
          decide +kernel
        have tenant : normalizeIdentifier "t" "tenant_id" = .ok "t" := by decide +kernel
        rw [payload, ingestSegments]
        simp only [underIdJob, named, tenant]
        exact ⟨_, rfl⟩
      obtain ⟨result, chunked⟩ := chunked
      refine ⟨⟨compactDates, underId sourceId, job, read, _, ?_, _, _, _, _, result, chunked⟩,
        payload⟩
      rw [payload]
      rfl

theorem separators_kept_apart : ∃ left right : ChunkedUpload .spelling,
    left.job.payload = underIdJob "b" ∧ right.job.payload = underIdJob "b\x00/b" ∧
      left.result.documentId ≠ right.result.documentId := by
  obtain ⟨left, plain⟩ := underId_chunked "b" (by decide +kernel)
  obtain ⟨right, separated⟩ := underId_chunked "b\x00/b" (by decide +kernel)
  refine ⟨left, right, plain, separated, ?_⟩
  intro same
  have ids := ((document_id_injective left right).mp same).2.1
  rw [plain, separated] at ids
  revert ids
  decide

end ProductionRag
