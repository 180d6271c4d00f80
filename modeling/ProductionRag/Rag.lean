import ProductionRag.Python

/-!
# Chunks and document identity

`ingest_segments` names a document by the SHA-256 of its logical identity and of
the uploaded bytes.  Cutting a page into pieces is a parameter here: nothing
below depends on where the cuts fall.
-/

set_option autoImplicit false

namespace ProductionRag

/-- A chunk without its random id and its timestamp. -/
structure ChunkBody where
  text : String
  documentId : String
  index : Nat
  tenantId : String
  source : String
  page : Option Nat := none
  deriving DecidableEq, Repr

structure Chunk extends ChunkBody where
  id : String
  createdAt : Time
  deriving DecidableEq, Repr

structure IngestResult where
  documentId : String
  contentSha256 : String
  chunks : List Chunk
  deriving DecidableEq, Repr

def normalizeIdentifier (value field : String) : Except PyError String :=
  let normalized := strip value
  if normalized = "" then .error (.valueError (field ++ " is required"))
  else if normalized.toList.any fun c => decide (c.toNat < 32) then
    .error (.valueError (field ++ " contains control characters"))
  else .ok normalized

theorem normalizeIdentifier_ok {value field normalized : String}
    (success : normalizeIdentifier value field = .ok normalized) :
    normalized = strip value ∧ normalized ≠ "" := by
  simp only [normalizeIdentifier] at success
  split at success
  · cases success
  · rename_i nonempty
    split at success
    · cases success
    · cases success
      exact ⟨rfl, nonempty⟩

/-- The 24-digit `document_id`; an absent or empty identity leaves the bytes alone. -/
def documentIdOf (hash : Sha256) (identity : Option String) (digest : String) : String :=
  match identity with
  | some name =>
      if name = "" then String.ofList (digest.toList.take 24)
      else hash.hexdigest24 (name ++ "\x00" ++ digest)
  | none => String.ofList (digest.toList.take 24)

def ingestSegments (hash : Sha256) (split : String → List String) (uuid4 : Nat → String)
    (createdAt : Time) (original : List UInt8) (segments : List (Option Nat × String))
    (filename tenantId : String) (identity : Option String) : Except PyError IngestResult :=
  match normalizeIdentifier filename "filename" with
  | .error e => .error e
  | .ok filename =>
    match normalizeIdentifier tenantId "tenant_id" with
    | .error e => .error e
    | .ok tenantId =>
      let digest := hash.hexdigest original
      let documentId := documentIdOf hash identity digest
      let pieces := segments.flatMap fun segment =>
        (split segment.2).map fun piece => (segment.1, piece)
      let chunks := pieces.zipIdx.map fun entry =>
        { text := entry.1.2, documentId, index := entry.2, tenantId, source := filename,
          id := uuid4 entry.2, createdAt, page := entry.1.1 }
      .ok { documentId, contentSha256 := digest, chunks }

/-- What `ingest_segments` fixes about the result, wherever the pieces were cut. -/
structure IngestedFrom (hash : Sha256) (original : List UInt8) (identity : Option String)
    (result : IngestResult) : Prop where
  documentId_eq : result.documentId = documentIdOf hash identity (hash.hexdigest original)
  contentSha256_eq : result.contentSha256 = hash.hexdigest original
  chunks_tenant : ∃ tenantId, tenantId ≠ "" ∧ strip tenantId = tenantId ∧
    ∀ chunk ∈ result.chunks, chunk.tenantId = tenantId

theorem ingestSegments_ingestedFrom {hash : Sha256} {split : String → List String}
    {uuid4 : Nat → String} {createdAt : Time} {original : List UInt8}
    {segments : List (Option Nat × String)} {filename tenantId : String}
    {identity : Option String} {result : IngestResult}
    (success : ingestSegments hash split uuid4 createdAt original segments filename tenantId
      identity = .ok result) :
    IngestedFrom hash original identity result := by
  unfold ingestSegments at success
  cases name : normalizeIdentifier filename "filename" with
  | error e => simp [name] at success
  | ok normalName =>
      cases tenant : normalizeIdentifier tenantId "tenant_id" with
      | error e => simp [name, tenant] at success
      | ok normalTenant =>
          simp only [name, tenant, Except.ok.injEq] at success
          subst success
          obtain ⟨tenantEq, tenantNonempty⟩ := normalizeIdentifier_ok tenant
          refine ⟨rfl, rfl, normalTenant, tenantNonempty, ?_, ?_⟩
          · rw [tenantEq, strip_strip]
          · intro chunk member
            obtain ⟨entry, _, rfl⟩ := List.mem_map.mp member
            rfl

/-- Digests are hexadecimal, so the zero byte splits a hashed identity uniquely. -/
theorem identity_digest_injective {left right leftDigest rightDigest : String}
    (leftHex : ∀ c ∈ leftDigest.toList, c ∈ hexDigits)
    (rightHex : ∀ c ∈ rightDigest.toList, c ∈ hexDigits)
    (same : left ++ "\x00" ++ leftDigest = right ++ "\x00" ++ rightDigest) :
    left = right ∧ leftDigest = rightDigest := by
  have lists := congrArg String.toList same
  simp only [String.toList_append] at lists
  have noNul : ∀ digest : String, (∀ c ∈ digest.toList, c ∈ hexDigits) →
      ∀ c ∈ digest.toList.reverse, c ≠ '\x00' := by
    intro digest hex c member eq
    have isHex := hex c (List.mem_reverse.mp member)
    rw [eq] at isHex
    revert isHex
    decide
  -- read from the right: the digest ends at the first zero byte
  have cut : ∀ (tail : List Char) (digest : String),
      (∀ c ∈ digest.toList, c ∈ hexDigits) →
        (tail ++ "\x00".toList ++ digest.toList).reverse.takeWhile (fun c => decide (c ≠ '\x00')) =
          digest.toList.reverse := by
    intro tail digest hex
    rw [List.reverse_append, List.takeWhile_append_of_pos]
    · simp
    · intro c member
      simpa using noNul digest hex c member
  have digestLists : leftDigest.toList = rightDigest.toList := by
    have leftCut := cut left.toList leftDigest leftHex
    have rightCut := cut right.toList rightDigest rightHex
    rw [lists] at leftCut
    exact List.reverse_injective (leftCut.symm.trans rightCut)
  refine ⟨?_, String.toList_injective digestLists⟩
  rw [digestLists] at lists
  have prefixes := List.append_cancel_right lists
  exact String.toList_injective (List.append_cancel_right prefixes)

end ProductionRag
