import ProductionRag.Basis.Query
import ProductionRag.Store.MemoryStore

/-!
# The PostgreSQL store

The statements of `PostgresPersistence` as operations on two tables.  `documents`
is keyed by its primary key; `chunks` groups the rows of one document under its
foreign key.  A method is one transaction: it reads `now()` once, and either
commits the whole new database or leaves the old one.  Every statement runs under
the row-level policy of the tenant that `_set_tenant` selected.
-/

set_option autoImplicit false

namespace ProductionRag

open Basis

/-- A Python float, as far as `math.isfinite` looks at it. -/
inductive FloatValue where
  | finite (value : Rat)
  | nonfinite
  deriving DecidableEq

abbrev Embedding := List FloatValue

def modelName : String := "BAAI/bge-small-en-v1.5"

def dimensions : Nat := 384

structure ChunkRow where
  id : String
  index : Nat
  text : String
  page : Option Nat
  embedding : Embedding
  embeddingModel : String
  createdAt : Time
  deriving DecidableEq

structure Database where
  documents : Documents
  chunks : Table DocumentKey (List ChunkRow)
  /-- `now()` of the last transaction. -/
  clock : Time
  deriving DecidableEq

/-- `ORDER BY version DESC LIMIT 1` -/
abbrev VersionPlan := Top Document fun document => document.version

/-- `WHERE tenant_id = %s` under the policy `tenant_id = current_setting('app.tenant_id')`. -/
def inTenant (tenantId : String) (key : DocumentKey) : Bool :=
  key.1 == tenantId && key.1 == strip tenantId

/-- `_set_tenant` refuses a blank tenant. -/
def setTenant (tenantId : String) : Except PyError Unit :=
  if strip tenantId = "" then .error (.valueError "tenant_id is required") else .ok ()

def checkVector (embedding : Embedding) : Except PyError Unit :=
  if embedding.length ≠ dimensions then
    .error (.valueError "embeddings must have exactly 384 dimensions")
  else if embedding.any fun value => value == .nonfinite then
    .error (.valueError "embeddings must contain only finite values")
  else .ok ()

/-- The first embedding that fails its check decides the error. -/
def checkVectors : List Embedding → Except PyError Unit
  | [] => .ok ()
  | embedding :: rest => do
      checkVector embedding
      checkVectors rest

namespace Database

def empty : Database := ⟨.empty, .empty, 0⟩

/-- The row `ON CONFLICT (tenant_id, source_system, source_id, content_sha256)` hits. -/
def conflicting (db : Database) (logical : LogicalDocument) (contentSha256 : String) :
    Option (DocumentKey × Document) :=
  db.documents.entries.find? fun entry =>
    entry.2.belongsTo logical entry.1 && entry.2.contentSha256 == contentSha256

/-- `INSERT INTO chunks ... ON CONFLICT (tenant_id, document_id, chunk_index) DO NOTHING` -/
def insertChunk (rows : List ChunkRow) (row : ChunkRow) : List ChunkRow :=
  if rows.any fun other => other.index == row.index then rows else rows ++ [row]

def chunkRow (model : String) (entry : Chunk × Embedding) : ChunkRow :=
  { id := entry.1.id, index := entry.1.index, text := entry.1.text, page := entry.1.page,
    embedding := entry.2, embeddingModel := model, createdAt := entry.1.createdAt }

/-- Constraints a chunk row must meet: the policy on its tenant, `page >= 1`. -/
def chunkAllowed (tenantId : String) (chunk : Chunk) : Bool :=
  chunk.tenantId == tenantId && chunk.page != some 0

structure Promotion where
  documents : Documents
  version : Nat
  superseded : List String

/-- The last three statements of `persist`: supersede the visible siblings, number
the version after them, and make it current under the new display name. -/
def promote (documents : Documents) (logical : LogicalDocument) (groups : List String)
    (documentId filename : String) (now : Time) : Promotion :=
  let sibling := fun (key : DocumentKey) (document : Document) =>
    inTenant logical.tenantId key && document.siblingOf logical groups documentId key
  let superseded := documents.select fun key document => sibling key document && document.isReady
  let documents := documents.mapValues fun key document =>
    if sibling key document && document.isReady then
      { document with status := .superseded, updatedAt := now }
    else document
  let version := ((documents.select sibling).map (·.version)).foldr max 0 + 1
  let documents := documents.modify (logical.tenantId, documentId) fun document =>
    { document with status := .ready, version, source := filename, updatedAt := now }
  { documents, version, superseded := superseded.map (·.documentId) }

def persist (db : Database) (result : IngestResult) (embeddings : List Embedding)
    (model : String) (allowedGroups : Option (List String)) (groups : List String)
    (contentType : String) (source : Option SourceRef) (plan : VersionPlan) (now : Time) :
    Except PyError (PersistResult × Database) :=
  match result.chunks with
  | [] => .error (.valueError "cannot persist an ingestion result with no chunks")
  | first :: _ =>
    if model ≠ modelName then
      .error (.valueError ("database vectors must use the configured model " ++ modelName))
    else if embeddings.length ≠ result.chunks.length then
      .error (.valueError "every chunk must have exactly one embedding")
    else do
      checkVectors embeddings
      let tenantId := first.tenantId
      let source := source.getD { id := first.source }
      let logical := source.logical tenantId
      setTenant tenantId
      let inherited := plan.pick (db.documents.select fun key document =>
        inTenant tenantId key && document.versionOf logical groups key && document.isReady)
      let allowedGroups := allowedGroups.getD ((inherited.map (·.allowedGroups)).getD [])
      if strip tenantId ≠ tenantId then
        .error (.databaseError "new row violates row-level security policy")
      else match db.conflicting logical result.contentSha256 with
      | some (key, existing) =>
        let documents := db.documents.modify key fun document =>
          { document with
            updatedAt := now, lastCheckedAt := now,
            sourceVersion := source.version.or document.sourceVersion }
        if existing.isReady then
          .ok ({ documentId := key.2, chunksWritten := 0, alreadyExisted := true,
                 version := existing.version }, { db with documents, clock := now })
        else
          let promotion := promote documents logical groups key.2 first.source now
          .ok ({ documentId := key.2, chunksWritten := 0, alreadyExisted := true,
                 version := promotion.version, superseded := promotion.superseded },
            { db with documents := promotion.documents, clock := now })
      | none =>
        let key := (tenantId, result.documentId)
        if (db.documents.find? key).isSome then
          .error (.databaseError "duplicate key value violates unique constraint")
        else if result.chunks.any fun chunk => !chunkAllowed tenantId chunk then
          .error (.databaseError "new row violates a constraint of chunks")
        else
          let documents := db.documents.set key
            { documentId := result.documentId, source := first.source,
              sourceSystem := source.system.name, sourceId := source.id, version := 1,
              status := .ready, contentType, contentSha256 := result.contentSha256,
              chunkCount := result.chunks.length, allowedGroups,
              sourceVersion := source.version, sourceModifiedAt := source.modifiedAt,
              lastCheckedAt := now, createdAt := now, updatedAt := now }
          let rows := (result.chunks.zip embeddings).map (chunkRow model)
          let chunks := db.chunks.set key
            (rows.foldl insertChunk ((db.chunks.find? key).getD []))
          let promotion := promote documents logical groups result.documentId first.source now
          .ok ({ documentId := result.documentId, chunksWritten := result.chunks.length,
                 alreadyExisted := false, version := promotion.version,
                 superseded := promotion.superseded },
            { documents := promotion.documents, chunks, clock := now })

/-- `ORDER BY created_at DESC, document_id` -/
def createdDesc (left right : Document) : Prop :=
  right.createdAt < left.createdAt ∨
    (left.createdAt = right.createdAt ∧ left.documentId ≤ right.documentId)

instance : DecidableRel createdDesc := fun left right => by
  unfold createdDesc
  infer_instance

def selectDocuments (db : Database) (tenantId : String) (groups : List String)
    (condition : DocumentKey → Document → Bool) : Except PyError (List Document) :=
  if strip tenantId = "" then .error (.valueError "tenant_id is required")
  else .ok ((db.documents.select fun key document =>
    inTenant tenantId key && document.visible groups && condition key document).insertionSort
      createdDesc)

def currentVersion (db : Database) (tenantId : String) (source : SourceRef)
    (groups : List String) : Except PyError (Option Document) :=
  (db.selectDocuments tenantId groups fun key document =>
    document.belongsTo (source.logical tenantId) key && document.isReady).map List.head?

def listDocuments (db : Database) (tenantId : String) (groups : List String)
    (includeSuperseded : Bool) : Except PyError (List Document) :=
  db.selectDocuments tenantId groups fun _ document => includeSuperseded || document.isReady

def getDocument (db : Database) (tenantId documentId : String) (groups : List String) :
    Except PyError (Option Document) :=
  (db.selectDocuments tenantId groups fun key _ => key.2 == documentId).map List.head?

def markChecked (db : Database) (tenantId documentId : String) (now : Time) :
    Except PyError Database := do
  setTenant tenantId
  let documents := db.documents.mapValues fun key document =>
    if inTenant tenantId key && key.2 == documentId then document.checkedAt now else document
  .ok { db with documents, clock := now }

def updateDocument (db : Database) (tenantId documentId : String) (groups : List String)
    (allowedGroups : Option (List String)) (displayName : Option String) (now : Time) :
    Except PyError ((Bool × Option Document) × Database) := do
  setTenant tenantId
  match db.documents.find? (tenantId, documentId) with
  | none => .ok ((false, none), { db with clock := now })
  | some found =>
    if inTenant tenantId (tenantId, documentId) && found.visible groups then
      let logical := ⟨tenantId, found.sourceSystem, found.sourceId⟩
      let documents := db.documents.mapValues fun key document =>
        if inTenant tenantId key && document.versionOf logical groups key then
          InMemoryStore.patched allowedGroups displayName now document
        else document
      let db := { db with documents, clock := now }
      -- read back under the new access list
      let row ← db.getDocument tenantId documentId groups
      .ok ((true, row), db)
    else .ok ((false, none), { db with clock := now })

def deleteDocument (db : Database) (tenantId documentId : String) (groups : List String)
    (now : Time) : Except PyError (Bool × Database) :=
  if strip tenantId = "" ∨ strip documentId = "" then
    .error (.valueError "tenant_id and document_id are required")
  else
    let key := (strip tenantId, strip documentId)
    match (db.documents.find? key).filter fun document => document.visible groups with
    | none => .ok (false, { db with clock := now })
    | some _ =>
      -- the foreign key of `chunks` cascades
      .ok (true, { documents := db.documents.erase key, chunks := db.chunks.erase key,
                   clock := now })

end Database

end ProductionRag
