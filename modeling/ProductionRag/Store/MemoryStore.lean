import ProductionRag.Permissions

/-!
# The in-memory store

`InMemoryStore` keeps two dictionaries under the same keys: the metadata of every
stored version and its chunks.  Each method runs under one lock, so each is one
atomic step; `now` is the clock reading the method takes.
-/

set_option autoImplicit false

namespace ProductionRag

open Basis

structure InMemoryStore where
  documents : Documents
  chunks : Table DocumentKey (List Chunk)
  deriving DecidableEq

namespace InMemoryStore

def empty : InMemoryStore := ⟨.empty, .empty⟩

/-- `_versions`: the caller-visible versions of one logical document. -/
def versions (store : InMemoryStore) (logical : LogicalDocument) (groups : List String) :
    List Document :=
  store.documents.select fun key document => document.versionOf logical groups key

def persist (store : InMemoryStore) (result : IngestResult)
    (allowedGroups : Option (List String)) (groups : List String) (contentType : String)
    (source : Option SourceRef) (now : Time) :
    Except PyError (PersistResult × InMemoryStore) :=
  match result.chunks with
  | [] => .error (.valueError "cannot persist an ingestion result with no chunks")
  | first :: _ =>
    let source := source.getD { id := first.source }
    let logical := source.logical first.tenantId
    let key := (first.tenantId, result.documentId)
    let current := (store.versions logical groups).filter fun document => document.isReady
    let allowedGroups := allowedGroups.getD ((current.head?.map (·.allowedGroups)).getD [])
    let siblings := store.documents.select fun key document =>
      document.siblingOf logical groups result.documentId key
    let superseded := (siblings.filter fun document => document.isReady).map (·.documentId)
    let version := (siblings.map (·.version)).foldr max 0 + 1
    let documents := store.documents.mapValues fun key document =>
      if document.siblingOf logical groups result.documentId key && document.isReady then
        { document with status := .superseded, updatedAt := now }
      else document
    match store.documents.find? key with
    | some existing =>
      if existing.isReady then
        let documents := store.documents.modify key (Document.checkedAt now)
        .ok ({ documentId := result.documentId, chunksWritten := 0, alreadyExisted := true,
               version := existing.version }, { store with documents })
      else
        let documents := documents.modify key fun document =>
          { document with
            status := .ready, version, source := first.source, updatedAt := now,
            lastCheckedAt := now }
        .ok ({ documentId := result.documentId, chunksWritten := 0, alreadyExisted := true,
               version, superseded }, { store with documents })
    | none =>
      let documents := documents.set key
        { documentId := result.documentId, source := first.source,
          sourceSystem := source.system.name, sourceId := source.id, version,
          status := .ready, contentType, contentSha256 := result.contentSha256,
          chunkCount := result.chunks.length, allowedGroups, sourceVersion := source.version,
          sourceModifiedAt := source.modifiedAt, lastCheckedAt := now, createdAt := now,
          updatedAt := now }
      .ok ({ documentId := result.documentId, chunksWritten := result.chunks.length,
             alreadyExisted := false, version, superseded },
        { documents, chunks := store.chunks.set key result.chunks })

def currentVersion (store : InMemoryStore) (tenantId : String) (source : SourceRef)
    (groups : List String) : Option Document :=
  (store.versions (source.logical tenantId) groups).find? fun document => document.isReady

def markChecked (store : InMemoryStore) (tenantId documentId : String) (now : Time) :
    InMemoryStore :=
  { store with
    documents := store.documents.modify (tenantId, documentId) (Document.checkedAt now) }

/-- The patch of one version: a field that is not sent stays. -/
def patched (allowedGroups : Option (List String)) (displayName : Option String) (now : Time)
    (document : Document) : Document :=
  { document with
    allowedGroups := allowedGroups.getD document.allowedGroups
    source := displayName.getD document.source
    updatedAt := now }

def updateDocument (store : InMemoryStore) (tenantId documentId : String)
    (groups : List String) (allowedGroups : Option (List String))
    (displayName : Option String) (now : Time) :
    (Bool × Option Document) × InMemoryStore :=
  match store.documents.find? (tenantId, documentId) with
  | none => ((false, none), store)
  | some found =>
    if found.visible groups then
      let logical := ⟨tenantId, found.sourceSystem, found.sourceId⟩
      let documents := store.documents.mapValues fun key document =>
        if document.versionOf logical groups key then
          patched allowedGroups displayName now document
        else document
      let row := documents.find? (tenantId, documentId)
      ((true, row.filter fun document => document.visible groups), { store with documents })
    else ((false, none), store)

/-- `sorted(..., key=(created_at, document_id), reverse=True)` -/
def newestFirst (left right : Document) : Prop :=
  right.createdAt < left.createdAt ∨
    (left.createdAt = right.createdAt ∧ right.documentId ≤ left.documentId)

instance : DecidableRel newestFirst := fun left right => by
  unfold newestFirst
  infer_instance

def listDocuments (store : InMemoryStore) (tenantId : String) (groups : List String)
    (includeSuperseded : Bool) : List Document :=
  (store.documents.select fun key document =>
    key.1 == tenantId && document.visible groups &&
      (includeSuperseded || document.isReady)).insertionSort newestFirst

def getDocument (store : InMemoryStore) (tenantId documentId : String)
    (groups : List String) : Option Document :=
  (store.documents.find? (tenantId, documentId)).filter fun document => document.visible groups

def deleteDocument (store : InMemoryStore) (tenantId documentId : String)
    (groups : List String) : Bool × InMemoryStore :=
  match store.getDocument tenantId documentId groups with
  | none => (false, store)
  | some _ =>
    (true, { documents := store.documents.erase (tenantId, documentId),
             chunks := store.chunks.erase (tenantId, documentId) })

/-- `_renamed`: a chunk cites the current display name of its document. -/
def renamed (chunk : Chunk) (source : String) : Chunk :=
  if chunk.source = source then chunk else { chunk with source }

/-- The chunks of one row; a row without chunks is a `KeyError`. -/
def chunksOf (store : InMemoryStore) (entry : DocumentKey × Document) :
    Except PyError (List Chunk) :=
  match store.chunks.find? entry.1 with
  | none => .error (.keyError entry.1.2)
  | some chunks => .ok (chunks.map fun chunk => renamed chunk entry.2.source)

def readableChunks (store : InMemoryStore) (principal : Principal) :
    Except PyError (List Chunk) :=
  let readable := store.documents.entries.filter fun entry =>
    entry.1.1 == principal.tenantId && entry.2.isReady &&
      canReadGroups entry.2.allowedGroups principal
  (readable.mapM store.chunksOf).map List.flatten

end InMemoryStore

end ProductionRag
