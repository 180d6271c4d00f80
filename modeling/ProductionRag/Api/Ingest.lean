import ProductionRag.Basis.Program
import ProductionRag.Store.Calls

/-!
# One upload

`_ingest_document` reads the current version of the uploaded document and then either
refreshes it or stores a new one.  Each store method is one atomic step, so the upload is
a program over the store: what it does after the read rests on the answer it got, not
on the store it finds.  The parser, the chunker and the embedder are parameters.
-/

set_option autoImplicit false

namespace ProductionRag

open Basis

structure ParsedDocument where
  contentType : String
  segments : List (Option Nat × String)
  deriving DecidableEq, Repr

/-- What an upload calls outside the store. -/
structure Services where
  hash : Sha256
  parse : List UInt8 → String → Option String → Except PyError ParsedDocument
  split : String → List String
  embed : List String → List Embedding
  embedderModel : String := modelName

/-- A validated upload as `_document_job` builds it; its timestamp is already read. -/
structure JobPayload where
  tenantId : String
  filename : String
  /-- The uploaded bytes; the key is dropped once the job can no longer run. -/
  contentBase64 : Option (List UInt8)
  contentType : Option String := none
  allowedGroups : Option (List String)
  sourceSystem : SourceSystem := .upload
  sourceId : String
  sourceVersion : Option String := none
  sourceModifiedAt : Option Time := none
  groups : List String
  deriving DecidableEq

structure JobResult where
  documentId : String
  sourceSystem : String
  sourceId : String
  contentSha256 : String
  contentType : String
  version : Nat
  superseded : List String
  chunksCreated : Nat
  alreadyExisted : Bool
  unchanged : Bool
  deriving DecidableEq, Repr

namespace JobPayload

/-- `payload - 'content_base64'` -/
def withoutContent (job : JobPayload) : JobPayload := { job with contentBase64 := none }

def source (job : JobPayload) : SourceRef where
  system := job.sourceSystem
  id := if job.sourceId = "" then job.filename else job.sourceId
  version := job.sourceVersion
  modifiedAt := job.sourceModifiedAt

end JobPayload

/-- A program over the store. -/
abbrev StoreProgram (α : Type) := Program StoreCall (Except PyError StoreReply) α

/-- Go on with the answer of a store method; its exception ends the upload.  `expect`
picks the reply of the method, which sends no other. -/
def storeCall {α β : Type} (call : StoreCall) (expect : StoreReply → Option β)
    (next : β → StoreProgram (Except PyError α)) : StoreProgram (Except PyError α) :=
  .call call fun
    | .error e => .done (.error e)
    | .ok reply =>
      match expect reply with
      | some value => next value
      | none => .done (.error (.typeError "unexpected reply"))

def StoreReply.current? : StoreReply → Option (Option Document)
  | .current row => some row
  | _ => none

def StoreReply.persisted? : StoreReply → Option PersistResult
  | .persisted result => some result
  | _ => none

def StoreReply.checked? : StoreReply → Option Unit
  | .checked => some ()
  | _ => none

def StoreReply.updated? : StoreReply → Option (Bool × Option Document)
  | .updated found row => some (found, row)
  | _ => none

/-- The source's own version marker, then the bytes. -/
def isUnchanged (hash : Sha256) (source : SourceRef) (data : List UInt8) (current : Version) :
    Bool :=
  (source.version.isSome && current.sourceVersion == source.version) ||
    current.contentSha256 == hash.hexdigest data

/-- The answer of `_unchanged`. -/
def unchangedResult (current : Document) : JobResult where
  documentId := current.documentId
  sourceSystem := current.sourceSystem
  sourceId := current.sourceId
  contentSha256 := current.contentSha256
  contentType := current.contentType
  version := current.version
  superseded := []
  chunksCreated := 0
  alreadyExisted := true
  unchanged := true

/-- `_unchanged`: refresh freshness, and the name if it differs. -/
def unchanged (job : JobPayload) (current : Document) : StoreProgram (Except PyError JobResult) :=
  let result := unchangedResult current
  storeCall (.markChecked job.tenantId current.documentId) StoreReply.checked? fun _ =>
    if job.filename ≠ current.source then
      storeCall (.updateDocument job.tenantId current.documentId job.groups none
        (some job.filename)) StoreReply.updated? fun _ => .done (.ok result)
    else .done (.ok result)

/-- `parse` and `ingest_segments`: what `persist` is going to be called with. -/
def prepare (services : Services) (uuid4 : Nat → String) (createdAt : Time) (job : JobPayload)
    (data : List UInt8) : Except PyError PersistCall := do
  let parsed ← services.parse data job.filename job.contentType
  let result ← ingestSegments services.hash services.split uuid4 createdAt data parsed.segments
    job.filename job.tenantId (some job.source.identity)
  if result.chunks.isEmpty then .error (.valueError "document has no text to index")
  else
    .ok { result, allowedGroups := job.allowedGroups, groups := job.groups,
          contentType := parsed.contentType, source := some job.source,
          embeddings := services.embed (result.chunks.map (·.text)),
          model := services.embedderModel }

/-- The answer of an upload that was stored. -/
def storedResult (job : JobPayload) (call : PersistCall) (stored : PersistResult) : JobResult where
  documentId := stored.documentId
  sourceSystem := job.source.system.name
  sourceId := job.source.id
  contentSha256 := call.result.contentSha256
  contentType := call.contentType
  version := stored.version
  superseded := stored.superseded
  chunksCreated := stored.chunksWritten
  alreadyExisted := stored.alreadyExisted
  unchanged := false

/-- What the upload does with the version it read. -/
def ingestAfterRead (services : Services) (uuid4 : Nat → String) (createdAt : Time)
    (job : JobPayload) (data : List UInt8) (current : Option Document) :
    StoreProgram (Except PyError JobResult) :=
  match current.filter fun row => isUnchanged services.hash job.source data row.toVersion with
  | some row => unchanged job row
  | none =>
    match prepare services uuid4 createdAt job data with
    | .error e => .done (.error e)
    | .ok call =>
      storeCall (.persist call) StoreReply.persisted? fun stored =>
        .done (.ok (storedResult job call stored))

def ingestDocument (services : Services) (uuid4 : Nat → String) (createdAt : Time)
    (job : JobPayload) : StoreProgram (Except PyError JobResult) :=
  match job.contentBase64 with
  | none => .done (.error (.keyError "content_base64"))
  | some data =>
    storeCall (.currentVersion job.tenantId job.source job.groups) StoreReply.current?
      (ingestAfterRead services uuid4 createdAt job data)

/-! ## What an upload sends -/

theorem storeCall_meets {α β : Type} {p : StoreCall → Prop} {call : StoreCall}
    {expect : StoreReply → Option β} {next : β → StoreProgram (Except PyError α)}
    (meets : p call) (later : ∀ value, (next value).Sends p) :
    (storeCall call expect next).Sends p := by
  refine .call meets fun answer => ?_
  cases answer with
  | error e => exact .done _
  | ok reply =>
      dsimp only
      cases expect reply with
      | none => exact .done _
      | some value => exact later value

/-- An upload reads the current version, refreshes a version, gives it its own name, or persists
what it prepared. -/
theorem ingestDocument_meets {p : StoreCall → Prop} {services : Services} {uuid4 : Nat → String}
    {createdAt : Time} {job : JobPayload}
    (reads : p (.currentVersion job.tenantId job.source job.groups))
    (checks : ∀ documentId, p (.markChecked job.tenantId documentId))
    (renames : ∀ documentId,
      p (.updateDocument job.tenantId documentId job.groups none (some job.filename)))
    (stores : ∀ data call, job.contentBase64 = some data →
      prepare services uuid4 createdAt job data = .ok call → p (.persist call)) :
    (ingestDocument services uuid4 createdAt job).Sends p := by
  rw [ingestDocument]
  cases content : job.contentBase64 with
  | none => exact .done _
  | some data =>
      refine storeCall_meets reads fun current => ?_
      rw [ingestAfterRead]
      cases current.filter fun row => isUnchanged services.hash job.source data row.toVersion with
      | some row =>
          refine storeCall_meets (checks _) fun _ => ?_
          split
          · exact storeCall_meets (renames _) fun _ => .done _
          · exact .done _
      | none =>
          dsimp only
          cases prepared : prepare services uuid4 createdAt job data with
          | error e => exact .done _
          | ok call => exact storeCall_meets (stores data call content prepared) fun _ => .done _

end ProductionRag
