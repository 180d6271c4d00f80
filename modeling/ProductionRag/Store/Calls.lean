import ProductionRag.Store.Postgres

/-!
# Calls and reachable states

Both stores answer the same calls.  A state is reachable when some sequence of
calls leads to it from the empty store; the clock of the in-memory store is any
sequence of readings, the one of PostgreSQL moves on with every transaction.
-/

set_option autoImplicit false

namespace ProductionRag

open Basis

/-- The arguments of `persist`; only PostgreSQL looks at the embeddings. -/
structure PersistCall where
  result : IngestResult
  allowedGroups : Option (List String)
  groups : List String
  contentType : String
  source : Option SourceRef
  embeddings : List Embedding := []
  model : String := modelName

inductive StoreCall where
  | persist (call : PersistCall)
  | currentVersion (tenantId : String) (source : SourceRef) (groups : List String)
  | markChecked (tenantId documentId : String)
  | updateDocument (tenantId documentId : String) (groups : List String)
      (allowedGroups : Option (List String)) (displayName : Option String)
  | deleteDocument (tenantId documentId : String) (groups : List String)
  | getDocument (tenantId documentId : String) (groups : List String)
  | listDocuments (tenantId : String) (groups : List String) (includeSuperseded : Bool)

inductive StoreReply where
  | persisted (result : PersistResult)
  | current (row : Option Document)
  | checked
  | updated (found : Bool) (row : Option Document)
  | deleted (found : Bool)
  | document (row : Option Document)
  | documents (rows : List Document)
  deriving DecidableEq

namespace PersistCall

def tenantId (call : PersistCall) : String :=
  (call.result.chunks.head?.map (·.tenantId)).getD ""

def filename (call : PersistCall) : String :=
  (call.result.chunks.head?.map (·.source)).getD ""

/-- The source the upload is stored under; without one it is the filename. -/
def effectiveSource (call : PersistCall) : SourceRef :=
  call.source.getD { id := call.filename }

def logical (call : PersistCall) : LogicalDocument :=
  call.effectiveSource.logical call.tenantId

def key (call : PersistCall) : DocumentKey := (call.tenantId, call.result.documentId)

/-- The result comes from `ingest_segments` under the identity of its own source. -/
def Identified (hash : Sha256) (call : PersistCall) : Prop :=
  ∃ original, IngestedFrom hash original (some call.effectiveSource.identity) call.result

end PersistCall

/-- Every `persist` among the calls meets `legal`. -/
def StoreCall.Legal (legal : PersistCall → Prop) : StoreCall → Prop
  | .persist call => legal call
  | _ => True

namespace InMemoryStore

def persistCall (store : InMemoryStore) (now : Time) (call : PersistCall) :
    Except PyError (PersistResult × InMemoryStore) :=
  store.persist call.result call.allowedGroups call.groups call.contentType call.source now

def step (store : InMemoryStore) (now : Time) :
    StoreCall → Except PyError StoreReply × InMemoryStore
  | .persist call =>
    match store.persistCall now call with
    | .error e => (.error e, store)
    | .ok (result, store') => (.ok (.persisted result), store')
  | .currentVersion tenantId source groups =>
    (.ok (.current (store.currentVersion tenantId source groups)), store)
  | .markChecked tenantId documentId =>
    (.ok .checked, store.markChecked tenantId documentId now)
  | .updateDocument tenantId documentId groups allowedGroups displayName =>
    let out := store.updateDocument tenantId documentId groups allowedGroups displayName now
    (.ok (.updated out.1.1 out.1.2), out.2)
  | .deleteDocument tenantId documentId groups =>
    let out := store.deleteDocument tenantId documentId groups
    (.ok (.deleted out.1), out.2)
  | .getDocument tenantId documentId groups =>
    (.ok (.document (store.getDocument tenantId documentId groups)), store)
  | .listDocuments tenantId groups includeSuperseded =>
    (.ok (.documents (store.listDocuments tenantId groups includeSuperseded)), store)

inductive Reachable (legal : PersistCall → Prop) : InMemoryStore → Prop
  | empty : Reachable legal empty
  | step {store : InMemoryStore} (reached : Reachable legal store) (now : Time)
      (call : StoreCall) (isLegal : call.Legal legal) : Reachable legal (store.step now call).2

/-- The invariant rule: what holds at first and across every legal step always holds. -/
theorem Reachable.induct {legal : PersistCall → Prop} (Inv : InMemoryStore → Prop)
    (init : Inv InMemoryStore.empty)
    (preserved : ∀ store now call, Inv store → call.Legal legal → Inv (store.step now call).2)
    {store : InMemoryStore} (reached : Reachable legal store) : Inv store := by
  induction reached with
  | empty => exact init
  | step _ now call isLegal ih => exact preserved _ now call ih isLegal

/-- A sequence of calls with the clock readings they take. -/
def run (store : InMemoryStore) (calls : List (Time × StoreCall)) : InMemoryStore :=
  calls.foldl (fun store call => (store.step call.1 call.2).2) store

theorem Reachable.run {legal : PersistCall → Prop} {store : InMemoryStore}
    (reached : Reachable legal store) (calls : List (Time × StoreCall))
    (isLegal : ∀ call ∈ calls, call.2.Legal legal) : Reachable legal (store.run calls) := by
  induction calls generalizing store with
  | nil => exact reached
  | cons call rest ih =>
      exact ih (reached.step call.1 call.2 (isLegal call List.mem_cons_self))
        fun later member => isLegal later (List.mem_cons_of_mem call member)

def afterUploads (store : InMemoryStore) (uploads : List PersistCall) : InMemoryStore :=
  store.run (uploads.map fun call => (0, .persist call))

theorem Reachable.afterUploads {legal : PersistCall → Prop} {store : InMemoryStore}
    (reached : Reachable legal store) {uploads : List PersistCall}
    (isLegal : ∀ call ∈ uploads, legal call) : Reachable legal (store.afterUploads uploads) := by
  refine reached.run _ ?_
  intro call member
  obtain ⟨upload, uploadMember, rfl⟩ := List.mem_map.mp member
  exact isLegal upload uploadMember

theorem Reachable.mono {weak strong : PersistCall → Prop}
    (weaker : ∀ call, strong call → weak call) {store : InMemoryStore}
    (reached : Reachable strong store) : Reachable weak store := by
  induction reached with
  | empty => exact .empty
  | step _ now call isLegal ih =>
      refine ih.step now call ?_
      cases call with
      | persist call => exact weaker call isLegal
      | _ => trivial

end InMemoryStore

namespace Database

/-- One call of the transaction that runs `delay` after the last one, not at once. -/
def nextNow (db : Database) (delay : Nat) : Time := db.clock + 1 + delay

theorem lt_nextNow (db : Database) (delay : Nat) : db.clock < db.nextNow delay :=
  Nat.lt_of_lt_of_le (Nat.lt_succ_self db.clock) (Nat.le_add_right _ delay)

def persistCall (db : Database) (plan : VersionPlan) (now : Time) (call : PersistCall) :
    Except PyError (PersistResult × Database) :=
  db.persist call.result call.embeddings call.model call.allowedGroups call.groups
    call.contentType call.source plan now

/-- A transaction that raises is rolled back. -/
def settle (db : Database) {α : Type} (reply : α → StoreReply) :
    Except PyError (α × Database) → Except PyError StoreReply × Database
  | .error e => (.error e, db)
  | .ok (value, db') => (.ok (reply value), db')

def step (db : Database) (plan : VersionPlan) (delay : Nat) :
    StoreCall → Except PyError StoreReply × Database
  | .persist call => db.settle .persisted (db.persistCall plan (db.nextNow delay) call)
  | .currentVersion tenantId source groups =>
    ((db.currentVersion tenantId source groups).map .current, db)
  | .markChecked tenantId documentId =>
    db.settle (fun _ => .checked)
      ((db.markChecked tenantId documentId (db.nextNow delay)).map fun db' => ((), db'))
  | .updateDocument tenantId documentId groups allowedGroups displayName =>
    db.settle (fun out => .updated out.1 out.2)
      (db.updateDocument tenantId documentId groups allowedGroups displayName
        (db.nextNow delay))
  | .deleteDocument tenantId documentId groups =>
    db.settle .deleted (db.deleteDocument tenantId documentId groups (db.nextNow delay))
  | .getDocument tenantId documentId groups =>
    ((db.getDocument tenantId documentId groups).map .document, db)
  | .listDocuments tenantId groups includeSuperseded =>
    ((db.listDocuments tenantId groups includeSuperseded).map .documents, db)

inductive Reachable (legal : PersistCall → Prop) : Database → Prop
  | empty : Reachable legal empty
  | step {db : Database} (reached : Reachable legal db) (plan : VersionPlan) (delay : Nat)
      (call : StoreCall) (isLegal : call.Legal legal) :
      Reachable legal (db.step plan delay call).2

theorem Reachable.induct {legal : PersistCall → Prop} (Inv : Database → Prop)
    (init : Inv Database.empty)
    (preserved : ∀ db plan delay call, Inv db → call.Legal legal →
      Inv (db.step plan delay call).2)
    {db : Database} (reached : Reachable legal db) : Inv db := by
  induction reached with
  | empty => exact init
  | step _ plan delay call isLegal ih => exact preserved _ plan delay call ih isLegal

/-- A sequence of calls, each with the delay of its transaction. -/
def run (db : Database) (plan : VersionPlan) (calls : List (Nat × StoreCall)) : Database :=
  calls.foldl (fun db call => (db.step plan call.1 call.2).2) db

theorem Reachable.run {legal : PersistCall → Prop} {db : Database}
    (reached : Reachable legal db) (plan : VersionPlan) (calls : List (Nat × StoreCall))
    (isLegal : ∀ call ∈ calls, call.2.Legal legal) : Reachable legal (db.run plan calls) := by
  induction calls generalizing db with
  | nil => exact reached
  | cons call rest ih =>
      exact ih (reached.step plan call.1 call.2 (isLegal call List.mem_cons_self))
        fun later member => isLegal later (List.mem_cons_of_mem call member)

def afterUploads (db : Database) (plan : VersionPlan) (uploads : List PersistCall) : Database :=
  db.run plan (uploads.map fun call => (0, .persist call))

theorem Reachable.afterUploads {legal : PersistCall → Prop} {db : Database}
    (reached : Reachable legal db) (plan : VersionPlan) {uploads : List PersistCall}
    (isLegal : ∀ call ∈ uploads, legal call) :
    Reachable legal (db.afterUploads plan uploads) := by
  refine reached.run plan _ ?_
  intro call member
  obtain ⟨upload, uploadMember, rfl⟩ := List.mem_map.mp member
  exact isLegal upload uploadMember

end Database

end ProductionRag
