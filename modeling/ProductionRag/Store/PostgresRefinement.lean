import ProductionRag.Store.Identity

/-!
# PostgreSQL refines the history

On identified rows the conflict target of the upload is its primary key, so the
statements of `persist` amount to one upload of the history.  The access list it
settles on depends on the plan of `ORDER BY version DESC LIMIT 1`; the change
marker of a repeated upload is overwritten when the upload brings one.
-/

set_option autoImplicit false

namespace ProductionRag

open Basis

theorem inTenant_eq {tenantId : String} (trimmed : strip tenantId = tenantId)
    (key : DocumentKey) : inTenant tenantId key = (key.1 == tenantId) := by
  simp only [inTenant, trimmed, Bool.and_self]

theorem inTenant_and_versionOf (logical : LogicalDocument)
    (trimmed : strip logical.tenantId = logical.tenantId) (groups : List String)
    (key : DocumentKey) (version : Version) :
    (inTenant logical.tenantId key && version.versionOf logical groups key) =
      version.versionOf logical groups key := by
  rw [inTenant_eq trimmed, Version.versionOf, Version.belongsTo]
  cases key.1 == logical.tenantId <;> simp

theorem inTenant_and_siblingOf (logical : LogicalDocument)
    (trimmed : strip logical.tenantId = logical.tenantId) (groups : List String)
    (documentId : String) (key : DocumentKey) (version : Version) :
    (inTenant logical.tenantId key && version.siblingOf logical groups documentId key) =
      version.siblingOf logical groups documentId key := by
  rw [Version.siblingOf, ← Bool.and_assoc, inTenant_and_versionOf logical trimmed]

/-- A chunk row without its random id and its timestamp. -/
def ChunkRow.body (row : ChunkRow) : ChunkRow := { row with id := "", createdAt := 0 }

/-- The chunk rows `persist` inserts for a new document. -/
def PersistCall.rows (call : PersistCall) : List ChunkRow :=
  ((call.result.chunks.zip call.embeddings).map (Database.chunkRow call.model)).foldl
    Database.insertChunk []

def PersistCall.rowRequest (call : PersistCall) : UploadRequest (List ChunkRow) :=
  call.requestWith (call.rows.map ChunkRow.body)

/-- `coalesce(EXCLUDED.source_version, documents.source_version)` -/
def PersistCall.coalesce (call : PersistCall) (stored : Option String) : Option String :=
  call.effectiveSource.version.or stored

/-- The arguments pass every check that runs before the first statement. -/
structure PersistCall.Accepted (call : PersistCall) : Prop where
  nonempty : call.result.chunks ≠ []
  model_eq : call.model = modelName
  lengths : call.embeddings.length = call.result.chunks.length
  vectors : checkVectors call.embeddings = .ok ()
  tenant_ne : call.tenantId ≠ ""
  tenant_trimmed : strip call.tenantId = call.tenantId

/-- Every chunk row of the call meets the constraints of its table. -/
def PersistCall.RowsAllowed (call : PersistCall) : Prop :=
  ∀ chunk ∈ call.result.chunks, Database.chunkAllowed call.tenantId chunk = true

namespace Database

def history (db : Database) : History (List ChunkRow) :=
  ⟨db.documents.versions, db.chunks.mapValues fun _ rows => rows.map ChunkRow.body⟩

/-- The rows an upload inherits its access list from. -/
def inheritable (db : Database) (call : PersistCall) : List Document :=
  db.documents.select fun key document =>
    document.versionOf call.logical call.groups key && document.isReady

/-- The access list `persist` settles on: the one asked for, or the planned row's. -/
def settledGroups (db : Database) (plan : VersionPlan) (call : PersistCall) : List String :=
  call.allowedGroups.getD
    (((plan.pick (db.inheritable call)).map (·.allowedGroups)).getD [])

def promoteCall (documents : Documents) (call : PersistCall) (documentId : String)
    (now : Time) : Promotion :=
  promote documents call.logical call.groups documentId call.filename now

/-- What the conflict branch writes before it looks at the status. -/
def repeated (call : PersistCall) (now : Time) (document : Document) : Document :=
  { document with
    updatedAt := now, lastCheckedAt := now,
    sourceVersion := call.coalesce document.sourceVersion }

/-- The inserted row; `promote` sets its number. -/
def inserted (db : Database) (plan : VersionPlan) (now : Time) (call : PersistCall) : Document :=
  { call.rowRequest.created (db.settledGroups plan call) 1 with
    lastCheckedAt := now, createdAt := now, updatedAt := now }

theorem persistCall_eq (db : Database) (plan : VersionPlan) (now : Time) (call : PersistCall)
    (accepted : call.Accepted) :
    db.persistCall plan now call =
      match db.conflicting call.logical call.result.contentSha256 with
      | some (key, existing) =>
        let documents := db.documents.modify key (repeated call now)
        if existing.isReady then
          .ok ({ documentId := key.2, chunksWritten := 0, alreadyExisted := true,
                 version := existing.version }, { db with documents, clock := now })
        else
          let promotion := promoteCall documents call key.2 now
          .ok ({ documentId := key.2, chunksWritten := 0, alreadyExisted := true,
                 version := promotion.version, superseded := promotion.superseded },
            { db with documents := promotion.documents, clock := now })
      | none =>
        if (db.documents.find? call.key).isSome then
          .error (.databaseError "duplicate key value violates unique constraint")
        else if call.result.chunks.any fun chunk => !chunkAllowed call.tenantId chunk then
          .error (.databaseError "new row violates a constraint of chunks")
        else
          let documents := db.documents.set call.key (db.inserted plan now call)
          let chunks := db.chunks.set call.key
            (((call.result.chunks.zip call.embeddings).map (chunkRow call.model)).foldl
              insertChunk ((db.chunks.find? call.key).getD []))
          let promotion := promoteCall documents call call.result.documentId now
          .ok ({ documentId := call.result.documentId,
                 chunksWritten := call.result.chunks.length, alreadyExisted := false,
                 version := promotion.version, superseded := promotion.superseded },
            { documents := promotion.documents, chunks, clock := now }) := by
  obtain ⟨nonempty, modelEq, lengths, vectors, tenantNe, trimmed⟩ := accepted
  cases chunks : call.result.chunks with
  | nil => exact absurd chunks nonempty
  | cons first rest =>
      have tenant : call.tenantId = first.tenantId := by simp [PersistCall.tenantId, chunks]
      have filename : call.filename = first.source := by simp [PersistCall.filename, chunks]
      have logicalTenant : call.logical.tenantId = call.tenantId := rfl
      have settled : db.settledGroups plan call = call.allowedGroups.getD
          (((plan.pick (db.documents.select fun key document =>
            inTenant call.tenantId key && document.versionOf call.logical call.groups key &&
              document.isReady)).map (·.allowedGroups)).getD []) := by
        simp only [settledGroups, inheritable, ← logicalTenant,
          inTenant_and_versionOf call.logical trimmed]
      have setTenantOk : setTenant call.tenantId = .ok () := by
        simp only [setTenant, trimmed, tenantNe, if_false]
      have insertedEq : db.inserted plan now call =
          { documentId := call.result.documentId, source := call.filename,
            sourceSystem := call.effectiveSource.system.name,
            sourceId := call.effectiveSource.id, version := 1, status := .ready,
            contentType := call.contentType, contentSha256 := call.result.contentSha256,
            chunkCount := call.result.chunks.length,
            allowedGroups := db.settledGroups plan call,
            sourceVersion := call.effectiveSource.version,
            sourceModifiedAt := call.effectiveSource.modifiedAt, lastCheckedAt := now,
            createdAt := now, updatedAt := now } := rfl
      rw [insertedEq, settled]
      rw [chunks] at lengths
      simp only [persistCall, persist, chunks, ← tenant, ← filename, modelEq, lengths, vectors,
        setTenantOk, trimmed, ne_eq, not_true_eq_false, if_false, bind, Except.bind]
      cases hit : db.conflicting call.logical call.result.contentSha256 with
      | none =>
          have hit' : db.conflicting ((call.source.getD { id := call.filename }).logical
            call.tenantId) call.result.contentSha256 = none := hit
          rw [hit']
          rfl
      | some entry =>
          have hit' : db.conflicting ((call.source.getD { id := call.filename }).logical
            call.tenantId) call.result.contentSha256 = some entry := hit
          rw [hit']
          rfl

theorem persistCall_ok {db after : Database} {plan : VersionPlan} {now : Time}
    {call : PersistCall} {result : PersistResult}
    (success : db.persistCall plan now call = .ok (result, after)) : call.Accepted := by
  simp only [persistCall, persist] at success
  cases chunks : call.result.chunks with
  | nil =>
      simp only [chunks] at success
      cases success
  | cons first rest =>
      have tenant : call.tenantId = first.tenantId := by simp [PersistCall.tenantId, chunks]
      simp only [chunks, ← tenant] at success
      split at success
      · cases success
      · rename_i model
        split at success
        · cases success
        · rename_i lengths
          cases vectors : checkVectors call.embeddings with
          | error e =>
              rw [vectors] at success
              cases success
          | ok checked =>
              rw [vectors] at success
              simp only [bind, Except.bind, setTenant] at success
              split at success
              · cases success
              · rename_i set
                split at set
                · cases set
                · rename_i tenantNe
                  split at success
                  · cases success
                  · rename_i trimmed
                    have trimmed' := not_not.mp trimmed
                    refine ⟨?_, not_not.mp model, ?_, vectors, ?_, trimmed'⟩
                    · rw [chunks]
                      exact List.cons_ne_nil first rest
                    · rw [chunks]
                      exact not_not.mp lengths
                    · rw [← trimmed']
                      exact tenantNe

/-- How a `persist` can commit: the content is current already, an older row of the content becomes
current, or a new row does. -/
inductive Persisted (db : Database) (now : Time) (plan : VersionPlan) (call : PersistCall) :
    PersistResult → Database → Prop
  | current {key : DocumentKey} {stored : Document}
      (hit : db.conflicting call.logical call.result.contentSha256 = some (key, stored))
      (ready : stored.isReady = true) :
      Persisted db now plan call
        { documentId := key.2, chunksWritten := 0, alreadyExisted := true,
          version := stored.version }
        { db with documents := db.documents.modify key (repeated call now), clock := now }
  | promoted {key : DocumentKey} {stored : Document}
      (hit : db.conflicting call.logical call.result.contentSha256 = some (key, stored))
      (notReady : stored.isReady = false) {promotion : Promotion}
      (promotes : promoteCall (db.documents.modify key (repeated call now)) call key.2 now =
        promotion) :
      Persisted db now plan call
        { documentId := key.2, chunksWritten := 0, alreadyExisted := true,
          version := promotion.version, superseded := promotion.superseded }
        { db with documents := promotion.documents, clock := now }
  | inserted (hit : db.conflicting call.logical call.result.contentSha256 = none)
      (missing : db.documents.find? call.key = none) (allowed : call.RowsAllowed)
      {promotion : Promotion}
      (promotes : promoteCall (db.documents.set call.key (db.inserted plan now call)) call
        call.result.documentId now = promotion) :
      Persisted db now plan call
        { documentId := call.result.documentId, chunksWritten := call.result.chunks.length,
          alreadyExisted := false, version := promotion.version,
          superseded := promotion.superseded }
        { documents := promotion.documents
          chunks := db.chunks.set call.key
            (((call.result.chunks.zip call.embeddings).map (chunkRow call.model)).foldl
              insertChunk ((db.chunks.find? call.key).getD []))
          clock := now }

theorem persistCall_persisted {db after : Database} {plan : VersionPlan} {now : Time}
    {call : PersistCall} {result : PersistResult}
    (success : db.persistCall plan now call = .ok (result, after)) :
    db.Persisted now plan call result after := by
  rw [persistCall_eq db plan now call (persistCall_ok success)] at success
  cases hit : db.conflicting call.logical call.result.contentSha256 with
  | some entry =>
      simp only [hit] at success
      split at success
      · rename_i ready
        cases success
        exact .current hit ready
      · rename_i notReady
        cases success
        exact .promoted hit (Bool.not_eq_true _ ▸ notReady) rfl
  | none =>
      simp only [hit] at success
      split at success
      · cases success
      · rename_i fresh
        split at success
        · cases success
        · rename_i allowed
          cases success
          refine .inserted hit (Option.not_isSome_iff_eq_none.mp fresh) ?_ rfl
          simpa [PersistCall.RowsAllowed] using allowed

/-! ## The last statements of an upload -/

theorem siblings_eq {call : PersistCall} (trimmed : strip call.tenantId = call.tenantId)
    (key : DocumentKey) (document : Document) :
    (inTenant call.logical.tenantId key &&
        document.siblingOf call.logical call.groups call.result.documentId key) =
      call.rowRequest.siblingOf key document.toVersion :=
  inTenant_and_siblingOf call.logical trimmed _ _ _ _

theorem promoteCall_version {call : PersistCall} (trimmed : strip call.tenantId = call.tenantId)
    (documents : Documents) (now : Time) :
    (promoteCall documents call call.result.documentId now).version =
      call.rowRequest.number documents.versions := by
  simp only [promoteCall, promote, siblings_eq trimmed, UploadRequest.number,
    Documents.versions_select, List.map_map]
  congr 2
  apply Table.map_select_mapValues
  · intro key document
    split <;> rfl
  · intro key document
    split <;> rfl

theorem promoteCall_superseded {call : PersistCall}
    (trimmed : strip call.tenantId = call.tenantId) (documents : Documents) (now : Time) :
    (promoteCall documents call call.result.documentId now).superseded =
      call.rowRequest.supersededIds documents.versions := by
  simp only [promoteCall, promote, siblings_eq trimmed, UploadRequest.supersededIds,
    Documents.versions_select, List.map_map]
  rfl

theorem promoteCall_documents {call : PersistCall}
    (trimmed : strip call.tenantId = call.tenantId) (documents : Documents) (now : Time) :
    Documents.versions (promoteCall documents call call.result.documentId now).documents =
      (documents.versions.mapValues call.rowRequest.superseded).modify call.key fun version =>
        { version with
          status := .ready, version := call.rowRequest.number documents.versions,
          source := call.filename } := by
  have number := promoteCall_version trimmed documents now
  simp only [promoteCall, promote, siblings_eq trimmed] at number ⊢
  rw [number, Documents.versions_modify _ _ _ (fun version =>
    { version with
      status := .ready, version := call.rowRequest.number documents.versions,
      source := call.filename }) fun _ => rfl]
  congr 1
  apply Documents.versions_mapValues
  intro key document
  unfold UploadRequest.superseded UploadRequest.supersedes
  split <;> rfl

/-! ## The invariant of the database -/

def createdTimes (documents : Documents) : Table DocumentKey Time :=
  documents.column fun document => document.createdAt

/-- Rows were created in table order, none of them after `clock`. -/
structure CreatedBy (clock : Time) (times : Table DocumentKey Time) : Prop where
  order : times.entries.Pairwise fun earlier later => earlier.2 < later.2
  past : ∀ key time, (key, time) ∈ times.entries → time ≤ clock

/-- Ids are the ones `ingest_segments` gives out, the foreign key of `chunks` holds
both ways, and the table is ordered by `created_at`. -/
structure Invariant (hash : Sha256) (db : Database) : Prop where
  identified : db.documents.versions.Identified hash
  keys_eq : db.chunks.keys = db.documents.keys
  created : CreatedBy db.clock (createdTimes db.documents)

theorem Invariant.row {hash : Sha256} {db : Database} (invariant : db.Invariant hash)
    {key : DocumentKey} {document : Document} (member : (key, document) ∈ db.documents.entries) :
    document.toVersion.Identified hash key :=
  invariant.identified key document.toVersion
    (Table.mem_entries_mapValues.mpr ⟨document, member, rfl⟩)

/-- On identified rows the conflict target is the primary key. -/
theorem Invariant.conflicting_eq {hash : Sha256} {db : Database} {call : PersistCall}
    (invariant : db.Invariant hash) (identified : call.rowRequest.Identified hash) :
    db.conflicting call.logical call.result.contentSha256 =
      (db.documents.find? call.key).map fun document => (call.key, document) := by
  apply Table.find?_entries_eq
  rintro ⟨key, document⟩ member
  rw [Bool.eq_iff_iff, Bool.and_eq_true, beq_iff_eq, decide_eq_true_eq]
  exact UploadRequest.key_eq_iff identified (invariant.row member)

/-- A repeated upload, up to timestamps. -/
theorem versions_repeated (db : Database) (call : PersistCall) (now : Time) :
    Documents.versions (db.documents.modify call.key (repeated call now)) =
      db.documents.versions.modify call.key (Version.marked call.coalesce) :=
  Documents.versions_modify _ _ _ _ fun _ => rfl

theorem persistCall_refines {hash : Sha256} {db : Database} (plan : VersionPlan) (now : Time)
    {call : PersistCall} (invariant : db.Invariant hash)
    (identified : call.rowRequest.Identified hash) (accepted : call.Accepted)
    (allowed : db.documents.find? call.key = none → call.RowsAllowed) :
    ∃ after, db.persistCall plan now call =
        .ok ((db.history.upload call.rowRequest call.coalesce (db.settledGroups plan call)).1,
          after) ∧
      after.history =
        (db.history.upload call.rowRequest call.coalesce (db.settledGroups plan call)).2 := by
  have trimmed := accepted.tenant_trimmed
  have lookup := Documents.versions_find? db.documents call.key
  rw [persistCall_eq db plan now call accepted, invariant.conflicting_eq identified]
  cases found : db.documents.find? call.key with
  | none =>
      rw [found, Option.map_none] at lookup
      have noConstraint : (call.result.chunks.any fun chunk =>
          !chunkAllowed call.tenantId chunk) = false := by
        simp only [List.any_eq_false, Bool.not_eq_true', Bool.not_eq_false]
        exact allowed found
      have noChunks : db.chunks.find? call.key = none := by
        rw [Table.find?_eq_none_iff, invariant.keys_eq, ← Table.find?_eq_none_iff]
        exact found
      have freshVersions : db.documents.versions.find? call.rowRequest.key = none := lookup
      have insertedRow : Documents.versions (db.documents.set call.key
          (db.inserted plan now call)) =
          db.documents.versions.set call.rowRequest.key
            (call.rowRequest.created (db.settledGroups plan call) 1) :=
        Documents.versions_set _ _ _
      have number := call.rowRequest.number_set
        (call.rowRequest.created (db.settledGroups plan call) 1) rfl freshVersions
      have superseded := call.rowRequest.supersededIds_set
        (call.rowRequest.created (db.settledGroups plan call) 1) rfl freshVersions
      simp only [Option.map_none, noConstraint, noChunks, Option.isSome_none, Option.getD_none,
        Bool.false_eq_true, if_false, promoteCall_version trimmed,
        promoteCall_superseded trimmed, insertedRow, number, superseded]
      simp only [History.upload, history, freshVersions]
      refine ⟨_, rfl, ?_⟩
      simp only [promoteCall_documents trimmed, insertedRow, number, Table.mapValues_set]
      have kept := call.rowRequest.superseded_key
        (call.rowRequest.created (db.settledGroups plan call) 1) rfl call.rowRequest.key
      have sameKey : call.rowRequest.key = call.key := rfl
      rw [kept, sameKey, Table.modify_set_self]
      rfl
  | some existing =>
      rw [found, Option.map_some] at lookup
      have lookup' : db.documents.versions.find? call.rowRequest.key =
        some existing.toVersion := lookup
      have sameId : call.key.2 = call.result.documentId := rfl
      simp only [Option.map_some, sameId, promoteCall_version trimmed,
        promoteCall_superseded trimmed, versions_repeated, UploadRequest.number_marked,
        UploadRequest.supersededIds_marked]
      simp only [History.upload, history, lookup']
      by_cases ready : existing.isReady = true
      · simp only [ready, if_true]
        refine ⟨_, rfl, ?_⟩
        rw [versions_repeated]
        rfl
      · simp only [ready, Bool.false_eq_true, if_false]
        refine ⟨_, rfl, ?_⟩
        rw [promoteCall_documents trimmed, versions_repeated, UploadRequest.number_marked,
          Table.mapValues_modify _ _ _ _ (Version.marked call.coalesce)
            (call.rowRequest.superseded_marked call.key call.coalesce),
          Table.modify_modify]
        rfl

/-! ## The other statements -/

theorem Invariant.inTenant_eq {hash : Sha256} {db : Database} (invariant : db.Invariant hash)
    {key : DocumentKey} {document : Document} (member : (key, document) ∈ db.documents.entries)
    (tenantId : String) : inTenant tenantId key = (key.1 == tenantId) := by
  have trimmed := (invariant.row member).tenant_trimmed
  rw [Bool.eq_iff_iff, inTenant, Bool.and_eq_true, beq_iff_eq, beq_iff_eq]
  constructor
  · exact And.left
  · intro same
    rw [← same, trimmed]
    exact ⟨rfl, rfl⟩

/-- The rows of a query, by descending `created_at`, are those of the table reversed. -/
theorem Invariant.selectDocuments_eq {hash : Sha256} {db : Database}
    (invariant : db.Invariant hash) {tenantId : String} (nonblank : strip tenantId ≠ "")
    (groups : List String) (condition : DocumentKey → Document → Bool) :
    db.selectDocuments tenantId groups condition =
      .ok (db.documents.select fun key document =>
        key.1 == tenantId && document.visible groups && condition key document).reverse := by
  have sameRows : (db.documents.select fun key document =>
        inTenant tenantId key && document.visible groups && condition key document) =
      db.documents.select fun key document =>
        key.1 == tenantId && document.visible groups && condition key document := by
    rw [Table.select, Table.select]
    congr 1
    apply List.filter_congr
    rintro ⟨key, document⟩ member
    simp only [invariant.inTenant_eq member]
  rw [selectDocuments, if_neg nonblank, sameRows]
  congr 1
  apply insertionSort_eq_reverse
  have order := List.pairwise_map.mp invariant.created.order
  rw [Table.select, List.pairwise_map]
  refine (order.sublist List.filter_sublist).imp ?_
  intro earlier later increasing newer
  rcases newer with larger | ⟨same, _⟩
  · exact Nat.lt_asymm increasing larger
  · exact Nat.lt_irrefl _ (lt_of_lt_of_eq increasing same.symm)

theorem Invariant.currentVersion_refines {hash : Sha256} {db : Database}
    (invariant : db.Invariant hash) {tenantId : String} (nonblank : strip tenantId ≠ "")
    (source : SourceRef) (groups : List String) :
    (db.currentVersion tenantId source groups).map (Option.map (·.toVersion)) =
      .ok (db.history.documents.current (source.logical tenantId) groups).getLast? := by
  have sameRows : (db.documents.select fun key document =>
        key.1 == tenantId && document.visible groups &&
          (document.belongsTo (source.logical tenantId) key && document.isReady)) =
      db.documents.select fun key document =>
        document.versionOf (source.logical tenantId) groups key && document.isReady := by
    congr 1
    funext key document
    simp only [Version.versionOf, Version.belongsTo, SourceRef.logical]
    cases key.1 == tenantId <;> cases document.visible groups <;> simp
  rw [currentVersion, invariant.selectDocuments_eq nonblank, sameRows]
  simp only [Except.map, List.head?_reverse, history, Versions.current, Documents.versions_select,
    List.getLast?_map]

theorem Invariant.getDocument_eq {hash : Sha256} {db : Database}
    (invariant : db.Invariant hash) {tenantId : String} (nonblank : strip tenantId ≠ "")
    (documentId : String) (groups : List String) :
    db.getDocument tenantId documentId groups =
      .ok ((db.documents.find? (tenantId, documentId)).filter (·.visible groups)) := by
  have sameRows : (db.documents.select fun key document =>
        key.1 == tenantId && document.visible groups && (key.2 == documentId)) =
      ((db.documents.find? (tenantId, documentId)).filter (·.visible groups)).toList := by
    rw [← Table.select_key]
    congr 1
    funext key document
    rw [Bool.eq_iff_iff]
    simp only [Bool.and_eq_true, beq_iff_eq, decide_eq_true_eq, Prod.ext_iff]
    constructor
    · rintro ⟨⟨tenant, visible⟩, id⟩
      exact ⟨⟨tenant, id⟩, visible⟩
    · rintro ⟨⟨tenant, id⟩, visible⟩
      exact ⟨⟨tenant, visible⟩, id⟩
  rw [getDocument, invariant.selectDocuments_eq nonblank, sameRows]
  cases (db.documents.find? (tenantId, documentId)).filter (·.visible groups) <;> rfl

theorem markChecked_refines {db after : Database} {tenantId documentId : String} {now : Time}
    (success : db.markChecked tenantId documentId now = .ok after) :
    after.history = db.history ∧ createdTimes after.documents = createdTimes db.documents ∧
      after.clock = now := by
  simp only [markChecked, setTenant] at success
  split at success
  · cases success
  · cases success
    refine ⟨?_, ?_, rfl⟩
    · simp only [history]
      rw [Documents.versions_mapValues _ _ (fun _ version => version)]
      · simp only [Table.mapValues, List.map_id']
      · intro key document
        split <;> rfl
    · apply Documents.column_mapValues
      intro key document
      split <;> rfl

/-- Promotion leaves every column alone but the four it writes. -/
theorem column_promote {X : Type} (column : Document → X)
    (same : ∀ document status version source updatedAt,
      column { document with status, version, source, updatedAt } = column document)
    (documents : Documents) (logical : LogicalDocument) (groups : List String)
    (documentId filename : String) (now : Time) :
    (promote documents logical groups documentId filename now).documents.column column =
      documents.column column := by
  simp only [promote]
  rw [Documents.column_modify]
  · apply Documents.column_mapValues
    intro key document
    split
    · exact same document .superseded document.version document.source now
    · rfl
  · intro document
    exact same document .ready _ filename now

end Database

end ProductionRag
