import ProductionRag.Store.History

/-!
# Both stores refine the history

Forgetting timestamps and random chunk ids, every method of the in-memory store is
a step of the history, and so is every transaction of PostgreSQL once the stored
ids are the ones `ingest_segments` gives out.
-/

set_option autoImplicit false

namespace ProductionRag

open Basis

namespace Documents

theorem versions_find? (documents : Documents) (key : DocumentKey) :
    documents.versions.find? key = (documents.find? key).map (·.toVersion) :=
  Table.find?_mapValues documents _ key

/-- Looking up what a caller sees does not need the timestamps. -/
theorem versions_find?_visible (documents : Documents) (key : DocumentKey)
    (groups : List String) :
    (documents.versions.find? key).filter (·.visible groups) =
      ((documents.find? key).filter (·.visible groups)).map (·.toVersion) := by
  rw [versions_find?, Option.filter_map]
  rfl

theorem versions_select (documents : Documents) (p : DocumentKey → Version → Bool) :
    documents.versions.select p =
      (documents.select fun key document => p key document.toVersion).map (·.toVersion) :=
  Table.select_map documents _ p

theorem versions_mapValues (documents : Documents) (f : DocumentKey → Document → Document)
    (g : DocumentKey → Version → Version)
    (commute : ∀ key document, (f key document).toVersion = g key document.toVersion) :
    Documents.versions (documents.mapValues f) = documents.versions.mapValues g := by
  simp only [versions, Table.mapValues_mapValues]
  apply Table.mapValues_congr
  intro key document _
  exact commute key document

theorem versions_modify (documents : Documents) (key : DocumentKey) (f : Document → Document)
    (g : Version → Version)
    (commute : ∀ document, (f document).toVersion = g document.toVersion) :
    Documents.versions (documents.modify key f) = documents.versions.modify key g :=
  Table.mapValues_modify documents key f _ g commute

/-- A write that only moves timestamps is invisible in the versions. -/
theorem versions_modify_timestamps (documents : Documents) (key : DocumentKey)
    (f : Document → Document) (same : ∀ document, (f document).toVersion = document.toVersion) :
    Documents.versions (documents.modify key f) = documents.versions := by
  rw [versions_modify documents key f (fun version => version) same]
  exact Table.modify_eq_self _ _ _ fun _ => rfl

theorem versions_set (documents : Documents) (key : DocumentKey) (document : Document) :
    Documents.versions (documents.set key document) =
      documents.versions.set key document.toVersion :=
  Table.mapValues_set documents key document _

theorem versions_erase (documents : Documents) (key : DocumentKey) :
    Documents.versions (documents.erase key) = documents.versions.erase key :=
  Table.mapValues_erase documents key _

/-- One column of the table. -/
def column {X : Type} (documents : Documents) (f : Document → X) : Table DocumentKey X :=
  documents.mapValues fun _ document => f document

theorem find?_column {X : Type} (documents : Documents) (f : Document → X) (key : DocumentKey) :
    (documents.column f).find? key = (documents.find? key).map f :=
  Table.find?_mapValues documents _ key

theorem column_mapValues {X : Type} (documents : Documents) (f : Document → X)
    (g : DocumentKey → Document → Document)
    (same : ∀ key document, f (g key document) = f document) :
    column (documents.mapValues g) f = documents.column f := by
  simp only [column, Table.mapValues_mapValues, same]

theorem column_modify {X : Type} (documents : Documents) (f : Document → X)
    (key : DocumentKey) (g : Document → Document)
    (same : ∀ document, f (g document) = f document) :
    column (documents.modify key g) f = documents.column f := by
  apply column_mapValues
  intro other document
  split
  · exact same document
  · rfl

theorem column_set {X : Type} (documents : Documents) (f : Document → X) (key : DocumentKey)
    (document : Document) :
    column (documents.set key document) f = (documents.column f).set key (f document) :=
  Table.mapValues_set documents key document _

theorem column_erase {X : Type} (documents : Documents) (f : Document → X)
    (key : DocumentKey) : column (documents.erase key) f = (documents.column f).erase key :=
  Table.mapValues_erase documents key _

end Documents

/-! ## The in-memory store -/

def InMemoryStore.history (store : InMemoryStore) : History (List ChunkBody) :=
  ⟨store.documents.versions, store.chunks.mapValues fun _ chunks => chunks.map (·.toChunkBody)⟩

/-- The request a `persist` makes, over whatever a store keeps as content. -/
def PersistCall.requestWith {C : Type} (call : PersistCall) (content : C) : UploadRequest C where
  logical := call.logical
  documentId := call.result.documentId
  filename := call.filename
  contentType := call.contentType
  contentSha256 := call.result.contentSha256
  chunkCount := call.result.chunks.length
  groups := call.groups
  sourceVersion := call.effectiveSource.version
  sourceModifiedAt := call.effectiveSource.modifiedAt
  content

def PersistCall.request (call : PersistCall) : UploadRequest (List ChunkBody) :=
  call.requestWith (call.result.chunks.map (·.toChunkBody))

@[simp] theorem PersistCall.requestWith_key {C : Type} (call : PersistCall) (content : C) :
    (call.requestWith content).key = call.key := rfl

@[simp] theorem PersistCall.request_key (call : PersistCall) : call.request.key = call.key := rfl

namespace InMemoryStore

/-- The versions `_versions` and its callers look at, without timestamps. -/
theorem versions_current (store : InMemoryStore) (logical : LogicalDocument)
    (groups : List String) :
    ((store.versions logical groups).filter fun document => document.isReady).map
        (·.toVersion) =
      store.documents.versions.current logical groups := by
  rw [Versions.current, Documents.versions_select, versions, Table.select, Table.select,
    List.filter_map, List.filter_filter]
  congr 3
  funext entry
  simp only [Function.comp_apply, Bool.and_comm]

/-- The access list `persist` settles on: the one asked for, or the first current one's. -/
def settledGroups (store : InMemoryStore) (call : PersistCall) : List String :=
  call.allowedGroups.getD
    (((store.documents.versions.current call.logical call.groups).head?.map
      (·.allowedGroups)).getD [])

theorem persistCall_error (store : InMemoryStore) (now : Time) (call : PersistCall)
    (empty : call.result.chunks = []) :
    store.persistCall now call =
      .error (.valueError "cannot persist an ingestion result with no chunks") := by
  simp only [persistCall, persist, empty]

/-- The rows an upload supersedes, with their new `updated_at`. -/
def supersededAt (call : PersistCall) (now : Time) (key : DocumentKey) (document : Document) :
    Document :=
  if call.request.supersedes key document.toVersion then
    { document with status := .superseded, updatedAt := now }
  else document

/-- `persist` in the terms of its request: the three branches and what each stores. -/
theorem persistCall_eq (store : InMemoryStore) (now : Time) (call : PersistCall)
    (nonempty : call.result.chunks ≠ []) :
    store.persistCall now call = .ok (
      let number := call.request.number store.documents.versions
      let superseded := call.request.supersededIds store.documents.versions
      let documents := store.documents.mapValues (supersededAt call now)
      match store.documents.find? call.key with
      | some existing =>
        if existing.isReady then
          ({ documentId := call.result.documentId, chunksWritten := 0, alreadyExisted := true,
             version := existing.version },
            { store with
              documents := store.documents.modify call.key (Document.checkedAt now) })
        else
          ({ documentId := call.result.documentId, chunksWritten := 0, alreadyExisted := true,
             version := number, superseded },
            { store with
              documents := documents.modify call.key fun document =>
                { document with
                  status := .ready, version := number, source := call.filename,
                  updatedAt := now, lastCheckedAt := now } })
      | none =>
        ({ documentId := call.result.documentId, chunksWritten := call.result.chunks.length,
           alreadyExisted := false, version := number, superseded },
          { documents := documents.set call.key
              { call.request.created (store.settledGroups call) number with
                lastCheckedAt := now, createdAt := now, updatedAt := now },
            chunks := store.chunks.set call.key call.result.chunks })) := by
  cases chunks : call.result.chunks with
  | nil => exact absurd chunks nonempty
  | cons first rest =>
      have tenant : call.tenantId = first.tenantId := by simp [PersistCall.tenantId, chunks]
      have filename : call.filename = first.source := by simp [PersistCall.filename, chunks]
      have number : call.request.number store.documents.versions =
          ((store.documents.select fun key document =>
            document.siblingOf call.logical call.groups call.result.documentId key).map
              (·.version)).foldr max 0 + 1 := by
        rw [UploadRequest.number, Documents.versions_select, List.map_map]
        rfl
      have superseded : call.request.supersededIds store.documents.versions =
          ((store.documents.select fun key document =>
            document.siblingOf call.logical call.groups call.result.documentId key).filter
              fun document => document.isReady).map (·.documentId) := by
        rw [UploadRequest.supersededIds, Documents.versions_select, List.map_map, Table.select,
          Table.select, List.filter_map, List.filter_filter, List.map_map, List.map_map]
        congr 2
        funext entry
        exact Bool.and_comm _ _
      have settled : store.settledGroups call = call.allowedGroups.getD
          ((((store.versions call.logical call.groups).filter fun document =>
            document.isReady).head?.map (·.allowedGroups)).getD []) := by
        rw [settledGroups, ← versions_current, List.head?_map, Option.map_map]
        rfl
      simp only [persistCall, persist, chunks, ← tenant, ← filename]
      rw [number, superseded, settled]
      cases found : store.documents.find? call.key with
      | none =>
          have found' : store.documents.find? (call.tenantId, call.result.documentId) = none :=
            found
          rw [found', ← chunks]
          rfl
      | some existing =>
          have found' : store.documents.find? (call.tenantId, call.result.documentId) =
            some existing := found
          rw [found']
          by_cases ready : existing.isReady = true
          · simp only [ready, if_true]
            rfl
          · simp only [ready, Bool.false_eq_true, if_false]
            rfl

theorem history_supersededAt (store : InMemoryStore) (now : Time) (call : PersistCall) :
    Documents.versions (store.documents.mapValues (supersededAt call now)) =
      store.documents.versions.mapValues call.request.superseded := by
  apply Documents.versions_mapValues
  intro key document
  unfold supersededAt UploadRequest.superseded
  split <;> rfl

theorem persistCall_refines (store : InMemoryStore) (now : Time) (call : PersistCall)
    (nonempty : call.result.chunks ≠ []) :
    ∃ after, store.persistCall now call =
        .ok ((store.history.upload call.request id (store.settledGroups call)).1, after) ∧
      after.history = (store.history.upload call.request id (store.settledGroups call)).2 := by
  rw [persistCall_eq store now call nonempty]
  have lookup := Documents.versions_find? store.documents call.key
  cases found : store.documents.find? call.key with
  | none =>
      rw [found, Option.map_none] at lookup
      simp only [History.upload, history, PersistCall.request_key, lookup]
      refine ⟨_, rfl, ?_⟩
      rw [Documents.versions_set, history_supersededAt, Table.mapValues_set]
      rfl
  | some existing =>
      rw [found, Option.map_some] at lookup
      simp only [History.upload, history, PersistCall.request_key, lookup]
      by_cases ready : existing.isReady = true
      · simp only [ready, if_true]
        refine ⟨_, rfl, ?_⟩
        have unmarked : store.documents.versions.modify call.key (Version.marked id) =
            store.documents.versions := Table.modify_eq_self _ _ _ fun _ => rfl
        rw [Documents.versions_modify_timestamps _ _ _ (Document.checkedAt_toVersion now),
          unmarked]
      · simp only [ready, Bool.false_eq_true, if_false]
        refine ⟨_, rfl, ?_⟩
        rw [Documents.versions_modify _ _ _ (call.request.reinstated id
          (call.request.number store.documents.versions)) fun _ => rfl, history_supersededAt]

/-- A successful `persist` is an upload of the history. -/
theorem persistCall_uploaded {store after : InMemoryStore} {now : Time} {call : PersistCall}
    {result : PersistResult} (success : store.persistCall now call = .ok (result, after)) :
    call.result.chunks ≠ [] ∧
      result = (store.history.upload call.request id (store.settledGroups call)).1 ∧
      after.documents.versions =
        store.history.uploaded call.request id (store.settledGroups call) := by
  have nonempty : call.result.chunks ≠ [] := by
    intro empty
    rw [persistCall_error store now call empty] at success
    cases success
  obtain ⟨other, success', refined⟩ := persistCall_refines store now call nonempty
  rw [success, Except.ok.injEq, Prod.mk.injEq] at success'
  obtain ⟨sameResult, rfl⟩ := success'
  exact ⟨nonempty, sameResult, congrArg History.documents refined⟩

theorem currentVersion_refines (store : InMemoryStore) (tenantId : String) (source : SourceRef)
    (groups : List String) :
    (store.currentVersion tenantId source groups).map (·.toVersion) =
      (store.history.documents.current (source.logical tenantId) groups).head? := by
  rw [history, ← versions_current, List.head?_map, List.head?_filter]
  rfl

theorem markChecked_refines (store : InMemoryStore) (tenantId documentId : String)
    (now : Time) : (store.markChecked tenantId documentId now).history = store.history := by
  simp only [history, markChecked]
  rw [Documents.versions_modify_timestamps _ _ _ (Document.checkedAt_toVersion now)]

/-- The logical document a stored row names. -/
def logicalOf (tenantId : String) (version : Version) : LogicalDocument :=
  ⟨tenantId, version.sourceSystem, version.sourceId⟩

theorem updateDocument_refines (store : InMemoryStore) (tenantId documentId : String)
    (groups : List String) (allowedGroups : Option (List String))
    (displayName : Option String) (now : Time) :
    let out := store.updateDocument tenantId documentId groups allowedGroups displayName now
    match store.history.documents.find? (tenantId, documentId) with
    | none => out.1 = (false, none) ∧ out.2 = store
    | some found =>
      if found.visible groups then
        let patched := store.history.patch (logicalOf tenantId found) groups allowedGroups
          displayName
        out.2.history = patched ∧ out.1.1 = true ∧
          out.1.2.map (·.toVersion) =
            (patched.documents.find? (tenantId, documentId)).filter (·.visible groups)
      else out.1 = (false, none) ∧ out.2 = store := by
  have lookup := Documents.versions_find? store.documents (tenantId, documentId)
  simp only [updateDocument, history]
  cases found : store.documents.find? (tenantId, documentId) with
  | none =>
      rw [found, Option.map_none] at lookup
      simp only [lookup, and_self]
  | some existing =>
      rw [found, Option.map_some] at lookup
      simp only [lookup]
      by_cases visible : existing.visible groups = true
      · have patchedRows : Documents.versions (store.documents.mapValues fun key document =>
            if document.versionOf ⟨tenantId, existing.sourceSystem, existing.sourceId⟩ groups key
            then patched allowedGroups displayName now document else document) =
          store.documents.versions.mapValues fun key version =>
            if version.versionOf (logicalOf tenantId existing.toVersion) groups key then
              History.patched allowedGroups displayName version
            else version := by
          apply Documents.versions_mapValues
          intro key document
          by_cases sees : document.versionOf
              ⟨tenantId, existing.sourceSystem, existing.sourceId⟩ groups key = true
          · simp only [sees, if_true, logicalOf]
            rfl
          · simp only [sees, Bool.false_eq_true, if_false, logicalOf]
        simp only [visible, if_true, History.patch, ← patchedRows, Documents.versions_find?,
          Option.filter_map, true_and]
        rfl
      · simp only [visible, Bool.false_eq_true, if_false, and_self]

theorem getDocument_refines (store : InMemoryStore) (tenantId documentId : String)
    (groups : List String) :
    (store.getDocument tenantId documentId groups).map (·.toVersion) =
      (store.history.documents.find? (tenantId, documentId)).filter (·.visible groups) := by
  rw [getDocument, history, Documents.versions_find?_visible]

end InMemoryStore

end ProductionRag
