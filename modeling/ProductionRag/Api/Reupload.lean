import ProductionRag.Api.Ingest
import ProductionRag.Store.ReadYourWrite

/-!
# The same upload twice

A queue that delivers at least once may run a job again.  Over the in-memory store the
second run finds what the first one left: it refreshes the version it reads back, or
`persist` finds the row of the first run ready.  Either way only freshness moves.
-/

set_option autoImplicit false

namespace ProductionRag

open Basis

/-- A job as `_document_job` lets it through. -/
structure JobPayload.Validated (job : JobPayload) : Prop where
  filename_ne : job.filename ≠ ""
  filename_trimmed : strip job.filename = job.filename
  sourceId_ne : job.sourceId ≠ ""
  sourceId_trimmed : strip job.sourceId = job.sourceId
  sourceId_short : job.sourceId.length ≤ 512
  sourceVersion_short : ∀ version ∈ job.sourceVersion, version.length ≤ 256
  content : job.contentBase64.isSome = true

/-! ## Up to freshness -/

/-- What `last_checked_at` and `updated_at` leave of a row. -/
def Document.lasting (document : Document) : Version × Time :=
  (document.toVersion, document.createdAt)

namespace InMemoryStore

/-- The same rows and chunks, up to `last_checked_at` and `updated_at`. -/
structure SameButFreshness (left right : InMemoryStore) : Prop where
  documents : left.documents.column Document.lasting = right.documents.column Document.lasting
  chunks : left.chunks = right.chunks

theorem SameButFreshness.refl (store : InMemoryStore) : store.SameButFreshness store :=
  ⟨rfl, rfl⟩

theorem markChecked_same (store : InMemoryStore) (tenantId documentId : String) (now : Time) :
    (store.markChecked tenantId documentId now).SameButFreshness store where
  documents := Documents.column_modify _ _ _ _ fun _ => rfl
  chunks := rfl

/-! ## What a job does to the store -/

/-- The store methods as one machine; each call comes with the clock reading it takes. -/
def timedCalls : Mealy InMemoryStore (StoreCall × Time) (Except PyError StoreReply) where
  step store event := store.step event.2 event.1

/-- A job that runs alone. -/
def ingest (store : InMemoryStore) (services : Services) (uuid4 : Nat → String)
    (createdAt : Time) (turns : Nat → Time) (job : JobPayload) :
    Except PyError JobResult × InMemoryStore :=
  (ingestDocument services uuid4 createdAt job).run timedCalls turns store

/-- The writes of `_unchanged`. -/
def refreshed (store : InMemoryStore) (job : JobPayload) (row : Document) (turns : Nat → Time) :
    InMemoryStore :=
  let checked := store.markChecked job.tenantId row.documentId (turns 0)
  if job.filename ≠ row.source then
    (checked.updateDocument job.tenantId row.documentId job.groups none (some job.filename)
      (turns 1)).2
  else checked

/-- The version that decides whether there is anything to do. -/
def upToDate (store : InMemoryStore) (hash : Sha256) (job : JobPayload) (data : List UInt8) :
    Option Document :=
  (store.currentVersion job.tenantId job.source job.groups).filter fun row =>
    isUnchanged hash job.source data row.toVersion

theorem run_unchanged (store : InMemoryStore) (job : JobPayload) (row : Document)
    (turns : Nat → Time) :
    (unchanged job row).run timedCalls turns store =
      (.ok (unchangedResult row), store.refreshed job row turns) := by
  by_cases renamed : job.filename ≠ row.source
  · simp only [unchanged, storeCall, Program.run, timedCalls, step, StoreReply.checked?,
      StoreReply.updated?, refreshed, if_pos renamed]
  · simp only [unchanged, storeCall, Program.run, timedCalls, step, StoreReply.checked?, refreshed,
      if_neg renamed]

theorem ingest_eq (store : InMemoryStore) (services : Services) (uuid4 : Nat → String)
    (createdAt : Time) (turns : Nat → Time) {job : JobPayload} {data : List UInt8}
    (content : job.contentBase64 = some data) :
    store.ingest services uuid4 createdAt turns job =
      match store.upToDate services.hash job data with
      | some row => (.ok (unchangedResult row), store.refreshed job row fun n => turns (n + 1))
      | none =>
        match prepare services uuid4 createdAt job data with
        | .error e => (.error e, store)
        | .ok call =>
          match store.persistCall (turns 1) call with
          | .error e => (.error e, store)
          | .ok (stored, after) => (.ok (storedResult job call stored), after) := by
  simp only [ingest, ingestDocument, content, storeCall, Program.run, timedCalls, step,
    StoreReply.current?, ingestAfterRead, upToDate]
  cases upToDate : (store.currentVersion job.tenantId job.source job.groups).filter fun row =>
      isUnchanged services.hash job.source data row.toVersion with
  | some row => exact run_unchanged store job row _
  | none =>
      cases prepared : prepare services uuid4 createdAt job data with
      | error e => rfl
      | ok call =>
          simp only [Program.run]
          cases persisted : store.persistCall (turns 1) call with
          | error e => rfl
          | ok out => rfl

end InMemoryStore

/-! ## The prepared call -/

/-- What a prepared call takes from the job, whatever ids its chunks are given. -/
structure JobPayload.Prepares (job : JobPayload) (hash : Sha256) (data : List UInt8)
    (call : PersistCall) : Prop where
  identified : call.Identified hash
  nonempty : call.result.chunks ≠ []
  tenant : call.tenantId = strip job.tenantId
  filename : call.filename = strip job.filename
  source : call.effectiveSource = job.source
  groups : call.groups = job.groups
  documentId : call.result.documentId = job.source.documentId hash (hash.hexdigest data)
  digest : call.result.contentSha256 = hash.hexdigest data

theorem prepare_prepares {services : Services} {uuid4 : Nat → String} {createdAt : Time}
    {job : JobPayload} {data : List UInt8} {call : PersistCall}
    (success : prepare services uuid4 createdAt job data = .ok call) :
    job.Prepares services.hash data call := by
  obtain ⟨parsed, _, ingested⟩ := Except.bind_ok_iff.mp success
  obtain ⟨result, segmented, built⟩ := Except.bind_ok_iff.mp ingested
  have fromBytes := ingestSegments_ingestedFrom segmented
  split at built
  · cases built
  · rename_i some
    have nonempty : result.chunks ≠ [] := by simpa using some
    obtain rfl := Except.ok.inj built
    simp only [ingestSegments] at segmented
    split at segmented
    · cases segmented
    · rename_i filename named
      split at segmented
      · cases segmented
      · rename_i tenantId owned
        have head : ∀ chunk ∈ result.chunks, chunk.tenantId = tenantId ∧
            chunk.source = filename := by
          obtain rfl := Except.ok.inj segmented
          intro chunk member
          obtain ⟨entry, _, rfl⟩ := List.mem_map.mp member
          exact ⟨rfl, rfl⟩
        obtain ⟨first, rest, chunks⟩ := List.exists_cons_of_ne_nil nonempty
        have ofFirst := head first (by rw [chunks]; exact List.mem_cons_self)
        refine ⟨⟨data, fromBytes⟩, nonempty, ?_, ?_, rfl, rfl, ?_, fromBytes.contentSha256_eq⟩
        · simp only [PersistCall.tenantId, chunks, List.head?_cons, Option.map_some,
            Option.getD_some, ofFirst.1, (normalizeIdentifier_ok owned).1]
        · simp only [PersistCall.filename, chunks, List.head?_cons, Option.map_some,
            Option.getD_some, ofFirst.2, (normalizeIdentifier_ok named).1]
        · rw [fromBytes.documentId_eq, documentIdOf_identity]

/-- Ids and clock readings do not decide whether a job can be prepared. -/
theorem prepare_again (services : Services) (uuid4 uuid4' : Nat → String)
    (createdAt createdAt' : Time) (job : JobPayload) (data : List UInt8) :
    (prepare services uuid4 createdAt job data).map (fun _ => ()) =
      (prepare services uuid4' createdAt' job data).map fun _ => () := by
  simp only [prepare]
  cases parsed : services.parse data job.filename job.contentType with
  | error e => rfl
  | ok document =>
      simp only [bind, Except.bind, ingestSegments]
      cases normalizeIdentifier job.filename "filename" with
      | error e => rfl
      | ok filename =>
          cases normalizeIdentifier job.tenantId "tenant_id" with
          | error e => rfl
          | ok tenantId =>
              simp only [List.isEmpty_iff, List.map_eq_nil_iff, List.zipIdx_eq_nil_iff]
              split <;> rfl

/-! ## Refreshing -/

/-- A current version is stored under its own id. -/
theorem Versions.Identified.current_stored {hash : Sha256} {versions : Versions}
    (identified : versions.Identified hash) {tenantId : String} {source : SourceRef}
    {groups : List String} {row : Version}
    (current : row ∈ versions.current (source.logical tenantId) groups) :
    versions.find? (tenantId, row.documentId) = some row ∧
      row.versionOf (source.logical tenantId) groups (tenantId, row.documentId) = true ∧
      row.status = .ready := by
  obtain ⟨key, stored, sees, ready⟩ := Versions.mem_current.mp current
  have sameKey : key = (tenantId, row.documentId) :=
    Prod.ext (Version.belongsTo_iff.mp (Version.versionOf_iff.mp sees).1).1
      (identified key row stored).documentId_eq.symm
  subst sameKey
  exact ⟨Table.find?_eq_some_iff.mpr stored, sees, ready⟩

namespace InMemoryStore

variable {hash : Sha256} {store : InMemoryStore}

theorem currentVersion_stored (identified : store.documents.versions.Identified hash)
    {tenantId : String} {source : SourceRef} {groups : List String} {row : Document}
    (current : store.currentVersion tenantId source groups = some row) :
    store.documents.versions.find? (tenantId, row.documentId) = some row.toVersion ∧
      row.versionOf (source.logical tenantId) groups (tenantId, row.documentId) = true ∧
      row.status = .ready := by
  have first := store.currentVersion_refines tenantId source groups
  rw [current, Option.map_some] at first
  exact identified.current_stored (List.mem_of_mem_head? first.symm)

/-- A rename rewrites the current versions and keeps them current. -/
theorem patch_current {C : Type} (history : History C) (logical : LogicalDocument)
    (groups : List String) (displayName : Option String) :
    (history.patch logical groups none displayName).documents.current logical groups =
      (history.documents.current logical groups).map (History.patched none displayName) := by
  simp only [History.patch, Versions.current]
  rw [Table.select_mapValues, Table.select, List.map_map]
  have selected : ∀ entry : DocumentKey × Version,
      ((if entry.2.versionOf logical groups entry.1 then History.patched none displayName entry.2
        else entry.2).versionOf logical groups entry.1 &&
        (if entry.2.versionOf logical groups entry.1 then
          History.patched none displayName entry.2 else entry.2).isReady) =
      (entry.2.versionOf logical groups entry.1 && entry.2.isReady) := by
    intro entry
    split <;> rfl
  simp only [selected]
  apply List.map_congr_left
  intro entry member
  have sees := (List.mem_filter.mp member).2
  rw [Bool.and_eq_true] at sees
  simp only [if_pos sees.1, Function.comp_apply]

/-- Refreshing leaves the current version current, under the name of the job. -/
theorem refreshed_current (identified : store.documents.versions.Identified hash)
    {job : JobPayload} {row : Document}
    (current : store.currentVersion job.tenantId job.source job.groups = some row)
    (turns : Nat → Time) :
    ∃ after, (store.refreshed job row turns).currentVersion job.tenantId job.source job.groups =
        some after ∧
      after.toVersion = { row.toVersion with source := job.filename } := by
  obtain ⟨found, sees, _⟩ := currentVersion_stored identified current
  have checked := store.markChecked_refines job.tenantId row.documentId (turns 0)
  have first := store.currentVersion_refines job.tenantId job.source job.groups
  rw [current, Option.map_some] at first
  rw [← Option.map_eq_some_iff, currentVersion_refines, refreshed]
  by_cases renamed : job.filename ≠ row.source
  · rw [if_pos renamed]
    have refined := updateDocument_refines (store.markChecked job.tenantId row.documentId (turns 0))
      job.tenantId row.documentId job.groups none (some job.filename) (turns 1)
    have visible := (Version.versionOf_iff.mp sees).2
    obtain ⟨_, system, id⟩ := Version.belongsTo_iff.mp (Version.versionOf_iff.mp sees).1
    have logical : logicalOf job.tenantId row.toVersion = job.source.logical job.tenantId := by
      rw [logicalOf, system, id]
      rfl
    have foundRow : store.history.documents.find? (job.tenantId, row.documentId) =
      some row.toVersion := found
    simp only [checked, foundRow, visible, if_true] at refined
    rw [refined.1, logical, patch_current, List.head?_map, ← first]
    rfl
  · rw [if_neg renamed, checked, ← first]
    have named : row.source = job.filename := by simpa using Eq.symm (not_not.mp renamed)
    rw [← named]

/-- Once the name is the job's, refreshing moves `last_checked_at` only. -/
theorem refreshed_same (store : InMemoryStore) {job : JobPayload} {row : Document}
    (named : row.source = job.filename) (turns : Nat → Time) :
    (store.refreshed job row turns).SameButFreshness store := by
  rw [refreshed, if_neg (not_not.mpr named.symm)]
  exact store.markChecked_same _ _ _

/-! ## Storing -/

theorem upToDate_refines (store : InMemoryStore) (hash : Sha256) (job : JobPayload)
    (data : List UInt8) :
    (store.upToDate hash job data).map (·.toVersion) =
      ((store.documents.versions.current (job.source.logical job.tenantId) job.groups).head?).filter
        (isUnchanged hash job.source data) := by
  have first := store.currentVersion_refines job.tenantId job.source job.groups
  rw [history] at first
  rw [← first, Option.filter_map, upToDate]
  rfl

/-- A row that was not ready is stored under the uploaded name. -/
theorem ownRow_source {C : Type} {request : UploadRequest C} {versions : Versions}
    {marker : Option String → Option String} {allowedGroups : List String}
    (notReady : request.alreadyReady versions = false) :
    (request.ownRow marker allowedGroups versions).source = request.filename := by
  unfold UploadRequest.ownRow
  cases found : versions.find? request.key with
  | none => rfl
  | some existing =>
      have isReady : existing.isReady = false := by
        simpa [UploadRequest.alreadyReady, found] using notReady
      simp only [isReady, Bool.false_eq_true, if_false]
      rfl

/-- What `persist` finds ready it only refreshes. -/
theorem persistCall_ready {call : PersistCall} (nonempty : call.result.chunks ≠ [])
    {row : Document} (found : store.documents.find? call.key = some row)
    (ready : row.status = .ready) (now : Time) :
    ∃ after, store.persistCall now call = .ok
        ({ documentId := call.result.documentId, chunksWritten := 0, alreadyExisted := true,
           version := row.version }, after) ∧
      after.SameButFreshness store := by
  refine ⟨{ store with documents := store.documents.modify call.key (Document.checkedAt now) },
    ?_, Documents.column_modify _ _ _ _ fun _ => rfl, rfl⟩
  have isReady : row.isReady = true := (Version.isReady_iff _).mpr ready
  simp only [persistCall_eq store now call nonempty, found, isReady, if_true]

section Stored

variable {job : JobPayload} {data : List UInt8} {call : PersistCall} {now : Time}
  {stored : PersistResult} {after : InMemoryStore}

/-- The row of a stored upload, by its own key. -/
theorem persistCall_row (identified : store.documents.versions.Identified hash)
    (prepares : job.Prepares hash data call)
    (success : store.persistCall now call = .ok (stored, after)) :
    stored.documentId = call.result.documentId ∧
      ∃ row, after.documents.find? call.key = some row ∧ row.status = .ready ∧
        row.version = stored.version ∧
        row.toVersion =
          call.request.ownRow id (store.settledGroups call) store.documents.versions := by
  obtain ⟨_, success', refined⟩ := persistCall_refines store now call prepares.nonempty
  rw [success, Except.ok.injEq, Prod.mk.injEq] at success'
  obtain ⟨rfl, rfl⟩ := success'
  have answer := History.upload_answer store.history call.request id (store.settledGroups call)
  have own := store.history.uploaded_self call.request id (store.settledGroups call)
    identified.ownId
  rw [History.uploaded, ← refined, history, Documents.versions_find?, Option.map_eq_some_iff]
    at own
  obtain ⟨row, found, same⟩ := own
  refine ⟨answer.1, row, found, ?_, ?_, same⟩
  · rw [same]
    exact UploadRequest.ownRow_ready ..
  · rw [same, answer.2]

/-- A version that is read back after a job stored something is the stored one. -/
theorem persistCall_upToDate
    (reached : Reachable (PersistCall.Identified hash) store)
    (outdated : store.upToDate hash job data = none) (prepares : job.Prepares hash data call)
    (success : store.persistCall now call = .ok (stored, after)) {row : Document}
    (read : after.upToDate hash job data = some row) :
    row.documentId = stored.documentId ∧ row.version = stored.version ∧
      row.source = strip job.filename := by
  have identified := reached.identified
  obtain ⟨_, success', refined⟩ := persistCall_refines store now call prepares.nonempty
  rw [success, Except.ok.injEq, Prod.mk.injEq] at success'
  obtain ⟨answered, rfl⟩ := success'
  have versions : after.documents.versions =
      store.history.uploaded call.request id (store.settledGroups call) :=
    congrArg History.documents refined
  have identified' : after.documents.versions.Identified hash := by
    have stepped := reached.step now (.persist call) prepares.identified
    simp only [InMemoryStore.step, success] at stepped
    exact stepped.identified
  have readVersion := after.upToDate_refines hash job data
  rw [read, Option.map_some] at readVersion
  obtain ⟨first, _⟩ := Option.filter_eq_some_iff.mp readVersion.symm
  cases ready : call.request.alreadyReady store.documents.versions with
  | true =>
      -- Nothing but freshness moved, so the job would have found this version before.
      obtain ⟨existing, found, isReady⟩ := (Option.any_eq_true _ _).mp ready
      have unmoved : after.documents.versions = store.documents.versions := by
        rw [versions, History.uploaded, History.upload]
        simp only [history, found, isReady, if_true]
        exact Table.modify_eq_self _ _ _ fun _ => rfl
      have before := store.upToDate_refines hash job data
      rw [unmoved, ← before, outdated] at readVersion
      cases readVersion
  | false =>
      -- The stored version is the only one left, and the job's tenant is spelled like its key.
      obtain ⟨key, member, sees, isReady⟩ := Versions.mem_current.mp (List.mem_of_mem_head? first)
      obtain ⟨tenant, _⟩ := Version.belongsTo_iff.mp (Version.versionOf_iff.mp sees).1
      have trimmed : strip job.tenantId = job.tenantId := by
        have own := (identified' key row.toVersion member).tenant_trimmed
        rwa [tenant] at own
      have logical : call.logical = job.source.logical job.tenantId := by
        rw [PersistCall.logical, prepares.source, prepares.tenant, trimmed]
      have only : after.documents.versions.OnlyReady call.logical call.groups call.key := by
        rw [versions]
        exact (uploaded_onlyReady_iff identified).mpr fun isReady =>
          Bool.noConfusion (ready.symm.trans isReady)
      rw [logical, prepares.groups] at only
      obtain rfl := only key row.toVersion member sees isReady
      obtain ⟨documentId, own, found, _, version, same⟩ :=
        persistCall_row identified prepares success
      have sameRow : row.toVersion = own.toVersion := by
        have lookup := Table.find?_eq_some_iff.mpr member
        rw [Documents.versions_find?, found] at lookup
        exact (Option.some.inj lookup).symm
      refine ⟨?_, (congrArg Version.version sameRow).trans version, ?_⟩
      · rw [documentId]
        exact (identified' call.key row.toVersion member).documentId_eq
      · rw [← prepares.filename]
        exact (congrArg Version.source (sameRow.trans same)).trans (ownRow_source ready)

end Stored

end InMemoryStore

/-! ## Twice -/

/-- The second run raises exactly when the first did; otherwise it names the same version,
writes no chunk and supersedes nothing. -/
def Repeats : Except PyError JobResult → Except PyError JobResult → Prop
  | .ok first, .ok second =>
    second.documentId = first.documentId ∧ second.version = first.version ∧
      second.chunksCreated = 0 ∧ second.superseded = []
  | .error first, .error second => first = second
  | _, _ => False

theorem reupload_idempotent (services : Services) (store : InMemoryStore) (job : JobPayload)
    (uuid4 uuid4' : Nat → String) (createdAt createdAt' : Time) (turns turns' : Nat → Time)
    (reached : InMemoryStore.Reachable (PersistCall.Identified services.hash) store)
    (validated : job.Validated) :
    let first := store.ingest services uuid4 createdAt turns job
    let second := first.2.ingest services uuid4' createdAt' turns' job
    second.2.SameButFreshness first.2 ∧ Repeats first.1 second.1 := by
  obtain ⟨data, content⟩ := Option.isSome_iff_exists.mp validated.content
  simp only [InMemoryStore.ingest_eq _ _ _ _ _ content]
  have prepared := prepare_again services uuid4 uuid4' createdAt createdAt' job data
  cases upToDate : store.upToDate services.hash job data with
  | some row =>
      -- The first run refreshes the current version, and so does the second.
      obtain ⟨current, isSame⟩ := Option.filter_eq_some_iff.mp upToDate
      obtain ⟨after, again, named⟩ :=
        InMemoryStore.refreshed_current reached.identified current fun n => turns (n + 1)
      have stillSame : isUnchanged services.hash job.source data after.toVersion = true := by
        rw [named]
        exact isSame
      have second : (store.refreshed job row fun n => turns (n + 1)).upToDate services.hash job
          data = some after :=
        Option.filter_eq_some_iff.mpr ⟨again, stillSame⟩
      simp only [second]
      refine ⟨InMemoryStore.refreshed_same _ (congrArg Version.source named) _, ?_, ?_, rfl, rfl⟩
      · exact (congrArg Version.documentId named :)
      · exact (congrArg Version.version named :)
  | none =>
      cases first : prepare services uuid4 createdAt job data with
      | error e =>
          rw [first] at prepared
          cases second : prepare services uuid4' createdAt' job data with
          | ok call => rw [second] at prepared; cases prepared
          | error e' =>
              rw [second] at prepared
              simp only [upToDate]
              exact ⟨.refl store, Except.error.inj prepared⟩
      | ok call =>
          rw [first] at prepared
          have prepares := prepare_prepares first
          obtain ⟨after, success, _⟩ :=
            InMemoryStore.persistCall_refines store (turns 1) call prepares.nonempty
          obtain ⟨stored, persisted⟩ : ∃ stored, store.persistCall (turns 1) call =
            .ok (stored, after) := ⟨_, success⟩
          simp only [persisted]
          cases read : after.upToDate services.hash job data with
          | some row =>
              obtain ⟨documentId, version, named⟩ :=
                InMemoryStore.persistCall_upToDate reached upToDate prepares persisted read
              rw [validated.filename_trimmed] at named
              dsimp only
              exact ⟨InMemoryStore.refreshed_same _ named _, documentId, version, rfl, rfl⟩
          | none =>
              cases second : prepare services uuid4' createdAt' job data with
              | error e => rw [second] at prepared; cases prepared
              | ok call' =>
                  have prepares' := prepare_prepares second
                  have sameKey : call'.key = call.key := by
                    rw [PersistCall.key, PersistCall.key, prepares.tenant, prepares'.tenant,
                      prepares.documentId, prepares'.documentId]
                  obtain ⟨documentId, row, found, ready, version, _⟩ :=
                    InMemoryStore.persistCall_row reached.identified prepares persisted
                  rw [← sameKey] at found
                  obtain ⟨last, again, same⟩ :=
                    InMemoryStore.persistCall_ready prepares'.nonempty found ready (turns' 1)
                  simp only [again]
                  refine ⟨same, ?_, version, rfl, rfl⟩
                  exact (prepares'.documentId.trans prepares.documentId.symm).trans documentId.symm

/-- Every upload is read as one line of text. -/
def oneLine : Services where
  hash := .spelling
  parse _ _ _ := .ok { contentType := "text/plain", segments := [(none, "text")] }
  split text := [text]
  embed texts := texts.map fun _ => []

def newNotes : JobPayload where
  tenantId := "t"
  filename := "new notes.txt"
  contentBase64 := some [2]
  allowedGroups := none
  sourceId := "n"
  groups := []

/-- A new version of the notes, sent twice. -/
theorem newNotes_twice :
    let store := InMemoryStore.empty.afterUploads [notesUpload [1] [] none]
    let first := store.ingest oneLine (fun _ => "a") 0 (fun _ => 0) newNotes
    let second := first.2.ingest oneLine (fun _ => "b") 1 (fun _ => 1) newNotes
    second.2.SameButFreshness first.2 ∧ Repeats first.1 second.1 := by
  have validated : newNotes.Validated :=
    ⟨by decide, by decide, by decide, by decide, by decide, by simp [newNotes], rfl⟩
  refine reupload_idempotent oneLine _ newNotes _ _ _ _ _ _ ?_ validated
  exact InMemoryStore.Reachable.empty.afterUploads (List.forall_mem_cons.mpr
    ⟨notesUpload_identified .., fun _ none => nomatch none⟩)

end ProductionRag
