import ProductionRag.Api.Responses

/-!
# Where a stored document comes from

Every document that the server holds comes from an upload of the run: a request brought the
bytes, and the request itself or a round of the worker stored the chunks that the document still
has.  Nobody has deleted it since.
-/

set_option autoImplicit false

namespace ProductionRag

open Basis

/-! ## The store -/

/-- A row that the store had, or that one of these calls stored. -/
inductive InMemoryStore.RowFrom (store : InMemoryStore) (persists : PersistCall → Prop)
    (key : DocumentKey) (row : Version) (chunks : Option (List Chunk)) : Prop where
  | old (before : Document) (found : store.documents.find? key = some before)
      (content : before.SameContent row) (kept : chunks = store.chunks.find? key)
  | stored (call : PersistCall) (persisted : persists call) (isKey : key = call.key)
      (content : (call.request.created [] 1).SameContent row)
      (isChunks : chunks = some call.result.chunks)

theorem Version.SameContent.trans {first second third : Version}
    (before : first.SameContent second) (after : second.SameContent third) :
    first.SameContent third :=
  ⟨after.1.trans before.1, after.2.trans before.2, after.3.trans before.3, after.4.trans before.4⟩

namespace InMemoryStore

/-- Each row of the other store is one that the first had, or one of these calls stored. -/
def RowsFrom (store : InMemoryStore) (persists : PersistCall → Prop) (after : InMemoryStore) :
    Prop :=
  ∀ key row, after.documents.find? key = some row →
    store.RowFrom persists key row.toVersion (after.chunks.find? key)

theorem RowsFrom.refl (store : InMemoryStore) (persists : PersistCall → Prop) :
    store.RowsFrom persists store :=
  fun _ row found => .old row found (.refl row.toVersion) rfl

theorem RowsFrom.step {store middle : InMemoryStore} {persists : PersistCall → Prop}
    (from' : store.RowsFrom persists middle) {now : Time} {call : StoreCall}
    (allowed : ∀ upload, call = .persist upload → persists upload) :
    store.RowsFrom persists (middle.step now call).2 := by
  intro key row found
  cases step_row found with
  | old before was touched kept =>
      rw [kept]
      cases from' key before was with
      | old first found content same => exact .old first found (content.trans touched.content) same
      | stored upload persisted isKey content isChunks =>
          exact .stored upload persisted isKey (content.trans touched.content) isChunks
  | created upload number isUpload _ isKey _ _ isRow stored =>
      refine .stored upload (allowed upload isUpload) isKey ?_ stored
      rw [isRow]
      exact ⟨rfl, rfl, rfl, rfl⟩

end InMemoryStore

/-! ## The server -/

/-- The upload of the job stores the row with these chunks under the key. -/
structure DocumentJob.Stores (surroundings : Surroundings) (job : DocumentJob)
    (key : DocumentKey) (row : Version) (chunks : List Chunk) : Prop where
  tenant : key.1 = strip job.payload.tenantId
  documentId : row.documentId = key.2
  sourceSystem : row.sourceSystem = job.payload.sourceSystem.name
  sourceId : row.sourceId = job.payload.source.id
  prepared : ∃ sourceModifiedAt data call,
    surroundings.modifiedAt job.modified = .ok sourceModifiedAt ∧
      job.payload.contentBase64 = some data ∧
      prepare surroundings.services surroundings.uuid4 (surroundings.now 0)
        { job.payload with sourceModifiedAt } data = .ok call ∧
      row.contentSha256 = surroundings.services.hash.hexdigest data ∧ chunks = call.result.chunks

/-- What the event uploads: the job of the request, or the one that waits first. -/
def ServerEvent.upload (application : Application) :
    ServerEvent → Option (Surroundings × DocumentJob)
  | .request surroundings .createDocument asked =>
    (documentJob surroundings asked).toOption.map fun upload => (surroundings, upload)
  | .job surroundings _ _ =>
    application.worker.queue.head?.map fun entry => (surroundings, entry.2)
  | _ => none

/-- The event stores the row with these chunks under the key. -/
def ServerEvent.Stores (application : Application) (event : ServerEvent) (key : DocumentKey)
    (row : Version) (chunks : Option (List Chunk)) : Prop :=
  ∃ surroundings job stored, event.upload application = some (surroundings, job) ∧
    chunks = some stored ∧ job.Stores surroundings key row stored

/-- A request that deletes the document: it is answered with 200. -/
def ServerEvent.Deletes (application : Application) (key : DocumentKey) : ServerEvent → Prop
  | .request _ .deleteDocument asked =>
    asked.tenant = .ok key.1 ∧
      (application.deleteDocument asked).1 = .ok (200, .deleted key.2)
  | _ => False

/-- One of the events is a request that brought the job. -/
def DocumentJob.BroughtBy (events : List ServerEvent) (job : DocumentJob) : Prop :=
  ∃ surroundings request, documentJob surroundings request = .ok job ∧
    (ServerEvent.request surroundings .createDocument request ∈ events ∨
      ServerEvent.request surroundings .submitJob request ∈ events)

namespace Application

variable {surroundings : Surroundings} {application after : Application} {request : Request}

/-- The rows after an event: the rows before it, but for the deleted one, and the uploaded one. -/
def RowsSince (application : Application) (event : ServerEvent) (after : Application) : Prop :=
  ∀ key row, after.memory.documents.find? key = some row →
    event.Stores application key row.toVersion (after.memory.chunks.find? key) ∨
      ((∃ before : Document, application.memory.documents.find? key = some before ∧
          before.SameContent row.toVersion ∧
          after.memory.chunks.find? key = application.memory.chunks.find? key) ∧
        ¬ event.Deletes application key)

theorem RowsSince.same {event : ServerEvent} (memory : after.memory = application.memory)
    (keeps : ∀ key, ¬ event.Deletes application key) : application.RowsSince event after := by
  intro key row found
  rw [memory] at found ⊢
  exact Or.inr ⟨⟨row, found, .refl row.toVersion, rfl⟩, keeps key⟩

/-- What the upload of a job stores. -/
theorem ingestJob_rows (surroundings : Surroundings) (application : Application)
    (job : DocumentJob) (key : DocumentKey) (row : Document)
    (found : (ingestJob surroundings application job).2.memory.documents.find? key = some row) :
    (∃ stored, (ingestJob surroundings application job).2.memory.chunks.find? key = some stored ∧
        job.Stores surroundings key row.toVersion stored) ∨
      ∃ before : Document, application.memory.documents.find? key = some before ∧
        before.SameContent row.toVersion ∧
        (ingestJob surroundings application job).2.memory.chunks.find? key =
          application.memory.chunks.find? key := by
  unfold ingestJob at found ⊢
  cases isRead : surroundings.modifiedAt job.modified with
  | error e =>
      simp only [isRead] at found ⊢
      exact Or.inr ⟨row, found, .refl row.toVersion, trivial⟩
  | ok sourceModifiedAt =>
      simp only [isRead] at found ⊢
      let payload : JobPayload := { job.payload with sourceModifiedAt }
      let persists : PersistCall → Prop := fun call =>
        ∃ data, payload.contentBase64 = some data ∧
          prepare surroundings.services surroundings.uuid4 (surroundings.now 0) payload data =
            .ok call
      have sends : (ingestDocument surroundings.services surroundings.uuid4 (surroundings.now 0)
          payload).Sends fun call => ∀ upload, call = .persist upload → persists upload := by
        refine ingestDocument_meets (fun _ wrong => by cases wrong)
          (fun _ _ wrong => by cases wrong) (fun _ _ wrong => by cases wrong) fun data call content prepared upload isUpload => ?_
        obtain rfl := StoreCall.persist.inj isUpload
        exact ⟨data, content, prepared⟩
      have rows := @Program.Sends.run_preserves _ _ _ _ _ InMemoryStore.timedCalls _ _
        (application.memory.RowsFrom persists) sends
        (fun store call now allowed from' => from'.step allowed)
        (fun n => surroundings.now (n + 1)) application.memory (.refl _ _)
      cases rows key row found with
      | old before was content kept => exact Or.inr ⟨before, was, content, kept⟩
      | stored call persisted isKey content isChunks =>
          obtain ⟨data, isData, prepared⟩ := persisted
          have prepares := prepare_prepares prepared
          refine Or.inl ⟨_, isChunks, ?_⟩
          exact
            { tenant := by rw [isKey, ← prepares.tenant]; rfl
              documentId := by rw [content.documentId_eq, isKey]; rfl
              sourceSystem := by
                rw [content.sourceSystem_eq]
                exact congrArg (·.system.name) prepares.source
              sourceId := by
                rw [content.sourceId_eq]
                exact congrArg (·.id) prepares.source
              prepared := ⟨sourceModifiedAt, data, call, isRead, isData, prepared,
                content.contentSha256_eq.trans prepares.digest, rfl⟩ }

theorem RowsSince.uploaded {event : ServerEvent} {job : DocumentJob}
    (isUpload : event.upload application = some (surroundings, job))
    (keeps : ∀ key, ¬ event.Deletes application key) {ran : Application}
    (before : ran.memory = application.memory)
    (memory : after.memory = (ingestJob surroundings ran job).2.memory) :
    application.RowsSince event after := by
  intro key row found
  rw [memory] at found ⊢
  rw [← before]
  rcases ingestJob_rows surroundings ran job key row found with
    ⟨stored, isStored, stores⟩ | old
  · exact Or.inl ⟨surroundings, job, stored, isUpload, isStored, stores⟩
  · exact Or.inr ⟨old, keeps key⟩

theorem RowsSince.created (surroundings : Surroundings) (application : Application)
    (request : Request) :
    application.RowsSince (.request surroundings .createDocument request)
      (createDocument surroundings application request).2 := by
  unfold createDocument
  cases read : documentJob surroundings request with
  | error e => exact .same rfl fun key => id
  | ok job => exact .uploaded (congrArg (Option.map _ ∘ Except.toOption) read) (fun key => id) rfl rfl

theorem RowsSince.patched (surroundings : Surroundings) (application : Application)
    (request : Request) :
    application.RowsSince (.request surroundings .updateDocument request)
      (updateDocument surroundings application request).2 := by
  rcases updateDocument_sends surroundings application request with
    ⟨e, same⟩ | ⟨patch, _, _, _, same⟩
  · rw [same]
    exact .same rfl fun key => id
  · rw [same]
    intro key row found
    cases @InMemoryStore.step_row _ (surroundings.now 0) (.updateDocument patch.tenantId
      patch.documentId (sortedGroups patch.principal.groups) patch.allowedGroups
      patch.displayName) _ _ found with
    | old before was touched kept => exact Or.inr ⟨⟨before, was, touched.content, kept⟩, id⟩
    | created upload number isUpload => cases isUpload

theorem RowsSince.deleted (surroundings : Surroundings) (application : Application)
    (request : Request) :
    application.RowsSince (.request surroundings .deleteDocument request)
      (deleteDocument application request).2 := by
  have refused : ∀ e, deleteDocument application request = (.error e, application) →
      application.RowsSince (.request surroundings .deleteDocument request)
        (deleteDocument application request).2 := by
    intro e same
    refine .same (congrArg (·.2.memory) same) fun key => ?_
    rintro ⟨_, deleted⟩
    cases deleted.symm.trans (congrArg Prod.fst same)
  cases isCaller : request.caller with
  | error e => exact refused e (by rw [deleteDocument, isCaller]; rfl)
  | ok principal =>
  cases isId : request.named "document_id" with
  | error e => exact refused e (by rw [deleteDocument, isCaller, isId]; rfl)
  | ok documentId =>
  cases isTenant : request.tenant with
  | error e => exact refused e (by rw [deleteDocument, isCaller, isId, isTenant]; rfl)
  | ok tenantId =>
  have same : deleteDocument application request =
      let out := application.memory.deleteDocument tenantId documentId
        (sortedGroups principal.groups)
      (if out.1 then .ok (200, .deleted documentId)
        else AnswerError.refuse 404 "document not found",
        { application with memory := out.2 }) := by
    rw [deleteDocument, isCaller, isId, isTenant]
    rfl
  intro key row found
  rw [same] at found ⊢
  refine Or.inr ⟨?_, ?_⟩
  · cases @InMemoryStore.step_row _ 0 (.deleteDocument tenantId documentId
      (sortedGroups principal.groups)) _ _ found with
    | old before was touched kept => exact ⟨before, was, touched.content, kept⟩
    | created upload number isUpload => cases isUpload
  · rintro ⟨ofTenant, answer⟩
    rw [same] at answer
    dsimp only at answer
    split at answer
    · rename_i deleted
      have isDocument := (Prod.mk.inj (Except.ok.inj answer)).2
      have gone := (InMemoryStore.deleteDocument_gone deleted).1
      have isKey : (tenantId, documentId) = key :=
        Prod.ext (Except.ok.inj (isTenant.symm.trans ofTenant))
          (ResponseBody.deleted.inj isDocument)
      rw [isKey] at gone
      cases gone.symm.trans found
    · cases answer

theorem answerTo_memory (isChat : Bool) :
    (answerTo surroundings application request isChat).2.memory = application.memory := by
  rw [answerTo]
  cases request.caller with
  | error e => rfl
  | ok principal =>
      dsimp only [attempt]
      split <;> rfl

/-- After an event each row is the event's own, or it was there and is not deleted. -/
theorem rowsSince_of_step {configured : Application} {event : ServerEvent}
    (taken : (server configured).step application event = some after) :
    application.RowsSince event after := by
  cases event with
  | job surroundings startedAt finishedAt =>
      change application.work surroundings startedAt finishedAt = some after at taken
      unfold work at taken
      split at taken
      · cases taken
      · rename_i jobId job rest queued
        obtain rfl := Option.some.inj taken
        have isUpload : ServerEvent.upload application (.job surroundings startedAt finishedAt) =
            some (surroundings, job) := by
          rw [ServerEvent.upload, queued]
          rfl
        let running := started application startedAt jobId rest
        exact @RowsSince.uploaded _ _ _ _ _ isUpload (fun key => id) running rfl rfl
  | request surroundings endpoint request =>
      obtain rfl := Option.some.inj taken
      cases endpoint with
      | createDocument => exact .created surroundings application request
      | updateDocument => exact .patched surroundings application request
      | deleteDocument => exact .deleted surroundings application request
      | submitJob =>
          refine .same ?_ fun key => id
          change (submitJob surroundings application request).2.memory = _
          unfold submitJob
          cases documentJob surroundings request with
          | error e => rfl
          | ok job => rfl
      | query => exact .same (answerTo_memory ..) fun key => id
      | chat => exact .same (answerTo_memory ..) fun key => id
      | _ => exact .same rfl fun key => id

/-- Every waiting job was brought by a request. -/
theorem queued_brought {configured state : Application} {events : List ServerEvent}
    (ran : (server configured).exec (server configured).start events = some state) :
    ∀ entry ∈ state.worker.queue, entry.2.BroughtBy events := by
  refine System.exec_history (fun events state => ∀ entry ∈ state.worker.queue,
    entry.2.BroughtBy events) (fun entry member => nomatch member) ?_ ran
  intro past application event next waiting taken entry member
  have old : ∀ entry ∈ application.worker.queue, entry.2.BroughtBy (past ++ [event]) := by
    intro entry member
    obtain ⟨surroundings, request, read, brought⟩ := waiting entry member
    exact ⟨surroundings, request, read, brought.imp (List.mem_append_left _)
      (List.mem_append_left _)⟩
  cases event with
  | job surroundings startedAt finishedAt =>
      change application.work surroundings startedAt finishedAt = some next at taken
      unfold work at taken
      split at taken
      · cases taken
      · rename_i jobId job rest queued
        obtain rfl := Option.some.inj taken
        exact old entry (queued ▸ List.mem_cons_of_mem _ member)
  | request surroundings endpoint request =>
      obtain rfl := Option.some.inj taken
      rcases serve_worker surroundings application endpoint request with
        same | ⟨job, rfl, read, same⟩
      · exact old entry (same ▸ member)
      · change entry ∈ (serve surroundings application .submitJob request).2.worker.queue at member
        rw [same] at member
        rcases List.mem_append.mp member with before | new
        · exact old entry before
        · rw [List.mem_singleton.mp new]
          exact ⟨surroundings, request, read, Or.inr (List.mem_append_right _
            List.mem_cons_self)⟩

end Application

/-- An event of the run stored the row with these chunks, for a job that a request brought, and
no event since has deleted it. -/
def UploadedBy (configured : Application) (events : List ServerEvent) (key : DocumentKey)
    (row : Version) (chunks : Option (List Chunk)) : Prop :=
  ∃ past event future before after surroundings job stored, events = past ++ event :: future ∧
    (server configured).exec (server configured).start past = some before ∧
    event.upload before = some (surroundings, job) ∧ job.BroughtBy (past ++ [event]) ∧
    chunks = some stored ∧ job.Stores surroundings key row stored ∧
    (server configured).step before event = some after ∧
    (server configured).Meets (fun application later => ¬ later.Deletes application key) after future

/-- The job that an event uploads was brought by a request, if only by its own. -/
theorem Application.upload_brought {configured before : Application} {past : List ServerEvent}
    (ran : (server configured).exec (server configured).start past = some before)
    {event : ServerEvent} {surroundings : Surroundings} {job : DocumentJob}
    (isUpload : event.upload before = some (surroundings, job)) :
    job.BroughtBy (past ++ [event]) := by
  cases event with
  | job worker startedAt finishedAt =>
      obtain ⟨entry, isFirst, same⟩ := Option.map_eq_some_iff.mp isUpload
      obtain ⟨_, rfl⟩ := Prod.mk.inj same
      obtain ⟨worker, request, read, brought⟩ := Application.queued_brought ran entry
        (List.mem_of_head? isFirst)
      exact ⟨worker, request, read, brought.imp (List.mem_append_left _)
        (List.mem_append_left _)⟩
  | request asking endpoint request =>
      cases endpoint with
      | createDocument =>
          obtain ⟨read, isJob, same⟩ := Option.map_eq_some_iff.mp isUpload
          obtain ⟨rfl, rfl⟩ := Prod.mk.inj same
          refine ⟨asking, request, ?_, Or.inl (List.mem_append_right _ List.mem_cons_self)⟩
          cases given : documentJob asking request with
          | error e =>
              rw [given] at isJob
              cases isJob
          | ok job =>
              rw [given] at isJob
              exact congrArg Except.ok (Option.some.inj isJob)
      | _ => cases isUpload

theorem Application.uploaded_of_found {configured state : Application} {events : List ServerEvent}
    (ran : (server configured).exec (server configured).start events = some state)
    {key : DocumentKey} {row : Document} (found : state.memory.documents.find? key = some row) :
    UploadedBy configured events key row.toVersion (state.memory.chunks.find? key) := by
  let Holds : Application → Prop := fun application =>
    ∃ held : Document, application.memory.documents.find? key = some held ∧
      held.SameContent row.toVersion ∧
      state.memory.chunks.find? key = application.memory.chunks.find? key
  have init : ¬ Holds (server configured).start := by
    rintro ⟨held, wrong, _⟩
    cases wrong
  have steps : ∀ application event next, (server configured).step application event = some next →
      Holds next →
      event.Stores application key row.toVersion (state.memory.chunks.find? key) ∨
        (Holds application ∧ ¬ event.Deletes application key) := by
    rintro application event next taken ⟨held, isHeld, content, sameChunks⟩
    rcases Application.rowsSince_of_step taken key held isHeld with
      ⟨surroundings, job, stored, isUpload, isStored, stores⟩ |
        ⟨⟨before, was, early, kept⟩, remains⟩
    · refine Or.inl ⟨surroundings, job, stored, isUpload, sameChunks.trans isStored, ?_⟩
      obtain ⟨modifiedAt, data, call, isRead, isData, prepared, digest, isChunks⟩ := stores.prepared
      exact ⟨stores.tenant, content.documentId_eq.trans stores.documentId,
        content.sourceSystem_eq.trans stores.sourceSystem,
        content.sourceId_eq.trans stores.sourceId, modifiedAt, data, call, isRead, isData, prepared,
        content.contentSha256_eq.trans digest, isChunks⟩
    · exact Or.inr ⟨⟨before, was, early.trans content, sameChunks.trans kept⟩, remains⟩
  obtain ⟨past, event, future, before, after, split, ran', begun, taken, since⟩ :=
    System.exec_since init steps ran ⟨row, found, .refl row.toVersion, rfl⟩
  obtain ⟨surroundings, job, stored, isUpload, isStored, stores⟩ := begun
  exact ⟨past, event, future, before, after, surroundings, job, stored, split, ran', isUpload,
    Application.upload_brought ran' isUpload, isStored, stores, taken, since⟩

/-- Whatever requests come and whenever the worker runs: every stored document and its chunks come
from an upload of the run that has not been followed by a deletion. -/
theorem stored_documents_uploaded {configured state : Application} {events : List ServerEvent}
    (ran : (server configured).exec (server configured).start events = some state)
    {key : DocumentKey} {row : Document} (found : state.memory.documents.find? key = some row) :
    UploadedBy configured events key row.toVersion (state.memory.chunks.find? key) :=
  Application.uploaded_of_found ran found

/-- The document that a round of the worker stored. -/
theorem queued_document_uploaded : ∃ state key row,
    (server Application.emptyApplication).exec (server Application.emptyApplication).start
        mixedRun = some state ∧
      state.memory.documents.find? key = some row ∧ row.source = "b.txt" ∧
      UploadedBy Application.emptyApplication mixedRun key row.toVersion
        (state.memory.chunks.find? key) := by
  have runs : (((server Application.emptyApplication).exec
      (server Application.emptyApplication).start mixedRun).bind fun state =>
        state.memory.documents.entries[1]?.map (·.2.source)) = some "b.txt" := by
    decide +kernel
  obtain ⟨state, ran, runs⟩ := Option.bind_eq_some_iff.mp runs
  obtain ⟨⟨key, row⟩, isEntry, name⟩ := Option.map_eq_some_iff.mp runs
  have found := Table.find?_eq_some_iff.mpr (List.mem_of_getElem? isEntry)
  exact ⟨state, key, row, ran, found, name, stored_documents_uploaded ran found⟩

end ProductionRag
