import ProductionRag.Api.Reupload

/-!
# Two uploads at once

An upload reads the current version once and writes once.  Between the read and the write of
one upload another may write, and what it wrote goes unseen.
-/

set_option autoImplicit false

namespace ProductionRag

open Basis

/-- A store up to timestamps and chunk ids. -/
abbrev StoreContent := History (List ChunkBody)

/-- An upload, and the chunk ids and the timestamp it takes. -/
structure Upload where
  job : JobPayload
  uuid4 : Nat → String
  createdAt : Time

namespace Upload

def program (services : Services) (upload : Upload) : StoreProgram (Except PyError JobResult) :=
  ingestDocument services upload.uuid4 upload.createdAt upload.job

def logical (upload : Upload) : LogicalDocument := upload.job.source.logical upload.job.tenantId

/-- The current version, if it makes the upload unnecessary. -/
def finds (hash : Sha256) (upload : Upload) (versions : Versions) : Option Version :=
  upload.job.contentBase64.bind fun data =>
    (versions.current upload.logical upload.job.groups).head?.filter
      (isUnchanged hash upload.job.source data)

/-- What the upload stores, if it can be parsed. -/
def prepared (services : Services) (upload : Upload) : Option PersistCall :=
  upload.job.contentBase64.bind fun data =>
    (prepare services upload.uuid4 upload.createdAt upload.job data).toOption

end Upload

/-! ## The write of an upload -/

/-- The access list a new version gets. -/
def PersistCall.settled (call : PersistCall) (versions : Versions) : List String :=
  call.allowedGroups.getD
    (((versions.current call.logical call.groups).head?.map (·.allowedGroups)).getD [])

inductive Effect where
  | nothing
  | rename (tenantId documentId : String) (groups : List String) (name : String)
  | store (call : PersistCall)

def Effect.apply (effect : Effect) (content : StoreContent) : StoreContent :=
  match effect with
  | .nothing => content
  | .rename tenantId documentId groups name =>
    match content.documents.find? (tenantId, documentId) with
    | none => content
    | some found =>
      if found.visible groups then
        content.patch (InMemoryStore.logicalOf tenantId found) groups none (some name)
      else content
  | .store call => (content.upload call.request id (call.settled content.documents)).2

/-- What the upload writes when it has read these versions. -/
def Upload.effect (services : Services) (upload : Upload) (versions : Versions) : Effect :=
  match upload.finds services.hash versions with
  | some row =>
    if upload.job.filename ≠ row.source then
      .rename upload.job.tenantId row.documentId upload.job.groups upload.job.filename
    else .nothing
  | none =>
    match upload.prepared services with
    | none => .nothing
    | some call => .store call

section Program

variable {services : Services}

theorem rename_refines (store : InMemoryStore) (tenantId documentId : String)
    (groups : List String) (name : String) (now : Time) :
    (store.updateDocument tenantId documentId groups none (some name) now).2.history =
      (Effect.rename tenantId documentId groups name).apply store.history := by
  have refined := store.updateDocument_refines tenantId documentId groups none (some name) now
  cases stored : store.history.documents.find? (tenantId, documentId) with
  | none =>
      simp only [stored] at refined
      simp only [Effect.apply, stored]
      rw [refined.2]
  | some found =>
      simp only [stored] at refined
      simp only [Effect.apply, stored]
      by_cases visible : found.visible groups = true
      · rw [if_pos visible] at refined ⊢
        rw [refined.1]
      · rw [if_neg visible] at refined ⊢
        rw [refined.2]

theorem unchanged_owes (job : JobPayload) (row : Document) :
    (unchanged job row).Owes InMemoryStore.timedCalls InMemoryStore.history
      (if job.filename ≠ row.source then
        Effect.rename job.tenantId row.documentId job.groups job.filename
      else Effect.nothing).apply := by
  refine .quiet (fun store turn => store.markChecked_refines _ _ turn) fun store turn => ?_
  simp only [InMemoryStore.timedCalls, InMemoryStore.step, StoreReply.checked?]
  split
  · refine .write (fun store turn => rename_refines store _ _ _ _ turn) fun store turn => ?_
    exact .done _
  · exact .done _

theorem stored_owes (job : JobPayload) (call : PersistCall) (nonempty : call.result.chunks ≠ []) :
    (storeCall (.persist call) StoreReply.persisted? fun stored =>
        (Program.done (.ok (storedResult job call stored)) :
          StoreProgram (Except PyError JobResult))).Owes
      InMemoryStore.timedCalls InMemoryStore.history (Effect.store call).apply := by
  refine .write (fun store turn => ?_) fun store turn => ?_
  · obtain ⟨after, stored, refined⟩ := store.persistCall_refines turn call nonempty
    simp only [InMemoryStore.timedCalls, InMemoryStore.step, stored]
    exact refined
  · obtain ⟨after, stored, _⟩ := store.persistCall_refines turn call nonempty
    simp only [InMemoryStore.timedCalls, InMemoryStore.step, stored, StoreReply.persisted?]
    exact .done _

theorem Upload.decides (upload : Upload) :
    (upload.program services).Decides InMemoryStore.timedCalls InMemoryStore.history
      fun seen => (upload.effect services seen.documents).apply := by
  rw [program, ingestDocument]
  split
  · rename_i missing
    have nothing : ∀ versions, upload.effect services versions = .nothing := by
      intro versions
      simp [effect, finds, prepared, missing]
    simp only [nothing]
    exact .owes (.done _)
  · rename_i data content
    refine .look (fun store turn => rfl) fun store turn => ?_
    simp only [InMemoryStore.timedCalls, InMemoryStore.step, StoreReply.current?, ingestAfterRead]
    have read := store.upToDate_refines services.hash upload.job data
    have finds : upload.finds services.hash store.history.documents =
        (store.upToDate services.hash upload.job data).map (·.toVersion) := by
      rw [read, Upload.finds, content, Option.bind_some]
      rfl
    rw [effect, finds, InMemoryStore.upToDate]
    cases decided : (store.currentVersion upload.job.tenantId upload.job.source
        upload.job.groups).filter fun row =>
          isUnchanged services.hash upload.job.source data row.toVersion with
    | some row => exact unchanged_owes upload.job row
    | none =>
        simp only [Option.map_none, prepared, content, Option.bind_some]
        cases stored : prepare services upload.uuid4 upload.createdAt upload.job data with
        | error e => exact .done _
        | ok call => exact stored_owes upload.job call (prepare_prepares stored).nonempty

end Program

/-! ## Any order of the steps -/

/-- What the upload makes of the content when it has read another. -/
def Upload.writes (services : Services) (upload : Upload) (seen content : StoreContent) :
    StoreContent :=
  (upload.effect services seen.documents).apply content

namespace InMemoryStore

/-- One upload runs after the other. -/
def OneAfterOther (services : Services) (store : InMemoryStore) (first second : Upload)
    (serial : InMemoryStore) : Prop :=
  ∃ turns turns' : Nat → Time,
    let between := (store.ingest services first.uuid4 first.createdAt turns first.job).2
    serial = (between.ingest services second.uuid4 second.createdAt turns' second.job).2

end InMemoryStore

section Orders

variable {services : Services} {store : InMemoryStore} {left right : Upload}

/-- The content after one upload and then the other. -/
def Upload.thenWrites (services : Services) (first second : Upload) (content : StoreContent) :
    StoreContent :=
  let between := first.writes services content content
  second.writes services between between

/-- The uploads find, one after the other, what the one before left. -/
theorem InMemoryStore.OneAfterOther.content {first second : Upload} {serial : InMemoryStore}
    (order : InMemoryStore.OneAfterOther services store first second serial) :
    serial.history = first.thenWrites services second store.history := by
  obtain ⟨turns, turns', rfl⟩ := order
  have between := (@Upload.decides services first).run turns store
  refine (second.decides.run _ _).trans ?_
  rw [InMemoryStore.ingest]
  exact congrArg (fun content => second.writes services content content) between

/-- Both uploads write what they decided on at first, and this is as if one had waited. -/
def Waits (services : Services) (content : StoreContent) (first second : Upload) : Prop :=
  let both := second.writes services content (first.writes services content content)
  both = first.thenWrites services second content ∨ both = second.thenWrites services first content

/-- The write of the first upload does not change what the second one decides. -/
theorem waits_of_effect {content : StoreContent}
    (same : right.effect services (left.writes services content content).documents =
      right.effect services content.documents) : Waits services content left right := by
  left
  rw [Upload.thenWrites]
  simp only [Upload.writes] at same ⊢
  rw [same]

end Orders

/-! ## What a rename leaves -/

/-- The name of a row after a rename. -/
def renamedTo (logical : LogicalDocument) (groups : List String) (name : String)
    (key : DocumentKey) (row : Version) : Version :=
  if row.versionOf logical groups key then { row with source := name } else row

theorem patch_documents (content : StoreContent) (logical : LogicalDocument)
    (groups : List String) (name : String) :
    (content.patch logical groups none (some name)).documents =
      content.documents.mapValues (renamedTo logical groups name) :=
  rfl

theorem renamedTo_eq (logical : LogicalDocument) (groups : List String) (name : String)
    (key : DocumentKey) (row : Version) :
    renamedTo logical groups name key row =
      { row with source := (renamedTo logical groups name key row).source } := by
  unfold renamedTo
  split <;> rfl

/-- A rename depends on the tenant of the key alone. -/
theorem renamedTo_key {logical : LogicalDocument} {groups : List String} {name : String}
    {key key' : DocumentKey} (tenant : key.1 = key'.1) (row : Version) :
    renamedTo logical groups name key row = renamedTo logical groups name key' row := by
  have same : row.versionOf logical groups key = row.versionOf logical groups key' := by
    simp only [Version.versionOf, Version.belongsTo, tenant]
  unfold renamedTo
  rw [same]

theorem renamedTo_current (versions : Versions) (logical logical' : LogicalDocument)
    (groups groups' : List String) (name : String) :
    Versions.current (versions.mapValues (renamedTo logical groups name)) logical' groups' =
      (versions.current logical' groups').map
        (renamedTo logical groups name (logical'.tenantId, "")) := by
  rw [Versions.current, Table.select_mapValues, Versions.current, Table.select, List.map_map]
  have selected : ∀ entry : DocumentKey × Version,
      ((renamedTo logical groups name entry.1 entry.2).versionOf logical' groups' entry.1 &&
        (renamedTo logical groups name entry.1 entry.2).isReady) =
      (entry.2.versionOf logical' groups' entry.1 && entry.2.isReady) := by
    intro entry
    rw [renamedTo_eq]
    rfl
  simp only [selected]
  refine List.map_congr_left fun entry member => ?_
  have sees := (List.mem_filter.mp member).2
  rw [Bool.and_eq_true] at sees
  exact renamedTo_key (Version.belongsTo_iff.mp (Version.versionOf_iff.mp sees.1).1).1 entry.2

namespace Upload

variable {services : Services} {hash : Sha256} {left right : Upload} {content : StoreContent}

theorem finds_renamed (versions : Versions) (upload : Upload) (logical : LogicalDocument)
    (groups : List String) (name : String) :
    upload.finds hash (versions.mapValues (renamedTo logical groups name)) =
      (upload.finds hash versions).map
        (renamedTo logical groups name (upload.job.tenantId, "")) := by
  rw [finds, finds]
  cases upload.job.contentBase64 with
  | none => rfl
  | some data =>
      rw [Option.bind_some, Option.bind_some, renamedTo_current, List.head?_map, Option.filter_map]
      congr 1
      refine congrArg (Option.filter · _) (funext fun row => ?_)
      rw [Function.comp_apply, renamedTo_eq]
      rfl

/-- What an upload finds is stored under its own id. -/
theorem finds_stored {upload : Upload} (identified : content.documents.Identified hash)
    {row : Version} (found : upload.finds hash content.documents = some row) :
    content.documents.find? (upload.job.tenantId, row.documentId) = some row ∧
      row.versionOf upload.logical upload.job.groups (upload.job.tenantId, row.documentId) =
        true := by
  rw [finds, Option.bind_eq_some_iff] at found
  obtain ⟨data, _, read⟩ := found
  obtain ⟨first, _⟩ := Option.filter_eq_some_iff.mp read
  obtain ⟨stored, sees, _⟩ := identified.current_stored (List.mem_of_mem_head? first)
  exact ⟨stored, sees⟩

end Upload

end ProductionRag
