import ProductionRag.Store.ReadYourWrite

/-!
# Uploads that leave the access list to the store

An upload without `allowed_groups` inherits from the current version the caller sees.
The versions that deletions, supersessions and hidden uploads leave behind need not
include one, and a new version is then open to the whole tenant, however restricted
the versions the caller sees are.
-/

set_option autoImplicit false

namespace ProductionRag

open Basis

/-- The versions of a logical document that a caller sees, current or not. -/
def Versions.seen (versions : Versions) (logical : LogicalDocument) (groups : List String) :
    List Version :=
  versions.select fun key version => version.versionOf logical groups key

/-- The caller sees some version of the document and none that is open to the tenant. -/
def Versions.RestrictedFor (versions : Versions) (logical : LogicalDocument)
    (groups : List String) : Prop :=
  versions.seen logical groups ≠ [] ∧
    ∀ version ∈ versions.seen logical groups, version.allowedGroups ≠ []

/-- The version an upload leaves current is restricted. -/
def Versions.LeavesRestricted (after : Versions) (call : PersistCall) (result : PersistResult) :
    Prop :=
  ∃ row ∈ after.find? (call.tenantId, result.documentId),
    row.status = .ready ∧ row.allowedGroups ≠ []

/-- There is a list to keep: the content is stored, or a version the caller sees is current. -/
def Versions.HoldsList (versions : Versions) (call : PersistCall) : Prop :=
  (versions.find? call.key).isSome = true ∨
    ∃ version ∈ versions.seen call.logical call.groups, version.status = .ready

instance (versions : Versions) (logical : LogicalDocument) (groups : List String) :
    Decidable (versions.RestrictedFor logical groups) := by
  unfold Versions.RestrictedFor
  infer_instance

instance (after : Versions) (call : PersistCall) (result : PersistResult) :
    Decidable (after.LeavesRestricted call result) := by
  unfold Versions.LeavesRestricted
  infer_instance

instance (versions : Versions) (call : PersistCall) : Decidable (versions.HoldsList call) := by
  unfold Versions.HoldsList
  infer_instance

theorem Versions.mem_seen {versions : Versions} {logical : LogicalDocument}
    {groups : List String} {version : Version} :
    version ∈ versions.seen logical groups ↔
      ∃ key, (key, version) ∈ versions.entries ∧ version.versionOf logical groups key = true :=
  Table.mem_select

theorem Versions.mem_current_iff {versions : Versions} {logical : LogicalDocument}
    {groups : List String} {version : Version} :
    version ∈ versions.current logical groups ↔
      version ∈ versions.seen logical groups ∧ version.status = .ready := by
  rw [mem_current, mem_seen]
  constructor
  · rintro ⟨key, member, sees, ready⟩
    exact ⟨⟨key, member, sees⟩, ready⟩
  · rintro ⟨⟨key, member, sees⟩, ready⟩
    exact ⟨key, member, sees, ready⟩

/-- A row the caller does not see is restricted to others. -/
theorem Version.restricted_of_hidden {version : Version} {groups : List String}
    (hidden : version.visible groups = false) : version.allowedGroups ≠ [] := by
  intro open_
  rw [visible, open_, groupsMeet_nil] at hidden
  cases hidden

section Upload

variable {C : Type} {hash : Sha256} {history : History C} {request : UploadRequest C}
  {marker : Option String → Option String} {allowedGroups : List String}

/-- Stored content keeps its list, a new version has the settled one. -/
theorem UploadRequest.ownRow_allowedGroups (versions : Versions) :
    (request.ownRow marker allowedGroups versions).allowedGroups =
      match versions.find? request.key with
      | some existing => existing.allowedGroups
      | none => allowedGroups := by
  unfold ownRow
  cases versions.find? request.key with
  | none => rfl
  | some existing =>
      dsimp only
      split <;> rfl

/-- The content of an upload, once stored, is restricted when all the caller sees is. -/
theorem Versions.RestrictedFor.stored {versions : Versions}
    (restricted : versions.RestrictedFor request.logical request.groups)
    (identified : versions.Identified hash) (own : request.Identified hash)
    {existing : Version} (found : versions.find? request.key = some existing) :
    existing.allowedGroups ≠ [] := by
  have member := Table.find?_eq_some_iff.mp found
  have belongs := ((UploadRequest.key_eq_iff own (identified _ existing member)).mpr rfl).1
  by_cases visible : existing.visible request.groups = true
  · exact restricted.2 existing
      (mem_seen.mpr ⟨request.key, member, Version.versionOf_iff.mpr ⟨belongs, visible⟩⟩)
  · exact Version.restricted_of_hidden (Bool.eq_false_iff.mpr visible)

/-- An upload keeps a document restricted exactly when there is a list to keep: `picked`
is the current version whose list a new version takes over. -/
theorem History.uploaded_restricted_iff {picked : Option Version}
    (restricted : history.documents.RestrictedFor request.logical request.groups)
    (identified : history.documents.Identified hash) (own : request.Identified hash)
    (pickedCurrent : ∀ version ∈ picked,
      version ∈ history.documents.current request.logical request.groups)
    (pickedNone : picked = none → history.documents.current request.logical request.groups = []) :
    (∃ row ∈ (history.uploaded request marker
        ((picked.map (·.allowedGroups)).getD [])).find? request.key,
      row.status = .ready ∧ row.allowedGroups ≠ []) ↔
    (history.documents.find? request.key).isSome = true ∨
      ∃ version ∈ history.documents.seen request.logical request.groups,
        version.status = .ready := by
  have onlyOwn : (∃ row ∈ (history.uploaded request marker
        ((picked.map (·.allowedGroups)).getD [])).find? request.key,
      row.status = .ready ∧ row.allowedGroups ≠ []) ↔
      (request.ownRow marker ((picked.map (·.allowedGroups)).getD [])
        history.documents).allowedGroups ≠ [] := by
    rw [history.uploaded_self request marker _ identified.ownId]
    constructor
    · rintro ⟨row, same, _, closed⟩
      rw [Option.mem_some_iff.mp same]
      exact closed
    · intro closed
      exact ⟨_, rfl, request.ownRow_ready marker _ _, closed⟩
  rw [onlyOwn, UploadRequest.ownRow_allowedGroups]
  cases stored : history.documents.find? request.key with
  | some existing =>
      exact iff_of_true (restricted.stored identified own stored) (Or.inl rfl)
  | none =>
      cases picked with
      | some version =>
          obtain ⟨seen, ready⟩ := Versions.mem_current_iff.mp (pickedCurrent version rfl)
          exact iff_of_true (restricted.2 version seen) (Or.inr ⟨version, seen, ready⟩)
      | none =>
          refine iff_of_false (fun closed => closed rfl) ?_
          rintro (present | ⟨version, seen, ready⟩)
          · cases present
          · have current := Versions.mem_current_iff.mpr ⟨seen, ready⟩
            rw [pickedNone rfl] at current
            cases current

end Upload

/-- An upload without `allowed_groups` into a document restricted for its uploader leaves a
restricted version current exactly when the content is stored already or the uploader
sees a current version. -/
theorem persist_leavesRestricted_iff (hash : Sha256) (call : PersistCall)
    (identified : call.Identified hash) (omitted : call.allowedGroups = none) :
    (∀ (store after : InMemoryStore) (now : Time) (result : PersistResult),
      InMemoryStore.Reachable (PersistCall.Identified hash) store →
      store.documents.versions.RestrictedFor call.logical call.groups →
      store.persistCall now call = .ok (result, after) →
      (after.documents.versions.LeavesRestricted call result ↔
        store.documents.versions.HoldsList call)) ∧
    (∀ (db after : Database) (plan : VersionPlan) (delay : Nat) (result : PersistResult),
      Database.Reachable (PersistCall.Identified hash) db →
      db.documents.versions.RestrictedFor call.logical call.groups →
      db.persistCall plan (db.nextNow delay) call = .ok (result, after) →
      (after.documents.versions.LeavesRestricted call result ↔
        db.documents.versions.HoldsList call)) := by
  constructor
  · intro store after now result reached restricted success
    obtain ⟨nonempty, sameResult, versions⟩ := InMemoryStore.persistCall_uploaded success
    rw [Versions.LeavesRestricted, versions, sameResult, (History.upload_answer ..).1,
      InMemoryStore.settledGroups, omitted, Option.getD_none]
    refine History.uploaded_restricted_iff restricted reached.identified
      (identified.requestWith _ nonempty) ?_ List.head?_eq_none_iff.mp
    intro version first
    exact List.mem_of_mem_head? first
  · intro db after plan delay result reached restricted success
    have invariant := reached.invariant
    have own : call.rowRequest.Identified hash :=
      identified.requestWith _ (Database.persistCall_ok success).nonempty
    obtain ⟨sameResult, versions⟩ := invariant.persistCall_uploaded own success
    have inheritable : (db.inheritable call).map (·.toVersion) =
        db.documents.versions.current call.logical call.groups := by
      rw [Versions.current, Documents.versions_select]
      rfl
    have settled : db.settledGroups plan call =
        ((((plan.pick (db.inheritable call)).map (·.toVersion)).map
          (·.allowedGroups)).getD []) := by
      rw [Database.settledGroups, omitted, Option.getD_none, Option.map_map]
      rfl
    rw [Versions.LeavesRestricted, versions, sameResult, (History.upload_answer ..).1, settled]
    refine History.uploaded_restricted_iff restricted invariant.identified own ?_ ?_
    · intro version picked
      obtain ⟨row, isPicked, rfl⟩ := Option.mem_map.mp picked
      change row.toVersion ∈ db.documents.versions.current call.logical call.groups
      rw [← inheritable]
      exact List.mem_map_of_mem (plan.pick_mem _ row isPicked)
    · intro nothing
      have noRows := (plan.pick_eq_none _).mp (Option.map_eq_none_iff.mp nothing)
      change db.documents.versions.current call.logical call.groups = []
      rw [← inheritable, noRows, List.map_nil]

/-- A version for `hr`, superseded by one for `it` from a member of both. -/
def handedOver : List PersistCall :=
  [notesUpload [1] ["hr"] (some ["hr"]), notesUpload [2] ["hr", "it"] (some ["it"])]

theorem handedOver_legal : ∀ call ∈ handedOver, call.Identified .spelling :=
  List.forall_mem_cons.mpr ⟨notesUpload_identified .., List.forall_mem_cons.mpr
    ⟨notesUpload_identified .., fun _ none => nomatch none⟩⟩

/-- The next upload by `hr` sees no current version, and opens the document to the tenant. -/
theorem hidden_current_version_publishes_upload :
    let call := notesUpload [3] ["hr"] none
    let store := InMemoryStore.empty.afterUploads handedOver
    let db := Database.empty.afterUploads (.first _) handedOver
    (InMemoryStore.Reachable (PersistCall.Identified .spelling) store ∧
      store.documents.versions.RestrictedFor call.logical call.groups ∧
      ∃ result after, store.persistCall 0 call = .ok (result, after) ∧
        ¬ after.documents.versions.LeavesRestricted call result) ∧
    (Database.Reachable (PersistCall.Identified .spelling) db ∧
      db.documents.versions.RestrictedFor call.logical call.groups ∧
      ∃ result after, db.persistCall (.first _) (db.nextNow 0) call = .ok (result, after) ∧
        ¬ after.documents.versions.LeavesRestricted call result) := by
  intro call store db
  let result : PersistResult :=
    { documentId := call.key.2, chunksWritten := 1, alreadyExisted := false, version := 2 }
  refine ⟨⟨InMemoryStore.Reachable.empty.afterUploads handedOver_legal, ?_, result,
      (store.step 0 (.persist call)).2, ?_, ?_⟩,
    Database.Reachable.empty.afterUploads _ handedOver_legal, ?_, result,
      (db.step (.first _) 0 (.persist call)).2, ?_, ?_⟩ <;> decide +kernel

/-- While the restricted version is current, the next upload stays restricted. -/
theorem current_version_keeps_next_upload_restricted :
    let call := notesUpload [3] ["hr"] none
    let earlier := [notesUpload [1] ["hr"] (some ["hr"])]
    let store := InMemoryStore.empty.afterUploads earlier
    let db := Database.empty.afterUploads (.first _) earlier
    (∃ result after, store.persistCall 0 call = .ok (result, after) ∧
      after.documents.versions.LeavesRestricted call result) ∧
    (∃ result after, db.persistCall (.first _) (db.nextNow 0) call = .ok (result, after) ∧
      after.documents.versions.LeavesRestricted call result) := by
  intro call earlier store db
  let result : PersistResult :=
    { documentId := call.key.2, chunksWritten := 1, alreadyExisted := false, version := 2,
      superseded := [(notesUpload [1] [] none).key.2] }
  have legal : ∀ upload ∈ earlier, upload.Identified .spelling :=
    List.forall_mem_cons.mpr ⟨notesUpload_identified .., fun _ none => nomatch none⟩
  have success : store.persistCall 0 call = .ok (result, (store.step 0 (.persist call)).2) := by
    decide +kernel
  have committed : db.persistCall (.first _) (db.nextNow 0) call =
      .ok (result, (db.step (.first _) 0 (.persist call)).2) := by decide +kernel
  have both := persist_leavesRestricted_iff .spelling call (notesUpload_identified ..) rfl
  exact ⟨⟨result, _, success, (both.1 store _ 0 result
      (InMemoryStore.Reachable.empty.afterUploads legal) (by decide +kernel) success).mpr
        (by decide +kernel)⟩,
    ⟨result, _, committed, (both.2 db _ (.first _) 0 result
      (Database.Reachable.empty.afterUploads _ legal) (by decide +kernel) committed).mpr
        (by decide +kernel)⟩⟩

end ProductionRag
