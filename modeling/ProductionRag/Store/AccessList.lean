import ProductionRag.Store.ReadYourWrite

/-!
# The access list an upload leaves on its version

`persist` settles one access list, and only a new row stores it: a reinstated row
keeps its own.  The in-memory store inherits from the first current version, as
`current_version` reads it; PostgreSQL inherits from a current version of greatest
number while `current_version` reads the newest row.
-/

set_option autoImplicit false

namespace ProductionRag

open Basis

/-- The access list asked for, or the one of the current version the caller reads. -/
def PersistCall.requestedGroups (call : PersistCall) (current : Option Document) : List String :=
  call.allowedGroups.getD ((current.map (·.allowedGroups)).getD [])

/-- The access list stored on the version a result names. -/
def Documents.groupsOf (documents : Documents) (call : PersistCall) (result : PersistResult) :
    Option (List String) :=
  (documents.find? (call.tenantId, result.documentId)).map (·.allowedGroups)

/-! ## The in-memory store -/

namespace InMemoryStore

theorem settledGroups_eq (store : InMemoryStore) (call : PersistCall) :
    store.settledGroups call = call.requestedGroups
      (store.currentVersion call.tenantId call.effectiveSource call.groups) := by
  have current := store.currentVersion_refines call.tenantId call.effectiveSource call.groups
  rw [settledGroups, PersistCall.requestedGroups]
  change _ = call.allowedGroups.getD (((store.currentVersion _ _ _).map _).getD [])
  have sameGroups : (store.currentVersion call.tenantId call.effectiveSource call.groups).map
      (·.allowedGroups) = ((store.documents.versions.current call.logical call.groups).head?).map
        (·.allowedGroups) := by
    have mapped := congrArg (Option.map (·.allowedGroups)) current
    rw [Option.map_map] at mapped
    exact mapped
  rw [sameGroups]

theorem persistCall_groupsOf {store after : InMemoryStore} {now : Time} {call : PersistCall}
    {result : PersistResult} (success : store.persistCall now call = .ok (result, after)) :
    after.documents.groupsOf call result = some (
      match store.documents.find? call.key with
      | some stored => stored.allowedGroups
      | none => store.settledGroups call) := by
  have nonempty : call.result.chunks ≠ [] := by
    intro empty
    rw [persistCall_error store now call empty] at success
    cases success
  rw [persistCall_eq store now call nonempty] at success
  have kept : Documents.column (store.documents.mapValues (supersededAt call now))
      (·.allowedGroups) = store.documents.column (·.allowedGroups) := by
    apply Documents.column_mapValues
    intro key document
    unfold supersededAt
    split <;> rfl
  cases found : store.documents.find? call.key with
  | none =>
      simp only [found, Except.ok.injEq, Prod.mk.injEq] at success
      obtain ⟨rfl, rfl⟩ := success
      rw [Documents.groupsOf, ← Documents.find?_column, Documents.column_set]
      exact (Table.find?_set _ _ _ _).trans (if_pos rfl)
  | some stored =>
      have storedGroups : (store.documents.column (·.allowedGroups)).find? call.key =
          some stored.allowedGroups := by
        rw [Documents.find?_column, found, Option.map_some]
      simp only [found] at success
      split at success
      · cases success
        rw [Documents.groupsOf, ← Documents.find?_column, Documents.column_modify]
        · exact storedGroups
        · intro document
          rfl
      · cases success
        rw [Documents.groupsOf, ← Documents.find?_column, Documents.column_modify, kept]
        · exact storedGroups
        · intro document
          rfl

end InMemoryStore

/-! ## PostgreSQL -/

namespace Database

/-- The conflicting row is one of the tenant's. -/
theorem conflicting_tenant {db : Database} {logical : LogicalDocument} {digest : String}
    {key : DocumentKey} {document : Document}
    (hit : db.conflicting logical digest = some (key, document)) :
    key.1 = logical.tenantId ∧ db.documents.find? key = some document := by
  have holds := List.find?_some hit
  rw [Bool.and_eq_true] at holds
  exact ⟨(Version.belongsTo_iff.mp holds.1).1,
    Table.find?_eq_some_iff.mpr (List.mem_of_find?_eq_some hit)⟩

theorem persistCall_groupsOf {db after : Database} {plan : VersionPlan} {now : Time}
    {call : PersistCall} {result : PersistResult}
    (success : db.persistCall plan now call = .ok (result, after)) :
    after.documents.groupsOf call result = some (
      match db.conflicting call.logical call.result.contentSha256 with
      | some (_, stored) => stored.allowedGroups
      | none => db.settledGroups plan call) := by
  have storedGroups {key : DocumentKey} {stored : Document}
      (hit : db.conflicting call.logical call.result.contentSha256 = some (key, stored)) :
      (Documents.column (db.documents.modify key (repeated call now))
        (·.allowedGroups)).find? (call.tenantId, key.2) = some stored.allowedGroups := by
    obtain ⟨tenant, found⟩ := conflicting_tenant hit
    have ownKey : (call.tenantId, key.2) = key := Prod.ext tenant.symm rfl
    have repeatedGroups : Documents.column (db.documents.modify key (repeated call now))
        (·.allowedGroups) = db.documents.column (·.allowedGroups) :=
      Documents.column_modify _ _ _ _ fun _ => rfl
    rw [ownKey, repeatedGroups, Documents.find?_column, found, Option.map_some]
  cases persistCall_persisted success with
  | current hit ready =>
      rw [hit, Documents.groupsOf, ← Documents.find?_column]
      exact storedGroups hit
  | promoted hit notReady promotes =>
      subst promotes
      rw [hit, Documents.groupsOf, ← Documents.find?_column, promoteCall,
        column_promote _ fun _ _ _ _ _ => rfl]
      exact storedGroups hit
  | inserted hit missing allowed promotes =>
      subst promotes
      rw [hit, Documents.groupsOf, ← Documents.find?_column, promoteCall,
        column_promote _ fun _ _ _ _ _ => rfl, Documents.column_set]
      exact (Table.find?_set _ _ _ _).trans (if_pos rfl)

/-- Which row a plan inherits from does not decide whether the upload commits. -/
theorem persistCall_plan {db : Database} {plan : VersionPlan} {now : Time} {call : PersistCall}
    {out : PersistResult × Database} (success : db.persistCall plan now call = .ok out)
    (other : VersionPlan) : ∃ out', db.persistCall other now call = .ok out' := by
  obtain ⟨result, after⟩ := out
  have accepted := persistCall_ok success
  rw [persistCall_eq db plan now call accepted] at success
  rw [persistCall_eq db other now call accepted]
  cases hit : db.conflicting call.logical call.result.contentSha256 with
  | some entry =>
      dsimp only
      split <;> exact ⟨_, rfl⟩
  | none =>
      simp only [hit] at success
      dsimp only
      split at success
      · cases success
      · rename_i fresh
        split at success
        · cases success
        · rename_i allowed
          rw [if_neg fresh, if_neg allowed]
          exact ⟨_, rfl⟩

/-- `current_version` reads one of the rows `persist` may inherit from. -/
theorem currentVersion_inheritable {db : Database} {call : PersistCall}
    (accepted : call.Accepted) :
    ∃ current, db.currentVersion call.tenantId call.effectiveSource call.groups = .ok current ∧
      (current = none ↔ db.inheritable call = []) := by
  have nonblank : strip call.tenantId ≠ "" := by
    rw [accepted.tenant_trimmed]
    exact accepted.tenant_ne
  have sameRows : (db.documents.select fun key document =>
      inTenant call.tenantId key && document.visible call.groups &&
        (document.belongsTo (call.effectiveSource.logical call.tenantId) key &&
          document.isReady)) = db.inheritable call := by
    unfold inheritable
    congr 1
    funext key document
    rw [← inTenant_and_versionOf call.logical accepted.tenant_trimmed,
      Version.versionOf]
    have sameTenant : call.logical.tenantId = call.tenantId := rfl
    have sameLogical : call.effectiveSource.logical call.tenantId = call.logical := rfl
    rw [sameTenant, sameLogical]
    cases inTenant call.tenantId key <;> cases document.visible call.groups <;> simp
  refine ⟨((db.inheritable call).insertionSort createdDesc).head?, ?_, ?_⟩
  · simp only [currentVersion, selectDocuments, if_neg nonblank, sameRows]
    rfl
  · rw [List.head?_eq_none_iff]
    constructor
    · intro sorted
      have lengths := List.length_insertionSort createdDesc (db.inheritable call)
      rw [sorted] at lengths
      exact List.eq_nil_of_length_eq_zero lengths.symm
    · intro empty
      rw [empty]
      rfl

end Database

/-- Both stores leave the requested access list on the version an upload makes current,
except that a reinstated row keeps its own, and that PostgreSQL inherits from the
version of greatest number. -/
theorem persist_allowedGroups_iff (call : PersistCall) :
    (∀ (store after : InMemoryStore) (now : Time) (result : PersistResult),
      store.persistCall now call = .ok (result, after) →
      (∀ stored, store.documents.find? call.key = some stored → stored.status ≠ .ready) →
      let requested := call.requestedGroups
        (store.currentVersion call.tenantId call.effectiveSource call.groups)
      (after.documents.groupsOf call result = some requested ↔
        ∀ stored, store.documents.find? call.key = some stored →
          stored.allowedGroups = requested)) ∧
    (∀ (db : Database) (now : Time),
      (∃ plan out, db.persistCall plan now call = .ok out) →
      (∀ key stored, db.conflicting call.logical call.result.contentSha256 = some (key, stored) →
        stored.status ≠ .ready) →
      ∃ current, db.currentVersion call.tenantId call.effectiveSource call.groups = .ok current ∧
        ((∀ plan result after, db.persistCall plan now call = .ok (result, after) →
            after.documents.groupsOf call result = some (call.requestedGroups current)) ↔
          match db.conflicting call.logical call.result.contentSha256 with
          | some (_, stored) => stored.allowedGroups = call.requestedGroups current
          | none => call.allowedGroups = none → ∀ row ∈ db.inheritable call,
              (∀ other ∈ db.inheritable call, other.version ≤ row.version) →
                row.allowedGroups = call.requestedGroups current)) := by
  constructor
  · intro store after now result success _ requested
    rw [InMemoryStore.persistCall_groupsOf success, InMemoryStore.settledGroups_eq,
      Option.some.injEq]
    cases found : store.documents.find? call.key with
    | none => simp [requested]
    | some stored => simp
  · rintro db now ⟨plan, ⟨result, after⟩, success⟩ _
    have accepted := Database.persistCall_ok success
    obtain ⟨current, read, empty⟩ := db.currentVersion_inheritable accepted
    refine ⟨current, read, ?_⟩
    have everyPlan : (∀ plan result after, db.persistCall plan now call = .ok (result, after) →
          after.documents.groupsOf call result = some (call.requestedGroups current)) ↔
        ∀ plan, (match db.conflicting call.logical call.result.contentSha256 with
          | some (_, stored) => stored.allowedGroups
          | none => db.settledGroups plan call) = call.requestedGroups current := by
      constructor
      · intro every plan
        obtain ⟨⟨result, after⟩, success'⟩ := Database.persistCall_plan success plan
        have stored := every plan result after success'
        rw [Database.persistCall_groupsOf success', Option.some.injEq] at stored
        exact stored
      · intro every plan result after success'
        rw [Database.persistCall_groupsOf success', every plan]
    rw [everyPlan]
    cases hit : db.conflicting call.logical call.result.contentSha256 with
    | some entry => exact ⟨fun every => every (.first _), fun same _ => same⟩
    | none =>
        dsimp only
        constructor
        · intro every omitted row member largest
          obtain ⟨plan, picked⟩ := Top.exists_pick_iff.mpr ⟨member, largest⟩
          have settled := every plan
          rw [Database.settledGroups, omitted, picked] at settled
          exact settled
        · intro greatest plan
          rw [Database.settledGroups]
          cases asked : call.allowedGroups with
          | some groups =>
              rw [PersistCall.requestedGroups, asked, Option.getD_some, Option.getD_some]
          | none =>
              cases picked : plan.pick (db.inheritable call) with
              | none =>
                  have missing := empty.mpr ((plan.pick_eq_none _).mp picked)
                  rw [PersistCall.requestedGroups, asked, missing, Option.map_none]
              | some row =>
                  exact greatest asked row (plan.pick_mem _ row picked)
                    (plan.pick_max _ row picked)

/-- A public version, superseded by one restricted to `hr`. -/
def publicThenRestricted : List PersistCall :=
  [notesUpload [1] ["hr"] (some []), notesUpload [2] ["hr"] (some ["hr"])]

theorem publicThenRestricted_legal : ∀ call ∈ publicThenRestricted, call.Identified .spelling :=
  List.forall_mem_cons.mpr ⟨notesUpload_identified .., List.forall_mem_cons.mpr
    ⟨notesUpload_identified .., fun _ none => nomatch none⟩⟩

/-- Sending the first bytes again under the restricted list publishes them. -/
theorem reinstated_version_stays_public :
    let call := notesUpload [1] ["hr"] (some ["hr"])
    let store := InMemoryStore.empty.afterUploads publicThenRestricted
    let db := Database.empty.afterUploads (.first _) publicThenRestricted
    (InMemoryStore.Reachable (PersistCall.Identified .spelling) store ∧
      (store.documents.find? call.key).map (·.status) = some .superseded ∧
      ∃ result after, store.persistCall 0 call = .ok (result, after) ∧
        after.documents.groupsOf call result ≠ some (call.requestedGroups
          (store.currentVersion call.tenantId call.effectiveSource call.groups))) ∧
    (Database.Reachable (PersistCall.Identified .spelling) db ∧
      (db.documents.find? call.key).map (·.status) = some .superseded ∧
      ∃ current result after,
        db.currentVersion call.tenantId call.effectiveSource call.groups = .ok current ∧
        db.persistCall (.first _) (db.nextNow 0) call = .ok (result, after) ∧
        after.documents.groupsOf call result ≠ some (call.requestedGroups current)) := by
  intro call store db
  let restricted : Document :=
    { (notesUpload [2] ["hr"] none).request.created ["hr"] 2 with
      lastCheckedAt := 2, createdAt := 2, updatedAt := 2 }
  let result : PersistResult :=
    { documentId := call.key.2, chunksWritten := 0, alreadyExisted := true, version := 3,
      superseded := [restricted.documentId] }
  refine ⟨⟨InMemoryStore.Reachable.empty.afterUploads publicThenRestricted_legal, ?_, result,
      (store.step 0 (.persist call)).2, ?_, ?_⟩,
    Database.Reachable.empty.afterUploads _ publicThenRestricted_legal, ?_, some restricted,
      result, (db.step (.first _) 0 (.persist call)).2, ?_, ?_, ?_⟩ <;> decide +kernel

/-- A new version inherits the restricted list in the same two states. -/
theorem new_version_inherits :
    let call := notesUpload [3] ["hr"] none
    let store := InMemoryStore.empty.afterUploads publicThenRestricted
    let db := Database.empty.afterUploads (.first _) publicThenRestricted
    (∃ result after, store.persistCall 0 call = .ok (result, after) ∧
      after.documents.groupsOf call result = some (call.requestedGroups
        (store.currentVersion call.tenantId call.effectiveSource call.groups))) ∧
    (∃ current, db.currentVersion call.tenantId call.effectiveSource call.groups = .ok current ∧
      ∀ plan result after, db.persistCall plan (db.nextNow 0) call = .ok (result, after) →
        after.documents.groupsOf call result = some (call.requestedGroups current)) := by
  intro call store db
  let restricted : Document :=
    { (notesUpload [2] ["hr"] none).request.created ["hr"] 2 with
      lastCheckedAt := 2, createdAt := 2, updatedAt := 2 }
  let result : PersistResult :=
    { documentId := call.key.2, chunksWritten := 1, alreadyExisted := false, version := 3,
      superseded := [restricted.documentId] }
  constructor
  · have missing : store.documents.find? call.key = none := by decide +kernel
    have success : store.persistCall 0 call = .ok (result, (store.step 0 (.persist call)).2) := by
      decide +kernel
    have fresh : ∀ stored, store.documents.find? call.key ≠ some stored := by
      intro stored found
      rw [missing] at found
      cases found
    exact ⟨result, _, success, ((persist_allowedGroups_iff call).1 store _ 0 result success
      fun stored found => absurd found (fresh stored)).mpr
        fun stored found => absurd found (fresh stored)⟩
  · have noConflict : db.conflicting call.logical call.result.contentSha256 = none := by
      decide +kernel
    have success : db.persistCall (.first _) (db.nextNow 0) call =
        .ok (result, (db.step (.first _) 0 (.persist call)).2) := by decide +kernel
    obtain ⟨current, read, exact_⟩ := (persist_allowedGroups_iff call).2 db (db.nextNow 0)
      ⟨_, _, success⟩ (by simp [noConflict])
    refine ⟨current, read, exact_.mpr ?_⟩
    have restrictedRead : db.currentVersion call.tenantId call.effectiveSource call.groups =
        .ok (some restricted) := by decide +kernel
    rw [restrictedRead] at read
    cases read
    rw [noConflict]
    have onlyRestricted : ∀ row ∈ db.inheritable call, row.allowedGroups = ["hr"] := by
      decide +kernel
    intro _ row member _
    exact onlyRestricted row member

end ProductionRag
