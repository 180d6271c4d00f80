import ProductionRag.Basis.Mealy
import ProductionRag.Store.Indistinguishable

/-!
# The two stores agree

Both stores refine the same history, each with its own choices: the change marker a
repeated upload leaves, the version an omitted access list is inherited from, and
the current version a caller reads when they see several.  Where the choices cannot
differ, the stores answer alike, call after call.
-/

set_option autoImplicit false

namespace ProductionRag

open Basis

/-- The columns an API caller can compare. -/
structure Compared where
  documentId : String
  source : String
  version : Nat
  status : Status
  allowedGroups : List String
  sourceVersion : Option String
  deriving DecidableEq, Repr

def Version.compared (version : Version) : Compared where
  documentId := version.documentId
  source := version.source
  version := version.version
  status := version.status
  allowedGroups := version.allowedGroups
  sourceVersion := version.sourceVersion

/-- The rows of two answers, timestamps and order aside. -/
def sameRows (left right : List Document) : Prop :=
  (left.map (·.compared)).Perm (right.map (·.compared))

/-- The same result, its superseded ids as a set. -/
structure PersistResult.Same (left right : PersistResult) : Prop where
  documentId : left.documentId = right.documentId
  chunksWritten : left.chunksWritten = right.chunksWritten
  alreadyExisted : left.alreadyExisted = right.alreadyExisted
  version : left.version = right.version
  superseded : ∀ id, id ∈ left.superseded ↔ id ∈ right.superseded

def StoreReply.Same : StoreReply → StoreReply → Prop
  | .persisted left, .persisted right => left.Same right
  | .current left, .current right => sameRows left.toList right.toList
  | .checked, .checked => True
  | .updated found left, .updated found' right =>
    found = found' ∧ sameRows left.toList right.toList
  | .deleted found, .deleted found' => found = found'
  | .document left, .document right => sameRows left.toList right.toList
  | .documents left, .documents right => sameRows left right
  | _, _ => False

def sameAnswer : Except PyError StoreReply → Except PyError StoreReply → Prop
  | .ok left, .ok right => left.Same right
  | .error left, .error right => left = right
  | _, _ => False

/-- A call with what each store adds to it: a clock reading, and the delay and the plan
of a transaction. -/
structure TimedCall where
  call : StoreCall
  now : Time
  delay : Nat
  plan : VersionPlan

def InMemoryStore.machine : Mealy InMemoryStore TimedCall (Except PyError StoreReply) :=
  ⟨fun store timed => store.step timed.now timed.call⟩

def Database.machine : Mealy Database TimedCall (Except PyError StoreReply) :=
  ⟨fun db timed => db.step timed.plan timed.delay timed.call⟩

/-- The upload leaves the stored change marker as it is, or stores a row that inherits
the same access list from every version it may inherit from. -/
def PersistCall.Common (call : PersistCall) (versions : Versions) : Prop :=
  match versions.find? call.key with
  | some stored => call.coalesce stored.sourceVersion = stored.sourceVersion
  | none => call.RowsAllowed ∧ (call.allowedGroups = none →
      ∀ row ∈ versions.current call.logical call.groups,
        (∀ other ∈ versions.current call.logical call.groups, other.version ≤ row.version) →
          ∀ first ∈ (versions.current call.logical call.groups).head?,
            row.allowedGroups = first.allowedGroups)

/-- A call whose answer neither store's choices can change. -/
def StoreCall.Common (hash : Sha256) (versions : Versions) : StoreCall → Prop
  | .persist call => call.result.chunks = [] ∨
      call.Identified hash ∧ call.Accepted ∧ call.Common versions
  | .currentVersion tenantId source groups => strip tenantId ≠ "" ∧
      (versions.current (source.logical tenantId) groups).length ≤ 1
  | .markChecked tenantId _ => strip tenantId ≠ ""
  | .updateDocument tenantId _ _ _ _ => strip tenantId ≠ ""
  | .deleteDocument tenantId documentId groups => strip tenantId ≠ "" ∧ strip documentId ≠ "" ∧
      (strip tenantId = tenantId ∧ strip documentId = documentId ∨
        ∀ row, versions.find? (strip tenantId, strip documentId) = some row →
          row.visible groups = false)
  | .getDocument tenantId _ _ => strip tenantId ≠ ""
  | .listDocuments tenantId _ _ => strip tenantId ≠ ""

/-- The stores hold the same versions. -/
structure Agree (hash : Sha256) (store : InMemoryStore) (db : Database) : Prop where
  versions : store.documents.versions = db.documents.versions
  invariant : db.Invariant hash

theorem sameRows_of_versions {left right : List Document}
    (same : left.map (·.toVersion) = right.map (·.toVersion)) : sameRows left right := by
  have compared := congrArg (List.map Version.compared) same
  rw [List.map_map, List.map_map] at compared
  rw [sameRows]
  exact compared ▸ List.Perm.refl _

theorem sameRows_option {left right : Option Document}
    (same : left.map (·.toVersion) = right.map (·.toVersion)) :
    sameRows left.toList right.toList := by
  apply sameRows_of_versions
  rw [← Option.toList_map, ← Option.toList_map, same]

/-! ## Uploads -/

/-- Uploads agree when the stored row, or the missing one, leaves the choices no say. -/
theorem History.upload_agree {C D : Type} (left : History C) (right : History D)
    (same : left.documents = right.documents) (call : PersistCall) (content : C) (content' : D)
    {marker marker' : Option String → Option String} {allowedGroups allowedGroups' : List String}
    (markers : ∀ stored, right.documents.find? call.key = some stored →
      marker stored.sourceVersion = marker' stored.sourceVersion)
    (lists : right.documents.find? call.key = none → allowedGroups = allowedGroups') :
    (left.upload (call.requestWith content) marker allowedGroups).1 =
        (right.upload (call.requestWith content') marker' allowedGroups').1 ∧
      (left.upload (call.requestWith content) marker allowedGroups).2.documents =
        (right.upload (call.requestWith content') marker' allowedGroups').2.documents := by
  simp only [History.upload, same, PersistCall.requestWith_key]
  cases found : right.documents.find? call.key with
  | none =>
      rw [lists found]
      exact ⟨rfl, rfl⟩
  | some existing =>
      have sameMarker : ∀ value : Version, value.sourceVersion = existing.sourceVersion →
          marker value.sourceVersion = marker' value.sourceVersion := by
        intro value own
        rw [own]
        exact markers existing found
      by_cases ready : existing.isReady = true
      · simp only [ready, if_true]
        refine ⟨rfl, ?_⟩
        apply Table.modify_congr
        intro value lookup
        rw [found, Option.some.injEq] at lookup
        simp only [Version.marked, sameMarker value (by rw [lookup])]
      · simp only [ready, Bool.false_eq_true, if_false]
        refine ⟨rfl, ?_⟩
        change Table.modify _ call.key _ = _
        apply Table.modify_congr
        intro value lookup
        have own : value.sourceVersion = existing.sourceVersion := by
          rw [Table.find?_mapValues, found, Option.map_some, Option.some.injEq] at lookup
          rw [← lookup, UploadRequest.superseded]
          split <;> rfl
        simp only [UploadRequest.reinstated, sameMarker value own]
        rfl

theorem Database.inheritable_versions (db : Database) (call : PersistCall) :
    (db.inheritable call).map (·.toVersion) =
      db.documents.versions.current call.logical call.groups := by
  rw [Versions.current, Documents.versions_select, Database.inheritable]

/-- Inheriting from the first current version or from one of greatest number. -/
theorem Agree.settledGroups_eq {hash : Sha256} {store : InMemoryStore} {db : Database}
    (agree : Agree hash store db) (plan : VersionPlan) {call : PersistCall}
    (common : call.allowedGroups = none →
      ∀ row ∈ db.documents.versions.current call.logical call.groups,
        (∀ other ∈ db.documents.versions.current call.logical call.groups,
          other.version ≤ row.version) →
        ∀ first ∈ (db.documents.versions.current call.logical call.groups).head?,
          row.allowedGroups = first.allowedGroups) :
    store.settledGroups call = db.settledGroups plan call := by
  rw [InMemoryStore.settledGroups, Database.settledGroups, agree.versions]
  cases asked : call.allowedGroups with
  | some groups => rfl
  | none =>
      have rows := db.inheritable_versions call
      cases picked : plan.pick (db.inheritable call) with
      | none =>
          have empty := (plan.pick_eq_none _).mp picked
          rw [empty, List.map_nil] at rows
          rw [← rows]
          rfl
      | some row =>
          have member := plan.pick_mem _ row picked
          have largest := plan.pick_max _ row picked
          cases first : (db.documents.versions.current call.logical call.groups).head? with
          | none =>
              rw [List.head?_eq_none_iff, ← rows, List.map_eq_nil_iff] at first
              rw [first] at member
              cases member
          | some version =>
              have sameList := common asked row.toVersion
                (rows ▸ List.mem_map_of_mem member) ?_ version first
              · simp only [Option.map_some, Option.getD_some, Option.getD_none, ← sameList]
              · intro other inCurrent
                rw [← rows, List.mem_map] at inCurrent
                obtain ⟨document, inRows, rfl⟩ := inCurrent
                exact largest document inRows

/-! ## The simulation -/

theorem PersistResult.Same.refl (result : PersistResult) : result.Same result :=
  ⟨rfl, rfl, rfl, rfl, fun _ => Iff.rfl⟩

namespace Agree

variable {hash : Sha256} {store : InMemoryStore} {db : Database}

theorem persist (agree : Agree hash store db) (now : Time) (delay : Nat) (plan : VersionPlan)
    {call : PersistCall}
    (common : (StoreCall.persist call).Common hash db.documents.versions) :
    sameAnswer (store.step now (.persist call)).1 (db.step plan delay (.persist call)).1 ∧
      (store.step now (.persist call)).2.documents.versions =
        (db.step plan delay (.persist call)).2.documents.versions := by
  rcases common with empty | ⟨identified, accepted, common⟩
  · have failed : db.persistCall plan (db.nextNow delay) call =
        .error (.valueError "cannot persist an ingestion result with no chunks") := by
      simp only [Database.persistCall, Database.persist, empty]
    simp only [InMemoryStore.step, InMemoryStore.persistCall_error store now call empty,
      Database.step, failed, Database.settle]
    exact ⟨rfl, agree.versions⟩
  · have lookup := Documents.versions_find? db.documents call.key
    have allowed : db.documents.find? call.key = none → call.RowsAllowed := by
      intro missing
      rw [missing, Option.map_none] at lookup
      rw [PersistCall.Common, lookup] at common
      exact common.1
    obtain ⟨after, success, refined⟩ :=
      InMemoryStore.persistCall_refines store now call accepted.nonempty
    obtain ⟨after', success', refined'⟩ := Database.persistCall_refines plan (db.nextNow delay)
      agree.invariant (identified.requestWith _ accepted.nonempty) accepted allowed
    have markers : ∀ stored, db.documents.versions.find? call.key = some stored →
        id stored.sourceVersion = call.coalesce stored.sourceVersion := by
      intro stored found
      rw [PersistCall.Common, found] at common
      exact common.symm
    have lists : db.documents.versions.find? call.key = none →
        store.settledGroups call = db.settledGroups plan call := by
      intro missing
      rw [PersistCall.Common, missing] at common
      exact agree.settledGroups_eq plan common.2
    obtain ⟨sameResult, sameVersions⟩ := History.upload_agree store.history db.history
      agree.versions call (call.result.chunks.map (·.toChunkBody)) (call.rows.map ChunkRow.body)
      markers lists
    have versions : after.documents.versions = after'.documents.versions :=
      (congrArg History.documents refined).trans
        (sameVersions.trans (congrArg History.documents refined').symm)
    simp only [InMemoryStore.step, success, Database.step, success', Database.settle]
    refine ⟨?_, versions⟩
    change PersistResult.Same (store.history.upload (call.requestWith _) id _).1
      (db.history.upload (call.requestWith _) call.coalesce _).1
    rw [sameResult]
    exact .refl _

theorem currentVersion_rows (agree : Agree hash store db) {tenantId : String} {source : SourceRef}
    {groups : List String} (nonblank : strip tenantId ≠ "")
    (single : (db.documents.versions.current (source.logical tenantId) groups).length ≤ 1) :
    ∃ row, db.currentVersion tenantId source groups = .ok row ∧
      (store.currentVersion tenantId source groups).map (·.toVersion) =
        row.map (·.toVersion) := by
  have left := store.currentVersion_refines tenantId source groups
  have right := agree.invariant.currentVersion_refines nonblank source groups
  cases out : db.currentVersion tenantId source groups with
  | error e =>
      rw [out] at right
      cases right
  | ok row =>
      rw [out, Except.map, Except.ok.injEq] at right
      refine ⟨row, rfl, ?_⟩
      rw [left, right, InMemoryStore.history, Database.history, agree.versions]
      rcases rows : db.documents.versions.current (source.logical tenantId) groups with
        _ | ⟨_, _ | ⟨_, _⟩⟩
      · rfl
      · rfl
      · rw [rows] at single
        simp at single

theorem currentVersion (agree : Agree hash store db) {tenantId : String} {source : SourceRef}
    {groups : List String} (nonblank : strip tenantId ≠ "")
    (single : (db.documents.versions.current (source.logical tenantId) groups).length ≤ 1) :
    sameAnswer (.ok (.current (store.currentVersion tenantId source groups)))
      ((db.currentVersion tenantId source groups).map .current) := by
  obtain ⟨row, read, same⟩ := agree.currentVersion_rows nonblank single
  rw [read]
  exact sameRows_option same

theorem getDocument (agree : Agree hash store db) {tenantId : String}
    (nonblank : strip tenantId ≠ "") (documentId : String) (groups : List String) :
    sameAnswer (.ok (.document (store.getDocument tenantId documentId groups)))
      ((db.getDocument tenantId documentId groups).map .document) := by
  rw [agree.invariant.getDocument_eq nonblank]
  refine sameRows_option ?_
  rw [store.getDocument_refines, InMemoryStore.history, agree.versions,
    Documents.versions_find?_visible]

theorem listDocuments (agree : Agree hash store db) {tenantId : String}
    (nonblank : strip tenantId ≠ "") (groups : List String) (includeSuperseded : Bool) :
    sameAnswer (.ok (.documents (store.listDocuments tenantId groups includeSuperseded)))
      ((db.listDocuments tenantId groups includeSuperseded).map .documents) := by
  let listed : DocumentKey → Version → Bool := fun key version =>
    key.1 == tenantId && version.visible groups && (includeSuperseded || version.isReady)
  have left := Documents.versions_select store.documents listed
  have right := Documents.versions_select db.documents listed
  rw [agree.versions, right] at left
  rw [Database.listDocuments, agree.invariant.selectDocuments_eq nonblank]
  have sorted : (store.listDocuments tenantId groups includeSuperseded).Perm
      (store.documents.select fun key document => listed key document.toVersion) :=
    List.perm_insertionSort _ _
  have reversed : (db.documents.select fun key document =>
      listed key document.toVersion).reverse.Perm
      (db.documents.select fun key document => listed key document.toVersion) :=
    List.reverse_perm _
  exact (sorted.map _).trans ((sameRows_of_versions left.symm).trans (reversed.map _).symm)

theorem updateDocument (agree : Agree hash store db) {tenantId : String}
    (nonblank : strip tenantId ≠ "") (documentId : String) (groups : List String)
    (allowedGroups : Option (List String)) (displayName : Option String) (now : Time)
    (delay : Nat) (plan : VersionPlan) :
    let call := StoreCall.updateDocument tenantId documentId groups allowedGroups displayName
    sameAnswer (store.step now call).1 (db.step plan delay call).1 ∧
      (store.step now call).2.documents.versions =
        (db.step plan delay call).2.documents.versions := by
  intro call
  have memory := store.updateDocument_refines tenantId documentId groups allowedGroups
    displayName now
  have postgres := agree.invariant.updateDocument_eq nonblank documentId groups allowedGroups
    displayName (db.lt_nextNow delay)
  have lookup := Documents.versions_find? db.documents (tenantId, documentId)
  have sameHistory : store.history.documents = db.documents.versions := agree.versions
  simp only [InMemoryStore.step, Database.step, call]
  dsimp only at memory
  rw [sameHistory, lookup] at memory
  cases found : db.documents.find? (tenantId, documentId) with
  | none =>
      rw [found] at memory postgres
      obtain ⟨answer, unchanged⟩ := memory
      simp only [Option.filter_none] at postgres
      rw [answer, unchanged, postgres]
      exact ⟨⟨rfl, sameRows_option rfl⟩, agree.versions⟩
  | some existing =>
      rw [found] at memory postgres
      simp only [Option.map_some, Option.filter_some] at memory postgres
      by_cases visible : existing.visible groups = true
      · simp only [visible, if_true] at memory postgres
        obtain ⟨refined, wasFound, row⟩ := memory
        have patched := agree.invariant.patchedAt_history tenantId existing.toVersion groups
          allowedGroups displayName (db.nextNow delay)
        have samePatch : (store.history.patch
              (InMemoryStore.logicalOf tenantId existing.toVersion) groups allowedGroups
              displayName).documents =
            (db.history.patch (InMemoryStore.logicalOf tenantId existing.toVersion) groups
              allowedGroups displayName).documents := by
          simp only [History.patch, sameHistory]
          rfl
        have versions := (congrArg History.documents refined).trans
          (samePatch.trans (congrArg History.documents patched).symm)
        rw [postgres]
        refine ⟨⟨wasFound, sameRows_option ?_⟩, versions⟩
        rw [row, samePatch, ← congrArg History.documents patched]
        exact Documents.versions_find?_visible _ _ _
      · simp only [visible, Bool.false_eq_true, if_false] at memory postgres
        obtain ⟨answer, unchanged⟩ := memory
        rw [answer, unchanged, postgres]
        exact ⟨⟨rfl, sameRows_option rfl⟩, agree.versions⟩

/-- Stored ids have no blanks around them. -/
theorem trimmed_of_found (agree : Agree hash store db) {tenantId documentId : String}
    {version : Version}
    (found : db.documents.versions.find? (tenantId, documentId) = some version) :
    strip tenantId = tenantId ∧ strip documentId = documentId := by
  have row := agree.invariant.identified _ version (Table.find?_eq_some_iff.mp found)
  obtain ⟨source, _, _, named⟩ := row.named
  refine ⟨row.tenant_trimmed, ?_⟩
  change documentId = _ at named
  rw [named]
  exact hash.strip_hexdigest24 _

/-- A deletable row is the same for both stores. -/
theorem deletable_eq (agree : Agree hash store db) {tenantId documentId : String}
    {groups : List String}
    (spelled : strip tenantId = tenantId ∧ strip documentId = documentId ∨
      ∀ row, db.documents.versions.find? (strip tenantId, strip documentId) = some row →
        row.visible groups = false) :
    (db.documents.versions.find? (strip tenantId, strip documentId)).filter (·.visible groups) =
      (db.documents.versions.find? (tenantId, documentId)).filter (·.visible groups) := by
  rcases spelled with ⟨tenant, document⟩ | hidden
  · rw [tenant, document]
  · have none : (db.documents.versions.find? (strip tenantId, strip documentId)).filter
        (·.visible groups) = none := by
      rw [Option.filter_eq_none_iff]
      intro row found
      rw [hidden row found]
      exact Bool.false_ne_true
    rw [none, eq_comm, Option.filter_eq_none_iff]
    intro row found
    obtain ⟨tenant, document⟩ := agree.trimmed_of_found found
    rw [← tenant, ← document] at found
    rw [hidden row found]
    exact Bool.false_ne_true

theorem deleteDocument (agree : Agree hash store db) {tenantId documentId : String}
    {groups : List String} (now : Time) (delay : Nat) (plan : VersionPlan)
    (common : (StoreCall.deleteDocument tenantId documentId groups).Common hash
      db.documents.versions) :
    let call := StoreCall.deleteDocument tenantId documentId groups
    sameAnswer (store.step now call).1 (db.step plan delay call).1 ∧
      (store.step now call).2.documents.versions =
        (db.step plan delay call).2.documents.versions := by
  intro call
  obtain ⟨nonblank, named, spelled⟩ := common
  have postgres := db.deleteDocument_refines groups (db.nextNow delay) nonblank named
  have memory := store.getDocument_refines tenantId documentId groups
  have sameHistory : store.history.documents = db.documents.versions := agree.versions
  have sameHistory' : db.history.documents = db.documents.versions := rfl
  rw [sameHistory] at memory
  dsimp only at postgres
  rw [sameHistory', agree.deletable_eq spelled] at postgres
  simp only [InMemoryStore.step, Database.step, InMemoryStore.deleteDocument, call]
  cases found : (db.documents.versions.find? (tenantId, documentId)).filter
      (·.visible groups) with
  | none =>
      rw [found] at memory postgres
      rw [Option.map_eq_none_iff.mp memory, postgres]
      exact ⟨rfl, agree.versions⟩
  | some row =>
      rw [found] at memory postgres
      obtain ⟨document, seen, _⟩ := Option.map_eq_some_iff.mp memory
      obtain ⟨after, success, refined, _, _⟩ := postgres
      obtain ⟨tenant, id⟩ := agree.trimmed_of_found (Option.filter_eq_some_iff.mp found).1
      rw [seen, success]
      refine ⟨rfl, ?_⟩
      have versions := congrArg History.documents refined
      rw [tenant, id] at versions
      rw [Documents.versions_erase, agree.versions]
      exact versions.symm

theorem markChecked (agree : Agree hash store db) {tenantId : String}
    (nonblank : strip tenantId ≠ "") (documentId : String) (now : Time) (delay : Nat)
    (plan : VersionPlan) :
    let call := StoreCall.markChecked tenantId documentId
    sameAnswer (store.step now call).1 (db.step plan delay call).1 ∧
      (store.step now call).2.documents.versions =
        (db.step plan delay call).2.documents.versions := by
  intro call
  have memory := store.markChecked_refines tenantId documentId now
  simp only [InMemoryStore.step, Database.step, call]
  cases out : db.markChecked tenantId documentId (db.nextNow delay) with
  | error e =>
      simp only [Database.markChecked, setTenant, nonblank, if_false, bind, Except.bind] at out
      cases out
  | ok after =>
      obtain ⟨postgres, _, _⟩ := Database.markChecked_refines out
      exact ⟨trivial, (congrArg History.documents memory).trans
        (agree.versions.trans (congrArg History.documents postgres).symm)⟩

theorem invariant_step (agree : Agree hash store db) {call : StoreCall} {delay : Nat}
    {plan : VersionPlan} (common : call.Common hash db.documents.versions) :
    (db.step plan delay call).2.Invariant hash := by
  have legal : call.Legal (PersistCall.Identified hash) →
      (db.step plan delay call).2.Invariant hash :=
    agree.invariant.step (fun _ identified => identified) plan delay call
  cases call with
  | persist call =>
      rcases common with empty | ⟨identified, _, _⟩
      · have failed : db.persistCall plan (db.nextNow delay) call =
            .error (.valueError "cannot persist an ingestion result with no chunks") := by
          simp only [Database.persistCall, Database.persist, empty]
        simp only [Database.step, failed, Database.settle]
        exact agree.invariant
      · exact legal identified
  | _ => exact legal trivial

end Agree

/-- Calls that neither store's choices can change keep the stores in agreement. -/
theorem stores_simulation (hash : Sha256) :
    InMemoryStore.machine.Simulation Database.machine
      (fun db timed => timed.call.Common hash db.documents.versions) sameAnswer
      (Agree hash) := by
  have stepwise : ∀ (store : InMemoryStore) (db : Database) (timed : TimedCall),
      Agree hash store db → timed.call.Common hash db.documents.versions →
      sameAnswer (store.step timed.now timed.call).1
          (db.step timed.plan timed.delay timed.call).1 ∧
        (store.step timed.now timed.call).2.documents.versions =
          (db.step timed.plan timed.delay timed.call).2.documents.versions := by
    rintro store db ⟨call, now, delay, plan⟩ agree common
    dsimp only at common ⊢
    cases call with
    | persist call => exact agree.persist now delay plan common
    | currentVersion tenantId source groups =>
        simp only [InMemoryStore.step, Database.step]
        exact ⟨agree.currentVersion common.1 common.2, agree.versions⟩
    | markChecked tenantId documentId =>
        exact agree.markChecked common documentId now delay plan
    | updateDocument tenantId documentId groups allowedGroups displayName =>
        exact agree.updateDocument common documentId groups allowedGroups displayName now delay
          plan
    | deleteDocument tenantId documentId groups => exact agree.deleteDocument now delay plan common
    | getDocument tenantId documentId groups =>
        simp only [InMemoryStore.step, Database.step]
        exact ⟨agree.getDocument common documentId groups, agree.versions⟩
    | listDocuments tenantId groups includeSuperseded =>
        simp only [InMemoryStore.step, Database.step]
        exact ⟨agree.listDocuments common groups includeSuperseded, agree.versions⟩
  constructor
  · intro store db timed agree common
    exact (stepwise store db timed agree common).1
  · intro store db timed agree common
    exact ⟨(stepwise store db timed agree common).2, agree.invariant_step common⟩

theorem Agree.empty (hash : Sha256) : Agree hash .empty .empty :=
  ⟨rfl, Database.Invariant.empty hash⟩

def TimedCall.at (call : StoreCall) : TimedCall := ⟨call, 0, 0, .first _⟩

/-- One document under a change marker, by its public uploader. -/
def markedUpload (version : Option String) : PersistCall :=
  .single .spelling [1] "t" "notes.txt" { id := "n", version } [] (some [])

end ProductionRag
