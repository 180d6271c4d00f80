import ProductionRag.Api.Reupload
import ProductionRag.Store.Agreement

/-!
# The change marker

A source may send a marker of its own with each upload, and an upload under the marker of
the current version is skipped before anything is parsed.  The marker is written where a row is
inserted; PostgreSQL writes it on a repeated upload as well.  An upload that is skipped
because of its bytes writes none.
-/

set_option autoImplicit false

namespace ProductionRag

open Basis

/-- The key an upload of `data` is stored under. -/
def JobPayload.rowKey (job : JobPayload) (hash : Sha256) (data : List UInt8) : DocumentKey :=
  (strip job.tenantId, job.source.documentId hash (hash.hexdigest data))

/-- Whatever is current holds other bytes, and gives way: the uploaded ones are not ready. -/
def JobPayload.Replaces (job : JobPayload) (hash : Sha256) (data : List UInt8)
    (before : Versions) (current : Option Version) : Prop :=
  ∀ row ∈ current, row.contentSha256 ≠ hash.hexdigest data ∧
    ∀ stored ∈ before.find? (job.rowKey hash data), stored.status ≠ .ready

/-- A row the upload brings back for its uploader has the marker by then. -/
def JobPayload.BringsBack (job : JobPayload) (hash : Sha256) (data : List UInt8)
    (marker : Option String → Option String) (version : String) (before : Versions) : Prop :=
  ∀ stored ∈ before.find? (job.rowKey hash data), stored.status = .superseded →
    stored.versionOf (job.source.logical job.tenantId) job.groups (job.rowKey hash data) = true →
      marker stored.sourceVersion = some version

/-- When the upload leaves its marker behind: it is there already, or gets written. -/
def JobPayload.KeepsMarker (job : JobPayload) (hash : Sha256) (data : List UInt8)
    (marker : Option String → Option String) (version : String) (before : Versions)
    (current : Option Version) : Prop :=
  (∃ row ∈ current, row.sourceVersion = some version) ∨
    job.Replaces hash data before current ∧ job.BringsBack hash data marker version before

/-- Picking one row of a list by its place. -/
structure Picks (choice : List Version → Option Version) : Prop where
  none : choice [] = none
  one : ∀ row, choice [row] = some row
  map : ∀ (f : Version → Version) (rows : List Version), choice (rows.map f) = (choice rows).map f

theorem Picks.head? : Picks List.head? := ⟨rfl, fun _ => rfl, fun _ _ => List.head?_map⟩

theorem Picks.getLast? : Picks List.getLast? := ⟨rfl, fun _ => rfl, fun _ _ => List.getLast?_map⟩

/-! ## What an upload does to the current markers -/

section Upload

variable {C : Type} {hash : Sha256} {history : History C} {call : PersistCall} {content : C}
  {marker : Option String → Option String} {allowedGroups : List String}

/-- When the uploaded bytes are found ready, the same versions are current. -/
theorem uploaded_current_of_ready (identified : history.documents.Identified hash)
    (own : (call.requestWith content).Identified hash)
    (ready : (call.requestWith content).alreadyReady history.documents = true) :
    (history.uploaded (call.requestWith content) marker allowedGroups).current call.logical
        call.groups =
      (history.documents.current call.logical call.groups).map fun row =>
        if row.contentSha256 = call.result.contentSha256 then row.marked marker else row := by
  obtain ⟨existing, found, isReady⟩ := (Option.any_eq_true _ _).mp ready
  have marked : history.uploaded (call.requestWith content) marker allowedGroups =
      history.documents.modify call.key (Version.marked marker) := by
    simp only [History.uploaded, History.upload, found, isReady, if_true]
    rfl
  have selected : ∀ entry : DocumentKey × Version,
      ((if entry.1 = call.key then entry.2.marked marker else entry.2).versionOf call.logical
          call.groups entry.1 &&
        (if entry.1 = call.key then entry.2.marked marker else entry.2).isReady) =
      (entry.2.versionOf call.logical call.groups entry.1 && entry.2.isReady) := by
    intro entry
    split <;> rfl
  rw [marked, Versions.current, Versions.current, Table.modify, Table.select_mapValues,
    Table.select, List.map_map]
  simp only [selected]
  apply List.map_congr_left
  rintro ⟨key, row⟩ member
  obtain ⟨stored, sees⟩ := List.mem_filter.mp member
  rw [Bool.and_eq_true] at sees
  have belongs := (Version.versionOf_iff.mp sees.1).1
  have ownKey := UploadRequest.key_eq_iff own (identified key row stored)
  by_cases same : row.contentSha256 = call.result.contentSha256
  · have isOwn : key = call.key := ownKey.mp ⟨belongs, same⟩
    simp only [Function.comp_apply, if_pos same, if_pos isOwn]
  · have other : key ≠ call.key := fun isOwn => same (ownKey.mpr isOwn).2
    simp only [Function.comp_apply, if_neg same, if_neg other]

/-- Otherwise the uploaded row is the one that is current. -/
theorem uploaded_current_of_not_ready (identified : history.documents.Identified hash)
    (own : (call.requestWith content).Identified hash)
    (notReady : (call.requestWith content).alreadyReady history.documents = false) :
    let row := (call.requestWith content).ownRow marker allowedGroups history.documents
    (history.uploaded (call.requestWith content) marker allowedGroups).current call.logical
        call.groups = if row.visible call.groups then [row] else [] := by
  intro row
  have only : (history.uploaded (call.requestWith content) marker allowedGroups).OnlyReady
      call.logical call.groups call.key :=
    (uploaded_onlyReady_iff identified).mpr fun ready =>
      Bool.noConfusion (notReady.symm.trans ready)
  exact only.current_eq
    (history.uploaded_self (call.requestWith content) marker allowedGroups identified.ownId)
    (ownRow_holds identified own).1 (UploadRequest.ownRow_ready ..)

/-- The marker of what is current after an upload that was not skipped. -/
theorem uploaded_marker_iff {choice : List Version → Option Version} (picks : Picks choice)
    (identified : history.documents.Identified hash)
    (own : (call.requestWith content).Identified hash) {version : String}
    (given : call.effectiveSource.version = some version)
    (changed : ∀ row ∈ choice (history.documents.current call.logical call.groups),
      row.sourceVersion ≠ some version ∧ row.contentSha256 ≠ call.result.contentSha256) :
    (∀ row ∈ choice ((history.uploaded (call.requestWith content) marker allowedGroups).current
        call.logical call.groups), row.sourceVersion = some version) ↔
      (∀ row ∈ choice (history.documents.current call.logical call.groups),
        ∀ stored ∈ history.documents.find? call.key, stored.status ≠ .ready) ∧
      ∀ stored ∈ history.documents.find? call.key, stored.status = .superseded →
        stored.visible call.groups = true → marker stored.sourceVersion = some version := by
  have sameKey : (call.requestWith content).key = call.key := rfl
  cases ready : (call.requestWith content).alreadyReady history.documents with
  | true =>
      obtain ⟨existing, found, isReady⟩ := (Option.any_eq_true _ _).mp ready
      rw [sameKey] at found
      have status := (Version.isReady_iff existing).mp isReady
      rw [uploaded_current_of_ready identified own ready, picks.map, found]
      cases current : choice (history.documents.current call.logical call.groups) with
      | none => simp [status]
      | some row =>
          obtain ⟨oldMarker, otherBytes⟩ := changed row current
          simp [otherBytes, oldMarker, status]
  | false =>
      rw [uploaded_current_of_not_ready identified own ready, ownRow_visible]
      cases found : history.documents.find? call.key with
      | none =>
          have written : ((call.requestWith content).ownRow marker allowedGroups
              history.documents).sourceVersion = some version := by
            simp only [UploadRequest.ownRow, sameKey, found]
            exact given
          dsimp only
          split
          · simp [picks.one, written]
          · simp [picks.none]
      | some stored =>
          have status : stored.status = .superseded := by
            cases isStatus : stored.status with
            | superseded => rfl
            | ready =>
                rw [UploadRequest.alreadyReady, sameKey, found, Option.any_some,
                  (Version.isReady_iff stored).mpr isStatus] at ready
                cases ready
          have isReady : stored.isReady = false := by simp [Version.isReady, status]
          have kept : ((call.requestWith content).ownRow marker allowedGroups
              history.documents).sourceVersion = marker stored.sourceVersion := by
            simp only [UploadRequest.ownRow, sameKey, found, isReady, Bool.false_eq_true, if_false]
            rfl
          cases visible : stored.visible call.groups with
          | true => simp [visible, picks.one, kept, status]
          | false => simp [visible, picks.none, status]

end Upload

/-- Rows are stored under the trimmed name of their tenant. -/
theorem Versions.Identified.current_eq_nil {hash : Sha256} {versions : Versions}
    (identified : versions.Identified hash) (logical : LogicalDocument)
    (untrimmed : strip logical.tenantId ≠ logical.tenantId) (groups : List String) :
    versions.current logical groups = [] := by
  rw [List.eq_nil_iff_forall_not_mem]
  intro row member
  obtain ⟨key, stored, sees, _⟩ := Versions.mem_current.mp member
  have tenant := (Version.belongsTo_iff.mp (Version.versionOf_iff.mp sees).1).1
  apply untrimmed
  rw [← tenant]
  exact (identified key row stored).tenant_trimmed

theorem isUnchanged_of_marked (hash : Sha256) {source : SourceRef} {version : String}
    (given : source.version = some version) (data : List UInt8) {current : Version}
    (marked : current.sourceVersion = some version) :
    isUnchanged hash source data current = true := by
  simp [isUnchanged, given, marked]

/-- An upload that is not skipped differs from what is current. -/
theorem changed_of_filter_eq_none {hash : Sha256} {source : SourceRef} {data : List UInt8}
    {current : Option Document}
    (differs : (current.filter fun row => isUnchanged hash source data row.toVersion) = none) :
    ∀ row ∈ current.map (·.toVersion), isUnchanged hash source data row = false := by
  intro row member
  obtain ⟨document, isCurrent, rfl⟩ := Option.map_eq_some_iff.mp member
  exact eq_false_of_ne_true (Option.filter_eq_none_iff.mp differs document isCurrent)

/-- A skipped upload keeps the marker of what it found, and so has to find its own. -/
theorem keepsMarker_of_unchanged {job : JobPayload} {hash : Sha256} {data : List UInt8}
    {version : String} (given : job.sourceVersion = some version) {row : Version}
    (same : isUnchanged hash job.source data row = true)
    (marker : Option String → Option String) (before : Versions) :
    job.KeepsMarker hash data marker version before (some row) ↔
      row.sourceVersion = some version := by
  have ownVersion : job.source.version = some version := given
  constructor
  · rintro (⟨_, ⟨⟩, marked⟩ | ⟨replaces, _⟩)
    · exact marked
    · have otherBytes := (replaces row rfl).1
      simpa [isUnchanged, ownVersion, otherBytes] using same
  · intro marked
    exact Or.inl ⟨row, rfl, marked⟩

section Stored

variable {C : Type} {hash : Sha256} {history : History C} {call : PersistCall} {content : C}
  {marker : Option String → Option String} {allowedGroups : List String}
  {job : JobPayload} {data : List UInt8}

theorem JobPayload.Prepares.key_eq (prepares : job.Prepares hash data call) :
    call.key = job.rowKey hash data := by
  rw [PersistCall.key, rowKey, prepares.tenant, prepares.documentId]

/-- The marker of what is current once the job has stored its upload. -/
theorem stored_marker_iff {choice : List Version → Option Version} (picks : Picks choice)
    (identified : history.documents.Identified hash) (prepares : job.Prepares hash data call)
    (identified' : (history.uploaded (call.requestWith content) marker
      allowedGroups).Identified hash)
    {version : String} (given : job.sourceVersion = some version)
    (changed : ∀ row ∈ choice (history.documents.current (job.source.logical job.tenantId)
      job.groups), isUnchanged hash job.source data row = false) :
    (∀ row ∈ choice ((history.uploaded (call.requestWith content) marker allowedGroups).current
        (job.source.logical job.tenantId) job.groups), row.sourceVersion = some version) ↔
      job.KeepsMarker hash data marker version history.documents
        (choice (history.documents.current (job.source.logical job.tenantId) job.groups)) := by
  have own := prepares.identified.requestWith content prepares.nonempty
  have ownVersion : job.source.version = some version := given
  rw [JobPayload.KeepsMarker, or_iff_right]
  swap
  · rintro ⟨row, member, marked⟩
    have differs := changed row member
    rw [isUnchanged_of_marked hash ownVersion data marked] at differs
    cases differs
  by_cases trimmed : strip job.tenantId = job.tenantId
  · have logical : call.logical = job.source.logical job.tenantId := by
      rw [PersistCall.logical, prepares.source, prepares.tenant, trimmed]
    have outdated : ∀ row ∈ choice (history.documents.current (job.source.logical job.tenantId)
        job.groups), row.sourceVersion ≠ some version ∧
        row.contentSha256 ≠ call.result.contentSha256 := by
      intro row member
      have differs := changed row member
      simp only [isUnchanged, ownVersion, Option.isSome_some, Bool.true_and, Bool.or_eq_false_iff,
        beq_eq_false_iff_ne] at differs
      rwa [prepares.digest]
    rw [← logical, ← prepares.groups] at outdated ⊢
    rw [uploaded_marker_iff picks identified own (prepares.source ▸ ownVersion) outdated,
      logical, prepares.groups, prepares.key_eq]
    rw [logical, prepares.groups] at outdated
    refine and_congr ?_ ?_
    · refine forall₂_congr fun row member => ?_
      have otherBytes := (outdated row member).2
      rw [prepares.digest] at otherBytes
      exact (and_iff_right otherBytes).symm
    · refine forall₃_congr fun stored found status => ?_
      have belongs : stored.belongsTo (job.source.logical job.tenantId)
          (job.rowKey hash data) = true := by
        have row := identified _ stored (Table.find?_eq_some_iff.mp found)
        rw [← logical]
        exact ((UploadRequest.key_eq_iff own row).mpr prepares.key_eq.symm).1
      rw [Version.versionOf, belongs, Bool.true_and]
  · have empty := identified.current_eq_nil (job.source.logical job.tenantId) trimmed
      job.groups
    have empty' := identified'.current_eq_nil (job.source.logical job.tenantId) trimmed
      job.groups
    rw [empty', picks.none]
    refine iff_of_true (by simp) ⟨?_, ?_⟩
    · intro row member
      rw [empty, picks.none] at member
      cases member
    · intro stored found status sees
      exact absurd (Version.belongsTo_iff.mp (Version.versionOf_iff.mp sees).1).1 trimmed

end Stored

/-! ## The upload after it -/

/-- A later upload of the same document by the same uploader, under the marker. -/
structure JobPayload.Follows (next job : JobPayload) (version : String) : Prop where
  logical : next.source.logical next.tenantId = job.source.logical job.tenantId
  groups : next.groups = job.groups
  version : next.sourceVersion = some version
  content : next.contentBase64.isSome = true

/-- What the uploader sees carries the marker, and the next upload under it is answered with what
they see, whatever its bytes and whatever a parser would say of them. -/
def JobPayload.Remembered (job : JobPayload) (version : String) (sees : Document → Prop)
    (answers : JobPayload → Except PyError JobResult → Prop) : Prop :=
  ∀ row, sees row → row.sourceVersion = some version ∧
    ∀ next, next.Follows job version → ∀ answer, answers next answer →
      answer = .ok (unchangedResult row)

namespace InMemoryStore

variable {store : InMemoryStore} {hash : Sha256} {job next : JobPayload} {version : String}

/-- Some run of the job over the store answers so. -/
def Answers (store : InMemoryStore) (job : JobPayload) (answer : Except PyError JobResult) : Prop :=
  ∃ services uuid4 createdAt turns, (store.ingest services uuid4 createdAt turns job).1 = answer

theorem remembered_iff :
    job.Remembered version
        (fun row => store.currentVersion job.tenantId job.source job.groups = some row)
        store.Answers ↔
      ∀ row ∈ (store.documents.versions.current (job.source.logical job.tenantId) job.groups).head?,
        row.sourceVersion = some version := by
  have first := store.currentVersion_refines job.tenantId job.source job.groups
  constructor
  · intro remembered row member
    have read := first.trans (Option.mem_def.mp member)
    obtain ⟨document, sees, rfl⟩ := Option.map_eq_some_iff.mp read
    exact (remembered document sees).1
  · intro marked document sees
    have isMarked : document.sourceVersion = some version := by
      apply marked document.toVersion
      rw [sees, Option.map_some] at first
      exact first.symm
    refine ⟨isMarked, ?_⟩
    rintro next follows _ ⟨services, uuid4, createdAt, turns, rfl⟩
    obtain ⟨data, content⟩ := Option.isSome_iff_exists.mp follows.content
    have tenant : next.tenantId = job.tenantId := congrArg LogicalDocument.tenantId follows.logical
    have found : store.upToDate services.hash next data = some document := by
      refine Option.filter_eq_some_iff.mpr ⟨?_, ?_⟩
      · rw [currentVersion, follows.logical, follows.groups]
        exact sees
      · exact isUnchanged_of_marked _ follows.version data isMarked
    rw [ingest_eq store services uuid4 createdAt turns content, found]

end InMemoryStore

/-! ## One upload over PostgreSQL -/

namespace Database

variable {db : Database} {hash : Sha256} {job next : JobPayload} {version : String}

/-- The store methods as one machine; each transaction comes with its plan and its delay. -/
def timedCalls : Mealy Database (StoreCall × (VersionPlan × Nat)) (Except PyError StoreReply) where
  step db event := db.step event.2.1 event.2.2 event.1

/-- A job that runs alone. -/
def ingest (db : Database) (services : Services) (uuid4 : Nat → String) (createdAt : Time)
    (turns : Nat → VersionPlan × Nat) (job : JobPayload) : Except PyError JobResult × Database :=
  (ingestDocument services uuid4 createdAt job).run timedCalls turns db

def Answers (db : Database) (job : JobPayload) (answer : Except PyError JobResult) : Prop :=
  ∃ services uuid4 createdAt turns, (db.ingest services uuid4 createdAt turns job).1 = answer

/-- Reading what is current fails for a blank tenant only. -/
theorem nonblank_of_currentVersion {tenantId : String} {source : SourceRef} {groups : List String}
    {current : Option Document} (read : db.currentVersion tenantId source groups = .ok current) :
    strip tenantId ≠ "" := by
  intro blank
  simp only [currentVersion, selectDocuments, if_pos blank, Except.map] at read
  cases read

theorem run_storeCall {α β : Type} (call : StoreCall) (expect : StoreReply → Option β)
    (next : β → StoreProgram (Except PyError α)) (turns : Nat → VersionPlan × Nat) :
    (storeCall call expect next).run timedCalls turns db =
      match db.step (turns 0).1 (turns 0).2 call with
      | (.error e, after) => (.error e, after)
      | (.ok reply, after) =>
        match expect reply with
        | some value => (next value).run timedCalls (fun n => turns (n + 1)) after
        | none => (.error (.typeError "unexpected reply"), after) := by
  have stepped : timedCalls.step db (call, turns 0) = db.step (turns 0).1 (turns 0).2 call := rfl
  rw [storeCall, Program.run, stepped]
  rcases db.step (turns 0).1 (turns 0).2 call with ⟨_ | reply, after⟩
  · rfl
  · dsimp only
    cases expect reply <;> rfl

theorem ingest_eq (services : Services) (uuid4 : Nat → String) (createdAt : Time)
    (turns : Nat → VersionPlan × Nat) {data : List UInt8}
    (content : job.contentBase64 = some data) :
    db.ingest services uuid4 createdAt turns job =
      match db.currentVersion job.tenantId job.source job.groups with
      | .error e => (.error e, db)
      | .ok current =>
        match current.filter fun row => isUnchanged services.hash job.source data row.toVersion with
        | some row => (unchanged job row).run timedCalls (fun n => turns (n + 1)) db
        | none =>
          match prepare services uuid4 createdAt job data with
          | .error e => (.error e, db)
          | .ok call =>
            match db.persistCall (turns 1).1 (db.nextNow (turns 1).2) call with
            | .error e => (.error e, db)
            | .ok (stored, after) => (.ok (storedResult job call stored), after) := by
  simp only [ingest, ingestDocument, content, run_storeCall, step]
  cases read : db.currentVersion job.tenantId job.source job.groups with
  | error e => rfl
  | ok current =>
      simp only [Except.map, StoreReply.current?, ingestAfterRead]
      cases upToDate : current.filter fun row =>
          isUnchanged services.hash job.source data row.toVersion with
      | some row => rfl
      | none =>
          cases prepared : prepare services uuid4 createdAt job data with
          | error e => rfl
          | ok call =>
              simp only [run_storeCall, step, Nat.zero_add]
              cases persisted : db.persistCall (turns 1).1 (db.nextNow (turns 1).2) call with
              | error e => rfl
              | ok out => rfl

/-- Marking a document checked succeeds, and changes no version. -/
theorem Invariant.step_markChecked (invariant : db.Invariant hash) {tenantId : String}
    (nonblank : strip tenantId ≠ "") (documentId : String) (plan : VersionPlan) (delay : Nat) :
    ∃ checked, db.step plan delay (.markChecked tenantId documentId) = (.ok .checked, checked) ∧
      checked.Invariant hash ∧ checked.documents.versions = db.documents.versions := by
  obtain ⟨checked, success⟩ : ∃ checked, db.markChecked tenantId documentId
      (db.nextNow delay) = .ok checked := by
    simp only [Database.markChecked, setTenant, nonblank, if_false]
    exact ⟨_, rfl⟩
  have stepped : db.step plan delay (.markChecked tenantId documentId) =
      (.ok .checked, checked) := by
    simp only [Database.step, success, Except.map, settle]
  refine ⟨checked, stepped, ?_, congrArg History.documents (markChecked_refines success).1⟩
  have identified : ∀ call, PersistCall.Identified hash call → call.Identified hash :=
    fun _ legal => legal
  have kept := invariant.step identified plan delay (.markChecked tenantId documentId) trivial
  rwa [stepped] at kept

/-- Renaming what is current succeeds, and renames it only. -/
theorem Invariant.step_rename (invariant : db.Invariant hash) {source : SourceRef}
    {tenantId : String} {groups : List String} (nonblank : strip tenantId ≠ "") {row : Document}
    (current : row.toVersion ∈ db.documents.versions.current (source.logical tenantId) groups)
    (filename : String) (plan : VersionPlan) (delay : Nat) :
    ∃ shown after, db.step plan delay (.updateDocument tenantId row.documentId groups none
        (some filename)) = (.ok (.updated true shown), after) ∧
      after.Invariant hash ∧
      after.documents.versions.current (source.logical tenantId) groups =
        (db.documents.versions.current (source.logical tenantId) groups).map
          (History.patched none (some filename)) := by
  obtain ⟨found, sees, _⟩ := invariant.identified.current_stored current
  have later := db.lt_nextNow delay
  have updated := invariant.updateDocument_eq nonblank row.documentId groups none
    (some filename) later
  have lookup := Documents.versions_find? db.documents (tenantId, row.documentId)
  rw [found] at lookup
  obtain ⟨document, isStored, sameRow⟩ := Option.map_eq_some_iff.mp lookup.symm
  have visible : document.visible groups = true := by
    rw [sameRow]
    exact (Version.versionOf_iff.mp sees).2
  have logical : InMemoryStore.logicalOf tenantId document.toVersion = source.logical tenantId := by
    obtain ⟨_, system, id⟩ := Version.belongsTo_iff.mp (Version.versionOf_iff.mp sees).1
    rw [InMemoryStore.logicalOf, sameRow, system, id]
    rfl
  rw [isStored, Option.filter_some, if_pos visible] at updated
  have versions := congrArg History.documents (invariant.patchedAt_history tenantId
    document.toVersion groups none (some filename) (db.nextNow delay))
  rw [logical] at versions
  have renames := InMemoryStore.patch_current db.history (source.logical tenantId) groups
    (some filename)
  rw [← versions, history, history] at renames
  refine ⟨((db.patchedAt tenantId document.toVersion groups none (some filename)
      (db.nextNow delay)).documents.find? (tenantId, row.documentId)).filter (·.visible groups),
    _, ?_, invariant.patchedAt _ _ _ _ _ later, renames⟩
  simp only [Database.step, updated, settle]

/-- Skipping succeeds, and leaves what is current but for its name. -/
theorem Invariant.run_unchanged (invariant : db.Invariant hash)
    (nonblank : strip job.tenantId ≠ "") {row : Document}
    (current : row.toVersion ∈
      db.documents.versions.current (job.source.logical job.tenantId) job.groups)
    (turns : Nat → VersionPlan × Nat) :
    ∃ after, (unchanged job row).run timedCalls turns db = (.ok (unchangedResult row), after) ∧
      after.Invariant hash ∧ ∃ displayName,
        after.documents.versions.current (job.source.logical job.tenantId) job.groups =
          (db.documents.versions.current (job.source.logical job.tenantId) job.groups).map
            (History.patched none displayName) := by
  obtain ⟨checked, stepped, invariant', sameVersions⟩ :=
    invariant.step_markChecked nonblank row.documentId (turns 0).1 (turns 0).2
  simp only [unchanged, run_storeCall, stepped, StoreReply.checked?]
  rw [← sameVersions] at current ⊢
  by_cases renamed : job.filename ≠ row.source
  · obtain ⟨shown, after, updated, invariant'', renames⟩ :=
      invariant'.step_rename nonblank current job.filename (turns 1).1 (turns 1).2
    refine ⟨after, ?_, invariant'', some job.filename, renames⟩
    simp only [if_pos renamed, run_storeCall, Nat.zero_add, updated, StoreReply.updated?]
    rfl
  · refine ⟨checked, ?_, invariant', none, (List.map_id' _).symm⟩
    simp only [if_neg renamed]
    rfl

theorem Invariant.remembered_iff (invariant : db.Invariant hash)
    (nonblank : strip job.tenantId ≠ "") :
    job.Remembered version
        (fun row => db.currentVersion job.tenantId job.source job.groups = .ok (some row))
        db.Answers ↔
      ∀ row ∈ (db.documents.versions.current (job.source.logical job.tenantId)
        job.groups).getLast?, row.sourceVersion = some version := by
  have last := invariant.currentVersion_refines nonblank job.source job.groups
  constructor
  · intro remembered row member
    cases read : db.currentVersion job.tenantId job.source job.groups with
    | error e =>
        rw [read] at last
        cases last
    | ok current =>
        rw [read, Except.map, Except.ok.injEq] at last
        obtain ⟨document, rfl, rfl⟩ := Option.map_eq_some_iff.mp (last.trans member)
        exact (remembered document read).1
  · intro marked document sees
    rw [sees, Except.map, Except.ok.injEq, Option.map_some] at last
    have isMarked := marked document.toVersion last.symm
    refine ⟨isMarked, ?_⟩
    rintro next follows _ ⟨services, uuid4, createdAt, turns, rfl⟩
    obtain ⟨data, content⟩ := Option.isSome_iff_exists.mp follows.content
    have tenant : next.tenantId = job.tenantId := congrArg LogicalDocument.tenantId follows.logical
    have read : db.currentVersion next.tenantId next.source next.groups = .ok (some document) := by
      rw [Database.currentVersion, follows.logical, follows.groups, tenant]
      exact sees
    have current : document.toVersion ∈
        db.documents.versions.current (next.source.logical next.tenantId) next.groups := by
      rw [follows.logical, follows.groups]
      exact List.mem_of_mem_getLast? last.symm
    obtain ⟨after, skipped, _⟩ := invariant.run_unchanged (tenant ▸ nonblank) current
      fun n => turns (n + 1)
    have ownVersion : next.source.version = some version := follows.version
    have same := isUnchanged_of_marked services.hash ownVersion data isMarked
    rw [ingest_eq services uuid4 createdAt turns content, read]
    simp only [Option.filter_some, same, if_true, skipped]

end Database

/-! ## Both stores -/

/-- The marker of what is current once the in-memory store has taken the upload. -/
theorem InMemoryStore.persisted_marker_iff {services : Services} {store after : InMemoryStore}
    {now : Time} {job : JobPayload} {data : List UInt8} {version : String} {call : PersistCall}
    {stored : PersistResult} (reached : Reachable (PersistCall.Identified services.hash) store)
    (given : job.sourceVersion = some version)
    (changed : store.upToDate services.hash job data = none)
    (prepares : job.Prepares services.hash data call)
    (persisted : store.persistCall now call = .ok (stored, after)) :
    (∀ row ∈ (after.documents.versions.current (job.source.logical job.tenantId)
        job.groups).head?, row.sourceVersion = some version) ↔
      job.KeepsMarker services.hash data id version store.documents.versions
        ((store.currentVersion job.tenantId job.source job.groups).map (·.toVersion)) := by
  have first := store.currentVersion_refines job.tenantId job.source job.groups
  rw [history] at first
  have identified : after.documents.versions.Identified services.hash := by
    have stepped := reached.step now (.persist call) prepares.identified
    simp only [step, persisted] at stepped
    exact stepped.identified
  have differs := changed_of_filter_eq_none changed
  obtain ⟨_, _, versions⟩ := persistCall_uploaded persisted
  rw [versions] at identified ⊢
  rw [first] at differs ⊢
  exact stored_marker_iff Picks.head? reached.identified prepares identified given differs

theorem InMemoryStore.ingest_remembered_iff {services : Services} {store after : InMemoryStore}
    {uuid4 : Nat → String} {createdAt : Time} {turns : Nat → Time} {job : JobPayload}
    {data : List UInt8} {version : String} {result : JobResult}
    (reached : Reachable (PersistCall.Identified services.hash) store)
    (content : job.contentBase64 = some data) (given : job.sourceVersion = some version)
    (success : store.ingest services uuid4 createdAt turns job = (.ok result, after)) :
    (∀ row ∈ (after.documents.versions.current (job.source.logical job.tenantId)
        job.groups).head?, row.sourceVersion = some version) ↔
      job.KeepsMarker services.hash data id version store.documents.versions
        ((store.currentVersion job.tenantId job.source job.groups).map (·.toVersion)) := by
  rw [ingest_eq store services uuid4 createdAt turns content] at success
  cases upToDate : store.upToDate services.hash job data with
  | some row =>
      rw [upToDate] at success
      cases success
      obtain ⟨isCurrent, isSame⟩ := Option.filter_eq_some_iff.mp upToDate
      obtain ⟨refreshed, reads, named⟩ :=
        refreshed_current reached.identified isCurrent fun n => turns (n + 1)
      have read := (store.refreshed job row fun n => turns (n + 1)).currentVersion_refines
        job.tenantId job.source job.groups
      rw [reads, Option.map_some, named, history] at read
      rw [← read, isCurrent, Option.map_some, keepsMarker_of_unchanged given isSame]
      simp
  | none =>
      rw [upToDate] at success
      cases prepared : prepare services uuid4 createdAt job data with
      | error e => simp only [prepared] at success; cases success
      | ok call =>
          simp only [prepared] at success
          cases persisted : store.persistCall (turns 1) call with
          | error e => simp only [persisted] at success; cases success
          | ok out =>
              simp only [persisted] at success
              cases success
              exact persisted_marker_iff reached given upToDate (prepare_prepares prepared)
                persisted

/-- A store that overwrites the marker brings no row back without it. -/
theorem keepsMarker_overwritten {job : JobPayload} {hash : Sha256} {data : List UInt8}
    {version : String} {before : Versions} {current : Option Version} :
    job.KeepsMarker hash data (fun stored => (some version).or stored) version before current ↔
      (∃ row ∈ current, row.sourceVersion = some version) ∨
        job.Replaces hash data before current :=
  or_congr_right (and_iff_left fun _ _ _ _ => rfl)

/-- The marker of what is current once PostgreSQL has taken the upload. -/
theorem Database.Invariant.persisted_marker_iff {services : Services} {db after : Database}
    {plan : VersionPlan} {delay : Nat} {job : JobPayload} {data : List UInt8} {version : String}
    {call : PersistCall} {stored : PersistResult} {current : Option Document}
    (invariant : db.Invariant services.hash) (given : job.sourceVersion = some version)
    (read : db.currentVersion job.tenantId job.source job.groups = .ok current)
    (changed : (current.filter fun row =>
      isUnchanged services.hash job.source data row.toVersion) = none)
    (prepares : job.Prepares services.hash data call)
    (persisted : db.persistCall plan (db.nextNow delay) call = .ok (stored, after)) :
    after.Invariant services.hash ∧
      ((∀ row ∈ (after.documents.versions.current (job.source.logical job.tenantId)
          job.groups).getLast?, row.sourceVersion = some version) ↔
        job.KeepsMarker services.hash data (fun stored => (some version).or stored) version
          db.documents.versions (current.map (·.toVersion))) := by
  have last := invariant.currentVersion_refines (nonblank_of_currentVersion read) job.source
    job.groups
  rw [read, Except.map, Except.ok.injEq, history] at last
  have after_invariant : after.Invariant services.hash := by
    have stepped := invariant.step (fun _ legal => legal) plan delay (.persist call)
      prepares.identified
    simpa only [Database.step, persisted, settle] using stepped
  have overwrites : call.coalesce = fun stored => (some version).or stored := by
    funext stored
    have ownVersion : job.source.version = some version := given
    rw [PersistCall.coalesce, prepares.source, ownVersion]
  have own : call.rowRequest.Identified services.hash :=
    prepares.identified.requestWith _ prepares.nonempty
  have differs := changed_of_filter_eq_none changed
  have identified := after_invariant.identified
  obtain ⟨_, versions⟩ := invariant.persistCall_uploaded own persisted
  refine ⟨after_invariant, ?_⟩
  rw [versions] at identified ⊢
  rw [last] at differs ⊢
  rw [← overwrites]
  exact stored_marker_iff Picks.getLast? invariant.identified prepares identified given differs

theorem Database.ingest_remembered_iff {services : Services} {db after : Database}
    {uuid4 : Nat → String} {createdAt : Time} {turns : Nat → VersionPlan × Nat} {job : JobPayload}
    {data : List UInt8} {version : String} {result : JobResult}
    (invariant : db.Invariant services.hash)
    (content : job.contentBase64 = some data) (given : job.sourceVersion = some version)
    (success : db.ingest services uuid4 createdAt turns job = (.ok result, after)) :
    after.Invariant services.hash ∧ ∃ current,
      db.currentVersion job.tenantId job.source job.groups = .ok current ∧
      ((∀ row ∈ (after.documents.versions.current (job.source.logical job.tenantId)
          job.groups).getLast?, row.sourceVersion = some version) ↔
        (∃ row ∈ current, row.sourceVersion = some version) ∨
          job.Replaces services.hash data db.documents.versions (current.map (·.toVersion))) := by
  rw [ingest_eq services uuid4 createdAt turns content] at success
  cases read : db.currentVersion job.tenantId job.source job.groups with
  | error e =>
      rw [read] at success
      cases success
  | ok current =>
      rw [read] at success
      suffices ended : after.Invariant services.hash ∧
          ((∀ row ∈ (after.documents.versions.current (job.source.logical job.tenantId)
            job.groups).getLast?, row.sourceVersion = some version) ↔
          job.KeepsMarker services.hash data (fun stored => (some version).or stored) version
            db.documents.versions (current.map (·.toVersion))) by
        refine ⟨ended.1, current, rfl, ended.2.trans (keepsMarker_overwritten.trans ?_)⟩
        cases current <;> simp
      cases upToDate : current.filter fun row =>
          isUnchanged services.hash job.source data row.toVersion with
      | some row =>
          have nonblank := nonblank_of_currentVersion read
          have last := invariant.currentVersion_refines nonblank job.source job.groups
          rw [read, Except.map, Except.ok.injEq, history] at last
          simp only [upToDate] at success
          obtain ⟨rfl, isSame⟩ := Option.filter_eq_some_iff.mp upToDate
          obtain ⟨after', skipped, invariant', displayName, renamed⟩ :=
            invariant.run_unchanged nonblank (List.mem_of_mem_getLast? last.symm)
              fun n => turns (n + 1)
          rw [skipped] at success
          cases success
          refine ⟨invariant', ?_⟩
          rw [renamed, List.getLast?_map, ← last, Option.map_some, Option.map_some,
            keepsMarker_of_unchanged given isSame]
          simp [History.patched]
      | none =>
          simp only [upToDate] at success
          cases prepared : prepare services uuid4 createdAt job data with
          | error e => simp only [prepared] at success; cases success
          | ok call =>
              simp only [prepared] at success
              cases persisted : db.persistCall (turns 1).1 (db.nextNow (turns 1).2) call with
              | error e => simp only [persisted] at success; cases success
              | ok out =>
                  simp only [persisted] at success
                  cases success
                  exact invariant.persisted_marker_iff given read upToDate
                    (prepare_prepares prepared) persisted

/-- An upload that succeeds under a marker leaves it behind exactly when what is current has it
already, or holds other bytes while the uploaded ones are not ready.  The in-memory store
also needs a row that comes back to have it. -/
theorem change_marker_remembered_iff (services : Services) (job : JobPayload) (data : List UInt8)
    (version : String) (content : job.contentBase64 = some data)
    (given : job.sourceVersion = some version) :
    (∀ (store after : InMemoryStore) uuid4 createdAt turns result,
      InMemoryStore.Reachable (PersistCall.Identified services.hash) store →
      store.ingest services uuid4 createdAt turns job = (.ok result, after) →
      (job.Remembered version
          (fun row => after.currentVersion job.tenantId job.source job.groups = some row)
          after.Answers ↔
        job.KeepsMarker services.hash data id version store.documents.versions
          ((store.currentVersion job.tenantId job.source job.groups).map (·.toVersion)))) ∧
    (∀ (db after : Database) uuid4 createdAt turns result,
      Database.Reachable (PersistCall.Identified services.hash) db →
      db.ingest services uuid4 createdAt turns job = (.ok result, after) →
      (job.Remembered version
          (fun row => after.currentVersion job.tenantId job.source job.groups = .ok (some row))
          after.Answers ↔
        ∃ current, db.currentVersion job.tenantId job.source job.groups = .ok current ∧
          ((∃ row ∈ current, row.sourceVersion = some version) ∨
            job.Replaces services.hash data db.documents.versions
              (current.map (·.toVersion))))) := by
  constructor
  · intro store after uuid4 createdAt turns result reached success
    exact InMemoryStore.remembered_iff.trans
      (InMemoryStore.ingest_remembered_iff reached content given success)
  · intro db after uuid4 createdAt turns result reached success
    obtain ⟨invariant, current, read, kept⟩ :=
      Database.ingest_remembered_iff reached.invariant content given success
    rw [invariant.remembered_iff (Database.nonblank_of_currentVersion read), kept, read]
    simp

/-- Every upload is read as one line of text with an embedding. -/
def embedded : Services :=
  { oneLine with embed := fun texts => texts.map fun _ => List.replicate dimensions (.finite 0) }

/-- The document of `markedUpload` under another marker. -/
def remarkedNotes (data : List UInt8) : JobPayload where
  tenantId := "t"
  filename := "notes.txt"
  contentBase64 := some data
  allowedGroups := none
  sourceId := "n"
  sourceVersion := some "v2"
  groups := []

theorem markedUpload_legal :
    ∀ call ∈ [markedUpload (some "v1")], call.Identified embedded.hash :=
  List.forall_mem_cons.mpr
    ⟨PersistCall.single_identified .spelling [1] _ _ _ _ (by decide) (by decide), by simp⟩

/-- The marker stays with the bytes it came with. -/
theorem same_bytes_keep_marker :
    let store := InMemoryStore.empty.afterUploads [markedUpload (some "v1")]
    let db := Database.empty.afterUploads (.first _) [markedUpload (some "v1")]
    let job := remarkedNotes [1]
    let inMemory := store.ingest embedded (fun _ => "a") 1 (fun _ => 1) job
    let inPostgres := db.ingest embedded (fun _ => "a") 1 (fun _ => (.first _, 0)) job
    (InMemoryStore.Reachable (PersistCall.Identified embedded.hash) store ∧
      (∃ result, inMemory.1 = .ok result) ∧
      ¬ job.Remembered "v2"
        (fun row => inMemory.2.currentVersion job.tenantId job.source job.groups = some row)
        inMemory.2.Answers) ∧
    (Database.Reachable (PersistCall.Identified embedded.hash) db ∧
      (∃ result, inPostgres.1 = .ok result) ∧
      ¬ job.Remembered "v2"
        (fun row => inPostgres.2.currentVersion job.tenantId job.source job.groups = .ok (some row))
        inPostgres.2.Answers) := by
  intro store db job inMemory inPostgres
  let kept : JobResult :=
    { documentId := (markedUpload none).key.2, sourceSystem := "upload", sourceId := "n",
      contentSha256 := embedded.hash.hexdigest [1], contentType := "text/plain", version := 1,
      superseded := [], chunksCreated := 0, alreadyExisted := true, unchanged := true }
  refine ⟨⟨.afterUploads .empty markedUpload_legal, ⟨kept, by decide +kernel⟩, ?_⟩,
    ⟨.afterUploads .empty _ markedUpload_legal, ⟨kept, by decide +kernel⟩, ?_⟩⟩
  · intro remembered
    have read : (inMemory.2.currentVersion job.tenantId job.source job.groups).map
        (·.sourceVersion) = some (some "v1") := by decide +kernel
    obtain ⟨row, sees, old⟩ := Option.map_eq_some_iff.mp read
    have new := (remembered row sees).1
    rw [old] at new
    exact absurd new (by decide)
  · intro remembered
    have read : (inPostgres.2.currentVersion job.tenantId job.source job.groups).map
        (Option.map (·.sourceVersion)) = .ok (some (some "v1")) := by decide +kernel
    cases sees : inPostgres.2.currentVersion job.tenantId job.source job.groups with
    | error e =>
        rw [sees] at read
        cases read
    | ok current =>
        rw [sees, Except.map, Except.ok.injEq] at read
        obtain ⟨row, rfl, old⟩ := Option.map_eq_some_iff.mp read
        have new := (remembered row sees).1
        rw [old] at new
        exact absurd new (by decide)

/-- New bytes under a new marker. -/
theorem new_bytes_remembered :
    let store := InMemoryStore.empty.afterUploads [markedUpload (some "v1")]
    let db := Database.empty.afterUploads (.first _) [markedUpload (some "v1")]
    let job := remarkedNotes [2]
    let inMemory := store.ingest embedded (fun _ => "a") 1 (fun _ => 1) job
    let inPostgres := db.ingest embedded (fun _ => "a") 1 (fun _ => (.first _, 0)) job
    job.Remembered "v2"
      (fun row => inMemory.2.currentVersion job.tenantId job.source job.groups = some row)
      inMemory.2.Answers ∧
    job.Remembered "v2"
      (fun row => inPostgres.2.currentVersion job.tenantId job.source job.groups = .ok (some row))
      inPostgres.2.Answers := by
  intro store db job inMemory inPostgres
  obtain ⟨memory, postgres⟩ := change_marker_remembered_iff embedded job [2] "v2" rfl rfl
  let stored : JobResult :=
    { documentId := (job.rowKey embedded.hash [2]).2, sourceSystem := "upload", sourceId := "n",
      contentSha256 := embedded.hash.hexdigest [2], contentType := "text/plain", version := 2,
      superseded := [(markedUpload none).key.2], chunksCreated := 1, alreadyExisted := false,
      unchanged := false }
  have replaces : ∀ before current, before.find? (job.rowKey embedded.hash [2]) = none →
      current.map (·.contentSha256) = some (embedded.hash.hexdigest [1]) →
        job.Replaces embedded.hash [2] before current := by
    intro before current fresh bytes row member
    rw [Option.mem_def.mp member, Option.map_some, Option.some.injEq] at bytes
    refine ⟨?_, ?_⟩
    · rw [bytes]
      decide
    · rw [fresh]
      intro stored impossible
      cases impossible
  constructor
  · have success : inMemory.1 = .ok stored := by decide +kernel
    have ran : inMemory = (.ok stored, inMemory.2) := by rw [← success]
    have remembered := memory store inMemory.2 (fun _ => "a") 1 (fun _ => 1) stored
      (.afterUploads .empty markedUpload_legal) ran
    refine remembered.mpr (Or.inr ⟨replaces _ _ ?_ ?_, ?_⟩)
    · decide +kernel
    · decide +kernel
    · have fresh : store.documents.versions.find? (job.rowKey embedded.hash [2]) = none := by
        decide +kernel
      intro stored found
      rw [fresh] at found
      cases found
  · have success : inPostgres.1 = .ok stored := by decide +kernel
    have read : (db.currentVersion job.tenantId job.source job.groups).map
        (Option.map (·.contentSha256)) = .ok (some (embedded.hash.hexdigest [1])) := by
      decide +kernel
    have ran : inPostgres = (.ok stored, inPostgres.2) := by rw [← success]
    have remembered := postgres db inPostgres.2 (fun _ => "a") 1 (fun _ => (.first _, 0)) stored
      (.afterUploads .empty _ markedUpload_legal) ran
    refine remembered.mpr ?_
    cases sees : db.currentVersion job.tenantId job.source job.groups with
    | error e =>
        rw [sees] at read
        cases read
    | ok current =>
        rw [sees, Except.map, Except.ok.injEq] at read
        refine ⟨current, rfl, Or.inr (replaces _ _ (by decide +kernel) ?_)⟩
        rw [Option.map_map]
        exact read

end ProductionRag
