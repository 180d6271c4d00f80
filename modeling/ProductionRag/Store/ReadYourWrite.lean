import ProductionRag.Store.PostgresReachable

/-!
# Reading back an upload

`persist` stores its content as the current version of the source.  It looks the
stored row up by its key and the siblings by what the uploader sees, so the upload
is read back unless the stored row is hidden from the uploader, or is ready next to
another ready version.
-/

set_option autoImplicit false

namespace ProductionRag

open Basis

/-- The upload is current, alone among what the uploader saw, and read back as far
as the access list `requested` lets the uploader in. -/
structure PersistCall.ReadsBack (call : PersistCall) (requested : List String)
    (before after : Versions) (current : Except PyError (Option Version)) : Prop where
  ready : ∃ key row, (key, row) ∈ after.entries ∧ row.belongsTo call.logical key = true ∧
    row.contentSha256 = call.result.contentSha256 ∧ row.status = .ready
  others : ∀ key old new, (key, old) ∈ before.entries →
    old.versionOf call.logical call.groups key = true →
    old.contentSha256 ≠ call.result.contentSha256 →
    (key, new) ∈ after.entries → new.status ≠ .ready
  current : groupsMeet requested call.groups = true →
    ∃ row, current = .ok (some row) ∧ row.contentSha256 = call.result.contentSha256

/-- No version other than the one under `key` is current for the caller. -/
def Versions.OnlyReady (versions : Versions) (logical : LogicalDocument) (groups : List String)
    (key : DocumentKey) : Prop :=
  ∀ other version, (other, version) ∈ versions.entries →
    version.versionOf logical groups other = true → version.status = .ready → other = key

/-- What the state before decides: a stored row must be visible to an uploader who
asks to see it, and must not be one of several current versions. -/
def PersistCall.CanReadBack (call : PersistCall) (before : Versions) : Prop :=
  ∀ stored, before.find? call.key = some stored →
    (stored.status = .ready → before.OnlyReady call.logical call.groups call.key) ∧
    (stored.visible call.groups = true ∨
      ∃ asked, call.allowedGroups = some asked ∧ groupsMeet asked call.groups = false)

/-- When one version can be current, it is what the caller sees of the document. -/
theorem Versions.OnlyReady.current_eq {versions : Versions} {logical : LogicalDocument}
    {groups : List String} {key : DocumentKey} {row : Version}
    (only : versions.OnlyReady logical groups key) (found : versions.find? key = some row)
    (belongs : row.belongsTo logical key = true) (ready : row.status = .ready) :
    versions.current logical groups = if row.visible groups then [row] else [] := by
  have selected : versions.current logical groups =
      versions.select fun other version => decide (other = key) && version.visible groups := by
    rw [current, Table.select, Table.select]
    congr 1
    apply List.filter_congr
    rintro ⟨other, version⟩ member
    rw [Bool.eq_iff_iff]
    simp only [Bool.and_eq_true, Version.isReady_iff, decide_eq_true_eq]
    constructor
    · rintro ⟨sees, isReady⟩
      exact ⟨only other version member sees isReady, (Version.versionOf_iff.mp sees).2⟩
    · rintro ⟨rfl, visible⟩
      have same : version = row :=
        Option.some.inj ((Table.find?_eq_some_iff.mpr member).symm.trans found)
      subst same
      exact ⟨Version.versionOf_iff.mpr ⟨belongs, visible⟩, ready⟩
  rw [selected, Table.select_key, found, Option.filter_some]
  split <;> rfl

section Upload

variable {C : Type} {hash : Sha256} {history : History C} {call : PersistCall} {content : C}
  {marker : Option String → Option String} {allowedGroups : List String}

theorem Versions.Identified.ownId {versions : Versions} {request : UploadRequest C}
    (identified : versions.Identified hash) :
    ∀ existing, versions.find? request.key = some existing →
      existing.documentId = request.documentId := by
  intro existing found
  exact (identified _ existing (Table.find?_eq_some_iff.mp found)).documentId_eq

/-- The row under the uploaded key belongs to the logical document and holds the content. -/
theorem ownRow_holds (identified : history.documents.Identified hash)
    (own : (call.requestWith content).Identified hash) :
    ((call.requestWith content).ownRow marker allowedGroups history.documents).belongsTo
        call.logical call.key = true ∧
      ((call.requestWith content).ownRow marker allowedGroups history.documents).contentSha256 =
        call.result.contentSha256 := by
  unfold UploadRequest.ownRow
  split
  · rename_i existing found
    have row := identified _ existing (Table.find?_eq_some_iff.mp found)
    have holds := (UploadRequest.key_eq_iff own row).mpr rfl
    split <;> exact holds
  · exact ⟨Version.belongsTo_iff.mpr ⟨rfl, rfl, rfl⟩, rfl⟩

/-- After the upload one version is current, unless it was found ready among others. -/
theorem uploaded_onlyReady_iff (identified : history.documents.Identified hash) :
    (history.uploaded (call.requestWith content) marker allowedGroups).OnlyReady call.logical
        call.groups call.key ↔
      ((call.requestWith content).alreadyReady history.documents = true →
        history.documents.OnlyReady call.logical call.groups call.key) := by
  have others : ∀ key, key ≠ call.key →
      (history.uploaded (call.requestWith content) marker allowedGroups).find? key =
        (history.documents.find? key).map
          ((call.requestWith content).displaced history.documents key) :=
    fun _ different => history.uploaded_other _ marker allowedGroups identified.ownId different
  constructor
  · intro only ready key version member sees isReady
    by_contra different
    refine different (only key version ?_ sees isReady)
    rw [← Table.find?_eq_some_iff, others key different,
      Table.find?_eq_some_iff.mpr member, Option.map_some]
    simp only [UploadRequest.displaced, ready, if_true]
  · intro only key version member sees isReady
    by_contra different
    rw [← Table.find?_eq_some_iff, others key different, Option.map_eq_some_iff] at member
    obtain ⟨old, found, rfl⟩ := member
    rw [UploadRequest.displaced_versionOf] at sees
    have row := Table.find?_eq_some_iff.mp found
    cases ready : (call.requestWith content).alreadyReady history.documents with
    | true =>
        simp only [UploadRequest.displaced, ready, if_true] at isReady
        exact different (only ready key old row sees isReady)
    | false =>
        have sibling : (call.requestWith content).siblingOf key old = true := by
          refine Version.siblingOf_iff.mpr ⟨sees, ?_⟩
          intro sameId
          have tenant := (Version.belongsTo_iff.mp (Version.versionOf_iff.mp sees).1).1
          refine different (Prod.ext tenant ?_)
          rw [← (identified key old row).documentId_eq, sameId]
          rfl
        simp only [UploadRequest.displaced, ready, Bool.false_eq_true, if_false,
          UploadRequest.superseded, UploadRequest.supersedes, sibling, Bool.true_and] at isReady
        split at isReady
        · cases isReady
        · rename_i notReady
          exact notReady ((Version.isReady_iff old).mpr isReady)

/-- Who sees the uploaded row afterwards. -/
theorem ownRow_visible :
    ((call.requestWith content).ownRow marker allowedGroups history.documents).visible
        call.groups =
      match history.documents.find? call.key with
      | some stored => stored.visible call.groups
      | none => groupsMeet allowedGroups call.groups := by
  cases found : history.documents.find? call.key with
  | none => simp only [UploadRequest.ownRow, PersistCall.requestWith_key, found]; rfl
  | some stored =>
      simp only [UploadRequest.ownRow, PersistCall.requestWith_key, found]
      split <;> rfl

/-- Reading back means that the uploaded row is the only current one, and visible if asked. -/
theorem readsBack_iff_onlyReady (identified : history.documents.Identified hash)
    (own : (call.requestWith content).Identified hash) {requested : List String}
    {choice : List Version → Option Version} (chooseNone : choice [] = none)
    (chooseOne : ∀ row, choice [row] = some row) :
    let after := history.uploaded (call.requestWith content) marker allowedGroups
    let row := (call.requestWith content).ownRow marker allowedGroups history.documents
    call.ReadsBack requested history.documents after
        (.ok (choice (after.current call.logical call.groups))) ↔
      after.OnlyReady call.logical call.groups call.key ∧
        (groupsMeet requested call.groups = true → row.visible call.groups = true) := by
  intro after row
  have found : after.find? call.key = some row :=
    history.uploaded_self (call.requestWith content) marker allowedGroups identified.ownId
  have others : ∀ key, key ≠ call.key → after.find? key = (history.documents.find? key).map
      ((call.requestWith content).displaced history.documents key) :=
    fun _ different => history.uploaded_other _ marker allowedGroups identified.ownId different
  obtain ⟨belongs, holds⟩ : row.belongsTo call.logical call.key = true ∧
      row.contentSha256 = call.result.contentSha256 := ownRow_holds identified own
  have ready : row.status = .ready := UploadRequest.ownRow_ready ..
  have current : after.OnlyReady call.logical call.groups call.key →
      choice (after.current call.logical call.groups) =
        if row.visible call.groups then some row else none := by
    intro only
    rw [only.current_eq found belongs ready]
    split
    · exact chooseOne row
    · exact chooseNone
  constructor
  · rintro ⟨_, noOther, seen⟩
    have only : after.OnlyReady call.logical call.groups call.key := by
      intro key version member sees isReady
      by_contra different
      have lookup := Table.find?_eq_some_iff.mpr member
      rw [others key different, Option.map_eq_some_iff] at lookup
      obtain ⟨old, oldFound, rfl⟩ := lookup
      rw [UploadRequest.displaced_versionOf] at sees
      have oldMember := Table.find?_eq_some_iff.mp oldFound
      refine noOther key old _ oldMember sees ?_ member isReady
      intro sameContent
      have belongsOld := (Version.versionOf_iff.mp sees).1
      exact different
        ((UploadRequest.key_eq_iff own (identified key old oldMember)).mp
          ⟨belongsOld, sameContent⟩)
    refine ⟨only, fun meets => ?_⟩
    obtain ⟨other, isCurrent, _⟩ := seen meets
    rw [current only] at isCurrent
    by_contra hidden
    rw [if_neg hidden] at isCurrent
    cases isCurrent
  · rintro ⟨only, seen⟩
    refine ⟨⟨call.key, row, Table.find?_eq_some_iff.mp found, belongs, holds, ready⟩, ?_, ?_⟩
    · intro key old new member sees otherContent newMember isReady
      have different : key ≠ call.key := by
        rintro rfl
        exact otherContent
          ((UploadRequest.key_eq_iff own (identified _ old member)).mpr rfl).2
      have lookup := Table.find?_eq_some_iff.mpr newMember
      rw [others key different, Table.find?_eq_some_iff.mpr member, Option.map_some,
        Option.some.injEq] at lookup
      refine different (only key new newMember ?_ isReady)
      rw [← lookup, UploadRequest.displaced_versionOf]
      exact sees
    · intro meets
      rw [current only, if_pos (seen meets)]
      exact ⟨row, rfl, holds⟩

variable (history) in
theorem uploaded_readsBack_iff (identified : history.documents.Identified hash)
    (own : (call.requestWith content).Identified hash)
    (requested : groupsMeet allowedGroups call.groups = true ↔
      ¬ ∃ asked, call.allowedGroups = some asked ∧ groupsMeet asked call.groups = false)
    {choice : List Version → Option Version} (chooseNone : choice [] = none)
    (chooseOne : ∀ row, choice [row] = some row) :
    let after := history.uploaded (call.requestWith content) marker allowedGroups
    call.ReadsBack allowedGroups history.documents after
        (.ok (choice (after.current call.logical call.groups))) ↔
      call.CanReadBack history.documents := by
  intro after
  refine (readsBack_iff_onlyReady identified own chooseNone chooseOne).trans ?_
  rw [uploaded_onlyReady_iff identified, ownRow_visible, PersistCall.CanReadBack]
  cases stored : history.documents.find? call.key with
  | none =>
      have notReady : (call.requestWith content).alreadyReady history.documents = false := by
        simp [UploadRequest.alreadyReady, stored]
      simp [notReady]
  | some existing =>
      have status : (call.requestWith content).alreadyReady history.documents = true ↔
          existing.status = .ready := by
        simp [UploadRequest.alreadyReady, stored]
      simp only [status, requested, Option.some.injEq, forall_eq']
      refine and_congr Iff.rfl ?_
      rw [← not_imp_comm]
      exact or_iff_not_imp_left.symm

/-- An inherited access list is empty or that of a row the uploader sees, so only a
list they ask for can shut them out. -/
theorem settled_meets_iff {inherited : List String}
    (visible : groupsMeet inherited call.groups = true) :
    groupsMeet (call.allowedGroups.getD inherited) call.groups = true ↔
      ¬ ∃ asked, call.allowedGroups = some asked ∧ groupsMeet asked call.groups = false := by
  cases call.allowedGroups with
  | none => simp [visible]
  | some asked => simp

end Upload

/-! ## Both stores -/

theorem InMemoryStore.inherited_meets (store : InMemoryStore) (call : PersistCall) :
    groupsMeet (((store.documents.versions.current call.logical call.groups).head?.map
      (·.allowedGroups)).getD []) call.groups = true := by
  cases first : (store.documents.versions.current call.logical call.groups).head? with
  | none => rfl
  | some version =>
      obtain ⟨key, _, sees, _⟩ := Versions.mem_current.mp (List.mem_of_mem_head? first)
      exact (Version.versionOf_iff.mp sees).2

theorem Database.inherited_meets (db : Database) (plan : VersionPlan) (call : PersistCall) :
    groupsMeet (((plan.pick (db.inheritable call)).map (·.allowedGroups)).getD [])
      call.groups = true := by
  cases picked : plan.pick (db.inheritable call) with
  | none => rfl
  | some document =>
      obtain ⟨key, _, sees⟩ := Table.mem_select.mp (plan.pick_mem _ _ picked)
      rw [Bool.and_eq_true] at sees
      exact (Version.versionOf_iff.mp sees.1).2

theorem persist_readsBack_iff (hash : Sha256) (call : PersistCall)
    (identified : call.Identified hash) :
    (∀ (store after : InMemoryStore) (now : Time) (result : PersistResult),
      InMemoryStore.Reachable (PersistCall.Identified hash) store →
      store.persistCall now call = .ok (result, after) →
      (call.ReadsBack (store.settledGroups call) store.documents.versions
          after.documents.versions
          (.ok ((after.currentVersion call.tenantId call.effectiveSource call.groups).map
            (·.toVersion))) ↔
        call.CanReadBack store.documents.versions)) ∧
    (∀ (db after : Database) (plan : VersionPlan) (delay : Nat) (result : PersistResult),
      Database.Reachable (PersistCall.Identified hash) db →
      db.persistCall plan (db.nextNow delay) call = .ok (result, after) →
      (call.ReadsBack (db.settledGroups plan call) db.documents.versions
          after.documents.versions
          ((after.currentVersion call.tenantId call.effectiveSource call.groups).map
            (Option.map (·.toVersion))) ↔
        call.CanReadBack db.documents.versions)) := by
  constructor
  · intro store after now result reached success
    have nonempty : call.result.chunks ≠ [] := by
      intro empty
      rw [InMemoryStore.persistCall_error store now call empty] at success
      cases success
    obtain ⟨other, success', refined⟩ := InMemoryStore.persistCall_refines store now call nonempty
    rw [success, Except.ok.injEq, Prod.mk.injEq] at success'
    obtain ⟨_, rfl⟩ := success'
    have versions : after.documents.versions = store.history.uploaded call.request id
        (store.settledGroups call) := congrArg History.documents refined
    rw [InMemoryStore.currentVersion_refines, InMemoryStore.history, versions]
    exact uploaded_readsBack_iff store.history reached.identified
      (identified.requestWith _ nonempty)
      (settled_meets_iff (store.inherited_meets call)) rfl fun _ => rfl
  · intro db after plan delay result reached success
    have invariant := reached.invariant
    have nonempty := (Database.persistCall_ok success).nonempty
    have own : call.rowRequest.Identified hash := identified.requestWith _ nonempty
    have committed := invariant.persistCall_committed own success
    obtain ⟨other, success', refined⟩ := Database.persistCall_refines plan
      (db.nextNow delay) invariant own committed.accepted committed.allowed
    rw [success, Except.ok.injEq, Prod.mk.injEq] at success'
    obtain ⟨_, rfl⟩ := success'
    have versions : after.documents.versions = db.history.uploaded call.rowRequest call.coalesce
        (db.settledGroups plan call) := congrArg History.documents refined
    have invariant' : after.Invariant hash := by
      have stepped := invariant.step (fun _ legal => legal) plan delay (.persist call) identified
      simpa only [Database.step, success, Database.settle] using stepped
    have nonblank : strip call.tenantId ≠ "" := by
      rw [committed.accepted.tenant_trimmed]
      exact committed.accepted.tenant_ne
    rw [invariant'.currentVersion_refines nonblank, Database.history, versions]
    exact uploaded_readsBack_iff db.history invariant.identified own
      (settled_meets_iff (db.inherited_meets plan call)) rfl fun _ => rfl

/-- A one-chunk upload of `notes` in tenant `t`. -/
def notesUpload (original : List UInt8) (groups : List String)
    (allowedGroups : Option (List String)) : PersistCall :=
  .single .spelling original "t" "notes.txt" { id := "n" } groups allowedGroups

theorem notesUpload_identified (original : List UInt8) (groups : List String)
    (allowedGroups : Option (List String)) :
    (notesUpload original groups allowedGroups).Identified .spelling :=
  PersistCall.single_identified .spelling original _ _ _ _ (by decide) (by decide)

/-- A restricted version and a public one, each uploaded by someone who does not see
the other. -/
def twoReady : List PersistCall :=
  [notesUpload [1] ["hr"] (some ["hr"]), notesUpload [2] [] (some [])]

theorem twoReady_legal : ∀ call ∈ twoReady, call.Identified .spelling :=
  List.forall_mem_cons.mpr ⟨notesUpload_identified .., List.forall_mem_cons.mpr
    ⟨notesUpload_identified .., fun _ none => nomatch none⟩⟩

/-- The public uploader sends the bytes of the restricted version: their own stays current. -/
theorem hidden_upload_not_read_back :
    let call := notesUpload [1] [] (some [])
    let store := InMemoryStore.empty.afterUploads twoReady
    let db := Database.empty.afterUploads (.first _) twoReady
    call.Identified .spelling ∧
    (InMemoryStore.Reachable (PersistCall.Identified .spelling) store ∧
      ∃ result after, store.persistCall 0 call = .ok (result, after) ∧
        ¬ call.ReadsBack (store.settledGroups call) store.documents.versions
          after.documents.versions
          (.ok ((after.currentVersion call.tenantId call.effectiveSource call.groups).map
            (·.toVersion)))) ∧
    (Database.Reachable (PersistCall.Identified .spelling) db ∧
      ∃ result after, db.persistCall (.first _) (db.nextNow 0) call = .ok (result, after) ∧
        ¬ call.ReadsBack (db.settledGroups (.first _) call) db.documents.versions
          after.documents.versions
          ((after.currentVersion call.tenantId call.effectiveSource call.groups).map
            (Option.map (·.toVersion)))) := by
  intro call store db
  let other := notesUpload [2] [] (some [])
  refine ⟨notesUpload_identified .., ⟨?_, _, _, rfl, ?_⟩, ?_,
    { documentId := call.key.2, chunksWritten := 0, alreadyExisted := true },
    (db.step (.first _) 0 (.persist call)).2, by decide +kernel, ?_⟩
  · exact InMemoryStore.Reachable.empty.afterUploads twoReady_legal
  · intro readsBack
    refine readsBack.others other.key (other.request.created [] 1) (other.request.created [] 1)
      ?_ ?_ ?_ ?_ rfl <;> decide +kernel
  · exact Database.Reachable.empty.afterUploads _ twoReady_legal
  · intro readsBack
    refine readsBack.others other.key (other.request.created [] 1) (other.request.created [] 1)
      ?_ ?_ ?_ ?_ rfl <;> decide +kernel

/-- New bytes are read back in the same two states. -/
theorem fresh_upload_reads_back :
    let call := notesUpload [3] [] none
    let store := InMemoryStore.empty.afterUploads twoReady
    let db := Database.empty.afterUploads (.first _) twoReady
    (∃ result after, store.persistCall 0 call = .ok (result, after) ∧
      call.ReadsBack (store.settledGroups call) store.documents.versions
        after.documents.versions
        (.ok ((after.currentVersion call.tenantId call.effectiveSource call.groups).map
          (·.toVersion)))) ∧
    (∃ result after, db.persistCall (.first _) (db.nextNow 0) call = .ok (result, after) ∧
      call.ReadsBack (db.settledGroups (.first _) call) db.documents.versions
        after.documents.versions
        ((after.currentVersion call.tenantId call.effectiveSource call.groups).map
          (Option.map (·.toVersion)))) := by
  intro call store db
  have fresh : ∀ versions : Versions, versions.find? call.key = none →
      call.CanReadBack versions := by
    intro versions missing stored found
    rw [missing] at found
    cases found
  have both := persist_readsBack_iff .spelling call (notesUpload_identified ..)
  constructor
  · have success : store.persistCall 0 call = .ok
        ({ documentId := call.key.2, chunksWritten := 1, alreadyExisted := false, version := 2,
           superseded := [(notesUpload [2] [] none).key.2] },
          (store.step 0 (.persist call)).2) := by decide +kernel
    refine ⟨_, _, success, (both.1 store _ 0 _ ?_ success).mpr (fresh _ (by decide +kernel))⟩
    exact InMemoryStore.Reachable.empty.afterUploads twoReady_legal
  · have success : db.persistCall (.first _) (db.nextNow 0) call = .ok
        ({ documentId := call.key.2, chunksWritten := 1, alreadyExisted := false, version := 2,
           superseded := [(notesUpload [2] [] none).key.2] },
          (db.step (.first _) 0 (.persist call)).2) := by decide +kernel
    refine ⟨_, _, success, (both.2 db _ _ 0 _ ?_ success).mpr (fresh _ (by decide +kernel))⟩
    exact Database.Reachable.empty.afterUploads _ twoReady_legal

end ProductionRag
