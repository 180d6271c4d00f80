import ProductionRag.Store.ReadYourWrite

/-!
# Linear version history

While every access list is empty, every caller sees every version, so an upload
numbers its version after all the others and leaves no other version current.
Deleting and reinstating versions in any order keeps the numbers distinct and the
current version the greatest.
-/

set_option autoImplicit false

namespace ProductionRag

open Basis

/-- Every version is open to the tenant, no two versions of a logical document share
a number, and none is past a current one. -/
structure Versions.Linear (versions : Versions) : Prop where
  tenantWide : ∀ key version, versions.find? key = some version → version.allowedGroups = []
  distinct : ∀ logical key other version sibling,
    versions.find? key = some version → versions.find? other = some sibling →
    version.belongsTo logical key = true → sibling.belongsTo logical other = true →
    version.version = sibling.version → key = other
  largest : ∀ logical key other version sibling,
    versions.find? key = some version → versions.find? other = some sibling →
    version.belongsTo logical key = true → sibling.belongsTo logical other = true →
    version.status = .ready → sibling.version ≤ version.version

theorem Versions.Linear.empty : Versions.Linear .empty := by
  constructor <;> intros <;> contradiction

/-- The columns that order the versions of a logical document and say who sees them. -/
structure Version.SameStanding (before after : Version) : Prop where
  sourceSystem_eq : after.sourceSystem = before.sourceSystem
  sourceId_eq : after.sourceId = before.sourceId
  version_eq : after.version = before.version
  status_eq : after.status = before.status
  allowedGroups_eq : after.allowedGroups = before.allowedGroups

theorem Version.SameStanding.refl (version : Version) : version.SameStanding version :=
  ⟨rfl, rfl, rfl, rfl, rfl⟩

theorem Version.SameStanding.belongsTo_eq {before after : Version}
    (same : before.SameStanding after) (logical : LogicalDocument) (key : DocumentKey) :
    after.belongsTo logical key = before.belongsTo logical key := by
  simp only [belongsTo, same.sourceSystem_eq, same.sourceId_eq]

theorem Version.belongsTo_unique {version : Version} {left right : LogicalDocument}
    {key : DocumentKey} (inLeft : version.belongsTo left key = true)
    (inRight : version.belongsTo right key = true) : left = right := by
  obtain ⟨tenant, system, id⟩ := belongsTo_iff.mp inLeft
  obtain ⟨tenant', system', id'⟩ := belongsTo_iff.mp inRight
  cases left
  cases right
  rw [LogicalDocument.mk.injEq]
  exact ⟨tenant.symm.trans tenant', system.symm.trans system', id.symm.trans id'⟩

/-- Losing rows, or rewriting their other columns, keeps the history linear. -/
theorem Versions.Linear.of_standing {before after : Versions} (linear : before.Linear)
    (origin : ∀ key version, after.find? key = some version →
      ∃ old, before.find? key = some old ∧ old.SameStanding version) : after.Linear := by
  constructor
  · intro key version found
    obtain ⟨old, oldFound, same⟩ := origin key version found
    rw [same.allowedGroups_eq]
    exact linear.tenantWide key old oldFound
  · intro logical key other version sibling found otherFound belongs otherBelongs sameNumber
    obtain ⟨old, oldFound, same⟩ := origin key version found
    obtain ⟨oldSibling, oldOtherFound, otherSame⟩ := origin other sibling otherFound
    rw [same.belongsTo_eq] at belongs
    rw [otherSame.belongsTo_eq] at otherBelongs
    rw [same.version_eq, otherSame.version_eq] at sameNumber
    exact linear.distinct logical key other old oldSibling oldFound oldOtherFound belongs
      otherBelongs sameNumber
  · intro logical key other version sibling found otherFound belongs otherBelongs ready
    obtain ⟨old, oldFound, same⟩ := origin key version found
    obtain ⟨oldSibling, oldOtherFound, otherSame⟩ := origin other sibling otherFound
    rw [same.belongsTo_eq] at belongs
    rw [otherSame.belongsTo_eq] at otherBelongs
    rw [same.status_eq] at ready
    rw [same.version_eq, otherSame.version_eq]
    exact linear.largest logical key other old oldSibling oldFound oldOtherFound belongs
      otherBelongs ready

/-! ## What an upload does to the order -/

section Upload

variable {C : Type} {hash : Sha256} {history : History C} {request : UploadRequest C}
  {marker : Option String → Option String}

/-- Where nothing is restricted, every other version of the document is a sibling. -/
theorem Versions.Linear.siblingOf {versions : Versions} (linear : versions.Linear)
    (identified : versions.Identified hash) {key : DocumentKey} {version : Version}
    (found : versions.find? key = some version)
    (belongs : version.belongsTo request.logical key = true) (other : key ≠ request.key) :
    request.siblingOf key version = true := by
  have visible : version.visible request.groups = true := by
    rw [Version.visible, linear.tenantWide key version found, groupsMeet_nil]
  refine Version.siblingOf_iff.mpr ⟨Version.versionOf_iff.mpr ⟨belongs, visible⟩, ?_⟩
  intro sameId
  refine other (Prod.ext (Version.belongsTo_iff.mp belongs).1 ?_)
  have own := (identified key version (Table.find?_eq_some_iff.mp found)).documentId_eq
  exact own.symm.trans sameId

theorem UploadRequest.lt_number {versions : Versions} {key : DocumentKey} {version : Version}
    (found : versions.find? key = some version)
    (sibling : request.siblingOf key version = true) :
    version.version < request.number versions := by
  have selected : version ∈ versions.select request.siblingOf :=
    Table.mem_select.mpr ⟨key, Table.find?_eq_some_iff.mp found, sibling⟩
  exact Nat.lt_succ_of_le (le_foldr_max (List.mem_map_of_mem selected))

/-- An upload that finds its content ready changes nothing but the change marker. -/
theorem History.uploaded_linear_of_ready (linear : history.documents.Linear)
    (identified : history.documents.Identified hash)
    (ready : request.alreadyReady history.documents = true) (allowedGroups : List String) :
    (history.uploaded request marker allowedGroups).Linear := by
  apply linear.of_standing
  intro key version found
  rw [history.uploaded_find? request marker allowedGroups identified.ownId,
    request.displaced_of_ready ready, Option.map_id'] at found
  split at found
  · rename_i own
    rw [UploadRequest.alreadyReady, Option.any_eq_true] at ready
    obtain ⟨existing, stored, isReady⟩ := ready
    simp only [UploadRequest.ownRow, stored, isReady, if_true, Option.some.injEq] at found
    subst own found
    exact ⟨existing, stored, ⟨rfl, rfl, rfl, rfl, rfl⟩⟩
  · exact ⟨version, found, .refl version⟩

/-- The row of an upload that becomes current: numbered after the rest, and open. -/
theorem UploadRequest.ownRow_fresh (linear : history.documents.Linear)
    (identified : history.documents.Identified hash) (own : request.Identified hash)
    (notReady : request.alreadyReady history.documents = false) :
    let row := request.ownRow marker [] history.documents
    row.version = request.number history.documents ∧ row.allowedGroups = [] ∧
      row.belongsTo request.logical request.key = true := by
  cases stored : history.documents.find? request.key with
  | none =>
      simp only [UploadRequest.ownRow, stored]
      exact ⟨rfl, rfl, Version.belongsTo_iff.mpr ⟨rfl, rfl, rfl⟩⟩
  | some existing =>
      have isReady : existing.isReady = false := by
        simpa only [UploadRequest.alreadyReady, stored, Option.any_some] using notReady
      simp only [UploadRequest.ownRow, stored, isReady, Bool.false_eq_true, if_false]
      have row := identified _ existing (Table.find?_eq_some_iff.mp stored)
      exact ⟨rfl, linear.tenantWide _ existing stored,
        ((UploadRequest.key_eq_iff own row).mpr rfl).1⟩

/-- A row of the uploaded document other than the upload's own: older, and not current. -/
theorem History.uploaded_sibling (linear : history.documents.Linear)
    (identified : history.documents.Identified hash)
    (notReady : request.alreadyReady history.documents = false) {key : DocumentKey}
    {version : Version} (different : key ≠ request.key)
    (found : (history.uploaded request marker []).find? key = some version)
    (belongs : version.belongsTo request.logical key = true) :
    version.version < request.number history.documents ∧ version.status ≠ .ready := by
  rw [history.uploaded_other request marker [] identified.ownId different,
    request.displaced_of_not notReady, Option.map_eq_some_iff] at found
  obtain ⟨old, stored, rfl⟩ := found
  have same := request.superseded_sameContent key old
  have oldBelongs : old.belongsTo request.logical key = true := by
    simpa only [Version.belongsTo, same.sourceSystem_eq, same.sourceId_eq] using belongs
  have sibling := linear.siblingOf identified stored oldBelongs different
  have older := request.lt_number stored sibling
  simp only [UploadRequest.superseded, UploadRequest.supersedes, sibling, Bool.true_and]
  split
  · refine ⟨older, fun ready => ?_⟩
    cases ready
  · rename_i isReady
    exact ⟨older, fun ready => isReady ((Version.isReady_iff old).mpr ready)⟩

/-- A row of another document is left as it was. -/
theorem History.uploaded_elsewhere (identified : history.documents.Identified hash)
    {key : DocumentKey} {version : Version} (different : key ≠ request.key)
    (found : (history.uploaded request marker []).find? key = some version)
    (elsewhere : version.belongsTo request.logical key = false) :
    history.documents.find? key = some version := by
  rw [history.uploaded_other request marker [] identified.ownId different,
    Option.map_eq_some_iff] at found
  obtain ⟨old, stored, rfl⟩ := found
  have oldElsewhere : old.belongsTo request.logical key = false := by
    rw [request.displaced_eq] at elsewhere
    exact elsewhere
  have notSibling : request.supersedes key old = false := by
    simp only [UploadRequest.supersedes, UploadRequest.siblingOf, Version.siblingOf,
      Version.versionOf, oldElsewhere, Bool.false_and]
  simp only [UploadRequest.displaced, UploadRequest.superseded, notSibling, Bool.false_eq_true,
    if_false, ite_self]
  exact stored

theorem History.uploaded_origin (identified : history.documents.Identified hash)
    {key : DocumentKey} {version : Version} (different : key ≠ request.key)
    (found : (history.uploaded request marker []).find? key = some version) :
    ∃ old, history.documents.find? key = some old ∧
      version = { old with status := version.status } := by
  rw [history.uploaded_other request marker [] identified.ownId different,
    Option.map_eq_some_iff] at found
  obtain ⟨old, stored, rfl⟩ := found
  exact ⟨old, stored, request.displaced_eq history.documents key old⟩

/-- An upload that becomes current is numbered after every other version and is the
only current one. -/
theorem History.uploaded_linear (linear : history.documents.Linear)
    (identified : history.documents.Identified hash) (own : request.Identified hash) :
    (history.uploaded request marker []).Linear := by
  cases notReady : request.alreadyReady history.documents with
  | true => exact uploaded_linear_of_ready linear identified notReady []
  | false =>
    have self := history.uploaded_self request marker [] identified.ownId
    have fresh : let row := request.ownRow marker [] history.documents
        row.version = request.number history.documents ∧ row.allowedGroups = [] ∧
          row.belongsTo request.logical request.key = true :=
      request.ownRow_fresh linear identified own notReady
    obtain ⟨number, openRow, ownBelongs⟩ := fresh
    constructor
    · intro key version found
      by_cases same : key = request.key
      · subst same
        rw [self, Option.some.injEq] at found
        rw [← found]
        exact openRow
      · obtain ⟨old, stored, eq⟩ := uploaded_origin identified same found
        rw [eq]
        exact linear.tenantWide key old stored
    · intro logical key other version sibling found otherFound belongs otherBelongs sameNumber
      by_cases same : key = request.key <;> by_cases otherSame : other = request.key
      · rw [same, otherSame]
      · subst same
        rw [self, Option.some.injEq] at found
        subst found
        obtain rfl := Version.belongsTo_unique belongs ownBelongs
        have older := uploaded_sibling linear identified notReady otherSame otherFound otherBelongs
        omega
      · subst otherSame
        rw [self, Option.some.injEq] at otherFound
        subst otherFound
        obtain rfl := Version.belongsTo_unique otherBelongs ownBelongs
        have older := uploaded_sibling linear identified notReady same found belongs
        omega
      · obtain ⟨old, stored, eq⟩ := uploaded_origin identified same found
        obtain ⟨oldSibling, otherStored, otherEq⟩ := uploaded_origin identified otherSame otherFound
        rw [eq] at belongs sameNumber
        rw [otherEq] at otherBelongs sameNumber
        exact linear.distinct logical key other old oldSibling stored otherStored belongs
          otherBelongs sameNumber
    · intro logical key other version sibling found otherFound belongs otherBelongs ready
      by_cases elsewhere : logical = request.logical
      · subst elsewhere
        by_cases same : key = request.key
        · subst same
          rw [self, Option.some.injEq] at found
          subst found
          by_cases otherSame : other = request.key
          · subst otherSame
            rw [self, Option.some.injEq] at otherFound
            rw [otherFound]
          · have older :=
              uploaded_sibling linear identified notReady otherSame otherFound otherBelongs
            rw [number]
            exact older.1.le
        · exact absurd ready
            (uploaded_sibling linear identified notReady same found belongs).2
      · have outside : ∀ {key version},
            (history.uploaded request marker []).find? key = some version →
            version.belongsTo logical key = true →
            history.documents.find? key = some version := by
          intro key version found belongs
          have different : key ≠ request.key := by
            rintro rfl
            rw [self, Option.some.injEq] at found
            subst found
            exact elsewhere (Version.belongsTo_unique belongs ownBelongs)
          refine uploaded_elsewhere identified different found ?_
          rw [Bool.eq_false_iff]
          intro inside
          exact elsewhere (Version.belongsTo_unique belongs inside)
        exact linear.largest logical key other version sibling (outside found belongs)
          (outside otherFound otherBelongs) belongs otherBelongs ready

theorem History.patch_linear (linear : history.documents.Linear) (logical : LogicalDocument)
    (groups : List String) (displayName : Option String) :
    (history.patch logical groups none displayName).documents.Linear := by
  apply linear.of_standing
  intro key version found
  rw [patch, Table.find?_mapValues, Option.map_eq_some_iff] at found
  obtain ⟨old, stored, rfl⟩ := found
  refine ⟨old, stored, ?_⟩
  split
  · exact ⟨rfl, rfl, rfl, rfl, rfl⟩
  · exact .refl old

theorem History.delete_linear (linear : history.documents.Linear) (erased : DocumentKey) :
    (history.delete erased).documents.Linear := by
  apply linear.of_standing
  intro key version found
  have member := Table.find?_eq_some_iff.mp found
  exact ⟨version, Table.find?_eq_some_iff.mpr (Table.mem_entries_filter.mp member).1,
    .refl version⟩

end Upload

/-! ## Runs without access lists -/

/-- An upload that asks for no restriction, a renaming, or any other call. -/
def StoreCall.Unrestricted (hash : Sha256) : StoreCall → Prop
  | .persist call => call.Identified hash ∧ ∀ groups ∈ call.allowedGroups, groups = []
  | .updateDocument _ _ _ allowedGroups _ => allowedGroups = none
  | _ => True

theorem StoreCall.Unrestricted.legal {hash : Sha256} {call : StoreCall}
    (unrestricted : call.Unrestricted hash) : call.Legal (PersistCall.Identified hash) := by
  cases call with
  | persist call => exact unrestricted.1
  | _ => trivial

namespace InMemoryStore

/-- What is inherited from open versions is open. -/
theorem settledGroups_open {store : InMemoryStore} (linear : store.documents.versions.Linear)
    {call : PersistCall} (unrestricted : ∀ groups ∈ call.allowedGroups, groups = []) :
    store.settledGroups call = [] := by
  rw [settledGroups]
  cases asked : call.allowedGroups with
  | some groups => exact unrestricted groups asked
  | none =>
      cases first : (store.documents.versions.current call.logical call.groups).head? with
      | none => rfl
      | some version =>
          obtain ⟨key, member, _⟩ := Versions.mem_current.mp (List.mem_of_mem_head? first)
          exact linear.tenantWide key version (Table.find?_eq_some_iff.mpr member)

theorem step_linear {hash : Sha256} {store : InMemoryStore}
    (linear : store.documents.versions.Linear)
    (identified : store.documents.versions.Identified hash) (now : Time) {call : StoreCall}
    (unrestricted : call.Unrestricted hash) :
    (store.step now call).2.documents.versions.Linear := by
  cases call with
  | persist call =>
      obtain ⟨callIdentified, noGroups⟩ := unrestricted
      by_cases empty : call.result.chunks = []
      · simp only [step, persistCall_error store now call empty]
        exact linear
      · obtain ⟨after, success, refined⟩ := persistCall_refines store now call empty
        simp only [step, success]
        have own := callIdentified.requestWith (call.result.chunks.map (·.toChunkBody)) empty
        have uploaded : (store.history.uploaded call.request id []).Linear :=
          History.uploaded_linear linear identified own
        rw [settledGroups_open linear noGroups] at refined
        have sameDocuments : after.documents.versions =
            store.history.uploaded call.request id [] := congrArg History.documents refined
        rw [sameDocuments]
        exact uploaded
  | updateDocument tenantId documentId groups allowedGroups displayName =>
      obtain rfl : allowedGroups = none := unrestricted
      have refined := updateDocument_refines store tenantId documentId groups none displayName now
      revert refined
      simp only [step]
      split
      · rintro ⟨_, same⟩
        rw [same]
        exact linear
      · split
        · rintro ⟨patched, _⟩
          have sameDocuments : (store.updateDocument tenantId documentId groups none displayName
              now).2.documents.versions = _ := congrArg History.documents patched
          rw [sameDocuments]
          have before : store.history.documents.Linear := linear
          exact History.patch_linear before _ groups displayName
        · rintro ⟨_, same⟩
          rw [same]
          exact linear
  | deleteDocument tenantId documentId groups =>
      simp only [step, deleteDocument]
      split
      · exact linear
      · rw [Documents.versions_erase]
        have before : store.history.documents.Linear := linear
        exact History.delete_linear before (tenantId, documentId)
  | markChecked tenantId documentId =>
      have sameDocuments : (store.markChecked tenantId documentId now).documents.versions =
          store.documents.versions :=
        congrArg History.documents (store.markChecked_refines tenantId documentId now)
      simp only [step, sameDocuments]
      exact linear
  | currentVersion tenantId source groups => exact linear
  | getDocument tenantId documentId groups => exact linear
  | listDocuments tenantId groups includeSuperseded => exact linear

/-- One current version at most, numbers that differ, and the current one the greatest. -/
structure LinearHistory (store : InMemoryStore) (logical : LogicalDocument) : Prop where
  oneReady : ∀ key other version sibling,
    store.documents.find? key = some version → store.documents.find? other = some sibling →
    version.belongsTo logical key = true → sibling.belongsTo logical other = true →
    version.status = .ready → sibling.status = .ready → key = other
  distinct : ∀ key other version sibling,
    store.documents.find? key = some version → store.documents.find? other = some sibling →
    version.belongsTo logical key = true → sibling.belongsTo logical other = true →
    key ≠ other → version.version ≠ sibling.version
  largest : ∀ key other version sibling,
    store.documents.find? key = some version → store.documents.find? other = some sibling →
    version.belongsTo logical key = true → sibling.belongsTo logical other = true →
    version.status = .ready → sibling.version ≤ version.version

theorem linearHistory_of_linear {store : InMemoryStore}
    (linear : store.documents.versions.Linear) (logical : LogicalDocument) :
    store.LinearHistory logical := by
  have row : ∀ {key document}, store.documents.find? key = some document →
      store.documents.versions.find? key = some document.toVersion := by
    intro key document found
    rw [Documents.versions_find?, found, Option.map_some]
  constructor
  · intro key other version sibling found otherFound belongs otherBelongs ready otherReady
    have above := linear.largest logical key other _ _ (row found) (row otherFound) belongs
      otherBelongs ready
    have below := linear.largest logical other key _ _ (row otherFound) (row found) otherBelongs
      belongs otherReady
    exact linear.distinct logical key other _ _ (row found) (row otherFound) belongs otherBelongs
      (Nat.le_antisymm below above)
  · intro key other version sibling found otherFound belongs otherBelongs different sameNumber
    exact different (linear.distinct logical key other _ _ (row found) (row otherFound) belongs
      otherBelongs sameNumber)
  · intro key other version sibling found otherFound belongs otherBelongs ready
    exact linear.largest logical key other _ _ (row found) (row otherFound) belongs otherBelongs
      ready

theorem run_invariant {hash : Sha256} {store : InMemoryStore} (calls : List (Time × StoreCall))
    (unrestricted : ∀ call ∈ calls, call.2.Unrestricted hash)
    (linear : store.documents.versions.Linear)
    (identified : store.documents.versions.Identified hash) :
    (store.run calls).documents.versions.Linear := by
  induction calls generalizing store with
  | nil => exact linear
  | cons call rest ih =>
      obtain ⟨first, later⟩ := List.forall_mem_cons.mp unrestricted
      refine ih later (step_linear linear identified call.1 first) ?_
      refine (step_move store call.1 call.2 first.legal).identified ?_ identified
      rintro request ⟨upload, isLegal, nonempty, rfl⟩
      exact isLegal.requestWith _ nonempty

/-- Without access lists the history of every logical document stays linear, whoever
uploads, renames, checks or deletes its versions. -/
theorem run_linearHistory (hash : Sha256) (calls : List (Time × StoreCall))
    (unrestricted : ∀ call ∈ calls, call.2.Unrestricted hash) (logical : LogicalDocument) :
    (empty.run calls).LinearHistory logical := by
  have start : empty.documents.versions.Linear := Versions.Linear.empty
  have noRows : empty.documents.versions.Identified hash := by
    intro key version member
    cases member
  exact linearHistory_of_linear (run_invariant calls unrestricted start noRows) logical

/-- The newest of three versions is deleted and the oldest is sent again. -/
def reinstatedRun : List (Time × StoreCall) :=
  [(1, .persist (notesUpload [1] [] (some []))), (2, .persist (notesUpload [2] ["hr"] none)),
    (3, .persist (notesUpload [3] [] (some []))),
    (4, .deleteDocument "t" (notesUpload [3] [] none).key.2 []),
    (5, .persist (notesUpload [1] ["hr"] none))]

theorem reinstated_linearHistory :
    let store := empty.run reinstatedRun
    (store.documents.entries.map fun entry => (entry.2.version, entry.2.status)) =
        [(3, .ready), (2, .superseded)] ∧
      ∀ logical, store.LinearHistory logical := by
  refine ⟨by decide +kernel, run_linearHistory .spelling reinstatedRun ?_⟩
  simp only [reinstatedRun, List.forall_mem_cons]
  refine ⟨⟨notesUpload_identified .., ?_⟩, ⟨notesUpload_identified .., ?_⟩,
    ⟨notesUpload_identified .., ?_⟩, trivial, ⟨notesUpload_identified .., ?_⟩,
    fun _ none => nomatch none⟩ <;> decide

end InMemoryStore

end ProductionRag
