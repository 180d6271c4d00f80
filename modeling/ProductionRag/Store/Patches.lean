import ProductionRag.Store.ReadYourWrite

/-!
# Patching the access list of a document

`update_document` writes the access list of every version the caller sees.  A version
hidden from the caller keeps its own list, so it stays looser than the one that was
set whenever the caller hands the document to some of those who see it already.
-/

set_option autoImplicit false

namespace ProductionRag

open Basis

/-- A list that lets in strictly more callers than the restriction that was asked for. -/
def Looser (allowedGroups asked : List String) : Prop :=
  asked ≠ [] ∧ (allowedGroups = [] ∨ (asked ⊆ allowedGroups ∧ ¬ allowedGroups ⊆ asked))

instance (allowedGroups asked : List String) : Decidable (Looser allowedGroups asked) := by
  unfold Looser
  infer_instance

theorem not_looser_self (asked : List String) : ¬ Looser asked asked := by
  rintro ⟨restricted, isOpen | ⟨_, wider⟩⟩
  · exact restricted isOpen
  · exact wider (List.Subset.refl asked)

/-- What setting the access list of a document promises: the visible versions have the
list, none of the versions has a looser one, other documents are left alone, and the
caller gets the row back while the list lets them in. -/
structure Documents.AccessSet (before after : Documents) (logical : LogicalDocument)
    (groups asked : List String) (row : Option Document) : Prop where
  set : ∀ key document, before.find? key = some document →
    document.versionOf logical groups key = true →
    ∃ changed, after.find? key = some changed ∧ changed.allowedGroups = asked
  noneLooser : ∀ key document, after.find? key = some document →
    document.belongsTo logical key = true → ¬ Looser document.allowedGroups asked
  frame : ∀ key, (∀ document, before.find? key = some document →
    document.belongsTo logical key = false) → after.find? key = before.find? key
  returned : row.isSome = true ↔ asked = [] ∨ ∃ group ∈ asked, group ∈ groups

/-- No version hidden from the caller is looser than the list they ask for. -/
def Documents.HiddenNotLooser (before : Documents) (logical : LogicalDocument)
    (groups asked : List String) : Prop :=
  ∀ key document, before.find? key = some document → document.belongsTo logical key = true →
    document.visible groups = false → ¬ Looser document.allowedGroups asked

theorem groupsMeet_iff {allowedGroups groups : List String} :
    groupsMeet allowedGroups groups = true ↔
      allowedGroups = [] ∨ ∃ group ∈ allowedGroups, group ∈ groups := by
  simp only [groupsMeet, Bool.or_eq_true, List.isEmpty_iff, List.any_eq_true,
    List.contains_eq_mem, decide_eq_true_eq]

namespace Documents

/-- The rows after an update: the visible versions are patched. -/
def patchedRows (documents : Documents) (logical : LogicalDocument) (groups asked : List String)
    (displayName : Option String) (now : Time) : Documents :=
  documents.mapValues fun key document =>
    if document.versionOf logical groups key then
      InMemoryStore.patched (some asked) displayName now document
    else document

variable {before : Documents} {logical : LogicalDocument} {groups asked : List String}
  {displayName : Option String} {now : Time}

theorem patchedRows_find? (key : DocumentKey) :
    (before.patchedRows logical groups asked displayName now).find? key =
      (before.find? key).map fun document =>
        if document.versionOf logical groups key then
          InMemoryStore.patched (some asked) displayName now document
        else document :=
  Table.find?_mapValues before _ key

/-- A patch keeps what its promise says, as far as no hidden version is looser. -/
theorem patchedRows_accessSet_iff {key : DocumentKey} {found : Document}
    (stored : before.find? key = some found)
    (sees : found.versionOf logical groups key = true) :
    let after := before.patchedRows logical groups asked displayName now
    before.AccessSet after logical groups asked
        ((after.find? key).filter fun document => document.visible groups) ↔
      before.HiddenNotLooser logical groups asked := by
  intro after
  constructor
  · intro kept other document present belongs hidden
    refine kept.noneLooser other document ?_ belongs
    have notSeen : document.versionOf logical groups other = false := by
      rw [Version.versionOf, hidden, Bool.and_false]
    rw [patchedRows_find?, present, Option.map_some, notSeen]
    rfl
  · intro hiddenNotLooser
    constructor
    · intro other document present isSeen
      refine ⟨InMemoryStore.patched (some asked) displayName now document, ?_, rfl⟩
      rw [patchedRows_find?, present, Option.map_some, if_pos isSeen]
    · intro other document present belongs
      rw [patchedRows_find?, Option.map_eq_some_iff] at present
      obtain ⟨old, oldPresent, rfl⟩ := present
      by_cases isSeen : old.versionOf logical groups other = true
      · rw [if_pos isSeen]
        exact not_looser_self asked
      · rw [if_neg isSeen] at belongs ⊢
        refine hiddenNotLooser other old oldPresent belongs ?_
        rw [Version.versionOf, belongs, Bool.true_and] at isSeen
        exact Bool.eq_false_iff.mpr isSeen
    · intro other elsewhere
      rw [patchedRows_find?]
      cases present : before.find? other with
      | none => rfl
      | some document =>
          have notSeen : document.versionOf logical groups other = false := by
            rw [Version.versionOf, elsewhere document present, Bool.false_and]
          rw [Option.map_some, notSeen]
          rfl
    · rw [patchedRows_find?, stored, Option.map_some, if_pos sees, Option.filter_some,
        ← groupsMeet_iff]
      change (if groupsMeet asked groups then _ else none).isSome = true ↔ _
      split
      · rename_i meets
        exact iff_of_true rfl meets
      · rename_i shutOut
        exact iff_of_false Bool.false_ne_true shutOut

end Documents

theorem InMemoryStore.updateDocument_patchedRows {store : InMemoryStore}
    {tenantId documentId : String} {groups asked : List String} {displayName : Option String}
    {now : Time} {found : Document}
    (stored : store.documents.find? (tenantId, documentId) = some found)
    (visible : found.visible groups = true) :
    let rows := store.documents.patchedRows (logicalOf tenantId found.toVersion) groups asked
      displayName now
    store.updateDocument tenantId documentId groups (some asked) displayName now =
      ((true, (rows.find? (tenantId, documentId)).filter fun document =>
        document.visible groups), { store with documents := rows }) := by
  intro rows
  simp only [updateDocument, stored, visible, if_true]
  rfl

theorem Database.Invariant.updateDocument_patchedRows {hash : Sha256} {db : Database}
    (invariant : db.Invariant hash) {tenantId documentId : String}
    {groups asked : List String} {displayName : Option String} {now : Time}
    (later : db.clock < now) {found : Document}
    (stored : db.documents.find? (tenantId, documentId) = some found)
    (visible : found.visible groups = true) :
    let rows := db.documents.patchedRows (InMemoryStore.logicalOf tenantId found.toVersion)
      groups asked displayName now
    db.updateDocument tenantId documentId groups (some asked) displayName now =
      .ok ((true, (rows.find? (tenantId, documentId)).filter fun document =>
        document.visible groups), { db with documents := rows, clock := now }) := by
  intro rows
  have row := invariant.row (Table.find?_eq_some_iff.mp stored)
  have nonblank : strip tenantId ≠ "" := by
    rw [row.tenant_trimmed]
    exact row.tenant_ne
  have sameRows : (db.patchedAt tenantId found.toVersion groups (some asked) displayName
      now).documents = rows := by
    simp only [Database.patchedAt, rows, Documents.patchedRows]
    apply Table.mapValues_congr
    intro key document member
    rw [invariant.inTenant_and_versionOf tenantId found.toVersion groups member]
  rw [invariant.updateDocument_eq nonblank documentId groups (some asked) displayName later,
    stored, Option.filter_some, if_pos visible]
  dsimp only
  rw [sameRows]
  simp only [Database.patchedAt] at sameRows ⊢
  rw [sameRows]

/-- Setting the access list of a document keeps its promise exactly when no version
hidden from the caller is looser than the list. -/
theorem updateDocument_accessSet_iff (hash : Sha256) (tenantId documentId : String)
    (groups asked : List String) (displayName : Option String) :
    (∀ (store after : InMemoryStore) (now : Time) (found : Document) (row : Option Document),
      InMemoryStore.Reachable (PersistCall.Identified hash) store →
      store.documents.find? (tenantId, documentId) = some found →
      store.updateDocument tenantId documentId groups (some asked) displayName now =
        ((true, row), after) →
      let logical := InMemoryStore.logicalOf tenantId found.toVersion
      (store.documents.AccessSet after.documents logical groups asked row ↔
        store.documents.HiddenNotLooser logical groups asked)) ∧
    (∀ (db after : Database) (delay : Nat) (found : Document) (row : Option Document),
      Database.Reachable (PersistCall.Identified hash) db →
      db.documents.find? (tenantId, documentId) = some found →
      db.updateDocument tenantId documentId groups (some asked) displayName
        (db.nextNow delay) = .ok ((true, row), after) →
      let logical := InMemoryStore.logicalOf tenantId found.toVersion
      (db.documents.AccessSet after.documents logical groups asked row ↔
        db.documents.HiddenNotLooser logical groups asked)) := by
  have sees : ∀ {found : Document}, found.visible groups = true →
      found.versionOf (InMemoryStore.logicalOf tenantId found.toVersion) groups
        (tenantId, documentId) = true := by
    intro found visible
    exact Version.versionOf_iff.mpr ⟨Version.belongsTo_iff.mpr ⟨rfl, rfl, rfl⟩, visible⟩
  constructor
  · intro store after now found row _ stored success
    have visible : found.visible groups = true := by
      by_contra hidden
      simp only [InMemoryStore.updateDocument, stored, hidden, Bool.false_eq_true, if_false,
        Prod.mk.injEq, Bool.false_eq_true, false_and] at success
    rw [InMemoryStore.updateDocument_patchedRows stored visible, Prod.mk.injEq,
      Prod.mk.injEq] at success
    obtain ⟨⟨_, rfl⟩, rfl⟩ := success
    exact Documents.patchedRows_accessSet_iff stored (sees visible)
  · intro db after delay found row reached stored success
    have invariant := reached.invariant
    have identified := invariant.row (Table.find?_eq_some_iff.mp stored)
    have nonblank : strip tenantId ≠ "" := by
      rw [identified.tenant_trimmed]
      exact identified.tenant_ne
    have visible : found.visible groups = true := by
      by_contra hidden
      rw [invariant.updateDocument_eq nonblank documentId groups (some asked) displayName
        (db.lt_nextNow delay), stored, Option.filter_some, if_neg hidden] at success
      cases success
    rw [invariant.updateDocument_patchedRows (db.lt_nextNow delay) stored visible,
      Except.ok.injEq, Prod.mk.injEq, Prod.mk.injEq] at success
    obtain ⟨⟨_, rfl⟩, rfl⟩ := success
    exact Documents.patchedRows_accessSet_iff stored (sees visible)

/-- A version for `it` and `ops`, and one for `hr` that no member of them uploaded. -/
def sharedByStrangers : List PersistCall :=
  [notesUpload [1] ["it"] (some ["it", "ops"]), notesUpload [2] ["hr"] (some ["hr"])]

theorem sharedByStrangers_legal : ∀ call ∈ sharedByStrangers, call.Identified .spelling :=
  List.forall_mem_cons.mpr ⟨notesUpload_identified .., List.forall_mem_cons.mpr
    ⟨notesUpload_identified .., fun _ none => nomatch none⟩⟩

/-- Handing the document of `hr` over to `it` leaves the older version open to `ops`. -/
theorem hidden_version_stays_looser :
    let id := (notesUpload [2] [] none).key.2
    let store := InMemoryStore.empty.afterUploads sharedByStrangers
    let db := Database.empty.afterUploads (.first _) sharedByStrangers
    (InMemoryStore.Reachable (PersistCall.Identified .spelling) store ∧
      ∃ found row after, store.documents.find? ("t", id) = some found ∧
        store.updateDocument "t" id ["hr"] (some ["it"]) none 0 = ((true, row), after) ∧
        ¬ store.documents.AccessSet after.documents (InMemoryStore.logicalOf "t" found.toVersion)
          ["hr"] ["it"] row) ∧
    (Database.Reachable (PersistCall.Identified .spelling) db ∧
      ∃ found row after, db.documents.find? ("t", id) = some found ∧
        db.updateDocument "t" id ["hr"] (some ["it"]) none (db.nextNow 0) =
          .ok ((true, row), after) ∧
        ¬ db.documents.AccessSet after.documents (InMemoryStore.logicalOf "t" found.toVersion)
          ["hr"] ["it"] row) := by
  intro id store db
  let older := (notesUpload [1] [] none).key
  let newer : Document :=
    { (notesUpload [2] ["hr"] none).request.created ["hr"] 1 with
      lastCheckedAt := 0, createdAt := 0, updatedAt := 0 }
  let stale : Document :=
    { (notesUpload [1] ["it"] none).request.created ["it", "ops"] 1 with
      lastCheckedAt := 0, createdAt := 0, updatedAt := 0 }
  constructor
  · refine ⟨InMemoryStore.Reachable.empty.afterUploads sharedByStrangers_legal, newer, none,
      (store.updateDocument "t" id ["hr"] (some ["it"]) none 0).2, by decide +kernel,
      by decide +kernel, fun kept => ?_⟩
    exact kept.noneLooser older stale (by decide +kernel) (by decide +kernel) (by decide +kernel)
  · let newerRow := { newer with lastCheckedAt := 2, createdAt := 2, updatedAt := 2 }
    let staleRow := { stale with lastCheckedAt := 1, createdAt := 1, updatedAt := 1 }
    refine ⟨Database.Reachable.empty.afterUploads _ sharedByStrangers_legal, newerRow, none,
      (db.step (.first _) 0 (.updateDocument "t" id ["hr"] (some ["it"]) none)).2,
      by decide +kernel, by decide +kernel, fun kept => ?_⟩
    exact kept.noneLooser older staleRow (by decide +kernel) (by decide +kernel)
      (by decide +kernel)

/-- The same update keeps its promise where every version is the caller's to see. -/
theorem visible_versions_patched :
    let id := (notesUpload [2] [] none).key.2
    let uploads := [notesUpload [1] ["hr"] (some ["hr", "ops"]), notesUpload [2] ["hr"] none]
    let store := InMemoryStore.empty.afterUploads uploads
    let db := Database.empty.afterUploads (.first _) uploads
    (∃ found row after, store.updateDocument "t" id ["hr"] (some ["it"]) none 0 =
        ((true, row), after) ∧
      store.documents.AccessSet after.documents (InMemoryStore.logicalOf "t" found)
        ["hr"] ["it"] row) ∧
    (∃ found row after, db.updateDocument "t" id ["hr"] (some ["it"]) none (db.nextNow 0) =
        .ok ((true, row), after) ∧
      db.documents.AccessSet after.documents (InMemoryStore.logicalOf "t" found)
        ["hr"] ["it"] row) := by
  intro id uploads store db
  have legal : ∀ upload ∈ uploads, upload.Identified .spelling :=
    List.forall_mem_cons.mpr ⟨notesUpload_identified .., List.forall_mem_cons.mpr
      ⟨notesUpload_identified .., fun _ none => nomatch none⟩⟩
  let found : Document :=
    { (notesUpload [2] ["hr"] none).request.created ["hr", "ops"] 2 with
      lastCheckedAt := 0, createdAt := 0, updatedAt := 0 }
  let foundRow := { found with lastCheckedAt := 2, createdAt := 2, updatedAt := 2 }
  have success : store.updateDocument "t" id ["hr"] (some ["it"]) none 0 =
      ((true, none), (store.step 0 (.updateDocument "t" id ["hr"] (some ["it"]) none)).2) := by
    decide +kernel
  have committed : db.updateDocument "t" id ["hr"] (some ["it"]) none (db.nextNow 0) =
      .ok ((true, none),
        (db.step (.first _) 0 (.updateDocument "t" id ["hr"] (some ["it"]) none)).2) := by
    decide +kernel
  have seenInStore : ∀ entry ∈ store.documents.entries, entry.2.visible ["hr"] = true := by
    decide +kernel
  have seenInDatabase : ∀ entry ∈ db.documents.entries, entry.2.visible ["hr"] = true := by
    decide +kernel
  have both := updateDocument_accessSet_iff .spelling "t" id ["hr"] ["it"] none
  refine ⟨⟨found.toVersion, none, _, success, (both.1 store _ 0 found none
      (InMemoryStore.Reachable.empty.afterUploads legal) (by decide +kernel) success).mpr ?_⟩,
    ⟨foundRow.toVersion, none, _, committed, (both.2 db _ 0 foundRow none
      (Database.Reachable.empty.afterUploads _ legal) (by decide +kernel) committed).mpr ?_⟩⟩
  · intro key document present _ hidden
    rw [seenInStore _ (Table.find?_eq_some_iff.mp present)] at hidden
    cases hidden
  · intro key document present _ hidden
    rw [seenInDatabase _ (Table.find?_eq_some_iff.mp present)] at hidden
    cases hidden

end ProductionRag
