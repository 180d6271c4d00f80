import ProductionRag.Store.AccessList

/-!
# Documents a caller cannot see

Updates, deletions and the superseding of siblings are restricted to what the
caller sees.  `persist` looks its own row up by identity instead: it reinstates a
hidden superseded row, and PostgreSQL writes to a hidden ready one as well.
-/

set_option autoImplicit false

namespace ProductionRag

open Basis

/-- The row belongs to another tenant, or its access list shuts the caller out. -/
def Hidden (tenantId : String) (groups : List String) (key : DocumentKey)
    (document : Document) : Prop :=
  key.1 ≠ tenantId ∨ document.visible groups = false

/-- The row and its chunks are as before; only `last_checked_at` may have moved. -/
structure RowKept {C : Type} (key : DocumentKey) (row : Document) (after : Documents)
    (before' after' : Table DocumentKey C) : Prop where
  document : ∃ time, after.find? key = some (row.checkedAt time)
  chunks : after'.find? key = before'.find? key

/-- Every row hidden from the caller is kept. -/
def HiddenKept {C : Type} (tenantId : String) (groups : List String)
    (before after : Documents) (before' after' : Table DocumentKey C) : Prop :=
  ∀ key row, before.find? key = some row → Hidden tenantId groups key row →
    RowKept key row after before' after'

section Frame

variable {C : Type} {tenantId : String} {groups : List String} {before after : Documents}
  {before' after' : Table DocumentKey C}

theorem HiddenKept.refl : HiddenKept tenantId groups before before before' before' := by
  intro key row found _
  exact ⟨⟨row.lastCheckedAt, found⟩, rfl⟩

/-- A rewriting that leaves hidden rows alone keeps them. -/
theorem HiddenKept.mapValues (kept : HiddenKept tenantId groups before after before' after')
    {f : DocumentKey → Document → Document}
    (same : ∀ key row, Hidden tenantId groups key row → f key row = row) :
    HiddenKept tenantId groups before (after.mapValues f) before' after' := by
  intro key row found hidden
  obtain ⟨⟨time, lookup⟩, chunks⟩ := kept key row found hidden
  have hidden' : Hidden tenantId groups key (row.checkedAt time) := hidden
  refine ⟨⟨time, ?_⟩, chunks⟩
  rw [Table.find?_mapValues, lookup, Option.map_some, same key _ hidden']

/-- So does writing a row under a key that holds no hidden one. -/
theorem HiddenKept.modify (kept : HiddenKept tenantId groups before after before' after')
    {key : DocumentKey} {f : Document → Document}
    (seen : ∀ row, before.find? key = some row → ¬ Hidden tenantId groups key row) :
    HiddenKept tenantId groups before (after.modify key f) before' after' := by
  intro other row found hidden
  have different : other ≠ key := by
    rintro rfl
    exact seen row found hidden
  obtain ⟨⟨time, lookup⟩, chunks⟩ := kept other row found hidden
  exact ⟨⟨time, (Table.find?_modify_ne _ _ different).trans lookup⟩, chunks⟩

theorem HiddenKept.set (kept : HiddenKept tenantId groups before after before' after')
    {key : DocumentKey} {document : Document} {value : C} (fresh : before.find? key = none) :
    HiddenKept tenantId groups before (after.set key document) before'
      (after'.set key value) := by
  intro other row found hidden
  have different : other ≠ key := by
    rintro rfl
    rw [fresh] at found
    cases found
  obtain ⟨⟨time, lookup⟩, chunks⟩ := kept other row found hidden
  refine ⟨⟨time, ?_⟩, ?_⟩
  · rw [Table.find?_set, if_neg different, lookup]
  · rw [Table.find?_set, if_neg different, chunks]

theorem HiddenKept.erase {key : DocumentKey} (visible : ∀ row, before.find? key = some row →
      ¬ Hidden tenantId groups key row) :
    HiddenKept tenantId groups before (before.erase key) before' (before'.erase key) := by
  intro other row found hidden
  have different : other ≠ key := by
    rintro rfl
    exact visible row found hidden
  refine ⟨⟨row.lastCheckedAt, ?_⟩, Table.find?_erase_ne _ different⟩
  rw [Table.find?_erase_ne _ different, found]
  rfl

/-- A visible row of the tenant is not hidden. -/
theorem not_hidden {key : DocumentKey} {row : Document} (own : key.1 = tenantId)
    (visible : row.visible groups = true) : ¬ Hidden tenantId groups key row := by
  rintro (other | shut)
  · exact other own
  · rw [visible] at shut
    cases shut

end Frame

theorem Hidden.not_versionOf (logical : LogicalDocument) {groups : List String}
    {key : DocumentKey} {row : Document} (hidden : Hidden logical.tenantId groups key row) :
    row.versionOf logical groups key = false := by
  rw [Bool.eq_false_iff]
  intro sees
  obtain ⟨belongs, visible⟩ := Version.versionOf_iff.mp sees
  rcases hidden with other | shut
  · exact other (Version.belongsTo_iff.mp belongs).1
  · rw [visible] at shut
    cases shut

/-! ## The in-memory store -/

namespace InMemoryStore

def HiddenKept (tenantId : String) (groups : List String) (before after : InMemoryStore) : Prop :=
  ProductionRag.HiddenKept tenantId groups before.documents after.documents before.chunks
    after.chunks

theorem updateDocument_hiddenKept (store : InMemoryStore) (tenantId documentId : String)
    (groups : List String) (allowedGroups : Option (List String))
    (displayName : Option String) (now : Time) :
    store.HiddenKept tenantId groups
      (store.updateDocument tenantId documentId groups allowedGroups displayName now).2 := by
  simp only [updateDocument]
  split
  · exact .refl
  · rename_i existing _
    split
    · dsimp only [HiddenKept]
      refine HiddenKept.refl.mapValues ?_
      intro key row hidden
      have unseen := hidden.not_versionOf
        ⟨tenantId, existing.sourceSystem, existing.sourceId⟩
      simp only [unseen, Bool.false_eq_true, if_false]
    · exact .refl

theorem deleteDocument_hiddenKept (store : InMemoryStore) (tenantId documentId : String)
    (groups : List String) :
    store.HiddenKept tenantId groups (store.deleteDocument tenantId documentId groups).2 := by
  unfold deleteDocument
  split
  · exact .refl
  · rename_i seen
    refine ProductionRag.HiddenKept.erase ?_
    intro row found hidden
    rw [getDocument, found, Option.filter_eq_some_iff] at seen
    obtain ⟨same, visible⟩ := seen
    cases same
    exact not_hidden rfl visible hidden

theorem supersededAt_hidden {call : PersistCall} {now : Time} {key : DocumentKey}
    {row : Document} (hidden : Hidden call.tenantId call.groups key row) :
    supersededAt call now key row = row := by
  have unseen : call.request.supersedes key row.toVersion = false := by
    rw [UploadRequest.supersedes, UploadRequest.siblingOf, Version.siblingOf]
    rw [show row.versionOf call.request.logical call.request.groups key = false from
      hidden.not_versionOf call.logical]
    rfl
  rw [supersededAt, unseen]
  rfl

theorem persist_hiddenKept_iff (store : InMemoryStore) (now : Time) (call : PersistCall) :
    store.HiddenKept call.tenantId call.groups (store.step now (.persist call)).2 ↔
      (call.result.chunks ≠ [] → ∀ stored, store.documents.find? call.key = some stored →
        stored.visible call.groups = true ∨ stored.status = .ready) := by
  by_cases empty : call.result.chunks = []
  · simp only [step, persistCall_error store now call empty, empty, ne_eq, not_true_eq_false,
      false_implies, iff_true]
    exact .refl
  · simp only [step, persistCall_eq store now call empty, ne_eq, empty, not_false_eq_true,
      true_implies]
    have displaced : ProductionRag.HiddenKept call.tenantId call.groups store.documents
        (store.documents.mapValues (supersededAt call now)) store.chunks store.chunks :=
      HiddenKept.refl.mapValues fun _ _ hidden => supersededAt_hidden hidden
    cases found : store.documents.find? call.key with
    | none =>
        simp only [reduceCtorEq, false_implies, implies_true, iff_true]
        exact displaced.set found
    | some existing =>
        simp only [Option.some.injEq, forall_eq']
        by_cases ready : existing.isReady = true
        · simp only [ready, if_true, (Version.isReady_iff _).mp ready, or_true, iff_true]
          intro key row lookup hidden
          refine ⟨?_, rfl⟩
          by_cases same : key = call.key
          · subst same
            refine ⟨now, ?_⟩
            rw [Table.find?_modify_self, lookup, Option.map_some]
          · refine ⟨row.lastCheckedAt, ?_⟩
            rw [Table.find?_modify_ne _ _ same, lookup]
            rfl
        · simp only [ready, Bool.false_eq_true, if_false]
          have superseded : existing.status ≠ .ready := fun status =>
            ready ((Version.isReady_iff _).mpr status)
          simp only [superseded, or_false]
          constructor
          · intro kept
            by_contra shut
            have hidden : Hidden call.tenantId call.groups call.key existing :=
              Or.inr (Bool.not_eq_true _ ▸ shut)
            obtain ⟨⟨time, same⟩, _⟩ := kept call.key existing found hidden
            rw [Table.find?_modify_self, Table.find?_mapValues, found, Option.map_some,
              Option.map_some, Option.some.injEq] at same
            exact superseded (congrArg (fun row : Document => row.status) same).symm
          · intro visible
            dsimp only [HiddenKept]
            refine displaced.modify ?_
            intro row lookup hidden
            rw [found, Option.some.injEq] at lookup
            subst lookup
            exact not_hidden rfl visible hidden

end InMemoryStore

/-! ## PostgreSQL -/

/-- No row was updated after `clock`. -/
def UpdatedBy (clock : Time) (documents : Documents) : Prop :=
  ∀ key row, (key, row) ∈ documents.entries → row.updatedAt ≤ clock

theorem UpdatedBy.mapValues {clock now : Time} {documents : Documents}
    (bounded : UpdatedBy clock documents) (later : clock ≤ now)
    {f : DocumentKey → Document → Document}
    (written : ∀ key row, (f key row).updatedAt = row.updatedAt ∨ (f key row).updatedAt = now) :
    UpdatedBy now (documents.mapValues f) := by
  intro key row member
  obtain ⟨old, oldMember, rfl⟩ := Table.mem_entries_mapValues.mp member
  rcases written key old with same | new
  · rw [same]
    exact Nat.le_trans (bounded key old oldMember) later
  · exact Nat.le_of_eq new

theorem UpdatedBy.modify {clock now : Time} {documents : Documents}
    (bounded : UpdatedBy clock documents) (later : clock ≤ now) {key : DocumentKey}
    {f : Document → Document}
    (written : ∀ row, (f row).updatedAt = row.updatedAt ∨ (f row).updatedAt = now) :
    UpdatedBy now (documents.modify key f) := by
  refine bounded.mapValues later ?_
  intro other row
  split
  · exact written row
  · exact Or.inl rfl

theorem UpdatedBy.set {clock : Time} {documents : Documents} (bounded : UpdatedBy clock documents)
    {key : DocumentKey} {document : Document} (written : document.updatedAt ≤ clock) :
    UpdatedBy clock (documents.set key document) := by
  intro other row member
  rw [← Table.find?_eq_some_iff, Table.find?_set] at member
  split at member
  · cases member
    exact written
  · exact bounded other row (Table.find?_eq_some_iff.mp member)

theorem UpdatedBy.erase {clock now : Time} {documents : Documents}
    (bounded : UpdatedBy clock documents) (later : clock ≤ now) (key : DocumentKey) :
    UpdatedBy now (documents.erase key) := by
  intro other row member
  exact Nat.le_trans (bounded other row (Table.mem_entries_filter.mp member).1) later

namespace Database

theorem promote_updatedBy {clock now : Time} {documents : Documents}
    (bounded : UpdatedBy clock documents) (later : clock ≤ now) (logical : LogicalDocument)
    (groups : List String) (documentId filename : String) :
    UpdatedBy now (promote documents logical groups documentId filename now).documents := by
  simp only [promote]
  refine UpdatedBy.modify (bounded.mapValues later ?_) (Nat.le_refl now) fun _ => Or.inr rfl
  intro key row
  split
  · exact Or.inr rfl
  · exact Or.inl rfl

theorem persistCall_updatedBy {db after : Database} {plan : VersionPlan} {now : Time}
    {call : PersistCall} {result : PersistResult} (bounded : UpdatedBy db.clock db.documents)
    (later : db.clock ≤ now) (success : db.persistCall plan now call = .ok (result, after)) :
    UpdatedBy after.clock after.documents := by
  have repeatedBy : ∀ key, UpdatedBy now (db.documents.modify key (repeated call now)) :=
    fun key => bounded.modify later fun _ => Or.inr rfl
  cases persistCall_persisted success with
  | current hit ready => exact repeatedBy _
  | promoted hit notReady promotes =>
      subst promotes
      exact promote_updatedBy (repeatedBy _) (Nat.le_refl now) _ _ _ _
  | inserted hit missing allowed promotes =>
      subst promotes
      have bounded' : UpdatedBy now db.documents := fun key row member =>
        Nat.le_trans (bounded key row member) later
      exact promote_updatedBy (bounded'.set (Nat.le_refl now)) (Nat.le_refl now) _ _ _ _

/-- What a committed update leaves: the old rows, or the patch of what the caller sees. -/
theorem updateDocument_ok {db after : Database} {tenantId documentId : String}
    {groups : List String} {allowedGroups : Option (List String)} {displayName : Option String}
    {now : Time} {out : Bool × Option Document}
    (success : db.updateDocument tenantId documentId groups allowedGroups displayName now =
      .ok (out, after)) :
    after = { db with clock := now } ∨
      ∃ found, after = db.patchedAt tenantId found groups allowedGroups displayName now := by
  simp only [updateDocument, setTenant, bind, Except.bind] at success
  split at success
  · cases success
  · split at success
    · cases success
      exact Or.inl rfl
    · rename_i existing _
      split at success
      · split at success
        · cases success
        · cases success
          exact Or.inr ⟨existing.toVersion, rfl⟩
      · cases success
        exact Or.inl rfl

/-- What a committed deletion leaves: the old rows, or all but a visible one. -/
theorem deleteDocument_ok {db after : Database} {tenantId documentId : String}
    {groups : List String} {now : Time} {found : Bool}
    (success : db.deleteDocument tenantId documentId groups now = .ok (found, after)) :
    after = { db with clock := now } ∨
      ∃ row, db.documents.find? (strip tenantId, strip documentId) = some row ∧
        row.visible groups = true ∧
        after = { documents := db.documents.erase (strip tenantId, strip documentId),
                  chunks := db.chunks.erase (strip tenantId, strip documentId),
                  clock := now } := by
  simp only [deleteDocument] at success
  split at success
  · cases success
  · split at success
    · cases success
      exact Or.inl rfl
    · rename_i row seen
      obtain ⟨lookup, visible⟩ := Option.filter_eq_some_iff.mp seen
      cases success
      exact Or.inr ⟨row, lookup, visible, rfl⟩

theorem step_updatedBy {db : Database} (bounded : UpdatedBy db.clock db.documents)
    (plan : VersionPlan) (delay : Nat) (call : StoreCall) :
    UpdatedBy (db.step plan delay call).2.clock (db.step plan delay call).2.documents := by
  have later : db.clock ≤ db.nextNow delay := Nat.le_of_lt (db.lt_nextNow delay)
  have unchanged : UpdatedBy (db.nextNow delay) db.documents := fun key row member =>
    Nat.le_trans (bounded key row member) later
  cases call with
  | persist call =>
      simp only [step, settle]
      cases out : db.persistCall plan (db.nextNow delay) call with
      | error e => exact bounded
      | ok pair =>
          obtain ⟨result, after⟩ := pair
          exact persistCall_updatedBy bounded later out
  | markChecked tenantId documentId =>
      simp only [step, settle, markChecked, setTenant, bind, Except.bind]
      by_cases blank : strip tenantId = ""
      · simp only [blank, if_true]
        exact bounded
      · simp only [blank, if_false, Except.map]
        refine bounded.mapValues later ?_
        intro key row
        left
        split <;> rfl
  | updateDocument tenantId documentId groups allowedGroups displayName =>
      simp only [step, settle]
      cases out : db.updateDocument tenantId documentId groups allowedGroups displayName
          (db.nextNow delay) with
      | error e => exact bounded
      | ok pair =>
          obtain ⟨found, after⟩ := pair
          rcases updateDocument_ok out with rfl | ⟨existing, rfl⟩
          · exact unchanged
          · refine bounded.mapValues later ?_
            intro key row
            split
            · exact Or.inr rfl
            · exact Or.inl rfl
  | deleteDocument tenantId documentId groups =>
      simp only [step, settle]
      cases out : db.deleteDocument tenantId documentId groups (db.nextNow delay) with
      | error e => exact bounded
      | ok pair =>
          obtain ⟨found, after⟩ := pair
          rcases deleteDocument_ok out with rfl | ⟨row, _, _, rfl⟩
          · exact unchanged
          · exact bounded.erase later _
  | currentVersion tenantId source groups => exact bounded
  | getDocument tenantId documentId groups => exact bounded
  | listDocuments tenantId groups includeSuperseded => exact bounded

theorem Reachable.updatedBy {legal : PersistCall → Prop} {db : Database}
    (reached : Reachable legal db) : UpdatedBy db.clock db.documents :=
  reached.induct (fun db => UpdatedBy db.clock db.documents)
    (fun _ _ member => nomatch member) fun _ plan delay call bounded _ =>
      step_updatedBy bounded plan delay call

/-- The tenant of a call is the one `_set_tenant` selects. -/
def HiddenKept (tenantId : String) (groups : List String) (before after : Database) : Prop :=
  ProductionRag.HiddenKept (strip tenantId) groups before.documents after.documents
    before.chunks after.chunks

theorem updateDocument_hiddenKept (db : Database) (plan : VersionPlan) (delay : Nat)
    (tenantId documentId : String) (groups : List String)
    (allowedGroups : Option (List String)) (displayName : Option String) :
    db.HiddenKept tenantId groups
      (db.step plan delay
        (.updateDocument tenantId documentId groups allowedGroups displayName)).2 := by
  simp only [step, settle]
  cases out : db.updateDocument tenantId documentId groups allowedGroups displayName
      (db.nextNow delay) with
  | error e => exact .refl
  | ok pair =>
      obtain ⟨found, after⟩ := pair
      rcases updateDocument_ok out with rfl | ⟨existing, rfl⟩
      · exact .refl
      · dsimp only [HiddenKept, patchedAt]
        refine HiddenKept.refl.mapValues ?_
        intro key row hidden
        have unseen : (inTenant tenantId key && row.versionOf
            ⟨tenantId, existing.sourceSystem, existing.sourceId⟩ groups key) = false := by
          rw [Bool.eq_false_iff]
          intro sees
          rw [Bool.and_eq_true, inTenant, Bool.and_eq_true, beq_iff_eq, beq_iff_eq] at sees
          exact not_hidden sees.1.2 (Version.versionOf_iff.mp sees.2).2 hidden
        simp only [unseen, Bool.false_eq_true, if_false]

theorem deleteDocument_hiddenKept (db : Database) (plan : VersionPlan) (delay : Nat)
    (tenantId documentId : String) (groups : List String) :
    db.HiddenKept tenantId groups
      (db.step plan delay (.deleteDocument tenantId documentId groups)).2 := by
  simp only [step, settle]
  cases out : db.deleteDocument tenantId documentId groups (db.nextNow delay) with
  | error e => exact .refl
  | ok pair =>
      obtain ⟨found, after⟩ := pair
      rcases deleteDocument_ok out with rfl | ⟨row, lookup, visible, rfl⟩
      · exact .refl
      · refine ProductionRag.HiddenKept.erase ?_
        intro other found hidden
        rw [lookup, Option.some.injEq] at found
        subst found
        exact not_hidden rfl visible hidden

theorem promote_hiddenKept {C : Type} {before after : Documents}
    {before' after' : Table DocumentKey C} (logical : LogicalDocument) {groups : List String}
    {documentId : String}
    (kept : ProductionRag.HiddenKept logical.tenantId groups before after before' after')
    (seen : ∀ row, before.find? (logical.tenantId, documentId) = some row →
      ¬ Hidden logical.tenantId groups (logical.tenantId, documentId) row)
    (filename : String) (now : Time) :
    ProductionRag.HiddenKept logical.tenantId groups before
      (promote after logical groups documentId filename now).documents before' after' := by
  simp only [promote]
  refine HiddenKept.modify (HiddenKept.mapValues kept ?_) seen
  intro key row hidden
  have unseen : row.siblingOf logical groups documentId key = false := by
    rw [Version.siblingOf, hidden.not_versionOf logical, Bool.false_and]
  simp only [unseen, Bool.and_false, Bool.false_and, Bool.false_eq_true, if_false]

theorem promote_updatedAt {documents : Documents} (logical : LogicalDocument)
    {documentId : String} {row : Document}
    (found : documents.find? (logical.tenantId, documentId) = some row)
    (groups : List String) (filename : String) (now : Time) :
    ∃ row', (promote documents logical groups documentId filename now).documents.find?
      (logical.tenantId, documentId) = some row' ∧ row'.updatedAt = now := by
  simp only [promote]
  rw [Table.find?_modify_self, Table.find?_mapValues, found]
  exact ⟨_, rfl, rfl⟩

/-- A committed upload of stored content writes `updated_at` of the content's row. -/
theorem persistCall_updatedAt {db after : Database} {plan : VersionPlan} {now : Time}
    {call : PersistCall} {result : PersistResult}
    (success : db.persistCall plan now call = .ok (result, after))
    {key : DocumentKey} {existing : Document}
    (hit : db.conflicting call.logical call.result.contentSha256 = some (key, existing)) :
    ∃ row, after.documents.find? key = some row ∧ row.updatedAt = now := by
  obtain ⟨tenant, found⟩ := conflicting_tenant hit
  have ownKey : (call.logical.tenantId, key.2) = key := Prod.ext tenant.symm rfl
  have written : (db.documents.modify key (repeated call now)).find? key =
      some (repeated call now existing) := by
    rw [Table.find?_modify_self, found, Option.map_some]
  cases persistCall_persisted success with
  | current other ready =>
      rw [hit] at other
      cases other
      exact ⟨_, written, rfl⟩
  | promoted other notReady promotes =>
      rw [hit] at other
      cases other
      subst promotes
      rw [← ownKey] at written ⊢
      exact promote_updatedAt call.logical written _ _ _
  | inserted missed missing allowed promotes =>
      rw [hit] at missed
      cases missed

/-- A committed upload whose content's row is visible keeps every hidden document. -/
theorem persistCall_hiddenKept {db after : Database} {plan : VersionPlan} {now : Time}
    {call : PersistCall} {result : PersistResult}
    (success : db.persistCall plan now call = .ok (result, after))
    (visible : ∀ key stored,
      db.conflicting call.logical call.result.contentSha256 = some (key, stored) →
        stored.visible call.groups = true) :
    ProductionRag.HiddenKept call.logical.tenantId call.groups db.documents after.documents
      db.chunks after.chunks := by
  have seen {key : DocumentKey} {existing : Document}
      (hit : db.conflicting call.logical call.result.contentSha256 = some (key, existing)) :
      ∀ row, db.documents.find? key = some row →
        ¬ Hidden call.logical.tenantId call.groups key row := by
    intro row lookup
    obtain ⟨tenant, found⟩ := conflicting_tenant hit
    rw [found, Option.some.injEq] at lookup
    subst lookup
    exact not_hidden tenant (visible key existing hit)
  cases persistCall_persisted success with
  | current hit ready => exact HiddenKept.refl.modify (seen hit)
  | @promoted key existing hit notReady promotion promotes =>
      subst promotes
      have ownKey : (call.logical.tenantId, key.2) = key :=
        Prod.ext (conflicting_tenant hit).1.symm rfl
      have seenKey := seen hit
      rw [← ownKey] at seenKey ⊢
      exact promote_hiddenKept call.logical (HiddenKept.refl.modify seenKey) seenKey _ _
  | inserted hit missing allowed promotes =>
      subst promotes
      refine promote_hiddenKept call.logical (HiddenKept.refl.set missing) ?_ _ _
      intro row found
      rw [show db.documents.find? (call.logical.tenantId, call.result.documentId) = none
        from missing] at found
      cases found

theorem persist_hiddenKept_iff {legal : PersistCall → Prop} {db : Database}
    (reached : Reachable legal db) (plan : VersionPlan) (delay : Nat) (call : PersistCall) :
    db.HiddenKept call.tenantId call.groups (db.step plan delay (.persist call)).2 ↔
      (call.Accepted → ∀ key stored,
        db.conflicting call.logical call.result.contentSha256 = some (key, stored) →
          stored.visible call.groups = true) := by
  simp only [step, settle]
  cases out : db.persistCall plan (db.nextNow delay) call with
  | error e =>
      refine ⟨fun _ accepted key stored hit => ?_, fun _ => .refl⟩
      rw [persistCall_eq db plan _ call accepted, hit] at out
      dsimp only at out
      split at out <;> cases out
  | ok pair =>
      obtain ⟨result, after⟩ := pair
      have accepted := persistCall_ok out
      simp only [accepted, true_implies, HiddenKept, accepted.tenant_trimmed]
      constructor
      · intro kept key stored hit
        by_contra shut
        have hidden : Hidden call.tenantId call.groups key stored :=
          Or.inr (Bool.not_eq_true _ ▸ shut)
        have found := (conflicting_tenant hit).2
        obtain ⟨⟨time, same⟩, _⟩ := kept key stored found hidden
        obtain ⟨row, lookup, updated⟩ := persistCall_updatedAt out hit
        rw [lookup, Option.some.injEq] at same
        have bounded := reached.updatedBy key stored (Table.find?_eq_some_iff.mp found)
        rw [same] at updated
        exact absurd (updated ▸ bounded) (Nat.not_le_of_lt (db.lt_nextNow delay))
      · exact persistCall_hiddenKept out

end Database

/-- Updates and deletions keep every hidden document; an upload does exactly when the
row of its content is not a hidden one (in memory: not a hidden superseded one). -/
theorem hidden_documents_kept_iff (tenantId documentId : String) (groups : List String)
    (allowedGroups : Option (List String)) (displayName : Option String) (call : PersistCall) :
    (∀ (store : InMemoryStore) (now : Time),
      store.HiddenKept tenantId groups (store.step now
        (.updateDocument tenantId documentId groups allowedGroups displayName)).2 ∧
      store.HiddenKept tenantId groups
        (store.step now (.deleteDocument tenantId documentId groups)).2 ∧
      (store.HiddenKept call.tenantId call.groups (store.step now (.persist call)).2 ↔
        (call.result.chunks ≠ [] → ∀ stored, store.documents.find? call.key = some stored →
          stored.visible call.groups = true ∨ stored.status = .ready))) ∧
    (∀ (db : Database) (plan : VersionPlan) (delay : Nat),
      Database.Reachable (fun _ => True) db →
      db.HiddenKept tenantId groups (db.step plan delay
        (.updateDocument tenantId documentId groups allowedGroups displayName)).2 ∧
      db.HiddenKept tenantId groups
        (db.step plan delay (.deleteDocument tenantId documentId groups)).2 ∧
      (db.HiddenKept call.tenantId call.groups (db.step plan delay (.persist call)).2 ↔
        (call.Accepted → ∀ key stored,
          db.conflicting call.logical call.result.contentSha256 = some (key, stored) →
            stored.visible call.groups = true))) := by
  constructor
  · intro store now
    exact ⟨store.updateDocument_hiddenKept tenantId documentId groups allowedGroups displayName
        now, store.deleteDocument_hiddenKept tenantId documentId groups,
      store.persist_hiddenKept_iff now call⟩
  · intro db plan delay reached
    exact ⟨db.updateDocument_hiddenKept plan delay tenantId documentId groups allowedGroups
        displayName, db.deleteDocument_hiddenKept plan delay tenantId documentId groups,
      Database.persist_hiddenKept_iff reached plan delay call⟩

/-- Two restricted versions, the first superseded by the second. -/
def restrictedHistory : List PersistCall :=
  [notesUpload [1] ["hr"] (some ["hr"]), notesUpload [2] ["hr"] (some ["hr"])]

/-- An outsider who sends the first bytes brings the superseded version back. -/
theorem outsider_reinstates_hidden_version :
    let call := notesUpload [1] [] none
    let store := InMemoryStore.empty.afterUploads restrictedHistory
    let db := Database.empty.afterUploads (.first _) restrictedHistory
    (InMemoryStore.Reachable (fun _ => True) store ∧
      ¬ store.HiddenKept call.tenantId call.groups (store.step 0 (.persist call)).2) ∧
    (Database.Reachable (fun _ => True) db ∧
      ¬ db.HiddenKept call.tenantId call.groups (db.step (.first _) 0 (.persist call)).2) := by
  intro call store db
  let first : Version := { call.request.created ["hr"] 1 with status := .superseded }
  constructor
  · refine ⟨InMemoryStore.Reachable.empty.afterUploads fun _ _ => trivial, ?_⟩
    intro kept
    have found : store.documents.find? call.key = some
        { first with lastCheckedAt := 0, createdAt := 0, updatedAt := 0 } := by decide +kernel
    obtain ⟨⟨time, same⟩, _⟩ := kept call.key _ found (Or.inr (by decide))
    have status := congrArg (Option.map fun row : Document => row.status) same
    have reinstated : ((store.step 0 (.persist call)).2.documents.find? call.key).map
        (fun row : Document => row.status) = some .ready := by decide +kernel
    rw [reinstated] at status
    cases status
  · refine ⟨Database.Reachable.empty.afterUploads _ fun _ _ => trivial, ?_⟩
    intro kept
    have found : db.documents.find? call.key = some
        { first with lastCheckedAt := 1, createdAt := 1, updatedAt := 2 } := by decide +kernel
    obtain ⟨⟨time, same⟩, _⟩ := kept call.key _ found (Or.inr (by decide))
    have status := congrArg (Option.map fun row : Document => row.status) same
    have reinstated : ((db.step (.first _) 0 (.persist call)).2.documents.find? call.key).map
        (fun row : Document => row.status) = some .ready := by decide +kernel
    rw [reinstated] at status
    cases status

/-- New bytes from the outsider leave both versions alone. -/
theorem outsider_upload_keeps_hidden_versions :
    let call := notesUpload [3] [] none
    let store := InMemoryStore.empty.afterUploads restrictedHistory
    let db := Database.empty.afterUploads (.first _) restrictedHistory
    store.HiddenKept "t" [] (store.step 0 (.persist call)).2 ∧
      db.HiddenKept "t" [] (db.step (.first _) 0 (.persist call)).2 := by
  intro call store db
  constructor
  · have missing : store.documents.find? call.key = none := by decide +kernel
    refine ((hidden_documents_kept_iff "t" "" [] none none call).1 store 0).2.2.mpr ?_
    intro _ stored found
    rw [missing] at found
    cases found
  · have noConflict : db.conflicting call.logical call.result.contentSha256 = none := by
      decide +kernel
    have reached : Database.Reachable (fun _ => True) db :=
      Database.Reachable.empty.afterUploads _ fun _ _ => trivial
    refine ((hidden_documents_kept_iff "t" "" [] none none call).2 db (.first _) 0
      reached).2.2.mpr ?_
    intro _ key stored hit
    rw [noConflict] at hit
    cases hit

end ProductionRag
