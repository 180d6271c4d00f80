import ProductionRag.Store.Search
import ProductionRag.Store.Tenants

/-!
# Tenants of the database do not see each other

The statements of PostgreSQL read and write rows of one tenant, searches included.  What the
others do between two transactions of a tenant moves the clock and nothing else that the tenant
can see.
-/

set_option autoImplicit false

namespace ProductionRag

open Basis
open InMemoryStore (ownedBy ownedBy_self ownedBy_other)

/-- The methods of `PostgresPersistence`. -/
inductive DatabaseOp where
  | call (call : StoreCall)
  | searchSimilar (tenantId : String) (embedding : Embedding) (limit : Nat) (model : String)
      (groups : List String)
  | searchHybrid (tenantId queryText : String) (embedding : Embedding)
      (limit candidateLimit : Nat) (model : String) (groups : List String)
  | listChunks (tenantId : String) (documentId : Option String) (groups : List String)

inductive DatabaseReply where
  | reply (reply : Except PyError StoreReply)
  | similar (rows : Except PyError (List (SearchRow × ℚ)))
  | hybrid (rows : Except PyError (List (Candidate × ℚ)))
  | chunks (rows : Except PyError (List SearchRow))

/-- The tenant whose rows a method may touch; a deletion strips the one it gets. -/
def DatabaseOp.tenant? : DatabaseOp → Option String
  | .call (.deleteDocument tenantId _ _) => some (strip tenantId)
  | .call method => method.tenant?
  | .searchSimilar tenantId .. => some tenantId
  | .searchHybrid tenantId .. => some tenantId
  | .listChunks tenantId .. => some tenantId

/-- A transaction on behalf of a tenant, with the `now()` that it reads. -/
structure TenantTransaction where
  tenantId : String
  plan : VersionPlan
  now : Time
  op : DatabaseOp
  own : ∀ tenant ∈ op.tenant?, tenant = tenantId

namespace Database

/-- A call whose transaction reads `now`. -/
def stepAt (db : Database) (plan : VersionPlan) (now : Time) :
    StoreCall → Except PyError StoreReply × Database
  | .persist call => db.settle .persisted (db.persistCall plan now call)
  | .currentVersion tenantId source groups =>
    ((db.currentVersion tenantId source groups).map .current, db)
  | .markChecked tenantId documentId =>
    db.settle (fun _ => .checked)
      ((db.markChecked tenantId documentId now).map fun db' => ((), db'))
  | .updateDocument tenantId documentId groups allowedGroups displayName =>
    db.settle (fun out => .updated out.1 out.2)
      (db.updateDocument tenantId documentId groups allowedGroups displayName now)
  | .deleteDocument tenantId documentId groups =>
    db.settle .deleted (db.deleteDocument tenantId documentId groups now)
  | .getDocument tenantId documentId groups =>
    ((db.getDocument tenantId documentId groups).map .document, db)
  | .listDocuments tenantId groups includeSuperseded =>
    ((db.listDocuments tenantId groups includeSuperseded).map .documents, db)

/-- A step of the database is a call at its next reading of the clock. -/
theorem step_eq_stepAt (db : Database) (plan : VersionPlan) (delay : Nat) (call : StoreCall) :
    db.step plan delay call = db.stepAt plan (db.nextNow delay) call := by
  cases call <;> rfl

def stepOp (engine : SearchEngine) (lower : String → String) (db : Database) (plan : VersionPlan)
    (now : Time) : DatabaseOp → DatabaseReply × Database
  | .call call => (.reply (db.stepAt plan now call).1, (db.stepAt plan now call).2)
  | .searchSimilar tenantId embedding limit model groups =>
    (.similar (db.searchSimilar engine tenantId embedding limit model groups), db)
  | .searchHybrid tenantId queryText embedding limit candidateLimit model groups =>
    (.hybrid (ProductionRag.searchHybrid (db.statements engine) lower tenantId queryText embedding
      limit candidateLimit model groups), db)
  | .listChunks tenantId documentId groups =>
    (.chunks (db.listChunks tenantId documentId groups), db)

def tenantMachine (engine : SearchEngine) (lower : String → String) :
    Mealy Database TenantTransaction DatabaseReply :=
  ⟨fun db event => db.stepOp engine lower event.plan event.now event.op⟩

/-- The rows of one tenant, without the clock. -/
def only (db : Database) (tenantId : String) : Database where
  documents := db.documents.restrict (ownedBy tenantId)
  chunks := db.chunks.restrict (ownedBy tenantId)
  clock := 0

/-- The answer of a transaction, and the rows of the tenant after it. -/
def seenBy {α : Type} (tenantId : String) (out : Except PyError (α × Database)) :
    Except PyError (α × Database) :=
  out.map fun out => (out.1, out.2.only tenantId)

/-! ## A tenant's own transactions -/

section Own

variable (db : Database) (tenantId : String)

theorem inTenant_owned {tenantId : String} {key : DocumentKey}
    (inside : inTenant tenantId key = true) : ownedBy tenantId key = true :=
  (Bool.and_eq_true_iff.mp inside).1

theorem select_only {q : DocumentKey → Document → Bool}
    (inside : ∀ key document, q key document = true → ownedBy tenantId key = true) :
    (db.only tenantId).documents.select q = db.documents.select q :=
  Table.select_restrict inside

theorem conflicting_only {logical : LogicalDocument} (own : logical.tenantId = tenantId)
    (contentSha256 : String) :
    (db.only tenantId).conflicting logical contentSha256 =
      db.conflicting logical contentSha256 := by
  rw [conflicting, conflicting, only, Table.restrict, Table.entries_filter, List.find?_filter]
  congr 1
  funext entry
  cases holds : entry.2.belongsTo logical entry.1 && entry.2.contentSha256 == contentSha256 with
  | false => simp
  | true =>
      have belongs := (Version.belongsTo_iff.mp (Bool.and_eq_true_iff.mp holds).1).1
      have owned : ownedBy tenantId entry.1 = true := beq_iff_eq.mpr (belongs.trans own)
      simp [owned]

theorem find?_only (documentId : String) :
    (db.only tenantId).documents.find? (tenantId, documentId) =
      db.documents.find? (tenantId, documentId) :=
  Table.find?_restrict _ (ownedBy_self tenantId documentId)

theorem selectDocuments_only (groups : List String) (condition : DocumentKey → Document → Bool) :
    (db.only tenantId).selectDocuments tenantId groups condition =
      db.selectDocuments tenantId groups condition := by
  rw [selectDocuments, selectDocuments, select_only]
  intro key document holds
  simp only [Bool.and_eq_true] at holds
  exact inTenant_owned holds.1.1

/-- The last statements of an upload write rows of its tenant only. -/
theorem promote_restrict (documents : Documents) {logical : LogicalDocument}
    (own : logical.tenantId = tenantId) (groups : List String) (documentId filename : String)
    (now : Time) :
    promote (documents.restrict (ownedBy tenantId)) logical groups documentId filename now =
      { promote documents logical groups documentId filename now with
        documents := (promote documents logical groups documentId filename now).documents.restrict
          (ownedBy tenantId) } := by
  subst own
  have sibling : ∀ key (document : Document),
      (inTenant logical.tenantId key && document.siblingOf logical groups documentId key) = true →
        ownedBy logical.tenantId key = true := by
    intro key document holds
    exact inTenant_owned (Bool.and_eq_true_iff.mp holds).1
  have readySibling : ∀ key (document : Document),
      (inTenant logical.tenantId key && document.siblingOf logical groups documentId key &&
        document.isReady) = true → ownedBy logical.tenantId key = true := by
    intro key document holds
    exact sibling key document (Bool.and_eq_true_iff.mp holds).1
  have versions : ((documents.mapValues fun key document =>
        if inTenant logical.tenantId key && document.siblingOf logical groups documentId key &&
            document.isReady then
          { document with status := .superseded, updatedAt := now }
        else document).restrict (ownedBy logical.tenantId)).select (fun key document =>
          inTenant logical.tenantId key && document.siblingOf logical groups documentId key) =
      (documents.mapValues fun key document =>
        if inTenant logical.tenantId key && document.siblingOf logical groups documentId key &&
            document.isReady then
          { document with status := .superseded, updatedAt := now }
        else document).select fun key document =>
          inTenant logical.tenantId key && document.siblingOf logical groups documentId key :=
    Table.select_restrict sibling
  simp only [promote, Table.select_restrict readySibling, ← Table.restrict_mapValues, versions,
    Table.restrict_modify]

theorem restrict_owned (table : Documents) :
    (table.restrict (ownedBy tenantId)).restrict (ownedBy tenantId) =
      table.restrict (ownedBy tenantId) :=
  Table.filter_filter fun _ _ => id

theorem restrict_owned_chunks (table : Table DocumentKey (List ChunkRow)) :
    (table.restrict (ownedBy tenantId)).restrict (ownedBy tenantId) =
      table.restrict (ownedBy tenantId) :=
  Table.filter_filter fun _ _ => id

/-- A call that is not accepted fails in the same way in every database. -/
theorem persistCall_refused {call : PersistCall} (refused : ¬ call.Accepted) :
    ∃ e, ∀ (db : Database) (plan : VersionPlan) (now : Time),
      db.persistCall plan now call = .error e := by
  simp only [persistCall, persist]
  cases chunks : call.result.chunks with
  | nil => exact ⟨_, fun _ _ _ => rfl⟩
  | cons first rest =>
      have tenant : call.tenantId = first.tenantId := by simp [PersistCall.tenantId, chunks]
      by_cases model : call.model = modelName
      · by_cases lengths : call.embeddings.length = call.result.chunks.length
        · rw [chunks] at lengths
          simp only [model, lengths, ne_eq, not_true_eq_false, if_false, bind, Except.bind,
            setTenant]
          cases vectors : checkVectors call.embeddings with
          | error e => exact ⟨e, fun _ _ _ => rfl⟩
          | ok checked =>
              simp only []
              by_cases blank : strip first.tenantId = ""
              · simp only [if_pos blank]
                exact ⟨_, fun _ _ _ => rfl⟩
              · by_cases trimmed : strip first.tenantId = first.tenantId
                · refine absurd ⟨?_, model, ?_, vectors, ?_, ?_⟩ refused
                  · exact chunks ▸ List.cons_ne_nil first rest
                  · exact chunks ▸ lengths
                  · exact tenant ▸ trimmed ▸ blank
                  · exact tenant ▸ trimmed
                · simp only [if_neg blank, if_pos trimmed]
                  exact ⟨_, fun _ _ _ => rfl⟩
        · rw [chunks] at lengths
          simp only [model, lengths, ne_eq, not_true_eq_false, not_false_eq_true, if_false, if_true]
          exact ⟨_, fun _ _ _ => rfl⟩
      · simp only [model, ne_eq, not_false_eq_true, if_true]
        exact ⟨_, fun _ _ _ => rfl⟩

section Persist

variable {call : PersistCall} (own : call.tenantId = tenantId)

include own

theorem settledGroups_only (plan : VersionPlan) :
    (db.only tenantId).settledGroups plan call = db.settledGroups plan call := by
  have rows : (db.only tenantId).inheritable call = db.inheritable call := by
    apply select_only
    intro key document holds
    have version := (Bool.and_eq_true_iff.mp holds).1
    have belongs := (Version.belongsTo_iff.mp (Version.versionOf_iff.mp version).1).1
    exact beq_iff_eq.mpr (belongs.trans own)
  rw [settledGroups, settledGroups, rows]

theorem persistCall_only (plan : VersionPlan) (now : Time) :
    seenBy tenantId ((db.only tenantId).persistCall plan now call) =
      seenBy tenantId (db.persistCall plan now call) := by
  by_cases accepted : call.Accepted
  · have itsTenant : call.logical.tenantId = tenantId := own
    have hit := db.conflicting_only tenantId itsTenant call.result.contentSha256
    have inserts : (db.only tenantId).inserted plan now call = db.inserted plan now call := by
      rw [inserted, inserted, db.settledGroups_only tenantId own]
    have isKey : call.key = (tenantId, call.result.documentId) := by rw [PersistCall.key, own]
    have inside := ownedBy_self tenantId call.result.documentId
    have stored : (db.only tenantId).chunks.find? (tenantId, call.result.documentId) =
        db.chunks.find? (tenantId, call.result.documentId) := Table.find?_restrict _ inside
    have promotes := fun documents : Documents =>
      @promote_restrict tenantId documents call.logical itsTenant call.groups
    rw [persistCall_eq _ plan now call accepted, persistCall_eq _ plan now call accepted, hit,
      inserts, isKey, find?_only, stored]
    cases db.conflicting call.logical call.result.contentSha256 with
    | some entry =>
        simp only [promoteCall]
        split
        · simp only [seenBy, Except.map, only, Table.restrict_modify, restrict_owned,
            restrict_owned_chunks]
        · simp only [only, ← Table.restrict_modify, promotes]
          simp only [seenBy, Except.map, only, restrict_owned, restrict_owned_chunks]
    | none =>
        simp only [promoteCall]
        split
        · rfl
        · split
          · rfl
          · simp only [only, ← Table.restrict_set inside, promotes]
            simp only [seenBy, Except.map, only, restrict_owned, restrict_owned_chunks]
  · obtain ⟨e, error⟩ := persistCall_refused accepted
    rw [error, error]

end Persist

theorem markChecked_only (documentId : String) (now : Time) :
    seenBy tenantId (((db.only tenantId).markChecked tenantId documentId now).map
        fun db' => ((), db')) =
      seenBy tenantId ((db.markChecked tenantId documentId now).map fun db' => ((), db')) := by
  simp only [markChecked, setTenant]
  by_cases blank : strip tenantId = ""
  · rw [if_pos blank]
    rfl
  · rw [if_neg blank]
    simp only [seenBy, bind, Except.bind, Except.map, only, Table.restrict_mapValues,
      restrict_owned, restrict_owned_chunks]

theorem getDocument_only (documentId : String) (groups : List String) :
    (db.only tenantId).getDocument tenantId documentId groups =
      db.getDocument tenantId documentId groups := by
  rw [getDocument, getDocument, selectDocuments_only]

theorem updateDocument_only (documentId : String) (groups : List String)
    (allowedGroups : Option (List String)) (displayName : Option String) (now : Time) :
    seenBy tenantId ((db.only tenantId).updateDocument tenantId documentId groups allowedGroups
        displayName now) =
      seenBy tenantId
        (db.updateDocument tenantId documentId groups allowedGroups displayName now) := by
  simp only [updateDocument, find?_only, setTenant]
  by_cases blank : strip tenantId = ""
  · rw [if_pos blank]
    rfl
  · rw [if_neg blank]
    simp only [bind, Except.bind]
    cases db.documents.find? (tenantId, documentId) with
    | none => simp only [seenBy, Except.map, only, restrict_owned, restrict_owned_chunks]
    | some found =>
        simp only []
        split
        · have patched := fun documents : Documents => getDocument_only
            { documents, chunks := db.chunks, clock := now } tenantId documentId groups
          simp only [only, ← Table.restrict_mapValues, getDocument, selectDocuments]
            at patched ⊢
          simp only [patched]
          simp only [seenBy, only]
          split
          · rfl
          · simp only [Except.map, restrict_owned, restrict_owned_chunks]
        · simp only [seenBy, Except.map, only, restrict_owned, restrict_owned_chunks]

theorem deleteDocument_only {tenant : String} (own : strip tenant = tenantId)
    (documentId : String) (groups : List String) (now : Time) :
    seenBy tenantId ((db.only tenantId).deleteDocument tenant documentId groups now) =
      seenBy tenantId (db.deleteDocument tenant documentId groups now) := by
  simp only [deleteDocument, own, find?_only]
  split
  · rfl
  · split
    · simp only [seenBy, Except.map, only, restrict_owned, restrict_owned_chunks]
    · simp only [seenBy, Except.map, only, Table.restrict_erase, restrict_owned,
        restrict_owned_chunks]

/-- Nothing that a tenant can search is lost without the rows of the others. -/
theorem agreeOn_only {p : DocumentKey → Document → Bool}
    (inside : ∀ key document, p key document = true → ownedBy tenantId key = true) :
    AgreeOn p (db.only tenantId) db where
  documents := Table.filter_filter inside
  chunks key document _ holds := Table.find?_restrict _ (inside key document holds)

theorem readable_owned {tenantId : String} {groups : List String} (key : DocumentKey)
    (document : Document) (holds : readable tenantId groups key document = true) :
    ownedBy tenantId key = true :=
  inTenant_owned (Bool.and_eq_true_iff.mp holds).1

theorem searchable_owned {tenantId : String} {groups : List String} (key : DocumentKey)
    (document : Document) (holds : searchable tenantId groups key document = true) :
    ownedBy tenantId key = true := by
  rw [searchable, Bool.and_eq_true, Bool.and_eq_true] at holds
  exact inTenant_owned holds.1.1

theorem only_only : (db.only tenantId).only tenantId = db.only tenantId := by
  simp only [only, restrict_owned, restrict_owned_chunks]

/-- What a tenant sees of a transaction that may roll back. -/
theorem settle_only {α : Type} {tenantId : String} {db db' : Database} (reply : α → StoreReply)
    {out out' : Except PyError (α × Database)} (before : db.only tenantId = db'.only tenantId)
    (same : seenBy tenantId out = seenBy tenantId out') :
    (db.settle reply out).1 = (db'.settle reply out').1 ∧
      (db.settle reply out).2.only tenantId = (db'.settle reply out').2.only tenantId := by
  cases out with
  | error e =>
      cases out' with
      | error e' =>
          cases same
          exact ⟨rfl, before⟩
      | ok value => cases same
  | ok value =>
      cases out' with
      | error e' => cases same
      | ok value' =>
          obtain ⟨answer, rows⟩ := Prod.mk.inj (Except.ok.inj same)
          exact ⟨congrArg (fun value => Except.ok (reply value)) answer, rows⟩

end Own

/-- What a tenant calls is the same with and without the rows of the others. -/
theorem stepAt_only (db : Database) (plan : VersionPlan) (now : Time) (call : StoreCall)
    (tenantId : String) (own : ∀ tenant ∈ (DatabaseOp.call call).tenant?, tenant = tenantId) :
    ((db.only tenantId).stepAt plan now call).1 = (db.stepAt plan now call).1 ∧
      ((db.only tenantId).stepAt plan now call).2.only tenantId =
        (db.stepAt plan now call).2.only tenantId := by
  have before := db.only_only tenantId
  cases call with
  | persist call =>
      refine settle_only _ before ?_
      by_cases empty : call.result.chunks = []
      · obtain ⟨e, error⟩ := persistCall_refused fun accepted : call.Accepted =>
          accepted.nonempty empty
        rw [error, error]
      · obtain ⟨first, rest, chunks⟩ := List.exists_cons_of_ne_nil empty
        have firstOwn : first.tenantId = tenantId := own _ (by
          simp [DatabaseOp.tenant?, StoreCall.tenant?, chunks])
        refine db.persistCall_only tenantId ?_ plan now
        rw [PersistCall.tenantId, chunks]
        exact firstOwn
  | currentVersion tenant source groups =>
      obtain rfl : tenant = tenantId := own _ rfl
      simp only [stepAt, currentVersion, selectDocuments_only, before, and_self]
  | markChecked tenant documentId =>
      obtain rfl : tenant = tenantId := own _ rfl
      exact settle_only _ before (db.markChecked_only ..)
  | updateDocument tenant documentId groups allowedGroups displayName =>
      obtain rfl : tenant = tenantId := own _ rfl
      exact settle_only _ before (db.updateDocument_only ..)
  | deleteDocument tenant documentId groups =>
      exact settle_only _ before (db.deleteDocument_only tenantId (own _ rfl) ..)
  | getDocument tenant documentId groups =>
      obtain rfl : tenant = tenantId := own _ rfl
      simp only [stepAt, getDocument_only, before, and_self]
  | listDocuments tenant groups includeSuperseded =>
      obtain rfl : tenant = tenantId := own _ rfl
      simp only [stepAt, listDocuments, selectDocuments_only, before, and_self]

/-! ## The transactions of other tenants -/

section Others

variable (db : Database) {tenantId other : String} (different : other ≠ tenantId)

include different

theorem mapValues_other (documents : Documents) {f : DocumentKey → Document → Document}
    (confined : ∀ key document, inTenant other key = false → f key document = document) :
    (documents.mapValues f).restrict (ownedBy tenantId) =
      documents.restrict (ownedBy tenantId) := by
  apply Table.restrict_mapValues_of_not
  intro key document owned
  refine confined key document ?_
  have notOther : (key.1 == other) = false :=
    beq_false_of_ne fun same => different (same.symm.trans (beq_iff_eq.mp owned))
  rw [inTenant, notOther, Bool.false_and]

theorem promote_other (documents : Documents) {logical : LogicalDocument}
    (own : logical.tenantId = other) (groups : List String) (documentId filename : String)
    (now : Time) :
    (promote documents logical groups documentId filename now).documents.restrict
        (ownedBy tenantId) =
      documents.restrict (ownedBy tenantId) := by
  have outside : ownedBy tenantId (logical.tenantId, documentId) = false :=
    beq_false_of_ne (own ▸ different)
  rw [promote, Table.restrict_modify_of_not outside, mapValues_other different]
  intro key document elsewhere
  simp only [own, elsewhere, Bool.false_and, Bool.false_eq_true, if_false]

theorem persistCall_other {plan : VersionPlan} {now : Time} {call : PersistCall}
    (own : call.tenantId = other) {result : PersistResult} {after : Database}
    (success : db.persistCall plan now call = .ok (result, after)) :
    after.only tenantId = db.only tenantId := by
  have itsTenant : call.logical.tenantId = other := own
  have outside : ∀ key : DocumentKey, key.1 = other → ownedBy tenantId key = false :=
    fun key isOther => beq_false_of_ne (isOther ▸ different)
  cases persistCall_persisted success with
  | current hit ready =>
      have isOther := (conflicting_tenant hit).1.trans itsTenant
      simp only [only, Table.restrict_modify_of_not (outside _ isOther)]
  | promoted hit notReady promotes =>
      have isOther := (conflicting_tenant hit).1.trans itsTenant
      subst promotes
      simp only [only, promoteCall, promote_other different _ itsTenant,
        Table.restrict_modify_of_not (outside _ isOther)]
  | inserted hit missing allowed promotes =>
      subst promotes
      simp only [only, promoteCall, promote_other different _ itsTenant,
        Table.restrict_set_of_not (outside call.key own)]

/-- What other tenants do leaves the tenant's rows alone. -/
theorem stepAt_other (plan : VersionPlan) (now : Time) (call : StoreCall)
    (own : ∀ tenant ∈ (DatabaseOp.call call).tenant?, tenant = other) :
    (db.stepAt plan now call).2.only tenantId = db.only tenantId := by
  cases call with
  | persist call =>
      simp only [stepAt]
      cases out : db.persistCall plan now call with
      | error e => rfl
      | ok pair =>
          obtain ⟨result, after⟩ := pair
          have nonempty := (persistCall_ok out).nonempty
          obtain ⟨first, rest, chunks⟩ := List.exists_cons_of_ne_nil nonempty
          have firstOwn : first.tenantId = other := own _ (by
            simp [DatabaseOp.tenant?, StoreCall.tenant?, chunks])
          refine db.persistCall_other different ?_ out
          rw [PersistCall.tenantId, chunks]
          exact firstOwn
  | markChecked tenant documentId =>
      obtain rfl : tenant = other := own _ rfl
      simp only [stepAt, markChecked, setTenant]
      by_cases blank : strip tenant = ""
      · rw [if_pos blank]
        rfl
      · rw [if_neg blank]
        refine congrArg (Database.mk · _ _) (mapValues_other different _ ?_)
        intro key document elsewhere
        rw [elsewhere, Bool.false_and, if_neg Bool.false_ne_true]
  | updateDocument tenant documentId groups allowedGroups displayName =>
      obtain rfl : tenant = other := own _ rfl
      simp only [stepAt]
      cases out : db.updateDocument tenant documentId groups allowedGroups displayName now with
      | error e => rfl
      | ok pair =>
          obtain ⟨_, after⟩ := pair
          rcases updateDocument_ok out with rfl | ⟨found, rfl⟩
          · rfl
          · refine congrArg (Database.mk · _ _) (mapValues_other different _ ?_)
            intro key document elsewhere
            rw [elsewhere, Bool.false_and, if_neg Bool.false_ne_true]
  | deleteDocument tenant documentId groups =>
      have isOther : strip tenant = other := own _ rfl
      simp only [stepAt]
      cases out : db.deleteDocument tenant documentId groups now with
      | error e => rfl
      | ok pair =>
          obtain ⟨_, after⟩ := pair
          have outside : ownedBy tenantId (strip tenant, strip documentId) = false :=
            beq_false_of_ne (isOther ▸ different)
          rcases deleteDocument_ok out with rfl | ⟨row, _, _, rfl⟩
          · rfl
          · simp only [settle, only, Table.restrict_erase_of_not outside]
  | currentVersion => rfl
  | getDocument => rfl
  | listDocuments => rfl

end Others

/-! ## Whole runs -/

section Runs

variable (engine : SearchEngine) (lower : String → String)

/-- What a tenant does is the same with and without the rows of the others. -/
theorem stepOp_only (db : Database) (plan : VersionPlan) (now : Time) (op : DatabaseOp)
    (tenantId : String) (own : ∀ tenant ∈ op.tenant?, tenant = tenantId) :
    ((db.only tenantId).stepOp engine lower plan now op).1 =
        (db.stepOp engine lower plan now op).1 ∧
      ((db.only tenantId).stepOp engine lower plan now op).2.only tenantId =
        (db.stepOp engine lower plan now op).2.only tenantId := by
  have before := db.only_only tenantId
  cases op with
  | call call =>
      obtain ⟨answer, rows⟩ := db.stepAt_only plan now call tenantId own
      exact ⟨congrArg DatabaseReply.reply answer, rows⟩
  | searchSimilar tenant embedding limit model groups =>
      obtain rfl : tenant = tenantId := own _ rfl
      have agree := db.agreeOn_only tenant (@searchable_owned tenant groups)
      exact ⟨congrArg DatabaseReply.similar (searchSimilar_eq agree ..), before⟩
  | searchHybrid tenant queryText embedding limit candidateLimit model groups =>
      obtain rfl : tenant = tenantId := own _ rfl
      have agree := db.agreeOn_only tenant (@searchable_owned tenant groups)
      exact ⟨congrArg DatabaseReply.hybrid (searchHybrid_eq agree ..), before⟩
  | listChunks tenant documentId groups =>
      obtain rfl : tenant = tenantId := own _ rfl
      have agree := db.agreeOn_only tenant (@readable_owned tenant groups)
      exact ⟨congrArg DatabaseReply.chunks (listChunks_eq agree ..), before⟩

theorem stepOp_other (db : Database) (plan : VersionPlan) (now : Time) (op : DatabaseOp)
    {tenantId other : String} (different : other ≠ tenantId)
    (own : ∀ tenant ∈ op.tenant?, tenant = other) :
    (db.stepOp engine lower plan now op).2.only tenantId = db.only tenantId := by
  cases op with
  | call call => exact db.stepAt_other different plan now call own
  | searchSimilar => rfl
  | searchHybrid => rfl
  | listChunks => rfl

/-- The rows of a tenant decide what it sees, and only it moves them. -/
theorem tenantMachine_unwinding (tenantId : String) :
    (tenantMachine engine lower).Unwinding (fun event => event.tenantId == tenantId)
      fun db => db.only tenantId := by
  have own : ∀ db other (event : TenantTransaction), (event.tenantId == tenantId) = true →
      db.only tenantId = other.only tenantId →
        ((tenantMachine engine lower).step db event).1 =
            ((tenantMachine engine lower).step other event).1 ∧
          ((tenantMachine engine lower).step db event).2.only tenantId =
            ((tenantMachine engine lower).step other event).2.only tenantId := by
    intro db other event mine same
    have isOwn : ∀ tenant ∈ event.op.tenant?, tenant = tenantId := fun tenant member =>
      (event.own tenant member).trans (beq_iff_eq.mp mine)
    obtain ⟨answer, rows⟩ := stepOp_only engine lower db event.plan event.now event.op _ isOwn
    obtain ⟨answer', rows'⟩ :=
      stepOp_only engine lower other event.plan event.now event.op _ isOwn
    rw [same] at answer rows
    exact ⟨answer.symm.trans answer', rows.symm.trans rows'⟩
  constructor
  · intro db event others
    exact stepOp_other engine lower db event.plan event.now event.op
      (beq_eq_false_iff_ne.mp others) event.own
  · intro db other event mine same
    exact (own db other event mine same).1
  · intro db other event mine same
    exact (own db other event mine same).2

end Runs

end Database

end ProductionRag
