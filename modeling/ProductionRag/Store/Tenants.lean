import ProductionRag.Basis.Mealy
import ProductionRag.Store.Calls

/-!
# Tenants do not see each other

Every method of the in-memory store reads and writes rows of one tenant only.  What a
tenant does commutes with dropping the rows of the others, and what the others do
leaves its rows alone; so a tenant gets the answers it would get if it were alone with
the store.
-/

set_option autoImplicit false

namespace ProductionRag

open Basis

/-- The methods of the in-memory store. -/
inductive StoreOp where
  | call (call : StoreCall)
  | readableChunks (principal : Principal)

inductive OpReply where
  | reply (reply : Except PyError StoreReply)
  | chunks (chunks : Except PyError (List Chunk))
  deriving DecidableEq

/-- The tenant a method works for; `persist` takes it from the first chunk. -/
def StoreCall.tenant? : StoreCall → Option String
  | .persist call => call.result.chunks.head?.map (·.tenantId)
  | .currentVersion tenantId _ _ => some tenantId
  | .markChecked tenantId _ => some tenantId
  | .updateDocument tenantId _ _ _ _ => some tenantId
  | .deleteDocument tenantId _ _ => some tenantId
  | .getDocument tenantId _ _ => some tenantId
  | .listDocuments tenantId _ _ => some tenantId

def StoreOp.tenant? : StoreOp → Option String
  | .call method => method.tenant?
  | .readableChunks principal => some principal.tenantId

/-- A method call on behalf of a tenant. -/
structure TenantOp where
  tenantId : String
  now : Time
  op : StoreOp
  own : ∀ tenant ∈ op.tenant?, tenant = tenantId

namespace InMemoryStore

def stepOp (store : InMemoryStore) (now : Time) : StoreOp → OpReply × InMemoryStore
  | .call call => (.reply (store.step now call).1, (store.step now call).2)
  | .readableChunks principal => (.chunks (store.readableChunks principal), store)

def tenantMachine : Mealy InMemoryStore TenantOp OpReply :=
  ⟨fun store op => store.stepOp op.now op.op⟩

def ownedBy (tenantId : String) (key : DocumentKey) : Bool := key.1 == tenantId

theorem ownedBy_self (tenantId documentId : String) :
    ownedBy tenantId (tenantId, documentId) = true :=
  beq_self_eq_true tenantId

/-- The rows of one tenant. -/
def only (store : InMemoryStore) (tenantId : String) : InMemoryStore where
  documents := store.documents.restrict (ownedBy tenantId)
  chunks := store.chunks.restrict (ownedBy tenantId)

/-! ## A tenant's own calls -/

section Own

variable (store : InMemoryStore) (tenantId : String)

theorem select_only {q : DocumentKey → Document → Bool}
    (inside : ∀ key document, q key document = true → key.1 = tenantId) :
    (store.only tenantId).documents.select q = store.documents.select q :=
  Table.select_restrict fun key document holds => beq_iff_eq.mpr (inside key document holds)

theorem find?_only (documentId : String) :
    (store.only tenantId).documents.find? (tenantId, documentId) =
      store.documents.find? (tenantId, documentId) :=
  Table.find?_restrict _ (ownedBy_self tenantId documentId)

theorem versions_only (source : SourceRef) (groups : List String) :
    (store.only tenantId).versions (source.logical tenantId) groups =
      store.versions (source.logical tenantId) groups := by
  apply store.select_only tenantId
  intro key document version
  exact (Version.belongsTo_iff.mp (Version.versionOf_iff.mp version).1).1

theorem siblings_only (source : SourceRef) (groups : List String) (documentId : String) :
    ((store.only tenantId).documents.select fun key document =>
        document.siblingOf (source.logical tenantId) groups documentId key) =
      store.documents.select fun key document =>
        document.siblingOf (source.logical tenantId) groups documentId key := by
  apply store.select_only tenantId
  intro key document sibling
  have version := (Version.siblingOf_iff.mp sibling).1
  exact (Version.belongsTo_iff.mp (Version.versionOf_iff.mp version).1).1

theorem persistCall_only (now : Time) (call : PersistCall)
    (own : ∀ first ∈ call.result.chunks.head?, first.tenantId = tenantId) :
    (store.only tenantId).persistCall now call =
      (store.persistCall now call).map fun out => (out.1, out.2.only tenantId) := by
  simp only [persistCall, persist]
  cases chunks : call.result.chunks with
  | nil => rfl
  | cons first rest =>
      obtain rfl : first.tenantId = tenantId := own first (by rw [chunks]; rfl)
      simp only [versions_only, siblings_only, find?_only]
      cases found : store.documents.find? (first.tenantId, call.result.documentId) with
      | some existing =>
          simp only []
          split
          · simp only [Except.map, only, Table.restrict_modify]
          · simp only [Except.map, only, Table.restrict_modify, Table.restrict_mapValues]
      | none =>
          have inside := ownedBy_self first.tenantId call.result.documentId
          simp only [Except.map, only, Table.restrict_set inside, Table.restrict_mapValues]

theorem markChecked_only (documentId : String) (now : Time) :
    (store.only tenantId).markChecked tenantId documentId now =
      (store.markChecked tenantId documentId now).only tenantId := by
  simp only [markChecked, only, Table.restrict_modify]

theorem updateDocument_only (documentId : String) (groups : List String)
    (allowedGroups : Option (List String)) (displayName : Option String) (now : Time) :
    (store.only tenantId).updateDocument tenantId documentId groups allowedGroups displayName now =
      ((store.updateDocument tenantId documentId groups allowedGroups displayName now).1,
        (store.updateDocument tenantId documentId groups allowedGroups displayName now).2.only
          tenantId) := by
  simp only [updateDocument, find?_only]
  cases found : store.documents.find? (tenantId, documentId) with
  | none => rfl
  | some row =>
      simp only []
      split
      · have inside := ownedBy_self tenantId documentId
        simp only [only, ← Table.restrict_mapValues, Table.find?_restrict _ inside]
      · rfl

theorem getDocument_only (documentId : String) (groups : List String) :
    (store.only tenantId).getDocument tenantId documentId groups =
      store.getDocument tenantId documentId groups := by
  simp only [getDocument, find?_only]

theorem currentVersion_only (source : SourceRef) (groups : List String) :
    (store.only tenantId).currentVersion tenantId source groups =
      store.currentVersion tenantId source groups := by
  simp only [currentVersion, versions_only]

theorem listDocuments_only (groups : List String) (includeSuperseded : Bool) :
    (store.only tenantId).listDocuments tenantId groups includeSuperseded =
      store.listDocuments tenantId groups includeSuperseded := by
  simp only [listDocuments]
  rw [store.select_only tenantId]
  intro key document holds
  simp only [Bool.and_eq_true] at holds
  exact beq_iff_eq.mp holds.1.1

theorem deleteDocument_only (documentId : String) (groups : List String) :
    (store.only tenantId).deleteDocument tenantId documentId groups =
      ((store.deleteDocument tenantId documentId groups).1,
        (store.deleteDocument tenantId documentId groups).2.only tenantId) := by
  simp only [deleteDocument, getDocument_only]
  cases store.getDocument tenantId documentId groups with
  | none => rfl
  | some row => simp only [only, Table.restrict_erase]

theorem readableChunks_only (principal : Principal) :
    (store.only principal.tenantId).readableChunks principal = store.readableChunks principal := by
  have rows : ((store.only principal.tenantId).documents.entries.filter fun entry =>
      entry.1.1 == principal.tenantId && entry.2.isReady &&
        canReadGroups entry.2.allowedGroups principal) =
      store.documents.entries.filter fun entry =>
        entry.1.1 == principal.tenantId && entry.2.isReady &&
          canReadGroups entry.2.allowedGroups principal := by
    simp only [only, Table.restrict, Table.entries_filter, List.filter_filter]
    apply List.filter_congr
    intro entry _
    cases own : entry.1.1 == principal.tenantId with
    | true => simp only [ownedBy, own, Bool.and_true]
    | false => simp only [Bool.false_and]
  have chunksOf : ∀ entry ∈ store.documents.entries.filter (fun entry =>
      entry.1.1 == principal.tenantId && entry.2.isReady &&
        canReadGroups entry.2.allowedGroups principal),
      (store.only principal.tenantId).chunksOf entry = store.chunksOf entry := by
    intro entry member
    have holds := (List.mem_filter.mp member).2
    simp only [Bool.and_eq_true] at holds
    simp only [InMemoryStore.chunksOf, only]
    have owned : ownedBy principal.tenantId entry.1 = true := holds.1.1
    rw [Table.find?_restrict _ owned]
  simp only [readableChunks, rows]
  rw [mapM_congr chunksOf]

end Own

/-- What a tenant does is the same with and without the rows of the others. -/
theorem stepOp_only (store : InMemoryStore) (now : Time) (op : StoreOp) (tenantId : String)
    (own : ∀ tenant ∈ op.tenant?, tenant = tenantId) :
    (store.only tenantId).stepOp now op =
      ((store.stepOp now op).1, (store.stepOp now op).2.only tenantId) := by
  cases op with
  | readableChunks principal =>
      obtain rfl : principal.tenantId = tenantId := own _ rfl
      simp only [stepOp, readableChunks_only]
  | call call =>
      cases call with
      | persist call =>
          have first : ∀ first ∈ call.result.chunks.head?, first.tenantId = tenantId := by
            intro first isFirst
            exact own first.tenantId (Option.mem_map_of_mem _ isFirst)
          simp only [stepOp, step, store.persistCall_only tenantId now call first]
          cases store.persistCall now call <;> rfl
      | currentVersion tenant source groups =>
          obtain rfl : tenant = tenantId := own _ rfl
          simp only [stepOp, step, currentVersion_only]
      | markChecked tenant documentId =>
          obtain rfl : tenant = tenantId := own _ rfl
          simp only [stepOp, step, markChecked_only]
      | updateDocument tenant documentId groups allowedGroups displayName =>
          obtain rfl : tenant = tenantId := own _ rfl
          simp only [stepOp, step, updateDocument_only]
      | deleteDocument tenant documentId groups =>
          obtain rfl : tenant = tenantId := own _ rfl
          simp only [stepOp, step, deleteDocument_only]
      | getDocument tenant documentId groups =>
          obtain rfl : tenant = tenantId := own _ rfl
          simp only [stepOp, step, getDocument_only]
      | listDocuments tenant groups includeSuperseded =>
          obtain rfl : tenant = tenantId := own _ rfl
          simp only [stepOp, step, listDocuments_only]

/-! ## The calls of other tenants -/

section Others

variable (store : InMemoryStore) {tenantId other : String} (different : other ≠ tenantId)

include different

theorem ownedBy_other (documentId : String) : ownedBy tenantId (other, documentId) = false :=
  beq_false_of_ne different

/-- An update of another tenant's versions does not show. -/
theorem mapValues_other {f : DocumentKey → Document → Document}
    (confined : ∀ key document, f key document ≠ document → key.1 = other) :
    (store.documents.mapValues f).restrict (ownedBy tenantId) =
      store.documents.restrict (ownedBy tenantId) := by
  apply Table.restrict_mapValues_of_not
  intro key document owned
  by_contra changed
  exact different ((confined key document changed).symm.trans (beq_iff_eq.mp owned))

theorem persistCall_other (now : Time) (call : PersistCall)
    (own : ∀ first ∈ call.result.chunks.head?, first.tenantId = other)
    {result : PersistResult} {after : InMemoryStore}
    (success : store.persistCall now call = .ok (result, after)) :
    after.only tenantId = store.only tenantId := by
  simp only [persistCall, persist] at success
  cases chunks : call.result.chunks with
  | nil =>
      rw [chunks] at success
      cases success
  | cons first rest =>
      obtain rfl : first.tenantId = other := own first (by rw [chunks]; rfl)
      have outside := ownedBy_other different call.result.documentId
      let source := call.source.getD { id := first.source }
      have superseding : ∀ key (document : Document),
          (if document.siblingOf (source.logical first.tenantId) call.groups
              call.result.documentId key && document.isReady then
            { document with status := .superseded, updatedAt := now }
          else document) ≠ document → key.1 = first.tenantId := by
        intro key document changed
        split at changed
        · rename_i sibling
          have version := (Version.siblingOf_iff.mp (Bool.and_eq_true_iff.mp sibling).1).1
          exact (Version.belongsTo_iff.mp (Version.versionOf_iff.mp version).1).1
        · exact absurd rfl changed
      have hidden := store.mapValues_other different superseding
      rw [chunks] at success
      simp only [] at success
      split at success
      · split at success
        · obtain ⟨_, rfl⟩ := Prod.mk.inj (Except.ok.inj success)
          simp only [only, Table.restrict_modify_of_not outside]
        · obtain ⟨_, rfl⟩ := Prod.mk.inj (Except.ok.inj success)
          simp only [only, Table.restrict_modify_of_not outside]
          exact congrArg (InMemoryStore.mk · _) hidden
      · obtain ⟨_, rfl⟩ := Prod.mk.inj (Except.ok.inj success)
        simp only [only, Table.restrict_set_of_not outside]
        exact congrArg (InMemoryStore.mk · _) hidden

theorem updateDocument_other (documentId : String) (groups : List String)
    (allowedGroups : Option (List String)) (displayName : Option String) (now : Time) :
    (store.updateDocument other documentId groups allowedGroups displayName now).2.only tenantId =
      store.only tenantId := by
  simp only [updateDocument]
  cases store.documents.find? (other, documentId) with
  | none => rfl
  | some row =>
      simp only []
      split
      · refine congrArg (InMemoryStore.mk · _) (store.mapValues_other different ?_)
        intro key document changed
        split at changed
        · rename_i version
          exact (Version.belongsTo_iff.mp (Version.versionOf_iff.mp version).1).1
        · exact absurd rfl changed
      · rfl

theorem deleteDocument_other (documentId : String) (groups : List String) :
    (store.deleteDocument other documentId groups).2.only tenantId = store.only tenantId := by
  have outside := ownedBy_other different documentId
  simp only [deleteDocument]
  cases store.getDocument other documentId groups with
  | none => rfl
  | some row => simp only [only, Table.restrict_erase_of_not outside]

theorem markChecked_other (documentId : String) (now : Time) :
    (store.markChecked other documentId now).only tenantId = store.only tenantId := by
  have outside := ownedBy_other different documentId
  simp only [markChecked, only, Table.restrict_modify_of_not outside]

end Others

/-- What other tenants do leaves the tenant's rows alone. -/
theorem stepOp_other (store : InMemoryStore) (now : Time) (op : StoreOp) {tenantId other : String}
    (different : other ≠ tenantId) (own : ∀ tenant ∈ op.tenant?, tenant = other) :
    (store.stepOp now op).2.only tenantId = store.only tenantId := by
  cases op with
  | readableChunks principal => rfl
  | call call =>
      cases call with
      | persist call =>
          have first : ∀ first ∈ call.result.chunks.head?, first.tenantId = other := by
            intro first isFirst
            exact own first.tenantId (Option.mem_map_of_mem _ isFirst)
          simp only [stepOp, step]
          cases out : store.persistCall now call with
          | error e => rfl
          | ok stored => exact store.persistCall_other different now call first out
      | markChecked tenant documentId =>
          obtain rfl : tenant = other := own _ rfl
          exact store.markChecked_other different documentId now
      | updateDocument tenant documentId groups allowedGroups displayName =>
          obtain rfl : tenant = other := own _ rfl
          exact store.updateDocument_other different documentId groups allowedGroups displayName now
      | deleteDocument tenant documentId groups =>
          obtain rfl : tenant = other := own _ rfl
          exact store.deleteDocument_other different documentId groups
      | currentVersion => rfl
      | getDocument => rfl
      | listDocuments => rfl

/-- The rows of a tenant decide what it sees, and only it moves them. -/
theorem tenantMachine_unwinding (tenantId : String) :
    tenantMachine.Unwinding (fun op => op.tenantId == tenantId) fun store =>
      store.only tenantId := by
  have own : ∀ store other (op : TenantOp), (op.tenantId == tenantId) = true →
      store.only tenantId = other.only tenantId →
        (tenantMachine.step store op).1 = (tenantMachine.step other op).1 ∧
          (tenantMachine.step store op).2.only tenantId =
            (tenantMachine.step other op).2.only tenantId := by
    intro store other op mine same
    have isOwn : ∀ tenant ∈ op.op.tenant?, tenant = tenantId := fun tenant member =>
      (op.own tenant member).trans (beq_iff_eq.mp mine)
    have both := (store.stepOp_only op.now op.op tenantId isOwn).symm.trans
      ((congrArg (fun store : InMemoryStore => store.stepOp op.now op.op) same).trans
        (other.stepOp_only op.now op.op tenantId isOwn))
    exact Prod.mk.inj both
  constructor
  · intro store op others
    exact store.stepOp_other op.now op.op (beq_eq_false_iff_ne.mp others) op.own
  · intro store other op mine same
    exact (own store other op mine same).1
  · intro store other op mine same
    exact (own store other op mine same).2

/-- A tenant gets the answers it would get if no other tenant had called. -/
theorem tenants_do_not_interfere (tenantId : String) (ops : List TenantOp) :
    tenantMachine.ownOutputs (fun op => op.tenantId == tenantId) .empty ops =
      tenantMachine.outputs .empty (ops.filter fun op => op.tenantId == tenantId) :=
  (tenantMachine_unwinding tenantId).ownOutputs_eq rfl ops

end InMemoryStore

end ProductionRag
