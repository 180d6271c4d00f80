import ProductionRag.Store.Integrity

/-!
# Two states a caller cannot tell apart

Two in-memory states agree for a tenant and its groups when they differ only in
documents of that tenant that the groups do not see.  Every method of the caller
answers alike in both, except `persist` of bytes that are stored out of sight.
-/

set_option autoImplicit false

namespace ProductionRag

open Basis

/-- Rows of other tenants and rows the groups see. -/
def seenBy (tenantId : String) (groups : List String) (key : DocumentKey)
    (document : Document) : Bool :=
  key.1 != tenantId || document.visible groups

/-- The states hold the same rows for the caller, in the same order, with the same chunks. -/
structure SameView (tenantId : String) (groups : List String) (left right : InMemoryStore) :
    Prop where
  documents : left.documents.filter (seenBy tenantId groups) =
    right.documents.filter (seenBy tenantId groups)
  chunks : ∀ key document, (key, document) ∈ left.documents.entries →
    seenBy tenantId groups key document = true →
    left.chunks.find? key = right.chunks.find? key

/-- The calls a caller of the tenant with these groups can make. -/
def StoreCall.By (tenantId : String) (groups : List String) : StoreCall → Prop
  | .persist call => (call.result.chunks ≠ [] → call.tenantId = tenantId) ∧ call.groups = groups
  | .currentVersion tenant _ callers => tenant = tenantId ∧ callers = groups
  | .markChecked tenant _ => tenant = tenantId
  | .updateDocument tenant _ callers _ _ => tenant = tenantId ∧ callers = groups
  | .deleteDocument tenant _ callers => tenant = tenantId ∧ callers = groups
  | .getDocument tenant _ callers => tenant = tenantId ∧ callers = groups
  | .listDocuments tenant callers _ => tenant = tenantId ∧ callers = groups

/-- `version` is the number `persist` would give next, and nothing visible is current. -/
structure PersistCall.NextUnclaimed (call : PersistCall) (versions : Versions) (version : Nat) :
    Prop where
  noneReady : ∀ key sibling, (key, sibling) ∈ versions.entries →
    sibling.siblingOf call.logical call.groups call.result.documentId key = true →
    sibling.status ≠ .ready
  largest : ∀ key sibling, (key, sibling) ∈ versions.entries →
    sibling.siblingOf call.logical call.groups call.result.documentId key = true →
    sibling.version < version
  next : version = 1 ∨ ∃ key sibling, (key, sibling) ∈ versions.entries ∧
    sibling.siblingOf call.logical call.groups call.result.documentId key = true ∧
    version = sibling.version + 1

/-- The rows under the key of an upload that a caller cannot tell apart by sending it. -/
def PersistCall.Alike (call : PersistCall) (versions : Versions) :
    Option Document → Option Document → Prop
  | none, none => True
  | some left, some right =>
    match left.status, right.status with
    | .superseded, .superseded => True
    | .ready, .ready => left.version = right.version
    | .ready, .superseded => call.NextUnclaimed versions left.version
    | .superseded, .ready => call.NextUnclaimed versions right.version
  | _, _ => False

theorem PersistCall.nextUnclaimed_iff {call : PersistCall} {versions : Versions}
    {version : Nat} :
    call.NextUnclaimed versions version ↔
      version = call.request.number versions ∧ call.request.supersededIds versions = [] := by
  have members : ∀ number, number ∈ (versions.select call.request.siblingOf).map (·.version) ↔
      ∃ key sibling, (key, sibling) ∈ versions.entries ∧
        sibling.siblingOf call.logical call.groups call.result.documentId key = true ∧
        sibling.version = number := by
    intro number
    simp only [List.mem_map, Table.mem_select]
    constructor
    · rintro ⟨sibling, ⟨key, member, isSibling⟩, same⟩
      exact ⟨key, sibling, member, isSibling, same⟩
    · rintro ⟨key, sibling, member, isSibling, same⟩
      exact ⟨sibling, ⟨key, member, isSibling⟩, same⟩
  rw [UploadRequest.number, eq_foldr_max_succ_iff, UploadRequest.supersededIds,
    List.map_eq_nil_iff, Table.select_eq_nil_iff]
  constructor
  · rintro ⟨noneReady, largest, next⟩
    refine ⟨⟨?_, ?_⟩, ?_⟩
    · intro number inside
      obtain ⟨key, sibling, member, isSibling, rfl⟩ := (members number).mp inside
      exact largest key sibling member isSibling
    · refine next.imp_right ?_
      rintro ⟨key, sibling, member, isSibling, same⟩
      exact ⟨sibling.version, (members _).mpr ⟨key, sibling, member, isSibling, rfl⟩, same⟩
    · intro key sibling member
      rw [UploadRequest.supersedes, Bool.and_eq_false_iff]
      by_cases isSibling : call.request.siblingOf key sibling = true
      · right
        rw [Bool.eq_false_iff]
        intro ready
        exact noneReady key sibling member isSibling ((Version.isReady_iff _).mp ready)
      · exact Or.inl (Bool.not_eq_true _ ▸ isSibling)
  · rintro ⟨⟨largest, next⟩, none⟩
    refine ⟨?_, ?_, ?_⟩
    · intro key sibling member isSibling ready
      have gives := none key sibling member
      rw [UploadRequest.supersedes, (Version.isReady_iff _).mpr ready, Bool.and_true] at gives
      rw [UploadRequest.siblingOf] at gives
      exact Bool.false_ne_true (gives.symm.trans isSibling)
    · intro key sibling member isSibling
      exact largest _ ((members _).mpr ⟨key, sibling, member, isSibling, rfl⟩)
    · refine next.imp_right ?_
      rintro ⟨number, inside, same⟩
      obtain ⟨key, sibling, member, isSibling, rfl⟩ := (members number).mp inside
      exact ⟨key, sibling, member, isSibling, same⟩

namespace SameView

variable {tenantId : String} {groups : List String} {left right : InMemoryStore}

theorem select_eq (view : SameView tenantId groups left right)
    {p : DocumentKey → Document → Bool}
    (seen : ∀ key document, p key document = true → document.visible groups = true) :
    left.documents.select p = right.documents.select p := by
  have inside : ∀ key document, p key document = true →
      seenBy tenantId groups key document = true := by
    intro key document holds
    rw [seenBy, seen key document holds, Bool.or_true]
  rw [← Table.select_filter inside, view.documents, Table.select_filter inside]

theorem find?_eq (view : SameView tenantId groups left right) (documentId : String) :
    (left.documents.find? (tenantId, documentId)).filter (·.visible groups) =
      (right.documents.find? (tenantId, documentId)).filter (·.visible groups) := by
  have lookup := congrArg (fun table => Table.find? table (tenantId, documentId)) view.documents
  have own : seenBy tenantId groups (tenantId, documentId) =
      fun document => document.visible groups := by
    funext document
    rw [seenBy, bne_self_eq_false, Bool.false_or]
  simpa only [Table.find?_filter, own] using lookup

theorem readableChunks_eq (view : SameView tenantId groups left right) (userId : String) :
    left.readableChunks ⟨tenantId, userId, groups⟩ =
      right.readableChunks ⟨tenantId, userId, groups⟩ := by
  let readable : DocumentKey × Document → Bool := fun entry =>
    entry.1.1 == tenantId && entry.2.isReady && canReadGroups entry.2.allowedGroups
      ⟨tenantId, userId, groups⟩
  have seen : ∀ entry : DocumentKey × Document, readable entry = true →
      seenBy tenantId groups entry.1 entry.2 = true := by
    intro entry holds
    rw [Bool.and_eq_true] at holds
    rw [seenBy, Bool.or_eq_true]
    exact Or.inr holds.2
  have filtered : ∀ store : InMemoryStore, store.documents.entries.filter readable =
      (store.documents.filter (seenBy tenantId groups)).entries.filter readable := by
    intro store
    rw [Table.entries_filter, List.filter_filter]
    apply List.filter_congr
    intro entry _
    cases holds : readable entry with
    | false => rfl
    | true => rw [seen entry holds, Bool.true_and]
  have sameRows : left.documents.entries.filter readable =
      right.documents.entries.filter readable := by
    rw [filtered left, filtered right, view.documents]
  have sameChunks : ∀ entry ∈ left.documents.entries.filter readable,
      left.chunksOf entry = right.chunksOf entry := by
    intro entry member
    obtain ⟨inTable, holds⟩ := List.mem_filter.mp member
    rw [InMemoryStore.chunksOf, view.chunks entry.1 entry.2 inTable (seen entry holds)]
    rfl
  change ((left.documents.entries.filter readable).mapM left.chunksOf).map List.flatten =
    ((right.documents.entries.filter readable).mapM right.chunksOf).map List.flatten
  rw [← sameRows]
  congr 1
  generalize left.documents.entries.filter readable = rows at sameChunks
  induction rows with
  | nil => rfl
  | cons entry rest ih =>
      rw [List.mapM_cons, List.mapM_cons, sameChunks entry List.mem_cons_self,
        ih fun other member => sameChunks other (List.mem_cons_of_mem entry member)]

theorem number_eq (view : SameView tenantId groups left right) {call : PersistCall}
    (callers : call.groups = groups) :
    call.request.number left.documents.versions =
      call.request.number right.documents.versions := by
  rw [UploadRequest.number, UploadRequest.number, Documents.versions_select,
    Documents.versions_select, view.select_eq]
  intro key document sibling
  rw [← callers]
  exact (Version.versionOf_iff.mp (Version.siblingOf_iff.mp sibling).1).2

theorem supersededIds_eq (view : SameView tenantId groups left right) {call : PersistCall}
    (callers : call.groups = groups) :
    call.request.supersededIds left.documents.versions =
      call.request.supersededIds right.documents.versions := by
  rw [UploadRequest.supersededIds, UploadRequest.supersededIds, Documents.versions_select,
    Documents.versions_select, view.select_eq]
  intro key document supersedes
  rw [← callers]
  rw [UploadRequest.supersedes, Bool.and_eq_true] at supersedes
  exact (Version.versionOf_iff.mp (Version.siblingOf_iff.mp supersedes.1).1).2

end SameView

namespace InMemoryStore

/-- The answer of an update is a function of the row the caller sees. -/
theorem updateDocument_answer (store : InMemoryStore) (tenantId documentId : String)
    (groups : List String) (allowedGroups : Option (List String))
    (displayName : Option String) (now : Time) :
    (store.updateDocument tenantId documentId groups allowedGroups displayName now).1 =
      match (store.documents.find? (tenantId, documentId)).filter (·.visible groups) with
      | none => (false, none)
      | some found =>
        (true, (some (patched allowedGroups displayName now found)).filter
          (·.visible groups)) := by
  simp only [updateDocument]
  cases found : store.documents.find? (tenantId, documentId) with
  | none => rfl
  | some existing =>
      by_cases visible : existing.visible groups = true
      · have sees : existing.versionOf ⟨tenantId, existing.sourceSystem, existing.sourceId⟩
            groups (tenantId, documentId) = true :=
          Version.versionOf_iff.mpr ⟨Version.belongsTo_iff.mpr ⟨rfl, rfl, rfl⟩, visible⟩
        simp only [visible, if_true, Option.filter_some, Table.find?_mapValues, found,
          Option.map_some, sees]
      · simp only [visible, Bool.false_eq_true, if_false, Option.filter_some]

/-- The answer of an upload with chunks. -/
theorem persist_answer (store : InMemoryStore) (now : Time) (call : PersistCall)
    (nonempty : call.result.chunks ≠ []) :
    (store.step now (.persist call)).1 = .ok (.persisted (
      match store.documents.find? call.key with
      | some existing =>
        if existing.isReady then
          { documentId := call.result.documentId, chunksWritten := 0, alreadyExisted := true,
            version := existing.version }
        else
          { documentId := call.result.documentId, chunksWritten := 0, alreadyExisted := true,
            version := call.request.number store.documents.versions,
            superseded := call.request.supersededIds store.documents.versions }
      | none =>
        { documentId := call.result.documentId, chunksWritten := call.result.chunks.length,
          alreadyExisted := false, version := call.request.number store.documents.versions,
          superseded := call.request.supersededIds store.documents.versions })) := by
  simp only [step, persistCall_eq store now call nonempty]
  cases store.documents.find? call.key with
  | none => rfl
  | some existing => by_cases ready : existing.isReady = true <;> simp [ready]

theorem persist_same_answer_iff {tenantId : String} {groups : List String}
    {left right : InMemoryStore} (view : SameView tenantId groups left right) (now : Time)
    {call : PersistCall} (callers : call.groups = groups) (nonempty : call.result.chunks ≠ []) :
    (left.step now (.persist call)).1 = (right.step now (.persist call)).1 ↔
      call.Alike left.documents.versions (left.documents.find? call.key)
        (right.documents.find? call.key) := by
  rw [persist_answer left now call nonempty, persist_answer right now call nonempty,
    Except.ok.injEq, StoreReply.persisted.injEq, ← view.number_eq callers,
    ← view.supersededIds_eq callers]
  have ready : ∀ row : Document, row.status = .ready → row.isReady = true :=
    fun row status => (Version.isReady_iff row.toVersion).mpr status
  have superseded : ∀ row : Document, row.status = .superseded → row.isReady = false := by
    intro row status
    rw [Version.isReady, status]
    rfl
  cases left.documents.find? call.key with
  | none =>
      cases right.documents.find? call.key with
      | none => simp only [PersistCall.Alike]
      | some row =>
          simp only [PersistCall.Alike, iff_false]
          cases row.isReady <;> simp
  | some row =>
      cases right.documents.find? call.key with
      | none =>
          simp only [PersistCall.Alike, iff_false]
          cases row.isReady <;> simp
      | some row' =>
          cases leftStatus : row.status with
          | ready =>
              cases rightStatus : row'.status with
              | ready =>
                  simp [PersistCall.Alike, leftStatus, rightStatus]
              | superseded =>
                  simp only [PersistCall.Alike, leftStatus, rightStatus, ready row leftStatus,
                    superseded row' rightStatus, PersistCall.nextUnclaimed_iff, if_true,
                    Bool.false_eq_true, if_false, PersistResult.mk.injEq, true_and]
                  rw [eq_comm (a := [])]
          | superseded =>
              cases rightStatus : row'.status with
              | ready =>
                  simp only [PersistCall.Alike, leftStatus, rightStatus, ready row' rightStatus,
                    superseded row leftStatus, PersistCall.nextUnclaimed_iff, if_true,
                    Bool.false_eq_true, if_false, PersistResult.mk.injEq, true_and]
                  rw [eq_comm (a := row'.version)]
              | superseded =>
                  simp [PersistCall.Alike, leftStatus, rightStatus,
                    superseded row leftStatus, superseded row' rightStatus]

/-- Any method but `persist` answers the caller alike, and `persist` does exactly when the
stored row of its content is alike in both states. -/
theorem same_answers_iff {tenantId : String} {groups : List String}
    {left right : InMemoryStore} (view : SameView tenantId groups left right) (now : Time) :
    (∀ userId, left.readableChunks ⟨tenantId, userId, groups⟩ =
      right.readableChunks ⟨tenantId, userId, groups⟩) ∧
    ∀ call : StoreCall, call.By tenantId groups →
      ((left.step now call).1 = (right.step now call).1 ↔
        ∀ upload, call = .persist upload → upload.result.chunks ≠ [] →
          upload.Alike left.documents.versions (left.documents.find? upload.key)
            (right.documents.find? upload.key)) := by
  refine ⟨view.readableChunks_eq, ?_⟩
  intro call caller
  cases call with
  | persist upload =>
      obtain ⟨_, callers⟩ := caller
      simp only [StoreCall.persist.injEq, forall_eq']
      by_cases empty : upload.result.chunks = []
      · simp only [step, persistCall_error left now upload empty,
          persistCall_error right now upload empty, empty, ne_eq, not_true_eq_false,
          false_implies]
      · simp only [ne_eq, empty, not_false_eq_true, true_implies]
        exact persist_same_answer_iff view now callers empty
  | currentVersion tenant source callers =>
      obtain ⟨rfl, rfl⟩ := caller
      have sameVersions : left.versions (source.logical tenant) callers =
          right.versions (source.logical tenant) callers :=
        view.select_eq fun _ _ sees => (Version.versionOf_iff.mp sees).2
      simp only [step, currentVersion, sameVersions, reduceCtorEq, false_implies, implies_true]
  | markChecked tenant documentId => simp [step]
  | updateDocument tenant documentId callers allowedGroups displayName =>
      obtain ⟨rfl, rfl⟩ := caller
      simp only [step, updateDocument_answer, view.find?_eq documentId, reduceCtorEq,
        false_implies, implies_true]
  | deleteDocument tenant documentId callers =>
      obtain ⟨rfl, rfl⟩ := caller
      simp only [step, deleteDocument, getDocument, view.find?_eq documentId, reduceCtorEq,
        false_implies, implies_true, iff_true]
      cases (right.documents.find? (tenant, documentId)).filter (·.visible callers) <;> rfl
  | getDocument tenant documentId callers =>
      obtain ⟨rfl, rfl⟩ := caller
      simp only [step, getDocument, view.find?_eq documentId, reduceCtorEq, false_implies,
        implies_true]
  | listDocuments tenant callers includeSuperseded =>
      obtain ⟨rfl, rfl⟩ := caller
      have sameRows : (left.documents.select fun key document => key.1 == tenant &&
            document.visible callers && (includeSuperseded || document.isReady)) =
          right.documents.select fun key document => key.1 == tenant &&
            document.visible callers && (includeSuperseded || document.isReady) := by
        apply view.select_eq
        intro key document listed
        rw [Bool.and_eq_true, Bool.and_eq_true] at listed
        exact listed.1.2
      simp only [step, listDocuments, sameRows, reduceCtorEq, false_implies, implies_true]

/-- One restricted document. -/
def restrictedStore : InMemoryStore :=
  empty.afterUploads [notesUpload [1] ["hr"] (some ["hr"])]

theorem restrictedStore_reachable :
    Reachable (PersistCall.Identified .spelling) restrictedStore :=
  Reachable.empty.afterUploads
    (List.forall_mem_cons.mpr ⟨notesUpload_identified .., fun _ none => nomatch none⟩)

theorem restrictedStore_sameView : SameView "t" [] restrictedStore empty := by
  have none : ∀ entry ∈ restrictedStore.documents.entries,
      seenBy "t" [] entry.1 entry.2 = false := by decide
  refine ⟨by decide, ?_⟩
  intro key document member seen
  rw [none (key, document) member] at seen
  cases seen

/-- Bytes stored out of sight answer `already_existed`; bytes that are not stored do not. -/
theorem upload_reveals_hidden_version :
    let call := notesUpload [1] [] none
    Reachable (PersistCall.Identified .spelling) restrictedStore ∧
      Reachable (PersistCall.Identified .spelling) empty ∧ call.Identified .spelling ∧
      SameView "t" [] restrictedStore empty ∧ StoreCall.By "t" [] (.persist call) ∧
      (restrictedStore.step 0 (.persist call)).1 ≠ (empty.step 0 (.persist call)).1 :=
  ⟨restrictedStore_reachable, .empty, notesUpload_identified .., restrictedStore_sameView,
    ⟨fun _ => by decide, rfl⟩, by decide⟩

/-- Other bytes from the same caller are answered alike in both states. -/
theorem other_upload_same_answer :
    let call := notesUpload [2] [] none
    (restrictedStore.step 0 (.persist call)).1 = (empty.step 0 (.persist call)).1 := by
  intro call
  have caller : StoreCall.By "t" [] (.persist call) := ⟨fun _ => by decide, rfl⟩
  refine ((same_answers_iff restrictedStore_sameView 0).2 (.persist call) caller).mpr ?_
  intro upload same _
  cases same
  have missing : restrictedStore.documents.find? call.key = none := by decide
  rw [missing]
  trivial

end InMemoryStore

end ProductionRag
