import ProductionRag.Store.PostgresRefinement

/-!
# Reachable databases

Every transaction is a step of the history, and the invariant of the database holds
in every reachable state.  The statements that read one row back can therefore be
read as lookups.
-/

set_option autoImplicit false

namespace ProductionRag

open Basis

namespace Database

/-- The creation times a transaction leaves behind. -/
inductive Recorded (now : Time) (before after : Table DocumentKey Time) : Prop
  | kept (same : after = before)
  | appended (key : DocumentKey) (fresh : before.find? key = none)
      (same : after = before.set key now)
  | erased (key : DocumentKey) (same : after = before.erase key)

theorem CreatedBy.step {clock now : Time} {before after : Table DocumentKey Time}
    (created : CreatedBy clock before) (later : clock < now)
    (recorded : Recorded now before after) : CreatedBy now after := by
  obtain ⟨order, past⟩ := created
  have past' : ∀ key time, (key, time) ∈ before.entries → time < now := by
    intro key time member
    exact Nat.lt_of_le_of_lt (past key time member) later
  cases recorded with
  | kept same =>
      subst same
      exact ⟨order, fun key time member => Nat.le_of_lt (past' key time member)⟩
  | appended key fresh same =>
      subst same
      constructor
      · rw [Table.entries_set_of_fresh now fresh, List.pairwise_append]
        refine ⟨order, List.pairwise_singleton _ _, ?_⟩
        rintro ⟨other, time⟩ member last lastMember
        rw [List.mem_singleton.mp lastMember]
        exact past' other time member
      · intro other time member
        rw [Table.entries_set_of_fresh now fresh, List.mem_append, List.mem_singleton] at member
        rcases member with old | new
        · exact Nat.le_of_lt (past' other time old)
        · cases new
          exact Nat.le_refl now
  | erased key same =>
      subst same
      constructor
      · exact order.sublist List.filter_sublist
      · intro other time member
        exact Nat.le_of_lt (past' other time (Table.mem_entries_filter.mp member).1)

theorem Invariant.of_move {hash : Sha256} {legal : UploadRequest (List ChunkRow) → Prop}
    {before after : Database} (invariant : before.Invariant hash)
    (uploads : ∀ request, legal request → request.Identified hash)
    (move : History.Move legal before.history after.history) (later : before.clock < after.clock)
    (recorded : Recorded after.clock (createdTimes before.documents)
      (createdTimes after.documents)) :
    after.Invariant hash := by
  refine ⟨move.identified uploads invariant.identified, ?_, invariant.created.step later recorded⟩
  have same : before.history.contents.keys = before.history.documents.keys := by
    simpa only [history, Documents.versions, Table.keys_mapValues] using invariant.keys_eq
  simpa only [history, Documents.versions, Table.keys_mapValues] using move.keys_eq same

/-- The requests that legal `persist` calls make. -/
def Requests (legal : PersistCall → Prop) (request : UploadRequest (List ChunkRow)) : Prop :=
  ∃ call, legal call ∧ call.result.chunks ≠ [] ∧ request = call.rowRequest

/-- What a committed upload says about its arguments and its creation times. -/
structure Committed (db : Database) (now : Time) (call : PersistCall) (after : Database) :
    Prop where
  accepted : call.Accepted
  allowed : db.documents.find? call.key = none → call.RowsAllowed
  recorded : Recorded now (createdTimes db.documents) (createdTimes after.documents)
  clock_eq : after.clock = now

theorem Invariant.persistCall_committed {hash : Sha256} {db after : Database}
    {plan : VersionPlan} {now : Time} {call : PersistCall} {result : PersistResult}
    (invariant : db.Invariant hash) (identified : call.rowRequest.Identified hash)
    (success : db.persistCall plan now call = .ok (result, after)) :
    db.Committed now call after := by
  have accepted := persistCall_ok success
  have repeatedTimes (key : DocumentKey) :
      createdTimes (db.documents.modify key (repeated call now)) =
        createdTimes db.documents := Documents.column_modify _ _ _ _ fun _ => rfl
  have kept {key : DocumentKey} {stored : Document}
      (hit : db.conflicting call.logical call.result.contentSha256 = some (key, stored)) :
      db.documents.find? call.key = none → call.RowsAllowed := by
    intro missing
    rw [invariant.conflicting_eq identified, missing, Option.map_none] at hit
    cases hit
  cases persistCall_persisted success with
  | current hit ready => exact ⟨accepted, kept hit, .kept (repeatedTimes _), rfl⟩
  | promoted hit notReady promotes =>
      subst promotes
      refine ⟨accepted, kept hit, .kept ?_, rfl⟩
      rw [promoteCall, createdTimes, column_promote _ fun _ _ _ _ _ => rfl]
      exact repeatedTimes _
  | inserted hit missing allowed promotes =>
      subst promotes
      refine ⟨accepted, fun _ => allowed, .appended call.key ?_ ?_, rfl⟩
      · rw [createdTimes, Documents.find?_column, missing, Option.map_none]
      · rw [promoteCall, createdTimes, column_promote _ fun _ _ _ _ _ => rfl,
          Documents.column_set]
        rfl

/-- A committed `persist` is an upload of the history. -/
theorem Invariant.persistCall_uploaded {hash : Sha256} {db after : Database}
    {plan : VersionPlan} {now : Time} {call : PersistCall} {result : PersistResult}
    (invariant : db.Invariant hash) (identified : call.rowRequest.Identified hash)
    (success : db.persistCall plan now call = .ok (result, after)) :
    result =
        (db.history.upload call.rowRequest call.coalesce (db.settledGroups plan call)).1 ∧
      after.documents.versions =
        db.history.uploaded call.rowRequest call.coalesce (db.settledGroups plan call) := by
  have committed := invariant.persistCall_committed identified success
  obtain ⟨other, success', refined⟩ :=
    persistCall_refines plan now invariant identified committed.accepted committed.allowed
  rw [success, Except.ok.injEq, Prod.mk.injEq] at success'
  obtain ⟨sameResult, rfl⟩ := success'
  exact ⟨sameResult, congrArg History.documents refined⟩

theorem Invariant.persistCall_move {hash : Sha256} {legal : PersistCall → Prop}
    {db after : Database} {plan : VersionPlan} {now : Time} {call : PersistCall}
    {result : PersistResult} (invariant : db.Invariant hash) (isLegal : legal call)
    (identified : call.rowRequest.Identified hash)
    (success : db.persistCall plan now call = .ok (result, after)) :
    History.Move (Requests legal) db.history after.history := by
  have committed := invariant.persistCall_committed identified success
  obtain ⟨other, success', refined⟩ := persistCall_refines plan now invariant
    identified committed.accepted committed.allowed
  rw [success] at success'
  cases success'
  rw [refined]
  exact .upload call.rowRequest call.coalesce _
    ⟨call, isLegal, committed.accepted.nonempty, rfl⟩

/-- The database after the update of a visible row. -/
def patchedAt (db : Database) (tenantId : String) (found : Version) (groups : List String)
    (allowedGroups : Option (List String)) (displayName : Option String) (now : Time) :
    Database :=
  { db with
    documents := db.documents.mapValues fun key document =>
      if inTenant tenantId key &&
          document.versionOf ⟨tenantId, found.sourceSystem, found.sourceId⟩ groups key then
        InMemoryStore.patched allowedGroups displayName now document
      else document
    clock := now }

theorem Invariant.inTenant_and_versionOf {hash : Sha256} {db : Database}
    (invariant : db.Invariant hash) (tenantId : String) (found : Version)
    (groups : List String) {key : DocumentKey} {document : Document}
    (member : (key, document) ∈ db.documents.entries) :
    (inTenant tenantId key &&
        document.versionOf ⟨tenantId, found.sourceSystem, found.sourceId⟩ groups key) =
      document.versionOf (InMemoryStore.logicalOf tenantId found) groups key := by
  rw [invariant.inTenant_eq member]
  simp only [InMemoryStore.logicalOf, Version.versionOf, Version.belongsTo]
  cases key.1 == tenantId <;> simp

theorem Invariant.patchedAt_history {hash : Sha256} {db : Database}
    (invariant : db.Invariant hash) (tenantId : String) (found : Version)
    (groups : List String) (allowedGroups : Option (List String))
    (displayName : Option String) (now : Time) :
    (db.patchedAt tenantId found groups allowedGroups displayName now).history =
      db.history.patch (InMemoryStore.logicalOf tenantId found) groups allowedGroups
        displayName := by
  simp only [History.patch, history, patchedAt]
  congr 1
  simp only [Documents.versions, Table.mapValues_mapValues]
  apply Table.mapValues_congr
  intro key document member
  simp only [invariant.inTenant_and_versionOf tenantId found groups member]
  split <;> rfl

theorem patchedAt_times (db : Database) (tenantId : String) (found : Version)
    (groups : List String) (allowedGroups : Option (List String))
    (displayName : Option String) (now : Time) :
    createdTimes (db.patchedAt tenantId found groups allowedGroups displayName now).documents =
      createdTimes db.documents := by
  apply Documents.column_mapValues
  intro key document
  split <;> rfl

theorem Invariant.patchedAt {hash : Sha256} {db : Database} (invariant : db.Invariant hash)
    (tenantId : String) (found : Version) (groups : List String)
    (allowedGroups : Option (List String)) (displayName : Option String) {now : Time}
    (later : db.clock < now) :
    (db.patchedAt tenantId found groups allowedGroups displayName now).Invariant hash := by
  refine invariant.of_move (fun _ (impossible : False) => impossible.elim) ?_
    later (.kept (patchedAt_times ..))
  rw [invariant.patchedAt_history]
  exact .patch _ _ _ _

/-- What an update does: nothing to a row the caller does not see, else one patch. -/
theorem Invariant.updateDocument_eq {hash : Sha256} {db : Database}
    (invariant : db.Invariant hash) {tenantId : String} (nonblank : strip tenantId ≠ "")
    (documentId : String) (groups : List String) (allowedGroups : Option (List String))
    (displayName : Option String) {now : Time} (later : db.clock < now) :
    db.updateDocument tenantId documentId groups allowedGroups displayName now =
      match (db.documents.find? (tenantId, documentId)).filter (·.visible groups) with
      | none => .ok ((false, none), { db with clock := now })
      | some found =>
        let after := db.patchedAt tenantId found.toVersion groups allowedGroups displayName now
        .ok ((true,
          (after.documents.find? (tenantId, documentId)).filter (·.visible groups)), after) := by
  have setTenantOk : setTenant tenantId = .ok () := by
    simp only [setTenant, nonblank, if_false]
  simp only [updateDocument, setTenantOk, bind, Except.bind]
  cases found : db.documents.find? (tenantId, documentId) with
  | none => rfl
  | some existing =>
      have own := invariant.inTenant_eq (Table.find?_eq_some_iff.mp found) tenantId
      rw [beq_self_eq_true] at own
      simp only [own, Bool.true_and, Option.filter_some]
      by_cases visible : existing.visible groups = true
      · simp only [visible, if_true]
        have invariant' := invariant.patchedAt tenantId existing.toVersion groups allowedGroups
          displayName later
        have readBack := invariant'.getDocument_eq nonblank documentId groups
        simp only [Database.patchedAt] at readBack ⊢
        rw [readBack]
      · simp only [visible, Bool.false_eq_true, if_false]

theorem deleteDocument_refines (db : Database) {tenantId documentId : String}
    (groups : List String) (now : Time) (nonblank : strip tenantId ≠ "")
    (named : strip documentId ≠ "") :
    let key := (strip tenantId, strip documentId)
    match (db.history.documents.find? key).filter (·.visible groups) with
    | none => db.deleteDocument tenantId documentId groups now =
        .ok (false, { db with clock := now })
    | some _ => ∃ after, db.deleteDocument tenantId documentId groups now = .ok (true, after) ∧
        after.history = db.history.delete key ∧ after.clock = now ∧
        createdTimes after.documents = (createdTimes db.documents).erase key := by
  have neither : ¬ (strip tenantId = "" ∨ strip documentId = "") := not_or.mpr ⟨nonblank, named⟩
  have lookup := Documents.versions_find? db.documents (strip tenantId, strip documentId)
  simp only [deleteDocument, neither, if_false, history, lookup, Option.filter_map]
  cases found : (db.documents.find? (strip tenantId, strip documentId)).filter
      (·.visible groups) with
  | none =>
      have found' : Option.filter ((fun version : Version => version.visible groups) ∘
          fun document : Document => document.toVersion)
          (db.documents.find? (strip tenantId, strip documentId)) = none := found
      simp only [found', Option.map_none]
  | some document =>
      have found' : Option.filter ((fun version : Version => version.visible groups) ∘
          fun document : Document => document.toVersion)
          (db.documents.find? (strip tenantId, strip documentId)) = some document := found
      simp only [found', Option.map_some]
      refine ⟨_, rfl, ?_, rfl, ?_⟩
      · simp only [History.delete, Documents.versions_erase, Table.mapValues_erase]
      · exact Documents.column_erase _ _ _

/-- Every transaction is a step of the history and keeps the table ordered. -/
theorem Invariant.step_move {hash : Sha256} {legal : PersistCall → Prop} {db : Database}
    (invariant : db.Invariant hash) (identified : ∀ call, legal call → call.Identified hash)
    (plan : VersionPlan) (delay : Nat) (call : StoreCall) (isLegal : call.Legal legal) :
    (db.step plan delay call).2 = db ∨
      History.Move (Requests legal) db.history (db.step plan delay call).2.history ∧
        (db.step plan delay call).2.clock = db.nextNow delay ∧
        Recorded (db.nextNow delay) (createdTimes db.documents)
          (createdTimes (db.step plan delay call).2.documents) := by
  cases call with
  | persist call =>
      simp only [step, settle]
      cases out : db.persistCall plan (db.nextNow delay) call with
      | error e => exact Or.inl rfl
      | ok pair =>
          obtain ⟨result, after⟩ := pair
          have nonempty := (persistCall_ok out).nonempty
          have own := (identified call isLegal).requestWith (call.rows.map ChunkRow.body) nonempty
          have committed := invariant.persistCall_committed own out
          exact Or.inr ⟨invariant.persistCall_move isLegal own out, committed.clock_eq,
            committed.recorded⟩
  | markChecked tenantId documentId =>
      simp only [step, settle]
      cases out : db.markChecked tenantId documentId (db.nextNow delay) with
      | error e => exact Or.inl rfl
      | ok after =>
          obtain ⟨sameHistory, sameTimes, clock⟩ := markChecked_refines out
          refine Or.inr ⟨?_, clock, .kept sameTimes⟩
          simp only [Except.map, sameHistory]
          exact .idle
  | updateDocument tenantId documentId groups allowedGroups displayName =>
      by_cases blank : strip tenantId = ""
      · left
        simp only [step, settle, updateDocument, setTenant, blank, if_true, bind, Except.bind]
      · simp only [step, settle, invariant.updateDocument_eq blank documentId groups
          allowedGroups displayName (db.lt_nextNow delay)]
        cases found : (db.documents.find? (tenantId, documentId)).filter (·.visible groups) with
        | none => exact Or.inr ⟨.idle, rfl, .kept rfl⟩
        | some existing =>
            refine Or.inr ⟨?_, rfl, .kept (patchedAt_times ..)⟩
            simp only [invariant.patchedAt_history]
            exact .patch _ _ _ _
  | deleteDocument tenantId documentId groups =>
      by_cases blank : strip tenantId = "" ∨ strip documentId = ""
      · left
        simp only [step, settle, deleteDocument, blank, if_true]
      · obtain ⟨nonblank, named⟩ := not_or.mp blank
        have refined := db.deleteDocument_refines groups (db.nextNow delay) nonblank named
        revert refined
        dsimp only
        split
        · intro refined
          simp only [step, settle, refined]
          exact Or.inr ⟨.idle, trivial, .kept rfl⟩
        · rintro ⟨after, success, refined, clock, times⟩
          simp only [step, settle, success, refined]
          exact Or.inr ⟨.delete _, clock, .erased _ times⟩
  | currentVersion tenantId source groups => exact Or.inl rfl
  | getDocument tenantId documentId groups => exact Or.inl rfl
  | listDocuments tenantId groups includeSuperseded => exact Or.inl rfl

theorem Invariant.empty (hash : Sha256) : empty.Invariant hash := by
  refine ⟨?_, rfl, ⟨List.Pairwise.nil, ?_⟩⟩
  · intro key version member
    cases member
  · intro key time member
    cases member

theorem Invariant.step {hash : Sha256} {legal : PersistCall → Prop} {db : Database}
    (invariant : db.Invariant hash) (identified : ∀ call, legal call → call.Identified hash)
    (plan : VersionPlan) (delay : Nat) (call : StoreCall) (isLegal : call.Legal legal) :
    (db.step plan delay call).2.Invariant hash := by
  rcases invariant.step_move identified plan delay call isLegal with
    same | ⟨move, clock, recorded⟩
  · rw [same]
    exact invariant
  · refine invariant.of_move ?_ move ?_ (clock ▸ recorded)
    · rintro request ⟨call, callLegal, nonempty, rfl⟩
      exact (identified call callLegal).requestWith _ nonempty
    · rw [clock]
      exact db.lt_nextNow delay

theorem Reachable.invariant {hash : Sha256} {db : Database}
    (reached : Reachable (PersistCall.Identified hash) db) : db.Invariant hash :=
  reached.induct (Invariant hash) (Invariant.empty hash) fun _ plan delay call invariant isLegal =>
    invariant.step (fun _ own => own) plan delay call isLegal

end Database

end ProductionRag
