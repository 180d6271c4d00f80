import ProductionRag.Store.Readable

/-!
# Where a stored row comes from

After a call a row of the in-memory store is a row from before, of which the call may have
moved the status, the number, the name, the access list and the timestamps, or the row of
the upload itself.  Its chunks never change.
-/

set_option autoImplicit false

namespace ProductionRag

open Basis

/-- What a call may do to a row that stays. -/
structure Version.Touched (call : StoreCall) (old new : Version) : Prop where
  content : old.SameContent new
  contentType_eq : new.contentType = old.contentType
  chunkCount_eq : new.chunkCount = old.chunkCount
  sourceVersion_eq : new.sourceVersion = old.sourceVersion
  sourceModifiedAt_eq : new.sourceModifiedAt = old.sourceModifiedAt
  version : new.version = old.version ∨ 1 ≤ new.version
  allowedGroups : new.allowedGroups = old.allowedGroups ∨
    ∃ tenantId documentId groups displayName, call =
      .updateDocument tenantId documentId groups (some new.allowedGroups) displayName

theorem Version.Touched.refl (call : StoreCall) (version : Version) :
    version.Touched call version :=
  ⟨.refl version, rfl, rfl, rfl, rfl, Or.inl rfl, Or.inl rfl⟩

namespace InMemoryStore

/-- A row after a call, with its chunks. -/
inductive RowAfter (store : InMemoryStore) (call : StoreCall) (key : DocumentKey) (row : Document)
    (chunks : Option (List Chunk)) : Prop where
  | old (before : Document) (found : store.documents.find? key = some before)
      (touched : before.toVersion.Touched call row.toVersion)
      (kept : chunks = store.chunks.find? key)
  | created (upload : PersistCall) (number : Nat) (isUpload : call = .persist upload)
      (nonempty : upload.result.chunks ≠ []) (isKey : key = upload.key)
      (isFirst : store.documents.find? key = none) (isNumber : 1 ≤ number)
      (isRow : row.toVersion = upload.request.created (store.settledGroups upload) number)
      (stored : chunks = some upload.result.chunks)

theorem supersededAt_touched (upload : PersistCall) (now : Time) (key : DocumentKey)
    (document : Document) :
    document.toVersion.Touched (.persist upload) (supersededAt upload now key document).toVersion := by
  unfold supersededAt
  split
  · exact ⟨⟨rfl, rfl, rfl, rfl⟩, rfl, rfl, rfl, rfl, Or.inl rfl, Or.inl rfl⟩
  · exact .refl _ _

theorem step_row {store : InMemoryStore} {now : Time} {call : StoreCall} {key : DocumentKey}
    {row : Document} (found : (store.step now call).2.documents.find? key = some row) :
    store.RowAfter call key row ((store.step now call).2.chunks.find? key) := by
  have same : ∀ row, store.documents.find? key = some row →
      store.RowAfter call key row (store.chunks.find? key) :=
    fun row found => .old row found (.refl call _) rfl
  cases call with
  | persist upload =>
      by_cases empty : upload.result.chunks = []
      · simp only [step, persistCall_error store now upload empty] at found ⊢
        exact same row found
      · simp only [step, persistCall_eq store now upload empty] at found ⊢
        cases existing : store.documents.find? upload.key with
        | none =>
            simp only [existing] at found ⊢
            rw [Table.find?_set] at found ⊢
            split at found
            · rename_i isKey
              obtain rfl := Option.some.inj found
              rw [if_pos isKey]
              exact .created upload _ rfl empty isKey (isKey ▸ existing)
                (Nat.le_add_left 1 _) rfl rfl
            · rename_i different
              rw [if_neg different]
              rw [Table.find?_mapValues] at found
              obtain ⟨before, was, rfl⟩ := Option.map_eq_some_iff.mp found
              exact .old before was (supersededAt_touched upload now key before) rfl
        | some other =>
            simp only [existing] at found ⊢
            split at found
            · rename_i ready
              rw [if_pos ready]
              rw [Table.find?_modify] at found
              split at found
              · obtain ⟨before, was, rfl⟩ := Option.map_eq_some_iff.mp found
                exact .old before was (.refl _ _) rfl
              · exact same row found
            · rename_i notReady
              rw [if_neg notReady]
              rw [Table.find?_modify, Table.find?_mapValues] at found
              have touched := supersededAt_touched upload now key
              split at found
              · obtain ⟨middle, given, rfl⟩ := Option.map_eq_some_iff.mp found
                obtain ⟨before, was, rfl⟩ := Option.map_eq_some_iff.mp given
                obtain ⟨content, contentType, count, marker, modified, _, acl⟩ := touched before
                exact .old before was ⟨⟨content.1, content.2, content.3, content.4⟩, contentType,
                  count, marker, modified, Or.inr (Nat.le_add_left 1 _), acl⟩ rfl
              · obtain ⟨before, was, rfl⟩ := Option.map_eq_some_iff.mp found
                exact .old before was (touched before) rfl
  | updateDocument tenantId documentId groups allowedGroups displayName =>
      simp only [step, updateDocument] at found ⊢
      split at found
      · exact same row found
      · split at found
        · rename_i visible
          rw [if_pos visible]
          rw [Table.find?_mapValues] at found
          obtain ⟨before, was, rfl⟩ := Option.map_eq_some_iff.mp found
          refine .old before was ?_ rfl
          split
          · refine ⟨⟨rfl, rfl, rfl, rfl⟩, rfl, rfl, rfl, rfl, Or.inl rfl, ?_⟩
            cases allowedGroups with
            | none => exact Or.inl rfl
            | some acl => exact Or.inr ⟨tenantId, documentId, groups, displayName, rfl⟩
          · exact .refl _ _
        · rename_i hidden
          rw [if_neg hidden]
          exact same row found
  | deleteDocument tenantId documentId groups =>
      simp only [step, deleteDocument] at found ⊢
      split at found
      · exact same row found
      · rw [Table.find?_erase] at found
        split at found
        · cases found
        · rename_i different
          rw [Table.find?_erase, if_neg different]
          exact same row found
  | markChecked tenantId documentId =>
      simp only [step, markChecked, Table.find?_modify] at found ⊢
      split at found
      · obtain ⟨before, was, rfl⟩ := Option.map_eq_some_iff.mp found
        exact .old before was (.refl _ _) rfl
      · exact same row found
  | currentVersion tenantId source groups => exact same row found
  | getDocument tenantId documentId groups => exact same row found
  | listDocuments tenantId groups includeSuperseded => exact same row found

end InMemoryStore

end ProductionRag
