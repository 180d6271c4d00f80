import ProductionRag.Store.Identity

/-!
# Which chunks a caller reads

Documents and chunks stay under the same keys, so reading never misses a row.  The chunks
of a row carry its keys, and are numbered, so none is read twice.
-/

set_option autoImplicit false

namespace ProductionRag

open Basis

/-- The result is one of `ingest_segments`. -/
def PersistCall.Ingested (hash : Sha256) (call : PersistCall) : Prop :=
  ∃ split uuid4 createdAt original segments filename tenant identity,
    ingestSegments hash split uuid4 createdAt original segments filename tenant identity =
      .ok call.result

/-- The chunks belong to the key they are stored under and are numbered apart. -/
structure OwnChunks (key : DocumentKey) (chunks : List Chunk) : Prop where
  tenant : ∀ chunk ∈ chunks, chunk.tenantId = key.1
  document : ∀ chunk ∈ chunks, chunk.documentId = key.2
  numbered : (chunks.map (·.index)).Nodup

theorem PersistCall.Ingested.ownChunks {hash : Sha256} {call : PersistCall}
    (ingested : call.Ingested hash) : OwnChunks call.key call.result.chunks := by
  obtain ⟨split, uuid4, createdAt, original, segments, filename, tenant, identity, success⟩ :=
    ingested
  unfold ingestSegments at success
  split at success
  · cases success
  · split at success
    · cases success
    · rename_i normal _
      dsimp only at success
      have same := (Except.ok.inj success).symm
      generalize (segments.flatMap fun segment =>
        (split segment.2).map fun piece => (segment.1, piece)) = pieces at same
      have tenants : ∀ chunk ∈ call.result.chunks, chunk.tenantId = normal := by
        rw [same]
        intro chunk member
        obtain ⟨entry, _, rfl⟩ := List.mem_map.mp member
        rfl
      refine ⟨?_, ?_, ?_⟩
      · intro chunk member
        rw [tenants chunk member, key, tenantId]
        cases chunks : call.result.chunks with
        | nil =>
            rw [chunks] at member
            cases member
        | cons first rest =>
            rw [chunks] at tenants
            exact (tenants first List.mem_cons_self).symm
      · rw [key, same]
        intro chunk member
        obtain ⟨entry, _, rfl⟩ := List.mem_map.mp member
        rfl
      · have indices : call.result.chunks.map (·.index) = pieces.zipIdx.map Prod.snd := by
          rw [same, List.map_map]
          rfl
        rw [indices, List.zipIdx_map_snd]
        exact List.nodup_range'

namespace InMemoryStore

/-- Every row has its own chunks. -/
def RowsOwn (store : InMemoryStore) : Prop :=
  ∀ key chunks, store.chunks.find? key = some chunks → OwnChunks key chunks

/-- What a call does to the chunks. -/
theorem step_chunks (store : InMemoryStore) (now : Time) (call : StoreCall) :
    (store.step now call).2.chunks = store.chunks ∨
      (∃ key, (store.step now call).2.chunks = store.chunks.erase key) ∨
      ∃ upload, call = .persist upload ∧
        (store.step now call).2.chunks = store.chunks.set upload.key upload.result.chunks := by
  cases call with
  | persist call =>
      by_cases empty : call.result.chunks = []
      · left
        simp only [step, persistCall_error store now call empty]
      · simp only [step, persistCall_eq store now call empty]
        cases store.documents.find? call.key with
        | none => exact Or.inr (Or.inr ⟨call, rfl, rfl⟩)
        | some existing =>
            left
            dsimp only
            split <;> rfl
  | updateDocument tenantId documentId groups allowedGroups displayName =>
      left
      simp only [step, updateDocument]
      split
      · rfl
      · split <;> rfl
  | deleteDocument tenantId documentId groups =>
      simp only [step, deleteDocument]
      split
      · exact Or.inl rfl
      · exact Or.inr (Or.inl ⟨_, rfl⟩)
  | markChecked tenantId documentId => exact Or.inl rfl
  | currentVersion tenantId source groups => exact Or.inl rfl
  | getDocument tenantId documentId groups => exact Or.inl rfl
  | listDocuments tenantId groups includeSuperseded => exact Or.inl rfl

theorem Reachable.rowsOwn {hash : Sha256} {store : InMemoryStore}
    (reached : Reachable (PersistCall.Ingested hash) store) : store.RowsOwn := by
  refine reached.induct RowsOwn ?_ ?_
  · intro key chunks found
    cases found
  · intro store now call own isLegal key chunks found
    rcases step_chunks store now call with same | ⟨erased, same⟩ | ⟨upload, rfl, same⟩
    · rw [same] at found
      exact own key chunks found
    · rw [same, Table.find?_erase] at found
      split at found
      · cases found
      · exact own key chunks found
    · rw [same, Table.find?_set] at found
      split at found
      · rename_i isKey
        rw [isKey, ← Option.some.inj found]
        exact isLegal.ownChunks
      · exact own key chunks found

/-- The chunk belongs to a ready document of the principal's tenant whose access list lets
the principal in, and carries the current name of the document. -/
def Permitted (store : InMemoryStore) (principal : Principal) (chunk : Chunk) : Prop :=
  ∃ key row stored original,
    store.documents.find? key = some row ∧ key.1 = principal.tenantId ∧ row.status = .ready ∧
      (row.allowedGroups = [] ∨ ∃ group ∈ row.allowedGroups, group ∈ principal.groups) ∧
      store.chunks.find? key = some stored ∧ original ∈ stored ∧
      chunk = { original with source := row.source }

/-- The rows a principal reads. -/
def readableRows (store : InMemoryStore) (principal : Principal) :
    List (DocumentKey × Document) :=
  store.documents.entries.filter fun entry =>
    entry.1.1 == principal.tenantId && entry.2.isReady &&
      canReadGroups entry.2.allowedGroups principal

/-- The chunks of a row under its current name. -/
def rowChunks (store : InMemoryStore) (entry : DocumentKey × Document) : List Chunk :=
  ((store.chunks.find? entry.1).getD []).map fun chunk => { chunk with source := entry.2.source }

theorem mem_readableRows {store : InMemoryStore} {principal : Principal}
    {entry : DocumentKey × Document} :
    entry ∈ store.readableRows principal ↔
      store.documents.find? entry.1 = some entry.2 ∧ entry.1.1 = principal.tenantId ∧
        entry.2.status = .ready ∧
        (entry.2.allowedGroups = [] ∨
          ∃ group ∈ entry.2.allowedGroups, group ∈ principal.groups) := by
  rw [readableRows, List.mem_filter, Table.find?_eq_some_iff]
  simp only [Bool.and_eq_true, beq_iff_eq, Version.isReady_iff, canReadGroups, groupsMeet,
    Bool.or_eq_true, List.isEmpty_iff, List.any_eq_true, List.contains_iff_mem, and_assoc]

theorem readableChunks_eq {store : InMemoryStore}
    (sameKeys : store.chunks.keys = store.documents.keys) (principal : Principal) :
    store.readableChunks principal =
      .ok ((store.readableRows principal).flatMap store.rowChunks) := by
  have renamed_eq : ∀ (chunk : Chunk) (source : String),
      renamed chunk source = { chunk with source } := by
    intro chunk source
    rw [renamed]
    split
    · rename_i same
      rw [← same]
    · rfl
  have found : (store.readableRows principal).mapM store.chunksOf =
      .ok ((store.readableRows principal).map store.rowChunks) := by
    rw [Except.mapM_ok_iff, List.forall₂_map_right_iff, List.forall₂_same]
    intro entry member
    have isKey : entry.1 ∈ store.chunks.keys := by
      rw [sameKeys, ← Table.find?_isSome_iff, (mem_readableRows.mp member).1]
      rfl
    rw [← Table.find?_isSome_iff] at isKey
    obtain ⟨chunks, lookup⟩ := Option.isSome_iff_exists.mp isKey
    rw [chunksOf, rowChunks, lookup]
    simp only [renamed_eq, Option.getD_some]
  rw [readableChunks, ← readableRows, found]
  rfl

/-- A principal reads the permitted chunks, each once. -/
theorem readableChunks_spec {store : InMemoryStore}
    (sameKeys : store.chunks.keys = store.documents.keys) (own : store.RowsOwn)
    (principal : Principal) :
    ∃ chunks, store.readableChunks principal = .ok chunks ∧
      (∀ chunk, chunk ∈ chunks ↔ store.Permitted principal chunk) ∧
      (chunks.map fun chunk => (chunk.documentId, chunk.index)).Nodup := by
  refine ⟨_, readableChunks_eq sameKeys principal, ?_, ?_⟩
  · intro chunk
    rw [List.mem_flatMap]
    constructor
    · rintro ⟨entry, member, inRow⟩
      obtain ⟨found, tenant, ready, allowed⟩ := mem_readableRows.mp member
      obtain ⟨original, isStored, rfl⟩ := List.mem_map.mp inRow
      cases lookup : store.chunks.find? entry.1 with
      | none =>
          rw [lookup] at isStored
          cases isStored
      | some stored =>
          rw [lookup] at isStored
          exact ⟨entry.1, entry.2, stored, original, found, tenant, ready, allowed, lookup,
            isStored, rfl⟩
    · rintro ⟨key, row, stored, original, found, tenant, ready, allowed, lookup, isStored, rfl⟩
      refine ⟨(key, row), mem_readableRows.mpr ⟨found, tenant, ready, allowed⟩, ?_⟩
      rw [rowChunks, lookup]
      exact List.mem_map.mpr ⟨original, isStored, rfl⟩
  · rw [List.map_flatMap, List.nodup_flatMap]
    have fromRow : ∀ entry mark,
        mark ∈ (store.rowChunks entry).map (fun chunk => (chunk.documentId, chunk.index)) →
          mark.1 = entry.1.2 := by
      intro entry mark member
      obtain ⟨chunk, inRow, rfl⟩ := List.mem_map.mp member
      obtain ⟨original, isStored, rfl⟩ := List.mem_map.mp inRow
      cases lookup : store.chunks.find? entry.1 with
      | none =>
          rw [lookup] at isStored
          cases isStored
      | some stored =>
          rw [lookup] at isStored
          exact (own entry.1 stored lookup).document original isStored
    constructor
    · intro entry _
      refine List.Nodup.of_map Prod.snd ?_
      rw [List.map_map, rowChunks, List.map_map]
      cases lookup : store.chunks.find? entry.1 with
      | none => exact List.nodup_nil
      | some stored => exact (own entry.1 stored lookup).numbered
    · have apart : (store.readableRows principal).Pairwise fun left right => left.1 ≠ right.1 :=
        List.pairwise_map.mp (store.documents.nodupKeys.sublist (List.filter_sublist.map Prod.fst))
      refine apart.imp_of_mem ?_
      intro left right inLeft inRight different mark leftMark rightMark
      refine different (Prod.ext ?_ ?_)
      · rw [(mem_readableRows.mp inLeft).2.1, (mem_readableRows.mp inRight).2.1]
      · rw [← fromRow left mark leftMark, ← fromRow right mark rightMark]

end InMemoryStore

end ProductionRag
