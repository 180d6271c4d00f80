import ProductionRag.Store.Refinement

/-!
# What every step keeps

A step of the history leaves the identity and the content of a stored version
alone, and stores new rows only from uploads.  Facts about identity therefore hold
of every reachable state as soon as every upload brings them along.
-/

set_option autoImplicit false

namespace ProductionRag

open Basis

variable {C : Type}

/-- The steps a history can take. -/
inductive History.Move (legal : UploadRequest C → Prop) (history : History C) :
    History C → Prop
  | idle : Move legal history history
  | upload (request : UploadRequest C) (marker : Option String → Option String)
      (allowedGroups : List String) (isLegal : legal request) :
      Move legal history (history.upload request marker allowedGroups).2
  | patch (logical : LogicalDocument) (groups : List String)
      (allowedGroups : Option (List String)) (displayName : Option String) :
      Move legal history (history.patch logical groups allowedGroups displayName)
  | delete (key : DocumentKey) : Move legal history (history.delete key)

/-- The columns no step rewrites. -/
structure Version.SameContent (before after : Version) : Prop where
  documentId_eq : after.documentId = before.documentId
  sourceSystem_eq : after.sourceSystem = before.sourceSystem
  sourceId_eq : after.sourceId = before.sourceId
  contentSha256_eq : after.contentSha256 = before.contentSha256

theorem Version.SameContent.refl (version : Version) : version.SameContent version :=
  ⟨rfl, rfl, rfl, rfl⟩

theorem UploadRequest.superseded_sameContent (request : UploadRequest C) (key : DocumentKey)
    (version : Version) : version.SameContent (request.superseded key version) := by
  unfold superseded
  split
  · exact ⟨rfl, rfl, rfl, rfl⟩
  · exact .refl version

theorem Version.marked_sameContent (marker : Option String → Option String)
    (version : Version) : version.SameContent (version.marked marker) :=
  ⟨rfl, rfl, rfl, rfl⟩

theorem UploadRequest.reinstated_sameContent (request : UploadRequest C)
    (marker : Option String → Option String) (number : Nat) (version : Version) :
    version.SameContent (request.reinstated marker number version) :=
  ⟨rfl, rfl, rfl, rfl⟩

/-- Where a row of the next state comes from. -/
def RowOrigin (legal : UploadRequest C → Prop) (before : Versions) (key : DocumentKey)
    (after : Version) : Prop :=
  (∃ version, (key, version) ∈ before.entries ∧ version.SameContent after) ∨
    ∃ request allowedGroups number, legal request ∧ key = request.key ∧
      after = request.created allowedGroups number

theorem Versions.mem_modify {versions : Versions} {key other : DocumentKey}
    {f : Version → Version} {after : Version}
    (same : ∀ version : Version, version.SameContent (f version))
    (member : (other, after) ∈ (versions.modify key f).entries) :
    ∃ version, (other, version) ∈ versions.entries ∧ version.SameContent after := by
  obtain ⟨version, old, eq⟩ := Table.mem_entries_mapValues.mp member
  refine ⟨version, old, ?_⟩
  subst eq
  split
  · exact same version
  · exact .refl version

theorem History.Move.rowOrigin {legal : UploadRequest C → Prop} {before after : History C}
    (move : Move legal before after) {key : DocumentKey} {version : Version}
    (member : (key, version) ∈ after.documents.entries) :
    RowOrigin legal before.documents key version := by
  cases move with
  | idle => exact Or.inl ⟨version, member, .refl version⟩
  | upload request marker allowedGroups isLegal =>
      have supersededRow : ∀ {row : Version},
          (key, row) ∈ (before.documents.mapValues request.superseded).entries →
            ∃ old, (key, old) ∈ before.documents.entries ∧ old.SameContent row := by
        intro row rowMember
        obtain ⟨old, oldMember, rfl⟩ := Table.mem_entries_mapValues.mp rowMember
        exact ⟨old, oldMember, request.superseded_sameContent key old⟩
      cases found : before.documents.find? request.key with
      | none =>
          simp only [History.upload, found] at member
          rw [← Table.find?_eq_some_iff, Table.find?_set] at member
          by_cases same : key = request.key
          · rw [if_pos same, Option.some.injEq] at member
            exact Or.inr ⟨request, allowedGroups, _, isLegal, same, member.symm⟩
          · rw [if_neg same, Table.find?_eq_some_iff] at member
            exact Or.inl (supersededRow member)
      | some existing =>
          by_cases ready : existing.isReady = true
          · simp only [History.upload, found, ready, if_true] at member
            exact Or.inl (Versions.mem_modify (Version.marked_sameContent marker) member)
          · simp only [History.upload, found, ready, Bool.false_eq_true, if_false] at member
            obtain ⟨row, rowMember, sameRow⟩ :=
              Versions.mem_modify (request.reinstated_sameContent marker _) member
            obtain ⟨old, oldMember, sameOld⟩ := supersededRow rowMember
            refine Or.inl ⟨old, oldMember, ?_⟩
            exact ⟨sameRow.1.trans sameOld.1, sameRow.2.trans sameOld.2,
              sameRow.3.trans sameOld.3, sameRow.4.trans sameOld.4⟩
  | patch logical groups allowedGroups displayName =>
      obtain ⟨old, oldMember, rfl⟩ := Table.mem_entries_mapValues.mp member
      refine Or.inl ⟨old, oldMember, ?_⟩
      split
      · exact ⟨rfl, rfl, rfl, rfl⟩
      · exact .refl old
  | delete erased =>
      exact Or.inl ⟨version, (Table.mem_entries_filter.mp member).1, .refl version⟩

/-- A fact about identity and content that uploads bring along is never lost. -/
theorem History.Move.forall_rows {legal : UploadRequest C → Prop} {before after : History C}
    (move : Move legal before after) {P : DocumentKey → Version → Prop}
    (stable : ∀ key old new, Version.SameContent old new → P key old → P key new)
    (fresh : ∀ request allowedGroups number, legal request →
      P request.key (request.created allowedGroups number))
    (holds : ∀ key version, (key, version) ∈ before.documents.entries → P key version) :
    ∀ key version, (key, version) ∈ after.documents.entries → P key version := by
  intro key version member
  rcases move.rowOrigin member with
    ⟨old, oldMember, same⟩ | ⟨request, acl, number, isLegal, rfl, rfl⟩
  · exact stable key old version same (holds key old oldMember)
  · exact fresh request acl number isLegal

/-- Documents and contents are stored under the same keys, in the same order. -/
theorem History.Move.keys_eq {legal : UploadRequest C → Prop} {before after : History C}
    (move : Move legal before after) (same : before.contents.keys = before.documents.keys) :
    after.contents.keys = after.documents.keys := by
  cases move with
  | idle => exact same
  | upload request marker allowedGroups _ =>
      cases found : before.documents.find? request.key with
      | none =>
          have absent := Table.find?_eq_none_iff.mp found
          have absent' : request.key ∉ before.contents.keys := by
            rw [same]
            exact absent
          have absent'' : request.key ∉ (before.documents.mapValues request.superseded).keys := by
            rw [Table.keys_mapValues]
            exact absent
          simp only [History.upload, found]
          rw [Table.keys_set_of_fresh _ absent', Table.keys_set_of_fresh _ absent'',
            Table.keys_mapValues, same]
      | some existing =>
          by_cases ready : existing.isReady = true
          · simp only [History.upload, found, ready, if_true, Table.keys_modify, same]
          · simp only [History.upload, found, ready, Bool.false_eq_true, if_false,
              Table.keys_modify, Table.keys_mapValues, same]
  | patch logical groups allowedGroups displayName =>
      simp only [History.patch, Table.keys_mapValues, same]
  | delete key =>
      simp only [History.delete, Table.keys_erase, same]

/-! ## Identified rows -/

/-- The row is stored under the id that `ingest_segments` gives its content. -/
structure Version.Identified (hash : Sha256) (key : DocumentKey) (version : Version) : Prop where
  documentId_eq : version.documentId = key.2
  tenant_ne : key.1 ≠ ""
  tenant_trimmed : strip key.1 = key.1
  digest_hex : ∀ c ∈ version.contentSha256.toList, c ∈ hexDigits
  named : ∃ source : SourceRef, source.system.name = version.sourceSystem ∧
    source.id = version.sourceId ∧ key.2 = source.documentId hash version.contentSha256

def Versions.Identified (hash : Sha256) (versions : Versions) : Prop :=
  ∀ key version, (key, version) ∈ versions.entries → version.Identified hash key

def UploadRequest.Identified (hash : Sha256) (request : UploadRequest C) : Prop :=
  ∀ allowedGroups number, (request.created allowedGroups number).Identified hash request.key

theorem Version.Identified.stable {hash : Sha256} {key : DocumentKey} {before after : Version}
    (same : before.SameContent after) (identified : before.Identified hash key) :
    after.Identified hash key := by
  obtain ⟨documentId, tenantNe, trimmed, hex, source, system, id, keyEq⟩ := identified
  refine ⟨same.1.trans documentId, tenantNe, trimmed, ?_, source, ?_, ?_, ?_⟩
  · rw [same.4]
    exact hex
  · rw [system, same.2]
  · rw [id, same.3]
  · rw [keyEq, same.4]

theorem History.Move.identified {hash : Sha256} {legal : UploadRequest C → Prop}
    {before after : History C} (move : Move legal before after)
    (uploads : ∀ request, legal request → request.Identified hash)
    (identified : before.documents.Identified hash) : after.documents.Identified hash :=
  move.forall_rows (fun _ _ _ same row => row.stable same)
    (fun request acl number isLegal => uploads request isLegal acl number) identified

/-- Among identified rows, logical document and content determine the key. -/
theorem UploadRequest.key_eq_iff {hash : Sha256} {request : UploadRequest C}
    (own : request.Identified hash) {key : DocumentKey} {version : Version}
    (identified : version.Identified hash key) :
    version.belongsTo request.logical key = true ∧
        version.contentSha256 = request.contentSha256 ↔
      key = request.key := by
  obtain ⟨_, _, _, ownHex, ownSource, ownSystem, ownId, ownKey⟩ := own [] 0
  obtain ⟨_, _, _, hex, source, system, id, keyEq⟩ := identified
  dsimp only [UploadRequest.created] at ownHex ownSystem ownId ownKey
  rw [Version.belongsTo_iff]
  constructor
  · rintro ⟨⟨tenant, sameSystem, sameId⟩, content⟩
    have sameIdentity : source.identity = ownSource.identity := by
      rw [SourceRef.identity, SourceRef.identity, system, id, ownSystem, ownId, sameSystem, sameId]
    have sameDocument : key.2 = request.key.2 := by
      rw [keyEq, ownKey, SourceRef.documentId, SourceRef.documentId, sameIdentity, content]
    exact Prod.ext tenant sameDocument
  · rintro rfl
    have sameId' : source.documentId hash version.contentSha256 =
        ownSource.documentId hash request.contentSha256 := keyEq.symm.trans ownKey
    obtain ⟨⟨sameSystem, sameId⟩, content⟩ :=
      SourceRef.documentId_injective hash hex ownHex sameId'
    refine ⟨⟨rfl, ?_, ?_⟩, content⟩
    · rw [← system, sameSystem, ownSystem]
    · rw [← id, sameId, ownId]

/-- An identified `persist` with chunks makes an identified request. -/
theorem PersistCall.Identified.requestWith {hash : Sha256} {call : PersistCall} (content : C)
    (identified : call.Identified hash) (nonempty : call.result.chunks ≠ []) :
    (call.requestWith content).Identified hash := by
  obtain ⟨original, documentId, content, tenantId, tenantNe, trimmed, sameTenant⟩ := identified
  have tenant : call.tenantId = tenantId := by
    cases chunks : call.result.chunks with
    | nil => exact absurd chunks nonempty
    | cons first rest =>
        have first_tenant := sameTenant first (by rw [chunks]; exact List.mem_cons_self)
        simp only [PersistCall.tenantId, chunks, List.head?_cons, Option.map_some,
          Option.getD_some, first_tenant]
  intro acl number
  refine ⟨rfl, ?_, ?_, ?_, call.effectiveSource, rfl, rfl, ?_⟩
  · change call.tenantId ≠ ""
    rw [tenant]
    exact tenantNe
  · change strip call.tenantId = call.tenantId
    rw [tenant]
    exact trimmed
  · intro c member
    exact hash.hexdigest_hex original c (content ▸ member)
  · change call.result.documentId =
      call.effectiveSource.documentId hash call.result.contentSha256
    rw [documentId, content, documentIdOf_identity]

/-- The upload of one chunk under a named source. -/
def PersistCall.single (hash : Sha256) (original : List UInt8) (tenantId filename : String)
    (source : SourceRef) (groups : List String) (allowedGroups : Option (List String)) :
    PersistCall where
  result :=
    { documentId := documentIdOf hash (some source.identity) (hash.hexdigest original)
      contentSha256 := hash.hexdigest original
      chunks :=
        [{ text := "text", documentId := source.documentId hash (hash.hexdigest original),
           index := 0, tenantId, source := filename, id := "chunk", createdAt := 0 }] }
  allowedGroups
  groups
  contentType := "text/plain"
  source := some source
  embeddings := [List.replicate dimensions (.finite 0)]

theorem PersistCall.single_identified (hash : Sha256) (original : List UInt8)
    {tenantId : String} (filename : String) (source : SourceRef) (groups : List String)
    (allowedGroups : Option (List String)) (nonempty : tenantId ≠ "")
    (trimmed : strip tenantId = tenantId) :
    (single hash original tenantId filename source groups allowedGroups).Identified hash := by
  refine ⟨original, rfl, rfl, tenantId, nonempty, trimmed, ?_⟩
  intro chunk member
  rw [List.mem_singleton.mp member]

/-! ## Reachable in-memory stores -/

namespace InMemoryStore

/-- The requests that legal `persist` calls make. -/
def Requests (legal : PersistCall → Prop) (request : UploadRequest (List ChunkBody)) : Prop :=
  ∃ call, legal call ∧ call.result.chunks ≠ [] ∧ request = call.request

theorem step_move {legal : PersistCall → Prop} (store : InMemoryStore) (now : Time)
    (call : StoreCall) (isLegal : call.Legal legal) :
    History.Move (Requests legal) store.history (store.step now call).2.history := by
  cases call with
  | persist call =>
      by_cases empty : call.result.chunks = []
      · simp only [step, persistCall_error store now call empty]
        exact .idle
      · obtain ⟨after, success, refined⟩ := persistCall_refines store now call empty
        simp only [step, success, refined]
        exact .upload call.request id _ ⟨call, isLegal, empty, rfl⟩
  | markChecked tenantId documentId =>
      simp only [step, markChecked_refines]
      exact .idle
  | updateDocument tenantId documentId groups allowedGroups displayName =>
      have refined := updateDocument_refines store tenantId documentId groups allowedGroups
        displayName now
      simp only [step]
      revert refined
      dsimp only
      split
      · rintro ⟨_, same⟩
        rw [same]
        exact .idle
      · split
        · rintro ⟨patched, _⟩
          rw [patched]
          exact .patch _ _ _ _
        · rintro ⟨_, same⟩
          rw [same]
          exact .idle
  | deleteDocument tenantId documentId groups =>
      simp only [step, deleteDocument]
      split
      · exact .idle
      · simp only [history, Documents.versions_erase, Table.mapValues_erase]
        exact .delete (tenantId, documentId)
  | currentVersion tenantId source groups => exact .idle
  | getDocument tenantId documentId groups => exact .idle
  | listDocuments tenantId groups includeSuperseded => exact .idle

theorem Reachable.identified {hash : Sha256} {store : InMemoryStore}
    (reached : Reachable (PersistCall.Identified hash) store) :
    store.documents.versions.Identified hash := by
  refine reached.induct (fun store => store.documents.versions.Identified hash) ?_ ?_
  · intro key version member
    cases member
  · intro store now call identified isLegal
    refine (step_move store now call isLegal).identified ?_ identified
    rintro request ⟨call, isLegal, nonempty, rfl⟩
    exact PersistCall.Identified.requestWith _ isLegal nonempty

theorem Reachable.keys_eq {legal : PersistCall → Prop} {store : InMemoryStore}
    (reached : Reachable legal store) : store.chunks.keys = store.documents.keys := by
  have same : store.history.contents.keys = store.history.documents.keys := by
    refine reached.induct
      (fun store => store.history.contents.keys = store.history.documents.keys) rfl ?_
    intro store now call same isLegal
    exact (step_move store now call isLegal).keys_eq same
  simpa only [history, Documents.versions, Table.keys_mapValues] using same

end InMemoryStore

end ProductionRag
