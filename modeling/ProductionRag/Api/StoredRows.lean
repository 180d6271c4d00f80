import ProductionRag.Api.DisplayNames
import ProductionRag.Store.Rows

/-!
# What the server stores

The handlers check what they hand to the store.  Whatever requests come, and whenever the
worker runs, each stored version therefore has a valid source, a normal access list and
just the chunks that it counts.
-/

set_option autoImplicit false

namespace ProductionRag

open Basis

/-! ## Access lists -/

/-- Sorted, without repetition, and no group is blank or padded. -/
structure NormalGroups (groups : List String) : Prop where
  sorted : groups.Pairwise (· < ·)
  trimmed : ∀ group ∈ groups, Trimmed group

theorem NormalGroups.nil : NormalGroups [] := ⟨.nil, fun _ member => nomatch member⟩

theorem sortedGroups_sorted (groups : List String) : (sortedGroups groups).Pairwise (· < ·) := by
  have sorted := List.pairwise_insertionSort (fun left right : String => left ≤ right) groups.dedup
  have apart : (sortedGroups groups).Nodup :=
    (List.perm_insertionSort _ _).nodup_iff.mpr groups.nodup_dedup
  refine (sorted.and apart).imp ?_
  rintro left right ⟨atMost, different⟩
  exact Std.lt_of_le_of_ne atMost different

theorem of_mem_mapM_some {α β : Type} {f : α → Option β} {inputs : List α} {outputs : List β}
    (mapped : inputs.mapM f = some outputs) {output : β} (member : output ∈ outputs) :
    ∃ input ∈ inputs, f input = some output := by
  induction inputs generalizing outputs with
  | nil =>
      obtain rfl := Option.some.inj mapped
      cases member
  | cons input rest ih =>
      rw [List.mapM_cons] at mapped
      obtain ⟨first, isFirst, mapped⟩ := Option.bind_eq_some_iff.mp mapped
      obtain ⟨others, isOthers, isOutputs⟩ := Option.bind_eq_some_iff.mp mapped
      obtain rfl := Option.some.inj isOutputs
      rcases List.mem_cons.mp member with rfl | later
      · exact ⟨input, List.mem_cons_self, isFirst⟩
      · obtain ⟨source, inRest, same⟩ := ih isOthers later
        exact ⟨source, List.mem_cons_of_mem _ inRest, same⟩

theorem normalizeGroups_normal {sent : Json} {groups : List String}
    (read : normalizeGroups sent = .ok groups) : NormalGroups groups := by
  unfold normalizeGroups at read
  split at read
  · obtain rfl := Except.ok.inj read
    exact .nil
  · rename_i items
    split at read
    · rename_i texts isTexts
      obtain rfl := Except.ok.inj read
      refine ⟨sortedGroups_sorted _, fun group member => ?_⟩
      have isGroup : group ∈ texts.map strip := by
        rwa [sortedGroups, List.mem_insertionSort, List.mem_dedup] at member
      obtain ⟨text, isText, rfl⟩ := List.mem_map.mp isGroup
      obtain ⟨item, _, isItem⟩ := of_mem_mapM_some isTexts isText
      obtain ⟨_, named⟩ := Option.filter_eq_some_iff.mp isItem
      exact ⟨nonblank_iff.mp named, strip_strip text⟩
    · cases read
  · cases read

/-! ## What the handlers send -/

structure PersistCall.Checked (hash : Sha256) (call : PersistCall) : Prop where
  ingested : call.Ingested hash
  identified : call.Identified hash
  sourceId : Trimmed call.effectiveSource.id ∧ call.effectiveSource.id.length ≤ 512
  sourceVersion : ∀ version ∈ call.effectiveSource.version, version.length ≤ 256
  allowedGroups : ∀ groups ∈ call.allowedGroups, NormalGroups groups

/-- The call brings only checked values. -/
def StoreCall.Checked (hash : Sha256) : StoreCall → Prop
  | .persist call => call.Checked hash
  | .updateDocument _ _ _ allowedGroups _ => ∀ groups ∈ allowedGroups, NormalGroups groups
  | _ => True

/-- A stored version and its chunks. -/
structure Version.WellStored (hash : Sha256) (key : DocumentKey) (row : Version)
    (chunks : List Chunk) : Prop where
  identified : row.Identified hash key
  sourceId : Trimmed row.sourceId ∧ row.sourceId.length ≤ 512
  sourceVersion : ∀ version ∈ row.sourceVersion, version.length ≤ 256
  number : 1 ≤ row.version
  allowedGroups : NormalGroups row.allowedGroups
  counted : row.chunkCount = chunks.length
  nonempty : chunks ≠ []
  consecutive : chunks.map (·.index) = List.range chunks.length
  own : ∀ chunk ∈ chunks, chunk.tenantId = key.1 ∧ chunk.documentId = key.2 ∧
    CleanName chunk.source

namespace InMemoryStore

/-- Every checked call keeps the invariant. -/
def KeptBy (hash : Sha256) (Inv : InMemoryStore → Prop) : Prop :=
  ∀ store now call, call.Checked hash → Inv store → Inv (store.step now call).2

/-- Each row with its chunks. -/
def WellStored (hash : Sha256) (store : InMemoryStore) : Prop :=
  ∀ key row, store.documents.find? key = some row →
    ∃ chunks, store.chunks.find? key = some chunks ∧ row.toVersion.WellStored hash key chunks

end InMemoryStore

/-- `ingest_segments` numbers the chunks from zero and names them by the checked filename. -/
theorem PersistCall.Ingested.chunks {hash : Sha256} {call : PersistCall}
    (ingested : call.Ingested hash) :
    call.result.chunks.map (·.index) = List.range call.result.chunks.length ∧
      ∀ chunk ∈ call.result.chunks, CleanName chunk.source := by
  obtain ⟨split, uuid4, createdAt, original, segments, filename, tenant, identity, success⟩ :=
    ingested
  unfold ingestSegments at success
  split at success
  · cases success
  · rename_i name named
    split at success
    · cases success
    · dsimp only at success
      have same := (Except.ok.inj success).symm
      generalize (segments.flatMap fun segment =>
        (split segment.2).map fun piece => (segment.1, piece)) = pieces at same
      rw [same]
      refine ⟨?_, fun chunk member => ?_⟩
      · rw [List.map_map, List.length_map, List.length_zipIdx, List.range_eq_range']
        exact List.zipIdx_map_snd _ _
      · obtain ⟨entry, _, rfl⟩ := List.mem_map.mp member
        exact normalizeIdentifier_clean named

theorem Version.WellStored.touched {hash : Sha256} {key : DocumentKey} {old new : Version}
    {chunks : List Chunk} {call : StoreCall} (stored : old.WellStored hash key chunks)
    (touched : old.Touched call new) (checked : call.Checked hash) :
    new.WellStored hash key chunks where
  identified := stored.identified.stable touched.content
  sourceId := touched.content.sourceId_eq ▸ stored.sourceId
  sourceVersion := touched.sourceVersion_eq ▸ stored.sourceVersion
  number := by
    rcases touched.version with same | counted
    · exact same ▸ stored.number
    · exact counted
  allowedGroups := by
    rcases touched.allowedGroups with same | ⟨tenantId, documentId, groups, displayName, rfl⟩
    · exact same ▸ stored.allowedGroups
    · exact checked _ rfl
  counted := touched.chunkCount_eq.trans stored.counted
  nonempty := stored.nonempty
  consecutive := stored.consecutive
  own := stored.own

namespace InMemoryStore

variable {hash : Sha256} {store : InMemoryStore}

theorem WellStored.empty : InMemoryStore.WellStored hash .empty := by
  intro key row found
  cases found

/-- An inherited access list is that of a stored row. -/
theorem settledGroups_normal (stored : store.WellStored hash) {call : PersistCall}
    (checked : call.Checked hash) : NormalGroups (store.settledGroups call) := by
  rw [settledGroups]
  cases asked : call.allowedGroups with
  | some groups => exact checked.allowedGroups groups asked
  | none =>
      rw [Option.getD_none]
      cases current : (store.documents.versions.current call.logical call.groups).head? with
      | none => exact .nil
      | some version =>
          obtain ⟨key, member, _⟩ := Versions.mem_current.mp (List.mem_of_head? current)
          obtain ⟨row, isRow, rfl⟩ := Table.mem_entries_mapValues.mp member
          obtain ⟨chunks, _, well⟩ := stored key row (Table.find?_eq_some_iff.mpr isRow)
          exact well.allowedGroups

theorem WellStored.step (stored : store.WellStored hash) {now : Time} {call : StoreCall}
    (checked : call.Checked hash) : (store.step now call).2.WellStored hash := by
  intro key row found
  cases step_row found with
  | old before was touched kept =>
      obtain ⟨chunks, isChunks, well⟩ := stored key before was
      exact ⟨chunks, kept.trans isChunks, well.touched touched checked⟩
  | created upload number isUpload nonempty isKey _ isNumber isRow isChunks =>
      subst isUpload isKey
      refine ⟨_, isChunks, ?_⟩
      rw [isRow]
      have own := checked.ingested.ownChunks
      have shape := checked.ingested.chunks
      exact
        { identified := (PersistCall.Identified.requestWith _ checked.identified nonempty) _ _
          sourceId := checked.sourceId
          sourceVersion := checked.sourceVersion
          number := isNumber
          allowedGroups := settledGroups_normal stored checked
          counted := rfl
          nonempty := nonempty
          consecutive := shape.1
          own := fun chunk member =>
            ⟨own.tenant chunk member, own.document chunk member, shape.2 chunk member⟩ }

end InMemoryStore

/-! ## From the request to the store -/

/-- A job as `_document_job` lets it through, with its access list. -/
structure DocumentJob.Checked (job : DocumentJob) : Prop where
  validated : job.payload.Validated
  allowedGroups : ∀ groups ∈ job.payload.allowedGroups, NormalGroups groups

/-- The access list of a job is normal, and its groups are the caller's. -/
theorem documentJob_groups {surroundings : Surroundings} {request : Request} {job : DocumentJob}
    (read : documentJob surroundings request = .ok job) :
    (∀ groups ∈ job.payload.allowedGroups, NormalGroups groups) ∧
      ∃ principal, request.caller = .ok principal ∧
        job.payload.groups = sortedGroups principal.groups := by
  unfold documentJob at read
  extract_lets withFilename at read
  have fromFilename : ∀ filename, withFilename filename = .ok job →
      (∀ groups ∈ job.payload.allowedGroups, NormalGroups groups) ∧
        ∃ principal, request.caller = .ok principal ∧
          job.payload.groups = sortedGroups principal.groups := by
    intro filename read
    unfold withFilename at read
    obtain ⟨data, uploaded, read⟩ := Except.bind_ok_iff.mp read
    extract_lets withType at read
    have fromType : ∀ contentType, withType contentType = .ok job →
        (∀ groups ∈ job.payload.allowedGroups, NormalGroups groups) ∧
          ∃ principal, request.caller = .ok principal ∧
            job.payload.groups = sortedGroups principal.groups := by
      intro contentType read
      unfold withType at read
      obtain ⟨principal, isCaller, read⟩ := Except.bind_ok_iff.mp read
      obtain ⟨tenantId, isTenant, read⟩ := Except.bind_ok_iff.mp read
      extract_lets withGroups at read
      have fromGroups : ∀ allowedGroups, (∀ groups ∈ allowedGroups, NormalGroups groups) →
          withGroups allowedGroups = .ok job →
          (∀ groups ∈ job.payload.allowedGroups, NormalGroups groups) ∧
            job.payload.groups = sortedGroups principal.groups := by
        intro allowedGroups normal read
        unfold withGroups at read
        obtain ⟨source, fields, built⟩ := Except.bind_ok_iff.mp read
        obtain rfl := Except.ok.inj built
        exact ⟨normal, rfl⟩
      suffices sent : (∀ groups ∈ job.payload.allowedGroups, NormalGroups groups) ∧
          job.payload.groups = sortedGroups principal.groups from
        ⟨sent.1, principal, isCaller, sent.2⟩
      split at read
      · obtain ⟨allowedGroups, sent, read⟩ := Except.bind_ok_iff.mp read
        refine fromGroups allowedGroups (fun groups member => ?_) read
        have mapped := Except.mapError_eq_ok.mp sent
        cases given : normalizeGroups (request.get "allowed_groups") with
        | error e =>
            rw [given] at mapped
            cases mapped
        | ok normalized =>
            rw [given] at mapped
            obtain rfl := Except.ok.inj mapped
            exact Option.some.inj member ▸ normalizeGroups_normal given
      · exact fromGroups none (fun groups member => nomatch member) read
    split at read
    · exact fromType none read
    · exact fromType _ read
    · cases read
  split at read
  · exact fromFilename _ read
  · cases read

theorem documentJob_checked {surroundings : Surroundings} {request : Request} {job : DocumentJob}
    (read : documentJob surroundings request = .ok job) : job.Checked :=
  ⟨(documentJob_accepted read).validated, (documentJob_groups read).1⟩

theorem prepare_checked {services : Services} {uuid4 : Nat → String} {createdAt : Time}
    {job : JobPayload} {data : List UInt8} {call : PersistCall} (validated : job.Validated)
    (normal : ∀ groups ∈ job.allowedGroups, NormalGroups groups)
    (success : prepare services uuid4 createdAt job data = .ok call) :
    call.Checked services.hash := by
  have prepares := prepare_prepares success
  have isId : job.source.id = job.sourceId := if_neg validated.sourceId_ne
  obtain ⟨parsed, _, ingested⟩ := Except.bind_ok_iff.mp success
  obtain ⟨result, segmented, built⟩ := Except.bind_ok_iff.mp ingested
  have isCall : call.result = result ∧ call.allowedGroups = job.allowedGroups := by
    split at built
    · cases built
    · obtain rfl := Except.ok.inj built
      exact ⟨rfl, rfl⟩
  refine ⟨⟨_, _, _, _, _, _, _, _, isCall.1.symm ▸ segmented⟩, prepares.identified, ?_, ?_,
    isCall.2.symm ▸ normal⟩
  · rw [prepares.source, isId]
    exact ⟨⟨validated.sourceId_ne, validated.sourceId_trimmed⟩, validated.sourceId_short⟩
  · rw [prepares.source]
    exact validated.sourceVersion_short

theorem ingestDocument_checked (services : Services) (uuid4 : Nat → String) (createdAt : Time)
    {job : JobPayload} (validated : job.Validated)
    (normal : ∀ groups ∈ job.allowedGroups, NormalGroups groups) :
    (ingestDocument services uuid4 createdAt job).Sends (StoreCall.Checked services.hash) :=
  ingestDocument_meets trivial (fun _ => trivial) (fun _ _ wrong => nomatch wrong)
    fun _ _ _ prepared => prepare_checked validated normal prepared

/-! ## What the server keeps -/

namespace Application

/-- The store meets an invariant, and the waiting jobs are checked. -/
structure Keeps (Inv : InMemoryStore → Prop) (application : Application) : Prop where
  memory : Inv application.memory
  waiting : ∀ entry ∈ application.worker.queue, entry.2.Checked

/-- What a `PATCH` hands to the store, once it is accepted. -/
structure SentPatch where
  principal : Principal
  tenantId : String
  documentId : String
  allowedGroups : Option (List String)
  displayName : Option String

/-- The answer to an accepted `PATCH`, and what it leaves. -/
def SentPatch.handled (patch : SentPatch) (surroundings : Surroundings)
    (application : Application) : Handled × Application :=
  let out := application.memory.updateDocument patch.tenantId patch.documentId
    (sortedGroups patch.principal.groups) patch.allowedGroups patch.displayName
    (surroundings.now 0)
  (if out.1.1 then .ok (200, .updated patch.documentId out.1.2)
    else AnswerError.refuse 404 "document not found",
    { application with memory := out.2 })

/-- A `PATCH` is refused, or hands a normal access list to the store. -/
theorem updateDocument_sends (surroundings : Surroundings) (application : Application)
    (request : Request) :
    (∃ e, updateDocument surroundings application request = (.error e, application)) ∨
      ∃ patch : SentPatch, request.caller = .ok patch.principal ∧
        request.tenant = .ok patch.tenantId ∧ (∀ acl ∈ patch.allowedGroups, NormalGroups acl) ∧
        updateDocument surroundings application request =
          patch.handled surroundings application := by
  unfold updateDocument
  extract_lets changes
  cases read : changes with
  | error e => exact Or.inl ⟨e, rfl⟩
  | ok sent =>
      obtain ⟨principal, tenantId, allowedGroups, displayName⟩ := sent
      dsimp only [attempt]
      cases named : request.named "document_id" with
      | error e => exact Or.inl ⟨e, rfl⟩
      | ok documentId =>
          refine Or.inr ⟨⟨principal, tenantId, documentId, allowedGroups, displayName⟩, ?_⟩
          unfold changes at read
          obtain ⟨caller, isCaller, read⟩ := Except.bind_ok_iff.mp read
          obtain ⟨tenant, isTenant, read⟩ := Except.bind_ok_iff.mp read
          extract_lets withGroups at read
          have fromGroups : ∀ acl, (∀ groups ∈ acl, NormalGroups groups) →
              withGroups acl = .ok (principal, tenantId, allowedGroups, displayName) →
              caller = principal ∧ tenant = tenantId ∧
                ∀ groups ∈ allowedGroups, NormalGroups groups := by
            intro acl normal read
            unfold withGroups at read
            extract_lets withName at read
            have fromName : ∀ name,
                withName name = .ok (principal, tenantId, allowedGroups, displayName) →
                caller = principal ∧ tenant = tenantId ∧
                  ∀ groups ∈ allowedGroups, NormalGroups groups := by
              intro name read
              dsimp only [withName] at read
              split at read
              · cases read
              · cases read
                exact ⟨rfl, rfl, normal⟩
            split at read
            · exact fromName none read
            · split at read
              · exact fromName _ read
              · cases read
            · cases read
          have sends : caller = principal ∧ tenant = tenantId ∧
              ∀ groups ∈ allowedGroups, NormalGroups groups := by
            split at read
            · obtain ⟨acl, mapped, read⟩ := Except.bind_ok_iff.mp read
              refine fromGroups acl (fun groups member => ?_) read
              have normalized := Except.mapError_eq_ok.mp mapped
              cases given : normalizeGroups (request.get "allowed_groups") with
              | error e =>
                  rw [given] at normalized
                  cases normalized
              | ok list =>
                  rw [given] at normalized
                  obtain rfl := Except.ok.inj normalized
                  exact Option.some.inj member ▸ normalizeGroups_normal given
            · exact fromGroups none (fun groups member => nomatch member) read
          obtain ⟨rfl, rfl, normal⟩ := sends
          exact ⟨isCaller, isTenant, normal, rfl⟩

section Keeps

variable {Inv : InMemoryStore → Prop} {hash : Sha256} {application : Application}
  {request : Request}

theorem ingestJob_keeps (steps : InMemoryStore.KeptBy hash Inv) {surroundings : Surroundings} {job : DocumentJob}
    (sameHash : surroundings.services.hash = hash) (checked : job.Checked)
    (holds : Inv application.memory) : Inv (ingestJob surroundings application job).2.memory := by
  unfold ingestJob
  split
  · exact holds
  · rename_i sourceModifiedAt _
    have validated : ({ job.payload with sourceModifiedAt } : JobPayload).Validated :=
      { checked.validated with }
    have sends := ingestDocument_checked surroundings.services surroundings.uuid4
      (surroundings.now 0) validated checked.allowedGroups
    rw [sameHash] at sends
    exact @Program.Sends.run_preserves _ _ _ _ _ InMemoryStore.timedCalls _ _ Inv sends
      (fun store call now meets => steps store now call meets) _ _ holds

theorem Keeps.created (steps : InMemoryStore.KeptBy hash Inv) {surroundings : Surroundings}
    (sameHash : surroundings.services.hash = hash) (keeps : application.Keeps Inv) :
    (createDocument surroundings application request).2.Keeps Inv := by
  unfold createDocument
  cases read : documentJob surroundings request with
  | error e => exact keeps
  | ok job =>
      refine ⟨ingestJob_keeps steps sameHash (documentJob_checked read) keeps.memory, ?_⟩
      dsimp only [attempt, Except.mapError]
      rw [ingestJob_worker]
      exact keeps.waiting

theorem Keeps.patched (steps : InMemoryStore.KeptBy hash Inv) (surroundings : Surroundings)
    (keeps : application.Keeps Inv) :
    (updateDocument surroundings application request).2.Keeps Inv := by
  rcases updateDocument_sends surroundings application request with
    ⟨e, same⟩ | ⟨patch, _, _, normal, same⟩
  · rw [same]
    exact keeps
  · rw [same]
    exact ⟨steps _ _ (.updateDocument patch.tenantId patch.documentId
      (sortedGroups patch.principal.groups) patch.allowedGroups patch.displayName)
      normal keeps.memory, keeps.waiting⟩

theorem Keeps.deleted (steps : InMemoryStore.KeptBy hash Inv) (keeps : application.Keeps Inv) :
    (deleteDocument application request).2.Keeps Inv := by
  unfold deleteDocument
  cases request.caller with
  | error e => exact keeps
  | ok principal =>
      cases request.named "document_id" with
      | error e => exact keeps
      | ok documentId =>
          cases request.tenant with
          | error e => exact keeps
          | ok tenantId =>
              exact ⟨steps _ 0 (.deleteDocument tenantId documentId
                (sortedGroups principal.groups)) trivial keeps.memory, keeps.waiting⟩

theorem Keeps.worked (steps : InMemoryStore.KeptBy hash Inv) {surroundings : Surroundings}
    {after : Application} {startedAt finishedAt : Time} (sameHash : surroundings.services.hash = hash)
    (keeps : application.Keeps Inv)
    (worked : application.work surroundings startedAt finishedAt = some after) :
    after.Keeps Inv := by
  unfold work at worked
  split at worked
  · cases worked
  · rename_i jobId job rest queued
    obtain rfl := Option.some.inj worked
    have checked := keeps.waiting (jobId, job) (queued ▸ List.mem_cons_self)
    refine ⟨ingestJob_keeps steps sameHash checked keeps.memory, fun entry member => ?_⟩
    exact keeps.waiting entry (queued ▸ List.mem_cons_of_mem _ member)

theorem Keeps.submitted (surroundings : Surroundings) (keeps : application.Keeps Inv) :
    (submitJob surroundings application request).2.Keeps Inv := by
  unfold submitJob
  cases read : documentJob surroundings request with
  | error e => exact keeps
  | ok job =>
      refine ⟨keeps.memory, fun entry member => ?_⟩
      rcases List.mem_append.mp member with old | new
      · exact keeps.waiting entry old
      · rw [List.mem_singleton.mp new]
        exact documentJob_checked read

theorem Keeps.answered (surroundings : Surroundings) (isChat : Bool)
    (keeps : application.Keeps Inv) :
    (answerTo surroundings application request isChat).2.Keeps Inv := by
  unfold answerTo
  cases request.caller with
  | error e => exact keeps
  | ok principal =>
      dsimp only [attempt]
      split
      · exact ⟨keeps.memory, keeps.waiting⟩
      · exact ⟨keeps.memory, keeps.waiting⟩
      · exact keeps

end Keeps

end Application

/-- The event computes digests by this hash. -/
def ServerEvent.Hashes (hash : Sha256) : ServerEvent → Prop
  | .request surroundings _ _ => surroundings.services.hash = hash
  | .job surroundings _ _ => surroundings.services.hash = hash

/-- What every checked call to the store keeps, every run of the server keeps. -/
theorem server_keeps {Inv : InMemoryStore → Prop} {hash : Sha256} (init : Inv .empty)
    (steps : InMemoryStore.KeptBy hash Inv) {configured state : Application}
    (reached : (server configured).Reachable (fun _ event => event.Hashes hash) state) :
    Inv state.memory := by
  have start : (server configured).start.Keeps Inv := by
    refine ⟨init, fun entry member => ?_⟩
    cases member
  refine (reached.invariant (Application.Keeps Inv) start ?_).memory
  intro application event after keeps sameHash taken
  cases event with
  | job surroundings startedAt finishedAt => exact keeps.worked steps sameHash taken
  | request surroundings endpoint request =>
      obtain rfl := Option.some.inj taken
      cases endpoint with
      | createDocument => exact keeps.created steps sameHash
      | updateDocument => exact keeps.patched steps surroundings
      | deleteDocument => exact keeps.deleted steps
      | submitJob => exact keeps.submitted surroundings
      | query => exact keeps.answered surroundings false
      | chat => exact keeps.answered surroundings true
      | _ => exact keeps

theorem server_store_reachable {hash : Sha256} {configured state : Application}
    (reached : (server configured).Reachable (fun _ event => event.Hashes hash) state) :
    InMemoryStore.Reachable (PersistCall.Checked hash) state.memory := by
  refine server_keeps .empty (fun store now call checked reached => ?_) reached
  refine reached.step now call ?_
  cases call with
  | persist call => exact checked
  | _ => trivial

theorem server_wellStored {hash : Sha256} {configured state : Application}
    (reached : (server configured).Reachable (fun _ event => event.Hashes hash) state) :
    state.memory.WellStored hash :=
  server_keeps .empty (fun _ _ _ checked stored => stored.step checked) reached

/-- Whatever requests come and whenever the worker runs, the server is in a state of the store
that calls with identified uploads lead to, and each stored version has a valid source, a
number, a normal access list and the chunks that it counts, numbered from zero. -/
theorem server_rows_wellStored {hash : Sha256} {configured state : Application}
    (reached : (server configured).Reachable (fun _ event => event.Hashes hash) state) :
    InMemoryStore.Reachable (PersistCall.Checked hash) state.memory ∧
      state.memory.chunks.keys = state.memory.documents.keys ∧
      ∀ key row, state.memory.documents.find? key = some row →
        ∃ chunks, state.memory.chunks.find? key = some chunks ∧
          row.toVersion.WellStored hash key chunks :=
  ⟨server_store_reachable reached, (server_store_reachable reached).keys_eq,
    server_wellStored reached⟩

/-- An upload, a job for another document and its round, and a patch of the first document's
access list. -/
def mixedRun : List ServerEvent :=
  [.request oneLineServer .createDocument (namedUpload "a.txt"),
    .request oneLineServer .submitJob
      { namedUpload "b.txt" with
        payload := [("filename", .string "b.txt"), ("content", .string "y"),
          ("source_id", .string "other"), ("allowed_groups", .array [.string " g ", .string "a"])] },
    .job oneLineServer 1 2,
    .request oneLineServer .updateDocument
      { namedUpload "a.txt" with
        payload := [("allowed_groups", .array [.string "z", .string "u"])] }]

theorem mixedRun_hashes : (server Application.emptyApplication).Meets
    (fun _ event => event.Hashes oneLine.hash) (server Application.emptyApplication).start
    mixedRun := by
  refine System.meets_of_forall fun past event future middle split _ => ?_
  have member : event ∈ mixedRun := split ▸ List.mem_append_right _ List.mem_cons_self
  simp only [mixedRun, List.mem_cons, List.not_mem_nil, or_false] at member
  rcases member with rfl | rfl | rfl | rfl <;> rfl

theorem mixedRun_wellStored : ∃ state,
    (server Application.emptyApplication).exec (server Application.emptyApplication).start
      mixedRun = some state ∧ state.memory.documents.entries.length = 2 ∧
    ∀ key row, state.memory.documents.find? key = some row →
      ∃ chunks, state.memory.chunks.find? key = some chunks ∧
        row.toVersion.WellStored oneLine.hash key chunks := by
  have runs : ((server Application.emptyApplication).exec
      (server Application.emptyApplication).start mixedRun).map
        (·.memory.documents.entries.length) = some 2 := by
    decide +kernel
  obtain ⟨state, ran, two⟩ := Option.map_eq_some_iff.mp runs
  exact ⟨state, ran, two, (server_rows_wellStored ⟨mixedRun, ran, mixedRun_hashes⟩).2.2⟩

end ProductionRag
