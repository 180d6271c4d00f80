import ProductionRag.Api.Evidence
import ProductionRag.Api.Worker

/-!
# Display names

A document is shown under the filename of an upload or the name of a `PATCH`.  Uploads that
store chunks check the name for control characters; the rename of an unchanged upload and the
`PATCH` strip it only.
-/

set_option autoImplicit false

namespace ProductionRag

open Basis

/-- No character below U+0020. -/
def Printable (name : String) : Prop := ∀ c ∈ name.toList, 32 ≤ c.toNat

instance (name : String) : Decidable (Printable name) :=
  List.decidableBAll (fun c : Char => 32 ≤ c.toNat) name.toList

/-- What `strip` leaves of a name that is not blank. -/
def Trimmed (name : String) : Prop := name ≠ "" ∧ strip name = name

structure CleanName (name : String) : Prop where
  trimmed : Trimmed name
  printable : Printable name

theorem normalizeIdentifier_clean {value field normalized : String}
    (success : normalizeIdentifier value field = .ok normalized) : CleanName normalized := by
  simp only [normalizeIdentifier] at success
  split at success
  · cases success
  · rename_i named
    split at success
    · cases success
    · rename_i printable
      obtain rfl := Except.ok.inj success
      refine ⟨⟨named, strip_strip _⟩, fun c member => ?_⟩
      by_contra control
      exact printable (List.any_eq_true.mpr ⟨c, member, decide_eq_true (not_le.mp control)⟩)

/-- Only a name without control characters gets as far as `persist`. -/
theorem prepare_clean {services : Services} {uuid4 : Nat → String} {createdAt : Time}
    {job : JobPayload} {data : List UInt8} {call : PersistCall}
    (success : prepare services uuid4 createdAt job data = .ok call) : CleanName call.filename := by
  rw [(prepare_prepares success).filename]
  obtain ⟨parsed, _, ingested⟩ := Except.bind_ok_iff.mp success
  obtain ⟨result, segmented, _⟩ := Except.bind_ok_iff.mp ingested
  simp only [ingestSegments] at segmented
  split at segmented
  · cases segmented
  · rename_i filename named
    rw [← (normalizeIdentifier_ok named).1]
    exact normalizeIdentifier_clean named

/-! ## The names of a store -/

namespace InMemoryStore

/-- The display names of all rows. -/
def names (store : InMemoryStore) : List String := store.documents.entries.map (·.2.source)

theorem mem_names {store : InMemoryStore} {name : String} :
    name ∈ store.names ↔ ∃ key row, (key, row) ∈ store.documents.entries ∧ row.source = name := by
  simp only [names, List.mem_map, Prod.exists]

/-- Rewriting the rows brings in no name but the new one. -/
theorem names_mapValues {documents : Documents} {rewrite : DocumentKey → Document → Document}
    {fresh : String}
    (renames : ∀ key row, (rewrite key row).source = row.source ∨ (rewrite key row).source = fresh)
    {chunks chunks' : Table DocumentKey (List Chunk)} :
    ∀ name ∈ names ⟨documents.mapValues rewrite, chunks'⟩,
      name ∈ names ⟨documents, chunks⟩ ∨ name = fresh := by
  intro name member
  obtain ⟨key, row, inRows, rfl⟩ := mem_names.mp member
  obtain ⟨old, wasIn, rfl⟩ := Table.mem_entries_mapValues.mp inRows
  rcases renames key old with same | renamed
  · exact Or.inl (mem_names.mpr ⟨key, old, wasIn, same.symm⟩)
  · exact Or.inr renamed

theorem names_markChecked (store : InMemoryStore) (tenantId documentId : String) (now : Time) :
    (store.markChecked tenantId documentId now).names = store.names := by
  rw [names, markChecked, Table.modify, Table.entries_mapValues, List.map_map]
  apply List.map_congr_left
  intro entry _
  dsimp only [Function.comp_apply]
  split
  · rfl
  · rfl

theorem names_updateDocument (store : InMemoryStore) (tenantId documentId : String)
    (groups : List String) (allowedGroups : Option (List String)) (displayName : Option String)
    (now : Time) :
    ∀ name ∈ (store.updateDocument tenantId documentId groups allowedGroups displayName
        now).2.names,
      name ∈ store.names ∨ (displayName = some name ∧
        (store.getDocument tenantId documentId groups).isSome = true) := by
  intro name member
  unfold updateDocument at member
  split at member
  · exact Or.inl member
  · rename_i found isFound
    split at member
    · rename_i visible
      have shown : (store.getDocument tenantId documentId groups).isSome = true := by
        rw [getDocument, isFound, Option.filter_some, if_pos visible]
        rfl
      obtain ⟨key, row, inRows, rfl⟩ := mem_names.mp member
      obtain ⟨old, wasIn, rfl⟩ := Table.mem_entries_mapValues.mp inRows
      have before : old.source ∈ store.names := mem_names.mpr ⟨key, old, wasIn, rfl⟩
      split
      · cases displayName with
        | none => exact Or.inl before
        | some name => exact Or.inr ⟨rfl, shown⟩
      · exact Or.inl before
    · exact Or.inl member

theorem names_deleteDocument (store : InMemoryStore) (tenantId documentId : String)
    (groups : List String) :
    ∀ name ∈ (store.deleteDocument tenantId documentId groups).2.names, name ∈ store.names := by
  intro name member
  unfold deleteDocument at member
  split at member
  · exact member
  · obtain ⟨key, row, inRows, rfl⟩ := mem_names.mp member
    exact mem_names.mpr ⟨key, row, (Table.mem_entries_filter.mp inRows).1, rfl⟩

theorem names_refreshed (store : InMemoryStore) (job : JobPayload) (row : Document)
    (turns : Nat → Time) :
    ∀ name ∈ (store.refreshed job row turns).names,
      name ∈ store.names ∨ (name = job.filename ∧ job.filename ≠ row.source) := by
  intro name member
  unfold refreshed at member
  dsimp only at member
  split at member
  · rename_i renamed
    rcases names_updateDocument _ _ _ _ _ _ _ name member with old | ⟨new, _⟩
    · rw [names_markChecked] at old
      exact Or.inl old
    · exact Or.inr ⟨(Option.some.inj new).symm, renamed⟩
  · rw [names_markChecked] at member
    exact Or.inl member

theorem names_persistCall {store after : InMemoryStore} {now : Time} {call : PersistCall}
    {stored : PersistResult} (nonempty : call.result.chunks ≠ [])
    (success : store.persistCall now call = .ok (stored, after)) :
    ∀ name ∈ after.names, name ∈ store.names ∨ name = call.filename := by
  rw [persistCall_eq store now call nonempty] at success
  have supersedes : ∀ name ∈
      names ⟨store.documents.mapValues (supersededAt call now), store.chunks⟩,
      name ∈ store.names ∨ name = call.filename := by
    apply names_mapValues
    intro key row
    left
    rw [supersededAt]
    split
    · rfl
    · rfl
  cases existing : store.documents.find? call.key with
  | some row =>
      simp only [existing] at success
      split at success
      · obtain rfl := (Prod.mk.inj (Except.ok.inj success)).2
        apply names_mapValues
        intro key row
        left
        split
        · rfl
        · rfl
      · obtain rfl := (Prod.mk.inj (Except.ok.inj success)).2
        intro name member
        have rewritten := @names_mapValues (store.documents.mapValues (supersededAt call now)) _
          call.filename ?_ store.chunks _ name member
        · rcases rewritten with old | new
          · exact supersedes name old
          · exact Or.inr new
        · intro key row
          split
          · exact Or.inr rfl
          · exact Or.inl rfl
  | none =>
      simp only [existing] at success
      obtain rfl := (Prod.mk.inj (Except.ok.inj success)).2
      intro name member
      obtain ⟨key, row, inRows, rfl⟩ := mem_names.mp member
      have fresh : (store.documents.mapValues (supersededAt call now)).find? call.key = none := by
        rw [Table.find?_mapValues, existing]
        rfl
      rw [Table.entries_set_of_fresh _ fresh] at inRows
      rcases List.mem_append.mp inRows with old | new
      · exact supersedes _ (mem_names.mpr ⟨key, row, old, rfl⟩)
      · right
        rw [(Prod.mk.inj (List.mem_singleton.mp new)).2]
        rfl

end InMemoryStore

/-! ## The server in memory mode -/

/-- A request that reached its handler, or a round of the worker; each with what it meets
outside the application. -/
inductive ServerEvent where
  | request (surroundings : Surroundings) (endpoint : Endpoint) (request : Request)
  | job (surroundings : Surroundings) (startedAt finishedAt : Time)

/-- As configured, without documents and jobs. -/
def Application.fresh (application : Application) : Application :=
  { application with memory := .empty, worker := { queue := [], jobs := .empty } }

/-- The server from its start; a round of the worker waits for a job. -/
def server (configured : Application) : System Application ServerEvent where
  start := configured.fresh
  step application
    | .request surroundings endpoint request =>
      some (application.serve surroundings endpoint request).2
    | .job surroundings startedAt finishedAt => application.work surroundings startedAt finishedAt

namespace Application

/-- Whatever comes over HTTP, a handler sees it, or nothing happens. -/
theorem dispatch_serves (surroundings : Surroundings) (application : Application)
    (http : HttpRequest) (path : String) (query : List (String × String)) (table : List Route)
    (allowed : Bool) :
    (dispatch surroundings application http path query table allowed).2 = application ∨
      ∃ endpoint request, (dispatch surroundings application http path query table allowed).2 =
        (serve surroundings application endpoint request).2 := by
  induction table generalizing allowed with
  | nil =>
      cases allowed with
      | true => exact Or.inl rfl
      | false => exact Or.inl rfl
  | cons route rest ih =>
      rw [dispatch]
      split
      · exact ih allowed
      · split
        · exact ih true
        · cases accept surroundings application route http _ query with
          | error e => exact Or.inl rfl
          | ok request => exact Or.inr ⟨route.handler, request, rfl⟩

theorem handle_serves (surroundings : Surroundings) (application : Application)
    (http : HttpRequest) :
    (handle surroundings application http).2 = application ∨
      ∃ endpoint request, (handle surroundings application http).2 =
        (serve surroundings application endpoint request).2 := by
  have routed : (handle surroundings application http).2 =
      (route surroundings application http).2 := by
    unfold handle
    cases route surroundings application http with
    | mk result after =>
        cases result with
        | ok response => rfl
        | error e =>
            cases e with
            | api error => rfl
            | raised e => rfl
  rw [routed, route]
  dsimp only
  generalize (do
    let url ← (surroundings.urlsplit http.path).mapError AnswerError.raised
    let query ← (surroundings.parseQs url.2).mapError AnswerError.raised
    return (routePath url.1, query)) = target
  cases target with
  | error e => exact Or.inl rfl
  | ok target => exact dispatch_serves surroundings application http target.1 target.2 routes false

/-! ## What each event may name -/

/-- An accepted `PATCH` with this name, for a document its caller sees. -/
def PatchesName (application : Application) (request : Request) (name : String) : Prop :=
  ∃ principal tenantId documentId text,
    request.caller = .ok principal ∧ request.tenant = .ok tenantId ∧
    request.named "document_id" = .ok documentId ∧
    (request.has "allowed_groups" = true →
      ∃ groups, normalizeGroups (request.get "allowed_groups") = .ok groups) ∧
    request.get "filename" = .string text ∧ nonblank text = true ∧ name = strip text ∧
    (application.memory.getDocument tenantId documentId
      (sortedGroups principal.groups)).isSome = true

/-- A job that finds its document unchanged, under another name. -/
def RenamesUnchanged (surroundings : Surroundings) (application : Application)
    (job : DocumentJob) : Prop :=
  ∃ data sourceModifiedAt row, job.payload.contentBase64 = some data ∧
    surroundings.modifiedAt job.modified = .ok sourceModifiedAt ∧
    application.memory.upToDate surroundings.services.hash { job.payload with sourceModifiedAt }
      data = some row ∧
    job.payload.filename ≠ row.source

/-- What an accepted `PATCH` sends. -/
structure Patches (request : Request) (principal : Principal) (tenantId documentId : String)
    (displayName : Option String) : Prop where
  caller : request.caller = .ok principal
  tenant : request.tenant = .ok tenantId
  named : request.named "document_id" = .ok documentId
  groups : request.has "allowed_groups" = true →
    ∃ groups, normalizeGroups (request.get "allowed_groups") = .ok groups
  filename : ∀ name, displayName = some name →
    ∃ text, request.get "filename" = .string text ∧ nonblank text = true ∧ name = strip text

/-- A `PATCH` is refused, or handed to the store. -/
theorem updateDocument_cases (surroundings : Surroundings) (application : Application)
    (request : Request) :
    (updateDocument surroundings application request).2 = application ∨
      ∃ principal tenantId documentId allowedGroups displayName,
        Patches request principal tenantId documentId displayName ∧
        (updateDocument surroundings application request).2 = { application with
          memory := (application.memory.updateDocument tenantId documentId
            (sortedGroups principal.groups) allowedGroups displayName (surroundings.now 0)).2 } := by
  unfold updateDocument
  extract_lets changes
  cases read : changes with
  | error e => exact Or.inl rfl
  | ok sent =>
      obtain ⟨principal, tenantId, allowedGroups, displayName⟩ := sent
      dsimp only [attempt]
      cases named : request.named "document_id" with
      | error e => exact Or.inl rfl
      | ok documentId =>
          refine Or.inr ⟨principal, tenantId, documentId, allowedGroups, displayName, ?_, rfl⟩
          unfold changes at read
          obtain ⟨caller, isCaller, read⟩ := Except.bind_ok_iff.mp read
          obtain ⟨tenant, isTenant, read⟩ := Except.bind_ok_iff.mp read
          extract_lets withGroups at read
          have fromGroups : ∀ groups,
              withGroups groups = .ok (principal, tenantId, allowedGroups, displayName) →
              caller = principal ∧ tenant = tenantId ∧ ∀ name, displayName = some name →
                ∃ text, request.get "filename" = .string text ∧ nonblank text = true ∧
                  name = strip text := by
            intro groups read
            unfold withGroups at read
            extract_lets withName at read
            have fromName : ∀ sent,
                withName sent = .ok (principal, tenantId, allowedGroups, displayName) →
                caller = principal ∧ tenant = tenantId ∧ sent = displayName := by
              intro sent read
              dsimp only [withName] at read
              split at read
              · cases read
              · cases read
                exact ⟨rfl, rfl, rfl⟩
            split at read
            · obtain ⟨sameCaller, sameTenant, rfl⟩ := fromName none read
              refine ⟨sameCaller, sameTenant, fun name wrong => ?_⟩
              cases wrong
            · rename_i text isText
              split at read
              · rename_i isNamed
                obtain ⟨sameCaller, sameTenant, rfl⟩ := fromName _ read
                exact ⟨sameCaller, sameTenant, fun name same =>
                  ⟨text, isText, isNamed, (Option.some.inj same).symm⟩⟩
              · cases read
            · cases read
          split at read
          · obtain ⟨groups, normal, read⟩ := Except.bind_ok_iff.mp read
            obtain ⟨rfl, rfl, filename⟩ := fromGroups groups read
            refine ⟨isCaller, isTenant, named, fun _ => ?_, filename⟩
            have normalized := Except.mapError_eq_ok.mp normal
            cases given : normalizeGroups (request.get "allowed_groups") with
            | error e =>
                rw [given] at normalized
                cases normalized
            | ok groups => exact ⟨groups, rfl⟩
          · rename_i sendsNone
            obtain ⟨rfl, rfl, filename⟩ := fromGroups none read
            exact ⟨isCaller, isTenant, named, fun sends => absurd sends sendsNone, filename⟩

theorem updateDocument_names (surroundings : Surroundings) (application : Application)
    (request : Request) :
    ∀ name ∈ (updateDocument surroundings application request).2.memory.names,
      name ∈ application.memory.names ∨ PatchesName application request name := by
  intro name member
  rcases updateDocument_cases surroundings application request with
    same | ⟨principal, tenantId, documentId, allowedGroups, displayName, patches, same⟩
  · rw [same] at member
    exact Or.inl member
  · rw [same] at member
    rcases InMemoryStore.names_updateDocument _ _ _ _ _ _ _ name member with old | ⟨new, shown⟩
    · exact Or.inl old
    · obtain ⟨text, isText, isNamed, stripped⟩ := patches.filename name new
      exact Or.inr ⟨principal, tenantId, documentId, text, patches.caller, patches.tenant,
        patches.named, patches.groups, isText, isNamed, stripped, shown⟩

theorem ingestJob_names (surroundings : Surroundings) (application : Application)
    (job : DocumentJob) :
    ∀ name ∈ (ingestJob surroundings application job).2.memory.names,
      name ∈ application.memory.names ∨ CleanName name ∨
        (name = job.payload.filename ∧ RenamesUnchanged surroundings application job) := by
  intro name member
  unfold ingestJob at member
  split at member
  · exact Or.inl member
  · rename_i sourceModifiedAt isRead
    dsimp only at member
    cases content : job.payload.contentBase64 with
    | none =>
        have nothing : (application.memory.ingest surroundings.services surroundings.uuid4
            (surroundings.now 0) (fun n => surroundings.now (n + 1))
            { job.payload with sourceModifiedAt }).2 = application.memory := by
          simp only [InMemoryStore.ingest, ingestDocument, content, Program.run]
        rw [nothing] at member
        exact Or.inl member
    | some data =>
        have readContent : ({ job.payload with sourceModifiedAt } : JobPayload).contentBase64 =
            some data := content
        rw [InMemoryStore.ingest_eq _ _ _ _ _ readContent] at member
        split at member
        · rename_i row upToDate
          rcases InMemoryStore.names_refreshed _ _ _ _ name member with old | ⟨new, renamed⟩
          · exact Or.inl old
          · exact Or.inr (Or.inr ⟨new, data, sourceModifiedAt, row, content, isRead, upToDate,
              renamed⟩)
        · split at member
          · exact Or.inl member
          · rename_i call prepared
            split at member
            · exact Or.inl member
            · rename_i stored after success
              rcases InMemoryStore.names_persistCall (prepare_prepares prepared).nonempty success
                name member with old | rfl
              · exact Or.inl old
              · exact Or.inr (Or.inl (prepare_clean prepared))

end Application

/-! ## Every state -/

/-- The two ways of naming a document that do not check the name are given a printable one. -/
def NamesCleanly (application : Application) : ServerEvent → Prop
  | .request _ .updateDocument request =>
    ∀ name, Application.PatchesName application request name → Printable name
  | .request surroundings .createDocument request =>
    ∀ job, documentJob surroundings request = .ok job →
      Application.RenamesUnchanged surroundings application job → Printable job.payload.filename
  | .job surroundings _ _ =>
    ∀ jobId job rest, application.worker.queue = (jobId, job) :: rest →
      Application.RenamesUnchanged surroundings application job → Printable job.payload.filename
  | _ => True

/-- The stored names are clean, and the waiting jobs hold names that `strip` leaves alone. -/
structure Application.WellNamed (application : Application) : Prop where
  stored : ∀ name ∈ application.memory.names, CleanName name
  waiting : ∀ entry ∈ application.worker.queue, Trimmed entry.2.payload.filename

namespace Application

theorem DocumentJob.trimmed {surroundings : Surroundings} {request : Request} {job : DocumentJob}
    (read : documentJob surroundings request = .ok job) : Trimmed job.payload.filename := by
  have validated := (documentJob_accepted read).validated
  exact ⟨validated.filename_ne, validated.filename_trimmed⟩

theorem ingestJob_worker (surroundings : Surroundings) (application : Application)
    (job : DocumentJob) :
    (ingestJob surroundings application job).2.worker = application.worker := by
  unfold ingestJob
  split
  · rfl
  · rfl

theorem WellNamed.ingested {surroundings : Surroundings} {application : Application}
    {job : DocumentJob} (named : application.WellNamed) (trimmed : Trimmed job.payload.filename)
    (printable : RenamesUnchanged surroundings application job → Printable job.payload.filename) :
    (ingestJob surroundings application job).2.WellNamed := by
  constructor
  · intro name member
    rcases ingestJob_names surroundings application job name member with
      old | clean | ⟨rfl, renames⟩
    · exact named.stored name old
    · exact clean
    · exact ⟨trimmed, printable renames⟩
  · rw [ingestJob_worker]
    exact named.waiting

theorem WellNamed.created {surroundings : Surroundings} {application : Application}
    {request : Request} (named : application.WellNamed)
    (printable : NamesCleanly application (.request surroundings .createDocument request)) :
    (createDocument surroundings application request).2.WellNamed := by
  unfold createDocument
  cases read : documentJob surroundings request with
  | error e => exact named
  | ok job => exact named.ingested (DocumentJob.trimmed read) (printable job read)

theorem WellNamed.submitted {surroundings : Surroundings} {application : Application}
    {request : Request} (named : application.WellNamed) :
    (submitJob surroundings application request).2.WellNamed := by
  unfold submitJob
  cases read : documentJob surroundings request with
  | error e => exact named
  | ok job =>
      refine ⟨named.stored, fun entry member => ?_⟩
      rcases List.mem_append.mp member with old | new
      · exact named.waiting entry old
      · rw [List.mem_singleton.mp new]
        exact DocumentJob.trimmed read

theorem WellNamed.patched {surroundings : Surroundings} {application : Application}
    {request : Request} (named : application.WellNamed)
    (printable : NamesCleanly application (.request surroundings .updateDocument request)) :
    (updateDocument surroundings application request).2.WellNamed := by
  constructor
  · intro name member
    rcases updateDocument_names surroundings application request name member with old | patches
    · exact named.stored name old
    · refine ⟨?_, printable name patches⟩
      obtain ⟨_, _, _, text, _, _, _, _, _, isNamed, rfl, _⟩ := patches
      exact ⟨nonblank_iff.mp isNamed, strip_strip _⟩
  · rcases updateDocument_cases surroundings application request with
      same | ⟨_, _, _, _, _, _, same⟩
    · rw [same]
      exact named.waiting
    · rw [same]
      exact named.waiting

theorem WellNamed.deleted {application : Application} {request : Request}
    (named : application.WellNamed) : (deleteDocument application request).2.WellNamed := by
  unfold deleteDocument
  cases request.caller with
  | error e => exact named
  | ok principal =>
      cases request.named "document_id" with
      | error e => exact named
      | ok documentId =>
          cases request.tenant with
          | error e => exact named
          | ok tenantId =>
              refine ⟨fun name member => ?_, named.waiting⟩
              exact named.stored name (InMemoryStore.names_deleteDocument _ _ _ _ name member)

/-- Questions leave the documents and the jobs alone. -/
theorem WellNamed.answered {surroundings : Surroundings} {application : Application}
    {request : Request} (named : application.WellNamed) (isChat : Bool) :
    (answerTo surroundings application request isChat).2.WellNamed := by
  unfold answerTo
  cases request.caller with
  | error e => exact named
  | ok principal =>
      dsimp only [attempt]
      split
      · exact ⟨named.stored, named.waiting⟩
      · exact ⟨named.stored, named.waiting⟩
      · exact named

theorem WellNamed.worked {surroundings : Surroundings} {application after : Application}
    {startedAt finishedAt : Time} (named : application.WellNamed)
    (printable : NamesCleanly application (.job surroundings startedAt finishedAt))
    (worked : application.work surroundings startedAt finishedAt = some after) :
    after.WellNamed := by
  unfold work at worked
  split at worked
  · cases worked
  · rename_i jobId job rest queued
    obtain rfl := Option.some.inj worked
    have trimmed := named.waiting (jobId, job) (queued ▸ List.mem_cons_self)
    have later : ∀ entry ∈ rest, Trimmed entry.2.payload.filename := fun entry member =>
      named.waiting entry (queued ▸ List.mem_cons_of_mem _ member)
    have ingested : ∀ jobs, (ingestJob surroundings
        { application with worker := { queue := rest, jobs } } job).2.WellNamed := by
      intro jobs
      refine WellNamed.ingested ⟨named.stored, later⟩ trimmed ?_
      exact printable jobId job rest queued
    exact ⟨(ingested _).stored, later⟩

theorem WellNamed.step {configured application after : Application} {event : ServerEvent}
    (named : application.WellNamed) (printable : NamesCleanly application event)
    (taken : (server configured).step application event = some after) : after.WellNamed := by
  cases event with
  | job surroundings startedAt finishedAt => exact named.worked printable taken
  | request surroundings endpoint request =>
      obtain rfl := Option.some.inj taken
      cases endpoint with
      | createDocument => exact named.created printable
      | updateDocument => exact named.patched printable
      | deleteDocument => exact named.deleted
      | submitJob => exact named.submitted
      | query => exact named.answered false
      | chat => exact named.answered true
      | _ => exact named

theorem WellNamed.reached {configured state : Application}
    (reached : (server configured).Reachable NamesCleanly state) : state.WellNamed := by
  refine reached.invariant WellNamed ⟨fun name member => ?_, fun entry member => ?_⟩ ?_
  · cases member
  · cases member
  · exact fun application event after named printable taken => named.step printable taken

end Application

/-! ## Citations -/

/-- What a caller reads is shown under a stored name. -/
theorem InMemoryStore.readableChunks_names {store : InMemoryStore} {principal : Principal}
    {chunks : List Chunk} (read : store.readableChunks principal = .ok chunks) :
    ∀ chunk ∈ chunks, chunk.source ∈ store.names := by
  intro chunk member
  unfold readableChunks at read
  dsimp only at read
  cases mapped : (store.documents.entries.filter fun entry =>
      entry.1.1 == principal.tenantId && entry.2.isReady &&
        canReadGroups entry.2.allowedGroups principal).mapM store.chunksOf with
  | error e =>
      rw [mapped] at read
      cases read
  | ok parts =>
  rw [mapped] at read
  obtain rfl := Except.ok.inj read
  obtain ⟨part, inParts, inPart⟩ := List.mem_flatten.mp member
  obtain ⟨entry, readable, isPart⟩ := Except.of_mem_mapM mapped inParts
  unfold chunksOf at isPart
  split at isPart
  · cases isPart
  · obtain rfl := Except.ok.inj isPart
    obtain ⟨original, _, rfl⟩ := List.mem_map.mp inPart
    have shown : (renamed original entry.2.source).source = entry.2.source := by
      unfold renamed
      split
      · assumption
      · rfl
    rw [shown]
    exact mem_names.mpr ⟨entry.1, entry.2, (List.mem_filter.mp readable).1, rfl⟩

namespace Application

/-- A conversation that ends with a response retrieves from the store. -/
theorem converse_retrieves {surroundings : Surroundings} {application : Application}
    {program : AnswerDialogue Answered} {history : ChatHistoryStore}
    {past : List (Exchange AnswerReply)} {response : AnswerResponse}
    (ended : (converse surroundings application history past program).1 = .ok response) :
    ∃ log, program.Trace log (.ok response) ∧
      RetrievesFrom surroundings.score application.gates application.memory log := by
  induction program generalizing history past with
  | done result =>
      have isResult : result = .ok response := ended
      rw [isResult]
      exact ⟨[], .done _, fun _ _ _ wrong => by cases wrong⟩
  | ask question next ih =>
      rw [converse] at ended
      cases reply : replyTo surroundings application history past question with
      | mk answer after =>
          rw [reply] at ended
          cases answer with
          | error e => cases ended
          | ok answer =>
              obtain ⟨log, trace, retrieves⟩ := ih answer ended
              refine ⟨⟨question, answer⟩ :: log, .ask trace, ?_⟩
              intro principal query told member
              rcases List.mem_cons.mp member with same | later
              · cases same
                exact (Except.ok.inj (congrArg Prod.fst reply)).symm
              · exact retrieves principal query told later

/-- A citation shows a chunk that its principal reads. -/
theorem trace_cited {score : String → String → ℚ} {gates : Gates} {store : InMemoryStore}
    {request : AnswerRequest} {isChat : Bool} {log : List (Exchange AnswerReply)}
    {response : AnswerResponse} (trace : (answer request isChat).Trace log (.ok response))
    (retrieves : RetrievesFrom score gates store log) {citation : Citation}
    (member : citation ∈ response.citations) : citation.source ∈ store.names := by
  cases read : store.readableChunks request.principal with
  | ok chunks =>
      obtain ⟨chunk, inChunks, shows⟩ :=
        (answer_confined read trace retrieves).citations response rfl citation member
      rw [shows.source]
      exact InMemoryStore.readableChunks_names read chunk inChunks
  | error e =>
      cases answer_run trace with
      | retrieved user asked question searchQuery session prior before rest evidence _ brought
          isText valid prepared run =>
          have found := retrieves request.principal searchQuery (.ok evidence) (by simp)
          rw [retrieveMemory, read] at found
          cases found

/-- `/v1/query` and `/v1/chat` cite the stored documents under their names. -/
theorem answered_names {surroundings : Surroundings} {application : Application}
    {request : Request} {isChat : Bool} {status : Nat} {response : AnswerResponse}
    (answered : (answerTo surroundings application request isChat).1 =
      .ok (status, .answered response)) :
    ∀ citation ∈ response.citations, citation.source ∈ application.memory.names := by
  intro citation member
  unfold answerTo at answered
  cases caller : request.caller with
  | error e =>
      rw [caller] at answered
      cases answered
  | ok principal =>
      rw [caller] at answered
      dsimp only [attempt] at answered
      have ended : ∀ asked userProvider,
          (answerWith surroundings application asked isChat userProvider).1 =
            .ok (status, .answered response) →
          citation.source ∈ application.memory.names := by
        intro asked userProvider answered
        unfold answerWith at answered
        dsimp only at answered
        cases conversation : (converse surroundings application application.history []
            (answer { asked with userProvider } isChat)).1 with
        | error e =>
            rw [conversation] at answered
            cases answered
        | ok given =>
            rw [conversation] at answered
            cases answered
            obtain ⟨log, trace, retrieves⟩ := converse_retrieves conversation
            exact trace_cited trace retrieves member
      split at answered
      · exact ended _ _ answered
      · exact ended _ _ answered
      · cases answered

end Application

/-- As long as nobody names a document by one of the two unchecked ways with control characters,
every stored name is clean, and every source that a response cites. -/
theorem display_names_clean {configured state : Application}
    (reached : (server configured).Reachable NamesCleanly state) :
    (∀ name ∈ state.memory.names, CleanName name) ∧
      ∀ surroundings request isChat status response,
        (state.answerTo surroundings request isChat).1 = .ok (status, .answered response) →
        ∀ citation ∈ response.citations, CleanName citation.source := by
  have named := Application.WellNamed.reached reached
  refine ⟨named.stored, ?_⟩
  intro surroundings request isChat status response answered citation member
  exact named.stored _ (Application.answered_names answered citation member)

/-- A parser that reads one line of every file. -/
def oneLineServer : Surroundings := { Application.unreadable with services := oneLine }

/-- An upload of this line to one document, under a name. -/
def namedUpload (filename : String) : Request where
  payload := [("filename", .string filename), ("content", .string "x"), ("source_id", .string "s")]
  principal := some { tenantId := "t", userId := "u" }

/-- The document is uploaded again, unchanged, under a name with a control character. -/
def renamedUpload : List ServerEvent :=
  [.request oneLineServer .createDocument (namedUpload "a.txt"),
    .request oneLineServer .createDocument (namedUpload "a\x07.txt")]

/-- The upload takes over the name, and nobody looks at its characters. -/
theorem unchanged_upload_renames : ¬ ∀ (configured state : Application) (events : List ServerEvent),
    (server configured).exec (server configured).start events = some state →
    ∀ name ∈ state.memory.names, CleanName name := by
  intro claimed
  have named : ((server Application.emptyApplication).exec
      (server Application.emptyApplication).start renamedUpload).map (·.memory.names) =
      some ["a\x07.txt"] := by
    decide +kernel
  obtain ⟨state, ran, names⟩ := Option.map_eq_some_iff.mp named
  have clean := claimed _ state renamedUpload ran "a\x07.txt" (names ▸ List.mem_singleton_self _)
  have control := clean.printable
  revert control
  decide

/-- An upload, and a rename that finds nothing to rename. -/
def plainNames : List ServerEvent :=
  [.request oneLineServer .createDocument (namedUpload "a.txt"),
    .request oneLineServer .updateDocument
      { namedUpload "b.txt" with param := some "unknown" }]

theorem plainNames_clean : ∃ state,
    (server Application.emptyApplication).exec (server Application.emptyApplication).start
      plainNames = some state ∧
    ∀ name ∈ state.memory.names, CleanName name := by
  have runs : ((server Application.emptyApplication).exec
      (server Application.emptyApplication).start plainNames).isSome = true := by
    decide +kernel
  obtain ⟨state, ran⟩ := Option.isSome_iff_exists.mp runs
  have meets : (server Application.emptyApplication).Meets NamesCleanly
      (server Application.emptyApplication).start plainNames := by
    refine ⟨fun job read _ => ?_, ?_⟩
    · obtain ⟨text, isText, same⟩ := (documentJob_accepted read).filename
      cases isText
      rw [same]
      decide +kernel
    · refine ⟨fun name patches => ?_, trivial⟩
      obtain ⟨_, _, _, text, _, _, _, _, isText, _, rfl, _⟩ := patches
      cases isText
      decide +kernel
  exact ⟨state, ran, (display_names_clean ⟨plainNames, ran, meets⟩).1⟩

end ProductionRag
