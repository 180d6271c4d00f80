import ProductionRag.Api.Retrieve
import ProductionRag.Api.StoredRows
import ProductionRag.Api.Tenants
import ProductionRag.Auth

/-!
# What a response shows

Every response is for the principal of the API key that came with the request.  What it shows
of the documents and the jobs is the tenant's own, and of the documents only what the
principal's groups may read.
-/

set_option autoImplicit false

namespace ProductionRag

open Basis

/-- The row is stored under the principal's tenant and its access list lets the principal in. -/
def Document.ShownTo (store : InMemoryStore) (principal : Principal) (row : Document) : Prop :=
  store.documents.find? (principal.tenantId, row.documentId) = some row ∧
    groupsMeet row.allowedGroups principal.groups = true

/-- What a response may show a principal of the application that it leaves. -/
def ResponseBody.ShownTo (application : Application) (principal : Principal) :
    ResponseBody → Prop
  | .status _ | .tried _ | .failedTry _ => True
  | .me shown groups _ _ _ _ => shown = principal ∧ groups = sortedGroups principal.groups
  | .documents rows => ∀ row ∈ rows, row.ShownTo application.memory principal
  | .document row => row.ShownTo application.memory principal
  | .stored result => ∀ documentId ∈ result.superseded,
    ∃ row : Document, row.documentId = documentId ∧ row.ShownTo application.memory principal
  | .updated documentId shown => ∀ row ∈ shown,
    row.documentId = documentId ∧ row.ShownTo application.memory principal
  | .deleted documentId =>
    application.memory.documents.find? (principal.tenantId, documentId) = none
  | .answered response => ∀ citation ∈ response.citations,
    ∃ chunk, application.memory.Permitted principal chunk ∧ citation.Shows chunk
  | .job held => held.tenantId = principal.tenantId

/-- What the handlers rely on of the store. -/
structure InMemoryStore.Sound (store : InMemoryStore) : Prop where
  keys : store.chunks.keys = store.documents.keys
  named : ∀ key row, store.documents.find? key = some row → row.documentId = key.2
  own : store.RowsOwn

theorem InMemoryStore.deleteDocument_gone {store : InMemoryStore} {tenantId documentId : String}
    {groups : List String} (deleted : (store.deleteDocument tenantId documentId groups).1 = true) :
    (store.deleteDocument tenantId documentId groups).2.documents.find? (tenantId, documentId) =
        none ∧
      (store.deleteDocument tenantId documentId groups).2.chunks.find? (tenantId, documentId) =
        none := by
  unfold InMemoryStore.deleteDocument at deleted ⊢
  cases found : store.getDocument tenantId documentId groups with
  | none =>
      rw [found] at deleted
      cases deleted
  | some row =>
      exact ⟨(Table.find?_erase _ _ _).trans (if_pos rfl),
        (Table.find?_erase _ _ _).trans (if_pos rfl)⟩

theorem InMemoryStore.updateDocument_shows {store : InMemoryStore} {tenantId documentId : String}
    {groups : List String} {allowedGroups : Option (List String)} {displayName : Option String}
    {now : Time} {row : Document}
    (shown : (store.updateDocument tenantId documentId groups allowedGroups displayName now).1.2 =
      some row) :
    (store.updateDocument tenantId documentId groups allowedGroups displayName
        now).2.documents.find? (tenantId, documentId) = some row ∧ row.visible groups = true := by
  unfold InMemoryStore.updateDocument at shown ⊢
  cases found : store.documents.find? (tenantId, documentId) with
  | none =>
      rw [found] at shown
      cases shown
  | some held =>
      simp only [found] at shown ⊢
      split at shown
      · rename_i visible
        rw [if_pos visible]
        exact Option.filter_eq_some_iff.mp shown
      · cases shown

/-- What an upload reports as superseded is there, for the uploader to see. -/
theorem InMemoryStore.persistCall_superseded {store after : InMemoryStore} {now : Time}
    {call : PersistCall} {stored : PersistResult} (sound : store.Sound)
    (nonempty : call.result.chunks ≠ [])
    (success : store.persistCall now call = .ok (stored, after)) :
    ∀ documentId ∈ stored.superseded, ∃ row : Document, row.documentId = documentId ∧
      after.documents.find? (call.tenantId, documentId) = some row ∧
        row.visible call.groups = true := by
  rw [persistCall_eq store now call nonempty] at success
  have shows : ∀ documentId ∈ call.request.supersededIds store.documents.versions,
      ∃ row : Document, row.documentId = documentId ∧
        (call.tenantId, documentId) ≠ call.key ∧
        Table.find? (store.documents.mapValues (supersededAt call now))
            (call.tenantId, documentId) = some row ∧ row.visible call.groups = true := by
    intro documentId member
    obtain ⟨version, selected, rfl⟩ := List.mem_map.mp member
    obtain ⟨key, isVersion, supersedes⟩ := Table.mem_select.mp selected
    obtain ⟨row, isRow, rfl⟩ := Table.mem_entries_mapValues.mp isVersion
    obtain ⟨sibling, _⟩ := (Bool.and_eq_true _ _).mp supersedes
    obtain ⟨ofVersion, apart⟩ := Version.siblingOf_iff.mp sibling
    obtain ⟨belongs, visible⟩ := Version.versionOf_iff.mp ofVersion
    obtain ⟨tenant, _⟩ := Version.belongsTo_iff.mp belongs
    have found := Table.find?_eq_some_iff.mpr isRow
    have isKey : (call.tenantId, row.documentId) = key :=
      Prod.ext tenant.symm (sound.named key row found)
    have touched := supersededAt_touched call now key row
    have sameGroups : (supersededAt call now key row).allowedGroups = row.allowedGroups := by
      unfold supersededAt
      split <;> rfl
    refine ⟨supersededAt call now key row, touched.content.documentId_eq, ?_, ?_, ?_⟩
    · intro same
      exact apart (Prod.mk.inj same).2
    · rw [isKey, Table.find?_mapValues, found]
      rfl
    · rw [Version.visible, sameGroups]
      exact visible
  cases existing : store.documents.find? call.key with
  | some row =>
      simp only [existing] at success
      split at success
      · obtain rfl := (Prod.mk.inj (Except.ok.inj success)).1
        intro documentId member
        cases member
      · obtain ⟨rfl, rfl⟩ := Prod.mk.inj (Except.ok.inj success)
        intro documentId member
        obtain ⟨row, isId, other, found, visible⟩ := shows documentId member
        exact ⟨row, isId, (Table.find?_modify_ne _ _ other).trans found, visible⟩
  | none =>
      simp only [existing] at success
      obtain ⟨rfl, rfl⟩ := Prod.mk.inj (Except.ok.inj success)
      intro documentId member
      obtain ⟨row, isId, other, found, visible⟩ := shows documentId member
      exact ⟨row, isId, (Table.find?_set _ _ _ _).trans ((if_neg other).trans found), visible⟩

theorem Request.tenant_eq {request : Request} {principal : Principal} {tenantId : String}
    (known : request.principal = some principal) (isTenant : request.tenant = .ok tenantId) :
    tenantId = principal.tenantId := by
  obtain ⟨caller, isCaller, claimed⟩ := Except.bind_ok_iff.mp isTenant
  have agreed := Except.mapError_eq_ok.mp claimed
  rw [Request.caller, known] at isCaller
  obtain rfl := Except.ok.inj isCaller
  rw [AnswerRequest.tenant] at agreed
  split at agreed
  · exact (Except.ok.inj agreed).symm
  · cases agreed

namespace Application

section Handlers

variable {surroundings : Surroundings} {application : Application} {request : Request}
  {principal : Principal} {status : Nat} {body : ResponseBody} {after : Application}
  (known : request.principal = some principal)

include known

theorem caller_eq {caller : Principal} (isCaller : request.caller = .ok caller) :
    caller = principal := by
  rw [Request.caller, known] at isCaller
  exact (Except.ok.inj isCaller).symm

theorem me_shown (served : me application request = .ok (status, body)) :
    body.ShownTo application principal := by
  obtain ⟨caller, isCaller, served⟩ := Except.bind_ok_iff.mp served
  obtain rfl := caller_eq known isCaller
  obtain rfl := (Prod.mk.inj (Except.ok.inj served)).2
  exact ⟨rfl, rfl⟩

theorem listDocuments_shown (sound : application.memory.Sound)
    (served : listDocuments application request = .ok (status, body)) :
    body.ShownTo application principal := by
  obtain ⟨caller, isCaller, served⟩ := Except.bind_ok_iff.mp served
  obtain rfl := caller_eq known isCaller
  obtain ⟨tenantId, _, served⟩ := Except.bind_ok_iff.mp served
  obtain rfl := (Prod.mk.inj (Except.ok.inj served)).2
  intro row member
  rw [InMemoryStore.listDocuments, List.mem_insertionSort, Table.mem_select] at member
  obtain ⟨key, isRow, selected⟩ := member
  simp only [Bool.and_eq_true, beq_iff_eq] at selected
  obtain ⟨⟨tenant, visible⟩, _⟩ := selected
  have found := Table.find?_eq_some_iff.mpr isRow
  refine ⟨?_, (RetrieveServices.visible_sortedGroups row caller.groups).symm.trans visible⟩
  rwa [← tenant, sound.named key row found]

theorem getDocument_shown (sound : application.memory.Sound)
    (served : getDocument application request = .ok (status, body)) :
    body.ShownTo application principal := by
  obtain ⟨caller, isCaller, served⟩ := Except.bind_ok_iff.mp served
  obtain rfl := caller_eq known isCaller
  obtain ⟨tenantId, _, served⟩ := Except.bind_ok_iff.mp served
  obtain ⟨documentId, _, served⟩ := Except.bind_ok_iff.mp served
  split at served
  · cases served
  · rename_i row isRow
    obtain rfl := (Prod.mk.inj (Except.ok.inj served)).2
    obtain ⟨found, visible⟩ := Option.filter_eq_some_iff.mp isRow
    refine ⟨?_, (RetrieveServices.visible_sortedGroups row caller.groups).symm.trans visible⟩
    rw [sound.named _ row found]
    exact found

theorem getJob_shown (served : getJob application request = .ok (status, body)) :
    body.ShownTo application principal := by
  obtain ⟨tenantId, isTenant, served⟩ := Except.bind_ok_iff.mp served
  obtain ⟨jobId, _, served⟩ := Except.bind_ok_iff.mp served
  split at served
  · cases served
  · rename_i job isJob
    obtain rfl := (Prod.mk.inj (Except.ok.inj served)).2
    obtain ⟨_, own⟩ := Option.filter_eq_some_iff.mp isJob
    have isOwn : job.tenantId = tenantId := of_decide_eq_true own
    exact isOwn.trans (Request.tenant_eq known isTenant)

omit known in
/-- A step that had its value. -/
theorem attempt_ok {α β : Type} {first : Except AnswerError α}
    {next : α → Except AnswerError β × Application} {result : β}
    (done : attempt application first next = (.ok result, after)) :
    ∃ value, first = .ok value ∧ next value = (.ok result, after) := by
  cases first with
  | error e => cases done
  | ok value => exact ⟨value, rfl, done⟩

omit known in
theorem testLlm_shown (served : testLlm surroundings request = .ok (status, body)) :
    body.ShownTo application principal := by
  unfold testLlm at served
  split at served
  · cases served
  · cases served
  · cases served
  · split at served
    · cases served
    · split at served
      · obtain rfl := (Prod.mk.inj (Except.ok.inj served)).2
        trivial
      · obtain rfl := (Prod.mk.inj (Except.ok.inj served)).2
        trivial

theorem deleteDocument_shown
    (served : deleteDocument application request = (.ok (status, body), after)) :
    body.ShownTo after principal := by
  obtain ⟨caller, isCaller, served⟩ := attempt_ok served
  obtain rfl := caller_eq known isCaller
  obtain ⟨documentId, _, served⟩ := attempt_ok served
  obtain ⟨tenantId, isTenant, served⟩ := attempt_ok served
  obtain rfl := Request.tenant_eq known isTenant
  obtain ⟨answer, rfl⟩ := Prod.mk.inj served
  split at answer
  · rename_i deleted
    obtain rfl := (Prod.mk.inj (Except.ok.inj answer)).2
    exact (InMemoryStore.deleteDocument_gone deleted).1
  · cases answer

theorem updateDocument_shown (sound : after.memory.Sound)
    (served : updateDocument surroundings application request = (.ok (status, body), after)) :
    body.ShownTo after principal := by
  rcases updateDocument_sends surroundings application request with
    ⟨e, same⟩ | ⟨patch, isCaller, isTenant, _, same⟩
  · cases (congrArg Prod.fst (served.symm.trans same))
  · obtain ⟨answer, isAfter⟩ := Prod.mk.inj (served.symm.trans same)
    obtain rfl := caller_eq known isCaller
    have own := Request.tenant_eq known isTenant
    split at answer
    · obtain rfl := (Prod.mk.inj (Except.ok.inj answer)).2
      intro row shown
      obtain ⟨found, visible⟩ := InMemoryStore.updateDocument_shows shown
      have stored : after.memory.documents.find? (patch.tenantId, patch.documentId) = some row := by
        rw [isAfter]
        exact found
      have isId : row.documentId = patch.documentId := sound.named _ row stored
      refine ⟨isId, ?_, (RetrieveServices.visible_sortedGroups row _).symm.trans visible⟩
      rw [isId, ← own]
      exact stored
    · cases answer

theorem request_of (trimmed : strip principal.tenantId = principal.tenantId) :
    request.Of principal.tenantId := by
  intro caller isCaller
  obtain rfl := Option.some.inj (known.symm.trans isCaller)
  exact ⟨rfl, trimmed⟩

omit known in
/-- What an upload answers with is there, for the uploader to see. -/
theorem ingestJob_superseded {job : DocumentJob} {stored : JobResult}
    (sound : application.memory.Sound) (validated : job.payload.Validated)
    (ingested : ingestJob surroundings application job = (.ok stored, after)) :
    ∀ documentId ∈ stored.superseded, ∃ row : Document, row.documentId = documentId ∧
      after.memory.documents.find? (strip job.tenantId, documentId) = some row ∧
        row.visible job.payload.groups = true := by
  unfold ingestJob at ingested
  split at ingested
  · cases congrArg Prod.fst ingested
  · rename_i sourceModifiedAt _
    obtain ⟨data, content⟩ := Option.isSome_iff_exists.mp validated.content
    have isContent : ({ job.payload with sourceModifiedAt } : JobPayload).contentBase64 =
        some data := content
    obtain ⟨answer, rfl⟩ := Prod.mk.inj ingested
    rw [InMemoryStore.ingest_eq _ _ _ _ _ isContent] at answer ⊢
    split at answer
    · obtain rfl := Except.ok.inj answer
      intro documentId member
      cases member
    · split at answer
      · cases answer
      · rename_i prepared
        have prepares := prepare_prepares prepared
        split at answer
        · cases answer
        · rename_i success
          obtain rfl := Except.ok.inj answer
          intro documentId member
          obtain ⟨row, isId, found, visible⟩ :=
            InMemoryStore.persistCall_superseded sound prepares.nonempty success documentId member
          have sameTenant := prepares.tenant
          exact ⟨row, isId, sameTenant ▸ found, prepares.groups ▸ visible⟩

theorem createDocument_shown (sound : application.memory.Sound)
    (trimmed : strip principal.tenantId = principal.tenantId)
    (served : createDocument surroundings application request = (.ok (status, body), after)) :
    body.ShownTo after principal := by
  obtain ⟨job, read, served⟩ := attempt_ok served
  have read := Except.mapError_eq_ok.mp read
  obtain ⟨answer, isAfter⟩ := Prod.mk.inj served
  obtain ⟨own, _⟩ := documentJob_of (request_of known trimmed) read
  obtain ⟨_, caller, isCaller, groups⟩ := documentJob_groups read
  obtain rfl := caller_eq known isCaller
  cases ingested : ingestJob surroundings application job with
  | mk result left =>
  rw [ingested] at answer isAfter
  cases result with
  | error e => cases answer
  | ok stored =>
  obtain rfl := (Prod.mk.inj (Except.ok.inj answer)).2
  obtain rfl := isAfter
  intro documentId member
  obtain ⟨row, isId, found, visible⟩ := ingestJob_superseded sound
    (documentJob_accepted read).validated ingested documentId member
  rw [own, trimmed] at found
  rw [groups] at visible
  refine ⟨row, isId, isId ▸ found, ?_⟩
  exact (RetrieveServices.visible_sortedGroups row caller.groups).symm.trans visible

theorem submitJob_shown (trimmed : strip principal.tenantId = principal.tenantId)
    (served : submitJob surroundings application request = (.ok (status, body), after)) :
    body.ShownTo after principal := by
  obtain ⟨job, read, served⟩ := attempt_ok served
  obtain ⟨own, _⟩ := documentJob_of (request_of known trimmed) (Except.mapError_eq_ok.mp read)
  obtain ⟨answer, rfl⟩ := Prod.mk.inj served
  obtain rfl := (Prod.mk.inj (Except.ok.inj answer)).2
  exact own

theorem answerTo_shown (sound : application.memory.Sound) {isChat : Bool}
    (served : answerTo surroundings application request isChat = (.ok (status, body), after)) :
    body.ShownTo after principal := by
  obtain ⟨caller, isCaller, served⟩ := attempt_ok served
  obtain rfl := caller_eq known isCaller
  obtain ⟨chunks, readable, exactly, _⟩ :=
    InMemoryStore.readableChunks_spec sound.keys sound.own caller
  have answers : ∀ asked : AnswerRequest, asked.principal = caller → ∀ userProvider,
      answerWith surroundings application asked isChat userProvider =
        (.ok (status, body), after) → body.ShownTo after caller := by
    rintro asked rfl userProvider served
    obtain ⟨given, isAfter⟩ := Prod.mk.inj served
    cases conversation : (converse surroundings application application.history []
        (answer { asked with userProvider } isChat)).1 with
    | error e =>
        rw [conversation] at given
        cases given
    | ok response =>
        rw [conversation] at given
        obtain rfl := (Prod.mk.inj (Except.ok.inj given)).2
        obtain ⟨log, trace, retrieves⟩ := converse_retrieves conversation
        intro citation member
        have confined := @answer_confined _ _ _ { asked with userProvider } _ _ _ _ readable
          trace retrieves
        obtain ⟨chunk, isChunk, shows⟩ := confined.citations response rfl citation member
        rw [← isAfter]
        exact ⟨chunk, (exactly chunk).mp isChunk, shows⟩
  split at served
  · exact answers _ rfl _ served
  · exact answers _ rfl _ served
  · cases congrArg Prod.fst served

theorem serve_shown {endpoint : Endpoint} (before : application.memory.Sound)
    (sound : after.memory.Sound) (trimmed : strip principal.tenantId = principal.tenantId)
    (served : serve surroundings application endpoint request = (.ok (status, body), after)) :
    body.ShownTo after principal := by
  cases endpoint with
  | live =>
      obtain rfl := (Prod.mk.inj (Except.ok.inj (Prod.mk.inj served).1)).2
      trivial
  | ready =>
      obtain rfl := (Prod.mk.inj (Except.ok.inj (Prod.mk.inj served).1)).2
      trivial
  | me =>
      obtain ⟨answer, rfl⟩ := Prod.mk.inj served
      exact me_shown known answer
  | testLlm =>
      obtain ⟨answer, rfl⟩ := Prod.mk.inj served
      exact testLlm_shown answer
  | listDocuments =>
      obtain ⟨answer, rfl⟩ := Prod.mk.inj served
      exact listDocuments_shown known before answer
  | createDocument => exact createDocument_shown known before trimmed served
  | getDocument =>
      obtain ⟨answer, rfl⟩ := Prod.mk.inj served
      exact getDocument_shown known before answer
  | deleteDocument => exact deleteDocument_shown known served
  | updateDocument => exact updateDocument_shown known sound served
  | query => exact answerTo_shown known before served
  | chat => exact answerTo_shown known before served
  | submitJob => exact submitJob_shown known trimmed served
  | getJob =>
      obtain ⟨answer, rfl⟩ := Prod.mk.inj served
      exact getJob_shown known answer

end Handlers

/-! ## From the key to the response -/

/-- Without a key only the health checks are open. -/
theorem open_routes : ∀ route ∈ routes, route.requiresAuth = false →
    route.handler = .live ∨ route.handler = .ready := by
  decide

/-- A response comes from the handler of a route that accepted the request. -/
theorem dispatch_served {surroundings : Surroundings} {application after : Application}
    {http : HttpRequest} {path : String} {query : List (String × String)} {table : List Route}
    {allowed : Bool} {result : Nat × ResponseBody}
    (done : dispatch surroundings application http path query table allowed = (.ok result, after)) :
    ∃ route ∈ table, ∃ param request,
      accept surroundings application route http param query = .ok request ∧
        serve surroundings application route.handler request = (.ok result, after) := by
  induction table generalizing allowed with
  | nil =>
      cases allowed with
      | true => cases congrArg Prod.fst done
      | false => cases congrArg Prod.fst done
  | cons route rest ih =>
      have later : ∀ allowed,
          dispatch surroundings application http path query rest allowed = (.ok result, after) →
          ∃ route' ∈ route :: rest, ∃ param request,
            accept surroundings application route' http param query = .ok request ∧
              serve surroundings application route'.handler request = (.ok result, after) := by
        intro allowed done
        obtain ⟨route', member, found⟩ := ih done
        exact ⟨route', List.mem_cons_of_mem _ member, found⟩
      rw [dispatch] at done
      split at done
      · exact later allowed done
      · split at done
        · exact later true done
        · obtain ⟨request, accepted, served⟩ := attempt_ok done
          exact ⟨route, List.mem_cons_self, _, request, accepted, served⟩

theorem handle_served {surroundings : Surroundings} {application after : Application}
    {http : HttpRequest} {response : Response}
    (handled : handle surroundings application http = (.ok response, after)) :
    ∃ route ∈ routes, ∃ param query request,
      accept surroundings application route http param query = .ok request ∧
        serve surroundings application route.handler request =
          (.ok (response.status, response.body), after) := by
  unfold handle at handled
  cases routed : route surroundings application http with
  | mk result left =>
      rw [routed] at handled
      cases result with
      | error e =>
          cases e with
          | api error => cases congrArg Prod.fst handled
          | raised e => cases congrArg Prod.fst handled
      | ok answer =>
          obtain ⟨isResponse, rfl⟩ := Prod.mk.inj handled
          obtain rfl := Except.ok.inj isResponse
          obtain ⟨target, _, dispatched⟩ := attempt_ok routed
          obtain ⟨route, member, param, request, accepted, served⟩ := dispatch_served dispatched
          exact ⟨route, member, param, target.2, request, accepted, served⟩

end Application

theorem InMemoryStore.sound_of_server {hash : Sha256} {configured state : Application}
    (reached : (server configured).Reachable (fun _ event => event.Hashes hash) state) :
    state.memory.Sound := by
  have store := server_store_reachable reached
  refine ⟨store.keys_eq, fun key row found => ?_,
    (store.mono fun _ checked => checked.ingested).rowsOwn⟩
  obtain ⟨chunks, _, well⟩ := server_wellStored reached key row found
  exact well.identified.documentId_eq

/-- In every state of the server, a response is that of a health check, or the request came with
a configured key and the response shows what the principal of this key may see. -/
theorem responses_confined {hash : Sha256} {configured state after : Application}
    (reached : (server configured).Reachable (fun _ event => event.Hashes hash) state)
    {surroundings : Surroundings} (hashes : surroundings.services.hash = hash) {entries : Json}
    {keys : ApiKeyStore} (accepted : ApiKeyStore.fromEntries surroundings entries = .ok keys)
    (uses : ∀ key, surroundings.authenticate key = keys.authenticate surroundings key)
    {http : HttpRequest} {response : Response}
    (handled : Application.handle surroundings state http = (.ok response, after)) :
    (∃ text, response.body = .status text) ∨
      ∃ principal ∈ keys.callers,
        keys.authenticate surroundings (surroundings.header http "x-api-key") =
            .ok (some principal) ∧
          response.body.ShownTo after principal := by
  obtain ⟨route, member, param, query, request, isAccepted, served⟩ :=
    Application.handle_served handled
  have caller := Application.accept_principal surroundings state isAccepted
  by_cases requiresAuth : route.requiresAuth = true
  · rw [if_pos requiresAuth] at caller
    obtain ⟨principal, known, authenticated⟩ := caller
    rw [uses] at authenticated
    have isCaller := ApiKeyStore.authenticate_mem authenticated
    obtain ⟨⟨digest, _⟩, isEntry, rfl⟩ := List.mem_map.mp isCaller
    have named := (ApiKeyStore.fromEntries_configured accepted _ _ isEntry).2.2
    have left : (server configured).exec state [.request surroundings route.handler request] =
        some after :=
      System.exec_cons.mpr ⟨after, congrArg some (congrArg Prod.snd served), rfl⟩
    have afterwards := reached.later left ⟨hashes, trivial⟩
    exact Or.inr ⟨_, isCaller, authenticated, Application.serve_shown known
      (InMemoryStore.sound_of_server reached) (InMemoryStore.sound_of_server afterwards)
      named.tenant.2 served⟩
  · left
    rcases Application.open_routes route member (Bool.not_eq_true _ ▸ requiresAuth) with
      isLive | isReady
    · rw [isLive] at served
      exact ⟨"ok", (Prod.mk.inj (Except.ok.inj (congrArg Prod.fst served))).2.symm⟩
    · rw [isReady] at served
      exact ⟨"ready", (Prod.mk.inj (Except.ok.inj (congrArg Prod.fst served))).2.symm⟩

/-- One key of 32 characters, of a member of the group "z". -/
def oneKey : Json :=
  .array [.object [
    ("key_sha256", .string (String.ofList (List.replicate 32 ['b', '6']).flatten)),
    ("tenant_id", .string "t"), ("user_id", .string "u"),
    ("groups", .array [.string "z"])]]

def keyedServer (keys : ApiKeyStore) : Surroundings :=
  { oneLineServer with authenticate := keys.authenticate oneLineServer }

def listRequest : HttpRequest where
  method := "GET"
  path := "/v1/documents"
  headers := [("X-API-Key", String.ofList (List.replicate 32 'k'))]
  body := []

/-- The member lists the documents after one got an access list with the group, the other one
without. -/
theorem listRequest_confined : ∃ keys state response after,
    ApiKeyStore.fromEntries oneLineServer oneKey = .ok keys ∧
      Application.handle (keyedServer keys) state listRequest = (.ok response, after) ∧
      response.status = 200 ∧
      ((∃ text, response.body = .status text) ∨
        ∃ principal ∈ keys.callers,
          keys.authenticate (keyedServer keys)
              ((keyedServer keys).header listRequest "x-api-key") = .ok (some principal) ∧
            response.body.ShownTo after principal) := by
  have runs : (((server Application.emptyApplication).exec
      (server Application.emptyApplication).start mixedRun).bind fun state =>
        (ApiKeyStore.fromEntries oneLineServer oneKey).toOption.bind fun keys =>
          (Application.handle (keyedServer keys) state listRequest).1.toOption.map (·.status)) =
      some 200 := by
    decide +kernel
  obtain ⟨state, ran, runs⟩ := Option.bind_eq_some_iff.mp runs
  obtain ⟨keys, isKeys, runs⟩ := Option.bind_eq_some_iff.mp runs
  obtain ⟨response, isResponse, status⟩ := Option.map_eq_some_iff.mp runs
  have accepted : ApiKeyStore.fromEntries oneLineServer oneKey = .ok keys := by
    cases entries : ApiKeyStore.fromEntries oneLineServer oneKey with
    | error e =>
        rw [entries] at isKeys
        cases isKeys
    | ok given =>
        rw [entries] at isKeys
        exact congrArg Except.ok (Option.some.inj isKeys)
  have handled : Application.handle (keyedServer keys) state listRequest =
      (.ok response, (Application.handle (keyedServer keys) state listRequest).2) := by
    cases outcome : Application.handle (keyedServer keys) state listRequest with
    | mk result after =>
        rw [outcome] at isResponse
        cases result with
        | error e => cases isResponse
        | ok given => rw [Option.some.inj isResponse]
  have reached : (server Application.emptyApplication).Reachable
      (fun _ event => event.Hashes oneLine.hash) state := ⟨mixedRun, ran, mixedRun_hashes⟩
  have given : ApiKeyStore.fromEntries (keyedServer keys) oneKey = .ok keys := accepted
  exact ⟨keys, state, response, _, accepted, handled, status,
    @responses_confined _ _ _ _ reached (keyedServer keys) rfl _ _ given (fun _ => rfl) _ _
      handled⟩

end ProductionRag
