import ProductionRag.Api.Failures
import ProductionRag.Api.Markers

/-!
# The same requests over both stores

The handlers of documents call the methods of `self.store` and do not ask which store it is.  Each
of them is a program over the store; the memory mode runs it over the in-memory store, the
deployed server over PostgreSQL.  Where the stores answer the calls of a program alike, the
handlers answer the request alike.
-/

set_option autoImplicit false

namespace ProductionRag

open Basis

/-! ## Handlers as programs -/

inductive DocumentEndpoint where
  | listDocuments
  | createDocument
  | getDocument
  | deleteDocument
  | updateDocument
  deriving DecidableEq

def DocumentEndpoint.endpoint : DocumentEndpoint → Endpoint
  | .listDocuments => .listDocuments
  | .createDocument => .createDocument
  | .getDocument => .getDocument
  | .deleteDocument => .deleteDocument
  | .updateDocument => .updateDocument

abbrev DocumentProgram := StoreProgram Handled

def StoreReply.deleted? : StoreReply → Option Bool
  | .deleted found => some found
  | _ => none

def StoreReply.document? : StoreReply → Option (Option Document)
  | .document row => some row
  | _ => none

def StoreReply.documents? : StoreReply → Option (List Document)
  | .documents rows => some rows
  | _ => none

/-- Go on with a value, unless it could not be had. -/
def givenThat {α : Type} (first : Except AnswerError α) (next : α → DocumentProgram) :
    DocumentProgram :=
  match first with
  | .error e => .done (.error e)
  | .ok value => next value

/-- Respond to the answer of one store method. -/
def respondTo {β : Type} (call : StoreCall) (expect : StoreReply → Option β)
    (respond : β → Handled) : DocumentProgram :=
  (storeCall call expect fun value => .done (.ok value)).map fun reply =>
    reply.mapError AnswerError.raised >>= respond

/-- What `_update_document` is asked to change. -/
def Request.changes (request : Request) :
    Except AnswerError (Principal × String × Option (List String) × Option String) := do
  let principal ← request.caller
  let tenantId ← request.tenant
  let allowedGroups ←
    if request.has "allowed_groups" then
      ((normalizeGroups (request.get "allowed_groups")).map some).mapError fun e =>
        (AnswerError.raised e).unprocessable
    else .ok none
  let displayName ←
    match request.get "filename" with
    | .null => .ok none
    | .string name =>
      if nonblank name then .ok (some (strip name))
      else AnswerError.refuse 422 "filename must be a non-empty string"
    | _ => AnswerError.refuse 422 "filename must be a non-empty string"
  if allowedGroups = none ∧ displayName = none then
    AnswerError.refuse 422 "send allowed_groups and/or filename to change"
  else .ok (principal, tenantId, allowedGroups, displayName)

section Programs

variable (surroundings : Surroundings) (request : Request)

def answerUpload (out : Except PyError JobResult) : Handled :=
  (out.mapError fun e => (AnswerError.raised e).unprocessable).map fun stored =>
    (if stored.alreadyExisted then 200 else 201, .stored stored)

/-- `_create_document` -/
def createDocumentProgram : DocumentProgram :=
  givenThat ((documentJob surroundings request).mapError .unprocessable) fun job =>
    match surroundings.modifiedAt job.modified with
    | .error e => .done (answerUpload (.error e))
    | .ok sourceModifiedAt =>
      (ingestDocument surroundings.services surroundings.uuid4 (surroundings.now 0)
        { job.payload with sourceModifiedAt }).map answerUpload

/-- `_update_document` -/
def updateDocumentProgram : DocumentProgram :=
  givenThat request.changes fun (principal, tenantId, allowedGroups, displayName) =>
  givenThat (request.named "document_id") fun documentId =>
    respondTo (.updateDocument tenantId documentId (sortedGroups principal.groups) allowedGroups
      displayName) StoreReply.updated? fun out =>
      if out.1 then .ok (200, .updated documentId out.2)
      else AnswerError.refuse 404 "document not found"

/-- `_list_documents` -/
def listDocumentsProgram : DocumentProgram :=
  givenThat request.caller fun principal =>
  givenThat request.tenant fun _ =>
    let includeSuperseded :=
      (request.query.find? fun field => field.1 = "include_superseded").any fun field =>
        field.2 = "true"
    respondTo (.listDocuments principal.tenantId (sortedGroups principal.groups)
      includeSuperseded) StoreReply.documents? fun rows => .ok (200, .documents rows)

/-- `_get_document` -/
def getDocumentProgram : DocumentProgram :=
  givenThat request.caller fun principal =>
  givenThat request.tenant fun _ =>
  givenThat (request.named "document_id") fun documentId =>
    respondTo (.getDocument principal.tenantId documentId (sortedGroups principal.groups))
      StoreReply.document? fun
      | none => AnswerError.refuse 404 "document not found"
      | some row => .ok (200, .document row)

/-- `_delete_document` -/
def deleteDocumentProgram : DocumentProgram :=
  givenThat request.caller fun principal =>
  givenThat (request.named "document_id") fun documentId =>
  givenThat request.tenant fun tenantId =>
    respondTo (.deleteDocument tenantId documentId (sortedGroups principal.groups))
      StoreReply.deleted? fun found =>
      if found then .ok (200, .deleted documentId)
      else AnswerError.refuse 404 "document not found"

def DocumentEndpoint.program : DocumentEndpoint → DocumentProgram
  | .listDocuments => listDocumentsProgram request
  | .createDocument => createDocumentProgram surroundings request
  | .getDocument => getDocumentProgram request
  | .deleteDocument => deleteDocumentProgram request
  | .updateDocument => updateDocumentProgram request

end Programs

/-- A request that reached a handler of documents; the turns are those of its transactions. -/
structure DocumentRequest where
  surroundings : Surroundings
  request : Request
  endpoint : DocumentEndpoint
  turns : Nat → VersionPlan × Nat

namespace DocumentRequest

def program (event : DocumentRequest) : DocumentProgram :=
  event.endpoint.program event.surroundings event.request

/-- The clock of the in-memory store; an upload has read it once before its first call. -/
def clock (event : DocumentRequest) : Nat → Time :=
  match event.endpoint with
  | .createDocument => fun n => event.surroundings.now (n + 1)
  | _ => event.surroundings.now

end DocumentRequest

/-- Requests for documents, with documents in PostgreSQL. -/
def Database.server : Mealy Database DocumentRequest Handled where
  step db event := event.program.run Database.timedCalls event.turns db

section Memory

variable {application : Application} {turns : Nat → Time}

/-- What a program does to the documents of an application. -/
def Application.runs (application : Application) (turns : Nat → Time) (program : DocumentProgram) :
    Handled × Application :=
  let out := program.run InMemoryStore.timedCalls turns application.memory
  (out.1, { application with memory := out.2 })

section Handlers

variable (surroundings : Surroundings) (request : Request)

end Handlers

end Memory

/-! ## Alike answers -/

/-- The same failure, or alike values. -/
inductive AlikeOutcome {ε α : Type} (alike : α → α → Prop) : Except ε α → Except ε α → Prop
  | error (e : ε) : AlikeOutcome alike (.error e) (.error e)
  | ok {left right : α} (same : alike left right) : AlikeOutcome alike (.ok left) (.ok right)

namespace AlikeOutcome

variable {ε δ α β : Type} {alike : α → α → Prop} {left right : Except ε α}

theorem mapError (f : ε → δ) (outcome : AlikeOutcome alike left right) :
    AlikeOutcome alike (left.mapError f) (right.mapError f) := by
  cases outcome with
  | error e => exact .error (f e)
  | ok same => exact .ok same

theorem bind {alike' : β → β → Prop} {f g : α → Except ε β}
    (outcome : AlikeOutcome alike left right)
    (later : ∀ a b, alike a b → AlikeOutcome alike' (f a) (g b)) :
    AlikeOutcome alike' (left >>= f) (right >>= g) := by
  cases outcome with
  | error e => exact .error e
  | ok same => exact later _ _ same

end AlikeOutcome

/-- Both stores reply the same, but for timestamps and the order of rows. -/
inductive StoreReply.Matches : StoreReply → StoreReply → Prop
  | persisted {left right : PersistResult} (same : left.Same right) :
      Matches (.persisted left) (.persisted right)
  | current {left right : Option Document}
      (same : left.map (·.toVersion) = right.map (·.toVersion)) :
      Matches (.current left) (.current right)
  | checked : Matches .checked .checked
  | updated (found : Bool) {left right : Option Document}
      (same : sameRows left.toList right.toList) :
      Matches (.updated found left) (.updated found right)
  | deleted (found : Bool) : Matches (.deleted found) (.deleted found)
  | document {left right : Option Document} (same : sameRows left.toList right.toList) :
      Matches (.document left) (.document right)
  | documents {left right : List Document} (same : sameRows left right) :
      Matches (.documents left) (.documents right)

abbrev MatchingAnswers : Except PyError StoreReply → Except PyError StoreReply → Prop :=
  AlikeOutcome StoreReply.Matches

theorem matching_of_sameAnswer {left right : Except PyError StoreReply}
    (same : sameAnswer left right) (notCurrent : ∀ row, left ≠ .ok (.current row)) :
    MatchingAnswers left right := by
  cases left with
  | error e =>
      cases right with
      | error e' =>
          obtain rfl : e = e' := same
          exact .error e
      | ok reply => cases same
  | ok reply =>
      cases right with
      | error e => cases same
      | ok reply' =>
          refine .ok ?_
          cases reply with
          | persisted left =>
              cases reply' with
              | persisted right =>
                  exact .persisted same
              | _ => cases same
          | current row => exact absurd rfl (notCurrent row)
          | checked =>
              cases reply' with
              | checked =>
                  exact .checked
              | _ => cases same
          | updated found left =>
              cases reply' with
              | updated found' right =>
                  obtain ⟨rfl, rows⟩ := same
                  exact .updated found rows
              | _ => cases same
          | deleted found =>
              cases reply' with
              | deleted found' =>
                  obtain rfl : found = found' := same
                  exact .deleted found
              | _ => cases same
          | document left =>
              cases reply' with
              | document right =>
                  exact .document same
              | _ => cases same
          | documents left =>
              cases reply' with
              | documents right =>
                  exact .documents same
              | _ => cases same

namespace Agree

variable {hash : Sha256} {store : InMemoryStore} {db : Database}

/-- One call whose answer neither store's choices can change. -/
theorem step (agree : Agree hash store db) {call : StoreCall}
    (common : call.Common hash db.documents.versions) (now : Time) (turn : VersionPlan × Nat) :
    MatchingAnswers (InMemoryStore.timedCalls.step store (call, now)).1
        (Database.timedCalls.step db (call, turn)).1 ∧
      Agree hash (InMemoryStore.timedCalls.step store (call, now)).2
        (Database.timedCalls.step db (call, turn)).2 := by
  have simulation := stores_simulation hash
  have same := simulation.answers store db ⟨call, now, turn.2, turn.1⟩ agree common
  have keeps := simulation.keeps store db ⟨call, now, turn.2, turn.1⟩ agree common
  refine ⟨?_, keeps⟩
  cases call with
  | currentVersion tenantId source groups =>
      obtain ⟨row, read, rows⟩ := agree.currentVersion_rows common.1 common.2
      simp only [InMemoryStore.timedCalls, InMemoryStore.step, Database.timedCalls, Database.step,
        read]
      exact .ok (.current rows)
  | persist call =>
      refine matching_of_sameAnswer same fun row isCurrent => ?_
      simp only [InMemoryStore.timedCalls, InMemoryStore.step] at isCurrent
      split at isCurrent <;> cases isCurrent
  | markChecked _ _ => exact matching_of_sameAnswer same fun _ wrong => by cases wrong
  | updateDocument _ _ _ _ _ => exact matching_of_sameAnswer same fun _ wrong => by cases wrong
  | deleteDocument _ _ _ => exact matching_of_sameAnswer same fun _ wrong => by cases wrong
  | getDocument _ _ _ => exact matching_of_sameAnswer same fun _ wrong => by cases wrong
  | listDocuments _ _ _ => exact matching_of_sameAnswer same fun _ wrong => by cases wrong

end Agree

/-! ## Alike responses -/

/-- The superseded ids as a set. -/
structure JobResult.Same (left right : JobResult) : Prop where
  fields : { left with superseded := [] } = { right with superseded := [] }
  superseded : ∀ id, id ∈ left.superseded ↔ id ∈ right.superseded

theorem JobResult.Same.refl (result : JobResult) : result.Same result := ⟨rfl, fun _ => Iff.rfl⟩

/-- Timestamps and the order of rows aside. -/
inductive ResponseBody.Same : ResponseBody → ResponseBody → Prop
  | documents {left right : List Document} (same : sameRows left right) :
      Same (.documents left) (.documents right)
  | document {left right : Document} (same : left.compared = right.compared) :
      Same (.document left) (.document right)
  | stored {left right : JobResult} (same : left.Same right) : Same (.stored left) (.stored right)
  | updated (documentId : String) {left right : Option Document}
      (same : sameRows left.toList right.toList) :
      Same (.updated documentId left) (.updated documentId right)
  | deleted (documentId : String) : Same (.deleted documentId) (.deleted documentId)

/-- The same error, or the same status and alike bodies. -/
abbrev Handled.Same : Handled → Handled → Prop :=
  AlikeOutcome fun left right => left.1 = right.1 ∧ left.2.Same right.2

/-- No call of the request leaves a store a choice. -/
def DocumentRequest.Common (hash : Sha256) (db : Database) (event : DocumentRequest) : Prop :=
  event.program.Meets Database.timedCalls
    (fun db call => call.Common hash db.documents.versions) event.turns db

/-- The status of a response and the number of documents it lists. -/
def Handled.shown : Handled → Option (Nat × Nat)
  | .ok (status, .documents rows) => some (status, rows.length)
  | .ok (status, _) => some (status, 0)
  | .error _ => none

end ProductionRag
