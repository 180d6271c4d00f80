import ProductionRag.Api.Answer
import ProductionRag.Api.Ingest

/-!
# Requests

The HTTP boundary reads a JSON object and checks it before anything is stored.  What the
Python standard library and the collaborators of the application do with a request is
asked of its surroundings, which may answer anything and may raise.
-/

set_option autoImplicit false

namespace ProductionRag

open Basis

/-- A value as `json.loads` returns it; a number is kept as `str` spells it. -/
inductive Json where
  | null
  | bool (value : Bool)
  | number (spelling : String)
  | string (text : String)
  | array (items : List Json)
  | object (fields : List (String × Json))

namespace Json

def string? : Json → Option String
  | .string text => some text
  | _ => none

/-- `bool(value)` -/
def truthy : Json → Bool
  | .null => false
  | .bool value => value
  | .number spelling => spelling != "0" && spelling != "0.0" && spelling != "-0.0"
  | .string text => text != ""
  | .array items => !items.isEmpty
  | .object fields => !fields.isEmpty

/-- `get(key)` of an object. -/
def get (fields : List (String × Json)) (key : String) : Json :=
  ((fields.find? fun field => field.1 = key).map Prod.snd).getD .null

end Json

/-- How `json.loads` fails; only the first is about the JSON. -/
inductive LoadsError where
  | invalid
  | raised (e : PyError)

/-- How `_user_provider` fails; only the first is about the settings. -/
inductive LlmError where
  | settings (message : String)
  | raised (e : PyError)

/-- What a request meets outside the application; all of it may raise. -/
structure Surroundings where
  services : Services
  uuid4 : Nat → String
  now : Nat → Time
  score : String → String → ℚ
  lower : String → String
  /-- `urlsplit`: the path and the query. -/
  urlsplit : String → Except PyError (String × String)
  /-- `parse_qs`, each key with its last value. -/
  parseQs : String → Except PyError (List (String × String))
  loads : List UInt8 → Except LoadsError Json
  /-- `str` of what is no text, number or truth value. -/
  repr : Json → String
  /-- `encode("utf-8")` -/
  encode : String → Except PyError (List UInt8)
  b64decode : String → Except PyError (List UInt8)
  fromisoformat : String → Except PyError Time
  /-- `ApiKeyStore.authenticate` -/
  authenticate : Option String → Except PyError (Option Principal)
  /-- `RateLimiter.acquire` -/
  acquire : String → Except PyError ℚ
  /-- The gateway that the `llm` object asks for. -/
  userProvider : Json → Except LlmError (Option GatewayProvider)
  /-- The call of `_test_llm`. -/
  tryProvider : GatewayProvider → Except PyError Generation
  /-- The token budget and the providers, after the questions asked so far. -/
  reply : List (Exchange AnswerReply) → (question : AnswerQuestion) →
    Except PyError (AnswerReply question)

structure HttpRequest where
  method : String
  path : String
  headers : List (String × String)
  body : List UInt8

/-- A request that reached its handler. -/
structure Request where
  /-- The named group of the route, if it has one. -/
  param : Option String := none
  payload : List (String × Json)
  principal : Option Principal := none
  query : List (String × String) := []

/-- `text.strip()` is not empty. -/
def nonblank (text : String) : Bool := strip text ≠ ""

/-- `sorted(set(...))` -/
def sortedGroups (groups : List String) : List String :=
  groups.dedup.insertionSort fun left right => left ≤ right

/-- `normalize_groups` -/
def normalizeGroups : Json → Except PyError (List String)
  | .null => .ok []
  | .array items =>
    match items.mapM fun item => item.string?.filter nonblank with
    | some groups => .ok (sortedGroups (groups.map strip))
    | none => .error (.valueError "allowed_groups must be a list of non-empty strings")
  | _ => .error (.valueError "allowed_groups must be a list of non-empty strings")

namespace Surroundings

/-- `str` -/
def str (surroundings : Surroundings) : Json → String
  | .null => "None"
  | .bool true => "True"
  | .bool false => "False"
  | .number spelling => spelling
  | .string text => text
  | value => surroundings.repr value

/-- `datetime.fromisoformat(modified) if modified else None` -/
def modifiedAt (surroundings : Surroundings) (modified : Json) : Except PyError (Option Time) :=
  if modified.truthy then
    match modified with
    | .string text => (surroundings.fromisoformat text).map some
    | _ => .error (.typeError "fromisoformat: argument must be str")
  else .ok none

end Surroundings

namespace Request

/-- `payload.get(key)` -/
def get (request : Request) (key : String) : Json :=
  ((request.payload.find? fun field => field.1 = key).map Prod.snd).getD .null

/-- `key in payload` -/
def has (request : Request) (key : String) : Bool :=
  request.payload.any fun field => field.1 = key

/-- `caller` asserts that the route requires authentication. -/
def caller (request : Request) : Except AnswerError Principal :=
  match request.principal with
  | some principal => .ok principal
  | none => .error (.raised (.other "route requires authentication"))

/-- The `tenant_id` of the body, which may be no text. -/
def claimedTenant (request : Request) : Option (Option String) :=
  match request.get "tenant_id" with
  | .null => none
  | value => some value.string?

/-- `_tenant` -/
def tenant (request : Request) : Except AnswerError String := do
  let principal ← request.caller
  let claim : AnswerRequest :=
    { principal, claimedTenant := request.claimedTenant, question := none }
  claim.tenant.mapError .api

end Request

/-- What `_source_fields` returns. -/
structure SourceFields where
  sourceSystem : SourceSystem
  sourceId : String
  sourceVersion : Option String
  sourceModifiedAt : Json

/-- `_source_fields` -/
def sourceFields (surroundings : Surroundings) (request : Request) (filename : String) :
    Except PyError SourceFields := do
  let system ←
    match (if request.has "source_system" then (request.get "source_system").string?
      else some "upload") with
    | none => .error (.valueError
        "source_system must be 1-32 lowercase letters, digits, - or _")
    | some name =>
      if valid : sourceSystemRe name = true then .ok (⟨name, valid⟩ : SourceSystem)
      else .error (.valueError "source_system must be 1-32 lowercase letters, digits, - or _")
  let sourceId ←
    match (if request.has "source_id" then (request.get "source_id").string?
      else some filename) with
    | none => .error (.valueError
        "source_id must be a non-empty string of at most 512 characters")
    | some text =>
      if nonblank text && text.length ≤ 512 then .ok text
      else .error (.valueError "source_id must be a non-empty string of at most 512 characters")
  let version ←
    match request.get "source_version" with
    | .null => .ok none
    | .string text =>
      if text.length ≤ 256 then .ok (some text)
      else .error (.valueError "source_version must be a string of at most 256 characters")
    | _ => .error (.valueError "source_version must be a string of at most 256 characters")
  let modified := request.get "source_modified_at"
  match modified with
  | .null => pure ()
  | value =>
    match surroundings.fromisoformat (surroundings.str value) with
    | .ok _ => pure ()
    | .error (.valueError _) =>
      .error (.valueError "source_modified_at must be an ISO-8601 timestamp")
    | .error e => .error e
  return { sourceSystem := system, sourceId := strip sourceId, sourceVersion := version,
           sourceModifiedAt := modified }

/-- What `_document_job` returns: the job, but for its timestamp, which is not read yet. -/
structure DocumentJob where
  payload : JobPayload
  modified : Json

/-- The bytes of an upload, sent as text or as a file. -/
def uploadedBytes (surroundings : Surroundings) (request : Request) :
    Except PyError (List UInt8) :=
  match request.get "content", request.get "content_base64" with
  | .string text, .null => surroundings.encode text
  | .null, .string encoded =>
    match surroundings.b64decode encoded with
    | .ok data => .ok data
    | .error _ => .error (.valueError "content_base64 is not valid base64")
  | _, _ => .error (.valueError
      "send exactly one of content (text) or content_base64 (file)")

/-- `_document_job` -/
def documentJob (surroundings : Surroundings) (request : Request) :
    Except AnswerError DocumentJob := do
  let filename ←
    match (request.get "filename").string?.filter nonblank with
    | some filename => .ok filename
    | none => .error (.raised (.valueError "filename is required"))
  let data ← (uploadedBytes surroundings request).mapError .raised
  let contentType ←
    match request.get "content_type" with
    | .null => .ok none
    | .string text => .ok (some text)
    | _ => .error (.raised (.valueError "content_type must be a string"))
  let principal ← request.caller
  let tenantId ← request.tenant
  let allowedGroups ←
    if request.has "allowed_groups" then
      ((normalizeGroups (request.get "allowed_groups")).map some).mapError .raised
    else .ok none
  let source ← (sourceFields surroundings request (strip filename)).mapError .raised
  return { payload :=
             { tenantId, filename := strip filename, contentBase64 := some data, contentType
               allowedGroups, sourceSystem := source.sourceSystem, sourceId := source.sourceId
               sourceVersion := source.sourceVersion, groups := sortedGroups principal.groups }
           modified := source.sourceModifiedAt }

end ProductionRag
