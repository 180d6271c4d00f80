import ProductionRag.Api.Handle
import ProductionRag.Gateway.Configuration
import ProductionRag.Urls

/-!
# A caller's own model

A request may name a provider, a model and a key of its caller.  What is wrong with them
is raised as `LlmSettingsError` and answered with 422; anything else that the checks raise
is an internal error.
-/

set_option autoImplicit false

namespace ProductionRag

open Basis

/-- The base URLs of `PRESETS`. -/
def presets : List (String × String) :=
  [("groq", "https://api.groq.com/openai/v1"),
   ("openai", "https://api.openai.com/v1"),
   ("openrouter", "https://openrouter.ai/api/v1"),
   ("gemini", "https://generativelanguage.googleapis.com/v1beta/openai"),
   ("together", "https://api.together.xyz/v1"),
   ("mistral", "https://api.mistral.ai/v1")]

def custom : String := "custom"

def isModelChar (c : Char) : Bool :=
  c.isAlphanum || c == '.' || c == '_' || c == ':' || c == '/' || c == '@' || c == '+' || c == '-'

/-- `MODEL_RE.fullmatch` -/
def isModelId (model : String) : Bool :=
  1 ≤ model.length && model.length ≤ 128 && model.toList.all isModelChar

structure LlmSettings where
  provider : String
  baseUrl : String
  model : String
  apiKey : String
  deriving DecidableEq

/-- `custom_urls_allowed` -/
def customUrlsAllowed (environ : Environ) : Bool :=
  (environ "RAG_ALLOW_CUSTOM_LLM_URL").getD "1" != "0"

/-! ## Public addresses -/

/-- How `getaddrinfo` fails; only the first is caught. -/
inductive LookupError where
  | gaierror
  | raised (e : PyError)

/-- What the check of a URL asks of Python's tables and of the resolver. -/
structure Network where
  /-- `str.lower` -/
  lower : List Char → List Char
  /-- `unicodedata.normalize("NFKC", ...)` -/
  nfkc : List Char → List Char
  /-- The addresses of a host. -/
  getaddrinfo : List Char → Nat → Except LookupError (List (List Char))
  /-- `is_global`, from the registries of special addresses. -/
  isGlobal : IpAddress → Bool

/-- `raise LlmSettingsError` -/
def LlmError.refuse {α : Type} (message : String) : Except LlmError α :=
  .error (.settings message)

/-- The loop over the addresses of a host. -/
def checkAddresses (network : Network) (hostname : List Char) :
    List (List Char) → Except LlmError Unit
  | [] => .ok ()
  | text :: rest =>
    match ipAddress text with
    | .error e => .error (.raised e)
    | .ok address =>
      if network.isGlobal address then checkAddresses network hostname rest
      else
        LlmError.refuse (String.ofList hostname ++
          " resolves to a private or internal address, which is not allowed")

/-- The host of an `https` URL. -/
def SplitResult.httpsHost (parts : SplitResult) (lower : List Char → List Char) :
    Option (List Char) :=
  if parts.scheme = "https".toList then (parts.hostname lower).filter (· ≠ []) else none

/-- The host is looked up and its addresses are checked. -/
def checkHost (network : Network) (parts : SplitResult) (hostname : List Char) :
    Except LlmError Unit :=
  match parts.port with
  | .error e => .error (.raised e)
  | .ok port =>
    match network.getaddrinfo hostname ((port.filter (· ≠ 0)).getD 443) with
    | .error .gaierror => LlmError.refuse ("cannot resolve " ++ String.ofList hostname)
    | .error (.raised e) => .error (.raised e)
    | .ok infos => checkAddresses network hostname infos

def checkPublicUrl (network : Network) (url : String) : Except LlmError Unit :=
  match urlsplit network.nfkc url.toList with
  | .error e => .error (.raised e)
  | .ok parts =>
    match parts.httpsHost network.lower with
    | none => LlmError.refuse "custom LLM URLs must use https"
    | some hostname =>
      if hasCredentials parts.netloc then
        LlmError.refuse "custom LLM URLs must not contain credentials"
      else checkHost network parts hostname

/-! ## Settings -/

/-- The base URL that a caller gives. -/
def customBaseUrl (network : Network) (allowCustom : Bool) (baseUrl : Json) :
    Except LlmError String :=
  if allowCustom then
    match baseUrl with
    | .string text =>
      if text.length ≤ 300 then do
        checkPublicUrl network (rstripSlash (strip text))
        return rstripSlash (strip text)
      else LlmError.refuse "base_url is required for a custom provider"
    | _ => LlmError.refuse "base_url is required for a custom provider"
  else LlmError.refuse "custom LLM URLs are disabled on this server"

/-- The provider and its base URL. -/
def chosenProvider (network : Network) (allowCustom : Bool) (fields : List (String × Json)) :
    Except LlmError (String × String) :=
  match Json.get fields "provider" with
  | .string provider =>
    if provider = custom then
      (customBaseUrl network allowCustom (Json.get fields "base_url")).map fun url =>
        (provider, url)
    else
      match presets.lookup provider with
      | some url => .ok (provider, url)
      | none => unknown
  | _ => unknown
where
  unknown := LlmError.refuse
    ("provider must be one of: " ++ ", ".intercalate (presets.map Prod.fst ++ [custom]))

def checkedModel : Json → Except LlmError String
  | .string model =>
    if isModelId (strip model) then .ok (strip model)
    else LlmError.refuse "model must be a model ID such as llama-3.1-8b-instant"
  | _ => LlmError.refuse "model must be a model ID such as llama-3.1-8b-instant"

def checkedApiKey : Json → Except LlmError String
  | .string apiKey =>
    if 8 ≤ (strip apiKey).length ∧ (strip apiKey).length ≤ 512 then .ok (strip apiKey)
    else LlmError.refuse "api_key is missing or malformed"
  | _ => LlmError.refuse "api_key is missing or malformed"

def parseLlmSettings (network : Network) (allowCustom : Bool) :
    Json → Except LlmError (Option LlmSettings)
  | .null => .ok none
  | .object fields => do
    let (provider, baseUrl) ← chosenProvider network allowCustom fields
    let model ← checkedModel (Json.get fields "model")
    let apiKey ← checkedApiKey (Json.get fields "api_key")
    return some { provider, baseUrl, model, apiKey }
  | _ => LlmError.refuse "llm must be an object"

/-! ## The provider of one request -/

/-- A gateway around the caller's provider. -/
structure UserGateway where
  provider : OpenAICompatibleProvider
  /-- The base URL is checked again before every call. -/
  guarded : Bool
  gateway : GatewayProvider

def buildUserProvider (numbers : Numbers) (environ : Environ) (settings : LlmSettings) :
    Except PyError UserGateway := do
  let setting (name default : String) := (environ name).getD default
  let timeout ← numbers.float (setting "RAG_MODEL_TIMEOUT_SECONDS" "30")
  let maxOutputTokens ← numbers.int (setting "RAG_MAX_OUTPUT_TOKENS" "512")
  let maxContextTokens ← numbers.int (setting "RAG_MAX_CONTEXT_TOKENS" "3000")
  let maxHistoryTokens ← numbers.int (setting "RAG_MAX_HISTORY_TOKENS" "1000")
  let deadline ← numbers.float (setting "RAG_GENERATION_DEADLINE_SECONDS" "45")
  return {
    provider :=
      { baseUrl := rstripSlash settings.baseUrl, apiKey := settings.apiKey
        model := settings.model, timeout, maxOutputTokens }
    guarded := settings.provider = custom
    gateway :=
      { providers := [settings.model], budget := { maxContextTokens, maxHistoryTokens }
        maxAttempts := 2, deadline } }

/-- `_user_provider`; its `ApiError` is a 422. -/
def userProvider (network : Network) (numbers : Numbers) (environ : Environ) (llm : Json) :
    Except LlmError (Option UserGateway) := do
  match ← parseLlmSettings network (customUrlsAllowed environ) llm with
  | none => return none
  | some settings =>
    match buildUserProvider numbers environ settings with
    | .error e => throw (.raised e)
    | .ok user => return some user

/-! ## What is checked -/

/-- The call returns or raises `LlmSettingsError`. -/
def Settles {α : Type} (outcome : Except LlmError α) : Prop := ∀ e, outcome ≠ .error (.raised e)

@[simp] theorem settles_ok {α : Type} (value : α) : Settles (.ok value) := by
  intro e wrong
  cases wrong

@[simp] theorem settles_refuse {α : Type} (message : String) :
    Settles (LlmError.refuse message : Except LlmError α) := by
  intro e wrong
  cases wrong

@[simp] theorem not_settles_raised {α : Type} (e : PyError) :
    ¬ Settles (.error (.raised e) : Except LlmError α) := fun settles => settles e rfl

/-- A call settles when its first part does and what follows on its result does. -/
theorem settles_bind_iff {α β : Type} {first : Except LlmError α} {next : α → Except LlmError β} :
    Settles (first >>= next) ↔
      Settles first ∧ ∀ value, first = .ok value → Settles (next value) := by
  cases first with
  | ok value =>
      constructor
      · intro settles
        refine ⟨settles_ok value, fun other same => ?_⟩
        cases same
        exact settles
      · exact fun both => both.2 value rfl
  | error error =>
      constructor
      · intro settles
        refine ⟨fun e same => settles e (congrArg Except.error (Except.error.inj same)), ?_⟩
        intro value same
        cases same
      · exact fun both e same => both.1 e (congrArg Except.error (Except.error.inj same))

theorem settles_map_iff {α β : Type} {outcome : Except LlmError α} {f : α → β} :
    Settles (outcome.map f) ↔ Settles outcome := by
  cases outcome with
  | ok value => exact iff_of_true (settles_ok _) (settles_ok _)
  | error error => cases error <;> simp [Except.map, Settles]

/-- Settings that a provider may be built from. -/
structure LlmSettings.Valid (network : Network) (settings : LlmSettings) : Prop where
  provider : (settings.provider, settings.baseUrl) ∈ presets ∨
    settings.provider = custom ∧ checkPublicUrl network settings.baseUrl = .ok ()
  model : isModelId settings.model = true
  apiKey : strip settings.apiKey = settings.apiKey ∧ 8 ≤ settings.apiKey.length ∧
    settings.apiKey.length ≤ 512

/-- The addresses are read, as far as the loop goes: up to the first that is not public. -/
def ReadableAddresses (network : Network) (infos : List (List Char)) : Prop :=
  ∀ before text after, infos = before ++ text :: after →
    (∀ earlier ∈ before, ∃ address, ipAddress earlier = .ok address ∧
      network.isGlobal address = true) →
    ∃ address, ipAddress text = .ok address

/-- `parts.port or 443` -/
def lookupPort (netloc : List Char) : Nat :=
  if decimalValue (portText netloc) = 0 then 443 else decimalValue (portText netloc)

/-- The look-up of a host finds addresses that are read, or fails with `gaierror`. -/
def Resolves (network : Network) (hostname : List Char) (port : Nat) : Prop :=
  match network.getaddrinfo hostname port with
  | .error .gaierror => True
  | .error (.raised _) => False
  | .ok infos => ReadableAddresses network infos

/-- An `https` URL without credentials, whose host is looked up. -/
def LooksUp (network : Network) (url hostname : List Char) : Prop :=
  (SplitResult.mk (schemeOf url) (netlocOf url)).httpsHost network.lower = some hostname ∧
    hasCredentials (netlocOf url) = false

/-- A URL on which no call of the check fails but in the way that is caught. -/
structure CheckableUrl (network : Network) (url : List Char) : Prop where
  netloc : WellFormedNetloc network.nfkc (netlocOf url)
  port : ∀ hostname, LooksUp network url hostname → ReadablePort (netlocOf url)
  resolves : ∀ hostname, LooksUp network url hostname →
    Resolves network hostname (lookupPort (netlocOf url))

/-- The base URL that is checked, if the settings get that far, is checkable. -/
def CheckableSettings (network : Network) (allowCustom : Bool) (llm : Json) : Prop :=
  ∀ fields baseUrl, llm = .object fields → Json.get fields "provider" = .string custom →
    allowCustom = true → Json.get fields "base_url" = .string baseUrl → baseUrl.length ≤ 300 →
    CheckableUrl network (rstripSlash (strip baseUrl)).toList

theorem readableAddresses_cons (network : Network) (first : List Char)
    (rest : List (List Char)) :
    ReadableAddresses network (first :: rest) ↔
      ∃ address, ipAddress first = .ok address ∧
        (network.isGlobal address = true → ReadableAddresses network rest) := by
  constructor
  · intro readable
    obtain ⟨address, read⟩ := readable [] first rest rfl (List.forall_mem_nil _)
    refine ⟨address, read, fun isGlobal before text after cut earlier => ?_⟩
    exact readable (first :: before) text after (congrArg _ cut)
      (List.forall_mem_cons.mpr ⟨⟨address, read, isGlobal⟩, earlier⟩)
  · rintro ⟨address, read, later⟩ before text after cut earlier
    cases before with
    | nil =>
        cases cut
        exact ⟨address, read⟩
    | cons head before =>
        obtain ⟨rfl, shorter⟩ := List.cons.inj cut
        obtain ⟨⟨other, same, isGlobal⟩, earlier⟩ := List.forall_mem_cons.mp earlier
        obtain rfl := Except.ok.inj (read.symm.trans same)
        exact later isGlobal before text after shorter earlier

theorem checkAddresses_settles_iff (network : Network) (hostname : List Char)
    (infos : List (List Char)) :
    Settles (checkAddresses network hostname infos) ↔ ReadableAddresses network infos := by
  induction infos with
  | nil =>
      refine iff_of_true (settles_ok ()) fun before text after cut => ?_
      exact absurd cut.symm (by simp)
  | cons first rest ih =>
      rw [readableAddresses_cons]
      cases read : ipAddress first with
      | error e => simp [checkAddresses, read]
      | ok address =>
          cases isGlobal : network.isGlobal address with
          | false => simp [checkAddresses, read, isGlobal]
          | true => simp [checkAddresses, read, isGlobal, ih]

/-- The port the resolver is asked for. -/
theorem lookupPort_eq {parts : SplitResult} {port : Option Nat} (read : parts.port = .ok port) :
    (port.filter (· ≠ 0)).getD 443 = lookupPort parts.netloc := by
  unfold SplitResult.port at read
  unfold lookupPort
  dsimp only at read
  split at read
  · rename_i none
    cases read
    rw [none]
    rfl
  · split at read
    · split at read
      · cases read
        by_cases zero : decimalValue (portText parts.netloc) = 0 <;> simp [zero, Option.filter]
      · cases read
    · cases read

theorem checkHost_settles_iff (network : Network) (parts : SplitResult) (hostname : List Char) :
    Settles (checkHost network parts hostname) ↔
      ReadablePort parts.netloc ∧ Resolves network hostname (lookupPort parts.netloc) := by
  rw [← port_ok_iff]
  unfold checkHost
  cases read : parts.port with
  | error e => simp
  | ok port =>
      rw [and_iff_right ⟨port, rfl⟩, Resolves]
      dsimp only
      rw [lookupPort_eq read]
      cases network.getaddrinfo hostname (lookupPort parts.netloc) with
      | ok infos => exact checkAddresses_settles_iff network hostname infos
      | error failure => cases failure <;> simp

/-- Nothing is asked about a URL that is turned down before its host is looked up. -/
theorem CheckableUrl.of_quiet {network : Network} {url : List Char}
    (wellFormed : WellFormedNetloc network.nfkc (netlocOf url))
    (quiet : ∀ hostname, ¬ LooksUp network url hostname) : CheckableUrl network url :=
  ⟨wellFormed, fun hostname asks => absurd asks (quiet hostname),
    fun hostname asks => absurd asks (quiet hostname)⟩

theorem checkableUrl_iff_of_looksUp {network : Network} {url hostname : List Char}
    (wellFormed : WellFormedNetloc network.nfkc (netlocOf url))
    (asks : LooksUp network url hostname) :
    CheckableUrl network url ↔
      ReadablePort (netlocOf url) ∧ Resolves network hostname (lookupPort (netlocOf url)) := by
  constructor
  · exact fun checkable => ⟨checkable.port hostname asks, checkable.resolves hostname asks⟩
  · rintro ⟨readable, resolves⟩
    refine ⟨wellFormed, fun _ _ => readable, fun other same => ?_⟩
    obtain rfl := Option.some.inj (asks.1.symm.trans same.1)
    exact resolves

theorem checkPublicUrl_settles_iff (network : Network) (url : String) :
    Settles (checkPublicUrl network url) ↔ CheckableUrl network url.toList := by
  unfold checkPublicUrl
  cases read : urlsplit network.nfkc url.toList with
  | error e =>
      refine iff_of_false (not_settles_raised e) fun checkable => ?_
      rw [urlsplit_ok_iff.mpr ⟨checkable.netloc, rfl⟩] at read
      cases read
  | ok parts =>
      obtain ⟨wellFormed, rfl⟩ := urlsplit_ok_iff.mp read
      dsimp only
      split
      · rename_i noHost
        refine iff_of_true (settles_refuse _) (.of_quiet wellFormed fun hostname asks => ?_)
        cases noHost.symm.trans asks.1
      · rename_i hostname host
        split
        · rename_i credentials
          refine iff_of_true (settles_refuse _) (.of_quiet wellFormed fun hostname asks => ?_)
          cases credentials.symm.trans asks.2
        · rename_i noCredentials
          rw [checkableUrl_iff_of_looksUp wellFormed ⟨host, eq_false_of_ne_true noCredentials⟩]
          exact checkHost_settles_iff network _ hostname

theorem customBaseUrl_settles_iff (network : Network) (allowCustom : Bool) (baseUrl : Json) :
    Settles (customBaseUrl network allowCustom baseUrl) ↔
      (allowCustom = true → ∀ text, baseUrl = .string text → text.length ≤ 300 →
        CheckableUrl network (rstripSlash (strip text)).toList) := by
  unfold customBaseUrl
  cases allowCustom with
  | false => simp
  | true =>
      cases baseUrl with
      | string text =>
          by_cases short : text.length ≤ 300
          · have checked := checkPublicUrl_settles_iff network (rstripSlash (strip text))
            simp [short, settles_bind_iff, checked, pure, Except.pure]
          · simp [short]
      | _ => simp

theorem checkedModel_settles (model : Json) : Settles (checkedModel model) := by
  unfold checkedModel
  split
  · split <;> simp
  · simp

theorem checkedApiKey_settles (apiKey : Json) : Settles (checkedApiKey apiKey) := by
  unfold checkedApiKey
  split
  · split <;> simp
  · simp

theorem chosenProvider_settles_iff (network : Network) (allowCustom : Bool)
    (fields : List (String × Json)) :
    Settles (chosenProvider network allowCustom fields) ↔
      (Json.get fields "provider" = .string custom →
        Settles (customBaseUrl network allowCustom (Json.get fields "base_url"))) := by
  unfold chosenProvider
  split
  · rename_i provider named
    rw [named, Json.string.injEq]
    split
    · rename_i isCustom
      rw [settles_map_iff, forall_prop_of_true isCustom]
    · rename_i preset
      refine iff_of_true ?_ fun isCustom => absurd isCustom preset
      split
      · exact settles_ok _
      · exact settles_refuse _
  · rename_i unnamed
    exact iff_of_true (settles_refuse _) fun named => absurd named (unnamed custom)

/-- The only part of the parsing that may fail otherwise is the check of the base URL. -/
theorem parseLlmSettings_settles_iff (network : Network) (allowCustom : Bool) (llm : Json) :
    Settles (parseLlmSettings network allowCustom llm) ↔
      CheckableSettings network allowCustom llm := by
  cases llm with
  | object fields =>
      have rest : ∀ provider : String × String, Settles (do
          let model ← checkedModel (Json.get fields "model")
          let apiKey ← checkedApiKey (Json.get fields "api_key")
          return some (LlmSettings.mk provider.1 provider.2 model apiKey)) := by
        intro provider
        refine settles_bind_iff.mpr ⟨checkedModel_settles _, fun model _ => ?_⟩
        exact settles_bind_iff.mpr ⟨checkedApiKey_settles _, fun apiKey _ => settles_ok _⟩
      have first : Settles (parseLlmSettings network allowCustom (.object fields)) ↔
          Settles (chosenProvider network allowCustom fields) :=
        settles_bind_iff.trans (and_iff_left fun provider _ => rest provider)
      rw [first, chosenProvider_settles_iff, customBaseUrl_settles_iff]
      constructor
      · intro checkable other baseUrl same named allowed given short
        cases same
        exact checkable named allowed baseUrl given short
      · intro checkable named allowed baseUrl given short
        exact checkable fields baseUrl rfl named allowed given short
  | null =>
      refine iff_of_true (settles_ok _) fun fields baseUrl same => ?_
      cases same
  | _ =>
      refine iff_of_true (settles_refuse _) fun fields baseUrl same => ?_
      cases same

/-! ## What is accepted -/

theorem rstripSlash_rstripSlash (url : String) :
    rstripSlash (rstripSlash url) = rstripSlash url := by
  rw [rstripSlash, rstripSlash, String.toList_ofList, List.rdropWhile_idempotent]

theorem customBaseUrl_checked {network : Network} {allowCustom : Bool} {baseUrl : Json}
    {url : String} (accepted : customBaseUrl network allowCustom baseUrl = .ok url) :
    checkPublicUrl network url = .ok () ∧ rstripSlash url = url := by
  unfold customBaseUrl at accepted
  split at accepted
  · split at accepted
    · split at accepted
      · obtain ⟨_, checked, returned⟩ := Except.bind_ok_iff.mp accepted
        rw [← Except.ok.inj returned]
        exact ⟨checked, rstripSlash_rstripSlash _⟩
      · cases accepted
    · cases accepted
  · cases accepted

theorem chosenProvider_valid {network : Network} {allowCustom : Bool}
    {fields : List (String × Json)} {provider url : String}
    (chosen : chosenProvider network allowCustom fields = .ok (provider, url)) :
    (provider, url) ∈ presets ∨
      provider = custom ∧ checkPublicUrl network url = .ok () ∧ rstripSlash url = url := by
  unfold chosenProvider at chosen
  split at chosen
  · split at chosen
    · rename_i isCustom
      cases accepted : customBaseUrl network allowCustom (Json.get fields "base_url") with
      | error e =>
          rw [accepted] at chosen
          cases chosen
      | ok checked =>
          rw [accepted] at chosen
          cases chosen
          exact .inr ⟨isCustom, customBaseUrl_checked accepted⟩
    · split at chosen
      · rename_i preset
        cases chosen
        obtain ⟨before, after, listed, _⟩ := List.lookup_eq_some_iff.mp preset
        exact .inl (by simp [listed])
      · cases chosen
  · cases chosen

theorem checkedModel_valid {model : Json} {accepted : String}
    (checked : checkedModel model = .ok accepted) : isModelId accepted = true := by
  unfold checkedModel at checked
  split at checked
  · split at checked
    · rename_i isModel
      cases checked
      exact isModel
    · cases checked
  · cases checked

theorem checkedApiKey_valid {apiKey : Json} {accepted : String}
    (checked : checkedApiKey apiKey = .ok accepted) :
    strip accepted = accepted ∧ 8 ≤ accepted.length ∧ accepted.length ≤ 512 := by
  unfold checkedApiKey at checked
  split at checked
  · split at checked
    · rename_i inRange
      cases checked
      exact ⟨strip_strip _, inRange⟩
    · cases checked
  · cases checked

/-- Everything an accepted object has gone through. -/
theorem parseLlmSettings_some {network : Network} {allowCustom : Bool} {llm : Json}
    {settings : LlmSettings}
    (accepted : parseLlmSettings network allowCustom llm = .ok (some settings)) :
    ∃ fields, llm = .object fields ∧
      chosenProvider network allowCustom fields = .ok (settings.provider, settings.baseUrl) ∧
      checkedModel (Json.get fields "model") = .ok settings.model ∧
      checkedApiKey (Json.get fields "api_key") = .ok settings.apiKey := by
  cases llm with
  | object fields =>
      obtain ⟨provider, chosen, accepted⟩ := Except.bind_ok_iff.mp accepted
      obtain ⟨model, isModel, accepted⟩ := Except.bind_ok_iff.mp accepted
      obtain ⟨apiKey, isKey, returned⟩ := Except.bind_ok_iff.mp accepted
      cases returned
      exact ⟨fields, rfl, chosen, isModel, isKey⟩
  | null => cases accepted
  | _ => cases accepted

theorem parseLlmSettings_valid {network : Network} {allowCustom : Bool} {llm : Json}
    {settings : LlmSettings}
    (accepted : parseLlmSettings network allowCustom llm = .ok (some settings)) :
    settings.Valid network := by
  obtain ⟨fields, _, chosen, isModel, isKey⟩ := parseLlmSettings_some accepted
  refine ⟨?_, checkedModel_valid isModel, checkedApiKey_valid isKey⟩
  exact (chosenProvider_valid chosen).imp_right fun own => ⟨own.1, own.2.1⟩

/-- The base URL of a caller passes the check as the provider keeps it. -/
theorem checkPublicUrl_of_accepted {network : Network} {allowCustom : Bool} {llm : Json}
    {settings : LlmSettings}
    (accepted : parseLlmSettings network allowCustom llm = .ok (some settings))
    (isCustom : settings.provider = custom) :
    checkPublicUrl network (rstripSlash settings.baseUrl) = .ok () := by
  obtain ⟨fields, _, chosen, _, _⟩ := parseLlmSettings_some accepted
  rcases chosenProvider_valid chosen with preset | ⟨_, checked, stripped⟩
  · rw [isCustom] at preset
    have others : presets.all (fun entry => entry.1 != custom) = true := by decide
    exact absurd (List.all_eq_true.mp others _ preset) (by simp)
  · rw [stripped]
    exact checked

/-! ## Bad settings -/

/-- The numbers of the operator are read. -/
def Builds (numbers : Numbers) (environ : Environ) : Prop :=
  ∀ settings, ∃ user, buildUserProvider numbers environ settings = .ok user

/-- Where the parsing settles, so does `_user_provider`. -/
theorem userProvider_settles {network : Network} {numbers : Numbers} {environ : Environ}
    (builds : Builds numbers environ) {llm : Json}
    (settles : Settles (parseLlmSettings network (customUrlsAllowed environ) llm)) :
    Settles (userProvider network numbers environ llm) := by
  refine settles_bind_iff.mpr ⟨settles, fun parsed _ => ?_⟩
  cases parsed with
  | none => exact settles_ok _
  | some settings =>
      obtain ⟨user, built⟩ := builds settings
      simp only [built]
      exact settles_ok _

/-- The application asks for the caller's gateway as `_user_provider` builds it. -/
def BuildsGateways (surroundings : Surroundings) (network : Network)
    (numbers : Numbers) (environ : Environ) : Prop :=
  ∀ llm, surroundings.userProvider llm =
    (userProvider network numbers environ llm).map (Option.map UserGateway.gateway)

/-- Where the parsing settles, the test of the settings is answered with 422 or made. -/
theorem testLlm_of_settles {surroundings : Surroundings} {network : Network} {numbers : Numbers}
    {environ : Environ} (gateways : BuildsGateways surroundings network numbers environ)
    (builds : Builds numbers environ) {request : Request}
    (settles : Settles (parseLlmSettings network (customUrlsAllowed environ)
      (request.get "llm"))) :
    (∃ message, Application.testLlm surroundings request = AnswerError.refuse 422 message) ∨
      ∃ gateway, surroundings.userProvider (request.get "llm") = .ok (some gateway) := by
  have answered := userProvider_settles builds settles
  have asked := gateways (request.get "llm")
  unfold Application.testLlm
  cases outcome : userProvider network numbers environ (request.get "llm") with
  | error error =>
      cases error with
      | raised e => exact absurd outcome (answered e)
      | settings message =>
          rw [asked, outcome]
          exact .inl ⟨message, rfl⟩
  | ok provider =>
      rw [asked, outcome]
      cases provider with
      | none => exact .inl ⟨"llm settings are required", rfl⟩
      | some user => exact .inr ⟨user.gateway, rfl⟩

/-- The parsing returns nothing or valid settings or raises `LlmSettingsError`, and
`_user_provider` returns or answers 422. -/
structure SettledSettings (network : Network) (allowCustom : Bool) (llm : Json) : Prop where
  settles : Settles (parseLlmSettings network allowCustom llm)
  valid : ∀ settings, parseLlmSettings network allowCustom llm = .ok (some settings) →
    settings.Valid network
  provider : ∀ numbers environ, customUrlsAllowed environ = allowCustom → Builds numbers environ →
    Settles (userProvider network numbers environ llm)

/-- Bad settings are a 422 exactly if no call of the check of their base URL fails but in
the way that is caught. -/
theorem llm_settings_settled_iff (network : Network) (allowCustom : Bool) (llm : Json) :
    SettledSettings network allowCustom llm ↔ CheckableSettings network allowCustom llm := by
  constructor
  · exact fun settled => (parseLlmSettings_settles_iff network allowCustom llm).mp settled.settles
  · intro checkable
    have settles := (parseLlmSettings_settles_iff network allowCustom llm).mpr checkable
    refine ⟨settles, fun settings accepted => parseLlmSettings_valid accepted, ?_⟩
    rintro numbers environ rfl builds
    exact userProvider_settles builds settles

/-- A resolver that knows no host. -/
def offline : Network where
  lower := List.map Char.toLower
  nfkc := id
  getaddrinfo _ _ := .error .gaierror
  isGlobal _ := false

/-- A base URL with a bracket that is not closed. -/
def unclosedBracket : Json :=
  .object [("provider", .string "custom"), ("base_url", .string "https://["),
    ("model", .string "m"), ("api_key", .string "user-key-1")]

theorem unclosed_bracket_raises : ¬ ∀ network allowCustom llm,
    SettledSettings network allowCustom llm := by
  intro settled
  have raised : parseLlmSettings offline true unclosedBracket =
      .error (.raised (.valueError "Invalid IPv6 URL")) := by
    rfl
  exact (settled offline true unclosedBracket).settles _ raised

end ProductionRag
