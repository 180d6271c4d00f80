import ProductionRag.Gateway.Complete

/-!
# The configured provider

`configured_provider` reads the `RAG_MODEL_*` and `RAG_FALLBACK_MODEL_*` settings.  With
no complete model among them the extractive answerer is used alone.
-/

set_option autoImplicit false

namespace ProductionRag

abbrev Environ := String → Option String

/-- How Python reads the numbers of the settings. -/
structure Numbers where
  float : String → Except PyError ℚ
  int : String → Except PyError Int

/-- A model behind an OpenAI-compatible API; its name as a provider is the model's. -/
structure OpenAICompatibleProvider where
  baseUrl : String
  apiKey : String
  model : String
  timeout : ℚ := 30
  maxOutputTokens : Int := 512
  deriving DecidableEq

/-- `base_url.rstrip("/")` -/
def rstripSlash (url : String) : String := String.ofList (url.toList.rdropWhile (· == '/'))

/-- A setting that is there and not empty. -/
def Environ.get (environ : Environ) (name : String) : Option String :=
  (environ name).filter (· ≠ "")

def modelFromEnv (numbers : Numbers) (start : String) (environ : Environ) :
    Except PyError (Option OpenAICompatibleProvider) :=
  let apiKey := (environ.get s!"{start}_API_KEY").or
    (if start = "RAG_MODEL" then environ.get "OPENAI_API_KEY" else none)
  match environ.get s!"{start}_BASE_URL", apiKey, environ.get s!"{start}_NAME" with
  | some baseUrl, some apiKey, some model => do
    let timeout ← numbers.float ((environ "RAG_MODEL_TIMEOUT_SECONDS").getD "30")
    let maxOutputTokens ← numbers.int ((environ "RAG_MAX_OUTPUT_TOKENS").getD "512")
    return some { baseUrl := rstripSlash baseUrl, apiKey, model, timeout, maxOutputTokens }
  | _, _, _ => return none

inductive ConfiguredProvider where
  | extractive
  | gateway (models : List OpenAICompatibleProvider) (gateway : GatewayProvider)

def configuredProvider (numbers : Numbers) (environ : Environ) :
    Except PyError ConfiguredProvider := do
  let primary ← modelFromEnv numbers "RAG_MODEL" environ
  let fallback ← modelFromEnv numbers "RAG_FALLBACK_MODEL" environ
  let models := primary.toList ++ fallback.toList
  if models.isEmpty then return .extractive
  let setting (name default : String) := (environ name).getD default
  let inputPerMillion ← numbers.float (setting "RAG_MODEL_INPUT_PRICE_PER_MTOK" "0")
  let outputPerMillion ← numbers.float (setting "RAG_MODEL_OUTPUT_PRICE_PER_MTOK" "0")
  let maxContextTokens ← numbers.int (setting "RAG_MAX_CONTEXT_TOKENS" "3000")
  let maxHistoryTokens ← numbers.int (setting "RAG_MAX_HISTORY_TOKENS" "1000")
  let deadline ← numbers.float (setting "RAG_GENERATION_DEADLINE_SECONDS" "45")
  let pricing : Pricing := { inputPerMillion, outputPerMillion }
  return .gateway models
    { providers := models.map (·.model)
      budget := { maxContextTokens, maxHistoryTokens }
      pricing := fun model => if model = "*" then some pricing else none
      deadline }

/-- A configured gateway has at most two providers and the default number of attempts. -/
theorem configuredProvider_gateway {numbers : Numbers} {environ : Environ}
    {models : List OpenAICompatibleProvider} {gateway : GatewayProvider}
    (built : configuredProvider numbers environ = .ok (.gateway models gateway)) :
    models.length ≤ 2 ∧ gateway.providers = models.map (·.model) ∧ gateway.maxAttempts = 3 := by
  obtain ⟨primary, _, built⟩ := Except.bind_ok_iff.mp built
  obtain ⟨fallback, _, built⟩ := Except.bind_ok_iff.mp built
  have two : (primary.toList ++ fallback.toList).length ≤ 2 := by
    rw [List.length_append]
    exact Nat.add_le_add Option.length_toList_le Option.length_toList_le
  dsimp only at built
  split at built
  · cases built
  · obtain ⟨_, _, built⟩ := Except.bind_ok_iff.mp built
    obtain ⟨_, _, built⟩ := Except.bind_ok_iff.mp built
    obtain ⟨_, _, built⟩ := Except.bind_ok_iff.mp built
    obtain ⟨_, _, built⟩ := Except.bind_ok_iff.mp built
    obtain ⟨_, _, built⟩ := Except.bind_ok_iff.mp built
    cases built
    exact ⟨two, rfl, rfl⟩

end ProductionRag
