import ProductionRag.Byok.Note
import ProductionRag.Gateway.Routing

/-!
# Where the requests of a caller's gateway go

The key of a caller leaves the server in few requests, all of them to the chosen provider.
To a base URL of the caller's own they go only after a look-up that found public addresses;
the client looks the host up once more, which the check does not see.
-/

set_option autoImplicit false

namespace ProductionRag

open Basis

/-! ## What the provider asks for -/

/-- A request of the provider: its URL, its model and no more than its tokens. -/
structure ChatRequest.From (provider : OpenAICompatibleProvider) (request : ChatRequest) :
    Prop where
  url : request.url = provider.url
  model : request.model = provider.model
  maxTokens : request.maxTokens = provider.maxOutputTokens

namespace OpenAICompatibleProvider

variable {words : WordChars} {reader : ResponseReader} {provider : OpenAICompatibleProvider}

theorem generation_bounded (messages : List Message) :
    (provider.generation reader messages).Bounded (ChatRequest.From provider) 1 :=
  .ask ⟨rfl, rfl, rfl⟩ fun _ => .done 0 _

/-- The answer, and once more with its citations. -/
theorem complete_bounded (question : String) (context : List String) (history : List ChatTurn) :
    (provider.complete words reader question context history).Bounded
      (ChatRequest.From provider) 2 := by
  change Dialogue.Bounded _ (1 + 1) _
  refine (generation_bounded _).bind fun outcome => ?_
  cases outcome with
  | error exc => exact .done 1 _
  | ok answer =>
      dsimp only
      split
      · exact .done 1 _
      · exact .done 1 _
      · change Dialogue.Bounded _ (1 + 0) _
        refine (generation_bounded _).bind fun repaired => ?_
        split <;> exact .done 0 _

end OpenAICompatibleProvider

/-! ## What a run sends -/

def requests (log : List (Exchange UserAnswer)) : List ChatRequest :=
  log.filterMap fun
    | ⟨.http request, _⟩ => some request
    | ⟨.gateway _, _⟩ => none

theorem requests_append (first second : List (Exchange UserAnswer)) :
    requests (first ++ second) = requests first ++ requests second := List.filterMap_append

theorem requests_attempted (log : List (Exchange fun _ : ChatRequest => Ending)) :
    requests (log.map attempted) = log.map (·.question) := by
  induction log with
  | nil => rfl
  | cons exchange log ih => exact congrArg (exchange.question :: ·) ih

namespace UserGateway

variable {words : WordChars} {reader : ResponseReader} {user : UserGateway}

/-- A call sends two requests at most. -/
theorem called_bounded (question : String) (context : List String) (history : List ChatTurn) :
    (user.called words reader question context history).Bounded
      (ChatRequest.From user.provider) 2 :=
  (OpenAICompatibleProvider.complete_bounded question context history).bind
    fun _ => .done 0 _

/-- A call sends what the provider asks for. -/
theorem requests_call {provider attempt : Nat} {question : String} {context : List String}
    {history : List ChatTurn} {part : List (Exchange UserAnswer)}
    {outcome : Except Raised Generation}
    (trace : (user.reply words reader (.call provider attempt question context history)).Trace
      part outcome) :
    (requests part).length ≤ 2 ∧ ∀ request ∈ requests part, request.From user.provider := by
  obtain ⟨log, called, expands⟩ := Dialogue.trace_expand.mp trace
  have single : ∀ (exchange : Exchange fun _ : ChatRequest => Ending) part,
      Dialogue.Trace (.ask (.http exchange.question) .done :
        Dialogue UserQuestion UserAnswer Ending) part exchange.answer ↔
      part = [attempted exchange] := fun exchange part => Dialogue.trace_single
  obtain ⟨few, own⟩ := (called_bounded question context history).trace called
  rw [(Dialogue.expands_single single).mp expands, requests_attempted, List.length_map]
  exact ⟨few, List.forall_mem_map.mpr own⟩

theorem expands_requests {log : List (Exchange GatewayAnswer)}
    {whole : List (Exchange UserAnswer)}
    (expands : Dialogue.Expands (user.reply words reader) log whole) :
    (requests whole).length ≤ 2 * (calls log).length ∧
      ∀ request ∈ requests whole, request.From user.provider := by
  induction expands with
  | nil => exact ⟨Nat.le_refl 0, List.forall_mem_nil _⟩
  | @cons exchange log part rest asked later ih =>
      obtain ⟨few, own⟩ := ih
      obtain ⟨question, answer⟩ := exchange
      rw [requests_append, List.length_append]
      cases question with
      | call provider attempt question context history =>
          obtain ⟨two, ofPart⟩ := requests_call asked
          have more : (calls (⟨.call provider attempt question context history, answer⟩ ::
              log)).length = (calls log).length + 1 := rfl
          refine ⟨by omega, fun request member => ?_⟩
          exact (List.mem_append.mp member).elim (ofPart request) (own request)
      | _ =>
          rw [Dialogue.trace_single.mp asked]
          exact ⟨(Nat.zero_add _).trans_le few, own⟩

/-- A gateway with one provider calls it as often as it may. -/
theorem calls_length_le {gateway : GatewayProvider} {name question : String}
    {context : List String} {history : List ChatTurn} {log : List (Exchange GatewayAnswer)}
    {result : Except PyError Generation} (single : gateway.providers = [name])
    (trace : (gateway.complete question context history).Trace log result) :
    (calls log).length ≤ gateway.maxAttempts := by
  obtain ⟨now, rest, rfl, started⟩ := Dialogue.trace_ask.mp trace
  have routed := GatewayProvider.completeFrom_routed started
  obtain ⟨count, few, visited⟩ := routed.visited
  rw [single, List.length_singleton] at few
  have first : ∀ call ∈ calls rest, decide (call.provider = 0) = true := by
    intro call member
    have onVisit := routed.onVisit call member
    rw [visited, List.mem_range'_1] at onVisit
    exact decide_eq_true (by omega)
  have limited := routed.limited 0
  rw [List.countP_eq_length.mpr first] at limited
  exact limited

end UserGateway

/-! ## Where they go -/

/-- An `https` URL without credentials whose host is looked up, and found at public addresses
only. -/
structure PublicUrl (network : Network) (url : String) : Prop where
  looksUp : ∃ parts hostname port infos,
    urlsplit network.nfkc url.toList = .ok parts ∧ parts.scheme = "https".toList ∧
      parts.hostname network.lower = some hostname ∧ hasCredentials parts.netloc = false ∧
      network.getaddrinfo hostname port = .ok infos ∧
      ∀ text ∈ infos, ∃ address, ipAddress text = .ok address ∧ network.isGlobal address = true

theorem checkAddresses_ok {network : Network} {hostname : List Char} {infos : List (List Char)}
    (checked : checkAddresses network hostname infos = .ok ()) :
    ∀ text ∈ infos, ∃ address, ipAddress text = .ok address ∧
      network.isGlobal address = true := by
  induction infos with
  | nil => exact List.forall_mem_nil _
  | cons text rest ih =>
      rw [checkAddresses] at checked
      split at checked
      · cases checked
      · rename_i address isAddress
        split at checked
        · rename_i isGlobal
          exact List.forall_mem_cons.mpr ⟨⟨address, isAddress, isGlobal⟩, ih checked⟩
        · cases checked

theorem checkPublicUrl_ok {network : Network} {url : String}
    (checked : checkPublicUrl network url = .ok ()) : PublicUrl network url := by
  unfold checkPublicUrl at checked
  split at checked
  · cases checked
  · rename_i parts isParts
    split at checked
    · cases checked
    · rename_i hostname isHost
      split at checked
      · cases checked
      · rename_i plain
        unfold checkHost at checked
        split at checked
        · cases checked
        · rename_i port isPort
          split at checked
          · cases checked
          · cases checked
          · rename_i infos found
            obtain ⟨isHttps, found'⟩ := Option.ite_none_right_eq_some.mp isHost
            obtain ⟨isHostname, _⟩ := Option.filter_eq_some_iff.mp found'
            exact ⟨parts, hostname, _, infos, isParts, isHttps, isHostname,
              Bool.not_eq_true _ ▸ plain, found, checkAddresses_ok checked⟩

theorem chosenProvider_allowed {network : Network} {allowCustom : Bool}
    {fields : List (String × Json)} {url : String}
    (chosen : chosenProvider network allowCustom fields = .ok (custom, url)) :
    allowCustom = true := by
  unfold chosenProvider at chosen
  split at chosen
  · split at chosen
    · unfold customBaseUrl at chosen
      split at chosen
      · assumption
      · cases chosen
    · rename_i other
      split at chosen
      · exact absurd (Prod.mk.inj (Except.ok.inj chosen)).1 other
      · cases chosen
  · cases chosen

/-- The attempt gets as far as sending its request. -/
def UserGateway.Sends (stack : HttpStack) (network : Network) (user : UserGateway)
    (encounter : Encounter) : Prop :=
  user.opened stack network encounter = .ok () ∧
    putheader stack.illegal (authorization user.provider.apiKey) = .ok ()

/-- A question makes the gateway of a caller send four requests at most, all to the provider of
the settings; each attempt at a base URL of the caller's own sends its request only after the
resolver has named public addresses for it. -/
theorem user_requests_guarded {network : Network} {numbers : Numbers} {environ : Environ}
    {llm : Json} {settings : LlmSettings}
    (accepted : parseLlmSettings network (customUrlsAllowed environ) llm = .ok (some settings))
    {user : UserGateway} (built : buildUserProvider numbers environ settings = .ok user)
    {words : WordChars} {reader : ResponseReader} {question : String} {context : List String}
    {history : List ChatTurn} {log : List (Exchange UserAnswer)} {result : Except PyError Generation}
    (run : (user.complete words reader question context history).Trace log result) :
    (requests log).length ≤ 4 ∧
      (∀ request ∈ requests log,
        request.From user.provider ∧
          request.url = rstripSlash settings.baseUrl ++ "/chat/completions") ∧
      ((settings.provider, settings.baseUrl) ∈ presets ∨
        (settings.provider = custom ∧ customUrlsAllowed environ = true ∧
          ∀ stack encounter, user.Sends stack network encounter →
            PublicUrl { network with getaddrinfo := encounter.getaddrinfo }
              (rstripSlash settings.baseUrl))) := by
  obtain ⟨⟨baseUrl, _, guarded, single, attempts⟩, _⟩ := buildUserProvider_built built
  obtain ⟨abstract, gateway, expands⟩ := Dialogue.trace_expand.mp run
  obtain ⟨few, own⟩ := UserGateway.expands_requests expands
  have calls := UserGateway.calls_length_le single gateway
  rw [attempts] at calls
  refine ⟨by omega, fun request member => ⟨own request member, ?_⟩, ?_⟩
  · rw [(own request member).url, OpenAICompatibleProvider.url, baseUrl]
  · obtain ⟨fields, _, chosen, _, _⟩ := parseLlmSettings_some accepted
    rcases chosenProvider_valid chosen with preset | ⟨isCustom, _, _⟩
    · exact Or.inl preset
    · rw [isCustom] at chosen
      refine Or.inr ⟨isCustom, chosenProvider_allowed chosen, fun stack encounter sends => ?_⟩
      obtain ⟨_, _, guards⟩ := Except.bind_ok_iff.mp sends.1
      obtain ⟨_, checked, _⟩ := Except.bind_ok_iff.mp guards
      rw [UserGateway.guard, guarded, if_pos (decide_eq_true isCustom), baseUrl] at checked
      refine checkPublicUrl_ok ?_
      cases outcome : checkPublicUrl { network with getaddrinfo := encounter.getaddrinfo }
          (rstripSlash settings.baseUrl) with
      | error e =>
          rw [outcome] at checked
          cases checked
      | ok _ => rfl

/-- A resolver that knows one public address. -/
def oneAddress : Network :=
  { offline with
    getaddrinfo := fun _ _ => .ok ["93.184.216.34".toList]
    isGlobal := fun address => address = .v4 1572395042 }

def ownHost : Json :=
  .object [("provider", .string "custom"), ("base_url", .string "https://llm.example/v1/"),
    ("model", .string "m"), ("api_key", .string "user-key-1")]

/-- Every attempt is refused by the network. -/
def unreachable (_ : List (Exchange UserAnswer)) : ∀ question, UserAnswer question
  | .http _ => .error { kind := { name := "URLError", isUrlError := true } }
  | .gateway .clock => 0
  | .gateway (.allow ..) => true
  | .gateway (.state ..) => .closed
  | .gateway (.call ..) => .error {}
  | .gateway (.recordSuccess ..) => ()
  | .gateway (.recordFailure ..) => ()
  | .gateway (.uniform ..) => 0
  | .gateway (.sleep ..) => ()

def ownHostSettings : LlmSettings where
  provider := "custom"
  baseUrl := "https://llm.example/v1"
  model := "m"
  apiKey := "user-key-1"

theorem ownHost_guarded : ∃ (user : UserGateway) (log : List (Exchange UserAnswer)) (result : _),
    (user.complete WordChars.asciiWords emptyReader "q" ["text"] []).Trace log result ∧
      (requests log).length ≤ 4 ∧
      (∀ request ∈ requests log, request.From user.provider ∧
        request.url = rstripSlash ownHostSettings.baseUrl ++ "/chat/completions") ∧
      ((ownHostSettings.provider, ownHostSettings.baseUrl) ∈ presets ∨
        (ownHostSettings.provider = custom ∧ customUrlsAllowed (fun _ => none) = true ∧
          ∀ stack encounter, user.Sends stack oneAddress encounter →
            PublicUrl { oneAddress with getaddrinfo := encounter.getaddrinfo }
              (rstripSlash ownHostSettings.baseUrl))) := by
  have accepted : parseLlmSettings oneAddress (customUrlsAllowed fun _ => none) ownHost =
      .ok (some ownHostSettings) := by
    rfl
  obtain ⟨user, built⟩ : ∃ user, buildUserProvider GatewayProvider.decimalNumbers (fun _ => none)
      ownHostSettings = .ok user := ⟨_, rfl⟩
  obtain ⟨log, result, _, run⟩ := @Dialogue.exists_trace _ _ _ unreachable
    (user.complete WordChars.asciiWords emptyReader "q" ["text"] []) []
  exact ⟨user, log, result, run, user_requests_guarded accepted built run⟩

end ProductionRag
