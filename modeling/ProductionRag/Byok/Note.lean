import ProductionRag.Byok.Settings
import ProductionRag.Gateway.Concluded
import ProductionRag.Gateway.Prompt
import ProductionRag.Gateway.Skips
import ProductionRag.Headers
import ProductionRag.Providers.OpenAI

/-!
# The note on a failure and the key

A caller's gateway calls one provider, and the key of the caller stands in one header of
its requests.  Two runs with different keys meet the same resolver and the same network;
what may differ is what `putheader` makes of the header.
-/

set_option autoImplicit false

namespace ProductionRag

open Basis

/-! ## An HTTP attempt -/

/-- What the HTTP client refuses by itself. -/
structure HttpStack where
  /-- What `Request(url)` raises. -/
  construct : String → Option HttpException
  /-- What opening the URL raises before a header is written. -/
  address : String → Option HttpException
  /-- `_is_illegal_header_value` -/
  illegal : List UInt8 → Bool

/-- What an attempt meets, should it get that far. -/
structure Encounter where
  /-- The resolver of the guard. -/
  getaddrinfo : List Char → Nat → Except LookupError (List (List Char))
  /-- How sending the request and reading the response ends. -/
  served : Ending

def raiseSome : Option HttpException → Except HttpException Unit
  | some exc => .error exc
  | none => .ok ()

def LlmError.exception : LlmError → HttpException
  | .settings text => { kind := { name := "LlmSettingsError", isValueError := true }, text }
  | .raised e => e.exception

def unicodeEncodeErrorType : ExceptionType := { name := "UnicodeEncodeError", isValueError := true }

def HeaderError.exception : HeaderError → HttpException
  | .unicodeEncodeError text => { kind := unicodeEncodeErrorType, text := String.ofList text }
  | .valueError text => { kind := valueErrorType, text := String.ofList text }

def authorization (apiKey : String) : List Char := "Bearer ".toList ++ apiKey.toList

namespace UserGateway

/-- `url_guard`, where there is one. -/
def guard (network : Network) (user : UserGateway) (encounter : Encounter) :
    Except HttpException Unit :=
  if user.guarded then
    (checkPublicUrl { network with getaddrinfo := encounter.getaddrinfo }
      user.provider.baseUrl).mapError LlmError.exception
  else .ok ()

/-- What comes before the headers. -/
def opened (stack : HttpStack) (network : Network) (user : UserGateway) (encounter : Encounter) :
    Except HttpException Unit := do
  raiseSome (stack.construct user.provider.url)
  user.guard network encounter
  raiseSome (stack.address user.provider.url)

/-- How an attempt ends; the other headers are constants. -/
def ending (stack : HttpStack) (network : Network) (user : UserGateway) (encounter : Encounter) :
    Ending := do
  user.opened stack network encounter
  (putheader stack.illegal (authorization user.provider.apiKey)).mapError HeaderError.exception
  encounter.served

end UserGateway

/-! ## A run -/

inductive UserQuestion where
  | gateway (question : GatewayQuestion)
  | http (request : ChatRequest)

@[reducible] def UserAnswer : UserQuestion → Type
  | .gateway question => GatewayAnswer question
  | .http _ => Ending

/-- How the attempts of a log ended, in order. -/
def endings (log : List (Exchange UserAnswer)) : List Ending :=
  log.filterMap fun
    | ⟨.http _, ending⟩ => some ending
    | ⟨.gateway _, _⟩ => none

namespace UserGateway

section Run

variable (words : WordChars) (reader : ResponseReader) (user : UserGateway)

/-- A call of the provider, with what the gateway reads of an exception. -/
def called (question : String) (context : List String) (history : List ChatTurn) :
    HttpDialogue (Except Raised Generation) :=
  (user.provider.complete words reader question context history).bind fun outcome =>
    .done (outcome.mapError HttpException.raised)

/-- The provider answers the calls; anything else is asked of the surroundings. -/
def reply : ∀ question, Dialogue UserQuestion UserAnswer (GatewayAnswer question)
  | .call _ _ question context history =>
    (user.called words reader question context history).expand fun request =>
      .ask (.http request) .done
  | .clock => .ask (.gateway .clock) .done
  | .allow provider attempt => .ask (.gateway (.allow provider attempt)) .done
  | .state provider => .ask (.gateway (.state provider)) .done
  | .recordSuccess provider => .ask (.gateway (.recordSuccess provider)) .done
  | .recordFailure provider => .ask (.gateway (.recordFailure provider)) .done
  | .uniform high => .ask (.gateway (.uniform high)) .done
  | .sleep delay => .ask (.gateway (.sleep delay)) .done

/-- `complete` of the caller's gateway. -/
def complete (question : String) (context : List String) (history : List ChatTurn) :
    Dialogue UserQuestion UserAnswer (Except PyError Generation) :=
  (user.gateway.complete question context history).expand (user.reply words reader)

/-- A run in which each attempt meets one of the encounters, in order. -/
def Run (stack : HttpStack) (network : Network) (question : String) (context : List String)
    (history : List ChatTurn) (encounters : List Encounter)
    (result : Except PyError Generation) : Prop :=
  ∃ log, (user.complete words reader question context history).Trace log result ∧
    endings log = encounters.map (user.ending stack network)

end Run

end UserGateway

/-! ## The endings decide the answer -/

@[simp] theorem endings_append (first second : List (Exchange UserAnswer)) :
    endings (first ++ second) = endings first ++ endings second := List.filterMap_append

/-- An attempt among the questions of a run. -/
def attempted (exchange : Exchange fun _ : ChatRequest => Ending) : Exchange UserAnswer :=
  ⟨.http exchange.question, exchange.answer⟩

theorem endings_attempted (log : List (Exchange fun _ : ChatRequest => Ending)) :
    endings (log.map attempted) = Dialogue.told log := by
  induction log with
  | nil => rfl
  | cons exchange log ih => exact congrArg (exchange.answer :: ·) ih

namespace UserGateway

variable {words : WordChars} {reader : ResponseReader} {user : UserGateway}

/-- The attempts of a call, and what it returns. -/
theorem reply_call {provider attempt : Nat} {question : String} {context : List String}
    {history : List ChatTurn} {part : List (Exchange UserAnswer)}
    {outcome : Except Raised Generation}
    (trace : (user.reply words reader (.call provider attempt question context history)).Trace
      part outcome) :
    ∃ log, (user.called words reader question context history).Trace log outcome ∧
      endings part = Dialogue.told log := by
  obtain ⟨log, called, expands⟩ := Dialogue.trace_expand.mp trace
  refine ⟨log, called, ?_⟩
  have single : ∀ (exchange : Exchange fun _ : ChatRequest => Ending) part,
      Dialogue.Trace (.ask (.http exchange.question) .done :
        Dialogue UserQuestion UserAnswer Ending) part exchange.answer ↔
      part = [attempted exchange] := fun exchange part => Dialogue.trace_single
  rw [(Dialogue.expands_single single).mp expands, endings_attempted]

/-- The runs of the provider that a run of the gateway is made of. -/
theorem expands_repeats {question : String} {context : List String} {history : List ChatTurn}
    {log : List (Exchange GatewayAnswer)} {whole : List (Exchange UserAnswer)}
    (expands : Dialogue.Expands (user.reply words reader) log whole)
    (shows : ∀ exchange ∈ log, user.gateway.Shows question context history exchange) :
    Dialogue.Repeats (user.called words reader question context history) (endings whole)
      (outcomes log) := by
  induction expands with
  | nil => exact .nil
  | @cons exchange log part rest asked later ih =>
      obtain ⟨own, others⟩ := List.forall_mem_cons.mp shows
      have repeats := ih others
      rw [endings_append]
      obtain ⟨question', answer⟩ := exchange
      cases question' with
      | call provider attempt question' context' history' =>
          obtain ⟨_, _, rfl, rfl, rfl⟩ := own
          obtain ⟨attempts, called, told⟩ := reply_call asked
          rw [told]
          exact .cons called repeats
      | _ =>
          rw [Dialogue.trace_single.mp asked]
          exact repeats

/-- Two runs of one gateway whose attempts end alike return the same. -/
theorem complete_eq_of_endings {name question : String} {context : List String}
    {history : List ChatTurn} {log log' : List (Exchange UserAnswer)}
    {result result' : Except PyError Generation} (single : user.gateway.providers = [name])
    (tries : user.gateway.maxAttempts ≠ 0)
    (trace : (user.complete words reader question context history).Trace log result)
    (trace' : (user.complete words reader question context history).Trace log' result')
    (same : endings log = endings log') : result = result' := by
  obtain ⟨abstract, run, expands⟩ := Dialogue.trace_expand.mp trace
  obtain ⟨abstract', run', expands'⟩ := Dialogue.trace_expand.mp trace'
  have repeats := expands_repeats expands (GatewayProvider.complete_shows run)
  have repeats' := expands_repeats expands' (GatewayProvider.complete_shows run')
  rw [← same] at repeats'
  have outcomes : outcomes abstract = outcomes abstract' := repeats.unique repeats'
  rw [GatewayProvider.complete_concludes single tries run,
    GatewayProvider.complete_concludes single tries run', outcomes]

/-- The gateway of the same caller with another key. -/
def withKey (user : UserGateway) (apiKey : String) : UserGateway :=
  { user with provider := { user.provider with apiKey } }

/-- An exception that ends the run, and that the note quotes. -/
structure Quotes (exc : HttpException) : Prop where
  http : exc.http = none
  isUrlError : exc.kind.isUrlError = false
  isTimeout : exc.kind.isTimeout = false
  isConnectionError : exc.kind.isConnectionError = false
  isValueError : exc.kind.isValueError = true

theorem Quotes.isRetryable {exc : HttpException} (quotes : Quotes exc) :
    isRetryable exc.raised = false := by
  simp [ProductionRag.isRetryable, HttpException.raised, quotes.http, quotes.isUrlError,
    quotes.isTimeout, quotes.isConnectionError]

theorem Quotes.describeFailure {exc : HttpException} (quotes : Quotes exc) :
    describeFailure exc.raised = exc.text := by
  simp [ProductionRag.describeFailure, HttpException.raised, quotes.http, quotes.isUrlError,
    quotes.isTimeout, quotes.isValueError]

theorem note_degraded (name text : String) :
    (GatewayProvider.degraded [] [name ++ ": " ++ text]).note = some (name ++ ": " ++ text) := by
  have whole : "; ".intercalate [name ++ ": " ++ text] = name ++ ": " ++ text := rfl
  have some : name ++ ": " ++ text ≠ "" := by
    intro none
    have lengths := congrArg String.length none
    simp at lengths
  rw [GatewayProvider.degraded]
  dsimp only
  rw [whole, if_neg some]

/-- A run of one attempt that ends in such an exception. -/
theorem run_quotes {stack : HttpStack} {network : Network} {name : String}
    {encounter : Encounter} {exc : HttpException} (single : user.gateway.providers = [name])
    (tries : user.gateway.maxAttempts ≠ 0) (quotes : Quotes exc)
    (ended : user.ending stack network encounter = .error exc) (question : String) :
    user.Run words reader stack network question [] [] [encounter]
      (.ok (GatewayProvider.degraded [] [name ++ ": " ++ exc.text])) := by
  obtain ⟨remaining, more⟩ := Nat.exists_eq_succ_of_ne_zero tries
  have abstract : (user.gateway.complete question [] []).Trace
      [⟨.clock, 0⟩, ⟨.allow 0 0, true⟩, ⟨.call 0 1 question [] [], .error exc.raised⟩,
        ⟨.recordFailure 0, ()⟩]
      (.ok (GatewayProvider.degraded [] [name ++ ": " ++ exc.text])) := by
    rw [GatewayProvider.complete, single]
    refine .ask (.ask ?_)
    rw [GatewayProvider.attempt, more]
    refine .ask (.ask ?_)
    simp only [quotes.isRetryable, Bool.not_false, Bool.true_or, if_true, quotes.describeFailure]
    exact .done _
  have attempt : Dialogue.Trace (user.reply words reader (.call 0 1 question [] []))
      [⟨.http _, .error exc⟩] (.error exc.raised) := .ask (.done _)
  have expands : Dialogue.Expands (user.reply words reader)
      [⟨.clock, 0⟩, ⟨.allow 0 0, true⟩, ⟨.call 0 1 question [] [], .error exc.raised⟩,
        ⟨.recordFailure 0, ()⟩]
      ([⟨.gateway .clock, 0⟩] ++ ([⟨.gateway (.allow 0 0), true⟩] ++ ([⟨.http _, .error exc⟩] ++
        ([⟨.gateway (.recordFailure 0), ()⟩] ++ [])))) :=
    .cons (Dialogue.trace_single.mpr rfl) (.cons (Dialogue.trace_single.mpr rfl)
      (.cons attempt (.cons (Dialogue.trace_single.mpr rfl) .nil)))
  refine ⟨_, Dialogue.trace_expand.mpr ⟨_, abstract, expands⟩, ?_⟩
  rw [List.map_singleton, ended]
  rfl

end UserGateway

/-! ## Two keys -/

/-- The attempts end in the same way: both get a response, or an exception of the same class
and status. -/
def SameWay : Ending → Ending → Prop
  | .ok _, .ok _ => True
  | .error exc, .error exc' =>
    exc.kind = exc'.kind ∧ exc.http.map (·.code) = exc'.http.map (·.code)
  | _, _ => False

/-- The `error` of `_test_llm`, if it shows one. -/
def testError (generation : Generation) : Option String :=
  if generation.degraded then some ((generation.note.filter (· ≠ "")).getD "the call failed")
  else none

/-- A test of settings shows the error if there is one. -/
theorem testLlm_shows {surroundings : Surroundings} {request : Request}
    {gateway : GatewayProvider} {generation : Generation}
    (own : surroundings.userProvider (request.get "llm") = .ok (some gateway))
    (tried : surroundings.tryProvider gateway = .ok generation) :
    Application.testLlm surroundings request =
      .ok (200, ((testError generation).map ResponseBody.failedTry).getD (.tried generation)) := by
  rw [Application.testLlm, own]
  dsimp only
  rw [tried, testError]
  cases degraded : generation.degraded with
  | true => simp [degraded]
  | false => simp [degraded]

/-- The note, and the error of a test. -/
def shown (result : Except PyError Generation) : Except PyError (Option String × Option String) :=
  result.map fun generation => (generation.note, testError generation)

/-- Runs of the two gateways that meet the same resolver and the same network, and whose
attempts end in the same way, show the same. -/
def SameNotes (words : WordChars) (reader : ResponseReader) (stack : HttpStack)
    (network : Network) (user user' : UserGateway) : Prop :=
  ∀ question context history encounters result result',
    user.Run words reader stack network question context history encounters result →
    user'.Run words reader stack network question context history encounters result' →
    (∀ encounter ∈ encounters,
      SameWay (user.ending stack network encounter) (user'.ending stack network encounter)) →
    shown result = shown result'

/-- The client refuses the URL before it writes a header. -/
def HttpStack.RefusesUrl (stack : HttpStack) (url : String) : Prop :=
  stack.construct url ≠ none ∨ stack.address url ≠ none

/-- The headers of the two keys are both written, or they are refused with the same text, or
with exceptions of different classes. -/
inductive AlikeKeys (illegal : List UInt8 → Bool) (apiKey apiKey' : String) : Prop
  | same (same : apiKey = apiKey')
  | written (left : Written illegal (authorization apiKey))
      (right : Written illegal (authorization apiKey'))
  | foreign (left : Foreign apiKey.toList) (right : Foreign apiKey'.toList)
      (same : SameForeign apiKey.toList apiKey'.toList)
  | quotedForeign (left : Quoted illegal (authorization apiKey)) (right : Foreign apiKey'.toList)
  | foreignQuoted (left : Foreign apiKey.toList) (right : Quoted illegal (authorization apiKey'))

theorem valueErrorType_ne : valueErrorType ≠ unicodeEncodeErrorType := by decide

theorem bearer_isLatin1 : "Bearer ".toList.all isLatin1 = true := by decide

theorem foreign_authorization (apiKey : String) :
    Foreign (authorization apiKey) ↔ Foreign apiKey.toList :=
  foreign_append bearer_isLatin1 apiKey.toList

/-- What `putheader` makes of two keys. -/
theorem alikeKeys_iff {illegal : List UInt8 → Bool} {apiKey apiKey' : String} :
    AlikeKeys illegal apiKey apiKey' ↔
      putheader illegal (authorization apiKey) = putheader illegal (authorization apiKey') ∨
        (Quoted illegal (authorization apiKey) ∧ Foreign (authorization apiKey')) ∨
        (Foreign (authorization apiKey) ∧ Quoted illegal (authorization apiKey')) := by
  have sameForeign : SameForeign (authorization apiKey) (authorization apiKey') ↔
      SameForeign apiKey.toList apiKey'.toList :=
    sameForeign_append bearer_isLatin1 apiKey.toList apiKey'.toList
  rw [putheader_eq_iff, foreign_authorization, foreign_authorization, sameForeign]
  constructor
  · intro alike
    cases alike with
    | same same => exact .inl (.inl (congrArg authorization same))
    | written left right => exact .inl (.inr (.inl ⟨left, right⟩))
    | foreign left right same => exact .inl (.inr (.inr ⟨left, right, same⟩))
    | quotedForeign left right => exact .inr (.inl ⟨left, right⟩)
    | foreignQuoted left right => exact .inr (.inr ⟨left, right⟩)
  · rintro ((same | ⟨left, right⟩ | ⟨left, right, same⟩) | ⟨left, right⟩ | ⟨left, right⟩)
    · exact .same (String.toList_injective (List.append_cancel_left same))
    · exact .written left right
    · exact .foreign left right same
    · exact .quotedForeign left right
    · exact .foreignQuoted left right

namespace UserGateway

variable {stack : HttpStack} {network : Network} {user : UserGateway} {apiKey : String}

/-- Keys that fare alike end an attempt alike, if they end it in the same way. -/
theorem ending_eq_of_alike (alike : AlikeKeys stack.illegal user.provider.apiKey apiKey)
    {encounter : Encounter} (same : SameWay (user.ending stack network encounter)
      ((user.withKey apiKey).ending stack network encounter)) :
    user.ending stack network encounter =
      (user.withKey apiKey).ending stack network encounter := by
  have before : (user.withKey apiKey).opened stack network encounter =
      user.opened stack network encounter := rfl
  unfold ending at same ⊢
  rw [before] at same ⊢
  cases opened : user.opened stack network encounter with
  | error exc => rfl
  | ok =>
      have key : authorization (user.withKey apiKey).provider.apiKey = authorization apiKey := rfl
      rw [opened, key] at same
      rw [key]
      rcases alikeKeys_iff.mp alike with equal | ⟨quoted, foreign⟩ | ⟨foreign, quoted⟩
      · rw [equal]
      · rw [putheader_quoted quoted, putheader_foreign foreign] at same
        exact absurd same.1 valueErrorType_ne
      · rw [putheader_foreign foreign, putheader_quoted quoted] at same
        exact absurd same.1 valueErrorType_ne.symm

theorem opened_of_refused (refused : stack.RefusesUrl user.provider.url) (encounter : Encounter) :
    ∃ exc, user.opened stack network encounter = .error exc := by
  unfold opened
  cases constructed : stack.construct user.provider.url with
  | some exc => exact ⟨exc, rfl⟩
  | none =>
      cases guarded : user.guard network encounter with
      | error exc => exact ⟨exc, rfl⟩
      | ok =>
          cases addressed : stack.address user.provider.url with
          | some exc => exact ⟨exc, rfl⟩
          | none => exact absurd refused (by simp [HttpStack.RefusesUrl, constructed, addressed])

theorem opened_of_accepted (taken : ¬ stack.RefusesUrl user.provider.url) {encounter : Encounter}
    (guarded : user.guard network encounter = .ok ()) :
    user.opened stack network encounter = .ok () := by
  obtain ⟨constructed, addressed⟩ := not_or.mp taken
  rw [opened, guarded, not_not.mp constructed, not_not.mp addressed]
  rfl

/-- An attempt that the client refuses by its URL ends without the key. -/
theorem ending_eq_of_refused (refused : stack.RefusesUrl user.provider.url)
    (encounter : Encounter) :
    user.ending stack network encounter =
      (user.withKey apiKey).ending stack network encounter := by
  obtain ⟨exc, failed⟩ := @opened_of_refused stack network user refused encounter
  have failed' : (user.withKey apiKey).opened stack network encounter = .error exc := failed
  rw [ending, ending, failed, failed']
  rfl

/-- How an attempt ends that gets to the headers. -/
theorem ending_of_opened {encounter : Encounter}
    (opened : user.opened stack network encounter = .ok ()) :
    user.ending stack network encounter =
      match putheader stack.illegal (authorization user.provider.apiKey) with
      | .error e => .error e.exception
      | .ok () => encounter.served := by
  rw [ending, opened]
  cases putheader stack.illegal (authorization user.provider.apiKey) with
  | error e => rfl
  | ok => rfl

/-- Runs that end in the same way show the same where all attempts end alike. -/
theorem sameNotes_of_endings {words : WordChars} {reader : ResponseReader} {name : String}
    (single : user.gateway.providers = [name]) (tries : user.gateway.maxAttempts ≠ 0)
    (same : ∀ encounter, SameWay (user.ending stack network encounter)
        ((user.withKey apiKey).ending stack network encounter) →
      user.ending stack network encounter =
        (user.withKey apiKey).ending stack network encounter) :
    SameNotes words reader stack network user (user.withKey apiKey) := by
  rintro question context history encounters result result' ⟨log, trace, ended⟩
    ⟨log', trace', ended'⟩ alike
  have endings : endings log = endings log' := by
    rw [ended, ended']
    exact List.map_congr_left fun encounter member => same encounter (alike encounter member)
  rw [complete_eq_of_endings single tries trace trace' endings]

/-- Two exceptions that the note quotes tell the keys apart. -/
theorem not_sameNotes {words : WordChars} {reader : ResponseReader} {name : String}
    {encounter : Encounter} {exc exc' : HttpException}
    (single : user.gateway.providers = [name]) (tries : user.gateway.maxAttempts ≠ 0)
    (quotes : Quotes exc) (quotes' : Quotes exc') (kind : exc.kind = exc'.kind)
    (ended : user.ending stack network encounter = .error exc)
    (ended' : (user.withKey apiKey).ending stack network encounter = .error exc')
    (differ : exc.text ≠ exc'.text) :
    ¬ SameNotes words reader stack network user (user.withKey apiKey) := by
  intro same
  have single' : (user.withKey apiKey).gateway.providers = [name] := single
  have tries' : (user.withKey apiKey).gateway.maxAttempts ≠ 0 := tries
  have sameWay : ∀ other ∈ [encounter], SameWay (user.ending stack network other)
      ((user.withKey apiKey).ending stack network other) := by
    rw [List.forall_mem_singleton, ended, ended']
    exact ⟨kind, by rw [quotes.http, quotes'.http]⟩
  have alike := same "" [] [] [encounter] _ _ (run_quotes single tries quotes ended "")
    (run_quotes single' tries' quotes' ended' "") sameWay
  have notes := (Prod.mk.inj (Except.ok.inj alike)).1
  rw [note_degraded, note_degraded] at notes
  have texts := congrArg String.toList (Option.some.inj notes)
  simp only [String.toList_append] at texts
  exact differ (String.toList_injective (List.append_cancel_left texts))

end UserGateway

/-! ## The keys that the note tells apart -/

theorem HeaderError.quotes (e : HeaderError) : UserGateway.Quotes e.exception := by
  cases e <;> exact ⟨rfl, rfl, rfl, rfl, rfl⟩

/-- The errors of a header are told apart by their class and their text. -/
theorem HeaderError.eq_of_exception {e e' : HeaderError}
    (kind : e.exception.kind = e'.exception.kind) (text : e.exception.text = e'.exception.text) :
    e = e' := by
  cases e with
  | valueError own =>
      cases e' with
      | valueError other => exact congrArg HeaderError.valueError (String.ofList_injective text)
      | unicodeEncodeError other => exact absurd kind valueErrorType_ne
  | unicodeEncodeError own =>
      cases e' with
      | valueError other => exact absurd kind valueErrorType_ne.symm
      | unicodeEncodeError other =>
          exact congrArg HeaderError.unicodeEncodeError (String.ofList_injective text)

/-- What is built, and that it depends on the key in the key alone. -/
theorem buildUserProvider_built {numbers : Numbers} {environ : Environ} {settings : LlmSettings}
    {user : UserGateway} (built : buildUserProvider numbers environ settings = .ok user) :
    (user.provider.baseUrl = rstripSlash settings.baseUrl ∧
        user.provider.apiKey = settings.apiKey ∧
        user.guarded = decide (settings.provider = custom) ∧
        user.gateway.providers = [settings.model] ∧ user.gateway.maxAttempts = 2) ∧
      ∀ apiKey, buildUserProvider numbers environ { settings with apiKey } =
        .ok (user.withKey apiKey) := by
  obtain ⟨timeout, timed, built⟩ := Except.bind_ok_iff.mp built
  obtain ⟨maxOutputTokens, output, built⟩ := Except.bind_ok_iff.mp built
  obtain ⟨maxContextTokens, context, built⟩ := Except.bind_ok_iff.mp built
  obtain ⟨maxHistoryTokens, history, built⟩ := Except.bind_ok_iff.mp built
  obtain ⟨deadline, ends, built⟩ := Except.bind_ok_iff.mp built
  cases built
  refine ⟨⟨rfl, rfl, rfl, rfl, rfl⟩, fun apiKey => ?_⟩
  exact Except.bind_ok_iff.mpr ⟨timeout, timed, Except.bind_ok_iff.mpr ⟨maxOutputTokens, output,
    Except.bind_ok_iff.mpr ⟨maxContextTokens, context, Except.bind_ok_iff.mpr
      ⟨maxHistoryTokens, history, Except.bind_ok_iff.mpr ⟨deadline, ends, rfl⟩⟩⟩⟩⟩

/-- The header is refused with a text that quotes it or tells where it does not encode. -/
theorem putheader_error {illegal : List UInt8 → Bool} {value : List Char} {e : HeaderError}
    (refused : putheader illegal value = .error e) :
    (∃ text, e = .valueError text ∧ Quoted illegal value) ∨
      ∃ text, e = .unicodeEncodeError text ∧ Foreign value := by
  rcases putheader_cases illegal value with written | quoted | foreign
  · cases (putheader_written written).symm.trans refused
  · exact .inl ⟨_, (Except.error.inj ((putheader_quoted quoted).symm.trans refused)).symm, quoted⟩
  · exact .inr ⟨_, (Except.error.inj ((putheader_foreign foreign).symm.trans refused)).symm,
      foreign⟩

namespace UserGateway

variable {stack : HttpStack} {network : Network} {user : UserGateway} {apiKey : String}

/-- Another text is quoted just as well. -/
theorem Quotes.retext {exc : HttpException} (quotes : Quotes exc) (text : String) :
    Quotes { exc with text } :=
  ⟨quotes.http, quotes.isUrlError, quotes.isTimeout, quotes.isConnectionError,
    quotes.isValueError⟩

theorem append_mark_ne (text : String) : text ++ "!" ≠ text := by
  intro same
  have lengths := congrArg String.length same
  simp at lengths

/-- Keys that fare differently give attempts that end in the same way with different texts. -/
theorem exists_endings (different : ¬ AlikeKeys stack.illegal user.provider.apiKey apiKey)
    (opened : ∀ served,
      user.opened stack network ⟨network.getaddrinfo, served⟩ = .ok ()) :
    ∃ encounter exc exc', Quotes exc ∧ Quotes exc' ∧ exc.kind = exc'.kind ∧
      user.ending stack network encounter = .error exc ∧
      (user.withKey apiKey).ending stack network encounter = .error exc' ∧
      exc.text ≠ exc'.text := by
  have ends : ∀ served, user.ending stack network ⟨network.getaddrinfo, served⟩ =
      match putheader stack.illegal (authorization user.provider.apiKey) with
      | .error e => .error e.exception
      | .ok () => served := fun served => ending_of_opened (opened served)
  have ends' : ∀ served,
      (user.withKey apiKey).ending stack network ⟨network.getaddrinfo, served⟩ =
        match putheader stack.illegal (authorization apiKey) with
        | .error e => .error e.exception
        | .ok () => served := fun served => ending_of_opened (opened served)
  rw [alikeKeys_iff, not_or, not_or] at different
  obtain ⟨unequal, notQuotedForeign, notForeignQuoted⟩ := different
  cases own : putheader stack.illegal (authorization user.provider.apiKey) with
  | ok =>
      cases other : putheader stack.illegal (authorization apiKey) with
      | ok => exact absurd (own.trans other.symm) unequal
      | error e =>
          let served : HttpException := { e.exception with text := e.exception.text ++ "!" }
          refine ⟨⟨network.getaddrinfo, .error served⟩, served, e.exception,
            e.quotes.retext _, e.quotes, rfl, ?_, ?_, append_mark_ne _⟩
          · rw [ends, own]
          · rw [ends', other]
  | error e =>
      cases other : putheader stack.illegal (authorization apiKey) with
      | ok =>
          let served : HttpException := { e.exception with text := e.exception.text ++ "!" }
          refine ⟨⟨network.getaddrinfo, .error served⟩, e.exception, served,
            e.quotes, e.quotes.retext _, rfl, ?_, ?_, (append_mark_ne _).symm⟩
          · rw [ends, own]
          · rw [ends', other]
      | error e' =>
          have texts : e ≠ e' := fun same => unequal (own.trans (same ▸ other.symm))
          have kind : e.exception.kind = e'.exception.kind := by
            rcases putheader_error own with ⟨text, rfl, quoted⟩ | ⟨text, rfl, foreign⟩
            · rcases putheader_error other with ⟨text', rfl, _⟩ | ⟨text', rfl, foreign'⟩
              · rfl
              · exact absurd ⟨quoted, foreign'⟩ notQuotedForeign
            · rcases putheader_error other with ⟨text', rfl, quoted'⟩ | ⟨text', rfl, _⟩
              · exact absurd ⟨foreign, quoted'⟩ notForeignQuoted
              · rfl
          refine ⟨⟨network.getaddrinfo, .ok []⟩, e.exception, e'.exception, e.quotes, e'.quotes,
            kind, ?_, ?_, fun same => texts (HeaderError.eq_of_exception kind same)⟩
          · rw [ends, own]
          · rw [ends', other]

/-- The guard lets an accepted base URL pass, while the resolver answers as it did. -/
theorem guard_of_accepted {allowCustom : Bool} {llm : Json} {settings : LlmSettings}
    (accepted : parseLlmSettings network allowCustom llm = .ok (some settings))
    (baseUrl : user.provider.baseUrl = rstripSlash settings.baseUrl)
    (guarded : user.guarded = decide (settings.provider = custom)) (served : Ending) :
    user.guard network ⟨network.getaddrinfo, served⟩ = .ok () := by
  rw [guard, guarded, baseUrl]
  by_cases isCustom : settings.provider = custom
  · rw [if_pos (decide_eq_true isCustom), checkPublicUrl_of_accepted accepted isCustom]
    rfl
  · rw [if_neg (by simp [isCustom])]

end UserGateway

/-- Where the headers fare differently, and one may be written, some run tells the keys
apart. -/
theorem not_sameNotes_of_different {network : Network} {allowCustom : Bool} {llm : Json}
    {settings : LlmSettings}
    (accepted : parseLlmSettings network allowCustom llm = .ok (some settings))
    {numbers : Numbers} {environ : Environ} {user : UserGateway}
    (built : buildUserProvider numbers environ settings = .ok user)
    (words : WordChars) (reader : ResponseReader) {stack : HttpStack} {apiKey : String}
    (taken : ¬ stack.RefusesUrl (rstripSlash settings.baseUrl ++ "/chat/completions"))
    (different : ¬ AlikeKeys stack.illegal settings.apiKey apiKey) :
    ¬ SameNotes words reader stack network user (user.withKey apiKey) := by
  obtain ⟨⟨baseUrl, ownKey, guarded, single, attempts⟩, _⟩ := buildUserProvider_built built
  have tries : user.gateway.maxAttempts ≠ 0 := by
    rw [attempts]
    decide
  rw [← ownKey] at different
  rw [← baseUrl] at taken
  obtain ⟨encounter, exc, exc', quotes, quotes', kind, ended, ended', texts⟩ :=
    UserGateway.exists_endings different fun served => UserGateway.opened_of_accepted taken
      (UserGateway.guard_of_accepted accepted baseUrl guarded served)
  exact UserGateway.not_sameNotes single tries quotes quotes' kind ended ended' texts

/-- The note and the error of a test do not depend on the key exactly if the two headers fare
alike, or none is written to begin with. -/
theorem note_independent_iff {network : Network} {allowCustom : Bool} {llm : Json}
    {settings : LlmSettings}
    (accepted : parseLlmSettings network allowCustom llm = .ok (some settings)) (apiKey : String)
    {numbers : Numbers} {environ : Environ} {user user' : UserGateway}
    (built : buildUserProvider numbers environ settings = .ok user)
    (built' : buildUserProvider numbers environ { settings with apiKey } = .ok user')
    (words : WordChars) (reader : ResponseReader) (stack : HttpStack) :
    SameNotes words reader stack network user user' ↔
      stack.RefusesUrl (rstripSlash settings.baseUrl ++ "/chat/completions") ∨
        AlikeKeys stack.illegal settings.apiKey apiKey := by
  obtain ⟨⟨baseUrl, ownKey, _, single, attempts⟩, withKey⟩ := buildUserProvider_built built
  obtain rfl := Except.ok.inj (built'.symm.trans (withKey apiKey))
  have tries : user.gateway.maxAttempts ≠ 0 := by
    rw [attempts]
    decide
  constructor
  · intro same
    by_contra neither
    obtain ⟨taken, different⟩ := not_or.mp neither
    exact not_sameNotes_of_different accepted built words reader taken different same
  · rw [← baseUrl, ← ownKey]
    rintro (refused | alike)
    · exact UserGateway.sameNotes_of_endings single tries fun encounter _ =>
        UserGateway.ending_eq_of_refused refused encounter
    · exact UserGateway.sameNotes_of_endings single tries fun encounter sameWay =>
        UserGateway.ending_eq_of_alike alike sameWay

/-! ### Two callers of one provider -/

/-- A client that opens every URL. -/
def plainStack : HttpStack where
  construct _ := none
  address _ := none
  illegal := isIllegalHeaderValue

/-- A reader of responses without a body. -/
def emptyReader : ResponseReader where
  loads _ := .error { kind := { name := "JSONDecodeError", isValueError := true }
                      text := "Expecting value: line 1 column 1 (char 0)" }
  str _ := ""
  int _ := .ok 0

/-- Settings for a preset. -/
def groqSettings (apiKey : String) : LlmSettings where
  provider := "groq"
  baseUrl := "https://api.groq.com/openai/v1"
  model := "llama-3.1-8b-instant"
  apiKey := apiKey

def groqObject (apiKey : String) : Json :=
  .object [("provider", .string "groq"), ("model", .string "llama-3.1-8b-instant"),
    ("api_key", .string apiKey)]

theorem groqSettings_built (apiKey : String) :
    ∃ user, buildUserProvider GatewayProvider.decimalNumbers (fun _ => none)
      (groqSettings apiKey) = .ok user := ⟨_, rfl⟩

/-- Two keys without line breaks give the same notes. -/
theorem plain_keys_same_note :
    ∃ user user',
      buildUserProvider GatewayProvider.decimalNumbers (fun _ => none)
        (groqSettings "user-key-1") = .ok user ∧
      buildUserProvider GatewayProvider.decimalNumbers (fun _ => none)
        (groqSettings "user-key-2") = .ok user' ∧
      SameNotes WordChars.asciiWords emptyReader plainStack offline user user' := by
  have accepted : parseLlmSettings offline false (groqObject "user-key-1") =
      .ok (some (groqSettings "user-key-1")) := by rfl
  have alike : AlikeKeys isIllegalHeaderValue "user-key-1" "user-key-2" :=
    .written ⟨by decide, by decide⟩ ⟨by decide, by decide⟩
  obtain ⟨user, built⟩ := groqSettings_built "user-key-1"
  obtain ⟨user', built'⟩ := groqSettings_built "user-key-2"
  exact ⟨user, user', built, built', (note_independent_iff accepted "user-key-2" built built'
    WordChars.asciiWords emptyReader plainStack).mpr (.inr alike)⟩

/-- A key with a line break is quoted in the note: two such keys give two notes. -/
theorem line_break_key_quoted :
    ¬ ∀ (network : Network) (allowCustom : Bool) (llm llm' : Json) (settings : LlmSettings)
      (apiKey : String) (numbers : Numbers) (environ : Environ) (user user' : UserGateway)
      (words : WordChars) (reader : ResponseReader) (stack : HttpStack),
      parseLlmSettings network allowCustom llm = .ok (some settings) →
      parseLlmSettings network allowCustom llm' = .ok (some { settings with apiKey }) →
      buildUserProvider numbers environ settings = .ok user →
      buildUserProvider numbers environ { settings with apiKey } = .ok user' →
      SameNotes words reader stack network user user' := by
  intro independent
  have accepted : parseLlmSettings offline false (groqObject "user-key\n1") =
      .ok (some (groqSettings "user-key\n1")) := by rfl
  have accepted' : parseLlmSettings offline false (groqObject "user-key\n2") =
      .ok (some (groqSettings "user-key\n2")) := by rfl
  obtain ⟨user, built⟩ := groqSettings_built "user-key\n1"
  have built' := (buildUserProvider_built built).2 "user-key\n2"
  have encodes : "user-key\n1".toList.all isLatin1 = true ∧
      "user-key\n2".toList.all isLatin1 = true := by decide
  have different : ¬ AlikeKeys isIllegalHeaderValue "user-key\n1" "user-key\n2" := by
    intro alike
    cases alike with
    | same same => exact absurd same (by decide)
    | written left right => exact absurd left.2 (by decide)
    | foreign left right same => cases left.symm.trans encodes.1
    | quotedForeign left right => cases right.symm.trans encodes.2
    | foreignQuoted left right => cases left.symm.trans encodes.1
  have taken : ¬ plainStack.RefusesUrl
      (rstripSlash (groqSettings "user-key\n1").baseUrl ++ "/chat/completions") := by
    simp [HttpStack.RefusesUrl, plainStack]
  exact not_sameNotes_of_different accepted built WordChars.asciiWords emptyReader taken different
    (independent _ _ _ _ _ _ _ _ _ _ _ _ _ accepted accepted' built built')

end ProductionRag
