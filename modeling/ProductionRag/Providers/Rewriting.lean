import ProductionRag.Gateway.Complete
import ProductionRag.Providers.Citations
import ProductionRag.Words

/-!
# Follow-up questions

A question that leans on earlier turns is rewritten before anything is searched: by the
model of the first provider whose circuit is closed, or by putting the previous question
in front.
-/

set_option autoImplicit false

namespace ProductionRag

open Basis

/-- One of these words, between word boundaries. -/
def wordOf (words : WordChars) (list : List String) : Regex Char :=
  .seq (list.foldr (fun word rest => .alt (letters word.toList) rest) (.char fun _ => false))
    (.boundary words.isWord)

/-- `FOLLOW_UP_RE.search`: the first half is anchored at the start. -/
def followUpRe (words : WordChars) (question : List Char) : Bool :=
  (Regex.seq (.star (.char isSpace))
      (wordOf words ["and", "also", "what about", "how about"])).starts question ||
    (Regex.seq (.boundary words.isWord) (wordOf words
      ["it", "its", "that", "those", "them", "they", "their", "this", "these"])).search question

/-- `str.split()` -/
def splitWords (text : String) : List (List Char) :=
  (text.toList.splitOnP isSpace).filter fun word => !word.isEmpty

/-- Very short questions, or ones leaning on pronouns, depend on earlier turns. -/
def looksLikeFollowUp (words : WordChars) (question : String) : Bool :=
  (splitWords question).length ≤ 3 || followUpRe words question.toList

def heuristicRewrite (words : WordChars) (question : String) (history : List ChatTurn) : String :=
  match history.reverse.find? (·.role == "user") with
  | some turn =>
    if turn.content ≠ "" ∧ looksLikeFollowUp words question then s!"{turn.content} {question}"
    else question
  | none => question

/-- One turn of the loop of `history_for_model`. -/
def keepTurn (kept : List ChatTurn) (turn : ChatTurn) : List ChatTurn :=
  if turn.role = "assistant" ∧ strip turn.content = abstention then
    if kept.getLast?.any (·.role == "user") then kept.dropLast else kept
  else if turn.role = "assistant" then
    kept ++ [⟨"assistant", String.ofList
      (stripChars (citationRe.sub (fun _ => []) turn.content.toList))⟩]
  else kept ++ [turn]

/-- The earlier turns a model should see when answering or rewriting. -/
def historyForModel (history : List ChatTurn) : List ChatTurn := history.foldl keepTurn []

def rewritePrompt : String :=
  "Rewrite the user's latest question as one standalone search query, resolving " ++
    "pronouns and references using the conversation. Reply with the query only."

/-- The first line of the reply, without quotes around it. -/
def cleanQuery (rewritten : String) : String :=
  let line := (strip rewritten).toList.takeWhile (!isLineBreak ·)
  let quoted := fun c => ['\x22', '\x27', '“', '”', '\x60'].contains c
  String.ofList (stripChars (((stripChars line).dropWhile quoted).rdropWhile quoted))

/-- What a provider asks: the questions of the gateway, and the model asked to rewrite. -/
inductive ProviderQuestion where
  | gateway (question : GatewayQuestion)
  | rewriting (provider : Nat) (messages : List (String × String))
  deriving DecidableEq

@[reducible] def ProviderAnswer : ProviderQuestion → Type
  | .gateway question => GatewayAnswer question
  | .rewriting .. => Except Raised String

abbrev ProviderDialogue (α : Type) := Dialogue ProviderQuestion ProviderAnswer α

/-- `OpenAICompatibleProvider.rewrite_query` -/
def rewriteByModel (words : WordChars) (provider : Nat) (question : String)
    (history : List ChatTurn) : ProviderDialogue String :=
  if history = [] ∨ looksLikeFollowUp words question = false then .done question
  else
    let turns := history.drop (history.length - 6)
    let transcript := String.intercalate "\n" (turns.map fun turn =>
      s!"{turn.role}: {turn.content}")
    .ask (.rewriting provider [("system", rewritePrompt),
      ("user", s!"Conversation:\n{transcript}\n\nLatest: {question}")]) fun
    | .error _ => .done (heuristicRewrite words question history)
    | .ok reply =>
      let query := cleanQuery reply
      .done (if query = "" then question else query)

namespace GatewayProvider

/-- The loop of `rewrite_query`, with the place of the next provider. -/
def rewriteFrom (words : WordChars) (question : String) (history : List ChatTurn) :
    List String → Nat → ProviderDialogue String
  | [], _ => .done (heuristicRewrite words question history)
  | _ :: rest, provider =>
    .ask (.gateway (.state provider)) fun state =>
    if state = .closed then rewriteByModel words provider question history
    else rewriteFrom words question history rest (provider + 1)

/-- `GatewayProvider.rewrite_query` -/
def rewriteQuery (gateway : GatewayProvider) (words : WordChars) (question : String)
    (history : List ChatTurn) : ProviderDialogue String :=
  rewriteFrom words question (gateway.budget.trimHistory history) gateway.providers 0

end GatewayProvider

/-- The provider of a request: the server's may be the extractive one. -/
inductive ModelProvider where
  | extractive
  | gateway (gateway : GatewayProvider)

namespace ModelProvider

def complete (provider : ModelProvider) (question : String) (context : List String)
    (history : List ChatTurn) : ProviderDialogue (Except PyError Generation) :=
  match provider with
  | .extractive => .done (.ok (ProductionRag.extractive context))
  | .gateway inner =>
    (inner.complete question context history).expand fun question =>
      .ask (.gateway question) .done

def rewriteQuery (provider : ModelProvider) (words : WordChars) (question : String)
    (history : List ChatTurn) : ProviderDialogue String :=
  match provider with
  | .extractive => .done (heuristicRewrite words question history)
  | .gateway inner => inner.rewriteQuery words question history

end ModelProvider

/-! ## When a model is asked to rewrite -/

theorem rewriteByModel_asks {words : WordChars} {provider : Nat} {question result : String}
    {history : List ChatTurn} {log : List (Exchange ProviderAnswer)}
    (trace : (rewriteByModel words provider question history).Trace log result)
    {exchange : Exchange ProviderAnswer} (member : exchange ∈ log) :
    (∃ messages, exchange.question = .rewriting provider messages) ∧ history ≠ [] ∧
      looksLikeFollowUp words question = true := by
  unfold rewriteByModel at trace
  split at trace
  · obtain ⟨rfl, _⟩ := Dialogue.trace_done.mp trace
    cases member
  · rename_i followsUp
    rw [not_or, Bool.not_eq_false] at followsUp
    obtain ⟨reply, rest, rfl, replied⟩ := Dialogue.trace_ask.mp trace
    have last : rest = [] := by
      cases reply with
      | error e => exact (Dialogue.trace_done.mp replied).1
      | ok reply => exact (Dialogue.trace_done.mp replied).1
    rw [last, List.mem_singleton] at member
    rw [member]
    exact ⟨⟨_, rfl⟩, followsUp⟩

/-- Rewriting reads the states of the circuits; a model is asked for a follow-up with earlier
turns, behind a closed circuit. -/
theorem GatewayProvider.rewriteFrom_asks {words : WordChars} {question result : String}
    {history : List ChatTurn} {names : List String} {provider : Nat}
    {log : List (Exchange ProviderAnswer)}
    (trace : (rewriteFrom words question history names provider).Trace log result)
    {exchange : Exchange ProviderAnswer} (member : exchange ∈ log) :
    (∃ place, exchange.question = .gateway (.state place)) ∨
      ((∃ place messages, exchange.question = .rewriting place messages) ∧ history ≠ [] ∧
        looksLikeFollowUp words question = true ∧
        ∃ place, (⟨.gateway (.state place), .closed⟩ : Exchange ProviderAnswer) ∈ log) := by
  induction names generalizing provider log with
  | nil =>
      obtain ⟨rfl, _⟩ := Dialogue.trace_done.mp trace
      cases member
  | cons name rest ih =>
      obtain ⟨state, later, rfl, read⟩ := Dialogue.trace_ask.mp trace
      clear trace
      rcases List.mem_cons.mp member with rfl | inLater
      · exact Or.inl ⟨provider, rfl⟩
      · split at read
        · rename_i isClosed
          obtain ⟨⟨messages, asked⟩, earlier, followsUp⟩ := rewriteByModel_asks read inLater
          rw [isClosed]
          exact Or.inr ⟨⟨provider, messages, asked⟩, earlier, followsUp, provider,
            List.mem_cons_self⟩
        · refine (ih read inLater).imp_right ?_
          rintro ⟨asked, earlier, followsUp, place, isClosed⟩
          exact ⟨asked, earlier, followsUp, place, List.mem_cons_of_mem _ isClosed⟩

end ProductionRag
