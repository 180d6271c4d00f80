import ProductionRag.Api.Answer
import ProductionRag.Gateway.Prompt

/-!
# What a request asks of a model

A question to a model comes from one of two places of `_answer`: the rewriting of a
follow-up and the completion.
-/

set_option autoImplicit false

namespace ProductionRag

open Basis

namespace ModelProvider

/-- A gateway asks what it would ask alone. -/
theorem gateway_complete_trace {gateway : GatewayProvider} {question : String}
    {context : List String} {history : List ChatTurn} {log : List (Exchange ProviderAnswer)}
    {result : Except PyError Generation} :
    ((ModelProvider.gateway gateway).complete question context history).Trace log result ↔
      ∃ inner, (gateway.complete question context history).Trace inner result ∧
        log = inner.map fun asked => ⟨.gateway asked.question, asked.answer⟩ := by
  refine Dialogue.trace_expand.trans (exists_congr fun inner => and_congr_right fun _ => ?_)
  exact Dialogue.expands_single fun exchange part => Dialogue.trace_single

theorem mem_rewriteQuery {provider : ModelProvider} {words : WordChars} {question : String}
    {history : List ChatTurn} {log : List (Exchange ProviderAnswer)} {result : String}
    (trace : (provider.rewriteQuery words question history).Trace log result)
    {exchange : Exchange ProviderAnswer} (member : exchange ∈ log) :
    ∃ gateway, provider = .gateway gateway ∧
      ((∃ place, exchange.question = .gateway (.state place)) ∨
        ((∃ place messages, exchange.question = .rewriting place messages) ∧
          gateway.budget.trimHistory history ≠ [] ∧ looksLikeFollowUp words question = true ∧
          ∃ place, (⟨.gateway (.state place), .closed⟩ : Exchange ProviderAnswer) ∈ log)) := by
  cases provider with
  | extractive =>
      obtain ⟨rfl, _⟩ := Dialogue.trace_done.mp trace
      cases member
  | gateway inner => exact ⟨inner, rfl, GatewayProvider.rewriteFrom_asks trace member⟩

end ModelProvider

section Served

variable {words : WordChars} {server : ModelProvider} {request : AnswerRequest}

theorem ofProvider_trace {α : Type} {own : Bool} {dialogue : ProviderDialogue α}
    {log : List (Exchange ServedAnswer)} {result : α} :
    (ofProvider own dialogue).Trace log result ↔
      ∃ inner, dialogue.Trace inner result ∧
        log = inner.map fun asked => ⟨.provider own asked.question, asked.answer⟩ := by
  refine Dialogue.trace_expand.trans (exists_congr fun inner => and_congr_right fun _ => ?_)
  exact Dialogue.expands_single fun exchange part => Dialogue.trace_single

/-- Where an exchange of a request comes from. -/
inductive Source (words : WordChars) (server : ModelProvider) (request : AnswerRequest)
    (abstract : List (Exchange AnswerReply)) (log : List (Exchange ServedAnswer)) :
    Exchange ServedAnswer → Prop
  | app (question : AnswerQuestion) (reply : AnswerReply question)
      (member : (⟨question, reply⟩ : Exchange AnswerReply) ∈ abstract) :
      Source words server request abstract log ⟨.app question, reply⟩
  | rewriteQuery (own : Bool) (question : String) (prior : List ChatTurn) (query : String)
      (member : (⟨.rewriteQuery own question prior, query⟩ : Exchange AnswerReply) ∈ abstract)
      (part : List (Exchange ProviderAnswer))
      (trace : ((providerOf server request own).rewriteQuery words question prior).Trace part query)
      (whole : ∀ other ∈ part,
        (⟨.provider own other.question, other.answer⟩ : Exchange ServedAnswer) ∈ log)
      (asked : ProviderQuestion) (told : ProviderAnswer asked)
      (inPart : (⟨asked, told⟩ : Exchange ProviderAnswer) ∈ part) :
      Source words server request abstract log ⟨.provider own asked, told⟩
  | complete (own : Bool) (question : String) (context : List String) (prior : List ChatTurn)
      (reply : Except PyError Generation)
      (member : (⟨.complete own question context prior, reply⟩ : Exchange AnswerReply) ∈ abstract)
      (part : List (Exchange ProviderAnswer))
      (trace : ((providerOf server request own).complete question context prior).Trace part reply)
      (asked : ProviderQuestion) (told : ProviderAnswer asked)
      (inPart : (⟨asked, told⟩ : Exchange ProviderAnswer) ∈ part) :
      Source words server request abstract log ⟨.provider own asked, told⟩

section Log

variable {abstract : List (Exchange AnswerReply)} {log : List (Exchange ServedAnswer)}

theorem Source.mem_of_app {question : AnswerQuestion} {reply : AnswerReply question}
    (source : Source words server request abstract log ⟨.app question, reply⟩) :
    (⟨question, reply⟩ : Exchange AnswerReply) ∈ abstract := by
  cases source with
  | app _ _ member => exact member

/-- The questions that the provider of a request does not answer are asked as they are. -/
theorem provided_app {question : AnswerQuestion} (isApp : question.asksProvider = false) :
    provided words server request question = .ask (.app question) .done := by
  cases question with
  | rewriteQuery => cases isApp
  | complete => cases isApp
  | _ => rfl

theorem source_of_mem
    (expands : Dialogue.Expands (provided words server request) abstract log)
    {exchange : Exchange ServedAnswer} (member : exchange ∈ log) :
    Source words server request abstract log exchange := by
  obtain ⟨⟨question, answer⟩, inAbstract, part, told, inPart, whole⟩ := expands.mem member
  cases question with
  | rewriteQuery own question prior =>
      obtain ⟨inner, trace, rfl⟩ := ofProvider_trace.mp told
      obtain ⟨asked, inInner, rfl⟩ := List.mem_map.mp inPart
      exact .rewriteQuery own question prior answer inAbstract inner trace
        (fun other inside => whole _ (List.mem_map_of_mem inside)) _ _ inInner
  | complete own question context prior =>
      obtain ⟨inner, trace, rfl⟩ := ofProvider_trace.mp told
      obtain ⟨asked, inInner, rfl⟩ := List.mem_map.mp inPart
      exact .complete own question context prior answer inAbstract inner trace _ _ inInner
  | _ =>
      have single := Dialogue.trace_single.mp told
      rw [single, List.mem_singleton] at inPart
      rw [inPart]
      exact .app _ _ inAbstract

theorem app_mem (expands : Dialogue.Expands (provided words server request) abstract log)
    {question : AnswerQuestion} {reply : AnswerReply question}
    (isApp : question.asksProvider = false)
    (member : (⟨question, reply⟩ : Exchange AnswerReply) ∈ abstract) :
    (⟨.app question, reply⟩ : Exchange ServedAnswer) ∈ log := by
  obtain ⟨part, told, whole⟩ := expands.part member
  rw [provided_app isApp] at told
  obtain ⟨_, rest, rfl, ended⟩ := Dialogue.trace_ask.mp told
  obtain ⟨rfl, rfl⟩ := Dialogue.trace_done.mp ended
  exact whole _ List.mem_cons_self

end Log

/-- A served request is a run of `_answer`, and every exchange has its source there. -/
theorem served_run {isChat : Bool} {log : List (Exchange ServedAnswer)} {result : Answered}
    (trace : (served words server request isChat).Trace log result) :
    ∃ abstract, (answer request isChat).Trace abstract result ∧
      Dialogue.Expands (provided words server request) abstract log ∧
      ∀ exchange ∈ log, Source words server request abstract log exchange := by
  obtain ⟨abstract, answered, expands⟩ := Dialogue.trace_expand.mp trace
  exact ⟨abstract, answered, expands, fun _ => source_of_mem expands⟩

end Served

end ProductionRag
