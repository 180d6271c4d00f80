import ProductionRag.Api.Served
import ProductionRag.Providers.Numerals

/-!
# Sources the model was not shown

The gateway packs the sources that fit, while the citations of the answer are checked
against all of the evidence.
-/

set_option autoImplicit false

namespace ProductionRag

open Basis

/-- The sources of a prompt, before packing. -/
def sourceTexts (evidence : List Ranked) : List String := evidence.map (·.1.text)

theorem sourceTexts_length (evidence : List Ranked) :
    (sourceTexts evidence).length = evidence.length :=
  List.length_map _

/-- Nothing is cited that a provider called for the answer was not shown. -/
def CitesShown (gateway : GatewayProvider) (evidence : List Ranked) : Prop :=
  ∀ words server request isChat log response query own provider attempt question context history
      reply,
    providerOf server request own = .gateway gateway →
    (served words server request isChat).Trace log (.ok response) →
    (⟨.app (.retrieve request.principal query), .ok evidence⟩ : Exchange ServedAnswer) ∈ log →
    (⟨.provider own (.gateway (.call provider attempt question context history)), reply⟩ :
      Exchange ServedAnswer) ∈ log →
    ∀ citation ∈ response.citations, citation.sourceNumber ≤ context.length

/-! ## What a run cites and shows -/

theorem grounded_bounds {evidence : List Ranked} {generation : Generation} {text : String}
    {used : List Nat} (isGrounded : grounded evidence generation = .ok (text, used)) {number : Nat}
    (member : number ∈ used) :
    number ≤ evidence.length ∧ number < 10 ^ maxIntDigits := by
  obtain ⟨candidate, _, later⟩ := Except.bind_ok_iff.mp isGrounded
  obtain ⟨cited, cites, same⟩ := Except.bind_ok_iff.mp later
  obtain ⟨_, rfl⟩ := Prod.mk.inj (Except.ok.inj same)
  obtain ⟨inEvidence, short⟩ := citedSources_bounds cites member
  exact ⟨Int.ofNat_le.mp inEvidence, short⟩

/-- A request that retrieves evidence consults its provider about this evidence only. -/
theorem RequestRun.of_retrieved {request : AnswerRequest} {isChat : Bool}
    {log : List (Exchange AnswerReply)} {result : Answered}
    (run : RequestRun request isChat log result) {principal : Principal} {query : String}
    {evidence : List Ranked}
    (member : (⟨.retrieve principal query, .ok evidence⟩ : Exchange AnswerReply) ∈ log) :
    (∃ question searchQuery session prior own rest,
      AnswerRun request.principal session question searchQuery prior own evidence rest result) ∧
    ∀ own question context prior reply,
      (⟨.complete own question context prior, reply⟩ : Exchange AnswerReply) ∈ log →
        context = sourceTexts evidence := by
  cases run with
  | refused log error early =>
      rcases early with rfl | ⟨_, _, _, _, rfl⟩
      · cases member
      · cases congrArg Exchange.question (List.mem_singleton.mp member)
  | unretrieved user asked question searchQuery session prior before e error brought isText valid
      prepared =>
      rcases List.mem_append.mp member with inBefore | last
      · cases (prepared.asked inBefore rfl).2.2
      · cases List.mem_singleton.mp last
  | retrieved user asked question searchQuery session prior before rest evidence' _ brought isText
      valid prepared run =>
      have same : evidence' = evidence := by
        rcases List.mem_append.mp member with inBefore | later
        · cases (prepared.asked inBefore rfl).2.2
        · rcases List.mem_cons.mp later with same | inRest
          · cases same
            rfl
          · cases run.asked inRest rfl
      subst same
      refine ⟨⟨question, searchQuery, session, prior, user.isSome, rest, run⟩, ?_⟩
      intro own question' context prior' reply completes
      rcases List.mem_append.mp completes with inBefore | later
      · cases (prepared.asked inBefore rfl).2.2
      · rcases List.mem_cons.mp later with same | inRest
        · cases congrArg Exchange.question same
        · injection run.asked inRest rfl

section Runs

variable {words : WordChars} {server : ModelProvider} {request : AnswerRequest} {isChat : Bool}
  {log : List (Exchange ServedAnswer)} {result : Answered} {principal : Principal}
  {query : String} {evidence : List Ranked}

/-- What a provider is shown are the packed sources. -/
theorem served_shows {gateway : GatewayProvider} {own : Bool} {provider attempt : Nat}
    {question : String} {context : List String} {history : List ChatTurn}
    {reply : Except Raised Generation} (inUse : providerOf server request own = .gateway gateway)
    (trace : (served words server request isChat).Trace log result)
    (retrieved : (⟨.app (.retrieve principal query), .ok evidence⟩ : Exchange ServedAnswer) ∈ log)
    (called : (⟨.provider own (.gateway (.call provider attempt question context history)),
      reply⟩ : Exchange ServedAnswer) ∈ log) :
    gateway.providers ≠ [] ∧ gateway.maxAttempts ≠ 0 ∧
      context = gateway.budget.packContext (sourceTexts evidence) := by
  obtain ⟨abstract, answered, _, sources⟩ := served_run trace
  have evidenceOf := (sources _ retrieved).mem_of_app
  cases sources _ called with
  | rewriteQuery _ question prior rewritten member part trace whole _ _ inPart =>
      obtain ⟨_, _, ⟨_, same⟩ | ⟨⟨_, _, same⟩, _⟩⟩ := ModelProvider.mem_rewriteQuery trace inPart
      · cases same
      · cases same
  | complete _ question context prior generated member part trace _ _ inPart =>
      rw [inUse] at trace
      obtain ⟨inner, completed, rfl⟩ := ModelProvider.gateway_complete_trace.mp trace
      obtain ⟨⟨asked, answer⟩, inInner, is⟩ := List.mem_map.mp inPart
      cases is
      obtain ⟨some, tries, _, rfl, _⟩ := GatewayProvider.complete_shows completed _ inInner
      obtain rfl := ((answer_run answered).of_retrieved evidenceOf).2 _ _ _ _ _ member
      exact ⟨some, tries, rfl⟩

/-- What is cited is evidence, with a number that `int` reads. -/
theorem served_cites {response : AnswerResponse}
    (trace : (served words server request isChat).Trace log (.ok response))
    (retrieved : (⟨.app (.retrieve principal query), .ok evidence⟩ : Exchange ServedAnswer) ∈ log)
    {citation : Citation} (member : citation ∈ response.citations) :
    citation.sourceNumber ≤ evidence.length ∧ citation.sourceNumber < 10 ^ maxIntDigits := by
  obtain ⟨abstract, answered, _, sources⟩ := served_run trace
  have evidenceOf := (sources _ retrieved).mem_of_app
  obtain ⟨_, _, _, _, _, _, run⟩ := ((answer_run answered).of_retrieved evidenceOf).1
  obtain ⟨_, _, _, number, _, isGrounded, inUsed, isCited⟩ := run.cited member
  rw [(cite_ok isCited).1]
  exact grounded_bounds isGrounded inUsed

end Runs

/-! ## Any number can be cited -/

def plainRequest : AnswerRequest where
  principal := ⟨"t", "u", []⟩
  question := some "q"

/-- An answer that is nothing but the number of a source. -/
def numberOnly (number : Nat) : Generation where
  text := String.ofList (markerOf number)
  model := "m"

theorem exists_number_priced (gateway : GatewayProvider) (number : Nat) :
    ∃ priced, gateway.priced (numberOnly number) = .ok priced := by
  refine (gateway.priced_ok_iff _).mpr fun _ => ?_
  have zero : -floatLimit < 0 ∧ 0 < floatLimit := ⟨neg_neg_of_pos floatLimit_pos, floatLimit_pos⟩
  exact ⟨zero, zero⟩

/-- Whatever fits into the prompt, a provider can answer with the number of any source. -/
theorem exists_citing_run {gateway : GatewayProvider} {evidence : List Ranked} {number : Nat}
    (some : gateway.providers ≠ []) (tries : gateway.maxAttempts ≠ 0)
    (valid : inRange evidence.length number = true) (short : number < 10 ^ maxIntDigits) :
    ∃ log response citation reply,
      (served .asciiWords (.gateway gateway) plainRequest false).Trace log (.ok response) ∧
      (⟨.app (.retrieve plainRequest.principal "q"), .ok evidence⟩ :
        Exchange ServedAnswer) ∈ log ∧
      (⟨.provider false (.gateway (.call 0 1 "q"
        (gateway.budget.packContext (sourceTexts evidence)) (gateway.budget.trimHistory []))),
        reply⟩ : Exchange ServedAnswer) ∈ log ∧
      citation ∈ response.citations ∧ citation.sourceNumber = number := by
  obtain ⟨priced, isPriced⟩ := exists_number_priced gateway number
  have isGrounded : grounded evidence priced =
      .ok (String.ofList (markerOf number), [number]) := by
    obtain ⟨strips, cites⟩ := cites_markerOf short valid
    rw [grounded, GatewayProvider.priced_text isPriced, numberOnly, strips]
    simp only [bind, Except.bind, cites]
    rfl
  obtain ⟨positive, inside⟩ : 1 ≤ number ∧ number ≤ evidence.length := by
    simpa [inRange] using valid
  obtain ⟨entry, found⟩ : ∃ entry, evidence[number - 1]? = Option.some entry :=
    ⟨_, List.getElem?_eq_getElem (by omega)⟩
  obtain ⟨citation, isCited⟩ : ∃ citation, cite evidence number = .ok citation := by
    rw [cite, found]
    exact ⟨_, rfl⟩
  have citesAll : [number].mapM (cite evidence) = .ok [citation] := by
    rw [List.mapM_cons, isCited]
    rfl
  have notEmpty : evidence.isEmpty = false := by
    rw [List.isEmpty_eq_false_iff]
    rintro rfl
    exact absurd (positive.trans inside) (by decide)
  have isValid : validateQuery 2000 "q" plainRequest.principal.tenantId = .ok "q" := by
    decide +kernel
  have starts : answer plainRequest false =
      answerPrior plainRequest.principal none "q" [] false := by
    rw [answer]
    simp only [plainRequest]
    rfl
  have answered : (answer plainRequest false).Trace
      [⟨.retrieve plainRequest.principal "q", .ok evidence⟩, ⟨.remaining "t", none⟩,
        ⟨.complete false "q" (sourceTexts evidence) [], .ok priced⟩,
        ⟨.spend "t" (priced.promptTokens + priced.completionTokens), ()⟩]
      (.ok { answer := String.ofList (markerOf number), grounded := true, citations := [citation]
             generation := Option.some (generationInfo false priced) }) := by
    rw [starts, answerPrior, isValid]
    refine .ask ?_
    simp only [answerFrom, notEmpty]
    refine .ask (.ask (.ask ?_))
    simp only [afterGeneration]
    rw [isGrounded]
    simp only [respond, citesAll]
    exact .done _
  have completed := ModelProvider.gateway_complete_trace.mpr ⟨_,
    gateway.complete_answers "q" (sourceTexts evidence) [] some tries isPriced, rfl⟩
  refine ⟨_, _, citation, .ok (numberOnly number),
    Dialogue.trace_expand.mpr ⟨_, answered, .cons (.ask (.done _)) (.cons (.ask (.done _))
      (.cons (ofProvider_trace.mpr ⟨_, completed, rfl⟩) (.cons (.ask (.done _)) .nil)))⟩, ?_, ?_,
    List.mem_singleton_self _, ?_⟩
  · simp
  · simp
  · exact (cite_ok isCited).1

/-- Exactly the gateways that pack everything, or call nobody, never let an unshown source be
cited. -/
theorem cites_shown_iff (gateway : GatewayProvider) (evidence : List Ranked) :
    CitesShown gateway evidence ↔
      gateway.providers = [] ∨ gateway.maxAttempts = 0 ∨ evidence.length ≤ 1 ∨
        Budget.tokens (sourceTexts evidence) ≤ gateway.budget.maxContextTokens ∨
        10 ^ maxIntDigits ≤
          (gateway.budget.packContext (sourceTexts evidence)).length + 1 := by
  have packsAll := gateway.budget.packContext_all_iff (sourceTexts evidence)
  rw [sourceTexts_length] at packsAll
  constructor
  · intro shown
    by_contra otherwise
    simp only [not_or, not_le] at otherwise
    obtain ⟨some, tries, several, tooLong, short⟩ := otherwise
    have fewer : (gateway.budget.packContext (sourceTexts evidence)).length < evidence.length := by
      refine lt_of_le_of_ne ?_ fun all => ?_
      · exact (gateway.budget.packContext_length_le _).trans_eq (sourceTexts_length evidence)
      · rcases packsAll.mp all with single | fits
        · exact absurd several (Nat.not_lt.mpr single)
        · exact absurd tooLong (not_lt.mpr fits)
    obtain ⟨log, response, citation, reply, trace, retrieved, called, member, same⟩ :=
      @exists_citing_run gateway evidence _ some tries (by simp [inRange]; omega) short
    have inPrompt := shown _ _ _ _ _ _ _ _ _ _ _ _ _ _ rfl trace retrieved called _ member
    rw [same] at inPrompt
    exact absurd inPrompt (Nat.not_succ_le_self _)
  · intro condition words server request isChat log response query own provider attempt question
      context history reply inUse trace retrieved called citation member
    obtain ⟨some, tries, rfl⟩ := served_shows inUse trace retrieved called
    obtain ⟨inEvidence, short⟩ := served_cites trace retrieved member
    rcases condition with none | never | single | fits | long
    · exact absurd none some
    · exact absurd never tries
    · rwa [packsAll.mpr (Or.inl single)]
    · rwa [packsAll.mpr (Or.inr fits)]
    · exact Nat.le_of_lt_succ (short.trans_le long)

/-- Two texts of two tokens each. -/
def twoSources : List Ranked :=
  [({ text := "first", documentId := "d", index := 0, tenantId := "t", source := "a" }, 1),
    ({ text := "second", documentId := "d", index := 1, tenantId := "t", source := "a" }, 1)]

/-- With room for three tokens the second source is not shown, and cited. -/
theorem second_source_cited :
    ¬ CitesShown { providers := ["m"], budget := { maxContextTokens := 3 } } twoSources := by
  intro shown
  have short : 2 < 10 ^ maxIntDigits :=
    lt_of_lt_of_le (by decide) (Nat.pow_le_pow_right (by decide : 0 < 10)
      (by decide : 1 ≤ maxIntDigits))
  obtain ⟨log, response, citation, reply, trace, retrieved, called, member, same⟩ :=
    @exists_citing_run { providers := ["m"], budget := { maxContextTokens := 3 } } twoSources 2
      (List.cons_ne_nil _ _) (by decide) (by decide) short
  have inPrompt := shown _ _ _ _ _ _ _ _ _ _ _ _ _ _ rfl trace retrieved called _ member
  rw [same] at inPrompt
  revert inPrompt
  decide +kernel

end ProductionRag
