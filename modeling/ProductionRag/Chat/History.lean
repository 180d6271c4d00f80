import ProductionRag.Api.Answer
import ProductionRag.Basis.Pairs
import ProductionRag.Basis.Table

/-!
# Chat histories

A chat request adds its question and the answer to the history of its session, in one
call.  `ChatHistoryStore` keeps the newest messages of a session in a list behind a
lock, so each call is one step.
-/

set_option autoImplicit false

namespace ProductionRag

open Basis

structure ChatSession where
  tenantId : String
  userId : String
  sessionId : String
  deriving DecidableEq

/-- What one request adds to the history. -/
structure ChatExchange where
  question : String
  answer : String
  deriving DecidableEq

namespace ChatExchange

def pair (exchange : ChatExchange) : ChatTurn × ChatTurn :=
  (⟨"user", exchange.question⟩, ⟨"assistant", exchange.answer⟩)

/-- The turns `_answer` appends. -/
def turns (exchange : ChatExchange) : List ChatTurn := [exchange.pair.1, exchange.pair.2]

end ChatExchange

/-- The history holds the exchanges of at most `maxTurns` requests, each one whole;
`written` says which request wrote which exchange. -/
def WholeExchanges (written : Nat → ChatExchange → Prop) (maxTurns : Nat)
    (history : List ChatTurn) : Prop :=
  ∃ exchanges : List (Nat × ChatExchange),
    (exchanges.map Prod.fst).Nodup ∧ (∀ entry ∈ exchanges, written entry.1 entry.2) ∧
      history = pairRows (exchanges.map fun entry => entry.2.pair) ∧
      exchanges.length ≤ maxTurns

namespace WholeExchanges

variable {written later : Nat → ChatExchange → Prop} {maxTurns : Nat} {history : List ChatTurn}

theorem nil : WholeExchanges written maxTurns [] :=
  ⟨[], List.nodup_nil, List.forall_mem_nil _, rfl, Nat.zero_le _⟩

theorem mono (grows : ∀ tag exchange, written tag exchange → later tag exchange)
    (whole : WholeExchanges written maxTurns history) : WholeExchanges later maxTurns history := by
  obtain ⟨exchanges, nodup, all, isHistory, atMost⟩ := whole
  exact ⟨exchanges, nodup, fun entry member => grows _ _ (all entry member), isHistory, atMost⟩

/-- One more exchange at the end, and the oldest ones dropped. -/
theorem push (grows : ∀ tag exchange, written tag exchange → later tag exchange)
    (whole : WholeExchanges written maxTurns history) {tag : Nat} {exchange : ChatExchange}
    (isWritten : later tag exchange) (fresh : ∀ other, ¬ written tag other) :
    WholeExchanges later maxTurns
      ((history ++ exchange.turns).drop ((history ++ exchange.turns).length - 2 * maxTurns)) := by
  obtain ⟨exchanges, nodup, all, rfl, _⟩ := whole
  let grown := exchanges ++ [(tag, exchange)]
  let kept := grown.drop (grown.length - maxTurns)
  have isKept : kept.Sublist grown := List.drop_sublist _ _
  have appended : pairRows (exchanges.map fun entry => entry.2.pair) ++ exchange.turns =
      pairRows (grown.map fun entry => entry.2.pair) := by
    rw [List.map_append, pairRows_append]
    rfl
  refine ⟨kept, ?_, ?_, ?_, ?_⟩
  · refine (isKept.map Prod.fst).nodup ?_
    rw [List.map_append, List.map_singleton, List.nodup_append]
    refine ⟨nodup, List.nodup_singleton _, ?_⟩
    intro earlier member last isLast same
    obtain ⟨entry, inExchanges, rfl⟩ := List.mem_map.mp member
    have sameTag : entry.1 = tag := same.trans (List.mem_singleton.mp isLast)
    exact fresh entry.2 (sameTag ▸ all entry inExchanges)
  · intro entry member
    rcases List.mem_append.mp (isKept.subset member) with earlier | last
    · exact grows _ _ (all entry earlier)
    · rw [List.mem_singleton.mp last]
      exact isWritten
  · rw [appended, length_pairRows, ← Nat.mul_sub, drop_pairRows, List.length_map, List.map_drop]
  · rw [List.length_drop]
    exact Nat.sub_le_of_le_add (by omega)

/-- The second turn of a history answers the first. -/
theorem second_role (whole : WholeExchanges written maxTurns history) {first second : ChatTurn}
    {rest : List ChatTurn} (isHistory : history = first :: second :: rest) :
    second.role = "assistant" := by
  obtain ⟨exchanges, _, _, isPairs, _⟩ := whole
  cases exchanges with
  | nil =>
      rw [isHistory] at isPairs
      cases isPairs
  | cons entry others =>
      rw [isHistory] at isPairs
      obtain ⟨rfl, _⟩ := List.cons.inj (List.cons.inj isPairs).2
      rfl

end WholeExchanges

/-! ## What a request appends -/

def AnswerQuestion.appends : AnswerQuestion → Bool
  | .append .. => true
  | _ => false

/-- The log appends nothing, or one whole exchange at its end, and then the request is
answered. -/
def AppendsOnce (principal : Principal) (log : List (Exchange AnswerReply)) (result : Answered) :
    Prop :=
  ∃ before after, log = before ++ after ∧
    (∀ asked ∈ before, asked.question.appends = false) ∧
    (after = [] ∨ ∃ sessionId exchange messages response,
      after = [⟨.append principal.tenantId principal.userId sessionId
          (ChatExchange.turns exchange), ()⟩,
        ⟨.history principal.tenantId principal.userId sessionId, messages⟩] ∧
      result = .ok response)

section Runs

variable {principal : Principal} {session : Option String} {question searchQuery : String}
  {prior : List ChatTurn} {own : Bool} {evidence : List Ranked}
  {log before : List (Exchange AnswerReply)} {result : Answered}

theorem AppendsOnce.none (quiet : ∀ asked ∈ log, asked.question.appends = false) :
    AppendsOnce principal log result :=
  ⟨log, [], (List.append_nil log).symm, quiet, Or.inl rfl⟩

theorem AppendsOnce.prepend (quiet : ∀ asked ∈ before, asked.question.appends = false)
    (once : AppendsOnce principal log result) : AppendsOnce principal (before ++ log) result := by
  obtain ⟨early, after, rfl, earlyQuiet, last⟩ := once
  exact ⟨before ++ early, after, (List.append_assoc ..).symm,
    List.forall_mem_append.mpr ⟨quiet, earlyQuiet⟩, last⟩

theorem respond_appends {generation : Option Generation} {text : String} {used : List Nat}
    (trace : (respond principal session question searchQuery own evidence generation text
      used).Trace log result) : AppendsOnce principal log result := by
  unfold respond at trace
  split at trace
  · obtain ⟨rfl, _⟩ := Dialogue.trace_done.mp trace
    exact .none (List.forall_mem_nil _)
  · cases session with
    | none =>
        obtain ⟨rfl, _⟩ := Dialogue.trace_done.mp trace
        exact .none (List.forall_mem_nil _)
    | some sessionId =>
        obtain ⟨_, _, rfl, appended⟩ := Dialogue.trace_ask.mp trace
        obtain ⟨messages, _, rfl, counted⟩ := Dialogue.trace_ask.mp appended
        obtain ⟨rfl, rfl⟩ := Dialogue.trace_done.mp counted
        exact ⟨[], _, rfl, List.forall_mem_nil _,
          Or.inr ⟨sessionId, ⟨question, text⟩, messages, _, rfl, rfl⟩⟩

theorem Admitted.appends {tenantId : String} {checks : List (Exchange AnswerReply)}
    (admitted : Admitted own tenantId checks) :
    ∀ asked ∈ checks, asked.question.appends = false := by
  rcases admitted with ⟨_, rfl⟩ | ⟨_, left, rfl, _⟩
  · exact List.forall_mem_nil _
  · exact List.forall_mem_singleton.mpr rfl

theorem spent_appends (own : Bool) (tenantId : String) (generation : Generation) :
    ∀ asked ∈ spent own tenantId generation, asked.question.appends = false := by
  rw [spent]
  split
  · exact List.forall_mem_nil _
  · exact List.forall_mem_singleton.mpr rfl

theorem AnswerRun.appends
    (run : AnswerRun principal session question searchQuery prior own evidence log result) :
    AppendsOnce principal log result := by
  cases run with
  | abstained _ _ _ trace => exact respond_appends trace
  | exhausted left seconds _ _ => exact .none (by simp [AnswerQuestion.appends])
  | failed checks e admitted =>
      exact .none (List.forall_mem_append.mpr
        ⟨admitted.appends, List.forall_mem_singleton.mpr rfl⟩)
  | unreadable checks generation e admitted _ =>
      exact .none (List.forall_mem_append.mpr
        ⟨admitted.appends, List.forall_mem_cons.mpr ⟨rfl, spent_appends own principal.tenantId _⟩⟩)
  | answered checks generation text used rest _ admitted _ trace =>
      rw [← List.cons_append, ← List.append_assoc]
      exact (respond_appends trace).prepend (List.forall_mem_append.mpr
        ⟨admitted.appends, List.forall_mem_cons.mpr ⟨rfl, spent_appends own principal.tenantId _⟩⟩)

theorem Prepared.appends {request : AnswerRequest} {isChat : Bool}
    (prepared : Prepared request isChat own question session prior searchQuery before) :
    ∀ asked ∈ before, asked.question.appends = false := by
  cases prepared with
  | query => exact List.forall_mem_nil _
  | first => exact List.forall_mem_singleton.mpr rfl
  | later => simp [AnswerQuestion.appends]

end Runs

/-- A request appends at most one exchange, its own, and only when it is answered. -/
theorem answer_appends {request : AnswerRequest} {isChat : Bool}
    {log : List (Exchange AnswerReply)} {result : Answered}
    (trace : (answer request isChat).Trace log result) :
    AppendsOnce request.principal log result := by
  cases answer_run trace with
  | refused _ error early =>
      rcases early with rfl | ⟨_, _, _, _, rfl⟩
      · exact .none (List.forall_mem_nil _)
      · exact .none (List.forall_mem_singleton.mpr rfl)
  | unretrieved user asked question searchQuery session prior before e error _ _ _ prepared =>
      exact .none (List.forall_mem_append.mpr
        ⟨prepared.appends, List.forall_mem_singleton.mpr rfl⟩)
  | retrieved user asked question searchQuery session prior before rest evidence _ _ _ _ prepared
      run =>
      rw [List.append_cons]
      exact run.appends.prepend (List.forall_mem_append.mpr
        ⟨prepared.appends, List.forall_mem_singleton.mpr rfl⟩)

/-! ## The in-memory store -/

structure ChatHistoryStore where
  maxTurns : Nat
  positive : 0 < maxTurns
  messages : Table ChatSession (List ChatTurn)
  deriving DecidableEq

inductive ChatCall where
  | get (session : ChatSession)
  | append (session : ChatSession) (exchange : ChatExchange)
  deriving DecidableEq

namespace ChatHistoryStore

/-- `__init__` -/
def make (maxTurns : Int) : Except PyError ChatHistoryStore :=
  if positive : 0 < maxTurns then
    .ok { maxTurns := maxTurns.toNat, positive := by omega, messages := .empty }
  else .error (.valueError "max_turns must be positive")

theorem make_ok {maxTurns : Nat} {store : ChatHistoryStore}
    (made : make maxTurns = .ok store) :
    store.maxTurns = maxTurns ∧ ∀ session, (store.messages.find? session).getD [] = [] := by
  unfold make at made
  split at made
  · obtain rfl := Except.ok.inj made
    exact ⟨Int.toNat_natCast _, fun _ => rfl⟩
  · cases made

def maxMessages (store : ChatHistoryStore) : Nat := 2 * store.maxTurns

/-- The messages of a session; the dictionary makes an empty list for a new one. -/
def messagesOf (store : ChatHistoryStore) (session : ChatSession) : List ChatTurn :=
  (store.messages.find? session).getD []

def get (store : ChatHistoryStore) (session : ChatSession) : List ChatTurn × ChatHistoryStore :=
  (store.messagesOf session,
    { store with messages := store.messages.set session (store.messagesOf session) })

/-- `del messages[: -self.max_messages]` -/
def append (store : ChatHistoryStore) (session : ChatSession) (turns : List ChatTurn) :
    ChatHistoryStore :=
  let messages := store.messagesOf session ++ turns
  { store with
    messages := store.messages.set session (messages.drop (messages.length - store.maxMessages)) }

def step (store : ChatHistoryStore) : ChatCall → ChatHistoryStore
  | .get session => (store.get session).2
  | .append session exchange => store.append session exchange.turns

def run (store : ChatHistoryStore) (calls : List ChatCall) : ChatHistoryStore :=
  calls.foldl step store

theorem messagesOf_get (store : ChatHistoryStore) (session other : ChatSession) :
    (store.get session).2.messagesOf other = store.messagesOf other := by
  simp only [messagesOf, get, Table.find?_set]
  split
  · rename_i same
    rw [same]
    rfl
  · rfl

theorem messagesOf_append (store : ChatHistoryStore) (session other : ChatSession)
    (turns : List ChatTurn) :
    (store.append session turns).messagesOf other =
      if other = session then
        (store.messagesOf session ++ turns).drop
          ((store.messagesOf session ++ turns).length - store.maxMessages)
      else store.messagesOf other := by
  simp only [append]
  rw [messagesOf, Table.find?_set]
  split
  · rfl
  · rfl

/-- The calls of a run that append an exchange to a session. -/
def written (session : ChatSession) (calls : List ChatCall) (place : Nat)
    (exchange : ChatExchange) : Prop :=
  calls[place]? = some (.append session exchange)

theorem maxTurns_run (store : ChatHistoryStore) (calls : List ChatCall) :
    (store.run calls).maxTurns = store.maxTurns := by
  induction calls generalizing store with
  | nil => rfl
  | cons call rest ih =>
      rw [run, List.foldl_cons]
      cases call with
      | get session => exact ih _
      | append session exchange => exact ih _

theorem run_append (store : ChatHistoryStore) (past : List ChatCall) (call : ChatCall) :
    store.run (past ++ [call]) = step (store.run past) call := by
  rw [run, List.foldl_append]
  rfl

theorem written_snoc {session : ChatSession} {past : List ChatCall} {call : ChatCall}
    {place : Nat} {exchange : ChatExchange} (earlier : written session past place exchange) :
    written session (past ++ [call]) place exchange := by
  obtain ⟨inside, _⟩ := List.getElem?_eq_some_iff.mp earlier
  rw [written, List.getElem?_append_left inside]
  exact earlier

/-- One call: the exchange it appends is new, and trimming drops whole exchanges. -/
theorem step_wholeExchanges {store : ChatHistoryStore} {past : List ChatCall}
    {session : ChatSession}
    (whole : WholeExchanges (written session past) store.maxTurns (store.messagesOf session))
    (call : ChatCall) :
    WholeExchanges (written session (past ++ [call])) store.maxTurns
      ((step store call).messagesOf session) := by
  cases call with
  | get other =>
      rw [step, messagesOf_get]
      exact whole.mono fun _ _ => written_snoc
  | append other exchange =>
      rw [step, messagesOf_append]
      split
      · rename_i same
        subst same
        apply whole.push (fun _ _ => written_snoc) (List.getElem?_concat_length)
        intro _ earlier
        exact Nat.lt_irrefl _ (List.getElem?_eq_some_iff.mp earlier).1
      · exact whole.mono fun _ _ => written_snoc

theorem run_wholeExchanges {store : ChatHistoryStore} {session : ChatSession}
    (fresh : store.messagesOf session = []) (calls : List ChatCall) :
    WholeExchanges (written session calls) store.maxTurns
      ((store.run calls).messagesOf session) := by
  induction calls using List.reverseRecOn with
  | nil =>
      rw [run, List.foldl_nil, fresh]
      exact .nil
  | append_singleton past call ih =>
      rw [← maxTurns_run store past] at ih
      rw [run_append, ← maxTurns_run store past]
      exact step_wholeExchanges ih call

end ChatHistoryStore

end ProductionRag
