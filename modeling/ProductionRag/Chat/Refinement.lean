import ProductionRag.Basis.Mealy
import ProductionRag.Basis.Query
import ProductionRag.Chat.Postgres

/-!
# One contract for both histories

`PostgresChatHistory` has the contract of `ChatHistoryStore`.  An append is a transaction of
several statements, and the appends of other sessions draw their ids in between.  As long as the
calls of one session come one after the other, PostgreSQL answers like the store in memory to
which each append comes whole, when it commits.
-/

set_option autoImplicit false

namespace ProductionRag

open Basis

namespace ChatHistoryStore

variable (store : ChatHistoryStore) (session : ChatSession)

def clear : ChatHistoryStore := { store with messages := store.messages.erase session }

theorem messagesOf_clear (other : ChatSession) :
    (store.clear session).messagesOf other =
      if other = session then [] else store.messagesOf other := by
  rw [messagesOf, clear, Table.find?_erase]
  split
  · rfl
  · rfl

end ChatHistoryStore

/-- The statements of `append`, and the calls that are a single statement. -/
inductive HistoryEvent where
  | transaction (event : ChatEvent)
  | get (session : ChatSession)
  | clear (session : ChatSession)
  deriving DecidableEq

/-- `get` returns the messages, the other calls return nothing. -/
abbrev HistoryAnswer := Except PyError (Option (List ChatTurn))

/-- The store in memory, to which an append comes when it commits. -/
structure AtomicHistory where
  store : ChatHistoryStore
  begun : Table Nat (ChatSession × ChatExchange)

namespace AtomicHistory

def step (history : AtomicHistory) : HistoryEvent → HistoryAnswer × AtomicHistory
  | .transaction (.begin xid session exchange) =>
    (.ok none, { history with begun := history.begun.set xid (session, exchange) })
  | .transaction (.insert _) => (.ok none, history)
  | .transaction (.trim _) => (.ok none, history)
  | .transaction (.commit xid) =>
    match history.begun.find? xid with
    | none => (.ok none, history)
    | some (session, exchange) =>
      (.ok none, { store := history.store.append session exchange.turns
                   begun := history.begun.erase xid })
  | .transaction (.abort xid) =>
    (.ok none, { history with begun := history.begun.erase xid })
  | .get session =>
    (.ok (some (history.store.get session).1),
      { history with store := (history.store.get session).2 })
  | .clear session => (.ok none, { history with store := history.store.clear session })

def machine : Mealy AtomicHistory HistoryEvent HistoryAnswer := ⟨step⟩

end AtomicHistory

namespace ChatMessages

/-- `DELETE` -/
def cleared (messages : ChatMessages) (session : ChatSession) : ChatMessages :=
  { messages with
    rows := messages.rows.filter fun row => !(messages.sees none row && row.inSession session) }

def clear (messages : ChatMessages) (session : ChatSession) : Except PyError ChatMessages := do
  setTenant session.tenantId
  return messages.cleared session

def answer (maxMessages : Nat) (messages : ChatMessages) :
    HistoryEvent → HistoryAnswer × ChatMessages
  | .transaction event => (.ok none, (step maxMessages messages event).getD messages)
  | .get session => ((messages.get maxMessages session).map some, messages)
  | .clear session =>
    match messages.clear session with
    | .ok next => (.ok none, next)
    | .error e => (.error e, messages)

def machine (maxMessages : Nat) : Mealy ChatMessages HistoryEvent HistoryAnswer :=
  ⟨answer maxMessages⟩

/-- No append of the session is open. -/
def Quiet (messages : ChatMessages) (session : ChatSession) : Prop :=
  ∀ entry ∈ messages.appends.entries, entry.2.session ≠ session

instance (messages : ChatMessages) (session : ChatSession) : Decidable (messages.Quiet session) :=
  inferInstanceAs (Decidable (∀ entry ∈ messages.appends.entries, entry.2.session ≠ session))

/-- The session that the statement must have for itself. -/
def claims : HistoryEvent → Option ChatSession
  | .transaction (.begin _ session _) => some session
  | .clear session => some session
  | _ => none

/-- The database takes the statement. -/
def Accepts (maxMessages : Nat) (messages : ChatMessages) : HistoryEvent → Prop
  | .transaction event => (step maxMessages messages event).isSome = true
  | .get session => setTenant session.tenantId = .ok ()
  | .clear session => setTenant session.tenantId = .ok ()

instance (maxMessages : Nat) (messages : ChatMessages) (event : HistoryEvent) :
    Decidable (messages.Accepts maxMessages event) := by
  unfold Accepts
  split <;> infer_instance

/-- Appends and clears of one session come one after the other. -/
def InTurn (maxMessages : Nat) (messages : ChatMessages) (event : HistoryEvent) : Prop :=
  messages.Accepts maxMessages event ∧ ∀ session ∈ claims event, messages.Quiet session

instance (maxMessages : Nat) (messages : ChatMessages) (event : HistoryEvent) :
    Decidable (messages.InTurn maxMessages event) :=
  inferInstanceAs (Decidable (_ ∧ _))

def rowsOf (messages : ChatMessages) (session : ChatSession) : List ChatRow :=
  messages.rows.filter fun row => row.session = session

/-! ## What the rows of a session are -/

/-- The append is the only one of its session; its rows come after those that are stored. -/
structure Appending (history : AtomicHistory) (messages : ChatMessages) (xid : Nat)
    (append : ChatAppend) (exchange : ChatExchange) (old own : List ChatRow) : Prop where
  found : messages.appends.find? xid = some append
  only : ∀ other append', messages.appends.find? other = some append' →
    append'.session = append.session → other = xid
  begun : history.begun.find? xid = some (append.session, exchange)
  rows : messages.rowsOf append.session = old ++ own
  settled : ∀ row ∈ old, messages.appends.find? row.xmin = none
  inserted : ∀ row ∈ own, row.xmin = xid
  stored : old.map (·.turn) = history.store.messagesOf append.session
  appended : own.map (·.turn) ++ append.pending = exchange.turns
  deletes : ∀ ids, append.deleted = some ids → append.pending = [] ∧
    ids = ((old ++ own).take ((old ++ own).length - history.store.maxMessages)).map (·.id)

/-- The rows of a session hold its messages, but for those of an open append. -/
inductive Mirrors (history : AtomicHistory) (messages : ChatMessages) (session : ChatSession) :
    Prop
  | quiet
      (idle : ∀ xid append, messages.appends.find? xid = some append → append.session ≠ session)
      (settled : ∀ row ∈ messages.rowsOf session, messages.appends.find? row.xmin = none)
      (stored : (messages.rowsOf session).map (·.turn) = history.store.messagesOf session)
  | appending {xid : Nat} {append : ChatAppend} {exchange : ChatExchange} {old own : List ChatRow}
      (isSession : append.session = session)
      (isAppending : Appending history messages xid append exchange old own)

theorem Appending.mirrors {history : AtomicHistory} {messages : ChatMessages} {xid : Nat}
    {append : ChatAppend} {exchange : ChatExchange} {old own : List ChatRow}
    (isAppending : Appending history messages xid append exchange old own) :
    Mirrors history messages append.session :=
  .appending rfl isAppending

/-- The database holds what the store in memory holds. -/
structure Refines (maxMessages : Nat) (history : AtomicHistory) (messages : ChatMessages) :
    Prop where
  bound : history.store.maxMessages = maxMessages
  ordered : messages.rows.Pairwise fun left right => left.id < right.id
  drawn : ∀ row ∈ messages.rows, row.id < messages.nextId
  numbered : ∀ xid append, messages.appends.find? xid = some append → xid < messages.nextXid
  xmins : ∀ row ∈ messages.rows, row.xmin < messages.nextXid
  policy : ∀ row ∈ messages.rows, row.session.tenantId = strip row.session.tenantId
  fits : ∀ session, (history.store.messagesOf session).length ≤ maxMessages
  mirrors : ∀ session, Mirrors history messages session

variable {maxMessages : Nat} {history later : AtomicHistory} {messages next : ChatMessages}
  {session : ChatSession} {xid : Nat} {append : ChatAppend} {row : ChatRow}

theorem mem_rowsOf :
    row ∈ messages.rowsOf session ↔ row ∈ messages.rows ∧ row.session = session := by
  rw [rowsOf, List.mem_filter, decide_eq_true_eq]

/-- What happens in other sessions. -/
theorem Mirrors.frame (old : Mirrors history messages session)
    (rows : next.rowsOf session = messages.rowsOf session)
    (others : ∀ other, other ≠ xid → next.appends.find? other = messages.appends.find? other)
    (before : ∀ append, messages.appends.find? xid = some append → append.session ≠ session)
    (after : ∀ append, next.appends.find? xid = some append → append.session ≠ session)
    (settles : ∀ row ∈ messages.rowsOf session, messages.appends.find? row.xmin = none →
      next.appends.find? row.xmin = none)
    (bound : later.store.maxMessages = history.store.maxMessages)
    (stored : later.store.messagesOf session = history.store.messagesOf session)
    (begun : ∀ other, other ≠ xid → later.begun.find? other = history.begun.find? other) :
    Mirrors later next session := by
  cases old with
  | quiet idle settled isStored =>
      refine .quiet ?_ ?_ ?_
      · intro other append found
        by_cases same : other = xid
        · exact after append (same ▸ found)
        · exact idle other append ((others other same).symm.trans found)
      · intro row member
        rw [rows] at member
        exact settles row member (settled row member)
      · rw [rows, stored, isStored]
  | @appending own append exchange stored' added isSession isAppending =>
      subst isSession
      have different : own ≠ xid := by
        rintro rfl
        exact before append isAppending.found rfl
      refine .appending rfl ⟨(others own different).trans isAppending.found, ?_,
        (begun own different).trans isAppending.begun, rows.trans isAppending.rows, ?_,
        isAppending.inserted, isAppending.stored.trans stored.symm, isAppending.appended, ?_⟩
      · intro other append' found' isOther
        by_cases same : other = xid
        · exact absurd isOther (after append' (same ▸ found'))
        · exact isAppending.only other append' ((others other same).symm.trans found') isOther
      · intro row isOld
        refine settles row ?_ (isAppending.settled row isOld)
        rw [isAppending.rows]
        exact List.mem_append_left _ isOld
      · rw [bound]
        exact isAppending.deletes

/-- The rows of an open append are rows of its session. -/
theorem Mirrors.session_of_open (mirrors : Mirrors history messages row.session)
    (isRow : row ∈ messages.rows) (found : messages.appends.find? row.xmin = some append) :
    append.session = row.session := by
  have member : row ∈ messages.rowsOf row.session := mem_rowsOf.mpr ⟨isRow, rfl⟩
  cases mirrors with
  | quiet idle settled _ =>
      cases (settled row member).symm.trans found
  | appending isSession isAppending =>
      rw [← isSession, isAppending.rows] at member
      rcases List.mem_append.mp member with isOld | isOwn
      · cases (isAppending.settled row isOld).symm.trans found
      · rw [isAppending.inserted row isOwn, isAppending.found] at found
        exact Option.some.inj found ▸ isSession

namespace Refines

theorem distinct (refines : Refines maxMessages history messages) (session : ChatSession) :
    ((messages.rowsOf session).map (·.id)).Nodup :=
  List.pairwise_map.mpr
    ((refines.ordered.sublist List.filter_sublist).imp Nat.ne_of_lt)

theorem row_unique (refines : Refines maxMessages history messages) {left right : ChatRow}
    (leftIn : left ∈ messages.rows) (rightIn : right ∈ messages.rows) (same : left.id = right.id) :
    left = right := by
  have distinct : (messages.rows.map (·.id)).Nodup :=
    List.pairwise_map.mpr (refines.ordered.imp Nat.ne_of_lt)
  exact List.inj_on_of_nodup_map distinct leftIn rightIn same

theorem inSession_iff (refines : Refines maxMessages history messages)
    (isRow : row ∈ messages.rows) :
    row.inSession session = true ↔ row.session = session := by
  rw [ChatRow.inSession, Bool.and_eq_true, beq_iff_eq, beq_iff_eq]
  constructor
  · exact And.left
  · rintro rfl
    exact ⟨rfl, refines.policy row isRow⟩

theorem fresh (refines : Refines maxMessages history messages) :
    messages.appends.find? messages.nextXid = none := by
  rw [Option.eq_none_iff_forall_not_mem]
  exact fun append found => Nat.lt_irrefl _ (refines.numbered _ append found)

/-- The next transaction is of no session yet. -/
theorem unopened (refines : Refines maxMessages history messages)
    (found : messages.appends.find? messages.nextXid = some append) :
    append.session ≠ session := by
  cases refines.fresh.symm.trans found

/-- What a statement finds of a session. -/
theorem selected_eq (refines : Refines maxMessages history messages) (own : Option Nat)
    (session : ChatSession) :
    messages.selected own session =
      (messages.rowsOf session).filter fun row => messages.sees own row := by
  rw [selected, rowsOf, List.filter_filter]
  refine List.filter_congr fun row isRow => ?_
  rw [Bool.eq_iff_iff, Bool.and_eq_true, Bool.and_eq_true, refines.inSession_iff isRow,
    decide_eq_true_eq]

theorem newest_eq (refines : Refines maxMessages history messages) (own : Option Nat)
    (session : ChatSession) :
    (newest maxMessages (messages.selected own session)).reverse =
      (messages.selected own session).drop
        ((messages.selected own session).length - maxMessages) := by
  have ordered : (messages.selected own session).Pairwise ChatRow.byId :=
    (refines.ordered.sublist List.filter_sublist).imp Nat.le_of_lt
  rw [newest, ordered.insertionSort_eq, List.take_reverse, List.reverse_reverse]

end Refines

theorem sees_none_iff : messages.sees none row = true ↔ messages.appends.find? row.xmin = none := by
  rw [sees, Bool.or_eq_true, Option.isNone_iff_eq_none]
  exact or_iff_right (by simp)

namespace Refines

theorem opened (refines : Refines maxMessages history messages) (quiet : messages.Quiet session)
    (exchange : ChatExchange) :
    Refines maxMessages
      { history with begun := history.begun.set messages.nextXid (session, exchange) }
      (messages.opened session exchange) := by
  have added : (messages.opened session exchange).appends.find? messages.nextXid =
      some { session, pending := exchange.turns } := by
    rw [ChatMessages.opened, Table.find?_set, if_pos rfl]
  have others : ∀ other, other ≠ messages.nextXid →
      (messages.opened session exchange).appends.find? other = messages.appends.find? other := by
    intro other different
    rw [ChatMessages.opened, Table.find?_set, if_neg different]
  have settles : ∀ row ∈ messages.rows, messages.appends.find? row.xmin = none →
      (messages.opened session exchange).appends.find? row.xmin = none := by
    intro row isRow gone
    rw [others _ (Nat.ne_of_lt (refines.xmins row isRow)), gone]
  constructor
  · exact refines.bound
  · exact refines.ordered
  · exact refines.drawn
  · intro other append found
    by_cases same : other = messages.nextXid
    · rw [same]
      exact Nat.lt_succ_self _
    · exact Nat.lt_succ_of_lt (refines.numbered other append ((others other same).symm.trans found))
  · exact fun row isRow => Nat.lt_succ_of_lt (refines.xmins row isRow)
  · exact refines.policy
  · exact refines.fits
  · intro other
    by_cases same : other = session
    · subst same
      cases refines.mirrors other with
      | quiet idle settled stored =>
          refine .appending rfl ⟨added, ?_, by rw [Table.find?_set, if_pos rfl],
            (List.append_nil (messages.rowsOf other)).symm, ?_, List.forall_mem_nil _, stored, rfl,
            ?_⟩
          · intro xid append found isSession
            by_contra different
            exact idle xid append ((others xid different).symm.trans found) isSession
          · exact fun row member => settles row (mem_rowsOf.mp member).1 (settled row member)
          · intro ids isDeleted
            cases isDeleted
      | appending isSession isAppending =>
          exact absurd isSession (quiet _ (Table.find?_eq_some_iff.mp isAppending.found))
    · refine @Mirrors.frame _ _ _ _ _ messages.nextXid (refines.mirrors other) rfl others
        (fun _ => refines.unopened) ?_ ?_ rfl rfl ?_
      · intro append found
        rw [added] at found
        rw [← Option.some.inj found]
        exact Ne.symm same
      · exact fun row member => settles row (mem_rowsOf.mp member).1
      · intro xid different
        rw [Table.find?_set, if_neg different]

theorem of_open (refines : Refines maxMessages history messages)
    (found : messages.appends.find? xid = some append) :
    ∃ exchange old own, Appending history messages xid append exchange old own := by
  cases refines.mirrors append.session with
  | quiet idle _ _ => exact absurd rfl (idle xid append found)
  | appending isSession isAppending =>
      obtain rfl := isAppending.only xid append found isSession.symm
      obtain rfl := Option.some.inj (isAppending.found.symm.trans found)
      exact ⟨_, _, _, isAppending⟩

end Refines

/-! ## An append that goes on -/

/-- Only this append is changed. -/
structure Continues (messages next : ChatMessages) (xid : Nat) (append append' : ChatAppend) :
    Prop where
  found : messages.appends.find? xid = some append
  changed : next.appends.find? xid = some append'
  others : ∀ other, other ≠ xid → next.appends.find? other = messages.appends.find? other
  session : append'.session = append.session

namespace Continues

variable {append' : ChatAppend}

theorem of_set (found : messages.appends.find? xid = some append)
    (isSet : next.appends = messages.appends.set xid append')
    (session : append'.session = append.session) : Continues messages next xid append append' := by
  refine ⟨found, ?_, ?_, session⟩
  · rw [isSet, Table.find?_set, if_pos rfl]
  · intro other different
    rw [isSet, Table.find?_set, if_neg different]

theorem settles (continues : Continues messages next xid append append')
    (gone : messages.appends.find? row.xmin = none) : next.appends.find? row.xmin = none := by
  rw [continues.others _ ?_, gone]
  intro same
  rw [same, continues.found] at gone
  cases gone

theorem before (continues : Continues messages next xid append append') {other : Nat}
    {last : ChatAppend} (found : next.appends.find? other = some last) :
    ∃ first, messages.appends.find? other = some first ∧ first.session = last.session := by
  by_cases same : other = xid
  · subst same
    obtain rfl := Option.some.inj (continues.changed.symm.trans found)
    exact ⟨append, continues.found, continues.session.symm⟩
  · exact ⟨last, (continues.others other same).symm.trans found, rfl⟩

/-- The append stays the only one of its session. -/
theorem only (continues : Continues messages next xid append append')
    {exchange : ChatExchange} {old own : List ChatRow}
    (isAppending : Appending history messages xid append exchange old own) {other : Nat}
    {last : ChatAppend} (found : next.appends.find? other = some last)
    (isSession : last.session = append.session) : other = xid := by
  obtain ⟨first, isFirst, firstSession⟩ := continues.before found
  exact isAppending.only other first isFirst (firstSession.trans isSession)

theorem elsewhere (continues : Continues messages next xid append append')
    (mirrors : Mirrors history messages session) (different : append.session ≠ session)
    (rows : next.rowsOf session = messages.rowsOf session) : Mirrors history next session := by
  refine @Mirrors.frame _ _ _ _ _ xid mirrors rows continues.others ?_ ?_
    (fun row _ => continues.settles) rfl rfl (fun _ _ => rfl)
  · intro first found
    rwa [← Option.some.inj (continues.found.symm.trans found)]
  · intro last found
    rwa [← Option.some.inj (continues.changed.symm.trans found), continues.session]

end Continues

/-- The next row comes after those that are there. -/
theorem Appending.afterInsert {exchange : ChatExchange} {old own : List ChatRow}
    (isAppending : Appending history messages xid append exchange old own) {turn : ChatTurn}
    {rest : List ChatTurn} (pending : append.pending = turn :: rest)
    (continues : Continues messages (messages.inserted xid append turn rest) xid append
      { append with pending := rest }) :
    Appending history (messages.inserted xid append turn rest) xid { append with pending := rest }
      exchange old
      (own ++ [{ id := messages.nextId, xmin := xid, session := append.session, turn }]) := by
  refine ⟨continues.changed, fun _ _ => continues.only isAppending, isAppending.begun, ?_,
    fun row isOld => continues.settles (isAppending.settled row isOld),
    List.forall_mem_append.mpr ⟨isAppending.inserted, List.forall_mem_singleton.mpr rfl⟩,
    isAppending.stored, ?_, ?_⟩
  · rw [rowsOf, ChatMessages.inserted, List.filter_append, ← List.append_assoc]
    refine congrArg₂ _ isAppending.rows ?_
    exact List.filter_eq_self.mpr (List.forall_mem_singleton.mpr (decide_eq_true rfl))
  · rw [← isAppending.appended, pending, List.map_append, List.append_assoc]
    rfl
  · intro ids isDeleted
    rw [(isAppending.deletes ids isDeleted).1] at pending
    cases pending

namespace Refines

theorem inserted (refines : Refines maxMessages history messages)
    (found : messages.appends.find? xid = some append) {turn : ChatTurn} {rest : List ChatTurn}
    (pending : append.pending = turn :: rest)
    (allowed : append.session.tenantId = strip append.session.tenantId) :
    Refines maxMessages history (messages.inserted xid append turn rest) := by
  have continues : Continues messages (messages.inserted xid append turn rest) xid append
      { append with pending := rest } := .of_set found rfl rfl
  let added : ChatRow := { id := messages.nextId, xmin := xid, session := append.session, turn }
  have isNew : ∀ row ∈ messages.rows ++ [added], row ∈ messages.rows ∨ row = added :=
    fun row member => (List.mem_append.mp member).imp_right List.mem_singleton.mp
  constructor
  · exact refines.bound
  · refine List.pairwise_append.mpr ⟨refines.ordered, List.pairwise_singleton _ _, ?_⟩
    intro row isRow last isLast
    rw [List.mem_singleton.mp isLast]
    exact refines.drawn row isRow
  · intro row member
    rcases isNew row member with isRow | rfl
    · exact Nat.lt_succ_of_lt (refines.drawn row isRow)
    · exact Nat.lt_succ_self _
  · intro other append' found'
    obtain ⟨first, isFirst, _⟩ := continues.before found'
    exact refines.numbered other first isFirst
  · intro row member
    rcases isNew row member with isRow | rfl
    · exact refines.xmins row isRow
    · exact refines.numbered xid append found
  · intro row member
    rcases isNew row member with isRow | rfl
    · exact refines.policy row isRow
    · exact allowed
  · exact refines.fits
  · intro other
    by_cases same : append.session = other
    · subst same
      obtain ⟨exchange, old, own, isAppending⟩ := refines.of_open found
      exact (isAppending.afterInsert pending continues).mirrors
    · refine continues.elsewhere (refines.mirrors other) same ?_
      have isOther : ∀ row ∈ [added], ¬ decide (row.session = other) = true :=
        List.forall_mem_singleton.mpr (by rwa [decide_eq_true_eq])
      rw [rowsOf, ChatMessages.inserted, List.filter_append, List.filter_eq_nil_iff.mpr isOther,
        List.append_nil]
      rfl

/-- The `DELETE` takes the oldest rows of the session, all but the newest. -/
theorem outdated_eq (refines : Refines maxMessages history messages) {exchange : ChatExchange}
    {old own : List ChatRow}
    (isAppending : Appending history messages xid append exchange old own) :
    outdated maxMessages messages xid append.session =
      ((old ++ own).take ((old ++ own).length - maxMessages)).map (·.id) := by
  have selected : messages.selected (some xid) append.session = old ++ own := by
    rw [refines.selected_eq, isAppending.rows, List.filter_eq_self]
    refine List.forall_mem_append.mpr ⟨?_, ?_⟩
    · intro row isOld
      rw [sees, isAppending.settled row isOld, Option.isNone_none, Bool.or_true]
    · intro row isOwn
      rw [sees, isAppending.inserted row isOwn, beq_self_eq_true, Bool.true_or]
  have kept := refines.newest_eq (some xid) append.session
  have distinct := refines.distinct append.session
  rw [selected] at kept
  rw [isAppending.rows] at distinct
  rw [outdated, selected]
  generalize old ++ own = rows at kept distinct
  have split := List.take_append_drop (rows.length - maxMessages) rows
  rw [← split] at distinct
  have parted := filter_notIn_right distinct
  rw [split] at parted
  rw [← parted, List.filter_map]
  refine congrArg _ (List.filter_congr fun row _ => ?_)
  rw [← kept, List.map_reverse]
  simp

theorem trimmed (refines : Refines maxMessages history messages)
    (found : messages.appends.find? xid = some append) (full : append.pending = []) :
    Refines maxMessages history (messages.trimmed maxMessages xid append) := by
  have continues : Continues messages (messages.trimmed maxMessages xid append) xid append
      { append with deleted := some (outdated maxMessages messages xid append.session) } :=
    .of_set found rfl rfl
  constructor
  · exact refines.bound
  · exact refines.ordered
  · exact refines.drawn
  · intro other append' found'
    obtain ⟨first, isFirst, _⟩ := continues.before found'
    exact refines.numbered other first isFirst
  · exact refines.xmins
  · exact refines.policy
  · exact refines.fits
  · intro other
    by_cases same : append.session = other
    · subst same
      obtain ⟨exchange, old, own, isAppending⟩ := refines.of_open found
      have dropped := refines.outdated_eq isAppending
      rw [← refines.bound] at dropped
      have goes : Appending history (messages.trimmed maxMessages xid append) xid { append with
          deleted := some (outdated maxMessages messages xid append.session) } exchange old
          own := by
        refine ⟨continues.changed, fun _ _ => continues.only isAppending, isAppending.begun,
          isAppending.rows, fun row isOld => continues.settles (isAppending.settled row isOld),
          isAppending.inserted, isAppending.stored, isAppending.appended, ?_⟩
        intro ids isDeleted
        obtain rfl := Option.some.inj isDeleted
        rw [refines.bound] at dropped ⊢
        exact ⟨full, dropped⟩
      exact goes.mirrors
    · exact continues.elsewhere (refines.mirrors other) same rfl

end Refines

/-! ## An append that ends -/

theorem rowsOf_filter (keep : ChatRow → Bool) :
    (messages.rows.filter keep).filter (fun row => row.session = session) =
      (messages.rowsOf session).filter keep :=
  List.filter_comm _ _ _

/-- The rows that go away are all of one session. -/
theorem rowsOf_filter_eq {keep : ChatRow → Bool}
    (keeps : ∀ row ∈ messages.rows, row.session = session → keep row = true) :
    (messages.rows.filter keep).filter (fun row => row.session = session) =
      messages.rowsOf session := by
  rw [rowsOf_filter, List.filter_eq_self]
  exact fun row member => keeps row (mem_rowsOf.mp member).1 (mem_rowsOf.mp member).2

namespace Refines

theorem ended (refines : Refines maxMessages history messages) {exchange : ChatExchange}
    {old own : List ChatRow}
    (isAppending : Appending history messages xid append exchange old own)
    {keep : ChatRow → Bool}
    (keeps : ∀ row ∈ messages.rows, row.session ≠ append.session → keep row = true)
    {store : ChatHistoryStore} (bound : store.maxMessages = maxMessages)
    (others : ∀ other, other ≠ append.session →
      store.messagesOf other = history.store.messagesOf other)
    (stored : ((old ++ own).filter keep).map (·.turn) = store.messagesOf append.session)
    (fits : (store.messagesOf append.session).length ≤ maxMessages) :
    Refines maxMessages { store, begun := history.begun.erase xid }
      { messages with
        rows := messages.rows.filter keep, appends := messages.appends.erase xid } := by
  have fewer : ∀ other append', (messages.appends.erase xid).find? other = some append' →
      other ≠ xid ∧ messages.appends.find? other = some append' := by
    intro other append' found
    rw [Table.find?_erase] at found
    split at found
    · cases found
    · rename_i different
      exact ⟨different, found⟩
  have gone : ∀ other, messages.appends.find? other = none →
      (messages.appends.erase xid).find? other = none := by
    intro other isNone
    rw [Table.find?_erase, isNone, ite_self]
  constructor
  · exact bound
  · exact refines.ordered.sublist List.filter_sublist
  · exact fun row member => refines.drawn row (List.mem_filter.mp member).1
  · exact fun other append' found => refines.numbered other append' (fewer other append' found).2
  · exact fun row member => refines.xmins row (List.mem_filter.mp member).1
  · exact fun row member => refines.policy row (List.mem_filter.mp member).1
  · intro other
    by_cases same : other = append.session
    · rw [same]
      exact fits
    · rw [others other same]
      exact refines.fits other
  · intro other
    by_cases same : other = append.session
    · subst same
      have rows := @rowsOf_filter messages append.session keep
      rw [isAppending.rows] at rows
      refine .quiet ?_ ?_ ((congrArg (List.map _) rows).trans stored)
      · intro other append' found isSession
        obtain ⟨different, found'⟩ := fewer other append' found
        exact different (isAppending.only other append' found' isSession)
      · intro row member
        have isKept : row ∈ (old ++ own).filter keep := by
          rw [← rows]
          exact member
        rcases List.mem_append.mp (List.mem_filter.mp isKept).1 with isOld | isOwn
        · exact gone _ (isAppending.settled row isOld)
        · exact (isAppending.inserted row isOwn).symm ▸ (Table.find?_erase ..).trans (if_pos rfl)
    · refine @Mirrors.frame _ _ _ _ _ xid (refines.mirrors other) ?_ ?_ ?_ ?_ ?_ ?_ ?_ ?_
      · exact rowsOf_filter_eq fun row isRow isOther =>
          keeps row isRow (isOther ▸ same)
      · exact fun xid' different => Table.find?_erase_ne _ different
      · intro append' found isOther
        obtain rfl := Option.some.inj (isAppending.found.symm.trans found)
        exact same isOther.symm
      · intro append' found
        exact absurd rfl (fewer xid append' found).1
      · exact fun row _ => gone row.xmin
      · exact bound.trans refines.bound.symm
      · exact others other same
      · exact fun xid' different => Table.find?_erase_ne _ different

theorem committed (refines : Refines maxMessages history messages) {ids : List Nat}
    (found : messages.appends.find? xid = some append) (isDeleted : append.deleted = some ids) :
    Refines maxMessages (history.step (.transaction (.commit xid))).2
      (messages.committed xid ids) := by
  obtain ⟨exchange, old, own, isAppending⟩ := refines.of_open found
  obtain ⟨full, isIds⟩ := isAppending.deletes ids isDeleted
  have appended : (old ++ own).map (·.turn) =
      history.store.messagesOf append.session ++ exchange.turns := by
    rw [List.map_append, isAppending.stored, ← isAppending.appended, full, List.append_nil]
  have count := congrArg List.length appended
  rw [List.length_map] at count
  have distinct := refines.distinct append.session
  rw [isAppending.rows] at distinct
  have stored : (history.store.append append.session exchange.turns).messagesOf append.session =
      ((old ++ own).drop ((old ++ own).length - maxMessages)).map (·.turn) := by
    rw [ChatHistoryStore.messagesOf_append, if_pos rfl, ← appended, List.length_map,
      refines.bound, List.map_drop]
  simp only [AtomicHistory.step, isAppending.begun]
  refine refines.ended isAppending ?_ ?_ ?_ ?_ ?_
  · intro row isRow isOther
    refine decide_eq_true fun inIds => ?_
    rw [isIds] at inIds
    obtain ⟨oldest, isOldest, sameId⟩ := List.mem_map.mp inIds
    have member := List.mem_of_mem_take isOldest
    rw [← isAppending.rows] at member
    obtain ⟨oldestRow, oldestSession⟩ := mem_rowsOf.mp member
    rw [← refines.row_unique oldestRow isRow sameId] at isOther
    exact isOther oldestSession
  · exact refines.bound
  · intro other different
    rw [ChatHistoryStore.messagesOf_append, if_neg different]
  · rw [stored, isIds, refines.bound]
    generalize old ++ own = rows at distinct
    have split := List.take_append_drop (rows.length - maxMessages) rows
    rw [← split] at distinct
    have parted := filter_notIn_left distinct
    rw [split] at parted
    rw [parted]
  · rw [stored, List.length_map, List.length_drop]
    omega

theorem aborted (refines : Refines maxMessages history messages)
    (found : messages.appends.find? xid = some append) :
    Refines maxMessages (history.step (.transaction (.abort xid))).2 (messages.aborted xid) := by
  obtain ⟨exchange, old, own, isAppending⟩ := refines.of_open found
  refine refines.ended isAppending ?_ refines.bound (fun _ _ => rfl) ?_ (refines.fits _)
  · intro row isRow isOther
    refine decide_eq_true fun own => ?_
    exact isOther ((refines.mirrors row.session).session_of_open isRow (own ▸ found)).symm
  · have remains : ∀ row ∈ old, decide (row.xmin ≠ xid) = true := by
      intro row isOld
      refine decide_eq_true fun isOwn => ?_
      cases (isAppending.settled row isOld).symm.trans (isOwn ▸ found)
    have goes : ∀ row ∈ own, ¬ decide (row.xmin ≠ xid) = true := by
      intro row isOwn
      rw [decide_eq_true_eq, not_not]
      exact isAppending.inserted row isOwn
    rw [List.filter_append, List.filter_eq_self.mpr remains, List.filter_eq_nil_iff.mpr goes,
      List.append_nil]
    exact isAppending.stored

/-! ## Calls of a single statement -/

theorem got (refines : Refines maxMessages history messages) (session : ChatSession) :
    Refines maxMessages (history.step (.get session)).2 messages := by
  have same : ∀ other, (history.store.get session).2.messagesOf other =
      history.store.messagesOf other := history.store.messagesOf_get session
  refine ⟨refines.bound, refines.ordered, refines.drawn, refines.numbered, refines.xmins,
    refines.policy, fun other => (same other).symm ▸ refines.fits other, fun other => ?_⟩
  exact @Mirrors.frame _ _ _ _ _ messages.nextXid (refines.mirrors other) rfl (fun _ _ => rfl)
    (fun _ => refines.unopened) (fun _ => refines.unopened) (fun _ _ => id) rfl (same other)
    (fun _ _ => rfl)

theorem cleared (refines : Refines maxMessages history messages)
    (quiet : messages.Quiet session) :
    Refines maxMessages (history.step (.clear session)).2 (messages.cleared session) := by
  have isStored := history.store.messagesOf_clear session
  constructor
  · exact refines.bound
  · exact refines.ordered.sublist List.filter_sublist
  · exact fun row member => refines.drawn row (List.mem_filter.mp member).1
  · exact refines.numbered
  · exact fun row member => refines.xmins row (List.mem_filter.mp member).1
  · exact fun row member => refines.policy row (List.mem_filter.mp member).1
  · intro other
    have fits := refines.fits other
    simp only [AtomicHistory.step, isStored]
    split
    · exact Nat.zero_le _
    · exact fits
  · intro other
    by_cases same : other = session
    · subst same
      cases refines.mirrors other with
      | quiet idle settled stored =>
          have gone : (messages.cleared other).rowsOf other = [] := by
            rw [rowsOf, ChatMessages.cleared, rowsOf_filter, List.filter_eq_nil_iff]
            intro row member
            have isRow := (mem_rowsOf.mp member).1
            rw [sees_none_iff.mpr (settled row member),
              (refines.inSession_iff isRow).mpr (mem_rowsOf.mp member).2]
            exact Bool.false_ne_true
          refine .quiet idle ?_ ?_
          · rw [gone]
            exact List.forall_mem_nil _
          · rw [gone]
            exact ((isStored other).trans (if_pos rfl)).symm
      | appending isSession isAppending =>
          exact absurd isSession (quiet _ (Table.find?_eq_some_iff.mp isAppending.found))
    · refine @Mirrors.frame _ _ _ _ _ messages.nextXid (refines.mirrors other) ?_ (fun _ _ => rfl)
        (fun _ => refines.unopened) (fun _ => refines.unopened) (fun _ _ => id) rfl
        ((isStored other).trans (if_neg same)) (fun _ _ => rfl)
      refine rowsOf_filter_eq fun row isRow isOther => ?_
      have outside : row.inSession session = false := by
        rw [← Bool.not_eq_true, refines.inSession_iff isRow, isOther]
        exact same
      rw [outside, Bool.and_false]
      rfl

end Refines

/-! ## Both machines -/

theorem insert_allowed {maxMessages : Nat}
    (taken : step maxMessages messages (.insert xid) = some next)
    (found : messages.appends.find? xid = some append) :
    append.session.tenantId = strip append.session.tenantId := by
  obtain ⟨append', found', taken⟩ := Option.bind_eq_some_iff.mp taken
  obtain rfl := Option.some.inj (found.symm.trans found')
  split at taken
  · cases taken
  · split at taken
    · assumption
    · cases taken

/-- One statement of a transaction. -/
theorem Refines.step (refines : Refines maxMessages history messages) {event : ChatEvent}
    (taken : step maxMessages messages event = some next)
    (alone : ∀ session ∈ claims (.transaction event), messages.Quiet session) :
    Refines maxMessages (history.step (.transaction event)).2 next := by
  have move := step_move taken
  cases move with
  | opened session exchange => exact refines.opened (alone session rfl) exchange
  | inserted found pending =>
      exact refines.inserted found pending (insert_allowed taken found)
  | trimmed found full => exact refines.trimmed found full
  | committed found isDeleted => exact refines.committed found isDeleted
  | aborted found => exact refines.aborted found

end ChatMessages

end ProductionRag
