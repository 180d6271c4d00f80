import ProductionRag.Chat.History
import ProductionRag.Store.Postgres
import Mathlib.Data.List.Sort

/-!
# Chat histories in PostgreSQL

`PostgresChatHistory` appends in a transaction of its own: two `INSERT`s, each drawing the
next id of the sequence, and a `DELETE` of what the model can no longer use.  Other
transactions draw their ids in between.  As long as no append of a session inserts between
the two `INSERT`s of another, the history is a list of whole exchanges.
-/

set_option autoImplicit false

namespace ProductionRag

open Basis

/-- A row of `chat_messages`, with the transaction that inserted it. -/
structure ChatRow where
  id : Nat
  xmin : Nat
  session : ChatSession
  turn : ChatTurn
  deriving DecidableEq

/-- An open transaction of `append`. -/
structure ChatAppend where
  session : ChatSession
  /-- What `executemany` has still to insert. -/
  pending : List ChatTurn
  /-- The ids that the `DELETE` found, once it has run. -/
  deleted : Option (List Nat) := none
  deriving DecidableEq

/-- The table, with the rows of open transactions; what is rolled back is gone. -/
structure ChatMessages where
  nextId : Nat
  nextXid : Nat
  rows : List ChatRow
  appends : Table Nat ChatAppend
  deriving DecidableEq

/-- The steps of the transactions; `begin` names the transaction it starts. -/
inductive ChatEvent where
  | begin (xid : Nat) (session : ChatSession) (exchange : ChatExchange)
  | insert (xid : Nat)
  | trim (xid : Nat)
  | commit (xid : Nat)
  | abort (xid : Nat)
  deriving DecidableEq

/-- `ORDER BY id` -/
def ChatRow.byId (left right : ChatRow) : Prop := left.id ≤ right.id

instance : DecidableRel ChatRow.byId := fun left right => Nat.decLe left.id right.id

/-- `WHERE tenant_id = %s AND user_id = %s AND session_id = %s`, under the policy. -/
def ChatRow.inSession (session : ChatSession) (row : ChatRow) : Bool :=
  row.session == session && row.session.tenantId == strip session.tenantId

namespace ChatMessages

def empty : ChatMessages := { nextId := 1, nextXid := 1, rows := [], appends := .empty }

/-- A statement sees what is committed and what its own transaction wrote. -/
def sees (messages : ChatMessages) (own : Option Nat) (row : ChatRow) : Bool :=
  own == some row.xmin || (messages.appends.find? row.xmin).isNone

def selected (messages : ChatMessages) (own : Option Nat) (session : ChatSession) :
    List ChatRow :=
  messages.rows.filter fun row => messages.sees own row && row.inSession session

/-- `ORDER BY id DESC LIMIT %s` -/
def newest (maxMessages : Nat) (rows : List ChatRow) : List ChatRow :=
  (rows.insertionSort ChatRow.byId).reverse.take maxMessages

/-- The newest messages, in the order of their ids. -/
def get (maxMessages : Nat) (messages : ChatMessages) (session : ChatSession) :
    Except PyError (List ChatTurn) := do
  setTenant session.tenantId
  return (newest maxMessages (messages.selected none session)).reverse.map (·.turn)

/-! ## The steps of `append` -/

def opened (messages : ChatMessages) (session : ChatSession) (exchange : ChatExchange) :
    ChatMessages :=
  { messages with
    nextXid := messages.nextXid + 1
    appends := messages.appends.set messages.nextXid { session, pending := exchange.turns } }

/-- The sequence hands out its next id, also when the transaction is rolled back later. -/
def inserted (messages : ChatMessages) (xid : Nat) (append : ChatAppend) (turn : ChatTurn)
    (rest : List ChatTurn) : ChatMessages :=
  { messages with
    nextId := messages.nextId + 1
    rows := messages.rows ++
      [{ id := messages.nextId, xmin := xid, session := append.session, turn }]
    appends := messages.appends.set xid { append with pending := rest } }

/-- The ids that `id NOT IN (...)` leaves. -/
def outdated (maxMessages : Nat) (messages : ChatMessages) (xid : Nat) (session : ChatSession) :
    List Nat :=
  let rows := messages.selected (some xid) session
  let kept := (newest maxMessages rows).map (·.id)
  (rows.map (·.id)).filter fun id => id ∉ kept

def trimmed (maxMessages : Nat) (messages : ChatMessages) (xid : Nat) (append : ChatAppend) :
    ChatMessages :=
  { messages with
    appends := messages.appends.set xid
      { append with deleted := some (outdated maxMessages messages xid append.session) } }

def committed (messages : ChatMessages) (xid : Nat) (ids : List Nat) : ChatMessages :=
  { messages with
    rows := messages.rows.filter fun row => row.id ∉ ids
    appends := messages.appends.erase xid }

def aborted (messages : ChatMessages) (xid : Nat) : ChatMessages :=
  { messages with
    rows := messages.rows.filter fun row => row.xmin ≠ xid
    appends := messages.appends.erase xid }

def step (maxMessages : Nat) (messages : ChatMessages) : ChatEvent → Option ChatMessages
  | .begin xid session exchange =>
    match setTenant session.tenantId with
    | .error _ => none
    | .ok () => if xid = messages.nextXid then some (messages.opened session exchange) else none
  | .insert xid => do
    let append ← messages.appends.find? xid
    match append.pending with
    | [] => none
    | turn :: rest =>
      -- the policy checks what is written
      if append.session.tenantId = strip append.session.tenantId then
        some (messages.inserted xid append turn rest)
      else none
  | .trim xid => do
    let append ← messages.appends.find? xid
    if append.pending = [] ∧ append.deleted = none then
      some (messages.trimmed maxMessages xid append)
    else none
  | .commit xid => do
    let append ← messages.appends.find? xid
    let ids ← append.deleted
    return messages.committed xid ids
  | .abort xid => do
    let _ ← messages.appends.find? xid
    return messages.aborted xid

def system (maxMessages : Nat) : System ChatMessages ChatEvent where
  start := .empty
  step := step maxMessages

/-- No append of the same session has done one of its `INSERT`s and not the other. -/
def Uninterrupted (messages : ChatMessages) : ChatEvent → Prop
  | .insert xid =>
    ∀ append ∈ messages.appends.find? xid, ∀ entry ∈ messages.appends.entries,
      entry.1 ≠ xid → entry.2.session = append.session → entry.2.pending.length ≠ 1
  | _ => True

instance (messages : ChatMessages) (event : ChatEvent) :
    Decidable (messages.Uninterrupted event) := by
  unfold Uninterrupted
  split <;> infer_instance

/-- What a step of a transaction does. -/
inductive Move (maxMessages : Nat) (messages : ChatMessages) : ChatEvent → ChatMessages → Prop
  | opened (session : ChatSession) (exchange : ChatExchange) :
      Move maxMessages messages (.begin messages.nextXid session exchange)
        (messages.opened session exchange)
  | inserted {xid : Nat} {append : ChatAppend} {turn : ChatTurn} {rest : List ChatTurn}
      (found : messages.appends.find? xid = some append) (next : append.pending = turn :: rest) :
      Move maxMessages messages (.insert xid) (messages.inserted xid append turn rest)
  | trimmed {xid : Nat} {append : ChatAppend}
      (found : messages.appends.find? xid = some append) (full : append.pending = []) :
      Move maxMessages messages (.trim xid) (messages.trimmed maxMessages xid append)
  | committed {xid : Nat} {append : ChatAppend} {ids : List Nat}
      (found : messages.appends.find? xid = some append) (isDeleted : append.deleted = some ids) :
      Move maxMessages messages (.commit xid) (messages.committed xid ids)
  | aborted {xid : Nat} {append : ChatAppend}
      (found : messages.appends.find? xid = some append) :
      Move maxMessages messages (.abort xid) (messages.aborted xid)

theorem step_move {maxMessages : Nat} {messages next : ChatMessages} {event : ChatEvent}
    (taken : step maxMessages messages event = some next) :
    Move maxMessages messages event next := by
  cases event with
  | begin xid session exchange =>
      simp only [step] at taken
      split at taken
      · cases taken
      · split at taken
        · rename_i isNext
          obtain rfl := Option.some.inj taken
          subst isNext
          exact .opened session exchange
        · cases taken
  | insert xid =>
      obtain ⟨append, found, taken⟩ := Option.bind_eq_some_iff.mp taken
      split at taken
      · cases taken
      · rename_i turn rest next
        split at taken
        · obtain rfl := Option.some.inj taken
          exact .inserted found next
        · cases taken
  | trim xid =>
      obtain ⟨append, found, taken⟩ := Option.bind_eq_some_iff.mp taken
      split at taken
      · rename_i both
        obtain rfl := Option.some.inj taken
        exact .trimmed found both.1
      · cases taken
  | commit xid =>
      obtain ⟨append, found, taken⟩ := Option.bind_eq_some_iff.mp taken
      obtain ⟨ids, isDeleted, taken⟩ := Option.bind_eq_some_iff.mp taken
      obtain rfl := Option.some.inj taken
      exact .committed found isDeleted
  | abort xid =>
      obtain ⟨append, found, taken⟩ := Option.bind_eq_some_iff.mp taken
      obtain rfl := Option.some.inj taken
      exact .aborted found

/-! ## Whole exchanges -/

/-- The two rows of an exchange whose append has inserted both. -/
structure OfExchange (messages : ChatMessages) (past : List ChatEvent) (session : ChatSession)
    (pair : ChatRow × ChatRow) : Prop where
  alike : pair.2.xmin = pair.1.xmin
  begun : ∃ exchange, .begin pair.1.xmin session exchange ∈ past ∧
    pair.1.turn = exchange.pair.1 ∧ pair.2.turn = exchange.pair.2
  full : ∀ append, messages.appends.find? pair.1.xmin = some append → append.pending = []

/-- The first row of an exchange whose append has still to insert the second. -/
def HalfDone (messages : ChatMessages) (past : List ChatEvent) (session : ChatSession)
    (row : ChatRow) : Prop :=
  ∃ exchange, .begin row.xmin session exchange ∈ past ∧ row.turn = exchange.pair.1 ∧
    messages.appends.find? row.xmin = some { session, pending := [exchange.pair.2] }

/-- The rows of a session are the pairs, and then at most the first half of another. -/
structure Whole (messages : ChatMessages) (past : List ChatEvent) (session : ChatSession)
    (pairs : List (ChatRow × ChatRow)) (half : Option ChatRow) : Prop where
  rows : messages.rows.filter (fun row => row.session = session) = pairRows pairs ++ half.toList
  distinct : (pairs.map fun pair => pair.1.xmin).Nodup
  ofExchange : ∀ pair ∈ pairs, messages.OfExchange past session pair
  halfDone : ∀ row ∈ half, messages.HalfDone past session row

/-- How far an append is. -/
inductive Stage (messages : ChatMessages) (xid : Nat) (append : ChatAppend)
    (exchange : ChatExchange) : Prop
  | idle (pending : append.pending = exchange.turns) (notDeleted : append.deleted = none)
      (noRows : ∀ row ∈ messages.rows, row.xmin ≠ xid)
  | half (pending : append.pending = [exchange.pair.2]) (notDeleted : append.deleted = none)
      (row : ChatRow) (isRow : row ∈ messages.rows) (own : row.xmin = xid)
      (inSession : row.session = append.session)
  | full (pending : append.pending = [])

/-- What an append is about to delete: whole exchanges, its own or committed ones. -/
structure Deletes (messages : ChatMessages) (xid : Nat) (append : ChatAppend) (ids : List Nat) :
    Prop where
  full : append.pending = []
  drawn : ∀ id ∈ ids, id < messages.nextId
  settled : ∀ row ∈ messages.rows, row.id ∈ ids →
    row.xmin = xid ∨ messages.appends.find? row.xmin = none
  whole : ∀ row ∈ messages.rows, ∀ other ∈ messages.rows, row.id ∈ ids →
    other.session = row.session → other.xmin = row.xmin → other.id ∈ ids

/-- What holds of the table after an uninterrupted run. -/
structure Kept (messages : ChatMessages) (past : List ChatEvent) : Prop where
  ordered : messages.rows.Pairwise fun left right => left.id < right.id
  drawn : ∀ row ∈ messages.rows, row.id < messages.nextId
  numbered : ∀ xid append, messages.appends.find? xid = some append → xid < messages.nextXid
  xmins : ∀ row ∈ messages.rows, row.xmin < messages.nextXid
  whole : ∀ session, ∃ pairs half, messages.Whole past session pairs half
  staged : ∀ xid append, messages.appends.find? xid = some append →
    ∃ exchange, .begin xid append.session exchange ∈ past ∧ messages.Stage xid append exchange
  deletes : ∀ xid append ids, messages.appends.find? xid = some append →
    append.deleted = some ids → messages.Deletes xid append ids

variable {past : List ChatEvent} {messages next : ChatMessages} {session : ChatSession}
  {pairs : List (ChatRow × ChatRow)} {half : Option ChatRow} {pair : ChatRow × ChatRow}
  {row : ChatRow}

theorem OfExchange.later (old : messages.OfExchange past session pair) (event : ChatEvent)
    (full : ∀ append, next.appends.find? pair.1.xmin = some append → append.pending = []) :
    next.OfExchange (past ++ [event]) session pair := by
  obtain ⟨alike, ⟨exchange, begun, first, second⟩, _⟩ := old
  exact ⟨alike, ⟨exchange, List.mem_append_left _ begun, first, second⟩, full⟩

theorem HalfDone.later (old : messages.HalfDone past session row) (event : ChatEvent)
    (same : next.appends.find? row.xmin = messages.appends.find? row.xmin) :
    next.HalfDone (past ++ [event]) session row := by
  obtain ⟨exchange, begun, first, found⟩ := old
  exact ⟨exchange, List.mem_append_left _ begun, first, same.trans found⟩

theorem Whole.mem_pair (whole : messages.Whole past session pairs half) (isPair : pair ∈ pairs)
    (isRow : row = pair.1 ∨ row = pair.2) : row ∈ messages.rows ∧ row.session = session := by
  have member : row ∈ messages.rows.filter fun row => row.session = session := by
    rw [whole.rows]
    exact List.mem_append_left _ (mem_pairRows.mpr ⟨pair, isPair, isRow⟩)
  obtain ⟨inRows, inSession⟩ := List.mem_filter.mp member
  exact ⟨inRows, of_decide_eq_true inSession⟩

theorem Whole.mem_half (whole : messages.Whole past session pairs half) (isHalf : row ∈ half) :
    row ∈ messages.rows ∧ row.session = session := by
  have member : row ∈ messages.rows.filter fun row => row.session = session := by
    rw [whole.rows]
    exact List.mem_append_right _ (Option.mem_toList.mpr isHalf)
  obtain ⟨inRows, inSession⟩ := List.mem_filter.mp member
  exact ⟨inRows, of_decide_eq_true inSession⟩

/-- A row of the session is in a pair or is the half. -/
theorem Whole.cases_row (whole : messages.Whole past session pairs half)
    (isRow : row ∈ messages.rows) (inSession : row.session = session) :
    (∃ pair ∈ pairs, (row = pair.1 ∨ row = pair.2) ∧ row.xmin = pair.1.xmin) ∨ row ∈ half := by
  have member : row ∈ pairRows pairs ++ half.toList := by
    rw [← whole.rows]
    exact List.mem_filter.mpr ⟨isRow, decide_eq_true inSession⟩
  rcases List.mem_append.mp member with inPairs | isHalf
  · obtain ⟨pair, isPair, either⟩ := mem_pairRows.mp inPairs
    refine Or.inl ⟨pair, isPair, either, ?_⟩
    rcases either with rfl | rfl
    · rfl
    · exact (whole.ofExchange pair isPair).alike
  · exact Or.inr (Option.mem_toList.mp isHalf)

/-- Rows go away pair by pair. -/
theorem Whole.filter (whole : messages.Whole past session pairs half) {keep : ChatRow → Bool}
    (event : ChatEvent) (isNext : next.rows = messages.rows.filter keep)
    (alike : ∀ pair ∈ pairs, keep pair.1 = keep pair.2)
    (fewer : ∀ xid append, next.appends.find? xid = some append →
      messages.appends.find? xid = some append)
    (still : ∀ row ∈ half, keep row = true →
      next.appends.find? row.xmin = messages.appends.find? row.xmin) :
    next.Whole (past ++ [event]) session (pairs.filter fun pair => keep pair.1)
      (half.filter keep) := by
  have halfRows : half.toList.filter keep = (half.filter keep).toList := by
    cases half with
    | none => rfl
    | some row => cases kept : keep row <;> simp [Option.filter, kept]
  constructor
  · rw [isNext, List.filter_filter, ← halfRows, ← filter_pairRows alike, ← List.filter_append,
      ← whole.rows, List.filter_filter]
    simp only [Bool.and_comm]
  · exact (List.filter_sublist.map _).nodup whole.distinct
  · intro pair member
    have isPair := (List.mem_filter.mp member).1
    exact (whole.ofExchange pair isPair).later event fun append found =>
      (whole.ofExchange pair isPair).full append (fewer _ _ found)
  · intro row member
    obtain ⟨isHalf, kept⟩ := Option.mem_filter_iff.mp member
    exact (whole.halfDone row isHalf).later event (still row isHalf kept)

theorem Stage.later {xid : Nat} {append : ChatAppend} {exchange : ChatExchange}
    (stage : messages.Stage xid append exchange)
    (same : ∀ row : ChatRow, row.xmin = xid → (row ∈ next.rows ↔ row ∈ messages.rows)) :
    next.Stage xid append exchange := by
  cases stage with
  | idle pending notDeleted noRows =>
      exact .idle pending notDeleted fun row isRow own =>
        noRows row ((same row own).mp isRow) own
  | half pending notDeleted row isRow own inSession =>
      exact .half pending notDeleted row ((same row own).mpr isRow) own inSession
  | full pending => exact .full pending

theorem Kept.distinctIds (kept : messages.Kept past) {left right : ChatRow}
    (leftIn : left ∈ messages.rows) (rightIn : right ∈ messages.rows) (same : left.id = right.id) :
    left = right := by
  have distinct : (messages.rows.map (·.id)).Nodup :=
    List.pairwise_map.mpr (kept.ordered.imp Nat.ne_of_lt)
  exact List.inj_on_of_nodup_map distinct leftIn rightIn same

theorem kept_empty : empty.Kept [] where
  ordered := List.Pairwise.nil
  drawn := List.forall_mem_nil _
  numbered _ _ found := nomatch found
  xmins := List.forall_mem_nil _
  whole _ := ⟨[], none, rfl, List.nodup_nil, List.forall_mem_nil _, fun _ isHalf => nomatch isHalf⟩
  staged _ _ found := nomatch found
  deletes _ _ _ found := nomatch found

theorem Kept.opened (kept : messages.Kept past) (session : ChatSession) (exchange : ChatExchange) :
    (messages.opened session exchange).Kept
      (past ++ [.begin messages.nextXid session exchange]) := by
  have others : ∀ xid, xid < messages.nextXid →
      (messages.opened session exchange).appends.find? xid = messages.appends.find? xid := by
    intro xid older
    rw [ChatMessages.opened, Table.find?_set, if_neg (Nat.ne_of_lt older)]
  have rowOthers : ∀ row ∈ messages.rows,
      (messages.opened session exchange).appends.find? row.xmin =
        messages.appends.find? row.xmin :=
    fun row isRow => others row.xmin (kept.xmins row isRow)
  have found_opened : ∀ xid append,
      (messages.opened session exchange).appends.find? xid = some append →
      (xid = messages.nextXid ∧ append = { session, pending := exchange.turns }) ∨
        messages.appends.find? xid = some append := by
    intro xid append found
    rw [ChatMessages.opened, Table.find?_set] at found
    split at found
    · rename_i isNew
      exact Or.inl ⟨isNew, (Option.some.inj found).symm⟩
    · exact Or.inr found
  constructor
  · exact kept.ordered
  · exact kept.drawn
  · intro xid append found
    rcases found_opened xid append found with ⟨rfl, _⟩ | old
    · exact Nat.lt_succ_self _
    · exact Nat.lt_succ_of_lt (kept.numbered xid append old)
  · exact fun row isRow => Nat.lt_succ_of_lt (kept.xmins row isRow)
  · intro session'
    obtain ⟨pairs, half, whole⟩ := kept.whole session'
    refine ⟨pairs, half, whole.rows, whole.distinct, ?_, ?_⟩
    · intro pair isPair
      have isRow := (whole.mem_pair isPair (Or.inl rfl)).1
      refine (whole.ofExchange pair isPair).later _ ?_
      rw [rowOthers pair.1 isRow]
      exact (whole.ofExchange pair isPair).full
    · intro row isHalf
      exact (whole.halfDone row isHalf).later _ (rowOthers row (whole.mem_half isHalf).1)
  · intro xid append found
    rcases found_opened xid append found with ⟨rfl, rfl⟩ | old
    · refine ⟨exchange, List.mem_append_right _ (List.mem_singleton.mpr rfl), ?_⟩
      exact .idle rfl rfl fun row isRow => Nat.ne_of_lt (kept.xmins row isRow)
    · obtain ⟨exchange', begun, stage⟩ := kept.staged xid append old
      exact ⟨exchange', List.mem_append_left _ begun, stage.later fun _ _ => Iff.rfl⟩
  · intro xid append ids found isDeleted
    rcases found_opened xid append found with ⟨rfl, rfl⟩ | old
    · cases isDeleted
    · obtain ⟨full, drawn, settled, whole⟩ := kept.deletes xid append ids old isDeleted
      refine ⟨full, drawn, ?_, whole⟩
      intro row isRow inIds
      rw [rowOthers row isRow]
      exact settled row isRow inIds

theorem Whole.unfinished (whole : messages.Whole past session pairs half) {xid : Nat}
    {append : ChatAppend} {turn : ChatTurn} {rest : List ChatTurn}
    (found : messages.appends.find? xid = some append) (pending : append.pending = turn :: rest) :
    ∀ pair ∈ pairs, pair.1.xmin ≠ xid := by
  intro pair isPair own
  have full := (whole.ofExchange pair isPair).full append (own ▸ found)
  rw [pending] at full
  cases full

/-- Where an append stands when it inserts: before its first row, with no half-done
append around, or after it, with its own row last. -/
theorem Kept.inserting (kept : messages.Kept past) {xid : Nat} {append : ChatAppend}
    {turn : ChatTurn} {rest : List ChatTurn}
    (found : messages.appends.find? xid = some append) (pending : append.pending = turn :: rest)
    (alone : messages.Uninterrupted (.insert xid))
    (whole : messages.Whole past append.session pairs half) :
    append.deleted = none ∧ ∃ exchange : ChatExchange,
      .begin xid append.session exchange ∈ past ∧
      ((half = none ∧ turn = exchange.pair.1 ∧ rest = [exchange.pair.2] ∧
          ∀ row ∈ messages.rows, row.xmin ≠ xid) ∨
        ∃ row, half = some row ∧ row.xmin = xid ∧ row.turn = exchange.pair.1 ∧
          turn = exchange.pair.2 ∧ rest = []) := by
  obtain ⟨exchange, begun, stage⟩ := kept.staged xid append found
  cases stage with
  | idle isPending notDeleted noRows =>
      obtain ⟨rfl, rfl⟩ := List.cons.inj (pending.symm.trans isPending)
      refine ⟨notDeleted, exchange, begun, Or.inl ⟨?_, rfl, rfl, noRows⟩⟩
      cases half with
      | none => rfl
      | some row =>
          -- another append would be half done
          obtain ⟨_, _, _, other⟩ := whole.halfDone row rfl
          have isRow := (whole.mem_half rfl).1
          have member := Table.find?_eq_some_iff.mp other
          exact absurd rfl (alone append found _ member (noRows row isRow) rfl)
  | half isPending notDeleted row isRow own inSession =>
      obtain ⟨rfl, rfl⟩ := List.cons.inj (pending.symm.trans isPending)
      rcases whole.cases_row isRow inSession with ⟨pair, isPair, _, sameXmin⟩ | isHalf
      · exact absurd (sameXmin.symm.trans own) (whole.unfinished found pending pair isPair)
      · obtain ⟨exchange', begun', first, found'⟩ := whole.halfDone row isHalf
        rw [own] at begun' found'
        have pending' : append.pending = [exchange'.pair.2] :=
          congrArg (·.pending) (Option.some.inj (found.symm.trans found'))
        exact ⟨notDeleted, exchange', begun', Or.inr ⟨row, isHalf, own, first,
          (List.cons.inj (isPending.symm.trans pending')).1, rfl⟩⟩
  | full isPending =>
      rw [pending] at isPending
      cases isPending

section Insert

variable {xid : Nat} {append : ChatAppend} {turn : ChatTurn} {rest : List ChatTurn}

/-- The row that an insert puts in. -/
def insertedRow (messages : ChatMessages) (xid : Nat) (append : ChatAppend) (turn : ChatTurn) :
    ChatRow :=
  { id := messages.nextId, xmin := xid, session := append.session, turn }

theorem inserted_own :
    (messages.inserted xid append turn rest).appends.find? xid =
      some { append with pending := rest } := by
  rw [inserted, Table.find?_set, if_pos rfl]

theorem inserted_others {other : Nat} (different : other ≠ xid) :
    (messages.inserted xid append turn rest).appends.find? other =
      messages.appends.find? other := by
  rw [inserted, Table.find?_set, if_neg different]

theorem mem_inserted_rows :
    row ∈ (messages.inserted xid append turn rest).rows ↔
      row ∈ messages.rows ∨ row = messages.insertedRow xid append turn := by
  rw [inserted, List.mem_append, List.mem_singleton, insertedRow]

theorem inserted_rows_elsewhere (elsewhere : append.session ≠ session) :
    (messages.inserted xid append turn rest).rows.filter (fun row => row.session = session) =
      messages.rows.filter fun row => row.session = session := by
  rw [inserted, List.filter_append, List.filter_cons, if_neg (by simpa using elsewhere),
    List.filter_nil, List.append_nil]

theorem inserted_rows_here :
    (messages.inserted xid append turn rest).rows.filter
        (fun row => row.session = append.session) =
      messages.rows.filter (fun row => row.session = append.session) ++
        [messages.insertedRow xid append turn] := by
  rw [inserted, List.filter_append, List.filter_cons, if_pos (decide_eq_true rfl),
    List.filter_nil, insertedRow]

/-- The exchanges of other appends stay. -/
theorem OfExchange.inserted (old : messages.OfExchange past session pair)
    (different : pair.1.xmin ≠ xid) :
    (messages.inserted xid append turn rest).OfExchange (past ++ [.insert xid]) session pair := by
  refine old.later _ ?_
  rw [inserted_others different]
  exact old.full

theorem Whole.inserted_elsewhere (whole : messages.Whole past session pairs half)
    (found : messages.appends.find? xid = some append) (pending : append.pending = turn :: rest)
    (elsewhere : append.session ≠ session) :
    (messages.inserted xid append turn rest).Whole (past ++ [.insert xid]) session pairs
      half where
  rows := (inserted_rows_elsewhere elsewhere).trans whole.rows
  distinct := whole.distinct
  ofExchange := fun pair isPair =>
    (whole.ofExchange pair isPair).inserted (whole.unfinished found pending pair isPair)
  halfDone := by
    intro other isHalf
    refine (whole.halfDone other isHalf).later _ (inserted_others ?_)
    rintro rfl
    obtain ⟨_, _, _, found'⟩ := whole.halfDone other isHalf
    obtain rfl := Option.some.inj (found.symm.trans found')
    exact elsewhere rfl

/-- The first row of an exchange is a half of its own. -/
theorem Whole.inserted_first {exchange : ChatExchange}
    (whole : messages.Whole past append.session pairs none)
    (found : messages.appends.find? xid = some append)
    (pending : append.pending = [exchange.pair.1, exchange.pair.2])
    (notDeleted : append.deleted = none) (begun : .begin xid append.session exchange ∈ past) :
    (messages.inserted xid append exchange.pair.1 [exchange.pair.2]).Whole
      (past ++ [.insert xid]) append.session pairs
      (some (messages.insertedRow xid append exchange.pair.1)) where
  rows := by
    rw [inserted_rows_here, whole.rows, Option.toList_none, List.append_nil, Option.toList_some]
  distinct := whole.distinct
  ofExchange := fun pair isPair =>
    (whole.ofExchange pair isPair).inserted (whole.unfinished found pending pair isPair)
  halfDone := by
    intro other isHalf
    obtain rfl := Option.some.inj isHalf
    refine ⟨exchange, List.mem_append_left _ begun, rfl, ?_⟩
    rw [insertedRow, inserted_own, ← notDeleted]

/-- The second row completes the pair. -/
theorem Whole.inserted_second {exchange : ChatExchange}
    (whole : messages.Whole past append.session pairs (some row))
    (found : messages.appends.find? xid = some append)
    (pending : append.pending = [exchange.pair.2])
    (ownRow : row.xmin = xid) (firstTurn : row.turn = exchange.pair.1)
    (begun : .begin xid append.session exchange ∈ past) :
    (messages.inserted xid append exchange.pair.2 []).Whole (past ++ [.insert xid])
      append.session (pairs ++ [(row, messages.insertedRow xid append exchange.pair.2)])
      none where
  rows := by
    rw [inserted_rows_here, whole.rows, pairRows_append, Option.toList_some, Option.toList_none,
      List.append_nil, List.append_assoc]
    rfl
  distinct := by
    rw [List.map_append, List.map_singleton, List.nodup_append]
    refine ⟨whole.distinct, List.nodup_singleton _, ?_⟩
    intro earlier member last isLast same
    obtain ⟨pair, isPair, rfl⟩ := List.mem_map.mp member
    rw [List.mem_singleton.mp isLast] at same
    exact whole.unfinished found pending pair isPair (same.trans ownRow)
  ofExchange := by
    intro pair member
    rcases List.mem_append.mp member with isPair | isLast
    · exact (whole.ofExchange pair isPair).inserted (whole.unfinished found pending pair isPair)
    · obtain rfl := List.mem_singleton.mp isLast
      refine ⟨ownRow.symm, ⟨exchange, ?_, firstTurn, rfl⟩, ?_⟩
      · rw [ownRow]
        exact List.mem_append_left _ begun
      · intro append' found'
        rw [ownRow, inserted_own] at found'
        obtain rfl := Option.some.inj found'
        rfl
  halfDone := by
    intro other isHalf
    cases isHalf

theorem Kept.inserted_whole (kept : messages.Kept past)
    (found : messages.appends.find? xid = some append) (pending : append.pending = turn :: rest)
    (alone : messages.Uninterrupted (.insert xid)) (session : ChatSession) :
    ∃ pairs half, (messages.inserted xid append turn rest).Whole (past ++ [.insert xid]) session
      pairs half := by
  obtain ⟨pairs, half, whole⟩ := kept.whole session
  by_cases same : append.session = session
  · subst same
    obtain ⟨notDeleted, exchange, begun, first | second⟩ :=
      kept.inserting found pending alone whole
    · obtain ⟨rfl, rfl, rfl, _⟩ := first
      exact ⟨pairs, _, whole.inserted_first found pending notDeleted begun⟩
    · obtain ⟨row', rfl, ownRow, firstTurn, rfl, rfl⟩ := second
      exact ⟨_, none, whole.inserted_second found pending ownRow firstTurn begun⟩
  · exact ⟨pairs, half, whole.inserted_elsewhere found pending same⟩

theorem Kept.inserted_staged (kept : messages.Kept past)
    (found : messages.appends.find? xid = some append) (pending : append.pending = turn :: rest)
    (alone : messages.Uninterrupted (.insert xid)) {other : Nat} {append' : ChatAppend}
    (found' : (messages.inserted xid append turn rest).appends.find? other = some append') :
    ∃ exchange, .begin other append'.session exchange ∈ past ++ [.insert xid] ∧
      (messages.inserted xid append turn rest).Stage other append' exchange := by
  by_cases same : other = xid
  · subst same
    rw [inserted_own] at found'
    obtain rfl := Option.some.inj found'
    obtain ⟨pairs, half, whole⟩ := kept.whole append.session
    obtain ⟨notDeleted, exchange, begun, first | second⟩ :=
      kept.inserting found pending alone whole
    · refine ⟨exchange, List.mem_append_left _ begun, ?_⟩
      exact .half first.2.2.1 notDeleted _ (mem_inserted_rows.mpr (Or.inr rfl)) rfl rfl
    · obtain ⟨_, _, _, _, _, done⟩ := second
      exact ⟨exchange, List.mem_append_left _ begun, .full done⟩
  · rw [inserted_others same] at found'
    obtain ⟨exchange, begun, stage⟩ := kept.staged other append' found'
    refine ⟨exchange, List.mem_append_left _ begun, stage.later ?_⟩
    intro row' otherRow
    rw [mem_inserted_rows]
    exact or_iff_left fun isNew => same (otherRow.symm.trans (congrArg (·.xmin) isNew))

theorem Kept.inserted_deletes (kept : messages.Kept past)
    (found : messages.appends.find? xid = some append) (pending : append.pending = turn :: rest)
    {other : Nat} {append' : ChatAppend} {ids : List Nat}
    (found' : (messages.inserted xid append turn rest).appends.find? other = some append')
    (isDeleted : append'.deleted = some ids) :
    (messages.inserted xid append turn rest).Deletes other append' ids := by
  have different : other ≠ xid := by
    rintro rfl
    rw [inserted_own] at found'
    obtain rfl := Option.some.inj found'
    have full := (kept.deletes other append ids found isDeleted).full
    rw [pending] at full
    cases full
  rw [inserted_others different] at found'
  obtain ⟨full, drawn, settled, whole⟩ := kept.deletes other append' ids found' isDeleted
  have notNew : ∀ row' ∈ (messages.inserted xid append turn rest).rows, row'.id ∈ ids →
      row' ∈ messages.rows := by
    intro row' member inIds
    rcases mem_inserted_rows.mp member with earlier | rfl
    · exact earlier
    · exact absurd (drawn _ inIds) (Nat.lt_irrefl _)
  have notXid : ∀ row' ∈ messages.rows, row'.id ∈ ids → row'.xmin ≠ xid := by
    intro row' isRow inIds isXid
    rcases settled row' isRow inIds with isOther | gone
    · exact different (isOther.symm.trans isXid)
    · rw [isXid, found] at gone
      cases gone
  refine ⟨full, fun id inIds => Nat.lt_succ_of_lt (drawn id inIds), ?_, ?_⟩
  · intro row' member inIds
    have isRow := notNew row' member inIds
    rw [inserted_others (notXid row' isRow inIds)]
    exact settled row' isRow inIds
  · intro row' member last isLast inIds sameSession sameXmin
    have isRow := notNew row' member inIds
    rcases mem_inserted_rows.mp isLast with earlier | rfl
    · exact whole row' isRow last earlier inIds sameSession sameXmin
    · exact absurd sameXmin.symm (notXid row' isRow inIds)

theorem Kept.inserted (kept : messages.Kept past)
    (found : messages.appends.find? xid = some append) (pending : append.pending = turn :: rest)
    (alone : messages.Uninterrupted (.insert xid)) :
    (messages.inserted xid append turn rest).Kept (past ++ [.insert xid]) := by
  have isLive : xid < messages.nextXid := kept.numbered xid append found
  constructor
  · refine List.pairwise_append.mpr ⟨kept.ordered, List.pairwise_singleton _ _, ?_⟩
    intro earlier isRow last isLast
    rw [List.mem_singleton.mp isLast]
    exact kept.drawn earlier isRow
  · intro other member
    rcases mem_inserted_rows.mp member with earlier | rfl
    · exact Nat.lt_succ_of_lt (kept.drawn other earlier)
    · exact Nat.lt_succ_self _
  · intro other found' isAppend
    by_cases same : other = xid
    · rw [same]
      exact isLive
    · rw [inserted_others same] at isAppend
      exact kept.numbered other found' isAppend
  · intro other member
    rcases mem_inserted_rows.mp member with earlier | rfl
    · exact kept.xmins other earlier
    · exact isLive
  · exact kept.inserted_whole found pending alone
  · exact fun _ _ found' => kept.inserted_staged found pending alone found'
  · exact fun _ _ _ found' isDeleted => kept.inserted_deletes found pending found' isDeleted

end Insert

/-- The rows that a statement selects are whole exchanges, once its own are. -/
theorem Whole.selected (whole : messages.Whole past session pairs half) (own : Option Nat)
    (ready : ∀ xid ∈ own, ∀ append, messages.appends.find? xid = some append →
      append.pending = []) :
    ∃ sub : List (ChatRow × ChatRow), sub.Sublist pairs ∧
      messages.selected own session = pairRows sub := by
  let keep : ChatRow → Bool := fun row => messages.sees own row && row.inSession session
  have alike : ∀ pair ∈ pairs, keep pair.1 = keep pair.2 := by
    intro pair isPair
    have firstSession := (whole.mem_pair isPair (Or.inl rfl)).2
    have secondSession := (whole.mem_pair isPair (Or.inr rfl)).2
    simp only [keep, sees, ChatRow.inSession, firstSession, secondSession,
      (whole.ofExchange pair isPair).alike]
  have noHalf : half.toList.filter keep = [] := by
    rw [List.filter_eq_nil_iff]
    intro row member kept
    obtain ⟨exchange, _, _, found⟩ := whole.halfDone row (Option.mem_toList.mp member)
    simp only [keep, sees, found, Option.isNone_some, Bool.or_false, Bool.and_eq_true,
      beq_iff_eq] at kept
    have done := ready row.xmin kept.1 _ found
    cases done
  refine ⟨pairs.filter fun pair => keep pair.1, List.filter_sublist, ?_⟩
  calc messages.selected own session
      = (messages.rows.filter fun row => row.session = session).filter keep := by
        rw [ChatMessages.selected, List.filter_filter]
        apply List.filter_congr
        intro row _
        simp only [keep, ChatRow.inSession]
        by_cases same : row.session = session <;> simp [same]
    _ = pairRows (pairs.filter fun pair => keep pair.1) := by
        rw [whole.rows, List.filter_append, noHalf, List.append_nil, filter_pairRows alike]

/-- The newest messages of a selection, in their order, are its newest exchanges. -/
theorem Kept.newest (kept : messages.Kept past) {own : Option Nat} (maxTurns : Nat)
    (selected : messages.selected own session = pairRows pairs) :
    (newest (2 * maxTurns) (messages.selected own session)).reverse =
      pairRows (pairs.drop (pairs.length - maxTurns)) := by
  have ordered : (messages.selected own session).Pairwise ChatRow.byId :=
    (kept.ordered.sublist List.filter_sublist).imp Nat.le_of_lt
  rw [ChatMessages.newest, ordered.insertionSort_eq, selected, newest_pairRows]

/-- The history is a list of whole exchanges. -/
theorem Kept.get (kept : messages.Kept past) {maxTurns : Nat} {history : List ChatTurn}
    (got : messages.get (2 * maxTurns) session = .ok history) :
    WholeExchanges (fun xid exchange => .begin xid session exchange ∈ past) maxTurns history := by
  obtain ⟨pairs, half, whole⟩ := kept.whole session
  obtain ⟨sub, isSub, selected⟩ := whole.selected none fun _ own => nomatch own
  let shown := sub.drop (sub.length - maxTurns)
  have isShown : shown.Sublist pairs := (List.drop_sublist _ _).trans isSub
  let exchangeOf : ChatRow × ChatRow → Nat × ChatExchange := fun pair =>
    (pair.1.xmin, ⟨pair.1.turn.content, pair.2.turn.content⟩)
  have isExchange : ∀ pair ∈ shown, ∃ exchange, exchangeOf pair = (pair.1.xmin, exchange) ∧
      .begin pair.1.xmin session exchange ∈ past ∧ pair.1.turn = exchange.pair.1 ∧
      pair.2.turn = exchange.pair.2 := by
    intro pair member
    obtain ⟨exchange, begun, first, second⟩ :=
      (whole.ofExchange pair (isShown.subset member)).begun
    refine ⟨exchange, ?_, begun, first, second⟩
    simp only [exchangeOf, first, second]
    rfl
  have isHistory : history = (pairRows shown).map (·.turn) := by
    have shownRows := kept.newest maxTurns selected
    rw [ChatMessages.get] at got
    cases tenant : setTenant session.tenantId with
    | error e =>
        rw [tenant] at got
        cases got
    | ok _ =>
        rw [tenant] at got
        rw [← Except.ok.inj got, shownRows]
  refine ⟨shown.map exchangeOf, ?_, ?_, ?_, ?_⟩
  · rw [List.map_map]
    exact (isShown.map _).nodup whole.distinct
  · intro entry member
    obtain ⟨pair, isPair, rfl⟩ := List.mem_map.mp member
    obtain ⟨exchange, isIt, begun, _⟩ := isExchange pair isPair
    rw [isIt]
    exact begun
  · rw [isHistory, List.map_map, map_pairRows]
    congr 1
    apply List.map_congr_left
    intro pair isPair
    obtain ⟨exchange, isIt, _, first, second⟩ := isExchange pair isPair
    rw [Function.comp_apply, isIt, first, second]
  · rw [List.length_map, List.length_drop]
    omega

theorem Kept.mem_outdated (kept : messages.Kept past) {maxTurns xid : Nat}
    (selected : messages.selected (some xid) session = pairRows pairs) {row : ChatRow}
    (isRow : row ∈ messages.rows) :
    row.id ∈ outdated (2 * maxTurns) messages xid session ↔
      row ∈ pairRows pairs ∧ row ∉ pairRows (pairs.drop (pairs.length - maxTurns)) := by
  have inRows : ∀ other ∈ pairRows pairs, other ∈ messages.rows := by
    intro other member
    rw [← selected] at member
    exact (List.mem_filter.mp member).1
  have isKept : ∀ other, other ∈ ChatMessages.newest (2 * maxTurns)
        (messages.selected (some xid) session) ↔
      other ∈ pairRows (pairs.drop (pairs.length - maxTurns)) := by
    intro other
    rw [← kept.newest maxTurns selected, List.mem_reverse]
  rw [selected] at isKept
  have stays : ∀ other ∈ pairRows (pairs.drop (pairs.length - maxTurns)),
      other ∈ pairRows pairs := by
    intro other member
    rw [← drop_pairRows] at member
    exact List.mem_of_mem_drop member
  rw [outdated, List.mem_filter, decide_eq_true_eq, List.mem_map, List.mem_map]
  simp only [selected, isKept]
  constructor
  · rintro ⟨⟨other, isSelected, sameId⟩, notKept⟩
    rw [kept.distinctIds (inRows other isSelected) isRow sameId] at isSelected
    exact ⟨isSelected, fun isNewest => notKept ⟨row, isNewest, rfl⟩⟩
  · rintro ⟨isSelected, notNewest⟩
    refine ⟨⟨row, isSelected, rfl⟩, ?_⟩
    rintro ⟨other, isNewest, sameId⟩
    rw [kept.distinctIds (inRows other (stays other isNewest)) isRow sameId] at isNewest
    exact notNewest isNewest

/-- The `DELETE` takes whole exchanges. -/
theorem Kept.outdated_deletes (kept : messages.Kept past) (maxTurns : Nat) {xid : Nat}
    {append : ChatAppend} (found : messages.appends.find? xid = some append)
    (full : append.pending = []) :
    messages.Deletes xid append (outdated (2 * maxTurns) messages xid append.session) := by
  obtain ⟨pairs, half, whole⟩ := kept.whole append.session
  obtain ⟨sub, isSub, selected⟩ : ∃ sub : List (ChatRow × ChatRow), sub.Sublist pairs ∧
      messages.selected (some xid) append.session = pairRows sub := by
    apply whole.selected
    intro own isOwn append' found'
    obtain rfl := Option.some.inj isOwn
    rw [← Option.some.inj (found.symm.trans found')]
    exact full
  have isSelected : ∀ row ∈ pairRows sub, row ∈ messages.rows ∧ messages.sees (some xid) row ∧
      row.inSession append.session := by
    intro row member
    rw [← selected] at member
    obtain ⟨isRow, both⟩ := List.mem_filter.mp member
    exact ⟨isRow, (Bool.and_eq_true _ _ ▸ both)⟩
  refine ⟨full, ?_, ?_, ?_⟩
  · intro id inIds
    obtain ⟨row, member, rfl⟩ := List.mem_map.mp (List.mem_filter.mp inIds).1
    exact kept.drawn row (List.mem_filter.mp member).1
  · intro row isRow inIds
    obtain ⟨member, _⟩ := (kept.mem_outdated selected isRow).mp inIds
    have sees := (isSelected row member).2.1
    rw [ChatMessages.sees, Bool.or_eq_true, beq_iff_eq, Option.isNone_iff_eq_none] at sees
    exact sees.imp (fun own => (Option.some.inj own).symm) id
  · intro row isRow other isOther inIds sameSession sameXmin
    obtain ⟨member, notNewest⟩ := (kept.mem_outdated selected isRow).mp inIds
    have alike : ∀ pair ∈ sub, pair.2.xmin = pair.1.xmin := fun pair isPair =>
      (whole.ofExchange pair (isSub.subset isPair)).alike
    have distinct : (sub.map fun pair => pair.1.xmin).Nodup :=
      (isSub.map _).nodup whole.distinct
    have otherSelected : other ∈ pairRows sub := by
      rw [← selected]
      refine List.mem_filter.mpr ⟨isOther, ?_⟩
      obtain ⟨_, sees, inSession⟩ := isSelected row member
      simp only [ChatMessages.sees, ChatRow.inSession, sameXmin, sameSession] at sees inSession ⊢
      rw [sees, inSession]
      rfl
    refine (kept.mem_outdated selected isOther).mpr ⟨otherSelected, ?_⟩
    intro otherNewest
    exact notNewest (mem_pairRows_of_tag alike distinct (List.drop_subset _ _) otherNewest member
      sameXmin)

theorem Kept.trimmed (kept : messages.Kept past) {maxTurns xid : Nat} {append : ChatAppend}
    (found : messages.appends.find? xid = some append) (full : append.pending = []) :
    (messages.trimmed (2 * maxTurns) xid append).Kept (past ++ [.trim xid]) := by
  have own : (messages.trimmed (2 * maxTurns) xid append).appends.find? xid =
      some { append with
        deleted := some (outdated (2 * maxTurns) messages xid append.session) } := by
    rw [ChatMessages.trimmed, Table.find?_set, if_pos rfl]
  have others : ∀ other, other ≠ xid →
      (messages.trimmed (2 * maxTurns) xid append).appends.find? other =
        messages.appends.find? other := by
    intro other different
    rw [ChatMessages.trimmed, Table.find?_set, if_neg different]
  have ownFull : ∀ append', messages.appends.find? xid = some append' → append'.pending = [] := by
    intro append' found'
    rw [← Option.some.inj (found.symm.trans found')]
    exact full
  constructor
  · exact kept.ordered
  · exact kept.drawn
  · intro other append' found'
    by_cases same : other = xid
    · rw [same]
      exact kept.numbered xid append found
    · rw [others other same] at found'
      exact kept.numbered other append' found'
  · exact kept.xmins
  · intro session
    obtain ⟨pairs, half, whole⟩ := kept.whole session
    refine ⟨pairs, half, whole.rows, whole.distinct, ?_, ?_⟩
    · intro pair isPair
      refine (whole.ofExchange pair isPair).later _ ?_
      intro append' found'
      by_cases same : pair.1.xmin = xid
      · rw [same, own] at found'
        rw [← Option.some.inj found']
        exact full
      · rw [others _ same] at found'
        exact (whole.ofExchange pair isPair).full append' found'
    · intro row isHalf
      refine (whole.halfDone row isHalf).later _ (others _ ?_)
      intro same
      obtain ⟨_, _, _, found'⟩ := whole.halfDone row isHalf
      have done := ownFull _ (same ▸ found')
      cases done
  · intro other append' found'
    by_cases same : other = xid
    · subst same
      obtain ⟨exchange, begun, _⟩ := kept.staged other append found
      rw [own] at found'
      obtain rfl := Option.some.inj found'
      exact ⟨exchange, List.mem_append_left _ begun, .full full⟩
    · rw [others other same] at found'
      obtain ⟨exchange, begun, stage⟩ := kept.staged other append' found'
      exact ⟨exchange, List.mem_append_left _ begun, stage.later fun _ _ => Iff.rfl⟩
  · intro other append' ids found' isDeleted
    by_cases same : other = xid
    · subst same
      rw [own] at found'
      obtain rfl := Option.some.inj found'
      obtain rfl := Option.some.inj isDeleted
      obtain ⟨_, drawn, settled, whole⟩ := kept.outdated_deletes maxTurns found full
      refine ⟨full, drawn, ?_, whole⟩
      intro row isRow inIds
      by_cases isOwn : row.xmin = other
      · exact Or.inl isOwn
      · rw [others _ isOwn]
        exact settled row isRow inIds
    · rw [others other same] at found'
      obtain ⟨full', drawn, settled, whole⟩ := kept.deletes other append' ids found' isDeleted
      refine ⟨full', drawn, ?_, whole⟩
      intro row isRow inIds
      rcases settled row isRow inIds with isOther | gone
      · exact Or.inl isOther
      · refine Or.inr ?_
        rw [others _ ?_]
        · exact gone
        · rintro rfl
          rw [found] at gone
          cases gone

/-- An append ends: some of its rows or of the committed ones go away, pair by pair. -/
theorem Kept.ended (kept : messages.Kept past) {xid : Nat} {keep : ChatRow → Bool}
    (event : ChatEvent)
    (alike : ∀ left ∈ messages.rows, ∀ right ∈ messages.rows, left.session = right.session →
      left.xmin = right.xmin → keep left = true → keep right = true)
    (others : ∀ row ∈ messages.rows, ∀ append,
      messages.appends.find? row.xmin = some append → row.xmin ≠ xid → keep row = true)
    (noHalf : ∀ row ∈ messages.rows, keep row = true → row.xmin = xid →
      ∀ append, messages.appends.find? xid = some append → append.pending = []) :
    Kept { messages with
      rows := messages.rows.filter keep, appends := messages.appends.erase xid }
      (past ++ [event]) := by
  have fewer : ∀ other append, (messages.appends.erase xid).find? other = some append →
      other ≠ xid ∧ messages.appends.find? other = some append := by
    intro other append found
    rw [Table.find?_erase] at found
    split at found
    · cases found
    · rename_i different
      exact ⟨different, found⟩
  constructor
  · exact kept.ordered.sublist List.filter_sublist
  · exact fun row member => kept.drawn row (List.mem_filter.mp member).1
  · exact fun other append found => kept.numbered other append (fewer other append found).2
  · exact fun row member => kept.xmins row (List.mem_filter.mp member).1
  · intro session
    obtain ⟨pairs, half, whole⟩ := kept.whole session
    refine ⟨_, _, whole.filter event rfl ?_ (fun other append found =>
      (fewer other append found).2) ?_⟩
    · intro pair isPair
      obtain ⟨firstRow, firstSession⟩ := whole.mem_pair isPair (Or.inl rfl)
      obtain ⟨secondRow, secondSession⟩ := whole.mem_pair isPair (Or.inr rfl)
      have sameXmin := (whole.ofExchange pair isPair).alike
      rw [Bool.eq_iff_iff]
      exact ⟨alike _ firstRow _ secondRow (firstSession.trans secondSession.symm) sameXmin.symm,
        alike _ secondRow _ firstRow (secondSession.trans firstSession.symm) sameXmin⟩
    · intro row isHalf isKept
      obtain ⟨_, _, _, found⟩ := whole.halfDone row isHalf
      refine Table.find?_erase_ne _ ?_
      intro same
      have done := noHalf row (whole.mem_half isHalf).1 isKept same _ (same ▸ found)
      cases done
  · intro other append found
    obtain ⟨different, found'⟩ := fewer other append found
    obtain ⟨exchange, begun, stage⟩ := kept.staged other append found'
    refine ⟨exchange, List.mem_append_left _ begun, stage.later ?_⟩
    intro row own
    rw [List.mem_filter]
    refine and_iff_left_of_imp fun isRow => ?_
    exact others row isRow append (own ▸ found') (own ▸ different)
  · intro other append ids found isDeleted
    obtain ⟨_, found'⟩ := fewer other append found
    obtain ⟨full, drawn, settled, whole⟩ := kept.deletes other append ids found' isDeleted
    refine ⟨full, drawn, ?_, ?_⟩
    · intro row member inIds
      refine (settled row (List.mem_filter.mp member).1 inIds).imp_right fun gone => ?_
      rw [Table.find?_erase, gone, ite_self]
    · intro row member last isLast
      exact whole row (List.mem_filter.mp member).1 last (List.mem_filter.mp isLast).1

theorem Kept.committed (kept : messages.Kept past) {xid : Nat} {append : ChatAppend}
    {ids : List Nat} (found : messages.appends.find? xid = some append)
    (isDeleted : append.deleted = some ids) :
    (messages.committed xid ids).Kept (past ++ [.commit xid]) := by
  obtain ⟨full, _, settled, whole⟩ := kept.deletes xid append ids found isDeleted
  apply kept.ended
  · intro left leftRow right rightRow sameSession sameXmin leftKept
    rw [decide_eq_true_eq] at leftKept ⊢
    exact fun inIds => leftKept (whole right rightRow left leftRow inIds sameSession sameXmin)
  · intro row isRow other found' different
    rw [decide_eq_true_eq]
    intro inIds
    rcases settled row isRow inIds with own | gone
    · exact different own
    · rw [found'] at gone
      cases gone
  · intro _ _ _ _ append' found'
    rw [← Option.some.inj (found.symm.trans found')]
    exact full

theorem Kept.aborted (kept : messages.Kept past) (xid : Nat) :
    (messages.aborted xid).Kept (past ++ [.abort xid]) := by
  apply kept.ended
  · intro left _ right _ _ sameXmin leftKept
    rw [← sameXmin]
    exact leftKept
  · exact fun _ _ _ _ different => decide_eq_true different
  · intro row _ isKept own
    exact absurd own (of_decide_eq_true isKept)

/-- One step. -/
theorem Kept.step (kept : messages.Kept past) {maxTurns : Nat} {event : ChatEvent}
    (alone : messages.Uninterrupted event)
    (taken : step (2 * maxTurns) messages event = some next) : next.Kept (past ++ [event]) := by
  have move : Move (2 * maxTurns) messages event next := step_move taken
  cases move with
  | opened session exchange => exact kept.opened session exchange
  | inserted found pending => exact kept.inserted found pending alone
  | trimmed found full => exact kept.trimmed found full
  | committed found isDeleted => exact kept.committed found isDeleted
  | aborted found => exact kept.aborted _

/-- A whole run. -/
theorem kept_of_exec {maxTurns : Nat} {events : List ChatEvent}
    (ran : (system (2 * maxTurns)).exec .empty events = some messages)
    (uninterrupted : (system (2 * maxTurns)).Meets Uninterrupted .empty events) :
    messages.Kept events :=
  System.exec_keeps_history (fun past messages => messages.Kept past) kept_empty
    (fun _ _ _ _ kept alone taken => kept.step alone taken) ran uninterrupted

end ChatMessages

/-- Both histories are lists of whole exchanges, the one in PostgreSQL along every run in
which no append inserts between the two inserts of another in its session. -/
theorem chat_histories_whole (maxTurns : Nat) (store : ChatHistoryStore)
    (made : ChatHistoryStore.make maxTurns = .ok store) (calls : List ChatCall)
    (events : List ChatEvent) (messages : ChatMessages)
    (ran : (ChatMessages.system (2 * maxTurns)).exec .empty events = some messages)
    (uninterrupted : (ChatMessages.system (2 * maxTurns)).Meets ChatMessages.Uninterrupted .empty
      events) (session : ChatSession) :
    WholeExchanges (ChatHistoryStore.written session calls) maxTurns
        ((store.run calls).get session).1 ∧
      ∀ history, messages.get (2 * maxTurns) session = .ok history →
        WholeExchanges (fun xid exchange => .begin xid session exchange ∈ events) maxTurns
          history := by
  constructor
  · obtain ⟨isMaxTurns, fresh⟩ := ChatHistoryStore.make_ok made
    rw [← isMaxTurns]
    exact ChatHistoryStore.run_wholeExchanges (fresh session) calls
  · intro history got
    exact (ChatMessages.kept_of_exec ran uninterrupted).get got

def aliceSession : ChatSession := { tenantId := "acme", userId := "alice", sessionId := "1" }

/-- Two requests of one session whose transactions are open at once; the argument is who
inserts when. -/
def overlapping (inserts : List Nat) : List ChatEvent :=
  [.begin 1 aliceSession ⟨"a?", "a."⟩, .begin 2 aliceSession ⟨"b?", "b."⟩] ++
    inserts.map .insert ++ [.trim 1, .commit 1, .trim 2, .commit 2]

theorem inserts_in_turn_stay_whole :
    (∃ messages, (ChatMessages.system 24).exec .empty (overlapping [2, 2, 1, 1]) = some messages ∧
      ∃ history, messages.get 24 aliceSession = .ok history ∧ history.length = 4 ∧
        WholeExchanges
          (fun xid exchange => .begin xid aliceSession exchange ∈ overlapping [2, 2, 1, 1]) 12
          history) := by
  let messages := ((ChatMessages.system 24).exec .empty (overlapping [2, 2, 1, 1])).getD .empty
  have ran : (ChatMessages.system 24).exec .empty (overlapping [2, 2, 1, 1]) = some messages := by
    decide +kernel
  have whole := (chat_histories_whole 12 ⟨12, by decide, .empty⟩ rfl [] _ messages ran
    (by decide +kernel) aliceSession).2
  exact ⟨messages, ran, [⟨"user", "b?"⟩, ⟨"assistant", "b."⟩, ⟨"user", "a?"⟩, ⟨"assistant", "a."⟩],
    by decide +kernel, rfl, whole _ (by decide +kernel)⟩

/-- Both questions come before both answers. -/
theorem crossed_inserts_mix_exchanges :
    ¬ ∀ (maxTurns : Nat) (events : List ChatEvent) (messages : ChatMessages),
      (ChatMessages.system (2 * maxTurns)).exec .empty events = some messages →
      ∀ session history, messages.get (2 * maxTurns) session = .ok history →
        WholeExchanges (fun xid exchange => .begin xid session exchange ∈ events) maxTurns
          history := by
  intro always
  let messages := ((ChatMessages.system 24).exec .empty (overlapping [1, 2, 1, 2])).getD .empty
  have ran : (ChatMessages.system 24).exec .empty (overlapping [1, 2, 1, 2]) = some messages := by
    decide +kernel
  have whole := always 12 _ messages ran aliceSession
    [⟨"user", "a?"⟩, ⟨"user", "b?"⟩, ⟨"assistant", "a."⟩, ⟨"assistant", "b."⟩] (by decide +kernel)
  have answered := whole.second_role rfl
  exact absurd answered (by decide)

end ProductionRag
