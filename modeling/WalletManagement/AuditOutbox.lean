import WalletManagement.Scripted

/-!
# The audit outbox

`EmitterService` of `internal/audit` writes an event to the outbox under the next number of its
wallet, and hands undelivered events to a sink in batches, marking them one by one afterwards. Both
run inside transactions of the store or outside any; a rollback takes the events and the numbers of
its transaction back. The state is the store with the open transaction and the batches that were
handed to the sink.
-/

namespace WalletManagement

open Interaction Data Go

/-! ## The service -/

/-- The calls of the emitter. -/
inductive AuditOp where
  | nextAuditSeq (walletID : UUID)
  | appendAuditEvent (e : AuditOutboxEvent)
  | listUndeliveredAuditEvents (limit : Nat)
  | markAuditDelivered (id : UUID)
  /-- `Sink.Deliver`. -/
  | deliver (events : List AuditOutboxEvent)
  /-- `uuid.NewV7`, with its error ignored. -/
  | newV7
  /-- `time.Now().UnixNano()`. -/
  | unixNano
  deriving DecidableEq

/-- The answers of a call. -/
abbrev AuditOp.Ans : AuditOp → Type
  | .nextAuditSeq _ => Except Err Int
  | .appendAuditEvent _ => Except Err Unit
  | .listUndeliveredAuditEvents _ => Except Err (List AuditOutboxEvent)
  | .markAuditDelivered _ => Except Err Unit
  | .deliver _ => Except Err Unit
  | .newV7 => UUID
  | .unixNano => Int

/-- The signature of the emitter. -/
abbrev auditCalls : Signature := ⟨AuditOp, AuditOp.Ans⟩

/-- Programs of the emitter. -/
abbrev AuditProg (α : Type) : Type := Program auditCalls α

/-- `audit.EmitterService`: what the service is constructed with, and the package it calls. -/
structure EmitterService where
  /-- `json.Marshal` on payloads. -/
  marshal : List (String × AuditValue) → Except Err (List UInt8)
  /-- `Sink` is not nil. -/
  sink : Bool := true

namespace EmitterService

/-- The number of an event: the next one of its wallet, or the clock. -/
def seqFor : Option UUID → AuditProg (Except Err Int)
  | some walletID => Program.perform (S := auditCalls) (.nextAuditSeq walletID)
  | none => do
    let now ← Program.perform (S := auditCalls) .unixNano
    pure (.ok now)

/-- The end of `Emit`, for an event with a number. -/
def appendRow (ev : AuditEvent) (payload : List UInt8) (seq : Int) :
    AuditProg (Except Err Unit) := do
  let rowID ← Program.perform (S := auditCalls) .newV7
  let eventID ← Program.perform (S := auditCalls) .newV7
  Program.perform (S := auditCalls)
    (.appendAuditEvent ⟨rowID, eventID, ev.walletID, ev.eventType, payload, seq, false, 0⟩)

/-- `Emit`. -/
def emit (svc : EmitterService) (ev : AuditEvent) : AuditProg (Except Err Unit) := do
  match svc.marshal ev.payload with
  | .error err => pure (.error (err.wrap "marshal audit payload"))
  | .ok payload =>
    match ← seqFor ev.walletID with
    | .error err => pure (.error (err.wrap "next audit seq"))
    | .ok seq => appendRow ev payload seq

/-- The loop of `Drain` over a delivered batch. -/
def markAll : List AuditOutboxEvent → AuditProg (Except Err Unit)
  | [] => pure (.ok ())
  | ev :: rest => do
    match ← Program.perform (S := auditCalls) (.markAuditDelivered ev.id) with
    | .error err => pure (.error err)
    | .ok () => markAll rest

/-- `Drain`. -/
def drain (svc : EmitterService) : AuditProg (Except Err Unit) := do
  match ← Program.perform (S := auditCalls) (.listUndeliveredAuditEvents 100) with
  | .error err => pure (.error err)
  | .ok events =>
    if events = [] then pure (.ok ())
    else if svc.sink then
      match ← Program.perform (S := auditCalls) (.deliver events) with
      | .error err => pure (.error err)
      | .ok () => markAll events
    else markAll events

end EmitterService

/-! ## The meaning of the calls -/

/-- A batch that was handed to the sink, with the outbox at that time and the answer. -/
structure Handed where
  events : List AuditOutboxEvent
  outbox : List AuditOutboxEvent
  answer : Except Err Unit
  deriving DecidableEq

/-- The store with the open transaction, and the batches handed to the sink, the last one first. -/
structure AuditWorld extends World Unit where
  handed : List Handed := []

/-- No event in the outbox has the identifier. -/
def Store.Unused (s : Store) (id : UUID) : Prop :=
  ∀ e ∈ s.auditOutbox, e.id ≠ id ∧ e.eventID ≠ id

/-- The meaning of the calls. `uuid.NewV7` gives out an identifier that no event in the outbox has.
The sink and the clock answer anything. `MarkAuditDelivered` may fail, before or after the row is
written. -/
def auditStep (order : SortSlice Store.seqBefore) : Transition auditCalls AuditWorld
  | .nextAuditSeq walletID, w, answer, w' => answer = .ok (w.store.nextAuditSeq walletID).1 ∧
      w' = { w with store := (w.store.nextAuditSeq walletID).2 }
  | .appendAuditEvent e, w, answer, w' => answer = (w.store.appendAuditEvent e).1 ∧
      w' = { w with store := (w.store.appendAuditEvent e).2 }
  | .listUndeliveredAuditEvents limit, w, answer, w' =>
    answer = .ok (w.store.listUndeliveredAuditEvents order limit) ∧ w' = w
  | .markAuditDelivered id, w, answer, w' =>
    (answer = (w.store.markAuditDelivered id).1 ∧
      w' = { w with store := (w.store.markAuditDelivered id).2 }) ∨
    ((∃ err, answer = .error err) ∧
      (w' = w ∨ w' = { w with store := (w.store.markAuditDelivered id).2 }))
  | .deliver events, w, answer, w' =>
    w' = { w with handed := ⟨events, w.store.auditOutbox, answer⟩ :: w.handed }
  | .newV7, w, id, w' => w.store.Unused id ∧ w' = w
  | .unixNano, w, _, w' => w' = w

namespace AuditWorld

/-- `InTx` begins. -/
def begin (w : AuditWorld) : AuditWorld := { w with toWorld := w.beginTx }

/-- `InTx` returns without an error. -/
def commit (w : AuditWorld) : AuditWorld := { w with toWorld := w.commitTx }

/-- `InTx` returns an error. -/
def rollback (w : AuditWorld) : AuditWorld := { w with toWorld := w.rollbackTx }

end AuditWorld

/-- A complete `Emit` or `Drain`, the beginning or the end of a transaction, or a write of another
service that is not to the outbox. The length of a slice is an `int`. -/
inductive AuditTurn (order : SortSlice Store.seqBefore) (w : AuditWorld) : AuditWorld → Prop where
  | emit {svc : EmitterService} {ev : AuditEvent} {result : Except Err Unit} {w' : AuditWorld}
    (execution : (svc.emit ev).Exec (auditStep order) w result w')
    (fits : w'.store.auditOutbox.length < 2 ^ 63) : AuditTurn order w w'
  | drain {svc : EmitterService} {result : Except Err Unit} {w' : AuditWorld}
    (sink : svc.sink = true) (execution : svc.drain.Exec (auditStep order) w result w') :
    AuditTurn order w w'
  | begin : AuditTurn order w w.begin
  | commit (isOpen : 0 < w.depth) : AuditTurn order w w.commit
  | rollback (isOpen : 0 < w.depth) : AuditTurn order w w.rollback
  | elsewhere {s : Store} (outbox : s.auditOutbox = w.store.auditOutbox)
    (counters : s.auditSeqCounters = w.store.auditSeqCounters) :
    AuditTurn order w { w with store := s }

/-- Any number of them, one after the other. -/
abbrev AuditRuns (order : SortSlice Store.seqBefore) : AuditWorld → AuditWorld → Prop :=
  Relation.ReflTransGen (AuditTurn order)

/-- Any number of them, after each of which a transaction is open. -/
abbrev AuditInside (order : SortSlice Store.seqBefore) : AuditWorld → AuditWorld → Prop :=
  Relation.ReflTransGen fun w w' => AuditTurn order w w' ∧ 0 < w'.depth

/-! ## The events -/

/-- An event apart from its delivery. -/
def AuditOutboxEvent.content (e : AuditOutboxEvent) : AuditOutboxEvent :=
  { e with delivered := false, attempts := 0 }

/-- The event is one that an emitter writes for what it is handed. -/
structure AuditOutboxEvent.Tells (svc : EmitterService) (ev : AuditEvent) (e : AuditOutboxEvent) :
    Prop where
  walletID : e.walletID = ev.walletID
  eventType : e.eventType = ev.eventType
  payload : svc.marshal ev.payload = .ok e.payload

/-- The event is one of a wallet. -/
def AuditOutboxEvent.isOf (walletID : UUID) (e : AuditOutboxEvent) : Bool :=
  e.walletID = some walletID

/-- The events in the outbox apart from their delivery, in the order they were appended. -/
def Store.auditEvents (s : Store) : List AuditOutboxEvent := s.auditOutbox.map .content

/-- The last number of a wallet. -/
def Store.lastAuditSeq (s : Store) (walletID : UUID) : Int :=
  ((s.auditSeqCounters.get walletID).map AuditSeqCounter.last).getD 0

/-- What holds of the events and the last number of each wallet: no two events have the same
identifier, the numbers of a wallet rise from event to event up to its last number, and no wallet
has had more numbers than there are events. -/
structure EventsNumbered (last : UUID → Int) (events : List AuditOutboxEvent) : Prop where
  ids : (events.map AuditOutboxEvent.id).Nodup
  rising : events.Pairwise fun e e' =>
    ∀ walletID, e.walletID = some walletID → e'.walletID = some walletID → e.seq < e'.seq
  bounded : ∀ e ∈ events, ∀ walletID, e.walletID = some walletID → e.seq ≤ last walletID
  counted : ∀ walletID, 0 ≤ last walletID ∧ last walletID ≤ events.length

/-- The outbox is numbered. -/
def Store.OutboxOK (s : Store) : Prop := EventsNumbered s.lastAuditSeq s.auditEvents

/-- The sink accepted a batch with every event that is marked as delivered. -/
def Store.Justified (handed : List Handed) (s : Store) : Prop :=
  ∀ e ∈ s.auditOutbox, e.delivered = true →
    ∃ batch ∈ handed, batch.answer = .ok () ∧ e.content ∈ batch.events.map .content

/-- A batch is sorted, has at most a hundred events, and contains for each wallet its first
undelivered events: the other ones all have a larger number. -/
structure Handed.Orderly (batch : Handed) : Prop where
  sorted : batch.events.Pairwise fun e e' => e.seq ≤ e'.seq
  bounded : batch.events.length ≤ 100
  initial : ∀ walletID, ∃ later,
    (batch.events.filter (·.isOf walletID) ++ later).Perm
      ((batch.outbox.filter fun e => !e.delivered).filter (·.isOf walletID)) ∧
    ∀ e ∈ batch.events.filter (·.isOf walletID), ∀ e' ∈ later, e.seq < e'.seq

/-! ## One number for each event -/

/-- An event is appended under the next number of its wallet. -/
structure Store.Appends (s : Store) (e : AuditOutboxEvent) (s' : Store) : Prop where
  unused : ∀ other ∈ s.auditOutbox, other.id ≠ e.id
  undelivered : e.delivered = false
  outbox : s'.auditOutbox = s.auditOutbox ++ [e]
  numbered : ∀ walletID, e.walletID = some walletID →
    e.seq = wrapInt64 (s.lastAuditSeq walletID + 1)
  counters : ∀ walletID, s'.lastAuditSeq walletID =
    if e.walletID = some walletID then e.seq else s.lastAuditSeq walletID

section Emit

variable {order : SortSlice Store.seqBefore} {w w' : AuditWorld} {ev : AuditEvent}
  {result : Except Err Unit}

/-- The numbers after one was given out. -/
theorem Store.lastAuditSeq_nextAuditSeq (s : Store) (walletID other : UUID) :
    (s.nextAuditSeq walletID).2.lastAuditSeq other =
      if some walletID = some other then (s.nextAuditSeq walletID).1 else s.lastAuditSeq other := by
  have next : (s.nextAuditSeq walletID).2.auditSeqCounters =
    s.auditSeqCounters.put ⟨walletID, (s.nextAuditSeq walletID).1⟩ := rfl
  rw [Store.lastAuditSeq, next, Table.get_put]
  by_cases same : walletID = other
  · rw [if_pos same, if_pos (congrArg some same)]
    rfl
  · rw [if_neg same, if_neg fun both => same (Option.some.inj both), Store.lastAuditSeq]

/-- The end of `Emit` appends an event under a new identifier. -/
theorem exec_appendRow {svc : EmitterService} {payload : List UInt8} {seq : Int}
    (marshalled : svc.marshal ev.payload = .ok payload)
    (execution : (EmitterService.appendRow ev payload seq).Exec (auditStep order) w result w') :
    ∃ e : AuditOutboxEvent, e.Tells svc ev ∧ e.seq = seq ∧ e.delivered = false ∧
      (∀ other ∈ w.store.auditOutbox, other.id ≠ e.id) ∧
      w' = { w with store := { w.store with auditOutbox := w.store.auditOutbox ++ [e] } } := by
  obtain ⟨rowID, middle, ⟨unused, rfl⟩, eventID, middle, ⟨unused', rfl⟩, answer, middle,
    ⟨-, rfl⟩, -, rfl⟩ := execution
  refine ⟨⟨rowID, eventID, ev.walletID, ev.eventType, payload, seq, false, 0⟩,
    ⟨rfl, rfl, marshalled⟩, rfl, rfl, fun other member => (unused other member).1, ?_⟩
  have unseen : (middle.store.auditOutbox.any fun ex => ex.eventID = eventID) = false := by
    simpa using fun e member => (unused' e member).2
  rw [Store.appendAuditEvent, unseen]
  rfl

/-- `Emit` fails and changes nothing, or it appends its event under the next number of its
wallet. -/
theorem exec_emit {svc : EmitterService}
    (execution : (svc.emit ev).Exec (auditStep order) w result w') :
    (∃ err, result = .error err) ∧ w' = w ∨
      ∃ e s, e.Tells svc ev ∧ w.store.Appends e s ∧ w' = { w with store := s } := by
  unfold EmitterService.emit at execution
  cases marshalled : svc.marshal ev.payload with
  | error err =>
    rw [marshalled] at execution
    exact .inl ⟨⟨_, execution.1.symm⟩, execution.2.symm⟩
  | ok payload =>
    rw [marshalled] at execution
    refine .inr ?_
    cases owner : ev.walletID with
    | some walletID =>
      rw [owner] at execution
      obtain ⟨answer, middle, ⟨rfl, rfl⟩, execution⟩ := execution
      obtain ⟨e, tells, seq, undelivered, unused, rfl⟩ := exec_appendRow marshalled execution
      refine ⟨e, _, tells, ⟨unused, undelivered, rfl, fun other same => ?_, fun other => ?_⟩, rfl⟩
      · rw [tells.walletID, owner] at same
        cases same
        exact seq
      · rw [tells.walletID, owner, seq]
        exact w.store.lastAuditSeq_nextAuditSeq walletID other
    | none =>
      rw [owner] at execution
      obtain ⟨now, middle, rfl, execution⟩ := execution
      obtain ⟨e, tells, -, undelivered, unused, rfl⟩ := exec_appendRow marshalled execution
      refine ⟨e, _, tells, ⟨unused, undelivered, rfl, fun other same => ?_, fun other => ?_⟩, rfl⟩
      · rw [tells.walletID, owner] at same
        cases same
      · rw [tells.walletID, owner, if_neg nofun]
        rfl

/-- An appended event comes after the events that were there. -/
theorem Store.Appends.auditEvents {s s' : Store} {e : AuditOutboxEvent} (appends : s.Appends e s') :
    s'.auditEvents = s.auditEvents ++ [e.content] := by
  rw [Store.auditEvents, appends.outbox, List.map_append]
  rfl

/-- An appended event comes after all others of its wallet. -/
theorem Store.OutboxOK.append {s s' : Store} {e : AuditOutboxEvent} (ok : s.OutboxOK)
    (appends : s.Appends e s') (fits : s'.auditOutbox.length < 2 ^ 63) : s'.OutboxOK := by
  have events := appends.auditEvents
  have length : s'.auditOutbox.length = s.auditEvents.length + 1 := by
    rw [appends.outbox, List.length_append, Store.auditEvents, List.length_map]
    rfl
  have next (walletID : UUID) (owner : e.walletID = some walletID) :
      e.seq = s.lastAuditSeq walletID + 1 := by
    obtain ⟨low, high⟩ := ok.counted walletID
    rw [appends.numbered walletID owner]
    exact wrapInt64_of_inInt64 ⟨by omega, by omega⟩
  have grows (walletID : UUID) : s.lastAuditSeq walletID ≤ s'.lastAuditSeq walletID := by
    rw [appends.counters]
    split
    · rename_i owner
      rw [next walletID owner]
      omega
    · exact le_refl _
  rw [Store.OutboxOK, events]
  refine ⟨?_, ?_, fun e' member walletID owner => ?_, fun walletID => ?_⟩
  · rw [List.map_append]
    refine List.nodup_append.mpr ⟨ok.ids, List.nodup_singleton _, fun id old id' new same => ?_⟩
    obtain ⟨other, there, rfl⟩ := List.mem_map.mp old
    obtain ⟨row, member, rfl⟩ := List.mem_map.mp there
    rw [List.mem_singleton.mp new] at same
    exact appends.unused row member same
  · refine List.pairwise_append.mpr ⟨ok.rising, List.pairwise_singleton _ _, ?_⟩
    intro old there new only walletID owner owner'
    obtain rfl := List.mem_singleton.mp only
    have before := ok.bounded old there walletID owner
    have after := next walletID owner'
    show old.seq < e.seq
    omega
  · rcases List.mem_append.mp member with there | only
    · exact (ok.bounded e' there walletID owner).trans (grows walletID)
    · obtain rfl := List.mem_singleton.mp only
      have owner : e.walletID = some walletID := owner
      rw [appends.counters, if_pos owner]
      exact le_refl _
  · obtain ⟨low, high⟩ := ok.counted walletID
    refine ⟨low.trans (grows walletID), ?_⟩
    rw [appends.counters, List.length_append, List.length_singleton]
    split
    · rename_i owner
      rw [next walletID owner]
      omega
    · omega

end Emit

/-! ## One batch after the other -/

section Drain

variable {order : SortSlice Store.seqBefore}

/-- Marking keeps the events. -/
theorem markDelivered_content {id : UUID} {rows rows' : List AuditOutboxEvent}
    (marked : Store.markDelivered id rows = some rows') :
    rows'.map AuditOutboxEvent.content = rows.map .content := by
  induction rows generalizing rows' with
  | nil => cases marked
  | cons e rest ih =>
    unfold Store.markDelivered at marked
    split at marked
    · cases marked
      rfl
    · obtain ⟨rest', later, rfl⟩ := Option.map_eq_some_iff.mp marked
      rw [List.map_cons, List.map_cons, ih later]

/-- A row that is marked was so before, or has the identifier. -/
theorem markDelivered_delivered {id : UUID} {rows rows' : List AuditOutboxEvent}
    (marked : Store.markDelivered id rows = some rows') {e : AuditOutboxEvent}
    (member : e ∈ rows') : e ∈ rows ∨ e.id = id := by
  induction rows generalizing rows' with
  | nil => cases marked
  | cons head rest ih =>
    unfold Store.markDelivered at marked
    split at marked
    · rename_i here
      cases marked
      rcases List.mem_cons.mp member with rfl | member
      · exact .inr here
      · exact .inl (List.mem_cons_of_mem _ member)
    · obtain ⟨rest', later, rfl⟩ := Option.map_eq_some_iff.mp marked
      rcases List.mem_cons.mp member with rfl | member
      · exact .inl List.mem_cons_self
      · exact (ih later member).imp_left (List.mem_cons_of_mem _)

/-- The outbox has the same events and the same numbers. -/
def Store.SameEvents (s s' : Store) : Prop :=
  s'.auditEvents = s.auditEvents ∧ s'.auditSeqCounters = s.auditSeqCounters

theorem Store.SameEvents.outboxOK {s s' : Store} (same : s.SameEvents s') (ok : s.OutboxOK) :
    s'.OutboxOK := by
  have last : s'.lastAuditSeq = s.lastAuditSeq := by
    funext walletID
    rw [Store.lastAuditSeq, same.2, Store.lastAuditSeq]
  rw [Store.OutboxOK, same.1, last]
  exact ok

/-- Marking an event of an accepted batch. -/
theorem Store.Justified.mark {handed : List Handed} {s : Store} (justified : s.Justified handed)
    (ids : (s.auditEvents.map AuditOutboxEvent.id).Nodup) {batch : Handed}
    (accepted : batch ∈ handed) (answer : batch.answer = .ok ())
    {e : AuditOutboxEvent} (member : e ∈ batch.events) (known : e.content ∈ s.auditEvents) :
    s.SameEvents (s.markAuditDelivered e.id).2 ∧
      (s.markAuditDelivered e.id).2.Justified handed := by
  unfold Store.markAuditDelivered
  cases marked : Store.markDelivered e.id s.auditOutbox with
  | none => exact ⟨⟨rfl, rfl⟩, justified⟩
  | some rows =>
    refine ⟨⟨markDelivered_content marked, rfl⟩, fun row there delivered => ?_⟩
    rcases markDelivered_delivered marked there with old | named
    · exact justified row old delivered
    · -- the row is the one of the event, since no other has its identifier
      have content : row.content ∈ s.auditEvents := by
        rw [Store.auditEvents, ← markDelivered_content marked]
        exact List.mem_map_of_mem there
      have same : row.content = e.content :=
        List.inj_on_of_nodup_map ids content known named
      exact ⟨batch, accepted, answer, same ▸ List.mem_map_of_mem member⟩

variable {w w' : AuditWorld} {result : Except Err Unit}

/-- The loop over an accepted batch keeps the events and marks only events of the batch, wherever
it stops. -/
theorem exec_markAll {events : List AuditOutboxEvent}
    (execution : (EmitterService.markAll events).Exec (auditStep order) w result w')
    {batch : Handed} (accepted : batch ∈ w.handed) (answer : batch.answer = .ok ())
    (members : events ⊆ batch.events) (ids : (w.store.auditEvents.map AuditOutboxEvent.id).Nodup)
    (known : ∀ e ∈ events, e.content ∈ w.store.auditEvents)
    (justified : w.store.Justified w.handed) :
    w.store.SameEvents w'.store ∧ w'.store.Justified w.handed ∧
      w' = { w with store := w'.store } := by
  induction events generalizing w with
  | nil =>
    obtain rfl : w = w' := execution.2
    exact ⟨⟨rfl, rfl⟩, justified, rfl⟩
  | cons e rest ih =>
    obtain ⟨member, members⟩ := List.cons_subset.mp members
    obtain ⟨marking, middle, marked, execution⟩ := execution
    -- a failure may come before or after the row is written
    have kept : w.store.SameEvents middle.store ∧ middle.store.Justified w.handed ∧
        middle = { w with store := middle.store } := by
      have written := justified.mark ids accepted answer member (known e List.mem_cons_self)
      rcases marked with ⟨-, rfl⟩ | ⟨-, rfl | rfl⟩
      · exact ⟨written.1, written.2, rfl⟩
      · exact ⟨⟨rfl, rfl⟩, justified, rfl⟩
      · exact ⟨written.1, written.2, rfl⟩
    obtain ⟨same, justified', only⟩ := kept
    have handed : middle.handed = w.handed := by rw [only]
    cases marking with
    | error err =>
      obtain rfl : middle = w' := execution.2
      exact ⟨same, justified', only⟩
    | ok _ =>
      have known' : ∀ e ∈ rest, e.content ∈ middle.store.auditEvents := fun e there =>
        same.1 ▸ known e (List.mem_cons_of_mem _ there)
      obtain ⟨same', justified'', only'⟩ := ih execution (handed ▸ accepted) members
        (same.1 ▸ ids) known' (handed ▸ justified')
      refine ⟨⟨same'.1.trans same.1, same'.2.trans same.2⟩, handed ▸ justified'', ?_⟩
      rw [only', only]

/-- The events that `ListUndeliveredAuditEvents` returns are the first ones in its order. -/
theorem listUndelivered_eq (s : Store) (limit : Nat) (positive : 0 < limit) :
    s.listUndeliveredAuditEvents order limit =
      (order.sort (s.auditOutbox.filter fun e => !e.delivered)).take limit := by
  unfold Store.listUndeliveredAuditEvents
  dsimp only
  split
  · rfl
  · rename_i short
    rw [List.take_of_length_le (Nat.le_of_not_lt fun long => short ⟨positive, long⟩)]

/-- A listed event is in the outbox. -/
theorem mem_outbox_of_listed {s : Store} {limit : Nat} (positive : 0 < limit)
    {e : AuditOutboxEvent} (member : e ∈ s.listUndeliveredAuditEvents order limit) :
    e ∈ s.auditOutbox := by
  rw [listUndelivered_eq s limit positive] at member
  exact (List.mem_filter.mp ((order.perm _).mem_iff.mp (List.mem_of_mem_take member))).1

/-- The numbers of the events of a wallet are different. -/
theorem Store.OutboxOK.seqs {s : Store} (ok : s.OutboxOK) (walletID : UUID) :
    ((s.auditOutbox.filter (·.isOf walletID)).map AuditOutboxEvent.seq).Nodup := by
  have rising := (List.pairwise_map.mp ok.rising).filter (·.isOf walletID)
  refine List.pairwise_map.mpr (rising.imp_of_mem fun {e e'} member member' rises same => ?_)
  have owner : e.walletID = some walletID := of_decide_eq_true (List.mem_filter.mp member).2
  have owner' : e'.walletID = some walletID := of_decide_eq_true (List.mem_filter.mp member').2
  exact absurd same (rises walletID owner owner').ne

/-- What is listed is an orderly batch, if no two events of a wallet have the same number. -/
theorem orderly_listed {s : Store} (ids : (s.auditEvents.map AuditOutboxEvent.id).Nodup)
    (seqs : ∀ walletID,
      ((s.auditOutbox.filter (·.isOf walletID)).map AuditOutboxEvent.seq).Nodup)
    (answer : Except Err Unit) :
    Handed.Orderly ⟨s.listUndeliveredAuditEvents order 100, s.auditOutbox, answer⟩ := by
  rw [listUndelivered_eq s 100 (by decide)]
  let undelivered := s.auditOutbox.filter fun e => !e.delivered
  let out := order.sort undelivered
  have sorted : out.Pairwise fun e e' => e.seq ≤ e'.seq := order.pairwise_le undelivered
  have distinct : out.Nodup := (order.perm undelivered).nodup_iff.mpr
    (((List.Nodup.of_map _ ids).of_map _).filter _)
  refine ⟨sorted.sublist (List.take_sublist 100 out), List.length_take_le 100 out, fun walletID =>
    ⟨(out.drop 100).filter (·.isOf walletID), ?_, fun e member e' member' => ?_⟩⟩
  · rw [← List.filter_append, List.take_append_drop]
    exact (order.perm undelivered).filter _
  · obtain ⟨early, own⟩ := List.mem_filter.mp member
    obtain ⟨late, own'⟩ := List.mem_filter.mp member'
    have ordered := (List.pairwise_append.mp ((List.take_append_drop 100 out).symm ▸ sorted)).2.2
    refine lt_of_le_of_ne (ordered e early e' late) fun same => ?_
    -- no two events of the wallet have the same number
    have row (e : AuditOutboxEvent) (there : e ∈ out) (own : e.isOf walletID = true) :
        e ∈ s.auditOutbox.filter (·.isOf walletID) := by
      have listed := (order.perm undelivered).mem_iff.mp there
      exact List.mem_filter.mpr ⟨(List.mem_filter.mp listed).1, own⟩
    have equal : e = e' := List.inj_on_of_nodup_map (seqs walletID)
      (row e (List.mem_of_mem_take early) own) (row e' (List.mem_of_mem_drop late) own') same
    exact List.disjoint_take_drop distinct le_rfl early (equal ▸ late)

/-- More batches justify as much. -/
theorem Store.Justified.mono {handed handed' : List Handed} {s : Store}
    (justified : s.Justified handed) (more : handed ⊆ handed') : s.Justified handed' := by
  intro e member delivered
  obtain ⟨batch, there, accepted⟩ := justified e member delivered
  exact ⟨batch, more there, accepted⟩

/-- `Drain` keeps the events, marks only events of accepted batches, and hands over at most one
batch, of the events that are listed. -/
theorem exec_drain {svc : EmitterService} (sink : svc.sink = true)
    (ids : (w.store.auditEvents.map AuditOutboxEvent.id).Nodup)
    (justified : w.store.Justified w.handed)
    (execution : svc.drain.Exec (auditStep order) w result w') :
    w.store.SameEvents w'.store ∧ w'.store.Justified w'.handed ∧
      w' = { w with store := w'.store, handed := w'.handed } ∧
      (w'.handed = w.handed ∨ ∃ answer, w'.handed =
        ⟨w.store.listUndeliveredAuditEvents order 100, w.store.auditOutbox,
          answer⟩ :: w.handed) := by
  rw [EmitterService.drain, Program.exec_read fun _ _ => Iff.rfl] at execution
  dsimp only at execution
  by_cases empty : w.store.listUndeliveredAuditEvents order 100 = []
  · rw [if_pos empty] at execution
    obtain rfl : w = w' := execution.2
    exact ⟨⟨rfl, rfl⟩, justified, rfl, .inl rfl⟩
  · rw [if_neg empty, if_pos sink] at execution
    obtain ⟨answer, given, rfl, execution⟩ := execution
    have justified' := justified.mono (List.subset_cons_self
      ⟨w.store.listUndeliveredAuditEvents order 100, w.store.auditOutbox, answer⟩
      w.handed)
    cases answer with
    | error err =>
      obtain rfl := execution.2
      exact ⟨⟨rfl, rfl⟩, justified', rfl, .inr ⟨_, rfl⟩⟩
    | ok _ =>
      have known : ∀ e ∈ w.store.listUndeliveredAuditEvents order 100,
          e.content ∈ w.store.auditEvents := fun e member =>
        List.mem_map_of_mem (mem_outbox_of_listed (by decide) member)
      obtain ⟨same, marked, only⟩ := exec_markAll execution List.mem_cons_self rfl
        (List.Subset.refl _) ids known justified'
      rw [only]
      exact ⟨same, marked, rfl, .inr ⟨_, rfl⟩⟩

end Drain

/-! ## All runs -/

namespace AuditWorld

variable {inv : Store → Prop} {w : AuditWorld}

/-- A condition holds of the store, and of the store that a rollback would restore. -/
def Holds (inv : Store → Prop) (w : AuditWorld) : Prop :=
  inv w.store ∧ (0 < w.depth → ∃ s, w.snapshot = some s ∧ inv s)

theorem Holds.begin (holds : w.Holds inv) : w.begin.Holds inv := by
  refine ⟨holds.1, fun _ => ?_⟩
  by_cases outermost : w.depth = 0
  · exact ⟨w.store, if_pos outermost, holds.1⟩
  · obtain ⟨s, saved, here⟩ := holds.2 (Nat.pos_of_ne_zero outermost)
    exact ⟨s, (if_neg outermost).trans saved, here⟩

/-- The snapshot of the transactions that are still open. -/
theorem Holds.saved (holds : w.Holds inv) (still : 0 < w.depth - 1) :
    ∃ s, (if w.depth = 1 then none else w.snapshot) = some s ∧ inv s := by
  obtain ⟨s, saved, here⟩ := holds.2 (by omega)
  exact ⟨s, (if_neg (by omega)).trans saved, here⟩

theorem Holds.commit (holds : w.Holds inv) : w.commit.Holds inv := ⟨holds.1, holds.saved⟩

theorem Holds.rollback (holds : w.Holds inv) : w.rollback.Holds inv := by
  refine ⟨?_, holds.saved⟩
  show inv (if w.depth = 1 then w.snapshot.getD w.store else w.store)
  split
  · rename_i outermost
    obtain ⟨s, saved, here⟩ := holds.2 (by omega)
    rw [saved]
    exact here
  · exact holds.1

/-- Writing the store, or handing a batch over, leaves the snapshot alone. -/
theorem Holds.write (holds : w.Holds inv) {s : Store} (here : inv s) (handed : List Handed) :
    ({ w with store := s, handed := handed } : AuditWorld).Holds inv := ⟨here, holds.2⟩

end AuditWorld

section Runs

variable {order : SortSlice Store.seqBefore} {start w w' : AuditWorld}

/-- What one turn can do: it begins or ends a transaction, or it keeps the events or appends one,
with every marked event in an accepted batch and every new batch in order. -/
theorem AuditTurn.effect (turn : AuditTurn order w w') (ok : w.store.OutboxOK)
    (justified : w.store.Justified w.handed) :
    w' = w.begin ∨ w' = w.commit ∨ w' = w.rollback ∨
      ∃ s handed, w' = { w with store := s, handed := handed } ∧
        (w.store.SameEvents s ∨ ∃ e, w.store.Appends e s ∧ s.auditOutbox.length < 2 ^ 63) ∧
        s.Justified handed ∧ w.handed ⊆ handed ∧
        ∀ batch ∈ handed, batch ∈ w.handed ∨ batch.Orderly := by
  cases turn with
  | begin => exact .inl rfl
  | commit _ => exact .inr (.inl rfl)
  | rollback _ => exact .inr (.inr (.inl rfl))
  | emit execution fits =>
    refine .inr (.inr (.inr ?_))
    rcases exec_emit execution with ⟨-, rfl⟩ | ⟨e, s, -, appends, rfl⟩
    · exact ⟨w'.store, w'.handed, rfl, .inl ⟨rfl, rfl⟩, justified, List.Subset.refl _,
        fun _ => .inl⟩
    · refine ⟨s, w.handed, rfl, .inr ⟨e, appends, fits⟩, fun row member delivered => ?_,
        List.Subset.refl _, fun _ => .inl⟩
      rw [appends.outbox] at member
      rcases List.mem_append.mp member with old | new
      · exact justified row old delivered
      · rw [List.mem_singleton.mp new, appends.undelivered] at delivered
        cases delivered
  | drain sink execution =>
    refine .inr (.inr (.inr ?_))
    obtain ⟨same, marked, only, handed⟩ := exec_drain sink ok.ids justified execution
    refine ⟨w'.store, w'.handed, only, .inl same, marked, ?_⟩
    rcases handed with unchanged | ⟨answer, more⟩
    · rw [unchanged]
      exact ⟨List.Subset.refl _, fun _ => .inl⟩
    · rw [more]
      refine ⟨List.subset_cons_self _ _, fun batch member => ?_⟩
      rcases List.mem_cons.mp member with rfl | old
      · exact .inr (orderly_listed ok.ids ok.seqs answer)
      · exact .inl old
  | elsewhere outbox counters =>
    refine .inr (.inr (.inr ⟨_, w.handed, rfl, .inl ⟨?_, counters⟩, ?_, List.Subset.refl _,
      fun _ => .inl⟩))
    · rw [Store.auditEvents, outbox, Store.auditEvents]
    · rw [Store.Justified, outbox]
      exact justified

/-- What holds in every run. -/
structure AuditInv (w : AuditWorld) : Prop where
  /-- The outbox is numbered. -/
  ok : w.Holds Store.OutboxOK
  /-- Marked events were accepted. -/
  justified : w.Holds (Store.Justified w.handed)
  /-- Every batch is in order. -/
  orderly : ∀ batch ∈ w.handed, batch.Orderly

/-- A condition that depends on the events and the numbers and is kept when an event is appended
holds after a turn. -/
theorem AuditInv.holds_turn {inv : Store → Prop} (audit : AuditInv w) (turn : AuditTurn order w w')
    (keeps : ∀ s s', s.SameEvents s' → inv s → inv s')
    (appends : ∀ s e s', s.Appends e s' → s'.auditOutbox.length < 2 ^ 63 → inv s → inv s')
    (holds : w.Holds inv) : w'.Holds inv := by
  rcases turn.effect audit.ok.1 audit.justified.1 with
    rfl | rfl | rfl | ⟨s, handed, rfl, same | ⟨e, appended, fits⟩, -⟩
  · exact holds.begin
  · exact holds.commit
  · exact holds.rollback
  · exact holds.write (keeps _ s same holds.1) handed
  · exact holds.write (appends _ e s appended fits holds.1) handed

theorem AuditInv.turn (audit : AuditInv w) (turn : AuditTurn order w w') : AuditInv w' := by
  have ok : w'.Holds Store.OutboxOK := audit.holds_turn turn (fun _ _ same ok => same.outboxOK ok)
    (fun _ _ _ appends fits ok => ok.append appends fits) audit.ok
  rcases turn.effect audit.ok.1 audit.justified.1 with
    rfl | rfl | rfl | ⟨s, handed, rfl, -, marked, more, batches⟩
  · exact ⟨ok, audit.justified.begin, audit.orderly⟩
  · exact ⟨ok, audit.justified.commit, audit.orderly⟩
  · exact ⟨ok, audit.justified.rollback, audit.orderly⟩
  · refine ⟨ok, ⟨marked, fun isOpen => ?_⟩, fun batch member => ?_⟩
    · obtain ⟨saved, there, justified⟩ := audit.justified.2 isOpen
      exact ⟨saved, there, justified.mono more⟩
    · exact (batches batch member).elim (audit.orderly batch) id

theorem AuditInv.run (audit : AuditInv w) (run : AuditRuns order w w') : AuditInv w' := by
  induction run with
  | refl => exact audit
  | tail _ turn ih => exact ih.turn turn

/-- Events stay in the outbox as long as the outermost transaction is open. -/
theorem AuditInv.inside (audit : AuditInv w) (inside : AuditInside order w w') :
    AuditInv w' ∧ w.store.auditEvents <+: w'.store.auditEvents := by
  induction inside with
  | refl => exact ⟨audit, List.prefix_rfl⟩
  | @tail middle last _ turned ih =>
    obtain ⟨turn, still⟩ := turned
    refine ⟨ih.1.turn turn, ih.2.trans ?_⟩
    rcases turn.effect ih.1.ok.1 ih.1.justified.1 with
      rfl | rfl | rfl | ⟨s, handed, rfl, same | ⟨e, appends, -⟩, -⟩
    · exact List.prefix_rfl
    · exact List.prefix_rfl
    · -- only the end of the outermost transaction restores the snapshot
      have inner : middle.depth ≠ 1 := fun outermost => by
        have closed : middle.rollback.depth = middle.depth - 1 := rfl
        omega
      have kept : middle.rollback.store = middle.store := if_neg inner
      rw [kept]
    · rw [same.1]
    · rw [appends.auditEvents]
      exact List.prefix_append ..

/-- Events that are in the outbox while no transaction is open stay in it. -/
theorem AuditInv.kept (audit : AuditInv w) (closed : w.depth = 0) (run : AuditRuns order w w') :
    w.store.auditEvents <+: w'.store.auditEvents := by
  have holds : w'.Holds fun s => w.store.auditEvents <+: s.auditEvents := by
    induction run with
    | refl => exact ⟨List.prefix_rfl, fun isOpen => absurd closed isOpen.ne'⟩
    | tail before turn ih =>
      refine (audit.run before).holds_turn turn (fun _ _ same kept => same.1 ▸ kept) ?_ ih
      intro s e s' appends _ kept
      rw [appends.auditEvents]
      exact kept.trans (List.prefix_append ..)
  exact holds.1

/-- The event of an `Emit` that succeeded is in the outbox. Outside of any transaction it stays
there; inside one it is there when the outermost transaction commits, and stays. -/
theorem AuditInv.emitted (audit : AuditInv w) {svc : EmitterService} {ev : AuditEvent}
    (execution : (svc.emit ev).Exec (auditStep order) w (.ok ()) w')
    (fits : w'.store.auditOutbox.length < 2 ^ 63) :
    ∃ e ∈ w'.store.auditEvents, e.Tells svc ev ∧
      (w.depth = 0 → ∀ last, AuditRuns order w' last → e ∈ last.store.auditEvents) ∧
      ∀ inner, AuditInside order w' inner → inner.depth = 1 →
        ∀ last, AuditRuns order inner.commit last → e ∈ last.store.auditEvents := by
  have audit' : AuditInv w' := audit.turn (.emit execution fits)
  rcases exec_emit execution with ⟨⟨err, failed⟩, -⟩ | ⟨e, s, tells, appends, rfl⟩
  · cases failed
  have here : e.content ∈ s.auditEvents := by
    rw [appends.auditEvents]
    exact List.mem_append_right _ List.mem_cons_self
  refine ⟨e.content, here, ⟨tells.walletID, tells.eventType, tells.payload⟩,
    fun outside last later => ?_, fun inner inside outermost last later => ?_⟩
  · exact (audit'.kept outside later).subset here
  · obtain ⟨audit'', kept⟩ := audit'.inside inside
    have turn : AuditTurn order inner inner.commit := .commit (by omega)
    have committed := audit''.turn turn
    have closed : inner.commit.depth = 0 := by
      have ended : inner.commit.depth = inner.depth - 1 := rfl
      omega
    exact (committed.kept closed later).subset (kept.subset here)

/-- After every sequence of `Emit` and `Drain` calls, inside transactions that commit or roll back
or outside any, with any failures of the sink and of `MarkAuditDelivered`: the event of an `Emit`
that returns no error is in the outbox, and stays in it from then on outside of any transaction, and
from the commit of the outermost one on inside; events that are in the outbox while no transaction
is open stay in it, in their order; the numbers of a wallet's events in the outbox are different; an
event that is marked as delivered was in a batch that the sink accepted; and every batch handed to
the sink is sorted, has at most a hundred events and contains for each wallet the first ones of its
events that are undelivered at that time. -/
theorem outbox_keeps_order (fresh : start.store.auditOutbox = [])
    (unnumbered : start.store.auditSeqCounters = .empty) (closed : start.depth = 0)
    (unsent : start.handed = []) (run : AuditRuns order start w) :
    (∀ svc ev w', (EmitterService.emit svc ev).Exec (auditStep order) w (.ok ()) w' →
        w'.store.auditOutbox.length < 2 ^ 63 →
        ∃ e ∈ w'.store.auditEvents, e.Tells svc ev ∧
          (w.depth = 0 → ∀ last, AuditRuns order w' last → e ∈ last.store.auditEvents) ∧
          ∀ inner, AuditInside order w' inner → inner.depth = 1 →
            ∀ last, AuditRuns order inner.commit last → e ∈ last.store.auditEvents) ∧
      (w.depth = 0 → ∀ w', AuditRuns order w w' → w.store.auditEvents <+: w'.store.auditEvents) ∧
      (∀ walletID,
        ((w.store.auditOutbox.filter (·.isOf walletID)).map AuditOutboxEvent.seq).Nodup) ∧
      (∀ e ∈ w.store.auditOutbox, e.delivered = true →
        ∃ batch ∈ w.handed, batch.answer = .ok () ∧ e.content ∈ batch.events.map .content) ∧
      ∀ batch ∈ w.handed, batch.Orderly := by
  have initial : AuditInv start := by
    refine ⟨⟨?_, fun isOpen => absurd closed isOpen.ne'⟩,
      ⟨?_, fun isOpen => absurd closed isOpen.ne'⟩,
      ?_⟩
    · rw [Store.OutboxOK, Store.auditEvents, fresh]
      refine ⟨List.nodup_nil, .nil, nofun, fun walletID => ?_⟩
      rw [Store.lastAuditSeq, unnumbered]
      exact ⟨le_refl _, le_refl _⟩
    · rw [Store.Justified, fresh]
      exact nofun
    · rw [unsent]
      exact nofun
  have audit := initial.run run
  exact ⟨fun svc ev w' execution fits => audit.emitted execution fits,
    fun settled w' later => audit.kept settled later, audit.ok.1.seqs, audit.justified.1,
    audit.orderly⟩

end Runs

/-! ## A rollback and a delivery -/

/-- An emitter whose payloads are empty. -/
def sampleEmitter : EmitterService := ⟨fun _ => .ok [], true⟩

/-- An event of the Ethereum wallet. -/
def sampleAuditEvent : AuditEvent := ⟨"wallet.created", some sampleEVMWallet.id, []⟩

/-- Nothing was emitted yet. -/
def auditStart : AuditWorld := ⟨⟨sampleStart.store, none, 0, []⟩, []⟩

/-- Answer the calls with a sink that accepts, giving out one identifier. -/
def handleAudit (id : UUID) : (op : AuditOp) → AuditWorld → op.Ans × AuditWorld
  | .nextAuditSeq walletID, w =>
    (.ok (w.store.nextAuditSeq walletID).1, { w with store := (w.store.nextAuditSeq walletID).2 })
  | .appendAuditEvent e, w =>
    ((w.store.appendAuditEvent e).1, { w with store := (w.store.appendAuditEvent e).2 })
  | .listUndeliveredAuditEvents limit, w =>
    (.ok (w.store.listUndeliveredAuditEvents (.stable _) limit), w)
  | .markAuditDelivered id, w =>
    ((w.store.markAuditDelivered id).1, { w with store := (w.store.markAuditDelivered id).2 })
  | .deliver events, w =>
    (.ok (), { w with handed := ⟨events, w.store.auditOutbox, .ok ()⟩ :: w.handed })
  | .newV7, w => (id, w)
  | .unixNano, w => (0, w)

theorem handleAudit_follows (id : UUID) {op : AuditOp} (other : op ≠ .newV7) (w : AuditWorld) :
    auditStep (.stable _) op w (handleAudit id op w).1 (handleAudit id op w).2 := by
  cases op with
  | newV7 => exact absurd rfl other
  | nextAuditSeq _ | appendAuditEvent _ | listUndeliveredAuditEvents _ => exact ⟨rfl, rfl⟩
  | markAuditDelivered _ => exact .inl ⟨rfl, rfl⟩
  | deliver _ | unixNano => rfl

/-- The state after a call, answered so. -/
def afterAudit (program : AuditProg (Except Err Unit)) (id : UUID) (w : AuditWorld) : AuditWorld :=
  (program.run (handleAudit id) w).2

/-- The loop of `Drain` only marks. -/
theorem markAll_calls (events : List AuditOutboxEvent) :
    (EmitterService.markAll events).Calls (· ≠ AuditOp.newV7) := by
  induction events with
  | nil => trivial
  | cons e rest ih =>
    refine ⟨nofun, fun answer => ?_⟩
    cases answer with
    | error err => trivial
    | ok _ => exact ih

/-- `Drain` asks for no identifier. -/
theorem drain_calls : sampleEmitter.drain.Calls (· ≠ AuditOp.newV7) := by
  refine ⟨nofun, fun answer => ?_⟩
  cases answer with
  | error err => trivial
  | ok events =>
    show Program.Calls _ (if events = [] then _ else _)
    split
    · trivial
    · refine ⟨nofun, fun answer => ?_⟩
      cases answer with
      | error err => trivial
      | ok _ => exact markAll_calls events

/-- An event is emitted in a transaction. -/
def auditInside : AuditWorld :=
  afterAudit (sampleEmitter.emit sampleAuditEvent) (sampleID 1) auditStart.begin

/-- The transaction commits. Then an event is emitted in one that rolls back, and another one
outside any. -/
def auditEmitted : AuditWorld :=
  afterAudit (sampleEmitter.emit sampleAuditEvent) (sampleID 3)
    (afterAudit (sampleEmitter.emit sampleAuditEvent) (sampleID 2)
      auditInside.commit.begin).rollback

/-- Everything is delivered. -/
def auditDelivered : AuditWorld := afterAudit sampleEmitter.drain (sampleID 4) auditEmitted

/-- The event of the transaction that committed stays; the last event took the number that the
rollback gave back; both are delivered. -/
theorem outbox_keeps_order_committed :
    (auditEmitted.store.auditOutbox.map fun e => (e.id, e.seq)) =
      [(sampleID 1, 1), (sampleID 3, 2)] ∧
      (auditDelivered.store.auditOutbox.map fun e => (e.id, e.delivered)) =
        [(sampleID 1, true), (sampleID 3, true)] ∧
      (∃ e ∈ auditInside.store.auditEvents, e.Tells sampleEmitter sampleAuditEvent ∧
        e ∈ auditDelivered.store.auditEvents) ∧
      ∀ batch ∈ auditDelivered.handed, batch.Orderly := by
  have emits (id : UUID) (w : AuditWorld)
      (unused : ∀ e ∈ w.store.auditOutbox, e.id ≠ id ∧ e.eventID ≠ id) :
      (sampleEmitter.emit sampleAuditEvent).Exec (auditStep (.stable _)) w
        ((sampleEmitter.emit sampleAuditEvent).run (handleAudit id) w).1
        (afterAudit (sampleEmitter.emit sampleAuditEvent) id w) :=
    ⟨_, _, ⟨rfl, rfl⟩, id, _, ⟨unused, rfl⟩, id, _, ⟨unused, rfl⟩, _, _, ⟨rfl, rfl⟩, rfl, rfl⟩
  have drains : sampleEmitter.drain.Exec (auditStep (.stable _)) auditEmitted _ auditDelivered :=
    drain_calls.exec_run (fun op w other => handleAudit_follows (sampleID 4) other w) auditEmitted
  have began : AuditRuns (.stable _) auditStart auditStart.begin := .tail .refl .begin
  have emitted := emits (sampleID 1) auditStart.begin nofun
  have later : AuditRuns (.stable _) auditInside.commit auditDelivered := by
    refine .tail (.tail (.tail (.tail (.tail .refl .begin)
      (.emit (emits (sampleID 2) _ ?_) ?_)) (.rollback ?_)) (.emit (emits (sampleID 3) _ ?_) ?_))
      (.drain rfl drains)
    all_goals decide +kernel
  have run : AuditRuns (.stable _) auditStart auditDelivered := by
    refine .trans (.tail (.tail began (.emit emitted ?_)) (.commit ?_)) later
    all_goals decide +kernel
  obtain ⟨e, here, tells, -, committed⟩ :=
    (outbox_keeps_order rfl rfl rfl rfl began).1 sampleEmitter
    sampleAuditEvent auditInside emitted (by decide +kernel)
  exact ⟨by decide +kernel, by decide +kernel,
    ⟨e, here, tells, committed auditInside .refl rfl auditDelivered later⟩,
    (outbox_keeps_order rfl rfl rfl rfl run).2.2.2.2⟩

end WalletManagement
