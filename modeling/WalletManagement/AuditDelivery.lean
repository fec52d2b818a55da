import WalletManagement.Interaction.Crew
import WalletManagement.Data.Firsts
import WalletManagement.AuditOutbox

/-!
# The order of delivery

`Emit` takes the number of an event in one call of the store and appends the event in another, and
`Drain` hands over what has been appended. Between the two calls of one `Emit` another one can take
a larger number, append its event, and have it delivered. The events of a wallet reach the sink in
the order of their numbers as long as this does not happen: no `Drain` lists an event of a wallet
while a smaller number of the wallet is taken and not yet appended.
-/

namespace WalletManagement

open Interaction Data Go

/-! ## Concurrent emitters -/

/-- A call of an emitter as it was made. -/
abbrev AuditMove : Type := Move auditCalls AuditWorld

/-- Emitters on one store. -/
abbrev Emitters (ι : Type) : Type := Crew auditCalls AuditWorld ι (Except Err Unit)

/-- The number, with its wallet, that a thread has taken and not yet appended an event under. -/
def pendingNumber : List AuditMove → Option (UUID × Int)
  | [] => none
  | ⟨.nextAuditSeq walletID, _, .ok seq, _⟩ :: _ => some (walletID, seq)
  | ⟨.appendAuditEvent _, _, _, _⟩ :: _ => none
  | _ :: rest => pendingNumber rest

/-- `uuid.NewV7` does not repeat itself: an identifier it gives out, and those of an event that is
appended, are in no row. -/
def UniqueIDs (move : AuditMove) : Prop :=
  match move with
  | ⟨.newV7, before, id, _⟩ => before.store.Unused id
  | ⟨.appendAuditEvent e, before, _, _⟩ =>
    before.store.Unused e.id ∧ before.store.Unused e.eventID
  | _ => True

/-- The number after the last one of a wallet that is given out is in the range of `int64`. -/
def NumbersFit (move : AuditMove) : Prop :=
  match move with
  | ⟨.nextAuditSeq walletID, before, _, _⟩ => InInt64 (before.store.lastAuditSeq walletID + 1)
  | _ => True

/-- Identifiers are unique, and numbers fit. -/
def Regular (move : AuditMove) : Prop := UniqueIDs move ∧ NumbersFit move

/-- What the sink was handed, in order. -/
def AuditWorld.deliveries (w : AuditWorld) : List AuditOutboxEvent :=
  w.handed.reverse.flatMap Handed.events

section Delivery

variable {ι : Type} [DecidableEq ι]

/-- No number that is taken and not yet appended is smaller than that of an event of the same wallet
that `Drain` would hand over now. -/
def Calm (order : SortSlice Store.seqBefore) (crew : Emitters ι) : Prop :=
  ∀ i walletID seq, pendingNumber (past crew.moves i) = some (walletID, seq) →
    ∀ e ∈ crew.state.store.listUndeliveredAuditEvents order 100,
      e.walletID = some walletID → ¬seq < e.seq

/-- One call of an `Emit`, or a complete `Drain` whose sink accepts, under a condition on the calls
and one on the states that are drained. -/
inductive DeliveryStep (order : SortSlice Store.seqBefore) (admits : AuditMove → Prop)
    (drains : Emitters ι → Prop) (crew : Emitters ι) : Emitters ι → Prop where
  | emit {crew' : Emitters ι}
    (moved : Crew.Step (fun _ => auditStep order) (fun _ _ => admits) crew crew') :
    DeliveryStep order admits drains crew crew'
  | drain {svc : EmitterService} {result : Except Err Unit} {w : AuditWorld}
    (sink : svc.sink = true) (execution : svc.drain.Exec (auditStep order) crew.state result w)
    (accepts : ∀ batch ∈ w.handed, batch.answer = .ok ()) (drained : drains crew) :
    DeliveryStep order admits drains crew { crew with state := w }

/-- Any number of `Emit` calls, interleaved call by call, with complete `Drain` calls at any
time. -/
abbrev DeliveryRuns (order : SortSlice Store.seqBefore) (admits : AuditMove → Prop)
    (drains : Emitters ι → Prop) : Emitters ι → Emitters ι → Prop :=
  Relation.ReflTransGen (DeliveryStep order admits drains)

end Delivery

/-! ## Numbers -/

section Numbers

variable {ι : Type} {last : UUID → Int} {pending : ι → Option (UUID × Int)}
  {events : List AuditOutboxEvent} {walletID : UUID} {seq : Int} {i : ι}

/-- What holds of the last number of each wallet, the numbers that are taken, and the events: no two
of the numbers of a wallet are the same, and its last number is the largest one. -/
structure Numbering (last : UUID → Int) (pending : ι → Option (UUID × Int))
    (events : List AuditOutboxEvent) : Prop where
  ids : (events.map AuditOutboxEvent.id).Nodup
  numbers : ∀ e ∈ events, ∀ e' ∈ events, ∀ walletID, e.walletID = some walletID →
    e'.walletID = some walletID → e.seq = e'.seq → e = e'
  bounded : ∀ e ∈ events, ∀ walletID, e.walletID = some walletID → e.seq ≤ last walletID
  below : ∀ i walletID seq, pending i = some (walletID, seq) → seq ≤ last walletID
  unused : ∀ i walletID seq, pending i = some (walletID, seq) →
    ∀ e ∈ events, e.walletID = some walletID → e.seq ≠ seq
  apart : ∀ i j walletID seq, pending i = some (walletID, seq) →
    pending j = some (walletID, seq) → i = j

/-- What holds of the events that were handed over: they are events of the outbox, their numbers are
smaller than those of their wallet that are still to come, and each of them was handed over first
after those with smaller numbers. -/
structure InOrder (pending : ι → Option (UUID × Int)) (events sent : List AuditOutboxEvent) :
    Prop where
  known : ∀ e ∈ sent, e.content ∈ events
  ahead : ∀ e ∈ sent, ∀ e' ∈ events, ∀ walletID, e.walletID = some walletID →
    e'.walletID = some walletID → e'.id ∉ sent.map AuditOutboxEvent.id → e.seq < e'.seq
  awaited : ∀ e ∈ sent, ∀ i walletID seq, e.walletID = some walletID →
    pending i = some (walletID, seq) → e.seq < seq
  rising : (firsts AuditOutboxEvent.id sent).Pairwise fun e e' =>
    ∀ walletID, e.walletID = some walletID → e'.walletID = some walletID → e.seq < e'.seq

variable [DecidableEq ι]

/-- A number is the one its thread has now, or one that another thread had before. -/
theorem pending_update {taken : Option (UUID × Int)} {j : ι} {number : UUID × Int} :
    Function.update pending i taken j = some number ↔
      j = i ∧ taken = some number ∨ j ≠ i ∧ pending j = some number := by
  by_cases here : j = i
  · rw [here, Function.update_self]
    simp
  · rw [Function.update_of_ne here]
    simp [here]

namespace Numbering

/-- A thread takes a number after the last one of its wallet. -/
theorem take (numbering : Numbering last pending events) {last' : UUID → Int}
    (counters : ∀ other, last' other = if some walletID = some other then seq else last other)
    (next : last walletID < seq) (i : ι) :
    Numbering last' (Function.update pending i (some (walletID, seq))) events := by
  have grows (other : UUID) : last other ≤ last' other := by
    rw [counters]
    split
    · rename_i same
      rw [← Option.some.inj same]
      exact next.le
    · exact le_refl _
  have new : last' walletID = seq := by rw [counters, if_pos rfl]
  refine ⟨numbering.ids, numbering.numbers, fun e member w owner => ?_, fun j w n taken => ?_,
    fun j w n taken e member owner => ?_, fun j j' w n taken taken' => ?_⟩
  · exact (numbering.bounded e member w owner).trans (grows w)
  · rcases pending_update.mp taken with ⟨-, same⟩ | ⟨-, before⟩
    · cases same
      exact new.ge
    · exact (numbering.below j w n before).trans (grows w)
  · rcases pending_update.mp taken with ⟨-, same⟩ | ⟨-, before⟩
    · cases same
      have old := numbering.bounded e member walletID owner
      omega
    · exact numbering.unused j w n before e member owner
  · rcases pending_update.mp taken with ⟨here, same⟩ | ⟨-, before⟩ <;>
      rcases pending_update.mp taken' with ⟨here', same'⟩ | ⟨-, before'⟩
    · rw [here, here']
    · cases same
      have old := numbering.below j' walletID seq before'
      omega
    · cases same'
      have old := numbering.below j walletID seq before
      omega
    · exact numbering.apart j j' w n before before'

/-- A thread appends an event under the number it has taken. -/
theorem append (numbering : Numbering last pending events) {e : AuditOutboxEvent}
    (fresh : ∀ other ∈ events, other.id ≠ e.id)
    (taken : ∀ walletID, e.walletID = some walletID → pending i = some (walletID, e.seq)) :
    Numbering last (Function.update pending i none) (events ++ [e]) := by
  have old {j : ι} {number : UUID × Int}
      (still : Function.update pending i none j = some number) :
      j ≠ i ∧ pending j = some number := by
    rcases pending_update.mp still with ⟨-, same⟩ | before
    · cases same
    · exact before
  refine ⟨?_, fun e₁ member e₂ member' w owner owner' same => ?_, fun e' member w owner => ?_,
    fun j w n still => ?_, fun j w n still e' member owner => ?_,
    fun j j' w n still still' => ?_⟩
  · rw [List.map_append]
    refine List.nodup_append.mpr ⟨numbering.ids, List.nodup_singleton _,
      fun id there id' only => ?_⟩
    obtain ⟨other, member, rfl⟩ := List.mem_map.mp there
    rw [List.mem_singleton.mp only]
    exact fresh other member
  · rcases List.mem_append.mp member with there | only <;>
      rcases List.mem_append.mp member' with there' | only'
    · exact numbering.numbers e₁ there e₂ there' w owner owner' same
    · obtain rfl := List.mem_singleton.mp only'
      exact absurd same (numbering.unused i w _ (taken w owner') e₁ there owner)
    · obtain rfl := List.mem_singleton.mp only
      exact absurd same.symm (numbering.unused i w _ (taken w owner) e₂ there' owner')
    · rw [List.mem_singleton.mp only, List.mem_singleton.mp only']
  · rcases List.mem_append.mp member with there | only
    · exact numbering.bounded e' there w owner
    · obtain rfl := List.mem_singleton.mp only
      exact numbering.below i w _ (taken w owner)
  · exact numbering.below j w n (old still).2
  · rcases List.mem_append.mp member with there | only
    · exact numbering.unused j w n (old still).2 e' there owner
    · obtain rfl := List.mem_singleton.mp only
      intro same
      -- Two threads would have taken one number.
      have own := taken w owner
      rw [same] at own
      exact (old still).1 (numbering.apart j i w n (old still).2 own)
  · exact numbering.apart j j' w n (old still).2 (old still').2

end Numbering

namespace InOrder

variable {sent : List AuditOutboxEvent}

omit [DecidableEq ι] in
/-- The number of an event that was handed over is at most the last one of its wallet. -/
theorem le_last (ordered : InOrder pending events sent) (numbering : Numbering last pending events)
    {e : AuditOutboxEvent} (member : e ∈ sent) (owner : e.walletID = some walletID) :
    e.seq ≤ last walletID :=
  numbering.bounded e.content (ordered.known e member) walletID owner

/-- A thread takes a number after the last one of its wallet. -/
theorem take (ordered : InOrder pending events sent) (numbering : Numbering last pending events)
    (next : last walletID < seq) (i : ι) :
    InOrder (Function.update pending i (some (walletID, seq))) events sent := by
  refine ⟨ordered.known, ordered.ahead, fun e member j w n owner taken => ?_, ordered.rising⟩
  rcases pending_update.mp taken with ⟨-, same⟩ | ⟨-, before⟩
  · cases same
    exact (ordered.le_last numbering member owner).trans_lt next
  · exact ordered.awaited e member j w n owner before

/-- A thread appends an event under the number it has taken. -/
theorem append (ordered : InOrder pending events sent) {e : AuditOutboxEvent}
    (taken : ∀ walletID, e.walletID = some walletID → pending i = some (walletID, e.seq)) :
    InOrder (Function.update pending i none) (events ++ [e]) sent := by
  refine ⟨fun e' member => List.mem_append_left _ (ordered.known e' member),
    fun first member e' there w owner owner' unsent => ?_,
    fun e' member j w n owner still => ?_, ordered.rising⟩
  · rcases List.mem_append.mp there with old | only
    · exact ordered.ahead first member e' old w owner owner' unsent
    · obtain rfl := List.mem_singleton.mp only
      exact ordered.awaited first member i w _ owner (taken w owner')
  · rcases pending_update.mp still with ⟨-, same⟩ | ⟨-, before⟩
    · cases same
    · exact ordered.awaited e' member j w n owner before

omit [DecidableEq ι] in
/-- A batch is handed over: it is sorted, no event of a wallet that is neither in it nor handed over
before comes before one of its events, and neither does a number that is taken. -/
theorem send (ordered : InOrder pending events sent) (numbering : Numbering last pending events)
    {batch : List AuditOutboxEvent} (known : ∀ e ∈ batch, e.content ∈ events)
    (sorted : batch.Pairwise fun e e' => e.seq ≤ e'.seq)
    (initial : ∀ e ∈ batch, ∀ e' ∈ events, ∀ walletID, e.walletID = some walletID →
      e'.walletID = some walletID → e'.id ∉ (sent ++ batch).map AuditOutboxEvent.id →
      e.seq < e'.seq)
    (calm : ∀ i walletID seq, pending i = some (walletID, seq) →
      ∀ e ∈ batch, e.walletID = some walletID → ¬seq < e.seq) :
    InOrder pending events (sent ++ batch) := by
  refine ⟨fun e member => ?_, fun e member e' there w owner owner' unsent => ?_,
    fun e member i w n owner taken => ?_, ?_⟩
  · rcases List.mem_append.mp member with before | now
    · exact ordered.known e before
    · exact known e now
  · rcases List.mem_append.mp member with before | now
    · refine ordered.ahead e before e' there w owner owner' fun earlier => unsent ?_
      rw [List.map_append]
      exact List.mem_append_left _ earlier
    · exact initial e now e' there w owner owner' unsent
  · rcases List.mem_append.mp member with before | now
    · exact ordered.awaited e before i w n owner taken
    · have other : e.seq ≠ n := numbering.unused i w n taken e.content (known e now) owner
      have unovertaken := calm i w n taken e now owner
      omega
  · refine pairwise_firsts_append ordered.rising
      (fun e before e' now unsent w owner owner' => ?_) ?_
    · exact ordered.ahead e before e'.content (known e' now) w owner owner' unsent
    · refine sorted.imp_of_mem fun {e e'} now now' le other w owner owner' => ?_
      refine lt_of_le_of_ne le fun same => other ?_
      have equal : e.content = e'.content := numbering.numbers e.content (known e now) e'.content
        (known e' now') w owner owner' same
      exact (AuditOutboxEvent.mk.inj equal).1

end InOrder

end Numbers

/-! ## What an emitter does -/

/-- An emitter takes numbers and identifiers, and appends an event of a wallet under the number it
has taken. -/
def emitting : Conduct auditCalls AuditWorld (Except Err Unit) where
  allows moves
    | .nextAuditSeq _ | .newV7 | .unixNano => True
    | .appendAuditEvent e => e.delivered = false ∧
        ∀ walletID, e.walletID = some walletID → pendingNumber moves = some (walletID, e.seq)
    | .listUndeliveredAuditEvents _ | .markAuditDelivered _ | .deliver _ => False

/-- The end of `Emit` appends under the number it is given. -/
theorem appendRow_follows {order : SortSlice Store.seqBefore} {ev : AuditEvent}
    {payload : List UInt8} {seq : Int} {moves : List AuditMove}
    (taken : ∀ walletID, ev.walletID = some walletID →
      pendingNumber moves = some (walletID, seq)) :
    (EmitterService.appendRow ev payload seq).Follows (auditStep order) emitting moves := by
  refine .perform_bind trivial fun w rowID w' _ _ => ?_
  refine .perform_bind trivial fun w eventID w' _ _ => ?_
  exact ⟨⟨rfl, taken⟩, fun _ _ _ _ _ => trivial⟩

theorem emit_follows (order : SortSlice Store.seqBefore) (svc : EmitterService) (ev : AuditEvent) :
    (svc.emit ev).Follows (auditStep order) emitting [] := by
  unfold EmitterService.emit
  cases svc.marshal ev.payload with
  | error err => exact trivial
  | ok payload =>
    cases owner : ev.walletID with
    | some walletID =>
      refine .perform_bind trivial fun w answer w' _ moved => ?_
      obtain ⟨rfl, -⟩ := moved
      refine appendRow_follows fun other same => ?_
      rw [owner] at same
      cases same
      rfl
    | none =>
      refine .perform_bind trivial fun w now w' _ _ => appendRow_follows fun other same => ?_
      rw [owner] at same
      cases same

/-! ## The schedule -/

section Schedule

variable {ι : Type} [DecidableEq ι] {order : SortSlice Store.seqBefore} {crew crew' : Emitters ι}

/-- The numbers that are taken. -/
def takenNumbers (crew : Emitters ι) (i : ι) : Option (UUID × Int) :=
  pendingNumber (past crew.moves i)

theorem takenNumbers_advance (crew : Emitters ι) (i : ι) (move : AuditMove)
    (rest : AuditProg (Except Err Unit)) : takenNumbers (crew.advance i move rest) =
      Function.update (takenNumbers crew) i (pendingNumber (move :: past crew.moves i)) := by
  funext j
  by_cases here : j = i
  · rw [here, Function.update_self, takenNumbers, Crew.advance_moves, past_cons_self]
  · rw [Function.update_of_ne here, takenNumbers, Crew.advance_moves,
      past_cons_of_ne _ _ (Ne.symm here), takenNumbers]

/-- The numbers are in order, the deliveries are in order, and marked events were handed over. -/
structure DeliveryOK (crew : Emitters ι) : Prop where
  numbering : Numbering crew.state.store.lastAuditSeq (takenNumbers crew)
    crew.state.store.auditEvents
  ordered : InOrder (takenNumbers crew) crew.state.store.auditEvents crew.state.deliveries
  justified : crew.state.store.Justified crew.state.handed

namespace DeliveryOK

/-- A thread takes a number. -/
theorem take (ok : DeliveryOK crew) {i : ι} {walletID : UUID}
    (fits : InInt64 (crew.state.store.lastAuditSeq walletID + 1))
    (rest : AuditProg (Except Err Unit)) :
    DeliveryOK (crew.advance i ⟨.nextAuditSeq walletID, crew.state,
      .ok (crew.state.store.nextAuditSeq walletID).1,
      { crew.state with store := (crew.state.store.nextAuditSeq walletID).2 }⟩ rest) := by
  have next : crew.state.store.lastAuditSeq walletID <
      (crew.state.store.nextAuditSeq walletID).1 := by
    have number : (crew.state.store.nextAuditSeq walletID).1 =
      crew.state.store.lastAuditSeq walletID + 1 := wrapInt64_of_inInt64 fits
    omega
  have counters := crew.state.store.lastAuditSeq_nextAuditSeq walletID
  refine ⟨?_, ?_, ok.justified⟩
  · rw [takenNumbers_advance]
    exact ok.numbering.take counters next i
  · rw [takenNumbers_advance]
    exact ok.ordered.take ok.numbering next i

/-- A thread appends an event. -/
theorem append (ok : DeliveryOK crew) {i : ι} {e : AuditOutboxEvent}
    (undelivered : e.delivered = false)
    (taken : ∀ walletID, e.walletID = some walletID →
      takenNumbers crew i = some (walletID, e.seq))
    (unused : crew.state.store.Unused e.id) (unused' : crew.state.store.Unused e.eventID)
    (answer : Except Err Unit) (rest : AuditProg (Except Err Unit)) :
    DeliveryOK (crew.advance i ⟨.appendAuditEvent e, crew.state, answer,
      { crew.state with store := (crew.state.store.appendAuditEvent e).2 }⟩ rest) := by
  have unseen : (crew.state.store.auditOutbox.any fun ex => ex.eventID = e.eventID) = false := by
    simpa using fun other member => (unused' other member).2
  have appended : (crew.state.store.appendAuditEvent e).2 =
      { crew.state.store with auditOutbox := crew.state.store.auditOutbox ++ [e] } := by
    rw [Store.appendAuditEvent, unseen]
    rfl
  have events : (crew.state.store.appendAuditEvent e).2.auditEvents =
      crew.state.store.auditEvents ++ [e.content] := by
    rw [appended, Store.auditEvents, List.map_append]
    rfl
  have fresh : ∀ other ∈ crew.state.store.auditEvents, other.id ≠ e.content.id := by
    intro other member
    obtain ⟨row, there, rfl⟩ := List.mem_map.mp member
    exact (unused row there).1
  have counters : (crew.state.store.appendAuditEvent e).2.lastAuditSeq =
      crew.state.store.lastAuditSeq := by rw [appended]; rfl
  refine ⟨?_, ?_, fun row member delivered => ?_⟩
  · rw [takenNumbers_advance, Crew.advance_state, events, counters]
    exact ok.numbering.append fresh taken
  · rw [takenNumbers_advance, Crew.advance_state, events]
    exact ok.ordered.append taken
  · rw [Crew.advance_state, appended] at member
    rcases List.mem_append.mp member with old | new
    · exact ok.justified row old delivered
    · rw [List.mem_singleton.mp new, undelivered] at delivered
      cases delivered

/-- A call that takes no number and changes nothing. -/
theorem quiet (ok : DeliveryOK crew) {i : ι} {move : AuditMove}
    (unchanged : move.after = crew.state)
    (same : pendingNumber (move :: past crew.moves i) = pendingNumber (past crew.moves i))
    (rest : AuditProg (Except Err Unit)) : DeliveryOK (crew.advance i move rest) := by
  have numbers : takenNumbers (crew.advance i move rest) = takenNumbers crew := by
    rw [takenNumbers_advance, same]
    exact Function.update_eq_self i _
  have state : (crew.advance i move rest).state = crew.state := unchanged
  refine ⟨?_, ?_, ?_⟩
  · rw [numbers, state]
    exact ok.numbering
  · rw [numbers, state]
    exact ok.ordered
  · rw [state]
    exact ok.justified

/-- The numbers of the rows of a wallet are different. -/
theorem seqs (ok : DeliveryOK crew) (walletID : UUID) :
    ((crew.state.store.auditOutbox.filter (·.isOf walletID)).map AuditOutboxEvent.seq).Nodup := by
  have rows : (crew.state.store.auditOutbox.map AuditOutboxEvent.content).Nodup :=
    ok.numbering.ids.of_map _
  refine List.Nodup.map_on (fun e member e' member' same => ?_) (rows.of_map.filter _)
  obtain ⟨there, own⟩ := List.mem_filter.mp member
  obtain ⟨there', own'⟩ := List.mem_filter.mp member'
  have equal : e.content = e'.content := ok.numbering.numbers e.content (List.mem_map_of_mem there)
    e'.content (List.mem_map_of_mem there') walletID (of_decide_eq_true own)
    (of_decide_eq_true own') same
  exact List.inj_on_of_nodup_map rows there there' equal

/-- An event of a wallet that is neither handed over nor in the batch that is listed has a larger
number than the events of the wallet in the batch. -/
theorem initial (ok : DeliveryOK crew) {e e' : AuditOutboxEvent} {walletID : UUID}
    (listed : e ∈ crew.state.store.listUndeliveredAuditEvents order 100)
    (there : e' ∈ crew.state.store.auditEvents) (owner : e.walletID = some walletID)
    (owner' : e'.walletID = some walletID)
    (unsent : e'.id ∉ (crew.state.deliveries ++
      crew.state.store.listUndeliveredAuditEvents order 100).map AuditOutboxEvent.id) :
    e.seq < e'.seq := by
  obtain ⟨row, member, rfl⟩ := List.mem_map.mp there
  rw [List.map_append, List.mem_append, not_or] at unsent
  have undelivered : row.delivered = false := by
    by_contra marked
    obtain ⟨batch, handed, -, content⟩ :=
      ok.justified row member (by simpa using marked)
    obtain ⟨copy, within, same⟩ := List.mem_map.mp content
    refine unsent.1 (List.mem_map.mpr ⟨copy, ?_, (AuditOutboxEvent.mk.inj same).1⟩)
    exact List.mem_flatMap.mpr ⟨batch, List.mem_reverse.mpr handed, within⟩
  obtain ⟨later, perm, larger⟩ :=
    (@orderly_listed order _ ok.numbering.ids ok.seqs (.ok ())).initial walletID
  have split : row ∈ ((crew.state.store.listUndeliveredAuditEvents order 100).filter
      (·.isOf walletID)) ++ later := by
    refine perm.mem_iff.mpr (List.mem_filter.mpr ⟨List.mem_filter.mpr ⟨member, ?_⟩, ?_⟩)
    · simp [undelivered]
    · exact decide_eq_true owner'
  rcases List.mem_append.mp split with here | behind
  · exact absurd (List.mem_map_of_mem (List.mem_filter.mp here).1) unsent.2
  · exact larger e (List.mem_filter.mpr ⟨listed, decide_eq_true owner⟩) row behind

/-- A complete `Drain` in a calm state. -/
theorem drain (ok : DeliveryOK crew) (calm : Calm order crew) {svc : EmitterService}
    (sink : svc.sink = true) {result : Except Err Unit} {w : AuditWorld}
    (execution : svc.drain.Exec (auditStep order) crew.state result w) :
    DeliveryOK { crew with state := w } := by
  obtain ⟨same, justified, -, handed⟩ :=
    exec_drain sink ok.numbering.ids ok.justified execution
  have counters : w.store.lastAuditSeq = crew.state.store.lastAuditSeq := by
    funext walletID
    rw [Store.lastAuditSeq, same.2, Store.lastAuditSeq]
  have numbering : Numbering w.store.lastAuditSeq (takenNumbers crew) w.store.auditEvents := by
    rw [counters, same.1]
    exact ok.numbering
  refine ⟨numbering, ?_, justified⟩
  show InOrder (takenNumbers crew) w.store.auditEvents w.deliveries
  rw [same.1]
  rcases handed with unchanged | ⟨answer, more⟩
  · rw [AuditWorld.deliveries, unchanged]
    exact ok.ordered
  · have sent : w.deliveries = crew.state.deliveries ++
        crew.state.store.listUndeliveredAuditEvents order 100 := by
      rw [AuditWorld.deliveries, more]
      simp [AuditWorld.deliveries]
    rw [sent]
    exact ok.ordered.send ok.numbering
      (fun e listed => List.mem_map_of_mem (mem_outbox_of_listed (by decide) listed))
      (@orderly_listed order _ ok.numbering.ids ok.seqs (.ok ())).sorted
      (fun e listed e' there walletID owner owner' unsent =>
        ok.initial listed there owner owner' unsent)
      calm

end DeliveryOK

/-- One call of an emitter keeps the order. -/
theorem deliveryOK_move {i : ι} {op : AuditOp} {next : op.Ans → AuditProg (Except Err Unit)}
    {answer : op.Ans} {w : AuditWorld} (ok : DeliveryOK crew)
    (allowed : emitting.allows (past crew.moves i) op)
    (moved : auditStep order op crew.state answer w)
    (admitted : Regular ⟨op, crew.state, answer, w⟩) :
    DeliveryOK (crew.advance i ⟨op, crew.state, answer, w⟩ (next answer)) := by
  cases op with
  | nextAuditSeq walletID =>
    obtain ⟨rfl, rfl⟩ := moved
    exact ok.take admitted.2 _
  | appendAuditEvent e =>
    obtain ⟨-, rfl⟩ := moved
    exact ok.append allowed.1 allowed.2 admitted.1.1 admitted.1.2 _ _
  | newV7 =>
    obtain ⟨-, rfl⟩ := moved
    exact ok.quiet rfl rfl _
  | unixNano =>
    obtain rfl : w = crew.state := moved
    exact ok.quiet rfl rfl _
  | listUndeliveredAuditEvents _ | markAuditDelivered _ | deliver _ => cases allowed

/-- The emitters follow their program, and the deliveries are in order, after every run in which the
numbers fit and no `Drain` overtakes an emitter. -/
theorem good_of_deliveryRuns
    (good : crew.Good (fun _ => auditStep order) (fun _ => emitting) DeliveryOK)
    (run : DeliveryRuns order Regular (Calm order) crew crew') :
    crew'.Good (fun _ => auditStep order) (fun _ => emitting) DeliveryOK := by
  induction run with
  | refl => exact good
  | tail _ step ih =>
    cases step with
    | emit moved =>
      refine ih.kept (fun _ _ _ => trivial) ?_ moved
      intro crew i op next answer w ok _ allowed moved admitted
      exact deliveryOK_move ok allowed moved admitted
    | drain sink execution _ calm => exact ⟨ih.holds.drain calm sink execution, ih.follows⟩

end Schedule

/-- In every interleaving of the calls of any number of `Emit` calls with complete `Drain` calls
whose sink accepts, in which no number runs out of `int64` and no `Drain` lists an event of a wallet
while a smaller number of the wallet is taken and not appended, the first deliveries of the events
of each wallet are in the order of their numbers. -/
theorem first_deliveries_rising {ι : Type} [DecidableEq ι] (order : SortSlice Store.seqBefore)
    (svc : ι → EmitterService) (ev : ι → AuditEvent) {start : AuditWorld}
    (fresh : start.store.auditOutbox = []) (unsent : start.handed = []) {crew : Emitters ι}
    (run : DeliveryRuns order Regular (Calm order) (Crew.start (fun i => (svc i).emit (ev i)) start)
      crew) (walletID : UUID) :
    ((firsts AuditOutboxEvent.id crew.state.deliveries).filter (·.isOf walletID)).Pairwise
      fun e e' => e.seq < e'.seq := by
  have events : start.store.auditEvents = [] := by rw [Store.auditEvents, fresh]; rfl
  have deliveries : start.deliveries = [] := by rw [AuditWorld.deliveries, unsent]; rfl
  have initial : DeliveryOK (Crew.start (fun i => (svc i).emit (ev i)) start) := by
    refine ⟨?_, ?_, ?_⟩
    · show Numbering _ _ start.store.auditEvents
      rw [events]
      exact ⟨List.nodup_nil, by simp, by simp,
        fun _ _ _ => by simp [takenNumbers, Crew.start, pendingNumber], by simp,
        fun _ _ _ _ => by simp [takenNumbers, Crew.start, pendingNumber]⟩
    · show InOrder _ start.store.auditEvents start.deliveries
      rw [events, deliveries]
      exact ⟨by simp, by simp, by simp, .nil⟩
    · show Store.Justified start.handed start.store
      rw [Store.Justified, fresh]
      simp
  have good := good_of_deliveryRuns ⟨initial, fun i => emit_follows order (svc i) (ev i)⟩ run
  refine (good.holds.ordered.rising.filter _).imp_of_mem fun {e e'} member member' rises => ?_
  exact rises walletID (of_decide_eq_true (List.mem_filter.mp member).2)
    (of_decide_eq_true (List.mem_filter.mp member').2)

/-! ## Two runs -/

instance (s : Store) (id : UUID) : Decidable (s.Unused id) :=
  inferInstanceAs (Decidable (∀ e ∈ s.auditOutbox, e.id ≠ id ∧ e.eventID ≠ id))

instance : DecidablePred UniqueIDs := fun move => by
  unfold UniqueIDs
  split <;> infer_instance

instance : DecidablePred NumbersFit := fun move => by
  unfold NumbersFit
  split <;> infer_instance

instance : DecidablePred Regular := fun move =>
  inferInstanceAs (Decidable (UniqueIDs move ∧ NumbersFit move))

/-- Two emitters of an event of the same wallet. -/
def sampleEmitters : Emitters Bool :=
  Crew.start (fun _ => sampleEmitter.emit sampleAuditEvent) auditStart

/-- Calls of the emitters, each with its own identifier. -/
def emitTurns (turns : List Bool) : List (Crew.Turn auditCalls AuditWorld Bool) :=
  turns.map fun i => (i, handleAudit (sampleID (if i then 2 else 1)))

/-- The emitters after a `Drain`. -/
def drained (crew : Emitters Bool) : Emitters Bool :=
  { crew with state := afterAudit sampleEmitter.drain (sampleID 3) crew.state }

section Sample

variable {crew : Emitters Bool} {drains : Emitters Bool → Prop}

theorem runs_emitTurns {turns : List Bool}
    (admitted : crew.AdmitsAll (fun _ _ => Regular) (emitTurns turns)) :
    DeliveryRuns (.stable _) Regular drains crew (crew.play (emitTurns turns)) := by
  have reachable : Crew.Reachable (fun _ => auditStep (.stable _)) (fun _ _ => Regular) crew
      (crew.play (emitTurns turns)) := by
    refine Crew.reachable_play_admitted (fun next member crew op admitted => ?_) admitted
    obtain ⟨i, -, rfl⟩ := List.mem_map.mp member
    by_cases mints : op = .newV7
    · subst mints
      exact ⟨admitted.1, rfl⟩
    · exact handleAudit_follows _ mints _
  exact reachable.lift id fun _ _ moved => .emit moved

theorem runs_drained
    (accepts : ∀ batch ∈ (drained crew).state.handed, batch.answer = .ok ())
    (calm : drains crew) : DeliveryRuns (.stable _) Regular drains crew (drained crew) :=
  .single (.drain rfl (drain_calls.exec_run
    (fun _ w other => handleAudit_follows (sampleID 3) other w) crew.state) accepts calm)

end Sample

/-- The first emitter takes a number, the second one takes the next number and appends, and then the
first one appends. -/
def sampleQueued : Emitters Bool :=
  sampleEmitters.play (emitTurns [false, true, true, true, true, false, false, false])

/-- A `Drain` after both emitters hands their events over in the order of their numbers. -/
theorem first_deliveries_rising_both :
    ((drained sampleQueued).state.store.auditOutbox.map AuditOutboxEvent.seq = [2, 1]) ∧
      (drained sampleQueued).state.deliveries.map AuditOutboxEvent.seq = [1, 2] ∧
      ((firsts AuditOutboxEvent.id (drained sampleQueued).state.deliveries).filter
        (·.isOf sampleEVMWallet.id)).Pairwise fun e e' => e.seq < e'.seq := by
  have settled : ∀ i, takenNumbers sampleQueued i = none := by decide +kernel
  have calm : Calm (.stable _) sampleQueued := by
    intro i walletID seq taken
    rw [show pendingNumber _ = none from settled i] at taken
    cases taken
  have run : DeliveryRuns (.stable _) Regular (Calm (.stable _)) sampleEmitters
      (drained sampleQueued) := by
    refine .trans (runs_emitTurns ?_) (runs_drained ?_ calm)
    all_goals decide +kernel
  exact ⟨by decide +kernel, by decide +kernel, first_deliveries_rising (.stable _)
    (fun _ => sampleEmitter) (fun _ => sampleAuditEvent) rfl rfl run sampleEVMWallet.id⟩

/-- The second emitter's event is delivered before the first emitter has appended its own. -/
def sampleOvertaken : Emitters Bool :=
  let early := drained (sampleEmitters.play (emitTurns [false, true, true, true, true]))
  drained (early.play (emitTurns [false, false, false]))

/-- A `Drain` between the two calls of the first emitter delivers the second number first. -/
theorem drain_overtakes_emitter :
    DeliveryRuns (.stable _) Regular (fun _ => True) sampleEmitters sampleOvertaken ∧
      ((firsts AuditOutboxEvent.id sampleOvertaken.state.deliveries).filter
        (·.isOf sampleEVMWallet.id)).map AuditOutboxEvent.seq = [2, 1] := by
  refine ⟨?_, by decide +kernel⟩
  refine .trans (runs_emitTurns ?_) (.trans (runs_drained ?_ trivial)
    (.trans (runs_emitTurns ?_) (runs_drained ?_ trivial)))
  all_goals decide +kernel

end WalletManagement
