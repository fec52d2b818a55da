import WalletManagement.Books

/-!
# Deliveries over a store that fails

The gateway delivers an event until `ApplyConfirmationEvent` returns no error. The event is
recorded before the transaction that adds its amount and outside it, so a transaction that fails
leaves an event that is recorded and not counted, and the next delivery is taken for a duplicate.
Where the store fails nothing after it has recorded an event, every acknowledged event counts
once.
-/

namespace WalletManagement

open Interaction Data

/-- Every event that some delivery acknowledged counts once in the row of its wallet and asset,
and nothing else does. An event is identified by what the service records of it. -/
def CountedOnce (svc : BalanceService) (amountOf : BalanceEvent → String)
    (deliveries : List Delivery) (s : Store) : Prop :=
  ∀ walletID asset, svc.dec.amount (s.currentBalance walletID asset).confirmed +
    svc.dec.amount (s.currentBalance walletID asset).pending =
      ∑ event ∈ ((acknowledged deliveries).map ConfirmationEvent.recorded).toFinset.filter
        (·.isOf walletID asset), svc.dec.amount (amountOf event)

/-- A delivery that returns an error leaves the balances and the recorded events alone. -/
def FailureKeeps (svc : BalanceService) (mayFail : Op → Prop) : Prop :=
  ∀ (ev : ConfirmationEvent) (err : Err) (before after : World LedgerCall), before.depth = 0 →
    (svc.body (.confirmation ev)).Exec (faulty mayFail (.confirmation ev)) before (.error err)
      after →
    after.store.balances = before.store.balances ∧
      after.store.balanceEvents = before.store.balanceEvents

variable {svc : BalanceService} {mayFail : Op → Prop}

/-- A store that fails nothing but the recording keeps what a failed delivery found. -/
theorem failureKeeps_of_reliable (reliable : ∀ op, mayFail op → op.records = true) :
    FailureKeeps svc mayFail := by
  intro ev err before after idle execution
  obtain ⟨-, rows, booked, -⟩ := booked_of_exec idle execution
  generalize after.store = s' at booked
  cases booked with
  | unrecorded => exact ⟨rfl, rfl⟩
  | aborted _ _ _ may =>
    obtain ⟨op, may, other⟩ := may
    exact absurd (reliable op may) (by simp [other])
  | unlocked => exact ⟨rfl, rfl⟩
  | failed other => exact absurd rfl (other ev)

/-- Sums over events as sums over what identifies them. -/
theorem BalanceService.total_eq_sum_recorded {events : List ConfirmationEvent}
    {amountOf : BalanceEvent → String} (amounts : ∀ ev ∈ events, ev.amount = amountOf ev.recorded)
    (distinct : (events.map ConfirmationEvent.recorded).Nodup) (walletID : UUID) (asset : String) :
    svc.total events (·.isOf walletID asset) =
      ∑ event ∈ (events.map ConfirmationEvent.recorded).toFinset.filter (·.isOf walletID asset),
        svc.dec.amount (amountOf event) := by
  have texts : (events.filter (·.isOf walletID asset)).map (fun ev => svc.dec.amount ev.amount) =
      ((events.filter (·.isOf walletID asset)).map ConfirmationEvent.recorded).map
        fun event => svc.dec.amount (amountOf event) := by
    rw [List.map_map]
    refine List.map_congr_left fun ev member => ?_
    rw [amounts ev (List.mem_of_mem_filter member)]
    rfl
  have selected : (events.filter (·.isOf walletID asset)).map ConfirmationEvent.recorded =
      (events.map ConfirmationEvent.recorded).filter (·.isOf walletID asset) := by
    rw [List.filter_map]
    rfl
  rw [BalanceService.total, texts, selected, ← List.sum_toFinset _ (distinct.filter _),
    List.toFinset_filter]

/-- Over a store that fails nothing but the recording of events, from empty tables, every
acknowledged event counts once and a failed delivery changes nothing. -/
theorem acknowledged_counted_once (lawful : svc.dec.Lawful)
    (reliable : ∀ op, mayFail op → op.records = true) {start w : World LedgerCall}
    {deliveries : List Delivery} (trace : Trace (faulty mayFail) svc.body start deliveries w)
    (idle : start.depth = 0) (balances : start.store.balances = .empty)
    (recorded : start.store.balanceEvents = ∅)
    (chain : ∀ delivery ∈ deliveries, delivery.1.fromChain = true)
    (amountOf : BalanceEvent → String)
    (amounts : ∀ ev ∈ acknowledged deliveries, ev.amount = amountOf ev.recorded)
    (separate : ∀ ev ∈ acknowledged deliveries, ∀ ev' ∈ acknowledged deliveries,
      ev.key = ev'.key → ev.recorded = ev'.recorded) :
    CountedOnce svc amountOf deliveries w.store ∧ FailureKeeps svc mayFail := by
  refine ⟨fun walletID asset => ?_, failureKeeps_of_reliable reliable⟩
  have books := books_run lawful reliable trace idle balances recorded chain
  let events := firsts ConfirmationEvent.key (acknowledged deliveries)
  have kept (ev : ConfirmationEvent) (member : ev ∈ events) : ev ∈ acknowledged deliveries :=
    mem_of_mem_firsts member
  have distinct : (events.map ConfirmationEvent.recorded).Nodup := by
    have keys : ((events.map ConfirmationEvent.recorded).map BalanceEvent.key).Nodup := by
      rw [List.map_map]
      exact nodup_map_firsts
    exact keys.of_map _
  -- an acknowledged event that is no first occurrence is recorded as one
  have same : (events.map ConfirmationEvent.recorded).toFinset =
      ((acknowledged deliveries).map ConfirmationEvent.recorded).toFinset := by
    ext event
    simp only [List.mem_toFinset, List.mem_map]
    constructor
    · rintro ⟨ev, member, rfl⟩
      exact ⟨ev, kept ev member, rfl⟩
    · rintro ⟨ev, member, rfl⟩
      obtain ⟨first, there, keys⟩ := List.mem_map.mp
        (mem_map_firsts.mpr (List.mem_map_of_mem (f := ConfirmationEvent.key) member))
      exact ⟨first, there, separate first (kept first there) ev member keys⟩
  rw [books.sum, svc.total_eq_sum_recorded (fun ev member => amounts ev (kept ev member)) distinct,
    same]

/-! ## Worked deliveries -/

/-- The balance service over integer amounts. -/
def sampleLedger : BalanceService where
  dec := integerDecimals

/-- The balance service with nothing booked yet. -/
def emptyLedger : World LedgerCall where
  store := {}

/-- A deposit of 100 with a given number of confirmations. -/
def sampleDeposit (confirmations : Int) : ConfirmationEvent where
  walletID := ⟨Vector.replicate 16 0⟩
  asset := "BTC"
  amount := "100"
  confirmations
  blockHeight := 7
  eventID := "deposit"
  isFinalized := false
  chain := .bitcoin

/-- The deposit is delivered while events cannot be recorded, and then twice more. -/
def retriedDeliveries : List Delivery × World LedgerCall :=
  sampleLedger.play [(.confirmation (sampleDeposit 6), Op.records),
    (.confirmation (sampleDeposit 6), fun _ => false),
    (.confirmation (sampleDeposit 6), fun _ => false)] emptyLedger

theorem acknowledged_counted_once_retried :
    acknowledged retriedDeliveries.1 = [sampleDeposit 6, sampleDeposit 6] ∧
      CountedOnce sampleLedger (fun _ => "100") retriedDeliveries.1 retriedDeliveries.2.store ∧
      FailureKeeps sampleLedger (fun op => op.records = true) := by
  have acked : acknowledged retriedDeliveries.1 = [sampleDeposit 6, sampleDeposit 6] := by
    decide +kernel
  have one (ev : ConfirmationEvent) (member : ev ∈ acknowledged retriedDeliveries.1) :
      ev = sampleDeposit 6 := by
    rw [acked] at member
    simpa using member
  have trace : Trace (faulty fun op => op.records = true) sampleLedger.body emptyLedger
      retriedDeliveries.1 retriedDeliveries.2 := by
    refine sampleLedger.play_trace (fun call member op fails => ?_) emptyLedger
    simp only [List.mem_cons, List.not_mem_nil, or_false] at member
    rcases member with rfl | rfl | rfl
    · exact fails
    · cases fails
    · cases fails
  refine ⟨acked, acknowledged_counted_once integerDecimals_lawful (fun _ may => may) trace rfl rfl
    rfl (by decide +kernel) _ ?_ ?_⟩
  · intro ev member
    rw [one ev member]
    rfl
  · intro ev member ev' member' _
    rw [one ev member, one ev' member']

/-- The deposit is delivered while transactions cannot be committed. -/
def abortedDelivery : Except Err Unit × World LedgerCall :=
  (sampleLedger.body (.confirmation (sampleDeposit 6))).run
    (Script.handleFailing {} (· = .commit) (.confirmation (sampleDeposit 6))) emptyLedger

/-- The deposit is delivered while transactions cannot be committed, and then once more. -/
def lostDeliveries : List Delivery × World LedgerCall :=
  sampleLedger.play [(.confirmation (sampleDeposit 6), (· = .commit)),
    (.confirmation (sampleDeposit 6), fun _ => false)] emptyLedger

theorem acknowledged_not_counted :
    ¬(∀ (svc : BalanceService) (amountOf : BalanceEvent → String) (deliveries : List Delivery)
      (w : World LedgerCall), svc.dec.Lawful →
      Trace (faulty fun _ => True) svc.body emptyLedger deliveries w →
      (∀ delivery ∈ deliveries, delivery.1.fromChain = true) →
      (∀ ev ∈ acknowledged deliveries, ev.amount = amountOf ev.recorded ∧ '|' ∉ ev.asset.toList) →
      CountedOnce svc amountOf deliveries w.store) ∧
    ¬FailureKeeps sampleLedger fun _ => True := by
  constructor
  · intro counted
    have trace : Trace (faulty fun _ => True) sampleLedger.body emptyLedger lostDeliveries.1
        lostDeliveries.2 := sampleLedger.play_trace (fun _ _ _ _ => trivial) emptyLedger
    have acked : acknowledged lostDeliveries.1 = [sampleDeposit 6] := by decide +kernel
    have sum := counted sampleLedger (fun _ => "100") _ _ integerDecimals_lawful trace
      (by decide +kernel) (by rw [acked]; decide +kernel) (sampleDeposit 6).walletID "BTC"
    rw [acked] at sum
    exact absurd sum (by decide +kernel)
  · intro keeps
    have execution : (sampleLedger.body (.confirmation (sampleDeposit 6))).Exec
        (faulty (fun _ => True) (.confirmation (sampleDeposit 6))) emptyLedger abortedDelivery.1
        abortedDelivery.2 :=
      Program.exec_run (Script.handleFailing_follows {} (fun _ _ => trivial) _) _ _
    have failed : abortedDelivery.1 = .error Script.failure := by decide +kernel
    rw [failed] at execution
    exact absurd (keeps _ _ _ _ rfl execution).2 (by decide +kernel)

end WalletManagement
