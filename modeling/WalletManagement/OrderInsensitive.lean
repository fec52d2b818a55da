import WalletManagement.ExactlyOnce

/-!
# Balances do not depend on the order of the events

Over the in-memory store, where events with the same identity are identical and no asset contains
the separator of the deduplication key, the rows are a function of the set of events: their order
and how often each was delivered do not matter. A reorganisation keeps the sum of a row and
touches no other row.
-/

namespace WalletManagement

open Interaction Data

/-- A row holds a set of events: the sum of their amounts, and, unless it was reorganised, the
confirmed ones and the others apart. -/
structure Holds (svc : BalanceService) (events : Finset ConfirmationEvent) (reorged : Prop)
    (row : Balance) : Prop where
  sum : svc.dec.amount row.confirmed + svc.dec.amount row.pending =
    ∑ ev ∈ events, svc.dec.amount ev.amount
  confirmed : ¬reorged → svc.dec.amount row.confirmed =
    ∑ ev ∈ events.filter (svc.isConfirmed ·), svc.dec.amount ev.amount
  pending : ¬reorged → svc.dec.amount row.pending =
    ∑ ev ∈ events.filter (!svc.isConfirmed ·), svc.dec.amount ev.amount
  lastBlockSeen : IsGreatest (insert 0 (events.image ConfirmationEvent.blockHeight) : Finset Int)
    row.lastBlockSeen
  locked : row.locked = ""

/-- The events of a wallet and asset among some operations. -/
def eventsOf (deliveries : List Delivery) (walletID : UUID) (asset : String) :
    Finset ConfirmationEvent :=
  (confirmations deliveries).toFinset.filter (·.isOf walletID asset)

section

variable {svc : BalanceService} {start w : World LedgerCall} {deliveries : List Delivery}

/-- Books of distinct events hold them as a set. -/
theorem Books.holds {events : List ConfirmationEvent} {reorged : List (UUID × String)} {s : Store}
    (books : Books svc events reorged s) (distinct : events.Nodup) (walletID : UUID)
    (asset : String) : Holds svc (events.toFinset.filter (·.isOf walletID asset))
      ((walletID, asset) ∈ reorged) (s.currentBalance walletID asset) := by
  constructor
  · rw [books.sum, svc.total_eq_sum distinct]
  · intro kept
    rw [books.confirmed _ _ kept, svc.total_eq_sum distinct, Finset.filter_filter]
    simp only [Bool.and_eq_true]
  · intro kept
    rw [books.pending kept, svc.total_eq_sum distinct, Finset.filter_filter]
    simp only [Bool.and_eq_true]
  · have last := books.lastBlockSeen walletID asset
    have same : heights events walletID asset = ((insert 0 ((events.toFinset.filter
        (·.isOf walletID asset)).image ConfirmationEvent.blockHeight) : Finset Int) : Set Int) := by
      ext height
      simp [heights, and_assoc]
    rwa [same] at last
  · exact books.locked walletID asset

/-- A reorganisation touches no other row. -/
theorem reorg_frame {ev : ReorgEvent} {before after : World LedgerCall} {result : Except Err Unit}
    (idle : before.depth = 0)
    (execution : (svc.body (.reorg ev)).Exec (step (.reorg ev)) before result after)
    {walletID : UUID} {asset : String} (other : (walletID, asset) ≠ (ev.walletID, ev.asset)) :
    after.store.balances.get (balanceKey walletID asset) =
      before.store.balances.get (balanceKey walletID asset) := by
  have reliable : (svc.body (.reorg ev)).Exec (faulty (fun _ => False) (.reorg ev)) before result
      after := execution.mono fun _ _ _ _ moved => .inl moved
  obtain ⟨-, rows, booked, -⟩ := booked_of_exec idle reliable
  generalize after.store = s' at booked ⊢
  cases booked with
  | unmoved _ _ _ balances _ => rw [balances]
  | demoted _ _ _ balances _ =>
    have apart : ¬(ev.walletID = walletID ∧ ev.asset = asset) := fun same =>
      other (by rw [same.1, same.2])
    rw [balances, get_balance_put]
    exact if_neg apart
  | unlocked => rfl
  | relocked _ locks => rcases locks with locks | locks <;> cases locks
  | failed => rfl

/-- Every row holds the set of its events, whatever their order and multiplicity; with
reorganisations in between, as one sum, and each of them touches no other row. -/
theorem rows_hold_events (lawful : svc.dec.Lawful)
    (trace : Trace step svc.body start deliveries w) (idle : start.depth = 0)
    (balances : start.store.balances = .empty) (recorded : start.store.balanceEvents = ∅)
    (chain : ∀ delivery ∈ deliveries, delivery.1.fromChain = true)
    (clean : ∀ ev ∈ confirmations deliveries, '|' ∉ ev.asset.toList)
    (identical : ∀ ev ∈ confirmations deliveries, ∀ ev' ∈ confirmations deliveries,
      ev.recorded = ev'.recorded → ev = ev') :
    (∀ walletID asset,
      ((∃ row, w.store.balances.get (balanceKey walletID asset) = some row) ↔
        (eventsOf deliveries walletID asset).Nonempty) ∧
      ∀ row, w.store.balances.get (balanceKey walletID asset) = some row →
        Holds svc (eventsOf deliveries walletID asset)
          ((walletID, asset) ∈ reorganised deliveries) row) ∧
    ∀ (ev : ReorgEvent) (before after : World LedgerCall) (result : Except Err Unit),
      before.depth = 0 →
      (svc.body (.reorg ev)).Exec (step (.reorg ev)) before result after →
      ∀ walletID asset, (walletID, asset) ≠ (ev.walletID, ev.asset) →
        after.store.balances.get (balanceKey walletID asset) =
          before.store.balances.get (balanceKey walletID asset) := by
  refine ⟨fun walletID asset => ?_,
    fun ev before after result idle execution walletID asset other =>
      reorg_frame idle execution other⟩
  have books := books_of_trace lawful trace idle balances recorded chain
  -- the deduplication key is injective on the events, so the first occurrences are all of them
  have same (ev : ConfirmationEvent) (member : ev ∈ confirmations deliveries)
      (ev' : ConfirmationEvent) (member' : ev' ∈ confirmations deliveries)
      (keys : ev.key = ev'.key) : ev = ev' := by
    have recorded := BalanceEvent.key_inj (clean ev member) (clean ev' member') keys
    exact identical ev member ev' member' recorded
  have events : (firsts ConfirmationEvent.key (confirmations deliveries)).toFinset =
      (confirmations deliveries).toFinset := by
    ext ev
    rw [List.mem_toFinset, List.mem_toFinset, mem_firsts_iff same]
  have holds := books.holds (nodup_map_firsts.of_map _) walletID asset
  rw [events] at holds
  constructor
  · have present := books.present walletID asset
    rw [Option.ne_none_iff_exists'] at present
    rw [present, eventsOf, Finset.filter_nonempty_iff]
    simp only [mem_firsts_iff same, List.mem_toFinset]
  · intro row found
    rw [Store.currentBalance_of_get found] at holds
    exact holds

end

/-- A confirmed deposit, a second one in another asset that is not, the first one again, and a
reorganisation of the second one. -/
def mixedDeliveries : List Delivery × World LedgerCall :=
  sampleLedger.playAll [.confirmation (sampleDeposit 6),
    .confirmation { sampleDeposit 0 with asset := "LTC", amount := "25" },
    .confirmation (sampleDeposit 6), .reorg ⟨(sampleDeposit 0).walletID, "LTC", 7, "reorg", []⟩]
    emptyLedger

theorem rows_hold_mixed_events :
    (mixedDeliveries.2.store.balances.get (balanceKey (sampleDeposit 6).walletID "BTC")).map
        (fun row => (row.confirmed, row.pending, row.lastBlockSeen)) = some ("100", "0", 7) ∧
      ∀ walletID asset row,
        mixedDeliveries.2.store.balances.get (balanceKey walletID asset) = some row →
          Holds sampleLedger (eventsOf mixedDeliveries.1 walletID asset)
            ((walletID, asset) ∈ reorganised mixedDeliveries.1) row := by
  have rows := rows_hold_events integerDecimals_lawful
    (sampleLedger.playAll_trace _ emptyLedger : Trace step sampleLedger.body emptyLedger
      mixedDeliveries.1 mixedDeliveries.2)
    rfl rfl rfl (by decide +kernel) (by decide +kernel) (by decide +kernel)
  exact ⟨by decide +kernel, fun walletID asset => (rows.1 walletID asset).2⟩

end WalletManagement
