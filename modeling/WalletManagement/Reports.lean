import WalletManagement.ExactlyOnce

/-!
# Deposits that are reported again

A deposit is reported once it is seen, and again as its depth grows. Each report has the
deduplication key of the first one, so the service drops it: the first report alone decides in
which column the amount is counted, and a deposit that was pending once stays pending.
-/

namespace WalletManagement

open Interaction Data

/-- The confirmed and the pending amount of a wallet and asset. -/
def BalanceService.columns (svc : BalanceService) (s : Store) (walletID : UUID) (asset : String) :
    ℚ × ℚ :=
  (svc.dec.amount (s.currentBalance walletID asset).confirmed,
    svc.dec.amount (s.currentBalance walletID asset).pending)

/-- The reports of a deposit among the operations. -/
def reportsOf (deposit : BalanceEvent) (deliveries : List Delivery) : List ConfirmationEvent :=
  (confirmations deliveries).filter (·.recorded = deposit)

/-- A run over the in-memory store from empty tables, and a run with the same events but for the
reports of one deposit. The reports agree in the amount and their confirmations do not decrease,
and their row is not reorganised. -/
structure Reported (svc : BalanceService) (deposit : BalanceEvent) (amount : String)
    (start : World LedgerCall) (deliveries others : List Delivery) (w without : World LedgerCall) :
    Prop where
  idle : start.depth = 0
  balances : start.store.balances = .empty
  recorded : start.store.balanceEvents = ∅
  trace : Trace step svc.body start deliveries w
  omitted : Trace step svc.body start others without
  chain : ∀ delivery ∈ deliveries ++ others, delivery.1.fromChain = true
  unmoved : (deposit.walletID, deposit.asset) ∉ reorganised (deliveries ++ others)
  events : confirmations others = (confirmations deliveries).filter (·.recorded ≠ deposit)
  amounts : ∀ report ∈ reportsOf deposit deliveries, report.amount = amount
  growing : (reportsOf deposit deliveries).Pairwise fun earlier later =>
    earlier.confirmations ≤ later.confirmations

/-- The amount of a deposit is counted once, in the confirmed amount if a report meets the
threshold of its chain and in the pending amount if none does. -/
def CountedByDepth (svc : BalanceService) (deposit : BalanceEvent) (amount : String)
    (reports : List ConfirmationEvent) (w without : World LedgerCall) : Prop :=
  svc.columns w.store deposit.walletID deposit.asset =
    svc.columns without.store deposit.walletID deposit.asset +
      if reports.any svc.isConfirmed then (svc.dec.amount amount, 0) else (0, svc.dec.amount amount)

section

variable {svc : BalanceService} {deposit : BalanceEvent} {amount : String}
  {start w without : World LedgerCall} {deliveries others : List Delivery}

/-- A sum over the events that pass a test. -/
theorem BalanceService.total_filter (events : List ConfirmationEvent)
    (test second : ConfirmationEvent → Bool) :
    svc.total (events.filter second) test = svc.total events fun ev => test ev && second ev := by
  rw [BalanceService.total, List.filter_filter]
  rfl

/-- A sum over first occurrences is the sum over those with other keys and the first element with
a key. -/
theorem BalanceService.total_firsts (events : List ConfirmationEvent) (key : String)
    (test : ConfirmationEvent → Bool) :
    svc.total (firsts ConfirmationEvent.key events) test =
      svc.total (firsts ConfirmationEvent.key (events.filter fun ev => ev.key ≠ key)) test +
        svc.total ((events.filter fun ev => ev.key = key).take 1) test := by
  rw [← filter_ne_firsts, ← filter_eq_firsts, svc.total_filter, svc.total_filter,
    svc.total_split _ test fun ev => decide (ev.key ≠ key)]
  simp

/-- The events that the deduplication keys tell from the deposit. -/
theorem Reported.filter_ne_key
    (run : Reported svc deposit amount start deliveries others w without) :
    (confirmations others).filter (fun ev => ev.key ≠ deposit.key) =
      (confirmations deliveries).filter (fun ev => ev.key ≠ deposit.key) := by
  rw [run.events, List.filter_filter]
  refine List.filter_congr fun ev _ => ?_
  have report : ev.key ≠ deposit.key → ev.recorded ≠ deposit := by
    intro other same
    rw [ConfirmationEvent.key, same] at other
    exact other rfl
  by_cases other : ev.key ≠ deposit.key
  · simp [other, report other]
  · simp [other]

/-- An event with the deduplication key of the deposit that is no report of it is about another
asset. -/
theorem ConfirmationEvent.not_isOf_of_key {ev : ConfirmationEvent} (key : ev.key = deposit.key)
    (other : ev.recorded ≠ deposit) : ev.isOf deposit.walletID deposit.asset = false := by
  rw [Bool.eq_false_iff]
  intro own
  exact other (BalanceEvent.eq_of_key (ConfirmationEvent.isOf_iff.mp own).2 key)

/-- In the row of the deposit, the run with the reports counts the first event with the
deduplication key of the deposit, and nothing else, more than the run without them. -/
theorem Reported.total_eq (run : Reported svc deposit amount start deliveries others w without)
    {test : ConfirmationEvent → Bool}
    (own : ∀ ev, ev.isOf deposit.walletID deposit.asset = false → test ev = false) :
    svc.total (firsts ConfirmationEvent.key (confirmations deliveries)) test =
      svc.total (firsts ConfirmationEvent.key (confirmations others)) test +
        svc.total (((confirmations deliveries).filter fun ev => ev.key = deposit.key).take 1)
          test := by
  -- the events of the second run with that key are about other rows
  have nothing : ((((confirmations others).filter fun ev => ev.key = deposit.key).take 1).filter
      test) = [] := by
    refine List.filter_eq_nil_iff.mpr fun ev member => ?_
    obtain ⟨there, key⟩ := List.mem_filter.mp (List.mem_of_mem_take member)
    rw [run.events] at there
    have other : ev.recorded ≠ deposit := by simpa using (List.mem_filter.mp there).2
    rw [own ev (ConfirmationEvent.not_isOf_of_key (by simpa using key) other)]
    exact Bool.false_ne_true
  have zero : svc.total (((confirmations others).filter fun ev => ev.key = deposit.key).take 1)
      test = 0 := by
    rw [BalanceService.total, nothing]
    rfl
  rw [svc.total_firsts (confirmations deliveries) deposit.key,
    svc.total_firsts (confirmations others) deposit.key, run.filter_ne_key, zero, add_zero]

/-- What the first event with the deduplication key of a deposit adds to the row of the deposit:
its amount, in the column of its depth, or nothing when it is another event. -/
def BalanceService.counts (svc : BalanceService) (deposit : BalanceEvent) (amount : String)
    (first : ConfirmationEvent) : ℚ × ℚ :=
  if first.recorded ≠ deposit then 0
  else if svc.isConfirmed first then (svc.dec.amount amount, 0)
  else (0, svc.dec.amount amount)

/-- The first event with the deduplication key of the deposit decides where the amount is
counted. -/
theorem Reported.columns_eq (lawful : svc.dec.Lawful)
    (run : Reported svc deposit amount start deliveries others w without)
    {first : ConfirmationEvent} {later : List ConfirmationEvent}
    (keyed : (confirmations deliveries).filter (fun ev => ev.key = deposit.key) = first :: later) :
    svc.columns w.store deposit.walletID deposit.asset =
      svc.columns without.store deposit.walletID deposit.asset +
        svc.counts deposit amount first := by
  have books := books_of_trace lawful run.trace run.idle run.balances run.recorded
    fun delivery member => run.chain delivery (List.mem_append_left _ member)
  have booked := books_of_trace lawful run.omitted run.idle run.balances run.recorded
    fun delivery member => run.chain delivery (List.mem_append_right _ member)
  have unmoved := run.unmoved
  rw [reorganised, List.filterMap_append, List.mem_append, not_or] at unmoved
  have sum (column : ConfirmationEvent → Bool) :
      svc.total (firsts ConfirmationEvent.key (confirmations deliveries))
          (fun ev => ev.isOf deposit.walletID deposit.asset && column ev) =
        svc.total (firsts ConfirmationEvent.key (confirmations others))
            (fun ev => ev.isOf deposit.walletID deposit.asset && column ev) +
          if first.isOf deposit.walletID deposit.asset && column first
          then svc.dec.amount first.amount else 0 := by
    rw [run.total_eq fun ev other => by rw [other, Bool.false_and], keyed, List.take_succ_cons,
      List.take_zero, svc.total_singleton]
  obtain ⟨there, key⟩ := List.mem_filter.mp (keyed ▸ List.mem_cons_self : first ∈ _)
  simp only [BalanceService.columns]
  rw [books.confirmed _ _ unmoved.1, books.pending unmoved.1, booked.confirmed _ _ unmoved.2,
    booked.pending unmoved.2, sum, sum, BalanceService.counts]
  by_cases report : first.recorded = deposit
  · have own : first.isOf deposit.walletID deposit.asset = true := by
      rw [← report]
      exact ConfirmationEvent.isOf_iff.mpr ⟨rfl, rfl⟩
    have amounts := run.amounts first (List.mem_filter.mpr ⟨there, by simpa using report⟩)
    rw [own, amounts]
    cases svc.isConfirmed first <;> simp [report]
  · rw [ConfirmationEvent.not_isOf_of_key (by simpa using key) report]
    simp [report]

/-- The amount of a reported deposit is counted by its depth exactly if it is zero, or the first
event with the deduplication key of the deposit is a report of it that meets the threshold, or is
a report of it and no report meets the threshold. -/
theorem counted_by_depth_iff (lawful : svc.dec.Lawful)
    (run : Reported svc deposit amount start deliveries others w without)
    (reported : reportsOf deposit deliveries ≠ []) :
    CountedByDepth svc deposit amount (reportsOf deposit deliveries) w without ↔
      svc.dec.amount amount = 0 ∨
        ∃ first, (confirmations deliveries).find? (fun ev => ev.key = deposit.key) = some first ∧
          first.recorded = deposit ∧ (svc.isConfirmed first = true ∨
            ∀ report ∈ reportsOf deposit deliveries, svc.isConfirmed report = false) := by
  have report_key {report : ConfirmationEvent} (member : report ∈ reportsOf deposit deliveries) :
      report ∈ (confirmations deliveries).filter fun ev => ev.key = deposit.key := by
    obtain ⟨there, same⟩ := List.mem_filter.mp member
    have recorded : report.recorded = deposit := by simpa using same
    exact List.mem_filter.mpr ⟨there, by simp [ConfirmationEvent.key, recorded]⟩
  obtain ⟨report, member⟩ := List.exists_mem_of_ne_nil _ reported
  obtain ⟨first, later, keyed⟩ := List.exists_cons_of_ne_nil
    (List.ne_nil_of_mem (report_key member))
  have found : (confirmations deliveries).find? (fun ev => ev.key = deposit.key) = some first := by
    rw [← List.head?_filter, keyed, List.head?_cons]
  have there : first ∈ confirmations deliveries := List.mem_of_find?_eq_some found
  rw [CountedByDepth, run.columns_eq lawful keyed, add_right_inj, BalanceService.counts]
  simp only [found, Option.some.injEq, exists_eq_left']
  by_cases own : first.recorded = deposit
  · have reports : first ∈ reportsOf deposit deliveries :=
      List.mem_filter.mpr ⟨there, by simpa using own⟩
    by_cases none : ∀ report ∈ reportsOf deposit deliveries, svc.isConfirmed report = false
    · have unmet : (reportsOf deposit deliveries).any svc.isConfirmed = false := by
        simpa using none
      refine iff_of_true ?_ (.inr ⟨own, .inr none⟩)
      simp [own, none first reports, unmet]
    · have met : (reportsOf deposit deliveries).any svc.isConfirmed = true := by
        simpa using none
      cases decided : svc.isConfirmed first with
      | true =>
        refine iff_of_true ?_ (.inr ⟨own, .inl rfl⟩)
        simp [own, met]
      | false =>
        -- the amount is pending and should be confirmed
        rw [if_neg (not_not.mpr own), if_neg Bool.false_ne_true, met, if_pos rfl]
        constructor
        · intro same
          exact .inl (congrArg Prod.snd same)
        · rintro (zero | ⟨-, confirmed | unmet⟩)
          · rw [zero]
          · cases confirmed
          · exact absurd unmet none
  · -- the amount is counted nowhere
    rw [if_pos own]
    constructor
    · intro same
      split at same
      · exact .inl (congrArg Prod.fst same).symm
      · exact .inl (congrArg Prod.snd same).symm
    · rintro (zero | ⟨report, -⟩)
      · rw [zero, ite_self]
        rfl
      · exact absurd report own

end

/-! ## Worked reports -/

/-- The deposit of `sampleDeposit`. -/
def sampleEvent : BalanceEvent := (sampleDeposit 0).recorded

/-- The deposit is reported with each of some numbers of confirmations. -/
def reportedDeliveries (depths : List Int) : List Delivery × World LedgerCall :=
  sampleLedger.playAll (depths.map fun depth => .confirmation (sampleDeposit depth)) emptyLedger

/-- Two reports are a reported deposit. -/
theorem reported_twice {depth deeper : Int} (growing : depth ≤ deeper)
    (events : confirmations (reportedDeliveries [depth, deeper]).1 =
      [sampleDeposit depth, sampleDeposit deeper])
    (chain : ∀ delivery ∈ (reportedDeliveries [depth, deeper]).1, delivery.1.fromChain = true)
    (unmoved : reorganised (reportedDeliveries [depth, deeper]).1 = []) :
    Reported sampleLedger sampleEvent "100" emptyLedger (reportedDeliveries [depth, deeper]).1 []
      (reportedDeliveries [depth, deeper]).2 emptyLedger := by
  have recorded (n : Int) : (sampleDeposit n).recorded = sampleEvent := rfl
  have reports : reportsOf sampleEvent (reportedDeliveries [depth, deeper]).1 =
      [sampleDeposit depth, sampleDeposit deeper] := by
    rw [reportsOf, events]
    simp [recorded]
  constructor
  · rfl
  · rfl
  · rfl
  · exact sampleLedger.playAll_trace _ _
  · exact .nil
  · rwa [List.append_nil]
  · rw [List.append_nil, unmoved]
    exact List.not_mem_nil
  · rw [events]
    simp [recorded, confirmations]
  · rw [reports]
    simp [sampleDeposit]
  · rw [reports]
    simpa [sampleDeposit] using growing

theorem counted_by_depth_confirmed :
    reportsOf sampleEvent (reportedDeliveries [6, 9]).1 = [sampleDeposit 6, sampleDeposit 9] ∧
      CountedByDepth sampleLedger sampleEvent "100"
        (reportsOf sampleEvent (reportedDeliveries [6, 9]).1)
        (reportedDeliveries [6, 9]).2 emptyLedger := by
  have events : confirmations (reportedDeliveries [6, 9]).1 =
      [sampleDeposit 6, sampleDeposit 9] := by
    decide +kernel
  have run := reported_twice (by decide) events (by decide +kernel) (by decide +kernel)
  have reports : reportsOf sampleEvent (reportedDeliveries [6, 9]).1 =
      [sampleDeposit 6, sampleDeposit 9] := by
    decide +kernel
  have reported : reportsOf sampleEvent (reportedDeliveries [6, 9]).1 ≠ [] := by
    rw [reports]
    exact List.cons_ne_nil _ _
  refine ⟨reports, (counted_by_depth_iff integerDecimals_lawful run reported).mpr (.inr ?_)⟩
  exact ⟨sampleDeposit 6, by decide +kernel, rfl, .inl (by decide +kernel)⟩

theorem deeper_report_dropped :
    Reported sampleLedger sampleEvent "100" emptyLedger (reportedDeliveries [1, 6]).1 []
        (reportedDeliveries [1, 6]).2 emptyLedger ∧
      reportsOf sampleEvent (reportedDeliveries [1, 6]).1 = [sampleDeposit 1, sampleDeposit 6] ∧
      sampleLedger.columns (reportedDeliveries [1, 6]).2.store sampleEvent.walletID "BTC" =
        (0, 100) ∧
      ¬CountedByDepth sampleLedger sampleEvent "100" [sampleDeposit 1, sampleDeposit 6]
        (reportedDeliveries [1, 6]).2 emptyLedger := by
  have events : confirmations (reportedDeliveries [1, 6]).1 =
      [sampleDeposit 1, sampleDeposit 6] := by
    decide +kernel
  refine ⟨reported_twice (by decide) events (by decide +kernel) (by decide +kernel),
    by decide +kernel, by decide +kernel, ?_⟩
  unfold CountedByDepth
  decide +kernel

end WalletManagement
