import WalletManagement.Reports

/-!
# Reorganisations and blocks

A row keeps one confirmed amount for all blocks. A reorganisation names a block, but nothing in
the row says what the block contributed, and the service moves the whole confirmed amount to the
pending one. That is the amount of the block exactly if the other blocks contributed nothing.
-/

namespace WalletManagement

open Interaction Data

/-- The confirmed amount that the blocks in a set contributed to a row, from its recorded events. -/
def BalanceService.confirmedIn (svc : BalanceService) (events : List ConfirmationEvent)
    (walletID : UUID) (asset : String) (blocks : Int → Bool) : ℚ :=
  svc.total events fun ev =>
    (ev.isOf walletID asset && svc.isConfirmed ev) && blocks ev.blockHeight

/-- A reorganisation moves what its block contributed from the confirmed amount to the pending one,
and nothing else. -/
def DemotesBlock (svc : BalanceService) (ev : ReorgEvent) (events : List ConfirmationEvent)
    (s s' : Store) : Prop :=
  let moved := svc.confirmedIn events ev.walletID ev.asset (· = ev.blockHeight)
  svc.columns s' ev.walletID ev.asset = svc.columns s ev.walletID ev.asset + (-moved, moved)

section

variable {svc : BalanceService} {events : List ConfirmationEvent} {ev : ReorgEvent} {s s' : Store}

/-- A reorganisation empties the confirmed amount of its row into the pending one. -/
theorem columns_reorged (lawful : svc.dec.Lawful) {rows : List Balance}
    {result : Except Err Unit} (booked : Booked svc (fun _ => False) s (.reorg ev) result rows s') :
    svc.columns s' ev.walletID ev.asset =
      (0, (svc.columns s ev.walletID ev.asset).1 + (svc.columns s ev.walletID ev.asset).2) := by
  cases booked with
  | unmoved missing result s' balances recorded =>
    have fresh {t : Store} (same : t.balances = s.balances) :
        t.currentBalance ev.walletID ev.asset =
          { walletID := ev.walletID, asset := ev.asset } := by
      rw [Store.currentBalance, same, missing]
      rfl
    simp only [BalanceService.columns, fresh balances, fresh rfl, lawful.amount_empty, add_zero]
  | @demoted _ cur found result s' balances recorded =>
    have after := Store.currentBalance_put balances ev.walletID ev.asset
    rw [if_pos ⟨rfl, rfl⟩] at after
    have cleared : svc.dec.amount (svc.demoted ev cur).confirmed = 0 :=
      (lawful.amount_formatDec _).trans lawful.value_zero
    have moved : svc.dec.amount (svc.demoted ev cur).pending =
        svc.dec.amount cur.pending + svc.dec.amount cur.confirmed :=
      (lawful.amount_formatDec _).trans (lawful.value_add _ _)
    simp only [BalanceService.columns, after, cleared, moved, Store.currentBalance_of_get found]
    rw [add_comm]
  | unlocked err locks => obtain ⟨_, _, _, same | same⟩ := locks <;> cases same
  | relocked locked locks found => rcases locks with same | same <;> cases same
  | failed other err rows may => exact may.elim fun _ h => h.1.elim

/-- The confirmed amount of a row comes from the block and from the other blocks. -/
theorem Books.confirmed_eq (books : Books svc events [] s) (walletID : UUID) (asset : String)
    (height : Int) : (svc.columns s walletID asset).1 =
      svc.confirmedIn events walletID asset (· = height) +
        svc.confirmedIn events walletID asset (· ≠ height) := by
  have split := svc.total_split events (fun ev => ev.isOf walletID asset && svc.isConfirmed ev)
    fun ev => decide (ev.blockHeight = height)
  rw [BalanceService.columns, books.confirmed _ _ List.not_mem_nil, split]
  simp only [BalanceService.confirmedIn, decide_not]

end

/-- After a sequence of confirmations from empty tables, a reorganisation moves what its block
contributed exactly if the other blocks contributed nothing to the confirmed amount of its row. -/
theorem demotes_block_iff {svc : BalanceService} (lawful : svc.dec.Lawful)
    {start w w' : World LedgerCall} {deliveries : List Delivery} {ev : ReorgEvent}
    {result : Except Err Unit} (idle : start.depth = 0) (balances : start.store.balances = .empty)
    (recorded : start.store.balanceEvents = ∅)
    (trace : Trace step svc.body start deliveries w)
    (history : ∀ delivery ∈ deliveries, ∃ ev, delivery.1 = .confirmation ev)
    (reorg : (svc.body (.reorg ev)).Exec (step (.reorg ev)) w result w') :
    DemotesBlock svc ev (firsts ConfirmationEvent.key (confirmations deliveries)) w.store
        w'.store ↔
      svc.confirmedIn (firsts ConfirmationEvent.key (confirmations deliveries)) ev.walletID
        ev.asset (· ≠ ev.blockHeight) = 0 := by
  have chain : ∀ delivery ∈ deliveries, delivery.1.fromChain = true := by
    intro delivery member
    obtain ⟨ev, same⟩ := history delivery member
    rw [same]
    rfl
  have unmoved : reorganised deliveries = [] := by
    refine List.filterMap_eq_nil_iff.mpr fun delivery member => ?_
    obtain ⟨ev, same⟩ := history delivery member
    obtain ⟨call, result⟩ := delivery
    cases same
    rfl
  have books := books_of_trace lawful trace idle balances recorded chain
  rw [unmoved] at books
  have run := ledger_run (faulty_of_step (fun _ => False) trace) idle (fun _ _ _ => True) trivial
    fun _ _ _ _ _ _ _ _ _ => trivial
  have reliable : (svc.body (.reorg ev)).Exec (faulty (fun _ => False) (.reorg ev)) w result w' :=
    reorg.mono fun _ _ _ _ moved => .inl moved
  obtain ⟨-, rows, booked, -⟩ := booked_of_exec run.1 reliable
  have contributed := books.confirmed_eq ev.walletID ev.asset ev.blockHeight
  rw [DemotesBlock, columns_reorged lawful booked]
  constructor
  · intro same
    have confirmed := congrArg Prod.fst same
    simp only [Prod.fst_add] at confirmed
    linarith
  · intro nothing
    rw [nothing, add_zero] at contributed
    refine Prod.ext ?_ ?_
    · simp only [Prod.fst_add]
      linarith
    · simp only [Prod.snd_add]
      linarith

/-! ## Worked reorganisations -/

/-- A confirmed deposit of 100 in a given block. -/
def sampleDepositIn (height : Int) : ConfirmationEvent :=
  { sampleDeposit 6 with blockHeight := height }

/-- A reorganisation of the row of the deposits in a given block. -/
def sampleReorg (height : Int) : ReorgEvent where
  walletID := (sampleDeposit 6).walletID
  asset := "BTC"
  blockHeight := height
  eventID := "reorg"
  outpoints := []

/-- Confirmed deposits of 100 in some blocks. -/
def depositedIn (heights : List Int) : List Delivery × World LedgerCall :=
  sampleLedger.playAll (heights.map fun height => .confirmation (sampleDepositIn height))
    emptyLedger

/-- A reorganisation of a block after those deposits. -/
def reorgedAfter (heights : List Int) (height : Int) : Except Err Unit × World LedgerCall :=
  (sampleLedger.body (.reorg (sampleReorg height))).run
    (Script.handle {} (.reorg (sampleReorg height))) (depositedIn heights).2

/-- The only block is demoted. -/
theorem demotes_block_of_one :
    (depositedIn [7]).1 = [(.confirmation (sampleDepositIn 7), .ok ())] ∧
      DemotesBlock sampleLedger (sampleReorg 7) [sampleDepositIn 7] (depositedIn [7]).2.store
        (reorgedAfter [7] 7).2.store := by
  have deliveries : (depositedIn [7]).1 = [(.confirmation (sampleDepositIn 7), .ok ())] := by
    decide +kernel
  have trace : Trace step sampleLedger.body emptyLedger (depositedIn [7]).1 (depositedIn [7]).2 :=
    sampleLedger.playAll_trace _ _
  rw [deliveries] at trace
  have reorg := Program.exec_run (Script.handle_follows {} (.reorg (sampleReorg 7)))
    (sampleLedger.body (.reorg (sampleReorg 7))) (depositedIn [7]).2
  have history : ∀ delivery ∈ [((.confirmation (sampleDepositIn 7), .ok ()) : Delivery)],
      ∃ ev, delivery.1 = .confirmation ev := by
    intro delivery member
    exact ⟨sampleDepositIn 7, by rw [List.mem_singleton.mp member]⟩
  refine ⟨deliveries, (demotes_block_iff integerDecimals_lawful rfl rfl rfl trace history
    reorg).mpr ?_⟩
  decide +kernel

/-- Of two deposits of 100 in two blocks, a reorganisation of the second block demotes both. -/
theorem demotes_other_block :
    (depositedIn [7, 8]).1 = [(.confirmation (sampleDepositIn 7), .ok ()),
        (.confirmation (sampleDepositIn 8), .ok ())] ∧
      sampleLedger.columns (depositedIn [7, 8]).2.store (sampleReorg 8).walletID "BTC" = (200, 0) ∧
      sampleLedger.columns (reorgedAfter [7, 8] 8).2.store (sampleReorg 8).walletID "BTC" =
        (0, 200) ∧
      ¬DemotesBlock sampleLedger (sampleReorg 8) [sampleDepositIn 7, sampleDepositIn 8]
        (depositedIn [7, 8]).2.store (reorgedAfter [7, 8] 8).2.store := by
  refine ⟨by decide +kernel, by decide +kernel, by decide +kernel, ?_⟩
  unfold DemotesBlock
  decide +kernel

end WalletManagement
