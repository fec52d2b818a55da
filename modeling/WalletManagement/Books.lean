import WalletManagement.BalanceOutcome
import WalletManagement.Data.Firsts
import Mathlib.Algebra.BigOperators.Group.Finset.Basic
import Mathlib.Algebra.Order.Field.Rat
import Mathlib.Order.Bounds.Basic
import Mathlib.Tactic.Linarith
import Mathlib.Tactic.Ring

/-!
# The books of the balance service

What the rows hold after a sequence of operations: sums over the first occurrences of the
acknowledged events. An event counts under its deduplication key, so of several events with one
key only the first one counts, with the confirmations it reports. A reorganisation of a row loses
the split of its sum in a confirmed and a pending part, and nothing else.
-/

namespace WalletManagement

open Interaction Data

/-! ## Rows -/

/-- The row of a wallet and asset after a row is written. -/
theorem get_balance_put (balances : Table Balance.key) (row : Balance) (walletID : UUID)
    (asset : String) : (balances.put row).get (balanceKey walletID asset) =
      if row.walletID = walletID ∧ row.asset = asset then some row
      else balances.get (balanceKey walletID asset) := by
  rw [balances.get_put]
  by_cases own : row.walletID = walletID ∧ row.asset = asset
  · rw [if_pos own, Balance.key, own.1, own.2, if_pos rfl]
  · have keys : row.key ≠ balanceKey walletID asset := fun same => own (balanceKey_inj same)
    rw [if_neg own, if_neg keys]

/-- The current row of a wallet and asset after a row is written. -/
theorem Store.currentBalance_put {s s' : Store} {row : Balance}
    (balances : s'.balances = s.balances.put row) (walletID : UUID) (asset : String) :
    s'.currentBalance walletID asset =
      if row.walletID = walletID ∧ row.asset = asset then row
      else s.currentBalance walletID asset := by
  rw [Store.currentBalance, balances, get_balance_put]
  split <;> rfl

/-- A row that is there is the current row. -/
theorem Store.currentBalance_of_get {s : Store} {walletID : UUID} {asset : String} {row : Balance}
    (found : s.balances.get (balanceKey walletID asset) = some row) :
    s.currentBalance walletID asset = row := by
  rw [Store.currentBalance, found, Option.getD_some]

/-! ## Sums of events -/

/-- The deduplication key of an event. -/
def ConfirmationEvent.key (ev : ConfirmationEvent) : String := ev.recorded.key

/-- A recorded event is about a wallet and an asset. -/
def BalanceEvent.isOf (event : BalanceEvent) (walletID : UUID) (asset : String) : Bool :=
  event.walletID = walletID && event.asset = asset

/-- The event is about a wallet and an asset. -/
def ConfirmationEvent.isOf (ev : ConfirmationEvent) (walletID : UUID) (asset : String) : Bool :=
  ev.recorded.isOf walletID asset

theorem ConfirmationEvent.isOf_iff {ev : ConfirmationEvent} {walletID : UUID} {asset : String} :
    ev.isOf walletID asset = true ↔ ev.walletID = walletID ∧ ev.asset = asset := by
  rw [ConfirmationEvent.isOf, BalanceEvent.isOf, Bool.and_eq_true, decide_eq_true_iff,
    decide_eq_true_iff]
  rfl

namespace BalanceService

variable (svc : BalanceService)

/-- The sum of the amounts of the events that a test selects. -/
def total (events : List ConfirmationEvent) (test : ConfirmationEvent → Bool) : ℚ :=
  ((events.filter test).map fun ev => svc.dec.amount ev.amount).sum

@[simp] theorem total_nil (test : ConfirmationEvent → Bool) : svc.total [] test = 0 := rfl

/-- Events one after the other. -/
theorem total_append (events later : List ConfirmationEvent) (test : ConfirmationEvent → Bool) :
    svc.total (events ++ later) test = svc.total events test + svc.total later test := by
  rw [total, List.filter_append, List.map_append, List.sum_append]
  rfl

/-- One event. -/
theorem total_singleton (ev : ConfirmationEvent) (test : ConfirmationEvent → Bool) :
    svc.total [ev] test = if test ev then svc.dec.amount ev.amount else 0 := by
  cases selected : test ev <;> simp [total, selected]

/-- A sum is the sum of the events that pass a second test and of those that do not. -/
theorem total_split (events : List ConfirmationEvent) (test second : ConfirmationEvent → Bool) :
    svc.total events test = svc.total events (fun ev => test ev && second ev) +
      svc.total events (fun ev => test ev && !second ev) := by
  induction events using List.reverseRecOn with
  | nil => simp
  | append_singleton events ev ih =>
    rw [total_append, total_append, total_append, ih, total_singleton, total_singleton,
      total_singleton]
    cases test ev <;> cases second ev <;> simp <;> ring

/-- The sum over a list without repetitions as a sum over a set. -/
theorem total_eq_sum {events : List ConfirmationEvent} (distinct : events.Nodup)
    (test : ConfirmationEvent → Bool) :
    svc.total events test =
      ∑ ev ∈ events.toFinset.filter (test ·), svc.dec.amount ev.amount := by
  rw [total, ← List.sum_toFinset _ (distinct.filter _), List.toFinset_filter]

end BalanceService

/-- The block heights that the events of a wallet and asset report, and zero. -/
def heights (events : List ConfirmationEvent) (walletID : UUID) (asset : String) : Set Int :=
  {height | height = 0 ∨ ∃ ev ∈ events, ev.isOf walletID asset = true ∧ ev.blockHeight = height}

/-- One more event. -/
theorem heights_concat (events : List ConfirmationEvent) (ev : ConfirmationEvent)
    (walletID : UUID) (asset : String) : heights (events ++ [ev]) walletID asset =
      if ev.isOf walletID asset then insert ev.blockHeight (heights events walletID asset)
      else heights events walletID asset := by
  ext height
  simp only [heights, List.mem_append, List.mem_singleton]
  grind

/-- The greatest of some heights and one more. -/
theorem isGreatest_max64 {set : Set Int} {last : Int} (greatest : IsGreatest set last)
    (height : Int) : IsGreatest (insert height set) (max64 last height) := by
  have same : max64 last height = max height last := by
    unfold max64
    split <;> omega
  rw [same]
  exact greatest.insert height

/-! ## The books -/

/-- The store holds the sums of a list of events, none of them twice. The rows that were
reorganised hold them as confirmed and pending amounts together. -/
structure Books (svc : BalanceService) (events : List ConfirmationEvent)
    (reorged : List (UUID × String)) (s : Store) : Prop where
  /-- The events are the recorded ones. -/
  recorded : ∀ key, key ∈ s.balanceEvents ↔ key ∈ events.map ConfirmationEvent.key
  /-- A row is there when there is an event. -/
  present : ∀ walletID asset, s.balances.get (balanceKey walletID asset) ≠ none ↔
    ∃ ev ∈ events, ev.isOf walletID asset = true
  /-- The amounts of a row. -/
  sum : ∀ walletID asset, svc.dec.amount (s.currentBalance walletID asset).confirmed +
    svc.dec.amount (s.currentBalance walletID asset).pending =
      svc.total events (·.isOf walletID asset)
  /-- The confirmed amount of a row. -/
  confirmed : ∀ walletID asset, (walletID, asset) ∉ reorged →
    svc.dec.amount (s.currentBalance walletID asset).confirmed =
      svc.total events (fun ev => ev.isOf walletID asset && svc.isConfirmed ev)
  /-- The last block of a row. -/
  lastBlockSeen : ∀ walletID asset,
    IsGreatest (heights events walletID asset) (s.currentBalance walletID asset).lastBlockSeen
  /-- Nothing is locked. -/
  locked : ∀ walletID asset, (s.currentBalance walletID asset).locked = ""

namespace Books

variable {svc : BalanceService} {mayFail : Op → Prop} {events : List ConfirmationEvent}
  {reorged : List (UUID × String)} {s s' : Store}

/-- The empty books. -/
theorem empty (lawful : svc.dec.Lawful) (balances : s.balances = .empty)
    (recorded : s.balanceEvents = ∅) : Books svc [] [] s := by
  have fresh (walletID : UUID) (asset : String) :
      s.currentBalance walletID asset = { walletID, asset } := by
    rw [Store.currentBalance, balances]
    rfl
  constructor
  · simp [recorded]
  · simp [balances]
  · intro walletID asset
    rw [fresh]
    simp [lawful.amount_empty]
  · intro walletID asset _
    rw [fresh]
    exact lawful.amount_empty
  · intro walletID asset
    rw [fresh]
    simp [heights, IsGreatest, upperBounds]
  · intro walletID asset
    rw [fresh]

/-- The pending amount of a row that was not reorganised. -/
theorem pending (books : Books svc events reorged s) {walletID : UUID} {asset : String}
    (kept : (walletID, asset) ∉ reorged) :
    svc.dec.amount (s.currentBalance walletID asset).pending =
      svc.total events (fun ev => ev.isOf walletID asset && !svc.isConfirmed ev) := by
  have sum := books.sum walletID asset
  have split := svc.total_split events (·.isOf walletID asset) svc.isConfirmed
  rw [← books.confirmed _ _ kept] at split
  linarith

/-- Rows are only forgotten to be split. -/
theorem weaken (books : Books svc events reorged s) (more : List (UUID × String)) :
    Books svc events (reorged ++ more) s :=
  { books with
    confirmed := fun walletID asset kept =>
      books.confirmed walletID asset fun member => kept (List.mem_append_left _ member) }

/-- The books only look at the rows and the recorded events. -/
theorem congr (books : Books svc events reorged s) (balances : s'.balances = s.balances)
    (recorded : s'.balanceEvents = s.balanceEvents) : Books svc events reorged s' := by
  have same (walletID : UUID) (asset : String) :
      s'.currentBalance walletID asset = s.currentBalance walletID asset := by
    rw [Store.currentBalance, balances]
    rfl
  constructor
  · rw [recorded]
    exact books.recorded
  · rw [balances]
    exact books.present
  all_goals
    intro walletID asset
    rw [same]
  · exact books.sum walletID asset
  · exact books.confirmed walletID asset
  · exact books.lastBlockSeen walletID asset
  · exact books.locked walletID asset

/-- The written text of a sum. -/
theorem amount_add (lawful : svc.dec.Lawful) (condition : Bool) (text amount : String) :
    svc.dec.amount (svc.dec.formatDec
      (if condition then svc.dec.add (svc.dec.parseDec text) (svc.dec.parseDec amount)
        else svc.dec.parseDec text)) =
      svc.dec.amount text + if condition then svc.dec.amount amount else 0 := by
  rw [lawful.amount_formatDec]
  cases condition with
  | false => simp [Decimals.amount]
  | true => exact lawful.value_add _ _

/-- The confirmed amount after an event. -/
theorem credited_confirmed (lawful : svc.dec.Lawful) (ev : ConfirmationEvent) (cur : Balance) :
    svc.dec.amount (svc.credited ev cur).confirmed = svc.dec.amount cur.confirmed +
      if svc.isConfirmed ev then svc.dec.amount ev.amount else 0 :=
  amount_add lawful _ _ _

/-- The pending amount after an event. -/
theorem credited_pending (lawful : svc.dec.Lawful) (ev : ConfirmationEvent) (cur : Balance) :
    svc.dec.amount (svc.credited ev cur).pending = svc.dec.amount cur.pending +
      if svc.isConfirmed ev then 0 else svc.dec.amount ev.amount := by
  have sum := amount_add lawful (!svc.isConfirmed ev) cur.pending ev.amount
  simp only [Bool.not_eq_true', ← Bool.not_eq_true, ite_not] at sum
  exact sum

/-- A new event is entered. -/
theorem credit (lawful : svc.dec.Lawful) (books : Books svc events reorged s)
    (ev : ConfirmationEvent) :
    Books svc (events ++ [ev]) reorged ((s.withEvent ev).upsertBalance
      (svc.credited ev (s.currentBalance ev.walletID ev.asset))) := by
  have put : ((s.withEvent ev).upsertBalance
      (svc.credited ev (s.currentBalance ev.walletID ev.asset))).balances =
      s.balances.put (svc.credited ev (s.currentBalance ev.walletID ev.asset)) := rfl
  have current (walletID : UUID) (asset : String) := Store.currentBalance_put put walletID asset
  have own {walletID : UUID} {asset : String} :
      ((svc.credited ev (s.currentBalance ev.walletID ev.asset)).walletID = walletID ∧
        (svc.credited ev (s.currentBalance ev.walletID ev.asset)).asset = asset) ↔
        ev.isOf walletID asset = true := ConfirmationEvent.isOf_iff.symm
  have same {walletID : UUID} {asset : String} (of : ev.isOf walletID asset = true) :
      s.currentBalance ev.walletID ev.asset = s.currentBalance walletID asset := by
    obtain ⟨rfl, rfl⟩ := own.mpr of
    rfl
  constructor
  · intro key
    show key ∈ insert ev.key s.balanceEvents ↔ _
    rw [Finset.mem_insert, books.recorded, List.map_append, List.mem_append, or_comm]
    simp
  · intro walletID asset
    rw [put, get_balance_put]
    by_cases of : ev.isOf walletID asset = true
    · rw [if_pos (own.mpr of)]
      exact iff_of_true nofun ⟨ev, List.mem_append_right _ (List.mem_singleton_self ev), of⟩
    · rw [if_neg (mt own.mp of), books.present]
      constructor
      · rintro ⟨other, member, about⟩
        exact ⟨other, List.mem_append_left _ member, about⟩
      · rintro ⟨other, member, about⟩
        rcases List.mem_append.mp member with earlier | last
        · exact ⟨other, earlier, about⟩
        · exact absurd (List.mem_singleton.mp last ▸ about) of
  · intro walletID asset
    rw [current, svc.total_append, svc.total_singleton, ← books.sum]
    by_cases of : ev.isOf walletID asset = true
    · rw [if_pos (own.mpr of), if_pos of, credited_confirmed lawful, credited_pending lawful,
        same of]
      split <;> ring
    · rw [if_neg (mt own.mp of), if_neg of, add_zero]
  · intro walletID asset kept
    rw [current, svc.total_append, svc.total_singleton, ← books.confirmed _ _ kept]
    by_cases of : ev.isOf walletID asset = true
    · rw [if_pos (own.mpr of), of, Bool.true_and, credited_confirmed lawful, same of]
    · rw [if_neg (mt own.mp of), Bool.eq_false_of_not_eq_true of, Bool.false_and]
      simp
  · intro walletID asset
    rw [current, heights_concat]
    by_cases of : ev.isOf walletID asset = true
    · rw [if_pos (own.mpr of), if_pos of, same of]
      exact isGreatest_max64 (books.lastBlockSeen walletID asset) ev.blockHeight
    · rw [if_neg (mt own.mp of), if_neg of]
      exact books.lastBlockSeen walletID asset
  · intro walletID asset
    rw [current]
    split
    · exact books.locked _ _
    · exact books.locked _ _

/-- A reorganisation moves the confirmed amount of its row to the pending amount. -/
theorem demote (lawful : svc.dec.Lawful) (books : Books svc events reorged s) {ev : ReorgEvent}
    {cur : Balance} (found : s.balances.get (balanceKey ev.walletID ev.asset) = some cur)
    (put : s'.balances = s.balances.put (svc.demoted ev cur))
    (recorded : s'.balanceEvents = s.balanceEvents) :
    Books svc events (reorged ++ [(ev.walletID, ev.asset)]) s' := by
  have current (walletID : UUID) (asset : String) : s'.currentBalance walletID asset =
      if ev.walletID = walletID ∧ ev.asset = asset then svc.demoted ev cur
      else s.currentBalance walletID asset := Store.currentBalance_put put walletID asset
  have own := Store.currentBalance_of_get found
  constructor
  · rw [recorded]
    exact books.recorded
  · intro walletID asset
    rw [put, get_balance_put]
    split
    · rename_i same
      rw [← books.present, ← same.1, ← same.2]
      simp [BalanceService.demoted, found]
    · exact books.present walletID asset
  · intro walletID asset
    rw [current, ← books.sum]
    split
    · rename_i same
      have moved : svc.dec.amount (svc.demoted ev cur).pending =
          svc.dec.amount cur.pending + svc.dec.amount cur.confirmed :=
        (lawful.amount_formatDec _).trans (lawful.value_add _ _)
      have cleared : svc.dec.amount (svc.demoted ev cur).confirmed = 0 :=
        (lawful.amount_formatDec _).trans lawful.value_zero
      rw [moved, cleared, ← same.1, ← same.2, own]
      ring
    · rfl
  · intro walletID asset kept
    have other : ¬(ev.walletID = walletID ∧ ev.asset = asset) := fun same =>
      kept (List.mem_append_right _ (by simp [same.1, same.2]))
    rw [current, if_neg other]
    exact books.confirmed _ _ fun member => kept (List.mem_append_left _ member)
  · intro walletID asset
    rw [current]
    split
    · rename_i same
      have last := books.lastBlockSeen ev.walletID ev.asset
      rw [own] at last
      rw [← same.1, ← same.2]
      exact last
    · exact books.lastBlockSeen walletID asset
  · intro walletID asset
    rw [current]
    split
    · have unlocked := books.locked ev.walletID ev.asset
      rw [own] at unlocked
      exact unlocked
    · exact books.locked walletID asset

end Books

/-! ## Runs -/

/-- The events that were delivered and acknowledged with no error, in order. -/
def acknowledged (deliveries : List Delivery) : List ConfirmationEvent :=
  deliveries.filterMap fun
    | (.confirmation ev, .ok ()) => some ev
    | _ => none

/-- The wallets and assets that were reorganised. -/
def reorganised (deliveries : List Delivery) : List (UUID × String) :=
  deliveries.filterMap fun
    | (.reorg ev, _) => some (ev.walletID, ev.asset)
    | _ => none

/-- The operation delivers a block event: a confirmation or a reorganisation. -/
def LedgerCall.fromChain : LedgerCall → Bool
  | .confirmation _ | .reorg _ => true
  | _ => false

section Runs

variable {svc : BalanceService} {mayFail : Op → Prop} {s s' : Store} {rows : List Balance}
  {deliveries : List Delivery}

/-- One operation keeps the books, over a store whose only failing method records events. -/
theorem Books.step (lawful : svc.dec.Lawful) (reliable : ∀ op, mayFail op → op.records = true)
    {call : LedgerCall} {result : Except Err Unit} (chain : call.fromChain = true)
    (books : Books svc (firsts ConfirmationEvent.key (acknowledged deliveries))
      (reorganised deliveries) s)
    (booked : Booked svc mayFail s call result rows s') :
    Books svc (firsts ConfirmationEvent.key (acknowledged (deliveries ++ [(call, result)])))
      (reorganised (deliveries ++ [(call, result)])) s' := by
  have known (ev : ConfirmationEvent) : ev.key ∈ s.balanceEvents ↔
      ev.key ∈ (firsts ConfirmationEvent.key (acknowledged deliveries)).map ConfirmationEvent.key :=
    books.recorded ev.key
  rw [acknowledged, reorganised, List.filterMap_append, List.filterMap_append, ← acknowledged,
    ← reorganised]
  cases booked with
  | @duplicate ev here =>
    have seen := (known ev).mp here
    simp only [List.filterMap_cons, List.filterMap_nil, List.append_nil, firsts_concat, addFirst,
      if_pos seen]
    exact books
  | unrecorded err may =>
    simp only [List.filterMap_cons, List.filterMap_nil, List.append_nil]
    exact books
  | aborted unknown err rows may =>
    obtain ⟨op, may, other⟩ := may
    exact absurd (reliable op may) (by simp [other])
  | @credited ev unknown =>
    have unseen := mt (known ev).mpr unknown
    simp only [List.filterMap_cons, List.filterMap_nil, List.append_nil, firsts_concat, addFirst,
      if_neg unseen]
    exact books.credit lawful ev
  | unmoved missing result s' balances events =>
    simp only [List.filterMap_cons, List.filterMap_nil, List.append_nil]
    exact (books.congr balances events).weaken _
  | demoted found result s' balances events =>
    simp only [List.filterMap_cons, List.filterMap_nil, List.append_nil]
    exact books.demote lawful found balances events
  | unlocked err locks =>
    obtain ⟨walletID, asset, amount, rfl | rfl⟩ := locks <;> cases chain
  | relocked locked locks found => rcases locks with rfl | rfl <;> cases chain
  | failed other err rows may =>
    obtain ⟨op, may, other⟩ := may
    exact absurd (reliable op may) (by simp [other])

/-- A sequence of block events leaves books of the first occurrences of its events. -/
theorem books_run (lawful : svc.dec.Lawful) (reliable : ∀ op, mayFail op → op.records = true)
    {start w : World LedgerCall} (trace : Trace (faulty mayFail) svc.body start deliveries w)
    (idle : start.depth = 0) (balances : start.store.balances = .empty)
    (recorded : start.store.balanceEvents = ∅)
    (chain : ∀ delivery ∈ deliveries, delivery.1.fromChain = true) :
    Books svc (firsts ConfirmationEvent.key (acknowledged deliveries)) (reorganised deliveries)
      w.store := by
  let inv (deliveries : List Delivery) (s : Store) (_ : List Balance) : Prop :=
    (∀ delivery ∈ deliveries, delivery.1.fromChain = true) →
      Books svc (firsts ConfirmationEvent.key (acknowledged deliveries)) (reorganised deliveries) s
  have run := ledger_run trace idle inv (fun _ => Books.empty lawful balances recorded)
    fun earlier s rows call result new s' here booked chain =>
      Books.step lawful reliable (chain (call, result) (by simp))
        (here fun delivery member => chain delivery (List.mem_append_left _ member)) booked
  obtain ⟨-, rows, -, books⟩ := run
  exact books chain

/-- The events that were delivered, in order. -/
def confirmations (deliveries : List Delivery) : List ConfirmationEvent :=
  deliveries.filterMap fun
    | (.confirmation ev, _) => some ev
    | _ => none

/-- A run over the in-memory store is a run over a store that may fail calls. -/
theorem faulty_of_step {start w : World LedgerCall} (mayFail : Op → Prop)
    (trace : Trace WalletManagement.step svc.body start deliveries w) :
    Trace (faulty mayFail) svc.body start deliveries w :=
  trace.mono fun _ _ _ _ _ moved => .inl moved

/-- The in-memory store acknowledges every event. -/
theorem acknowledged_eq_confirmations {start w : World LedgerCall}
    (trace : Trace WalletManagement.step svc.body start deliveries w) (idle : start.depth = 0) :
    acknowledged deliveries = confirmations deliveries := by
  have run := ledger_run (faulty_of_step (fun _ => False) trace) idle
    (fun earlier _ _ => acknowledged earlier = confirmations earlier) rfl
    fun earlier s rows call result new s' here booked => by
      rw [acknowledged, confirmations, List.filterMap_append, List.filterMap_append,
        ← acknowledged, ← confirmations, here]
      congr 1
      cases booked with
      | unrecorded err may => exact may.elim
      | aborted unknown err rows may => exact may.elim fun _ h => h.1.elim
      | unlocked err locks =>
        obtain ⟨walletID, asset, amount, rfl | rfl⟩ := locks <;> rfl
      | relocked locked locks found => rcases locks with rfl | rfl <;> rfl
      | failed other err rows may => exact may.elim fun _ h => h.1.elim
      | _ => rfl
  obtain ⟨-, -, -, same⟩ := run
  exact same

/-- A sequence of block events over the in-memory store leaves books of their first
occurrences. -/
theorem books_of_trace (lawful : svc.dec.Lawful) {start w : World LedgerCall}
    (trace : Trace WalletManagement.step svc.body start deliveries w) (idle : start.depth = 0)
    (balances : start.store.balances = .empty) (recorded : start.store.balanceEvents = ∅)
    (chain : ∀ delivery ∈ deliveries, delivery.1.fromChain = true) :
    Books svc (firsts ConfirmationEvent.key (confirmations deliveries)) (reorganised deliveries)
      w.store := by
  rw [← acknowledged_eq_confirmations trace idle]
  exact books_run lawful (fun _ => False.elim) (faulty_of_step (fun _ => False) trace) idle balances
    recorded chain

end Runs

end WalletManagement
