import WalletManagement.Books
import WalletManagement.ExactlyOnce
import WalletManagement.StoreMutex
import Mathlib.Algebra.BigOperators.Group.Finset.Piecewise

/-!
# Concurrent balance updates

The entry points of the balance service as programs of methods and transactions, run by any number
of goroutines over the in-memory store with its mutex. `ApplyConfirmationEvent` records an event in
one method and credits it in a transaction that comes later, and between the two every other
goroutine may run. Of several deliveries of one event exactly one is credited, and no credit is lost
to another goroutine that reads and writes the same row.
-/

namespace WalletManagement

open Interaction

/-! ## The service as programs with transactions -/

namespace BalanceService

variable (svc : BalanceService)

/-- `ApplyConfirmationEvent` from its transaction on. -/
def creditBlock (ev : ConfirmationEvent) : Block calls Err (Except Err Unit) := do
  match ← Block.transaction (.ofProgram (svc.creditTx ev)) with
  | .error err => pure (.error err)
  | .ok () =>
    let decrease := svc.isConfirmed ev && svc.dec.isNegative (svc.dec.parseDec ev.amount)
    .ofProgram do
      runIf (svc.onConfirmedDecrease && decrease)
        (perform (.onConfirmedDecrease ev.walletID ev.asset))
      pure (.ok ())

/-- `ApplyConfirmationEvent` from the recording of the event on. -/
def recordBlock (ev : ConfirmationEvent) : Block calls Err (Except Err Unit) := do
  match ← Block.perform (S := calls) (.store (.recordBalanceEvent ev.recorded)) with
  | .error err => if err.is .errDuplicateEvent then pure (.ok ()) else pure (.error err)
  | .ok () => svc.creditBlock ev

/-- `ApplyConfirmationEvent`. -/
def confirmationBlock (ev : ConfirmationEvent) : Block calls Err (Except Err Unit) := do
  let _ ← Block.perform (S := calls) .newV7
  svc.recordBlock ev

/-- `ApplyReorgEvent`. -/
def reorgBlock (ev : ReorgEvent) : Block calls Err (Except Err Unit) := do
  match ← Block.transaction (.ofProgram (svc.demoteTx ev)) with
  | .error err => pure (.error err)
  | .ok () => .ofProgram do
    match ← svc.restoreReorged ev with
    | .error err => pure (.error err)
    | .ok () =>
      runIf svc.audit (perform (.emit ⟨"wallet.balance.updated", some ev.walletID,
        [("asset", .text ev.asset), ("reorg", .flag true),
          ("block_height", .number ev.blockHeight)]⟩))
      pure (.ok ())

/-- The function that `AddLocked` and `ReleaseLocked` pass to `InTx`. -/
def relockTx (walletID : UUID) (asset : String) (change : svc.dec.Decimal → svc.dec.Decimal) :
    Prog (Except Err Unit) := do
  match ← perform (.store (.getBalance walletID asset)) with
  | .error err => pure (.error err)
  | .ok cur =>
    perform (.store (.upsertBalance
      (svc.relocked walletID asset (change (svc.dec.parseDec cur.locked)) cur)))

/-- The program of an entry point. -/
def ledgerBlock : LedgerCall → Block calls Err (Except Err Unit)
  | .confirmation ev => svc.confirmationBlock ev
  | .reorg ev => svc.reorgBlock ev
  | .addLocked walletID asset amount => .transaction <| .ofProgram <|
    svc.relockTx walletID asset fun locked => svc.dec.add locked (svc.dec.parseDec amount)
  | .releaseLocked walletID asset amount => .transaction <| .ofProgram <|
    svc.relockTx walletID asset fun locked =>
      let locked := svc.dec.sub locked (svc.dec.parseDec amount)
      if svc.dec.isNegative locked then svc.dec.zero else locked

end BalanceService

/-- A transaction as the calls that open and close it. -/
def flatten : {α : Type} → Block calls Err α → Prog α
  | _, .done value => .done value
  | _, .call op next => .call op fun answer => flatten (next answer)
  | _, .inTx body next => inTx (flatten body) >>= fun outcome => flatten (next outcome)

/-- A program without transactions is itself. -/
theorem flatten_ofProgram {α : Type} (program : Prog α) :
    flatten (.ofProgram program) = program := by
  induction program with
  | done value => rfl
  | call op next ih =>
    show Program.call op _ = Program.call op _
    congr 1
    funext answer
    exact ih answer

/-- One transaction. -/
theorem flatten_transaction {α β : Type} (fn : Prog (Except Err α))
    (next : Except Err α → Block calls Err β) :
    flatten (Block.transaction (.ofProgram fn) >>= next) =
      inTx fn >>= fun outcome => flatten (next outcome) := by
  show inTx (flatten (.ofProgram fn)) >>= _ = _
  rw [flatten_ofProgram]
  rfl

/-- The programs with transactions are those of the service. -/
theorem BalanceService.flatten_ledgerBlock (svc : BalanceService) (call : LedgerCall) :
    flatten (svc.ledgerBlock call) = svc.body call := by
  have relocks (walletID : UUID) (asset : String) (change : svc.dec.Decimal → svc.dec.Decimal) :
      flatten (Block.transaction (.ofProgram (svc.relockTx walletID asset change))) =
        svc.relock walletID asset change := by
    show inTx (flatten (.ofProgram _)) >>= Program.done = _
    rw [flatten_ofProgram, Program.bind_done]
    rfl
  cases call with
  | confirmation ev =>
    show Program.call (S := calls) .newV7 _ = Program.call (S := calls) .newV7 _
    congr 1
    funext _
    show Program.call (S := calls) (.store _) _ = Program.call (S := calls) (.store _) _
    congr 1
    funext recorded
    cases recorded with
    | error err =>
      show flatten (if _ then _ else _) = if _ then _ else _
      split <;> rfl
    | ok _ =>
      show flatten (svc.creditBlock ev) = inTx (svc.creditTx ev) >>= _
      unfold creditBlock
      rw [flatten_transaction]
      congr 1
      funext outcome
      cases outcome with
      | error err => rfl
      | ok _ => exact flatten_ofProgram _
  | reorg ev =>
    show flatten (svc.reorgBlock ev) = inTx (svc.demoteTx ev) >>= _
    unfold reorgBlock
    rw [flatten_transaction]
    congr 1
    funext outcome
    cases outcome with
    | error err => rfl
    | ok _ => exact flatten_ofProgram _
  | addLocked walletID asset amount => exact relocks walletID asset _
  | releaseLocked walletID asset amount => exact relocks walletID asset _

/-! ## The store under the goroutines -/

/-- A method of the store acts as `memstore` computes. A collaborator may act on the other
tables. -/
def ledgerStep : Transition calls Store
  | .store op, s, answer, s' => ∃ now, answer = (op.exec now s).1 ∧ s' = (op.exec now s).2
  | _, s, _, s' => s'.balances = s.balances ∧ s'.balanceEvents = s.balanceEvents

/-- The accesses that the methods make compute what the methods are to compute. -/
def Implements {R : Signature} (impl : (op : Op) → Option (Program R op.Ans))
    (raw : Transition R Store) : Prop :=
  ∀ op s answer s', methodStep (S := calls) impl raw op s answer s' → ledgerStep op s answer s'

/-- The method that is read first in a transaction of a row. -/
theorem exec_getBalance {α : Type} {walletID : UUID} {asset : String}
    {next : Except Err Balance → Prog α} {s s' : Store} {value : α}
    (execution : (perform (.store (.getBalance walletID asset)) >>= next).Exec
      ledgerStep s value s') :
    (s.balances.get (balanceKey walletID asset) = none ∧
      (next (.error (Store.notFound "balance"))).Exec ledgerStep s value s') ∨
    ∃ cur, s.balances.get (balanceKey walletID asset) = some cur ∧
      (next (.ok cur)).Exec ledgerStep s value s' := by
  obtain ⟨_, _, ⟨now, rfl, here⟩, rest⟩ := execution
  rw [here] at rest
  cases found : s.balances.get (balanceKey walletID asset) with
  | none =>
    have missing : (StoreOp.exec (.getBalance walletID asset) now s).1 =
        .error (Store.notFound "balance") := by
      simp only [StoreOp.exec, Store.getBalance, found, Store.found]
    rw [missing] at rest
    exact .inl ⟨rfl, rest⟩
  | some cur =>
    have present : (StoreOp.exec (.getBalance walletID asset) now s).1 = .ok cur := by
      simp only [StoreOp.exec, Store.getBalance, found, Store.found]
    rw [present] at rest
    exact .inr ⟨cur, rfl, rest⟩

namespace BalanceService

variable {svc : BalanceService} {s s' : Store} {result : Except Err Unit}

/-- The transaction of an event writes the credited row. -/
theorem exec_creditTx {ev : ConfirmationEvent}
    (execution : (svc.creditTx ev).Exec ledgerStep s result s') :
    result = .ok () ∧ s'.balanceEvents = s.balanceEvents ∧ s'.balances =
      s.balances.put (svc.credited ev (s.currentBalance ev.walletID ev.asset)) := by
  have credits (cur : Balance) (current : s.currentBalance ev.walletID ev.asset = cur)
      (execution : (svc.credit ev cur).Exec ledgerStep s result s') :
      result = .ok () ∧ s'.balanceEvents = s.balanceEvents ∧ s'.balances =
        s.balances.put (svc.credited ev (s.currentBalance ev.walletID ev.asset)) := by
    rw [current]
    obtain ⟨answer, middle, ⟨_, rfl, rfl⟩, rest⟩ := execution
    cases audit : svc.audit with
    | false =>
      simp only [audit] at rest
      obtain ⟨rfl, rfl⟩ := rest
      exact ⟨rfl, rfl, rfl⟩
    | true =>
      simp only [audit] at rest
      obtain ⟨_, last, ⟨balances, events⟩, rfl, rfl⟩ := rest
      exact ⟨rfl, events, balances⟩
  rcases exec_getBalance execution with ⟨missing, rest⟩ | ⟨cur, found, rest⟩
  · exact credits _ (by rw [Store.currentBalance, missing, Option.getD_none]) rest
  · exact credits cur (Store.currentBalance_of_get found) rest

/-- The transaction of a reorganisation writes the demoted row, if there is a row. -/
theorem exec_demoteTx {ev : ReorgEvent}
    (execution : (svc.demoteTx ev).Exec ledgerStep s result s') :
    s' = s ∨ ∃ cur, s.balances.get (balanceKey ev.walletID ev.asset) = some cur ∧
      s' = s.upsertBalance (svc.demoted ev cur) := by
  rcases exec_getBalance execution with ⟨missing, rest⟩ | ⟨cur, found, rest⟩
  · obtain ⟨-, rfl⟩ := rest
    exact .inl rfl
  · obtain ⟨_, _, ⟨_, -, rfl⟩, -, rfl⟩ := rest
    exact .inr ⟨cur, found, rfl⟩

/-- The transaction of the locked amount writes a row with another locked amount, if there is a
row. -/
theorem exec_relockTx {walletID : UUID} {asset : String}
    {change : svc.dec.Decimal → svc.dec.Decimal}
    (execution : (svc.relockTx walletID asset change).Exec ledgerStep s result s') :
    s' = s ∨ ∃ cur locked, s.balances.get (balanceKey walletID asset) = some cur ∧
      s' = s.upsertBalance (svc.relocked walletID asset locked cur) := by
  rcases exec_getBalance execution with ⟨missing, rest⟩ | ⟨cur, found, rest⟩
  · obtain ⟨-, rfl⟩ := rest
    exact .inl rfl
  · obtain ⟨_, _, ⟨_, -, rfl⟩, -, rfl⟩ := rest
    exact .inr ⟨cur, _, found, rfl⟩

end BalanceService

/-! ## What is counted -/

/-- The events of a confirmation, none for the other entry points. -/
def LedgerCall.event? : LedgerCall → Option ConfirmationEvent
  | .confirmation ev => some ev
  | _ => none

/-- A number that the rows of a store stand for, to which a credit of an event adds a fixed share
and which the other entry points of some goroutines leave alone. -/
structure Meter (svc : BalanceService) {ι : Type} (call : ι → LedgerCall) where
  value : Store → ℚ
  share : ConfirmationEvent → ℚ
  /-- Only the rows matter. -/
  congr : ∀ {s s' : Store}, s'.balances = s.balances → value s' = value s
  credit : ∀ (ev : ConfirmationEvent) {s s' : Store},
    s'.balances = s.balances.put (svc.credited ev (s.currentBalance ev.walletID ev.asset)) →
      value s' = value s + share ev
  demote : ∀ (i : ι) (ev : ReorgEvent) (s : Store) (cur : Balance), call i = .reorg ev →
    s.balances.get (balanceKey ev.walletID ev.asset) = some cur →
      value (s.upsertBalance (svc.demoted ev cur)) = value s
  relock : ∀ (walletID : UUID) (asset : String) (locked : svc.dec.Decimal) (s : Store)
    (cur : Balance), s.balances.get (balanceKey walletID asset) = some cur →
      value (s.upsertBalance (svc.relocked walletID asset locked cur)) = value s

section Counting

variable {ι : Type} {svc : BalanceService} {call : ι → LedgerCall} {s s' : Store}

/-- What a goroutine leaves alone that neither records nor credits. -/
def Unmoved (svc : BalanceService) (call : ι → LedgerCall) (s s' : Store) : Prop :=
  s'.balanceEvents = s.balanceEvents ∧ ∀ meter : Meter svc call, meter.value s' = meter.value s

theorem Unmoved.of_rows (balances : s'.balances = s.balances)
    (events : s'.balanceEvents = s.balanceEvents) : Unmoved svc call s s' :=
  ⟨events, fun meter => meter.congr balances⟩

/-- A transaction that takes back what it did, or does not move what is counted. -/
theorem Unmoved.of_tx {fn : Prog (Except Err Unit)}
    (inside : ∀ s result s', fn.Exec ledgerStep s result s' → Unmoved svc call s s') (s : Store)
    (outcome : Except Err Unit) (s' : Store)
    (ran : AllOrNothing ledgerStep (.ofProgram fn) s outcome s') : Unmoved svc call s s' := by
  obtain ⟨last, execution, here⟩ := ran
  cases outcome with
  | error err => exact here ▸ .of_rows rfl rfl
  | ok _ => exact here ▸ inside s _ last (Block.exec_ofProgram.mp execution)

/-- The calls outside of the transactions of the service, other than the recording of an event. -/
def Op.aside : Op → Bool
  | .store (.restoreUTXOs _) | .emit _ | .onConfirmedDecrease _ _ => true
  | _ => false

theorem Op.aside_unmoved {op : Op} (aside : op.aside = true) (s : Store) (answer : op.Ans)
    (s' : Store) (moved : ledgerStep op s answer s') : Unmoved svc call s s' := by
  cases op with
  | store op =>
    cases op with
    | restoreUTXOs outpoints =>
      obtain ⟨now, -, rfl⟩ := moved
      exact .of_rows (s.restoreUTXOs_frame now outpoints).2.1 rfl
    | _ => cases aside
  | emit _ | onConfirmedDecrease _ _ => exact .of_rows moved.1 moved.2
  | _ => cases aside

/-- A block that neither records nor credits. -/
abbrev Quiet {α : Type} (svc : BalanceService) (call : ι → LedgerCall)
    (program : Block calls Err α) :
    Prop := program.Respects ledgerStep (Unmoved svc call)

/-- What follows the transactions is quiet. -/
theorem quiet_ofProgram {α : Type} {program : Prog α} (aside : program.Calls (Op.aside · = true)) :
    Quiet svc call (.ofProgram program) :=
  .ofProgram (aside.mono fun _ aside => Op.aside_unmoved aside)

/-- The entry points other than confirmations are quiet. -/
theorem quiet_ledgerBlock {i : ι} (other : (call i).event? = none) :
    Quiet svc call (svc.ledgerBlock (call i)) := by
  have relocks (walletID : UUID) (asset : String) (change : svc.dec.Decimal → svc.dec.Decimal) :
      Quiet svc call (Block.transaction (.ofProgram (svc.relockTx walletID asset change))) := by
    refine ⟨Unmoved.of_tx fun s result s' execution => ?_, fun _ => trivial⟩
    rcases BalanceService.exec_relockTx execution with rfl | ⟨cur, locked, found, rfl⟩
    · exact .of_rows rfl rfl
    · exact ⟨rfl, fun meter => meter.relock walletID asset locked s cur found⟩
  cases here : call i with
  | confirmation ev =>
    rw [here] at other
    cases other
  | reorg ev =>
    refine ⟨Unmoved.of_tx fun s result s' execution => ?_, fun outcome => ?_⟩
    · rcases BalanceService.exec_demoteTx execution with rfl | ⟨cur, found, rfl⟩
      · exact .of_rows rfl rfl
      · exact ⟨rfl, fun meter => meter.demote i ev s cur here found⟩
    · cases outcome with
      | error err => trivial
      | ok _ =>
        refine quiet_ofProgram (Program.Calls.bind ?_ fun restored => ?_)
        · unfold BalanceService.restoreReorged
          split
          · exact ⟨rfl, fun answer => by cases answer <;> trivial⟩
          · trivial
        · cases restored with
          | error err => trivial
          | ok _ =>
            exact Program.Calls.bind (runIf_calls _ ⟨rfl, fun _ => trivial⟩) fun _ => trivial
  | addLocked walletID asset amount => exact relocks walletID asset _
  | releaseLocked walletID asset amount => exact relocks walletID asset _

/-! ## One goroutine -/

/-- How far a goroutine has come with its event. -/
inductive Stage where
  /-- It has not tried to record it. -/
  | fresh
  /-- It has recorded it, and has still to credit it. -/
  | won
  /-- It has credited it. -/
  | counted
  /-- It has found it recorded, or has no event. -/
  | passed
  deriving DecidableEq

/-- What a goroutine at a stage has left to do. -/
def Stage.Left (svc : BalanceService) (call : ι → LedgerCall) (i : ι)
    (program : Block calls Err (Except Err Unit)) : Stage → Prop
  | .fresh => ∃ ev, (call i).event? = some ev ∧
      (program = svc.confirmationBlock ev ∨ program = svc.recordBlock ev)
  | .won => ∃ ev, (call i).event? = some ev ∧ program = svc.creditBlock ev
  | .counted => (∃ ev, (call i).event? = some ev) ∧ Quiet svc call program
  | .passed => Quiet svc call program

/-- How a goroutine moves from one stage to another, and what it does to the store. -/
inductive Stage.Goes (svc : BalanceService) (call : ι → LedgerCall) (i : ι) (s s' : Store) :
    Stage → Stage → Prop where
  | stays {stage : Stage} (unmoved : Unmoved svc call s s') : Goes svc call i s s' stage stage
  | wins {ev : ConfirmationEvent} (own : (call i).event? = some ev) (new : ev.key ∉ s.balanceEvents)
    (events : s'.balanceEvents = insert ev.key s.balanceEvents)
    (balances : s'.balances = s.balances) : Goes svc call i s s' .fresh .won
  | passes {ev : ConfirmationEvent} (own : (call i).event? = some ev)
    (known : ev.key ∈ s.balanceEvents) (same : s' = s) : Goes svc call i s s' .fresh .passed
  | counts {ev : ConfirmationEvent} (own : (call i).event? = some ev)
    (events : s'.balanceEvents = s.balanceEvents)
    (balances : s'.balances =
      s.balances.put (svc.credited ev (s.currentBalance ev.walletID ev.asset))) :
    Goes svc call i s s' .won .counted

/-- The step of a goroutine. -/
theorem Stage.Left.moves {i : ι} {stage : Stage}
    {program program' : Block calls Err (Except Err Unit)}
    (left : stage.Left svc call i program) (moves : program.Moves ledgerStep s program' s') :
    ∃ stage' : Stage, stage.Goes svc call i s s' stage' ∧ stage'.Left svc call i program' := by
  cases stage with
  | fresh =>
    obtain ⟨ev, own, rfl | rfl⟩ := left
    · obtain ⟨moved⟩ := moves
      exact ⟨.fresh, .stays (.of_rows moved.1 moved.2), ev, own, .inr rfl⟩
    · obtain ⟨moved⟩ := moves
      obtain ⟨now, rfl, rfl⟩ := moved
      by_cases known : ev.key ∈ s.balanceEvents
      · have found : StoreOp.exec (.recordBalanceEvent ev.recorded) now s =
            (.error ⟨"duplicate balance event", some .errDuplicateEvent⟩, s) := if_pos known
        rw [found]
        exact ⟨.passed, .passes own known rfl, trivial⟩
      · have recorded : StoreOp.exec (.recordBalanceEvent ev.recorded) now s =
            (.ok (), s.withEvent ev) := if_neg known
        rw [recorded]
        exact ⟨.won, .wins own known rfl rfl, ev, own, rfl⟩
  | won =>
    obtain ⟨ev, own, rfl⟩ := left
    cases moves with
    | @inTx β body next outcome s s' ran =>
      obtain ⟨last, execution, here⟩ := ran
      obtain ⟨rfl, events, balances⟩ :=
        BalanceService.exec_creditTx (Block.exec_ofProgram.mp execution)
      subst here
      refine ⟨.counted, .counts own events balances, ⟨ev, own⟩, quiet_ofProgram ?_⟩
      exact Program.Calls.bind (runIf_calls _ ⟨rfl, fun _ => trivial⟩) fun _ => trivial
  | counted =>
    obtain ⟨unmoved, quiet⟩ := left.2.moves moves
    exact ⟨.counted, .stays unmoved, left.1, quiet⟩
  | passed =>
    obtain ⟨unmoved, quiet⟩ := Block.Respects.moves left moves
    exact ⟨.passed, .stays unmoved, quiet⟩

/-! ## All goroutines -/

/-- The goroutine has recorded its event. -/
def Stage.claims : Stage → Bool
  | .won | .counted => true
  | _ => false

/-- The event of a goroutine under its deduplication key. -/
def LedgerCall.key? (call : LedgerCall) : Option String := call.event?.map ConfirmationEvent.key

/-- What a goroutine has added. -/
def Meter.added (meter : Meter svc call) (stage : Stage) (i : ι) : ℚ :=
  if stage = .counted then (call i).event?.elim 0 meter.share else 0

variable [Fintype ι]

/-- The stages of the goroutines, and what the store holds on account of them. -/
structure Tally (svc : BalanceService) (call : ι → LedgerCall) (start : Store) (stage : ι → Stage)
    (s : Store) : Prop where
  /-- The recorded events are the ones of the start and the claimed ones. -/
  recorded : ∀ key, key ∈ s.balanceEvents ↔
    key ∈ start.balanceEvents ∨ ∃ i, (stage i).claims = true ∧ (call i).key? = some key
  /-- The claimed events are new. -/
  new : ∀ i key, (stage i).claims = true → (call i).key? = some key → key ∉ start.balanceEvents
  /-- No event is claimed twice. -/
  once : ∀ i j key, (stage i).claims = true → (call i).key? = some key →
    (stage j).claims = true → (call j).key? = some key → i = j
  /-- A goroutine passes only if its event is recorded. -/
  passed : ∀ i key, stage i = .passed → (call i).key? = some key → key ∈ s.balanceEvents
  /-- The counted events are in the rows. -/
  counted : ∀ meter : Meter svc call,
    meter.value s = meter.value start + ∑ i, meter.added (stage i) i

namespace Tally

variable {start : Store} {stage : ι → Stage}

/-- At the start nothing is claimed. -/
theorem initial (unclaimed : ∀ i, (stage i).claims = false)
    (passed : ∀ i, stage i = .passed → (call i).key? = none) :
    Tally svc call start stage start where
  recorded key := by simp [unclaimed]
  new i key claimed := by simp [unclaimed] at claimed
  once i j key claimed := by simp [unclaimed] at claimed
  passed i key here own := by
    rw [passed i here] at own
    cases own
  counted meter := by
    have nothing (i : ι) : meter.added (stage i) i = 0 := by
      refine if_neg fun here => ?_
      have claimed := unclaimed i
      rw [here] at claimed
      cases claimed
    simp [nothing]

variable [DecidableEq ι]

/-- The sum when one goroutine moves on. -/
theorem sum_update (meter : Meter svc call) (i : ι) (stage' : Stage) :
    ∑ j, meter.added (Function.update stage i stage' j) j =
      ∑ j, meter.added (stage j) j - meter.added (stage i) i + meter.added stage' i := by
  rw [← Finset.add_sum_erase _ _ (Finset.mem_univ i),
    ← Finset.add_sum_erase _ _ (Finset.mem_univ i),
    Function.update_self]
  have others : ∑ j ∈ Finset.univ.erase i, meter.added (Function.update stage i stage' j) j =
      ∑ j ∈ Finset.univ.erase i, meter.added (stage j) j :=
    Finset.sum_congr rfl fun j member => by
      rw [Function.update_of_ne (Finset.ne_of_mem_erase member)]
  rw [others]
  ring

/-- A goroutine records its event. -/
theorem wins (tally : Tally svc call start stage s) {i : ι} {ev : ConfirmationEvent}
    (here : stage i = .fresh) (own : (call i).key? = some ev.key) (new : ev.key ∉ s.balanceEvents)
    (events : s'.balanceEvents = insert ev.key s.balanceEvents)
    (balances : s'.balances = s.balances) :
    Tally svc call start (Function.update stage i .won) s' := by
  have claims (j : ι) : (Function.update stage i .won j).claims = true ↔
      j = i ∨ (stage j).claims = true := by
    rw [Function.update_apply]
    split <;> simp_all [Stage.claims]
  have unclaimed (j : ι) (claimed : (stage j).claims = true) : (call j).key? ≠ some ev.key :=
    fun same => new ((tally.recorded _).mpr (.inr ⟨j, claimed, same⟩))
  constructor
  · intro key
    rw [events, Finset.mem_insert, tally.recorded]
    simp only [claims]
    constructor
    · rintro (rfl | old | ⟨j, claimed, same⟩)
      · exact .inr ⟨i, .inl rfl, own⟩
      · exact .inl old
      · exact .inr ⟨j, .inr claimed, same⟩
    · rintro (old | ⟨j, rfl | claimed, same⟩)
      · exact .inr (.inl old)
      · exact .inl (Option.some.inj (same.symm.trans own))
      · exact .inr (.inr ⟨j, claimed, same⟩)
  · intro j key claimed same
    rcases (claims j).mp claimed with rfl | claimed
    · have key_eq := Option.some.inj (same.symm.trans own)
      exact fun old => new ((tally.recorded _).mpr (.inl (key_eq ▸ old)))
    · exact tally.new j key claimed same
  · intro j k key claimed same claimed' same'
    rcases (claims j).mp claimed with rfl | before <;>
      rcases (claims k).mp claimed' with rfl | before'
    · rfl
    · exact absurd (same'.trans (same.symm.trans own)) (unclaimed k before')
    · exact absurd (same.trans (same'.symm.trans own)) (unclaimed j before)
    · exact tally.once j k key before same before' same'
  · intro j key stays same
    have other : j ≠ i := by
      rintro rfl
      rw [Function.update_self] at stays
      cases stays
    rw [Function.update_of_ne other] at stays
    rw [events]
    exact Finset.mem_insert_of_mem (tally.passed j key stays same)
  · intro meter
    rw [sum_update, here, meter.congr balances, tally.counted meter]
    simp [Meter.added]

/-- The stages change without a claim. -/
theorem reclassified (tally : Tally svc call start stage s) {i : ι} {stage' : Stage}
    (claims : stage'.claims = (stage i).claims) (events : s'.balanceEvents = s.balanceEvents)
    (passed : ∀ key, stage' = .passed → (call i).key? = some key → key ∈ s.balanceEvents)
    (value : ∀ meter : Meter svc call, meter.value s' =
      meter.value s - meter.added (stage i) i + meter.added stage' i) :
    Tally svc call start (Function.update stage i stage') s' := by
  have same (j : ι) : (Function.update stage i stage' j).claims = (stage j).claims := by
    by_cases own : j = i
    · rw [own, Function.update_self, claims]
    · rw [Function.update_of_ne own]
  constructor
  · simp only [same, events]
    exact tally.recorded
  · simp only [same]
    exact tally.new
  · simp only [same]
    exact tally.once
  · intro j key stays own
    rw [events]
    by_cases here : j = i
    · subst here
      rw [Function.update_self] at stays
      exact passed key stays own
    · rw [Function.update_of_ne here] at stays
      exact tally.passed j key stays own
  · intro meter
    rw [sum_update, value meter, tally.counted meter]
    ring

/-- The step of a goroutine. -/
theorem goes (tally : Tally svc call start stage s) {i : ι} {stage' : Stage}
    (goes : (stage i).Goes svc call i s s' stage') :
    Tally svc call start (Function.update stage i stage') s' := by
  generalize here : stage i = before at goes
  cases goes with
  | stays unmoved =>
    refine tally.reclassified (by rw [here]) unmoved.1 (fun key stays own => ?_) fun meter => ?_
    · exact tally.passed i key (here.trans stays) own
    · rw [unmoved.2 meter, here]
      ring
  | wins own new events balances =>
    exact tally.wins here (by rw [LedgerCall.key?, own]; rfl) new events balances
  | passes own known same =>
    subst same
    refine tally.reclassified (by rw [here]; rfl) rfl (fun key _ same => ?_) fun meter => ?_
    · rw [LedgerCall.key?, own] at same
      exact Option.some.inj same ▸ known
    · rw [here]
      simp [Meter.added]
  | counts own events balances =>
    refine tally.reclassified (by rw [here]; rfl) events (fun key stays => by cases stays)
      fun meter => ?_
    rw [meter.credit _ balances, here]
    simp [Meter.added, own]

end Tally

/-- After every serial schedule each goroutine is at a stage, and the store holds what the
goroutines have added. -/
theorem Tally.of_reachable [DecidableEq ι] {start : Store}
    {serial : Serial calls Err Store ι (Except Err Unit)}
    (reached : Serial.Reachable ledgerStep ⟨start, fun i => svc.ledgerBlock (call i)⟩ serial) :
    ∃ stage : ι → Stage, Tally svc call start stage serial.state ∧
      ∀ i, (stage i).Left svc call i (serial.rest i) := by
  induction reached with
  | refl =>
    refine ⟨fun i => if (call i).event? = none then .passed else .fresh,
      .initial (fun i => ?_) (fun i here => ?_), fun i => ?_⟩
    · split <;> rfl
    · by_cases other : (call i).event? = none
      · rw [LedgerCall.key?, other]
        rfl
      · rw [if_neg other] at here
        cases here
    · show Stage.Left svc call i (svc.ledgerBlock (call i)) (if _ then _ else _)
      by_cases other : (call i).event? = none
      · rw [if_pos other]
        exact quiet_ledgerBlock other
      · rw [if_neg other]
        cases here : call i with
        | confirmation ev => exact ⟨ev, by rw [here]; rfl, .inl rfl⟩
        | _ => exact absurd (by rw [here]; rfl) other
  | @tail before after _ stepped ih =>
    obtain ⟨stage, tally, left⟩ := ih
    obtain @⟨i, program, s', moves⟩ := stepped
    obtain ⟨stage', goes, left'⟩ := (left i).moves moves
    refine ⟨Function.update stage i stage', tally.goes goes, fun j => ?_⟩
    by_cases same : j = i
    · subst same
      rw [Function.update_self]
      show stage'.Left svc call j (Function.update before.rest j program j)
      rw [Function.update_self]
      exact left'
    · rw [Function.update_of_ne same]
      show (stage j).Left svc call j (Function.update before.rest i program j)
      rw [Function.update_of_ne same]
      exact left j

/-! ## Columns of a row -/

/-- A column of a row, when a credit of an event to the row adds a share and the other entry points
leave it alone. -/
def Meter.ofRow (walletID : UUID) (asset : String) (column : Balance → ℚ)
    (share : ConfirmationEvent → ℚ)
    (credit : ∀ ev cur, column (svc.credited ev cur) = column cur + share ev)
    (demote : ∀ i ev cur, call i = .reorg ev → ev.walletID = walletID ∧ ev.asset = asset →
      column (svc.demoted ev cur) = column cur)
    (relock : ∀ locked cur, column (svc.relocked walletID asset locked cur) = column cur) :
    Meter svc call where
  value s := column (s.currentBalance walletID asset)
  share ev := if ev.isOf walletID asset then share ev else 0
  congr same := by rw [Store.currentBalance, same, Store.currentBalance]
  credit ev s s' balances := by
    rw [Store.currentBalance_put balances]
    by_cases own : ev.walletID = walletID ∧ ev.asset = asset
    · rw [if_pos (ConfirmationEvent.isOf_iff.mpr own)]
      obtain ⟨rfl, rfl⟩ := own
      exact (congrArg column (if_pos ⟨rfl, rfl⟩)).trans (credit ev _)
    · rw [if_neg fun of => own (ConfirmationEvent.isOf_iff.mp of), add_zero]
      exact congrArg column (if_neg own)
  demote i ev s cur here found := by
    rw [Store.currentBalance_put rfl]
    by_cases own : ev.walletID = walletID ∧ ev.asset = asset
    · refine (congrArg column (if_pos own)).trans ((demote i ev cur here own).trans ?_)
      obtain ⟨rfl, rfl⟩ := own
      rw [Store.currentBalance_of_get found]
    · exact congrArg column (if_neg own)
  relock walletID' asset' locked s cur found := by
    rw [Store.currentBalance_put rfl]
    by_cases own : walletID' = walletID ∧ asset' = asset
    · obtain ⟨rfl, rfl⟩ := own
      refine (congrArg column (if_pos ⟨rfl, rfl⟩)).trans ((relock locked cur).trans ?_)
      rw [Store.currentBalance_of_get found]
    · exact congrArg column (if_neg own)

/-- The confirmed and the pending amount of a row together. -/
def Meter.total (lawful : svc.dec.Lawful) (call : ι → LedgerCall) (walletID : UUID)
    (asset : String) : Meter svc call :=
  .ofRow walletID asset
    (fun row => svc.dec.amount row.confirmed + svc.dec.amount row.pending)
    (fun ev => svc.dec.amount ev.amount)
    (fun ev cur => by
      rw [Books.credited_confirmed lawful, Books.credited_pending lawful]
      split <;> ring)
    (fun i ev cur _ _ => by
      have confirmed : svc.dec.amount (svc.demoted ev cur).confirmed = 0 :=
        (lawful.amount_formatDec _).trans lawful.value_zero
      have pending : svc.dec.amount (svc.demoted ev cur).pending =
          svc.dec.amount cur.pending + svc.dec.amount cur.confirmed :=
        (lawful.amount_formatDec _).trans (lawful.value_add _ _)
      rw [confirmed, pending]
      ring)
    fun _ _ => rfl

/-- The confirmed amount of a row that no goroutine reorganises. -/
def Meter.confirmed (lawful : svc.dec.Lawful) (call : ι → LedgerCall) (walletID : UUID)
    (asset : String)
    (kept : ∀ i ev, call i = .reorg ev → ¬(ev.walletID = walletID ∧ ev.asset = asset)) :
    Meter svc call :=
  .ofRow walletID asset (fun row => svc.dec.amount row.confirmed)
    (fun ev => if svc.isConfirmed ev then svc.dec.amount ev.amount else 0)
    (fun ev cur => Books.credited_confirmed lawful ev cur)
    (fun i ev _ here own => absurd own (kept i ev here)) fun _ _ => rfl

/-! ## The balances after all goroutines -/

/-- A set of goroutines that has every new event once, and nothing else. -/
structure EachOnce (call : ι → LedgerCall) (start : Store) (counted : Finset ι) : Prop where
  new : ∀ i ∈ counted, ∃ key, (call i).key? = some key ∧ key ∉ start.balanceEvents
  once : ∀ i key, (call i).key? = some key → key ∉ start.balanceEvents →
    ∃! j, j ∈ counted ∧ (call j).key? = some key

/-- What a goroutine deposits to a row, of a part of the events. -/
def LedgerCall.deposited (svc : BalanceService) (test : ConfirmationEvent → Bool) (walletID : UUID)
    (asset : String) (call : LedgerCall) : ℚ :=
  call.event?.elim 0 fun ev =>
    if ev.isOf walletID asset && test ev then svc.dec.amount ev.amount else 0

/-- When every goroutine has ended, the counted ones have every new event once, and they are what
every meter has gained. -/
theorem Tally.of_finished [DecidableEq ι] {start : Store} {value : ι → Except Err Unit}
    (reached : Serial.Reachable ledgerStep ⟨start, fun i => svc.ledgerBlock (call i)⟩
      ⟨s, fun i => .done (value i)⟩) :
    ∃ counted : Finset ι, EachOnce call start counted ∧ ∀ meter : Meter svc call,
      meter.value s = meter.value start + ∑ i ∈ counted, (call i).event?.elim 0 meter.share := by
  obtain ⟨stage, tally, left⟩ := Tally.of_reachable reached
  have ended (i : ι) : stage i = .counted ∨ stage i = .passed := by
    have left := left i
    cases here : stage i with
    | fresh =>
      rw [here] at left
      obtain ⟨ev, -, same | same⟩ := left <;> cases same
    | won =>
      rw [here] at left
      obtain ⟨ev, -, same⟩ := left
      cases same
    | counted => exact .inl rfl
    | passed => exact .inr rfl
  have claims (i : ι) : (stage i).claims = true ↔ stage i = .counted := by
    rcases ended i with here | here <;> rw [here] <;> decide
  refine ⟨Finset.univ.filter (stage · = .counted), ⟨fun i member => ?_, fun i key own new => ?_⟩,
    fun meter => ?_⟩
  · have here := (Finset.mem_filter.mp member).2
    have left := left i
    rw [here] at left
    obtain ⟨⟨ev, own⟩, -⟩ := left
    have own : (call i).key? = some ev.key := by rw [LedgerCall.key?, own]; rfl
    exact ⟨ev.key, own, tally.new i ev.key ((claims i).mpr here) own⟩
  · -- A goroutine that has not counted its event has found it recorded by another one.
    have recorded : key ∈ s.balanceEvents := by
      rcases ended i with here | here
      · exact (tally.recorded key).mpr (.inr ⟨i, (claims i).mpr here, own⟩)
      · exact tally.passed i key here own
    obtain ⟨j, claimed, same⟩ := ((tally.recorded key).mp recorded).resolve_left new
    refine ⟨j, ⟨Finset.mem_filter.mpr ⟨Finset.mem_univ j, (claims j).mp claimed⟩, same⟩, ?_⟩
    rintro k ⟨member, same'⟩
    exact tally.once k j key ((claims k).mpr (Finset.mem_filter.mp member).2) same' claimed same
  · rw [tally.counted meter, Finset.sum_filter]
    rfl

end Counting

/-- No deposit is lost and none is counted twice: when any number of goroutines have run
confirmations, reorganisations and changes of locked amounts in any interleaving, some set of them
has every event once that was not recorded before, and every row has gained exactly what this set
deposits. The confirmed amount by itself has gained the confirmed deposits if no goroutine
reorganised the row. -/
theorem concurrent_deposits_exact {ι : Type} [Fintype ι] [DecidableEq ι] {R : Signature}
    (svc : BalanceService) (lawful : svc.dec.Lawful)
    (impl : (op : Op) → Option (Program R op.Ans)) (raw : Transition R Store)
    (implements : Implements impl raw) (call : ι → LedgerCall) (start : Store)
    {crew : Crew (mutexCalls calls R Store) (MutexState Store ι) ι (Except Err Unit)}
    (interleaves : Interleaves impl raw (fun i => svc.ledgerBlock (call i)) start crew)
    (finished : ∀ i, crew.Finished i) :
    ∃ counted : Finset ι, EachOnce call start counted ∧ ∀ walletID asset,
      let before := start.currentBalance walletID asset
      let after := crew.state.tables.currentBalance walletID asset
      svc.dec.amount after.confirmed + svc.dec.amount after.pending =
          svc.dec.amount before.confirmed + svc.dec.amount before.pending +
            ∑ i ∈ counted, (call i).deposited svc (fun _ => true) walletID asset ∧
      ((∀ i ev, call i = .reorg ev → ¬(ev.walletID = walletID ∧ ev.asset = asset)) →
        svc.dec.amount after.confirmed = svc.dec.amount before.confirmed +
          ∑ i ∈ counted, (call i).deposited svc svc.isConfirmed walletID asset) := by
  have returned (i : ι) : ∃ value, crew.Returned i value := by
    have ended := finished i
    cases rest : crew.rest i with
    | done value => exact ⟨value, rest⟩
    | call op next => simp [Crew.Finished, rest, Program.isDone] at ended
  choose value returned using returned
  obtain ⟨counted, each, gained⟩ :=
    Tally.of_finished ((interleaves.finished returned).mono implements)
  refine ⟨counted, each, fun walletID asset => ⟨?_, fun kept => ?_⟩⟩
  · refine (gained (.total lawful call walletID asset)).trans ?_
    congr 1
    refine Finset.sum_congr rfl fun i _ => ?_
    unfold LedgerCall.deposited
    congr 1
    funext ev
    show (if _ then _ else _) = if _ && true then _ else _
    rw [Bool.and_true]
  · refine (gained (.confirmed lawful call walletID asset kept)).trans ?_
    congr 1
    refine Finset.sum_congr rfl fun i _ => ?_
    unfold LedgerCall.deposited
    congr 1
    funext ev
    show (if _ then (if _ then _ else _) else _) = _
    cases ev.isOf walletID asset <;> rfl

/-! ## Two deliveries of one event -/

/-- Every method of the store is one access, and the collaborators leave the store alone. -/
def wholeStore : (op : Op) → Option (Program storeCalls op.Ans)
  | .store op => some (Program.perform (S := storeCalls) op)
  | _ => none

theorem wholeStore_implements : Implements wholeStore (computed (R := storeCalls) execAtZero) := by
  intro op s answer s' moved
  cases op with
  | store op =>
    obtain ⟨_, _, ⟨rfl, rfl⟩, rfl, rfl⟩ := moved
    exact ⟨0, rfl, rfl⟩
  | _ =>
    obtain rfl : s' = s := moved
    exact ⟨rfl, rfl⟩

/-- Collaborators that answer without an error. -/
def plainReply (op : Op) : op.Ans := (({} : Script).handle () op { store := {} }).1

/-- Two goroutines apply the same deposit. -/
def sampleDeliveries (_ : Bool) : LedgerCall := .confirmation (sampleDeposit 12)

/-- Both make a new identifier; the first one records the event, the second one finds it recorded
and returns while the first one is still on its way to the transaction. -/
def sampleDeliveryTurns : List Bool :=
  [false, true] ++ List.replicate 6 false ++ List.replicate 6 true ++ List.replicate 20 false

/-- The goroutines after these turns. -/
def sampleDelivered :
    Crew (mutexCalls calls storeCalls Store) (MutexState Store Bool) Bool (Except Err Unit) :=
  (launched wholeStore (fun i => sampleLedger.ledgerBlock (sampleDeliveries i)) {}).play
    (mutexTurns (R := storeCalls) execAtZero plainReply sampleDeliveryTurns)

/-- One of the two deliveries is counted, and the row holds its amount as confirmed. -/
theorem concurrent_deposits_exact_twice :
    (∀ i, sampleDelivered.Finished i) ∧
    ∃ counted : Finset Bool, EachOnce sampleDeliveries {} counted ∧
      sampleLedger.dec.amount (sampleDelivered.state.tables.currentBalance
        ⟨Vector.replicate 16 0⟩ "BTC").confirmed = ∑ i ∈ counted,
          (sampleDeliveries i).deposited sampleLedger sampleLedger.isConfirmed
            ⟨Vector.replicate 16 0⟩ "BTC" := by
  have finished : ∀ i, sampleDelivered.Finished i := by decide +kernel
  have interleaves : Interleaves wholeStore (computed (R := storeCalls) execAtZero)
      (fun i => sampleLedger.ledgerBlock (sampleDeliveries i)) {} sampleDelivered :=
    interleaves_play (by decide +kernel)
  obtain ⟨counted, each, gained⟩ := concurrent_deposits_exact sampleLedger integerDecimals_lawful
    wholeStore (computed (R := storeCalls) execAtZero) wholeStore_implements sampleDeliveries {}
    interleaves finished
  refine ⟨finished, counted, each, ?_⟩
  have confirmed := (gained ⟨Vector.replicate 16 0⟩ "BTC").2 fun i ev here => by cases here
  have nothing : sampleLedger.dec.amount
      (({} : Store).currentBalance ⟨Vector.replicate 16 0⟩ "BTC").confirmed = 0 :=
    integerDecimals_lawful.amount_empty
  rw [nothing] at confirmed
  exact confirmed.trans (zero_add _)

end WalletManagement
