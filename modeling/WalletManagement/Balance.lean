import WalletManagement.System
import Mathlib.Data.Rat.Cast.Defs

/-!
# The balance service

`internal/balance` as programs over the calls of `System`. The service keeps amounts as decimal
text and reads and writes them with a decimal package; what the package computes is a parameter,
with the laws of exact decimal arithmetic as a predicate of it.
-/

namespace WalletManagement

open Interaction

/-! ## Decimals -/

/-- The functions of `shopspring/decimal` that the service calls. -/
structure Decimals where
  /-- `decimal.Decimal`. -/
  Decimal : Type
  /-- `decimal.Zero`. -/
  zero : Decimal
  /-- `Decimal.Add`. -/
  add : Decimal → Decimal → Decimal
  /-- `Decimal.Sub`. -/
  sub : Decimal → Decimal → Decimal
  /-- `Decimal.IsNegative`. -/
  isNegative : Decimal → Bool
  /-- `decimal.NewFromString`, or none when it returns an error. -/
  newFromString : String → Option Decimal
  /-- `Decimal.String`. -/
  string : Decimal → String
  /-- The number a decimal stands for. -/
  value : Decimal → ℚ

/-- Decimals are exact, and their text reads back as the same number. -/
structure Decimals.Lawful (dec : Decimals) : Prop where
  /-- Zero is zero. -/
  value_zero : dec.value dec.zero = 0
  /-- Addition is exact. -/
  value_add : ∀ x y, dec.value (dec.add x y) = dec.value x + dec.value y
  /-- Parsing undoes formatting. -/
  parse_string : ∀ x, ∃ y, dec.newFromString (dec.string x) = some y ∧ dec.value y = dec.value x
  /-- No number is written as the empty text. -/
  string_nonempty : ∀ x, dec.string x ≠ ""

/-- `parseDec`. -/
def Decimals.parseDec (dec : Decimals) (s : String) : dec.Decimal :=
  if s = "" then dec.zero else (dec.newFromString s).getD dec.zero

/-- `formatDec`. -/
def Decimals.formatDec (dec : Decimals) (n : dec.Decimal) : String := dec.string n

/-- The number that a stored amount stands for. -/
def Decimals.amount (dec : Decimals) (s : String) : ℚ := dec.value (dec.parseDec s)

/-- The empty amount of a fresh row is zero. -/
theorem Decimals.Lawful.amount_empty {dec : Decimals} (lawful : dec.Lawful) : dec.amount "" = 0 :=
  lawful.value_zero

/-- A written amount stands for the number that was written. -/
theorem Decimals.Lawful.amount_formatDec {dec : Decimals} (lawful : dec.Lawful) (n : dec.Decimal) :
    dec.amount (dec.formatDec n) = dec.value n := by
  obtain ⟨read, parsed, same⟩ := lawful.parse_string n
  rw [Decimals.amount, Decimals.formatDec, Decimals.parseDec, if_neg (lawful.string_nonempty n),
    parsed, Option.getD_some, same]

/-- The decimal package on the texts of integers. -/
def integerDecimals : Decimals where
  Decimal := Int
  zero := 0
  add := Int.add
  sub := Int.sub
  isNegative n := decide (n < 0)
  newFromString := Go.bigSetString
  string := Int.repr
  value n := (n : ℚ)

/-- Integers are exact decimals. -/
theorem integerDecimals_lawful : integerDecimals.Lawful where
  value_zero := Int.cast_zero
  value_add := Int.cast_add
  parse_string n := ⟨n, Go.bigSetString_repr n, rfl⟩
  string_nonempty n same := by
    have read := Go.bigSetString_repr n
    rw [show n.repr = "" from same] at read
    cases read

/-! ## Events -/

/-- `balance.ConfirmationEvent`. -/
structure ConfirmationEvent where
  walletID : UUID
  asset : String
  amount : String
  confirmations : Int
  blockHeight : Int
  eventID : String
  isFinalized : Bool
  chain : Chain
  deriving DecidableEq

/-- What `ApplyConfirmationEvent` records of an event. -/
def ConfirmationEvent.recorded (ev : ConfirmationEvent) : BalanceEvent :=
  ⟨ev.walletID, ev.asset, ev.blockHeight, ev.eventID⟩

/-- `balance.ReorgEvent`. -/
structure ReorgEvent where
  walletID : UUID
  asset : String
  blockHeight : Int
  eventID : String
  outpoints : List String
  deriving DecidableEq

/-! ## The service -/

/-- `balance.Service`: what the service is constructed with. -/
structure BalanceService where
  /-- The decimal package. -/
  dec : Decimals
  /-- `Config.ConfirmationsBTC`. -/
  confirmationsBTC : Int := 6
  /-- `Config.ConfirmationsEVM`. -/
  confirmationsEVM : Int := 12
  /-- `Audit` is not nil. -/
  audit : Bool := true
  /-- `UTXORestore` is not nil; it is `utxo.Service.RestoreOnReorg`. -/
  utxoRestore : Bool := true
  /-- `OnConfirmedDecrease` is not nil. -/
  onConfirmedDecrease : Bool := true

/-- `max64`. -/
def max64 (a b : Int) : Int := if b < a then a else b

/-- `Store.InTx`: the function runs between the start of a transaction and its end. -/
def inTx {α : Type} (fn : Prog (Except Err α)) : Prog (Except Err α) := do
  match ← perform .begin with
  | .error err => pure (.error err)
  | .ok () =>
    match ← fn with
    | .error err =>
      perform .rollback
      pure (.error err)
    | .ok value =>
      match ← perform .commit with
      | .error err => pure (.error err)
      | .ok () => pure (.ok value)

/-- A transaction over `memstore` whose function never returns an error ends as the function
does. -/
theorem inTx_wlp {L : Type} {caller : L} {fn : Prog (Except Err Unit)} {w : World L}
    {post : Store → Prop} (body : ∀ w₁ : World L, w₁.store = w.store →
      fn.Wlp (step caller) (fun result w' => result = .ok () ∧ post w'.store) w₁) :
    (inTx fn).Wlp (step caller) (fun result w' => result = .ok () ∧ post w'.store) w := by
  rintro answer w₁ ⟨rfl, rfl⟩
  change (fn >>= fun _ => _).Wlp _ _ _
  refine (body (w.record caller .begin (.ok ())).beginTx rfl).bind fun result w₂ here => ?_
  obtain ⟨rfl, there⟩ := here
  rintro answer w₃ ⟨rfl, rfl⟩
  exact ⟨rfl, there⟩

namespace BalanceService

variable (svc : BalanceService)

/-- `threshold`. -/
def threshold (chain : Chain) : Int :=
  if chain = .bitcoin then svc.confirmationsBTC
  else if chain = .solana then 1
  -- EVM chains and unknown chains
  else svc.confirmationsEVM

/-- `isConfirmed`. -/
def isConfirmed (ev : ConfirmationEvent) : Bool :=
  if ev.chain = .solana then ev.isFinalized else svc.threshold ev.chain ≤ ev.confirmations

/-- The confirmed amount that `ApplyConfirmationEvent` computes from a row. -/
def confirmedAfter (ev : ConfirmationEvent) (cur : Balance) : svc.dec.Decimal :=
  let confirmed := svc.dec.parseDec cur.confirmed
  if svc.isConfirmed ev then svc.dec.add confirmed (svc.dec.parseDec ev.amount) else confirmed

/-- The pending amount that `ApplyConfirmationEvent` computes from a row. -/
def pendingAfter (ev : ConfirmationEvent) (cur : Balance) : svc.dec.Decimal :=
  let pending := svc.dec.parseDec cur.pending
  if svc.isConfirmed ev then pending else svc.dec.add pending (svc.dec.parseDec ev.amount)

/-- The row that `ApplyConfirmationEvent` writes over a row. -/
def credited (ev : ConfirmationEvent) (cur : Balance) : Balance :=
  { walletID := ev.walletID
    asset := ev.asset
    confirmed := svc.dec.formatDec (svc.confirmedAfter ev cur)
    pending := svc.dec.formatDec (svc.pendingAfter ev cur)
    locked := cur.locked
    lastBlockSeen := max64 cur.lastBlockSeen ev.blockHeight }

/-- Write the row of an event and emit it. -/
def credit (ev : ConfirmationEvent) (cur : Balance) : Prog (Except Err Unit) := do
  match ← perform (.store (.upsertBalance (svc.credited ev cur))) with
  | .error err => pure (.error err)
  | .ok () =>
    runIf svc.audit (perform (.emit ⟨"wallet.balance.updated", some ev.walletID,
      [("asset", .text ev.asset), ("confirmed", .text (svc.credited ev cur).confirmed),
        ("pending", .text (svc.credited ev cur).pending), ("block_height", .number ev.blockHeight),
        ("confirmations", .number ev.confirmations)]⟩))
    pure (.ok ())

/-- The function that `ApplyConfirmationEvent` passes to `InTx`. A missing row is a fresh one. -/
def creditTx (ev : ConfirmationEvent) : Prog (Except Err Unit) := do
  match ← perform (.store (.getBalance ev.walletID ev.asset)) with
  | .error err =>
    if err.is .errNoRows then svc.credit ev { walletID := ev.walletID, asset := ev.asset }
    else pure (.error err)
  | .ok cur => svc.credit ev cur

/-- `ApplyConfirmationEvent`. -/
def applyConfirmationEvent (ev : ConfirmationEvent) : Prog (Except Err Unit) := do
  let _ ← perform .newV7
  match ← perform (.store (.recordBalanceEvent ev.recorded)) with
  | .error err => if err.is .errDuplicateEvent then pure (.ok ()) else pure (.error err)
  | .ok () =>
    match ← inTx (svc.creditTx ev) with
    | .error err => pure (.error err)
    | .ok () =>
      let decrease := svc.isConfirmed ev && svc.dec.isNegative (svc.dec.parseDec ev.amount)
      runIf (svc.onConfirmedDecrease && decrease)
        (perform (.onConfirmedDecrease ev.walletID ev.asset))
      pure (.ok ())

/-- The row that `ApplyReorgEvent` writes over a row. -/
def demoted (ev : ReorgEvent) (cur : Balance) : Balance :=
  { walletID := ev.walletID
    asset := ev.asset
    confirmed := svc.dec.formatDec svc.dec.zero
    pending := svc.dec.formatDec
      (svc.dec.add (svc.dec.parseDec cur.pending) (svc.dec.parseDec cur.confirmed))
    locked := cur.locked
    lastBlockSeen := cur.lastBlockSeen }

/-- The function that `ApplyReorgEvent` passes to `InTx`. -/
def demoteTx (ev : ReorgEvent) : Prog (Except Err Unit) := do
  match ← perform (.store (.getBalance ev.walletID ev.asset)) with
  | .error err => if err.is .errNoRows then pure (.ok ()) else pure (.error err)
  | .ok cur => perform (.store (.upsertBalance (svc.demoted ev cur)))

/-- The restoration of outpoints in `ApplyReorgEvent`. -/
def restoreReorged (ev : ReorgEvent) : Prog (Except Err Unit) :=
  if svc.utxoRestore && ev.outpoints ≠ [] then do
    match ← perform (.store (.restoreUTXOs ev.outpoints)) with
    | .error err => pure (.error (err.wrap "restore utxos"))
    | .ok () => pure (.ok ())
  else pure (.ok ())

/-- `ApplyReorgEvent`. -/
def applyReorgEvent (ev : ReorgEvent) : Prog (Except Err Unit) := do
  match ← inTx (svc.demoteTx ev) with
  | .error err => pure (.error err)
  | .ok () =>
    match ← svc.restoreReorged ev with
    | .error err => pure (.error err)
    | .ok () =>
      runIf svc.audit (perform (.emit ⟨"wallet.balance.updated", some ev.walletID,
        [("asset", .text ev.asset), ("reorg", .flag true),
          ("block_height", .number ev.blockHeight)]⟩))
      pure (.ok ())

/-- The row that `AddLocked` and `ReleaseLocked` write over a row. -/
def relocked (walletID : UUID) (asset : String) (locked : svc.dec.Decimal) (cur : Balance) :
    Balance :=
  { walletID, asset, confirmed := cur.confirmed, pending := cur.pending,
    locked := svc.dec.formatDec locked, lastBlockSeen := cur.lastBlockSeen }

/-- The transaction of `AddLocked` and `ReleaseLocked`: a new locked amount from the old one. -/
def relock (walletID : UUID) (asset : String)
    (change : svc.dec.Decimal → svc.dec.Decimal) : Prog (Except Err Unit) :=
  inTx do
    match ← perform (.store (.getBalance walletID asset)) with
    | .error err => pure (.error err)
    | .ok cur =>
      perform (.store (.upsertBalance
        (svc.relocked walletID asset (change (svc.dec.parseDec cur.locked)) cur)))

/-- `AddLocked`. -/
def addLocked (walletID : UUID) (asset amount : String) : Prog (Except Err Unit) :=
  svc.relock walletID asset fun locked => svc.dec.add locked (svc.dec.parseDec amount)

/-- `ReleaseLocked`. -/
def releaseLocked (walletID : UUID) (asset amount : String) : Prog (Except Err Unit) :=
  svc.relock walletID asset fun locked =>
    let locked := svc.dec.sub locked (svc.dec.parseDec amount)
    if svc.dec.isNegative locked then svc.dec.zero else locked

end BalanceService

/-! ## Entry points -/

/-- The entry points of the balance service that write. -/
inductive LedgerCall where
  | confirmation (ev : ConfirmationEvent)
  | reorg (ev : ReorgEvent)
  | addLocked (walletID : UUID) (asset amount : String)
  | releaseLocked (walletID : UUID) (asset amount : String)
  deriving DecidableEq

/-- The program of an entry point. -/
def BalanceService.body (svc : BalanceService) : LedgerCall → Prog (Except Err Unit)
  | .confirmation ev => svc.applyConfirmationEvent ev
  | .reorg ev => svc.applyReorgEvent ev
  | .addLocked walletID asset amount => svc.addLocked walletID asset amount
  | .releaseLocked walletID asset amount => svc.releaseLocked walletID asset amount

end WalletManagement
