import WalletManagement.Balance
import WalletManagement.Interaction.Crew
import WalletManagement.Scripted

/-!
# Funding of hot wallets

`internal/funding` as programs over the calls it makes: the methods of the store, the treasury
client, `uuid.NewV7` and the audit emitter. The service compares the confirmed balance with its
threshold as `float64`; what a decimal is as a `float64` is a parameter, like the decimals
themselves. The state is the store with the requests that were handed to the treasury client and
what the client answered.
-/

namespace WalletManagement

open Interaction Data

/-! ## Calls -/

/-- `funding.TreasuryRequest`. -/
structure TreasuryRequest where
  fundingRequestID : UUID
  walletID : UUID
  asset : String
  amount : String
  idempotencyKey : String
  reason : String
  deriving DecidableEq

/-- The calls of the funding service. -/
inductive FundingOp where
  | getWallet (id : UUID)
  | getBalance (walletID : UUID) (asset : String)
  | getOpenFundingRequest (walletID : UUID) (asset : String)
  | createFundingRequest (f : FundingRequest)
  | updateFundingState (id : UUID) (state : FundingState) (treasuryBatchID : String)
  /-- `TreasuryClient.RequestFunding`. -/
  | requestFunding (req : TreasuryRequest)
  /-- `uuid.NewV7`, with its error ignored. -/
  | newV7
  /-- `audit.Emitter.Emit`. -/
  | emit (event : AuditEvent)
  deriving DecidableEq

/-- The answers of a call. -/
abbrev FundingOp.Ans : FundingOp → Type
  | .getWallet _ => Except Err Wallet
  | .getBalance _ _ => Except Err Balance
  | .getOpenFundingRequest _ _ => Except Err FundingRequest
  | .createFundingRequest _ => Except Err Unit
  | .updateFundingState _ _ _ => Except Err Unit
  | .requestFunding _ => Except Err Unit
  | .newV7 => UUID
  | .emit _ => Except Err Unit

/-- The signature of the funding programs. -/
abbrev fundingCalls : Signature := ⟨FundingOp, FundingOp.Ans⟩

/-- Programs of the funding service. -/
abbrev FundingProg (α : Type) : Type := Program fundingCalls α

/-- The program of one call. -/
abbrev invoke (op : FundingOp) : FundingProg op.Ans := Program.perform (S := fundingCalls) op

/-! ## The service -/

/-- `float64`, as far as the service computes with it. -/
structure Floats (Decimal : Type) where
  /-- `float64`. -/
  Float64 : Type
  /-- `Decimal.InexactFloat64`. -/
  inexactFloat64 : Decimal → Float64
  /-- `x >= y`. -/
  ge : Float64 → Float64 → Bool
  /-- `x - y`. -/
  sub : Float64 → Float64 → Float64
  /-- `int64(x)`. -/
  toInt64 : Float64 → Int
  /-- What a `float64` stands for is above a number. -/
  above : Float64 → ℚ → Prop

/-- `funding.Service`: what the service is constructed with. -/
structure FundingService where
  /-- The decimal package. -/
  dec : Decimals
  /-- Floating point arithmetic. -/
  floats : Floats dec.Decimal
  /-- `Config.HotWalletMinBalanceUSD`. -/
  hotWalletMinBalanceUSD : floats.Float64
  /-- `Treasury` is not nil. -/
  treasury : Bool := true
  /-- `Audit` is not nil. -/
  audit : Bool := true

/-- The idempotency key of a funding request. -/
def FundingRequest.idempotencyKey (f : FundingRequest) : String :=
  "fr:" ++ f.walletID.string ++ ":" ++ f.asset ++ ":" ++ f.id.string

/-- What the treasury is asked for a funding request. -/
def FundingRequest.treasuryRequest (f : FundingRequest) : TreasuryRequest :=
  ⟨f.id, f.walletID, f.asset, f.amount, f.idempotencyKey, f.reason⟩

namespace FundingService

variable (svc : FundingService)

/-- The end of `createRequest`: the event, whose error is ignored. -/
def announce (f : FundingRequest) : FundingProg (Except Err Unit) := do
  if svc.audit then
    let _ ← invoke (.emit ⟨"wallet.funding.requested", some f.walletID, [("asset", .text f.asset),
      ("amount", .text f.amount), ("reason", .text f.reason), ("id", .id f.id)]⟩)
    pure (.ok ())
  else pure (.ok ())

/-- `createRequest`. -/
def createRequest (w : Wallet) (asset amount reason : String) : FundingProg (Except Err Unit) := do
  let id ← invoke .newV7
  let fr : FundingRequest := ⟨id, w.id, asset, amount, .requested, "", reason⟩
  match ← invoke (.createFundingRequest fr) with
  | .error err => pure (.error err)
  | .ok () =>
    if svc.treasury then
      match ← invoke (.requestFunding fr.treasuryRequest) with
      -- The row stays open.
      | .error err => pure (.error (err.wrap "treasury request"))
      | .ok () => svc.announce fr
    else svc.announce fr

/-- The comparison of `EvaluateAndRequest` with the threshold. -/
def reaches (confirmed : svc.dec.Decimal) : Bool :=
  svc.floats.ge (svc.floats.inexactFloat64 confirmed) svc.hotWalletMinBalanceUSD

/-- The amount that `EvaluateAndRequest` asks for. -/
def missing (confirmed : svc.dec.Decimal) : String :=
  (svc.floats.toInt64 (svc.floats.sub svc.hotWalletMinBalanceUSD
    (svc.floats.inexactFloat64 confirmed))).repr

/-- `EvaluateAndRequest` from the reading of the balance on. -/
def evaluate (w : Wallet) (walletID : UUID) (asset : String) (confirmed : svc.dec.Decimal) :
    FundingProg (Except Err Unit) := do
  if w.walletType ≠ .hot then pure (.ok ())
  else if svc.reaches confirmed then pure (.ok ())
  else
    match ← invoke (.getOpenFundingRequest walletID asset) with
    | .ok _ => pure (.ok ())
    | .error err =>
      if err.is .errNoRows then
        svc.createRequest w asset (svc.missing confirmed) "auto:below_threshold"
      else pure (.error err)

/-- `EvaluateAndRequest`. -/
def evaluateAndRequest (walletID : UUID) (asset : String) : FundingProg (Except Err Unit) := do
  match ← invoke (.getWallet walletID) with
  | .error err => pure (.error err)
  | .ok w =>
    match ← invoke (.getBalance walletID asset) with
    | .error err =>
      if err.is .errNoRows then svc.evaluate w walletID asset svc.dec.zero
      else pure (.error err)
    | .ok bal => svc.evaluate w walletID asset (svc.dec.parseDec bal.confirmed)

/-- `ManualRequest`. -/
def manualRequest (walletID : UUID) (asset amount reason : String) :
    FundingProg (Except Err Unit) := do
  match ← invoke (.getWallet walletID) with
  | .error err => pure (.error err)
  | .ok w =>
    if w.state = .retired then pure (.error ⟨"wallet is retired", some .errWalletRetired⟩)
    else
      match ← invoke (.getOpenFundingRequest walletID asset) with
      | .ok _ => pure (.error ⟨"duplicate open funding request", some .errDuplicateFunding⟩)
      | .error err =>
        if err.is .errNoRows then svc.createRequest w asset amount reason else pure (.error err)

/-- `MarkApproved`. -/
def markApproved (id : UUID) (treasuryBatchID : String) : FundingProg (Except Err Unit) :=
  invoke (.updateFundingState id .approved treasuryBatchID)

/-- `MarkSettled`. -/
def markSettled (id : UUID) : FundingProg (Except Err Unit) :=
  invoke (.updateFundingState id .settled "")

/-- `MarkRejected`, whose reason is ignored. -/
def markRejected (id : UUID) (_reason : String) : FundingProg (Except Err Unit) :=
  invoke (.updateFundingState id .rejected "")

end FundingService

/-- The calls of the service. -/
inductive FundingCall where
  | evaluateAndRequest (walletID : UUID) (asset : String)
  | manualRequest (walletID : UUID) (asset amount reason : String)
  | markApproved (id : UUID) (treasuryBatchID : String)
  | markSettled (id : UUID)
  | markRejected (id : UUID) (reason : String)
  deriving DecidableEq

/-- The program of a call. -/
def FundingService.body (svc : FundingService) : FundingCall → FundingProg (Except Err Unit)
  | .evaluateAndRequest walletID asset => svc.evaluateAndRequest walletID asset
  | .manualRequest walletID asset amount reason => svc.manualRequest walletID asset amount reason
  | .markApproved id treasuryBatchID => markApproved id treasuryBatchID
  | .markSettled id => markSettled id
  | .markRejected id reason => markRejected id reason

/-! ## The meaning of the calls -/

/-- What the calls share. -/
structure FundingWorld where
  store : Store
  /-- The requests handed to the treasury client, with its answers, the last one first. -/
  sent : List (TreasuryRequest × Except Err Unit) := []

/-- The meaning of the calls. The treasury client, `uuid.NewV7` and the emitter answer anything. -/
def fundingStep : Transition fundingCalls FundingWorld
  | .getWallet id, s, answer, s' => answer = s.store.getWallet id ∧ s' = s
  | .getBalance walletID asset, s, answer, s' =>
    answer = s.store.getBalance walletID asset ∧ s' = s
  | .getOpenFundingRequest walletID asset, s, answer, s' =>
    s.store.GetOpenFundingRequest walletID asset answer ∧ s' = s
  | .createFundingRequest f, s, answer, s' => answer = (s.store.createFundingRequest f).1 ∧
      s' = { s with store := (s.store.createFundingRequest f).2 }
  | .updateFundingState id state batch, s, answer, s' =>
    answer = (s.store.updateFundingState id state batch).1 ∧
      s' = { s with store := (s.store.updateFundingState id state batch).2 }
  | .requestFunding req, s, answer, s' => s' = { s with sent := (req, answer) :: s.sent }
  | .newV7, s, _, s' | .emit _, s, _, s' => s' = s

/-- Other services write wallets and balances, but no funding request. -/
def FundingWorld.Elsewhere (s s' : FundingWorld) : Prop :=
  s'.store.fundingReq = s.store.fundingReq ∧ s'.sent = s.sent

/-! ## The table of requests -/

namespace Store

variable {s : Store} {walletID : UUID} {asset : String}

/-- The open requests of a wallet and asset. -/
theorem mem_openFunding {f : FundingRequest} : f ∈ s.openFunding walletID asset ↔
    s.fundingReq.get f.id = some f ∧ f.walletID = walletID ∧ f.asset = asset ∧
      f.state = .requested := by
  rw [openFunding, Table.select, List.mem_filter, Table.mem_iff_get]
  simp only [Bool.and_eq_true, decide_eq_true_eq, and_assoc]

/-- The open requests depend on the table of requests only. -/
theorem openFunding_congr {s' : Store} (same : s'.fundingReq = s.fundingReq) :
    s'.openFunding walletID asset = s.openFunding walletID asset := by
  rw [openFunding, openFunding, same]

/-- What `CreateFundingRequest` does. -/
theorem createFundingRequest_cases (s : Store) (f : FundingRequest) :
    (s.openFunding f.walletID f.asset ≠ [] ∧ s.createFundingRequest f =
      (.error ⟨"duplicate open funding request", some .errDuplicateFunding⟩, s)) ∨
    (s.openFunding f.walletID f.asset = [] ∧ s.createFundingRequest f =
      (.ok (), { s with fundingReq := s.fundingReq.put f })) := by
  unfold createFundingRequest
  by_cases free : s.openFunding f.walletID f.asset = []
  · exact .inr ⟨free, if_neg fun taken => taken free⟩
  · exact .inl ⟨free, if_pos free⟩

/-- What `UpdateFundingState` does. -/
theorem updateFundingState_cases (s : Store) (id : UUID) (state : FundingState) (batch : String) :
    (s.fundingReq.get id = none ∧
      s.updateFundingState id state batch = (.error (notFound "funding request"), s)) ∨
    ∃ f f', s.fundingReq.get id = some f ∧ f' = { f with
        state, treasuryBatchID := if batch = "" then f.treasuryBatchID else batch } ∧
      s.updateFundingState id state batch =
        (.ok (), { s with fundingReq := s.fundingReq.put f' }) := by
  unfold updateFundingState
  cases s.fundingReq.get id with
  | none => exact .inl ⟨rfl, rfl⟩
  | some f => exact .inr ⟨f, _, rfl, rfl, rfl⟩

end Store

/-! ## Scripted calls -/

/-- `float64` on the integers that it holds exactly. -/
def integerFloats : Floats integerDecimals.Decimal where
  Float64 := Int
  inexactFloat64 n := n
  ge x y := decide (y ≤ x)
  sub := Int.sub
  toInt64 n := n
  above x q := q < x

/-- A service with a threshold of a thousand. -/
def sampleFunding : FundingService := ⟨integerDecimals, integerFloats, (1000 : Int), true, true⟩

/-- The open request that comes first in the table. -/
def Store.firstOpenFunding (s : Store) (walletID : UUID) (asset : String) :
    Except Err FundingRequest :=
  match s.openFunding walletID asset with
  | f :: _ => .ok f
  | [] => .error (Store.errNoRows.wrap "no open funding request")

theorem Store.firstOpenFunding_spec (s : Store) (walletID : UUID) (asset : String) :
    s.GetOpenFundingRequest walletID asset (s.firstOpenFunding walletID asset) := by
  unfold firstOpenFunding GetOpenFundingRequest
  cases s.openFunding walletID asset with
  | nil => exact ⟨rfl, rfl⟩
  | cons f rest => exact List.mem_cons_self

/-- Answer the calls over the store, with an identifier to give out and an answer of the treasury
client. -/
def handleFunding (id : UUID) (accepts : Except Err Unit) :
    (op : FundingOp) → FundingWorld → op.Ans × FundingWorld
  | .getWallet id, s => (s.store.getWallet id, s)
  | .getBalance walletID asset, s => (s.store.getBalance walletID asset, s)
  | .getOpenFundingRequest walletID asset, s => (s.store.firstOpenFunding walletID asset, s)
  | .createFundingRequest f, s =>
    ((s.store.createFundingRequest f).1, { s with store := (s.store.createFundingRequest f).2 })
  | .updateFundingState id state batch, s =>
    ((s.store.updateFundingState id state batch).1,
      { s with store := (s.store.updateFundingState id state batch).2 })
  | .requestFunding req, s => (accepts, { s with sent := (req, accepts) :: s.sent })
  | .newV7, s => (id, s)
  | .emit _, s => (.ok (), s)

theorem handleFunding_follows (id : UUID) (accepts : Except Err Unit) (op : FundingOp)
    (s : FundingWorld) :
    fundingStep op s (handleFunding id accepts op s).1 (handleFunding id accepts op s).2 := by
  cases op with
  | getOpenFundingRequest walletID asset =>
    exact ⟨s.store.firstOpenFunding_spec walletID asset, rfl⟩
  | getWallet _ | getBalance _ _ | createFundingRequest _ | updateFundingState _ _ _ =>
    exact ⟨rfl, rfl⟩
  | requestFunding _ | newV7 | emit _ => rfl

end WalletManagement
