import WalletManagement.System
import WalletManagement.TxBuilder

/-!
# The withdrawal saga

`internal/nonce`, `internal/utxo` and `internal/withdrawal` as programs over the calls of
`System`. Each call of a method of the store or of a collaborator is one call of the program,
in the order of the source, with every error branch; an error the source ignores is ignored
here. A collaborator that may be nil in the source is a flag.
-/

namespace WalletManagement

open Interaction Go

/-! ## Nonces -/

/-- The retry loop of `ReserveNonce`. -/
def reserveLoop (walletID : UUID) (chain : Chain) (lockName : String) :
    Nat → Prog (Except Err Int)
  | 0 =>
    pure (.error ⟨"nonce lock contention for " ++ walletID.string ++ "/" ++ chain.name, none⟩)
  | tries + 1 => do
    match ← perform (.acquire lockName) with
    | .error err => pure (.error (err.wrap "acquire nonce lock"))
    | .ok (token, ok) =>
      if ok then
        let answer ← perform (.store (.incrementPendingNonce walletID chain))
        let _ ← perform (.release lockName token)
        match answer with
        | .error err => pure (.error (err.wrap "increment pending nonce"))
        | .ok (val, _) => pure (.ok val)
      else reserveLoop walletID chain lockName tries

/-- `nonce.Service.ReserveNonce`. -/
def reserveNonce (walletID : UUID) (chain : Chain) : Prog (Except Err Int) :=
  reserveLoop walletID chain ("nonce:lock:" ++ walletID.string ++ ":" ++ chain.name) 50

/-- `nonce.Service.CommitNonce`. -/
def commitNonce (walletID : UUID) (chain : Chain) (nonce : Int) : Prog (Except Err Unit) :=
  perform (.store (.advanceBroadcastNonce walletID chain nonce))

/-- `nonce.Service.RollbackNonce`. -/
def rollbackNonce (walletID : UUID) (chain : Chain) (nonce : Int) : Prog (Except Err Unit) := do
  match ← perform (.store (.rollbackPendingNonce walletID chain nonce)) with
  | .error err => pure (.error err)
  | .ok _ => pure (.ok ())

/-! ## Unspent outputs -/

/-- `utxo.parseVal`. -/
def parseVal (s : String) : Int :=
  match parseInt s with
  | (n, none) => n
  | (_, some _) => 0

/-- The order of the candidates of `SelectForAmount`: larger values first. -/
def largerValue (left right : UTXO) : Bool := parseVal right.value < parseVal left.value

/-- The loop of `SelectForAmount`: take candidates until the total reaches the amount. -/
def selectLoop (amount : Int) : List UTXO → List String → Int → List String × Int
  | [], selected, total => (selected, total)
  | u :: rest, selected, total =>
    if amount ≤ total then (selected, total)
    else
      selectLoop amount rest (selected ++ [u.outpoint]) (wrapInt64 (total + parseVal u.value))

/-- `utxo.Service.SelectForAmount`. -/
def selectForAmount (order : SortSlice largerValue) (walletID : UUID) (amount : Int) :
    Prog (Except Err (List String × Int)) := do
  match ← perform (.store (.listFreeUTXOs walletID)) with
  | .error err => pure (.error err)
  | .ok free =>
    let (selected, total) := selectLoop amount (order.sort free) [] 0
    if total < amount then
      pure (.error ⟨"insufficient funds: need " ++ amount.repr ++ " have " ++ total.repr, none⟩)
    else
      match ← perform (.store (.lockUTXOs selected)) with
      | .error err => pure (.error (err.wrap "lock utxos"))
      | .ok () => pure (.ok (selected, total))

/-- `utxo.Service.Unlock` and `utxo.Service.RestoreOnReorg`. -/
def unlock (outpoints : List String) : Prog (Except Err Unit) :=
  perform (.store (.restoreUTXOs outpoints))

/-- `utxo.Service.MarkSpent`. -/
def markSpent (outpoints : List String) (txHash : String) : Prog (Except Err Unit) :=
  perform (.store (.markUTXOsSpent outpoints txHash))

/-- `utxo.Service.TrackUTXO`. -/
def trackUTXO (u : UTXO) : Prog (Except Err Unit) := perform (.store (.insertUTXO u))

/-! ## Withdrawals -/

/-- `withdrawal.CreateRequest`. -/
structure CreateRequest where
  walletID : UUID
  toAddress : String
  asset : String
  amount : String
  deriving DecidableEq

/-- The withdrawal `Create` inserts for a request. -/
def CreateRequest.withdrawal (req : CreateRequest) (id : UUID) : WithdrawalRequest :=
  { id, walletID := req.walletID, toAddress := req.toAddress, asset := req.asset,
    amount := req.amount, state := .pending }

/-- `withdrawal.Service`: what the service is constructed with. -/
structure Service where
  /-- The libraries of the transaction builders. -/
  libs : Libraries
  /-- The arrangement `sort.Slice` makes of the candidates. -/
  order : SortSlice largerValue
  /-- `Audit` is not nil. -/
  audit : Bool := true
  /-- `KeyLookup` is not nil. -/
  keyLookup : Bool := true

namespace Service

/-- Emit an audit event if there is an emitter, ignoring its error. -/
def emit (audit : Bool) (event : AuditEvent) : Prog Unit := runIf audit (perform (.emit event))

/-- `decisionID`. -/
def decisionID : Option CheckResponse → Option Err → String
  | _, some _ => "error"
  | none, none => "nil"
  | some dec, none => dec.decisionID

/-- `noncePtr`. -/
def noncePtr (wr : WithdrawalRequest) : Int := wr.nonceValue.getD (-1)

/-- `rollback`. -/
def rollback (w : Wallet) (n : Int) (ops : List String) : Prog Unit := do
  runIf (0 ≤ n && w.chain.isEVM) (rollbackNonce w.id w.chain n)
  runIf (ops ≠ []) (unlock ops)

/-- The approving part of a policy answer: no error, and an approved response. -/
def approval : Option CheckResponse × Option Err → Option CheckResponse
  | (some dec, none) => if dec.approved then some dec else none
  | _ => none

/-- `Create`. -/
def create (svc : Service) (req : CreateRequest) : Prog (Except Err WithdrawalRequest) := do
  match ← perform (.store (.getWallet req.walletID)) with
  | .error err => pure (.error (err.wrap "get wallet"))
  | .ok w =>
    if w.state = .retired then pure (.error ⟨"wallet is retired", some .errWalletRetired⟩)
    else if w.state = .paused then pure (.error ⟨"wallet is paused", none⟩)
    else
      let id ← perform .newV7
      let wr := req.withdrawal id
      match ← perform (.store (.createWithdrawal wr)) with
      | .error err => pure (.error (err.wrap "create withdrawal"))
      | .ok () =>
        emit svc.audit ⟨"withdrawal.created", some req.walletID, [("id", .id wr.id),
          ("to", .text req.toAddress), ("asset", .text req.asset), ("amount", .text req.amount)]⟩
        let answer ← perform (.checkWhitelist
          ⟨req.walletID.string, req.toAddress, req.asset, req.amount⟩)
        emit svc.audit ⟨"withdrawal.whitelist_checked", some req.walletID, [("id", .id wr.id),
          ("decision_id", .text (decisionID answer.1 answer.2))]⟩
        match approval answer with
        | none =>
          let reason :=
            match answer.1 with
            | some dec => if dec.reason = "" then "policy_error" else dec.reason
            | none => "policy_error"
          let decision := (answer.1.map CheckResponse.decisionID).getD ""
          let _ ← perform (.store (.updateWithdrawalState id .failed reason "" decision))
          pure (.ok { wr with
            state := .failed, failureReason := reason, policyDecisionID := decision })
        | some dec =>
          match ← perform
            (.store (.updateWithdrawalState id .whitelisted "" "" dec.decisionID)) with
          | .error err => pure (.error err)
          | .ok () =>
            pure (.ok { wr with state := .whitelisted, policyDecisionID := dec.decisionID })

/-- The reservation branch of `ConstructAndSign`: a nonce, or outpoints, or neither. -/
def reserve (svc : Service) (wr : WithdrawalRequest) (w : Wallet) :
    Prog (Except Err (Int × List String)) := do
  if w.chain.isEVM then
    match ← reserveNonce wr.walletID w.chain with
    | .error err => pure (.error (err.wrap "reserve nonce"))
    | .ok n =>
      let _ ← perform (.store (.updateWithdrawalNonce wr.id n))
      pure (.ok (n, []))
  else if w.chain = .bitcoin then
    match ← selectForAmount svc.order wr.walletID (parseInt wr.amount).1 with
    | .error err =>
      let _ ← rollbackNonce wr.walletID w.chain (-1)
      pure (.error (err.wrap "select utxos"))
    | .ok (ops, _) =>
      match ← perform (.store (.updateWithdrawalOutpoints wr.id ops)) with
      | .error err =>
        rollback w (-1) ops
        pure (.error (err.wrap "persist outpoints"))
      | .ok () => pure (.ok (-1, ops))
  else pure (.ok (-1, []))

/-- The part of `ConstructAndSign` after the reservation. -/
def signReserved (svc : Service) (wr : WithdrawalRequest) (w : Wallet) (keyID : String)
    (n : Int) (ops : List String) : Prog (Except Err Unit) := do
  match buildUnsignedTx svc.libs w wr n ops with
  | .error err =>
    rollback w n ops
    pure (.error (err.wrap "build unsigned tx"))
  | .ok unsigned =>
    match ← perform (.sign ⟨keyID, unsigned.payload, wr.walletID⟩) with
    | .error err =>
      rollback w n ops
      let _ ← perform (.store (.updateWithdrawalState wr.id .failed "sign_failed" "" ""))
      pure (.error (err.wrap "sign"))
    | .ok resp =>
      match unsigned.assemble resp.signature with
      | .error err =>
        rollback w n ops
        let _ ← perform (.store (.updateWithdrawalState wr.id .failed "assemble_failed" "" ""))
        pure (.error (err.wrap "assemble signed tx"))
      | .ok signedBytes =>
        match ← perform (.store (.updateWithdrawalSignedTx wr.id signedBytes)) with
        | .error err =>
          rollback w n ops
          pure (.error (err.wrap "persist signed tx"))
        | .ok () =>
          match ← perform (.store (.updateWithdrawalState wr.id .signed "" "" "")) with
          | .error err => pure (.error err)
          | .ok () =>
            emit svc.audit ⟨"withdrawal.signed", some wr.walletID, [("id", .id wr.id),
              ("nonce", .number n), ("utxos", .texts ops),
              ("signed_bytes_len", .number signedBytes.length)]⟩
            pure (.ok ())

/-- The key lookup of `ConstructAndSign`. -/
def resolveKey (svc : Service) (walletID : UUID) : Prog (Except Err String) := do
  if svc.keyLookup then
    match ← perform (.resolveActiveKeyID walletID) with
    | .error err => pure (.error (err.wrap "resolve key"))
    | .ok keyID => pure (.ok keyID)
  else pure (.ok "")

/-- `ConstructAndSign`. -/
def constructAndSign (svc : Service) (id : UUID) : Prog (Except Err Unit) := do
  match ← perform (.store (.getWithdrawal id)) with
  | .error err => pure (.error err)
  | .ok wr =>
    if wr.state ≠ .whitelisted then
      pure (.error ⟨"withdrawal not in whitelisted state (is " ++ wr.state.text ++ ")", none⟩)
    else
      match ← perform (.store (.getWallet wr.walletID)) with
      | .error err => pure (.error err)
      | .ok w =>
        match ← svc.resolveKey wr.walletID with
        | .error err => pure (.error err)
        | .ok keyID =>
          match ← svc.reserve wr w with
          | .error err => pure (.error err)
          | .ok (n, ops) => svc.signReserved wr w keyID n ops

/-- The nonce part of `settle`. -/
def commitReserved (wr : WithdrawalRequest) (w : Wallet) : Prog Unit :=
  match wr.nonceValue with
  | some n => runIf w.chain.isEVM (commitNonce wr.walletID w.chain n)
  | none => pure ()

/-- The part of `Broadcast` after the gateway accepted the transaction. -/
def settle (svc : Service) (wr : WithdrawalRequest) (w : Wallet) (txHash : String) :
    Prog (Except Err Unit) := do
  runIf (w.chain = .bitcoin && wr.reservedOutpoints ≠ []) (markSpent wr.reservedOutpoints txHash)
  commitReserved wr w
  match ← perform (.store (.updateWithdrawalState wr.id .broadcast "" txHash "")) with
  | .error err => pure (.error err)
  | .ok () =>
    emit svc.audit ⟨"withdrawal.broadcast", some wr.walletID,
      [("id", .id wr.id), ("tx_hash", .text txHash)]⟩
    pure (.ok ())

/-- `Broadcast`. -/
def broadcast (svc : Service) (id : UUID) : Prog (Except Err Unit) := do
  match ← perform (.store (.getWithdrawal id)) with
  | .error err => pure (.error err)
  | .ok wr =>
    if wr.state ≠ .signed then
      pure (.error ⟨"withdrawal not signed (is " ++ wr.state.text ++ ")", none⟩)
    else
      match ← perform (.store (.getWallet wr.walletID)) with
      | .error err => pure (.error err)
      | .ok w =>
        if wr.signedTxBytes = [] then
          pure (.error ⟨"withdrawal " ++ id.string ++ " has no signed tx bytes", none⟩)
        else
          match ← perform (.broadcastTx ⟨w.chain.name, wr.signedTxBytes, wr.walletID⟩) with
          | .error err =>
            rollback w (noncePtr wr) wr.reservedOutpoints
            let _ ← perform (.store (.updateWithdrawalState id .failed "broadcast_failed" "" ""))
            pure (.error (err.wrap "broadcast"))
          | .ok resp => svc.settle wr w resp.txHash

/-- `Confirm`. -/
def confirm (svc : Service) (id : UUID) (txHash : String) : Prog (Except Err Unit) := do
  match ← perform (.store (.getWithdrawal id)) with
  | .error err => pure (.error err)
  | .ok wr =>
    if wr.state ≠ .broadcast then
      pure (.error ⟨"withdrawal not broadcast (is " ++ wr.state.text ++ ")", none⟩)
    else
      match ← perform (.store (.updateWithdrawalState id .confirmed "" txHash "")) with
      | .error err => pure (.error err)
      | .ok () =>
        emit svc.audit ⟨"withdrawal.confirmed", some wr.walletID,
          [("id", .id id), ("tx_hash", .text txHash)]⟩
        pure (.ok ())

/-- `Fail`. The reserved outpoints are not passed to `rollback`. -/
def fail (svc : Service) (id : UUID) (reason : String) : Prog (Except Err Unit) := do
  match ← perform (.store (.getWithdrawal id)) with
  | .error err => pure (.error err)
  | .ok wr =>
    match ← perform (.store (.getWallet wr.walletID)) with
    | .error err => pure (.error err)
    | .ok w =>
      rollback w (noncePtr wr) []
      match ← perform (.store (.updateWithdrawalState id .failed reason "" "")) with
      | .error err => pure (.error err)
      | .ok () =>
        emit svc.audit ⟨"withdrawal.failed", some wr.walletID,
          [("id", .id id), ("reason", .text reason)]⟩
        pure (.ok ())

/-- `OnReorg`. -/
def onReorg (id : UUID) (outpoints : List String) : Prog (Except Err Unit) := do
  match ← perform (.store (.getWithdrawal id)) with
  | .error err => pure (.error err)
  | .ok wr =>
    match ← unlock outpoints with
    | .error err => pure (.error err)
    | .ok () =>
      if wr.state = .confirmed then
        perform (.store (.updateWithdrawalState id .broadcast "reorg" "" ""))
      else pure (.ok ())

end Service

/-! ## Entry points -/

/-- The entry points of the saga and of the two services it uses. -/
inductive SagaCall where
  | create (req : CreateRequest)
  | constructAndSign (id : UUID)
  | broadcast (id : UUID)
  | confirm (id : UUID) (txHash : String)
  | fail (id : UUID) (reason : String)
  | onReorg (id : UUID) (outpoints : List String)
  | trackUTXO (u : UTXO)
  | reserveNonce (walletID : UUID) (chain : Chain)
  deriving DecidableEq

/-- The operations of the saga itself, without reorganisations. -/
def SagaCall.saga : SagaCall → Bool
  | .create _ | .constructAndSign _ | .broadcast _ | .confirm _ _ | .fail _ _ => true
  | .onReorg _ _ | .trackUTXO _ | .reserveNonce _ _ => false

/-- The program of an entry point, with only the error of its result. -/
def Service.body (svc : Service) : SagaCall → Prog (Except Err Unit)
  | .create req => do pure ((← svc.create req).map fun _ => ())
  | .constructAndSign id => svc.constructAndSign id
  | .broadcast id => svc.broadcast id
  | .confirm id txHash => svc.confirm id txHash
  | .fail id reason => svc.fail id reason
  | .onReorg id outpoints => onReorg id outpoints
  | .trackUTXO u => WalletManagement.trackUTXO u
  | .reserveNonce walletID chain => do
    pure ((← WalletManagement.reserveNonce walletID chain).map fun _ => ())

end WalletManagement
