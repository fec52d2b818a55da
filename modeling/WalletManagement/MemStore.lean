import WalletManagement.Data.Table
import WalletManagement.Domain
import Mathlib.Data.Finset.Basic
import Mathlib.Data.List.Sort

/-!
# The in-memory store

The records of `internal/storage` and the operations of `internal/storage/memstore`. Each
exported method of the store holds its mutex from start to end, so it is one atomic step; a
method is modelled as a function from the store to its answer and the store after it. Rows
are keyed as the source keys them, some of them by a string built from several fields.
A method that answers with what a loop over a map meets first, or with the result of an unstable
sort, is a relation between the store and its answers. A method that reads the clock and stores the
reading is given it. Other timestamps that nothing modelled here reads are left out.
-/

namespace WalletManagement

open Data Go

/-! ## Records -/

/-- `storage.WithdrawalState`. -/
inductive WithdrawalState where
  | pending
  | whitelisted
  | signed
  | broadcast
  | confirmed
  | failed
  deriving DecidableEq, Repr

/-- The text of a withdrawal state. -/
def WithdrawalState.text : WithdrawalState → String
  | .pending => "PENDING"
  | .whitelisted => "WHITELISTED"
  | .signed => "SIGNED"
  | .broadcast => "BROADCAST"
  | .confirmed => "CONFIRMED"
  | .failed => "FAILED"

/-- `storage.UTXOLockState`. -/
inductive UTXOLockState where
  | free
  | locked
  | spent
  deriving DecidableEq, Repr

/-- The text of a lock state. -/
def UTXOLockState.text : UTXOLockState → String
  | .free => "FREE"
  | .locked => "LOCKED"
  | .spent => "SPENT"

/-- `storage.Balance`. -/
structure Balance where
  walletID : UUID
  asset : String
  confirmed : String := ""
  pending : String := ""
  locked : String := ""
  lastBlockSeen : Int := 0
  deriving DecidableEq

/-- `storage.UTXO`. -/
structure UTXO where
  outpoint : String
  walletID : UUID
  value : String
  lockState : UTXOLockState
  lockedAt : Option Int := none
  spentAt : Option Int := none
  txHash : String := ""
  updatedAt : Int := 0
  deriving DecidableEq

/-- `storage.Nonce`. -/
structure Nonce where
  walletID : UUID
  chain : Chain
  pendingNonce : Int := 0
  broadcastNonce : Int := 0
  version : Int := 0
  deriving DecidableEq

/-- `storage.WithdrawalRequest`. A nil byte or outpoint slice is the empty list. -/
structure WithdrawalRequest where
  id : UUID
  walletID : UUID
  toAddress : String
  asset : String
  amount : String
  state : WithdrawalState
  policyDecisionID : String := ""
  failureReason : String := ""
  txHash : String := ""
  nonceValue : Option Int := none
  reservedOutpoints : List String := []
  signedTxBytes : List UInt8 := []
  deriving DecidableEq

/-- `storage.BalanceEvent`. -/
structure BalanceEvent where
  walletID : UUID
  asset : String
  blockHeight : Int
  eventID : String
  deriving DecidableEq

/-- `storage.RotationState`. -/
inductive KeyRotationState where
  | current
  | cooling
  | retired
  deriving DecidableEq, Repr

/-- `storage.KeyMapping`. An instant is counted in nanoseconds from the zero value of
`time.Time`. -/
structure KeyMapping where
  walletID : UUID
  keyID : String
  activeFrom : Int
  activeTo : Option Int := none
  rotationState : KeyRotationState
  createdAt : Int
  deriving DecidableEq

/-- An entry of `keyMappings`: the mappings of one wallet, in the order they were added. -/
structure KeyRing where
  walletID : UUID
  mappings : List KeyMapping
  deriving DecidableEq

/-- `storage.FundingState`. -/
inductive FundingState where
  | requested
  | approved
  | settled
  | rejected
  deriving DecidableEq, Repr

/-- `storage.FundingRequest`. -/
structure FundingRequest where
  id : UUID
  walletID : UUID
  asset : String
  amount : String
  state : FundingState
  treasuryBatchID : String := ""
  reason : String
  deriving DecidableEq

/-- `storage.AuditOutboxEvent`. -/
structure AuditOutboxEvent where
  id : UUID
  eventID : UUID
  walletID : Option UUID
  eventType : String
  payload : List UInt8
  seq : Int
  delivered : Bool := false
  attempts : Int := 0
  deriving DecidableEq

/-- An entry of `auditSeqCounters`. -/
structure AuditSeqCounter where
  walletID : UUID
  last : Int
  deriving DecidableEq

/-! ## Keys -/

/-- `balanceKey`. -/
def balanceKey (walletID : UUID) (asset : String) : String := walletID.string ++ "|" ++ asset

/-- `nonceKey`. -/
def nonceKey (walletID : UUID) (chain : Chain) : String := walletID.string ++ "|" ++ chain.name

/-- `withdrawalDedupKey`. -/
def withdrawalDedupKey (walletID : UUID) (toAddress amount asset : String) : String :=
  walletID.string ++ "|" ++ toAddress ++ "|" ++ amount ++ "|" ++ asset

/-- The deduplication key of `RecordBalanceEvent`. -/
def BalanceEvent.key (event : BalanceEvent) : String :=
  event.walletID.string ++ "|" ++ event.asset ++ "|" ++ event.blockHeight.repr ++ "|" ++
    event.eventID

/-- The key of a balance row. -/
def Balance.key (row : Balance) : String := balanceKey row.walletID row.asset

/-- The key of a nonce row. -/
def Nonce.key (row : Nonce) : String := nonceKey row.walletID row.chain

/-- The in-flight key of a withdrawal. -/
def WithdrawalRequest.dedupKey (row : WithdrawalRequest) : String :=
  withdrawalDedupKey row.walletID row.toAddress row.amount row.asset

/-- A key that starts with an identifier determines the identifier and the rest. -/
theorem string_append_inj {left right : UUID} {rest rest' : String}
    (same : left.string ++ rest = right.string ++ rest') : left = right ∧ rest = rest' := by
  have chars := String.toList_inj.mpr same
  simp only [String.toList_append, UUID.string, String.toList_ofList] at chars
  obtain ⟨ids, rests⟩ := List.append_inj chars (by rw [UUID.chars_length, UUID.chars_length])
  exact ⟨UUID.chars_injective ids, String.toList_inj.mp rests⟩

/-- The first separator splits two texts that agree when neither first part contains it. -/
theorem append_separator_inj {separator : Char} {left right rest rest' : List Char}
    (same : left ++ separator :: rest = right ++ separator :: rest')
    (clean : separator ∉ left) (clean' : separator ∉ right) : left = right ∧ rest = rest' := by
  induction left generalizing right with
  | nil =>
    cases right with
    | nil => exact ⟨rfl, (List.cons.inj same).2⟩
    | cons head tail =>
      exact absurd (List.cons.inj same).1 fun h => clean' (h ▸ List.mem_cons_self)
  | cons head tail ih =>
    cases right with
    | nil => exact absurd (List.cons.inj same).1 fun h => clean (h ▸ List.mem_cons_self)
    | cons head' tail' =>
      obtain ⟨heads, tails⟩ := List.cons.inj same
      obtain ⟨parts, rests⟩ := ih tails (fun h => clean (List.mem_cons_of_mem _ h))
        fun h => clean' (List.mem_cons_of_mem _ h)
      exact ⟨by rw [heads, parts], rests⟩

/-- A balance row is keyed by its wallet and asset. -/
theorem balanceKey_inj {w w' : UUID} {a a' : String} (same : balanceKey w a = balanceKey w' a') :
    w = w' ∧ a = a' := by
  simp only [balanceKey, String.append_assoc] at same
  obtain ⟨wallets, rest⟩ := string_append_inj same
  exact ⟨wallets, by simpa using rest⟩

/-- Recorded events about one asset are keyed by what identifies them. -/
theorem BalanceEvent.eq_of_key {event event' : BalanceEvent} (assets : event.asset = event'.asset)
    (same : event.key = event'.key) : event = event' := by
  have unsplit (v : Int) : '|' ∉ v.repr.toList := fun member => by
    rcases Go.mem_repr member with digit | minus
    · cases digit
    · cases minus
  simp only [BalanceEvent.key, String.append_assoc, assets] at same
  obtain ⟨wallets, rest⟩ := string_append_inj same
  have chars := String.toList_inj.mpr rest
  simp only [String.toList_append, List.append_cancel_left_eq] at chars
  obtain ⟨heights, ids⟩ := append_separator_inj chars (unsplit _) (unsplit _)
  cases event
  cases event'
  rw [BalanceEvent.mk.injEq]
  exact ⟨wallets, assets, Go.repr_injective (String.toList_inj.mp heights),
    String.toList_inj.mp ids⟩

/-- Recorded events are keyed by what identifies them, when no asset contains the separator. -/
theorem BalanceEvent.key_inj {event event' : BalanceEvent} (clean : '|' ∉ event.asset.toList)
    (clean' : '|' ∉ event'.asset.toList) (same : event.key = event'.key) : event = event' := by
  have split := same
  simp only [BalanceEvent.key, String.append_assoc] at split
  have chars := String.toList_inj.mpr (string_append_inj split).2
  simp only [String.toList_append] at chars
  have assets := append_separator_inj (List.cons.inj chars).2 clean clean'
  exact BalanceEvent.eq_of_key (String.toList_inj.mp assets.1) same

/-- A nonce row is keyed by its wallet and chain. -/
theorem nonceKey_inj {w w' : UUID} {c c' : Chain} (same : nonceKey w c = nonceKey w' c') :
    w = w' ∧ c = c' := by
  simp only [nonceKey, String.append_assoc] at same
  obtain ⟨wallets, rest⟩ := string_append_inj same
  cases c; cases c'
  exact ⟨wallets, by simpa using rest⟩

/-! ## The store -/

/-- `memstore.Store`. -/
structure Store where
  wallets : Table Wallet.id := .empty
  balances : Table Balance.key := .empty
  balanceEvents : Finset String := ∅
  utxos : Table UTXO.outpoint := .empty
  nonces : Table Nonce.key := .empty
  withdrawals : Table WithdrawalRequest.id := .empty
  inflightWithdrawals : Finset String := ∅
  addresses : Table Address.id := .empty
  keyMappings : Table KeyRing.walletID := .empty
  fundingReq : Table FundingRequest.id := .empty
  auditOutbox : List AuditOutboxEvent := []
  auditSeqCounters : Table AuditSeqCounter.walletID := .empty
  deriving DecidableEq

namespace Store

/-- The error of a lookup that finds no row. -/
def notFound (what : String) : Err :=
  Err.wrap (what ++ " not found") ⟨"sql: no rows in result set", some .errNoRows⟩

/-- The answer of a lookup. -/
def found {α : Type} (what : String) : Option α → Except Err α
  | none => .error (notFound what)
  | some row => .ok row

/-- `sql.ErrNoRows`. -/
def errNoRows : Err := ⟨"sql: no rows in result set", some .errNoRows⟩

/-! ### Wallets -/

/-- `GetWallet`. -/
def getWallet (s : Store) (id : UUID) : Except Err Wallet := found "wallet" (s.wallets.get id)

/-- `UpdateWalletState`. -/
def updateWalletState (s : Store) (id : UUID) (state : WalletState) : Except Err Unit × Store :=
  match s.wallets.get id with
  | none => (.error (notFound "wallet"), s)
  | some w => (.ok (), { s with wallets := s.wallets.put { w with state } })

/-! ### Balances -/

/-- `UpsertBalance`. -/
def upsertBalance (s : Store) (row : Balance) : Store := { s with balances := s.balances.put row }

/-- `GetBalance`. -/
def getBalance (s : Store) (walletID : UUID) (asset : String) : Except Err Balance :=
  found "balance" (s.balances.get (balanceKey walletID asset))

/-- `RecordBalanceEvent`. -/
def recordBalanceEvent (s : Store) (event : BalanceEvent) : Except Err Unit × Store :=
  if event.key ∈ s.balanceEvents then
    (.error ⟨"duplicate balance event", some .errDuplicateEvent⟩, s)
  else (.ok (), { s with balanceEvents := insert event.key s.balanceEvents })

/-! ### Unspent outputs -/

/-- `InsertUTXO`. -/
def insertUTXO (s : Store) (now : Int) (u : UTXO) : Except Err Unit × Store :=
  match s.utxos.get u.outpoint with
  | some _ => (.error ⟨"utxo exists", none⟩, s)
  | none => (.ok (), { s with utxos := s.utxos.put { u with updatedAt := now } })

/-- `ListFreeUTXOs`. Outpoints are distinct, so the order by outpoint is the only sorted one. -/
def listFreeUTXOs (s : Store) (walletID : UUID) : List UTXO :=
  (s.utxos.select fun u => u.walletID = walletID && u.lockState = .free).insertionSort
    fun left right => left.outpoint ≤ right.outpoint

/-- The loop that changes one row for each outpoint and stops at the first one missing. -/
def updateUTXOs (change : UTXO → UTXO) :
    List String → Table UTXO.outpoint → Except Err Unit × Table UTXO.outpoint
  | [], utxos => (.ok (), utxos)
  | op :: rest, utxos =>
    match utxos.get op with
    | none => (.error ⟨"utxo not found: " ++ op, none⟩, utxos)
    | some u => updateUTXOs change rest (utxos.put (change u))

/-- The first loop of `LockUTXOs`: every outpoint must be there and free. -/
def checkFree (utxos : Table UTXO.outpoint) : List String → Except Err Unit
  | [] => .ok ()
  | op :: rest =>
    match utxos.get op with
    | none => .error ⟨"utxo not found: " ++ op, none⟩
    | some u =>
      if u.lockState = .free then checkFree utxos rest
      else .error ⟨"utxo not free: " ++ op ++ " state=" ++ u.lockState.text, none⟩

/-- What `LockUTXOs` writes to a row. -/
def setLocked (now : Int) (u : UTXO) : UTXO :=
  { u with lockState := .locked, lockedAt := some now, updatedAt := now }

/-- What `MarkUTXOsSpent` writes to a row. -/
def setSpent (now : Int) (txHash : String) (u : UTXO) : UTXO :=
  { u with lockState := .spent, spentAt := some now, txHash, updatedAt := now }

/-- What `RestoreUTXOs` writes to a row. -/
def setFree (now : Int) (u : UTXO) : UTXO :=
  { u with lockState := .free, spentAt := none, lockedAt := none, txHash := "", updatedAt := now }

/-- `LockUTXOs`. -/
def lockUTXOs (s : Store) (now : Int) (outpoints : List String) : Except Err Unit × Store :=
  match checkFree s.utxos outpoints with
  | .error err => (.error err, s)
  | .ok () =>
    let (answer, utxos) := updateUTXOs (setLocked now) outpoints s.utxos
    (answer, { s with utxos })

/-- `MarkUTXOsSpent`. -/
def markUTXOsSpent (s : Store) (now : Int) (outpoints : List String) (txHash : String) :
    Except Err Unit × Store :=
  let (answer, utxos) := updateUTXOs (setSpent now txHash) outpoints s.utxos
  (answer, { s with utxos })

/-- `RestoreUTXOs`. -/
def restoreUTXOs (s : Store) (now : Int) (outpoints : List String) : Except Err Unit × Store :=
  let (answer, utxos) := updateUTXOs (setFree now) outpoints s.utxos
  (answer, { s with utxos })

/-! ### Nonces -/

/-- The nonce row of a wallet and chain, all zero when there is none. -/
def nonce (s : Store) (walletID : UUID) (chain : Chain) : Nonce :=
  (s.nonces.get (nonceKey walletID chain)).getD { walletID, chain }

/-- `IncrementPendingNonce`: the value before, and the version after. -/
def incrementPendingNonce (s : Store) (walletID : UUID) (chain : Chain) : (Int × Int) × Store :=
  let row := s.nonce walletID chain
  let version := wrapInt64 (row.version + 1)
  let next := { row with pendingNonce := wrapInt64 (row.pendingNonce + 1), version }
  ((row.pendingNonce, version), { s with nonces := s.nonces.put next })

/-- `AdvanceBroadcastNonce`. -/
def advanceBroadcastNonce (s : Store) (walletID : UUID) (chain : Chain) (nonce : Int) : Store :=
  let row := s.nonce walletID chain
  let next :=
    if row.broadcastNonce < wrapInt64 (nonce + 1) then
      { row with broadcastNonce := wrapInt64 (nonce + 1) }
    else row
  { s with nonces := s.nonces.put next }

/-- `RollbackPendingNonce`: the number of rows rolled back. -/
def rollbackPendingNonce (s : Store) (walletID : UUID) (chain : Chain) (target : Int) :
    Int × Store :=
  match s.nonces.get (nonceKey walletID chain) with
  | none => (0, s)
  | some row =>
    if row.pendingNonce = wrapInt64 (target + 1) then
      let next := { row with pendingNonce := target, version := wrapInt64 (row.version + 1) }
      (1, { s with nonces := s.nonces.put next })
    else (0, s)

/-! ### Withdrawals -/

/-- `CreateWithdrawal`. -/
def createWithdrawal (s : Store) (w : WithdrawalRequest) : Except Err Unit × Store :=
  match s.withdrawals.get w.id with
  | some _ => (.error ⟨"withdrawal exists", none⟩, s)
  | none =>
    if w.dedupKey ∈ s.inflightWithdrawals then
      (.error ⟨"duplicate in-flight withdrawal", some .errDuplicateWithdrawal⟩, s)
    else
      (.ok (), { s with
        inflightWithdrawals := insert w.dedupKey s.inflightWithdrawals
        withdrawals := s.withdrawals.put w })

/-- `GetWithdrawal`. -/
def getWithdrawal (s : Store) (id : UUID) : Except Err WithdrawalRequest :=
  found "withdrawal" (s.withdrawals.get id)

/-- `ListWithdrawals`: `uuid.Nil` stands for every wallet and the empty text for every state. -/
def listWithdrawals (s : Store) (walletID : UUID) (state : String) : List WithdrawalRequest :=
  s.withdrawals.select fun wr =>
    (walletID = .nil || wr.walletID = walletID) && (state = "" || wr.state.text = state)

/-- The withdrawal row after `UpdateWithdrawalState`: an empty text leaves its field alone. -/
def setState (state : WithdrawalState) (reason txHash policyDecisionID : String)
    (w : WithdrawalRequest) : WithdrawalRequest :=
  { w with
    state
    failureReason := if reason = "" then w.failureReason else reason
    txHash := if txHash = "" then w.txHash else txHash
    policyDecisionID := if policyDecisionID = "" then w.policyDecisionID else policyDecisionID }

/-- `UpdateWithdrawalState`: a terminal state releases the in-flight key. -/
def updateWithdrawalState (s : Store) (id : UUID) (state : WithdrawalState)
    (reason txHash policyDecisionID : String) : Except Err Unit × Store :=
  match s.withdrawals.get id with
  | none => (.error (notFound "withdrawal"), s)
  | some w =>
    (.ok (), { s with
      inflightWithdrawals :=
        if state = .confirmed ∨ state = .failed then s.inflightWithdrawals.erase w.dedupKey
        else s.inflightWithdrawals
      withdrawals := s.withdrawals.put (setState state reason txHash policyDecisionID w) })

/-- The shape of the updates that change one field of a withdrawal. -/
def updateWithdrawal (s : Store) (id : UUID) (change : WithdrawalRequest → WithdrawalRequest) :
    Except Err Unit × Store :=
  match s.withdrawals.get id with
  | none => (.error (notFound "withdrawal"), s)
  | some w => (.ok (), { s with withdrawals := s.withdrawals.put (change w) })

/-- `UpdateWithdrawalNonce`. -/
def updateWithdrawalNonce (s : Store) (id : UUID) (nonce : Int) : Except Err Unit × Store :=
  s.updateWithdrawal id fun w => { w with nonceValue := some nonce }

/-- `UpdateWithdrawalOutpoints`. -/
def updateWithdrawalOutpoints (s : Store) (id : UUID) (outpoints : List String) :
    Except Err Unit × Store :=
  s.updateWithdrawal id fun w => { w with reservedOutpoints := outpoints }

/-- `UpdateWithdrawalSignedTx`. -/
def updateWithdrawalSignedTx (s : Store) (id : UUID) (txBytes : List UInt8) :
    Except Err Unit × Store :=
  s.updateWithdrawal id fun w => { w with signedTxBytes := txBytes }

/-! ### Addresses -/

/-- The active addresses of a wallet. -/
def activeAddresses (s : Store) (walletID : UUID) : List Address :=
  s.addresses.select fun a => a.walletID = walletID && a.state = .active

/-- `InsertAddress`, at a given time. -/
def insertAddress (s : Store) (now : Int) (a : Address) : Except Err Unit × Store :=
  match s.addresses.get a.id with
  | some _ => (.error ⟨"address exists", none⟩, s)
  | none =>
    if a.state = .active ∧ s.activeAddresses a.walletID ≠ [] then
      (.error ⟨"active address already exists for wallet", none⟩, s)
    else
      let row := if a.createdAt = 0 then { a with createdAt := now } else a
      (.ok (), { s with addresses := s.addresses.put row })

/-- The error of `GetActiveAddress`. -/
def noActiveAddress : Err :=
  Err.wrap "no active address" ⟨"sql: no rows in result set", some .errNoRows⟩

/-- `GetActiveAddress`: the active address its loop meets first. -/
def GetActiveAddress (s : Store) (walletID : UUID) : Except Err Address → Prop
  | .ok a => a ∈ s.activeAddresses walletID
  | .error err => s.activeAddresses walletID = [] ∧ err = noActiveAddress

/-- The order of `ListAddresses`. -/
def addressLess (left right : Address) : Bool :=
  if left.change ≠ right.change then left.change < right.change else left.index < right.index

/-- `ListAddresses`: the addresses of a wallet in an order that is sorted. -/
def ListAddresses (s : Store) (walletID : UUID) (addrs : List Address) : Prop :=
  addrs.Perm (s.addresses.select fun a => a.walletID = walletID) ∧
    addrs.Pairwise fun earlier later => addressLess later earlier = false

/-- `DeprecateAddress`. -/
def deprecateAddress (s : Store) (id : UUID) : Except Err Unit × Store :=
  match s.addresses.get id with
  | none => (.error (notFound "address"), s)
  | some a => (.ok (), { s with addresses := s.addresses.put { a with state := .deprecated } })

/-- The loop of `NextAddressIndex`. -/
def maxIndex (chain : Chain) (change : Int) : List Address → Int → Int
  | [], maxIdx => maxIdx
  | a :: rest, maxIdx =>
    if a.chain = chain ∧ a.change = change ∧ maxIdx < a.index then
      maxIndex chain change rest a.index
    else maxIndex chain change rest maxIdx

/-- `NextAddressIndex`. -/
def nextAddressIndex (s : Store) (chain : Chain) (change : Int) : Int :=
  wrapInt64 (maxIndex chain change s.addresses.rows (-1) + 1)

/-! ### Key mappings -/

/-- `keyMappings[walletID]`. -/
def mappings (s : Store) (walletID : UUID) : List KeyMapping :=
  ((s.keyMappings.get walletID).map KeyRing.mappings).getD []

/-- Write `keyMappings[walletID]`. -/
def putMappings (s : Store) (walletID : UUID) (mappings : List KeyMapping) : Store :=
  { s with keyMappings := s.keyMappings.put ⟨walletID, mappings⟩ }

/-- `BindKeyMapping`, at a given time. -/
def bindKeyMapping (s : Store) (now : Int) (m : KeyMapping) : Except Err Unit × Store :=
  if (s.mappings m.walletID).any fun ex =>
      ex.rotationState = .current && m.rotationState = .current then
    (.error ⟨"current key mapping already exists", none⟩, s)
  else
    let cp := { m with
      createdAt := if m.createdAt = 0 then now else m.createdAt
      activeFrom := if m.activeFrom = 0 then now else m.activeFrom }
    (.ok (), s.putMappings m.walletID (s.mappings m.walletID ++ [cp]))

/-- The order of `ResolveActiveKey`. -/
abbrev activeBefore : KeyMapping → KeyMapping → Bool := byRank KeyMapping.activeFrom

/-- The rows `ResolveActiveKey` returns. -/
def isActiveKey (m : KeyMapping) : Bool :=
  m.rotationState = .current || m.rotationState = .cooling

/-- `ResolveActiveKey`. -/
def resolveActiveKey (order : SortSlice activeBefore) (s : Store) (walletID : UUID) :
    Except Err (List KeyMapping) :=
  let out := (s.mappings walletID).filter isActiveKey
  if out = [] then .error (errNoRows.wrap "no active key mapping") else .ok (order.sort out)

/-- The first loop of `RotateKeyMapping`: a current mapping starts to cool. -/
def coolKey (activeTo : Int) (m : KeyMapping) : KeyMapping :=
  if m.rotationState = .current then { m with rotationState := .cooling, activeTo := some activeTo }
  else m

/-- The second loop of `RotateKeyMapping`: the first mapping of the new key becomes the current
one, and a new mapping is added when there is none. -/
def activateKey (now : Int) (walletID : UUID) (newKeyID : String) :
    List KeyMapping → List KeyMapping
  | [] => [⟨walletID, newKeyID, now, none, .current, now⟩]
  | m :: rest =>
    if m.keyID = newKeyID then
      { m with rotationState := .current, activeTo := none, activeFrom := now } :: rest
    else m :: activateKey now walletID newKeyID rest

/-- `RotateKeyMapping`, at a given time. -/
def rotateKeyMapping (s : Store) (now : Int) (walletID : UUID) (newKeyID : String)
    (cooling : Int) : Except Err Unit × Store :=
  (.ok (), s.putMappings walletID
    (activateKey now walletID newKeyID ((s.mappings walletID).map (coolKey (now + cooling)))))

/-- The body of the loop of `ExpireCooling`. -/
def expireKey (now : Int) (m : KeyMapping) : KeyMapping :=
  if m.rotationState = .cooling && m.activeTo.any (· < now) then
    { m with rotationState := .retired }
  else m

/-- `ExpireCooling`, at a given time. -/
def expireCooling (s : Store) (now : Int) : Except Err Unit × Store :=
  (.ok (), { s with
    keyMappings := s.keyMappings.mapRows
      (fun ring => { ring with mappings := ring.mappings.map (expireKey now) }) fun _ => rfl })

/-! ### Funding requests -/

/-- The open funding requests of a wallet and asset. -/
def openFunding (s : Store) (walletID : UUID) (asset : String) : List FundingRequest :=
  s.fundingReq.select fun f => f.walletID = walletID && f.asset = asset && f.state = .requested

/-- `CreateFundingRequest`. -/
def createFundingRequest (s : Store) (f : FundingRequest) : Except Err Unit × Store :=
  if s.openFunding f.walletID f.asset ≠ [] then
    (.error ⟨"duplicate open funding request", some .errDuplicateFunding⟩, s)
  else (.ok (), { s with fundingReq := s.fundingReq.put f })

/-- `GetOpenFundingRequest`: the open request its loop meets first. -/
def GetOpenFundingRequest (s : Store) (walletID : UUID) (asset : String) :
    Except Err FundingRequest → Prop
  | .ok f => f ∈ s.openFunding walletID asset
  | .error err =>
    s.openFunding walletID asset = [] ∧ err = errNoRows.wrap "no open funding request"

/-- `UpdateFundingState`: an empty batch leaves the batch alone. -/
def updateFundingState (s : Store) (id : UUID) (state : FundingState) (treasuryBatchID : String) :
    Except Err Unit × Store :=
  match s.fundingReq.get id with
  | none => (.error (notFound "funding request"), s)
  | some f =>
    let batch := if treasuryBatchID = "" then f.treasuryBatchID else treasuryBatchID
    (.ok (), { s with fundingReq := s.fundingReq.put { f with state, treasuryBatchID := batch } })

/-! ### The audit outbox -/

/-- `AppendAuditEvent`. -/
def appendAuditEvent (s : Store) (e : AuditOutboxEvent) : Except Err Unit × Store :=
  if s.auditOutbox.any fun ex => ex.eventID = e.eventID then
    (.error ⟨"duplicate audit event", some .errDuplicateAudit⟩, s)
  else (.ok (), { s with auditOutbox := s.auditOutbox ++ [e] })

/-- The order of `ListUndeliveredAuditEvents`. -/
abbrev seqBefore : AuditOutboxEvent → AuditOutboxEvent → Bool := byRank AuditOutboxEvent.seq

/-- `ListUndeliveredAuditEvents`. -/
def listUndeliveredAuditEvents (order : SortSlice seqBefore) (s : Store) (limit : Nat) :
    List AuditOutboxEvent :=
  let out := order.sort (s.auditOutbox.filter fun e => !e.delivered)
  if 0 < limit ∧ limit < out.length then out.take limit else out

/-- The loop of `MarkAuditDelivered`: it changes the first row with the identifier. -/
def markDelivered (id : UUID) : List AuditOutboxEvent → Option (List AuditOutboxEvent)
  | [] => none
  | e :: rest =>
    if e.id = id then
      some ({ e with delivered := true, attempts := wrapInt64 (e.attempts + 1) } :: rest)
    else (markDelivered id rest).map (e :: ·)

/-- `MarkAuditDelivered`. -/
def markAuditDelivered (s : Store) (id : UUID) : Except Err Unit × Store :=
  match markDelivered id s.auditOutbox with
  | none => (.error (notFound "audit event"), s)
  | some auditOutbox => (.ok (), { s with auditOutbox })

/-- `NextAuditSeq`. -/
def nextAuditSeq (s : Store) (walletID : UUID) : Int × Store :=
  let last := ((s.auditSeqCounters.get walletID).map AuditSeqCounter.last).getD 0
  let next := wrapInt64 (last + 1)
  (next, { s with auditSeqCounters := s.auditSeqCounters.put ⟨walletID, next⟩ })

end Store

end WalletManagement
