import WalletManagement.Reports
import WalletManagement.UTXOBatches

/-!
# Callbacks of the chain gateway

`onConfirmationHandler` and `onReorgHandler` of `internal/api/grpc`, from the decoded request on. A
confirmation for a wallet does not name a chain. The handler guesses one from the text of the asset,
and the balance service judges the confirmations by the guess: it books an amount as confirmed when
the guessed chain would, whatever the chain of the wallet is.
-/

namespace WalletManagement

open Interaction

/-! ## The handlers -/

/-- The codes of the errors that the two handlers return. -/
inductive StatusCode where
  | invalidArgument
  | internal
  deriving DecidableEq

/-- `status.Status`. -/
structure Status where
  code : StatusCode
  message : String
  deriving DecidableEq

/-- `OnConfirmationRequest`. -/
structure OnConfirmationRequest where
  txHash : String
  walletID : String
  asset : String
  amount : String
  confirmations : Int
  blockHeight : Int
  eventID : String
  isFinalized : Bool
  withdrawalID : String
  deriving DecidableEq

/-- `OnReorgRequest`. -/
structure OnReorgRequest where
  blockHeight : Int
  walletID : String
  asset : String
  eventID : String
  outpoints : List String
  withdrawalID : String
  deriving DecidableEq

/-- The services of `walletServer` that the handlers call, and `uuid.Parse`. -/
structure WalletServer where
  withdrawals : Service
  balances : BalanceService
  parse : String → Except Err UUID

/-- `chainOfAsset`. -/
def chainOfAsset (asset : String) : Chain :=
  if asset = "btc" ∨ asset = "bitcoin" then .bitcoin
  else if asset = "sol" ∨ asset = "solana" then .solana
  else .ethereum

/-- The event that `onConfirmationHandler` passes on. -/
def OnConfirmationRequest.event (req : OnConfirmationRequest) (wid : UUID) : ConfirmationEvent where
  walletID := wid
  asset := req.asset
  amount := req.amount
  confirmations := req.confirmations
  blockHeight := req.blockHeight
  eventID := req.eventID
  isFinalized := req.isFinalized
  chain := chainOfAsset req.asset

/-- The event that `onReorgHandler` passes on. -/
def OnReorgRequest.event (req : OnReorgRequest) (wid : UUID) : ReorgEvent where
  walletID := wid
  asset := req.asset
  blockHeight := req.blockHeight
  eventID := req.eventID
  outpoints := req.outpoints

namespace WalletServer

variable (srv : WalletServer)

/-- `onConfirmationHandler`. -/
def onConfirmationHandler (req : OnConfirmationRequest) : Prog (Except Status Unit) :=
  if req.withdrawalID ≠ "" then
    match srv.parse req.withdrawalID with
    | .error err => pure (.error ⟨.invalidArgument, "invalid withdrawal id: " ++ err.text⟩)
    | .ok wid => do
      match ← srv.withdrawals.confirm wid req.txHash with
      | .error err => pure (.error ⟨.internal, "confirm: " ++ err.text⟩)
      | .ok () => pure (.ok ())
  else if req.walletID ≠ "" then
    match srv.parse req.walletID with
    | .error err => pure (.error ⟨.invalidArgument, "invalid wallet id: " ++ err.text⟩)
    | .ok wid => do
      match ← srv.balances.applyConfirmationEvent (req.event wid) with
      | .error err => pure (.error ⟨.internal, "apply confirmation: " ++ err.text⟩)
      | .ok () => pure (.ok ())
  else pure (.ok ())

/-- The part of `onReorgHandler` for a wallet. -/
def reorgWallet (req : OnReorgRequest) : Prog (Except Status Unit) :=
  if req.walletID ≠ "" then
    match srv.parse req.walletID with
    | .error err => pure (.error ⟨.invalidArgument, "invalid wallet id: " ++ err.text⟩)
    | .ok wid => do
      match ← srv.balances.applyReorgEvent (req.event wid) with
      | .error err => pure (.error ⟨.internal, "apply reorg: " ++ err.text⟩)
      | .ok () => pure (.ok ())
  else pure (.ok ())

/-- `onReorgHandler`. A withdrawal and a wallet in one request are both handled. -/
def onReorgHandler (req : OnReorgRequest) : Prog (Except Status Unit) :=
  if req.withdrawalID ≠ "" then
    match srv.parse req.withdrawalID with
    | .error err => pure (.error ⟨.invalidArgument, "invalid withdrawal id: " ++ err.text⟩)
    | .ok wid => do
      match ← Service.onReorg wid req.outpoints with
      | .error err => pure (.error ⟨.internal, "withdrawal reorg: " ++ err.text⟩)
      | .ok () => srv.reorgWallet req
  else srv.reorgWallet req

end WalletServer

/-! ## Confirmations -/

section Confirmations

variable {L : Type} {caller : L} {w : World L}

variable {svc : BalanceService} {ev : ConfirmationEvent}

/-- Writing the row of an event succeeds. -/
theorem credit_balances (cur : Balance) : (svc.credit ev cur).Wlp (step caller)
    (fun result w' => result = .ok () ∧
      w'.store.balances = w.store.balances.put (svc.credited ev cur)) w := by
  intro answer w₁ moved
  obtain ⟨_, rfl, stored⟩ := store_of_step moved
  have written : w₁.store.balances = w.store.balances.put (svc.credited ev cur) := by
    rw [stored]
    rfl
  change (runIf svc.audit _ >>= fun _ => _).Wlp _ _ _
  refine Program.Wlp.bind (runIf_wlp (fun _ => written) ?_) fun _ w₂ here => ⟨rfl, here⟩
  rintro - answer w₂ rfl
  exact written

/-- A new event is recorded and its amount added to the row of its wallet and asset. -/
theorem applyConfirmationEvent_fresh (fresh : ev.recorded.key ∉ w.store.balanceEvents) :
    (svc.applyConfirmationEvent ev).Wlp (step caller) (fun result w' => result = .ok () ∧
      w'.store.balances = w.store.balances.put
        (svc.credited ev (w.store.currentBalance ev.walletID ev.asset))) w := by
  have recorded (now : Int) : StoreOp.exec (.recordBalanceEvent ev.recorded) now w.store =
      (.ok (), w.store.withEvent ev) := if_neg fresh
  rintro id w₁ rfl
  intro answer w₂ moved
  obtain ⟨now, answered, stored⟩ := store_of_step moved
  obtain rfl : answer = .ok () := answered.trans (congrArg Prod.fst (recorded now))
  have kept : w₂.store.balances = w.store.balances := by
    rw [stored.trans (congrArg Prod.snd (recorded now))]
    rfl
  change (inTx (svc.creditTx ev) >>= fun _ => _).Wlp _ _ _
  have credited : (inTx (svc.creditTx ev)).Wlp (step caller) (fun result w' => result = .ok () ∧
      w'.store.balances = w.store.balances.put
        (svc.credited ev (w.store.currentBalance ev.walletID ev.asset))) w₂ := by
    refine @inTx_wlp L caller _ w₂ (fun s => s.balances = _) fun w₃ start => ?_
    intro answer w₄ moved
    obtain ⟨_, rfl, read⟩ := store_of_step moved
    have same : w₄.store.balances = w.store.balances := by
      rw [read, ← kept, ← start]
      rfl
    rw [← same]
    simp only [StoreOp.exec, Store.getBalance, Store.currentBalance, start, kept]
    cases w.store.balances.get (balanceKey ev.walletID ev.asset) with
    | none => exact credit_balances _
    | some cur => exact credit_balances _
  refine credited.bind fun result w₃ here => ?_
  obtain ⟨rfl, written⟩ := here
  refine Program.Wlp.bind (runIf_wlp (fun _ => written) ?_) fun _ w₄ here => ⟨rfl, here⟩
  rintro - answer w₄ rfl
  exact written

/-- On this request the handler applies a new balance event for a wallet. -/
structure AppliesEvent (srv : WalletServer) (req : OnConfirmationRequest) (wid : UUID) (s : Store) :
    Prop where
  forWallet : req.withdrawalID = ""
  named : req.walletID ≠ ""
  parsed : srv.parse req.walletID = .ok wid
  fresh : (req.event wid).recorded.key ∉ s.balanceEvents

/-- The handler books the event of the request, and returns no error. -/
theorem onConfirmationHandler_applies {srv : WalletServer} {req : OnConfirmationRequest}
    {wid : UUID} (applies : AppliesEvent srv req wid w.store) :
    (srv.onConfirmationHandler req).Wlp (step caller) (fun result w' => result = .ok () ∧
      w'.store.balances = w.store.balances.put
        (srv.balances.credited (req.event wid) (w.store.currentBalance wid req.asset))) w := by
  unfold WalletServer.onConfirmationHandler
  rw [if_neg (not_not.mpr applies.forWallet), if_pos applies.named]
  simp only [applies.parsed]
  refine (applyConfirmationEvent_fresh applies.fresh).bind fun result w' here => ?_
  obtain ⟨rfl, written⟩ := here
  exact ⟨rfl, written⟩

/-- The confirmations of a request are enough for a chain. -/
def DeepEnough (svc : BalanceService) (chain : Chain) (req : OnConfirmationRequest) : Prop :=
  (chain = .solana ∧ req.isFinalized = true) ∨
    (chain = .bitcoin ∧ svc.confirmationsBTC ≤ req.confirmations) ∨
    (chain.isEVM = true ∧ svc.confirmationsEVM ≤ req.confirmations)

instance (svc : BalanceService) (chain : Chain) (req : OnConfirmationRequest) :
    Decidable (DeepEnough svc chain req) :=
  inferInstanceAs (Decidable (_ ∨ _ ∨ _))

/-- The three chains that an asset can be taken for. -/
theorem chainOfAsset_cases (asset : String) :
    chainOfAsset asset = .bitcoin ∨ chainOfAsset asset = .solana ∨
      chainOfAsset asset = .ethereum := by
  unfold chainOfAsset
  split
  · exact .inl rfl
  · split
    · exact .inr (.inl rfl)
    · exact .inr (.inr rfl)

/-- The service judges by the rule of the chain that the handler guesses. -/
theorem isConfirmed_event (svc : BalanceService) (req : OnConfirmationRequest) (wid : UUID) :
    svc.isConfirmed (req.event wid) = true ↔ DeepEnough svc (chainOfAsset req.asset) req := by
  have final : (req.event wid).isFinalized = req.isFinalized := rfl
  have count : (req.event wid).confirmations = req.confirmations := rfl
  have chain : (req.event wid).chain = chainOfAsset req.asset := rfl
  rcases chainOfAsset_cases req.asset with guess | guess | guess
  · simp [BalanceService.isConfirmed, BalanceService.threshold, DeepEnough, count, chain, guess,
      show Chain.bitcoin ≠ Chain.solana by decide, Chain.not_isEVM_bitcoin]
  · simp [BalanceService.isConfirmed, DeepEnough, final, chain, guess,
      show Chain.solana ≠ Chain.bitcoin by decide, show Chain.solana.isEVM = false by decide]
  · simp [BalanceService.isConfirmed, BalanceService.threshold, DeepEnough, count, chain, guess,
      show Chain.ethereum ≠ Chain.solana by decide, show Chain.ethereum ≠ Chain.bitcoin by decide,
      show Chain.ethereum.isEVM = true by decide]

/-- The amount of the request goes to the confirmed amount of the wallet and asset if the rule of
the wallet's chain holds, and to the pending amount if it does not. -/
def BooksByRule (svc : BalanceService) (req : OnConfirmationRequest) (wid : UUID) (s s' : Store) :
    Prop :=
  ∀ wallet, s.wallets.get wid = some wallet → wallet.chain.valid = true →
    svc.columns s' wid req.asset = svc.columns s wid req.asset +
      if DeepEnough svc wallet.chain req then (svc.dec.amount req.amount, 0)
      else (0, svc.dec.amount req.amount)

/-- The rule of the wallet's chain and the rule of the chain that the asset is taken for agree on
the request. -/
def RulesAgree (svc : BalanceService) (req : OnConfirmationRequest) (wid : UUID)
    (s : Store) : Prop :=
  ∀ wallet, s.wallets.get wid = some wallet → wallet.chain.valid = true →
    (DeepEnough svc wallet.chain req ↔ DeepEnough svc (chainOfAsset req.asset) req)

/-- The asset is taken for the chain of the wallet, or both are EVM chains. -/
def GuessFits (req : OnConfirmationRequest) (wallet : Wallet) : Prop :=
  chainOfAsset req.asset = wallet.chain ∨
    (chainOfAsset req.asset).isEVM = true ∧ wallet.chain.isEVM = true

/-- Where the guess fits, the rules agree on every request. -/
theorem rulesAgree_of_fits {req : OnConfirmationRequest} {wid : UUID} {s : Store}
    (fits : ∀ wallet, s.wallets.get wid = some wallet → GuessFits req wallet) :
    RulesAgree svc req wid s := by
  intro wallet found _
  rcases fits wallet found with same | ⟨guessed, evm⟩
  · rw [same]
  · have other {chain : Chain} (evm : chain.isEVM = true) :
        chain ≠ .solana ∧ chain ≠ .bitcoin := by
      constructor
      · rintro rfl
        exact absurd evm (by decide)
      · rintro rfl
        exact absurd evm (by decide)
    simp [DeepEnough, guessed, evm, other guessed, other evm]

/-- An amount is split the same way by two conditions that agree, or if it is zero. -/
theorem split_amount_eq_iff {p q : Prop} [Decidable p] [Decidable q] {amount : ℚ} :
    (if p then (amount, (0 : ℚ)) else (0, amount)) = (if q then (amount, 0) else (0, amount)) ↔
      (p ↔ q) ∨ amount = 0 := by
  by_cases first : p <;> by_cases second : q <;> simp [first, second, eq_comm]

/-- The handler books by the rule of the wallet's chain exactly if that rule and the rule of the
chain that the asset is taken for agree on the request, or the amount is zero. They agree on every
request if the asset is taken for the chain of the wallet, or both are EVM chains. -/
theorem confirmation_depth_iff {srv : WalletServer} {req : OnConfirmationRequest} {wid : UUID}
    {result : Except Status Unit} {w' : World L} (lawful : srv.balances.dec.Lawful)
    (applies : AppliesEvent srv req wid w.store)
    (execution : (srv.onConfirmationHandler req).Exec (step caller) w result w') :
    (BooksByRule srv.balances req wid w.store w'.store ↔
      RulesAgree srv.balances req wid w.store ∨ srv.balances.dec.amount req.amount = 0) ∧
    ((∀ wallet, w.store.wallets.get wid = some wallet → GuessFits req wallet) →
      RulesAgree srv.balances req wid w.store) := by
  refine ⟨?_, rulesAgree_of_fits⟩
  obtain ⟨-, written⟩ := (Program.wlp_iff_exec _ _ _).mp (onConfirmationHandler_applies applies)
    result w' execution
  have row : w'.store.currentBalance wid req.asset =
      srv.balances.credited (req.event wid) (w.store.currentBalance wid req.asset) := by
    rw [Store.currentBalance_put written, if_pos ⟨rfl, rfl⟩]
  -- what the handler books, by the rule of the guess
  have booked : srv.balances.columns w'.store wid req.asset =
      srv.balances.columns w.store wid req.asset +
        if DeepEnough srv.balances (chainOfAsset req.asset) req then
          (srv.balances.dec.amount req.amount, 0)
        else (0, srv.balances.dec.amount req.amount) := by
    have amount : (req.event wid).amount = req.amount := rfl
    simp only [BalanceService.columns, row, Books.credited_confirmed lawful,
      Books.credited_pending lawful, isConfirmed_event, amount]
    split <;> simp
  constructor
  · intro byRule
    by_contra neither
    obtain ⟨disagree, some⟩ := not_or.mp neither
    refine disagree fun wallet found valid => ?_
    have same := byRule wallet found valid
    rw [booked, add_right_inj, split_amount_eq_iff] at same
    exact (same.resolve_right some).symm
  · intro condition wallet found valid
    rw [booked, add_right_inj, split_amount_eq_iff]
    exact condition.imp_left fun agree => (agree wallet found valid).symm

end Confirmations

/-! ### Worked callbacks -/

/-- A server over the sample service and integer amounts, that reads every wallet as the Bitcoin
wallet. -/
def sampleHandlers : WalletServer where
  withdrawals := sampleService
  balances := sampleLedger
  parse _ := .ok sampleBTCWallet.id

/-- A deposit of 100 to the Bitcoin wallet with six confirmations. -/
def sampleCallback (asset : String) : OnConfirmationRequest where
  txHash := ""
  walletID := sampleBTCWallet.id.string
  asset
  amount := "100"
  confirmations := 6
  blockHeight := 7
  eventID := "deposit"
  isFinalized := false
  withdrawalID := ""

/-- The two wallets, before any callback. -/
def beforeCallbacks : World Unit := { store := sampleStart.store }

/-- The handler's run for that deposit. -/
def afterCallback (asset : String) : Except Status Unit × World Unit :=
  (sampleHandlers.onConfirmationHandler (sampleCallback asset)).run (Script.handle {} ())
    beforeCallbacks

/-- With the asset `btc` six confirmations are enough. -/
theorem confirmation_depth_of_btc :
    BooksByRule sampleLedger (sampleCallback "btc") sampleBTCWallet.id beforeCallbacks.store
        (afterCallback "btc").2.store ∧
      sampleLedger.columns (afterCallback "btc").2.store sampleBTCWallet.id "btc" = (100, 0) := by
  have applies : AppliesEvent sampleHandlers (sampleCallback "btc") sampleBTCWallet.id
      beforeCallbacks.store := ⟨rfl, by decide +kernel, rfl, by decide⟩
  have execution := Program.exec_run (Script.handle_follows {} ())
    (sampleHandlers.onConfirmationHandler (sampleCallback "btc")) beforeCallbacks
  have depth := confirmation_depth_iff integerDecimals_lawful applies execution
  refine ⟨depth.1.mpr (.inl (depth.2 ?_)), by decide +kernel⟩
  intro wallet found
  have known : beforeCallbacks.store.wallets.get sampleBTCWallet.id = some sampleBTCWallet := by
    decide +kernel
  rw [known] at found
  cases found
  exact .inl (by decide +kernel)

/-- With the asset `BTC`, the deposit that is deep enough for Bitcoin is booked as pending: it is
judged by the twelve confirmations of an EVM chain. -/
theorem btc_judged_as_evm :
    (∃ result, (sampleHandlers.onConfirmationHandler (sampleCallback "BTC")).Exec (step ())
      beforeCallbacks result (afterCallback "BTC").2) ∧
    AppliesEvent sampleHandlers (sampleCallback "BTC") sampleBTCWallet.id beforeCallbacks.store ∧
    beforeCallbacks.store.wallets.get sampleBTCWallet.id = some sampleBTCWallet ∧
    DeepEnough sampleLedger sampleBTCWallet.chain (sampleCallback "BTC") ∧
    sampleLedger.columns (afterCallback "BTC").2.store sampleBTCWallet.id "BTC" = (0, 100) ∧
    ¬BooksByRule sampleLedger (sampleCallback "BTC") sampleBTCWallet.id beforeCallbacks.store
      (afterCallback "BTC").2.store := by
  have execution := Program.exec_run (Script.handle_follows {} ())
    (sampleHandlers.onConfirmationHandler (sampleCallback "BTC")) beforeCallbacks
  have known : beforeCallbacks.store.wallets.get sampleBTCWallet.id = some sampleBTCWallet := by
    decide +kernel
  refine ⟨⟨_, execution⟩, ⟨rfl, by decide +kernel, rfl, by decide⟩, known, by decide +kernel,
    by decide +kernel, fun byRule => ?_⟩
  exact absurd (byRule sampleBTCWallet known (by decide +kernel)) (by decide +kernel)

/-! ## Reorganisations -/

section Reorganisations

variable {L : Type} {caller : L} {w : World L} {srv : WalletServer} {req : OnReorgRequest}

/-- What a restoration has freed, another one leaves as it is. -/
theorem lockState_restored_again {s s₁ : Store} {now : Int} {outpoints : List String}
    (restored : s₁.utxos = (s.restoreUTXOs now outpoints).2.utxos) (again : Int) (op : String) :
    (s₁.restoreUTXOs again outpoints).2.lockState op =
      (s.restoreUTXOs now outpoints).2.lockState op := by
  have states (op : String) : s₁.lockState op =
      if op ∈ Store.reached s.utxos outpoints then some .free else s.lockState op := by
    rw [lockState_congr restored, Store.lockState_restored]
  have there (op : String) : (s₁.utxos.get op).isSome = (s.utxos.get op).isSome := by
    have both := congrArg Option.isSome (states op)
    rw [Store.lockState, Option.isSome_map] at both
    rw [both]
    split
    · exact (Store.known_reached s.utxos outpoints op ‹_›).symm
    · rw [Store.lockState, Option.isSome_map]
  have same : Store.reached s₁.utxos outpoints = Store.reached s.utxos outpoints := by
    rw [Store.reached, Store.reached, funext there]
  rw [Store.lockState_restored, Store.lockState_restored, same, states]
  split <;> rfl

/-- The part for a wallet restores outpoints. -/
def OnReorgRequest.restoresWallet (req : OnReorgRequest) (srv : WalletServer) : Bool :=
  req.walletID ≠ "" && (srv.parse req.walletID).isOk && srv.balances.utxoRestore

theorem reorgWallet_restores : (srv.reorgWallet req).Wlp (step caller) (fun _ w' =>
    RestoresIf (req.restoresWallet srv) req.outpoints w.store w'.store) w := by
  unfold WalletServer.reorgWallet OnReorgRequest.restoresWallet
  by_cases named : req.walletID ≠ ""
  · rw [if_pos named, decide_eq_true named]
    cases srv.parse req.walletID with
    | error err => exact .of_utxos 0 rfl
    | ok wid =>
      refine applyReorgEvent_restores.bind fun result w' restored => ?_
      cases result with
      | error err => exact restored
      | ok _ => exact restored
  · rw [if_neg named, decide_eq_false named]
    exact .of_utxos 0 rfl

/-- The request makes `onReorgHandler` restore outpoints: for the withdrawal it names, and for a
wallet if it names no withdrawal. -/
def OnReorgRequest.restores (req : OnReorgRequest) (srv : WalletServer) (s : Store) : Bool :=
  if req.withdrawalID ≠ "" then
    match srv.parse req.withdrawalID with
    | .error _ => false
    | .ok wid => (s.withdrawals.get wid).isSome
  else req.restoresWallet srv

/-- A request that names a withdrawal and a wallet restores twice, which does what restoring once
does. -/
theorem onReorgHandler_restores : (srv.onReorgHandler req).Wlp (step caller) (fun _ w' =>
    RestoresIf (req.restores srv w.store) req.outpoints w.store w'.store) w := by
  unfold WalletServer.onReorgHandler OnReorgRequest.restores
  by_cases named : req.withdrawalID ≠ ""
  · rw [if_pos named, if_pos named]
    cases srv.parse req.withdrawalID with
    | error err => exact .of_utxos 0 rfl
    | ok wid =>
      have first := (Program.wlp_iff_exec _ _ _).mpr fun result w₁ execution =>
        @onReorg_exec L caller w w₁ wid req.outpoints result execution
      dsimp only
      refine first.bind fun result w₁ here => ?_
      rcases here with
        ⟨unknown, ⟨err, rfl⟩, store⟩ | ⟨there, now, ⟨err, -, rfl, store⟩ | ⟨-, rfl, utxos⟩⟩
      · rw [unknown]
        exact .of_utxos 0 (congrArg Store.utxos store)
      · rw [there]
        exact .of_utxos now (congrArg Store.utxos store)
      · rw [there]
        refine reorgWallet_restores.mono fun _ w' ⟨again, restored⟩ => ⟨now, fun op => ?_⟩
        rw [restored op]
        cases req.restoresWallet srv with
        | false => exact lockState_congr utxos op
        | true => exact lockState_restored_again utxos again op
  · rw [if_neg named, if_neg named]
    exact reorgWallet_restores

/-- A reorganisation callback changes the lock state of spent outpoints only, exactly if no outpoint
it restores is locked. -/
theorem onReorgHandler_frees_iff (caller : L) (w : World L) (srv : WalletServer)
    (req : OnReorgRequest) :
    (∀ result w', (srv.onReorgHandler req).Exec (step caller) w result w' →
        FreesOnlySpent w.store w'.store) ↔
      (req.restores srv w.store = true → w.store.NoneLocked req.outpoints) :=
  freesOnlySpent_iff onReorgHandler_restores

end Reorganisations

end WalletManagement
