import WalletManagement.SagaOutcome
import WalletManagement.WalletLifecycle

/-!
# Which wallets sign

`Create` refuses a wallet that is not active, and `ConstructAndSign`, which spends, does not look at
the state of the wallet again. Between the two, `SetState` can pause or retire the wallet. Runs of
complete calls of the three operations sign for active wallets only when no wallet leaves the active
state while one of its withdrawals is whitelisted.
-/

namespace WalletManagement

open Interaction Data

/-! ## Runs of the two services -/

/-- The calls that create and sign withdrawals and that set the state of wallets. -/
inductive ManagedCall where
  | setState (id : UUID) (state : String)
  | create (req : CreateRequest)
  | constructAndSign (id : UUID)
  deriving DecidableEq

/-- A complete call. -/
def Performs (wallets : WalletService) (svc : Service) :
    ManagedCall → World SagaCall → World SagaCall → Prop
  | .setState id state, w, w' => ∃ result s',
      (wallets.setState id state).Exec walletStep w.store result s' ∧ w' = { w with store := s' }
  | .create req, w, w' =>
    ∃ result, (svc.body (.create req)).Exec (step (.create req)) w result w'
  | .constructAndSign id, w, w' =>
    ∃ result, (svc.body (.constructAndSign id)).Exec (step (.constructAndSign id)) w result w'

/-- One complete call that the guard admits in the state before it. -/
def ManagedStep (wallets : WalletService) (svc : Service)
    (guard : ManagedCall → World SagaCall → Prop) (w w' : World SagaCall) : Prop :=
  ∃ call, guard call w ∧ Performs wallets svc call w w'

/-- Any number of complete calls, one after the other. -/
abbrev ManagedRuns (wallets : WalletService) (svc : Service)
    (guard : ManagedCall → World SagaCall → Prop) : World SagaCall → World SagaCall → Prop :=
  Relation.ReflTransGen (ManagedStep wallets svc guard)

/-- The signer was called between two states: the later log has more calls of it. -/
def Signs (w w' : World SagaCall) : Prop :=
  w.log.countP Entry.signs < w'.log.countP Entry.signs

/-- A wallet that is active and is to be paused or retired has no whitelisted withdrawal. -/
def Store.Settled (s : Store) (id : UUID) (text : String) : Prop :=
  ∀ wallet target, s.wallets.get id = some wallet → wallet.state = .active →
    WalletState.ofText text = some target → target ≠ .active →
    ∀ wr ∈ s.withdrawals.rows, wr.walletID = id → wr.state ≠ .whitelisted

/-- No active wallet is paused or retired while one of its withdrawals is whitelisted. -/
def SettledFirst : ManagedCall → World SagaCall → Prop
  | .setState id state, w => w.store.Settled id state
  | _, _ => True

/-- The wallet of every whitelisted withdrawal is active. -/
def Store.Covered (s : Store) : Prop :=
  ∀ wr ∈ s.withdrawals.rows, wr.state = .whitelisted →
    ∃ wallet, s.wallets.get wr.walletID = some wallet ∧ wallet.state = .active

section Runs

variable {wallets : WalletService} {svc : Service}

/-! ## What the calls do -/

/-- `SetState` writes the state it was called with to its wallet, or nothing. -/
theorem setState_ends (id : UUID) (text : String) (s : Store) :
    (wallets.setState id text).Wlp walletStep (fun _ s' => s' = s ∨
      ∃ state, WalletState.ofText text = some state ∧ s' = (s.updateWalletState id state).2) s := by
  unfold WalletService.setState
  cases parsed : WalletState.ofText text with
  | none => exact .inl rfl
  | some state =>
    refine .perform_bind fun answer s' moved => ?_
    obtain ⟨-, rfl⟩ := moved
    cases answer with
    | error err => exact .inl rfl
    | ok w =>
      by_cases refused : w.state = .retired ∧ state ≠ .retired
      · simp only [if_pos refused]
        exact .inl rfl
      · simp only [if_neg refused]
        refine .perform_bind fun answer s' moved => ?_
        obtain ⟨-, rfl⟩ := moved
        cases answer with
        | error err => exact .inr ⟨state, rfl, rfl⟩
        | ok _ =>
          dsimp only
          split
          · refine .perform_bind fun _ s' moved => ?_
            obtain rfl := moved
            exact .inr ⟨state, rfl, rfl⟩
          · exact .inr ⟨state, rfl, rfl⟩

/-- What `Create` does to the rows: nothing, or it writes one row of an active wallet. -/
def Opened (s : Store) (req : CreateRequest) (s' : Store) : Prop :=
  s'.wallets = s.wallets ∧ (s'.withdrawals = s.withdrawals ∨
    ∃ row wallet, row.walletID = req.walletID ∧ s.wallets.get req.walletID = some wallet ∧
      wallet.state = .active ∧ s'.withdrawals = s.withdrawals.put row)

/-- `Create` writes rows of active wallets only. -/
theorem create_opens (req : CreateRequest) (w : World SagaCall) :
    (svc.create req).Wlp (step (.create req)) (fun _ w' => Opened w.store req w'.store) w := by
  have any (entry : Entry SagaCall) (_ : entry.Routine) : True := trivial
  have nothing (w₁ : World SagaCall) (here : Reaches (fun _ => True) w w.store w₁) :
      Opened w.store req w₁.store := by
    rw [here.store]
    exact ⟨rfl, .inl rfl⟩
  have start : Reaches (fun _ => True) w w.store w := .refl w
  refine start.getWallet_bind any (fun _ => nothing) fun wallet w₁ owned here => ?_
  dsimp only
  split
  · exact nothing w₁ here
  rename_i unretired
  split
  · exact nothing w₁ here
  rename_i unpaused
  have active : wallet.state = .active := by
    cases state : wallet.state with
    | active => rfl
    | paused => exact absurd state unpaused
    | retired => exact absurd state unretired
  refine here.ask_bind (fun _ _ _ h => h) (fun _ => trivial) fun id w₂ here => ?_
  refine here.store_bind (fun _ => trivial) fun _ w₃ here => ?_
  simp only [StoreOp.exec] at here ⊢
  rcases w.store.createWithdrawal_cases (req.withdrawal id) with
    ⟨⟨err, failed⟩, same⟩ | ⟨created, -, stored⟩
  · rw [failed]
    rw [same] at here
    exact nothing w₃ here
  rw [created]
  refine (here.emit any _ _).bind fun _ w₄ here => ?_
  refine here.ask_bind (fun _ _ _ h => h) (fun _ => trivial) fun answer w₅ here => ?_
  refine (here.emit any _ _).bind fun _ w₆ here => ?_
  rw [stored] at here
  -- the row just created is there, so its state is written over it
  have update (state : WithdrawalState) (reason decision : String) (inflight : Finset String)
      (w₇ : World SagaCall) (wrote : w₇.store = (Store.updateWithdrawalState { w.store with
        withdrawals := w.store.withdrawals.put (req.withdrawal id)
        inflightWithdrawals := inflight } id state reason "" decision).2) :
      Opened w.store req w₇.store := by
    have found : (w.store.withdrawals.put (req.withdrawal id)).get id =
        some (req.withdrawal id) := Table.get_put_self w.store.withdrawals (req.withdrawal id)
    rw [wrote, Store.updateWithdrawalState_found found]
    exact ⟨rfl, .inr ⟨Store.setState state reason "" decision (req.withdrawal id), wallet, rfl,
      owned, active, Table.put_put _ rfl⟩⟩
  cases Service.approval answer with
  | none =>
    refine here.store_bind (fun _ => trivial) fun _ w₇ here => ?_
    exact update _ _ _ _ _ here.store
  | some dec =>
    refine here.store_bind (fun _ => trivial) fun _ w₇ here => ?_
    split <;> exact update _ _ _ _ _ here.store

/-- Without a call of the signer in the log there was none. -/
theorem not_signs_of_reaches {w w' : World SagaCall} {s : Store}
    (here : Reaches (fun entry => entry.signs = false) w s w') : ¬ Signs w w' := by
  obtain ⟨-, fresh, log, silent⟩ := here
  have none : fresh.countP Entry.signs = 0 :=
    List.countP_eq_zero.mpr fun entry member => by simp [silent entry member]
  rw [Signs, log, List.countP_append, none]
  omega

/-- `ConstructAndSign` calls the signer only for a whitelisted withdrawal whose wallet is there. -/
theorem constructAndSign_signs (id : UUID) (w : World SagaCall) :
    (svc.constructAndSign id).Wlp (step (.constructAndSign id)) (fun _ w' => Signs w w' →
      ∃ wr wallet, w.store.Finds id wr wallet ∧ wr.state = .whitelisted) w := by
  have start : Reaches (fun entry => entry.signs = false) w w.store w := .refl w
  refine start.store_bind (fun _ => rfl) fun _ w₁ here => ?_
  simp only [StoreOp.exec, Store.getWithdrawal] at here ⊢
  cases found : w.store.withdrawals.get id with
  | none => exact fun signs => absurd signs (not_signs_of_reaches here)
  | some wr =>
    simp only [Store.found]
    by_cases whitelisted : wr.state = .whitelisted
    · rw [if_neg (not_not_intro whitelisted)]
      refine here.store_bind (fun _ => rfl) fun _ w₂ here => ?_
      simp only [StoreOp.exec, Store.getWallet] at here ⊢
      cases owned : w.store.wallets.get wr.walletID with
      | none => exact fun signs => absurd signs (not_signs_of_reaches here)
      | some wallet =>
        -- from here on nothing is left to show about what is called
        exact (Program.wlp_iff_exec _ _ _).mpr fun _ _ _ _ =>
          ⟨wr, wallet, ⟨found, owned⟩, whitelisted⟩
    · rw [if_pos whitelisted]
      exact fun signs => absurd signs (not_signs_of_reaches here)

/-! ## The invariant -/

/-- `SetState` keeps whitelisted withdrawals covered when none of them is in its way. -/
theorem Store.Covered.setState {s s' : Store} {id : UUID} {text : String} (covered : s.Covered)
    (settled : s.Settled id text)
    (ends : s' = s ∨ ∃ state, WalletState.ofText text = some state ∧
      s' = (s.updateWalletState id state).2) : s'.Covered := by
  rcases ends with rfl | ⟨state, parsed, rfl⟩
  · exact covered
  intro wr member whitelisted
  have same : (s.updateWalletState id state).2.withdrawals = s.withdrawals := by
    unfold Store.updateWalletState
    split <;> rfl
  rw [same] at member
  obtain ⟨wallet, found, active⟩ := covered wr member whitelisted
  by_cases here : wr.walletID = id
  · rw [here] at found ⊢
    refine ⟨_, Store.updateWalletState_get s found state, ?_⟩
    by_contra left
    exact settled wallet state found active parsed left wr member here whitelisted
  · exact ⟨wallet, (Store.updateWalletState_get_of_ne s state (Ne.symm here)).trans found, active⟩

/-- Writing a row keeps whitelisted withdrawals covered when the row is. -/
theorem Store.Covered.put {s s' : Store} {row : WithdrawalRequest} (covered : s.Covered)
    (wallets : s'.wallets = s.wallets) (withdrawals : s'.withdrawals = s.withdrawals.put row)
    (written : row.state = .whitelisted →
      ∃ wallet, s.wallets.get row.walletID = some wallet ∧ wallet.state = .active) :
    s'.Covered := by
  intro wr member whitelisted
  rw [withdrawals] at member
  rw [wallets]
  rcases Table.mem_put.mp member with rfl | ⟨member, -⟩
  · exact written whitelisted
  · exact covered wr member whitelisted

/-- `Create` keeps whitelisted withdrawals covered. -/
theorem Store.Covered.create {s s' : Store} {req : CreateRequest} (covered : s.Covered)
    (opened : Opened s req s') : s'.Covered := by
  obtain ⟨wallets, withdrawals | ⟨row, wallet, owner, owned, active, withdrawals⟩⟩ := opened
  · intro wr member
    rw [withdrawals] at member
    rw [wallets]
    exact covered wr member
  · exact covered.put wallets withdrawals fun _ => ⟨wallet, owner ▸ owned, active⟩

/-- `ConstructAndSign` keeps whitelisted withdrawals covered. -/
theorem Store.Covered.constructAndSign {s s' : Store} {id : UUID} {result : Except Err Unit}
    (covered : s.Covered) (outcome : Outcome svc s (.constructAndSign id) result s') :
    s'.Covered := by
  cases outcome with
  | refused => exact covered
  | unselected err =>
    intro wr
    rw [(s.rollbackPendingNonce_frame ..).1, (s.rollbackPendingNonce_frame ..).2.2]
    exact covered wr
  | constructed finds whitelisted reservation signing =>
    obtain ⟨row, constructed⟩ := signing.constructed reservation finds.self
    refine covered.put constructed.wallets constructed.withdrawals fun _ => ?_
    rw [constructed.walletID]
    exact covered _ (Table.mem_of_get finds.withdrawal) whitelisted

/-- In every run of complete calls that pause or retire no active wallet while one of its
withdrawals is whitelisted, the wallet of every whitelisted withdrawal is active. -/
theorem covered_of_runs {start w : World SagaCall}
    (runs : ManagedRuns wallets svc SettledFirst start w)
    (initial : ∀ wr ∈ start.store.withdrawals.rows, wr.state ≠ .whitelisted) : w.store.Covered := by
  induction runs with
  | refl => exact fun wr member whitelisted => absurd whitelisted (initial wr member)
  | @tail w₁ w₂ _ last covered =>
    obtain ⟨call, settled, performed⟩ := last
    cases call with
    | setState id text =>
      obtain ⟨result, s', execution, rfl⟩ := performed
      exact covered.setState settled
        ((Program.wlp_iff_exec _ _ _).mp (setState_ends id text w₁.store) result s' execution)
    | create req =>
      obtain ⟨result, execution⟩ := performed
      have opens : (svc.body (.create req)).Wlp (step (.create req))
          (fun _ w' => Opened w₁.store req w'.store) w₁ :=
        (create_opens req w₁).bind fun _ _ opened => opened
      exact covered.create ((Program.wlp_iff_exec _ _ _).mp opens result w₂ execution)
    | constructAndSign id =>
      obtain ⟨result, execution⟩ := performed
      obtain ⟨s', outcome, reaches⟩ :=
        (Program.wlp_iff_exec _ _ _).mp (constructAndSign_ends id) result w₂ execution
      rw [reaches.store]
      exact covered.constructAndSign outcome

/-- In every run of complete calls of `SetState`, `Create` and `ConstructAndSign` from a store
without whitelisted withdrawals, in which no active wallet is paused or retired while one of its
withdrawals is whitelisted: a `ConstructAndSign` that calls the signer finds the wallet of its
withdrawal stored as `ACTIVE`. -/
theorem only_active_wallets_sign {start w w' : World SagaCall} {id : UUID}
    (initial : ∀ wr ∈ start.store.withdrawals.rows, wr.state ≠ .whitelisted)
    (runs : ManagedRuns wallets svc SettledFirst start w)
    (called : Performs wallets svc (.constructAndSign id) w w') (signs : Signs w w') :
    ∃ wr wallet, w.store.Finds id wr wallet ∧ wallet.state = .active := by
  obtain ⟨result, execution⟩ := called
  obtain ⟨wr, wallet, finds, whitelisted⟩ :=
    (Program.wlp_iff_exec _ _ _).mp (constructAndSign_signs id w) result w' execution signs
  obtain ⟨wallet', owned, active⟩ :=
    covered_of_runs runs initial wr (Table.mem_of_get finds.withdrawal) whitelisted
  rw [finds.wallet] at owned
  cases owned
  exact ⟨wr, wallet, finds, active⟩

end Runs

/-! ## A wallet paused too late -/

/-- The state after a complete call, with the answers of its collaborators. -/
def managedTurn (wallets : WalletService) (svc : Service) (w : World SagaCall) :
    ManagedCall × Script → World SagaCall
  | (.setState id state, _) =>
    { w with store := ((wallets.setState id state).run handleWallet w.store).2 }
  | (.create req, script) =>
    ((svc.body (.create req)).run (script.handle (.create req)) w).2
  | (.constructAndSign id, script) =>
    ((svc.body (.constructAndSign id)).run (script.handle (.constructAndSign id)) w).2

theorem managedTurn_performs (wallets : WalletService) (svc : Service) (w : World SagaCall)
    (call : ManagedCall) (script : Script) :
    Performs wallets svc call w (managedTurn wallets svc w (call, script)) := by
  cases call with
  | setState id state => exact ⟨_, _, Program.exec_run handleWallet_follows _ _, rfl⟩
  | create req => exact ⟨_, Program.exec_run (script.handle_follows (SagaCall.create req)) _ _⟩
  | constructAndSign id =>
    exact ⟨_, Program.exec_run (script.handle_follows (SagaCall.constructAndSign id)) _ _⟩

/-- The wallet service of the worked runs. -/
def sampleWallets : WalletService := ⟨sampleLibraries.quote, true⟩

/-- A withdrawal of the Ethereum wallet is created and whitelisted. -/
def sampleWhitelisted : World SagaCall :=
  managedTurn sampleWallets sampleService sampleStart
    (.create (sampleEVMRequest "ETH"), accepting 10)

/-- Then the wallet is paused. -/
def samplePaused : World SagaCall :=
  managedTurn sampleWallets sampleService sampleWhitelisted
    (.setState sampleEVMWallet.id "PAUSED", accepting 10)

/-- The withdrawal of the paused wallet is signed. -/
theorem paused_wallet_signs : ∃ w w',
    ManagedRuns sampleWallets sampleService (fun _ _ => True) sampleStart w ∧
      Performs sampleWallets sampleService (.constructAndSign (sampleID 10)) w w' ∧ Signs w w' ∧
      (w.store.withdrawals.get (sampleID 10)).map WithdrawalRequest.walletID =
        some sampleEVMWallet.id ∧
      (w.store.wallets.get sampleEVMWallet.id).map Wallet.state = some .paused := by
  have created : ManagedStep sampleWallets sampleService (fun _ _ => True) sampleStart
      sampleWhitelisted := ⟨_, trivial, managedTurn_performs ..⟩
  have paused : ManagedStep sampleWallets sampleService (fun _ _ => True) sampleWhitelisted
      samplePaused := ⟨_, trivial, managedTurn_performs ..⟩
  refine ⟨samplePaused, managedTurn sampleWallets sampleService samplePaused
    (.constructAndSign (sampleID 10), accepting 10), .tail (.single created) paused,
    managedTurn_performs .., ?_, ?_, ?_⟩
  · unfold Signs
    decide +kernel
  · decide +kernel
  · decide +kernel

/-- The withdrawal of the active wallet is signed. -/
theorem only_active_wallets_sign_created : ∃ w w',
    Performs sampleWallets sampleService (.constructAndSign (sampleID 10)) w w' ∧ Signs w w' ∧
      ∃ wr wallet, w.store.Finds (sampleID 10) wr wallet ∧ wallet.state = .active := by
  have created : ManagedStep sampleWallets sampleService SettledFirst sampleStart
      sampleWhitelisted := ⟨.create (sampleEVMRequest "ETH"), trivial, managedTurn_performs ..⟩
  have called := managedTurn_performs sampleWallets sampleService sampleWhitelisted
    (.constructAndSign (sampleID 10)) (accepting 10)
  have signs : Signs sampleWhitelisted (managedTurn sampleWallets sampleService sampleWhitelisted
      (.constructAndSign (sampleID 10), accepting 10)) := by
    unfold Signs
    decide +kernel
  have empty : sampleStart.store.withdrawals.rows = [] := rfl
  exact ⟨_, _, called, signs, only_active_wallets_sign (by simp [empty]) (.single created) called
    signs⟩

end WalletManagement
