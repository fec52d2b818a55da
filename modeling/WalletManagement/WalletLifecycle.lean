import WalletManagement.Scripted

/-!
# The state of a wallet

`SetState` of `internal/wallet` reads a wallet in one call of the store and overwrites its state in
another one, so what it refuses depends on the calls that run beside it. The program is stated over
its own calls; any number of them run as a crew on one store. A retired wallet stays retired exactly
when no call that has read it before is about to write another state.
-/

namespace WalletManagement

open Interaction Data

/-! ## The service -/

/-- The calls that `SetState` makes. -/
inductive WalletOp where
  | getWallet (id : UUID)
  | updateWalletState (id : UUID) (state : WalletState)
  | emit (event : AuditEvent)
  deriving DecidableEq

/-- Their answers. -/
abbrev WalletOp.Ans : WalletOp → Type
  | .getWallet _ => Except Err Wallet
  | .updateWalletState _ _ => Except Err Unit
  | .emit _ => Except Err Unit

/-- The signature of `SetState`. -/
abbrev walletCalls : Signature := ⟨WalletOp, WalletOp.Ans⟩

/-- `ValidWalletState`, with the state that a valid text names. -/
def WalletState.ofText (text : String) : Option WalletState :=
  [.active, .paused, .retired].find? fun state => state.text = text

/-- `wallet.Service`: what `SetState` reads of it. -/
structure WalletService where
  /-- The verb `%q` of `fmt`. -/
  quote : String → String
  /-- `Audit` is not nil. -/
  audit : Bool := true

/-- `SetState`. -/
def WalletService.setState (svc : WalletService) (id : UUID) (state : String) :
    Program walletCalls (Except Err Unit) := do
  match WalletState.ofText state with
  | none => pure (.error ⟨"invalid state " ++ svc.quote state, none⟩)
  | some state =>
    match ← Program.perform (S := walletCalls) (.getWallet id) with
    | .error err => pure (.error err)
    | .ok w =>
      if w.state = .retired ∧ state ≠ .retired then
        pure (.error ⟨"cannot un-retire a wallet", none⟩)
      else
        match ← Program.perform (S := walletCalls) (.updateWalletState id state) with
        | .error err => pure (.error err)
        | .ok () =>
          if svc.audit then
            let _ ← Program.perform (S := walletCalls) (.emit ⟨"wallet.state_changed", some id,
              [("from", .text w.state.text), ("to", .text state.text)]⟩)
            pure (.ok ())
          else pure (.ok ())

/-- The meaning of the calls over the in-memory store. The emitter answers anything. -/
def walletStep : Transition walletCalls Store
  | .getWallet id, s, answer, s' => answer = s.getWallet id ∧ s' = s
  | .updateWalletState id state, s, answer, s' =>
    answer = (s.updateWalletState id state).1 ∧ s' = (s.updateWalletState id state).2
  | .emit _, s, _, s' => s' = s

/-- A stored wallet takes the state that is written. -/
theorem Store.updateWalletState_found {s : Store} {id : UUID} {w : Wallet}
    (found : s.wallets.get id = some w) (state : WalletState) :
    s.updateWalletState id state =
      (.ok (), { s with wallets := s.wallets.put { w with state } }) := by
  simp only [Store.updateWalletState, found]

/-- The other wallets keep theirs. -/
theorem Store.updateWalletState_get_of_ne (s : Store) {id other : UUID} (state : WalletState)
    (different : id ≠ other) :
    (s.updateWalletState id state).2.wallets.get other = s.wallets.get other := by
  unfold Store.updateWalletState
  cases found : s.wallets.get id with
  | none => rfl
  | some w =>
    refine Table.get_put_of_ne _ fun same => different ?_
    rw [← same]
    exact (Table.key_of_get found).symm

/-- The state of the wallet after it is written, when the wallet is there. -/
theorem Store.updateWalletState_get (s : Store) {id : UUID} {w : Wallet}
    (found : s.wallets.get id = some w) (state : WalletState) :
    (s.updateWalletState id state).2.wallets.get id = some { w with state } := by
  rw [Store.updateWalletState_found found, ← Table.key_of_get found]
  exact Table.get_put_self s.wallets ({ w with state } : Wallet)

/-! ## Concurrent calls -/

/-- The wallet is stored as `RETIRED`. -/
def Store.Retired (s : Store) (id : UUID) : Prop :=
  ∃ w, s.wallets.get id = some w ∧ w.state = .retired

section Concurrent

variable {ι : Type} {svc : WalletService} {id : UUID}

/-- Concurrent calls of `SetState`. -/
abbrev LifecycleCrew (ι : Type) : Type := Crew walletCalls Store ι (Except Err Unit)

/-- The call has read the wallet and is about to store a state other than `RETIRED`. -/
def Reviving (crew : LifecycleCrew ι) (id : UUID) (i : ι) : Prop :=
  ∃ state, state ≠ .retired ∧ (crew.rest i).nextCall = some (.updateWalletState id state)

/-- A call stores another state than `RETIRED` only right after it read the wallet in one. -/
def carefulWrites (id : UUID) : Conduct walletCalls Store (Except Err Unit) where
  allows moves op := ∀ state, op = .updateWalletState id state → state ≠ .retired →
    ∃ s w s' rest, moves = ⟨.getWallet id, s, .ok w, s'⟩ :: rest ∧ w.state ≠ .retired

/-- `SetState` does so. -/
theorem setState_follows (id' : UUID) (text : String) :
    (svc.setState id' text).Follows walletStep (carefulWrites id) [] := by
  unfold WalletService.setState
  cases WalletState.ofText text with
  | none => trivial
  | some state =>
    refine .perform_bind (fun _ same => nomatch same) fun s answer s' _ _ => ?_
    cases answer with
    | error err => trivial
    | ok w =>
      dsimp only
      split
      · trivial
      · rename_i admitted
        refine .perform_bind (fun written same other => ?_) fun _ answer _ _ _ => ?_
        · cases same
          exact ⟨s, w, s', [], rfl, fun retired => admitted ⟨retired, other⟩⟩
        · cases answer with
          | error err => trivial
          | ok _ =>
            dsimp only
            split
            · exact .perform_bind (fun _ same => nomatch same) fun _ _ _ _ _ => trivial
            · trivial

variable [DecidableEq ι] {ids : ι → UUID} {states : ι → String} {start : Store}
  {crew crew' : LifecycleCrew ι}

/-- The schedules of the store steps of concurrent calls. -/
abbrev LifecycleReaches (crew crew' : LifecycleCrew ι) : Prop :=
  Crew.Reachable (fun _ => walletStep) (fun _ _ _ => True) crew crew'

/-- Every call of a schedule writes as `carefulWrites` says. -/
abbrev Careful (id : UUID) (crew : LifecycleCrew ι) : Prop :=
  crew.Good (fun _ => walletStep) (fun _ => carefulWrites id) fun _ => True

theorem careful_of_reachable
    (reachable :
      LifecycleReaches (Crew.start (fun i => svc.setState (ids i) (states i)) start) crew) :
    Careful id crew :=
  reachable.good (fun _ _ _ => trivial) (fun _ _ _ _ _ _ _ _ _ _ _ => trivial)
    ⟨trivial, fun i => setState_follows (ids i) (states i)⟩

/-- One step keeps a wallet retired when no call is about to store another state, and afterwards
none is. -/
theorem retired_of_step (careful : Careful id crew) (retired : crew.state.Retired id)
    (calm : ∀ i, ¬ Reviving crew id i)
    (moved : Crew.Step (fun _ => walletStep) (fun _ _ _ => True) crew crew') :
    crew'.state.Retired id ∧ ∀ i, ¬ Reviving crew' id i := by
  have careful' : Careful id crew' :=
    careful.kept (fun _ _ _ => trivial) (fun _ _ _ _ _ _ _ _ _ _ _ => trivial) moved
  obtain @⟨i, op, next, answer, s', waiting, moved, -⟩ := moved
  obtain ⟨w, found, state⟩ := retired
  constructor
  · cases op with
    | getWallet other =>
      obtain ⟨-, rfl⟩ := moved
      exact ⟨w, found, state⟩
    | emit event =>
      obtain rfl := moved
      exact ⟨w, found, state⟩
    | updateWalletState other written =>
      obtain ⟨-, rfl⟩ := moved
      by_cases same : other = id
      · subst same
        have kept : written = .retired := by
          by_contra revives
          exact calm i ⟨written, revives, by rw [waiting, Program.nextCall]⟩
        exact ⟨_, Store.updateWalletState_get _ found written, kept⟩
      · exact ⟨w, (Store.updateWalletState_get_of_ne _ written same).trans found, state⟩
  · rintro j ⟨written, revives, waits⟩
    by_cases same : j = i
    · subst same
      -- what comes right before the write is the move just made, and it has read a retired wallet
      obtain ⟨later, waits⟩ := Program.nextCall_eq_some.mp waits
      have follows := careful'.follows j
      rw [waits] at follows
      obtain ⟨s, read, s'', rest, moves, unretired⟩ := follows.1 written rfl revives
      rw [Crew.advance_moves, past_cons_self] at moves
      cases moves
      have stored : Except.ok read = crew.state.getWallet id := moved.1
      rw [Store.getWallet, found] at stored
      cases stored
      exact unretired state
    · rw [Crew.advance_rest_of_ne _ _ _ same] at waits
      exact calm j ⟨written, revives, waits⟩

/-- In every schedule of any number of concurrent `SetState` calls, at every moment at which a
wallet is stored as `RETIRED`: it stays `RETIRED` whatever is scheduled next if and only if no call
has read the wallet and is about to store another state. -/
theorem retirement_final_iff
    (reachable :
      LifecycleReaches (Crew.start (fun i => svc.setState (ids i) (states i)) start) crew)
    (retired : crew.state.Retired id) :
    (∀ crew', LifecycleReaches crew crew' → crew'.state.Retired id) ↔
      ∀ i, ¬ Reviving crew id i := by
  constructor
  · rintro final i ⟨state, revives, waits⟩
    obtain ⟨next, waiting⟩ := Program.nextCall_eq_some.mp waits
    have after := final _ (.single (.call waiting ⟨rfl, rfl⟩ trivial))
    obtain ⟨w, found, -⟩ := retired
    obtain ⟨w', found', state'⟩ := after
    rw [Crew.advance_state, Store.updateWalletState_get _ found] at found'
    cases found'
    exact revives state'
  · intro calm crew' later
    have invariant : Careful id crew' ∧ crew'.state.Retired id ∧ ∀ i, ¬ Reviving crew' id i := by
      induction later with
      | refl => exact ⟨careful_of_reachable reachable, retired, calm⟩
      | tail _ moved ih =>
        obtain ⟨careful, retired, calm⟩ := ih
        exact ⟨careful.kept (fun _ _ _ => trivial) (fun _ _ _ _ _ _ _ _ _ _ _ => trivial) moved,
          retired_of_step careful retired calm moved⟩
    exact invariant.2.1

end Concurrent

/-! ## Two administrators -/

/-- Answer the calls of `SetState` over the store, with an emitter that accepts everything. -/
def handleWallet : (op : WalletOp) → Store → op.Ans × Store
  | .getWallet id, s => (s.getWallet id, s)
  | .updateWalletState id state, s => s.updateWalletState id state
  | .emit _, s => (.ok (), s)

theorem handleWallet_follows (op : WalletOp) (s : Store) :
    walletStep op s (handleWallet op s).1 (handleWallet op s).2 := by
  cases op <;> first | exact ⟨rfl, rfl⟩ | exact rfl

/-- A schedule of calls answered so. -/
def lifecycleTurns {ι : Type} (turns : List ι) : List (Crew.Turn walletCalls Store ι) :=
  turns.map fun i => (i, handleWallet)

theorem lifecycleTurns_reach {ι : Type} [DecidableEq ι] (crew : LifecycleCrew ι) (turns : List ι) :
    LifecycleReaches crew (crew.play (lifecycleTurns turns)) := by
  refine Crew.reachable_play (fun next member op s => ?_) (Crew.admitsAll_of_true _ _)
  obtain ⟨i, -, rfl⟩ := List.mem_map.mp member
  exact handleWallet_follows op s

/-- The first administrator pauses the Ethereum wallet, the second one retires it. -/
def twoAdministrators : LifecycleCrew (Fin 2) :=
  Crew.start (fun i => WalletService.setState ⟨sampleLibraries.quote, true⟩ sampleEVMWallet.id
    (if i = firstCaller then "PAUSED" else "RETIRED")) sampleStart.store

/-- The first administrator reads the wallet, and the second one retires it. -/
def retiredBeside : LifecycleCrew (Fin 2) :=
  twoAdministrators.play (lifecycleTurns [firstCaller, secondCaller, secondCaller])

/-- The retired wallet is paused by the call that read it before. -/
theorem retired_wallet_revived : ∃ crew crew' : LifecycleCrew (Fin 2),
    LifecycleReaches twoAdministrators crew ∧ LifecycleReaches crew crew' ∧
      crew.state.Retired sampleEVMWallet.id ∧
      (crew'.state.wallets.get sampleEVMWallet.id).map Wallet.state = some .paused := by
  refine ⟨retiredBeside, retiredBeside.play (lifecycleTurns [firstCaller]),
    lifecycleTurns_reach _ _, lifecycleTurns_reach _ _, ⟨{ sampleEVMWallet with state := .retired },
      ?_, rfl⟩, ?_⟩
  · decide +kernel
  · decide +kernel

/-- When the first administrator starts after the wallet is retired, it stays retired. -/
theorem retirement_final_iff_after : ∃ crew : LifecycleCrew (Fin 2),
    LifecycleReaches twoAdministrators crew ∧ crew.state.Retired sampleEVMWallet.id ∧
      ∀ crew', LifecycleReaches crew crew' → crew'.state.Retired sampleEVMWallet.id := by
  let crew := twoAdministrators.play (lifecycleTurns [secondCaller, secondCaller])
  have retired : crew.state.Retired sampleEVMWallet.id :=
    ⟨{ sampleEVMWallet with state := .retired }, by decide +kernel, rfl⟩
  have unread : (crew.rest firstCaller).nextCall = some (.getWallet sampleEVMWallet.id) := by
    decide +kernel
  have written : (crew.rest secondCaller).nextCall = some (.emit ⟨"wallet.state_changed",
      some sampleEVMWallet.id, [("from", .text "ACTIVE"), ("to", .text "RETIRED")]⟩) := by
    decide +kernel
  have calm (i : Fin 2) : ¬ Reviving crew sampleEVMWallet.id i := by
    rintro ⟨state, -, waits⟩
    match i, waits with
    | 0, waits => cases unread.symm.trans waits
    | 1, waits => cases written.symm.trans waits
  exact ⟨crew, lifecycleTurns_reach _ _, retired,
    (retirement_final_iff (lifecycleTurns_reach _ _) retired).mpr calm⟩

end WalletManagement
