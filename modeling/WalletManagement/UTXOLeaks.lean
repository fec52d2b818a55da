import WalletManagement.UTXOSafety

/-!
# Leaked outpoints

The converse of `UTXOSafety`: an outpoint that is locked is locked for a signed withdrawal, which
can still spend it or give it back. Every operation releases what it took, except one: `Fail`
passes no outpoints to `rollback`, so the outpoints of a signed withdrawal stay locked when it
fails, and no operation can free them any more.
-/

namespace WalletManagement

open Interaction Data Go

/-- Every locked outpoint is reserved by a signed withdrawal. -/
def NoLeakedLock (s : Store) : Prop :=
  ∀ op, s.lockState op = some .locked →
    ∃ id wr, s.withdrawals.get id = some wr ∧ wr.state = .signed ∧ op ∈ wr.reservedOutpoints

/-- The operations of the saga that give back what they took: a `Fail` of a signed withdrawal finds
no reserved outpoints in it. -/
def GivesBack (call : SagaCall) (s : Store) : Prop :=
  call.saga = true ∧ ∀ id reason, call = .fail id reason → ∀ wr wallet, s.Finds id wr wallet →
    wr.state = .signed → wr.reservedOutpoints = []

section Step

variable {svc : Service} {s s' : Store} {wr row : WithdrawalRequest} {wallet : Wallet}

/-- Writing one row leaks nothing, if every outpoint that is locked afterwards is reserved by the
row, or was locked before for another withdrawal. -/
theorem NoLeakedLock.write (kept : NoLeakedLock s)
    (withdrawals : s'.withdrawals = s.withdrawals.put row)
    (locked : ∀ op, s'.lockState op = some .locked →
      (row.state = .signed ∧ op ∈ row.reservedOutpoints) ∨
        (s.lockState op = some .locked ∧ ∀ wr, s.withdrawals.get row.id = some wr →
          wr.state = .signed → op ∉ wr.reservedOutpoints)) : NoLeakedLock s' := by
  intro op here
  rw [withdrawals]
  rcases locked op here with ⟨signed, member⟩ | ⟨before, free⟩
  · exact ⟨row.id, row, Table.get_put_self .., signed, member⟩
  · obtain ⟨id, wr, found, signed, member⟩ := kept op before
    refine ⟨id, wr, ?_, signed, member⟩
    rw [Table.get_put_of_ne, found]
    rintro rfl
    exact free wr found signed member

/-- Writing the row of a withdrawal that was not signed. -/
theorem NoLeakedLock.replace {id : UUID} (kept : NoLeakedLock s)
    (found : s.withdrawals.get id = some wr) (unsigned : wr.state ≠ .signed)
    (withdrawals : s'.withdrawals = s.withdrawals.put row) (rowID : row.id = wr.id)
    (locked : ∀ op, s'.lockState op = some .locked →
      (row.state = .signed ∧ op ∈ row.reservedOutpoints) ∨ s.lockState op = some .locked) :
    NoLeakedLock s' := by
  refine kept.write withdrawals fun op here => (locked op here).imp_right fun before => ⟨before, ?_⟩
  intro wr' found' signed
  rw [rowID, Table.key_of_get found, found] at found'
  rw [← Option.some.inj found'] at signed
  exact absurd signed unsigned

/-- Writing the row of a withdrawal whose outpoints are unlocked. -/
theorem NoLeakedLock.settle {id : UUID} (kept : NoLeakedLock s) (state : UTXOLockState)
    (found : s.withdrawals.get id = some wr)
    (withdrawals : s'.withdrawals = s.withdrawals.put row) (rowID : row.id = wr.id)
    (unlocked : state ≠ .locked) (states : ∀ op, s'.lockState op =
      if op ∈ wr.reservedOutpoints then some state else s.lockState op) : NoLeakedLock s' := by
  refine kept.write withdrawals fun op here => .inr ?_
  rw [states] at here
  by_cases member : op ∈ wr.reservedOutpoints
  · rw [if_pos member] at here
    exact absurd (Option.some.inj here) unlocked
  · rw [if_neg member] at here
    refine ⟨here, fun wr' found' _ => ?_⟩
    rw [rowID, Table.key_of_get found, found] at found'
    rw [← Option.some.inj found']
    exact member

/-- `Fail` changes no lock state. -/
theorem Store.lockState_failed (s : Store) (now : Int) (wallet : Wallet) (n : Int)
    (row : WithdrawalRequest) (inflight : Finset String) (op : String) :
    ((s.release now wallet n []).writes row inflight).lockState op = s.lockState op := by
  refine (lockState_release (by simp) op).trans ?_
  rw [if_neg List.not_mem_nil]

/-- Every operation that gives back what it took leaks nothing. -/
theorem NoLeakedLock.step {call : SagaCall} {result : Except Err Unit} (kept : NoLeakedLock s)
    (safe : UTXOSafe s) (gives : GivesBack call s) (outcome : Outcome svc s call result s') :
    NoLeakedLock s' := by
  cases outcome with
  | refused call err => exact kept
  | @created req wr fresh checked nonce outpoints inflight =>
    refine kept.write rfl fun op locked => .inr ⟨locked, fun wr' found => ?_⟩
    have none : s.withdrawals.get wr.id = none := fresh
    rw [none] at found
    cases found
  | @unselected id walletID err =>
    have frame := s.rollbackPendingNonce_frame walletID .bitcoin (-1)
    intro op locked
    rw [lockState_congr frame.2.1] at locked
    rw [frame.2.2]
    exact kept op locked
  | @constructed id wr wr' wallet n ops reserved s' result finds whitelisted reservation signing =>
    obtain ⟨row, constructed⟩ := signing.constructed reservation finds.self
    refine kept.replace finds.withdrawal (by rw [whitelisted]; decide) constructed.withdrawals
      constructed.id fun op locked => ?_
    rcases (constructed.lockState reservation whitelisted).2 with ⟨signed, states⟩ | ⟨-, same⟩
    · rw [states] at locked
      by_cases member : op ∈ ops
      · rcases constructed.outpoints reservation with ⟨mine, -⟩ | ⟨-, nothing, -⟩
        · exact .inl ⟨signed, mine ▸ member⟩
        · rw [nothing] at member
          cases member
      · rw [if_neg member] at locked
        exact .inr locked
    · rw [same] at locked
      exact .inr locked
  | @rejected id wr wallet now finds signed err inflight =>
    have live : wr.state.live = true := by rw [signed]; rfl
    have frame := s.release_frame now wallet (Service.noncePtr wr) wr.reservedOutpoints
    exact kept.settle .free finds.withdrawal (congrArg (Table.put · _) frame.2) rfl (by decide)
      (lockState_release (safe.present finds.withdrawal live))
  | @accepted id wr wallet now finds signed txHash inflight =>
    have live : wr.state.live = true := by rw [signed]; rfl
    have frame := s.spend_frame now wr wallet txHash
    have frame' := (s.spend now wr wallet txHash).commit_frame wr wallet
    exact kept.settle .spent finds.withdrawal
      (congrArg (Table.put · _) (frame'.2.2.trans frame.2.2)) rfl (by decide)
      (lockState_settled (safe.bitcoin id wr wallet finds) (safe.present finds.withdrawal live))
  | @confirmed id txHash wr found broadcast inflight =>
    exact kept.replace found (by rw [broadcast]; decide) rfl rfl fun op locked => .inr locked
  | @failed id reason wr wallet now finds inflight =>
    have frame := s.release_frame now wallet (Service.noncePtr wr) []
    have states := s.lockState_failed now wallet (Service.noncePtr wr)
      (Store.setState .failed reason "" "" wr) inflight
    by_cases signed : wr.state = .signed
    · -- a signed withdrawal without outpoints has nothing to give back
      have empty := gives.2 id reason rfl wr wallet finds signed
      refine kept.settle .free finds.withdrawal (congrArg (Table.put · _) frame.2) rfl
        (by decide) fun op => ?_
      rw [states, empty, if_neg List.not_mem_nil]
    · refine kept.replace finds.withdrawal signed (congrArg (Table.put · _) frame.2) rfl
        fun op locked => .inr ?_
      rwa [states] at locked
  | reorged result => cases gives.1
  | demoted found confirmed inflight => cases gives.1
  | tracked fresh => cases gives.1
  | handed => cases gives.1

end Step

/-- In every run of the saga that starts with free outpoints and without withdrawals, and in which
no `Fail` finds reserved outpoints in a signed withdrawal, every locked outpoint is reserved by a
signed withdrawal. A `Fail` of a signed withdrawal makes its outpoints free only if it has none. -/
theorem no_leaked_lock (svc : Service) (start w : World SagaCall)
    (unused : start.store.withdrawals = .empty)
    (free : ∀ op state, start.store.lockState op = some state → state = .free)
    (runs : Runs step svc.body (fun call w => GivesBack call w.store) start w) :
    NoLeakedLock w.store ∧
      ∀ id reason wr wallet w', w.store.Finds id wr wallet → wr.state = .signed →
        (svc.fail id reason).Exec (step (.fail id reason)) w (.ok ()) w' →
        ((∀ op ∈ wr.reservedOutpoints, w'.store.lockState op = some .free) ↔
          wr.reservedOutpoints = []) := by
  have initial : UTXOSafe start.store ∧ NoLeakedLock start.store := by
    refine ⟨.of_empty unused, fun op locked => ?_⟩
    cases free op .locked locked
  have inv := saga_run runs (fun s => UTXOSafe s ∧ NoLeakedLock s) initial
    fun call result w s' gives inv outcome => by
      have calm : call.reorganises = false := by
        have saga := gives.1
        cases call <;> first | rfl | cases saga
      exact ⟨inv.1.step calm outcome, inv.2.step inv.1 gives outcome⟩
  refine ⟨inv.2, fun id reason wr wallet w' finds signed execution => ?_⟩
  obtain ⟨s', outcome, reached⟩ :=
    (Program.wlp_iff_exec _ _ _).mp (fail_ends id reason) _ _ execution
  constructor
  · intro freed
    by_contra some
    obtain ⟨op, member⟩ := List.exists_mem_of_ne_nil _ some
    -- the outpoint was locked, and no lock state has changed
    have locked : w.store.lockState op = .some .locked :=
      inv.1.noDoubleSpend.signed id wr finds.withdrawal signed op member
    have unlocked := freed op member
    rw [reached.store] at unlocked
    cases outcome with
    | @failed _ _ wr' wallet' now finds' inflight =>
      rw [Store.lockState_failed, locked] at unlocked
      cases unlocked
  · intro empty op member
    rw [empty] at member
    cases member

/-! ## Worked runs -/

/-- The two wallets, and one free output of the Bitcoin wallet. -/
def oneFreeOutput : World SagaCall :=
  { store := { sampleStart.store with utxos := Table.empty.put (sampleUTXO "5000" '0') } }

/-- Every outpoint is free at first. -/
theorem oneFreeOutput_free (op : String) (state : UTXOLockState)
    (here : oneFreeOutput.store.lockState op = some state) : state = .free := by
  obtain ⟨u, found, rfl⟩ := Option.map_eq_some_iff.mp here
  rcases Table.get_put_cases found with ⟨-, rfl⟩ | ⟨-, missing⟩
  · rfl
  · cases missing

/-- A Bitcoin withdrawal is signed for that output. -/
def signedBTC : List (SagaCall × Script) :=
  [(.create (sampleBTCRequest "1000"), acceptingBTC 10),
    (.constructAndSign (sampleID 10), acceptingBTC 0)]

/-- The state of every withdrawal and the lock state of every outpoint after a scripted run. -/
def locksAfter (calls : List (SagaCall × Script)) :
    List WithdrawalState × List UTXOLockState :=
  let s := (sampleService.play calls oneFreeOutput).store
  (s.withdrawals.rows.map WithdrawalRequest.state, s.utxos.rows.map UTXO.lockState)

/-- The locked output belongs to the signed withdrawal, and is free again after the gateway rejects
it. -/
theorem no_leaked_lock_of_one :
    NoLeakedLock (sampleService.play signedBTC oneFreeOutput).store ∧
      locksAfter signedBTC = ([.signed], [.locked]) ∧
      locksAfter (signedBTC ++ [(.broadcast (sampleID 10), rejecting)]) = ([.failed], [.free]) := by
  have admitted : sampleService.Admits (fun call w => GivesBack call w.store) signedBTC
      oneFreeOutput := by
    refine ⟨⟨rfl, ?_⟩, ⟨rfl, ?_⟩, trivial⟩
    · intro id reason same
      cases same
    · intro id reason same
      cases same
  have runs := sampleService.play_runs _ signedBTC admitted
  refine ⟨?_, by decide +kernel, by decide +kernel⟩
  exact (no_leaked_lock sampleService oneFreeOutput _ rfl oneFreeOutput_free runs).1

/-- The operator fails the signed withdrawal. -/
def failedBTC : List (SagaCall × Script) :=
  signedBTC ++ [(.fail (sampleID 10) "operator", acceptingBTC 0)]

/-- The output of the failed withdrawal stays locked. -/
theorem fail_leaks_lock :
    locksAfter failedBTC = ([.failed], [.locked]) ∧
      ¬NoLeakedLock (sampleService.play failedBTC oneFreeOutput).store := by
  have ends : locksAfter failedBTC = ([.failed], [.locked]) ∧
      (sampleService.play failedBTC oneFreeOutput).store.lockState
        (sampleUTXO "5000" '0').outpoint = some .locked ∧
      ∀ wr ∈ (sampleService.play failedBTC oneFreeOutput).store.withdrawals.rows,
        wr.state ≠ .signed := by decide +kernel
  obtain ⟨after, locked, unsigned⟩ := ends
  refine ⟨after, fun kept => ?_⟩
  obtain ⟨id, wr, found, signed, -⟩ := kept _ locked
  exact unsigned wr (Table.mem_of_get found) signed

end WalletManagement
