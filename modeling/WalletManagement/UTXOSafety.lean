import WalletManagement.SagaOutcome
import WalletManagement.Scripted

/-!
# Outpoints of live withdrawals

The lock state of an outpoint and the list of outpoints in a withdrawal are separate rows. Lists
stay behind on withdrawals that have given their outpoints back, so a list by itself means
nothing: the lists of live withdrawals are what the lock states protect. As long as no
reorganisation frees outpoints from outside, the outpoints of a signed withdrawal are locked,
those of a broadcast or confirmed one are spent, and no outpoint is in the lists of two live
withdrawals.
-/

namespace WalletManagement

open Interaction Data Go

/-! ## Lock states after each part of an operation -/

section LockStates

variable {s s' : Store} {wr : WithdrawalRequest} {wallet : Wallet}

/-- Lock states depend on the rows of the outputs only. -/
theorem lockState_congr (same : s'.utxos = s.utxos) (op : String) :
    s'.lockState op = s.lockState op := by
  rw [Store.lockState, Store.lockState, same]

/-- A release frees its outpoints and no others. -/
theorem lockState_release {now n : Int} {ops : List String}
    (present : ∀ op ∈ ops, (s.lockState op).isSome) (o : String) :
    (s.release now wallet n ops).lockState o = if o ∈ ops then some .free else s.lockState o := by
  let rolled := if 0 ≤ n && wallet.chain.isEVM then
    (s.rollbackPendingNonce wallet.id wallet.chain n).2 else s
  have same (op : String) : rolled.lockState op = s.lockState op := by
    apply lockState_congr
    show (ite _ _ _ : Store).utxos = s.utxos
    split
    · exact (s.rollbackPendingNonce_frame wallet.id wallet.chain n).2.1
    · rfl
  by_cases empty : ops = []
  · have kept : s.release now wallet n ops = rolled := if_neg (not_not_intro empty)
    rw [kept, same, empty, if_neg List.not_mem_nil]
  · have restored : s.release now wallet n ops = (rolled.restoreUTXOs now ops).2 := if_pos empty
    have there : ∀ op ∈ ops, (rolled.lockState op).isSome := by
      intro op member
      rw [same]
      exact present op member
    rw [restored, Store.lockState_restoreUTXOs there, same]

/-- A broadcast of a Bitcoin transaction spends its outpoints and no others. -/
theorem lockState_settled {now : Int} {txHash : String}
    (bitcoin : wr.reservedOutpoints ≠ [] → wallet.chain = .bitcoin)
    (present : ∀ op ∈ wr.reservedOutpoints, (s.lockState op).isSome) (o : String) :
    ((s.spend now wr wallet txHash).commit wr wallet).lockState o =
      if o ∈ wr.reservedOutpoints then some .spent else s.lockState o := by
  rw [lockState_congr ((s.spend now wr wallet txHash).commit_frame wr wallet).2.1]
  unfold Store.spend
  by_cases empty : wr.reservedOutpoints = []
  · simp [empty]
  · rw [if_pos (by simp [empty, bitcoin empty])]
    exact Store.lockState_markUTXOsSpent present o

end LockStates

/-! ## No double spend -/

/-- The outpoints of live withdrawals are held for them, and for one withdrawal only. -/
structure NoDoubleSpend (s : Store) : Prop where
  /-- The outpoints of a signed withdrawal are locked. -/
  signed : ∀ id wr, s.withdrawals.get id = some wr → wr.state = .signed →
    ∀ op ∈ wr.reservedOutpoints, s.lockState op = some .locked
  /-- The outpoints of a withdrawal that is broadcast are spent. -/
  spent : ∀ id wr, s.withdrawals.get id = some wr →
    wr.state = .broadcast ∨ wr.state = .confirmed →
    ∀ op ∈ wr.reservedOutpoints, s.lockState op = some .spent
  /-- Two live withdrawals share no outpoint. -/
  disjoint : ∀ id id' wr wr', id ≠ id' → s.withdrawals.get id = some wr →
    s.withdrawals.get id' = some wr' → wr.state.live = true → wr'.state.live = true →
    wr.reservedOutpoints.Disjoint wr'.reservedOutpoints

/-- The lock state of the outpoints of a live withdrawal. -/
def WithdrawalState.held : WithdrawalState → UTXOLockState
  | .signed => .locked
  | _ => .spent

/-- The invariant of the outpoints. -/
structure UTXOSafe (s : Store) : Prop where
  /-- Outpoints of live withdrawals have the lock state of the state of the withdrawal. -/
  held : ∀ id wr, s.withdrawals.get id = some wr → wr.state.live = true →
    ∀ op ∈ wr.reservedOutpoints, s.lockState op = some wr.state.held
  /-- Two live withdrawals share no outpoint. -/
  disjoint : ∀ id id' wr wr', id ≠ id' → s.withdrawals.get id = some wr →
    s.withdrawals.get id' = some wr' → wr.state.live = true → wr'.state.live = true →
    wr.reservedOutpoints.Disjoint wr'.reservedOutpoints
  /-- Only withdrawals of Bitcoin wallets have outpoints, live or not. -/
  bitcoin : ∀ id wr wallet, s.Finds id wr wallet → wr.reservedOutpoints ≠ [] →
    wallet.chain = .bitcoin

/-- The invariant in the words of the states. -/
theorem UTXOSafe.noDoubleSpend {s : Store} (safe : UTXOSafe s) : NoDoubleSpend s := by
  refine ⟨fun id wr found signed op member => ?_, fun id wr found later op member => ?_,
    safe.disjoint⟩
  · have held := safe.held id wr found (by rw [signed]; rfl) op member
    rwa [signed] at held
  · rcases later with state | state
    · have held := safe.held id wr found (by rw [state]; rfl) op member
      rwa [state] at held
    · have held := safe.held id wr found (by rw [state]; rfl) op member
      rwa [state] at held

section Step

variable {svc : Service} {s s' : Store} {wr row : WithdrawalRequest} {wallet : Wallet}

/-- Outpoints of live withdrawals are there. -/
theorem UTXOSafe.present {id : UUID} (safe : UTXOSafe s)
    (found : s.withdrawals.get id = some wr) (live : wr.state.live = true) (op : String)
    (member : op ∈ wr.reservedOutpoints) : (s.lockState op).isSome := by
  rw [safe.held id wr found live op member]
  rfl

/-- Outpoints of live withdrawals are not free. -/
theorem UTXOSafe.not_free {id : UUID} (safe : UTXOSafe s)
    (found : s.withdrawals.get id = some wr) (live : wr.state.live = true) (op : String)
    (free : s.lockState op = some .free) : op ∉ wr.reservedOutpoints := by
  intro member
  have held : some wr.state.held = some .free :=
    (safe.held id wr found live op member).symm.trans free
  have taken (state : WithdrawalState) : state.held ≠ .free := by cases state <;> decide
  exact taken wr.state (Option.some.inj held)

/-- Writing the row of one withdrawal keeps the invariant, if the outpoints of the other live
withdrawals are left alone and the written row, when it is live, holds outpoints of its own. -/
theorem UTXOSafe.write (safe : UTXOSafe s) (wallets : s'.wallets = s.wallets)
    (withdrawals : s'.withdrawals = s.withdrawals.put row)
    (others : ∀ id wr, id ≠ row.id → s.withdrawals.get id = some wr → wr.state.live = true →
      ∀ op ∈ wr.reservedOutpoints, s'.lockState op = s.lockState op)
    (own : row.state.live = true → ∀ op ∈ row.reservedOutpoints,
      s'.lockState op = some row.state.held ∧ ∀ id wr, id ≠ row.id →
        s.withdrawals.get id = some wr → wr.state.live = true → op ∉ wr.reservedOutpoints)
    (bitcoin : ∀ wallet, s.wallets.get row.walletID = some wallet → row.reservedOutpoints ≠ [] →
      wallet.chain = .bitcoin) : UTXOSafe s' := by
  have rows (id : UUID) (wr : WithdrawalRequest) (found : s'.withdrawals.get id = some wr) :
      (id = row.id ∧ wr = row) ∨ (id ≠ row.id ∧ s.withdrawals.get id = some wr) := by
    rw [withdrawals] at found
    exact Table.get_put_cases found
  refine ⟨fun id wr found live op member => ?_, ?_, fun id wr wallet finds => ?_⟩
  · rcases rows id wr found with ⟨-, rfl⟩ | ⟨other, found⟩
    · exact (own live op member).1
    · rw [others id wr other found live op member]
      exact safe.held id wr found live op member
  · intro id id' wr wr' differ found found' live live' op member member'
    rcases rows id wr found with ⟨rfl, rfl⟩ | ⟨other, found⟩
    · rcases rows id' wr' found' with ⟨rfl, rfl⟩ | ⟨other', found'⟩
      · exact differ rfl
      · exact (own live op member).2 id' wr' other' found' live' member'
    · rcases rows id' wr' found' with ⟨rfl, rfl⟩ | ⟨other', found'⟩
      · exact (own live' op member').2 id wr other found live member
      · exact safe.disjoint id id' wr wr' differ found found' live live' member member'
  · rcases finds.of_put wallets withdrawals with ⟨-, rfl, owned⟩ | ⟨-, finds⟩
    · exact bitcoin wallet owned
    · exact safe.bitcoin id wr wallet finds

/-- Nothing happens to the withdrawals or to outpoints that are there. -/
theorem UTXOSafe.frame (safe : UTXOSafe s) (wallets : s'.wallets = s.wallets)
    (withdrawals : s'.withdrawals = s.withdrawals)
    (kept : ∀ op, (s.lockState op).isSome → s'.lockState op = s.lockState op) : UTXOSafe s' := by
  refine ⟨fun id wr found live op member => ?_, fun id id' wr wr' differ found found' => ?_,
    fun id wr wallet finds => ?_⟩
  · rw [withdrawals] at found
    rw [kept op (safe.present found live op member)]
    exact safe.held id wr found live op member
  · rw [withdrawals] at found found'
    exact safe.disjoint id id' wr wr' differ found found'
  · exact safe.bitcoin id wr wallet ⟨withdrawals ▸ finds.withdrawal, wallets ▸ finds.wallet⟩

/-- A withdrawal that stops being live, with the outpoints of the others left alone. -/
theorem UTXOSafe.retire {id : UUID} (safe : UTXOSafe s) (finds : s.withdrawals.get id = some wr)
    (wallets : s'.wallets = s.wallets) (withdrawals : s'.withdrawals = s.withdrawals.put row)
    (same : row.walletID = wr.walletID ∧ row.reservedOutpoints = wr.reservedOutpoints)
    (dead : row.state.live = false)
    (others : ∀ id wr, id ≠ row.id → s.withdrawals.get id = some wr → wr.state.live = true →
      ∀ op ∈ wr.reservedOutpoints, s'.lockState op = s.lockState op) : UTXOSafe s' := by
  refine safe.write wallets withdrawals others (fun live => ?_) fun wallet owned some => ?_
  · rw [dead] at live
    cases live
  · rw [same.1] at owned
    rw [same.2] at some
    exact safe.bitcoin id wr wallet ⟨finds, owned⟩ some

/-- A live withdrawal takes another live state, and its outpoints the lock state of that state;
the other outpoints are left alone. -/
theorem UTXOSafe.advance {id : UUID} (safe : UTXOSafe s) (found : s.withdrawals.get id = some wr)
    (live : wr.state.live = true) (wallets : s'.wallets = s.wallets)
    (withdrawals : s'.withdrawals = s.withdrawals.put row)
    (same : row.id = wr.id ∧ row.walletID = wr.walletID ∧
      row.reservedOutpoints = wr.reservedOutpoints)
    (states : ∀ op, (s.lockState op).isSome → s'.lockState op =
      if op ∈ wr.reservedOutpoints then some row.state.held else s.lockState op) : UTXOSafe s' := by
  obtain ⟨rowID, walletID, outpoints⟩ := same
  have key : wr.id = id := Table.key_of_get found
  have apart (id' : UUID) (wr' : WithdrawalRequest) (other : id' ≠ row.id)
      (found' : s.withdrawals.get id' = some wr') (live' : wr'.state.live = true) :
      wr'.reservedOutpoints.Disjoint wr.reservedOutpoints := by
    rw [rowID, key] at other
    exact safe.disjoint id' id wr' wr other found' found live' live
  refine safe.write wallets withdrawals (fun id' wr' other found' live' op member => ?_)
    (fun _ op member => ?_) fun wallet owned some => ?_
  · rw [states op (safe.present found' live' op member),
      if_neg fun mine => apart id' wr' other found' live' member mine]
  · rw [outpoints] at member
    refine ⟨?_, fun id' wr' other found' live' theirs => ?_⟩
    · rw [states op (safe.present found live op member), if_pos member]
    · exact apart id' wr' other found' live' theirs member
  · rw [walletID] at owned
    rw [outpoints] at some
    exact safe.bitcoin id wr wallet ⟨found, owned⟩ some

/-- The outpoints that a reservation takes were free; it locks them and no others. -/
theorem Reservation.lockState {order : SortSlice largerValue} {reserved : Store}
    {wr' : WithdrawalRequest} {n : Int} {ops : List String}
    (reservation : Reservation order s wr wallet n ops wr' reserved) :
    (∀ op ∈ ops, s.lockState op = some .free) ∧
      ∀ op, reserved.lockState op = if op ∈ ops then some .locked else s.lockState op := by
  cases reservation with
  | nonce evm => exact ⟨by simp, fun op => by rw [if_neg List.not_mem_nil]; rfl⟩
  | nothing other notBitcoin => exact ⟨by simp, fun op => by rw [if_neg List.not_mem_nil]⟩
  | outpoints bitcoin selected =>
    rcases s.lockUTXOs_cases _ ops with ⟨⟨err, failed⟩, -⟩ | ⟨-, free, locked⟩
    · rw [selected.locked] at failed
      cases failed
    · exact ⟨free, locked⟩

/-- A release undoes what a reservation did to the lock states. -/
theorem Reservation.lockState_release {order : SortSlice largerValue} {reserved : Store}
    {wr' : WithdrawalRequest} {now n : Int} {ops : List String}
    (reservation : Reservation order s wr wallet n ops wr' reserved) (op : String) :
    (reserved.release now wallet n ops).lockState op = s.lockState op := by
  obtain ⟨free, locked⟩ := reservation.lockState
  have present : ∀ op ∈ ops, (reserved.lockState op).isSome := by
    intro op member
    rw [locked, if_pos member]
    rfl
  rw [WalletManagement.lockState_release present, locked]
  by_cases member : op ∈ ops
  · rw [if_pos member, free op member]
  · rw [if_neg member, if_neg member]

/-- The lock states after a `ConstructAndSign`: the outpoints it selects were free, those that it
keeps are locked, and all others are as before. -/
theorem Constructed.lockState {order : SortSlice largerValue} {reserved : Store}
    {wr' : WithdrawalRequest} {n : Int} {ops : List String}
    (constructed : Constructed s reserved s' wr wr' row wallet n ops)
    (reservation : Reservation order s wr wallet n ops wr' reserved)
    (whitelisted : wr.state = .whitelisted) :
    (∀ op ∈ ops, s.lockState op = some .free) ∧
    (row.state = .signed ∧
      (∀ op, s'.lockState op = if op ∈ ops then some .locked else s.lockState op) ∨
      row.state.live = false ∧ ∀ op, s'.lockState op = s.lockState op) := by
  obtain ⟨free, locked⟩ := reservation.lockState
  refine ⟨free, ?_⟩
  rcases constructed.ends with ⟨signed, -, same⟩ | ⟨dead, _, -, same⟩
  · refine .inl ⟨signed, fun op => ?_⟩
    rw [lockState_congr same, locked]
  · refine .inr ⟨?_, fun op => ?_⟩
    · rcases dead with state | state
      · rw [state, whitelisted]
        rfl
      · rw [state]
        rfl
    · rw [lockState_congr same, reservation.lockState_release]

/-- The outpoints in the row of a `ConstructAndSign`: those it reserved on Bitcoin, and the old ones
on other chains, where it reserves none. -/
theorem Constructed.outpoints {order : SortSlice largerValue} {reserved : Store}
    {wr' : WithdrawalRequest} {n : Int} {ops : List String}
    (constructed : Constructed s reserved s' wr wr' row wallet n ops)
    (reservation : Reservation order s wr wallet n ops wr' reserved) :
    row.reservedOutpoints = ops ∧ wallet.chain = .bitcoin ∨
      row.reservedOutpoints = wr.reservedOutpoints ∧ ops = [] ∧ wallet.chain ≠ .bitcoin := by
  rw [constructed.reservedOutpoints]
  cases reservation with
  | nonce evm =>
    refine .inr ⟨rfl, rfl, fun bitcoin => ?_⟩
    rw [bitcoin, Chain.not_isEVM_bitcoin] at evm
    cases evm
  | outpoints bitcoin selected => exact .inl ⟨rfl, bitcoin⟩
  | nothing other notBitcoin => exact .inr ⟨rfl, rfl, notBitcoin⟩

/-- The operation frees outpoints of its caller's choice. -/
def SagaCall.reorganises : SagaCall → Bool
  | .onReorg _ _ => true
  | _ => false

/-- A `ConstructAndSign` locks free outpoints only, which no live withdrawal holds. -/
theorem UTXOSafe.construct {id : UUID} {order : SortSlice largerValue} {reserved : Store}
    {wr' : WithdrawalRequest} {n : Int} {ops : List String} (safe : UTXOSafe s)
    (finds : s.Finds id wr wallet) (whitelisted : wr.state = .whitelisted)
    (reservation : Reservation order s wr wallet n ops wr' reserved)
    (constructed : Constructed s reserved s' wr wr' row wallet n ops) : UTXOSafe s' := by
  have outpoints := constructed.outpoints reservation
  obtain ⟨free, states⟩ := constructed.lockState reservation whitelisted
  refine safe.write constructed.wallets constructed.withdrawals
    (fun id' wr' other found' live' op member => ?_) (fun live op member => ?_)
    fun wallet' owned some => ?_
  · rcases states with ⟨-, locked⟩ | ⟨-, kept⟩
    · -- an outpoint of a live withdrawal is not free, so it was not selected here
      have unselected : op ∉ ops := fun mine =>
        safe.not_free found' live' op (free op mine) member
      rw [locked, if_neg unselected]
    · exact kept op
  · rcases states with ⟨signed, locked⟩ | ⟨dead, -⟩
    · rcases outpoints with ⟨mine, -⟩ | ⟨old, -, notBitcoin⟩
      · rw [mine] at member
        refine ⟨?_, fun id' wr' _ found' live' => safe.not_free found' live' op (free op member)⟩
        rw [locked, if_pos member, signed]
        rfl
      · rw [old] at member
        exact absurd (safe.bitcoin id wr wallet finds (List.ne_nil_of_mem member)) notBitcoin
    · rw [dead] at live
      cases live
  · rw [constructed.walletID] at owned
    have shared : wallet' = wallet := Option.some.inj (owned.symm.trans finds.wallet)
    subst shared
    rcases outpoints with ⟨-, bitcoin⟩ | ⟨old, -, -⟩
    · exact bitcoin
    · rw [old] at some
      exact safe.bitcoin id wr wallet' finds some

/-- Every operation but a reorganisation keeps the invariant. -/
theorem UTXOSafe.step {call : SagaCall} {result : Except Err Unit} (safe : UTXOSafe s)
    (calm : call.reorganises = false) (outcome : Outcome svc s call result s') : UTXOSafe s' := by
  cases outcome with
  | refused call err => exact safe
  | @created req wr fresh checked nonce outpoints inflight =>
    have dead : wr.state.live = false := by rcases checked with h | h <;> rw [h] <;> rfl
    refine safe.write rfl rfl (fun _ _ _ _ _ _ _ => rfl) (fun live => ?_) fun _ _ some => ?_
    · rw [dead] at live
      cases live
    · exact absurd outpoints some
  | @unselected id walletID err =>
    have frame := s.rollbackPendingNonce_frame walletID .bitcoin (-1)
    exact safe.frame frame.1 frame.2.2 fun op _ => lockState_congr frame.2.1 op
  | @constructed id wr wr' wallet n ops reserved s' result finds whitelisted reservation signing =>
    obtain ⟨row, constructed⟩ := signing.constructed reservation finds.self
    exact safe.construct finds whitelisted reservation constructed
  | @rejected id wr wallet now finds signed err inflight =>
    have live : wr.state.live = true := by rw [signed]; rfl
    have frame := s.release_frame now wallet (Service.noncePtr wr) wr.reservedOutpoints
    have present := safe.present finds.withdrawal live
    refine safe.retire finds.withdrawal frame.1 (congrArg (Table.put · _) frame.2) ⟨rfl, rfl⟩ rfl ?_
    intro id' wr' other found' live' op member
    have key : wr.id = id := Table.key_of_get finds.withdrawal
    have theirs : op ∉ wr.reservedOutpoints := by
      have differ : id' ≠ id := fun same => other (same.trans key.symm)
      exact safe.disjoint id' id wr' wr differ found' finds.withdrawal live' live member
    refine (lockState_release present op).trans ?_
    rw [if_neg theirs]
  | @accepted id wr wallet now finds signed txHash inflight =>
    have live : wr.state.live = true := by rw [signed]; rfl
    have frame := s.spend_frame now wr wallet txHash
    have frame' := (s.spend now wr wallet txHash).commit_frame wr wallet
    refine safe.advance finds.withdrawal live (frame'.1.trans frame.1)
      (congrArg (Table.put · _) (frame'.2.2.trans frame.2.2)) ⟨rfl, rfl, rfl⟩ fun op _ => ?_
    exact lockState_settled (safe.bitcoin id wr wallet finds)
      (safe.present finds.withdrawal live) op
  | @confirmed id txHash wr found broadcast inflight =>
    have live : wr.state.live = true := by rw [broadcast]; rfl
    refine safe.advance found live rfl rfl ⟨rfl, rfl, rfl⟩ fun op _ => ?_
    split
    · rename_i member
      have held := safe.held id wr found live op member
      rw [broadcast] at held
      exact held
    · rfl
  | @failed id reason wr wallet now finds inflight =>
    have frame := s.release_frame now wallet (Service.noncePtr wr) []
    refine safe.retire finds.withdrawal frame.1 (congrArg (Table.put · _) frame.2) ⟨rfl, rfl⟩ rfl ?_
    intro id' wr' other found' live' op member
    refine (lockState_release (by simp) op).trans ?_
    rw [if_neg List.not_mem_nil]
  | reorged result => cases calm
  | demoted found confirmed inflight => cases calm
  | @tracked u now fresh =>
    refine safe.frame rfl rfl fun op there => ?_
    have other : u.outpoint ≠ op := by
      rintro rfl
      simp [Store.lockState, fresh] at there
    exact congrArg (Option.map UTXO.lockState)
      (Table.get_put_of_ne s.utxos other)
  | handed => exact safe.frame rfl rfl fun _ _ => rfl

end Step

/-- A store without withdrawals satisfies the invariant. -/
theorem UTXOSafe.of_empty {s : Store} (unused : s.withdrawals = .empty) : UTXOSafe s := by
  have none (id : UUID) (wr : WithdrawalRequest) : s.withdrawals.get id ≠ some wr := by
    rw [unused]
    exact nofun
  exact ⟨fun id wr found => absurd found (none id wr),
    fun id _ wr _ _ found => absurd found (none id wr),
    fun id wr _ finds => absurd finds.withdrawal (none id wr)⟩

/-- In every run of complete operations without reorganisations, from a store without
withdrawals, no outpoint is spent twice: the outpoints of a signed withdrawal are locked, those
of a broadcast or confirmed one are spent, and live withdrawals share none. -/
theorem no_double_spend (svc : Service) (start w : World SagaCall)
    (unused : start.store.withdrawals = .empty)
    (runs : Runs step svc.body (fun call _ => call.reorganises = false) start w) :
    NoDoubleSpend w.store := by
  have safe := saga_run runs UTXOSafe (.of_empty unused) fun _ _ _ _ calm safe outcome =>
    safe.step calm outcome
  exact safe.noDoubleSpend

/-- One withdrawal broadcast and another one signed, each with an outpoint of its own. -/
theorem no_double_spend_of_two : ∃ w : World SagaCall, NoDoubleSpend w.store ∧
    w.store.withdrawals.rows.map (fun wr => (wr.state, wr.reservedOutpoints)) =
      [(.broadcast, [(sampleUTXO "5000" '0').outpoint]),
        (.signed, [(sampleUTXO "4000" '1').outpoint])] := by
  let calls : List (SagaCall × Script) := [
    (.trackUTXO (sampleUTXO "5000" '0'), acceptingBTC 0),
    (.trackUTXO (sampleUTXO "4000" '1'), acceptingBTC 0),
    (.create (sampleBTCRequest "1000"), acceptingBTC 10),
    (.constructAndSign (sampleID 10), acceptingBTC 0),
    (.create (sampleBTCRequest "2000"), acceptingBTC 11),
    (.constructAndSign (sampleID 11), acceptingBTC 0),
    (.broadcast (sampleID 10), acceptingBTC 0)]
  have admitted : sampleService.Admits (fun call _ => call.reorganises = false) calls sampleStart :=
    sampleService.admits_of_calls (by decide) sampleStart
  have runs := sampleService.play_runs _ calls admitted
  exact ⟨sampleService.play calls sampleStart,
    no_double_spend sampleService sampleStart _ rfl runs, by decide +kernel⟩

end WalletManagement
