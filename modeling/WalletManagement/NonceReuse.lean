import WalletManagement.NonceSafety

/-!
# Consumed nonces

Once the gateway has accepted a transaction, its nonce is consumed: the broadcast nonce of the
row moves past it and never comes back. The pending nonce does come back, by rollbacks. A
consumed nonce is not handed out again as long as no rollback takes the pending nonce below the
broadcast one, and the only operation that can do so is a `Fail` of a withdrawal whose nonce is
consumed.
-/

namespace WalletManagement

open Interaction Data Go

/-! ## The order of the two counters -/

/-- The condition on an operation and the state before it under which the pending nonces stay at
or above the broadcast ones: the condition for nonces to stay distinct, and a `Fail` does not find
its recorded nonce to be both consumed and the last one reserved. -/
def ReuseGuard (call : SagaCall) (s : Store) : Prop :=
  NonceGuard call s ∧ ∀ id reason wr wallet n, call = .fail id reason → s.Finds id wr wallet →
    wallet.chain.isEVM = true → wr.nonceValue = some n →
    s.pending wr.walletID wallet.chain = n + 1 → s.broadcasted wr.walletID wallet.chain ≤ n

/-- A call other than `Fail` only has to meet the guard of the pending nonce. -/
theorem ReuseGuard.of_not_fail {call : SagaCall} {s : Store} (guard : NonceGuard call s)
    (other : ∀ id reason, call ≠ .fail id reason) : ReuseGuard call s :=
  ⟨guard, fun id reason _ _ _ failing => absurd failing (other id reason)⟩

/-- The invariant of the two counters. -/
structure ReuseSafe (s : Store) : Prop where
  /-- Live nonces are distinct and below the pending ones. -/
  nonces : NonceSafe s
  /-- The broadcast nonce of a row is at most the pending one. -/
  ordered : ∀ walletID chain, chain.isEVM = true →
    s.broadcasted walletID chain ≤ s.pending walletID chain
  /-- The nonce of a signed withdrawal is not the one consumed last. -/
  unconsumed : ∀ id wr wallet n, s.Finds id wr wallet → wallet.chain.isEVM = true →
    wr.state = .signed → wr.nonceValue = some n →
    s.broadcasted wr.walletID wallet.chain ≠ n + 1

section Step

variable {svc : Service} {s s' reserved : Store} {wr wr' row : WithdrawalRequest}
  {wallet : Wallet} {n : Int} {ops : List String}

/-- Writing the row of one withdrawal keeps the invariant, if no signed withdrawal carries the
nonce consumed last. -/
theorem ReuseSafe.write (nonces : NonceSafe s') (wallets : s'.wallets = s.wallets)
    (withdrawals : s'.withdrawals = s.withdrawals.put row)
    (ordered : ∀ walletID chain, chain.isEVM = true →
      s'.broadcasted walletID chain ≤ s'.pending walletID chain)
    (others : ∀ id wr wallet n, id ≠ row.id → s.Finds id wr wallet → wallet.chain.isEVM = true →
      wr.state = .signed → wr.nonceValue = some n →
      s'.broadcasted wr.walletID wallet.chain ≠ n + 1)
    (own : ∀ wallet n, row.state = .signed → s.wallets.get row.walletID = some wallet →
      wallet.chain.isEVM = true → row.nonceValue = some n →
      s'.broadcasted row.walletID wallet.chain ≠ n + 1) : ReuseSafe s' := by
  refine ⟨nonces, ordered, fun id wr wallet n finds evm signed nonce => ?_⟩
  rcases finds.of_put wallets withdrawals with ⟨-, rfl, owned⟩ | ⟨other, finds⟩
  · exact own wallet n signed owned evm nonce
  · exact others id wr wallet n other finds evm signed nonce

/-- Writing a row that is not signed, with the broadcast nonces as they were. -/
theorem ReuseSafe.write_unsigned (safe : ReuseSafe s) (nonces : NonceSafe s')
    (wallets : s'.wallets = s.wallets) (withdrawals : s'.withdrawals = s.withdrawals.put row)
    (unsigned : row.state ≠ .signed)
    (kept : ∀ walletID chain, s'.broadcasted walletID chain = s.broadcasted walletID chain)
    (ordered : ∀ walletID chain, chain.isEVM = true →
      s.broadcasted walletID chain ≤ s'.pending walletID chain) : ReuseSafe s' := by
  refine .write nonces wallets withdrawals (fun walletID chain evm => ?_)
    (fun id wr wallet n _ finds evm signed nonce => ?_)
    fun _ _ signed => absurd signed unsigned
  · rw [kept]
    exact ordered walletID chain evm
  · rw [kept]
    exact safe.unconsumed id wr wallet n finds evm signed nonce

/-- Nothing happens to the withdrawals or the broadcast nonces. -/
theorem ReuseSafe.frame (safe : ReuseSafe s) (nonces : NonceSafe s')
    (wallets : s'.wallets = s.wallets) (withdrawals : s'.withdrawals = s.withdrawals)
    (kept : ∀ walletID chain, s'.broadcasted walletID chain = s.broadcasted walletID chain)
    (ordered : ∀ walletID chain, chain.isEVM = true →
      s.broadcasted walletID chain ≤ s'.pending walletID chain) : ReuseSafe s' := by
  refine ⟨nonces, fun walletID chain evm => ?_, fun id wr wallet n finds => ?_⟩
  · rw [kept]
    exact ordered walletID chain evm
  · have before : s.Finds id wr wallet := ⟨withdrawals ▸ finds.withdrawal, wallets ▸ finds.wallet⟩
    rw [kept]
    exact safe.unconsumed id wr wallet n before

/-- A release takes no pending nonce below the broadcast one, if the released nonce is not
consumed when it is the last one reserved. -/
theorem ReuseSafe.release {id : UUID} (safe : ReuseSafe s) (finds : s.Finds id wr wallet)
    (unconsumed : ∀ n, wallet.chain.isEVM = true → wr.nonceValue = some n →
      s.pending wr.walletID wallet.chain = n + 1 → s.broadcasted wr.walletID wallet.chain ≤ n)
    (now : Int) (ops : List String) (walletID : UUID) (chain : Chain) (evm : chain.isEVM = true) :
    s.broadcasted walletID chain ≤
      (s.release now wallet (Service.noncePtr wr) ops).pending walletID chain := by
  rcases pending_release s now wallet (Service.noncePtr wr) ops walletID chain with
    kept | ⟨natural, key, rfl, -, last, moved⟩
  · rw [kept]
    exact safe.ordered walletID chain evm
  · cases nonce : wr.nonceValue with
    | none => simp [Service.noncePtr, nonce] at natural
    | some n =>
      have value : Service.noncePtr wr = n := by simp [Service.noncePtr, nonce]
      have owner : wr.walletID = walletID := (Table.key_of_get finds.wallet).symm.trans key
      have range := safe.nonces.recorded id wr n finds.withdrawal nonce
      have low := (safe.nonces.inRange walletID wallet.chain evm).1
      rw [value] at last
      have pending := succ_of_pending range.1 range.2 low last
      rw [moved, value, ← owner]
      exact unconsumed n evm nonce (by rw [owner, pending])

/-- A `ConstructAndSign` leaves the broadcast nonces alone. -/
theorem Constructed.broadcasted {order : SortSlice largerValue}
    (constructed : Constructed s reserved s' wr wr' row wallet n ops)
    (reservation : Reservation order s wr wallet n ops wr' reserved)
    (walletID : UUID) (chain : Chain) :
    s'.broadcasted walletID chain = s.broadcasted walletID chain := by
  have before : reserved.broadcasted walletID chain = s.broadcasted walletID chain := by
    cases reservation with
    | nonce evm => exact s.broadcasted_increment wr.walletID wallet.chain walletID chain
    | outpoints bitcoin selected => exact broadcasted_congr (s.lockUTXOs_frame _ ops).2.1 ..
    | nothing other notBitcoin => rfl
  rcases constructed.ends with ⟨-, same, -⟩ | ⟨-, now, same, -⟩
  · rw [broadcasted_congr same, before]
  · rw [broadcasted_congr same, broadcasted_release, before]

/-- An accepted transaction moves the broadcast nonce of its row past its own nonce. -/
theorem broadcasted_settled (s : Store) (now : Int) (wr : WithdrawalRequest) (wallet : Wallet)
    (txHash : String) (walletID : UUID) (chain : Chain) :
    ((s.spend now wr wallet txHash).commit wr wallet).broadcasted walletID chain =
      s.broadcasted walletID chain ∨
    ∃ n, wr.nonceValue = some n ∧ wallet.chain.isEVM = true ∧ wr.walletID = walletID ∧
      wallet.chain = chain ∧
      ((s.spend now wr wallet txHash).commit wr wallet).broadcasted walletID chain =
        max (s.broadcasted walletID chain) (wrapInt64 (n + 1)) := by
  have spent := broadcasted_congr (s.spend_frame now wr wallet txHash).2.1
  unfold Store.commit
  cases nonce : wr.nonceValue with
  | none => exact .inl (spent walletID chain)
  | some n =>
    by_cases evm : wallet.chain.isEVM = true
    · simp only [evm, if_true, Store.broadcasted_advance, spent]
      by_cases here : wr.walletID = walletID ∧ wallet.chain = chain
      · obtain ⟨rfl, rfl⟩ := here
        exact .inr ⟨n, rfl, trivial, rfl, rfl, by simp⟩
      · simp only [if_neg here]
        exact .inl trivial
    · simp only [evm]
      exact .inl (spent walletID chain)

/-- A `ConstructAndSign` hands out the pending nonce, which the broadcast one has not passed. -/
theorem ReuseSafe.construct {id : UUID} {order : SortSlice largerValue} (safe : ReuseSafe s)
    (nonces : NonceSafe s') (finds : s.Finds id wr wallet) (whitelisted : wr.state = .whitelisted)
    (reservation : Reservation order s wr wallet n ops wr' reserved)
    (constructed : Constructed s reserved s' wr wr' row wallet n ops)
    (fits : wallet.chain.isEVM = true → s.pending wr.walletID wallet.chain < 2 ^ 63 - 1) :
    ReuseSafe s' := by
  have owned : wallet.id = wr.walletID := Table.key_of_get finds.wallet
  have room := safe.nonces.room fits
  have kept := constructed.broadcasted reservation
  refine .write nonces constructed.wallets constructed.withdrawals (fun walletID chain evm => ?_)
    (fun id wr wallet n _ finds evm signed nonce => ?_) fun wallet' m signed owner evm nonce => ?_
  · have before := safe.ordered walletID chain evm
    rw [kept]
    rcases constructed.pending reservation owned room walletID chain with same | ⟨-, -, moved⟩
    · rwa [same]
    · omega
  · rw [kept]
    exact safe.unconsumed id wr wallet n finds evm signed nonce
  · -- the new nonce was pending, so the broadcast one has not passed it
    rw [constructed.walletID] at owner ⊢
    have shared : wallet' = wallet := Option.some.inj (owner.symm.trans finds.wallet)
    subst shared
    have live : row.state.live = true := by rw [signed]; rfl
    obtain ⟨handed, -⟩ := constructed.signed reservation room whitelisted live evm
    have value : s.pending wr.walletID wallet'.chain = m :=
      Option.some.inj (handed.symm.trans nonce)
    have before := safe.ordered wr.walletID wallet'.chain evm
    rw [kept]
    omega

/-- The nonce of a signed withdrawal is below the pending one, so it has a successor. -/
theorem ReuseSafe.succ_nonce {id : UUID} (safe : ReuseSafe s) (finds : s.Finds id wr wallet)
    (signed : wr.state = .signed) (evm : wallet.chain.isEVM = true)
    (nonce : wr.nonceValue = some n) :
    wrapInt64 (n + 1) = n + 1 ∧ n < s.pending wr.walletID wallet.chain := by
  have live : wr.state.live = true := by rw [signed]; rfl
  have bound := safe.nonces.lt_pending finds evm live nonce
  have range := safe.nonces.inRange wr.walletID wallet.chain evm
  have low := (safe.nonces.recorded id wr n finds.withdrawal nonce).1
  exact ⟨wrapInt64_of_inInt64 ⟨by omega, by omega⟩, bound⟩

/-- A commit moves no broadcast nonce past the pending one. -/
theorem ReuseSafe.ordered_settled {id : UUID} (safe : ReuseSafe s) (finds : s.Finds id wr wallet)
    (signed : wr.state = .signed) (now : Int) (txHash : String) (walletID : UUID) {chain : Chain}
    (evm : chain.isEVM = true) :
    ((s.spend now wr wallet txHash).commit wr wallet).broadcasted walletID chain ≤
      ((s.spend now wr wallet txHash).commit wr wallet).pending walletID chain := by
  have before := safe.ordered walletID chain evm
  rw [pending_settled s now wr wallet txHash walletID chain]
  rcases broadcasted_settled s now wr wallet txHash walletID chain with
    same | ⟨n, nonce, evm, rfl, rfl, moved⟩
  · rwa [same]
  · have next := safe.succ_nonce finds signed evm nonce
    rw [moved, next.1]
    omega

/-- A commit consumes the nonce of no other signed withdrawal. -/
theorem ReuseSafe.unconsumed_settled {id id' : UUID} {wallet' : Wallet} (safe : ReuseSafe s)
    (finds : s.Finds id wr wallet) (signed : wr.state = .signed) (now : Int) (txHash : String)
    (other : id' ≠ wr.id) (finds' : s.Finds id' wr' wallet') (evm : wallet'.chain.isEVM = true)
    (signed' : wr'.state = .signed) (nonce' : wr'.nonceValue = some n) :
    ((s.spend now wr wallet txHash).commit wr wallet).broadcasted wr'.walletID wallet'.chain ≠
      n + 1 := by
  have unequal := safe.unconsumed id' wr' wallet' n finds' evm signed' nonce'
  rcases broadcasted_settled s now wr wallet txHash wr'.walletID wallet'.chain with
    same | ⟨m, nonce, evm', owner, -, moved⟩
  · rwa [same]
  · -- the other withdrawal is one of the same wallet, so its nonce is another one
    have key : wallet.id = wr'.walletID := (Table.key_of_get finds.wallet).trans owner
    have shared : wallet' = wallet := finds.wallet_eq finds' key
    subst shared
    have live : wr.state.live = true := by rw [signed]; rfl
    have live' : wr'.state.live = true := by rw [signed']; rfl
    have differ := safe.nonces.distinct id' wr.id wr' wr wallet' other finds'
      ⟨finds.self, finds.wallet⟩ evm live' live
    rw [nonce, nonce'] at differ
    have apart : n ≠ m := fun same => differ (congrArg some same)
    rw [moved, (safe.succ_nonce finds signed evm' nonce).1]
    omega

/-- The broadcast nonces never go down. -/
theorem Outcome.broadcasted_le {call : SagaCall} {result : Except Err Unit}
    (outcome : Outcome svc s call result s') (walletID : UUID) (chain : Chain) :
    s.broadcasted walletID chain ≤ s'.broadcasted walletID chain := by
  cases outcome with
  | refused => exact le_rfl
  | created => exact le_rfl
  | @unselected id walletID' err =>
    rw [s.broadcasted_rollback]
  | constructed finds whitelisted reservation signing =>
    obtain ⟨row, constructed⟩ := signing.constructed reservation finds.self
    rw [constructed.broadcasted reservation]
  | rejected => exact (broadcasted_release s _ _ _ _ walletID chain).ge
  | @accepted id wr wallet now finds signed txHash inflight =>
    change _ ≤ ((s.spend now wr wallet txHash).commit wr wallet).broadcasted walletID chain
    rcases broadcasted_settled s now wr wallet txHash walletID chain with
      same | ⟨n, -, -, -, -, moved⟩
    · rw [same]
    · rw [moved]
      exact le_max_left _ _
  | confirmed => exact le_rfl
  | failed => exact (broadcasted_release s _ _ _ _ walletID chain).ge
  | reorged => exact le_rfl
  | demoted => exact le_rfl
  | tracked => exact le_rfl
  | @handed walletID' chain' => rw [s.broadcasted_increment]

/-- Every operation within the guard keeps the invariant. -/
theorem ReuseSafe.step {call : SagaCall} {result : Except Err Unit} (safe : ReuseSafe s)
    (guard : ReuseGuard call s) (outcome : Outcome svc s call result s') : ReuseSafe s' := by
  have nonces : NonceSafe s' := safe.nonces.step guard.1 outcome
  cases outcome with
  | refused call err => exact safe
  | @created req wr fresh checked nonce outpoints inflight =>
    have unsigned : wr.state ≠ .signed := by rcases checked with h | h <;> rw [h] <;> decide
    exact safe.write_unsigned nonces rfl rfl unsigned (fun _ _ => rfl) safe.ordered
  | @unselected id walletID err =>
    have frame := s.rollbackPendingNonce_frame walletID .bitcoin (-1)
    refine safe.frame nonces frame.1 frame.2.2 (s.broadcasted_rollback walletID .bitcoin (-1))
      fun walletID' chain evm => ?_
    rw [s.pending_rollback_bitcoin walletID (-1) walletID' evm]
    exact safe.ordered walletID' chain evm
  | @constructed id wr wr' wallet n ops reserved s' result finds whitelisted reservation signing =>
    obtain ⟨row, constructed⟩ := signing.constructed reservation finds.self
    exact safe.construct nonces finds whitelisted reservation constructed (guard.1 wr wallet finds)
  | @rejected id wr wallet now finds signed err inflight =>
    have frame := s.release_frame now wallet (Service.noncePtr wr) wr.reservedOutpoints
    refine safe.write_unsigned nonces frame.1 (congrArg (Table.put · _) frame.2) nofun
      (broadcasted_release s _ _ _ _) (safe.release finds (fun n evm nonce last => ?_) _ _)
    have before := safe.ordered wr.walletID wallet.chain evm
    have unequal := safe.unconsumed id wr wallet n finds evm signed nonce
    omega
  | @accepted id wr wallet now finds signed txHash inflight =>
    have frame := s.spend_frame now wr wallet txHash
    have frame' := (s.spend now wr wallet txHash).commit_frame wr wallet
    refine .write nonces (frame'.1.trans frame.1)
      (congrArg (Table.put · _) (frame'.2.2.trans frame.2.2)) (fun walletID chain evm => ?_)
      (fun id' wr' wallet' n other finds' evm signed' nonce => ?_) fun _ _ signed => nomatch signed
    · exact safe.ordered_settled finds signed now txHash walletID evm
    · exact safe.unconsumed_settled finds signed now txHash other finds' evm signed' nonce
  | @confirmed id txHash wr found broadcast inflight =>
    exact safe.write_unsigned nonces rfl rfl nofun (fun _ _ => rfl) safe.ordered
  | @failed id reason wr wallet now finds inflight =>
    have frame := s.release_frame now wallet (Service.noncePtr wr) []
    refine safe.write_unsigned nonces frame.1 (congrArg (Table.put · _) frame.2) nofun
      (broadcasted_release s _ _ _ _) (safe.release finds (fun n evm nonce last => ?_) _ _)
    exact guard.2 id reason wr wallet n rfl finds evm nonce last
  | @reorged id outpoints now result =>
    have frame := s.restoreUTXOs_frame now outpoints
    exact safe.frame nonces frame.1 frame.2.2.2 (fun _ _ => rfl) safe.ordered
  | @demoted id outpoints wr now found confirmed inflight =>
    exact safe.write_unsigned nonces rfl rfl nofun (fun _ _ => rfl) safe.ordered
  | @tracked u now fresh => exact safe.frame nonces rfl rfl (fun _ _ => rfl) safe.ordered
  | @handed walletID chain =>
    refine safe.frame nonces rfl rfl (s.broadcasted_increment walletID chain)
      fun walletID' chain' evm => ?_
    exact (safe.ordered walletID' chain' evm).trans
      (safe.nonces.pending_handed guard.1 walletID' evm).1

end Step

/-! ## Handing out nonces -/

/-- A nonce that `ReserveNonce` returns is in the log. -/
theorem reserveNonce_logged {L : Type} {caller : L} {w w' : World L} {walletID : UUID}
    {chain : Chain} {n : Int}
    (execution : (reserveNonce walletID chain).Exec (step caller) w (.ok n) w') :
    ∃ fresh, w'.log = fresh ++ w.log ∧
      ∃ entry ∈ fresh, entry.reserves = some (walletID, chain, n) := by
  unfold reserveNonce at execution
  generalize 50 = tries at execution
  induction tries generalizing w with
  | zero => cases execution.1
  | succ tries ih =>
    obtain ⟨answer, w₁, asked, execution⟩ := execution
    cases asked
    match answer, execution with
    | .error _, execution => cases execution.1
    | .ok (_, false), execution =>
      obtain ⟨fresh, log, entry, member, handed⟩ := ih execution
      exact ⟨fresh ++ [_], by rw [log, List.append_assoc]; rfl, entry,
        List.mem_append_left _ member, handed⟩
    | .ok (token, true), execution =>
      obtain ⟨answer, w₂, asked, released, w₃, freed, execution⟩ := execution
      obtain ⟨_, rfl, rfl⟩ := step_store.mp asked
      cases freed
      obtain ⟨same, rfl⟩ := execution
      cases same
      exact ⟨[_, _, _], rfl, _, List.mem_cons_of_mem _ List.mem_cons_self, rfl⟩

/-! ## Runs -/

/-- The calls of the saga, and reservations of nonces from outside it. -/
def SagaCall.nonceful : SagaCall → Bool
  | .reserveNonce _ _ => true
  | call => call.saga

/-- A complete `Broadcast` during which the gateway accepts the transaction. -/
structure Accepted (svc : Service) (id : UUID) (w w' : World SagaCall) : Prop where
  /-- The operation runs from its first call to its return. -/
  execution : ∃ result, (svc.body (.broadcast id)).Exec (step (.broadcast id)) w result w'
  /-- The gateway answers without an error. -/
  accepted : ∃ fresh, w'.log = fresh ++ w.log ∧ ∃ entry ∈ fresh, entry.accepts = true

/-- Between two states a nonce of a row is not handed out, and in the second one the broadcast
nonce of the row is at most the pending one. -/
structure NotReused (walletID : UUID) (chain : Chain) (n : Int) (w w' : World SagaCall) :
    Prop where
  /-- No reservation in between returned the nonce. -/
  reserves : ∃ fresh, w'.log = fresh ++ w.log ∧
    ∀ entry ∈ fresh, entry.reserves ≠ some (walletID, chain, n)
  /-- The two counters. -/
  ordered : w'.store.broadcasted walletID chain ≤ w'.store.pending walletID chain

/-- The invariant holds along every run within the guard. -/
theorem reuseSafe_of_runs {svc : Service} {start w : World SagaCall} (safe : ReuseSafe start.store)
    (runs : Runs step svc.body (fun call w => ReuseGuard call w.store) start w) :
    ReuseSafe w.store :=
  saga_run runs ReuseSafe safe fun _ _ _ _ guard safe outcome => safe.step guard outcome

/-- The invariant holds before anything has happened. -/
theorem World.Fresh.reuseSafe {w : World SagaCall} (fresh : w.Fresh) : ReuseSafe w.store := by
  refine ⟨fresh.nonceSafe, fun walletID chain _ => ?_, fun id wr wallet n finds => ?_⟩
  · simp [Store.broadcasted, Store.pending, Store.nonce, fresh.nonces]
  · have found := finds.withdrawal
    rw [fresh.withdrawals] at found
    cases found

/-- An accepted transaction consumes its nonce. -/
theorem Accepted.consumes {svc : Service} {id : UUID} {w w' : World SagaCall}
    {wr : WithdrawalRequest} {wallet : Wallet} {n : Int} (accepted : Accepted svc id w w')
    (safe : ReuseSafe w.store) (finds : w.store.Finds id wr wallet)
    (evm : wallet.chain.isEVM = true) (nonce : wr.nonceValue = some n) :
    ReuseSafe w'.store ∧ n < w'.store.broadcasted wr.walletID wallet.chain := by
  obtain ⟨⟨result, execution⟩, fresh, log, entry, member, accepts⟩ := accepted
  obtain ⟨s', outcome, rfl, fresh', log', all⟩ :=
    (Program.wlp_iff_exec _ _ _).mp (body_ends (.broadcast id) w) result w' execution
  have same : fresh = fresh' := List.append_cancel_right (log.symm.trans log')
  obtain ⟨-, rfl⟩ := (all entry (same ▸ member)).accepts accepts
  have guard : ReuseGuard (.broadcast id) w.store := .of_not_fail trivial nofun
  refine ⟨safe.step guard outcome, ?_⟩
  generalize w'.store = s' at outcome
  cases outcome with
  | @accepted id wr' wallet' now finds' signed txHash inflight =>
    have row : wr' = wr := Option.some.inj (finds'.withdrawal.symm.trans finds.withdrawal)
    subst row
    have owner : wallet' = wallet := Option.some.inj (finds'.wallet.symm.trans finds.wallet)
    subst owner
    have live : wr'.state.live = true := by rw [signed]; rfl
    obtain ⟨m, nonce', bound⟩ := safe.nonces.below id wr' wallet' finds evm live
    rw [Option.some.inj (nonce'.symm.trans nonce)] at bound
    have range := safe.nonces.inRange wr'.walletID wallet'.chain evm
    have low := (safe.nonces.recorded id wr' n finds.withdrawal nonce).1
    have moved : ((w.store.spend now wr' wallet' txHash).commit wr' wallet').broadcasted
        wr'.walletID wallet'.chain = max (w.store.broadcasted wr'.walletID wallet'.chain)
          (wrapInt64 (n + 1)) := by
      simp only [Store.commit, nonce, evm, if_true, Store.broadcasted_advance, and_self,
        broadcasted_congr (w.store.spend_frame now wr' wallet' txHash).2.1]
    change n < ((w.store.spend now wr' wallet' txHash).commit wr' wallet').broadcasted _ _
    rw [moved, wrapInt64_of_inInt64 ⟨by omega, by omega⟩]
    omega

/-- A consumed nonce is not handed out along a run within the guard. -/
theorem notReused_of_runs {svc : Service} {w w' : World SagaCall} {walletID : UUID} {chain : Chain}
    {n : Int} (safe : ReuseSafe w.store) (evm : chain.isEVM = true)
    (consumed : n < w.store.broadcasted walletID chain)
    (runs : Runs step svc.body (fun call w => ReuseGuard call w.store) w w') :
    NotReused walletID chain n w w' ∧ n < w'.store.broadcasted walletID chain := by
  induction runs with
  | refl =>
    exact ⟨⟨⟨[], rfl, fun _ member => absurd member List.not_mem_nil⟩,
      safe.ordered walletID chain evm⟩, consumed⟩
  | @tail w₁ w₂ before last ih =>
    obtain ⟨⟨⟨old, log, unused⟩, -⟩, consumed⟩ := ih
    have safe := reuseSafe_of_runs safe before
    obtain ⟨call, result, guard, outcome, fresh, log', noted⟩ := completes_outcome last
    have ordered := (safe.step guard outcome).ordered walletID chain evm
    refine ⟨⟨⟨fresh ++ old, ?_, fun entry member handed => ?_⟩, ordered⟩,
      consumed.trans_le (outcome.broadcasted_le walletID chain)⟩
    · rw [log', log, List.append_assoc]
    · rcases List.mem_append.mp member with member | member
      · -- what this operation hands out is pending before it, and the nonce is below that
        have pending := (noted entry member).reserves walletID chain n handed
        have below := safe.ordered walletID chain evm
        omega
      · exact unused entry member handed

/-- In every run whose operations all meet the guard, the nonce of a transaction that the
gateway accepted is not handed out again, and the broadcast nonce stays at or below the pending
one. A later `ReserveNonce` that meets the guard returns another nonce. -/
theorem consumed_nonce_not_reused (svc : Service) (start w₁ w₂ w₃ : World SagaCall) (id : UUID)
    (wr : WithdrawalRequest) (wallet : Wallet) (n : Int) (fresh : start.Fresh)
    (before : Runs step svc.body (fun call w => ReuseGuard call w.store) start w₁)
    (finds : w₁.store.Finds id wr wallet) (evm : wallet.chain.isEVM = true)
    (nonce : wr.nonceValue = some n) (accepted : Accepted svc id w₁ w₂)
    (after : Runs step svc.body (fun call w => ReuseGuard call w.store) w₂ w₃) :
    NotReused wr.walletID wallet.chain n w₂ w₃ ∧
      ∀ m w₄, ReuseGuard (.reserveNonce wr.walletID wallet.chain) w₃.store →
        (reserveNonce wr.walletID wallet.chain).Exec
          (step (.reserveNonce wr.walletID wallet.chain)) w₃ (.ok m) w₄ → m ≠ n := by
  have safe := reuseSafe_of_runs fresh.reuseSafe before
  obtain ⟨safe, consumed⟩ := accepted.consumes safe finds evm nonce
  refine ⟨(notReused_of_runs safe evm consumed after).1, fun m w₄ guard execution => ?_⟩
  -- the reservation makes the run longer, and what it returns is in the log
  have completes : Completes step svc.body (fun call w => ReuseGuard call w.store) w₃ w₄ :=
    ⟨_, _, guard, (Program.exec_bind ..).mpr ⟨_, _, execution, rfl, rfl⟩⟩
  obtain ⟨old, log, unused⟩ :=
    (notReused_of_runs safe evm consumed (after.tail completes)).1.reserves
  obtain ⟨new, log', entry, member, handed⟩ := reserveNonce_logged execution
  rintro rfl
  refine unused entry ?_ handed
  obtain ⟨earlier, log'', -⟩ := (notReused_of_runs safe evm consumed after).1.reserves
  rw [log'', ← List.append_assoc] at log'
  rw [← List.append_cancel_right (log'.symm.trans log)]
  exact List.mem_append_left _ member

/-- The entries that a log has gained. -/
def World.since (w' w : World SagaCall) : List (Entry SagaCall) :=
  w'.log.take (w'.log.length - w.log.length)

/-- A log that has grown by some entries has gained these. -/
theorem World.since_eq {w w' : World SagaCall} {fresh : List (Entry SagaCall)}
    (log : w'.log = fresh ++ w.log) : w'.since w = fresh := by
  simp [World.since, log]

/-- A scripted `Broadcast` whose new entries show that the gateway accepted the transaction. -/
theorem Accepted.of_play {svc : Service} {id : UUID} {script : Script} {w : World SagaCall}
    (accepts : ((svc.play [(.broadcast id, script)] w).since w).any Entry.accepts = true) :
    Accepted svc id w (svc.play [(.broadcast id, script)] w) := by
  have execution := Program.exec_run (fun op w => script.handle_follows (.broadcast id) op w)
    (svc.body (.broadcast id)) w
  obtain ⟨s', -, -, fresh, log, -⟩ :=
    (Program.wlp_iff_exec _ _ _).mp (body_ends (.broadcast id) w) _ _ execution
  have gained : (svc.play [(.broadcast id, script)] w).since w = fresh := World.since_eq log
  rw [gained, List.any_eq_true] at accepts
  exact ⟨⟨_, execution⟩, fresh, log, accepts⟩

/-- The worked run up to the signature of a withdrawal with the nonce zero. -/
def sampleSigned : World SagaCall := sampleService.play (signedEVM "ETH" 10) sampleStart

/-- The worked run up to its broadcast. -/
def sampleBroadcast : World SagaCall :=
  sampleService.play [(.broadcast (sampleID 10), accepting 10)] sampleSigned

/-- The signed withdrawal of the worked run. -/
theorem sampleSigned_finds : ∃ wr, sampleSigned.store.Finds (sampleID 10) wr sampleEVMWallet ∧
    wr.walletID = sampleEVMWallet.id ∧ wr.nonceValue = some 0 := by
  have ends : (sampleSigned.store.withdrawals.get (sampleID 10)).map
        (fun wr => (wr.walletID, wr.nonceValue)) = some (sampleEVMWallet.id, some 0) ∧
      sampleSigned.store.wallets.get sampleEVMWallet.id = some sampleEVMWallet := by
    decide +kernel
  obtain ⟨row, wallet⟩ := ends
  obtain ⟨wr, found, same⟩ := Option.map_eq_some_iff.mp row
  simp only [Prod.mk.injEq] at same
  exact ⟨wr, ⟨found, by rw [same.1, wallet]⟩, same⟩

/-- After the broadcast of a transaction with the nonce zero, the next reservations return one and
two. -/
theorem consumed_nonce_not_reused_once : ∃ w' : World SagaCall,
    NotReused sampleEVMWallet.id .ethereum 0 sampleBroadcast w' ∧
      (w'.since sampleBroadcast).filterMap Entry.reserves = [(sampleEVMWallet.id, .ethereum, 1)] ∧
      ((reserveNonce sampleEVMWallet.id .ethereum).run ((accepting 0).handle
        (.reserveNonce sampleEVMWallet.id .ethereum)) w').1 = .ok 2 ∧ (2 : Int) ≠ 0 := by
  let reservation : List (SagaCall × Script) :=
    [(.reserveNonce sampleEVMWallet.id .ethereum, accepting 0)]
  obtain ⟨wr, finds, owner, nonce⟩ := sampleSigned_finds
  have room (s : Store) (rows : ∀ row ∈ s.nonces.rows, row.pendingNonce < 2 ^ 63 - 1)
      (walletID : UUID) (chain : Chain) : s.pending walletID chain < 2 ^ 63 - 1 :=
    pending_lt_of_rows (by decide) rows walletID chain
  have before := sampleService.play_runs (fun call w => ReuseGuard call w.store)
    (signedEVM "ETH" 10) (w := sampleStart)
    ⟨.of_not_fail trivial nofun,
      .of_not_fail (fun _ _ _ _ => room _ (by decide +kernel) _ _) nofun, trivial⟩
  have after := sampleService.play_runs (fun call w => ReuseGuard call w.store) reservation
    (w := sampleBroadcast) ⟨.of_not_fail (fun _ => room _ (by decide +kernel) _ _) nofun, trivial⟩
  have accepted : Accepted sampleService (sampleID 10) sampleSigned sampleBroadcast :=
    .of_play (by decide +kernel)
  obtain ⟨unused, later⟩ := consumed_nonce_not_reused sampleService sampleStart sampleSigned
    sampleBroadcast _ (sampleID 10) wr sampleEVMWallet 0 ⟨rfl, rfl⟩ before finds rfl nonce accepted
    after
  rw [owner] at unused later
  have again := Program.exec_run
    (fun op w => (accepting 0).handle_follows (.reserveNonce sampleEVMWallet.id .ethereum) op w)
    (reserveNonce sampleEVMWallet.id .ethereum) (sampleService.play reservation sampleBroadcast)
  have returned : ((reserveNonce sampleEVMWallet.id .ethereum).run ((accepting 0).handle
      (.reserveNonce sampleEVMWallet.id .ethereum))
      (sampleService.play reservation sampleBroadcast)).1 = .ok 2 := by decide +kernel
  rw [returned] at again
  refine ⟨sampleService.play reservation sampleBroadcast, unused, by decide +kernel, returned, ?_⟩
  exact later 2 _ (.of_not_fail (fun _ => room _ (by decide +kernel) _ _) nofun) again

/-- `Fail` of a withdrawal that is broadcast already gives its nonce back, and the next
reservation returns it. -/
theorem consumed_nonce_reused : ¬ ∀ (svc : Service) (start w₁ w₂ w₃ : World SagaCall) (id : UUID)
    (wr : WithdrawalRequest) (wallet : Wallet) (n : Int), start.Fresh →
    Runs step svc.body (fun call _ => call.nonceful = true) start w₁ →
    w₁.store.Finds id wr wallet → wallet.chain.isEVM = true → wr.nonceValue = some n →
    Accepted svc id w₁ w₂ → Runs step svc.body (fun call _ => call.nonceful = true) w₂ w₃ →
    NotReused wr.walletID wallet.chain n w₂ w₃ := by
  intro unused
  let rest : List (SagaCall × Script) := [(.fail (sampleID 10) "", accepting 0),
    (.reserveNonce sampleEVMWallet.id .ethereum, accepting 0)]
  obtain ⟨wr, finds, owner, nonce⟩ := sampleSigned_finds
  have before : Runs step sampleService.body (fun call _ => call.nonceful = true) sampleStart
      sampleSigned := sampleService.play_runs _ (signedEVM "ETH" 10)
        (sampleService.admits_of_calls (by decide) sampleStart)
  have after : Runs step sampleService.body (fun call _ => call.nonceful = true) sampleBroadcast
      (sampleService.play rest sampleBroadcast) := sampleService.play_runs _ rest
        (sampleService.admits_of_calls (by decide) sampleBroadcast)
  have accepted : Accepted sampleService (sampleID 10) sampleSigned sampleBroadcast :=
    .of_play (by decide +kernel)
  have safe := unused sampleService sampleStart sampleSigned sampleBroadcast _ (sampleID 10) wr
    sampleEVMWallet 0 ⟨rfl, rfl⟩ before finds rfl nonce accepted after
  obtain ⟨fresh, log, never⟩ := safe.reserves
  have again : some (sampleEVMWallet.id, Chain.ethereum, (0 : Int)) ∈
      ((sampleService.play rest sampleBroadcast).since sampleBroadcast).map Entry.reserves := by
    decide +kernel
  rw [World.since_eq log] at again
  obtain ⟨entry, member, handed⟩ := List.mem_map.mp again
  refine never entry member ?_
  rw [handed, owner]
  rfl

end WalletManagement
