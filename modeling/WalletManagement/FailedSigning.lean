import WalletManagement.ActiveSigning
import WalletManagement.NonceSafety
import WalletManagement.UTXOSafety

/-!
# What a failed signature gives back

`ConstructAndSign` reserves a nonce or outpoints and can then fail in seven places: the key, the
reservation itself, the address, the amount, an outpoint, the signer, and the signature it returns.
Whichever it is, the outpoints are free again and the withdrawal is where it was, or failed once
the signer was asked. The nonce is given back as well, unless it is negative: `rollback` takes a
negative number for no nonce at all, and the counter of a row is negative once it has wrapped
around.
-/

namespace WalletManagement

open Interaction Data Go

/-- What is left of a `ConstructAndSign` that returned an error. -/
structure Released (w w' : World SagaCall) (id : UUID) : Prop where
  /-- Every unspent output has the lock state it had. -/
  locks : ∀ op, w'.store.lockState op = w.store.lockState op
  /-- Every nonce counter of an EVM chain that was not negative is where it was. -/
  nonces : ∀ walletID chain, chain.isEVM = true → 0 ≤ w.store.pending walletID chain →
    w'.store.pending walletID chain = w.store.pending walletID chain
  /-- The withdrawal is still whitelisted, or failed if the signer was asked. -/
  state : ∃ row, w'.store.withdrawals.get id = some row ∧
    (¬ Signs w w' ∧ row.state = .whitelisted ∨ Signs w w' ∧ row.state = .failed)

/-! ## Giving back -/

/-- A rollback of the nonce reserved last undoes the reservation. -/
theorem Store.pending_rollback_increment {s s' : Store} {walletID : UUID} {chain : Chain}
    (reserved : s'.nonces = (s.incrementPendingNonce walletID chain).2.nonces) (walletID' : UUID)
    (chain' : Chain) :
    (s'.rollbackPendingNonce walletID chain (s.pending walletID chain)).2.pending walletID' chain' =
      s.pending walletID' chain' := by
  let row := (s.nonce walletID chain)
  let next := { row with
    pendingNonce := wrapInt64 (row.pendingNonce + 1), version := wrapInt64 (row.version + 1) }
  have key : next.key = nonceKey walletID chain := s.nonce_key walletID chain
  have stored : s'.nonces = s.nonces.put next := reserved
  have found : s'.nonces.get (nonceKey walletID chain) = some next := by
    rw [stored, ← key]
    exact Table.get_put_self ..
  have last : next.pendingNonce = wrapInt64 (s.pending walletID chain + 1) := rfl
  unfold rollbackPendingNonce
  simp only [found, if_pos last]
  let back := { next with
    pendingNonce := s.pending walletID chain, version := wrapInt64 (next.version + 1) }
  have twice : ({ s' with nonces := s'.nonces.put back } : Store).nonces = s.nonces.put back := by
    show s'.nonces.put back = s.nonces.put back
    rw [stored]
    exact Table.put_put _ rfl
  rw [pending, nonce_of_put twice (s.nonce_key walletID chain)]
  split
  · rename_i same
    rw [← same.1, ← same.2]
  · rfl

/-- `rollback` undoes what a reservation did to the counters that were not negative. -/
theorem Reservation.pending_release {order : SortSlice largerValue} {s reserved : Store}
    {wr wr' : WithdrawalRequest} {wallet : Wallet} {now n : Int} {ops : List String}
    (reservation : Reservation order s wr wallet n ops wr' reserved)
    (owned : wallet.id = wr.walletID) {walletID : UUID} {chain : Chain}
    (natural : 0 ≤ s.pending walletID chain) :
    (reserved.release now wallet n ops).pending walletID chain = s.pending walletID chain := by
  cases reservation with
  | nonce evm =>
    by_cases here : wr.walletID = walletID ∧ wallet.chain = chain
    · obtain ⟨rfl, rfl⟩ := here
      have given : (0 ≤ s.pending wr.walletID wallet.chain && wallet.chain.isEVM) = true := by
        simp [natural, evm]
      simp only [Store.release, given, if_true, ne_eq, not_true_eq_false, if_false, owned]
      refine Store.pending_rollback_increment ?_ _ _
      rfl
    · -- neither the reservation nor its rollback touches another row
      have moved := s.pending_increment wr.walletID wallet.chain walletID chain
      rw [if_neg here] at moved
      rcases WalletManagement.pending_release _ now wallet (s.pending wr.walletID wallet.chain) []
        walletID chain with kept | ⟨-, same, row, -⟩
      · rw [kept]
        exact moved
      · exact absurd ⟨owned ▸ same, row⟩ here
  | @outpoints _ _ taken bitcoin selected =>
    have same := pending_congr (s.lockUTXOs_frame taken ops).2.1 walletID chain
    rcases WalletManagement.pending_release _ now wallet (-1) ops walletID chain with
      kept | ⟨impossible, -⟩
    · rw [kept]
      exact same
    · exact absurd impossible (by decide)
  | nothing other notBitcoin => rfl

/-! ## The signer was asked -/

section Asked

variable {svc : Service} {w w₁ : World SagaCall} {s : Store} {wr wr' : WithdrawalRequest}
  {wallet : Wallet} {n : Int} {ops : List String} {caller : SagaCall}

/-- Once the signer was asked it stays so. -/
theorem Signs.later {w w₁ w₂ : World SagaCall} {ok : Entry SagaCall → Prop} (signs : Signs w w₁)
    (here : Reaches ok w₁ s w₂) : Signs w w₂ := by
  obtain ⟨-, fresh, log, -⟩ := here
  have more : w₂.log.countP Entry.signs =
      fresh.countP Entry.signs + w₁.log.countP Entry.signs := by rw [log, List.countP_append]
  unfold Signs at signs ⊢
  omega

/-- A call of the signer is seen in the log. -/
theorem signs_record {ok : Entry SagaCall → Prop} (here : Reaches ok w s w₁) (req : SignRequest)
    (answer : Op.Ans (.sign req)) : Signs w (w₁.record caller (.sign req) answer) := by
  obtain ⟨-, fresh, log, -⟩ := here
  have more : (w₁.record caller (.sign req) answer).log.countP Entry.signs =
      fresh.countP Entry.signs + w.log.countP Entry.signs + 1 := by
    show List.countP _ (_ :: w₁.log) = _
    rw [List.countP_cons_of_pos rfl, log, List.countP_append]
  unfold Signs
  omega

/-- The state of the withdrawal after a reservation whose transaction is not signed: as it was
before the signer was asked, and failed afterwards. -/
theorem signReserved_state (here : Reaches (fun entry => entry.signs = false) w s w₁)
    (keyID : String) (found : s.withdrawals.get wr.id = some wr') :
    (svc.signReserved wr wallet keyID n ops).Wlp (step caller) (fun result w₂ =>
      ∀ err, result = .error err → ∃ row, w₂.store.withdrawals.get wr.id = some row ∧
        (¬ Signs w w₂ ∧ row.state = wr'.state ∨ Signs w w₂ ∧ row.state = .failed)) w₁ := by
  have failing (w₁ : World SagaCall) (same : w₁.store = s) (signs : Signs w w₁) (reason : String)
      (err : Err) :
      (do Service.rollback wallet n ops
          let _ ← perform (.store (.updateWithdrawalState wr.id .failed reason "" ""))
          pure (.error err) : Prog (Except Err Unit)).Wlp (step caller) (fun result w₂ =>
        ∀ err, result = .error err → ∃ row, w₂.store.withdrawals.get wr.id = some row ∧
          (¬ Signs w w₂ ∧ row.state = wr'.state ∨ Signs w w₂ ∧ row.state = .failed)) w₁ := by
    have start : Reaches (fun _ => True) w₁ s w₁ := same ▸ .refl w₁
    refine (start.rollback (fun _ _ => trivial) wallet n ops).bind fun _ w₂ released => ?_
    obtain ⟨now, here⟩ := released
    refine here.store_bind (fun _ => trivial) fun _ w₃ here => ?_
    intro err _
    have stored : (s.release now wallet n ops).withdrawals.get wr.id = some wr' := by
      simpa using found
    have id : wr'.id = wr.id := Table.key_of_get found
    have store := here.store
    simp only [StoreOp.exec, Store.updateWithdrawalState_found stored] at store
    refine ⟨Store.setState .failed reason "" "" wr', ?_, .inr ⟨signs.later here, rfl⟩⟩
    rw [store, ← id]
    exact Table.get_put_self ..
  unfold Service.signReserved
  cases built : buildUnsignedTx svc.libs wallet wr n ops with
  | error err =>
    refine (here.rollback (fun _ routine => routine.2) wallet n ops).bind fun _ w₂ released => ?_
    obtain ⟨now, here⟩ := released
    intro err _
    refine ⟨wr', ?_, .inl ⟨not_signs_of_reaches here, rfl⟩⟩
    rw [here.store, (s.release_frame now wallet n ops).2]
    exact found
  | ok unsigned =>
    refine .perform_bind fun answer w₂ moved => ?_
    have signs : Signs w w₂ := by
      cases moved
      exact signs_record here _ answer
    have same : w₂.store = s := by
      cases moved
      exact here.store
    have start : Reaches (fun _ => True) w₂ s w₂ := same ▸ .refl w₂
    cases answer with
    | error err => exact failing w₂ same signs _ _
    | ok resp =>
      cases assembled : unsigned.assemble resp.signature with
      | error err =>
        simp only [assembled]
        exact failing w₂ same signs _ _
      | ok bytes =>
        -- the withdrawal is there, so both writes succeed and no error is left
        simp only [assembled]
        refine start.store_bind (fun _ => trivial) fun _ w₃ here => ?_
        have persisted := Store.updateWithdrawal_found found fun w =>
          { w with signedTxBytes := bytes }
        simp only [StoreOp.exec, Store.updateWithdrawalSignedTx, persisted] at here ⊢
        refine here.store_bind (fun _ => trivial) fun _ w₄ here => ?_
        simp only [StoreOp.exec, s.updateWithdrawalState_signed found bytes] at here ⊢
        refine (here.emit (fun _ _ => trivial) _ _).bind fun _ w₅ _ => ?_
        intro err impossible
        cases impossible

/-- The state of the withdrawal after a `ConstructAndSign` that returned an error. -/
theorem constructAndSign_state {id : UUID} (found : w.store.withdrawals.get id = some wr)
    (whitelisted : wr.state = .whitelisted) :
    (svc.constructAndSign id).Wlp (step caller) (fun result w' =>
      ∀ err, result = .error err → ∃ row, w'.store.withdrawals.get id = some row ∧
        (¬ Signs w w' ∧ row.state = .whitelisted ∨ Signs w w' ∧ row.state = .failed)) w := by
  have key : wr.id = id := Table.key_of_get found
  have stored : w.store.withdrawals.get wr.id = some wr := by rw [key, found]
  -- an error before the signer is asked leaves the row alone
  have early (s : Store) (same : s.withdrawals = w.store.withdrawals) (w₁ : World SagaCall)
      (here : Reaches (fun entry => entry.signs = false) w s w₁) :
      ∃ row, w₁.store.withdrawals.get id = some row ∧
        (¬ Signs w w₁ ∧ row.state = .whitelisted ∨ Signs w w₁ ∧ row.state = .failed) := by
    refine ⟨wr, ?_, .inl ⟨not_signs_of_reaches here, whitelisted⟩⟩
    rw [here.store, same]
    exact found
  have routine (entry : Entry SagaCall) (fine : entry.Routine) : entry.signs = false := fine.2
  have start : Reaches (fun entry => entry.signs = false) w w.store w := .refl w
  refine start.getWithdrawal_bind routine (fun err w₁ here => ?_) fun wr₁ w₁ found₁ here => ?_
  · exact fun _ _ => early _ rfl w₁ here
  rw [found] at found₁
  cases found₁
  dsimp only
  rw [if_neg (not_not_intro whitelisted)]
  refine here.getWallet_bind routine (fun err w₂ here => ?_) fun wallet w₂ owned here => ?_
  · exact fun _ _ => early _ rfl w₂ here
  have lookup : (svc.resolveKey wr.walletID).Wlp (step caller)
      (fun _ w₃ => Reaches (fun entry => entry.signs = false) w w.store w₃) w₂ := by
    unfold Service.resolveKey
    split
    · refine here.ask_bind (fun _ _ _ h => h) (fun _ => rfl) fun answer w₃ here => ?_
      cases answer <;> exact here
    · exact here
  refine lookup.bind fun lookup w₃ here => ?_
  cases lookup with
  | error err => exact fun _ _ => early _ rfl w₃ here
  | ok keyID =>
    refine (here.reserve routine (fun entry _ silent _ => silent) stored).bind
      fun result w₄ here => ?_
    cases result with
    | error err =>
      rcases here with here | ⟨-, here⟩
      · exact fun _ _ => early _ rfl w₄ here
      · exact fun _ _ => early _ (Store.rollbackPendingNonce_frame ..).2.2 w₄ here
    | ok handed =>
      obtain ⟨wr', reserved, reservation, here⟩ := here
      have state : wr'.state = .whitelisted := by
        rw [(reservation.written stored).2.2.2.2, whitelisted]
      refine (signReserved_state here keyID (reservation.recorded stored)).mono
        fun result w₅ ends => ?_
      rwa [key, state] at ends

end Asked

/-! ## The whole operation -/

/-- Over every state of the in-memory store, a `ConstructAndSign` of a whitelisted withdrawal that
returns an error, run alone, leaves every lock state, every nonce counter of an EVM chain that was
not negative, and the withdrawal whitelisted, or failed if the signer was asked. -/
theorem failed_signing_releases (svc : Service) (w w' : World SagaCall) (id : UUID)
    (wr : WithdrawalRequest) (found : w.store.withdrawals.get id = some wr)
    (whitelisted : wr.state = .whitelisted) (err : Err)
    (execution : (svc.constructAndSign id).Exec (step (.constructAndSign id)) w (.error err) w') :
    Released w w' id := by
  have state := (Program.wlp_iff_exec _ _ _).mp (constructAndSign_state found whitelisted) _ _
    execution err rfl
  obtain ⟨s', outcome, reaches⟩ :=
    (Program.wlp_iff_exec _ _ _).mp (constructAndSign_ends id) _ _ execution
  have store := reaches.store
  refine ⟨fun op => ?_, fun walletID chain evm natural => ?_, state⟩
  · rw [store]
    cases outcome with
    | refused => rfl
    | unselected => exact lockState_congr (Store.rollbackPendingNonce_frame ..).2.1 op
    | constructed finds whitelisted reservation signing =>
      cases signing with
      | unbuilt => exact reservation.lockState_release op
      | failed => exact reservation.lockState_release op
  · rw [store]
    cases outcome with
    | refused => rfl
    | @unselected _ walletID' =>
      exact w.store.pending_rollback_bitcoin walletID' (-1) walletID evm
    | constructed finds whitelisted reservation signing =>
      have owned := Table.key_of_get finds.wallet
      cases signing with
      | unbuilt => exact reservation.pending_release owned natural
      | failed => exact reservation.pending_release owned natural

/-- The signer refuses. -/
def refusing : Script := { signer := .error ⟨"signer unavailable", none⟩ }

/-- A withdrawal of the Ethereum wallet, ready to be signed. -/
def sampleReady : World SagaCall :=
  sampleService.play [(.create (sampleEVMRequest "ETH"), accepting 9)] sampleStart

/-- The signer refuses a withdrawal with the first nonce: it is failed, and the counter is back. -/
theorem failed_signing_releases_refused :
    ∃ w' err, (sampleService.constructAndSign (sampleID 9)).Exec
        (step (.constructAndSign (sampleID 9))) sampleReady (.error err) w' ∧
      Released sampleReady w' (sampleID 9) ∧ Signs sampleReady w' := by
  have execution := Program.exec_run
    (fun op w => refusing.handle_follows (.constructAndSign (sampleID 9)) op w)
    (sampleService.constructAndSign (sampleID 9)) sampleReady
  have answer : ((sampleService.constructAndSign (sampleID 9)).run
      (refusing.handle (.constructAndSign (sampleID 9))) sampleReady).1 =
      .error ⟨"sign: signer unavailable", none⟩ := by decide +kernel
  rw [answer] at execution
  have ready : (sampleReady.store.withdrawals.get (sampleID 9)).map WithdrawalRequest.state =
      some .whitelisted := by decide +kernel
  obtain ⟨wr, found, whitelisted⟩ := Option.map_eq_some_iff.mp ready
  exact ⟨_, _, execution, failed_signing_releases sampleService _ _ _ wr found
    whitelisted _ execution, by unfold Signs; decide +kernel⟩

/-! ## A counter that wrapped around -/

section Wrapped

variable {s : Store} {walletID : UUID} {chain : Chain}

/-- The row that has handed out a number of nonces. -/
def countedRow (walletID : UUID) (chain : Chain) (count : Nat) : Nonce :=
  ⟨walletID, chain, wrapInt64 count, 0, wrapInt64 count⟩

/-- The store with a row that has handed out a number of nonces. -/
def Store.counted (s : Store) (walletID : UUID) (chain : Chain) (count : Nat) : Store :=
  { s with nonces := s.nonces.put (countedRow walletID chain count) }

/-- The first nonce of a row. -/
theorem Store.counted_one (unused : s.nonces.get (nonceKey walletID chain) = none) :
    (s.incrementPendingNonce walletID chain).2 = s.counted walletID chain 1 := by
  have row : s.nonce walletID chain = { walletID, chain } := by rw [Store.nonce, unused]; rfl
  unfold Store.incrementPendingNonce
  rw [row]
  rfl

/-- Each further nonce of a row. -/
theorem Store.counted_succ (s : Store) (walletID : UUID) (chain : Chain) (count : Nat) :
    ((s.counted walletID chain count).incrementPendingNonce walletID chain).2 =
      s.counted walletID chain (count + 1) := by
  have key : (countedRow walletID chain count).key = nonceKey walletID chain := rfl
  have row : (s.counted walletID chain count).nonce walletID chain =
      countedRow walletID chain count := by
    rw [Store.nonce, Store.counted, ← key, Table.get_put_self]
    rfl
  have next : { countedRow walletID chain count with
      pendingNonce := wrapInt64 ((countedRow walletID chain count).pendingNonce + 1)
      version := wrapInt64 ((countedRow walletID chain count).version + 1) } =
        countedRow walletID chain (count + 1) := by
    simp only [countedRow, wrapInt64_add, Nat.cast_add, Nat.cast_one]
  simp only [Store.incrementPendingNonce, row, next]
  have same : (countedRow walletID chain (count + 1)).key = nonceKey walletID chain := rfl
  simp only [Store.counted, Table.put_put _ (key.trans same.symm)]

/-- A reservation through the nonce service. -/
def reservations (walletID : UUID) (chain : Chain) (count : Nat) : List (SagaCall × Script) :=
  List.replicate count (.reserveNonce walletID chain, {})

/-- Any number of reservations of a row that has handed out some nonces. -/
theorem play_reservations (svc : Service) (count more : Nat) (w : World SagaCall)
    (start : w.Alike { store := s.counted walletID chain count }) :
    (svc.play (reservations walletID chain more) w).Alike
      { store := s.counted walletID chain (count + more) } := by
  induction more generalizing count w with
  | zero => exact start
  | succ more ih =>
    have moved : ((svc.body (.reserveNonce walletID chain)).run
        (({} : Script).handle (.reserveNonce walletID chain)) w).2.Alike
        { store := s.counted walletID chain (count + 1) } := by
      refine ⟨?_, start.snapshot, start.depth⟩
      show (w.store.incrementPendingNonce walletID chain).2 = s.counted walletID chain (count + 1)
      rw [start.store]
      exact s.counted_succ walletID chain count
    have later := ih (count + 1) _ moved
    rwa [Nat.add_right_comm, Nat.add_assoc] at later

end Wrapped

/-- The withdrawal of `sampleReady` after so many reservations of its wallet that the counter has
wrapped around. -/
def sampleWrapped : World SagaCall :=
  sampleService.play (reservations sampleEVMWallet.id .ethereum (2 ^ 63)) sampleReady

/-- The store of `sampleWrapped`. -/
def sampleWrappedStore : Store := sampleReady.store.counted sampleEVMWallet.id .ethereum (2 ^ 63)

theorem sampleWrapped_alike : sampleWrapped.Alike { store := sampleWrappedStore } := by
  have unused : sampleReady.store.nonces.get (nonceKey sampleEVMWallet.id .ethereum) = none := by
    decide +kernel
  have first : ((sampleService.body (.reserveNonce sampleEVMWallet.id .ethereum)).run
      (({} : Script).handle (.reserveNonce sampleEVMWallet.id .ethereum)) sampleReady).2.Alike
      { store := sampleReady.store.counted sampleEVMWallet.id .ethereum 1 } :=
    ⟨Store.counted_one unused, rfl, rfl⟩
  unfold sampleWrapped sampleWrappedStore
  obtain ⟨more, count⟩ : ∃ more, 2 ^ 63 = 1 + more := ⟨2 ^ 63 - 1, by norm_num⟩
  rw [count]
  have later := play_reservations sampleService 1 more _ first
  rw [reservations, Nat.add_comm 1 more, List.replicate_succ]
  rwa [Nat.add_comm] at later

/-- A counter that has wrapped around is negative, and a nonce that it hands out is not given
back when the signer refuses. -/
theorem wrapped_nonce_kept :
    ∃ w' err, Runs step sampleService.body (fun _ _ => True) sampleStart sampleWrapped ∧
      (sampleWrapped.store.withdrawals.get (sampleID 9)).map WithdrawalRequest.state =
        some .whitelisted ∧
      (sampleService.constructAndSign (sampleID 9)).Exec (step (.constructAndSign (sampleID 9)))
        sampleWrapped (.error err) w' ∧
      sampleWrapped.store.pending sampleEVMWallet.id .ethereum = -2 ^ 63 ∧
      w'.store.pending sampleEVMWallet.id .ethereum = -2 ^ 63 + 1 := by
  have alike := sampleWrapped_alike
  have created : Runs step sampleService.body (fun _ _ => True) sampleStart sampleReady :=
    sampleService.play_runs _ _ (sampleService.admits_of_calls (fun _ _ => trivial) _)
  have reserved : Runs step sampleService.body (fun _ _ => True) sampleReady sampleWrapped :=
    sampleService.play_runs _ _ (sampleService.admits_of_calls (fun _ _ => trivial) _)
  have execution := Program.exec_run
    (fun op w => refusing.handle_follows (.constructAndSign (sampleID 9)) op w)
    (sampleService.constructAndSign (sampleID 9)) sampleWrapped
  obtain ⟨answer, later⟩ := refusing.run_alike (.constructAndSign (sampleID 9))
    (sampleService.constructAndSign (sampleID 9)) alike
  have refused : ((sampleService.constructAndSign (sampleID 9)).run
      (refusing.handle (.constructAndSign (sampleID 9)))
      ({ store := sampleWrappedStore } : World SagaCall)).1 =
      .error ⟨"sign: signer unavailable", none⟩ := by decide +kernel
  rw [answer, refused] at execution
  refine ⟨_, _, created.trans reserved, ?_, execution, ?_, ?_⟩
  · rw [alike.store]
    decide +kernel
  · rw [alike.store]
    decide +kernel
  · rw [later.store]
    decide +kernel

end WalletManagement
