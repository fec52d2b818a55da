import WalletManagement.MemStoreRows
import WalletManagement.Withdrawal

/-!
# What one saga operation does

The operations of the saga run alone, from their first call to their return. For each of them
an inversion theorem says which stores it can leave behind and what it can have added to the
log: which nonces it reserved, and whether the gateway accepted a transaction. Invariants of
runs are derived from these theorems without looking at the programs again.
-/

namespace WalletManagement

open Interaction Data Go

/-! ## Following a program -/

section Follow

variable {L α : Type}

/-- The nonce an answer of the store hands out, with its wallet and chain. -/
def StoreOp.reserves : (op : StoreOp) → Except Err op.Result → Option (UUID × Chain × Int)
  | .incrementPendingNonce walletID chain, .ok answer => some (walletID, chain, answer.1)
  | _, _ => none

/-- The nonce an entry hands out, with its wallet and chain. -/
def Entry.reserves (entry : Entry L) : Option (UUID × Chain × Int) :=
  match entry.op, entry.answer with
  | .store op, answer => op.reserves answer
  | _, _ => none

/-- The entry is the gateway accepting a transaction. -/
def Entry.accepts (entry : Entry L) : Bool :=
  match entry.op, entry.answer with
  | .broadcastTx _, .ok _ => true
  | _, _ => false

/-- The entry neither hands out a nonce nor is an accepted transaction. -/
def Entry.Quiet (entry : Entry L) : Prop := entry.reserves = none ∧ entry.accepts = false

/-- The entry is a call of the signer. -/
def Entry.signs (entry : Entry L) : Bool :=
  match entry.op with
  | .sign _ => true
  | _ => false

/-- The entry is quiet and no call of the signer. -/
def Entry.Routine (entry : Entry L) : Prop := entry.Quiet ∧ entry.signs = false

/-- A program that started in `w` has brought the store to `s`, adding only entries that
satisfy `ok` to the log. -/
structure Reaches (ok : Entry L → Prop) (w : World L) (s : Store) (w' : World L) : Prop where
  /-- The store. -/
  store : w'.store = s
  /-- The new entries. -/
  log : ∃ fresh, w'.log = fresh ++ w.log ∧ ∀ entry ∈ fresh, ok entry

namespace Reaches

variable {ok ok' : Entry L → Prop} {w w₁ w₂ : World L} {s : Store} {caller : L}

theorem refl (w : World L) : Reaches ok w w.store w :=
  ⟨rfl, [], rfl, fun _ member => absurd member List.not_mem_nil⟩

/-- More entries may be satisfied. -/
theorem mono (here : Reaches ok w s w₁) (weaker : ∀ entry, ok entry → ok' entry) :
    Reaches ok' w s w₁ := by
  obtain ⟨store, fresh, log, all⟩ := here
  exact ⟨store, fresh, log, fun entry member => weaker entry (all entry member)⟩

/-- One more entry, and a new store. -/
theorem record (here : Reaches ok w s w₁) {op : Op} {answer : op.Ans}
    (fine : ok ⟨caller, op, answer⟩) {store : Store} (next : w₂.store = store)
    (logged : w₂.log = ⟨caller, op, answer⟩ :: w₁.log) : Reaches ok w store w₂ := by
  obtain ⟨-, fresh, log, all⟩ := here
  refine ⟨next, ⟨caller, op, answer⟩ :: fresh, ?_, fun entry member => ?_⟩
  · rw [logged, log, List.cons_append]
  · rcases List.mem_cons.mp member with rfl | member
    · exact fine
    · exact all entry member

/-- One more entry, and the same store. -/
theorem recorded (here : Reaches ok w s w₁) {op : Op} {answer : op.Ans}
    (fine : ok ⟨caller, op, answer⟩) : Reaches ok w s (w₁.record caller op answer) :=
  here.record fine here.store rfl

/-- Follow a call of the store. -/
theorem store_bind (here : Reaches ok w s w₁) {op : StoreOp}
    {next : Except Err op.Result → Prog α} {post : α → World L → Prop}
    (fine : ∀ now, ok ⟨caller, .store op, (op.exec now s).1⟩)
    (rest : ∀ now w₂, Reaches ok w (op.exec now s).2 w₂ →
      (next (op.exec now s).1).Wlp (step caller) post w₂) :
    (perform (.store op) >>= next).Wlp (step caller) post w₁ := by
  intro answer w₂ moved
  obtain ⟨now, rfl, rfl⟩ := step_store.mp moved
  rw [here.store]
  exact rest now _ (here.record (fine now) rfl rfl)

/-- Follow a call that leaves the store alone. -/
theorem ask_bind (here : Reaches ok w s w₁) {op : Op} {next : op.Ans → Prog α}
    {post : α → World L → Prop} (untouched : ∀ w answer w', op.Effect (L := L) w answer w' → w' = w)
    (fine : ∀ answer, ok ⟨caller, op, answer⟩)
    (rest : ∀ answer w₂, Reaches ok w s w₂ → (next answer).Wlp (step caller) post w₂) :
    (perform op >>= next).Wlp (step caller) post w₁ :=
  wlp_ask untouched fun answer => rest answer _ (here.recorded (fine answer))

/-- Follow the reading of a withdrawal. -/
theorem getWithdrawal_bind (here : Reaches ok w s w₁) {id : UUID}
    {next : Except Err WithdrawalRequest → Prog α} {post : α → World L → Prop}
    (quiet : ∀ entry, entry.Routine → ok entry)
    (missing : ∀ err w₂, Reaches ok w s w₂ → (next (.error err)).Wlp (step caller) post w₂)
    (present : ∀ wr w₂, s.withdrawals.get id = some wr → Reaches ok w s w₂ →
      (next (.ok wr)).Wlp (step caller) post w₂) :
    (perform (.store (.getWithdrawal id)) >>= next).Wlp (step caller) post w₁ := by
  refine here.store_bind (fun _ => quiet _ ⟨⟨rfl, rfl⟩, rfl⟩) fun _ w₂ here => ?_
  cases found : s.withdrawals.get id with
  | none =>
    simpa only [StoreOp.exec, Store.getWithdrawal, found, Store.found] using missing _ w₂ here
  | some wr =>
    simpa only [StoreOp.exec, Store.getWithdrawal, found, Store.found] using
      present wr w₂ found here

/-- Follow the reading of a wallet. -/
theorem getWallet_bind (here : Reaches ok w s w₁) {id : UUID}
    {next : Except Err Wallet → Prog α} {post : α → World L → Prop}
    (quiet : ∀ entry, entry.Routine → ok entry)
    (missing : ∀ err w₂, Reaches ok w s w₂ → (next (.error err)).Wlp (step caller) post w₂)
    (present : ∀ wallet w₂, s.wallets.get id = some wallet → Reaches ok w s w₂ →
      (next (.ok wallet)).Wlp (step caller) post w₂) :
    (perform (.store (.getWallet id)) >>= next).Wlp (step caller) post w₁ := by
  refine here.store_bind (fun _ => quiet _ ⟨⟨rfl, rfl⟩, rfl⟩) fun _ w₂ here => ?_
  cases found : s.wallets.get id with
  | none => simpa only [StoreOp.exec, Store.getWallet, found, Store.found] using missing _ w₂ here
  | some wallet =>
    simpa only [StoreOp.exec, Store.getWallet, found, Store.found] using
      present wallet w₂ found here

end Reaches

end Follow

/-! ## The parts of the operations -/

/-- What `rollback` does to the store. -/
def Store.release (s : Store) (now : Int) (wallet : Wallet) (n : Int) (ops : List String) :
    Store :=
  let s := if 0 ≤ n && wallet.chain.isEVM then
    (s.rollbackPendingNonce wallet.id wallet.chain n).2 else s
  if ops ≠ [] then (s.restoreUTXOs now ops).2 else s

@[simp] theorem Store.release_frame (s : Store) (now : Int) (wallet : Wallet) (n : Int)
    (ops : List String) :
    (s.release now wallet n ops).wallets = s.wallets ∧
      (s.release now wallet n ops).withdrawals = s.withdrawals := by
  unfold Store.release
  by_cases nonce : 0 ≤ n && wallet.chain.isEVM <;> by_cases some : ops = [] <;> simp [nonce, some]

/-- `rollback` leaves the in-flight keys alone. -/
@[simp] theorem Store.release_inflight (s : Store) (now : Int) (wallet : Wallet) (n : Int)
    (ops : List String) :
    (s.release now wallet n ops).inflightWithdrawals = s.inflightWithdrawals := by
  have rolled := s.rollbackPendingNonce_inflight wallet.id wallet.chain n
  have restored (s : Store) :
      (s.restoreUTXOs now ops).2.inflightWithdrawals = s.inflightWithdrawals := rfl
  unfold Store.release
  by_cases nonce : 0 ≤ n && wallet.chain.isEVM <;> by_cases some : ops = [] <;>
    simp [nonce, some, rolled, restored]

section Parts

variable {ok : Entry SagaCall → Prop} {w w₁ : World SagaCall} {s : Store} {caller : SagaCall}

namespace Reaches

theorem emit (here : Reaches ok w s w₁) (quiet : ∀ entry, entry.Routine → ok entry) (audit : Bool)
    (event : AuditEvent) :
    (Service.emit audit event).Wlp (step caller) (fun _ w₂ => Reaches ok w s w₂) w₁ := by
  refine runIf_wlp (fun _ => here) fun _ answer w₂ moved => ?_
  cases moved
  exact here.recorded (quiet _ ⟨⟨rfl, rfl⟩, rfl⟩)

theorem rollbackNonce (here : Reaches ok w s w₁) (quiet : ∀ entry, entry.Routine → ok entry)
    (walletID : UUID) (chain : Chain) (n : Int) :
    (WalletManagement.rollbackNonce walletID chain n).Wlp (step caller)
      (fun _ w₂ => Reaches ok w (s.rollbackPendingNonce walletID chain n).2 w₂) w₁ :=
  here.store_bind (fun _ => quiet _ ⟨⟨rfl, rfl⟩, rfl⟩) fun _ _ here => here

theorem rollback (here : Reaches ok w s w₁) (quiet : ∀ entry, entry.Routine → ok entry)
    (wallet : Wallet) (n : Int) (ops : List String) :
    (Service.rollback wallet n ops).Wlp (step caller)
      (fun _ w₂ => ∃ now, Reaches ok w (s.release now wallet n ops) w₂) w₁ := by
  have nonces : (runIf (0 ≤ n && wallet.chain.isEVM)
      (WalletManagement.rollbackNonce wallet.id wallet.chain n)).Wlp (step caller) (fun _ w₂ =>
        Reaches ok w (if 0 ≤ n && wallet.chain.isEVM then
          (s.rollbackPendingNonce wallet.id wallet.chain n).2 else s) w₂) w₁ := by
    refine runIf_wlp (fun no => ?_) fun yes => ?_
    · rw [no]
      exact here
    · rw [yes]
      exact here.rollbackNonce quiet _ _ _
  refine nonces.bind fun _ w₂ here => runIf_wlp (fun no => ?_) fun yes => ?_
  · have empty : ¬ops ≠ [] := of_decide_eq_false no
    refine ⟨0, ?_⟩
    simpa only [Store.release, if_neg empty] using here
  · have some : ops ≠ [] := of_decide_eq_true yes
    simp only [Store.release, if_pos some]
    change (perform (.store (.restoreUTXOs ops)) >>= Program.done).Wlp _ _ _
    exact here.store_bind (fun _ => quiet _ ⟨⟨rfl, rfl⟩, rfl⟩) fun now _ here => ⟨now, here⟩

theorem reserveNonce (here : Reaches ok w s w₁) (quiet : ∀ entry, entry.Routine → ok entry)
    (handed : ∀ entry : Entry SagaCall, entry.accepts = false → entry.signs = false →
      (∀ walletID chain n, entry.reserves = some (walletID, chain, n) →
        n = s.pending walletID chain) → ok entry)
    (walletID : UUID) (chain : Chain) :
    (WalletManagement.reserveNonce walletID chain).Wlp (step caller) (fun result w₂ =>
      match result with
      | .error _ => Reaches ok w s w₂
      | .ok n => n = s.pending walletID chain ∧
          Reaches ok w (s.incrementPendingNonce walletID chain).2 w₂) w₁ := by
  unfold WalletManagement.reserveNonce
  generalize 50 = tries
  induction tries generalizing w₁ with
  | zero => exact here
  | succ tries ih =>
    refine here.ask_bind (fun _ _ _ h => h) (fun _ => quiet _ ⟨⟨rfl, rfl⟩, rfl⟩)
      fun answer w₂ here => ?_
    match answer with
    | .error _ => exact here
    | .ok (_, false) => exact ih here
    | .ok (token, true) =>
      refine here.store_bind (fun _ => handed _ rfl rfl ?_) fun _ w₃ here => ?_
      · intro walletID' chain' n same
        cases same
        rfl
      · refine here.ask_bind (fun _ _ _ h => h) (fun _ => quiet _ ⟨⟨rfl, rfl⟩, rfl⟩)
          fun _ w₄ here => ?_
        exact ⟨rfl, here⟩

end Reaches

/-- The outcome of a successful `SelectForAmount`. -/
structure Selected (order : SortSlice largerValue) (s : Store) (walletID : UUID) (amount : Int)
    (ops : List String) (total : Int) : Prop where
  /-- The loop took these outpoints, with this total. -/
  taken : selectLoop amount (order.sort (s.listFreeUTXOs walletID)) [] 0 = (ops, total)
  /-- The total reaches the amount. -/
  enough : amount ≤ total
  /-- The outpoints could be locked. -/
  locked : ∀ now, (s.lockUTXOs now ops).1 = .ok ()

theorem Reaches.selectForAmount (here : Reaches ok w s w₁)
    (quiet : ∀ entry, entry.Routine → ok entry)
    (order : SortSlice largerValue) (walletID : UUID) (amount : Int) :
    (WalletManagement.selectForAmount order walletID amount).Wlp (step caller) (fun result w₂ =>
      match result with
      | .error _ => Reaches ok w s w₂
      | .ok (ops, total) => Selected order s walletID amount ops total ∧
          ∃ now, Reaches ok w (s.lockUTXOs now ops).2 w₂) w₁ := by
  refine here.store_bind (fun _ => quiet _ ⟨⟨rfl, rfl⟩, rfl⟩) fun _ w₂ here => ?_
  simp only [StoreOp.exec] at here ⊢
  rcases taken : selectLoop amount (order.sort (s.listFreeUTXOs walletID)) [] 0 with ⟨ops, total⟩
  dsimp only
  split
  · exact here
  · rename_i enough
    refine here.store_bind (fun _ => quiet _ ⟨⟨rfl, rfl⟩, rfl⟩) fun now w₃ here => ?_
    simp only [StoreOp.exec] at here ⊢
    rcases s.lockUTXOs_cases now ops with ⟨⟨err, refused⟩, same⟩ | ⟨locked, -⟩
    · rw [refused]
      rw [same] at here
      exact here
    · rw [locked]
      exact ⟨⟨taken, not_lt.mp enough, Store.lockUTXOs_ok locked⟩, now, here⟩

/-- What a reservation for a withdrawal does: the nonce and outpoints it hands out, the
withdrawal that records them, and the store. -/
inductive Reservation (order : SortSlice largerValue) (s : Store) (wr : WithdrawalRequest)
    (wallet : Wallet) : Int → List String → WithdrawalRequest → Store → Prop where
  /-- A nonce on an EVM chain. -/
  | nonce (evm : wallet.chain.isEVM = true) :
    Reservation order s wr wallet (s.pending wr.walletID wallet.chain) []
      { wr with nonceValue := some (s.pending wr.walletID wallet.chain) }
      { (s.incrementPendingNonce wr.walletID wallet.chain).2 with
        withdrawals := s.withdrawals.put
          { wr with nonceValue := some (s.pending wr.walletID wallet.chain) } }
  /-- Outpoints on Bitcoin. -/
  | outpoints {ops : List String} {total now : Int} (bitcoin : wallet.chain = .bitcoin)
    (selected : Selected order s wr.walletID (parseInt wr.amount).1 ops total) :
    Reservation order s wr wallet (-1) ops { wr with reservedOutpoints := ops }
      { (s.lockUTXOs now ops).2 with
        withdrawals := s.withdrawals.put { wr with reservedOutpoints := ops } }
  /-- Nothing on other chains. -/
  | nothing (other : wallet.chain.isEVM = false) (notBitcoin : wallet.chain ≠ .bitcoin) :
    Reservation order s wr wallet (-1) [] wr s

/-- A reservation records itself in the stored withdrawal and keeps its terms and state. -/
theorem Reservation.recorded {order : SortSlice largerValue} {s s' : Store}
    {wr wr' : WithdrawalRequest} {wallet : Wallet} {n : Int} {ops : List String}
    (reserved : Reservation order s wr wallet n ops wr' s')
    (found : s.withdrawals.get wr.id = some wr) :
    s'.withdrawals.get wr.id = some wr' := by
  cases reserved with
  | nonce evm => exact Table.get_put_self ..
  | outpoints bitcoin selected => exact Table.get_put_self ..
  | nothing => exact found

/-- The update of a row that is there. -/
theorem Store.updateWithdrawal_found {s : Store} {wr : WithdrawalRequest} {id : UUID}
    (found : s.withdrawals.get id = some wr) (change : WithdrawalRequest → WithdrawalRequest) :
    s.updateWithdrawal id change =
      (.ok (), { s with withdrawals := s.withdrawals.put (change wr) }) := by
  simp only [Store.updateWithdrawal, found]

/-- The update of the state of a row that is there. -/
theorem Store.updateWithdrawalState_found {s : Store} {wr : WithdrawalRequest} {id : UUID}
    (found : s.withdrawals.get id = some wr) (state : WithdrawalState)
    (reason txHash decision : String) :
    s.updateWithdrawalState id state reason txHash decision = (.ok (), { s with
      inflightWithdrawals :=
        if state = .confirmed ∨ state = .failed then s.inflightWithdrawals.erase wr.dedupKey
        else s.inflightWithdrawals
      withdrawals := s.withdrawals.put (setState state reason txHash decision wr) }) := by
  simp only [Store.updateWithdrawalState, found]

/-- Storing the signed bytes and then the state writes one row. -/
theorem Store.updateWithdrawalState_signed (s : Store) {wr : WithdrawalRequest} {id : UUID}
    (found : s.withdrawals.get id = some wr) (bytes : Bytes) :
    ({ s with withdrawals := s.withdrawals.put { wr with signedTxBytes := bytes } } :
        Store).updateWithdrawalState id .signed "" "" "" =
      (.ok (), { s with
        withdrawals := s.withdrawals.put
          { wr with signedTxBytes := bytes, state := .signed } }) := by
  have stored : (s.withdrawals.put { wr with signedTxBytes := bytes }).get id =
      some { wr with signedTxBytes := bytes } := by
    rw [← Table.key_of_get found]
    exact Table.get_put_self ..
  rw [Store.updateWithdrawalState_found stored]
  simp [Store.setState, Table.put_put]

/-- The reservation branch of `ConstructAndSign`. -/
theorem Reaches.reserve (here : Reaches ok w s w₁) (quiet : ∀ entry, entry.Routine → ok entry)
    (handed : ∀ entry : Entry SagaCall, entry.accepts = false → entry.signs = false →
      (∀ walletID chain n, entry.reserves = some (walletID, chain, n) →
        n = s.pending walletID chain) → ok entry)
    {svc : Service} {wr : WithdrawalRequest} {wallet : Wallet}
    (found : s.withdrawals.get wr.id = some wr) :
    (svc.reserve wr wallet).Wlp (step caller) (fun result w₂ =>
      match result with
      | .error _ => Reaches ok w s w₂ ∨ wallet.chain = .bitcoin ∧
          Reaches ok w (s.rollbackPendingNonce wr.walletID .bitcoin (-1)).2 w₂
      | .ok (n, ops) => ∃ wr' s', Reservation svc.order s wr wallet n ops wr' s' ∧
          Reaches ok w s' w₂) w₁ := by
  unfold Service.reserve
  split
  · rename_i evm
    refine (here.reserveNonce quiet handed wr.walletID wallet.chain).bind fun result w₂ here => ?_
    cases result with
    | error err => exact .inl here
    | ok n =>
      obtain ⟨rfl, here⟩ := here
      refine here.store_bind (fun _ => quiet _ ⟨⟨rfl, rfl⟩, rfl⟩) fun _ w₃ here =>
        ⟨_, _, .nonce evm, ?_⟩
      have stored : (s.incrementPendingNonce wr.walletID wallet.chain).2.withdrawals.get wr.id =
          some wr := found
      simp only [StoreOp.exec, Store.updateWithdrawalNonce,
        Store.updateWithdrawal_found stored] at here
      exact here
  · rename_i other
    split
    · rename_i bitcoin
      refine (here.selectForAmount quiet svc.order wr.walletID _).bind fun result w₂ here => ?_
      cases result with
      | error err =>
        rw [bitcoin]
        exact (here.rollbackNonce quiet _ _ _).bind fun _ w₃ here => .inr ⟨rfl, here⟩
      | ok taken =>
        obtain ⟨selected, now, here⟩ := here
        refine here.store_bind (fun _ => quiet _ ⟨⟨rfl, rfl⟩, rfl⟩) fun _ w₃ here => ?_
        have stored : (s.lockUTXOs now taken.1).2.withdrawals.get wr.id = some wr := by
          simpa using found
        simp only [StoreOp.exec, Store.updateWithdrawalOutpoints,
          Store.updateWithdrawal_found stored] at here ⊢
        refine ⟨_, _, @Reservation.outpoints _ s _ _ _ _ now bitcoin selected, ?_⟩
        simpa using here
    · rename_i notBitcoin
      exact ⟨wr, s, .nothing (by simpa using other) notBitcoin, here⟩

/-- What `ConstructAndSign` does after a reservation, from the store `s` in which the
reservation is recorded in the withdrawal `wr`. -/
inductive Signing (libs : Libraries) (s : Store) (wr : WithdrawalRequest) (wallet : Wallet)
    (n : Int) (ops : List String) : Except Err Unit → Store → Prop where
  /-- No transaction can be built; the withdrawal keeps its state. -/
  | unbuilt {now : Int} (err : Err) :
    Signing libs s wr wallet n ops (.error err) (s.release now wallet n ops)
  /-- The signature fails. -/
  | failed {now : Int} (err : Err) (reason : String) (inflight : Finset String)
    (cleared : inflight = s.inflightWithdrawals.erase wr.dedupKey) :
    Signing libs s wr wallet n ops (.error err) { s.release now wallet n ops with
      withdrawals := s.withdrawals.put (Store.setState .failed reason "" "" wr)
      inflightWithdrawals := inflight }
  /-- The withdrawal is signed. -/
  | signed {unsigned : UnsignedTx} {signature bytes : Bytes}
    (built : buildUnsignedTx libs wallet wr n ops = .ok unsigned)
    (assembled : unsigned.assemble signature = .ok bytes) :
    Signing libs s wr wallet n ops (.ok ()) { s with
      withdrawals := s.withdrawals.put { wr with signedTxBytes := bytes, state := .signed } }

/-- The part of `ConstructAndSign` after the reservation. -/
theorem Reaches.signReserved (here : Reaches ok w s w₁) (quiet : ∀ entry, entry.Quiet → ok entry)
    {svc : Service} {wr wr' : WithdrawalRequest} {wallet : Wallet} {n : Int} {ops : List String}
    (keyID : String) (found : s.withdrawals.get wr.id = some wr')
    (build : buildUnsignedTx svc.libs wallet wr n ops = buildUnsignedTx svc.libs wallet wr' n ops) :
    (svc.signReserved wr wallet keyID n ops).Wlp (step caller) (fun result w₂ =>
      ∃ s', Signing svc.libs s wr' wallet n ops result s' ∧ Reaches ok w s' w₂) w₁ := by
  have routine (entry : Entry SagaCall) (fine : entry.Routine) : ok entry := quiet entry fine.1
  have failing (w₁ : World SagaCall) (here : Reaches ok w s w₁) (reason : String) (err : Err) :
      (do Service.rollback wallet n ops
          let _ ← perform (.store (.updateWithdrawalState wr.id .failed reason "" ""))
          pure (.error err) : Prog (Except Err Unit)).Wlp (step caller) (fun result w₂ =>
        ∃ s', Signing svc.libs s wr' wallet n ops result s' ∧ Reaches ok w s' w₂) w₁ := by
    refine (here.rollback routine wallet n ops).bind fun _ w₂ ⟨now, here⟩ => ?_
    refine here.store_bind (fun _ => quiet _ ⟨rfl, rfl⟩) fun _ w₃ here => ?_
    have stored : (s.release now wallet n ops).withdrawals.get wr.id = some wr' := by
      simpa using found
    simp only [StoreOp.exec, Store.updateWithdrawalState_found stored] at here
    rw [(s.release_frame now wallet n ops).2] at here
    exact ⟨_, .failed err reason _ (by simp), here⟩
  unfold Service.signReserved
  rw [build]
  cases built : buildUnsignedTx svc.libs wallet wr' n ops with
  | error err =>
    exact (here.rollback routine wallet n ops).bind fun _ w₂ ⟨now, here⟩ => ⟨_, .unbuilt _, here⟩
  | ok unsigned =>
    refine here.ask_bind (fun _ _ _ h => h) (fun _ => quiet _ ⟨rfl, rfl⟩) fun answer w₂ here => ?_
    cases answer with
    | error err => exact failing w₂ here _ _
    | ok resp =>
      cases assembled : unsigned.assemble resp.signature with
      | error err =>
        simp only [assembled]
        exact failing w₂ here _ _
      | ok bytes =>
        simp only [assembled]
        refine here.store_bind (fun _ => quiet _ ⟨rfl, rfl⟩) fun _ w₃ here => ?_
        have persisted := Store.updateWithdrawal_found found fun w =>
          { w with signedTxBytes := bytes }
        have marked := s.updateWithdrawalState_signed found bytes
        simp only [StoreOp.exec, Store.updateWithdrawalSignedTx, persisted] at here ⊢
        refine here.store_bind (fun _ => quiet _ ⟨rfl, rfl⟩) fun _ w₄ here => ?_
        simp only [StoreOp.exec, marked] at here ⊢
        exact (here.emit routine _ _).bind fun _ w₅ here => ⟨_, .signed built assembled, here⟩

end Parts

/-- What a `ConstructAndSign` that reserved leaves behind: one written row, and the counters and
outpoints of the reservation, released again unless the withdrawal is signed. -/
structure Constructed (s reserved s' : Store) (wr wr' row : WithdrawalRequest) (wallet : Wallet)
    (n : Int) (ops : List String) : Prop where
  wallets : s'.wallets = s.wallets
  withdrawals : s'.withdrawals = s.withdrawals.put row
  id : row.id = wr.id
  walletID : row.walletID = wr.walletID
  nonceValue : row.nonceValue = wr'.nonceValue
  reservedOutpoints : row.reservedOutpoints = wr'.reservedOutpoints
  /-- The two ends. -/
  ends : (row.state = .signed ∧ s'.nonces = reserved.nonces ∧ s'.utxos = reserved.utxos) ∨
    ((row.state = wr.state ∨ row.state = .failed) ∧ ∃ now,
      s'.nonces = (reserved.release now wallet n ops).nonces ∧
      s'.utxos = (reserved.release now wallet n ops).utxos)
  /-- The terms of the withdrawal. -/
  dedupKey : row.dedupKey = wr.dedupKey
  /-- The in-flight key is cleared when the withdrawal fails. -/
  inflight : (row.state = wr.state ∨ row.state = .signed) ∧
      s'.inflightWithdrawals = s.inflightWithdrawals ∨
    row.state = .failed ∧ s'.inflightWithdrawals = s.inflightWithdrawals.erase wr.dedupKey

/-- A reservation writes its row. -/
theorem Reservation.written {order : SortSlice largerValue} {s s' : Store}
    {wr wr' : WithdrawalRequest} {wallet : Wallet} {n : Int} {ops : List String}
    (reservation : Reservation order s wr wallet n ops wr' s')
    (found : s.withdrawals.get wr.id = some wr) :
    s'.wallets = s.wallets ∧ s'.withdrawals = s.withdrawals.put wr' ∧ wr'.id = wr.id ∧
      wr'.walletID = wr.walletID ∧ wr'.state = wr.state := by
  cases reservation with
  | nonce evm => exact ⟨rfl, rfl, rfl, rfl, rfl⟩
  | outpoints bitcoin selected => exact ⟨(s.lockUTXOs_frame _ ops).1, rfl, rfl, rfl, rfl⟩
  | nothing other notBitcoin => exact ⟨rfl, (Table.put_self found).symm, rfl, rfl, rfl⟩

/-- A reservation keeps the terms of the withdrawal and the in-flight keys. -/
theorem Reservation.inflight {order : SortSlice largerValue} {s s' : Store}
    {wr wr' : WithdrawalRequest} {wallet : Wallet} {n : Int} {ops : List String}
    (reservation : Reservation order s wr wallet n ops wr' s') :
    wr'.dedupKey = wr.dedupKey ∧ s'.inflightWithdrawals = s.inflightWithdrawals := by
  cases reservation with
  | nonce evm => exact ⟨rfl, rfl⟩
  | outpoints bitcoin selected => exact ⟨rfl, s.lockUTXOs_inflight _ ops⟩
  | nothing other notBitcoin => exact ⟨rfl, rfl⟩

/-- The row and the counters after a reservation and a signature, successful or not. -/
theorem Signing.constructed {order : SortSlice largerValue} {libs : Libraries}
    {s reserved s' : Store} {wr wr' : WithdrawalRequest} {wallet : Wallet} {n : Int}
    {ops : List String} {result : Except Err Unit}
    (signing : Signing libs reserved wr' wallet n ops result s')
    (reservation : Reservation order s wr wallet n ops wr' reserved)
    (found : s.withdrawals.get wr.id = some wr) :
    ∃ row, Constructed s reserved s' wr wr' row wallet n ops := by
  obtain ⟨wallets, withdrawals, id, walletID, state⟩ := reservation.written found
  have kept (now : Int) := reserved.release_frame now wallet n ops
  obtain ⟨terms, keys⟩ := reservation.inflight
  cases signing with
  | unbuilt err =>
    refine ⟨wr', by rw [(kept _).1, wallets], by rw [(kept _).2, withdrawals], id, walletID, rfl,
      rfl, .inr ⟨.inl state, _, rfl, rfl⟩, terms, .inl ⟨.inl state, ?_⟩⟩
    rw [reserved.release_inflight, keys]
  | @failed now err reason inflight cleared =>
    refine ⟨Store.setState .failed reason "" "" wr', by rw [← wallets, ← (kept now).1], ?_, id,
      walletID, rfl, rfl, .inr ⟨.inr rfl, now, rfl, rfl⟩, terms, .inr ⟨rfl, ?_⟩⟩
    · rw [withdrawals]
      exact Table.put_put _ rfl
    · rw [cleared, keys, terms]
  | @signed unsigned signature bytes built assembled =>
    refine ⟨{ wr' with signedTxBytes := bytes, state := .signed }, wallets, ?_, id, walletID,
      rfl, rfl, .inl ⟨rfl, rfl, rfl⟩, terms, .inl ⟨.inr rfl, keys⟩⟩
    rw [withdrawals]
    exact Table.put_put _ rfl

/-! ## The operations -/

/-- What an accepted `Broadcast` does to the reserved outpoints. -/
def Store.spend (s : Store) (now : Int) (wr : WithdrawalRequest) (wallet : Wallet)
    (txHash : String) : Store :=
  if wallet.chain = .bitcoin && wr.reservedOutpoints ≠ [] then
    (s.markUTXOsSpent now wr.reservedOutpoints txHash).2
  else s

/-- What an accepted `Broadcast` does to the nonces. -/
def Store.commit (s : Store) (wr : WithdrawalRequest) (wallet : Wallet) : Store :=
  match wr.nonceValue with
  | some n =>
    if wallet.chain.isEVM then s.advanceBroadcastNonce wr.walletID wallet.chain n else s
  | none => s

@[simp] theorem Store.spend_frame (s : Store) (now : Int) (wr : WithdrawalRequest) (wallet : Wallet)
    (txHash : String) : (s.spend now wr wallet txHash).wallets = s.wallets ∧
      (s.spend now wr wallet txHash).nonces = s.nonces ∧
      (s.spend now wr wallet txHash).withdrawals = s.withdrawals := by
  unfold Store.spend
  split <;> simp

@[simp] theorem Store.commit_frame (s : Store) (wr : WithdrawalRequest) (wallet : Wallet) :
    (s.commit wr wallet).wallets = s.wallets ∧ (s.commit wr wallet).utxos = s.utxos ∧
      (s.commit wr wallet).withdrawals = s.withdrawals := by
  unfold Store.commit
  split
  · split <;> simp
  · simp

/-- An accepted `Broadcast` leaves the in-flight keys alone. -/
theorem Store.settled_inflight (s : Store) (now : Int) (wr : WithdrawalRequest) (wallet : Wallet)
    (txHash : String) :
    ((s.spend now wr wallet txHash).commit wr wallet).inflightWithdrawals =
      s.inflightWithdrawals := by
  have spent : (s.spend now wr wallet txHash).inflightWithdrawals = s.inflightWithdrawals := by
    unfold Store.spend
    split <;> rfl
  unfold Store.commit
  split
  · split
    · exact spent
    · exact spent
  · exact spent

/-- The store with the row of one withdrawal written. -/
def Store.writes (s : Store) (wr : WithdrawalRequest) (inflight : Finset String) : Store :=
  { s with withdrawals := s.withdrawals.put wr, inflightWithdrawals := inflight }

/-- The part of `Broadcast` after the gateway accepted the transaction. -/
theorem Reaches.settle {ok : Entry SagaCall → Prop} {w w₁ : World SagaCall} {s : Store}
    {caller : SagaCall} (here : Reaches ok w s w₁) (quiet : ∀ entry, entry.Routine → ok entry)
    {svc : Service} {wr : WithdrawalRequest} {wallet : Wallet}
    (found : s.withdrawals.get wr.id = some wr) (txHash : String) :
    (svc.settle wr wallet txHash).Wlp (step caller) (fun result w₂ => result = .ok () ∧ ∃ now,
      Reaches ok w (((s.spend now wr wallet txHash).commit wr wallet).writes
        (Store.setState .broadcast "" txHash "" wr) s.inflightWithdrawals) w₂) w₁ := by
  have spent : (runIf (wallet.chain = .bitcoin && wr.reservedOutpoints ≠ [])
      (markSpent wr.reservedOutpoints txHash)).Wlp (step caller)
        (fun _ w₂ => ∃ now, Reaches ok w (s.spend now wr wallet txHash) w₂) w₁ := by
    refine runIf_wlp (fun no => ?_) fun yes => ?_
    · simp only [Store.spend, no]
      exact ⟨0, here⟩
    · simp only [Store.spend, yes]
      change (perform (.store (.markUTXOsSpent _ _)) >>= Program.done).Wlp _ _ _
      exact here.store_bind (fun _ => quiet _ ⟨⟨rfl, rfl⟩, rfl⟩) fun now _ here => ⟨now, here⟩
  refine spent.bind fun _ w₂ ⟨now, here⟩ => ?_
  have committed : (Service.commitReserved wr wallet).Wlp (step caller)
      (fun _ w₃ => Reaches ok w ((s.spend now wr wallet txHash).commit wr wallet) w₃) w₂ := by
    unfold Service.commitReserved Store.commit
    cases wr.nonceValue with
    | none => exact here
    | some n =>
      refine runIf_wlp (fun no => ?_) fun yes => ?_
      · simp only [no]
        exact here
      · simp only [yes]
        change (perform (.store (.advanceBroadcastNonce _ _ _)) >>= Program.done).Wlp _ _ _
        exact here.store_bind (fun _ => quiet _ ⟨⟨rfl, rfl⟩, rfl⟩) fun _ _ here => here
  refine committed.bind fun _ w₃ here => ?_
  refine here.store_bind (fun _ => quiet _ ⟨⟨rfl, rfl⟩, rfl⟩) fun _ w₄ here => ?_
  have stored :
      ((s.spend now wr wallet txHash).commit wr wallet).withdrawals.get wr.id = some wr := by
    simpa using found
  simp only [StoreOp.exec, Store.updateWithdrawalState_found stored] at here ⊢
  refine (here.emit quiet _ _).bind fun _ w₅ here => ⟨rfl, now, ?_⟩
  rw [← s.settled_inflight now wr wallet txHash]
  exact here

/-- A withdrawal holds what it reserved. -/
def WithdrawalState.live : WithdrawalState → Bool
  | .signed | .broadcast | .confirmed => true
  | .pending | .whitelisted | .failed => false

/-- A withdrawal and its wallet are found. -/
structure Store.Finds (s : Store) (id : UUID) (wr : WithdrawalRequest) (wallet : Wallet) :
    Prop where
  /-- The withdrawal. -/
  withdrawal : s.withdrawals.get id = some wr
  /-- Its wallet. -/
  wallet : s.wallets.get wr.walletID = some wallet

/-- A withdrawal is found under its own identifier. -/
theorem Store.Finds.self {s : Store} {id : UUID} {wr : WithdrawalRequest} {wallet : Wallet}
    (finds : s.Finds id wr wallet) : s.withdrawals.get wr.id = some wr := by
  have key : wr.id = id := Table.key_of_get finds.withdrawal
  rw [key, finds.withdrawal]

/-- After one row is written, a withdrawal found is the written one, or it was there before. -/
theorem Store.Finds.of_put {s s' : Store} {id : UUID} {row wr : WithdrawalRequest}
    {wallet : Wallet} (finds : s'.Finds id wr wallet) (wallets : s'.wallets = s.wallets)
    (withdrawals : s'.withdrawals = s.withdrawals.put row) :
    (id = row.id ∧ wr = row ∧ s.wallets.get row.walletID = some wallet) ∨
      (id ≠ row.id ∧ s.Finds id wr wallet) := by
  have found := finds.withdrawal
  have owned := finds.wallet
  rw [wallets] at owned
  rw [withdrawals] at found
  rcases Table.get_put_cases found with ⟨same, rfl⟩ | ⟨other, found⟩
  · exact .inl ⟨same, rfl, owned⟩
  · exact .inr ⟨other, found, owned⟩

/-- Everything an operation can do, run alone over the in-memory store: its result and the
store it leaves. -/
inductive Outcome (svc : Service) (s : Store) : SagaCall → Except Err Unit → Store → Prop where
  /-- Any operation can return an error and do nothing. -/
  | refused (call : SagaCall) (err : Err) : Outcome svc s call (.error err) s
  /-- A new withdrawal, approved or not. -/
  | created {req : CreateRequest} {wr : WithdrawalRequest} (fresh : s.withdrawals.get wr.id = none)
    (checked : wr.state = .whitelisted ∨ wr.state = .failed) (nonce : wr.nonceValue = none)
    (outpoints : wr.reservedOutpoints = []) (inflight : Finset String)
    (unclaimed : wr.dedupKey ∉ s.inflightWithdrawals)
    (claimed : inflight = if wr.state = .failed then s.inflightWithdrawals
      else insert wr.dedupKey s.inflightWithdrawals) :
    Outcome svc s (.create req) (.ok ()) (s.writes wr inflight)
  /-- The outpoints of a Bitcoin wallet do not reach the amount. -/
  | unselected {id walletID : UUID} (err : Err) :
    Outcome svc s (.constructAndSign id) (.error err)
      (s.rollbackPendingNonce walletID .bitcoin (-1)).2
  /-- A nonce or outpoints are reserved, and the transaction is signed or not. -/
  | constructed {id : UUID} {wr wr' : WithdrawalRequest} {wallet : Wallet} {n : Int}
    {ops : List String} {reserved s' : Store} {result : Except Err Unit}
    (finds : s.Finds id wr wallet) (whitelisted : wr.state = .whitelisted)
    (reservation : Reservation svc.order s wr wallet n ops wr' reserved)
    (signing : Signing svc.libs reserved wr' wallet n ops result s') :
    Outcome svc s (.constructAndSign id) result s'
  /-- The gateway rejects the transaction. -/
  | rejected {id : UUID} {wr : WithdrawalRequest} {wallet : Wallet} {now : Int}
    (finds : s.Finds id wr wallet) (signed : wr.state = .signed) (err : Err)
    (inflight : Finset String) (cleared : inflight = s.inflightWithdrawals.erase wr.dedupKey) :
    Outcome svc s (.broadcast id) (.error err)
      ((s.release now wallet (Service.noncePtr wr) wr.reservedOutpoints).writes
        (Store.setState .failed "broadcast_failed" "" "" wr) inflight)
  /-- The gateway accepts the transaction. -/
  | accepted {id : UUID} {wr : WithdrawalRequest} {wallet : Wallet} {now : Int}
    (finds : s.Finds id wr wallet) (signed : wr.state = .signed) (txHash : String)
    (inflight : Finset String) (kept : inflight = s.inflightWithdrawals) :
    Outcome svc s (.broadcast id) (.ok ())
      (((s.spend now wr wallet txHash).commit wr wallet).writes
        (Store.setState .broadcast "" txHash "" wr) inflight)
  /-- A broadcast withdrawal is confirmed. -/
  | confirmed {id : UUID} {txHash : String} {wr : WithdrawalRequest}
    (found : s.withdrawals.get id = some wr) (broadcast : wr.state = .broadcast)
    (inflight : Finset String) (cleared : inflight = s.inflightWithdrawals.erase wr.dedupKey) :
    Outcome svc s (.confirm id txHash) (.ok ())
      (s.writes (Store.setState .confirmed "" txHash "" wr) inflight)
  /-- A withdrawal in any state is failed. -/
  | failed {id : UUID} {reason : String} {wr : WithdrawalRequest} {wallet : Wallet} {now : Int}
    (finds : s.Finds id wr wallet) (inflight : Finset String)
    (cleared : inflight = s.inflightWithdrawals.erase wr.dedupKey) :
    Outcome svc s (.fail id reason) (.ok ())
      ((s.release now wallet (Service.noncePtr wr) []).writes
        (Store.setState .failed reason "" "" wr) inflight)
  /-- A reorganisation frees outpoints. -/
  | reorged {id : UUID} {outpoints : List String} {now : Int} (result : Except Err Unit) :
    Outcome svc s (.onReorg id outpoints) result (s.restoreUTXOs now outpoints).2
  /-- A reorganisation also takes a confirmed withdrawal back to broadcast. -/
  | demoted {id : UUID} {outpoints : List String} {wr : WithdrawalRequest} {now : Int}
    (found : s.withdrawals.get id = some wr) (confirmed : wr.state = .confirmed)
    (inflight : Finset String) (kept : inflight = s.inflightWithdrawals)
    (restored : (s.restoreUTXOs now outpoints).1 = .ok ()) :
    Outcome svc s (.onReorg id outpoints) (.ok ())
      ((s.restoreUTXOs now outpoints).2.writes (Store.setState .broadcast "reorg" "" "" wr)
        inflight)
  /-- A new unspent output. -/
  | tracked {u : UTXO} {now : Int} (fresh : s.utxos.get u.outpoint = none) :
    Outcome svc s (.trackUTXO u) (.ok ())
      { s with utxos := s.utxos.put { u with updatedAt := now } }
  /-- A nonce is handed out. -/
  | handed {walletID : UUID} {chain : Chain} :
    Outcome svc s (.reserveNonce walletID chain) (.ok ())
      (s.incrementPendingNonce walletID chain).2

/-- What an operation can log: the nonces it hands out are the pending ones it started with, and
only a `Broadcast` that returns no error can have been accepted. -/
structure Noted (s : Store) (call : SagaCall) (result : Except Err Unit) (entry : Entry SagaCall) :
    Prop where
  /-- Nonces handed out. -/
  reserves : ∀ walletID chain n, entry.reserves = some (walletID, chain, n) →
    n = s.pending walletID chain
  /-- Transactions accepted. -/
  accepts : entry.accepts = true → (∃ id, call = .broadcast id) ∧ result = .ok ()

/-- A quiet entry can always be logged. -/
theorem Entry.Quiet.noted {entry : Entry SagaCall} (quiet : entry.Quiet) (s : Store)
    (call : SagaCall) (result : Except Err Unit) : Noted s call result entry := by
  refine ⟨fun walletID chain n same => ?_, fun yes => ?_⟩
  · rw [quiet.1] at same
    cases same
  · rw [quiet.2] at yes
    cases yes

section Operations

variable {svc : Service} {w : World SagaCall}

/-- An entry that hands out a pending nonce can be logged. -/
theorem Noted.handed {s : Store} {call : SagaCall} {result : Except Err Unit}
    (entry : Entry SagaCall) (rejected : entry.accepts = false)
    (pending : ∀ walletID chain n, entry.reserves = some (walletID, chain, n) →
      n = s.pending walletID chain) : Noted s call result entry := by
  refine ⟨pending, fun yes => ?_⟩
  rw [rejected] at yes
  cases yes

/-- The operation has ended with one of its outcomes. -/
abbrev Ends (svc : Service) (call : SagaCall) (w : World SagaCall) (result : Except Err Unit)
    (w' : World SagaCall) : Prop :=
  ∃ s', Outcome svc w.store call result s' ∧ Reaches (Noted w.store call result) w s' w'

theorem constructAndSign_ends (id : UUID) : (svc.constructAndSign id).Wlp
    (step (.constructAndSign id)) (Ends svc (.constructAndSign id) w) w := by
  let ok (entry : Entry SagaCall) : Prop := entry.accepts = false ∧
    ∀ walletID chain n, entry.reserves = some (walletID, chain, n) →
      n = w.store.pending walletID chain
  have quiet (entry : Entry SagaCall) (quiet : entry.Quiet) : ok entry :=
    ⟨quiet.2, (quiet.noted w.store (.constructAndSign id) (.ok ())).reserves⟩
  have routine (entry : Entry SagaCall) (fine : entry.Routine) : ok entry := quiet entry fine.1
  have noted (result : Except Err Unit) (entry : Entry SagaCall) (fine : ok entry) :
      Noted w.store (.constructAndSign id) result entry := .handed entry fine.1 fine.2
  have refused (err : Err) (w₁ : World SagaCall) (here : Reaches ok w w.store w₁) :
      Ends svc (.constructAndSign id) w (.error err) w₁ :=
    ⟨_, .refused _ _, here.mono (noted _)⟩
  have start : Reaches ok w w.store w := .refl w
  refine start.getWithdrawal_bind routine refused fun wr w₁ found here => ?_
  dsimp only
  by_cases whitelisted : wr.state = .whitelisted
  · rw [if_neg (not_not_intro whitelisted)]
    refine here.getWallet_bind routine refused fun wallet w₂ owned here => ?_
    have key : (svc.resolveKey wr.walletID).Wlp (step (.constructAndSign id))
        (fun _ w₃ => Reaches ok w w.store w₃) w₂ := by
      unfold Service.resolveKey
      split
      · refine here.ask_bind (fun _ _ _ h => h) (fun _ => quiet _ ⟨rfl, rfl⟩)
          fun answer w₃ here => ?_
        cases answer <;> exact here
      · exact here
    refine key.bind fun key w₃ here => ?_
    cases key with
    | error err => exact refused err w₃ here
    | ok keyID =>
      have stored : w.store.withdrawals.get wr.id = some wr := by
        rw [Table.key_of_get found, found]
      refine (here.reserve routine (fun entry no _ pending => ⟨no, pending⟩) stored).bind
        fun reserved w₄ here => ?_
      cases reserved with
      | error err =>
        rcases here with here | ⟨bitcoin, here⟩
        · exact refused err w₄ here
        · exact ⟨_, .unselected err, here.mono (noted _)⟩
      | ok reserved =>
        obtain ⟨n, ops⟩ := reserved
        obtain ⟨wr', s', reservation, here⟩ := here
        have build : buildUnsignedTx svc.libs wallet wr n ops =
            buildUnsignedTx svc.libs wallet wr' n ops := by
          cases reservation <;> exact buildUnsignedTx_congr _ _ rfl rfl rfl _ _
        refine (here.signReserved quiet keyID (reservation.recorded stored) build).mono
          fun result w₅ ⟨s'', signing, here⟩ => ⟨s'', ?_, here.mono (noted _)⟩
        exact .constructed ⟨found, owned⟩ whitelisted reservation signing
  · rw [if_pos whitelisted]
    exact refused _ w₁ here

/-- A successful `ConstructAndSign` has reserved, built a transaction with what it reserved, and
stored the transaction with a signature. -/
theorem constructAndSign_signed {w' : World SagaCall} {id : UUID} {wr : WithdrawalRequest}
    {wallet : Wallet} (finds : w.store.Finds id wr wallet)
    (success : (svc.constructAndSign id).Exec (step (.constructAndSign id)) w (.ok ()) w') :
    ∃ n ops wr' reserved unsigned signature bytes,
      Reservation svc.order w.store wr wallet n ops wr' reserved ∧
      buildUnsignedTx svc.libs wallet wr n ops = .ok unsigned ∧
      unsigned.assemble signature = .ok bytes ∧
      w'.store.withdrawals.get id = some { wr' with signedTxBytes := bytes, state := .signed } := by
  obtain ⟨s', outcome, rfl, -⟩ :=
    (Program.wlp_iff_exec _ _ _).mp (constructAndSign_ends id) _ _ success
  generalize w'.store = s' at outcome
  cases outcome with
  | @constructed _ wr₀ wr' wallet₀ n ops reserved _ _ finds₀ whitelisted reservation signing =>
    obtain rfl : wr₀ = wr := Option.some.inj (finds₀.withdrawal.symm.trans finds.withdrawal)
    obtain rfl : wallet₀ = wallet := Option.some.inj (finds₀.wallet.symm.trans finds.wallet)
    have key : wr₀.id = id := Table.key_of_get finds.withdrawal
    have written := reservation.written (key ▸ finds.withdrawal)
    have build : buildUnsignedTx svc.libs wallet₀ wr₀ n ops =
        buildUnsignedTx svc.libs wallet₀ wr' n ops := by
      cases reservation <;> exact buildUnsignedTx_congr _ _ rfl rfl rfl _ _
    cases signing with
    | @signed unsigned signature bytes built assembled =>
      refine ⟨n, ops, wr', reserved, unsigned, signature, bytes, reservation, build.trans built,
        assembled, ?_⟩
      rw [← key, ← written.2.2.1]
      exact Table.get_put_self _ _

theorem broadcast_ends (id : UUID) : (svc.broadcast id).Wlp (step (.broadcast id))
    (Ends svc (.broadcast id) w) w := by
  have noted (result : Except Err Unit) (entry : Entry SagaCall) (quiet : entry.Quiet) :
      Noted w.store (.broadcast id) result entry := quiet.noted ..
  have refused (err : Err) (w₁ : World SagaCall) (here : Reaches Entry.Quiet w w.store w₁) :
      Ends svc (.broadcast id) w (.error err) w₁ := ⟨_, .refused _ _, here.mono (noted _)⟩
  have start : Reaches Entry.Quiet w w.store w := .refl w
  refine start.getWithdrawal_bind (fun _ h => h.1) refused fun wr w₁ found here => ?_
  dsimp only
  by_cases signed : wr.state = .signed
  · rw [if_neg (not_not_intro signed)]
    refine here.getWallet_bind (fun _ h => h.1) refused fun wallet w₂ owned here => ?_
    dsimp only
    by_cases empty : wr.signedTxBytes = []
    · rw [if_pos empty]
      exact refused _ w₂ here
    · rw [if_neg empty]
      refine wlp_ask (fun _ _ _ h => h) fun answer => ?_
      cases answer with
      | error err =>
        refine Program.Wlp.bind
          (Reaches.rollback (here.recorded ⟨rfl, rfl⟩) (fun _ h => h.1) wallet _ _)
          fun _ w₄ ⟨now, here⟩ => ?_
        refine here.store_bind (fun _ => ⟨rfl, rfl⟩) fun _ w₅ here => ?_
        have stored : (w.store.release now wallet (Service.noncePtr wr)
            wr.reservedOutpoints).withdrawals.get id = some wr := by simpa using found
        simp only [StoreOp.exec, Store.updateWithdrawalState_found stored] at here
        exact ⟨_, .rejected ⟨found, owned⟩ signed _ _ (by simp), here.mono (noted _)⟩
      | ok resp =>
        -- from here on the only result is success, so the entry of the gateway is noted
        have accepted : Noted w.store (.broadcast id) (.ok ()) ⟨.broadcast id,
            .broadcastTx ⟨wallet.chain.name, wr.signedTxBytes, wr.walletID⟩, .ok resp⟩ := by
          refine ⟨fun walletID chain n same => ?_, fun _ => ⟨⟨id, rfl⟩, rfl⟩⟩
          cases same
        have here := (here.mono (noted (.ok ()))).recorded accepted
        have stored : w.store.withdrawals.get wr.id = some wr := by
          rw [Table.key_of_get found, found]
        refine (here.settle (fun entry fine => noted _ entry fine.1) stored resp.txHash).mono ?_
        rintro result w₃ ⟨rfl, now, here⟩
        exact ⟨_, .accepted ⟨found, owned⟩ signed resp.txHash _ rfl, here⟩
  · rw [if_pos signed]
    exact refused _ w₁ here

theorem confirm_ends (id : UUID) (txHash : String) : (svc.confirm id txHash).Wlp
    (step (.confirm id txHash)) (Ends svc (.confirm id txHash) w) w := by
  have noted (result : Except Err Unit) (entry : Entry SagaCall) (quiet : entry.Quiet) :
      Noted w.store (.confirm id txHash) result entry := quiet.noted ..
  have refused (err : Err) (w₁ : World SagaCall) (here : Reaches Entry.Quiet w w.store w₁) :
      Ends svc (.confirm id txHash) w (.error err) w₁ := ⟨_, .refused _ _, here.mono (noted _)⟩
  have start : Reaches Entry.Quiet w w.store w := .refl w
  refine start.getWithdrawal_bind (fun _ h => h.1) refused fun wr w₁ found here => ?_
  dsimp only
  by_cases broadcast : wr.state = .broadcast
  · rw [if_neg (not_not_intro broadcast)]
    refine here.store_bind (fun _ => ⟨rfl, rfl⟩) fun _ w₂ here => ?_
    simp only [StoreOp.exec, Store.updateWithdrawalState_found found] at here ⊢
    refine (here.emit (fun _ h => h.1) _ _).bind fun _ w₃ here => ?_
    exact ⟨_, .confirmed found broadcast _ (by simp), here.mono (noted _)⟩
  · rw [if_pos broadcast]
    exact refused _ w₁ here

theorem fail_ends (id : UUID) (reason : String) : (svc.fail id reason).Wlp
    (step (.fail id reason)) (Ends svc (.fail id reason) w) w := by
  have noted (result : Except Err Unit) (entry : Entry SagaCall) (quiet : entry.Quiet) :
      Noted w.store (.fail id reason) result entry := quiet.noted ..
  have refused (err : Err) (w₁ : World SagaCall) (here : Reaches Entry.Quiet w w.store w₁) :
      Ends svc (.fail id reason) w (.error err) w₁ := ⟨_, .refused _ _, here.mono (noted _)⟩
  have start : Reaches Entry.Quiet w w.store w := .refl w
  refine start.getWithdrawal_bind (fun _ h => h.1) refused fun wr w₁ found here => ?_
  refine here.getWallet_bind (fun _ h => h.1) refused fun wallet w₂ owned here => ?_
  refine (here.rollback (fun _ h => h.1) wallet _ _).bind fun _ w₃ ⟨now, here⟩ => ?_
  refine here.store_bind (fun _ => ⟨rfl, rfl⟩) fun _ w₄ here => ?_
  have stored : (w.store.release now wallet (Service.noncePtr wr) []).withdrawals.get id =
      some wr := by simpa using found
  simp only [StoreOp.exec, Store.updateWithdrawalState_found stored] at here ⊢
  refine (here.emit (fun _ h => h.1) _ _).bind fun _ w₅ here => ?_
  exact ⟨_, .failed ⟨found, owned⟩ _ (by simp), here.mono (noted _)⟩

theorem onReorg_ends (id : UUID) (outpoints : List String) : (Service.onReorg id outpoints).Wlp
    (step (.onReorg id outpoints)) (Ends svc (.onReorg id outpoints) w) w := by
  have noted (result : Except Err Unit) (entry : Entry SagaCall) (quiet : entry.Quiet) :
      Noted w.store (.onReorg id outpoints) result entry := quiet.noted ..
  have refused (err : Err) (w₁ : World SagaCall) (here : Reaches Entry.Quiet w w.store w₁) :
      Ends svc (.onReorg id outpoints) w (.error err) w₁ := ⟨_, .refused _ _, here.mono (noted _)⟩
  have start : Reaches Entry.Quiet w w.store w := .refl w
  refine start.getWithdrawal_bind (fun _ h => h.1) refused fun wr w₁ found here => ?_
  refine here.store_bind (fun _ => ⟨rfl, rfl⟩) fun now w₂ here => ?_
  cases restored : (StoreOp.exec (.restoreUTXOs outpoints) now w.store).1 with
  | error err => exact ⟨_, .reorged _, here.mono (noted _)⟩
  | ok _ =>
    dsimp only
    split
    · rename_i confirmed
      change (perform (.store (.updateWithdrawalState _ _ _ _ _)) >>= Program.done).Wlp _ _ _
      refine here.store_bind (fun _ => ⟨rfl, rfl⟩) fun _ w₃ here => ?_
      have stored : (StoreOp.exec (.restoreUTXOs outpoints) now w.store).2.withdrawals.get id =
          some wr := found
      simp only [StoreOp.exec] at here stored ⊢
      rw [Store.updateWithdrawalState_found stored] at here ⊢
      exact ⟨_, .demoted found confirmed _ (if_neg (by decide)) restored, here.mono (noted _)⟩
    · exact ⟨_, .reorged _, here.mono (noted _)⟩

theorem create_ends (req : CreateRequest) : (svc.create req).Wlp (step (.create req))
    (fun result w' => Ends svc (.create req) w (result.map fun _ => ()) w') w := by
  have noted (result : Except Err Unit) (entry : Entry SagaCall) (quiet : entry.Quiet) :
      Noted w.store (.create req) result entry := quiet.noted ..
  have refused (err : Err) (w₁ : World SagaCall) (here : Reaches Entry.Quiet w w.store w₁) :
      Ends svc (.create req) w (.error err) w₁ := ⟨_, .refused _ _, here.mono (noted _)⟩
  have start : Reaches Entry.Quiet w w.store w := .refl w
  refine start.getWallet_bind (fun _ h => h.1) (fun err => refused _) fun wallet w₁ _ here => ?_
  dsimp only
  split
  · exact refused _ w₁ here
  split
  · exact refused _ w₁ here
  refine here.ask_bind (fun _ _ _ h => h) (fun _ => ⟨rfl, rfl⟩) fun id w₂ here => ?_
  refine here.store_bind (fun _ => ⟨rfl, rfl⟩) fun _ w₃ here => ?_
  simp only [StoreOp.exec] at here ⊢
  rcases w.store.createWithdrawal_cases (req.withdrawal id) with
    ⟨⟨err, failed⟩, same⟩ | ⟨created, fresh, stored⟩
  · rw [failed]
    rw [same] at here
    exact refused _ w₃ here
  rw [created]
  refine (here.emit (fun _ h => h.1) _ _).bind fun _ w₄ here => ?_
  refine here.ask_bind (fun _ _ _ h => h) (fun _ => ⟨rfl, rfl⟩) fun answer w₅ here => ?_
  refine (here.emit (fun _ h => h.1) _ _).bind fun _ w₆ here => ?_
  rw [stored] at here
  -- whatever the policy answers, the new row gets its state with one more write
  have update (state : WithdrawalState) (reason decision : String) (inflight : Finset String) :
      Store.updateWithdrawalState { w.store with
        withdrawals := w.store.withdrawals.put (req.withdrawal id)
        inflightWithdrawals := inflight } id state reason "" decision =
      (.ok (), w.store.writes (Store.setState state reason "" decision (req.withdrawal id))
        (if state = .confirmed ∨ state = .failed then inflight.erase (req.withdrawal id).dedupKey
          else inflight)) := by
    have found : (w.store.withdrawals.put (req.withdrawal id)).get id =
        some (req.withdrawal id) := Table.get_put_self w.store.withdrawals (req.withdrawal id)
    have once : (w.store.withdrawals.put (req.withdrawal id)).put
        (Store.setState state reason "" decision (req.withdrawal id)) =
        w.store.withdrawals.put (Store.setState state reason "" decision (req.withdrawal id)) :=
      Table.put_put _ rfl
    rw [Store.updateWithdrawalState_found found]
    simp only [once, Store.writes]
  have unused (state : WithdrawalState) (reason decision : String) : w.store.withdrawals.get
      (Store.setState state reason "" decision (req.withdrawal id)).id = none := fresh
  have unclaimed := Store.createWithdrawal_unclaimed created
  cases Service.approval answer with
  | none =>
    refine here.store_bind (fun _ => ⟨rfl, rfl⟩) fun _ w₇ here => ?_
    simp only [StoreOp.exec, update] at here
    refine ⟨_, .created (unused _ _ _) (.inr rfl) rfl rfl _ unclaimed ?_, here.mono (noted _)⟩
    exact Finset.erase_insert unclaimed
  | some dec =>
    refine here.store_bind (fun _ => ⟨rfl, rfl⟩) fun _ w₇ here => ?_
    simp only [StoreOp.exec, update] at here ⊢
    exact ⟨_, .created (unused _ _ _) (.inl rfl) rfl rfl _ unclaimed rfl, here.mono (noted _)⟩

/-- Every operation, run alone, ends with one of its outcomes. -/
theorem body_ends (call : SagaCall) (w : World SagaCall) :
    (svc.body call).Wlp (step call) (Ends svc call w) w := by
  cases call with
  | create req => exact (create_ends req).bind fun _ _ ends => ends
  | constructAndSign id => exact constructAndSign_ends id
  | broadcast id => exact broadcast_ends id
  | confirm id txHash => exact confirm_ends id txHash
  | fail id reason => exact fail_ends id reason
  | onReorg id outpoints => exact onReorg_ends id outpoints
  | trackUTXO u =>
    have start : Reaches Entry.Quiet w w.store w := .refl w
    change (perform (.store (.insertUTXO u)) >>= Program.done).Wlp _ _ _
    refine start.store_bind (fun _ => ⟨rfl, rfl⟩) fun now w₁ here => ?_
    have here := here.mono fun entry quiet =>
      quiet.noted w.store (.trackUTXO u) (w.store.insertUTXO now u).1
    simp only [StoreOp.exec, Store.insertUTXO] at here ⊢
    cases found : w.store.utxos.get u.outpoint with
    | none =>
      simp only [found] at here ⊢
      exact ⟨_, .tracked found, here⟩
    | some _ =>
      simp only [found] at here ⊢
      exact ⟨_, .refused _ _, here⟩
  | reserveNonce walletID chain =>
    let ok (entry : Entry SagaCall) : Prop :=
      ∀ result, Noted w.store (.reserveNonce walletID chain) result entry
    have start : Reaches ok w w.store w := .refl w
    refine (start.reserveNonce (fun entry fine result => fine.1.noted ..)
      (fun entry no _ pending result => .handed entry no pending) walletID chain).bind
        fun result w₁ here => ?_
    cases result with
    | error err => exact ⟨_, .refused _ _, here.mono fun _ noted => noted _⟩
    | ok n => exact ⟨_, .handed, here.2.mono fun _ noted => noted _⟩

/-- The outcome of one complete operation. -/
theorem completes_outcome {guard : SagaCall → World SagaCall → Prop} {w w' : World SagaCall}
    (completes : Completes step svc.body guard w w') :
    ∃ call result, guard call w ∧ Outcome svc w.store call result w'.store ∧
      ∃ fresh, w'.log = fresh ++ w.log ∧ ∀ entry ∈ fresh, Noted w.store call result entry := by
  obtain ⟨call, result, admitted, execution⟩ := completes
  obtain ⟨s', outcome, ⟨rfl, log⟩⟩ :=
    (Program.wlp_iff_exec _ _ _).mp (body_ends call w) result w' execution
  exact ⟨call, result, admitted, outcome, log⟩

/-- What every admitted operation keeps of the store holds after every run. -/
theorem saga_run {guard : SagaCall → World SagaCall → Prop} {start w : World SagaCall}
    (runs : Runs step svc.body guard start w) (inv : Store → Prop) (initial : inv start.store)
    (kept : ∀ call result w s', guard call w → inv w.store → Outcome svc w.store call result s' →
      inv s') : inv w.store := by
  induction runs with
  | refl => exact initial
  | tail _ last here =>
    obtain ⟨call, result, admitted, outcome, -⟩ := completes_outcome last
    exact kept call result _ _ admitted here outcome

end Operations

end WalletManagement
