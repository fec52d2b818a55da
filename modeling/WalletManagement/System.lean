import WalletManagement.Interaction.Schedule
import WalletManagement.MemStore

/-!
# The calls the services make

The services of the repository are programs over one signature: the methods of the store, the
transaction bracket around them, and the methods of the collaborators the services are
constructed with (policy engine, signer, chain gateway, key lookup, locker, audit emitter).
The store answers as `memstore` computes; a collaborator answers anything and touches no table
modelled here. Every call is logged with its answer and with the service call that made it.
-/

namespace WalletManagement

open Interaction

/-! ## Requests and responses -/

/-- `policy.CheckRequest`. -/
structure CheckRequest where
  walletID : String
  toAddress : String
  asset : String
  amount : String
  deriving DecidableEq

/-- `policy.CheckResponse`. -/
structure CheckResponse where
  approved : Bool
  decisionID : String
  reason : String
  deriving DecidableEq

/-- `grpcclient.SignRequest`. -/
structure SignRequest where
  keyID : String
  txBytes : List UInt8
  walletID : UUID
  deriving DecidableEq

/-- `grpcclient.SignResponse`. -/
structure SignResponse where
  signature : List UInt8
  signerID : String
  deriving DecidableEq

/-- `grpcclient.BroadcastRequest`. -/
structure BroadcastRequest where
  chain : String
  txBytes : List UInt8
  walletID : UUID
  deriving DecidableEq

/-- `grpcclient.BroadcastResponse`. -/
structure BroadcastResponse where
  txHash : String
  deriving DecidableEq

/-- A value in the payload of an audit event. -/
inductive AuditValue where
  | id (value : UUID)
  | text (value : String)
  | number (value : Int)
  | texts (value : List String)
  | flag (value : Bool)
  deriving DecidableEq

/-- `audit.Event`. -/
structure AuditEvent where
  eventType : String
  walletID : Option UUID
  payload : List (String × AuditValue)
  deriving DecidableEq

/-! ## The signature -/

/-- The methods of `storage.Store` that the modelled services call. -/
inductive StoreOp where
  | getWallet (id : UUID)
  | upsertBalance (row : Balance)
  | getBalance (walletID : UUID) (asset : String)
  | recordBalanceEvent (event : BalanceEvent)
  | insertUTXO (u : UTXO)
  | listFreeUTXOs (walletID : UUID)
  | lockUTXOs (outpoints : List String)
  | markUTXOsSpent (outpoints : List String) (txHash : String)
  | restoreUTXOs (outpoints : List String)
  | incrementPendingNonce (walletID : UUID) (chain : Chain)
  | advanceBroadcastNonce (walletID : UUID) (chain : Chain) (nonce : Int)
  | rollbackPendingNonce (walletID : UUID) (chain : Chain) (target : Int)
  | createWithdrawal (w : WithdrawalRequest)
  | getWithdrawal (id : UUID)
  | updateWithdrawalState (id : UUID) (state : WithdrawalState)
    (reason txHash policyDecisionID : String)
  | updateWithdrawalNonce (id : UUID) (nonce : Int)
  | updateWithdrawalOutpoints (id : UUID) (outpoints : List String)
  | updateWithdrawalSignedTx (id : UUID) (txBytes : List UInt8)
  deriving DecidableEq

/-- What a store method returns besides its error. -/
abbrev StoreOp.Result : StoreOp → Type
  | .getWallet _ => Wallet
  | .getBalance _ _ => Balance
  | .listFreeUTXOs _ => List UTXO
  | .incrementPendingNonce _ _ => Int × Int
  | .rollbackPendingNonce _ _ _ => Int
  | .getWithdrawal _ => WithdrawalRequest
  | _ => Unit

/-- The in-memory implementation of the store methods, for a reading of the clock. -/
def StoreOp.exec : (op : StoreOp) → Int → Store → Except Err op.Result × Store
  | .getWallet id, _, s => (s.getWallet id, s)
  | .upsertBalance row, _, s => (.ok (), s.upsertBalance row)
  | .getBalance walletID asset, _, s => (s.getBalance walletID asset, s)
  | .recordBalanceEvent event, _, s => s.recordBalanceEvent event
  | .insertUTXO u, now, s => s.insertUTXO now u
  | .listFreeUTXOs walletID, _, s => (.ok (s.listFreeUTXOs walletID), s)
  | .lockUTXOs outpoints, now, s => s.lockUTXOs now outpoints
  | .markUTXOsSpent outpoints txHash, now, s => s.markUTXOsSpent now outpoints txHash
  | .restoreUTXOs outpoints, now, s => s.restoreUTXOs now outpoints
  | .incrementPendingNonce walletID chain, _, s =>
    (.ok (s.incrementPendingNonce walletID chain).1, (s.incrementPendingNonce walletID chain).2)
  | .advanceBroadcastNonce walletID chain nonce, _, s =>
    (.ok (), s.advanceBroadcastNonce walletID chain nonce)
  | .rollbackPendingNonce walletID chain target, _, s =>
    (.ok (s.rollbackPendingNonce walletID chain target).1,
      (s.rollbackPendingNonce walletID chain target).2)
  | .createWithdrawal w, _, s => s.createWithdrawal w
  | .getWithdrawal id, _, s => (s.getWithdrawal id, s)
  | .updateWithdrawalState id state reason txHash policyDecisionID, _, s =>
    s.updateWithdrawalState id state reason txHash policyDecisionID
  | .updateWithdrawalNonce id nonce, _, s => s.updateWithdrawalNonce id nonce
  | .updateWithdrawalOutpoints id outpoints, _, s => s.updateWithdrawalOutpoints id outpoints
  | .updateWithdrawalSignedTx id txBytes, _, s => s.updateWithdrawalSignedTx id txBytes

/-- The calls of the services. -/
inductive Op where
  /-- A method of the store. -/
  | store (op : StoreOp)
  /-- The opening of `InTx`. -/
  | begin
  /-- The end of an `InTx` whose function returned no error. -/
  | commit
  /-- The end of an `InTx` whose function returned an error. -/
  | rollback
  /-- `uuid.NewV7`, with its error ignored as every caller does. -/
  | newV7
  /-- `policy.Client.CheckWhitelist`. -/
  | checkWhitelist (req : CheckRequest)
  /-- `grpcclient.MPCSigner.Sign`. -/
  | sign (req : SignRequest)
  /-- `grpcclient.GatewayClient.BroadcastTx`. -/
  | broadcastTx (req : BroadcastRequest)
  /-- `KeyResolver.ResolveActiveKeyID`. -/
  | resolveActiveKeyID (walletID : UUID)
  /-- `lock.Locker.Acquire`. -/
  | acquire (name : String)
  /-- `lock.Locker.Release`. -/
  | release (name token : String)
  /-- `audit.Emitter.Emit`. -/
  | emit (event : AuditEvent)
  /-- `Service.OnConfirmedDecrease`. -/
  | onConfirmedDecrease (walletID : UUID) (asset : String)
  /-- `storage.Store.ListWithdrawals`. -/
  | listWithdrawals (walletID : UUID) (state : String)
  deriving DecidableEq

/-- The answers of a call. A policy answer can carry a response and an error at once. -/
abbrev Op.Ans : Op → Type
  | .store op => Except Err op.Result
  | .begin => Except Err Unit
  | .commit => Except Err Unit
  | .rollback => Unit
  | .newV7 => UUID
  | .checkWhitelist _ => Option CheckResponse × Option Err
  | .sign _ => Except Err SignResponse
  | .broadcastTx _ => Except Err BroadcastResponse
  | .resolveActiveKeyID _ => Except Err String
  | .acquire _ => Except Err (String × Bool)
  | .release _ _ => Except Err Unit
  | .emit _ => Except Err Unit
  | .onConfirmedDecrease _ _ => Unit
  | .listWithdrawals _ _ => Except Err (List WithdrawalRequest)

/-- The signature of the services' programs. -/
abbrev calls : Signature := ⟨Op, Op.Ans⟩

/-- Programs of the services. -/
abbrev Prog (α : Type) : Type := Program calls α

/-- The program of one call. -/
abbrev perform (op : Op) : Prog op.Ans := Program.perform (S := calls) op

/-- Run a program under a condition and ignore what it returns. -/
def runIf {α : Type} (condition : Bool) (program : Prog α) : Prog Unit :=
  if condition then do
    let _ ← program
    pure ()
  else pure ()

/-- A conditional program makes only the calls of the program. -/
theorem runIf_calls {α : Type} {allowed : Op → Prop} (condition : Bool) {program : Prog α}
    (calls : program.Calls allowed) : (runIf condition program).Calls allowed := by
  cases condition with
  | false => trivial
  | true => exact calls.bind fun _ => trivial

/-! ## The world -/

/-- A call that was made: for which entry point of a service, and what it answered. -/
structure Entry (L : Type) where
  caller : L
  op : Op
  answer : op.Ans

/-- The store, the open transaction, and the calls made so far, the last one first. -/
structure World (L : Type) where
  store : Store
  /-- The store at the start of the outermost open `InTx`. -/
  snapshot : Option Store := none
  /-- How many `InTx` are open. -/
  depth : Nat := 0
  log : List (Entry L) := []

variable {L : Type}

namespace World

/-- `InTx` takes a snapshot when it is not nested. -/
def beginTx (w : World L) : World L :=
  { w with
    snapshot := if w.depth = 0 then some w.store else w.snapshot
    depth := w.depth + 1 }

/-- `InTx` returns without an error. -/
def commitTx (w : World L) : World L :=
  { w with
    snapshot := if w.depth = 1 then none else w.snapshot
    depth := w.depth - 1 }

/-- `InTx` returns an error: the outermost one restores its snapshot. -/
def rollbackTx (w : World L) : World L :=
  { w with
    store := if w.depth = 1 then w.snapshot.getD w.store else w.store
    snapshot := if w.depth = 1 then none else w.snapshot
    depth := w.depth - 1 }

/-- Log a call. -/
def record (w : World L) (caller : L) (op : Op) (answer : op.Ans) : World L :=
  { w with log := ⟨caller, op, answer⟩ :: w.log }

end World

/-- What a call does to the store and the open transaction. A store method may read any time. A list
of withdrawals is sorted by the times of their creation, which are not kept, so it may come in any
order. -/
def Op.Effect : (op : Op) → World L → op.Ans → World L → Prop
  | .store op, w, answer, w' =>
    ∃ now, answer = (op.exec now w.store).1 ∧ w' = { w with store := (op.exec now w.store).2 }
  | .begin, w, answer, w' => answer = .ok () ∧ w' = w.beginTx
  | .commit, w, answer, w' => answer = .ok () ∧ w' = w.commitTx
  | .rollback, w, _, w' => w' = w.rollbackTx
  | .listWithdrawals walletID state, w, answer, w' =>
    (∃ rows, answer = .ok rows ∧ rows.Perm (w.store.listWithdrawals walletID state)) ∧ w' = w
  | _, w, _, w' => w' = w

/-- A call over `memstore`, made for an entry point. -/
def step (caller : L) : Transition calls (World L) := fun op w answer w' =>
  op.Effect (w.record caller op answer) answer w'

/-- A store method answers and acts as the in-memory store does. -/
theorem step_store {caller : L} {op : StoreOp} {w w' : World L} {answer : Except Err op.Result} :
    step caller (.store op) w answer w' ↔ ∃ now, answer = (op.exec now w.store).1 ∧
      w' = { w.record caller (.store op) answer with store := (op.exec now w.store).2 } := Iff.rfl

/-- The answer and the store after a store method. -/
theorem store_of_step {caller : L} {op : StoreOp} {w w' : World L} {answer : Except Err op.Result}
    (moved : step caller (.store op) w answer w') :
    ∃ now, answer = (op.exec now w.store).1 ∧ w'.store = (op.exec now w.store).2 := by
  obtain ⟨now, answered, rfl⟩ := step_store.mp moved
  exact ⟨now, answered, rfl⟩

/-- An execution that starts with a store method goes on with its answer, from its store. -/
theorem exec_store_bind {α : Type} {caller : L} {op : StoreOp}
    {next : Except Err op.Result → Prog α} {w w' : World L} {value : α}
    (execution : (perform (.store op) >>= next).Exec (step caller) w value w') :
    ∃ now middle, middle.store = (op.exec now w.store).2 ∧
      (next (op.exec now w.store).1).Exec (step caller) middle value w' := by
  obtain ⟨answer, middle, moved, rest⟩ := execution
  obtain ⟨now, rfl, store⟩ := store_of_step moved
  exact ⟨now, middle, store, rest⟩

/-- A call that leaves the store alone is verified by verifying the rest after every answer. -/
theorem wlp_ask {α : Type} {caller : L} {op : Op} {next : op.Ans → Prog α} {w : World L}
    {post : α → World L → Prop} (untouched : ∀ w answer w', op.Effect (L := L) w answer w' → w' = w)
    (rest : ∀ answer, (next answer).Wlp (step caller) post (w.record caller op answer)) :
    (perform op >>= next).Wlp (step caller) post w := by
  intro answer w' moved
  rw [untouched _ _ _ moved]
  exact rest answer

/-- A conditional program reaches what the program reaches, or stays. -/
theorem runIf_wlp {α : Type} {caller : L} {condition : Bool} {program : Prog α} {w : World L}
    {post : World L → Prop} (skipped : condition = false → post w)
    (ran : condition = true → program.Wlp (step caller) (fun _ w' => post w') w) :
    (runIf condition program).Wlp (step caller) (fun _ w' => post w') w := by
  cases condition with
  | false => exact skipped rfl
  | true => exact (ran rfl).bind fun _ _ here => here

/-! ## Failing stores -/

/-- What a call of the store does when the store fails it: a method returns an error that wraps no
sentinel and does nothing, and a transaction that cannot be committed is rolled back. -/
def Op.Fails : (op : Op) → World L → op.Ans → World L → Prop
  | .store _, w, answer, w' | .listWithdrawals _ _, w, answer, w' =>
    (∃ err, answer = .error err ∧ err.sentinel = none) ∧ w' = w
  | .begin, w, answer, w' => (∃ err, answer = .error err) ∧ w' = w
  | .commit, w, answer, w' => (∃ err, answer = .error err) ∧ w' = w.rollbackTx
  | _, _, _, _ => False

/-- A call over a store that may fail some of its calls. -/
def faulty (mayFail : Op → Prop) (caller : L) : Transition calls (World L) := fun op w answer w' =>
  step caller op w answer w' ∨ mayFail op ∧ op.Fails (w.record caller op answer) answer w'

/-! ## Scripted collaborators -/

/-- Fixed answers of the collaborators, for computing one execution. -/
structure Script where
  id : UUID := .nil
  policy : Option CheckResponse × Option Err := (some ⟨true, "", ""⟩, none)
  signer : Except Err SignResponse := .ok ⟨[], ""⟩
  gateway : Except Err BroadcastResponse := .ok ⟨""⟩
  key : Except Err String := .ok ""
  lock : Except Err (String × Bool) := .ok ("", true)
  now : Int := 0

/-- Answer a call from a script. -/
def Script.handle (script : Script) (caller : L) : (op : Op) → World L → op.Ans × World L
  | .store op, w =>
    let (answer, store) := op.exec script.now w.store
    (answer, { w.record caller (.store op) answer with store })
  | .begin, w => (.ok (), (w.record caller .begin (.ok ())).beginTx)
  | .commit, w => (.ok (), (w.record caller .commit (.ok ())).commitTx)
  | .rollback, w => ((), (w.record caller .rollback ()).rollbackTx)
  | .newV7, w => (script.id, w.record caller .newV7 script.id)
  | .checkWhitelist req, w => (script.policy, w.record caller (.checkWhitelist req) script.policy)
  | .sign req, w => (script.signer, w.record caller (.sign req) script.signer)
  | .broadcastTx req, w => (script.gateway, w.record caller (.broadcastTx req) script.gateway)
  | .resolveActiveKeyID id, w => (script.key, w.record caller (.resolveActiveKeyID id) script.key)
  | .acquire name, w => (script.lock, w.record caller (.acquire name) script.lock)
  | .release name token, w => (.ok (), w.record caller (.release name token) (.ok ()))
  | .emit event, w => (.ok (), w.record caller (.emit event) (.ok ()))
  | .onConfirmedDecrease walletID asset, w =>
    ((), w.record caller (.onConfirmedDecrease walletID asset) ())
  | .listWithdrawals walletID state, w =>
    let rows := w.store.listWithdrawals walletID state
    (.ok rows, w.record caller (.listWithdrawals walletID state) (.ok rows))

/-- A scripted answer is an answer of the system. -/
theorem Script.handle_follows (script : Script) (caller : L) (op : Op) (w : World L) :
    step caller op w (script.handle caller op w).1 (script.handle caller op w).2 := by
  cases op with
  | store op => exact ⟨script.now, rfl, rfl⟩
  | begin | commit => exact ⟨rfl, rfl⟩
  | listWithdrawals walletID state => exact ⟨⟨_, rfl, .refl _⟩, rfl⟩
  | _ => rfl

/-- The error of a scripted failure. -/
def Script.failure : Err := ⟨"pq: could not serialize access", none⟩

/-- The answer of a store that fails a call, if it is a call the store can fail. -/
def Script.fail (caller : L) : (op : Op) → World L → Option (op.Ans × World L)
  | .store op, w => some (.error failure, w.record caller (.store op) (.error failure))
  | .begin, w => some (.error failure, w.record caller .begin (.error failure))
  | .commit, w => some (.error failure, (w.record caller .commit (.error failure)).rollbackTx)
  | _, _ => none

/-- Answer a call from a script over a store that fails the calls in a set. -/
def Script.handleFailing (script : Script) (fails : Op → Bool) (caller : L) (op : Op)
    (w : World L) : op.Ans × World L :=
  if fails op then (Script.fail caller op w).getD (script.handle caller op w)
  else script.handle caller op w

/-- A scripted answer is an answer of a store that may fail those calls. -/
theorem Script.handleFailing_follows (script : Script) {fails : Op → Bool} {mayFail : Op → Prop}
    (allowed : ∀ op, fails op = true → mayFail op) (caller : L) (op : Op) (w : World L) :
    faulty mayFail caller op w (script.handleFailing fails caller op w).1
      (script.handleFailing fails caller op w).2 := by
  have done := script.handle_follows caller op w
  unfold handleFailing
  split
  · have may := allowed op ‹_›
    cases op with
    | store op => exact .inr ⟨may, ⟨failure, rfl, rfl⟩, rfl⟩
    | begin => exact .inr ⟨may, ⟨failure, rfl⟩, rfl⟩
    | commit => exact .inr ⟨may, ⟨failure, rfl⟩, rfl⟩
    | _ => exact .inl done
  · exact .inl done

end WalletManagement
