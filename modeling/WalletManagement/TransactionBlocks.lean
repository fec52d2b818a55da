import WalletManagement.Interaction.Blocks
import WalletManagement.Scripted

/-!
# Rollback in two stores

Programs of store methods and `InTx` blocks, run alone on `memstore` and on the Postgres store.
`memstore` restores the snapshot of the outermost block when it fails. In the Postgres store every
`InTx` is a transaction of its own, also inside another one, and three methods open one:
`LockUTXOs`, `IncrementPendingNonce` and `RotateKeyMapping`. What such a transaction has committed
stays when the one around it fails.
-/

namespace WalletManagement

open Interaction Data Go

/-! ## The methods of the store -/

/-- The methods that open a transaction in the Postgres store, and any others. -/
inductive StoreMethod (M : Type) where
  | plain (method : M)
  /-- With the reading of the clock, as `rotateKeyMapping`. -/
  | lockUTXOs (now : Int) (outpoints : List String)
  | incrementPendingNonce (walletID : UUID) (chain : Chain)
  | rotateKeyMapping (now : Int) (walletID : UUID) (newKeyID : String) (cooling : Int)

section Methods

variable {M : Type} (R : M → Type)

/-- What a method returns besides its error. -/
abbrev StoreMethod.Result : StoreMethod M → Type
  | .plain method => R method
  | .incrementPendingNonce _ _ => Int × Int
  | _ => Unit

/-- The methods of the store. -/
abbrev storeMethods : Signature := ⟨StoreMethod M, fun method => Except Err (method.Result R)⟩

/-- The methods that open no transaction. -/
abbrev plainMethods : Signature := ⟨M, fun method => Except Err (R method)⟩

variable {R}

/-- A method of `memstore`. -/
def StoreMethod.memstore (plain : Transition (plainMethods R) Store) :
    Transition (storeMethods R) Store
  | .plain method, s, answer, s' => plain method s answer s'
  | .lockUTXOs now outpoints, s, answer, s' => (answer, s') = s.lockUTXOs now outpoints
  | .incrementPendingNonce walletID chain, s, answer, s' =>
    answer = .ok (s.incrementPendingNonce walletID chain).1 ∧
      s' = (s.incrementPendingNonce walletID chain).2
  | .rotateKeyMapping now walletID newKeyID cooling, s, answer, s' =>
    (answer, s') = s.rotateKeyMapping now walletID newKeyID cooling

/-- `memstore`: a block takes a snapshot when it is the outermost one, and restores it when it
fails. -/
def memstoreBrackets (plain : Transition (plainMethods R) Store) :
    Brackets (storeMethods R) Err (World Unit) where
  step method w answer w' :=
    ∃ s, StoreMethod.memstore plain method w.store answer s ∧ w' = { w with store := s }
  opens w answer w' := answer = .ok () ∧ w' = w.beginTx
  closes w failure err w' := err = failure ∧
    w' = match failure with
      | none => w.commitTx
      | some _ => w.rollbackTx

/-! ## The statements of the Postgres store -/

/-- The statements of the methods that open a transaction, and those of any others. -/
inductive Statement (M : Type) where
  | plain (method : M)
  /-- `SELECT pending_nonce, version .. FOR UPDATE`. -/
  | selectNonce (walletID : UUID) (chain : Chain)
  | insertNonce (walletID : UUID) (chain : Chain)
  | updateNonce (walletID : UUID) (chain : Chain) (pendingNonce version : Int)
  /-- `UPDATE utxos SET lock_state='LOCKED' .. AND lock_state='FREE'`. -/
  | lockUTXO (outpoint : String)
  /-- `UPDATE key_mappings SET rotation_state='COOLING' .. AND rotation_state='CURRENT'`. -/
  | coolKeys (walletID : UUID) (activeTo : Int)
  /-- `INSERT INTO key_mappings .. ON CONFLICT DO UPDATE`. -/
  | upsertKey (walletID : UUID) (newKeyID : String)

variable (R)

/-- What a statement returns besides its error: the row if there is one, or the number of rows. -/
abbrev Statement.Result : Statement M → Type
  | .plain method => R method
  | .selectNonce _ _ => Option (Int × Int)
  | .lockUTXO _ => Int
  | _ => Unit

/-- The statements. -/
abbrev statements : Signature := ⟨Statement M, fun op => Except Err (op.Result R)⟩

/-- Programs of statements and transactions. -/
abbrev SQLProg (α : Type) : Type 1 := Block (statements R) Err α

variable {R}

/-- One statement. -/
abbrev statement (op : Statement M) : SQLProg R (Except Err (op.Result R)) :=
  Block.perform (S := statements R) op

/-- The loop of `LockUTXOs`. -/
def lockEach : List String → SQLProg R (Except Err Unit)
  | [] => pure (.ok ())
  | outpoint :: rest => do
    match ← statement (.lockUTXO outpoint) with
    | .error err => pure (.error err)
    | .ok affected =>
      if affected = 0 then pure (.error ⟨"utxo not free: " ++ outpoint, none⟩)
      else lockEach rest

/-- The transaction of `IncrementPendingNonce`. -/
def incrementNonceRow (walletID : UUID) (chain : Chain) : SQLProg R (Except Err (Int × Int)) := do
  match ← statement (.selectNonce walletID chain) with
  | .error err => pure (.error err)
  | .ok none =>
    match ← statement (.insertNonce walletID chain) with
    | .error err => pure (.error err)
    | .ok () => pure (.ok (0, 1))
  | .ok (some (pendingNonce, version)) =>
    let version := wrapInt64 (version + 1)
    match ← statement (.updateNonce walletID chain (wrapInt64 (pendingNonce + 1)) version) with
    | .error err => pure (.error err)
    | .ok () => pure (.ok (pendingNonce, version))

/-- The transaction of `RotateKeyMapping`. -/
def rotateKeys (walletID : UUID) (newKeyID : String) (activeTo : Int) :
    SQLProg R (Except Err Unit) := do
  match ← statement (.coolKeys walletID activeTo) with
  | .error err => pure (.error err)
  | .ok () => statement (.upsertKey walletID newKeyID)

/-- A method of the Postgres store. -/
def StoreMethod.postgres : (method : StoreMethod M) → SQLProg R (Except Err (method.Result R))
  | .plain method => statement (.plain method)
  | .lockUTXOs _ outpoints =>
    if outpoints = [] then pure (.ok ()) else .transaction (lockEach outpoints)
  | .incrementPendingNonce walletID chain => .transaction (incrementNonceRow walletID chain)
  | .rotateKeyMapping now walletID newKeyID cooling =>
    .transaction (rotateKeys walletID newKeyID (now + cooling))

/-! ## Failed blocks -/

/-- Inside a block of `memstore` the snapshot stays. -/
theorem keeps_snapshot (plain : Transition (plainMethods R) Store) :
    Block.Keeps (memstoreBrackets plain) fun w w' =>
      0 < w.depth → w'.depth = w.depth ∧ w'.snapshot = w.snapshot where
  refl w _ := ⟨rfl, rfl⟩
  trans w middle w' first second isOpen := by
    obtain ⟨depth, snapshot⟩ := first isOpen
    obtain ⟨depth', snapshot'⟩ := second (depth ▸ isOpen)
    exact ⟨depth'.trans depth, snapshot'.trans snapshot⟩
  call method w answer w' moved isOpen := by
    obtain ⟨s, -, rfl⟩ := moved
    exact ⟨rfl, rfl⟩
  refused w err w' refused isOpen := by cases refused.1
  block w opened last failure err w' opens inside closes isOpen := by
    obtain ⟨-, rfl⟩ := opens
    obtain ⟨depth, snapshot⟩ := inside (Nat.succ_pos _)
    have inner : last.depth = w.depth + 1 := depth
    have nested : ¬last.depth = 1 := by omega
    have kept : last.snapshot = w.snapshot := snapshot.trans (if_neg (by omega))
    obtain ⟨-, rfl⟩ := closes
    cases failure with
    | none => exact ⟨by simp [World.commitTx, inner], (if_neg nested).trans kept⟩
    | some failed => exact ⟨by simp [World.rollbackTx, inner], (if_neg nested).trans kept⟩

/-- The outermost block of `memstore` that fails leaves the store as it was. -/
theorem memstore_restored {plain : Transition (plainMethods R) Store} {α : Type}
    {body : Block (storeMethods R) Err (Except Err α)} {w w' : World Unit} {err : Err}
    (outermost : w.depth = 0) (execution : (Block.transaction body).Exec (memstoreBrackets plain) w
      (.error err) w') : w'.store = w.store := by
  rcases execution with ⟨_, middle, refused, -⟩ | ⟨opened, outcome, last, closing, middle, opens,
    inside, closes, returned, rfl⟩
  · cases refused.1
  · obtain ⟨-, rfl⟩ := opens
    obtain ⟨depth, snapshot⟩ := (keeps_snapshot plain).exec inside (Nat.succ_pos _)
    have inner : last.depth = 1 := depth.trans (congrArg (· + 1) outermost)
    have saved : last.snapshot = some w.store := snapshot.trans (if_pos outermost)
    obtain ⟨rfl, rfl⟩ := closes
    cases outcome with
    | ok value => cases returned
    | error failed =>
      show (if last.depth = 1 then last.snapshot.getD last.store else last.store) = w.store
      rw [if_pos inner, saved]
      rfl

end Methods

/-- A program of store methods and blocks nested to any depth, run alone, whose outermost block
returns an error leaves the state as it was: in `memstore` always, and in the Postgres store in
every execution in which no transaction that is begun while another one is open commits a change. -/
theorem failed_block_restores {M D T α : Type} {R : M → Type}
    (plain : Transition (plainMethods R) Store) (engine : Engine (statements R) D T)
    (body : Block (storeMethods R) Err (Except Err α)) :
    (∀ (w : World Unit) err w', w.depth = 0 →
      (Block.transaction body).Exec (memstoreBrackets plain) w (.error err) w' →
        w'.store = w.store) ∧
    ∀ db err s', ((Block.transaction body).expand StoreMethod.postgres).Exec
        (engine.brackets Err fun db db' => db' = db) ⟨db, []⟩ (.error err) s' → s' = ⟨db, []⟩ := by
  refine ⟨fun w err w' outermost execution => memstore_restored outermost execution, ?_⟩
  intro db err s' execution
  exact engine.restored execution

/-! ## A server -/

/-- The method opens a transaction in the Postgres store. -/
def StoreOp.opensTx : StoreOp → Bool
  | .lockUTXOs _ | .incrementPendingNonce _ _ => true
  | _ => false

/-- The methods of the services' stores that open none. -/
abbrev PlainOp : Type := { op : StoreOp // op.opensTx = false }

/-- What they return besides their error. -/
abbrev PlainOp.Result (op : PlainOp) : Type := op.1.Result

/-- They act as `memstore` computes. -/
def plainExec : Transition (plainMethods PlainOp.Result) Store := fun op s answer s' =>
  ∃ now, answer = (op.1.exec now s).1 ∧ s' = (op.1.exec now s).2

/-- A statement on the tables, at time 0. -/
def Statement.run : (op : Statement PlainOp) → Store → Except Err (op.Result PlainOp.Result) × Store
  | .plain op, s => op.1.exec 0 s
  | .selectNonce walletID chain, s =>
    (.ok ((s.nonces.get (nonceKey walletID chain)).map
      fun row => (row.pendingNonce, row.version)), s)
  | .insertNonce walletID chain, s =>
    (.ok (), { s with nonces := s.nonces.put ⟨walletID, chain, 1, 0, 1⟩ })
  | .updateNonce walletID chain pendingNonce version, s =>
    let row := { s.nonce walletID chain with pendingNonce, version }
    (.ok (), { s with nonces := s.nonces.put row })
  | .lockUTXO outpoint, s =>
    match s.utxos.get outpoint with
    | none => (.ok 0, s)
    | some u =>
      if u.lockState = .free then
        (.ok 1, { s with utxos := s.utxos.put (Store.setLocked 0 u) })
      else (.ok 0, s)
  | .coolKeys walletID activeTo, s =>
    (.ok (), s.putMappings walletID ((s.mappings walletID).map (Store.coolKey activeTo)))
  | .upsertKey walletID newKeyID, s =>
    (.ok (), s.putMappings walletID (Store.activateKey 0 walletID newKeyID (s.mappings walletID)))

/-- A server on which no statement fails. A transaction reads the tables as they are at its first
statement, and commits if it has changed nothing or nothing was committed since. -/
def sampleEngine : Engine (statements PlainOp.Result) Store (Option (Store × Store)) where
  auto op db answer db' := answer = (op.run db).1 ∧ db' = (op.run db).2
  begins _ tx := tx = none
  exec op db tx answer tx' :=
    let (base, view) := tx.getD (db, db)
    answer = (op.run view).1 ∧ tx' = some (base, (op.run view).2)
  commits db tx db' :=
    let (base, view) := tx.getD (db, db)
    view = base ∧ db' = db ∨ db = base ∧ db' = view

/-- A block that writes a balance and fails because it cannot lock an output. -/
def sampleRefusedLock : Block (storeMethods PlainOp.Result) Err (Except Err Unit) := do
  let _ ← Block.perform (S := storeMethods PlainOp.Result)
    (.plain ⟨.upsertBalance { walletID := sampleID 1, asset := "ETH", confirmed := "5" }, rfl⟩)
  Block.perform (S := storeMethods PlainOp.Result) (.lockUTXOs 0 ["missing"])

/-- The tables in the transaction after the balance was written. -/
def balanced : Store :=
  sampleStart.store.upsertBalance { walletID := sampleID 1, asset := "ETH", confirmed := "5" }

/-- Both stores forget the balance: the transaction of the lock is rolled back. -/
theorem failed_block_restores_refused_lock :
    (∃ err w', (Block.transaction sampleRefusedLock).Exec (memstoreBrackets plainExec)
      { store := sampleStart.store } (.error err) w' ∧ w'.store = sampleStart.store) ∧
    ∃ err s', ((Block.transaction sampleRefusedLock).expand StoreMethod.postgres).Exec
      (sampleEngine.brackets Err fun db db' => db' = db) ⟨sampleStart.store, []⟩ (.error err) s' ∧
      s' = ⟨sampleStart.store, []⟩ := by
  have restores := failed_block_restores plainExec sampleEngine sampleRefusedLock
  have memstore : (Block.transaction sampleRefusedLock).Exec (memstoreBrackets plainExec)
      { store := sampleStart.store } (.error ⟨"utxo not found: missing", none⟩) _ :=
    .inr ⟨_, _, _, _, _, ⟨rfl, rfl⟩, ⟨_, _, ⟨_, ⟨0, rfl, rfl⟩, rfl⟩, _, _, ⟨_, rfl, rfl⟩, rfl, rfl⟩,
      ⟨rfl, rfl⟩, rfl, rfl⟩
  have lock : (lockEach ["missing"]).Exec (sampleEngine.brackets Err fun db db' => db' = db)
      ⟨sampleStart.store, [none, some (sampleStart.store, balanced)]⟩
      (.error ⟨"utxo not free: missing", none⟩) _ :=
    ⟨.ok 0, _, ⟨_, ⟨rfl, rfl⟩, rfl⟩, And.intro rfl rfl⟩
  have postgres : ((Block.transaction sampleRefusedLock).expand StoreMethod.postgres).Exec
      (sampleEngine.brackets Err fun db db' => db' = db) ⟨sampleStart.store, []⟩
      (.error ⟨"utxo not free: missing", none⟩) _ :=
    .inr ⟨_, _, _, _, _, ⟨_, rfl, rfl⟩, ⟨_, _, ⟨_, ⟨rfl, rfl⟩, rfl⟩,
      .inr ⟨_, _, _, _, _, ⟨_, rfl, rfl⟩,
      lock, ⟨rfl, rfl⟩, rfl, rfl⟩⟩, ⟨rfl, rfl⟩, rfl, rfl⟩
  exact ⟨⟨_, _, memstore, restores.1 _ _ _ rfl memstore⟩, _, _, postgres, restores.2 _ _ _ postgres⟩

/-- A block that reserves a nonce and fails. -/
def sampleReservation : Block (storeMethods PlainOp.Result) Err (Except Err Unit) := do
  let _ ← Block.perform (S := storeMethods PlainOp.Result)
    (.incrementPendingNonce sampleEVMWallet.id .ethereum)
  pure (.error ⟨"rejected", none⟩)

/-- In the Postgres store the nonce stays reserved: `IncrementPendingNonce` has committed it in a
transaction of its own. -/
theorem nested_commit_survives :
    ∃ s', ((Block.transaction sampleReservation).expand StoreMethod.postgres).Exec
        (sampleEngine.brackets Err fun _ _ => True) ⟨sampleStart.store, []⟩
        (.error ⟨"rejected", none⟩) s' ∧
      (sampleStart.store.nonce sampleEVMWallet.id .ethereum).pendingNonce = 0 ∧
      (s'.db.nonce sampleEVMWallet.id .ethereum).pendingNonce = 1 := by
  have reserve : (incrementNonceRow sampleEVMWallet.id .ethereum).Exec
      (sampleEngine.brackets Err fun _ _ => True) ⟨sampleStart.store, [none, none]⟩
      (.ok (0, 1)) _ :=
    ⟨_, _, ⟨_, ⟨rfl, rfl⟩, rfl⟩, _, _, ⟨_, ⟨rfl, rfl⟩, rfl⟩, rfl, rfl⟩
  -- Nothing else was committed since the inner transaction began to read.
  refine ⟨_, .inr ⟨_, _, _, _, _, ⟨_, rfl, rfl⟩, .inr ⟨_, _, _, _, _, ⟨_, rfl, rfl⟩, reserve,
    .inl ⟨_, .inr ⟨rfl, rfl⟩, fun _ => trivial, rfl, rfl⟩, rfl, rfl⟩, ⟨rfl, rfl⟩, rfl, rfl⟩, ?_, ?_⟩
  all_goals decide +kernel

end WalletManagement
