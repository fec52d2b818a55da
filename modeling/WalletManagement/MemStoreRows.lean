import WalletManagement.MemStore

/-!
# Reading the store after an operation

One lemma for each operation of the in-memory store and each table: which tables it leaves
alone, and what is found in the tables it writes. Proofs about the services use these and do
not unfold the operations.
-/

namespace WalletManagement

open Data Go

namespace Store

/-! ## Frames -/

@[simp] theorem recordBalanceEvent_frame (s : Store) (event : BalanceEvent) :
    (s.recordBalanceEvent event).2.wallets = s.wallets ∧
      (s.recordBalanceEvent event).2.balances = s.balances ∧
      (s.recordBalanceEvent event).2.utxos = s.utxos ∧
      (s.recordBalanceEvent event).2.nonces = s.nonces ∧
      (s.recordBalanceEvent event).2.withdrawals = s.withdrawals := by
  unfold recordBalanceEvent
  split <;> simp

@[simp] theorem insertUTXO_frame (s : Store) (now : Int) (u : UTXO) :
    (s.insertUTXO now u).2.wallets = s.wallets ∧ (s.insertUTXO now u).2.nonces = s.nonces ∧
      (s.insertUTXO now u).2.withdrawals = s.withdrawals := by
  unfold insertUTXO
  split <;> simp

@[simp] theorem lockUTXOs_frame (s : Store) (now : Int) (outpoints : List String) :
    (s.lockUTXOs now outpoints).2.wallets = s.wallets ∧
      (s.lockUTXOs now outpoints).2.nonces = s.nonces ∧
      (s.lockUTXOs now outpoints).2.withdrawals = s.withdrawals := by
  unfold lockUTXOs
  split <;> simp

@[simp] theorem markUTXOsSpent_frame (s : Store) (now : Int) (outpoints : List String)
    (txHash : String) :
    (s.markUTXOsSpent now outpoints txHash).2.wallets = s.wallets ∧
      (s.markUTXOsSpent now outpoints txHash).2.nonces = s.nonces ∧
      (s.markUTXOsSpent now outpoints txHash).2.withdrawals = s.withdrawals := ⟨rfl, rfl, rfl⟩

@[simp] theorem restoreUTXOs_frame (s : Store) (now : Int) (outpoints : List String) :
    (s.restoreUTXOs now outpoints).2.wallets = s.wallets ∧
      (s.restoreUTXOs now outpoints).2.balances = s.balances ∧
      (s.restoreUTXOs now outpoints).2.nonces = s.nonces ∧
      (s.restoreUTXOs now outpoints).2.withdrawals = s.withdrawals := ⟨rfl, rfl, rfl, rfl⟩

@[simp] theorem incrementPendingNonce_frame (s : Store) (walletID : UUID) (chain : Chain) :
    (s.incrementPendingNonce walletID chain).2.wallets = s.wallets ∧
      (s.incrementPendingNonce walletID chain).2.utxos = s.utxos ∧
      (s.incrementPendingNonce walletID chain).2.withdrawals = s.withdrawals := ⟨rfl, rfl, rfl⟩

@[simp] theorem advanceBroadcastNonce_frame (s : Store) (walletID : UUID) (chain : Chain)
    (nonce : Int) :
    (s.advanceBroadcastNonce walletID chain nonce).wallets = s.wallets ∧
      (s.advanceBroadcastNonce walletID chain nonce).utxos = s.utxos ∧
      (s.advanceBroadcastNonce walletID chain nonce).withdrawals = s.withdrawals :=
  ⟨rfl, rfl, rfl⟩

@[simp] theorem rollbackPendingNonce_frame (s : Store) (walletID : UUID) (chain : Chain)
    (target : Int) :
    (s.rollbackPendingNonce walletID chain target).2.wallets = s.wallets ∧
      (s.rollbackPendingNonce walletID chain target).2.utxos = s.utxos ∧
      (s.rollbackPendingNonce walletID chain target).2.withdrawals = s.withdrawals := by
  unfold rollbackPendingNonce
  split
  · simp
  · split <;> simp

@[simp] theorem createWithdrawal_frame (s : Store) (w : WithdrawalRequest) :
    (s.createWithdrawal w).2.wallets = s.wallets ∧ (s.createWithdrawal w).2.utxos = s.utxos ∧
      (s.createWithdrawal w).2.nonces = s.nonces := by
  unfold createWithdrawal
  split
  · simp
  · split <;> simp

@[simp] theorem updateWithdrawalState_frame (s : Store) (id : UUID) (state : WithdrawalState)
    (reason txHash policyDecisionID : String) :
    (s.updateWithdrawalState id state reason txHash policyDecisionID).2.wallets = s.wallets ∧
      (s.updateWithdrawalState id state reason txHash policyDecisionID).2.utxos = s.utxos ∧
      (s.updateWithdrawalState id state reason txHash policyDecisionID).2.nonces = s.nonces := by
  unfold updateWithdrawalState
  split <;> simp

@[simp] theorem updateWithdrawal_frame (s : Store) (id : UUID)
    (change : WithdrawalRequest → WithdrawalRequest) :
    (s.updateWithdrawal id change).2.wallets = s.wallets ∧
      (s.updateWithdrawal id change).2.utxos = s.utxos ∧
      (s.updateWithdrawal id change).2.nonces = s.nonces := by
  unfold updateWithdrawal
  split <;> simp

/-- Locking outpoints leaves the in-flight keys alone. -/
theorem lockUTXOs_inflight (s : Store) (now : Int) (outpoints : List String) :
    (s.lockUTXOs now outpoints).2.inflightWithdrawals = s.inflightWithdrawals := by
  unfold lockUTXOs
  split <;> rfl

/-- Rolling back a nonce leaves the in-flight keys alone. -/
theorem rollbackPendingNonce_inflight (s : Store) (walletID : UUID) (chain : Chain)
    (target : Int) : (s.rollbackPendingNonce walletID chain target).2.inflightWithdrawals =
      s.inflightWithdrawals := by
  unfold rollbackPendingNonce
  split
  · rfl
  · split <;> rfl

/-! ## Rows of withdrawals -/

/-- Every row after an update is another row, left alone, or the changed row. -/
theorem mem_updateWithdrawal {s : Store} {id : UUID}
    {change : WithdrawalRequest → WithdrawalRequest} {row : WithdrawalRequest}
    (member : row ∈ (s.updateWithdrawal id change).2.withdrawals.rows) :
    row ∈ s.withdrawals.rows ∨
      ∃ old ∈ s.withdrawals.rows, old.id = id ∧ row = change old := by
  unfold updateWithdrawal at member
  cases at_id : s.withdrawals.get id with
  | none => simpa [at_id] using Or.inl member
  | some old =>
    simp only [at_id] at member
    rcases Table.mem_put.mp member with rfl | ⟨member, _⟩
    · exact .inr ⟨old, Table.mem_of_get at_id, Table.key_of_get at_id, rfl⟩
    · exact .inl member

/-- Every row has a successor after an update. -/
theorem exists_updateWithdrawal {s : Store} (id : UUID)
    {change : WithdrawalRequest → WithdrawalRequest} {row : WithdrawalRequest}
    (keeps : ∀ w, (change w).id = w.id) (member : row ∈ s.withdrawals.rows) :
    ∃ next ∈ (s.updateWithdrawal id change).2.withdrawals.rows, next = row ∨ next = change row := by
  unfold updateWithdrawal
  cases at_id : s.withdrawals.get id with
  | none => exact ⟨row, member, .inl rfl⟩
  | some old =>
    by_cases same : row.id = old.id
    · refine ⟨change old, Table.mem_put.mpr (.inl rfl), .inr ?_⟩
      have found := Table.get_of_mem member
      rw [same, Table.key_of_get at_id, at_id] at found
      rw [Option.some.inj found]
    · exact ⟨row, Table.mem_put.mpr (.inr ⟨member, by rwa [keeps old]⟩), .inl rfl⟩

/-- A withdrawal is created under a new identifier, or nothing happens. -/
theorem createWithdrawal_cases (s : Store) (w : WithdrawalRequest) :
    ((∃ err, (s.createWithdrawal w).1 = .error err) ∧ (s.createWithdrawal w).2 = s) ∨
      ((s.createWithdrawal w).1 = .ok () ∧ s.withdrawals.get w.id = none ∧
        (s.createWithdrawal w).2 = { s with
          withdrawals := s.withdrawals.put w
          inflightWithdrawals := insert w.dedupKey s.inflightWithdrawals }) := by
  unfold createWithdrawal
  cases at_id : s.withdrawals.get w.id with
  | some _ => exact .inl ⟨⟨_, rfl⟩, rfl⟩
  | none => by_cases duplicate : w.dedupKey ∈ s.inflightWithdrawals <;> simp [duplicate]

/-- A withdrawal is created only when no withdrawal in flight has its key. -/
theorem createWithdrawal_unclaimed {s : Store} {w : WithdrawalRequest}
    (created : (s.createWithdrawal w).1 = .ok ()) : w.dedupKey ∉ s.inflightWithdrawals := by
  intro claimed
  unfold createWithdrawal at created
  cases at_id : s.withdrawals.get w.id with
  | some _ =>
    rw [at_id] at created
    cases created
  | none =>
    simp only [at_id, if_pos claimed] at created
    cases created

/-- `UpdateWithdrawalState` changes the rows as an update of one row does. -/
theorem updateWithdrawalState_withdrawals (s : Store) (id : UUID) (state : WithdrawalState)
    (reason txHash policyDecisionID : String) :
    (s.updateWithdrawalState id state reason txHash policyDecisionID).2.withdrawals =
      (s.updateWithdrawal id (setState state reason txHash policyDecisionID)).2.withdrawals := by
  unfold updateWithdrawalState updateWithdrawal
  cases s.withdrawals.get id <;> rfl

/-- A lookup answers with the row it finds. -/
theorem found_eq_ok {α : Type} {what : String} {row : Option α} {value : α} :
    found what row = .ok value ↔ row = some value := by
  cases row <;> simp [found]

/-- The state of a withdrawal. -/
def stateOf (s : Store) (id : UUID) : Option WithdrawalState :=
  (s.withdrawals.get id).map WithdrawalRequest.state

/-- `UpdateWithdrawalState` sets the state of a withdrawal that is there, and of no other. -/
theorem stateOf_updateWithdrawalState (s : Store) (id : UUID) (state : WithdrawalState)
    (reason txHash policyDecisionID : String) (id' : UUID) :
    (s.updateWithdrawalState id state reason txHash policyDecisionID).2.stateOf id' =
      if id = id' then (s.stateOf id').map fun _ => state else s.stateOf id' := by
  unfold updateWithdrawalState
  cases found : s.withdrawals.get id with
  | none =>
    by_cases same : id = id'
    · subst same
      simp [stateOf, found]
    · rw [if_neg same]
  | some wr =>
    have key : wr.id = id := Table.key_of_get found
    by_cases same : id = id'
    · subst same
      simp [stateOf, found, setState, key]
    · simp [stateOf, Table.get_put, setState, key, same]

/-- The other updates of a withdrawal leave its state alone. -/
theorem stateOf_updateWithdrawal (s : Store) (id : UUID)
    {change : WithdrawalRequest → WithdrawalRequest}
    (keeps : ∀ wr, (change wr).id = wr.id ∧ (change wr).state = wr.state) (id' : UUID) :
    (s.updateWithdrawal id change).2.stateOf id' = s.stateOf id' := by
  unfold updateWithdrawal
  cases found : s.withdrawals.get id with
  | none => rfl
  | some wr =>
    have key : (change wr).id = id := (keeps wr).1.trans (Table.key_of_get found)
    by_cases same : id = id'
    · subst same
      simp [stateOf, found, Table.get_put, key, (keeps wr).2]
    · simp [stateOf, Table.get_put, key, same]

/-! ## Rows of nonces -/

/-- The pending nonce of a wallet and chain. -/
def pending (s : Store) (walletID : UUID) (chain : Chain) : Int :=
  (s.nonce walletID chain).pendingNonce

/-- The broadcast nonce of a wallet and chain. -/
def broadcasted (s : Store) (walletID : UUID) (chain : Chain) : Int :=
  (s.nonce walletID chain).broadcastNonce

section NonceRows

variable {s : Store} {walletID : UUID} {chain : Chain}

/-- The row of a wallet and chain names them. -/
theorem nonce_key (s : Store) (walletID : UUID) (chain : Chain) :
    (s.nonce walletID chain).key = nonceKey walletID chain := by
  unfold nonce
  cases found : s.nonces.get (nonceKey walletID chain) with
  | none => rfl
  | some row => exact Table.key_of_get found

/-- Reading the nonces after the row of a wallet and chain was stored. -/
theorem nonce_of_put {s' : Store} {row : Nonce} (stored : s'.nonces = s.nonces.put row)
    (key : row.key = nonceKey walletID chain) (walletID' : UUID) (chain' : Chain) :
    s'.nonce walletID' chain' =
      if walletID = walletID' ∧ chain = chain' then row else s.nonce walletID' chain' := by
  simp only [nonce, stored, Table.get_put, key]
  by_cases same : walletID = walletID' ∧ chain = chain'
  · simp [same.1, same.2]
  · have other : nonceKey walletID chain ≠ nonceKey walletID' chain' :=
      fun h => same (nonceKey_inj h)
    simp [same, other]

/-- A reservation moves the pending nonce of its row. -/
theorem pending_increment (s : Store) (walletID : UUID) (chain : Chain) (walletID' : UUID)
    (chain' : Chain) : (s.incrementPendingNonce walletID chain).2.pending walletID' chain' =
      if walletID = walletID' ∧ chain = chain' then wrapInt64 (s.pending walletID chain + 1)
      else s.pending walletID' chain' := by
  have stored : (s.incrementPendingNonce walletID chain).2.nonces = s.nonces.put _ := rfl
  have row := nonce_of_put stored (s.nonce_key walletID chain) walletID' chain'
  simp only [pending, row]
  split <;> rfl

/-- A reservation leaves the broadcast nonces alone. -/
theorem broadcasted_increment (s : Store) (walletID : UUID) (chain : Chain) (walletID' : UUID)
    (chain' : Chain) : (s.incrementPendingNonce walletID chain).2.broadcasted walletID' chain' =
      s.broadcasted walletID' chain' := by
  have stored : (s.incrementPendingNonce walletID chain).2.nonces = s.nonces.put _ := rfl
  have row := nonce_of_put stored (s.nonce_key walletID chain) walletID' chain'
  simp only [broadcasted, row]
  split
  · rename_i same
    rw [same.1, same.2]
  · rfl

/-- The row `AdvanceBroadcastNonce` stores names its wallet and chain. -/
theorem advanced_key (s : Store) (walletID : UUID) (chain : Chain) (next : Int) :
    (if (s.nonce walletID chain).broadcastNonce < next then
      { s.nonce walletID chain with broadcastNonce := next }
    else s.nonce walletID chain).key = nonceKey walletID chain := by
  split
  · exact s.nonce_key walletID chain
  · exact s.nonce_key walletID chain

/-- A commit leaves the pending nonces alone. -/
theorem pending_advance (s : Store) (walletID : UUID) (chain : Chain) (n : Int)
    (walletID' : UUID) (chain' : Chain) :
    (s.advanceBroadcastNonce walletID chain n).pending walletID' chain' =
      s.pending walletID' chain' := by
  have stored : (s.advanceBroadcastNonce walletID chain n).nonces = s.nonces.put _ := rfl
  have row := nonce_of_put stored (s.advanced_key walletID chain _) walletID' chain'
  simp only [pending, row]
  by_cases same : walletID = walletID' ∧ chain = chain'
  · rw [if_pos same, same.1, same.2]
    split <;> rfl
  · rw [if_neg same]

/-- A commit raises the broadcast nonce of its row to the nonce after the committed one. -/
theorem broadcasted_advance (s : Store) (walletID : UUID) (chain : Chain) (n : Int)
    (walletID' : UUID) (chain' : Chain) :
    (s.advanceBroadcastNonce walletID chain n).broadcasted walletID' chain' =
      if walletID = walletID' ∧ chain = chain' then
        max (s.broadcasted walletID chain) (wrapInt64 (n + 1))
      else s.broadcasted walletID' chain' := by
  have stored : (s.advanceBroadcastNonce walletID chain n).nonces = s.nonces.put _ := rfl
  have row := nonce_of_put stored (s.advanced_key walletID chain _) walletID' chain'
  simp only [broadcasted, row]
  by_cases same : walletID = walletID' ∧ chain = chain'
  · rw [if_pos same, if_pos same]
    split
    · rename_i lower
      exact (max_eq_right lower.le).symm
    · rename_i higher
      exact (max_eq_left (not_lt.mp higher)).symm
  · rw [if_neg same, if_neg same]

/-- A rollback of a row does nothing, or takes back the nonce that was reserved last. -/
theorem rollbackPendingNonce_cases (s : Store) (walletID : UUID) (chain : Chain) (target : Int) :
    (s.rollbackPendingNonce walletID chain target).2 = s ∨
      (s.pending walletID chain = wrapInt64 (target + 1) ∧
        (∀ walletID' chain', (s.rollbackPendingNonce walletID chain target).2.pending
          walletID' chain' =
          if walletID = walletID' ∧ chain = chain' then target else s.pending walletID' chain') ∧
        ∀ walletID' chain',
          (s.rollbackPendingNonce walletID chain target).2.broadcasted walletID' chain' =
            s.broadcasted walletID' chain') := by
  unfold rollbackPendingNonce
  cases found : s.nonces.get (nonceKey walletID chain) with
  | none => exact .inl rfl
  | some row =>
    by_cases last : row.pendingNonce = wrapInt64 (target + 1)
    · right
      have here : s.nonce walletID chain = row := by simp [nonce, found]
      let next := { row with pendingNonce := target, version := wrapInt64 (row.version + 1) }
      have key : next.key = nonceKey walletID chain := (Table.key_of_get found : row.key = _)
      have stored : ({ s with nonces := s.nonces.put next } : Store).nonces = s.nonces.put next :=
        rfl
      simp only [if_pos last]
      refine ⟨by rw [pending, here, last], fun walletID' chain' => ?_, fun walletID' chain' => ?_⟩
      · rw [pending, nonce_of_put stored key]
        split <;> rfl
      · rw [broadcasted, nonce_of_put stored key]
        split
        · rename_i same
          rw [broadcasted, ← same.1, ← same.2, here]
        · rfl
    · left
      simp only [if_neg last]

/-- A rollback takes back the nonce reserved last from a row that has handed one out, and leaves
every other row and every other nonce alone. -/
theorem pending_rollback (target : Int) (used : s.pending walletID chain ≠ 0) (walletID' : UUID)
    (chain' : Chain) : (s.rollbackPendingNonce walletID chain target).2.pending walletID' chain' =
      if (walletID = walletID' ∧ chain = chain') ∧ s.pending walletID chain = wrapInt64 (target + 1)
      then target else s.pending walletID' chain' := by
  unfold rollbackPendingNonce
  cases found : s.nonces.get (nonceKey walletID chain) with
  | none => exact absurd (by simp [pending, nonce, found]) used
  | some row =>
    have here : s.pending walletID chain = row.pendingNonce := by simp [pending, nonce, found]
    rw [here]
    by_cases last : row.pendingNonce = wrapInt64 (target + 1)
    · rw [if_congr (and_iff_left last) rfl rfl]
      simp only [if_pos last]
      let next := { row with pendingNonce := target, version := wrapInt64 (row.version + 1) }
      have key : next.key = nonceKey walletID chain := (Table.key_of_get found : row.key = _)
      have stored : ({ s with nonces := s.nonces.put next } : Store).nonces = s.nonces.put next :=
        rfl
      rw [pending, nonce_of_put stored key]
      split <;> rfl
    · simp only [if_neg last]
      rw [if_neg fun both => last both.2]

/-- A rollback leaves the broadcast nonces alone. -/
theorem broadcasted_rollback (s : Store) (walletID : UUID) (chain : Chain) (target : Int)
    (walletID' : UUID) (chain' : Chain) :
    (s.rollbackPendingNonce walletID chain target).2.broadcasted walletID' chain' =
      s.broadcasted walletID' chain' := by
  rcases s.rollbackPendingNonce_cases walletID chain target with kept | ⟨-, -, same⟩
  · rw [kept]
  · exact same walletID' chain'

/-- A rollback of a Bitcoin row leaves the pending nonces of EVM chains alone. -/
theorem pending_rollback_bitcoin (s : Store) (walletID : UUID) (target : Int) (walletID' : UUID)
    {chain : Chain} (evm : chain.isEVM = true) :
    (s.rollbackPendingNonce walletID .bitcoin target).2.pending walletID' chain =
      s.pending walletID' chain := by
  have other : ¬(walletID = walletID' ∧ Chain.bitcoin = chain) := by
    rintro ⟨-, rfl⟩
    rw [Chain.not_isEVM_bitcoin] at evm
    cases evm
  rcases s.rollbackPendingNonce_cases walletID .bitcoin target with kept | ⟨-, moved, -⟩
  · rw [kept]
  · rw [moved, if_neg other]

end NonceRows

/-! ## Rows of unspent outputs -/

section UTXORows

variable {utxos : Table UTXO.outpoint} {outpoints : List String}

/-- The loop over outpoints that are all there changes exactly their rows. -/
theorem updateUTXOs_spec (change : UTXO → UTXO) (keeps : ∀ u, (change u).outpoint = u.outpoint)
    (again : ∀ u, change (change u) = change u)
    (present : ∀ op ∈ outpoints, (utxos.get op).isSome) :
    (updateUTXOs change outpoints utxos).1 = .ok () ∧
      ∀ o, (updateUTXOs change outpoints utxos).2.get o =
        if o ∈ outpoints then (utxos.get o).map change else utxos.get o := by
  induction outpoints generalizing utxos with
  | nil => simp [updateUTXOs]
  | cons op rest ih =>
    obtain ⟨u, found⟩ := Option.isSome_iff_exists.mp (present op List.mem_cons_self)
    have key : (change u).outpoint = op := by rw [keeps, Table.key_of_get found]
    have still : ∀ o ∈ rest, ((utxos.put (change u)).get o).isSome := by
      intro o member
      rw [Table.get_put]
      split
      · rfl
      · exact present o (List.mem_cons_of_mem _ member)
    obtain ⟨answer, rows⟩ := ih still
    simp only [updateUTXOs, found]
    refine ⟨answer, fun o => ?_⟩
    rw [rows o, Table.get_put, key]
    by_cases here : op = o
    · subst here
      by_cases later : op ∈ rest <;> simp [later, found, again]
    · have other : o ≠ op := fun h => here h.symm
      by_cases later : o ∈ rest <;> simp [here, other, later]

/-- The loop removes no rows. -/
theorem isSome_updateUTXOs (change : UTXO → UTXO) {o : String}
    (there : (utxos.get o).isSome) : ((updateUTXOs change outpoints utxos).2.get o).isSome := by
  induction outpoints generalizing utxos with
  | nil => exact there
  | cons op rest ih =>
    unfold updateUTXOs
    cases found : utxos.get op with
    | none => exact there
    | some u =>
      refine ih ?_
      rw [Table.get_put]
      split
      · rfl
      · exact there

/-- The loop succeeds only on outpoints that are all there. -/
theorem present_of_updateUTXOs (change : UTXO → UTXO)
    (keeps : ∀ u, (change u).outpoint = u.outpoint)
    (answer : (updateUTXOs change outpoints utxos).1 = .ok ()) :
    ∀ op ∈ outpoints, (utxos.get op).isSome := by
  induction outpoints generalizing utxos with
  | nil => exact fun op member => absurd member List.not_mem_nil
  | cons op rest ih =>
    unfold updateUTXOs at answer
    cases found : utxos.get op with
    | none =>
      rw [found] at answer
      cases answer
    | some u =>
      simp only [found] at answer
      have later := ih answer
      intro o member
      by_cases here : o = op
      · rw [here, found]
        rfl
      · have there := later o ((List.mem_cons.mp member).resolve_left here)
        rwa [Table.get_put_of_ne] at there
        rw [keeps, Table.key_of_get found]
        exact Ne.symm here

/-- The check of `LockUTXOs` passes when every outpoint is there and free. -/
theorem checkFree_ok : checkFree utxos outpoints = .ok () ↔
    ∀ op ∈ outpoints, ∃ u, utxos.get op = some u ∧ u.lockState = .free := by
  induction outpoints with
  | nil => simp [checkFree]
  | cons op rest ih =>
    unfold checkFree
    cases found : utxos.get op with
    | none => simp [found]
    | some u => by_cases free : u.lockState = .free <;> simp [found, free, ih]

/-- A lock state of an outpoint. -/
def lockState (s : Store) (op : String) : Option UTXOLockState :=
  (s.utxos.get op).map UTXO.lockState

/-- Locking outpoints that are all there and free succeeds, and writes only their rows. -/
theorem lockUTXOs_free {s : Store} {now : Int}
    (free : ∀ op ∈ outpoints, ∃ u, s.utxos.get op = some u ∧ u.lockState = .free) :
    (s.lockUTXOs now outpoints).1 = .ok () ∧
      ∃ utxos, (s.lockUTXOs now outpoints).2 = { s with utxos } ∧ ∀ o, utxos.get o =
        if o ∈ outpoints then (s.utxos.get o).map (setLocked now) else s.utxos.get o := by
  have present : ∀ op ∈ outpoints, (s.utxos.get op).isSome := by
    intro op member
    obtain ⟨u, found, _⟩ := free op member
    simp [found]
  obtain ⟨answer, rows⟩ := updateUTXOs_spec (setLocked now) (fun _ => rfl)
    (fun _ => rfl) present
  simp only [lockUTXOs, checkFree_ok.mpr free, answer]
  exact ⟨trivial, _, rfl, rows⟩

/-- Locking locks free outpoints and nothing else, or does nothing. -/
theorem lockUTXOs_cases (s : Store) (now : Int) (outpoints : List String) :
    ((∃ err, (s.lockUTXOs now outpoints).1 = .error err) ∧ (s.lockUTXOs now outpoints).2 = s) ∨
      ((s.lockUTXOs now outpoints).1 = .ok () ∧ (∀ op ∈ outpoints, s.lockState op = some .free) ∧
        ∀ o, (s.lockUTXOs now outpoints).2.lockState o =
          if o ∈ outpoints then some .locked else s.lockState o) := by
  cases checked : checkFree s.utxos outpoints with
  | error err =>
    left
    simp [lockUTXOs, checked]
  | ok _ =>
    right
    have free := checkFree_ok.mp checked
    obtain ⟨answer, utxos, store, rows⟩ := @lockUTXOs_free outpoints s now free
    refine ⟨answer, fun op member => ?_, fun o => ?_⟩
    · obtain ⟨u, found, state⟩ := free op member
      simp [lockState, found, state]
    · simp only [lockState, store, rows]
      split
      · obtain ⟨u, found, _⟩ := free o ‹_›
        simp [found, setLocked]
      · rfl

/-- Whether outpoints can be locked does not depend on the clock. -/
theorem lockUTXOs_ok {s : Store} {now : Int} (locked : (s.lockUTXOs now outpoints).1 = .ok ())
    (later : Int) : (s.lockUTXOs later outpoints).1 = .ok () := by
  cases checked : checkFree s.utxos outpoints with
  | error err =>
    rw [lockUTXOs, checked] at locked
    cases locked
  | ok _ => exact (lockUTXOs_free (checkFree_ok.mp checked)).1

/-- Changing the lock state of outpoints that are all there. -/
theorem lockState_updateUTXOs {s : Store} {state : UTXOLockState} (change : UTXO → UTXO)
    (keeps : ∀ u, (change u).outpoint = u.outpoint) (again : ∀ u, change (change u) = change u)
    (sets : ∀ u, (change u).lockState = state)
    (present : ∀ op ∈ outpoints, (s.lockState op).isSome) (o : String) :
    ((updateUTXOs change outpoints s.utxos).2.get o).map UTXO.lockState =
      if o ∈ outpoints then some state else s.lockState o := by
  have there : ∀ op ∈ outpoints, (s.utxos.get op).isSome := by
    simpa [lockState] using present
  rw [(updateUTXOs_spec change keeps again there).2 o]
  split
  · obtain ⟨u, found⟩ := Option.isSome_iff_exists.mp (there o ‹_›)
    simp [found, sets]
  · rfl

/-- Restoring frees outpoints that are all there, and nothing else. -/
theorem lockState_restoreUTXOs {s : Store} {now : Int}
    (present : ∀ op ∈ outpoints, (s.lockState op).isSome)
    (o : String) : (s.restoreUTXOs now outpoints).2.lockState o =
      if o ∈ outpoints then some .free else s.lockState o :=
  lockState_updateUTXOs (setFree now) (fun _ => rfl) (fun _ => rfl) (fun _ => rfl) present o

/-- Rows do not go away when the lock state of some of them is set. -/
theorem isSome_of_set {s s' : Store} {state : UTXOLockState} (now : ∀ op, s'.lockState op =
      if op ∈ outpoints then some state else s.lockState op) (op : String)
    (there : (s.lockState op).isSome) : (s'.lockState op).isSome := by
  rw [now]
  split
  · rfl
  · exact there

/-- Spending marks outpoints that are all there, and nothing else. -/
theorem lockState_markUTXOsSpent {s : Store} {now : Int} {txHash : String}
    (present : ∀ op ∈ outpoints, (s.lockState op).isSome) (o : String) :
    (s.markUTXOsSpent now outpoints txHash).2.lockState o =
      if o ∈ outpoints then some .spent else s.lockState o :=
  lockState_updateUTXOs (setSpent now txHash) (fun _ => rfl) (fun _ => rfl) (fun _ => rfl) present o

end UTXORows

/-! ## Addresses -/

theorem mem_activeAddresses {s : Store} {walletID : UUID} {a : Address} :
    a ∈ s.activeAddresses walletID ↔
      s.addresses.get a.id = some a ∧ a.walletID = walletID ∧ a.state = .active := by
  simp [activeAddresses, Table.select, Table.mem_iff_get]

/-- An active address stored for a wallet that has none is its only active address. -/
theorem mem_activeAddresses_put {s s' : Store} {row a : Address}
    (stored : s'.addresses = s.addresses.put row) (none : s.activeAddresses row.walletID = [])
    (active : row.state = .active) : a ∈ s'.activeAddresses row.walletID ↔ a = row := by
  constructor
  · intro member
    obtain ⟨member, test⟩ := List.mem_filter.mp member
    rw [stored] at member
    rcases Table.mem_put.mp member with same | ⟨member, -⟩
    · exact same
    · have old : a ∈ s.activeAddresses row.walletID := List.mem_filter.mpr ⟨member, test⟩
      rw [none] at old
      cases old
  · rintro rfl
    exact mem_activeAddresses.mpr ⟨stored ▸ Table.get_put_self _ _, rfl, active⟩

/-- `InsertAddress` finds the identifier, or an active address of the wallet, or stores the
address. -/
theorem insertAddress_cases (s : Store) (now : Int) (a : Address) :
    ((s.addresses.get a.id).isSome ∧ ∃ err, s.insertAddress now a = (.error err, s)) ∨
    (s.activeAddresses a.walletID ≠ [] ∧ ∃ err, s.insertAddress now a = (.error err, s)) ∨
    (s.addresses.get a.id = none ∧ (a.state = .active → s.activeAddresses a.walletID = []) ∧
      ∃ createdAt, s.insertAddress now a =
        (.ok (), { s with addresses := s.addresses.put { a with createdAt } })) := by
  unfold insertAddress
  split
  · rename_i row found
    exact .inl ⟨by rw [found]; rfl, _, rfl⟩
  · rename_i fresh
    split
    · rename_i taken
      exact .inr (.inl ⟨taken.2, _, rfl⟩)
    · rename_i free
      refine .inr (.inr ⟨fresh, fun active => by_contra fun taken => free ⟨active, taken⟩, ?_⟩)
      by_cases unset : a.createdAt = 0
      · exact ⟨now, by simp [unset]⟩
      · exact ⟨a.createdAt, by simp [unset]⟩

/-- `DeprecateAddress` misses the identifier or changes the state of its row. -/
theorem deprecateAddress_cases (s : Store) (id : UUID) :
    (s.addresses.get id = none ∧ ∃ err, s.deprecateAddress id = (.error err, s)) ∨
    ∃ a, s.addresses.get id = some a ∧ s.deprecateAddress id =
      (.ok (), { s with addresses := s.addresses.put { a with state := .deprecated } }) := by
  unfold deprecateAddress
  cases found : s.addresses.get id with
  | none => exact .inl ⟨rfl, _, rfl⟩
  | some a => exact .inr ⟨a, rfl, rfl⟩

@[simp] theorem wallets_insertAddress (s : Store) (now : Int) (a : Address) :
    (s.insertAddress now a).2.wallets = s.wallets := by
  rcases s.insertAddress_cases now a with ⟨-, _, same⟩ | ⟨-, _, same⟩ | ⟨-, -, _, same⟩ <;>
    rw [same]

@[simp] theorem wallets_deprecateAddress (s : Store) (id : UUID) :
    (s.deprecateAddress id).2.wallets = s.wallets := by
  rcases s.deprecateAddress_cases id with ⟨-, _, same⟩ | ⟨_, -, same⟩ <;> rw [same]

/-- `DeprecateAddress` changes nothing but the state of a row. -/
theorem mem_deprecateAddress {s : Store} {id : UUID} {row : Address}
    (member : row ∈ (s.deprecateAddress id).2.addresses.rows) :
    row ∈ s.addresses.rows ∨ ∃ a ∈ s.addresses.rows, row = { a with state := .deprecated } := by
  rcases s.deprecateAddress_cases id with ⟨-, _, same⟩ | ⟨a, found, same⟩
  · rw [same] at member
    exact .inl member
  · rw [same] at member
    rcases Table.mem_put.mp member with rfl | ⟨member, -⟩
    · exact .inr ⟨a, Table.mem_of_get found, rfl⟩
    · exact .inl member

/-- `DeprecateAddress` makes no address active. -/
theorem active_of_deprecateAddress {s : Store} {id walletID : UUID} {a : Address}
    (active : a ∈ (s.deprecateAddress id).2.activeAddresses walletID) :
    a ∈ s.activeAddresses walletID := by
  obtain ⟨member, test⟩ := List.mem_filter.mp active
  rcases mem_deprecateAddress member with member | ⟨_, -, rfl⟩
  · exact List.mem_filter.mpr ⟨member, test⟩
  · simp at test

/-- `DeprecateAddress` adds and removes no address. -/
theorem isSome_deprecateAddress (s : Store) (id key : UUID) :
    ((s.deprecateAddress id).2.addresses.get key).isSome = (s.addresses.get key).isSome := by
  rcases s.deprecateAddress_cases id with ⟨-, _, same⟩ | ⟨a, found, same⟩
  · rw [same]
  · rw [same, Table.get_put]
    split
    · rename_i here
      rw [← here, show a.id = id from Table.key_of_get found, found]
      rfl
    · rfl

end Store

end WalletManagement
