import WalletManagement.MemStoreRows
import WalletManagement.SagaCalls
import WalletManagement.Scripted

/-!
# The whitelist gate

No withdrawal passes the whitelist check unapproved, and the gateway only ever receives bytes
assembled for the withdrawal it is called for. The statement is about every interleaving of the
calls of any number of saga operations: the operations re-read and re-write a record without a
transaction, so the proof gives each of them a precondition that survives the others. What the
others may do is `Later`: the log grows, wallets stay, and no record changes its terms.
-/

namespace WalletManagement

open Interaction Data

/-- The terms of a withdrawal, which no operation changes. -/
def WithdrawalRequest.terms (wr : WithdrawalRequest) : UUID × UUID × String × String × String :=
  (wr.id, wr.walletID, wr.toAddress, wr.asset, wr.amount)

/-- The states a withdrawal reaches only through the whitelist check. -/
def WithdrawalState.gated : WithdrawalState → Bool
  | .whitelisted | .signed | .broadcast | .confirmed => true
  | .pending | .failed => false

/-- The policy client has approved, without an error, exactly the terms of a withdrawal. -/
def Approved (log : List (Entry SagaCall)) (wr : WithdrawalRequest) : Prop :=
  ∃ caller dec, dec.approved = true ∧ (⟨caller, .checkWhitelist
    ⟨wr.walletID.string, wr.toAddress, wr.asset, wr.amount⟩, (some dec, none)⟩ :
      Entry SagaCall) ∈ log

/-- The bytes are assembled, with some signature, from the transaction built for a withdrawal
and its wallet, with some nonce and outpoints. -/
def Assembled (libs : Libraries) (s : Store) (wr : WithdrawalRequest) (bytes : Bytes) : Prop :=
  ∃ w nonce outpoints unsigned signature, s.wallets.get wr.walletID = some w ∧
    buildUnsignedTx libs w wr nonce outpoints = .ok unsigned ∧
    unsigned.assemble signature = .ok bytes

/-- What the gate guarantees of a state and the calls that led to it. -/
structure Gate (libs : Libraries) (w : World SagaCall) : Prop where
  /-- A withdrawal past the check was approved. -/
  approved : ∀ wr ∈ w.store.withdrawals.rows, wr.state.gated → Approved w.log wr
  /-- Signed bytes were assembled for their withdrawal. -/
  assembled : ∀ wr ∈ w.store.withdrawals.rows, wr.signedTxBytes ≠ [] →
    Assembled libs w.store wr wr.signedTxBytes
  /-- The gateway is called by `Broadcast`, for a withdrawal approved before that call and with
  bytes assembled for it. -/
  sent : ∀ later earlier caller req answer,
    w.log = later ++ ⟨caller, .broadcastTx req, answer⟩ :: earlier →
    ∃ wr ∈ w.store.withdrawals.rows, caller = .broadcast wr.id ∧ Approved earlier wr ∧
      Assembled libs w.store wr req.txBytes

/-- What any call of the saga may do to what others rely on. -/
structure Later (w w' : World SagaCall) : Prop where
  /-- Wallets stay. -/
  wallets : w'.store.wallets = w.store.wallets
  /-- The log grows. -/
  log : w.log <:+ w'.log
  /-- Every withdrawal stays, with its terms. -/
  kept : ∀ wr ∈ w.store.withdrawals.rows, ∃ next ∈ w'.store.withdrawals.rows,
    next.terms = wr.terms

instance : IsPreorder (World SagaCall) Later where
  refl _ := ⟨rfl, List.suffix_rfl, fun wr member => ⟨wr, member, rfl⟩⟩
  trans _ _ _ first second := by
    refine ⟨second.wallets.trans first.wallets, first.log.trans second.log, fun wr member => ?_⟩
    obtain ⟨next, member, same⟩ := first.kept wr member
    obtain ⟨last, member, same'⟩ := second.kept next member
    exact ⟨last, member, same'.trans same⟩

section Terms

variable {libs : Libraries} {s s' : Store} {log log' : List (Entry SagaCall)}
  {wr wr' : WithdrawalRequest} {bytes : Bytes}

/-- An approval is of terms, and stays in the log. -/
theorem Approved.later (approved : Approved log wr) (suffix : log <:+ log')
    (same : wr'.terms = wr.terms) : Approved log' wr' := by
  obtain ⟨caller, dec, yes, member⟩ := approved
  simp only [WithdrawalRequest.terms, Prod.mk.injEq] at same
  obtain ⟨_, wallet, target, asset, amount⟩ := same
  refine ⟨caller, dec, yes, ?_⟩
  rw [wallet, target, asset, amount]
  exact suffix.mem member

/-- Bytes are assembled for terms. -/
theorem Assembled.later (assembled : Assembled libs s wr bytes) (wallets : s'.wallets = s.wallets)
    (same : wr'.terms = wr.terms) : Assembled libs s' wr' bytes := by
  obtain ⟨w, nonce, outpoints, unsigned, signature, found, built, injected⟩ := assembled
  simp only [WithdrawalRequest.terms, Prod.mk.injEq] at same
  obtain ⟨_, wallet, target, _, amount⟩ := same
  refine ⟨w, nonce, outpoints, unsigned, signature, by rw [wallets, wallet, found], ?_, injected⟩
  rw [buildUnsignedTx_congr libs w wallet target amount, built]

/-- Rows with the same identifier have the same terms when one of them has a successor. -/
theorem terms_of_id {s : Store} {known row cur : WithdrawalRequest}
    (present : cur ∈ s.withdrawals.rows) (same : cur.terms = known.terms)
    (member : row ∈ s.withdrawals.rows) (id : row.id = known.id) : row.terms = known.terms := by
  have ids : row.id = cur.id := by
    rw [id]
    exact (congrArg Prod.fst same).symm
  have found := Table.get_of_mem member
  rw [ids, Table.get_of_mem present] at found
  rw [← Option.some.inj found, same]

end Terms

/-! ## One call -/

section Step

variable (libs : Libraries) (caller : SagaCall)

/-- What a call must meet to keep the gate. -/
def Permitted (w : World SagaCall) : Op → Prop
  | .store (.createWithdrawal wr) => wr.state = .pending ∧ wr.signedTxBytes = []
  | .store (.updateWithdrawalState id state _ _ _) =>
    state.gated → ∀ wr ∈ w.store.withdrawals.rows, wr.id = id → Approved w.log wr
  | .store (.updateWithdrawalSignedTx id bytes) =>
    ∀ wr ∈ w.store.withdrawals.rows, wr.id = id → Assembled libs w.store wr bytes
  | .broadcastTx req => ∃ wr ∈ w.store.withdrawals.rows, caller = .broadcast wr.id ∧
      Approved w.log wr ∧ Assembled libs w.store wr req.txBytes
  | .begin | .commit | .rollback => False
  | _ => True

variable {libs caller} {w w' : World SagaCall} {op : Op} {answer : op.Ans}

/-- The gate after a call, from what the call did to the rows. -/
theorem Gate.advance (gate : Gate libs w) {store : Store}
    (wallets : store.wallets = w.store.wallets)
    (rows : ∀ wr ∈ store.withdrawals.rows, (wr.state.gated → Approved w.log wr) ∧
      (wr.signedTxBytes ≠ [] → Assembled libs w.store wr wr.signedTxBytes))
    (kept : ∀ wr ∈ w.store.withdrawals.rows, ∃ next ∈ store.withdrawals.rows,
      next.terms = wr.terms)
    (sent : ∀ req, op = .broadcastTx req → ∃ wr ∈ w.store.withdrawals.rows,
      caller = .broadcast wr.id ∧ Approved w.log wr ∧ Assembled libs w.store wr req.txBytes) :
    Gate libs { w.record caller op answer with store } ∧
      Later w { w.record caller op answer with store } := by
  have grown : w.log <:+ (⟨caller, op, answer⟩ :: w.log) := List.suffix_cons _ _
  refine ⟨⟨fun wr member passed => ?_, fun wr member some => ?_, ?_⟩, wallets, grown, kept⟩
  · exact ((rows wr member).1 passed).later grown rfl
  · exact ((rows wr member).2 some).later wallets rfl
  · -- a call to the gateway is this call, or one made before it
    intro later earlier caller' req answer' split
    have found : ∃ wr ∈ w.store.withdrawals.rows, caller' = .broadcast wr.id ∧
        Approved earlier wr ∧ Assembled libs w.store wr req.txBytes := by
      cases later with
      | nil =>
        obtain ⟨entry, rest⟩ := List.cons.inj split
        cases entry
        rw [← rest]
        exact sent req rfl
      | cons head later =>
        exact gate.sent later earlier caller' req answer' (List.cons.inj split).2
    obtain ⟨wr, member, id, approved, assembled⟩ := found
    obtain ⟨next, member, same⟩ := kept wr member
    refine ⟨next, member, ?_, approved.later List.suffix_rfl same,
      assembled.later wallets same⟩
    rw [id, show next.id = wr.id from congrArg Prod.fst same]

/-- A permitted update of one row keeps the gate. -/
theorem Gate.advance_update (gate : Gate libs w) {store : Store} {id : UUID}
    {change : WithdrawalRequest → WithdrawalRequest}
    (wallets : store.wallets = w.store.wallets)
    (withdrawals : store.withdrawals = (w.store.updateWithdrawal id change).2.withdrawals)
    (terms : ∀ wr, (change wr).terms = wr.terms)
    (approved : ∀ wr ∈ w.store.withdrawals.rows, wr.id = id → (change wr).state.gated →
      Approved w.log wr)
    (assembled : ∀ wr ∈ w.store.withdrawals.rows, wr.id = id → (change wr).signedTxBytes ≠ [] →
      Assembled libs w.store wr (change wr).signedTxBytes)
    (quiet : ∀ req, op ≠ .broadcastTx req) :
    Gate libs { w.record caller op answer with store } ∧
      Later w { w.record caller op answer with store } := by
  have keeps : ∀ wr, (change wr).id = wr.id := fun wr => congrArg Prod.fst (terms wr)
  refine gate.advance wallets (fun wr member => ?_) (fun wr member => ?_)
    fun req same => absurd same (quiet req)
  · rw [withdrawals] at member
    rcases Store.mem_updateWithdrawal member with member | ⟨old, present, id, rfl⟩
    · exact ⟨gate.approved wr member, gate.assembled wr member⟩
    · refine ⟨fun passed => ?_, fun some => ?_⟩
      · exact (approved old present id passed).later List.suffix_rfl (terms old)
      · exact (assembled old present id some).later rfl (terms old)
  · obtain ⟨next, member, same⟩ := Store.exists_updateWithdrawal id keeps member
    rw [withdrawals]
    refine ⟨next, member, ?_⟩
    rcases same with rfl | rfl
    · rfl
    · exact terms wr

/-- A call that writes no withdrawal keeps the gate. -/
theorem Gate.advance_frame (gate : Gate libs w) {store : Store}
    (wallets : store.wallets = w.store.wallets)
    (withdrawals : store.withdrawals = w.store.withdrawals)
    (sent : ∀ req, op = .broadcastTx req → ∃ wr ∈ w.store.withdrawals.rows,
      caller = .broadcast wr.id ∧ Approved w.log wr ∧ Assembled libs w.store wr req.txBytes) :
    Gate libs { w.record caller op answer with store } ∧
      Later w { w.record caller op answer with store } := by
  refine gate.advance wallets (fun wr member => ?_) (fun wr member => ?_) sent
  · rw [withdrawals] at member
    exact ⟨gate.approved wr member, gate.assembled wr member⟩
  · exact ⟨wr, by rwa [withdrawals], rfl⟩

/-- Creating a pending withdrawal keeps the gate. -/
theorem Gate.advance_create (gate : Gate libs w) {wr : WithdrawalRequest}
    (pending : wr.state = .pending) (unsigned : wr.signedTxBytes = [])
    (answer : Except Err Unit) :
    Gate libs { w.record caller (.store (.createWithdrawal wr)) answer with
        store := (w.store.createWithdrawal wr).2 } ∧
      Later w { w.record caller (.store (.createWithdrawal wr)) answer with
        store := (w.store.createWithdrawal wr).2 } := by
  rcases w.store.createWithdrawal_cases wr with ⟨_, same⟩ | ⟨_, fresh, stored⟩
  · exact gate.advance_frame (by simp) (by rw [same]) nofun
  · refine gate.advance (by simp) (fun row member => ?_) (fun row member => ?_) nofun
    · rw [stored] at member
      rcases Table.mem_put.mp member with rfl | ⟨member, _⟩
      · simp [pending, unsigned, WithdrawalState.gated]
      · exact ⟨gate.approved row member, gate.assembled row member⟩
    · refine ⟨row, ?_, rfl⟩
      rw [stored]
      refine Table.mem_put.mpr (.inr ⟨member, fun same => ?_⟩)
      rw [← same, Table.get_of_mem member] at fresh
      cases fresh

/-- A permitted call keeps the gate and moves along what the others rely on. -/
theorem Gate.kept (gate : Gate libs w) (permitted : Permitted libs caller w op)
    (moved : step caller op w answer w') : Gate libs w' ∧ Later w w' := by
  cases op with
  | store op =>
    obtain ⟨now, -, rfl⟩ := moved
    cases op with
    | createWithdrawal wr => exact gate.advance_create permitted.1 permitted.2 _
    | updateWithdrawalState id state reason txHash decision =>
      exact gate.advance_update (by simp [StoreOp.exec, World.record])
        (Store.updateWithdrawalState_withdrawals ..) (fun _ => rfl)
        (fun wr member id passed => permitted passed wr member id)
        (fun wr member _ some => gate.assembled wr member some) nofun
    | updateWithdrawalNonce id n =>
      exact gate.advance_update (Store.updateWithdrawal_frame ..).1 rfl (fun _ => rfl)
        (fun wr member _ passed => gate.approved wr member passed)
        (fun wr member _ some => gate.assembled wr member some) nofun
    | updateWithdrawalOutpoints id ops =>
      exact gate.advance_update (Store.updateWithdrawal_frame ..).1 rfl (fun _ => rfl)
        (fun wr member _ passed => gate.approved wr member passed)
        (fun wr member _ some => gate.assembled wr member some) nofun
    | updateWithdrawalSignedTx id bytes =>
      exact gate.advance_update (Store.updateWithdrawal_frame ..).1 rfl (fun _ => rfl)
        (fun wr member _ passed => gate.approved wr member passed)
        (fun wr member id _ => permitted wr member id) nofun
    | _ =>
      exact gate.advance_frame (by simp [StoreOp.exec, World.record, Store.upsertBalance])
        (by simp [StoreOp.exec, World.record, Store.upsertBalance]) nofun
  | broadcastTx req =>
    cases moved
    refine gate.advance_frame rfl rfl fun req' same => ?_
    cases same
    exact permitted
  | begin => exact permitted.elim
  | commit => exact permitted.elim
  | rollback => exact permitted.elim
  | listWithdrawals walletID state =>
    obtain ⟨-, rfl⟩ := moved
    exact gate.advance_frame rfl rfl nofun
  | _ =>
    cases moved
    exact gate.advance_frame rfl rfl nofun

end Step

/-! ## Calls that are always permitted -/

/-- A call that keeps the gate whenever and for whomever it is made. -/
def Free (op : Op) : Prop := ∀ libs caller w, Permitted libs caller w op

/-- Plain calls are always permitted. -/
theorem Op.Plain.free {op : Op} (plain : op.Plain) : Free op := by
  intro libs caller w
  cases op with
  | store op =>
    cases op with
    | createWithdrawal _ => exact plain.elim
    | updateWithdrawalState _ _ _ _ _ => exact plain.elim
    | updateWithdrawalSignedTx _ _ => exact plain.elim
    | _ => trivial
  | broadcastTx _ => exact plain.elim
  | begin => exact plain.elim
  | commit => exact plain.elim
  | rollback => exact plain.elim
  | _ => trivial

/-- A program of plain calls makes only such calls. -/
theorem free_of_plain {α : Type} {program : Prog α} (plain : program.Calls Op.Plain) :
    program.Calls Free := plain.mono fun _ plain => plain.free

/-! ## The operations -/

section Operations

variable {svc : Service} {caller : SagaCall} {α : Type}

/-- A withdrawal is stored, with its terms. -/
def Present (wr : WithdrawalRequest) (w : World SagaCall) : Prop :=
  ∃ cur ∈ w.store.withdrawals.rows, cur.terms = wr.terms

/-- A withdrawal is stored, and its terms are approved. -/
structure Cleared (wr : WithdrawalRequest) (w : World SagaCall) : Prop where
  /-- It is stored. -/
  present : Present wr w
  /-- Its terms are approved. -/
  approved : Approved w.log wr

theorem Present.later {wr : WithdrawalRequest} {w w' : World SagaCall} (present : Present wr w)
    (along : Later w w') : Present wr w' := by
  obtain ⟨cur, member, same⟩ := present
  obtain ⟨next, member, same'⟩ := along.kept cur member
  exact ⟨next, member, same'.trans same⟩

theorem Cleared.later {wr : WithdrawalRequest} {w w' : World SagaCall} (cleared : Cleared wr w)
    (along : Later w w') : Cleared wr w' :=
  ⟨cleared.present.later along, cleared.approved.later along.log rfl⟩

/-- A cleared withdrawal may take any state. -/
theorem Cleared.permits_state {wr : WithdrawalRequest} {w : World SagaCall}
    (cleared : Cleared wr w) (libs : Libraries) (state : WithdrawalState)
    (reason txHash decision : String) :
    Permitted libs caller w
      (.store (.updateWithdrawalState wr.id state reason txHash decision)) := by
  intro _ row member id
  obtain ⟨cur, present, same⟩ := cleared.present
  exact cleared.approved.later List.suffix_rfl (terms_of_id present same member id)

/-- A program all of whose calls a lasting fact permits is safe. -/
theorem safe_calls (known : World SagaCall → Prop)
    (stable : ∀ now later, known now → Later now later → known later) {program : Prog α}
    {w : World SagaCall} (start : known w)
    (calls : program.Calls fun op =>
      ∀ now, known now → Gate svc.libs now → Permitted svc.libs caller now op) :
    program.Safe (step caller) (Gate svc.libs) Later (fun _ w' => known w') w :=
  .of_calls stable (fun _ permitted now _ _ here gate moved =>
    gate.kept (permitted now here gate) moved) calls start

/-- One call that a lasting fact permits, before a program safe after it. -/
theorem safe_call (known : World SagaCall → Prop)
    (stable : ∀ now later, known now → Later now later → known later) {op : Op}
    {next : op.Ans → Prog α} {post : α → World SagaCall → Prop} {w : World SagaCall}
    (start : known w)
    (permitted : ∀ now, known now → Gate svc.libs now → Permitted svc.libs caller now op)
    (rest : ∀ answer now later, Gate svc.libs now → known later → Later now later →
      step caller op now answer later →
      (next answer).Safe (step caller) (Gate svc.libs) Later post later) :
    (perform op >>= next).Safe (step caller) (Gate svc.libs) Later post w := by
  refine .perform_bind fun now moved gate answer later stepped => ?_
  have here := stable w now start moved
  obtain ⟨after, along⟩ := gate.kept (permitted now here gate) stepped
  exact ⟨after, along, rest answer now later gate (stable now later here along) along stepped⟩

/-- Reading a withdrawal, before a program safe after each answer. -/
theorem safe_getWithdrawal {id : UUID} {next : Except Err WithdrawalRequest → Prog α}
    {post : α → World SagaCall → Prop} {w : World SagaCall}
    (missing : ∀ err later, (next (.error err)).Safe (step caller) (Gate svc.libs) Later post later)
    (found : ∀ wr later, wr.id = id → Present wr later →
      (wr.state.gated → Approved later.log wr) →
      (wr.signedTxBytes ≠ [] → Assembled svc.libs later.store wr wr.signedTxBytes) →
      (next (.ok wr)).Safe (step caller) (Gate svc.libs) Later post later) :
    (perform (.store (.getWithdrawal id)) >>= next).Safe (step caller) (Gate svc.libs) Later
      post w := by
  refine safe_call (fun _ => True) (fun _ _ _ _ => trivial) trivial (fun _ _ _ => trivial)
    fun answer now later gate _ along moved => ?_
  obtain ⟨_, rfl, -⟩ := step_store.mp moved
  cases at_id : now.store.withdrawals.get id with
  | none =>
    simpa only [StoreOp.exec, Store.getWithdrawal, Store.found, at_id] using missing _ _
  | some wr =>
    have member := Table.mem_of_get at_id
    have safe := found wr _ (Table.key_of_get at_id) (Present.later ⟨wr, member, rfl⟩ along)
      (fun passed => (gate.approved wr member passed).later along.log rfl)
      (fun some => (gate.assembled wr member some).later along.wallets rfl)
    simpa only [StoreOp.exec, Store.getWithdrawal, Store.found, at_id] using safe

/-- Reading a wallet under a lasting fact. -/
theorem safe_getWallet (known : World SagaCall → Prop)
    (stable : ∀ now later, known now → Later now later → known later) {id : UUID}
    {next : Except Err Wallet → Prog α} {post : α → World SagaCall → Prop} {w : World SagaCall}
    (start : known w)
    (missing : ∀ err later, (next (.error err)).Safe (step caller) (Gate svc.libs) Later post later)
    (found : ∀ wallet later, known later → later.store.wallets.get id = some wallet →
      (next (.ok wallet)).Safe (step caller) (Gate svc.libs) Later post later) :
    (perform (.store (.getWallet id)) >>= next).Safe (step caller) (Gate svc.libs) Later
      post w := by
  refine safe_call known stable start (fun _ _ _ => trivial)
    fun answer now later gate here along moved => ?_
  obtain ⟨_, rfl, -⟩ := step_store.mp moved
  cases at_id : now.store.wallets.get id with
  | none => simpa only [StoreOp.exec, Store.getWallet, Store.found, at_id] using missing _ _
  | some wallet =>
    have safe := found wallet later here (by rw [along.wallets, at_id])
    simpa only [StoreOp.exec, Store.getWallet, Store.found, at_id] using safe

/-- A withdrawal is cleared and its wallet is known. -/
def ClearedWith (wr : WithdrawalRequest) (wallet : Wallet) (w : World SagaCall) : Prop :=
  Cleared wr w ∧ w.store.wallets.get wr.walletID = some wallet

theorem ClearedWith.later {wr : WithdrawalRequest} {wallet : Wallet} (now after : World SagaCall)
    (known : ClearedWith wr wallet now) (along : Later now after) : ClearedWith wr wallet after :=
  ⟨known.1.later along, by rw [along.wallets, known.2]⟩

/-- Calls that are always permitted, under any fact. -/
theorem permitted_of_free {known : World SagaCall → Prop} {program : Prog α}
    (free : program.Calls Free) : program.Calls fun op =>
      ∀ now, known now → Gate svc.libs now → Permitted svc.libs caller now op :=
  free.mono fun _ permitted now _ _ => permitted svc.libs caller now

/-- After the reservation, a cleared withdrawal is signed with permitted calls only. -/
theorem signReserved_calls (wr : WithdrawalRequest) (wallet : Wallet) (keyID : String) (n : Int)
    (ops : List String) : (svc.signReserved wr wallet keyID n ops).Calls fun op =>
      ∀ now, ClearedWith wr wallet now → Gate svc.libs now → Permitted svc.libs caller now op := by
  have failing (program : Prog Unit) (free : program.Calls Free) (reason : String) (err : Err) :
      (do program
          let _ ← perform (.store (.updateWithdrawalState wr.id .failed reason "" ""))
          pure (.error err) : Prog (Except Err Unit)).Calls fun op =>
        ∀ now, ClearedWith wr wallet now → Gate svc.libs now → Permitted svc.libs caller now op :=
    (permitted_of_free free).bind fun _ =>
      ⟨fun now known _ => known.1.permits_state svc.libs _ _ _ _, fun _ => trivial⟩
  unfold Service.signReserved
  cases built : buildUnsignedTx svc.libs wallet wr n ops with
  | error err => exact (permitted_of_free (free_of_plain (rollback_plain ..))).bind fun _ => trivial
  | ok unsigned =>
    refine (Program.calls_perform_bind ..).mpr ⟨fun _ _ _ => trivial, fun answer => ?_⟩
    cases answer with
    | error err => exact failing _ (free_of_plain (rollback_plain ..)) _ _
    | ok resp =>
      cases injected : unsigned.assemble resp.signature with
      | error err => simpa only [injected] using failing _ (free_of_plain (rollback_plain ..)) _ _
      | ok bytes =>
        -- the only place where bytes are stored: they are assembled for this very record
        simp only [injected]
        refine (Program.calls_perform_bind ..).mpr ⟨fun now known _ row member id => ?_,
          fun answer => ?_⟩
        · obtain ⟨cur, present, same⟩ := known.1.present
          exact Assembled.later ⟨wallet, n, ops, unsigned, resp.signature, known.2, built, injected⟩
            rfl (terms_of_id present same member id)
        · cases answer with
          | error err =>
            exact (permitted_of_free (free_of_plain (rollback_plain ..))).bind fun _ => trivial
          | ok _ =>
            refine (Program.calls_perform_bind ..).mpr
              ⟨fun now known _ => known.1.permits_state svc.libs _ _ _ _, fun answer => ?_⟩
            cases answer with
            | error err => trivial
            | ok _ =>
              exact (permitted_of_free (free_of_plain (emit_plain ..))).bind fun _ => trivial

/-- `ConstructAndSign` keeps the gate under any schedule. -/
theorem constructAndSign_safe (id : UUID) (w : World SagaCall) :
    (svc.constructAndSign id).Safe (step caller) (Gate svc.libs) Later (fun _ _ => True) w := by
  refine safe_getWithdrawal (fun _ _ => trivial) fun wr _ same present approved _ => ?_
  dsimp only
  by_cases whitelisted : wr.state = .whitelisted
  · rw [if_neg (not_not_intro whitelisted)]
    refine safe_getWallet (Cleared wr) (fun _ _ cleared along => cleared.later along)
      ⟨present, approved (by rw [whitelisted]; rfl)⟩ (fun _ _ => trivial)
      fun wallet _ cleared found => ?_
    refine (safe_calls (ClearedWith wr wallet) ClearedWith.later ⟨cleared, found⟩ ?_).mono
      fun _ _ _ => trivial
    refine (permitted_of_free (free_of_plain (resolveKey_plain ..))).bind fun key => ?_
    cases key with
    | error err => trivial
    | ok keyID =>
      refine (permitted_of_free (free_of_plain (reserve_plain ..))).bind fun reserved => ?_
      cases reserved with
      | error err => trivial
      | ok reserved => exact signReserved_calls wr wallet keyID reserved.1 reserved.2
  · rw [if_pos whitelisted]
    trivial

/-- Failing a withdrawal is always permitted. -/
theorem updateFailed_free (id : UUID) (reason txHash decision : String) :
    Free (.store (.updateWithdrawalState id .failed reason txHash decision)) :=
  fun _ _ _ gated => nomatch gated

/-- A state update of a cleared withdrawal, then only calls that are always permitted. -/
theorem updateState_calls (wr : WithdrawalRequest) (state : WithdrawalState)
    (reason txHash decision : String) {next : Except Err Unit → Prog α}
    (free : ∀ answer, (next answer).Calls Free) :
    (perform (.store (.updateWithdrawalState wr.id state reason txHash decision)) >>= next).Calls
      fun op => ∀ now, Cleared wr now → Gate svc.libs now → Permitted svc.libs caller now op :=
  ⟨fun _ cleared _ => cleared.permits_state svc.libs _ _ _ _,
    fun answer => permitted_of_free (free answer)⟩

/-- What `Broadcast` does after an accepted transaction. -/
theorem settle_calls (wr : WithdrawalRequest) (wallet : Wallet) (txHash : String) :
    (svc.settle wr wallet txHash).Calls fun op =>
      ∀ now, Cleared wr now → Gate svc.libs now → Permitted svc.libs caller now op := by
  have spend := free_of_plain (markSpent_plain wr.reservedOutpoints txHash)
  have commit := free_of_plain (commitReserved_plain wr wallet)
  refine (permitted_of_free (runIf_calls _ spend)).bind fun _ =>
    (permitted_of_free commit).bind fun _ => updateState_calls wr _ _ _ _ fun answer => ?_
  cases answer with
  | error err => trivial
  | ok _ => exact (free_of_plain (emit_plain ..)).bind fun _ => trivial

/-- `Broadcast` keeps the gate under any schedule. -/
theorem broadcast_safe (id : UUID) (w : World SagaCall) : (svc.broadcast id).Safe
    (step (.broadcast id)) (Gate svc.libs) Later (fun _ _ => True) w := by
  refine safe_getWithdrawal (fun _ _ => trivial) fun wr read same present approved assembled => ?_
  dsimp only
  subst same
  by_cases signed : wr.state = .signed
  · rw [if_neg (not_not_intro signed)]
    by_cases empty : wr.signedTxBytes = []
    · refine safe_getWallet (fun _ => True) (fun _ _ _ _ => trivial) trivial (fun _ _ => trivial)
        fun wallet _ _ _ => ?_
      simp only [empty, ↓reduceIte]
      trivial
    let known (w : World SagaCall) : Prop :=
      Cleared wr w ∧ Assembled svc.libs w.store wr wr.signedTxBytes
    have stable (now later : World SagaCall) (here : known now) (along : Later now later) :
        known later := ⟨here.1.later along, here.2.later along.wallets rfl⟩
    refine safe_getWallet known stable
      ⟨⟨present, approved (by rw [signed]; rfl)⟩, assembled empty⟩ (fun _ _ => trivial)
      fun wallet _ here _ => ?_
    simp only [empty, ↓reduceIte]
    refine safe_call known stable here (fun now here _ => ?_) fun answer _ _ _ here _ _ => ?_
    · obtain ⟨cur, member, same⟩ := here.1.present
      exact ⟨cur, member, by rw [show cur.id = wr.id from congrArg Prod.fst same],
        here.1.approved.later List.suffix_rfl same, here.2.later rfl same⟩
    · refine (safe_calls (Cleared wr) (fun _ _ cleared along => cleared.later along) here.1 ?_).mono
        fun _ _ _ => trivial
      cases answer with
      | error err =>
        exact (permitted_of_free (free_of_plain (rollback_plain ..))).bind fun _ =>
          permitted_of_free ⟨updateFailed_free _ _ _ _, fun _ => trivial⟩
      | ok resp => exact settle_calls wr wallet resp.txHash
  · rw [if_pos signed]
    trivial

/-- `Confirm` keeps the gate under any schedule. -/
theorem confirm_safe (id : UUID) (txHash : String) (w : World SagaCall) :
    (svc.confirm id txHash).Safe (step caller) (Gate svc.libs) Later (fun _ _ => True) w := by
  refine safe_getWithdrawal (fun _ _ => trivial) fun wr _ same present approved _ => ?_
  dsimp only
  subst same
  by_cases broadcast : wr.state = .broadcast
  · rw [if_neg (not_not_intro broadcast)]
    refine (safe_calls (Cleared wr) (fun _ _ cleared along => cleared.later along)
      ⟨present, approved (by rw [broadcast]; rfl)⟩ ?_).mono fun _ _ _ => trivial
    refine updateState_calls wr _ _ _ _ fun answer => ?_
    cases answer with
    | error err => trivial
    | ok _ => exact (free_of_plain (emit_plain ..)).bind fun _ => trivial
  · rw [if_pos broadcast]
    trivial

/-- `Fail` keeps the gate under any schedule. -/
theorem fail_safe (id : UUID) (reason : String) (w : World SagaCall) :
    (svc.fail id reason).Safe (step caller) (Gate svc.libs) Later (fun _ _ => True) w := by
  refine safe_getWithdrawal (fun _ _ => trivial) fun wr _ _ _ _ _ => ?_
  refine safe_getWallet (fun _ => True) (fun _ _ _ _ => trivial) trivial (fun _ _ => trivial)
    fun wallet _ _ _ => ?_
  refine safe_calls (fun _ => True) (fun _ _ _ _ => trivial) trivial (permitted_of_free ?_)
  refine (free_of_plain (rollback_plain ..)).bind fun _ =>
    ⟨updateFailed_free _ _ _ _, fun answer => ?_⟩
  cases answer with
  | error err => trivial
  | ok _ => exact (free_of_plain (emit_plain ..)).bind fun _ => trivial

/-- `OnReorg` keeps the gate under any schedule. -/
theorem onReorg_safe (id : UUID) (outpoints : List String) (w : World SagaCall) :
    (Service.onReorg id outpoints).Safe (step caller) (Gate svc.libs) Later
      (fun _ _ => True) w := by
  refine safe_getWithdrawal (fun _ _ => trivial) fun wr read same present approved _ => ?_
  dsimp only
  subst same
  by_cases confirmed : wr.state = .confirmed
  · refine (safe_calls (Cleared wr) (fun _ _ cleared along => cleared.later along)
      ⟨present, approved (by rw [confirmed]; rfl)⟩ ?_).mono fun _ _ _ => trivial
    refine (Program.calls_perform_bind ..).mpr ⟨fun _ _ _ => trivial, fun answer => ?_⟩
    cases answer with
    | error err => trivial
    | ok _ =>
      simp only [confirmed, ↓reduceIte]
      exact updateState_calls wr _ _ _ _ fun _ => trivial
  · refine safe_calls (fun _ => True) (fun _ _ _ _ => trivial) trivial (permitted_of_free ?_)
    refine (Program.calls_perform_bind ..).mpr ⟨fun _ _ _ => trivial, fun answer => ?_⟩
    cases answer with
    | error err => trivial
    | ok _ =>
      simp only [confirmed, ↓reduceIte]
      trivial

/-- `Create` keeps the gate under any schedule. -/
theorem create_safe (req : CreateRequest) (w : World SagaCall) :
    (svc.create req).Safe (step caller) (Gate svc.libs) Later (fun _ _ => True) w := by
  refine safe_getWallet (fun _ => True) (fun _ _ _ _ => trivial) trivial (fun _ _ => trivial)
    fun wallet _ _ _ => ?_
  dsimp only
  split
  · trivial
  split
  · trivial
  refine safe_call (fun _ => True) (fun _ _ _ _ => trivial) trivial (fun _ _ _ => trivial)
    fun id _ _ _ _ _ _ => ?_
  refine safe_call (fun _ => True) (fun _ _ _ _ => trivial) trivial (fun _ _ _ => ⟨rfl, rfl⟩)
    fun answer now later _ _ _ moved => ?_
  cases answer with
  | error err => trivial
  | ok _ =>
    have present : Present (req.withdrawal id) later := by
      obtain ⟨_, created, rfl⟩ := step_store.mp moved
      rcases now.store.createWithdrawal_cases (req.withdrawal id) with
        ⟨⟨_, refused⟩, _⟩ | ⟨_, _, stored⟩
      · rw [StoreOp.exec, refused] at created
        cases created
      · exact ⟨req.withdrawal id, by simp [StoreOp.exec, stored, Table.mem_put], rfl⟩
    refine (safe_calls (Present (req.withdrawal id)) (fun _ _ present along => present.later along)
      present (permitted_of_free (free_of_plain (emit_plain ..)))).bind fun _ _ present => ?_
    refine safe_call (Present (req.withdrawal id)) (fun _ _ present along => present.later along)
      present (fun _ _ _ => trivial) fun answer now later _ present _ moved => ?_
    -- the approval, if there is one, is now in the log
    have approved (dec : CheckResponse) (yes : Service.approval answer = some dec) :
        Approved later.log (req.withdrawal id) := by
      cases moved
      obtain ⟨_ | response, _ | err⟩ := answer <;> simp only [Service.approval] at yes
      all_goals try cases yes
      split at yes
      · exact ⟨caller, response, ‹_›, List.mem_cons_self⟩
      · cases yes
    cases decided : Service.approval answer with
    | none =>
      refine safe_calls (fun _ => True) (fun _ _ _ _ => trivial) trivial (permitted_of_free ?_)
      refine (free_of_plain (emit_plain ..)).bind fun _ => ?_
      dsimp only
      exact ⟨updateFailed_free _ _ _ _, fun _ => trivial⟩
    | some dec =>
      refine (safe_calls (Cleared (req.withdrawal id))
        (fun _ _ cleared along => cleared.later along)
        ⟨present, approved dec decided⟩ ?_).mono fun _ _ _ => trivial
      refine (permitted_of_free (free_of_plain (emit_plain ..))).bind fun _ => ?_
      dsimp only
      refine updateState_calls (req.withdrawal id) _ _ _ _ fun answer => ?_
      cases answer <;> trivial

/-- Every operation keeps the gate under any schedule. -/
theorem body_safe (call : SagaCall) (w : World SagaCall) :
    (svc.body call).Safe (step call) (Gate svc.libs) Later (fun _ _ => True) w := by
  cases call with
  | create req => exact (create_safe req w).bind fun _ _ _ => trivial
  | constructAndSign id => exact constructAndSign_safe id w
  | broadcast id => exact broadcast_safe id w
  | confirm id txHash => exact confirm_safe id txHash w
  | fail id reason => exact fail_safe id reason w
  | onReorg id outpoints => exact onReorg_safe id outpoints w
  | trackUTXO u =>
    exact safe_calls (fun _ => True) (fun _ _ _ _ => trivial) trivial
      (permitted_of_free ⟨fun _ _ _ => trivial, fun _ => trivial⟩)
  | reserveNonce walletID chain =>
    exact safe_calls (fun _ => True) (fun _ _ _ _ => trivial) trivial
      (permitted_of_free ((free_of_plain (reserveLoop_plain ..)).bind fun _ => trivial))

end Operations

/-- In every state that any interleaving of saga operations reaches from a store without
withdrawals, every withdrawal past the check was approved, and the gateway was only called for
approved withdrawals, with bytes assembled for them. -/
theorem whitelist_gate (svc : Service) (start : World SagaCall)
    (unused : start.store.withdrawals = .empty) (silent : start.log = [])
    (pool : Pool calls (World SagaCall) SagaCall (Except Err Unit))
    (reached : Pool.Reachable step svc.body ⟨start, []⟩ pool) : Gate svc.libs pool.state := by
  have initial : Gate svc.libs start := by
    refine ⟨fun wr member => ?_, fun wr member => ?_,
      fun later earlier caller req answer split => ?_⟩
    · rw [unused] at member
      cases member
    · rw [unused] at member
      cases member
    · rw [silent] at split
      cases later <;> cases split
  exact (reached.safe (fun call w _ => body_safe call w) ⟨initial, nofun⟩).holds

/-- The gate on a run that broadcasts a withdrawal. -/
theorem whitelist_gate_broadcast : ∃ w, Gate sampleService.libs w ∧
    w.store.withdrawals.rows.map WithdrawalRequest.state = [.broadcast] := by
  let calls := signedEVM "ETH" 10 ++ [(.broadcast (sampleID 10), accepting 10)]
  have admitted : sampleService.Admits (fun _ _ => True) calls sampleStart :=
    sampleService.admits_of_calls (fun _ _ => trivial) sampleStart
  have runs := sampleService.play_runs _ calls admitted
  obtain ⟨threads, reached⟩ := Pool.reachable_of_runs runs
  exact ⟨sampleService.play calls sampleStart,
    whitelist_gate sampleService sampleStart rfl rfl _ reached, by decide +kernel⟩

end WalletManagement
