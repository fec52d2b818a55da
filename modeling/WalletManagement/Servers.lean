import WalletManagement.Callbacks
import WalletManagement.Interaction.Layers

/-!
# What the servers do

The handlers of the two servers for withdrawals, nonces and the reports of the gateway:
`createWithdrawal`, `getWithdrawal`, `listWithdrawals` and `allocateNonce` of `internal/api/rest`,
from the decoded body on, and the callbacks of `internal/api/grpc`. No handler calls
`ConstructAndSign`, `Broadcast` or `Fail`. Whatever of these requests arrive, and however they
interleave, nothing is signed or sent then: a withdrawal stays where `Create` has left it, and a
callback cannot confirm it.

One of these requests that is answered with an error of the client has changed nothing, but for a
reorganisation whose second half is refused. The requests for wallets, addresses, balances and
funding are not among them.
-/

namespace WalletManagement

open Interaction Data

/-! ## The handlers -/

/-- The status codes of the handlers. -/
inductive HTTPStatus where
  | ok
  | created
  | badRequest
  | notFound
  | conflict
  | internalServerError
  | serviceUnavailable
  deriving DecidableEq

/-- What a handler writes. -/
inductive ResponseBody where
  | error (text : String)
  | withdrawal (wr : WithdrawalRequest)
  | withdrawals (wrs : List WithdrawalRequest)
  | nonce (n : Int)
  deriving DecidableEq

/-- An answer over REST. -/
structure Response where
  status : HTTPStatus
  body : ResponseBody
  deriving DecidableEq

/-- `writeError`. -/
def writeError (status : HTTPStatus) (text : String) : Response := ⟨status, .error text⟩

/-- `createWithdrawalReq`. -/
structure CreateWithdrawalReq where
  walletID : String
  toAddress : String
  asset : String
  amount : String
  deriving DecidableEq

/-- The services behind the two servers. -/
structure Servers extends WalletServer where
  /-- `Deps.Nonce` is not nil. -/
  nonce : Bool := true

namespace Servers

variable (srv : Servers)

/-- `createWithdrawal`. -/
def createWithdrawal (body : Except Err CreateWithdrawalReq) : Prog Response :=
  match body with
  | .error err => pure (writeError .badRequest err.text)
  | .ok req =>
    match srv.parse req.walletID with
    | .error _ => pure (writeError .badRequest "invalid wallet_id")
    | .ok wid => do
      match ← srv.withdrawals.create ⟨wid, req.toAddress, req.asset, req.amount⟩ with
      | .error err =>
        if err.is .errDuplicateWithdrawal then pure (writeError .conflict err.text)
        else pure (writeError .internalServerError err.text)
      | .ok wr => pure ⟨.created, .withdrawal wr⟩

/-- `getWithdrawal`. -/
def getWithdrawal (id : String) : Prog Response :=
  match srv.parse id with
  | .error err => pure (writeError .badRequest err.text)
  | .ok id => do
    match ← perform (.store (.getWithdrawal id)) with
    | .error err =>
      if err.is .errNoRows then pure (writeError .notFound "withdrawal not found")
      else pure (writeError .internalServerError err.text)
    | .ok wr => pure ⟨.ok, .withdrawal wr⟩

/-- The filter for a wallet in a query, where no text means no filter. -/
def parseFilter (walletID : String) : Except Err UUID :=
  if walletID ≠ "" then srv.parse walletID else .ok .nil

/-- `listWithdrawals`, for the `wallet_id` and the `state` of the query. -/
def listWithdrawals (walletID state : String) : Prog Response :=
  match srv.parseFilter walletID with
  | .error _ => pure (writeError .badRequest "invalid wallet_id")
  | .ok walletID => do
    match ← perform (.listWithdrawals walletID state) with
    | .error err => pure (writeError .internalServerError err.text)
    | .ok wrs => pure ⟨.ok, .withdrawals wrs⟩

/-- `allocateNonce`. The body has the name of a chain. -/
def allocateNonce (id : String) (body : Except Err String) : Prog Response :=
  match srv.parse id with
  | .error err => pure (writeError .badRequest err.text)
  | .ok id =>
    if srv.nonce = false then
      pure (writeError .serviceUnavailable "nonce service unavailable")
    else
      match body with
      | .error err => pure (writeError .badRequest err.text)
      | .ok chain =>
        if chain = "" then pure (writeError .badRequest "chain is required")
        else do
          match ← reserveNonce id ⟨chain⟩ with
          | .error err => pure (writeError .internalServerError err.text)
          | .ok n => pure ⟨.ok, .nonce n⟩

end Servers

/-- The requests for withdrawals and nonces, and the reports of the gateway. -/
inductive ServedRequest where
  | createWithdrawal (body : Except Err CreateWithdrawalReq)
  | getWithdrawal (id : String)
  | listWithdrawals (walletID state : String)
  | allocateNonce (id : String) (body : Except Err String)
  | onConfirmation (req : OnConfirmationRequest)
  | onReorg (req : OnReorgRequest)

/-- The answers of the two servers. -/
inductive Reply where
  | rest (response : Response)
  | grpc (answer : Except Status Unit)
  deriving DecidableEq

/-- The handler of a request. -/
def Servers.handle (srv : Servers) : ServedRequest → Prog Reply
  | .createWithdrawal body => do pure (.rest (← srv.createWithdrawal body))
  | .getWithdrawal id => do pure (.rest (← srv.getWithdrawal id))
  | .listWithdrawals walletID state => do pure (.rest (← srv.listWithdrawals walletID state))
  | .allocateNonce id body => do pure (.rest (← srv.allocateNonce id body))
  | .onConfirmation req => do pure (.grpc (← srv.onConfirmationHandler req))
  | .onReorg req => do pure (.grpc (← srv.onReorgHandler req))

/-! ## Nothing is signed -/

/-- The states that `Create` leaves a withdrawal in. -/
def WithdrawalState.early : WithdrawalState → Bool
  | .pending | .whitelisted | .failed => true
  | .signed | .broadcast | .confirmed => false

/-- The call asks the signer or the gateway. -/
def Op.signs : Op → Bool
  | .sign _ | .broadcastTx _ => true
  | _ => false

/-- The call takes no withdrawal further than `Create` does. -/
def Op.Serves : Op → Prop
  | .sign _ | .broadcastTx _ => False
  | .store (.createWithdrawal wr) => wr.state.early = true
  | .store (.updateWithdrawalState _ state _ _ _) => state.early = true
  | _ => True

/-- No withdrawal of the store is further than `Create` leaves it. -/
def Store.Early (s : Store) : Prop := ∀ wr ∈ s.withdrawals.rows, wr.state.early = true

/-- Nothing has been signed or sent. -/
structure Unsigned {L : Type} (w : World L) : Prop where
  store : w.store.Early
  snapshot : ∀ s, w.snapshot = some s → s.Early
  log : ∀ entry ∈ w.log, entry.op.signs = false

section Steps

variable {L : Type} {caller : L} {w w' : World L}

/-- A method that takes no withdrawal further leaves all of them early. -/
theorem Store.Early.exec {s : Store} (early : s.Early) {op : StoreOp}
    (serves : (Op.store op).Serves) (now : Int) : (op.exec now s).2.Early := by
  -- an update of one row that keeps its state, or sets an early one
  have update {id : UUID} {change : WithdrawalRequest → WithdrawalRequest}
      (keeps : ∀ wr, wr.state.early = true → (change wr).state.early = true) :
      (s.updateWithdrawal id change).2.Early := by
    intro row member
    rcases Store.mem_updateWithdrawal member with old | ⟨wr, old, -, rfl⟩
    · exact early row old
    · exact keeps wr (early wr old)
  cases op with
  | createWithdrawal wr =>
    rcases s.createWithdrawal_cases wr with ⟨-, same⟩ | ⟨-, -, same⟩
    · show (s.createWithdrawal wr).2.Early
      rw [same]
      exact early
    · show (s.createWithdrawal wr).2.Early
      rw [same]
      intro row member
      rcases Table.mem_put.mp member with rfl | ⟨old, -⟩
      · exact serves
      · exact early row old
  | updateWithdrawalState id state reason txHash decision =>
    have changed : (s.updateWithdrawal id (Store.setState state reason txHash decision)).2.Early :=
      update fun _ _ => serves
    intro row member
    have member := (Store.updateWithdrawalState_withdrawals ..) ▸ member
    exact changed row member
  | updateWithdrawalNonce id n => exact update fun _ same => same
  | updateWithdrawalOutpoints id ops => exact update fun _ same => same
  | updateWithdrawalSignedTx id bytes => exact update fun _ same => same
  | _ =>
    intro row member
    refine early row ?_
    simpa [StoreOp.exec, Store.upsertBalance] using member

/-- A rollback goes back to a store that was early. -/
theorem Unsigned.rollbackTx (unsigned : Unsigned w) : Unsigned w.rollbackTx := by
  constructor
  · unfold World.rollbackTx
    dsimp only
    split
    · cases kept : w.snapshot with
      | none => exact unsigned.store
      | some s => exact unsigned.snapshot s kept
    · exact unsigned.store
  · intro s kept
    unfold World.rollbackTx at kept
    dsimp only at kept
    split at kept
    · cases kept
    · exact unsigned.snapshot s kept
  · exact unsigned.log

/-- A call that takes no withdrawal further, made over a store that may fail. -/
theorem Unsigned.step {op : Op} {answer : op.Ans} {mayFail : Op → Prop} (unsigned : Unsigned w)
    (serves : op.Serves) (moved : faulty mayFail caller op w answer w') : Unsigned w' := by
  have recorded : Unsigned (w.record caller op answer) := by
    refine ⟨unsigned.store, unsigned.snapshot, fun entry member => ?_⟩
    rcases List.mem_cons.mp member with rfl | old
    · cases op with
      | sign _ | broadcastTx _ => exact serves.elim
      | _ => rfl
    · exact unsigned.log entry old
  rcases moved with done | ⟨-, failed⟩
  · cases op with
    | store op =>
      obtain ⟨now, -, rfl⟩ := done
      exact ⟨recorded.store.exec serves now, recorded.snapshot, recorded.log⟩
    | begin =>
      obtain ⟨-, rfl⟩ := done
      refine ⟨recorded.store, fun s kept => ?_, recorded.log⟩
      unfold World.beginTx at kept
      dsimp only at kept
      split at kept
      · cases kept
        exact recorded.store
      · exact recorded.snapshot s kept
    | commit =>
      obtain ⟨-, rfl⟩ := done
      refine ⟨recorded.store, fun s kept => ?_, recorded.log⟩
      unfold World.commitTx at kept
      dsimp only at kept
      split at kept
      · cases kept
      · exact recorded.snapshot s kept
    | rollback =>
      rw [show w' = _ from done]
      exact recorded.rollbackTx
    | listWithdrawals walletID state =>
      rw [done.2]
      exact recorded
    | _ =>
      rw [show w' = _ from done]
      exact recorded
  · cases op with
    | store _ | begin | listWithdrawals _ _ =>
      rw [failed.2]
      exact recorded
    | commit =>
      rw [failed.2]
      exact recorded.rollbackTx
    | _ => exact failed.elim

end Steps

section Programs

variable {L : Type} {caller : L} {mayFail : Op → Prop} {α β : Type}

/-- Programs under which nothing is signed, whatever other requests do meanwhile. -/
abbrev Serving (mayFail : Op → Prop) (caller : L) (post : α → Prop) (program : Prog α) : Prop :=
  program.Steady (faulty mayFail caller) Unsigned post

/-- A program whose calls take no withdrawal further. -/
theorem serving_of_calls {program : Prog α} (calls : program.Calls Op.Serves) :
    Serving mayFail caller (fun _ => True) program :=
  .of_calls calls (fun _ _ _ _ serves unsigned moved => unsigned.step serves moved) fun _ => trivial

/-- A program whose value is used without a further call. -/
theorem serving_map {program : Prog α} {change : α → Prog β} {post : β → Prop}
    (serving : Serving mayFail caller (fun _ => True) program)
    (returns : ∀ value, ∃ result, change value = .done result ∧ post result) :
    Serving mayFail caller post (program >>= change) := by
  refine serving.bind fun value _ => ?_
  obtain ⟨result, same, holds⟩ := returns value
  rw [same]
  exact holds

/-- A call that takes no withdrawal further, and what follows it. -/
theorem serving_ask {op : Op} {next : op.Ans → Prog α} {post : α → Prop} (serves : op.Serves)
    (rest : ∀ w answer w', Unsigned w → faulty mayFail caller op w answer w' →
      Serving mayFail caller post (next answer)) :
    Serving mayFail caller post (perform op >>= next) :=
  .perform_bind fun w answer w' unsigned moved =>
    ⟨unsigned.step serves moved, rest w answer w' unsigned moved⟩

/-- A conditional call. -/
theorem runIf_serves {op : Op} (condition : Bool) (serves : op.Serves) :
    (runIf condition (perform op)).Calls Op.Serves :=
  runIf_calls condition ⟨serves, fun _ => trivial⟩

/-- `Create` leaves its withdrawal early. -/
theorem create_serves (svc : Service) (req : CreateRequest) :
    (svc.create req).Calls Op.Serves := by
  refine (Program.calls_perform_bind ..).mpr ⟨trivial, fun answer => ?_⟩
  cases answer with
  | error err => trivial
  | ok wallet =>
    dsimp only
    split
    · trivial
    · split
      · trivial
      · refine ⟨trivial, fun id => ⟨rfl, fun answer => ?_⟩⟩
        cases answer with
        | error err => trivial
        | ok _ =>
          refine (runIf_serves _ (by trivial)).bind fun _ => ⟨trivial, fun answer => ?_⟩
          refine (runIf_serves _ (by trivial)).bind fun _ => ?_
          cases Service.approval answer with
          | none => exact ⟨rfl, fun _ => trivial⟩
          | some dec =>
            refine ⟨rfl, fun answer => ?_⟩
            cases answer <;> trivial

/-- `ReserveNonce` reaches no withdrawal. -/
theorem reserveNonce_serves (walletID : UUID) (chain : Chain) :
    (reserveNonce walletID chain).Calls Op.Serves := by
  have loop (lockName : String) (tries : Nat) :
      (reserveLoop walletID chain lockName tries).Calls Op.Serves := by
    induction tries with
    | zero => trivial
    | succ tries ih =>
      refine (Program.calls_perform_bind ..).mpr ⟨trivial, fun answer => ?_⟩
      cases answer with
      | error err => trivial
      | ok granted =>
        obtain ⟨token, ok⟩ := granted
        cases ok with
        | false => exact ih
        | true =>
          refine ⟨trivial, fun answer => ⟨trivial, fun _ => ?_⟩⟩
          cases answer <;> trivial
  exact loop _ 50

/-- A transaction around such calls. -/
theorem inTx_serves {fn : Prog (Except Err α)} (calls : fn.Calls Op.Serves) :
    (inTx fn).Calls Op.Serves := by
  refine (Program.calls_perform_bind ..).mpr ⟨trivial, fun answer => ?_⟩
  cases answer with
  | error err => trivial
  | ok _ =>
    refine calls.bind fun result => ?_
    cases result with
    | error err => exact ⟨trivial, fun _ => trivial⟩
    | ok value =>
      refine (Program.calls_perform_bind ..).mpr ⟨trivial, fun answer => ?_⟩
      cases answer <;> trivial

theorem applyConfirmationEvent_serves (svc : BalanceService) (ev : ConfirmationEvent) :
    (svc.applyConfirmationEvent ev).Calls Op.Serves := by
  have credit (cur : Balance) : (svc.credit ev cur).Calls Op.Serves := by
    refine (Program.calls_perform_bind ..).mpr ⟨trivial, fun answer => ?_⟩
    cases answer with
    | error err => trivial
    | ok _ => exact (runIf_serves _ (by trivial)).bind fun _ => trivial
  have creditTx : (svc.creditTx ev).Calls Op.Serves := by
    refine (Program.calls_perform_bind ..).mpr ⟨trivial, fun answer => ?_⟩
    cases answer with
    | ok cur => exact credit cur
    | error err =>
      dsimp only
      split
      · exact credit _
      · trivial
  refine (Program.calls_perform_bind ..).mpr ⟨trivial, fun _ => ?_⟩
  refine (Program.calls_perform_bind ..).mpr ⟨trivial, fun answer => ?_⟩
  cases answer with
  | error err =>
    dsimp only
    split <;> trivial
  | ok _ =>
    refine (inTx_serves creditTx).bind fun result => ?_
    cases result with
    | error err => trivial
    | ok _ => exact (runIf_serves _ (by trivial)).bind fun _ => trivial

theorem applyReorgEvent_serves (svc : BalanceService) (ev : ReorgEvent) :
    (svc.applyReorgEvent ev).Calls Op.Serves := by
  have demoteTx : (svc.demoteTx ev).Calls Op.Serves := by
    refine (Program.calls_perform_bind ..).mpr ⟨trivial, fun answer => ?_⟩
    cases answer with
    | ok cur => exact ⟨trivial, fun _ => trivial⟩
    | error err =>
      dsimp only
      split <;> trivial
  have restore : (svc.restoreReorged ev).Calls Op.Serves := by
    unfold BalanceService.restoreReorged
    split
    · refine (Program.calls_perform_bind ..).mpr ⟨trivial, fun answer => ?_⟩
      cases answer <;> trivial
    · trivial
  refine (inTx_serves demoteTx).bind fun result => ?_
  cases result with
  | error err => trivial
  | ok _ =>
    refine restore.bind fun result => ?_
    cases result with
    | error err => trivial
    | ok _ => exact (runIf_serves _ (by trivial)).bind fun _ => trivial

/-- A withdrawal that is found is early. -/
theorem early_of_found {w w' : World L} {id : UUID} {wr : WithdrawalRequest}
    (unsigned : Unsigned w)
    (moved : faulty mayFail caller (.store (.getWithdrawal id)) w (.ok wr) w') :
    wr.state.early = true := by
  rcases moved with done | ⟨-, ⟨err, failed, -⟩, -⟩
  · obtain ⟨_, answered, -⟩ := store_of_step done
    have found : w.store.withdrawals.get id = some wr := Store.found_eq_ok.mp answered.symm
    exact unsigned.store wr (Table.mem_of_get found)
  · cases failed

/-- A withdrawal that is early cannot be confirmed. -/
theorem confirm_serving (svc : Service) (id : UUID) (txHash : String) :
    Serving mayFail caller (fun result => ∃ err, result = .error err) (svc.confirm id txHash) := by
  refine serving_ask trivial fun w answer w' unsigned moved => ?_
  cases answer with
  | error err => exact ⟨err, rfl⟩
  | ok wr =>
    have early := early_of_found unsigned moved
    have other : wr.state ≠ .broadcast := by
      intro same
      rw [same] at early
      cases early
    dsimp only
    rw [if_pos other]
    exact ⟨_, rfl⟩

/-- No withdrawal is demoted. -/
theorem onReorg_serving (id : UUID) (outpoints : List String) :
    Serving mayFail caller (fun _ => True) (Service.onReorg id outpoints) := by
  refine serving_ask trivial fun w answer w' unsigned moved => ?_
  cases answer with
  | error err => trivial
  | ok wr =>
    have early := early_of_found unsigned moved
    have other : wr.state ≠ .confirmed := by
      intro same
      rw [same] at early
      cases early
    refine serving_ask trivial fun _ answer _ _ _ => ?_
    cases answer with
    | error err => trivial
    | ok _ =>
      dsimp only
      rw [if_neg other]
      trivial

/-- The request is about the confirmation of a withdrawal. -/
def ServedRequest.confirms : ServedRequest → Bool
  | .onConfirmation req => req.withdrawalID ≠ ""
  | _ => false

/-- The answer is an error. -/
def Reply.failed : Reply → Bool
  | .rest response => response.status ≠ .ok && response.status ≠ .created
  | .grpc (.error _) => true
  | .grpc (.ok _) => false

theorem createWithdrawal_serving (srv : Servers) (body : Except Err CreateWithdrawalReq) :
    Serving mayFail caller (fun _ => True) (srv.createWithdrawal body) := by
  unfold Servers.createWithdrawal
  cases body with
  | error err => trivial
  | ok req =>
    dsimp only
    cases srv.parse req.walletID with
    | error err => trivial
    | ok wid =>
      refine (serving_of_calls (create_serves srv.withdrawals _)).bind fun result _ => ?_
      cases result with
      | ok wr => trivial
      | error err =>
        dsimp only
        split <;> trivial

theorem getWithdrawal_serving (srv : Servers) (id : String) :
    Serving mayFail caller (fun _ => True) (srv.getWithdrawal id) := by
  unfold Servers.getWithdrawal
  cases srv.parse id with
  | error err => trivial
  | ok id =>
    refine serving_ask trivial fun _ answer _ _ _ => ?_
    cases answer with
    | ok wr => trivial
    | error err =>
      dsimp only
      split <;> trivial

theorem listWithdrawals_serving (srv : Servers) (walletID state : String) :
    Serving mayFail caller (fun _ => True) (srv.listWithdrawals walletID state) := by
  unfold Servers.listWithdrawals
  cases srv.parseFilter walletID with
  | error err => trivial
  | ok walletID =>
    refine serving_ask trivial fun _ answer _ _ _ => ?_
    cases answer <;> trivial

theorem allocateNonce_serving (srv : Servers) (id : String) (body : Except Err String) :
    Serving mayFail caller (fun _ => True) (srv.allocateNonce id body) := by
  unfold Servers.allocateNonce
  cases srv.parse id with
  | error err => trivial
  | ok id =>
    dsimp only
    split
    · trivial
    · cases body with
      | error err => trivial
      | ok chain =>
        dsimp only
        split
        · trivial
        · refine (serving_of_calls (reserveNonce_serves id ⟨chain⟩)).bind fun result _ => ?_
          cases result <;> trivial

/-- A report that names a withdrawal is answered with an error. -/
theorem onConfirmationHandler_serving (srv : Servers) (req : OnConfirmationRequest) :
    Serving mayFail caller
      (fun result => req.withdrawalID ≠ "" → ∃ status, result = .error status)
      (srv.onConfirmationHandler req) := by
  unfold WalletServer.onConfirmationHandler
  split
  · cases srv.parse req.withdrawalID with
    | error err => exact fun _ => ⟨_, rfl⟩
    | ok wid =>
      refine (confirm_serving srv.withdrawals wid req.txHash).bind fun result failed => ?_
      obtain ⟨err, rfl⟩ := failed
      exact fun _ => ⟨_, rfl⟩
  · rename_i none
    split
    · cases srv.parse req.walletID with
      | error err => exact fun some => absurd some none
      | ok wid =>
        refine (serving_of_calls (applyConfirmationEvent_serves srv.balances _)).bind
          fun result _ => ?_
        cases result with
        | error err => exact fun some => absurd some none
        | ok _ => exact fun some => absurd some none
    · exact fun some => absurd some none

theorem onReorgHandler_serving (srv : Servers) (req : OnReorgRequest) :
    Serving mayFail caller (fun _ => True) (srv.onReorgHandler req) := by
  have wallet : Serving mayFail caller (fun _ => True) (srv.reorgWallet req) := by
    unfold WalletServer.reorgWallet
    split
    · cases srv.parse req.walletID with
      | error err => trivial
      | ok wid =>
        refine (serving_of_calls (applyReorgEvent_serves srv.balances _)).bind fun result _ => ?_
        cases result <;> trivial
    · trivial
  unfold WalletServer.onReorgHandler
  split
  · cases srv.parse req.withdrawalID with
    | error err => trivial
    | ok wid =>
      refine (onReorg_serving wid req.outpoints).bind fun result _ => ?_
      cases result with
      | error err => trivial
      | ok _ => exact wallet
  · exact wallet

/-- Under every handler nothing is signed, and no withdrawal is confirmed. -/
theorem handle_serving (srv : Servers) (request : ServedRequest) :
    Serving mayFail caller (fun reply => request.confirms = true → reply.failed = true)
      (srv.handle request) := by
  cases request with
  | createWithdrawal body =>
    exact serving_map (createWithdrawal_serving srv body) fun _ =>
      ⟨_, rfl, fun none => by cases none⟩
  | getWithdrawal id =>
    exact serving_map (getWithdrawal_serving srv id) fun _ =>
      ⟨_, rfl, fun none => by cases none⟩
  | listWithdrawals walletID state =>
    exact serving_map (listWithdrawals_serving srv walletID state) fun _ =>
      ⟨_, rfl, fun none => by cases none⟩
  | allocateNonce id body =>
    exact serving_map (allocateNonce_serving srv id body) fun _ =>
      ⟨_, rfl, fun none => by cases none⟩
  | onConfirmation req =>
    refine (onConfirmationHandler_serving srv req).bind fun result failed => ?_
    intro confirms
    obtain ⟨status, rfl⟩ := failed (of_decide_eq_true confirms)
    rfl
  | onReorg req =>
    exact serving_map (onReorgHandler_serving srv req) fun _ =>
      ⟨_, rfl, fun none => by cases none⟩

end Programs

/-! ### Worked requests -/

/-- Servers over the sample service. The identifiers are two fixed texts. -/
def sampleServers : Servers where
  withdrawals := sampleService
  balances := sampleLedger
  parse text :=
    if text = "wallet" then .ok sampleEVMWallet.id
    else if text = "withdrawal" then .ok (sampleID 10)
    else .error ⟨"invalid UUID length", none⟩

/-- A request for one wei. -/
def sampleCreate : ServedRequest := .createWithdrawal (.ok ⟨"wallet", sampleEVMAddress, "ETH", "1"⟩)

/-- A callback that confirms the withdrawal. -/
def sampleConfirmation : ServedRequest :=
  .onConfirmation { sampleCallback "ETH" with txHash := "0x01", withdrawalID := "withdrawal" }

/-- The withdrawal is requested, and the gateway confirms it. -/
def requestAndConfirm (i : Fin 2) : ServedRequest :=
  if i = firstCaller then sampleCreate else sampleConfirmation

/-- The two requests before they begin. -/
def sampleServing : Crew calls (World (Fin 2)) (Fin 2) Reply :=
  Crew.start (fun i => sampleServers.handle (requestAndConfirm i)) { store := sampleStart.store }

/-- The confirmation arrives while the withdrawal is being checked. -/
def sampleServed : Crew calls (World (Fin 2)) (Fin 2) Reply :=
  sampleServing.play (scripted (([firstCaller, firstCaller, firstCaller] ++
    List.replicate 2 secondCaller ++ List.replicate 8 firstCaller).map fun i => (i, accepting 10)))

/-- However requests for withdrawals and nonces and the reports of the gateway interleave, over a
store that may fail any of its calls, the signer and the gateway are not called, no withdrawal is
signed, broadcast or confirmed, and every callback that reports the confirmation of a withdrawal is
answered with an error. -/
theorem served_withdrawals_never_signed {ι : Type} [DecidableEq ι] (srv : Servers)
    (mayFail : Op → Prop) (requests : ι → ServedRequest)
    {admits : Crew.Guard calls (World ι) ι Reply}
    {w : World ι} {crew : Crew calls (World ι) ι Reply} (unsigned : Unsigned w)
    (reachable : Crew.Reachable (faulty mayFail) admits
      (Crew.start (fun i => srv.handle (requests i)) w) crew) :
    Unsigned crew.state ∧ ∀ i reply, crew.Returned i reply → (requests i).confirms = true →
      reply.failed = true :=
  Crew.Reachable.steady (fun i => handle_serving srv (requests i)) unsigned reachable

/-- The withdrawal is approved, and its confirmation refused. -/
theorem served_withdrawals_never_signed_approved :
    sampleServed.state.store.stateOf (sampleID 10) = some .whitelisted ∧
      sampleServed.Finished firstCaller ∧
      ∃ reply, sampleServed.Returned secondCaller reply ∧ reply.failed = true := by
  have reachable : Crew.Reachable (faulty fun _ => False) (fun _ _ _ => True) sampleServing
      sampleServed := by
    refine Crew.reachable_play (fun next member op w => ?_) (Crew.admitsAll_of_true _ _)
    obtain ⟨turn, -, rfl⟩ := List.mem_map.mp member
    exact .inl (turn.2.handle_follows turn.1 op w)
  have unsigned : Unsigned (World.mk (L := Fin 2) sampleStart.store none 0 []) := by
    refine ⟨fun wr member => ?_, fun s kept => ?_, fun entry member => ?_⟩
    · cases member
    · cases kept
    · cases member
  have finished : sampleServed.Finished secondCaller := by decide +kernel
  obtain ⟨-, failed⟩ := served_withdrawals_never_signed sampleServers (fun _ => False)
    requestAndConfirm unsigned reachable
  refine ⟨by decide +kernel, by decide +kernel, ?_⟩
  unfold Crew.Finished at finished
  cases rest : sampleServed.rest secondCaller with
  | done reply => exact ⟨reply, rest, failed _ _ rest rfl⟩
  | call op next =>
    rw [rest] at finished
    cases finished

/-! ## Refused requests -/

/-- The answer blames the request. -/
def Reply.refused : Reply → Bool
  | .rest ⟨.badRequest, _⟩ | .rest ⟨.notFound, _⟩ | .rest ⟨.conflict, _⟩
  | .rest ⟨.serviceUnavailable, _⟩ => true
  | .grpc (.error ⟨.invalidArgument, _⟩) => true
  | _ => false

section Refused

variable {L : Type} {caller : L} {mayFail : Op → Prop} {w w' : World L}

/-- A method of the store that fails, or only reads, leaves it as it is. -/
theorem store_of_faulty {op : StoreOp} {answer : (Op.store op).Ans}
    (moved : faulty mayFail caller (.store op) w answer w')
    (reads : ∀ now, answer = (op.exec now w.store).1 → (op.exec now w.store).2 = w.store) :
    w'.store = w.store := by
  rcases moved with done | ⟨-, failed⟩
  · obtain ⟨now, answered, stored⟩ := store_of_step done
    exact stored.trans (reads now answered)
  · rw [failed.2]
    rfl

/-- `UpdateWithdrawalState` does not return `ErrDuplicateWithdrawal`. -/
theorem updateWithdrawalState_not_duplicate {id : UUID} {state : WithdrawalState}
    {reason txHash decision : String} {err : Err}
    (moved : faulty mayFail caller (.store (.updateWithdrawalState id state reason txHash decision))
      w (.error err) w') : err.is .errDuplicateWithdrawal = false := by
  rcases moved with done | ⟨-, ⟨err', same, plain⟩, -⟩
  · obtain ⟨_, answered, -⟩ := store_of_step done
    change Except.error err =
      (w.store.updateWithdrawalState id state reason txHash decision).1 at answered
    unfold Store.updateWithdrawalState at answered
    split at answered
    · cases answered
      decide
    · cases answered
  · cases same
    simp [Err.is, plain]

/-- Nothing is said about an execution. -/
theorem wlp_anything {α : Type} (program : Prog α) (w : World L) :
    program.Wlp (faulty mayFail caller) (fun _ _ => True) w :=
  (Program.wlp_iff_exec ..).mpr fun _ _ _ => trivial

/-- `Create` returns `ErrDuplicateWithdrawal` only if it has stored nothing. -/
theorem create_duplicate (svc : Service) (req : CreateRequest) :
    (svc.create req).Wlp (faulty mayFail caller) (fun result w' => ∀ err, result = .error err →
      err.is .errDuplicateWithdrawal = true → w'.store = w.store) w := by
  refine Program.Wlp.perform_bind fun answer w₁ moved => ?_
  have first : w₁.store = w.store := store_of_faulty moved fun _ _ => rfl
  cases answer with
  | error err => exact fun _ _ _ => first
  | ok wallet =>
    dsimp only
    split
    · exact fun _ _ _ => first
    · split
      · exact fun _ _ _ => first
      · refine Program.Wlp.perform_bind fun id w₂ moved => ?_
        have second : w₂.store = w.store := by
          rcases moved with rfl | ⟨-, failed⟩
          · exact first
          · exact failed.elim
        refine Program.Wlp.perform_bind fun answer w₃ moved => ?_
        cases answer with
        | error err =>
          refine fun _ _ _ => (store_of_faulty moved fun _ refused => ?_).trans second
          rcases w₂.store.createWithdrawal_cases (req.withdrawal id) with
            ⟨-, same⟩ | ⟨stored, -⟩
          · exact same
          · cases refused.trans stored
        | ok _ =>
          refine (wlp_anything _ w₃).bind fun _ w₄ _ => ?_
          refine Program.Wlp.perform_bind fun answer w₅ _ => ?_
          refine (wlp_anything _ w₅).bind fun _ w₆ _ => ?_
          cases Service.approval answer with
          | none =>
            refine Program.Wlp.perform_bind fun _ w₇ _ => ?_
            rintro err ⟨⟩
          | some dec =>
            refine Program.Wlp.perform_bind fun answer w₇ moved => ?_
            cases answer with
            | ok _ => rintro err ⟨⟩
            | error err =>
              rintro _ ⟨⟩ duplicate
              rw [updateWithdrawalState_not_duplicate moved] at duplicate
              cases duplicate

/-- A reorganisation of a withdrawal and a wallet whose wallet cannot be read. The withdrawal has
been handled then. -/
def HalfReorg (srv : Servers) (request : ServedRequest) (ran : UUID → List String → Prop) : Prop :=
  ∃ req id err, request = .onReorg req ∧ req.withdrawalID ≠ "" ∧
    srv.parse req.withdrawalID = .ok id ∧ req.walletID ≠ "" ∧
    srv.parse req.walletID = .error err ∧ ran id req.outpoints

/-- A callback that has reached a service is not refused. -/
theorem not_refused_of_service {program : Prog (Except Err Unit)} {context : String}
    {answer : Except Status Unit}
    (execution : (program >>= fun result => match result with
      | .error err => pure (.error ⟨.internal, context ++ err.text⟩)
      | .ok () => pure (.ok ())).Exec (faulty mayFail caller) w answer w') :
    ¬(Reply.grpc answer).refused = true := by
  obtain ⟨result, middle, -, rest⟩ := (Program.exec_bind ..).mp execution
  intro refused
  cases result with
  | error err =>
    obtain ⟨rfl, -⟩ := rest
    cases refused
  | ok _ =>
    obtain ⟨rfl, -⟩ := rest
    cases refused

/-- A callback for a wallet that is refused has not begun. -/
theorem reorgWallet_refused {srv : WalletServer} {req : OnReorgRequest}
    {answer : Except Status Unit}
    (execution : (srv.reorgWallet req).Exec (faulty mayFail caller) w answer w')
    (refused : (Reply.grpc answer).refused = true) :
    w' = w ∧ req.walletID ≠ "" ∧ ∃ err, srv.parse req.walletID = .error err := by
  unfold WalletServer.reorgWallet at execution
  split at execution
  · rename_i named
    cases parsed : srv.parse req.walletID with
    | error err =>
      rw [parsed] at execution
      obtain ⟨-, rfl⟩ := execution
      exact ⟨rfl, named, err, rfl⟩
    | ok wid =>
      rw [parsed] at execution
      exact absurd refused (not_refused_of_service execution)
  · obtain ⟨rfl, -⟩ := execution
    cases refused

/-- A confirmation that is refused has not begun. -/
theorem onConfirmationHandler_refused {srv : WalletServer} {req : OnConfirmationRequest}
    {answer : Except Status Unit}
    (execution : (srv.onConfirmationHandler req).Exec (faulty mayFail caller) w answer w')
    (refused : (Reply.grpc answer).refused = true) : w' = w := by
  unfold WalletServer.onConfirmationHandler at execution
  split at execution
  · cases parsed : srv.parse req.withdrawalID with
    | error err =>
      rw [parsed] at execution
      exact execution.2.symm
    | ok wid =>
      rw [parsed] at execution
      exact absurd refused (not_refused_of_service execution)
  · split at execution
    · cases parsed : srv.parse req.walletID with
      | error err =>
        rw [parsed] at execution
        exact execution.2.symm
      | ok wid =>
        rw [parsed] at execution
        exact absurd refused (not_refused_of_service execution)
    · exact execution.2.symm

/-- A request for a withdrawal that is refused has stored nothing. -/
theorem createWithdrawal_refused {srv : Servers} {body : Except Err CreateWithdrawalReq}
    {response : Response}
    (execution : (srv.createWithdrawal body).Exec (faulty mayFail caller) w response w')
    (refused : (Reply.rest response).refused = true) : w'.store = w.store := by
  unfold Servers.createWithdrawal at execution
  cases body with
  | error err =>
    obtain ⟨-, rfl⟩ := execution
    rfl
  | ok req =>
    dsimp only at execution
    cases parsed : srv.parse req.walletID with
    | error err =>
      rw [parsed] at execution
      obtain ⟨-, rfl⟩ := execution
      rfl
    | ok wid =>
      rw [parsed] at execution
      obtain ⟨result, middle, ran, rest⟩ := (Program.exec_bind ..).mp execution
      cases result with
      | ok wr =>
        obtain ⟨rfl, -⟩ := rest
        cases refused
      | error err =>
        dsimp only at rest
        split at rest
        · rename_i duplicate
          obtain ⟨-, rfl⟩ := rest
          exact (Program.wlp_iff_exec ..).mp (create_duplicate srv.withdrawals _) _ _ ran err rfl
            duplicate
        · obtain ⟨rfl, -⟩ := rest
          cases refused

/-- A lookup leaves the store alone. -/
theorem getWithdrawal_reads {srv : Servers} {id : String} {response : Response}
    (execution : (srv.getWithdrawal id).Exec (faulty mayFail caller) w response w') :
    w'.store = w.store := by
  unfold Servers.getWithdrawal at execution
  cases parsed : srv.parse id with
  | error err =>
    rw [parsed] at execution
    obtain ⟨-, rfl⟩ := execution
    rfl
  | ok id =>
    rw [parsed] at execution
    obtain ⟨answer, middle, moved, rest⟩ := Program.exec_perform_bind.mp execution
    have same : middle.store = w.store := store_of_faulty moved fun _ _ => rfl
    cases answer with
    | ok wr =>
      obtain ⟨-, rfl⟩ := rest
      exact same
    | error err =>
      dsimp only at rest
      split at rest
      · obtain ⟨-, rfl⟩ := rest
        exact same
      · obtain ⟨-, rfl⟩ := rest
        exact same

/-- A list leaves the store alone. -/
theorem listWithdrawals_reads {srv : Servers} {walletID state : String} {response : Response}
    (execution : (srv.listWithdrawals walletID state).Exec (faulty mayFail caller) w response w') :
    w'.store = w.store := by
  unfold Servers.listWithdrawals at execution
  cases parsed : srv.parseFilter walletID with
  | error err =>
    rw [parsed] at execution
    obtain ⟨-, rfl⟩ := execution
    rfl
  | ok walletID =>
    rw [parsed] at execution
    obtain ⟨answer, middle, moved, rest⟩ := Program.exec_perform_bind.mp execution
    have same : middle.store = w.store := by
      rcases moved with ⟨-, rfl⟩ | ⟨-, -, rfl⟩
      · rfl
      · rfl
    cases answer with
    | ok wrs =>
      obtain ⟨-, rfl⟩ := rest
      exact same
    | error err =>
      obtain ⟨-, rfl⟩ := rest
      exact same

/-- A request for a nonce that is refused has not begun. -/
theorem allocateNonce_refused {srv : Servers} {id : String} {body : Except Err String}
    {response : Response}
    (execution : (srv.allocateNonce id body).Exec (faulty mayFail caller) w response w')
    (refused : (Reply.rest response).refused = true) : w' = w := by
  unfold Servers.allocateNonce at execution
  cases parsed : srv.parse id with
  | error err =>
    rw [parsed] at execution
    exact execution.2.symm
  | ok id =>
    rw [parsed] at execution
    dsimp only at execution
    split at execution
    · exact execution.2.symm
    · cases body with
      | error err => exact execution.2.symm
      | ok chain =>
        dsimp only at execution
        split at execution
        · exact execution.2.symm
        · obtain ⟨result, middle, -, rest⟩ := (Program.exec_bind ..).mp execution
          cases result with
          | error err =>
            obtain ⟨rfl, -⟩ := rest
            cases refused
          | ok n =>
            obtain ⟨rfl, -⟩ := rest
            cases refused

end Refused

/-- A request for withdrawals or nonces or a report of the gateway that is refused as malformed,
unknown, a duplicate or unavailable has left the store as it was, over a store that may fail any of
its calls. There is one exception: a reorganisation that names a withdrawal and a wallet that cannot
be read is refused after its withdrawal has been handled. -/
theorem refused_requests_change_nothing {L : Type} (srv : Servers)
    (mayFail : Op → Prop) (caller : L) (request : ServedRequest) {w w' : World L} {reply : Reply}
    (execution : (srv.handle request).Exec (faulty mayFail caller) w reply w')
    (refused : reply.refused = true) :
    w'.store = w.store ∨ HalfReorg srv request fun id outpoints =>
      (Service.onReorg id outpoints).Exec (faulty mayFail caller) w (.ok ()) w' := by
  cases request with
  | createWithdrawal body =>
    obtain ⟨response, _, ran, rfl, rfl⟩ := (Program.exec_bind ..).mp execution
    exact .inl (createWithdrawal_refused ran refused)
  | getWithdrawal id =>
    obtain ⟨response, _, ran, rfl, rfl⟩ := (Program.exec_bind ..).mp execution
    exact .inl (getWithdrawal_reads ran)
  | listWithdrawals walletID state =>
    obtain ⟨response, _, ran, rfl, rfl⟩ := (Program.exec_bind ..).mp execution
    exact .inl (listWithdrawals_reads ran)
  | allocateNonce id body =>
    obtain ⟨response, _, ran, rfl, rfl⟩ := (Program.exec_bind ..).mp execution
    rw [allocateNonce_refused ran refused]
    exact .inl rfl
  | onConfirmation req =>
    obtain ⟨answer, _, ran, rfl, rfl⟩ := (Program.exec_bind ..).mp execution
    rw [onConfirmationHandler_refused ran refused]
    exact .inl rfl
  | onReorg req =>
    obtain ⟨answer, _, ran, rfl, rfl⟩ := (Program.exec_bind ..).mp execution
    unfold WalletServer.onReorgHandler at ran
    split at ran
    · rename_i named
      cases parsed : srv.parse req.withdrawalID with
      | error err =>
        rw [parsed] at ran
        obtain ⟨-, rfl⟩ := ran
        exact .inl rfl
      | ok id =>
        rw [parsed] at ran
        obtain ⟨result, middle, demoted, rest⟩ := (Program.exec_bind ..).mp ran
        cases result with
        | error err =>
          obtain ⟨rfl, -⟩ := rest
          cases refused
        | ok _ =>
          obtain ⟨rfl, wallet, err, unread⟩ := reorgWallet_refused rest refused
          exact .inr ⟨req, id, err, rfl, named, parsed, wallet, unread, demoted⟩
    · rw [(reorgWallet_refused ran refused).1]
      exact .inl rfl

/-- The request for one wei is made twice. -/
def sampleTwice : Reply × World Unit :=
  (sampleServers.handle sampleCreate).run ((accepting 11).handle ())
    ((sampleServers.handle sampleCreate).run ((accepting 10).handle ()) beforeCallbacks).2

/-- The second request is a duplicate, and the store is as the first one has left it. -/
theorem refused_requests_change_nothing_twice :
    sampleTwice.1 = .rest (writeError .conflict
        "create withdrawal: duplicate in-flight withdrawal") ∧
      sampleTwice.2.store = ((sampleServers.handle sampleCreate).run ((accepting 10).handle ())
        beforeCallbacks).2.store := by
  have duplicate : sampleTwice.1 = .rest (writeError .conflict
      "create withdrawal: duplicate in-flight withdrawal") := by decide +kernel
  have execution : (sampleServers.handle sampleCreate).Exec (faulty (fun _ => False) ())
      ((sampleServers.handle sampleCreate).run ((accepting 10).handle ()) beforeCallbacks).2
      sampleTwice.1 sampleTwice.2 :=
    Program.exec_run (fun op w => .inl ((accepting 11).handle_follows () op w)) _ _
  refine ⟨duplicate, ?_⟩
  rcases refused_requests_change_nothing sampleServers (fun _ => False) () sampleCreate execution
    (congrArg Reply.refused duplicate) with same | ⟨req, id, err, same, -⟩
  · exact same
  · cases same

end WalletManagement
