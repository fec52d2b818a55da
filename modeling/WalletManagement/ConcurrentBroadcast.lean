import WalletManagement.Interaction.Crew
import WalletManagement.NonceSafety
import WalletManagement.SagaCalls
import WalletManagement.UTXOSafety

/-!
# Concurrent broadcasts of one withdrawal

`Broadcast` checks once that the withdrawal is signed, and then submits it and does one of two
things: after an accepted submission it spends the outpoints, commits the nonce and stores
`BROADCAST`; after a rejected one it frees the outpoints, rolls the nonce back and stores `FAILED`.
Calls that pass the check together do both, and the last write wins. The two agree where the
gateway rejects nothing after it accepted a submission, and where the rejected calls were over by
then and left the nonce alone.
-/

namespace WalletManagement

open Interaction Data

/-- The outpoints of a withdrawal are known to the store, and belong to a Bitcoin wallet. -/
structure OutpointsKnown (s : Store) (wr : WithdrawalRequest) : Prop where
  present : ∀ op ∈ wr.reservedOutpoints, (s.lockState op).isSome
  bitcoin : wr.reservedOutpoints ≠ [] → ∀ wallet, s.wallets.get wr.walletID = some wallet →
    wallet.chain = .bitcoin

/-! ## Outpoints of withdrawals are known -/

section Known

variable {svc : Service} {s s' : Store} {wr row : WithdrawalRequest}

/-- Every withdrawal has outpoints that are known. -/
def AllKnown (s : Store) : Prop :=
  ∀ id wr, s.withdrawals.get id = some wr → OutpointsKnown s wr

/-- Writing one row, whose outpoints are known, and removing no output. -/
theorem AllKnown.write (known : AllKnown s) (wallets : s'.wallets = s.wallets)
    (withdrawals : s'.withdrawals = s.withdrawals.put row)
    (there : ∀ op, (s.lockState op).isSome → (s'.lockState op).isSome)
    (own : OutpointsKnown s' row) : AllKnown s' := by
  intro id wr found
  rw [withdrawals] at found
  rcases Table.get_put_cases found with ⟨-, rfl⟩ | ⟨-, found⟩
  · exact own
  · obtain ⟨present, bitcoin⟩ := known id wr found
    exact ⟨fun op member => there op (present op member), by rwa [wallets]⟩

/-- Writing a row with the outpoints of the old one. -/
theorem AllKnown.rewrite {id : UUID} (known : AllKnown s)
    (found : s.withdrawals.get id = some wr) (wallets : s'.wallets = s.wallets)
    (withdrawals : s'.withdrawals = s.withdrawals.put row)
    (same : row.walletID = wr.walletID ∧ row.reservedOutpoints = wr.reservedOutpoints)
    (there : ∀ op, (s.lockState op).isSome → (s'.lockState op).isSome) : AllKnown s' := by
  obtain ⟨present, bitcoin⟩ := known id wr found
  refine known.write wallets withdrawals there ⟨fun op member => ?_, ?_⟩
  · rw [same.2] at member
    exact there op (present op member)
  · rwa [same.1, same.2, wallets]

/-- Nothing happens to the withdrawals, and no output is removed. -/
theorem AllKnown.frame (known : AllKnown s) (wallets : s'.wallets = s.wallets)
    (withdrawals : s'.withdrawals = s.withdrawals)
    (there : ∀ op, (s.lockState op).isSome → (s'.lockState op).isSome) : AllKnown s' := by
  intro id wr found
  rw [withdrawals] at found
  obtain ⟨present, bitcoin⟩ := known id wr found
  exact ⟨fun op member => there op (present op member), by rwa [wallets]⟩

theorem isSome_restoreUTXOs (now : Int) (outpoints : List String) (op : String)
    (there : (s.lockState op).isSome) :
    ((s.restoreUTXOs now outpoints).2.lockState op).isSome := by
  rw [Store.lockState, Option.isSome_map] at there ⊢
  exact Store.isSome_updateUTXOs _ there

/-- Every operation keeps the outpoints of all withdrawals known. -/
theorem AllKnown.step {call : SagaCall} {result : Except Err Unit} (known : AllKnown s)
    (outcome : Outcome svc s call result s') : AllKnown s' := by
  cases outcome with
  | refused call err => exact known
  | @created req wr fresh checked nonce outpoints inflight =>
    refine known.write rfl rfl (fun _ there => there) ⟨fun op member => ?_, fun some => ?_⟩
    · rw [outpoints] at member
      cases member
    · exact absurd outpoints some
  | @unselected id walletID err =>
    have frame := s.rollbackPendingNonce_frame walletID .bitcoin (-1)
    refine known.frame frame.1 frame.2.2 fun op there => ?_
    rwa [lockState_congr frame.2.1]
  | @constructed id wr wr' wallet n ops reserved s' result finds whitelisted reservation signing =>
    obtain ⟨row, constructed⟩ := signing.constructed reservation finds.self
    obtain ⟨free, states⟩ := constructed.lockState reservation whitelisted
    have there (op : String) (there : (s.lockState op).isSome) : (s'.lockState op).isSome := by
      rcases states with ⟨-, locked⟩ | ⟨-, kept⟩
      · exact Store.isSome_of_set locked op there
      · rwa [kept]
    rcases constructed.outpoints reservation with ⟨mine, bitcoin⟩ | ⟨old, -, -⟩
    · refine known.write constructed.wallets constructed.withdrawals there ⟨fun op member => ?_, ?_⟩
      · rw [mine] at member
        exact there op (by rw [free op member]; rfl)
      · intro _ wallet' owner
        rw [constructed.wallets, constructed.walletID, finds.wallet] at owner
        rw [← Option.some.inj owner]
        exact bitcoin
    · exact known.rewrite finds.withdrawal constructed.wallets constructed.withdrawals
        ⟨constructed.walletID, old⟩ there
  | @rejected id wr wallet now finds signed err inflight =>
    have frame := s.release_frame now wallet (Service.noncePtr wr) wr.reservedOutpoints
    exact known.rewrite finds.withdrawal frame.1 (congrArg (Table.put · _) frame.2) ⟨rfl, rfl⟩
      (Store.isSome_of_set (lockState_release (known id wr finds.withdrawal).present))
  | @accepted id wr wallet now finds signed txHash inflight =>
    have frame := s.spend_frame now wr wallet txHash
    have frame' := (s.spend now wr wallet txHash).commit_frame wr wallet
    obtain ⟨present, bitcoin⟩ := known id wr finds.withdrawal
    exact known.rewrite finds.withdrawal (frame'.1.trans frame.1)
      (congrArg (Table.put · _) (frame'.2.2.trans frame.2.2)) ⟨rfl, rfl⟩
      (Store.isSome_of_set
        (lockState_settled (fun some => bitcoin some wallet finds.wallet) present))
  | @confirmed id txHash wr found broadcast inflight =>
    exact known.rewrite found rfl rfl ⟨rfl, rfl⟩ fun _ there => there
  | @failed id reason wr wallet now finds inflight =>
    have frame := s.release_frame now wallet (Service.noncePtr wr) []
    exact known.rewrite finds.withdrawal frame.1 (congrArg (Table.put · _) frame.2) ⟨rfl, rfl⟩
      (Store.isSome_of_set (lockState_release (by simp)))
  | @reorged id outpoints now result =>
    exact known.frame rfl rfl (isSome_restoreUTXOs now outpoints)
  | @demoted id outpoints wr now found confirmed inflight =>
    exact known.rewrite found rfl rfl ⟨rfl, rfl⟩ (isSome_restoreUTXOs now outpoints)
  | @tracked u now fresh =>
    refine known.frame rfl rfl fun op there => ?_
    rw [Store.lockState, Option.isSome_map] at there ⊢
    show ((s.utxos.put { u with updatedAt := now }).get op).isSome
    rw [Table.get_put]
    split
    · rfl
    · exact there
  | handed => exact known.frame rfl rfl fun _ there => there

/-- In every run of complete operations, reorganisations included, from a store without
withdrawals, the outpoints of every withdrawal are known. -/
theorem allKnown_of_run (start w : World SagaCall)
    (unused : start.store.withdrawals = .empty)
    (runs : Runs WalletManagement.step svc.body (fun _ _ => True) start w) : AllKnown w.store := by
  refine saga_run runs AllKnown (fun id wr found => ?_) fun _ _ _ _ _ known outcome =>
    known.step outcome
  rw [unused] at found
  cases found

end Known

section Moves

variable {ι : Type}

/-- The gateway accepts a submission. -/
def accepts (move : Move calls (World ι)) : Bool :=
  match move.op, move.answer with
  | .broadcastTx _, .ok _ => true
  | _, _ => false

/-- The gateway rejects a submission. -/
def rejects (move : Move calls (World ι)) : Bool :=
  match move.op, move.answer with
  | .broadcastTx _, .error _ => true
  | _, _ => false

/-- The move marks outpoints as spent. -/
def marksSpent (move : Move calls (World ι)) : Bool :=
  match move.op with
  | .store (.markUTXOsSpent _ _) => true
  | _ => false

/-- The move stores `BROADCAST`. -/
def storesBroadcast (move : Move calls (World ι)) : Bool :=
  match move.op with
  | .store (.updateWithdrawalState _ .broadcast _ _ _) => true
  | _ => false

end Moves

/-! ## What a broadcast does -/

/-- Two rows of a withdrawal reserve the same things. -/
structure SameReservation (row wr : WithdrawalRequest) : Prop where
  walletID : row.walletID = wr.walletID
  nonceValue : row.nonceValue = wr.nonceValue
  reservedOutpoints : row.reservedOutpoints = wr.reservedOutpoints

/-- The withdrawal is there with what it reserved, and the wallets are the same. -/
structure StillReserved (id : UUID) (wr : WithdrawalRequest) (wallets : Table Wallet.id)
    (s : Store) : Prop where
  row : ∃ row, s.withdrawals.get id = some row ∧ SameReservation row wr
  wallets : s.wallets = wallets

/-- The call takes back what a withdrawal reserved, or stores that it failed. -/
def Op.Undoes (id : UUID) (wr : WithdrawalRequest) : Op → Prop
  | .store (.restoreUTXOs ops) => ops = wr.reservedOutpoints
  | .store (.rollbackPendingNonce _ _ _) => True
  | .store (.updateWithdrawalState id' state _ _ _) => id' = id ∧ state = .failed
  | _ => False

/-- The call settles a withdrawal that was accepted. -/
def Op.Settles (id : UUID) (wr : WithdrawalRequest) : Op → Prop
  | .store (.markUTXOsSpent ops _) => ops = wr.reservedOutpoints
  | .store (.advanceBroadcastNonce _ _ _) => True
  | .store (.updateWithdrawalState id' state _ _ _) => id' = id ∧ state = .broadcast
  | _ => False

/-- The call touches nothing that is modelled. -/
def Op.Looks : Op → Prop
  | .store (.getWithdrawal _) | .store (.getWallet _) | .emit _ => True
  | _ => False

section Program

variable {ι : Type} {i : ι} {id : UUID} {wr row : WithdrawalRequest} {wallets : Table Wallet.id}
  {past : List (Move calls (World ι))}

/-- A broadcast settles only after an accepted submission and takes back only after a rejected one,
and after an accepted one it does not return before it has settled. -/
def broadcasting (id : UUID) (wr : WithdrawalRequest) (wallets : Table Wallet.id) :
    Conduct calls (World ι) (Except Err Unit) where
  allows past op := op.Looks ∨ op.submits = true ∨
    op.Settles id wr ∧ past.any accepts = true ∨ op.Undoes id wr ∧ past.any rejects = true
  knows _ w := StillReserved id wr wallets w.store
  returns _ past := past.any accepts = true →
    (wr.reservedOutpoints ≠ [] → past.any marksSpent = true) ∧ past.any storesBroadcast = true

/-- What a broadcast does after a rejected submission. -/
theorem undo_calls (wallet : Wallet) (same : SameReservation row wr) (err : Err) :
    (do
      Service.rollback wallet (Service.noncePtr row) row.reservedOutpoints
      let _ ← perform (.store (.updateWithdrawalState id .failed "broadcast_failed" "" ""))
      pure (.error err) : Prog (Except Err Unit)).Calls (Op.Undoes id wr) := by
  have nonce (n : Int) : (rollbackNonce wallet.id wallet.chain n).Calls (Op.Undoes id wr) := by
    refine ⟨trivial, fun answer => ?_⟩
    cases answer <;> trivial
  have outpoints : (unlock row.reservedOutpoints).Calls (Op.Undoes id wr) :=
    ⟨same.reservedOutpoints, fun _ => trivial⟩
  refine Program.Calls.bind ((runIf_calls _ (nonce _)).bind fun _ => runIf_calls _ outpoints)
    fun _ => ?_
  exact ⟨⟨rfl, rfl⟩, fun _ => trivial⟩

theorem rejected_follows (wallet : Wallet) (same : SameReservation row wr) (err : Err)
    (rejected : past.any rejects = true) (unaccepted : past.any accepts = false) :
    (do
      Service.rollback wallet (Service.noncePtr row) row.reservedOutpoints
      let _ ← perform (.store (.updateWithdrawalState id .failed "broadcast_failed" "" ""))
      pure (.error err) : Prog (Except Err Unit)).Follows (step i) (broadcasting id wr wallets)
        past := by
  refine .of_phase (fun past => past.any rejects = true ∧ past.any accepts = false)
    (undo_calls wallet same err) ⟨rejected, unaccepted⟩ (fun past op phase undoes => ?_)
    (fun past op w answer w' phase undoes => ?_) (fun _ past phase accepted => ?_)
  · exact .inr (.inr (.inr ⟨undoes, phase.1⟩))
  · have none : accepts (⟨op, w, answer, w'⟩ : Move calls (World ι)) = false := by
      cases op with
      | broadcastTx _ => exact undoes.elim
      | _ => rfl
    exact ⟨by rw [List.any_cons, phase.1, Bool.or_true], by rw [List.any_cons, none, phase.2]; rfl⟩
  · rw [phase.2] at accepted
    cases accepted

/-- The submission was accepted and the outpoints, if there are any, were marked as spent. -/
def Marked (wr : WithdrawalRequest) (past : List (Move calls (World ι))) : Prop :=
  past.any accepts = true ∧ (wr.reservedOutpoints ≠ [] → past.any marksSpent = true)

theorem Marked.cons (marked : Marked wr past) (move : Move calls (World ι)) :
    Marked wr (move :: past) := by
  refine ⟨by rw [List.any_cons, marked.1, Bool.or_true], fun reserved => ?_⟩
  rw [List.any_cons, marked.2 reserved, Bool.or_true]

/-- The first thing a broadcast does after an accepted submission. -/
theorem mark_follows (wallet : Wallet) (same : SameReservation row wr) (txHash : String)
    (accepted : past.any accepts = true)
    (bitcoin : wr.reservedOutpoints ≠ [] → wallet.chain = .bitcoin) :
    (runIf (wallet.chain = .bitcoin && row.reservedOutpoints ≠ [])
      (markSpent row.reservedOutpoints txHash)).Follows (step i)
        ⟨(broadcasting id wr wallets).allows, (broadcasting id wr wallets).knows,
          fun _ => Marked wr⟩ past := by
  rw [same.reservedOutpoints]
  by_cases empty : wr.reservedOutpoints = []
  · have skipped : (wallet.chain = .bitcoin && wr.reservedOutpoints ≠ [] : Bool) = false := by
      simp [empty]
    rw [skipped]
    exact ⟨accepted, fun reserved => absurd empty reserved⟩
  · have ran : (wallet.chain = .bitcoin && wr.reservedOutpoints ≠ [] : Bool) = true := by
      simp [bitcoin empty, empty]
    rw [ran]
    refine ⟨.inr (.inr (.inl ⟨rfl, accepted⟩)), fun w answer w' _ _ => ?_⟩
    exact ⟨by rw [List.any_cons, accepted, Bool.or_true], fun _ => rfl⟩

theorem commit_calls (wallet : Wallet) :
    (Service.commitReserved row wallet).Calls (Op.Settles id wr) := by
  unfold Service.commitReserved
  split
  · exact runIf_calls _ ⟨trivial, fun _ => trivial⟩
  · trivial

/-- What a broadcast does after an accepted submission. -/
theorem accepted_follows (svc : Service) (wallet : Wallet) (same : SameReservation row wr)
    (txHash : String) (rowID : row.id = id) (accepted : past.any accepts = true)
    (bitcoin : wr.reservedOutpoints ≠ [] → wallet.chain = .bitcoin) :
    (svc.settle row wallet txHash).Follows (step i) (broadcasting id wr wallets) past := by
  refine .bind (fun _ => Marked wr) (mark_follows wallet same txHash accepted bitcoin)
    fun _ past marked => ?_
  refine .bind (fun _ => Marked wr) (.of_phase (Marked wr) (commit_calls wallet) marked
    (fun past op marked settles => .inr (.inr (.inl ⟨settles, marked.1⟩)))
    (fun past op w answer w' marked _ => marked.cons _) fun _ _ marked => marked)
    fun _ past marked => ?_
  refine .perform_bind (.inr (.inr (.inl ⟨⟨rowID, rfl⟩, marked.1⟩))) fun w answer w' _ _ => ?_
  have marked := marked.cons ⟨_, w, answer, w'⟩
  cases answer with
  | error err => exact fun _ => ⟨marked.2, rfl⟩
  | ok _ =>
    have looks (event : AuditEvent) : (Service.emit svc.audit event >>= fun _ =>
        pure (.ok ()) : Prog (Except Err Unit)).Calls Op.Looks :=
      Program.Calls.bind (runIf_calls _ ⟨trivial, fun _ => trivial⟩) fun _ => trivial
    refine .of_phase (fun past => Marked wr past ∧ past.any storesBroadcast = true) (looks _)
      ⟨marked, rfl⟩ (fun _ _ _ looks => .inl looks) (fun past op w answer w' phase _ => ?_)
      fun _ _ phase _ => ⟨phase.1.2, phase.2⟩
    exact ⟨phase.1.cons _, by rw [List.any_cons, phase.2, Bool.or_true]⟩

/-- `Broadcast` of a withdrawal that keeps what it reserved. -/
theorem broadcast_follows (svc : Service) (bitcoin : wr.reservedOutpoints ≠ [] →
      ∀ wallet, wallets.get wr.walletID = some wallet → wallet.chain = .bitcoin) :
    (svc.broadcast id).Follows (step i) (broadcasting id wr wallets) [] := by
  refine .perform_bind (.inl trivial) fun w answer w' known moved => ?_
  obtain ⟨_, answered, -⟩ := store_of_step moved
  cases answer with
  | error err => exact nofun
  | ok row =>
    have found : w.store.withdrawals.get id = some row := Store.found_eq_ok.mp answered.symm
    obtain ⟨row', found', same⟩ := known.row
    obtain rfl : row = row' := Option.some.inj (found.symm.trans found')
    dsimp only
    split
    · exact nofun
    · refine .perform_bind (.inl trivial) fun w answer w' known moved => ?_
      obtain ⟨_, answered, -⟩ := store_of_step moved
      cases answer with
      | error err => exact nofun
      | ok wallet =>
        have owner : w.store.wallets.get row.walletID = some wallet :=
          Store.found_eq_ok.mp answered.symm
        rw [known.wallets, same.walletID] at owner
        dsimp only
        split
        · exact nofun
        · refine .perform_bind (.inr (.inl rfl)) fun w answer w' _ _ => ?_
          cases answer with
          | error err => exact rejected_follows wallet same _ rfl rfl
          | ok resp =>
            exact accepted_follows svc wallet same resp.txHash (Table.key_of_get found) rfl
              fun reserved => bitcoin reserved wallet owner

end Program

/-! ## What a move does to the store -/

section Store

variable {ι : Type} {i : ι} {id : UUID} {wr : WithdrawalRequest} {wallets : Table Wallet.id}
  {op : Op} {w w' : World ι} {answer : op.Ans}

/-- On an EVM chain, the pending nonce is greater than the nonce of the withdrawal. -/
def NonceAbove (s : Store) (wr : WithdrawalRequest) : Prop :=
  ∀ wallet ∈ s.wallets.get wr.walletID, ∀ n ∈ wr.nonceValue,
    wallet.chain.isEVM = true → n < s.pending wr.walletID wallet.chain

instance (s : Store) (wr : WithdrawalRequest) : Decidable (NonceAbove s wr) :=
  inferInstanceAs (Decidable (∀ wallet ∈ _, ∀ n ∈ _, _ → _))

theorem NonceAbove.congr {s s' : Store} (above : NonceAbove s wr)
    (wallets : s'.wallets = s.wallets)
    (pending : ∀ walletID chain, s'.pending walletID chain = s.pending walletID chain) :
    NonceAbove s' wr := by
  intro wallet found n value evm
  rw [pending]
  exact above wallet (wallets ▸ found) n value evm

theorem StillReserved.congr {s s' : Store} (reserved : StillReserved id wr wallets s)
    (same : s'.wallets = s.wallets) (withdrawals : s'.withdrawals = s.withdrawals) :
    StillReserved id wr wallets s' :=
  ⟨by rw [withdrawals]; exact reserved.row, same.trans reserved.wallets⟩

/-- Storing a state keeps what a withdrawal reserved. -/
theorem StillReserved.stored {s : Store} (reserved : StillReserved id wr wallets s)
    (state : WithdrawalState) (reason txHash decision : String) :
    StillReserved id wr wallets (s.updateWithdrawalState id state reason txHash decision).2 := by
  obtain ⟨row, found, same⟩ := reserved.row
  rw [Store.updateWithdrawalState_found found]
  refine ⟨⟨Store.setState state reason txHash decision row, ?_, ?_⟩, reserved.wallets⟩
  · rw [← Table.key_of_get found]
    exact Table.get_put_self ..
  · exact ⟨same.walletID, same.nonceValue, same.reservedOutpoints⟩

/-- A call that looks or submits leaves the store alone. -/
theorem store_of_looks (looks : op.Looks ∨ op.submits = true) (moved : step i op w answer w') :
    w'.store = w.store := by
  rcases looks with looks | submits
  · cases op with
    | store op =>
      cases op with
      | getWithdrawal _ | getWallet _ =>
        obtain ⟨_, -, stored⟩ := store_of_step moved
        exact stored
      | _ => exact looks.elim
    | emit _ => cases moved; rfl
    | _ => exact looks.elim
  · cases op with
    | broadcastTx _ => cases moved; rfl
    | _ => cases submits

/-- A call that takes back keeps what the withdrawal says it reserved. -/
theorem reserved_of_undoes (undoes : op.Undoes id wr)
    (reserved : StillReserved id wr wallets w.store)
    (present : ∀ op ∈ wr.reservedOutpoints, (w.store.lockState op).isSome)
    (moved : step i op w answer w') : StillReserved id wr wallets w'.store ∧
      ∀ op ∈ wr.reservedOutpoints, (w'.store.lockState op).isSome := by
  cases op with
  | store op =>
    obtain ⟨now, -, stored⟩ := store_of_step moved
    rw [stored]
    cases op with
    | restoreUTXOs ops =>
      cases undoes
      refine ⟨reserved.congr rfl rfl, fun op member => ?_⟩
      show ((w.store.restoreUTXOs now wr.reservedOutpoints).2.lockState op).isSome
      rw [Store.lockState_restoreUTXOs present, if_pos member]
      rfl
    | rollbackPendingNonce walletID chain n =>
      have frame := w.store.rollbackPendingNonce_frame walletID chain n
      refine ⟨reserved.congr frame.1 frame.2.2, fun op member => ?_⟩
      exact (congrArg Option.isSome (lockState_congr frame.2.1 op)).trans (present op member)
    | updateWithdrawalState id' state reason txHash decision =>
      obtain ⟨rfl, -⟩ := undoes
      have frame := w.store.updateWithdrawalState_frame id' state reason txHash decision
      refine ⟨reserved.stored state reason txHash decision, fun op member => ?_⟩
      exact (congrArg Option.isSome (lockState_congr frame.2.1 op)).trans (present op member)
    | _ => exact undoes.elim
  | _ => exact undoes.elim

/-- What a withdrawal looks like while accepted submissions are settled. -/
structure Settling (id : UUID) (wr : WithdrawalRequest) (wallets : Table Wallet.id)
    (marked stored : Bool) (s : Store) : Prop where
  reserved : StillReserved id wr wallets s
  present : ∀ op ∈ wr.reservedOutpoints, (s.lockState op).isSome
  above : NonceAbove s wr
  spent : marked = true → ∀ op ∈ wr.reservedOutpoints, s.lockState op = some .spent
  state : stored = true → s.stateOf id = some .broadcast

/-- A call that settles goes on with settling. -/
theorem Settling.go_on {marked stored : Bool}
    (settling : Settling id wr wallets marked stored w.store) (settles : op.Settles id wr)
    (moved : step i op w answer w') :
    Settling id wr wallets (marksSpent (⟨op, w, answer, w'⟩ : Move calls (World ι)) || marked)
      (storesBroadcast (⟨op, w, answer, w'⟩ : Move calls (World ι)) || stored) w'.store := by
  cases op with
  | store op =>
    obtain ⟨now, -, same⟩ := store_of_step moved
    rw [same]
    cases op with
    | markUTXOsSpent ops txHash =>
      cases settles
      have spent (op : String) (member : op ∈ wr.reservedOutpoints) :
          (w.store.markUTXOsSpent now wr.reservedOutpoints txHash).2.lockState op = some .spent :=
        (Store.lockState_markUTXOsSpent settling.present op).trans (if_pos member)
      refine ⟨settling.reserved.congr rfl rfl, fun op member => ?_,
        settling.above.congr rfl fun _ _ => rfl, fun _ => spent, settling.state⟩
      exact Option.isSome_iff_exists.mpr ⟨_, spent op member⟩
    | advanceBroadcastNonce walletID chain n =>
      exact ⟨settling.reserved.congr rfl rfl, settling.present,
        settling.above.congr rfl (w.store.pending_advance walletID chain n), settling.spent,
        settling.state⟩
    | updateWithdrawalState id' state reason txHash decision =>
      obtain ⟨rfl, rfl⟩ := settles
      have frame := w.store.updateWithdrawalState_frame id' .broadcast reason txHash decision
      have locks := lockState_congr frame.2.1
      refine ⟨settling.reserved.stored _ reason txHash decision, fun op member => ?_,
        settling.above.congr frame.1 (pending_congr frame.2.2), fun marked op member => ?_,
        fun _ => ?_⟩
      · exact (congrArg Option.isSome (locks op)).trans (settling.present op member)
      · exact (locks op).trans (settling.spent marked op member)
      · obtain ⟨row, found, -⟩ := settling.reserved.row
        refine (w.store.stateOf_updateWithdrawalState id' _ reason txHash decision id').trans ?_
        rw [if_pos rfl, Store.stateOf, found]
        rfl
    | _ => exact settles.elim
  | _ => exact settles.elim

/-- A call that does not submit is neither accepted nor rejected. -/
theorem unanswered {op : Op} (silent : op.submits = false) (w : World ι) (answer : op.Ans)
    (w' : World ι) : accepts (⟨op, w, answer, w'⟩ : Move calls (World ι)) = false ∧
      rejects (⟨op, w, answer, w'⟩ : Move calls (World ι)) = false := by
  cases op with
  | broadcastTx _ => cases silent
  | _ => exact ⟨rfl, rfl⟩

/-- A call that does not settle neither marks outpoints nor stores `BROADCAST`. -/
theorem unsettled {op : Op} (id : UUID) (wr : WithdrawalRequest)
    (other : op.Looks ∨ op.submits = true ∨ op.Undoes id wr) (w : World ι) (answer : op.Ans)
    (w' : World ι) :
    marksSpent (⟨op, w, answer, w'⟩ : Move calls (World ι)) = false ∧
      storesBroadcast (⟨op, w, answer, w'⟩ : Move calls (World ι)) = false := by
  rcases other with looks | submits | undoes
  · cases op with
    | store op => cases op <;> first | exact ⟨rfl, rfl⟩ | exact looks.elim
    | _ => exact ⟨rfl, rfl⟩
  · cases op with
    | store op => cases submits
    | _ => exact ⟨rfl, rfl⟩
  · cases op with
    | store op =>
      cases op with
      | updateWithdrawalState _ state _ _ _ =>
        obtain ⟨-, rfl⟩ := undoes
        exact ⟨rfl, rfl⟩
      | markUTXOsSpent _ _ => exact undoes.elim
      | _ => exact ⟨rfl, rfl⟩
    | _ => exact ⟨rfl, rfl⟩

/-- A call that looks or submits goes on with settling. -/
theorem Settling.looks {marked stored : Bool}
    (settling : Settling id wr wallets marked stored w.store)
    (looks : op.Looks ∨ op.submits = true) (moved : step i op w answer w') :
    Settling id wr wallets (marksSpent (⟨op, w, answer, w'⟩ : Move calls (World ι)) || marked)
      (storesBroadcast (⟨op, w, answer, w'⟩ : Move calls (World ι)) || stored) w'.store := by
  have ⟨unmarking, unstoring⟩ := unsettled id wr (looks.imp_right .inl) w answer w'
  rw [unmarking, unstoring, store_of_looks looks moved]
  exact settling

end Store

/-! ## Schedules -/

section Schedules

variable {ι : Type} [DecidableEq ι] {id : UUID} {wr : WithdrawalRequest}
  {wallets : Table Wallet.id} {crew : Crew calls (World ι) ι (Except Err Unit)} {i : ι}

/-- The gateway rejects nothing after it accepted a submission. It accepts one only when every call
it rejected has returned, and the pending nonce is still above the nonce of the withdrawal. -/
def AcceptedLast (wr : WithdrawalRequest) : Crew.Guard calls (World ι) ι (Except Err Unit) :=
  fun crew _ move =>
    (rejects move = true → made accepts crew.moves = false) ∧
    (accepts move = true → NonceAbove crew.state.store wr ∧
      ∀ j, (past crew.moves j).any rejects = true → crew.Finished j)

instance {n : Nat} (wr : WithdrawalRequest)
    (crew : Crew calls (World (Fin n)) (Fin n) (Except Err Unit)) (i : Fin n)
    (move : Move calls (World (Fin n))) : Decidable (AcceptedLast wr crew i move) :=
  inferInstanceAs (Decidable ((_ → _) ∧ (_ → _ ∧ ∀ _, _ → _)))

/-- The two phases of a schedule of broadcasts. -/
inductive BroadcastPhase (id : UUID) (wr : WithdrawalRequest) (wallets : Table Wallet.id)
    (crew : Crew calls (World ι) ι (Except Err Unit)) : Prop where
  /-- No submission was accepted. -/
  | before (unaccepted : made accepts crew.moves = false)
    (unmarked : made marksSpent crew.moves = false)
    (unstored : made storesBroadcast crew.moves = false)
    (reserved : StillReserved id wr wallets crew.state.store)
    (present : ∀ op ∈ wr.reservedOutpoints, (crew.state.store.lockState op).isSome)
  /-- A submission was accepted, and nobody takes anything back any more. -/
  | after (accepted : made accepts crew.moves = true)
    (finished : ∀ j, (past crew.moves j).any rejects = true → crew.Finished j)
    (settling : Settling id wr wallets (made marksSpent crew.moves)
      (made storesBroadcast crew.moves) crew.state.store)

/-- In both phases the withdrawal keeps what it reserved. -/
theorem BroadcastPhase.reserved (phase : BroadcastPhase id wr wallets crew) :
    StillReserved id wr wallets crew.state.store := by
  cases phase with
  | before _ _ _ reserved _ => exact reserved
  | after _ _ settling => exact settling.reserved

/-- The rejected calls have still returned after a move that is not rejected. -/
theorem finished_advance {op : Op} {next : op.Ans → Prog (Except Err Unit)} {answer : op.Ans}
    {w' : World ι} (finished : ∀ j, (past crew.moves j).any rejects = true → crew.Finished j)
    (waiting : crew.rest i = .call op next)
    (unrejected : rejects (⟨op, crew.state, answer, w'⟩ : Move calls (World ι)) = false) (j : ι)
    (rejected : (past (crew.advance i ⟨op, crew.state, answer, w'⟩ (next answer)).moves j).any
      rejects = true) :
    (crew.advance i ⟨op, crew.state, answer, w'⟩ (next answer)).Finished j := by
  rw [Crew.advance_moves] at rejected
  by_cases same : j = i
  · subst same
    rw [past_cons_self, List.any_cons, unrejected, Bool.false_or] at rejected
    exact absurd (finished j rejected) (Crew.not_finished_of_call waiting)
  · rw [past_cons_of_ne _ _ (Ne.symm same)] at rejected
    exact (Crew.finished_advance_of_ne _ _ _ same).mpr (finished j rejected)

section Step

variable {op : Op} {next : op.Ans → Prog (Except Err Unit)} {answer : op.Ans} {w' : World ι}

/-- A move in the first phase. -/
theorem BroadcastPhase.before_step (unaccepted : made accepts crew.moves = false)
    (unmarked : made marksSpent crew.moves = false)
    (unstored : made storesBroadcast crew.moves = false)
    (unaccepting : accepts (⟨op, crew.state, answer, w'⟩ : Move calls (World ι)) = false)
    (other : op.Looks ∨ op.submits = true ∨ op.Undoes id wr)
    (reserved : StillReserved id wr wallets w'.store)
    (present : ∀ op ∈ wr.reservedOutpoints, (w'.store.lockState op).isSome) :
    BroadcastPhase id wr wallets (crew.advance i ⟨op, crew.state, answer, w'⟩ (next answer)) := by
  have ⟨unmarking, unstoring⟩ := unsettled id wr other crew.state answer w'
  refine .before ?_ ?_ ?_ reserved present
  · rw [Crew.advance_moves, made_cons, unaccepting, unaccepted]
    rfl
  · rw [Crew.advance_moves, made_cons, unmarking, unmarked]
    rfl
  · rw [Crew.advance_moves, made_cons, unstoring, unstored]
    rfl

/-- A move in the second phase. -/
theorem BroadcastPhase.after_step (accepted : made accepts crew.moves = true)
    (finished : ∀ j, (past crew.moves j).any rejects = true → crew.Finished j)
    (waiting : crew.rest i = .call op next)
    (unrejecting : rejects (⟨op, crew.state, answer, w'⟩ : Move calls (World ι)) = false)
    (settling : Settling id wr wallets (made marksSpent ((i, ⟨op, crew.state, answer, w'⟩) ::
      crew.moves)) (made storesBroadcast ((i, ⟨op, crew.state, answer, w'⟩) :: crew.moves))
      w'.store) :
    BroadcastPhase id wr wallets (crew.advance i ⟨op, crew.state, answer, w'⟩ (next answer)) := by
  refine .after ?_ (finished_advance finished waiting unrejecting) settling
  rw [Crew.advance_moves, made_cons, accepted, Bool.or_true]

/-- A submission stays in its phase, or is the first one accepted. -/
theorem BroadcastPhase.submit {req : BroadcastRequest}
    {next : Except Err BroadcastResponse → Prog (Except Err Unit)}
    {answer : Except Err BroadcastResponse} (phase : BroadcastPhase id wr wallets crew)
    (waiting : crew.rest i = .call (.broadcastTx req) next)
    (moved : step i (.broadcastTx req) crew.state answer w')
    (admitted : AcceptedLast wr crew i ⟨.broadcastTx req, crew.state, answer, w'⟩) :
    BroadcastPhase id wr wallets
      (crew.advance i ⟨.broadcastTx req, crew.state, answer, w'⟩ (next answer)) := by
  have same := store_of_looks (.inr rfl) moved
  cases answer with
  | error err =>
    cases phase with
    | before unaccepted unmarked unstored reserved present =>
      exact .before_step unaccepted unmarked unstored rfl (.inr (.inl rfl))
        (same ▸ reserved) (same ▸ present)
    | after accepted finished settling => cases (admitted.1 rfl).symm.trans accepted
  | ok resp =>
    cases phase with
    | before unaccepted unmarked unstored reserved present =>
      obtain ⟨above, finished⟩ := admitted.2 rfl
      refine .after rfl (finished_advance finished waiting rfl) ?_
      have settling : Settling id wr wallets (made marksSpent crew.moves)
          (made storesBroadcast crew.moves) crew.state.store := by
        refine ⟨reserved, present, above, fun marked => ?_, fun stored => ?_⟩
        · cases unmarked.symm.trans marked
        · cases unstored.symm.trans stored
      exact settling.looks (.inr rfl) moved
    | after accepted finished settling =>
      exact .after_step accepted finished waiting rfl (settling.looks (.inr rfl) moved)

/-- One move of a broadcast stays in its phase, or begins the second one. -/
theorem BroadcastPhase.go_on (phase : BroadcastPhase id wr wallets crew)
    (waiting : crew.rest i = .call op next)
    (allowed : (broadcasting id wr wallets).allows (past crew.moves i) op)
    (moved : step i op crew.state answer w')
    (admitted : AcceptedLast wr crew i ⟨op, crew.state, answer, w'⟩) :
    BroadcastPhase id wr wallets (crew.advance i ⟨op, crew.state, answer, w'⟩ (next answer)) := by
  cases submits : op.submits with
  | true =>
    cases op with
    | broadcastTx req => exact phase.submit waiting moved admitted
    | _ => cases submits
  | false =>
    have ⟨unaccepting, unrejecting⟩ := unanswered submits crew.state answer w'
    rcases allowed with looks | again | ⟨settles, accepted⟩ | ⟨undoes, rejected⟩
    · cases phase with
      | before unaccepted unmarked unstored reserved present =>
        have same := store_of_looks (.inl looks) moved
        exact .before_step unaccepted unmarked unstored unaccepting (.inl looks)
          (same ▸ reserved) (same ▸ present)
      | after accepted finished settling =>
        exact .after_step accepted finished waiting unrejecting (settling.looks (.inl looks) moved)
    · cases submits.symm.trans again
    · cases phase with
      | before unaccepted => cases unaccepted.symm.trans (made_iff.mpr ⟨i, accepted⟩)
      | after accepted finished settling =>
        exact .after_step accepted finished waiting unrejecting (settling.go_on settles moved)
    · cases phase with
      | before unaccepted unmarked unstored reserved present =>
        obtain ⟨reserved, present⟩ := reserved_of_undoes undoes reserved present moved
        exact .before_step unaccepted unmarked unstored unaccepting (.inr (.inr undoes)) reserved
          present
      | after accepted finished settling =>
        exact absurd (finished i rejected) (Crew.not_finished_of_call waiting)

end Step

/-- In every schedule of broadcasts of a withdrawal in which accepted submissions come last, if a
submission was accepted and all calls have returned, the withdrawal is `BROADCAST`, none of its
outpoints is free, and on an EVM chain the pending nonce is above its nonce. -/
theorem broadcasts_agree (svc : Service) (id : UUID) (wr : WithdrawalRequest) (start : World ι)
    (found : start.store.withdrawals.get id = some wr) (known : OutpointsKnown start.store wr)
    (schedule : Crew.Reachable step (AcceptedLast wr)
      (Crew.start (fun _ : ι => svc.broadcast id) start) crew)
    (accepted : made accepts crew.moves = true)
    (returned : ∀ i, crew.Waits i ∨ crew.Finished i) :
    ∃ row, crew.state.store.withdrawals.get id = some row ∧ row.state = .broadcast ∧
      (∀ op ∈ row.reservedOutpoints, crew.state.store.lockState op ≠ some .free) ∧
      NonceAbove crew.state.store row := by
  have initial : (Crew.start (fun _ : ι => svc.broadcast id) start).Good step
      (fun _ => broadcasting id wr start.store.wallets)
      (BroadcastPhase id wr start.store.wallets) := by
    refine ⟨.before rfl rfl rfl ⟨⟨wr, found, rfl, rfl, rfl⟩, rfl⟩ known.present, fun i => ?_⟩
    exact broadcast_follows svc known.bitcoin
  have good := schedule.good (fun _ _ phase => phase.reserved)
    (fun _ _ _ _ _ _ phase waiting allowed moved admitted =>
      phase.go_on waiting allowed moved admitted) initial
  cases good.holds with
  | before unaccepted => cases unaccepted.symm.trans accepted
  | after _ _ settling =>
    obtain ⟨i, mine⟩ := made_iff.mp accepted
    have finished : crew.Finished i := by
      refine (returned i).resolve_left fun waits => ?_
      rw [show past crew.moves i = [] from waits] at mine
      cases mine
    obtain ⟨value, done⟩ := Crew.returned_of_finished finished
    obtain ⟨marked, stored⟩ := good.returned done mine
    obtain ⟨row, present, same⟩ := settling.reserved.row
    refine ⟨row, present, ?_, fun op member => ?_, ?_⟩
    · have state := settling.state (made_iff.mpr ⟨i, stored⟩)
      rw [Store.stateOf, present] at state
      exact Option.some.inj state
    · rw [same.reservedOutpoints] at member
      have reserved : wr.reservedOutpoints ≠ [] := List.ne_nil_of_mem member
      rw [settling.spent (made_iff.mpr ⟨i, marked reserved⟩) op member]
      decide
    · intro wallet owner n value
      rw [same.walletID] at owner ⊢
      exact settling.above wallet owner n (same.nonceValue ▸ value)

end Schedules

/-! ## Worked schedules -/

/-- A Bitcoin withdrawal up to its signature. -/
def trackedAndSigned : List (SagaCall × Script) := [
  (.trackUTXO (sampleUTXO "5000" '0'), acceptingBTC 0),
  (.create (sampleBTCRequest "1000"), acceptingBTC 10),
  (.constructAndSign (sampleID 10), acceptingBTC 0)]

/-- Two broadcasts of the withdrawal before they begin. -/
def sampleBroadcasts : Crew calls (World (Fin 2)) (Fin 2) (Except Err Unit) :=
  Crew.start (fun _ => sampleService.broadcast (sampleID 10))
    { store := (sampleService.play trackedAndSigned sampleStart).store }

/-- The withdrawal they broadcast. -/
def sampleBroadcastRow : WithdrawalRequest :=
  (sampleBroadcasts.state.store.withdrawals.get (sampleID 10)).getD
    ((sampleBTCRequest "1000").withdrawal (sampleID 10))

/-- The gateway accepts what the first caller submits and rejects what the second one does. -/
def sampleGateway (i : Fin 2) : Fin 2 × Script :=
  (i, if i = firstCaller then acceptingBTC 0 else rejecting)

/-- Both callers read the signed withdrawal, and then one of them runs to its end before the other
one submits. -/
def sampleOrder (first second : Fin 2) : List (Fin 2) :=
  [first, second] ++ List.replicate 5 first ++ List.replicate 5 second

/-- The rejected caller comes first. -/
def sampleRejectedFirst : Crew calls (World (Fin 2)) (Fin 2) (Except Err Unit) :=
  sampleBroadcasts.play (scripted ((sampleOrder secondCaller firstCaller).map sampleGateway))

/-- The accepted caller comes first. -/
def sampleRejectedLast : Crew calls (World (Fin 2)) (Fin 2) (Except Err Unit) :=
  sampleBroadcasts.play (scripted ((sampleOrder firstCaller secondCaller).map sampleGateway))

/-- The rejected call frees the outpoint and fails the withdrawal, and the accepted one still spends
it and stores `BROADCAST`. -/
theorem broadcasts_agree_sample :
    sampleRejectedFirst.state.store.stateOf (sampleID 10) = some .broadcast ∧
      sampleRejectedFirst.state.store.lockState (sampleUTXO "5000" '0').outpoint = some .spent := by
  have signed : sampleBroadcasts.state.store.withdrawals.get (sampleID 10) =
      some sampleBroadcastRow := by decide +kernel
  have known : OutpointsKnown sampleBroadcasts.state.store sampleBroadcastRow :=
    allKnown_of_run sampleStart _ rfl
      (sampleService.play_runs _ trackedAndSigned
        (sampleService.admits_of_calls (by simp) sampleStart))
      (sampleID 10) sampleBroadcastRow signed
  have schedule : Crew.Reachable step (AcceptedLast sampleBroadcastRow) sampleBroadcasts
      sampleRejectedFirst := scripted_reachable (by decide +kernel)
  have ends : made accepts sampleRejectedFirst.moves = true ∧
      (∀ i, sampleRejectedFirst.Finished i) ∧
      sampleRejectedFirst.state.store.lockState (sampleUTXO "5000" '0').outpoint = some .spent := by
    decide +kernel
  obtain ⟨accepted, finished, spent⟩ := ends
  obtain ⟨row, found, state, -, -⟩ := broadcasts_agree sampleService (sampleID 10)
    sampleBroadcastRow _ signed known schedule accepted fun i => .inr (finished i)
  refine ⟨?_, spent⟩
  rw [Store.stateOf, found, Option.map_some, state]

/-- The gateway has accepted the transaction, and the withdrawal is failed with a free outpoint. -/
theorem broadcasts_disagree :
    Crew.Reachable step (fun _ _ _ => True) sampleBroadcasts sampleRejectedLast ∧
      sampleBroadcasts.state.store.stateOf (sampleID 10) = some .signed ∧
      made accepts sampleRejectedLast.moves = true ∧ (∀ i, sampleRejectedLast.Finished i) ∧
      sampleRejectedLast.state.store.stateOf (sampleID 10) = some .failed ∧
      sampleBroadcastRow.reservedOutpoints = [(sampleUTXO "5000" '0').outpoint] ∧
      sampleRejectedLast.state.store.lockState (sampleUTXO "5000" '0').outpoint = some .free := by
  refine ⟨scripted_reachable (Crew.admitsAll_of_true _ _), ?_⟩
  decide +kernel

end WalletManagement
