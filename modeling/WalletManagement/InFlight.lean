import WalletManagement.SagaOutcome
import WalletManagement.Scripted
import Mathlib.Data.Finset.Card

/-!
# Withdrawals in flight

`memstore` keeps the keys of the withdrawals in flight in a set of their own, where Postgres has a
partial unique index over the rows. The set is a second copy of what the states say. A withdrawal
that fails or is confirmed gives its key back; so a withdrawal that already gave it back must not
fail once more while a newer one has the key, and a confirmed withdrawal must not return to
`BROADCAST`, because nothing takes its key again.
-/

namespace WalletManagement

open Interaction Data Go

/-- The states of the partial index `withdrawal_inflight_dedup`. -/
def WithdrawalState.inFlight : WithdrawalState → Bool
  | .pending | .whitelisted | .signed | .broadcast => true
  | .confirmed | .failed => false

/-- Two withdrawals move the same amount of the same asset from one wallet to one address. -/
structure WithdrawalRequest.SameTerms (wr wr' : WithdrawalRequest) : Prop where
  walletID : wr.walletID = wr'.walletID
  toAddress : wr.toAddress = wr'.toAddress
  amount : wr.amount = wr'.amount
  asset : wr.asset = wr'.asset

/-- Withdrawals of the same terms have the same key. -/
theorem WithdrawalRequest.SameTerms.dedupKey {wr wr' : WithdrawalRequest}
    (same : wr.SameTerms wr') : wr.dedupKey = wr'.dedupKey := by
  rw [WithdrawalRequest.dedupKey, same.walletID, same.toAddress, same.amount, same.asset]
  rfl

/-- At most one withdrawal in flight has given terms, and the set has exactly the keys of the
withdrawals in flight. -/
structure OneInFlight (s : Store) : Prop where
  /-- No two withdrawals in flight have the same terms. -/
  unique : ∀ id id' wr wr', id ≠ id' → s.withdrawals.get id = some wr →
    s.withdrawals.get id' = some wr' → wr.state.inFlight = true → wr'.state.inFlight = true →
    ¬wr.SameTerms wr'
  /-- The set. -/
  exact : ∀ key, key ∈ s.inflightWithdrawals ↔
    ∃ id wr, s.withdrawals.get id = some wr ∧ wr.state.inFlight = true ∧ wr.dedupKey = key

/-- The invariant: as above, with keys in place of terms. Different terms can have one key, because
the parts of a key are not escaped. -/
structure InFlightKeys (s : Store) : Prop where
  /-- No two withdrawals in flight have the same key. -/
  unique : ∀ id id' wr wr', id ≠ id' → s.withdrawals.get id = some wr →
    s.withdrawals.get id' = some wr' → wr.state.inFlight = true → wr'.state.inFlight = true →
    wr.dedupKey ≠ wr'.dedupKey
  /-- The set. -/
  exact : ∀ key, key ∈ s.inflightWithdrawals ↔
    ∃ id wr, s.withdrawals.get id = some wr ∧ wr.state.inFlight = true ∧ wr.dedupKey = key

/-- Distinct keys belong to distinct terms. -/
theorem InFlightKeys.oneInFlight {s : Store} (keys : InFlightKeys s) : OneInFlight s := by
  refine ⟨fun id id' wr wr' differ found found' flying flying' same => ?_, keys.exact⟩
  exact keys.unique id id' wr wr' differ found found' flying flying' same.dedupKey

/-- No withdrawal in flight but the given one has a key. -/
def Store.Alone (s : Store) (id : UUID) (key : String) : Prop :=
  ∀ id' wr', id' ≠ id → s.withdrawals.get id' = some wr' → wr'.state.inFlight = true →
    wr'.dedupKey ≠ key

section Step

variable {svc : Service} {s s' : Store} {id : UUID} {wr row : WithdrawalRequest}

/-- A withdrawal in flight is alone with its key. -/
theorem InFlightKeys.alone (keys : InFlightKeys s) (found : s.withdrawals.get id = some wr)
    (flying : wr.state.inFlight = true) : s.Alone id wr.dedupKey := by
  intro id' wr' differ found' flying'
  exact keys.unique id' id wr' wr differ found' found flying' flying

/-- The key of a withdrawal in flight is in the set. -/
theorem InFlightKeys.mem (keys : InFlightKeys s) (found : s.withdrawals.get id = some wr)
    (flying : wr.state.inFlight = true) : wr.dedupKey ∈ s.inflightWithdrawals :=
  (keys.exact _).mpr ⟨id, wr, found, flying, rfl⟩

/-- Writing a row that is alone with its key keeps the invariant, if the key is in the set exactly
when the row is in flight. -/
theorem InFlightKeys.write (keys : InFlightKeys s)
    (withdrawals : s'.withdrawals = s.withdrawals.put row)
    (alone : s.Alone row.id row.dedupKey)
    (same : ∀ wr, s.withdrawals.get row.id = some wr → wr.dedupKey = row.dedupKey)
    (inflight : s'.inflightWithdrawals = if row.state.inFlight then
      insert row.dedupKey s.inflightWithdrawals else s.inflightWithdrawals.erase row.dedupKey) :
    InFlightKeys s' := by
  have rows (id : UUID) (wr : WithdrawalRequest) (found : s'.withdrawals.get id = some wr) :
      (id = row.id ∧ wr = row) ∨ (id ≠ row.id ∧ s.withdrawals.get id = some wr) := by
    rw [withdrawals] at found
    exact Table.get_put_cases found
  have written : s'.withdrawals.get row.id = some row := by
    rw [withdrawals, Table.get_put_self]
  have kept (id : UUID) (wr : WithdrawalRequest) (differ : id ≠ row.id)
      (found : s.withdrawals.get id = some wr) : s'.withdrawals.get id = some wr := by
    rw [withdrawals, Table.get_put_of_ne _ differ.symm, found]
  refine ⟨fun id id' wr wr' differ found found' flying flying' => ?_, fun key => ?_⟩
  · rcases rows id wr found with ⟨rfl, rfl⟩ | ⟨other, found⟩
    · rcases rows id' wr' found' with ⟨rfl, rfl⟩ | ⟨other', found'⟩
      · exact absurd rfl differ
      · exact (alone id' wr' other' found' flying').symm
    · rcases rows id' wr' found' with ⟨rfl, rfl⟩ | ⟨other', found'⟩
      · exact alone id wr other found flying
      · exact keys.unique id id' wr wr' differ found found' flying flying'
  · -- another key is in the set, and has its withdrawal, as before
    have others (other : key ≠ row.dedupKey) : (∃ id wr, s'.withdrawals.get id = some wr ∧
        wr.state.inFlight = true ∧ wr.dedupKey = key) ↔ key ∈ s.inflightWithdrawals := by
      rw [keys.exact]
      constructor
      · rintro ⟨id, wr, found, flying, rfl⟩
        rcases rows id wr found with ⟨-, rfl⟩ | ⟨-, found⟩
        · exact absurd rfl other
        · exact ⟨id, wr, found, flying, rfl⟩
      · rintro ⟨id, wr, found, flying, rfl⟩
        refine ⟨id, wr, kept id wr ?_ found, flying, rfl⟩
        rintro rfl
        exact other (same wr found)
    by_cases own : key = row.dedupKey
    · subst own
      cases flying : row.state.inFlight with
      | true =>
        rw [inflight, if_pos flying]
        exact iff_of_true (Finset.mem_insert_self _ _) ⟨row.id, row, written, flying, rfl⟩
      | false =>
        rw [inflight, flying]
        refine iff_of_false (Finset.notMem_erase _ _) ?_
        rintro ⟨id, wr, found, flies, shared⟩
        rcases rows id wr found with ⟨-, rfl⟩ | ⟨differ, found⟩
        · rw [flying] at flies
          cases flies
        · exact alone id wr differ found flies shared
    · rw [others own, inflight]
      split
      · exact Finset.mem_insert.trans (or_iff_right own)
      · exact Finset.mem_erase.trans (and_iff_right own)

/-- Writing the row of a withdrawal in flight, with its key kept or given back. -/
theorem InFlightKeys.advance (keys : InFlightKeys s) (found : s.withdrawals.get id = some wr)
    (flying : wr.state.inFlight = true) (withdrawals : s'.withdrawals = s.withdrawals.put row)
    (rowID : row.id = wr.id) (key : row.dedupKey = wr.dedupKey)
    (inflight : s'.inflightWithdrawals = if row.state.inFlight then s.inflightWithdrawals
      else s.inflightWithdrawals.erase wr.dedupKey) : InFlightKeys s' := by
  have here : wr.id = id := Table.key_of_get found
  refine keys.write withdrawals ?_ (fun wr' found' => ?_) ?_
  · rw [rowID, here, key]
    exact keys.alone found flying
  · rw [rowID, here, found] at found'
    rw [← Option.some.inj found', key]
  · rw [inflight, key, Finset.insert_eq_of_mem (keys.mem found flying)]

/-- Nothing happens to the withdrawals and the set. -/
theorem InFlightKeys.frame (keys : InFlightKeys s) (withdrawals : s'.withdrawals = s.withdrawals)
    (inflight : s'.inflightWithdrawals = s.inflightWithdrawals) : InFlightKeys s' := by
  obtain ⟨unique, exact⟩ := keys
  refine ⟨?_, ?_⟩
  · rw [withdrawals]
    exact unique
  · rw [withdrawals, inflight]
    exact exact

/-- The operations that keep the set in step with the states: a `Fail` finds no other withdrawal in
flight with the key of a withdrawal that is `CONFIRMED` or `FAILED` already, and a reorganisation
that can restore its outpoints is not reported for a `CONFIRMED` withdrawal. -/
def KeepsInFlight (call : SagaCall) (s : Store) : Prop :=
  match call with
  | .fail id _ => ∀ wr wallet, s.Finds id wr wallet → wr.state.inFlight = false →
      s.Alone id wr.dedupKey
  | .onReorg id outpoints => ∀ wr, s.withdrawals.get id = some wr →
      (∀ op ∈ outpoints, (s.lockState op).isSome) → wr.state ≠ .confirmed
  | _ => True

/-- Restoring succeeds only on outpoints that are there. -/
theorem lockState_isSome_of_restored {now : Int} {outpoints : List String}
    (restored : (s.restoreUTXOs now outpoints).1 = .ok ()) :
    ∀ op ∈ outpoints, (s.lockState op).isSome := by
  intro op member
  rw [Store.lockState, Option.isSome_map]
  exact Store.present_of_updateUTXOs (Store.setFree now) (fun _ => rfl) restored op member

/-- Every such operation keeps the invariant. -/
theorem InFlightKeys.step {call : SagaCall} {result : Except Err Unit} (keys : InFlightKeys s)
    (keeps : KeepsInFlight call s) (outcome : Outcome svc s call result s') : InFlightKeys s' := by
  cases outcome with
  | refused call err => exact keys
  | @created req wr fresh checked nonce outpoints inflight unclaimed claimed =>
    have unused (wr' : WithdrawalRequest) (found : s.withdrawals.get wr.id = some wr') : False := by
      rw [fresh] at found
      cases found
    refine keys.write rfl (fun id' wr' _ found flying same => ?_)
      (fun wr' found => (unused wr' found).elim) ?_
    · exact unclaimed ((keys.exact _).mpr ⟨id', wr', found, flying, same⟩)
    · refine claimed.trans ?_
      rcases checked with state | state
      · rw [state]
        rfl
      · rw [state, Finset.erase_eq_of_notMem unclaimed]
        rfl
  | @unselected id walletID err =>
    exact keys.frame (s.rollbackPendingNonce_frame walletID .bitcoin (-1)).2.2
      (s.rollbackPendingNonce_inflight walletID .bitcoin (-1))
  | @constructed id wr wr' wallet n ops reserved s' result finds whitelisted reservation signing =>
    obtain ⟨row, constructed⟩ := signing.constructed reservation finds.self
    refine keys.advance finds.withdrawal (by rw [whitelisted]; rfl) constructed.withdrawals
      constructed.id constructed.dedupKey ?_
    rcases constructed.inflight with ⟨state, kept⟩ | ⟨state, cleared⟩
    · have flying : row.state.inFlight = true := by
        rcases state with state | state
        · rw [state, whitelisted]
          rfl
        · rw [state]
          rfl
      rw [kept, if_pos flying]
    · rw [cleared, state]
      rfl
  | @rejected id wr wallet now finds signed err inflight cleared =>
    have frame := s.release_frame now wallet (Service.noncePtr wr) wr.reservedOutpoints
    exact keys.advance finds.withdrawal (by rw [signed]; rfl) (congrArg (Table.put · _) frame.2)
      rfl rfl cleared
  | @accepted id wr wallet now finds signed txHash inflight kept =>
    have frame := s.spend_frame now wr wallet txHash
    have frame' := (s.spend now wr wallet txHash).commit_frame wr wallet
    exact keys.advance finds.withdrawal (by rw [signed]; rfl)
      (congrArg (Table.put · _) (frame'.2.2.trans frame.2.2)) rfl rfl kept
  | @confirmed id txHash wr found broadcast inflight cleared =>
    exact keys.advance found (by rw [broadcast]; rfl) rfl rfl rfl cleared
  | @failed id reason wr wallet now finds inflight cleared =>
    have here : wr.id = id := Table.key_of_get finds.withdrawal
    have frame := s.release_frame now wallet (Service.noncePtr wr) []
    have withdrawals : ((s.release now wallet (Service.noncePtr wr) []).writes
        (Store.setState .failed reason "" "" wr) inflight).withdrawals =
        s.withdrawals.put (Store.setState .failed reason "" "" wr) :=
      congrArg (Table.put · _) frame.2
    cases flying : wr.state.inFlight with
    | true => exact keys.advance finds.withdrawal flying withdrawals rfl rfl cleared
    | false =>
      refine keys.write withdrawals ?_ (fun wr' found => ?_) cleared
      · have alone := keeps wr wallet finds flying
        rwa [← here] at alone
      · have same : s.withdrawals.get wr.id = some wr := by rw [here, finds.withdrawal]
        rw [Option.some.inj (found.symm.trans same)]
        rfl
  | reorged result => exact keys.frame rfl rfl
  | @demoted id outpoints wr now found confirmed inflight kept restored =>
    exact absurd confirmed (keeps wr found (lockState_isSome_of_restored restored))
  | tracked fresh => exact keys.frame rfl rfl
  | handed => exact keys.frame rfl rfl

end Step

/-- In every run of complete operations that keep the set in step, from a store without withdrawals,
at most one withdrawal in flight has given terms, and the set has exactly the keys of the
withdrawals in flight. -/
theorem one_in_flight (svc : Service) (start w : World SagaCall)
    (unused : start.store.withdrawals = .empty) (empty : start.store.inflightWithdrawals = ∅)
    (runs : Runs step svc.body (fun call w => KeepsInFlight call w.store) start w) :
    OneInFlight w.store := by
  have none (id : UUID) (wr : WithdrawalRequest) : start.store.withdrawals.get id ≠ some wr := by
    rw [unused]
    exact nofun
  have initial : InFlightKeys start.store := by
    refine ⟨fun id _ wr _ _ found => absurd found (none id wr), fun key => ?_⟩
    rw [empty]
    refine iff_of_false (Finset.notMem_empty key) ?_
    rintro ⟨id, wr, found, -⟩
    exact none id wr found
  have keys := saga_run runs InFlightKeys initial fun _ _ _ _ keeps keys outcome =>
    keys.step keeps outcome
  exact keys.oneInFlight

/-! ## Worked runs -/

/-- A withdrawal of one wei fails, and another one with the same terms takes its key. -/
def failedAndRepeated : List (SagaCall × Script) :=
  [(.create (sampleEVMRequest "ETH"), accepting 10), (.fail (sampleID 10) "operator", accepting 0),
    (.create (sampleEVMRequest "ETH"), accepting 11)]

/-- The states of the withdrawals after a scripted run, and the number of keys in flight. -/
def statesAfter (calls : List (SagaCall × Script)) : List (UUID × WithdrawalState) × Nat :=
  let s := (sampleService.play calls sampleStart).store
  (s.withdrawals.rows.map fun wr => (wr.id, wr.state), s.inflightWithdrawals.card)

/-- The failed withdrawal leaves its key to the second one. -/
theorem one_in_flight_of_two :
    OneInFlight (sampleService.play failedAndRepeated sampleStart).store ∧
      statesAfter failedAndRepeated =
        ([(sampleID 10, .failed), (sampleID 11, .whitelisted)], 1) := by
  have runs := sampleService.play_runs (w := sampleStart)
    (fun call w => KeepsInFlight call w.store) failedAndRepeated ?_
  · exact ⟨one_in_flight sampleService sampleStart _ rfl rfl runs, by decide +kernel⟩
  · refine ⟨trivial, ?_, trivial, trivial⟩
    -- the only withdrawal is alone with any key
    intro wr wallet finds _ id' wr' differ found
    have rows : (sampleService.play (failedAndRepeated.take 1)
        sampleStart).store.withdrawals.rows.map
        WithdrawalRequest.id = [sampleID 10] := by decide +kernel
    have member := List.mem_map_of_mem (f := WithdrawalRequest.id) (Table.mem_of_get found)
    have only : wr'.id ∈ [sampleID 10] := rows ▸ member
    rw [Table.key_of_get found, List.mem_singleton] at only
    exact absurd only differ

/-- The failed withdrawal is failed once more, and a third one with the same terms is created. -/
def failedTwice : List (SagaCall × Script) :=
  failedAndRepeated ++ [(.fail (sampleID 10) "operator", accepting 0),
    (.create (sampleEVMRequest "ETH"), accepting 12)]

/-- The second `Fail` takes the key of the withdrawal that repeats the failed one, and a third one
with the same terms joins it in flight. -/
theorem two_in_flight :
    statesAfter failedTwice = ([(sampleID 10, .failed), (sampleID 11, .whitelisted),
        (sampleID 12, .whitelisted)], 1) ∧
      ¬OneInFlight (sampleService.play failedTwice sampleStart).store := by
  refine ⟨by decide +kernel, fun one => ?_⟩
  have flying : ∀ n ∈ ([11, 12] : List UInt8),
      ∃ wr ∈ (sampleService.play failedTwice sampleStart).store.withdrawals.rows,
        wr.id = sampleID n ∧ wr.state.inFlight = true ∧ wr.walletID = sampleEVMWallet.id ∧
          wr.toAddress = sampleEVMAddress ∧ wr.amount = "1" ∧ wr.asset = "ETH" := by
    decide +kernel
  obtain ⟨wr, member, key, flies, walletID, toAddress, amount, asset⟩ := flying 11 (by decide)
  obtain ⟨wr', member', key', flies', walletID', toAddress', amount', asset'⟩ :=
    flying 12 (by decide)
  refine one.unique (sampleID 11) (sampleID 12) wr wr' (by decide) (key ▸ Table.get_of_mem member)
    (key' ▸ Table.get_of_mem member') flies flies' ⟨?_, ?_, ?_, ?_⟩
  · rw [walletID, walletID']
  · rw [toAddress, toAddress']
  · rw [amount, amount']
  · rw [asset, asset']

end WalletManagement
