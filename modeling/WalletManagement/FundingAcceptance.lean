import WalletManagement.FundingSafety

/-!
# Requests that the treasury accepted

A failed treasury call leaves its request open for a retry, but `EvaluateAndRequest` takes an open
request as a reason to do nothing. After complete calls, one after the other, it returns without an
error for a hot wallet below its threshold while the treasury has accepted the open request exactly
when every request that was open before had been accepted and, if none was open, the balance is
below the threshold as a `float64` as well.
-/

namespace WalletManagement

open Interaction Data

/-- The treasury client returned no error for a request. -/
def FundingWorld.Accepted (s : FundingWorld) (f : FundingRequest) : Prop :=
  (f.treasuryRequest, .ok ()) ∈ s.sent

/-- A request of the wallet and asset is open, and the treasury accepted it. -/
def FundingWorld.Covered (s : FundingWorld) (walletID : UUID) (asset : String) : Prop :=
  ∃ f, s.store.openFunding walletID asset = [f] ∧ s.Accepted f

/-- A complete call to a service with a treasury client, or a write of another service to wallets
and balances. -/
inductive FundingTurn (s : FundingWorld) : FundingWorld → Prop where
  | call {svc : FundingService} {call : FundingCall} {result : Except Err Unit} {s' : FundingWorld}
    (client : svc.treasury = true) (execution : (svc.body call).Exec fundingStep s result s') :
    FundingTurn s s'
  | elsewhere {s' : FundingWorld} (written : s.Elsewhere s') : FundingTurn s s'

/-- Any number of them, one after the other. -/
abbrev FundingRuns : FundingWorld → FundingWorld → Prop := Relation.ReflTransGen FundingTurn

/-- Complete calls keep at most one request of a wallet and asset open. -/
theorem oneOpen_of_runs {start s : FundingWorld} (single : start.OneOpen)
    (run : FundingRuns start s) : s.OneOpen := by
  induction run with
  | refl => exact single
  | tail _ turn ih =>
    cases turn with
    | call client execution =>
      have alone := execution.mono fun op s answer s' moved =>
        (⟨s, ⟨rfl, rfl⟩, moved⟩ : interleaved op s answer s')
      exact (fundingBody_follows _).exec (fun _ _ _ => trivial)
        (fun _ _ _ _ _ one allowed moved => one.step allowed moved) ih alone
    | elsewhere written =>
      intro walletID asset
      rw [Store.openFunding_congr written.1]
      exact ih walletID asset

/-- The only open request of a wallet and asset. -/
theorem Store.openFunding_eq_singleton {s : Store} {walletID : UUID} {asset : String}
    {f : FundingRequest} (single : (s.openFunding walletID asset).length ≤ 1)
    (member : f ∈ s.openFunding walletID asset) : s.openFunding walletID asset = [f] := by
  cases requests : s.openFunding walletID asset with
  | nil =>
    rw [requests] at member
    cases member
  | cons g rest =>
    rw [requests] at single member
    obtain rfl : rest = [] := List.length_eq_zero_iff.mp (by simpa using single)
    rw [List.mem_singleton.mp member]

/-- Some request is open, and the open ones were accepted. -/
theorem FundingWorld.OneOpen.covered_iff {s : FundingWorld} (one : s.OneOpen) {walletID : UUID}
    {asset : String} : s.Covered walletID asset ↔ s.store.openFunding walletID asset ≠ [] ∧
      ∀ f ∈ s.store.openFunding walletID asset, s.Accepted f := by
  constructor
  · rintro ⟨f, requests, accepted⟩
    rw [requests]
    exact ⟨List.cons_ne_nil f [], fun g member => List.mem_singleton.mp member ▸ accepted⟩
  · rintro ⟨some, accepted⟩
    obtain ⟨f, member⟩ := List.exists_mem_of_ne_nil _ some
    exact ⟨f, Store.openFunding_eq_singleton (one walletID asset) member, accepted f member⟩

namespace FundingService

variable (svc : FundingService) {s s' : FundingWorld} {w : Wallet} {walletID : UUID}
  {asset : String} {result : Except Err Unit}

/-- The confirmed balance that `EvaluateAndRequest` reads. -/
def confirmed (s : Store) (walletID : UUID) (asset : String) : svc.dec.Decimal :=
  match s.getBalance walletID asset with
  | .error _ => svc.dec.zero
  | .ok bal => svc.dec.parseDec bal.confirmed

/-- The number is below the threshold. -/
def Below (confirmed : svc.dec.Decimal) : Prop :=
  svc.floats.above svc.hotWalletMinBalanceUSD (svc.dec.value confirmed)

/-- What `EvaluateAndRequest` does for a wallet that exists. -/
theorem exec_evaluateAndRequest (found : s.store.wallets.get walletID = some w) :
    (svc.evaluateAndRequest walletID asset).Exec fundingStep s result s' ↔
      (svc.evaluate w walletID asset (svc.confirmed s.store walletID asset)).Exec fundingStep s
        result s' := by
  have read : s.store.getWallet walletID = .ok w := by
    rw [Store.getWallet, found]
    rfl
  rw [evaluateAndRequest, Program.exec_read fun _ _ => Iff.rfl, read]
  dsimp only
  rw [Program.exec_read fun _ _ => Iff.rfl, confirmed]
  unfold Store.getBalance
  cases s.store.balances.get (balanceKey walletID asset) with
  | none => exact Iff.rfl
  | some bal => exact Iff.rfl

/-- The end of a request changes nothing. -/
theorem exec_announce {f : FundingRequest}
    (execution : (svc.announce f).Exec fundingStep s result s') : s' = s := by
  unfold announce at execution
  split at execution
  · obtain ⟨answer, middle, rfl, -, rfl⟩ := execution
    rfl
  · exact execution.2.symm

/-- A request that succeeds is stored and was accepted. -/
theorem exec_createRequest {amount reason : String} (client : svc.treasury = true)
    (execution : (svc.createRequest w asset amount reason).Exec fundingStep s (.ok ()) s') :
    ∃ f : FundingRequest, f.walletID = w.id ∧ f.asset = asset ∧ f.state = .requested ∧
      s'.store.fundingReq = s.store.fundingReq.put f ∧ s'.Accepted f := by
  obtain ⟨id, middle, rfl, answer, stored, ⟨created, rfl⟩, execution⟩ := execution
  let f : FundingRequest := ⟨id, w.id, asset, amount, .requested, "", reason⟩
  have created : answer = (middle.store.createFundingRequest f).1 := created
  rcases middle.store.createFundingRequest_cases f with ⟨-, refused⟩ | ⟨-, written⟩
  · rw [refused] at created
    subst created
    cases execution.1
  · rw [written] at created
    subst created
    dsimp only at execution
    rw [if_pos client] at execution
    obtain ⟨answer, asked, rfl, execution⟩ := execution
    cases answer with
    | error err => cases execution.1
    | ok _ =>
      have done := svc.exec_announce execution
      refine ⟨f, rfl, rfl, rfl, ?_, ?_⟩
      · rw [done]
        exact congrArg (fun result => Store.fundingReq result.2) written
      · rw [done]
        exact List.mem_cons_self

end FundingService

section Acceptance

variable {start s : FundingWorld} {svc : FundingService} {w : Wallet} {walletID : UUID}
  {asset : String}

/-- After every run of complete calls with any failures of the treasury, for every hot wallet whose
confirmed balance is below the threshold: whenever `EvaluateAndRequest` returns no error, the
treasury has accepted the request that is then open, if and only if before the call every open
request of the wallet and asset was one that the treasury had accepted and, if there was none, the
balance as a `float64` does not reach the threshold. -/
theorem evaluation_covered_iff (single : start.OneOpen) (run : FundingRuns start s)
    (client : svc.treasury = true) (found : s.store.wallets.get walletID = some w)
    (hot : w.walletType = .hot) (_below : svc.Below (svc.confirmed s.store walletID asset)) :
    (∀ s', (svc.evaluateAndRequest walletID asset).Exec fundingStep s (.ok ()) s' →
        s'.Covered walletID asset) ↔
      (∀ f ∈ s.store.openFunding walletID asset, s.Accepted f) ∧
      (s.store.openFunding walletID asset = [] →
        svc.reaches (svc.confirmed s.store walletID asset) = false) := by
  have one := oneOpen_of_runs single run
  simp only [svc.exec_evaluateAndRequest found]
  unfold FundingService.evaluate
  rw [if_neg (not_not_intro hot)]
  by_cases reached : svc.reaches (svc.confirmed s.store walletID asset) = true
  · -- the call returns at once
    have returns : (∀ s', (pure (.ok ()) : FundingProg (Except Err Unit)).Exec fundingStep
        s (.ok ()) s' → s'.Covered walletID asset) ↔ s.Covered walletID asset :=
      ⟨fun covered => covered s ⟨rfl, rfl⟩, fun covered s' execution => execution.2 ▸ covered⟩
    rw [if_pos reached, returns, one.covered_iff, reached, and_comm]
    simp only [Bool.true_eq_false, imp_false, ne_eq]
  · rw [if_neg reached]
    constructor
    · intro covered
      refine ⟨fun f member => ?_, fun _ => Bool.eq_false_iff.mpr reached⟩
      have unchanged := covered s ⟨.ok f, s, ⟨member, rfl⟩, rfl, rfl⟩
      exact (one.covered_iff.mp unchanged).2 f member
    · rintro ⟨accepted, -⟩ s' ⟨answer, middle, ⟨opened, rfl⟩, execution⟩
      cases answer with
      | ok f =>
        obtain rfl : middle = s' := execution.2
        exact one.covered_iff.mpr ⟨List.ne_nil_of_mem opened, accepted⟩
      | error err =>
        obtain ⟨free, rfl⟩ := opened
        obtain ⟨f, owner, rfl, opened, table, accepted⟩ := svc.exec_createRequest client execution
        have owner : f.walletID = walletID := owner.trans (Table.key_of_get found)
        have member : f ∈ s'.store.openFunding walletID f.asset := by
          rw [Store.mem_openFunding, table]
          exact ⟨Table.get_put_self _ f, owner, rfl, opened⟩
        have single : (s'.store.openFunding walletID f.asset).length ≤ 1 := by
          have counted := Store.length_openFunding_put table walletID f.asset
          have own : f.isOpenFor walletID f.asset = true := by
            simp [FundingRequest.isOpenFor, owner, opened]
          rw [free, own, List.length_nil, if_pos rfl] at counted
          omega
        exact ⟨f, Store.openFunding_eq_singleton single member, accepted⟩

end Acceptance

/-! ## A treasury that is down -/

/-- The evaluation of the Ethereum wallet, which has no balance. -/
abbrev sampleEvaluation : FundingProg (Except Err Unit) :=
  sampleFunding.evaluateAndRequest sampleEVMWallet.id "ETH"

/-- Nothing was asked yet. -/
def fundingStart : FundingWorld := ⟨sampleStart.store, []⟩

/-- The state after an evaluation that the treasury answers with an error. -/
def afterOutage : FundingWorld :=
  (sampleEvaluation.run (handleFunding (sampleID 1) (.error ⟨"treasury down", none⟩))
    fundingStart).2

theorem sample_below (s : Store)
    (unfunded : s.balances.get (balanceKey sampleEVMWallet.id "ETH") = none) :
    sampleFunding.Below (sampleFunding.confirmed s sampleEVMWallet.id "ETH") := by
  have zero : sampleFunding.confirmed s sampleEVMWallet.id "ETH" = (0 : Int) := by
    rw [FundingService.confirmed, Store.getBalance, unfunded]
    rfl
  rw [zero]
  show ((0 : Int) : ℚ) < ((1000 : Int) : ℚ)
  norm_num

/-- The treasury fails for the first evaluation of a hot wallet below its threshold. The second one
returns no error and asks nothing, although the treasury has accepted no request. -/
theorem failed_request_suppresses : ∃ s s' : FundingWorld, FundingRuns fundingStart s ∧
    s.store.wallets.get sampleEVMWallet.id = some sampleEVMWallet ∧
    sampleEVMWallet.walletType = .hot ∧
    sampleFunding.Below (sampleFunding.confirmed s.store sampleEVMWallet.id "ETH") ∧
    sampleEvaluation.Exec fundingStep s (.ok ()) s' ∧
    s'.sent = s.sent ∧ ¬ s'.Covered sampleEVMWallet.id "ETH" := by
  have outage : sampleEvaluation.Exec fundingStep fundingStart _ afterOutage :=
    Program.exec_run (handleFunding_follows _ _) sampleEvaluation fundingStart
  have turn : FundingTurn fundingStart afterOutage := @FundingTurn.call _ sampleFunding
    (.evaluateAndRequest sampleEVMWallet.id "ETH") _ _ rfl outage
  have second := Program.exec_run (handleFunding_follows (sampleID 2) (.ok ())) sampleEvaluation
    afterOutage
  have returned : (sampleEvaluation.run (handleFunding (sampleID 2) (.ok ())) afterOutage).1 =
    .ok () := by decide +kernel
  rw [returned] at second
  have unasked : (sampleEvaluation.run (handleFunding (sampleID 2) (.ok ())) afterOutage).2.sent =
    afterOutage.sent := by decide +kernel
  refine ⟨afterOutage, _, .single turn, by decide +kernel, rfl, sample_below _ (by decide +kernel),
    second, unasked, ?_⟩
  rintro ⟨f, -, accepted⟩
  have failed : ∀ entry ∈ afterOutage.sent, entry.2.isOk = false := by decide +kernel
  rw [FundingWorld.Accepted, unasked] at accepted
  cases failed _ accepted

/-- The first evaluation succeeds with a treasury that accepts, and its request is covered. -/
theorem evaluation_covered_iff_first :
    (sampleEvaluation.run (handleFunding (sampleID 1) (.ok ())) fundingStart).1 = .ok () ∧
      (sampleEvaluation.run (handleFunding (sampleID 1) (.ok ())) fundingStart).2.Covered
        sampleEVMWallet.id "ETH" := by
  have returned : (sampleEvaluation.run (handleFunding (sampleID 1) (.ok ())) fundingStart).1 =
    .ok () := by decide +kernel
  have execution := Program.exec_run (handleFunding_follows (sampleID 1) (.ok ())) sampleEvaluation
    fundingStart
  rw [returned] at execution
  have single : fundingStart.OneOpen := fun _ _ => Nat.zero_le 1
  have found : fundingStart.store.wallets.get sampleEVMWallet.id = some sampleEVMWallet := by
    decide +kernel
  have covered := (@evaluation_covered_iff fundingStart fundingStart sampleFunding sampleEVMWallet
    sampleEVMWallet.id "ETH" single .refl rfl found rfl (sample_below _ (by decide +kernel))).mpr
    ⟨nofun, fun _ => by decide +kernel⟩
  exact ⟨returned, covered _ execution⟩

end WalletManagement
