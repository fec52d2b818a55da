import WalletManagement.SagaOutcome
import WalletManagement.Scripted

/-!
# Nonces of live withdrawals

A reservation, its rollback and the nonce recorded in a withdrawal are three pieces of state
that the saga updates separately. In a run of complete operations no two live withdrawals of an
EVM wallet carry the same nonce, as long as no `Fail` gives back a nonce that belongs to another
withdrawal by now. `Fail` accepts a withdrawal in any state, so such a run exists.
-/

namespace WalletManagement

open Interaction Data Go

/-! ## The counters after each part of an operation -/

section Counters

variable {s s' : Store} {wallet : Wallet} {wr : WithdrawalRequest}

/-- The counters depend on the nonce rows only. -/
theorem pending_congr (same : s'.nonces = s.nonces) (walletID : UUID) (chain : Chain) :
    s'.pending walletID chain = s.pending walletID chain := by
  simp only [Store.pending, Store.nonce, same]

theorem broadcasted_congr (same : s'.nonces = s.nonces) (walletID : UUID) (chain : Chain) :
    s'.broadcasted walletID chain = s.broadcasted walletID chain := by
  simp only [Store.broadcasted, Store.nonce, same]

/-- A release leaves a pending nonce alone, or takes back the nonce reserved last. -/
theorem pending_release (s : Store) (now : Int) (wallet : Wallet) (n : Int)
    (ops : List String) (walletID : UUID) (chain : Chain) :
    (s.release now wallet n ops).pending walletID chain = s.pending walletID chain ∨
      (0 ≤ n ∧ wallet.id = walletID ∧ wallet.chain = chain ∧ chain.isEVM = true ∧
        s.pending walletID chain = wrapInt64 (n + 1) ∧
        (s.release now wallet n ops).pending walletID chain = n) := by
  let rolled := if 0 ≤ n && wallet.chain.isEVM then
    (s.rollbackPendingNonce wallet.id wallet.chain n).2 else s
  have released : (s.release now wallet n ops).pending walletID chain =
      rolled.pending walletID chain := by
    apply pending_congr
    unfold Store.release
    by_cases empty : ops = [] <;> simp [empty, rolled]
  rw [released]
  by_cases yes : (0 ≤ n && wallet.chain.isEVM) = true
  · have same : rolled = (s.rollbackPendingNonce wallet.id wallet.chain n).2 := if_pos yes
    obtain ⟨natural, evm⟩ : 0 ≤ n ∧ wallet.chain.isEVM = true := by simpa using yes
    rw [same]
    rcases s.rollbackPendingNonce_cases wallet.id wallet.chain n with kept | ⟨last, moved, -⟩
    · rw [kept]
      exact .inl rfl
    · rw [moved walletID chain]
      by_cases row : wallet.id = walletID ∧ wallet.chain = chain
      · rw [if_pos row]
        obtain ⟨rfl, rfl⟩ := row
        exact .inr ⟨natural, rfl, rfl, evm, last, rfl⟩
      · rw [if_neg row]
        exact .inl rfl
  · have same : rolled = s := if_neg yes
    rw [same]
    exact .inl rfl

/-- A release leaves the broadcast nonces alone. -/
theorem broadcasted_release (s : Store) (now : Int) (wallet : Wallet) (n : Int)
    (ops : List String) (walletID : UUID) (chain : Chain) :
    (s.release now wallet n ops).broadcasted walletID chain = s.broadcasted walletID chain := by
  have released : (s.release now wallet n ops).broadcasted walletID chain =
      (if 0 ≤ n && wallet.chain.isEVM then
        (s.rollbackPendingNonce wallet.id wallet.chain n).2 else s).broadcasted walletID chain := by
    apply broadcasted_congr
    unfold Store.release
    by_cases empty : ops = [] <;> simp [empty]
  rw [released]
  split
  · exact s.broadcasted_rollback wallet.id wallet.chain n walletID chain
  · rfl

/-- An accepted transaction leaves the pending nonces alone. -/
theorem pending_settled (s : Store) (now : Int) (wr : WithdrawalRequest) (wallet : Wallet)
    (txHash : String) (walletID : UUID) (chain : Chain) :
    ((s.spend now wr wallet txHash).commit wr wallet).pending walletID chain =
      s.pending walletID chain := by
  have spent := pending_congr (s.spend_frame now wr wallet txHash).2.1 walletID chain
  unfold Store.commit
  split
  · split
    · rw [Store.pending_advance, spent]
    · exact spent
  · exact spent

end Counters

/-! ## No collisions -/

/-- Two withdrawals of one EVM wallet that are both live carry different nonces. -/
def NoCollision (s : Store) : Prop :=
  ∀ id id' wr wr' wallet, id ≠ id' → s.Finds id wr wallet → s.Finds id' wr' wallet →
    wallet.chain.isEVM = true → wr.state.live = true → wr'.state.live = true →
    wr.nonceValue ≠ wr'.nonceValue

/-- The invariant of the nonces: live withdrawals carry different nonces below the pending one. -/
structure NonceSafe (s : Store) : Prop where
  /-- The pending nonces of EVM chains are natural numbers that fit. -/
  inRange : ∀ walletID chain, chain.isEVM = true →
    0 ≤ s.pending walletID chain ∧ s.pending walletID chain < 2 ^ 63
  /-- Every recorded nonce is a natural number that fits. -/
  recorded : ∀ id wr n, s.withdrawals.get id = some wr → wr.nonceValue = some n →
    0 ≤ n ∧ n < 2 ^ 63
  /-- A live withdrawal of an EVM wallet carries a nonce below the pending one. -/
  below : ∀ id wr wallet, s.Finds id wr wallet → wallet.chain.isEVM = true →
    wr.state.live = true →
    ∃ n, wr.nonceValue = some n ∧ n < s.pending wr.walletID wallet.chain
  /-- No two of them carry the same nonce. -/
  distinct : NoCollision s

/-- The nonce that a live withdrawal carries is below the pending one. -/
theorem NonceSafe.lt_pending {s : Store} {id : UUID} {wr : WithdrawalRequest} {wallet : Wallet}
    {n : Int} (safe : NonceSafe s) (finds : s.Finds id wr wallet)
    (evm : wallet.chain.isEVM = true) (live : wr.state.live = true)
    (nonce : wr.nonceValue = some n) : n < s.pending wr.walletID wallet.chain := by
  obtain ⟨m, carried, bound⟩ := safe.below id wr wallet finds evm live
  rwa [← Option.some.inj (carried.symm.trans nonce)]

/-- Writing the row of one withdrawal keeps the invariant, if the nonces of the other live
withdrawals stay below the pending ones and the written row, when it is live, carries a nonce of
its own. -/
theorem NonceSafe.write {s s' : Store} {row : WithdrawalRequest} (safe : NonceSafe s)
    (wallets : s'.wallets = s.wallets) (withdrawals : s'.withdrawals = s.withdrawals.put row)
    (inRange : ∀ walletID chain, chain.isEVM = true →
      0 ≤ s'.pending walletID chain ∧ s'.pending walletID chain < 2 ^ 63)
    (recorded : ∀ n, row.nonceValue = some n → 0 ≤ n ∧ n < 2 ^ 63)
    (others : ∀ id wr wallet n, id ≠ row.id → s.Finds id wr wallet →
      wallet.chain.isEVM = true → wr.state.live = true → wr.nonceValue = some n →
      n < s'.pending wr.walletID wallet.chain)
    (own : ∀ wallet, row.state.live = true → s.wallets.get row.walletID = some wallet →
      wallet.chain.isEVM = true → ∃ n, row.nonceValue = some n ∧
        n < s'.pending row.walletID wallet.chain ∧
        ∀ id wr, id ≠ row.id → s.Finds id wr wallet → wr.state.live = true →
          wr.nonceValue ≠ some n) : NonceSafe s' := by
  refine ⟨inRange, fun id wr n found nonce => ?_, fun id wr wallet finds evm live => ?_, ?_⟩
  · rw [withdrawals] at found
    rcases Table.get_put_cases found with ⟨-, rfl⟩ | ⟨-, found⟩
    · exact recorded n nonce
    · exact safe.recorded id wr n found nonce
  · rcases finds.of_put wallets withdrawals with ⟨-, rfl, owned⟩ | ⟨other, finds⟩
    · obtain ⟨n, nonce, bound, -⟩ := own wallet live owned evm
      exact ⟨n, nonce, bound⟩
    · obtain ⟨n, nonce, -⟩ := safe.below id wr wallet finds evm live
      exact ⟨n, nonce, others id wr wallet n other finds evm live nonce⟩
  · intro id id' wr wr' wallet differ finds finds' evm live live'
    rcases finds.of_put wallets withdrawals with ⟨rfl, rfl, owned⟩ | ⟨other, finds⟩
    · rcases finds'.of_put wallets withdrawals with ⟨rfl, rfl, -⟩ | ⟨other', finds'⟩
      · exact absurd rfl differ
      · obtain ⟨n, nonce, -, unique⟩ := own wallet live owned evm
        rw [nonce]
        exact fun h => unique id' wr' other' finds' live' h.symm
    · rcases finds'.of_put wallets withdrawals with ⟨rfl, rfl, owned⟩ | ⟨other', finds'⟩
      · obtain ⟨n, nonce, -, unique⟩ := own wallet live' owned evm
        rw [nonce]
        exact unique id wr other finds live
      · exact safe.distinct id id' wr wr' wallet differ finds finds' evm live live'

/-- The next nonce after a recorded one, when it is a pending one. -/
theorem succ_of_pending {n p : Int} (low : 0 ≤ n) (high : n < 2 ^ 63) (natural : 0 ≤ p)
    (last : p = wrapInt64 (n + 1)) : p = n + 1 := by
  by_cases fits : n + 1 < 2 ^ 63
  · rw [last]
    exact wrapInt64_of_inInt64 ⟨by omega, fits⟩
  · have top : n + 1 = 2 ^ 63 := by omega
    have wrapped : wrapInt64 (2 ^ 63) = -2 ^ 63 := by decide
    rw [last, top, wrapped] at natural
    omega

/-- Withdrawals of one wallet have the same wallet record. -/
theorem Store.Finds.wallet_eq {s : Store} {id id' : UUID} {wr wr' : WithdrawalRequest}
    {wallet wallet' : Wallet} (finds : s.Finds id wr wallet) (finds' : s.Finds id' wr' wallet')
    (same : wallet.id = wr'.walletID) : wallet' = wallet := by
  have key : wallet.id = wr.walletID := Table.key_of_get finds.wallet
  have found := finds'.wallet
  rw [← same, key, finds.wallet] at found
  exact (Option.some.inj found).symm

/-- Giving back the nonce of a withdrawal, if it was the last one reserved and no other live
withdrawal of the wallet carries it, leaves the other live nonces below the pending ones. -/
theorem NonceSafe.release {s : Store} {id : UUID} {wr : WithdrawalRequest} {wallet : Wallet}
    (safe : NonceSafe s) (finds : s.Finds id wr wallet)
    (unshared : ∀ n id' wr', wr.nonceValue = some n →
      s.pending wr.walletID wallet.chain = n + 1 → id' ≠ id → s.Finds id' wr' wallet →
      wallet.chain.isEVM = true → wr'.state.live = true → wr'.nonceValue ≠ some n)
    (now : Int) (ops : List String) :
    (∀ walletID chain, chain.isEVM = true →
      0 ≤ (s.release now wallet (Service.noncePtr wr) ops).pending walletID chain ∧
        (s.release now wallet (Service.noncePtr wr) ops).pending walletID chain < 2 ^ 63) ∧
      ∀ id' wr' wallet' m, id' ≠ id → s.Finds id' wr' wallet' → wallet'.chain.isEVM = true →
        wr'.state.live = true → wr'.nonceValue = some m →
        m < (s.release now wallet (Service.noncePtr wr) ops).pending wr'.walletID
          wallet'.chain := by
  have own (natural : 0 ≤ Service.noncePtr wr) : wr.nonceValue = some (Service.noncePtr wr) := by
    cases nonce : wr.nonceValue with
    | none => simp [Service.noncePtr, nonce] at natural
    | some n => simp [Service.noncePtr, nonce]
  constructor
  · intro walletID chain evm
    rcases pending_release s now wallet (Service.noncePtr wr) ops walletID chain with
      same | ⟨natural, -, -, -, -, moved⟩
    · rw [same]
      exact safe.inRange walletID chain evm
    · rw [moved]
      exact safe.recorded id wr _ finds.withdrawal (own natural)
  · intro id' wr' wallet' m other finds' evm live nonce
    have bound := safe.lt_pending finds' evm live nonce
    rcases pending_release s now wallet (Service.noncePtr wr) ops wr'.walletID wallet'.chain with
      kept | ⟨natural, walletID, -, -, last, moved⟩
    · rwa [kept]
    · -- the rolled back row is the one of this withdrawal, so its nonce is not the last one
      have shared : wallet' = wallet := finds.wallet_eq finds' walletID
      subst shared
      have key : wallet'.id = wr.walletID := Table.key_of_get finds.wallet
      have range := safe.recorded id wr _ finds.withdrawal (own natural)
      have pending := succ_of_pending range.1 range.2 (safe.inRange _ _ evm).1 last
      have differ := unshared _ id' wr' (own natural) (by rw [← key, walletID, pending]) other
        finds' evm live
      rw [nonce] at differ
      have unequal : m ≠ Service.noncePtr wr := fun h => differ (congrArg some h)
      rw [moved]
      omega

/-! ## One operation -/

/-- The condition on an operation and the state before it under which the nonces stay safe: a
reservation still fits the counter, and a `Fail` of a withdrawal that is not live does not find
its recorded nonce to be the last one reserved while a live withdrawal of the wallet carries
it. -/
def NonceGuard : SagaCall → Store → Prop
  | .constructAndSign id, s => ∀ wr wallet, s.Finds id wr wallet → wallet.chain.isEVM = true →
      s.pending wr.walletID wallet.chain < 2 ^ 63 - 1
  | .reserveNonce walletID chain, s => chain.isEVM = true → s.pending walletID chain < 2 ^ 63 - 1
  | .fail id _, s => ∀ wr wallet n id' wr', s.Finds id wr wallet → wallet.chain.isEVM = true →
      wr.state.live = false → wr.nonceValue = some n → s.pending wr.walletID wallet.chain = n + 1 →
      s.Finds id' wr' wallet → wr'.state.live = true → wr'.nonceValue ≠ some n
  | _, _ => True

section Step

variable {svc : Service} {s s' : Store} {wr wr' row : WithdrawalRequest} {wallet : Wallet} {n : Int}
  {ops : List String} {reserved : Store}

/-- The pending nonces after a reservation: unchanged, or one more for the row of the wallet. -/
theorem Reservation.pending {order : SortSlice largerValue}
    (reservation : Reservation order s wr wallet n ops wr' reserved)
    (room : wallet.chain.isEVM = true → 0 ≤ s.pending wr.walletID wallet.chain ∧
      s.pending wr.walletID wallet.chain < 2 ^ 63 - 1)
    (walletID : UUID) (chain : Chain) :
    reserved.pending walletID chain = s.pending walletID chain ∨
      (wr.walletID = walletID ∧ wallet.chain = chain ∧
        reserved.pending walletID chain = s.pending walletID chain + 1) := by
  cases reservation with
  | nonce evm =>
    obtain ⟨low, high⟩ := room evm
    have moved := s.pending_increment wr.walletID wallet.chain walletID chain
    by_cases here : wr.walletID = walletID ∧ wallet.chain = chain
    · rw [if_pos here, wrapInt64_of_inInt64 ⟨by omega, by omega⟩] at moved
      obtain ⟨rfl, rfl⟩ := here
      exact .inr ⟨rfl, rfl, moved⟩
    · rw [if_neg here] at moved
      exact .inl moved
  | outpoints bitcoin selected => exact .inl (pending_congr (s.lockUTXOs_frame _ ops).2.1 ..)
  | nothing other notBitcoin => exact .inl rfl

/-- Only a reservation of a nonce hands out a natural number, the pending one. -/
theorem Reservation.nonce_eq {order : SortSlice largerValue}
    (reservation : Reservation order s wr wallet n ops wr' reserved) (natural : 0 ≤ n) :
    n = s.pending wr.walletID wallet.chain := by
  cases reservation with
  | nonce evm => rfl
  | outpoints bitcoin selected => omega
  | nothing other notBitcoin => omega

/-- A `ConstructAndSign` never lowers a pending nonce, and raises it by at most one. -/
theorem Constructed.pending {order : SortSlice largerValue}
    (constructed : Constructed s reserved s' wr wr' row wallet n ops)
    (reservation : Reservation order s wr wallet n ops wr' reserved)
    (owned : wallet.id = wr.walletID)
    (room : wallet.chain.isEVM = true → 0 ≤ s.pending wr.walletID wallet.chain ∧
      s.pending wr.walletID wallet.chain < 2 ^ 63 - 1)
    (walletID : UUID) (chain : Chain) :
    s'.pending walletID chain = s.pending walletID chain ∨
      (wr.walletID = walletID ∧ wallet.chain = chain ∧
        s'.pending walletID chain = s.pending walletID chain + 1) := by
  have before := reservation.pending room walletID chain
  rcases constructed.ends with ⟨-, same, -⟩ | ⟨-, now, same, -⟩
  · rwa [pending_congr same]
  · rw [pending_congr same]
    rcases pending_release reserved now wallet n ops walletID chain with
      kept | ⟨natural, key, same, -, -, moved⟩
    · rwa [kept]
    · left
      rw [moved, reservation.nonce_eq natural, ← same, ← key, owned]

/-- A signed withdrawal of an EVM wallet carries the nonce that was pending, which is not
pending any more. -/
theorem Constructed.signed {order : SortSlice largerValue}
    (constructed : Constructed s reserved s' wr wr' row wallet n ops)
    (reservation : Reservation order s wr wallet n ops wr' reserved)
    (room : wallet.chain.isEVM = true → 0 ≤ s.pending wr.walletID wallet.chain ∧
      s.pending wr.walletID wallet.chain < 2 ^ 63 - 1)
    (whitelisted : wr.state = .whitelisted) (live : row.state.live = true)
    (evm : wallet.chain.isEVM = true) :
    row.nonceValue = some (s.pending wr.walletID wallet.chain) ∧
      s'.pending wr.walletID wallet.chain = s.pending wr.walletID wallet.chain + 1 := by
  have kept : s'.nonces = reserved.nonces := by
    rcases constructed.ends with ⟨-, same, -⟩ | ⟨dead, -⟩
    · exact same
    · rcases dead with same | same
      · rw [same, whitelisted] at live
        cases live
      · rw [same] at live
        cases live
  obtain ⟨low, high⟩ := room evm
  rw [constructed.nonceValue, pending_congr kept]
  cases reservation with
  | nonce _ =>
    have moved := s.pending_increment wr.walletID wallet.chain wr.walletID wallet.chain
    rw [if_pos ⟨rfl, rfl⟩, wrapInt64_of_inInt64 ⟨by omega, by omega⟩] at moved
    exact ⟨rfl, moved⟩
  | outpoints bitcoin selected =>
    rw [bitcoin, Chain.not_isEVM_bitcoin] at evm
    cases evm
  | nothing other notBitcoin =>
    rw [other] at evm
    cases evm

/-- Nothing happens to the withdrawals, and no pending nonce of an EVM chain goes down. -/
theorem NonceSafe.frame (safe : NonceSafe s) (wallets : s'.wallets = s.wallets)
    (withdrawals : s'.withdrawals = s.withdrawals)
    (grows : ∀ walletID chain, chain.isEVM = true →
      s.pending walletID chain ≤ s'.pending walletID chain ∧
        s'.pending walletID chain < 2 ^ 63) : NonceSafe s' := by
  have finds (id : UUID) (wr : WithdrawalRequest) (wallet : Wallet) (h : s'.Finds id wr wallet) :
      s.Finds id wr wallet := ⟨withdrawals ▸ h.withdrawal, wallets ▸ h.wallet⟩
  refine ⟨fun walletID chain evm => ?_, fun id wr n found => ?_,
    fun id wr wallet found evm live => ?_,
    fun id id' wr wr' wallet differ found found' => ?_⟩
  · have low := (safe.inRange walletID chain evm).1
    have high := grows walletID chain evm
    exact ⟨low.trans high.1, high.2⟩
  · rw [withdrawals] at found
    exact safe.recorded id wr n found
  · obtain ⟨n, nonce, bound⟩ := safe.below id wr wallet (finds id wr wallet found) evm live
    exact ⟨n, nonce, bound.trans_le (grows wr.walletID wallet.chain evm).1⟩
  · exact safe.distinct id id' wr wr' wallet differ (finds id wr wallet found)
      (finds id' wr' wallet found')

/-- The row of a withdrawal that gives up its nonce, with the counters after the release. -/
theorem NonceSafe.release_write {id : UUID} (safe : NonceSafe s) (finds : s.Finds id wr wallet)
    (unshared : ∀ n id' wr', wr.nonceValue = some n →
      s.pending wr.walletID wallet.chain = n + 1 → id' ≠ id → s.Finds id' wr' wallet →
      wallet.chain.isEVM = true → wr'.state.live = true → wr'.nonceValue ≠ some n)
    (now : Int) (reason : String) (ops : List String) (inflight : Finset String) :
    NonceSafe ((s.release now wallet (Service.noncePtr wr) ops).writes
      (Store.setState .failed reason "" "" wr) inflight) := by
  obtain ⟨inRange, others⟩ := safe.release finds unshared now ops
  have frame := s.release_frame now wallet (Service.noncePtr wr) ops
  have key : wr.id = id := Table.key_of_get finds.withdrawal
  refine safe.write frame.1 (congrArg (Table.put · _) frame.2) inRange
    (fun n nonce => safe.recorded id wr n finds.withdrawal nonce)
    (fun id' wr' wallet' n other => others id' wr' wallet' n (by rwa [← key])) ?_
  intro _ live
  cases live

/-- A live withdrawal takes another live state; no counter moves. -/
theorem NonceSafe.advance {id : UUID} (safe : NonceSafe s)
    (found : s.withdrawals.get id = some wr) (live : wr.state.live = true)
    (wallets : s'.wallets = s.wallets) (withdrawals : s'.withdrawals = s.withdrawals.put row)
    (same : row.id = wr.id ∧ row.walletID = wr.walletID ∧ row.nonceValue = wr.nonceValue)
    (pending : ∀ walletID chain, s'.pending walletID chain = s.pending walletID chain) :
    NonceSafe s' := by
  obtain ⟨rowID, walletID, nonceValue⟩ := same
  have key : wr.id = id := Table.key_of_get found
  refine safe.write wallets withdrawals (fun walletID chain evm => ?_)
    (fun n nonce => safe.recorded id wr n found (by rw [← nonceValue, nonce]))
    (fun id' wr' wallet n other finds evm live nonce => ?_) fun wallet _ owned evm => ?_
  · rw [pending]
    exact safe.inRange walletID chain evm
  · rw [pending]
    exact safe.lt_pending finds evm live nonce
  · rw [walletID] at owned ⊢
    obtain ⟨n, nonce, bound⟩ := safe.below id wr wallet ⟨found, owned⟩ evm live
    refine ⟨n, nonceValue.trans nonce, by rwa [pending], fun id' wr' other finds' live' h => ?_⟩
    rw [rowID, key] at other
    exact safe.distinct id' id wr' wr wallet other finds' ⟨found, owned⟩ evm live' live
      (h.trans nonce.symm)

/-- The counter of a wallet that a reservation still fits. -/
theorem NonceSafe.room (safe : NonceSafe s)
    (fits : wallet.chain.isEVM = true → s.pending wr.walletID wallet.chain < 2 ^ 63 - 1)
    (evm : wallet.chain.isEVM = true) : 0 ≤ s.pending wr.walletID wallet.chain ∧
      s.pending wr.walletID wallet.chain < 2 ^ 63 - 1 :=
  ⟨(safe.inRange wr.walletID wallet.chain evm).1, fits evm⟩

/-- A `ConstructAndSign` hands out the pending nonce, which no live withdrawal carries. -/
theorem NonceSafe.construct {id : UUID} {order : SortSlice largerValue} (safe : NonceSafe s)
    (finds : s.Finds id wr wallet) (whitelisted : wr.state = .whitelisted)
    (reservation : Reservation order s wr wallet n ops wr' reserved)
    (constructed : Constructed s reserved s' wr wr' row wallet n ops)
    (fits : wallet.chain.isEVM = true → s.pending wr.walletID wallet.chain < 2 ^ 63 - 1) :
    NonceSafe s' := by
  have owned : wallet.id = wr.walletID := Table.key_of_get finds.wallet
  have room := safe.room fits
  have pending := constructed.pending reservation owned room
  refine safe.write constructed.wallets constructed.withdrawals (fun walletID chain evm => ?_)
    (fun m nonce => ?_) (fun id' wr' wallet' m _ finds' evm live nonce => ?_)
    fun wallet' live owned' evm => ?_
  · have range := safe.inRange walletID chain evm
    rcases pending walletID chain with same | ⟨rfl, rfl, moved⟩
    · rwa [same]
    · have := room evm
      omega
  · rw [constructed.nonceValue] at nonce
    cases reservation with
    | nonce evm =>
      have range := safe.inRange wr.walletID wallet.chain evm
      cases nonce
      exact range
    | outpoints bitcoin selected => exact safe.recorded id wr m finds.withdrawal nonce
    | nothing other notBitcoin => exact safe.recorded id wr m finds.withdrawal nonce
  · have bound := safe.lt_pending finds' evm live nonce
    rcases pending wr'.walletID wallet'.chain with same | ⟨-, -, moved⟩ <;> omega
  · rw [constructed.walletID] at owned' ⊢
    have shared : wallet' = wallet := Option.some.inj (owned'.symm.trans finds.wallet)
    subst shared
    obtain ⟨nonce, moved⟩ := constructed.signed reservation room whitelisted live evm
    refine ⟨_, nonce, by omega, fun id' wr' _ finds' live' same => ?_⟩
    -- every live nonce of the wallet was below the one that is handed out here
    have bound := safe.lt_pending finds' evm live' same
    have key' : wallet'.id = wr'.walletID := Table.key_of_get finds'.wallet
    rw [← key', owned] at bound
    omega

/-- A reservation that fits lowers no pending nonce of an EVM chain. -/
theorem NonceSafe.pending_handed {walletID : UUID} {chain : Chain} (safe : NonceSafe s)
    (fits : chain.isEVM = true → s.pending walletID chain < 2 ^ 63 - 1) (walletID' : UUID)
    {chain' : Chain} (evm : chain'.isEVM = true) :
    s.pending walletID' chain' ≤
        (s.incrementPendingNonce walletID chain).2.pending walletID' chain' ∧
      (s.incrementPendingNonce walletID chain).2.pending walletID' chain' < 2 ^ 63 := by
  have range := safe.inRange walletID' chain' evm
  rw [s.pending_increment]
  by_cases here : walletID = walletID' ∧ chain = chain'
  · obtain ⟨rfl, rfl⟩ := here
    have room := fits evm
    rw [if_pos ⟨rfl, rfl⟩, wrapInt64_of_inInt64 ⟨by omega, by omega⟩]
    omega
  · rw [if_neg here]
    exact ⟨le_rfl, range.2⟩

/-- Every operation within the guard keeps the invariant. -/
theorem NonceSafe.step {call : SagaCall} {result : Except Err Unit} (safe : NonceSafe s)
    (guard : NonceGuard call s) (outcome : Outcome svc s call result s') : NonceSafe s' := by
  cases outcome with
  | refused call err => exact safe
  | @created req wr fresh checked nonce outpoints inflight =>
    have dead : wr.state.live = false := by rcases checked with h | h <;> rw [h] <;> rfl
    refine safe.write rfl rfl safe.inRange (fun n h => ?_)
      (fun id wr wallet n _ finds evm live nonce => safe.lt_pending finds evm live nonce)
      (fun _ live => ?_)
    · rw [nonce] at h
      cases h
    · rw [dead] at live
      cases live
  | @unselected id walletID err =>
    have frame := s.rollbackPendingNonce_frame walletID .bitcoin (-1)
    refine safe.frame frame.1 frame.2.2 fun walletID' chain evm => ?_
    rw [s.pending_rollback_bitcoin walletID (-1) walletID' evm]
    exact ⟨le_rfl, (safe.inRange walletID' chain evm).2⟩
  | @constructed id wr wr' wallet n ops reserved s' result finds whitelisted reservation signing =>
    obtain ⟨row, constructed⟩ := signing.constructed reservation finds.self
    exact safe.construct finds whitelisted reservation constructed (guard wr wallet finds)
  | @rejected id wr wallet now finds signed err inflight =>
    have live : wr.state.live = true := by rw [signed]; rfl
    refine safe.release_write finds
      (fun n id' wr' nonce _ other finds' evm live' same => ?_) _ _ _ _
    exact safe.distinct id' id wr' wr wallet other finds' finds evm live' live
      (same.trans nonce.symm)
  | @accepted id wr wallet now finds signed txHash inflight =>
    have live : wr.state.live = true := by rw [signed]; rfl
    have frame := s.spend_frame now wr wallet txHash
    have frame' := (s.spend now wr wallet txHash).commit_frame wr wallet
    refine safe.advance finds.withdrawal live (frame'.1.trans frame.1)
      (congrArg (Table.put · _) (frame'.2.2.trans frame.2.2))
      ⟨rfl, rfl, rfl⟩ fun walletID chain => ?_
    exact pending_settled s now wr wallet txHash walletID chain
  | @confirmed id txHash wr found broadcast inflight =>
    have live : wr.state.live = true := by rw [broadcast]; rfl
    exact safe.advance found live rfl rfl ⟨rfl, rfl, rfl⟩ fun _ _ => rfl
  | @failed id reason wr wallet now finds inflight =>
    refine safe.release_write finds
      (fun n id' wr' nonce last other finds' evm live' same => ?_) _ _ _ _
    cases live : wr.state.live with
    | true =>
      exact safe.distinct id' id wr' wr wallet other finds' finds evm live' live
        (same.trans nonce.symm)
    | false => exact guard wr wallet n id' wr' finds evm live nonce last finds' live' same
  | @reorged id outpoints now result =>
    have frame := s.restoreUTXOs_frame now outpoints
    exact safe.frame frame.1 frame.2.2.2 fun walletID chain evm =>
      ⟨le_rfl, (safe.inRange walletID chain evm).2⟩
  | @demoted id outpoints wr now found confirmed inflight =>
    have live : wr.state.live = true := by rw [confirmed]; rfl
    exact safe.advance found live rfl rfl ⟨rfl, rfl, rfl⟩ fun _ _ => rfl
  | @tracked u now fresh =>
    exact safe.frame rfl rfl fun walletID chain evm => ⟨le_rfl, (safe.inRange walletID chain evm).2⟩
  | @handed walletID chain =>
    exact safe.frame rfl rfl fun walletID' chain' evm => safe.pending_handed guard walletID' evm

end Step

/-! ## Runs -/

/-- Nothing has happened yet: no withdrawals, no nonces. -/
structure World.Fresh (w : World SagaCall) : Prop where
  /-- There are no withdrawals. -/
  withdrawals : w.store.withdrawals = .empty
  /-- No nonce was reserved. -/
  nonces : w.store.nonces = .empty

/-- The invariant holds before anything has happened. -/
theorem World.Fresh.nonceSafe {w : World SagaCall} (fresh : w.Fresh) : NonceSafe w.store := by
  have none (id : UUID) (wr : WithdrawalRequest) : w.store.withdrawals.get id ≠ some wr := by
    rw [fresh.withdrawals]
    exact nofun
  refine ⟨fun walletID chain _ => ?_, fun id wr n found => absurd found (none id wr),
    fun id wr wallet finds => absurd finds.withdrawal (none id wr),
    fun id _ wr _ wallet _ finds => absurd finds.withdrawal (none id wr)⟩
  have zero : w.store.pending walletID chain = 0 := by
    simp [Store.pending, Store.nonce, fresh.nonces]
  omega

/-- The invariant holds along every run within the guard. -/
theorem nonceSafe_of_runs {svc : Service} {start w : World SagaCall} (fresh : start.Fresh)
    (runs : Runs step svc.body (fun call w => NonceGuard call w.store) start w) :
    NonceSafe w.store :=
  saga_run runs NonceSafe fresh.nonceSafe fun _ _ _ _ guard safe outcome => safe.step guard outcome

/-- In every run whose operations all meet the guard, live withdrawals of one EVM wallet carry
different nonces. -/
theorem no_collision_of_guarded (svc : Service) (start w : World SagaCall) (fresh : start.Fresh)
    (runs : Runs step svc.body (fun call w => NonceGuard call w.store) start w) :
    NoCollision w.store := (nonceSafe_of_runs fresh runs).distinct

/-- A reservation fits the counters when every row of the nonces has room. -/
theorem pending_lt_of_rows {s : Store} {bound : Int} (positive : 0 < bound)
    (rows : ∀ row ∈ s.nonces.rows, row.pendingNonce < bound) (walletID : UUID) (chain : Chain) :
    s.pending walletID chain < bound := by
  unfold Store.pending Store.nonce
  cases found : s.nonces.get (nonceKey walletID chain) with
  | none => exact positive
  | some row => exact rows row (Table.mem_of_get found)

/-- Two signed withdrawals of one wallet, with the nonces zero and one. -/
theorem no_collision_of_two_signed : ∃ w : World SagaCall, NoCollision w.store ∧
    w.store.withdrawals.rows.map (fun wr => (wr.state, wr.nonceValue)) =
      [(.signed, some 0), (.signed, some 1)] := by
  let calls := signedEVM "ETH" 10 ++ signedEVM "eth" 11
  have room (s : Store) (rows : ∀ row ∈ s.nonces.rows, row.pendingNonce < 2 ^ 63 - 1) :
      ∀ id, NonceGuard (.constructAndSign id) s :=
    fun _ _ _ _ _ => pending_lt_of_rows (by decide) rows _ _
  have admitted : sampleService.Admits (fun call w => NonceGuard call w.store) calls sampleStart :=
    ⟨trivial, room _ (by decide +kernel) _, trivial, room _ (by decide +kernel) _, trivial⟩
  have runs := sampleService.play_runs _ calls admitted
  exact ⟨sampleService.play calls sampleStart,
    no_collision_of_guarded sampleService sampleStart _ ⟨rfl, rfl⟩ runs, by decide +kernel⟩

/-- A withdrawal whose broadcast is rejected gives its nonce back, and the next withdrawal
reserves it. When `Fail` is then called for the first one, the nonce is given back again, and a
third withdrawal is signed with the nonce of the second. -/
theorem live_nonces_collide : ¬ ∀ (svc : Service) (start w : World SagaCall), start.Fresh →
    Runs step svc.body (fun call _ => call.saga = true) start w → NoCollision w.store := by
  intro distinct
  let calls := signedEVM "ETH" 10 ++ (.broadcast (sampleID 10), rejecting) :: signedEVM "ETH" 11 ++
    (.fail (sampleID 10) "", accepting 0) :: signedEVM "eth" 12
  have admitted : sampleService.Admits (fun call _ => call.saga = true) calls sampleStart :=
    sampleService.admits_of_calls (by decide) sampleStart
  have safe := distinct sampleService sampleStart _ ⟨rfl, rfl⟩
    (sampleService.play_runs _ calls admitted)
  -- the run is evaluated once for all that is read off its end
  have ends : ((sampleService.play calls sampleStart).store.withdrawals.get (sampleID 11)).map
        (fun wr => (wr.walletID, wr.state, wr.nonceValue)) =
          some (sampleEVMWallet.id, .signed, some 0) ∧
      ((sampleService.play calls sampleStart).store.withdrawals.get (sampleID 12)).map
        (fun wr => (wr.walletID, wr.state, wr.nonceValue)) =
          some (sampleEVMWallet.id, .signed, some 0) ∧
      (sampleService.play calls sampleStart).store.wallets.get sampleEVMWallet.id =
        some sampleEVMWallet := by decide +kernel
  obtain ⟨second, third, wallet⟩ := ends
  obtain ⟨wr, found, same⟩ := Option.map_eq_some_iff.mp second
  obtain ⟨wr', found', same'⟩ := Option.map_eq_some_iff.mp third
  simp only [Prod.mk.injEq] at same same'
  obtain ⟨owner, signed, nonce⟩ := same
  obtain ⟨owner', signed', nonce'⟩ := same'
  refine safe (sampleID 11) (sampleID 12) wr wr' sampleEVMWallet (by decide) ⟨found, ?_⟩
    ⟨found', ?_⟩ rfl ?_ ?_ (nonce.trans nonce'.symm)
  · rw [owner, wallet]
  · rw [owner', wallet]
  · rw [signed]
    rfl
  · rw [signed']
    rfl

end WalletManagement
