import WalletManagement.Funding

/-!
# One open funding request

A call looks for an open request, creates one and asks the treasury in separate steps, beside any
number of others. The store refuses a second open request of a wallet and asset, so at most one is
open at any time. A call asks the treasury only for the request that it stored itself, and a request
leaves the open ones only by a `Mark` call, so the treasury is asked at most once more often than
requests of the wallet and asset were closed. Other services may write wallets and balances at any
time.
-/

namespace WalletManagement

open Interaction Data

/-- The moves of a funding call. -/
abbrev FundingMove : Type := Move fundingCalls FundingWorld

/-- Concurrent funding calls. -/
abbrev FundingCrew (ι : Type) : Type := Crew fundingCalls FundingWorld ι (Except Err Unit)

/-- The meaning of a call, with the writes of other services before it. -/
def interleaved : Transition fundingCalls FundingWorld := fun op s answer s' =>
  ∃ middle, s.Elsewhere middle ∧ fundingStep op middle answer s'

/-! ## What the moves do -/

/-- The identifier that a move gives out. -/
def mintedRequest (move : FundingMove) : Option UUID :=
  match move.op, move.answer with
  | .newV7, id => some id
  | _, _ => none

/-- The request that a move tries to store. -/
def offeredRequest (move : FundingMove) : Option FundingRequest :=
  match move.op with
  | .createFundingRequest f => some f
  | _ => none

/-- The request that a move stores. -/
def createdRequest (move : FundingMove) : Option FundingRequest :=
  match move.op, move.answer with
  | .createFundingRequest f, .ok _ => some f
  | _, _ => none

/-- What a move asks the treasury. -/
def askedTreasury (move : FundingMove) : Option TreasuryRequest :=
  match move.op with
  | .requestFunding req => some req
  | _ => none

/-- The open request that a move closes. -/
def closedRequest (move : FundingMove) : Option FundingRequest :=
  match move.op with
  | .updateFundingState id state _ => (move.before.store.fundingReq.get id).filter fun f =>
      f.state = .requested && state ≠ .requested
  | _ => none

/-- The call writes the table of requests. -/
def FundingOp.writes : FundingOp → Bool
  | .createFundingRequest _ | .updateFundingState _ _ _ => true
  | _ => false

section Steps

variable {s s' : FundingWorld} {op : FundingOp} {answer : op.Ans}

theorem requests_of_reading (moved : interleaved op s answer s') (reading : op.writes = false) :
    s'.store.fundingReq = s.store.fundingReq := by
  obtain ⟨middle, ⟨same, -⟩, moved⟩ := moved
  cases op with
  | createFundingRequest _ | updateFundingState _ _ _ => cases reading
  | getWallet _ | getBalance _ _ | getOpenFundingRequest _ _ =>
    obtain ⟨-, rfl⟩ := moved
    exact same
  | requestFunding _ | newV7 | emit _ =>
    obtain rfl := moved
    exact same

/-- A request is refused, or it is stored and no other one of its wallet and asset is open. -/
theorem requests_of_create {f : FundingRequest} {answer : Except Err Unit}
    (moved : interleaved (.createFundingRequest f) s answer s') :
    (answer.isOk = false ∧ s'.store.fundingReq = s.store.fundingReq) ∨
      (answer = .ok () ∧ s.store.openFunding f.walletID f.asset = [] ∧
        s'.store.fundingReq = s.store.fundingReq.put f) := by
  obtain ⟨middle, ⟨same, -⟩, rfl, rfl⟩ := moved
  rcases middle.store.createFundingRequest_cases f with ⟨-, refused⟩ | ⟨free, stored⟩
  · rw [refused]
    exact .inl ⟨rfl, same⟩
  · rw [stored]
    exact .inr ⟨rfl, Store.openFunding_congr same ▸ free, congrArg (Table.put · f) same⟩

/-- A request changes its state and perhaps its batch, or is not there. -/
theorem requests_of_update {id : UUID} {state : FundingState} {batch : String}
    {answer : Except Err Unit} (moved : interleaved (.updateFundingState id state batch)
      s answer s') :
    (s.store.fundingReq.get id = none ∧ s'.store.fundingReq = s.store.fundingReq) ∨
      ∃ f f', s.store.fundingReq.get id = some f ∧ f'.id = id ∧ f'.state = state ∧
        f'.treasuryRequest = f.treasuryRequest ∧
        s'.store.fundingReq = s.store.fundingReq.put f' := by
  obtain ⟨middle, ⟨same, -⟩, rfl, rfl⟩ := moved
  rcases middle.store.updateFundingState_cases id state batch with
    ⟨none, unchanged⟩ | ⟨f, f', found, changed, written⟩
  · rw [unchanged]
    exact .inl ⟨same ▸ none, same⟩
  · have key : f.id = id := Table.key_of_get found
    have named : f'.id = id := by
      rw [changed]
      exact key
    rw [written]
    refine .inr ⟨f, f', same ▸ found, named, ?_, ?_, congrArg (Table.put · f') same⟩
    · rw [changed]
    · rw [changed]
      rfl

end Steps

/-! ## What one call does -/

/-- What a call does: it stores one open request, under an identifier it was given, it asks the
treasury once, for the request that it stored, and it never opens a request again. -/
def fundingConduct : Conduct fundingCalls FundingWorld (Except Err Unit) where
  allows moves
    | .createFundingRequest f => moves.filterMap offeredRequest = [] ∧
        f.id ∈ moves.filterMap mintedRequest ∧ f.state = .requested
    | .requestFunding req => moves.filterMap askedTreasury = [] ∧
        ∃ f ∈ moves.filterMap createdRequest, req = f.treasuryRequest
    | .updateFundingState _ state _ => state ≠ .requested
    | _ => True

/-- The call has stored nothing and asked nothing. -/
def Unstored (moves : List FundingMove) : Prop :=
  moves.filterMap offeredRequest = [] ∧ moves.filterMap askedTreasury = []

section Follows

variable {svc : FundingService} {moves : List FundingMove}

theorem Unstored.cons (unstored : Unstored moves) {move : FundingMove}
    (unoffered : offeredRequest move = none) (unasked : askedTreasury move = none) :
    Unstored (move :: moves) := by
  constructor
  · rw [List.filterMap_cons_none unoffered]
    exact unstored.1
  · rw [List.filterMap_cons_none unasked]
    exact unstored.2

theorem announce_follows (f : FundingRequest) :
    (svc.announce f).Follows interleaved fundingConduct moves := by
  unfold FundingService.announce
  split
  · exact .perform_bind trivial fun _ _ _ _ _ => trivial
  · trivial

theorem createRequest_follows (w : Wallet) (asset amount reason : String)
    (unstored : Unstored moves) :
    (svc.createRequest w asset amount reason).Follows interleaved fundingConduct moves := by
  refine .perform_bind trivial fun s id s' _ _ => ?_
  refine .perform_bind ⟨(unstored.cons rfl rfl).1, List.mem_cons_self, rfl⟩
    fun s₂ answer s₂' _ _ => ?_
  cases answer with
  | error err => trivial
  | ok _ =>
    dsimp only
    split
    · refine .perform_bind ⟨unstored.2, _, List.mem_cons_self, rfl⟩ fun _ answer _ _ _ => ?_
      cases answer with
      | error err => trivial
      | ok _ => exact announce_follows _
    · exact announce_follows _

theorem evaluate_follows (w : Wallet) (walletID : UUID) (asset : String)
    (confirmed : svc.dec.Decimal) (unstored : Unstored moves) :
    (svc.evaluate w walletID asset confirmed).Follows interleaved fundingConduct moves := by
  unfold FundingService.evaluate
  split
  · trivial
  · split
    · trivial
    · refine .perform_bind trivial fun _ answer _ _ _ => ?_
      cases answer with
      | ok _ => trivial
      | error err =>
        dsimp only
        split
        · exact createRequest_follows w asset _ _ (unstored.cons rfl rfl)
        · trivial

theorem evaluateAndRequest_follows (walletID : UUID) (asset : String) :
    (svc.evaluateAndRequest walletID asset).Follows interleaved fundingConduct [] := by
  refine .perform_bind trivial fun _ answer _ _ _ => ?_
  cases answer with
  | error err => trivial
  | ok w =>
    refine .perform_bind trivial fun _ answer _ _ _ => ?_
    cases answer with
    | error err =>
      dsimp only
      split
      · exact evaluate_follows w walletID asset _ ⟨rfl, rfl⟩
      · trivial
    | ok bal => exact evaluate_follows w walletID asset _ ⟨rfl, rfl⟩

theorem manualRequest_follows (walletID : UUID) (asset amount reason : String) :
    (svc.manualRequest walletID asset amount reason).Follows interleaved fundingConduct [] := by
  refine .perform_bind trivial fun _ answer _ _ _ => ?_
  cases answer with
  | error err => trivial
  | ok w =>
    dsimp only
    split
    · trivial
    · refine .perform_bind trivial fun _ answer _ _ _ => ?_
      cases answer with
      | ok _ => trivial
      | error err =>
        dsimp only
        split
        · exact createRequest_follows w asset amount reason ⟨rfl, rfl⟩
        · trivial

/-- Every call follows the conduct. -/
theorem fundingBody_follows (call : FundingCall) :
    (svc.body call).Follows interleaved fundingConduct [] := by
  cases call with
  | evaluateAndRequest walletID asset => exact evaluateAndRequest_follows walletID asset
  | manualRequest walletID asset amount reason =>
    exact manualRequest_follows walletID asset amount reason
  | markApproved _ _ | markSettled _ | markRejected _ _ => exact ⟨nofun, fun _ _ _ _ _ => trivial⟩

end Follows

/-! ## One open request -/

/-- At most one request of a wallet and asset is open. -/
def FundingWorld.OneOpen (s : FundingWorld) : Prop :=
  ∀ walletID asset, (s.store.openFunding walletID asset).length ≤ 1

/-- The request is an open one of a wallet and asset. -/
def FundingRequest.isOpenFor (walletID : UUID) (asset : String) (f : FundingRequest) : Bool :=
  f.walletID = walletID && f.asset = asset && f.state = .requested

/-- The number of open requests of a wallet and asset, after storing one. -/
theorem Store.length_openFunding_put {s s' : Store} {f : FundingRequest}
    (table : s'.fundingReq = s.fundingReq.put f) (walletID : UUID) (asset : String) :
    (s'.openFunding walletID asset).length +
        (if (s.fundingReq.get f.id).any (·.isOpenFor walletID asset) then 1 else 0) =
      (s.openFunding walletID asset).length + if f.isOpenFor walletID asset then 1 else 0 := by
  rw [Store.openFunding, table]
  exact Table.length_select_put s.fundingReq f _

/-- Every move of a call that follows the conduct keeps at most one request open. -/
theorem FundingWorld.OneOpen.step {s s' : FundingWorld} {op : FundingOp} {answer : op.Ans}
    {moves : List FundingMove} (one : s.OneOpen) (allowed : fundingConduct.allows moves op)
    (moved : interleaved op s answer s') : s'.OneOpen := by
  intro walletID asset
  have before := one walletID asset
  cases op with
  | getWallet _ | getBalance _ _ | getOpenFundingRequest _ _ | requestFunding _ | newV7 | emit _ =>
    rw [Store.openFunding_congr (requests_of_reading moved rfl)]
    exact before
  | createFundingRequest f =>
    rcases requests_of_create moved with ⟨-, table⟩ | ⟨-, free, table⟩
    · rw [Store.openFunding_congr table]
      exact before
    · have counted := Store.length_openFunding_put table walletID asset
      by_cases concerned : f.walletID = walletID ∧ f.asset = asset
      · obtain ⟨rfl, rfl⟩ := concerned
        have single : (if f.isOpenFor f.walletID f.asset then 1 else 0) ≤ 1 := by split <;> omega
        rw [free, List.length_nil] at counted
        omega
      · have other : f.isOpenFor walletID asset = false := by
          simpa [FundingRequest.isOpenFor] using fun wallet same => absurd ⟨wallet, same⟩ concerned
        rw [other, if_neg Bool.false_ne_true] at counted
        omega
  | updateFundingState id state batch =>
    rcases requests_of_update moved with ⟨-, table⟩ | ⟨f, f', -, rfl, stated, -, table⟩
    · rw [Store.openFunding_congr table]
      exact before
    · have closes : state ≠ .requested := allowed
      have counted := Store.length_openFunding_put table walletID asset
      have closed : f'.isOpenFor walletID asset = false := by
        simp [FundingRequest.isOpenFor, stated, closes]
      rw [closed, if_neg Bool.false_ne_true] at counted
      omega

/-! ## All schedules -/

/-- The request is one of a wallet and asset. -/
def FundingRequest.isFor (walletID : UUID) (asset : String) (f : FundingRequest) : Bool :=
  f.walletID = walletID && f.asset = asset

/-- What is asked is about a wallet and asset. -/
def TreasuryRequest.isFor (walletID : UUID) (asset : String) (req : TreasuryRequest) : Bool :=
  req.walletID = walletID && req.asset = asset

section Schedules

variable {ι : Type}

/-- What the calls asked the treasury about a wallet and asset, the last one first. -/
def treasuryCalls (crew : FundingCrew ι) (walletID : UUID) (asset : String) :
    List (ι × TreasuryRequest) :=
  (tagged askedTreasury crew.moves).filter fun entry => entry.2.isFor walletID asset

/-- The requests of a wallet and asset that calls stored. -/
def storedRequests (crew : FundingCrew ι) (walletID : UUID) (asset : String) :
    List (ι × FundingRequest) :=
  (tagged createdRequest crew.moves).filter fun entry => entry.2.isFor walletID asset

/-- The requests of a wallet and asset that `Mark` calls moved out of `REQUESTED`. -/
def closings (crew : FundingCrew ι) (walletID : UUID) (asset : String) :
    List (ι × FundingRequest) :=
  (tagged closedRequest crew.moves).filter fun entry => entry.2.isFor walletID asset

/-- `uuid.NewV7` gives out an identifier that no request has and that it has not given out
before. -/
def FreshRequestIDs (crew : FundingCrew ι) (_ : ι) (move : FundingMove) : Prop :=
  ∀ id ∈ mintedRequest move, crew.state.store.fundingReq.get id = none ∧
    id ∉ (tagged mintedRequest crew.moves).map Prod.snd

instance (crew : FundingCrew ι) (i : ι) (move : FundingMove) :
    Decidable (FreshRequestIDs crew i move) :=
  inferInstanceAs (Decidable (∀ id ∈ mintedRequest move, _ ∧ _))

/-- Who was given which identifier, stored which request and asked the treasury for it. -/
structure Traced (crew : FundingCrew ι) : Prop where
  /-- No identifier is given out twice. -/
  apart : ((tagged mintedRequest crew.moves).map Prod.snd).Nodup
  /-- A call stores a request under an identifier it was given. -/
  named : ∀ i f, (i, f) ∈ tagged createdRequest crew.moves →
    (i, f.id) ∈ tagged mintedRequest crew.moves
  /-- A call asks the treasury for a request that it stored. -/
  own : ∀ i req, (i, req) ∈ tagged askedTreasury crew.moves →
    ∃ f, (i, f) ∈ tagged createdRequest crew.moves ∧ req = f.treasuryRequest
  /-- The treasury is asked once for a request. -/
  once : ((tagged askedTreasury crew.moves).map fun entry => entry.2.fundingRequestID).Nodup

/-- What holds of the table of requests, from a given start on. -/
structure Accounted (start : FundingWorld) (crew : FundingCrew ι) : Prop where
  /-- An identifier under which nothing was offered yet belongs to no request. -/
  absent : ∀ i id, (i, id) ∈ tagged mintedRequest crew.moves →
    (∀ f, (i, f) ∉ tagged offeredRequest crew.moves) → crew.state.store.fundingReq.get id = none
  /-- A stored request stays, up to its state and its batch. -/
  kept : ∀ i f, (i, f) ∈ tagged createdRequest crew.moves → ∃ row,
    crew.state.store.fundingReq.get f.id = some row ∧ row.treasuryRequest = f.treasuryRequest
  /-- Every request that was open or stored is open or was closed. -/
  balance : ∀ walletID asset,
    (start.store.openFunding walletID asset).length + (storedRequests crew walletID asset).length =
      (crew.state.store.openFunding walletID asset).length + (closings crew walletID asset).length

variable [DecidableEq ι] {start : FundingWorld} {crew : FundingCrew ι} {i : ι} {op : FundingOp}
  {answer : op.Ans} {s' : FundingWorld} {rest : FundingProg (Except Err Unit)}

omit [DecidableEq ι] in
theorem Traced.congr {crew' : FundingCrew ι} (traced : Traced crew)
    (minted : tagged mintedRequest crew'.moves = tagged mintedRequest crew.moves)
    (created : tagged createdRequest crew'.moves = tagged createdRequest crew.moves)
    (asked : tagged askedTreasury crew'.moves = tagged askedTreasury crew.moves) :
    Traced crew' := by
  constructor
  · rw [minted]
    exact traced.apart
  · rw [minted, created]
    exact traced.named
  · rw [created, asked]
    exact traced.own
  · rw [asked]
    exact traced.once

/-- Every move of a call that follows the conduct keeps track of the requests. -/
theorem Traced.advance (traced : Traced crew)
    (allowed : fundingConduct.allows (past crew.moves i) op)
    (fresh : FreshRequestIDs crew i ⟨op, crew.state, answer, s'⟩) :
    Traced (crew.advance i ⟨op, crew.state, answer, s'⟩ rest) := by
  cases op with
  | getWallet _ | getBalance _ _ | getOpenFundingRequest _ _ | emit _ | updateFundingState _ _ _ =>
    exact traced.congr (tagged_cons_of_none rfl) (tagged_cons_of_none rfl) (tagged_cons_of_none rfl)
  | newV7 =>
    have minted : tagged mintedRequest (crew.advance i
        ⟨.newV7, crew.state, answer, s'⟩ rest).moves =
      (i, answer) :: tagged mintedRequest crew.moves := tagged_cons_of_some rfl
    refine ⟨?_, fun j f created => ?_, traced.own, traced.once⟩
    · rw [minted]
      exact List.nodup_cons.mpr ⟨(fresh answer rfl).2, traced.apart⟩
    · rw [minted]
      exact List.mem_cons_of_mem _ (traced.named j f created)
  | createFundingRequest f =>
    cases answer with
    | error err =>
      exact traced.congr (tagged_cons_of_none rfl) (tagged_cons_of_none rfl)
        (tagged_cons_of_none rfl)
    | ok _ =>
      have created : tagged createdRequest
          (crew.advance i ⟨.createFundingRequest f, crew.state, .ok (), s'⟩ rest).moves =
        (i, f) :: tagged createdRequest crew.moves := tagged_cons_of_some rfl
      refine ⟨traced.apart, fun j g stored => ?_, fun j req asked => ?_, traced.once⟩
      · rw [created] at stored
        rcases List.mem_cons.mp stored with same | stored
        · cases same
          have given : (i, f.id) ∈ tagged mintedRequest crew.moves := mem_tagged.mpr allowed.2.1
          exact given
        · exact traced.named j g stored
      · obtain ⟨g, stored, same⟩ := traced.own j req asked
        rw [created]
        exact ⟨g, List.mem_cons_of_mem _ stored, same⟩
  | requestFunding req =>
    obtain ⟨unasked, f, stored, rfl⟩ := allowed
    have stored : (i, f) ∈ tagged createdRequest crew.moves := mem_tagged.mpr stored
    have asked : tagged askedTreasury
        (crew.advance i ⟨.requestFunding f.treasuryRequest, crew.state, answer, s'⟩ rest).moves =
      (i, f.treasuryRequest) :: tagged askedTreasury crew.moves := tagged_cons_of_some rfl
    refine ⟨traced.apart, traced.named, fun j req there => ?_, ?_⟩
    · rw [asked] at there
      rcases List.mem_cons.mp there with same | there
      · cases same
        exact ⟨f, stored, rfl⟩
      · exact traced.own j req there
    · rw [asked]
      refine List.nodup_cons.mpr ⟨fun again => ?_, traced.once⟩
      -- the other call would have been given the same identifier, so it is this one
      obtain ⟨⟨j, req⟩, there, same⟩ := List.mem_map.mp again
      obtain ⟨g, stored', rfl⟩ := traced.own j req there
      have mine := traced.named i f stored
      have theirs := traced.named j g stored'
      have key : g.id = f.id := same
      have caller : (j, g.id) = (i, f.id) :=
        List.inj_on_of_nodup_map traced.apart theirs mine key
      obtain ⟨rfl, -⟩ := Prod.mk.inj caller
      have member := mem_tagged.mp there
      rw [unasked] at member
      cases member

omit [DecidableEq ι] in
/-- A move that leaves the table alone, stores and closes nothing and gives out nothing but unknown
identifiers keeps the account. -/
theorem Accounted.congr {crew' : FundingCrew ι} (accounted : Accounted start crew)
    (table : crew'.state.store.fundingReq = crew.state.store.fundingReq)
    (minted : ∀ i id, (i, id) ∈ tagged mintedRequest crew'.moves →
      (i, id) ∈ tagged mintedRequest crew.moves ∨ crew.state.store.fundingReq.get id = none)
    (offered : tagged offeredRequest crew.moves ⊆ tagged offeredRequest crew'.moves)
    (created : tagged createdRequest crew'.moves = tagged createdRequest crew.moves)
    (closed : tagged closedRequest crew'.moves = tagged closedRequest crew.moves) :
    Accounted start crew' := by
  refine ⟨fun i id given unoffered => ?_, ?_, fun walletID asset => ?_⟩
  · rw [table]
    rcases minted i id given with old | unknown
    · exact accounted.absent i id old fun f member => unoffered f (offered member)
    · exact unknown
  · rw [table, created]
    exact accounted.kept
  · rw [Store.openFunding_congr table, storedRequests, created, closings, closed]
    exact accounted.balance walletID asset

/-- Storing a request keeps the account. -/
theorem Accounted.store {f : FundingRequest} (accounted : Accounted start crew)
    (traced : Traced crew)
    (allowed : fundingConduct.allows (past crew.moves i) (.createFundingRequest f))
    (table : s'.store.fundingReq = crew.state.store.fundingReq.put f) :
    Accounted start (crew.advance i ⟨.createFundingRequest f, crew.state, .ok (), s'⟩ rest) := by
  obtain ⟨unoffered, given, opened⟩ := allowed
  have given : (i, f.id) ∈ tagged mintedRequest crew.moves := mem_tagged.mpr given
  have unknown : crew.state.store.fundingReq.get f.id = none :=
    accounted.absent i f.id given fun g member => by
      have := mem_tagged.mp member
      rw [unoffered] at this
      cases this
  have created : tagged createdRequest
      (crew.advance i ⟨.createFundingRequest f, crew.state, .ok (), s'⟩ rest).moves =
    (i, f) :: tagged createdRequest crew.moves := tagged_cons_of_some rfl
  have offered : tagged offeredRequest
      (crew.advance i ⟨.createFundingRequest f, crew.state, .ok (), s'⟩ rest).moves =
    (i, f) :: tagged offeredRequest crew.moves := tagged_cons_of_some rfl
  have opens (walletID : UUID) (asset : String) : (s'.store.openFunding walletID asset).length =
      (crew.state.store.openFunding walletID asset).length +
        if f.isFor walletID asset then 1 else 0 := by
    have counted := Store.length_openFunding_put table walletID asset
    rw [unknown] at counted
    simpa [FundingRequest.isFor, FundingRequest.isOpenFor, opened] using counted
  refine ⟨fun j id given' unoffered' => ?_, fun j g stored => ?_, fun walletID asset => ?_⟩
  · -- the identifier belongs to another call
    rw [offered] at unoffered'
    have given' : (j, id) ∈ tagged mintedRequest crew.moves := given'
    have other : f.id ≠ id := fun same => by
      have caller : (j, id) = (i, f.id) :=
        List.inj_on_of_nodup_map traced.apart given' given same.symm
      obtain ⟨rfl, -⟩ := Prod.mk.inj caller
      exact unoffered' f List.mem_cons_self
    rw [Crew.advance_state, table, Table.get_put_of_ne _ other]
    exact accounted.absent j id given' fun g member => unoffered' g (List.mem_cons_of_mem _ member)
  · rw [Crew.advance_state, table]
    rw [created] at stored
    rcases List.mem_cons.mp stored with same | stored
    · cases same
      exact ⟨f, Table.get_put_self _ f, rfl⟩
    · obtain ⟨row, found, same⟩ := accounted.kept j g stored
      have other : f.id ≠ g.id := fun same => by
        rw [← same, unknown] at found
        cases found
      exact ⟨row, (Table.get_put_of_ne _ other).trans found, same⟩
  · have before := accounted.balance walletID asset
    have stored : (storedRequests (crew.advance i ⟨.createFundingRequest f, crew.state, .ok (), s'⟩
        rest) walletID asset).length = (storedRequests crew walletID asset).length +
          if f.isFor walletID asset then 1 else 0 := by
      rw [storedRequests, created, List.filter_cons]
      split <;> simp [storedRequests]
    have closed : closings (crew.advance i ⟨.createFundingRequest f, crew.state, .ok (), s'⟩
        rest) walletID asset = closings crew walletID asset := rfl
    rw [Crew.advance_state, opens, stored, closed]
    omega

/-- Closing a request keeps the account. -/
theorem Accounted.close {id : UUID} {state : FundingState} {batch : String}
    {answer : Except Err Unit} (accounted : Accounted start crew) (closes : state ≠ .requested)
    (moved : interleaved (.updateFundingState id state batch) crew.state answer s') :
    Accounted start
      (crew.advance i ⟨.updateFundingState id state batch, crew.state, answer, s'⟩ rest) := by
  rcases requests_of_update moved with ⟨unknown, table⟩ | ⟨f, f', found, rfl, stated, same, table⟩
  · have unclosed : closedRequest ⟨.updateFundingState id state batch, crew.state, answer, s'⟩ =
        none := by simp [closedRequest, unknown]
    exact accounted.congr table (fun _ _ => .inl) tagged_subset_cons (tagged_cons_of_none rfl)
      (tagged_cons_of_none unclosed)
  · have closed : closedRequest ⟨.updateFundingState f'.id state batch, crew.state, answer, s'⟩ =
        if f.state = .requested then some f else none := by
      simp [closedRequest, found, Option.filter, closes]
    have opens (walletID : UUID) (asset : String) : (s'.store.openFunding walletID asset).length +
        (if f.isFor walletID asset && f.state = .requested then 1 else 0) =
          (crew.state.store.openFunding walletID asset).length := by
      have counted := Store.length_openFunding_put table walletID asset
      rw [found] at counted
      simpa [FundingRequest.isFor, FundingRequest.isOpenFor, stated, closes] using counted
    refine ⟨fun j id given unoffered => ?_, fun j g stored => ?_, fun walletID asset => ?_⟩
    · have unknown := accounted.absent j id given fun g member =>
        unoffered g (tagged_subset_cons member)
      have other : f'.id ≠ id := fun same => by
        rw [← same, found] at unknown
        cases unknown
      rw [Crew.advance_state, table, Table.get_put_of_ne _ other]
      exact unknown
    · obtain ⟨row, there, kept⟩ := accounted.kept j g stored
      rw [Crew.advance_state, table]
      by_cases here : f'.id = g.id
      · rw [← here, found] at there
        cases there
        exact ⟨f', here ▸ Table.get_put_self _ f', same.trans kept⟩
      · exact ⟨row, (Table.get_put_of_ne _ here).trans there, kept⟩
    · have before := accounted.balance walletID asset
      have counted := opens walletID asset
      have stored : storedRequests (crew.advance i
          ⟨.updateFundingState f'.id state batch, crew.state, answer, s'⟩ rest) walletID asset =
            storedRequests crew walletID asset := rfl
      have closings' : (closings (crew.advance i
          ⟨.updateFundingState f'.id state batch, crew.state, answer, s'⟩ rest)
            walletID asset).length = (closings crew walletID asset).length +
              if f.isFor walletID asset && f.state = .requested then 1 else 0 := by
        by_cases opened : f.state = .requested
        · rw [if_pos opened] at closed
          rw [closings, Crew.advance_moves, tagged_cons_of_some closed, List.filter_cons]
          by_cases concerned : f.isFor walletID asset = true
          · simp [closings, concerned, opened]
          · simp [closings, concerned]
        · rw [if_neg opened] at closed
          rw [closings, Crew.advance_moves, tagged_cons_of_none closed]
          simp [closings, opened]
      simp only [Crew.advance_state, stored, closings']
      omega

/-- Every move of a call that follows the conduct keeps the account. -/
theorem Accounted.advance (accounted : Accounted start crew) (traced : Traced crew)
    (allowed : fundingConduct.allows (past crew.moves i) op)
    (moved : interleaved op crew.state answer s')
    (fresh : FreshRequestIDs crew i ⟨op, crew.state, answer, s'⟩) :
    Accounted start (crew.advance i ⟨op, crew.state, answer, s'⟩ rest) := by
  cases op with
  | getWallet _ | getBalance _ _ | getOpenFundingRequest _ _ | requestFunding _ | emit _ =>
    exact accounted.congr (requests_of_reading moved rfl) (fun _ _ => .inl) tagged_subset_cons
      (tagged_cons_of_none rfl) (tagged_cons_of_none rfl)
  | newV7 =>
    refine accounted.congr (requests_of_reading moved rfl) (fun j id given => ?_) tagged_subset_cons
      (tagged_cons_of_none rfl) (tagged_cons_of_none rfl)
    rw [Crew.advance_moves, tagged_cons_of_some
      (show mintedRequest _ = some answer from rfl)] at given
    rcases List.mem_cons.mp given with same | old
    · cases same
      exact .inr (fresh answer rfl).1
    · exact .inl old
  | createFundingRequest f =>
    rcases requests_of_create moved with ⟨refused, table⟩ | ⟨rfl, -, table⟩
    · cases answer with
      | ok _ => cases refused
      | error err =>
        exact accounted.congr table (fun _ _ => .inl) tagged_subset_cons (tagged_cons_of_none rfl)
          (tagged_cons_of_none rfl)
    · exact accounted.store traced allowed table
  | updateFundingState id state batch => exact accounted.close allowed moved

omit [DecidableEq ι] in
/-- The treasury is asked for stored requests only. -/
theorem treasuryCalls_le_storedRequests (traced : Traced crew) (walletID : UUID) (asset : String) :
    (treasuryCalls crew walletID asset).length ≤ (storedRequests crew walletID asset).length := by
  let asked := (treasuryCalls crew walletID asset).map fun entry => entry.2.fundingRequestID
  let stored := (storedRequests crew walletID asset).map fun entry => entry.2.id
  have distinct : asked.Nodup := traced.once.sublist (List.filter_sublist.map _)
  have subset : asked ⊆ stored := by
    intro id member
    obtain ⟨⟨i, req⟩, there, rfl⟩ := List.mem_map.mp member
    obtain ⟨there, concerned⟩ := List.mem_filter.mp there
    obtain ⟨f, created, rfl⟩ := traced.own i req there
    exact List.mem_map.mpr ⟨(i, f), List.mem_filter.mpr ⟨created, concerned⟩, rfl⟩
  have shorter := (List.subperm_of_subset distinct subset).length_le
  rwa [List.length_map, List.length_map] at shorter

/-- In every schedule of any number of concurrent calls, with any wallets, assets and services,
among any writes of other services to wallets and balances, with any answers of the treasury, and
with identifiers of `uuid.NewV7` that no request had before: at most one request of a wallet and
asset is open; a call asks the treasury for a request that it stored itself, whose row is in the
table with the same wallet, asset, amount and reason, under the identifier and an idempotency key of
that row and of no other treasury call; and the treasury is asked about a wallet and asset at most
once more often than `Mark` calls moved one of its requests out of `REQUESTED`. -/
theorem funding_calls_bounded {services : ι → FundingService} {calls : ι → FundingCall}
    (single : start.OneOpen)
    (reachable : Crew.Reachable (fun _ => interleaved) FreshRequestIDs
      (Crew.start (fun i => (services i).body (calls i)) start) crew) :
    crew.state.OneOpen ∧
      (∀ i req, (i, req) ∈ tagged askedTreasury crew.moves →
        (∃ f, (i, f) ∈ tagged createdRequest crew.moves ∧ req = f.treasuryRequest) ∧
        ∃ row, crew.state.store.fundingReq.get req.fundingRequestID = some row ∧
          req = row.treasuryRequest) ∧
      ((tagged askedTreasury crew.moves).map fun entry => entry.2.fundingRequestID).Nodup ∧
      ∀ walletID asset, (treasuryCalls crew walletID asset).length ≤
        1 + (closings crew walletID asset).length := by
  have initial : Crew.Good (fun _ => interleaved) (fun _ => fundingConduct)
      (fun crew => crew.state.OneOpen ∧ Traced crew ∧ Accounted start crew)
      (Crew.start (fun i => (services i).body (calls i)) start) := by
    refine ⟨⟨single, ⟨List.nodup_nil, nofun, nofun, List.nodup_nil⟩, nofun, nofun,
      fun _ _ => rfl⟩, fun i => fundingBody_follows (calls i)⟩
  obtain ⟨one, traced, accounted⟩ := (reachable.good (fun _ _ _ => trivial)
    (fun _ _ _ _ _ _ inv _ allowed moved fresh => ⟨inv.1.step allowed moved,
      inv.2.1.advance allowed fresh, inv.2.2.advance inv.2.1 allowed moved fresh⟩) initial).holds
  refine ⟨one, fun i req there => ?_, traced.once, fun walletID asset => ?_⟩
  · obtain ⟨f, stored, rfl⟩ := traced.own i req there
    obtain ⟨row, found, same⟩ := accounted.kept i f stored
    exact ⟨⟨f, stored, rfl⟩, row, found, same.symm⟩
  · have asked := treasuryCalls_le_storedRequests traced walletID asset
    have balanced := accounted.balance walletID asset
    have open' := one walletID asset
    omega

end Schedules

/-! ## Two evaluations at once -/

/-- Two evaluations of the Ethereum wallet, which has no balance. -/
def twoEvaluations : FundingCrew (Fin 2) :=
  Crew.start (fun _ => sampleFunding.body (.evaluateAndRequest sampleEVMWallet.id "ETH"))
    ⟨sampleStart.store, []⟩

/-- Both find no open request, and both try to store one; the second one is refused. Each turn comes
with the identifier to give out. -/
def racingTurns : List (Crew.Turn fundingCalls FundingWorld (Fin 2)) :=
  let first := (firstCaller, sampleID 1)
  let second := (secondCaller, sampleID 2)
  [first, first, first, second, second, second, second, first, first, second, first, first].map
    fun next => (next.1, handleFunding next.2 (.ok ()))

/-- The treasury is asked once. -/
theorem funding_calls_bounded_racing :
    (treasuryCalls (twoEvaluations.play racingTurns) sampleEVMWallet.id "ETH").length = 1 ∧
      ((twoEvaluations.play racingTurns).state.store.openFunding sampleEVMWallet.id "ETH").length =
        1 ∧
      (treasuryCalls (twoEvaluations.play racingTurns) sampleEVMWallet.id "ETH").length ≤
        1 + (closings (twoEvaluations.play racingTurns) sampleEVMWallet.id "ETH").length := by
  have reachable : Crew.Reachable (fun _ => interleaved) FreshRequestIDs twoEvaluations
      (twoEvaluations.play racingTurns) := by
    refine Crew.reachable_play (fun next member op s => ?_) (by decide +kernel)
    obtain ⟨turn, -, rfl⟩ := List.mem_map.mp member
    exact ⟨s, ⟨rfl, rfl⟩, handleFunding_follows turn.2 (.ok ()) op s⟩
  have single : FundingWorld.OneOpen ⟨sampleStart.store, []⟩ := fun _ _ => Nat.zero_le 1
  refine ⟨by decide +kernel, by decide +kernel, ?_⟩
  exact (funding_calls_bounded single reachable).2.2.2 _ _

end WalletManagement
