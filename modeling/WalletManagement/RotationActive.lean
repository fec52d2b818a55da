import WalletManagement.MemStoreRows
import WalletManagement.Rotation
import WalletManagement.Scripted

/-!
# One active address

A rotation deprecates the active address and inserts a new one in two steps, and a caller acts on
the address it read earlier. The store refuses a second active address, so at most one is active at
any time, whatever the locker grants. A call that deprecated an address goes on to insert one, and
its insertion fails only where another call's address is active already, so once the wallet has had
an active address, one is missing only while a call is between the two steps.
-/

namespace WalletManagement

open Interaction Data

/-! ## The calls that change an address -/

/-- The call is `DeprecateAddress`. -/
def RotationOp.deprecates : RotationOp → Bool
  | .deprecateAddress _ => true
  | _ => false

/-- The call is `InsertAddress`. -/
def RotationOp.inserts : RotationOp → Bool
  | .insertAddress _ => true
  | _ => false

/-- The move deprecates an address. -/
def deprecates (move : RotationMove) : Bool := RotationOp.deprecates move.op

/-- The move inserts an address, or tries to. -/
def inserts (move : RotationMove) : Bool := RotationOp.inserts move.op

/-- The identifier that a move gives out. -/
def mintedID (move : RotationMove) : Option UUID :=
  match move.op, move.answer with
  | .newV7, id => some id
  | _, _ => none

/-- The move gives out a given identifier. -/
def mints (id : UUID) (move : RotationMove) : Bool := mintedID move = some id

/-- The call leaves the store alone. -/
def RotationOp.Quiet (op : RotationOp) : Prop := op.deprecates = false ∧ op.inserts = false

theorem store_of_quiet {env : Collaborators} {op : RotationOp} {s s' : RotationState}
    {answer : op.Ans} (quiet : op.Quiet) (moved : env.step op s answer s') :
    s'.store = s.store := by
  cases op with
  | deprecateAddress _ => cases quiet.1
  | insertAddress _ => cases quiet.2
  | acquire _ | release _ _ =>
    obtain ⟨_, -, rfl⟩ := moved
    rfl
  | newV7 | now | emit _ =>
    cases moved
    rfl
  | _ =>
    obtain ⟨-, rfl⟩ := moved
    rfl

/-! ## What one call does -/

section Follows

variable {env : Collaborators} {p : RotationPolicy} {walletID : UUID} {w : Wallet}
  {moves : List RotationMove}

/-- What a rotation of a wallet does: it deprecates only before it inserts, it inserts one active
address under an identifier it was given, and when it returns after deprecating, it has inserted. It
relies on the chain of the wallet and on the addresses it saw. -/
def rotating (walletID : UUID) : Conduct rotationCalls RotationState (Except Err Address) where
  allows moves
    | .deprecateAddress _ => moves.any inserts = false
    | .insertAddress a => moves.any inserts = false ∧ moves.any (mints a.id) = true ∧
        a.walletID = walletID ∧ a.state = .active
    | _ => True
  knows moves s :=
    (∀ wallet, s.store.wallets.get walletID = some wallet → wallet.chain.valid = true) ∧
      ∀ move ∈ moves, ∀ id, (move.before.store.addresses.get id).isSome →
        (s.store.addresses.get id).isSome
  returns _ moves := moves.any deprecates = true → moves.any inserts = true

/-- The conduct of a part of a rotation. -/
abbrev rotatingPart {α : Type} (walletID : UUID) (returns : α → List RotationMove → Prop) :
    Conduct rotationCalls RotationState α :=
  ⟨(rotating walletID).allows, (rotating walletID).knows, returns⟩

/-- The rotation has changed nothing yet. -/
def Untouched (moves : List RotationMove) : Prop :=
  moves.any deprecates = false ∧ moves.any inserts = false

theorem Untouched.cons (untouched : Untouched moves) (move : RotationMove)
    (quiet : RotationOp.Quiet move.op) : Untouched (move :: moves) := by
  constructor
  · rw [List.any_cons, untouched.1, Bool.or_false]
    exact quiet.1
  · rw [List.any_cons, untouched.2, Bool.or_false]
    exact quiet.2

theorem Untouched.returns (untouched : Untouched moves) (result : Except Err Address) :
    (rotating walletID).returns result moves := by
  intro deprecated
  rw [untouched.1] at deprecated
  cases deprecated

/-- An address that a rotation saw is still there to be deprecated. -/
theorem deprecate_ok {s s' : RotationState} {answer : Except Err Unit} {id : UUID}
    (knows : (rotating walletID).knows moves s)
    (seen : ∃ move ∈ moves, (move.before.store.addresses.get id).isSome)
    (moved : env.step (.deprecateAddress id) s answer s') : answer = .ok () := by
  obtain ⟨move, member, there⟩ := seen
  have found := knows.2 move member id there
  rw [moved.1]
  rcases s.store.deprecateAddress_cases id with ⟨none, -⟩ | ⟨a, -, result⟩
  · rw [none] at found
    cases found
  · rw [result]

/-- A call that changes no address follows the conduct, whatever was done before. -/
theorem allows_of_quiet {op : RotationOp} (quiet : op.Quiet) :
    (rotating walletID).allows moves op := by
  cases op with
  | deprecateAddress _ => cases quiet.1
  | insertAddress _ => cases quiet.2
  | _ => trivial

/-- After the insertion a rotation only makes calls that change no address. -/
theorem inserted_follows {α : Type} {program : RotationProg α}
    (calls : program.Calls RotationOp.Quiet) (inserted : moves.any inserts = true) :
    program.Follows env.step (rotatingPart walletID fun _ moves => moves.any inserts = true)
      moves :=
  .of_phase (fun moves => moves.any inserts = true) calls inserted
    (fun _ _ _ quiet => allows_of_quiet quiet)
    (fun _ _ _ _ _ inserted _ => by rw [List.any_cons, inserted, Bool.or_true])
    fun _ _ inserted => inserted

/-- For Solana the first address of the wallet is deprecated, which succeeds. -/
theorem deprecateFirst_follows (fresh : moves.any inserts = false) :
    (RotationPolicy.deprecateFirst w).Follows env.step
      (rotatingPart walletID fun result moves => result = .ok () ∧ moves.any inserts = false)
      moves := by
  unfold RotationPolicy.deprecateFirst
  split
  · refine .perform_bind trivial fun s answer s' _ moved => ?_
    obtain ⟨⟨addrs, listed, rfl⟩, rfl⟩ := moved
    cases addrs with
    | nil => exact ⟨rfl, fresh⟩
    | cons first rest =>
      refine ⟨fresh, fun s₂ answer s₂' knows moved => ⟨?_, fresh⟩⟩
      have member : first ∈ s'.store.addresses.rows :=
        List.mem_of_mem_filter (listed.1.subset List.mem_cons_self)
      refine deprecate_ok knows ⟨_, List.mem_cons_self, ?_⟩ moved
      rw [Table.get_of_mem member]
      rfl
  · exact ⟨rfl, fresh⟩

/-- There is a deriver for every valid chain. -/
theorem exists_deriver (quote : String → String) {chain : Chain} (valid : chain.valid = true) :
    ∃ deriver, Deriver.for quote chain = .ok deriver := by
  unfold Chain.valid at valid
  unfold Deriver.for
  split
  · exact ⟨_, rfl⟩
  · split
    · exact ⟨_, rfl⟩
    · split
      · exact ⟨_, rfl⟩
      · simp_all

/-- `DeriveAt` never answers with an error. -/
def Collaborators.DeriverWorks (env : Collaborators) : Prop :=
  ∀ deriver walletID chain index change err,
    ¬env.derives deriver walletID chain index change (.error err)

/-- `deriveNew` inserts. -/
theorem deriveNew_follows (works : env.DeriverWorks) (valid : w.chain.valid = true)
    (owner : w.id = walletID) (fresh : moves.any inserts = false) :
    (p.deriveNew w).Follows env.step
      (rotatingPart walletID fun _ moves => moves.any inserts = true) moves := by
  obtain ⟨deriver, found⟩ := exists_deriver p.quote valid
  unfold RotationPolicy.deriveNew
  rw [found]
  refine .perform_bind trivial fun s answer s' _ moved => ?_
  obtain ⟨rfl, rfl⟩ := moved
  refine .bind _ (deprecateFirst_follows fresh) fun result moves deprecated => ?_
  obtain ⟨rfl, fresh⟩ := deprecated
  refine .perform_bind trivial fun s answer s' _ moved => ?_
  cases answer with
  | error err => exact absurd moved.1 (works _ _ _ _ _ _)
  | ok res =>
    refine .perform_bind trivial fun s id s' _ _ => .perform_bind trivial fun s now s' _ _ => ?_
    refine .perform_bind ⟨fresh, ?_, owner, rfl⟩ fun s answer s' _ _ => ?_
    · simp [mints, mintedID, RotationPolicy.newAddress]
    · cases answer with
      | error err => exact rfl
      | ok _ =>
        exact .bind _ (inserted_follows (emit_calls _ ⟨rfl, rfl⟩) rfl) fun _ _ inserted => inserted

/-- The part of `rotate` under the lock inserts. -/
theorem rotateLocked_follows (works : env.DeriverWorks) (valid : w.chain.valid = true)
    (owner : w.id = walletID) {old : Address} (fresh : moves.any inserts = false)
    (seen : ∃ move ∈ moves, (move.before.store.addresses.get old.id).isSome) :
    (p.rotateLocked w old).Follows env.step
      (rotatingPart walletID fun _ moves => moves.any inserts = true) moves := by
  refine .perform_bind fresh fun s answer s' knows moved => ?_
  obtain rfl := deprecate_ok knows seen moved
  refine .bind _ (deriveNew_follows works valid owner fresh) fun result moves inserted => ?_
  cases result with
  | error err => exact inserted
  | ok addr =>
    exact .bind _ (inserted_follows (emit_calls _ ⟨rfl, rfl⟩) inserted) fun _ _ inserted => inserted

/-- A program that inserts, between the acquisition and the release of the lock. -/
theorem underLock_follows {program : RotationProg (Except Err Address)}
    (untouched : Untouched moves)
    (follows : ∀ s answer s', program.Follows env.step
      (rotatingPart walletID fun _ moves => moves.any inserts = true)
      (⟨.acquire (rotationLock w.id), s, answer, s'⟩ :: moves)) :
    (RotationPolicy.underLock w program).Follows env.step (rotating walletID) moves := by
  refine .perform_bind trivial fun s answer s' _ _ => ?_
  have still := untouched.cons ⟨.acquire (rotationLock w.id), s, answer, s'⟩ ⟨rfl, rfl⟩
  cases answer with
  | error err => exact still.returns _
  | ok grant =>
    obtain ⟨token, ok⟩ := grant
    cases ok with
    | false => exact still.returns _
    | true =>
      refine .bind _ (follows s _ s') fun result moves inserted => ?_
      exact ⟨trivial, fun _ _ _ _ _ _ => inserted⟩

theorem rotate_follows (works : env.DeriverWorks) (valid : w.chain.valid = true)
    (owner : w.id = walletID) {old : Address} (untouched : Untouched moves)
    (seen : ∃ move ∈ moves, (move.before.store.addresses.get old.id).isSome) :
    (p.rotate w old).Follows env.step (rotating walletID) moves := by
  refine underLock_follows untouched fun s answer s' => ?_
  obtain ⟨move, member, there⟩ := seen
  exact rotateLocked_follows works valid owner untouched.2
    ⟨move, List.mem_cons_of_mem _ member, there⟩

/-- Every round of `deriveNewLocked` returns without a change, inserts, or leaves the rest to the
next one. -/
theorem deriveLoop_follows (works : env.DeriverWorks) (valid : w.chain.valid = true)
    (owner : w.id = walletID) (tries : Nat) (untouched : Untouched moves) :
    (p.deriveLoop w tries).Follows env.step (rotating walletID) moves := by
  induction tries generalizing moves with
  | zero => exact untouched.returns _
  | succ tries ih =>
    refine .perform_bind trivial fun s answer s' _ _ => ?_
    have still := untouched.cons ⟨.acquire (rotationLock w.id), s, answer, s'⟩ ⟨rfl, rfl⟩
    cases answer with
    | error err => exact still.returns _
    | ok grant =>
      obtain ⟨token, ok⟩ := grant
      cases ok with
      | false =>
        refine .perform_bind trivial fun s answer s' _ _ => ?_
        have still := still.cons ⟨.getActiveAddress w.id, s, answer, s'⟩ ⟨rfl, rfl⟩
        cases answer with
        | ok active => exact still.returns _
        | error err =>
          dsimp only
          split
          · exact ih still
          · exact still.returns _
      | true =>
        refine .perform_bind trivial fun s answer s' _ _ => ?_
        have still := still.cons ⟨.getActiveAddress w.id, s, answer, s'⟩ ⟨rfl, rfl⟩
        cases answer with
        | ok active => exact ⟨trivial, fun _ _ _ _ _ => (still.cons _ ⟨rfl, rfl⟩).returns _⟩
        | error err =>
          dsimp only
          split
          · refine .bind _ (deriveNew_follows works valid owner still.2) fun _ _ inserted => ?_
            exact ⟨trivial, fun _ _ _ _ _ _ => inserted⟩
          · exact ⟨trivial, fun _ _ _ _ _ => (still.cons _ ⟨rfl, rfl⟩).returns _⟩

/-- The wallet that a rotation reads. -/
theorem wallet_read {s s' : RotationState} (knows : (rotating walletID).knows moves s)
    (moved : env.step (.getWallet walletID) s (.ok w) s') :
    w.chain.valid = true ∧ w.id = walletID := by
  have found : s.store.wallets.get walletID = some w := Store.found_eq_ok.mp moved.1.symm
  exact ⟨knows.1 w found, Table.key_of_get found⟩

/-- The active address that a rotation reads is an address it saw. -/
theorem active_seen {s s' : RotationState} {a : Address}
    (moved : env.step (.getActiveAddress walletID) s (.ok a) s') :
    ∃ move ∈ (⟨.getActiveAddress walletID, s, .ok a, s'⟩ : RotationMove) :: moves,
      (move.before.store.addresses.get a.id).isSome := by
  refine ⟨_, List.mem_cons_self, ?_⟩
  rw [(Store.mem_activeAddresses.mp moved.1).1]
  rfl

/-- Deciding whether to rotate changes no address. -/
theorem shouldRotate_follows {a : Address} (untouched : Untouched moves)
    (seen : ∃ move ∈ moves, (move.before.store.addresses.get a.id).isSome) :
    (p.shouldRotate w a).Follows env.step (rotatingPart walletID fun _ moves =>
      Untouched moves ∧ ∃ move ∈ moves, (move.before.store.addresses.get a.id).isSome) moves := by
  unfold RotationPolicy.shouldRotate
  split
  · refine ⟨trivial, fun _ _ _ _ _ => ⟨untouched.cons _ ⟨rfl, rfl⟩, ?_⟩⟩
    obtain ⟨move, member, there⟩ := seen
    exact ⟨move, List.mem_cons_of_mem _ member, there⟩
  · exact ⟨untouched, seen⟩

/-- After reading the wallet and its active address a rotation has changed nothing. -/
theorem untouched_opening (walletID : UUID) (s s' s₂ s₂' : RotationState) (w : Wallet)
    (answer : Except Err Address) : Untouched
      [⟨.getActiveAddress walletID, s₂, answer, s₂'⟩, ⟨.getWallet walletID, s, .ok w, s'⟩] :=
  ⟨rfl, rfl⟩

theorem currentOrRotate_follows (works : env.DeriverWorks) :
    (p.currentOrRotate walletID).Follows env.step (rotating walletID) [] := by
  refine opening_follows (fun _ => ⟨trivial, trivial⟩) (fun _ _ _ _ => nofun)
    fun s w s' s₂ answer s₂' knows read moved => ?_
  obtain ⟨valid, owner⟩ := wallet_read knows read
  have still := untouched_opening walletID s s' s₂ s₂' w answer
  cases answer with
  | error err =>
    dsimp only
    split
    · exact deriveLoop_follows works valid owner 20 still
    · exact still.returns _
  | ok active =>
    refine .bind _ (shouldRotate_follows still (active_seen moved)) fun due moves read => ?_
    obtain ⟨still, seen⟩ := read
    cases due with
    | true => exact rotate_follows works valid owner still seen
    | false => exact still.returns _

theorem forceRotate_follows (works : env.DeriverWorks) :
    (p.forceRotate walletID).Follows env.step (rotating walletID) [] := by
  refine opening_follows (fun _ => ⟨trivial, trivial⟩) (fun _ _ _ _ => nofun)
    fun s w s' s₂ answer s₂' knows read moved => ?_
  obtain ⟨valid, owner⟩ := wallet_read knows read
  have still := untouched_opening walletID s s' s₂ s₂' w answer
  cases answer with
  | ok active => exact rotate_follows works valid owner still (active_seen moved)
  | error err =>
    dsimp only
    split
    · exact underLock_follows still fun _ _ _ => deriveNew_follows works valid owner still.2
    · exact still.returns _

/-- Every call follows the conduct of a rotation. -/
theorem body_follows (works : env.DeriverWorks) (call : RotationCall) :
    (p.body walletID call).Follows env.step (rotating walletID) [] := by
  cases call with
  | currentOrRotate => exact currentOrRotate_follows works
  | forceRotate => exact forceRotate_follows works

end Follows

/-! ## All schedules -/

section Schedules

variable {ι : Type} [DecidableEq ι] {env : Collaborators} {walletID : UUID}

/-- `uuid.NewV7` gives out an identifier that no address has and that it has not given out
before. -/
def FreshIDs (crew : RotationCrew ι) (_ : ι) (move : RotationMove) : Prop :=
  ∀ id ∈ mintedID move,
    crew.state.store.addresses.get id = none ∧ made (mints id) crew.moves = false

instance (crew : RotationCrew ι) (i : ι) (move : RotationMove) :
    Decidable (FreshIDs crew i move) :=
  inferInstanceAs (Decidable (∀ id ∈ mintedID move, _ ∧ _))

/-- A call is between its first `DeprecateAddress` and its `InsertAddress`. -/
def Between (crew : RotationCrew ι) (i : ι) : Prop :=
  (past crew.moves i).any deprecates = true ∧ (past crew.moves i).any inserts = false ∧
    ¬crew.Finished i

instance (crew : RotationCrew ι) (i : ι) : Decidable (Between crew i) :=
  inferInstanceAs (Decidable (_ ∧ _ ∧ _))

/-- What holds of the address table in every schedule: no two addresses of the wallet are active,
an identifier that was given out and not yet used for an insertion belongs to no address and to one
call, and no address goes away. -/
structure OneActive (walletID : UUID) (crew : RotationCrew ι) : Prop where
  unique : ∀ first ∈ crew.state.store.activeAddresses walletID,
    ∀ second ∈ crew.state.store.activeAddresses walletID, first = second
  absent : ∀ i id, (past crew.moves i).any (mints id) = true →
    (past crew.moves i).any inserts = false → crew.state.store.addresses.get id = none
  apart : ∀ i j id, (past crew.moves i).any (mints id) = true →
    (past crew.moves j).any (mints id) = true → i = j
  stay : ∀ i, (rotating walletID).knows (past crew.moves i) crew.state

variable {crew : RotationCrew ι} {i : ι} {op : RotationOp} {answer : op.Ans} {s' : RotationState}
  {rest : RotationProg (Except Err Address)}

/-- What the calls rely on still holds after a move that keeps the wallets and removes no
address. -/
theorem stay_advance (stay : ∀ i, (rotating walletID).knows (past crew.moves i) crew.state)
    (wallets : s'.store.wallets = crew.state.store.wallets)
    (grows : ∀ id, (crew.state.store.addresses.get id).isSome →
      (s'.store.addresses.get id).isSome) (j : ι) :
    (rotating walletID).knows
      (past (crew.advance i ⟨op, crew.state, answer, s'⟩ rest).moves j) s' := by
  refine ⟨by rw [wallets]; exact (stay j).1, fun move member id there => ?_⟩
  rcases List.mem_cons.mp (mem_past.mp member) with same | member
  · cases same
    exact grows id there
  · exact grows id ((stay j).2 move (mem_past.mpr member) id there)

/-- A move that gives out no identifier keeps the invariant if it keeps the part about the
table. -/
theorem OneActive.advance (inv : OneActive walletID crew) (other : op ≠ .newV7)
    (wallets : s'.store.wallets = crew.state.store.wallets)
    (grows : ∀ id, (crew.state.store.addresses.get id).isSome →
      (s'.store.addresses.get id).isSome)
    (unique : ∀ first ∈ s'.store.activeAddresses walletID,
      ∀ second ∈ s'.store.activeAddresses walletID, first = second)
    (absent : ∀ j id, (past crew.moves j).any (mints id) = true →
      (past (crew.advance i ⟨op, crew.state, answer, s'⟩ rest).moves j).any inserts = false →
      s'.store.addresses.get id = none) :
    OneActive walletID (crew.advance i ⟨op, crew.state, answer, s'⟩ rest) := by
  have unminted (id : UUID) (j : ι) :
      (past (crew.advance i ⟨op, crew.state, answer, s'⟩ rest).moves j).any (mints id) =
        (past crew.moves j).any (mints id) := by
    refine any_past_cons_of_false _ ?_ i j
    cases op with
    | newV7 => exact absurd rfl other
    | _ => rfl
  refine ⟨unique, fun j id minted => ?_, fun j k id => ?_, stay_advance inv.stay wallets grows⟩
  · rw [unminted] at minted
    exact absent j id minted
  · rw [unminted, unminted]
    exact inv.apart j k id

/-- A call that changes no address keeps the invariant. -/
theorem OneActive.quiet (inv : OneActive walletID crew) (quiet : op.Quiet) (other : op ≠ .newV7)
    (moved : env.step op crew.state answer s') :
    OneActive walletID (crew.advance i ⟨op, crew.state, answer, s'⟩ rest) := by
  have same := store_of_quiet quiet moved
  refine inv.advance other (by rw [same]) (by rw [same]; exact fun _ there => there)
    (by rw [same]; exact inv.unique) fun j id minted fresh => ?_
  rw [Crew.advance_moves, any_past_cons_of_false _ quiet.2 i j] at fresh
  rw [same]
  exact inv.absent j id minted fresh

/-- Giving out a fresh identifier keeps the invariant. -/
theorem OneActive.mint (inv : OneActive walletID crew) {id : UUID}
    (moved : env.step .newV7 crew.state id s')
    (fresh : FreshIDs crew i ⟨.newV7, crew.state, id, s'⟩) :
    OneActive walletID (crew.advance i ⟨.newV7, crew.state, id, s'⟩ rest) := by
  cases moved
  obtain ⟨free, unmade⟩ := fresh id rfl
  -- an identifier given out before is another one, and the moves up to here gave it out
  have minted {j : ι} {id' : UUID}
      (minted : (past (crew.advance i ⟨.newV7, crew.state, id, crew.state⟩ rest).moves j).any
        (mints id') = true) : (j = i ∧ id' = id) ∨
          id' ≠ id ∧ (past crew.moves j).any (mints id') = true := by
    rw [Crew.advance_moves] at minted
    by_cases new : id' = id
    · subst new
      by_cases here : i = j
      · exact .inl ⟨here.symm, rfl⟩
      · rw [past_cons_of_ne _ _ here] at minted
        rw [made_iff.mpr ⟨j, minted⟩] at unmade
        cases unmade
    · have no : mints id' ⟨.newV7, crew.state, id, crew.state⟩ = false := by
        simp [mints, mintedID, Ne.symm new]
      rw [any_past_cons_of_false _ no] at minted
      exact .inr ⟨new, minted⟩
  refine ⟨inv.unique, fun j id' new fresh => ?_, fun j k id' first second => ?_,
    stay_advance inv.stay rfl fun _ there => there⟩
  · rw [Crew.advance_moves, any_past_cons_of_false _ rfl] at fresh
    rcases minted new with ⟨-, rfl⟩ | ⟨-, old⟩
    · exact free
    · exact inv.absent j id' old fresh
  · rcases minted first with ⟨rfl, rfl⟩ | ⟨other, first⟩
    · rcases minted second with ⟨rfl, -⟩ | ⟨other, -⟩
      · rfl
      · exact absurd rfl other
    · rcases minted second with ⟨-, same⟩ | ⟨-, second⟩
      · exact absurd same other
      · exact inv.apart j k id' first second

/-- Deprecating an address keeps the invariant. -/
theorem OneActive.deprecate (inv : OneActive walletID crew) {id : UUID} {answer : Except Err Unit}
    (moved : env.step (.deprecateAddress id) crew.state answer s') :
    OneActive walletID (crew.advance i ⟨.deprecateAddress id, crew.state, answer, s'⟩ rest) := by
  obtain ⟨-, rfl⟩ := moved
  have there (key : UUID) := crew.state.store.isSome_deprecateAddress id key
  refine inv.advance nofun (by simp) (fun key found => (there key).trans found)
    (fun first one second two => inv.unique first (Store.active_of_deprecateAddress one) second
      (Store.active_of_deprecateAddress two)) fun j key minted fresh => ?_
  rw [Crew.advance_moves, any_past_cons_of_false _ rfl] at fresh
  have none := inv.absent j key minted fresh
  rw [← Option.not_isSome_iff_eq_none, there key, none]
  exact Bool.false_ne_true

/-- Inserting an address keeps the invariant, and leaves an active address. -/
theorem OneActive.insert (inv : OneActive walletID crew) {a : Address} {answer : Except Err Unit}
    (rest : RotationProg (Except Err Address))
    (allowed : (rotating walletID).allows (past crew.moves i) (.insertAddress a))
    (moved : env.step (.insertAddress a) crew.state answer s') :
    OneActive walletID (crew.advance i ⟨.insertAddress a, crew.state, answer, s'⟩ rest) ∧
      s'.store.activeAddresses walletID ≠ [] := by
  obtain ⟨fresh, minted, rfl, active⟩ := allowed
  obtain ⟨now, -, moved⟩ := moved
  replace moved : s'.store = (crew.state.store.insertAddress now a).2 := by rw [moved]
  have wallets : s'.store.wallets = crew.state.store.wallets := by
    rw [moved, Store.wallets_insertAddress]
  -- the calls that have not inserted yet are other calls
  have others {j : ι} (fresh : (past ((i, (⟨.insertAddress a, crew.state, answer, s'⟩ :
      RotationMove)) :: crew.moves) j).any inserts = false) :
      j ≠ i ∧ (past crew.moves j).any inserts = false := by
    by_cases here : i = j
    · subst here
      rw [past_cons_self] at fresh
      cases fresh
    · rw [past_cons_of_ne _ _ here] at fresh
      exact ⟨Ne.symm here, fresh⟩
  rcases crew.state.store.insertAddress_cases now a with ⟨found, -⟩ | ⟨taken, err, same⟩ |
    ⟨-, free, createdAt, stored⟩
  · rw [inv.absent i a.id minted fresh] at found
    cases found
  · rw [same] at moved
    refine ⟨inv.advance nofun wallets (by rw [moved]; exact fun _ there => there)
      (by rw [moved]; exact inv.unique) fun j id minted fresh => ?_, by rw [moved]; exact taken⟩
    rw [moved]
    exact inv.absent j id minted (others fresh).2
  · rw [stored] at moved
    replace moved : s'.store.addresses = crew.state.store.addresses.put { a with createdAt } := by
      rw [moved]
    have only (b : Address) : b ∈ s'.store.activeAddresses a.walletID ↔ b = { a with createdAt } :=
      Store.mem_activeAddresses_put moved (free active) active
    refine ⟨inv.advance nofun wallets (by rw [moved]; exact fun _ => Table.isSome_get_put _ _)
      (fun first one second two => ((only first).mp one).trans ((only second).mp two).symm)
      fun j id minted' fresh' => ?_, List.ne_nil_of_mem ((only _).mpr rfl)⟩
    obtain ⟨other, fresh'⟩ := others fresh'
    have differ : ({ a with createdAt } : Address).id ≠ id := fun same =>
      other (inv.apart j i id minted' (same ▸ minted))
    rw [moved, Table.get_put_of_ne _ differ]
    exact inv.absent j id minted' fresh'

variable {next : op.Ans → RotationProg (Except Err Address)}

/-- Every move of a call that follows the conduct keeps the invariant. -/
theorem OneActive.go_on (inv : OneActive walletID crew)
    (allowed : (rotating walletID).allows (past crew.moves i) op)
    (moved : env.step op crew.state answer s')
    (fresh : FreshIDs crew i ⟨op, crew.state, answer, s'⟩) :
    OneActive walletID (crew.advance i ⟨op, crew.state, answer, s'⟩ (next answer)) := by
  cases op with
  | deprecateAddress id => exact inv.deprecate moved
  | insertAddress a => exact (inv.insert (next answer) allowed moved).1
  | newV7 => exact inv.mint moved fresh
  | _ => exact inv.quiet ⟨rfl, rfl⟩ nofun moved

/-- The wallet has an active address, or a call has deprecated one and not inserted yet. -/
def Kept (walletID : UUID) (crew : RotationCrew ι) : Prop :=
  crew.state.store.activeAddresses walletID ≠ [] ∨
    ∃ i, (past crew.moves i).any deprecates = true ∧ (past crew.moves i).any inserts = false

theorem Kept.quiet (kept : Kept walletID crew) (quiet : op.Quiet)
    (moved : env.step op crew.state answer s') :
    Kept walletID (crew.advance i ⟨op, crew.state, answer, s'⟩ rest) := by
  refine kept.imp (fun active => ?_) fun ⟨j, deprecated, fresh⟩ => ⟨j, ?_, ?_⟩
  · rwa [Crew.advance_state, store_of_quiet quiet moved]
  · rwa [Crew.advance_moves, any_past_cons_of_false _ quiet.1]
  · rwa [Crew.advance_moves, any_past_cons_of_false _ quiet.2]

/-- A call that takes the active address away is between its two steps, and one that inserts leaves
an active address, its own or another. -/
theorem Kept.go_on (kept : Kept walletID crew) (inv : OneActive walletID crew)
    (allowed : (rotating walletID).allows (past crew.moves i) op)
    (moved : env.step op crew.state answer s') :
    Kept walletID (crew.advance i ⟨op, crew.state, answer, s'⟩ (next answer)) := by
  cases op with
  | deprecateAddress id =>
    refine .inr ⟨i, ?_, ?_⟩
    · rw [Crew.advance_moves, past_cons_self]
      rfl
    · rw [Crew.advance_moves, any_past_cons_of_false _ rfl]
      exact allowed
  | insertAddress a => exact .inl (inv.insert (next answer) allowed moved).2
  | _ => exact kept.quiet ⟨rfl, rfl⟩ moved

/-- In every schedule of rotations of one wallet, with any locker and a deriver that works, at most
one address of the wallet is active. From a moment on when one is active, exactly one is active
whenever no call is between its first `DeprecateAddress` and its `InsertAddress`. -/
theorem one_active_address (p : RotationPolicy) (env : Collaborators) (works : env.DeriverWorks)
    (walletID : UUID) (call : ι → RotationCall) (s : RotationState)
    (valid : ∀ wallet, s.store.wallets.get walletID = some wallet → wallet.chain.valid = true)
    (one : (s.store.activeAddresses walletID).length ≤ 1) (middle crew : RotationCrew ι)
    (before : Crew.Reachable (fun _ => env.step) FreshIDs
      (.start (fun i => p.body walletID (call i)) s) middle)
    (after : Crew.Reachable (fun _ => env.step) FreshIDs middle crew) :
    (crew.state.store.activeAddresses walletID).length ≤ 1 ∧
      (middle.state.store.activeAddresses walletID ≠ [] → (∀ i, ¬Between crew i) →
        (crew.state.store.activeAddresses walletID).length = 1) := by
  have start : Crew.Good (fun _ => env.step) (fun _ => rotating walletID) (OneActive walletID)
      (.start (fun i => p.body walletID (call i)) s) :=
    ⟨⟨Table.length_select_le_one.mp one, by simp [Crew.start], by simp [Crew.start],
      fun _ => ⟨valid, by simp [Crew.start]⟩⟩, fun i => body_follows works (call i)⟩
  have relies (crew : RotationCrew ι) (i : ι) (inv : OneActive walletID crew) := inv.stay i
  have good := before.good relies
    (fun _ _ _ _ _ _ inv _ allowed moved fresh => inv.go_on allowed moved fresh) start
  have unique : (crew.state.store.activeAddresses walletID).length ≤ 1 := by
    have later := after.good relies
      (fun _ _ _ _ _ _ inv _ allowed moved fresh => inv.go_on allowed moved fresh) good
    exact Table.length_select_le_one.mpr later.holds.unique
  refine ⟨unique, fun active settled => ?_⟩
  have later : crew.Good (fun _ => env.step) (fun _ => rotating walletID)
      (fun crew => OneActive walletID crew ∧ Kept walletID crew) :=
    after.good (fun crew i inv => relies crew i inv.1)
      (fun _ _ _ _ _ _ inv _ allowed moved fresh =>
        ⟨inv.1.go_on allowed moved fresh, inv.2.go_on inv.1 allowed moved⟩)
      ⟨⟨good.holds, .inl active⟩, good.follows⟩
  have some : crew.state.store.activeAddresses walletID ≠ [] := by
    rcases later.holds.2 with active | ⟨i, deprecated, fresh⟩
    · exact active
    · -- a call that has returned after deprecating has inserted
      refine absurd ⟨deprecated, fresh, fun finished => ?_⟩ (settled i)
      obtain ⟨value, returned⟩ := Crew.returned_of_finished finished
      rw [later.returned returned deprecated] at fresh
      cases fresh
  have positive := List.length_pos_iff.mpr some
  omega

end Schedules

/-! ## A worked run -/

/-- A locker that answers anything, and a deriver with one address. -/
def sampleCollaborators : Collaborators where
  locker := ⟨fun _ _ _ _ => True, fun _ _ _ _ _ => True⟩
  derives _ _ _ index change answer := answer = .ok ⟨sampleEVMAddress, "", index, change⟩

/-- A caller to whom every lock is granted. -/
def sampleRotator (i : Fin 2) : RotationScript where
  id := if i = firstCaller then sampleID 21 else sampleID 22
  acquire _ locks := (.ok ("", true), locks)
  release _ _ locks := (.ok (), locks)
  derive _ _ index change := .ok ⟨sampleEVMAddress, "", index, change⟩

/-- The active address of the worked run. -/
def sampleAddress : Address :=
  { id := sampleID 20, walletID := sampleEVMWallet.id, chain := .ethereum, address := "0x01",
    derivationPath := "", index := 0, change := 0, state := .active, createdAt := 1 }

/-- Two forced rotations of a wallet with one active address. -/
def sampleRotations : RotationCrew (Fin 2) :=
  .start (fun _ => RotationPolicy.body { quote := id } sampleEVMWallet.id .forceRotate)
    ⟨{ sampleStart.store with addresses := Data.Table.empty.put sampleAddress }, fun _ => none⟩

/-- Both callers hold the lock and deprecate the same address; then each goes on. -/
def sampleRotated : RotationCrew (Fin 2) :=
  sampleRotations.play (scriptedRotation sampleRotator (List.replicate 4 firstCaller ++
    List.replicate 4 secondCaller ++ List.replicate 8 firstCaller ++ List.replicate 6 secondCaller))

theorem one_active_address_sample :
    (∀ i, sampleRotated.Finished i) ∧ sampleRotated.state.store.addresses.rows.length = 2 ∧
      (sampleRotated.state.store.activeAddresses sampleEVMWallet.id).length = 1 := by
  have works : sampleCollaborators.DeriverWorks := by
    simp [Collaborators.DeriverWorks, sampleCollaborators]
  have schedule : Crew.Reachable (fun _ => sampleCollaborators.step) FreshIDs sampleRotations
      sampleRotated := scriptedRotation_reachable
    (fun _ => ⟨fun _ _ => trivial, fun _ _ _ => trivial, fun _ _ _ _ _ => rfl⟩) (by decide +kernel)
  have one := one_active_address { quote := id } sampleCollaborators works sampleEVMWallet.id
    (fun _ => .forceRotate) sampleRotations.state (by decide +kernel) (by decide +kernel) _ _ .refl
    schedule
  exact ⟨by decide +kernel, by decide +kernel, one.2 (by decide +kernel) (by decide +kernel)⟩

end WalletManagement
