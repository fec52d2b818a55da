import WalletManagement.MemStoreRows
import WalletManagement.Rotation
import WalletManagement.Scripted

/-!
# Address indices

All wallets of a chain derive their addresses from one extended public key, so the index of an
address decides which address it is. `NextAddressIndex` counts over all wallets of the chain, while
the lock that is held from there to `InsertAddress` is the lock of one wallet. Rotations of two
wallets can therefore read the same index and insert the same address. Where no call on another
wallet of the chain is between the two steps when an address is inserted, the indices are distinct.
-/

namespace WalletManagement

open Interaction Data Go

/-- The wallets of the chain share one extended public key: it is an EVM chain or Bitcoin. -/
def Chain.sharesKey (chain : Chain) : Bool := chain.isEVM || chain = .bitcoin

/-- No two addresses of an EVM chain or of Bitcoin have the same chain, change and index. -/
def DistinctIndices (s : Store) : Prop :=
  ∀ a ∈ s.addresses.rows, ∀ b ∈ s.addresses.rows, a.chain.sharesKey = true → a.chain = b.chain →
    a.change = b.change → a.index = b.index → a.id = b.id

instance (s : Store) : Decidable (DistinctIndices s) :=
  inferInstanceAs (Decidable (∀ a ∈ _, ∀ b ∈ _, _))

/-! ## The next index -/

theorem le_maxIndex (chain : Chain) (change : Int) (rows : List Address) (least : Int) :
    least ≤ Store.maxIndex chain change rows least ∧ ∀ row ∈ rows, row.chain = chain →
      row.change = change → row.index ≤ Store.maxIndex chain change rows least := by
  induction rows generalizing least with
  | nil => exact ⟨le_rfl, by simp⟩
  | cons a rest ih =>
    unfold Store.maxIndex
    split
    · rename_i larger
      obtain ⟨above, rows⟩ := ih a.index
      refine ⟨by omega, fun row member same same' => ?_⟩
      rcases List.mem_cons.mp member with rfl | member
      · exact above
      · exact rows row member same same'
    · rename_i smaller
      obtain ⟨above, rows⟩ := ih least
      refine ⟨above, fun row member same same' => ?_⟩
      rcases List.mem_cons.mp member with rfl | member
      · have : row.index ≤ least := not_lt.mp fun larger => smaller ⟨same, same', larger⟩
        omega
      · exact rows row member same same'

/-- The largest index is one of the indices, or the start of the loop. -/
theorem maxIndex_lt (chain : Chain) (change bound : Int) (rows : List Address) (least : Int)
    (below : ∀ row ∈ rows, row.index < bound) (start : least < bound) :
    Store.maxIndex chain change rows least < bound := by
  induction rows generalizing least with
  | nil => exact start
  | cons a rest ih =>
    have later (row : Address) (member : row ∈ rest) := below row (List.mem_cons_of_mem _ member)
    unfold Store.maxIndex
    split
    · exact ih a.index later (below a List.mem_cons_self)
    · exact ih least later start

/-- A next index that is not negative is above the indices of its chain. -/
theorem lt_nextAddressIndex {s : Store} {chain : Chain} {change : Int}
    (range : ∀ row ∈ s.addresses.rows, InInt64 row.index)
    (counted : 0 ≤ s.nextAddressIndex chain change) {row : Address}
    (member : row ∈ s.addresses.rows) (same : row.chain = chain) (same' : row.change = change) :
    row.index < s.nextAddressIndex chain change := by
  have below := maxIndex_lt chain change (2 ^ 63) s.addresses.rows (-1)
    (fun row member => (range row member).2) (by norm_num)
  obtain ⟨least, largest⟩ := le_maxIndex chain change s.addresses.rows (-1)
  have := largest row member same same'
  unfold Store.nextAddressIndex at counted ⊢
  generalize Store.maxIndex chain change s.addresses.rows (-1) = largestIndex at *
  by_cases last : largestIndex + 1 = 2 ^ 63
  · -- the largest `int64` is followed by the smallest one
    rw [last] at counted
    exact absurd counted (by decide)
  · rw [wrapInt64_of_inInt64 ⟨by omega, by omega⟩]
    omega

/-! ## What one call does -/

/-- The token of the lock that a call holds. -/
def tokenHeld : List RotationMove → Option String
  | [] => none
  | move :: rest =>
    match move.op, move.answer with
    | .acquire _, .ok (token, true) => some token
    | .release _ _, _ => none
    | _, _ => tokenHeld rest

/-- The chain and the index that a call has read and not yet used for an insertion. -/
def pendingIndex : List RotationMove → Option (Chain × Int)
  | [] => none
  | move :: rest =>
    match move.op, move.answer with
    | .nextAddressIndex chain _, .ok idx => some (chain, idx)
    | .insertAddress _, _ | .release _ _, _ => none
    | _, _ => pendingIndex rest

/-- The call neither moves a lock nor reads or uses an index. -/
def RotationOp.Aside : RotationOp → Prop
  | .acquire _ | .release _ _ | .nextAddressIndex _ _ | .insertAddress _ => False
  | _ => True

/-- `MemLocker` and the derivers of the repository. -/
def memCollaborators (quote : String → String) : Collaborators := ⟨memLocker, registryDerives quote⟩

section Follows

variable {p : RotationPolicy} {walletID : UUID} {w : Wallet} {moves : List RotationMove}
  {token : String}

theorem tokenHeld_aside {op : RotationOp} (aside : op.Aside) (s s' : RotationState)
    (answer : op.Ans) : tokenHeld (⟨op, s, answer, s'⟩ :: moves) = tokenHeld moves := by
  cases op with
  | acquire _ | release _ _ | nextAddressIndex _ _ | insertAddress _ => exact aside.elim
  | _ => rfl

theorem pendingIndex_aside {op : RotationOp} (aside : op.Aside) (s s' : RotationState)
    (answer : op.Ans) : pendingIndex (⟨op, s, answer, s'⟩ :: moves) = pendingIndex moves := by
  cases op with
  | acquire _ | release _ _ | nextAddressIndex _ _ | insertAddress _ => exact aside.elim
  | _ => rfl

theorem tokenHeld_refused (name : String) (s s' : RotationState) :
    tokenHeld (⟨.acquire name, s, .ok ("", false), s'⟩ :: moves) = tokenHeld moves := rfl

theorem pendingIndex_acquire (name : String) (s s' : RotationState)
    (answer : Except Err (String × Bool)) :
    pendingIndex (⟨.acquire name, s, answer, s'⟩ :: moves) = pendingIndex moves := rfl

/-- What a rotation of a wallet does with the lock and the index: it reads the index and inserts
under the lock of the wallet, and on a chain with one key it inserts the index that it read. -/
def numbering (walletID : UUID) : Conduct rotationCalls RotationState (Except Err Address) where
  allows moves
    | .acquire name => name = rotationLock walletID ∧ tokenHeld moves = none
    | .release name token => name = rotationLock walletID ∧ tokenHeld moves = some token
    | .nextAddressIndex _ change => change = 0 ∧ (tokenHeld moves).isSome
    | .insertAddress a => InInt64 a.index ∧ ∃ idx, pendingIndex moves = some (a.chain, idx) ∧
        (a.chain.sharesKey = true → a.change = 0 ∧ a.index = idx ∧ 0 ≤ idx)
    | _ => True

/-- The conduct of a part of a rotation under the lock. -/
abbrev lockedPart (α : Type) (walletID : UUID) (token : String) :
    Conduct rotationCalls RotationState α :=
  ⟨(numbering walletID).allows, (numbering walletID).knows,
    fun _ moves => tokenHeld moves = some token⟩

theorem numbering_aside {op : RotationOp} (aside : op.Aside) :
    (numbering walletID).allows moves op := by
  cases op with
  | acquire _ | release _ _ | nextAddressIndex _ _ | insertAddress _ => exact aside.elim
  | _ => trivial

/-- Calls aside keep the lock and the index. -/
theorem aside_follows {α : Type} {program : RotationProg α} {step : Transition rotationCalls
    RotationState} (calls : program.Calls RotationOp.Aside) :
    program.Follows step ⟨(numbering walletID).allows, (numbering walletID).knows, fun _ moves' =>
      tokenHeld moves' = tokenHeld moves ∧ pendingIndex moves' = pendingIndex moves⟩ moves := by
  refine .of_phase (fun moves' => tokenHeld moves' = tokenHeld moves ∧
    pendingIndex moves' = pendingIndex moves) calls ⟨rfl, rfl⟩
    (fun _ _ _ aside => numbering_aside aside) (fun _ _ s answer s' same aside => ?_)
    fun _ _ same => same
  rwa [tokenHeld_aside aside, pendingIndex_aside aside]

theorem deprecateFirst_aside : (RotationPolicy.deprecateFirst w).Calls RotationOp.Aside := by
  unfold RotationPolicy.deprecateFirst
  split
  · refine ⟨trivial, fun answer => ?_⟩
    cases answer with
    | error _ => trivial
    | ok addrs =>
      cases addrs with
      | nil => trivial
      | cons first rest => exact ⟨trivial, fun _ => trivial⟩
  · trivial

theorem shouldRotate_aside (a : Address) : (p.shouldRotate w a).Calls RotationOp.Aside := by
  unfold RotationPolicy.shouldRotate
  split
  · exact ⟨trivial, fun _ => trivial⟩
  · trivial

section Derivers

variable {quote : String → String} {lookup : Except Err String} {chain : Chain}
  {index change : Int} {res : DeriveResult}

theorem evmDeriveAt_ok (derived : evmDeriveAt quote lookup chain index change = .ok res) :
    res.change = change ∧ res.index = index ∧ 0 ≤ index := by
  unfold evmDeriveAt at derived
  split at derived
  · cases derived
  · split at derived
    · cases derived
    · split at derived
      · cases derived
      · rename_i nonneg
        split at derived <;> cases derived
        exact ⟨rfl, rfl, not_lt.mp nonneg⟩

theorem btcDeriveAt_ok (derived : btcDeriveAt quote lookup chain index change = .ok res) :
    res.change = change ∧ res.index = index ∧ 0 ≤ index := by
  unfold btcDeriveAt at derived
  split at derived
  · cases derived
  · split at derived
    · cases derived
    · split at derived
      · cases derived
      · rename_i nonneg
        split at derived <;> cases derived
        exact ⟨rfl, rfl, not_lt.mp nonneg⟩

theorem solanaDeriveAt_ok {address : String}
    (derived : solanaDeriveAt quote address chain = .ok res) : chain = .solana ∧ res.index = 0 := by
  unfold solanaDeriveAt at derived
  split at derived
  · cases derived
  · rename_i solana
    cases derived
    exact ⟨not_not.mp solana, rfl⟩

/-- The derivers return the index and the change they are asked for, except that of Solana, which
returns zero. -/
theorem derived_index {deriver : Deriver}
    (derived : deriver.MayDerive quote chain index 0 (.ok res)) (range : InInt64 index) :
    InInt64 res.index ∧
      (chain.sharesKey = true → res.change = 0 ∧ res.index = index ∧ 0 ≤ index) := by
  cases deriver with
  | evm =>
    obtain ⟨lookup, derived⟩ := derived
    obtain ⟨change, same, nonneg⟩ := evmDeriveAt_ok derived.symm
    exact ⟨same ▸ range, fun _ => ⟨change, same, nonneg⟩⟩
  | btc =>
    obtain ⟨lookup, derived⟩ := derived
    obtain ⟨change, same, nonneg⟩ := btcDeriveAt_ok derived.symm
    exact ⟨same ▸ range, fun _ => ⟨change, same, nonneg⟩⟩
  | solana =>
    obtain ⟨address, derived⟩ := derived
    obtain ⟨rfl, zero⟩ := solanaDeriveAt_ok derived.symm
    rw [zero]
    exact ⟨by decide, fun shared => absurd shared (by decide)⟩

end Derivers

/-- `deriveNew` keeps the lock. -/
theorem deriveNew_numbering (held : tokenHeld moves = some token) :
    (p.deriveNew w).Follows (memCollaborators p.quote).step
      (lockedPart (Except Err Address) walletID token) moves := by
  unfold RotationPolicy.deriveNew
  cases Deriver.for p.quote w.chain with
  | error err => exact held
  | ok deriver =>
    refine .perform_bind ⟨rfl, by rw [held]; rfl⟩ fun s answer s' _ moved => ?_
    obtain ⟨rfl, rfl⟩ := moved
    refine .bind _ (aside_follows deprecateFirst_aside) fun result moves same => ?_
    obtain ⟨held', pending⟩ := same
    replace held : tokenHeld moves = some token := held'.trans held
    cases result with
    | error err => exact held
    | ok _ =>
      refine .perform_bind trivial fun s₂ answer s₂' _ moved => ?_
      cases answer with
      | error err => exact held
      | ok res =>
        obtain ⟨range, shared⟩ := derived_index moved.1 (inInt64_wrapInt64 _)
        refine .perform_bind trivial fun _ id _ _ _ => .perform_bind trivial fun _ now _ _ _ => ?_
        refine .perform_bind ⟨range, _, pending, shared⟩ fun _ answer _ _ _ => ?_
        cases answer with
        | error err => exact held
        | ok _ =>
          refine .bind _ (aside_follows (emit_calls _ trivial)) fun _ _ same => ?_
          exact same.1.trans held

theorem rotateLocked_numbering {old : Address} (held : tokenHeld moves = some token) :
    (p.rotateLocked w old).Follows (memCollaborators p.quote).step
      (lockedPart (Except Err Address) walletID token) moves := by
  refine .perform_bind trivial fun s answer s' _ _ => ?_
  cases answer with
  | error err => exact held
  | ok _ =>
    refine .bind _ (deriveNew_numbering held) fun result moves held => ?_
    cases result with
    | error err => exact held
    | ok addr =>
      exact .bind _ (aside_follows (emit_calls _ trivial)) fun _ _ same => same.1.trans held

/-- A program that keeps the lock, between its acquisition and its release. -/
theorem underLock_numbering {program : RotationProg (Except Err Address)} (owner : w.id = walletID)
    (free : tokenHeld moves = none)
    (follows : ∀ moves token, tokenHeld moves = some token → program.Follows
      (memCollaborators p.quote).step (lockedPart (Except Err Address) walletID token) moves) :
    (RotationPolicy.underLock w program).Follows (memCollaborators p.quote).step
      (numbering walletID) moves := by
  subst owner
  refine .perform_bind ⟨rfl, free⟩ fun s answer s' _ _ => ?_
  cases answer with
  | error err => trivial
  | ok grant =>
    obtain ⟨token, ok⟩ := grant
    cases ok with
    | false => trivial
    | true =>
      refine .bind _ (follows _ token rfl) fun _ _ held => ?_
      exact ⟨⟨rfl, held⟩, fun _ _ _ _ _ => trivial⟩

/-- Every round of `deriveNewLocked` releases the lock it acquired, and the next one starts without
a lock. -/
theorem deriveLoop_numbering (owner : w.id = walletID) (tries : Nat)
    (free : tokenHeld moves = none) :
    (p.deriveLoop w tries).Follows (memCollaborators p.quote).step (numbering walletID) moves := by
  subst owner
  induction tries generalizing moves with
  | zero => trivial
  | succ tries ih =>
    refine .perform_bind ⟨rfl, free⟩ fun s answer s' _ _ => ?_
    cases answer with
    | error err => trivial
    | ok grant =>
      obtain ⟨token, ok⟩ := grant
      cases ok with
      | false =>
        refine .perform_bind trivial fun s answer s' _ _ => ?_
        cases answer with
        | ok active => trivial
        | error err =>
          dsimp only
          split
          · exact ih free
          · trivial
      | true =>
        refine .perform_bind trivial fun s answer s' _ _ => ?_
        cases answer with
        | ok active => exact ⟨⟨rfl, rfl⟩, fun _ _ _ _ _ => trivial⟩
        | error err =>
          dsimp only
          split
          · refine .bind _ (deriveNew_numbering rfl) fun _ _ held => ?_
            exact ⟨⟨rfl, held⟩, fun _ _ _ _ _ => trivial⟩
          · exact ⟨⟨rfl, rfl⟩, fun _ _ _ _ _ => trivial⟩

/-- The wallet that a rotation reads is the one it was called for. -/
theorem wallet_owner {env : Collaborators} {s s' : RotationState}
    (moved : env.step (.getWallet walletID) s (.ok w) s') : w.id = walletID :=
  Table.key_of_get (Store.found_eq_ok.mp moved.1.symm)

theorem currentOrRotate_numbering :
    (p.currentOrRotate walletID).Follows (memCollaborators p.quote).step
      (numbering walletID) [] := by
  refine opening_follows (fun _ => ⟨trivial, trivial⟩) (fun _ _ _ _ => trivial)
    fun s w s' s₂ answer s₂' _ read _ => ?_
  have owner := wallet_owner read
  cases answer with
  | error err =>
    dsimp only
    split
    · exact deriveLoop_numbering owner 20 rfl
    · trivial
  | ok active =>
    refine .bind _ (aside_follows (shouldRotate_aside active)) fun due moves same => ?_
    cases due with
    | true => exact underLock_numbering owner same.1 fun _ _ => rotateLocked_numbering
    | false => trivial

theorem forceRotate_numbering :
    (p.forceRotate walletID).Follows (memCollaborators p.quote).step (numbering walletID) [] := by
  refine opening_follows (fun _ => ⟨trivial, trivial⟩) (fun _ _ _ _ => trivial)
    fun s w s' s₂ answer s₂' _ read _ => ?_
  have owner := wallet_owner read
  cases answer with
  | ok active => exact underLock_numbering owner rfl fun _ _ => rotateLocked_numbering
  | error err =>
    dsimp only
    split
    · exact underLock_numbering owner rfl fun _ _ => deriveNew_numbering
    · trivial

theorem body_numbering (call : RotationCall) :
    (p.body walletID call).Follows (memCollaborators p.quote).step (numbering walletID) [] := by
  cases call with
  | currentOrRotate => exact currentOrRotate_numbering
  | forceRotate => exact forceRotate_numbering

end Follows

/-! ## All schedules -/

section Schedules

variable {ι : Type} [DecidableEq ι] {walletOf : ι → UUID}

/-- The address that a move inserts, or tries to insert. -/
def insertion (move : RotationMove) : Option Address :=
  match move.op with
  | .insertAddress a => some a
  | _ => none

/-- When an address of an EVM chain or of Bitcoin is inserted, no call on another wallet of the
chain is between its `NextAddressIndex` and its `InsertAddress`. -/
def AloneOnChain (walletOf : ι → UUID) (crew : RotationCrew ι) (i : ι) (move : RotationMove) :
    Prop :=
  ∀ a ∈ insertion move, a.chain.sharesKey = true → ∀ j, walletOf j ≠ walletOf i →
    (pendingIndex (past crew.moves j)).map Prod.fst ≠ some a.chain

instance {n : Nat} (walletOf : Fin n → UUID) (crew : RotationCrew (Fin n)) (i : Fin n)
    (move : RotationMove) : Decidable (AloneOnChain walletOf crew i move) :=
  inferInstanceAs (Decidable (∀ a ∈ insertion move, _ → ∀ _, _ → _))

/-- What the locker gives in every schedule: a call that holds the lock of its wallet holds it
alone, and an index is read and used under the lock. -/
structure Exclusive (walletOf : ι → UUID) (crew : RotationCrew ι) : Prop where
  held : ∀ i token, tokenHeld (past crew.moves i) = some token →
    crew.state.locks (rotationLock (walletOf i)) = some token
  alone : ∀ i j token token', tokenHeld (past crew.moves i) = some token →
    tokenHeld (past crew.moves j) = some token' →
    rotationLock (walletOf i) = rotationLock (walletOf j) → i = j
  inside : ∀ i read, pendingIndex (past crew.moves i) = some read →
    ∃ token, tokenHeld (past crew.moves i) = some token

/-- The indices are distinct, and an index that is read is above all indices of the chain until it
is used. -/
structure Numbered (crew : RotationCrew ι) : Prop where
  range : ∀ row ∈ crew.state.store.addresses.rows, InInt64 row.index
  above : ∀ i chain idx, pendingIndex (past crew.moves i) = some (chain, idx) →
    chain.sharesKey = true → 0 ≤ idx → ∀ row ∈ crew.state.store.addresses.rows,
      row.chain = chain → row.change = 0 → row.index < idx
  distinct : DistinctIndices crew.state.store

variable {crew : RotationCrew ι} {i : ι} {op : RotationOp} {answer : op.Ans} {s' : RotationState}
  {rest : RotationProg (Except Err Address)} {quote : String → String}

/-- A move that leaves the locks alone and reads an index only under the lock. -/
theorem Exclusive.keep (inv : Exclusive walletOf crew) (locks : s'.locks = crew.state.locks)
    (token : tokenHeld (⟨op, crew.state, answer, s'⟩ :: past crew.moves i) =
      tokenHeld (past crew.moves i))
    (inside : ∀ read, pendingIndex (⟨op, crew.state, answer, s'⟩ :: past crew.moves i) =
      some read → ∃ token, tokenHeld (past crew.moves i) = some token) :
    Exclusive walletOf (crew.advance i ⟨op, crew.state, answer, s'⟩ rest) := by
  have token (j : ι) := past_cons_congr crew.moves tokenHeld token j
  constructor
  · intro j
    rw [Crew.advance_moves, token, Crew.advance_state, locks]
    exact inv.held j
  · intro j k
    rw [Crew.advance_moves, token, token]
    exact inv.alone j k
  · intro j read
    rw [Crew.advance_moves, token]
    by_cases here : i = j
    · subst here
      rw [past_cons_self]
      exact inside read
    · rw [past_cons_of_ne _ _ here]
      exact inv.inside j read

/-- A call that neither moves a lock nor reads or uses an index. -/
theorem Exclusive.aside (inv : Exclusive walletOf crew) (aside : op.Aside)
    (locks : s'.locks = crew.state.locks) :
    Exclusive walletOf (crew.advance i ⟨op, crew.state, answer, s'⟩ rest) := by
  refine inv.keep locks (tokenHeld_aside aside _ _ _) fun read pending => ?_
  rw [pendingIndex_aside aside] at pending
  exact inv.inside i read pending

theorem memLocker_acquire {name : String} {locks locks' : Locks}
    {answer : Except Err (String × Bool)} (asked : memLocker.acquire name locks answer locks') :
    (answer = .ok ("", false) ∧ locks' = locks) ∨ (locks name = none ∧ ∃ token,
      answer = .ok (token, true) ∧ locks' = Function.update locks name (some token)) := by
  unfold memLocker at asked
  dsimp only at asked
  split at asked
  · exact .inl asked
  · exact .inr ⟨‹_›, asked⟩

/-- A lock is granted to a call only when no call holds it. -/
theorem Exclusive.acquire (inv : Exclusive walletOf crew) {name : String}
    {answer : Except Err (String × Bool)}
    (allowed : (numbering (walletOf i)).allows (past crew.moves i) (.acquire name))
    (moved : (memCollaborators quote).step (.acquire name) crew.state answer s') :
    Exclusive walletOf (crew.advance i ⟨.acquire name, crew.state, answer, s'⟩ rest) := by
  obtain ⟨rfl, free⟩ := allowed
  obtain ⟨locks, asked, moved⟩ := moved
  replace moved : s'.locks = locks := by rw [moved]
  rcases memLocker_acquire asked with ⟨rfl, rfl⟩ | ⟨unlocked, token, rfl, rfl⟩
  · refine inv.keep moved (tokenHeld_refused _ _ _) fun read pending => ?_
    rw [pendingIndex_acquire] at pending
    exact inv.inside i read pending
  · -- the lock was free, so a call that holds a lock holds one of another name
    have others {j : ι} {token : String} (holds : tokenHeld (past crew.moves j) = some token) :
        rotationLock (walletOf i) ≠ rotationLock (walletOf j) := by
      intro same
      rw [same, inv.held j token holds] at unlocked
      cases unlocked
    refine ⟨fun j token' holds => ?_, fun j k token token' first second same => ?_,
      fun j read pending => ?_⟩
    · by_cases here : i = j
      · subst here
        rw [Crew.advance_moves, past_cons_self] at holds
        cases holds
        rw [Crew.advance_state, moved, Function.update_self]
      · rw [Crew.advance_moves, past_cons_of_ne _ _ here] at holds
        rw [Crew.advance_state, moved, Function.update_of_ne (others holds).symm]
        exact inv.held j token' holds
    · by_cases here : i = j
      · subst here
        by_cases there : i = k
        · exact there
        · rw [Crew.advance_moves, past_cons_of_ne _ _ there] at second
          exact absurd same (others second)
      · rw [Crew.advance_moves, past_cons_of_ne _ _ here] at first
        by_cases there : i = k
        · subst there
          exact absurd same.symm (others first)
        · rw [Crew.advance_moves, past_cons_of_ne _ _ there] at second
          exact inv.alone j k token token' first second same
    · by_cases here : i = j
      · subst here
        rw [Crew.advance_moves, past_cons_self]
        exact ⟨token, rfl⟩
      · rw [Crew.advance_moves, past_cons_of_ne _ _ here] at pending ⊢
        exact inv.inside j read pending

/-- A call releases the lock that it holds, and no other. -/
theorem Exclusive.release (inv : Exclusive walletOf crew) {name token : String}
    {answer : Except Err Unit}
    (allowed : (numbering (walletOf i)).allows (past crew.moves i) (.release name token))
    (moved : (memCollaborators quote).step (.release name token) crew.state answer s') :
    Exclusive walletOf (crew.advance i ⟨.release name token, crew.state, answer, s'⟩ rest) := by
  obtain ⟨rfl, holds⟩ := allowed
  obtain ⟨locks, ⟨-, released⟩, moved⟩ := moved
  rw [if_pos (inv.held i token holds)] at released
  replace moved : s'.locks = Function.update crew.state.locks (rotationLock (walletOf i)) none := by
    rw [moved, released]
  -- the caller holds nothing any more
  refine ⟨fun j token' holds' => ?_, fun j k token₁ token₂ first second same => ?_,
    fun j read pending => ?_⟩
  · obtain ⟨other, holds'⟩ := past_cons_of_none crew.moves tokenHeld rfl holds'
    have apart : rotationLock (walletOf j) ≠ rotationLock (walletOf i) := fun same =>
      other (inv.alone i j token token' holds holds' same.symm)
    rw [Crew.advance_state, moved, Function.update_of_ne apart]
    exact inv.held j token' holds'
  · have first := (past_cons_of_none crew.moves tokenHeld rfl first).2
    have second := (past_cons_of_none crew.moves tokenHeld rfl second).2
    exact inv.alone j k token₁ token₂ first second same
  · obtain ⟨other, pending⟩ := past_cons_of_none crew.moves pendingIndex rfl pending
    rw [Crew.advance_moves, past_cons_of_ne _ _ other]
    exact inv.inside j read pending

/-- Every row of a store has the numbers of a row of another. -/
def SameNumbers (s s' : Store) : Prop :=
  ∀ row ∈ s'.addresses.rows, ∃ old ∈ s.addresses.rows, row.id = old.id ∧ row.chain = old.chain ∧
    row.change = old.change ∧ row.index = old.index

theorem DistinctIndices.congr {s s' : Store} (distinct : DistinctIndices s)
    (same : SameNumbers s s') : DistinctIndices s' := by
  intro a memberA b memberB shared chain change index
  obtain ⟨oldA, memberA, idA, chainA, changeA, indexA⟩ := same a memberA
  obtain ⟨oldB, memberB, idB, chainB, changeB, indexB⟩ := same b memberB
  rw [idA, idB]
  refine distinct oldA memberA oldB memberB (chainA ▸ shared) ?_ ?_ ?_
  · rw [← chainA, chain, chainB]
  · rw [← changeA, change, changeB]
  · rw [← indexA, index, indexB]

/-- A move that leaves the numbers of the addresses alone and reads no index. -/
theorem Numbered.keep (inv : Numbered crew) (numbers : SameNumbers crew.state.store s'.store)
    (pending : ∀ read, pendingIndex (⟨op, crew.state, answer, s'⟩ :: past crew.moves i) =
      some read → pendingIndex (past crew.moves i) = some read) :
    Numbered (crew.advance i ⟨op, crew.state, answer, s'⟩ rest) := by
  refine ⟨fun row member => ?_, fun j chain idx read shared nonneg row member same zero => ?_,
    inv.distinct.congr numbers⟩
  · obtain ⟨old, member, -, -, -, index⟩ := numbers row member
    rw [index]
    exact inv.range old member
  · have before : pendingIndex (past crew.moves j) = some (chain, idx) := by
      by_cases here : i = j
      · subst here
        rw [Crew.advance_moves, past_cons_self] at read
        exact pending _ read
      · rwa [Crew.advance_moves, past_cons_of_ne _ _ here] at read
    obtain ⟨old, member, -, chain', change, index⟩ := numbers row member
    rw [index]
    exact inv.above j chain idx before shared nonneg old member (chain' ▸ same) (change ▸ zero)

/-- A call that leaves the numbers of the addresses alone and neither reads nor uses an index. -/
theorem Numbered.aside (inv : Numbered crew) (aside : op.Aside)
    (numbers : SameNumbers crew.state.store s'.store) :
    Numbered (crew.advance i ⟨op, crew.state, answer, s'⟩ rest) := by
  refine inv.keep numbers fun read pending => ?_
  rwa [pendingIndex_aside aside] at pending

/-- The index that a call reads is above the indices of the chain. -/
theorem Numbered.read (inv : Numbered crew) {chain : Chain} {answer : Except Err Int}
    (moved : (memCollaborators quote).step (.nextAddressIndex chain 0) crew.state answer s') :
    Numbered (crew.advance i ⟨.nextAddressIndex chain 0, crew.state, answer, s'⟩ rest) := by
  obtain ⟨rfl, rfl⟩ := moved
  refine ⟨inv.range, fun j chain' idx read shared nonneg row member same zero => ?_, inv.distinct⟩
  by_cases here : i = j
  · subst here
    rw [Crew.advance_moves, past_cons_self] at read
    cases read
    exact lt_nextAddressIndex inv.range nonneg member same zero
  · rw [Crew.advance_moves, past_cons_of_ne _ _ here] at read
    exact inv.above j chain' idx read shared nonneg row member same zero

/-- An address whose index is above those of its chain keeps the indices distinct. -/
theorem DistinctIndices.put {s s' : Store} (distinct : DistinctIndices s) {row : Address}
    (stored : s'.addresses = s.addresses.put row)
    (above : row.chain.sharesKey = true → ∀ old ∈ s.addresses.rows, old.chain = row.chain →
      old.change = row.change → old.index < row.index) : DistinctIndices s' := by
  intro a memberA b memberB shared chain change index
  rw [stored] at memberA memberB
  rcases Table.mem_put.mp memberA with rfl | ⟨oldA, -⟩
  · rcases Table.mem_put.mp memberB with rfl | ⟨oldB, -⟩
    · rfl
    · have := above shared b oldB chain.symm change.symm
      omega
  · rcases Table.mem_put.mp memberB with rfl | ⟨oldB, -⟩
    · have := above (chain ▸ shared) a oldA chain change
      omega
    · exact distinct a oldA b oldB shared chain change index

/-- An insertion uses the index that the call has read. The calls that have read an index of the
chain and not used it yet are on the same wallet, and only one of them holds its lock. -/
theorem Numbered.insert (inv : Numbered crew) (exclusive : Exclusive walletOf crew) {a : Address}
    {answer : Except Err Unit}
    (allowed : (numbering (walletOf i)).allows (past crew.moves i) (.insertAddress a))
    (moved : (memCollaborators quote).step (.insertAddress a) crew.state answer s')
    (alone : AloneOnChain walletOf crew i ⟨.insertAddress a, crew.state, answer, s'⟩) :
    Numbered (crew.advance i ⟨.insertAddress a, crew.state, answer, s'⟩ rest) := by
  obtain ⟨range, idx, read, own⟩ := allowed
  obtain ⟨now, -, moved⟩ := moved
  replace moved : s'.store = (crew.state.store.insertAddress now a).2 := by rw [moved]
  have used : pendingIndex (⟨.insertAddress a, crew.state, answer, s'⟩ :: past crew.moves i) =
      none := rfl
  rcases crew.state.store.insertAddress_cases now a with ⟨-, err, same⟩ | ⟨-, err, same⟩ |
    ⟨-, -, createdAt, stored⟩
  · rw [same] at moved
    exact inv.keep (by rw [moved]; exact fun row member => ⟨row, member, rfl, rfl, rfl, rfl⟩)
      (by simp [used])
  · rw [same] at moved
    exact inv.keep (by rw [moved]; exact fun row member => ⟨row, member, rfl, rfl, rfl, rfl⟩)
      (by simp [used])
  · rw [stored] at moved
    replace moved : s'.store.addresses = crew.state.store.addresses.put { a with createdAt } := by
      rw [moved]
    refine ⟨fun row member => ?_, fun j chain idx' read' shared nonneg row member same zero => ?_,
      inv.distinct.put moved fun shared old member same change => ?_⟩
    · rw [Crew.advance_state, moved] at member
      rcases Table.mem_put.mp member with rfl | ⟨member, -⟩
      · exact range
      · exact inv.range row member
    · obtain ⟨other, read'⟩ := past_cons_of_none crew.moves pendingIndex used read'
      rw [Crew.advance_state, moved] at member
      rcases Table.mem_put.mp member with rfl | ⟨member, -⟩
      · have wallets : walletOf j = walletOf i := by
          by_contra apart
          refine alone a rfl (same ▸ shared) j apart ?_
          rw [read', Option.map_some, ← same]
        obtain ⟨token, holds⟩ := exclusive.inside i _ read
        obtain ⟨token', holds'⟩ := exclusive.inside j _ read'
        exact absurd (exclusive.alone i j token token' holds holds' (by rw [wallets])) other
      · exact inv.above j chain idx' read' shared nonneg row member same zero
    · obtain ⟨zero, index, nonneg⟩ := own shared
      have := inv.above i a.chain idx read shared nonneg old member same (change.trans zero)
      show old.index < a.index
      omega

variable {next : op.Ans → RotationProg (Except Err Address)}

/-- Every move of a call that follows the conduct keeps what the locker gives. -/
theorem Exclusive.go_on (inv : Exclusive walletOf crew)
    (allowed : (numbering (walletOf i)).allows (past crew.moves i) op)
    (moved : (memCollaborators quote).step op crew.state answer s') :
    Exclusive walletOf (crew.advance i ⟨op, crew.state, answer, s'⟩ (next answer)) := by
  cases op with
  | acquire name => exact inv.acquire allowed moved
  | release name token => exact inv.release allowed moved
  | nextAddressIndex chain change =>
    obtain ⟨rfl, rfl⟩ := moved
    exact inv.keep rfl rfl fun _ _ => Option.isSome_iff_exists.mp allowed.2
  | insertAddress a =>
    obtain ⟨now, -, rfl⟩ := moved
    exact inv.keep rfl rfl fun _ (read : none = some _) => nomatch read
  | newV7 | now | emit _ =>
    cases moved
    exact inv.aside trivial rfl
  | _ =>
    obtain ⟨-, rfl⟩ := moved
    exact inv.aside trivial rfl

/-- Every move within the guard keeps the indices distinct. -/
theorem Numbered.go_on (inv : Numbered crew) (exclusive : Exclusive walletOf crew)
    (allowed : (numbering (walletOf i)).allows (past crew.moves i) op)
    (moved : (memCollaborators quote).step op crew.state answer s')
    (alone : AloneOnChain walletOf crew i ⟨op, crew.state, answer, s'⟩) :
    Numbered (crew.advance i ⟨op, crew.state, answer, s'⟩ (next answer)) := by
  have unchanged : SameNumbers crew.state.store crew.state.store :=
    fun row member => ⟨row, member, rfl, rfl, rfl, rfl⟩
  cases op with
  | nextAddressIndex chain change =>
    obtain rfl : change = 0 := allowed.1
    exact inv.read moved
  | insertAddress a => exact inv.insert exclusive allowed moved alone
  | deprecateAddress id =>
    obtain ⟨-, rfl⟩ := moved
    refine inv.aside trivial fun row member => ?_
    rcases Store.mem_deprecateAddress member with same | ⟨old, before, rfl⟩
    · exact unchanged row same
    · exact ⟨old, before, rfl, rfl, rfl, rfl⟩
  | acquire name =>
    obtain ⟨locks, asked, rfl⟩ := moved
    refine inv.keep unchanged fun read pending => ?_
    rwa [pendingIndex_acquire] at pending
  | release name token =>
    obtain ⟨locks, -, rfl⟩ := moved
    exact inv.keep unchanged fun _ (read : none = some _) => nomatch read
  | newV7 | now | emit _ =>
    cases moved
    exact inv.aside trivial unchanged
  | _ =>
    obtain ⟨-, rfl⟩ := moved
    exact inv.aside trivial unchanged

/-- In every schedule of rotations of any wallets over `MemLocker` in which no address is inserted
while a call on another wallet of its chain is between its `NextAddressIndex` and its
`InsertAddress`, the indices of an EVM chain or of Bitcoin are distinct. -/
theorem address_indices_distinct (p : RotationPolicy) (walletOf : ι → UUID)
    (call : ι → RotationCall) (s : RotationState)
    (range : ∀ row ∈ s.store.addresses.rows, InInt64 row.index)
    (distinct : DistinctIndices s.store) (crew : RotationCrew ι)
    (schedule : Crew.Reachable (fun _ => (memCollaborators p.quote).step) (AloneOnChain walletOf)
      (.start (fun i => p.body (walletOf i) (call i)) s) crew) :
    DistinctIndices crew.state.store := by
  have start : Crew.Good (fun _ => (memCollaborators p.quote).step)
      (fun i => numbering (walletOf i)) (fun crew => Exclusive walletOf crew ∧ Numbered crew)
      (.start (fun i => p.body (walletOf i) (call i)) s) :=
    ⟨⟨⟨by simp [Crew.start, tokenHeld], by simp [Crew.start, tokenHeld],
      by simp [Crew.start, pendingIndex]⟩, range, by simp [Crew.start, pendingIndex], distinct⟩,
      fun i => body_numbering (call i)⟩
  have good := schedule.good (fun _ _ _ => trivial) (fun _ _ _ _ _ _ inv _ allowed moved alone =>
    ⟨inv.1.go_on allowed moved, inv.2.go_on inv.1 allowed moved alone⟩) start
  exact good.holds.2.distinct

end Schedules

/-! ## Worked runs -/

/-- The derivers with one address each. -/
def sampleDerive : Deriver → Chain → Int → Int → Except Err DeriveResult
  | .evm, chain, index, change => evmDeriveAt id (.ok sampleEVMAddress) chain index change
  | .btc, chain, index, change => btcDeriveAt id (.ok sampleBTCAddress) chain index change
  | .solana, chain, _, _ => solanaDeriveAt id "" chain

/-- `MemLocker` with one token, and the derivers. -/
def sampleLocking (i : Fin 2) : RotationScript where
  id := if i = firstCaller then sampleID 21 else sampleID 22
  acquire name locks :=
    if (locks name).isSome then (.ok ("", false), locks)
    else (.ok ("token", true), Function.update locks name (some "token"))
  release name token locks :=
    (.ok (), if locks name = some token then Function.update locks name none else locks)
  derive := sampleDerive

theorem sampleLocking_plays (i : Fin 2) : (sampleLocking i).Plays (memCollaborators id) := by
  refine ⟨fun name locks => ?_, fun _ _ _ => ⟨rfl, rfl⟩, fun deriver _ chain index change => ?_⟩
  · simp only [memCollaborators, memLocker, sampleLocking]
    cases locks name with
    | some _ => exact ⟨rfl, rfl⟩
    | none => exact ⟨"token", rfl, rfl⟩
  · cases deriver with
    | evm => exact ⟨.ok sampleEVMAddress, rfl⟩
    | btc => exact ⟨.ok sampleBTCAddress, rfl⟩
    | solana => exact ⟨"", rfl⟩

/-- The wallet that a caller rotates: both are on Ethereum. -/
def sampleOwner (i : Fin 2) : Wallet :=
  { id := if i = firstCaller then sampleID 1 else sampleID 3, chain := .ethereum, state := .active }

/-- The first rotations of two wallets without addresses. -/
def sampleFirstRotations : RotationCrew (Fin 2) :=
  .start (fun i => RotationPolicy.body { quote := id } (sampleOwner i).id .currentOrRotate)
    ⟨{ wallets := (Table.empty.put (sampleOwner firstCaller)).put (sampleOwner secondCaller) },
      fun _ => none⟩

/-- One caller after the other. -/
def sampleInTurn : RotationCrew (Fin 2) :=
  sampleFirstRotations.play (scriptedRotation sampleLocking (List.replicate 11 firstCaller ++
    List.replicate 11 secondCaller))

/-- Both callers read the index before either inserts. -/
def sampleTogether : RotationCrew (Fin 2) :=
  sampleFirstRotations.play (scriptedRotation sampleLocking (List.replicate 5 firstCaller ++
    List.replicate 5 secondCaller ++ List.replicate 6 firstCaller ++ List.replicate 6 secondCaller))

theorem address_indices_distinct_sample :
    (∀ i, sampleInTurn.Finished i) ∧ DistinctIndices sampleInTurn.state.store ∧
      sampleInTurn.state.store.addresses.rows.map (fun a => (a.walletID, a.index)) =
        [(sampleID 1, 0), (sampleID 3, 1)] := by
  have schedule : Crew.Reachable (fun _ => (memCollaborators id).step)
      (AloneOnChain fun i => (sampleOwner i).id) sampleFirstRotations sampleInTurn :=
    scriptedRotation_reachable sampleLocking_plays (by decide +kernel)
  have distinct := address_indices_distinct { quote := id } (fun i => (sampleOwner i).id)
    (fun _ => .currentOrRotate) sampleFirstRotations.state (by decide +kernel) (by decide +kernel)
    sampleInTurn schedule
  exact ⟨by decide +kernel, distinct, by decide +kernel⟩

/-- Two wallets on Ethereum get the address with the index zero. -/
theorem address_indices_collide :
    Crew.Reachable (fun _ => (memCollaborators id).step) (fun _ _ _ => True) sampleFirstRotations
        sampleTogether ∧
      DistinctIndices sampleFirstRotations.state.store ∧ (∀ i, sampleTogether.Finished i) ∧
      sampleTogether.state.store.addresses.rows.map
        (fun a => (a.walletID, a.chain, a.change, a.index, a.state)) =
          [(sampleID 1, .ethereum, 0, 0, .active), (sampleID 3, .ethereum, 0, 0, .active)] ∧
      ¬DistinctIndices sampleTogether.state.store := by
  refine ⟨scriptedRotation_reachable sampleLocking_plays (Crew.admitsAll_of_true _ _), ?_⟩
  decide +kernel

end WalletManagement
