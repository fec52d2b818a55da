import WalletManagement.Interaction.Crew
import WalletManagement.System
import Mathlib.Data.List.Sort

/-!
# Address rotation

`internal/wallet/rotation.go` as programs over the calls it makes: the address methods of the
store, the locker, the deriver of the wallet's chain, the clock, `uuid.NewV7` and the audit
emitter. A deriver looks an address up in its cache or derives it from the extended public key;
what it finds there is an input of its model, so that its checks and the fields of its result are
those of the source. `time.Sleep` does nothing that is modelled.
-/

namespace WalletManagement

open Interaction Go

/-! ## Derivers -/

/-- `deriver.Result`. -/
structure DeriveResult where
  address : String
  derivationPath : String
  index : Int
  change : Int
  deriving DecidableEq

/-- `EVMDeriver.DeriveAt`, with the address that the cache or the derivation gives. -/
def evmDeriveAt (quote : String → String) (lookup : Except Err String) (chain : Chain)
    (index change : Int) : Except Err DeriveResult :=
  if chain.isEVM = false then
    .error ⟨"non-EVM chain " ++ quote chain.name ++ " passed to EVMDeriver", none⟩
  else if change ≠ 0 then .error ⟨"EVM change chain must be 0", none⟩
  else if index < 0 then .error ⟨"EVM index must be >= 0", none⟩
  else
    match lookup with
    | .error err => .error err
    | .ok address => .ok ⟨address, "m/44'/60'/0'/0/" ++ index.repr, index, change⟩

/-- `BTCDeriver.DeriveAt`, with the address that the cache or the derivation gives. -/
def btcDeriveAt (quote : String → String) (lookup : Except Err String) (chain : Chain)
    (index change : Int) : Except Err DeriveResult :=
  if chain ≠ .bitcoin then
    .error ⟨"non-BTC chain " ++ quote chain.name ++ " passed to BTCDeriver", none⟩
  else if change ≠ 0 ∧ change ≠ 1 then .error ⟨"BTC change chain must be 0 or 1", none⟩
  else if index < 0 then .error ⟨"BTC index must be >= 0", none⟩
  else
    match lookup with
    | .error err => .error err
    | .ok address =>
      .ok ⟨address, "m/84'/0'/0'/" ++ change.repr ++ "/" ++ index.repr, index, change⟩

/-- `SolanaDeriver.DeriveAt`, with the address in the cache or its public key. Index and change are
ignored. -/
def solanaDeriveAt (quote : String → String) (address : String) (chain : Chain) :
    Except Err DeriveResult :=
  if chain ≠ .solana then
    .error ⟨"non-Solana chain " ++ quote chain.name ++ " passed to SolanaDeriver", none⟩
  else .ok ⟨address, "m/44'/501'/0'/0'", 0, 0⟩

/-- The derivers that `Registry.For` chooses from. -/
inductive Deriver where
  | evm
  | solana
  | btc
  deriving DecidableEq

/-- `Registry.For`. -/
def Deriver.for (quote : String → String) (chain : Chain) : Except Err Deriver :=
  if chain.isEVM then .ok .evm
  else if chain = .solana then .ok .solana
  else if chain = .bitcoin then .ok .btc
  else .error ⟨"no deriver for chain " ++ quote chain.name, none⟩

/-- What `DeriveAt` of a deriver may answer. -/
def Deriver.MayDerive (quote : String → String) (deriver : Deriver) (chain : Chain)
    (index change : Int) (answer : Except Err DeriveResult) : Prop :=
  match deriver with
  | .evm => ∃ lookup, answer = evmDeriveAt quote lookup chain index change
  | .btc => ∃ lookup, answer = btcDeriveAt quote lookup chain index change
  | .solana => ∃ address, answer = solanaDeriveAt quote address chain

/-! ## Calls -/

/-- The calls of the rotation policy. -/
inductive RotationOp where
  | getWallet (id : UUID)
  | getActiveAddress (walletID : UUID)
  | listAddresses (walletID : UUID)
  | deprecateAddress (id : UUID)
  | nextAddressIndex (chain : Chain) (change : Int)
  | insertAddress (a : Address)
  /-- `lock.Locker.Acquire`. -/
  | acquire (name : String)
  /-- `lock.Locker.Release`. -/
  | release (name token : String)
  /-- `deriver.Deriver.DeriveAt`. -/
  | deriveAt (deriver : Deriver) (walletID : UUID) (chain : Chain) (index change : Int)
  /-- `uuid.NewV7`, with its error ignored. -/
  | newV7
  /-- `time.Now`. -/
  | now
  /-- `audit.Emitter.Emit`. -/
  | emit (event : AuditEvent)
  deriving DecidableEq

/-- The answers of a call. -/
abbrev RotationOp.Ans : RotationOp → Type
  | .getWallet _ => Except Err Wallet
  | .getActiveAddress _ => Except Err Address
  | .listAddresses _ => Except Err (List Address)
  | .deprecateAddress _ => Except Err Unit
  | .nextAddressIndex _ _ => Except Err Int
  | .insertAddress _ => Except Err Unit
  | .acquire _ => Except Err (String × Bool)
  | .release _ _ => Except Err Unit
  | .deriveAt _ _ _ _ _ => Except Err DeriveResult
  | .newV7 => UUID
  | .now => Int
  | .emit _ => Except Err Unit

/-- The signature of the rotation programs. -/
abbrev rotationCalls : Signature := ⟨RotationOp, RotationOp.Ans⟩

/-- Programs of the rotation policy. -/
abbrev RotationProg (α : Type) : Type := Program rotationCalls α

/-- The program of one call. -/
abbrev ask (op : RotationOp) : RotationProg op.Ans := Program.perform (S := rotationCalls) op

/-! ## The policy -/

/-- `wallet.RotationPolicy`: what the policy is constructed with. -/
structure RotationPolicy where
  /-- `strconv.Quote`, the `%q` verb of the error texts. -/
  quote : String → String
  /-- `Audit` is not nil. -/
  audit : Bool := true
  /-- `Config.DefaultRotationDays`. -/
  defaultRotationDays : Int := 7

/-- The name of the lock of a wallet. -/
def rotationLock (walletID : UUID) : String := "addr:" ++ walletID.string

/-- `time.Hour`. -/
def hour : Int := 3600000000000

/-- `time.Since(createdAt) > time.Duration(days)*24*time.Hour`. -/
def agedOut (days createdAt now : Int) : Bool :=
  wrapInt64 (wrapInt64 (days * 24) * hour) < clampInt64 (now - createdAt)

namespace RotationPolicy

/-- The error of a lock that is not granted. -/
def inProgress : Err := ⟨"rotation already in progress", none⟩

/-- Emit an audit event if there is an emitter, ignoring its error. -/
def emit (p : RotationPolicy) (event : AuditEvent) : RotationProg Unit := do
  if p.audit then
    let _ ← ask (.emit event)
    pure ()

/-- The days of `shouldRotate`. -/
def days (p : RotationPolicy) (w : Wallet) : Int := w.rotationDays.getD p.defaultRotationDays

/-- The receive count of `shouldRotate`. -/
def receivedEnough (w : Wallet) (a : Address) : Bool :=
  match w.rotationAfterReceives with
  | some count => count ≤ a.receiveCount
  | none => false

/-- `shouldRotate`. The clock is read only for a positive number of days. -/
def shouldRotate (p : RotationPolicy) (w : Wallet) (a : Address) : RotationProg Bool := do
  if 0 < p.days w then
    let now ← ask .now
    pure (agedOut (p.days w) a.createdAt now || receivedEnough w a)
  else pure (receivedEnough w a)

/-- The address that `deriveNew` inserts. -/
def newAddress (w : Wallet) (id : UUID) (res : DeriveResult) (now : Int) : Address :=
  { id, walletID := w.id, chain := w.chain, address := res.address,
    derivationPath := res.derivationPath, index := res.index, change := res.change,
    state := .active, createdAt := now }

/-- The part of `deriveNew` for Solana: the first address of the wallet is deprecated. -/
def deprecateFirst (w : Wallet) : RotationProg (Except Err Unit) := do
  if w.chain = .solana then
    match ← ask (.listAddresses w.id) with
    | .ok (first :: _) => ask (.deprecateAddress first.id)
    | _ => pure (.ok ())
  else pure (.ok ())

/-- `deriveNew`. -/
def deriveNew (p : RotationPolicy) (w : Wallet) : RotationProg (Except Err Address) := do
  match Deriver.for p.quote w.chain with
  | .error err => pure (.error err)
  | .ok d =>
    match ← ask (.nextAddressIndex w.chain 0) with
    | .error err => pure (.error (err.wrap "next index"))
    | .ok idx =>
      match ← deprecateFirst w with
      | .error err => pure (.error err)
      | .ok () =>
        match ← ask (.deriveAt d w.id w.chain idx 0) with
        | .error err => pure (.error (err.wrap "derive"))
        | .ok res =>
          let id ← ask .newV7
          let now ← ask .now
          let addr := newAddress w id res now
          match ← ask (.insertAddress addr) with
          | .error err => pure (.error (err.wrap "insert address"))
          | .ok () =>
            p.emit ⟨"wallet.address.derived", some w.id, [("address", .text addr.address),
              ("index", .number addr.index), ("path", .text addr.derivationPath)]⟩
            pure (.ok addr)

/-- The part of `rotate` under the lock. -/
def rotateLocked (p : RotationPolicy) (w : Wallet) (old : Address) :
    RotationProg (Except Err Address) := do
  match ← ask (.deprecateAddress old.id) with
  | .error err => pure (.error (err.wrap "deprecate old address"))
  | .ok () =>
    match ← p.deriveNew w with
    | .error err => pure (.error err)
    | .ok addr =>
      p.emit ⟨"wallet.address.rotated", some w.id, [("old_address", .text old.address),
        ("new_address", .text addr.address), ("index", .number addr.index)]⟩
      pure (.ok addr)

/-- A program between the acquisition and the release of the lock of a wallet, as `rotate` and
`ForceRotate` run theirs. -/
def underLock (w : Wallet) (program : RotationProg (Except Err Address)) :
    RotationProg (Except Err Address) := do
  match ← ask (.acquire (rotationLock w.id)) with
  | .error err => pure (.error (err.wrap "acquire rotation lock"))
  | .ok (token, ok) =>
    if ok then
      let result ← program
      let _ ← ask (.release (rotationLock w.id) token)
      pure result
    else pure (.error inProgress)

/-- `rotate`. -/
def rotate (p : RotationPolicy) (w : Wallet) (old : Address) : RotationProg (Except Err Address) :=
  underLock w (p.rotateLocked w old)

/-- The loop of `deriveNewLocked`. -/
def deriveLoop (p : RotationPolicy) (w : Wallet) : Nat → RotationProg (Except Err Address)
  | 0 => pure (.error inProgress)
  | tries + 1 => do
    match ← ask (.acquire (rotationLock w.id)) with
    | .error err => pure (.error (err.wrap "acquire rotation lock"))
    | .ok (token, ok) =>
      if ok then
        match ← ask (.getActiveAddress w.id) with
        | .ok active =>
          let _ ← ask (.release (rotationLock w.id) token)
          pure (.ok active)
        | .error err =>
          if err.is .errNoRows then
            let result ← p.deriveNew w
            let _ ← ask (.release (rotationLock w.id) token)
            pure result
          else
            let _ ← ask (.release (rotationLock w.id) token)
            pure (.error err)
      else
        -- Another call holds the lock; it may have inserted the active address.
        match ← ask (.getActiveAddress w.id) with
        | .ok active => pure (.ok active)
        | .error err => if err.is .errNoRows then p.deriveLoop w tries else pure (.error err)

/-- `deriveNewLocked`. -/
def deriveNewLocked (p : RotationPolicy) (w : Wallet) : RotationProg (Except Err Address) :=
  p.deriveLoop w 20

/-- `CurrentOrRotate`. -/
def currentOrRotate (p : RotationPolicy) (walletID : UUID) :
    RotationProg (Except Err Address) := do
  match ← ask (.getWallet walletID) with
  | .error err => pure (.error err)
  | .ok w =>
    if w.state = .retired then pure (.error ⟨"wallet is retired", some .errWalletRetired⟩)
    else
      match ← ask (.getActiveAddress walletID) with
      | .error err => if err.is .errNoRows then p.deriveNewLocked w else pure (.error err)
      | .ok active =>
        if ← p.shouldRotate w active then p.rotate w active else pure (.ok active)

/-- `ForceRotate`. -/
def forceRotate (p : RotationPolicy) (walletID : UUID) : RotationProg (Except Err Address) := do
  match ← ask (.getWallet walletID) with
  | .error err => pure (.error err)
  | .ok w =>
    if w.state = .retired then pure (.error ⟨"wallet is retired", some .errWalletRetired⟩)
    else
      match ← ask (.getActiveAddress walletID) with
      | .ok active => p.rotate w active
      | .error err =>
        if err.is .errNoRows then underLock w (p.deriveNew w) else pure (.error err)

end RotationPolicy

/-- The calls that rotate. -/
inductive RotationCall where
  | currentOrRotate
  | forceRotate
  deriving DecidableEq

/-- The program of a call on a wallet. -/
def RotationPolicy.body (p : RotationPolicy) (walletID : UUID) :
    RotationCall → RotationProg (Except Err Address)
  | .currentOrRotate => p.currentOrRotate walletID
  | .forceRotate => p.forceRotate walletID

/-! ## The meaning of the calls -/

/-- The locks that are held, each with its token. -/
abbrev Locks : Type := String → Option String

/-- The answers of a `lock.Locker`. -/
structure Locker where
  /-- `Acquire`, with the locks before and after it. -/
  acquire : String → Locks → Except Err (String × Bool) → Locks → Prop
  /-- `Release`. -/
  release : String → String → Locks → Except Err Unit → Locks → Prop

/-- `MemLocker`. Its tokens come from `uuid.NewString`. -/
def memLocker : Locker where
  acquire name locks answer locks' :=
    match locks name with
    | some _ => answer = .ok ("", false) ∧ locks' = locks
    | none => ∃ token, answer = .ok (token, true) ∧ locks' = Function.update locks name (some token)
  release name token locks answer locks' :=
    answer = .ok () ∧
      locks' = if locks name = some token then Function.update locks name none else locks

/-- What the policy is constructed with besides the store. -/
structure Collaborators where
  locker : Locker
  /-- The answers of `DeriveAt`. -/
  derives : Deriver → UUID → Chain → Int → Int → Except Err DeriveResult → Prop

/-- The derivers of `deriver.Registry`. -/
def registryDerives (quote : String → String) (deriver : Deriver) (_walletID : UUID)
    (chain : Chain) (index change : Int) (answer : Except Err DeriveResult) : Prop :=
  deriver.MayDerive quote chain index change answer

/-- What the calls of all wallets share. -/
structure RotationState where
  store : Store
  locks : Locks := fun _ => none

/-- The moves of a rotation. -/
abbrev RotationMove : Type := Move rotationCalls RotationState

/-- Concurrent rotations. -/
abbrev RotationCrew (ι : Type) : Type := Crew rotationCalls RotationState ι (Except Err Address)

/-- The meaning of the calls. The clock, `uuid.NewV7` and the emitter answer anything. -/
def Collaborators.step (env : Collaborators) : Transition rotationCalls RotationState
  | .getWallet id, s, answer, s' => answer = s.store.getWallet id ∧ s' = s
  | .getActiveAddress walletID, s, answer, s' => s.store.GetActiveAddress walletID answer ∧ s' = s
  | .listAddresses walletID, s, answer, s' =>
    (∃ addrs, s.store.ListAddresses walletID addrs ∧ answer = .ok addrs) ∧ s' = s
  | .deprecateAddress id, s, answer, s' =>
    answer = (s.store.deprecateAddress id).1 ∧
      s' = { s with store := (s.store.deprecateAddress id).2 }
  | .nextAddressIndex chain change, s, answer, s' =>
    answer = .ok (s.store.nextAddressIndex chain change) ∧ s' = s
  | .insertAddress a, s, answer, s' => ∃ now, answer = (s.store.insertAddress now a).1 ∧
      s' = { s with store := (s.store.insertAddress now a).2 }
  | .acquire name, s, answer, s' =>
    ∃ locks, env.locker.acquire name s.locks answer locks ∧ s' = { s with locks }
  | .release name token, s, answer, s' =>
    ∃ locks, env.locker.release name token s.locks answer locks ∧ s' = { s with locks }
  | .deriveAt deriver walletID chain index change, s, answer, s' =>
    env.derives deriver walletID chain index change answer ∧ s' = s
  | .newV7, s, _, s' | .now, s, _, s' | .emit _, s, _, s' => s' = s

/-! ## The parts that both calls share -/

/-- An emission makes no other call. -/
theorem emit_calls {p : RotationPolicy} {allowed : RotationOp → Prop} (event : AuditEvent)
    (emits : allowed (.emit event)) : (p.emit event).Calls allowed := by
  unfold RotationPolicy.emit
  split
  · exact ⟨emits, fun _ => trivial⟩
  · trivial

/-- Both calls read the wallet and its active address, unless the wallet is retired. -/
theorem opening_follows {env : Collaborators} {walletID : UUID}
    {conduct : Conduct rotationCalls RotationState (Except Err Address)}
    {next : Wallet → Except Err Address → RotationProg (Except Err Address)}
    (allows : ∀ moves, conduct.allows moves (.getWallet walletID) ∧
      conduct.allows moves (.getActiveAddress walletID))
    (returns : ∀ result s answer s', conduct.returns result [⟨.getWallet walletID, s, answer, s'⟩])
    (continues : ∀ s w s' s₂ answer s₂', conduct.knows [] s →
      env.step (.getWallet walletID) s (.ok w) s' →
      env.step (.getActiveAddress walletID) s₂ answer s₂' →
      (next w answer).Follows env.step conduct
        [⟨.getActiveAddress walletID, s₂, answer, s₂'⟩, ⟨.getWallet walletID, s, .ok w, s'⟩]) :
    Program.Follows env.step conduct (do
      match ← ask (.getWallet walletID) with
      | .error err => pure (.error err)
      | .ok w =>
        if w.state = .retired then pure (.error ⟨"wallet is retired", some .errWalletRetired⟩)
        else next w (← ask (.getActiveAddress walletID))) [] := by
  refine .perform_bind (allows _).1 fun s answer s' knows read => ?_
  cases answer with
  | error err => exact returns _ _ _ _
  | ok w =>
    dsimp only
    split
    · exact returns _ _ _ _
    · exact .perform_bind (allows _).2 fun s₂ answer s₂' _ moved =>
        continues s w s' s₂ answer s₂' knows read moved

/-! ## Scripted rotations -/

/-- Fixed answers of everything but the store. -/
structure RotationScript where
  id : UUID
  now : Int := 1
  acquire : String → Locks → Except Err (String × Bool) × Locks
  release : String → String → Locks → Except Err Unit × Locks
  derive : Deriver → Chain → Int → Int → Except Err DeriveResult

/-- Answer a call from a script, over the store and the locks. -/
def RotationScript.handle (script : RotationScript) :
    (op : RotationOp) → RotationState → op.Ans × RotationState
  | .getWallet id, s => (s.store.getWallet id, s)
  | .getActiveAddress walletID, s =>
    ((s.store.activeAddresses walletID).head?.elim (.error Store.noActiveAddress) .ok, s)
  | .listAddresses walletID, s =>
    (.ok ((s.store.addresses.select fun a => a.walletID = walletID).insertionSort
      fun left right => Store.addressLess right left = false), s)
  | .deprecateAddress id, s =>
    ((s.store.deprecateAddress id).1, { s with store := (s.store.deprecateAddress id).2 })
  | .nextAddressIndex chain change, s => (.ok (s.store.nextAddressIndex chain change), s)
  | .insertAddress a, s => ((s.store.insertAddress script.now a).1,
      { s with store := (s.store.insertAddress script.now a).2 })
  | .acquire name, s => ((script.acquire name s.locks).1,
      { s with locks := (script.acquire name s.locks).2 })
  | .release name token, s => ((script.release name token s.locks).1,
      { s with locks := (script.release name token s.locks).2 })
  | .deriveAt deriver _ chain index change, s => (script.derive deriver chain index change, s)
  | .newV7, s => (script.id, s)
  | .now, s => (script.now, s)
  | .emit _, s => (.ok (), s)

/-- The first active address is one that `GetActiveAddress` may answer with. -/
theorem getActiveAddress_head (s : Store) (walletID : UUID) : s.GetActiveAddress walletID
    ((s.activeAddresses walletID).head?.elim (.error Store.noActiveAddress) .ok) := by
  cases active : s.activeAddresses walletID with
  | nil => exact ⟨active, rfl⟩
  | cons a rest =>
    show a ∈ s.activeAddresses walletID
    rw [active]
    exact List.mem_cons_self

/-- The order of `ListAddresses` sorts. -/
theorem sorted_addresses (addrs : List Address) :
    (addrs.insertionSort fun left right => Store.addressLess right left = false).Pairwise
      fun earlier later => Store.addressLess later earlier = false := by
  have total : Std.Total fun left right : Address => Store.addressLess right left = false := by
    refine ⟨fun left right => ?_⟩
    simp only [Store.addressLess]
    split <;> split <;> simp only [decide_eq_false_iff_not] <;> omega
  have trans : IsTrans Address fun left right => Store.addressLess right left = false := by
    refine ⟨fun left middle right => ?_⟩
    simp only [Store.addressLess]
    split <;> split <;> split <;> simp only [decide_eq_false_iff_not] <;> omega
  exact List.pairwise_insertionSort _ _

/-- A script answers as the collaborators may. -/
structure RotationScript.Plays (script : RotationScript) (env : Collaborators) : Prop where
  acquire : ∀ name locks, env.locker.acquire name locks (script.acquire name locks).1
    (script.acquire name locks).2
  release : ∀ name token locks, env.locker.release name token locks
    (script.release name token locks).1 (script.release name token locks).2
  derive : ∀ deriver walletID chain index change,
    env.derives deriver walletID chain index change (script.derive deriver chain index change)

/-- A scripted answer is an answer of the system. -/
theorem RotationScript.handle_follows {script : RotationScript} {env : Collaborators}
    (plays : script.Plays env) (op : RotationOp) (s : RotationState) :
    env.step op s (script.handle op s).1 (script.handle op s).2 := by
  cases op with
  | getActiveAddress walletID => exact ⟨getActiveAddress_head s.store walletID, rfl⟩
  | listAddresses walletID =>
    exact ⟨⟨_, ⟨List.perm_insertionSort _ _, sorted_addresses _⟩, rfl⟩, rfl⟩
  | insertAddress a => exact ⟨script.now, rfl, rfl⟩
  | acquire name => exact ⟨_, plays.acquire name s.locks, rfl⟩
  | release name token => exact ⟨_, plays.release name token s.locks, rfl⟩
  | deriveAt deriver walletID chain index change =>
    exact ⟨plays.derive deriver walletID chain index change, rfl⟩
  | newV7 | now | emit _ => exact rfl
  | _ => exact ⟨rfl, rfl⟩

/-- The turns of a schedule in which every caller has a script. -/
def scriptedRotation {ι : Type} (script : ι → RotationScript) (turns : List ι) :
    List (Crew.Turn rotationCalls RotationState ι) :=
  turns.map fun i => (i, (script i).handle)

/-- A scripted schedule is a schedule of the system. -/
theorem scriptedRotation_reachable {ι α : Type} [DecidableEq ι] {script : ι → RotationScript}
    {env : Collaborators} {admits : Crew.Guard rotationCalls RotationState ι α}
    {crew : Crew rotationCalls RotationState ι α} {turns : List ι}
    (plays : ∀ i, (script i).Plays env)
    (admitted : crew.AdmitsAll admits (scriptedRotation script turns)) :
    Crew.Reachable (fun _ => env.step) admits crew (crew.play (scriptedRotation script turns)) := by
  refine Crew.reachable_play (fun next member op s => ?_) admitted
  obtain ⟨i, -, rfl⟩ := List.mem_map.mp member
  exact RotationScript.handle_follows (plays i) op s

end WalletManagement
