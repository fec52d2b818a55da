import WalletManagement.AddressIndex
import WalletManagement.DerivationCache
import WalletManagement.RotationActive
import WalletManagement.Interaction.Layers

/-!
# Recoverable addresses

The rotation policy stores the addresses that a registry of derivers gives it, and the derivers take
them from a cache that all of them share: `MemCache`, or `RedisCache` over a server that drops keys
and fails. Any number of rotations run at once. Whatever the cache, the locker and the clock do, an
address that is stored, or handed out, is the one that its own row derives again without a cache, so
the funds it receives can be found from the extended public keys and the table alone.
-/

namespace WalletManagement

open Interaction Data

/-! ## The caches -/

/-- `memEntry`. -/
structure MemEntry where
  value : String
  exp : Int

/-- `MemCache`. -/
structure MemCache where
  data : String → Option MemEntry

namespace MemCache

/-- `NewMem`. -/
def empty : MemCache := ⟨fun _ => none⟩

/-- `MemCache.Get`, at the time it reads. -/
def get (m : MemCache) (now : Int) (key : String) : Option String × MemCache :=
  match m.data key with
  | some e => if e.exp < now then (none, ⟨Function.update m.data key none⟩) else (some e.value, m)
  | none => (none, ⟨Function.update m.data key none⟩)

/-- `MemCache.Set`. -/
def set (m : MemCache) (now : Int) (key value : String) (ttl : Int) : MemCache :=
  ⟨Function.update m.data key (some ⟨value, now + ttl⟩)⟩

/-- The calls of the derivers to a `MemCache`, which do not fail. -/
def step : Transition cacheCalls MemCache
  | .get key, m, answer, m' => ∃ now, answer = .ok (m.get now key).1 ∧ m' = (m.get now key).2
  | .set key value ttl, m, answer, m' => ∃ now, answer = .ok () ∧ m' = m.set now key value ttl

/-- What it holds, whether it has expired or not. -/
def entries (m : MemCache) : CacheEntries := fun key => (m.data key).map (·.value)

end MemCache

/-- A key on the server, with the time at which it ends. -/
structure RedisEntry where
  value : String
  deadline : Option Int

/-- The keys on the server. -/
structure RedisKeys where
  keys : String → Option RedisEntry

namespace RedisKeys

/-- The keys at some time: none of them has ended, and the server may have dropped others. -/
def Elapsed (before : RedisKeys) (now : Int) (after : RedisKeys) : Prop :=
  ∀ key e, after.keys key = some e →
    before.keys key = some e ∧ ∀ deadline, e.deadline = some deadline → now < deadline

/-- `SET` as go-redis sends it: with an expiration if that is positive, and with `KEEPTTL` if it
is -1. -/
def put (s : RedisKeys) (now : Int) (key value : String) (expiration : Int) : RedisKeys :=
  let deadline := if 0 < expiration then some (now + expiration)
    else if expiration = -1 then (s.keys key).bind (·.deadline) else none
  ⟨Function.update s.keys key (some ⟨value, deadline⟩)⟩

/-- The values of the keys. -/
def entries (s : RedisKeys) : CacheEntries := fun key => (s.keys key).map (·.value)

end RedisKeys

/-- `RedisCache`. -/
structure RedisCache where
  ttl : Int

namespace RedisCache

/-- The expiration of `RedisCache.Set`. -/
def expiration (r : RedisCache) (ttl : Int) : Int := if ttl ≤ 0 then r.ttl else ttl

/-- The calls of the derivers to a `RedisCache`. A command may fail, and a `SET` that fails may have
taken effect. -/
def step (r : RedisCache) : Transition cacheCalls RedisKeys
  | .get key, s, answer, s' => ∃ now, s.Elapsed now s' ∧
      (answer = .ok (s'.entries key) ∨ ∃ err, answer = .error err)
  | .set key value ttl, s, answer, s' => ∃ now t, s.Elapsed now t ∧
      (s' = t.put now key value (r.expiration ttl) ∨ s' = t ∧ ∃ err, answer = .error err)

end RedisCache

/-- The caches that `initCacheAndLocker` chooses from. -/
inductive CacheBackend where
  | mem
  | redis (cache : RedisCache)

namespace CacheBackend

/-- What a cache keeps. -/
abbrev State : CacheBackend → Type
  | .mem => MemCache
  | .redis _ => RedisKeys

/-- The calls of the derivers. -/
def step : (backend : CacheBackend) → Transition cacheCalls backend.State
  | .mem => MemCache.step
  | .redis cache => cache.step

/-- What the cache holds. -/
def entries : (backend : CacheBackend) → backend.State → CacheEntries
  | .mem => MemCache.entries
  | .redis _ => RedisKeys.entries

end CacheBackend

/-- An entry after one is written. -/
theorem map_update_eq_some {E : Type} {data : String → Option E} {key other value : String}
    {written : Option E} {shown : E → String}
    (found : (Function.update data key written other).map shown = some value) :
    (data other).map shown = some value ∨ other = key ∧ written.map shown = some value := by
  by_cases same : other = key
  · subst same
    rw [Function.update_self] at found
    exact .inr ⟨rfl, found⟩
  · rw [Function.update_of_ne same] at found
    exact .inl found

/-- An entry that `Get` drops is gone, and it finds only what is there. -/
theorem MemCache.refines {op : CacheOp} {m m' : MemCache} {answer : op.Ans}
    (moved : MemCache.step op m answer m') : cacheStep op m.entries answer m'.entries := by
  have dropped (key other value : String)
      (found : (⟨Function.update m.data key none⟩ : MemCache).entries other = some value) :
      m.entries other = some value := by
    rcases map_update_eq_some found with old | ⟨-, new⟩
    · exact old
    · cases new
  cases op with
  | get key =>
    obtain ⟨now, rfl, rfl⟩ := moved
    unfold MemCache.get
    cases found : m.data key with
    | none =>
      refine ⟨fun v hit => ?_, fun k v => dropped key k v⟩
      cases hit
    | some e =>
      dsimp only
      split
      · refine ⟨fun v hit => ?_, fun k v => dropped key k v⟩
        cases hit
      · refine ⟨fun v hit => ?_, fun k v same => same⟩
        simp only [Except.ok.injEq, Option.some.injEq] at hit
        rw [← hit]
        show (m.data key).map _ = _
        rw [found]
        rfl
  | set key value ttl =>
    obtain ⟨now, -, rfl⟩ := moved
    intro k v found
    rcases map_update_eq_some found with old | ⟨same, new⟩
    · exact .inl old
    · exact .inr ⟨same, (Option.some.inj new).symm⟩

/-- What is on the server later was there before. -/
theorem RedisKeys.Elapsed.entries {s s' : RedisKeys} {now : Int} (elapsed : s.Elapsed now s')
    {key value : String} (found : s'.entries key = some value) : s.entries key = some value := by
  obtain ⟨e, held, rfl⟩ := Option.map_eq_some_iff.mp found
  show (s.keys key).map _ = _
  rw [(elapsed key e held).1]
  rfl

theorem RedisCache.refines {r : RedisCache} {op : CacheOp} {s s' : RedisKeys} {answer : op.Ans}
    (moved : r.step op s answer s') : cacheStep op s.entries answer s'.entries := by
  cases op with
  | get key =>
    obtain ⟨now, elapsed, answered⟩ := moved
    refine ⟨fun v hit => ?_, fun k v found => elapsed.entries found⟩
    rcases answered with rfl | ⟨err, rfl⟩
    · exact elapsed.entries (Except.ok.inj hit)
    · cases hit
  | set key value ttl =>
    obtain ⟨now, t, elapsed, rfl | ⟨rfl, -⟩⟩ := moved
    · intro k v found
      rcases map_update_eq_some found with old | ⟨same, new⟩
      · exact .inl (elapsed.entries old)
      · exact .inr ⟨same, (Option.some.inj new).symm⟩
    · exact fun k v found => .inl (elapsed.entries found)

/-- Both caches are caches as the derivers expect them. -/
theorem CacheBackend.refines {backend : CacheBackend} {op : CacheOp} {s s' : backend.State}
    {answer : op.Ans} (moved : backend.step op s answer s') :
    cacheStep op (backend.entries s) answer (backend.entries s') := by
  cases backend with
  | mem => exact MemCache.refines moved
  | redis cache => exact RedisCache.refines moved

/-! ## The derivers -/

section Derivers

variable {libs : DerivationLibraries}

/-- A lookup among derived entries gives what the derivation gives, and leaves derived entries,
whatever is written and lost between its two calls. -/
theorem memoize_steady {key : String} (ttl : Int) {derived : Option (Except Err String)}
    (entry : ∀ value, Derived libs key value ↔ derived = some (.ok value)) :
    (memoize key ttl derived).Steady cacheStep (AllDerived libs) (· = derived) := by
  refine .perform_bind fun s answer s' entries moved => ?_
  obtain ⟨hit, kept⟩ := moved
  refine ⟨fun k v found => entries k v (kept k v found), ?_⟩
  split
  · rename_i v
    have found := entries key v (hit v rfl)
    exact ((entry v).mp found).symm
  · split
    · rename_i addr
      refine .perform_bind fun t _ t' entries' written => ⟨fun k v found => ?_, rfl⟩
      rcases written k v found with old | ⟨rfl, rfl⟩
      · exact entries' k v old
      · exact (entry v).mpr rfl
    · exact rfl

/-- A value that is a lookup's in another form. -/
theorem memoize_map_steady {α : Type} {key : String} (ttl : Int)
    {derived : Option (Except Err String)} (change : Option (Except Err String) → α)
    (entry : ∀ value, Derived libs key value ↔ derived = some (.ok value)) :
    (memoize key ttl derived >>= fun found => Pure.pure (change found)).Steady cacheStep
      (AllDerived libs) (· = ((memoize key ttl derived >>= fun found =>
        Pure.pure (change found)).run noCache ()).1) := by
  rw [Program.run_bind, run_memoize]
  refine (memoize_steady ttl entry).bind fun value same => ?_
  rw [same]
  exact rfl

/-- A call of `DeriveAt` returns what it returns with no cache, and leaves derived entries, whatever
other calls do meanwhile. -/
theorem DeriveCall.steady (call : DeriveCall) :
    (call.body libs).Steady cacheStep (AllDerived libs) (· = call.uncached libs) := by
  cases call with
  | evm d chain index change =>
    simp only [uncached, body, EVMDeriver.deriveAt]
    split_ifs
    · exact rfl
    · exact rfl
    · exact rfl
    · exact memoize_map_steady d.ttl _ fun value => derived_evm
  | btc d chain index change =>
    have entry (value : String) : Derived libs (btcCacheKey d.xpub change index) value ↔
        some (btcDeriveUncached libs d.xpub index change) = some (.ok value) := by
      rw [derived_btc, Option.some_inj]
    simp only [uncached, body, BTCDeriver.deriveAt]
    split_ifs
    · exact rfl
    · exact rfl
    · exact rfl
    · exact memoize_map_steady d.ttl _ entry
  | solana d chain _ _ =>
    have entry (value : String) : Derived libs (solanaCacheKey d.pubkeyBase58) value ↔
        (some (.ok d.pubkeyBase58) : Option (Except Err String)) = some (.ok value) := by
      rw [derived_solana, Option.some_inj, Except.ok.injEq]
    simp only [uncached, body, SolanaDeriver.deriveAt]
    split_ifs
    · exact rfl
    · exact memoize_map_steady d.ttl _ entry

end Derivers

/-- The calls of a deriver: to its cache, and the panic of a key that cannot be decompressed. -/
inductive DeriverOp where
  | cache (op : CacheOp)
  | panicked

/-- The answers of a call. Nothing answers a panic. -/
abbrev DeriverOp.Ans : DeriverOp → Type
  | .cache op => op.Ans
  | .panicked => Except Err DeriveResult

/-- The signature of the derivers. -/
abbrev deriverCalls : Signature := ⟨DeriverOp, DeriverOp.Ans⟩

/-- The meaning of the calls. A goroutine that panics makes no further call. -/
def deriverStep (backend : CacheBackend) : Transition deriverCalls backend.State
  | .cache op, s, answer, s' => backend.step op s answer s'
  | .panicked, _, _, _ => False

/-- A call of `DeriveAt`. -/
def DeriveCall.program (libs : DerivationLibraries) (call : DeriveCall) :
    Program deriverCalls (Except Err DeriveResult) :=
  (call.body libs).embed .cache (fun _ answer => answer) >>= fun
    | some answer => .done answer
    | none => .call .panicked .done

theorem DeriveCall.program_steady {libs : DerivationLibraries} (backend : CacheBackend)
    (call : DeriveCall) : (call.program libs).Steady (deriverStep backend)
      (fun s => AllDerived libs (backend.entries s)) fun answer =>
        call.uncached libs = some answer := by
  have body : (call.body libs).Steady cacheStep (AllDerived libs) (· = call.uncached libs) :=
    call.steady
  have lifted : ((call.body libs).embed .cache (fun _ answer => answer) :
      Program deriverCalls (Option (Except Err DeriveResult))).Steady (deriverStep backend)
      (fun s => AllDerived libs (backend.entries s)) (· = call.uncached libs) :=
    body.embed fun op t answer t' moved => CacheBackend.refines moved
  refine lifted.bind ?_
  rintro (_ | answer) same
  · rintro s answer s' - ⟨⟩
  · exact same.symm

/-! ## The registry -/

/-- `deriver.Registry`. -/
structure Registry where
  evm : EVMDeriver
  solana : SolanaDeriver
  btc : BTCDeriver

namespace Registry

/-- The call of `DeriveAt` on one of the derivers. -/
def call (reg : Registry) : Deriver → Chain → Int → Int → DeriveCall
  | .evm => .evm reg.evm
  | .solana => .solana reg.solana
  | .btc => .btc reg.btc

/-- The registry derives the row again, without a cache. -/
def Recovers (reg : Registry) (libs : DerivationLibraries) (a : Address) : Prop :=
  ∃ d, Deriver.for libs.quote a.chain = .ok d ∧
    (reg.call d a.chain a.index a.change).uncached libs =
      some (.ok ⟨a.address, a.derivationPath, a.index, a.change⟩)

/-- Every address of the store is derived again from its own row. -/
def RecoversAll (reg : Registry) (libs : DerivationLibraries) (s : Store) : Prop :=
  ∀ a ∈ s.addresses.rows, reg.Recovers libs a

/-- A derivation is the same at the index and on the chain that it reports. -/
theorem again {reg : Registry} {libs : DerivationLibraries} {d : Deriver} {chain : Chain}
    {index change : Int} {res : DeriveResult}
    (derived : (reg.call d chain index change).uncached libs = some (.ok res)) :
    (reg.call d chain res.index res.change).uncached libs = some (.ok res) := by
  have expected := DeriveCall.expects_uncached derived
  cases d with
  | solana => exact derived
  | evm =>
    obtain ⟨lookup, same⟩ := expected
    unfold evmDeriveAt at same
    split_ifs at same
    cases lookup with
    | error _ => cases same
    | ok address =>
      cases same
      exact derived
  | btc =>
    obtain ⟨lookup, same⟩ := expected
    unfold btcDeriveAt at same
    split_ifs at same
    cases lookup with
    | error _ => cases same
    | ok address =>
      cases same
      exact derived

end Registry

/-! ## Rotations -/

section Rotations

variable {libs : DerivationLibraries} {reg : Registry}

/-- The collaborators of the policy: any locker, and the derivers of the registry without a
cache. -/
def plainCollaborators (libs : DerivationLibraries) (reg : Registry) (locker : Locker) :
    Collaborators where
  locker
  derives d _ chain index change answer :=
    (reg.call d chain index change).uncached libs = some answer

variable {locker : Locker} {p : RotationPolicy} {w : Wallet}

/-- Programs of the policy that keep every stored address recoverable, and return only such
addresses. -/
abbrev Recovering (libs : DerivationLibraries) (reg : Registry) (locker : Locker) :
    RotationProg (Except Err Address) → Prop :=
  Program.Steady (plainCollaborators libs reg locker).step
    (fun s => reg.RecoversAll libs s.store) fun result =>
      ∀ a, result = .ok a → reg.Recovers libs a

/-- A call that inserts no address keeps the stored ones recoverable. -/
theorem recoversAll_step {op : RotationOp} {s s' : RotationState} {answer : op.Ans}
    (other : op.inserts = false) (recovers : reg.RecoversAll libs s.store)
    (moved : (plainCollaborators libs reg locker).step op s answer s') :
    reg.RecoversAll libs s'.store := by
  cases op with
  | insertAddress a => cases other
  | deprecateAddress id =>
    rw [moved.2]
    intro row member
    rcases Store.mem_deprecateAddress member with old | ⟨a, old, rfl⟩
    · exact recovers row old
    · exact recovers a old
  | acquire name | release name token =>
    obtain ⟨locks, -, rfl⟩ := moved
    exact recovers
  | newV7 | now | emit _ =>
    rw [show s' = s from moved]
    exact recovers
  | _ =>
    rw [moved.2]
    exact recovers

/-- So does a call that neither locks nor counts. -/
theorem recoversAll_aside {op : RotationOp} {s s' : RotationState} {answer : op.Ans}
    (aside : op.Aside) (recovers : reg.RecoversAll libs s.store)
    (moved : (plainCollaborators libs reg locker).step op s answer s') :
    reg.RecoversAll libs s'.store := by
  refine recoversAll_step ?_ recovers moved
  cases op with
  | insertAddress a => exact aside.elim
  | _ => rfl

/-- An address that is derived again may be inserted. -/
theorem recoversAll_insert {a : Address} {s s' : RotationState} {answer : Except Err Unit}
    (recovers : reg.RecoversAll libs s.store) (new : reg.Recovers libs a)
    (moved : (plainCollaborators libs reg locker).step (.insertAddress a) s answer s') :
    reg.RecoversAll libs s'.store := by
  obtain ⟨now, -, rfl⟩ := moved
  rcases s.store.insertAddress_cases now a with ⟨-, err, same⟩ | ⟨-, err, same⟩ |
    ⟨-, -, createdAt, same⟩
  · rw [same]
    exact recovers
  · rw [same]
    exact recovers
  · rw [same]
    intro row member
    rcases Table.mem_put.mp member with rfl | ⟨member, -⟩
    · exact new
    · exact recovers row member

/-- A call of another kind, and what follows it. -/
theorem recovering_ask {op : RotationOp} {next : op.Ans → RotationProg (Except Err Address)}
    (other : op.inserts = false)
    (rest : ∀ s answer s', reg.RecoversAll libs s.store →
      (plainCollaborators libs reg locker).step op s answer s' →
      Recovering libs reg locker (next answer)) :
    Recovering libs reg locker (ask op >>= next) :=
  .perform_bind fun s answer s' recovers moved =>
    ⟨recoversAll_step other recovers moved, rest s answer s' recovers moved⟩

/-- A program that fails. -/
theorem recovering_error (err : Err) : Recovering libs reg locker (.done (.error err)) := by
  intro a same
  cases same

/-- An address from the store is recoverable. -/
theorem recovers_active {s s' : RotationState} {walletID : UUID} {a : Address}
    (recovers : reg.RecoversAll libs s.store)
    (moved : (plainCollaborators libs reg locker).step (.getActiveAddress walletID) s (.ok a) s') :
    reg.Recovers libs a := by
  have active : a ∈ s.store.activeAddresses walletID := moved.1
  exact recovers a (List.mem_filter.mp active).1

/-- A release, and the result that was there before it. -/
theorem recovering_release {name token : String} {result : Except Err Address}
    (returned : ∀ a, result = .ok a → reg.Recovers libs a) :
    Recovering libs reg locker (do
      let _ ← ask (.release name token)
      pure result) :=
  recovering_ask rfl fun _ _ _ _ _ => returned

/-- Emitting an event, and a result. -/
theorem recovering_emit {event : AuditEvent} {result : Except Err Address}
    (returned : ∀ a, result = .ok a → reg.Recovers libs a) :
    Recovering libs reg locker (do
      p.emit event
      pure result) := by
  have emitted : (p.emit event).Steady (plainCollaborators libs reg locker).step
      (fun s => reg.RecoversAll libs s.store) fun _ => True :=
    .of_calls (emit_calls event trivial) (fun _ _ _ _ => recoversAll_aside) fun _ => trivial
  exact emitted.bind fun _ _ => returned

theorem deprecateFirst_steady :
    (RotationPolicy.deprecateFirst w).Steady (plainCollaborators libs reg locker).step
      (fun s => reg.RecoversAll libs s.store) fun _ => True :=
  .of_calls deprecateFirst_aside (fun _ _ _ _ => recoversAll_aside) fun _ => trivial

/-- `deriveNew` inserts an address that its row derives again. -/
theorem deriveNew_recovering (quote : p.quote = libs.quote) :
    Recovering libs reg locker (p.deriveNew w) := by
  unfold RotationPolicy.deriveNew
  cases chosen : Deriver.for p.quote w.chain with
  | error err => exact recovering_error err
  | ok d =>
    refine recovering_ask rfl fun _ answer _ _ _ => ?_
    cases answer with
    | error err => exact recovering_error _
    | ok idx =>
      refine deprecateFirst_steady.bind fun result _ => ?_
      cases result with
      | error err => exact recovering_error err
      | ok _ =>
        refine recovering_ask rfl fun _ answer _ _ moved => ?_
        cases answer with
        | error err => exact recovering_error _
        | ok res =>
          refine recovering_ask rfl fun _ id _ _ _ => ?_
          refine recovering_ask rfl fun _ now _ _ _ => ?_
          have new : reg.Recovers libs (RotationPolicy.newAddress w id res now) :=
            ⟨d, quote ▸ chosen, Registry.again moved.1⟩
          refine .perform_bind fun s answer s' recovers moved =>
            ⟨recoversAll_insert recovers new moved, ?_⟩
          cases answer with
          | error err => exact recovering_error _
          | ok _ =>
            refine recovering_emit fun a same => ?_
            cases same
            exact new

theorem rotateLocked_recovering (quote : p.quote = libs.quote) (old : Address) :
    Recovering libs reg locker (p.rotateLocked w old) := by
  refine recovering_ask rfl fun _ answer _ _ _ => ?_
  cases answer with
  | error err => exact recovering_error _
  | ok _ =>
    refine (deriveNew_recovering quote).bind fun result returned => ?_
    cases result with
    | error err => exact recovering_error err
    | ok addr => exact recovering_emit returned

/-- The lock changes nothing. -/
theorem underLock_recovering {program : RotationProg (Except Err Address)}
    (recovering : Recovering libs reg locker program) :
    Recovering libs reg locker (RotationPolicy.underLock w program) := by
  refine recovering_ask rfl fun _ answer _ _ _ => ?_
  cases answer with
  | error err => exact recovering_error _
  | ok granted =>
    obtain ⟨token, ok⟩ := granted
    cases ok with
    | false => exact recovering_error _
    | true => exact recovering.bind fun result returned => recovering_release returned

/-- Every round of the loop returns a stored address, or a new one, or goes on. -/
theorem deriveLoop_recovering (quote : p.quote = libs.quote) (tries : Nat) :
    Recovering libs reg locker (p.deriveLoop w tries) := by
  induction tries with
  | zero => exact recovering_error _
  | succ tries ih =>
    refine recovering_ask rfl fun _ answer _ _ _ => ?_
    cases answer with
    | error err => exact recovering_error _
    | ok granted =>
      obtain ⟨token, ok⟩ := granted
      cases ok with
      | true =>
        refine recovering_ask rfl fun s answer s' recovers moved => ?_
        cases answer with
        | ok active =>
          refine recovering_release fun a same => ?_
          cases same
          exact recovers_active recovers moved
        | error err =>
          dsimp only
          split
          · exact (deriveNew_recovering quote).bind fun result returned =>
              recovering_release returned
          · refine recovering_release fun a same => ?_
            cases same
      | false =>
        refine recovering_ask rfl fun s answer s' recovers moved => ?_
        cases answer with
        | ok active =>
          intro a same
          cases same
          exact recovers_active recovers moved
        | error err =>
          dsimp only
          split
          · exact ih
          · exact recovering_error err

/-- `shouldRotate` reads at most the clock. -/
theorem shouldRotate_steady {a : Address} :
    (p.shouldRotate w a).Steady (plainCollaborators libs reg locker).step
      (fun s => reg.RecoversAll libs s.store) fun _ => True := by
  unfold RotationPolicy.shouldRotate
  split
  · exact fun _ _ _ recovers moved => ⟨recoversAll_step rfl recovers moved, trivial⟩
  · trivial

/-- Both calls keep every stored address recoverable. -/
theorem body_recovering (quote : p.quote = libs.quote) (walletID : UUID) (call : RotationCall) :
    Recovering libs reg locker (p.body walletID call) := by
  cases call with
  | currentOrRotate =>
    refine recovering_ask rfl fun _ answer _ _ _ => ?_
    cases answer with
    | error err => exact recovering_error err
    | ok w =>
      dsimp only
      split
      · exact recovering_error _
      · refine recovering_ask rfl fun s answer s' recovers moved => ?_
        cases answer with
        | error err =>
          dsimp only
          split
          · exact deriveLoop_recovering quote 20
          · exact recovering_error err
        | ok active =>
          refine shouldRotate_steady.bind fun rotates _ => ?_
          cases rotates with
          | true => exact underLock_recovering (rotateLocked_recovering quote active)
          | false =>
            intro a same
            cases same
            exact recovers_active recovers moved
  | forceRotate =>
    refine recovering_ask rfl fun _ answer _ _ _ => ?_
    cases answer with
    | error err => exact recovering_error err
    | ok w =>
      dsimp only
      split
      · exact recovering_error _
      · refine recovering_ask rfl fun s answer s' recovers moved => ?_
        cases answer with
        | ok active => exact underLock_recovering (rotateLocked_recovering quote active)
        | error err =>
          dsimp only
          split
          · exact underLock_recovering (deriveNew_recovering quote)
          · exact recovering_error err

end Rotations

/-! ## The stack -/

/-- The registry answers `DeriveAt` by its derivers, and no other call of the policy. -/
def Registry.implements (reg : Registry) (libs : DerivationLibraries) :
    (op : RotationOp) → Option (Program deriverCalls op.Ans)
  | .deriveAt d _ chain index change => some ((reg.call d chain index change).program libs)
  | _ => none

/-- The calls of the policy and of the derivers. -/
abbrev stackCalls : Signature := rotationCalls.sum deriverCalls

/-- The store and the locks, and the cache. No program of the stack calls `DeriveAt` itself. -/
def stackStep (libs : DerivationLibraries) (reg : Registry) (locker : Locker)
    (backend : CacheBackend) : Transition stackCalls (RotationState × backend.State) :=
  Transition.sum (plainCollaborators libs reg locker).step (deriverStep backend)

/-- Concurrent rotations over the derivers of a registry. -/
abbrev rotationStack {ι κ : Type} (libs : DerivationLibraries) (reg : Registry) (p : RotationPolicy)
    (request : ι → UUID × RotationCall) (start : RotationState × κ) :
    Crew stackCalls (RotationState × κ) ι (Except Err Address) :=
  .start (fun i => (p.body (request i).1 (request i).2).layered (reg.implements libs)) start

/-- Every stored address is the one that its own row derives again, and so is every address that a
call returns: in any interleaving of rotations that share their derivers, with any locker and any
clock, over a cache that expires, or is on a server that drops keys and fails. -/
theorem addresses_recoverable {ι : Type} [DecidableEq ι] (libs : DerivationLibraries)
    (reg : Registry) (p : RotationPolicy) (quote : p.quote = libs.quote) (locker : Locker)
    (backend : CacheBackend) (request : ι → UUID × RotationCall)
    (start : RotationState × backend.State) (stored : reg.RecoversAll libs start.1.store)
    (derived : AllDerived libs (backend.entries start.2))
    {admits : Crew.Guard stackCalls (RotationState × backend.State) ι (Except Err Address)}
    {crew : Crew stackCalls (RotationState × backend.State) ι (Except Err Address)}
    (reachable : Crew.Reachable (fun _ => stackStep libs reg locker backend) admits
      (rotationStack libs reg p request start) crew) :
    reg.RecoversAll libs crew.state.1.store ∧
      ∀ i a, crew.Returned i (.ok a) → reg.Recovers libs a := by
  have impls (op : RotationOp) (body : Program deriverCalls op.Ans)
      (implemented : reg.implements libs op = some body) :
      body.Steady (deriverStep backend) (fun s => AllDerived libs (backend.entries s)) fun answer =>
        ∀ s, (plainCollaborators libs reg locker).step op s answer s := by
    cases op with
    | deriveAt d walletID chain index change =>
      cases implemented
      exact (DeriveCall.program_steady backend _).mono fun answer same s => ⟨same, rfl⟩
    | _ => cases implemented
  have steady (i : ι) := (body_recovering quote (request i).1 (request i).2).layered
    ⟨start.1, stored⟩ impls
  obtain ⟨⟨recovers, -⟩, returned⟩ := reachable.steady steady ⟨stored, derived⟩
  exact ⟨recovers, fun i a here => returned i _ here a rfl⟩

/-! ## A run -/

/-- Derivers whose extended public keys are not set, and a public key for Solana. -/
def sampleRegistry : Registry :=
  ⟨⟨"xpub-placeholder", 0⟩, ⟨"11111111111111111111111111111111", 0⟩,
    ⟨"xpub-placeholder", ⟨"mainnet"⟩, 0⟩⟩

/-- None of them panics. -/
theorem sampleRegistry_answers (d : Deriver) (chain : Chain) (index change : Int) :
    ((sampleRegistry.call d chain index change).uncached sampleDerivation).isSome = true := by
  cases d with
  | evm =>
    simp only [Registry.call, DeriveCall.uncached, DeriveCall.body, EVMDeriver.deriveAt]
    split_ifs <;> rfl
  | solana =>
    simp only [Registry.call, DeriveCall.uncached, DeriveCall.body, SolanaDeriver.deriveAt]
    split_ifs <;> rfl
  | btc =>
    simp only [Registry.call, DeriveCall.uncached, DeriveCall.body, BTCDeriver.deriveAt]
    split_ifs <;> rfl

/-- A wallet on Solana. -/
def sampleSolanaWallet : Wallet := { id := sampleID 1, chain := .solana, state := .active }

/-- The answers of everything but the cache. -/
def stackScript (i : Fin 2) : RotationScript :=
  { sampleLocking i with
    derive := fun d chain index change =>
      ((sampleRegistry.call d chain index change).uncached sampleDerivation).getD
        (.error ⟨"", none⟩) }

theorem stackScript_plays (i : Fin 2) :
    (stackScript i).Plays (plainCollaborators sampleDerivation sampleRegistry memLocker) := by
  obtain ⟨acquire, release, -⟩ := sampleLocking_plays i
  refine ⟨acquire, release, fun d walletID chain index change => ?_⟩
  obtain ⟨answer, same⟩ := Option.isSome_iff_exists.mp (sampleRegistry_answers d chain index change)
  show _ = some (Option.getD _ _)
  rw [same]
  rfl

/-- Answer the calls of the stack, over a `MemCache` at the time zero. -/
def stackHandle (i : Fin 2) :
    (op : stackCalls.Op) → RotationState × MemCache → stackCalls.Ans op × (RotationState × MemCache)
  | .inl op, s => (((stackScript i).handle op s.1).1, ((stackScript i).handle op s.1).2, s.2)
  | .inr (.cache (.get key)), s => (.ok (s.2.get 0 key).1, s.1, (s.2.get 0 key).2)
  | .inr (.cache (.set key value ttl)), s => (.ok (), s.1, s.2.set 0 key value ttl)
  | .inr .panicked, s => (.error ⟨"", none⟩, s)

/-- Nothing has panicked. -/
def Unpanicked (move : Move stackCalls (RotationState × MemCache)) : Prop :=
  match move.op with
  | .inr .panicked => False
  | _ => True

instance : DecidablePred Unpanicked := fun move => by
  unfold Unpanicked
  split <;> infer_instance

/-- Two rotations of the wallet. -/
def sampleStack : Crew stackCalls (RotationState × MemCache) (Fin 2) (Except Err Address) :=
  rotationStack sampleDerivation sampleRegistry { quote := sampleDerivation.quote }
    (fun _ => (sampleSolanaWallet.id, .forceRotate))
    (⟨{ wallets := Table.empty.put sampleSolanaWallet }, fun _ => none⟩, MemCache.empty)

/-- The second one begins after the first one, and finds its address in the cache. -/
def sampleStackRun : Crew stackCalls (RotationState × MemCache) (Fin 2) (Except Err Address) :=
  sampleStack.play ((List.replicate 14 firstCaller ++ List.replicate 20 secondCaller).map fun i =>
    (i, stackHandle i))

theorem sampleStackRun_reachable :
    Crew.Reachable (fun _ => stackStep sampleDerivation sampleRegistry memLocker .mem)
      (fun _ _ move => Unpanicked move) sampleStack sampleStackRun := by
  refine Crew.reachable_play_admitted (fun next member crew op admitted => ?_) (by decide +kernel)
  obtain ⟨i, -, rfl⟩ := List.mem_map.mp member
  match op with
  | .inl op => exact ⟨RotationScript.handle_follows (stackScript_plays i) op _, rfl⟩
  | .inr (.cache (.get key)) => exact ⟨⟨0, rfl, rfl⟩, rfl⟩
  | .inr (.cache (.set key value ttl)) => exact ⟨⟨0, rfl, rfl⟩, rfl⟩
  | .inr .panicked => exact admitted.elim

/-- Both addresses of the wallet are derived again from their rows. -/
theorem addresses_recoverable_twice :
    (sampleStackRun.Finished firstCaller ∧ sampleStackRun.Finished secondCaller) ∧
      sampleStackRun.state.1.store.addresses.rows.length = 2 ∧
      sampleRegistry.RecoversAll sampleDerivation sampleStackRun.state.1.store := by
  have stored : sampleRegistry.RecoversAll sampleDerivation sampleStack.state.1.store := by
    intro a member
    cases member
  have derived : AllDerived sampleDerivation (CacheBackend.mem.entries MemCache.empty) := by
    intro key value found
    cases found
  exact ⟨by decide +kernel, by decide +kernel, (addresses_recoverable sampleDerivation
    sampleRegistry { quote := sampleDerivation.quote } rfl memLocker .mem _ _ stored derived
    sampleStackRun_reachable).1⟩

end WalletManagement
