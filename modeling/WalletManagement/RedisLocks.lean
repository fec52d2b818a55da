import WalletManagement.Interaction.Leases
import WalletManagement.Interaction.Serial
import WalletManagement.Rotation
import WalletManagement.Withdrawal

/-!
# Locks on Redis

`RedisLocker` of `internal/lock` as programs over the commands it sends, and everything that locks
with it: `CurrentOrRotate` and `ForceRotate` of the rotation policy and `ReserveNonce`. Redis keeps
a key until its time to live is over, and `Release` compares and deletes in two commands, so a lease
may end between them. Tokens come from `uuid.NewString` and are taken to be drawn once only. Each
command is taken to be sent once: that the Redis client sends it again after a network error
(`MaxRetries`), so that a `SetNX` answers false although it has taken effect or a `Del` takes effect
twice, is left out.
-/

namespace WalletManagement

open Interaction

/-! ## The locker -/

/-- What a program asks of a `lock.Locker`, besides its own calls. -/
inductive LockedOp (W : Signature) where
  /-- `Acquire`, with a positive time to live in nanoseconds. -/
  | acquire (name : String) (ttl : Nat)
  /-- `Release`. -/
  | release (name token : String)
  | work (op : W.Op)

/-- The answers of a call. -/
abbrev LockedOp.Ans {W : Signature} : LockedOp W → Type
  | .acquire _ _ => Except Err (String × Bool)
  | .release _ _ => Except Err Unit
  | .work op => W.Ans op

/-- The signature of programs that lock. -/
abbrev lockedCalls (W : Signature) : Signature := ⟨LockedOp W, LockedOp.Ans⟩

/-- The commands that `RedisLocker` sends. -/
abbrev redisCalls (W : Signature) : Signature := leaseCalls W String String Err

/-- The key of a lock. -/
def redisKey (name : String) : String := "lock:" ++ name

section Locker

variable {W : Signature} {α : Type}

/-- `RedisLocker.Acquire`. -/
def redisAcquire (name : String) (ttl : Nat) :
    Program (redisCalls W) (Except Err (String × Bool)) := do
  let token ← Program.perform (S := redisCalls W) .draw
  match ← Program.perform (S := redisCalls W) (.put (redisKey name) token ttl) with
  | .error err => pure (.error err)
  | .ok ok => pure (.ok (token, ok))

/-- `RedisLocker.Release`. -/
def redisRelease (name token : String) : Program (redisCalls W) (Except Err Unit) := do
  match ← Program.perform (S := redisCalls W) (.read (redisKey name)) with
  | .error err => pure (.error err)
  | .ok none => pure (.ok ())
  | .ok (some cur) =>
    if cur ≠ token then pure (.error ⟨"lock token mismatch", none⟩)
    else Program.perform (S := redisCalls W) (.remove (redisKey name))

/-- The commands of a call. -/
def redisCall : (op : LockedOp W) → Program (redisCalls W) op.Ans
  | .acquire name ttl => redisAcquire name ttl
  | .release name token => redisRelease name token
  | .work op => Program.perform (S := redisCalls W) (.work op)

/-- A program whose locker is a `RedisLocker`. -/
def throughRedis (program : Program (lockedCalls W) α) : Program (redisCalls W) α :=
  program.expand redisCall

/-! ## Programs that lock -/

/-- The locks a program holds after a call. -/
def heldAfter (held : List (String × String)) : (op : LockedOp W) → op.Ans → List (String × String)
  | .acquire name _, .ok (token, true) => (name, token) :: held
  | .release name _, _ => held.filter (·.1 ≠ name)
  | _, _ => held

/-- A program acquires only locks it does not hold, releases only locks it holds with the tokens it
was given, and holds none in the end. -/
def Balanced : Program (lockedCalls W) α → List (String × String) → Prop
  | .done _, held => held = []
  | .call op next, held =>
    (match op with
    | .acquire name _ => ∀ token, (name, token) ∉ held
    | .release name token => (name, token) ∈ held
    | .work _ => True) ∧
    ∀ answer, Balanced (next answer) (heldAfter held op answer)

/-- The key and token of a lock. -/
def onRedis (lock : String × String) : String × String := (redisKey lock.1, lock.2)

/-- What a program holds is what its commands have put; the other way around unless one of them has
failed. -/
structure Mirrors (held : List (String × String)) (client : LeaseLocal String String) : Prop where
  put : ∀ lock ∈ held, onRedis lock ∈ client.own
  only : client.failed = false → client.own = held.map onRedis
  once : ∀ lock ∈ held, ∀ other ∈ held, lock.1 = other.1 → lock = other

theorem redisKey_inj {name other : String} : redisKey name = redisKey other ↔ name = other := by
  unfold redisKey
  constructor
  · intro same
    have lists := congrArg String.toList same
    rw [String.toList_append, String.toList_append] at lists
    exact String.toList_inj.mp (List.append_cancel_left lists)
  · rintro rfl
    rfl

namespace Mirrors

variable {held : List (String × String)} {client : LeaseLocal String String} {name token : String}

/-- Nothing is held at the start. -/
theorem nothing : Mirrors [] {} :=
  ⟨fun _ member => absurd member List.not_mem_nil, fun _ => rfl,
    fun _ member => absurd member List.not_mem_nil⟩

/-- A client that only forgets a token, or notes a failure. -/
theorem same_own {after : LeaseLocal String String} (mirrors : Mirrors held client)
    (own : after.own = client.own) (failed : after.failed = false → client.failed = false) :
    Mirrors held after :=
  ⟨fun lock member => own ▸ mirrors.put lock member, fun fine => own ▸ mirrors.only (failed fine),
    mirrors.once⟩

/-- A lock is acquired. -/
theorem acquire {after : LeaseLocal String String} (mirrors : Mirrors held client)
    (absent : ∀ token, (name, token) ∉ held)
    (own : after.own = (redisKey name, token) :: client.own)
    (failed : after.failed = client.failed) : Mirrors ((name, token) :: held) after := by
  constructor
  · intro lock member
    rw [own]
    rcases List.mem_cons.mp member with rfl | member
    · exact List.mem_cons_self
    · exact List.mem_cons_of_mem _ (mirrors.put lock member)
  · intro fine
    rw [own, mirrors.only (failed ▸ fine)]
    rfl
  · intro lock member other member' same
    rcases List.mem_cons.mp member with rfl | member <;>
      rcases List.mem_cons.mp member' with rfl | member'
    · rfl
    · have named : name = other.1 := same
      exact absurd (named ▸ member') (absent other.2)
    · have named : lock.1 = name := same
      exact absurd (named ▸ member) (absent lock.2)
    · exact mirrors.once lock member other member' same

/-- A lock is released, by a client that gives up its key or notes a failure. -/
theorem release {after : LeaseLocal String String} (mirrors : Mirrors held client)
    (own : after.own = client.own.filter (·.1 ≠ redisKey name) ∧ after.failed = client.failed ∨
      after.own = client.own ∧ after.failed = true) :
    Mirrors (held.filter (·.1 ≠ name)) after := by
  constructor
  · intro lock member
    obtain ⟨member, other⟩ := List.mem_filter.mp member
    rcases own with ⟨own, -⟩ | ⟨own, -⟩
    · rw [own]
      refine List.mem_filter.mpr ⟨mirrors.put lock member, decide_eq_true fun same => ?_⟩
      exact of_decide_eq_true other (redisKey_inj.mp same)
    · exact own ▸ mirrors.put lock member
  · intro fine
    rcases own with ⟨own, failed⟩ | ⟨-, failed⟩
    · rw [own, mirrors.only (failed ▸ fine), List.filter_map]
      congr 1
      refine List.filter_congr fun lock _ => ?_
      simp only [Function.comp, onRedis, ne_eq, redisKey_inj]
    · rw [fine] at failed
      cases failed
  · intro lock member other member'
    exact mirrors.once lock (List.mem_filter.mp member).1 other (List.mem_filter.mp member').1

end Mirrors

/-- The commands of `Acquire` are those of a careful client. -/
theorem careful_acquire {β : Type} {post : β → LeaseLocal String String → Prop} {name : String}
    {ttl : Nat} {held : List (String × String)} {client : LeaseLocal String String}
    {next : Except Err (String × Bool) → Program (redisCalls W) β} (mirrors : Mirrors held client)
    (absent : ∀ token, (name, token) ∉ held)
    (rest : ∀ answer after, Mirrors (heldAfter (W := W) held (.acquire name ttl) answer) after →
      Careful post (next answer) after) :
    Careful post (redisAcquire name ttl >>= next) client := by
  refine ⟨trivial, fun token => ⟨rfl, fun answer => ?_⟩⟩
  rcases answer with err | _ | _
  · exact rest (.error err) _ (mirrors.same_own rfl fun fine => by cases fine)
  · exact rest (.ok (token, false)) _ (mirrors.same_own rfl id)
  · exact rest (.ok (token, true)) _ (mirrors.acquire absent rfl rfl)

/-- The commands of `Release` are those of a careful client. -/
theorem careful_release {β : Type} {post : β → LeaseLocal String String → Prop}
    {name token : String} {held : List (String × String)} {client : LeaseLocal String String}
    {next : Except Err Unit → Program (redisCalls W) β} (mirrors : Mirrors held client)
    (holds : (name, token) ∈ held)
    (rest : ∀ answer after, Mirrors (held.filter (·.1 ≠ name)) after →
      Careful post (next answer) after) :
    Careful post (redisRelease name token >>= next) client := by
  have own : (redisKey name, token) ∈ client.own := mirrors.put _ holds
  refine ⟨trivial, fun answer => ?_⟩
  rcases answer with err | _ | cur
  · exact rest (.error err) _ (mirrors.release (.inr ⟨rfl, rfl⟩))
  · exact rest (.ok ()) _ (mirrors.release (.inl ⟨rfl, rfl⟩))
  · by_cases same : cur = token
    · subst same
      have look : client.look (E := Err) (redisKey name) (.ok (some cur)) =
          { client with read := some (redisKey name, cur) } := if_pos own
      show Careful post ((if cur ≠ cur then _ else _) >>= next)
        (client.look (E := Err) (redisKey name) (.ok (some cur)))
      rw [if_neg (not_not_intro rfl), look]
      refine ⟨⟨cur, rfl⟩, fun removed => ?_⟩
      rcases removed with err | _
      · exact rest (.error err) _ (mirrors.release (.inr ⟨rfl, rfl⟩))
      · exact rest (.ok ()) _ (mirrors.release (.inl ⟨rfl, rfl⟩))
    · show Careful post ((if cur ≠ token then _ else _) >>= next) _
      rw [if_pos same]
      refine rest _ _ (mirrors.release ?_)
      by_cases other : (redisKey name, cur) ∈ client.own
      · -- A second token of the client on the key is left from a failed release.
        have look : client.after (W := W) (E := Err) (.read (redisKey name)) (.ok (some cur)) =
            { client with read := some (redisKey name, cur) } := if_pos other
        rw [look]
        refine .inr ⟨rfl, ?_⟩
        by_contra fine
        rw [mirrors.only (Bool.eq_false_iff.mpr fine)] at other
        obtain ⟨lock, member, here⟩ := List.mem_map.mp other
        have names : lock.1 = name := redisKey_inj.mp (congrArg Prod.fst here)
        have tokens : lock.2 = cur := congrArg Prod.snd here
        have unique := mirrors.once lock member (name, token) holds names
        exact same (tokens.symm.trans (congrArg Prod.snd unique))
      · have look : client.after (W := W) (E := Err) (.read (redisKey name)) (.ok (some cur)) =
            { client with own := client.own.filter (·.1 ≠ redisKey name), read := none } :=
          if_neg other
        rw [look]
        exact .inl ⟨rfl, rfl⟩

/-- A balanced program through `RedisLocker` is a careful client that has given up every key in
the end, unless a command has failed. -/
theorem careful_throughRedis {program : Program (lockedCalls W) α} {held : List (String × String)}
    {client : LeaseLocal String String} (balanced : Balanced program held)
    (mirrors : Mirrors held client) :
    Careful (fun _ after => after.failed = false → after.own = []) (throughRedis program)
      client := by
  induction program generalizing held client with
  | done value =>
    intro fine
    have empty : held = [] := balanced
    rw [mirrors.only fine, empty]
    rfl
  | call op next ih =>
    obtain ⟨allowed, later⟩ := balanced
    cases op with
    | acquire name ttl =>
      exact careful_acquire mirrors allowed fun answer after here => ih answer (later answer) here
    | release name token =>
      exact careful_release mirrors allowed fun answer after here => ih answer (later answer) here
    | work op =>
      exact ⟨trivial, fun answer => ih answer (later answer) (mirrors.same_own rfl id)⟩

end Locker

/-! ## The callers -/

/-- The calls of the rotation policy and of the nonce service. -/
abbrev lockingCalls : Signature where
  Op := RotationOp ⊕ Op
  Ans
    | .inl op => op.Ans
    | .inr op => op.Ans

/-- `time.Second`. -/
def second : Nat := 1000000000

/-- The calls of the rotation policy, with the time to live of its locks. -/
def rotationView : RotationOp → LockedOp lockingCalls
  | .acquire name => .acquire name (10 * second)
  | .release name token => .release name token
  | op => .work (.inl op)

/-- Their answers. -/
def rotationBack : (op : RotationOp) → (rotationView op).Ans → op.Ans
  | .acquire _, answer | .release _ _, answer | .getWallet _, answer | .getActiveAddress _, answer
  | .listAddresses _, answer | .deprecateAddress _, answer | .nextAddressIndex _ _, answer
  | .insertAddress _, answer | .deriveAt _ _ _ _ _, answer | .newV7, answer | .now, answer
  | .emit _, answer => answer

/-- The calls of the nonce service, with the time to live of its locks. -/
def nonceView : Op → LockedOp lockingCalls
  | .acquire name => .acquire name (5 * second)
  | .release name token => .release name token
  | op => .work (.inr op)

/-- Their answers. -/
def nonceBack : (op : Op) → (nonceView op).Ans → op.Ans
  | .acquire _, answer | .release _ _, answer | .store _, answer | .begin, answer | .commit, answer
  | .rollback, answer | .newV7, answer | .checkWhitelist _, answer | .sign _, answer
  | .broadcastTx _, answer | .resolveActiveKeyID _, answer | .emit _, answer
  | .onConfirmedDecrease _ _, answer | .listWithdrawals _ _, answer => answer

/-- Everything that locks. -/
inductive LockingCall where
  /-- `CurrentOrRotate` or `ForceRotate`. -/
  | rotation (walletID : UUID) (call : RotationCall)
  /-- `ReserveNonce`. -/
  | reservation (walletID : UUID) (chain : Chain)
  deriving DecidableEq

/-- Its program. -/
def LockingCall.body (p : RotationPolicy) :
    LockingCall → Program (lockedCalls lockingCalls) (Except Err Address ⊕ Except Err Int)
  | .rotation walletID call =>
    (p.body walletID call).embed rotationView rotationBack >>= fun result => pure (.inl result)
  | .reservation walletID chain =>
    (reserveNonce walletID chain).embed nonceView nonceBack >>= fun result => pure (.inr result)

/-- The call is none of the locker. -/
def RotationOp.lockFree : RotationOp → Bool
  | .acquire _ | .release _ _ => false
  | _ => true

section Rotation

variable {p : RotationPolicy} {w : Wallet} {α β : Type} {held : List (String × String)}
  {next : β → Program (lockedCalls lockingCalls) (Except Err Address ⊕ Except Err Int)}

/-- A part of a rotation that does not use the locker. -/
theorem balanced_lockFree {program : RotationProg α} {rest : α → RotationProg β}
    (free : program.Calls (RotationOp.lockFree · = true))
    (later : ∀ value, Balanced ((rest value).embed rotationView rotationBack >>= next) held) :
    Balanced ((program >>= rest).embed rotationView rotationBack >>= next) held := by
  induction program with
  | done value => exact later value
  | call op continued ih =>
    have rest (answer : op.Ans) := ih answer (free.2 answer)
    cases op with
    | acquire _ | release _ _ => cases free.1
    | _ => exact ⟨trivial, fun answer => rest answer⟩

/-- `deriveNew` does not use the locker. -/
theorem deriveNew_lockFree : (p.deriveNew w).Calls (RotationOp.lockFree · = true) := by
  unfold RotationPolicy.deriveNew
  split
  · trivial
  · refine ⟨rfl, fun index => ?_⟩
    rcases index with _ | index
    · trivial
    · change (RotationPolicy.deprecateFirst w >>= fun _ => _).Calls _
      refine Program.Calls.bind ?_ fun deprecated => ?_
      · unfold RotationPolicy.deprecateFirst
        split
        · refine ⟨rfl, fun addrs => ?_⟩
          rcases addrs with _ | _ | _
          · trivial
          · trivial
          · exact ⟨rfl, fun _ => trivial⟩
        · trivial
      · rcases deprecated with _ | _
        · trivial
        · refine ⟨rfl, fun derived => ?_⟩
          rcases derived with _ | res
          · trivial
          · refine ⟨rfl, fun id => ⟨rfl, fun now => ⟨rfl, fun inserted => ?_⟩⟩⟩
            rcases inserted with _ | _
            · trivial
            · change (p.emit _ >>= fun _ => _).Calls _
              exact Program.Calls.bind (emit_calls _ rfl) fun _ => trivial

/-- Nor does the part of `rotate` under the lock. -/
theorem rotateLocked_lockFree (old : Address) :
    (p.rotateLocked w old).Calls (RotationOp.lockFree · = true) := by
  refine ⟨rfl, fun deprecated => ?_⟩
  rcases deprecated with _ | _
  · trivial
  · change (p.deriveNew w >>= fun _ => _).Calls _
    refine Program.Calls.bind deriveNew_lockFree fun derived => ?_
    rcases derived with _ | addr
    · trivial
    · change (p.emit _ >>= fun _ => _).Calls _
      exact Program.Calls.bind (emit_calls _ rfl) fun _ => trivial

/-- Nor does `shouldRotate`. -/
theorem shouldRotate_lockFree (a : Address) :
    (p.shouldRotate w a).Calls (RotationOp.lockFree · = true) := by
  unfold RotationPolicy.shouldRotate
  split
  · exact ⟨rfl, fun _ => trivial⟩
  · trivial

/-- The result of a rotation. -/
def rotated (program : RotationProg (Except Err Address)) :
    Program (lockedCalls lockingCalls) (Except Err Address ⊕ Except Err Int) :=
  program.embed rotationView rotationBack >>= fun result => pure (.inl result)

/-- The lock that was just acquired is given up. -/
theorem released_all (name token : String) : [(name, token)].filter (·.1 ≠ name) = [] := by
  simp

/-- A program under the lock of its wallet is balanced. -/
theorem balanced_underLock {program : RotationProg (Except Err Address)}
    (free : program.Calls (RotationOp.lockFree · = true)) :
    Balanced (rotated (RotationPolicy.underLock w program)) [] := by
  refine ⟨fun _ => List.not_mem_nil, fun answer => ?_⟩
  rcases answer with err | ⟨token, _ | _⟩
  · rfl
  · rfl
  · change Balanced ((program >>= fun _ => _).embed rotationView rotationBack >>= fun _ => _) _
    refine balanced_lockFree free fun result => ⟨List.mem_singleton.mpr rfl, fun _ => ?_⟩
    exact released_all _ token

/-- The loop of the first derivation is balanced. -/
theorem balanced_deriveLoop (tries : Nat) : Balanced (rotated (p.deriveLoop w tries)) [] := by
  induction tries with
  | zero => rfl
  | succ tries ih =>
    refine ⟨fun _ => List.not_mem_nil, fun answer => ?_⟩
    rcases answer with err | ⟨token, _ | _⟩
    · rfl
    · refine ⟨trivial, fun active => ?_⟩
      rcases active with err | active
      · show Balanced (Program.embed _ _ (if _ then _ else _) >>= _) []
        split
        · exact ih
        · rfl
      · rfl
    · refine ⟨trivial, fun active => ?_⟩
      rcases active with err | active
      · show Balanced (Program.embed _ _ (if _ then _ else _) >>= _) _
        split
        · refine balanced_lockFree deriveNew_lockFree fun result =>
            ⟨List.mem_singleton.mpr rfl, fun _ => ?_⟩
          exact released_all _ token
        · exact ⟨List.mem_singleton.mpr rfl, fun _ => released_all _ token⟩
      · exact ⟨List.mem_singleton.mpr rfl, fun _ => released_all _ token⟩

/-- Both calls of the rotation policy are balanced. -/
theorem balanced_rotation (walletID : UUID) (call : RotationCall) :
    Balanced (rotated (p.body walletID call)) [] := by
  cases call with
  | currentOrRotate =>
    refine ⟨trivial, fun found => ?_⟩
    rcases found with err | w
    · rfl
    · show Balanced (Program.embed _ _ (if _ then _ else _) >>= _) []
      split
      · rfl
      · refine ⟨trivial, fun active => ?_⟩
        rcases active with err | active
        · show Balanced (Program.embed _ _ (if _ then _ else _) >>= _) []
          split
          · exact balanced_deriveLoop 20
          · rfl
        · change Balanced
            ((p.shouldRotate w active >>= fun _ => _).embed rotationView
              rotationBack >>= fun _ => _) _
          refine balanced_lockFree (shouldRotate_lockFree active) fun rotates => ?_
          cases rotates with
          | false => rfl
          | true => exact balanced_underLock (rotateLocked_lockFree active)
  | forceRotate =>
    refine ⟨trivial, fun found => ?_⟩
    rcases found with err | w
    · rfl
    · show Balanced (Program.embed _ _ (if _ then _ else _) >>= _) []
      split
      · rfl
      · refine ⟨trivial, fun active => ?_⟩
        rcases active with err | active
        · show Balanced (Program.embed _ _ (if _ then _ else _) >>= _) []
          split
          · exact balanced_underLock deriveNew_lockFree
          · rfl
        · exact balanced_underLock (rotateLocked_lockFree active)

end Rotation

/-- A reservation of a nonce is balanced. -/
theorem balanced_reserveLoop (walletID : UUID) (chain : Chain) (name : String) (tries : Nat) :
    Balanced ((reserveLoop walletID chain name tries).embed nonceView nonceBack >>= fun result =>
      (pure (.inr result) : Program (lockedCalls lockingCalls)
        (Except Err Address ⊕ Except Err Int))) [] := by
  induction tries with
  | zero => rfl
  | succ tries ih =>
    refine ⟨fun _ => List.not_mem_nil, fun answer => ?_⟩
    rcases answer with err | ⟨token, _ | _⟩
    · rfl
    · exact ih
    · refine ⟨trivial, fun incremented => ⟨List.mem_singleton.mpr rfl, fun _ => ?_⟩⟩
      rcases incremented with err | _ <;> exact released_all _ token

/-- Everything that locks is balanced. -/
theorem LockingCall.balanced (p : RotationPolicy) (call : LockingCall) :
    Balanced (call.body p) [] := by
  cases call with
  | rotation walletID call => exact balanced_rotation walletID call
  | reservation walletID chain => exact balanced_reserveLoop walletID chain _ 50

/-! ## Safety -/

section Safety

variable {ι σ : Type} [DecidableEq ι]

/-- Any number of callers that share a Redis server, from the time it holds no lock. -/
abbrev lockCallers (p : RotationPolicy) (call : ι → LockingCall) (start : σ) :
    Crew (redisCalls lockingCalls) (LeaseState ι String String σ) ι
      (Except Err Address ⊕ Except Err Int) :=
  .start (fun i => throughRedis ((call i).body p)) { work := start }

/-- Locks on Redis exclude each other: if no caller sends its delete after its own lease has ended,
then in every interleaving at most one lease of a lock has not ended, whatever commands fail and
whether or not they took effect; and the key on the server has the token of this lease. -/
theorem redis_lock_exclusive (p : RotationPolicy) (call : ι → LockingCall)
    (work : Transition lockingCalls σ) (start : σ)
    {crew : Crew (redisCalls lockingCalls) (LeaseState ι String String σ) ι
      (Except Err Address ⊕ Except Err Int)}
    (reachable : Crew.Reachable (leaseStep work) (fun _ i move => Kept.InTime i move)
      (lockCallers p call start) crew) :
    ∀ lease ∈ crew.state.leases, crew.state.now < lease.deadline →
      crew.state.keys lease.key = some (lease.token, lease.deadline) ∧
      ∀ other ∈ crew.state.leases, crew.state.now < other.deadline → other.key = lease.key →
        other = lease := by
  have careful (i : ι) := careful_throughRedis ((call i).balanced p) Mirrors.nothing
  obtain ⟨client, kept, -, -⟩ := Kept.of_reachable (fun _ _ _ inTime => inTime) careful reachable
  intro lease member live
  refine ⟨kept.holds lease member live, fun other member' live' same => ?_⟩
  exact kept.exclusive member' member same live' live

/-- When all callers have returned, and no command has failed, no lock is left that has not
ended. -/
theorem redis_locks_released (p : RotationPolicy) (call : ι → LockingCall)
    (work : Transition lockingCalls σ) (start : σ)
    {crew : Crew (redisCalls lockingCalls) (LeaseState ι String String σ) ι
      (Except Err Address ⊕ Except Err Int)}
    (reachable : Crew.Reachable (leaseStep work) (fun _ i move => Kept.InTime i move)
      (lockCallers p call start) crew)
    (fine : ∀ i move, (i, move) ∈ crew.moves → Kept.LeaseFailed move.op move.answer = false)
    (finished : ∀ i, crew.Finished i) (key : String) :
    (crew.state.elapse crew.state.now).keys key = none := by
  have careful (i : ι) := careful_throughRedis ((call i).balanced p) Mirrors.nothing
  obtain ⟨client, kept, ended, failures⟩ :=
    Kept.of_reachable (fun _ _ _ inTime => inTime) careful reachable
  have fine (i : ι) : (client i).failed = false := by
    rw [← Bool.not_eq_true]
    intro failed
    obtain ⟨move, member, failed⟩ := failures i failed
    rw [fine i move member] at failed
    cases failed
  rw [Option.eq_none_iff_forall_not_mem]
  rintro ⟨token, deadline⟩ held
  -- The key is the lease of a caller, and a caller that has returned has given up its leases.
  obtain ⟨stored, live⟩ := Option.filter_eq_some_iff.mp held
  obtain ⟨i, member⟩ := kept.leased fine key token deadline stored
  have own := kept.live _ member (of_decide_eq_true live)
  obtain ⟨value, returned⟩ := Crew.returned_of_finished (finished i)
  have none := ended i
  rw [show crew.rest i = .done value from returned] at none
  rw [none (fine i)] at own
  cases own

end Safety

/-! ## Two forced rotations of one wallet -/

/-- Collaborators of a wallet without addresses, of which the next index cannot be read. -/
def sampleAnswers : (op : lockingCalls.Op) → Unit → lockingCalls.Ans op × Unit
  | .inl (.getWallet _), s =>
    (.ok { id := ⟨Vector.replicate 16 0⟩, chain := .ethereum, state := .active }, s)
  | .inl (.getActiveAddress _), s => (.error Store.noActiveAddress, s)
  | .inl (.listAddresses _), s => (.ok [], s)
  | .inl (.deprecateAddress _), s | .inl (.insertAddress _), s | .inl (.release _ _), s
  | .inl (.emit _), s => (.ok (), s)
  | .inl (.nextAddressIndex _ _), s => (.error ⟨"connection reset", none⟩, s)
  | .inl (.acquire _), s => (.ok ("", false), s)
  | .inl (.deriveAt _ _ _ _ _), s => (.error ⟨"no key", none⟩, s)
  | .inl .newV7, s => (⟨Vector.replicate 16 0⟩, s)
  | .inl .now, s => (1, s)
  | .inr op, s => ((({} : Script).handle () op { store := {} }).1, s)

/-- Two callers of `ForceRotate` on one wallet. -/
def sampleCallers : Crew (redisCalls lockingCalls) (LeaseState Bool String String Unit) Bool
    (Except Err Address ⊕ Except Err Int) :=
  lockCallers { quote := id } (fun _ => .rotation ⟨Vector.replicate 16 0⟩ .forceRotate) ()

/-- The first one takes the lock, and the second one asks for it. -/
def sampleContention : List Bool := List.replicate 4 false ++ List.replicate 4 true

/-- The callers after some turns. -/
def sampleLocked (turns : List Bool) : Crew (redisCalls lockingCalls)
    (LeaseState Bool String String Unit) Bool (Except Err Address ⊕ Except Err Int) :=
  sampleCallers.play (leaseTurns sampleAnswers Nat.repr turns)

/-- What the callers reach when their turns are ready. -/
theorem sampleLocked_reached (turns : List Bool)
    (ready : sampleCallers.AdmitsAll LeaseReady (leaseTurns sampleAnswers Nat.repr turns)) :
    Crew.Reachable (leaseStep fun _ _ _ _ => True)
      (fun _ i move => Kept.InTime i move) sampleCallers
      (sampleLocked turns) :=
  reachable_leaseTurns (fun _ _ => trivial) ready

/-- The first caller has a lease that has not ended, and its token is on the server. -/
theorem redis_lock_exclusive_contended :
    (sampleLocked sampleContention).state.leases =
        [⟨false, redisKey (rotationLock ⟨Vector.replicate 16 0⟩), "0", 4 + 10 * second⟩] ∧
    (sampleLocked sampleContention).state.keys (redisKey (rotationLock ⟨Vector.replicate 16 0⟩)) =
      some ("0", 4 + 10 * second) := by
  have leases : (sampleLocked sampleContention).state.leases =
      [⟨false, redisKey (rotationLock ⟨Vector.replicate 16 0⟩), "0", 4 + 10 * second⟩] := by
    decide +kernel
  have exclusive := redis_lock_exclusive { quote := id }
    (fun _ => .rotation ⟨Vector.replicate 16 0⟩ .forceRotate) (fun _ _ _ _ => True) ()
    (sampleLocked_reached sampleContention (by decide +kernel)) _
    (by rw [leases]; exact List.mem_singleton.mpr rfl) (by decide +kernel)
  exact ⟨leases, exclusive.1⟩

/-- Then the first caller fails to read the next index, and releases the lock. -/
def sampleRelease : List Bool := sampleContention ++ List.replicate 3 false

/-- Both callers have returned, no command has failed, and the lock is gone. -/
theorem redis_locks_released_contended :
    (∀ i, (sampleLocked sampleRelease).Finished i) ∧
    ((sampleLocked sampleRelease).state.elapse (sampleLocked sampleRelease).state.now).keys
      (redisKey (rotationLock ⟨Vector.replicate 16 0⟩)) = none := by
  have finished : ∀ i, (sampleLocked sampleRelease).Finished i := by decide +kernel
  have fine : (sampleLocked sampleRelease).moves.all
      (fun entry => !Kept.LeaseFailed entry.2.op entry.2.answer) = true := by decide +kernel
  refine ⟨finished, redis_locks_released { quote := id }
    (fun _ => .rotation ⟨Vector.replicate 16 0⟩ .forceRotate) (fun _ _ _ _ => True) ()
    (sampleLocked_reached sampleRelease (by decide +kernel)) (fun i move member => ?_) finished _⟩
  have here := List.all_eq_true.mp fine (i, move) member
  simpa using here

end WalletManagement
