import WalletManagement.Interaction.Crew

/-!
# Leases

A lock as a key of a server that is put only if it is absent, and that the server drops at a
deadline. A client draws a token, puts the key with it, and gives the lock up in two commands: it
reads the key, and removes it if it still has the token. Every command may fail, and one that fails
may have taken effect. Time passes between any two commands.

What a client has to observe is a recursion over its program (`Careful`). With it, and if no client
removes a key after its own lease has ended, a lease that has not ended is the key on the server, so
there is one for each key (`Kept.exclusive`).
-/

namespace Interaction

variable {W : Signature} {ι K T E σ α β : Type}

/-! ## Commands -/

/-- The commands of a client, besides its own work. -/
inductive LeaseOp (W : Signature) (K T : Type) where
  /-- Draw a token. -/
  | draw
  /-- Put a key with a token for a time, if it is absent. -/
  | put (key : K) (token : T) (ttl : Nat)
  /-- Read a key. -/
  | read (key : K)
  /-- Remove a key. -/
  | remove (key : K)
  | work (op : W.Op)

/-- The answers of a command. -/
abbrev LeaseOp.Ans (E : Type) : LeaseOp W K T → Type
  | .draw => T
  | .put _ _ _ => Except E Bool
  | .read _ => Except E (Option T)
  | .remove _ => Except E Unit
  | .work op => W.Ans op

/-- The signature of the commands. -/
abbrev leaseCalls (W : Signature) (K T E : Type) : Signature := ⟨LeaseOp W K T, LeaseOp.Ans E⟩

/-- A key that a client has put and not removed since. -/
structure Lease (ι K T : Type) where
  client : ι
  key : K
  token : T
  deadline : Nat
  deriving DecidableEq

/-- The server, the leases, and the state of the clients' work. -/
structure LeaseState (ι K T σ : Type) where
  now : Nat := 0
  /-- The keys, each with its token and its deadline. -/
  keys : K → Option (T × Nat) := fun _ => none
  leases : List (Lease ι K T) := []
  /-- The tokens that have been drawn. -/
  drawn : List T := []
  work : σ

/-- Time passes, and the server drops what has reached its deadline. -/
def LeaseState.elapse (s : LeaseState ι K T σ) (now : Nat) : LeaseState ι K T σ :=
  { s with now, keys := fun key => (s.keys key).filter fun held => now < held.2 }

section Steps

variable [DecidableEq ι] [DecidableEq K]

/-- A key is put. -/
def LeaseState.set (s : LeaseState ι K T σ) (key : K) (token : T) (ttl : Nat) :
    LeaseState ι K T σ :=
  { s with keys := Function.update s.keys key (some (token, s.now + ttl)) }

/-- A client removes a key, and with it its lease. -/
def LeaseState.unset (s : LeaseState ι K T σ) (i : ι) (key : K) : LeaseState ι K T σ :=
  { s with
    keys := Function.update s.keys key none
    leases := s.leases.filter fun lease => ¬(lease.client = i ∧ lease.key = key) }

section Server

variable (s : LeaseState ι K T σ) (i : ι) {key other : K} (token : T) (ttl : Nat)

omit [DecidableEq ι] in
@[simp] theorem LeaseState.set_keys_self :
    (s.set key token ttl).keys key = some (token, s.now + ttl) :=
  Function.update_self key _ s.keys

omit [DecidableEq ι] in
@[simp] theorem LeaseState.set_keys_of_ne (different : other ≠ key) :
    (s.set key token ttl).keys other = s.keys other :=
  Function.update_of_ne different _ s.keys

@[simp] theorem LeaseState.unset_keys_self : (s.unset i key).keys key = none :=
  Function.update_self key _ s.keys

@[simp] theorem LeaseState.unset_keys_of_ne (different : other ≠ key) :
    (s.unset i key).keys other = s.keys other :=
  Function.update_of_ne different _ s.keys

theorem LeaseState.mem_unset {lease : Lease ι K T} : lease ∈ (s.unset i key).leases ↔
    lease ∈ s.leases ∧ ¬(lease.client = i ∧ lease.key = key) := by
  show lease ∈ s.leases.filter _ ↔ _
  rw [List.mem_filter, decide_eq_true_iff]

end Server

/-- What a command does at its time. It is executed once at most: a client that sends a command
again when the answer is lost may find its own key on the server, or remove a key twice, and neither
is covered. -/
def leaseEffect (work : Transition W σ) (i : ι) :
    (op : LeaseOp W K T) → LeaseState ι K T σ → op.Ans E → LeaseState ι K T σ → Prop
  | .draw, s, token, s' => token ∉ s.drawn ∧ s' = { s with drawn := token :: s.drawn }
  | .put key token ttl, s, answer, s' =>
    match s.keys key with
    | some _ => (answer = .ok false ∨ ∃ err, answer = .error err) ∧ s' = s
    | none =>
      (answer = .ok true ∧ s' =
        { s.set key token ttl with leases := ⟨i, key, token, s.now + ttl⟩ :: s.leases }) ∨
      ∃ err, answer = .error err ∧ (s' = s ∨ s' = s.set key token ttl)
  | .read key, s, answer, s' =>
    (answer = .ok ((s.keys key).map Prod.fst) ∨ ∃ err, answer = .error err) ∧ s' = s
  | .remove key, s, answer, s' =>
    (answer = .ok () ∧ s' = s.unset i key) ∨
      ∃ err, answer = .error err ∧ (s' = s ∨ s' = s.unset i key)
  | .work op, s, answer, s' => ∃ after, work op s.work answer after ∧ s' = { s with work := after }

/-- The meaning of the commands: time passes, and the command is executed. -/
def leaseStep (work : Transition W σ) (i : ι) :
    Transition (leaseCalls W K T E) (LeaseState ι K T σ) := fun op s answer s' =>
  ∃ now, s.now ≤ now ∧ leaseEffect work i op (s.elapse now) answer s'

end Steps

/-! ## Careful clients -/

/-- What a client knows of its own commands. -/
structure LeaseLocal (K T : Type) where
  /-- The keys it has put and not given up. -/
  own : List (K × T) := []
  /-- The token it has drawn and not used. -/
  drawn : Option T := none
  /-- The key it has just read with its own token. -/
  read : Option (K × T) := none
  /-- One of its commands has failed. -/
  failed : Bool := false
  deriving DecidableEq

namespace LeaseLocal

variable [DecidableEq K] [DecidableEq T]

/-- A token is drawn. -/
def draw (client : LeaseLocal K T) (token : T) : LeaseLocal K T :=
  { client with drawn := some token, read := none }

/-- A key is put. -/
def put (client : LeaseLocal K T) (key : K) (token : T) : Except E Bool → LeaseLocal K T
  | .ok true => { client with own := (key, token) :: client.own, drawn := none, read := none }
  | .ok false => { client with drawn := none, read := none }
  | .error _ => { client with drawn := none, read := none, failed := true }

/-- A key is read: if it does not have a token of the client, the client has given it up. -/
def look (client : LeaseLocal K T) (key : K) : Except E (Option T) → LeaseLocal K T
  | .ok (some token) =>
    if (key, token) ∈ client.own then { client with read := some (key, token) }
    else { client with own := client.own.filter (·.1 ≠ key), read := none }
  | .ok none => { client with own := client.own.filter (·.1 ≠ key), read := none }
  | .error _ => { client with read := none, failed := true }

/-- A key is removed. -/
def remove (client : LeaseLocal K T) (key : K) : Except E Unit → LeaseLocal K T
  | .ok () => { client with own := client.own.filter (·.1 ≠ key), read := none }
  | .error _ => { client with read := none, failed := true }

/-- The client does something else. -/
def aside (client : LeaseLocal K T) : LeaseLocal K T := { client with read := none }

/-- The client after a command. -/
def after (client : LeaseLocal K T) : (op : LeaseOp W K T) → op.Ans E → LeaseLocal K T
  | .draw, token => client.draw token
  | .put key token _, answer => client.put key token answer
  | .read key, answer => client.look key answer
  | .remove key, answer => client.remove key answer
  | .work _, _ => client.aside

/-- The commands a careful client may send: it puts a token it has just drawn, and removes a key it
has just read with its own token. -/
def May (client : LeaseLocal K T) : LeaseOp W K T → Prop
  | .put _ token _ => client.drawn = some token
  | .remove key => ∃ token, client.read = some (key, token)
  | _ => True

end LeaseLocal

/-- Every command of the program is one a careful client may send, and at its end the client knows
what it should. -/
def Careful [DecidableEq K] [DecidableEq T] (post : α → LeaseLocal K T → Prop) :
    Program (leaseCalls W K T E) α → LeaseLocal K T → Prop
  | .done value, client => post value client
  | .call op next, client =>
    client.May op ∧ ∀ answer, Careful post (next answer) (client.after op answer)

/-! ## The invariant -/

/-- A token that is on no key, in no lease and with no client. -/
def Unused (client : ι → LeaseLocal K T) (s : LeaseState ι K T σ) (token : T) : Prop :=
  (∀ key deadline, s.keys key ≠ some (token, deadline)) ∧
  (∀ lease ∈ s.leases, lease.token ≠ token) ∧ ∀ i key, (key, token) ∉ (client i).own

/-- What the clients know, and what the server holds. -/
structure Kept (client : ι → LeaseLocal K T) (s : LeaseState ι K T σ) : Prop where
  /-- A lease that has not ended is the key on the server. -/
  holds : ∀ lease ∈ s.leases, s.now < lease.deadline →
    s.keys lease.key = some (lease.token, lease.deadline)
  /-- No token is in two leases. -/
  once : ∀ lease ∈ s.leases, ∀ other ∈ s.leases, lease.token = other.token → lease = other
  /-- A key with a token that a client has put is a lease of this client. -/
  owned : ∀ i key token deadline, (key, token) ∈ (client i).own →
    s.keys key = some (token, deadline) → ⟨i, key, token, deadline⟩ ∈ s.leases
  /-- A client that has read its own token has the lease. -/
  read : ∀ i key token, (client i).read = some (key, token) →
    ∃ deadline, ⟨i, key, token, deadline⟩ ∈ s.leases
  /-- A client knows its leases that have not ended. -/
  live : ∀ lease ∈ s.leases, s.now < lease.deadline →
    (lease.key, lease.token) ∈ (client lease.client).own
  /-- A token in use has been drawn. -/
  known : ∀ token, token ∉ s.drawn → Unused client s token
  /-- A token that a client has drawn is not in use. -/
  fresh : ∀ i token, (client i).drawn = some token → token ∈ s.drawn ∧ Unused client s token
  /-- No two clients have drawn the same token. -/
  apart : ∀ i j token, (client i).drawn = some token → (client j).drawn = some token → i = j
  /-- If no command has failed, every key is somebody's lease. -/
  leased : (∀ i, (client i).failed = false) → ∀ key token deadline,
    s.keys key = some (token, deadline) → ∃ i, ⟨i, key, token, deadline⟩ ∈ s.leases

namespace Kept

variable {client : ι → LeaseLocal K T} {s : LeaseState ι K T σ}

/-- At most one lease of a key has not ended. -/
theorem exclusive (kept : Kept client s) {lease other : Lease ι K T} (member : lease ∈ s.leases)
    (member' : other ∈ s.leases) (same : lease.key = other.key) (live : s.now < lease.deadline)
    (live' : s.now < other.deadline) : lease = other := by
  have here := kept.holds lease member live
  have there := kept.holds other member' live'
  rw [same, there] at here
  have tokens : other.token = lease.token := congrArg Prod.fst (Option.some.inj here)
  exact kept.once lease member other member' tokens.symm

/-- At the start. -/
theorem initial (work : σ) : Kept (fun _ => {}) ({ work } : LeaseState ι K T σ) := by
  constructor <;> simp [Unused]

/-- Time passes. -/
theorem elapse (kept : Kept client s) {now : Nat} (later : s.now ≤ now) :
    Kept client (s.elapse now) := by
  have keys {key : K} {token : T} {deadline : Nat}
      (held : (s.elapse now).keys key = some (token, deadline)) :
      s.keys key = some (token, deadline) := (Option.filter_eq_some_iff.mp held).1
  have unused {token : T} (unused : Unused client s token) : Unused client (s.elapse now) token :=
    ⟨fun key deadline held => unused.1 key deadline (keys held), unused.2⟩
  constructor
  · intro lease member live
    have held := kept.holds lease member (by exact Nat.lt_of_le_of_lt later live)
    show (s.keys lease.key).filter _ = _
    rw [held]
    exact Option.filter_eq_some_iff.mpr ⟨rfl, decide_eq_true live⟩
  · exact kept.once
  · intro i key token deadline own held
    exact kept.owned i key token deadline own (keys held)
  · exact kept.read
  · intro lease member live
    exact kept.live lease member (Nat.lt_of_le_of_lt later live)
  · exact fun token new => unused (kept.known token new)
  · exact fun i token drawn => ⟨(kept.fresh i token drawn).1, unused (kept.fresh i token drawn).2⟩
  · exact kept.apart
  · intro fine key token deadline held
    exact kept.leased fine key token deadline (keys held)

/-- A work step. -/
theorem work (kept : Kept client s) (after : σ) : Kept client { s with work := after } :=
  ⟨kept.holds, kept.once, kept.owned, kept.read, kept.live, kept.known, kept.fresh, kept.apart,
    kept.leased⟩

/-- The keys after one is put. -/
theorem keys_set [DecidableEq K] {key other : K} {token : T} {ttl : Nat} {held : T × Nat}
    (here : (s.set key token ttl).keys other = some held) :
    other = key ∧ held = (token, s.now + ttl) ∨ other ≠ key ∧ s.keys other = some held := by
  by_cases same : other = key
  · subst same
    rw [LeaseState.set_keys_self] at here
    exact .inl ⟨rfl, (Option.some.inj here).symm⟩
  · rw [LeaseState.set_keys_of_ne _ _ _ same] at here
    exact .inr ⟨same, here⟩

/-- A lease that has not ended is not on a key that is absent. -/
theorem holds_set [DecidableEq K] (kept : Kept client s) {key : K}
    (absent : s.keys key = none) (token : T)
    (ttl : Nat) {lease : Lease ι K T} (member : lease ∈ s.leases) (live : s.now < lease.deadline) :
    (s.set key token ttl).keys lease.key = some (lease.token, lease.deadline) := by
  have held := kept.holds lease member live
  have other : lease.key ≠ key := by
    intro same
    rw [same, absent] at held
    cases held
  rw [LeaseState.set_keys_of_ne _ _ _ other]
  exact held

/-- A key is put, and its client does not learn of it. -/
theorem set [DecidableEq K] (kept : Kept client s) {key : K} {token : T} {ttl : Nat}
    (absent : s.keys key = none) (drawn : token ∈ s.drawn) (new : Unused client s token)
    (undrawn : ∀ i, (client i).drawn ≠ some token) (failed : ∃ i, (client i).failed = true) :
    Kept client (s.set key token ttl) := by
  have unused {other : T} (different : other ≠ token) (unused : Unused client s other) :
      Unused client (s.set key token ttl) other := by
    refine ⟨fun key' deadline held => ?_, unused.2⟩
    rcases keys_set held with ⟨-, same⟩ | ⟨-, held⟩
    · exact different (congrArg Prod.fst same)
    · exact unused.1 key' deadline held
  constructor
  · exact fun lease member live => kept.holds_set absent token ttl member live
  · exact kept.once
  · intro i key' other deadline member held
    rcases keys_set held with ⟨rfl, same⟩ | ⟨-, held⟩
    · obtain rfl : other = token := congrArg Prod.fst same
      exact absurd member (new.2.2 i key')
    · exact kept.owned i key' other deadline member held
  · exact kept.read
  · exact kept.live
  · exact fun other absent => unused (fun same => absent (same ▸ drawn)) (kept.known other absent)
  · intro i other here
    exact ⟨(kept.fresh i other here).1,
      unused (fun same => undrawn i (same ▸ here)) (kept.fresh i other here).2⟩
  · exact kept.apart
  · intro fine
    obtain ⟨i, failed⟩ := failed
    rw [fine i] at failed
    cases failed

variable [DecidableEq ι]

/-- A client forgets something, or learns that it has a lease. -/
theorem update (kept : Kept client s) {i : ι} (after : LeaseLocal K T)
    (own : ∀ entry ∈ after.own, entry ∈ (client i).own)
    (live : ∀ lease ∈ s.leases, lease.client = i → s.now < lease.deadline →
      (lease.key, lease.token) ∈ after.own)
    (drawn : ∀ token, after.drawn = some token → (client i).drawn = some token)
    (read : ∀ key token, after.read = some (key, token) →
      ∃ deadline, ⟨i, key, token, deadline⟩ ∈ s.leases)
    (failed : after.failed = false → (client i).failed = false) :
    Kept (Function.update client i after) s := by
  have owns {j : ι} {entry : K × T} (member : entry ∈ (Function.update client i after j).own) :
      entry ∈ (client j).own := by
    by_cases same : j = i
    · subst same
      rw [Function.update_self] at member
      exact own entry member
    · rwa [Function.update_of_ne same] at member
  have draws {j : ι} {token : T} (here : (Function.update client i after j).drawn = some token) :
      (client j).drawn = some token := by
    by_cases same : j = i
    · subst same
      rw [Function.update_self] at here
      exact drawn token here
    · rwa [Function.update_of_ne same] at here
  have unused {token : T} (unused : Unused client s token) :
      Unused (Function.update client i after) s token :=
    ⟨unused.1, unused.2.1, fun j key member => unused.2.2 j key (owns member)⟩
  constructor
  · exact kept.holds
  · exact kept.once
  · exact fun j key token deadline member => kept.owned j key token deadline (owns member)
  · intro j key token here
    by_cases same : j = i
    · subst same
      rw [Function.update_self] at here
      exact read key token here
    · rw [Function.update_of_ne same] at here
      exact kept.read j key token here
  · intro lease member ends
    by_cases same : lease.client = i
    · rw [same, Function.update_self]
      exact live lease member same ends
    · rw [Function.update_of_ne same]
      exact kept.live lease member ends
  · exact fun token new => unused (kept.known token new)
  · intro j token here
    have before := kept.fresh j token (draws here)
    exact ⟨before.1, unused before.2⟩
  · exact fun j k token here there => kept.apart j k token (draws here) (draws there)
  · intro fine
    refine kept.leased fun j => ?_
    have fine := fine j
    by_cases same : j = i
    · subst same
      rw [Function.update_self] at fine
      exact failed fine
    · rwa [Function.update_of_ne same] at fine

/-- A client keeps its keys. -/
theorem same_own (kept : Kept client s) {i : ι} (after : LeaseLocal K T)
    (own : after.own = (client i).own)
    (drawn : ∀ token, after.drawn = some token → (client i).drawn = some token)
    (read : ∀ key token, after.read = some (key, token) →
      ∃ deadline, ⟨i, key, token, deadline⟩ ∈ s.leases)
    (failed : after.failed = false → (client i).failed = false) :
    Kept (Function.update client i after) s := by
  refine kept.update after (fun _ member => own ▸ member) (fun lease member here ends => ?_) drawn
    read failed
  rw [own, ← here]
  exact kept.live lease member ends

/-- A client draws a token. -/
theorem draw (kept : Kept client s) {i : ι} {token : T} (new : token ∉ s.drawn) :
    Kept (Function.update client i ((client i).draw token))
      { s with drawn := token :: s.drawn } := by
  have owns (j : ι) : (Function.update client i ((client i).draw token) j).own =
      (client j).own := by
    by_cases same : j = i
    · rw [same, Function.update_self]
      rfl
    · rw [Function.update_of_ne same]
  have draws (j : ι) (other : T)
      (here : (Function.update client i ((client i).draw token) j).drawn = some other) :
      j = i ∧ other = token ∨ j ≠ i ∧ (client j).drawn = some other := by
    by_cases same : j = i
    · subst same
      rw [Function.update_self] at here
      exact .inl ⟨rfl, (Option.some.inj here).symm⟩
    · rw [Function.update_of_ne same] at here
      exact .inr ⟨same, here⟩
  have unused {other : T} (unused : Unused client s other) :
      Unused (Function.update client i ((client i).draw token)) { s with drawn := token :: s.drawn }
        other :=
    ⟨unused.1, unused.2.1, fun j key => by rw [owns j]; exact unused.2.2 j key⟩
  constructor
  · exact kept.holds
  · exact kept.once
  · intro j key other deadline member
    rw [owns j] at member
    exact kept.owned j key other deadline member
  · intro j key other here
    by_cases same : j = i
    · subst same
      rw [Function.update_self] at here
      cases here
    · rw [Function.update_of_ne same] at here
      exact kept.read j key other here
  · intro lease member ends
    rw [owns]
    exact kept.live lease member ends
  · exact fun other absent => unused (kept.known other fun member =>
      absent (List.mem_cons_of_mem _ member))
  · intro j other here
    rcases draws j other here with ⟨-, rfl⟩ | ⟨-, before⟩
    · exact ⟨List.mem_cons_self, unused (kept.known other new)⟩
    · exact ⟨List.mem_cons_of_mem _ (kept.fresh j other before).1,
        unused (kept.fresh j other before).2⟩
  · intro j k other here there
    rcases draws j other here with ⟨rfl, rfl⟩ | ⟨-, before⟩ <;>
      rcases draws k other there with ⟨rfl, same⟩ | ⟨-, before'⟩
    · rfl
    · exact absurd (kept.fresh k other before').1 new
    · exact absurd (same ▸ (kept.fresh j other before).1) new
    · exact kept.apart j k other before before'
  · intro fine
    refine kept.leased fun j => ?_
    have fine := fine j
    by_cases same : j = i
    · subst same
      rwa [Function.update_self] at fine
    · rwa [Function.update_of_ne same] at fine

variable [DecidableEq K]

/-- A client puts a key. -/
theorem lease (kept : Kept client s) (i : ι) {key : K} {token : T} (ttl : Nat)
    (absent : s.keys key = none) (drawn : token ∈ s.drawn) (new : Unused client s token)
    (undrawn : ∀ i, (client i).drawn ≠ some token) :
    Kept (Function.update client i { client i with own := (key, token) :: (client i).own })
      { s.set key token ttl with leases := ⟨i, key, token, s.now + ttl⟩ :: s.leases } := by
  have owns {j : ι} {entry : K × T} : entry ∈
      (Function.update client i { client i with own := (key, token) :: (client i).own } j).own ↔
        (j = i ∧ entry = (key, token)) ∨ entry ∈ (client j).own := by
    by_cases same : j = i
    · subst same
      rw [Function.update_self]
      simp
    · rw [Function.update_of_ne same]
      simp [same]
  have draws (j : ι) : (Function.update client i
      { client i with own := (key, token) :: (client i).own } j).drawn = (client j).drawn := by
    by_cases same : j = i
    · rw [same, Function.update_self]
    · rw [Function.update_of_ne same]
  have unused {other : T} (different : other ≠ token) (unused : Unused client s other) :
      Unused (Function.update client i { client i with own := (key, token) :: (client i).own })
        { s.set key token ttl with leases := ⟨i, key, token, s.now + ttl⟩ :: s.leases } other := by
    refine ⟨fun key' deadline held => ?_, fun lease member => ?_, fun j key' member => ?_⟩
    · rcases keys_set held with ⟨-, same⟩ | ⟨-, held⟩
      · exact different (congrArg Prod.fst same)
      · exact unused.1 key' deadline held
    · rcases List.mem_cons.mp member with rfl | member
      · exact different.symm
      · exact unused.2.1 lease member
    · rcases owns.mp member with ⟨-, same⟩ | member
      · exact different (congrArg Prod.snd same)
      · exact unused.2.2 j key' member
  constructor
  · intro lease member live
    rcases List.mem_cons.mp member with rfl | member
    · exact s.set_keys_self token ttl
    · exact kept.holds_set absent token ttl member live
  · intro lease member other member' same
    rcases List.mem_cons.mp member with rfl | member <;>
      rcases List.mem_cons.mp member' with rfl | member'
    · rfl
    · exact absurd same.symm (new.2.1 other member')
    · exact absurd same (new.2.1 lease member)
    · exact kept.once lease member other member' same
  · intro j key' other deadline member held
    rcases keys_set held with ⟨rfl, same⟩ | ⟨different, held⟩
    · obtain ⟨rfl, rfl⟩ := Prod.mk.inj same
      rcases owns.mp member with ⟨rfl, -⟩ | member
      · exact List.mem_cons_self
      · exact absurd member (new.2.2 j key')
    · rcases owns.mp member with ⟨-, same⟩ | member
      · exact absurd (congrArg Prod.fst same) different
      · exact List.mem_cons_of_mem _ (kept.owned j key' other deadline member held)
  · intro j key' other here
    have before : (client j).read = some (key', other) := by
      by_cases same : j = i
      · subst same
        rwa [Function.update_self] at here
      · rwa [Function.update_of_ne same] at here
    obtain ⟨deadline, member⟩ := kept.read j key' other before
    exact ⟨deadline, List.mem_cons_of_mem _ member⟩
  · intro lease member live
    rcases List.mem_cons.mp member with rfl | member
    · exact owns.mpr (.inl ⟨rfl, rfl⟩)
    · exact owns.mpr (.inr (kept.live lease member live))
  · exact fun other absent => unused (fun same => absent (same ▸ drawn)) (kept.known other absent)
  · intro j other here
    rw [draws j] at here
    exact ⟨(kept.fresh j other here).1,
      unused (fun same => undrawn j (same ▸ here)) (kept.fresh j other here).2⟩
  · intro j k other here there
    rw [draws j] at here
    rw [draws k] at there
    exact kept.apart j k other here there
  · intro fine key' other deadline held
    rcases keys_set held with ⟨rfl, same⟩ | ⟨-, held⟩
    · obtain ⟨rfl, rfl⟩ := Prod.mk.inj same
      exact ⟨i, List.mem_cons_self⟩
    · have fine (j : ι) : (client j).failed = false := by
        have fine := fine j
        by_cases same : j = i
        · subst same
          rwa [Function.update_self] at fine
        · rwa [Function.update_of_ne same] at fine
      obtain ⟨j, member⟩ := kept.leased fine key' other deadline held
      exact ⟨j, List.mem_cons_of_mem _ member⟩

/-- A client removes a key on which it has a lease that has not ended. -/
theorem unset (kept : Kept client s) {i : ι} {key : K} {token : T} {deadline : Nat}
    (member : ⟨i, key, token, deadline⟩ ∈ s.leases) (live : s.now < deadline)
    (idle : (client i).read = none) : Kept client (s.unset i key) := by
  have keys {key' : K} {held : T × Nat} (here : (s.unset i key).keys key' = some held) :
      key' ≠ key ∧ s.keys key' = some held := by
    by_cases same : key' = key
    · rw [same, LeaseState.unset_keys_self] at here
      cases here
    · rw [LeaseState.unset_keys_of_ne _ _ same] at here
      exact ⟨same, here⟩
  have unused {other : T} (unused : Unused client s other) : Unused client (s.unset i key) other :=
    ⟨fun key' deadline held => unused.1 key' deadline (keys held).2,
      fun lease member => unused.2.1 lease ((s.mem_unset i).mp member).1, unused.2.2⟩
  constructor
  · intro lease member' ends
    obtain ⟨member', other⟩ := (s.mem_unset i).mp member'
    have held := kept.holds lease member' ends
    by_cases same : lease.key = key
    · -- There is one lease of the key that has not ended, the client's own.
      have own := kept.exclusive member' member same ends live
      exact absurd ⟨congrArg Lease.client own, same⟩ other
    · rw [LeaseState.unset_keys_of_ne _ _ same]
      exact held
  · intro lease member other member'
    exact kept.once lease ((s.mem_unset i).mp member).1 other ((s.mem_unset i).mp member').1
  · intro j key' other deadline' member' held
    obtain ⟨different, held⟩ := keys held
    exact (s.mem_unset i).mpr
      ⟨kept.owned j key' other deadline' member' held, fun same => different same.2⟩
  · intro j key' other here
    obtain ⟨deadline', member'⟩ := kept.read j key' other here
    refine ⟨deadline', (s.mem_unset i).mpr ⟨member', fun same => ?_⟩⟩
    rw [show j = i from same.1, idle] at here
    cases here
  · exact fun lease member ends => kept.live lease ((s.mem_unset i).mp member).1 ends
  · exact fun other absent => unused (kept.known other absent)
  · exact fun j other here => ⟨(kept.fresh j other here).1, unused (kept.fresh j other here).2⟩
  · exact kept.apart
  · intro fine key' other deadline' held
    obtain ⟨different, held⟩ := keys held
    obtain ⟨j, member'⟩ := kept.leased fine key' other deadline' held
    exact ⟨j, (s.mem_unset i).mpr ⟨member', fun same => different same.2⟩⟩

/-- A removal comes before the client's leases of the key have ended. -/
def InTime (i : ι) (move : Move (leaseCalls W K T E) (LeaseState ι K T σ)) : Prop :=
  ∀ key, move.op = .remove key → ∀ lease ∈ move.before.leases, lease.client = i →
    lease.key = key → move.after.now < lease.deadline

variable {work : Transition W σ} {i : ι}

/-- A client puts a key, or fails to. -/
theorem put (kept : Kept client s) {key : K} {token : T} {ttl : Nat} {answer : Except E Bool}
    {s' : LeaseState ι K T σ} (may : (client i).drawn = some token)
    (moved : leaseEffect work i (.put key token ttl) s answer s') :
    Kept (Function.update client i ((client i).put key token answer)) s' := by
  -- First the client forgets the token it has drawn.
  have forgets (failed : Bool) (more : failed = false → (client i).failed = false) :
      Kept (Function.update client i
        { client i with drawn := none, read := none, failed := failed }) s :=
    kept.same_own _ rfl (fun _ here => by cases here) (fun _ _ here => by cases here) more
  obtain ⟨drawn, new⟩ := kept.fresh i token may
  have unused (after : LeaseLocal K T) (own : after.own = (client i).own) :
      Unused (Function.update client i after) s token := by
    refine ⟨new.1, new.2.1, fun j key member => ?_⟩
    by_cases same : j = i
    · subst same
      rw [Function.update_self, own] at member
      exact new.2.2 j key member
    · rw [Function.update_of_ne same] at member
      exact new.2.2 j key member
  have undrawn (after : LeaseLocal K T) (none : after.drawn = none) (j : ι) :
      (Function.update client i after j).drawn ≠ some token := by
    intro here
    by_cases same : j = i
    · subst same
      rw [Function.update_self, none] at here
      cases here
    · rw [Function.update_of_ne same] at here
      exact same (kept.apart j i token here may)
  cases absent : s.keys key with
  | some held =>
    simp only [leaseEffect, absent] at moved
    obtain ⟨rfl | ⟨err, rfl⟩, rfl⟩ := moved
    · exact forgets _ id
    · exact forgets true fun bad => by cases bad
  | none =>
    simp only [leaseEffect, absent] at moved
    rcases moved with ⟨rfl, rfl⟩ | ⟨err, rfl, rfl | rfl⟩
    · have leased := (forgets (client i).failed id).lease i ttl absent drawn
        (unused _ rfl) (undrawn _ rfl)
      rwa [Function.update_idem, Function.update_self] at leased
    · exact forgets true fun bad => by cases bad
    · exact (forgets true fun bad => by cases bad).set absent drawn (unused _ rfl) (undrawn _ rfl)
        ⟨i, by rw [Function.update_self]⟩

/-- A client reads a key. -/
theorem look [DecidableEq T] (kept : Kept client s) {key : K} {answer : Except E (Option T)}
    (here : answer = .ok ((s.keys key).map Prod.fst) ∨ ∃ err, answer = .error err) :
    Kept (Function.update client i ((client i).look key answer)) s := by
  -- A lease of the client that has not ended is on the server, with a token the client knows.
  have gone (none : ∀ token deadline, s.keys key = some (token, deadline) →
        (key, token) ∉ (client i).own) :
      Kept (Function.update client i
        { client i with own := (client i).own.filter (·.1 ≠ key), read := .none }) s := by
    refine kept.update _ (fun _ member => (List.mem_filter.mp member).1)
      (fun lease member own ends => ?_) (fun _ drawn => drawn) (fun _ _ here => by cases here) id
    have known := kept.live lease member ends
    have held := kept.holds lease member ends
    rw [own] at known
    refine List.mem_filter.mpr ⟨known, decide_eq_true fun same => ?_⟩
    rw [show lease.key = key from same] at known held
    exact none _ _ held known
  rcases here with rfl | ⟨err, rfl⟩
  · cases held : s.keys key with
    | none => exact gone fun token deadline there => by rw [held] at there; cases there
    | some value =>
      show Kept (Function.update client i (if _ then _ else _)) s
      split
      · rename_i own
        refine kept.same_own _ rfl (fun _ drawn => drawn) (fun key' token same => ?_) id
        cases same
        exact ⟨value.2, kept.owned i key value.1 value.2 own held⟩
      · rename_i other
        refine gone fun token deadline there => ?_
        rw [held] at there
        cases there
        exact other
  · exact kept.same_own _ rfl (fun _ drawn => drawn) (fun _ _ here => by cases here)
      fun bad => by cases bad

/-- A client removes a key, or fails to. -/
theorem remove (kept : Kept client s) {key : K} {answer : Except E Unit} {s' : LeaseState ι K T σ}
    (may : ∃ token, (client i).read = some (key, token))
    (inTime : ∀ lease ∈ s.leases, lease.client = i → lease.key = key → s.now < lease.deadline)
    (moved : leaseEffect work i (.remove key) s answer s') :
    Kept (Function.update client i ((client i).remove key answer)) s' := by
  obtain ⟨token, here⟩ := may
  obtain ⟨deadline, member⟩ := kept.read i key token here
  have forgets (failed : Bool) (more : failed = false → (client i).failed = false) :
      Kept (Function.update client i { client i with read := none, failed := failed }) s :=
    kept.same_own _ rfl (fun _ drawn => drawn) (fun _ _ here => by cases here) more
  have removed (failed : Bool) (more : failed = false → (client i).failed = false) :=
    (forgets failed more).unset member (inTime _ member rfl rfl) (by rw [Function.update_self])
  rcases moved with ⟨rfl, rfl⟩ | ⟨err, rfl, rfl | rfl⟩
  · have given := (removed (client i).failed id).update (i := i)
      { client i with own := (client i).own.filter (·.1 ≠ key), read := none }
      (fun entry member => ?_) (fun lease member own ends => ?_) (fun _ drawn => ?_)
      (fun _ _ here => by cases here) fun fine => ?_
    · rwa [Function.update_idem] at given
    · rw [Function.update_self]
      exact (List.mem_filter.mp member).1
    · obtain ⟨before, other⟩ := (s.mem_unset i).mp member
      refine List.mem_filter.mpr ⟨own ▸ kept.live lease before ends, decide_eq_true fun same => ?_⟩
      exact other ⟨own, same⟩
    · rw [Function.update_self]
      exact drawn
    · rw [Function.update_self]
      exact fine
  · exact forgets true fun bad => by cases bad
  · exact removed true fun bad => by cases bad

/-- Every command of a careful client keeps the invariant, if its removals come in time. -/
theorem step [DecidableEq T] (kept : Kept client s) {op : LeaseOp W K T} {answer : op.Ans E}
    {s' : LeaseState ι K T σ} (may : (client i).May op) (moved : leaseStep work i op s answer s')
    (inTime : InTime (E := E) i ⟨op, s, answer, s'⟩) :
    Kept (Function.update client i ((client i).after op answer)) s' := by
  obtain ⟨now, later, moved⟩ := moved
  have kept := kept.elapse later
  cases op with
  | draw =>
    obtain ⟨new, rfl⟩ := moved
    exact kept.draw new
  | put key token ttl => exact kept.put may moved
  | read key =>
    obtain ⟨here, rfl⟩ := moved
    exact kept.look here
  | remove key =>
    have same : s'.now = now := by
      rcases moved with ⟨-, rfl⟩ | ⟨err, -, rfl | rfl⟩ <;> rfl
    refine kept.remove may (fun lease member own here => ?_) moved
    show now < lease.deadline
    exact same ▸ inTime key rfl lease member own here
  | work op =>
    obtain ⟨after, -, rfl⟩ := moved
    have aside : Kept (Function.update client i (client i).aside) (s.elapse now) :=
      kept.same_own _ rfl (fun _ drawn => drawn) (fun _ _ here => by cases here) id
    exact aside.work after

/-- The command has failed. -/
def LeaseFailed : (op : LeaseOp W K T) → op.Ans E → Bool
  | .put _ _ _, .error _ | .read _, .error _ | .remove _, .error _ => true
  | _, _ => false

/-- A client notes a failure when a command fails. -/
theorem failed_after [DecidableEq T] (before : LeaseLocal K T) (op : LeaseOp W K T)
    (answer : op.Ans E) (failed : (before.after op answer).failed = true) :
    before.failed = true ∨ LeaseFailed op answer = true := by
  cases op with
  | draw | work _ => exact .inl failed
  | put key token ttl =>
    rcases answer with _ | _ | _
    · exact .inr rfl
    · exact .inl failed
    · exact .inl failed
  | read key =>
    rcases answer with _ | _ | token
    · exact .inr rfl
    · exact .inl failed
    · refine .inl (failed ▸ ?_)
      show _ = LeaseLocal.failed (if _ then _ else _)
      split <;> rfl
  | remove key =>
    cases answer with
    | error _ => exact .inr rfl
    | ok _ => exact .inl failed

/-- Careful clients keep the invariant in every schedule whose removals come in time. -/
theorem of_reachable [DecidableEq T]
    {admits : Crew.Guard (leaseCalls W K T E) (LeaseState ι K T σ) ι α}
    (inTime : ∀ crew i move, admits crew i move → InTime i move)
    {body : ι → Program (leaseCalls W K T E) α} {post : ι → α → LeaseLocal K T → Prop}
    (careful : ∀ i, Careful (post i) (body i) {}) {start : σ}
    {crew : Crew (leaseCalls W K T E) (LeaseState ι K T σ) ι α}
    (reachable : Crew.Reachable (leaseStep work) admits (.start body { work := start }) crew) :
    ∃ client, Kept client crew.state ∧ (∀ i, Careful (post i) (crew.rest i) (client i)) ∧
      ∀ i, (client i).failed = true →
        ∃ move, (i, move) ∈ crew.moves ∧ LeaseFailed move.op move.answer = true := by
  induction reachable with
  | refl => exact ⟨fun _ => {}, .initial start, careful, fun _ failed => by cases failed⟩
  | tail _ stepped ih =>
    obtain ⟨client, kept, careful, fails⟩ := ih
    obtain @⟨i, op, next, answer, s', waiting, moved, admitted⟩ := stepped
    have own := careful i
    rw [waiting] at own
    refine ⟨Function.update client i ((client i).after op answer),
      kept.step own.1 moved (inTime _ i _ admitted), fun j => ?_, fun j failed => ?_⟩
    · by_cases same : j = i
      · subst same
        rw [Crew.advance_rest_self, Function.update_self]
        exact own.2 answer
      · rw [Crew.advance_rest_of_ne _ _ _ same, Function.update_of_ne same]
        exact careful j
    · have before : (client j).failed = true ∨ j = i ∧ LeaseFailed op answer = true := by
        by_cases same : j = i
        · subst same
          rw [Function.update_self] at failed
          exact (failed_after _ op answer failed).imp id fun now => ⟨rfl, now⟩
        · rw [Function.update_of_ne same] at failed
          exact .inl failed
      rcases before with earlier | ⟨rfl, now⟩
      · obtain ⟨move, member, failed⟩ := fails j earlier
        exact ⟨move, List.mem_cons_of_mem _ member, failed⟩
      · exact ⟨_, List.mem_cons_self, now⟩

end Kept

/-! ## Computed schedules -/

section Computed

variable [DecidableEq ι] [DecidableEq K]

/-- Execute a command without a failure. -/
def leaseCommand (apply : (op : W.Op) → σ → W.Ans op × σ) (token : Nat → T) (i : ι) :
    (op : LeaseOp W K T) → LeaseState ι K T σ → op.Ans E × LeaseState ι K T σ
  | .draw, s => (token s.drawn.length, { s with drawn := token s.drawn.length :: s.drawn })
  | .put key token ttl, s =>
    match s.keys key with
    | some _ => (.ok false, s)
    | none => (.ok true,
        { s.set key token ttl with leases := ⟨i, key, token, s.now + ttl⟩ :: s.leases })
  | .read key, s => (.ok ((s.keys key).map Prod.fst), s)
  | .remove key, s => (.ok (), s.unset i key)
  | .work op, s => ((apply op s.work).1, { s with work := (apply op s.work).2 })

/-- Execute a command one unit of time after the last one. -/
def leaseHandle (apply : (op : W.Op) → σ → W.Ans op × σ) (token : Nat → T) (i : ι)
    (op : LeaseOp W K T) (s : LeaseState ι K T σ) : op.Ans E × LeaseState ι K T σ :=
  leaseCommand apply token i op (s.elapse (s.now + 1))

/-- A command without a failure is one of the server. -/
theorem leaseCommand_effect {work : Transition W σ} {apply : (op : W.Op) → σ → W.Ans op × σ}
    (follows : ∀ op s, work op s (apply op s).1 (apply op s).2) (token : Nat → T) (i : ι)
    (op : LeaseOp W K T) (s : LeaseState ι K T σ)
    (new : op = .draw → token s.drawn.length ∉ s.drawn) :
    leaseEffect work i op s (leaseCommand (E := E) apply token i op s).1
      (leaseCommand (E := E) apply token i op s).2 := by
  cases op with
  | draw => exact ⟨new rfl, rfl⟩
  | put key token' ttl => cases held : s.keys key <;> simp [leaseEffect, leaseCommand, held]
  | read key => exact ⟨.inl rfl, rfl⟩
  | remove key => exact .inl ⟨rfl, rfl⟩
  | work op => exact ⟨_, follows op _, rfl⟩

/-- The token is new, and the removal comes in time. -/
def LeaseReady (_ : Crew (leaseCalls W K T E) (LeaseState ι K T σ) ι α) (i : ι)
    (move : Move (leaseCalls W K T E) (LeaseState ι K T σ)) : Prop :=
  match move with
  | ⟨.draw, before, token, _⟩ => token ∉ before.drawn
  | ⟨.remove key, before, _, after⟩ =>
    ∀ lease ∈ before.leases, lease.client = i → lease.key = key → after.now < lease.deadline
  | _ => True

instance [DecidableEq T] (crew : Crew (leaseCalls W K T E) (LeaseState ι K T σ) ι α) (i : ι)
    (move : Move (leaseCalls W K T E) (LeaseState ι K T σ)) :
    Decidable (LeaseReady crew i move) := by
  unfold LeaseReady
  split <;> infer_instance

/-- The turns of some clients. -/
def leaseTurns (apply : (op : W.Op) → σ → W.Ans op × σ) (token : Nat → T) (turns : List ι) :
    List (Crew.Turn (leaseCalls W K T E) (LeaseState ι K T σ) ι) :=
  turns.map fun i => (i, leaseHandle apply token i)

/-- Turns that are taken when they are ready are a schedule whose removals come in time. -/
theorem reachable_leaseTurns {work : Transition W σ} {apply : (op : W.Op) → σ → W.Ans op × σ}
    {token : Nat → T} {crew : Crew (leaseCalls W K T E) (LeaseState ι K T σ) ι α} {turns : List ι}
    (follows : ∀ op s, work op s (apply op s).1 (apply op s).2)
    (ready : crew.AdmitsAll LeaseReady (leaseTurns apply token turns)) :
    Crew.Reachable (leaseStep work) (fun _ i move => Kept.InTime i move) crew
      (crew.play (leaseTurns apply token turns)) := by
  have reached : Crew.Reachable (leaseStep work) LeaseReady crew
      (crew.play (leaseTurns apply token turns)) := by
    refine Crew.reachable_play_admitted (fun next member crew op admitted => ?_) ready
    obtain ⟨i, -, rfl⟩ := List.mem_map.mp member
    refine ⟨crew.state.now + 1, Nat.le_succ _, leaseCommand_effect follows token i op _ ?_⟩
    rintro rfl
    exact admitted
  refine Relation.ReflTransGen.mono (fun before after stepped => ?_) _ _ reached
  obtain @⟨i, op, next, answer, s', waiting, moved, admitted⟩ := stepped
  refine .call waiting moved fun key same => ?_
  cases same
  exact admitted

end Computed

end Interaction
