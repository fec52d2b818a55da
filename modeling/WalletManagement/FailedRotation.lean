import WalletManagement.Derivation
import WalletManagement.RotationPeriod

/-!
# Failed rotations

A rotation deprecates the old address first and derives and inserts the new one afterwards. Nothing
takes the deprecation back, so a rotation that fails in between leaves the wallet without an active
address. A call that returns an error has kept all rows exactly if nothing can fail once the lock is
granted.
-/

namespace WalletManagement

open Interaction Data

/-- The meaning of the calls while `uuid.NewV7` gives out `id`. -/
def Collaborators.stepMinting (env : Collaborators) (id : UUID) :
    Transition rotationCalls RotationState
  | .newV7, s, answer, s' => answer = id ∧ s' = s
  | op, s, answer, s' => env.step op s answer s'

/-- `DeriveAt` and `Release` return, with or without an error. -/
structure Collaborators.Responds (env : Collaborators) : Prop where
  derives : ∀ d walletID chain index change,
    ∃ answer, env.derives d walletID chain index change answer
  releases : ∀ name token locks, ∃ answer locks', env.locker.release name token locks answer locks'

/-! ## Deprecated rows -/

namespace Store

variable {s t : Store} {id other : UUID} {w : Wallet}

/-- The address with this identifier is deprecated. -/
def Deprecated (s : Store) (id : UUID) : Prop :=
  ∃ row, s.addresses.get id = some row ∧ row.state = .deprecated

/-- A row that is there is deprecated. -/
theorem deprecateAddress_ok {a : Address} (found : s.addresses.get id = some a) :
    (s.deprecateAddress id).1 = .ok () := by
  rcases s.deprecateAddress_cases id with ⟨missing, -⟩ | ⟨_, -, same⟩
  · rw [found] at missing
    cases missing
  · rw [same]

/-- Where `DeprecateAddress` succeeds, the row is deprecated. -/
theorem deprecated_deprecateAddress (there : (s.deprecateAddress id).1 = .ok ()) :
    (s.deprecateAddress id).2.Deprecated id := by
  rcases s.deprecateAddress_cases id with ⟨-, err, same⟩ | ⟨a, found, same⟩
  · rw [same] at there
    cases there
  · have key : a.id = id := Table.key_of_get found
    rw [same, ← key]
    exact ⟨{ a with state := .deprecated }, Table.get_put_self _ _, rfl⟩

/-- A deprecated row stays deprecated when another one is. -/
theorem Deprecated.deprecateAddress (dead : s.Deprecated id) (other : UUID) :
    (s.deprecateAddress other).2.Deprecated id := by
  obtain ⟨row, found, state⟩ := dead
  rcases s.deprecateAddress_cases other with ⟨-, _, same⟩ | ⟨a, -, same⟩
  · rw [same]
    exact ⟨row, found, state⟩
  · rw [same]
    by_cases here : a.id = id
    · rw [← here]
      exact ⟨{ a with state := .deprecated }, Table.get_put_self _ _, rfl⟩
    · refine ⟨row, ?_, state⟩
      have apart : ({ a with state := .deprecated } : Address).id ≠ id := here
      rw [Table.get_put_of_ne _ apart, found]

/-- What `deriveNew` can have made of the store before it derives: on Solana it deprecates the first
address of the wallet. -/
def AfterFirst (s : Store) (w : Wallet) (t : Store) : Prop :=
  if w.chain = .solana then
    ∃ addrs, s.ListAddresses w.id addrs ∧
      t = addrs.head?.elim s fun first => (s.deprecateAddress first.id).2
  else t = s

/-- There is an order in which the addresses are listed. -/
theorem exists_afterFirst (s : Store) (w : Wallet) : ∃ t, s.AfterFirst w t := by
  unfold AfterFirst
  split
  · exact ⟨_, _, ⟨List.perm_insertionSort _ _, sorted_addresses _⟩, rfl⟩
  · exact ⟨s, rfl⟩

theorem Deprecated.afterFirst (dead : s.Deprecated id) (after : s.AfterFirst w t) :
    t.Deprecated id := by
  unfold AfterFirst at after
  split at after
  · obtain ⟨addrs, -, rfl⟩ := after
    cases addrs with
    | nil => exact dead
    | cons first rest => exact dead.deprecateAddress first.id
  · rw [after]
    exact dead

theorem isSome_afterFirst (after : s.AfterFirst w t) (key : UUID) :
    (t.addresses.get key).isSome = (s.addresses.get key).isSome := by
  unfold AfterFirst at after
  split at after
  · obtain ⟨addrs, -, rfl⟩ := after
    cases addrs with
    | nil => rfl
    | cons first rest => exact s.isSome_deprecateAddress first.id key
  · rw [after]

end Store

/-! ## Deriving -/

section Deriving

variable {env : Collaborators} {p : RotationPolicy} {w : Wallet} {id : UUID}
  {s s' : RotationState}

/-- A listed address is there to be deprecated. -/
theorem deprecate_listed {s : Store} {first : Address} {rest : List Address}
    (listed : s.ListAddresses w.id (first :: rest)) : (s.deprecateAddress first.id).1 = .ok () := by
  have member : first ∈ s.addresses.rows :=
    List.mem_of_mem_filter (listed.1.subset List.mem_cons_self)
  exact Store.deprecateAddress_ok (Table.get_of_mem member)

/-- `deprecateFirst` succeeds. -/
theorem deprecateFirst_exec {result : Except Err Unit} :
    (RotationPolicy.deprecateFirst w).Exec (env.stepMinting id) s result s' ↔
      result = .ok () ∧ ∃ t, s.store.AfterFirst w t ∧ s' = { s with store := t } := by
  unfold RotationPolicy.deprecateFirst Store.AfterFirst
  by_cases solana : w.chain = .solana
  · simp only [if_pos solana]
    constructor
    · rintro ⟨answer, middle, ⟨⟨addrs, listed, rfl⟩, rfl⟩, rest⟩
      cases addrs with
      | nil =>
        obtain ⟨rfl, rfl⟩ := rest
        exact ⟨rfl, _, ⟨[], listed, rfl⟩, rfl⟩
      | cons first others =>
        obtain ⟨answer, middle, ⟨rfl, rfl⟩, rfl, rfl⟩ := rest
        exact ⟨deprecate_listed listed, _, ⟨first :: others, listed, rfl⟩, rfl⟩
    · rintro ⟨rfl, t, ⟨addrs, listed, rfl⟩, rfl⟩
      refine ⟨.ok addrs, s, ⟨⟨addrs, listed, rfl⟩, rfl⟩, ?_⟩
      cases addrs with
      | nil => exact ⟨rfl, rfl⟩
      | cons first others =>
        exact ⟨.ok (), _, ⟨(deprecate_listed listed).symm, rfl⟩, rfl, rfl⟩
  · simp only [if_neg solana]
    constructor
    · rintro ⟨rfl, rfl⟩
      exact ⟨rfl, _, rfl, rfl⟩
    · rintro ⟨rfl, t, rfl, rfl⟩
      exact ⟨rfl, rfl⟩

/-- A new address is inserted exactly if its identifier is unused and the wallet has no active
address. -/
theorem insertAddress_new {t : Store} (res : DeriveResult) (now now' : Int) :
    (t.addresses.get id = none ∧ t.activeAddresses w.id = [] →
      (t.insertAddress now' (RotationPolicy.newAddress w id res now)).1 = .ok ()) ∧
    (¬(t.addresses.get id = none ∧ t.activeAddresses w.id = []) →
      ∃ err, t.insertAddress now' (RotationPolicy.newAddress w id res now) = (.error err, t)) := by
  rcases t.insertAddress_cases now' (RotationPolicy.newAddress w id res now) with
    ⟨taken, err, same⟩ | ⟨active, err, same⟩ | ⟨fresh, cleared, createdAt, same⟩
  · refine ⟨fun free => ?_, fun _ => ⟨err, same⟩⟩
    have unused : t.addresses.get (RotationPolicy.newAddress w id res now).id = none := free.1
    rw [unused] at taken
    cases taken
  · exact ⟨fun free => absurd free.2 active, fun _ => ⟨err, same⟩⟩
  · exact ⟨fun _ => by rw [same], fun refused => absurd ⟨fresh, cleared rfl⟩ refused⟩

/-- Nothing in `deriveNew` can fail: the chain has a deriver that returns no error at the next
index, the new identifier is unused, and no address of the wallet is left active. -/
def Derivable (env : Collaborators) (p : RotationPolicy) (w : Wallet) (id : UUID)
    (s : Store) : Prop :=
  ∃ d, Deriver.for p.quote w.chain = .ok d ∧
    (∀ err, ¬env.derives d w.id w.chain (s.nextAddressIndex w.chain 0) 0 (.error err)) ∧
    s.addresses.get id = none ∧ ∀ t, s.AfterFirst w t → t.activeAddresses w.id = []

/-- Nothing is asked of an emission. -/
theorem emit_returns (event : AuditEvent) (s : RotationState) :
    (p.emit event).Wlp (env.stepMinting id) (fun _ _ => True) s :=
  (Program.wlp_iff_exec _ _ _).mpr fun _ _ _ => trivial

/-- Then `deriveNew` succeeds. -/
theorem deriveNew_succeeds (derivable : Derivable env p w id s.store) :
    (p.deriveNew w).Wlp (env.stepMinting id) (fun result _ => ∃ addr, result = .ok addr) s := by
  obtain ⟨d, found, works, fresh, cleared⟩ := derivable
  unfold RotationPolicy.deriveNew
  rw [found]
  rintro answer s₁ ⟨rfl, rfl⟩
  have first := (Program.wlp_iff_exec _ _ _).mpr fun result s₂ execution =>
    (@deprecateFirst_exec env w id s₁ s₂ result).mp execution
  refine first.bind fun result s₂ deprecated => ?_
  obtain ⟨rfl, t, after, rfl⟩ := deprecated
  rintro answer s₃ ⟨derived, rfl⟩
  cases answer with
  | error err => exact absurd derived (works err)
  | ok res =>
    rintro minted s₄ ⟨rfl, rfl⟩
    rintro now s₅ rfl
    rintro answer s₆ ⟨now', rfl, rfl⟩
    have unused : t.addresses.get minted = none := by
      rw [← Option.not_isSome_iff_eq_none, Store.isSome_afterFirst after, fresh]
      simp
    have inserted := (insertAddress_new res now now').1 ⟨unused, cleared t after⟩
    simp only [inserted]
    change (p.emit _ >>= fun _ => _).Wlp _ _ _
    exact (emit_returns _ _).bind fun _ _ _ => ⟨_, rfl⟩

/-- An answer of the deriver with which `deriveNew` fails. -/
theorem deriveNew_exec_error {d : Deriver} {t : Store} {answer : Except Err DeriveResult}
    (found : Deriver.for p.quote w.chain = .ok d) (after : s.store.AfterFirst w t)
    (answered : env.derives d w.id w.chain (s.store.nextAddressIndex w.chain 0) 0 answer)
    (fails : (∃ err, answer = .error err) ∨
      ¬(t.addresses.get id = none ∧ t.activeAddresses w.id = [])) :
    ∃ err, (p.deriveNew w).Exec (env.stepMinting id) s (.error err) { s with store := t } := by
  have first : (RotationPolicy.deprecateFirst w).Exec (env.stepMinting id) s (.ok ())
      { s with store := t } := deprecateFirst_exec.mpr ⟨rfl, t, after, rfl⟩
  unfold RotationPolicy.deriveNew
  rw [found]
  cases answer with
  | error err =>
    refine ⟨err.wrap "derive", ?_⟩
    rw [Program.exec_read fun _ _ => Iff.rfl]
    exact (Program.exec_bind (RotationPolicy.deprecateFirst w) _).mpr
      ⟨_, _, first, _, _, ⟨answered, rfl⟩, rfl, rfl⟩
  | ok res =>
    have refused : ¬(t.addresses.get id = none ∧ t.activeAddresses w.id = []) := by
      rcases fails with ⟨err, failed⟩ | refused
      · cases failed
      · exact refused
    obtain ⟨err, same⟩ := (insertAddress_new res 0 0).2 refused
    refine ⟨err.wrap "insert address", ?_⟩
    rw [Program.exec_read fun _ _ => Iff.rfl]
    refine (Program.exec_bind (RotationPolicy.deprecateFirst w) _).mpr ⟨_, _, first, ?_⟩
    refine ⟨_, _, ⟨answered, rfl⟩, id, _, ⟨rfl, rfl⟩, 0, _, rfl, .error err, _,
      ⟨0, congrArg Prod.fst same.symm, rfl⟩, rfl, ?_⟩
    rw [same]

/-- A rotation that may fail does so with the rows as they are before the insertion. -/
theorem deriveNew_fails (responds : env.Responds) (underivable : ¬Derivable env p w id s.store) :
    ∃ err t, (p.deriveNew w).Exec (env.stepMinting id) s (.error err) { s with store := t } ∧
      (t = s.store ∨ s.store.AfterFirst w t) := by
  cases found : Deriver.for p.quote w.chain with
  | error err =>
    refine ⟨err, s.store, ?_, .inl rfl⟩
    unfold RotationPolicy.deriveNew
    rw [found]
    exact ⟨rfl, rfl⟩
  | ok d =>
    let index := s.store.nextAddressIndex w.chain 0
    by_cases works : ∀ err, ¬env.derives d w.id w.chain index 0 (.error err)
    · -- the insertion is what fails, whatever the deriver answers
      have refused : ∃ t, s.store.AfterFirst w t ∧
          ¬(t.addresses.get id = none ∧ t.activeAddresses w.id = []) := by
        by_contra none_refused
        push Not at none_refused
        apply underivable
        refine ⟨d, found, works, ?_, fun t after => (none_refused t after).2⟩
        obtain ⟨t, after⟩ := s.store.exists_afterFirst w
        rw [← Option.not_isSome_iff_eq_none, ← Store.isSome_afterFirst after,
          (none_refused t after).1]
        simp
      obtain ⟨t, after, refused⟩ := refused
      obtain ⟨answer, answered⟩ := responds.derives d w.id w.chain index 0
      obtain ⟨err, execution⟩ := deriveNew_exec_error found after answered (.inr refused)
      exact ⟨err, t, execution, .inr after⟩
    · push Not at works
      obtain ⟨err, answered⟩ := works
      obtain ⟨t, after⟩ := s.store.exists_afterFirst w
      obtain ⟨err, execution⟩ := deriveNew_exec_error found after answered (.inl ⟨err, rfl⟩)
      exact ⟨err, t, execution, .inr after⟩

end Deriving

/-! ## Rotating -/

/-- The lock of the wallet can be granted. -/
def Collaborators.Grants (env : Collaborators) (w : Wallet) (locks : Locks) : Prop :=
  ∃ token locks',
    env.locker.acquire (rotationLock w.id) locks (.ok (token, true)) locks'

/-- A call may rotate an active address: it is forced to, or the address is due at some time. -/
def RotationPolicy.MayRotate (p : RotationPolicy) (w : Wallet) (a : Address) (call : RotationCall) :
    Prop :=
  call = .forceRotate ∨ ∃ now, p.due w a now = true

section Rotating

variable {env : Collaborators} {p : RotationPolicy} {w : Wallet} {a : Address} {id : UUID}
  {s s' : RotationState}

theorem rotateLocked_succeeds (there : (s.store.deprecateAddress a.id).1 = .ok ())
    (derivable : Derivable env p w id (s.store.deprecateAddress a.id).2) :
    (p.rotateLocked w a).Wlp (env.stepMinting id)
      (fun result _ => ∃ addr, result = .ok addr) s := by
  unfold RotationPolicy.rotateLocked
  refine Program.Wlp.perform_bind fun answer s₁ moved => ?_
  obtain ⟨rfl, rfl⟩ := moved
  rw [there]
  have derived : (p.deriveNew w).Wlp (env.stepMinting id)
      (fun result _ => ∃ addr, result = .ok addr)
      { s with store := (s.store.deprecateAddress a.id).2 } := deriveNew_succeeds derivable
  refine derived.bind fun result s₂ returned => ?_
  obtain ⟨addr, rfl⟩ := returned
  exact (emit_returns _ _).bind fun _ _ _ => ⟨addr, rfl⟩

/-- If nothing can fail under the lock, only the lock itself can, before anything is written. -/
theorem rotate_kept (there : (s.store.deprecateAddress a.id).1 = .ok ())
    (derivable : env.Grants w s.locks → Derivable env p w id (s.store.deprecateAddress a.id).2) :
    (p.rotate w a).Wlp (env.stepMinting id)
      (fun result s' => (∃ addr, result = .ok addr) ∨ s'.store = s.store) s := by
  unfold RotationPolicy.rotate RotationPolicy.underLock
  refine Program.Wlp.perform_bind fun answer s₁ moved => ?_
  obtain ⟨locks, acquired, rfl⟩ := moved
  cases answer with
  | error err => exact .inr rfl
  | ok grant =>
    obtain ⟨token, ok⟩ := grant
    cases ok with
    | false => exact .inr rfl
    | true =>
      have rotated : (p.rotateLocked w a).Wlp (env.stepMinting id)
          (fun result _ => ∃ addr, result = .ok addr) { s with locks } :=
        rotateLocked_succeeds there (derivable ⟨token, locks, acquired⟩)
      refine rotated.bind fun result s₂ returned => ?_
      exact fun _ _ _ => .inl returned

/-- If something may fail under the lock, a rotation may return an error with the old address
deprecated. -/
theorem rotate_fails (responds : env.Responds) (there : (s.store.deprecateAddress a.id).1 = .ok ())
    (granted : env.Grants w s.locks)
    (underivable : ¬Derivable env p w id (s.store.deprecateAddress a.id).2) :
    ∃ err s', (p.rotate w a).Exec (env.stepMinting id) s (.error err) s' ∧
      s'.store.Deprecated a.id := by
  obtain ⟨token, locks, acquired⟩ := granted
  let middle : RotationState := ⟨(s.store.deprecateAddress a.id).2, locks⟩
  obtain ⟨err, t, failed, left⟩ := deriveNew_fails (s := middle) responds underivable
  obtain ⟨answer, locks', released⟩ :=
    responds.releases (rotationLock w.id) token locks
  have dead : middle.store.Deprecated a.id := Store.deprecated_deprecateAddress there
  have rotated : (p.rotateLocked w a).Exec (env.stepMinting id) { s with locks } (.error err)
      { middle with store := t } := by
    refine ⟨.ok (), middle, ⟨there.symm, rfl⟩, ?_⟩
    exact (Program.exec_bind (p.deriveNew w) _).mpr ⟨_, _, failed, rfl, rfl⟩
  refine ⟨err, ⟨t, locks'⟩, ⟨_, _, ⟨locks, acquired, rfl⟩, ?_⟩, ?_⟩
  · exact (Program.exec_bind (p.rotateLocked w a) _).mpr
      ⟨_, _, rotated, answer, _, ⟨locks', released, rfl⟩, rfl, rfl⟩
  · rcases left with rfl | after
    · exact dead
    · exact dead.afterFirst after

/-- Both calls start by reading the wallet. -/
theorem getWallet_exec {walletID : UUID} {result : Except Err Address}
    {next : Except Err Wallet → RotationProg (Except Err Address)} :
    (ask (.getWallet walletID) >>= next).Exec (env.stepMinting id) s result s' ↔
      (next (s.store.getWallet walletID)).Exec (env.stepMinting id) s result s' :=
  Program.exec_read fun _ _ => Iff.rfl

/-- A wallet that is missing or retired is left as it is. -/
theorem body_refused {walletID : UUID} {call : RotationCall} {result : Except Err Address}
    (refused : ∀ w, s.store.wallets.get walletID = some w → w.state = .retired)
    (execution : (p.body walletID call).Exec (env.stepMinting id) s result s') : s' = s := by
  unfold RotationPolicy.body RotationPolicy.currentOrRotate RotationPolicy.forceRotate at execution
  cases found : s.store.wallets.get walletID with
  | none =>
    cases call <;>
    · rw [getWallet_exec] at execution
      simp only [Store.getWallet, found, Store.found] at execution
      exact execution.2.symm
  | some w =>
    cases call <;>
    · rw [getWallet_exec] at execution
      simp only [Store.getWallet, found, Store.found, if_pos (refused w found)] at execution
      exact execution.2.symm

/-- `CurrentOrRotate` rotates an address it has decided to rotate, or returns it. -/
theorem decision_exec {result : Except Err Address} :
    (do if ← p.shouldRotate w a then p.rotate w a else pure (.ok a) :
        RotationProg (Except Err Address)).Exec (env.stepMinting id) s result s' ↔
      ((∃ now, p.due w a now = true) ∧ (p.rotate w a).Exec (env.stepMinting id) s result s') ∨
        ((∃ now, p.due w a now = false) ∧ result = .ok a ∧ s' = s) := by
  have reads (s : RotationState) (answer : Int) (s' : RotationState) :
      env.stepMinting id .now s answer s' ↔ True ∧ s' = s := by
    rw [true_and]
    rfl
  rw [Program.exec_bind]
  constructor
  · rintro ⟨decision, middle, decided, rest⟩
    obtain ⟨⟨now, -, rfl⟩, rfl⟩ := (shouldRotate_exec_iff reads ⟨0, trivial⟩).mp decided
    cases due : p.due w a now with
    | true =>
      rw [due] at rest
      exact .inl ⟨⟨now, due⟩, rest⟩
    | false =>
      rw [due] at rest
      obtain ⟨rfl, rfl⟩ := rest
      exact .inr ⟨⟨now, due⟩, rfl, rfl⟩
  · rintro (⟨⟨now, due⟩, rotated⟩ | ⟨⟨now, due⟩, rfl, rfl⟩)
    · exact ⟨true, s, (shouldRotate_exec_iff reads ⟨0, trivial⟩).mpr
        ⟨⟨now, trivial, due.symm⟩, rfl⟩,
        rotated⟩
    · exact ⟨false, s', (shouldRotate_exec_iff reads ⟨0, trivial⟩).mpr
        ⟨⟨now, trivial, due.symm⟩, rfl⟩, rfl, rfl⟩

/-- A call on a wallet with an active address fails as the rotation of such an address does. -/
theorem body_error_iff {walletID : UUID} {call : RotationCall} {err : Err}
    (found : s.store.wallets.get walletID = some w) (open_ : w.state ≠ .retired)
    (active : s.store.activeAddresses walletID ≠ []) :
    (p.body walletID call).Exec (env.stepMinting id) s (.error err) s' ↔
      ∃ a ∈ s.store.activeAddresses walletID, p.MayRotate w a call ∧
        (p.rotate w a).Exec (env.stepMinting id) s (.error err) s' := by
  cases call with
  | currentOrRotate =>
    unfold RotationPolicy.body RotationPolicy.currentOrRotate
    rw [getWallet_exec]
    simp only [Store.getWallet, found, Store.found, if_neg open_]
    constructor
    · intro execution
      obtain ⟨answer, middle, ⟨read, rfl⟩, rest⟩ := Program.exec_perform_bind.mp execution
      cases answer with
      | error err => exact absurd read.1 active
      | ok a =>
        rcases decision_exec.mp rest with ⟨due, rotated⟩ | ⟨-, kept, -⟩
        · exact ⟨a, read, .inr due, rotated⟩
        · cases kept
    · rintro ⟨a, member, forced | due, rotated⟩
      · cases forced
      · exact Program.exec_perform_bind.mpr
          ⟨.ok a, s, ⟨member, rfl⟩, decision_exec.mpr (.inl ⟨due, rotated⟩)⟩
  | forceRotate =>
    unfold RotationPolicy.body RotationPolicy.forceRotate
    rw [getWallet_exec]
    simp only [Store.getWallet, found, Store.found, if_neg open_]
    constructor
    · intro execution
      obtain ⟨answer, middle, ⟨read, rfl⟩, rest⟩ := Program.exec_perform_bind.mp execution
      cases answer with
      | error err => exact absurd read.1 active
      | ok a => exact ⟨a, read, .inl rfl, rest⟩
    · rintro ⟨a, member, -, rotated⟩
      exact Program.exec_perform_bind.mpr ⟨.ok a, s, ⟨member, rfl⟩, rotated⟩

/-- A call on a wallet with an active address that returns an error keeps all address rows exactly
if nothing can fail once the address is deprecated, for each address that may be rotated while the
lock can be granted. -/
theorem failed_rotation_keeps_iff (responds : env.Responds) (walletID : UUID) (call : RotationCall)
    (active : s.store.activeAddresses walletID ≠ []) :
    (∀ err s', (p.body walletID call).Exec (env.stepMinting id) s (.error err) s' →
        s'.store.addresses = s.store.addresses) ↔
      ∀ w, s.store.wallets.get walletID = some w → w.state ≠ .retired →
        ∀ a ∈ s.store.activeAddresses walletID, p.MayRotate w a call → env.Grants w s.locks →
          Derivable env p w id (s.store.deprecateAddress a.id).2 := by
  have there {a : Address} (member : a ∈ s.store.activeAddresses walletID) :
      (s.store.deprecateAddress a.id).1 = .ok () :=
    Store.deprecateAddress_ok (Store.mem_activeAddresses.mp member).1
  constructor
  · intro keeps w found open_ a member may granted
    by_contra underivable
    obtain ⟨err, s', rotated, old, now, state⟩ :=
      rotate_fails responds (there member) granted underivable
    have same := keeps err s' ((body_error_iff found open_ active).mpr ⟨a, member, may, rotated⟩)
    obtain ⟨before, -, live⟩ := Store.mem_activeAddresses.mp member
    -- the row that was active is the one that is deprecated now
    rw [same, before] at now
    cases now
    rw [live] at state
    cases state
  · intro derivable err s' execution
    by_cases refused : ∀ w, s.store.wallets.get walletID = some w → w.state = .retired
    · rw [body_refused refused execution]
    · push Not at refused
      obtain ⟨w, found, open_⟩ := refused
      obtain ⟨a, member, may, rotated⟩ := (body_error_iff found open_ active).mp execution
      have kept := (Program.wlp_iff_exec _ _ _).mp
        (rotate_kept (there member) (derivable w found open_ a member may)) _ s' rotated
      rcases kept with ⟨addr, succeeded⟩ | same
      · cases succeeded
      · rw [same]

end Rotating

/-- With a deriver that works, a forced rotation that fails keeps the rows. -/
theorem failed_rotation_keeps_sample :
    sampleRotations.state.store.activeAddresses sampleEVMWallet.id = [sampleAddress] ∧
      ∀ err s', (RotationPolicy.body { quote := id } sampleEVMWallet.id .forceRotate).Exec
          (sampleCollaborators.stepMinting (sampleID 21)) sampleRotations.state (.error err) s' →
        s'.store.addresses = sampleRotations.state.store.addresses := by
  have one : sampleRotations.state.store.activeAddresses sampleEVMWallet.id = [sampleAddress] := by
    decide +kernel
  have responds : sampleCollaborators.Responds :=
    ⟨fun _ _ _ _ _ => ⟨_, rfl⟩, fun _ _ locks => ⟨.ok (), locks, trivial⟩⟩
  refine ⟨one, (failed_rotation_keeps_iff responds sampleEVMWallet.id .forceRotate ?_).mpr ?_⟩
  · simp [one]
  · intro w found _ a member _ _
    have wallet : sampleRotations.state.store.wallets.get sampleEVMWallet.id =
      some sampleEVMWallet := by decide +kernel
    cases wallet.symm.trans found
    rw [one] at member
    cases List.mem_singleton.mp member
    refine ⟨.evm, by decide, ?_, by decide +kernel, ?_⟩
    · intro err failed
      cases failed
    · intro t after
      have same : t = (sampleRotations.state.store.deprecateAddress sampleAddress.id).2 := after
      rw [same]
      decide +kernel

/-- A scripted answer is an answer of the system whose `uuid.NewV7` answers as the script. -/
theorem RotationScript.handle_mints {script : RotationScript} {env : Collaborators}
    (plays : script.Plays env) (op : RotationOp) (s : RotationState) :
    env.stepMinting script.id op s (script.handle op s).1 (script.handle op s).2 := by
  have follows := RotationScript.handle_follows plays op s
  cases op with
  | newV7 => exact ⟨rfl, rfl⟩
  | _ => exact follows

/-- A wallet whose active address has the last index that can be derived. -/
def sampleLastIndex : RotationState where
  store := { sampleStart.store with
    addresses := Table.empty.put { sampleAddress with index := 0x7fffffff } }

/-- `MemLocker`, and an extended public key of which every address that can be derived is the
same. -/
def sampleExhausted : RotationScript :=
  { sampleLocking firstCaller with
    derive := fun deriver chain index change =>
      match deriver with
      | .evm => evmDeriveAt id ((nonHardened index).map fun _ => sampleEVMAddress)
        chain index change
      | deriver => sampleDerive deriver chain index change }

/-- A forced rotation past the last index fails, and leaves the wallet without an active
address. -/
theorem failed_rotation_deprecates :
    sampleLastIndex.store.activeAddresses sampleEVMWallet.id ≠ [] ∧
      ∃ s', (RotationPolicy.body { quote := id } sampleEVMWallet.id .forceRotate).Exec
          ((memCollaborators id).stepMinting (sampleID 21)) sampleLastIndex
          (.error ⟨"derive: derivation index 2147483648 out of non-hardened range", none⟩) s' ∧
        s'.store.activeAddresses sampleEVMWallet.id = [] ∧
        s'.store.addresses.rows.map (fun a => (a.id, a.state)) =
          [(sampleAddress.id, .deprecated)] := by
  have plays : sampleExhausted.Plays (memCollaborators id) := by
    have locking := sampleLocking_plays firstCaller
    refine ⟨locking.acquire, locking.release, fun deriver walletID chain index change => ?_⟩
    cases deriver with
    | evm => exact ⟨_, rfl⟩
    | btc | solana => exact locking.derive _ walletID chain index change
  have execution := Program.exec_run (RotationScript.handle_mints plays)
    (RotationPolicy.body { quote := id } sampleEVMWallet.id .forceRotate) sampleLastIndex
  have failed : ((RotationPolicy.body { quote := id } sampleEVMWallet.id .forceRotate).run
      sampleExhausted.handle sampleLastIndex).1 =
        .error ⟨"derive: derivation index 2147483648 out of non-hardened range", none⟩ := by
    decide +kernel
  rw [failed] at execution
  exact ⟨by decide +kernel, _, execution, by decide +kernel, by decide +kernel⟩

end WalletManagement
