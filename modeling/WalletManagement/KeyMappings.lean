import WalletManagement.System

/-!
# Key mappings

`internal/keymapping` over the methods of the store it calls. The service is written against an
interface, so it is stated for any implementation; `memstore` is one. A method that reads the clock
is given its reading. Over `memstore`, every wallet with a mapping has exactly one current one, and
no two mappings of a wallet have the same key, although no method checks the keys.
-/

namespace WalletManagement

open Go

/-! ## The service -/

/-- The methods of `storage.Store` for key mappings, over the state of an implementation. -/
structure KeyStore (σ : Type) where
  bindKeyMapping : Int → KeyMapping → σ → Except Err Unit × σ
  resolveActiveKey : UUID → σ → Except Err (List KeyMapping)
  rotateKeyMapping : Int → Int → UUID → String → Int → σ → Except Err Unit × σ
  expireCooling : Int → σ → Except Err Unit × σ

/-- The methods of `memstore`. -/
def memstoreKeys (order : SortSlice Store.activeBefore) : KeyStore Store where
  bindKeyMapping now m s := s.bindKeyMapping now m
  resolveActiveKey walletID s := s.resolveActiveKey order walletID
  rotateKeyMapping now _ walletID newKeyID cooling s :=
    s.rotateKeyMapping now walletID newKeyID cooling
  expireCooling now s := s.expireCooling now

/-- `keymapping.Service`: what the service is constructed with besides its store. -/
structure KeyService where
  /-- `Config.KeyCoolingPeriod`, in nanoseconds. -/
  coolingPeriod : Int
  /-- `time.Duration.String`. -/
  durationText : Int → String := Int.repr
  /-- `Audit` is not nil. -/
  audit : Bool := true

/-- The state of a store, and the events handed to the emitter, the last one first. -/
structure KeyWorld (σ : Type) where
  store : σ
  events : List AuditEvent := []

namespace KeyService

variable {σ : Type} (svc : KeyService) (db : KeyStore σ)

/-- `Bind`: the reading of the service, and the one of the store if it takes another. -/
def bind (now again : Int) (walletID : UUID) (keyID : String) (w : KeyWorld σ) :
    Except Err Unit × KeyWorld σ :=
  let (answer, store) := db.bindKeyMapping again ⟨walletID, keyID, now, none, .current, now⟩ w.store
  (answer, { w with store })

/-- The event of a rotation. -/
def rotated (walletID : UUID) (newKeyID : String) : AuditEvent :=
  ⟨"key.rotated", some walletID, [("new_key_id", .text newKeyID),
    ("cooling_period", .text (svc.durationText svc.coolingPeriod))]⟩

/-- `Rotate`: the readings of the store. -/
def rotate (now again : Int) (walletID : UUID) (newKeyID : String) (w : KeyWorld σ) :
    Except Err Unit × KeyWorld σ :=
  match db.rotateKeyMapping now again walletID newKeyID svc.coolingPeriod w.store with
  | (.error err, store) => (.error err, { w with store })
  | (.ok (), store) => (.ok (), { w with
      store
      events := if svc.audit then svc.rotated walletID newKeyID :: w.events else w.events })

/-- `Rotate` succeeds as the store does, and leaves the store as it does. -/
theorem rotate_store (now again : Int) (walletID : UUID) (newKeyID : String) (w : KeyWorld σ) :
    let written := db.rotateKeyMapping now again walletID newKeyID svc.coolingPeriod w.store
    (svc.rotate db now again walletID newKeyID w).1 = written.1 ∧
      (svc.rotate db now again walletID newKeyID w).2.store = written.2 := by
  unfold rotate
  split <;> simp_all

/-- `ResolveActive`. -/
def resolveActive (walletID : UUID) (w : KeyWorld σ) : Except Err (List KeyMapping) :=
  match db.resolveActiveKey walletID w.store with
  | .error err =>
    if err.is .errNoRows then .error (err.wrap ("no active key for wallet " ++ walletID.string))
    else .error err
  | .ok mappings => .ok mappings

/-- `ResolveActive` returns what the store does. -/
theorem resolveActive_eq_ok {walletID : UUID} {w : KeyWorld σ} {ms : List KeyMapping} :
    resolveActive db walletID w = .ok ms ↔ db.resolveActiveKey walletID w.store = .ok ms := by
  unfold resolveActive
  cases db.resolveActiveKey walletID w.store with
  | ok found => exact Iff.rfl
  | error err =>
    refine iff_of_false ?_ nofun
    dsimp only
    split <;> exact nofun

/-- `ResolveActiveKeyID`. -/
def resolveActiveKeyID (walletID : UUID) (w : KeyWorld σ) : Except Err String :=
  match resolveActive db walletID w with
  | .error err => .error err
  | .ok [] => .error ⟨"no active key for wallet " ++ walletID.string, none⟩
  | .ok (m :: _) => .ok m.keyID

/-- `ExpireCooling`. -/
def expireCooling (now : Int) (w : KeyWorld σ) : Except Err Unit × KeyWorld σ :=
  let (answer, store) := db.expireCooling now w.store
  (answer, { w with store })

end KeyService

/-- The calls that change mappings. -/
inductive KeyCall where
  | bind (walletID : UUID) (keyID : String)
  | rotate (walletID : UUID) (newKeyID : String)
  | expireCooling
  deriving DecidableEq

/-- A call to a service, with the readings of the clock. -/
structure TimedCall where
  svc : KeyService
  call : KeyCall
  now : Int
  /-- The second reading. `BindKeyMapping` of `memstore` takes it if the first one is the zero time,
  and `RotateKeyMapping` of the Postgres store takes it from the transaction. -/
  again : Int := now

section Runs

variable {σ : Type} (db : KeyStore σ)

/-- Make a call. -/
def TimedCall.perform (timed : TimedCall) (w : KeyWorld σ) : Except Err Unit × KeyWorld σ :=
  match timed.call with
  | .bind walletID keyID => KeyService.bind db timed.now timed.again walletID keyID w
  | .rotate walletID newKeyID => timed.svc.rotate db timed.now timed.again walletID newKeyID w
  | .expireCooling => KeyService.expireCooling db timed.now w

/-- The state after a sequence of calls. -/
def KeyWorld.after (w : KeyWorld σ) (calls : List TimedCall) : KeyWorld σ :=
  calls.foldl (fun w timed => (timed.perform db w).2) w

/-- The answers of a sequence of calls. -/
def KeyWorld.answers (w : KeyWorld σ) : List TimedCall → List (Except Err Unit)
  | [] => []
  | timed :: rest => (timed.perform db w).1 :: KeyWorld.answers (timed.perform db w).2 rest

/-- What every call keeps holds after every sequence of calls. -/
theorem KeyWorld.after_induction {inv : σ → Prop} {w : KeyWorld σ} (calls : List TimedCall)
    (initial : inv w.store)
    (kept : ∀ timed ∈ calls, ∀ w : KeyWorld σ, inv w.store → inv (timed.perform db w).2.store) :
    inv (w.after db calls).store := by
  induction calls generalizing w with
  | nil => exact initial
  | cons timed calls ih =>
    exact ih (kept timed List.mem_cons_self w initial) fun other member =>
      kept other (List.mem_cons_of_mem _ member)

end Runs

/-! ## The mappings of a wallet -/

namespace Store

variable (s : Store)

@[simp] theorem mappings_putMappings_self (walletID : UUID) (ms : List KeyMapping) :
    (s.putMappings walletID ms).mappings walletID = ms := by
  have found : (s.putMappings walletID ms).keyMappings.get walletID = some ⟨walletID, ms⟩ :=
    Data.Table.get_put_self s.keyMappings ⟨walletID, ms⟩
  rw [mappings, found]
  rfl

@[simp] theorem mappings_putMappings_of_ne {walletID other : UUID} (ms : List KeyMapping)
    (different : walletID ≠ other) :
    (s.putMappings walletID ms).mappings other = s.mappings other := by
  have found : (s.putMappings walletID ms).keyMappings.get other = s.keyMappings.get other :=
    Data.Table.get_put_of_ne s.keyMappings different
  rw [mappings, found, mappings]

@[simp] theorem mappings_expireCooling (now : Int) (walletID : UUID) :
    (s.expireCooling now).2.mappings walletID = (s.mappings walletID).map (expireKey now) := by
  simp only [mappings, expireCooling, Data.Table.get_mapRows]
  cases s.keyMappings.get walletID <;> rfl

theorem mappings_of_fresh {s : Store} (fresh : s.keyMappings = .empty) (walletID : UUID) :
    s.mappings walletID = [] := by
  rw [mappings, fresh]
  rfl

end Store

/-- What `memstore` keeps of the mappings of a wallet. -/
structure KeysOK (walletID : UUID) (ms : List KeyMapping) : Prop where
  /-- There is no mapping, or exactly one current one. -/
  one : ms ≠ [] → ∃ m, ms.filter (·.rotationState = .current) = [m]
  /-- No key is mapped twice. -/
  distinct : (ms.map KeyMapping.keyID).Nodup
  /-- A mapping that is not current has an end. -/
  ended : ∀ m ∈ ms, m.rotationState ≠ .current → m.activeTo.isSome
  /-- The current mapping has none. -/
  unended : ∀ m ∈ ms, m.rotationState = .current → m.activeTo = none
  /-- The mappings belong to the wallet. -/
  owned : ∀ m ∈ ms, m.walletID = walletID

section Keys

variable {walletID : UUID} {ms : List KeyMapping} {now activeTo : Int} {k : String}

/-- A wallet without mappings. -/
theorem KeysOK.nil : KeysOK walletID [] :=
  ⟨fun some => absurd rfl some, List.nodup_nil, nofun, nofun, nofun⟩

/-- Without a current mapping there is none. -/
theorem KeysOK.eq_nil (ok : KeysOK walletID ms)
    (unbound : ∀ m ∈ ms, m.rotationState ≠ .current) : ms = [] := by
  by_contra some
  obtain ⟨m, only⟩ := ok.one some
  have member : m ∈ ms.filter (·.rotationState = .current) := only ▸ List.mem_cons_self
  obtain ⟨there, current⟩ := List.mem_filter.mp member
  exact unbound m there (of_decide_eq_true current)

/-- Cooling and expiring keep the key and the wallet of a mapping. -/
@[simp] theorem coolKey_keyID (m : KeyMapping) : (Store.coolKey activeTo m).keyID = m.keyID := by
  unfold Store.coolKey
  split <;> rfl

@[simp] theorem coolKey_walletID (m : KeyMapping) :
    (Store.coolKey activeTo m).walletID = m.walletID := by
  unfold Store.coolKey
  split <;> rfl

@[simp] theorem coolKey_activeFrom (m : KeyMapping) :
    (Store.coolKey activeTo m).activeFrom = m.activeFrom := by
  unfold Store.coolKey
  split <;> rfl

@[simp] theorem expireKey_keyID (m : KeyMapping) : (Store.expireKey now m).keyID = m.keyID := by
  unfold Store.expireKey
  split <;> rfl

@[simp] theorem expireKey_activeFrom (m : KeyMapping) :
    (Store.expireKey now m).activeFrom = m.activeFrom := by
  unfold Store.expireKey
  split <;> rfl

/-- No mapping is current after cooling. -/
theorem coolKey_not_current (m : KeyMapping) :
    (Store.coolKey activeTo m).rotationState ≠ .current := by
  unfold Store.coolKey
  split
  · exact nofun
  · assumption

/-- A mapping that is not current stays as it is. -/
theorem coolKey_of_ne {m : KeyMapping} (other : m.rotationState ≠ .current) :
    Store.coolKey activeTo m = m := if_neg other

/-- A mapping that cools has an end. -/
theorem coolKey_ended {m : KeyMapping} (ended : m.rotationState ≠ .current → m.activeTo.isSome) :
    (Store.coolKey activeTo m).activeTo.isSome := by
  unfold Store.coolKey
  split
  · rfl
  · exact ended ‹_›

/-- Expiring changes only the state, and only of cooling mappings. -/
theorem expireKey_state (m : KeyMapping) :
    ((Store.expireKey now m).rotationState = .current ↔ m.rotationState = .current) ∧
      (Store.expireKey now m).activeTo = m.activeTo ∧
      (Store.expireKey now m).activeFrom = m.activeFrom ∧
      (Store.expireKey now m).walletID = m.walletID := by
  unfold Store.expireKey
  split
  · rename_i expired
    have cooling : m.rotationState = .cooling := by
      simp only [Bool.and_eq_true, decide_eq_true_eq] at expired
      exact expired.1
    simp [cooling]
  · simp

/-- What the second loop of a rotation makes of mappings none of which is current: the mappings of
other keys stay, and the one of the new key is current. -/
theorem mem_activateKey {m : KeyMapping} (distinct : (ms.map KeyMapping.keyID).Nodup) :
    m ∈ Store.activateKey now walletID k ms ↔ (m ∈ ms ∧ m.keyID ≠ k) ∨
      (∃ old ∈ ms, old.keyID = k ∧
        m = { old with rotationState := .current, activeTo := none, activeFrom := now }) ∨
      ((∀ old ∈ ms, old.keyID ≠ k) ∧ m = ⟨walletID, k, now, none, .current, now⟩) := by
  induction ms with
  | nil => simp [Store.activateKey]
  | cons head rest ih =>
    obtain ⟨fresh, distinct⟩ := List.nodup_cons.mp distinct
    by_cases here : head.keyID = k
    · have others (m : KeyMapping) (member : m ∈ rest) : m.keyID ≠ k := fun same =>
        fresh (List.mem_map.mpr ⟨m, member, same.trans here.symm⟩)
      simp only [Store.activateKey, if_pos here, List.mem_cons]
      constructor
      · rintro (rfl | member)
        · exact .inr (.inl ⟨head, .inl rfl, here, rfl⟩)
        · exact .inl ⟨.inr member, others m member⟩
      · rintro (⟨rfl | member, other⟩ | ⟨old, rfl | member, same, rfl⟩ | ⟨absent, -⟩)
        · exact absurd here other
        · exact .inr member
        · exact .inl rfl
        · exact absurd same (others old member)
        · exact absurd here (absent head (.inl rfl))
    · simp only [Store.activateKey, if_neg here, List.mem_cons, ih distinct]
      constructor
      · rintro (rfl | ⟨member, other⟩ | ⟨old, member, same, rfl⟩ | ⟨absent, rfl⟩)
        · exact .inl ⟨.inl rfl, here⟩
        · exact .inl ⟨.inr member, other⟩
        · exact .inr (.inl ⟨old, .inr member, same, rfl⟩)
        · refine .inr (.inr ⟨fun old => ?_, rfl⟩)
          rintro (rfl | member)
          exacts [here, absent old member]
      · rintro (⟨rfl | member, other⟩ | ⟨old, rfl | member, same, rfl⟩ | ⟨absent, rfl⟩)
        · exact .inl rfl
        · exact .inr (.inl ⟨member, other⟩)
        · exact absurd same here
        · exact .inr (.inr (.inl ⟨old, member, same, rfl⟩))
        · exact .inr (.inr (.inr ⟨fun old member => absent old (.inr member), rfl⟩))

/-- The keys after the second loop: the new one is added when it is not there. -/
theorem activateKey_keyIDs (ms : List KeyMapping) :
    (Store.activateKey now walletID k ms).map KeyMapping.keyID =
      if k ∈ ms.map KeyMapping.keyID then ms.map KeyMapping.keyID
      else ms.map KeyMapping.keyID ++ [k] := by
  induction ms with
  | nil => rfl
  | cons head rest ih =>
    by_cases here : head.keyID = k
    · simp [Store.activateKey, here]
    · simp only [Store.activateKey, if_neg here, List.map_cons, ih, List.mem_cons, Ne.symm here,
        false_or]
      split <;> rfl

/-- The second loop adds no key twice. -/
theorem activateKey_nodup (distinct : (ms.map KeyMapping.keyID).Nodup) :
    ((Store.activateKey now walletID k ms).map KeyMapping.keyID).Nodup := by
  rw [activateKey_keyIDs]
  split
  · exact distinct
  · rename_i absent
    refine List.nodup_append.mpr ⟨distinct, List.nodup_singleton k, fun key member other same => ?_⟩
    rw [List.mem_singleton.mp same] at *
    rintro rfl
    exact absent member

/-- The second loop leaves one current mapping, of the new key. -/
theorem activateKey_current (cooled : ∀ m ∈ ms, m.rotationState ≠ .current) :
    ∃ m, (Store.activateKey now walletID k ms).filter (·.rotationState = .current) = [m] ∧
      m.keyID = k := by
  induction ms with
  | nil => exact ⟨_, rfl, rfl⟩
  | cons head rest ih =>
    have others : ∀ m ∈ rest, m.rotationState ≠ .current := fun m member =>
      cooled m (List.mem_cons_of_mem _ member)
    by_cases here : head.keyID = k
    · refine ⟨{ head with rotationState := .current, activeTo := none, activeFrom := now },
        ?_, here⟩
      rw [Store.activateKey, if_pos here, List.filter_cons_of_pos (by simp),
        List.filter_eq_nil_iff.mpr fun m member => by simpa using others m member]
    · obtain ⟨m, only, key⟩ := ih others
      refine ⟨m, ?_, key⟩
      rw [Store.activateKey, if_neg here, List.filter_cons_of_neg, only]
      simpa using cooled head List.mem_cons_self

/-- The first loop keeps the keys. -/
theorem map_coolKey_keyIDs (ms : List KeyMapping) :
    (ms.map (Store.coolKey activeTo)).map KeyMapping.keyID = ms.map KeyMapping.keyID := by
  rw [List.map_map]
  exact List.map_congr_left fun m _ => coolKey_keyID m

/-- The mappings of a wallet after a rotation. -/
theorem mem_rotated {m : KeyMapping} (distinct : (ms.map KeyMapping.keyID).Nodup) :
    m ∈ Store.activateKey now walletID k (ms.map (Store.coolKey activeTo)) ↔
      (∃ old ∈ ms, old.keyID ≠ k ∧ m = Store.coolKey activeTo old) ∨
      (∃ old ∈ ms, old.keyID = k ∧ m = { Store.coolKey activeTo old with
        rotationState := .current, activeTo := none, activeFrom := now }) ∨
      ((∀ old ∈ ms, old.keyID ≠ k) ∧ m = ⟨walletID, k, now, none, .current, now⟩) := by
  rw [mem_activateKey (by rwa [map_coolKey_keyIDs])]
  simp only [List.mem_map, exists_exists_and_eq_and, forall_exists_index, and_imp,
    forall_apply_eq_imp_iff₂, coolKey_keyID]
  constructor
  · rintro (⟨⟨old, member, rfl⟩, other⟩ | rest)
    · exact .inl ⟨old, member, by simpa using other, rfl⟩
    · exact .inr rest
  · rintro (⟨old, member, other, rfl⟩ | rest)
    · exact .inl ⟨⟨old, member, rfl⟩, by simpa using other⟩
    · exact .inr rest

/-- A mapping of a rotated wallet is the one of the new key or was there before. -/
theorem rotated_origin {m : KeyMapping} (distinct : (ms.map KeyMapping.keyID).Nodup)
    (member : m ∈ Store.activateKey now walletID k (ms.map (Store.coolKey activeTo))) :
    (m.keyID = k ∧ m.activeFrom = now ∧ m.rotationState = .current) ∨
      ∃ old ∈ ms, m = Store.coolKey activeTo old := by
  rcases (mem_rotated distinct).mp member with
    ⟨old, there, -, rfl⟩ | ⟨old, -, key, rfl⟩ | ⟨-, rfl⟩
  · exact .inr ⟨old, there, rfl⟩
  · exact .inl ⟨(coolKey_keyID old).trans key, rfl, rfl⟩
  · exact .inl ⟨rfl, rfl, rfl⟩

/-- A rotation keeps the mappings of its wallet in order. -/
theorem KeysOK.rotate (ok : KeysOK walletID ms) :
    KeysOK walletID (Store.activateKey now walletID k (ms.map (Store.coolKey activeTo))) where
  one _ := by
    obtain ⟨m, only, -⟩ := @activateKey_current walletID (ms.map (Store.coolKey activeTo)) now k
      fun m member => by
        obtain ⟨old, -, rfl⟩ := List.mem_map.mp member
        exact coolKey_not_current old
    exact ⟨m, only⟩
  distinct := activateKey_nodup (by rw [map_coolKey_keyIDs]; exact ok.distinct)
  ended m member other := by
    rcases (mem_rotated ok.distinct).mp member with
      ⟨old, there, -, rfl⟩ | ⟨old, -, -, rfl⟩ | ⟨-, rfl⟩
    · exact coolKey_ended (ok.ended old there)
    · exact absurd rfl other
    · exact absurd rfl other
  unended m member current := by
    rcases (mem_rotated ok.distinct).mp member with
      ⟨old, -, -, rfl⟩ | ⟨old, -, -, rfl⟩ | ⟨-, rfl⟩
    · exact absurd current (coolKey_not_current old)
    · rfl
    · rfl
  owned m member := by
    rcases (mem_rotated ok.distinct).mp member with
      ⟨old, there, -, rfl⟩ | ⟨old, there, -, rfl⟩ | ⟨-, rfl⟩
    · rw [coolKey_walletID, ok.owned old there]
    · exact (coolKey_walletID old).trans (ok.owned old there)
    · rfl

/-- A sweep keeps the mappings of a wallet in order. -/
theorem KeysOK.expire (ok : KeysOK walletID ms) :
    KeysOK walletID (ms.map (Store.expireKey now)) where
  one some := by
    obtain ⟨m, only⟩ := ok.one fun empty => some (by rw [empty, List.map_nil])
    refine ⟨Store.expireKey now m, ?_⟩
    have same : ((fun m : KeyMapping => decide (m.rotationState = .current)) ∘
        Store.expireKey now) =
        fun m => decide (m.rotationState = .current) := by
      funext m
      simp [(expireKey_state m).1]
    rw [List.filter_map, same, only, List.map_singleton]
  distinct := by
    rw [List.map_map, show KeyMapping.keyID ∘ Store.expireKey now = KeyMapping.keyID from
      funext expireKey_keyID]
    exact ok.distinct
  ended m member other := by
    obtain ⟨old, there, rfl⟩ := List.mem_map.mp member
    obtain ⟨state, activeTo, -, -⟩ := @expireKey_state now old
    rw [activeTo]
    exact ok.ended old there fun current => other (state.mpr current)
  unended m member current := by
    obtain ⟨old, there, rfl⟩ := List.mem_map.mp member
    obtain ⟨state, activeTo, -, -⟩ := @expireKey_state now old
    rw [activeTo]
    exact ok.unended old there (state.mp current)
  owned m member := by
    obtain ⟨old, there, rfl⟩ := List.mem_map.mp member
    rw [(expireKey_state old).2.2.2]
    exact ok.owned old there

/-- The first mapping of a wallet. -/
theorem KeysOK.first {m : KeyMapping} (wallet : m.walletID = walletID)
    (current : m.rotationState = .current) (unended : m.activeTo = none) : KeysOK walletID [m] where
  one _ := ⟨m, by simp [current]⟩
  distinct := List.nodup_singleton _
  ended _ member other := by
    rw [List.mem_singleton.mp member] at other
    exact absurd current other
  unended _ member _ := by rwa [List.mem_singleton.mp member]
  owned _ member := by rwa [List.mem_singleton.mp member]

end Keys

/-! ## Runs over `memstore` -/

section Memstore

variable {order : SortSlice Store.activeBefore} {w : KeyWorld Store}

/-- The mappings of every wallet are in order. -/
def Store.KeysOK (s : Store) : Prop :=
  ∀ walletID, WalletManagement.KeysOK walletID (s.mappings walletID)

theorem Store.KeysOK.of_fresh {s : Store} (fresh : s.keyMappings = .empty) : s.KeysOK :=
  fun walletID => Store.mappings_of_fresh fresh walletID ▸ .nil

/-- The mapping that `Bind` stores. -/
def boundKey (now again : Int) (walletID : UUID) (keyID : String) : KeyMapping :=
  let time := if now = 0 then again else now
  ⟨walletID, keyID, time, none, .current, time⟩

/-- A wallet has a current mapping when it has any. -/
theorem any_current {s : Store} (ok : s.KeysOK) (walletID : UUID) :
    ((s.mappings walletID).any fun ex => ex.rotationState = .current) =
      decide (s.mappings walletID ≠ []) := by
  rw [Bool.eq_iff_iff, List.any_eq_true, decide_eq_true_iff]
  constructor
  · rintro ⟨m, member, -⟩ empty
    rw [empty] at member
    cases member
  · intro some
    by_contra unbound
    refine some ((ok walletID).eq_nil fun m member current => unbound ⟨m, member, ?_⟩)
    exact decide_eq_true current

/-- A current mapping is bound to a wallet without mappings, and refused for one with mappings. -/
theorem bindKeyMapping_current {s : Store} (ok : s.KeysOK) (now again : Int) (walletID : UUID)
    (keyID : String) :
    s.bindKeyMapping again ⟨walletID, keyID, now, none, .current, now⟩ =
      if s.mappings walletID = [] then
        (.ok (), s.putMappings walletID [boundKey now again walletID keyID])
      else (.error ⟨"current key mapping already exists", none⟩, s) := by
  have bound := any_current ok walletID
  simp only [Store.bindKeyMapping, decide_true, Bool.and_true, bound]
  by_cases empty : s.mappings walletID = []
  · simp [empty, boundKey]
  · simp [empty]

/-- The mappings of the wallets after `Rotate`. -/
theorem rotate_memstore (svc : KeyService) (now again : Int) (walletID : UUID) (k : String) :
    (svc.rotate (memstoreKeys order) now again walletID k w).1 = .ok () ∧
      (svc.rotate (memstoreKeys order) now again walletID k w).2.store =
        w.store.putMappings walletID (Store.activateKey now walletID k
          ((w.store.mappings walletID).map (Store.coolKey (now + svc.coolingPeriod)))) := ⟨rfl, rfl⟩

/-- What a call makes of the mappings of a wallet. -/
inductive KeysMove (timed : TimedCall) (walletID : UUID) :
    List KeyMapping → List KeyMapping → Prop where
  | kept {ms : List KeyMapping} : KeysMove timed walletID ms ms
  | bound {keyID : String} :
    KeysMove timed walletID [] [boundKey timed.now timed.again walletID keyID]
  | rotated {ms : List KeyMapping} {k : String} : KeysMove timed walletID ms
      (Store.activateKey timed.now walletID k
        (ms.map (Store.coolKey (timed.now + timed.svc.coolingPeriod))))
  | expired {ms : List KeyMapping} : KeysMove timed walletID ms (ms.map (Store.expireKey timed.now))

/-- Every call makes one of these moves for every wallet. -/
theorem perform_keysMove (timed : TimedCall) (ok : w.store.KeysOK) (other : UUID) :
    KeysMove timed other (w.store.mappings other)
      ((timed.perform (memstoreKeys order) w).2.store.mappings other) := by
  unfold TimedCall.perform
  cases timed.call with
  | bind walletID keyID =>
    show KeysMove timed other _ ((w.store.bindKeyMapping timed.again
      ⟨walletID, keyID, timed.now, none, .current, timed.now⟩).2.mappings other)
    rw [bindKeyMapping_current ok]
    split
    · rename_i empty
      by_cases same : walletID = other
      · subst same
        rw [Store.mappings_putMappings_self, empty]
        exact .bound
      · rw [Store.mappings_putMappings_of_ne _ _ same]
        exact .kept
    · exact .kept
  | rotate walletID newKeyID =>
    dsimp only
    rw [(rotate_memstore ..).2]
    by_cases same : walletID = other
    · subst same
      rw [Store.mappings_putMappings_self]
      exact .rotated
    · rw [Store.mappings_putMappings_of_ne _ _ same]
      exact .kept
  | expireCooling =>
    show KeysMove timed other _ ((w.store.expireCooling timed.now).2.mappings other)
    rw [Store.mappings_expireCooling]
    exact .expired

/-- Every move keeps the mappings of a wallet in order. -/
theorem KeysOK.move {timed : TimedCall} {walletID : UUID} {ms ms' : List KeyMapping}
    (ok : KeysOK walletID ms) (move : KeysMove timed walletID ms ms') : KeysOK walletID ms' := by
  cases move with
  | kept => exact ok
  | bound => exact .first rfl rfl rfl
  | rotated => exact ok.rotate
  | expired => exact ok.expire

/-- Every call keeps the mappings of every wallet in order. -/
theorem perform_keysOK (timed : TimedCall) (ok : w.store.KeysOK) :
    (timed.perform (memstoreKeys order) w).2.store.KeysOK := fun walletID =>
  (ok walletID).move (perform_keysMove timed ok walletID)

/-- The mappings of every wallet are in order after every sequence of calls. -/
theorem after_keysOK (fresh : w.store.keyMappings = .empty) (calls : List TimedCall) :
    (w.after (memstoreKeys order) calls).store.KeysOK := by
  exact KeyWorld.after_induction _ calls (.of_fresh fresh) fun timed _ w ok =>
    perform_keysOK timed ok

/-- After every sequence of `Bind`, `Rotate` and `ExpireCooling` calls, with any wallets, keys,
cooling periods and readings of the clock, the mappings of every wallet are in order. And `Rotate`
at a time makes its key the current one, turns a current mapping of another key into a cooling one
that ends after the cooling period, keeps every other mapping of other keys, adds none, and leaves
the other wallets alone. -/
theorem key_mapping_invariant (fresh : w.store.keyMappings = .empty) (calls : List TimedCall) :
    (∀ walletID, KeysOK walletID ((w.after (memstoreKeys order) calls).store.mappings walletID)) ∧
      ∀ (svc : KeyService) (walletID : UUID) (k : String) (t again : Int),
        let before := (w.after (memstoreKeys order) calls).store.mappings
        let after := (svc.rotate (memstoreKeys order) t again walletID k
          (w.after (memstoreKeys order) calls)).2.store.mappings
        KeysOK walletID (after walletID) ∧
        (∃ m ∈ after walletID, m.keyID = k ∧ m.rotationState = .current) ∧
        (∀ m, m.keyID ≠ k → (m ∈ after walletID ↔
          (∃ old ∈ before walletID, old.rotationState = .current ∧ m = { old with
            rotationState := .cooling, activeTo := some (t + svc.coolingPeriod) }) ∨
          (m ∈ before walletID ∧ m.rotationState ≠ .current))) ∧
        ∀ other ≠ walletID, after other = before other := by
  have ok : (w.after (memstoreKeys order) calls).store.KeysOK := after_keysOK fresh calls
  refine ⟨ok, fun svc walletID k t again => ?_⟩
  intro before after
  have rotated : after walletID = Store.activateKey t walletID k
      ((before walletID).map (Store.coolKey (t + svc.coolingPeriod))) :=
    Store.mappings_putMappings_self ..
  rw [rotated]
  refine ⟨(ok walletID).rotate, ?_, fun m other => ?_, fun other different =>
    Store.mappings_putMappings_of_ne _ _ (Ne.symm different)⟩
  · obtain ⟨m, only, key⟩ := @activateKey_current walletID
      ((before walletID).map (Store.coolKey (t + svc.coolingPeriod))) t k fun m member => by
        obtain ⟨old, -, rfl⟩ := List.mem_map.mp member
        exact coolKey_not_current old
    have member := List.mem_filter.mp (only ▸ List.mem_cons_self : m ∈ List.filter _ _)
    exact ⟨m, member.1, key, of_decide_eq_true member.2⟩
  · rw [mem_rotated (ok walletID).distinct]
    constructor
    · rintro (⟨old, member, -, rfl⟩ | ⟨old, -, key, rfl⟩ | ⟨-, rfl⟩)
      · by_cases current : old.rotationState = .current
        · exact .inl ⟨old, member, current, if_pos current⟩
        · rw [coolKey_of_ne current]
          exact .inr ⟨member, current⟩
      · exact absurd ((coolKey_keyID old).trans key) other
      · exact absurd rfl other
    · rintro (⟨old, member, current, rfl⟩ | ⟨member, current⟩)
      · exact .inl ⟨old, member, other, (if_pos current).symm⟩
      · exact .inl ⟨m, member, other, (coolKey_of_ne current).symm⟩

end Memstore

/-- The wallet of the worked histories. -/
def sampleKeyWallet : UUID := ⟨Vector.replicate 16 0⟩

/-- The state after a history, from a fresh `memstore`. -/
def keyHistory (calls : List TimedCall) : KeyWorld Store :=
  KeyWorld.after (memstoreKeys (.stable _)) ⟨{}, []⟩ calls

/-- A call to a service with a cooling period of five, at a time. -/
def sampleCall (call : KeyCall) (now : Int) : TimedCall := ⟨⟨5, Int.repr, true⟩, call, now, now⟩

/-- The wallet is bound to one key and rotated to another one. -/
def sampleRotation : List TimedCall :=
  [sampleCall (.bind sampleKeyWallet "a") 1, sampleCall (.rotate sampleKeyWallet "b") 10]

/-- After a rotation back the first key is the current one, and the second one cools. -/
theorem key_mapping_invariant_rotated_back :
    KeysOK sampleKeyWallet ((keyHistory (sampleRotation ++
      [sampleCall (.rotate sampleKeyWallet "a") 20])).store.mappings sampleKeyWallet) ∧
      ((keyHistory (sampleRotation ++
        [sampleCall (.rotate sampleKeyWallet "a") 20])).store.mappings sampleKeyWallet).map
          (fun m => (m.keyID, m.rotationState, m.activeTo)) =
        [("a", .current, none), ("b", .cooling, some 25)] :=
  ⟨(key_mapping_invariant rfl _).1 _, by decide +kernel⟩

/-! ## Clocks that advance -/

/-- The readings of a clock that has passed the zero time and advances from call to call. -/
structure Ticking (calls : List TimedCall) : Prop where
  /-- No call is made at the zero time. -/
  passed : ∀ timed ∈ calls, timed.now ≠ 0
  /-- The second reading of a call is not before the first one. -/
  within : ∀ timed ∈ calls, timed.now ≤ timed.again
  /-- Later calls are made after both. -/
  advances : calls.Pairwise (·.again < ·.now)

/-- The calls after the first one. -/
theorem Ticking.tail {timed : TimedCall} {calls : List TimedCall}
    (ticking : Ticking (timed :: calls)) :
    Ticking calls where
  passed next member := ticking.passed next (List.mem_cons_of_mem _ member)
  within next member := ticking.within next (List.mem_cons_of_mem _ member)
  advances := (List.pairwise_cons.mp ticking.advances).2

/-- The first call is the earliest one. -/
theorem Ticking.head_lt {timed next : TimedCall} {calls : List TimedCall}
    (ticking : Ticking (timed :: calls)) (member : next ∈ calls) : timed.now < next.now :=
  (ticking.within timed List.mem_cons_self).trans_lt
    ((List.pairwise_cons.mp ticking.advances).1 next member)

/-- All calls are made after some time. -/
theorem Ticking.exists_start {calls : List TimedCall} (ticking : Ticking calls) :
    ∃ start, ∀ timed ∈ calls, start < timed.now := by
  cases calls with
  | nil => exact ⟨0, nofun⟩
  | cons first rest =>
    refine ⟨first.now - 1, fun timed member => ?_⟩
    rcases List.mem_cons.mp member with rfl | later
    · omega
    · have := ticking.head_lt later
      omega

/-- What the activation times of a wallet keep: none is after the last call, and no two are the
same. -/
structure KeysTimed (last : Int) (ms : List KeyMapping) : Prop where
  before : ∀ m ∈ ms, m.activeFrom ≤ last
  times : ∀ m ∈ ms, ∀ m' ∈ ms, m.activeFrom = m'.activeFrom → m = m'

/-- What one cooling period keeps besides: the current mapping was activated last, and a mapping
starts to cool after it was activated, and before any later one is activated. -/
structure KeysPaced (period last : Int) (ms : List KeyMapping) : Prop
    extends KeysTimed last ms where
  latest : ∀ m ∈ ms, m.rotationState = .current → ∀ m' ∈ ms, m'.activeFrom ≤ m.activeFrom
  cooled : ∀ m ∈ ms, m.rotationState = .cooling → ∀ activeTo, m.activeTo = some activeTo →
    m.activeFrom + period < activeTo ∧ activeTo ≤ last + period ∧
      ∀ m' ∈ ms, m.activeFrom < m'.activeFrom → activeTo ≤ m'.activeFrom + period

section Timed

variable {walletID : UUID} {ms ms' : List KeyMapping} {last now activeTo period : Int} {k : String}

theorem KeysTimed.nil : KeysTimed last [] := ⟨nofun, nofun⟩

theorem KeysPaced.nil : KeysPaced period last [] := ⟨.nil, nofun, nofun⟩

/-- Time passes. -/
theorem KeysTimed.later (timed : KeysTimed last ms) (passes : last < now) : KeysTimed now ms :=
  ⟨fun m member => (timed.before m member).trans passes.le, timed.times⟩

theorem KeysPaced.later (paced : KeysPaced period last ms) (passes : last < now) :
    KeysPaced period now ms where
  toKeysTimed := paced.toKeysTimed.later passes
  latest := paced.latest
  cooled m member cooling activeTo ends := by
    obtain ⟨long, ended, others⟩ := paced.cooled m member cooling activeTo ends
    exact ⟨long, by omega, others⟩

/-- One mapping. -/
theorem KeysTimed.first {m : KeyMapping} (activated : m.activeFrom ≤ now) : KeysTimed now [m] where
  before m' member := by rwa [List.mem_singleton.mp member]
  times m' member m'' member' _ := by
    rw [List.mem_singleton.mp member, List.mem_singleton.mp member']

/-- A rotation activates a mapping later than all others. -/
theorem KeysTimed.rotate (timed : KeysTimed last ms) (ok : KeysOK walletID ms)
    (passes : last < now) :
    KeysTimed now (Store.activateKey now walletID k (ms.map (Store.coolKey activeTo))) where
  before m member := by
    rcases rotated_origin ok.distinct member with ⟨-, activated, -⟩ | ⟨old, there, rfl⟩
    · exact activated.le
    · rw [coolKey_activeFrom]
      exact (timed.before old there).trans passes.le
  times m member m' member' same := by
    rcases rotated_origin ok.distinct member with ⟨key, activated, -⟩ | ⟨old, there, rfl⟩ <;>
      rcases rotated_origin ok.distinct member' with ⟨key', activated', -⟩ | ⟨old', there', rfl⟩
    · -- two mappings of one key
      exact List.inj_on_of_nodup_map ok.rotate.distinct member member' (key.trans key'.symm)
    · have := timed.before old' there'
      rw [coolKey_activeFrom] at same
      omega
    · have := timed.before old there
      rw [coolKey_activeFrom] at same
      omega
    · rw [coolKey_activeFrom, coolKey_activeFrom] at same
      rw [timed.times old there old' there' same]

/-- A rotation with the period. -/
theorem KeysPaced.rotate (paced : KeysPaced period last ms) (ok : KeysOK walletID ms)
    (passes : last < now) : KeysPaced period now
      (Store.activateKey now walletID k (ms.map (Store.coolKey (now + period)))) where
  toKeysTimed := paced.toKeysTimed.rotate ok passes
  latest m member current m' member' := by
    rcases rotated_origin ok.distinct member with ⟨-, activated, -⟩ | ⟨old, there, rfl⟩
    · rw [activated]
      exact (paced.toKeysTimed.rotate ok passes).before m' member'
    · exact absurd current (coolKey_not_current old)
  cooled m member cooling activeTo ends := by
    rcases rotated_origin ok.distinct member with ⟨-, -, current⟩ | ⟨old, there, rfl⟩
    · rw [current] at cooling
      cases cooling
    have activated := paced.before old there
    rw [coolKey_activeFrom]
    by_cases current : old.rotationState = .current
    · -- the mapping that was current cools from now on, and only the new one is later
      have ended : activeTo = now + period := by
        rw [Store.coolKey, if_pos current] at ends
        exact (Option.some.inj ends).symm
      refine ⟨by omega, by omega, fun m' member' later => ?_⟩
      rcases rotated_origin ok.distinct member' with ⟨-, activated', -⟩ | ⟨old', there', rfl⟩
      · omega
      · rw [coolKey_activeFrom] at later
        have := paced.latest old there current old' there'
        omega
    · rw [coolKey_of_ne current] at cooling ends
      obtain ⟨long, ended, others⟩ := paced.cooled old there cooling activeTo ends
      refine ⟨long, by omega, fun m' member' later => ?_⟩
      rcases rotated_origin ok.distinct member' with ⟨-, activated', -⟩ | ⟨old', there', rfl⟩
      · omega
      · rw [coolKey_activeFrom] at later ⊢
        exact others old' there' later

/-- A sweep changes no time. -/
theorem KeysTimed.expire (timed : KeysTimed last ms) (passes : last < now) :
    KeysTimed now (ms.map (Store.expireKey now)) where
  before m member := by
    obtain ⟨old, there, rfl⟩ := List.mem_map.mp member
    rw [expireKey_activeFrom]
    exact (timed.before old there).trans passes.le
  times m member m' member' same := by
    obtain ⟨old, there, rfl⟩ := List.mem_map.mp member
    obtain ⟨old', there', rfl⟩ := List.mem_map.mp member'
    rw [expireKey_activeFrom, expireKey_activeFrom] at same
    rw [timed.times old there old' there' same]

theorem KeysPaced.expire (paced : KeysPaced period last ms) (passes : last < now) :
    KeysPaced period now (ms.map (Store.expireKey now)) where
  toKeysTimed := paced.toKeysTimed.expire passes
  latest m member current m' member' := by
    obtain ⟨old, there, rfl⟩ := List.mem_map.mp member
    obtain ⟨old', there', rfl⟩ := List.mem_map.mp member'
    rw [expireKey_activeFrom, expireKey_activeFrom]
    exact paced.latest old there ((expireKey_state old).1.mp current) old' there'
  cooled m member cooling activeTo ends := by
    obtain ⟨old, there, rfl⟩ := List.mem_map.mp member
    rw [(expireKey_state old).2.1] at ends
    have before : old.rotationState = .cooling := by
      unfold Store.expireKey at cooling
      split at cooling
      · cases cooling
      · exact cooling
    obtain ⟨long, ended, others⟩ := paced.cooled old there before activeTo ends
    rw [expireKey_activeFrom]
    refine ⟨long, by omega, fun m' member' later => ?_⟩
    obtain ⟨old', there', rfl⟩ := List.mem_map.mp member'
    rw [expireKey_activeFrom] at later ⊢
    exact others old' there' later

/-- Every call at a later time keeps the activation times in order. -/
theorem KeysTimed.move {call : TimedCall} (timed : KeysTimed last ms) (ok : KeysOK walletID ms)
    (passed : call.now ≠ 0) (passes : last < call.now) (move : KeysMove call walletID ms ms') :
    KeysTimed call.now ms' := by
  cases move with
  | kept => exact timed.later passes
  | bound => exact .first (by simp [boundKey, passed])
  | rotated => exact timed.rotate ok passes
  | expired => exact timed.expire passes

/-- Every call with the period at a later time. -/
theorem KeysPaced.move {call : TimedCall} (paced : KeysPaced period last ms)
    (ok : KeysOK walletID ms)
    (passed : call.now ≠ 0) (passes : last < call.now) (one : call.svc.coolingPeriod = period)
    (move : KeysMove call walletID ms ms') : KeysPaced period call.now ms' := by
  cases move with
  | kept => exact paced.later passes
  | bound =>
    refine ⟨.first (by simp [boundKey, passed]), ?_, ?_⟩
    · intro m member _ m' member'
      rw [List.mem_singleton.mp member, List.mem_singleton.mp member']
    · intro m member cooling
      rw [List.mem_singleton.mp member] at cooling
      cases cooling
  | rotated =>
    rw [one]
    exact paced.rotate ok passes
  | expired => exact paced.expire passes

end Timed

section Ticks

variable {order : SortSlice Store.activeBefore} {w : KeyWorld Store} {calls : List TimedCall}

/-- What every call at a later time keeps of the mappings of a wallet holds, from a fresh store on,
after every sequence of calls on a clock that advances. -/
theorem after_ticking {inv : Int → List KeyMapping → Prop} (fresh : w.store.keyMappings = .empty)
    (ticking : Ticking calls) (walletID : UUID) (initial : ∀ last, inv last [])
    (kept : ∀ timed ∈ calls, ∀ last ms ms', timed.now ≠ 0 → last < timed.now → KeysOK walletID ms →
      KeysMove timed walletID ms ms' → inv last ms → inv timed.now ms') :
    ∃ last, inv last ((w.after (memstoreKeys order) calls).store.mappings walletID) := by
  have ok : w.store.KeysOK := .of_fresh fresh
  obtain ⟨start, early⟩ := ticking.exists_start
  have here : inv start (w.store.mappings walletID) :=
    Store.mappings_of_fresh fresh walletID ▸ initial start
  clear fresh initial
  induction calls generalizing w start with
  | nil => exact ⟨start, here⟩
  | cons timed calls ih =>
    rw [List.forall_mem_cons] at kept
    refine ih ticking.tail kept.2 (perform_keysOK timed ok) timed.now
      (fun next member => ticking.head_lt member) ?_
    exact kept.1 start _ _ (ticking.passed timed List.mem_cons_self)
      (early timed List.mem_cons_self) (ok walletID) (perform_keysMove timed ok walletID) here

/-- Calls on a clock that advances leave different activation times. -/
theorem after_keysTimed (fresh : w.store.keyMappings = .empty) (ticking : Ticking calls)
    (walletID : UUID) :
    ∃ last, KeysTimed last ((w.after (memstoreKeys order) calls).store.mappings walletID) :=
  after_ticking fresh ticking walletID (fun _ => .nil)
    fun _ _ _ _ _ passed passes ok move timed => timed.move ok passed passes move

/-- Calls with one cooling period on a clock that advances. -/
theorem after_keysPaced {period : Int} (fresh : w.store.keyMappings = .empty)
    (ticking : Ticking calls) (one : ∀ timed ∈ calls, timed.svc.coolingPeriod = period)
    (walletID : UUID) :
    ∃ last, KeysPaced period last ((w.after (memstoreKeys order) calls).store.mappings walletID) :=
  after_ticking fresh ticking walletID (fun _ => .nil)
    fun timed member _ _ _ passed passes ok move paced =>
      paced.move ok passed passes (one timed member) move

end Ticks

/-! ## The key that signs -/

/-- At a time, the mapping is current, or it is cooling and has not ended. -/
def KeyMapping.Usable (m : KeyMapping) (t : Int) : Prop :=
  m.rotationState = .current ∨
    m.rotationState = .cooling ∧ ∃ activeTo, m.activeTo = some activeTo ∧ ¬ activeTo < t

/-- Every mapping of the wallet whose cooling has ended at a time is retired: a sweep has run since
the last end. -/
def Store.Swept (s : Store) (walletID : UUID) (t : Int) : Prop :=
  ∀ m ∈ s.mappings walletID, m.rotationState = .cooling →
    ∀ activeTo, m.activeTo = some activeTo → ¬ activeTo < t

/-- The active mapping of the wallet that was activated first, or each of them if there are several,
is usable at a time. -/
def Store.EarliestUsable (s : Store) (walletID : UUID) (t : Int) : Prop :=
  ∀ m ∈ s.mappings walletID, Store.isActiveKey m = true →
    (∀ m' ∈ s.mappings walletID, Store.isActiveKey m' = true → m.activeFrom ≤ m'.activeFrom) →
    m.Usable t

/-- The key that is resolved belongs to a mapping that is usable at a time, whatever order equal
activation times are put in. -/
def ResolvesUsable (w : KeyWorld Store) (walletID : UUID) (t : Int) : Prop :=
  ∀ (order : SortSlice Store.activeBefore) (key : String),
    KeyService.resolveActiveKeyID (memstoreKeys order) walletID w = .ok key →
    ∃ m ∈ w.store.mappings walletID, m.keyID = key ∧ m.Usable t

section Signing

variable {order : SortSlice Store.activeBefore} {w : KeyWorld Store} {walletID : UUID} {t : Int}

/-- The key that is resolved is the one of the first active mapping. -/
theorem resolveActiveKeyID_eq_ok {key : String} :
    KeyService.resolveActiveKeyID (memstoreKeys order) walletID w = .ok key ↔
      ∃ m rest, order.sort ((w.store.mappings walletID).filter Store.isActiveKey) = m :: rest ∧
        m.keyID = key := by
  have perm := order.perm ((w.store.mappings walletID).filter Store.isActiveKey)
  simp only [KeyService.resolveActiveKeyID, KeyService.resolveActive, memstoreKeys,
    Store.resolveActiveKey]
  by_cases empty : (w.store.mappings walletID).filter Store.isActiveKey = []
  · rw [empty] at perm
    rw [if_pos empty, empty, List.perm_nil.mp perm]
    exact iff_of_false nofun nofun
  · rw [if_neg empty]
    cases sorted : order.sort ((w.store.mappings walletID).filter Store.isActiveKey) with
    | nil =>
      rw [sorted] at perm
      exact absurd (List.nil_perm.mp perm) empty
    | cons m rest =>
      constructor
      · intro resolved
        exact ⟨m, rest, rfl, Except.ok.inj resolved⟩
      · rintro ⟨m', rest', same, rfl⟩
        rw [(List.cons.inj same).1]

/-- The first active mapping was activated first. -/
theorem earliest_of_sort {m : KeyMapping} {rest : List KeyMapping}
    (sorted : order.sort ((w.store.mappings walletID).filter Store.isActiveKey) = m :: rest) :
    m ∈ w.store.mappings walletID ∧ Store.isActiveKey m = true ∧
      ∀ m' ∈ w.store.mappings walletID, Store.isActiveKey m' = true →
        m.activeFrom ≤ m'.activeFrom := by
  have perm := order.perm ((w.store.mappings walletID).filter Store.isActiveKey)
  have ordered := order.pairwise_le ((w.store.mappings walletID).filter Store.isActiveKey)
  rw [sorted] at perm ordered
  obtain ⟨member, active⟩ := List.mem_filter.mp (perm.mem_iff.mp List.mem_cons_self)
  refine ⟨member, active, fun m' member' active' => ?_⟩
  rcases List.mem_cons.mp (perm.mem_iff.mpr (List.mem_filter.mpr ⟨member', active'⟩)) with
    rfl | later
  · exact le_rfl
  · exact (List.pairwise_cons.mp ordered).1 m' later

/-- The key that is resolved belongs to a usable mapping exactly if the active mappings that were
activated first are usable. -/
theorem resolvesUsable_iff (ok : w.store.KeysOK) :
    ResolvesUsable w walletID t ↔ w.store.EarliestUsable walletID t := by
  constructor
  · intro usable m member active earliest
    -- among those that were activated first, the sort may put this one at the front
    have listed : m ∈ (w.store.mappings walletID).filter Store.isActiveKey :=
      List.mem_filter.mpr ⟨member, active⟩
    obtain ⟨rest, sorted⟩ := @SortSlice.favouring_sort _ KeyMapping.activeFrom _ _ _ listed
      fun m' member' => earliest m' (List.mem_filter.mp member').1 (List.mem_filter.mp member').2
    obtain ⟨m', member', key, usable'⟩ :=
      usable (.favouring _ m) m.keyID (resolveActiveKeyID_eq_ok.mpr ⟨m, rest, sorted, rfl⟩)
    rwa [← List.inj_on_of_nodup_map (ok walletID).distinct member' member key]
  · intro usable order key resolved
    obtain ⟨m, rest, sorted, keyed⟩ := resolveActiveKeyID_eq_ok.mp resolved
    obtain ⟨member, active, earliest⟩ := earliest_of_sort sorted
    exact ⟨m, member, keyed, usable m member active earliest⟩

/-- With every ended mapping retired, every active mapping is usable. -/
theorem earliestUsable_of_swept (ok : w.store.KeysOK) (swept : w.store.Swept walletID t) :
    w.store.EarliestUsable walletID t := by
  intro m member active _
  rcases Bool.or_eq_true_iff.mp active with current | cooling
  · exact .inl (of_decide_eq_true current)
  · have cooling : m.rotationState = .cooling := of_decide_eq_true cooling
    obtain ⟨activeTo, ends⟩ := Option.isSome_iff_exists.mp
      ((ok walletID).ended m member (by rw [cooling]; exact nofun))
    exact .inr ⟨cooling, activeTo, ends, swept m member cooling activeTo ends⟩

/-- With one cooling period, the mapping that was activated first is also the first one to end. -/
theorem swept_of_earliestUsable {period last : Int}
    (paced : KeysPaced period last (w.store.mappings walletID))
    (usable : w.store.EarliestUsable walletID t) : w.store.Swept walletID t := by
  intro m member cooling activeTo ends late
  have active : Store.isActiveKey m = true := by simp [Store.isActiveKey, cooling]
  have listed : m ∈ (w.store.mappings walletID).filter Store.isActiveKey :=
    List.mem_filter.mpr ⟨member, active⟩
  cases sorted : (SortSlice.stable KeyMapping.activeFrom).sort
      ((w.store.mappings walletID).filter Store.isActiveKey) with
  | nil =>
    rw [← ((SortSlice.stable KeyMapping.activeFrom).perm _).mem_iff, sorted] at listed
    cases listed
  | cons first rest =>
    obtain ⟨there, active', earliest⟩ := earliest_of_sort sorted
    have before := earliest m member active
    have long := (paced.cooled m member cooling activeTo ends).1
    rcases usable first there active' earliest with current | ⟨cooling', ended, ends', fresh⟩
    · -- the current mapping was activated last, so there would be no other active one
      have after := paced.latest first there current m member
      rw [paced.times first there m member (le_antisymm before after), cooling] at current
      cases current
    · rcases before.lt_or_eq with earlier | same
      · have := (paced.cooled first there cooling' ended ends').2.2 m member earlier
        omega
      · rw [paced.times first there m member same, ends] at ends'
        obtain rfl := Option.some.inj ends'
        exact fresh late

/-- A sweep retires every mapping that has ended. -/
theorem swept_expireCooling (now : Int) : (w.store.expireCooling now).2.Swept walletID now := by
  intro m member cooling activeTo ends late
  rw [Store.mappings_expireCooling] at member
  obtain ⟨old, -, rfl⟩ := List.mem_map.mp member
  have ended : old.activeTo = some activeTo := by rw [← ends, (expireKey_state old).2.1]
  unfold Store.expireKey at cooling
  split at cooling
  · cases cooling
  · rename_i kept
    exact kept (by simp [cooling, ended, late])

/-- After every history of `Bind`, `Rotate` and `ExpireCooling` calls and at every time, the key
that is resolved belongs to a mapping that is current or cooling and has not ended, exactly if the
active mappings that were activated first are so. It is enough that every mapping whose cooling has
ended is retired, and with one cooling period and a clock that advances this is necessary too. A
sweep at that time brings it about. -/
theorem resolved_key_usable_iff (fresh : w.store.keyMappings = .empty) (calls : List TimedCall)
    (walletID : UUID) (t : Int) :
    let after := w.after (memstoreKeys order) calls
    (ResolvesUsable after walletID t ↔ after.store.EarliestUsable walletID t) ∧
    (after.store.Swept walletID t → ResolvesUsable after walletID t) ∧
    (∀ period, Ticking calls → (∀ timed ∈ calls, timed.svc.coolingPeriod = period) →
      (ResolvesUsable after walletID t ↔ after.store.Swept walletID t)) ∧
    (KeyService.expireCooling (memstoreKeys order) t after).2.store.Swept walletID t := by
  intro after
  have ok : after.store.KeysOK := after_keysOK fresh calls
  have enough (swept : after.store.Swept walletID t) : ResolvesUsable after walletID t :=
    (resolvesUsable_iff ok).mpr (earliestUsable_of_swept ok swept)
  refine ⟨resolvesUsable_iff ok, enough, fun period ticking one => ⟨fun usable => ?_, enough⟩,
    swept_expireCooling t⟩
  obtain ⟨last, paced⟩ := @after_keysPaced order w calls period fresh ticking one walletID
  exact swept_of_earliestUsable paced ((resolvesUsable_iff ok).mp usable)

end Signing

/-- The wallet is rotated with a long cooling period and then with a short one. -/
def sampleMixedPeriods : List TimedCall :=
  [sampleCall (.bind sampleKeyWallet "a") 1,
    ⟨⟨100, Int.repr, true⟩, .rotate sampleKeyWallet "b", 10, 10⟩,
    sampleCall (.rotate sampleKeyWallet "c") 20]

/-- The mappings after both rotations. -/
theorem sampleMixedPeriods_mappings :
    (keyHistory sampleMixedPeriods).store.mappings sampleKeyWallet =
      [⟨sampleKeyWallet, "a", 1, some 110, .cooling, 1⟩,
        ⟨sampleKeyWallet, "b", 10, some 25, .cooling, 10⟩,
        ⟨sampleKeyWallet, "c", 20, none, .current, 20⟩] := by decide +kernel

/-- Right after a rotation, every mapping that cools has time left, and the first key is resolved
and usable. With two periods it is so although the second key has ended. -/
theorem resolved_key_usable_iff_cooling :
    ((keyHistory sampleRotation).store.Swept sampleKeyWallet 15 ∧
      ResolvesUsable (keyHistory sampleRotation) sampleKeyWallet 15) ∧
    ¬ ResolvesUsable (keyHistory sampleRotation) sampleKeyWallet 16 ∧
    ¬ (keyHistory sampleMixedPeriods).store.Swept sampleKeyWallet 50 ∧
      ResolvesUsable (keyHistory sampleMixedPeriods) sampleKeyWallet 50 := by
  have ticking : Ticking sampleRotation := ⟨by decide, by decide, by decide +kernel⟩
  have swept : (keyHistory sampleRotation).store.Swept sampleKeyWallet 15 := by
    unfold Store.Swept
    decide +kernel
  have unswept : ¬ (keyHistory sampleRotation).store.Swept sampleKeyWallet 16 := by
    unfold Store.Swept
    decide +kernel
  have usable (t : Int) := (@resolved_key_usable_iff (.stable _) ⟨{}, []⟩ rfl
    sampleRotation sampleKeyWallet t).2.2.1 5 ticking (by decide)
  refine ⟨⟨swept, (usable 15).mpr swept⟩, fun resolves => unswept ((usable 16).mp resolves), ?_, ?_⟩
  · unfold Store.Swept
    rw [sampleMixedPeriods_mappings]
    decide
  · refine (@resolved_key_usable_iff (.stable _) ⟨{}, []⟩ rfl
      sampleMixedPeriods sampleKeyWallet 50).1.mpr ?_
    show (keyHistory sampleMixedPeriods).store.EarliestUsable sampleKeyWallet 50
    unfold Store.EarliestUsable
    rw [sampleMixedPeriods_mappings]
    simp [KeyMapping.Usable, Store.isActiveKey]

/-- The first key ended at 15; at 100, without a sweep, it is still the one that is resolved. -/
theorem expired_key_resolved :
    KeyService.resolveActiveKeyID (memstoreKeys (.stable _)) sampleKeyWallet
      (keyHistory sampleRotation) = .ok "a" ∧
    ∀ m ∈ (keyHistory sampleRotation).store.mappings sampleKeyWallet,
      m.keyID = "a" → ¬ m.Usable 100 := by
  refine ⟨by decide +kernel, ?_⟩
  have rows : (keyHistory sampleRotation).store.mappings sampleKeyWallet =
      [⟨sampleKeyWallet, "a", 1, some 15, .cooling, 1⟩,
        ⟨sampleKeyWallet, "b", 10, none, .current, 10⟩] := by decide +kernel
  rw [rows]
  simp [KeyMapping.Usable]

end WalletManagement
