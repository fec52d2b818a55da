import WalletManagement.KeyMappings
import Mathlib.Data.List.Pairwise

/-!
# Two stores for key mappings

The Postgres implementation of the methods for key mappings, as its statements act on the table
`key_mappings` under its primary key and its partial unique index, and its agreement with
`memstore`. `memstore` checks for a current mapping only, and the table for a mapping of the key as
well; they agree because a wallet with a mapping has a current one. The times differ in two ways.
The table keeps microseconds and `memstore` nanoseconds. And the Postgres rotation takes the end of
the cooling from the clock of the program but the start of the new key from the clock of the
transaction, while `memstore` takes both from one reading. The foreign key to the wallets is not
modelled: the calls are about wallets that exist.
-/

namespace WalletManagement

open Data Go

/-! ## The Postgres store -/

/-- What a column of type `TIMESTAMPTZ` keeps of a time in nanoseconds. A time in whole microseconds
is kept as it is. -/
structure Timestamps where
  round : Int → Int
  whole : ∀ t, 1000 ∣ t → round t = t

/-- Rounding to the nearest microsecond. -/
def Timestamps.nearest : Timestamps where
  round t := (t + 500) / 1000 * 1000
  whole t divides := by omega

/-- The mapping that the columns keep. -/
def Timestamps.stored (column : Timestamps) (m : KeyMapping) : KeyMapping :=
  { m with
    activeFrom := column.round m.activeFrom
    activeTo := m.activeTo.map column.round
    createdAt := column.round m.createdAt }

/-- The table `key_mappings`, under its primary key. -/
abbrev KeyTable : Type := Table fun m : KeyMapping => (m.walletID, m.keyID)

namespace KeyTable

/-- The error of a violated constraint. -/
def violates (constraint : String) : Err :=
  ⟨"pq: duplicate key value violates unique constraint \"" ++ constraint ++ "\"", none⟩

/-- The index `key_mappings_one_current` refuses a row: it is current, and so is another row of its
wallet. -/
def currentTaken (rows : KeyTable) (row : KeyMapping) : Bool :=
  row.rotationState = .current && rows.rows.any fun m =>
    m.walletID = row.walletID && m.keyID ≠ row.keyID && m.rotationState = .current

/-- The `INSERT` of `BindKeyMapping`. -/
def bindKeyMapping (column : Timestamps) (m : KeyMapping) (rows : KeyTable) :
    Except Err Unit × KeyTable :=
  let row := column.stored m
  if (rows.get (row.walletID, row.keyID)).isSome then
    (.error (violates "key_mappings_pkey"), rows)
  else if rows.currentTaken row then (.error (violates "key_mappings_one_current"), rows)
  else (.ok (), rows.put row)

/-- The `SELECT` of `ResolveActiveKey`. -/
def resolveActiveKey (order : SortSlice Store.activeBefore) (walletID : UUID) (rows : KeyTable) :
    Except Err (List KeyMapping) :=
  let out := rows.select fun m => m.walletID = walletID &&
    (m.rotationState = .current || m.rotationState = .cooling)
  if out = [] then .error Store.errNoRows else .ok (order.sort out)

/-- The `UPDATE` of `RotateKeyMapping`, on one row. -/
def coolRow (walletID : UUID) (activeTo : Int) (m : KeyMapping) : KeyMapping :=
  if m.walletID = walletID ∧ m.rotationState = .current then
    { m with rotationState := .cooling, activeTo := some activeTo }
  else m

theorem coolRow_key (walletID : UUID) (activeTo : Int) (m : KeyMapping) :
    ((coolRow walletID activeTo m).walletID, (coolRow walletID activeTo m).keyID) =
      (m.walletID, m.keyID) := by
  unfold coolRow
  split <;> rfl

/-- The row that `INSERT .. ON CONFLICT DO UPDATE` of `RotateKeyMapping` writes. -/
def upsertedRow (now : Int) (walletID : UUID) (newKeyID : String) : Option KeyMapping → KeyMapping
  | none => ⟨walletID, newKeyID, now, none, .current, now⟩
  | some old => { old with rotationState := .current, activeFrom := now, activeTo := none }

/-- `RotateKeyMapping`: the reading of the program, and the one of the transaction. -/
def rotateKeyMapping (column : Timestamps) (now started : Int) (walletID : UUID) (newKeyID : String)
    (cooling : Int) (rows : KeyTable) : Except Err Unit × KeyTable :=
  let activeTo := column.round (now + cooling)
  let cooled : KeyTable := rows.mapRows (coolRow walletID activeTo) (coolRow_key _ _)
  let row := upsertedRow (column.round started) walletID newKeyID (cooled.get (walletID, newKeyID))
  if cooled.currentTaken row then (.error (violates "key_mappings_one_current"), rows)
  else (.ok (), cooled.put row)

/-- The `UPDATE` of `ExpireCooling`, on one row. -/
def expireRow (now : Int) (m : KeyMapping) : KeyMapping :=
  match m.activeTo with
  | some activeTo =>
    if m.rotationState = .cooling ∧ activeTo < now then { m with rotationState := .retired } else m
  | none => m

theorem expireRow_key (now : Int) (m : KeyMapping) :
    ((expireRow now m).walletID, (expireRow now m).keyID) = (m.walletID, m.keyID) := by
  unfold expireRow
  split
  · split <;> rfl
  · rfl

/-- `ExpireCooling`. -/
def expireCooling (column : Timestamps) (now : Int) (rows : KeyTable) :
    Except Err Unit × KeyTable :=
  (.ok (), rows.mapRows (expireRow (column.round now)) (expireRow_key _))

end KeyTable

/-- The methods of the Postgres store. -/
def postgresKeys (column : Timestamps) (order : SortSlice Store.activeBefore) :
    KeyStore KeyTable where
  bindKeyMapping _ m rows := rows.bindKeyMapping column m
  resolveActiveKey walletID rows := rows.resolveActiveKey order walletID
  rotateKeyMapping now started walletID newKeyID cooling rows :=
    rows.rotateKeyMapping column now started walletID newKeyID cooling
  expireCooling now rows := rows.expireCooling column now

/-! ## Agreement on one reading -/

/-- The two stores hold the same rows, which are in order. -/
structure KeysAgree (s : Store) (rows : KeyTable) : Prop where
  /-- The rows of `memstore` are in order. -/
  ok : s.KeysOK
  /-- The rows are the same. -/
  same : ∀ m, m ∈ rows.rows ↔ m ∈ s.mappings m.walletID

namespace KeysAgree

variable {s : Store} {rows : KeyTable} {walletID : UUID} {now : Int} {column : Timestamps}

/-- The rows of a wallet. -/
theorem mem_wallet (agree : KeysAgree s rows) {m : KeyMapping} :
    m ∈ rows.rows ∧ m.walletID = walletID ↔ m ∈ s.mappings walletID := by
  constructor
  · rintro ⟨member, rfl⟩
    exact (agree.same m).mp member
  · intro member
    have owner := (agree.ok walletID).owned m member
    exact ⟨(agree.same m).mpr (owner ▸ member), owner⟩

/-- The row of a key. -/
theorem get_eq_some (agree : KeysAgree s rows) {k : String} {m : KeyMapping} :
    rows.get (walletID, k) = some m ↔ m ∈ s.mappings walletID ∧ m.keyID = k := by
  rw [← agree.mem_wallet, Table.mem_iff_get]
  constructor
  · intro found
    have key := Table.key_of_get found
    obtain ⟨rfl, rfl⟩ := Prod.mk.inj key
    exact ⟨⟨found, rfl⟩, rfl⟩
  · rintro ⟨⟨found, rfl⟩, rfl⟩
    exact found

/-- A wallet without mappings has no row. -/
theorem get_eq_none (agree : KeysAgree s rows) (empty : s.mappings walletID = []) (k : String) :
    rows.get (walletID, k) = none := by
  by_contra found
  obtain ⟨m, found⟩ := Option.ne_none_iff_exists'.mp found
  have member := (agree.get_eq_some.mp found).1
  rw [empty] at member
  cases member

/-- The active rows of a wallet are the same. -/
theorem perm_active (agree : KeysAgree s rows) :
    ((s.mappings walletID).filter Store.isActiveKey).Perm (rows.select fun m =>
      m.walletID = walletID && (m.rotationState = .current || m.rotationState = .cooling)) := by
  have left : ((s.mappings walletID).filter Store.isActiveKey).Nodup :=
    (List.Nodup.of_map _ (agree.ok walletID).distinct).filter _
  have right : (rows.select fun m => m.walletID = walletID &&
      (m.rotationState = .current || m.rotationState = .cooling)).Nodup :=
    (List.Nodup.of_map _ rows.distinct).filter _
  refine (List.perm_ext_iff_of_nodup left right).mpr fun m => ?_
  rw [List.mem_filter, Table.select, List.mem_filter, Bool.and_eq_true, ← and_assoc,
    decide_eq_true_iff, agree.mem_wallet]
  rfl

/-- Both stores resolve the same mappings, in the same order. -/
theorem resolve (agree : KeysAgree s rows) {last : Int}
    (timed : KeysTimed last (s.mappings walletID)) (order order' : SortSlice Store.activeBefore)
    (ms : List KeyMapping) :
    s.resolveActiveKey order walletID = .ok ms ↔
      rows.resolveActiveKey order' walletID = .ok ms := by
  have perm : ((s.mappings walletID).filter Store.isActiveKey).Perm _ := agree.perm_active
  simp only [Store.resolveActiveKey, KeyTable.resolveActiveKey]
  by_cases empty : (s.mappings walletID).filter Store.isActiveKey = []
  · have empty' := List.nil_perm.mp (empty ▸ perm)
    rw [if_pos empty, if_pos empty']
    simp only [reduceCtorEq]
  · have some' : rows.select _ ≠ [] := fun empty' => empty (List.perm_nil.mp (empty' ▸ perm))
    rw [if_neg empty, if_neg some', order.sort_eq_of_perm order' perm]
    intro m member m' member' same
    exact timed.times m (List.mem_filter.mp member).1 m' (List.mem_filter.mp member').1 same

/-- The index refuses a current row when another mapping of its wallet is current. -/
theorem currentTaken_eq_false {row : KeyMapping}
    (free : ∀ m ∈ rows.rows, m.walletID = row.walletID → m.rotationState ≠ .current) :
    rows.currentTaken row = false := by
  rw [KeyTable.currentTaken, Bool.and_eq_false_iff]
  refine .inr (List.any_eq_false.mpr fun m member taken => ?_)
  simp only [Bool.and_eq_true, decide_eq_true_eq] at taken
  exact free m member taken.1.1 taken.2

/-- Writing the mappings of one wallet on both sides. -/
theorem write (agree : KeysAgree s rows) {ms : List KeyMapping} {rows' : KeyTable}
    (ok : KeysOK walletID ms)
    (here : ∀ m, m.walletID = walletID → (m ∈ rows'.rows ↔ m ∈ ms))
    (others : ∀ m, m.walletID ≠ walletID → (m ∈ rows'.rows ↔ m ∈ rows.rows)) :
    KeysAgree (s.putMappings walletID ms) rows' := by
  refine ⟨fun other => ?_, fun m => ?_⟩
  · by_cases same : walletID = other
    · subst same
      rwa [Store.mappings_putMappings_self]
    · rw [Store.mappings_putMappings_of_ne _ _ same]
      exact agree.ok other
  · by_cases same : m.walletID = walletID
    · rw [here m same, same, Store.mappings_putMappings_self]
    · rw [others m same, Store.mappings_putMappings_of_ne _ _ (Ne.symm same), agree.same]

/-- A row of one wallet leaves the rows of the others alone. -/
theorem mem_put_of_ne {row m : KeyMapping} (owner : row.walletID = walletID)
    (wallet : m.walletID ≠ walletID) : m ∈ (rows.put row).rows ↔ m ∈ rows.rows := by
  rw [Table.mem_put]
  constructor
  · rintro (rfl | old)
    · exact absurd owner wallet
    · exact old.1
  · intro member
    exact .inr ⟨member, fun key => wallet ((Prod.mk.inj key).1.trans owner)⟩

/-- Both stores bind a wallet without mappings, and refuse one with mappings. -/
theorem bind (agree : KeysAgree s rows) (keyID : String) (row : KeyMapping)
    (bound : row = ⟨walletID, keyID, now, none, .current, now⟩) (passed : now ≠ 0)
    (exact : column.round now = now) (again : Int) :
    (s.bindKeyMapping again row).1.isOk = (rows.bindKeyMapping column row).1.isOk ∧
      KeysAgree (s.bindKeyMapping again row).2 (rows.bindKeyMapping column row).2 := by
  have stored : boundKey now again walletID keyID = row := by simp [boundKey, bound, passed]
  have kept : column.stored row = row := by simp [Timestamps.stored, bound, exact]
  have owner : row.walletID = walletID := by rw [bound]
  have current : row.rotationState = .current := by rw [bound]
  have memstore : s.bindKeyMapping again row = if s.mappings walletID = [] then
      (.ok (), s.putMappings walletID [row])
      else (.error ⟨"current key mapping already exists", none⟩, s) := by
    rw [bound, bindKeyMapping_current agree.ok, stored, ← bound]
  rw [memstore]
  by_cases empty : s.mappings walletID = []
  · have absent (m : KeyMapping) (wallet : m.walletID = walletID) : m ∉ rows.rows :=
      fun member => by
      have there := agree.mem_wallet.mp ⟨member, wallet⟩
      rw [empty] at there
      cases there
    have free : rows.get (row.walletID, row.keyID) = none := owner ▸ agree.get_eq_none empty _
    have unrefused : rows.currentTaken row = false :=
      currentTaken_eq_false fun m member wallet => absurd member (absent m (wallet.trans owner))
    rw [if_pos empty, KeyTable.bindKeyMapping, kept, free, unrefused]
    refine ⟨rfl, agree.write (.first owner current (by rw [bound])) (fun m wallet => ?_)
      fun m wallet => mem_put_of_ne owner wallet⟩
    show m ∈ (rows.put row).rows ↔ _
    rw [Table.mem_put, List.mem_singleton]
    exact ⟨fun written => written.resolve_right fun old => absent m wallet old.1, .inl⟩
  · -- one of the two constraints of the table refuses the row
    obtain ⟨m, member, there⟩ : ∃ m ∈ s.mappings walletID, m.rotationState = .current := by
      by_contra unbound
      exact empty ((agree.ok walletID).eq_nil fun m member there => unbound ⟨m, member, there⟩)
    rw [if_neg empty, KeyTable.bindKeyMapping, kept]
    by_cases key : m.keyID = row.keyID
    · have found : rows.get (row.walletID, row.keyID) = some m :=
        agree.get_eq_some.mpr ⟨owner ▸ member, key⟩
      rw [found]
      exact ⟨rfl, agree⟩
    · have refused : rows.currentTaken row = true := by
        obtain ⟨member, wallet⟩ := agree.mem_wallet.mpr member
        simp only [KeyTable.currentTaken, current, decide_true, Bool.true_and, List.any_eq_true,
          Bool.and_eq_true, decide_eq_true_eq]
        exact ⟨m, member, ⟨wallet.trans owner.symm, by simpa using key⟩, there⟩
      rw [refused]
      split
      · exact ⟨rfl, agree⟩
      · exact ⟨rfl, agree⟩

/-- The rows of a wallet after the first statement of a rotation. -/
theorem mem_cooled (agree : KeysAgree s rows) {activeTo : Int} {m : KeyMapping} :
    m ∈ (rows.mapRows (KeyTable.coolRow walletID activeTo) (KeyTable.coolRow_key _ _)).rows ∧
        m.walletID = walletID ↔
      ∃ old ∈ s.mappings walletID, Store.coolKey activeTo old = m := by
  have own (old : KeyMapping) (wallet : old.walletID = walletID) :
      KeyTable.coolRow walletID activeTo old = Store.coolKey activeTo old := by
    simp [KeyTable.coolRow, Store.coolKey, wallet]
  rw [Table.mem_mapRows]
  constructor
  · rintro ⟨⟨old, member, rfl⟩, wallet⟩
    have wallet : old.walletID = walletID :=
      (Prod.mk.inj (KeyTable.coolRow_key walletID activeTo old)).1.symm.trans wallet
    exact ⟨old, agree.mem_wallet.mp ⟨member, wallet⟩, (own old wallet).symm⟩
  · rintro ⟨old, there, rfl⟩
    obtain ⟨member, wallet⟩ := agree.mem_wallet.mpr there
    exact ⟨⟨old, member, own old wallet⟩, (coolKey_walletID old).trans wallet⟩

/-- The first statement of a rotation leaves the other wallets alone. -/
theorem mem_cooled_of_ne {activeTo : Int} {m : KeyMapping} (other : m.walletID ≠ walletID) :
    m ∈ (rows.mapRows (KeyTable.coolRow walletID activeTo) (KeyTable.coolRow_key _ _)).rows ↔
      m ∈ rows.rows := by
  have foreign (old : KeyMapping) (wallet : old.walletID ≠ walletID) :
      KeyTable.coolRow walletID activeTo old = old := if_neg fun both => wallet both.1
  rw [Table.mem_mapRows]
  constructor
  · rintro ⟨old, member, rfl⟩
    have wallet : old.walletID ≠ walletID := fun same =>
      other ((Prod.mk.inj (KeyTable.coolRow_key walletID activeTo old)).1.trans same)
    rwa [foreign old wallet]
  · intro member
    exact ⟨m, member, foreign m other⟩

/-- The row that the second statement of a rotation writes. -/
theorem eq_upsertedRow (agree : KeysAgree s rows) {k : String} {activeTo : Int} {m : KeyMapping} :
    m = KeyTable.upsertedRow now walletID k
        ((rows.get (walletID, k)).map (KeyTable.coolRow walletID activeTo)) ↔
      (∃ old ∈ s.mappings walletID, old.keyID = k ∧ m = { Store.coolKey activeTo old with
        rotationState := .current, activeTo := none, activeFrom := now }) ∨
      ((∀ old ∈ s.mappings walletID, old.keyID ≠ k) ∧
        m = ⟨walletID, k, now, none, .current, now⟩) := by
  cases found : rows.get (walletID, k) with
  | none =>
    have unknown : ∀ old ∈ s.mappings walletID, old.keyID ≠ k := fun old member key => by
      rw [agree.get_eq_some.mpr ⟨member, key⟩] at found
      cases found
    constructor
    · intro new
      exact .inr ⟨unknown, new⟩
    · rintro (⟨old, member, key, -⟩ | ⟨-, new⟩)
      · exact absurd key (unknown old member)
      · exact new
  | some old =>
    obtain ⟨member, key⟩ := agree.get_eq_some.mp found
    have cooled : KeyTable.coolRow walletID activeTo old = Store.coolKey activeTo old := by
      simp [KeyTable.coolRow, Store.coolKey, (agree.ok walletID).owned old member]
    rw [Option.map_some, cooled]
    constructor
    · intro again
      exact .inl ⟨old, member, key, again⟩
    · rintro (⟨old', member', key', again⟩ | ⟨unknown, -⟩)
      · have one := agree.get_eq_some.mpr ⟨member', key'⟩
        rw [found, Option.some.injEq] at one
        subst one
        exact again
      · exact absurd key (unknown old member)

/-- Both stores rotate. -/
theorem rotate (agree : KeysAgree s rows) (walletID : UUID) (k : String) (cooling : Int)
    (exact : column.round now = now) (ends : column.round (now + cooling) = now + cooling) :
    (s.rotateKeyMapping now walletID k cooling).1.isOk =
      (rows.rotateKeyMapping column now now walletID k cooling).1.isOk ∧
      KeysAgree (s.rotateKeyMapping now walletID k cooling).2
        (rows.rotateKeyMapping column now now walletID k cooling).2 := by
  have ok := agree.ok walletID
  let cooled : KeyTable :=
    rows.mapRows (KeyTable.coolRow walletID (now + cooling)) (KeyTable.coolRow_key _ _)
  obtain ⟨row, written⟩ : ∃ row, row = KeyTable.upsertedRow now walletID k
    ((rows.get (walletID, k)).map (KeyTable.coolRow walletID (now + cooling))) := ⟨_, rfl⟩
  have key : row.walletID = walletID ∧ row.keyID = k := by
    rcases agree.eq_upsertedRow.mp written with ⟨old, member, key, rfl⟩ | ⟨-, rfl⟩
    · exact ⟨(coolKey_walletID old).trans (ok.owned old member), (coolKey_keyID old).trans key⟩
    · exact ⟨rfl, rfl⟩
  have unrefused : cooled.currentTaken row = false :=
    currentTaken_eq_false fun m member wallet => by
      obtain ⟨old, -, rfl⟩ := agree.mem_cooled.mp ⟨member, wallet.trans key.1⟩
      exact coolKey_not_current old
  have table : rows.rotateKeyMapping column now now walletID k cooling =
      (.ok (), cooled.put row) := by
    rw [KeyTable.rotateKeyMapping, exact, ends, Table.get_mapRows, ← written]
    exact if_neg (Bool.not_eq_true _ ▸ unrefused)
  rw [table]
  refine ⟨rfl, agree.write ok.rotate (fun m wallet => ?_) fun m wallet =>
    (mem_put_of_ne key.1 wallet).trans (mem_cooled_of_ne wallet)⟩
  rw [Table.mem_put, mem_rotated ok.distinct, written, agree.eq_upsertedRow, ← written, or_comm]
  refine or_congr_left ?_
  constructor
  · rintro ⟨member, other⟩
    obtain ⟨old, there, rfl⟩ := agree.mem_cooled.mp ⟨member, wallet⟩
    refine ⟨old, there, fun same => other ?_, rfl⟩
    exact Prod.ext (wallet.trans key.1.symm) (((coolKey_keyID old).trans same).trans key.2.symm)
  · rintro ⟨old, there, other, rfl⟩
    refine ⟨(agree.mem_cooled.mpr ⟨old, there, rfl⟩).1, fun same => other ?_⟩
    exact (coolKey_keyID old).symm.trans ((Prod.mk.inj same).2.trans key.2)

/-- The stores retire a mapping under the same condition. -/
theorem expireRow_eq (m : KeyMapping) : KeyTable.expireRow now m = Store.expireKey now m := by
  unfold KeyTable.expireRow Store.expireKey
  cases m.activeTo <;> simp

/-- Both stores retire the same mappings. -/
theorem expire (agree : KeysAgree s rows) (exact : column.round now = now) :
    KeysAgree (s.expireCooling now).2 (rows.expireCooling column now).2 := by
  simp only [KeyTable.expireCooling, exact]
  refine ⟨fun walletID => ?_, fun m => ?_⟩
  · rw [Store.mappings_expireCooling]
    exact (agree.ok walletID).expire
  · show m ∈ (rows.mapRows (KeyTable.expireRow now) (KeyTable.expireRow_key now)).rows ↔ _
    rw [Table.mem_mapRows, Store.mappings_expireCooling, List.mem_map]
    constructor
    · rintro ⟨old, member, rfl⟩
      have wallet : (KeyTable.expireRow now old).walletID = old.walletID :=
        (Prod.mk.inj (KeyTable.expireRow_key now old)).1
      exact ⟨old, wallet ▸ (agree.same old).mp member, (expireRow_eq old).symm⟩
    · rintro ⟨old, there, retired⟩
      exact ⟨old, (agree.mem_wallet.mpr there).1, (expireRow_eq old).trans retired⟩

end KeysAgree

/-- The readings and the cooling period of a call are whole microseconds. -/
def TimedCall.Whole (timed : TimedCall) : Prop :=
  1000 ∣ timed.now ∧ 1000 ∣ timed.again ∧ 1000 ∣ timed.svc.coolingPeriod

instance (timed : TimedCall) : Decidable timed.Whole :=
  inferInstanceAs (Decidable (_ ∧ _ ∧ _))

/-- The call with one reading. -/
def TimedCall.atOnce (timed : TimedCall) : TimedCall := { timed with again := timed.now }

section Calls

variable {order order' : SortSlice Store.activeBefore} {column : Timestamps} {w : KeyWorld Store}
  {w' : KeyWorld KeyTable} {calls : List TimedCall}

/-- A call is accepted by both stores or by none, and they agree after it, if the Postgres store has
one reading. -/
theorem perform_agrees (timed : TimedCall) (passed : timed.now ≠ 0) (whole : timed.Whole)
    (agree : KeysAgree w.store w'.store) :
    (timed.perform (memstoreKeys order) w).1.isOk =
        (timed.atOnce.perform (postgresKeys column order') w').1.isOk ∧
      KeysAgree (timed.perform (memstoreKeys order) w).2.store
        (timed.atOnce.perform (postgresKeys column order') w').2.store := by
  have exact := column.whole _ whole.1
  have ends := column.whole _ (Int.dvd_add whole.1 whole.2.2)
  unfold TimedCall.perform TimedCall.atOnce
  cases timed.call with
  | bind walletID keyID => exact agree.bind keyID _ rfl passed exact timed.again
  | rotate walletID newKeyID =>
    dsimp only
    rw [(KeyService.rotate_store ..).1, (KeyService.rotate_store ..).2,
      (KeyService.rotate_store ..).1, (KeyService.rotate_store ..).2]
    exact agree.rotate walletID newKeyID timed.svc.coolingPeriod exact ends
  | expireCooling => exact ⟨rfl, agree.expire exact⟩

/-- Stores that agree accept the same calls of a sequence, and agree after it, if the Postgres store
has one reading of each. -/
theorem after_agrees (passed : ∀ timed ∈ calls, timed.now ≠ 0)
    (whole : ∀ timed ∈ calls, timed.Whole) (agree : KeysAgree w.store w'.store) :
    (w.answers (memstoreKeys order) calls).map Except.isOk =
        (w'.answers (postgresKeys column order') (calls.map TimedCall.atOnce)).map Except.isOk ∧
      KeysAgree (w.after (memstoreKeys order) calls).store
        (w'.after (postgresKeys column order') (calls.map TimedCall.atOnce)).store := by
  induction calls generalizing w w' with
  | nil => exact ⟨rfl, agree⟩
  | cons timed calls ih =>
    rw [List.forall_mem_cons] at passed whole
    obtain ⟨accepted, agree'⟩ :=
      @perform_agrees order order' column w w' timed passed.1 whole.1 agree
    obtain ⟨rest, final⟩ := ih passed.2 whole.2 agree'
    refine ⟨?_, final⟩
    rw [List.map_cons, KeyWorld.answers, KeyWorld.answers, List.map_cons, List.map_cons, accepted,
      rest]

end Calls

/-! ## Two readings -/

/-- The mapping, with the time at which it starts as a function of another one. -/
def KeyMapping.restart (start : Int → Int) (m : KeyMapping) : KeyMapping :=
  { m with activeFrom := start m.activeFrom, createdAt := start m.createdAt }

theorem KeyMapping.restart_key (start : Int → Int) (m : KeyMapping) :
    ((m.restart start).walletID, (m.restart start).keyID) = (m.walletID, m.keyID) := rfl

/-- The table with other starts. -/
def KeyTable.restart (start : Int → Int) (rows : KeyTable) : KeyTable :=
  rows.mapRows (KeyMapping.restart start) (KeyMapping.restart_key start)

/-- The time that a call of the Postgres store writes as a start. -/
def TimedCall.start (timed : TimedCall) : Int :=
  match timed.call with
  | .rotate _ _ => timed.again
  | _ => timed.now

/-- The start that was written by the call with a first reading. -/
def startOf (calls : List TimedCall) (now : Int) : Int :=
  ((calls.find? (·.now = now)).map TimedCall.start).getD now

namespace KeyTable

variable {start : Int → Int} {rows : KeyTable} {column : Timestamps} {now again : Int}

theorem get_restart (key : UUID × String) :
    (rows.restart start).get key = (rows.get key).map (KeyMapping.restart start) :=
  Table.get_mapRows ..

theorem put_restart (row : KeyMapping) :
    (rows.restart start).put (row.restart start) = KeyTable.restart start (rows.put row) :=
  (Table.mapRows_put ..).symm

/-- The starts play no part in the index. -/
theorem currentTaken_restart (row : KeyMapping) :
    (rows.restart start).currentTaken (row.restart start) = rows.currentTaken row := by
  simp only [currentTaken, restart, Table.mapRows, List.any_map]
  rfl

/-- Nor in the changes of the rows. -/
theorem coolRow_restart (walletID : UUID) (activeTo : Int) (m : KeyMapping) :
    coolRow walletID activeTo (m.restart start) = (coolRow walletID activeTo m).restart start := by
  by_cases current : m.walletID = walletID ∧ m.rotationState = .current
  · have cools : coolRow walletID activeTo m =
        { m with rotationState := .cooling, activeTo := some activeTo } := if_pos current
    rw [cools]
    exact if_pos current
  · have stays : coolRow walletID activeTo m = m := if_neg current
    rw [stays]
    exact if_neg current

theorem expireRow_restart (now : Int) (m : KeyMapping) :
    expireRow now (m.restart start) = (expireRow now m).restart start := by
  obtain ⟨walletID, keyID, activeFrom, activeTo, state, createdAt⟩ := m
  cases activeTo with
  | none => rfl
  | some activeTo =>
    show (if state = .cooling ∧ activeTo < now then _ else _) =
      KeyMapping.restart start (if state = .cooling ∧ activeTo < now then _ else _)
    split <;> rfl

/-- Binding, with other starts. -/
theorem bindKeyMapping_restart {m : KeyMapping}
    (same : (column.stored m).restart start = column.stored m) :
    (rows.restart start).bindKeyMapping column m =
      ((rows.bindKeyMapping column m).1, (rows.bindKeyMapping column m).2.restart start) := by
  have found : ((rows.restart start).get
      ((column.stored m).walletID, (column.stored m).keyID)).isSome =
      (rows.get ((column.stored m).walletID, (column.stored m).keyID)).isSome := by
    rw [get_restart, Option.isSome_map]
  have taken := @currentTaken_restart start rows (column.stored m)
  rw [same] at taken
  simp only [bindKeyMapping, found, taken]
  split
  · rfl
  split
  · rfl
  · rw [← put_restart, same]

/-- Rotating, with other starts. -/
theorem rotateKeyMapping_restart (starts : start (column.round now) = column.round again)
    (walletID : UUID) (k : String) (cooling : Int) :
    (rows.restart start).rotateKeyMapping column now again walletID k cooling =
      ((rows.rotateKeyMapping column now now walletID k cooling).1,
        (rows.rotateKeyMapping column now now walletID k cooling).2.restart start) := by
  let activeTo := column.round (now + cooling)
  let cooled : KeyTable := rows.mapRows (coolRow walletID activeTo) (coolRow_key _ _)
  have cools : (rows.restart start).mapRows (coolRow walletID activeTo) (coolRow_key _ _) =
      cooled.restart start := Table.mapRows_comm rows (coolRow_restart walletID activeTo)
  have writes (found : Option KeyMapping) :
      upsertedRow (column.round again) walletID k (found.map (KeyMapping.restart start)) =
        (upsertedRow (column.round now) walletID k found).restart start := by
    cases found <;> simp [upsertedRow, KeyMapping.restart, starts]
  have row : upsertedRow (column.round again) walletID k
      ((cooled.restart start).get (walletID, k)) =
      (upsertedRow (column.round now) walletID k (cooled.get (walletID, k))).restart start := by
    rw [get_restart, writes]
  simp only [rotateKeyMapping]
  rw [cools, row, currentTaken_restart]
  split
  · rfl
  · exact Prod.ext rfl (put_restart _)

/-- Retiring, with other starts. -/
theorem expireCooling_restart : (rows.restart start).expireCooling column now =
    ((rows.expireCooling column now).1, (rows.expireCooling column now).2.restart start) := by
  have expires : (rows.restart start).mapRows (expireRow (column.round now)) (expireRow_key _) =
      KeyTable.restart start (rows.mapRows (expireRow (column.round now)) (expireRow_key _)) :=
    Table.mapRows_comm rows (expireRow_restart (column.round now))
  exact Prod.ext rfl expires

/-- Resolving, with other starts in the same order. -/
theorem resolveActiveKey_restart (order order' : SortSlice Store.activeBefore) (walletID : UUID)
    (times : ∀ m ∈ rows.rows, ∀ m' ∈ rows.rows, m.walletID = m'.walletID →
      m.activeFrom = m'.activeFrom → m = m')
    (increasing : ∀ m ∈ rows.rows, ∀ m' ∈ rows.rows, m.activeFrom < m'.activeFrom →
      start m.activeFrom < start m'.activeFrom) :
    (rows.restart start).resolveActiveKey order' walletID =
      (rows.resolveActiveKey order walletID).map (List.map (KeyMapping.restart start)) := by
  let test (m : KeyMapping) : Bool :=
    m.walletID = walletID && (m.rotationState = .current || m.rotationState = .cooling)
  have selected : (rows.restart start).select test =
      (rows.select test).map (KeyMapping.restart start) := by
    simp only [Table.select, restart, Table.mapRows, List.filter_map]
    rfl
  have inside (m : KeyMapping) (member : m ∈ rows.select test) :
      m ∈ rows.rows ∧ m.walletID = walletID := by
    obtain ⟨member, tested⟩ := List.mem_filter.mp member
    exact ⟨member, of_decide_eq_true (Bool.and_eq_true_iff.mp tested).1⟩
  have sorted : order'.sort ((rows.select test).map (KeyMapping.restart start)) =
      (order.sort (rows.select test)).map (KeyMapping.restart start) := by
    refine order.sort_map order' _ (fun m member m' member' same => ?_)
      fun m member m' member' less => ?_
    · obtain ⟨there, owner⟩ := inside m member
      obtain ⟨there', owner'⟩ := inside m' member'
      exact times m there m' there' (owner.trans owner'.symm) same
    · exact increasing m (inside m member).1 m' (inside m' member').1 less
  show (if (rows.restart start).select test = [] then _ else _) =
    Except.map _ (if rows.select test = [] then _ else _)
  rw [selected]
  by_cases empty : rows.select test = []
  · rw [if_pos empty, if_pos (List.map_eq_nil_iff.mpr empty)]
    rfl
  · rw [if_neg empty, if_neg fun none => empty (List.map_eq_nil_iff.mp none), sorted]
    rfl

end KeyTable

section Restarts

variable {order order' : SortSlice Store.activeBefore} {column : Timestamps}
  {w' w₁ : KeyWorld KeyTable} {calls : List TimedCall} {start : Int → Int}

/-- A call with two readings does what it does with one, with another start. -/
theorem perform_restarts (timed : TimedCall) (whole : timed.Whole)
    (starts : start timed.now = timed.start) (same : w'.store = w₁.store.restart start) :
    (timed.perform (postgresKeys column order) w').1 =
        (timed.atOnce.perform (postgresKeys column order) w₁).1 ∧
      (timed.perform (postgresKeys column order) w').2.store =
        (timed.atOnce.perform (postgresKeys column order) w₁).2.store.restart start := by
  have exact := column.whole _ whole.1
  unfold TimedCall.start at starts
  unfold TimedCall.perform TimedCall.atOnce
  cases call : timed.call with
  | bind walletID keyID =>
    rw [call] at starts
    have stored : (column.stored ⟨walletID, keyID, timed.now, none, .current, timed.now⟩).restart
        start = column.stored ⟨walletID, keyID, timed.now, none, .current, timed.now⟩ := by
      simp [Timestamps.stored, KeyMapping.restart, exact, starts]
    have bound := @KeyTable.bindKeyMapping_restart start w₁.store column _ stored
    simp only [KeyService.bind, postgresKeys, same, bound]
    exact ⟨trivial, trivial⟩
  | rotate walletID newKeyID =>
    rw [call] at starts
    have rotated := @KeyTable.rotateKeyMapping_restart start w₁.store column timed.now timed.again
      (by rw [exact, column.whole _ whole.2.1]; exact starts) walletID newKeyID
      timed.svc.coolingPeriod
    dsimp only
    rw [(KeyService.rotate_store ..).1, (KeyService.rotate_store ..).2,
      (KeyService.rotate_store ..).1, (KeyService.rotate_store ..).2, same]
    have answer := congrArg Prod.fst rotated
    have store := congrArg Prod.snd rotated
    exact ⟨answer, store⟩
  | expireCooling =>
    have expired := @KeyTable.expireCooling_restart start w₁.store column timed.now
    simp only [KeyService.expireCooling, postgresKeys, same, expired]
    exact ⟨trivial, trivial⟩

/-- A sequence of calls with two readings does what it does with one, with other starts. -/
theorem after_restarts (whole : ∀ timed ∈ calls, timed.Whole)
    (starts : ∀ timed ∈ calls, start timed.now = timed.start)
    (same : w'.store = w₁.store.restart start) :
    w'.answers (postgresKeys column order) calls =
        w₁.answers (postgresKeys column order) (calls.map TimedCall.atOnce) ∧
      (w'.after (postgresKeys column order) calls).store =
        (w₁.after (postgresKeys column order)
          (calls.map TimedCall.atOnce)).store.restart start := by
  induction calls generalizing w' w₁ with
  | nil => exact ⟨rfl, same⟩
  | cons timed calls ih =>
    rw [List.forall_mem_cons] at whole starts
    obtain ⟨answer, next⟩ :=
      @perform_restarts order column w' w₁ start timed whole.1 starts.1 same
    obtain ⟨rest, final⟩ := ih whole.2 starts.2 next
    refine ⟨?_, final⟩
    rw [List.map_cons, KeyWorld.answers, KeyWorld.answers, answer, rest]

end Restarts

section Starts

variable {order : SortSlice Store.activeBefore} {w : KeyWorld Store} {calls : List TimedCall}

/-- Two calls are one, or one of them is made after both readings of the other one. -/
theorem Ticking.apart (ticking : Ticking calls) {first second : TimedCall} (member : first ∈ calls)
    (member' : second ∈ calls) (differ : first ≠ second) :
    first.again < second.now ∨ second.again < first.now := by
  have either : calls.Pairwise fun a b => a.again < b.now ∨ b.again < a.now :=
    ticking.advances.imp .inl
  have symmetric : Std.Symm fun a b : TimedCall => a.again < b.now ∨ b.again < a.now :=
    ⟨fun _ _ => Or.symm⟩
  exact either.forall member member' differ

/-- The first reading of a call tells which call it is. -/
theorem startOf_now (ticking : Ticking calls) (timed : TimedCall) (member : timed ∈ calls) :
    startOf calls timed.now = timed.start := by
  cases found : calls.find? (·.now = timed.now) with
  | none =>
    have unread := List.find?_eq_none.mp found timed member
    simp at unread
  | some other =>
    have same : other.now = timed.now := by simpa using List.find?_some found
    have one : other = timed := by
      by_contra differ
      have there := List.mem_of_find?_eq_some found
      have first := ticking.within timed member
      have second := ticking.within other there
      rcases ticking.apart there member differ with before | before <;> omega
    rw [startOf, found, one]
    rfl

/-- With one reading for each call, a start is the first reading. -/
theorem startOf_eq_self (still : ∀ timed ∈ calls, timed.again = timed.now) :
    startOf calls = id := by
  funext now
  cases found : calls.find? (·.now = now) with
  | none =>
    rw [startOf, found]
    rfl
  | some timed =>
    have same : timed.now = now := by simpa using List.find?_some found
    have again := still timed (List.mem_of_find?_eq_some found)
    have start : timed.start = now := by
      unfold TimedCall.start
      split
      · rw [again, same]
      · exact same
    rw [startOf, found]
    exact start

/-- Starts are in the order of the first readings. -/
theorem startOf_lt (ticking : Ticking calls) {first second : TimedCall} (member : first ∈ calls)
    (member' : second ∈ calls) (earlier : first.now < second.now) :
    startOf calls first.now < startOf calls second.now := by
  have within := ticking.within first member
  have within' := ticking.within second member'
  have differ : first ≠ second := by
    rintro rfl
    exact lt_irrefl _ earlier
  rw [startOf_now ticking first member, startOf_now ticking second member']
  have early : first.start ≤ first.again := by
    unfold TimedCall.start
    split <;> omega
  have late : second.now ≤ second.start := by
    unfold TimedCall.start
    split <;> omega
  rcases ticking.apart member member' differ with before | before <;> omega

/-- Every mapping was activated at the first reading of a call. -/
theorem after_activated (fresh : w.store.keyMappings = .empty)
    (passed : ∀ timed ∈ calls, timed.now ≠ 0)
    (walletID : UUID) : ∀ m ∈ (w.after (memstoreKeys order) calls).store.mappings walletID,
      ∃ timed ∈ calls, timed.now = m.activeFrom := by
  refine (@KeyWorld.after_induction Store (memstoreKeys order) (fun s => s.KeysOK ∧
    ∀ m ∈ s.mappings walletID, ∃ timed ∈ calls, timed.now = m.activeFrom) w calls
    ⟨.of_fresh fresh, ?_⟩ ?_).2
  · rw [Store.mappings_of_fresh fresh]
    exact fun m there => absurd there List.not_mem_nil
  · rintro timed member w ⟨ok, read⟩
    refine ⟨perform_keysOK timed ok, fun m there => ?_⟩
    have move := @perform_keysMove order w timed ok walletID
    have distinct := (ok walletID).distinct
    generalize w.store.mappings walletID = before at move read distinct
    generalize (timed.perform (memstoreKeys order) w).2.store.mappings walletID =
      after at move there
    cases move with
    | kept => exact read m there
    | bound =>
      rw [List.mem_singleton.mp there]
      exact ⟨timed, member, by simp [boundKey, passed timed member]⟩
    | rotated =>
      rcases rotated_origin distinct there with ⟨-, activated, -⟩ | ⟨old, here, rfl⟩
      · exact ⟨timed, member, activated.symm⟩
      · rw [coolKey_activeFrom]
        exact read old here
    | expired =>
      obtain ⟨old, here, rfl⟩ := List.mem_map.mp there
      rw [expireKey_activeFrom]
      exact read old here

/-- No two rows of a wallet start at the same time. -/
theorem KeysAgree.times {s : Store} {rows : KeyTable} (agree : KeysAgree s rows)
    (timed : ∀ walletID, ∃ last, KeysTimed last (s.mappings walletID)) :
    ∀ m ∈ rows.rows, ∀ m' ∈ rows.rows, m.walletID = m'.walletID → m.activeFrom = m'.activeFrom →
      m = m' := by
  intro m member m' member' owner same
  obtain ⟨last, apart⟩ := timed m.walletID
  exact apart.times m ((agree.same m).mp member) m' (owner ▸ (agree.same m').mp member') same

/-- The second readings keep the order of the starts. -/
theorem KeysAgree.increasing {s : Store} {rows : KeyTable} (agree : KeysAgree s rows)
    (ticking : Ticking calls) (activated : ∀ walletID, ∀ m ∈ s.mappings walletID,
      ∃ timed ∈ calls, timed.now = m.activeFrom) :
    ∀ m ∈ rows.rows, ∀ m' ∈ rows.rows, m.activeFrom < m'.activeFrom →
      startOf calls m.activeFrom < startOf calls m'.activeFrom := by
  intro m member m' member' earlier
  obtain ⟨first, called, read⟩ := activated m.walletID m ((agree.same m).mp member)
  obtain ⟨second, called', read'⟩ := activated m'.walletID m' ((agree.same m').mp member')
  rw [← read, ← read'] at earlier ⊢
  exact startOf_lt ticking called called' earlier

/-- The rows of a table that is started anew are those of `memstore`, started anew. -/
theorem KeysAgree.mem_restart {s : Store} {rows : KeyTable} (agree : KeysAgree s rows)
    (start : Int → Int) (m : KeyMapping) : m ∈ (rows.restart start).rows ↔
      ∃ old ∈ s.mappings m.walletID, m = old.restart start := by
  rw [KeyTable.restart, Table.mem_mapRows]
  constructor
  · rintro ⟨old, member, rfl⟩
    exact ⟨old, (agree.same old).mp member, rfl⟩
  · rintro ⟨old, member, rfl⟩
    exact ⟨old, (agree.mem_wallet.mpr member).1, rfl⟩

/-- A table that starts at the second readings lists the keys of `memstore` in the same order. -/
theorem KeysAgree.resolve_restart {s : Store} {rows : KeyTable} (agree : KeysAgree s rows)
    (ticking : Ticking calls)
    (timed : ∀ walletID, ∃ last, KeysTimed last (s.mappings walletID))
    (activated : ∀ walletID, ∀ m ∈ s.mappings walletID, ∃ timed ∈ calls, timed.now = m.activeFrom)
    (order order' : SortSlice Store.activeBefore) (walletID : UUID) (ms : List KeyMapping) :
    KeyTable.resolveActiveKey order' walletID (rows.restart (startOf calls)) = .ok ms ↔
      ∃ old, s.resolveActiveKey order walletID = .ok old ∧
        ms = old.map (KeyMapping.restart (startOf calls)) := by
  obtain ⟨last, apart⟩ := timed walletID
  have listed (old : List KeyMapping) := agree.resolve apart order order' old
  rw [KeyTable.resolveActiveKey_restart order' order' walletID (agree.times timed)
    (agree.increasing ticking activated)]
  refine Iff.trans ?_ (exists_congr fun old => and_congr_left fun _ => (listed old).symm)
  cases KeyTable.resolveActiveKey order' walletID rows with
  | error err => simp [Except.map]
  | ok found => simp [Except.map, eq_comm]

end Starts

section Agreement

variable {order order' : SortSlice Store.activeBefore} {w : KeyWorld Store} {w' : KeyWorld KeyTable}

/-- On a clock that advances by whole microseconds, and with cooling periods of whole microseconds,
`memstore` and the Postgres store accept the same calls of every sequence of `Bind`, `Rotate` and
`ExpireCooling`. After it the table holds the rows of `memstore`, with the start of a rotated key at
the second reading of its rotation, and `ResolveActive` returns these rows in the same order, or
fails on both. With one reading for each call the rows and the lists are the same. -/
theorem key_stores_agree (column : Timestamps) (fresh : w.store.keyMappings = .empty)
    (fresh' : w'.store = .empty) (calls : List TimedCall) (ticking : Ticking calls)
    (whole : ∀ timed ∈ calls, timed.Whole) :
    let memstore := w.after (memstoreKeys order) calls
    let postgres := w'.after (postgresKeys column order') calls
    (w.answers (memstoreKeys order) calls).map Except.isOk =
        (w'.answers (postgresKeys column order') calls).map Except.isOk ∧
      (∀ m, m ∈ postgres.store.rows ↔
        ∃ old ∈ memstore.store.mappings m.walletID, m = old.restart (startOf calls)) ∧
      (∀ walletID ms,
        KeyService.resolveActive (postgresKeys column order') walletID postgres = .ok ms ↔
        ∃ old, KeyService.resolveActive (memstoreKeys order) walletID memstore = .ok old ∧
          ms = old.map (KeyMapping.restart (startOf calls))) ∧
      ((∀ timed ∈ calls, timed.again = timed.now) →
        (∀ m, m ∈ postgres.store.rows ↔ m ∈ memstore.store.mappings m.walletID) ∧
        ∀ walletID ms, KeyService.resolveActive (postgresKeys column order') walletID postgres =
          .ok ms ↔ KeyService.resolveActive (memstoreKeys order) walletID memstore = .ok ms) := by
  intro memstore postgres
  have agree : KeysAgree w.store w'.store := by
    refine ⟨.of_fresh fresh, fun m => ?_⟩
    rw [Store.mappings_of_fresh fresh, fresh']
    exact Iff.rfl
  -- the table that the calls leave with one reading each agrees with `memstore`
  obtain ⟨accepted, final⟩ :=
    @after_agrees order order' column w w' calls ticking.passed whole agree
  have timed (walletID : UUID) := @after_keysTimed order w calls fresh ticking walletID
  have activated (walletID : UUID) := @after_activated order w calls fresh ticking.passed walletID
  -- and the table with two readings is that one with other starts
  have start : w'.store = w'.store.restart (startOf calls) := by
    rw [fresh']
    rfl
  obtain ⟨answers, restarted⟩ :=
    @after_restarts order' column w' w' calls _ whole (startOf_now ticking) start
  have rows (m : KeyMapping) : m ∈ postgres.store.rows ↔
      ∃ old ∈ memstore.store.mappings m.walletID, m = old.restart (startOf calls) := by
    rw [restarted]
    exact final.mem_restart _ m
  have resolved (walletID : UUID) (ms : List KeyMapping) :
      KeyService.resolveActive (postgresKeys column order') walletID postgres = .ok ms ↔
        ∃ old, KeyService.resolveActive (memstoreKeys order) walletID memstore = .ok old ∧
          ms = old.map (KeyMapping.restart (startOf calls)) := by
    simp only [KeyService.resolveActive_eq_ok]
    show KeyTable.resolveActiveKey order' walletID postgres.store = .ok ms ↔
      ∃ old, memstore.store.resolveActiveKey order walletID = .ok old ∧ _
    rw [restarted]
    exact final.resolve_restart ticking timed activated order order' walletID ms
  refine ⟨by rw [accepted, answers], rows, resolved, fun still => ?_⟩
  have same : KeyMapping.restart (startOf calls) = id := by
    rw [startOf_eq_self still]
    rfl
  refine ⟨fun m => ?_, fun walletID ms => ?_⟩
  · rw [rows, same]
    simp
  · rw [resolved, same]
    simp

end Agreement

/-- A call to a service with a cooling period of five microseconds. -/
def sampleMicroCall (call : KeyCall) (now again : Int) : TimedCall :=
  ⟨⟨5000, Int.repr, true⟩, call, now, again⟩

/-- The table after a history, from an empty one. -/
def keyTableHistory (calls : List TimedCall) : KeyWorld KeyTable :=
  KeyWorld.after (postgresKeys .nearest (.stable _)) ⟨.empty, []⟩ calls

/-- A binding, a rotation, a refused binding, a rotation back and a sweep. -/
def sampleSweep : List TimedCall :=
  [sampleMicroCall (.bind sampleKeyWallet "a") 1000 2000,
    sampleMicroCall (.rotate sampleKeyWallet "b") 10000 11000,
    sampleMicroCall (.bind sampleKeyWallet "c") 20000 21000,
    sampleMicroCall (.rotate sampleKeyWallet "a") 30000 31000,
    sampleMicroCall .expireCooling 40000 41000]

/-- The Postgres store ends with two rows, and `memstore` with the same ones, started earlier. -/
theorem key_stores_agree_swept :
    (KeyWorld.answers (postgresKeys .nearest (.stable _)) ⟨.empty, []⟩ sampleSweep).map
        Except.isOk = [true, true, false, true, true] ∧
      (keyTableHistory sampleSweep).store.rows.map
        (fun m => (m.keyID, m.activeFrom, m.rotationState)) =
          [("a", 31000, .current), ("b", 11000, .retired)] ∧
      ∀ m, m ∈ (keyTableHistory sampleSweep).store.rows ↔
        ∃ old ∈ (keyHistory sampleSweep).store.mappings m.walletID,
          m = old.restart (startOf sampleSweep) := by
  refine ⟨by decide +kernel, by decide +kernel, ?_⟩
  exact (@key_stores_agree (.stable _) (.stable _) ⟨{}, []⟩ ⟨.empty, []⟩ .nearest
    rfl rfl sampleSweep
    ⟨by decide +kernel, by decide +kernel, by decide +kernel⟩ (by decide +kernel)).2.1

/-- A binding and a rotation whose transaction begins a microsecond after its first reading. -/
def sampleTwoReadings : List TimedCall :=
  [sampleMicroCall (.bind sampleKeyWallet "a") 1000 1000,
    sampleMicroCall (.rotate sampleKeyWallet "b") 10000 11000]

/-- A binding between two microseconds. -/
def sampleNanosecond : List TimedCall := [sampleMicroCall (.bind sampleKeyWallet "a") 1001 1001]

/-- On a clock that advances, the rows of the two stores differ: where a rotation reads the clock
twice, and where a reading is no whole microsecond. -/
theorem key_stores_differ :
    (Ticking sampleTwoReadings ∧
      ((keyHistory sampleTwoReadings).store.mappings sampleKeyWallet).map
        (fun m => (m.keyID, m.activeFrom)) = [("a", 1000), ("b", 10000)] ∧
      (keyTableHistory sampleTwoReadings).store.rows.map (fun m => (m.keyID, m.activeFrom)) =
        [("a", 1000), ("b", 11000)] ∧
      ¬ ∀ m, m ∈ (keyTableHistory sampleTwoReadings).store.rows ↔
        m ∈ (keyHistory sampleTwoReadings).store.mappings m.walletID) ∧
    Ticking sampleNanosecond ∧
      ((keyHistory sampleNanosecond).store.mappings sampleKeyWallet).map
        (fun m => (m.keyID, m.activeFrom)) = [("a", 1001)] ∧
      (keyTableHistory sampleNanosecond).store.rows.map (fun m => (m.keyID, m.activeFrom)) =
        [("a", 1000)] := by
  have differ : (⟨sampleKeyWallet, "b", 11000, none, .current, 11000⟩ : KeyMapping) ∈
        (keyTableHistory sampleTwoReadings).store.rows ∧
      (⟨sampleKeyWallet, "b", 11000, none, .current, 11000⟩ : KeyMapping) ∉
        (keyHistory sampleTwoReadings).store.mappings sampleKeyWallet := by decide +kernel
  refine ⟨⟨⟨by decide, by decide, by decide +kernel⟩, by decide +kernel, by decide +kernel, ?_⟩,
    ⟨by decide, by decide, by decide +kernel⟩, by decide +kernel, by decide +kernel⟩
  intro same
  exact differ.2 ((same _).mp differ.1)

end WalletManagement
