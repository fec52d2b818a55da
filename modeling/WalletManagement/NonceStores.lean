import WalletManagement.MemStoreRows
import WalletManagement.Scripted

/-!
# Two stores for nonces

The Postgres implementation of the methods for nonces, as its statements act on the table `nonces`
under its foreign key and the type of its column `version`, compared with `memstore`. A row of the
table is the row of `memstore` with another version: a rollback does not count there. The table
refuses some calls that `memstore` accepts. A first reservation needs the row of its wallet;
`version` is an `INT` that counts the reservations of a row, so that the last one it can count is
number 2147483647; and a rollback adds one to a parameter whose type the server chooses.
-/

namespace WalletManagement

open Data Go

/-! ## The Postgres store -/

/-- The table `nonces`, under its primary key. -/
abbrev NonceTable : Type := Table fun n : Nonce => (n.walletID, n.chain)

/-- What the statements depend on besides the table. -/
structure NonceServer where
  /-- The rows of `wallets`, which `wallet_id` references. -/
  wallets : UUID → Bool
  /-- The server evaluates `$3+1` for a value of `$3`. The statement gives the parameter no type: it
  takes that of the literal. -/
  successor : Int → Bool

/-- The range of `INT`. -/
def InInt32 (n : Int) : Prop := -2 ^ 31 ≤ n ∧ n < 2 ^ 31

instance (n : Int) : Decidable (InInt32 n) := inferInstanceAs (Decidable (_ ∧ _))

namespace NonceTable

/-- The error of a value that its column or parameter does not hold. -/
def outOfRange (n : Int) : Err :=
  ⟨"pq: value \"" ++ n.repr ++ "\" is out of range for type integer", none⟩

/-- The error of a nonce row without a wallet. -/
def noWallet : Err :=
  ⟨"pq: insert or update on table \"nonces\" violates foreign key constraint " ++
    "\"nonces_wallet_id_fkey\"", none⟩

/-- `GetNonce`. -/
def getNonce (walletID : UUID) (chain : Chain) (rows : NonceTable) : Nonce :=
  (rows.get (walletID, chain)).getD { walletID, chain }

/-- `IncrementPendingNonce`. A failed statement ends the transaction without a change. -/
def incrementPendingNonce (server : NonceServer) (walletID : UUID) (chain : Chain)
    (rows : NonceTable) : Except Err (Int × Int) × NonceTable :=
  match rows.get (walletID, chain) with
  | none =>
    if server.wallets walletID then (.ok (0, 1), rows.put ⟨walletID, chain, 1, 0, 1⟩)
    else (.error noWallet, rows)
  | some row =>
    let version := wrapInt64 (row.version + 1)
    if InInt32 version then
      (.ok (row.pendingNonce, version),
        rows.put { row with pendingNonce := wrapInt64 (row.pendingNonce + 1), version })
    else (.error (outOfRange version), rows)

/-- `AdvanceBroadcastNonce`: an `UPDATE` changes nothing when there is no row. -/
def advanceBroadcastNonce (walletID : UUID) (chain : Chain) (nonce : Int) (rows : NonceTable) :
    NonceTable :=
  match rows.get (walletID, chain) with
  | none => rows
  | some row =>
    rows.put { row with broadcastNonce := max row.broadcastNonce (wrapInt64 (nonce + 1)) }

/-- `RollbackPendingNonce`: the number of rows the `UPDATE` affected. -/
def rollbackPendingNonce (server : NonceServer) (walletID : UUID) (chain : Chain) (target : Int)
    (rows : NonceTable) : Except Err Int × NonceTable :=
  if server.successor target then
    match rows.get (walletID, chain) with
    | none => (.ok 0, rows)
    | some row =>
      if row.pendingNonce = target + 1 then
        (.ok 1, rows.put { row with pendingNonce := target })
      else (.ok 0, rows)
  else (.error (outOfRange target), rows)

end NonceTable

/-! ## Calls -/

/-- The methods of `storage.Store` for nonces, over the state of an implementation. -/
structure NonceStore (σ : Type) where
  getNonce : UUID → Chain → σ → Except Err Nonce
  incrementPendingNonce : UUID → Chain → σ → Except Err (Int × Int) × σ
  advanceBroadcastNonce : UUID → Chain → Int → σ → Except Err Unit × σ
  rollbackPendingNonce : UUID → Chain → Int → σ → Except Err Int × σ

/-- The methods of `memstore`. -/
def memstoreNonces : NonceStore Store where
  getNonce walletID chain s := .ok (s.nonce walletID chain)
  incrementPendingNonce walletID chain s :=
    let (answer, s') := s.incrementPendingNonce walletID chain
    (.ok answer, s')
  advanceBroadcastNonce walletID chain nonce s :=
    (.ok (), s.advanceBroadcastNonce walletID chain nonce)
  rollbackPendingNonce walletID chain target s :=
    let (answer, s') := s.rollbackPendingNonce walletID chain target
    (.ok answer, s')

/-- The methods of the Postgres store. -/
def postgresNonces (server : NonceServer) : NonceStore NonceTable where
  getNonce walletID chain rows := .ok (rows.getNonce walletID chain)
  incrementPendingNonce walletID chain rows := rows.incrementPendingNonce server walletID chain
  advanceBroadcastNonce walletID chain nonce rows :=
    (.ok (), rows.advanceBroadcastNonce walletID chain nonce)
  rollbackPendingNonce walletID chain target rows :=
    rows.rollbackPendingNonce server walletID chain target

/-- A call of one of the methods. -/
inductive NonceRequest where
  | get (walletID : UUID) (chain : Chain)
  | increment (walletID : UUID) (chain : Chain)
  | advance (walletID : UUID) (chain : Chain) (nonce : Int)
  | rollback (walletID : UUID) (chain : Chain) (target : Int)
  deriving DecidableEq

/-- What a call returns, without the version of the row. -/
inductive NonceAnswer where
  | nonces (pending broadcast : Int)
  | reserved (nonce : Int)
  | advanced
  | rolledBack (count : Int)
  | failed (err : Err)
  deriving DecidableEq

section Requests

variable {σ : Type}

/-- The answer of a method that may fail. -/
def NonceAnswer.of {α : Type} (answer : α → NonceAnswer) : Except Err α → NonceAnswer
  | .ok value => answer value
  | .error err => .failed err

/-- A call on a store. -/
def NonceRequest.perform (db : NonceStore σ) (s : σ) : NonceRequest → NonceAnswer × σ
  | .get walletID chain =>
    (.of (fun row => .nonces row.pendingNonce row.broadcastNonce) (db.getNonce walletID chain s), s)
  | .increment walletID chain =>
    let (answer, s') := db.incrementPendingNonce walletID chain s
    (.of (fun value => .reserved value.1) answer, s')
  | .advance walletID chain nonce =>
    let (answer, s') := db.advanceBroadcastNonce walletID chain nonce s
    (.of (fun _ => .advanced) answer, s')
  | .rollback walletID chain target =>
    let (answer, s') := db.rollbackPendingNonce walletID chain target s
    (.of .rolledBack answer, s')

/-- The answers of a sequence of calls. -/
def NonceStore.answers (db : NonceStore σ) : σ → List NonceRequest → List NonceAnswer
  | _, [] => []
  | s, request :: rest => (request.perform db s).1 :: db.answers (request.perform db s).2 rest

/-- Every call of a sequence meets a condition on the calls before it, the last one first. -/
def EachAfter (condition : List NonceRequest → NonceRequest → Prop) :
    List NonceRequest → List NonceRequest → Prop
  | _, [] => True
  | done, request :: rest =>
    condition done request ∧ EachAfter condition (request :: done) rest

end Requests

/-- The nonces in arguments are small, and a broadcast nonce is advanced only after a reservation
of the same wallet and chain. -/
def NonceRequest.Sensible (done : List NonceRequest) : NonceRequest → Prop
  | .get _ _ => True
  | .increment _ _ => True
  | .advance walletID chain nonce =>
    (-2 ^ 62 < nonce ∧ nonce < 2 ^ 62) ∧ .increment walletID chain ∈ done
  | .rollback _ _ target => -2 ^ 62 < target ∧ target < 2 ^ 62

/-- The table accepts the call: a reservation is for a wallet that exists and not number 2^31 of its
row, and the server evaluates the condition of a rollback. -/
def NonceRequest.Accepted (server : NonceServer) (done : List NonceRequest) :
    NonceRequest → Prop
  | .get _ _ => True
  | .increment walletID chain =>
    server.wallets walletID = true ∧ done.count (.increment walletID chain) + 1 < 2 ^ 31
  | .advance _ _ _ => True
  | .rollback _ _ target => server.successor target = true

/-! ## Agreement -/

/-- The rows are the same but for the version, which counts the reservations in the table. -/
structure NoncesAgree (server : NonceServer) (s : Store) (rows : NonceTable)
    (done : List NonceRequest) : Prop where
  /-- A row of the table is that of `memstore` with the number of its reservations. -/
  same : ∀ walletID chain, rows.get (walletID, chain) =
    (s.nonces.get (nonceKey walletID chain)).map fun row =>
      { row with version := done.count (.increment walletID chain) }
  /-- The rows are those that were reserved from. -/
  stored : ∀ walletID chain, (s.nonces.get (nonceKey walletID chain)).isSome ↔
    .increment walletID chain ∈ done
  /-- Their wallets exist. -/
  known : ∀ walletID chain, .increment walletID chain ∈ done → server.wallets walletID = true
  /-- Every reservation was counted. -/
  counted : ∀ walletID chain, done.count (.increment walletID chain) < 2 ^ 31

namespace NoncesAgree

variable {server : NonceServer} {s : Store} {rows : NonceTable} {done : List NonceRequest}
  {walletID : UUID} {chain : Chain}

/-- The table has no row where `memstore` has none. -/
theorem get_eq_none (agree : NoncesAgree server s rows done)
    (absent : s.nonces.get (nonceKey walletID chain) = none) :
    rows.get (walletID, chain) = none := by
  rw [agree.same, absent, Option.map_none]

/-- The row of the table where `memstore` has one. -/
theorem get_eq_some (agree : NoncesAgree server s rows done) {row : Nonce}
    (found : s.nonces.get (nonceKey walletID chain) = some row) :
    rows.get (walletID, chain) =
      some { row with version := done.count (.increment walletID chain) } := by
  rw [agree.same, found, Option.map_some]

/-- A call that writes nothing and reserves nothing. -/
theorem idle (agree : NoncesAgree server s rows done) {request : NonceRequest}
    (other : ∀ walletID chain, request ≠ .increment walletID chain) :
    NoncesAgree server s rows (request :: done) := by
  have count (walletID : UUID) (chain : Chain) : (request :: done).count
      (.increment walletID chain) = done.count (.increment walletID chain) :=
    List.count_cons_of_ne (other walletID chain)
  have member (walletID : UUID) (chain : Chain) :
      .increment walletID chain ∈ request :: done ↔ .increment walletID chain ∈ done := by
    rw [List.mem_cons, or_iff_right (other walletID chain).symm]
  refine ⟨fun walletID chain => ?_, fun walletID chain => ?_, fun walletID chain there => ?_,
    fun walletID chain => ?_⟩
  · rw [count]
    exact agree.same walletID chain
  · rw [member]
    exact agree.stored walletID chain
  · exact agree.known walletID chain ((member walletID chain).mp there)
  · rw [count]
    exact agree.counted walletID chain

/-- A call that writes a row on both sides. -/
theorem write (agree : NoncesAgree server s rows done) {request : NonceRequest} {row : Nonce}
    {version : Int} (others : ∀ walletID chain, ¬(row.walletID = walletID ∧ row.chain = chain) →
      request ≠ .increment walletID chain)
    (reserved : .increment row.walletID row.chain ∈ request :: done)
    (wallet : server.wallets row.walletID = true)
    (counted : (request :: done).count (.increment row.walletID row.chain) < 2 ^ 31)
    (count : version = (request :: done).count (.increment row.walletID row.chain)) :
    NoncesAgree server { s with nonces := s.nonces.put row } (rows.put { row with version })
      (request :: done) := by
  have memstore (walletID : UUID) (chain : Chain)
      (other : ¬(row.walletID = walletID ∧ row.chain = chain)) :
      (s.nonces.put row).get (nonceKey walletID chain) =
        s.nonces.get (nonceKey walletID chain) :=
    s.nonces.get_put_of_ne fun equal : row.key = _ => other (nonceKey_inj equal)
  refine ⟨fun walletID chain => ?_, fun walletID chain => ?_, fun walletID chain there => ?_,
    fun walletID chain => ?_⟩
  all_goals by_cases here : row.walletID = walletID ∧ row.chain = chain
  · obtain ⟨rfl, rfl⟩ := here
    have written : (s.nonces.put row).get (nonceKey row.walletID row.chain) = some row :=
      s.nonces.get_put_self row
    rw [written, Option.map_some, ← count]
    exact rows.get_put_self { row with version }
  · have table : (rows.put { row with version }).get (walletID, chain) =
        rows.get (walletID, chain) :=
      rows.get_put_of_ne fun equal => here (Prod.mk.inj equal)
    rw [table, memstore walletID chain here, List.count_cons_of_ne (others walletID chain here)]
    exact agree.same walletID chain
  · obtain ⟨rfl, rfl⟩ := here
    exact iff_of_true (Option.isSome_of_mem (s.nonces.get_put_self row)) reserved
  · rw [memstore walletID chain here, List.mem_cons,
      or_iff_right (others walletID chain here).symm]
    exact agree.stored walletID chain
  · rw [← here.1]
    exact wallet
  · exact agree.known walletID chain
      ((List.mem_cons.mp there).resolve_left (others walletID chain here).symm)
  · rw [← here.1, ← here.2]
    exact counted
  · rw [List.count_cons_of_ne (others walletID chain here)]
    exact agree.counted walletID chain

/-- A call that writes a row that was reserved from, and reserves nothing. -/
theorem rewrite (agree : NoncesAgree server s rows done) {request : NonceRequest} {row : Nonce}
    (other : ∀ walletID chain, request ≠ .increment walletID chain)
    (reserved : .increment row.walletID row.chain ∈ done) :
    NoncesAgree server { s with nonces := s.nonces.put row }
      (rows.put { row with version := done.count (.increment row.walletID row.chain) })
      (request :: done) := by
  have count : (request :: done).count (.increment row.walletID row.chain) =
      done.count (.increment row.walletID row.chain) := List.count_cons_of_ne (other _ _)
  have counted := agree.counted row.walletID row.chain
  apply agree.write (fun walletID chain _ => other walletID chain)
    (List.mem_cons_of_mem _ reserved) (agree.known _ _ reserved)
  · rwa [count]
  · rw [count]

/-- Both stores read the same nonces. -/
theorem get (agree : NoncesAgree server s rows done) :
    (rows.getNonce walletID chain).pendingNonce = (s.nonce walletID chain).pendingNonce ∧
      (rows.getNonce walletID chain).broadcastNonce = (s.nonce walletID chain).broadcastNonce := by
  rw [NonceTable.getNonce, Store.nonce]
  cases found : s.nonces.get (nonceKey walletID chain) with
  | none =>
    rw [agree.get_eq_none found]
    exact ⟨rfl, rfl⟩
  | some row =>
    rw [agree.get_eq_some found]
    exact ⟨rfl, rfl⟩

/-- Nothing was reserved where `memstore` has no row. -/
theorem count_eq_zero (agree : NoncesAgree server s rows done)
    (absent : s.nonces.get (nonceKey walletID chain) = none) :
    done.count (.increment walletID chain) = 0 := by
  rw [List.count_eq_zero, ← agree.stored, absent]
  exact Bool.false_ne_true

/-- Both stores reserve the same nonce. -/
theorem increment (agree : NoncesAgree server s rows done)
    (wallet : server.wallets walletID = true)
    (room : done.count (.increment walletID chain) + 1 < 2 ^ 31) :
    ∃ version, (rows.incrementPendingNonce server walletID chain).1 =
        .ok ((s.nonce walletID chain).pendingNonce, version) ∧
      NoncesAgree server (s.incrementPendingNonce walletID chain).2
        (rows.incrementPendingNonce server walletID chain).2
        (.increment walletID chain :: done) := by
  have count : (.increment walletID chain :: done).count (.increment walletID chain) =
      done.count (.increment walletID chain) + 1 := List.count_cons_self
  have others (w : UUID) (c : Chain) (other : ¬(walletID = w ∧ chain = c)) :
      NonceRequest.increment walletID chain ≠ .increment w c := fun equal =>
    other (NonceRequest.increment.inj equal)
  cases found : s.nonces.get (nonceKey walletID chain) with
  | none =>
    have zero := agree.count_eq_zero found
    have here : s.nonce walletID chain = { walletID, chain } := by rw [Store.nonce, found]; rfl
    have memstore : (s.incrementPendingNonce walletID chain).2 =
        { s with nonces := s.nonces.put ⟨walletID, chain, 1, 0, 1⟩ } := by
      rw [Store.incrementPendingNonce, here]
      rfl
    have table : rows.incrementPendingNonce server walletID chain =
        (.ok (0, 1), rows.put ⟨walletID, chain, 1, 0, 1⟩) := by
      simp only [NonceTable.incrementPendingNonce, agree.get_eq_none found, if_pos wallet]
    rw [memstore, table, here]
    refine ⟨1, rfl, agree.write others List.mem_cons_self wallet (count.trans_lt room) ?_⟩
    rw [count, zero]
    rfl
  | some row =>
    have key : row.key = nonceKey walletID chain := Table.key_of_get found
    obtain ⟨rfl, rfl⟩ := nonceKey_inj key
    have here : s.nonce row.walletID row.chain = row := by rw [Store.nonce, found]; rfl
    have fits : wrapInt64 (done.count (.increment row.walletID row.chain) + 1) =
        done.count (.increment row.walletID row.chain) + 1 :=
      wrapInt64_of_inInt64 ⟨by omega, by omega⟩
    have inside : InInt32 (done.count (.increment row.walletID row.chain) + 1) :=
      ⟨by omega, by omega⟩
    have table : rows.incrementPendingNonce server row.walletID row.chain =
        (.ok (row.pendingNonce, done.count (.increment row.walletID row.chain) + 1),
          rows.put { row with
            pendingNonce := wrapInt64 (row.pendingNonce + 1)
            version := done.count (.increment row.walletID row.chain) + 1 }) := by
      simp only [NonceTable.incrementPendingNonce, agree.get_eq_some found, fits, if_pos inside]
    rw [Store.incrementPendingNonce, here, table]
    refine ⟨_, rfl, agree.write others List.mem_cons_self wallet (count.trans_lt room) ?_⟩
    rw [count, Nat.cast_succ]

/-- Both stores advance the broadcast nonce of a row that was reserved from. -/
theorem advance (agree : NoncesAgree server s rows done) {nonce : Int}
    (reserved : .increment walletID chain ∈ done) :
    NoncesAgree server (s.advanceBroadcastNonce walletID chain nonce)
      (rows.advanceBroadcastNonce walletID chain nonce)
      (.advance walletID chain nonce :: done) := by
  obtain ⟨row, found⟩ := Option.isSome_iff_exists.mp ((agree.stored walletID chain).mpr reserved)
  have key : row.key = nonceKey walletID chain := Table.key_of_get found
  obtain ⟨rfl, rfl⟩ := nonceKey_inj key
  have here : s.nonce row.walletID row.chain = row := by rw [Store.nonce, found]; rfl
  have greatest : (if row.broadcastNonce < wrapInt64 (nonce + 1) then
      { row with broadcastNonce := wrapInt64 (nonce + 1) } else row) =
      { row with broadcastNonce := max row.broadcastNonce (wrapInt64 (nonce + 1)) } := by
    split
    · rename_i lower
      rw [max_eq_right lower.le]
    · rename_i higher
      rw [max_eq_left (not_lt.mp higher)]
  have table : rows.advanceBroadcastNonce row.walletID row.chain nonce = rows.put { row with
      broadcastNonce := max row.broadcastNonce (wrapInt64 (nonce + 1))
      version := done.count (.increment row.walletID row.chain) } := by
    simp only [NonceTable.advanceBroadcastNonce, agree.get_eq_some found]
  simp only [Store.advanceBroadcastNonce, here, greatest, table]
  exact agree.rewrite (fun _ _ => by simp) reserved

/-- Both stores roll back the same number of rows. -/
theorem rollback (agree : NoncesAgree server s rows done) {target : Int}
    (evaluated : server.successor target = true) (low : -2 ^ 62 < target)
    (high : target < 2 ^ 62) :
    (rows.rollbackPendingNonce server walletID chain target).1 =
        .ok (s.rollbackPendingNonce walletID chain target).1 ∧
      NoncesAgree server (s.rollbackPendingNonce walletID chain target).2
        (rows.rollbackPendingNonce server walletID chain target).2
        (.rollback walletID chain target :: done) := by
  have successor : wrapInt64 (target + 1) = target + 1 :=
    wrapInt64_of_inInt64 ⟨by omega, by omega⟩
  have unchanged : NoncesAgree server s rows (.rollback walletID chain target :: done) :=
    agree.idle fun _ _ => by simp
  cases found : s.nonces.get (nonceKey walletID chain) with
  | none =>
    simp only [NonceTable.rollbackPendingNonce, Store.rollbackPendingNonce, found,
      agree.get_eq_none found, if_pos evaluated]
    exact ⟨trivial, unchanged⟩
  | some row =>
    have reserved := (agree.stored walletID chain).mp (Option.isSome_of_mem found)
    simp only [NonceTable.rollbackPendingNonce, Store.rollbackPendingNonce, found,
      agree.get_eq_some found, if_pos evaluated, successor]
    by_cases last : row.pendingNonce = target + 1
    · have key : row.key = nonceKey walletID chain := Table.key_of_get found
      obtain ⟨rfl, rfl⟩ := nonceKey_inj key
      simp only [if_pos last]
      exact ⟨trivial, agree.rewrite (fun _ _ => by simp) reserved⟩
    · simp only [if_neg last]
      exact ⟨trivial, unchanged⟩

/-- A call that the table accepts returns the same, and leaves stores that agree. -/
theorem perform (agree : NoncesAgree server s rows done) {request : NonceRequest}
    (sensible : request.Sensible done) (accepted : request.Accepted server done) :
    (request.perform memstoreNonces s).1 = (request.perform (postgresNonces server) rows).1 ∧
      NoncesAgree server (request.perform memstoreNonces s).2
        (request.perform (postgresNonces server) rows).2 (request :: done) := by
  cases request with
  | get walletID chain =>
    refine ⟨?_, agree.idle fun _ _ => by simp⟩
    show NonceAnswer.nonces _ _ = NonceAnswer.nonces _ _
    rw [agree.get.1, agree.get.2]
  | increment walletID chain =>
    obtain ⟨version, reserved, after⟩ := agree.increment accepted.1 accepted.2
    refine ⟨?_, after⟩
    show NonceAnswer.reserved _ = NonceAnswer.of _ (rows.incrementPendingNonce ..).1
    rw [reserved]
    rfl
  | advance walletID chain nonce => exact ⟨rfl, agree.advance sensible.2⟩
  | rollback walletID chain target =>
    obtain ⟨count, after⟩ := agree.rollback accepted sensible.1 sensible.2
    refine ⟨?_, after⟩
    show NonceAnswer.rolledBack _ = NonceAnswer.of _ (rows.rollbackPendingNonce ..).1
    rw [count]
    rfl

/-- A reservation that the table does not accept fails there. -/
theorem increment_refused (agree : NoncesAgree server s rows done)
    (refused : ¬(NonceRequest.increment walletID chain).Accepted server done) :
    ∃ err, (rows.incrementPendingNonce server walletID chain).1 = .error err := by
  cases found : s.nonces.get (nonceKey walletID chain) with
  | none =>
    have zero := agree.count_eq_zero found
    have unknown : ¬server.wallets walletID = true := fun wallet =>
      refused ⟨wallet, by rw [zero]; decide⟩
    simp only [NonceTable.incrementPendingNonce, agree.get_eq_none found, if_neg unknown]
    exact ⟨_, rfl⟩
  | some row =>
    -- The wallet exists, so this is reservation number 2^31.
    have wallet := agree.known walletID chain
      ((agree.stored walletID chain).mp (Option.isSome_of_mem found))
    have counted := agree.counted walletID chain
    have full : ¬done.count (.increment walletID chain) + 1 < 2 ^ 31 := fun room =>
      refused ⟨wallet, room⟩
    have fits : wrapInt64 (done.count (.increment walletID chain) + 1) =
        done.count (.increment walletID chain) + 1 :=
      wrapInt64_of_inInt64 ⟨by omega, by omega⟩
    have outside : ¬InInt32 (done.count (.increment walletID chain) + 1) := by
      unfold InInt32
      omega
    simp only [NonceTable.incrementPendingNonce, agree.get_eq_some found, fits, if_neg outside]
    exact ⟨_, rfl⟩

/-- A call that the table does not accept fails there, and not in `memstore`. -/
theorem perform_refused (agree : NoncesAgree server s rows done) {request : NonceRequest}
    (refused : ¬request.Accepted server done) :
    (request.perform memstoreNonces s).1 ≠ (request.perform (postgresNonces server) rows).1 := by
  cases request with
  | get walletID chain => exact absurd trivial refused
  | increment walletID chain =>
    obtain ⟨err, failed⟩ := agree.increment_refused refused
    show NonceAnswer.reserved _ ≠ NonceAnswer.of _ (rows.incrementPendingNonce ..).1
    rw [failed]
    exact NonceAnswer.noConfusion
  | advance walletID chain nonce => exact absurd trivial refused
  | rollback walletID chain target =>
    have failed : rows.rollbackPendingNonce server walletID chain target =
        (.error (NonceTable.outOfRange target), rows) := if_neg refused
    show NonceAnswer.rolledBack _ ≠ NonceAnswer.of _ (rows.rollbackPendingNonce ..).1
    rw [failed]
    exact NonceAnswer.noConfusion

/-- Stores that agree answer a sequence alike exactly if the table accepts every call of it. -/
theorem answers_eq_iff (agree : NoncesAgree server s rows done) {requests : List NonceRequest}
    (sensible : EachAfter NonceRequest.Sensible done requests) :
    memstoreNonces.answers s requests = (postgresNonces server).answers rows requests ↔
      EachAfter (NonceRequest.Accepted server) done requests := by
  induction requests generalizing s rows done with
  | nil => exact iff_of_true rfl trivial
  | cons request rest ih =>
    obtain ⟨first, later⟩ := sensible
    rw [NonceStore.answers, NonceStore.answers, List.cons.injEq, EachAfter]
    by_cases accepted : request.Accepted server done
    · obtain ⟨answered, after⟩ := agree.perform first accepted
      rw [and_iff_right answered, and_iff_right accepted]
      exact ih after later
    · have refused := agree.perform_refused accepted
      exact iff_of_false (fun both => refused both.1) fun both => accepted both.1

end NoncesAgree

/-- Empty stores agree. -/
theorem noncesAgree_of_empty (server : NonceServer) {s : Store} (fresh : s.nonces = .empty) :
    NoncesAgree server s .empty [] := by
  refine ⟨fun walletID chain => ?_, fun walletID chain => ?_, fun walletID chain there => ?_,
    fun walletID chain => ?_⟩
  · rw [fresh]
    rfl
  · rw [fresh]
    simp
  · cases there
  · exact Nat.two_pow_pos 31

/-- From empty tables, `memstore` and the Postgres store return the same reserved nonces, rollback
counts, pending nonces and broadcast nonces for a sequence of calls, with small nonces in arguments
and an advance only after a reservation of its row, exactly if every reservation is for a wallet
that exists, none is number 2^31 of its row, and the server evaluates the condition of every
rollback. -/
theorem nonce_stores_agree_iff (server : NonceServer) {s : Store} (fresh : s.nonces = .empty)
    {requests : List NonceRequest} (sensible : EachAfter NonceRequest.Sensible [] requests) :
    memstoreNonces.answers s requests = (postgresNonces server).answers .empty requests ↔
      EachAfter (NonceRequest.Accepted server) [] requests :=
  (noncesAgree_of_empty server fresh).answers_eq_iff sensible

/-- The server of a wallet, with `$3` of the type of the literal. -/
def sampleServer : NonceServer :=
  ⟨fun walletID => walletID = sampleID 1, fun target => InInt32 target⟩

/-- Two reservations, an advance, a rollback of the last nonce, and another one. -/
def sampleRequests : List NonceRequest :=
  [.increment (sampleID 1) .ethereum, .increment (sampleID 1) .ethereum,
    .advance (sampleID 1) .ethereum 0, .rollback (sampleID 1) .ethereum 1,
    .rollback (sampleID 1) .ethereum 5, .get (sampleID 1) .ethereum]

/-- The stores agree on what happened. -/
theorem nonce_stores_agree_iff_sample :
    (postgresNonces sampleServer).answers .empty sampleRequests =
        [.reserved 0, .reserved 1, .advanced, .rolledBack 1, .rolledBack 0, .nonces 1 1] ∧
      memstoreNonces.answers {} sampleRequests =
        (postgresNonces sampleServer).answers .empty sampleRequests := by
  refine ⟨by decide +kernel, (nonce_stores_agree_iff sampleServer rfl ?_).mpr ?_⟩
  · simp [sampleRequests, EachAfter, NonceRequest.Sensible]
  · simp [sampleRequests, EachAfter, NonceRequest.Accepted, sampleServer, InInt32]

/-! ## What the table refuses -/

section Refused

variable {walletID : UUID} {chain : Chain} {server : NonceServer} {done : List NonceRequest}

/-- Reservations are sensible. -/
theorem sensible_replicate (count : Nat) : EachAfter NonceRequest.Sensible done
    (List.replicate count (.increment walletID chain)) := by
  induction count generalizing done with
  | zero => trivial
  | succ count ih => exact ⟨trivial, ih⟩

/-- The table accepts fewer than 2^31 reservations of a row. -/
theorem lt_of_accepted_replicate {count : Nat} (positive : 0 < count)
    (accepted : EachAfter (NonceRequest.Accepted server) done
      (List.replicate count (.increment walletID chain))) :
    done.count (.increment walletID chain) + count < 2 ^ 31 := by
  induction count generalizing done with
  | zero => exact absurd positive (Nat.lt_irrefl 0)
  | succ count ih =>
    obtain ⟨⟨-, room⟩, later⟩ := accepted
    cases count with
    | zero => exact room
    | succ count =>
      have rest := ih (Nat.succ_pos count) later
      rw [List.count_cons_self] at rest
      omega

end Refused

/-- 2^31 reservations for one wallet that exists are answered by `memstore`, and not all of them by
the Postgres store; nor is a single one for a wallet without a row. -/
theorem reservations_overflow_version :
    EachAfter NonceRequest.Sensible []
        (List.replicate (2 ^ 31) (.increment (sampleID 1) .ethereum)) ∧
      memstoreNonces.answers {} (List.replicate (2 ^ 31) (.increment (sampleID 1) .ethereum)) ≠
        (postgresNonces sampleServer).answers .empty
          (List.replicate (2 ^ 31) (.increment (sampleID 1) .ethereum)) ∧
      memstoreNonces.answers {} [.increment (sampleID 2) .ethereum] ≠
        (postgresNonces sampleServer).answers .empty [.increment (sampleID 2) .ethereum] := by
  have empty := @noncesAgree_of_empty sampleServer {} rfl
  refine ⟨sensible_replicate _, fun same => ?_, by decide +kernel⟩
  have accepted := (empty.answers_eq_iff (sensible_replicate _)).mp same
  have few := lt_of_accepted_replicate (Nat.two_pow_pos 31) accepted
  omega

end WalletManagement
