import WalletManagement.Interaction.Snapshots
import WalletManagement.NonceStores
import Mathlib.Data.List.Pairwise

/-!
# Concurrent nonces in Postgres

The methods for nonces as the requests they send to the server: `IncrementPendingNonce` is a
transaction that locks its row, or inserts it where there is none, and the other methods are single
statements. Any number of sessions may run them at once. What they leave in the table is what some
order of whole calls leaves, each of them made on its own by the sequential store of `NonceStores`,
and a call that returns without an error returns what it returns there. Each call takes its place in
the order at one of its own requests, so calls that do not overlap keep their order. Without
rollbacks two reservations of a row never get the same nonce.
-/

namespace WalletManagement

open Interaction Data Go

/-! ## The methods -/

/-- The statements on the table `nonces`. -/
abbrev nonceRows : Signature := rowCalls (UUID × Chain) Nonce Err

/-- The rows that the table admits. -/
def NonceServer.Admits (server : NonceServer) (row : Nonce) : Prop :=
  server.wallets row.walletID = true ∧ InInt32 row.version

instance (server : NonceServer) : DecidablePred server.Admits :=
  fun _ => inferInstanceAs (Decidable (_ ∧ _))

/-- The body of the transaction of `IncrementPendingNonce`. -/
def incrementBody (walletID : UUID) (chain : Chain) :
    Program nonceRows (Except Err (Int × Int)) :=
  .call (.lock (walletID, chain)) fun
    | .error err => .done (.error err)
    | .ok none => .call (.insert (walletID, chain) ⟨walletID, chain, 1, 0, 1⟩) fun
      | .error err => .done (.error err)
      | .ok _ => .done (.ok (0, 1))
    | .ok (some row) =>
      let version := wrapInt64 (row.version + 1)
      .call (.update (walletID, chain) fun stored =>
          some { stored with pendingNonce := wrapInt64 (row.pendingNonce + 1), version }) fun
        | .error err => .done (.error err)
        | .ok _ => .done (.ok (row.pendingNonce, version))

/-- A call of one of the methods. The server does not accept the statement of a rollback whose
condition it cannot evaluate. -/
def NonceRequest.job (server : NonceServer) :
    NonceRequest → Job (UUID × Chain) Nonce Err NonceAnswer
  | .get walletID chain => .alone (.select (walletID, chain)) fun
    | .error err => .done (.failed err)
    | .ok found =>
      let row := found.getD { walletID, chain }
      .done (.nonces row.pendingNonce row.broadcastNonce)
  | .increment walletID chain => .inTx (incrementBody walletID chain) fun
    | .error err => .done (.failed err)
    | .ok value => .done (.reserved value.1)
  | .advance walletID chain nonce => .alone (.update (walletID, chain) fun row =>
      some { row with broadcastNonce := max row.broadcastNonce (wrapInt64 (nonce + 1)) }) fun
    | .error err => .done (.failed err)
    | .ok _ => .done .advanced
  | .rollback walletID chain target =>
    if server.successor target then .alone (.update (walletID, chain) fun row =>
        if row.pendingNonce = target + 1 then some { row with pendingNonce := target }
        else none) fun
      | .error err => .done (.failed err)
      | .ok affected => .done (.rolledBack (if affected then 1 else 0))
    else .alone .refused fun
      | .error err => .done (.failed err)
      | .ok _ => .done (.rolledBack 0)

/-- The transaction locks its row, or inserts it. -/
theorem confirms_incrementBody (walletID : UUID) (chain : Chain) :
    Confirms (incrementBody walletID chain) [] [] := by
  intro found
  cases found with
  | none =>
    intro result
    simp [RowOp.takes, Confirms]
  | some row =>
    intro affected
    cases affected <;> simp [RowOp.takes, Confirms]

/-- So do the calls. -/
theorem NonceRequest.confirming (server : NonceServer) (request : NonceRequest) :
    (request.job server).Confirming := by
  cases request with
  | get walletID chain => exact fun answer => by cases answer <;> trivial
  | increment walletID chain =>
    exact ⟨confirms_incrementBody walletID chain, fun outcome => by cases outcome <;> trivial⟩
  | advance walletID chain nonce => exact fun answer => by cases answer <;> trivial
  | rollback walletID chain target =>
    show Job.Confirming (if _ then _ else _)
    split
    · exact fun answer => by cases answer <;> trivial
    · exact fun answer => by cases answer <;> trivial

/-- A call makes requests before it returns. -/
theorem NonceRequest.job_ne_done {server : NonceServer} (request : NonceRequest)
    {answer : NonceAnswer} : request.job server ≠ .done answer := by
  intro same
  cases request with
  | get _ _ => cases same
  | increment _ _ => cases same
  | advance _ _ _ => cases same
  | rollback _ _ target =>
    by_cases accepted : server.successor target = true
    · simp [NonceRequest.job, accepted] at same
    · simp [NonceRequest.job, accepted] at same

/-! ## One call on its own -/

/-- The rows of a table after one is stored. -/
theorem NonceTable.get_put_eq (table : NonceTable) (row : Nonce) :
    (table.put row).get = Function.update table.get (row.walletID, row.chain) (some row) := by
  funext key
  rw [Table.get_put]
  by_cases same : (row.walletID, row.chain) = key
  · rw [if_pos same, ← same, Function.update_self]
  · rw [if_neg same, Function.update_of_ne (Ne.symm same)]

section Calls

variable {server : NonceServer} {table : NonceTable} {walletID : UUID} {chain : Chain}
  {rows : Rows (UUID × Chain) Nonce}

/-- A transaction of `IncrementPendingNonce` that commits does what the sequential method does. -/
theorem exec_incrementBody {value : Int × Int}
    (ran : (incrementBody walletID chain).Exec (rowStep Err server.Admits) table.get
      (.ok value) rows) :
    (table.incrementPendingNonce server walletID chain).1 = .ok value ∧
      rows = (table.incrementPendingNonce server walletID chain).2.get := by
  obtain ⟨_, middle, ⟨found, rfl, here, same⟩, rest⟩ := ran
  obtain rfl : middle = table.get := same
  cases found with
  | none =>
    obtain ⟨_, last, ⟨_, rfl, -, admitted, written⟩, returned, same⟩ := rest
    obtain rfl : (0, 1) = value := Except.ok.inj returned
    obtain rfl : last = rows := same
    simp only [NonceTable.incrementPendingNonce, ← here, if_pos admitted.1]
    exact ⟨trivial, written.trans (table.get_put_eq ⟨walletID, chain, 1, 0, 1⟩).symm⟩
  | some row =>
    obtain ⟨_, last, ⟨affected, rfl, effect⟩, returned, same⟩ := rest
    obtain rfl : _ = value := Except.ok.inj returned
    obtain rfl : last = rows := same
    have key := Table.key_of_get here.symm
    have bound : (table.get (walletID, chain)).bind (fun stored => some { stored with
        pendingNonce := wrapInt64 (row.pendingNonce + 1)
        version := wrapInt64 (row.version + 1) }) =
        some { row with
          pendingNonce := wrapInt64 (row.pendingNonce + 1)
          version := wrapInt64 (row.version + 1) } := by
      rw [← here]
      rfl
    rcases effect with ⟨stored, found, -, admitted, written⟩ | ⟨missed, -, -⟩
    · obtain rfl := Option.some.inj (bound.symm.trans found)
      simp only [NonceTable.incrementPendingNonce, ← here, if_pos admitted.2]
      refine ⟨trivial, written.trans ?_⟩
      rw [NonceTable.get_put_eq]
      exact congrArg (fun key => Function.update table.get key _) key.symm
    · rw [bound] at missed
      cases missed

/-- An `UPDATE` of one row, as a call of the sequential store. -/
theorem effect_update {set : Nonce → Option Nonce} {affected : Bool}
    (keeps : ∀ row row', set row = some row' → row'.walletID = row.walletID ∧
      row'.chain = row.chain)
    (effect : (RowOp.update (walletID, chain) set).Effect server.Admits table.get affected rows) :
    rows = (((table.get (walletID, chain)).bind set).elim table table.put).get ∧
      affected = ((table.get (walletID, chain)).bind set).isSome := by
  rcases effect with ⟨row, found, rfl, -, rfl⟩ | ⟨missed, rfl, rfl⟩
  · rw [found, Option.elim_some, NonceTable.get_put_eq]
    obtain ⟨stored, here, changed⟩ := Option.bind_eq_some_iff.mp found
    have key := Table.key_of_get here
    obtain ⟨sameWallet, sameChain⟩ := keeps stored row changed
    rw [sameWallet, sameChain, key]
    exact ⟨rfl, rfl⟩
  · rw [missed]
    exact ⟨rfl, rfl⟩

/-- The statement of `AdvanceBroadcastNonce` does what the sequential method does. -/
theorem effect_advance {nonce : Int} {affected : Bool}
    (effect : (RowOp.update (walletID, chain) fun row => some { row with
      broadcastNonce := max row.broadcastNonce (wrapInt64 (nonce + 1)) }).Effect
        server.Admits table.get affected rows) :
    rows = (table.advanceBroadcastNonce walletID chain nonce).get := by
  have written := (effect_update (fun row row' changed => by cases changed; exact ⟨rfl, rfl⟩)
    effect).1
  rw [written, NonceTable.advanceBroadcastNonce]
  cases table.get (walletID, chain) <;> rfl

/-- The statement of `RollbackPendingNonce` does what the sequential method does. -/
theorem effect_rollback {target : Int} {affected : Bool}
    (accepted : server.successor target = true)
    (effect : (RowOp.update (walletID, chain) fun row =>
      if row.pendingNonce = target + 1 then some { row with pendingNonce := target }
      else none).Effect server.Admits table.get affected rows) :
    (table.rollbackPendingNonce server walletID chain target).1 =
        .ok (if affected then 1 else 0) ∧
      rows = (table.rollbackPendingNonce server walletID chain target).2.get := by
  obtain ⟨rfl, rfl⟩ := effect_update (fun row row' changed => by
    split at changed
    · cases changed
      exact ⟨rfl, rfl⟩
    · cases changed) effect
  rw [NonceTable.rollbackPendingNonce, if_pos accepted]
  cases table.get (walletID, chain) with
  | none => exact ⟨rfl, rfl⟩
  | some row =>
    by_cases last : row.pendingNonce = target + 1
    · simp [last]
    · simp [last]

end Calls

/-- A move of a call ends it: with an error that has no effect, or with the effect of the sequential
method and its answer, which may be lost. -/
theorem NonceRequest.moves_job {server : NonceServer} {request : NonceRequest} {table : NonceTable}
    {job : Job (UUID × Chain) Nonce Err NonceAnswer} {rows : Rows (UUID × Chain) Nonce}
    (moves : (request.job server).Moves server.Admits table.get job rows) :
    ∃ answer, job = .done answer ∧
      ((∃ err, answer = .failed err) ∧ rows = table.get ∨
        ((∃ err, answer = .failed err) ∨
          answer = (request.perform (postgresNonces server) table).1) ∧
          rows = (request.perform (postgresNonces server) table).2.get) := by
  cases request with
  | get walletID chain =>
    cases moves with
    | ran effect =>
      obtain ⟨rfl, rfl⟩ := effect
      exact ⟨_, rfl, .inr ⟨.inr rfl, rfl⟩⟩
    | declined => exact ⟨_, rfl, .inl ⟨⟨_, rfl⟩, rfl⟩⟩
    | unanswered effect => exact ⟨_, rfl, .inl ⟨⟨_, rfl⟩, effect.2⟩⟩
  | increment walletID chain =>
    cases moves with
    | committed ran =>
      obtain ⟨returned, rfl⟩ := exec_incrementBody ran
      refine ⟨_, rfl, .inr ⟨.inr ?_, rfl⟩⟩
      show NonceAnswer.reserved _ = NonceAnswer.of _ (table.incrementPendingNonce server _ _).1
      rw [returned]
      rfl
    | failed => exact ⟨_, rfl, .inl ⟨⟨_, rfl⟩, rfl⟩⟩
    | inDoubt ran => exact ⟨_, rfl, .inr ⟨.inl ⟨_, rfl⟩, (exec_incrementBody ran).2⟩⟩
  | advance walletID chain nonce =>
    cases moves with
    | ran effect => exact ⟨_, rfl, .inr ⟨.inr rfl, effect_advance effect⟩⟩
    | declined => exact ⟨_, rfl, .inl ⟨⟨_, rfl⟩, rfl⟩⟩
    | unanswered effect => exact ⟨_, rfl, .inr ⟨.inl ⟨_, rfl⟩, effect_advance effect⟩⟩
  | rollback walletID chain target =>
    by_cases accepted : server.successor target = true
    · simp only [NonceRequest.job, if_pos accepted] at moves
      cases moves with
      | ran effect =>
        obtain ⟨returned, rfl⟩ := effect_rollback accepted effect
        refine ⟨_, rfl, .inr ⟨.inr ?_, rfl⟩⟩
        show NonceAnswer.rolledBack _ = NonceAnswer.of _ (table.rollbackPendingNonce server _ _ _).1
        rw [returned]
        rfl
      | declined => exact ⟨_, rfl, .inl ⟨⟨_, rfl⟩, rfl⟩⟩
      | unanswered effect =>
        exact ⟨_, rfl, .inr ⟨.inl ⟨_, rfl⟩, (effect_rollback accepted effect).2⟩⟩
    · simp only [NonceRequest.job, if_neg accepted] at moves
      cases moves with
      | ran effect => exact effect.elim
      | declined => exact ⟨_, rfl, .inl ⟨⟨_, rfl⟩, rfl⟩⟩
      | unanswered effect => exact effect.elim

/-! ## Interleavings -/

section Order

variable {σ : Type} (db : NonceStore σ)

/-- The state after a sequence of calls. -/
def NonceStore.after (s : σ) (requests : List NonceRequest) : σ :=
  requests.foldl (fun s request => (request.perform db s).2) s

/-- Every call has an answer. -/
theorem NonceStore.length_answers (s : σ) (requests : List NonceRequest) :
    (db.answers s requests).length = requests.length := by
  induction requests generalizing s with
  | nil => rfl
  | cons request rest ih => simp [NonceStore.answers, ih]

/-- The answers with one more call. -/
theorem NonceStore.answers_concat (s : σ) (requests : List NonceRequest) (last : NonceRequest) :
    db.answers s (requests ++ [last]) =
      db.answers s requests ++ [(last.perform db (db.after s requests)).1] := by
  induction requests generalizing s with
  | nil => rfl
  | cons request rest ih =>
    show _ :: db.answers _ (rest ++ [last]) = _ :: (_ ++ _)
    rw [ih]
    rfl

/-- The state with one more call. -/
theorem NonceStore.after_concat (s : σ) (requests : List NonceRequest) (last : NonceRequest) :
    db.after s (requests ++ [last]) = (last.perform db (db.after s requests)).2 := by
  simp [NonceStore.after]

end Order

section Linearized

variable {ι : Type} {server : NonceServer} {request : ι → NonceRequest} {start : NonceTable}
  {order : List ι} {serial serial' : Schedule ι (UUID × Chain) Nonce Err NonceAnswer}

/-- The calls that have taken effect, in order, and what the sessions have returned. -/
structure Linearized (server : NonceServer) (request : ι → NonceRequest) (start : NonceTable)
    (serial : Schedule ι (UUID × Chain) Nonce Err NonceAnswer) (order : List ι) : Prop where
  once : order.Nodup
  rows : serial.rows = ((postgresNonces server).after start (order.map request)).get
  calls : ∀ i, serial.rest i = (request i).job server ∧ i ∉ order ∨
    ∃ answer, serial.rest i = .done answer ∧ ((∃ err, answer = .failed err) ∨
      (i, answer) ∈ order.zip ((postgresNonces server).answers start (order.map request)))

/-- What has been returned is still in the order after one more call. -/
theorem mem_zip_concat {i : ι} {answer : NonceAnswer} (last : ι)
    (here : (i, answer) ∈ order.zip ((postgresNonces server).answers start (order.map request))) :
    (i, answer) ∈ (order ++ [last]).zip
      ((postgresNonces server).answers start ((order ++ [last]).map request)) := by
  rw [List.map_append, List.map_singleton, NonceStore.answers_concat, List.zip_append]
  · exact List.mem_append_left _ here
  · rw [NonceStore.length_answers, List.length_map]

/-- A call that has ended has failed, or it is in the order with its answer. -/
theorem Linearized.returned {i : ι} {answer : NonceAnswer}
    (linearized : Linearized server request start serial order)
    (ended : serial.rest i = .done answer) : (∃ err, answer = .failed err) ∨
      (i, answer) ∈ order.zip ((postgresNonces server).answers start (order.map request)) := by
  rcases linearized.calls i with ⟨waiting, -⟩ | ⟨value, done, earlier⟩
  · rw [waiting] at ended
    exact absurd ended (request i).job_ne_done
  · rw [done] at ended
    cases ended
    exact earlier

variable [DecidableEq ι]

/-- One call has taken effect. -/
theorem Linearized.snoc (linearized : Linearized server request start serial order) {i : ι}
    {answer : NonceAnswer} {rows : Rows (UUID × Chain) Nonce} (new : i ∉ order)
    (effect : rows = ((request i).perform (postgresNonces server)
      ((postgresNonces server).after start (order.map request))).2.get)
    (returned : (∃ err, answer = .failed err) ∨
      answer = ((request i).perform (postgresNonces server)
      ((postgresNonces server).after start (order.map request))).1) :
    Linearized server request start ⟨rows, Function.update serial.rest i (.done answer)⟩
      (order ++ [i]) := by
  refine ⟨?_, ?_, fun j => ?_⟩
  · rw [List.nodup_append]
    refine ⟨linearized.once, List.nodup_singleton i, fun j before k last => ?_⟩
    rintro rfl
    exact new (List.mem_singleton.mp last ▸ before)
  · rw [List.map_append, List.map_singleton, NonceStore.after_concat]
    exact effect
  · dsimp only
    by_cases own : j = i
    · subst own
      rw [Function.update_self]
      refine .inr ⟨answer, rfl, returned.imp_right fun same => ?_⟩
      rw [List.map_append, List.map_singleton, NonceStore.answers_concat, List.zip_append, same]
      · exact List.mem_append_right _ List.mem_cons_self
      · rw [NonceStore.length_answers, List.length_map]
    · rw [Function.update_of_ne own]
      rcases linearized.calls j with ⟨waiting, before⟩ | ⟨value, done, earlier⟩
      · refine .inl ⟨waiting, fun member => ?_⟩
        rcases List.mem_append.mp member with member | member
        · exact before member
        · exact own (List.mem_singleton.mp member)
      · exact .inr ⟨value, done, earlier.imp_right (mem_zip_concat i)⟩

/-- One call has failed. -/
theorem Linearized.refused (linearized : Linearized server request start serial order) (i : ι)
    (err : Err) : Linearized server request start
      ⟨serial.rows, Function.update serial.rest i (.done (.failed err))⟩ order := by
  refine ⟨linearized.once, linearized.rows, fun j => ?_⟩
  dsimp only
  by_cases own : j = i
  · subst own
    rw [Function.update_self]
    exact .inr ⟨_, rfl, .inl ⟨err, rfl⟩⟩
  · rw [Function.update_of_ne own]
    exact linearized.calls j

/-- A serial schedule of the sessions is an order of calls. -/
theorem Linearized.step (linearized : Linearized server request start serial order) {i : ι}
    (stepped : Schedule.Step server.Admits i serial serial') :
    Linearized server request start serial' order ∨
      Linearized server request start serial' (order ++ [i]) := by
  obtain @⟨job, rows, moves⟩ := stepped
  rcases linearized.calls i with ⟨waiting, new⟩ | ⟨value, done, -⟩
  · rw [waiting, linearized.rows] at moves
    obtain ⟨answer, rfl, ⟨⟨err, rfl⟩, same⟩ | ⟨returned, effect⟩⟩ := NonceRequest.moves_job moves
    · rw [same, ← linearized.rows]
      exact .inl (linearized.refused i err)
    · exact .inr (linearized.snoc new effect returned)
  · rw [done] at moves
    cases moves

/-- The sessions that interleave. -/
abbrev nonceSessions (server : NonceServer) (request : ι → NonceRequest) (start : NonceTable) :
    Crew (sessionCalls (UUID × Chain) Nonce Err) (Database ι (UUID × Chain) Nonce) ι NonceAnswer :=
  .start (fun i => ((request i).job server).session) ⟨start.get, fun _ => none⟩

/-- Interleaved sessions reach what a serial schedule with an order of the calls reaches. -/
theorem linearized_of_sessions
    {crew : Crew (sessionCalls (UUID × Chain) Nonce Err) (Database ι (UUID × Chain) Nonce) ι
      NonceAnswer}
    (reachable : Crew.Reachable (sessionStep Err server.Admits) (fun _ _ _ => True)
      (nonceSessions server request start) crew) :
    ∃ serial order, Linearized server request start serial order ∧ order.Sublist crew.turns ∧
      serial.rows = crew.state.rows ∧
      ∀ i answer, crew.Returned i answer → serial.rest i = .done answer := by
  obtain ⟨sessions, serial, reached, turns, rows, returned⟩ :=
    Schedule.of_sessions (fun i => (request i).confirming server) reachable
  have linearized : ∃ order, order.Sublist sessions ∧
      Linearized server request start serial order := by
    clear turns rows returned
    induction reached with
    | refl => exact ⟨[], .slnil, List.nodup_nil, rfl, fun i => .inl ⟨rfl, List.not_mem_nil⟩⟩
    | tail _ last ih =>
      obtain ⟨order, within, linearized⟩ := ih
      rcases linearized.step last with same | longer
      · exact ⟨order, within.trans (List.sublist_append_left ..), same⟩
      · exact ⟨_, within.append (List.Sublist.refl _), longer⟩
  obtain ⟨order, within, linearized⟩ := linearized
  exact ⟨serial, order, linearized, within.trans turns, rows, returned⟩

end Linearized

/-- The methods for nonces are linearizable over Postgres: what any interleaving of any number of
calls leaves in the table is what some order of whole calls of the sequential store leaves, and a
call that has returned without an error has returned what it returns in that order. The order is
that of some of the turns of the sessions, at most one of each: every call takes effect at once,
between its first and its last request. -/
theorem postgres_nonces_linearizable {ι : Type} [DecidableEq ι] (server : NonceServer)
    (request : ι → NonceRequest) (start : NonceTable)
    {crew : Crew (sessionCalls (UUID × Chain) Nonce Err) (Database ι (UUID × Chain) Nonce) ι
      NonceAnswer}
    (reachable : Crew.Reachable (sessionStep Err server.Admits) (fun _ _ _ => True)
      (nonceSessions server request start) crew) :
    ∃ order : List ι, order.Nodup ∧ order.Sublist crew.turns ∧
      crew.state.rows = ((postgresNonces server).after start (order.map request)).get ∧
      ∀ i answer, crew.Returned i answer → (∃ err, answer = .failed err) ∨
        (i, answer) ∈ order.zip ((postgresNonces server).answers start (order.map request)) := by
  obtain ⟨serial, order, linearized, turns, rows, ended⟩ := linearized_of_sessions reachable
  exact ⟨order, linearized.once, turns, rows.symm.trans linearized.rows,
    fun i answer here => linearized.returned (ended i answer here)⟩

/-- A server that knows every wallet. -/
def openServer : NonceServer := ⟨fun _ => true, fun _ => true⟩

/-- Three sessions that reserve from one row. -/
inductive Reserver where
  | holder
  | waiter
  | latecomer
  deriving DecidableEq

instance : Fintype Reserver :=
  ⟨{.holder, .waiter, .latecomer}, fun session => by cases session <;> decide⟩

/-- What each of them runs. -/
def sampleReservations (_ : Reserver) : NonceRequest :=
  .increment ⟨Vector.replicate 16 0⟩ .ethereum

/-- The holder locks the row while the waiter is open, which fails when it comes to it; the
latecomer begins after the holder has ended. -/
def sampleReservationTurns : List Reserver :=
  [.holder, .waiter, .holder, .waiter, .waiter, .holder, .holder, .latecomer,
    .latecomer, .latecomer, .latecomer]

/-- A table with one row of nonces. -/
def sampleNonces : NonceTable :=
  (Table.empty : NonceTable).put ⟨⟨Vector.replicate 16 0⟩, .ethereum, 7, 0, 7⟩

/-- The sessions after these turns. -/
def sampleReserved : Crew (sessionCalls (UUID × Chain) Nonce Err)
    (Database Reserver (UUID × Chain) Nonce) Reserver NonceAnswer :=
  (nonceSessions openServer sampleReservations sampleNonces).play
    (sessionTurns openServer.Admits ⟨"could not serialize access", none⟩ sampleReservationTurns)

theorem sampleReserved_first : sampleReserved.Returned .holder (.reserved 7) :=
  Crew.returned_of_value (by decide +kernel)

theorem sampleReserved_last : sampleReserved.Returned .latecomer (.reserved 8) :=
  Crew.returned_of_value (by decide +kernel)

theorem sampleReserved_reached : Crew.Reachable (sessionStep Err openServer.Admits)
    (fun _ _ _ => True) (nonceSessions openServer sampleReservations sampleNonces) sampleReserved :=
  reachable_sessionTurns openServer.Admits (by decide +kernel)

/-- The order of the two reservations that have succeeded. -/
theorem postgres_nonces_linearizable_contended :
    ∃ order : List Reserver, order.Nodup ∧ order.Sublist sampleReservationTurns ∧
      (.holder, NonceAnswer.reserved 7) ∈ order.zip
        ((postgresNonces openServer).answers sampleNonces
        (order.map sampleReservations)) ∧
      (.latecomer, NonceAnswer.reserved 8) ∈ order.zip
        ((postgresNonces openServer).answers sampleNonces
        (order.map sampleReservations)) := by
  obtain ⟨order, once, turns, -, returned⟩ :=
    postgres_nonces_linearizable openServer sampleReservations
    sampleNonces sampleReserved_reached
  have made : sampleReserved.turns = sampleReservationTurns := by decide +kernel
  refine ⟨order, once, made ▸ turns, ?_, ?_⟩
  · exact (returned .holder _ sampleReserved_first).resolve_left
      (by rintro ⟨err, failed⟩; cases failed)
  · exact (returned .latecomer _ sampleReserved_last).resolve_left
      (by rintro ⟨err, failed⟩; cases failed)

/-! ## Reservations -/

/-- The row has room for all nonces that its version can count: the version of type `INTEGER` runs
out before the pending nonce of type `BIGINT`. -/
def Nonce.Roomy (row : Nonce) : Prop :=
  InInt32 row.version ∧ -2 ^ 63 ≤ row.pendingNonce ∧
    row.pendingNonce + (2 ^ 31 - 1 - row.version) < 2 ^ 63

instance : DecidablePred Nonce.Roomy := fun _ => inferInstanceAs (Decidable (_ ∧ _))

/-- So have all rows. -/
def NonceTable.Roomy (table : NonceTable) : Prop := ∀ key row, table.get key = some row → row.Roomy

/-- The request does not give a nonce back. -/
def NonceRequest.onward : NonceRequest → Bool
  | .rollback _ _ _ => false
  | _ => true

section Reservations

variable {server : NonceServer} {table : NonceTable} {walletID : UUID} {chain : Chain}

/-- A reservation that succeeds hands out the pending nonce, and the next one is pending then. -/
theorem NonceTable.Roomy.increment (roomy : table.Roomy) {value : Int × Int}
    (reserved : (table.incrementPendingNonce server walletID chain).1 = .ok value) :
    ∃ row : Nonce, row.walletID = walletID ∧ row.chain = chain ∧ row.Roomy ∧
      (table.incrementPendingNonce server walletID chain).2 = table.put row ∧
      value.1 = (table.getNonce walletID chain).pendingNonce ∧ row.pendingNonce = value.1 + 1 := by
  cases found : table.get (walletID, chain) with
  | none =>
    simp only [NonceTable.incrementPendingNonce, NonceTable.getNonce, found] at reserved ⊢
    split at reserved
    · rename_i wallet
      cases reserved
      simp only [if_pos wallet]
      exact ⟨⟨walletID, chain, 1, 0, 1⟩, rfl, rfl, by simp [Nonce.Roomy, InInt32], rfl, rfl, rfl⟩
    · cases reserved
  | some row =>
    have key := Table.key_of_get found
    obtain ⟨⟨low, high⟩, least, room⟩ := roomy _ row found
    have version : wrapInt64 (row.version + 1) = row.version + 1 :=
      wrapInt64_of_inInt64 ⟨by omega, by omega⟩
    simp only [NonceTable.incrementPendingNonce, NonceTable.getNonce, found] at reserved ⊢
    rw [version] at reserved ⊢
    split at reserved
    · rename_i fits
      cases reserved
      have counted := fits.2
      have pending : wrapInt64 (row.pendingNonce + 1) = row.pendingNonce + 1 :=
        wrapInt64_of_inInt64 ⟨by omega, by omega⟩
      simp only [if_pos fits, pending]
      refine ⟨{ row with pendingNonce := row.pendingNonce + 1, version := row.version + 1 },
        congrArg Prod.fst key, congrArg Prod.snd key, ?_, rfl, rfl, rfl⟩
      refine ⟨fits, ?_, ?_⟩
      · dsimp only
        omega
      · dsimp only
        omega
    · cases reserved

/-- A call without a rollback stores a row that has room and no smaller pending nonce, or changes
nothing. -/
theorem NonceTable.Roomy.perform_cases (server : NonceServer) (roomy : table.Roomy)
    {request : NonceRequest} (onward : request.onward = true) :
    (request.perform (postgresNonces server) table).2 = table ∨
      ∃ row : Nonce, (request.perform (postgresNonces server) table).2 = table.put row ∧ row.Roomy ∧
        (table.getNonce row.walletID row.chain).pendingNonce ≤ row.pendingNonce := by
  cases request with
  | get _ _ => exact .inl rfl
  | rollback _ _ _ => cases onward
  | increment walletID chain =>
    cases reserved : (table.incrementPendingNonce server walletID chain).1 with
    | error err =>
      refine .inl ?_
      show (table.incrementPendingNonce server walletID chain).2 = table
      simp only [NonceTable.incrementPendingNonce] at reserved ⊢
      split at reserved
      · split at reserved
        · cases reserved
        · rename_i wallet
          rw [if_neg wallet]
      · split at reserved
        · cases reserved
        · rename_i fits
          rw [if_neg fits]
    | ok value =>
      obtain ⟨row, rfl, rfl, fits, after, handed, next⟩ := roomy.increment reserved
      exact .inr ⟨row, after, fits, by omega⟩
  | advance walletID chain nonce =>
    show table.advanceBroadcastNonce walletID chain nonce = table ∨ ∃ row : Nonce,
      table.advanceBroadcastNonce walletID chain nonce = table.put row ∧ _
    cases found : table.get (walletID, chain) with
    | none =>
      refine .inl ?_
      simp only [NonceTable.advanceBroadcastNonce, found]
    | some row =>
      have key := Table.key_of_get found
      simp only [NonceTable.advanceBroadcastNonce, found]
      refine .inr ⟨_, rfl, roomy _ row found, ?_⟩
      show (table.getNonce row.walletID row.chain).pendingNonce ≤ row.pendingNonce
      rw [NonceTable.getNonce, key, found]
      exact le_rfl

/-- The row that has been stored. -/
theorem NonceTable.getNonce_put (row : Nonce) :
    NonceTable.getNonce row.walletID row.chain (table.put row) = row := by
  rw [NonceTable.getNonce, Table.get_put, if_pos rfl]
  rfl

/-- So it keeps the room, and lowers no pending nonce. -/
theorem NonceTable.Roomy.perform (server : NonceServer) (roomy : table.Roomy)
    {request : NonceRequest} (onward : request.onward = true) :
    NonceTable.Roomy (request.perform (postgresNonces server) table).2 ∧
      ∀ walletID chain, (table.getNonce walletID chain).pendingNonce ≤ (NonceTable.getNonce walletID
        chain (request.perform (postgresNonces server) table).2).pendingNonce := by
  rcases roomy.perform_cases server onward with same | ⟨row, after, fits, grown⟩
  · rw [same]
    exact ⟨roomy, fun _ _ => le_rfl⟩
  · rw [after]
    refine ⟨fun key found here => ?_, fun walletID chain => ?_⟩
    · rcases Table.get_put_cases here with ⟨-, rfl⟩ | ⟨-, before⟩
      · exact fits
      · exact roomy key found before
    · by_cases same : (row.walletID, row.chain) = (walletID, chain)
      · obtain ⟨rfl, rfl⟩ := Prod.mk.inj same
        rw [NonceTable.getNonce_put]
        exact grown
      · rw [NonceTable.getNonce, NonceTable.getNonce, Table.get_put, if_neg same]

/-- Later calls of a sequence reserve higher nonces of a row. -/
def Rises (earlier later : NonceRequest × NonceAnswer) : Prop :=
  ∀ walletID chain m n, earlier = (.increment walletID chain, .reserved m) →
    later = (.increment walletID chain, .reserved n) → m < n

/-- Without rollbacks the nonces of a row rise, from the pending one on. -/
theorem rises_of_onward (server : NonceServer) (requests : List NonceRequest) (roomy : table.Roomy)
    (onward : ∀ request ∈ requests, request.onward = true) :
    (requests.zip ((postgresNonces server).answers table requests)).Pairwise Rises ∧
      ∀ walletID chain n, (.increment walletID chain, .reserved n) ∈
          requests.zip ((postgresNonces server).answers table requests) →
        (table.getNonce walletID chain).pendingNonce ≤ n := by
  induction requests generalizing table with
  | nil => exact ⟨.nil, fun _ _ _ member => absurd member List.not_mem_nil⟩
  | cons request rest ih =>
    have first := onward request List.mem_cons_self
    obtain ⟨later, grown⟩ := roomy.perform server first
    obtain ⟨rises, above⟩ := ih later fun other member =>
      onward other (List.mem_cons_of_mem _ member)
    -- a reservation at the front hands out the pending nonce
    have handed : ∀ walletID chain n, request = .increment walletID chain →
        (request.perform (postgresNonces server) table).1 = .reserved n →
        n = (table.getNonce walletID chain).pendingNonce ∧ n < (NonceTable.getNonce walletID chain
          (request.perform (postgresNonces server) table).2).pendingNonce := by
      rintro walletID chain n rfl answer
      have answer : NonceAnswer.of (fun value => .reserved value.1)
        (table.incrementPendingNonce server walletID chain).1 = .reserved n := answer
      cases reserved : (table.incrementPendingNonce server walletID chain).1 with
      | error err =>
        rw [reserved] at answer
        cases answer
      | ok value =>
        rw [reserved] at answer
        obtain rfl : value.1 = n := NonceAnswer.reserved.inj answer
        obtain ⟨row, rfl, rfl, -, after, pending, next⟩ := roomy.increment reserved
        refine ⟨pending, ?_⟩
        show value.1 < (NonceTable.getNonce row.walletID row.chain
          (table.incrementPendingNonce server row.walletID row.chain).2).pendingNonce
        rw [after, NonceTable.getNonce_put]
        omega
    refine ⟨List.pairwise_cons.mpr ⟨?_, rises⟩, ?_⟩
    · rintro ⟨other, answer⟩ member walletID chain m n here there
      obtain ⟨same, answered⟩ := Prod.mk.inj here
      obtain ⟨rfl, rfl⟩ := Prod.mk.inj there
      have next := (handed walletID chain m same answered).2
      have bound := above walletID chain n member
      omega
    · intro walletID chain n member
      rcases List.mem_cons.mp member with here | member
      · obtain ⟨same, answered⟩ := Prod.mk.inj here
        exact le_of_eq (handed walletID chain n same.symm answered.symm).1.symm
      · exact (grown walletID chain).trans (above walletID chain n member)

end Reservations

/-- Two reservations of one row that any interleaving of calls without rollbacks has completed over
Postgres got different nonces. -/
theorem postgres_nonces_distinct {ι : Type} [DecidableEq ι] (server : NonceServer)
    (request : ι → NonceRequest) (start : NonceTable) (roomy : start.Roomy)
    (onward : ∀ i, (request i).onward = true)
    {crew : Crew (sessionCalls (UUID × Chain) Nonce Err) (Database ι (UUID × Chain) Nonce) ι
      NonceAnswer}
    (reachable : Crew.Reachable (sessionStep Err server.Admits) (fun _ _ _ => True)
      (nonceSessions server request start) crew)
    (i j : ι) (different : i ≠ j) (walletID : UUID) (chain : Chain) (m n : Int)
    (first : request i = .increment walletID chain) (second : request j = .increment walletID chain)
    (reserved : crew.Returned i (.reserved m)) (reserved' : crew.Returned j (.reserved n)) :
    m ≠ n := by
  obtain ⟨serial, order, linearized, -, -, returned⟩ := linearized_of_sessions reachable
  have ended {k : ι} {value : Int} (here : crew.Returned k (.reserved value)) :
      (k, NonceAnswer.reserved value) ∈
        order.zip ((postgresNonces server).answers start (order.map request)) := by
    rcases linearized.returned (returned k _ here) with ⟨err, failed⟩ | member
    · cases failed
    · exact member
  have rises := (rises_of_onward server (order.map request) roomy (by
    intro other member
    obtain ⟨k, -, rfl⟩ := List.mem_map.mp member
    exact onward k)).1
  rw [List.zip_map_left, List.pairwise_map] at rises
  -- as a symmetric relation, it holds of any two sessions of the order
  let Apart (x y : ι × NonceAnswer) : Prop := ∀ m n,
    (request x.1, x.2) = (.increment walletID chain, .reserved m) →
    (request y.1, y.2) = (.increment walletID chain, .reserved n) → m ≠ n
  have symmetric : Std.Symm Apart :=
    ⟨fun x y apart m n here there => (apart n m there here).symm⟩
  have apart :
      (order.zip ((postgresNonces server).answers start (order.map request))).Pairwise Apart :=
    rises.imp fun higher m n here there => (higher walletID chain m n here there).ne
  refine apart.forall (ended reserved) (ended reserved') ?_ m n ?_ ?_
  · intro same
    exact different (congrArg Prod.fst same)
  · rw [first]
  · rw [second]

/-- Two of three contending reservations have succeeded. -/
theorem postgres_nonces_distinct_contended :
    sampleReserved.Returned .holder (.reserved 7) ∧
      sampleReserved.Returned .latecomer (.reserved 8) ∧
      (7 : Int) ≠ 8 := by
  have roomy : sampleNonces.Roomy := by
    intro key row found
    have member := Table.mem_of_get found
    obtain rfl : row = ⟨⟨Vector.replicate 16 0⟩, .ethereum, 7, 0, 7⟩ := List.mem_singleton.mp member
    decide
  exact ⟨sampleReserved_first, sampleReserved_last, postgres_nonces_distinct openServer
    sampleReservations sampleNonces roomy (fun _ => rfl) sampleReserved_reached .holder
    .latecomer (by decide) _ _ 7 8 rfl rfl sampleReserved_first sampleReserved_last⟩

end WalletManagement
