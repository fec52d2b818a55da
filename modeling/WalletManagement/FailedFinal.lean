import WalletManagement.Interaction.Crew
import WalletManagement.MemStoreRows
import WalletManagement.SagaCalls
import WalletManagement.Scripted

/-!
# `FAILED` is final

Every operation on a withdrawal reads its state first and stores the next one at the end, with the
signer and the gateway in between, and nothing checks the state again. A call that read the state
before the withdrawal failed can therefore still submit the transaction and store another state.
Where no call is in that window when `FAILED` is stored, the withdrawal stays failed and is not
submitted any more, whatever is called later.
-/

namespace WalletManagement

open Interaction Data

/-! ## What a call does to the state of a withdrawal -/

/-- The call stores `FAILED` for a withdrawal. -/
def Op.storesFailed (id : UUID) : Op → Bool
  | .store (.updateWithdrawalState id' state _ _ _) => id' = id && state = .failed
  | _ => false

/-- The call is made for a withdrawal that exists: it creates none, and is no end of an `InTx`. -/
def Op.OnRecord : Op → Prop
  | .store (.createWithdrawal _) | .begin | .commit | .rollback => False
  | _ => True

/-- The call keeps a failed withdrawal failed: it submits nothing, and stores no other state. -/
def Op.Harmless : Op → Prop
  | .store (.updateWithdrawalState _ state _ _ _) => state = .failed
  | .store (.createWithdrawal _) | .broadcastTx _ | .begin | .commit | .rollback => False
  | _ => True

theorem Op.Plain.harmless {op : Op} (plain : op.Plain) : op.Harmless := by
  cases op with
  | store op => cases op <;> trivial
  | _ => trivial

theorem Op.Harmless.onRecord {op : Op} (harmless : op.Harmless) : op.OnRecord := by
  cases op with
  | store op => cases op <;> trivial
  | _ => trivial

section State

variable {L : Type} {caller : L} {op : Op} {w w' : World L} {answer : op.Ans} {id : UUID}

/-- The state of a withdrawal after a call: the one stored for it, or the one before. -/
theorem stateOf_step (id : UUID) (record : op.OnRecord) (moved : step caller op w answer w') :
    w'.store.stateOf id = w.store.stateOf id ∨
      ∃ state reason txHash decision,
        op = .store (.updateWithdrawalState id state reason txHash decision) ∧
        w'.store.stateOf id = (w.store.stateOf id).map fun _ => state := by
  have same (withdrawals : w'.store.withdrawals = w.store.withdrawals) :
      w'.store.stateOf id = w.store.stateOf id := by rw [Store.stateOf, withdrawals]; rfl
  cases op with
  | store op =>
    obtain ⟨_, -, stored⟩ := store_of_step moved
    cases op with
    | createWithdrawal _ => exact record.elim
    | updateWithdrawalState id' state reason txHash decision =>
      rw [stored]
      have set := w.store.stateOf_updateWithdrawalState id' state reason txHash decision id
      by_cases here : id' = id
      · subst here
        exact .inr ⟨state, reason, txHash, decision, rfl, set.trans (if_pos rfl)⟩
      · exact .inl (set.trans (if_neg here))
    | updateWithdrawalNonce id' n =>
      rw [stored]
      exact .inl (w.store.stateOf_updateWithdrawal id' (by intro; exact ⟨rfl, rfl⟩) id)
    | updateWithdrawalOutpoints id' ops =>
      rw [stored]
      exact .inl (w.store.stateOf_updateWithdrawal id' (by intro; exact ⟨rfl, rfl⟩) id)
    | updateWithdrawalSignedTx id' bytes =>
      rw [stored]
      exact .inl (w.store.stateOf_updateWithdrawal id' (by intro; exact ⟨rfl, rfl⟩) id)
    | _ => exact .inl (same (by rw [stored]; simp [StoreOp.exec, Store.upsertBalance]))
  | begin => exact record.elim
  | commit => exact record.elim
  | rollback => exact record.elim
  | listWithdrawals walletID state =>
    obtain ⟨-, rfl⟩ := moved
    exact .inl (same rfl)
  | _ =>
    cases moved
    exact .inl (same rfl)

/-- A harmless call keeps a failed withdrawal failed. -/
theorem failed_of_harmless (harmless : op.Harmless) (moved : step caller op w answer w')
    (failed : w.store.stateOf id = some .failed) : w'.store.stateOf id = some .failed := by
  rcases stateOf_step id harmless.onRecord moved with same | ⟨state, _, _, _, rfl, set⟩
  · rw [same, failed]
  · rw [set, failed, Option.map_some, show state = .failed from harmless]

/-- Only a call that stores `FAILED` makes a withdrawal failed. -/
theorem failed_before_or_stored (record : op.OnRecord) (moved : step caller op w answer w')
    (failed : w'.store.stateOf id = some .failed) :
    w.store.stateOf id = some .failed ∨ op.storesFailed id = true := by
  rcases stateOf_step id record moved with same | ⟨state, _, _, _, rfl, set⟩
  · exact .inl (same ▸ failed)
  · rw [set] at failed
    obtain ⟨_, -, rfl⟩ := Option.map_eq_some_iff.mp failed
    exact .inr (by simp [Op.storesFailed])

end State

/-! ## The window of a call -/

/-- The call is an operation on a given withdrawal. -/
def SagaCall.On (id : UUID) : SagaCall → Prop
  | .constructAndSign id' | .broadcast id' | .confirm id' _ => id' = id
  | .fail id' _ | .onReorg id' _ => id' = id
  | .create _ | .trackUTXO _ | .reserveNonce _ _ => False

/-- The state on which an operation submits a transaction or stores a state other than `FAILED`. -/
def SagaCall.actsOn : SagaCall → WithdrawalState → Bool
  | .constructAndSign _, state => state = .whitelisted
  | .broadcast _, state => state = .signed
  | .confirm _ _, state => state = .broadcast
  | .onReorg _ _, state => state = .confirmed
  | _, _ => false

/-- The state that a call of the store reads from a withdrawal. -/
def StoreOp.stateRead (id : UUID) : (op : StoreOp) → Except Err op.Result → Option WithdrawalState
  | .getWithdrawal id', .ok wr => if id' = id then some wr.state else none
  | _, _ => none

section Window

variable {ι : Type}

/-- The state that a move reads from a withdrawal. -/
def stateRead (id : UUID) (move : Move calls (World ι)) : Option WithdrawalState :=
  match move.op, move.answer with
  | .store op, answer => op.stateRead id answer
  | _, _ => none

/-- The move ends what an operation does to the state: it stores a state, or the gateway rejects the
transaction. -/
def closes (move : Move calls (World ι)) : Bool :=
  match move.op, move.answer with
  | .store (.updateWithdrawalState _ _ _ _ _), _ => true
  | .broadcastTx _, .error _ => true
  | _, _ => false

/-- The operation has read the withdrawal in a state it acts on, and has since neither stored a
state nor been rejected by the gateway. -/
def acting (id : UUID) (call : SagaCall) (past : List (Move calls (World ι))) : Bool :=
  past.any (fun move => (stateRead id move).any call.actsOn) && past.all fun move => !closes move

variable {id : UUID} {call : SagaCall} {past : List (Move calls (World ι))}
  {move : Move calls (World ι)}

/-- A move that closes nothing leaves an acting operation acting. -/
theorem acting_cons (acts : acting id call past = true) (opened : closes move = false) :
    acting id call (move :: past) = true := by
  simp only [acting, Bool.and_eq_true, List.any_cons, List.all_cons, opened] at acts ⊢
  exact ⟨by rw [acts.1, Bool.or_true], rfl, acts.2⟩

/-- An operation acts after the move by which it reads a state it acts on. -/
theorem acting_of_read {state : WithdrawalState} (read : stateRead id move = some state)
    (acts : call.actsOn state = true) (opened : closes move = false) :
    acting id call [move] = true := by
  simp [acting, read, acts, opened]

/-- An operation begins to act by reading a state it acts on. -/
theorem acting_of_cons (acts : acting id call (move :: past) = true) :
    acting id call past = true ∨ ∃ state, stateRead id move = some state ∧
      call.actsOn state = true := by
  simp only [acting, Bool.and_eq_true, Bool.or_eq_true, List.any_cons, List.all_cons] at acts ⊢
  rcases acts.1 with here | before
  · exact .inr ((Option.any_eq_true_iff_get _ _).mp here |>.elim fun h acts => ⟨_, by simp, acts⟩)
  · exact .inl ⟨before, acts.2.2⟩

/-- An operation that has stored a state acts no more. -/
theorem not_acting_of_closes (closed : closes move = true) :
    acting id call (move :: past) = false := by simp [acting, closed]

/-- A move that stores `FAILED` closes. -/
theorem closes_of_storesFailed (stores : move.op.storesFailed id = true) : closes move = true := by
  obtain ⟨op, before, answer, after⟩ := move
  cases op with
  | store op => cases op <;> first | rfl | cases stores
  | _ => cases stores

/-- A call reads the state that is stored. -/
theorem stateOf_of_read {i : ι} {op : Op} {w w' : World ι} {answer : op.Ans}
    {state : WithdrawalState}
    (moved : step i op w answer w')
    (read : stateRead id (⟨op, w, answer, w'⟩ : Move calls (World ι)) = some state) :
    w.store.stateOf id = some state := by
  cases op with
  | store op =>
    cases op with
    | getWithdrawal id' =>
      obtain ⟨_, answered, -⟩ := store_of_step moved
      cases answer with
      | error _ => cases read
      | ok wr =>
        simp only [stateRead, StoreOp.stateRead, Option.ite_none_right_eq_some,
          Option.some.injEq] at read
        obtain ⟨rfl, rfl⟩ := read
        rw [Store.stateOf, Store.found_eq_ok.mp answered.symm, Option.map_some]
    | _ => cases read
  | _ => cases read

/-- Plain calls close nothing. -/
theorem closes_of_plain {op : Op} (plain : op.Plain) (w : World ι) (answer : op.Ans)
    (w' : World ι) : closes (⟨op, w, answer, w'⟩ : Move calls (World ι)) = false := by
  cases op with
  | store op => cases op <;> first | rfl | exact plain.elim
  | broadcastTx _ => exact plain.elim
  | _ => rfl

end Window

/-! ## What the operations do outside their window -/

/-- Outside its window an operation makes only harmless calls. -/
def operating {ι α : Type} (id : UUID) (call : SagaCall) : Conduct calls (World ι) α where
  allows past op := op.OnRecord ∧ (op.Harmless ∨ acting id call past = true)

section Programs

variable {ι α β : Type} {i : ι} {id : UUID} {call : SagaCall}
  {past : List (Move calls (World ι))} {svc : Service}

/-- Harmless calls may be made at any time. -/
theorem operating_of_harmless {program : Prog α} (harmless : program.Calls Op.Harmless)
    (past : List (Move calls (World ι))) :
    program.Follows (step i) (operating id call) past := by
  refine .of_calls harmless (fun _ _ harmless => ?_) (fun _ _ => trivial) past
  exact ⟨harmless.onRecord, .inl harmless⟩

/-- Plain calls may be made at any time. -/
theorem operating_plain_return {program : Prog β} (plain : program.Calls Op.Plain) (value : α)
    (past : List (Move calls (World ι))) :
    (program >>= fun _ => pure value).Follows (step i) (operating id call) past := by
  refine operating_of_harmless ?_ past
  exact (plain.mono fun _ plain => plain.harmless).bind fun _ => trivial

/-- Plain calls before the rest of an acting operation. -/
theorem operating_plain_bind {program : Prog β} {next : β → Prog α}
    (plain : program.Calls Op.Plain) (acts : acting id call past = true)
    (rest : ∀ value past, acting id call past = true →
      (next value).Follows (step i) (operating id call) past) :
    (program >>= next).Follows (step i) (operating id call) past := by
  refine .bind (fun _ past => acting id call past = true)
    (.of_phase (acting id call · = true) plain acts (fun past op _ plain => ?_)
      (fun past op w answer w' acts plain => ?_) fun _ _ acts => acts) rest
  · exact ⟨plain.harmless.onRecord, .inl plain.harmless⟩
  · exact acting_cons acts (closes_of_plain plain w answer w')

/-- An operation begins by reading the withdrawal; it acts if the state is one it acts on, and goes
on with harmless calls otherwise. -/
theorem operating_read {next : Except Err WithdrawalRequest → Prog α}
    (missing : ∀ err, (next (.error err)).Calls Op.Harmless)
    (idle : ∀ wr, call.actsOn wr.state = false → (next (.ok wr)).Calls Op.Harmless)
    (acts : ∀ wr past, call.actsOn wr.state = true → acting id call past = true →
      (next (.ok wr)).Follows (step i) (operating id call) past) :
    (perform (.store (.getWithdrawal id)) >>= next).Follows (step i) (operating id call) [] := by
  refine .perform_bind ⟨trivial, .inl trivial⟩ fun w answer w' _ moved => ?_
  cases answer with
  | error err => exact operating_of_harmless (missing err) _
  | ok wr =>
    cases decided : call.actsOn wr.state with
    | false => exact operating_of_harmless (idle wr decided) _
    | true =>
      refine acts wr _ decided (acting_of_read ?_ decided rfl)
      simp [stateRead, StoreOp.stateRead]

/-- Storing `FAILED` after a rollback. -/
theorem rollback_failed_calls (w : Wallet) (n : Int) (ops : List String) (reason : String)
    (result : Except Err Unit) : (do
      Service.rollback w n ops
      let _ ← perform (.store (.updateWithdrawalState id .failed reason "" ""))
      pure result : Prog (Except Err Unit)).Calls Op.Harmless :=
  ((rollback_plain w n ops).mono fun _ plain => plain.harmless).bind fun _ =>
    ⟨rfl, fun _ => trivial⟩

/-- The part of `ConstructAndSign` after the reservation. -/
theorem signReserved_operating (wr : WithdrawalRequest) (w : Wallet) (keyID : String) (n : Int)
    (ops : List String) (acts : acting id call past = true) :
    (svc.signReserved wr w keyID n ops).Follows (step i) (operating id call) past := by
  unfold Service.signReserved
  split
  · exact operating_plain_return (rollback_plain ..) _ _
  · refine .perform_bind ⟨trivial, .inl trivial⟩ fun _ answer _ _ _ => ?_
    cases answer with
    | error err => exact operating_of_harmless (rollback_failed_calls ..) _
    | ok resp =>
      dsimp only
      split
      · exact operating_of_harmless (rollback_failed_calls ..) _
      · refine .perform_bind ⟨trivial, .inl trivial⟩ fun _ answer _ _ _ => ?_
        cases answer with
        | error err =>
          exact operating_plain_return (rollback_plain ..) _ _
        | ok _ =>
          -- the state is stored inside the window
          refine .perform_bind ⟨trivial, .inr (acting_cons (acting_cons acts rfl) rfl)⟩
            fun _ answer _ _ _ => ?_
          cases answer with
          | error err => trivial
          | ok _ =>
            exact operating_plain_return (emit_plain ..) _ _

theorem constructAndSign_operating :
    (svc.constructAndSign id).Follows (step i) (operating id (.constructAndSign id)) [] := by
  refine operating_read (fun _ => trivial) (fun wr idle => ?_) fun wr past decided acts => ?_
  · have other : wr.state ≠ .whitelisted := by simpa [SagaCall.actsOn] using idle
    simp only [other, ne_eq, not_false_eq_true, if_true]
    trivial
  · have whitelisted : wr.state = .whitelisted := by simpa [SagaCall.actsOn] using decided
    simp only [whitelisted, ne_eq, not_true_eq_false, if_false]
    refine operating_plain_bind ⟨trivial, fun _ => trivial⟩ acts fun answer past acts => ?_
    cases answer with
    | error err => trivial
    | ok w =>
      refine operating_plain_bind (resolveKey_plain ..) acts fun answer past acts => ?_
      cases answer with
      | error err => trivial
      | ok keyID =>
        refine operating_plain_bind (reserve_plain ..) acts fun answer past acts => ?_
        cases answer with
        | error err => trivial
        | ok reserved => exact signReserved_operating wr w keyID reserved.1 reserved.2 acts

/-- The part of `Broadcast` after the gateway accepted the transaction. -/
theorem settle_operating (wr : WithdrawalRequest) (w : Wallet) (txHash : String)
    (acts : acting id call past = true) :
    (svc.settle wr w txHash).Follows (step i) (operating id call) past := by
  refine operating_plain_bind (runIf_calls _ (markSpent_plain ..)) acts fun _ past acts => ?_
  refine operating_plain_bind (commitReserved_plain ..) acts fun _ past acts => ?_
  refine .perform_bind ⟨trivial, .inr acts⟩ fun _ answer _ _ _ => ?_
  cases answer with
  | error err => trivial
  | ok _ => exact operating_plain_return (emit_plain ..) _ _

theorem broadcast_operating :
    (svc.broadcast id).Follows (step i) (operating id (.broadcast id)) [] := by
  refine operating_read (fun _ => trivial) (fun wr idle => ?_) fun wr past decided acts => ?_
  · have other : wr.state ≠ .signed := by simpa [SagaCall.actsOn] using idle
    simp only [other, ne_eq, not_false_eq_true, if_true]
    trivial
  · have signed : wr.state = .signed := by simpa [SagaCall.actsOn] using decided
    simp only [signed, ne_eq, not_true_eq_false, if_false]
    refine operating_plain_bind ⟨trivial, fun _ => trivial⟩ acts fun answer past acts => ?_
    cases answer with
    | error err => trivial
    | ok w =>
      dsimp only
      split
      · trivial
      · refine .perform_bind ⟨trivial, .inr acts⟩ fun _ answer _ _ _ => ?_
        cases answer with
        | error err => exact operating_of_harmless (rollback_failed_calls ..) _
        | ok resp => exact settle_operating wr w resp.txHash (acting_cons acts rfl)

theorem confirm_operating (txHash : String) :
    (svc.confirm id txHash).Follows (step i) (operating id (.confirm id txHash)) [] := by
  refine operating_read (fun _ => trivial) (fun wr idle => ?_) fun wr past decided acts => ?_
  · have other : wr.state ≠ .broadcast := by simpa [SagaCall.actsOn] using idle
    simp only [other, ne_eq, not_false_eq_true, if_true]
    trivial
  · have submitted : wr.state = .broadcast := by simpa [SagaCall.actsOn] using decided
    simp only [submitted, ne_eq, not_true_eq_false, if_false]
    refine .perform_bind ⟨trivial, .inr acts⟩ fun _ answer _ _ _ => ?_
    cases answer with
    | error err => trivial
    | ok _ => exact operating_plain_return (emit_plain ..) _ _

/-- `Fail` makes only harmless calls. -/
theorem fail_harmless (reason : String) : (svc.fail id reason).Calls Op.Harmless := by
  refine ⟨trivial, fun answer => ?_⟩
  cases answer with
  | error err => trivial
  | ok wr =>
    refine ⟨trivial, fun answer => ?_⟩
    cases answer with
    | error err => trivial
    | ok w =>
      refine ((rollback_plain ..).mono fun _ plain => plain.harmless).bind fun _ =>
        ⟨rfl, fun answer => ?_⟩
      cases answer with
      | error err => trivial
      | ok _ => exact ((emit_plain ..).mono fun _ plain => plain.harmless).bind fun _ => trivial

theorem onReorg_operating (outpoints : List String) :
    (Service.onReorg id outpoints).Follows (step i) (operating id (.onReorg id outpoints)) [] := by
  refine operating_read (fun _ => trivial) (fun wr idle => ?_) fun wr past decided acts => ?_
  · have other : wr.state ≠ .confirmed := by simpa [SagaCall.actsOn] using idle
    refine ⟨trivial, fun answer => ?_⟩
    cases answer with
    | error err => trivial
    | ok _ =>
      simp only [other, if_false]
      trivial
  · have confirmed : wr.state = .confirmed := by simpa [SagaCall.actsOn] using decided
    refine operating_plain_bind ⟨trivial, fun _ => trivial⟩ acts fun answer past acts => ?_
    cases answer with
    | error err => trivial
    | ok _ =>
      simp only [confirmed, if_true]
      exact ⟨⟨trivial, .inr acts⟩, fun _ _ _ _ _ => trivial⟩

/-- The operations on a withdrawal make only harmless calls outside their window. -/
theorem body_operating (on : call.On id) :
    (svc.body call).Follows (step i) (operating id call) [] := by
  cases call with
  | constructAndSign _ => cases on; exact constructAndSign_operating
  | broadcast _ => cases on; exact broadcast_operating
  | confirm _ txHash => cases on; exact confirm_operating txHash
  | fail _ reason => cases on; exact operating_of_harmless (fail_harmless reason) _
  | onReorg _ outpoints => cases on; exact onReorg_operating outpoints
  | _ => exact on.elim

end Programs

/-! ## Schedules -/

section Schedules

variable {ι : Type} [DecidableEq ι] {id : UUID} {call : ι → SagaCall}
  {crew crew' : Crew calls (World ι) ι (Except Err Unit)} {i j : ι}

/-- A call has returned, or is not in its window. -/
def Idle (id : UUID) (call : ι → SagaCall) (crew : Crew calls (World ι) ι (Except Err Unit))
    (j : ι) : Prop :=
  crew.Finished j ∨ acting id (call j) (past crew.moves j) = false

instance (id : UUID) (call : ι → SagaCall) (crew : Crew calls (World ι) ι (Except Err Unit))
    (j : ι) : Decidable (Idle id call crew j) := inferInstanceAs (Decidable (_ ∨ _))

/-- When a call stores `FAILED`, no other call is in its window. -/
def FailsAlone (id : UUID) (call : ι → SagaCall) :
    Crew.Guard calls (World ι) ι (Except Err Unit) :=
  fun crew i move => move.op.storesFailed id = true → ∀ j, j ≠ i → Idle id call crew j

instance {n : Nat} (id : UUID) (call : Fin n → SagaCall)
    (crew : Crew calls (World (Fin n)) (Fin n) (Except Err Unit)) (i : Fin n)
    (move : Move calls (World (Fin n))) : Decidable (FailsAlone id call crew i move) :=
  inferInstanceAs (Decidable (_ → _))

/-- A move of another call leaves a call idle. -/
theorem Idle.of_ne (idle : Idle id call crew j) (other : j ≠ i) (move : Move calls (World ι))
    (rest : Prog (Except Err Unit)) : Idle id call (crew.advance i move rest) j := by
  rw [Idle, Crew.finished_advance_of_ne _ _ _ other, Crew.advance_moves,
    past_cons_of_ne _ _ other.symm]
  exact idle

/-- While a withdrawal is failed and every call is idle, a move keeps it so and submits nothing. -/
theorem failed_step {admits : Crew.Guard calls (World ι) ι (Except Err Unit)}
    (good : crew.Good step (fun i => operating id (call i)) fun _ => True)
    (failed : crew.state.store.stateOf id = some .failed) (idle : ∀ j, Idle id call crew j)
    (moved : Crew.Step step admits crew crew') :
    crew'.state.store.stateOf id = some .failed ∧ (∀ j, Idle id call crew' j) ∧
      ∃ entry, crew'.moves = entry :: crew.moves ∧ entry.2.op.submits = false := by
  obtain @⟨i, op, next, answer, w', waiting, moved, -⟩ := moved
  have quiet := (idle i).resolve_left (Crew.not_finished_of_call waiting)
  have follows := good.follows i
  rw [waiting] at follows
  have harmless : op.Harmless := follows.1.2.resolve_right (by simp [quiet])
  refine ⟨failed_of_harmless harmless moved failed, fun j => ?_, _, rfl, ?_⟩
  · by_cases same : j = i
    · subst same
      refine .inr (Bool.eq_false_iff.mpr fun acts => ?_)
      rw [Crew.advance_moves, past_cons_self] at acts
      rcases acting_of_cons acts with before | ⟨state, read, acts⟩
      · exact Bool.noConfusion (quiet.symm.trans before)
      · -- what it reads is `FAILED`, on which no operation acts
        have same := (stateOf_of_read moved read).symm.trans failed
        cases same
        cases here : call j <;> simp [here, SagaCall.actsOn] at acts
    · exact (idle j).of_ne same _ _
  · cases op with
    | broadcastTx _ => exact harmless.elim
    | _ => rfl

/-- A guarded move keeps every call idle once the withdrawal is failed. -/
theorem idle_step (good : crew.Good step (fun i => operating id (call i)) fun _ => True)
    (idle : crew.state.store.stateOf id = some .failed → ∀ j, Idle id call crew j)
    (moved : Crew.Step step (FailsAlone id call) crew crew')
    (failed : crew'.state.store.stateOf id = some .failed) : ∀ j, Idle id call crew' j := by
  by_cases before : crew.state.store.stateOf id = some .failed
  · exact (failed_step good before (idle before) moved).2.1
  · obtain @⟨i, op, next, answer, w', waiting, moved, alone⟩ := moved
    have follows := good.follows i
    rw [waiting] at follows
    have stores := (failed_before_or_stored follows.1.1 moved failed).resolve_left before
    intro j
    by_cases same : j = i
    · subst same
      refine .inr ?_
      rw [Crew.advance_moves, past_cons_self]
      exact not_acting_of_closes (closes_of_storesFailed stores)
    · exact (alone stores j same).of_ne same _ _

/-- Operations make only harmless calls outside their windows in every schedule. -/
theorem operating_reachable {admits : Crew.Guard calls (World ι) ι (Except Err Unit)}
    (good : crew.Good step (fun i => operating id (call i)) fun _ => True)
    (schedule : Crew.Reachable step admits crew crew') :
    crew'.Good step (fun i => operating id (call i)) fun _ => True :=
  schedule.good (fun _ _ _ => trivial) (fun _ _ _ _ _ _ _ _ _ _ _ => trivial) good

theorem operating_start (svc : Service) (on : ∀ i, (call i).On id) (w : World ι) :
    (Crew.start (fun i => svc.body (call i)) w).Good step (fun i => operating id (call i))
      fun _ => True :=
  ⟨trivial, fun i => body_operating (on i)⟩

/-- In every guarded schedule of operations on a withdrawal, all calls are idle once it is
failed. -/
theorem idle_of_failed (svc : Service) (on : ∀ i, (call i).On id) (w : World ι)
    (schedule : Crew.Reachable step (FailsAlone id call)
      (Crew.start (fun i => svc.body (call i)) w) crew)
    (failed : crew.state.store.stateOf id = some .failed) : ∀ j, Idle id call crew j := by
  induction schedule with
  | refl => exact fun j => .inr rfl
  | tail before moved ih =>
    exact idle_step (operating_reachable (operating_start svc on w) before) ih moved failed

/-- `FAILED` is final in every schedule where no other call is in its window when a call stores
`FAILED`: once the withdrawal is failed, whatever the calls do next, it stays failed and the gateway
is not called. -/
theorem failed_is_final (svc : Service) (id : UUID) (call : ι → SagaCall)
    (on : ∀ i, (call i).On id) (start : World ι)
    (schedule : Crew.Reachable step (FailsAlone id call)
      (Crew.start (fun i => svc.body (call i)) start) crew)
    (failed : crew.state.store.stateOf id = some .failed)
    (after : Crew.Reachable step (fun _ _ _ => True) crew crew') :
    crew'.state.store.stateOf id = some .failed ∧
      ∃ later, crew'.moves = later ++ crew.moves ∧
        ∀ entry ∈ later, entry.2.op.submits = false := by
  have idle := idle_of_failed svc on start schedule failed
  have good := operating_reachable (operating_start svc on start) schedule
  suffices kept : crew'.state.store.stateOf id = some .failed ∧ (∀ j, Idle id call crew' j) ∧
      ∃ later, crew'.moves = later ++ crew.moves ∧ ∀ entry ∈ later, entry.2.op.submits = false from
    ⟨kept.1, kept.2.2⟩
  induction after with
  | refl => exact ⟨failed, idle, [], rfl, by simp⟩
  | tail before moved ih =>
    obtain ⟨failed, idle, later, moves, silent⟩ := ih
    obtain ⟨failed, idle, entry, cons, quiet⟩ :=
      failed_step (operating_reachable good before) failed idle moved
    refine ⟨failed, idle, entry :: later, by rw [cons, moves]; rfl, fun other member => ?_⟩
    rcases List.mem_cons.mp member with rfl | member
    · exact quiet
    · exact silent other member

end Schedules

/-! ## Worked schedules -/

/-- A signed withdrawal, with the log of two callers still to come. -/
def sampleRaceWorld : World (Fin 2) :=
  { store := (sampleService.play (signedEVM "ETH" 3) sampleStart).store }

/-- A broadcast and an operator who fails the same withdrawal. -/
def sampleFailRace (i : Fin 2) : SagaCall :=
  if i = firstCaller then .broadcast (sampleID 3) else .fail (sampleID 3) "operator"

/-- The two callers before they begin. -/
def sampleRaceStart : Crew calls (World (Fin 2)) (Fin 2) (Except Err Unit) :=
  Crew.start (fun i => sampleService.body (sampleFailRace i)) sampleRaceWorld

/-- The callers take their turns, and everything is accepted. -/
def sampleTurns (callers : List (Fin 2)) : List (Crew.Turn calls (World (Fin 2)) (Fin 2)) :=
  scripted (callers.map fun i => (i, accepting 3))

/-- The withdrawal fails before the broadcast begins. -/
def sampleFailedBefore : Crew calls (World (Fin 2)) (Fin 2) (Except Err Unit) :=
  sampleRaceStart.play (sampleTurns (List.replicate 4 secondCaller))

/-- The withdrawal fails after the broadcast has read it. -/
def sampleFailedInWindow : Crew calls (World (Fin 2)) (Fin 2) (Except Err Unit) :=
  sampleRaceStart.play (sampleTurns (firstCaller :: List.replicate 4 secondCaller))

/-- The turns of the broadcast after that. -/
def sampleBroadcastTurns : List (Crew.Turn calls (World (Fin 2)) (Fin 2)) :=
  sampleTurns (List.replicate 4 firstCaller)

/-- A broadcast that begins after the withdrawal failed finds it failed. -/
theorem failed_is_final_sample :
    (sampleFailedBefore.play sampleBroadcastTurns).state.store.stateOf (sampleID 3) =
        some .failed ∧
      (sampleFailedBefore.play sampleBroadcastTurns).Finished firstCaller := by
  have before : Crew.Reachable step (FailsAlone (sampleID 3) sampleFailRace) sampleRaceStart
      sampleFailedBefore := scripted_reachable (by decide +kernel)
  have after : Crew.Reachable step (fun _ _ _ => True) sampleFailedBefore
      (sampleFailedBefore.play sampleBroadcastTurns) :=
    scripted_reachable (Crew.admitsAll_of_true _ _)
  have on (i : Fin 2) : (sampleFailRace i).On (sampleID 3) := by
    unfold sampleFailRace
    split <;> rfl
  have final := failed_is_final sampleService (sampleID 3) sampleFailRace on sampleRaceWorld before
    (by decide +kernel) after
  exact ⟨final.1, by decide +kernel⟩

/-- A broadcast that has read the withdrawal before submits it after it failed, and the withdrawal
is `BROADCAST` in the end. -/
theorem failed_resubmitted :
    Crew.Reachable step (fun _ _ _ => True) sampleRaceStart sampleFailedInWindow ∧
      sampleFailedInWindow.state.store.stateOf (sampleID 3) = some .failed ∧
      Crew.Reachable step (fun _ _ _ => True) sampleFailedInWindow
        (sampleFailedInWindow.play sampleBroadcastTurns) ∧
      (sampleFailedInWindow.play sampleBroadcastTurns).state.store.stateOf (sampleID 3) =
        some .broadcast ∧
      (∀ entry ∈ sampleFailedInWindow.moves, entry.2.op.submits = false) ∧
      ∃ entry ∈ (sampleFailedInWindow.play sampleBroadcastTurns).moves,
        entry.2.op.submits = true := by
  have window : sampleFailedInWindow.state.store.stateOf (sampleID 3) = some .failed ∧
      ∀ entry ∈ sampleFailedInWindow.moves, entry.2.op.submits = false := by decide +kernel
  have later : (sampleFailedInWindow.play sampleBroadcastTurns).state.store.stateOf (sampleID 3) =
        some .broadcast ∧
      ∃ entry ∈ (sampleFailedInWindow.play sampleBroadcastTurns).moves,
        entry.2.op.submits = true := by decide +kernel
  exact ⟨scripted_reachable (Crew.admitsAll_of_true _ _), window.1,
    scripted_reachable (Crew.admitsAll_of_true _ _), later.1, window.2, later.2⟩

end WalletManagement
