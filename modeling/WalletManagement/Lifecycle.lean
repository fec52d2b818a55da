import WalletManagement.FailedFinal
import WalletManagement.SagaOutcome
import WalletManagement.Scripted

/-!
# The lifecycle of a withdrawal

A withdrawal on its own, as a machine: its state, how often the signer has been asked to sign it,
how often it has been submitted to the gateway, and how often the gateway has accepted it. Every
operation of the saga over the in-memory store, run to its end, moves each withdrawal by one step of
this machine or not at all. So over any run of complete operations a withdrawal is signed once and
submitted once at most, and a failed withdrawal stays failed.
-/

namespace WalletManagement

open Interaction

/-! ## The machine -/

/-- What has become of a withdrawal. -/
@[ext]
structure Life where
  /-- Its state, or none if there is no such withdrawal. -/
  state : Option WithdrawalState
  /-- The requests to the signer. -/
  signs : Nat
  /-- The submissions to the gateway. -/
  submissions : Nat
  /-- The submissions that were accepted. -/
  accepted : Nat
  deriving DecidableEq

namespace Life

/-- A withdrawal that is not there. -/
def unborn : Life := ⟨none, 0, 0, 0⟩

/-- The steps of a withdrawal. -/
inductive Step : Life → Life → Prop where
  | approved {life : Life} (new : life.state = none) :
    Step life { life with state := some .whitelisted }
  | declined {life : Life} (new : life.state = none) : Step life { life with state := some .failed }
  | signed {life : Life} (ready : life.state = some .whitelisted) :
    Step life { life with state := some .signed, signs := life.signs + 1 }
  | unsigned {life : Life} (ready : life.state = some .whitelisted) :
    Step life { life with state := some .failed, signs := life.signs + 1 }
  | broadcast {life : Life} (ready : life.state = some .signed) :
    Step life { life with
      state := some .broadcast, submissions := life.submissions + 1, accepted := life.accepted + 1 }
  | rejected {life : Life} (ready : life.state = some .signed) :
    Step life { life with state := some .failed, submissions := life.submissions + 1 }
  | confirmed {life : Life} (ready : life.state = some .broadcast) :
    Step life { life with state := some .confirmed }
  | demoted {life : Life} (ready : life.state = some .confirmed) :
    Step life { life with state := some .broadcast }
  | failed {life : Life} (there : life.state.isSome = true) :
    Step life { life with state := some .failed }

/-- What a life has come to by its state. -/
def Regular (life : Life) : Prop :=
  match life.state with
  | none | some .pending | some .whitelisted =>
    life.signs = 0 ∧ life.submissions = 0 ∧ life.accepted = 0
  | some .signed => life.signs = 1 ∧ life.submissions = 0 ∧ life.accepted = 0
  | some .broadcast | some .confirmed =>
    life.signs = 1 ∧ life.submissions = 1 ∧ life.accepted = 1
  | some .failed =>
    life.signs ≤ 1 ∧ life.submissions ≤ life.signs ∧ life.accepted ≤ life.submissions

/-- Every step keeps a life regular. -/
theorem Regular.step {life life' : Life} (regular : life.Regular) (step : Step life life') :
    life'.Regular := by
  obtain ⟨state, signs, submissions, accepted⟩ := life
  cases step with
  | approved new | declined new | signed new | unsigned new | broadcast new | rejected new
  | confirmed new | demoted new =>
    obtain rfl : state = _ := new
    simp only [Regular] at regular ⊢
    omega
  | failed there =>
    obtain ⟨state, rfl⟩ := Option.isSome_iff_exists.mp there
    cases state <;> simp only [Regular] at regular ⊢ <;> omega

/-- A life that begins unborn is regular. -/
theorem Regular.of_unborn {life : Life} (steps : Relation.ReflTransGen Step unborn life) :
    life.Regular := by
  induction steps with
  | refl => exact ⟨rfl, rfl, rfl⟩
  | tail _ last ih => exact ih.step last

end Life

/-! ## The lives of the withdrawals of a world -/

/-- The entry is a submission to the gateway. -/
def Entry.submits {L : Type} (entry : Entry L) : Bool := entry.op.submits

/-- The life of a withdrawal, from the store and the log. -/
def lifeOf (id : UUID) (w : World SagaCall) : Life where
  state := w.store.stateOf id
  signs := w.log.countP fun entry => entry.caller = .constructAndSign id && entry.signs
  submissions := w.log.countP fun entry => entry.caller = .broadcast id && entry.submits
  accepted := w.log.countP fun entry => entry.caller = .broadcast id && entry.accepts

/-- The call neither makes nor moves a withdrawal, and asks neither the signer nor the gateway. -/
def Op.silent : Op → Bool
  | .store (.createWithdrawal _) | .store (.updateWithdrawalState _ _ _ _ _) => false
  | .broadcastTx _ | .sign _ | .begin | .commit | .rollback => false
  | _ => true

/-- Plain calls are silent. -/
theorem Op.Plain.silent {op : Op} (plain : op.Plain) : op.silent = true := by
  cases op with
  | store op => cases op <;> first | rfl | exact plain.elim
  | sign _ | broadcastTx _ | begin | commit | rollback => exact plain.elim
  | _ => rfl

/-- Only `ConstructAndSign` asks the signer, and only `Broadcast` the gateway. -/
def Op.AskedBy (caller : SagaCall) : Op → Prop
  | .sign _ => ∃ id, caller = .constructAndSign id
  | .broadcastTx _ => ∃ id, caller = .broadcast id
  | _ => True

/-- Every request to the signer and to the gateway since `w` is one of these. -/
def Asked (w w' : World SagaCall) : Prop :=
  ∀ entry ∈ w'.log, entry ∈ w.log ∨ entry.op.AskedBy entry.caller

theorem Asked.refl (w : World SagaCall) : Asked w w := fun _ member => .inl member

theorem Asked.trans {w w₁ w₂ : World SagaCall} (first : Asked w w₁) (second : Asked w₁ w₂) :
    Asked w w₂ := by
  intro entry member
  rcases second entry member with before | asked
  · exact first entry before
  · exact .inr asked

section Steps

variable {caller : SagaCall} {op : Op} {w w' : World SagaCall} {answer : op.Ans} {id : UUID}

/-- Every call is logged. -/
theorem log_step (moved : step caller op w answer w') : w'.log = ⟨caller, op, answer⟩ :: w.log := by
  cases op with
  | store op =>
    obtain ⟨_, -, rfl⟩ := moved
    rfl
  | begin | commit | listWithdrawals =>
    obtain ⟨-, rfl⟩ := moved
    rfl
  | _ =>
    cases moved
    rfl

/-- A call that its operation makes. -/
theorem Asked.after {start : World SagaCall} (here : Asked start w) (asked : op.AskedBy caller)
    (moved : step caller op w answer w') : Asked start w' := by
  intro entry member
  rw [log_step moved] at member
  rcases List.mem_cons.mp member with rfl | before
  · exact .inr asked
  · exact here entry before

/-- The counters after a call. -/
theorem counts_step (moved : step caller op w answer w') (id : UUID) :
    (lifeOf id w').signs = (lifeOf id w).signs +
      (if caller = .constructAndSign id ∧ (⟨caller, op, answer⟩ : Entry SagaCall).signs then 1
        else 0) ∧
    (lifeOf id w').submissions = (lifeOf id w).submissions +
      (if caller = .broadcast id ∧ (⟨caller, op, answer⟩ : Entry SagaCall).submits then 1 else 0) ∧
    (lifeOf id w').accepted = (lifeOf id w).accepted +
      (if caller = .broadcast id ∧ (⟨caller, op, answer⟩ : Entry SagaCall).accepts then 1
        else 0) := by
  simp only [lifeOf, log_step moved, List.countP_cons, Bool.and_eq_true, decide_eq_true_eq]
  exact ⟨trivial, trivial, trivial⟩

/-- A call of neither the signer nor the gateway is not counted. -/
theorem counts_same (moved : step caller op w answer w') (signer : ∀ req, op ≠ .sign req)
    (gateway : ∀ req, op ≠ .broadcastTx req) (id : UUID) :
    (lifeOf id w').signs = (lifeOf id w).signs ∧
      (lifeOf id w').submissions = (lifeOf id w).submissions ∧
      (lifeOf id w').accepted = (lifeOf id w).accepted := by
  have quiet : (⟨caller, op, answer⟩ : Entry SagaCall).signs = false ∧
      (⟨caller, op, answer⟩ : Entry SagaCall).submits = false ∧
      (⟨caller, op, answer⟩ : Entry SagaCall).accepts = false := by
    cases op with
    | sign req => exact absurd rfl (signer req)
    | broadcastTx req => exact absurd rfl (gateway req)
    | _ => exact ⟨rfl, rfl, rfl⟩
  have counts := counts_step moved id
  simp only [quiet, Bool.false_eq_true, and_false, ↓reduceIte, Nat.add_zero] at counts
  exact counts

/-- A silent call changes no life. -/
theorem life_silent (silent : op.silent = true) (moved : step caller op w answer w') (id : UUID) :
    lifeOf id w' = lifeOf id w := by
  obtain ⟨signs, submissions, accepted⟩ := counts_same moved
    (fun req here => by rw [here] at silent; cases silent)
    (fun req here => by rw [here] at silent; cases silent) id
  have record : op.OnRecord := by
    cases op with
    | store op => cases op <;> trivial
    | begin | commit | rollback => cases silent
    | _ => trivial
  rcases stateOf_step id record moved with same | ⟨_, _, _, _, rfl, -⟩
  · exact Life.ext same signs submissions accepted
  · cases silent

/-- A call of the signer counts for its withdrawal. -/
theorem life_sign {req : SignRequest} {answer : Except Err SignResponse}
    (moved : step (.constructAndSign id) (.sign req) w answer w') (other : UUID) :
    lifeOf other w' =
      if other = id then { lifeOf id w with signs := (lifeOf id w).signs + 1 }
        else lifeOf other w := by
  obtain ⟨signs, submissions, accepted⟩ := counts_step moved other
  have store : w'.store = w.store := by
    cases moved
    rfl
  have state : (lifeOf other w').state = (lifeOf other w).state := congrArg (·.stateOf other) store
  split
  · rename_i same
    subst same
    refine Life.ext state (signs.trans ?_) (submissions.trans ?_) (accepted.trans ?_) <;>
      simp [Entry.signs]
  · rename_i different
    refine Life.ext state (signs.trans ?_) (submissions.trans ?_) (accepted.trans ?_) <;>
      simp [Ne.symm different]

/-- A submission counts for its withdrawal. -/
theorem life_submit {req : BroadcastRequest} {answer : Except Err BroadcastResponse}
    (moved : step (.broadcast id) (.broadcastTx req) w answer w') (other : UUID) :
    lifeOf other w' = if other = id then { lifeOf id w with
        submissions := (lifeOf id w).submissions + 1
        accepted := (lifeOf id w).accepted + (if answer.toBool then 1 else 0) }
      else lifeOf other w := by
  obtain ⟨signs, submissions, accepted⟩ := counts_step moved other
  have store : w'.store = w.store := by
    cases moved
    rfl
  have state : (lifeOf other w').state = (lifeOf other w).state := congrArg (·.stateOf other) store
  split
  · rename_i same
    subst same
    refine Life.ext state (signs.trans ?_) (submissions.trans ?_) (accepted.trans ?_)
    · simp
    · simp [Entry.submits, Op.submits]
    · cases answer <;> simp [Entry.accepts, Except.toBool]
  · rename_i different
    refine Life.ext state (signs.trans ?_) (submissions.trans ?_) (accepted.trans ?_) <;>
      simp [Ne.symm different]

/-- The state of a withdrawal is written. -/
theorem life_update {state : WithdrawalState} {reason txHash decision : String}
    {answer : Except Err Unit}
    (moved : step caller (.store (.updateWithdrawalState id state reason txHash decision))
      w answer w')
    (other : UUID) : lifeOf other w' =
      if other = id then { lifeOf id w with state := (lifeOf id w).state.map fun _ => state }
      else lifeOf other w := by
  obtain ⟨signs, submissions, accepted⟩ := counts_same moved (fun _ here => by cases here)
    (fun _ here => by cases here) other
  obtain ⟨_, -, stored⟩ := store_of_step moved
  have written := w.store.stateOf_updateWithdrawalState id state reason txHash decision other
  have written : (lifeOf other w').state = _ := (congrArg (·.stateOf other) stored).trans written
  split
  · rename_i same
    subst same
    rw [if_pos rfl] at written
    exact Life.ext written signs submissions accepted
  · rename_i different
    rw [if_neg (Ne.symm different)] at written
    exact Life.ext written signs submissions accepted

/-- A withdrawal is created, or not. -/
theorem life_create {wr : WithdrawalRequest} {answer : Except Err Unit}
    (moved : step caller (.store (.createWithdrawal wr)) w answer w') :
    (∃ err, answer = .error err) ∧ (∀ other, lifeOf other w' = lifeOf other w) ∨
      answer = .ok () ∧ (lifeOf wr.id w).state = none ∧ ∀ other, lifeOf other w' =
        if other = wr.id then { lifeOf wr.id w with state := some wr.state }
          else lifeOf other w := by
  have counts (other : UUID) := counts_same moved (fun _ here => by cases here)
    (fun _ here => by cases here) other
  obtain ⟨now, rfl, stored⟩ := store_of_step moved
  have refused (err : Err) (here : w.store.createWithdrawal wr = (.error err, w.store)) :
      (∃ err, (StoreOp.exec (.createWithdrawal wr) now w.store).1 = .error err) ∧
        ∀ other, lifeOf other w' = lifeOf other w := by
    have same : w'.store = w.store := stored.trans (congrArg Prod.snd here)
    refine ⟨⟨err, congrArg Prod.fst here⟩, fun other => ?_⟩
    exact Life.ext (congrArg (·.stateOf other) same) (counts other).1 (counts other).2.1
      (counts other).2.2
  cases found : w.store.withdrawals.get wr.id with
  | some row =>
    exact .inl (refused ⟨"withdrawal exists", none⟩ (by simp only [Store.createWithdrawal, found]))
  | none =>
    by_cases claimed : wr.dedupKey ∈ w.store.inflightWithdrawals
    · exact .inl (refused ⟨"duplicate in-flight withdrawal", some .errDuplicateWithdrawal⟩
        (by simp only [Store.createWithdrawal, found, if_pos claimed]))
    · have created : w.store.createWithdrawal wr = (.ok (), { w.store with
          inflightWithdrawals := insert wr.dedupKey w.store.inflightWithdrawals
          withdrawals := w.store.withdrawals.put wr }) := by
        simp only [Store.createWithdrawal, found, if_neg claimed]
      have withdrawals : w'.store.withdrawals = w.store.withdrawals.put wr :=
        congrArg Store.withdrawals (stored.trans (congrArg Prod.snd created))
      refine .inr ⟨congrArg Prod.fst created, ?_, fun other => ?_⟩
      · show (w.store.withdrawals.get wr.id).map _ = none
        rw [found]
        rfl
      · split
        · rename_i same
          subst same
          refine Life.ext ?_ (counts wr.id).1 (counts wr.id).2.1 (counts wr.id).2.2
          show (w'.store.withdrawals.get wr.id).map _ = _
          rw [withdrawals, Data.Table.get_put, if_pos rfl]
          rfl
        · rename_i different
          refine Life.ext ?_ (counts other).1 (counts other).2.1 (counts other).2.2
          show (w'.store.withdrawals.get other).map _ = (w.store.withdrawals.get other).map _
          rw [withdrawals, Data.Table.get_put, if_neg (Ne.symm different)]

end Steps

/-- A program that started in `w` has brought one withdrawal to a life and left the others alone,
and has asked the signer and the gateway only if it may. -/
structure Moved (id : UUID) (w : World SagaCall) (life : Life) (w' : World SagaCall) : Prop where
  own : lifeOf id w' = life
  others : ∀ other, other ≠ id → lifeOf other w' = lifeOf other w
  asked : Asked w w'

namespace Moved

variable {caller : SagaCall} {id : UUID} {w w₁ : World SagaCall} {life : Life} {α β : Type}
  {post : α → World SagaCall → Prop}

/-- Nothing has happened. -/
theorem start (id : UUID) (w : World SagaCall) : Moved id w (lifeOf id w) w :=
  ⟨rfl, fun _ _ => rfl, .refl w⟩

/-- A call that changes the life of one withdrawal only. -/
theorem after {op : Op} {answer : op.Ans} {w₂ : World SagaCall} {life' : Life}
    (here : Moved id w life w₁) (moved : step caller op w₁ answer w₂) (asked : op.AskedBy caller)
    (own : lifeOf id w₂ = life')
    (others : ∀ other, other ≠ id → lifeOf other w₂ = lifeOf other w₁) : Moved id w life' w₂ :=
  ⟨own, fun other different => (others other different).trans (here.others other different),
    here.asked.after asked moved⟩

/-- A silent call. -/
theorem quiet {op : Op} {answer : op.Ans} {w₂ : World SagaCall} (here : Moved id w life w₁)
    (silent : op.silent = true) (moved : step caller op w₁ answer w₂) :
    Moved id w life w₂ := by
  refine here.after moved ?_ ((life_silent silent moved id).trans here.own)
    fun other _ => life_silent silent moved other
  cases op with
  | sign _ | broadcastTx _ => cases silent
  | _ => trivial

/-- A part whose calls are plain. -/
theorem plain {program : Prog β} (here : Moved id w life w₁) (calls : program.Calls Op.Plain) :
    program.Wlp (step caller) (fun _ w₂ => Moved id w life w₂) w₁ := by
  induction program generalizing w₁ with
  | done value => exact here
  | call op next ih =>
    intro answer w₂ moved
    exact ih answer (here.quiet calls.1.silent moved) (calls.2 answer)

/-- A plain call. -/
theorem ask {op : Op} {next : op.Ans → Prog α} (here : Moved id w life w₁) (plain : op.Plain)
    (rest : ∀ answer w₂, Moved id w life w₂ →
      (next answer).Wlp (step caller) post w₂) :
    (perform op >>= next).Wlp (step caller) post w₁ :=
  fun answer w₂ moved => rest answer w₂ (here.quiet plain.silent moved)

/-- The withdrawal is read. -/
theorem read (here : Moved id w life w₁) {next : Except Err WithdrawalRequest → Prog α}
    (missing : ∀ err w₂, Moved id w life w₂ → (next (.error err)).Wlp (step caller) post w₂)
    (found : ∀ wr w₂, wr.id = id → life.state = some wr.state → Moved id w life w₂ →
      (next (.ok wr)).Wlp (step caller) post w₂) :
    (perform (.store (.getWithdrawal id)) >>= next).Wlp (step caller) post w₁ := by
  intro answer w₂ moved
  have same : Moved id w life w₂ := here.quiet rfl moved
  obtain ⟨now, rfl, -⟩ := store_of_step moved
  cases row : w₁.store.withdrawals.get id with
  | none =>
    have absent : (StoreOp.exec (.getWithdrawal id) now w₁.store).1 =
        .error (Store.notFound "withdrawal") := by
      simp only [StoreOp.exec, Store.getWithdrawal, row, Store.found]
    rw [absent]
    exact missing _ w₂ same
  | some wr =>
    have present : (StoreOp.exec (.getWithdrawal id) now w₁.store).1 = .ok wr := by
      simp only [StoreOp.exec, Store.getWithdrawal, row, Store.found]
    rw [present]
    refine found wr w₂ (Data.Table.key_of_get row) ?_ same
    rw [← here.own]
    show w₁.store.stateOf id = _
    rw [Store.stateOf, row]
    rfl

/-- A withdrawal is created. -/
theorem create (here : Moved id w life w₁) {wr : WithdrawalRequest} (same : wr.id = id)
    {next : Except Err Unit → Prog α}
    (refused : ∀ err w₂, Moved id w life w₂ → (next (.error err)).Wlp (step caller) post w₂)
    (created : ∀ w₂, life.state = none → Moved id w { life with state := some wr.state } w₂ →
      (next (.ok ())).Wlp (step caller) post w₂) :
    (perform (.store (.createWithdrawal wr)) >>= next).Wlp (step caller) post w₁ := by
  subst same
  intro answer w₂ moved
  rcases life_create moved with ⟨⟨err, rfl⟩, same⟩ | ⟨rfl, new, lives⟩
  · exact refused err w₂ (here.after moved trivial ((same wr.id).trans here.own)
      fun other _ => same other)
  · rw [here.own] at new
    refine created w₂ new (here.after moved trivial ?_ fun other different => ?_)
    · rw [lives, if_pos rfl, here.own]
    · rw [lives, if_neg different]

/-- The signer is asked. -/
theorem sign (here : Moved id w life w₁) {req : SignRequest}
    {next : Except Err SignResponse → Prog α}
    (rest : ∀ answer w₂, Moved id w { life with signs := life.signs + 1 } w₂ →
      (next answer).Wlp (step (.constructAndSign id)) post w₂) :
    (perform (.sign req) >>= next).Wlp (step (.constructAndSign id)) post w₁ := by
  intro answer w₂ moved
  refine rest answer w₂ (here.after moved ⟨id, rfl⟩ ?_ fun other different => ?_)
  · rw [life_sign moved, if_pos rfl, here.own]
  · rw [life_sign moved, if_neg different]

/-- The transaction is submitted. -/
theorem submit (here : Moved id w life w₁) {req : BroadcastRequest}
    {next : Except Err BroadcastResponse → Prog α}
    (rest : ∀ answer w₂, Moved id w { life with
        submissions := life.submissions + 1
        accepted := life.accepted + (if answer.toBool then 1 else 0) } w₂ →
      (next answer).Wlp (step (.broadcast id)) post w₂) :
    (perform (.broadcastTx req) >>= next).Wlp (step (.broadcast id)) post w₁ := by
  intro answer w₂ moved
  refine rest answer w₂ (here.after moved ⟨id, rfl⟩ ?_ fun other different => ?_)
  · rw [life_submit moved, if_pos rfl, here.own]
  · rw [life_submit moved, if_neg different]

/-- The state is written. -/
theorem update (here : Moved id w life w₁) {state : WithdrawalState}
    {reason txHash decision : String} {next : Except Err Unit → Prog α}
    (rest : ∀ answer w₂, Moved id w { life with state := life.state.map fun _ => state } w₂ →
      (next answer).Wlp (step caller) post w₂) :
    (perform (.store (.updateWithdrawalState id state reason txHash decision)) >>= next).Wlp
      (step caller) post w₁ := by
  intro answer w₂ moved
  refine rest answer w₂ (here.after moved trivial ?_ fun other different => ?_)
  · rw [life_update moved, if_pos rfl, here.own]
  · rw [life_update moved, if_neg different]

/-- The signed bytes of a withdrawal that is there are stored. -/
theorem persist (here : Moved id w life w₁) (there : life.state.isSome = true) {bytes : Bytes}
    {next : Except Err Unit → Prog α}
    (rest : ∀ w₂, Moved id w life w₂ → (next (.ok ())).Wlp (step caller) post w₂) :
    (perform (.store (.updateWithdrawalSignedTx id bytes)) >>= next).Wlp (step caller) post w₁ := by
  intro answer w₂ moved
  have same : Moved id w life w₂ := here.quiet rfl moved
  obtain ⟨now, rfl, -⟩ := store_of_step moved
  rw [← here.own] at there
  obtain ⟨wr, row, -⟩ := Option.map_eq_some_iff.mp (Option.eq_some_of_isSome there)
  have stored : (StoreOp.exec (.updateWithdrawalSignedTx id bytes) now w₁.store).1 = .ok () :=
    congrArg Prod.fst (Store.updateWithdrawal_found row _)
  rw [stored]
  exact rest w₂ same

end Moved

/-! ## The operations -/

/-- An operation has moved one withdrawal by at most one step. -/
def Advances (id : UUID) (w w' : World SagaCall) : Prop :=
  ∃ life, Moved id w life w' ∧ (life = lifeOf id w ∨ Life.Step (lifeOf id w) life)

section Operations

variable {svc : Service} {w : World SagaCall} {id : UUID}

/-- The withdrawal is where it was. -/
theorem Moved.stays {w' : World SagaCall} (here : Moved id w (lifeOf id w) w') : Advances id w w' :=
  ⟨_, here, .inl rfl⟩

/-- Reservations are given back, and the withdrawal fails. -/
theorem Moved.gives_up {caller : SagaCall} {w₁ : World SagaCall} {life : Life}
    (here : Moved id w life w₁) (there : life.state.isSome = true)
    (failed : Life.Step (lifeOf id w) { life with state := some .failed })
    (wallet : Wallet) (n : Int) (ops : List String) (reason : String) (err : Err) :
    (do Service.rollback wallet n ops
        let _ ← perform (.store (.updateWithdrawalState id .failed reason "" ""))
        pure (.error err) : Prog (Except Err Unit)).Wlp (step caller)
      (fun _ w' => Advances id w w') w₁ := by
  refine (here.plain (rollback_plain wallet n ops)).bind fun _ w₂ here => ?_
  refine here.update fun _ w₃ here => ⟨_, here, .inr ?_⟩
  obtain ⟨state, some⟩ := Option.isSome_iff_exists.mp there
  rw [some]
  exact failed

/-- `ConstructAndSign`. -/
theorem constructAndSign_advances (id : UUID) : (svc.constructAndSign id).Wlp
    (step (.constructAndSign id)) (fun _ w' => Advances id w w') w := by
  refine (Moved.start id w).read (fun err w₁ here => here.stays) fun wr w₁ same state here => ?_
  dsimp only
  split
  · exact here.stays
  · rename_i whitelisted
    rw [not_not] at whitelisted
    rw [whitelisted] at state
    refine here.ask trivial fun found w₂ here => ?_
    rcases found with _ | wallet
    · exact here.stays
    change (svc.resolveKey wr.walletID >>= fun _ => _).Wlp _ _ _
    refine (here.plain (resolveKey_plain svc wr.walletID)).bind fun key w₃ here => ?_
    rcases key with _ | keyID
    · exact here.stays
    change (svc.reserve wr wallet >>= fun _ => _).Wlp _ _ _
    refine (here.plain (reserve_plain svc wr wallet)).bind fun reserved w₄ here => ?_
    rcases reserved with _ | ⟨n, ops⟩
    · exact here.stays
    show (svc.signReserved wr wallet keyID n ops).Wlp _ _ _
    unfold Service.signReserved
    rw [same]
    split
    · exact (here.plain (rollback_plain wallet n ops)).bind fun _ w₅ here => here.stays
    · rename_i unsigned _
      refine here.sign fun answer w₅ here => ?_
      have there : (lifeOf id w).state.isSome = true := by rw [state]; rfl
      rcases answer with err | resp
      · exact here.gives_up there (.unsigned state) wallet n ops _ _
      · dsimp only
        split
        · exact here.gives_up there (.unsigned state) wallet n ops _ _
        · refine here.persist there fun w₆ here => ?_
          refine here.update fun answer w₇ here => ?_
          have signed : Life.Step (lifeOf id w) { lifeOf id w with
              signs := (lifeOf id w).signs + 1
              state := (lifeOf id w).state.map fun _ => .signed } := by
            have step := Life.Step.signed state
            rw [state]
            exact step
          rcases answer with _ | _
          · exact ⟨_, here, .inr signed⟩
          · exact (here.plain (emit_plain ..)).bind fun _ w₈ here => ⟨_, here, .inr signed⟩

/-- `Broadcast`. -/
theorem broadcast_advances (id : UUID) : (svc.broadcast id).Wlp (step (.broadcast id))
    (fun _ w' => Advances id w w') w := by
  refine (Moved.start id w).read (fun err w₁ here => here.stays) fun wr w₁ same state here => ?_
  dsimp only
  split
  · exact here.stays
  · rename_i signed
    rw [not_not] at signed
    rw [signed] at state
    refine here.ask trivial fun found w₂ here => ?_
    rcases found with _ | wallet
    · exact here.stays
    dsimp only
    split
    · exact here.stays
    · refine here.submit fun answer w₃ here => ?_
      have there : (lifeOf id w).state.isSome = true := by rw [state]; rfl
      rcases answer with err | resp
      · exact here.gives_up there (.rejected state) wallet _ _ _ _
      · show (svc.settle wr wallet resp.txHash).Wlp _ _ _
        unfold Service.settle
        rw [same]
        refine (here.plain (runIf_calls _ (markSpent_plain ..))).bind fun _ w₄ here => ?_
        refine (here.plain (commitReserved_plain wr wallet)).bind fun _ w₅ here => ?_
        refine here.update fun answer w₆ here => ?_
        have broadcast := Life.Step.broadcast state
        rw [state] at here
        rcases answer with _ | _
        · exact ⟨_, here, .inr broadcast⟩
        · exact (here.plain (emit_plain ..)).bind fun _ w₇ here => ⟨_, here, .inr broadcast⟩

/-- `Confirm`. -/
theorem confirm_advances (id : UUID) (txHash : String) {caller : SagaCall} :
    (svc.confirm id txHash).Wlp (step caller) (fun _ w' => Advances id w w') w := by
  refine (Moved.start id w).read (fun err w₁ here => here.stays) fun wr w₁ same state here => ?_
  dsimp only
  split
  · exact here.stays
  · rename_i broadcast
    rw [not_not] at broadcast
    rw [broadcast] at state
    refine here.update fun answer w₂ here => ?_
    have confirmed := Life.Step.confirmed state
    rw [state] at here
    rcases answer with _ | _
    · exact ⟨_, here, .inr confirmed⟩
    · exact (here.plain (emit_plain ..)).bind fun _ w₃ here => ⟨_, here, .inr confirmed⟩

/-- `Fail`. -/
theorem fail_advances (id : UUID) (reason : String) {caller : SagaCall} :
    (svc.fail id reason).Wlp (step caller) (fun _ w' => Advances id w w') w := by
  refine (Moved.start id w).read (fun err w₁ here => here.stays) fun wr w₁ same state here => ?_
  refine here.ask trivial fun found w₂ here => ?_
  rcases found with _ | wallet
  · exact here.stays
  change (Service.rollback wallet (Service.noncePtr wr) [] >>= fun _ => _).Wlp _ _ _
  refine (here.plain (rollback_plain ..)).bind fun _ w₃ here => ?_
  refine here.update fun answer w₄ here => ?_
  have failed : Life.Step (lifeOf id w) _ := .failed (by rw [state]; rfl)
  rw [state] at here
  rcases answer with _ | _
  · exact ⟨_, here, .inr failed⟩
  · exact (here.plain (emit_plain ..)).bind fun _ w₅ here => ⟨_, here, .inr failed⟩

/-- `OnReorg`. -/
theorem onReorg_advances (id : UUID) (outpoints : List String) {caller : SagaCall} :
    (Service.onReorg id outpoints).Wlp (step caller) (fun _ w' => Advances id w w') w := by
  refine (Moved.start id w).read (fun err w₁ here => here.stays) fun wr w₁ same state here => ?_
  refine here.ask trivial fun restored w₂ here => ?_
  rcases restored with _ | _
  · exact here.stays
  dsimp only
  split
  · rename_i confirmed
    rw [confirmed] at state
    change (perform (.store (.updateWithdrawalState id .broadcast "reorg" "" "")) >>=
      Program.done).Wlp _ _ _
    refine here.update fun answer w₃ here => ?_
    have demoted := Life.Step.demoted state
    rw [state] at here
    exact ⟨_, here, .inr demoted⟩
  · exact here.stays

/-- `Create`. -/
theorem create_advances (req : CreateRequest) {caller : SagaCall} :
    (svc.create req).Wlp (step caller) (fun _ w' => ∃ id, Advances id w w') w := by
  have refused {w₁ : World SagaCall} (here : ∀ id, Moved id w (lifeOf id w) w₁) :
      ∃ id, Advances id w w₁ := ⟨req.walletID, (here req.walletID).stays⟩
  intro found w₁ asked
  have here (id : UUID) : Moved id w (lifeOf id w) w₁ := (Moved.start id w).quiet rfl asked
  rcases found with _ | wallet
  · exact refused here
  show Program.Wlp _ (if _ then _ else if _ then _ else _) _ _
  split
  · exact refused here
  split
  · exact refused here
  intro id w₂ drawn
  have here : Moved id w (lifeOf id w) w₂ := (here id).quiet rfl drawn
  refine here.create rfl (fun err w₃ here => ⟨id, here.stays⟩) fun w₃ new here => ?_
  refine (here.plain (emit_plain ..)).bind fun _ w₄ here => ?_
  refine here.ask trivial fun answer w₅ here => ?_
  refine (here.plain (emit_plain ..)).bind fun _ w₆ here => ?_
  split
  · exact here.update fun _ w₇ here => ⟨id, _, here, .inr (.declined new)⟩
  · refine here.update fun answer w₇ here => ?_
    cases answer <;> exact ⟨id, _, here, .inr (.approved new)⟩

/-- Every operation moves one withdrawal by at most one step. -/
theorem body_advances (call : SagaCall) :
    (svc.body call).Wlp (step call) (fun _ w' => ∃ id, Advances id w w') w := by
  have one {program : Prog (Except Err Unit)} (id : UUID)
      (advances : program.Wlp (step call) (fun _ w' => Advances id w w') w) :
      program.Wlp (step call) (fun _ w' => ∃ id, Advances id w w') w :=
    advances.mono fun _ _ here => ⟨id, here⟩
  cases call with
  | create req => exact (create_advances req).bind fun _ _ here => here
  | constructAndSign id => exact one id (constructAndSign_advances id)
  | broadcast id => exact one id (broadcast_advances id)
  | confirm id txHash => exact one id (confirm_advances id txHash)
  | fail id reason => exact one id (fail_advances id reason)
  | onReorg id outpoints => exact one id (onReorg_advances id outpoints)
  | trackUTXO u =>
    have tracks : (trackUTXO u).Calls Op.Plain := ⟨trivial, fun _ => trivial⟩
    exact one u.walletID (((Moved.start u.walletID w).plain tracks).mono fun _ _ here => here.stays)
  | reserveNonce walletID chain =>
    refine one walletID ?_
    exact ((Moved.start walletID w).plain (reserveLoop_plain ..)).bind fun _ _ here => here.stays

/-- After a complete operation every life is where it was, or one step further, and the signer and
the gateway were asked only by the operations that may. -/
theorem life_of_completes {guard : SagaCall → World SagaCall → Prop} {w' : World SagaCall}
    (completes : Completes step svc.body guard w w') :
    (∀ id, lifeOf id w' = lifeOf id w ∨ Life.Step (lifeOf id w) (lifeOf id w')) ∧ Asked w w' := by
  obtain ⟨call, result, -, execution⟩ := completes
  obtain ⟨moved, life, here, stepped⟩ :=
    (Program.wlp_iff_exec _ _ _).mp (body_advances call) result w' execution
  refine ⟨fun id => ?_, here.asked⟩
  by_cases same : id = moved
  · rw [same, here.own]
    exact stepped
  · exact .inl (here.others id same)

/-- Over a run of complete operations every life takes steps of the machine, and the signer and the
gateway are asked only by the operations that may. -/
theorem life_of_runs {guard : SagaCall → World SagaCall → Prop} {w' : World SagaCall}
    (runs : Runs step svc.body guard w w') :
    (∀ id, Relation.ReflTransGen Life.Step (lifeOf id w) (lifeOf id w')) ∧ Asked w w' := by
  induction runs with
  | refl => exact ⟨fun _ => .refl, .refl w⟩
  | tail _ last ih =>
    obtain ⟨moves, asked⟩ := life_of_completes last
    refine ⟨fun id => ?_, ih.2.trans asked⟩
    rcases moves id with same | stepped
    · rw [same]
      exact ih.1 id
    · exact (ih.1 id).tail stepped

end Operations

/-- The run of an accepted and confirmed withdrawal. -/
def confirmedRun : List (SagaCall × Script) :=
  signedEVM "ETH" 10 ++
    [(.broadcast (sampleID 10), accepting 10), (.confirm (sampleID 10) "0x01", accepting 10)]

/-- Over any run of complete operations every withdrawal takes steps of the machine only: it is made
approved or declined, signed when approved, broadcast when signed, confirmed when broadcast and
demoted when confirmed. A request to the signer is made by `ConstructAndSign` only and one to the
gateway by `Broadcast` only, so that each of them is one of these steps. -/
theorem withdrawals_follow_lifecycle (svc : Service) (w w' : World SagaCall)
    (runs : Runs step svc.body (fun _ _ => True) w w') :
    (∀ id, Relation.ReflTransGen Life.Step (lifeOf id w) (lifeOf id w')) ∧ Asked w w' :=
  life_of_runs runs

/-- The life of a withdrawal that is confirmed. -/
theorem withdrawals_follow_lifecycle_confirmed :
    let w := sampleService.play confirmedRun sampleStart
    Relation.ReflTransGen Life.Step (lifeOf (sampleID 10) sampleStart) (lifeOf (sampleID 10) w) ∧
      Asked sampleStart w ∧ lifeOf (sampleID 10) sampleStart = .unborn ∧
      lifeOf (sampleID 10) w = ⟨some .confirmed, 1, 1, 1⟩ := by
  have admitted : sampleService.Admits (fun _ _ => True) confirmedRun sampleStart :=
    sampleService.admits_of_calls (fun _ _ => trivial) sampleStart
  obtain ⟨follows, asked⟩ :=
    withdrawals_follow_lifecycle _ _ _ (sampleService.play_runs _ _ admitted)
  exact ⟨follows _, asked, by decide +kernel, by decide +kernel⟩

/-- Over any run of complete operations from a world that does not know a withdrawal, the signer is
asked for it once at most, it is submitted at most as often as it was signed, it is in state
`BROADCAST` or `CONFIRMED` only after one submission that the gateway accepted, and once one has
been accepted it is in one of these states or in state `FAILED`. -/
theorem signed_and_submitted_once (svc : Service) (start w : World SagaCall) (id : UUID)
    (unknown : lifeOf id start = .unborn)
    (runs : Runs step svc.body (fun _ _ => True) start w) :
    (lifeOf id w).signs ≤ 1 ∧ (lifeOf id w).submissions ≤ (lifeOf id w).signs ∧
      (w.store.stateOf id = some .broadcast ∨ w.store.stateOf id = some .confirmed →
        (lifeOf id w).accepted = 1) ∧
      ((lifeOf id w).accepted = 1 → w.store.stateOf id = some .broadcast ∨
        w.store.stateOf id = some .confirmed ∨ w.store.stateOf id = some .failed) := by
  have regular : (lifeOf id w).Regular := .of_unborn (unknown ▸ (life_of_runs runs).1 id)
  have state : (lifeOf id w).state = w.store.stateOf id := rfl
  rw [← state]
  unfold Life.Regular at regular
  split at regular <;> rename_i here <;> rw [here] <;> simp <;> omega

/-- The counts of a withdrawal that is confirmed. -/
theorem signed_and_submitted_once_confirmed :
    let w := sampleService.play confirmedRun sampleStart
    w.store.stateOf (sampleID 10) = some .confirmed ∧ (lifeOf (sampleID 10) w).accepted = 1 := by
  have admitted : sampleService.Admits (fun _ _ => True) confirmedRun sampleStart :=
    sampleService.admits_of_calls (fun _ _ => trivial) sampleStart
  have confirmed : (sampleService.play confirmedRun sampleStart).store.stateOf (sampleID 10) =
      some .confirmed := by decide +kernel
  obtain ⟨-, -, accepted, -⟩ := signed_and_submitted_once sampleService sampleStart _ (sampleID 10)
    (by decide +kernel) (sampleService.play_runs _ _ admitted)
  exact ⟨confirmed, accepted (.inr confirmed)⟩

end WalletManagement
