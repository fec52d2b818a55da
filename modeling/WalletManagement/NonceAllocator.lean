import WalletManagement.Data.Handouts
import WalletManagement.Interaction.Crew
import WalletManagement.NonceSafety

/-!
# The nonce allocator under concurrency

Any number of clients reserve, commit and roll back nonces, each call of the service a thread of
its own. The locker may answer anything: what keeps the nonces apart is the counter of the row,
which `memstore` moves in one step. A client that commits or rolls back only nonces it holds keeps
the numbers below the counter divided into held nonces, committed nonces and gaps.
-/

namespace WalletManagement

open Interaction Data Go

/-! ## Clients -/

/-- The calls of `nonce.Service`. -/
inductive NonceCall where
  | reserve (walletID : UUID) (chain : Chain)
  | commit (walletID : UUID) (chain : Chain) (nonce : Int)
  | rollback (walletID : UUID) (chain : Chain) (nonce : Int)

/-- The program of a call, with only the error of its result. -/
def NonceCall.body : NonceCall → Prog (Except Err Unit)
  | .reserve walletID chain => do pure ((← reserveNonce walletID chain).map fun _ => ())
  | .commit walletID chain nonce => commitNonce walletID chain nonce
  | .rollback walletID chain nonce => rollbackNonce walletID chain nonce

/-- What happens to the nonces of a row. -/
inductive NonceEvent where
  | reserved (n : Int)
  | committed (n : Int)
  /-- A rollback, and whether it found a higher pending nonce than its reservation left. -/
  | rolledBack (n : Int) (higher : Bool)

/-- What a call of the store does to the nonces of a row. -/
def StoreOp.nonceEvent (walletID : UUID) (chain : Chain) :
    (op : StoreOp) → Except Err op.Result → Store → Option NonceEvent
  | .incrementPendingNonce walletID' chain', .ok answer, _ =>
    if walletID' = walletID ∧ chain' = chain then some (.reserved answer.1) else none
  | .advanceBroadcastNonce walletID' chain' n, _, _ =>
    if walletID' = walletID ∧ chain' = chain then some (.committed n) else none
  | .rollbackPendingNonce walletID' chain' n, _, s =>
    if walletID' = walletID ∧ chain' = chain then
      some (.rolledBack n (n + 1 < s.pending walletID' chain'))
    else none
  | _, _, _ => none

section Handouts

variable {ι C : Type} [DecidableEq C]

/-- What a move does to the nonces of a row. -/
def nonceEvent (walletID : UUID) (chain : Chain) (move : Move calls (World ι)) :
    Option NonceEvent :=
  match move.op, move.answer with
  | .store op, answer => op.nonceEvent walletID chain answer move.before.store
  | _, _ => none

/-- The nonces of a row after one more event. -/
def NonceEvent.note (client : C) (h : Handouts C) : NonceEvent → Handouts C
  | .reserved n => h.reserve client n
  | .committed n => h.commit client n
  | .rolledBack n higher => h.giveBack client n higher

/-- The nonces of a row: who holds which, which are committed, and which are gaps. -/
def nonceHandouts (client : ι → C) (walletID : UUID) (chain : Chain) :
    List (ι × Move calls (World ι)) → Handouts C
  | [] => {}
  | (i, move) :: older =>
    match nonceEvent walletID chain move with
    | none => nonceHandouts client walletID chain older
    | some event => event.note (client i) (nonceHandouts client walletID chain older)

/-- A call that a disciplined client may make: it commits or rolls back a nonce it holds, and
reserves one while the counter can still move. -/
def Disciplined (client : ι → C) (moves : List (ι × Move calls (World ι))) (i : ι) (s : Store) :
    Op → Prop
  | .store (.incrementPendingNonce walletID chain) => s.pending walletID chain < 2 ^ 63 - 1
  | .store (.advanceBroadcastNonce walletID chain n) =>
    (client i, n) ∈ (nonceHandouts client walletID chain moves).held
  | .store (.rollbackPendingNonce walletID chain n) =>
    (client i, n) ∈ (nonceHandouts client walletID chain moves).held
  | _ => True

instance (client : ι → C) (moves : List (ι × Move calls (World ι))) (i : ι) (s : Store) (op : Op) :
    Decidable (Disciplined client moves i s op) := by
  unfold Disciplined
  split <;> infer_instance

/-- Every client is disciplined. -/
def AllDisciplined (client : ι → C) : Crew.Guard calls (World ι) ι (Except Err Unit) :=
  fun crew i move => Disciplined client crew.moves i move.before.store move.op

instance (client : ι → C) (crew : Crew calls (World ι) ι (Except Err Unit)) (i : ι)
    (move : Move calls (World ι)) : Decidable (AllDisciplined client crew i move) :=
  inferInstanceAs (Decidable (Disciplined client crew.moves i move.before.store move.op))

/-! ## The invariant -/

/-- The nonces of every row are divided, and no counter has wrapped. -/
structure NoncesDivided (client : ι → C) (w : World ι) (moves : List (ι × Move calls (World ι))) :
    Prop where
  /-- The division. -/
  divided : ∀ walletID chain, (nonceHandouts client walletID chain moves).Partition
    (w.store.pending walletID chain) (w.store.broadcasted walletID chain)
  /-- The counters fit. -/
  fits : ∀ walletID chain, w.store.pending walletID chain ≤ 2 ^ 63 - 1

variable {client : ι → C} {w w' : World ι} {moves : List (ι × Move calls (World ι))} {i : ι}
  {walletID : UUID} {chain : Chain} {n : Int}

/-- A move that does nothing to the nonces keeps them divided. -/
theorem NoncesDivided.frame (divided : NoncesDivided client w moves) {move : Move calls (World ι)}
    (nothing : ∀ walletID chain, nonceEvent walletID chain move = none)
    (same : w'.store.nonces = w.store.nonces) : NoncesDivided client w' ((i, move) :: moves) := by
  have pending := pending_congr same
  have broadcasted := broadcasted_congr same
  refine ⟨fun walletID chain => ?_, fun walletID chain => ?_⟩
  · rw [nonceHandouts, nothing, pending, broadcasted]
    exact divided.divided walletID chain
  · rw [pending]
    exact divided.fits walletID chain

/-- A move on one row keeps the nonces divided, if it keeps those of its row and leaves the counters
of the other rows alone. -/
theorem NoncesDivided.of_row (divided : NoncesDivided client w moves) {move : Move calls (World ι)}
    (event : NonceEvent) (only : ∀ walletID' chain', nonceEvent walletID' chain' move =
      if walletID = walletID' ∧ chain = chain' then some event else none)
    (others : ∀ walletID' chain', ¬(walletID = walletID' ∧ chain = chain') →
      w'.store.pending walletID' chain' = w.store.pending walletID' chain' ∧
      w'.store.broadcasted walletID' chain' = w.store.broadcasted walletID' chain')
    (here : (event.note (client i) (nonceHandouts client walletID chain moves)).Partition
      (w'.store.pending walletID chain) (w'.store.broadcasted walletID chain))
    (fits : w'.store.pending walletID chain ≤ 2 ^ 63 - 1) :
    NoncesDivided client w' ((i, move) :: moves) := by
  refine ⟨fun walletID' chain' => ?_, fun walletID' chain' => ?_⟩
  · rw [nonceHandouts, only]
    by_cases row : walletID = walletID' ∧ chain = chain'
    · rw [if_pos row]
      obtain ⟨rfl, rfl⟩ := row
      exact here
    · rw [if_neg row, (others walletID' chain' row).1, (others walletID' chain' row).2]
      exact divided.divided walletID' chain'
  · by_cases row : walletID = walletID' ∧ chain = chain'
    · obtain ⟨rfl, rfl⟩ := row
      exact fits
    · rw [(others walletID' chain' row).1]
      exact divided.fits walletID' chain'

/-- A reservation keeps the nonces divided. -/
theorem NoncesDivided.reserve (divided : NoncesDivided client w moves)
    {answer : Except Err (Int × Int)} (room : w.store.pending walletID chain < 2 ^ 63 - 1)
    (moved : step i (.store (.incrementPendingNonce walletID chain)) w answer w') :
    NoncesDivided client w'
      ((i, ⟨.store (.incrementPendingNonce walletID chain), w, answer, w'⟩) :: moves) := by
  obtain ⟨_, rfl, rfl⟩ := step_store.mp moved
  have parts := divided.divided walletID chain
  have natural := parts.mark_nonneg
  have bounded := parts.bounded
  have pending := w.store.pending_increment walletID chain
  have broadcasted := w.store.broadcasted_increment walletID chain
  have next : wrapInt64 (w.store.pending walletID chain + 1) = w.store.pending walletID chain + 1 :=
    wrapInt64_of_inInt64 ⟨by omega, by omega⟩
  refine divided.of_row (.reserved (w.store.pending walletID chain)) (fun _ _ => rfl)
    (fun walletID' chain' other => ?_) ?_ ?_
  · exact ⟨(pending walletID' chain').trans (if_neg other), broadcasted walletID' chain'⟩
  · show Handouts.Partition _ ((w.store.incrementPendingNonce walletID chain).2.pending _ _)
      ((w.store.incrementPendingNonce walletID chain).2.broadcasted _ _)
    rw [pending, if_pos ⟨rfl, rfl⟩, next, broadcasted]
    exact parts.reserve (client i)
  · show (w.store.incrementPendingNonce walletID chain).2.pending _ _ ≤ _
    rw [pending, if_pos ⟨rfl, rfl⟩, next]
    omega

/-- A commit of a held nonce keeps the nonces divided. -/
theorem NoncesDivided.commit (divided : NoncesDivided client w moves) {answer : Except Err Unit}
    (holds : (client i, n) ∈ (nonceHandouts client walletID chain moves).held)
    (moved : step i (.store (.advanceBroadcastNonce walletID chain n)) w answer w') :
    NoncesDivided client w'
      ((i, ⟨.store (.advanceBroadcastNonce walletID chain n), w, answer, w'⟩) :: moves) := by
  obtain ⟨_, rfl, rfl⟩ := step_store.mp moved
  have parts := divided.divided walletID chain
  have inside := parts.of_held holds
  have fits := divided.fits walletID chain
  have pending := w.store.pending_advance walletID chain n
  have broadcasted := w.store.broadcasted_advance walletID chain n
  have next : wrapInt64 (n + 1) = n + 1 := wrapInt64_of_inInt64 ⟨by omega, by omega⟩
  refine divided.of_row (.committed n) (fun _ _ => rfl)
    (fun walletID' chain' other => ?_) ?_ ?_
  · exact ⟨pending walletID' chain', (broadcasted walletID' chain').trans (if_neg other)⟩
  · show Handouts.Partition _ ((w.store.advanceBroadcastNonce walletID chain n).pending _ _)
      ((w.store.advanceBroadcastNonce walletID chain n).broadcasted _ _)
    rw [pending, broadcasted, if_pos ⟨rfl, rfl⟩, next]
    exact parts.commit holds
  · exact (pending walletID chain).trans_le fits

/-- A rollback of a held nonce keeps the nonces divided. -/
theorem NoncesDivided.rollback (divided : NoncesDivided client w moves) {answer : Except Err Int}
    (holds : (client i, n) ∈ (nonceHandouts client walletID chain moves).held)
    (moved : step i (.store (.rollbackPendingNonce walletID chain n)) w answer w') :
    NoncesDivided client w'
      ((i, ⟨.store (.rollbackPendingNonce walletID chain n), w, answer, w'⟩) :: moves) := by
  obtain ⟨_, rfl, rfl⟩ := step_store.mp moved
  have parts := divided.divided walletID chain
  have inside := parts.of_held holds
  have fits := divided.fits walletID chain
  have next : wrapInt64 (n + 1) = n + 1 := wrapInt64_of_inInt64 ⟨by omega, by omega⟩
  have pending := Store.pending_rollback n (show w.store.pending walletID chain ≠ 0 by omega)
  have broadcasted := w.store.broadcasted_rollback walletID chain n
  rw [next] at pending
  refine divided.of_row (.rolledBack n (n + 1 < w.store.pending walletID chain))
    (fun _ _ => rfl) (fun walletID' chain' other => ?_) ?_ ?_
  · exact ⟨(pending walletID' chain').trans (if_neg fun both => other both.1),
      broadcasted walletID' chain'⟩
  · show Handouts.Partition _ ((w.store.rollbackPendingNonce walletID chain n).2.pending _ _)
      ((w.store.rollbackPendingNonce walletID chain n).2.broadcasted _ _)
    rw [pending, broadcasted]
    by_cases last : w.store.pending walletID chain = n + 1
    · rw [if_pos ⟨⟨rfl, rfl⟩, last⟩, decide_eq_false (by omega)]
      exact parts.giveBack_last holds last
    · rw [if_neg fun both => last both.2, decide_eq_true (by omega)]
      exact parts.giveBack_gap holds
  · show (w.store.rollbackPendingNonce walletID chain n).2.pending _ _ ≤ _
    rw [pending]
    split
    · omega
    · exact fits

end Handouts

/-! ## Schedules -/

/-- The calls of the nonce service. -/
def Op.ofNonces : Op → Prop
  | .acquire _ | .release _ _ => True
  | .store (.incrementPendingNonce _ _) | .store (.advanceBroadcastNonce _ _ _) => True
  | .store (.rollbackPendingNonce _ _ _) => True
  | _ => False

/-- The nonce service makes no other calls. -/
theorem NonceCall.body_calls (call : NonceCall) : call.body.Calls Op.ofNonces := by
  cases call with
  | reserve walletID chain =>
    refine Program.Calls.bind ?_ fun _ => trivial
    unfold reserveNonce
    generalize 50 = tries
    induction tries with
    | zero => trivial
    | succ tries ih =>
      refine ⟨trivial, fun answer => ?_⟩
      match answer with
      | .error _ => trivial
      | .ok (_, false) => exact ih
      | .ok (token, true) =>
        refine ⟨trivial, fun answer => ⟨trivial, fun _ => ?_⟩⟩
        cases answer <;> trivial
  | commit walletID chain nonce => exact ⟨trivial, fun _ => trivial⟩
  | rollback walletID chain nonce =>
    refine ⟨trivial, fun answer => ?_⟩
    cases answer <;> trivial

/-- In every schedule of disciplined clients, from a store without nonces, the numbers below the
pending nonce of each row are the held nonces, the committed nonces and the gaps, each once, and the
broadcast nonce is the one after the largest committed nonce. -/
theorem nonces_divided {ι C : Type} [DecidableEq ι] [DecidableEq C] (client : ι → C)
    (call : ι → NonceCall) (start : World ι) (unused : start.store.nonces = .empty)
    {crew : Crew calls (World ι) ι (Except Err Unit)}
    (schedule : Crew.Reachable step (AllDisciplined client)
      (Crew.start (fun i => (call i).body) start) crew) (walletID : UUID) (chain : Chain) :
    (nonceHandouts client walletID chain crew.moves).Partition
      (crew.state.store.pending walletID chain) (crew.state.store.broadcasted walletID chain) := by
  have initial : NoncesDivided client start (Crew.start (fun i => (call i).body) start).moves := by
    have row (walletID : UUID) (chain : Chain) : start.store.nonce walletID chain =
        { walletID, chain } := by simp [Store.nonce, unused]
    refine ⟨fun walletID chain => ?_, fun walletID chain => ?_⟩
    · simp only [Store.pending, Store.broadcasted, row]
      exact .empty
    · simp [Store.pending, row]
  refine (schedule.inv_of_calls (fun crew => NoncesDivided client crew.state crew.moves)
    (fun i => (call i).body_calls) ?_ initial).divided walletID chain
  intro crew i op next answer w' divided _ ours moved disciplined
  cases op with
  | acquire _ => exact divided.frame (fun _ _ => rfl) (by rw [moved]; rfl)
  | release _ _ => exact divided.frame (fun _ _ => rfl) (by rw [moved]; rfl)
  | store op =>
    cases op with
    | incrementPendingNonce walletID chain => exact divided.reserve disciplined moved
    | advanceBroadcastNonce walletID chain n => exact divided.commit disciplined moved
    | rollbackPendingNonce walletID chain n => exact divided.rollback disciplined moved
    | _ => exact ours.elim
  | _ => exact ours.elim

/-! ## A worked schedule -/

/-- Six calls of two clients on one row. -/
def sampleNonceCalls (i : Fin 6) : NonceCall :=
  let row := sampleEVMWallet
  [.reserve row.id row.chain, .reserve row.id row.chain, .rollback row.id row.chain 0,
    .commit row.id row.chain 1, .reserve row.id row.chain, .rollback row.id row.chain 2].get i

/-- The client of each call. -/
def sampleNonceClient (i : Fin 6) : String := if i = 1 ∨ i = 3 then "second" else "first"

/-- Two reservations overlap; then the first client rolls its nonce back, the second commits, and
the first reserves and rolls back once more. -/
def sampleNonceSchedule : Crew calls (World (Fin 6)) (Fin 6) (Except Err Unit) :=
  (Crew.start (fun i => (sampleNonceCalls i).body) { store := {} }).play
    (scripted ([0, 1, 0, 1, 1, 0, 2, 3, 4, 4, 5].map fun i => (i, {})))

/-- What became of the nonces of the row. -/
def sampleHandouts : Handouts String :=
  nonceHandouts sampleNonceClient sampleEVMWallet.id sampleEVMWallet.chain sampleNonceSchedule.moves

/-- The row after the schedule. -/
def sampleNonceRow : Nonce :=
  sampleNonceSchedule.state.store.nonce sampleEVMWallet.id sampleEVMWallet.chain

/-- The rolled back nonce 0 is a gap, nonce 1 is committed, and nonce 2 can be reserved again. -/
theorem nonces_divided_sample :
    sampleHandouts.Partition sampleNonceRow.pendingNonce sampleNonceRow.broadcastNonce ∧
      sampleHandouts.held = [] ∧ sampleHandouts.committed = [1] ∧ sampleHandouts.gaps = {0} ∧
      sampleNonceRow.pendingNonce = 2 ∧ sampleNonceRow.broadcastNonce = 2 := by
  have schedule : Crew.Reachable step (AllDisciplined sampleNonceClient)
      (Crew.start (fun i => (sampleNonceCalls i).body) { store := {} }) sampleNonceSchedule :=
    scripted_reachable (by decide +kernel)
  refine ⟨nonces_divided sampleNonceClient sampleNonceCalls _ rfl schedule _ _, ?_⟩
  decide +kernel

end WalletManagement
