import WalletManagement.Interaction.Snapshots
import WalletManagement.MemStore

/-!
# Concurrent locks of unspent outputs in Postgres

The methods for unspent outputs as the requests they send to the server. `LockUTXOs` is a
transaction of conditional updates, which fails when one of them affects no row; `MarkUTXOsSpent`,
`RestoreUTXOs` and `InsertUTXO` are statements of their own. `SelectForAmount` has no lock of its
own around the rows that it reads and `LockUTXOs`, so that two selections may well choose the same
outputs: the row locks of the server have to keep them apart.
-/

namespace WalletManagement

open Interaction

/-! ## The methods -/

/-- The statements on the table `utxos`. -/
abbrev utxoRows : Signature := rowCalls String UTXO Err

/-- `SET lock_state='LOCKED', locked_at=now() … WHERE lock_state='FREE'`. -/
def lockFree (now : Int) (u : UTXO) : Option UTXO :=
  if u.lockState = .free then some (Store.setLocked now u) else none

/-- The body of the transaction of `LockUTXOs`. All its statements see `now()` as the time at which
the transaction began. -/
def lockBody (now : Int) : List String → Program utxoRows (Except Err Unit)
  | [] => .done (.ok ())
  | outpoint :: rest => .call (.update outpoint (lockFree now)) fun
    | .error err => .done (.error err)
    | .ok false => .done (.error ⟨"utxo not free: " ++ outpoint, none⟩)
    | .ok true => lockBody now rest

/-- A loop of `UPDATE`s on their own, which ends at the first error. Each has its own `now()`. -/
def updateEach (set : Int → UTXO → UTXO) (clock : Nat → Int) :
    List String → Job String UTXO Err (Except Err Unit)
  | [] => .done (.ok ())
  | outpoint :: rest => .alone (.update outpoint fun u => some (set (clock rest.length) u)) fun
    | .error err => .done (.error err)
    | .ok _ => updateEach set clock rest

/-- `LockUTXOs`. -/
def lockJob (now : Int) (outpoints : List String) : Job String UTXO Err (Except Err Unit) :=
  if outpoints = [] then .done (.ok ()) else .inTx (lockBody now outpoints) .done

/-- `MarkUTXOsSpent`. -/
def spendJob (clock : Nat → Int) (txHash : String) (outpoints : List String) :
    Job String UTXO Err (Except Err Unit) :=
  updateEach (Store.setSpent · txHash) clock outpoints

/-- `RestoreUTXOs`. -/
def restoreJob (clock : Nat → Int) (outpoints : List String) :
    Job String UTXO Err (Except Err Unit) :=
  updateEach Store.setFree clock outpoints

/-- `InsertUTXO`. -/
def insertJob (now : Int) (u : UTXO) : Job String UTXO Err (Except Err Unit) :=
  .alone (.insert u.outpoint { u with updatedAt := now }) fun
    | .error err => .done (.error err)
    | .ok _ => .done (.ok ())

/-- A call of one of the methods, with what the server's clock says to its statements. The readings
of a loop are numbered from its last statement. -/
inductive UTXOCall where
  | lock (now : Int) (outpoints : List String)
  | spend (clock : Nat → Int) (outpoints : List String) (txHash : String)
  | restore (clock : Nat → Int) (outpoints : List String)
  | insert (now : Int) (u : UTXO)

/-- What a call runs. -/
def UTXOCall.job : UTXOCall → Job String UTXO Err (Except Err Unit)
  | .lock now outpoints => lockJob now outpoints
  | .spend clock outpoints txHash => spendJob clock txHash outpoints
  | .restore clock outpoints => restoreJob clock outpoints
  | .insert now u => insertJob now u

/-- The call frees no output. -/
def UTXOCall.keepsLocks : UTXOCall → Bool
  | .restore _ _ => false
  | _ => true

/-- Every row that the transaction updates is taken, and it fails otherwise. -/
theorem confirms_lockBody (now : Int) (outpoints held : List String) :
    Confirms (lockBody now outpoints) held [] := by
  induction outpoints generalizing held with
  | nil => rfl
  | cons outpoint rest ih =>
    intro affected
    cases affected with
    | false => trivial
    | true => exact ih _

theorem confirming_updateEach (set : Int → UTXO → UTXO) (clock : Nat → Int)
    (outpoints : List String) : (updateEach set clock outpoints).Confirming := by
  induction outpoints with
  | nil => trivial
  | cons outpoint rest ih =>
    intro answer
    cases answer with
    | error err => trivial
    | ok _ => exact ih

theorem UTXOCall.confirming (call : UTXOCall) : call.job.Confirming := by
  cases call with
  | lock now outpoints =>
    show (lockJob now outpoints).Confirming
    unfold lockJob
    split
    · trivial
    · exact ⟨confirms_lockBody now outpoints [], fun _ => trivial⟩
  | spend clock outpoints txHash => exact confirming_updateEach _ clock outpoints
  | restore clock outpoints => exact confirming_updateEach _ clock outpoints
  | insert now u => exact fun answer => by cases answer <;> trivial

/-! ## Locks -/

/-- The output is in the table and not free. -/
def Taken (rows : Rows String UTXO) (outpoint : String) : Prop :=
  ∃ u, rows outpoint = some u ∧ u.lockState ≠ .free

/-- No output becomes free. -/
def KeepsTaken (rows rows' : Rows String UTXO) : Prop :=
  ∀ outpoint, Taken rows outpoint → Taken rows' outpoint

/-- A row is written with a state other than `FREE`. -/
theorem keepsTaken_update {rows : Rows String UTXO} {outpoint : String} {u : UTXO}
    (unfree : u.lockState ≠ .free) : KeepsTaken rows (Function.update rows outpoint (some u)) := by
  intro other taken
  by_cases own : other = outpoint
  · subst own
    exact ⟨u, Function.update_self .., unfree⟩
  · obtain ⟨row, found, state⟩ := taken
    exact ⟨row, (Function.update_of_ne own ..).trans found, state⟩

/-- What a transaction of `LockUTXOs` that commits has done: the outputs are different ones, they
were free, and now they are not. -/
structure LocksAll (outpoints : List String) (rows rows' : Rows String UTXO) : Prop where
  nodup : outpoints.Nodup
  free : ∀ outpoint ∈ outpoints, ∃ u, rows outpoint = some u ∧ u.lockState = .free
  taken : ∀ outpoint ∈ outpoints, Taken rows' outpoint
  kept : KeepsTaken rows rows'

theorem locks_of_exec {valid : UTXO → Prop} {now : Int} {outpoints : List String}
    {rows rows' : Rows String UTXO}
    (ran : (lockBody now outpoints).Exec (rowStep Err valid) rows (.ok ()) rows') :
    LocksAll outpoints rows rows' := by
  induction outpoints generalizing rows with
  | nil =>
    obtain ⟨-, rfl⟩ := ran
    exact ⟨.nil, fun _ member => absurd member List.not_mem_nil,
      fun _ member => absurd member List.not_mem_nil, fun _ taken => taken⟩
  | cons outpoint rest ih =>
    obtain ⟨_, middle, ⟨affected, rfl, effect⟩, later⟩ := ran
    rcases effect with ⟨row, found, rfl, -, rfl⟩ | ⟨-, rfl, -⟩
    · obtain ⟨u, here, locked⟩ := Option.bind_eq_some_iff.mp found
      simp only [lockFree, Option.ite_none_right_eq_some, Option.some.injEq] at locked
      obtain ⟨free, rfl⟩ := locked
      have locks := ih later
      have first : Taken (Function.update rows outpoint (some (Store.setLocked now u)))
          outpoint := ⟨_, Function.update_self .., by simp [Store.setLocked]⟩
      -- the output that was locked first is not free any more
      have new : outpoint ∉ rest := by
        intro member
        obtain ⟨again, found, state⟩ := locks.free outpoint member
        rw [Function.update_self] at found
        obtain rfl := Option.some.inj found
        cases state
      refine ⟨List.nodup_cons.mpr ⟨new, locks.nodup⟩, ?_, ?_, ?_⟩
      · intro other member
        rcases List.mem_cons.mp member with rfl | member
        · exact ⟨u, here, free⟩
        · obtain ⟨again, found, state⟩ := locks.free other member
          have different : other ≠ outpoint := fun same => new (same ▸ member)
          exact ⟨again, (Function.update_of_ne different ..).symm.trans found, state⟩
      · intro other member
        rcases List.mem_cons.mp member with rfl | member
        · exact locks.kept other first
        · exact locks.taken other member
      · intro other taken
        exact locks.kept other (keepsTaken_update (by simp [Store.setLocked]) other taken)
    · obtain ⟨failed, -⟩ := later
      cases failed

/-- The calls that free no output. -/
theorem UTXOCall.respects {valid : UTXO → Prop} {call : UTXOCall} (keeps : call.keepsLocks = true) :
    call.job.Respects valid KeepsTaken := by
  cases call with
  | lock now outpoints =>
    show (lockJob now outpoints).Respects valid KeepsTaken
    unfold lockJob
    split
    · trivial
    · exact ⟨fun _ _ _ ran => (locks_of_exec ran).kept, fun _ => trivial⟩
  | restore clock outpoints => cases keeps
  | insert now u =>
    refine ⟨fun s _ s' effect => ?_, fun answer => by cases answer <;> trivial⟩
    obtain ⟨absent, -, rfl⟩ := effect
    rintro outpoint ⟨row, found, state⟩
    have different : outpoint ≠ u.outpoint := by
      rintro rfl
      rw [absent] at found
      cases found
    exact ⟨row, (Function.update_of_ne different ..).trans found, state⟩
  | spend clock outpoints txHash =>
    show (updateEach _ clock outpoints).Respects valid KeepsTaken
    clear keeps
    induction outpoints with
    | nil => trivial
    | cons outpoint rest ih =>
      refine ⟨fun s _ s' effect => ?_, fun answer => ?_⟩
      · rcases effect with ⟨row, found, -, -, rfl⟩ | ⟨-, -, rfl⟩
        · obtain ⟨u, -, spent⟩ := Option.bind_eq_some_iff.mp found
          obtain rfl := Option.some.inj spent
          exact keepsTaken_update (by simp [Store.setSpent])
        · exact fun _ taken => taken
      · cases answer with
        | error err => trivial
        | ok _ => exact ih

/-! ## Interleavings -/

section Schedules

variable {ι : Type} {valid : UTXO → Prop} {call : ι → UTXOCall}
  {serial serial' : Schedule ι String UTXO Err (Except Err Unit)}

/-- A call of `LockUTXOs` that has returned without an error. -/
def Won (call : ι → UTXOCall) (serial : Schedule ι String UTXO Err (Except Err Unit)) (i : ι)
    (outpoints : List String) : Prop :=
  (∃ now, call i = .lock now outpoints) ∧ serial.rest i = .done (.ok ())

/-- The outputs of calls that have returned without an error are locked by one of them each. -/
structure LocksApart (valid : UTXO → Prop) (call : ι → UTXOCall)
    (serial : Schedule ι String UTXO Err (Except Err Unit)) : Prop where
  respects : ∀ i, (serial.rest i).Respects valid KeepsTaken
  stage : ∀ i now outpoints, call i = .lock now outpoints →
    serial.rest i = lockJob now outpoints ∨ ∃ answer, serial.rest i = .done answer
  nodup : ∀ i outpoints, Won call serial i outpoints → outpoints.Nodup
  taken : ∀ i outpoints, Won call serial i outpoints → ∀ outpoint ∈ outpoints,
    Taken serial.rows outpoint
  apart : ∀ i j mine yours, i ≠ j → Won call serial i mine → Won call serial j yours →
    ∀ outpoint ∈ mine, outpoint ∉ yours

variable [DecidableEq ι]

/-- A call that has won after the move of a session has won before, or has just locked its
outputs. -/
theorem LocksApart.won_cases (inv : LocksApart valid call serial) {i k : ι}
    {job : Job String UTXO Err (Except Err Unit)} {rows : Rows String UTXO}
    {outpoints : List String} (moves : (serial.rest i).Moves valid serial.rows job rows)
    (won : Won call ⟨rows, Function.update serial.rest i job⟩ k outpoints) :
    (k ≠ i ∧ Won call serial k outpoints) ∨ k = i ∧ LocksAll outpoints serial.rows rows := by
  obtain ⟨⟨now, lock⟩, ended⟩ := won
  dsimp only at ended
  by_cases own : k = i
  · subst own
    rw [Function.update_self] at ended
    subst ended
    refine .inr ⟨rfl, ?_⟩
    rcases inv.stage k now outpoints lock with waiting | ⟨answer, done⟩
    · rw [waiting] at moves
      unfold lockJob at moves
      split at moves
      · cases moves
      · generalize same : (Job.done (.ok ()) : Job String UTXO Err (Except Err Unit)) =
          last at moves
        cases moves with
        | committed ran => exact locks_of_exec ran
        | failed => cases same
        | inDoubt _ => cases same
    · rw [done] at moves
      cases moves
  · rw [Function.update_of_ne own] at ended
    exact .inl ⟨own, ⟨now, lock⟩, ended⟩

theorem LocksApart.step (inv : LocksApart valid call serial) {i : ι}
    (stepped : Schedule.Step valid i serial serial') : LocksApart valid call serial' := by
  obtain @⟨job, rows, moves⟩ := stepped
  obtain ⟨kept, later⟩ := (inv.respects i).moves (fun _ _ taken => taken) moves
  constructor
  · intro k
    dsimp only
    by_cases own : k = i
    · subst own
      rw [Function.update_self]
      exact later
    · rw [Function.update_of_ne own]
      exact inv.respects k
  · intro k now outpoints lock
    dsimp only
    by_cases own : k = i
    · subst own
      rw [Function.update_self]
      rcases inv.stage k now outpoints lock with waiting | ⟨answer, done⟩
      · rw [waiting] at moves
        unfold lockJob at moves
        split at moves
        · cases moves
        · cases moves <;> exact .inr ⟨_, rfl⟩
      · rw [done] at moves
        cases moves
    · rw [Function.update_of_ne own]
      exact inv.stage k now outpoints lock
  · intro k outpoints won
    rcases inv.won_cases moves won with ⟨-, before⟩ | ⟨-, locks⟩
    · exact inv.nodup k outpoints before
    · exact locks.nodup
  · intro k outpoints won outpoint member
    rcases inv.won_cases moves won with ⟨-, before⟩ | ⟨-, locks⟩
    · exact kept outpoint (inv.taken k outpoints before outpoint member)
    · exact locks.taken outpoint member
  · intro k l mine yours different first second outpoint member member'
    -- an output that was free is none of those that were taken before
    have clash {outpoints others : List String} {m : ι}
        (locks : LocksAll outpoints serial.rows rows)
        (before : Won call serial m others) (new : outpoint ∈ outpoints)
        (old : outpoint ∈ others) : False := by
      obtain ⟨u, found, free⟩ := locks.free outpoint new
      obtain ⟨v, found', unfree⟩ := inv.taken m others before outpoint old
      rw [found] at found'
      obtain rfl := Option.some.inj found'
      exact unfree free
    rcases inv.won_cases moves first with ⟨-, before⟩ | ⟨rfl, locks⟩
    · rcases inv.won_cases moves second with ⟨-, before'⟩ | ⟨-, locks'⟩
      · exact inv.apart k l mine yours different before before' outpoint member member'
      · exact clash locks' before member' member
    · rcases inv.won_cases moves second with ⟨-, before'⟩ | ⟨same, -⟩
      · exact clash locks before' member member'
      · exact different same.symm

end Schedules

/-- The sessions of concurrent calls. -/
abbrev utxoSessions {ι : Type} (call : ι → UTXOCall) (start : Rows String UTXO) :
    Crew (sessionCalls String UTXO Err) (Database ι String UTXO) ι (Except Err Unit) :=
  .start (fun i => (call i).job.session) ⟨start, fun _ => none⟩

/-- Row locks keep concurrent locks apart: in any interleaving of calls that free no output, over
Postgres, a call of `LockUTXOs` that has returned without an error has locked different outputs,
none of them is free, and none of them is one of another such call. -/
theorem postgres_locks_disjoint {ι : Type} [DecidableEq ι] (valid : UTXO → Prop)
    (call : ι → UTXOCall) (keeps : ∀ i, (call i).keepsLocks = true) (start : Rows String UTXO)
    {crew : Crew (sessionCalls String UTXO Err) (Database ι String UTXO) ι (Except Err Unit)}
    (reachable : Crew.Reachable (sessionStep Err valid) (fun _ _ _ => True)
      (utxoSessions call start) crew) (i : ι) (now : Int) (mine : List String)
    (locked : call i = .lock now mine)
    (returned : crew.Returned i (.ok ())) :
    mine.Nodup ∧ (∀ outpoint ∈ mine, Taken crew.state.rows outpoint) ∧
      ∀ j now' yours, j ≠ i → call j = .lock now' yours → crew.Returned j (.ok ()) →
        ∀ outpoint ∈ mine, outpoint ∉ yours := by
  obtain ⟨sessions, serial, reached, -, rows, ended⟩ :=
    Schedule.of_sessions (fun i => (call i).confirming) reachable
  have apart : LocksApart valid call serial := by
    clear rows ended
    induction reached with
    | refl =>
      have empty : ∀ i outpoints, Won call ⟨start, fun i => (call i).job⟩ i outpoints →
          outpoints = [] := by
        rintro i outpoints ⟨⟨now, lock⟩, done⟩
        by_contra some
        simp [lock, UTXOCall.job, lockJob, some] at done
      refine ⟨fun i => UTXOCall.respects (keeps i), fun i now outpoints lock => .inl ?_, ?_, ?_, ?_⟩
      · dsimp only
        rw [lock]
        rfl
      · intro i outpoints won
        rw [empty i outpoints won]
        exact .nil
      · intro i outpoints won outpoint member
        rw [empty i outpoints won] at member
        cases member
      · intro i j mine yours _ won _ outpoint member
        rw [empty i mine won] at member
        cases member
    | tail _ last ih => exact ih.step last
  have won (k : ι) (now : Int) (outpoints : List String) (lock : call k = .lock now outpoints)
      (here : crew.Returned k (.ok ())) : Won call serial k outpoints :=
    ⟨⟨now, lock⟩, ended k _ here⟩
  refine ⟨apart.nodup i mine (won i now mine locked returned), ?_, ?_⟩
  · rw [← rows]
    exact apart.taken i mine (won i now mine locked returned)
  · intro j now' yours different lock here
    exact apart.apart i j mine yours (Ne.symm different) (won i now mine locked returned)
      (won j now' yours lock here)

/-- Three sessions with selections that overlap. -/
inductive Selector where
  | loser
  | winner
  | latecomer
  deriving DecidableEq

instance : Fintype Selector :=
  ⟨{.loser, .winner, .latecomer}, fun session => by cases session <;> decide⟩

/-- What each of them runs. -/
def sampleLocks : Selector → UTXOCall
  | .loser => .lock 10 ["a:0", "b:0"]
  | .winner => .lock 20 ["b:0", "c:0"]
  | .latecomer => .lock 30 ["a:0"]

/-- Three free outputs. -/
def contendedOutputs : Rows String UTXO := fun outpoint =>
  if outpoint ∈ ["a:0", "b:0", "c:0"] then
    some { outpoint, walletID := ⟨Vector.replicate 16 0⟩, value := "1", lockState := .free }
  else none

/-- The winner has the output that the loser needs next, which fails; the latecomer locks the output
that the loser has given back. -/
def sampleLockTurns : List Selector :=
  [.loser, .winner, .loser, .winner, .loser, .loser, .winner, .winner, .latecomer, .latecomer,
    .latecomer]

/-- The sessions after these turns. -/
def contendedSelections :
    Crew (sessionCalls String UTXO Err) (Database Selector String UTXO) Selector
      (Except Err Unit) :=
  (utxoSessions sampleLocks contendedOutputs).play
    (sessionTurns (fun _ => True) ⟨"could not serialize access", none⟩ sampleLockTurns)

/-- Two of three overlapping selections have locked their outputs. -/
theorem postgres_locks_disjoint_contended :
    contendedSelections.Returned .winner (.ok ()) ∧
      contendedSelections.Returned .latecomer (.ok ()) ∧
      (∀ outpoint ∈ ["b:0", "c:0"], outpoint ∉ ["a:0"]) ∧
      Taken contendedSelections.state.rows "c:0" := by
  have reached : Crew.Reachable (sessionStep Err fun _ => True) (fun _ _ _ => True)
      (utxoSessions sampleLocks contendedOutputs) contendedSelections :=
    reachable_sessionTurns (fun _ => True) (by decide +kernel)
  have second : contendedSelections.Returned .winner (.ok ()) :=
    Crew.returned_of_value (by decide +kernel)
  have third : contendedSelections.Returned .latecomer (.ok ()) :=
    Crew.returned_of_value (by decide +kernel)
  obtain ⟨-, taken, apart⟩ := postgres_locks_disjoint (fun _ => True) sampleLocks (by decide)
    contendedOutputs reached .winner 20 ["b:0", "c:0"] rfl second
  exact ⟨second, third, apart .latecomer 30 ["a:0"] (by decide) rfl third, taken "c:0" (by simp)⟩

end WalletManagement
