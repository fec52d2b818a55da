import WalletManagement.UTXOLeaks
import WalletManagement.Balance
import Mathlib.Data.List.TakeWhile

/-!
# Batches of outpoints

`LockUTXOs` looks at its whole list before it writes. `MarkUTXOsSpent` and `RestoreUTXOs` write one
row after the other and stop at the first outpoint without a row; what they have written up to
there stays. `RestoreUTXOs` is also what a reorganisation calls, with outpoints that the callback
brings along: it frees them whatever their lock state is.
-/

namespace WalletManagement

open Interaction Data

namespace Store

section Reached

variable {utxos : Table UTXO.outpoint} {outpoints : List String}

/-- The outpoints that a loop over the list gets to: those before the first one without a row. -/
def reached (utxos : Table UTXO.outpoint) (outpoints : List String) : List String :=
  outpoints.takeWhile fun op => (utxos.get op).isSome

/-- Every outpoint of the list has a row. -/
def Known (utxos : Table UTXO.outpoint) (outpoints : List String) : Prop :=
  ∀ op ∈ outpoints, (utxos.get op).isSome

instance (utxos : Table UTXO.outpoint) (outpoints : List String) :
    Decidable (Known utxos outpoints) :=
  inferInstanceAs (Decidable (∀ op ∈ outpoints, _))

/-- The outpoints reached have rows. -/
theorem known_reached (utxos : Table UTXO.outpoint) (outpoints : List String) :
    Known utxos (reached utxos outpoints) := by
  intro op member
  rw [reached] at member
  exact List.mem_takeWhile_imp (p := fun op => (utxos.get op).isSome) member

/-- A row in the place of another one does not change what is reached. -/
theorem reached_put {row : UTXO} (there : (utxos.get row.outpoint).isSome)
    (outpoints : List String) : reached (utxos.put row) outpoints = reached utxos outpoints := by
  have same : (fun op => ((utxos.put row).get op).isSome) = fun op => (utxos.get op).isSome := by
    funext op
    rw [Table.get_put]
    split
    · rename_i here
      rw [← here, there]
      rfl
    · rfl
  rw [reached, reached, same]

section Update

variable (change : UTXO → UTXO) (keeps : ∀ u, (change u).outpoint = u.outpoint)

include keeps

/-- The loop writes what it would write for the outpoints reached alone. -/
theorem updateUTXOs_reached (utxos : Table UTXO.outpoint) (outpoints : List String) :
    (updateUTXOs change outpoints utxos).2 =
      (updateUTXOs change (reached utxos outpoints) utxos).2 := by
  induction outpoints generalizing utxos with
  | nil => rfl
  | cons op rest ih =>
    cases found : utxos.get op with
    | none => simp [updateUTXOs, reached, found]
    | some u =>
      have there : (utxos.get (change u).outpoint).isSome := by
        rw [keeps, Table.key_of_get found, found]
        rfl
      have front : reached utxos (op :: rest) = op :: reached utxos rest := by
        simp [reached, found]
      rw [front]
      simp only [updateUTXOs, found]
      rw [ih, reached_put there]

/-- The loop returns an error exactly if an outpoint has no row. -/
theorem updateUTXOs_ok_iff (again : ∀ u, change (change u) = change u) :
    (updateUTXOs change outpoints utxos).1 = .ok () ↔ Known utxos outpoints := by
  constructor
  · exact present_of_updateUTXOs change keeps
  · intro known
    exact (updateUTXOs_spec change keeps again known).1

/-- The rows after the loop, whether it returned an error or not. -/
theorem get_updateUTXOs (again : ∀ u, change (change u) = change u) (o : String) :
    (updateUTXOs change outpoints utxos).2.get o =
      if o ∈ reached utxos outpoints then (utxos.get o).map change else utxos.get o := by
  rw [updateUTXOs_reached change keeps]
  exact (updateUTXOs_spec change keeps again (known_reached utxos outpoints)).2 o

/-- The loop leaves the table as it is exactly if it would not change a row it reaches. -/
theorem updateUTXOs_same_iff (again : ∀ u, change (change u) = change u) :
    (updateUTXOs change outpoints utxos).2 = utxos ↔
      ∀ op ∈ reached utxos outpoints, ∀ u, utxos.get op = some u → change u = u := by
  constructor
  · intro same op member u found
    have row : (updateUTXOs change outpoints utxos).2.get op = (utxos.get op).map change := by
      rw [get_updateUTXOs change keeps again, if_pos member]
    rw [same, found] at row
    exact (Option.some.inj row).symm
  · intro fixed
    rw [updateUTXOs_reached change keeps]
    have known := known_reached utxos outpoints
    generalize reached utxos outpoints = ops at fixed known
    induction ops with
    | nil => rfl
    | cons op rest ih =>
      obtain ⟨u, found⟩ := Option.isSome_iff_exists.mp (known op List.mem_cons_self)
      have written : utxos.put (change u) = utxos := by
        rw [fixed op List.mem_cons_self u found]
        apply Table.put_self
        rw [Table.key_of_get found, found]
      simp only [updateUTXOs, found, written]
      apply ih
      · intro o member
        exact fixed o (List.mem_cons_of_mem _ member)
      · intro o member
        exact known o (List.mem_cons_of_mem _ member)

/-- The loop is all or nothing exactly if it cannot fail, or would not change a row it reaches
before it fails. -/
theorem updateUTXOs_atomic_iff (again : ∀ u, change (change u) = change u) :
    (∀ err, (updateUTXOs change outpoints utxos).1 = .error err →
        (updateUTXOs change outpoints utxos).2 = utxos) ↔
      Known utxos outpoints ∨
        ∀ op ∈ reached utxos outpoints, ∀ u, utxos.get op = some u → change u = u := by
  rw [← updateUTXOs_same_iff change keeps again, ← updateUTXOs_ok_iff change keeps again]
  cases (updateUTXOs change outpoints utxos).1 with
  | error err => simp
  | ok _ => simp

end Update

end Reached

/-! ## The three batches -/

section Batches

variable (s : Store) (outpoints : List String)

/-- The list starts with an outpoint that has no row. -/
def FirstUnknown (utxos : Table UTXO.outpoint) (outpoints : List String) : Prop :=
  ∃ op ∈ outpoints.head?, utxos.get op = none

/-- A loop over the list gets nowhere exactly if the list is empty or starts with an outpoint that
has no row. -/
theorem reached_eq_nil_iff {utxos : Table UTXO.outpoint} {outpoints : List String} :
    reached utxos outpoints = [] ↔ outpoints = [] ∨ FirstUnknown utxos outpoints := by
  cases outpoints with
  | nil => simp [reached]
  | cons op rest => simp [reached, FirstUnknown]

/-- A store with another table of outputs is the same store exactly if the table is. -/
theorem with_utxos_eq_self {utxos : Table UTXO.outpoint} :
    { s with utxos } = s ↔ utxos = s.utxos := by
  constructor
  · exact congrArg Store.utxos
  · rintro rfl
    rfl

/-- `LockUTXOs` is all or nothing. -/
theorem lockUTXOs_atomic {now : Int} {err : Err}
    (failed : (s.lockUTXOs now outpoints).1 = .error err) : (s.lockUTXOs now outpoints).2 = s := by
  rcases s.lockUTXOs_cases now outpoints with ⟨-, kept⟩ | ⟨locked, -⟩
  · exact kept
  · rw [locked] at failed
    cases failed

/-- A batch that writes rows as it goes, each with the time, is all or nothing exactly if no
outpoint is missing or the first one is. -/
theorem stamped_atomic_iff (change : Int → UTXO → UTXO)
    (keeps : ∀ now u, (change now u).outpoint = u.outpoint)
    (again : ∀ now u, change now (change now u) = change now u)
    (stamps : ∀ now u, (change now u).updatedAt = now) :
    (∀ now err, (updateUTXOs (change now) outpoints s.utxos).1 = .error err →
        { s with utxos := (updateUTXOs (change now) outpoints s.utxos).2 } = s) ↔
      Known s.utxos outpoints ∨ FirstUnknown s.utxos outpoints := by
  have atomic (now : Int) :=
    @updateUTXOs_atomic_iff s.utxos outpoints (change now) (keeps now) (again now)
  simp only [with_utxos_eq_self]
  constructor
  · intro whole
    cases front : reached s.utxos outpoints with
    | nil =>
      rcases reached_eq_nil_iff.mp front with rfl | first
      · exact .inl fun op member => absurd member List.not_mem_nil
      · exact .inr first
    | cons op rest =>
      have member : op ∈ reached s.utxos outpoints := front ▸ List.mem_cons_self
      obtain ⟨u, found⟩ := Option.isSome_iff_exists.mp (known_reached s.utxos outpoints op member)
      -- at any time other than that of the first row the loop changes that row
      refine .inl (((atomic (u.updatedAt + 1)).mp (whole _)).resolve_right fun fixed => ?_)
      have later := stamps (u.updatedAt + 1) u
      rw [fixed op member u found] at later
      omega
  · intro condition now err
    refine (atomic now).mpr (condition.imp_right fun first => ?_) err
    rw [reached_eq_nil_iff.mpr (.inr first)]
    exact fun op member => absurd member List.not_mem_nil

/-- `MarkUTXOsSpent` is all or nothing exactly if no outpoint is missing or the first one is. -/
theorem markUTXOsSpent_atomic_iff (txHash : String) :
    (∀ now err, (s.markUTXOsSpent now outpoints txHash).1 = .error err →
        (s.markUTXOsSpent now outpoints txHash).2 = s) ↔
      Known s.utxos outpoints ∨ FirstUnknown s.utxos outpoints :=
  s.stamped_atomic_iff outpoints (setSpent · txHash) (fun _ _ => rfl) (fun _ _ => rfl)
    fun _ _ => rfl

/-- `RestoreUTXOs` is all or nothing exactly if no outpoint is missing or the first one is. -/
theorem restoreUTXOs_atomic_iff :
    (∀ now err, (s.restoreUTXOs now outpoints).1 = .error err →
        (s.restoreUTXOs now outpoints).2 = s) ↔
      Known s.utxos outpoints ∨ FirstUnknown s.utxos outpoints :=
  s.stamped_atomic_iff outpoints setFree (fun _ _ => rfl) (fun _ _ => rfl) fun _ _ => rfl

/-- The lock states after `RestoreUTXOs`, whether it returned an error or not. -/
theorem lockState_restored (now : Int) (o : String) :
    (s.restoreUTXOs now outpoints).2.lockState o =
      if o ∈ reached s.utxos outpoints then some .free else s.lockState o := by
  have row : (s.restoreUTXOs now outpoints).2.utxos.get o =
      if o ∈ reached s.utxos outpoints then (s.utxos.get o).map (setFree now)
      else s.utxos.get o := get_updateUTXOs (setFree now) (fun _ => rfl) (fun _ => rfl) o
  rw [lockState, row]
  split
  · obtain ⟨u, found⟩ := Option.isSome_iff_exists.mp (known_reached s.utxos outpoints o ‹_›)
    rw [found]
    rfl
  · rfl

end Batches

end Store

/-! ## Reorganisations -/

section Reorg

variable {L : Type} {caller : L} {w w' : World L} {id : UUID} {outpoints : List String}
  {result : Except Err Unit}

/-- What `OnReorg` returns and leaves: nothing happens to an unknown withdrawal, an error of
`RestoreUTXOs` ends the call where it is, and otherwise only a withdrawal row is still written. -/
theorem onReorg_exec
    (execution : (Service.onReorg id outpoints).Exec (step caller) w result w') :
    (w.store.withdrawals.get id = none ∧ (∃ err, result = .error err) ∧ w'.store = w.store) ∨
      ((w.store.withdrawals.get id).isSome ∧ ∃ now,
        ((∃ err, (w.store.restoreUTXOs now outpoints).1 = .error err ∧ result = .error err ∧
            w'.store = (w.store.restoreUTXOs now outpoints).2) ∨
          ((w.store.restoreUTXOs now outpoints).1 = .ok () ∧ result = .ok () ∧
            w'.store.utxos = (w.store.restoreUTXOs now outpoints).2.utxos))) := by
  obtain ⟨_, w₁, kept, execution⟩ := exec_store_bind execution
  simp only [StoreOp.exec, Store.getWithdrawal] at kept execution
  cases found : w.store.withdrawals.get id with
  | none =>
    rw [found] at execution
    obtain ⟨rfl, rfl⟩ := execution
    exact .inl ⟨rfl, ⟨_, rfl⟩, kept⟩
  | some wr =>
    rw [found] at execution
    obtain ⟨now, w₂, restored, execution⟩ := exec_store_bind execution
    simp only [StoreOp.exec, kept] at restored execution
    right
    refine ⟨rfl, now, ?_⟩
    cases answer : (w.store.restoreUTXOs now outpoints).1 with
    | error err =>
      rw [answer] at execution
      obtain ⟨rfl, rfl⟩ := execution
      exact .inl ⟨err, rfl, rfl, restored⟩
    | ok _ =>
      rw [answer] at execution
      right
      refine ⟨rfl, ?_⟩
      dsimp only at execution
      split at execution
      · obtain ⟨answer, w₃, moved, rfl, rfl⟩ := execution
        obtain ⟨_, rfl, stored⟩ := store_of_step moved
        have there : (w.store.restoreUTXOs now outpoints).2.withdrawals.get id = some wr := found
        simp only [StoreOp.exec, restored, Store.updateWithdrawalState_found there] at stored ⊢
        exact ⟨trivial, by rw [stored]⟩
      · obtain ⟨rfl, rfl⟩ := execution
        exact ⟨rfl, by rw [restored]⟩

/-- An `OnReorg` of a known withdrawal whose restoration fails, at any reading of the clock. -/
theorem exec_onReorg_failed (caller : L) (there : (w.store.withdrawals.get id).isSome) {now : Int}
    {err : Err} (failed : (w.store.restoreUTXOs now outpoints).1 = .error err) :
    ∃ w', (Service.onReorg id outpoints).Exec (step caller) w (.error err) w' ∧
      w'.store = (w.store.restoreUTXOs now outpoints).2 := by
  obtain ⟨wr, found⟩ := Option.isSome_iff_exists.mp there
  have read : (StoreOp.exec (.getWithdrawal id) 0 w.store).1 = .ok wr := by
    simp only [StoreOp.exec, Store.getWithdrawal, found, Store.found]
  let w₁ : World L := w.record caller (.store (.getWithdrawal id)) (.ok wr)
  let w₂ : World L := { w₁.record caller (.store (.restoreUTXOs outpoints)) (.error err) with
    store := (w.store.restoreUTXOs now outpoints).2 }
  refine ⟨w₂, ?_, rfl⟩
  refine Program.exec_perform_bind.mpr ⟨.ok wr, w₁, step_store.mpr ⟨0, read.symm, rfl⟩, ?_⟩
  exact Program.exec_perform_bind.mpr
    ⟨.error err, w₂, step_store.mpr ⟨now, failed.symm, rfl⟩, rfl, rfl⟩

/-- An `OnReorg` that returns an error has changed nothing exactly if the withdrawal is unknown or
its restoration is all or nothing. -/
theorem onReorg_atomic_iff (caller : L) (w : World L) (id : UUID) (outpoints : List String) :
    (∀ err w', (Service.onReorg id outpoints).Exec (step caller) w (.error err) w' →
        w'.store = w.store) ↔
      w.store.withdrawals.get id = none ∨ Store.Known w.store.utxos outpoints ∨
        Store.FirstUnknown w.store.utxos outpoints := by
  rw [← Store.restoreUTXOs_atomic_iff]
  constructor
  · intro kept
    cases found : w.store.withdrawals.get id with
    | none => exact .inl rfl
    | some wr =>
      refine .inr fun now err failed => ?_
      have there : (w.store.withdrawals.get id).isSome := by
        rw [found]
        rfl
      obtain ⟨w', execution, store⟩ := exec_onReorg_failed caller there failed
      rw [← store]
      exact kept err w' execution
  · intro condition err w' execution
    rcases onReorg_exec execution with
      ⟨-, -, store⟩ | ⟨there, now, ⟨err', failed, -, store⟩ | ⟨-, same, -⟩⟩
    · exact store
    · rcases condition with unknown | atomic
      · rw [unknown] at there
        cases there
      · rw [store, atomic now err' failed]
    · cases same

/-- The batches over outpoints are all or nothing under these conditions, and under no others:
`LockUTXOs` always; `MarkUTXOsSpent` and `RestoreUTXOs` if no outpoint is missing, or if the first
one is; `OnReorg` as the restoration it starts, which it does not start for an unknown
withdrawal. -/
theorem utxo_batches_atomic_iff (caller : L) (w : World L) (id : UUID) (outpoints : List String)
    (txHash : String) :
    (∀ now err, (w.store.lockUTXOs now outpoints).1 = .error err →
      (w.store.lockUTXOs now outpoints).2 = w.store) ∧
    ((∀ now err, (w.store.markUTXOsSpent now outpoints txHash).1 = .error err →
        (w.store.markUTXOsSpent now outpoints txHash).2 = w.store) ↔
      Store.Known w.store.utxos outpoints ∨ Store.FirstUnknown w.store.utxos outpoints) ∧
    ((∀ now err, (w.store.restoreUTXOs now outpoints).1 = .error err →
        (w.store.restoreUTXOs now outpoints).2 = w.store) ↔
      Store.Known w.store.utxos outpoints ∨ Store.FirstUnknown w.store.utxos outpoints) ∧
    ((∀ err w', (Service.onReorg id outpoints).Exec (step caller) w (.error err) w' →
        w'.store = w.store) ↔
      w.store.withdrawals.get id = none ∨ Store.Known w.store.utxos outpoints ∨
        Store.FirstUnknown w.store.utxos outpoints) :=
  ⟨fun _ _ => w.store.lockUTXOs_atomic outpoints,
    w.store.markUTXOsSpent_atomic_iff outpoints txHash,
    w.store.restoreUTXOs_atomic_iff outpoints, onReorg_atomic_iff caller w id outpoints⟩

/-- A locked and a spent output of the Bitcoin wallet, and a confirmed withdrawal of it. -/
def sampleOutputs : World SagaCall where
  store :=
    { withdrawals := Table.empty.put
        { (sampleBTCRequest "1000").withdrawal (sampleID 10) with state := .confirmed }
      utxos := (Table.empty.put { sampleUTXO "5000" '0' with lockState := .locked }).put
        { sampleUTXO "4000" '1' with lockState := .spent, spentAt := some 5, txHash := "0x02" } }

/-- With an outpoint that has no row at the end of the list, `MarkUTXOsSpent`, `RestoreUTXOs` and
`OnReorg` return an error after they have changed the first one. If it was spent by the same
transaction already, `MarkUTXOsSpent` still changes the time at which it was spent. -/
theorem failed_batch_changes :
    (sampleOutputs.store.markUTXOsSpent 9 [(sampleUTXO "5000" '0').outpoint, "missing"] "0x03").1 =
        .error ⟨"utxo not found: missing", none⟩ ∧
      (sampleOutputs.store.markUTXOsSpent 9 [(sampleUTXO "5000" '0').outpoint, "missing"]
        "0x03").2.utxos.rows.map UTXO.lockState = [.spent, .spent] ∧
    (sampleOutputs.store.markUTXOsSpent 9 [(sampleUTXO "4000" '1').outpoint, "missing"] "0x02").1 =
        .error ⟨"utxo not found: missing", none⟩ ∧
      (sampleOutputs.store.markUTXOsSpent 9 [(sampleUTXO "4000" '1').outpoint, "missing"]
        "0x02").2.utxos.rows.map UTXO.spentAt = [none, some 9] ∧
    (sampleOutputs.store.restoreUTXOs 9 [(sampleUTXO "4000" '1').outpoint, "missing"]).1 =
        .error ⟨"utxo not found: missing", none⟩ ∧
      (sampleOutputs.store.restoreUTXOs 9
        [(sampleUTXO "4000" '1').outpoint, "missing"]).2.utxos.rows.map UTXO.lockState =
          [.locked, .free] ∧
    sampleOutputs.store.utxos.rows.map UTXO.lockState = [.locked, .spent] ∧
      sampleOutputs.store.utxos.rows.map UTXO.spentAt = [none, some 5] ∧
    ∃ w', (Service.onReorg (sampleID 10) [(sampleUTXO "4000" '1').outpoint, "missing"]).Exec
        (step (.onReorg (sampleID 10) [(sampleUTXO "4000" '1').outpoint, "missing"]))
        sampleOutputs (.error ⟨"utxo not found: missing", none⟩) w' ∧
      w'.store.utxos.rows.map UTXO.lockState = [.locked, .free] := by
  let call := SagaCall.onReorg (sampleID 10) [(sampleUTXO "4000" '1').outpoint, "missing"]
  have execution := Program.exec_run (fun op w => Script.handle_follows {} call op w)
    (Service.onReorg (sampleID 10) [(sampleUTXO "4000" '1').outpoint, "missing"]) sampleOutputs
  exact ⟨rfl, by decide +kernel, rfl, by decide +kernel, rfl, by decide +kernel,
    by decide +kernel, by decide +kernel, _, execution, by decide +kernel⟩

/-! ## What a reorganisation frees -/

/-- The lock state of an outpoint changes only if the outpoint was spent. -/
def FreesOnlySpent (s s' : Store) : Prop :=
  ∀ op, s'.lockState op ≠ s.lockState op → s.lockState op = some .spent

/-- No outpoint that a loop over the list gets to is locked. -/
def Store.NoneLocked (s : Store) (outpoints : List String) : Prop :=
  ∀ op ∈ Store.reached s.utxos outpoints, s.lockState op ≠ some .locked

/-- A restoration changes only spent outpoints exactly if it meets no locked one. -/
theorem freesOnlySpent_restored_iff {s s' : Store} {now : Int}
    (restored : ∀ op, s'.lockState op = (s.restoreUTXOs now outpoints).2.lockState op) :
    FreesOnlySpent s s' ↔ s.NoneLocked outpoints := by
  have after (op : String) : s'.lockState op =
      if op ∈ Store.reached s.utxos outpoints then some .free else s.lockState op := by
    rw [restored, Store.lockState_restored]
  constructor
  · intro only op member locked
    have changed : s'.lockState op ≠ s.lockState op := by
      rw [after, if_pos member, locked]
      decide
    have spent := only op changed
    rw [locked] at spent
    cases spent
  · intro unlocked op changed
    by_cases member : op ∈ Store.reached s.utxos outpoints
    · rw [after, if_pos member] at changed
      obtain ⟨u, found⟩ := Option.isSome_iff_exists.mp
        (Store.known_reached s.utxos outpoints op member)
      have here : s.lockState op = some u.lockState := by
        rw [Store.lockState, found]
        rfl
      have free := unlocked op member
      rw [here] at changed free ⊢
      cases state : u.lockState with
      | free =>
        rw [state] at changed
        exact absurd rfl changed
      | locked =>
        rw [state] at free
        exact absurd rfl free
      | spent => rfl
    · rw [after, if_neg member] at changed
      exact absurd rfl changed

/-- The lock states after a program are those of a restoration if a condition holds, and those
before it otherwise. -/
def RestoresIf (restores : Bool) (outpoints : List String) (s s' : Store) : Prop :=
  ∃ now, ∀ op, s'.lockState op =
    if restores then (s.restoreUTXOs now outpoints).2.lockState op else s.lockState op

theorem RestoresIf.of_utxos {restores : Bool} {s s' : Store} (now : Int) (utxos : s'.utxos =
      if restores then (s.restoreUTXOs now outpoints).2.utxos else s.utxos) :
    RestoresIf restores outpoints s s' := by
  refine ⟨now, fun op => ?_⟩
  cases restores with
  | false => exact lockState_congr utxos op
  | true => exact lockState_congr utxos op

/-- A program that restores outpoints under a condition changes only spent ones exactly if it meets
no locked one under that condition. -/
theorem freesOnlySpent_iff {α : Type} {program : Prog α} {restores : Bool}
    (after : program.Wlp (step caller) (fun _ w' =>
      RestoresIf restores outpoints w.store w'.store) w) :
    (∀ result w', program.Exec (step caller) w result w' → FreesOnlySpent w.store w'.store) ↔
      (restores = true → w.store.NoneLocked outpoints) := by
  have ended := (Program.wlp_iff_exec _ _ _).mp after
  constructor
  · rintro only rfl
    -- the program runs to an end, whatever the collaborators answer
    have execution := Program.exec_run (fun op w => Script.handle_follows {} caller op w) program w
    obtain ⟨now, states⟩ := ended _ _ execution
    exact (freesOnlySpent_restored_iff states).mp (only _ _ execution)
  · intro unlocked result w' execution
    obtain ⟨now, states⟩ := ended result w' execution
    cases restores with
    | false => exact fun op changed => absurd (states op) changed
    | true => exact (freesOnlySpent_restored_iff states).mpr (unlocked rfl)

/-- `OnReorg` restores for a known withdrawal. -/
theorem onReorg_restores : (Service.onReorg id outpoints).Wlp (step caller)
    (fun _ w' => RestoresIf (w.store.withdrawals.get id).isSome outpoints w.store w'.store) w := by
  refine (Program.wlp_iff_exec _ _ _).mpr fun result w' execution => ?_
  rcases onReorg_exec execution with
    ⟨unknown, -, store⟩ | ⟨there, now, ⟨err, -, -, store⟩ | ⟨-, -, utxos⟩⟩
  · refine .of_utxos 0 ?_
    rw [unknown, store]
    rfl
  · refine .of_utxos now ?_
    rw [there, store]
    rfl
  · refine .of_utxos now ?_
    rw [there, utxos]
    rfl

variable {svc : BalanceService} {ev : ReorgEvent}

/-- The transaction of `ApplyReorgEvent` succeeds and leaves the outputs alone. -/
theorem demoteTx_utxos : (inTx (svc.demoteTx ev)).Wlp (step caller)
    (fun result w' => result = .ok () ∧ w'.store.utxos = w.store.utxos) w := by
  refine @inTx_wlp L caller _ w (fun s => s.utxos = w.store.utxos) fun w₁ start => ?_
  intro answer w₂ moved
  obtain ⟨_, rfl, kept⟩ := store_of_step moved
  simp only [StoreOp.exec, Store.getBalance] at kept ⊢
  cases w₁.store.balances.get (balanceKey ev.walletID ev.asset) with
  | none => exact ⟨rfl, by rw [kept, start]⟩
  | some cur =>
    intro answer w₃ moved
    obtain ⟨_, rfl, stored⟩ := store_of_step moved
    refine ⟨rfl, ?_⟩
    rw [stored, kept, start]
    rfl

/-- The restoration in `ApplyReorgEvent`. -/
theorem restoreReorged_utxos : (svc.restoreReorged ev).Wlp (step caller)
    (fun _ w' => ∃ now, w'.store.utxos = if svc.utxoRestore then
      (w.store.restoreUTXOs now ev.outpoints).2.utxos else w.store.utxos) w := by
  unfold BalanceService.restoreReorged
  cases wired : svc.utxoRestore with
  | false => exact ⟨0, rfl⟩
  | true =>
    split
    · intro answer w₁ moved
      obtain ⟨now, rfl, restored⟩ := store_of_step moved
      cases (StoreOp.exec (.restoreUTXOs ev.outpoints) now w.store).1 with
      | error err => exact ⟨now, congrArg Store.utxos restored⟩
      | ok _ => exact ⟨now, congrArg Store.utxos restored⟩
    · rename_i empty
      have none : ev.outpoints = [] := by simpa using empty
      rw [none]
      exact ⟨0, rfl⟩

/-- `ApplyReorgEvent` restores when `UTXORestore` is wired. -/
theorem applyReorgEvent_restores : (svc.applyReorgEvent ev).Wlp (step caller)
    (fun _ w' => RestoresIf svc.utxoRestore ev.outpoints w.store w'.store) w := by
  refine demoteTx_utxos.bind fun result w₁ here => ?_
  obtain ⟨rfl, kept⟩ := here
  have same (now : Int) : (w₁.store.restoreUTXOs now ev.outpoints).2.utxos =
      (w.store.restoreUTXOs now ev.outpoints).2.utxos := by simp only [Store.restoreUTXOs, kept]
  change (svc.restoreReorged ev >>= fun _ => _).Wlp _ _ _
  refine restoreReorged_utxos.bind fun result w₂ after => ?_
  obtain ⟨now, restored⟩ := after
  rw [same, kept] at restored
  cases result with
  | error err => exact .of_utxos now restored
  | ok _ =>
    refine Program.Wlp.bind (runIf_wlp (fun _ => restored) ?_) fun _ w₃ here => .of_utxos now here
    rintro - answer w₃ rfl
    exact restored

/-- A reorganisation changes the lock state of spent outpoints only, exactly if no outpoint it
restores is locked: `OnReorg` for a withdrawal that is known, and `ApplyReorgEvent` when
`UTXORestore` is wired. -/
theorem reorg_frees_only_spent_iff (caller : L) (w : World L) (id : UUID) (outpoints : List String)
    (svc : BalanceService) (ev : ReorgEvent) :
    ((∀ result w', (Service.onReorg id outpoints).Exec (step caller) w result w' →
        FreesOnlySpent w.store w'.store) ↔
      ((w.store.withdrawals.get id).isSome → w.store.NoneLocked outpoints)) ∧
    ((∀ result w', (svc.applyReorgEvent ev).Exec (step caller) w result w' →
        FreesOnlySpent w.store w'.store) ↔
      (svc.utxoRestore = true → w.store.NoneLocked ev.outpoints)) :=
  ⟨freesOnlySpent_iff onReorg_restores, freesOnlySpent_iff applyReorgEvent_restores⟩

end Reorg

/-- One withdrawal is signed for the only output, and another one is created after it. -/
def signedAndOther : List (SagaCall × Script) :=
  signedBTC ++ [(.create (sampleBTCRequest "2000"), acceptingBTC 11)]

/-- A reorganisation reported for the other withdrawal frees the output that is locked for the
signed one, which can be selected again while the signed transaction still spends it. -/
theorem reorg_frees_locked : ∃ (w w' : World SagaCall) (result : Except Err Unit),
    Runs step sampleService.body (fun _ _ => True) oneFreeOutput w ∧
      (Service.onReorg (sampleID 11) [(sampleUTXO "5000" '0').outpoint]).Exec
        (step (.onReorg (sampleID 11) [(sampleUTXO "5000" '0').outpoint])) w result w' ∧
      w.store.lockState (sampleUTXO "5000" '0').outpoint = some .locked ∧
      w'.store.lockState (sampleUTXO "5000" '0').outpoint = some .free ∧
      (w'.store.withdrawals.get (sampleID 10)).map
          (fun wr => (wr.state, wr.reservedOutpoints)) =
        some (.signed, [(sampleUTXO "5000" '0').outpoint]) ∧
      ¬FreesOnlySpent w.store w'.store := by
  let call := SagaCall.onReorg (sampleID 11) [(sampleUTXO "5000" '0').outpoint]
  let w := sampleService.play signedAndOther oneFreeOutput
  have runs := sampleService.play_runs (fun _ _ => True) signedAndOther
    (sampleService.admits_of_calls (fun _ _ => trivial) oneFreeOutput)
  have execution := Program.exec_run (fun op w => Script.handle_follows {} call op w)
    (Service.onReorg (sampleID 11) [(sampleUTXO "5000" '0').outpoint]) w
  have states : w.store.lockState (sampleUTXO "5000" '0').outpoint = some .locked ∧
      ((Service.onReorg (sampleID 11) [(sampleUTXO "5000" '0').outpoint]).run
        (Script.handle {} call) w).2.store.lockState (sampleUTXO "5000" '0').outpoint =
          some .free ∧
      (((Service.onReorg (sampleID 11) [(sampleUTXO "5000" '0').outpoint]).run
        (Script.handle {} call) w).2.store.withdrawals.get (sampleID 10)).map
          (fun wr => (wr.state, wr.reservedOutpoints)) =
        some (.signed, [(sampleUTXO "5000" '0').outpoint]) := by decide +kernel
  obtain ⟨locked, freed, signed⟩ := states
  refine ⟨w, _, _, runs, execution, locked, freed, signed, fun only => ?_⟩
  have changed := only (sampleUTXO "5000" '0').outpoint
  rw [freed, locked] at changed
  cases changed (by decide)

end WalletManagement
