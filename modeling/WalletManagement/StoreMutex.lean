import WalletManagement.Interaction.Crew
import WalletManagement.Interaction.Serial
import WalletManagement.Scripted

/-!
# The mutex of the in-memory store

`lock`, the function it returns and `InTx` of `internal/storage/memstore`, one step at a time: every
section of `depthMu`, every operation of the mutex `mu`, every access of the tables, the snapshot
and its restoration. Any number of goroutines run methods and transactions of the store, nested to
any depth, and their steps interleave in any order.

Everywhere else in this development a method of the store is one step. Here this is proved of the
lock: the tables are only ever accessed by the goroutine that holds the mutex, no goroutine waits
for itself, and what an interleaving leaves in the tables is what the methods and the outermost
transactions leave when each of them runs at once.
-/

namespace WalletManagement

open Interaction

/-! ## The steps of a goroutine -/

/-- The steps of a goroutine that uses the store: `S` are the calls of its program, `R` the accesses
of the tables. -/
inductive MutexOp (S R : Signature) (σ : Type) where
  /-- `InTx` reads `depths[id]` under `depthMu`. -/
  | loadDepth
  /-- `lock` tests `depths[id]` under `depthMu`, and counts it up if it is positive. -/
  | enter
  /-- `mu.Lock`. -/
  | lockMu
  /-- `lock` sets `depths[id]` to one under `depthMu`. -/
  | setDepth
  /-- The release counts `depths[id]` down under `depthMu`. -/
  | leave
  /-- `mu.Unlock`. -/
  | unlockMu
  /-- A method reads or writes the tables. -/
  | access (op : R.Op)
  /-- `snapshot`. -/
  | snapshot
  /-- `restore`. -/
  | restore (snap : σ)
  /-- A call of a collaborator. -/
  | consult (op : S.Op)

/-- The answers of a step. -/
abbrev MutexOp.Ans {S R : Signature} {σ : Type} : MutexOp S R σ → Type
  | .loadDepth => Int
  | .enter => Bool
  | .access op => R.Ans op
  | .snapshot => σ
  | .consult op => S.Ans op
  | _ => Unit

/-- The step reads or writes the tables. -/
def MutexOp.touches {S R : Signature} {σ : Type} : MutexOp S R σ → Bool
  | .access _ | .snapshot | .restore _ => true
  | _ => false

/-- The step is an operation of the mutex. -/
def MutexOp.onMutex {S R : Signature} {σ : Type} : MutexOp S R σ → Bool
  | .lockMu | .unlockMu => true
  | _ => false

/-- The signature of the steps. -/
abbrev mutexCalls (S R : Signature) (σ : Type) : Signature := ⟨MutexOp S R σ, MutexOp.Ans⟩

/-- The programs of a goroutine. -/
abbrev MutexProg (S R : Signature) (σ α : Type) : Type := Program (mutexCalls S R σ) α

/-- The mutex, the depths of the goroutines, and the tables. -/
structure MutexState (σ ι : Type) where
  /-- `mu` is locked. -/
  mu : Bool := false
  /-- `depths`; a goroutine that is not in the map has depth zero. -/
  depths : ι → Int := fun _ => 0
  tables : σ

section Mutex

variable {S R : Signature} {E σ ι α β : Type}

/-- One step as a program. -/
abbrev act (op : MutexOp S R σ) : MutexProg S R σ op.Ans :=
  Program.perform (S := mutexCalls S R σ) op

/-- `lock`: the answer is whether the goroutine held the mutex before. -/
def lock : MutexProg S R σ Bool := do
  if ← act .enter then pure true
  else
    let _ ← act .lockMu
    let _ ← act .setDepth
    pure false

/-- The function that `lock` returns. -/
def releaseLock (nested : Bool) : MutexProg S R σ Unit := do
  let _ ← act .leave
  if nested then pure () else act .unlockMu

/-- A function after `defer s.lock()()`. -/
def locked (fn : MutexProg S R σ α) : MutexProg S R σ α := do
  let nested ← lock
  let value ← fn
  let _ ← releaseLock nested
  pure value

/-- The part of `InTx` for an outermost transaction. -/
def withSnapshot (fn : MutexProg S R σ (Except E α)) : MutexProg S R σ (Except E α) := do
  let snap ← act .snapshot
  match ← fn with
  | .error err =>
    let _ ← act (.restore snap)
    pure (.error err)
  | .ok value => pure (.ok value)

/-- `InTx`. -/
def lockedTx (fn : MutexProg S R σ (Except E α)) : MutexProg S R σ (Except E α) := do
  let depth ← act .loadDepth
  locked (if 0 < depth then fn else withSnapshot fn)

/-- The accesses of a method. -/
def accesses (method : Program R α) : MutexProg S R σ α :=
  method.embed MutexOp.access fun _ answer => answer

variable (impl : (op : S.Op) → Option (Program R (S.Ans op)))

/-- One call of a program: a method of the store, or a call of a collaborator. -/
def callMethod (op : S.Op) : MutexProg S R σ (S.Ans op) :=
  match impl op with
  | some method => locked (accesses method)
  | none => act (.consult op)

/-- A goroutine that runs a program of methods and transactions. -/
def goroutine : {α : Type} → Block S E α → MutexProg S R σ α
  | _, .done value => pure value
  | _, .call op next => do
    let answer ← callMethod impl op
    goroutine (next answer)
  | _, .inTx body next => do
    let outcome ← lockedTx (goroutine body)
    goroutine (next outcome)

variable (raw : Transition R σ)

/-- What a step of a goroutine other than one of the mutex does to the tables and to its own entry
of `depths`. -/
def ownStep : Transition (mutexCalls S R σ) (σ × Int)
  | .loadDepth, s, answer, s' => answer = s.2 ∧ s' = s
  | .enter, s, answer, s' =>
    answer = decide (0 < s.2) ∧ s' = (s.1, if 0 < s.2 then s.2 + 1 else s.2)
  | .setDepth, s, _, s' => s' = (s.1, 1)
  | .leave, s, _, s' => s' = (s.1, s.2 - 1)
  | .access op, s, answer, s' => raw op s.1 answer s'.1 ∧ s'.2 = s.2
  | .snapshot, s, answer, s' => answer = s.1 ∧ s' = s
  | .restore snap, s, _, s' => s' = (snap, s.2)
  | .consult _, s, _, s' => s' = s
  | .lockMu, _, _, _ | .unlockMu, _, _, _ => False

/-- The meaning of the steps of a goroutine. `mu.Lock` waits until the mutex is free, and unlocking
a free mutex is an error that ends the process. -/
def mutexStep [DecidableEq ι] (i : ι) : Transition (mutexCalls S R σ) (MutexState σ ι)
  | .lockMu, s, _, s' => s.mu = false ∧ s' = { s with mu := true }
  | .unlockMu, s, _, s' => s.mu = true ∧ s' = { s with mu := false }
  | op, s, answer, s' => ∃ own, ownStep raw op (s.tables, s.depths i) answer own ∧
      s' = { s with tables := own.1, depths := Function.update s.depths i own.2 }

/-- A method of the store, with all its accesses. -/
def methodStep : Transition S σ := fun op s answer s' =>
  match impl op with
  | some method => method.Exec raw s answer s'
  | none => s' = s

/-- The goroutines at their start: nobody holds the mutex. -/
def launched (body : ι → Block S E α) (tables : σ) : Crew (mutexCalls S R σ) (MutexState σ ι) ι α :=
  .start (fun i => goroutine impl (body i)) { tables }

/-- Any interleaving of the steps. -/
abbrev Interleaves [DecidableEq ι] (body : ι → Block S E α) (tables : σ)
    (crew : Crew (mutexCalls S R σ) (MutexState σ ι) ι α) : Prop :=
  Crew.Reachable (mutexStep raw) (fun _ _ _ => True) (launched impl body tables) crew

/-! ## A goroutine that holds the mutex -/

/-- A step that is no operation of the mutex, and touches the tables only at a positive depth. -/
def Guarded (op : MutexOp S R σ) (s : σ × Int) : Prop :=
  op.onMutex = false ∧ (op.touches = true → 0 < s.2)

variable {impl raw}

theorem Guarded.of_plain {op : MutexOp S R σ} {s : σ × Int} (other : op.onMutex = false)
    (apart : op.touches = false) : Guarded op s :=
  ⟨other, fun touched => by rw [apart] at touched; cases touched⟩

/-- The accesses of a method are made in the tables, at the depth of the goroutine. -/
theorem exec_accesses {method : Program R α} {s s' : σ × Int} {value : α} :
    (accesses (S := S) method).Exec (ownStep raw) s value s' ↔
      method.Exec raw s.1 value s'.1 ∧ s'.2 = s.2 := by
  induction method generalizing s with
  | done _ =>
    constructor
    · rintro ⟨rfl, rfl⟩
      exact ⟨⟨rfl, rfl⟩, rfl⟩
    · rintro ⟨⟨rfl, tables⟩, depth⟩
      exact ⟨rfl, Prod.ext tables depth.symm⟩
  | call op next ih =>
    constructor
    · rintro ⟨answer, middle, ⟨moved, same⟩, rest⟩
      obtain ⟨ran, depth⟩ := (ih answer).mp rest
      exact ⟨⟨answer, middle.1, moved, ran⟩, depth.trans same⟩
    · rintro ⟨⟨answer, middle, moved, ran⟩, depth⟩
      exact ⟨answer, (middle, s.2), ⟨moved, rfl⟩, (ih answer).mpr ⟨ran, depth⟩⟩

/-- The accesses of a method are guarded at a positive depth. -/
theorem accesses_along {method : Program R α} {s : σ × Int} (inside : 0 < s.2) :
    (accesses (S := S) method).Along (ownStep raw) Guarded s := by
  induction method generalizing s with
  | done _ => trivial
  | call op next ih =>
    refine ⟨⟨rfl, fun _ => inside⟩, fun answer s' moved => ih answer ?_⟩
    rw [moved.2]
    exact inside

/-- At a positive depth `lock` counts up and does not touch the mutex. -/
theorem exec_locked {fn : MutexProg S R σ α} {s s' : σ × Int} {value : α} (inside : 0 < s.2) :
    (locked fn).Exec (ownStep raw) s value s' ↔
      ∃ last, fn.Exec (ownStep raw) (s.1, s.2 + 1) value last ∧ s' = (last.1, last.2 - 1) := by
  unfold locked lock
  constructor
  · rintro ⟨answer, middle, ⟨rfl, rfl⟩, rest⟩
    rw [decide_eq_true inside, if_pos inside] at rest
    obtain ⟨value', last, ran, _, s'', rfl, rfl, rfl⟩ := (Program.exec_bind fn _).mp rest
    exact ⟨last, ran, rfl⟩
  · rintro ⟨last, ran, rfl⟩
    refine ⟨decide (0 < s.2), _, ⟨rfl, rfl⟩, ?_⟩
    rw [decide_eq_true inside, if_pos inside]
    exact (Program.exec_bind fn _).mpr ⟨value, last, ran, (), _, rfl, rfl, rfl⟩

/-- A guarded function is guarded under the lock that its goroutine holds. -/
theorem locked_along {fn : MutexProg S R σ α} {s : σ × Int} (inside : 0 < s.2)
    (along : fn.Along (ownStep raw) Guarded (s.1, s.2 + 1)) :
    (locked fn).Along (ownStep raw) Guarded s := by
  unfold locked lock
  refine ⟨.of_plain rfl rfl, ?_⟩
  rintro answer middle ⟨rfl, rfl⟩
  rw [decide_eq_true inside, if_pos inside]
  change (fn >>= fun value => releaseLock true >>= fun _ => pure value).Along _ _ _
  refine along.bind fun value last _ => ?_
  exact ⟨.of_plain rfl rfl, fun _ _ _ => trivial⟩

/-- One call inside a transaction is the method, at the same depth. -/
theorem exec_callMethod {op : S.Op} {s s' : σ × Int} {answer : S.Ans op} (inside : 0 < s.2)
    (execution : (callMethod impl op).Exec (ownStep raw) s answer s') :
    s'.2 = s.2 ∧ methodStep impl raw op s.1 answer s'.1 := by
  unfold callMethod at execution
  unfold methodStep
  cases found : impl op with
  | none =>
    rw [found] at execution
    obtain ⟨_, _, rfl, rfl, rfl⟩ := execution
    exact ⟨rfl, rfl⟩
  | some method =>
    rw [found] at execution
    obtain ⟨last, ran, rfl⟩ := (exec_locked inside).mp execution
    obtain ⟨tables, depth⟩ := exec_accesses.mp ran
    have counted : last.2 = s.2 + 1 := depth
    exact ⟨by show last.2 - 1 = s.2; omega, tables⟩

/-- A transaction inside another one is its function, at the same depth. -/
theorem exec_lockedTx {fn : MutexProg S R σ (Except E α)} {s s' : σ × Int} {outcome : Except E α}
    (inside : 0 < s.2) (execution : (lockedTx fn).Exec (ownStep raw) s outcome s') :
    ∃ last, fn.Exec (ownStep raw) (s.1, s.2 + 1) outcome last ∧ s' = (last.1, last.2 - 1) := by
  unfold lockedTx at execution
  obtain ⟨_, _, ⟨rfl, rfl⟩, called⟩ := execution
  change (locked (if 0 < _ then fn else withSnapshot fn)).Exec _ _ _ _ at called
  rw [if_pos inside] at called
  exact (exec_locked inside).mp called

/-- Inside a transaction a program runs as part of it, and leaves the depth as it was. -/
theorem exec_goroutine {program : Block S E α} {s s' : σ × Int} {value : α} (inside : 0 < s.2)
    (execution : (goroutine impl program).Exec (ownStep raw) s value s') :
    s'.2 = s.2 ∧ program.Exec (nestedBrackets E (methodStep impl raw)) s.1 value s'.1 := by
  induction program generalizing s s' with
  | done _ =>
    obtain ⟨rfl, rfl⟩ := execution
    exact ⟨rfl, rfl, rfl⟩
  | call op next ih =>
    obtain ⟨answer, middle, called, rest⟩ := (Program.exec_bind (callMethod impl op) _).mp execution
    obtain ⟨same, moved⟩ := exec_callMethod inside called
    obtain ⟨depth, ran⟩ := ih answer (by omega) rest
    exact ⟨depth.trans same, answer, middle.1, moved, ran⟩
  | inTx body next body_ih ih =>
    obtain ⟨outcome, middle, called, rest⟩ :=
      (Program.exec_bind (lockedTx (goroutine impl body)) _).mp execution
    obtain ⟨last, ran, rfl⟩ := exec_lockedTx inside called
    obtain ⟨depth, nested⟩ := body_ih (show 0 < s.2 + 1 by omega) ran
    have same : last.2 - 1 = s.2 := by
      have counted : last.2 = s.2 + 1 := depth
      omega
    obtain ⟨depth', ran'⟩ := ih outcome (show 0 < last.2 - 1 by omega) rest
    exact ⟨depth'.trans same, Block.exec_nested.mpr ⟨outcome, last.1, nested, ran'⟩⟩

/-- Inside a transaction a program is guarded. -/
theorem goroutine_along {program : Block S E α} {s : σ × Int} (inside : 0 < s.2) :
    (goroutine impl program).Along (ownStep raw) Guarded s := by
  induction program generalizing s with
  | done _ => trivial
  | call op next ih =>
    have called : (callMethod impl op).Along (ownStep raw) Guarded s := by
      unfold callMethod
      cases impl op with
      | none => exact ⟨.of_plain rfl rfl, fun _ _ _ => trivial⟩
      | some method => exact locked_along inside (accesses_along (show 0 < s.2 + 1 by omega))
    refine Program.Along.bind called fun answer middle execution => ih answer ?_
    rw [(exec_callMethod inside execution).1]
    exact inside
  | inTx body next body_ih ih =>
    have called : (lockedTx (goroutine impl body)).Along (ownStep raw) Guarded s := by
      unfold lockedTx
      refine ⟨.of_plain rfl rfl, ?_⟩
      rintro _ _ ⟨rfl, rfl⟩
      change (locked (if 0 < _ then goroutine impl body else _)).Along _ _ _
      rw [if_pos inside]
      exact locked_along inside (body_ih (show 0 < _ + 1 by omega))
    refine Program.Along.bind called fun outcome middle execution => ih outcome ?_
    obtain ⟨last, ran, rfl⟩ := exec_lockedTx inside execution
    have counted : last.2 = s.2 + 1 := (exec_goroutine (show 0 < s.2 + 1 by omega) ran).1
    show 0 < last.2 - 1
    omega

/-! ## Critical sections -/

/-- The part of `locked` between the two operations of the mutex. -/
def critical (fn : MutexProg S R σ α) : MutexProg S R σ α := do
  let _ ← act .setDepth
  let value ← fn
  let _ ← act .leave
  pure value

/-- What a goroutine that does not hold the mutex runs under it: a method, or an outermost
transaction. -/
inductive Opens (impl : (op : S.Op) → Option (Program R (S.Ans op))) :
    Block S E α → {β : Type} → MutexProg S R σ β → (β → Block S E α) → Prop where
  | method {op : S.Op} {next : S.Ans op → Block S E α} {method : Program R (S.Ans op)}
    (found : impl op = some method) : Opens impl (.call op next) (accesses method) next
  | inTx {β : Type} {body : Block S E (Except E β)} {next : Except E β → Block S E α} :
    Opens impl (.inTx body next) (withSnapshot (goroutine impl body)) next

/-- What is left of a goroutine that waits for the mutex. -/
def waitingFor (impl : (op : S.Op) → Option (Program R (S.Ans op))) (fn : MutexProg S R σ β)
    (next : β → Block S E α) : MutexProg S R σ α := do
  let _ ← act .lockMu
  let value ← critical fn
  let _ ← act .unlockMu
  goroutine impl (next value)

/-- A snapshot that is restored when the function fails. -/
theorem exec_withSnapshot {fn : MutexProg S R σ (Except E α)} {s s' : σ × Int}
    {outcome : Except E α} : (withSnapshot fn).Exec (ownStep raw) s outcome s' →
    ∃ last, fn.Exec (ownStep raw) s outcome last ∧ s' = match outcome with
      | .ok _ => last
      | .error _ => (s.1, last.2) := by
  intro execution
  unfold withSnapshot at execution
  obtain ⟨_, _, ⟨rfl, rfl⟩, rest⟩ := execution
  obtain ⟨outcome', last, ran, rest⟩ := (Program.exec_bind fn _).mp rest
  cases outcome' with
  | error err =>
    obtain ⟨_, _, rfl, rfl, rfl⟩ := rest
    exact ⟨last, ran, rfl⟩
  | ok value =>
    obtain ⟨rfl, rfl⟩ := rest
    exact ⟨last, ran, rfl⟩

/-- A critical section ends at depth zero, and does what the method or the transaction does at
once. -/
theorem exec_critical [DecidableEq ι] {serial : Serial S E σ ι α} {i : ι} {fn : MutexProg S R σ β}
    {next : β → Block S E α} {s' : σ × Int} {value : β} (opens : Opens impl (serial.rest i) fn next)
    (execution : (critical fn).Exec (ownStep raw) (serial.state, 0) value s') :
    s'.2 = 0 ∧ serial.Step (methodStep impl raw)
      ⟨s'.1, Function.update serial.rest i (next value)⟩ := by
  unfold critical at execution
  obtain ⟨_, _, rfl, rest⟩ := execution
  obtain ⟨value', last, ran, rest⟩ := (Program.exec_bind fn _).mp rest
  obtain ⟨_, _, rfl, rfl, rfl⟩ := rest
  generalize waiting : serial.rest i = program at opens
  cases opens with
  | method found =>
    obtain ⟨moved, depth⟩ := exec_accesses.mp ran
    have one : last.2 = 1 := depth
    refine ⟨by show last.2 - 1 = 0; omega, .move ?_⟩
    rw [waiting]
    refine .call ?_
    simp only [methodStep, found]
    exact moved
  | inTx =>
    obtain ⟨reached, inside, rfl⟩ := exec_withSnapshot ran
    obtain ⟨depth, nested⟩ := exec_goroutine (show (0 : Int) < 1 by decide) inside
    have one : reached.2 = 1 := depth
    refine ⟨?_, .move ?_⟩
    · cases value' <;> (show reached.2 - 1 = 0; omega)
    · rw [waiting]
      refine .inTx ⟨reached.1, nested, ?_⟩
      cases value' <;> rfl

/-- A critical section is guarded. -/
theorem critical_along {program : Block S E α} {fn : MutexProg S R σ β} {next : β → Block S E α}
    {s : σ × Int} (opens : Opens impl program fn next) :
    (critical fn).Along (ownStep raw) Guarded s := by
  have along : fn.Along (ownStep raw) Guarded (s.1, 1) := by
    cases opens with
    | method found => exact accesses_along (show (0 : Int) < 1 by decide)
    | inTx =>
      refine ⟨⟨rfl, fun _ => show (0 : Int) < 1 by decide⟩, ?_⟩
      rintro _ _ ⟨rfl, rfl⟩
      change (goroutine impl _ >>= _).Along _ _ _
      refine Program.Along.bind (goroutine_along (show (0 : Int) < 1 by decide))
        fun outcome last ran => ?_
      have one : last.2 = 1 := (exec_goroutine (show (0 : Int) < 1 by decide) ran).1
      cases outcome with
      | error err => exact ⟨⟨rfl, fun _ => by omega⟩, fun _ _ _ => trivial⟩
      | ok value => trivial
  unfold critical
  refine ⟨.of_plain rfl rfl, ?_⟩
  rintro _ _ rfl
  change (fn >>= fun value => act .leave >>= fun _ => pure value).Along _ _ _
  exact along.bind fun _ _ _ => ⟨.of_plain rfl rfl, fun _ _ _ => trivial⟩

/-! ## Goroutines that do not hold the mutex -/

/-- Where a goroutine is that does not hold the mutex: before its next call or transaction, after
`InTx` has read its depth, or waiting for the mutex. -/
inductive Outside (impl : (op : S.Op) → Option (Program R (S.Ans op))) :
    Block S E α → MutexProg S R σ α → Prop where
  | ready (program : Block S E α) : Outside impl program (goroutine impl program)
  | measured {β : Type} (body : Block S E (Except E β)) (next : Except E β → Block S E α) :
    Outside impl (.inTx body next)
      (locked (withSnapshot (goroutine impl body)) >>= fun outcome => goroutine impl (next outcome))
  | waits {program : Block S E α} {β : Type} {fn : MutexProg S R σ β} {next : β → Block S E α}
    (opens : Opens impl program fn next) : Outside impl program (waitingFor impl fn next)

/-- After `lock` has found that the goroutine does not hold the mutex, it waits for it. -/
theorem locked_entered (impl : (op : S.Op) → Option (Program R (S.Ans op)))
    (fn : MutexProg S R σ β) (next : β → Block S E α) :
    ∃ rest : Bool → MutexProg S R σ α,
      (locked fn >>= fun value => goroutine impl (next value)) = .call .enter rest ∧
        rest false = waitingFor impl fn next := by
  refine ⟨_, rfl, ?_⟩
  show Program.call _ _ = Program.call _ _
  congr 1
  funext _
  show Program.call _ _ = Program.call _ _
  congr 1
  funext _
  show ((fn >>= fun value => act .leave >>= fun _ => act .unlockMu >>= fun _ => pure value) >>= _) =
    ((fn >>= fun value => act .leave >>= fun _ => pure value) >>= _)
  rw [Program.bind_assoc, Program.bind_assoc]
  rfl

/-- What is left of a goroutine that has the mutex, with the rest of its critical section. -/
def holding (impl : (op : S.Op) → Option (Program R (S.Ans op))) (section_ : MutexProg S R σ β)
    (next : β → Block S E α) : MutexProg S R σ α := do
  let value ← section_
  let _ ← act .unlockMu
  goroutine impl (next value)

/-- The next step of a goroutine that does not hold the mutex, and where it is after it. -/
inductive NextStep (impl : (op : S.Op) → Option (Program R (S.Ans op))) (program : Block S E α) :
    (op : MutexOp S R σ) → (op.Ans → MutexProg S R σ α) → Prop where
  | consults {op : S.Op} {next : S.Ans op → Block S E α} (here : program = .call op next)
    (collaborator : impl op = none) :
    NextStep impl program (.consult op) fun answer => goroutine impl (next answer)
  | measures {rest : Int → MutexProg S R σ α} (stays : Outside impl program (rest 0)) :
    NextStep impl program .loadDepth rest
  | enters {rest : Bool → MutexProg S R σ α} (stays : Outside impl program (rest false)) :
    NextStep impl program .enter rest
  | locks {β : Type} {fn : MutexProg S R σ β} {next : β → Block S E α}
    (opens : Opens impl program fn next) :
    NextStep impl program .lockMu fun _ => holding impl (critical fn) next

/-- A goroutine that does not hold the mutex consults a collaborator, asks for the depth, or takes
the mutex. -/
theorem Outside.nextStep {program : Block S E α} {op : MutexOp S R σ}
    {rest : op.Ans → MutexProg S R σ α} (outside : Outside impl program (.call op rest)) :
    NextStep impl program op rest := by
  have enters : ∀ {β : Type} {fn : MutexProg S R σ β} {next : β → Block S E α},
      Opens impl program fn next → Program.call (S := mutexCalls S R σ) op rest =
        (locked fn >>= fun value => goroutine impl (next value)) →
        NextStep impl program op rest := by
    intro β fn next opens here
    obtain ⟨rest', entered, waits⟩ := locked_entered impl fn next
    rw [entered] at here
    cases here
    refine .enters ?_
    rw [waits]
    exact .waits opens
  generalize here : Program.call (S := mutexCalls S R σ) op rest = left at outside
  cases outside with
  | ready =>
    cases program with
    | done value => cases here
    | call op' next =>
      have split : Program.call (S := mutexCalls S R σ) op rest =
        (callMethod impl op' >>= fun answer => goroutine impl (next answer)) := here
      unfold callMethod at split
      cases found : impl op' with
      | none =>
        rw [found] at split
        cases split
        exact .consults rfl found
      | some method =>
        rw [found] at split
        exact enters (.method found) split
    | inTx body next =>
      cases here
      exact .measures (.measured body next)
  | measured body next => exact enters .inTx here
  | waits opens =>
    cases here
    exact .locks opens

/-! ## Interleavings -/

section Interleavings

variable [DecidableEq ι]

/-- A step that is none of the mutex acts on the tables and on the goroutine's own depth. -/
theorem mutexStep_own {i : ι} {op : MutexOp S R σ} {s s' : MutexState σ ι} {answer : op.Ans}
    (other : op.onMutex = false) (moved : mutexStep raw i op s answer s') :
    ∃ own, ownStep raw op (s.tables, s.depths i) answer own ∧
      s' = { s with tables := own.1, depths := Function.update s.depths i own.2 } := by
  cases op <;> first | exact moved | cases other

/-- A goroutine outside of the mutex. -/
structure Parked (impl : (op : S.Op) → Option (Program R (S.Ans op)))
    (crew : Crew (mutexCalls S R σ) (MutexState σ ι) ι α) (program : Block S E α)
    (i : ι) : Prop where
  /-- Its entry of `depths` is zero, or is not there. -/
  depth : crew.state.depths i = 0
  /-- Where it is. -/
  outside : Outside impl program (crew.rest i)

/-- The goroutines, and what a serial schedule of their methods and transactions has reached: a
goroutine that holds the mutex is on the way through its next method or transaction. -/
inductive Matches (impl : (op : S.Op) → Option (Program R (S.Ans op))) (raw : Transition R σ)
    (crew : Crew (mutexCalls S R σ) (MutexState σ ι) ι α) (serial : Serial S E σ ι α) : Prop where
  | free (unlocked : crew.state.mu = false) (tables : crew.state.tables = serial.state)
    (parked : ∀ j, Parked impl crew (serial.rest j) j)
  | held {i : ι} {β : Type} {fn section_ : MutexProg S R σ β} {next : β → Block S E α}
    (locked : crew.state.mu = true) (parked : ∀ j, j ≠ i → Parked impl crew (serial.rest j) j)
    (opens : Opens impl (serial.rest i) fn next)
    (rest : crew.rest i = holding impl section_ next)
    (reaches : Program.Reaches (ownStep raw) (critical fn) (serial.state, 0) section_
      (crew.state.tables, crew.state.depths i))

/-- A goroutine that stays outside, next to the others. -/
theorem Parked.advance {crew : Crew (mutexCalls S R σ) (MutexState σ ι) ι α}
    {program : Block S E α} {i j : ι} {move : Move (mutexCalls S R σ) (MutexState σ ι)}
    {rest : MutexProg S R σ α} (parked : Parked impl crew program j) (other : j ≠ i)
    (depths : move.after.depths j = crew.state.depths j) :
    Parked impl (crew.advance i move rest) program j := by
  refine ⟨depths.trans parked.depth, ?_⟩
  rw [Crew.advance_rest_of_ne _ _ _ other]
  exact parked.outside

/-- The step of a goroutine outside of the mutex: it consults a collaborator or looks at its depth
and changes nothing, or it takes the mutex. -/
theorem Parked.step {crew : Crew (mutexCalls S R σ) (MutexState σ ι) ι α}
    {serial : Serial S E σ ι α} {i : ι} {op : MutexOp S R σ} {rest : op.Ans → MutexProg S R σ α}
    {answer : op.Ans} {s' : MutexState σ ι} (parked : Parked impl crew (serial.rest i) i)
    (waiting : crew.rest i = .call op rest) (moved : mutexStep raw i op crew.state answer s') :
    (s' = crew.state ∧ ∃ program, Serial.Reachable (methodStep impl raw) serial
        ⟨serial.state, Function.update serial.rest i program⟩ ∧
      Outside impl program (rest answer)) ∨
    (crew.state.mu = false ∧ s' = { crew.state with mu := true } ∧
      ∃ (β : Type) (fn : MutexProg S R σ β) (next : β → Block S E α),
        Opens impl (serial.rest i) fn next ∧ rest answer = holding impl (critical fn) next) := by
  have outside := parked.outside
  rw [waiting] at outside
  -- A look at the depth leaves the serial schedule where it is.
  have stays : Serial.Reachable (methodStep impl raw) serial
      ⟨serial.state, Function.update serial.rest i (serial.rest i)⟩ := by
    rw [Function.update_eq_self]
  cases outside.nextStep with
  | consults here collaborator =>
    obtain ⟨own, rfl, rfl⟩ := mutexStep_own rfl moved
    refine .inl ⟨by rw [Function.update_eq_self], _, .single (.move ?_), .ready _⟩
    rw [here]
    refine .call ?_
    simp only [methodStep, collaborator]
  | @measures rest later =>
    obtain ⟨own, ⟨rfl, rfl⟩, rfl⟩ := mutexStep_own rfl moved
    refine .inl ⟨by rw [Function.update_eq_self], _, stays, ?_⟩
    show Outside impl _ (rest (crew.state.depths i))
    rw [parked.depth]
    exact later
  | @enters rest later =>
    obtain ⟨own, ⟨rfl, rfl⟩, rfl⟩ := mutexStep_own rfl moved
    have zero : ¬0 < crew.state.depths i := by
      rw [parked.depth]
      decide
    refine .inl ⟨by simp only [if_neg zero, Function.update_eq_self], _, stays, ?_⟩
    show Outside impl _ (rest (decide (0 < crew.state.depths i)))
    rw [decide_eq_false zero]
    exact later
  | locks opens =>
    obtain ⟨unlocked, rfl⟩ := moved
    exact .inr ⟨unlocked, rfl, _, _, _, opens, rfl⟩

/-- A goroutine that is outside of the mutex after its step. -/
theorem Parked.self {crew : Crew (mutexCalls S R σ) (MutexState σ ι) ι α}
    {serial : Serial S E σ ι α} {i : ι} {move : Move (mutexCalls S R σ) (MutexState σ ι)}
    {rest : MutexProg S R σ α} {program : Block S E α} (depth : move.after.depths i = 0)
    (outside : Outside impl program rest) :
    Parked impl (crew.advance i move rest) (Function.update serial.rest i program i) i := by
  refine ⟨depth, ?_⟩
  rw [Crew.advance_rest_self, Function.update_self]
  exact outside

/-- The others stay where they are when one goroutine moves on. -/
theorem Parked.others {crew : Crew (mutexCalls S R σ) (MutexState σ ι) ι α}
    {serial : Serial S E σ ι α} {i j : ι} {move : Move (mutexCalls S R σ) (MutexState σ ι)}
    {rest : MutexProg S R σ α} {program : Block S E α} (parked : Parked impl crew (serial.rest j) j)
    (other : j ≠ i) (depths : move.after.depths j = crew.state.depths j) :
    Parked impl (crew.advance i move rest) (Function.update serial.rest i program j) j := by
  rw [Function.update_of_ne other]
  exact parked.advance other depths

/-- One step of the goroutines is a part of a serial schedule. -/
theorem Matches.step {crew crew' : Crew (mutexCalls S R σ) (MutexState σ ι) ι α}
    {serial : Serial S E σ ι α} (matching : Matches impl raw crew serial)
    (stepped : Crew.Step (mutexStep raw) (fun _ _ _ => True) crew crew') :
    ∃ serial', Serial.Reachable (methodStep impl raw) serial serial' ∧
      Matches impl raw crew' serial' := by
  obtain @⟨i, op, rest, answer, s', waiting, moved, -⟩ := stepped
  cases matching with
  | free unlocked tables parked =>
    rcases (parked i).step waiting moved with ⟨rfl, program, reached, outside⟩ |
      ⟨-, rfl, β, fn, next, opens, here⟩
    · refine ⟨_, reached, .free unlocked tables fun j => ?_⟩
      by_cases same : j = i
      · subst same
        exact .self (parked j).depth outside
      · exact (parked j).others same rfl
    · refine ⟨serial, .refl, .held rfl (fun j other => (parked j).advance other rfl) opens
        ((Crew.advance_rest_self _ _ _).trans here) ?_⟩
      show Program.Reaches _ _ _ _ (crew.state.tables, crew.state.depths i)
      rw [tables, (parked i).depth]
      exact .start
  | @held holder β fn section_ next locked parked opens left reaches =>
    by_cases same : i = holder
    · subst same
      rw [left] at waiting
      cases section_ with
      | done value =>
        -- The critical section is over: its method or transaction has run at once.
        cases waiting
        obtain ⟨-, rfl⟩ := moved
        obtain ⟨depth, ran⟩ := exec_critical opens (reaches.exec ⟨rfl, rfl⟩)
        refine ⟨_, .single ran, .free rfl rfl fun j => ?_⟩
        by_cases same : j = i
        · subst same
          exact .self depth (.ready _)
        · exact (parked j same).others same rfl
      | call op' rest' =>
        cases waiting
        have guarded := ((critical_along opens).reaches reaches).1
        obtain ⟨own, stepped, rfl⟩ := mutexStep_own guarded.1 moved
        refine ⟨serial, .refl, .held locked (fun j other => ?_) opens
          (Crew.advance_rest_self _ _ _) ?_⟩
        · exact (parked j other).advance other (Function.update_of_ne other _ _)
        · show Program.Reaches _ _ _ _ (own.1, Function.update crew.state.depths i own.2 i)
          rw [Function.update_self]
          exact reaches.call stepped
    · rcases (parked i same).step waiting moved with ⟨rfl, program, reached, outside⟩ |
        ⟨unlocked, -⟩
      · have opens' : Opens impl (Function.update serial.rest i program holder) fn next := by
          rw [Function.update_of_ne (Ne.symm same)]
          exact opens
        have left' := (Crew.advance_rest_of_ne crew
          ⟨op, crew.state, answer, crew.state⟩ (rest answer) (Ne.symm same)).trans left
        refine ⟨_, reached, .held locked (fun j other => ?_) opens' left' reaches⟩
        by_cases here : j = i
        · subst here
          exact .self (parked j other).depth outside
        · exact (parked j other).others here rfl
      · rw [locked] at unlocked
        cases unlocked

/-- Every interleaving matches a serial schedule. -/
theorem Interleaves.matches {body : ι → Block S E α} {tables : σ}
    {crew : Crew (mutexCalls S R σ) (MutexState σ ι) ι α}
    (interleaves : Interleaves impl raw body tables crew) :
    ∃ serial, Serial.Reachable (methodStep impl raw) ⟨tables, body⟩ serial ∧
      Matches impl raw crew serial := by
  induction interleaves with
  | refl => exact ⟨_, .refl, .free rfl rfl fun j => ⟨rfl, .ready _⟩⟩
  | tail _ stepped ih =>
    obtain ⟨serial, reached, matching⟩ := ih
    obtain ⟨serial', later, matching'⟩ := matching.step stepped
    exact ⟨serial', reached.trans later, matching'⟩

/-- A goroutine outside of the mutex that has returned has nothing left to do. -/
theorem Outside.returned {program : Block S E α} {value : α}
    (outside : Outside (σ := σ) impl program (.done value)) : program = .done value := by
  generalize here : Program.done (S := mutexCalls S R σ) value = left at outside
  cases outside with
  | ready =>
    cases program with
    | done _ =>
      cases here
      rfl
    | call op next =>
      have split : Program.done (S := mutexCalls S R σ) value =
        (callMethod impl op >>= fun answer => goroutine impl (next answer)) := here
      unfold callMethod at split
      cases found : impl op with
      | none =>
        rw [found] at split
        cases split
      | some method =>
        rw [found] at split
        obtain ⟨_, entered, -⟩ := locked_entered impl (accesses (S := S) (σ := σ) method) next
        rw [entered] at split
        cases split
    | inTx body next => cases here
  | measured body next =>
    obtain ⟨_, entered, -⟩ := locked_entered impl
      (withSnapshot (goroutine impl body)) next
    rw [entered] at here
    cases here
  | waits opens => cases here

omit [DecidableEq ι] in
/-- A goroutine outside of the mutex that has returned has nothing left to do in the serial
schedule. -/
theorem Parked.returned {crew : Crew (mutexCalls S R σ) (MutexState σ ι) ι α}
    {program : Block S E α}
    {i : ι} {value : α} (parked : Parked impl crew program i) (returned : crew.Returned i value) :
    program = .done value := by
  have outside := parked.outside
  rw [show crew.rest i = .done value from returned] at outside
  exact outside.returned

/-- When every goroutine has returned, the serial schedule has ended, with the same values. -/
theorem Interleaves.finished {body : ι → Block S E α} {tables : σ}
    {crew : Crew (mutexCalls S R σ) (MutexState σ ι) ι α} {value : ι → α}
    (interleaves : Interleaves impl raw body tables crew)
    (returned : ∀ i, crew.Returned i (value i)) :
    Serial.Reachable (methodStep impl raw) ⟨tables, body⟩
      ⟨crew.state.tables, fun i => .done (value i)⟩ := by
  obtain ⟨serial, reached, matching⟩ := interleaves.matches
  cases matching with
  | free _ same parked =>
    have rest : serial.rest = fun i => .done (value i) :=
      funext fun i => (parked i).returned (returned i)
    rw [same, ← rest]
    exact reached
  | @held holder β fn section_ next locked parked opens left reaches =>
    -- The holder still has to unlock the mutex.
    have here := left.symm.trans (returned holder)
    cases section_ <;> cases here

/-- What is left of a goroutine outside of the mutex does not begin with an access of the tables. -/
theorem Outside.apart {program : Block S E α} {op : MutexOp S R σ}
    {rest : op.Ans → MutexProg S R σ α} (outside : Outside impl program (.call op rest)) :
    op.touches = false := by
  cases outside.nextStep <;> rfl

end Interleavings

/-- In every interleaving of any number of goroutines: at most one of them has a positive depth, it
holds the mutex, only it accesses the tables, and a goroutine that waits for the mutex does not hold
it. -/
theorem memstore_access_exclusive [DecidableEq ι]
    (impl : (op : S.Op) → Option (Program R (S.Ans op))) (raw : Transition R σ)
    (body : ι → Block S E α) (tables : σ) {crew : Crew (mutexCalls S R σ) (MutexState σ ι) ι α}
    (interleaves : Interleaves impl raw body tables crew) :
    (∀ i, 0 < crew.state.depths i → crew.state.mu = true ∧
      ∀ j, j ≠ i → crew.state.depths j = 0) ∧
    (∀ i op, (crew.rest i).nextCall = some op → op.touches = true → 0 < crew.state.depths i) ∧
    ∀ i, (crew.rest i).nextCall = some .lockMu → crew.state.depths i = 0 := by
  obtain ⟨serial, -, matching⟩ := interleaves.matches
  -- What is known of each goroutine: it is outside, or it is the holder.
  have known : ∀ i, Parked impl crew (serial.rest i) i ∨
      crew.state.mu = true ∧ (∀ j, j ≠ i → crew.state.depths j = 0) ∧
        ∀ op, (crew.rest i).nextCall = some op → op ≠ .lockMu ∧
          (op.touches = true → 0 < crew.state.depths i) := by
    intro i
    cases matching with
    | free unlocked tables parked => exact .inl (parked i)
    | @held holder β fn section_ next locked parked opens left reaches =>
      by_cases same : i = holder
      · subst same
        refine .inr ⟨locked, fun j other => (parked j other).depth, fun op here => ?_⟩
        rw [left] at here
        cases section_ with
        | done value =>
          cases here
          exact ⟨fun mutex => (by cases mutex), fun touched => (by cases touched)⟩
        | call op' rest =>
          cases here
          have guarded := ((critical_along opens).reaches reaches).1
          refine ⟨fun mutex => ?_, guarded.2⟩
          rw [mutex] at guarded
          cases guarded.1
      · exact .inl (parked i same)
  refine ⟨fun i inside => ?_, fun i op here touched => ?_, fun i here => ?_⟩
  · rcases known i with parked | ⟨locked, others, -⟩
    · rw [parked.depth] at inside
      exact absurd inside (by decide)
    · exact ⟨locked, others⟩
  · rcases known i with parked | ⟨-, -, guarded⟩
    · obtain ⟨rest, waiting⟩ := Program.nextCall_eq_some.mp here
      have outside := parked.outside
      rw [waiting] at outside
      rw [outside.apart] at touched
      cases touched
    · exact (guarded op here).2 touched
  · rcases known i with parked | ⟨-, -, guarded⟩
    · exact parked.depth
    · exact absurd rfl (guarded _ here).1

/-- Whenever the mutex is free, the tables are what some serial schedule leaves, in which every
method and every outermost transaction runs at once and a transaction that fails does nothing; and
every goroutine that has returned has returned there, with the same value. -/
theorem memstore_serializable [DecidableEq ι]
    (impl : (op : S.Op) → Option (Program R (S.Ans op))) (raw : Transition R σ)
    (body : ι → Block S E α) (tables : σ) {crew : Crew (mutexCalls S R σ) (MutexState σ ι) ι α}
    (interleaves : Interleaves impl raw body tables crew) (unlocked : crew.state.mu = false) :
    ∃ rest, Serial.Reachable (methodStep impl raw) ⟨tables, body⟩ ⟨crew.state.tables, rest⟩ ∧
      ∀ i value, crew.Returned i value → rest i = .done value := by
  obtain ⟨serial, reached, matching⟩ := interleaves.matches
  cases matching with
  | free _ same parked =>
    exact ⟨serial.rest, same ▸ reached, fun i value returned => (parked i).returned returned⟩
  | held locked =>
    rw [unlocked] at locked
    cases locked

/-- No deadlock: if every access of the tables and every collaborator gives an answer, some
goroutine can make a step as long as one has not returned. -/
theorem memstore_no_deadlock [DecidableEq ι]
    (impl : (op : S.Op) → Option (Program R (S.Ans op))) (raw : Transition R σ)
    (body : ι → Block S E α) (tables : σ) {crew : Crew (mutexCalls S R σ) (MutexState σ ι) ι α}
    (interleaves : Interleaves impl raw body tables crew)
    (accessible : ∀ op s, ∃ answer s', raw op s answer s')
    (answered : ∀ op : S.Op, Nonempty (S.Ans op)) (unfinished : ∃ i, ¬crew.Finished i) :
    ∃ crew', Crew.Step (mutexStep raw) (fun _ _ _ => True) crew crew' := by
  -- A step that is none of the mutex can always be made.
  have enabled : ∀ (op : MutexOp S R σ) i, op.onMutex = false →
      ∃ answer s', mutexStep raw i op crew.state answer s' := by
    intro op i other
    cases op with
    | loadDepth | snapshot => exact ⟨_, _, _, ⟨rfl, rfl⟩, rfl⟩
    | enter => exact ⟨_, _, _, ⟨rfl, rfl⟩, rfl⟩
    | setDepth | leave | restore _ => exact ⟨(), _, _, rfl, rfl⟩
    | access op =>
      obtain ⟨answer, s', moved⟩ := accessible op crew.state.tables
      exact ⟨answer, _, (s', _), ⟨moved, rfl⟩, rfl⟩
    | consult op => exact ⟨(answered op).some, _, _, rfl, rfl⟩
    | lockMu | unlockMu => cases other
  obtain ⟨serial, -, matching⟩ := interleaves.matches
  cases matching with
  | free unlocked tables parked =>
    obtain ⟨i, unfinished⟩ := unfinished
    cases waiting : crew.rest i with
    | done value => exact absurd (by simp [Crew.Finished, waiting, Program.isDone]) unfinished
    | call op rest =>
      have outside := (parked i).outside
      rw [waiting] at outside
      by_cases mutex : op.onMutex = false
      · obtain ⟨answer, s', moved⟩ := enabled op i mutex
        exact ⟨_, .call waiting moved trivial⟩
      · cases outside.nextStep with
        | locks opens =>
          exact ⟨crew.advance i ⟨.lockMu, crew.state, (), _⟩ _,
            .call waiting ⟨unlocked, rfl⟩ trivial⟩
        | consults _ _ | measures _ | enters _ => exact absurd rfl mutex
  | @held holder β fn section_ next locked parked opens left reaches =>
    cases section_ with
    | done value =>
      exact ⟨crew.advance holder ⟨.unlockMu, crew.state, (), _⟩ _,
        .call left ⟨locked, rfl⟩ trivial⟩
    | call op rest =>
      have guarded := ((critical_along opens).reaches reaches).1
      obtain ⟨answer, s', moved⟩ := enabled op holder guarded.1
      exact ⟨_, .call left moved trivial⟩

end Mutex

/-! ## Computed interleavings -/

section Computed

variable {S R : Signature} {E σ ι α : Type} [DecidableEq ι]

/-- The accesses of the tables, as a function computes them. -/
def computed (apply : (op : R.Op) → σ → R.Ans op × σ) : Transition R σ := fun op s answer s' =>
  answer = (apply op s).1 ∧ s' = (apply op s).2

/-- Take the steps of a goroutine, with the accesses a function computes and fixed answers of the
collaborators. -/
def mutexHandle (apply : (op : R.Op) → σ → R.Ans op × σ) (reply : (op : S.Op) → S.Ans op) (i : ι) :
    (op : MutexOp S R σ) → MutexState σ ι → op.Ans × MutexState σ ι
  | .loadDepth, s => (s.depths i, s)
  | .enter, s =>
    let depth := if 0 < s.depths i then s.depths i + 1 else s.depths i
    (decide (0 < s.depths i), { s with depths := Function.update s.depths i depth })
  | .lockMu, s => ((), { s with mu := true })
  | .setDepth, s => ((), { s with depths := Function.update s.depths i 1 })
  | .leave, s => ((), { s with depths := Function.update s.depths i (s.depths i - 1) })
  | .unlockMu, s => ((), { s with mu := false })
  | .access op, s => ((apply op s.tables).1, { s with tables := (apply op s.tables).2 })
  | .snapshot, s => (s.tables, s)
  | .restore snap, s => ((), { s with tables := snap })
  | .consult op, s => (reply op, s)

/-- The mutex is free when it is locked, and locked when it is unlocked. -/
def MutexReady (_ : Crew (mutexCalls S R σ) (MutexState σ ι) ι α) (_ : ι)
    (move : Move (mutexCalls S R σ) (MutexState σ ι)) : Prop :=
  match move.op with
  | .lockMu => move.before.mu = false
  | .unlockMu => move.before.mu = true
  | _ => True

instance (crew : Crew (mutexCalls S R σ) (MutexState σ ι) ι α) (i : ι)
    (move : Move (mutexCalls S R σ) (MutexState σ ι)) : Decidable (MutexReady crew i move) := by
  unfold MutexReady
  split <;> infer_instance

/-- The turns of some goroutines. -/
def mutexTurns (apply : (op : R.Op) → σ → R.Ans op × σ) (reply : (op : S.Op) → S.Ans op)
    (turns : List ι) : List (Crew.Turn (mutexCalls S R σ) (MutexState σ ι) ι) :=
  turns.map fun i => (i, mutexHandle apply reply i)

/-- Steps that are taken when the mutex is ready are an interleaving. -/
theorem interleaves_play {impl : (op : S.Op) → Option (Program R (S.Ans op))}
    {apply : (op : R.Op) → σ → R.Ans op × σ} {reply : (op : S.Op) → S.Ans op}
    {body : ι → Block S E α} {tables : σ} {turns : List ι}
    (ready : (launched impl body tables).AdmitsAll MutexReady (mutexTurns apply reply turns)) :
    Interleaves impl (computed apply) body tables
      ((launched impl body tables).play (mutexTurns apply reply turns)) := by
  have reached : Crew.Reachable (mutexStep (computed apply)) MutexReady (launched impl body tables)
      ((launched impl body tables).play (mutexTurns apply reply turns)) := by
    refine Crew.reachable_play_admitted (fun next member crew op admitted => ?_) ready
    obtain ⟨i, -, rfl⟩ := List.mem_map.mp member
    cases op with
    | lockMu | unlockMu => exact ⟨admitted, rfl⟩
    | loadDepth | snapshot => exact ⟨_, ⟨rfl, rfl⟩, by simp [mutexHandle]⟩
    | enter => exact ⟨_, ⟨rfl, rfl⟩, rfl⟩
    | setDepth | leave => exact ⟨_, rfl, rfl⟩
    | restore _ | consult _ => exact ⟨_, rfl, by simp [mutexHandle]⟩
    | access op =>
      exact ⟨((apply op crew.state.tables).2, crew.state.depths i), ⟨⟨rfl, rfl⟩, rfl⟩,
        by simp [mutexHandle]⟩
  refine Relation.ReflTransGen.mono (fun crew crew' moved => ?_) _ _ reached
  obtain ⟨waiting, moved, -⟩ := moved
  exact .call waiting moved trivial

end Computed

/-! ## Two goroutines -/

/-- The methods of the store. -/
abbrev storeCalls : Signature := ⟨StoreOp, fun op => Except Err op.Result⟩

/-- A method as one access of all it touches. -/
def wholeMethod (op : StoreOp) : Option (Program storeCalls (storeCalls.Ans op)) :=
  some (Program.perform (S := storeCalls) op)

/-- The methods, with a clock that stands still. -/
def execAtZero (op : StoreOp) : Store → Except Err op.Result × Store := op.exec 0

/-- The answers of the methods on empty tables. -/
def emptyAnswer (op : StoreOp) : Except Err op.Result := (execAtZero op {}).1

/-- A goroutine whose transaction writes a balance and fails, and one that writes another
balance. -/
def sampleGoroutines : Bool → Block storeCalls Err (Except Err Unit)
  | false => Block.transaction do
    let _ ← Block.perform (S := storeCalls)
      (.upsertBalance { walletID := sampleID 1, asset := "ETH", confirmed := "5" })
    pure (.error ⟨"rejected", none⟩)
  | true => Block.perform (S := storeCalls)
      (.upsertBalance { walletID := sampleID 1, asset := "BTC", confirmed := "7" })

/-- What two goroutines have reached after some turns, from the empty tables. -/
def sampleInterleaving (turns : List Bool) :
    Crew (mutexCalls storeCalls storeCalls Store) (MutexState Store Bool) Bool (Except Err Unit) :=
  (launched wholeMethod sampleGoroutines {}).play
    (mutexTurns (R := storeCalls) execAtZero emptyAnswer turns)

/-- The turns of an interleaving of the two. -/
theorem sampleInterleaving_reached (turns : List Bool)
    (ready : (launched wholeMethod sampleGoroutines {}).AdmitsAll MutexReady
      (mutexTurns (R := storeCalls) execAtZero emptyAnswer turns)) :
    Interleaves wholeMethod (computed (R := storeCalls) execAtZero) sampleGoroutines {}
      (sampleInterleaving turns) :=
  interleaves_play ready

/-- The transaction has the mutex and is in a method, and the other goroutine waits. -/
def sampleOpen : List Bool := [false, false, false, false, false, true, false]

/-- Then the transaction fails, and the other goroutine writes its balance. -/
def sampleClosed : List Bool :=
  sampleOpen ++ List.replicate 5 false ++ List.replicate 5 true

/-- The goroutine in the transaction is the one at a positive depth, and it accesses the tables
next; the other one waits for the mutex. -/
theorem memstore_access_exclusive_nested :
    (sampleInterleaving sampleOpen).state.depths false = 2 ∧
    (sampleInterleaving sampleOpen).state.depths true = 0 ∧
    ((sampleInterleaving sampleOpen).rest true).nextCall = some .lockMu ∧
    (sampleInterleaving sampleOpen).state.mu = true := by
  have exclusive := memstore_access_exclusive wholeMethod (computed execAtZero) sampleGoroutines {}
    (sampleInterleaving_reached sampleOpen (by decide +kernel))
  have inside : (sampleInterleaving sampleOpen).state.depths false = 2 := by decide +kernel
  have waits : ((sampleInterleaving sampleOpen).rest true).nextCall = some .lockMu := rfl
  have positive : 0 < (sampleInterleaving sampleOpen).state.depths false := by rw [inside]; decide
  exact ⟨inside, exclusive.2.2 true waits, waits, (exclusive.1 false positive).1⟩

/-- After the rollback the tables are those of a serial schedule, and hold only the other
balance. -/
theorem memstore_serializable_rollback :
    (sampleInterleaving sampleClosed).state.mu = false ∧
    ((sampleInterleaving sampleClosed).state.tables.balances.rows.map Balance.asset) = ["BTC"] ∧
    ∃ rest, Serial.Reachable (methodStep wholeMethod (computed (R := storeCalls) execAtZero))
      ⟨{}, sampleGoroutines⟩ ⟨(sampleInterleaving sampleClosed).state.tables, rest⟩ ∧
      rest false = .done (.error ⟨"rejected", none⟩) ∧ rest true = .done (.ok ()) := by
  have unlocked : (sampleInterleaving sampleClosed).state.mu = false := by decide +kernel
  obtain ⟨rest, reached, returned⟩ := memstore_serializable wholeMethod (computed execAtZero)
    sampleGoroutines {} (sampleInterleaving_reached sampleClosed (by decide +kernel)) unlocked
  exact ⟨unlocked, by decide +kernel, rest, reached, returned false _ rfl, returned true _ rfl⟩

/-- While the transaction is open and the other goroutine waits for it, a step can be made. -/
theorem memstore_no_deadlock_open :
    ∃ crew', Crew.Step (mutexStep (computed (R := storeCalls) execAtZero)) (fun _ _ _ => True)
      (sampleInterleaving sampleOpen) crew' := by
  refine memstore_no_deadlock wholeMethod (computed execAtZero) sampleGoroutines {}
    (sampleInterleaving_reached sampleOpen (by decide +kernel))
    (fun op s => ⟨_, _, rfl, rfl⟩) (fun op => ⟨emptyAnswer op⟩) ⟨true, ?_⟩
  decide +kernel

end WalletManagement
