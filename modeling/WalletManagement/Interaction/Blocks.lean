import WalletManagement.Interaction.Program

/-!
# Programs with transaction blocks

A block program makes calls and runs blocks: a block is a program that succeeds or fails, between
an opening and a closing that the collaborator may answer with an error of its own, and the program
goes on with either outcome. `Brackets` give the calls, the openings and the closings a meaning on
a state, and `Block.Exec` runs a program alone. A relation that the calls keep, and that a block
keeps when its body does, holds between the first and the last state of every execution.

An `Engine` is a database in which every opening begins a transaction of its own. Its statements
change only what the engine keeps for the transaction, and only a commit changes the database, so a
transaction that fails leaves the database as the transactions inside it have left it.
-/

namespace Interaction

/-- A value, a call, or a block, each followed by a program for its outcome. -/
inductive Block (S : Signature) (E : Type) : Type → Type 1 where
  | done {α : Type} (value : α) : Block S E α
  | call {α : Type} (op : S.Op) (next : S.Ans op → Block S E α) : Block S E α
  | inTx {α β : Type} (body : Block S E (Except E β)) (next : Except E β → Block S E α) :
    Block S E α

namespace Block

variable {S S' : Signature} {E α β σ : Type}

/-- Continue a program with its value. -/
def bind : Block S E α → (α → Block S E β) → Block S E β
  | .done value, next => next value
  | .call op rest, next => .call op fun answer => (rest answer).bind next
  | .inTx body rest, next => .inTx body fun outcome => (rest outcome).bind next

instance : Monad (Block S E) where
  pure := .done
  bind := .bind

/-- The program of one call. -/
def perform (op : S.Op) : Block S E (S.Ans op) := .call op .done

/-- The program of one block. -/
def transaction (body : Block S E (Except E α)) : Block S E (Except E α) := .inTx body .done

/-- Replace every call by a program of another signature. -/
def expand (impl : (op : S.Op) → Block S' E (S.Ans op)) : {α : Type} → Block S E α → Block S' E α
  | _, .done value => .done value
  | _, .call op next => (impl op).bind fun answer => (next answer).expand impl
  | _, .inTx body next => .inTx (body.expand impl) fun outcome => (next outcome).expand impl

end Block

/-- The error of an outcome. -/
def errorOf {E α : Type} : Except E α → Option E
  | .ok _ => none
  | .error err => some err

/-- The outcome of a block whose body and closing have had an outcome. -/
def closedWith {E α : Type} (outcome : Except E α) : Option E → Except E α
  | none => outcome
  | some err => .error err

/-- The meaning of calls and blocks on a state. -/
structure Brackets (S : Signature) (E σ : Type) where
  /-- The calls. -/
  step : Transition S σ
  /-- The opening of a block, which may fail. -/
  opens : σ → Except E Unit → σ → Prop
  /-- The closing of a block: the error of its body, and the error of the block. -/
  closes : σ → Option E → Option E → σ → Prop

namespace Block

variable {S : Signature} {E α σ : Type}

/-- Run alone from a state, the program can return a value in a state. -/
def Exec (brackets : Brackets S E σ) : {α : Type} → Block S E α → σ → α → σ → Prop
  | _, .done value, s, value', s' => value = value' ∧ s = s'
  | _, .call op next, s, value', s' =>
    ∃ answer middle, brackets.step op s answer middle ∧ (next answer).Exec brackets middle value' s'
  | _, .inTx body next, s, value', s' =>
    (∃ err middle, brackets.opens s (.error err) middle ∧
      (next (.error err)).Exec brackets middle value' s') ∨
    ∃ opened outcome last err middle, brackets.opens s (.ok ()) opened ∧
      body.Exec brackets opened outcome last ∧ brackets.closes last (errorOf outcome) err middle ∧
      (next (closedWith outcome err)).Exec brackets middle value' s'

/-- A relation between the states before and after that calls keep, and blocks keep when their
bodies do. -/
structure Keeps (brackets : Brackets S E σ) (R : σ → σ → Prop) : Prop where
  refl : ∀ s, R s s
  trans : ∀ s middle s', R s middle → R middle s' → R s s'
  call : ∀ op s answer s', brackets.step op s answer s' → R s s'
  refused : ∀ s err s', brackets.opens s (.error err) s' → R s s'
  block : ∀ s opened last failure err s', brackets.opens s (.ok ()) opened → R opened last →
    brackets.closes last failure err s' → R s s'

/-- The relation holds between the first and the last state of every execution. -/
theorem Keeps.exec {brackets : Brackets S E σ} {R : σ → σ → Prop} (keeps : Keeps brackets R)
    {program : Block S E α} {s s' : σ} {value : α} (execution : program.Exec brackets s value s') :
    R s s' := by
  induction program generalizing s s' with
  | done _ =>
    obtain ⟨-, rfl⟩ := execution
    exact keeps.refl s
  | call op next ih =>
    obtain ⟨answer, middle, moved, rest⟩ := execution
    exact keeps.trans s middle s' (keeps.call op s answer middle moved) (ih answer rest)
  | inTx body next body_ih ih =>
    rcases execution with ⟨err, middle, refused, rest⟩ | ⟨opened, outcome, last, err, middle,
      opens, inside, closes, rest⟩
    · exact keeps.trans s middle s' (keeps.refused s err middle refused) (ih _ rest)
    · have closed := keeps.block s opened last _ err middle opens (body_ih inside) closes
      exact keeps.trans s middle s' closed (ih _ rest)

end Block

/-! ## Independent transactions -/

/-- A database whose statements run in transactions or on their own. -/
structure Engine (S : Signature) (D T : Type) where
  /-- A statement outside any transaction. -/
  auto : Transition S D
  /-- The beginning of a transaction. -/
  begins : D → T → Prop
  /-- A statement in a transaction. -/
  exec : (op : S.Op) → D → T → S.Ans op → T → Prop
  /-- A commit that succeeds. -/
  commits : D → T → D → Prop

/-- A database, and the transactions that are open, the last one first. -/
structure Session (D T : Type) where
  db : D
  stack : List T

namespace Engine

variable {S : Signature} {E D T α : Type}

/-- Every block is a transaction of its own. A transaction that is refused, rolled back or not
committed leaves the database as it is; the commits of transactions that are begun inside another
one are subject to a condition. -/
def brackets (engine : Engine S D T) (E : Type) (nested : D → D → Prop) :
    Brackets S E (Session D T) where
  step op s answer s' :=
    match s.stack with
    | [] => engine.auto op s.db answer s'.db ∧ s'.stack = []
    | tx :: rest => ∃ tx', engine.exec op s.db tx answer tx' ∧ s' = ⟨s.db, tx' :: rest⟩
  opens s answer s' :=
    match answer with
    | .ok () => ∃ tx, engine.begins s.db tx ∧ s' = ⟨s.db, tx :: s.stack⟩
    | .error _ => s' = s
  closes s failure err s' :=
    match s.stack, failure with
    | [], _ => False
    | _ :: rest, some failed => err = some failed ∧ s' = ⟨s.db, rest⟩
    | tx :: rest, none =>
      (∃ db, engine.commits s.db tx db ∧ (rest ≠ [] → nested s.db db) ∧ err = none ∧
        s' = ⟨db, rest⟩) ∨
      (∃ refused, err = some refused) ∧ s' = ⟨s.db, rest⟩

/-- The database is the same, and so are the transactions around the one that is open. -/
def Inside (s s' : Session D T) : Prop :=
  ∀ tx rest, s.stack = tx :: rest → s'.db = s.db ∧ ∃ tx', s'.stack = tx' :: rest

/-- A transaction leaves the database alone while it is open, if those begun inside it commit no
change. -/
theorem keeps_inside (engine : Engine S D T) :
    Block.Keeps (engine.brackets E fun db db' => db' = db) Inside where
  refl s tx rest here := ⟨rfl, tx, here⟩
  trans s middle s' first second tx rest here := by
    obtain ⟨same, tx₁, middle_stack⟩ := first tx rest here
    obtain ⟨same', last⟩ := second tx₁ rest middle_stack
    exact ⟨same'.trans same, last⟩
  call op s answer s' moved tx rest here := by
    simp only [brackets, here] at moved
    obtain ⟨tx', -, rfl⟩ := moved
    exact ⟨rfl, tx', rfl⟩
  refused s err s' refused tx rest here := by
    obtain rfl : s' = s := refused
    exact ⟨rfl, tx, here⟩
  block s opened last failure err s' opens inside closes tx rest here := by
    obtain ⟨inner, -, rfl⟩ := opens
    obtain ⟨same, inner', stack⟩ := inside inner s.stack rfl
    simp only [brackets, stack] at closes
    cases failure with
    | some failed =>
      obtain ⟨-, rfl⟩ := closes
      exact ⟨same, tx, here⟩
    | none =>
      rcases closes with ⟨db, -, quiet, -, rfl⟩ | ⟨-, rfl⟩
      · have nested : s.stack ≠ [] := by simp [here]
        exact ⟨(quiet nested).trans same, tx, here⟩
      · exact ⟨same, tx, here⟩

/-- A transaction that fails leaves the session as it was, if the transactions begun inside it
commit no change. -/
theorem restored (engine : Engine S D T) {body : Block S E (Except E α)} {s s' : Session D T}
    {err : E} (execution : (Block.transaction body).Exec
      (engine.brackets E fun db db' => db' = db) s (.error err) s') : s' = s := by
  rcases execution with ⟨_, middle, refused, -, rfl⟩ | ⟨opened, outcome, last, closing, middle,
    opens, inside, closes, returned, rfl⟩
  · exact refused
  · obtain ⟨inner, -, rfl⟩ := opens
    obtain ⟨same, inner', stack⟩ := engine.keeps_inside.exec inside inner s.stack rfl
    have closed : middle.db = last.db ∧ middle.stack = s.stack := by
      simp only [brackets, stack] at closes
      cases outcome with
      | error failed =>
        obtain ⟨-, rfl⟩ := closes
        exact ⟨rfl, rfl⟩
      | ok value =>
        rcases closes with ⟨db, -, -, rfl, -⟩ | ⟨-, rfl⟩
        · cases returned
        · exact ⟨rfl, rfl⟩
    cases middle
    cases s
    simp_all

end Engine

end Interaction
