import WalletManagement.Interaction.Crew
import WalletManagement.Interaction.Serial
import Mathlib.Data.Fintype.Basic

/-!
# Sessions of a database with snapshots

Sessions on one table of a database, each running statements on their own or in transactions. A
transaction reads the rows as they were committed when its first statement ran, and its own writes.
A statement that writes or locks a row waits for the other transactions that have, and fails if the
row has been committed anew since the snapshot. Any statement may fail for other reasons, which ends
its transaction, and the answer to a commit may be lost.

Under such rules two transactions can each read a row that the other one writes, so their
interleavings are not serial in general. They are if every transaction ends up locking or writing
each row that it has read, found or not: `Schedule.of_sessions` gives a serial schedule of whole
transactions then, in which every transaction takes effect at a request of its own session.
-/

namespace Interaction

variable {S : Signature} {K V E α β σ ι : Type}

/-- The value that a program has returned. -/
def Program.value : Program S α → Option α
  | .done value => some value
  | .call _ _ => none

/-- A session whose program has returned a value. -/
theorem Crew.returned_of_value {crew : Crew S σ ι α} {i : ι} {value : α}
    (here : (crew.rest i).value = some value) : crew.Returned i value := by
  unfold Crew.Returned
  cases rest : crew.rest i with
  | done _ =>
    rw [rest] at here
    rw [Option.some.inj here]
  | call _ _ =>
    rw [rest] at here
    cases here

/-! ## Statements -/

/-- The rows of a table by their keys. -/
abbrev Rows (K V : Type) : Type := K → Option V

/-- The statements. -/
inductive RowOp (K V : Type) where
  /-- `SELECT` of one row. -/
  | select (key : K)
  /-- `SELECT … FOR UPDATE` of one row. -/
  | lock (key : K)
  /-- `UPDATE` of one row, where a condition holds of it. -/
  | update (key : K) (set : V → Option V)
  /-- `INSERT`. -/
  | insert (key : K) (row : V)
  /-- A statement that the server does not accept. -/
  | refused

namespace RowOp

/-- The row that a statement is about. -/
def key : RowOp K V → Option K
  | .select key | .lock key | .update key _ | .insert key _ => some key
  | .refused => none

/-- What a statement returns: a row, or whether a row was affected. -/
@[reducible] def Result : RowOp K V → Type
  | .select _ | .lock _ => Option V
  | .update _ _ => Bool
  | .insert _ _ | .refused => Unit

/-- The statement has locked or written its row. -/
def takes : (op : RowOp K V) → op.Result → Bool
  | .lock _, found => Option.isSome found
  | .update _ _, affected => affected
  | .insert _ _, _ => true
  | .select _, _ | .refused, _ => false

variable {op : RowOp K V} {key : K} {result : op.Result} {s s' : Rows K V}

/-- A statement that takes a row is about one. -/
theorem key_of_takes (taken : op.takes result = true) : ∃ key, op.key = some key := by
  cases op with
  | select key | lock key | update key _ | insert key _ => exact ⟨key, rfl⟩
  | refused => cases taken

variable [DecidableEq K] {valid : V → Prop}

/-- What a statement that succeeds does to the rows it sees. The table refuses some rows. -/
def Effect (valid : V → Prop) : (op : RowOp K V) → Rows K V → op.Result → Rows K V → Prop
  | .select key, s, found, s' | .lock key, s, found, s' => found = s key ∧ s' = s
  | .update key set, s, affected, s' =>
    (∃ row, (s key).bind set = some row ∧ affected = true ∧ valid row ∧
      s' = Function.update s key (some row)) ∨
    (s key).bind set = none ∧ affected = false ∧ s' = s
  | .insert key row, s, _, s' => s key = none ∧ valid row ∧ s' = Function.update s key (some row)
  | .refused, _, _, _ => False

/-- A statement changes no other row. -/
theorem Effect.frame (effect : op.Effect valid s result s') (about : op.key = some key) {other : K}
    (different : other ≠ key) : s' other = s other := by
  cases op with
  | select _ | lock _ =>
    obtain ⟨-, rfl⟩ := effect
    rfl
  | update own set =>
    obtain rfl : own = key := Option.some.inj about
    rcases effect with ⟨row, -, -, -, rfl⟩ | ⟨-, -, rfl⟩
    · rw [Function.update_of_ne different]
    · rfl
  | insert own row =>
    obtain rfl : own = key := Option.some.inj about
    rw [effect.2.2, Function.update_of_ne different]
  | refused => cases about

/-- A statement that takes no row changes none. -/
theorem Effect.unchanged (effect : op.Effect valid s result s') (taken : op.takes result = false) :
    s' = s := by
  cases op with
  | select _ | lock _ => exact effect.2
  | update key set =>
    rcases effect with ⟨row, -, affected, -, -⟩ | ⟨-, -, same⟩
    · have untaken : result = false := taken
      rw [affected] at untaken
      cases untaken
    · exact same
  | insert _ _ => cases taken
  | refused => exact effect.elim

/-- A statement does the same wherever its row is the same. -/
theorem Effect.transfer (effect : op.Effect valid s result s') (about : op.key = some key)
    {t : Rows K V} (same : t key = s key) :
    op.Effect valid t result (Function.update t key (s' key)) := by
  cases op with
  | select own | lock own =>
    obtain rfl : own = key := Option.some.inj about
    obtain ⟨found, rfl⟩ := effect
    refine ⟨found.trans same.symm, ?_⟩
    rw [← same, Function.update_eq_self]
  | update own set =>
    obtain rfl : own = key := Option.some.inj about
    rcases effect with ⟨row, found, affected, allowed, rfl⟩ | ⟨missed, affected, rfl⟩
    · refine .inl ⟨row, by rw [same, found], affected, allowed, ?_⟩
      rw [Function.update_self]
    · refine .inr ⟨by rw [same, missed], affected, ?_⟩
      rw [← same, Function.update_eq_self]
  | insert own row =>
    obtain rfl : own = key := Option.some.inj about
    obtain ⟨absent, allowed, rfl⟩ := effect
    refine ⟨same.trans absent, allowed, ?_⟩
    rw [Function.update_self]
  | refused => cases about

end RowOp

/-- Statements, each of which may fail. -/
abbrev rowCalls (K V E : Type) : Signature := ⟨RowOp K V, fun op => Except E op.Result⟩

/-- The statements of a transaction that commits: none of them has failed. -/
def rowStep [DecidableEq K] (E : Type) (valid : V → Prop) :
    Transition (rowCalls K V E) (Rows K V) :=
  fun op s answer s' => ∃ result, answer = .ok result ∧ op.Effect valid s result s'

/-! ## What sessions run -/

/-- Statements on their own, and transactions. -/
inductive Job (K V E : Type) (α : Type) : Type 1 where
  | done (value : α)
  | alone (op : RowOp K V) (next : Except E op.Result → Job K V E α)
  | inTx {β : Type} (body : Program (rowCalls K V E) (Except E β)) (next : Except E β → Job K V E α)

/-- The requests of a session to the database. -/
inductive SessionOp (K V : Type) where
  | begin
  | commit
  | rollback
  /-- A statement inside the transaction. -/
  | inside (op : RowOp K V)
  /-- A statement outside of a transaction. -/
  | alone (op : RowOp K V)

/-- The answers. -/
def SessionOp.Ans (E : Type) : SessionOp K V → Type
  | .begin | .commit | .rollback => Except E Unit
  | .inside op | .alone op => Except E op.Result

/-- The requests with their answers. -/
abbrev sessionCalls (K V E : Type) : Signature := ⟨SessionOp K V, SessionOp.Ans E⟩

/-- The statements of a transaction. -/
def Program.inside : Program (rowCalls K V E) β → Program (sessionCalls K V E) β
  | .done value => .done value
  | .call op next => .call (.inside op) fun answer => (next answer).inside

/-- The end of a transaction, and what follows it. -/
def Job.finish (next : Except E β → Program (sessionCalls K V E) α) :
    Except E β → Program (sessionCalls K V E) α
  | .error err => .call .rollback fun _ => next (.error err)
  | .ok value => .call .commit fun
    | .error err => next (.error err)
    | .ok () => next (.ok value)

/-- The requests of a job: a transaction is rolled back when its body fails, and committed
otherwise. -/
def Job.session : Job K V E α → Program (sessionCalls K V E) α
  | .done value => .done value
  | .alone op next => .call (.alone op) fun answer => (next answer).session
  | .inTx body next => .call .begin fun
    | .error err => (next (.error err)).session
    | .ok () => body.inside >>= Job.finish fun outcome => (next outcome).session

/-! ## The database -/

/-- An open transaction. -/
structure Tx (K V : Type) where
  /-- The rows when its first statement ran. -/
  view : Option (Rows K V) := none
  /-- The rows it has written. -/
  own : K → Option (Option V) := fun _ => none
  /-- The rows it has locked or written. -/
  held : List K := []
  /-- One of its statements has failed. -/
  failed : Bool := false

/-- Rows under the writes of a transaction. -/
def Tx.over (t : Tx K V) (rows : Rows K V) : Rows K V := fun key => (t.own key).getD (rows key)

/-- The committed rows, and the transaction of each session. -/
structure Database (ι K V : Type) where
  rows : Rows K V
  tx : ι → Option (Tx K V)

namespace Database

variable [DecidableEq ι]

/-- Begin, go on with, or end the transaction of a session. -/
def put (db : Database ι K V) (i : ι) (t : Option (Tx K V)) : Database ι K V :=
  { db with tx := Function.update db.tx i t }

/-- Commit the transaction of a session. -/
def settle (db : Database ι K V) (i : ι) (t : Tx K V) : Database ι K V :=
  { rows := t.over db.rows, tx := Function.update db.tx i none }

/-- No two transactions have taken one row, and each has written only rows it has taken. -/
structure Apart (db : Database ι K V) : Prop where
  apart : ∀ i j t t', i ≠ j → db.tx i = some t → db.tx j = some t' → ∀ key ∈ t.held, key ∉ t'.held
  owned : ∀ i t key, db.tx i = some t → t.own key ≠ none → key ∈ t.held

/-- A move of one session leaves the transactions of the others alone, and what they have taken. -/
structure Spares (db : Database ι K V) (i : ι) (db' : Database ι K V) : Prop where
  tx : ∀ j, j ≠ i → db'.tx j = db.tx j
  rows : ∀ j, j ≠ i → ∀ t, db.tx j = some t → ∀ key ∈ t.held, db'.rows key = db.rows key

variable {db : Database ι K V} {i : ι}

/-- A session goes on with its transaction. -/
theorem Apart.put_some (apart : db.Apart) {t : Tx K V}
    (alone : ∀ key ∈ t.held, ∀ j, j ≠ i → ∀ t', db.tx j = some t' → key ∉ t'.held)
    (owned : ∀ key, t.own key ≠ none → key ∈ t.held) : (db.put i (some t)).Apart := by
  have at_i : (db.put i (some t)).tx i = some t := Function.update_self ..
  have at_other (j : ι) (other : j ≠ i) : (db.put i (some t)).tx j = db.tx j :=
    Function.update_of_ne other ..
  constructor
  · intro j k t₁ t₂ different opened opened' key held held'
    by_cases first : j = i
    · subst first
      obtain rfl : t = t₁ := Option.some.inj (at_i.symm.trans opened)
      rw [at_other k (Ne.symm different)] at opened'
      exact alone key held k (Ne.symm different) t₂ opened' held'
    · rw [at_other j first] at opened
      by_cases second : k = i
      · subst second
        obtain rfl : t = t₂ := Option.some.inj (at_i.symm.trans opened')
        exact alone key held' j first t₁ opened held
      · rw [at_other k second] at opened'
        exact apart.apart j k t₁ t₂ different opened opened' key held held'
  · intro j t' key opened written
    by_cases own : j = i
    · subst own
      obtain rfl : t = t' := Option.some.inj (at_i.symm.trans opened)
      exact owned key written
    · rw [at_other j own] at opened
      exact apart.owned j t' key opened written

/-- A session ends its transaction, and the rows may be others. -/
theorem Apart.put_none (apart : db.Apart) (rows : Rows K V) :
    (⟨rows, Function.update db.tx i none⟩ : Database ι K V).Apart := by
  have earlier (j : ι) (t : Tx K V) (opened : Function.update db.tx i none j = some t) :
      db.tx j = some t := by
    by_cases own : j = i
    · subst own
      rw [Function.update_self] at opened
      cases opened
    · rwa [Function.update_of_ne own] at opened
  constructor
  · intro j k t t' different opened opened'
    exact apart.apart j k t t' different (earlier j t opened) (earlier k t' opened')
  · intro j t key opened
    exact apart.owned j t key (earlier j t opened)

theorem spares_put (db : Database ι K V) (i : ι) (t : Option (Tx K V)) :
    db.Spares i (db.put i t) :=
  ⟨fun _ other => Function.update_of_ne other .., fun _ _ _ _ _ _ => rfl⟩

/-- A commit writes no row that another transaction has taken. -/
theorem Apart.spares_settle (apart : db.Apart) {t : Tx K V} (opened : db.tx i = some t) :
    db.Spares i (db.settle i t) := by
  refine ⟨fun _ other => Function.update_of_ne other .., fun j other t' opened' key held => ?_⟩
  have unwritten : t.own key = none := by
    by_contra written
    have own := apart.owned i t key opened written
    exact apart.apart i j t t' (Ne.symm other) opened opened' key own held
  simp [settle, Tx.over, unwritten]

/-- No other session has locked or written the row of a statement that takes it. -/
def Free (db : Database ι K V) (i : ι) (op : RowOp K V) (result : op.Result) : Prop :=
  op.takes result = true → ∀ key, op.key = some key →
    ∀ j, j ≠ i → ∀ t, db.tx j = some t → key ∉ t.held

end Database

variable [DecidableEq K]

/-- The transaction after a statement that has succeeded. -/
def Tx.after (t : Tx K V) (view : Rows K V) (op : RowOp K V) (result : op.Result)
    (seen : Rows K V) : Tx K V :=
  match op.key with
  | some key =>
    if op.takes result then
      { t with
        view := some view, own := Function.update t.own key (some (seen key)),
        held := key :: t.held }
    else { t with view := some view }
  | none => { t with view := some view }

section After

variable {t : Tx K V} {view seen : Rows K V} {op : RowOp K V} {result : op.Result} {key : K}

/-- After a statement that has taken its row. -/
theorem Tx.after_of_taken (about : op.key = some key) (taken : op.takes result = true) :
    t.after view op result seen = { t with
      view := some view, own := Function.update t.own key (some (seen key)),
      held := key :: t.held } := by
  simp only [Tx.after, about, if_pos taken]

/-- After a statement that has only read. -/
theorem Tx.after_of_read (untaken : op.takes result = false) :
    t.after view op result seen = { t with view := some view } := by
  unfold Tx.after
  split
  · simp [untaken]
  · rfl

/-- The rows as the transaction sees them after a statement. -/
theorem Tx.over_after {valid : V → Prop} (about : op.key = some key)
    (effect : op.Effect valid (t.over view) result seen) :
    (t.after view op result seen).over view = seen := by
  cases taken : op.takes result with
  | true =>
    rw [Tx.after_of_taken about taken]
    funext other
    by_cases own : other = key
    · subst own
      simp [Tx.over]
    · rw [effect.frame about own]
      simp [Tx.over, Function.update_of_ne own]
  | false =>
    rw [Tx.after_of_read taken, effect.unchanged taken]
    rfl

end After

variable [DecidableEq ι]

/-- The meaning of the requests. -/
def sessionStep (E : Type) (valid : V → Prop) (i : ι) :
    Transition (sessionCalls K V E) (Database ι K V)
  | .begin, db, answer, db' =>
    db.tx i = none ∧ match (answer : Except E Unit) with
      | .ok () => db' = db.put i (some {})
      | .error _ => db' = db
  | .inside op, db, answer, db' =>
    ∃ t, db.tx i = some t ∧ match (answer : Except E op.Result) with
      | .ok result =>
        let view := t.view.getD db.rows
        ∃ seen, t.failed = false ∧ op.Effect valid (t.over view) result seen ∧ db.Free i op result ∧
          (op.takes result = true → ∀ key, op.key = some key → db.rows key = view key) ∧
          db' = db.put i (some (t.after view op result seen))
      | .error _ =>
        db' = db.put i (some { t with view := some (t.view.getD db.rows), failed := true })
  | .commit, db, answer, db' =>
    ∃ t, db.tx i = some t ∧ match (answer : Except E Unit) with
      | .ok () => t.failed = false ∧ db' = db.settle i t
      -- the second case is a commit whose answer is lost
      | .error _ => db' = db.put i none ∨ t.failed = false ∧ db' = db.settle i t
  | .rollback, db, _, db' => db' = db.put i none
  | .alone op, db, answer, db' =>
    match (answer : Except E op.Result) with
    | .ok result =>
      ∃ rows, op.Effect valid db.rows result rows ∧ db.Free i op result ∧ db' = { db with rows }
    | .error _ => db' = db ∨ ∃ result rows, op.Effect valid db.rows result rows ∧
        db.Free i op result ∧ db' = { db with rows }

/-! ## Serial schedules -/

/-- The next move of a job: a statement, or a whole transaction. -/
inductive Job.Moves (valid : V → Prop) :
    Job K V E α → Rows K V → Job K V E α → Rows K V → Prop where
  | ran {op : RowOp K V} {next : Except E op.Result → Job K V E α} {result : op.Result}
    {s s' : Rows K V} (effect : op.Effect valid s result s') :
    Moves valid (.alone op next) s (next (.ok result)) s'
  | declined {op : RowOp K V} {next : Except E op.Result → Job K V E α} {err : E} {s : Rows K V} :
    Moves valid (.alone op next) s (next (.error err)) s
  /-- The statement has run, and its answer is lost. -/
  | unanswered {op : RowOp K V} {next : Except E op.Result → Job K V E α} {result : op.Result}
    {err : E} {s s' : Rows K V} (effect : op.Effect valid s result s') :
    Moves valid (.alone op next) s (next (.error err)) s'
  | committed {β : Type} {body : Program (rowCalls K V E) (Except E β)}
    {next : Except E β → Job K V E α} {value : β} {s s' : Rows K V}
    (ran : body.Exec (rowStep E valid) s (.ok value) s') :
    Moves valid (.inTx body next) s (next (.ok value)) s'
  | failed {β : Type} {body : Program (rowCalls K V E) (Except E β)}
    {next : Except E β → Job K V E α} {err : E} {s : Rows K V} :
    Moves valid (.inTx body next) s (next (.error err)) s
  /-- The transaction has committed, and the answer is lost. -/
  | inDoubt {β : Type} {body : Program (rowCalls K V E) (Except E β)}
    {next : Except E β → Job K V E α} {value : β} {err : E} {s s' : Rows K V}
    (ran : body.Exec (rowStep E valid) s (.ok value) s') :
    Moves valid (.inTx body next) s (next (.error err)) s'

/-- The rows, and what each session still has to do. -/
structure Schedule (ι K V E α : Type) where
  rows : Rows K V
  rest : ι → Job K V E α

/-- One session makes a move. -/
inductive Schedule.Step (valid : V → Prop) (i : ι) (now : Schedule ι K V E α) :
    Schedule ι K V E α → Prop where
  | move {job : Job K V E α} {s' : Rows K V} (moves : (now.rest i).Moves valid now.rows job s') :
    Step valid i now ⟨s', Function.update now.rest i job⟩

/-- What a serial schedule reaches by the moves of some sessions, in this order. -/
inductive Schedule.Reaches (valid : V → Prop) (start : Schedule ι K V E α) :
    List ι → Schedule ι K V E α → Prop where
  | refl : Reaches valid start [] start
  | tail {sessions : List ι} {i : ι} {now next : Schedule ι K V E α}
    (before : Reaches valid start sessions now) (last : Schedule.Step valid i now next) :
    Reaches valid start (sessions ++ [i]) next

/-- Every move of a job, to its end, keeps a relation between the rows. -/
def Job.Respects (valid : V → Prop) (keeps : Rows K V → Rows K V → Prop) : Job K V E α → Prop
  | .done _ => True
  | .alone op next => (∀ s result s', op.Effect valid s result s' → keeps s s') ∧
      ∀ answer, (next answer).Respects valid keeps
  | .inTx body next =>
    (∀ s value s', body.Exec (rowStep E valid) s (.ok value) s' → keeps s s') ∧
      ∀ outcome, (next outcome).Respects valid keeps

/-- One move keeps the relation, and so does what is left. -/
theorem Job.Respects.moves {valid : V → Prop} {keeps : Rows K V → Rows K V → Prop}
    (same : ∀ s, keeps s s) {job job' : Job K V E α} {s s' : Rows K V}
    (respects : job.Respects valid keeps) (moves : job.Moves valid s job' s') :
    keeps s s' ∧ job'.Respects valid keeps := by
  cases moves with
  | ran effect => exact ⟨respects.1 _ _ _ effect, respects.2 _⟩
  | declined => exact ⟨same _, respects.2 _⟩
  | unanswered effect => exact ⟨respects.1 _ _ _ effect, respects.2 _⟩
  | committed ran => exact ⟨respects.1 _ _ _ ran, respects.2 _⟩
  | failed => exact ⟨same _, respects.2 _⟩
  | inDoubt ran => exact ⟨respects.1 _ _ _ ran, respects.2 _⟩

/-! ## Transactions that lock what they read -/

/-- With the rows that a transaction has taken, and those that it has only read: if it succeeds, it
has taken all of them in the end. -/
def Confirms : Program (rowCalls K V E) (Except E β) → List K → List K → Prop
  | .done (.ok _), _, loose => loose = []
  | .done (.error _), _, _ => True
  | .call op next, held, loose =>
    match op.key with
    | none => False
    | some key => ∀ result : op.Result,
      if op.takes result then Confirms (next (.ok result)) (key :: held) (loose.filter (· ≠ key))
      else Confirms (next (.ok result)) held (if key ∈ held then loose else key :: loose)

/-- All transactions of a job do this. -/
def Job.Confirming : Job K V E α → Prop
  | .done _ => True
  | .alone _ next => ∀ answer, (next answer).Confirming
  | .inTx body next => Confirms body [] [] ∧ ∀ outcome, (next outcome).Confirming

/-- What is left of a transaction on some rows, the rows as it sees them then, and the keys of the
statements it has run. -/
inductive Touches (valid : V → Prop) (body : Program (rowCalls K V E) β) (view : Rows K V) :
    List K → Program (rowCalls K V E) β → Rows K V → Prop where
  | start : Touches valid body view [] body view
  | call {keys : List K} {op : RowOp K V} {next : Except E op.Result → Program (rowCalls K V E) β}
    {key : K} {result : op.Result} {s s' : Rows K V}
    (before : Touches valid body view keys (.call op next) s) (about : op.key = some key)
    (effect : op.Effect valid s result s') :
    Touches valid body view (key :: keys) (next (.ok result)) s'

namespace Touches

variable {valid : V → Prop} {body rest : Program (rowCalls K V E) β} {view s : Rows K V}
  {keys : List K}

/-- The other rows are as they were. -/
theorem frame (touches : Touches valid body view keys rest s) {key : K} (untouched : key ∉ keys) :
    s key = view key := by
  induction touches with
  | start => rfl
  | call _ about effect ih =>
    obtain ⟨different, before⟩ := List.ne_and_not_mem_of_not_mem_cons untouched
    rw [effect.frame about different, ih before]

/-- The transaction does the same on rows that agree on these keys. -/
theorem transfer (touches : Touches valid body view keys rest s) {rows : Rows K V}
    (same : ∀ key ∈ keys, rows key = view key) :
    Program.Reaches (rowStep E valid) body rows rest fun key =>
      if key ∈ keys then s key else rows key := by
  induction touches with
  | start =>
    have unchanged : (fun key => if key ∈ [] then view key else rows key) = rows := by
      funext key
      simp
    rw [unchanged]
    exact .start
  | @call keys op next key result s s' before about effect ih =>
    have earlier := ih fun other member => same other (List.mem_cons_of_mem _ member)
    have here : (if key ∈ keys then s key else rows key) = s key := by
      split
      · rfl
      · rename_i new
        rw [same key List.mem_cons_self, before.frame new]
    have later : Function.update (fun key => if key ∈ keys then s key else rows key) key (s' key) =
        fun other => if other ∈ key :: keys then s' other else rows other := by
      funext other
      by_cases own : other = key
      · subst own
        simp
      · simp [own, effect.frame about own]
    have ran := effect.transfer about (t := fun key => if key ∈ keys then s key else rows key) here
    rw [later] at ran
    exact earlier.call ⟨result, rfl, ran⟩

end Touches

/-- A transaction without a failed statement, on its way through its body. -/
structure Underway (valid : V → Prop) (rows : Rows K V) (t : Tx K V)
    (body rest : Program (rowCalls K V E) (Except E β)) : Prop where
  /-- It has run some statements on its view, and it takes in the end what it has not taken yet. -/
  trace : ∃ keys loose, Touches valid body (t.view.getD rows) keys rest
    (t.over (t.view.getD rows)) ∧
    Confirms rest t.held loose ∧ (∀ key ∈ keys, key ∈ t.held ∨ key ∈ loose) ∧
    ∀ key, key ∉ keys → t.own key = none
  /-- Before its first statement it has done nothing. -/
  fresh : t.view = none → (∀ key, t.own key = none) ∧ t.held = [] ∧ rest = body
  /-- What it has taken is still committed as in its view. -/
  holds : ∀ key ∈ t.held, rows key = t.view.getD rows key

namespace Underway

variable {valid : V → Prop} {rows rows' : Rows K V} {t : Tx K V}
  {body rest : Program (rowCalls K V E) (Except E β)}

/-- A transaction begins. -/
theorem opened (confirms : Confirms body [] []) : Underway valid rows {} body body where
  trace := ⟨[], [], .start, confirms, fun _ member => absurd member List.not_mem_nil,
    fun _ _ => rfl⟩
  fresh _ := ⟨fun _ => rfl, rfl, rfl⟩
  holds _ member := absurd member List.not_mem_nil

/-- Other rows are committed. -/
theorem elsewhere (underway : Underway valid rows t body rest)
    (same : ∀ key ∈ t.held, rows' key = rows key) : Underway valid rows' t body rest := by
  obtain ⟨keys, loose, touches, confirms, known, unwritten⟩ := underway.trace
  cases begun : t.view with
  | none =>
    obtain ⟨unwritten, untaken, same⟩ := underway.fresh begun
    subst same
    have unchanged : t.over rows' = rows' := by
      funext key
      simp [Tx.over, unwritten key]
    refine ⟨⟨[], loose, ?_, confirms, ?_, fun key _ => unwritten key⟩, underway.fresh, ?_⟩
    · rw [begun, Option.getD_none, unchanged]
      exact .start
    · intro key member
      cases member
    · intro key member
      rw [untaken] at member
      cases member
  | some view =>
    refine ⟨⟨keys, loose, ?_, confirms, known, unwritten⟩, underway.fresh, ?_⟩
    · rw [begun] at touches ⊢
      exact touches
    · intro key member
      have held := underway.holds key member
      rw [begun] at held ⊢
      rw [same key member]
      exact held

/-- A statement succeeds. -/
theorem statement {op : RowOp K V}
    {next : Except E op.Result → Program (rowCalls K V E) (Except E β)}
    {result : op.Result} {seen : Rows K V} (underway : Underway valid rows t body (.call op next))
    (effect : op.Effect valid (t.over (t.view.getD rows)) result seen)
    (current : op.takes result = true → ∀ key, op.key = some key →
      rows key = t.view.getD rows key) :
    Underway valid rows (t.after (t.view.getD rows) op result seen) body (next (.ok result)) := by
  obtain ⟨keys, loose, touches, confirms, known, unwritten⟩ := underway.trace
  unfold Confirms at confirms
  cases about : op.key with
  | none =>
    rw [about] at confirms
    exact confirms.elim
  | some key =>
    rw [about] at confirms
    have confirms := confirms result
    have touched : Touches valid body (t.view.getD rows) (key :: keys) (next (.ok result))
        ((t.after (t.view.getD rows) op result seen).over (t.view.getD rows)) := by
      rw [Tx.over_after about effect]
      exact touches.call about effect
    cases taken : op.takes result with
    | true =>
      rw [if_pos taken] at confirms
      rw [Tx.after_of_taken about taken] at touched ⊢
      refine ⟨⟨key :: keys, _, touched, confirms, ?_, ?_⟩, fun none => (by cases none), ?_⟩
      · intro other member
        by_cases own : other = key
        · exact .inl (own ▸ List.mem_cons_self)
        · rcases known other ((List.mem_cons.mp member).resolve_left own) with held | read
          · exact .inl (List.mem_cons_of_mem _ held)
          · exact .inr (List.mem_filter.mpr ⟨read, decide_eq_true own⟩)
      · intro other untouched
        obtain ⟨different, before⟩ := List.ne_and_not_mem_of_not_mem_cons untouched
        exact (Function.update_of_ne different _ _).trans (unwritten other before)
      · intro other member
        rcases List.mem_cons.mp member with rfl | member
        · exact current taken other about
        · exact underway.holds other member
    | false =>
      rw [if_neg (by rw [taken]; decide)] at confirms
      rw [Tx.after_of_read taken] at touched ⊢
      refine ⟨⟨key :: keys, _, touched, confirms, ?_, ?_⟩, fun none => (by cases none),
        underway.holds⟩
      · intro other member
        by_cases held : other ∈ t.held
        · exact .inl held
        refine .inr ?_
        rcases List.mem_cons.mp member with rfl | member
        · rw [if_neg held]
          exact List.mem_cons_self
        · have read := (known other member).resolve_left held
          split
          · exact read
          · exact List.mem_cons_of_mem _ read
      · intro other untouched
        exact unwritten other (List.not_mem_of_not_mem_cons untouched)

/-- A transaction that succeeds has run on the rows as they are committed when it ends. -/
theorem commit {value : β} (underway : Underway valid rows t body (.done (.ok value))) :
    body.Exec (rowStep E valid) rows (.ok value) (t.over rows) := by
  obtain ⟨keys, loose, touches, confirms, known, unwritten⟩ := underway.trace
  have none : loose = [] := confirms
  have same : ∀ key ∈ keys, rows key = t.view.getD rows key := by
    intro key member
    rcases known key member with held | read
    · exact underway.holds key held
    · rw [none] at read
      cases read
  have settled : (fun key => if key ∈ keys then t.over (t.view.getD rows) key else rows key) =
      t.over rows := by
    funext key
    split
    · rename_i member
      unfold Tx.over
      rw [same key member]
    · rename_i untouched
      simp [Tx.over, unwritten key untouched]
  have reaches := touches.transfer same
  rw [settled] at reaches
  exact reaches.exec ⟨rfl, rfl⟩

end Underway

/-! ## Interleavings are serial -/

/-- What a session still has to do, next to the job of a serial schedule. -/
inductive Paired (valid : V → Prop) (db : Database ι K V) (i : ι) :
    Program (sessionCalls K V E) α → Job K V E α → Prop where
  | outside {job : Job K V E α} (idle : db.tx i = none) (confirming : job.Confirming) :
    Paired valid db i job.session job
  | inside {β : Type} {t : Tx K V} {body rest : Program (rowCalls K V E) (Except E β)}
    {next : Except E β → Job K V E α} (opened : db.tx i = some t)
    (underway : t.failed = false → Underway valid db.rows t body rest)
    (confirming : ∀ outcome, (next outcome).Confirming) :
    Paired valid db i (rest.inside >>= Job.finish fun outcome => (next outcome).session)
      (.inTx body next)

section Moves

variable {valid : V → Prop} {db db' : Database ι K V} {i : ι}

omit [DecidableEq ι] in
/-- The other sessions are where they were. -/
theorem Paired.spared {j : ι} {program : Program (sessionCalls K V E) α} {job : Job K V E α}
    (paired : Paired valid db j program job) (spares : db.Spares i db') (other : j ≠ i) :
    Paired valid db' j program job := by
  cases paired with
  | outside idle confirming => exact .outside ((spares.tx j other).trans idle) confirming
  | inside opened underway confirming =>
    exact .inside ((spares.tx j other).trans opened)
      (fun fine => (underway fine).elsewhere (spares.rows j other _ opened)) confirming

omit [DecidableEq ι] in
/-- Nor does a statement on its own. -/
theorem Database.Free.spares {op : RowOp K V} {result : op.Result} {rows : Rows K V}
    (free : db.Free i op result) (effect : op.Effect valid db.rows result rows) :
    db.Spares i { db with rows } := by
  refine ⟨fun _ _ => rfl, fun j other t opened key held => ?_⟩
  cases taken : op.takes result with
  | false =>
    show rows key = _
    rw [effect.unchanged taken]
  | true =>
    cases about : op.key with
    | none =>
      obtain ⟨key, some⟩ := RowOp.key_of_takes taken
      rw [about] at some
      cases some
    | some own =>
      have different : key ≠ own := by
        intro same
        exact free taken own about j other t opened (same ▸ held)
      exact effect.frame about different

end Moves

/-- The sessions next to a serial schedule that has reached the same rows. -/
structure Matched (valid : V → Prop) (crew : Crew (sessionCalls K V E) (Database ι K V) ι α)
    (serial : Schedule ι K V E α) : Prop where
  rows : serial.rows = crew.state.rows
  apart : crew.state.Apart
  paired : ∀ i, Paired valid crew.state i (crew.rest i) (serial.rest i)

/-- After a request of a session, the serial schedule has waited or made a move of that session. -/
def KeepsUp (valid : V → Prop) (i : ι) (serial : Schedule ι K V E α)
    (crew : Crew (sessionCalls K V E) (Database ι K V) ι α) : Prop :=
  ∃ serial', (serial' = serial ∨ Schedule.Step valid i serial serial') ∧ Matched valid crew serial'

namespace Matched

variable {valid : V → Prop} {crew : Crew (sessionCalls K V E) (Database ι K V) ι α}
  {serial : Schedule ι K V E α} {i : ι} {move : Move (sessionCalls K V E) (Database ι K V)}
  {rest : Program (sessionCalls K V E) α}

/-- The sessions after a move of one of them. -/
theorem update (matched : Matched valid crew serial) (spares : crew.state.Spares i move.after)
    (apart : move.after.Apart) {job : Job K V E α} (paired : Paired valid move.after i rest job) :
    Matched valid (crew.advance i move rest)
      ⟨move.after.rows, Function.update serial.rest i job⟩ := by
  refine ⟨rfl, apart, fun j => ?_⟩
  by_cases own : j = i
  · subst own
    rw [Crew.advance_rest_self]
    dsimp only
    rw [Function.update_self]
    exact paired
  · rw [Crew.advance_rest_of_ne crew move rest own]
    dsimp only
    rw [Function.update_of_ne own]
    exact (matched.paired j).spared spares own

/-- A session has moved, and the serial schedule with it. -/
theorem go_on (matched : Matched valid crew serial) (job : Job K V E α)
    (moves : (serial.rest i).Moves valid crew.state.rows job move.after.rows)
    (spares : crew.state.Spares i move.after) (apart : move.after.Apart)
    (paired : Paired valid move.after i rest job) :
    KeepsUp valid i serial (crew.advance i move rest) := by
  rw [← matched.rows] at moves
  exact ⟨_, .inr (.move moves), matched.update spares apart paired⟩

/-- A session has moved inside of its transaction. -/
theorem stay (matched : Matched valid crew serial) (spares : crew.state.Spares i move.after)
    (apart : move.after.Apart) (rows : move.after.rows = crew.state.rows)
    (paired : Paired valid move.after i rest (serial.rest i)) :
    Matched valid (crew.advance i move rest) serial := by
  have moved := matched.update spares apart paired
  rwa [Function.update_eq_self, rows, ← matched.rows] at moved

/-- The transaction of a session goes on. -/
theorem within (matched : Matched valid crew serial) {β : Type} {t : Tx K V}
    {body program : Program (rowCalls K V E) (Except E β)} {next : Except E β → Job K V E α}
    (job : serial.rest i = .inTx body next) (confirming : ∀ outcome, (next outcome).Confirming)
    (after : move.after = crew.state.put i (some t))
    (alone : ∀ key ∈ t.held, ∀ j, j ≠ i → ∀ t', crew.state.tx j = some t' → key ∉ t'.held)
    (owned : ∀ key, t.own key ≠ none → key ∈ t.held)
    (underway : t.failed = false → Underway valid crew.state.rows t body program) :
    Matched valid (crew.advance i move
      (program.inside >>= Job.finish fun outcome => (next outcome).session)) serial := by
  refine matched.stay ?_ ?_ ?_ ?_
  · rw [after]
    exact crew.state.spares_put i _
  · rw [after]
    exact matched.apart.put_some alone owned
  · rw [after]
    rfl
  · rw [after, job]
    exact .inside (Function.update_self ..) underway confirming

/-- The transaction of a session has ended without an effect. -/
theorem dropped (matched : Matched valid crew serial) {β : Type}
    {body : Program (rowCalls K V E) (Except E β)} {next : Except E β → Job K V E α} {err : E}
    (job : serial.rest i = .inTx body next) (confirming : ∀ outcome, (next outcome).Confirming)
    (after : move.after = crew.state.put i none) :
    KeepsUp valid i serial (crew.advance i move (next (.error err)).session) := by
  refine matched.go_on (next (.error err)) ?_ ?_ ?_ ?_
  · rw [job, after]
    exact .failed
  · rw [after]
    exact crew.state.spares_put i _
  · rw [after]
    exact matched.apart.put_none _
  · rw [after]
    exact .outside (Function.update_self ..) (confirming _)

/-- The transaction of a session has been committed. -/
theorem settled (matched : Matched valid crew serial) {β : Type} {t : Tx K V}
    {next : Except E β → Job K V E α} {outcome : Except E β} (opened : crew.state.tx i = some t)
    (moves : (serial.rest i).Moves valid crew.state.rows (next outcome) (t.over crew.state.rows))
    (confirming : ∀ outcome, (next outcome).Confirming)
    (after : move.after = crew.state.settle i t) :
    KeepsUp valid i serial (crew.advance i move (next outcome).session) := by
  refine matched.go_on (next outcome) ?_ ?_ ?_ ?_
  · rw [after]
    exact moves
  · rw [after]
    exact matched.apart.spares_settle opened
  · rw [after]
    exact matched.apart.put_none _
  · rw [after]
    exact .outside (Function.update_self ..) (confirming _)

/-- A statement on its own. -/
theorem statement (matched : Matched valid crew serial) {op : RowOp K V}
    {next : Except E op.Result → Job K V E α} {answer : Except E op.Result}
    (job : serial.rest i = .alone op next) (idle : crew.state.tx i = none)
    (confirming : ∀ answer, (next answer).Confirming)
    (moved : sessionStep E valid i (.alone op) crew.state answer move.after) :
    KeepsUp valid i serial (crew.advance i move (next answer).session) := by
  have ran {result : op.Result} {rows : Rows K V}
      (effect : op.Effect valid crew.state.rows result rows) (free : crew.state.Free i op result)
      (after : move.after = { crew.state with rows })
      (moves : Job.Moves valid (.alone op next) crew.state.rows (next answer) rows) :
      KeepsUp valid i serial (crew.advance i move (next answer).session) := by
    refine matched.go_on (next answer) ?_ ?_ ?_ ?_
    · rw [job, after]
      exact moves
    · rw [after]
      exact free.spares effect
    · rw [after]
      exact ⟨matched.apart.apart, matched.apart.owned⟩
    · rw [after]
      exact .outside idle (confirming _)
  cases answer with
  | ok result =>
    obtain ⟨rows, effect, free, after⟩ := moved
    exact ran effect free after (.ran effect)
  | error err =>
    rcases moved with same | ⟨result, rows, effect, free, after⟩
    · refine matched.go_on (next (.error err)) ?_ ?_ ?_ ?_
      · rw [job, same]
        exact .declined
      · rw [same]
        exact ⟨fun _ _ => rfl, fun _ _ _ _ _ _ => rfl⟩
      · rw [same]
        exact matched.apart
      · rw [same]
        exact .outside idle (confirming _)
    · exact ran effect free after (.unanswered effect)

/-- A statement inside of a transaction. -/
theorem inner (matched : Matched valid crew serial) {β : Type} {t : Tx K V} {op : RowOp K V}
    {body : Program (rowCalls K V E) (Except E β)} {next : Except E β → Job K V E α}
    {program : Except E op.Result → Program (rowCalls K V E) (Except E β)}
    {answer : Except E op.Result} (job : serial.rest i = .inTx body next)
    (opened : crew.state.tx i = some t)
    (underway : t.failed = false → Underway valid crew.state.rows t body (.call op program))
    (confirming : ∀ outcome, (next outcome).Confirming)
    (moved : sessionStep E valid i (.inside op) crew.state answer move.after) :
    Matched valid (crew.advance i move
      ((program answer).inside >>= Job.finish fun outcome => (next outcome).session)) serial := by
  obtain ⟨t', opened', moved⟩ := moved
  obtain rfl : t = t' := Option.some.inj (opened.symm.trans opened')
  have alone : ∀ key ∈ t.held, ∀ j, j ≠ i → ∀ t', crew.state.tx j = some t' → key ∉ t'.held :=
    fun key held j other t' open' => matched.apart.apart i j t t' (Ne.symm other) opened
      open' key held
  have owned : ∀ key, t.own key ≠ none → key ∈ t.held :=
    fun key written => matched.apart.owned i t key opened written
  cases answer with
  | error err =>
    refine matched.within job confirming moved alone owned fun fine => ?_
    cases fine
  | ok result =>
    obtain ⟨seen, fine, effect, free, current, after⟩ := moved
    have later := (underway fine).statement effect current
    cases taken : op.takes result with
    | false =>
      rw [Tx.after_of_read taken] at after later
      exact matched.within job confirming after alone owned fun _ => later
    | true =>
      obtain ⟨key, about⟩ := RowOp.key_of_takes taken
      rw [Tx.after_of_taken about taken] at after later
      refine matched.within job confirming after ?_ ?_ fun _ => later
      · intro other member j different t' open'
        rcases List.mem_cons.mp member with rfl | member
        · exact free taken other about j different t' open'
        · exact alone other member j different t' open'
      · intro other written
        by_cases own : other = key
        · exact own ▸ List.mem_cons_self
        · dsimp only at written
          rw [Function.update_of_ne own] at written
          exact List.mem_cons_of_mem _ (owned other written)

/-- A session makes its next request. -/
theorem request (matched : Matched valid crew serial) {op : SessionOp K V}
    {next : (sessionCalls K V E).Ans op → Program (sessionCalls K V E) α}
    {answer : (sessionCalls K V E).Ans op} {db' : Database ι K V}
    (waiting : crew.rest i = .call op next)
    (moved : sessionStep E valid i op crew.state answer db') :
    KeepsUp valid i serial (crew.advance i ⟨op, crew.state, answer, db'⟩ (next answer)) := by
  have paired := matched.paired i
  rw [waiting] at paired
  generalize same : Program.call (S := sessionCalls K V E) op next = program at paired
  generalize job : serial.rest i = here at paired
  cases paired with
  | @outside here idle confirming =>
    cases here with
    | done value => cases same
    | alone op next =>
      cases same
      exact matched.statement job idle confirming moved
    | inTx body rest =>
      rw [Job.session] at same
      cases same
      obtain ⟨-, moved⟩ := moved
      cases answer with
      | error err =>
        refine matched.go_on (rest (.error err)) ?_ ?_ ?_ ?_
        · rw [job]
          subst moved
          exact .failed
        · subst moved
          exact ⟨fun _ _ => rfl, fun _ _ _ _ _ _ => rfl⟩
        · subst moved
          exact matched.apart
        · subst moved
          exact .outside idle (confirming.2 _)
      | ok _ =>
        refine ⟨serial, .inl rfl, matched.within job confirming.2 moved ?_ ?_ fun _ =>
          .opened confirming.1⟩
        · intro key held
          cases held
        · intro key written
          exact absurd rfl written
  | @inside β t body program rest opened underway confirming =>
    cases program with
    | call op program =>
      cases same
      exact ⟨serial, .inl rfl, matched.inner job opened underway confirming moved⟩
    | done outcome =>
      cases outcome with
      | error err =>
        cases same
        exact matched.dropped job confirming moved
      | ok value =>
        cases same
        obtain ⟨t', opened', moved⟩ := moved
        obtain rfl : t = t' := Option.some.inj (opened.symm.trans opened')
        cases answer with
        | ok _ =>
          obtain ⟨fine, after⟩ := moved
          refine matched.settled opened ?_ confirming after
          rw [job]
          exact .committed (underway fine).commit
        | error err =>
          rcases moved with after | ⟨fine, after⟩
          · exact matched.dropped job confirming after
          · refine matched.settled opened ?_ confirming after
            rw [job]
            exact .inDoubt (underway fine).commit

end Matched

/-- Every interleaving of sessions that lock what they read reaches the rows that a serial schedule
reaches, and a session that has returned has returned the same value there. The moves of the serial
schedule are made at requests of the same sessions, so sessions that do not overlap keep their
order. -/
theorem Schedule.of_sessions {valid : V → Prop} {jobs : ι → Job K V E α}
    (confirming : ∀ i, (jobs i).Confirming) {rows : Rows K V}
    {crew : Crew (sessionCalls K V E) (Database ι K V) ι α}
    (reachable : Crew.Reachable (sessionStep E valid) (fun _ _ _ => True)
      (.start (fun i => (jobs i).session) ⟨rows, fun _ => none⟩) crew) :
    ∃ sessions serial, Schedule.Reaches valid ⟨rows, jobs⟩ sessions serial ∧
      sessions.Sublist crew.turns ∧ serial.rows = crew.state.rows ∧
      ∀ i value, crew.Returned i value → serial.rest i = .done value := by
  have matched : ∃ sessions serial, Schedule.Reaches valid ⟨rows, jobs⟩ sessions serial ∧
      sessions.Sublist crew.turns ∧ Matched valid crew serial := by
    induction reachable with
    | refl =>
      refine ⟨[], _, .refl, List.nil_sublist _, rfl, ⟨?_, ?_⟩, fun i => .outside rfl (confirming i)⟩
      · intro i j t t' _ opened
        cases opened
      · intro i t key opened
        cases opened
    | tail _ last ih =>
      obtain ⟨sessions, serial, before, turns, matched⟩ := ih
      obtain ⟨waiting, moved, -⟩ := last
      obtain ⟨serial', rfl | stepped, later⟩ := matched.request waiting moved
      · refine ⟨sessions, serial', before, ?_, later⟩
        rw [Crew.advance_turns]
        exact turns.trans (List.sublist_append_left ..)
      · refine ⟨_, serial', before.tail stepped, ?_, later⟩
        rw [Crew.advance_turns]
        exact turns.append (List.Sublist.refl _)
  obtain ⟨sessions, serial, reached, turns, matched⟩ := matched
  refine ⟨sessions, serial, reached, turns, matched.rows, fun i value returned => ?_⟩
  have paired := matched.paired i
  rw [show crew.rest i = .done value from returned] at paired
  generalize same : Program.done value = program at paired
  generalize serial.rest i = job at paired
  cases paired with
  | outside idle _ =>
    cases job with
    | done _ =>
      cases same
      rfl
    | alone _ _ => cases same
    | inTx body next => simp [Job.session] at same
  | @inside β t body rest next opened underway _ =>
    cases rest with
    | call _ _ => cases same
    | done outcome => cases outcome <;> cases same

/-! ## Computed schedules -/

section Computed

variable (valid : V → Prop) [DecidablePred valid]

/-- Run a statement on rows, if it succeeds. -/
def RowOp.perform : (op : RowOp K V) → Rows K V → Option (op.Result × Rows K V)
  | .select key, s | .lock key, s => some (s key, s)
  | .update key set, s =>
    match (s key).bind set with
    | some row => if valid row then some (true, Function.update s key (some row)) else none
    | none => some (false, s)
  | .insert key row, s =>
    if s key = none ∧ valid row then some ((), Function.update s key (some row)) else none
  | .refused, _ => none

omit [DecidableEq ι] in
/-- What a statement computes is its effect. -/
theorem RowOp.effect_of_perform {op : RowOp K V} {s s' : Rows K V} {result : op.Result}
    (performed : op.perform valid s = some (result, s')) : op.Effect valid s result s' := by
  cases op with
  | select key | lock key =>
    obtain ⟨rfl, rfl⟩ := Prod.mk.inj (Option.some.inj performed)
    exact ⟨rfl, rfl⟩
  | update key set =>
    cases found : (s key).bind set with
    | some row =>
      simp only [RowOp.perform, found, Option.ite_none_right_eq_some, Option.some.injEq,
        Prod.mk.injEq] at performed
      obtain ⟨allowed, rfl, rfl⟩ := performed
      exact .inl ⟨row, found, rfl, allowed, rfl⟩
    | none =>
      simp only [RowOp.perform, found, Option.some.injEq, Prod.mk.injEq] at performed
      obtain ⟨rfl, rfl⟩ := performed
      exact .inr ⟨found, rfl, rfl⟩
  | insert key row =>
    simp only [RowOp.perform, Option.ite_none_right_eq_some, Option.some.injEq,
      Prod.mk.injEq] at performed
    obtain ⟨⟨absent, allowed⟩, -, rfl⟩ := performed
    exact ⟨absent, allowed, rfl⟩
  | refused => cases performed

variable [DecidableEq V] [Fintype ι]

instance (db : Database ι K V) (i : ι) (op : RowOp K V) (result : op.Result) :
    Decidable (db.Free i op result) :=
  inferInstanceAs (Decidable (op.takes result = true → ∀ key ∈ op.key, ∀ j, j ≠ i →
    ∀ t ∈ db.tx j, key ∉ t.held))

/-- Answer a request: a statement fails when it would have to wait, or when its row has been
committed anew. -/
def sessionHandle (err : E) (i : ι) :
    (op : SessionOp K V) → Database ι K V → op.Ans E × Database ι K V
  | .begin, db => (.ok (), db.put i (some {}))
  | .inside op, db =>
    let t := (db.tx i).getD {}
    let view := t.view.getD db.rows
    match op.perform valid (t.over view) with
    | some (result, seen) =>
      if t.failed = false ∧ db.Free i op result ∧
          (op.takes result = true → ∀ key ∈ op.key, db.rows key = view key) then
        (.ok result, db.put i (some (t.after view op result seen)))
      else (.error err, db.put i (some { t with view := some view, failed := true }))
    | none => (.error err, db.put i (some { t with view := some view, failed := true }))
  | .commit, db =>
    let t := (db.tx i).getD {}
    if t.failed then (.error err, db.put i none) else (.ok (), db.settle i t)
  | .rollback, db => (.ok (), db.put i none)
  | .alone op, db =>
    match op.perform valid db.rows with
    | some (result, rows) =>
      if db.Free i op result then (.ok result, { db with rows }) else (.error err, db)
    | none => (.error err, db)

/-- The request fits the session: a transaction is begun outside of one, and continued inside. -/
def SessionReady (_ : Crew (sessionCalls K V E) (Database ι K V) ι α) (i : ι)
    (move : Move (sessionCalls K V E) (Database ι K V)) : Prop :=
  match move.op with
  | .begin => (move.before.tx i).isNone = true
  | .inside _ | .commit => (move.before.tx i).isSome = true
  | .rollback | .alone _ => True

instance (crew : Crew (sessionCalls K V E) (Database ι K V) ι α) (i : ι)
    (move : Move (sessionCalls K V E) (Database ι K V)) : Decidable (SessionReady crew i move) := by
  unfold SessionReady
  split <;> infer_instance

/-- The answers to requests that fit are answers of the database. -/
theorem sessionHandle_follows (err : E) (i : ι) (op : SessionOp K V) (db : Database ι K V)
    (crew : Crew (sessionCalls K V E) (Database ι K V) ι α) (answer : op.Ans E)
    (db' : Database ι K V) (ready : SessionReady crew i ⟨op, db, answer, db'⟩) :
    sessionStep E valid i op db (sessionHandle valid err i op db).1
      (sessionHandle valid err i op db).2 := by
  have opened (there : (db.tx i).isSome = true) : db.tx i = some ((db.tx i).getD {}) := by
    obtain ⟨t, here⟩ := Option.isSome_iff_exists.mp there
    rw [here, Option.getD_some]
  cases op with
  | begin => exact ⟨Option.isNone_iff_eq_none.mp ready, rfl⟩
  | rollback => rfl
  | commit =>
    refine ⟨_, opened ready, ?_⟩
    cases failed : ((db.tx i).getD {}).failed with
    | true =>
      simp only [sessionHandle, failed]
      exact .inl rfl
    | false =>
      simp only [sessionHandle, failed]
      exact ⟨trivial, rfl⟩
  | inside op =>
    refine ⟨_, opened ready, ?_⟩
    cases performed : op.perform valid
      (((db.tx i).getD {}).over (((db.tx i).getD {}).view.getD db.rows)) with
    | none => simp only [sessionHandle, performed]
    | some pair =>
      obtain ⟨result, seen⟩ := pair
      by_cases may : ((db.tx i).getD {}).failed = false ∧ db.Free i op result ∧
          (op.takes result = true → ∀ key ∈ op.key,
            db.rows key = ((db.tx i).getD {}).view.getD db.rows key)
      · simp only [sessionHandle, performed, if_pos may]
        obtain ⟨fine, free, current⟩ := may
        exact ⟨seen, fine, RowOp.effect_of_perform valid performed, free, current, rfl⟩
      · simp only [sessionHandle, performed, if_neg may]
  | alone op =>
    cases performed : op.perform valid db.rows with
    | none =>
      simp only [sessionHandle, sessionStep, performed]
      exact .inl trivial
    | some pair =>
      obtain ⟨result, rows⟩ := pair
      by_cases free : db.Free i op result
      · simp only [sessionHandle, sessionStep, performed, if_pos free]
        exact ⟨rows, RowOp.effect_of_perform valid performed, free, rfl⟩
      · simp only [sessionHandle, sessionStep, performed, if_neg free]
        exact .inl trivial

/-- The turns of some sessions. -/
def sessionTurns (err : E) (turns : List ι) :
    List (Crew.Turn (sessionCalls K V E) (Database ι K V) ι) :=
  turns.map fun i => (i, sessionHandle valid err i)

/-- Turns with requests that fit are a schedule. -/
theorem reachable_sessionTurns {crew : Crew (sessionCalls K V E) (Database ι K V) ι α} {err : E}
    {turns : List ι} (ready : crew.AdmitsAll SessionReady (sessionTurns valid err turns)) :
    Crew.Reachable (sessionStep E valid) (fun _ _ _ => True) crew
      (crew.play (sessionTurns valid err turns)) := by
  have reached : Crew.Reachable (sessionStep E valid) SessionReady crew
      (crew.play (sessionTurns valid err turns)) := by
    refine Crew.reachable_play_admitted (fun next member crew op admitted => ?_) ready
    obtain ⟨i, -, rfl⟩ := List.mem_map.mp member
    exact sessionHandle_follows valid err i op crew.state crew _ _ admitted
  refine Relation.ReflTransGen.mono (fun before after stepped => ?_) _ _ reached
  obtain ⟨waiting, moved, -⟩ := stepped
  exact .call waiting moved trivial

end Computed

end Interaction
