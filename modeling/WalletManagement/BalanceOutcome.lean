import WalletManagement.Balance
import WalletManagement.MemStoreRows

/-!
# What one operation of the balance service does

The operations run alone, from their first call to their return, over a store that may fail some
of its calls. An inversion theorem for each says which store it can leave behind, which rows it
passed to `UpsertBalance`, and with which result. A store that fails nothing is the special case
of the in-memory store.
-/

namespace WalletManagement

open Interaction Data

/-! ## Following a program -/

section Follow

variable {L α : Type}

/-- The row that a call passes to `UpsertBalance`. -/
def Entry.upserted (entry : Entry L) : Option Balance :=
  match entry.op with
  | .store (.upsertBalance row) => some row
  | _ => none

/-- The rows passed to `UpsertBalance` so far, the last one first. -/
def World.upserts (w : World L) : List Balance := w.log.filterMap Entry.upserted

/-- The calls of collaborators that the balance service makes. -/
def Op.passive : Op → Bool
  | .newV7 | .emit _ | .onConfirmedDecrease _ _ => true
  | _ => false

/-- A call of a collaborator leaves the world as it is, and the store cannot fail it. -/
theorem Op.passive_effect {op : Op} (passive : op.passive = true) {answer : op.Ans}
    {w w' : World L} : (op.Effect w answer w' → w' = w) ∧ ¬op.Fails w answer w' := by
  cases op <;> first | exact ⟨fun h => h, fun h => h⟩ | cases passive

/-- A call of a collaborator is no `UpsertBalance`. -/
theorem Op.passive_upserted {op : Op} (passive : op.passive = true) (caller : L) (answer : op.Ans) :
    Entry.upserted ⟨caller, op, answer⟩ = none := by
  cases op <;> first | rfl | cases passive

/-- Where a program stands that started in `base`: the store, the rows it has passed to
`UpsertBalance`, and the store at the start of its transaction, if it is in one. -/
structure Stands (base : World L) (rows : List Balance) (s : Store) (opened : Option Store)
    (w : World L) : Prop where
  store : w.store = s
  upserts : w.upserts = rows ++ base.upserts
  depth : w.depth = if opened.isSome then 1 else 0
  snapshot : opened.isSome → w.snapshot = opened

namespace Stands

variable {mayFail : Op → Prop} {base w : World L} {rows : List Balance} {s : Store}
  {opened : Option Store} {caller : L} {post : α → World L → Prop}

/-- One more call in the log that is no `UpsertBalance`, and a new store. -/
theorem record (here : Stands base rows s opened w) (op : Op) (answer : op.Ans) (store : Store)
    (other : Entry.upserted ⟨caller, op, answer⟩ = none) :
    Stands base rows store opened { w.record caller op answer with store } := by
  refine ⟨rfl, ?_, here.depth, here.snapshot⟩
  have same : World.upserts { w.record caller op answer with store } = w.upserts :=
    List.filterMap_cons_none other
  rw [same, here.upserts]

/-- Follow a call of a collaborator. -/
theorem ask_bind (here : Stands base rows s opened w) {op : Op} {next : op.Ans → Prog α}
    (passive : op.passive = true) (rest : ∀ answer w₁, Stands base rows s opened w₁ →
      (next answer).Wlp (faulty mayFail caller) post w₁) :
    (perform op >>= next).Wlp (faulty mayFail caller) post w := by
  intro answer w₁ moved
  rcases moved with moved | ⟨-, failed⟩
  · rw [(Op.passive_effect passive).1 moved]
    have next := here.record op answer w.store (Op.passive_upserted passive caller answer)
    exact rest answer _ ⟨here.store, next.upserts, next.depth, next.snapshot⟩
  · exact absurd failed (Op.passive_effect passive).2

/-- Follow a call of a collaborator that may be nil. -/
theorem ask_if (here : Stands base rows s opened w) (condition : Bool) {op : Op}
    (passive : op.passive = true) :
    (runIf condition (perform op)).Wlp (faulty mayFail caller)
      (fun _ w₁ => Stands base rows s opened w₁) w := by
  cases condition with
  | false => exact here
  | true => exact here.ask_bind passive fun _ _ here => here

/-- Follow a call of the store that is no `UpsertBalance`. -/
theorem store_bind (here : Stands base rows s opened w) {op : StoreOp}
    {next : Except Err op.Result → Prog α}
    (other : ∀ answer, Entry.upserted (L := L) ⟨caller, .store op, answer⟩ = none)
    (done : ∀ now w₁, Stands base rows (op.exec now s).2 opened w₁ →
      (next (op.exec now s).1).Wlp (faulty mayFail caller) post w₁)
    (failed : ∀ err w₁, mayFail (.store op) → err.sentinel = none →
      Stands base rows s opened w₁ → (next (.error err)).Wlp (faulty mayFail caller) post w₁) :
    (perform (.store op) >>= next).Wlp (faulty mayFail caller) post w := by
  intro answer w₁ moved
  rcases moved with moved | ⟨may, ⟨err, rfl, plain⟩, rfl⟩
  · obtain ⟨_, rfl, rfl⟩ := step_store.mp moved
    rw [here.store]
    exact done _ _ (here.record _ _ _ (other _))
  · refine failed err _ may plain ?_
    have next := here.record (.store op) (.error err) w.store (other (.error err))
    exact ⟨here.store, next.upserts, next.depth, next.snapshot⟩

/-- Follow an `UpsertBalance`. The row counts as passed whether the call fails or not. -/
theorem upsert_bind (here : Stands base rows s opened w) {row : Balance}
    {next : Except Err Unit → Prog α}
    (done : ∀ w₁, Stands base (row :: rows) (s.upsertBalance row) opened w₁ →
      (next (.ok ())).Wlp (faulty mayFail caller) post w₁)
    (failed : ∀ err w₁, mayFail (.store (.upsertBalance row)) →
      Stands base (row :: rows) s opened w₁ →
      (next (.error err)).Wlp (faulty mayFail caller) post w₁) :
    (perform (.store (.upsertBalance row)) >>= next).Wlp (faulty mayFail caller) post w := by
  have passed (answer : Except Err Unit) :
      (w.record caller (.store (.upsertBalance row)) answer).upserts =
        (row :: rows) ++ base.upserts := by
    have first : (w.record caller (.store (.upsertBalance row)) answer).upserts =
        row :: w.upserts := List.filterMap_cons_some rfl
    rw [first, here.upserts, List.cons_append]
  intro answer w₁ moved
  rcases moved with moved | ⟨may, ⟨err, rfl, -⟩, rfl⟩
  · obtain ⟨_, rfl, rfl⟩ := step_store.mp moved
    refine done _ ⟨?_, passed _, here.depth, here.snapshot⟩
    rw [← here.store]
    rfl
  · exact failed err _ may ⟨here.store, passed _, here.depth, here.snapshot⟩

end Stands

/-- How a transaction ends, from how its function ends: without an error as the function left the
store; with an error as the transaction found it. -/
def TxEnds {α : Type} (mayFail : Op → Prop) (rows : List Balance) (s : Store)
    (ends : Except Err α → List Balance → Store → Prop) (result : Except Err α)
    (rows' : List Balance) (s' : Store) : Prop :=
  match result with
  | .ok value => ends (.ok value) rows' s'
  | .error err => s' = s ∧ ((mayFail .begin ∧ rows' = rows) ∨ (∃ s₁, ends (.error err) rows' s₁) ∨
      (mayFail .commit ∧ ∃ value s₁, ends (.ok value) rows' s₁))

/-- A transaction runs its function from the store it finds. -/
theorem Stands.inTx {mayFail : Op → Prop} {base w : World L} {rows : List Balance} {s : Store}
    {caller : L} (here : Stands base rows s none w) {fn : Prog (Except Err α)}
    {ends : Except Err α → List Balance → Store → Prop}
    (function : ∀ w₁, Stands base rows s (some s) w₁ →
      fn.Wlp (faulty mayFail caller) (fun result w₂ => ∃ rows' s',
        ends result rows' s' ∧ Stands base rows' s' (some s) w₂) w₁) :
    (WalletManagement.inTx fn).Wlp (faulty mayFail caller) (fun result w₂ => ∃ rows' s',
      TxEnds mayFail rows s ends result rows' s' ∧ Stands base rows' s' none w₂) w := by
  have depth : w.depth = 0 := here.depth
  intro answer w₁ moved
  rcases moved with ⟨rfl, rfl⟩ | ⟨may, ⟨err, rfl⟩, rfl⟩
  · have opened : Stands base rows s (some s) (w.record caller .begin (.ok ())).beginTx := by
      refine ⟨here.store, here.upserts, ?_, fun _ => ?_⟩
      · show w.depth + 1 = 1
        omega
      · show (if w.depth = 0 then some w.store else w.snapshot) = some s
        rw [if_pos depth, here.store]
    refine (function _ opened).bind fun result w₂ ⟨rows', s', ended, there⟩ => ?_
    have inside : w₂.depth = 1 := there.depth
    have restored (w₃ : World L) (store : w₃.store = w₂.store) (log : w₃.upserts = w₂.upserts)
        (deep : w₃.depth = 1) (saved : w₃.snapshot = some s) :
        Stands base rows' s none w₃.rollbackTx := by
      refine ⟨?_, log.trans there.upserts, ?_, nofun⟩
      · show (if w₃.depth = 1 then w₃.snapshot.getD w₃.store else w₃.store) = s
        rw [if_pos deep, saved, Option.getD_some]
      · show w₃.depth - 1 = 0
        omega
    cases result with
    | error err =>
      intro _ w₃ rolled
      rcases rolled with rfl | ⟨-, failed⟩
      · exact ⟨rows', s, ⟨rfl, .inr (.inl ⟨s', ended⟩)⟩,
          restored _ rfl rfl inside (there.snapshot rfl)⟩
      · cases failed
    | ok value =>
      intro _ w₃ committed
      rcases committed with ⟨rfl, rfl⟩ | ⟨may, ⟨err, rfl⟩, rfl⟩
      · refine ⟨rows', s', ended, there.store, there.upserts, ?_, nofun⟩
        show w₂.depth - 1 = 0
        omega
      · exact ⟨rows', s, ⟨rfl, .inr (.inr ⟨may, value, s', ended⟩)⟩,
          restored _ rfl rfl inside (there.snapshot rfl)⟩
  · exact ⟨rows, s, ⟨rfl, .inl ⟨may, rfl⟩⟩, here.store, here.upserts, depth, nofun⟩

end Follow

/-! ## The operations -/

/-- The row of a wallet and asset, or a fresh one. -/
def Store.currentBalance (s : Store) (walletID : UUID) (asset : String) : Balance :=
  (s.balances.get (balanceKey walletID asset)).getD { walletID, asset }

/-- The store with an event recorded. -/
def Store.withEvent (s : Store) (ev : ConfirmationEvent) : Store :=
  { s with balanceEvents := insert ev.recorded.key s.balanceEvents }

/-- The call is `RecordBalanceEvent`. -/
def Op.records : Op → Bool
  | .store (.recordBalanceEvent _) => true
  | _ => false

/-- Everything an operation can do, run alone: its result, the rows it passes to `UpsertBalance`,
and the store it leaves. -/
inductive Booked (svc : BalanceService) (mayFail : Op → Prop) (s : Store) :
    LedgerCall → Except Err Unit → List Balance → Store → Prop where
  /-- The event is known already. -/
  | duplicate {ev : ConfirmationEvent} (known : ev.recorded.key ∈ s.balanceEvents) :
    Booked svc mayFail s (.confirmation ev) (.ok ()) [] s
  /-- The event could not be recorded. -/
  | unrecorded {ev : ConfirmationEvent} (err : Err)
    (may : mayFail (.store (.recordBalanceEvent ev.recorded))) :
    Booked svc mayFail s (.confirmation ev) (.error err) [] s
  /-- The event is recorded, but the transaction failed. -/
  | aborted {ev : ConfirmationEvent} (unknown : ev.recorded.key ∉ s.balanceEvents) (err : Err)
    (rows : List Balance) (may : ∃ op, mayFail op ∧ op.records = false) :
    Booked svc mayFail s (.confirmation ev) (.error err) rows (s.withEvent ev)
  /-- The event is recorded and its amount added. -/
  | credited {ev : ConfirmationEvent} (unknown : ev.recorded.key ∉ s.balanceEvents) :
    Booked svc mayFail s (.confirmation ev) (.ok ())
      [svc.credited ev (s.currentBalance ev.walletID ev.asset)]
      ((s.withEvent ev).upsertBalance (svc.credited ev (s.currentBalance ev.walletID ev.asset)))
  /-- A reorganisation of a row that is not there. -/
  | unmoved {ev : ReorgEvent} (missing : s.balances.get (balanceKey ev.walletID ev.asset) = none)
    (result : Except Err Unit) (s' : Store) (balances : s'.balances = s.balances)
    (events : s'.balanceEvents = s.balanceEvents) :
    Booked svc mayFail s (.reorg ev) result [] s'
  /-- A reorganisation moves the confirmed amount of a row to its pending amount. -/
  | demoted {ev : ReorgEvent} {cur : Balance}
    (found : s.balances.get (balanceKey ev.walletID ev.asset) = some cur)
    (result : Except Err Unit) (s' : Store)
    (balances : s'.balances = s.balances.put (svc.demoted ev cur))
    (events : s'.balanceEvents = s.balanceEvents) :
    Booked svc mayFail s (.reorg ev) result [svc.demoted ev cur] s'
  /-- A locked amount of a row that is not there. -/
  | unlocked {call : LedgerCall} (err : Err)
    (locks : ∃ walletID asset amount, call = .addLocked walletID asset amount ∨
      call = .releaseLocked walletID asset amount) :
    Booked svc mayFail s call (.error err) [] s
  /-- A row gets a new locked amount. -/
  | relocked {call : LedgerCall} {walletID : UUID} {asset amount : String} {cur : Balance}
    (locked : svc.dec.Decimal)
    (locks : call = .addLocked walletID asset amount ∨ call = .releaseLocked walletID asset amount)
    (found : s.balances.get (balanceKey walletID asset) = some cur) :
    Booked svc mayFail s call (.ok ()) [svc.relocked walletID asset locked cur]
      (s.upsertBalance (svc.relocked walletID asset locked cur))
  /-- The store failed a reorganisation or a change of a locked amount. -/
  | failed {call : LedgerCall} (other : ∀ ev, call ≠ .confirmation ev) (err : Err)
    (rows : List Balance) (may : ∃ op, mayFail op ∧ op.records = false) :
    Booked svc mayFail s call (.error err) rows s

section Operations

variable {svc : BalanceService} {mayFail : Op → Prop} {caller : LedgerCall}
  {base w : World LedgerCall} {rows : List Balance} {s : Store} {opened : Option Store}

/-- How the transaction of an event ends: with the row written, or the store failed. -/
def CreditEnds (svc : BalanceService) (mayFail : Op → Prop) (ev : ConfirmationEvent) (s : Store)
    (rows : List Balance) (result : Except Err Unit) (rows' : List Balance) (s' : Store) : Prop :=
  match result with
  | .ok () => rows' = svc.credited ev (s.currentBalance ev.walletID ev.asset) :: rows ∧
      s' = s.upsertBalance (svc.credited ev (s.currentBalance ev.walletID ev.asset))
  | .error _ => ∃ op, mayFail op ∧ op.records = false

/-- How the transaction of a reorganisation ends: without a row to demote, with the row demoted, or
the store failed. -/
def DemoteEnds (svc : BalanceService) (mayFail : Op → Prop) (ev : ReorgEvent) (s : Store)
    (result : Except Err Unit) (rows : List Balance) (s' : Store) : Prop :=
  match result with
  | .ok () => (s.balances.get (balanceKey ev.walletID ev.asset) = none ∧ rows = [] ∧ s' = s) ∨
      ∃ cur, s.balances.get (balanceKey ev.walletID ev.asset) = some cur ∧
        rows = [svc.demoted ev cur] ∧ s' = s.upsertBalance (svc.demoted ev cur)
  | .error _ => ∃ op, mayFail op ∧ op.records = false

/-- How the transaction of a lock or a release ends: with the row written, without a row, or the
store failed. -/
def RelockEnds (svc : BalanceService) (mayFail : Op → Prop) (walletID : UUID) (asset : String)
    (s : Store) (result : Except Err Unit) (rows : List Balance) (s' : Store) : Prop :=
  match result with
  | .ok () => ∃ cur locked, s.balances.get (balanceKey walletID asset) = some cur ∧
      rows = [svc.relocked walletID asset locked cur] ∧
      s' = s.upsertBalance (svc.relocked walletID asset locked cur)
  | .error _ => rows = [] ∨ ∃ op, mayFail op ∧ op.records = false

/-- The transaction of an event. -/
theorem Stands.creditTx (here : Stands base rows s opened w) (ev : ConfirmationEvent) :
    (svc.creditTx ev).Wlp (faulty mayFail caller) (fun result w₁ => ∃ rows' s',
      CreditEnds svc mayFail ev s rows result rows' s' ∧ Stands base rows' s' opened w₁) w := by
  have credit (cur : Balance) (w : World LedgerCall) (here : Stands base rows s opened w)
      (current : s.currentBalance ev.walletID ev.asset = cur) :
      (svc.credit ev cur).Wlp (faulty mayFail caller) (fun result w₁ => ∃ rows' s',
        CreditEnds svc mayFail ev s rows result rows' s' ∧ Stands base rows' s' opened w₁) w := by
    unfold CreditEnds
    rw [current]
    refine here.upsert_bind (fun w₁ here => ?_) fun err w₁ may here => ?_
    · refine Program.Wlp.bind (here.ask_if _ ?_) fun _ w₂ here => ⟨_, _, ⟨rfl, rfl⟩, here⟩
      rfl
    · exact ⟨_, _, ⟨_, may, rfl⟩, here⟩
  refine here.store_bind (fun _ => rfl) (fun now w₁ here => ?_) fun err w₁ may plain here => ?_
  · cases found : s.balances.get (balanceKey ev.walletID ev.asset) with
    | none =>
      have missing : (StoreOp.exec (.getBalance ev.walletID ev.asset) now s).1 =
          .error (Store.notFound "balance") := by
        simp only [StoreOp.exec, Store.getBalance, found, Store.found]
      rw [missing]
      exact credit _ w₁ here (by simp only [Store.currentBalance, found, Option.getD_none])
    | some cur =>
      have present : (StoreOp.exec (.getBalance ev.walletID ev.asset) now s).1 = .ok cur := by
        simp only [StoreOp.exec, Store.getBalance, found, Store.found]
      rw [present]
      exact credit _ w₁ here (by simp only [Store.currentBalance, found, Option.getD_some])
  · have plain : err.is .errNoRows = false := by simp [Err.is, plain]
    simp only [plain]
    exact ⟨_, _, ⟨_, may, rfl⟩, here⟩

theorem applyConfirmationEvent_ends (ev : ConfirmationEvent) (idle : w.depth = 0) :
    (svc.applyConfirmationEvent ev).Wlp (faulty mayFail caller) (fun result w' => ∃ rows s',
      Booked svc mayFail w.store (.confirmation ev) result rows s' ∧
        Stands w rows s' none w') w := by
  have start : Stands w [] w.store none w := ⟨rfl, rfl, idle, nofun⟩
  refine start.ask_bind rfl fun _ w₁ here => ?_
  refine here.store_bind (fun _ => rfl) (fun now w₂ here => ?_) fun err w₂ may plain here => ?_
  · by_cases known : ev.recorded.key ∈ w.store.balanceEvents
    · simp only [StoreOp.exec, Store.recordBalanceEvent, if_pos known] at here ⊢
      exact ⟨_, _, .duplicate known, here⟩
    · simp only [StoreOp.exec, Store.recordBalanceEvent, if_neg known] at here ⊢
      have here : Stands w [] (w.store.withEvent ev) none w₂ := here
      refine (here.inTx fun w₃ here => here.creditTx ev).bind
        fun result w₃ ⟨rows, s', ended, here⟩ => ?_
      cases result with
      | error err =>
        obtain ⟨rfl, reason⟩ := ended
        refine ⟨rows, _, .aborted known err rows ?_, here⟩
        rcases reason with ⟨may, -⟩ | ⟨_, op, may, other⟩ | ⟨may, -⟩
        · exact ⟨_, may, rfl⟩
        · exact ⟨op, may, other⟩
        · exact ⟨_, may, rfl⟩
      | ok _ =>
        obtain ⟨rfl, rfl⟩ := ended
        refine Program.Wlp.bind (here.ask_if _ ?_) fun _ w₄ here => ⟨_, _, .credited known, here⟩
        rfl
  · have plain : err.is .errDuplicateEvent = false := by simp [Err.is, plain]
    simp only [plain]
    exact ⟨_, _, .unrecorded err may, here⟩

theorem applyReorgEvent_ends (ev : ReorgEvent) (idle : w.depth = 0) :
    (svc.applyReorgEvent ev).Wlp (faulty mayFail caller) (fun result w' => ∃ rows s',
      Booked svc mayFail w.store (.reorg ev) result rows s' ∧ Stands w rows s' none w') w := by
  have start : Stands w [] w.store none w := ⟨rfl, rfl, idle, nofun⟩
  have transaction : (inTx (svc.demoteTx ev)).Wlp (faulty mayFail caller) (fun result w₁ =>
      ∃ rows s', TxEnds mayFail [] w.store (DemoteEnds svc mayFail ev w.store) result rows s' ∧
        Stands w rows s' none w₁) w := by
    refine start.inTx fun w₁ here => ?_
    refine here.store_bind (fun _ => rfl) (fun now w₂ here => ?_) fun err w₂ may plain here => ?_
    · cases found : w.store.balances.get (balanceKey ev.walletID ev.asset) with
      | none =>
        simp only [StoreOp.exec, Store.getBalance, found, Store.found] at here ⊢
        exact ⟨_, _, .inl ⟨found, rfl, rfl⟩, here⟩
      | some cur =>
        simp only [StoreOp.exec, Store.getBalance, found, Store.found] at here ⊢
        change (perform (.store (.upsertBalance _)) >>= Program.done).Wlp _ _ _
        refine here.upsert_bind (fun w₃ here => ?_) fun err w₃ may here => ?_
        · exact ⟨_, _, .inr ⟨cur, found, rfl, rfl⟩, here⟩
        · exact ⟨_, _, ⟨_, may, rfl⟩, here⟩
    · have plain : err.is .errNoRows = false := by simp [Err.is, plain]
      simp only [plain]
      exact ⟨_, _, ⟨_, may, rfl⟩, here⟩
  refine transaction.bind fun result w₁ there => ?_
  obtain ⟨rows, s₁, ended, here⟩ := there
  cases result with
  | error err =>
    obtain ⟨rfl, reason⟩ := ended
    refine ⟨rows, _, .failed (fun _ same => by cases same) err rows ?_, here⟩
    rcases reason with ⟨may, -⟩ | ⟨_, op, may⟩ | ⟨may, -⟩
    · exact ⟨_, may, rfl⟩
    · exact ⟨op, may⟩
    · exact ⟨_, may, rfl⟩
  | ok _ =>
    -- what follows leaves the balances and the events alone
    have booked (result : Except Err Unit) (s₂ : Store) (balances : s₂.balances = s₁.balances)
        (events : s₂.balanceEvents = s₁.balanceEvents) :
        Booked svc mayFail w.store (.reorg ev) result rows s₂ := by
      rcases ended with ⟨missing, rfl, rfl⟩ | ⟨cur, found, rfl, rfl⟩
      · exact .unmoved missing result s₂ balances events
      · exact .demoted found result s₂ balances events
    have restored : (svc.restoreReorged ev).Wlp (faulty mayFail caller) (fun _ w₂ => ∃ s₂,
        s₂.balances = s₁.balances ∧ s₂.balanceEvents = s₁.balanceEvents ∧
        Stands w rows s₂ none w₂) w₁ := by
      unfold BalanceService.restoreReorged
      split
      · refine here.store_bind (fun _ => rfl) (fun now w₂ here => ?_) fun err w₂ may _ here => ?_
        · have frame := s₁.restoreUTXOs_frame now ev.outpoints
          cases (StoreOp.exec (.restoreUTXOs ev.outpoints) now s₁).1 <;>
            exact ⟨(s₁.restoreUTXOs now ev.outpoints).2, frame.2.1, rfl, here⟩
        · exact ⟨_, rfl, rfl, here⟩
      · exact ⟨_, rfl, rfl, here⟩
    refine restored.bind fun result w₂ there => ?_
    obtain ⟨s₂, balances, events, here⟩ := there
    cases result with
    | error err => exact ⟨rows, s₂, booked _ s₂ balances events, here⟩
    | ok _ =>
      refine Program.Wlp.bind (here.ask_if _ ?_)
        fun _ w₃ here => ⟨rows, s₂, booked _ s₂ balances events, here⟩
      rfl

theorem relock_ends {call : LedgerCall} {walletID : UUID} {asset amount : String}
    (locks : call = .addLocked walletID asset amount ∨ call = .releaseLocked walletID asset amount)
    (change : svc.dec.Decimal → svc.dec.Decimal) (idle : w.depth = 0) :
    (svc.relock walletID asset change).Wlp (faulty mayFail caller) (fun result w' => ∃ rows s',
      Booked svc mayFail w.store call result rows s' ∧ Stands w rows s' none w') w := by
  have start : Stands w [] w.store none w := ⟨rfl, rfl, idle, nofun⟩
  have other (ev : ConfirmationEvent) : call ≠ .confirmation ev := by
    rcases locks with rfl | rfl <;> exact nofun
  have transaction : (svc.relock walletID asset change).Wlp (faulty mayFail caller)
      (fun result w₁ => ∃ rows s', TxEnds mayFail [] w.store
        (RelockEnds svc mayFail walletID asset w.store) result rows s' ∧
        Stands w rows s' none w₁) w := by
    refine start.inTx fun w₁ here => ?_
    refine here.store_bind (fun _ => rfl) (fun now w₂ here => ?_) fun err w₂ may _ here => ?_
    · cases found : w.store.balances.get (balanceKey walletID asset) with
      | none =>
        simp only [StoreOp.exec, Store.getBalance, found, Store.found] at here ⊢
        exact ⟨_, _, .inl rfl, here⟩
      | some cur =>
        simp only [StoreOp.exec, Store.getBalance, found, Store.found] at here ⊢
        change (perform (.store (.upsertBalance _)) >>= Program.done).Wlp _ _ _
        refine here.upsert_bind (fun w₃ here => ?_) fun err w₃ may here => ?_
        · exact ⟨_, _, ⟨cur, _, found, rfl, rfl⟩, here⟩
        · exact ⟨_, _, .inr ⟨_, may, rfl⟩, here⟩
    · exact ⟨_, _, .inr ⟨_, may, rfl⟩, here⟩
  refine transaction.mono fun result w₁ there => ?_
  obtain ⟨rows, s', ended, here⟩ := there
  refine ⟨rows, s', ?_, here⟩
  cases result with
  | ok _ =>
    obtain ⟨cur, locked, found, rfl, rfl⟩ := ended
    exact .relocked locked locks found
  | error err =>
    obtain ⟨rfl, reason⟩ := ended
    rcases reason with ⟨may, -⟩ | ⟨s₁, rfl | may⟩ | ⟨may, -⟩
    · exact .failed other err rows ⟨_, may, rfl⟩
    · exact .unlocked err ⟨walletID, asset, amount, locks⟩
    · exact .failed other err rows may
    · exact .failed other err rows ⟨_, may, rfl⟩

/-- Every operation, run alone outside a transaction, does one of the things listed. -/
theorem ledger_ends (call : LedgerCall) (idle : w.depth = 0) :
    (svc.body call).Wlp (faulty mayFail caller) (fun result w' => ∃ rows s',
      Booked svc mayFail w.store call result rows s' ∧ Stands w rows s' none w') w := by
  cases call with
  | confirmation ev => exact applyConfirmationEvent_ends ev idle
  | reorg ev => exact applyReorgEvent_ends ev idle
  | addLocked walletID asset amount =>
    show (svc.addLocked walletID asset amount).Wlp _ _ _
    unfold BalanceService.addLocked
    exact relock_ends (.inl rfl) _ idle
  | releaseLocked walletID asset amount =>
    show (svc.releaseLocked walletID asset amount).Wlp _ _ _
    unfold BalanceService.releaseLocked
    exact relock_ends (.inr rfl) _ idle

/-- One operation run alone, and what it did. -/
theorem booked_of_exec {call : LedgerCall} {result : Except Err Unit} {w' : World LedgerCall}
    (idle : w.depth = 0) (execution : (svc.body call).Exec (faulty mayFail caller) w result w') :
    w'.depth = 0 ∧ ∃ rows, Booked svc mayFail w.store call result rows w'.store ∧
      w'.upserts = rows ++ w.upserts := by
  obtain ⟨rows, s', booked, there⟩ :=
    (Program.wlp_iff_exec _ _ _).mp (ledger_ends call idle) result w' execution
  rw [← there.store] at booked
  exact ⟨there.depth, rows, booked, there.upserts⟩

/-- An operation of the service and its result. -/
abbrev Delivery : Type := LedgerCall × Except Err Unit

/-- What every operation keeps, of the operations so far, the store and the rows passed to
`UpsertBalance` so far, holds after every sequence of operations. -/
theorem ledger_run {start w : World LedgerCall} {deliveries : List Delivery}
    (trace : Trace (faulty mayFail) svc.body start deliveries w) (idle : start.depth = 0)
    (inv : List Delivery → Store → List Balance → Prop) (initial : inv [] start.store [])
    (kept : ∀ earlier s rows call result new s', inv earlier s rows →
      Booked svc mayFail s call result new s' →
      inv (earlier ++ [(call, result)]) s' (new ++ rows)) :
    w.depth = 0 ∧ ∃ rows, w.upserts = rows ++ start.upserts ∧ inv deliveries w.store rows := by
  induction trace with
  | nil => exact ⟨idle, [], rfl, initial⟩
  | snoc before last ih =>
    obtain ⟨idle, rows, passed, here⟩ := ih
    obtain ⟨idle, new, booked, upserts⟩ := booked_of_exec idle last
    refine ⟨idle, new ++ rows, ?_, kept _ _ _ _ _ _ _ here booked⟩
    rw [upserts, passed, List.append_assoc]

end Operations

/-! ## Scripted deliveries -/

/-- Run one more operation, over a store that fails the calls in a set. -/
def BalanceService.deliver (svc : BalanceService) (past : List Delivery × World LedgerCall)
    (next : LedgerCall × (Op → Bool)) : List Delivery × World LedgerCall :=
  let ended := (svc.body next.1).run (Script.handleFailing {} next.2 next.1) past.2
  (past.1 ++ [(next.1, ended.1)], ended.2)

/-- Run a list of operations. -/
def BalanceService.play (svc : BalanceService) (calls : List (LedgerCall × (Op → Bool)))
    (start : World LedgerCall) : List Delivery × World LedgerCall :=
  calls.foldl svc.deliver ([], start)

/-- The computed operations are a trace over a store that may fail those calls. -/
theorem BalanceService.play_trace (svc : BalanceService) {mayFail : Op → Prop}
    {calls : List (LedgerCall × (Op → Bool))}
    (allowed : ∀ call ∈ calls, ∀ op, call.2 op = true → mayFail op) (start : World LedgerCall) :
    Trace (faulty mayFail) svc.body start (svc.play calls start).1 (svc.play calls start).2 := by
  have played (past : List Delivery × World LedgerCall)
      (before : Trace (faulty mayFail) svc.body start past.1 past.2) :
      Trace (faulty mayFail) svc.body start (calls.foldl svc.deliver past).1
        (calls.foldl svc.deliver past).2 := by
    induction calls generalizing past with
    | nil => exact before
    | cons call rest ih =>
      have admitted := allowed call List.mem_cons_self
      refine ih (fun other member => allowed other (List.mem_cons_of_mem _ member)) _
        (before.snoc ?_)
      exact Program.exec_run (Script.handleFailing_follows {} admitted call.1) _ _
  exact played ([], start) .nil

/-- Run a list of operations over the in-memory store. -/
def BalanceService.playAll (svc : BalanceService) (calls : List LedgerCall)
    (start : World LedgerCall) : List Delivery × World LedgerCall :=
  svc.play (calls.map fun call => (call, fun _ => false)) start

/-- The computed operations are a trace over the in-memory store. -/
theorem BalanceService.playAll_trace (svc : BalanceService) (calls : List LedgerCall)
    (start : World LedgerCall) :
    Trace step svc.body start (svc.playAll calls start).1 (svc.playAll calls start).2 := by
  have never : ∀ call ∈ calls.map (fun call => (call, fun _ : Op => false)), ∀ op,
      call.2 op = true → False := by
    intro call member op fails
    obtain ⟨_, _, rfl⟩ := List.mem_map.mp member
    cases fails
  refine (svc.play_trace never start).mono fun _ _ _ _ _ moved => ?_
  rcases moved with moved | ⟨never, -⟩
  · exact moved
  · exact never.elim

end WalletManagement
