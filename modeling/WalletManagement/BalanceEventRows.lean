import WalletManagement.Interaction.Crew
import WalletManagement.Scripted

/-!
# Who wins a balance event

The Postgres store records a balance event with two statements outside a transaction: an insertion
that does nothing if the event is there already, and a query for a row of the same event under
another identifier. A call learns only from the second statement whether its own row was stored.
The first row of an event stays, so for each event one call finds its own row and all others find
the row of that call, in whatever order the statements run.
-/

namespace WalletManagement

open Interaction

/-! ## The table -/

/-- A row of `balance_events`. The four columns of the event are those of its unique constraint. -/
structure EventRow where
  id : UUID
  event : BalanceEvent
  deriving DecidableEq

/-- The table `balance_events`, under its primary key and its unique constraint. -/
structure EventTable where
  /-- The rows. -/
  rows : List EventRow
  /-- No two rows have one identifier. -/
  primary : (rows.map EventRow.id).Nodup
  /-- No two rows are about one event. -/
  unique : (rows.map EventRow.event).Nodup

namespace EventTable

/-- The table without rows. -/
def empty : EventTable := ⟨[], List.nodup_nil, List.nodup_nil⟩

/-- A row has the identifier or the event of a new one. -/
def conflicts (table : EventTable) (row : EventRow) : Bool :=
  table.rows.any fun other => other.id = row.id || other.event = row.event

/-- The identifier and the event of a row without a conflict are new. -/
theorem new_of_free {table : EventTable} {row : EventRow} (free : ¬table.conflicts row = true) :
    row.id ∉ table.rows.map EventRow.id ∧ row.event ∉ table.rows.map EventRow.event := by
  simp only [conflicts, List.any_eq_true, Bool.or_eq_true, decide_eq_true_eq] at free
  constructor
  · intro member
    obtain ⟨other, stored, same⟩ := List.mem_map.mp member
    exact free ⟨other, stored, .inl same⟩
  · intro member
    obtain ⟨other, stored, same⟩ := List.mem_map.mp member
    exact free ⟨other, stored, .inr same⟩

/-- `INSERT .. ON CONFLICT DO NOTHING`. -/
def insertOrNothing (table : EventTable) (row : EventRow) : EventTable :=
  if conflict : table.conflicts row = true then table
  else
    { rows := row :: table.rows
      primary := List.nodup_cons.mpr ⟨(new_of_free conflict).1, table.primary⟩
      unique := List.nodup_cons.mpr ⟨(new_of_free conflict).2, table.unique⟩ }

/-- `SELECT EXISTS` of a row of the same event under another identifier. -/
def existsOther (table : EventTable) (row : EventRow) : Bool :=
  table.rows.any fun other => other.event = row.event && other.id ≠ row.id

/-- One row for each event. -/
theorem eq_of_event (table : EventTable) {row other : EventRow} (stored : row ∈ table.rows)
    (member : other ∈ table.rows) (same : row.event = other.event) : row = other :=
  List.inj_on_of_nodup_map table.unique stored member same

theorem mem_insertOrNothing {table : EventTable} {row other : EventRow} :
    other ∈ (table.insertOrNothing row).rows ↔
      other ∈ table.rows ∨ other = row ∧ table.conflicts row = false := by
  unfold insertOrNothing
  split
  · rename_i conflict
    simp [conflict]
  · rename_i free
    simp [free, or_comm]

/-- The query finds no other row of an event whose row is there. -/
theorem existsOther_of_mem {table : EventTable} {row : EventRow} (stored : row ∈ table.rows) :
    table.existsOther row = false := by
  simp only [existsOther, List.any_eq_false, Bool.and_eq_true, decide_eq_true_eq]
  intro other member found
  have same := table.eq_of_event member stored found.1
  exact found.2 (congrArg EventRow.id same)

end EventTable

/-! ## The program -/

/-- The statements of `RecordBalanceEvent`. -/
inductive EventOp where
  | insert (row : EventRow)
  | existsOther (row : EventRow)

/-- What a statement answers. -/
def EventOp.Ans : EventOp → Type
  | .insert _ => Except Err Unit
  | .existsOther _ => Except Err Bool

/-- The calls of the Postgres store for balance events. -/
def eventCalls : Signature := ⟨EventOp, EventOp.Ans⟩

/-- Each statement runs atomically and succeeds. -/
def eventStep : Transition eventCalls EventTable
  | .insert row, table, answer, table' => answer = .ok () ∧ table' = table.insertOrNothing row
  | .existsOther row, table, answer, table' => answer = .ok (table.existsOther row) ∧ table' = table

/-- `storage.ErrDuplicateEvent`. -/
def errDuplicateEvent : Err := ⟨"duplicate balance event", some .errDuplicateEvent⟩

/-- `RecordBalanceEvent` of the Postgres store. -/
def recordBalanceEvent (row : EventRow) : Program eventCalls (Except Err Unit) := do
  match ← Program.perform (S := eventCalls) (.insert row) with
  | .error err => pure (.error err)
  | .ok () =>
    match ← Program.perform (S := eventCalls) (.existsOther row) with
    | .error err => pure (.error err)
    | .ok found => pure (if found then .error errDuplicateEvent else .ok ())

/-! ## What a call does -/

/-- A statement that ran. -/
abbrev EventMove : Type := Move eventCalls EventTable

/-- The statement is the insertion. -/
def insertsEvent (move : EventMove) : Bool :=
  match move.op with
  | .insert _ => true
  | .existsOther _ => false

/-- What the query found. -/
def verdict (move : EventMove) : Option Bool :=
  match move.op, move.answer with
  | .existsOther _, .ok found => some found
  | _, _ => none

/-- A call inserts its row, looks for another one, and returns what it found. -/
def recording (row : EventRow) : Conduct eventCalls EventTable (Except Err Unit) where
  allows moves
    | .insert other => other = row ∧ moves = []
    | .existsOther other => other = row ∧ moves.any insertsEvent = true
  returns result moves := moves.any insertsEvent = true ∧
    ∃ found, moves.findSome? verdict = some found ∧
      result = if found then .error errDuplicateEvent else .ok ()

theorem recordBalanceEvent_follows (row : EventRow) :
    (recordBalanceEvent row).Follows eventStep (recording row) [] := by
  refine .perform_bind ⟨rfl, rfl⟩ fun table answer table' _ moved => ?_
  obtain ⟨rfl, -⟩ := moved
  refine .perform_bind ⟨rfl, rfl⟩ fun table₁ answer table₂ _ moved => ?_
  obtain ⟨rfl, -⟩ := moved
  exact ⟨rfl, _, rfl, rfl⟩

/-! ## The schedule -/

section Schedule

variable {ι : Type} [DecidableEq ι] {row : ι → EventRow}
  {crew : Crew eventCalls EventTable ι (Except Err Unit)}

/-- Every row of the table is that of a call; the event of every call that has run its insertion has
a row; and a call has found another row exactly if its own was not stored. -/
structure EventsOK (row : ι → EventRow)
    (crew : Crew eventCalls EventTable ι (Except Err Unit)) : Prop where
  /-- The rows are those of the calls. -/
  submitted : ∀ stored ∈ crew.state.rows, ∃ i, stored = row i
  /-- The events that were inserted are there. -/
  covered : ∀ i, (past crew.moves i).any insertsEvent = true →
    ∃ stored ∈ crew.state.rows, stored.event = (row i).event
  /-- What the queries found. -/
  verdicts : ∀ i found, (past crew.moves i).findSome? verdict = some found →
    (found = true ↔ row i ∉ crew.state.rows)

/-- A row with the identifier of a call is the row of that call. -/
theorem EventsOK.eq_of_id (ok : EventsOK row crew)
    (ids : Function.Injective fun i => (row i).id) {stored : EventRow}
    (member : stored ∈ crew.state.rows) {i : ι} (same : stored.id = (row i).id) :
    stored = row i := by
  obtain ⟨j, rfl⟩ := ok.submitted stored member
  have equal : j = i := ids same
  rw [equal]

/-- After the insertion of a call its event has a row. -/
theorem EventsOK.covered_insert (ok : EventsOK row crew)
    (ids : Function.Injective fun i => (row i).id) (i : ι) :
    ∃ stored ∈ (crew.state.insertOrNothing (row i)).rows, stored.event = (row i).event := by
  cases conflict : crew.state.conflicts (row i) with
  | false => exact ⟨row i, EventTable.mem_insertOrNothing.mpr (.inr ⟨rfl, conflict⟩), rfl⟩
  | true =>
    simp only [EventTable.conflicts, List.any_eq_true, Bool.or_eq_true, decide_eq_true_eq]
      at conflict
    obtain ⟨stored, member, same⟩ := conflict
    have still : stored ∈ (crew.state.insertOrNothing (row i)).rows :=
      EventTable.mem_insertOrNothing.mpr (.inl member)
    cases same with
    | inl same => exact ⟨stored, still, congrArg EventRow.event (ok.eq_of_id ids member same)⟩
    | inr same => exact ⟨stored, still, same⟩

/-- The query of a call that has inserted finds another row exactly if its own was not stored. -/
theorem EventsOK.existsOther_iff (ok : EventsOK row crew)
    (ids : Function.Injective fun i => (row i).id) {i : ι}
    (inserted : (past crew.moves i).any insertsEvent = true) :
    crew.state.existsOther (row i) = true ↔ row i ∉ crew.state.rows := by
  constructor
  · intro found stored
    rw [EventTable.existsOther_of_mem stored] at found
    cases found
  · intro missing
    obtain ⟨stored, member, same⟩ := ok.covered i inserted
    have other : stored.id ≠ (row i).id := fun equal =>
      missing (ok.eq_of_id ids member equal ▸ member)
    simp only [EventTable.existsOther, List.any_eq_true, Bool.and_eq_true, decide_eq_true_eq]
    exact ⟨stored, member, same, other⟩

/-- The insertion of a call that has done nothing before. -/
theorem EventsOK.insert (ok : EventsOK row crew) (ids : Function.Injective fun i => (row i).id)
    {i : ι} (first : past crew.moves i = []) (answer : Except Err Unit)
    (rest : Program eventCalls (Except Err Unit)) :
    EventsOK row (crew.advance i ⟨.insert (row i), crew.state, answer,
      crew.state.insertOrNothing (row i)⟩ rest) where
  submitted stored member := by
    cases EventTable.mem_insertOrNothing.mp member with
    | inl before => exact ok.submitted stored before
    | inr new => exact ⟨i, new.1⟩
  covered j inserted := by
    by_cases here : i = j
    · rw [← here]
      exact ok.covered_insert ids i
    · rw [Crew.advance_moves, past_cons_of_ne _ _ here] at inserted
      obtain ⟨stored, member, same⟩ := ok.covered j inserted
      exact ⟨stored, EventTable.mem_insertOrNothing.mpr (.inl member), same⟩
  verdicts j found seen := by
    by_cases here : i = j
    · -- The call has made no query yet.
      subst here
      rw [Crew.advance_moves, past_cons_self, first] at seen
      cases seen
    · rw [Crew.advance_moves, past_cons_of_ne _ _ here] at seen
      have other : row j ≠ row i := fun same => here (ids (congrArg EventRow.id same)).symm
      rw [ok.verdicts j found seen, Crew.advance_state, EventTable.mem_insertOrNothing]
      simp [other]

/-- The query of a call that has inserted. -/
theorem EventsOK.query (ok : EventsOK row crew) (ids : Function.Injective fun i => (row i).id)
    {i : ι} (inserted : (past crew.moves i).any insertsEvent = true)
    (rest : Program eventCalls (Except Err Unit)) :
    EventsOK row (crew.advance i ⟨.existsOther (row i), crew.state,
      .ok (crew.state.existsOther (row i)), crew.state⟩ rest) where
  submitted := ok.submitted
  covered j stored := by
    rw [Crew.advance_moves, any_past_cons_of_false _ rfl] at stored
    exact ok.covered j stored
  verdicts j found seen := by
    by_cases here : i = j
    · subst here
      rw [Crew.advance_moves, past_cons_self] at seen
      have answered : crew.state.existsOther (row i) = found := Option.some.inj seen
      rw [← answered]
      exact ok.existsOther_iff ids inserted
    · rw [Crew.advance_moves, past_cons_of_ne _ _ here] at seen
      exact ok.verdicts j found seen

/-- Any number of concurrent calls of `RecordBalanceEvent` on one table. -/
abbrev RecordsEvents (row : ι → EventRow)
    (crew : Crew eventCalls EventTable ι (Except Err Unit)) : Prop :=
  Crew.Reachable (fun _ => eventStep) (fun _ _ _ => True)
    (Crew.start (fun i => recordBalanceEvent (row i)) EventTable.empty) crew

theorem good_of_records (ids : Function.Injective fun i => (row i).id)
    (reachable : RecordsEvents row crew) :
    crew.Good (fun _ => eventStep) (fun i => recording (row i)) (EventsOK row) := by
  refine reachable.good (fun _ _ _ => trivial) ?_ ⟨⟨?_, ?_, ?_⟩, fun i => ?_⟩
  · intro crew i op next answer s' ok _ allowed moved _
    cases op with
    | insert other =>
      obtain ⟨rfl, first⟩ := allowed
      obtain ⟨-, rfl⟩ := moved
      exact ok.insert ids first _ _
    | existsOther other =>
      obtain ⟨rfl, inserted⟩ := allowed
      obtain ⟨rfl, rfl⟩ := moved
      exact ok.query ids inserted _
  · intro stored member
    cases member
  · intro i inserted
    cases inserted
  · intro i found seen
    cases seen
  · exact recordBalanceEvent_follows (row i)

/-- A finished call has inserted, and returns an error exactly if its own row was not stored. -/
theorem returned_of_records (ids : Function.Injective fun i => (row i).id)
    (reachable : RecordsEvents row crew) {i : ι} (finished : crew.Finished i) :
    (past crew.moves i).any insertsEvent = true ∧ crew.Returned i
      (if row i ∈ crew.state.rows then .ok () else .error errDuplicateEvent) := by
  have good := good_of_records ids reachable
  obtain ⟨result, returned⟩ := Crew.returned_of_finished finished
  obtain ⟨inserted, found, seen, rfl⟩ := good.returned returned
  refine ⟨inserted, ?_⟩
  have judged := good.holds.verdicts i found seen
  cases found with
  | false => rwa [if_pos (by simpa using judged)]
  | true => rwa [if_neg (judged.mp rfl)]

end Schedule

/-- However the statements of any number of `RecordBalanceEvent` calls with pairwise different row
identifiers interleave on an empty table, once the calls of an event have completed, exactly one of
them has returned no error, and all others have returned `ErrDuplicateEvent`. -/
theorem one_winner_per_event {ι : Type} [DecidableEq ι] (row : ι → EventRow)
    (ids : Function.Injective fun i => (row i).id)
    {crew : Crew eventCalls EventTable ι (Except Err Unit)} (reachable : RecordsEvents row crew)
    (i : ι) (completed : ∀ j, (row j).event = (row i).event → crew.Finished j) :
    ∃ winner, (row winner).event = (row i).event ∧ crew.Returned winner (.ok ()) ∧
      ∀ j, (row j).event = (row i).event → j ≠ winner →
        crew.Returned j (.error errDuplicateEvent) := by
  have ok := (good_of_records ids reachable).holds
  obtain ⟨inserted, -⟩ := returned_of_records ids reachable (completed i rfl)
  obtain ⟨stored, member, same⟩ := ok.covered i inserted
  obtain ⟨winner, rfl⟩ := ok.submitted stored member
  refine ⟨winner, same, ?_, fun j event other => ?_⟩
  · have returned := (returned_of_records ids reachable (completed winner same)).2
    rwa [if_pos member] at returned
  · have returned := (returned_of_records ids reachable (completed j event)).2
    have lost : row j ∉ crew.state.rows := fun present =>
      other (ids (congrArg EventRow.id
        (crew.state.eq_of_event present member (event.trans same.symm))))
    rwa [if_neg lost] at returned

/-! ## A schedule -/

/-- The table as a function of the statement. -/
def eventRows : (op : EventOp) → EventTable → op.Ans × EventTable
  | .insert row, table => (.ok (), table.insertOrNothing row)
  | .existsOther row, table => (.ok (table.existsOther row), table)

/-- The rows of three calls: the first two are about one event. -/
def sampleEventRow (i : Fin 3) : EventRow :=
  ⟨sampleID i.val.toUInt8, ⟨sampleID 1, "ETH", if i = 2 then 8 else 7, "deposit"⟩⟩

/-- All calls insert before any of them looks for another row, the second one first. -/
def sampleRecorded : Crew eventCalls EventTable (Fin 3) (Except Err Unit) :=
  (Crew.start (fun i => recordBalanceEvent (sampleEventRow i)) EventTable.empty).play
    ([1, 0, 2, 0, 1, 2].map fun i => (i, eventRows))

/-- The second call of the event wins. -/
theorem one_winner_per_event_three :
    RecordsEvents sampleEventRow sampleRecorded ∧
      ∃ winner, (sampleEventRow winner).event = (sampleEventRow 0).event ∧
        sampleRecorded.Returned winner (.ok ()) ∧
        ∀ j, (sampleEventRow j).event = (sampleEventRow 0).event → j ≠ winner →
          sampleRecorded.Returned j (.error errDuplicateEvent) := by
  have reachable : RecordsEvents sampleEventRow sampleRecorded := by
    refine Crew.reachable_play (fun next member op s => ?_) (Crew.admitsAll_of_true _ _)
    obtain ⟨i, -, rfl⟩ := List.mem_map.mp member
    cases op with
    | insert row => exact ⟨rfl, rfl⟩
    | existsOther row => exact ⟨rfl, rfl⟩
  have ids : Function.Injective fun i => (sampleEventRow i).id := by
    unfold Function.Injective
    decide +kernel
  exact ⟨reachable, one_winner_per_event sampleEventRow ids reachable 0 (by decide +kernel)⟩

end WalletManagement
