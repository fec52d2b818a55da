import Mathlib.Data.List.Nodup

/-!
# Tables of rows keyed by their own fields

A table is a list of rows no two of which have the same key, where the key is a function of
the row. A row can therefore be found only under its own key, so no invariant has to say that
the key a row is stored under agrees with the row. The order of the rows carries no meaning.
-/

namespace Data

variable {K V : Type}

/-- Replace the row with the same key, or append the row. -/
def upsertRow [DecidableEq K] (key : V → K) (row : V) : List V → List V
  | [] => [row]
  | head :: tail => if key head = key row then row :: tail else head :: upsertRow key row tail

/-- Every row after an upsert is the new row or an old row. -/
theorem mem_of_mem_upsertRow [DecidableEq K] {key : V → K} {row other : V} {rows : List V}
    (member : other ∈ upsertRow key row rows) : other = row ∨ other ∈ rows := by
  induction rows with
  | nil => simpa [upsertRow] using member
  | cons head tail ih =>
    unfold upsertRow at member
    split at member
    · rcases List.mem_cons.mp member with same | member
      · exact .inl same
      · exact .inr (List.mem_cons_of_mem _ member)
    · rcases List.mem_cons.mp member with rfl | member
      · exact .inr List.mem_cons_self
      · exact (ih member).imp id (List.mem_cons_of_mem _)

/-- An upsert keeps the keys distinct. -/
theorem upsertRow_distinct [DecidableEq K] (key : V → K) (row : V) {rows : List V}
    (distinct : (rows.map key).Nodup) : ((upsertRow key row rows).map key).Nodup := by
  induction rows with
  | nil => simp [upsertRow]
  | cons head tail ih =>
    obtain ⟨fresh, distinct⟩ := List.nodup_cons.mp distinct
    unfold upsertRow
    split
    · rename_i same
      rw [List.map_cons, ← same]
      exact List.nodup_cons.mpr ⟨fresh, distinct⟩
    · rename_i other
      refine List.nodup_cons.mpr ⟨fun member => ?_, ih distinct⟩
      obtain ⟨found, member, same⟩ := List.mem_map.mp member
      rcases mem_of_mem_upsertRow member with rfl | member
      · exact other same.symm
      · exact fresh (List.mem_map.mpr ⟨found, member, same⟩)

/-- An upsert undoes an earlier one under the same key. -/
theorem upsertRow_upsertRow [DecidableEq K] {key : V → K} {first second : V}
    (same : key first = key second) (rows : List V) :
    upsertRow key second (upsertRow key first rows) = upsertRow key second rows := by
  induction rows with
  | nil => simp [upsertRow, same]
  | cons head tail ih =>
    by_cases here : key head = key second
    · simp [upsertRow, here, same]
    · have other : key head ≠ key first := fun h => here (h.trans same)
      simp [upsertRow, here, other, ih]

/-- The number of rows that satisfy a test, after an upsert. -/
theorem countP_upsertRow [DecidableEq K] (key : V → K) (row : V) (rows : List V) (test : V → Bool) :
    (upsertRow key row rows).countP test +
        (if (rows.find? fun other => key other = key row).any test then 1 else 0) =
      rows.countP test + if test row then 1 else 0 := by
  induction rows with
  | nil => simp [upsertRow]
  | cons head tail ih =>
    by_cases same : key head = key row
    · simp only [upsertRow, same, if_true, List.countP_cons, List.find?_cons, decide_true,
        Option.any_some]
      omega
    · simp only [upsertRow, same, if_false, List.countP_cons, List.find?_cons, decide_false]
      omega

/-- A change of all rows that keeps the keys commutes with an upsert. -/
theorem map_upsertRow [DecidableEq K] {key : V → K} {change : V → V}
    (keeps : ∀ row, key (change row) = key row) (row : V) (rows : List V) :
    (upsertRow key row rows).map change = upsertRow key (change row) (rows.map change) := by
  induction rows with
  | nil => rfl
  | cons head tail ih =>
    simp only [upsertRow, List.map_cons, keeps]
    split
    · rw [List.map_cons]
    · rw [List.map_cons, ih]

/-- A table of rows with distinct keys. -/
structure Table (key : V → K) where
  /-- The rows. -/
  rows : List V
  /-- No two rows have the same key. -/
  distinct : (rows.map key).Nodup

namespace Table

variable {key : V → K}

/-- The table without rows. -/
def empty : Table key := ⟨[], List.nodup_nil⟩

instance [DecidableEq V] : DecidableEq (Table key) := fun left right =>
  decidable_of_iff (left.rows = right.rows) ⟨fun same => by cases left; cases right; congr,
    fun same => congrArg Table.rows same⟩

/-- The rows that satisfy a test. -/
def select (table : Table key) (test : V → Bool) : List V := table.rows.filter test

/-- At most one row satisfies a test when no two different ones do. -/
theorem length_select_le_one {table : Table key} {test : V → Bool} :
    (table.select test).length ≤ 1 ↔
      ∀ first ∈ table.select test, ∀ second ∈ table.select test, first = second := by
  have distinct : (table.select test).Nodup := (List.Nodup.of_map key table.distinct).filter _
  generalize table.select test = rows at distinct
  cases rows with
  | nil => simp
  | cons first rest =>
    cases rest with
    | nil => simp
    | cons second rest =>
      refine iff_of_false (by simp) fun unique => ?_
      have same := unique first List.mem_cons_self second
        (List.mem_cons_of_mem _ List.mem_cons_self)
      exact (List.nodup_cons.mp distinct).1 (same ▸ List.mem_cons_self)

/-- Change every row, keeping the keys. -/
def mapRows (table : Table key) (change : V → V) (keeps : ∀ row, key (change row) = key row) :
    Table key :=
  ⟨table.rows.map change, by
    rw [List.map_map, show key ∘ change = key from funext keeps]
    exact table.distinct⟩

/-- The rows after changing every one. -/
theorem mem_mapRows {table : Table key} {change : V → V} {keeps : ∀ row, key (change row) = key row}
    {row : V} : row ∈ (table.mapRows change keeps).rows ↔ ∃ old ∈ table.rows, change old = row :=
  List.mem_map

/-- Two changes of every row commute if they commute on every row. -/
theorem mapRows_comm (table : Table key) {first second : V → V}
    {keeps : ∀ row, key (first row) = key row} {keeps' : ∀ row, key (second row) = key row}
    (commute : ∀ row, first (second row) = second (first row)) :
    (table.mapRows second keeps').mapRows first keeps =
      (table.mapRows first keeps).mapRows second keeps' := by
  have same : first ∘ second = second ∘ first := funext commute
  simp only [mapRows, List.map_map, same]

variable [DecidableEq K]

/-- The row with a key. -/
def get (table : Table key) (k : K) : Option V := table.rows.find? fun row => key row = k

/-- Store a row under its own key, replacing the row that had it. -/
def put (table : Table key) (row : V) : Table key :=
  ⟨upsertRow key row table.rows, upsertRow_distinct key row table.distinct⟩

/-- A row is found only under its own key. -/
theorem key_of_get {table : Table key} {k : K} {row : V} (found : table.get k = some row) :
    key row = k := by
  simpa using List.find?_some found

/-- A row that is found is in the table. -/
theorem mem_of_get {table : Table key} {k : K} {row : V} (found : table.get k = some row) :
    row ∈ table.rows := List.mem_of_find?_eq_some found

/-- Every row in the table is found under its key. -/
theorem get_of_mem {table : Table key} {row : V} (member : row ∈ table.rows) :
    table.get (key row) = some row := by
  obtain ⟨rows, distinct⟩ := table
  induction rows with
  | nil => cases member
  | cons head tail ih =>
    obtain ⟨fresh, distinct⟩ := List.nodup_cons.mp distinct
    rcases List.mem_cons.mp member with rfl | member
    · simp [get]
    · have other : key head ≠ key row := fun same =>
        fresh (same ▸ List.mem_map_of_mem member)
      simpa [get, other] using ih distinct member

/-- Membership is being found. -/
theorem mem_iff_get {table : Table key} {row : V} :
    row ∈ table.rows ↔ table.get (key row) = some row := ⟨get_of_mem, mem_of_get⟩

@[simp] theorem get_empty (k : K) : (empty : Table key).get k = none := rfl

/-- A stored row is found, and every other key finds what it found before. -/
theorem get_put (table : Table key) (row : V) (k : K) :
    (table.put row).get k = if key row = k then some row else table.get k := by
  obtain ⟨rows, distinct⟩ := table
  simp only [get, put]
  clear distinct
  induction rows with
  | nil => by_cases same : key row = k <;> simp [upsertRow, same]
  | cons head tail ih =>
    unfold upsertRow
    by_cases replaced : key head = key row
    · by_cases same : key row = k <;> simp [replaced, same]
    · rw [if_neg replaced]
      by_cases here : key head = k
      · have other : key row ≠ k := fun same => replaced (here.trans same.symm)
        simp [here, other]
      · simp [here, ih]

/-- What is found after a row is stored is that row, or what was found before under another
key. -/
theorem get_put_cases {table : Table key} {row found : V} {k : K}
    (here : (table.put row).get k = some found) :
    (k = key row ∧ found = row) ∨ (k ≠ key row ∧ table.get k = some found) := by
  rw [get_put] at here
  by_cases same : key row = k
  · rw [if_pos same] at here
    exact .inl ⟨same.symm, (Option.some.inj here).symm⟩
  · rw [if_neg same] at here
    exact .inr ⟨fun h => same h.symm, here⟩

@[simp] theorem get_put_self (table : Table key) (row : V) :
    (table.put row).get (key row) = some row := by rw [get_put, if_pos rfl]

/-- Storing a row leaves every other key alone. -/
theorem get_put_of_ne (table : Table key) {row : V} {k : K} (other : key row ≠ k) :
    (table.put row).get k = table.get k := by rw [get_put, if_neg other]

/-- Storing a row removes no key. -/
theorem isSome_get_put (table : Table key) (row : V) {k : K} (there : (table.get k).isSome) :
    ((table.put row).get k).isSome := by
  rw [get_put]
  split
  · rfl
  · exact there

/-- Storing a row twice keeps the second one. -/
theorem put_put (table : Table key) {first second : V} (same : key first = key second) :
    (table.put first).put second = table.put second := by
  simp only [put, upsertRow_upsertRow same]

/-- Storing a row that is there changes nothing. -/
theorem put_self {table : Table key} {row : V} (found : table.get (key row) = some row) :
    table.put row = table := by
  obtain ⟨rows, distinct⟩ := table
  simp only [get] at found
  simp only [put, mk.injEq]
  clear distinct
  induction rows with
  | nil => cases found
  | cons head tail ih =>
    unfold upsertRow
    by_cases here : key head = key row
    · rw [if_pos here]
      rw [List.find?_cons_of_pos (by simpa using here)] at found
      rw [Option.some.inj found]
    · rw [if_neg here]
      rw [List.find?_cons_of_neg (by simpa using here)] at found
      rw [ih found]

/-- Every key finds what it found before, changed. -/
@[simp] theorem get_mapRows (table : Table key) (change : V → V)
    (keeps : ∀ row, key (change row) = key row) (k : K) :
    (table.mapRows change keeps).get k = (table.get k).map change := by
  simp only [get, mapRows, List.find?_map]
  congr 2
  funext row
  simp [keeps]

/-- Changing every row after storing one, or before. -/
theorem mapRows_put (table : Table key) (row : V) (change : V → V)
    (keeps : ∀ row, key (change row) = key row) :
    (table.put row).mapRows change keeps = (table.mapRows change keeps).put (change row) := by
  simp only [put, mapRows, map_upsertRow keeps]

/-- The rows after storing one: the new row, and the old rows with other keys. -/
theorem mem_put {table : Table key} {row other : V} :
    other ∈ (table.put row).rows ↔ other = row ∨ (other ∈ table.rows ∧ key other ≠ key row) := by
  rw [mem_iff_get, mem_iff_get, get_put]
  constructor
  · intro found
    by_cases same : key row = key other
    · rw [if_pos same] at found
      exact .inl (Option.some.inj found).symm
    · rw [if_neg same] at found
      exact .inr ⟨found, fun h => same h.symm⟩
  · rintro (rfl | ⟨found, other⟩)
    · rw [if_pos rfl]
    · rw [if_neg fun h => other h.symm]
      exact found

/-- The number of rows that satisfy a test, after storing a row. -/
theorem length_select_put (table : Table key) (row : V) (test : V → Bool) :
    ((table.put row).select test).length +
        (if (table.get (key row)).any test then 1 else 0) =
      (table.select test).length + if test row then 1 else 0 := by
  simp only [select, ← List.countP_eq_length_filter]
  exact countP_upsertRow key row table.rows test

end Table

end Data
