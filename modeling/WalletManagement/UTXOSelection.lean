import WalletManagement.Interaction.Crew
import WalletManagement.MemStoreRows
import WalletManagement.Scripted

/-!
# Concurrent coin selection

`SelectForAmount` picks its outpoints from a list it read earlier, so two selections can pick the
same ones. `LockUTXOs` checks the whole batch and sets it in one step, and only the selection whose
batch is free gets it. The outpoints of a selection are its own until its caller unlocks them, as
long as no caller unlocks the same outpoints twice.
-/

namespace WalletManagement

open Interaction Data Go

/-! ## Callers -/

/-- What a caller does with the outpoints it obtained. -/
inductive Settlement where
  | markSpent (txHash : String)
  | unlock
  deriving DecidableEq

/-- A caller of the service: one selection, and what it then does with the outpoints. -/
structure Selection where
  walletID : UUID
  amount : Int
  later : List Settlement

/-- Make the later calls, ignoring their errors. -/
def Selection.settle (outpoints : List String) : List Settlement → Prog Unit
  | [] => pure ()
  | .markSpent txHash :: rest => do
    let _ ← markSpent outpoints txHash
    settle outpoints rest
  | .unlock :: rest => do
    let _ ← unlock outpoints
    settle outpoints rest

/-- The program of a caller. It returns what its selection returned. -/
def Selection.body (order : SortSlice largerValue) (selection : Selection) :
    Prog (Except Err (List String × Int)) := do
  match ← selectForAmount order selection.walletID selection.amount with
  | .error err => pure (.error err)
  | .ok (outpoints, total) =>
    settle outpoints selection.later
    pure (.ok (outpoints, total))

/-! ## What a caller holds -/

/-- The outpoints a call of the store locks. -/
def StoreOp.locks : (op : StoreOp) → Except Err op.Result → Option (List String)
  | .lockUTXOs outpoints, .ok _ => some outpoints
  | _, _ => none

section Callers

variable {ι : Type}

/-- The outpoints a move locks. -/
def lockedBy (move : Move calls (World ι)) : Option (List String) :=
  match move.op, move.answer with
  | .store op, answer => op.locks answer
  | _, _ => none

/-- The move unlocks outpoints. -/
def unlocks (move : Move calls (World ι)) : Bool :=
  match move.op with
  | .store (.restoreUTXOs _) => true
  | _ => false

/-- The outpoints a caller obtained, after its moves. -/
def obtained (moves : List (Move calls (World ι))) : Option (List String) :=
  moves.findSome? lockedBy

/-- The outpoints a caller obtained and has not unlocked. -/
def held (moves : List (Move calls (World ι))) : List String :=
  if moves.any unlocks then [] else (obtained moves).getD []

/-- The move left every lock state alone. -/
def KeepsLocks (move : Move calls (World ι)) : Prop :=
  ∀ op, move.after.store.lockState op = move.before.store.lockState op

/-- A caller lists free outpoints and locks a batch, and then marks it spent or unlocks it, the
latter at most once. A caller that returns an error has obtained nothing. -/
def selecting : Conduct calls (World ι) (Except Err (List String × Int)) where
  allows moves
    | .store (.listFreeUTXOs _) => True
    | .store (.lockUTXOs _) => moves.any unlocks = false
    | .store (.markUTXOsSpent outpoints _) => obtained moves = some outpoints
    | .store (.restoreUTXOs outpoints) =>
      obtained moves = some outpoints ∧ moves.any unlocks = false
    | _ => False
  returns result moves := ∀ err, result = .error err → obtained moves = none

variable {i : ι} {moves : List (Move calls (World ι))} {outpoints : List String}

/-- The later calls of a caller with outpoints, of which at most one unlocks them. -/
theorem settle_follows (later : List Settlement) (total : Int)
    (got : obtained moves = some outpoints)
    (once : (moves.any unlocks = true → .unlock ∉ later) ∧ later.count .unlock ≤ 1) :
    (Selection.settle outpoints later >>= fun _ => pure (.ok (outpoints, total))).Follows (step i)
      selecting moves := by
  induction later generalizing moves with
  | nil => exact fun err same => by cases same
  | cons first rest ih =>
    cases first with
    | markSpent txHash =>
      refine ⟨got, fun w answer w' _ _ => ih got ⟨fun done => ?_, ?_⟩⟩
      · exact fun member => once.1 done (List.mem_cons_of_mem _ member)
      · simpa using once.2
    | unlock =>
      have first : moves.any unlocks = false := by
        by_contra done
        exact once.1 (by simpa using done) List.mem_cons_self
      have last : rest.count .unlock = 0 := by
        have := once.2
        simp only [List.count_cons_self] at this
        omega
      refine ⟨⟨got, first⟩, fun w answer w' _ _ => ih got ⟨fun _ => ?_, by omega⟩⟩
      exact List.count_eq_zero.mp last

/-- A selection returns the outpoints it locked, or an error and has locked none. -/
theorem selectForAmount_follows (order : SortSlice largerValue) (walletID : UUID) (amount : Int) :
    (selectForAmount order walletID amount).Follows (step i)
      ⟨selecting.allows, selecting.knows, fun result moves =>
        match result with
        | .error _ => obtained moves = none
        | .ok (ops, _) => obtained moves = some ops ∧ moves.any unlocks = false⟩ [] := by
  refine .perform_bind trivial fun w answer w' _ moved => ?_
  obtain ⟨_, rfl, -⟩ := step_store.mp moved
  simp only [StoreOp.exec]
  split
  · exact rfl
  · refine .perform_bind rfl fun w₂ answer w₃ _ _ => ?_
    cases answer with
    | error err => exact rfl
    | ok _ => exact ⟨rfl, rfl⟩

/-- A caller that unlocks at most once behaves as described. -/
theorem Selection.body_follows (order : SortSlice largerValue) (selection : Selection)
    (once : selection.later.count .unlock ≤ 1) :
    (selection.body order).Follows (step i) selecting [] := by
  refine (selectForAmount_follows order selection.walletID selection.amount).bind _
    fun result moves here => ?_
  match result with
  | .error err => exact fun _ _ => here
  | .ok (ops, total) =>
    refine settle_follows selection.later total here.1 ⟨fun done => ?_, once⟩
    rw [here.2] at done
    cases done

/-! ## The invariant -/

variable [DecidableEq ι]

/-- The outpoints of the callers, in a store. -/
structure SelectionsApart (w : World ι) (moves : List (ι × Move calls (World ι))) : Prop where
  /-- No two callers hold the same outpoint. -/
  disjoint : ∀ i j, i ≠ j → (held (past moves i)).Disjoint (held (past moves j))
  /-- No outpoint that is held is free. -/
  taken : ∀ i, ∀ op ∈ held (past moves i), w.store.lockState op ≠ some .free
  /-- Outpoints that were obtained are there. -/
  present : ∀ i ops, obtained (past moves i) = some ops →
    ∀ op ∈ ops, (w.store.lockState op).isSome
  /-- A caller without outpoints has changed no lock state. -/
  untouched : ∀ i, obtained (past moves i) = none → ∀ move ∈ past moves i, KeepsLocks move

variable {w w' : World ι} {crewMoves : List (ι × Move calls (World ι))}

/-- One more move of a caller, by what it does to the outpoints of that caller and of the others. -/
theorem SelectionsApart.moved (apart : SelectionsApart w crewMoves) {move : Move calls (World ι)}
    (own : ∀ op ∈ held (move :: past crewMoves i), w'.store.lockState op ≠ some .free ∧
      ∀ j, j ≠ i → op ∉ held (past crewMoves j))
    (others : ∀ j, j ≠ i → ∀ op ∈ held (past crewMoves j), w'.store.lockState op ≠ some .free)
    (there : ∀ op, (w.store.lockState op).isSome → (w'.store.lockState op).isSome)
    (present : ∀ ops, obtained (move :: past crewMoves i) = some ops →
      ∀ op ∈ ops, (w'.store.lockState op).isSome)
    (untouched : obtained (move :: past crewMoves i) = none →
      KeepsLocks move ∧ obtained (past crewMoves i) = none) :
    SelectionsApart w' ((i, move) :: crewMoves) := by
  -- the past of the caller has grown by the move, the past of the others is the same
  have mine : past ((i, move) :: crewMoves) i = move :: past crewMoves i := past_cons_self _ _
  have theirs (j : ι) (other : j ≠ i) : past ((i, move) :: crewMoves) j = past crewMoves j :=
    past_cons_of_ne _ _ (Ne.symm other)
  refine ⟨fun j k differ => ?_, fun j => ?_, fun j ops => ?_, fun j => ?_⟩
  · by_cases first : j = i
    · subst first
      rw [mine, theirs k (Ne.symm differ)]
      exact fun op here there => (own op here).2 k (Ne.symm differ) there
    · rw [theirs j first]
      by_cases second : k = i
      · subst second
        rw [mine]
        exact fun op there here => (own op here).2 j first there
      · rw [theirs k second]
        exact apart.disjoint j k differ
  · by_cases same : j = i
    · subst same
      rw [mine]
      exact fun op member => (own op member).1
    · rw [theirs j same]
      exact others j same
  · by_cases same : j = i
    · subst same
      rw [mine]
      exact present ops
    · rw [theirs j same]
      exact fun got op member => there op (apart.present j ops got op member)
  · by_cases same : j = i
    · subst same
      rw [mine]
      intro none earlier member
      rcases List.mem_cons.mp member with rfl | member
      · exact (untouched none).1
      · exact apart.untouched j (untouched none).2 earlier member
    · rw [theirs j same]
      exact apart.untouched j

/-- A move that locks nothing, unlocks nothing and changes no lock state. -/
theorem SelectionsApart.frame (apart : SelectionsApart w crewMoves) {move : Move calls (World ι)}
    (nothing : lockedBy move = none) (keeps : unlocks move = false)
    (same : ∀ op, w'.store.lockState op = w.store.lockState op) (kept : KeepsLocks move) :
    SelectionsApart w' ((i, move) :: crewMoves) := by
  have got : obtained (move :: past crewMoves i) = obtained (past crewMoves i) := by
    simp [obtained, nothing]
  have holds : held (move :: past crewMoves i) = held (past crewMoves i) := by
    simp [held, got, keeps]
  refine apart.moved (fun op member => ?_) (fun j _ op member => ?_) (fun op => ?_)
    (fun ops => ?_) fun none => ⟨kept, got ▸ none⟩
  · rw [holds] at member
    rw [same]
    exact ⟨apart.taken i op member, fun j other there => apart.disjoint i j other.symm member there⟩
  · rw [same]
    exact apart.taken j op member
  · rw [same]
    exact fun there => there
  · rw [got]
    simp only [same]
    exact apart.present i ops

/-- A caller locks a batch, or is refused. -/
theorem SelectionsApart.lock (apart : SelectionsApart w crewMoves) {answer : Except Err Unit}
    (unlocked : (past crewMoves i).any unlocks = false)
    (moved : step i (.store (.lockUTXOs outpoints)) w answer w') :
    SelectionsApart w' ((i, ⟨.store (.lockUTXOs outpoints), w, answer, w'⟩) :: crewMoves) := by
  obtain ⟨now, answered, stored⟩ := store_of_step moved
  rcases w.store.lockUTXOs_cases now outpoints with ⟨⟨err, refused⟩, same⟩ | ⟨locked, free, states⟩
  · have error : answer = .error err := answered.trans refused
    have kept (op : String) : w'.store.lockState op = w.store.lockState op := by
      rw [stored]
      exact congrArg (Store.lockState · op) same
    subst error
    exact apart.frame rfl rfl kept kept
  · have done : answer = .ok () := answered.trans locked
    subst done
    have now (op : String) : w'.store.lockState op =
        if op ∈ outpoints then some .locked else w.store.lockState op := by
      rw [stored]
      exact states op
    have holds : held (⟨.store (.lockUTXOs outpoints), w, .ok (), w'⟩ :: past crewMoves i) =
        outpoints := by
      rw [held, List.any_cons, unlocked]
      rfl
    -- the outpoints of the others are not free, so they are not in this batch
    have apartFrom (j : ι) (op : String) (theirs : op ∈ held (past crewMoves j)) :
        op ∉ outpoints := fun mine => apart.taken j op theirs (free op mine)
    refine apart.moved (fun op member => ?_) (fun j _ op member => ?_) (Store.isSome_of_set now)
      (fun ops got op member => ?_) nofun
    · have mine : op ∈ outpoints := holds ▸ member
      refine ⟨?_, fun j _ theirs => apartFrom j op theirs mine⟩
      rw [now, if_pos mine]
      decide
    · rw [now, if_neg (apartFrom j op member)]
      exact apart.taken j op member
    · have same : outpoints = ops := Option.some.inj got
      rw [now, same, if_pos member]
      rfl

/-- A caller marks the outpoints it obtained as spent. -/
theorem SelectionsApart.spend (apart : SelectionsApart w crewMoves) {txHash : String}
    {answer : Except Err Unit} (got : obtained (past crewMoves i) = some outpoints)
    (moved : step i (.store (.markUTXOsSpent outpoints txHash)) w answer w') :
    SelectionsApart w' ((i, ⟨.store (.markUTXOsSpent outpoints txHash), w, answer, w'⟩) ::
      crewMoves) := by
  obtain ⟨_, -, stored⟩ := store_of_step moved
  have now (op : String) : w'.store.lockState op =
      if op ∈ outpoints then some .spent else w.store.lockState op := by
    rw [stored]
    exact Store.lockState_markUTXOsSpent (apart.present i outpoints got) op
  have notFree (op : String) (before : w.store.lockState op ≠ some .free) :
      w'.store.lockState op ≠ some .free := by
    rw [now]
    split
    · decide
    · exact before
  refine apart.moved (fun op member => ?_) (fun j _ op member => ?_)
    (Store.isSome_of_set now) (fun ops got op member => ?_) fun nothing => ?_
  · have mine : op ∈ held (past crewMoves i) := member
    exact ⟨notFree op (apart.taken i op mine),
      fun j other theirs => apart.disjoint i j other.symm mine theirs⟩
  · exact notFree op (apart.taken j op member)
  · exact Store.isSome_of_set now op (apart.present i ops got op member)
  · cases nothing.symm.trans got

/-- A caller unlocks the outpoints it obtained, for the first time. -/
theorem SelectionsApart.unlock (apart : SelectionsApart w crewMoves) {answer : Except Err Unit}
    (got : obtained (past crewMoves i) = some outpoints)
    (first : (past crewMoves i).any unlocks = false)
    (moved : step i (.store (.restoreUTXOs outpoints)) w answer w') :
    SelectionsApart w' ((i, ⟨.store (.restoreUTXOs outpoints), w, answer, w'⟩) :: crewMoves) := by
  obtain ⟨_, -, stored⟩ := store_of_step moved
  have now (op : String) : w'.store.lockState op =
      if op ∈ outpoints then some .free else w.store.lockState op := by
    rw [stored]
    exact Store.lockState_restoreUTXOs (apart.present i outpoints got) op
  have mine : held (past crewMoves i) = outpoints := by simp [held, first, got]
  refine apart.moved (fun op member => ?_) (fun j other op member => ?_)
    (Store.isSome_of_set now) (fun ops got op member => ?_) fun nothing => ?_
  · have nothing : held (⟨.store (.restoreUTXOs outpoints), w, answer, w'⟩ :: past crewMoves i) =
        [] := by simp [held, unlocks]
    rw [nothing] at member
    cases member
  · have apartFrom : op ∉ outpoints := fun here =>
      apart.disjoint i j other.symm (mine ▸ here) member
    rw [now, if_neg apartFrom]
    exact apart.taken j op member
  · exact Store.isSome_of_set now op (apart.present i ops got op member)
  · cases nothing.symm.trans got

end Callers

/-! ## Schedules -/

/-- In every schedule of selections whose callers unlock their outpoints at most once, the outpoints
obtained and not yet unlocked are disjoint between callers, none of them is free, and a selection
that returns an error has changed no lock state. -/
theorem selections_apart {ι : Type} [DecidableEq ι] (order : SortSlice largerValue)
    (selection : ι → Selection) (once : ∀ i, (selection i).later.count .unlock ≤ 1)
    (start : World ι) {crew : Crew calls (World ι) ι (Except Err (List String × Int))}
    (schedule : Crew.Reachable step (fun _ _ _ => True)
      (Crew.start (fun i => (selection i).body order) start) crew) :
    (∀ i j, i ≠ j → (held (past crew.moves i)).Disjoint (held (past crew.moves j))) ∧
      (∀ i, ∀ op ∈ held (past crew.moves i), crew.state.store.lockState op ≠ some .free) ∧
      ∀ i err, crew.Returned i (.error err) → ∀ move ∈ past crew.moves i, KeepsLocks move := by
  have initial : (Crew.start (fun i => (selection i).body order) start).Good step
      (fun _ => selecting) (fun crew => SelectionsApart crew.state crew.moves) :=
    ⟨⟨fun _ _ _ _ => nofun, fun _ _ => nofun, fun _ _ => nofun, fun _ _ _ => nofun⟩,
      fun i => (selection i).body_follows order (once i)⟩
  have good := schedule.good (fun _ _ _ => trivial) ?_ initial
  · refine ⟨good.holds.disjoint, good.holds.taken, fun i err returned => ?_⟩
    exact good.holds.untouched i (good.returned returned err rfl)
  · intro crew i op next answer w' apart _ allowed moved _
    cases op with
    | store op =>
      cases op with
      | listFreeUTXOs walletID =>
        obtain ⟨_, -, stored⟩ := store_of_step moved
        have kept (op : String) : w'.store.lockState op = crew.state.store.lockState op := by
          rw [stored]
          rfl
        exact apart.frame rfl rfl kept kept
      | lockUTXOs outpoints => exact apart.lock allowed moved
      | markUTXOsSpent outpoints txHash => exact apart.spend allowed moved
      | restoreUTXOs outpoints => exact apart.unlock allowed.1 allowed.2 moved
      | _ => exact allowed.elim
    | _ => exact allowed.elim

/-! ## A worked schedule -/

/-- Two callers that want the same output; the first one unlocks what it gets. -/
def sampleSelections (i : Fin 2) : Selection :=
  ⟨sampleBTCWallet.id, 1000, if i = firstCaller then [.unlock] else [.markSpent "0x02"]⟩

/-- Both list the free output before the first one locks it. -/
def sampleSelectionSchedule :
    Crew calls (World (Fin 2)) (Fin 2) (Except Err (List String × Int)) :=
  (Crew.start (fun i => (sampleSelections i).body stableOrder)
    { store := { utxos := Table.empty.put (sampleUTXO "5000" '0') } }).play
      (scripted ([firstCaller, secondCaller, firstCaller, secondCaller].map fun i => (i, {})))

/-- The second caller is refused, and the output is held by the first one only. -/
theorem selections_apart_sample :
    held (past sampleSelectionSchedule.moves firstCaller) = [(sampleUTXO "5000" '0').outpoint] ∧
      held (past sampleSelectionSchedule.moves secondCaller) = [] ∧
      sampleSelectionSchedule.state.store.lockState (sampleUTXO "5000" '0').outpoint ≠ some .free ∧
      ∃ err, sampleSelectionSchedule.Returned secondCaller (.error err) ∧
        ∀ move ∈ past sampleSelectionSchedule.moves secondCaller, KeepsLocks move := by
  have schedule : Crew.Reachable step (fun _ _ _ => True)
      (Crew.start (fun i => (sampleSelections i).body stableOrder)
        { store := { utxos := Table.empty.put (sampleUTXO "5000" '0') } })
      sampleSelectionSchedule :=
    scripted_reachable (Crew.admitsAll_of_true _ _)
  obtain ⟨-, taken, kept⟩ := selections_apart stableOrder sampleSelections (by decide) _ schedule
  have mine : held (past sampleSelectionSchedule.moves firstCaller) =
      [(sampleUTXO "5000" '0').outpoint] := by decide +kernel
  refine ⟨mine, by decide +kernel, taken firstCaller _ (by rw [mine]; exact List.mem_cons_self), ?_⟩
  exact ⟨_, rfl, kept secondCaller _ rfl⟩

end WalletManagement
