import WalletManagement.Interaction.Program
import Mathlib.Logic.Function.Basic

/-!
# Threads with a history

A crew is a family of programs on one shared state, with the moves made so far: each call with the
thread that made it, the state it found and the state it left. A thread that never moves has not
begun, so a family of any size stands for any number of concurrent programs, started at any time.

What a thread does is described by a `Conduct`: which calls it may make after its own moves, what
it may rely on in the state it finds, and what it has done when it returns. A program `Follows` a
conduct by a recursion over its calls, without looking at the other threads. `Crew.Reachable.good`
turns an invariant of the state and the moves that every allowed move keeps into an invariant of
every schedule.
-/

namespace Interaction

variable {S : Signature} {σ ι α β : Type}

/-- A call as it was made: the state it found, its answer, and the state it left. -/
structure Move (S : Signature) (σ : Type) where
  op : S.Op
  before : σ
  answer : S.Ans op
  after : σ

/-- The moves of one thread. -/
def past [DecidableEq ι] (moves : List (ι × Move S σ)) (i : ι) : List (Move S σ) :=
  moves.filterMap fun entry => if entry.1 = i then some entry.2 else none

section Past

variable [DecidableEq ι] (moves : List (ι × Move S σ)) {i j : ι} (move : Move S σ)

@[simp] theorem past_nil (i : ι) : past ([] : List (ι × Move S σ)) i = [] := rfl

@[simp] theorem past_cons_self : past ((i, move) :: moves) i = move :: past moves i := by
  simp [past]

@[simp] theorem past_cons_of_ne (other : j ≠ i) : past ((j, move) :: moves) i = past moves i := by
  simp [past, other]

/-- The moves of a thread are moves of the crew. -/
theorem mem_past {moves : List (ι × Move S σ)} {move : Move S σ} :
    move ∈ past moves i ↔ (i, move) ∈ moves := by
  simp [past]

/-- A move that does not change what its thread has done changes it for no thread. -/
theorem past_cons_congr (view : List (Move S σ) → β) {move : Move S σ}
    (same : view (move :: past moves i) = view (past moves i)) (j : ι) :
    view (past ((i, move) :: moves) j) = view (past moves j) := by
  by_cases here : i = j
  · subst here
    rw [past_cons_self, same]
  · rw [past_cons_of_ne _ _ here]

/-- After a move that ends something for its thread, it is still there only for other threads. -/
theorem past_cons_of_none (view : List (Move S σ) → Option β) {move : Move S σ} {value : β}
    (ends : view (move :: past moves i) = none)
    (there : view (past ((i, move) :: moves) j) = some value) :
    i ≠ j ∧ view (past moves j) = some value := by
  by_cases here : i = j
  · subst here
    rw [past_cons_self, ends] at there
    cases there
  · rw [past_cons_of_ne _ _ here] at there
    exact ⟨here, there⟩

/-- A move of another kind adds nothing to the moves of a kind. -/
theorem any_past_cons_of_false {kind : Move S σ → Bool} {move : Move S σ}
    (other : kind move = false) (i j : ι) :
    (past ((i, move) :: moves) j).any kind = (past moves j).any kind :=
  past_cons_congr moves (List.any · kind) (by rw [List.any_cons, other, Bool.false_or]) j

end Past

/-- Nothing is left to do. -/
def Program.isDone : Program S α → Bool
  | .done _ => true
  | .call _ _ => false

/-- The call a program makes next. -/
def Program.nextCall : Program S α → Option S.Op
  | .done _ => none
  | .call op _ => some op

theorem Program.nextCall_eq_some {program : Program S α} {op : S.Op} :
    program.nextCall = some op ↔ ∃ rest, program = .call op rest := by
  cases program with
  | done value => simp [nextCall]
  | call op' rest =>
    constructor
    · intro same
      cases same
      exact ⟨rest, rfl⟩
    · rintro ⟨rest', same⟩
      cases same
      rfl

/-- Some thread has made a move of a kind. -/
def made (kind : Move S σ → Bool) (moves : List (ι × Move S σ)) : Bool :=
  moves.any fun entry => kind entry.2

@[simp] theorem made_cons (kind : Move S σ → Bool) (i : ι) (move : Move S σ)
    (moves : List (ι × Move S σ)) :
    made kind ((i, move) :: moves) = (kind move || made kind moves) := rfl

/-- A move of some thread is in the past of that thread. -/
theorem made_iff [DecidableEq ι] {kind : Move S σ → Bool} {moves : List (ι × Move S σ)} :
    made kind moves = true ↔ ∃ i, (past moves i).any kind = true := by
  simp only [made, List.any_eq_true, Prod.exists, mem_past]

/-- What a view of the moves sees, with the thread that made the move. -/
def tagged (view : Move S σ → Option β) (moves : List (ι × Move S σ)) : List (ι × β) :=
  moves.filterMap fun entry => (view entry.2).map (entry.1, ·)

section Tagged

variable {view : Move S σ → Option β} {moves : List (ι × Move S σ)} {i : ι} {move : Move S σ}

theorem tagged_cons_of_none (unseen : view move = none) :
    tagged view ((i, move) :: moves) = tagged view moves := by
  simp [tagged, unseen]

theorem tagged_cons_of_some {value : β} (seen : view move = some value) :
    tagged view ((i, move) :: moves) = (i, value) :: tagged view moves := by
  simp [tagged, seen]

/-- Nothing that was seen is lost. -/
theorem tagged_subset_cons : tagged view moves ⊆ tagged view ((i, move) :: moves) := by
  cases seen : view move with
  | none => rw [tagged_cons_of_none seen]; exact List.Subset.refl _
  | some value => rw [tagged_cons_of_some seen]; exact List.subset_cons_self _ _

/-- What is seen of the moves of a thread. -/
theorem mem_tagged [DecidableEq ι] {value : β} :
    (i, value) ∈ tagged view moves ↔ value ∈ (past moves i).filterMap view := by
  simp only [tagged, List.mem_filterMap, Option.map_eq_some_iff, Prod.mk.injEq, Prod.exists,
    mem_past]
  constructor
  · rintro ⟨j, move, member, found, seen, rfl, rfl⟩
    exact ⟨move, member, seen⟩
  · rintro ⟨move, member, seen⟩
    exact ⟨i, move, member, value, seen, rfl, rfl⟩

end Tagged

/-! ## Following a conduct -/

/-- What a thread may do, by the moves it has made. -/
structure Conduct (S : Signature) (σ α : Type) where
  /-- The calls it may make. -/
  allows : List (Move S σ) → S.Op → Prop
  /-- What it may rely on. -/
  knows : List (Move S σ) → σ → Prop := fun _ _ => True
  /-- What it may return. -/
  returns : α → List (Move S σ) → Prop := fun _ _ => True

namespace Program

/-- A program behaves as a conduct says, after some moves: every call is allowed, and what follows
a transition behaves so after that move. -/
def Follows (step : Transition S σ) (conduct : Conduct S σ α) :
    Program S α → List (Move S σ) → Prop
  | .done value, moves => conduct.returns value moves
  | .call op next, moves => conduct.allows moves op ∧ ∀ s answer s', conduct.knows moves s →
      step op s answer s' → (next answer).Follows step conduct (⟨op, s, answer, s'⟩ :: moves)

namespace Follows

variable {step : Transition S σ} {conduct : Conduct S σ α}

/-- A sequence follows a conduct when its first part follows it up to a point from which the second
part does. -/
theorem bind (middle : β → List (Move S σ) → Prop) {program : Program S β}
    {next : β → Program S α} {moves : List (Move S σ)}
    (first : program.Follows step ⟨conduct.allows, conduct.knows, middle⟩ moves)
    (second : ∀ value moves, middle value moves → (next value).Follows step conduct moves) :
    (program >>= next).Follows step conduct moves := by
  induction program generalizing moves with
  | done value => exact second value moves first
  | call op rest ih =>
    refine ⟨first.1, fun s answer s' knows moved => ?_⟩
    exact ih answer (first.2 s answer s' knows moved)

/-- A call followed by a program that follows the conduct after each of its transitions. -/
theorem perform_bind {op : S.Op} {next : S.Ans op → Program S α} {moves : List (Move S σ)}
    (allowed : conduct.allows moves op)
    (rest : ∀ s answer s', conduct.knows moves s → step op s answer s' →
      (next answer).Follows step conduct (⟨op, s, answer, s'⟩ :: moves)) :
    (Program.perform op >>= next).Follows step conduct moves := ⟨allowed, rest⟩

/-- A program whose calls are all allowed in a phase that they do not end. -/
theorem of_phase (phase : List (Move S σ) → Prop) {program : Program S α}
    {allowed : S.Op → Prop} {moves : List (Move S σ)} (calls : program.Calls allowed)
    (here : phase moves)
    (allows : ∀ moves op, phase moves → allowed op → conduct.allows moves op)
    (stays : ∀ moves op s answer s', phase moves → allowed op →
      phase (⟨op, s, answer, s'⟩ :: moves))
    (returns : ∀ value moves, phase moves → conduct.returns value moves) :
    program.Follows step conduct moves := by
  induction program generalizing moves with
  | done value => exact returns value moves here
  | call op next ih =>
    refine ⟨allows moves op here calls.1, fun s answer s' _ _ => ?_⟩
    exact ih answer (calls.2 answer) (stays moves op s answer s' here calls.1)

/-- A program whose calls are all allowed, whatever was done before. -/
theorem of_calls {program : Program S α} {allowed : S.Op → Prop} (calls : program.Calls allowed)
    (always : ∀ moves op, allowed op → conduct.allows moves op)
    (returns : ∀ value moves, conduct.returns value moves) (moves : List (Move S σ)) :
    program.Follows step conduct moves :=
  .of_phase (fun _ => True) calls trivial (fun moves op _ allowed => always moves op allowed)
    (fun _ _ _ _ _ _ _ => trivial) fun value moves _ => returns value moves

/-- A complete execution keeps an invariant that every allowed call keeps. -/
theorem exec {inv : σ → Prop} {program : Program S α} {moves : List (Move S σ)} {s s' : σ}
    {value : α} (follows : program.Follows step conduct moves)
    (relies : ∀ moves s, inv s → conduct.knows moves s)
    (keeps : ∀ moves op s answer s', inv s → conduct.allows moves op → step op s answer s' → inv s')
    (holds : inv s) (execution : program.Exec step s value s') : inv s' := by
  induction program generalizing moves s with
  | done _ =>
    obtain ⟨-, rfl⟩ := execution
    exact holds
  | call op next ih =>
    obtain ⟨answer, middle, moved, rest⟩ := execution
    have later := follows.2 s answer middle (relies moves s holds) moved
    exact ih answer later (keeps moves op s answer middle holds follows.1 moved) rest

end Follows

end Program

/-! ## Crews -/

/-- A shared state, what each thread still has to do, and the moves made so far, the last one
first. -/
structure Crew (S : Signature) (σ ι α : Type) where
  /-- The shared state. -/
  state : σ
  /-- The rest of each program. -/
  rest : ι → Program S α
  /-- The moves of all threads. -/
  moves : List (ι × Move S σ)

namespace Crew

/-- The threads in the order in which they have moved. -/
def turns (crew : Crew S σ ι α) : List ι := (crew.moves.map Prod.fst).reverse

/-- A thread has returned. -/
def Returned (crew : Crew S σ ι α) (i : ι) (value : α) : Prop := crew.rest i = .done value

/-- A thread has returned something. -/
def Finished (crew : Crew S σ ι α) (i : ι) : Prop := (crew.rest i).isDone = true

instance (crew : Crew S σ ι α) (i : ι) : Decidable (crew.Finished i) :=
  inferInstanceAs (Decidable ((crew.rest i).isDone = true))

theorem returned_of_finished {crew : Crew S σ ι α} {i : ι} (finished : crew.Finished i) :
    ∃ value, crew.Returned i value := by
  unfold Finished at finished
  unfold Returned
  cases rest : crew.rest i with
  | done value => exact ⟨value, rfl⟩
  | call op next =>
    rw [rest] at finished
    cases finished

/-- A thread with a call to make has not returned. -/
theorem not_finished_of_call {crew : Crew S σ ι α} {i : ι} {op : S.Op}
    {next : S.Ans op → Program S α} (waiting : crew.rest i = .call op next) :
    ¬crew.Finished i := by
  simp [Finished, waiting, Program.isDone]

/-- A condition on the next move of a crew. -/
abbrev Guard (S : Signature) (σ ι α : Type) : Type := Crew S σ ι α → ι → Move S σ → Prop

variable [DecidableEq ι]

/-- The crew after a move, with what its thread still has to do. -/
def advance (crew : Crew S σ ι α) (i : ι) (move : Move S σ) (rest : Program S α) : Crew S σ ι α :=
  ⟨move.after, Function.update crew.rest i rest, (i, move) :: crew.moves⟩

section Advance

variable (crew : Crew S σ ι α) {i j : ι} (move : Move S σ) (rest : Program S α)

@[simp] theorem advance_state : (crew.advance i move rest).state = move.after := rfl

@[simp] theorem advance_moves : (crew.advance i move rest).moves = (i, move) :: crew.moves := rfl

@[simp] theorem advance_turns : (crew.advance i move rest).turns = crew.turns ++ [i] := by
  simp [turns]

@[simp] theorem advance_rest_self : (crew.advance i move rest).rest i = rest := by simp [advance]

@[simp] theorem advance_rest_of_ne (other : j ≠ i) :
    (crew.advance i move rest).rest j = crew.rest j := by simp [advance, other]

/-- The move of another thread does not end a thread. -/
@[simp] theorem finished_advance_of_ne (other : j ≠ i) :
    (crew.advance i move rest).Finished j ↔ crew.Finished j := by
  rw [Finished, advance_rest_of_ne crew move rest other, Finished]

end Advance

/-- A thread makes its next call, if the guard admits the move. -/
inductive Step (step : ι → Transition S σ) (admits : Guard S σ ι α) (crew : Crew S σ ι α) :
    Crew S σ ι α → Prop where
  | call {i : ι} {op : S.Op} {next : S.Ans op → Program S α} {answer : S.Ans op} {s' : σ}
    (waiting : crew.rest i = .call op next) (moved : step i op crew.state answer s')
    (admitted : admits crew i ⟨op, crew.state, answer, s'⟩) :
    Step step admits crew (crew.advance i ⟨op, crew.state, answer, s'⟩ (next answer))

/-- The crews a schedule reaches. -/
abbrev Reachable (step : ι → Transition S σ) (admits : Guard S σ ι α) :
    Crew S σ ι α → Crew S σ ι α → Prop :=
  Relation.ReflTransGen (Step step admits)

/-- The crew that has not begun. -/
def start (body : ι → Program S α) (s : σ) : Crew S σ ι α := ⟨s, body, []⟩

/-- A thread has made no call yet. -/
def Waits (crew : Crew S σ ι α) (i : ι) : Prop := past crew.moves i = []

/-- The invariant holds, and every thread follows its conduct for what it still has to do. -/
structure Good (step : ι → Transition S σ) (conduct : ι → Conduct S σ α)
    (inv : Crew S σ ι α → Prop) (crew : Crew S σ ι α) : Prop where
  /-- The invariant. -/
  holds : inv crew
  /-- The threads. -/
  follows : ∀ i, (crew.rest i).Follows (step i) (conduct i) (past crew.moves i)

variable {step : ι → Transition S σ} {admits : Guard S σ ι α} {conduct : ι → Conduct S σ α}
  {inv : Crew S σ ι α → Prop} {crew crew' : Crew S σ ι α}

/-- A thread of a good crew returns what its conduct says. -/
theorem Good.returned (good : crew.Good step conduct inv) {i : ι} {value : α}
    (returned : crew.Returned i value) : (conduct i).returns value (past crew.moves i) := by
  have follows := good.follows i
  rwa [show crew.rest i = .done value from returned] at follows

/-- One move keeps a crew good. -/
theorem Good.kept (relies : ∀ crew i, inv crew → (conduct i).knows (past crew.moves i) crew.state)
    (keeps : ∀ (crew : Crew S σ ι α) i op next answer s', inv crew → crew.rest i = .call op next →
      (conduct i).allows (past crew.moves i) op → step i op crew.state answer s' →
      admits crew i ⟨op, crew.state, answer, s'⟩ →
      inv (crew.advance i ⟨op, crew.state, answer, s'⟩ (next answer)))
    (good : crew.Good step conduct inv) (moved : Step step admits crew crew') :
    crew'.Good step conduct inv := by
  obtain @⟨i, op, next, answer, s', waiting, moved, admitted⟩ := moved
  have own := good.follows i
  rw [waiting] at own
  refine ⟨keeps crew i op next answer s' good.holds waiting own.1 moved admitted, fun j => ?_⟩
  by_cases same : j = i
  · subst same
    simp only [advance_rest_self, advance_moves, past_cons_self]
    exact own.2 crew.state answer s' (relies crew j good.holds) moved
  · simp only [advance_rest_of_ne _ _ _ same, advance_moves, past_cons_of_ne _ _ (Ne.symm same)]
    exact good.follows j

/-- Every schedule keeps a crew good. -/
theorem Reachable.good
    (relies : ∀ crew i, inv crew → (conduct i).knows (past crew.moves i) crew.state)
    (keeps : ∀ (crew : Crew S σ ι α) i op next answer s', inv crew → crew.rest i = .call op next →
      (conduct i).allows (past crew.moves i) op → step i op crew.state answer s' →
      admits crew i ⟨op, crew.state, answer, s'⟩ →
      inv (crew.advance i ⟨op, crew.state, answer, s'⟩ (next answer)))
    (reachable : Reachable step admits crew crew') (good : crew.Good step conduct inv) :
    crew'.Good step conduct inv := by
  induction reachable with
  | refl => exact good
  | tail _ moved ih => exact ih.kept relies keeps moved

/-- Every schedule of programs that make only allowed calls keeps an invariant that the allowed
calls keep. -/
theorem Reachable.inv_of_calls (inv : Crew S σ ι α → Prop) {body : ι → Program S α}
    {allowed : ι → S.Op → Prop} {s : σ} (calls : ∀ i, (body i).Calls (allowed i))
    (keeps : ∀ (crew : Crew S σ ι α) i op next answer s', inv crew → crew.rest i = .call op next →
      allowed i op → step i op crew.state answer s' →
      admits crew i ⟨op, crew.state, answer, s'⟩ →
      inv (crew.advance i ⟨op, crew.state, answer, s'⟩ (next answer)))
    (initial : inv (start body s)) (reachable : Reachable step admits (start body s) crew) :
    inv crew := by
  have good : (start body s).Good step (fun i => { allows := fun _ => allowed i }) inv :=
    ⟨initial, fun i => .of_calls (calls i) (fun _ _ allowed => allowed) (fun _ _ => trivial) _⟩
  exact (reachable.good (fun _ _ _ => trivial) keeps good).holds

/-! ## Computed schedules -/

/-- One turn of a schedule: a thread and the function that answers its call. -/
abbrev Turn (S : Signature) (σ ι : Type) : Type := ι × ((op : S.Op) → σ → S.Ans op × σ)

/-- The crew after one turn; a thread that has returned does nothing. -/
def turn (crew : Crew S σ ι α) (next : Turn S σ ι) : Crew S σ ι α :=
  match crew.rest next.1 with
  | .done _ => crew
  | .call op rest =>
    let answer := next.2 op crew.state
    crew.advance next.1 ⟨op, crew.state, answer.1, answer.2⟩ (rest answer.1)

/-- The crew after a list of turns. -/
def play (crew : Crew S σ ι α) (turns : List (Turn S σ ι)) : Crew S σ ι α := turns.foldl turn crew

/-- The guard admits the move of a turn. -/
def Admits (admits : Guard S σ ι α) (crew : Crew S σ ι α) (next : Turn S σ ι) : Prop :=
  match crew.rest next.1 with
  | .done _ => True
  | .call op _ => admits crew next.1
      ⟨op, crew.state, (next.2 op crew.state).1, (next.2 op crew.state).2⟩

/-- The guard admits every move of a list of turns. -/
def AdmitsAll (admits : Guard S σ ι α) : Crew S σ ι α → List (Turn S σ ι) → Prop
  | _, [] => True
  | crew, next :: rest => crew.Admits admits next ∧ (crew.turn next).AdmitsAll admits rest

instance (admits : Guard S σ ι α) [∀ crew i move, Decidable (admits crew i move)]
    (crew : Crew S σ ι α) (next : Turn S σ ι) : Decidable (crew.Admits admits next) := by
  unfold Admits
  split <;> infer_instance

instance decidableAdmitsAll (admits : Guard S σ ι α)
    [∀ crew i move, Decidable (admits crew i move)] :
    (crew : Crew S σ ι α) → (turns : List (Turn S σ ι)) → Decidable (crew.AdmitsAll admits turns)
  | _, [] => .isTrue trivial
  | crew, next :: rest =>
    have := decidableAdmitsAll admits (crew.turn next) rest
    inferInstanceAs (Decidable (crew.Admits admits next ∧ _))

/-- A list of admitted turns is a schedule, if the answers the guard admits follow the transition
relation. -/
theorem reachable_play_admitted {turns : List (Turn S σ ι)}
    (follows : ∀ next ∈ turns, ∀ (crew : Crew S σ ι α) op,
      admits crew next.1 ⟨op, crew.state, (next.2 op crew.state).1, (next.2 op crew.state).2⟩ →
      step next.1 op crew.state (next.2 op crew.state).1 (next.2 op crew.state).2)
    (admitted : crew.AdmitsAll admits turns) : Reachable step admits crew (crew.play turns) := by
  induction turns generalizing crew with
  | nil => exact .refl
  | cons next rest ih =>
    obtain ⟨here, later⟩ := admitted
    have tail := ih (fun other member => follows other (List.mem_cons_of_mem _ member)) later
    have moves := follows next List.mem_cons_self
    unfold Admits at here
    unfold turn at tail
    show Reachable step admits crew ((crew.turn next).play rest)
    unfold turn
    cases waiting : crew.rest next.1 with
    | done value =>
      rw [waiting] at tail
      exact tail
    | call op rest =>
      rw [waiting] at tail here
      exact .head (.call waiting (moves crew op here) here) tail

/-- A list of turns whose answers follow the transition relation is a schedule. -/
theorem reachable_play {turns : List (Turn S σ ι)}
    (follows : ∀ next ∈ turns, ∀ op s, step next.1 op s (next.2 op s).1 (next.2 op s).2)
    (admitted : crew.AdmitsAll admits turns) : Reachable step admits crew (crew.play turns) :=
  reachable_play_admitted (fun next member crew op _ => follows next member op crew.state) admitted

/-- Without a guard every list of turns is admitted. -/
theorem admitsAll_of_true (crew : Crew S σ ι α) (turns : List (Turn S σ ι)) :
    crew.AdmitsAll (fun _ _ _ => True) turns := by
  induction turns generalizing crew with
  | nil => trivial
  | cons next rest ih =>
    refine ⟨?_, ih _⟩
    unfold Admits
    split <;> trivial

end Crew

end Interaction
