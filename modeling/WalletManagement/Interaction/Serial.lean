import WalletManagement.Interaction.Blocks
import Mathlib.Logic.Function.Basic

/-!
# Serial schedules

Threads of block programs on one shared state, each of whose outermost blocks takes effect at once:
all of it when its body succeeds, and nothing when it fails. A block inside another one is part of
it. This is what a lock around the outermost blocks is for; a module that has such a lock shows that
its interleavings reach what a serial schedule reaches.

The other half of the module is about one program on its own: `Reaches` says what is left of it
after some calls, and `Along` which calls it makes in which states.
-/

namespace Interaction

namespace Program

variable {S S' : Signature} {α β σ τ : Type} {step : Transition S σ}

/-- Sequences associate. -/
theorem bind_assoc {γ : Type} (program : Program S α) (next : α → Program S β)
    (last : β → Program S γ) :
    (program >>= next) >>= last = program >>= fun value => next value >>= last := by
  induction program with
  | done value => rfl
  | call op rest ih =>
    show Program.call op _ = Program.call op _
    congr 1
    funext answer
    exact ih answer

/-- A sequence that ends with the value of its first part. -/
theorem bind_done (program : Program S α) : (program >>= Program.done) = program := by
  induction program with
  | done value => rfl
  | call op rest ih =>
    show Program.call op _ = Program.call op _
    congr 1
    funext answer
    exact ih answer

/-- What is left of a program after some of its calls, and the state then. -/
inductive Reaches (step : Transition S σ) (program : Program S α) (s : σ) :
    Program S α → σ → Prop where
  | start : Reaches step program s program s
  | call {op : S.Op} {next : S.Ans op → Program S α} {answer : S.Ans op} {s' s'' : σ}
    (before : Reaches step program s (.call op next) s') (moved : step op s' answer s'') :
    Reaches step program s (next answer) s''

/-- The program has run when what is left of it has. -/
theorem Reaches.exec {program rest : Program S α} {s s' s'' : σ} {value : α}
    (reaches : Reaches step program s rest s') (execution : rest.Exec step s' value s'') :
    program.Exec step s value s'' := by
  induction reaches with
  | start => exact execution
  | call _ moved ih => exact ih ⟨_, _, moved, execution⟩

/-- Every call that the program makes along an execution satisfies a condition when it is made. -/
def Along (step : Transition S σ) (ok : S.Op → σ → Prop) : Program S α → σ → Prop
  | .done _, _ => True
  | .call op next, s => ok op s ∧ ∀ answer s', step op s answer s' → (next answer).Along step ok s'

/-- A sequence makes such calls when its first part does, and its second part wherever the first
ends. -/
theorem Along.bind {ok : S.Op → σ → Prop} {program : Program S α} {next : α → Program S β} {s : σ}
    (first : program.Along step ok s)
    (second : ∀ value s', program.Exec step s value s' → (next value).Along step ok s') :
    (program >>= next).Along step ok s := by
  induction program generalizing s with
  | done value => exact second value s ⟨rfl, rfl⟩
  | call op rest ih =>
    refine ⟨first.1, fun answer s' moved => ?_⟩
    exact ih answer (first.2 answer s' moved) fun value s'' execution =>
      second value s'' ⟨answer, s', moved, execution⟩

/-- What is left of such a program is one. -/
theorem Along.reaches {ok : S.Op → σ → Prop} {program rest : Program S α} {s s' : σ}
    (along : program.Along step ok s) (reaches : Reaches step program s rest s') :
    rest.Along step ok s' := by
  induction reaches with
  | start => exact along
  | call _ moved ih => exact ih.2 _ _ moved

/-- Make every call of the program a call of another signature with the same answers. -/
def embed (into : S.Op → S'.Op) (back : (op : S.Op) → S'.Ans (into op) → S.Ans op) :
    Program S α → Program S' α
  | .done value => .done value
  | .call op next => .call (into op) fun answer => (next (back op answer)).embed into back

/-- Replace every call by a program of another signature. -/
def expand (impl : (op : S.Op) → Program S' (S.Ans op)) : Program S α → Program S' α
  | .done value => .done value
  | .call op next => impl op >>= fun answer => (next answer).expand impl

end Program

/-! ## Blocks inside a block -/

variable {S : Signature} {E α β σ ι : Type}

/-- Blocks that are part of the block around them: they open and close without a trace. -/
def nestedBrackets (E : Type) (step : Transition S σ) : Brackets S E σ where
  step := step
  opens s answer s' := answer = .ok () ∧ s' = s
  closes s failure err s' := err = failure ∧ s' = s

/-- The outcome of a block whose closing returns the error of its body. -/
theorem closedWith_errorOf (outcome : Except E α) :
    closedWith outcome (errorOf outcome) = outcome := by
  cases outcome <;> rfl

/-- A block that is part of another one runs its body. -/
theorem Block.exec_nested {step : Transition S σ} {body : Block S E (Except E β)}
    {next : Except E β → Block S E α} {s s' : σ} {value : α} :
    (Block.inTx body next).Exec (nestedBrackets E step) s value s' ↔
      ∃ outcome middle, body.Exec (nestedBrackets E step) s outcome middle ∧
        (next outcome).Exec (nestedBrackets E step) middle value s' := by
  constructor
  · rintro (⟨err, middle, ⟨refused, -⟩, -⟩ | ⟨opened, outcome, last, err, middle, ⟨-, rfl⟩, inside,
      ⟨rfl, rfl⟩, rest⟩)
    · cases refused
    · rw [closedWith_errorOf] at rest
      exact ⟨outcome, _, inside, rest⟩
  · rintro ⟨outcome, middle, inside, rest⟩
    refine .inr ⟨s, outcome, middle, errorOf outcome, middle, ⟨rfl, rfl⟩, inside, ⟨rfl, rfl⟩, ?_⟩
    rwa [closedWith_errorOf]

/-- More calls, and the blocks around them, have more executions. -/
theorem Block.exec_nested_mono {step step' : Transition S σ}
    (larger : ∀ op s answer s', step op s answer s' → step' op s answer s')
    {program : Block S E α} {s s' : σ} {value : α}
    (execution : program.Exec (nestedBrackets E step) s value s') :
    program.Exec (nestedBrackets E step') s value s' := by
  induction program generalizing s s' with
  | done _ => exact execution
  | call op next ih =>
    obtain ⟨answer, middle, moved, rest⟩ := execution
    exact ⟨answer, middle, larger op s answer middle moved, ih answer rest⟩
  | inTx body next body_ih ih =>
    obtain ⟨outcome, middle, inside, rest⟩ := Block.exec_nested.mp execution
    exact Block.exec_nested.mpr ⟨outcome, middle, body_ih inside, ih outcome rest⟩

/-- A program without blocks. -/
def Block.ofProgram : Program S α → Block S E α
  | .done value => .done value
  | .call op next => .call op fun answer => .ofProgram (next answer)

/-- A program without blocks runs as it is. -/
theorem Block.exec_ofProgram {brackets : Brackets S E σ} {program : Program S α} {s s' : σ}
    {value : α} : (Block.ofProgram program).Exec brackets s value s' ↔
      program.Exec brackets.step s value s' := by
  induction program generalizing s with
  | done _ => exact Iff.rfl
  | call op next ih =>
    constructor
    · rintro ⟨answer, middle, moved, rest⟩
      exact ⟨answer, middle, moved, (ih answer).mp rest⟩
    · rintro ⟨answer, middle, moved, rest⟩
      exact ⟨answer, middle, moved, (ih answer).mpr rest⟩

/-- What an outermost block does: it takes back everything when its body fails. -/
def AllOrNothing (step : Transition S σ) (body : Block S E (Except E α)) (s : σ)
    (outcome : Except E α) (s' : σ) : Prop :=
  ∃ last, body.Exec (nestedBrackets E step) s outcome last ∧
    s' = match outcome with
      | .ok _ => last
      | .error _ => s

/-- The next move of a program: a call, or an outermost block to its end. -/
inductive Block.Moves (step : Transition S σ) : Block S E α → σ → Block S E α → σ → Prop where
  | call {op : S.Op} {next : S.Ans op → Block S E α} {answer : S.Ans op} {s s' : σ}
    (moved : step op s answer s') : Moves step (.call op next) s (next answer) s'
  | inTx {β : Type} {body : Block S E (Except E β)} {next : Except E β → Block S E α}
    {outcome : Except E β} {s s' : σ} (ran : AllOrNothing step body s outcome s') :
    Moves step (.inTx body next) s (next outcome) s'

/-- More calls make more moves. -/
theorem Block.Moves.mono {step step' : Transition S σ}
    (larger : ∀ op s answer s', step op s answer s' → step' op s answer s')
    {program program' : Block S E α} {s s' : σ} (moves : program.Moves step s program' s') :
    program.Moves step' s program' s' := by
  cases moves with
  | call moved => exact .call (larger _ _ _ _ moved)
  | inTx ran =>
    obtain ⟨last, inside, here⟩ := ran
    exact .inTx ⟨last, Block.exec_nested_mono larger inside, here⟩

/-- Every move of the program, to its end, keeps a relation between the states. -/
def Block.Respects (step : Transition S σ) (keeps : σ → σ → Prop) :
    {α : Type} → Block S E α → Prop
  | _, .done _ => True
  | _, .call op next => (∀ s answer s', step op s answer s' → keeps s s') ∧
      ∀ answer, (next answer).Respects step keeps
  | _, .inTx body next => (∀ s outcome s', AllOrNothing step body s outcome s' → keeps s s') ∧
      ∀ outcome, (next outcome).Respects step keeps

/-- One move keeps the relation, and so does what is left. -/
theorem Block.Respects.moves {step : Transition S σ} {keeps : σ → σ → Prop}
    {program program' : Block S E α} {s s' : σ} (respects : program.Respects step keeps)
    (moves : program.Moves step s program' s') : keeps s s' ∧ program'.Respects step keeps := by
  cases moves with
  | call moved => exact ⟨respects.1 _ _ _ moved, respects.2 _⟩
  | inTx ran => exact ⟨respects.1 _ _ _ ran, respects.2 _⟩

/-- A program without blocks keeps a relation that its calls keep. -/
theorem Block.Respects.ofProgram {step : Transition S σ} {keeps : σ → σ → Prop}
    {program : Program S α}
    (calls : program.Calls fun op => ∀ s answer s', step op s answer s' → keeps s s') :
    (Block.ofProgram (E := E) program).Respects step keeps := by
  induction program with
  | done _ => trivial
  | call op next ih => exact ⟨calls.1, fun answer => ih answer (calls.2 answer)⟩

/-! ## Schedules -/

/-- A shared state, and what each thread still has to do. -/
structure Serial (S : Signature) (E σ ι α : Type) where
  state : σ
  rest : ι → Block S E α

namespace Serial

variable [DecidableEq ι]

/-- One thread makes a move. -/
inductive Step (step : Transition S σ) (now : Serial S E σ ι α) : Serial S E σ ι α → Prop where
  | move {i : ι} {program : Block S E α} {s' : σ}
    (moves : (now.rest i).Moves step now.state program s') :
    Step step now ⟨s', Function.update now.rest i program⟩

/-- What a serial schedule reaches. -/
abbrev Reachable (step : Transition S σ) : Serial S E σ ι α → Serial S E σ ι α → Prop :=
  Relation.ReflTransGen (Step step)

/-- More calls reach more. -/
theorem Reachable.mono {step step' : Transition S σ}
    (larger : ∀ op s answer s', step op s answer s' → step' op s answer s')
    {start now : Serial S E σ ι α} (reachable : Reachable step start now) :
    Reachable step' start now := by
  refine Relation.ReflTransGen.mono (fun before after stepped => ?_) _ _ reachable
  obtain ⟨moves⟩ := stepped
  exact .move (moves.mono larger)

end Serial

end Interaction
