import Mathlib.Logic.Relation

/-!
# Programs over a signature of calls

A program is a tree: it either returns a value or makes one call of its signature and
continues with the answer. A signature gives the calls no meaning; a transition relation
does, and the same program is then read in two ways. `Program.Exec` runs it alone, from its
first call to its value, and `Program.Wlp` is the matching weakest precondition. The module
`Schedule` interleaves the calls of several programs instead.
-/

namespace Interaction

/-- The calls a program can make, each with the type of its answer. -/
structure Signature where
  /-- The calls. -/
  Op : Type
  /-- The answers to a call. -/
  Ans : Op → Type

/-- A program: a value, or a call followed by a program for each of its answers. -/
inductive Program (S : Signature) (α : Type) : Type where
  | done (value : α)
  | call (op : S.Op) (next : S.Ans op → Program S α)

/-- The meaning of the calls on a state: which answer and which state may follow. -/
abbrev Transition (S : Signature) (σ : Type) : Type :=
  (op : S.Op) → σ → S.Ans op → σ → Prop

namespace Program

variable {S : Signature} {α β γ σ : Type}

/-- Continue a program with its value. -/
def bind : Program S α → (α → Program S β) → Program S β
  | .done value, next => next value
  | .call op rest, next => .call op fun answer => (rest answer).bind next

instance : Monad (Program S) where
  pure := .done
  bind := .bind

/-- The program of one call, returning its answer. -/
def perform (op : S.Op) : Program S (S.Ans op) := .call op .done

@[simp] theorem pure_eq (value : α) : (pure value : Program S α) = .done value := rfl

@[simp] theorem done_bind (value : α) (next : α → Program S β) :
    (Program.done value >>= next) = next value := rfl

@[simp] theorem call_bind (op : S.Op) (rest : S.Ans op → Program S α) (next : α → Program S β) :
    (Program.call op rest >>= next) = .call op fun answer => rest answer >>= next := rfl

/-! ## Running alone -/

/-- `Exec step program s value s'`: run alone from `s`, the program can return `value` in
`s'`. -/
def Exec (step : Transition S σ) : Program S α → σ → α → σ → Prop
  | .done value, s, value', s' => value = value' ∧ s = s'
  | .call op next, s, value', s' =>
    ∃ answer middle, step op s answer middle ∧ (next answer).Exec step middle value' s'

/-- The weakest precondition of a program run alone: every value it can return satisfies the
postcondition in the state it returns in. -/
def Wlp (step : Transition S σ) : Program S α → (α → σ → Prop) → σ → Prop
  | .done value, post, s => post value s
  | .call op next, post, s =>
    ∀ answer s', step op s answer s' → (next answer).Wlp step post s'

variable {step : Transition S σ}

/-- The precondition of a sequence is the precondition of its first part for that of its
second. -/
theorem wlp_bind (program : Program S α) (next : α → Program S β) (post : β → σ → Prop) (s : σ) :
    (program >>= next).Wlp step post s ↔
      program.Wlp step (fun value s' => (next value).Wlp step post s') s := by
  induction program generalizing s with
  | done value => rfl
  | call op rest ih =>
    constructor
    · intro h answer s' moved
      exact (ih answer s').mp (h answer s' moved)
    · intro h answer s' moved
      exact (ih answer s').mpr (h answer s' moved)

/-- A weaker postcondition has a weaker precondition. -/
theorem Wlp.mono {program : Program S α} {post post' : α → σ → Prop} {s : σ}
    (h : program.Wlp step post s) (weaker : ∀ value s', post value s' → post' value s') :
    program.Wlp step post' s := by
  induction program generalizing s with
  | done value => exact weaker value s h
  | call op next ih => exact fun answer s' moved => ih answer (h answer s' moved)

/-- A program verified before its continuation, which is verified from every postcondition
of the first. -/
theorem Wlp.bind {program : Program S α} {next : α → Program S β} {middle : α → σ → Prop}
    {post : β → σ → Prop} {s : σ} (first : program.Wlp step middle s)
    (second : ∀ value s', middle value s' → (next value).Wlp step post s') :
    (program >>= next).Wlp step post s :=
  (wlp_bind program next post s).mpr (first.mono second)

/-- A call is verified by verifying what follows each of its transitions. -/
theorem Wlp.perform_bind {op : S.Op} {next : S.Ans op → Program S α} {post : α → σ → Prop} {s : σ}
    (rest : ∀ answer s', step op s answer s' → (next answer).Wlp step post s') :
    (perform op >>= next).Wlp step post s := rest

/-- The weakest precondition speaks about exactly the executions. -/
theorem wlp_iff_exec (program : Program S α) (post : α → σ → Prop) (s : σ) :
    program.Wlp step post s ↔ ∀ value s', program.Exec step s value s' → post value s' := by
  induction program generalizing s with
  | done value =>
    constructor
    · rintro h _ _ ⟨rfl, rfl⟩
      exact h
    · intro h
      exact h value s ⟨rfl, rfl⟩
  | call op next ih =>
    constructor
    · rintro h value s' ⟨answer, middle, moved, rest⟩
      exact (ih answer middle).mp (h answer middle moved) value s' rest
    · intro h answer middle moved
      exact (ih answer middle).mpr fun value s' rest => h value s' ⟨answer, middle, moved, rest⟩

/-- An execution of a sequence is an execution of its first part and one of its second. -/
theorem exec_bind (program : Program S α) (next : α → Program S β) {s s' : σ} {value : β} :
    (program >>= next).Exec step s value s' ↔
      ∃ first middle, program.Exec step s first middle ∧
        (next first).Exec step middle value s' := by
  induction program generalizing s with
  | done first =>
    constructor
    · intro rest
      exact ⟨first, s, ⟨rfl, rfl⟩, rest⟩
    · rintro ⟨_, _, ⟨rfl, rfl⟩, rest⟩
      exact rest
  | call op continues ih =>
    constructor
    · rintro ⟨answer, between, moved, rest⟩
      obtain ⟨first, middle, started, ended⟩ := (ih answer).mp rest
      exact ⟨first, middle, ⟨answer, between, moved, started⟩, ended⟩
    · rintro ⟨first, middle, ⟨answer, between, moved, started⟩, ended⟩
      exact ⟨answer, between, moved, (ih answer).mpr ⟨first, middle, started, ended⟩⟩

/-- An execution that starts with a call goes on after one of its transitions. -/
theorem exec_perform_bind {op : S.Op} {next : S.Ans op → Program S α} {s s' : σ} {value : α} :
    (perform op >>= next).Exec step s value s' ↔
      ∃ answer middle, step op s answer middle ∧ (next answer).Exec step middle value s' := Iff.rfl

/-- An execution is an execution under every larger transition relation. -/
theorem Exec.mono {step' : Transition S σ} (larger : ∀ op s answer s', step op s answer s' →
    step' op s answer s') {program : Program S α} {s s' : σ} {value : α}
    (execution : program.Exec step s value s') : program.Exec step' s value s' := by
  induction program generalizing s with
  | done _ => exact execution
  | call op next ih =>
    obtain ⟨answer, middle, moved, rest⟩ := execution
    exact ⟨answer, middle, larger op s answer middle moved, ih answer rest⟩

/-- A call with one answer that leaves the state alone. -/
theorem exec_read {op : S.Op} {next : S.Ans op → Program S α} {s s' : σ} {answer : S.Ans op}
    {value : α} (reads : ∀ given middle, step op s given middle ↔ given = answer ∧ middle = s) :
    (perform op >>= next).Exec step s value s' ↔ (next answer).Exec step s value s' := by
  constructor
  · rintro ⟨given, middle, moved, rest⟩
    obtain ⟨rfl, rfl⟩ := (reads given middle).mp moved
    exact rest
  · intro rest
    exact ⟨answer, s, (reads answer s).mpr ⟨rfl, rfl⟩, rest⟩

/-! ## The calls of a program -/

/-- Every call the program can make, whatever the answers, satisfies a condition. -/
def Calls (allowed : S.Op → Prop) : Program S α → Prop
  | .done _ => True
  | .call op next => allowed op ∧ ∀ answer, (next answer).Calls allowed

@[simp] theorem calls_perform_bind (allowed : S.Op → Prop) (op : S.Op)
    (next : S.Ans op → Program S α) :
    (perform op >>= next).Calls allowed ↔ allowed op ∧ ∀ answer, (next answer).Calls allowed :=
  Iff.rfl

/-- A sequence makes the calls of its parts. -/
theorem Calls.bind {allowed : S.Op → Prop} {program : Program S α} {next : α → Program S β}
    (first : program.Calls allowed) (second : ∀ value, (next value).Calls allowed) :
    (program >>= next).Calls allowed := by
  induction program with
  | done value => exact second value
  | call op rest ih => exact ⟨first.1, fun answer => ih answer (first.2 answer)⟩

/-- A weaker condition on the calls. -/
theorem Calls.mono {allowed allowed' : S.Op → Prop} {program : Program S α}
    (calls : program.Calls allowed) (weaker : ∀ op, allowed op → allowed' op) :
    program.Calls allowed' := by
  induction program with
  | done value => trivial
  | call op next ih => exact ⟨weaker op calls.1, fun answer => ih answer (calls.2 answer)⟩

/-! ## Computed runs -/

/-- Run a program with a function that answers every call. -/
def run (handle : (op : S.Op) → σ → S.Ans op × σ) : Program S α → σ → α × σ
  | .done value, s => (value, s)
  | .call op next, s => (next (handle op s).1).run handle (handle op s).2

/-- A sequence runs its parts one after the other. -/
theorem run_bind (handle : (op : S.Op) → σ → S.Ans op × σ) (program : Program S α)
    (next : α → Program S β) (s : σ) :
    (program >>= next).run handle s =
      (next (program.run handle s).1).run handle (program.run handle s).2 := by
  induction program generalizing s with
  | done value => rfl
  | call op rest ih => exact ih _ _

/-- A run whose answers to the calls of the program follow the transition relation is an
execution. -/
theorem Calls.exec_run {handle : (op : S.Op) → σ → S.Ans op × σ} {allowed : S.Op → Prop}
    {program : Program S α} (calls : program.Calls allowed)
    (follows : ∀ op s, allowed op → step op s (handle op s).1 (handle op s).2) (s : σ) :
    program.Exec step s (program.run handle s).1 (program.run handle s).2 := by
  induction program generalizing s with
  | done value => exact ⟨rfl, rfl⟩
  | call op next ih => exact ⟨_, _, follows op s calls.1, ih _ (calls.2 _) _⟩

/-- A run whose answers all follow the transition relation is an execution. -/
theorem exec_run {handle : (op : S.Op) → σ → S.Ans op × σ}
    (follows : ∀ op s, step op s (handle op s).1 (handle op s).2) (program : Program S α) (s : σ) :
    program.Exec step s (program.run handle s).1 (program.run handle s).2 := by
  induction program generalizing s with
  | done value => exact ⟨rfl, rfl⟩
  | call op next ih => exact ⟨_, _, follows op s, ih _ _⟩

end Program

/-! ## Runs of complete calls -/

section Runs

variable {S : Signature} {σ L α : Type}

/-- One complete, non-overlapping execution of the program of some label that the guard
admits in the state before it. -/
def Completes (step : L → Transition S σ) (body : L → Program S α) (guard : L → σ → Prop)
    (s s' : σ) : Prop :=
  ∃ label value, guard label s ∧ (body label).Exec (step label) s value s'

/-- Any number of complete executions, one after the other. -/
abbrev Runs (step : L → Transition S σ) (body : L → Program S α) (guard : L → σ → Prop) :
    σ → σ → Prop :=
  Relation.ReflTransGen (Completes step body guard)

variable {step : L → Transition S σ} {body : L → Program S α}

/-- Complete executions one after the other, with the label and the value of each. -/
inductive Trace (step : L → Transition S σ) (body : L → Program S α) (start : σ) :
    List (L × α) → σ → Prop where
  | nil : Trace step body start [] start
  | snoc {calls : List (L × α)} {s s' : σ} {label : L} {value : α}
    (before : Trace step body start calls s) (last : (body label).Exec (step label) s value s') :
    Trace step body start (calls ++ [(label, value)]) s'

/-- A trace is a trace under every larger transition relation. -/
theorem Trace.mono {step' : L → Transition S σ}
    (larger : ∀ label op s answer s', step label op s answer s' → step' label op s answer s')
    {start s : σ} {calls : List (L × α)} (trace : Trace step body start calls s) :
    Trace step' body start calls s := by
  induction trace with
  | nil => exact .nil
  | snoc _ last ih => exact ih.snoc (last.mono (larger _))

end Runs

end Interaction
