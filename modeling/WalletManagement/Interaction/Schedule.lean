import WalletManagement.Interaction.Program

/-!
# Interleaved programs

Several programs run on one shared state, one call at a time, in any order; new programs may
start at any time. Each program is the body of a label, and a thread keeps the label it was
started for. `Program.Safe` is a precondition that tolerates the other threads: before each
call the state may have moved along a preorder, the rely, as long as the invariant still
holds, and the call must keep the invariant and move along the rely itself. `Reachable.safe`
is the rule that such bodies keep the invariant under every schedule.
-/

namespace Interaction

variable {S : Signature} {σ L α β : Type}

/-- A shared state and the threads running on it, each with the rest of its program. -/
structure Pool (S : Signature) (σ L α : Type) where
  /-- The shared state. -/
  state : σ
  /-- The label each thread was started for and what is left of its program. -/
  threads : List (L × Program S α)

namespace Pool

/-- One step of a schedule. -/
inductive Step (step : L → Transition S σ) (body : L → Program S α) :
    Pool S σ L α → Pool S σ L α → Prop where
  /-- A new thread starts. -/
  | start (s : σ) (threads : List (L × Program S α)) (label : L) :
    Step step body ⟨s, threads⟩ ⟨s, (label, body label) :: threads⟩
  /-- Some thread makes its next call. -/
  | call {s s' : σ} {before after : List (L × Program S α)} {label : L} {op : S.Op}
    {next : S.Ans op → Program S α} {answer : S.Ans op} (moved : step label op s answer s') :
    Step step body ⟨s, before ++ (label, .call op next) :: after⟩
      ⟨s', before ++ (label, next answer) :: after⟩

/-- The pools a schedule reaches. -/
abbrev Reachable (step : L → Transition S σ) (body : L → Program S α) :
    Pool S σ L α → Pool S σ L α → Prop :=
  Relation.ReflTransGen (Step step body)

end Pool

/-- The precondition of a program under interference: each of its calls finds the invariant
in a state that moved along the rely, and keeps both. -/
def Program.Safe (step : Transition S σ) (inv : σ → Prop) (rely : σ → σ → Prop) :
    Program S α → (α → σ → Prop) → σ → Prop
  | .done value, post, s => post value s
  | .call op next, post, s =>
    ∀ now, rely s now → inv now → ∀ answer later, step op now answer later →
      inv later ∧ rely now later ∧ (next answer).Safe step inv rely post later

namespace Program.Safe

variable {step : Transition S σ} {inv : σ → Prop} {rely : σ → σ → Prop}

/-- A program is safe when its first part is, and its second part is after the first. -/
theorem bind {program : Program S α} {next : α → Program S β} {middle : α → σ → Prop}
    {post : β → σ → Prop} {s : σ} (first : program.Safe step inv rely middle s)
    (second : ∀ value s', middle value s' → (next value).Safe step inv rely post s') :
    (program >>= next).Safe step inv rely post s := by
  induction program generalizing s with
  | done value => exact second value s first
  | call op rest ih =>
    intro now moved holds answer later stepped
    obtain ⟨kept, along, rest⟩ := first now moved holds answer later stepped
    exact ⟨kept, along, ih answer rest⟩

/-- A call followed by a program that is safe after each of its transitions. -/
theorem perform_bind {op : S.Op} {next : S.Ans op → Program S α} {post : α → σ → Prop} {s : σ}
    (h : ∀ now, rely s now → inv now → ∀ answer later, step op now answer later →
      inv later ∧ rely now later ∧ (next answer).Safe step inv rely post later) :
    (Program.perform op >>= next).Safe step inv rely post s := h

/-- A program is safe under a fact that the rely keeps if that fact makes each of its calls
safe. -/
theorem of_calls {program : Program S α} {known : σ → Prop} {allowed : S.Op → Prop} {s : σ}
    (stable : ∀ now later, known now → rely now later → known later)
    (kept : ∀ op, allowed op → ∀ now answer later, known now → inv now →
      step op now answer later → inv later ∧ rely now later)
    (calls : program.Calls allowed) (start : known s) :
    program.Safe step inv rely (fun _ s' => known s') s := by
  induction program generalizing s with
  | done value => exact start
  | call op next ih =>
    intro now moved holds answer later stepped
    have here := stable s now start moved
    obtain ⟨after, along⟩ := kept op calls.1 now answer later here holds stepped
    exact ⟨after, along, ih answer (calls.2 answer) (stable now later here along)⟩

/-- A weaker postcondition is easier to reach. -/
theorem mono {program : Program S α} {post post' : α → σ → Prop} {s : σ}
    (h : program.Safe step inv rely post s) (weaker : ∀ value s', post value s' → post' value s') :
    program.Safe step inv rely post' s := by
  induction program generalizing s with
  | done value => exact weaker value s h
  | call op next ih =>
    intro now moved holds answer later stepped
    obtain ⟨kept, along, rest⟩ := h now moved holds answer later stepped
    exact ⟨kept, along, ih answer rest⟩

/-- A safe program stays safe while the other threads move the state along the rely. -/
theorem moved [IsPreorder σ rely] {program : Program S α} {s s' : σ}
    (h : program.Safe step inv rely (fun _ _ => True) s) (along : rely s s') :
    program.Safe step inv rely (fun _ _ => True) s' := by
  cases program with
  | done value => trivial
  | call op next => exact fun now later => h now (trans_of rely along later)

end Program.Safe

namespace Pool

variable {step : L → Transition S σ} {body : L → Program S α} {inv : σ → Prop}
  {rely : σ → σ → Prop}

/-- Running one thread to its end is a schedule. -/
theorem reachable_of_exec {label : L} {program : Program S α} {s s' : σ} {value : α}
    (execution : program.Exec (step label) s value s') (threads : List (L × Program S α)) :
    Reachable step body ⟨s, (label, program) :: threads⟩ ⟨s', (label, .done value) :: threads⟩ := by
  induction program generalizing s with
  | done value =>
    obtain ⟨rfl, rfl⟩ := execution
    exact .refl
  | call op next ih =>
    obtain ⟨answer, middle, moved, rest⟩ := execution
    have first : Step step body ⟨s, [] ++ (label, .call op next) :: threads⟩
        ⟨middle, [] ++ (label, next answer) :: threads⟩ := .call moved
    exact .head first (ih answer rest)

/-- Complete executions one after the other are a schedule. -/
theorem reachable_of_runs {guard : L → σ → Prop} {s s' : σ} (runs : Runs step body guard s s') :
    ∃ threads, Reachable step body ⟨s, []⟩ ⟨s', threads⟩ := by
  induction runs with
  | refl => exact ⟨[], .refl⟩
  | tail _ last ih =>
    obtain ⟨threads, reached⟩ := ih
    obtain ⟨label, value, -, execution⟩ := last
    exact ⟨_, (reached.tail (.start _ threads label)).trans (reachable_of_exec execution threads)⟩

/-- The invariant holds and every thread is safe for what it still has to do. -/
structure Good (step : L → Transition S σ) (inv : σ → Prop) (rely : σ → σ → Prop)
    (pool : Pool S σ L α) : Prop where
  /-- The shared state satisfies the invariant. -/
  holds : inv pool.state
  /-- Every thread keeps it, whatever the others do. -/
  safe : ∀ thread ∈ pool.threads,
    thread.2.Safe (step thread.1) inv rely (fun _ _ => True) pool.state

/-- One step of a schedule keeps a pool good. -/
theorem Good.kept [IsPreorder σ rely]
    (bodies : ∀ label s, inv s → (body label).Safe (step label) inv rely (fun _ _ => True) s)
    {pool pool' : Pool S σ L α} (good : pool.Good step inv rely)
    (moved : Step step body pool pool') : pool'.Good step inv rely := by
  cases moved with
  | start s threads label =>
    refine ⟨good.holds, fun thread member => ?_⟩
    rcases List.mem_cons.mp member with rfl | member
    · exact bodies label s good.holds
    · exact good.safe thread member
  | @call s s' before after label op next answer moved =>
    -- the thread that moved keeps the invariant; the others see one more rely step
    have own := good.safe (label, .call op next) (by simp)
    have stay : ∀ thread, thread ∈ before ∨ thread ∈ after → rely s s' →
        thread.2.Safe (step thread.1) inv rely (fun _ _ => True) s' := by
      intro thread member along
      refine (good.safe thread ?_).moved along
      rcases member with member | member <;> simp [member]
    obtain ⟨kept, along, rest⟩ := own s (refl_of rely s) good.holds answer s' moved
    refine ⟨kept, fun thread member => ?_⟩
    rcases List.mem_append.mp member with member | member
    · exact stay thread (.inl member) along
    · rcases List.mem_cons.mp member with rfl | member
      · exact rest
      · exact stay thread (.inr member) along

/-- Bodies that are safe from every state of the invariant keep it under every schedule. -/
theorem Reachable.safe [IsPreorder σ rely]
    (bodies : ∀ label s, inv s → (body label).Safe (step label) inv rely (fun _ _ => True) s)
    {pool pool' : Pool S σ L α} (reachable : Reachable step body pool pool')
    (good : pool.Good step inv rely) : pool'.Good step inv rely := by
  induction reachable with
  | refl => exact good
  | tail _ moved ih => exact ih.kept bodies moved

end Pool

end Interaction
