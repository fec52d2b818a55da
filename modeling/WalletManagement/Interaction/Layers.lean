import WalletManagement.Interaction.Crew
import WalletManagement.Interaction.Serial

/-!
# Steady programs and layers

A program is steady for an invariant if each of its calls keeps it, whatever other threads that keep
it have done since the call before. Threads with steady programs keep the invariant in every
interleaving, and each of them returns what it promises.

A layer implements some of the calls of a program by programs of another signature, on a state of
their own. A program that is steady over its calls is steady over a layer whose implementations are
steady and answer as the calls may.
-/

namespace Interaction

variable {S T : Signature} {σ τ ι α β : Type}

/-! ## Steady programs -/

namespace Program

/-- Every call keeps the invariant, and what is returned satisfies a condition. Nothing is assumed
of the state between two calls but the invariant. -/
def Steady (step : Transition S σ) (inv : σ → Prop) (post : α → Prop) : Program S α → Prop
  | .done value => post value
  | .call op next => ∀ s answer s', inv s → step op s answer s' →
      inv s' ∧ (next answer).Steady step inv post

namespace Steady

variable {step : Transition S σ} {inv : σ → Prop} {post : α → Prop} {program : Program S α}

theorem mono {weaker : α → Prop} (steady : program.Steady step inv post)
    (weakens : ∀ value, post value → weaker value) : program.Steady step inv weaker := by
  induction program with
  | done value => exact weakens value steady
  | call op next ih =>
    intro s answer s' holds moved
    obtain ⟨kept, rest⟩ := steady s answer s' holds moved
    exact ⟨kept, ih answer rest⟩

/-- A sequence of steady programs. -/
theorem bind {next : α → Program S β} {last : β → Prop} (first : program.Steady step inv post)
    (second : ∀ value, post value → (next value).Steady step inv last) :
    (program >>= next).Steady step inv last := by
  induction program with
  | done value => exact second value first
  | call op rest ih =>
    intro s answer s' holds moved
    obtain ⟨kept, later⟩ := first s answer s' holds moved
    exact ⟨kept, ih answer later⟩

/-- A call, and a program that is steady after each of its answers. -/
theorem perform_bind {op : S.Op} {next : S.Ans op → Program S α}
    (call : ∀ s answer s', inv s → step op s answer s' →
      inv s' ∧ (next answer).Steady step inv post) :
    (Program.perform op >>= next).Steady step inv post := call

/-- A program whose calls keep the invariant, whatever it returns. -/
theorem of_calls {allowed : S.Op → Prop} (calls : program.Calls allowed)
    (keeps : ∀ op s answer s', allowed op → inv s → step op s answer s' → inv s')
    (returns : ∀ value, post value) : program.Steady step inv post := by
  induction program with
  | done value => exact returns value
  | call op next ih =>
    intro s answer s' holds moved
    exact ⟨keeps op s answer s' calls.1 holds moved, ih answer (calls.2 answer)⟩

/-- Calls of another signature with the same answers, on a state that shows as this one. -/
theorem embed {into : S.Op → T.Op} {back : (op : S.Op) → T.Ans (into op) → S.Ans op}
    {low : Transition T τ} {shows : τ → σ} (steady : program.Steady step inv post)
    (refines : ∀ op t answer t', low (into op) t answer t' →
      step op (shows t) (back op answer) (shows t')) :
    (program.embed into back).Steady low (fun t => inv (shows t)) post := by
  induction program with
  | done value => exact steady
  | call op next ih =>
    intro t answer t' holds moved
    obtain ⟨kept, rest⟩ := steady _ _ _ holds (refines op t answer t' moved)
    exact ⟨kept, ih (back op answer) rest⟩

end Steady

end Program

namespace Crew

variable [DecidableEq ι] {step : ι → Transition S σ} {admits : Guard S σ ι α} {inv : σ → Prop}
  {post : ι → α → Prop}

/-- Every interleaving of steady programs keeps their invariant, and they return what they
promise. -/
theorem Reachable.steady {body : ι → Program S α} {s : σ} {crew : Crew S σ ι α}
    (steady : ∀ i, (body i).Steady (step i) inv (post i)) (initial : inv s)
    (reachable : Reachable step admits (start body s) crew) :
    inv crew.state ∧ ∀ i value, crew.Returned i value → post i value := by
  have kept : inv crew.state ∧ ∀ i, (crew.rest i).Steady (step i) inv (post i) := by
    induction reachable with
    | refl => exact ⟨initial, steady⟩
    | tail _ last ih =>
      obtain @⟨i, op, next, answer, s', waiting, moved, -⟩ := last
      obtain ⟨holds, rests⟩ := ih
      have own := rests i
      rw [waiting] at own
      obtain ⟨kept, rest⟩ := own _ _ _ holds moved
      refine ⟨kept, fun j => ?_⟩
      by_cases same : j = i
      · subst same
        rw [advance_rest_self]
        exact rest
      · rw [advance_rest_of_ne _ _ _ same]
        exact rests j
  refine ⟨kept.1, fun i value returned => ?_⟩
  have rest := kept.2 i
  rwa [show crew.rest i = .done value from returned] at rest

end Crew

/-! ## Layers -/

/-- The calls of two signatures. -/
abbrev Signature.sum (S T : Signature) : Signature :=
  ⟨S.Op ⊕ T.Op, fun
    | .inl op => S.Ans op
    | .inr op => T.Ans op⟩

/-- Each call acts on its own part of the state. -/
def Transition.sum (step : Transition S σ) (low : Transition T τ) : Transition (S.sum T) (σ × τ)
  | .inl op, s, answer, s' => step op s.1 answer s'.1 ∧ s'.2 = s.2
  | .inr op, s, answer, s' => low op s.2 answer s'.2 ∧ s'.1 = s.1

/-- Some calls are implemented by programs of the other signature. -/
def Program.layered (impl : (op : S.Op) → Option (Program T (S.Ans op))) :
    Program S α → Program (S.sum T) α
  | .done value => .done value
  | .call op next =>
    match impl op with
    | none => .call (.inl op) fun answer => (next answer).layered impl
    | some body => body.embed .inr (fun _ answer => answer) >>= fun answer =>
        (next answer).layered impl

/-- A steady program is steady over a layer whose implementations are, if their answers are answers
of the calls that leave the state alone. -/
theorem Program.Steady.layered {step : Transition S σ} {low : Transition T τ} {inv : σ → Prop}
    {lower : τ → Prop} {impl : (op : S.Op) → Option (Program T (S.Ans op))} {post : α → Prop}
    (somewhere : ∃ s, inv s)
    (impls : ∀ op body, impl op = some body →
      body.Steady low lower fun answer => ∀ s, step op s answer s)
    {program : Program S α} (steady : program.Steady step inv post) :
    (program.layered impl).Steady (step.sum low) (fun s => inv s.1 ∧ lower s.2) post := by
  induction program with
  | done value => exact steady
  | call op next ih =>
    unfold Program.layered
    cases implemented : impl op with
    | none =>
      rintro s answer s' ⟨holds, below⟩ ⟨moved, same⟩
      obtain ⟨kept, rest⟩ := steady _ _ _ holds moved
      exact ⟨⟨kept, same ▸ below⟩, ih answer rest⟩
    | some body =>
      -- the calls of the implementation leave the part of the program alone
      have own : (body.embed .inr fun _ answer => answer : Program (S.sum T) (S.Ans op)).Steady
          (step.sum low) (fun s => inv s.1 ∧ lower s.2) fun answer => ∀ s, step op s answer s := by
        have below := impls op body implemented
        clear impls implemented
        induction body with
        | done answer => exact below
        | call lowOp lowNext body_ih =>
          rintro s answer s' ⟨holds, here⟩ ⟨moved, same⟩
          obtain ⟨kept, rest⟩ := below _ _ _ here moved
          exact ⟨⟨same ▸ holds, kept⟩, body_ih answer rest⟩
      obtain ⟨s, holds⟩ := somewhere
      refine own.bind fun answer answers => ih answer ?_
      exact (steady s answer s holds (answers s)).2

end Interaction
