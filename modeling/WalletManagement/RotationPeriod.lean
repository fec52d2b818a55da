import WalletManagement.AddressIndex
import WalletManagement.RotationActive

/-!
# Rotation periods

`shouldRotate` compares the age of an address with a period of days, in nanoseconds of 64 bits. Up
to 106751 days a longer period never rotates earlier than a shorter one. From there on the product
of days and hours wraps: a period of 106752 days is negative, and rotates every address at once.
-/

namespace WalletManagement

open Interaction Go

/-- `time.Duration(days)*24*time.Hour`, in nanoseconds. -/
def rotationPeriod (days : Int) : Int := wrapInt64 (wrapInt64 (days * 24) * hour)

/-- The most days whose nanoseconds fit in 64 bits. -/
def maxRotationDays : Int := 106751

/-- Up to `maxRotationDays` nothing wraps. -/
theorem rotationPeriod_of_le {days : Int} (positive : 0 < days) (fits : days ≤ maxRotationDays) :
    rotationPeriod days = days * 24 * hour := by
  unfold maxRotationDays at fits
  have hours : InInt64 (days * 24) := by
    unfold InInt64
    omega
  have nanoseconds : InInt64 (days * 24 * hour) := by
    unfold InInt64 hour
    omega
  rw [rotationPeriod, wrapInt64_of_inInt64 hours, wrapInt64_of_inInt64 nanoseconds]

/-- Up to `maxRotationDays` a longer period is longer. -/
theorem rotationPeriod_le {d₁ d₂ : Int} (positive : 0 < d₁) (longer : d₁ ≤ d₂)
    (fits : d₂ ≤ maxRotationDays) : rotationPeriod d₁ ≤ rotationPeriod d₂ := by
  rw [rotationPeriod_of_le positive (by omega), rotationPeriod_of_le (by omega) fits]
  unfold hour
  omega

/-! ## The decision -/

/-- The meaning of the calls while the clock reads `now`. -/
def Collaborators.stepAt (env : Collaborators) (now : Int) : Transition rotationCalls RotationState
  | .now, s, answer, s' => answer = now ∧ s' = s
  | op, s, answer, s' => env.step op s answer s'

/-- What `shouldRotate` returns while the clock reads `now`. -/
def RotationPolicy.due (p : RotationPolicy) (w : Wallet) (a : Address) (now : Int) : Bool :=
  (decide (0 < p.days w) && agedOut (p.days w) a.createdAt now) || receivedEnough w a

section Decision

variable {env : Collaborators} {now : Int} {p : RotationPolicy} {w : Wallet} {a : Address}
  {s s' : RotationState}

/-- `shouldRotate` decides by what the clock may read, and does nothing else. -/
theorem shouldRotate_exec_iff {step : Transition rotationCalls RotationState} {clock : Int → Prop}
    (reads : ∀ s answer s', step .now s answer s' ↔ clock answer ∧ s' = s)
    (ticks : ∃ now, clock now) {decision : Bool} : (p.shouldRotate w a).Exec step s decision s' ↔
      (∃ now, clock now ∧ decision = p.due w a now) ∧ s' = s := by
  unfold RotationPolicy.shouldRotate RotationPolicy.due
  by_cases positive : 0 < p.days w
  · simp only [if_pos positive, decide_eq_true positive, Bool.true_and]
    constructor
    · rintro ⟨now, middle, moved, rfl, rfl⟩
      obtain ⟨read, rfl⟩ := (reads s now middle).mp moved
      exact ⟨⟨now, read, rfl⟩, rfl⟩
    · rintro ⟨⟨now, read, rfl⟩, rfl⟩
      exact ⟨now, s', (reads s' now s').mpr ⟨read, rfl⟩, rfl, rfl⟩
  · simp only [if_neg positive, decide_eq_false positive, Bool.false_and, Bool.false_or]
    obtain ⟨now, read⟩ := ticks
    constructor
    · rintro ⟨rfl, rfl⟩
      exact ⟨⟨now, read, rfl⟩, rfl⟩
    · rintro ⟨⟨_, _, rfl⟩, rfl⟩
      exact ⟨rfl, rfl⟩

theorem shouldRotate_exec {decision : Bool} :
    (p.shouldRotate w a).Exec (env.stepAt now) s decision s' ↔
      decision = p.due w a now ∧ s' = s := by
  have reads (s : RotationState) (answer : Int) (s' : RotationState) :
      env.stepAt now .now s answer s' ↔ answer = now ∧ s' = s := Iff.rfl
  rw [shouldRotate_exec_iff reads ⟨now, rfl⟩]
  simp

/-- With a positive period, an address is due when it is older than the period or has received
enough. -/
theorem due_iff (positive : 0 < p.days w) : p.due w a now = true ↔
    rotationPeriod (p.days w) < clampInt64 (now - a.createdAt) ∨
      RotationPolicy.receivedEnough w a = true := by
  simp [RotationPolicy.due, positive, agedOut, rotationPeriod]

/-- A wallet none of whose active addresses is due keeps the one it has. -/
theorem currentOrRotate_keeps {walletID : UUID} {result : Except Err Address}
    (found : s.store.wallets.get walletID = some w) (open_ : w.state ≠ .retired)
    (active : s.store.activeAddresses walletID ≠ [])
    (kept : ∀ a ∈ s.store.activeAddresses walletID, p.due w a now = false)
    (execution : (p.currentOrRotate walletID).Exec (env.stepAt now) s result s') :
    s' = s ∧ ∃ a ∈ s.store.activeAddresses walletID, result = .ok a := by
  unfold RotationPolicy.currentOrRotate at execution
  rw [Program.exec_read fun _ _ => Iff.rfl] at execution
  simp only [Store.getWallet, found, Store.found, if_neg open_] at execution
  obtain ⟨answer, middle, ⟨read, rfl⟩, execution⟩ := Program.exec_perform_bind.mp execution
  cases answer with
  | error err => exact absurd read.1 active
  | ok a =>
    obtain ⟨decision, middle, decided, rest⟩ := (Program.exec_bind _ _).mp execution
    obtain ⟨rfl, rfl⟩ := shouldRotate_exec.mp decided
    rw [kept a read] at rest
    obtain ⟨rfl, rfl⟩ := rest
    exact ⟨rfl, a, read, rfl⟩

end Decision

/-- A period of `d₂` days rotates no address before a period of `d₁` days does, at any time and
with any two settings that have these periods and one receive count; and `CurrentOrRotate` keeps
what the setting with `d₁` days would keep. -/
def NeverEarlier (d₁ d₂ : Int) : Prop :=
  ∀ (env : Collaborators) (now : Int) (s : RotationState) (p₁ p₂ : RotationPolicy) (w₁ w₂ : Wallet),
    p₁.days w₁ = d₁ → p₂.days w₂ = d₂ → w₁.rotationAfterReceives = w₂.rotationAfterReceives →
      (∀ a, (p₂.shouldRotate w₂ a).Exec (env.stepAt now) s true s →
        (p₁.shouldRotate w₁ a).Exec (env.stepAt now) s true s) ∧
      (∀ walletID result s', s.store.wallets.get walletID = some w₂ → w₂.state ≠ .retired →
        s.store.activeAddresses walletID ≠ [] →
        (∀ a ∈ s.store.activeAddresses walletID,
          (p₁.shouldRotate w₁ a).Exec (env.stepAt now) s false s) →
        (p₂.currentOrRotate walletID).Exec (env.stepAt now) s result s' →
        s' = s ∧ ∃ a ∈ s.store.activeAddresses walletID, result = .ok a)

/-- A policy with a given default period. -/
def sampleSetting (days : Int) : RotationPolicy := { quote := id, defaultRotationDays := days }

/-- Where the nanoseconds of two periods are in the wrong order, an address whose age is the longer
time is due for one of them and not for the other. -/
theorem due_at_boundary {d₁ d₂ : Int} (first : 0 < d₁) (second : 0 < d₂)
    (shorter : rotationPeriod d₂ < rotationPeriod d₁) :
    ∃ now, (sampleSetting d₂).due sampleEVMWallet sampleAddress now = true ∧
      (sampleSetting d₁).due sampleEVMWallet sampleAddress now = false := by
  let now := sampleAddress.createdAt + rotationPeriod d₁
  have age : clampInt64 (now - sampleAddress.createdAt) = rotationPeriod d₁ := by
    have inside : InInt64 (rotationPeriod d₁) := inInt64_wrapInt64 _
    have elapsed : now - sampleAddress.createdAt = rotationPeriod d₁ := add_sub_cancel_left _ _
    rw [elapsed]
    unfold InInt64 at inside
    unfold clampInt64
    omega
  have quiet : RotationPolicy.receivedEnough sampleEVMWallet sampleAddress = false := rfl
  have days (d : Int) : (sampleSetting d).days sampleEVMWallet = d := rfl
  refine ⟨now, ?_, ?_⟩
  · rw [due_iff (by rwa [days]), age, days]
    exact .inl shorter
  · rw [← Bool.not_eq_true, due_iff (by rwa [days]), age, quiet, days]
    simp

/-- Two positive periods are ordered in what they rotate exactly if they are ordered in wrapped
nanoseconds, which they are up to 106751 days. -/
theorem longer_period_iff (d₁ d₂ : Int) (positive : 0 < d₁) (longer : d₁ ≤ d₂) :
    (NeverEarlier d₁ d₂ ↔ rotationPeriod d₁ ≤ rotationPeriod d₂) ∧
      (d₂ ≤ maxRotationDays → rotationPeriod d₁ ≤ rotationPeriod d₂) := by
  refine ⟨⟨?_, ?_⟩, rotationPeriod_le positive longer⟩
  · intro never
    by_contra shorter
    obtain ⟨now, later, still⟩ :=
      due_at_boundary positive (positive.trans_le longer) (not_le.mp shorter)
    have started := (never (memCollaborators id) now sampleRotations.state (sampleSetting d₁)
      (sampleSetting d₂) sampleEVMWallet sampleEVMWallet rfl rfl rfl).1 sampleAddress
        (shouldRotate_exec.mpr ⟨later.symm, rfl⟩)
    obtain ⟨earlier, -⟩ := shouldRotate_exec.mp started
    rw [still] at earlier
    cases earlier
  · intro ordered env now s p₁ p₂ w₁ w₂ days₁ days₂ receives
    have first : 0 < p₁.days w₁ := by omega
    have second : 0 < p₂.days w₂ := by omega
    have due (a : Address) (later : p₂.due w₂ a now = true) : p₁.due w₁ a now = true := by
      have received : RotationPolicy.receivedEnough w₁ a = RotationPolicy.receivedEnough w₂ a := by
        rw [RotationPolicy.receivedEnough, RotationPolicy.receivedEnough, receives]
      rw [due_iff second, days₂] at later
      rw [due_iff first, days₁, received]
      exact later.imp_left ordered.trans_lt
    constructor
    · intro a decided
      obtain ⟨later, -⟩ := shouldRotate_exec.mp decided
      exact shouldRotate_exec.mpr ⟨(due a later.symm).symm, rfl⟩
    · intro walletID result s' found open_ active kept execution
      refine currentOrRotate_keeps found open_ active (fun a member => ?_) execution
      obtain ⟨still, -⟩ := shouldRotate_exec.mp (kept a member)
      by_contra later
      rw [due a (by simpa using later)] at still
      cases still

/-- A period of thirty days rotates nothing before a period of seven days does. -/
theorem longer_period_thirty : NeverEarlier 7 30 := by
  have both := longer_period_iff 7 30 (by decide) (by decide)
  exact both.1.mpr (both.2 (by decide))

/-- With a period of 106752 days an address is rotated at the time it is created, which a period of
seven days would keep. -/
theorem long_period_rotates_at_once :
    ((sampleSetting 106752).shouldRotate sampleEVMWallet sampleAddress).Exec
        ((memCollaborators id).stepAt sampleAddress.createdAt) sampleRotations.state true
        sampleRotations.state ∧
      ((sampleSetting 7).shouldRotate sampleEVMWallet sampleAddress).Exec
        ((memCollaborators id).stepAt sampleAddress.createdAt) sampleRotations.state false
        sampleRotations.state ∧
      rotationPeriod 106752 < 0 :=
  ⟨shouldRotate_exec.mpr ⟨by decide, rfl⟩, shouldRotate_exec.mpr ⟨by decide, rfl⟩, by decide⟩

end WalletManagement
