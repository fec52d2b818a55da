import WalletManagement.Withdrawal

/-!
# The calls of the saga's parts

Most calls of the saga neither touch the state of a withdrawal nor submit a transaction: reading
rows, reserving and giving back nonces and outpoints, recording them in the withdrawal, and asking
the collaborators. The parts of the operations that make only such calls are collected here; what
is left in each operation are the few calls its proofs are about.
-/

namespace WalletManagement

open Interaction

/-- The call writes neither the state nor the signed bytes of a withdrawal, creates none, asks
neither the signer nor the gateway and is no end of an `InTx`. -/
def Op.Plain : Op → Prop
  | .store (.createWithdrawal _) | .store (.updateWithdrawalState _ _ _ _ _) => False
  | .store (.updateWithdrawalSignedTx _ _) => False
  | .sign _ | .broadcastTx _ | .begin | .commit | .rollback => False
  | _ => True

/-- The call submits a transaction. -/
def Op.submits : Op → Bool
  | .broadcastTx _ => true
  | _ => false

theorem emit_plain (audit : Bool) (event : AuditEvent) :
    (Service.emit audit event).Calls Op.Plain :=
  runIf_calls audit ⟨trivial, fun _ => trivial⟩

theorem rollbackNonce_plain (walletID : UUID) (chain : Chain) (n : Int) :
    (rollbackNonce walletID chain n).Calls Op.Plain := by
  refine ⟨trivial, fun answer => ?_⟩
  cases answer <;> trivial

theorem rollback_plain (w : Wallet) (n : Int) (ops : List String) :
    (Service.rollback w n ops).Calls Op.Plain :=
  (runIf_calls _ (rollbackNonce_plain ..)).bind fun _ =>
    runIf_calls _ ⟨trivial, fun _ => trivial⟩

theorem reserveLoop_plain (walletID : UUID) (chain : Chain) (lockName : String) (tries : Nat) :
    (reserveLoop walletID chain lockName tries).Calls Op.Plain := by
  induction tries with
  | zero => trivial
  | succ tries ih =>
    refine ⟨trivial, fun answer => ?_⟩
    match answer with
    | .error _ => trivial
    | .ok (_, false) => exact ih
    | .ok (_, true) =>
      refine ⟨trivial, fun answer => ⟨trivial, fun _ => ?_⟩⟩
      cases answer <;> trivial

theorem selectForAmount_plain (order : Go.SortSlice largerValue) (walletID : UUID) (amount : Int) :
    (selectForAmount order walletID amount).Calls Op.Plain := by
  refine (Program.calls_perform_bind ..).mpr ⟨trivial, fun answer => ?_⟩
  match answer with
  | .error _ => trivial
  | .ok free =>
    dsimp only
    split
    · trivial
    · refine (Program.calls_perform_bind ..).mpr ⟨trivial, fun answer => ?_⟩
      cases answer <;> trivial

theorem resolveKey_plain (svc : Service) (walletID : UUID) :
    (svc.resolveKey walletID).Calls Op.Plain := by
  unfold Service.resolveKey
  split
  · refine (Program.calls_perform_bind ..).mpr ⟨trivial, fun answer => ?_⟩
    cases answer <;> trivial
  · trivial

theorem reserve_plain (svc : Service) (wr : WithdrawalRequest) (w : Wallet) :
    (svc.reserve wr w).Calls Op.Plain := by
  unfold Service.reserve
  split
  · refine (reserveLoop_plain ..).bind fun value => ?_
    cases value with
    | error _ => trivial
    | ok _ => exact ⟨trivial, fun _ => trivial⟩
  · split
    · refine (selectForAmount_plain ..).bind fun value => ?_
      cases value with
      | error _ => exact (rollbackNonce_plain ..).bind fun _ => trivial
      | ok _ =>
        refine (Program.calls_perform_bind ..).mpr ⟨trivial, fun answer => ?_⟩
        cases answer with
        | error _ => exact (rollback_plain ..).bind fun _ => trivial
        | ok _ => trivial
    · trivial

theorem commitReserved_plain (wr : WithdrawalRequest) (w : Wallet) :
    (Service.commitReserved wr w).Calls Op.Plain := by
  unfold Service.commitReserved
  split
  · exact runIf_calls _ ⟨trivial, fun _ => trivial⟩
  · trivial

theorem markSpent_plain (outpoints : List String) (txHash : String) :
    (markSpent outpoints txHash).Calls Op.Plain := ⟨trivial, fun _ => trivial⟩

end WalletManagement
