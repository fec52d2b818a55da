import WalletManagement.Go.Stdlib
import Mathlib.Data.Vector.Basic

/-!
# Domain types

The identifiers, chains, wallets and errors that every package of the service shares
(`internal/domain`). A chain is an open string type in the source, because request handlers
convert any string to it; the named chains are constants of that type.
-/

namespace WalletManagement

/-! ## Errors -/

/-- The sentinel errors that callers test with `errors.Is`. -/
inductive Sentinel where
  | errNoRows
  | errDuplicateEvent
  | errDuplicateWithdrawal
  | errDuplicateFunding
  | errDuplicateAudit
  | errWalletRetired
  deriving DecidableEq, Repr

/-- An error: its text and the sentinel it wraps. -/
structure Err where
  /-- `err.Error()`. -/
  text : String
  /-- The sentinel that `errors.Is` finds. -/
  sentinel : Option Sentinel := none
  deriving DecidableEq, Repr

/-- `fmt.Errorf("context: %w", err)`. -/
def Err.wrap (context : String) (err : Err) : Err := ⟨context ++ ": " ++ err.text, err.sentinel⟩

/-- `errors.Is(err, sentinel)`. -/
def Err.is (err : Err) (sentinel : Sentinel) : Bool := err.sentinel = some sentinel

/-! ## Identifiers -/

/-- `uuid.UUID`. -/
structure UUID where
  /-- The sixteen bytes, most significant first. -/
  bytes : Vector UInt8 16
  deriving DecidableEq

/-- `uuid.Nil`. -/
def UUID.nil : UUID := ⟨Vector.replicate 16 0⟩

/-- Two lower-case hexadecimal digits for each byte. -/
def hexEncode (bytes : List UInt8) : List Char :=
  bytes.flatMap fun byte => [Nat.digitChar (byte.toNat / 16), Nat.digitChar (byte.toNat % 16)]

/-- The characters of `uuid.UUID.String`: five groups of digits separated by dashes. -/
def UUID.chars (id : UUID) : List Char :=
  let bytes := id.bytes.toList
  hexEncode (bytes.take 4) ++ '-' :: hexEncode ((bytes.drop 4).take 2) ++
    '-' :: hexEncode ((bytes.drop 6).take 2) ++ '-' :: hexEncode ((bytes.drop 8).take 2) ++
    '-' :: hexEncode (bytes.drop 10)

/-- `uuid.UUID.String`. -/
def UUID.string (id : UUID) : String := String.ofList id.chars

/-- A hexadecimal digit determines its value and is no dash. -/
theorem digitChar_spec : ∀ left < 16, Nat.digitChar left ≠ '-' ∧
    ∀ right < 16, Nat.digitChar left = Nat.digitChar right → left = right := by
  decide

/-- The hexadecimal digits of a byte determine it. -/
theorem hexEncode_injective : Function.Injective hexEncode := by
  intro left right same
  induction left generalizing right with
  | nil =>
    cases right with
    | nil => rfl
    | cons head tail => simp [hexEncode] at same
  | cons head tail ih =>
    cases right with
    | nil => simp [hexEncode] at same
    | cons head' tail' =>
      simp only [hexEncode, List.flatMap_cons, List.cons_append, List.nil_append,
        List.cons.injEq] at same
      obtain ⟨high, low, rest⟩ := same
      have bound := head.toNat_lt
      have bound' := head'.toNat_lt
      have quotient := (digitChar_spec _ (by omega)).2 _ (by omega) high
      have remainder := (digitChar_spec _ (by omega)).2 _ (by omega) low
      have byte : head = head' := UInt8.toNat_inj.mp (by omega)
      rw [byte, ih rest]

/-- The dashes are not part of the hexadecimal digits. -/
theorem hexEncode_filter (bytes : List UInt8) :
    (hexEncode bytes).filter (· != '-') = hexEncode bytes := by
  rw [List.filter_eq_self]
  intro c member
  obtain ⟨byte, _, member⟩ := List.mem_flatMap.mp member
  have bound := byte.toNat_lt
  rcases List.mem_cons.mp member with rfl | member
  · exact bne_iff_ne.mpr (digitChar_spec (byte.toNat / 16) (by omega)).1
  · rw [List.mem_singleton.mp member]
    exact bne_iff_ne.mpr (digitChar_spec (byte.toNat % 16) (by omega)).1

/-- Each byte takes two digits. -/
theorem hexEncode_length (bytes : List UInt8) : (hexEncode bytes).length = 2 * bytes.length := by
  induction bytes with
  | nil => rfl
  | cons head tail ih =>
    simp only [hexEncode, List.flatMap_cons, List.length_append, List.length_cons,
      List.length_nil] at ih ⊢
    omega

/-- The digits of two byte strings in a row. -/
theorem hexEncode_append (left right : List UInt8) :
    hexEncode (left ++ right) = hexEncode left ++ hexEncode right := List.flatMap_append

/-- Without its dashes, the text of an identifier is the hexadecimal form of its bytes. -/
theorem UUID.chars_filter (id : UUID) :
    id.chars.filter (· != '-') = hexEncode id.bytes.toList := by
  have parts (l : List UInt8) : l.take 4 ++ ((l.drop 4).take 2 ++ ((l.drop 6).take 2 ++
      ((l.drop 8).take 2 ++ l.drop 10))) = l := by
    have eight := List.take_append_drop 2 (l.drop 8)
    have six := List.take_append_drop 2 (l.drop 6)
    have four := List.take_append_drop 2 (l.drop 4)
    simp only [List.drop_drop] at eight six four
    rw [eight, six, four, List.take_append_drop]
  conv_rhs => rw [← parts id.bytes.toList]
  simp [UUID.chars, List.filter_append, hexEncode_filter, hexEncode_append]

/-- The text of an identifier has 36 characters. -/
theorem UUID.chars_length (id : UUID) : id.chars.length = 36 := by
  simp [UUID.chars, hexEncode_length]

/-- The text of an identifier determines it. -/
theorem UUID.chars_injective : Function.Injective UUID.chars := by
  intro left right same
  have digits : hexEncode left.bytes.toList = hexEncode right.bytes.toList := by
    rw [← left.chars_filter, ← right.chars_filter, same]
  have bytes := Vector.toList_inj.mp (hexEncode_injective digits)
  cases left; cases right; congr

/-! ## Chains and wallets -/

/-- `domain.Chain`. -/
structure Chain where
  /-- The text of the chain. -/
  name : String
  deriving DecidableEq

namespace Chain

/-- `ChainEthereum`. -/
def ethereum : Chain := ⟨"ethereum"⟩
/-- `ChainPolygon`. -/
def polygon : Chain := ⟨"polygon"⟩
/-- `ChainArbitrum`. -/
def arbitrum : Chain := ⟨"arbitrum"⟩
/-- `ChainBase`. -/
def base : Chain := ⟨"base"⟩
/-- `ChainOptimism`. -/
def optimism : Chain := ⟨"optimism"⟩
/-- `ChainSolana`. -/
def solana : Chain := ⟨"solana"⟩
/-- `ChainBitcoin`. -/
def bitcoin : Chain := ⟨"bitcoin"⟩

/-- `Chain.IsEVM`. -/
def isEVM (chain : Chain) : Bool :=
  chain = ethereum || chain = polygon || chain = arbitrum || chain = base || chain = optimism

/-- `ValidChain`. -/
def valid (chain : Chain) : Bool := chain.isEVM || chain = solana || chain = bitcoin

/-- Bitcoin is no EVM chain. -/
theorem not_isEVM_bitcoin : bitcoin.isEVM = false := by decide

end Chain

/-- `domain.WalletState`. -/
inductive WalletState where
  | active
  | paused
  | retired
  deriving DecidableEq, Repr

/-- The text of a wallet state. -/
def WalletState.text : WalletState → String
  | .active => "ACTIVE"
  | .paused => "PAUSED"
  | .retired => "RETIRED"

/-- `domain.WalletType`. -/
inductive WalletType where
  | hot
  | warm
  | cold
  deriving DecidableEq, Repr

/-- `domain.Wallet`. -/
structure Wallet where
  id : UUID
  chain : Chain
  state : WalletState
  walletType : WalletType := .hot
  rotationDays : Option Int := none
  rotationAfterReceives : Option Int := none
  deriving DecidableEq

/-- `domain.AddressState`. -/
inductive AddressState where
  | active
  | deprecated
  deriving DecidableEq, Repr

/-- `domain.Address`. An instant is counted in nanoseconds from the zero value of `time.Time`. -/
structure Address where
  id : UUID
  walletID : UUID
  chain : Chain
  address : String
  derivationPath : String
  index : Int
  change : Int
  state : AddressState
  receiveCount : Int := 0
  createdAt : Int
  deriving DecidableEq

end WalletManagement
