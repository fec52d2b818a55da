import WalletManagement.Digest
import WalletManagement.Interaction.Crew
import WalletManagement.Withdrawal
import Mathlib.Data.List.Sort

/-!
# Scripted runs

Runs of the saga computed from a list of calls, each with the answers its collaborators give,
and libraries under which the transaction builders can be evaluated. The runs are runs of the
system: every scripted answer is one the system may give.
-/

namespace WalletManagement

open Interaction Go

/-- The state after a list of calls, each with the answers of its collaborators. -/
def Service.play (svc : Service) : List (SagaCall × Script) → World SagaCall → World SagaCall
  | [], w => w
  | (call, script) :: rest, w => svc.play rest ((svc.body call).run (script.handle call) w).2

/-- A guard admits every call of a script in the state before it. -/
def Service.Admits (svc : Service) (guard : SagaCall → World SagaCall → Prop) :
    List (SagaCall × Script) → World SagaCall → Prop
  | [], _ => True
  | (call, script) :: rest, w =>
    guard call w ∧ svc.Admits guard rest ((svc.body call).run (script.handle call) w).2

/-- A scripted run is a run of the system. -/
theorem Service.play_runs (svc : Service) (guard : SagaCall → World SagaCall → Prop)
    (calls : List (SagaCall × Script)) {w : World SagaCall} (admitted : svc.Admits guard calls w) :
    Runs step svc.body guard w (svc.play calls w) := by
  induction calls generalizing w with
  | nil => exact .refl
  | cons call rest ih =>
    have execution := Program.exec_run (fun op w => call.2.handle_follows call.1 op w)
      (svc.body call.1) w
    exact .head ⟨call.1, _, admitted.1, execution⟩ (ih admitted.2)

/-- A guard that only looks at the call admits a script of such calls. -/
theorem Service.admits_of_calls (svc : Service) {allowed : SagaCall → Prop}
    {calls : List (SagaCall × Script)} (all : ∀ call ∈ calls, allowed call.1)
    (w : World SagaCall) : svc.Admits (fun call _ => allowed call) calls w := by
  induction calls generalizing w with
  | nil => trivial
  | cons call rest ih =>
    exact ⟨all call List.mem_cons_self,
      ih (fun other member => all other (List.mem_cons_of_mem _ member)) _⟩

/-- Two worlds that differ in their logs only. -/
structure World.Alike {L : Type} (w w' : World L) : Prop where
  store : w.store = w'.store
  snapshot : w.snapshot = w'.snapshot
  depth : w.depth = w'.depth

/-- A script does not look at the log. -/
theorem Script.handle_alike {L : Type} {w w' : World L} (script : Script) (caller : L) (op : Op)
    (alike : w.Alike w') : (script.handle caller op w).1 = (script.handle caller op w').1 ∧
      (script.handle caller op w).2.Alike (script.handle caller op w').2 := by
  obtain ⟨store, snapshot, depth⟩ := w
  obtain ⟨store', snapshot', depth'⟩ := w'
  obtain ⟨rfl, rfl, rfl⟩ := alike
  cases op <;> exact ⟨rfl, rfl, rfl, rfl⟩

/-- Nor does a scripted run. -/
theorem Script.run_alike {L α : Type} {w w' : World L} (script : Script) (caller : L)
    (program : Prog α) (alike : w.Alike w') :
    (program.run (script.handle caller) w).1 = (program.run (script.handle caller) w').1 ∧
      (program.run (script.handle caller) w).2.Alike (program.run (script.handle caller) w').2 := by
  induction program generalizing w w' with
  | done value => exact ⟨rfl, alike⟩
  | call op next ih =>
    obtain ⟨answer, later⟩ := script.handle_alike caller op alike
    simp only [Program.run]
    rw [answer]
    exact ih _ later

/-- The turns of a schedule, each with the answers of its collaborators. -/
def scripted {ι : Type} (turns : List (ι × Script)) : List (Crew.Turn calls (World ι) ι) :=
  turns.map fun turn => (turn.1, turn.2.handle turn.1)

/-- A scripted schedule is a schedule of the system. -/
theorem scripted_reachable {ι α : Type} [DecidableEq ι] {admits : Crew.Guard calls (World ι) ι α}
    {crew : Crew calls (World ι) ι α} {turns : List (ι × Script)}
    (admitted : crew.AdmitsAll admits (scripted turns)) :
    Crew.Reachable step admits crew (crew.play (scripted turns)) := by
  refine Crew.reachable_play (fun next member op w => ?_) admitted
  obtain ⟨turn, -, rfl⟩ := List.mem_map.mp member
  exact turn.2.handle_follows turn.1 op w

/-! ## Libraries -/

/-- A little-endian integer of a given number of bytes. -/
def littleEndian (width n : Nat) : Bytes :=
  (List.range width).map fun i => UInt8.ofNat (n / 256 ^ i)

/-- The length encoding of the wire format. -/
def compactSize (n : Nat) : Bytes :=
  if n < 0xfd then [UInt8.ofNat n]
  else if n < 2 ^ 16 then 0xfd :: littleEndian 2 n
  else if n < 2 ^ 32 then 0xfe :: littleEndian 4 n
  else 0xff :: littleEndian 8 n

/-- A byte string after its length. -/
def withLength (bytes : Bytes) : Bytes := compactSize bytes.length ++ bytes

/-- The wire format of an outpoint. -/
def OutPoint.wire (outpoint : OutPoint) : Bytes := outpoint.hash ++ littleEndian 4 outpoint.index

/-- The wire format of an output. -/
def TxOut.wire (out : TxOut) : Bytes := littleEndian 8 out.value.toNat ++ withLength out.pkScript

/-- The wire format of a transaction with witnesses. -/
def wireSerialize (tx : MsgTx) : Bytes :=
  littleEndian 4 tx.version.toNat ++ [0x00, 0x01] ++
    compactSize tx.txIn.length ++ (tx.txIn.flatMap fun input =>
      input.previousOutPoint.wire ++ [0x00] ++ littleEndian 4 input.sequence) ++
    compactSize tx.txOut.length ++ tx.txOut.flatMap TxOut.wire ++
    (tx.txIn.flatMap fun input =>
      compactSize input.witness.length ++ input.witness.flatMap withLength) ++
    littleEndian 4 tx.lockTime

/-- The hash that a version 0 witness signs, with all inputs and outputs. -/
def witnessSigHash (script : Bytes) (tx : MsgTx) (input : TxIn) (amount : Int) : Bytes :=
  Digest.doubleSHA256 <|
    littleEndian 4 tx.version.toNat ++
      Digest.doubleSHA256 (tx.txIn.flatMap fun input => input.previousOutPoint.wire) ++
      Digest.doubleSHA256 (tx.txIn.flatMap fun input => littleEndian 4 input.sequence) ++
      input.previousOutPoint.wire ++ withLength script ++ littleEndian 8 amount.toNat ++
      littleEndian 4 input.sequence ++ Digest.doubleSHA256 (tx.txOut.flatMap TxOut.wire) ++
      littleEndian 4 tx.lockTime ++ littleEndian 4 1

/-- A target address of the worked Bitcoin withdrawals. -/
def sampleBTCAddress : String := "bc1qw508d6qejxtdg4y5r3zarvary0c5xw7kv8f3t4"

/-- The public key hash of `sampleBTCAddress`. -/
def samplePubKeyHash : Bytes :=
  [0x75, 0x1e, 0x76, 0xe8, 0x19, 0x91, 0x96, 0xd4, 0x54, 0x94, 0x1c, 0x45, 0xd1, 0xb3, 0xa3,
    0x23, 0xf1, 0x43, 0x3b, 0xd6]

/-- A target address of the worked EVM withdrawals. -/
def sampleEVMAddress : String := "0x52908400098527886E0F7030069857D2E4169EE7"

/-- The Keccak hash of the message that pays one wei to `sampleEVMAddress` with nonce one. -/
def sampleEVMHashOne : Bytes :=
  [16, 249, 151, 107, 97, 230, 107, 202, 76, 43, 71, 122, 196, 35, 240, 36, 184, 124, 236, 164,
    176, 36, 91, 222, 61, 34, 14, 8, 214, 130, 104, 121]

/-- The Keccak hash of the message that pays one wei to `sampleEVMAddress` with nonce zero. -/
def sampleEVMHash : Bytes :=
  [19, 134, 118, 51, 184, 190, 197, 229, 198, 221, 161, 143, 235, 200, 213, 85, 161, 189, 142,
    235, 109, 181, 119, 108, 28, 210, 1, 116, 153, 67, 233, 205]

/-- A 65-byte compact signature. -/
def sampleSignature : Bytes := 27 :: List.replicate 64 1

/-- Libraries that agree with the real ones on the worked transactions: the addresses and
messages above, and transaction hashes given by 64 hexadecimal digits. -/
def sampleLibraries : Libraries where
  quote s := "\"" ++ s ++ "\""
  -- the second byte of the two messages is their nonce
  keccak256 message := if message.tail.headD 0 = 0x01 then sampleEVMHashOne else sampleEVMHash
  sha256 := Digest.sha256
  base58Decode _ := []
  decodeAddress addr :=
    if addr = sampleBTCAddress then .ok ⟨addr⟩ else .error ⟨"unknown address", none⟩
  payToAddrScript address :=
    .ok ([0x00, 0x14] ++ if address.encoded = sampleBTCAddress then samplePubKeyHash
      else List.replicate 20 0)
  witnessPubKeyHash _ := ⟨"bc1qqqqqqqqqqqqqqqqqqqqqqqqqqqqqqqqq9e75rs"⟩
  newHashFromStr txid :=
    match hexBytes txid.toUTF8.data.toList with
    | some bytes => if bytes.length = 32 then .ok bytes.reverse else .error ⟨"short hash", none⟩
    | none => .error ⟨"invalid hash", none⟩
  calcWitnessSigHash script _ tx i amount :=
    match tx.txIn[i]? with
    | some input => .ok (witnessSigHash script tx input amount)
    | none => .error ⟨"input index out of range", none⟩
  serialize tx := .ok (wireSerialize tx)

/-- The order of `SelectForAmount` made by a stable sort. -/
def stableOrder : SortSlice largerValue where
  sort l := l.insertionSort fun left right => parseVal right.value ≤ parseVal left.value
  perm l := List.perm_insertionSort _ l
  sorted l := by
    have total : Std.Total fun left right : UTXO => parseVal right.value ≤ parseVal left.value :=
      ⟨fun left right => le_total _ _⟩
    have trans : IsTrans UTXO fun left right => parseVal right.value ≤ parseVal left.value :=
      ⟨fun _ _ _ first second => second.trans first⟩
    refine (List.pairwise_insertionSort _ l).imp fun {left right} ordered => ?_
    simpa [largerValue] using ordered

/-- A service over the sample libraries. -/
def sampleService : Service := { libs := sampleLibraries, order := stableOrder }

/-- An identifier with a given last byte. -/
def sampleID (n : UInt8) : UUID := ⟨(Vector.replicate 15 0).push n⟩

/-- The Ethereum wallet of the worked runs. -/
def sampleEVMWallet : Wallet := { id := sampleID 1, chain := .ethereum, state := .active }

/-- The Bitcoin wallet of the worked runs. -/
def sampleBTCWallet : Wallet := { id := sampleID 2, chain := .bitcoin, state := .active }

/-- A store with the two wallets, where nothing has happened. -/
def sampleStart : World SagaCall :=
  { store := { wallets := (Data.Table.empty.put sampleEVMWallet).put sampleBTCWallet } }

/-- A request for one wei of a given asset to `sampleEVMAddress`. -/
def sampleEVMRequest (asset : String) : CreateRequest :=
  ⟨sampleEVMWallet.id, sampleEVMAddress, asset, "1"⟩

/-- An unspent output of the Bitcoin wallet, with the given value and the last digit of its
index. -/
def sampleUTXO (value : String) (index : Char) : UTXO where
  outpoint := String.ofList (List.replicate 64 'a' ++ [':', index])
  walletID := sampleBTCWallet.id
  value
  lockState := .free

/-- A request for a given amount of satoshi to `sampleBTCAddress`. -/
def sampleBTCRequest (amount : String) : CreateRequest :=
  ⟨sampleBTCWallet.id, sampleBTCAddress, "BTC", amount⟩

/-- The first of two concurrent callers. -/
def firstCaller : Fin 2 := 0

/-- The second of two concurrent callers. -/
def secondCaller : Fin 2 := 1

/-- Everything is approved, signed and accepted; a new withdrawal gets the given identifier. -/
def accepting (n : UInt8) : Script :=
  { id := sampleID n, signer := .ok ⟨sampleSignature, "mpc"⟩, gateway := .ok ⟨"0x01"⟩ }

/-- The gateway rejects the transaction. -/
def rejecting : Script := { gateway := .error ⟨"gateway unavailable", none⟩ }

/-- A withdrawal of the given asset and identifier, up to its signature. -/
def signedEVM (asset : String) (n : UInt8) : List (SagaCall × Script) :=
  [(.create (sampleEVMRequest asset), accepting n), (.constructAndSign (sampleID n), accepting n)]

/-- A Bitcoin withdrawal is approved, and signed for one input. -/
def acceptingBTC (n : UInt8) : Script :=
  { id := sampleID n, signer := .ok ⟨List.replicate 64 1, "mpc"⟩, gateway := .ok ⟨"0x02"⟩ }

end WalletManagement
