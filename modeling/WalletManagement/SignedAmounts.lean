import WalletManagement.BitcoinFee
import WalletManagement.EVMEncoding
import WalletManagement.SolanaMessage

/-!
# The amount that is signed

Nothing looks at the amount of a withdrawal before a transaction is built, and the three builders
read it in three ways. The Bitcoin builder takes an `int64`, and gets outpoints to spend only if it
is positive. The Solana builder takes a number without a sign, zero included. The EVM builder takes
any integer and writes its absolute value. What is signed is the amount exactly when the amount is
positive.
-/

namespace WalletManagement

open Interaction Data Go Solana

/-! ## What a transaction pays -/

/-- The value item of a signed EVM transaction, as the network reads it. -/
def evmValue (bytes : Bytes) : Option Nat :=
  match Rlp.decode bytes with
  | some (.list [_, _, _, _, .string value, _, _, _, _], []) => some (Rlp.value value)
  | _ => none

/-- The value of the output of a Bitcoin transaction over the reserved outpoints, as the network
reads it: eight bytes without a sign. -/
def btcValue (libs : Libraries) (wr : WithdrawalRequest) : Option Nat :=
  match btcMsgTx libs wr wr.reservedOutpoints with
  | .ok tx =>
    match tx.txOut with
    | [output] => some (output.value % 2 ^ 64).toNat
    | _ => none
  | .error _ => none

/-- The lamports of a signed Solana transaction with one instruction. -/
def solanaValue (bytes : Bytes) : Option Nat :=
  match readTransaction bytes with
  | some ((_, message), []) =>
    match message.instructions with
    | [instruction] => some instruction.lamports
    | _ => none
  | _ => none

/-- What the transaction of a signed withdrawal pays. -/
def signedValue (libs : Libraries) (chain : Chain) (wr : WithdrawalRequest) : Option Nat :=
  if chain.isEVM then evmValue wr.signedTxBytes
  else if chain = .bitcoin then btcValue libs wr
  else solanaValue wr.signedTxBytes

/-- The transaction of a signed withdrawal pays its amount, and the amount is positive. -/
def PaysAmount (libs : Libraries) (chain : Chain) (wr : WithdrawalRequest) : Prop :=
  ∃ v, signedValue libs chain wr = some v ∧ bigSetString wr.amount = some (v : Int) ∧ 0 < v

/-- The amount of a withdrawal is a positive integer. -/
def PositiveAmount (wr : WithdrawalRequest) : Prop :=
  ∃ a, bigSetString wr.amount = some a ∧ 0 < a

/-! ## The three builders -/

section Builders

variable {libs : Libraries} {wallet : Wallet} {wr : WithdrawalRequest} {n : Int}
  {ops : List String} {unsigned : UnsignedTx} {signature bytes : Bytes}

/-- The value of an EVM transaction is the amount, with its sign. -/
theorem evmLegacyTx_ok {tx : EVMLegacyTx} (filled : evmLegacyTx libs wr n = .ok tx) :
    bigSetString wr.amount = some tx.value := by
  unfold evmLegacyTx at filled
  cases target : parseEVMAddress libs wr.toAddress with
  | error err => simp [target] at filled
  | ok toAddress =>
    cases amount : bigSetString wr.amount with
    | none => simp [target, amount] at filled
    | some value =>
      simp only [target, amount, Except.ok.injEq] at filled
      rw [← filled]

/-- A signed EVM transaction pays the absolute value of the amount. -/
theorem evmValue_assembled (evm : wallet.chain.isEVM = true)
    (built : buildUnsignedTx libs wallet wr n ops = .ok unsigned)
    (assembled : unsigned.assemble signature = .ok bytes) (fits : bytes.length < 2 ^ 63) :
    ∃ a, bigSetString wr.amount = some a ∧ evmValue bytes = some a.natAbs := by
  rw [buildUnsignedTx_evm evm] at built
  cases filled : evmLegacyTx libs wr n with
  | error err => simp [filled, Except.map] at built
  | ok tx =>
    simp only [filled, Except.map, Except.ok.injEq] at built
    rw [← built] at assembled
    cases parts : evmSigFromMPC signature libs.evmChainID with
    | error err => simp [EVMLegacyTx.unsigned, parts] at assembled
    | ok found =>
      rw [assemble_ok parts, Except.ok.injEq] at assembled
      rw [← assembled] at fits ⊢
      have read := decode_evmEncodeList fits []
      rw [List.append_nil] at read
      refine ⟨tx.value, evmLegacyTx_ok filled, ?_⟩
      rw [evmValue, evmEncodeSignedTx, read]
      exact congrArg some (Rlp.value_bigEndian _)

/-- The loop of `SelectForAmount` takes outpoints for a positive amount only. -/
theorem pos_of_selected {order : SortSlice largerValue} {s : Store} {walletID : UUID}
    {amount total : Int} (selected : Selected order s walletID amount ops total) (some : ops ≠ []) :
    0 < amount := by
  have looped := selected.taken
  by_contra small
  cases candidates : order.sort (s.listFreeUTXOs walletID) with
  | nil =>
    rw [candidates] at looped
    exact some (congrArg Prod.fst looped).symm
  | cons u rest =>
    rw [candidates, selectLoop, if_pos (not_lt.mp small)] at looped
    exact some (congrArg Prod.fst looped).symm

/-- A Bitcoin transaction over outpoints selected for the amount pays the amount. -/
theorem btcValue_built {tx : MsgTx} {order : SortSlice largerValue} {s : Store} {total : Int}
    (message : btcMsgTx libs wr wr.reservedOutpoints = .ok tx)
    (selected : Selected order s wr.walletID (parseInt wr.amount).1 wr.reservedOutpoints total) :
    ∃ a, bigSetString wr.amount = some a ∧ btcValue libs wr = some a.natAbs := by
  obtain ⟨some, output, read⟩ := btcMsgTx_ok message
  obtain ⟨integer, inside⟩ :=
    bigSetString_of_parseInt (v := (parseInt wr.amount).1) (Prod.ext rfl read)
  refine ⟨_, integer, ?_⟩
  obtain ⟨out, outputs, value⟩ := List.map_eq_singleton_iff.mp output
  obtain ⟨low, high⟩ := inside
  have positive := pos_of_selected selected some
  simp only [btcValue, message, outputs, value]
  have same : ((parseInt wr.amount).1 % 2 ^ 64).toNat = (parseInt wr.amount).1.natAbs := by omega
  rw [same]

/-- Thirty-two bytes are a vector of that many. -/
theorem exists_vector {bytes : Bytes} (width : bytes.length = 32) :
    ∃ v : Vector UInt8 32, v.toList = bytes := ⟨⟨bytes.toArray, by simpa using width⟩, by simp⟩

/-- The lamports of a transaction that the builder writes. -/
theorem solanaValue_transaction (source target blockhash : Vector UInt8 32) {lamports : Nat}
    (bound : lamports < 2 ^ 64) (width : signature.length = 64) :
    solanaValue (buildSolanaTransaction (buildSolanaMessage source.toList target.toList lamports
      blockhash.toList) [signature]) = some lamports := by
  have signatures (rest : Bytes) := @readArray_keys [signature] 64 (by simp) (by simp [width]) rest
  have read (rest : Bytes) : readTransaction (buildSolanaTransaction rest [signature]) =
      (readMessage rest).bind fun p => some (([signature], p.1), p.2) := by
    simp only [readTransaction, buildSolanaTransaction, List.cons_append, signatures]
    rfl
  have field : (2 :: Solana.littleEndian 8 lamports).drop
      ((2 :: Solana.littleEndian 8 lamports).length - 8) = Solana.littleEndian 8 lamports := by simp
  simp only [solanaValue, read, readMessage_built, Option.bind_some, builtMessage,
    builtInstruction, Instruction.lamports, field]
  exact congrArg some (value_littleEndian (by omega))

/-- A Solana address is a key of the network. -/
theorem decodeSolanaPubkey_ok {address : String} {target : Bytes}
    (decoded : decodeSolanaPubkey libs address = .ok target) : target.length = 32 := by
  unfold decodeSolanaPubkey at decoded
  dsimp only at decoded
  split at decoded
  · cases decoded
  · split at decoded
    · cases decoded
    · rename_i width
      cases decoded
      exact not_not.mp width

/-- A signed Solana transaction pays the amount. -/
theorem solanaValue_assembled (hash : ∀ bytes, (libs.sha256 bytes).length = 32)
    (built : buildSolanaUnsignedTx libs wr = .ok unsigned)
    (assembled : unsigned.assemble signature = .ok bytes) :
    ∃ a, bigSetString wr.amount = some a ∧ solanaValue bytes = some a.natAbs := by
  unfold buildSolanaUnsignedTx at built
  cases decoded : decodeSolanaPubkey libs wr.toAddress with
  | error err => simp [decoded] at built
  | ok target =>
    rcases parsed : parseUint wr.amount.toList 64 with ⟨lamports, err⟩
    cases err with
    | some err => simp [decoded, parsed] at built
    | none =>
      simp only [decoded, parsed, Except.ok.injEq] at built
      rw [← built] at assembled
      dsimp only at assembled
      by_cases width : signature.length = 64
      · rw [if_neg (not_not_intro width), Except.ok.injEq] at assembled
        obtain ⟨source, from_source⟩ := exists_vector
          (hash wr.walletID.string.toUTF8.data.toList)
        obtain ⟨blockhash, from_blockhash⟩ := exists_vector
          (hash "solana-recent-blockhash-placeholder".toUTF8.data.toList)
        obtain ⟨key, from_target⟩ := exists_vector (decodeSolanaPubkey_ok decoded)
        obtain ⟨integer, bound⟩ := bigSetString_of_parseUint parsed
        have paid := solanaValue_transaction source key blockhash bound width
        rw [from_source, from_target, from_blockhash, assembled] at paid
        exact ⟨lamports, integer, paid⟩
      · rw [if_pos width] at assembled
        cases assembled

end Builders

/-! ## Whole withdrawals -/

section Withdrawals

variable {svc : Service} {w w' : World SagaCall} {id : UUID} {wr : WithdrawalRequest}
  {wallet : Wallet}

/-- Every withdrawal that `ConstructAndSign` signs pays the absolute value of its amount. -/
theorem signedValue_of_signed (hash : ∀ bytes, (svc.libs.sha256 bytes).length = 32)
    (finds : w.store.Finds id wr wallet)
    (success : (svc.constructAndSign id).Exec (step (.constructAndSign id)) w (.ok ()) w') :
    ∃ row, w'.store.withdrawals.get id = some row ∧ row.state = .signed ∧
      row.amount = wr.amount ∧ (row.signedTxBytes.length < 2 ^ 63 →
        ∃ a, bigSetString wr.amount = some a ∧
          signedValue svc.libs wallet.chain row = some a.natAbs) := by
  obtain ⟨n, ops, wr', reserved, unsigned, signature, bytes, reservation, built, assembled,
    stored⟩ := constructAndSign_signed finds success
  have amount : wr'.amount = wr.amount := by cases reservation <;> rfl
  refine ⟨_, stored, rfl, amount, fun fits => ?_⟩
  unfold signedValue
  cases reservation with
  | nonce evm =>
    rw [if_pos evm]
    exact evmValue_assembled evm built assembled fits
  | outpoints bitcoin selected =>
    have notEVM : ¬ wallet.chain.isEVM = true := by rw [bitcoin]; decide
    rw [if_neg notEVM, if_pos bitcoin]
    rw [buildUnsignedTx, if_neg notEVM, if_pos bitcoin] at built
    obtain ⟨tx, message, -⟩ := buildBTCUnsignedTx_ok built
    let row := { wr with reservedOutpoints := ops, signedTxBytes := bytes, state := .signed }
    have recorded : btcMsgTx svc.libs row row.reservedOutpoints = .ok tx := message
    exact btcValue_built recorded selected
  | nothing other notBitcoin =>
    have notEVM : ¬ wallet.chain.isEVM = true := by simp [other]
    rw [if_neg notEVM, if_neg notBitcoin]
    rw [buildUnsignedTx, if_neg notEVM, if_neg notBitcoin] at built
    by_cases solana : wallet.chain = .solana
    · rw [if_pos solana] at built
      exact solanaValue_assembled hash built assembled
    · rw [if_neg solana] at built
      cases built

/-- Every withdrawal that `ConstructAndSign` signs, on every chain and for every amount, pays its
amount, and a positive one, exactly when the amount is positive. -/
theorem signed_amount_iff (hash : ∀ bytes, (svc.libs.sha256 bytes).length = 32)
    (finds : w.store.Finds id wr wallet)
    (success : (svc.constructAndSign id).Exec (step (.constructAndSign id)) w (.ok ()) w') :
    ∃ row, w'.store.withdrawals.get id = some row ∧ row.state = .signed ∧
      row.amount = wr.amount ∧ (row.signedTxBytes.length < 2 ^ 63 →
        (PaysAmount svc.libs wallet.chain row ↔ PositiveAmount wr)) := by
  obtain ⟨row, stored, signed, amount, pays⟩ := signedValue_of_signed hash finds success
  refine ⟨row, stored, signed, amount, fun fits => ?_⟩
  obtain ⟨a, integer, value⟩ := pays fits
  unfold PaysAmount PositiveAmount
  rw [amount, integer, value]
  constructor
  · rintro ⟨v, same, read, positive⟩
    exact ⟨v, read, by exact_mod_cast positive⟩
  · rintro ⟨a', same, positive⟩
    cases same
    refine ⟨a.natAbs, rfl, ?_, by omega⟩
    rw [Int.natAbs_of_nonneg positive.le]

end Withdrawals

/-- A request for an amount of wei, written as given. -/
def sampleWeiRequest (amount : String) : CreateRequest :=
  ⟨sampleEVMWallet.id, sampleEVMAddress, "ETH", amount⟩

/-- The withdrawal of `sampleWeiRequest` is created. -/
def sampleRequested (amount : String) : World SagaCall :=
  sampleService.play [(.create (sampleWeiRequest amount), accepting 9)] sampleStart

/-- The withdrawal of `sampleRequested` is signed. -/
def sampleAmountSigned (amount : String) : World SagaCall :=
  ((sampleService.constructAndSign (sampleID 9)).run
    ((accepting 9).handle (.constructAndSign (sampleID 9))) (sampleRequested amount)).2

/-- The signature of a withdrawal of `sampleRequested` succeeds. -/
theorem sampleAmountSigned_exec {amount : String}
    (success : ((sampleService.constructAndSign (sampleID 9)).run
      ((accepting 9).handle (.constructAndSign (sampleID 9))) (sampleRequested amount)).1 =
        .ok ()) :
    (sampleService.constructAndSign (sampleID 9)).Exec (step (.constructAndSign (sampleID 9)))
      (sampleRequested amount) (.ok ()) (sampleAmountSigned amount) := by
  have execution := Program.exec_run
    (fun op w => (accepting 9).handle_follows (.constructAndSign (sampleID 9)) op w)
    (sampleService.constructAndSign (sampleID 9)) (sampleRequested amount)
  rwa [success] at execution

/-- A withdrawal of one wei pays one wei. -/
theorem signed_amount_iff_wei :
    ∃ row, (sampleAmountSigned "1").store.withdrawals.get (sampleID 9) = some row ∧
      PaysAmount sampleLibraries sampleEVMWallet.chain row := by
  have success := @sampleAmountSigned_exec "1" (by decide +kernel)
  have found : ((sampleRequested "1").store.withdrawals.get (sampleID 9)).map
      (fun wr => (wr.walletID, wr.amount)) = some (sampleEVMWallet.id, "1") := by decide +kernel
  have owned : (sampleRequested "1").store.wallets.get sampleEVMWallet.id =
      some sampleEVMWallet := by
    decide +kernel
  obtain ⟨wr, withdrawal, terms⟩ := Option.map_eq_some_iff.mp found
  obtain ⟨walletID, amount⟩ := Prod.mk.inj terms
  have hash (bytes : Bytes) : (sampleLibraries.sha256 bytes).length = 32 := rfl
  obtain ⟨row, stored, -, -, pays⟩ :=
    signed_amount_iff hash ⟨withdrawal, walletID ▸ owned⟩ success
  have short : ((sampleAmountSigned "1").store.withdrawals.get (sampleID 9)).all
      (fun row => row.signedTxBytes.length < 2 ^ 63) = true := by decide +kernel
  rw [stored] at short
  refine ⟨row, stored, (pays (of_decide_eq_true short)).mpr ⟨1, ?_, by decide⟩⟩
  rw [amount]
  decide +kernel

/-- A withdrawal of minus one wei is signed, and pays one wei. -/
theorem minus_one_pays_one :
    ∃ row, (sampleService.constructAndSign (sampleID 9)).Exec
        (step (.constructAndSign (sampleID 9))) (sampleRequested "-1") (.ok ())
        (sampleAmountSigned "-1") ∧
      (sampleAmountSigned "-1").store.withdrawals.get (sampleID 9) = some row ∧
      row.state = .signed ∧ bigSetString row.amount = some (-1) ∧
      signedValue sampleLibraries sampleEVMWallet.chain row = some 1 := by
  have success := @sampleAmountSigned_exec "-1" (by decide +kernel)
  have found : ((sampleAmountSigned "-1").store.withdrawals.get (sampleID 9)).map
      (fun row => (row.state, bigSetString row.amount,
        signedValue sampleLibraries sampleEVMWallet.chain row)) =
      some (.signed, some (-1), some 1) := by decide +kernel
  obtain ⟨row, stored, same⟩ := Option.map_eq_some_iff.mp found
  obtain ⟨state, rest⟩ := Prod.mk.inj same
  obtain ⟨amount, value⟩ := Prod.mk.inj rest
  exact ⟨row, success, stored, state, amount, value⟩

end WalletManagement
