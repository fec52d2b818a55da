import WalletManagement.Scripted

/-!
# What is signed for an EVM withdrawal

The signer of an EVM withdrawal sees the hash of a list whose seventh item is meant to name the
chain. The builder takes that item from a variable of its package, not from the wallet, so the
bytes it hashes, and the bytes it broadcasts with the signature, are the same on every EVM chain.
-/

namespace WalletManagement

/-- The transaction `buildEVMUnsignedTx` fills in. -/
def evmLegacyTx (libs : Libraries) (wr : WithdrawalRequest) (nonce : Int) :
    Except Err EVMLegacyTx :=
  match parseEVMAddress libs wr.toAddress with
  | .error err => .error (err.wrap "evm to_address")
  | .ok toAddress =>
    match Go.bigSetString wr.amount with
    | none => .error ⟨"evm amount parse: " ++ libs.quote wr.amount, none⟩
    | some value => .ok ⟨nonce.toNat, libs.evmGasPrice, evmGasLimit, toAddress, value, []⟩

/-- The unsigned transaction `buildEVMUnsignedTx` returns for it. -/
def EVMLegacyTx.unsigned (tx : EVMLegacyTx) (libs : Libraries) (chain : Chain) : UnsignedTx where
  chain
  payload := libs.keccak256 (evmEncodeLegacyForSigning tx libs.evmChainID)
  assemble signature :=
    match evmSigFromMPC signature libs.evmChainID with
    | .error err => .error err
    | .ok (r, s, v) => .ok (evmEncodeSignedTx tx r s v)

/-- The bytes `BuildUnsignedTx` hashes for an EVM wallet: the payload, with the hash left out. -/
def signingPreimage (libs : Libraries) (w : Wallet) (wr : WithdrawalRequest) (nonce : Int)
    (outpoints : List String) : Except Err Bytes :=
  (buildUnsignedTx { libs with keccak256 := id } w wr nonce outpoints).map UnsignedTx.payload

section Preimage

variable {libs : Libraries} {w w' : Wallet} {wr : WithdrawalRequest} {nonce : Int}
  {outpoints : List String} {unsigned : UnsignedTx}

/-- On an EVM chain the builder fills in a transaction; of the wallet it reads the chain only, and
only to repeat it. -/
theorem buildUnsignedTx_evm (evm : w.chain.isEVM = true) :
    buildUnsignedTx libs w wr nonce outpoints =
      (evmLegacyTx libs wr nonce).map fun tx => tx.unsigned libs w.chain := by
  simp only [buildUnsignedTx, if_pos evm, buildEVMUnsignedTx, evmLegacyTx]
  cases parseEVMAddress libs wr.toAddress with
  | error err => rfl
  | ok toAddress => cases Go.bigSetString wr.amount <;> rfl

/-- The pre-image is the signing form of that transaction. -/
theorem signingPreimage_evm (evm : w.chain.isEVM = true) :
    signingPreimage libs w wr nonce outpoints =
      (evmLegacyTx libs wr nonce).map fun tx => evmEncodeLegacyForSigning tx libs.evmChainID := by
  have unhashed :
      evmLegacyTx { libs with keccak256 := id } wr nonce = evmLegacyTx libs wr nonce := rfl
  rw [signingPreimage, buildUnsignedTx_evm evm, unhashed]
  cases evmLegacyTx libs wr nonce <;> rfl

/-- For every two wallets on different EVM chains, a withdrawal that is accepted for one of them is
accepted for the other, the two hash the same pre-image, and what a signature of one of them makes
to broadcast is what it makes of the other. -/
theorem evm_withdrawal_replayable (evm : w.chain.isEVM = true) (evm' : w'.chain.isEVM = true)
    (different : w.chain ≠ w'.chain)
    (accepted : buildUnsignedTx libs w wr nonce outpoints = .ok unsigned) :
    ∃ message unsigned', signingPreimage libs w wr nonce outpoints = .ok message ∧
      signingPreimage libs w' wr nonce outpoints = .ok message ∧
      buildUnsignedTx libs w' wr nonce outpoints = .ok unsigned' ∧
      unsigned.chain ≠ unsigned'.chain ∧
      unsigned.payload = libs.keccak256 message ∧ unsigned'.payload = libs.keccak256 message ∧
      unsigned'.assemble = unsigned.assemble := by
  rw [buildUnsignedTx_evm evm] at accepted
  cases filled : evmLegacyTx libs wr nonce with
  | error err =>
    rw [filled] at accepted
    cases accepted
  | ok tx =>
    rw [filled] at accepted
    cases accepted
    refine ⟨evmEncodeLegacyForSigning tx libs.evmChainID, tx.unsigned libs w'.chain, ?_, ?_, ?_,
      different, rfl, rfl, rfl⟩
    · rw [signingPreimage_evm evm, filled]
      rfl
    · rw [signingPreimage_evm evm', filled]
      rfl
    · rw [buildUnsignedTx_evm evm', filled]
      rfl

end Preimage

/-! ## A worked withdrawal -/

/-- A wallet on Polygon. -/
def samplePolygonWallet : Wallet := { sampleEVMWallet with id := sampleID 3, chain := .polygon }

/-- A withdrawal of one wei. -/
def sampleWei : WithdrawalRequest := (sampleEVMRequest "ETH").withdrawal (sampleID 10)

/-- The bytes hashed for a withdrawal of one wei with nonce zero: gas price 10⁹, gas limit 21000,
the address, the value one, no data, and the chain identifier of Ethereum. -/
def sampleWeiPreimage : Bytes :=
  [0xe3, 0x80, 0x84, 0x3b, 0x9a, 0xca, 0x00, 0x82, 0x52, 0x08, 0x94] ++
    [0x52, 0x90, 0x84, 0x00, 0x09, 0x85, 0x27, 0x88, 0x6e, 0x0f,
      0x70, 0x30, 0x06, 0x98, 0x57, 0xd2, 0xe4, 0x16, 0x9e, 0xe7] ++
    [0x01, 0x80, 0x01, 0x80, 0x80]

/-- The withdrawal of one wei is accepted on Ethereum, so it can be replayed on Polygon. -/
theorem evm_withdrawal_replayable_wei :
    ∃ unsigned, buildUnsignedTx sampleLibraries sampleEVMWallet sampleWei 0 [] = .ok unsigned ∧
      ∃ message unsigned',
        signingPreimage sampleLibraries sampleEVMWallet sampleWei 0 [] = .ok message ∧
        signingPreimage sampleLibraries samplePolygonWallet sampleWei 0 [] = .ok message ∧
        buildUnsignedTx sampleLibraries samplePolygonWallet sampleWei 0 [] = .ok unsigned' ∧
        unsigned'.assemble = unsigned.assemble := by
  have valid : (buildUnsignedTx sampleLibraries sampleEVMWallet sampleWei 0 []).isOk = true := by
    decide +kernel
  cases built : buildUnsignedTx sampleLibraries sampleEVMWallet sampleWei 0 [] with
  | error err =>
    rw [built] at valid
    cases valid
  | ok unsigned =>
    have evm : samplePolygonWallet.chain.isEVM = true := by decide
    obtain ⟨message, unsigned', here, there, accepted, -, -, -, same⟩ :=
      evm_withdrawal_replayable (by decide) evm (by decide) built
    exact ⟨unsigned, rfl, message, unsigned', here, there, accepted, same⟩

/-- A wallet on Ethereum and one on Polygon hash the same bytes for it. -/
theorem preimage_on_two_chains :
    sampleEVMWallet.chain = .ethereum ∧ samplePolygonWallet.chain = .polygon ∧
      signingPreimage sampleLibraries sampleEVMWallet sampleWei 0 [] = .ok sampleWeiPreimage ∧
      signingPreimage sampleLibraries samplePolygonWallet sampleWei 0 [] =
        .ok sampleWeiPreimage := by
  refine ⟨rfl, rfl, ?_, ?_⟩
  · decide +kernel
  · decide +kernel

end WalletManagement
