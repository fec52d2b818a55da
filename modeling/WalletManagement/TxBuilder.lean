import WalletManagement.MemStore
import Mathlib.Data.Nat.Digits.Defs

/-!
# Building transactions

`internal/withdrawal/txbuilder.go`: for each kind of chain, the unsigned transaction of a
withdrawal, the payload the signer signs, and the function that injects the signature and
returns the bytes to broadcast. Hashes, address codecs and the serializer of the Bitcoin
library are parameters; the layout of the transactions is the repository's own.
-/

namespace WalletManagement

open Go

/-- Bytes. -/
abbrev Bytes : Type := List UInt8

/-! ## The libraries the builders call -/

/-- `wire.OutPoint`. -/
structure OutPoint where
  hash : Bytes
  index : Nat
  deriving DecidableEq

/-- `wire.TxIn`. -/
structure TxIn where
  previousOutPoint : OutPoint
  sequence : Nat
  witness : List Bytes := []
  deriving DecidableEq

/-- `wire.TxOut`. -/
structure TxOut where
  value : Int
  pkScript : Bytes
  deriving DecidableEq

/-- `wire.MsgTx`. -/
structure MsgTx where
  version : Int
  txIn : List TxIn := []
  txOut : List TxOut := []
  lockTime : Nat := 0
  deriving DecidableEq

/-- `btcutil.Address`, by its encoded form. -/
structure BTCAddress where
  encoded : String
  deriving DecidableEq

/-- The hashes, address codecs and serializers that the builders call. -/
structure Libraries where
  /-- `strconv.Quote`, the `%q` verb of the error texts. -/
  quote : String → String
  /-- `sha3.NewLegacyKeccak256`. -/
  keccak256 : Bytes → Bytes
  /-- `sha256.Sum256`. -/
  sha256 : Bytes → Bytes
  /-- `base58.Decode`. -/
  base58Decode : String → Bytes
  /-- `btcutil.DecodeAddress` on the main network. -/
  decodeAddress : String → Except Err BTCAddress
  /-- `txscript.PayToAddrScript`. -/
  payToAddrScript : BTCAddress → Except Err Bytes
  /-- `btcutil.NewAddressWitnessPubKeyHash` of a twenty-byte hash on the main network. -/
  witnessPubKeyHash : Bytes → BTCAddress
  /-- `chainhash.NewHashFromStr`. -/
  newHashFromStr : String → Except Err Bytes
  /-- `txscript.CalcWitnessSigHash` with `SigHashAll` and the given previous outputs. -/
  calcWitnessSigHash : Bytes → List (OutPoint × TxOut) → MsgTx → Nat → Int → Except Err Bytes
  /-- `wire.MsgTx.Serialize`. -/
  serialize : MsgTx → Except Err Bytes
  /-- `EVMChainID`, a variable of the package. -/
  evmChainID : Nat := 1
  /-- `EVMGasPrice`, a variable of the package. -/
  evmGasPrice : Nat := 1000000000

/-- `EVMGasLimit`. -/
def evmGasLimit : Nat := 21000

/-- `UnsignedTx`. -/
structure UnsignedTx where
  chain : Chain
  /-- What the signer signs. -/
  payload : Bytes
  /-- Inject the signature and serialize. -/
  assemble : Bytes → Except Err Bytes

/-- The text of an error of the functions of `strconv`. -/
def numErrorText (libs : Libraries) (fn input : String) (err : NumError) : Err :=
  ⟨"strconv." ++ fn ++ ": parsing " ++ libs.quote input ++ ": " ++
    (match err with
      | .format => "invalid syntax"
      | .range => "value out of range"), none⟩

/-! ## EVM -/

/-- `big.Int.Bytes`, and `bigUint`: big-endian without leading zero bytes. -/
def bigUint (n : Nat) : Bytes := (Nat.digits 256 n).reverse.map UInt8.ofNat

/-- `big.Int.SetBytes`. -/
def setBytes (bytes : Bytes) : Nat := bytes.foldl (fun n byte => n * 256 + byte.toNat) 0

/-- `rlpEncodeLenPrefix`. -/
def rlpEncodeLenPrefix (n : Nat) (offset longOffset : UInt8) : Bytes :=
  if n ≤ 55 then [UInt8.ofNat n + offset]
  else (longOffset + UInt8.ofNat (bigUint n).length) :: bigUint n

/-- `rlpEncodeItem`. -/
def rlpEncodeItem (b : Bytes) : Bytes :=
  match b with
  | [byte] => if byte < 0x80 then [byte] else rlpEncodeLenPrefix 1 0x80 0xb7 ++ [byte]
  | b => rlpEncodeLenPrefix b.length 0x80 0xb7 ++ b

/-- `evmEncodeList`. -/
def evmEncodeList (elems : List Bytes) : Bytes :=
  let inner := elems.flatMap rlpEncodeItem
  rlpEncodeLenPrefix inner.length 0xc0 0xf7 ++ inner

/-- `evmLegacyTx`. -/
structure EVMLegacyTx where
  nonce : Nat
  gasPrice : Nat
  gasLimit : Nat
  toAddress : Bytes
  value : Int
  data : Bytes
  deriving DecidableEq

/-- The first six elements of both encodings; `big.Int.Bytes` drops the sign. -/
def EVMLegacyTx.elems (tx : EVMLegacyTx) : List Bytes :=
  [bigUint tx.nonce, bigUint tx.gasPrice, bigUint tx.gasLimit, tx.toAddress,
    bigUint tx.value.natAbs, tx.data]

/-- `evmEncodeLegacyForSigning`. -/
def evmEncodeLegacyForSigning (tx : EVMLegacyTx) (chainID : Nat) : Bytes :=
  evmEncodeList (tx.elems ++ [bigUint chainID, [], []])

/-- `evmEncodeSignedTx`. -/
def evmEncodeSignedTx (tx : EVMLegacyTx) (r s v : Nat) : Bytes :=
  evmEncodeList (tx.elems ++ [bigUint v, bigUint r, bigUint s])

/-- `evmSigFromMPC`: `r`, `s` and `v` of a 65-byte compact signature. -/
def evmSigFromMPC (sig : Bytes) (chainID : Nat) : Except Err (Nat × Nat × Nat) :=
  if sig.length ≠ 65 then
    .error ⟨"evm: signature must be 65 bytes, got " ++ toString sig.length, none⟩
  else
    let header := (sig.headD 0).toNat
    if header < 27 ∨ 34 < header then
      .error ⟨"evm: invalid recovery header " ++ toString header, none⟩
    else
      -- the compressed bit of the header is masked off
      let recoveryID := if header - 27 ≥ 4 then header - 27 - 4 else header - 27
      .ok (setBytes ((sig.drop 1).take 32), setBytes ((sig.drop 33).take 32),
        chainID * 2 + (35 + recoveryID))

/-- `hexNibble`. -/
def hexNibble (c : UInt8) : Option UInt8 :=
  if 0x30 ≤ c ∧ c ≤ 0x39 then some (c - 0x30)
  else if 0x61 ≤ c ∧ c ≤ 0x66 then some (c - 0x61 + 10)
  else if 0x41 ≤ c ∧ c ≤ 0x46 then some (c - 0x41 + 10)
  else none

/-- The bytes of pairs of hexadecimal digits. -/
def hexBytes : Bytes → Option Bytes
  | hi :: lo :: rest =>
    match hexNibble hi, hexNibble lo with
    | some hi, some lo => (hexBytes rest).map ((hi <<< 4 ||| lo) :: ·)
    | _, _ => none
  | _ => some []

/-- `parseEVMAddress`. -/
def parseEVMAddress (libs : Libraries) (s : String) : Except Err Bytes :=
  let s := trimSpace s
  match s.toUTF8.data.toList with
  | 0x30 :: 0x78 :: digits =>
    if digits.length ≠ 40 then .error ⟨"invalid EVM address " ++ libs.quote s, none⟩
    else
      match hexBytes digits with
      | some bytes => .ok bytes
      | none => .error ⟨"invalid hex in EVM address " ++ libs.quote s, none⟩
  | _ => .error ⟨"invalid EVM address " ++ libs.quote s, none⟩

/-- `buildEVMUnsignedTx`. -/
def buildEVMUnsignedTx (libs : Libraries) (w : Wallet) (wr : WithdrawalRequest) (nonce : Int) :
    Except Err UnsignedTx :=
  match parseEVMAddress libs wr.toAddress with
  | .error err => .error (err.wrap "evm to_address")
  | .ok toAddress =>
    match bigSetString wr.amount with
    | none => .error ⟨"evm amount parse: " ++ libs.quote wr.amount, none⟩
    | some value =>
      let tx : EVMLegacyTx :=
        -- `toNat` also sends the negative nonces to zero
        ⟨nonce.toNat, libs.evmGasPrice, evmGasLimit, toAddress, value, []⟩
      .ok {
        chain := w.chain
        payload := libs.keccak256 (evmEncodeLegacyForSigning tx libs.evmChainID)
        assemble := fun signature =>
          match evmSigFromMPC signature libs.evmChainID with
          | .error err => .error err
          | .ok (r, s, v) => .ok (evmEncodeSignedTx tx r s v) }

/-! ## Bitcoin -/

/-- `strings.SplitN(s, ":", 2)`, when it has two parts. -/
def splitColon : List Char → Option (List Char × List Char)
  | [] => none
  | c :: rest => if c = ':' then some ([], rest) else (splitColon rest).map fun p => (c :: p.1, p.2)

/-- `parseOutpoint`. -/
def parseOutpoint (libs : Libraries) (s : String) : Except Err OutPoint :=
  match splitColon s.toList with
  | none => .error ⟨"outpoint must be txid:vout", none⟩
  | some (txid, vout) =>
    match libs.newHashFromStr (String.ofList txid) with
    | .error err => .error (err.wrap "parse txid")
    | .ok hash =>
      match parseUint vout 32 with
      | (_, some err) =>
        .error ((numErrorText libs "ParseUint" (String.ofList vout) err).wrap "parse vout")
      | (index, none) => .ok ⟨hash, index⟩

/-- `btcAddrScript`. -/
def btcAddrScript (libs : Libraries) (addr : String) : Except Err Bytes :=
  match libs.decodeAddress addr with
  | .error err => .error err
  | .ok address => libs.payToAddrScript address

/-- The input loop of `buildBTCUnsignedTx`. -/
def btcInputs (libs : Libraries) : List String → Except Err (List TxIn)
  | [] => .ok []
  | op :: rest =>
    match parseOutpoint libs op with
    | .error err => .error (err.wrap ("btc outpoint " ++ libs.quote op))
    | .ok outpoint =>
      match btcInputs libs rest with
      | .error err => .error err
      | .ok inputs => .ok ({ previousOutPoint := outpoint, sequence := 0xfffffffd } :: inputs)

/-- The transaction `buildBTCUnsignedTx` builds, before its witnesses are set. -/
def btcMsgTx (libs : Libraries) (wr : WithdrawalRequest) (outpoints : List String) :
    Except Err MsgTx :=
  if outpoints = [] then .error ⟨"btc: no reserved outpoints", none⟩
  else
    match parseInt wr.amount with
    | (_, some err) =>
      .error ((numErrorText libs "ParseInt" wr.amount err).wrap "btc amount parse")
    | (amount, none) =>
      match btcAddrScript libs wr.toAddress with
      | .error err => .error (err.wrap "btc to_address")
      | .ok toScript =>
        match btcInputs libs outpoints with
        | .error err => .error err
        | .ok txIn => .ok { version := 2, txIn, txOut := [⟨amount, toScript⟩] }

/-- The loop over the inputs that concatenates their signature hashes. -/
def btcSigHashes (libs : Libraries) (prevOuts : List (OutPoint × TxOut)) (tx : MsgTx)
    (perInputAmount : Int) : List Nat → Except Err Bytes
  | [] => .ok []
  | i :: rest =>
    match libs.calcWitnessSigHash (List.replicate 20 0) prevOuts tx i perInputAmount with
    | .error err => .error (err.wrap ("sighash input " ++ toString i))
    | .ok hash =>
      match btcSigHashes libs prevOuts tx perInputAmount rest with
      | .error err => .error err
      | .ok hashes => .ok (hash ++ hashes)

/-- The transaction with the witnesses that `Assemble` sets: for each input its 64 bytes of
the signature, the hash type, and an empty public key. -/
def MsgTx.witnessed (tx : MsgTx) (signature : Bytes) : MsgTx :=
  { tx with
    txIn := tx.txIn.mapIdx fun i input =>
      { input with
        witness := [(signature.drop (i * 64)).take 64 ++ [0x01], List.replicate 33 0] } }

/-- `buildBTCUnsignedTx`. -/
def buildBTCUnsignedTx (libs : Libraries) (wr : WithdrawalRequest) (outpoints : List String) :
    Except Err UnsignedTx :=
  match btcMsgTx libs wr outpoints with
  | .error err => .error err
  | .ok tx =>
    let perInputAmount := (parseInt wr.amount).1.tdiv outpoints.length
    let placeholder :=
      match libs.payToAddrScript (libs.witnessPubKeyHash (List.replicate 20 0)) with
      | .ok script => script
      | .error _ => []
    let prevOuts := tx.txIn.map fun input => (input.previousOutPoint, ⟨perInputAmount, placeholder⟩)
    match btcSigHashes libs prevOuts tx perInputAmount (List.range tx.txIn.length) with
    | .error err => .error err
    | .ok payload =>
      .ok {
        chain := .bitcoin
        payload
        assemble := fun signature =>
          if signature.length < 64 * tx.txIn.length then
            .error ⟨"btc: signature too short (" ++ toString signature.length ++ " bytes for " ++
              toString tx.txIn.length ++ " inputs)", none⟩
          else
            match libs.serialize (tx.witnessed signature) with
            | .error err => .error (err.wrap "btc serialize")
            | .ok bytes => .ok bytes }

/-! ## Solana -/

/-- `solanaSystemProgram`: in base 58, each of the 32 digits `1` is a zero byte. -/
def solanaSystemProgram : Bytes := List.replicate 32 0

/-- `decodeSolanaPubkey`. -/
def decodeSolanaPubkey (libs : Libraries) (s : String) : Except Err Bytes :=
  let dec := libs.base58Decode s
  if dec.length = 0 ∧ s ≠ "11111111111111111111111111111111" then
    .error ⟨"base58 decode " ++ libs.quote s, none⟩
  else if dec.length ≠ 32 then
    .error ⟨"pubkey " ++ libs.quote s ++ " must be 32 bytes, got " ++ toString dec.length, none⟩
  else .ok dec

/-- `binary.LittleEndian.PutUint64`. -/
def littleEndian64 (n : Nat) : Bytes :=
  (List.range 8).map fun i => UInt8.ofNat (n / 256 ^ i)

/-- `buildSolanaMessage`. -/
def buildSolanaMessage (source target : Bytes) (lamports : Nat) (blockhash : Bytes) : Bytes :=
  let ixData := 2 :: littleEndian64 lamports
  [1, 0, 1] ++ [3] ++ (source ++ target ++ solanaSystemProgram) ++ blockhash ++
    [1, 2, 2, 0, 1] ++ UInt8.ofNat ixData.length :: ixData

/-- `buildSolanaTransaction`. -/
def buildSolanaTransaction (message : Bytes) (signatures : List Bytes) : Bytes :=
  UInt8.ofNat signatures.length :: signatures.flatten ++ message

/-- `buildSolanaUnsignedTx`. -/
def buildSolanaUnsignedTx (libs : Libraries) (wr : WithdrawalRequest) : Except Err UnsignedTx :=
  match decodeSolanaPubkey libs wr.toAddress with
  | .error err => .error (err.wrap "solana to_address")
  | .ok target =>
    match parseUint wr.amount.toList 64 with
    | (_, some err) =>
      .error ((numErrorText libs "ParseUint" wr.amount err).wrap "solana amount parse")
    | (lamports, none) =>
      let source := libs.sha256 wr.walletID.string.toUTF8.data.toList
      let blockhash := libs.sha256 "solana-recent-blockhash-placeholder".toUTF8.data.toList
      let msg := buildSolanaMessage source target lamports blockhash
      .ok {
        chain := .solana
        payload := msg
        assemble := fun signature =>
          if signature.length ≠ 64 then
            .error ⟨"solana: signature must be 64 bytes, got " ++ toString signature.length, none⟩
          else .ok (buildSolanaTransaction msg [signature]) }

/-! ## All chains -/

/-- `BuildUnsignedTx`. -/
def buildUnsignedTx (libs : Libraries) (w : Wallet) (wr : WithdrawalRequest) (nonce : Int)
    (outpoints : List String) : Except Err UnsignedTx :=
  if w.chain.isEVM then buildEVMUnsignedTx libs w wr nonce
  else if w.chain = .bitcoin then buildBTCUnsignedTx libs wr outpoints
  else if w.chain = .solana then buildSolanaUnsignedTx libs wr
  else .error ⟨"unsupported chain " ++ libs.quote w.chain.name, none⟩

/-- The builders read the wallet, the target address and the amount of a withdrawal, and
nothing else of it. -/
theorem buildUnsignedTx_congr (libs : Libraries) (w : Wallet) {wr wr' : WithdrawalRequest}
    (wallet : wr.walletID = wr'.walletID) (target : wr.toAddress = wr'.toAddress)
    (amount : wr.amount = wr'.amount) (nonce : Int) (outpoints : List String) :
    buildUnsignedTx libs w wr nonce outpoints = buildUnsignedTx libs w wr' nonce outpoints := by
  simp only [buildUnsignedTx, buildEVMUnsignedTx, buildBTCUnsignedTx, btcMsgTx,
    buildSolanaUnsignedTx, wallet, target, amount]

end WalletManagement
