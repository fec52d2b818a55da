import WalletManagement.Rlp
import WalletManagement.EVMSigning

/-!
# The bytes of EVM transactions

The builder's own encoder writes recursive length prefix lists of byte strings. It agrees with the
canonical encoding of such lists, so a strict decoder reads its output back and nothing else reads
the same. The list that is hashed for the signer and the list that is broadcast are written
separately; read back, they share the six fields of the transaction, and the list that is hashed
determines the transaction and the chain.
-/

namespace WalletManagement

/-! ## The encoder is canonical -/

/-- The builder's length prefix, for the offsets of strings and of lists. -/
theorem rlpEncodeLenPrefix_eq (kind : Rlp.Kind) (n : Nat) :
    rlpEncodeLenPrefix n (UInt8.ofNat kind.base) (UInt8.ofNat (kind.base + 55)) =
      Rlp.lengthPrefix kind n := by
  unfold rlpEncodeLenPrefix Rlp.lengthPrefix
  split
  · rw [UInt8.ofNat_add, UInt8.add_comm]
  · rw [← UInt8.ofNat_add]
    rfl

/-- The builder's strings. -/
theorem rlpEncodeItem_eq (b : Bytes) : rlpEncodeItem b = Rlp.encodeString b := by
  have header := rlpEncodeLenPrefix_eq .string b.length
  unfold rlpEncodeItem Rlp.encodeString
  split
  · rename_i byte
    by_cases bare : byte < 0x80
    · simp [Rlp.isBare, bare]
    · rw [if_neg bare, if_neg (by simpa [Rlp.isBare] using bare), ← header]
      rfl
  · rename_i several
    have marked : Rlp.isBare b = false := by
      unfold Rlp.isBare
      split
      · rename_i byte
        exact absurd rfl (several byte)
      · rfl
    rw [marked, ← header]
    rfl

/-- The builder's lists. -/
theorem evmEncodeList_eq (elems : List Bytes) :
    evmEncodeList elems = Rlp.encode (.list (elems.map .string)) := by
  rw [Rlp.encode, Rlp.encodeAll_strings, ← rlpEncodeLenPrefix_eq, evmEncodeList,
    show rlpEncodeItem = Rlp.encodeString from funext rlpEncodeItem_eq]
  rfl

/-- The strings of a list item are determined. -/
theorem strings_injective : Function.Injective fun elems : List Bytes =>
    Rlp.Item.list (elems.map .string) := by
  intro elems elems' same
  exact List.map_injective_iff.mpr (fun _ _ => Rlp.Item.string.inj) (Rlp.Item.list.inj same)

/-- A Go slice has fewer bytes than a length prefix can announce. -/
theorem fits_header {bytes : Bytes} (fits : bytes.length < 2 ^ 63) : bytes.length < 256 ^ 8 :=
  fits.trans (by decide)

section Lists

variable {elems : List Bytes}

/-- A strict decoder reads a list that fits in memory back, and leaves what follows it. -/
theorem decode_evmEncodeList (fits : (evmEncodeList elems).length < 2 ^ 63) (rest : Bytes) :
    Rlp.decode (evmEncodeList elems ++ rest) = some (.list (elems.map .string), rest) := by
  rw [evmEncodeList_eq] at fits ⊢
  exact Rlp.decode_encode (fits_header fits) rest

/-- For every list of byte strings whose encoding fits in memory: the strict decoder accepts the
encoding, consumes all of it and returns the list; it reads the list from no other bytes; and an
encoding that equals it, or that it starts, encodes the same list. -/
theorem evmEncodeList_decodes (fits : (evmEncodeList elems).length < 2 ^ 63) :
    Rlp.decode (evmEncodeList elems) = some (.list (elems.map .string), []) ∧
      (∀ bytes, Rlp.decode bytes = some (.list (elems.map .string), []) →
        bytes = evmEncodeList elems) ∧
      ∀ elems', (evmEncodeList elems').length < 2 ^ 63 →
        (evmEncodeList elems = evmEncodeList elems' → elems = elems') ∧
        (evmEncodeList elems <+: evmEncodeList elems' →
          evmEncodeList elems = evmEncodeList elems') := by
  have starts {elems' : List Bytes} (fits' : (evmEncodeList elems').length < 2 ^ 63)
      (front : evmEncodeList elems <+: evmEncodeList elems') : elems = elems' := by
    rw [evmEncodeList_eq] at fits fits' front
    rw [evmEncodeList_eq] at front
    exact strings_injective
      (Rlp.eq_of_encode_starts (fits_header fits) (fits_header fits') front)
  refine ⟨?_, fun bytes read => ?_, fun elems' fits' => ⟨fun same => ?_, fun front => ?_⟩⟩
  · have read := decode_evmEncodeList fits []
    rwa [List.append_nil] at read
  · rw [Rlp.eq_encode_of_decode read, evmEncodeList_eq, List.append_nil]
  · exact starts fits' (same ▸ List.prefix_rfl)
  · rw [starts fits' front]

end Lists

/-- The empty list, a string of one byte on each side of `0x80`, and a string of 56 bytes. -/
theorem evmEncodeList_decodes_sample :
    Rlp.decode (evmEncodeList [[], [0x7f], [0x80], List.replicate 56 0]) =
      some (.list ([[], [0x7f], [0x80], List.replicate 56 0].map .string), []) :=
  (evmEncodeList_decodes (by decide +kernel)).1

/-! ## What the items say -/

/-- An item that writes a number writes it without leading zeros. -/
def CanonicalNumber (item : Bytes) : Prop := item.head? ≠ some 0

/-- The transaction and the chain identifier that the items of a pre-image name. -/
def EVMLegacyTx.ofItems : List Bytes → Option (EVMLegacyTx × Nat)
  | [nonce, gasPrice, gasLimit, toAddress, value, data, chainID, [], []] =>
    some (⟨setBytes nonce, setBytes gasPrice, setBytes gasLimit, toAddress, setBytes value, data⟩,
      setBytes chainID)
  | _ => none

/-- The nine items of a pre-image. -/
def EVMLegacyTx.signingItems (tx : EVMLegacyTx) (chainID : Nat) : List Bytes :=
  tx.elems ++ [bigUint chainID, [], []]

@[simp] theorem setBytes_bigUint (n : Nat) : setBytes (bigUint n) = n := Rlp.value_bigEndian n

theorem bigUint_setBytes (bytes : Bytes) : bigUint (setBytes bytes) = bytes.dropWhile (· = 0) :=
  Rlp.bigEndian_value_eq_dropWhile bytes

theorem canonicalNumber_bigUint (n : Nat) : CanonicalNumber (bigUint n) := Rlp.head?_bigEndian n

/-- The items of a pre-image name its transaction and its chain. -/
theorem EVMLegacyTx.ofItems_signingItems {tx : EVMLegacyTx} (value : 0 ≤ tx.value) (chainID : Nat) :
    EVMLegacyTx.ofItems (tx.signingItems chainID) = some (tx, chainID) := by
  have sign : ((tx.value.natAbs : Nat) : Int) = tx.value := Int.natAbs_of_nonneg value
  simp [EVMLegacyTx.ofItems, signingItems, elems, sign]

/-- The items of a pre-image that write numbers, the two empty ones for zero included. -/
theorem EVMLegacyTx.canonical_signingItems {tx : EVMLegacyTx} {chainID i : Nat} {item : Bytes}
    (numeric : i ∈ [0, 1, 2, 4, 6, 7, 8]) (found : (tx.signingItems chainID)[i]? = some item) :
    CanonicalNumber item := by
  have zero : CanonicalNumber [] := by simp [CanonicalNumber]
  simp only [List.mem_cons, List.not_mem_nil, or_false] at numeric
  rcases numeric with rfl | rfl | rfl | rfl | rfl | rfl | rfl <;> cases found
  case inr.inr.inr.inr.inr.inl | inr.inr.inr.inr.inr.inr => exact zero
  all_goals exact canonicalNumber_bigUint _

/-- The recovery identifier of an accepted header, with its compressed bit masked off. -/
theorem recoveryID_eq_mod {header : Nat} (range : ¬ (header < 27 ∨ 34 < header)) :
    (if header - 27 ≥ 4 then header - 27 - 4 else header - 27) = (header - 27) % 4 := by
  split <;> omega

/-- What `evmSigFromMPC` makes of a signature it accepts, and the headers it accepts. -/
theorem evmSigFromMPC_ok {sig : Bytes} {chainID r s v : Nat}
    (accepted : evmSigFromMPC sig chainID = .ok (r, s, v)) :
    (r = setBytes ((sig.drop 1).take 32) ∧ s = setBytes ((sig.drop 33).take 32) ∧
      v = chainID * 2 + 35 + ((sig.headD 0).toNat - 27) % 4) ∧
      27 ≤ (sig.headD 0).toNat ∧ (sig.headD 0).toNat ≤ 34 := by
  unfold evmSigFromMPC at accepted
  split at accepted
  · cases accepted
  · dsimp only at accepted
    split at accepted
    · cases accepted
    · rename_i range
      rw [recoveryID_eq_mod range] at accepted
      cases accepted
      exact ⟨⟨rfl, rfl, by omega⟩, by omega, by omega⟩

/-! ## The chain that `v` names -/

/-- The recovery identifier in the header of a compact signature, whose third bit says whether the
key is compressed. -/
def recoveryID (sig : Bytes) : Nat := ((sig.headD 0).toNat - 27) % 4

/-- For every chain identifier and accepted signature, `v` names the chain and the recovery
identifier as `35 + 2 * chain + parity` exactly if the recovery identifier is a parity, that is for
the headers 27, 28, 31 and 32. Two accepted signatures with one `v` are for one chain exactly if
they have one recovery identifier; where both are parities they always do. -/
theorem v_names_chain_iff {sig sig' : Bytes} {c c' r s v r' s' v' : Nat}
    (accepted : evmSigFromMPC sig c = .ok (r, s, v))
    (accepted' : evmSigFromMPC sig' c' = .ok (r', s', v')) :
    (((v - 35) / 2 = c ∧ (v - 35) % 2 = recoveryID sig) ↔ recoveryID sig < 2) ∧
      (recoveryID sig < 2 ↔ (sig.headD 0).toNat ∈ [27, 28, 31, 32]) ∧
      (v = v' → (c = c' ↔ recoveryID sig = recoveryID sig')) ∧
      (recoveryID sig < 2 → recoveryID sig' < 2 → v = v' → c = c') := by
  obtain ⟨⟨-, -, value⟩, low, high⟩ := evmSigFromMPC_ok accepted
  obtain ⟨⟨-, -, value'⟩, -⟩ := evmSigFromMPC_ok accepted'
  have bound : recoveryID sig < 4 := Nat.mod_lt _ (by decide)
  have bound' : recoveryID sig' < 4 := Nat.mod_lt _ (by decide)
  change v = c * 2 + 35 + recoveryID sig at value
  change v' = c' * 2 + 35 + recoveryID sig' at value'
  refine ⟨?_, ?_, ?_, ?_⟩
  · constructor
    · rintro ⟨-, parity⟩
      omega
    · intro parity
      omega
  · simp only [recoveryID, List.mem_cons, List.not_mem_nil, or_false]
    omega
  · intro same
    omega
  · intro parity parity' same
    omega

/-- The compact signature with the compressed header of recovery identifier 1 names chain 1. -/
theorem v_names_chain_one : ∃ r s, evmSigFromMPC (32 :: List.replicate 64 1) 1 = .ok (r, s, 38) ∧
    (38 - 35) / 2 = 1 ∧ (38 - 35) % 2 = recoveryID (32 :: List.replicate 64 1) := by
  have accepted : evmSigFromMPC (32 :: List.replicate 64 1) 1 =
      .ok (setBytes (List.replicate 32 1), setBytes (List.replicate 32 1), 38) := rfl
  have named := (v_names_chain_iff accepted accepted).1.mpr (by decide)
  exact ⟨_, _, accepted, named⟩

/-- A signature with recovery identifier 2 for chain 1 has the `v` of one with recovery
identifier 0 for chain 2. -/
theorem v_names_other_chain : ∃ r s, evmSigFromMPC (29 :: List.replicate 64 1) 1 = .ok (r, s, 39) ∧
    evmSigFromMPC (27 :: List.replicate 64 1) 2 = .ok (r, s, 39) ∧ (39 - 35) / 2 = 2 := by
  have first : evmSigFromMPC (29 :: List.replicate 64 1) 1 =
      .ok (setBytes (List.replicate 32 1), setBytes (List.replicate 32 1), 39) := rfl
  have second : evmSigFromMPC (27 :: List.replicate 64 1) 2 =
      .ok (setBytes (List.replicate 32 1), setBytes (List.replicate 32 1), 39) := rfl
  exact ⟨_, _, first, second, rfl⟩

section Transactions

variable {tx : EVMLegacyTx} {libs : Libraries} {chain : Chain}

/-- A strict decoder reads the items of a pre-image. -/
theorem decode_evmEncodeLegacyForSigning {chainID : Nat}
    (fits : (evmEncodeLegacyForSigning tx chainID).length < 2 ^ 63) :
    Rlp.decode (evmEncodeLegacyForSigning tx chainID) =
      some (.list ((tx.signingItems chainID).map .string), []) := by
  have read := decode_evmEncodeList fits []
  rwa [List.append_nil] at read

/-- A pre-image determines its transaction and its chain. -/
theorem eq_of_preimage_eq {tx' : EVMLegacyTx} {chainID chainID' : Nat} (value : 0 ≤ tx.value)
    (value' : 0 ≤ tx'.value) (fits : (evmEncodeLegacyForSigning tx chainID).length < 2 ^ 63)
    (same : evmEncodeLegacyForSigning tx' chainID' = evmEncodeLegacyForSigning tx chainID) :
    tx' = tx ∧ chainID' = chainID := by
  have read' : Rlp.decode (evmEncodeLegacyForSigning tx' chainID') = _ :=
    decode_evmEncodeLegacyForSigning (by rwa [same])
  rw [same, decode_evmEncodeLegacyForSigning fits, Option.some.injEq, Prod.mk.injEq] at read'
  have named := EVMLegacyTx.ofItems_signingItems value' chainID'
  rw [← strings_injective read'.1, EVMLegacyTx.ofItems_signingItems value] at named
  cases named
  exact ⟨rfl, rfl⟩

/-- What `Assemble` returns for an accepted signature. -/
theorem assemble_ok {signature : Bytes} {r s v : Nat}
    (accepted : evmSigFromMPC signature libs.evmChainID = .ok (r, s, v)) :
    (tx.unsigned libs chain).assemble signature = .ok (evmEncodeSignedTx tx r s v) := by
  simp only [EVMLegacyTx.unsigned, accepted]

/-- For every legacy transaction with a non-negative value and every chain identifier, with
encodings that fit in memory: a strict decoder reads nine items from the pre-image, its numbers are
canonical, and the items name the transaction and the chain; another transaction and chain
identifier with the same pre-image are the same ones; and what `Assemble` makes of an accepted
signature is read as nine items, the first six those of the pre-image, the seventh `v`, and the last
two the halves of the signature without leading zeros. -/
theorem evm_signed_is_broadcast (value : 0 ≤ tx.value)
    (fits : (evmEncodeLegacyForSigning tx libs.evmChainID).length < 2 ^ 63) :
    ∃ items : List Bytes,
      Rlp.decode (evmEncodeLegacyForSigning tx libs.evmChainID) =
        some (.list (items.map .string), []) ∧
      items.length = 9 ∧
      (∀ i ∈ [0, 1, 2, 4, 6, 7, 8], ∀ item, items[i]? = some item → CanonicalNumber item) ∧
      EVMLegacyTx.ofItems items = some (tx, libs.evmChainID) ∧
      (∀ (tx' : EVMLegacyTx) (chainID' : Nat), 0 ≤ tx'.value →
        evmEncodeLegacyForSigning tx' chainID' = evmEncodeLegacyForSigning tx libs.evmChainID →
        tx' = tx ∧ chainID' = libs.evmChainID) ∧
      ∀ signature : Bytes, (evmSigFromMPC signature libs.evmChainID).isOk = true →
        ∃ raw, (tx.unsigned libs chain).assemble signature = .ok raw ∧
          (raw.length < 2 ^ 63 → ∃ signed : List Bytes,
            Rlp.decode raw = some (.list (signed.map .string), []) ∧
            signed.length = 9 ∧ signed.take 6 = items.take 6 ∧
            signed[6]? = some
              (bigUint (libs.evmChainID * 2 + 35 + ((signature.headD 0).toNat - 27) % 4)) ∧
            signed[7]? = some (((signature.drop 1).take 32).dropWhile (· = 0)) ∧
            signed[8]? = some (((signature.drop 33).take 32).dropWhile (· = 0))) := by
  refine ⟨tx.signingItems libs.evmChainID, decode_evmEncodeLegacyForSigning fits, rfl,
    fun i numeric item => EVMLegacyTx.canonical_signingItems numeric,
    EVMLegacyTx.ofItems_signingItems value _,
    fun tx' chainID' value' same => eq_of_preimage_eq value value' fits same, ?_⟩
  intro signature accepted
  cases parts : evmSigFromMPC signature libs.evmChainID with
  | error err =>
    rw [parts] at accepted
    cases accepted
  | ok found =>
    obtain ⟨r, s, v⟩ := found
    refine ⟨_, assemble_ok parts, fun fits' => ?_⟩
    obtain ⟨⟨rfl, rfl, rfl⟩, -⟩ := evmSigFromMPC_ok parts
    have signed := decode_evmEncodeList fits' []
    rw [List.append_nil] at signed
    exact ⟨_, signed, rfl, rfl, rfl, congrArg some (bigUint_setBytes _),
      congrArg some (bigUint_setBytes _)⟩

end Transactions

/-- The transaction of the withdrawal of one wei. -/
def sampleWeiTx : EVMLegacyTx :=
  ⟨0, 1000000000, 21000, (sampleWeiPreimage.drop 11).take 20, 1, []⟩

/-- A signature whose halves have leading zeros. -/
def sampleWeiSignature : Bytes := 28 :: List.replicate 31 0 ++ 5 :: List.replicate 31 0 ++ [7]

/-- The withdrawal of one wei is signed and broadcast as the same transaction: `v` is 38, and the
leading zeros of the signature are dropped. -/
theorem evm_signed_is_broadcast_wei :
    ∃ (raw : Bytes) (items signed : List Bytes),
      Rlp.decode sampleWeiPreimage = some (.list (items.map .string), []) ∧
      EVMLegacyTx.ofItems items = some (sampleWeiTx, 1) ∧
      (sampleWeiTx.unsigned sampleLibraries .ethereum).assemble sampleWeiSignature = .ok raw ∧
      Rlp.decode raw = some (.list (signed.map .string), []) ∧
      signed.take 6 = items.take 6 ∧
      signed[6]? = some [38] ∧ signed[7]? = some [5] ∧ signed[8]? = some [7] := by
  have preimage : evmEncodeLegacyForSigning sampleWeiTx sampleLibraries.evmChainID =
      sampleWeiPreimage := by decide +kernel
  obtain ⟨items, read, -, -, named, -, signing⟩ :=
    @evm_signed_is_broadcast sampleWeiTx sampleLibraries .ethereum (by decide) (by decide +kernel)
  obtain ⟨raw, assembled, parts⟩ := signing sampleWeiSignature (by decide +kernel)
  have short : (((sampleWeiTx.unsigned sampleLibraries .ethereum).assemble
      sampleWeiSignature).toOption.getD []).length < 2 ^ 63 := by decide +kernel
  rw [assembled] at short
  obtain ⟨signed, again, -, same, seventh, eighth, ninth⟩ := parts short
  exact ⟨raw, items, signed, preimage ▸ read, named, assembled, again, same, seventh, eighth, ninth⟩

end WalletManagement
