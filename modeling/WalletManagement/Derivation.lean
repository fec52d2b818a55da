import WalletManagement.Rlp
import WalletManagement.Rotation
import WalletManagement.TxBuilder

/-!
# Deriving addresses

`internal/deriver` without its cache: the address of an index under an extended public key, for EVM
chains and for Bitcoin. Key derivation, the curve, the hashes and the address codecs are libraries
and parameters here; what the repository does with their results is written out. A Go panic is
`none`.

The EVM address is the hash of an uncompressed public key, which the repository lays out by itself.
It copies the minimal big-endian form of each coordinate to the start of its field, so a coordinate
with a leading zero byte ends up shifted to the left.
-/

namespace WalletManagement

open Go

/-! ## The libraries of the derivers -/

/-- `btcec.PublicKey`, by its affine coordinates. -/
structure PublicKey where
  x : Nat
  y : Nat
  deriving DecidableEq

/-- The libraries that the derivers call. -/
structure DerivationLibraries where
  /-- `hdkeychain.ExtendedKey`. -/
  ExtendedKey : Type
  /-- `strconv.Quote`, the `%q` verb of the error texts. -/
  quote : String → String
  /-- `hdkeychain.NewKeyFromString`. -/
  newKeyFromString : String → Except Err ExtendedKey
  /-- `ExtendedKey.Derive`. -/
  derive : ExtendedKey → Nat → Except Err ExtendedKey
  /-- `ExtendedKey.ECPubKey`. -/
  ecPubKey : ExtendedKey → Except Err PublicKey
  /-- `PublicKey.SerializeCompressed`. -/
  serializeCompressed : PublicKey → Bytes
  /-- `btcec.ParsePubKey`. -/
  parsePubKey : Bytes → Except Err PublicKey
  /-- `sha3.NewLegacyKeccak256`. -/
  keccak256 : Bytes → Bytes
  /-- `btcutil.Hash160`. -/
  hash160 : Bytes → Bytes
  /-- `bech32.ConvertBits` from eight bits to five, with padding. -/
  convertBits : Bytes → Except Err Bytes
  /-- `bech32.Encode`. -/
  bech32Encode : String → Bytes → Except Err String

/-- `nonHardened`. -/
def nonHardened (n : Int) : Except Err Nat :=
  if n < 0 ∨ 0x80000000 ≤ n then
    .error ⟨"derivation index " ++ n.repr ++ " out of non-hardened range", none⟩
  else .ok n.toNat

/-! ## EVM addresses -/

/-- `copy` into a slice of zeros of some width. -/
def copyInto (width : Nat) (source : Bytes) : Bytes :=
  source.take width ++ List.replicate (width - source.length) 0

section EVM

variable (libs : DerivationLibraries)

/-- `decompressSecp256k1`. -/
def decompressSecp256k1 (compressed : Bytes) : Except Err Bytes :=
  if compressed.length ≠ 33 then
    .error ⟨"invalid compressed pubkey length " ++ toString compressed.length, none⟩
  else
    match libs.parsePubKey compressed with
    | .error err => .error (err.wrap "parse pubkey")
    | .ok pk => .ok (0x04 :: (copyInto 32 (bigUint pk.x) ++ copyInto 32 (bigUint pk.y)))

/-- `strings.TrimPrefix(s, "0x")`. -/
def trimHexPrefix : List Char → List Char
  | '0' :: 'x' :: rest => rest
  | s => s

/-- `eip55Checksum`. A letter is capitalized by subtracting 32 from its code. -/
def eip55Checksum (addrLower : List Char) : String :=
  let addr := (trimHexPrefix addrLower).map Char.toLower
  let hh := hexEncode (libs.keccak256 (String.ofList addr).toUTF8.data.toList)
  "0x" ++ String.ofList (addr.mapIdx fun i c =>
    if '0' ≤ c ∧ c ≤ '9' then c
    else if '8' ≤ hh.getD i '0' then Char.ofNat (c.toNat - 32)
    else c)

/-- The address of an uncompressed public key without its first byte. -/
def evmAddress (coordinates : Bytes) : String :=
  eip55Checksum libs (hexEncode ((libs.keccak256 coordinates).drop 12))

/-- `evmAddressFromCompressedPubkey`, which panics on a key it cannot decompress. -/
def evmAddressFromCompressedPubkey (compressed : Bytes) : Option String :=
  if compressed.length ≠ 33 then none
  else
    match decompressSecp256k1 libs compressed with
    | .error _ => none
    | .ok pub => some (evmAddress libs (pub.drop 1))

/-- `EVMDeriver.deriveUncached`. -/
def evmDeriveUncached (xpub : String) (index : Int) : Option (Except Err String) :=
  match libs.newKeyFromString xpub with
  | .error err => some (.error (err.wrap "parse xpub"))
  | .ok acc =>
    match libs.derive acc 0 with
    | .error err => some (.error (err.wrap "derive external chain"))
    | .ok external =>
      match nonHardened index with
      | .error err => some (.error err)
      | .ok childIdx =>
        match libs.derive external childIdx with
        | .error err => some (.error (err.wrap ("derive index " ++ index.repr)))
        | .ok child =>
          match libs.ecPubKey child with
          | .error err => some (.error (err.wrap "ec pubkey"))
          | .ok pub =>
            (evmAddressFromCompressedPubkey libs (libs.serializeCompressed pub)).map .ok

/-! ## Bitcoin addresses -/

/-- `bech32Address`, for a witness program of a version and a hash. -/
def bech32Address (hrp : String) (version : UInt8) (hash : Bytes) : Except Err String :=
  match libs.convertBits hash with
  | .error err => .error err
  | .ok conv => libs.bech32Encode hrp (version :: conv)

/-- `BTCDeriver.deriveUncached`. The prefix is that of the main network, whatever the deriver was
constructed with. -/
def btcDeriveUncached (xpub : String) (index change : Int) : Except Err String :=
  match libs.newKeyFromString xpub with
  | .error err => .error (err.wrap "parse xpub")
  | .ok acc =>
    match nonHardened change with
    | .error err => .error err
    | .ok changeIdx =>
      match libs.derive acc changeIdx with
      | .error err => .error (err.wrap ("derive change chain " ++ change.repr))
      | .ok changeBranch =>
        match nonHardened index with
        | .error err => .error err
        | .ok childIdx =>
          match libs.derive changeBranch childIdx with
          | .error err => .error (err.wrap ("derive index " ++ index.repr))
          | .ok child =>
            match libs.ecPubKey child with
            | .error err => .error (err.wrap "ec pubkey")
            | .ok pub =>
              bech32Address libs "bc" 0x00 (libs.hash160 (libs.serializeCompressed pub))

end EVM

/-! ## The layout of uncompressed keys -/

/-- A number as big-endian bytes of some width, with zeros in front. -/
def leftPadded (width n : Nat) : Bytes :=
  List.replicate (width - (bigUint n).length) 0 ++ bigUint n

@[simp] theorem length_copyInto {width : Nat} {source : Bytes} (fits : source.length ≤ width) :
    (copyInto width source).length = width := by
  rw [copyInto, List.length_append, List.take_of_length_le fits, List.length_replicate]
  omega

@[simp] theorem length_leftPadded {width n : Nat} (fits : (bigUint n).length ≤ width) :
    (leftPadded width n).length = width := by
  rw [leftPadded, List.length_append, List.length_replicate]
  omega

/-- A number copied to the start of its field is right there if and only if it is zero or fills the
field. -/
theorem copyInto_eq_leftPadded {width n : Nat} (fits : n < 256 ^ width) :
    copyInto width (bigUint n) = leftPadded width n ↔ n = 0 ∨ 256 ^ (width - 1) ≤ n := by
  have length : (bigUint n).length ≤ width := Rlp.length_bigEndian_le fits
  have short : (bigUint n).length ≤ width - 1 ↔ n < 256 ^ (width - 1) :=
    Rlp.length_bigEndian_le_iff
  rw [copyInto, leftPadded, List.take_of_length_le length]
  constructor
  · intro same
    by_contra neither
    rw [not_or, Nat.not_le] at neither
    obtain ⟨nonzero, small⟩ := neither
    have occupied : 0 < (bigUint n).length := Rlp.length_bigEndian_pos (Nat.pos_of_ne_zero nonzero)
    have room : 0 < width - (bigUint n).length := by
      have bound := short.mpr small
      omega
    -- the first byte is a zero on the right and none on the left
    have heads := congrArg List.head? same
    rw [List.head?_append, List.head?_append, List.head?_replicate,
      if_neg (Nat.ne_of_gt room), Option.some_or] at heads
    have leading := Rlp.head?_bigEndian n
    change (bigUint n).head? ≠ some 0 at leading
    cases first : (bigUint n).head? with
    | none =>
      rw [List.head?_eq_none_iff] at first
      rw [first] at occupied
      cases occupied
    | some byte =>
      rw [first, Option.some_or] at heads
      exact leading (first.trans heads)
  · rintro (rfl | large)
    · simp [bigUint]
    · have full : width - (bigUint n).length = 0 := by
        have bound := mt short.mp (Nat.not_lt.mpr large)
        omega
      simp [full]

/-- For every compressed key that the library parses to coordinates below `2 ^ 256`:
`decompressSecp256k1` returns `0x04` and the coordinates as 32 big-endian bytes each, so that the
address is the one of the standard 64 bytes, if and only if each coordinate is zero or has no
leading zero byte. -/
theorem uncompressed_layout_iff (libs : DerivationLibraries) {compressed : Bytes} {pk : PublicKey}
    (length : compressed.length = 33) (parsed : libs.parsePubKey compressed = .ok pk)
    (x : pk.x < 2 ^ 256) (y : pk.y < 2 ^ 256) :
    decompressSecp256k1 libs compressed =
          .ok (0x04 :: (leftPadded 32 pk.x ++ leftPadded 32 pk.y)) ∧
        evmAddressFromCompressedPubkey libs compressed =
          some (evmAddress libs (leftPadded 32 pk.x ++ leftPadded 32 pk.y)) ↔
      (pk.x = 0 ∨ 2 ^ 248 ≤ pk.x) ∧ (pk.y = 0 ∨ 2 ^ 248 ≤ pk.y) := by
  have bits : (2 : Nat) ^ 256 = 256 ^ 32 := by norm_num
  have bits' : (2 : Nat) ^ 248 = 256 ^ (32 - 1) := by norm_num
  rw [bits] at x y
  rw [bits', ← copyInto_eq_leftPadded x, ← copyInto_eq_leftPadded y]
  have decompressed : decompressSecp256k1 libs compressed =
      .ok (0x04 :: (copyInto 32 (bigUint pk.x) ++ copyInto 32 (bigUint pk.y))) := by
    rw [decompressSecp256k1, if_neg (not_not.mpr length), parsed]
  have address : evmAddressFromCompressedPubkey libs compressed =
      some (evmAddress libs (copyInto 32 (bigUint pk.x) ++ copyInto 32 (bigUint pk.y))) := by
    rw [evmAddressFromCompressedPubkey, if_neg (not_not.mpr length), decompressed]
    rfl
  rw [decompressed, address]
  constructor
  · rintro ⟨layout, -⟩
    have parts := (List.cons.inj (Except.ok.inj layout)).2
    have widths : (copyInto 32 (bigUint pk.x)).length = (leftPadded 32 pk.x).length := by
      have fits : (bigUint pk.x).length ≤ 32 := Rlp.length_bigEndian_le x
      rw [length_copyInto fits, length_leftPadded fits]
    exact List.append_inj parts widths
  · rintro ⟨left, right⟩
    rw [left, right]
    exact ⟨rfl, rfl⟩

/-! ## Two keys of the curve -/

/-- The prime of the field of secp256k1. -/
def secp256k1Prime : Nat := 2 ^ 256 - 2 ^ 32 - 977

/-- A power modulo a number, by squaring; the fuel is the number of bits. -/
def powMod (modulus base : Nat) : Nat → Nat → Nat
  | 0, _ => 1
  | fuel + 1, exponent =>
    let half := powMod modulus base fuel (exponent / 2)
    if exponent % 2 = 1 then half * half % modulus * base % modulus else half * half % modulus

/-- `btcec.ParsePubKey` on compressed keys. The prime is 3 modulo 4, so a power is the square root
of `x ^ 3 + 7` if there is one, and the header gives its parity. -/
def parseCompressed : Bytes → Except Err PublicKey
  | [] => .error ⟨"malformed public key: invalid length: 0", none⟩
  | header :: digits =>
    let x := setBytes digits
    let square := (x ^ 3 + 7) % secp256k1Prime
    let root := powMod secp256k1Prime square 256 ((secp256k1Prime + 1) / 4)
    if (header ≠ 2 ∧ header ≠ 3) ∨ digits.length ≠ 32 then
      .error ⟨"invalid public key: unsupported format", none⟩
    else if secp256k1Prime ≤ x ∨ root * root % secp256k1Prime ≠ square then
      .error ⟨"invalid public key: not on the secp256k1 curve", none⟩
    else if root % 2 = header.toNat % 2 then .ok ⟨x, root⟩
    else .ok ⟨x, secp256k1Prime - root⟩

/-- The generator of the curve. -/
def generatorKey : PublicKey where
  x := 0x79be667ef9dcbbac55a06295ce870b07029bfcdb2dce28d959f2815b16f81798
  y := 0x483ada7726a3c4655da4fbfc0e1108a8fd17b448a68554199c47d08ffb10d4b8

/-- Libraries that parse keys of the curve and know two Keccak hashes: of the coordinates of the
generator, and of its address in lower case. -/
def sampleDerivation : DerivationLibraries where
  ExtendedKey := Unit
  quote s := "\"" ++ s ++ "\""
  newKeyFromString _ :=
    .error ⟨"the provided serialized extended key length is invalid", none⟩
  derive _ _ := .ok ()
  ecPubKey _ := .ok generatorKey
  serializeCompressed pk := (if pk.y % 2 = 0 then 2 else 3) :: leftPadded 32 pk.x
  parsePubKey := parseCompressed
  keccak256 message :=
    if message.length = 64 then
      bigUint 0xc0a6c424ac7157ae408398df7e5f4552091a69125d5dfcb7b8c2659029395bdf
    else bigUint 0xa8aaec6aceafa450816b295770adcd144ce18d630d6ce74288aa4f1569eda4ca
  hash160 := id
  convertBits := .ok
  bech32Encode hrp _ := .ok hrp

/-- The coordinates of the generator fill their fields, and its address is the known one. -/
theorem uncompressed_layout_iff_generator :
    decompressSecp256k1 sampleDerivation (2 :: leftPadded 32 generatorKey.x) =
        .ok (0x04 :: (leftPadded 32 generatorKey.x ++ leftPadded 32 generatorKey.y)) ∧
      evmAddressFromCompressedPubkey sampleDerivation (2 :: leftPadded 32 generatorKey.x) =
        some "0x7E5F4552091A69125d5DfCb7b8C2659029395Bdf" := by
  have parsed : sampleDerivation.parsePubKey (2 :: leftPadded 32 generatorKey.x) =
      .ok generatorKey := by decide +kernel
  have address : evmAddress sampleDerivation
      (leftPadded 32 generatorKey.x ++ leftPadded 32 generatorKey.y) =
        "0x7E5F4552091A69125d5DfCb7b8C2659029395Bdf" := by decide +kernel
  rw [← address]
  exact (uncompressed_layout_iff sampleDerivation (by decide +kernel) parsed (by decide)
    (by decide)).mpr (by decide)

/-- The point with the first coordinate 1 is on the curve. Its coordinate is copied to the first
byte of its field instead of the last one. -/
theorem key_of_one_shifted : ∃ pk : PublicKey,
    sampleDerivation.parsePubKey (2 :: leftPadded 32 1) = .ok pk ∧ pk.x = 1 ∧ pk.y < 2 ^ 256 ∧
      decompressSecp256k1 sampleDerivation (2 :: leftPadded 32 1) =
        .ok (0x04 :: (1 :: List.replicate 31 0 ++ leftPadded 32 pk.y)) ∧
      decompressSecp256k1 sampleDerivation (2 :: leftPadded 32 1) ≠
        .ok (0x04 :: (leftPadded 32 pk.x ++ leftPadded 32 pk.y)) :=
  ⟨⟨1, 0x4218f20ae6c646b363db68605822fb14264ca8d2587fdd6fbc750d587e76a7ee⟩, by decide +kernel, rfl,
    by decide, by decide +kernel, by decide +kernel⟩

end WalletManagement
