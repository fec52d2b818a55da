import WalletManagement.Rlp

/-!
# Legacy messages of the Solana network

A message is a header of three bytes, an array of account keys, a recent block hash and an array of
instructions. Every array is preceded by its length in the compact form: seven bits in each byte,
the least significant first, with the top bit set when another byte follows. The reader returns the
bytes after the message. The instruction of the system program that moves lamports has its number,
2, as four bytes and the lamports as eight, both little-endian.
-/

namespace Solana

abbrev Bytes := List UInt8

/-! ## Little-endian numbers -/

/-- The bytes of a number in a width, the least significant first. -/
def littleEndian (width n : Nat) : Bytes :=
  (List.range width).map fun i => UInt8.ofNat (n / 256 ^ i)

/-- The number that bytes write. -/
def value : Bytes → Nat
  | [] => 0
  | byte :: rest => byte.toNat + 256 * value rest

@[simp] theorem length_littleEndian (width n : Nat) : (littleEndian width n).length = width := by
  simp [littleEndian]

/-- The first byte is the remainder, and the others write the quotient. -/
theorem littleEndian_succ (width n : Nat) :
    littleEndian (width + 1) n = UInt8.ofNat n :: littleEndian width (n / 256) := by
  have shifted (i : Nat) : n / 256 ^ (i + 1) = n / 256 / 256 ^ i := by
    rw [Nat.pow_succ', Nat.div_div_eq_div_mul]
  simp [littleEndian, List.range_succ_eq_map, Function.comp_def, shifted]

/-- A number below the bound of its width is read back. -/
theorem value_littleEndian {width n : Nat} (fits : n < 256 ^ width) :
    value (littleEndian width n) = n := by
  induction width generalizing n with
  | zero =>
    have zero : n = 0 := by simpa using fits
    rw [zero]
    rfl
  | succ width ih =>
    have quotient : n / 256 < 256 ^ width :=
      Nat.div_lt_of_lt_mul (by rwa [Nat.pow_succ'] at fits)
    have byte : (UInt8.ofNat n).toNat = n % 256 := UInt8.toNat_ofNat'
    rw [littleEndian_succ, value, ih quotient, byte]
    omega

/-! ## The format -/

/-- An instruction: the program and the accounts by their place among the keys, and its data. -/
structure Instruction where
  programIDIndex : UInt8
  accounts : List UInt8
  data : Bytes
  deriving DecidableEq

/-- A legacy message. -/
structure Message where
  numRequiredSignatures : UInt8
  numReadonlySignedAccounts : UInt8
  numReadonlyUnsignedAccounts : UInt8
  accountKeys : List Bytes
  recentBlockhash : Bytes
  instructions : List Instruction
  deriving DecidableEq

/-- Read one byte. -/
def readByte : Bytes → Option (UInt8 × Bytes)
  | [] => none
  | byte :: rest => some (byte, rest)

/-- Read a length of at most three bytes, the last of which is not zero unless it is the only
one. -/
def readCompact : Bytes → Option (Nat × Bytes)
  | [] => none
  | low :: rest =>
    if low < 0x80 then some (low.toNat, rest)
    else
      match rest with
      | [] => none
      | middle :: rest =>
        if middle = 0 then none
        else if middle < 0x80 then some (low.toNat - 0x80 + 0x80 * middle.toNat, rest)
        else
          match rest with
          | [] => none
          | high :: rest =>
            if high = 0 ∨ 3 < high then none
            else
              some (low.toNat - 0x80 + 0x80 * (middle.toNat - 0x80) + 0x4000 * high.toNat, rest)

section Arrays

variable {α : Type} (read : Bytes → Option (α × Bytes))

/-- Read a number of items. -/
def readTimes : Nat → Bytes → Option (List α × Bytes)
  | 0, bytes => some ([], bytes)
  | n + 1, bytes => do
    let (item, bytes) ← read bytes
    let (items, bytes) ← readTimes n bytes
    some (item :: items, bytes)

/-- Read a length and that number of items. -/
def readArray (bytes : Bytes) : Option (List α × Bytes) := do
  let (n, bytes) ← readCompact bytes
  readTimes read n bytes

end Arrays

/-- Read an instruction. -/
def readInstruction (bytes : Bytes) : Option (Instruction × Bytes) := do
  let (programIDIndex, bytes) ← readByte bytes
  let (accounts, bytes) ← readArray readByte bytes
  let (data, bytes) ← readArray readByte bytes
  some (⟨programIDIndex, accounts, data⟩, bytes)

/-- Read a legacy message. The first byte of a message of a later version has its top bit set. -/
def readMessage (bytes : Bytes) : Option (Message × Bytes) := do
  let (required, bytes) ← readByte bytes
  if 0x80 ≤ required then none
  else
    let (readonlySigned, bytes) ← readByte bytes
    let (readonlyUnsigned, bytes) ← readByte bytes
    let (accountKeys, bytes) ← readArray (Rlp.splitFront 32) bytes
    let (recentBlockhash, bytes) ← Rlp.splitFront 32 bytes
    let (instructions, bytes) ← readArray readInstruction bytes
    some (⟨required, readonlySigned, readonlyUnsigned, accountKeys, recentBlockhash, instructions⟩,
      bytes)

/-- Read a transaction: its signatures, and the message that they sign. -/
def readTransaction (bytes : Bytes) : Option ((List Bytes × Message) × Bytes) := do
  let (signatures, bytes) ← readArray (Rlp.splitFront 64) bytes
  let (message, bytes) ← readMessage bytes
  some ((signatures, message), bytes)

/-- The key of the system program. -/
def systemProgram : Bytes := List.replicate 32 0

/-- The data of the instruction that moves lamports. -/
def transferData (lamports : Nat) : Bytes := littleEndian 4 2 ++ littleEndian 8 lamports

/-- The lamports that the data of an instruction names in its last eight bytes. -/
def Instruction.lamports (instruction : Instruction) : Nat :=
  value (instruction.data.drop (instruction.data.length - 8))

/-- The message moves lamports from the first key to the second, with one signature, by one
instruction of the system program. -/
structure Message.Transfers (message : Message) (source target : Bytes) (lamports : Nat)
    (blockhash : Bytes) : Prop where
  signatures : message.numRequiredSignatures = 1
  accounts : message.accountKeys = [source, target, systemProgram]
  recent : message.recentBlockhash = blockhash
  instruction : message.instructions = [⟨2, [0, 1], transferData lamports⟩]

/-! ## Reading back -/

/-- A length below 128 is one byte. -/
theorem readCompact_of_lt {n : Nat} (short : n < 0x80) (rest : Bytes) :
    readCompact (UInt8.ofNat n :: rest) = some (n, rest) := by
  have byte : (UInt8.ofNat n).toNat = n :=
    UInt8.toNat_ofNat_of_lt' (Nat.lt_of_lt_of_le short (by decide))
  have last : UInt8.ofNat n < 0x80 := by
    rw [UInt8.lt_iff_toNat_lt, byte]
    exact short
  simp only [readCompact, if_pos last, byte]

variable {α : Type} {read : Bytes → Option (α × Bytes)} {write : α → Bytes}

/-- Items that are each read back are read back in a row. -/
theorem readTimes_append (items : List α)
    (reads : ∀ item ∈ items, ∀ rest, read (write item ++ rest) = some (item, rest)) (rest : Bytes) :
    readTimes read items.length (items.flatMap write ++ rest) = some (items, rest) := by
  induction items with
  | nil => rfl
  | cons item items ih =>
    have first := reads item List.mem_cons_self (items.flatMap write ++ rest)
    have others := ih fun other member => reads other (List.mem_cons_of_mem _ member)
    rw [List.flatMap_cons, List.append_assoc, List.length_cons, readTimes, first]
    simp [others]

/-- An array of fewer than 128 items is read back. -/
theorem readArray_append {items : List α} (short : items.length < 0x80)
    (reads : ∀ item ∈ items, ∀ rest, read (write item ++ rest) = some (item, rest)) (rest : Bytes) :
    readArray read (UInt8.ofNat items.length :: (items.flatMap write ++ rest)) =
      some (items, rest) := by
  rw [readArray, readCompact_of_lt short]
  exact readTimes_append items reads rest

/-- An array of fewer than 128 bytes is read back. -/
theorem readArray_bytes {bytes : Bytes} (short : bytes.length < 0x80) (rest : Bytes) :
    readArray readByte (UInt8.ofNat bytes.length :: (bytes ++ rest)) = some (bytes, rest) := by
  have items : bytes.flatMap (fun byte => [byte]) = bytes := List.flatMap_singleton' bytes
  have array := @readArray_append _ readByte (fun byte => [byte]) bytes short
    (fun _ _ _ => rfl) rest
  rwa [items] at array

/-- An array of fewer than 128 strings of one width is read back. -/
theorem readArray_keys {keys : List Bytes} {size : Nat} (short : keys.length < 0x80)
    (width : ∀ key ∈ keys, key.length = size) (rest : Bytes) :
    readArray (Rlp.splitFront size) (UInt8.ofNat keys.length :: (keys.flatten ++ rest)) =
      some (keys, rest) := by
  have reads : ∀ key ∈ keys, ∀ rest, Rlp.splitFront size (id key ++ rest) = some (key, rest) := by
    intro key member rest
    have front := Rlp.splitFront_append key rest
    rwa [width key member] at front
  have array := readArray_append short reads rest
  rwa [List.flatMap_id] at array

/-- The data of a transfer takes twelve bytes. -/
theorem length_transferData (lamports : Nat) : (transferData lamports).length = 12 := by
  simp [transferData]

end Solana
