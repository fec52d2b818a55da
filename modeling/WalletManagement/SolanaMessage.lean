import WalletManagement.Solana
import WalletManagement.TxBuilder

/-!
# The message of a Solana withdrawal

`buildSolanaMessage` writes its message byte by byte. A reader of the legacy format accepts it, for
all keys, hashes and amounts, and finds the header, the accounts and the block hash that the builder
meant, and one instruction of the system program over the right accounts. The data of that
instruction is not a transfer: the builder writes the number of the instruction as one byte where
the system program reads four, so the data has nine bytes and not twelve.
-/

namespace WalletManagement

open Solana

/-- The builder writes its parts in the order of the format, with the length before each array. -/
theorem buildSolanaMessage_eq (source target blockhash : Bytes) (lamports : Nat) :
    buildSolanaMessage source target lamports blockhash =
      1 :: 0 :: 1 :: UInt8.ofNat [source, target, systemProgram].length ::
        ([source, target, systemProgram].flatten ++ (blockhash ++ 1 ::
          (2 :: UInt8.ofNat 2 :: ([0, 1] ++ UInt8.ofNat (2 :: littleEndian 8 lamports).length ::
            ((2 :: littleEndian 8 lamports) ++ []))))) := by
  simp [buildSolanaMessage, solanaSystemProgram, systemProgram, littleEndian64, littleEndian]

/-- The instruction that the builder writes, with one byte for its number. -/
def builtInstruction (lamports : Nat) : Instruction := ⟨2, [0, 1], 2 :: littleEndian 8 lamports⟩

/-- The instruction is read back. -/
theorem readInstruction_built (lamports : Nat) (rest : Bytes) :
    readInstruction (2 :: UInt8.ofNat 2 :: ([0, 1] ++
      UInt8.ofNat (2 :: littleEndian 8 lamports).length ::
        ((2 :: littleEndian 8 lamports) ++ rest))) = some (builtInstruction lamports, rest) := by
  have accounts (rest : Bytes) :
      readArray readByte (UInt8.ofNat 2 :: ([0, 1] ++ rest)) = some ([0, 1], rest) :=
    @readArray_bytes [0, 1] (by decide) rest
  have data := @readArray_bytes (2 :: littleEndian 8 lamports) (by simp) rest
  simp only [readInstruction, readByte, Option.bind_eq_bind, Option.bind_some, accounts, data]
  rfl

section Message

variable (source target blockhash : Vector UInt8 32) (lamports : Nat)

/-- The message that the builder writes. -/
def builtMessage : Message where
  numRequiredSignatures := 1
  numReadonlySignedAccounts := 0
  numReadonlyUnsignedAccounts := 1
  accountKeys := [source.toList, target.toList, systemProgram]
  recentBlockhash := blockhash.toList
  instructions := [builtInstruction lamports]

/-- The message is read back, and nothing follows it. -/
theorem readMessage_built :
    readMessage (buildSolanaMessage source.toList target.toList lamports blockhash.toList) =
      some (builtMessage source target blockhash lamports, []) := by
  have keys (rest : Bytes) := @readArray_keys [source.toList, target.toList, systemProgram] 32
    (by simp) (by simp [systemProgram]) rest
  have recent (rest : Bytes) : Rlp.splitFront 32 (blockhash.toList ++ rest) =
      some (blockhash.toList, rest) := by
    have front := Rlp.splitFront_append blockhash.toList rest
    rwa [Vector.length_toList] at front
  have one (rest : Bytes) : readCompact (1 :: rest) = some (1, rest) :=
    readCompact_of_lt (n := 1) (by decide) rest
  have legacy : ¬ (0x80 : UInt8) ≤ 1 := by decide
  rw [buildSolanaMessage_eq]
  simp only [readMessage, readByte, Option.bind_eq_bind, Option.bind_some, if_neg legacy, keys,
    recent]
  rw [readArray, one]
  simp only [Option.bind_eq_bind, Option.bind_some, readTimes, readInstruction_built]
  rfl

end Message

/-- For all keys, block hashes and amounts: a reader of the legacy format consumes the message and
finds one required signature, the accounts, the block hash, and one instruction to the system
program over the first two accounts. The data of that instruction is the number 2 in one byte and
the lamports in eight, so the message is not a transfer for any input. -/
theorem solana_message_is_no_transfer (source target blockhash : Vector UInt8 32)
    (lamports : UInt64) :
    (∃ message, readMessage (buildSolanaMessage source.toList target.toList lamports.toNat
        blockhash.toList) = some (message, []) ∧
      message.numRequiredSignatures = 1 ∧
      message.accountKeys = [source.toList, target.toList, systemProgram] ∧
      message.recentBlockhash = blockhash.toList ∧
      message.instructions = [⟨2, [0, 1], 2 :: littleEndian 8 lamports.toNat⟩]) ∧
    ¬ ∃ message, readMessage (buildSolanaMessage source.toList target.toList lamports.toNat
        blockhash.toList) = some (message, []) ∧
      message.Transfers source.toList target.toList lamports.toNat blockhash.toList := by
  have read := readMessage_built source target blockhash lamports.toNat
  refine ⟨⟨_, read, rfl, rfl, rfl, rfl⟩, ?_⟩
  rintro ⟨message, read', transfers⟩
  have same : message = builtMessage source target blockhash lamports.toNat :=
    congrArg Prod.fst (Option.some.inj (read'.symm.trans read))
  have instruction := transfers.instruction
  rw [same] at instruction
  -- nine bytes against twelve
  have data := congrArg (fun instructions => instructions.map (·.data.length)) instruction
  simp [builtMessage, builtInstruction, length_transferData] at data

/-- Keys of zeros and one lamport. -/
theorem one_lamport_is_no_transfer :
    ¬ ∃ message, readMessage (buildSolanaMessage (List.replicate 32 0) (List.replicate 32 0) 1
        (List.replicate 32 0)) = some (message, []) ∧
      message.Transfers (List.replicate 32 0) (List.replicate 32 0) 1 (List.replicate 32 0) := by
  rintro ⟨message, read, transfers⟩
  have found : (readMessage (buildSolanaMessage (List.replicate 32 0) (List.replicate 32 0) 1
      (List.replicate 32 0))).map (fun p => p.1.instructions.map (·.data)) =
        some [[2, 1, 0, 0, 0, 0, 0, 0, 0]] := by decide +kernel
  rw [read, Option.map_some, transfers.instruction] at found
  revert found
  decide

end WalletManagement
