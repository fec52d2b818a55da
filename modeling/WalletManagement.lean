import WalletManagement.Interaction.Program
import WalletManagement.Interaction.Schedule
import WalletManagement.Interaction.Crew
import WalletManagement.Interaction.Blocks
import WalletManagement.Data.Table
import WalletManagement.Data.Firsts
import WalletManagement.Data.Handouts
import WalletManagement.Go.Stdlib
import WalletManagement.Go.Ascii
import WalletManagement.Digest
import WalletManagement.Domain
import WalletManagement.MemStore
import WalletManagement.MemStoreRows
import WalletManagement.System
import WalletManagement.TxBuilder
import WalletManagement.Withdrawal
import WalletManagement.SagaCalls
import WalletManagement.Scripted
import WalletManagement.WhitelistGate
import WalletManagement.SagaOutcome
import WalletManagement.NonceSafety
import WalletManagement.NonceReuse
import WalletManagement.NonceAllocator
import WalletManagement.BitcoinFee
import WalletManagement.EVMSigning
import WalletManagement.UTXOSafety
import WalletManagement.UTXOLeaks
import WalletManagement.UTXOSelection
import WalletManagement.InFlight
import WalletManagement.FailedFinal
import WalletManagement.ConcurrentBroadcast
import WalletManagement.Rotation
import WalletManagement.RotationActive
import WalletManagement.AddressIndex
import WalletManagement.Balance
import WalletManagement.BalanceOutcome
import WalletManagement.Books
import WalletManagement.ExactlyOnce
import WalletManagement.Reports
import WalletManagement.Reorganisation
import WalletManagement.OrderInsensitive
import WalletManagement.NumericColumns
import WalletManagement.Rlp
import WalletManagement.EVMEncoding
import WalletManagement.WalletLifecycle
import WalletManagement.ActiveSigning
import WalletManagement.KeyMappings
import WalletManagement.KeyStores
import WalletManagement.Funding
import WalletManagement.FundingSafety
import WalletManagement.FundingAcceptance
import WalletManagement.AuditOutbox
import WalletManagement.Solana
import WalletManagement.SolanaMessage
import WalletManagement.Derivation
import WalletManagement.DerivationCache
import WalletManagement.CoinSelection
import WalletManagement.FailedSigning
import WalletManagement.SignedAmounts
import WalletManagement.BalanceEventRows
import WalletManagement.NonceStores
import WalletManagement.AuditDelivery
import WalletManagement.TransactionBlocks
import WalletManagement.UTXOBatches
import WalletManagement.RotationPeriod
import WalletManagement.FailedRotation
import WalletManagement.AddressText
import WalletManagement.Callbacks
import WalletManagement.Interaction.Serial
import WalletManagement.StoreMutex
import WalletManagement.ConcurrentBalances
import WalletManagement.Interaction.Leases
import WalletManagement.RedisLocks
import WalletManagement.Lifecycle
import WalletManagement.Interaction.Snapshots
import WalletManagement.PostgresNonces
import WalletManagement.PostgresUTXOs
import WalletManagement.Interaction.Layers
import WalletManagement.RecoverableAddresses
import WalletManagement.Servers
